import Switchboard.Coordinator
import Switchboard.Tool.Arguments
import Switchboard.Tool.Schema

/-!
# Chat Tools

The tools that control conversations and runs. The conversations are also
offered as resources.

## Main definitions

* `ChatTools.toolbox`: The tools, for calls on one occasion.
* `ChatTools.startResult`: What is told about a run that was started or found.

## Theorems

* `ChatTools.call_unknown`: A tool that is not offered does nothing.
-/

namespace Switchboard

/-- The version of the tools. -/
def toolsVersion : String := "0.1.0"

namespace ChatTools

open Rpc (ToolError)

/-- The other names of the id of a conversation and of a run. -/
def conversationNames : List String := ["conversation_id"]

@[inherit_doc conversationNames]
def runNames : List String := ["inflight_id"]

/-- The id of a conversation, which has to be there. -/
def conversationOf (args : Arguments) : Except ToolError String :=
  args.requiredText "conversationId" conversationNames

/-- The name of a run, which has to be there. -/
def keyOf (args : Arguments) : Except ToolError RunKey := do
  let conversation ← conversationOf args
  let run ← args.requiredText "inflightId" runNames
  .ok ⟨conversation, run⟩

/-- A state unchanged by a call whose arguments are not in order. -/
def withArguments {α : Type} (read : Except ToolError α) (s : Coordinator)
    (call : α → Except ToolError Json × Coordinator) : Except ToolError Json × Coordinator :=
  match read with
  | .error e => (.error e, s)
  | .ok a => call a

/-- What is told about a conversation. -/
def conversationResult (c : Conversation) : Json :=
  .obj [("conversation", c.json)]

/-- The title of a conversation that is not given one. -/
def usualTitle : String := "New conversation"

/-- Make or rename a conversation. -/
def create (occasion : Occasion) (args : Arguments) (s : Coordinator) :
    Except ToolError Json × Coordinator :=
  let read : Except ToolError (String × Option String) := do
    let title ← args.text? "title"
    let id ← args.firstText? ("conversationId" :: conversationNames)
    .ok (title.getD usualTitle, id)
  withArguments read s fun (title, id) =>
    let (c, s) := s.createConversation occasion id title
    (.ok (conversationResult c), s)

/-- Archive a conversation. -/
def archive (occasion : Occasion) (args : Arguments) (s : Coordinator) :
    Except ToolError Json × Coordinator :=
  withArguments (conversationOf args) s fun id =>
    match s.archiveConversation occasion.now id with
    | (.ok c, s) => (.ok (conversationResult c), s)
    | (.error e, s) => (.error (.conflict e), s)

/-- Delete a conversation. -/
def delete (args : Arguments) (s : Coordinator) : Except ToolError Json × Coordinator :=
  withArguments (conversationOf args) s fun id =>
    match s.deleteConversation id with
    | (.ok (), s) => (.ok (.obj [("conversationId", .str id), ("deleted", .bool true)]), s)
    | (.error e, s) => (.error (.conflict e), s)

/-- What is told about a run that was started or found. -/
def startResult (registration : Registration) : Json :=
  let key := registration.snapshot.key
  .obj
    [("conversationId", .str key.conversation),
     ("created", .bool registration.isCreated),
     ("inflightId", .str key.run)]

/-- Start a run. -/
def start (occasion : Occasion) (args : Arguments) (s : Coordinator) :
    Except ToolError Json × Coordinator :=
  let read : Except ToolError (String × String × Option String) := do
    let conversation ← conversationOf args
    let prompt ← args.requiredText "prompt" ["message"]
    let run ← args.firstText? ("inflightId" :: runNames)
    .ok (conversation, prompt, run)
  withArguments read s fun (conversation, prompt, run) =>
    match s.startRun occasion conversation run prompt with
    | (.ok registration, s) => (.ok (startResult registration), s)
    | (.error e, s) => (.error (.ofRunError e), s)

/-- Cancel a run. -/
def cancel (occasion : Occasion) (args : Arguments) (s : Coordinator) :
    Except ToolError Json × Coordinator :=
  withArguments (keyOf args) s fun key =>
    let (ok, s) := s.cancelRun occasion.now key
    (.ok (.obj [("finalizedNow", .bool ok), ("ok", .bool ok)]), s)

/-- The newest run of a conversation, with or without its text. -/
def status (args : Arguments) (s : Coordinator) : Except ToolError Json × Coordinator :=
  let read : Except ToolError (String × Option Bool) := do
    let conversation ← conversationOf args
    let includeText ← args.flag? "includeText"
    .ok (conversation, includeText)
  withArguments read s fun (conversation, includeText) =>
    let run := (s.activeRun conversation).map fun run =>
      -- The text is only left out on request.
      if includeText = some false then { run with text := "" } else run
    (.ok (.obj
      [("active", .bool run.isSome),
       ("conversationId", .str conversation),
       ("locked", .bool (s.locks.isHeld conversation)),
       ("run", (run.map Snapshot.json).getD .null)]), s)

/-- Call a tool. -/
def call (occasion : Occasion) (tool : String) (arguments : Json) (s : Coordinator) :
    Except ToolError Json × Coordinator :=
  withArguments (Arguments.read arguments) s fun args =>
    if tool = "conversation_create" then create occasion args s
    else if tool = "conversation_archive" then archive occasion args s
    else if tool = "conversation_delete" then delete args s
    else if tool = "chat_start" then start occasion args s
    else if tool = "chat_cancel" then cancel occasion args s
    else if tool = "chat_status" then status args s
    else (.error (.notFound tool), s)

theorem call_unknown (occasion : Occasion) (tool : String) (arguments : Json) (s : Coordinator)
    (h : tool ∉ ["conversation_create", "conversation_archive", "conversation_delete",
      "chat_start", "chat_cancel", "chat_status"]) :
    (call occasion tool arguments s).2 = s := by
  simp only [List.mem_cons, List.not_mem_nil, or_false, not_or] at h
  obtain ⟨h1, h2, h3, h4, h5, h6⟩ := h
  unfold call withArguments
  split <;> simp [h1, h2, h3, h4, h5, h6]

/-- The tools as they are listed. -/
def tools : List Rpc.Tool :=
  let conversationOnly := Schema.object [("conversationId", .string)] ["conversationId"]
  [⟨"conversation_create", "Create a conversation, or rename it if the id exists.",
      Schema.object [("conversationId", .string), ("title", .string)] []⟩,
   ⟨"conversation_archive", "Archive a conversation. Archived conversations reject new runs.",
      conversationOnly⟩,
   ⟨"conversation_delete", "Delete a conversation that has no run in progress.",
      conversationOnly⟩,
   ⟨"chat_start", "Start a chat run. Repeating the same inflightId is idempotent.",
      Schema.object
        [("conversationId", .string), ("prompt", .string), ("inflightId", .string)]
        ["conversationId", "prompt"]⟩,
   ⟨"chat_cancel", "Cancel an active run.",
      Schema.object [("conversationId", .string), ("inflightId", .string)]
        ["conversationId", "inflightId"]⟩,
   ⟨"chat_status", "Snapshot of the conversation's active run, if any.",
      Schema.object [("conversationId", .string), ("includeText", .boolean)]
        ["conversationId"]⟩]

/-- A conversation as a resource. -/
def resource (c : Conversation) : Json :=
  .obj
    [("mimeType", .str "application/json"),
     ("name", .str c.title),
     ("uri", .str ("huddle://conversations/" ++ c.id))]

/-- The form of the resources. -/
def resourceTemplate : Json :=
  .obj
    [("mimeType", .str "application/json"),
     ("name", .str "conversation"),
     ("uriTemplate", .str "huddle://conversations/\x7bconversationId\x7d")]

/-- The tools, for calls on one occasion. -/
def toolbox (occasion : Occasion) : Rpc.Toolbox Coordinator where
  name := "huddle-chat"
  version := toolsVersion
  tools := tools
  resources s := s.directory.list.map resource
  resourceTemplates := [resourceTemplate]
  call tool arguments s :=
    let (result, s) := call occasion tool arguments s
    (result.map Json.canonical, s)

end ChatTools

end Switchboard

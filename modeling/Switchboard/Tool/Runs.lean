import Switchboard.Tool.Chat

/-!
# Run Tools

The tools that look at runs and holds. They change nothing.

## Main definitions

* `RunTools.toolbox`: The tools.

## Theorems

* `RunTools.toolbox_call`: A call leaves the state alone.
-/

namespace Switchboard

namespace RunTools

open Rpc (ToolError)

/-- The id of a conversation, if it is given. -/
def conversation? (args : Arguments) : Except ToolError (Option String) :=
  args.firstText? ("conversationId" :: ChatTools.conversationNames)

/-- A run as it is listed. -/
def entry (run : Snapshot) : Json :=
  .obj
    [("conversationId", .str run.key.conversation),
     ("inflightId", .str run.key.run),
     ("startedAt", .str run.startedAt.text),
     ("toolCount", .ofNat run.tools.length)]

/-- The runs, or those of one conversation, up to a number of them. -/
def select (runs : List Snapshot) (conversation : Option String) (limit : Option Nat) :
    List Snapshot :=
  let chosen := runs.filter fun run => conversation.all (run.key.conversation = ·)
  match limit with
  | some n => chosen.take n
  | none => chosen

/-- List the runs. -/
def list (args : Arguments) (s : Coordinator) : Except ToolError Json := do
  let conversation ← conversation? args
  let limit ← args.count? "limit"
  .ok (.obj [("runs", .arr ((select s.registry.active conversation limit).map entry))])

/-- Show a run, or the newest one of a conversation. -/
def snapshot (args : Arguments) (s : Coordinator) : Except ToolError Json := do
  let conversation ← ChatTools.conversationOf args
  let run ← args.firstText? ("inflightId" :: ChatTools.runNames)
  let found := match run with
    | some run => s.registry.get? ⟨conversation, run⟩
    | none => s.activeRun conversation
  .ok (.obj [("run", (found.map Snapshot.json).getD .null)])

/-- Say which conversations are held, or whether one is. -/
def locks (args : Arguments) (s : Coordinator) : Except ToolError Json := do
  match ← conversation? args with
  | some id => .ok (.obj [("conversationId", .str id), ("held", .bool (s.locks.isHeld id))])
  | none => .ok (.obj [("held", .arr (s.locks.heldIds.map .str))])

/-- Call a tool. -/
def call (tool : String) (arguments : Json) (s : Coordinator) : Except ToolError Json := do
  let args ← Arguments.read arguments
  if tool = "runs_list" then list args s
  else if tool = "run_snapshot" then snapshot args s
  else if tool = "lock_status" then locks args s
  else .error (.notFound tool)

/-- The tools as they are listed. -/
def tools : List Rpc.Tool :=
  [⟨"runs_list", "List active runs, optionally for one conversation.",
      Schema.object [("conversationId", .string), ("limit", .count)] []⟩,
   ⟨"run_snapshot", "Full state of a run: streamed text and tool calls.",
      Schema.object [("conversationId", .string), ("inflightId", .string)] ["conversationId"]⟩,
   ⟨"lock_status", "Which conversations currently hold the run lock.",
      Schema.object [("conversationId", .string)] []⟩]

/-- The tools. -/
def toolbox : Rpc.Toolbox Coordinator where
  name := "huddle-runs"
  version := toolsVersion
  tools := tools
  resources _ := []
  resourceTemplates := []
  call tool arguments s := ((call tool arguments s).map Json.canonical, s)

theorem toolbox_call (tool : String) (arguments : Json) (s : Coordinator) :
    (toolbox.call tool arguments s).2 = s := rfl

end RunTools

end Switchboard

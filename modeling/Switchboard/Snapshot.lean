import Switchboard.ToolCall
import Switchboard.Conversation

/-!
# Runs and their Snapshots

A run answers one prompt in one conversation. It is named by the conversation
and by an id that is chosen when the run is started and may be chosen again
later. A snapshot is everything a late follower needs to catch up with a run.

## Main definitions

* `RunKey`: The name of a run.
* `Snapshot`: The state of a run in flight.
* `FinalStatus`: How a run ended.
* `Snapshot.json`, `Snapshot.read`: The written form of a snapshot.
-/

namespace Switchboard

/-- The name of a run. -/
@[ext]
structure RunKey where
  conversation : String
  run : String
  deriving DecidableEq

/-- The state of a run in flight. -/
structure Snapshot where
  key : RunKey
  startedAt : Timestamp
  /-- The text of the current attempt so far. -/
  text : String
  tools : List ToolCall
  deriving BEq

/-- How a run ended. -/
inductive FinalStatus where
  | completed
  | error
  | cancelled
  deriving DecidableEq

namespace FinalStatus

/-- The names of the ways to end. -/
def names : List (String × FinalStatus) :=
  [("completed", .completed), ("error", .error), ("cancelled", .cancelled)]

/-- The name of a way to end. -/
def name : FinalStatus → String
  | .completed => "completed"
  | .error => "error"
  | .cancelled => "cancelled"

/-- Reads a way to end. -/
def read (emptyObject : Bool) : Json.Reads FinalStatus :=
  Json.readName emptyObject names

theorem lookup_name (s : FinalStatus) : names.lookup s.name = some s := by
  cases s <;> decide

end FinalStatus

namespace Snapshot

/-- The only status a snapshot can have. -/
def activeName : String := "active"

/-- The fields of a snapshot. -/
def fields (emptyObject : Bool) : List Json.Field :=
  [.required "conversationId" Json.readText,
   .required "inflightId" Json.readText,
   .required "status" (Json.readName emptyObject [(activeName, ())]),
   .required "startedAt" readTimestamp,
   .optionally "assistantText" Json.readText,
   .optionally "tools" (Json.readList ToolCall.read)]

/-- Reads a snapshot. -/
def read (emptyObject : Bool) : Json.Reads Snapshot :=
  Json.readRecord (fields emptyObject) fun fs => do
    let conversation ← fs.get "conversationId" Json.readText
    let run ← fs.get "inflightId" Json.readText
    let startedAt ← fs.get "startedAt" readTimestamp
    let text ← fs.getD "assistantText" Json.readText ""
    let tools ← fs.getD "tools" (Json.readList ToolCall.read) []
    .ok ⟨⟨conversation, run⟩, startedAt, text, tools⟩

/-- The written form of a snapshot. -/
def json (s : Snapshot) : Json :=
  .record
    [Json.field "conversationId" (.str s.key.conversation),
     Json.field "inflightId" (.str s.key.run),
     Json.field "status" (.str activeName),
     Json.field "startedAt" (.str s.startedAt.text),
     Json.field "assistantText" (.str s.text),
     Json.field "tools" (.arr (s.tools.map ToolCall.json))]

end Snapshot

end Switchboard

import Switchboard.Json.Record
import Switchboard.Timestamp

/-!
# Conversations

What the sidebar shows of a conversation.

## Main definitions

* `Conversation`: The summary of a conversation.
* `Conversation.json`, `Conversation.read`: Its written form.
* `readTimestamp`: Reads a timestamp from its text.
-/

namespace Switchboard

/-- Reads a timestamp from its text. -/
def readTimestamp : Json.Reads Timestamp
  | room, o => do
    let s ← Json.readText room o
    match Timestamp.read? s with
    | some t => .ok t
    | none => .error .mismatch

/-- The summary of a conversation. -/
structure Conversation where
  id : String
  title : String
  archived : Bool
  /-- When the summary was stored last. -/
  updatedAt : Timestamp
  /-- The id of the run that is in flight, if there is one. -/
  activeRun : Option String
  deriving DecidableEq

namespace Conversation

/-- The summary of a conversation that was just made. -/
def fresh (id title : String) (now : Timestamp) : Conversation :=
  ⟨id, title, false, now, none⟩

/-- The fields of a summary. -/
def fields : List Json.Field :=
  [.required "id" Json.readText,
   .required "title" Json.readText,
   .optionally "archived" Json.readFlag,
   .required "updatedAt" readTimestamp,
   .optionally "activeInflightId" (Json.readNullable Json.readText)]

/-- Reads a summary. -/
def read : Json.Reads Conversation :=
  Json.readRecord fields fun fs => do
    let id ← fs.get "id" Json.readText
    let title ← fs.get "title" Json.readText
    let archived ← fs.getD "archived" Json.readFlag false
    let updatedAt ← fs.get "updatedAt" readTimestamp
    let activeRun ← fs.get? "activeInflightId" Json.readText
    .ok ⟨id, title, archived, updatedAt, activeRun⟩

/-- The written form of a summary. -/
def json (c : Conversation) : Json :=
  .record
    [Json.field "id" (.str c.id),
     Json.field "title" (.str c.title),
     Json.field "archived" (.bool c.archived),
     Json.field "updatedAt" (.str c.updatedAt.text),
     Json.field? "activeInflightId" (c.activeRun.map .str)]

end Conversation

end Switchboard

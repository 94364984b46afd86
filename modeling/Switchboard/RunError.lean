import Switchboard.Json.Record

/-!
# Conflicts

Why a conversation or a run cannot do what is asked. A conflict has a code that
programs can rely on and a message for people.

## Main definitions

* `Conflict.Code`, `Conflict`: A code, and a code with its message.
* `Conflict.notFound`, `Conflict.archived`, `Conflict.busy`: The conflicts of a conversation.
* `RunError`: Why a run cannot be started.
* `Conflict.json`, `Conflict.read`: The written form of a conflict.
-/

namespace Switchboard

/-- What kind of conflict there is. -/
inductive Conflict.Code where
  | conversationNotFound
  | conversationArchived
  | runInProgress
  deriving DecidableEq

/-- A conflict with the state of a conversation. -/
structure Conflict where
  code : Conflict.Code
  message : String
  deriving DecidableEq

/-- Why a run cannot be started. -/
inductive RunError where
  | conflict (c : Conflict)
  /-- There is nobody to answer prompts. -/
  | noProvider
  deriving DecidableEq

namespace Conflict

namespace Code

/-- The names of the codes. -/
def names : List (String × Code) :=
  [("conversation_not_found", .conversationNotFound),
   ("conversation_archived", .conversationArchived), ("run_in_progress", .runInProgress)]

/-- The name of a code. -/
def name : Code → String
  | .conversationNotFound => "conversation_not_found"
  | .conversationArchived => "conversation_archived"
  | .runInProgress => "run_in_progress"

theorem lookup_name (c : Code) : names.lookup c.name = some c := by
  cases c <;> decide

end Code

/-- The conversation does not exist. -/
def notFound (conversation : String) : Conflict :=
  ⟨.conversationNotFound, "conversation " ++ conversation ++ " does not exist"⟩

/-- The conversation is archived. -/
def archived (conversation : String) : Conflict :=
  ⟨.conversationArchived, "conversation " ++ conversation ++ " is archived"⟩

/-- The conversation has a run already. -/
def busy (conversation : String) : Conflict :=
  ⟨.runInProgress, "a run is already in progress for conversation " ++ conversation⟩

/-- The conflict with a code, for a conversation. -/
def ofCode (code : Code) (conversation : String) : Conflict :=
  match code with
  | .conversationNotFound => notFound conversation
  | .conversationArchived => archived conversation
  | .runInProgress => busy conversation

/-- The written form of a conflict. -/
def json (c : Conflict) : Json :=
  .record [Json.field "code" (.str c.code.name), Json.field "message" (.str c.message)]

/-- Reads a conflict. -/
def read : Json.Reads Conflict :=
  Json.readRecord
    [.required "code" (Json.readName false Code.names), .required "message" Json.readText]
    fun fs => do
      let code ← fs.get "code" (Json.readName false Code.names)
      let message ← fs.get "message" Json.readText
      .ok ⟨code, message⟩

end Conflict

namespace RunError

/-- The words for an error. -/
def message : RunError → String
  | .conflict c => c.message
  | .noProvider => "no chat provider is available"

end RunError

end Switchboard

import Switchboard.Conversation
import Switchboard.Table

/-!
# The Directory

The conversations there are. Whoever stores a summary sets its time.

## Main definitions

* `Directory`: The summaries by id.
* `Directory.upsert`: Store a summary.
* `Directory.delete`: Take a summary out.
* `Directory.list`: The summaries, the one stored last first.

## Theorems

* `Directory.upsert_get?`: A summary that is stored is found again, with the new time.
-/

namespace Switchboard

/-- The summaries of the conversations by id. -/
structure Directory where
  conversations : Table String Conversation

namespace Directory

/-- A directory without conversations. -/
def fresh : Directory :=
  ⟨.empty⟩

/-- The summary of a conversation. -/
def get? (d : Directory) (id : String) : Option Conversation :=
  d.conversations.get? id

/-- Store a summary. -/
def upsert (d : Directory) (now : Timestamp) (c : Conversation) : Directory :=
  ⟨d.conversations.insert c.id { c with updatedAt := now }⟩

/-- Take a summary out. -/
def delete (d : Directory) (id : String) : Directory :=
  ⟨d.conversations.erase id⟩

/-- Whether a summary is listed before another, or together with it: the one stored later
    first, then by id. -/
def listedBefore (a b : Conversation) : Bool :=
  if a.updatedAt = b.updatedAt then a.id ≤ b.id else b.updatedAt.before a.updatedAt

/-- The summaries, the one stored last first. -/
def list (d : Directory) : List Conversation :=
  d.conversations.values.mergeSort listedBefore

theorem upsert_get? (d : Directory) (now : Timestamp) (c : Conversation) (id : String) :
    (d.upsert now c).get? id = if id = c.id then some { c with updatedAt := now } else d.get? id :=
  Table.get?_insert ..

end Directory

end Switchboard

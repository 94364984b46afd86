import Switchboard.Hub.Mailbox
import Switchboard.Hub.Roster

/-!
# The Hub

The roster and the mailboxes. A frame that is addressed to a connection is
offered to its mailbox; a mailbox that is full or closed loses it, which nobody
else notices. A mailbox outlives the attachment of its connection, so that what
arrived before can still be read.

## Main definitions

* `Hub`: The roster and the mailboxes by connection.
* `Hub.attach`: A new connection with a mailbox.
* `Hub.subscribeSidebar?`, `Hub.subscribe?`: A connection follows a topic.
* `Hub.publishSidebar`, `Hub.publish`: A frame for everybody who follows a topic.

## Theorems

* `Hub.deliverAll_roster`: Mailboxes do not change who follows what.
-/

namespace Switchboard

/-- The roster and the mailboxes. -/
structure Hub where
  roster : Roster
  mailboxes : Table Nat Mailbox

namespace Hub

/-- Nobody is there. -/
def fresh : Hub :=
  ⟨.fresh, .empty⟩

/-- Offer a frame to the mailbox it is addressed to. -/
def deliver (hub : Hub) (d : Delivery) : Hub :=
  { hub with mailboxes := hub.mailboxes.update d.connection (·.offer d.frame) }

/-- Offer frames to the mailboxes they are addressed to. -/
def deliverAll (hub : Hub) (ds : List Delivery) : Hub :=
  ds.foldl deliver hub

theorem deliverAll_roster (hub : Hub) (ds : List Delivery) :
    (hub.deliverAll ds).roster = hub.roster := by
  induction ds generalizing hub with
  | nil => rfl
  | cons d rest ih => exact ih (hub.deliver d)

/-- A new connection with a mailbox. -/
def attach (hub : Hub) (capacity : Nat) : Nat × Hub :=
  let (connection, roster) := hub.roster.attach
  (connection, ⟨roster, hub.mailboxes.insert connection (.ofCapacity capacity)⟩)

/-- A connection goes. -/
def detach (hub : Hub) (connection : Nat) : Hub :=
  { hub with roster := hub.roster.detach connection }

/-- Everybody goes, and every topic starts anew. -/
def reset (hub : Hub) : Hub :=
  { hub with roster := hub.roster.reset }

/-- Close the mailbox of a connection. -/
def closeMailbox (hub : Hub) (connection : Nat) : Hub :=
  { hub with mailboxes := hub.mailboxes.update connection Mailbox.close }

/-- The frames that wait for a connection. -/
def waiting (hub : Hub) (connection : Nat) : List Frame :=
  ((hub.mailboxes.get? connection).map (·.items)).getD []

/-- Take the first frame out of the mailbox of a connection. -/
def take? (hub : Hub) (connection : Nat) : Option (Frame × Hub) :=
  ((hub.mailboxes.get? connection).bind Mailbox.take?).map fun (f, m) =>
    (f, { hub with mailboxes := hub.mailboxes.insert connection m })

/-- Take all frames out of the mailbox of a connection. -/
def drain (hub : Hub) (connection : Nat) : List Frame × Hub :=
  (hub.waiting connection,
    { hub with mailboxes := hub.mailboxes.update connection fun m => { m with items := [] } })

/-- A connection follows the sidebar, if it is there. -/
def subscribeSidebar? (hub : Hub) (connection : Nat) : Option Hub :=
  (hub.roster.joinSidebar? connection).map fun roster => { hub with roster }

/-- A connection follows a conversation, if it is there. It is said whether the state of a run
    was sent to it. -/
def subscribe? (hub : Hub) (connection : Nat) (conversation : String) (active : Option Snapshot) :
    Option (Bool × Hub) :=
  (hub.roster.joinConversation? connection conversation active).map fun (ds, roster) =>
    (!ds.isEmpty, ({ hub with roster }).deliverAll ds)

/-- A frame for everybody who follows the sidebar, with its number. -/
def publishSidebar (hub : Hub) (event : SidebarEvent) : Nat × Hub :=
  let ((seq, ds), roster) := hub.roster.publishSidebar event
  (seq, ({ hub with roster }).deliverAll ds)

/-- A frame for everybody who follows a conversation, with its number, if anybody does. -/
def publish (hub : Hub) (conversation : String) (event : ConversationEvent) : Option Nat × Hub :=
  match hub.roster.publish? conversation event with
  | none => (none, hub)
  | some ((seq, ds), roster) => (some seq, ({ hub with roster }).deliverAll ds)

end Hub

end Switchboard

import Switchboard.Frame.Basic

/-!
# Mailboxes

The queue of frames that wait for a connection. It takes a bounded number of
frames; what does not fit is lost, and so is everything after it was closed.

## Main definitions

* `Mailbox`: A queue.
* `Mailbox.offer`: Put a frame in, if there is room.
* `Mailbox.take?`: Take the first frame out.
* `Mailbox.close`: Throw the frames away and take no more.

## Theorems

* `Mailbox.offer_items`: A frame goes to the end, or nowhere.
-/

namespace Switchboard

/-- A queue of frames. -/
structure Mailbox where
  capacity : Nat
  /-- The frames that wait, the first one to leave first. -/
  items : List Frame
  closed : Bool

namespace Mailbox

/-- An empty mailbox. It takes at least one frame. -/
def ofCapacity (n : Nat) : Mailbox :=
  ⟨max n 1, [], false⟩

/-- Whether a frame would be taken. -/
def hasRoom (m : Mailbox) : Bool :=
  !m.closed && m.items.length < m.capacity

/-- Put a frame in, if there is room. -/
def offer (m : Mailbox) (f : Frame) : Mailbox :=
  if m.hasRoom then { m with items := m.items ++ [f] } else m

/-- The first frame and the mailbox without it. -/
def take? (m : Mailbox) : Option (Frame × Mailbox) :=
  match m.items with
  | [] => none
  | f :: rest => some (f, { m with items := rest })

/-- Throw the frames away and take no more. -/
def close (m : Mailbox) : Mailbox :=
  { m with items := [], closed := true }

theorem offer_items (m : Mailbox) (f : Frame) :
    (m.offer f).items = m.items ++ (if m.hasRoom then [f] else []) := by
  rw [offer]
  split <;> simp

end Mailbox

end Switchboard

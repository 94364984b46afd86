import Switchboard.Table

/-!
# Locks

Which conversations are held. A conversation is held or it is not; every hold
has a generation of its own, so that a guard that outlives its hold does not
free the next one.

## Main definitions

* `Locks`: The holds.
* `Guard`: The right to give one hold back.
* `Locks.acquire?`: Take a hold, if there is none.
* `Locks.release`, `Locks.drop`, `Locks.reset`: Give holds back.
* `Locks.heldIds`: The conversations that are held, sorted.

## Theorems

* `Locks.acquire?_isSome`: A hold is taken iff the conversation is not held.
* `Locks.drop_stale`: A guard whose hold is over changes nothing.
-/

namespace Switchboard

/-- The holds. -/
structure Locks where
  /-- The conversations that are held, with the generations of the holds. -/
  held : Table String Nat
  /-- The number of holds ever taken. -/
  taken : Nat

/-- The right to give one hold back. -/
structure Guard where
  conversation : String
  generation : Nat
  deriving DecidableEq

namespace Locks

/-- Nothing is held. -/
def fresh : Locks :=
  ⟨.empty, 0⟩

/-- Whether a conversation is held. -/
def isHeld (l : Locks) (conversation : String) : Bool :=
  l.held.contains conversation

/-- Take a hold, if the conversation is not held. -/
def acquire? (l : Locks) (conversation : String) : Option (Guard × Locks) :=
  if l.isHeld conversation then none
  else
    let generation := l.taken + 1
    some (⟨conversation, generation⟩, ⟨l.held.insert conversation generation, generation⟩)

/-- Give the hold on a conversation back, whoever took it. -/
def release (l : Locks) (conversation : String) : Locks :=
  { l with held := l.held.erase conversation }

/-- Give the hold of a guard back, if it is the current one. -/
def drop (l : Locks) (guard : Guard) : Locks :=
  if l.held.get? guard.conversation = some guard.generation then l.release guard.conversation
  else l

/-- Give every hold back. -/
def reset (l : Locks) : Locks :=
  { l with held := .empty }

/-- The conversations that are held, sorted. -/
def heldIds (l : Locks) : List String :=
  l.held.keys.mergeSort

theorem acquire?_isSome (l : Locks) (conversation : String) :
    (l.acquire? conversation).isSome = !l.isHeld conversation := by
  cases h : l.isHeld conversation <;> simp [acquire?, h]

theorem drop_stale (l : Locks) (guard : Guard)
    (h : l.held.get? guard.conversation ≠ some guard.generation) : l.drop guard = l := by
  rw [drop, if_neg h]

end Locks

end Switchboard

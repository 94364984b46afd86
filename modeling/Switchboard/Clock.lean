/-!
# Waiting

The end of a wait. Nobody waits longer than thirty years at a time, however
much is asked for, so every wait has an end that can be told.

Times and durations are in milliseconds.

## Main definitions

* `Clock.longestWait`: The longest wait.
* `Clock.after`: The time at which a wait is over.

## Theorems

* `Clock.after_of_le`: A wait that is not too long lasts as long as is asked for.
* `Clock.after_le`: No wait lasts longer than the longest one.
-/

namespace Switchboard

namespace Clock

/-- The longest wait: thirty years of 365 days. -/
def longestWait : Nat := 30 * 365 * 24 * 60 * 60 * 1000

/-- The time at which a wait of some length is over that begins at a given time. -/
def after (now ms : Nat) : Nat :=
  now + min ms longestWait

theorem after_of_le (now : Nat) {ms : Nat} (h : ms ≤ longestWait) : after now ms = now + ms := by
  rw [after, Nat.min_eq_left h]

theorem after_le (now ms : Nat) : after now ms ≤ now + longestWait :=
  Nat.add_le_add_left (Nat.min_le_right ms longestWait) now

theorem le_after (now ms : Nat) : now ≤ after now ms :=
  Nat.le_add_right now _

end Clock

end Switchboard

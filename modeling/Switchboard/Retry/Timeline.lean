import Switchboard.Clock
import Switchboard.Retry.Basic

/-!
# Retrying on a Timeline

A retried operation whose attempts are known beforehand, with a clock that only
moves when an attempt or a delay takes time. It shows what the loop does, and
when, for every plan of failures and cancellations.

## Main definitions

* `Retry.Attempt`: How long an attempt takes and how it ends.
* `Retry.Plan`: The attempts and the moments of cancellation.
* `Retry.Entry`, `Retry.Journal`: What happened, in order, and when it is.
* `Retry.Plan.effects`: The plan as an operation on a journal.
* `Retry.Plan.run`: The result and the journal of the loop.
-/

namespace Switchboard

namespace Retry

/-- How long an attempt takes and how it ends. -/
structure Attempt (α : Type) where
  /-- The time the attempt takes. -/
  takes : Nat
  /-- Whether the operation is cancelled during the attempt. -/
  cancels : Bool
  result : Except String α

/-- The attempts of an operation and the moments of cancellation. -/
structure Plan (α : Type) where
  /-- The attempts; the last one is repeated. -/
  attempts : List (Attempt α)
  /-- The attempt that is made if none is listed. -/
  fallback : Attempt α
  cancelAtStart : Bool
  /-- How long after the start the operation is cancelled, if it is. -/
  cancelAfter : Option Nat
  /-- The attempt after whose failure the operation is cancelled while it is told. -/
  cancelInNotice : Option Nat
  /-- The delay, counted from one, at whose start the operation is cancelled. -/
  cancelInDelay : Option Nat
  /-- Whether delays are written down instead of being waited for. -/
  recordDelays : Bool

/-- Something that happened. -/
inductive Entry where
  | called (n : Nat)
  | noticed (n : Nat) (error : String)
  | delayed (ms : Nat)
  deriving DecidableEq

/-- What happened so far, and when it is. -/
structure Journal where
  now : Nat
  cancelled : Bool
  delays : Nat
  entries : List Entry

namespace Plan

variable {α : Type}

/-- Attempt `n` of a plan. -/
def attempt (plan : Plan α) (n : Nat) : Attempt α :=
  match plan.attempts[n - 1]? with
  | some a => a
  | none => plan.attempts.getLastD plan.fallback

/-- The time of cancellation. -/
def cancelTime? (plan : Plan α) : Option Nat :=
  plan.cancelAfter.map (Clock.after 0)

/-- Whether the operation is cancelled. -/
def isCancelled (plan : Plan α) (j : Journal) : Bool :=
  j.cancelled || match plan.cancelTime? with
    | some t => decide (t ≤ j.now)
    | none => false

/-- A delay on the clock; a cancellation cuts it short. -/
def waited (plan : Plan α) (delay : Nat) (j : Journal) : Bool × Journal :=
  if plan.isCancelled j then (true, j)
  else
    let wakeTime := Clock.after j.now delay
    match plan.cancelTime? with
    | some t =>
      if t ≤ wakeTime then (true, { j with now := t }) else (false, { j with now := wakeTime })
    | none => (false, { j with now := wakeTime })

/-- A delay that is only written down. -/
def recorded (plan : Plan α) (delay : Nat) (j : Journal) : Bool × Journal :=
  let count := j.delays + 1
  let j := { j with
    delays := count
    entries := j.entries ++ [.delayed delay]
    cancelled := j.cancelled || plan.cancelInDelay == some count }
  (plan.isCancelled j, j)

/-- The plan as an operation on a journal. -/
def effects (plan : Plan α) : Effects Journal String α where
  cancelled := plan.isCancelled
  attempt n j :=
    let a := plan.attempt n
    (a.result, { j with
      now := Clock.after j.now a.takes
      cancelled := j.cancelled || a.cancels
      entries := j.entries ++ [.called n] })
  notify n e j :=
    { j with
      entries := j.entries ++ [.noticed n e]
      cancelled := j.cancelled || plan.cancelInNotice == some n }
  sleep delay j := if plan.recordDelays then plan.recorded delay j else plan.waited delay j

/-- The result and the journal of retrying a plan. -/
def run (plan : Plan α) (policy : RetryPolicy) (retryable : String → Bool) :
    Except (RetryFailure String) α × Journal :=
  Retry.run policy retryable plan.effects ⟨0, plan.cancelAtStart, 0, []⟩

end Plan

end Retry

end Switchboard

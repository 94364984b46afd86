import Switchboard.Duration

/-!
# Retrying

An operation that may fail is tried again after a delay that doubles with every
attempt up to a limit, as long as the failure is one that another attempt may
help, attempts are left and nobody has cancelled.

What to do after an attempt is one decision, `RetryPolicy.judge`. The loop
`Retry.run` makes it for an operation given by the effects it has on a state;
who drives an operation by other means uses the decision alone.

A policy and the delays that it gives are in milliseconds. The doubling is done
on machine durations: the factor is a power of two made by a shift of a word,
and a product that does not fit is cut off before the limit is looked at.

## Main definitions

* `RetryPolicy`: How often and how fast to try.
* `RetryPolicy.backoff`: The delay after a failed attempt, for two durations.
* `RetryPolicy.delayAfter`: The delay after a failed attempt.
* `RetryFailure`: How a retried operation fails.
* `RetryPolicy.judge`: What follows an attempt.
* `Retry.Effects`, `Retry.run`: The loop over a state.

## Theorems

* `RetryPolicy.inNanos_backoff`: The delay doubles exactly up to its limit.
* `RetryPolicy.delayAfter_eq`: The delay of a policy, as a number.
* `RetryPolicy.delayAfter_le`: No delay exceeds the limit.
* `RetryPolicy.judge_ok`: A success is final, cancelled or not.
-/

namespace Switchboard

/-- How often and how fast to try. -/
structure RetryPolicy where
  /-- How many attempts there are; at least one is made in any case. -/
  maxAttempts : Nat
  /-- The delay after the first attempt. -/
  baseDelay : Nat
  /-- The longest delay. -/
  maxDelay : Nat
  deriving DecidableEq

/-- How a retried operation fails. -/
inductive RetryFailure (ε : Type) where
  /-- The operation was cancelled between or after attempts. -/
  | aborted
  /-- The last attempt failed for good. -/
  | failed (attempts : Nat) (error : ε)
  deriving DecidableEq

/-- The words for a failure, given the words for the error of an attempt. -/
def RetryFailure.message {ε : Type} (words : ε → String) : RetryFailure ε → String
  | .aborted => "operation aborted"
  | .failed attempts error =>
    "operation failed after " ++ toString attempts ++ " attempt(s): " ++ words error

namespace RetryPolicy

/-- The policy of a server that is not told otherwise. -/
def standard : RetryPolicy := ⟨3, 500, 8000⟩

/-- The number of doublings after which the delay stops to grow. -/
def maxDoublings : Nat := 16

/-- The number of attempts that are made at most. -/
def attempts (p : RetryPolicy) : Nat :=
  max p.maxAttempts 1

/-- The factor of the delay after failed attempt `n`; attempts are counted from one. -/
def factor (n : Nat) : UInt32 :=
  1 <<< UInt32.ofNat (min (n - 1) maxDoublings)

/-- The delay after failed attempt `n`, given the first delay and the longest one. -/
def backoff (base most : Duration) (n : Nat) : Duration :=
  (base.times (factor n)).shorter most

/-- The delay after failed attempt `n`. -/
def delayAfter (p : RetryPolicy) (n : Nat) : Nat :=
  (backoff (.ofMillis p.baseDelay) (.ofMillis p.maxDelay) n).millis

/-- No doubling is lost to the size of a word. -/
theorem factor_toNat (n : Nat) : (factor n).toNat = Nat.pow 2 (min (n - 1) maxDoublings) := by
  have hfew : min (n - 1) maxDoublings ≤ 16 := Nat.min_le_right _ _
  rw [factor]
  generalize min (n - 1) maxDoublings = k at hfew
  have hpower : Nat.pow 2 k < Nat.pow 2 32 := Nat.pow_lt_pow_right (by decide) (by omega)
  rw [UInt32.toNat_shiftLeft, UInt32.toNat_ofNat', Nat.mod_mod_of_dvd _ (by decide),
    Nat.mod_eq_of_lt (show k < 32 by omega), UInt32.toNat_one, Nat.one_shiftLeft]
  exact Nat.mod_eq_of_lt hpower

theorem factor_pos (n : Nat) : 0 < (factor n).toNat := by
  rw [factor_toNat]
  exact Nat.pow_pos (by decide)

/-- The longest delay is itself a duration, so the cut at the longest duration never shows. -/
theorem inNanos_backoff (base most : Duration) (n : Nat) :
    (backoff base most n).inNanos =
      min (base.inNanos * Nat.pow 2 (min (n - 1) maxDoublings)) most.inNanos := by
  rw [backoff, Duration.inNanos_shorter, Duration.inNanos_times, factor_toNat, Nat.min_assoc,
    Nat.min_eq_right most.inNanos_le_longest]

theorem delayAfter_eq (p : RetryPolicy) (n : Nat) :
    p.delayAfter n =
      min (min (p.baseDelay * Nat.pow 2 (min (n - 1) maxDoublings)) Duration.longest.millis)
        p.maxDelay := by
  rw [delayAfter, backoff, Duration.millis_shorter,
    Duration.millis_of_inNanos (Duration.inNanos_times_ofMillis p.baseDelay (factor_pos n)),
    Duration.millis_of_inNanos (Duration.inNanos_ofMillis p.maxDelay), factor_toNat,
    Nat.min_comm p.maxDelay, ← Nat.min_assoc, Nat.min_assoc (p.baseDelay * _), Nat.min_self]

theorem delayAfter_le (p : RetryPolicy) (n : Nat) : p.delayAfter n ≤ p.maxDelay := by
  rw [delayAfter_eq]
  exact Nat.min_le_right _ _

/-- What follows an attempt. -/
inductive Verdict (ε α : Type) where
  | ended (result : Except (RetryFailure ε) α)
  /-- Another attempt after a delay. -/
  | again (error : ε) (delay : Nat)

/-- What follows attempt `n`, which ended with `result` while the operation was or was not
    cancelled. -/
def judge {ε α : Type} (p : RetryPolicy) (retryable : ε → Bool) (cancelled : Bool) (n : Nat)
    (result : Except ε α) : Verdict ε α :=
  match result with
  | .ok value => .ended (.ok value)
  | .error e =>
    -- A cancellation hides the error of the attempt, whatever it was.
    if cancelled then .ended (.error .aborted)
    else if !retryable e || p.attempts ≤ n then .ended (.error (.failed n e))
    else .again e (p.delayAfter n)

theorem judge_ok {ε α : Type} (p : RetryPolicy) (retryable : ε → Bool) (cancelled : Bool)
    (n : Nat) (value : α) :
    p.judge retryable cancelled n (.ok value) = .ended (.ok value) := rfl

end RetryPolicy

namespace Retry

/-- An operation by its effects on a state. -/
structure Effects (σ ε α : Type) where
  /-- Whether the operation is cancelled. -/
  cancelled : σ → Bool
  /-- An attempt, given its number. -/
  attempt : Nat → σ → Except ε α × σ
  /-- What is told about a failed attempt that will be followed by another one. -/
  notify : Nat → ε → σ → σ
  /-- A delay; it says whether it was cut short by a cancellation. -/
  sleep : Nat → σ → Bool × σ

/-- Attempt `n` and what follows it, when `left` more attempts may follow. -/
def runFrom {σ ε α : Type} (p : RetryPolicy) (retryable : ε → Bool) (fx : Effects σ ε α) :
    (left n : Nat) → σ → Except (RetryFailure ε) α × σ
  | left, n, s =>
    if fx.cancelled s then (.error .aborted, s)
    else
      let (result, s) := fx.attempt n s
      match p.judge retryable (fx.cancelled s) n result with
      | .ended outcome => (outcome, s)
      | .again e delay =>
        let s := fx.notify n e s
        match fx.sleep delay s with
        | (true, s) => (.error .aborted, s)
        | (false, s) =>
          match left with
          | 0 => (.error (.failed n e), s)
          | left + 1 => runFrom p retryable fx left (n + 1) s

/-- Try an operation until it succeeds, fails for good or is cancelled. -/
def run {σ ε α : Type} (p : RetryPolicy) (retryable : ε → Bool) (fx : Effects σ ε α) (s : σ) :
    Except (RetryFailure ε) α × σ :=
  runFrom p retryable fx (p.attempts - 1) 1 s

end Retry

end Switchboard

import Switchboard.RunTask

/-!
# Steps of a Task

What the driver and the forwarder of a task do, case by case.

A driver that is let go on may begin several attempts in one step, because an
attempt that fails may be repeated without delay. `RunTask.Proceeds` tells what
happens in between: the turn of an attempt is held up, or it is over, and then
the run has ended, the next attempt is waited for or begins at once. A statement
about the driver is proved by induction on this, without looking at how the
driver is written.

A task has a mandate, which is what it was launched with. The mandate never
changes, so that the steps of a task need not be told apart where only the
mandates count.

## Main definitions

* `RunTask.Mandate`: What a task was launched with.
* `RunTask.Proceeds`: How an attempt goes on.

## Theorems

* `RunTask.proceed_proceeds`: The driver does nothing else.
* `RunTask.forward?_cases`: What a step of the forwarder does.
* `RunTask.drive_mandate`, `RunTask.forward?_mandate`: A task keeps its mandate.
-/

namespace Switchboard

/-- What a task is launched with. -/
structure RunTask.Mandate where
  key : RunKey
  prompt : String
  provider : Provider
  guard : Guard

namespace RunTask

/-- What a task was launched with. -/
def mandate (t : RunTask) : Mandate :=
  ⟨t.key, t.prompt, t.provider, t.guard⟩

theorem turn_congr {t t' : RunTask} (h : t'.mandate = t.mandate) : t'.turn = t.turn := by
  have hkey : t'.key = t.key := congrArg Mandate.key h
  have hprompt : t'.prompt = t.prompt := congrArg Mandate.prompt h
  have hprovider : t'.provider = t.provider := congrArg Mandate.provider h
  funext n
  rw [turn, turn, hkey, hprompt, hprovider]

/-! ### The driver -/

/-- How an attempt goes on with some actions, and what the task is afterwards. `left` limits the
    number of attempts that follow at once. -/
inductive Proceeds (policy : RetryPolicy) (k : Turn.Conditions) :
    (left attempt : Nat) → List Turn.Action → Except ProviderError String → RunTask → RunTask → Prop
  /-- The turn is held up. -/
  | held {left attempt : Nat} {actions : List Turn.Action} {outcome : Except ProviderError String}
      {t : RunTask} (events : List ProviderEvent) (rest : List Turn.Action) (hold : Turn.Hold)
      (hadvance : Turn.advance k outcome t.room actions = (events, .held rest hold)) :
      Proceeds policy k left attempt actions outcome t
        { t.streamed events false with phase := .attempting attempt rest outcome hold }
  /-- The turn is over, and so is the run. -/
  | ended {left attempt : Nat} {actions : List Turn.Action} {outcome : Except ProviderError String}
      {t : RunTask} (events : List ProviderEvent) (result : Except ProviderError String)
      (final : Except (RetryFailure ProviderError) String)
      (hadvance : Turn.advance k outcome t.room actions = (events, .ended result))
      (hjudge : policy.judge ProviderError.isRetryable k.cancelled attempt result =
        .ended final) :
      Proceeds policy k left attempt actions outcome t
        { t.streamed events true with phase := .ended final }
  /-- The turn is over, and the next attempt is waited for. -/
  | rests {left attempt : Nat} {actions : List Turn.Action} {outcome : Except ProviderError String}
      {t : RunTask} (events : List ProviderEvent) (result : Except ProviderError String)
      (e : ProviderError) (delay : Nat)
      (hadvance : Turn.advance k outcome t.room actions = (events, .ended result))
      (hjudge : policy.judge ProviderError.isRetryable k.cancelled attempt result =
        .again e delay)
      (hdelay : 0 < delay) :
      Proceeds policy k left attempt actions outcome t
        { t.streamed events true with phase := .resting attempt (Clock.after k.now delay) }
  /-- The turn is over, and no attempt may follow at once. -/
  | spent {attempt : Nat} {actions : List Turn.Action} {outcome : Except ProviderError String}
      {t : RunTask} (events : List ProviderEvent) (result : Except ProviderError String)
      (e : ProviderError) (delay : Nat)
      (hadvance : Turn.advance k outcome t.room actions = (events, .ended result))
      (hjudge : policy.judge ProviderError.isRetryable k.cancelled attempt result =
        .again e delay) :
      Proceeds policy k 0 attempt actions outcome t
        { t.streamed events true with phase := .ended (.error (.failed attempt e)) }
  /-- The turn is over, and the next attempt begins at once. -/
  | again {left attempt : Nat} {actions : List Turn.Action} {outcome : Except ProviderError String}
      {t t' : RunTask} (events : List ProviderEvent) (result : Except ProviderError String)
      (e : ProviderError) (delay : Nat)
      (hadvance : Turn.advance k outcome t.room actions = (events, .ended result))
      (hjudge : policy.judge ProviderError.isRetryable k.cancelled attempt result =
        .again e delay)
      (hnext : Proceeds policy k left (attempt + 1) (t.turn (attempt + 1)).actions
        (t.turn (attempt + 1)).outcome ((t.streamed events true).opened (attempt + 1)) t') :
      Proceeds policy k (left + 1) attempt actions outcome t t'

section

variable {policy : RetryPolicy} {k : Turn.Conditions} {left attempt : Nat}
  {actions : List Turn.Action} {outcome : Except ProviderError String} {t t' : RunTask}

/-- The driver lets an attempt go on in one of these ways. -/
theorem proceed_proceeds (policy : RetryPolicy) (k : Turn.Conditions) (left attempt : Nat)
    (actions : List Turn.Action) (outcome : Except ProviderError String) (t : RunTask) :
    Proceeds policy k left attempt actions outcome t
      (proceed policy k left attempt actions outcome t) := by
  -- The induction is on the attempts left.
  induction left using Nat.strongRecOn generalizing attempt actions outcome t with
  | ind left ih =>
      unfold proceed
      rcases hadvance : Turn.advance k outcome t.room actions with
        ⟨events, ⟨rest, hold⟩ | result⟩
      · exact .held events rest hold hadvance
      · simp only
        cases hjudge : policy.judge ProviderError.isRetryable k.cancelled attempt result with
        | ended final => exact .ended events result final hadvance hjudge
        | again e delay =>
            by_cases hdelay : 0 < delay
            · simp only [if_pos hdelay]
              exact .rests events result e delay hadvance hjudge hdelay
            · simp only [if_neg hdelay]
              cases left with
              | zero => exact .spent events result e delay hadvance hjudge
              | succ left =>
                  exact .again events result e delay hadvance hjudge
                    (ih left (Nat.lt_succ_self left) ..)

theorem Proceeds.mandate (h : Proceeds policy k left attempt actions outcome t t') :
    t'.mandate = t.mandate := by
  induction h with
  | held => rfl
  | ended => rfl
  | rests => rfl
  | spent => rfl
  | again events result e delay hadvance hjudge hnext ih => exact ih

/-- The driver does not touch what the forwarder knows about itself. -/
theorem Proceeds.reading (h : Proceeds policy k left attempt actions outcome t t') :
    t'.reading = t.reading ∧ t'.drained = t.drained := by
  induction h with
  | held => exact ⟨rfl, rfl⟩
  | ended => exact ⟨rfl, rfl⟩
  | rests => exact ⟨rfl, rfl⟩
  | spent => exact ⟨rfl, rfl⟩
  | again events result e delay hadvance hjudge hnext ih => exact ih

end

theorem begin_mandate (policy : RetryPolicy) (k : Turn.Conditions) (attempt : Nat)
    (t : RunTask) : (t.begin policy k attempt).mandate = t.mandate := by
  unfold begin
  -- A cancellation is noticed before the first attempt.
  by_cases hc : k.cancelled = true
  · rw [if_pos hc]
    rfl
  · rw [if_neg hc]
    exact (proceed_proceeds ..).mandate

/-- The driver keeps the mandate of its task. -/
theorem drive_mandate (policy : RetryPolicy) (now : Nat) (cancelled : Bool) (t : RunTask) :
    (t.drive policy now cancelled).mandate = t.mandate := by
  -- Every phase goes on by beginning an attempt or within one, and both keep the mandate.
  simp only [drive]
  cases t.phase with
  | launched => exact begin_mandate ..
  | attempting attempt rest outcome hold => exact (proceed_proceeds ..).mandate
  | resting attempt time =>
      simp only
      by_cases hc : cancelled = true
      · rw [if_pos hc]
        rfl
      · rw [if_neg hc]
        by_cases ht : time ≤ now
        · rw [if_pos ht]
          exact begin_mandate ..
        · rw [if_neg ht]
  | ended result => rfl

/-! ### The forwarder -/

/-- A step of the forwarder that does something begins with a channel, hands on its first event
    or is done with it. -/
theorem forward?_cases (t t' : RunTask) (h : Handover) (hf : t.forward? = some (h, t')) :
    ∃ c rest, t.channels = c :: rest ∧
      ((t.reading = false ∧ h = (if 1 < c.attempt then .restart else .nothing) ∧
          t' = { t with reading := true }) ∨
        (t.reading = true ∧ ∃ e events, c.events = e :: events ∧ h = .event e ∧
          t' = { t with channels := { c with events } :: rest }) ∨
        (t.reading = true ∧ c.events = [] ∧ c.closed = true ∧ h = .nothing ∧
          t' = { t with channels := rest, reading := false })) := by
  unfold forward? at hf
  cases hcs : t.channels with
  | nil => simp only [hcs, reduceCtorEq] at hf
  | cons c rest =>
      refine ⟨c, rest, rfl, ?_⟩
      simp only [hcs] at hf
      cases hr : t.reading with
      -- The channel was not begun.
      | false =>
          simp only [hr, Bool.not_false, if_true, Option.some.injEq, Prod.mk.injEq] at hf
          exact Or.inl ⟨rfl, hf.1.symm, hf.2.symm⟩
      | true =>
          simp only [hr, Bool.not_true, Bool.false_eq_true, if_false] at hf
          cases he : c.events with
          | cons e events =>
              simp only [he, Option.some.injEq, Prod.mk.injEq] at hf
              exact Or.inr (Or.inl ⟨rfl, e, events, rfl, hf.1.symm, hf.2.symm⟩)
          | nil =>
              -- Nothing to hand on: a channel that is still open is waited for.
              by_cases hc : c.closed = true
              · simp only [he, if_pos hc, Option.some.injEq, Prod.mk.injEq] at hf
                exact Or.inr (Or.inr ⟨rfl, rfl, hc, hf.1.symm, hf.2.symm⟩)
              · simp only [he, if_neg hc, reduceCtorEq] at hf

/-- The forwarder keeps the mandate of its task. -/
theorem forward?_mandate (t t' : RunTask) (h : Handover) (hf : t.forward? = some (h, t')) :
    t'.mandate = t.mandate := by
  rcases forward?_cases t t' h hf with
    ⟨c, rest, -, ⟨-, -, rfl⟩ | ⟨-, e, events, -, -, rfl⟩ | ⟨-, -, -, -, rfl⟩⟩ <;> rfl

end RunTask

end Switchboard

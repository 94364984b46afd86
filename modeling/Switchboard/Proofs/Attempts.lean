import Switchboard.Retry.Timeline

/-!
# The Course of a Retried Operation

What the retry loop makes an operation do, in order, and what comes of it, for
every operation and whenever it is cancelled: before the first attempt, during
one, while a failure is told, during a delay or never.

Neither the result nor the state tells which attempts were made. So the
statements are about an operation that takes down what it is made to do and
does in all other respects what the given one does, `Retry.Effects.observed`.

The loop is written with a limit on how often it may go round, which a loop has
to have here. `Retry.Loops` is the loop without a limit, as a relation that
holds of finished loops only. Some finished loop there is from every state,
because an attempt that is repeated leaves fewer attempts that may follow, and
the limit is never met. Everything else about the loop is proved by induction on
the relation.

A cancellation is final, and that is all that has to be known about an
operation. It matters for delays alone, since the loop asks again after
everything else.

## Main definitions

* `Retry.Deed`, `Retry.Moment`: What an operation is made to do, and what it knew by then.
* `Retry.Effects.observed`: An operation that takes down what it is made to do.
* `Retry.Effects.Heeds`: The delays of an operation know of cancellations.
* `Retry.Loops`: The loop without a limit.

## Theorems

* `Retry.exists_loops`: The loop comes to an end from every state.
* `Retry.Loops.runFrom`, `Retry.Loops.observed`: The limit is never met, and taking down what is
  done changes nothing else.
* `Retry.Loops.numbers`, `Retry.Loops.between`, `Retry.Loops.aborted_iff`: Which attempts are made,
  what happens between them and when the operation counts as aborted.
* `Retry.course_of_attempts`: What this means for the whole course.
-/

namespace Switchboard

namespace RetryPolicy

variable {ε α : Type} (p : RetryPolicy) (retryable : ε → Bool) (n : Nat) (e : ε)

/-- A failure is final if another attempt would not help or is not allowed. -/
theorem judge_final (h : retryable e = false ∨ p.attempts ≤ n) :
    p.judge (α := α) retryable false n (.error e) = .ended (.error (.failed n e)) := by
  simp only [judge, Bool.false_eq_true, if_false]
  rcases h with h | h <;> simp [h]

/-- Another attempt follows if it may help and is allowed. -/
theorem judge_repeated (hretry : retryable e = true) (hn : n < p.attempts) :
    p.judge (α := α) retryable false n (.error e) = .again e (p.delayAfter n) := by
  have hle : ¬p.attempts ≤ n := Nat.not_le.mpr hn
  simp [judge, hretry, hle]

end RetryPolicy

namespace Retry

variable {σ ε α : Type}

/-! ### What is done -/

/-- Something that an operation is made to do. -/
inductive Deed (ε α : Type) where
  /-- An attempt with a number, and its result. -/
  | called (n : Nat) (result : Except ε α)
  /-- A failed attempt is told. -/
  | told (n : Nat) (error : ε)
  | slept (delay : Nat)

namespace Deed

/-- The number and the result of an attempt. -/
def call? : Deed ε α → Option (Nat × Except ε α)
  | .called n result => some (n, result)
  | _ => none

/-- An attempt that succeeds. -/
def Succeeds (d : Deed ε α) : Prop :=
  ∃ n value, d = .called n (.ok value)

end Deed

/-- Something that was done, with whether the operation was cancelled right before and right after
    it. -/
structure Moment (ε α : Type) where
  before : Bool
  deed : Deed ε α
  after : Bool

/-- What was done. -/
def deeds (log : List (Moment ε α)) : List (Deed ε α) :=
  log.map (·.deed)

/-- The attempts that were made, with their results. -/
def calls (log : List (Moment ε α)) : List (Nat × Except ε α) :=
  (deeds log).filterMap Deed.call?

@[simp] theorem deeds_append (first second : List (Moment ε α)) :
    deeds (first ++ second) = deeds first ++ deeds second :=
  List.map_append

@[simp] theorem calls_append (first second : List (Moment ε α)) :
    calls (first ++ second) = calls first ++ calls second := by
  rw [calls, deeds_append, List.filterMap_append]
  rfl

namespace Effects

/-- An operation that takes down what it is made to do. -/
def observed (fx : Effects σ ε α) : Effects (σ × List (Moment ε α)) ε α where
  cancelled w := fx.cancelled w.1
  attempt n w :=
    let (result, s) := fx.attempt n w.1
    (result, s, w.2 ++ [⟨fx.cancelled w.1, .called n result, fx.cancelled s⟩])
  notify n e w :=
    let s := fx.notify n e w.1
    (s, w.2 ++ [⟨fx.cancelled w.1, .told n e, fx.cancelled s⟩])
  sleep delay w :=
    let (cut, s) := fx.sleep delay w.1
    (cut, s, w.2 ++ [⟨fx.cancelled w.1, .slept delay, fx.cancelled s⟩])

theorem observed_attempt (fx : Effects σ ε α) {n : Nat} {s s' : σ} {result : Except ε α}
    (h : fx.attempt n s = (result, s')) (earlier : List (Moment ε α)) :
    fx.observed.attempt n (s, earlier) =
      (result, s', earlier ++ [⟨fx.cancelled s, .called n result, fx.cancelled s'⟩]) := by
  simp only [observed, h]

/-- The delays of an operation know of cancellations: a cancellation is not taken back during a
    delay, and nothing else cuts a delay short. -/
structure Heeds (fx : Effects σ ε α) : Prop where
  kept : ∀ delay s, fx.cancelled s = true → fx.cancelled (fx.sleep delay s).2 = true
  cut : ∀ delay s, (fx.sleep delay s).1 = true → fx.cancelled (fx.sleep delay s).2 = true

/-- The state after a failed attempt was told. -/
def told (fx : Effects σ ε α) (n : Nat) (e : ε) (s : σ) : σ :=
  fx.notify n e s

/-- The state after a failed attempt was told and the delay is over. -/
def rested (fx : Effects σ ε α) (p : RetryPolicy) (n : Nat) (e : ε) (s : σ) : σ :=
  (fx.sleep (p.delayAfter n) (fx.told n e s)).2

/-- A failed attempt that another one may follow: what is done about it, given the state after
    it. -/
def round (fx : Effects σ ε α) (p : RetryPolicy) (n : Nat) (e : ε) (s : σ) : List (Moment ε α) :=
  [⟨false, .called n (.error e), false⟩,
    ⟨fx.cancelled s, .told n e, fx.cancelled (fx.told n e s)⟩,
    ⟨fx.cancelled (fx.told n e s), .slept (p.delayAfter n), fx.cancelled (fx.rested p n e s)⟩]

@[simp] theorem deeds_round (fx : Effects σ ε α) (p : RetryPolicy) (n : Nat) (e : ε) (s : σ) :
    deeds (fx.round p n e s) = [.called n (.error e), .told n e, .slept (p.delayAfter n)] := rfl

@[simp] theorem calls_round (fx : Effects σ ε α) (p : RetryPolicy) (n : Nat) (e : ε) (s : σ) :
    calls (fx.round p n e s) = [(n, .error e)] := rfl

/-- What a failed attempt is followed by is taken down after it. -/
theorem observed_rested (fx : Effects σ ε α) (p : RetryPolicy) (n : Nat) (e : ε) (s : σ)
    (earlier : List (Moment ε α)) :
    fx.observed.rested p n e (s, earlier ++ [⟨false, .called n (.error e), false⟩]) =
      (fx.rested p n e s, earlier ++ fx.round p n e s) := by
  simp [rested, told, round, observed]

end Effects

/-! ### The loop without a limit -/

/-- The loop from an attempt on, however often it goes round: what is done, what comes of it and
    the state afterwards. -/
inductive Loops (p : RetryPolicy) (retryable : ε → Bool) (fx : Effects σ ε α) :
    (n : Nat) → σ → List (Moment ε α) → Except (RetryFailure ε) α → σ → Prop
  /-- The operation is cancelled already. -/
  | stopped {n : Nat} {s : σ} (hs : fx.cancelled s = true) :
      Loops p retryable fx n s [] (.error .aborted) s
  /-- The attempt succeeds, cancelled or not. -/
  | succeeded {n : Nat} {s s' : σ} {value : α} (hs : fx.cancelled s = false)
      (ha : fx.attempt n s = (.ok value, s')) :
      Loops p retryable fx n s [⟨false, .called n (.ok value), fx.cancelled s'⟩] (.ok value) s'
  /-- The attempt fails, and the operation was cancelled by then. -/
  | dropped {n : Nat} {s s' : σ} {e : ε} (hs : fx.cancelled s = false)
      (ha : fx.attempt n s = (.error e, s')) (hc : fx.cancelled s' = true) :
      Loops p retryable fx n s [⟨false, .called n (.error e), true⟩] (.error .aborted) s'
  /-- The attempt fails for good. -/
  | failed {n : Nat} {s s' : σ} {e : ε} (hs : fx.cancelled s = false)
      (ha : fx.attempt n s = (.error e, s')) (hc : fx.cancelled s' = false)
      (hlast : retryable e = false ∨ p.attempts ≤ n) :
      Loops p retryable fx n s [⟨false, .called n (.error e), false⟩] (.error (.failed n e)) s'
  /-- The attempt fails, and the delay after it is cut short. -/
  | cut {n : Nat} {s s' : σ} {e : ε} (hs : fx.cancelled s = false)
      (ha : fx.attempt n s = (.error e, s')) (hc : fx.cancelled s' = false)
      (hretry : retryable e = true) (hn : n < p.attempts)
      (hcut : (fx.sleep (p.delayAfter n) (fx.told n e s')).1 = true) :
      Loops p retryable fx n s (fx.round p n e s') (.error .aborted) (fx.rested p n e s')
  /-- The attempt fails, and the loop goes round once more after the delay. -/
  | again {n : Nat} {s s' t : σ} {e : ε} {log : List (Moment ε α)}
      {outcome : Except (RetryFailure ε) α} (hs : fx.cancelled s = false)
      (ha : fx.attempt n s = (.error e, s')) (hc : fx.cancelled s' = false)
      (hretry : retryable e = true) (hn : n < p.attempts)
      (hcut : (fx.sleep (p.delayAfter n) (fx.told n e s')).1 = false)
      (hnext : Loops p retryable fx (n + 1) (fx.rested p n e s') log outcome t) :
      Loops p retryable fx n s (fx.round p n e s' ++ log) outcome t

section

variable {p : RetryPolicy} {retryable : ε → Bool} {fx : Effects σ ε α}

-- Induction on the number of attempts that may still follow: a failure that is not the last one
-- allowed leaves one less.
/-- The loop comes to an end from every state. -/
theorem exists_loops (p : RetryPolicy) (retryable : ε → Bool) (fx : Effects σ ε α) (n : Nat)
    (s : σ) : ∃ log outcome t, Loops p retryable fx n s log outcome t := by
  -- The induction is on the attempts that are left; the cases are those of one round.
  induction hleft : p.attempts - n using Nat.strongRecOn generalizing n s with
  | ind left ih =>
      cases hs : fx.cancelled s with
      | true => exact ⟨_, _, _, .stopped hs⟩
      | false =>
          rcases ha : fx.attempt n s with ⟨e | value, s'⟩
          · cases hc : fx.cancelled s' with
            | true => exact ⟨_, _, _, .dropped hs ha hc⟩
            | false =>
                by_cases hlast : retryable e = false ∨ p.attempts ≤ n
                · exact ⟨_, _, _, .failed hs ha hc hlast⟩
                -- The error is retried, so that the wait before the next attempt decides.
                · rw [not_or, Bool.not_eq_false, Nat.not_le] at hlast
                  cases hcut : (fx.sleep (p.delayAfter n) (fx.told n e s')).1 with
                  | true => exact ⟨_, _, _, .cut hs ha hc hlast.1 hlast.2 hcut⟩
                  | false =>
                      have hfewer : p.attempts - (n + 1) < left := by omega
                      rcases ih _ hfewer (n + 1) (fx.rested p n e s') rfl with
                        ⟨log, outcome, t, hnext⟩
                      exact ⟨_, _, _, .again hs ha hc hlast.1 hlast.2 hcut hnext⟩
          · exact ⟨_, _, _, .succeeded hs ha⟩

variable {n : Nat} {s t : σ} {log : List (Moment ε α)} {outcome : Except (RetryFailure ε) α}

/-- The limit is never met: whatever it is, as long as it allows for the attempts that may still
    follow, the loop with the limit ends like the one without it. -/
theorem Loops.runFrom (h : Loops p retryable fx n s log outcome t) (left : Nat)
    (hleft : p.attempts ≤ n + left) : Retry.runFrom p retryable fx left n s = (outcome, t) := by
  -- The loop and the relation take the same branch in every round.
  induction h generalizing left with
  | stopped hs =>
      unfold Retry.runFrom
      rw [if_pos hs]
  | succeeded hs ha =>
      unfold Retry.runFrom
      simp only [hs, Bool.false_eq_true, if_false, ha, RetryPolicy.judge_ok]
  | dropped hs ha hc =>
      unfold Retry.runFrom
      simp only [hs, Bool.false_eq_true, if_false, ha, RetryPolicy.judge, hc, if_true]
  | failed hs ha hc hlast =>
      unfold Retry.runFrom
      simp only [hs, Bool.false_eq_true, if_false, ha, hc,
        RetryPolicy.judge_final p retryable _ _ hlast]
  | @cut n s s' e hs ha hc hretry hn hcut =>
      have hsleep : fx.sleep (p.delayAfter n) (fx.notify n e s') =
          (true, fx.rested p n e s') := Prod.ext hcut rfl
      unfold Retry.runFrom
      simp only [hs, Bool.false_eq_true, if_false, ha, hc,
        RetryPolicy.judge_repeated p retryable n e hretry hn, hsleep]
  | @again n s s' t e log outcome hs ha hc hretry hn hcut hnext ih =>
      have hsleep : fx.sleep (p.delayAfter n) (fx.notify n e s') =
          (false, fx.rested p n e s') := Prod.ext hcut rfl
      -- A further attempt is within the bound, so that the fuel is not used up.
      cases left with
      | zero => exact absurd hleft (Nat.not_le.mpr hn)
      | succ left =>
          unfold Retry.runFrom
          simp only [hs, Bool.false_eq_true, if_false, ha, hc,
            RetryPolicy.judge_repeated p retryable n e hretry hn, hsleep]
          exact ih left (by omega)

/-- Taking down what is done changes nothing else, and what is taken down is what is done. -/
theorem Loops.observed (h : Loops p retryable fx n s log outcome t)
    (earlier : List (Moment ε α)) :
    Loops p retryable fx.observed n (s, earlier) log outcome (t, earlier ++ log) := by
  -- Keeping a log changes no decision, and the log grows by what happens.
  induction h generalizing earlier with
  | @stopped n s hs =>
      rw [List.append_nil]
      exact .stopped hs
  | @succeeded n s s' value hs ha =>
      have hs' : fx.observed.cancelled (s, earlier) = false := hs
      have ha' := fx.observed_attempt ha earlier
      rw [hs] at ha'
      exact .succeeded hs' ha'
  | @dropped n s s' e hs ha hc =>
      have hs' : fx.observed.cancelled (s, earlier) = false := hs
      have ha' := fx.observed_attempt ha earlier
      rw [hs, hc] at ha'
      exact .dropped hs' ha' hc
  | @failed n s s' e hs ha hc hlast =>
      have hs' : fx.observed.cancelled (s, earlier) = false := hs
      have ha' := fx.observed_attempt ha earlier
      rw [hs, hc] at ha'
      exact .failed hs' ha' hc hlast
  | @cut n s s' e hs ha hc hretry hn hcut =>
      have hs' : fx.observed.cancelled (s, earlier) = false := hs
      have ha' := fx.observed_attempt ha earlier
      rw [hs, hc] at ha'
      have hcut' := Loops.cut hs' ha' hc hretry hn hcut
      rw [fx.observed_rested p n e s' earlier] at hcut'
      exact hcut'
  -- What happened in the round is logged before the loop goes on.
  | @again n s s' t e log outcome hs ha hc hretry hn hcut hnext ih =>
      have hs' : fx.observed.cancelled (s, earlier) = false := hs
      have ha' := fx.observed_attempt ha earlier
      rw [hs, hc] at ha'
      have hnext' := ih (earlier ++ fx.round p n e s')
      rw [← fx.observed_rested p n e s' earlier, List.append_assoc] at hnext'
      exact .again hs' ha' hc hretry hn hcut hnext'

/-! ### What is done and what comes of it -/

/-- The attempts are counted up one by one. -/
theorem Loops.numbers (h : Loops p retryable fx n s log outcome t) :
    (calls log).map (·.1) = List.range' n (calls log).length := by
  induction h with
  | stopped => rfl
  | succeeded => rfl
  | dropped => rfl
  | failed => rfl
  | cut => rfl
  | again hs ha hc hretry hn hcut hnext ih =>
      simp only [calls_append, Effects.calls_round, List.singleton_append, List.map_cons, ih,
        List.length_cons, List.range'_succ]

/-- No more attempts are made than are allowed. -/
theorem Loops.length_calls (h : Loops p retryable fx n s log outcome t) (hn : n ≤ p.attempts) :
    n + (calls log).length ≤ p.attempts + 1 := by
  induction h with
  | stopped => exact Nat.le_succ_of_le hn
  | succeeded => exact Nat.succ_le_succ hn
  | dropped => exact Nat.succ_le_succ hn
  | failed => exact Nat.succ_le_succ hn
  | cut => exact Nat.succ_le_succ hn
  | again hs ha hc hretry hlt hcut hnext ih =>
      have hrest := ih hlt
      simp only [calls_append, Effects.calls_round, List.singleton_append, List.length_cons]
      omega

/-- Of what is done about a failed attempt only the first thing is an attempt. -/
theorem Effects.call_before_round (fx : Effects σ ε α) (p : RetryPolicy) (n : Nat) (e : ε) (s : σ)
    (m : Moment ε α) (hm : m ∈ fx.round p n e s) (hcall : m.deed.call?.isSome = true) :
    m.before = false := by
  simp only [Effects.round, List.mem_cons, List.not_mem_nil, or_false] at hm
  rcases hm with rfl | rfl | rfl
  · rfl
  · exact absurd hcall Bool.false_ne_true
  · exact absurd hcall Bool.false_ne_true

/-- No attempt is made of an operation that is cancelled. -/
theorem Loops.call_before (h : Loops p retryable fx n s log outcome t) (m : Moment ε α)
    (hm : m ∈ log) (hcall : m.deed.call?.isSome = true) : m.before = false := by
  induction h with
  | stopped => exact absurd hm List.not_mem_nil
  | succeeded => rw [List.mem_singleton.mp hm]
  | dropped => rw [List.mem_singleton.mp hm]
  | failed => rw [List.mem_singleton.mp hm]
  | cut => exact fx.call_before_round _ _ _ _ m hm hcall
  | again hs ha hc hretry hn hcut hnext ih =>
      rcases List.mem_append.mp hm with hm | hm
      · exact fx.call_before_round _ _ _ _ m hm hcall
      · exact ih hm

/-- A loop that makes an attempt begins with it. -/
theorem Loops.begins (h : Loops p retryable fx n s log outcome t) (hcalls : calls log ≠ []) :
    ∃ result rest, deeds log = .called n result :: rest := by
  cases h with
  | stopped => exact absurd rfl hcalls
  | succeeded => exact ⟨_, _, rfl⟩
  | dropped => exact ⟨_, _, rfl⟩
  | failed => exact ⟨_, _, rfl⟩
  | cut => exact ⟨_, _, rfl⟩
  | again => exact ⟨_, _, rfl⟩

/-- Between two attempts the failure of the first is told once, and one delay is waited for. -/
theorem Loops.between (h : Loops p retryable fx n s log outcome t) (i : Nat) (hi : n ≤ i)
    (hnext : i + 1 < n + (calls log).length) :
    ∃ e result first rest, retryable e = true ∧
      deeds log = first ++ [.called i (.error e), .told i e, .slept (p.delayAfter i),
        .called (i + 1) result] ++ rest := by
  -- A loop with one attempt at most has nothing in between.
  have hmore : ∀ k, i + 1 < k + 1 → k ≤ i → False := fun k h h' => by omega
  induction h with
  | stopped => exact absurd (Nat.lt_of_succ_lt hnext) (Nat.not_lt.mpr hi)
  | succeeded => exact (hmore _ hnext hi).elim
  | dropped => exact (hmore _ hnext hi).elim
  | failed => exact (hmore _ hnext hi).elim
  | cut => exact (hmore _ hnext hi).elim
  | @again n s s' t e log outcome hs ha hc hretry hn hcut hloops ih =>
      simp only [calls_append, Effects.calls_round, List.singleton_append,
        List.length_cons] at hnext
      simp only [deeds_append, Effects.deeds_round]
      rcases Nat.eq_or_lt_of_le hi with rfl | hlt
      -- The attempt that was repeated, followed by the first of the rest.
      · have hne : calls log ≠ [] := by
          rw [← List.length_pos_iff]
          omega
        rcases hloops.begins hne with ⟨result, rest, hrest⟩
        exact ⟨e, result, [], rest, hretry, by rw [hrest]; rfl⟩
      · rcases ih hlt (by omega) with ⟨e', result, first, rest, hretry', hrest⟩
        refine ⟨e', result, [.called n (.error e), .told n e, .slept (p.delayAfter n)] ++ first,
          rest, hretry', ?_⟩
        rw [hrest]
        simp only [List.append_assoc]

theorem Effects.told_mem_round (fx : Effects σ ε α) (p : RetryPolicy) (n : Nat) (e : ε) (s : σ)
    (i : Nat) (e' : ε) : .told i e' ∈ deeds (fx.round p n e s) ↔ i = n ∧ e' = e := by
  simp

/-- A failure is told only if another attempt is allowed. -/
theorem Loops.told_lt (h : Loops p retryable fx n s log outcome t) (i : Nat) (e : ε)
    (htold : .told i e ∈ deeds log) : i < p.attempts := by
  induction h with
  | stopped => exact absurd htold List.not_mem_nil
  | succeeded => simp [deeds] at htold
  | dropped => simp [deeds] at htold
  | failed => simp [deeds] at htold
  | cut hs ha hc hretry hn hcut => exact ((fx.told_mem_round ..).mp htold).1 ▸ hn
  | again hs ha hc hretry hn hcut hnext ih =>
      rw [deeds_append, List.mem_append] at htold
      rcases htold with htold | htold
      · exact ((fx.told_mem_round ..).mp htold).1 ▸ hn
      · exact ih htold

/-- The last attempt of a loop that went round once more is that of the rest, if there is one. -/
theorem Effects.getLast?_calls_round (fx : Effects σ ε α) (p : RetryPolicy) (n : Nat) (e : ε)
    (s : σ) (log : List (Moment ε α)) :
    (calls (fx.round p n e s ++ log)).getLast? =
      some ((calls log).getLast?.getD (n, .error e)) := by
  rw [calls_append, calls_round, List.singleton_append, List.getLast?_cons]

/-- A success is that of the last attempt, and the success of an attempt is final. -/
theorem Loops.ok_iff (h : Loops p retryable fx n s log outcome t) (value : α) :
    outcome = .ok value ↔ ∃ i, (calls log).getLast? = some (i, .ok value) := by
  -- Only the last attempt can have succeeded.
  induction h with
  | stopped => simp [calls, deeds]
  | succeeded => simp [calls, deeds, Deed.call?]
  | dropped => simp [calls, deeds, Deed.call?]
  | failed => simp [calls, deeds, Deed.call?]
  | cut => simp
  | @again n s s' t e log outcome hs ha hc hretry hn hcut hnext ih =>
      rw [ih]
      simp only [Effects.getLast?_calls_round, Option.some.injEq]
      cases (calls log).getLast? with
      | none => simp
      | some last => simp

/-- A failure is that of the last attempt, which another one would not help or must not follow. -/
theorem Loops.failed_last (h : Loops p retryable fx n s log outcome t) (i : Nat) (e : ε)
    (hfailed : outcome = .error (.failed i e)) :
    i + 1 = n + (calls log).length ∧ (calls log).getLast? = some (i, .error e) ∧
      (retryable e = false ∨ p.attempts ≤ i) := by
  -- The loop is given up after the last attempt or after an error that is not retried.
  induction h with
  | stopped => simp at hfailed
  | succeeded => simp at hfailed
  | dropped => simp at hfailed
  | failed hs ha hc hlast =>
      simp only [Except.error.injEq, RetryFailure.failed.injEq] at hfailed
      rcases hfailed with ⟨rfl, rfl⟩
      exact ⟨rfl, rfl, hlast⟩
  | cut => simp at hfailed
  | again hs ha hc hretry hn hcut hnext ih =>
      rcases ih hfailed with ⟨hlength, hlast, hfinal⟩
      refine ⟨?_, ?_, hfinal⟩
      · simp only [calls_append, Effects.calls_round, List.singleton_append, List.length_cons]
        omega
      · rw [Effects.getLast?_calls_round, hlast, Option.getD_some]

/-- Whether an operation was cancelled by the end of something other than a success. -/
def Interrupted (log : List (Moment ε α)) : Prop :=
  ∃ m ∈ log, ¬m.deed.Succeeds ∧ m.after = true

/-- A cancellation that comes about while a failure is told or during the delay is there after
    the delay. -/
theorem Effects.Heeds.interrupted_round (hfx : fx.Heeds) (p : RetryPolicy) (n : Nat) (e : ε)
    (s : σ) (log : List (Moment ε α)) :
    Interrupted (fx.round p n e s ++ log) ↔
      fx.cancelled (fx.rested p n e s) = true ∨ Interrupted log := by
  constructor
  -- Of the three moments of a round the wait is the one that can be interrupted.
  · rintro ⟨m, hm, hdeed, hafter⟩
    rcases List.mem_append.mp hm with hm | hm
    · simp only [Effects.round, List.mem_cons, List.not_mem_nil, or_false] at hm
      rcases hm with rfl | rfl | rfl
      · exact absurd hafter Bool.false_ne_true
      · exact Or.inl (hfx.kept _ _ hafter)
      · exact Or.inl hafter
    · exact Or.inr ⟨m, hm, hdeed, hafter⟩
  · rintro (hrested | ⟨m, hm, hdeed, hafter⟩)
    -- A wait that was cut short is such a moment.
    · refine ⟨⟨fx.cancelled (fx.told n e s), .slept (p.delayAfter n), true⟩, ?_, ?_, rfl⟩
      · simp [Effects.round, hrested]
      · rintro ⟨i, value, hd⟩
        exact absurd hd (by simp)
    · exact ⟨m, List.mem_append_right _ hm, hdeed, hafter⟩

/-- An operation counts as aborted if and only if it was cancelled before the first attempt, by
    the end of a failed one, while a failure was told or during a delay. -/
theorem Loops.aborted_iff (h : Loops p retryable fx n s log outcome t) (hfx : fx.Heeds) :
    outcome = .error .aborted ↔ fx.cancelled s = true ∨ Interrupted log := by
  induction h with
  | stopped hs => simp [hs]
  -- A success ends the loop even if the run is cancelled then.
  | @succeeded n s s' value hs ha =>
      have hsucceeds : (Deed.called n (.ok value) : Deed ε α).Succeeds := ⟨n, value, rfl⟩
      simp [Interrupted, hs, hsucceeds]
  | @dropped n s s' e hs ha hc =>
      have hfails : ¬(Deed.called n (.error e) : Deed ε α).Succeeds := by
        rintro ⟨i, value, hd⟩
        exact absurd hd (by simp)
      simp [Interrupted, hs, hfails]
  | failed hs ha hc hlast => simp [Interrupted, hs]
  -- A wait that is cut short leaves the run cancelled, since a cancellation is never taken back.
  | @cut n s s' e hs ha hc hretry hn hcut =>
      have hround := hfx.interrupted_round p n e s' []
      rw [List.append_nil] at hround
      have hrested : fx.cancelled (fx.rested p n e s') = true := hfx.cut _ _ hcut
      simp [hs, hround, hrested]
  | again hs ha hc hretry hn hcut hnext ih =>
      rw [ih, hs, hfx.interrupted_round]
      simp

/-- The whole course of a retried operation. The loop without a limit comes to an end in exactly
    one way, which is what is observed. The attempts are counted from one, there are no more of
    them than allowed, and none is made once the operation is cancelled. Between two attempts the
    failure of the first is told once and one delay is waited for, and the failure was one that
    another attempt may help.

    What comes of it is the value of the last attempt if and only if that one succeeded. The
    operation is aborted if and only if it was cancelled before the first attempt, by the end of a
    failed one, while that one was told or during the delay after it. Otherwise it failed with the
    error of the last attempt, which another one would not help or must not follow. A number is
    counted up only as far as attempts are allowed. -/
theorem course_of_attempts (p : RetryPolicy) (retryable : ε → Bool) (fx : Effects σ ε α)
    (hfx : fx.Heeds) (s : σ) :
    ∃ log outcome t,
      run p retryable fx.observed (s, []) = (outcome, t, log) ∧
      run p retryable fx s = (outcome, t) ∧
      (∀ log' outcome' t', Loops p retryable fx 1 s log' outcome' t' ↔
        log' = log ∧ outcome' = outcome ∧ t' = t) ∧
      (calls log).map (·.1) = List.range' 1 (calls log).length ∧
      (calls log).length ≤ max 1 p.maxAttempts ∧
      (∀ m ∈ log, m.deed.call?.isSome = true → m.before = false) ∧
      (∀ n, 1 ≤ n → n < (calls log).length → ∃ e result first rest, retryable e = true ∧
        deeds log = first ++ [.called n (.error e), .told n e, .slept (p.delayAfter n),
          .called (n + 1) result] ++ rest) ∧
      (∀ value, outcome = .ok value ↔ ∃ n, (calls log).getLast? = some (n, .ok value)) ∧
      (outcome = .error .aborted ↔ fx.cancelled s = true ∨
        ∃ m ∈ log, ¬m.deed.Succeeds ∧ m.after = true) ∧
      (∀ n e, outcome = .error (.failed n e) → n = (calls log).length ∧
        (calls log).getLast? = some (n, .error e) ∧
        (retryable e = false ∨ n = max 1 p.maxAttempts)) ∧
      (∀ n e, .told n e ∈ deeds log → n + 1 ≤ max 1 p.maxAttempts) := by
  have hattempts : p.attempts = max 1 p.maxAttempts := Nat.max_comm ..
  have hlimit : p.attempts ≤ 1 + (p.attempts - 1) := by omega
  have hfirst : 1 ≤ p.attempts := Nat.le_max_right ..
  rcases exists_loops p retryable fx 1 s with ⟨log, outcome, t, h⟩
  have hrun := h.runFrom _ hlimit
  have hobserved := (h.observed []).runFrom _ hlimit
  have hlength : (calls log).length ≤ p.attempts := by
    have := h.length_calls hfirst
    omega
  refine ⟨log, outcome, t, hobserved, hrun, fun log' outcome' t' => ⟨fun h' => ?_, ?_⟩, h.numbers,
    hattempts ▸ hlength, h.call_before, fun n hn hlt => h.between n hn (by omega), h.ok_iff,
    h.aborted_iff hfx, fun n e hfailed => ?_, fun n e htold => hattempts ▸ h.told_lt n e htold⟩
  -- A loop that ends in another way would be observed as well.
  · have hobserved' := (h'.observed []).runFrom _ hlimit
    rw [hobserved, Prod.mk.injEq, Prod.mk.injEq] at hobserved'
    exact ⟨hobserved'.2.2.symm, hobserved'.1.symm, hobserved'.2.1.symm⟩
  · rintro ⟨rfl, rfl, rfl⟩
    exact h
  · rcases h.failed_last n e hfailed with ⟨hn, hlast, hfinal⟩
    have hcount : n = (calls log).length := by omega
    refine ⟨hcount, hlast, hfinal.imp_right fun hle => ?_⟩
    rw [← hattempts]
    omega

end

/-! ### Plans -/

namespace Plan

theorem isCancelled_recorded (plan : Plan α) (delay : Nat) (j : Journal)
    (h : plan.isCancelled j = true) : plan.isCancelled (plan.recorded delay j).2 = true := by
  simp only [isCancelled, Bool.or_eq_true] at h
  rcases h with h | h <;> simp [recorded, isCancelled, h]

/-- A wait that is cut short ends at the time of the cancellation. -/
theorem waited_fst (plan : Plan α) (delay : Nat) (j : Journal)
    (h : (plan.waited delay j).1 = true) :
    plan.isCancelled (plan.waited delay j).2 = true := by
  unfold waited at h ⊢
  -- A cancellation before the wait is noticed at once, one during the wait when it comes.
  by_cases hj : plan.isCancelled j = true
  · rw [if_pos hj]
    exact hj
  · rw [if_neg hj] at h ⊢
    cases ht : plan.cancelTime? with
    | none => simp [ht] at h
    | some t =>
        simp only [ht] at h ⊢
        by_cases hle : t ≤ Clock.after j.now delay
        · rw [if_pos hle]
          simp [isCancelled, ht]
        · rw [if_neg hle] at h
          exact absurd h Bool.false_ne_true

theorem isCancelled_waited (plan : Plan α) (delay : Nat) (j : Journal)
    (h : plan.isCancelled j = true) : plan.isCancelled (plan.waited delay j).2 = true := by
  rw [waited, if_pos h]
  exact h

/-- The delays of a plan know of cancellations, whether they are waited for or written down. -/
theorem effects_heeds (plan : Plan α) : plan.effects.Heeds := by
  -- The two ways of waiting: writing the delay down, and letting the time pass.
  refine ⟨fun delay j hj => ?_, fun delay j hcut => ?_⟩
  · show plan.isCancelled (if plan.recordDelays then _ else _ : Bool × Journal).2 = true
    split
    · exact plan.isCancelled_recorded delay j hj
    · exact plan.isCancelled_waited delay j hj
  · change (if plan.recordDelays then _ else _ : Bool × Journal).1 = true at hcut
    show plan.isCancelled (if plan.recordDelays then _ else _ : Bool × Journal).2 = true
    split at hcut
    · rw [if_pos ‹_›]
      exact hcut
    · rw [if_neg ‹_›]
      exact plan.waited_fst delay j hcut

end Plan

/-- An operation that fails every time and is cancelled during the second delay. -/
def cutShort : Plan Nat where
  attempts := [⟨10, false, .error "down"⟩]
  fallback := ⟨0, false, .ok 0⟩
  cancelAtStart := false
  cancelAfter := none
  cancelInNotice := none
  cancelInDelay := some 2
  recordDelays := true

/-- The operation that is cancelled during the second delay is aborted after two attempts. -/
theorem cutShort_aborted :
    cutShort.effects.Heeds ∧
      ∃ log t,
        run ⟨5, 100, 1000⟩ (fun _ => true) cutShort.effects.observed (⟨0, false, 0, []⟩, []) =
          (.error .aborted, t, log) ∧
        deeds log = [.called 1 (.error "down"), .told 1 "down", .slept 100,
          .called 2 (.error "down"), .told 2 "down", .slept 200] ∧
        ∃ m ∈ log, ¬m.deed.Succeeds ∧ m.after = true := by
  rcases course_of_attempts ⟨5, 100, 1000⟩ (fun _ => true) cutShort.effects cutShort.effects_heeds
    ⟨0, false, 0, []⟩ with ⟨log, outcome, t, hobserved, -, hloops, -, -, -, -, -, haborted, -, -⟩
  -- The loop goes round once, and the second delay is cut short.
  have hcourse : Loops ⟨5, 100, 1000⟩ (fun _ => true) cutShort.effects 1 ⟨0, false, 0, []⟩ _ _ _ :=
    .again rfl rfl rfl rfl (by decide) rfl (.cut rfl rfl rfl rfl (by decide) rfl)
  rcases (hloops _ _ _).mp hcourse with ⟨rfl, rfl, rfl⟩
  exact ⟨cutShort.effects_heeds, _, _, hobserved, rfl, (haborted.mp rfl).resolve_left (by decide)⟩

end Retry

end Switchboard

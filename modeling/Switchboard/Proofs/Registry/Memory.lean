import Mathlib.Data.List.Induction
import Switchboard.Proofs.Histories
import Switchboard.Proofs.Registry.Callbacks

/-!
# The Memory of the Registry

What the history of a registry says about the names that it remembers. A name
comes into the memory when it is reported to leave, whether it was cancelled or
ended on its own, and is pushed out of it by the names that leave later, its own
later departures among them. All conversations share one memory, so that what
counts is only how many names left since, and not which.

The memory is a list, and a name may stand in it several times. That is why the
statement about a memory of a given size is proved along with those about its
last few names: a departure moves every name one place back, and whether it is
among the last `n` names then depends on whether it was among the last `n - 1`.

## Main definitions

* `Registry.departures`: How many names are reported to leave.
* `Registry.LeftLately`: A name left, and only few names have left since.
* `Registry.MemoryChange`: What a step makes of the memory.

## Theorems

* `Registry.leftLately_snoc`: What one more step makes of what left lately.
* `Registry.mem_latest_iff`: The names that stand last in the memory are those that left last.
* `Registry.wasFinalized_iff_leftLately`: What is remembered is what left lately.
-/

namespace Switchboard

namespace Registry

variable {κ : Type}

/-! ### Departures -/

/-- Whether an action is to take a name out, whichever it is. -/
def Action.isRemoval : Action κ → Bool
  | .cancel _ => true
  | .finalize _ => true
  | _ => false

theorem Action.isRemoval_of_takesOut (a : Action κ) {key : RunKey} (h : a.takesOut key = true) :
    a.isRemoval = true := by
  cases a with
  | cancel => rfl
  | finalize => rfl
  | _ => exact absurd h Bool.false_ne_true

/-- How many names are reported to leave. -/
def departures (actions : List (Action κ)) (r : Registry κ) : Nat :=
  (answers actions r).countP fun (a, ok) => a.isRemoval && ok

/-- A name was reported to leave in a history, the registry has not forgotten everything since, and
    fewer than `n` names were reported to leave since. -/
def LeftLately (n : Nat) (key : RunKey) (actions : List (Action κ)) (r : Registry κ) : Prop :=
  ∃ first a rest, actions = first ++ a :: rest ∧ a.takesOut key = true ∧
    (r.actAll first).answer a = true ∧ Action.reset ∉ rest ∧
      departures rest ((r.actAll first).act a) < n

theorem not_leftLately_zero (key : RunKey) (actions : List (Action κ)) (r : Registry κ) :
    ¬LeftLately 0 key actions r := by
  rintro ⟨first, a, rest, -, -, -, -, hfew⟩
  exact Nat.not_lt_zero _ hfew

theorem answers_append (first second : List (Action κ)) (r : Registry κ) :
    answers (first ++ second) r = answers first r ++ answers second (r.actAll first) := by
  induction first generalizing r with
  | nil => rfl
  | cons a rest ih => rw [List.cons_append, answers, ih, answers, List.cons_append, actAll_cons]

/-- The departures of a history with one more step. -/
theorem departures_snoc (actions : List (Action κ)) (x : Action κ) (r : Registry κ) :
    departures (actions ++ [x]) r =
      departures actions r + (x.isRemoval && (r.actAll actions).answer x).toNat := by
  rw [departures, answers_append, List.countP_append, departures]
  simp only [answers, List.countP_singleton]
  cases x.isRemoval && (r.actAll actions).answer x <;> rfl

/-- A name left lately if it leaves in the last step, or if it had left before and the last step
    did not push it out. -/
theorem leftLately_snoc (n : Nat) (key : RunKey) (actions : List (Action κ)) (x : Action κ)
    (r : Registry κ) :
    LeftLately n key (actions ++ [x]) r ↔
      (0 < n ∧ x.takesOut key = true ∧ (r.actAll actions).answer x = true) ∨
        (x ≠ .reset ∧
          LeftLately (n - (x.isRemoval && (r.actAll actions).answer x).toNat) key actions r) := by
  -- The last action is either the removal asked for or one more that came after it.
  constructor
  · rintro ⟨first, a, rest, hsplit, htakes, hanswer, hreset, hfew⟩
    rcases (History.split_snoc ..).mp hsplit with ⟨rfl, rfl, rfl⟩ | ⟨rest', rfl, rfl⟩
    · exact Or.inl ⟨hfew, htakes, hanswer⟩
    · rw [List.mem_append, List.mem_singleton, not_or] at hreset
      rw [departures_snoc, ← actAll_cons, ← actAll_append] at hfew
      exact Or.inr ⟨fun hx => hreset.2 hx.symm, first, a, rest', rfl, htakes, hanswer, hreset.1,
        Nat.lt_sub_of_add_lt hfew⟩
  · rintro (⟨hn, htakes, hanswer⟩ | ⟨hx, first, a, rest, rfl, htakes, hanswer, hreset, hfew⟩)
    · exact ⟨actions, x, [], rfl, htakes, hanswer, List.not_mem_nil, hn⟩
    · refine ⟨first, a, rest ++ [x], by simp, htakes, hanswer, ?_, ?_⟩
      · rw [List.mem_append, List.mem_singleton, not_or]
        exact ⟨hreset, fun h => hx h.symm⟩
      · rw [departures_snoc, ← actAll_cons, ← actAll_append]
        exact Nat.add_lt_of_lt_sub hfew

/-! ### The memory -/

/-- The latest names after one more is remembered. -/
theorem take_remember (memory n : Nat) (key : RunKey) (finalized : List RunKey) (h : n ≤ memory) :
    (remember memory key finalized).reverse.take n = (key :: finalized.reverse).take n := by
  cases n with
  | zero => rfl
  | succ n =>
      have hmemory : memory ≠ 0 := Nat.ne_of_gt (Nat.lt_of_lt_of_le (Nat.succ_pos n) h)
      rw [remember, if_neg hmemory, List.reverse_append, List.reverse_singleton,
        List.singleton_append, List.take_succ_cons, List.take_succ_cons, List.reverse_drop,
        List.take_take]
      congr 1
      rw [List.take_eq_take_iff, List.length_reverse]
      omega

theorem length_remember (memory : Nat) (key : RunKey) (finalized : List RunKey)
    (h : finalized.length ≤ memory) : (remember memory key finalized).length ≤ memory := by
  unfold remember
  split
  · exact h
  · rw [List.length_append, List.length_drop, List.length_singleton]
    omega

/-- What a step makes of the memory. -/
inductive MemoryChange (r : Registry κ) (a : Action κ) : Prop where
  /-- The memory is emptied. -/
  | empties (hreset : a = .reset) (hfinalized : (r.act a).finalized = [])
  /-- A name leaves and comes into the memory. -/
  | takesIn (key : RunKey) (hreset : a ≠ .reset) (hremoval : a.isRemoval = true)
      (hanswer : r.answer a = true) (htakes : ∀ other, a.takesOut other = true ↔ key = other)
      (hfinalized : (r.act a).finalized = remember r.memory key r.finalized)
  /-- No name leaves, and the memory stays as it is. -/
  | stays (hreset : a ≠ .reset) (hnone : (a.isRemoval && r.answer a) = false)
      (hfinalized : (r.act a).finalized = r.finalized)

/-- Both ways to take a name out put it into the memory, if it is there. -/
theorem memoryChange_leave (r : Registry κ) (a : Action κ) (key : RunKey) (hreset : a ≠ .reset)
    (hremoval : a.isRemoval = true) (hanswer : r.answer a = r.runs.contains key)
    (htakes : ∀ other, a.takesOut other = true ↔ key = other) (hact : r.act a = r.leave key) :
    r.MemoryChange a := by
  cases hthere : r.runs.contains key with
  | true =>
      refine .takesIn key hreset hremoval (hanswer.trans hthere) htakes ?_
      rw [hact, leave, if_pos hthere, without]
  | false =>
      refine .stays hreset (by rw [hanswer, hthere, Bool.and_false]) ?_
      rw [hact, leave, if_neg (Bool.eq_false_iff.mp hthere)]

theorem memoryChange_act (r : Registry κ) (a : Action κ) : r.MemoryChange a := by
  -- Only a removal writes to the memory, and only the reset empties it.
  cases a with
  | register now key onCancel =>
      refine .stays (by simp) rfl ?_
      rw [act, register_eq]
      split <;> rfl
  | append key delta => exact .stays (by simp) rfl rfl
  | update key u =>
      refine .stays (by simp) rfl ?_
      rw [act_update]
      rfl
  | restart key => exact .stays (by simp) rfl rfl
  | cancel key =>
      exact r.memoryChange_leave _ key (by simp) rfl (r.answer_cancel key)
        (by simp [Action.takesOut]) (r.act_cancel key)
  | finalize key =>
      exact r.memoryChange_leave _ key (by simp) rfl (r.answer_finalize key)
        (by simp [Action.takesOut]) (r.act_finalize key)
  | reset => exact .empties rfl rfl

theorem memory_actAll (r : Registry κ) (actions : List (Action κ)) :
    (r.actAll actions).memory = r.memory :=
  (r.limits_actAll actions).2

/-- A name that leaves is remembered, if any are. -/
theorem wasFinalized_without (r : Registry κ) (key : RunKey) (h : 1 ≤ r.memory) :
    (r.without key).wasFinalized key = true := by
  have hmemory : r.memory ≠ 0 := Nat.ne_of_gt h
  rw [wasFinalized, without, remember, if_neg hmemory]
  simp

section

variable (maxTools memory : Nat) (actions : List (Action κ))

/-- The memory never holds more names than it may. -/
theorem length_finalized :
    ((fresh maxTools memory).actAll actions).finalized.length ≤ memory := by
  -- The induction is from the right, as the last action meets the memory the others left.
  induction actions using List.reverseRecOn with
  | nil => exact Nat.zero_le memory
  | append_singleton actions x ih =>
      rw [actAll_append, actAll_singleton]
      cases ((fresh maxTools memory).actAll actions).memoryChange_act x with
      | empties hreset hfinalized =>
          rw [hfinalized]
          exact Nat.zero_le memory
      | takesIn key hreset hremoval hanswer htakes hfinalized =>
          rw [hfinalized, memory_actAll]
          exact length_remember memory key _ ih
      | stays hreset hnone hfinalized =>
          rw [hfinalized]
          exact ih

/-- The names that stand last in the memory are those that left last. -/
theorem mem_latest_iff (n : Nat) (key : RunKey) (h : n ≤ memory) :
    key ∈ ((fresh maxTools memory).actAll actions).finalized.reverse.take n ↔
      LeftLately n key actions (fresh maxTools memory) := by
  -- As above, from the right; every removal behind the name leaves one place less for it.
  induction actions using List.reverseRecOn generalizing n with
  | nil =>
      refine ⟨fun hmem => absurd hmem (by simp [fresh]), ?_⟩
      rintro ⟨first, a, rest, hsplit, -⟩
      exact absurd hsplit (by simp)
  | append_singleton actions x ih =>
      rw [leftLately_snoc, actAll_append, actAll_singleton]
      cases ((fresh maxTools memory).actAll actions).memoryChange_act x with
      | empties hreset hfinalized =>
          subst hreset
          simp [hfinalized, Action.takesOut]
      | takesIn k hreset hremoval hanswer htakes hfinalized =>
          -- The name that leaves moves all others one place back.
          have hsize : ((fresh maxTools memory).actAll actions).memory = memory :=
            memory_actAll _ actions
          rw [hfinalized, hsize, take_remember _ _ _ _ h, htakes, hremoval, hanswer]
          cases n with
          | zero => simp [not_leftLately_zero]
          | succ n =>
              rw [List.take_succ_cons, List.mem_cons, ih n (Nat.le_of_succ_le h)]
              simp [hreset, eq_comm]
      | stays hreset hnone hfinalized =>
          have hkey : ¬(x.takesOut key = true ∧
              ((fresh maxTools memory).actAll actions).answer x = true) := by
            rintro ⟨htakes, hanswer⟩
            rw [x.isRemoval_of_takesOut htakes, hanswer] at hnone
            exact absurd hnone (by decide)
          rw [hfinalized, hnone, Bool.toNat_false, Nat.sub_zero, ih n h,
            or_iff_right fun hx => hkey hx.2, and_iff_right hreset]

/-- A name is remembered if and only if it is among the names that left last. -/
theorem wasFinalized_iff_leftLately (key : RunKey) :
    ((fresh maxTools memory).actAll actions).wasFinalized key = true ↔
      LeftLately memory key actions (fresh maxTools memory) := by
  have hall := length_finalized maxTools memory actions
  rw [← List.length_reverse] at hall
  rw [← mem_latest_iff maxTools memory actions memory key (Nat.le_refl memory),
    List.take_of_length_le hall, List.mem_reverse, wasFinalized, List.contains_iff_mem]

end

end Registry

end Switchboard

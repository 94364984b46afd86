import Switchboard.Proofs.Effects
import Switchboard.Proofs.Ownership

/-!
# What a Move Means for the Tasks

A task changes by its own steps only, whoever acts in between; a task that is
there was there before or has just been launched, on a conversation that nobody
held; and a task is told of a cancellation only when the run is cancelled that it
carries out. The policy of retrying and the limits of the registry never change
at all.

## Theorems

* `Coordinator.tasks_perform`: A task changes by its own steps only.
* `Coordinator.mandate?_perform`: Where tasks come from.
* `Coordinator.fired_perform`: Who is told of a cancellation.
* `Coordinator.settings_perform`: What never changes.
-/

namespace Switchboard

theorem Registry.mostTools_leave {κ : Type} (r : Registry κ) (key : RunKey) :
    (r.leave key).mostTools = r.mostTools := by
  unfold leave
  split <;> rfl

namespace Coordinator

/-- A task changes by its own steps only. -/
theorem tasks_perform (s : Coordinator) (m : Move) (id : Nat) (hid : id < s.launched)
    (hstep : ¬m.IsStepOf id) : (s.perform m).tasks.get? id = s.tasks.get? id := by
  cases s.perform_change m with
  | aside locks hub directory provider hperform hnews => rw [hperform]
  | starts now key prompt provider hnew hfree hperform hnews =>
      rw [hperform, started, Table.get?_insert, if_neg (Nat.ne_of_lt hid)]
  | cancels now key run hmove hrun hperform hnews => rw [hperform, cancelled]
  -- A step of another task.
  | drives task t t' tasks hmove ht htasks hperform hnews =>
      have hne : id ≠ task := by
        rintro rfl
        rcases hmove with ⟨clock, rfl, -⟩ | ⟨rfl, -⟩ <;> exact hstep rfl
      rw [hperform, htasks, if_neg hne]
  | forwards task t t' handover registry hub hmove ht hforward hmost hruns hperform hnews =>
      have hne : id ≠ task := by
        rintro rfl
        exact hstep (hmove ▸ rfl)
      rw [hperform, Table.get?_insert, if_neg hne]
  | finishes now task t status hmove ht hdrained hstatus hperform hnews =>
      have hne : id ≠ task := by
        rintro rfl
        exact hstep (hmove ▸ rfl)
      rw [hperform, finished, Table.get?_erase, if_neg hne]

/-- A task that is there was there before, or has just been launched on a conversation that
    nobody held. -/
theorem mandate?_perform (s : Coordinator) (m : Move) (id : Nat) (mandate : RunTask.Mandate)
    (h : (s.perform m).mandate? id = some mandate) :
    s.mandate? id = some mandate ∨
      id = s.launched ∧ s.locks.held.get? mandate.key.conversation = none := by
  -- A task comes with a start and goes at its end, and no other move changes what it was given.
  cases s.perform_change m with
  | aside locks hub directory provider hperform hnews =>
      rw [hperform] at h
      exact Or.inl h
  | starts now key prompt provider hnew hfree hperform hnews =>
      rw [hperform, mandate?_started] at h
      by_cases hid : id = s.launched
      · rw [if_pos hid, Option.some.injEq] at h
        rw [← h]
        exact Or.inr ⟨hid, hfree⟩
      · rw [if_neg hid] at h
        exact Or.inl h
  | cancels now key run hmove hrun hperform hnews =>
      rw [hperform] at h
      exact Or.inl h
  -- Steps keep the mandates.
  | drives task t t' tasks hmove ht htasks hperform hnews =>
      refine Or.inl ?_
      rcases hmove with ⟨clock, rfl, -⟩ | ⟨rfl, -⟩
      · exact (s.mandate?_drive clock task id).symm.trans h
      · exact (s.mandate?_drain task id).symm.trans h
  | forwards task t t' handover registry hub hmove ht hforward hmost hruns hperform hnews =>
      subst hmove
      exact Or.inl ((s.mandate?_forward task id).symm.trans h)
  | finishes now task t status hmove ht hdrained hstatus hperform hnews =>
      rw [hperform, mandate?, finished, Table.get?_erase] at h
      by_cases hid : id = task
      · rw [if_pos hid] at h
        exact absurd h (by simp)
      · rw [if_neg hid] at h
        exact Or.inl h

/-- Whoever is told of a cancellation is the one to be told for the run that is cancelled. -/
theorem fired_perform (s : Coordinator) (m : Move) (callback : Callback)
    (h : callback ∈ (s.perform m).fired) : callback ∈ s.fired ∨
      ∃ now key run, m = .cancel now key ∧ s.registry.runs.get? key = some run ∧
        run.onCancel = some callback := by
  cases s.perform_change m with
  | cancels now key run hmove hrun hperform hnews =>
      rw [hperform, cancelled, List.mem_append, Option.mem_toList] at h
      exact h.imp id fun hc => ⟨now, key, run, hmove, hrun, hc⟩
  -- Nobody is told of anything else.
  | aside locks hub directory provider hperform hnews =>
      rw [hperform] at h
      exact Or.inl h
  | starts now key prompt provider hnew hfree hperform hnews =>
      rw [hperform] at h
      exact Or.inl h
  | drives task t t' tasks hmove ht htasks hperform hnews =>
      rw [hperform] at h
      exact Or.inl h
  | forwards task t t' handover registry hub hmove ht hforward hmost hruns hperform hnews =>
      rw [hperform] at h
      exact Or.inl h
  | finishes now task t status hmove ht hdrained hstatus hperform hnews =>
      rw [hperform] at h
      exact Or.inl h

/-- What never changes, and what never decreases. -/
theorem settings_perform (s : Coordinator) (m : Move) :
    (s.perform m).retry = s.retry ∧
      (s.perform m).registry.mostTools = s.registry.mostTools ∧
      s.launched ≤ (s.perform m).launched := by
  -- No move writes the settings; only a start counts a task, and the list of calls keeps its bound.
  cases s.perform_change m with
  | aside locks hub directory provider hperform hnews =>
      rw [hperform]
      exact ⟨rfl, rfl, Nat.le_refl _⟩
  | starts now key prompt provider hnew hfree hperform hnews =>
      rw [hperform]
      exact ⟨rfl, rfl, Nat.le_succ _⟩
  | cancels now key run hmove hrun hperform hnews =>
      rw [hperform]
      exact ⟨rfl, rfl, Nat.le_refl _⟩
  | drives task t t' tasks hmove ht htasks hperform hnews =>
      rw [hperform]
      exact ⟨rfl, rfl, Nat.le_refl _⟩
  | forwards task t t' handover registry hub hmove ht hforward hmost hruns hperform hnews =>
      rw [hperform]
      exact ⟨rfl, hmost, Nat.le_refl _⟩
  | finishes now task t status hmove ht hdrained hstatus hperform hnews =>
      rw [hperform]
      exact ⟨rfl, Registry.mostTools_leave _ _, Nat.le_refl _⟩

end Coordinator

end Switchboard

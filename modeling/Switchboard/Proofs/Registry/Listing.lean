import Mathlib.Data.List.Perm.Basic
import Switchboard.Proofs.Followers
import Switchboard.Proofs.Registry.Action

/-!
# Listings of Runs

What it means that a list is the listing of the runs of a registry. It has
exactly the runs that are registered, or those of one conversation, each once,
in the order of conversations and in each conversation in the order of times.
The order is strict, so there is one listing at most, in whatever order the
registry goes through its runs.

That there is one takes runs that started at different times. The times at which
the runs of a registry started are among those at which its history started
runs, in the same order, because a run that goes on keeps its time and one that
leaves takes it along. So it is enough that a history never starts two runs at
the same time.

## Main definitions

* `Registry.Precedes`: A run comes before another one in a listing.
* `Registry.Listing`: A list is the listing of a registry, or of one conversation.
* `Registry.times`, `Registry.startTimes`: The times at which the runs of a registry started, and
  at which actions start runs.

## Theorems

* `Registry.Listing.unique`: There is one listing at most.
* `Registry.times_act`, `Registry.times_actAll`: A registry knows no time but those of its history.
* `Registry.active_eq_of_perm`: The order in which the registry goes through its runs is lost.
* `Registry.active_listing`: What the registry tells, restricted to a conversation, is the listing.
-/

namespace Switchboard

namespace Timestamp

theorem before_iff (a b : Timestamp) :
    a.before b = true ↔ a.seconds < b.seconds ∨ a.seconds = b.seconds ∧ a.nanos < b.nanos := by
  simp only [before, Bool.or_eq_true, Bool.and_eq_true, decide_eq_true_eq, beq_iff_eq]

theorem not_before_iff (a b : Timestamp) :
    a.before b = false ↔ b.seconds < a.seconds ∨ b.seconds = a.seconds ∧ b.nanos ≤ a.nanos := by
  rw [← Bool.not_eq_true, before_iff]
  omega

/-- Of two different times one is before the other. -/
theorem before_of_ne {a b : Timestamp} (hne : a ≠ b) (h : b.before a = false) :
    a.before b = true := by
  rw [not_before_iff] at h
  rw [before_iff]
  rcases a with ⟨sa, na⟩
  rcases b with ⟨sb, nb⟩
  simp only [ne_eq, mk.injEq] at hne h ⊢
  omega

end Timestamp

namespace Registry

variable {κ : Type}

/-! ### The order of a listing -/

/-- A run comes before another one in a listing: by conversation, then by the time it started. -/
def Precedes (a b : Snapshot) : Prop :=
  a.key.conversation < b.key.conversation ∨
    a.key.conversation = b.key.conversation ∧ a.startedAt.before b.startedAt = true

theorem Precedes.asymm {a b : Snapshot} (hab : Precedes a b) : ¬Precedes b a := by
  rcases hab with hab | ⟨hab, htime⟩
  · rintro (hba | ⟨hba, -⟩)
    · exact String.lt_asymm hab hba
    · exact String.lt_irrefl _ (hba ▸ hab)
  · rintro (hba | ⟨-, htime'⟩)
    · exact String.lt_irrefl _ (hab ▸ hba)
    · rw [Timestamp.before_iff] at htime htime'
      omega

theorem listedBefore_iff (a b : Snapshot) :
    listedBefore a b = true ↔ a.key.conversation < b.key.conversation ∨
      a.key.conversation = b.key.conversation ∧ b.startedAt.before a.startedAt = false := by
  rw [listedBefore]
  split
  case isTrue h =>
    have hnot : ¬b.key.conversation < b.key.conversation := String.lt_irrefl _
    simp only [h, hnot, false_or, true_and, Bool.not_eq_true']
  case isFalse h => simp [h]

theorem listedBefore_trans (a b c : Snapshot) (hab : listedBefore a b = true)
    (hbc : listedBefore b c = true) : listedBefore a c = true := by
  rw [listedBefore_iff] at hab hbc ⊢
  rcases hab with hab | ⟨hab, htime⟩
  · rcases hbc with hbc | ⟨hbc, -⟩
    · exact Or.inl (String.lt_trans hab hbc)
    · exact Or.inl (hbc ▸ hab)
  · rcases hbc with hbc | ⟨hbc, htime'⟩
    · exact Or.inl (hab ▸ hbc)
    · refine Or.inr ⟨hab.trans hbc, ?_⟩
      rw [Timestamp.not_before_iff] at htime htime' ⊢
      omega

theorem listedBefore_total (a b : Snapshot) : (listedBefore a b || listedBefore b a) = true := by
  rw [Bool.or_eq_true, listedBefore_iff, listedBefore_iff]
  by_cases hlt : a.key.conversation < b.key.conversation
  · exact Or.inl (Or.inl hlt)
  · by_cases hgt : b.key.conversation < a.key.conversation
    · exact Or.inr (Or.inl hgt)
    · have hsame := String.le_antisymm (String.not_lt.mp hgt) (String.not_lt.mp hlt)
      rw [Timestamp.not_before_iff, Timestamp.not_before_iff]
      simp only [hsame, true_and]
      omega

/-- Runs that started at different times cannot be listed together. -/
theorem precedes_of_listedBefore {a b : Snapshot} (hne : a.startedAt ≠ b.startedAt)
    (h : listedBefore a b = true) : Precedes a b := by
  rcases (listedBefore_iff a b).mp h with hlt | ⟨hsame, htime⟩
  · exact Or.inl hlt
  · exact Or.inr ⟨hsame, Timestamp.before_of_ne hne htime⟩

/-! ### Listings -/

/-- A list is the listing of the runs of a registry, or of those of one conversation. -/
structure Listing (r : Registry κ) (conversation : Option String) (runs : List Snapshot) :
    Prop where
  mem : ∀ run, run ∈ runs ↔
    r.get? run.key = some run ∧ ∀ id, conversation = some id → run.key.conversation = id
  nodup : runs.Nodup
  ordered : runs.Pairwise Precedes

/-- There is one listing at most. -/
theorem Listing.unique {r : Registry κ} {conversation : Option String}
    {first second : List Snapshot} (hfirst : r.Listing conversation first)
    (hsecond : r.Listing conversation second) : first = second := by
  have hperm : first.Perm second :=
    (List.perm_ext_iff_of_nodup hfirst.nodup hsecond.nodup).mpr fun run => by
      rw [hfirst.mem, hsecond.mem]
  exact hperm.eq_of_pairwise (fun a b _ _ hab hba => (hab.asymm hba).elim)
    hfirst.ordered hsecond.ordered

theorem mem_snapshots_iff (r : Registry κ) (run : Snapshot) :
    run ∈ r.snapshots ↔ r.get? run.key = some run := by
  rw [mem_snapshots, get?, Option.map_eq_some_iff]
  constructor
  · rintro ⟨key, found, hfound, rfl⟩
    exact ⟨found, hfound, rfl⟩
  · rintro ⟨found, hfound, hrun⟩
    exact ⟨run.key, found, hfound, hrun⟩

/-- The times at which the runs of a registry started. -/
def times (r : Registry κ) : List Timestamp :=
  r.runs.values.map (·.startedAt)

theorem map_startedAt_snapshots (r : Registry κ) : r.snapshots.map (·.startedAt) = r.times := by
  simp only [snapshots, times, Table.values, List.map_map]
  rfl

/-- Runs that started at different times are sorted into the order of a listing. -/
theorem mergeSort_ordered {runs : List Snapshot} (h : (runs.map (·.startedAt)).Nodup) :
    (runs.mergeSort listedBefore).Pairwise Precedes := by
  have hapart : ((runs.mergeSort listedBefore).map (·.startedAt)).Nodup :=
    (((List.mergeSort_perm runs listedBefore).map _).nodup_iff).mpr h
  have hsorted := List.pairwise_mergeSort listedBefore_trans listedBefore_total runs
  exact (hsorted.and (List.pairwise_map.mp hapart)).imp fun hab =>
    precedes_of_listedBefore hab.2 hab.1

theorem active_ordered {r : Registry κ} (h : r.times.Nodup) : r.active.Pairwise Precedes :=
  mergeSort_ordered ((map_startedAt_snapshots r).symm ▸ h)

/-- It does not matter in which order the runs are gone through before they are sorted. -/
theorem active_eq_of_perm {r : Registry κ} (h : r.times.Nodup) {runs : List Snapshot}
    (hperm : runs.Perm r.snapshots) : runs.mergeSort listedBefore = r.active := by
  have hapart : (runs.map (·.startedAt)).Nodup :=
    ((hperm.map _).nodup_iff).mpr ((map_startedAt_snapshots r).symm ▸ h)
  have hsame : (runs.mergeSort listedBefore).Perm r.active :=
    ((List.mergeSort_perm ..).trans hperm).trans (List.mergeSort_perm ..).symm
  exact hsame.eq_of_pairwise (fun a b _ _ hab hba => (hab.asymm hba).elim)
    (mergeSort_ordered hapart) (active_ordered h)

theorem active_listing {r : Registry κ} (h : r.times.Nodup) (conversation : Option String) :
    r.Listing conversation
      (r.active.filter fun run => conversation.all (run.key.conversation = ·)) where
  mem run := by
    rw [List.mem_filter, active, List.mem_mergeSort, mem_snapshots_iff]
    cases conversation <;> simp
  nodup := by
    refine List.Nodup.filter _ ?_
    rw [active, (List.mergeSort_perm ..).nodup_iff]
    exact List.Nodup.of_map _ ((map_startedAt_snapshots r).symm ▸ h)
  ordered := (active_ordered h).filter _

/-! ### The times of a history -/

/-- The time at which an action starts a run, if it does. -/
def startTime? (r : Registry κ) : Action κ → Option Timestamp
  | .register now key _ => if r.runs.contains key then none else some now
  | _ => none

/-- The times at which some actions start runs, in order. -/
def startTimes : List (Action κ) → Registry κ → List Timestamp
  | [], _ => []
  | a :: rest, r => (r.startTime? a).toList ++ startTimes rest (r.act a)

theorem times_change (r : Registry κ) (key : RunKey) (f : Run κ → Run κ)
    (hf : ∀ run, (f run).startedAt = run.startedAt) : (r.change key f).times = r.times := by
  simp only [times, change, Table.values, Table.update, Table.mapEntries, List.map_map]
  refine List.map_congr_left fun e _ => ?_
  simp only [Function.comp_apply]
  split
  · exact hf e.2
  · rfl

theorem times_leave (r : Registry κ) (key : RunKey) : (r.leave key).times.Sublist r.times := by
  rw [leave]
  split
  · exact (List.filter_sublist.map _).map _
  · exact List.Sublist.refl _

/-- A step brings in the time at which it starts a run, and no other. -/
theorem times_act (r : Registry κ) (a : Action κ) :
    (r.act a).times.Sublist (r.times ++ (r.startTime? a).toList) := by
  cases a with
  | register now key onCancel =>
      rw [act, register_eq, startTime?]
      split
      · rw [Option.toList_none, List.append_nil]
      · next hnew =>
        have hkey : key ∉ r.runs.keys := by
          rw [← Table.get?_eq_none_iff]
          simpa [Table.contains] using hnew
        simp [times, Table.values, Table.insert, hkey, Run.start]
  -- Runs that go on keep their times.
  | append key delta =>
      have hkeep : (r.act (.append key delta)).times = r.times :=
        times_change r key (·.append delta) fun _ => rfl
      rw [hkeep]
      exact List.sublist_append_left ..
  | update key u =>
      rw [act_update, times_change r key _ fun run => ?_]
      · exact List.sublist_append_left ..
      · rw [Run.updateTool]
        split <;> rfl
  | restart key =>
      have hkeep : (r.act (.restart key)).times = r.times :=
        times_change r key (·.restart) fun _ => rfl
      rw [hkeep]
      exact List.sublist_append_left ..
  -- Runs that leave take theirs along.
  | cancel key =>
      rw [act_cancel]
      exact (r.times_leave key).trans (List.sublist_append_left ..)
  | finalize key =>
      rw [act_finalize]
      exact (r.times_leave key).trans (List.sublist_append_left ..)
  | reset => exact List.nil_sublist _

theorem times_actAll (actions : List (Action κ)) (r : Registry κ) :
    (r.actAll actions).times.Sublist (r.times ++ startTimes actions r) := by
  induction actions generalizing r with
  | nil => rw [actAll_nil, startTimes, List.append_nil]
  | cons a rest ih =>
      rw [actAll_cons, startTimes, ← List.append_assoc]
      exact (ih (r.act a)).trans ((r.times_act a).append_right _)

end Registry

end Switchboard

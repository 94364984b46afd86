import Mathlib.Algebra.GroupWithZero.Nat
import Mathlib.Data.List.Nodup
import Switchboard.Proofs.Registry.Action

/-!
# The Registry on Shelves

The runs of a registry can be kept on shelves, one for each conversation, so that
the runs of a conversation stand together. The first run of a conversation brings
its shelf, and the last one takes it away. That makes two things depend on each
other which the registry has in one: a run is found on its shelf, and there are no
runs exactly if there are no shelves, provided that no shelf is left empty.

`Shelves.holds_actAll` says that nothing can be told from the answers: after the
same actions the same runs are found. `Shelves.tidy_actAll` says that no shelf is
ever empty.

## Main definitions

* `Shelves`: Tables of runs, one for each conversation.
* `Shelves.act`, `Shelves.actAll`: The shelves after an action and after some actions.
* `Shelves.size`, `Shelves.isEmpty`: The number of runs, and whether there are no shelves.
* `Shelves.Holds`: The runs on the shelves are those of a registry.
* `Shelves.Tidy`: No shelf is empty.

## Theorems

* `Shelves.get?_insert`, `Shelves.get?_update`, `Shelves.get?_erase`: A change of one run shows at
  that run and nowhere else.
* `Shelves.size_eq`: There are as many runs on the shelves as there are in the registry.
* `Shelves.isEmpty_iff`: Without runs there are no shelves.
* `Shelves.holds_actAll`, `Shelves.tidy_actAll`: The shelves follow the registry.
-/

namespace Switchboard

/-- Runs on shelves, one for each conversation. -/
structure Shelves (κ : Type) where
  shelves : Table String (Table String (Run κ))

namespace Shelves

variable {κ : Type}

/-! ### Runs and shelves -/

/-- No shelves. -/
def empty : Shelves κ :=
  ⟨.empty⟩

/-- The run of a name. -/
def get? (s : Shelves κ) (key : RunKey) : Option (Run κ) :=
  (s.shelves.get? key.conversation).bind (·.get? key.run)

/-- Put a run on the shelf of its conversation, which is put up if it is not there. -/
def insert (s : Shelves κ) (key : RunKey) (run : Run κ) : Shelves κ :=
  let shelf := (s.shelves.get? key.conversation).getD .empty
  ⟨s.shelves.insert key.conversation (shelf.insert key.run run)⟩

/-- Change a run where it stands. -/
def update (s : Shelves κ) (key : RunKey) (f : Run κ → Run κ) : Shelves κ :=
  ⟨s.shelves.update key.conversation (·.update key.run f)⟩

/-- Put back what is left of a shelf, which is taken down if nothing is. -/
def putBack (s : Shelves κ) (conversation : String) (rest : Table String (Run κ)) : Shelves κ :=
  ⟨if rest.isEmpty then s.shelves.erase conversation else s.shelves.insert conversation rest⟩

/-- Take a run out, and its shelf as well if it was the last one. -/
def erase (s : Shelves κ) (key : RunKey) : Shelves κ :=
  match s.shelves.get? key.conversation with
  | none => s
  | some shelf => s.putBack key.conversation (shelf.erase key.run)

/-- The number of runs on all shelves. -/
def size (s : Shelves κ) : Nat :=
  (s.shelves.values.map (·.size)).sum

/-- Whether there are no shelves. -/
def isEmpty (s : Shelves κ) : Bool :=
  s.shelves.isEmpty

/-- The shelves after an action of the registry. -/
def act (mostTools : Nat) (s : Shelves κ) : Registry.Action κ → Shelves κ
  | .register now key onCancel =>
    if (s.get? key).isSome then s else s.insert key (.start now onCancel)
  | .append key delta => s.update key (·.append delta)
  | .update key u => s.update key fun run => (run.updateTool mostTools u).2
  | .restart key => s.update key (·.restart)
  | .cancel key => s.erase key
  | .finalize key => s.erase key
  | .reset => .empty

/-- The shelves after some actions. -/
def actAll (mostTools : Nat) (s : Shelves κ) (actions : List (Registry.Action κ)) : Shelves κ :=
  actions.foldl (act mostTools) s

theorem get?_insert (s : Shelves κ) (key other : RunKey) (run : Run κ) :
    (s.insert key run).get? other = if other = key then some run else s.get? other := by
  rw [get?, insert, Table.get?_insert, get?]
  by_cases hconv : other.conversation = key.conversation
  · rw [if_pos hconv, Option.bind_some, Table.get?_insert, hconv]
    by_cases hrun : other.run = key.run
    · rw [if_pos hrun, if_pos (RunKey.ext hconv hrun)]
    · rw [if_neg hrun, if_neg fun h => hrun (congrArg RunKey.run h)]
      cases s.shelves.get? key.conversation <;> rfl
  · rw [if_neg hconv, if_neg fun h => hconv (congrArg RunKey.conversation h)]

theorem get?_update (s : Shelves κ) (key other : RunKey) (f : Run κ → Run κ) :
    (s.update key f).get? other = if other = key then (s.get? other).map f else s.get? other := by
  rw [get?, update, Table.get?_update, get?]
  by_cases hconv : other.conversation = key.conversation
  · rw [if_pos hconv, Option.bind_map, Option.map_bind]
    by_cases hrun : other.run = key.run
    · rw [if_pos (RunKey.ext hconv hrun)]
      refine Option.bind_congr fun shelf _ => ?_
      rw [Function.comp_apply, Table.get?_update, if_pos hrun, Function.comp_apply]
    · rw [if_neg fun h => hrun (congrArg RunKey.run h)]
      refine Option.bind_congr fun shelf _ => ?_
      rw [Function.comp_apply, Table.get?_update, if_neg hrun]
  · rw [if_neg hconv, if_neg fun h => hconv (congrArg RunKey.conversation h)]

/-- Whether the shelf stays up or not, what is found on it is what is left. -/
theorem get?_putBack (s : Shelves κ) (conversation : String) (rest : Table String (Run κ))
    (key : RunKey) : (s.putBack conversation rest).get? key =
      if key.conversation = conversation then rest.get? key.run else s.get? key := by
  -- A shelf that has become empty is taken away, and then holds no run either way.
  rw [get?, putBack, get?]
  by_cases hempty : rest.isEmpty = true
  · rw [if_pos hempty, Table.get?_erase]
    by_cases hconv : key.conversation = conversation
    · have hnone : rest.get? key.run = none := by
        rw [Table.get?_eq_none_iff, Table.keys, List.isEmpty_iff.mp hempty]
        exact List.not_mem_nil
      rw [if_pos hconv, if_pos hconv, hnone, Option.bind_none]
    · rw [if_neg hconv, if_neg hconv]
  · rw [if_neg hempty, Table.get?_insert]
    by_cases hconv : key.conversation = conversation
    · rw [if_pos hconv, if_pos hconv, Option.bind_some]
    · rw [if_neg hconv, if_neg hconv]

theorem get?_erase (s : Shelves κ) (key other : RunKey) :
    (s.erase key).get? other = if other = key then none else s.get? other := by
  -- The run is on the shelf of its conversation, if there is one.
  unfold erase
  cases hs : s.shelves.get? key.conversation with
  | none =>
      by_cases hother : other = key
      · rw [if_pos hother, hother, get?, hs, Option.bind_none]
      · rw [if_neg hother]
  | some shelf =>
      rw [get?_putBack, Table.get?_erase, get?]
      by_cases hconv : other.conversation = key.conversation
      · rw [if_pos hconv, hconv, hs, Option.bind_some]
        by_cases hrun : other.run = key.run
        · rw [if_pos hrun, if_pos (RunKey.ext hconv hrun)]
        · rw [if_neg hrun, if_neg fun h => hrun (congrArg RunKey.run h)]
      · rw [if_neg hconv, if_neg fun h => hconv (congrArg RunKey.conversation h)]

/-! ### How many there are -/

/-- The names of the runs, shelf by shelf. -/
def keys (s : Shelves κ) : List RunKey :=
  s.shelves.entries.flatMap fun (conversation, shelf) => shelf.keys.map (RunKey.mk conversation)

theorem length_keys (s : Shelves κ) : s.keys.length = s.size := by
  rw [keys, List.length_flatMap, size, Table.values, List.map_map]
  refine congrArg List.sum (List.map_congr_left fun entry _ => ?_)
  rw [Function.comp_apply, List.length_map, Table.keys, List.length_map, Table.size]

theorem mem_keys (s : Shelves κ) (key : RunKey) : key ∈ s.keys ↔ (s.get? key).isSome := by
  simp only [keys, List.mem_flatMap, List.mem_map, Prod.exists, get?]
  constructor
  · rintro ⟨conversation, shelf, hshelf, run, hrun, rfl⟩
    rw [(Table.mem_entries ..).mp hshelf, Option.bind_some]
    exact (Table.mem_keys ..).mp hrun
  · intro h
    rcases Option.isSome_iff_exists.mp h with ⟨run, hrun⟩
    rcases Option.bind_eq_some_iff.mp hrun with ⟨shelf, hshelf, hget⟩
    exact ⟨key.conversation, shelf, (Table.mem_entries ..).mpr hshelf, key.run,
      (Table.mem_keys ..).mpr (Option.isSome_of_eq_some hget), rfl⟩

theorem nodup_keys (s : Shelves κ) : s.keys.Nodup := by
  refine List.nodup_flatMap.mpr ⟨fun entry _ => ?_, ?_⟩
  · exact entry.2.nodup.map fun run run' h => congrArg RunKey.run h
  · -- names on different shelves have different conversations
    refine (List.pairwise_map.mp s.shelves.nodup).imp fun {entry entry'} hne => ?_
    intro key hkey hkey'
    rcases List.mem_map.mp hkey with ⟨run, -, rfl⟩
    rcases List.mem_map.mp hkey' with ⟨run', -, heq⟩
    exact hne (congrArg RunKey.conversation heq).symm

/-- The runs on the shelves are those of a registry. -/
def Holds (s : Shelves κ) (r : Registry κ) : Prop :=
  ∀ key, s.get? key = r.runs.get? key

theorem size_eq {s : Shelves κ} {r : Registry κ} (h : s.Holds r) : s.size = r.size := by
  have hperm : s.keys.Perm r.runs.keys := by
    refine (List.perm_ext_iff_of_nodup s.nodup_keys r.runs.nodup).mpr fun key => ?_
    rw [mem_keys, h, ← Table.mem_keys, Table.keys]
  rw [← length_keys, hperm.length_eq, Table.keys, List.length_map]
  rfl

/-- No shelf is empty. -/
def Tidy (s : Shelves κ) : Prop :=
  ∀ conversation shelf, s.shelves.get? conversation = some shelf → shelf.isEmpty = false

theorem isEmpty_of_some {shelf : Table String (Run κ)} {run : String} {found : Run κ}
    (h : shelf.get? run = some found) : shelf.isEmpty = false := by
  have hmem := (Table.mem_entries ..).mpr h
  exact List.isEmpty_eq_false_iff_exists_mem.mpr ⟨_, hmem⟩

theorem isEmpty_iff {s : Shelves κ} (h : s.Tidy) : s.isEmpty = true ↔ s.size = 0 := by
  rw [← length_keys, List.length_eq_zero_iff, keys, List.flatMap_eq_nil_iff, isEmpty,
    Table.isEmpty, List.isEmpty_iff]
  constructor
  · intro hnone entry hentry
    rw [hnone] at hentry
    exact absurd hentry List.not_mem_nil
  · intro hnone
    refine List.eq_nil_iff_forall_not_mem.mpr fun entry hentry => ?_
    -- A shelf without names would be empty.
    have hshelf := h entry.1 entry.2 ((Table.mem_entries ..).mp hentry)
    have hkeys := List.map_eq_nil_iff.mp (hnone entry hentry)
    rw [Table.isEmpty, List.map_eq_nil_iff.mp hkeys] at hshelf
    exact Bool.noConfusion hshelf

/-! ### The shelves follow the registry -/

theorem holds_empty (maxTools memory : Nat) :
    (empty : Shelves κ).Holds (.fresh maxTools memory) := fun _ => rfl

theorem Holds.act {s : Shelves κ} {r : Registry κ} (h : s.Holds r) (a : Registry.Action κ) :
    (s.act r.mostTools a).Holds (r.act a) := by
  -- One action on the flat registry is one action on the shelves, name by name.
  intro key
  cases a with
  | register now k onCancel =>
      rw [Shelves.act, Registry.act, Registry.register_eq, h k, Table.contains]
      by_cases hk : (r.runs.get? k).isSome = true
      · rw [if_pos hk, if_pos hk, h]
      · rw [if_neg hk, if_neg hk, get?_insert, Table.get?_insert, h]
  | append k delta =>
      rw [Shelves.act, get?_update, h]
      exact (Table.get?_update ..).symm
  | update k u =>
      rw [Shelves.act, get?_update, h, Registry.act_update]
      exact (Table.get?_update ..).symm
  | restart k =>
      rw [Shelves.act, get?_update, h]
      exact (Table.get?_update ..).symm
  | cancel k =>
      rw [Shelves.act, get?_erase, h, Registry.act_cancel, Registry.get?_leave]
  | finalize k =>
      rw [Shelves.act, get?_erase, h, Registry.act_finalize, Registry.get?_leave]
  | reset => rfl

theorem tidy_empty : (empty : Shelves κ).Tidy :=
  fun _ _ hshelf => absurd hshelf (by simp [empty])

theorem Tidy.insert {s : Shelves κ} (h : s.Tidy) (key : RunKey) (run : Run κ) :
    (s.insert key run).Tidy := by
  intro conversation shelf hshelf
  rw [Shelves.insert, Table.get?_insert] at hshelf
  by_cases hconv : conversation = key.conversation
  · -- the run that was put on the shelf is there
    rw [if_pos hconv, Option.some.injEq] at hshelf
    have hget : shelf.get? key.run = some run := by
      rw [← hshelf, Table.get?_insert, if_pos rfl]
    exact isEmpty_of_some hget
  · rw [if_neg hconv] at hshelf
    exact h conversation shelf hshelf

theorem Tidy.update {s : Shelves κ} (h : s.Tidy) (key : RunKey) (f : Run κ → Run κ) :
    (s.update key f).Tidy := by
  intro conversation shelf hshelf
  rw [Shelves.update, Table.get?_update] at hshelf
  by_cases hconv : conversation = key.conversation
  · rw [if_pos hconv] at hshelf
    rcases Option.map_eq_some_iff.mp hshelf with ⟨before, hbefore, rfl⟩
    have hold := h conversation before hbefore
    rw [Table.isEmpty] at hold ⊢
    rw [← hold]
    exact List.isEmpty_map ..
  · rw [if_neg hconv] at hshelf
    exact h conversation shelf hshelf

theorem Tidy.putBack {s : Shelves κ} (h : s.Tidy) (conversation : String)
    (rest : Table String (Run κ)) : (s.putBack conversation rest).Tidy := by
  -- What is put back is either not empty or not put back at all.
  intro other shelf hshelf
  simp only [Shelves.putBack] at hshelf
  by_cases hempty : rest.isEmpty = true
  · rw [if_pos hempty, Table.get?_erase] at hshelf
    by_cases hother : other = conversation
    · rw [if_pos hother] at hshelf
      exact absurd hshelf (by simp)
    · rw [if_neg hother] at hshelf
      exact h other shelf hshelf
  · rw [if_neg hempty, Table.get?_insert] at hshelf
    by_cases hother : other = conversation
    · rw [if_pos hother, Option.some.injEq] at hshelf
      rw [← hshelf]
      exact Bool.eq_false_iff.mpr hempty
    · rw [if_neg hother] at hshelf
      exact h other shelf hshelf

theorem Tidy.erase {s : Shelves κ} (h : s.Tidy) (key : RunKey) : (s.erase key).Tidy := by
  unfold Shelves.erase
  cases s.shelves.get? key.conversation with
  | none => exact h
  | some shelf => exact h.putBack _ _

theorem Tidy.act {s : Shelves κ} (h : s.Tidy) (mostTools : Nat) (a : Registry.Action κ) :
    (s.act mostTools a).Tidy := by
  -- Only a registration adds a shelf, and the run it adds is on it.
  cases a with
  | register now key onCancel =>
      rw [Shelves.act]
      split
      · exact h
      · exact h.insert _ _
  | append key delta => exact h.update _ _
  | update key u => exact h.update _ _
  | restart key => exact h.update _ _
  | cancel key => exact h.erase _
  | finalize key => exact h.erase _
  | reset => exact tidy_empty

theorem tidy_actAll (mostTools : Nat) (actions : List (Registry.Action κ)) {s : Shelves κ}
    (h : s.Tidy) : (s.actAll mostTools actions).Tidy := by
  induction actions generalizing s with
  | nil => exact h
  | cons a rest ih => exact ih (h.act mostTools a)

theorem holds_actAll (actions : List (Registry.Action κ)) {s : Shelves κ} {r : Registry κ}
    (h : s.Holds r) : (s.actAll r.mostTools actions).Holds (r.actAll actions) := by
  induction actions generalizing s r with
  | nil => exact h
  | cons a rest ih =>
      have hstep := ih (h.act a)
      rwa [Registry.mostTools_act] at hstep

end Shelves

end Switchboard

import Mathlib.Data.List.Dedup
import Mathlib.Data.List.DropRight
import Mathlib.Data.List.Sort
import Mathlib.Data.Nat.Find
import Switchboard.ToolCall

/-!
# Histories of Tool Updates

What a list of tool calls ought to be, said of the updates alone. The list of a
run is bounded, and it keeps the calls that were updated last. Two orders matter
for it and they differ: the order of the last updates settles which calls are
kept, and the order in which the calls were put in is the one they are listed in.

`ToolUpdate.recent` is the first order, cut off at the bound. Because each id
counts from its last update, removing duplicates has to keep the last ones, which
is what `List.dedup` does. The second order is given by places in the history: an
update puts its id in if the id was not one of the recent ones just before. An id
that was dropped and comes back is therefore put in anew, and what it was told
before that place does not count any more.

All of this can be computed. `ToolUpdate.state` is the state of a call after some
updates, and `ToolUpdate.listed` the list of the states: the recent ids, sorted by
the places at which they were put in.

None of this speaks about the list that is kept by a run or about the times that
are noted in it. That both agree is the subject of `Proofs.Registry.ToolList`.

## Main definitions

* `ToolUpdate.ids`, `ToolUpdate.recent`: The ids in the order of their last updates, and the last
  ones of them.
* `ToolUpdate.Inserts`, `ToolUpdate.InsertedLast`: An update that puts its id in, and the last one
  that does.
* `ToolUpdate.since`: The updates of an id from a place on.
* `ToolUpdate.last?`, `ToolUpdate.merged`: The last value of a field, and the state that some
  updates make.
* `ToolUpdate.Explains`: A state is made by the updates since its id was put in.
* `ToolUpdate.place`, `ToolUpdate.state`, `ToolUpdate.listed`: Where an id was put in last, the
  state of its call, and the list of the states.

## Theorems

* `ToolUpdate.recent_known`, `ToolUpdate.recent_new`: The recent ids after one more update.
* `ToolUpdate.insertedLast_concat`, `ToolUpdate.insertedLast_new`: The places after one more update.
* `ToolUpdate.merged_concat`: One more update overwrites what it has a value for.
* `ToolUpdate.Explains.again`, `ToolUpdate.Explains.other`, `ToolUpdate.explains_new`: The states
  after one more update.
* `ToolUpdate.InsertedLast.place_eq`, `ToolUpdate.Explains.state_eq`: What is computed is what was
  described.
* `ToolUpdate.ids_eq_sorted`: A list of the recent ids in the order of their places is the sorted
  one.
-/

namespace Switchboard

namespace ToolUpdate

/-! ### Recent ids -/

/-- The ids that some updates are about, each once, in the order of their last updates. -/
def ids (us : List ToolUpdate) : List String :=
  (us.map (·.id)).dedup

/-- The ids that were updated last, `most` of them if there are as many. -/
def recent (most : Nat) (us : List ToolUpdate) : List String :=
  (ids us).rtake most

theorem recent_nil (most : Nat) : recent most [] = [] := by
  simp [recent, ids]

theorem nodup_recent (most : Nat) (us : List ToolUpdate) : (recent most us).Nodup :=
  (List.nodup_dedup _).sublist (List.drop_sublist ..)

theorem length_recent (most : Nat) (us : List ToolUpdate) :
    (recent most us).length = min most (ids us).length := by
  rw [recent, List.rtake, List.length_drop]
  omega

/-- An element that comes again goes to the end. -/
theorem dedup_concat {α : Type} [DecidableEq α] (l : List α) (a : α) :
    (l ++ [a]).dedup = l.dedup.erase a ++ [a] := by
  induction l with
  | nil => rfl
  | cons b l ih =>
      rw [List.cons_append, List.dedup_cons, List.dedup_cons, ih]
      by_cases hb : b ∈ l
      · rw [if_pos hb, if_pos (List.mem_append_left _ hb)]
      · have hdedup : b ∉ l.dedup := fun h => hb (List.mem_dedup.mp h)
        rw [if_neg hb]
        by_cases hba : b = a
        · subst hba
          rw [if_pos (List.mem_append_right _ (List.mem_singleton_self b)),
            List.erase_cons_head, List.erase_of_not_mem hdedup]
        · rw [if_neg (by simp [hb, hba]), List.erase_cons_tail (by simpa using hba),
            List.cons_append]

theorem ids_concat (us : List ToolUpdate) (u : ToolUpdate) :
    ids (us ++ [u]) = (ids us).erase u.id ++ [u.id] := by
  rw [ids, List.map_append, List.map_singleton, dedup_concat, ids]

/-- A recent id that is updated becomes the latest one. -/
theorem recent_known (most : Nat) (us : List ToolUpdate) (u : ToolUpdate)
    (before after : List String) (h : recent most us = before ++ u.id :: after) :
    recent most (us ++ [u]) = before ++ after ++ [u.id] := by
  have hsplit : ids us = (ids us).rdrop most ++ (before ++ u.id :: after) := by
    rw [← h]
    exact (List.take_append_drop ..).symm
  have hnodup : ((ids us).rdrop most ++ (before ++ u.id :: after)).Nodup :=
    hsplit ▸ List.nodup_dedup _
  -- The id is in one place only.
  have hold : u.id ∉ (ids us).rdrop most := fun hmem =>
    (List.nodup_append.mp hnodup).2.2 u.id hmem u.id (by simp) rfl
  have hbefore : u.id ∉ before := fun hmem =>
    (List.nodup_append.mp (List.nodup_append.mp hnodup).2.1).2.2 u.id hmem u.id (by simp) rfl
  have herase : (ids us).erase u.id = (ids us).rdrop most ++ (before ++ after) := by
    conv_lhs => rw [hsplit]
    rw [List.erase_append_right _ hold, List.erase_append_right _ hbefore, List.erase_cons_head]
  have hlength := congrArg List.length hsplit
  have hdrop : ((ids us).rdrop most).length = (ids us).length - most := by
    rw [List.rdrop, List.length_take]
    omega
  rw [recent, ids_concat, herase, List.rtake, List.append_assoc]
  refine List.drop_left' ?_
  simp only [List.length_append, List.length_cons, List.length_nil] at hlength ⊢
  omega

/-- An id that is not recent becomes the latest one, and the id that was updated longest ago makes
    room for it if there are too many. -/
theorem recent_new (most : Nat) (us : List ToolUpdate) (u : ToolUpdate) (hmost : 0 < most)
    (h : u.id ∉ recent most us) :
    recent most (us ++ [u]) =
      (recent most us).drop ((recent most us).length + 1 - most) ++ [u.id] := by
  obtain ⟨kept, rfl⟩ : ∃ kept, most = kept + 1 := ⟨most - 1, by omega⟩
  have hsplit : ids us = (ids us).rdrop (kept + 1) ++ recent (kept + 1) us :=
    (List.take_append_drop ..).symm
  -- The id may have been updated long ago.
  have herase : (ids us).erase u.id = ((ids us).rdrop (kept + 1)).erase u.id ++
      recent (kept + 1) us := by
    conv_lhs => rw [hsplit]
    rw [List.erase_append]
    split
    · rfl
    · next hold => rw [List.erase_of_not_mem h, List.erase_of_not_mem hold]
  -- If ids are left out, there are as many recent ones as are kept.
  have hrecent := length_recent (kept + 1) us
  have hold : (((ids us).rdrop (kept + 1)).erase u.id).length ≤ (ids us).length - (kept + 1) :=
    List.length_erase_le.trans (List.length_take_le ..)
  rw [recent, ids_concat, List.rtake_concat_succ, herase, List.rtake, List.length_append,
    List.drop_append, List.drop_eq_nil_of_le (by omega), List.nil_append]
  congr 2
  omega

/-! ### Places -/

section

variable (most : Nat) (us : List ToolUpdate) (u : ToolUpdate)

/-- An update puts its id in: the id was not one of the recent ones before. -/
def Inserts (id : String) (place : Nat) : Prop :=
  us[place]?.map (·.id) = some id ∧ id ∉ recent most (us.take place)

/-- The last update that put an id in. -/
def InsertedLast (id : String) (place : Nat) : Prop :=
  Inserts most us id place ∧ ∀ other, Inserts most us id other → other ≤ place

theorem Inserts.lt {most : Nat} {us : List ToolUpdate} {id : String} {place : Nat}
    (h : Inserts most us id place) : place < us.length := by
  rcases Option.map_eq_some_iff.mp h.1 with ⟨u, hu, -⟩
  exact (List.getElem?_eq_some_iff.mp hu).1

theorem inserts_concat (id : String) (place : Nat) :
    Inserts most (us ++ [u]) id place ↔
      Inserts most us id place ∨ place = us.length ∧ u.id = id ∧ id ∉ recent most us := by
  rcases Nat.lt_trichotomy place us.length with hlt | rfl | hgt
  -- What came before an earlier update is as it was.
  · simp only [Inserts, List.getElem?_append_left hlt, List.take_append_of_le_length hlt.le,
      hlt.ne, false_and, or_false]
  -- The new update comes after all the others.
  · have hold : ¬Inserts most us id us.length := fun h => absurd h.lt (Nat.lt_irrefl _)
    rw [or_iff_right hold, Inserts, List.getElem?_concat_length, List.take_left]
    simp
  · have hold : ¬Inserts most us id place := fun h => absurd h.lt (Nat.lt_asymm hgt)
    have hnew : ¬Inserts most (us ++ [u]) id place := fun h => by
      have hlt := h.lt
      rw [List.length_append, List.length_singleton] at hlt
      omega
    simp [hold, hnew, hgt.ne']

/-- An update of a recent id, or of another one, puts nothing in. -/
theorem insertedLast_concat (id : String) (place : Nat) (h : u.id = id → id ∈ recent most us) :
    InsertedLast most (us ++ [u]) id place ↔ InsertedLast most us id place := by
  have hsame : ∀ other, Inserts most (us ++ [u]) id other ↔ Inserts most us id other := by
    intro other
    rw [inserts_concat]
    exact or_iff_left fun hnew => hnew.2.2 (h hnew.2.1)
  simp only [InsertedLast, hsame]

/-- An update of an id that is not recent puts it in. -/
theorem insertedLast_new (h : u.id ∉ recent most us) :
    InsertedLast most (us ++ [u]) u.id us.length := by
  refine ⟨(inserts_concat ..).mpr (Or.inr ⟨rfl, rfl, h⟩), fun other hother => ?_⟩
  rcases (inserts_concat ..).mp hother with hold | ⟨rfl, -⟩
  · exact hold.lt.le
  · exact Nat.le_refl _

theorem InsertedLast.unique {most : Nat} {us : List ToolUpdate} {id : String} {p q : Nat}
    (hp : InsertedLast most us id p) (hq : InsertedLast most us id q) : p = q :=
  Nat.le_antisymm (hq.2 p hp.1) (hp.2 q hq.1)

/-- The updates of an id from a place on. -/
def since (place : Nat) (id : String) : List ToolUpdate :=
  (us.drop place).filter (·.id = id)

theorem since_concat (place : Nat) (h : place ≤ us.length) :
    since (us ++ [u]) place u.id = since us place u.id ++ [u] := by
  rw [since, List.drop_append_of_le_length h, List.filter_append, since]
  simp

theorem since_concat_other (place : Nat) (id : String) (h : u.id ≠ id) :
    since (us ++ [u]) place id = since us place id := by
  -- The new update is of another id, whether it is cut off or not.
  have hlast : ([u].drop (place - us.length)).filter (·.id = id) = [] := by
    rw [List.filter_eq_nil_iff]
    intro other hother
    rw [List.mem_singleton.mp (List.mem_of_mem_drop hother)]
    simpa using h
  rw [since, List.drop_append, List.filter_append, hlast, List.append_nil, since]

theorem since_length : since (us ++ [u]) us.length u.id = [u] := by
  rw [since, List.drop_left]
  simp

end

/-! ### States -/

/-- The last value that some updates have for a field, if one of them has a value. -/
def last? {α : Type} (field : ToolUpdate → Option α) (us : List ToolUpdate) : Option α :=
  (us.filterMap field).getLast?

theorem last?_concat {α : Type} (field : ToolUpdate → Option α) (us : List ToolUpdate)
    (u : ToolUpdate) : last? field (us ++ [u]) = (field u <|> last? field us) := by
  rw [last?, List.filterMap_append, List.getLast?_append, last?]
  cases h : field u <;> simp [h]

/-- The state of a call that some updates make. -/
def merged (id : String) (us : List ToolUpdate) : ToolCall where
  id := id
  name := last? (·.name) us
  status := (last? (·.status) us).getD "requesting"
  stage := last? (·.stage) us
  result := last? (·.result) us
  error := last? (·.error) us

theorem merged_concat (id : String) (us : List ToolUpdate) (u : ToolUpdate) :
    merged id (us ++ [u]) = (merged id us).apply u := by
  have hstatus : (u.status <|> last? (·.status) us).getD "requesting" =
      u.status.getD ((last? (·.status) us).getD "requesting") := by
    cases u.status <;> rfl
  simp only [merged, last?_concat, ToolCall.apply, hstatus]

theorem merged_one (u : ToolUpdate) : merged u.id [u] = .ofUpdate u := by
  rw [← List.nil_append [u], merged_concat]
  cases u with
  | mk id name status stage result error =>
      simp [merged, last?, ToolCall.apply, ToolCall.ofUpdate, ToolCall.initialStatus]

/-- A state is made by the updates of its id since the id was put in last. -/
def Explains (most : Nat) (us : List ToolUpdate) (call : ToolCall) : Prop :=
  ∃ place, InsertedLast most us call.id place ∧ call = merged call.id (since us place call.id)

section

variable {most : Nat} {us : List ToolUpdate} {u : ToolUpdate} {call : ToolCall}

/-- The update of a recent id is one more since the id was put in. -/
theorem Explains.again (h : Explains most us call) (hid : call.id = u.id)
    (hrecent : u.id ∈ recent most us) : Explains most (us ++ [u]) (call.apply u) := by
  rcases h with ⟨place, hplace, hcall⟩
  refine ⟨place, ?_, ?_⟩
  · exact (insertedLast_concat most us u call.id place fun heq => heq ▸ hrecent).mpr hplace
  · rw [ToolCall.apply_id]
    rw [hid] at hplace hcall ⊢
    rw [since_concat us u place hplace.1.lt.le, merged_concat, ← hcall]

theorem Explains.other (h : Explains most us call) (hid : call.id ≠ u.id) :
    Explains most (us ++ [u]) call := by
  rcases h with ⟨place, hplace, hcall⟩
  refine ⟨place, ?_, ?_⟩
  · exact (insertedLast_concat most us u call.id place fun heq => absurd heq.symm hid).mpr hplace
  · rwa [since_concat_other us u place call.id hid.symm]

theorem explains_new (h : u.id ∉ recent most us) : Explains most (us ++ [u]) (.ofUpdate u) := by
  refine ⟨us.length, insertedLast_new most us u h, ?_⟩
  show ToolCall.ofUpdate u = merged u.id (since (us ++ [u]) us.length u.id)
  rw [since_length, merged_one]

end

/-! ### Lists of states -/

section

variable (most : Nat) (us : List ToolUpdate)

instance (id : String) : DecidablePred (Inserts most us id) := fun place =>
  inferInstanceAs (Decidable (us[place]?.map (·.id) = some id ∧ id ∉ recent most (us.take place)))

/-- The place of the update that put an id in last. -/
def place (id : String) : Nat :=
  Nat.findGreatest (Inserts most us id) us.length

/-- The state of a call after some updates. -/
def state (id : String) : ToolCall :=
  merged id (since us (place most us id) id)

/-- The states of the calls that were updated last, in the order in which they were put in. -/
def listed : List ToolCall :=
  ((recent most us).insertionSort fun a b => place most us a ≤ place most us b).map (state most us)

end

section

variable {most : Nat} {us : List ToolUpdate}

theorem InsertedLast.place_eq {id : String} {p : Nat} (h : InsertedLast most us id p) :
    place most us id = p := by
  have hle : p ≤ us.length := h.1.lt.le
  exact Nat.le_antisymm (h.2 _ (Nat.findGreatest_spec hle h.1)) (Nat.le_findGreatest hle h.1)

/-- Only one id is put in at a place. -/
theorem InsertedLast.id_eq {a b : String} {p : Nat} (ha : InsertedLast most us a p)
    (hb : InsertedLast most us b p) : a = b :=
  Option.some.inj (ha.1.1.symm.trans hb.1.1)

theorem Explains.state_eq {call : ToolCall} (h : Explains most us call) :
    call = state most us call.id := by
  rcases h with ⟨place, hplace, hcall⟩
  rw [state, hplace.place_eq]
  exact hcall

/-- The recent ids in the order in which they were put in are the sorted ones. -/
theorem ids_eq_sorted (ids : List String) (hperm : ids.Perm (recent most us))
    (hplaces : ∀ id ∈ ids, ∃ p, InsertedLast most us id p)
    (horder : ids.Pairwise fun a b => ∀ p q, InsertedLast most us a p →
      InsertedLast most us b q → p < q) :
    ids = (recent most us).insertionSort fun a b => place most us a ≤ place most us b := by
  have hsorted : ids.Pairwise fun a b => place most us a ≤ place most us b := by
    refine horder.imp_of_mem fun {a b} ha hb hab => ?_
    rcases hplaces a ha with ⟨p, hp⟩
    rcases hplaces b hb with ⟨q, hq⟩
    rw [hp.place_eq, hq.place_eq]
    exact (hab p q hp hq).le
  refine List.Perm.eq_of_pairwise (fun a b ha hb hab hba => ?_) hsorted
    (List.pairwise_insertionSort _ _) (hperm.trans (List.perm_insertionSort _ _).symm)
  -- Two ids with the same place are the same.
  have hmem : b ∈ ids := hperm.mem_iff.mpr ((List.mem_insertionSort _).mp hb)
  rcases hplaces a ha with ⟨p, hp⟩
  rcases hplaces b hmem with ⟨q, hq⟩
  obtain rfl : p = q := by
    rw [← hp.place_eq, ← hq.place_eq]
    exact Nat.le_antisymm hab hba
  exact hp.id_eq hq

end

end ToolUpdate

end Switchboard

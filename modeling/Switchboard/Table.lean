/-!
# Tables

Finite maps as lists of entries in the order in which their keys came in. A key
that is written again keeps its place.

## Main definitions

* `Table`: A list of entries whose keys differ.
* `Table.get?`: The value of a key.
* `Table.insert`, `Table.erase`, `Table.update`: Changes at one key.
* `Table.keys`, `Table.values`, `Table.size`: What is in a table.

## Theorems

* `Table.get?_insert`, `Table.get?_erase`, `Table.get?_update`: A change at one key shows at
  that key and nowhere else.
* `Table.update_congr`: A change depends only on what it makes of the value at its key.
* `Table.erase_insert`: A key that comes and goes leaves no trace.
* `Table.mem_entries`: The entries are the keys with their values.
-/

namespace Switchboard

/-- A finite map. -/
structure Table (κ α : Type) where
  /-- The keys with their values. -/
  entries : List (κ × α)
  /-- No key occurs twice. -/
  nodup : (entries.map (·.1)).Nodup

namespace Table

variable {κ α : Type} [DecidableEq κ]

/-- The table without entries. -/
def empty : Table κ α :=
  ⟨[], by simp⟩

instance : EmptyCollection (Table κ α) := ⟨empty⟩

instance : Inhabited (Table κ α) := ⟨empty⟩

/-- The value of a key. -/
def get? (t : Table κ α) (k : κ) : Option α :=
  (t.entries.find? fun e => e.1 = k).map (·.2)

/-- Whether a key is there. -/
def contains (t : Table κ α) (k : κ) : Bool :=
  (t.get? k).isSome

/-- The keys, in the order in which they came in. -/
def keys (t : Table κ α) : List κ :=
  t.entries.map (·.1)

/-- The values, in the order of their keys. -/
def values (t : Table κ α) : List α :=
  t.entries.map (·.2)

/-- The number of keys. -/
def size (t : Table κ α) : Nat :=
  t.entries.length

/-- Whether there is no key. -/
def isEmpty (t : Table κ α) : Bool :=
  t.entries.isEmpty

/-- A table whose entries are changed and keep their keys. -/
def mapEntries {β : Type} (t : Table κ α) (f : κ → α → β) : Table κ β :=
  ⟨t.entries.map fun e => (e.1, f e.1 e.2), by simpa [Function.comp_def] using t.nodup⟩

/-- Change the value of a key, if it is there. -/
def update (t : Table κ α) (k : κ) (f : α → α) : Table κ α :=
  t.mapEntries fun j a => if j = k then f a else a

/-- Take a key out. -/
def erase (t : Table κ α) (k : κ) : Table κ α :=
  ⟨t.entries.filter fun e => e.1 ≠ k, t.nodup.sublist (List.filter_sublist.map _)⟩

theorem get?_eq_none_iff (t : Table κ α) (k : κ) : t.get? k = none ↔ k ∉ t.keys := by
  simp only [get?, keys, Option.map_eq_none_iff, List.find?_eq_none, decide_eq_true_eq,
    List.mem_map, Prod.exists, exists_and_right, exists_eq_right, not_exists]
  exact ⟨fun h a ha => h (k, a) ha rfl, fun h e he hk => h e.2 (hk ▸ he)⟩

/-- Give a key a value. -/
def insert (t : Table κ α) (k : κ) (a : α) : Table κ α :=
  if h : k ∈ t.keys then t.update k fun _ => a
  else ⟨t.entries ++ [(k, a)], by
    rw [List.map_append, List.nodup_append]
    refine ⟨t.nodup, by simp, fun x hx y hy => ?_⟩
    simp only [List.map_cons, List.map_nil, List.mem_singleton] at hy
    rintro rfl
    exact h (hy ▸ hx)⟩

@[simp] theorem get?_empty (k : κ) : (empty : Table κ α).get? k = none := rfl

/-- The entries are the keys with their values. -/
theorem mem_entries (t : Table κ α) (k : κ) (a : α) :
    (k, a) ∈ t.entries ↔ t.get? k = some a := by
  obtain ⟨es, hn⟩ := t
  simp only [get?]
  induction es with
  | nil => simp
  | cons e rest ih =>
      simp only [List.map_cons, List.nodup_cons] at hn
      rw [List.mem_cons, List.find?_cons]
      by_cases h : e.1 = k
      · subst h
        simp only [decide_true, Option.map_some, Option.some.injEq]
        constructor
        · rintro (ha | hm)
          · rw [← ha]
          · exact absurd (List.mem_map_of_mem (f := (·.1)) hm) hn.1
        · intro ha
          exact Or.inl (Prod.ext rfl ha.symm)
      · rw [decide_eq_false h]
        constructor
        · rintro (rfl | hm)
          · exact absurd rfl h
          · exact (ih hn.2).mp hm
        · exact fun hm => Or.inr ((ih hn.2).mpr hm)

theorem get?_mapEntries {β : Type} (t : Table κ α) (f : κ → α → β) (k : κ) :
    (t.mapEntries f).get? k = (t.get? k).map (f k) := by
  simp only [get?, mapEntries, List.find?_map, Option.map_map]
  have : ((fun e : κ × β => decide (e.1 = k)) ∘ fun e : κ × α => (e.1, f e.1 e.2)) =
      fun e => decide (e.1 = k) := rfl
  rw [this]
  cases h : t.entries.find? fun e => decide (e.1 = k) with
  | none => rfl
  | some e =>
      have := List.find?_some h
      simp only [decide_eq_true_eq] at this
      simp [this]

/-- A changed value shows at its key and nowhere else. -/
@[simp] theorem get?_update (t : Table κ α) (k j : κ) (f : α → α) :
    (t.update k f).get? j = if j = k then (t.get? j).map f else t.get? j := by
  rw [update, get?_mapEntries]
  by_cases h : j = k <;> simp [h]

/-- Only the value that is changed matters. -/
theorem update_congr (t : Table κ α) (k : κ) (f g : α → α)
    (h : ∀ a, t.get? k = some a → f a = g a) : t.update k f = t.update k g := by
  simp only [update, mapEntries, mk.injEq]
  refine List.map_congr_left fun e he => ?_
  by_cases hk : e.1 = k
  · have := h e.2 (hk ▸ (mem_entries t e.1 e.2).mp he)
    simp only [if_pos hk, this]
  · simp only [if_neg hk]

theorem update_id (t : Table κ α) (k : κ) (f : α → α)
    (h : ∀ a, t.get? k = some a → f a = a) : t.update k f = t := by
  rw [update_congr t k f id h]
  simp [update, mapEntries]

/-- A key that is taken out is gone, and nothing else is. -/
@[simp] theorem get?_erase (t : Table κ α) (k j : κ) :
    (t.erase k).get? j = if j = k then none else t.get? j := by
  simp only [get?, erase, List.find?_filter]
  by_cases h : j = k
  · subst h
    simp
  · rw [if_neg h]
    congr 2
    funext e
    by_cases he : e.1 = j <;> simp [he, h]

/-- A key has the value it was given last, and the other keys are as before. -/
@[simp] theorem get?_insert (t : Table κ α) (k j : κ) (a : α) :
    (t.insert k a).get? j = if j = k then some a else t.get? j := by
  rw [insert]
  split
  · next h =>
      rw [get?_update]
      by_cases hj : j = k
      · subst hj
        have hs : (t.get? j).isSome := by
          rw [Option.isSome_iff_ne_none, Ne, get?_eq_none_iff]
          exact fun hn => hn h
        obtain ⟨v, hv⟩ := Option.isSome_iff_exists.mp hs
        simp [hv]
      · simp [hj]
  · next h =>
      simp only [get?, List.find?_append]
      by_cases hj : j = k
      · subst hj
        have : t.entries.find? (fun e => decide (e.1 = j)) = none := by
          have := (get?_eq_none_iff t j).mpr h
          simpa [get?] using this
        simp [this]
      · have : ¬k = j := fun e => hj e.symm
        simp [hj, this]

/-- A key that is put in and taken out again at once leaves the table as it was. -/
theorem erase_insert (t : Table κ α) (k : κ) (a : α) (h : t.get? k = none) :
    (t.insert k a).erase k = t := by
  have hk : k ∉ t.keys := (get?_eq_none_iff t k).mp h
  have hothers : t.entries.filter (fun e => e.1 ≠ k) = t.entries := by
    rw [List.filter_eq_self]
    intro e he
    simp only [decide_eq_true_eq]
    exact fun heq => hk (List.mem_map.mpr ⟨e, he, heq⟩)
  rw [insert, dif_neg hk]
  obtain ⟨entries, hnodup⟩ := t
  simp only [erase, List.filter_append, hothers, mk.injEq]
  simp

theorem contains_of_some {t : Table κ α} {k : κ} {a : α} (h : t.get? k = some a) :
    t.contains k = true := by
  rw [contains, h, Option.isSome_some]

theorem contains_of_none {t : Table κ α} {k : κ} (h : t.get? k = none) :
    t.contains k = false := by
  rw [contains, h, Option.isSome_none]

theorem mem_keys (t : Table κ α) (k : κ) : k ∈ t.keys ↔ (t.get? k).isSome := by
  rw [Option.isSome_iff_ne_none, Ne, get?_eq_none_iff, Classical.not_not]

end Table

end Switchboard

import Mathlib.Data.List.Forall2
import Switchboard.Proofs.Json.Members

/-!
# Trees in Canonical Form

What canonical form leaves alone. The members of an object are put in one by
one, each at its place among those before it, so that an object whose members
are in order already is put together again as it was. A record is written with
its fields in a fixed order, of which some may be left out. If the names are in
order then whatever is left of them is, and a record of canonical values is
canonical, whichever of its fields are there.

## Main definitions

* `Json.Named`: Entries of a record that go by some names.

## Theorems

* `Json.insertMember_last`: A member that comes after all others goes to the end.
* `Json.sortMembers_sorted`: Members that are in order stay as they are.
* `Json.canonical_obj`: An object of canonical values in order is canonical.
* `Json.canonical_arr`: So is an array of canonical values.
* `Json.canonical_record`: So is a record.
-/

namespace Switchboard

namespace Json

/-- A member that comes after all others goes to the end. -/
theorem insertMember_last (key : String) (value : Json) (members : List (String × Json))
    (h : ∀ m ∈ members, m.1 < key) :
    insertMember key value members = members ++ [(key, value)] := by
  induction members with
  | nil => rfl
  | cons m rest ih =>
      rcases m with ⟨k, v⟩
      rcases List.forall_mem_cons.mp h with ⟨hk, hrest⟩
      have hne : key ≠ k := fun heq => String.lt_irrefl k (heq ▸ hk)
      rw [insertMember, if_neg hne, if_neg (String.lt_asymm hk), ih hrest, List.cons_append]

/-- Members that are in order stay as they are. -/
theorem sortMembers_sorted {members : List (String × Json)}
    (h : members.Pairwise fun m n => m.1 < n.1) : sortMembers members = members := by
  -- What was put in so far comes before everything that is still to come.
  have hfold : ∀ rest sorted : List (String × Json),
      (sorted ++ rest).Pairwise (fun m n => m.1 < n.1) →
        rest.foldl (fun sorted m => insertMember m.1 m.2 sorted) sorted = sorted ++ rest := by
    intro rest
    induction rest with
    | nil => exact fun sorted _ => (List.append_nil sorted).symm
    | cons m rest ih =>
        intro sorted hsorted
        have hbefore : ∀ n ∈ sorted, n.1 < m.1 := fun n hn =>
          (List.pairwise_append.mp hsorted).2.2 n hn m List.mem_cons_self
        rw [List.append_cons] at hsorted ⊢
        rw [List.foldl_cons, insertMember_last m.1 m.2 sorted hbefore]
        exact ih _ hsorted
  exact hfold members [] h

/-- An object of canonical values in order is canonical. -/
theorem canonical_obj {members : List (String × Json)}
    (hsorted : members.Pairwise fun m n => m.1 < n.1)
    (hvalues : ∀ m ∈ members, m.2.canonical = m.2) :
    (Json.obj members).canonical = .obj members := by
  have hsame : ∀ m ∈ members, (m.1, m.2.canonical) = m := fun m hm => by rw [hvalues m hm]
  have hmembers : canonicalMembers members = members := by
    rw [canonicalMembers_eq, List.map_congr_left hsame, List.map_id']
  rw [canonical, hmembers, sortMembers_sorted hsorted]

/-- An array of canonical values is canonical. -/
theorem canonical_arr {items : List Json} (h : ∀ item ∈ items, item.canonical = item) :
    (Json.arr items).canonical = .arr items := by
  have hitems : canonicalItems items = items := by
    induction items with
    | nil => rfl
    | cons item rest ih =>
        rcases List.forall_mem_cons.mp h with ⟨hitem, hrest⟩
        rw [canonicalItems, hitem, ih hrest]
  rw [canonical, hitems]

/-! ### Records -/

/-- Whether the entries of a record go by some names, as far as they are there. -/
def Named (names : List String) (entries : List (Option (String × Json))) : Prop :=
  List.Forall₂ (fun name entry => ∀ m ∈ entry, m.1 = name) names entries

theorem field_named (name : String) (value : Json) : ∀ m ∈ field name value, m.1 = name := by
  rintro _ ⟨⟩
  rfl

theorem field?_named (name : String) (value : Option Json) :
    ∀ m ∈ field? name value, m.1 = name := by
  intro m hm
  rcases Option.map_eq_some_iff.mp hm with ⟨v, -, rfl⟩
  rfl

/-- What is there of a record goes by some of its names, in the same order. -/
theorem Named.keys {names : List String} {entries : List (Option (String × Json))}
    (h : Named names entries) : ((entries.filterMap id).map (·.1)).Sublist names := by
  induction h with
  | nil => exact List.Sublist.refl _
  | @cons name entry names entries hname _ ih =>
      cases entry with
      | none => exact ih.cons name
      | some m =>
          have hcons : (some m :: entries).filterMap id = m :: entries.filterMap id := rfl
          rw [hcons, List.map_cons, hname m rfl]
          exact ih.cons_cons name

/-- A record of canonical values whose names are in order is canonical. -/
theorem canonical_record (names : List String) {entries : List (Option (String × Json))}
    (hnamed : Named names entries) (hsorted : names.Pairwise (· < ·))
    (hvalues : ∀ entry ∈ entries, ∀ m ∈ entry, m.2.canonical = m.2) :
    (record entries).canonical = record entries := by
  refine canonical_obj (List.pairwise_map.mp (hsorted.sublist hnamed.keys)) fun m hm => ?_
  rcases List.mem_filterMap.mp hm with ⟨entry, hentry, heq⟩
  exact hvalues entry hentry m heq

theorem field_canonical (key : String) (value : Json) :
    (∀ m ∈ field key value, m.2.canonical = m.2) ↔ value.canonical = value := by
  simp [field]

theorem field?_canonical (key : String) (value : Option Json) :
    (∀ m ∈ field? key value, m.2.canonical = m.2) ↔ ∀ v ∈ value, v.canonical = v := by
  cases value <;> simp [field?]

theorem str_canonical (s : String) : (Json.str s).canonical = .str s := canonical_leaf.2.2.2 s

theorem ofNat_canonical (n : Nat) : (Json.ofNat n).canonical = .ofNat n := canonical_leaf.2.2.1 _

end Json

end Switchboard

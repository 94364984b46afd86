import Switchboard.Json.Record

/-!
# Members of Objects

A text can be read in two ways. One makes a tree of the whole text and looks
the members up afterwards, where the last of several members with one name
counts. The other walks over the outline and takes the fields of a record as
they come, where a field that occurs twice is a fault. The two agree on an
object in which each name that matters occurs once, and that is the only sense
in which a text can be said to hold a field without naming a reader.

## Main definitions

* `Json.only?`, `Json.onlyText?`: The value of the only member with a name, and its text.

## Theorems

* `Json.lookup_sortMembers`: Of several members with one name the last one counts.
* `Json.member?_canonical`, `Json.absent_canonical`: What looking up finds in canonical form.
* `Json.Outline.tree?_intact`: The outline of a tree has no mark.
* `Json.Outline.tree?_str`, `Json.Outline.tree?_arr`, `Json.Outline.tree?_obj`: The outlines that
  denote a tree, by the form of the tree.
-/

namespace Switchboard

namespace Json

/-! ### Looking members up -/

/-- The value of the only member of an object with a name. -/
def only? (j : Json) (name : String) : Option Json :=
  match (j.members?.getD []).filter fun m => m.1 = name with
  | [(_, value)] => some value
  | _ => none

/-- The text of the only member of an object with a name. -/
def onlyText? (j : Json) (name : String) : Option String :=
  (j.only? name).bind string?

theorem only?_eq_some {j value : Json} {name : String} (h : j.only? name = some value) :
    ∃ members, j = .obj members ∧ (members.filter fun m => m.1 = name) = [(name, value)] := by
  unfold only? at h
  split at h
  · next key v hfilter =>
      -- One member passed the filter, so it bears the name and is the only one that does.
      have hmem : (key, v) ∈ (j.members?.getD []).filter fun m => m.1 = name := by
        rw [hfilter]
        exact List.mem_singleton_self _
      have hkey : key = name := of_decide_eq_true (List.mem_filter.mp hmem).2
      rw [hkey, Option.some.inj h] at hfilter
      cases j with
      | obj members => exact ⟨members, rfl, hfilter⟩
      | _ => simp [members?] at hfilter
  · cases h

theorem onlyText?_eq_some {j : Json} {name s : String} (h : j.onlyText? name = some s) :
    j.only? name = some (.str s) := by
  rcases Option.bind_eq_some_iff.mp h with ⟨value, hvalue, hs⟩
  cases value with
  | str text => rw [hvalue, Option.some.inj hs]
  | _ => cases hs

theorem lookup_eq_filter (members : List (String × Json)) (name : String) :
    members.lookup name = ((members.filter fun m => m.1 = name).head?).map (·.2) := by
  induction members with
  | nil => rfl
  | cons m rest ih =>
      rcases m with ⟨key, value⟩
      by_cases hkey : key = name
      · rw [List.filter_cons_of_pos (by simpa using hkey), hkey, List.lookup_cons_self]
        rfl
      · have hne : (name == key) = false := beq_false_of_ne (Ne.symm hkey)
        rw [List.filter_cons_of_neg (by simpa using hkey), List.lookup_cons, hne, ih]

/-! ### Canonical form -/

theorem lookup_insertMember (key name : String) (value : Json) (members : List (String × Json)) :
    (insertMember key value members).lookup name = ((key, value) :: members).lookup name := by
  -- The new member goes where its name sorts: before the first larger name, in place of its own, or
  -- further down.
  induction members with
  | nil => rfl
  | cons m rest ih =>
      rcases m with ⟨k, v⟩
      unfold insertMember
      split
      · next hkey =>
          subst hkey
          simp only [List.lookup_cons]
          split <;> rfl
      · next hkey =>
          split
          · rfl
          · -- the new member went in further down, past one with another name
            simp only [List.lookup_cons] at ih ⊢
            by_cases hname : name = k
            · have hother : (name == key) = false :=
                beq_false_of_ne fun h => hkey (h.symm.trans hname)
              simp only [hname, beq_self_eq_true]
              rw [← hname, hother]
            · simp only [beq_false_of_ne hname, ih]

/-- Of several members with one name the last one counts. -/
theorem lookup_sortMembers (members : List (String × Json)) (name : String) :
    (sortMembers members).lookup name = members.reverse.lookup name := by
  have hfold : ∀ sorted : List (String × Json),
      (members.foldl (fun sorted m => insertMember m.1 m.2 sorted) sorted).lookup name =
        (members.reverse ++ sorted).lookup name := by
    induction members with
    | nil => exact fun sorted => rfl
    | cons m rest ih =>
        intro sorted
        rw [List.foldl_cons, ih, List.reverse_cons, List.append_assoc, List.singleton_append,
          List.lookup_append, List.lookup_append, lookup_insertMember]
  rw [sortMembers, hfold, List.append_nil]

theorem canonicalMembers_eq (members : List (String × Json)) :
    canonicalMembers members = members.map fun m => (m.1, m.2.canonical) := by
  induction members with
  | nil => rfl
  | cons m rest ih => rw [canonicalMembers, ih, List.map_cons]

theorem canonicalMembers_filter (members : List (String × Json)) (name : String) :
    ((canonicalMembers members).filter fun m => m.1 = name) =
      (members.filter fun m => m.1 = name).map fun m => (m.1, m.2.canonical) := by
  rw [canonicalMembers_eq, List.filter_map]
  rfl

/-- A member whose name occurs once is found in canonical form. -/
theorem member?_canonical {j value : Json} {name : String} (h : j.only? name = some value) :
    j.canonical.member? name = some value.canonical := by
  rcases only?_eq_some h with ⟨members, rfl, hfilter⟩
  rw [canonical, member?, members?, Option.bind_some, lookup_sortMembers, lookup_eq_filter,
    List.filter_reverse, canonicalMembers_filter, hfilter]
  rfl

theorem lookup_canonical {members : List (String × Json)} {value : Json} {name : String}
    (h : (Json.obj members).only? name = some value) :
    (sortMembers (canonicalMembers members)).lookup name = some value.canonical :=
  member?_canonical h

theorem lookup_canonical_text {members : List (String × Json)} {name s : String}
    (h : (Json.obj members).onlyText? name = some s) :
    (sortMembers (canonicalMembers members)).lookup name = some (.str s) :=
  lookup_canonical (onlyText?_eq_some h)

/-- A name that does not occur does not occur in canonical form. -/
theorem absent_canonical {members : List (String × Json)} {name : String}
    (h : (Json.obj members).member? name = none) :
    (sortMembers (canonicalMembers members)).lookup name = none := by
  have hfilter : (members.filter fun m => m.1 = name) = [] := by
    have hlookup : members.lookup name = none := h
    rw [lookup_eq_filter, Option.map_eq_none_iff, List.head?_eq_none_iff] at hlookup
    exact hlookup
  rw [lookup_sortMembers, lookup_eq_filter, List.filter_reverse, canonicalMembers_filter, hfilter]
  rfl

/-! ### Outlines of trees -/

namespace Outline

mutual

/-- The outline of a tree has no mark. -/
theorem tree?_intact (room : Nat) (o : Outline) (h : (o.tree? room).isSome) :
    o.intact = true := by
  -- Whatever lacks its closing bracket, here or further in, stands for no tree.
  cases o with
  | null | bool | num | str => rfl
  | broken => simp [tree?] at h
  | arr items closed =>
      cases room with
      | zero => simp [tree?] at h
      | succ room =>
          rw [tree?] at h
          split at h
          · next hclosed =>
              rw [Option.isSome_map] at h
              rw [intact, hclosed, Bool.true_and]
              exact itemTrees?_intact room items h
          · cases h
  | obj members closed =>
      cases room with
      | zero => simp [tree?] at h
      | succ room =>
          rw [tree?] at h
          split at h
          · next hclosed =>
              rw [Option.isSome_map] at h
              rw [intact, hclosed, Bool.true_and]
              exact memberTrees?_intact room members h
          · cases h

theorem itemTrees?_intact (room : Nat) (items : List Outline)
    (h : (itemTrees? room items).isSome) : intactItems items = true := by
  cases items with
  | nil => rfl
  | cons item rest =>
      rw [itemTrees?] at h
      cases hitem : item.tree? room with
      | none => simp [hitem] at h
      | some j =>
          rw [hitem, Option.bind_some, Option.isSome_map] at h
          rw [intactItems, tree?_intact room item (by rw [hitem]; rfl),
            itemTrees?_intact room rest h, Bool.and_self]

theorem memberTrees?_intact (room : Nat) (members : List (List Piece × Outline))
    (h : (memberTrees? room members).isSome) : intactMembers members = true := by
  -- A member needs its name and its value; either may be what has no reading.
  cases members with
  | nil => rfl
  | cons m rest =>
      rcases m with ⟨key, value⟩
      rw [memberTrees?] at h
      cases hkey : decodeString key with
      | none => simp [hkey] at h
      | some k =>
          rw [hkey, Option.bind_some] at h
          cases hvalue : value.tree? room with
          | none => simp [hvalue] at h
          | some j =>
              rw [hvalue, Option.bind_some, Option.isSome_map] at h
              rw [intactMembers, tree?_intact room value (by rw [hvalue]; rfl),
                memberTrees?_intact room rest h, Bool.and_self]

end

theorem tree?_null {room : Nat} {o : Outline} (h : o.tree? room = some .null) : o = .null := by
  cases o with
  | null => rfl
  | bool | num | str | broken => simp [tree?] at h
  | arr | obj => cases room <;> simp [tree?] at h

theorem tree?_bool {room : Nat} {o : Outline} {b : Bool} (h : o.tree? room = some (.bool b)) :
    o = .bool b := by
  cases o with
  | bool => simpa [tree?] using h
  | null | num | str | broken => simp [tree?] at h
  | arr | obj => cases room <;> simp [tree?] at h

theorem tree?_num {room : Nat} {o : Outline} {n : Number} (h : o.tree? room = some (.num n)) :
    ∃ m : Numeral, o = .num m ∧ m.number? = some n := by
  cases o with
  | num m => exact ⟨m, rfl, by simpa [tree?] using h⟩
  | null | bool | str | broken => simp [tree?] at h
  | arr | obj => cases room <;> simp [tree?] at h

theorem tree?_str {room : Nat} {o : Outline} {s : String} (h : o.tree? room = some (.str s)) :
    ∃ ps, o = .str ps ∧ decodeString ps = some s := by
  cases o with
  | str ps => exact ⟨ps, rfl, by simpa [tree?] using h⟩
  | null | bool | num | broken => simp [tree?] at h
  | arr | obj => cases room <;> simp [tree?] at h

theorem tree?_arr {room : Nat} {o : Outline} {items : List Json}
    (h : o.tree? (room + 1) = some (.arr items)) :
    ∃ outlines, o = .arr outlines true ∧ itemTrees? room outlines = some items := by
  cases o with
  | arr outlines closed =>
      cases closed with
      | true => exact ⟨outlines, rfl, by simpa [tree?] using h⟩
      | false => simp [tree?] at h
  | null | bool | num | str | broken => simp [tree?] at h
  | obj => simp [tree?] at h

/-- What denotes an object is an outline that is closed, of members that denote its members. -/
theorem tree?_obj {room : Nat} {o : Outline} {members : List (String × Json)}
    (h : o.tree? room = some (.obj members)) :
    ∃ inner outlines, room = inner + 1 ∧ o = .obj outlines true ∧
      memberTrees? inner outlines = some members := by
  -- Only an object that is closed gives an object, and it spends one level of the room.
  cases o with
  | obj outlines closed =>
      cases room with
      | zero => simp [tree?] at h
      | succ inner =>
          rw [tree?] at h
          split at h
          · next hclosed =>
              rcases Option.map_eq_some_iff.mp h with ⟨ms, hms, hmembers⟩
              rw [Json.obj.inj hmembers] at hms
              exact ⟨inner, outlines, rfl, by rw [hclosed], hms⟩
          · cases h
  | arr items closed => cases room <;> simp [tree?] at h
  | null | bool | num | str | broken => simp [tree?] at h

end Outline

end Json

end Switchboard

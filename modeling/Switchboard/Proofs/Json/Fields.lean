import Mathlib.Data.List.Forall2
import Mathlib.Data.List.Nodup
import Switchboard.Proofs.Json.Canonical

/-!
# Records and their Trees

A record is read from an outline, but what was sent is known as a tree. A reader
gives a value for a tree if it makes that value of every outline that denotes the
tree, whatever the text looked like. Readers of the values of fields are told
apart by what they give, and a record is given by its fields: each of them is
written as one entry, which is the member with its name, or no member where the
field is left out.

A field that may be missing is read as one value from a member and as another
from none. Both are said at once, of the value that the member has if there is one.

The fields of a record can be part of what an object holds, as long as all that
is written in it goes by different names.

## Main definitions

* `Json.Gives`, `Json.Brings`: A reader makes a value of a tree, or of one that may be missing.
* `Json.unlessNull`: A value that may be missing, where null is no value.
* `Json.Field.Admits`, `Json.Fields.Holds`: A field that can be read from a value, and one that was
  found with it. The value may be missing in both.
* `Json.Pending`: What is known of a field in the middle of a walk over members.
* `Json.Field.Fits`: An entry is what is written for a field.
* `Json.Fields.Finds`: A field was found as it was written.
* `Json.Field.TakesTexts`: A field that can be any text.

## Theorems

* `Json.gives_text`, `Json.gives_flag`, `Json.gives_word`, `Json.gives_tree`, `Json.gives_name`,
  `Json.gives_list`: What values of fields are read as.
* `Json.brings_text`, `Json.brings_word`, `Json.brings_tree`: What values that may be missing are.
* `Json.readMembers_holds`, `Json.readFields_holds`: Walking over an outline finds the members of
  its tree.
* `Json.lookup_entries`: A member is found under the name of its field.
* `Json.readFields_finds`, `Json.gives_record`: A record is given by its fields.
* `Json.ofText_texts`: A whole text, read as a record of texts.
-/

namespace Switchboard

namespace Json

/-- Whether a reader makes a value of every outline that denotes a tree. -/
def Gives {α : Type} (read : Reads α) (room : Nat) (j : Json) (a : α) : Prop :=
  ∀ o : Outline, o.tree? room = some j → read room o = .ok a

/-- Whether a reader makes a value of a tree that may be missing; `absent` is what is read if
    it is. -/
def Brings {α : Type} (read : Reads α) (absent : α) (room : Nat) (tree : Option Json) (a : α) :
    Prop :=
  match tree with
  | some j => Gives read room j a
  | none => a = absent

/-- A value that may be missing. Null is no value. -/
def unlessNull : Option Json → Option Json
  | some .null => none
  | value => value

/-! ### Values of fields -/

variable {α : Type} {read : Reads α} {room : Nat} {j : Json} {a : α}

theorem gives_text (room : Nat) (s : String) : Gives readText room (.str s) s := by
  intro o ho
  rcases Outline.tree?_str ho with ⟨ps, rfl, hps⟩
  simp only [readText, hps]

theorem gives_flag (room : Nat) (b : Bool) : Gives readFlag room (.bool b) b := by
  intro o ho
  rw [Outline.tree?_bool ho, readFlag]

theorem gives_word {bound n : Nat} (hbound : n < bound) (hword : n < wordBound) (room : Nat) :
    Gives (readWord bound) room (.ofNat n) n := by
  intro o ho
  rcases Outline.tree?_num ho with ⟨m, rfl, hm⟩
  have hn : (UInt64.ofNat n).toNat = n := UInt64.toNat_ofNat_of_lt hword
  simp only [readWord, hm, Number.ofNat, Number.word?, hn, hbound, if_true]

theorem gives_tree (room : Nat) (j : Json) : Gives readTree room j j.canonical := by
  intro o ho
  simp only [readTree, ho]

theorem gives_name {emptyObject : Bool} {names : List (String × α)} {s : String}
    (h : names.lookup s = some a) (room : Nat) :
    Gives (readName emptyObject names) room (.str s) a := by
  intro o ho
  rcases Outline.tree?_str ho with ⟨ps, rfl, hps⟩
  simp only [readName, hps, named, h]

theorem gives_null (read : Reads α) (room : Nat) : Gives (readNullable read) room .null none := by
  intro o ho
  rw [Outline.tree?_null ho, readNullable]

theorem gives_some (hnull : j ≠ .null) (h : Gives read room j a) :
    Gives (readNullable read) room j (some a) := by
  intro o ho
  cases o with
  -- An outline that is null denotes null alone.
  | null => exact absurd (Option.some.inj ho).symm hnull
  | _ => simp only [readNullable, h _ ho, Except.map]

/-- An array is read item by item. -/
theorem gives_list {items : List Json} {as : List α}
    (h : List.Forall₂ (Gives read room) items as) :
    Gives (readList read) (room + 1) (.arr items) as := by
  intro o ho
  rcases Outline.tree?_arr ho with ⟨outlines, rfl, houtlines⟩
  rw [readList]
  clear ho
  -- The induction is on the items, read in the order in which they stand.
  induction outlines generalizing items as with
  | nil =>
      cases Option.some.inj houtlines
      cases h
      rfl
  | cons outline rest ih =>
      rw [Outline.itemTrees?, Option.bind_eq_some_iff] at houtlines
      rcases houtlines with ⟨item, hitem, hrest⟩
      rcases Option.map_eq_some_iff.mp hrest with ⟨others, hothers, rfl⟩
      cases h with
      | cons hgives hothersGive =>
          simp only [readItems, hgives outline hitem, ih hothersGive hothers, bind, Except.bind]

/-! ### Values that may be missing -/

theorem brings_text (room : Nat) (s : Option String) :
    Brings (readNullable readText) none room (s.map .str) s := by
  cases s with
  | none => exact rfl
  | some s => exact gives_some (by simp) (gives_text room s)

theorem brings_word {bound : Nat} (n : Option Nat) (hbound : ∀ k ∈ n, k < bound)
    (hword : ∀ k ∈ n, k < wordBound) (room : Nat) :
    Brings (readNullable (readWord bound)) none room (n.map .ofNat) n := by
  cases n with
  | none => exact rfl
  | some k => exact gives_some (by simp [ofNat]) (gives_word (hbound k rfl) (hword k rfl) room)

/-- Of any value that may be missing, null is the only one that is not read back. -/
theorem brings_tree (room : Nat) (value : Option Json) (h : ∀ v ∈ value, v.canonical = v) :
    Brings (readNullable readTree) none room value (unlessNull value) := by
  cases value with
  | none => exact rfl
  | some v =>
      by_cases hnull : v = .null
      · subst hnull
        exact gives_null readTree room
      · have hsome : unlessNull (some v) = some v.canonical := by
          rw [h v rfl]
          cases v <;> first | rfl | exact absurd rfl hnull
        rw [hsome]
        exact gives_some hnull (gives_tree room v)

/-! ### Walking over members -/

/-- Whether a field can be read from a value, or may be left out if there is none. -/
def Field.Admits (f : Field) (room : Nat) (tree : Option Json) : Prop :=
  match tree with
  | some value => Gives f.check room value ()
  | none => f.optional = true

/-- Whether an outline of a value was found under a name, or nothing if there is none. -/
def Fields.Holds (fs : Fields) (name : String) (tree : Option Json) : Prop :=
  match tree with
  | some value => ∃ o, fs.outlines.lookup name = some o ∧ o.tree? fs.room = some value
  | none => fs.outlines.lookup name = none

theorem required_admits (name : String) (h : Gives read room j a) :
    (Field.required name read).Admits room (some j) := by
  intro o ho
  simp only [Field.required, h o ho, Except.map]

theorem optionally_admits (name : String) {absent : α} {tree : Option Json}
    (h : Brings read absent room tree a) : (Field.optionally name read).Admits room tree := by
  cases tree with
  | none => rfl
  | some value =>
      intro o ho
      simp only [Field.optionally, h o ho, Except.map]

theorem Fields.Holds.get {fs : Fields} {name : String} (h : fs.Holds name (some j))
    (hgives : Gives read fs.room j a) : fs.get name read = .ok a := by
  rcases h with ⟨o, ho, htree⟩
  simp only [Fields.get, ho, hgives o htree]

theorem Fields.Holds.getD {fs : Fields} {name : String} {tree : Option Json} {absent : α}
    (h : fs.Holds name tree) (hbrings : Brings read absent fs.room tree a) :
    fs.getD name read absent = .ok a := by
  cases tree with
  | none =>
      have hnone : fs.outlines.lookup name = none := h
      have habsent : a = absent := hbrings
      simp only [Fields.getD, hnone, habsent]
  | some value =>
      rcases h with ⟨o, ho, htree⟩
      simp only [Fields.getD, ho, hbrings o htree]

/-- Whether a field was met with the outline of its member and does not come again, or its
    members, of which there may be none, are all still to come. -/
def Pending (room : Nat) (found : List (String × Outline)) (rest members : List (String × Json))
    (name : String) : Prop :=
  (∃ o value, found.lookup name = some o ∧ o.tree? room = some value ∧
    members.lookup name = some value ∧ (rest.filter fun m => m.1 = name) = []) ∨
  found.lookup name = none ∧
    (rest.filter fun m => m.1 = name) = members.filter fun m => m.1 = name

/-- A member with another name is no news of a field. -/
theorem Pending.past {found : List (String × Outline)} {rest members : List (String × Json)}
    {k name : String} (h : Pending room found ((k, j) :: rest) members name) (hne : name ≠ k) :
    Pending room found rest members name := by
  have hskip : ((k, j) :: rest).filter (fun m => m.1 = name) = rest.filter fun m => m.1 = name :=
    List.filter_cons_of_neg (by simpa using Ne.symm hne)
  rwa [Pending, hskip] at h

theorem Pending.beside {found : List (String × Outline)} {rest members : List (String × Json)}
    {k name : String} (h : Pending room found rest members name) (hne : name ≠ k) (o : Outline) :
    Pending room ((k, o) :: found) rest members name := by
  have hskip : ((k, o) :: found).lookup name = found.lookup name := by
    rw [List.lookup_cons, beq_false_of_ne hne]
  rwa [Pending, hskip]

/-- The only member with a name was not met before it comes, and does not come again. -/
theorem Pending.comes {found : List (String × Outline)} {rest members : List (String × Json)}
    {k : String} (h : Pending room found ((k, j) :: rest) members k)
    (honce : (members.filter fun m => m.1 = k).length ≤ 1) :
    found.lookup k = none ∧ members.lookup k = some j ∧ (rest.filter fun m => m.1 = k) = [] := by
  have htake : ((k, j) :: rest).filter (fun m => m.1 = k) =
      (k, j) :: rest.filter fun m => m.1 = k := List.filter_cons_of_pos (by simp)
  rw [Pending, htake] at h
  rcases h with ⟨_, _, -, -, -, hnone⟩ | ⟨hnew, hmembers⟩
  · cases hnone
  · rw [← hmembers, List.length_cons] at honce
    refine ⟨hnew, ?_, List.length_eq_zero_iff.mp (by omega)⟩
    rw [lookup_eq_filter, ← hmembers]
    rfl

theorem Pending.holds {found : List (String × Outline)} {members : List (String × Json)}
    {name : String} (h : Pending room found [] members name) :
    Fields.Holds ⟨room, found⟩ name (members.lookup name) := by
  rcases h with ⟨o, value, hfound, htree, hmember, -⟩ | ⟨hnone, hmembers⟩
  · rw [hmember]
    exact ⟨o, hfound, htree⟩
  · rw [lookup_eq_filter, ← hmembers]
    exact hnone

/-- Walking over an outline finds the members of its tree, if no field comes twice. Members that
    are no fields may come as often as they like. -/
theorem readMembers_holds (fields : List Field) (room : Nat) (members : List (String × Json))
    (honce : ∀ f ∈ fields, (members.filter fun m => m.1 = f.name).length ≤ 1)
    (hadmits : ∀ f ∈ fields, f.Admits room (members.lookup f.name))
    (outlines : List (List Piece × Outline)) :
    ∀ (found : List (String × Outline)) (rest : List (String × Json)),
      Outline.memberTrees? room outlines = some rest →
      (∀ f ∈ fields, Pending room found rest members f.name) →
      ∃ all, readMembers fields room true found outlines = .ok all ∧
        ∀ f ∈ fields, Fields.Holds ⟨room, all⟩ f.name (members.lookup f.name) := by
  -- What is left to walk over gets shorter, and `Pending` says of each field whether it was met.
  induction outlines with
  | nil =>
      intro found rest htrees hpending
      cases Option.some.inj htrees
      have hholds := fun f hf => (hpending f hf).holds
      refine ⟨found, ?_, hholds⟩
      -- A field that was not met is no member, and so it may be left out.
      have hall : fields.all (fun f => f.optional || (found.lookup f.name).isSome) = true := by
        rw [List.all_eq_true]
        intro f hf
        have hadmit := hadmits f hf
        have hhold := hholds f hf
        cases hmember : members.lookup f.name with
        | some value =>
            rw [hmember] at hhold
            rcases hhold with ⟨o, ho, -⟩
            rw [ho, Option.isSome_some, Bool.or_true]
        | none =>
            rw [hmember] at hadmit
            have hoptional : f.optional = true := hadmit
            rw [hoptional, Bool.true_or]
      simp only [readMembers, hall, Bool.not_true, Bool.false_eq_true, if_false, if_true]
  | cons m outlines ih =>
      rcases m with ⟨key, outline⟩
      intro found rest htrees hpending
      rw [Outline.memberTrees?, Option.bind_eq_some_iff] at htrees
      rcases htrees with ⟨k, hk, htrees⟩
      rcases Option.bind_eq_some_iff.mp htrees with ⟨value, hvalue, htrees⟩
      rcases Option.map_eq_some_iff.mp htrees with ⟨others, hothers, rfl⟩
      cases hfind : fields.find? fun f => f.name == k with
      | some f =>
          have hf : f ∈ fields := List.mem_of_find?_eq_some hfind
          have hname : f.name = k :=
            eq_of_beq (List.find?_some (p := fun g : Field => g.name == k) hfind)
          have hcomes := hpending f hf
          have honly := honce f hf
          have hgives := hadmits f hf
          rw [hname] at hcomes honly hgives
          rcases hcomes.comes honly with ⟨hnew, hmember, hlast⟩
          rw [hmember] at hgives
          have hnext : ∀ g ∈ fields,
              Pending room ((k, outline) :: found) others members g.name := by
            intro g hg
            by_cases hsame : g.name = k
            · rw [hsame]
              exact .inl ⟨outline, value, List.lookup_cons_self, hvalue, hmember, hlast⟩
            · exact ((hpending g hg).past hsame).beside hsame outline
          rcases ih ((k, outline) :: found) others hothers hnext with ⟨all, hall, hholds⟩
          refine ⟨all, ?_, hholds⟩
          simp only [readMembers, hk, hfind, hnew, Option.isSome_none, Bool.false_eq_true, if_false,
            hgives outline hvalue]
          exact hall
      | none =>
          -- A member that is no field is passed over, and all that matters is that it has no mark.
          have hnext : ∀ f ∈ fields, Pending room found others members f.name := by
            intro f hf
            refine (hpending f hf).past fun heq => ?_
            exact absurd (beq_iff_eq.mpr heq) (List.find?_eq_none.mp hfind f hf)
          rcases ih found others hothers hnext with ⟨all, hall, hholds⟩
          refine ⟨all, ?_, hholds⟩
          have hintact := outline.tree?_intact room (by rw [hvalue]; rfl)
          simp only [readMembers, hk, hfind, hintact, if_true]
          exact hall

/-- The fields that are found in an outline of an object. -/
theorem readFields_holds (fields : List Field) (room : Nat) (members : List (String × Json))
    (honce : ∀ f ∈ fields, (members.filter fun m => m.1 = f.name).length ≤ 1)
    (hadmits : ∀ f ∈ fields, f.Admits room (members.lookup f.name)) {o : Outline}
    (ho : o.tree? (room + 1) = some (.obj members)) :
    ∃ all, readFields fields (room + 1) o = .ok all ∧
      ∀ f ∈ fields, Fields.Holds ⟨room, all⟩ f.name (members.lookup f.name) := by
  rcases Outline.tree?_obj ho with ⟨inner, outlines, hroom, rfl, htrees⟩
  cases hroom
  exact readMembers_holds fields room members honce hadmits outlines [] members htrees
    fun f _ => .inr ⟨rfl, rfl⟩

theorem once_of_nodup {members : List (String × Json)} (h : (members.map (·.1)).Nodup)
    (name : String) : (members.filter fun m => m.1 = name).length ≤ 1 := by
  have hcount := List.nodup_iff_count_le_one.mp h name
  rwa [List.count, List.countP_map, List.countP_eq_length_filter] at hcount

/-! ### Entries -/

/-- Whether an entry is what is written for a field: a member with its name that can be read, or
    no member if it may be left out. -/
structure Field.Fits (room : Nat) (f : Field) (entry : Option (String × Json)) : Prop where
  named : ∀ m ∈ entry, m.1 = f.name
  admits : f.Admits room (entry.map (·.2))

/-- Whether a field was found as it was written. -/
def Fields.Finds (fs : Fields) (f : Field) (entry : Option (String × Json)) : Prop :=
  fs.Holds f.name (entry.map (·.2))

theorem field?_tree (key : String) (tree : Option Json) : (field? key tree).map (·.2) = tree := by
  cases tree <;> rfl

theorem required_fits (name : String) (h : Gives read room j a) :
    (Field.required name read).Fits room (field name j) := by
  refine ⟨fun m hm => ?_, required_admits name h⟩
  cases hm
  rfl

theorem optionally_fits (name : String) {absent : α} {tree : Option Json}
    (h : Brings read absent room tree a) :
    (Field.optionally name read).Fits room (field? name tree) := by
  refine ⟨fun m hm => ?_, ?_⟩
  · rcases Option.map_eq_some_iff.mp hm with ⟨value, -, rfl⟩
    rfl
  · rw [field?_tree]
    exact optionally_admits name h

theorem Fields.Finds.get {fs : Fields} {name : String}
    (h : fs.Finds (.required name read) (field name j)) (hgives : Gives read fs.room j a) :
    fs.get name read = .ok a :=
  Fields.Holds.get h hgives

theorem Fields.Finds.getD {fs : Fields} {name : String} {tree : Option Json} {absent : α}
    (h : fs.Finds (.optionally name read) (field? name tree))
    (hbrings : Brings read absent fs.room tree a) : fs.getD name read absent = .ok a := by
  rw [Fields.Finds, field?_tree] at h
  exact Fields.Holds.getD h hbrings

/-- The names of what is written are names of fields. -/
theorem entries_keys {fields : List Field} {entries : List (Option (String × Json))}
    (h : List.Forall₂ (Field.Fits room) fields entries) :
    ((entries.filterMap id).map (·.1)).Sublist (fields.map (·.name)) := by
  have hnamed : Named (fields.map (·.name)) entries :=
    List.forall₂_map_left_iff.mpr (h.imp fun _ _ hf => hf.named)
  exact hnamed.keys

/-- What is written for a field is found under its name, so that the field can be read there. -/
theorem lookup_entries {fields : List Field} {entries : List (Option (String × Json))}
    (h : List.Forall₂ (Field.Fits room) fields entries) (hnames : (fields.map (·.name)).Nodup) :
    List.Forall₂ (fun f entry => f.Admits room (entry.map (·.2)) ∧
      (entries.filterMap id).lookup f.name = entry.map (·.2)) fields entries := by
  induction h with
  | nil => exact .nil
  | @cons f entry fields entries hf hrest ih =>
      rw [List.map_cons, List.nodup_cons] at hnames
      -- What is written later goes by other names.
      have hfresh : (entries.filterMap id).lookup f.name = none := by
        rw [List.lookup_eq_none_iff]
        intro m hm
        refine bne_iff_ne.mpr fun heq => hnames.1 ((entries_keys hrest).subset ?_)
        rw [heq]
        exact List.mem_map.mpr ⟨m, hm, rfl⟩
      cases entry with
      | none => exact .cons ⟨hf.admits, hfresh⟩ (ih hnames.2)
      | some m =>
          have hname : m.1 = f.name := hf.named m rfl
          have hcons : (some m :: entries).filterMap id = m :: entries.filterMap id := rfl
          rw [hcons]
          refine .cons ⟨hf.admits, ?_⟩ ?_
          · rw [← hname, List.lookup_cons_self]
            rfl
          · have hlater : ∀ g ∈ fields, g.name ≠ m.1 := fun g hg heq =>
              hnames.1 (List.mem_map.mpr ⟨g, hg, heq.trans hname⟩)
            refine ((List.forall₂_and_left _ _).mpr ⟨hlater, ih hnames.2⟩).imp fun g other hg => ?_
            rw [List.lookup_cons, beq_false_of_ne hg.1]
            exact hg.2

/-- Some fields of a record, read from an outline of everything that is written. -/
theorem readFields_finds {fields : List Field} {entries : List (Option (String × Json))}
    (hfits : List.Forall₂ (Field.Fits room) fields entries)
    (hnames : (fields.map (·.name)).Nodup) {known : List Field} (hknown : known ⊆ fields)
    {o : Outline} (ho : o.tree? (room + 1) = some (.record entries)) :
    ∃ outlines, readFields known (room + 1) o = .ok outlines ∧
      List.Forall₂ (fun f entry => f ∈ known → Fields.Finds ⟨room, outlines⟩ f entry)
        fields entries := by
  have hlookup := lookup_entries hfits hnames
  -- Every entry belongs to its field, and so what is found under the name of a field can be read.
  have hadmits : ∀ f ∈ fields, f.Admits room ((entries.filterMap id).lookup f.name) :=
    ((List.forall₂_and_left _ _).mp (hlookup.imp fun f entry h => ⟨h.2 ▸ h.1, h⟩)).1
  have hkeys : ((entries.filterMap id).map (·.1)).Nodup := hnames.sublist (entries_keys hfits)
  rcases readFields_holds known room (entries.filterMap id) (fun f _ => once_of_nodup hkeys f.name)
    (fun f hf => hadmits f (hknown hf)) ho with ⟨all, hall, hholds⟩
  refine ⟨all, hall, hlookup.imp fun f entry hentry hf => ?_⟩
  rw [Fields.Finds, ← hentry.2]
  exact hholds f hf

/-- A record is given by its fields. -/
theorem gives_record {fields : List Field} {entries : List (Option (String × Json))}
    (hfits : List.Forall₂ (Field.Fits room) fields entries)
    (hnames : (fields.map (·.name)).Nodup) {build : Fields → Except Fault α}
    (hbuild : ∀ outlines, List.Forall₂ (Fields.Finds ⟨room, outlines⟩) fields entries →
      build ⟨room, outlines⟩ = .ok a) :
    Gives (readRecord fields build) (room + 1) (.record entries) a := by
  intro o ho
  rcases readFields_finds hfits hnames (List.Subset.refl fields) ho with ⟨all, hall, hfinds⟩
  simp only [readRecord, hall, bind, Except.bind]
  exact hbuild all
    (((List.forall₂_and_left _ _).mpr ⟨fun _ hf => hf, hfinds⟩).imp fun _ _ h => h.2 h.1)

/-! ### Records of texts -/

/-- Whether a field can be any text. -/
def Field.TakesTexts (f : Field) : Prop :=
  ∀ room s, f.Admits room (some (.str s))

theorem required_takesTexts (name : String) : (Field.required name readText).TakesTexts :=
  fun room s => required_admits name (gives_text room s)

theorem optionally_takesTexts (name : String) :
    (Field.optionally name (readNullable readText)).TakesTexts :=
  fun room s => optionally_admits name (brings_text room (some s))

theorem Fields.Holds.text {fs : Fields} {name s : String} (h : fs.Holds name (some (.str s))) :
    fs.get name readText = .ok s :=
  h.get (gives_text fs.room s)

theorem Fields.Holds.text? {fs : Fields} {name s : String} (h : fs.Holds name (some (.str s))) :
    fs.get? name readText = .ok (some s) :=
  h.getD (brings_text fs.room (some s))

/-- A whole text, read as a record of texts. -/
theorem ofText_texts (fields : List Field) (htakes : ∀ f ∈ fields, f.TakesTexts)
    (text : String → String) (build : Fields → Except Fault α) (a : α) (cs : List Char)
    (members : List (String × Json)) (hparse : parse? cs = some (.obj members))
    (honly : ∀ f ∈ fields, (Json.obj members).onlyText? f.name = some (text f.name))
    (hbuild : ∀ fs : Fields, (∀ f ∈ fields, fs.Holds f.name (some (.str (text f.name)))) →
      build fs = .ok a) :
    ofText (readRecord fields build) cs = .ok a := by
  -- Every field of the record is there once, and with its own text.
  have hfilter : ∀ f ∈ fields, (members.filter fun m => m.1 = f.name) =
      [(f.name, .str (text f.name))] := by
    intro f hf
    rcases only?_eq_some (onlyText?_eq_some (honly f hf)) with ⟨ms, hms, hfilter⟩
    rwa [Json.obj.inj hms]
  have hlookup : ∀ f ∈ fields, members.lookup f.name = some (.str (text f.name)) := by
    intro f hf
    rw [lookup_eq_filter, hfilter f hf]
    rfl
  -- Each field reads its member, so the record is the one built from these texts.
  unfold parse? at hparse
  split at hparse
  · next o ho =>
      rcases readFields_holds fields (depthLimit - 1) members
        (fun f hf => by rw [hfilter f hf]; exact Nat.le_refl 1)
        (fun f hf => by rw [hlookup f hf]; exact htakes f hf _ _) hparse with ⟨all, hall, hholds⟩
      have hbuilt := hbuild ⟨depthLimit - 1, all⟩ fun f hf => hlookup f hf ▸ hholds f hf
      have hfields : readFields fields depthLimit o = .ok all := hall
      simp only [ofText, ho, readRecord, hfields, bind, Except.bind, hbuilt, if_true]
  · cases hparse

end Json

end Switchboard

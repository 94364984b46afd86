import Switchboard.Json.Number

/-!
# JSON Values

JSON trees whose objects are lists of members. A record of the library is
written with its members in a fixed order; a free value is kept in canonical
form, with the members sorted by key and each key once.

## Main definitions

* `Json`: A JSON tree.
* `Json.insertMember`: Adding a member to a sorted list; a present key is overwritten.
* `Json.canonical`: The canonical form of a tree; of equal keys the last one counts.
* `Json.members?`, `Json.member?`: Looking into an object.
* `Json.record`: An object of the members that are present.

## Theorems

* `Json.canonical_leaf`: Trees without members are canonical.
-/

namespace Switchboard

/-- A JSON tree. -/
inductive Json where
  | null
  | bool (b : Bool)
  | num (n : Json.Number)
  | str (s : String)
  | arr (items : List Json)
  | obj (members : List (String × Json))

namespace Json

/-- Add a member to a list sorted by key, replacing the member with the same key. -/
def insertMember (key : String) (value : Json) : List (String × Json) → List (String × Json)
  | [] => [(key, value)]
  | (k, v) :: rest =>
    if key = k then (key, value) :: rest
    else if key < k then (key, value) :: (k, v) :: rest
    else (k, v) :: insertMember key value rest

/-- Members sorted by key, each key with the last of its values. -/
def sortMembers (members : List (String × Json)) : List (String × Json) :=
  members.foldl (fun sorted m => insertMember m.1 m.2 sorted) []

mutual

/-- The canonical form of a tree. -/
def canonical : Json → Json
  | .null => .null
  | .bool b => .bool b
  | .num n => .num n
  | .str s => .str s
  | .arr items => .arr (canonicalItems items)
  | .obj members => .obj (sortMembers (canonicalMembers members))

/-- The canonical forms of items. -/
def canonicalItems : List Json → List Json
  | [] => []
  | item :: rest => canonical item :: canonicalItems rest

/-- Members with the canonical forms of their values. -/
def canonicalMembers : List (String × Json) → List (String × Json)
  | [] => []
  | (key, value) :: rest => (key, canonical value) :: canonicalMembers rest

end

theorem canonical_leaf :
    canonical .null = .null ∧ (∀ b, canonical (.bool b) = .bool b) ∧
      (∀ n, canonical (.num n) = .num n) ∧ ∀ s, canonical (.str s) = .str s := by
  simp [canonical]

mutual

/-- Whether two trees are equal, member order included. -/
def same : Json → Json → Bool
  | .null, .null => true
  | .bool a, .bool b => a == b
  | .num a, .num b => a == b
  | .str a, .str b => a == b
  | .arr a, .arr b => sameItems a b
  | .obj a, .obj b => sameMembers a b
  | _, _ => false

/-- Whether two lists of items are equal. -/
def sameItems : List Json → List Json → Bool
  | [], [] => true
  | a :: as, b :: bs => same a b && sameItems as bs
  | _, _ => false

/-- Whether two lists of members are equal. -/
def sameMembers : List (String × Json) → List (String × Json) → Bool
  | [], [] => true
  | (k, a) :: as, (l, b) :: bs => k == l && same a b && sameMembers as bs
  | _, _ => false

end

instance : BEq Json := ⟨same⟩

/-- The members of an object. -/
def members? : Json → Option (List (String × Json))
  | .obj members => some members
  | _ => none

/-- The value of a member of an object. -/
def member? (j : Json) (key : String) : Option Json :=
  j.members?.bind fun members => members.lookup key

/-- The content of a string. -/
def string? : Json → Option String
  | .str s => some s
  | _ => none

/-- A JSON number from a natural number. -/
def ofNat (n : Nat) : Json :=
  .num (Number.ofNat n)

/-- The JSON number of an integer that fits 64 bits. -/
def ofInt : Int → Json
  | .ofNat n => ofNat n
  | .negSucc n => if h : n < Nat.pow 2 63 then .num (.below ⟨n, h⟩) else .null

/-- A string, or null if there is none. -/
def ofString? : Option String → Json
  | some s => .str s
  | none => .null

/-- An object of the members that are present, in the given order. -/
def record (members : List (Option (String × Json))) : Json :=
  .obj (members.filterMap id)

/-- A member that is always present. -/
def field (key : String) (value : Json) : Option (String × Json) :=
  some (key, value)

/-- A member that is present iff there is a value. -/
def field? (key : String) (value : Option Json) : Option (String × Json) :=
  value.map fun v => (key, v)

end Json

end Switchboard

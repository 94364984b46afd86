import Switchboard.Json.Reader

/-!
# Reading Records

Records read from the outline of a text, in the order in which the text is
written. Reading stops at the first fault. A text that stops being JSON is
malformed; a value of the wrong kind, a field that is missing and a field that
occurs twice are mismatches. Which of the two is met first is part of the
answer, so the walk never looks ahead.

A record is an object, whose members may come in any order and of which only
the known ones are looked at, or an array of the fields in their declared order
whose end may be left out as far as the fields there are optional.

## Main definitions

* `Json.Fault`: Why a record could not be read.
* `Json.Reads`: A reader of outlines.
* `Json.readText`, `Json.readFlag`, `Json.readWord`, `Json.readInteger`,
  `Json.readTree`, `Json.readNullable`, `Json.readList`, `Json.readName`: Readers of field values.
* `Json.Field`: A field of a record.
* `Json.readFields`: The outlines of a record's fields.
* `Json.readRecord`: A record built from the outlines of its fields.
* `Json.ofText`: A record read from a whole text.
-/

namespace Switchboard

namespace Json

/-- Why a record could not be read. -/
inductive Fault where
  /-- The text is not JSON from here on. -/
  | malformed
  /-- The text is not a record of the expected shape. -/
  | mismatch
  deriving DecidableEq

/-- A reader of outlines; the number says how many arrays and objects may be opened. -/
abbrev Reads (α : Type) := Nat → Outline → Except Fault α

/-- The fault of a value of the wrong kind. The text of a scalar is looked at first, and so it
    can turn out to be malformed. -/
def misfit : Outline → Fault
  | .broken => .malformed
  | .num n => if n.number?.isSome then .mismatch else .malformed
  | .str ps => if (decodePieces ps).isSome then .mismatch else .malformed
  | _ => .mismatch

/-- Reads a string. -/
def readText : Reads String
  | _, .str ps =>
    match decodeString ps with
    | some s => .ok s
    | none => .error .malformed
  | _, o => .error (misfit o)

/-- Reads a truth value. -/
def readFlag : Reads Bool
  | _, .bool b => .ok b
  | _, o => .error (misfit o)

/-- Reads a natural number below a bound. -/
def readWord (bound : Nat) : Reads Nat
  | _, .num n =>
    match n.number? with
    | none => .error .malformed
    | some v =>
      match v.word? with
      | some w => if w < bound then .ok w else .error .mismatch
      | none => .error .mismatch
  | _, o => .error (misfit o)

/-- Reads an integer of 64 bits with a sign. -/
def readInteger : Reads Int
  | _, .num n =>
    match n.number? with
    | none => .error .malformed
    | some v =>
      match v.integer? with
      | some i => .ok i
      | none => .error .mismatch
  | _, o => .error (misfit o)

/-- Reads any value, in canonical form. -/
def readTree : Reads Json
  | room, o =>
    match o.tree? room with
    | some j => .ok j.canonical
    | none => .error .malformed

/-- Reads a value that may be null. -/
def readNullable {α : Type} (read : Reads α) : Reads (Option α)
  | _, .null => .ok none
  | room, o => (read room o).map some

/-- Reads the items of an array, one after the other. -/
def readItems {α : Type} (read : Outline → Except Fault α) (closed : Bool) :
    List Outline → Except Fault (List α)
  | [] => if closed then .ok [] else .error .malformed
  | item :: rest => do
    let value ← read item
    let values ← readItems read closed rest
    .ok (value :: values)

/-- Reads an array. -/
def readList {α : Type} (read : Reads α) : Reads (List α)
  | 0, .arr _ _ => .error .malformed
  | room + 1, .arr items closed => readItems (read room) closed items
  | _, o => .error (misfit o)

/-- The value with a name, in a table of the names of an enumeration. -/
def named {α : Type} (names : List (String × α)) (s : String) : Except Fault α :=
  match names.lookup s with
  | some value => .ok value
  | none => .error .mismatch

/-- Whether a value stands for nothing: null does, and an empty object if that is allowed. -/
def isNothing (emptyObject : Bool) : Outline → Bool
  | .null => true
  | .obj [] true => emptyObject
  | _ => false

/-- Reads a name of an enumeration: a string, or an object whose only member has the name as
    its key and stands for nothing. -/
def readName {α : Type} (emptyObject : Bool) (names : List (String × α)) : Reads α
  | _, .str ps =>
    match decodeString ps with
    | some s => named names s
    | none => .error .malformed
  | 0, .obj _ _ => .error .malformed
  | _ + 1, .obj [(key, value)] closed =>
    match decodeString key with
    | none => .error .malformed
    | some s => do
      let name ← named names s
      if isNothing emptyObject value then
        if closed then .ok name else .error .malformed
      else .error (misfit value)
  | _, o => .error (misfit o)

/-- A field of a record. -/
structure Field where
  /-- The key of the field in an object. -/
  name : String
  /-- Whether a value of the field can be read. -/
  check : Nat → Outline → Except Fault Unit
  /-- Whether the field may be left out. -/
  optional : Bool

/-- A field that has to be there. -/
def Field.required {α : Type} (name : String) (read : Reads α) : Field :=
  ⟨name, fun room o => (read room o).map fun _ => (), false⟩

/-- A field that may be left out. -/
def Field.optionally {α : Type} (name : String) (read : Reads α) : Field :=
  ⟨name, fun room o => (read room o).map fun _ => (), true⟩

/-- Walks over the members of an object. `found` holds the fields met so far. -/
def readMembers (fields : List Field) (room : Nat) (closed : Bool) :
    (found : List (String × Outline)) → List (List Piece × Outline) →
      Except Fault (List (String × Outline))
  | found, [] =>
    if !closed then .error .malformed
    else if fields.all fun f => f.optional || (found.lookup f.name).isSome then .ok found
    else .error .mismatch
  | found, (key, value) :: rest =>
    match decodeString key with
    | none => .error .malformed
    | some name =>
      match fields.find? fun f => f.name == name with
      -- A member that is not known only has to follow the grammar.
      | none => if value.intact then readMembers fields room closed found rest
                else .error .malformed
      | some f =>
        if (found.lookup name).isSome then .error .mismatch
        else
          match f.check room value with
          | .error fault => .error fault
          | .ok () => readMembers fields room closed ((name, value) :: found) rest

/-- Walks over the items of an array of fields. -/
def readPositions (room : Nat) (closed : Bool) :
    (found : List (String × Outline)) → List Field → List Outline →
      Except Fault (List (String × Outline))
  | found, [], [] => if closed then .ok found else .error .malformed
  | _, [], _ :: _ => .error .malformed
  | found, fields, [] =>
    if !closed then .error .malformed
    else if fields.all (·.optional) then .ok found else .error .mismatch
  | found, f :: fields, item :: rest =>
    match f.check room item with
    | .error fault => .error fault
    | .ok () => readPositions room closed ((f.name, item) :: found) fields rest

/-- The outlines of the fields of a record that are present. Each of them can be read. -/
def readFields (fields : List Field) : Reads (List (String × Outline))
  | 0, .arr _ _ => .error .malformed
  | 0, .obj _ _ => .error .malformed
  | room + 1, .arr items closed => readPositions room closed [] fields items
  | room + 1, .obj members closed => readMembers fields room closed [] members
  | _, o => .error (misfit o)

/-- The fields of a record that are present, ready to be read one by one. -/
structure Fields where
  /-- How many arrays and objects a field may open. -/
  room : Nat
  /-- The outlines by name. -/
  outlines : List (String × Outline)

/-- Reads a field that is known to be present. -/
def Fields.get {α : Type} (fs : Fields) (name : String) (read : Reads α) : Except Fault α :=
  match fs.outlines.lookup name with
  | some o => read fs.room o
  | none => .error .mismatch

/-- Reads a field that may be absent, with the value it then has. -/
def Fields.getD {α : Type} (fs : Fields) (name : String) (read : Reads α) (absent : α) :
    Except Fault α :=
  match fs.outlines.lookup name with
  | some o => read fs.room o
  | none => .ok absent

/-- Reads a field that may be absent or null. -/
def Fields.get? {α : Type} (fs : Fields) (name : String) (read : Reads α) :
    Except Fault (Option α) :=
  fs.getD name (readNullable read) none

/-- Reads a record: first its fields in the order of the text, then the value they make. -/
def readRecord {α : Type} (fields : List Field) (build : Fields → Except Fault α) : Reads α
  | room, o => do
    let outlines ← readFields fields room o
    build ⟨room - 1, outlines⟩

/-- Reads a whole text. -/
def ofText {α : Type} (read : Reads α) (cs : List Char) : Except Fault α :=
  match Outline.ofChars cs with
  | (o, done) => do
    let value ← read depthLimit o
    if done then .ok value else .error .malformed

end Json

end Switchboard

import Switchboard.Json.Outline
import Switchboard.Json.Value

/-!
# Reading JSON

The tree that a text denotes. A text denotes a tree if it follows the grammar
to its end, every string in it is well formed, every number in it is in range
and arrays and objects are nested at most 127 deep.

## Main definitions

* `Json.depthLimit`: The number of arrays and objects that may be open at once.
* `Json.Outline.tree?`: The tree that an outline denotes.
* `Json.parse?`: The tree of a text, members as written.
* `Json.read?`: The canonical tree of a text.
* `Json.ofBytes`: The text of bytes that are meant to be UTF-8.
-/

namespace Switchboard

namespace Json

/-- How many arrays and objects may be open at once. -/
def depthLimit : Nat := 127

namespace Outline

mutual

/-- The tree that an outline denotes if at most `room` arrays and objects may be opened. -/
def tree? : (room : Nat) → Outline → Option Json
  | _, .null => some .null
  | _, .bool b => some (.bool b)
  | _, .num n => n.number?.map .num
  | _, .str ps => (decodeString ps).map .str
  | 0, .arr _ _ => none
  | room + 1, .arr items closed => if closed then (itemTrees? room items).map .arr else none
  | 0, .obj _ _ => none
  | room + 1, .obj members closed =>
    if closed then (memberTrees? room members).map .obj else none
  | _, .broken => none

/-- The trees of items. -/
def itemTrees? : (room : Nat) → List Outline → Option (List Json)
  | _, [] => some []
  | room, item :: rest =>
    (tree? room item).bind fun j => (itemTrees? room rest).map (j :: ·)

/-- The members of an object. -/
def memberTrees? : (room : Nat) → List (List Piece × Outline) → Option (List (String × Json))
  | _, [] => some []
  | room, (key, value) :: rest =>
    (decodeString key).bind fun k =>
      (tree? room value).bind fun j => (memberTrees? room rest).map ((k, j) :: ·)

end

end Outline

/-- The tree of a text, members in the order they are written and repeated keys kept. -/
def parse? (cs : List Char) : Option Json :=
  match Outline.ofChars cs with
  | (o, true) => o.tree? depthLimit
  | (_, false) => none

/-- The canonical tree of a text. -/
def read? (s : String) : Option Json :=
  (parse? s.toList).map canonical

/-- A character that no JSON text has anywhere. -/
def unreadable : Char := '\x00'

/-- What is read in place of a byte that belongs to no character: two units of which neither is
    half of a pair, whatever comes before. A string that holds them can be passed over, but it
    denotes nothing. -/
def strayUnits : List Char :=
  ['\\', 'u', 'D', 'C', '0', '0', '\\', 'u', 'D', 'C', '0', '0']

/-- The text of bytes that are meant to be UTF-8. Bytes that are not leave a text that cannot be
    read where they matter. -/
def ofBytes (bytes : ByteArray) : List Char :=
  go bytes.size 0 false
where
  /-- The characters from a position on. `escaped` says that a backslash right before it begins
      an escape, which a stray byte cannot be part of. -/
  go : (bound : Nat) → (i : Nat) → (escaped : Bool) → List Char
    | 0, _, _ => []
    | bound + 1, i, escaped =>
      if i < bytes.size then
        match ByteArray.utf8DecodeChar? bytes i with
        | some c => c :: go bound (i + c.utf8Size) (c == '\\' && !escaped)
        | none => (if escaped then [unreadable] else strayUnits) ++ go bound (i + 1) false
      else []

end Json

end Switchboard

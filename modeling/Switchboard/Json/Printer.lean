import Switchboard.Json.Quoted
import Switchboard.Json.Value

/-!
# Printed JSON

The compact text of a tree: no blanks, members in the order they are listed.

## Main definitions

* `Json.chars`: The text of a tree as characters.
* `Json.text`: The text of a tree.
-/

namespace Switchboard

namespace Json

mutual

/-- The text of a tree. -/
def chars : Json → List Char
  | .null => ['n', 'u', 'l', 'l']
  | .bool true => ['t', 'r', 'u', 'e']
  | .bool false => ['f', 'a', 'l', 's', 'e']
  | .num n => n.chars
  | .str s => quoteChars s
  | .arr [] => ['[', ']']
  | .arr (item :: rest) => '[' :: (chars item ++ tailChars rest)
  | .obj [] => ['\x7b', '\x7d']
  | .obj ((key, value) :: rest) =>
    '\x7b' :: (quoteChars key ++ ':' :: (chars value ++ memberTailChars rest))

/-- The text of the items after the first one, with the closing bracket. -/
def tailChars : List Json → List Char
  | [] => [']']
  | item :: rest => ',' :: (chars item ++ tailChars rest)

/-- The text of the members after the first one, with the closing brace. -/
def memberTailChars : List (String × Json) → List Char
  | [] => ['\x7d']
  | (key, value) :: rest =>
    ',' :: (quoteChars key ++ ':' :: (chars value ++ memberTailChars rest))

end

/-- The compact text of a tree. -/
def text (j : Json) : String :=
  String.ofList j.chars

end Json

end Switchboard

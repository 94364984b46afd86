import Switchboard.Json.Number
import Switchboard.Json.Quoted

/-!
# Outlines of JSON Texts

What the grammar of JSON says about a text, before any string or number in it
is given a value. Strings stay rows of pieces and numbers stay numerals.

An outline exists for every text. Where the text stops being JSON the outline
has a mark, and everything before the mark is there to be looked at, so that a
reader of records can tell a text that is broken from one that has the wrong
shape before it breaks.

## Main definitions

* `Json.Outline`: A text as far as it follows the grammar.
* `Json.scanNumeral`: The numeral at the start of a text.
* `Json.Outline.scan`, `Json.Outline.scanItems`, `Json.Outline.scanMembers`: The
  outline of a value, of items and of members, with the text after it.
* `Json.Outline.ofChars`: The outline of a whole text.
* `Json.Outline.intact`: An outline without a mark.
-/

namespace Switchboard

namespace Json

/-- The outline of a value. -/
inductive Outline where
  | null
  | bool (b : Bool)
  | num (n : Numeral)
  | str (ps : List Piece)
  /-- Items, and whether the closing bracket was reached. -/
  | arr (items : List Outline) (closed : Bool)
  /-- Members, and whether the closing brace was reached. -/
  | obj (members : List (List Piece × Outline)) (closed : Bool)
  /-- The text breaks here. -/
  | broken

/-- The four characters that may stand between the tokens of a JSON text. -/
def isSpace (c : Char) : Bool :=
  c == ' ' || c == '\n' || c == '\t' || c == '\r'

/-- A text without the spaces at its start. -/
def skipSpaces (cs : List Char) : List Char :=
  cs.dropWhile isSpace

/-- The text after a word, if it starts with the word. -/
def after? : (word : List Char) → List Char → Option (List Char)
  | [], cs => some cs
  | _ :: _, [] => none
  | w :: word, c :: cs => if w = c then after? word cs else none

/-- The digits at the start of a text, and the text after them. -/
def spanDigits (cs : List Char) : List Char × List Char :=
  cs.span Text.isAsciiDigit

/-- The digits after a point, if the text starts with a point; there has to be one. -/
def scanFraction (cs : List Char) : Option (List Char × List Char) :=
  match cs with
  | '.' :: rest =>
    let (digits, after) := spanDigits rest
    if digits.isEmpty then none else some (digits, after)
  | _ => some ([], cs)

/-- The digits of an exponent, of which there has to be one. -/
def scanExponentDigits (down : Bool) (cs : List Char) :
    Option (Option (Bool × List Char) × List Char) :=
  let (digits, after) := spanDigits cs
  if digits.isEmpty then none else some (some (down, digits), after)

/-- The exponent part, if the text starts with one. -/
def scanExponent (cs : List Char) : Option (Option (Bool × List Char) × List Char) :=
  match cs with
  | [] => some (none, [])
  | e :: rest =>
    if e = 'e' ∨ e = 'E' then
      match rest with
      | '-' :: rest' => scanExponentDigits true rest'
      | '+' :: rest' => scanExponentDigits false rest'
      | _ => scanExponentDigits false rest
    else some (none, cs)

/-- The numeral after its sign, and the text after it. A zero stands alone before the point. -/
def scanUnsigned (negative : Bool) (cs : List Char) : Option (Numeral × List Char) :=
  let (digits, after) := spanDigits cs
  match digits with
  | [] => none
  | d :: more =>
    if d = '0' && !more.isEmpty then none
    else
      (scanFraction after).bind fun (fraction, after) =>
        (scanExponent after).map fun (exponent, after) =>
          (⟨negative, digits, fraction, exponent⟩, after)

/-- The numeral at the start of a text, and the text after it. -/
def scanNumeral (cs : List Char) : Option (Numeral × List Char) :=
  match cs with
  | '-' :: rest => scanUnsigned true rest
  | _ => scanUnsigned false cs

namespace Outline

/-- The outline of a value that is neither an array nor an object. -/
def scanScalar (cs : List Char) : Outline × Option (List Char) :=
  match cs with
  | [] => (.broken, none)
  | c :: rest =>
    if c = '"' then
      match scanString rest with
      | some (ps, after) => (.str ps, some after)
      | none => (.broken, none)
    else if c = '-' || Text.isAsciiDigit c then
      match scanNumeral cs with
      | some (n, after) => (.num n, some after)
      | none => (.broken, none)
    else
      match after? ['n', 'u', 'l', 'l'] cs, after? ['t', 'r', 'u', 'e'] cs,
          after? ['f', 'a', 'l', 's', 'e'] cs with
      | some after, _, _ => (.null, some after)
      | _, some after, _ => (.bool true, some after)
      | _, _, some after => (.bool false, some after)
      | _, _, _ => (.broken, none)

mutual

/-- The outline of the value at the start of a text, and the text after it if the value is
    complete. The bound limits how many values are opened; the length of a text suffices. -/
def scan : (bound : Nat) → List Char → Outline × Option (List Char)
  | 0, _ => (.broken, none)
  | bound + 1, cs =>
    match skipSpaces cs with
    | '[' :: rest =>
      match skipSpaces rest with
      | ']' :: after => (.arr [] true, some after)
      | _ =>
        let (items, after) := scanItems bound rest
        (.arr items after.isSome, after)
    | '\x7b' :: rest =>
      match skipSpaces rest with
      | '\x7d' :: after => (.obj [] true, some after)
      | _ =>
        let (members, after) := scanMembers bound rest
        (.obj members after.isSome, after)
    | cs' => scanScalar cs'

/-- The outlines of the items of an array from the next one on. -/
def scanItems : (bound : Nat) → List Char → List Outline × Option (List Char)
  | 0, _ => ([], none)
  | bound + 1, cs =>
    match scan bound cs with
    | (item, none) => ([item], none)
    | (item, some rest) =>
      match skipSpaces rest with
      | ',' :: rest' =>
        let (items, after) := scanItems bound rest'
        (item :: items, after)
      | ']' :: after => ([item], some after)
      | _ => ([item], none)

/-- The outlines of the members of an object from the next one on. -/
def scanMembers : (bound : Nat) → List Char →
    List (List Piece × Outline) × Option (List Char)
  | 0, _ => ([], none)
  | bound + 1, cs =>
    match skipSpaces cs with
    | '"' :: rest =>
      match scanString rest with
      | none => ([], none)
      | some (key, rest) =>
        match skipSpaces rest with
        | ':' :: rest =>
          match scan bound rest with
          | (value, none) => ([(key, value)], none)
          | (value, some rest) =>
            match skipSpaces rest with
            | ',' :: rest' =>
              let (members, after) := scanMembers bound rest'
              ((key, value) :: members, after)
            | '\x7d' :: after => ([(key, value)], some after)
            | _ => ([(key, value)], none)
        | _ => ([(key, .broken)], none)
    | _ => ([], none)

end

/-- The outline of the value that a text starts with, and whether nothing but spaces
    follows it. -/
def ofChars (cs : List Char) : Outline × Bool :=
  match scan (2 * cs.length + 2) cs with
  | (o, some rest) => (o, (skipSpaces rest).isEmpty)
  | (o, none) => (o, false)

mutual

/-- Whether the text of a value follows the grammar to its end. -/
def intact : Outline → Bool
  | .broken => false
  | .arr items closed => closed && intactItems items
  | .obj members closed => closed && intactMembers members
  | _ => true

/-- Whether the texts of all items follow the grammar. -/
def intactItems : List Outline → Bool
  | [] => true
  | item :: rest => intact item && intactItems rest

/-- Whether the texts of all members follow the grammar. -/
def intactMembers : List (List Piece × Outline) → Bool
  | [] => true
  | (_, value) :: rest => intact value && intactMembers rest

end

end Outline

end Json

end Switchboard

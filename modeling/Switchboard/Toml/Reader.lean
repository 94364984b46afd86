import Switchboard.Toml.Quoted
import Switchboard.Toml.Scalar
import Switchboard.Toml.Section

/-!
# Reading TOML

From the characters of a document to its table. A document is read statement
by statement; every statement ends with its line. Values may span lines: arrays
and inline tables take blanks, line breaks and comments between their parts,
and a comma after the last one. Only a row of keys stays on one line, wherever
it stands.

Each reader gives what it read and the text after it. The bound that some of
them carry is larger than the text is long, so it never runs out.

## Main definitions

* `Toml.key?`, `Toml.path?`: A key, and a row of keys with points between them.
* `Toml.value?`: A value.
* `Toml.statements?`: The statements of a document.
* `Toml.read?`: The table that a document defines.
-/

namespace Switchboard

namespace Toml

/-- How many arrays and inline tables may be open at once, and how many keys a row may have. -/
def depthLimit : Nat := 80

/-- Whether a character is a blank within a line. -/
def isSpace (c : Char) : Bool :=
  c == ' ' || c == '\t'

/-- The text after the blanks at its start. -/
def skipSpaces (cs : List Char) : List Char :=
  cs.dropWhile isSpace

/-- The text from the end of a comment on. -/
def comment? : List Char → Option (List Char)
  | [] => some []
  | '\n' :: rest => some ('\n' :: rest)
  | '\r' :: '\n' :: rest => some ('\n' :: rest)
  | c :: rest => if isForbidden c then none else comment? rest

/-- The text after the end of the line, if nothing but blanks and a comment comes before. -/
def lineEnd? (cs : List Char) : Option (List Char) :=
  match skipSpaces cs with
  | [] => some []
  | '\n' :: rest => some rest
  | '\r' :: '\n' :: rest => some rest
  | '#' :: rest => (comment? rest).map afterBreak
  | _ => none

/-- The text after blanks, line breaks and comments. -/
def filler? : (bound : Nat) → List Char → Option (List Char)
  | 0, cs => some cs
  | bound + 1, cs =>
    match skipSpaces cs with
    | '\n' :: rest => filler? bound rest
    | '\r' :: '\n' :: rest => filler? bound rest
    | '#' :: rest => (comment? rest).bind (filler? bound)
    | rest => some rest

/-- Whether a character may stand in a key without quotation marks. -/
def isBare (c : Char) : Bool :=
  c.isAlphanum || c == '_' || c == '-'

/-- A single key. -/
def key? : List Char → Option (String × List Char)
  | '"' :: rest => (basic rest).map fun (k, after) => (String.ofList k, after)
  | '\x27' :: rest => (literal rest).map fun (k, after) => (String.ofList k, after)
  | cs =>
    let k := cs.takeWhile isBare
    if k.isEmpty then none else some (String.ofList k, cs.dropWhile isBare)

/-- A row of keys with points between them, the last one split off. `room` is the number of
    keys that it may have. -/
def path? : (room : Nat) → List Char → Option ((List String × String) × List Char)
  | 0, _ => none
  | room + 1, cs =>
    (key? (skipSpaces cs)).bind fun (k, after) =>
      match skipSpaces after with
      | '.' :: rest =>
        (path? room rest).map fun ((path, last), after) => ((k :: path, last), after)
      | rest => some (([], k), rest)

/-- Whether a character belongs to an unquoted word. -/
def isWord (c : Char) : Bool :=
  c.isAlphanum || c == '_' || c == '-' || c == '+' || c == '.' || c == ':'

/-- The length of the word at the start of a text. A date goes on after one space if a digit
    follows. -/
def wordLength (cs : List Char) : Nat :=
  let n := (cs.takeWhile isWord).length
  match cs.drop n with
  | ' ' :: c :: rest =>
    -- The space stands for the letter between date and time.
    if isDate (cs.take n) && Text.isAsciiDigit c then
      n + 1 + ((c :: rest).takeWhile isWord).length
    else n
  | _ => n

/-- An unquoted value. -/
def word? (cs : List Char) : Option (Toml × List Char) :=
  let n := wordLength cs
  (scalar? (cs.take n)).map fun v => (v, cs.drop n)

/-- A quoted string as a value. -/
def textValue (r : Option (List Char × List Char)) : Option (Toml × List Char) :=
  r.map fun (content, after) => (.text (String.ofList content), after)

mutual

/-- A value. `room` is the number of arrays and inline tables that may be opened. -/
def value? : (bound room : Nat) → List Char → Option (Toml × List Char)
  | 0, _, _ => none
  | bound + 1, room, cs =>
    match cs with
    | '"' :: '"' :: '"' :: rest => textValue (basicLines false (afterBreak rest))
    | '"' :: rest => textValue (basic rest)
    | '\x27' :: '\x27' :: '\x27' :: rest => textValue (literalLines (afterBreak rest))
    | '\x27' :: rest => textValue (literal rest)
    | '[' :: rest =>
      match room with
      | 0 => none
      | room + 1 => (items? bound room rest).map fun (vs, after) => (.list vs, after)
    | '\x7b' :: rest =>
      match room with
      | 0 => none
      | room + 1 =>
        (assignments? bound room rest).bind fun (ms, after) =>
          (inline? ms).map fun v => (v, after)
    | cs => word? cs

/-- The items of an array up to the closing bracket. -/
def items? : (bound room : Nat) → List Char → Option (List Toml × List Char)
  | 0, _, _ => none
  | bound + 1, room, cs =>
    (filler? cs.length cs).bind fun cs =>
      match cs with
      | ']' :: rest => some ([], rest)
      | cs =>
        (value? bound room cs).bind fun (v, after) =>
          (filler? after.length after).bind fun after =>
            match after with
            | ',' :: rest => (items? bound room rest).map fun (vs, after) => (v :: vs, after)
            | ']' :: rest => some ([v], rest)
            | _ => none

/-- The assignments of an inline table up to the closing brace. -/
def assignments? : (bound room : Nat) → List Char →
    Option (List (List String × String × Toml) × List Char)
  | 0, _, _ => none
  | bound + 1, room, cs =>
    (filler? cs.length cs).bind fun cs =>
      match cs with
      | '\x7d' :: rest => some ([], rest)
      | cs =>
        (path? depthLimit cs).bind fun ((path, key), after) =>
          (filler? after.length after).bind fun after =>
            match after with
            | '=' :: after =>
              (filler? after.length after).bind fun after =>
                (value? bound room after).bind fun (v, after) =>
                  (filler? after.length after).bind fun after =>
                    match after with
                    | ',' :: rest =>
                      (assignments? bound room rest).map fun (ms, after) =>
                        ((path, key, v) :: ms, after)
                    | '\x7d' :: rest => some ([(path, key, v)], rest)
                    | _ => none
            | _ => none

end

/-- A statement. -/
def statement? (cs : List Char) : Option (Statement × List Char) :=
  match cs with
  | '[' :: '[' :: rest =>
    (path? depthLimit rest).bind fun ((path, key), after) =>
      match after with
      | ']' :: ']' :: after => some (.element path key, after)
      | _ => none
  | '[' :: rest =>
    (path? depthLimit rest).bind fun ((path, key), after) =>
      match after with
      | ']' :: after => some (.header path key, after)
      | _ => none
  | cs =>
    (path? depthLimit cs).bind fun ((path, key), after) =>
      match after with
      | '=' :: after =>
        (value? (2 * after.length + 2) depthLimit (skipSpaces after)).map fun (v, after) =>
          (.assign path key v, after)
      | _ => none

/-- The statements of a document. -/
def statements? : (bound : Nat) → List Char → Option (List Statement)
  | 0, _ => some []
  | bound + 1, cs =>
    match lineEnd? cs with
    | some [] => some []
    | some rest => statements? bound rest
    | none =>
      (statement? (skipSpaces cs)).bind fun (s, after) =>
        (lineEnd? after).bind fun rest => (statements? bound rest).map (s :: ·)

/-- A document without the mark of its byte order. -/
def withoutMark : List Char → List Char
  | '\uFEFF' :: rest => rest
  | cs => cs

/-- The table that a document defines. -/
def read? (s : String) : Option (List (String × Toml)) :=
  let cs := withoutMark s.toList
  (statements? (cs.length + 1) cs).bind ofStatements?

end Toml

end Switchboard

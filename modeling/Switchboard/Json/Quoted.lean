import Switchboard.Text.Numeral

/-!
# Quoted Strings

The strings of JSON texts. A written string is a row of pieces: characters that
stand for themselves or for one short escape, and UTF-16 units written as `\u`
and four hexadecimal digits. Scanning only finds the pieces; whether the units
pair up is decided when the pieces are decoded, so a string whose content is of
no interest can be passed over.

Writing escapes the quotation mark, the backslash and the control characters
below U+0020, and nothing else.

## Main definitions

* `Json.Piece`: One element of a written string.
* `Json.scanString`: The pieces up to the closing quotation mark.
* `Json.decodePieces`: The characters that pieces denote.
* `Json.quoteChars`: A string between quotation marks.

## Theorems

* `Json.decodePieces_plain`: Characters that stand for themselves are decoded so.
-/

namespace Switchboard

namespace Json

/-- One element of a written string. -/
inductive Piece where
  /-- A character, written as itself or with a short escape. -/
  | plain (c : Char)
  /-- A UTF-16 unit, written in hexadecimal. -/
  | unit (u : Nat)
  deriving DecidableEq

/-- The value of four hexadecimal digits. -/
def hexUnit? (a b c d : Char) : Option Nat :=
  match Text.hexDigit? a, Text.hexDigit? b, Text.hexDigit? c, Text.hexDigit? d with
  | some a, some b, some c, some d => some (((a * 16 + b) * 16 + c) * 16 + d)
  | _, _, _, _ => none

/-- The character that a backslash and a letter stand for. -/
def shortEscape? (c : Char) : Option Char :=
  match c with
  | '"' => some '"'
  | '\\' => some '\\'
  | '/' => some '/'
  | 'b' => some '\x08'
  | 'f' => some '\x0c'
  | 'n' => some '\n'
  | 'r' => some '\r'
  | 't' => some '\t'
  | _ => none

/-- Whether a character may not stand in a written string as itself. -/
def isControl (c : Char) : Bool :=
  c.toNat < 0x20

/-- The pieces up to the closing quotation mark and the text after it. There are none if the
    string does not end, holds a control character or a backslash that starts no escape. -/
def scanString : List Char → Option (List Piece × List Char)
  | [] => none
  | '"' :: rest => some ([], rest)
  | '\\' :: 'u' :: a :: b :: c :: d :: rest =>
    (hexUnit? a b c d).bind fun u =>
      (scanString rest).map fun (ps, after) => (.unit u :: ps, after)
  | '\\' :: e :: rest =>
    (shortEscape? e).bind fun c =>
      (scanString rest).map fun (ps, after) => (.plain c :: ps, after)
  | c :: rest =>
    if isControl c then none
    else (scanString rest).map fun (ps, after) => (.plain c :: ps, after)

/-- Whether a unit is the first of a pair. -/
def isHighUnit (u : Nat) : Bool :=
  0xD800 ≤ u && u < 0xDC00

/-- Whether a unit is the second of a pair. -/
def isLowUnit (u : Nat) : Bool :=
  0xDC00 ≤ u && u < 0xE000

/-- The characters that pieces denote; units of a pair have to stand together. -/
def decodePieces : List Piece → Option (List Char)
  | [] => some []
  | .plain c :: rest => (decodePieces rest).map (c :: ·)
  | .unit u :: rest =>
    if isLowUnit u then none
    else if isHighUnit u then
      match rest with
      | .unit v :: rest' =>
        if isLowUnit v then
          (decodePieces rest').map
            (Char.ofNat (0x10000 + (u - 0xD800) * 0x400 + (v - 0xDC00)) :: ·)
        else none
      | _ => none
    else (decodePieces rest).map (Char.ofNat u :: ·)

theorem decodePieces_plain (cs : List Char) : decodePieces (cs.map .plain) = some cs := by
  induction cs with
  | nil => rfl
  | cons c rest ih => simp [decodePieces, ih]

/-- The string that pieces denote. -/
def decodeString (ps : List Piece) : Option String :=
  (decodePieces ps).map String.ofList

/-- A hexadecimal digit in lower case. -/
def hexChar (n : Nat) : Char :=
  if n < 10 then Char.ofNat (0x30 + n) else Char.ofNat (0x57 + n)

/-- A character as it is written in a string. -/
def escapeChar (c : Char) : List Char :=
  match c with
  | '"' => ['\\', '"']
  | '\\' => ['\\', '\\']
  | '\x08' => ['\\', 'b']
  | '\t' => ['\\', 't']
  | '\n' => ['\\', 'n']
  | '\x0c' => ['\\', 'f']
  | '\r' => ['\\', 'r']
  | c =>
    if isControl c then ['\\', 'u', '0', '0', hexChar (c.toNat / 16), hexChar (c.toNat % 16)]
    else [c]

/-- A string between quotation marks. -/
def quoteChars (s : String) : List Char :=
  '"' :: (s.toList.flatMap escapeChar ++ ['"'])

end Json

end Switchboard

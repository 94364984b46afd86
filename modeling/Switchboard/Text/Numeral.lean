import Switchboard.Text.Digit

/-!
# Numerals

Reading and writing natural numbers in base ten, digits `0` to `9` only, and
reading characters that are given by their codes in hexadecimal digits.

Reading a number has two forms. `numeral?` takes a non-empty row of digits and nothing
else. `word?` is what settings, limits and versions use: one leading plus sign
is allowed, leading zeros are, and the value has to be below a given bound.

## Main definitions

* `Text.digitsValue`: The value of a row of digits, read from a start value.
* `Text.numeral?`: The value of a text made of digits.
* `Text.word?`: The value of a numeral below a bound, with an optional plus sign.
* `Text.numeralChars`: The digits of a number, without leading zeros.
* `Text.codeChar?`: The character with a code.

## Theorems

* `Text.word?_lt`: A value that is read is below the bound.
-/

namespace Switchboard

namespace Text

/-- The value of a row of digits that follows digits of value `start`. -/
def digitsValue (start : Nat) : List Char → Nat
  | [] => start
  | c :: rest => digitsValue (start * 10 + (c.toNat - 0x30)) rest

/-- The value of a text that consists of one or more digits. -/
def numeral? (cs : List Char) : Option Nat :=
  if !cs.isEmpty && cs.all isAsciiDigit then some (digitsValue 0 cs) else none

/-- The value of a numeral that is below `bound`; one plus sign may stand before it. -/
def word? (bound : Nat) (s : String) : Option Nat :=
  let digits := match s.toList with
    | '+' :: rest => rest
    | cs => cs
  (numeral? digits).filter fun n => decide (n < bound)

theorem word?_lt {bound n : Nat} {s : String} (h : word? bound s = some n) : n < bound := by
  simp only [word?, Option.filter_eq_some_iff, decide_eq_true_eq] at h
  exact h.2

/-- The digits of a number in base ten, the most significant first. -/
def numeralChars (n : Nat) : List Char :=
  Nat.toDigits 10 n

/-- The character whose code is written in hexadecimal digits. -/
def codeChar? (ds : List Char) : Option Char :=
  match ds.foldl (fun n d => n.bind fun n => (hexDigit? d).map (n * 16 + ·)) (some 0) with
  | some n => if n.isValidChar then some (Char.ofNat n) else none
  | none => none

end Text

end Switchboard

import Switchboard.Timestamp
import Switchboard.Toml.Value

/-!
# Unquoted TOML Scalars

Truth values, integers, floating point numbers, dates and times. Which of them
an unquoted word is follows from its spelling alone.

Digits may be grouped with underscores, each of them between two digits. A
decimal integer has no superfluous zeros in front; an integer with a radix has
no sign. Integers reach from `-2^127` to `2^128 - 1`, and a floating point
number beyond the finite range is refused.

## Main definitions

* `Toml.ungrouped?`: Digits without the underscores between them.
* `Toml.integer?`, `Toml.real?`: The numbers.
* `Toml.isMoment`: Whether a word is a date, a time or both.
* `Toml.scalar?`: The value of a word.

## Theorems

* `Toml.ungrouped?_digits`: Digits without underscores are their own digits.
-/

namespace Switchboard

namespace Toml

/-- The digits of a row in which single underscores stand between digits. `afterDigit` says
    whether a digit stands right before. -/
def ungrouped? (isDigit : Char → Bool) : (afterDigit : Bool) → List Char → Option (List Char)
  | afterDigit, [] => if afterDigit then some [] else none
  | afterDigit, c :: rest =>
    if isDigit c then (ungrouped? isDigit true rest).map (c :: ·)
    else if c = '_' && afterDigit then ungrouped? isDigit false rest
    else none

theorem ungrouped?_digits (isDigit : Char → Bool) (cs : List Char) (h : cs.all isDigit = true)
    (b : Bool) (hb : b = true ∨ cs ≠ []) : ungrouped? isDigit b cs = some cs := by
  induction cs generalizing b with
  | nil => simp_all [ungrouped?]
  | cons c rest ih =>
      simp only [List.all_cons, Bool.and_eq_true] at h
      simp [ungrouped?, h.1, ih h.2 true (Or.inl rfl)]

/-- The digits of a decimal number, without superfluous zeros in front. -/
def decimalDigits? (cs : List Char) : Option (List Char) :=
  (ungrouped? Text.isAsciiDigit false cs).filter fun ds => ds.head? != some '0' || ds.length == 1

/-- The value of digits in a radix. -/
def radixValue (radix : Nat) (ds : List Char) : Nat :=
  ds.foldl (fun n d => n * radix + (Text.hexDigit? d).getD 0) 0

/-- Whether a character is a digit in a radix up to sixteen. -/
def isRadixDigit (radix : Nat) (c : Char) : Bool :=
  match Text.hexDigit? c with
  | some d => d < radix
  | none => false

/-- A word without the sign in front, and whether the sign is a minus. -/
def unsigned : List Char → Bool × List Char
  | '-' :: rest => (true, rest)
  | '+' :: rest => (false, rest)
  | cs => (false, cs)

/-- An integer if it is in the range of integers. -/
def inRange? (n : Int) : Option Int :=
  if -Int.pow 2 127 ≤ n && n < Int.pow 2 128 then some n else none

/-- The integer with digits in a radix. -/
def radixInteger? (radix : Nat) (cs : List Char) : Option Int :=
  (ungrouped? (isRadixDigit radix) false cs).bind fun ds => inRange? (radixValue radix ds)

/-- The integer that a word denotes. -/
def integer? : List Char → Option Int
  | '0' :: 'x' :: cs => radixInteger? 16 cs
  | '0' :: 'o' :: cs => radixInteger? 8 cs
  | '0' :: 'b' :: cs => radixInteger? 2 cs
  | cs =>
    let (negative, digits) := unsigned cs
    (decimalDigits? digits).bind fun ds =>
      let n : Int := radixValue 10 ds
      inRange? (if negative then -n else n)

/-- The number `n * 10 ^ e` with a sign. A power of ten far outside the finite range is not
    worked out. -/
def powerOfTen? (negative : Bool) (n : Nat) (e : Int) (digits : Nat) : Option Binary64 :=
  if n = 0 then some (.zero negative)
  else if 400 < e then none
  else if e < -(400 + (digits : Int)) then some (.zero negative)
  else if e < 0 then Binary64.nearest? negative (n * Binary64.unitsInOne) (Nat.pow 10 e.natAbs)
  else Binary64.nearest? negative (n * Nat.pow 10 e.natAbs * Binary64.unitsInOne) 1

/-- The digits after a point, if there is a point. -/
def fraction? (cs : List Char) : Option (List Char × List Char) :=
  match cs.span (· != '.') with
  | (whole, []) => (decimalDigits? whole).map fun ds => (ds, [])
  | (whole, _ :: after) =>
    (decimalDigits? whole).bind fun ds =>
      (ungrouped? Text.isAsciiDigit false after).map fun fs => (ds, fs)

/-- The value of an exponent with an optional sign. -/
def exponent? (cs : List Char) : Option Int :=
  let (negative, digits) := unsigned cs
  (ungrouped? Text.isAsciiDigit false digits).map fun ds =>
    let n : Int := radixValue 10 ds
    if negative then -n else n

/-- Whether a character introduces an exponent. -/
def isExponentMark (c : Char) : Bool :=
  c == 'e' || c == 'E'

/-- The floating point number that a word with a point or an exponent denotes. -/
def real? (cs : List Char) : Option (Option Binary64) :=
  let (negative, magnitude) := unsigned cs
  if magnitude == ['i', 'n', 'f'] || magnitude == ['n', 'a', 'n'] then some none
  else
    let (mantissa, tail) := magnitude.span fun c => !isExponentMark c
    if tail.isEmpty && !mantissa.contains '.' then none
    else
      (fraction? mantissa).bind fun (whole, fraction) =>
        (if tail.isEmpty then some 0 else exponent? (tail.drop 1)).bind fun e =>
          let ds := whole ++ fraction
          (powerOfTen? negative (radixValue 10 ds) (e - fraction.length) ds.length).map some

/-- The value of a row of exactly `n` digits, at most `largest`. -/
def field? (n largest : Nat) (cs : List Char) : Option Nat :=
  if cs.length = n then (Text.numeral? cs).filter (· ≤ largest) else none

/-- Whether a word is a date. -/
def isDate (cs : List Char) : Bool :=
  match field? 4 9999 (cs.take 4), (cs.drop 4).take 1, field? 2 12 ((cs.drop 5).take 2),
      (cs.drop 7).take 1, field? 2 31 (cs.drop 8) with
  | some year, ['-'], some month, ['-'], some day =>
    1 ≤ month && 1 ≤ day && day ≤ Timestamp.daysInMonth year month
  | _, _, _, _, _ => false

/-- Whether a word is what may follow the minutes of a time. -/
def isSeconds (cs : List Char) : Bool :=
  match cs with
  | [] => true
  | ':' :: rest =>
    (field? 2 60 (rest.take 2)).isSome &&
      match rest.drop 2 with
      | [] => true
      | '.' :: digits => (Text.numeral? digits).isSome
      | _ => false
  | _ => false

/-- Whether a word is a time of day. -/
def isTime (cs : List Char) : Bool :=
  (field? 2 23 (cs.take 2)).isSome && (cs.drop 2).take 1 == [':'] &&
    (field? 2 59 ((cs.drop 3).take 2)).isSome && isSeconds (cs.drop 5)

/-- Whether a word is an offset with a sign. -/
def isOffset (cs : List Char) : Bool :=
  match cs with
  | sign :: rest =>
    (sign == '+' || sign == '-') && (field? 2 23 (rest.take 2)).isSome &&
      (rest.drop 2).take 1 == [':'] && (field? 2 59 (rest.drop 3)).isSome
  | [] => false

/-- A time without the offset at its end, if it has one. -/
def withoutOffset (cs : List Char) : List Char :=
  match cs.getLast? with
  | some 'Z' | some 'z' => cs.dropLast
  | _ =>
    let cut := cs.length - 6
    if isOffset (cs.drop cut) then cs.take cut else cs

/-- Whether a word is a date, a time of day, or a date and a time with or without offset. -/
def isMoment (cs : List Char) : Bool :=
  isDate cs || isTime cs ||
    (isDate (cs.take 10) && ((cs.drop 10).take 1).all (fun c => c == 'T' || c == 't' || c == ' ') &&
      isTime (withoutOffset (cs.drop 11)))

/-- The value of an unquoted word. -/
def scalar? (cs : List Char) : Option Toml :=
  if cs == ['t', 'r', 'u', 'e'] then some (.flag true)
  else if cs == ['f', 'a', 'l', 's', 'e'] then some (.flag false)
  else
    match integer? cs with
    | some n => some (.integer n)
    | none =>
      match real? cs with
      | some x => some (.real x)
      | none => if isMoment cs then some (.moment (String.ofList cs)) else none

end Toml

end Switchboard

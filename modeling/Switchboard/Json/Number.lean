import Switchboard.Binary64.Text

/-!
# JSON Numbers

A JSON number is a 64 bit word, a negative integer that fits 64 bits, or a
binary64 number. A numeral is the written form, split where the grammar splits
it; reading it decides which of the three it denotes.

Integers that fit stay integers. Everything else is read in two rounded steps:
as many leading digits as fit a word make the significand, further digits only
shift the exponent, and the rounded significand is then multiplied or divided
by a rounded power of ten. The result can be a neighbour of the nearest number,
and a numeral beyond the finite range has no value. The numeral `-0` is the
floating point zero with a sign.

## Main definitions

* `Json.Number`: The three kinds of number.
* `Json.Numeral`: The written form of a number.
* `Json.Numeral.number?`: The number that a numeral denotes.
* `Json.Number.chars`: The written form of a number.
* `Json.Number.word?`: The value of a number that is a natural number in a word.
* `Json.Number.count?`: The value of a number that counts something: a word, or a
  floating point number without sign and fraction, cut off at the largest word.

## Theorems

* `Json.leading_fits`: The significand that is read fits a word.
-/

namespace Switchboard

namespace Json

/-- A JSON number. -/
inductive Number where
  /-- A natural number that fits a word. -/
  | whole (n : UInt64)
  /-- The integer `-(n + 1)`. -/
  | below (n : Fin (Nat.pow 2 63))
  /-- Any other number, rounded. -/
  | double (x : Binary64)
  deriving DecidableEq

/-- A number as it is written: sign, digits, digits after the point and exponent part. -/
structure Numeral where
  /-- Whether a minus sign stands first. -/
  negative : Bool
  /-- The digits before the point; there is at least one. -/
  whole : List Char
  /-- The digits after the point; none if there is no point. -/
  fraction : List Char
  /-- Whether the exponent is negative, and its digits. -/
  exponent : Option (Bool × List Char)
  deriving DecidableEq

/-- The number of values of a word. -/
def wordBound : Nat := Nat.pow 2 64

/-- The longest row of leading digits whose value, after digits of value `start`, fits a
    word: the value and the digits left over. -/
def leading (start : Nat) : List Char → Nat × List Char
  | [] => (start, [])
  | c :: rest =>
    let v := start * 10 + (c.toNat - 0x30)
    if v < wordBound then leading v rest else (start, c :: rest)

theorem leading_fits (cs : List Char) :
    ∀ start, start < wordBound → (leading start cs).1 < wordBound := by
  induction cs with
  | nil => intro start h; exact h
  | cons c rest ih =>
      intro start h
      rw [leading]
      split
      · next hv => exact ih _ hv
      · exact h

/-- The largest exponent of a power of ten in the finite range. -/
def largestPower : Nat := 308

/-- The significand scaled by a power of ten. An exponent below the range of powers is
    worked off in steps of the largest power; two of them leave nothing of a word. -/
def scaled : (steps : Nat) → Binary64 → Int → Option Binary64
  | 0, _, _ => some (Binary64.zero false)
  | steps + 1, x, e =>
    if e.natAbs ≤ largestPower then
      (Binary64.ofNat? (Nat.pow 10 e.natAbs)).bind fun p => if e < 0 then x.over? p else x.times? p
    else if x.isZero then some x
    else if 0 < e then none
    else
      (Binary64.ofNat? (Nat.pow 10 largestPower)).bind fun p =>
        (x.over? p).bind fun y => scaled steps y (e + largestPower)

/-- The floating point number `significand * 10 ^ e`, with a sign. -/
def double? (negative : Bool) (significand : Nat) (e : Int) : Option Number :=
  (Binary64.ofNat? significand).bind fun x =>
    (scaled 3 x e).map fun y => .double (if negative then y.negate else y)

/-- An integer that is written without point, exponent and superfluous digits. -/
def integer? (negative : Bool) (n : Nat) : Option Number :=
  if negative then
    if n = 0 then some (.double (Binary64.zero true))
    else if h : n - 1 < Nat.pow 2 63 then some (.below ⟨n - 1, h⟩)
    else double? true n 0
  else some (.whole (UInt64.ofNat n))

/-- The largest exponent that is added up; a longer one decides by its sign alone. -/
def exponentBound : Nat := Nat.pow 2 31

/-- The number that a numeral denotes, or `none` beyond the finite range. -/
def Numeral.number? (m : Numeral) : Option Number :=
  let (high, shifted) := leading 0 m.whole
  if m.fraction.isEmpty && m.exponent.isNone && shifted.isEmpty then integer? m.negative high
  else
    -- Digits that do not fit are dropped; before the point they still shift the exponent.
    let (significand, ignored) := leading high m.fraction
    let start : Int := (shifted.length : Int) - ((m.fraction.length : Int) - ignored.length)
    match m.exponent with
    | none => double? m.negative significand start
    | some (down, digits) =>
      let e := Text.digitsValue 0 digits
      if e < exponentBound then
        double? m.negative significand (if down then start - e else start + e)
      else if significand = 0 || down then some (.double (Binary64.zero m.negative))
      else none

/-- The written form of a number. -/
def Number.chars : Number → List Char
  | .whole n => Text.numeralChars n.toNat
  | .below n => '-' :: Text.numeralChars (n.val + 1)
  | .double x => x.chars

/-- The written form of a number, as a string. -/
def Number.text (n : Number) : String :=
  String.ofList n.chars

/-- The number for a natural number that fits a word. -/
def Number.ofNat (n : Nat) : Number :=
  .whole (UInt64.ofNat n)

/-- The value of a number that is written as a natural number and fits a word. -/
def Number.word? : Number → Option Nat
  | .whole n => some n.toNat
  | _ => none

/-- The value of an integer that fits 64 bits with a sign. -/
def Number.integer? : Number → Option Int
  | .whole n => if n.toNat < Nat.pow 2 63 then some n.toNat else none
  | .below n => some (-((n.val : Int) + 1))
  | .double _ => none

/-- A whole number that is not negative, cut off at the largest word. -/
def cutOff? : Option Int → Option Nat
  | some (.ofNat n) => some (min n (wordBound - 1))
  | _ => none

/-- The value of a number that counts something. A floating point number has to be whole
    and not negative, where the zero with a sign is not negative; above the range of words
    it counts as the largest word. -/
def Number.count? : Number → Option Nat
  | .whole n => some n.toNat
  | .below _ => none
  | .double x => cutOff? x.integer?

end Json

end Switchboard

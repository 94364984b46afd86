import Switchboard.Binary64.Text

/-!
# Floating Point Numbers with Infinities

Everything that a text can denote as a floating point number: the finite
numbers of the format binary64, the two infinities, and what is not a number.

A numeral is a row of digits with a point anywhere in it or none, a sign before
it and an exponent part after it, both optional. It denotes the finite number
nearest to it, exactly rounded, and an infinity if it lies beyond all of them.

## Main definitions

* `Binary64.Extended`: A floating point number in the wider sense.
* `Binary64.nearestDecimal`: The nearest number to digits times a power of ten.
* `Binary64.Extended.ofChars?`: The number that a text denotes.
* `Binary64.Extended.chars`: The positional form of a number.
* `Binary64.Extended.rank`: The place of a number in the order by value.

## Theorems

* `Binary64.Extended.rank_zero`: The zeros of both signs have one place in the order.
-/

namespace Switchboard

namespace Binary64

/-- A floating point number in the wider sense. -/
inductive Extended where
  | finite (x : Binary64)
  | infinite (negative : Bool)
  /-- Not a number. -/
  | undefined
  deriving DecidableEq

/-- Powers of ten with larger exponents are beyond the finite range, and with the opposite
    exponents they are rounded to zero. -/
def exponentLimit : Int := 400

/-- The number nearest to `digits * 10 ^ e`, with a sign. -/
def nearestDecimal (negative : Bool) (digits : Nat) (e : Int) : Extended :=
  -- The exponent of the power of ten above the number.
  let above := (digitCount digits : Int) + e
  if digits = 0 || above < -exponentLimit then .finite (zero negative)
  else if exponentLimit < above then .infinite negative
  else
    match nearest? negative (digits * Nat.pow 10 e.toNat * unitsInOne) (Nat.pow 10 (-e).toNat) with
    | some x => .finite x
    | none => .infinite negative

namespace Extended

/-- Whether a text has a minus sign, and the text without its sign. -/
def splitSign : List Char → Bool × List Char
  | '-' :: rest => (true, rest)
  | '+' :: rest => (false, rest)
  | cs => (false, cs)

/-- The digits before and after the point at the start of a text, and the text after them. There
    is a digit on one side at least. -/
def splitDigits? (cs : List Char) : Option (List Char × List Char × List Char) :=
  let (whole, rest) := cs.span Text.isAsciiDigit
  let (fraction, rest) := match rest with
    | '.' :: more => more.span Text.isAsciiDigit
    | _ => ([], rest)
  if whole.isEmpty && fraction.isEmpty then none else some (whole, fraction, rest)

/-- The exponent that a text denotes; nothing denotes zero. -/
def exponent? : List Char → Option Int
  | [] => some 0
  | e :: rest =>
    if e = 'e' || e = 'E' then
      let (negative, digits) := splitSign rest
      (Text.numeral? digits).map fun n => if negative then -(n : Int) else n
    else none

/-- The number that a word in any case denotes. -/
def named? (negative : Bool) (cs : List Char) : Option Extended :=
  let word := String.ofList (cs.map Char.toLower)
  if word = "inf" || word = "infinity" then some (.infinite negative)
  else if word = "nan" then some .undefined
  else none

/-- The number that a text denotes. -/
def ofChars? (cs : List Char) : Option Extended :=
  let (negative, cs) := splitSign cs
  match splitDigits? cs with
  | some (whole, fraction, rest) =>
    (exponent? rest).map fun e =>
      nearestDecimal negative (Text.digitsValue 0 (whole ++ fraction)) (e - fraction.length)
  | none => named? negative cs

/-- The positional form of a number. -/
def chars : Extended → List Char
  | .finite x => x.positionalChars
  | .infinite negative => if negative then ['-', 'i', 'n', 'f'] else ['i', 'n', 'f']
  | .undefined => ['N', 'a', 'N']

/-- The place of a number in the order by value; what is not a number comes last. -/
def rank : Extended → Int
  | .finite x => if x.negative then -(x.code : Int) else x.code
  | .infinite negative => if negative then -(codeBound : Int) else codeBound
  | .undefined => codeBound + 1

theorem rank_zero (a b : Bool) : (Extended.finite (zero a)).rank = (finite (zero b)).rank := by
  cases a <;> cases b <;> rfl

end Extended

end Binary64

end Switchboard

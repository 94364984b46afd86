import Switchboard.Binary64.Shortest

/-!
# Written Floating Point Numbers

How a binary64 number is written: the shortest digits that denote it, in one of
two forms. The compact form has plain notation while the exponent of the first
digit is between -5 and 15 and an exponent part outside that range; plain
notation then has a digit after the point, and an exponent part has a sign. The
positional form has no exponent part, however long it gets, and a point only
where digits follow it.

## Main definitions

* `Binary64.aroundPoint`: The digits of a decimal before and after the point.
* `Binary64.plain`, `Binary64.scientific`: The two notations of the compact form.
* `Binary64.chars`: The compact form of a number.
* `Binary64.positionalChars`: The positional form of a number.
-/

namespace Switchboard

namespace Binary64

/-- The exponents that plain notation covers. -/
def isPlainExponent (e : Int) : Bool :=
  -5 ≤ e && e ≤ 15

/-- The digits before and after the point of a decimal whose first digit has the exponent `e`,
    with zeros filling up. -/
def aroundPoint (digits : List Char) (e : Int) : List Char × List Char :=
  if e < 0 then (['0'], List.replicate ((-e).toNat - 1) '0' ++ digits)
  else
    let count := e.toNat + 1
    (digits.take count ++ List.replicate (count - digits.length) '0', digits.drop count)

/-- Plain notation: the point has at least one digit on either side of it. -/
def plain (digits : List Char) (e : Int) : List Char :=
  let (whole, fraction) := aroundPoint digits e
  whole ++ '.' :: (if fraction.isEmpty then ['0'] else fraction)

/-- Scientific notation: one digit before the point, no point after a single digit. -/
def scientific (digits : List Char) (e : Int) : List Char :=
  let mantissa := match digits with
    | [] => []
    | d :: rest => if rest.isEmpty then [d] else d :: '.' :: rest
  mantissa ++ 'e' :: (if e < 0 then '-' else '+') :: Text.numeralChars e.natAbs

/-- The digits of a decimal after the zeros at its end are dropped. -/
def significant (digits : List Char) : List Char :=
  (digits.reverse.dropWhile (· == '0')).reverse

/-- The compact form of a number. -/
def chars (x : Binary64) : List Char :=
  let body :=
    if x.isZero then ['0', '.', '0']
    else
      let d := shortest x.code
      let digits := significant (Text.numeralChars d.digits)
      if isPlainExponent d.exponent then plain digits d.exponent else scientific digits d.exponent
  if x.negative then '-' :: body else body

/-- Positional notation: there is no point unless digits follow it. -/
def positional (digits : List Char) (e : Int) : List Char :=
  let (whole, fraction) := aroundPoint digits e
  if fraction.isEmpty then whole else whole ++ '.' :: fraction

/-- The positional form of a number. -/
def positionalChars (x : Binary64) : List Char :=
  let body :=
    if x.isZero then ['0']
    else
      let d := shortest x.code
      positional (significant (Text.numeralChars d.digits)) d.exponent
  if x.negative then '-' :: body else body

end Binary64

end Switchboard

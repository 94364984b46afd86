import Switchboard.Binary64.Basic
import Switchboard.Text.Numeral

/-!
# Shortest Decimal Digits

The decimal with the fewest digits that still denotes a given binary64 number.

A decimal denotes a number if it lies in the interval of reals that round to
it: from half way to the lower neighbour to half way to the upper one, the ends
included iff the code is even. For one digit, two digits and so on up to
seventeen the two multiples of the power of ten next to the number are tested
against that interval; the first length with a hit wins, and of two hits the
nearer one, an exact tie going to the even digit.

All comparisons are between natural numbers, the decimals scaled by a fixed
power of ten that makes the smallest unit larger than one.

## Main definitions

* `Binary64.Decimal`: Digits and the exponent of the first digit.
* `Binary64.denotes`: Whether a scaled decimal rounds to the number of a code.
* `Binary64.shortest`: The shortest decimal of a code that is not zero.

## Theorems

* `Binary64.firstHit_spec`: What the search returns denotes the number, or the
  search was exhausted.
-/

namespace Switchboard

namespace Binary64

/-- A positive decimal `d.ddd * 10 ^ exponent`, given by its digits and exponent. -/
structure Decimal where
  /-- The digits `d ddd` as one natural number. -/
  digits : Nat
  /-- The exponent of the first digit. -/
  exponent : Int
  deriving DecidableEq

/-- The number of digits after the point that scaled decimals have. -/
def decimalScale : Nat := 400

/-- Whether the decimal `v / 10 ^ decimalScale` rounds to the number with this code. -/
def denotes (code v : Nat) : Bool :=
  let u := unitsOfCode code
  let below := u + unitsOfCode (code - 1)
  let above := u + unitsOfCode (code + 1)
  -- Everything is doubled, so that the half way points are whole numbers.
  let x := v * (2 * unitsInOne)
  let low := below * Nat.pow 10 decimalScale
  let high := above * Nat.pow 10 decimalScale
  if code % 2 = 0 then low ≤ x && x ≤ high else low < x && x < high

/-- The nearer of the two multiples of `grid` around the number with this code among those
    that denote it; an exact tie goes to the even multiple. The result is the multiplier. -/
def hit? (code grid : Nat) : Option Nat :=
  let scaled := unitsOfCode code * Nat.pow 10 decimalScale
  let c := scaled / (unitsInOne * grid)
  match denotes code (c * grid), denotes code ((c + 1) * grid) with
  | true, true =>
    let rest := 2 * (scaled % (unitsInOne * grid))
    if rest < unitsInOne * grid then some c
    else if unitsInOne * grid < rest then some (c + 1)
    else some (c + c % 2)
  | true, false => some c
  | false, true => some (c + 1)
  | false, false => none

/-- The first hit on grids of `count`, `count + 1`, … digits of a number that has `size`
    digits when scaled; the last grid is the one after `fuel` refinements. -/
def firstHit (code size : Nat) : (fuel count : Nat) → Option (Nat × Nat)
  | 0, _ => none
  | fuel + 1, count =>
    match hit? code (Nat.pow 10 (size - count)) with
    | some c => some (c, count)
    | none => firstHit code size fuel (count + 1)

/-- A search that ends found its multiplier on the grid it names. -/
theorem firstHit_spec (code size : Nat) :
    ∀ (fuel count c n : Nat), firstHit code size fuel count = some (c, n) →
      hit? code (Nat.pow 10 (size - n)) = some c ∧ count ≤ n := by
  intro fuel
  induction fuel with
  | zero => intro count c n h; simp [firstHit] at h
  | succ fuel ih =>
      intro count c n h
      rw [firstHit] at h
      split at h
      · next d hd =>
          simp only [Option.some.injEq, Prod.mk.injEq] at h
          obtain ⟨rfl, rfl⟩ := h
          exact ⟨hd, Nat.le_refl _⟩
      · obtain ⟨hh, hle⟩ := ih (count + 1) c n h
        exact ⟨hh, by omega⟩

/-- The number of decimal digits of a natural number; zero has one. -/
def digitCount (n : Nat) : Nat :=
  (Text.numeralChars n).length

/-- The shortest decimal that denotes the number with this code, which is not zero. A hit
    that rounds up to the next power of ten gains a digit and the exponent follows it. -/
def shortest (code : Nat) : Decimal :=
  let size := digitCount (unitsOfCode code * Nat.pow 10 decimalScale / unitsInOne)
  match firstHit code size 17 1 with
  | some (c, count) =>
    let first : Int := (size : Int) - 1 - decimalScale
    ⟨c, first + ((digitCount c : Int) - count)⟩
  | none => ⟨0, 0⟩

end Binary64

end Switchboard

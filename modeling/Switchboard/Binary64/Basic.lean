/-!
# Binary Floating Point Numbers of 64 Bits

The finite numbers of the format binary64 and their rounded arithmetic, in
exact integer arithmetic throughout.

Every finite number is a whole multiple of the smallest positive one, which is
`2 ^ -1074` and is called a unit here. A magnitude is stored as its code, the
63 low bits of the interchange format: codes are ordered as the magnitudes are,
and consecutive codes are neighbours. Rounding a fraction of units to the
nearest code is then one rounded division, because a code above `2 ^ 53` is its
binary exponent times `2 ^ 52` plus the rounded significand, carry included.

## Main definitions

* `Binary64`: A sign and a finite magnitude.
* `Binary64.unitsOfCode`, `Binary64.units`: A magnitude in units.
* `Binary64.roundedQuotient`: Division to nearest, a half to the even neighbour.
* `Binary64.nearestCode`, `Binary64.nearest?`: The nearest number to a fraction of units.
* `Binary64.ofNat?`, `Binary64.times?`, `Binary64.over?`: Rounded conversion,
  multiplication and division; `none` stands for a result beyond the finite range.
* `Binary64.integer?`: The value of a number that has no fractional part.

## Theorems

* `Binary64.unitsOfCode_small`: Below `2 ^ 53` a code is its own number of units.
* `Binary64.roundedQuotient_exact`: A quotient without remainder is not changed.
* `Binary64.two_mul_roundedQuotient_le`, `Binary64.le_two_mul_roundedQuotient`:
  A rounded quotient is at most half away.
-/

namespace Switchboard

/-- The codes of finite magnitudes are those below this bound. -/
def Binary64.codeBound : Nat := 2047 * Nat.pow 2 52

/-- A finite number of the format binary64. Zero occurs with both signs. -/
structure Binary64 where
  /-- Whether the sign bit is set. -/
  negative : Bool
  /-- The 63 low bits: biased exponent and fraction. -/
  code : Nat
  /-- The biased exponent is not the one of infinities and NaNs. -/
  finite : code < Binary64.codeBound
  deriving DecidableEq

namespace Binary64

/-- The number of units in one. -/
def unitsInOne : Nat := Nat.pow 2 1074

/-- The number of units of the magnitude with the given code. -/
def unitsOfCode (code : Nat) : Nat :=
  let shift := code / Nat.pow 2 52 - 1
  (code - shift * Nat.pow 2 52) * Nat.pow 2 shift

/-- The magnitude of a number, in units. -/
def units (x : Binary64) : Nat :=
  unitsOfCode x.code

theorem unitsOfCode_small (code : Nat) (h : code < Nat.pow 2 53) : unitsOfCode code = code := by
  have hq : code / Nat.pow 2 52 < 2 :=
    Nat.div_lt_of_lt_mul (show code < Nat.pow 2 52 * 2 from h)
  have hs : code / Nat.pow 2 52 - 1 = 0 := by omega
  have hone : Nat.pow 2 0 = 1 := rfl
  simp only [unitsOfCode, hs, Nat.zero_mul, Nat.sub_zero, hone, Nat.mul_one]

/-- The quotient rounded to the nearest natural number, a half to the even neighbour. -/
def roundedQuotient (n d : Nat) : Nat :=
  let q := n / d
  let twice := 2 * (n % d)
  if twice < d then q else if d < twice then q + 1 else q + q % 2

theorem roundedQuotient_exact (q d : Nat) (h : 0 < d) : roundedQuotient (q * d) d = q := by
  simp [roundedQuotient, Nat.mul_div_cancel _ h, h]

/-- A rounded quotient exceeds the exact one by a half at most. -/
theorem two_mul_roundedQuotient_le (n d : Nat) (h : 0 < d) :
    2 * (roundedQuotient n d * d) ≤ 2 * n + d := by
  have hn := Nat.div_add_mod n d
  have hr := Nat.mod_lt n h
  rw [Nat.mul_comm] at hn
  simp only [roundedQuotient]
  split
  · omega
  · split
    · rw [Nat.add_mul]; omega
    · rcases Nat.mod_two_eq_zero_or_one (n / d) with hq | hq <;> rw [hq]
      · simp only [Nat.add_zero]; omega
      · rw [Nat.add_mul]; omega

/-- A rounded quotient falls short of the exact one by a half at most. -/
theorem le_two_mul_roundedQuotient (n d : Nat) (h : 0 < d) :
    2 * n ≤ 2 * (roundedQuotient n d * d) + d := by
  have hn := Nat.div_add_mod n d
  have hr := Nat.mod_lt n h
  rw [Nat.mul_comm] at hn
  simp only [roundedQuotient]
  split
  · omega
  · split
    · rw [Nat.add_mul]; omega
    · rcases Nat.mod_two_eq_zero_or_one (n / d) with hq | hq <;> rw [hq]
      · simp only [Nat.add_zero]; omega
      · rw [Nat.add_mul]; omega

/-- The code nearest to `n / d` units; it may lie beyond the finite range. -/
def nearestCode (n d : Nat) : Nat :=
  let shift := (n / d).log2 - 52
  -- A significand that is rounded up to 2 ^ 53 carries into the exponent by itself.
  shift * Nat.pow 2 52 + roundedQuotient n (d * Nat.pow 2 shift)

/-- The number nearest to `n / d` units, or `none` beyond the finite range. -/
def nearest? (negative : Bool) (n d : Nat) : Option Binary64 :=
  if h : nearestCode n d < codeBound then some ⟨negative, nearestCode n d, h⟩ else none

/-- The number nearest to a natural number. -/
def ofNat? (n : Nat) : Option Binary64 :=
  nearest? false (n * unitsInOne) 1

/-- The rounded product; the sign is positive iff the signs agree. -/
def times? (x y : Binary64) : Option Binary64 :=
  nearest? (x.negative != y.negative) (x.units * y.units) unitsInOne

/-- The rounded quotient by a number that is not zero. -/
def over? (x y : Binary64) : Option Binary64 :=
  nearest? (x.negative != y.negative) (x.units * unitsInOne) y.units

/-- The number with the opposite sign. -/
def negate (x : Binary64) : Binary64 :=
  { x with negative := !x.negative }

/-- Whether the magnitude is zero. -/
def isZero (x : Binary64) : Bool :=
  x.code == 0

/-- The value of a number without fractional part. -/
def integer? (x : Binary64) : Option Int :=
  if x.units % unitsInOne = 0 then
    let n : Int := (x.units / unitsInOne : Nat)
    some (if x.negative then -n else n)
  else none

/-- Zero, with the given sign. -/
def zero (negative : Bool) : Binary64 :=
  ⟨negative, 0, by decide⟩

end Binary64

end Switchboard

import Mathlib.Algebra.Order.Field.Rat
import Mathlib.Tactic.Ring
import Switchboard.Proofs.Json.Printed
import Switchboard.Tool.Arguments

/-!
# Numbers that Count

Which arguments count something, and how much. A number has a value, which is a
rational number whatever the number is stored as: a word, a negative integer or
a floating point number. It counts if the value is a natural number. That the
zero with a sign counts, and that a floating point number beyond all words does,
are two cases of this. A text counts if it is a numeral of a word, blanks at its
ends left out.

The reader of arguments answers with a word, so a value beyond all words is cut
off. What is cut off is stated once, in `Arguments.countOf?_eq_some_iff`.

## Main definitions

* `Binary64.inUnits`, `Binary64.value`, `Json.Number.value`: The value of a number.
* `Text.Denotes`: A text is the numeral of a number, maybe after a plus sign.
* `Json.Counts`: A value counts something.

## Theorems

* `Binary64.integer?_eq_some_iff`: A number without fractional part is one whose value is whole.
* `Json.Number.count?_eq_some_iff`: A number counts its value.
* `Text.word?_eq_some_iff`: A word is read from its numerals and from nothing else.
* `Arguments.countOf?_eq_some_iff`: What is read is what is counted, cut off at the largest word.
-/

namespace Switchboard

namespace Binary64

/-- The number of units with its sign. -/
def inUnits (x : Binary64) : ℤ :=
  if x.negative then -(x.units : ℤ) else x.units

/-- The value of a number. -/
def value (x : Binary64) : ℚ :=
  (x.inUnits : ℚ) / (unitsInOne : ℚ)

theorem unitsInOne_pos : 0 < unitsInOne := by decide +kernel

theorem value_eq_intCast_iff (x : Binary64) (i : ℤ) :
    x.value = i ↔ x.inUnits = i * unitsInOne := by
  have hne : (unitsInOne : ℚ) ≠ 0 := Nat.cast_ne_zero.mpr unitsInOne_pos.ne'
  rw [value, div_eq_iff hne]
  exact_mod_cast Iff.rfl

/-- A number without fractional part is one whose value is whole. -/
theorem integer?_eq_some_iff (x : Binary64) (i : ℤ) : x.integer? = some i ↔ x.value = i := by
  have hpos := unitsInOne_pos
  rw [value_eq_intCast_iff, integer?, inUnits]
  generalize unitsInOne = u at hpos
  have hu : (u : ℤ) ≠ 0 := by omega
  split
  case isTrue hwhole =>
    obtain ⟨k, hk⟩ := Nat.dvd_of_mod_eq_zero hwhole
    have hcancel : ∀ j : ℤ, j * u = i * u ↔ j = i := fun j => mul_left_inj' hu
    rw [hk, Nat.mul_div_cancel_left k hpos, Option.some.injEq, ← hcancel]
    cases x.negative <;> simp [mul_comm]
  case isFalse hpart =>
    refine ⟨fun h => (Option.some_ne_none _ h.symm).elim, fun h => absurd ?_ hpart⟩
    -- The sign does not matter for what is divided.
    have habs : x.units = i.natAbs * u := by
      have hsize := congrArg Int.natAbs h
      rw [Int.natAbs_mul, Int.natAbs_natCast] at hsize
      cases hsign : x.negative <;> simpa [hsign] using hsize
    rw [habs, Nat.mul_mod_left]

end Binary64

namespace Json

theorem cutOff?_eq_some_iff (whole : Option ℤ) (c : ℕ) :
    cutOff? whole = some c ↔
      ∃ total : ℕ, whole = some (total : ℤ) ∧ c = min total (wordBound - 1) := by
  constructor
  · intro h
    rw [cutOff?.eq_def] at h
    split at h
    case h_1 total => exact ⟨total, rfl, (Option.some.inj h).symm⟩
    case h_2 => cases h
  · rintro ⟨total, rfl, rfl⟩
    rfl

namespace Number

/-- The value of a number. -/
def value : Number → ℚ
  | .whole n => (n.toNat : ℚ)
  | .below n => -((n.val : ℚ) + 1)
  | .double x => x.value

/-- A number counts its value, cut off at the largest word. -/
theorem count?_eq_some_iff (n : Number) (c : ℕ) :
    n.count? = some c ↔ ∃ total : ℕ, n.value = total ∧ c = min total (wordBound - 1) := by
  -- A whole number is below the bound already, so cutting it off changes nothing.
  cases n with
  | whole n =>
      have hfits : n.toNat ≤ wordBound - 1 := Nat.le_sub_one_of_lt n.toNat_lt
      simp only [count?, value, Option.some.injEq, Nat.cast_inj]
      constructor
      · rintro rfl
        exact ⟨_, rfl, (Nat.min_eq_left hfits).symm⟩
      · rintro ⟨_, rfl, rfl⟩
        exact (Nat.min_eq_left hfits).symm
  | below n =>
      -- A number below zero counts nothing, as no total has its value.
      refine ⟨fun h => (Option.some_ne_none _ h.symm).elim, ?_⟩
      rintro ⟨total, htotal, -⟩
      have hneg : ((-((n.val : ℤ) + 1) : ℤ) : ℚ) = ((total : ℤ) : ℚ) := by
        simpa [value] using htotal
      have := Int.cast_inj.mp hneg
      omega
  | double x =>
      rw [count?, value, cutOff?_eq_some_iff]
      simp only [Binary64.integer?_eq_some_iff, Int.cast_natCast]

end Number

end Json

/-! ### Texts -/

namespace Text

/-- A text is the numeral of a number in base ten, of one digit or more and with any number of
    zeros in front, maybe after a plus sign. -/
def Denotes (s : String) (n : ℕ) : Prop :=
  ∃ digits : List Char, (s.toList = digits ∨ s.toList = '+' :: digits) ∧
    digits ≠ [] ∧ (∀ c ∈ digits, isAsciiDigit c) ∧ n = Nat.ofDigitChars 10 digits 0

theorem numeral?_eq_some_iff (cs : List Char) (n : ℕ) :
    numeral? cs = some n ↔
      cs ≠ [] ∧ (∀ c ∈ cs, isAsciiDigit c) ∧ n = Nat.ofDigitChars 10 cs 0 := by
  rw [numeral?, Json.digitsValue_eq]
  split
  case isTrue h =>
    simp only [Bool.and_eq_true, Bool.not_eq_true', List.isEmpty_eq_false_iff,
      List.all_eq_true] at h
    rw [Option.some.injEq]
    exact ⟨fun hn => ⟨h.1, h.2, hn.symm⟩, fun hn => hn.2.2.symm⟩
  case isFalse h =>
    simp only [Bool.and_eq_true, Bool.not_eq_true', List.isEmpty_eq_false_iff,
      List.all_eq_true] at h
    exact ⟨fun hn => (Option.some_ne_none _ hn.symm).elim, fun hn => (h ⟨hn.1, hn.2.1⟩).elim⟩

/-- A word is read from its numerals and from nothing else. -/
theorem word?_eq_some_iff (bound : ℕ) (s : String) (n : ℕ) :
    word? bound s = some n ↔ Denotes s n ∧ n < bound := by
  rw [word?, Option.filter_eq_some_iff, decide_eq_true_eq, Denotes]
  refine and_congr_left fun _ => ?_
  split
  case h_1 rest hs =>
    rw [numeral?_eq_some_iff, hs]
    constructor
    · rintro h
      exact ⟨rest, Or.inr rfl, h⟩
    · rintro ⟨digits, rfl | hdigits, hne, hall, hn⟩
      -- The sign is not a digit.
      · exact absurd (hall '+' List.mem_cons_self) (by decide)
      · rw [(List.cons.inj hdigits).2]
        exact ⟨hne, hall, hn⟩
  case h_2 hs =>
    rw [numeral?_eq_some_iff]
    constructor
    · rintro h
      exact ⟨s.toList, Or.inl rfl, h⟩
    · rintro ⟨digits, rfl | hdigits, h⟩
      · exact h
      · exact (hs digits hdigits).elim

end Text

/-! ### Arguments -/

/-- A value counts something: it is a number whose value is a natural number, or a text that is
    the numeral of a word when the blanks at its ends are left out. -/
inductive Json.Counts : Json → ℕ → Prop where
  | number {n : Number} {total : ℕ} (hvalue : n.value = total) : Counts (.num n) total
  | text {s : String} {total : ℕ} (htext : Text.Denotes (Text.trim s) total)
      (hword : total < wordBound) : Counts (.str s) total

theorem Json.counts_num_iff (n : Number) (total : ℕ) : Counts (.num n) total ↔ n.value = total :=
  ⟨fun h => by cases h; assumption, .number⟩

theorem Json.counts_str_iff (s : String) (total : ℕ) :
    Counts (.str s) total ↔ Text.Denotes (Text.trim s) total ∧ total < wordBound :=
  ⟨fun h => by cases h; exact ⟨by assumption, by assumption⟩, fun h => .text h.1 h.2⟩

/-- What is read is what is counted, cut off at the largest word. -/
theorem Arguments.countOf?_eq_some_iff (j : Json) (c : ℕ) :
    countOf? j = some c ↔ ∃ total, j.Counts total ∧ c = min total (Json.wordBound - 1) := by
  rw [countOf?.eq_def]
  split
  case h_1 n =>
    simp only [Json.Number.count?_eq_some_iff, Json.counts_num_iff]
  case h_2 s =>
    simp only [Text.word?_eq_some_iff, Json.counts_str_iff]
    -- A text is read as a word, so what it counts is never cut off.
    constructor
    · rintro ⟨hdenotes, hword⟩
      exact ⟨c, ⟨hdenotes, hword⟩, (Nat.min_eq_left (Nat.le_sub_one_of_lt hword)).symm⟩
    · rintro ⟨total, ⟨hdenotes, hword⟩, rfl⟩
      rw [Nat.min_eq_left (Nat.le_sub_one_of_lt hword)]
      exact ⟨hdenotes, hword⟩
  case h_3 hnum hstr =>
    refine ⟨fun h => (Option.some_ne_none _ h.symm).elim, ?_⟩
    rintro ⟨total, hcounts, -⟩
    cases hcounts with
    | number hvalue => exact (hnum _ rfl).elim
    | text htext hword => exact (hstr _ rfl).elim

end Switchboard

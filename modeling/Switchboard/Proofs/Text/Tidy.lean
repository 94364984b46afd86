import Mathlib.Data.List.DropRight
import Switchboard.Json.Number
import Switchboard.Text.Blank

/-!
# Tidy Texts

What is left of a text when the blanks at its ends are cut off. A reader that
trims what it is given and refuses blank texts can only ever answer with a text
that has nothing to cut, here called tidy, and it answers with its input
exactly if that is tidy already. So a name that one reader takes as it is
reaches another reader unchanged only if it is tidy.

A number as text is tidy as well, which is why an id may come as a number.

## Main definitions

* `Text.IsTidy`: A text that is not blank and has no blanks at its ends.

## Theorems

* `Text.trim_trim`: Trimming once is enough.
* `Text.trim_isEmpty`: Exactly the blank texts trim to nothing.
* `Text.trim_tidy`: A text that is not blank trims to a tidy one.
* `Json.Number.text_tidy`: The written form of a number is tidy.
-/

namespace Switchboard

namespace Text

/-! ### Trimming -/

theorem trimChars_eq (cs : List Char) :
    trimChars cs = (cs.dropWhile isBlank).rdropWhile isBlank := rfl

/-- What is kept of a text does not begin with a blank. -/
theorem dropWhile_trimChars (cs : List Char) :
    (trimChars cs).dropWhile isBlank = trimChars cs := by
  rw [trimChars_eq]
  generalize hd : cs.dropWhile isBlank = rest
  have hidem : rest.dropWhile isBlank = rest := by
    rw [← hd, List.dropWhile_idempotent]
  rw [List.dropWhile_eq_self_iff] at hidem ⊢
  intro hpos
  -- Cutting at the end leaves the first character where it was.
  have hkept := rest.rdropWhile_prefix isBlank
  have hlen := hkept.length_le
  rw [hkept.getElem hpos]
  exact hidem (by omega)

theorem trimChars_trimChars (cs : List Char) : trimChars (trimChars cs) = trimChars cs := by
  rw [trimChars_eq (trimChars cs), dropWhile_trimChars, trimChars_eq, List.rdropWhile_idempotent]

theorem trimChars_eq_nil_iff (cs : List Char) : trimChars cs = [] ↔ ∀ c ∈ cs, isBlank c := by
  rw [trimChars_eq, List.rdropWhile_eq_nil_iff]
  constructor
  · intro hall
    -- What follows the blanks at the start does not begin with one, so there is nothing left.
    have hnil : cs.dropWhile isBlank = [] := by
      cases hd : cs.dropWhile isBlank with
      | nil => rfl
      | cons c rest =>
          have hblank := hall c (by rw [hd]; exact List.mem_cons_self)
          have hhead := List.head_dropWhile_not isBlank (l := cs) (by rw [hd]; simp)
          simp only [hd, List.head_cons] at hhead
          exact absurd hblank (by simp [hhead])
    exact List.dropWhile_eq_nil_iff.mp hnil
  · intro hall c hc
    exact hall c ((List.dropWhile_sublist isBlank).mem hc)

theorem trim_trim (s : String) : trim (trim s) = trim s := by
  simp only [trim, String.toList_ofList, trimChars_trimChars]

theorem trim_isEmpty (s : String) : (trim s).isEmpty = allBlank s := by
  rw [Bool.eq_iff_iff, String.isEmpty_iff, trim, allBlank, List.all_eq_true]
  rw [← trimChars_eq_nil_iff, ← String.toList_eq_nil_iff, String.toList_ofList]

/-! ### Tidy texts -/

/-- A text that is not blank and has no blanks at its ends. -/
def IsTidy (s : String) : Prop :=
  allBlank s = false ∧ trim s = s

instance decidableIsTidy (s : String) : Decidable (IsTidy s) :=
  inferInstanceAs (Decidable (_ ∧ _))

theorem trim_tidy (s : String) (h : allBlank s = false) : IsTidy (trim s) := by
  refine ⟨?_, trim_trim s⟩
  rw [← trim_isEmpty, trim_trim, trim_isEmpty, h]

/-- A text without any blank is tidy, unless it is empty. -/
theorem tidy_of_no_blank (cs : List Char) (hne : cs ≠ []) (h : ∀ c ∈ cs, isBlank c = false) :
    IsTidy (String.ofList cs) := by
  -- Nothing is taken off either end, as no character is a blank.
  have hstart : cs.dropWhile isBlank = cs := by
    rw [List.dropWhile_eq_self_iff]
    intro hpos
    simp [h _ (List.getElem_mem hpos)]
  have hend : cs.rdropWhile isBlank = cs := by
    rw [List.rdropWhile_eq_self_iff]
    intro hcs
    simp [h _ (List.getLast_mem hcs)]
  have htrim : trim (String.ofList cs) = String.ofList cs := by
    rw [trim, String.toList_ofList, trimChars_eq, hstart, hend]
  refine ⟨?_, htrim⟩
  rw [← trim_isEmpty, htrim, Bool.eq_false_iff, ne_eq, String.isEmpty_iff,
    ← String.toList_eq_nil_iff, String.toList_ofList]
  exact hne

end Text

/-! ### Numbers -/

/-- Whether a character is one of those that numbers are written with. -/
def Json.IsNumeric (c : Char) : Prop :=
  c.isDigit = true ∨ c ∈ ['-', '+', '.', 'e']

theorem Json.IsNumeric.not_blank {c : Char} (h : Json.IsNumeric c) : Text.isBlank c = false := by
  rcases h with hdigit | hsign
  · -- digits stand between the blanks of ASCII and the others
    simp only [Char.isDigit, ge_iff_le, Bool.and_eq_true, decide_eq_true_eq] at hdigit
    have hlow : 48 ≤ c.toNat := UInt32.le_iff_toNat_le.mp hdigit.1
    have hhigh : c.toNat ≤ 57 := UInt32.le_iff_toNat_le.mp hdigit.2
    simp only [Text.isBlank, Bool.or_eq_false_iff, Bool.and_eq_false_iff, beq_eq_false_iff_ne,
      decide_eq_false_iff_not]
    omega
  · simp only [List.mem_cons, List.not_mem_nil, or_false] at hsign
    rcases hsign with rfl | rfl | rfl | rfl <;> decide

theorem Text.numeralChars_numeric (n : Nat) : ∀ c ∈ Text.numeralChars n, Json.IsNumeric c :=
  fun _ hc => Or.inl (Nat.isDigit_of_mem_toDigits (by decide) (by decide) hc)

namespace Binary64

theorem significant_numeric (digits : List Char) (h : ∀ c ∈ digits, Json.IsNumeric c) :
    ∀ c ∈ significant digits, Json.IsNumeric c := by
  intro c hc
  rw [significant, List.mem_reverse] at hc
  exact h c (List.mem_reverse.mp ((List.dropWhile_sublist _).mem hc))

theorem aroundPoint_numeric (digits : List Char) (e : Int) (h : ∀ c ∈ digits, Json.IsNumeric c) :
    (∀ c ∈ (aroundPoint digits e).1, Json.IsNumeric c) ∧
      ∀ c ∈ (aroundPoint digits e).2, Json.IsNumeric c := by
  have hzero : Json.IsNumeric '0' := Or.inl (by decide)
  have hzeros : ∀ n, ∀ c ∈ List.replicate n '0', Json.IsNumeric c :=
    fun n c hc => List.eq_of_mem_replicate hc ▸ hzero
  unfold aroundPoint
  split
  -- Zeros are put in front of the digits or behind them.
  · refine ⟨fun c hc => List.mem_singleton.mp hc ▸ hzero, fun c hc => ?_⟩
    rcases List.mem_append.mp hc with hc | hc
    · exact hzeros _ c hc
    · exact h c hc
  · refine ⟨fun c hc => ?_, fun c hc => h c (List.mem_of_mem_drop hc)⟩
    rcases List.mem_append.mp hc with hc | hc
    · exact h c (List.mem_of_mem_take hc)
    · exact hzeros _ c hc

theorem plain_numeric (digits : List Char) (e : Int) (h : ∀ c ∈ digits, Json.IsNumeric c) :
    plain digits e ≠ [] ∧ ∀ c ∈ plain digits e, Json.IsNumeric c := by
  rcases aroundPoint_numeric digits e h with ⟨hwhole, hfraction⟩
  refine ⟨by simp [plain], fun c hc => ?_⟩
  simp only [plain, List.mem_append, List.mem_cons] at hc
  rcases hc with hc | rfl | hc
  · exact hwhole c hc
  · exact Or.inr (by decide)
  · split at hc
    · exact Or.inl (List.mem_singleton.mp hc ▸ by decide)
    · exact hfraction c hc

theorem scientific_numeric (digits : List Char) (e : Int) (h : ∀ c ∈ digits, Json.IsNumeric c) :
    scientific digits e ≠ [] ∧ ∀ c ∈ scientific digits e, Json.IsNumeric c := by
  refine ⟨by simp [scientific], fun c hc => ?_⟩
  simp only [scientific, List.mem_append, List.mem_cons] at hc
  -- The digits keep their places, with the point after the first.
  rcases hc with hc | rfl | rfl | hc
  · cases digits with
    | nil => exact absurd hc List.not_mem_nil
    | cons d rest =>
        simp only at hc
        split at hc
        · exact h c (List.mem_singleton.mp hc ▸ List.mem_cons_self)
        · simp only [List.mem_cons] at hc
          rcases hc with rfl | rfl | hc
          · exact h c List.mem_cons_self
          · exact Or.inr (by decide)
          · exact h c (List.mem_cons_of_mem d hc)
  · exact Or.inr (by decide)
  · split <;> exact Or.inr (by decide)
  · exact Text.numeralChars_numeric _ c hc

theorem chars_numeric (x : Binary64) : x.chars ≠ [] ∧ ∀ c ∈ x.chars, Json.IsNumeric c := by
  -- The body is written in one of three forms; the sign in front of it changes nothing.
  have hsigned : ∀ body : List Char, (body ≠ [] ∧ ∀ c ∈ body, Json.IsNumeric c) →
      (if x.negative then '-' :: body else body) ≠ [] ∧
        ∀ c ∈ (if x.negative then '-' :: body else body), Json.IsNumeric c := by
    intro body ⟨hne, hbody⟩
    split
    · refine ⟨by simp, fun c hc => ?_⟩
      rcases List.mem_cons.mp hc with rfl | hc
      · exact Or.inr (by decide)
      · exact hbody c hc
    · exact ⟨hne, hbody⟩
  have hdigits := significant_numeric _ (Text.numeralChars_numeric (shortest x.code).digits)
  unfold chars
  refine hsigned _ ?_
  split
  · refine ⟨by simp, fun c hc => ?_⟩
    simp only [List.mem_cons, List.not_mem_nil, or_false] at hc
    rcases hc with rfl | rfl | rfl
    · exact Or.inl (by decide)
    · exact Or.inr (by decide)
    · exact Or.inl (by decide)
  · simp only
    split
    · exact plain_numeric _ _ hdigits
    · exact scientific_numeric _ _ hdigits

end Binary64

namespace Json

theorem Number.chars_numeric (n : Number) : n.chars ≠ [] ∧ ∀ c ∈ n.chars, IsNumeric c := by
  cases n with
  | whole n => exact ⟨Nat.toDigits_ne_nil, Text.numeralChars_numeric n.toNat⟩
  | below n =>
      refine ⟨by simp [Number.chars], fun c hc => ?_⟩
      rcases List.mem_cons.mp hc with rfl | hc
      · exact Or.inr (by decide)
      · exact Text.numeralChars_numeric _ c hc
  | double x => exact x.chars_numeric

theorem Number.text_tidy (n : Number) : Text.IsTidy n.text := by
  rcases n.chars_numeric with ⟨hne, hnumeric⟩
  exact Text.tidy_of_no_blank n.chars hne fun c hc => (hnumeric c hc).not_blank

end Json

end Switchboard

/-!
# Blank Characters

White space as Unicode defines it, and the two things the library does with it:
cutting it off both ends of an identifier and splitting a prompt into words.

The table is the Unicode property White_Space. It is wider than the blanks of
ASCII (the no-break space and the ideographic space are in it) and it is not
the set of invisible characters (the zero width space is outside).

## Main definitions

* `Text.isBlank`: The property itself.
* `Text.trimChars`, `Text.trim`: A text without the blanks at its ends.
* `Text.allBlank`: A text that trims to nothing.
* `Text.words`: The maximal runs of characters that are not blank.

## Theorems

* `Text.isBlank_of_isWhitespace`: The blanks of ASCII are blanks.
* `Text.trimChars_nil`: Nothing trims to nothing.
* `Text.words_ne_nil`: No word is empty.
-/

namespace Switchboard

namespace Text

/-- Whether a character has the Unicode property White_Space. -/
def isBlank (c : Char) : Bool :=
  let n := c.toNat
  (9 ≤ n && n ≤ 13) || n == 0x20 || n == 0x85 || n == 0xA0 || n == 0x1680 ||
    (0x2000 ≤ n && n ≤ 0x200A) || n == 0x2028 || n == 0x2029 || n == 0x202F ||
    n == 0x205F || n == 0x3000

theorem isBlank_of_isWhitespace (c : Char) (h : c.isWhitespace = true) : isBlank c = true := by
  simp only [Char.isWhitespace, Bool.or_eq_true, decide_eq_true_eq] at h
  rcases h with ((rfl | rfl) | rfl) | rfl <;> decide

/-- The characters of a text without the blanks before the first and after the
    last character that is not blank. -/
def trimChars (cs : List Char) : List Char :=
  ((cs.dropWhile isBlank).reverse.dropWhile isBlank).reverse

/-- A text without the blanks at its ends. -/
def trim (s : String) : String :=
  String.ofList (trimChars s.toList)

theorem trimChars_nil : trimChars [] = [] := rfl

/-- A text in which every character is blank, the empty text among them. -/
def allBlank (s : String) : Bool :=
  s.toList.all isBlank

/-- The words of the characters that follow `word`, which is the word being read,
    last character first. -/
def wordsFrom (word : List Char) : List Char → List (List Char)
  | [] => if word.isEmpty then [] else [word.reverse]
  | c :: rest =>
    if isBlank c then
      if word.isEmpty then wordsFrom [] rest else word.reverse :: wordsFrom [] rest
    else wordsFrom (c :: word) rest

/-- The maximal runs of characters that are not blank, in order. -/
def words (s : String) : List String :=
  (wordsFrom [] s.toList).map String.ofList

theorem wordsFrom_ne_nil (cs : List Char) :
    ∀ (word w : List Char), w ∈ wordsFrom word cs → w ≠ [] := by
  induction cs with
  | nil =>
      intro word w h
      cases word with
      | nil => simp [wordsFrom] at h
      | cons c r => simp [wordsFrom] at h; simp [h]
  | cons c rest ih =>
      intro word w h
      rw [wordsFrom] at h
      by_cases hb : isBlank c = true
      · cases word with
        | nil => rw [if_pos hb] at h; exact ih [] w (by simpa using h)
        | cons d r =>
            rw [if_pos hb] at h
            simp only [List.isEmpty_cons, Bool.false_eq_true, if_false, List.mem_cons] at h
            rcases h with rfl | h
            · simp
            · exact ih [] w h
      · rw [if_neg hb] at h
        exact ih (c :: word) w h

/-- No word is empty. -/
theorem words_ne_nil (s w : String) (h : w ∈ words s) : w.toList ≠ [] := by
  simp only [words, List.mem_map] at h
  obtain ⟨cs, hcs, rfl⟩ := h
  simpa using wordsFrom_ne_nil s.toList [] cs hcs

end Text

end Switchboard

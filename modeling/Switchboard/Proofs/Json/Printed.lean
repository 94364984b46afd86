import Mathlib.Data.List.TakeDrop
import Switchboard.Json.Printer
import Switchboard.Json.Reader

/-!
# Reading What Was Printed

The text of a tree denotes that tree, if the tree is not nested too deep and
each of its numbers is read back from its digits. That holds of integers; of
floating point numbers it depends on the number, so it is a condition here.

A value is followed by whatever comes next in the text, and of all values only
a number could go on there. What may follow is therefore a condition on the
first character after a number, and commas and brackets meet it.

## Main definitions

* `Json.EndsNumber`: A text with which no number goes on.
* `Json.Number.Survives`: A number that is read back from its written form.
* `Json.Survives`: A tree of such numbers that is nested at most so deep.

## Theorems

* `Json.scanString_escaped`, `Json.decodeString_pieces`: Strings are read back.
* `Json.Number.whole_survives`, `Json.Number.below_survives`: So are integers.
* `Json.parse?_chars`: So are trees.
* `Json.arr_survives`, `Json.record_survives`: Arrays and records of what survives survive.
-/

namespace Switchboard

namespace Json

/-! ### Strings -/

/-- The piece that a character is written as. -/
def pieceOf (c : Char) : Piece :=
  if isControl c && c ∉ ['\x08', '\t', '\n', '\x0c', '\r'] then .unit c.toNat
  else .plain c

theorem hexUnit?_control :
    ∀ n < 0x20, hexUnit? '0' '0' (hexChar (n / 16)) (hexChar (n % 16)) = some n := by
  decide

theorem scanString_escapeChar (c : Char) (rest : List Char) :
    scanString (escapeChar c ++ rest) =
      (scanString rest).map fun (ps, after) => (pieceOf c :: ps, after) := by
  -- The characters with a short escape come first.
  by_cases hshort : c ∈ ['"', '\\', '\x08', '\t', '\n', '\x0c', '\r']
  · simp only [List.mem_cons, List.not_mem_nil, or_false] at hshort
    rcases hshort with rfl | rfl | rfl | rfl | rfl | rfl | rfl <;> rfl
  · simp only [List.mem_cons, List.not_mem_nil, or_false, not_or] at hshort
    rcases hshort with ⟨hquote, hback, hbs, htab, hline, hfeed, hreturn⟩
    have hescape : escapeChar c =
        if isControl c then
          ['\\', 'u', '0', '0', hexChar (c.toNat / 16), hexChar (c.toNat % 16)]
        else [c] := by
      unfold escapeChar
      split <;> first | contradiction | rfl
    have hpiece : pieceOf c = if isControl c then .unit c.toNat else .plain c := by
      simp [pieceOf, hbs, htab, hline, hfeed, hreturn]
    rw [hescape, hpiece]
    by_cases hcontrol : isControl c = true
    · have hunit := hexUnit?_control c.toNat (by simpa [isControl] using hcontrol)
      simp only [hcontrol, if_true, List.cons_append, List.nil_append, scanString, hunit,
        Option.bind_some]
    · simp only [hcontrol, Bool.false_eq_true, if_false, List.singleton_append]
      rw [scanString.eq_def]
      simp [hback, hcontrol]

theorem scanString_escaped (cs rest : List Char) :
    scanString (cs.flatMap escapeChar ++ '"' :: rest) = some (cs.map pieceOf, rest) := by
  induction cs with
  | nil => rfl
  | cons c cs ih =>
      rw [List.flatMap_cons, List.append_assoc, scanString_escapeChar, ih]
      rfl

theorem decodePieces_pieces (cs : List Char) : decodePieces (cs.map pieceOf) = some cs := by
  -- An escaped character is in neither range of the surrogates, so it is read back by itself.
  induction cs with
  | nil => rfl
  | cons c cs ih =>
      rw [List.map_cons, pieceOf]
      split
      · next h =>
          simp only [Bool.and_eq_true, isControl, decide_eq_true_eq] at h
          have hlow : isLowUnit c.toNat = false := by
            simp only [isLowUnit, Bool.and_eq_false_iff, decide_eq_false_iff_not]
            omega
          have hhigh : isHighUnit c.toNat = false := by
            simp only [isHighUnit, Bool.and_eq_false_iff, decide_eq_false_iff_not]
            omega
          unfold decodePieces
          simp only [hlow, hhigh, Bool.false_eq_true, if_false, ih, Option.map_some,
            Char.ofNat_toNat]
      · rw [decodePieces, ih, Option.map_some]

theorem decodeString_pieces (s : String) : decodeString (s.toList.map pieceOf) = some s := by
  rw [decodeString, decodePieces_pieces, Option.map_some, String.ofList_toList]

/-! ### Integers -/

theorem isAsciiDigit_of_isDigit {c : Char} (h : c.isDigit = true) : Text.isAsciiDigit c = true := by
  simp only [Char.isDigit, ge_iff_le, Bool.and_eq_true, decide_eq_true_eq] at h
  have hlow : 0x30 ≤ c.toNat := UInt32.le_iff_toNat_le.mp h.1
  have hhigh : c.toNat ≤ 0x39 := UInt32.le_iff_toNat_le.mp h.2
  simp only [Text.isAsciiDigit, Bool.and_eq_true, decide_eq_true_eq]
  exact ⟨hlow, hhigh⟩

theorem numeralChars_digits (n : Nat) : ∀ c ∈ Text.numeralChars n, Text.isAsciiDigit c = true :=
  fun _ hc => isAsciiDigit_of_isDigit (Nat.isDigit_of_mem_toDigits (by decide) (by decide) hc)

/-- Only the number zero is written with a zero at its start. -/
theorem numeralChars_head (n : Nat) (hpos : 0 < n) : (Text.numeralChars n).head? ≠ some '0' := by
  -- Dropping the last digit leaves the first one where it is, until one digit is left.
  induction n using Nat.strongRecOn with
  | ind n ih =>
      unfold Text.numeralChars
      by_cases hsmall : n < 10
      · rw [Nat.toDigits_of_lt_base hsmall, List.head?_cons]
        intro h
        have hzero : ∀ m < 10, 0 < m → some m.digitChar ≠ some '0' := by decide
        exact hzero n hsmall hpos h
      · have hrest := ih (n / 10) (by omega) (by omega)
        rw [Nat.toDigits_of_base_le (by decide) (by omega)]
        cases hdigits : Nat.toDigits 10 (n / 10) with
        | nil => exact absurd hdigits Nat.toDigits_ne_nil
        | cons d more =>
            rw [Text.numeralChars, hdigits] at hrest
            exact hrest

theorem digitsValue_cons (start : Nat) (c : Char) (cs : List Char) :
    Text.digitsValue start (c :: cs) =
      Text.digitsValue (start * 10 + (c.toNat - 0x30)) cs := by
  rw [Text.digitsValue.eq_def]

theorem digitsValue_eq (cs : List Char) (start : Nat) :
    Text.digitsValue start cs = Nat.ofDigitChars 10 cs start := by
  induction cs generalizing start with
  | nil => rfl
  | cons c rest ih =>
      rw [digitsValue_cons, ih, Nat.mul_comm start 10]
      rfl

theorem le_digitsValue (cs : List Char) (start : Nat) : start ≤ Text.digitsValue start cs := by
  induction cs generalizing start with
  | nil => exact Nat.le_refl start
  | cons c rest ih =>
      have h := ih (start * 10 + (c.toNat - 0x30))
      rw [digitsValue_cons]
      omega

/-- Digits whose value fits a word are all read. -/
theorem leading_all (cs : List Char) (start : Nat) (h : Text.digitsValue start cs < wordBound) :
    leading start cs = (Text.digitsValue start cs, []) := by
  induction cs generalizing start with
  | nil => rfl
  | cons c rest ih =>
      rw [digitsValue_cons] at h ⊢
      have hle := le_digitsValue rest (start * 10 + (c.toNat - 0x30))
      rw [leading, if_pos (by omega), ih _ h]

theorem leading_numeralChars (n : Nat) (h : n < wordBound) :
    leading 0 (Text.numeralChars n) = (n, []) := by
  have hvalue : Text.digitsValue 0 (Text.numeralChars n) = n := by
    rw [digitsValue_eq]
    exact Nat.ofDigitChars_ten_toDigits
  rw [leading_all _ _ (by rw [hvalue]; exact h), hvalue]

/-- Whether no number goes on with a text. -/
def EndsNumber (rest : List Char) : Prop :=
  ∀ c ∈ rest.head?, Text.isAsciiDigit c = false ∧ c ≠ '.' ∧ c ≠ 'e' ∧ c ≠ 'E'

theorem endsNumber_cons {c : Char} {rest : List Char}
    (h : Text.isAsciiDigit c = false ∧ c ≠ '.' ∧ c ≠ 'e' ∧ c ≠ 'E') : EndsNumber (c :: rest) := by
  intro first hfirst
  cases hfirst
  exact h

theorem spanDigits_append (digits rest : List Char)
    (hdigits : ∀ c ∈ digits, Text.isAsciiDigit c = true) (hrest : EndsNumber rest) :
    spanDigits (digits ++ rest) = (digits, rest) := by
  have hstop : rest.takeWhile Text.isAsciiDigit = [] ∧ rest.dropWhile Text.isAsciiDigit = rest := by
    cases rest with
    | nil => exact ⟨rfl, rfl⟩
    | cons c after =>
        have hc := (hrest c rfl).1
        rw [List.takeWhile_cons_of_neg (by simp [hc]), List.dropWhile_cons_of_neg (by simp [hc])]
        exact ⟨rfl, rfl⟩
  rw [spanDigits, List.span_eq_takeWhile_dropWhile, List.takeWhile_append_of_pos hdigits,
    List.dropWhile_append_of_pos hdigits, hstop.1, hstop.2, List.append_nil]

/-- The digits of a natural number are scanned as a numeral without point and exponent. -/
theorem scanUnsigned_numeralChars (negative : Bool) (n : Nat) (rest : List Char)
    (hrest : EndsNumber rest) :
    scanUnsigned negative (Text.numeralChars n ++ rest) =
      some (⟨negative, Text.numeralChars n, [], none⟩, rest) := by
  -- What follows the digits opens neither a fraction nor an exponent.
  have hfraction : scanFraction rest = some ([], rest) := by
    unfold scanFraction
    split
    · next after => exact absurd rfl (hrest '.' rfl).2.1
    · rfl
  have hexponent : scanExponent rest = some (none, rest) := by
    unfold scanExponent
    split
    · rfl
    · next e after =>
        rcases hrest e rfl with ⟨-, -, hlower, hupper⟩
        rw [if_neg (by simp [hlower, hupper])]
  rw [scanUnsigned, spanDigits_append _ rest (numeralChars_digits n) hrest]
  cases hdigits : Text.numeralChars n with
  | nil => exact absurd hdigits Nat.toDigits_ne_nil
  | cons d more =>
      -- The only numeral with a leading zero is zero itself, which has one digit.
      have hlead : (d = '0' && !more.isEmpty) = false := by
        rcases Nat.eq_zero_or_pos n with rfl | hpos
        · have hzero : Text.numeralChars 0 = ['0'] := rfl
          rw [hzero, List.cons.injEq] at hdigits
          rw [← hdigits.2]
          simp
        · have hhead := numeralChars_head n hpos
          rw [hdigits, List.head?_cons] at hhead
          have hne : d ≠ '0' := fun h => hhead (congrArg some h)
          simp [hne]
      simp only [hlead, Bool.false_eq_true, if_false, hfraction, hexponent, Option.bind_some,
        Option.map_some]

/-- A number that is read back from its written form, whatever follows it. -/
structure Number.Survives (n : Number) : Prop where
  starts : ∃ c cs, n.chars = c :: cs ∧ (c == '-' || Text.isAsciiDigit c) = true
  scanned : ∃ m : Numeral, m.number? = some n ∧
    ∀ rest, EndsNumber rest → scanNumeral (n.chars ++ rest) = some (m, rest)

theorem numeralChars_starts (n : Nat) :
    ∃ c cs, Text.numeralChars n = c :: cs ∧ Text.isAsciiDigit c = true := by
  cases hdigits : Text.numeralChars n with
  | nil => exact absurd hdigits Nat.toDigits_ne_nil
  | cons c cs =>
      exact ⟨c, cs, rfl, numeralChars_digits n c (by rw [hdigits]; exact List.mem_cons_self)⟩

theorem Number.whole_survives (n : UInt64) : (Number.whole n).Survives := by
  have hword : n.toNat < wordBound := n.toNat_lt
  rcases numeralChars_starts n.toNat with ⟨c, cs, hchars, hdigit⟩
  constructor
  · exact ⟨c, cs, hchars, by rw [hdigit, Bool.or_true]⟩
  · refine ⟨⟨false, Text.numeralChars n.toNat, [], none⟩, ?_, fun rest hrest => ?_⟩
    · simp only [Numeral.number?, leading_numeralChars n.toNat hword]
      simp [Json.integer?]
    -- A digit comes first, so no sign is scanned.
    · have hminus : c ≠ '-' := by
        rintro rfl
        exact absurd hdigit (by decide)
      have hscan := scanUnsigned_numeralChars false n.toNat rest hrest
      rw [Number.chars, hchars, List.cons_append] at *
      unfold scanNumeral
      split
      · next after heq => exact absurd (List.cons.inj heq).1 hminus
      · exact hscan

theorem Number.below_survives (n : Fin (Nat.pow 2 63)) : (Number.below n).Survives := by
  have hword : n.val + 1 < wordBound := by
    have hn : n.val < Nat.pow 2 63 := n.isLt
    have hbound : Nat.pow 2 63 < wordBound := by decide
    omega
  constructor
  · exact ⟨'-', Text.numeralChars (n.val + 1), rfl, rfl⟩
  · refine ⟨⟨true, Text.numeralChars (n.val + 1), [], none⟩, ?_, fun rest hrest => ?_⟩
    · simp only [Numeral.number?, leading_numeralChars _ hword]
      simp [Json.integer?]
    · exact scanUnsigned_numeralChars true (n.val + 1) rest hrest

/-! ### Trees -/

mutual

/-- A tree of numbers that survive, in which at most `room` arrays and objects are open. -/
def Survives : (room : Nat) → Json → Prop
  | _, .null | _, .bool _ | _, .str _ => True
  | _, .num n => n.Survives
  | 0, .arr _ | 0, .obj _ => False
  | room + 1, .arr items => ItemsSurvive room items
  | room + 1, .obj members => MembersSurvive room members

/-- Items that are such trees. -/
def ItemsSurvive : (room : Nat) → List Json → Prop
  | _, [] => True
  | room, item :: rest => Survives room item ∧ ItemsSurvive room rest

/-- Members whose values are such trees. -/
def MembersSurvive : (room : Nat) → List (String × Json) → Prop
  | _, [] => True
  | room, (_, value) :: rest => Survives room value ∧ MembersSurvive room rest

end

theorem skipSpaces_cons {c : Char} {cs : List Char} (h : isSpace c = false) :
    skipSpaces (c :: cs) = c :: cs := by
  rw [skipSpaces, List.dropWhile_cons_of_neg (by simp [h])]

/-- The text of items after the bracket. -/
def itemsChars : List Json → List Char
  | [] => [']']
  | item :: rest => chars item ++ tailChars rest

/-- The text of members after the brace. -/
def membersChars : List (String × Json) → List Char
  | [] => ['\x7d']
  | (key, value) :: rest => quoteChars key ++ ':' :: (chars value ++ memberTailChars rest)

theorem tailChars_cons (item : Json) (rest : List Json) :
    tailChars (item :: rest) = ',' :: itemsChars (item :: rest) := by
  rw [tailChars, itemsChars]

theorem memberTailChars_cons (key : String) (value : Json) (rest : List (String × Json)) :
    memberTailChars ((key, value) :: rest) = ',' :: membersChars ((key, value) :: rest) := by
  rw [memberTailChars, membersChars]

theorem chars_arr (items : List Json) : chars (.arr items) = '[' :: itemsChars items := by
  cases items with
  | nil => rw [chars, itemsChars]
  | cons item rest => rw [chars, itemsChars]

theorem chars_obj (members : List (String × Json)) :
    chars (.obj members) = '\x7b' :: membersChars members := by
  cases members with
  | nil => rw [chars, membersChars]
  | cons m rest => rw [chars, membersChars]

/-- What a number begins with is told from a space and from what any other value begins with. -/
theorem startsNumber_ne {c : Char} (h : (c == '-' || Text.isAsciiDigit c) = true) :
    isSpace c = false ∧ c ≠ ']' ∧ c ≠ '[' ∧ c ≠ '\x7b' ∧ c ≠ '"' := by
  refine ⟨?_, ?_, ?_, ?_, ?_⟩
  · simp only [isSpace, Bool.or_eq_false_iff, beq_eq_false_iff_ne]
    refine ⟨⟨⟨?_, ?_⟩, ?_⟩, ?_⟩ <;> rintro rfl <;> exact absurd h (by decide)
  all_goals
    rintro rfl
    exact absurd h (by decide)

/-- The text of a value does not begin with a space, nor as the end of an array. -/
theorem chars_head (room : Nat) (j : Json) (h : j.Survives room) :
    ∃ c cs, j.chars = c :: cs ∧ isSpace c = false ∧ c ≠ ']' := by
  -- The kinds of a value are told apart by their first character.
  cases j with
  | null => exact ⟨'n', _, by rw [chars], by decide, by decide⟩
  | bool b =>
      cases b with
      | true => exact ⟨'t', _, by rw [chars], by decide, by decide⟩
      | false => exact ⟨'f', _, by rw [chars], by decide, by decide⟩
  | num n =>
      have hn : n.Survives := by cases room <;> simpa only [Survives] using h
      rcases hn.starts with ⟨c, cs, hchars, hc⟩
      rcases startsNumber_ne hc with ⟨hspace, hclose, -⟩
      exact ⟨c, cs, by rw [chars, hchars], hspace, hclose⟩
  | str s => exact ⟨'"', _, by rw [chars, quoteChars], by decide, by decide⟩
  | arr items => exact ⟨'[', _, chars_arr items, by decide, by decide⟩
  | obj members => exact ⟨'\x7b', _, chars_obj members, by decide, by decide⟩

namespace Outline

theorem scan_number (n : Number) (m : Numeral) (bound : Nat) (rest : List Char)
    (hstarts : ∃ c cs, n.chars = c :: cs ∧ (c == '-' || Text.isAsciiDigit c) = true)
    (hscan : scanNumeral (n.chars ++ rest) = some (m, rest)) :
    scan (bound + 1) (n.chars ++ rest) = (.num m, some rest) := by
  rcases hstarts with ⟨c, cs, hchars, hc⟩
  rcases startsNumber_ne hc with ⟨hspace, -, harr, hobj, hquote⟩
  rw [hchars, List.cons_append] at hscan ⊢
  unfold scan
  rw [skipSpaces_cons hspace]
  split
  · next heq => exact absurd (List.cons.inj heq).1 harr
  · next heq => exact absurd (List.cons.inj heq).1 hobj
  · simp only [Bool.or_eq_true, beq_iff_eq] at hc
    simp only [scanScalar, hquote, if_false, hscan]
    rw [if_pos (by simpa using hc)]

theorem scan_string (s : String) (bound : Nat) (rest : List Char) :
    scan (bound + 1) (quoteChars s ++ rest) = (.str (s.toList.map pieceOf), some rest) := by
  have hscan := scanString_escaped s.toList rest
  have hchars : quoteChars s ++ rest = '"' :: (s.toList.flatMap escapeChar ++ '"' :: rest) := by
    simp [quoteChars]
  rw [hchars]
  unfold scan
  rw [skipSpaces_cons (by decide)]
  simp [scanScalar, hscan]

/-- An array that is not empty is scanned like its items. -/
theorem scan_arr (item : Json) (others : List Json) (items : List Outline) (bound : Nat)
    (rest : List Char) (hhead : ∃ c cs, item.chars = c :: cs ∧ isSpace c = false ∧ c ≠ ']')
    (hitems : scanItems bound (itemsChars (item :: others) ++ rest) = (items, some rest)) :
    scan (bound + 1) (chars (.arr (item :: others)) ++ rest) = (.arr items true, some rest) := by
  rcases hhead with ⟨c, cs, hchars, hspace, hclose⟩
  have hfirst : itemsChars (item :: others) ++ rest = c :: (cs ++ tailChars others ++ rest) := by
    rw [itemsChars, hchars, List.cons_append, List.cons_append]
  rw [chars_arr, List.cons_append]
  unfold scan
  rw [skipSpaces_cons (by decide)]
  rw [hfirst] at hitems ⊢
  simp only [skipSpaces_cons hspace]
  split
  · next heq => exact absurd (List.cons.inj heq).1 hclose
  · simp only [hitems, Option.isSome_some]

/-- An object that is not empty is scanned like its members. -/
theorem scan_obj (key : String) (value : Json) (others : List (String × Json))
    (members : List (List Piece × Outline)) (bound : Nat) (rest : List Char)
    (hmembers : scanMembers bound (membersChars ((key, value) :: others) ++ rest) =
      (members, some rest)) :
    scan (bound + 1) (chars (.obj ((key, value) :: others)) ++ rest) =
      (.obj members true, some rest) := by
  have hfirst : membersChars ((key, value) :: others) ++ rest =
      '"' :: (key.toList.flatMap escapeChar ++ '"' :: ':' ::
        (chars value ++ memberTailChars others ++ rest)) := by
    simp [membersChars, quoteChars]
  rw [chars_obj, List.cons_append]
  unfold scan
  -- The quote of the first name stands where an empty object would have its bracket.
  rw [skipSpaces_cons (by decide)]
  rw [hfirst] at hmembers ⊢
  simp only [skipSpaces_cons (c := '"') (by decide)]
  split
  · next heq => exact absurd (List.cons.inj heq).1 (by decide)
  · simp only [hmembers, Option.isSome_some]

/-- A bound that fits the text of a value is not used up. -/
theorem bound_succ {room : Nat} {j : Json} (h : j.Survives room) {bound : Nat}
    (hbound : 2 * j.chars.length ≤ bound) : ∃ more, bound = more + 1 := by
  rcases chars_head room j h with ⟨c, cs, hchars, -⟩
  rw [hchars, List.length_cons] at hbound
  exact Nat.exists_eq_succ_of_ne_zero (by omega)

-- By induction on the tree. A value and a step to the next item each take one off the bound, and
-- each of them has a character of its own in the text, so a bound of twice the length is enough.
mutual

/-- The text of a value is scanned to an outline that denotes the value. -/
theorem scan_chars (room : Nat) (j : Json) (h : j.Survives room) :
    ∃ o : Outline, o.tree? room = some j ∧ ∀ bound rest, 2 * j.chars.length ≤ bound →
      EndsNumber rest → scan bound (j.chars ++ rest) = (o, some rest) := by
  -- The room bounds the nesting and the bound the characters: each bracket spends one of either.
  cases j with
  | null =>
      refine ⟨.null, by simp [tree?], fun bound rest hbound hrest => ?_⟩
      rcases bound_succ h hbound with ⟨bound, rfl⟩
      rfl
  | bool b =>
      refine ⟨.bool b, by simp [tree?], fun bound rest hbound hrest => ?_⟩
      rcases bound_succ h hbound with ⟨bound, rfl⟩
      cases b <;> rfl
  | num n =>
      have hn : n.Survives := by cases room <;> simpa only [Survives] using h
      rcases hn.scanned with ⟨m, hnumber, hscan⟩
      refine ⟨.num m, by simp [tree?, hnumber], fun bound rest hbound hrest => ?_⟩
      rcases bound_succ h hbound with ⟨bound, rfl⟩
      rw [chars]
      exact scan_number n m bound rest hn.starts (hscan rest hrest)
  | str s =>
      refine ⟨.str (s.toList.map pieceOf), by simp [tree?, decodeString_pieces],
        fun bound rest hbound hrest => ?_⟩
      rcases bound_succ h hbound with ⟨bound, rfl⟩
      rw [chars]
      exact scan_string s bound rest
  | arr items =>
      cases room with
      | zero => exact absurd h (by simp [Survives])
      | succ room =>
          cases items with
          | nil =>
              refine ⟨.arr [] true, by simp [tree?, itemTrees?], fun bound rest hbound hrest => ?_⟩
              rcases bound_succ h hbound with ⟨bound, rfl⟩
              rfl
          | cons item others =>
              have hitems : ItemsSurvive room (item :: others) := by rwa [Survives] at h
              rcases scanItems_chars room item others hitems with ⟨items, htrees, hscan⟩
              refine ⟨.arr items true, by simp [tree?, htrees], fun bound rest hbound hrest => ?_⟩
              rcases bound_succ h hbound with ⟨bound, rfl⟩
              -- The bracket leaves enough of the bound for the items.
              rw [chars_arr, List.length_cons] at hbound
              exact scan_arr item others items bound rest (chars_head room item hitems.1)
                (hscan bound rest (by omega))
  | obj members =>
      cases room with
      | zero => exact absurd h (by simp [Survives])
      | succ room =>
          cases members with
          | nil =>
              refine ⟨.obj [] true, by simp [tree?, memberTrees?],
                fun bound rest hbound hrest => ?_⟩
              rcases bound_succ h hbound with ⟨bound, rfl⟩
              rfl
          | cons m others =>
              rcases m with ⟨key, value⟩
              have hmembers : MembersSurvive room ((key, value) :: others) := by
                rwa [Survives] at h
              rcases scanMembers_chars room key value others hmembers with
                ⟨members, htrees, hscan⟩
              refine ⟨.obj members true, by simp [tree?, htrees], fun bound rest hbound hrest => ?_⟩
              rcases bound_succ h hbound with ⟨bound, rfl⟩
              rw [chars_obj, List.length_cons] at hbound
              exact scan_obj key value others members bound rest (hscan bound rest (by omega))

/-- The same for the items of an array. -/
theorem scanItems_chars (room : Nat) (item : Json) (others : List Json)
    (h : ItemsSurvive room (item :: others)) :
    ∃ items : List Outline, itemTrees? room items = some (item :: others) ∧
      ∀ bound rest, 2 * (itemsChars (item :: others)).length ≤ bound →
        scanItems bound (itemsChars (item :: others) ++ rest) = (items, some rest) := by
  rw [ItemsSurvive] at h
  rcases scan_chars room item h.1 with ⟨o, htree, hscan⟩
  -- The recursion is on the items: the last is followed by the bracket, every other by a comma.
  cases others with
  | nil =>
      refine ⟨[o], by simp [itemTrees?, htree], fun bound rest hbound => ?_⟩
      have hchars : itemsChars [item] = chars item ++ [']'] := by rw [itemsChars, tailChars]
      rw [hchars, List.length_append, List.length_singleton] at hbound
      rw [hchars, List.append_assoc, List.singleton_append]
      cases bound with
      | zero => omega
      | succ bound =>
          have hitem := hscan bound (']' :: rest) (by omega) (endsNumber_cons (by decide))
          unfold scanItems
          simp only [hitem, skipSpaces_cons (c := ']') (by decide)]
  | cons next more =>
      rcases scanItems_chars room next more h.2 with ⟨items, htrees, hscans⟩
      refine ⟨o :: items, by simp [itemTrees?, htree, htrees], fun bound rest hbound => ?_⟩
      have hchars : itemsChars (item :: next :: more) =
          chars item ++ ',' :: itemsChars (next :: more) := by
        rw [itemsChars, tailChars_cons]
      rw [hchars, List.length_append, List.length_cons] at hbound
      rw [hchars, List.append_assoc, List.cons_append]
      cases bound with
      | zero => omega
      | succ bound =>
          have hitem := hscan bound (',' :: (itemsChars (next :: more) ++ rest)) (by omega)
            (endsNumber_cons (by decide))
          have hmore := hscans bound rest (by omega)
          unfold scanItems
          simp only [hitem, skipSpaces_cons (c := ',') (by decide), hmore]

/-- The same for the members of an object. -/
theorem scanMembers_chars (room : Nat) (key : String) (value : Json)
    (others : List (String × Json)) (h : MembersSurvive room ((key, value) :: others)) :
    ∃ members : List (List Piece × Outline),
      memberTrees? room members = some ((key, value) :: others) ∧
      ∀ bound rest, 2 * (membersChars ((key, value) :: others)).length ≤ bound →
        scanMembers bound (membersChars ((key, value) :: others) ++ rest) =
          (members, some rest) := by
  rw [MembersSurvive] at h
  rcases scan_chars room value h.1 with ⟨o, htree, hscan⟩
  have hkey := scanString_escaped key.toList
  -- As for the items of a list, with the quoted name and the colon before each value.
  cases others with
  | nil =>
      refine ⟨[(key.toList.map pieceOf, o)],
        by simp [memberTrees?, decodeString_pieces, htree], fun bound rest hbound => ?_⟩
      have hchars : membersChars [(key, value)] =
          '"' :: (key.toList.flatMap escapeChar ++ '"' :: ':' :: (chars value ++ ['\x7d'])) := by
        simp [membersChars, memberTailChars, quoteChars]
      rw [hchars] at hbound ⊢
      simp only [List.length_cons, List.length_append, List.length_nil] at hbound
      cases bound with
      | zero => omega
      | succ bound =>
          have hvalue := hscan bound ('\x7d' :: rest) (by omega) (endsNumber_cons (by decide))
          unfold scanMembers
          simp only [List.cons_append, List.append_assoc, List.nil_append,
            skipSpaces_cons (c := '"') (by decide), hkey, skipSpaces_cons (c := ':') (by decide),
            hvalue, skipSpaces_cons (c := '\x7d') (by decide)]
  | cons next more =>
      rcases next with ⟨nextKey, nextValue⟩
      rcases scanMembers_chars room nextKey nextValue more h.2 with ⟨members, htrees, hscans⟩
      refine ⟨(key.toList.map pieceOf, o) :: members,
        by simp [memberTrees?, decodeString_pieces, htree, htrees], fun bound rest hbound => ?_⟩
      have hchars : membersChars ((key, value) :: (nextKey, nextValue) :: more) =
          '"' :: (key.toList.flatMap escapeChar ++ '"' :: ':' ::
            (chars value ++ ',' :: membersChars ((nextKey, nextValue) :: more))) := by
        rw [membersChars, memberTailChars_cons]
        simp [quoteChars]
      rw [hchars] at hbound ⊢
      simp only [List.length_cons, List.length_append] at hbound
      cases bound with
      | zero => omega
      | succ bound =>
          have hvalue := hscan bound (',' :: (membersChars ((nextKey, nextValue) :: more) ++ rest))
            (by omega) (endsNumber_cons (by decide))
          have hmore := hscans bound rest (by omega)
          unfold scanMembers
          simp only [List.cons_append, List.append_assoc,
            skipSpaces_cons (c := '"') (by decide), hkey, skipSpaces_cons (c := ':') (by decide),
            hvalue, skipSpaces_cons (c := ',') (by decide), hmore]

end

end Outline

/-- The text of a tree denotes that tree. -/
theorem parse?_chars (j : Json) (h : j.Survives depthLimit) : parse? j.chars = some j := by
  rcases Outline.scan_chars depthLimit j h with ⟨o, htree, hscan⟩
  have hall := hscan (2 * j.chars.length + 2) [] (by omega) (fun c hc => by cases hc)
  rw [List.append_nil] at hall
  have houtline : Outline.ofChars j.chars = (o, true) := by
    simp only [Outline.ofChars, hall]
    rfl
  unfold parse?
  rw [houtline]
  exact htree

/-! ### Records -/

theorem str_survives (room : Nat) (s : String) : (Json.str s).Survives room := by
  cases room <;> simp only [Survives]

theorem bool_survives (room : Nat) (b : Bool) : (Json.bool b).Survives room := by
  cases room <;> simp only [Survives]

theorem ofNat_survives (room n : Nat) : (Json.ofNat n).Survives room := by
  cases room <;> exact Number.whole_survives (UInt64.ofNat n)

theorem itemsSurvive_iff (room : Nat) (items : List Json) :
    ItemsSurvive room items ↔ ∀ j ∈ items, j.Survives room := by
  induction items with
  | nil => simp [ItemsSurvive]
  | cons item rest ih => rw [ItemsSurvive, ih, List.forall_mem_cons]

theorem membersSurvive_iff (room : Nat) (members : List (String × Json)) :
    MembersSurvive room members ↔ ∀ m ∈ members, m.2.Survives room := by
  induction members with
  | nil => simp [MembersSurvive]
  | cons m rest ih => rw [MembersSurvive, ih, List.forall_mem_cons]

theorem arr_survives (room : Nat) (items : List Json) :
    (Json.arr items).Survives (room + 1) ↔ ∀ j ∈ items, j.Survives room := by
  rw [Survives, itemsSurvive_iff]

/-- A record survives if everything does that is written in it. -/
theorem record_survives (room : Nat) (entries : List (Option (String × Json))) :
    (Json.record entries).Survives (room + 1) ↔
      ∀ entry ∈ entries, ∀ m ∈ entry, m.2.Survives room := by
  rw [record, Survives, membersSurvive_iff]
  simp only [List.mem_filterMap, id_eq]
  exact ⟨fun h entry hentry m hm => h m ⟨entry, hentry, hm⟩, fun h m ⟨entry, hentry, hm⟩ =>
    h entry hentry m hm⟩

theorem field_survives (room : Nat) (key : String) (value : Json) :
    (∀ m ∈ field key value, m.2.Survives room) ↔ value.Survives room := by
  simp [field]

theorem field?_survives (room : Nat) (key : String) (value : Option Json) :
    (∀ m ∈ field? key value, m.2.Survives room) ↔ ∀ v ∈ value, v.Survives room := by
  cases value <;> simp [field?]

end Json

end Switchboard

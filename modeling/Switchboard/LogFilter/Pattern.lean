import Switchboard.Text.Alphanumeric
import Switchboard.Text.Blank
import Switchboard.Text.Numeral

/-!
# Patterns

Regular expressions that the value of a field can be compared with. A filter
keeps a pattern as it is written; what is decided here is which texts are
patterns.

Flags within a pattern change how the rest of their group is read: blanks and
comments are passed over or not, and what is matched are characters or single
bytes. A match consists of whole characters, so bytes that are only parts of
characters cannot be asked for. Where words begin and end is only known for
bytes.

A pattern is written in a place that ends with the first closing brace.
Everything that needs one (counts, and codes and categories in braces) is
therefore incomplete and no pattern, which is why an opening brace has to be
escaped or in a class.

Each reader gives the text after what it has read. The depth of a pattern grows
with every group, class and repetition, and where parts stand side by side.

## Main definitions

* `Pattern.Mode`: What flags change.
* `Pattern.Atom`, `Pattern.escape?`: The smallest parts of a pattern.
* `Pattern.members?`: The members of a class.
* `Pattern.alternatives?`: What stands in a group.
* `Pattern.isPattern`: Whether a text is a pattern.

## Theorems

* `Pattern.Atom.isAllowed_of_isMember`: What may stand in a class may stand outside.
* `Pattern.Mode.setting_nil`: No flags change nothing.
-/

namespace Switchboard

namespace Pattern

/-- How deep a pattern may be. -/
def depthLimit : Nat := 250

/-- The depth of parts side by side: two or more are one deeper than the deepest of them. -/
def sideBySide : List Nat → Nat
  | [] => 0
  | [depth] => depth
  | depths => depths.foldl max 0 + 1

/-- What flags change. -/
structure Mode where
  /-- Whether blanks and comments are passed over. -/
  spaced : Bool
  /-- Whether characters are matched, and not single bytes. -/
  unicode : Bool
  deriving DecidableEq

/-- A text without the blanks and comments at its start. `comment` says that it starts within a
    comment, which ends with its line. -/
def skipSpaced : (comment : Bool) → List Char → List Char
  | _, [] => []
  | true, c :: rest => skipSpaced (c != '\n') rest
  | false, c :: rest =>
    if Text.isBlank c then skipSpaced false rest
    else if c = '#' then skipSpaced true rest
    else c :: rest

namespace Mode

/-- A text without what is passed over at its start. -/
def skip (m : Mode) (cs : List Char) : List Char :=
  if m.spaced then skipSpaced false cs else cs

/-- The characters that a list of flags consists of; the hyphen turns off the flags after it. -/
def flagChars : List Char :=
  ['i', 'm', 's', 'U', 'u', 'R', 'x', '-']

/-- Whether a flag is on, given whether it was before. -/
def isOn (before : Bool) (flag : Char) (flags : List Char) : Bool :=
  let off := flags.dropWhile (· != '-')
  (before || (flags.takeWhile (· != '-')).contains flag) && !off.contains flag

/-- The mode after flags. -/
def setting (m : Mode) (flags : List Char) : Mode :=
  ⟨isOn m.spaced 'x' flags, isOn m.unicode 'u' flags⟩

theorem setting_nil (m : Mode) : m.setting [] = m := by
  simp [setting, isOn]

/-- Whether some characters are a list of flags: none is repeated, and a hyphen turns off
    something. -/
def areFlags (flags : List Char) : Bool :=
  flags.all flagChars.contains && decide flags.Nodup && flags.getLast? != some '-'

end Mode

/-- The smallest parts of a pattern. -/
inductive Atom where
  /-- A character; `byte` says that it is given as the value of one byte. -/
  | char (c : Char) (byte : Bool)
  /-- The digits, the blanks or the characters of words, or all others. -/
  | kind (negated : Bool)
  /-- The characters of a category, or all others. -/
  | category
  /-- Any character. -/
  | any
  /-- The start or the end of a line or of the text. -/
  | edge
  /-- A place where a word begins or ends, or where none does. -/
  | wordEdge
  deriving DecidableEq

namespace Atom

/-- Whether an atom may stand outside of classes. -/
def isAllowed (m : Mode) : Atom → Bool
  | .char c byte => m.unicode || !byte || c.toNat < 0x80
  | .kind negated => m.unicode || !negated
  | .category => m.unicode
  | .any => m.unicode
  | .edge => true
  | .wordEdge => !m.unicode

/-- Whether an atom may be a member of a class. -/
def isMember (m : Mode) : Atom → Bool
  | .char c _ => m.unicode || c.toNat < 0x80
  | .kind negated => m.unicode || !negated
  | .category => m.unicode
  | _ => false

theorem isAllowed_of_isMember (m : Mode) (a : Atom) (h : a.isMember m = true) :
    a.isAllowed m = true := by
  cases a with
  | char c byte =>
      change (m.unicode || decide (c.toNat < 0x80)) = true at h
      change (m.unicode || !byte || decide (c.toNat < 0x80)) = true
      rw [Bool.or_eq_true] at h
      rcases h with h | h
      · rw [h, Bool.true_or, Bool.true_or]
      · rw [h, Bool.or_true]
  | kind negated => exact h
  | category => exact h
  | any => exact absurd h Bool.false_ne_true
  | edge => exact absurd h Bool.false_ne_true
  | wordEdge => exact absurd h Bool.false_ne_true

end Atom

/-! ### Escapes -/

/-- Some digits, with what is passed over before, between and after them left out. -/
def digits? (m : Mode) : (count : Nat) → List Char → Option (List Char × List Char)
  | 0, cs => some ([], m.skip cs)
  | count + 1, cs =>
    match m.skip cs with
    | d :: rest => (digits? m count rest).map fun (ds, after) => (d :: ds, after)
    | [] => none

/-- A character that is given by its code. -/
def code? (m : Mode) (count : Nat) (cs : List Char) : Option (Atom × List Char) :=
  (digits? m count cs).bind fun (ds, after) =>
    (Text.codeChar? ds).map fun c => (.char c (count == 2), after)

/-- The letters of the categories: other, letter, mark, number, punctuation, symbol, separator. -/
def categories : List Char :=
  ['c', 'l', 'm', 'n', 'p', 's', 'z']

/-- A category. -/
def category? (m : Mode) (cs : List Char) : Option (Atom × List Char) :=
  match m.skip cs with
  | c :: rest => if categories.contains c.toLower then some (.category, m.skip rest) else none
  | [] => none

/-- What a letter after a backslash stands for by itself. -/
def letter? : Char → Option Atom
  | 'd' | 's' | 'w' => some (.kind false)
  | 'D' | 'S' | 'W' => some (.kind true)
  | 'A' | 'z' => some .edge
  | 'b' | 'B' | '<' | '>' => some .wordEdge
  | 'a' => some (.char '\x07' false)
  | 'f' => some (.char '\x0c' false)
  | 't' => some (.char '\t' false)
  | 'n' => some (.char '\n' false)
  | 'r' => some (.char '\r' false)
  | 'v' => some (.char '\x0b' false)
  | _ => none

/-- What is written after a backslash. -/
def escape? (m : Mode) : List Char → Option (Atom × List Char)
  | [] => none
  | 'x' :: rest => code? m 2 rest
  | 'u' :: rest => code? m 4 rest
  | 'U' :: rest => code? m 8 rest
  | 'p' :: rest => category? m rest
  | 'P' :: rest => category? m rest
  | c :: rest =>
    match letter? c with
    | some a => some (a, rest)
    -- The signs of ASCII stand for themselves.
    | none => if c.toNat < 0x80 && !c.isAlphanum then some (.char c false, rest) else none

/-! ### Classes -/

/-- A member of a class, or an end of a range of members. -/
def end? (m : Mode) : List Char → Option (Atom × List Char)
  | [] => none
  | '\\' :: rest => escape? m rest
  | c :: rest => some (.char c false, rest)

/-- The text after a range that begins with `first`. -/
def range? (m : Mode) (first : Atom) (cs : List Char) : Option (List Char) :=
  (end? m cs).bind fun (last, after) =>
    match first, last with
    | .char c _, .char d _ =>
      if first.isMember m && last.isMember m && c ≤ d then some after else none
    | _, _ => none

/-- The text after a member or a range. -/
def member? (m : Mode) (cs : List Char) : Option (List Char) :=
  (end? m cs).bind fun (first, after) =>
    let alone := if first.isMember m then some (m.skip after) else none
    match m.skip after with
    | '-' :: rest =>
      match m.skip rest with
      -- A hyphen before the closing bracket or another hyphen begins no range.
      | ']' :: _ => alone
      | '-' :: _ => alone
      | rest => range? m first rest
    | _ => alone

/-- The names of the classes of ASCII. -/
def classNames : List String :=
  ["alnum", "alpha", "ascii", "blank", "cntrl", "digit", "graph", "lower", "print", "punct",
   "space", "upper", "word", "xdigit"]

/-- Whether a named class is negated, and the text after it. -/
def named? : List Char → Option (Bool × List Char)
  | ':' :: rest =>
    let (negated, rest) := match rest with
      | '^' :: more => (true, more)
      | _ => (false, rest)
    let (name, rest) := rest.span (· != ':')
    match rest with
    | ':' :: ']' :: after =>
      if classNames.contains (String.ofList name) then some (negated, after) else none
    | _ => none
  | _ => none

/-- Whether a character stands twice between the two operands of an operation on classes. -/
def isOperator (c : Char) : Bool :=
  c == '&' || c == '-' || c == '~'

/-- The depth of the operands of a class so far and of the members after them. -/
def operands (left : Option Nat) (members : List Nat) : Nat :=
  match left with
  | none => sideBySide members
  | some depth => max depth (sideBySide members) + 1

mutual

/-- A class after its opening bracket. -/
def class? : (bound : Nat) → Mode → List Char → Option (Nat × List Char)
  | 0, _, _ => none
  | bound + 1, m, cs =>
    match m.skip cs with
    -- All characters but some are not all bytes but some.
    | '^' :: rest => if m.unicode then members? bound m true none [] rest else none
    | rest => members? bound m true none [] rest

/-- The members of a class up to its closing bracket. `opening` says that there were only hyphens
    so far; `members` are the depths of the members since the last operation. -/
def members? : (bound : Nat) → Mode → (opening : Bool) → (left : Option Nat) →
    (members : List Nat) → List Char → Option (Nat × List Char)
  | 0, _, _, _, _, _ => none
  | bound + 1, m, opening, left, members, cs =>
    match m.skip cs with
    | [] => none
    | c :: rest =>
      if c = '-' && opening then members? bound m true left (0 :: members) rest
      -- A class is not empty, so a bracket that comes first is a member.
      else if c = ']' && opening && members.isEmpty then members? bound m false left [0] rest
      else if c = ']' then some (operands left members + 1, rest)
      else if c = '[' then
        match named? rest with
        | some (negated, rest) =>
          if negated && !m.unicode then none else members? bound m false left (0 :: members) rest
        | none =>
          (class? bound m rest).bind fun (depth, rest) =>
            members? bound m false left (depth :: members) rest
      else if isOperator c && rest.head? == some c then
        members? bound m false (some (operands left members)) [] rest.tail
      else
        (member? m (c :: rest)).bind fun rest => members? bound m false left (0 :: members) rest

end

/-! ### Groups -/

/-- How a group begins. -/
inductive Opening where
  /-- It only holds flags, which hold for what follows. -/
  | flags (m : Mode)
  /-- It is read in a mode, and may have a name. -/
  | group (m : Mode) (name : Option String)

/-- Whether a character may stand in the name of a group after the first one. -/
def isNameChar (c : Char) : Bool :=
  c == '_' || c == '.' || c == '[' || c == ']' || Text.isAlphanumeric c

/-- The name of a group up to the bracket after it. -/
def name? (cs : List Char) : Option (String × List Char) :=
  match cs.span (· != '>') with
  | (c :: more, _ :: rest) =>
    if (c == '_' || Text.isAlphabetic c) && more.all isNameChar then
      some (String.ofList (c :: more), rest)
    else none
  | _ => none

/-- The flags of a group up to their end. -/
def flags? (m : Mode) (cs : List Char) : Option (Opening × List Char) :=
  let (flags, rest) := cs.span fun c => c != ':' && c != ')'
  if Mode.areFlags flags then
    match rest with
    | ':' :: rest => some (.group (m.setting flags) none, rest)
    | ')' :: rest => if flags.isEmpty then none else some (.flags (m.setting flags), rest)
    | _ => none
  else none

/-- What stands after an opening parenthesis. -/
def opening? (m : Mode) : List Char → Option (Opening × List Char)
  | '?' :: 'P' :: '<' :: rest => (name? rest).map fun (name, rest) => (.group m (some name), rest)
  | '?' :: '<' :: rest => (name? rest).map fun (name, rest) => (.group m (some name), rest)
  | '?' :: rest => flags? m rest
  | rest => some (.group m none, rest)

/-- The names of groups with one more, which has to be new. -/
def withName? (names : List String) : Option String → Option (List String)
  | none => some names
  | some name => if names.contains name then none else some (name :: names)

/-- An atom that stands outside of classes. -/
def atom? (m : Mode) : List Char → Option (Atom × List Char)
  | [] => none
  | '\\' :: rest => escape? m rest
  | '.' :: rest => some (.any, rest)
  | '^' :: rest => some (.edge, rest)
  | '$' :: rest => some (.edge, rest)
  | c :: rest => some (.char c false, rest)

/-- A text without the mark that makes a repetition match as little as possible. -/
def skipLazy : List Char → List Char
  | '?' :: rest => rest
  | cs => cs

/-- What is known of a part of a pattern that was read. -/
structure Extent where
  depth : Nat
  /-- The names of all groups so far. -/
  names : List String
  /-- The text after the part. -/
  rest : List Char

/-- What stands in a group, up to the parenthesis that closes it or the end of the text.
    `branches` are the depths of the alternatives before the current one and `parts` those of the
    parts of it, the last one first; a part that only holds flags has none. -/
def alternatives? : (bound : Nat) → Mode → (names : List String) → (branches : List Nat) →
    (parts : List (Option Nat)) → List Char → Option Extent
  | 0, _, _, _, _, _ => none
  | bound + 1, m, names, branches, parts, cs =>
    let branch := sideBySide (parts.map (·.getD 0))
    match m.skip cs with
    | [] => some ⟨sideBySide (branch :: branches), names, []⟩
    | ')' :: rest => some ⟨sideBySide (branch :: branches), names, ')' :: rest⟩
    | '|' :: rest => alternatives? bound m names (branch :: branches) [] rest
    | '(' :: rest =>
      match opening? m (m.skip rest) with
      | none => none
      | some (.flags m, rest) => alternatives? bound m names branches (none :: parts) rest
      | some (.group inner name, rest) =>
        (withName? names name).bind fun names =>
          match alternatives? bound inner names [] [] rest with
          | some ⟨depth, names, ')' :: rest⟩ =>
            alternatives? bound m names branches (some (depth + 1) :: parts) rest
          | _ => none
    | '[' :: rest =>
      (class? (2 * rest.length + 2) m rest).bind fun (depth, rest) =>
        alternatives? bound m names branches (some depth :: parts) rest
    | '\x7b' :: _ => none
    | c :: rest =>
      if c = '*' || c = '+' || c = '?' then
        match parts with
        | some depth :: parts =>
          alternatives? bound m names branches (some (depth + 1) :: parts) (skipLazy rest)
        | _ => none
      else
        match atom? m (c :: rest) with
        | some (a, rest) =>
          if a.isAllowed m then alternatives? bound m names branches (some 0 :: parts) rest
          else none
        | none => none

/-- Whether a text is a pattern. -/
def isPattern (s : String) : Bool :=
  let cs := s.toList
  match alternatives? (cs.length + 1) ⟨false, true⟩ [] [] [] cs with
  | some ⟨depth, _, []⟩ => depth ≤ depthLimit
  | _ => false

end Pattern

end Switchboard

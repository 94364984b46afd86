import Switchboard.Text.Numeral

/-!
# Quoted TOML Strings

The four kinds of quoted strings: basic ones, in which a backslash starts an
escape, and literal ones, in which it does not; each on one line or, between
three quotation marks, on several.

Every function here starts after the opening marks and gives the content and
the text after the closing marks. On several lines, up to two quotation marks
may stand right before the closing ones, and a backslash at the end of a line
swallows the line break and all blanks after it.

## Main definitions

* `Toml.isForbidden`: The control characters that stand nowhere in a document.
* `Toml.basic`, `Toml.literal`: Strings on one line.
* `Toml.basicLines`, `Toml.literalLines`: Strings on several lines.

## Theorems

* `Toml.literal_plain`: A literal string holds what is written.
-/

namespace Switchboard

namespace Toml

/-- Whether a character stands nowhere in a document: a control character that is neither a
    tabulator nor part of a line break. -/
def isForbidden (c : Char) : Bool :=
  (c.toNat < 0x20 && c != '\t') || c.toNat == 0x7F

/-- The character that a backslash and a letter stand for. -/
def shortEscape? (c : Char) : Option Char :=
  match c with
  | 'b' => some '\x08'
  | 't' => some '\t'
  | 'n' => some '\n'
  | 'f' => some '\x0c'
  | 'r' => some '\r'
  | 'e' => some '\x1b'
  | '"' => some '"'
  | '\\' => some '\\'
  | _ => none

/-- Put a character in front of the content of a string. -/
def prepend (c : Char) (r : Option (List Char × List Char)) : Option (List Char × List Char) :=
  r.map fun (content, after) => (c :: content, after)

/-- A basic string on one line. -/
def basic : List Char → Option (List Char × List Char)
  | [] => none
  | '"' :: rest => some ([], rest)
  | '\\' :: 'x' :: a :: b :: rest => (Text.codeChar? [a, b]).bind fun c => prepend c (basic rest)
  | '\\' :: 'u' :: a :: b :: c :: d :: rest =>
    (Text.codeChar? [a, b, c, d]).bind fun ch => prepend ch (basic rest)
  | '\\' :: 'U' :: a :: b :: c :: d :: e :: f :: g :: h :: rest =>
    (Text.codeChar? [a, b, c, d, e, f, g, h]).bind fun ch => prepend ch (basic rest)
  | '\\' :: c :: rest => (shortEscape? c).bind fun ch => prepend ch (basic rest)
  | c :: rest => if isForbidden c then none else prepend c (basic rest)

/-- A literal string on one line. -/
def literal : List Char → Option (List Char × List Char)
  | [] => none
  | '\x27' :: rest => some ([], rest)
  | c :: rest => if isForbidden c then none else prepend c (literal rest)

theorem literal_plain (cs rest : List Char)
    (h : ∀ c ∈ cs, isForbidden c = false ∧ c ≠ '\x27') :
    literal (cs ++ '\x27' :: rest) = some (cs, rest) := by
  induction cs with
  | nil => rfl
  | cons c cs ih =>
      have hc := h c List.mem_cons_self
      have ih := ih fun d hd => h d (List.mem_cons_of_mem _ hd)
      rw [List.cons_append, literal]
      · simp [hc.1, ih, prepend]
      · exact hc.2

/-- Whether nothing but blanks stands before the next line break. -/
def endsLine : List Char → Bool
  | [] => false
  | '\n' :: _ => true
  | '\r' :: '\n' :: _ => true
  | c :: rest => (c == ' ' || c == '\t') && endsLine rest

/-- The text after a line break at its start, if there is one. -/
def afterBreak : List Char → List Char
  | '\n' :: rest => rest
  | '\r' :: '\n' :: rest => rest
  | cs => cs

/-- Whether a character by itself is swallowed after a backslash at the end of a line. -/
def isGap (c : Char) : Bool :=
  c == ' ' || c == '\t' || c == '\n'

/-- A basic string on several lines. `joining` says that blanks and line breaks are being
    swallowed. -/
def basicLines : (joining : Bool) → List Char → Option (List Char × List Char)
  | _, [] => none
  | _, '"' :: '"' :: '"' :: '"' :: '"' :: rest => some (['"', '"'], rest)
  | _, '"' :: '"' :: '"' :: '"' :: rest => some (['"'], rest)
  | _, '"' :: '"' :: '"' :: rest => some ([], rest)
  | _, '\\' :: 'x' :: a :: b :: rest =>
    (Text.codeChar? [a, b]).bind fun c => prepend c (basicLines false rest)
  | _, '\\' :: 'u' :: a :: b :: c :: d :: rest =>
    (Text.codeChar? [a, b, c, d]).bind fun ch => prepend ch (basicLines false rest)
  | _, '\\' :: 'U' :: a :: b :: c :: d :: e :: f :: g :: h :: rest =>
    (Text.codeChar? [a, b, c, d, e, f, g, h]).bind fun ch => prepend ch (basicLines false rest)
  | _, '\\' :: c :: rest =>
    match shortEscape? c with
    | some ch => prepend ch (basicLines false rest)
    -- What is no escape may be the end of a line, which is swallowed.
    | none => if endsLine (c :: rest) then basicLines true rest else none
  | joining, '\r' :: '\n' :: rest =>
    if joining then basicLines true rest else prepend '\n' (basicLines false rest)
  | joining, c :: rest =>
    if joining && isGap c then basicLines true rest
    else if c != '\n' && isForbidden c then none
    else prepend c (basicLines false rest)

/-- A literal string on several lines. -/
def literalLines : List Char → Option (List Char × List Char)
  | [] => none
  | '\x27' :: '\x27' :: '\x27' :: '\x27' :: '\x27' :: rest => some (['\x27', '\x27'], rest)
  | '\x27' :: '\x27' :: '\x27' :: '\x27' :: rest => some (['\x27'], rest)
  | '\x27' :: '\x27' :: '\x27' :: rest => some ([], rest)
  | '\r' :: '\n' :: rest => prepend '\n' (literalLines rest)
  | c :: rest => if c != '\n' && isForbidden c then none else prepend c (literalLines rest)

end Toml

end Switchboard

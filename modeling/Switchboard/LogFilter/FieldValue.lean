import Switchboard.Binary64.Extended
import Switchboard.LogFilter.Pattern

/-!
# Values of Fields

What a filter asks of the value of a field. The text in the filter decides what
it is: a truth value, a natural number, a negative integer, a floating point
number, or else a pattern. Numbers have one written form, so two ways to write
one number ask for the same.

Values of different kinds are in a fixed order; within a kind numbers are in
the order of their size and patterns in the order of their text.

## Main definitions

* `FieldValue`: The kinds of values.
* `FieldValue.read?`: The value that a text denotes.
* `FieldValue.text`: The written form of a value.
* `FieldValue.order`: The order of values.

## Theorems

* `FieldValue.order_self`: A value is not before or after itself.
-/

namespace Switchboard

/-- What is asked of the value of a field. -/
inductive FieldValue where
  | bool (b : Bool)
  /-- A floating point number. -/
  | double (x : Binary64.Extended)
  /-- A natural number that fits a word. -/
  | word (n : Nat)
  /-- The integer `-n`. -/
  | negative (n : Nat)
  /-- A regular expression that the written value has to match. -/
  | pattern (s : String)
  deriving DecidableEq

namespace FieldValue

/-- The number of natural numbers that fit a word. -/
def wordBound : Nat := Nat.pow 2 64

/-- The largest number whose opposite fits a word. -/
def largestNegative : Nat := Nat.pow 2 63

/-- The magnitude of an integer with a minus sign that fits a word. -/
def negative? : List Char → Option Nat
  | '-' :: digits => (Text.numeral? digits).filter (· ≤ largestNegative)
  | _ => none

/-- The value that a text denotes. -/
def read? (s : String) : Option FieldValue :=
  if s = "true" then some (.bool true)
  else if s = "false" then some (.bool false)
  else
    match Text.word? wordBound s, negative? s.toList, Binary64.Extended.ofChars? s.toList with
    | some n, _, _ => some (.word n)
    | _, some n, _ => some (.negative n)
    | _, _, some x => some (.double x)
    | none, none, none => if Pattern.isPattern s then some (.pattern s) else none

/-- The written form of a value. -/
def text : FieldValue → String
  | .bool b => if b then "true" else "false"
  | .double x => String.ofList x.chars
  | .word n => toString n
  | .negative n => if n = 0 then "0" else "-" ++ toString n
  | .pattern s => s

/-- The kind of a value, its place among numbers and its text as a pattern. -/
def key : FieldValue → Nat × Int × String
  | .bool b => (0, if b then 1 else 0, "")
  | .double x => (1, x.rank, "")
  | .word n => (2, n, "")
  | .negative n => (3, -n, "")
  | .pattern s => (4, 0, s)

/-- The order of values. -/
def order (a b : FieldValue) : Ordering :=
  let (kind, place, s) := a.key
  let (kind', place', s') := b.key
  (compare kind kind').then <| (compare place place').then <| compare s s'

theorem order_self (a : FieldValue) : a.order a = .eq := by
  simp [order]

end FieldValue

end Switchboard

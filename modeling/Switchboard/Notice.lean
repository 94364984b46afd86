import Switchboard.Json.Outline
import Switchboard.Text.Blank
import Switchboard.Text.Digit

/-!
# Reconnect Notices

Some providers report that they are about to try again by failing with a
message such as `Reconnecting... 2/5`. Such a message may be part of a longer
text. Blanks and digits are those of any script.

## Main definitions

* `Notice.startsHere`: A notice at the start of a text.
* `Notice.occursIn`: A notice anywhere in a text.
* `isReconnectNotice`: The same for strings.

## Theorems

* `Notice.occursIn_append_left`: A notice stays one when text is put before it.
-/

namespace Switchboard

namespace Notice

/-- The words a notice starts with. -/
def opening : List Char :=
  ['R', 'e', 'c', 'o', 'n', 'n', 'e', 'c', 't', 'i', 'n', 'g', '.', '.', '.']

/-- Whether a text starts with a digit. -/
def startsWithDigit : List Char → Bool
  | [] => false
  | c :: _ => Text.isDecimalDigit c

/-- Whether a text starts with digits, a slash and a digit. -/
def startsWithCount (cs : List Char) : Bool :=
  startsWithDigit cs &&
    match cs.dropWhile Text.isDecimalDigit with
    | '/' :: rest => startsWithDigit rest
    | _ => false

/-- Whether a text starts with a notice: the opening, blanks or none, and the count. -/
def startsHere (cs : List Char) : Bool :=
  match Json.after? opening cs with
  | some rest => startsWithCount (rest.dropWhile Text.isBlank)
  | none => false

/-- Whether a notice starts at some place of a text. -/
def occursIn : List Char → Bool
  | [] => false
  | c :: rest => startsHere (c :: rest) || occursIn rest

theorem occursIn_append_left (front cs : List Char) (h : occursIn cs = true) :
    occursIn (front ++ cs) = true := by
  induction front with
  | nil => exact h
  | cons c rest ih => simp [occursIn, ih]

end Notice

/-- Whether a message contains a reconnect notice. -/
def isReconnectNotice (message : String) : Bool :=
  Notice.occursIn message.toList

end Switchboard

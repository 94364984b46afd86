import Switchboard.Rpc.Toolbox
import Switchboard.Json.Reader
import Switchboard.Text.Blank

/-!
# Tool Arguments

The arguments of a tool call, read leniently: they may come as an object or as
the text of one, an id may come as a number, and numbers and truth values may
come as text. A text that is blank is as good as none.

An argument may have two names; the first one that has a value counts.

## Main definitions

* `Arguments`: The arguments by name.
* `Arguments.read`: The arguments in a JSON value.
* `Arguments.text?`, `Arguments.firstText?`, `Arguments.requiredText`: Texts and ids.
* `Arguments.flag?`, `Arguments.count?`: Truth values and numbers.

## Theorems

* `Arguments.requiredText_ok`: A required text is there iff one of its names has a value.
-/

namespace Switchboard

/-- The arguments of a call by name. -/
structure Arguments where
  members : List (String × Json)

namespace Arguments

open Rpc (ToolError)

/-- The complaint about arguments that are not an object. -/
def notObject : ToolError :=
  .invalidParams "arguments must be a JSON object" none

/-- The complaint about one argument. -/
def complaint (name message : String) : ToolError :=
  .invalidParams message (some (.obj [("field", .str name)]))

/-- The arguments in a JSON value. -/
def read (j : Json) : Except ToolError Arguments :=
  match j with
  | .obj members => .ok ⟨members⟩
  | .null => .ok ⟨[]⟩
  | .str raw =>
    if Text.allBlank raw then .ok ⟨[]⟩
    else
      match Json.read? raw with
      | some (.obj members) => .ok ⟨members⟩
      | _ => .error notObject
  | _ => .error notObject

/-- The value of an argument. -/
def get? (args : Arguments) (name : String) : Option Json :=
  args.members.lookup name

/-- A text without the blanks at its ends, or a number as text. -/
def text? (args : Arguments) (name : String) : Except ToolError (Option String) :=
  match args.get? name with
  | none | some .null => .ok none
  | some (.str s) => .ok (if Text.allBlank s then none else some (Text.trim s))
  | some (.num n) => .ok (some n.text)
  | some _ => .error (complaint name (name ++ " must be a string"))

/-- The text of the first of some names that has one. -/
def firstText? (args : Arguments) : (names : List String) → Except ToolError (Option String)
  | [] => .ok none
  | name :: rest =>
    match args.text? name with
    | .error e => .error e
    | .ok (some s) => .ok (some s)
    | .ok none => firstText? args rest

/-- A text that has to be there under one of its names. -/
def requiredText (args : Arguments) (name : String) (others : List String) :
    Except ToolError String :=
  match args.firstText? (name :: others) with
  | .error e => .error e
  | .ok (some s) => .ok s
  | .ok none => .error (complaint name (name ++ " is required"))

theorem requiredText_ok (args : Arguments) (name : String) (others : List String) (s : String) :
    args.requiredText name others = .ok s ↔ args.firstText? (name :: others) = .ok (some s) := by
  rw [requiredText]
  split <;> simp_all

/-- The truth value that a text denotes. -/
def flagOfText? (s : String) : Option Bool :=
  let word := (Text.trim s).map Char.toLower
  if word = "true" || word = "1" || word = "yes" then some true
  else if word = "false" || word = "0" || word = "no" then some false
  else none

/-- A truth value, or a text that denotes one. -/
def flag? (args : Arguments) (name : String) : Except ToolError (Option Bool) :=
  let wrong := complaint name (name ++ " must be a boolean")
  match args.get? name with
  | none => .ok none
  | some (.bool b) => .ok (some b)
  | some (.str s) =>
    match flagOfText? s with
    | some b => .ok (some b)
    | none => .error wrong
  | some _ => .error wrong

/-- The number that a value counts, given as a number or as text. -/
def countOf? : Json → Option Nat
  | .num n => n.count?
  | .str s => Text.word? Json.wordBound (Text.trim s)
  | _ => none

/-- A number that counts something. -/
def count? (args : Arguments) (name : String) : Except ToolError (Option Nat) :=
  match args.get? name with
  | none => .ok none
  | some j =>
    match countOf? j with
    | some n => .ok (some n)
    | none => .error (complaint name (name ++ " must be a non-negative integer"))

end Arguments

end Switchboard

import Switchboard.Binary64.Basic

/-!
# TOML Values

What a TOML document denotes: a tree of tables, arrays and scalars.

## Main definitions

* `Toml`: A value.
* `Toml.member?`: The value of a key of a table.
-/

namespace Switchboard

/-- A TOML value. -/
inductive Toml where
  | text (s : String)
  | integer (n : Int)
  /-- A floating point number; infinities and values that are not a number have none. -/
  | real (x : Option Binary64)
  | flag (b : Bool)
  /-- A date, a time or both, as it is written. -/
  | moment (written : String)
  | list (items : List Toml)
  | table (members : List (String × Toml))

namespace Toml

/-- The value of a key of a table. -/
def member? (members : List (String × Toml)) (key : String) : Option Toml :=
  members.lookup key

end Toml

end Switchboard

import Switchboard.Text.Numeral

/-!
# Log Levels

How much is written to the log. A level has a name and a number; both are read,
the name in any case.

## Main definitions

* `LogLevel`: The levels.
* `LogLevel.read?`, `LogLevel.name`: Levels as text.

## Theorems

* `LogLevel.read?_name`: The name of a level denotes it.
-/

namespace Switchboard

/-- How much is let through. -/
inductive LogLevel where
  | off
  | error
  | warn
  | info
  | debug
  | trace
  deriving DecidableEq

namespace LogLevel

/-- The levels, from nothing to everything. -/
def all : List LogLevel :=
  [.off, .error, .warn, .info, .debug, .trace]

/-- The name of a level. -/
def name : LogLevel → String
  | .off => "off"
  | .error => "error"
  | .warn => "warn"
  | .info => "info"
  | .debug => "debug"
  | .trace => "trace"

/-- The level that a number or a name in any case denotes. -/
def read? (s : String) : Option LogLevel :=
  match (Text.word? (Nat.pow 2 64) s).bind fun n => all[n]? with
  | some level => some level
  | none =>
    if s.isEmpty then some .error
    else all.find? fun level => level.name == s.map Char.toLower

theorem read?_name (level : LogLevel) : read? level.name = some level := by
  cases level <;> decide +kernel

end LogLevel

end Switchboard

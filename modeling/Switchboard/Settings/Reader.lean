import Switchboard.Settings.Basic
import Switchboard.Toml.Reader

/-!
# Reading Settings

Settings in the notation TOML. A record is a table, of which unknown keys are
not looked at, or an array of the fields in their declared order, of which
further items are not looked at; what is missing keeps its usual value. A date
or time counts as a table without known keys.

## Main definitions

* `Settings.Source`: The fields of a record in a document.
* `Settings.word`: Reads a number that fits a bound.
* `Settings.ofToml`, `Settings.read?`: The settings in a table and in a text.

## Theorems

* `Settings.ofToml_nil`: A table without keys gives the usual settings.
-/

namespace Switchboard

namespace Settings

/-- The fields of a record in a document, by key or in order. -/
def Source := String → Nat → Option Toml

/-- The fields of the record that a value is. -/
def source? : Toml → Option Source
  | .table members => some fun key _ => Toml.member? members key
  | .list items => some fun _ i => items[i]?
  | .moment _ => some fun _ _ => none
  | _ => none

/-- Reads a field, or takes the value it has if it is missing. -/
def field {α : Type} (source : Source) (key : String) (position : Nat) (read : Toml → Option α)
    (missing : α) : Option α :=
  match source key position with
  | some v => read v
  | none => some missing

/-- Reads a natural number below a bound. -/
def word (bound : Nat) : Toml → Option Nat
  | .integer (.ofNat n) => if n < bound then some n else none
  | _ => none

/-- Whether a value stands for nothing: an empty array or table does. -/
def isNothing : Toml → Bool
  | .list items => items.isEmpty
  | .table members => members.isEmpty
  | _ => false

/-- Reads the kind of a provider: its name, or a table whose only key is the name. -/
def kindOf : Toml → Option ProviderKind
  | .text s => ProviderKind.names.lookup s
  | .table [(name, v)] => if isNothing v then ProviderKind.names.lookup name else none
  | _ => none

/-- Reads the settings for retries. -/
def retryOf (v : Toml) : Option RetrySettings := do
  let source ← source? v
  let usual := standard.retry
  let maxAttempts ← field source "max_attempts" 0 (word (Nat.pow 2 32)) usual.maxAttempts
  let baseDelay ← field source "base_delay_ms" 1 (word (Nat.pow 2 64)) usual.baseDelay
  let maxDelay ← field source "max_delay_ms" 2 (word (Nat.pow 2 64)) usual.maxDelay
  some ⟨maxAttempts, baseDelay, maxDelay⟩

/-- Reads the settings for the provider. -/
def providerOf (v : Toml) : Option ProviderSettings := do
  let source ← source? v
  let usual := standard.provider
  let kind ← field source "kind" 0 kindOf usual.kind
  let echoDelay ← field source "echo_delay_ms" 1 (word (Nat.pow 2 64)) usual.echoDelay
  some ⟨kind, echoDelay⟩

/-- Reads the settings for runs. -/
def maxToolCallsOf (v : Toml) : Option (Option Nat) := do
  let source ← source? v
  field source "max_tool_calls" 0 (fun v => (word (Nat.pow 2 64) v).map some) standard.maxToolCalls

/-- The settings in the table of a document. -/
def ofToml (members : List (String × Toml)) : Option Settings := do
  let source : Source := fun key _ => Toml.member? members key
  let retry ← field source "retry" 0 retryOf standard.retry
  let provider ← field source "provider" 1 providerOf standard.provider
  let maxToolCalls ← field source "runs" 2 maxToolCallsOf standard.maxToolCalls
  some ⟨retry, provider, maxToolCalls⟩

theorem ofToml_nil : ofToml [] = some standard := rfl

/-- The settings in a text. -/
def read? (s : String) : Option Settings :=
  (Toml.read? s).bind ofToml

end Settings

end Switchboard

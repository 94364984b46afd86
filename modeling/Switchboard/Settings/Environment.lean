import Switchboard.LogFilter.Basic
import Switchboard.Settings.Location
import Switchboard.Text.Numeral

/-!
# Settings from the Environment

The variables of the environment that go before the configuration file. A value
that cannot be read is treated as if the variable was not set.

## Main definitions

* `ServerConfig.override`: A configuration with the variables on top.
* `ServerConfig.ofEnvironment`: The configuration that a server is run with.
* `LogFilter.ofEnvironment`: What is written to the log.

## Theorems

* `ServerConfig.override_nothing`: Without variables a configuration stays as it is.
-/

namespace Switchboard

namespace ServerConfig

/-- The value of a variable, or a value to use instead. -/
def setting {α : Type} (env : Environment) (name : String) (read : String → Option α)
    (usual : α) : α :=
  ((env name).bind read).getD usual

/-- Reads a number that fits a word. -/
def count? (s : String) : Option Nat :=
  Text.word? (Nat.pow 2 64) s

/-- Reads a number of seconds as milliseconds. -/
def seconds? (s : String) : Option Nat :=
  (count? s).map (· * 1000)

/-- A configuration with the variables on top. -/
def override (env : Environment) (config : ServerConfig) : ServerConfig :=
  { config with
    bind := setting env "HUDDLE_BIND" Address.read? config.bind
    heartbeat := setting env "HUDDLE_HEARTBEAT_SECS" seconds? config.heartbeat
    idleTimeout := setting env "HUDDLE_IDLE_SECS" seconds? config.idleTimeout
    outboundCapacity := setting env "HUDDLE_OUTBOUND_CAPACITY" count? config.outboundCapacity
    maxToolCalls := setting env "HUDDLE_MAX_TOOL_CALLS" count? config.maxToolCalls
    finalizedMemory := setting env "HUDDLE_FINALIZED_MEMORY" count? config.finalizedMemory }

/-- The configuration that a server is run with: the file on top of what is usual, and the
    variables on top of that. -/
def ofEnvironment (env : Environment) (file : String → Settings.StoredFile) : ServerConfig :=
  ((Settings.loadOrStandard env file).applyTo .standard).override env

theorem override_nothing (config : ServerConfig) : config.override (fun _ => none) = config := rfl

end ServerConfig

/-- The values of the variable that asks for more output. -/
def LogFilter.debugValues : List String :=
  ["1", "true", "TRUE", "yes", "YES"]

/-- What is written to the log: what a variable says, or as much as is usual. -/
def LogFilter.ofEnvironment (env : Environment) : LogFilter :=
  match env "HUDDLE_LOG" <|> env "RUST_LOG" with
  | some s => .ofText s
  | none =>
    if (env "HUDDLE_DEBUG").any LogFilter.debugValues.contains then .ofText "debug"
    else .ofText "info"

end Switchboard

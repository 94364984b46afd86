import Switchboard.Address
import Switchboard.Retry.Basic

/-!
# Settings

What the configuration file can set, and the configuration of a server, which
starts from fixed values and takes over what the file sets. The file may set a
number of attempts of zero or a largest delay below the first one; the retry
policy that is made of it allows one attempt and no shorter delay.

## Main definitions

* `RetrySettings`, `ProviderKind`, `ProviderSettings`, `Settings`: The content of the file.
* `Settings.retryPolicy`: The retry policy of the settings.
* `ServerConfig`: The configuration of a server.
* `Settings.applyTo`: A configuration with the settings on top.

## Theorems

* `Settings.retryPolicy_attempts`: At least one attempt is made.
* `Settings.baseDelay_le_maxDelay`: The largest delay is not below the first one.
-/

namespace Switchboard

/-- What the file says about retries. Delays are in milliseconds. -/
structure RetrySettings where
  maxAttempts : Nat
  baseDelay : Nat
  maxDelay : Nat
  deriving DecidableEq

/-- Who answers prompts. -/
inductive ProviderKind where
  | echo
  | none
  deriving DecidableEq

/-- What the file says about the provider. -/
structure ProviderSettings where
  kind : ProviderKind
  /-- The pause before every word of an echo, in milliseconds. -/
  echoDelay : Nat
  deriving DecidableEq

/-- The content of the configuration file. -/
structure Settings where
  retry : RetrySettings
  provider : ProviderSettings
  /-- How many tool calls are kept for a run; nothing or zero leaves it open. -/
  maxToolCalls : Option Nat
  deriving DecidableEq

/-- The configuration of a server. Times are in milliseconds. -/
structure ServerConfig where
  bind : Address
  /-- The time between two pings. -/
  heartbeat : Nat
  /-- The time without any message after which a connection is closed. -/
  idleTimeout : Nat
  /-- How many frames wait for a connection before further ones are dropped. -/
  outboundCapacity : Nat
  maxToolCalls : Nat
  /-- How many finished runs are remembered. -/
  finalizedMemory : Nat
  retry : RetryPolicy
  deriving DecidableEq

namespace ProviderKind

/-- The names of the providers. -/
def names : List (String × ProviderKind) :=
  [("echo", .echo), ("none", .none)]

/-- The name of a provider. -/
def name : ProviderKind → String
  | .echo => "echo"
  | .none => "none"

theorem lookup_name (k : ProviderKind) : names.lookup k.name = some k := by
  cases k <;> decide

end ProviderKind

namespace Settings

/-- The settings of an empty file. -/
def standard : Settings :=
  ⟨⟨3, 500, 8000⟩, ⟨.echo, 25⟩, none⟩

/-- The retry policy of the settings. -/
def retryPolicy (s : Settings) : RetryPolicy :=
  ⟨max s.retry.maxAttempts 1, s.retry.baseDelay, max s.retry.maxDelay s.retry.baseDelay⟩

theorem retryPolicy_attempts (s : Settings) : 1 ≤ s.retryPolicy.maxAttempts :=
  Nat.le_max_right _ _

theorem baseDelay_le_maxDelay (s : Settings) : s.retryPolicy.baseDelay ≤ s.retryPolicy.maxDelay :=
  Nat.le_max_right _ _

/-- A configuration with the settings on top. -/
def applyTo (s : Settings) (config : ServerConfig) : ServerConfig :=
  { config with
    retry := s.retryPolicy
    maxToolCalls :=
      match s.maxToolCalls with
      | some n => if 0 < n then n else config.maxToolCalls
      | none => config.maxToolCalls }

end Settings

/-- The configuration of a server that is not told otherwise. -/
def ServerConfig.standard : ServerConfig :=
  { bind := ⟨.v4 127 0 0 1, 9810⟩
    heartbeat := 15000
    idleTimeout := 120000
    outboundCapacity := 256
    maxToolCalls := 50
    finalizedMemory := 256
    retry := .standard }

end Switchboard

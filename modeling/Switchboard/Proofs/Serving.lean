import Switchboard.Connection
import Switchboard.Settings.Environment

/-!
# Which Settings Serve Connections

A connection can only be served if there is a time between two pings, if its
mailbox can be made and if the time can be told at which it would be closed. All
three depend on settings that are read from the environment, where every number
that fits a word is accepted; the file does not set them. A mailbox for no frame
at all is made for one frame, but nothing like this is done for the time between
two pings, so that a zero that is asked for stays a zero. Numbers that are too
large stay as they are as well.

So there are settings with which a server comes up and serves nobody, and what
these are is said here by the values of the variables.

## Main definitions

* `ServerConfig.Reads`: A variable is read as a number.
* `ServerConfig.ServesUntil`: Connections are served without fault up to a time.

## Theorems

* `ServerConfig.heartbeat_pos_iff`, `ServerConfig.capacity_le_iff`,
  `ServerConfig.idleTimeout_eq`: The three settings in terms of the variables.
* `ServerConfig.servesUntil_iff`: What a configuration has to satisfy.
* `ServerConfig.serves_connections_iff`: What the environment has to satisfy.
* `ServerConfig.no_heartbeat_serves_nobody`: A setting with which nobody is served.
-/

namespace Switchboard

namespace ServerConfig

/-! ### Settings and variables -/

/-- A variable of the environment is read as a number. -/
def Reads (env : Environment) (name : String) (n : Nat) : Prop :=
  (env name).bind count? = some n

theorem setting_seconds (env : Environment) (name : String) (usual : Nat) :
    setting env name seconds? (usual * 1000) = ((env name).bind count?).getD usual * 1000 := by
  have hread : (env name).bind seconds? = ((env name).bind count?).map (· * 1000) := by
    cases env name <;> rfl
  rw [setting, hread]
  cases (env name).bind count? <;> rfl

section

variable (env : Environment) (file : String → Settings.StoredFile)

theorem heartbeat_pos_iff :
    0 < (ofEnvironment env file).heartbeat ↔ ¬Reads env "HUDDLE_HEARTBEAT_SECS" 0 := by
  have hheartbeat : (ofEnvironment env file).heartbeat =
      ((env "HUDDLE_HEARTBEAT_SECS").bind count?).getD 15 * 1000 := setting_seconds env _ 15
  rw [hheartbeat, Reads]
  cases (env "HUDDLE_HEARTBEAT_SECS").bind count? with
  | none => simp
  | some n =>
      rw [Option.getD_some, Option.some.injEq]
      omega

theorem capacity_le_iff :
    (ofEnvironment env file).outboundCapacity ≤ Connection.largestCapacity ↔
      ∀ n, Reads env "HUDDLE_OUTBOUND_CAPACITY" n → n ≤ Connection.largestCapacity := by
  have hcapacity : (ofEnvironment env file).outboundCapacity =
      ((env "HUDDLE_OUTBOUND_CAPACITY").bind count?).getD 256 := rfl
  rw [hcapacity]
  unfold Reads
  cases (env "HUDDLE_OUTBOUND_CAPACITY").bind count? with
  | none => simp [Connection.largestCapacity]
  | some n => simp

theorem idleTimeout_eq :
    (ofEnvironment env file).idleTimeout =
      ((env "HUDDLE_IDLE_SECS").bind count?).getD 120 * 1000 :=
  setting_seconds env _ 120

end

/-! ### Serving -/

/-- Whether every connection that comes up to a time is served without fault until then: it is
    opened, it has a time between two pings and a mailbox that can be made, and whenever something
    comes in the time can be told at which it would be closed. -/
def ServesUntil (config : ServerConfig) (horizon : Nat) : Prop :=
  ∀ clock, clock ≤ horizon → ∀ s : Coordinator, ∃ c s',
    Connection.open? config clock s = some (c, s') ∧ 0 < c.heartbeat ∧
      (∃ m, s'.hub.mailboxes.get? c.id = some m ∧ 1 ≤ m.capacity ∧
        m.capacity ≤ Connection.largestCapacity) ∧
      c.deadline ≤ Connection.latestTime ∧
      ∀ later, later ≤ horizon → (c.heard later).deadline ≤ Connection.latestTime

theorem servesUntil_iff (config : ServerConfig) (horizon : Nat) :
    config.ServesUntil horizon ↔ 0 < config.heartbeat ∧
      config.outboundCapacity ≤ Connection.largestCapacity ∧
      horizon + config.idleTimeout ≤ Connection.latestTime := by
  constructor
  · intro h
    -- The coordinator that has just started is enough to see that a connection can be served.
    rcases h horizon (Nat.le_refl horizon) (.ofConfig config none) with ⟨c, s', hopen, -⟩
    by_cases hserve : Connection.canServe config horizon = true
    · simpa [Connection.canServe, and_assoc] using hserve
    · rw [Connection.open?, if_neg hserve] at hopen
      exact absurd hopen (by simp)
  · rintro ⟨hheartbeat, hcapacity, hidle⟩ clock hclock s
    -- The three conditions are those of the check that is made when a connection opens.
    have hserve : Connection.canServe config clock = true := by
      simp only [Connection.canServe, Bool.and_eq_true, decide_eq_true_eq]
      exact ⟨⟨hheartbeat, hcapacity⟩, by omega⟩
    rw [Connection.open?, if_pos hserve]
    refine ⟨_, _, rfl, hheartbeat, ⟨.ofCapacity config.outboundCapacity, ?_, ?_, ?_⟩, ?_, ?_⟩
    · simp
    · exact Nat.le_max_right _ _
    · exact Nat.max_le.mpr ⟨hcapacity, by decide⟩
    · exact Nat.le_trans (Nat.add_le_add_right hclock _) hidle
    · exact fun later hlater => Nat.le_trans (Nat.add_le_add_right hlater _) hidle

/-- For every environment and every file: connections are served without fault up to a time if and
    only if the time between two pings is not set to zero, the number of frames that may wait is
    not set to more than a mailbox can be made for, and the time after which a silent connection
    is closed, two minutes if it is not set, is not so long that its end cannot be told. -/
theorem serves_connections_iff (env : Environment) (file : String → Settings.StoredFile)
    (horizon : Nat) :
    (ofEnvironment env file).ServesUntil horizon ↔
      ¬Reads env "HUDDLE_HEARTBEAT_SECS" 0 ∧
      (∀ n, Reads env "HUDDLE_OUTBOUND_CAPACITY" n → n ≤ Connection.largestCapacity) ∧
      horizon + ((env "HUDDLE_IDLE_SECS").bind count?).getD 120 * 1000 ≤
        Connection.latestTime := by
  rw [servesUntil_iff, heartbeat_pos_iff, capacity_le_iff, idleTimeout_eq]

/-- A server that is told to ping all the time serves nobody. -/
theorem no_heartbeat_serves_nobody :
    let env : Environment := fun name => if name = "HUDDLE_HEARTBEAT_SECS" then some "0" else none
    let config := ofEnvironment env fun _ => .absent
    config = { standard with heartbeat := 0 } ∧
      Connection.open? config 0 (.ofConfig config none) = none := by
  intro env config
  have hconfig : config = { standard with heartbeat := 0 } := by decide
  refine ⟨hconfig, ?_⟩
  rw [Connection.open?, hconfig]
  rfl

end ServerConfig

end Switchboard

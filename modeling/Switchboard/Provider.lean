import Switchboard.Clock
import Switchboard.Notice
import Switchboard.ToolCall

/-!
# Providers

A provider answers prompts. One attempt to answer is a turn: the provider
streams events into a channel and ends with the whole text or with an error.

A turn is described by the actions it takes. Some actions heed the cancellation
of the run and give up as soon as they are waiting or about to act; others go
on regardless. A turn is advanced as far as it can go without waiting: it is
held up by a full channel, by a time that has not come, or for good.

## Main definitions

* `ProviderError`, `ProviderEvent`: How a turn fails and what it streams.
* `Turn.Action`, `Turn`: What a provider does in one attempt.
* `TurnRequest`, `Provider`: A provider as a function from requests to turns.
* `Turn.Conditions`, `Turn.Advance`: What a turn finds, and how far it gets.
* `Turn.advance`: Carrying out actions until the turn is held up or ends.

## Theorems

* `Turn.advance_cancelled_heedful`: A heedful turn that finds itself cancelled sends nothing.
-/

namespace Switchboard

/-- How a turn fails. -/
inductive ProviderError where
  /-- Trying again may help. -/
  | transient (message : String)
  /-- Trying again does not help, unless the message is a reconnect notice. -/
  | fatal (message : String)
  /-- The turn was given up because the run was cancelled. -/
  | cancelled
  deriving DecidableEq

namespace ProviderError

/-- Whether another attempt may help. -/
def isRetryable : ProviderError → Bool
  | .transient _ => true
  | .fatal message => isReconnectNotice message
  | .cancelled => false

/-- The words for an error. -/
def message : ProviderError → String
  | .transient m => "transient provider error: " ++ m
  | .fatal m => "provider error: " ++ m
  | .cancelled => "provider turn cancelled"

end ProviderError

/-- What a turn streams. -/
inductive ProviderEvent where
  | delta (text : String)
  | tool (update : ToolUpdate)

/-- One action of a turn. -/
inductive Turn.Action where
  /-- Send an event; a heedful action gives up when the run is cancelled or nobody listens. -/
  | send (event : ProviderEvent) (heedful : Bool)
  /-- Wait for some milliseconds. -/
  | pause (ms : Nat) (heedful : Bool)
  /-- Wait until a point in time, the rest of a pause that has begun. -/
  | waitUntil (time : Nat) (heedful : Bool)
  /-- Wait for the cancellation of the run. -/
  | awaitCancel
  /-- Wait for ever. -/
  | stall

/-- What a provider does in one attempt. -/
structure Turn where
  actions : List Turn.Action
  /-- How the turn ends after its last action. -/
  outcome : Except ProviderError String

/-- What a turn has to answer. -/
structure TurnRequest where
  conversation : String
  run : String
  prompt : String
  /-- The number of the attempt, starting with one. -/
  attempt : Nat

/-- A provider of turns. -/
structure Provider where
  name : String
  turn : TurnRequest → Turn

namespace Turn

/-- What a turn finds when it is advanced. -/
structure Conditions where
  /-- The current time in milliseconds. -/
  now : Nat
  /-- Whether the run was cancelled. -/
  cancelled : Bool
  /-- Whether nobody listens to the channel any more. -/
  closed : Bool

/-- What holds a turn up. -/
inductive Hold where
  | channelFull
  | untilTime (time : Nat) (heedful : Bool)
  | cancellation
  | forever
  deriving DecidableEq

/-- How far a turn got. -/
inductive Advance where
  /-- The turn is held up with this left to do. -/
  | held (rest : List Action) (hold : Hold)
  | ended (outcome : Except ProviderError String)

/-- Carry out actions until the turn is held up or ends. `free` is the number of events the
    channel can still take. The events sent come first in the result. -/
def advance (k : Conditions) (outcome : Except ProviderError String) :
    (free : Nat) → List Action → List ProviderEvent × Advance
  | _, [] => ([], .ended outcome)
  | free, .send event heedful :: rest =>
    if heedful && (k.cancelled || k.closed) then ([], .ended (.error .cancelled))
    -- An event for nobody is lost, and takes no room.
    else if k.closed then advance k outcome free rest
    else
      match free with
      | 0 => ([], .held (.send event heedful :: rest) .channelFull)
      | free + 1 =>
        let (sent, result) := advance k outcome free rest
        (event :: sent, result)
  | free, .pause ms heedful :: rest =>
    if heedful && k.cancelled then ([], .ended (.error .cancelled))
    else if ms = 0 then advance k outcome free rest
    else
      let time := Clock.after k.now ms
      ([], .held (.waitUntil time heedful :: rest) (.untilTime time heedful))
  | free, .waitUntil time heedful :: rest =>
    if heedful && k.cancelled then ([], .ended (.error .cancelled))
    else if time ≤ k.now then advance k outcome free rest
    else ([], .held (.waitUntil time heedful :: rest) (.untilTime time heedful))
  | free, .awaitCancel :: rest =>
    if k.cancelled then advance k outcome free rest
    else ([], .held (.awaitCancel :: rest) .cancellation)
  | _, .stall :: rest => ([], .held (.stall :: rest) .forever)

/-- Whether an action gives up when the run is cancelled. -/
def Action.isHeedful : Action → Bool
  | .send _ heedful => heedful
  | .pause _ heedful => heedful
  | .waitUntil _ heedful => heedful
  | .awaitCancel => false
  | .stall => false

theorem advance_cancelled_heedful (k : Conditions) (outcome : Except ProviderError String)
    (free : Nat) (action : Action) (rest : List Action) (hk : k.cancelled = true)
    (ha : action.isHeedful = true) :
    advance k outcome free (action :: rest) = ([], .ended (.error .cancelled)) := by
  cases action <;> simp_all [advance, Action.isHeedful]

end Turn

end Switchboard

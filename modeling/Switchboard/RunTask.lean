import Switchboard.Lock
import Switchboard.Provider
import Switchboard.Retry.Basic
import Switchboard.Snapshot

/-!
# Run Tasks

What carries out a run: a driver, which lets the provider take turns until one
succeeds or no further one is worth it, and a forwarder, which takes what the
turns stream and hands it on in order. Between the two there is a channel for
every attempt, of bounded capacity; a driver that meets a full channel waits
until the forwarder has taken something out.

The two act one at a time, in any order. A task by itself touches nothing but
itself: what the forwarder hands on is the result of its step.

## Main definitions

* `Channel`: The events of one attempt that were not handed on yet.
* `RunTask.Phase`: Where the driver is.
* `RunTask`: A task.
* `RunTask.drive`: The driver goes on as far as it can.
* `RunTask.forward?`: The forwarder takes one step.
* `RunTask.status?`: How the run ended, if it has.

## Theorems

* `RunTask.forward?_guard`: The forwarder leaves everything but the channels alone.
-/

namespace Switchboard

/-- The events of one attempt that were not handed on yet. -/
structure Channel where
  /-- The number of the attempt. -/
  attempt : Nat
  events : List ProviderEvent
  /-- Whether the attempt is over. -/
  closed : Bool

/-- How many events a channel takes. -/
def Channel.capacity : Nat := 64

/-- Where the driver of a run is. -/
inductive RunTask.Phase where
  /-- It has not begun. -/
  | launched
  /-- A turn is held up with some actions and its outcome still to come. -/
  | attempting (attempt : Nat) (rest : List Turn.Action)
      (outcome : Except ProviderError String) (hold : Turn.Hold)
  /-- It waits for the time of the next attempt. -/
  | resting (attempt : Nat) (time : Nat)
  /-- There will be no further attempt. -/
  | ended (result : Except (RetryFailure ProviderError) String)

/-- What carries out a run. -/
structure RunTask where
  key : RunKey
  prompt : String
  provider : Provider
  /-- The guard of the hold on the conversation. -/
  guard : Guard
  phase : RunTask.Phase
  /-- The channels of the attempts, the one that is being read first. -/
  channels : List Channel
  /-- Whether the forwarder has begun with the first channel. -/
  reading : Bool
  /-- Whether the forwarder has handed on everything and there is nothing more to come. -/
  drained : Bool

/-- What the forwarder hands on. -/
inductive RunTask.Handover where
  /-- Nothing yet. -/
  | nothing
  /-- A further attempt begins. -/
  | restart
  | event (e : ProviderEvent)

namespace RunTask

/-- A task that has not begun. -/
def launch (key : RunKey) (prompt : String) (provider : Provider) (guard : Guard) : RunTask :=
  ⟨key, prompt, provider, guard, .launched, [], false, false⟩

/-- The turn of an attempt. -/
def turn (t : RunTask) (attempt : Nat) : Turn :=
  t.provider.turn ⟨t.key.conversation, t.key.run, t.prompt, attempt⟩

/-- A task with a channel for a new attempt. -/
def opened (t : RunTask) (attempt : Nat) : RunTask :=
  { t with channels := t.channels ++ [⟨attempt, [], false⟩] }

/-- Change the last channel. -/
def onLast (f : Channel → Channel) : List Channel → List Channel
  | [] => []
  | [c] => [f c]
  | c :: rest => c :: onLast f rest

/-- The room in the channel of the current attempt. -/
def room (t : RunTask) : Nat :=
  Channel.capacity - ((t.channels.getLast?.map fun c => c.events.length).getD 0)

/-- A task whose current attempt has streamed more events and may be over. -/
def streamed (t : RunTask) (events : List ProviderEvent) (closed : Bool) : RunTask :=
  { t with
    channels := onLast (fun c => { c with events := c.events ++ events, closed }) t.channels }

/-- Let the turn of an attempt go on with some actions, and begin further attempts if they are
    due at once. `left` limits the number of those. -/
def proceed (policy : RetryPolicy) (k : Turn.Conditions) :
    (left attempt : Nat) → List Turn.Action → Except ProviderError String → RunTask → RunTask
  | left, attempt, actions, outcome, t =>
    match Turn.advance k outcome t.room actions with
    | (events, .held rest hold) =>
      { t.streamed events false with phase := .attempting attempt rest outcome hold }
    | (events, .ended result) =>
      let t := t.streamed events true
      match policy.judge ProviderError.isRetryable k.cancelled attempt result with
      | .ended result => { t with phase := .ended result }
      | .again e delay =>
        -- Without a delay the next attempt begins in the same step.
        if 0 < delay then { t with phase := .resting attempt (Clock.after k.now delay) }
        else
          match left with
          | 0 => { t with phase := .ended (.error (.failed attempt e)) }
          | left + 1 =>
            let turn := t.turn (attempt + 1)
            proceed policy k left (attempt + 1) turn.actions turn.outcome (t.opened (attempt + 1))

/-- Begin an attempt. -/
def begin (policy : RetryPolicy) (k : Turn.Conditions) (attempt : Nat) (t : RunTask) : RunTask :=
  if k.cancelled then { t with phase := .ended (.error .aborted) }
  else
    let turn := t.turn attempt
    proceed policy k (policy.attempts - attempt) attempt turn.actions turn.outcome
      (t.opened attempt)

/-- The driver goes on as far as it can, at a time and with the run cancelled or not. -/
def drive (policy : RetryPolicy) (now : Nat) (cancelled : Bool) (t : RunTask) : RunTask :=
  let k : Turn.Conditions := ⟨now, cancelled, false⟩
  match t.phase with
  | .launched => t.begin policy k 1
  | .attempting attempt rest outcome _ =>
    proceed policy k (policy.attempts - attempt) attempt rest outcome t
  | .resting attempt time =>
    if cancelled then { t with phase := .ended (.error .aborted) }
    else if time ≤ now then t.begin policy k (attempt + 1)
    else t
  | .ended _ => t

/-- The forwarder takes one step, if there is anything to do: it begins with a channel, hands
    on an event or is done with a channel. -/
def forward? (t : RunTask) : Option (Handover × RunTask) :=
  match t.channels with
  | [] => none
  | c :: rest =>
    -- A further attempt replaces the text of the one before.
    if !t.reading then
      some (if 1 < c.attempt then .restart else .nothing, { t with reading := true })
    else
      match c.events with
      | e :: events => some (.event e, { t with channels := { c with events } :: rest })
      | [] => if c.closed then some (.nothing, { t with channels := rest, reading := false })
        else none

/-- Whether there will be no further attempt. -/
def isEnded (t : RunTask) : Bool :=
  match t.phase with
  | .ended _ => true
  | _ => false

/-- Whether the forwarder is done: it has handed on everything and nothing more will come. -/
def isExhausted (t : RunTask) : Bool :=
  t.isEnded && t.channels.isEmpty

/-- Whether the driver waits for room in the channel of its attempt and there is some. -/
def findsRoom (t : RunTask) : Bool :=
  match t.phase with
  | .attempting _ _ _ .channelFull => 0 < t.room
  | _ => false

/-- Whether the driver goes on when the run is cancelled. -/
def heedsCancellation (t : RunTask) : Bool :=
  match t.phase with
  | .attempting _ _ _ (.untilTime _ heedful) => heedful
  | .attempting _ (.send _ heedful :: _) _ .channelFull => heedful
  | .attempting _ _ _ .cancellation => true
  | .resting .. => true
  | _ => false

/-- The time the driver waits for. -/
def wakeTime? (t : RunTask) : Option Nat :=
  match t.phase with
  | .attempting _ _ _ (.untilTime time _) => some time
  | .resting _ time => some time
  | _ => none

/-- How a run ended, given what came of its attempts. -/
def statusOf : Except (RetryFailure ProviderError) String → FinalStatus
  | .ok _ => .completed
  | .error .aborted => .cancelled
  | .error (.failed _ .cancelled) => .cancelled
  | .error (.failed _ _) => .error

/-- How the run ended, once there is no further attempt. -/
def status? (t : RunTask) : Option FinalStatus :=
  match t.phase with
  | .ended result => some (statusOf result)
  | _ => none

theorem forward?_guard (t t' : RunTask) (h : Handover) (hf : t.forward? = some (h, t')) :
    t'.guard = t.guard ∧ t'.key = t.key ∧ t'.phase = t.phase := by
  unfold forward? at hf
  split at hf
  · simp at hf
  · split at hf
    · simp only [Option.some.injEq, Prod.mk.injEq] at hf
      obtain ⟨-, rfl⟩ := hf
      exact ⟨rfl, rfl, rfl⟩
    · split at hf
      · simp only [Option.some.injEq, Prod.mk.injEq] at hf
        obtain ⟨-, rfl⟩ := hf
        exact ⟨rfl, rfl, rfl⟩
      · split at hf
        · simp only [Option.some.injEq, Prod.mk.injEq] at hf
          obtain ⟨-, rfl⟩ := hf
          exact ⟨rfl, rfl, rfl⟩
        · simp at hf

end RunTask

end Switchboard

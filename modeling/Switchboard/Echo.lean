import Switchboard.Provider
import Switchboard.Text.Blank

/-!
# The Echo Provider

A provider that streams the prompt back word by word, with a pause before every
word, inside a tool call that counts the words. Every action heeds the
cancellation of the run.

A turn can also be played alone against a channel that nobody empties, which
shows what it sends up to a point of cancellation.

## Main definitions

* `Echo.chunks`: The deltas of a prompt.
* `Echo.turn`, `Echo.provider`: The turn of a request, and the provider.
* `Turn.Stage`, `Turn.play`: A turn played against an unread channel.
-/

namespace Switchboard

namespace Echo

/-- The deltas of a row of words: the first is bare, the others have a space in front. -/
def chunks : List String → List String
  | [] => []
  | word :: rest => word :: rest.map fun w => " " ++ w

/-- The text of a complete answer. -/
def answer (prompt : String) : String :=
  String.join (chunks (Text.words prompt))

/-- The id of the tool call of a run. -/
def toolId (run : String) : String :=
  run ++ "-echo"

/-- The first update of the tool call. -/
def requesting (run : String) : ToolUpdate :=
  { ToolUpdate.bare (toolId run) with name := some "echo", status := some "requesting" }

/-- The update that says that words are streamed. -/
def streaming (run : String) : ToolUpdate :=
  { ToolUpdate.bare (toolId run) with status := some "running", stage := some "streaming" }

/-- The last update, with the number of words. -/
def done (run : String) (count : Nat) : ToolUpdate :=
  { ToolUpdate.bare (toolId run) with
    status := some "done"
    result := some (.obj [("words", .ofNat count)]) }

/-- A pause and a delta. -/
def spoken (delay : Nat) (chunk : String) : List Turn.Action :=
  [.pause delay true, .send (.delta chunk) true]

/-- The turn that echoes a request. -/
def turn (delay : Nat) (request : TurnRequest) : Turn :=
  let words := Text.words request.prompt
  { actions :=
      [.send (.tool (requesting request.run)) true, .send (.tool (streaming request.run)) true] ++
        (chunks words).flatMap (spoken delay) ++
        [.send (.tool (done request.run words.length)) true]
    outcome := .ok (answer request.prompt) }

/-- The provider that echoes, with a delay before every word in milliseconds. -/
def provider (delay : Nat) : Provider :=
  ⟨"echo", turn delay⟩

end Echo

namespace Turn

/-- Where a turn is played: a channel that nobody empties, and a planned cancellation. -/
structure Stage where
  /-- How many events the channel takes. -/
  capacity : Nat
  /-- Whether the channel is closed from the start. -/
  closed : Bool
  /-- How long after the start the run is cancelled, if it is. -/
  cancelAfter : Option Nat

/-- What a turn has done on a stage: what it sent, how it ended, and when. A turn that never
    ends has no outcome. -/
structure Performance where
  sent : List ProviderEvent
  outcome : Option (Except ProviderError String)
  elapsed : Nat

/-- When the run is cancelled, if it is. -/
def Stage.cancelTime? (stage : Stage) : Option Nat :=
  stage.cancelAfter.map (Clock.after 0)

/-- Whether the run is cancelled at a time. -/
def Stage.cancelledAt (stage : Stage) (now : Nat) : Bool :=
  match stage.cancelTime? with
  | some t => decide (t ≤ now)
  | none => false

/-- The time at which a turn that is held up goes on: at the end of its pause or when it is
    cancelled, whichever is first. -/
def Stage.wake (stage : Stage) (hold : Hold) : Option Nat :=
  match hold with
  | .untilTime time heedful =>
    match stage.cancelTime? with
    | some t => if heedful then some (min time t) else some time
    | none => some time
  | .channelFull => stage.cancelTime?
  | .cancellation => stage.cancelTime?
  | .forever => none

/-- Play a turn. The bound limits how often it may be held up. -/
def play (stage : Stage) (outcome : Except ProviderError String) :
    (bound : Nat) → (now : Nat) → (sent : List ProviderEvent) → List Action → Performance
  | 0, now, sent, _ => ⟨sent, none, now⟩
  | bound + 1, now, sent, actions =>
    let k : Conditions := ⟨now, stage.cancelledAt now, stage.closed⟩
    match advance k outcome (stage.capacity - sent.length) actions with
    | (events, .ended result) => ⟨sent ++ events, some result, now⟩
    | (events, .held rest hold) =>
      match stage.wake hold with
      | none => ⟨sent ++ events, none, now⟩
      | some time => play stage outcome bound (max now time) (sent ++ events) rest

/-- The performance of a whole turn. Every action is held up once at most, and cancellation
    comes once. -/
def perform (stage : Stage) (turn : Turn) : Performance :=
  play stage turn.outcome (2 * turn.actions.length + 2) 0 [] turn.actions

end Turn

end Switchboard

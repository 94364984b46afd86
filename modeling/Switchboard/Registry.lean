import Switchboard.Snapshot
import Switchboard.Table

/-!
# The Registry of Runs

The runs in flight: their text, their tool calls, and what to do when they are
cancelled. A run that ends leaves the registry, and a bounded memory keeps the
names of the runs that left last.

The list of tool calls of a run is bounded. A call that is updated keeps its
place; a new one goes to the end, and the calls that were not touched for the
longest time make room for it.

## Main definitions

* `TrackedCall`, `Run`: A tool call with the time of its last update, and a run.
* `Run.updateTool`: An update of the list of tool calls.
* `Registry`: The runs in flight and the memory of those that left.
* `Registry.register`: Start a run, unless one of that name is in flight.
* `Registry.remove`: Take a run out and remember it.
* `Registry.newest`, `Registry.active`: The newest run of a conversation, and all runs.

## Theorems

* `Registry.remove_eq_none_iff`: Only a run that is in flight can be taken out.
* `Registry.remove_get?`: A run that is taken out is gone, and nothing else is.
-/

namespace Switchboard

/-- A tool call with the time of its last update, counted in updates of the run. -/
structure TrackedCall where
  call : ToolCall
  touched : Nat

/-- A run in flight. What to do when it is cancelled is a value of `κ`. -/
structure Run (κ : Type) where
  startedAt : Timestamp
  /-- The text of the current attempt so far. -/
  text : String
  tools : List TrackedCall
  /-- The number of updates of tool calls so far. -/
  updates : Nat
  onCancel : Option κ

namespace Run

variable {κ : Type}

/-- A run that has just started. -/
def start (now : Timestamp) (onCancel : Option κ) : Run κ :=
  ⟨now, "", [], 0, onCancel⟩

/-- The state of a run, for a follower. -/
def snapshot (run : Run κ) (key : RunKey) : Snapshot :=
  ⟨key, run.startedAt, run.text, run.tools.map (·.call)⟩

/-- The time of the oldest last update. -/
def oldest (tools : List TrackedCall) : Nat :=
  tools.foldl (fun t tool => min t tool.touched) ((tools.head?.map (·.touched)).getD 0)

/-- The calls without the one that was not touched for the longest time. -/
def dropOldest (tools : List TrackedCall) : List TrackedCall :=
  tools.eraseP fun tool => tool.touched = oldest tools

/-- The calls without the `n` that were not touched for the longest time. -/
def dropOldestN : (n : Nat) → List TrackedCall → List TrackedCall
  | 0, tools => tools
  | n + 1, tools => dropOldestN n (dropOldest tools)

/-- Update the list of tool calls, which has at most `most` entries. The state of the call that
    the update is about comes first in the result. -/
def updateTool (most : Nat) (u : ToolUpdate) (run : Run κ) : ToolCall × Run κ :=
  let time := run.updates + 1
  match run.tools.find? fun tool => tool.call.id = u.id with
  | some known =>
    let call := known.call.apply u
    (call, { run with
      updates := time
      tools := run.tools.map fun tool => if tool.call.id = u.id then ⟨call, time⟩ else tool })
  | none =>
    let call := ToolCall.ofUpdate u
    -- Room is made before the new call comes in, so the new one is never dropped.
    let kept := dropOldestN (run.tools.length + 1 - most) run.tools
    (call, { run with updates := time, tools := kept ++ [⟨call, time⟩] })

/-- A run with more text. -/
def append (run : Run κ) (delta : String) : Run κ :=
  { run with text := run.text ++ delta }

/-- A run whose text starts anew. The tool calls stay. -/
def restart (run : Run κ) : Run κ :=
  { run with text := "" }

end Run

/-- The runs in flight and the memory of those that left. -/
structure Registry (κ : Type) where
  runs : Table RunKey (Run κ)
  /-- The names of the runs that left last, the latest at the end. -/
  finalized : List RunKey
  /-- How many tool calls are kept for a run. -/
  mostTools : Nat
  /-- How many names are remembered. -/
  memory : Nat

/-- What registering a run gives. -/
inductive Registration where
  | created (snapshot : Snapshot)
  /-- A run of that name is in flight already; it is left alone. -/
  | existing (snapshot : Snapshot)

namespace Registration

/-- The state of the run. -/
def snapshot : Registration → Snapshot
  | .created s => s
  | .existing s => s

/-- Whether the run is new. -/
def isCreated : Registration → Bool
  | .created _ => true
  | .existing _ => false

end Registration

namespace Registry

variable {κ : Type}

/-- A registry without runs. At least one tool call is kept for a run. -/
def fresh (maxTools memory : Nat) : Registry κ :=
  ⟨.empty, [], max maxTools 1, memory⟩

/-- The state of a run. -/
def get? (r : Registry κ) (key : RunKey) : Option Snapshot :=
  (r.runs.get? key).map (·.snapshot key)

/-- Start a run, unless one of that name is in flight. -/
def register (r : Registry κ) (now : Timestamp) (key : RunKey) (onCancel : Option κ) :
    Registration × Registry κ :=
  match r.runs.get? key with
  | some run => (.existing (run.snapshot key), r)
  | none =>
    let run := Run.start now onCancel
    (.created (run.snapshot key), { r with runs := r.runs.insert key run })

/-- The states of all runs, in the order in which they were registered. -/
def snapshots (r : Registry κ) : List Snapshot :=
  r.runs.entries.map fun (key, run) => run.snapshot key

/-- The later one of two runs; of two that started together the second. -/
def later (a b : Snapshot) : Snapshot :=
  if b.startedAt.before a.startedAt then a else b

/-- The run of a conversation that started last. -/
def newest (r : Registry κ) (conversation : String) : Option Snapshot :=
  (r.snapshots.filter fun s => s.key.conversation = conversation).foldl
    (fun best s => some (match best with
      | some b => later b s
      | none => s))
    none

/-- Whether a run is listed before another, or together with it: by conversation, then by the
    time it started. -/
def listedBefore (a b : Snapshot) : Bool :=
  if a.key.conversation = b.key.conversation then !b.startedAt.before a.startedAt
  else a.key.conversation < b.key.conversation

/-- The states of all runs, sorted by conversation and time. -/
def active (r : Registry κ) : List Snapshot :=
  r.snapshots.mergeSort listedBefore

/-- Change a run. -/
def change (r : Registry κ) (key : RunKey) (f : Run κ → Run κ) : Registry κ :=
  { r with runs := r.runs.update key f }

/-- Update a tool call of a run. -/
def updateTool (r : Registry κ) (key : RunKey) (u : ToolUpdate) : Option ToolCall × Registry κ :=
  match r.runs.get? key with
  | none => (none, r)
  | some run =>
    let (call, run) := run.updateTool r.mostTools u
    (some call, r.change key fun _ => run)

/-- Add to the text of a run. It is said whether there is such a run. -/
def appendDelta (r : Registry κ) (key : RunKey) (delta : String) : Bool × Registry κ :=
  (r.runs.contains key, r.change key (·.append delta))

/-- Let the text of a run start anew. -/
def restart (r : Registry κ) (key : RunKey) : Option Snapshot × Registry κ :=
  let r := r.change key (·.restart)
  (r.get? key, r)

/-- The memory with one more name, without the oldest names that are too many. -/
def remember (memory : Nat) (key : RunKey) (finalized : List RunKey) : List RunKey :=
  if memory = 0 then finalized
  else finalized.drop (finalized.length + 1 - memory) ++ [key]

/-- Take a run out and remember it. -/
def remove (r : Registry κ) (key : RunKey) : Option (Run κ × Registry κ) :=
  (r.runs.get? key).map fun run =>
    (run, { r with
      runs := r.runs.erase key
      finalized := remember r.memory key r.finalized })

/-- Take a run out that ended on its own. It is said whether there was one. -/
def finalize (r : Registry κ) (key : RunKey) : Bool × Registry κ :=
  match r.remove key with
  | some (_, r) => (true, r)
  | none => (false, r)

/-- Whether a run left and is still remembered. -/
def wasFinalized (r : Registry κ) (key : RunKey) : Bool :=
  r.finalized.contains key

/-- The number of runs. -/
def size (r : Registry κ) : Nat :=
  r.runs.size

/-- Forget every run and every name. -/
def reset (r : Registry κ) : Registry κ :=
  { r with runs := .empty, finalized := [] }

theorem remove_eq_none_iff (r : Registry κ) (key : RunKey) :
    r.remove key = none ↔ r.runs.get? key = none := by
  simp [remove]

theorem remove_get? (r r' : Registry κ) (key : RunKey) (run : Run κ)
    (h : r.remove key = some (run, r')) (other : RunKey) :
    r'.runs.get? other = if other = key then none else r.runs.get? other := by
  simp only [remove, Option.map_eq_some_iff, Prod.mk.injEq] at h
  obtain ⟨_, -, -, rfl⟩ := h
  exact Table.get?_erase ..

end Registry

end Switchboard

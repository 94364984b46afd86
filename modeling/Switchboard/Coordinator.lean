import Switchboard.Directory
import Switchboard.Hub.Basic
import Switchboard.Registry
import Switchboard.RunError
import Switchboard.RunTask
import Switchboard.Settings.Basic

/-!
# The Coordinator

Conversations and runs. The coordinator keeps the holds, the registry of runs,
the directory and the hub consistent with each other and carries out the run
tasks. Every surface goes through here.

A run is started under a hold on its conversation, which its task gives back
when it ends. A run that is cancelled leaves at once: it is taken out of the
registry, its task is told, the hold is given back and the end of the run is
announced, whether or not the task has noticed. The task of a run that is gone
changes nothing any more.

The state of the registry and the frame about a change of it are made in one
step, so that whoever joins a topic sees a change either in the snapshot or as
a frame.

## Main definitions

* `Occasion`: The time of an operation, and an id that is not used yet.
* `Callback`: What is done when a run is cancelled.
* `Coordinator`: The state.
* `Coordinator.createConversation`, `Coordinator.archiveConversation`,
  `Coordinator.deleteConversation`: Operations on conversations.
* `Coordinator.startRun`, `Coordinator.cancelRun`: Operations on runs.
* `Coordinator.driveTask`, `Coordinator.forwardTask?`, `Coordinator.finishTask`: Steps of a task.

## Theorems

* `Coordinator.cancelRun_absent`: Cancelling a run that is not registered changes nothing.
-/

namespace Switchboard

/-- The time of an operation, and an id that is not used yet. -/
structure Occasion where
  now : Timestamp
  freshId : String

/-- What is done when a run is cancelled. -/
inductive Callback where
  /-- A task is told. -/
  | task (id : Nat)
  /-- Somebody else is told. -/
  | label (name : String)
  deriving DecidableEq

/-- The state of conversations and runs. -/
structure Coordinator where
  locks : Locks
  registry : Registry Callback
  hub : Hub
  directory : Directory
  /-- Who answers prompts, if anybody does. -/
  provider : Option Provider
  retry : RetryPolicy
  /-- The tasks that have not ended. -/
  tasks : Table Nat RunTask
  /-- The number of tasks there have ever been. -/
  launched : Nat
  /-- What was done because runs were cancelled, in order. -/
  fired : List Callback

namespace Coordinator

/-- The state at the start of a server. -/
def ofConfig (config : ServerConfig) (provider : Option Provider) : Coordinator where
  locks := .fresh
  registry := .fresh config.maxToolCalls config.finalizedMemory
  hub := .fresh
  directory := .fresh
  provider := provider
  retry := config.retry
  tasks := .empty
  launched := 0
  fired := []

/-! ### Events -/

/-- Announce an event of a conversation to those who follow it. -/
def announce (s : Coordinator) (conversation : String) (event : ConversationEvent) :
    Option Nat × Coordinator :=
  let (seq, hub) := s.hub.publish conversation event
  (seq, { s with hub })

/-- Announce an event on the sidebar. -/
def announceSidebar (s : Coordinator) (event : SidebarEvent) : Coordinator :=
  { s with hub := (s.hub.publishSidebar event).2 }

/-! ### Conversations -/

/-- Store a summary and announce it as it was stored. -/
def store (s : Coordinator) (now : Timestamp) (c : Conversation) : Conversation × Coordinator :=
  let directory := s.directory.upsert now c
  let stored := { c with updatedAt := now }
  (stored, ({ s with directory }).announceSidebar (.upsert stored))

/-- Make a conversation, or give an existing one a new title. -/
def createConversation (s : Coordinator) (occasion : Occasion) (id : Option String)
    (title : String) : Conversation × Coordinator :=
  let id := id.getD occasion.freshId
  match s.directory.get? id with
  | some c => s.store occasion.now { c with title }
  | none => s.store occasion.now (.fresh id title occasion.now)

/-- Archive a conversation. -/
def archiveConversation (s : Coordinator) (now : Timestamp) (id : String) :
    Except Conflict Conversation × Coordinator :=
  match s.directory.get? id with
  | none => (.error (.notFound id), s)
  | some c =>
    let (stored, s) := s.store now { c with archived := true }
    (.ok stored, s)

/-- Delete a conversation that is not held. It is held meanwhile. -/
def deleteConversation (s : Coordinator) (id : String) : Except Conflict Unit × Coordinator :=
  match s.locks.acquire? id with
  | none => (.error (.busy id), s)
  | some (guard, locks) =>
    match s.directory.get? id with
    | none => (.error (.notFound id), { s with locks := locks.drop guard })
    | some _ =>
      let s := ({ s with directory := s.directory.delete id }).announceSidebar (.delete id)
      (.ok (), { s with locks := locks.drop guard })

/-- Say in the summary of a conversation which run is in flight. -/
def setActiveRun (s : Coordinator) (now : Timestamp) (conversation : String)
    (run : Option String) : Coordinator :=
  match s.directory.get? conversation with
  | none => s
  | some c => if c.activeRun = run then s else (s.store now { c with activeRun := run }).2

/-- Take a run that has ended out of the summary of its conversation, if it is there. -/
def clearActiveRun (s : Coordinator) (now : Timestamp) (key : RunKey) : Coordinator :=
  if (s.directory.get? key.conversation).bind (·.activeRun) = some key.run then
    s.setActiveRun now key.conversation none
  else s

/-! ### Runs -/

/-- Register a run that has a hold on its conversation, and launch its task. -/
def launch (s : Coordinator) (now : Timestamp) (key : RunKey) (prompt : String)
    (provider : Provider) (guard : Guard) : Registration × Coordinator :=
  let id := s.launched
  let (registration, registry) := s.registry.register now key (some (.task id))
  let s := ({ s with registry }).setActiveRun now key.conversation (some key.run)
  (registration, { s with
    tasks := s.tasks.insert id (.launch key prompt provider guard)
    launched := id + 1 })

/-- Start a run, or find the one of that name. -/
def startRun (s : Coordinator) (occasion : Occasion) (conversation : String)
    (run : Option String) (prompt : String) : Except RunError Registration × Coordinator :=
  match s.provider with
  | none => (.error .noProvider, s)
  | some provider =>
    match s.directory.get? conversation with
    | none => (.error (.conflict (.notFound conversation)), s)
    | some c =>
      if c.archived then (.error (.conflict (.archived conversation)), s)
      else
        let key : RunKey := ⟨conversation, run.getD occasion.freshId⟩
        match s.registry.get? key with
        | some snapshot => (.ok (.existing snapshot), s)
        | none =>
          match s.locks.acquire? conversation with
          | none => (.error (.conflict (.busy conversation)), s)
          | some (guard, locks) =>
            let (registration, s) :=
              ({ s with locks }).launch occasion.now key prompt provider guard
            (.ok registration, s)

/-- Cancel a run. It is said whether it was in flight. -/
def cancelRun (s : Coordinator) (now : Timestamp) (key : RunKey) : Bool × Coordinator :=
  match s.registry.remove key with
  | none => (false, s)
  | some (run, registry) =>
    -- The hold is given back before the frame goes out, so that whoever sees the frame can start
    -- the next run.
    let s := { s with
      registry
      fired := s.fired ++ run.onCancel.toList
      locks := s.locks.release key.conversation }
    let (_, s) := s.announce key.conversation (.turnFinal key.run .cancelled)
    (true, s.clearActiveRun now key)

theorem cancelRun_absent (s : Coordinator) (now : Timestamp) (key : RunKey)
    (h : s.registry.runs.get? key = none) : s.cancelRun now key = (false, s) := by
  have : s.registry.remove key = none := (Registry.remove_eq_none_iff _ _).mpr h
  simp [cancelRun, this]

/-- The newest run of a conversation. -/
def activeRun (s : Coordinator) (conversation : String) : Option Snapshot :=
  s.registry.newest conversation

/-- A connection follows a conversation, if it is there. It is said whether the state of a run
    was sent to it. -/
def subscribe? (s : Coordinator) (connection : Nat) (conversation : String) :
    Option (Bool × Coordinator) :=
  (s.hub.subscribe? connection conversation (s.activeRun conversation)).map fun (sent, hub) =>
    (sent, { s with hub })

/-- A connection follows the sidebar, if it is there. -/
def subscribeSidebar? (s : Coordinator) (connection : Nat) : Option Coordinator :=
  (s.hub.subscribeSidebar? connection).map fun hub => { s with hub }

/-! ### Run tasks -/

/-- Whether a task was told that its run is cancelled. -/
def isCancelled (s : Coordinator) (task : Nat) : Bool :=
  s.fired.contains (.task task)

/-- Let the text of a run start anew and announce it, if the run is in flight. -/
def restartRun (s : Coordinator) (key : RunKey) : Coordinator :=
  match s.registry.restart key with
  | (none, registry) => { s with registry }
  | (some snapshot, registry) =>
    (({ s with registry }).announce key.conversation (.snapshot snapshot)).2

/-- Take in what a provider streamed and announce it, if the run is in flight. -/
def receive (s : Coordinator) (key : RunKey) (e : ProviderEvent) : Coordinator :=
  match e with
  | .delta text =>
    match s.registry.appendDelta key text with
    | (false, registry) => { s with registry }
    | (true, registry) =>
      (({ s with registry }).announce key.conversation (.delta key.run text)).2
  | .tool update =>
    match s.registry.updateTool key update with
    | (none, registry) => { s with registry }
    | (some call, registry) =>
      (({ s with registry }).announce key.conversation (.toolState key.run call)).2

/-- Take in what a forwarder hands on. -/
def takeHandover (s : Coordinator) (key : RunKey) : RunTask.Handover → Coordinator
  | .nothing => s
  | .restart => s.restartRun key
  | .event e => s.receive key e

/-- The driver of a task goes on, at a time in milliseconds. -/
def driveTask (s : Coordinator) (clock : Nat) (id : Nat) : Coordinator :=
  { s with tasks := s.tasks.update id (·.drive s.retry clock (s.isCancelled id)) }

/-- The forwarder of a task takes one step, if there is anything to do. -/
def forwardTask? (s : Coordinator) (id : Nat) : Option Coordinator := do
  let t ← s.tasks.get? id
  let (handover, t') ← t.forward?
  some (({ s with tasks := s.tasks.insert id t' }).takeHandover t.key handover)

/-- The forwarder of a task ends, if it is done. -/
def drainTask (s : Coordinator) (id : Nat) : Coordinator :=
  { s with tasks := s.tasks.update id fun t => { t with drained := t.isExhausted } }

/-- A run ended on its own: it is taken out of the registry, the guard is dropped and, if the
    run was in flight, its end is announced. -/
def finishRun (s : Coordinator) (now : Timestamp) (guard : Guard) (key : RunKey)
    (status : FinalStatus) : Coordinator :=
  -- A guard whose hold is over frees nothing, and a run that is gone is not announced again.
  let (removed, registry) := s.registry.finalize key
  let s := { s with registry, locks := s.locks.drop guard }
  let s := if removed then (s.announce key.conversation (.turnFinal key.run status)).2 else s
  s.clearActiveRun now key

/-- A task ends, if its forwarder has ended. -/
def finishTask (s : Coordinator) (now : Timestamp) (id : Nat) : Coordinator :=
  match s.tasks.get? id with
  | none => s
  | some t =>
    match t.drained, t.status? with
    | true, some status =>
      ({ s with tasks := s.tasks.erase id }).finishRun now t.guard t.key status
    | _, _ => s

end Coordinator

end Switchboard

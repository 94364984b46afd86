import Switchboard.Proofs.Operations
import Switchboard.Proofs.Steps

/-!
# Moves of the Coordinator

Everything that happens to the coordinator, as data: the operations, the steps
of the run tasks and what connections do. A course of events is a list of
moves, and since nothing says which move comes next, a statement about all
lists is one about every way in which operations and tasks can be interleaved.

A move reaches the hub in one of two ways. What a connection does is an action
on the hub by itself; everything else only announces something, and
`Coordinator.news` says what. The announcements of a move depend on the stores
but never on who listens.

## Main definitions

* `Coordinator.Move`: An operation, a step of a task or something a connection does.
* `Coordinator.Move.IsStepOf`: A move that is a step of a task.
* `Coordinator.Move.isOfConnection`: A move that connections make on their own.
* `Coordinator.perform`, `Coordinator.performAll`: The state after a move and after some moves.
* `Coordinator.Reachable`: The states that courses of events lead to.
* `Coordinator.news`, `Coordinator.newsOn`: What a move announces, at all and on a conversation.
* `Coordinator.hubActions`: What a move does to the hub.
* `Coordinator.ActsAlone`: What a connection does to the hub on its own.
* `Coordinator.mandate?`: What a task was launched with.

## Theorems

* `Coordinator.forward_cases`, `Coordinator.finish_cases`: What a step of a task does.
* `Coordinator.perform_of_connection`: What connections do on their own does not leave the hub.
* `Coordinator.mem_hubActions`: A move tells its news, or a connection acts alone.
* `Coordinator.perform_hub`, `Coordinator.performAll_hub`: Moves reach the hub by their actions.
* `Coordinator.mandate?_drive`, `Coordinator.mandate?_forward`, `Coordinator.mandate?_drain`: A
  task keeps its mandate.
-/

namespace Switchboard

/-! ### Moves -/

/-- Something that happens to the coordinator. -/
inductive Coordinator.Move where
  | create (occasion : Occasion) (id : Option String) (title : String)
  | archive (now : Timestamp) (id : String)
  | delete (id : String)
  | start (occasion : Occasion) (conversation : String) (run : Option String) (prompt : String)
  | cancel (now : Timestamp) (key : RunKey)
  /-- The provider will take its turns in another way. Tasks that were launched keep theirs. -/
  | retune (turn : TurnRequest → Turn)
  | drive (clock : Nat) (task : Nat)
  | forward (task : Nat)
  | drain (task : Nat)
  | finish (now : Timestamp) (task : Nat)
  | attach (capacity : Nat)
  | detach (connection : Nat)
  /-- Nobody reads the mailbox of a connection any more. -/
  | close (connection : Nat)
  /-- A connection takes the first frame out of its mailbox. -/
  | take (connection : Nat)
  | followSidebar (connection : Nat)
  | follow (connection : Nat) (conversation : String)

namespace Coordinator

/-- Whether a move is a step of a task. -/
def Move.IsStepOf (task : Nat) : Move → Prop
  | .drive _ id => id = task
  | .forward id => id = task
  | .drain id => id = task
  | .finish _ id => id = task
  | _ => False

/-- The state after a move. A move that has nothing to act on changes nothing. -/
def perform (s : Coordinator) : Move → Coordinator
  | .create occasion id title => (s.createConversation occasion id title).2
  | .archive now id => (s.archiveConversation now id).2
  | .delete id => (s.deleteConversation id).2
  | .start occasion conversation run prompt => (s.startRun occasion conversation run prompt).2
  | .cancel now key => (s.cancelRun now key).2
  | .retune turn => { s with provider := s.provider.map fun p => { p with turn } }
  | .drive clock task => s.driveTask clock task
  | .forward task => (s.forwardTask? task).getD s
  | .drain task => s.drainTask task
  | .finish now task => s.finishTask now task
  | .attach capacity => { s with hub := (s.hub.attach capacity).2 }
  | .detach connection => { s with hub := s.hub.detach connection }
  | .close connection => { s with hub := s.hub.closeMailbox connection }
  | .take connection => ((s.hub.take? connection).map fun p => { s with hub := p.2 }).getD s
  | .followSidebar connection => (s.subscribeSidebar? connection).getD s
  | .follow connection conversation =>
    ((s.subscribe? connection conversation).map (·.2)).getD s

/-- The state after some moves. -/
def performAll (s : Coordinator) (moves : List Move) : Coordinator :=
  moves.foldl perform s

@[simp] theorem performAll_nil (s : Coordinator) : s.performAll [] = s := rfl

@[simp] theorem performAll_cons (s : Coordinator) (m : Move) (moves : List Move) :
    s.performAll (m :: moves) = (s.perform m).performAll moves := rfl

theorem performAll_append (s : Coordinator) (first second : List Move) :
    s.performAll (first ++ second) = (s.performAll first).performAll second :=
  List.foldl_append ..

/-- What holds at the start and outlasts every move holds whatever happened. -/
theorem performAll_induction (P : Coordinator → Prop) (s : Coordinator) (moves : List Move)
    (hstart : P s) (hstep : ∀ s m, P s → P (s.perform m)) : P (s.performAll moves) := by
  induction moves generalizing s with
  | nil => exact hstart
  | cons m rest ih => exact ih (s.perform m) (hstep s m hstart)

/-- The states that courses of events lead to. -/
def Reachable (s : Coordinator) : Prop :=
  ∃ config provider moves, s = (ofConfig config provider).performAll moves

theorem Reachable.performAll {s : Coordinator} (h : s.Reachable) (moves : List Move) :
    (s.performAll moves).Reachable := by
  rcases h with ⟨config, provider, before, rfl⟩
  exact ⟨config, provider, before ++ moves, (performAll_append ..).symm⟩

theorem Reachable.perform {s : Coordinator} (h : s.Reachable) (m : Move) :
    (s.perform m).Reachable :=
  h.performAll [m]

/-! ### Announcements -/

/-- What is announced when a task takes a step of its forwarder. -/
def forwardNews (s : Coordinator) (task : Nat) : List Announcement :=
  match s.tasks.get? task with
  | none => []
  | some t =>
    match t.forward?, s.registry.runs.get? t.key with
    | some (h, _), some run =>
      (run.report s.registry.mostTools t.key h).map (.conversation t.key.conversation)
    | _, _ => []

/-- What is announced when a task ends, if it is done. -/
def finishNews (s : Coordinator) (now : Timestamp) (task : Nat) : List Announcement :=
  match s.tasks.get? task with
  | none => []
  | some t =>
    match t.drained, t.status? with
    | true, some status => s.endNews now t.key status
    | _, _ => []

theorem finishNews_eq (s : Coordinator) (now : Timestamp) (task : Nat) (t : RunTask)
    (status : FinalStatus) (ht : s.tasks.get? task = some t) (hd : t.drained = true)
    (hs : t.status? = some status) : s.finishNews now task = s.endNews now t.key status := by
  simp only [finishNews, ht, hd, hs]

/-- A task that is not there or not done announces nothing. -/
theorem finishNews_idle (s : Coordinator) (now : Timestamp) (task : Nat)
    (h : ∀ t, s.tasks.get? task = some t → t.drained = true → t.status? = none) :
    s.finishNews now task = [] := by
  unfold finishNews
  cases ht : s.tasks.get? task with
  | none => rfl
  | some t =>
      cases hd : t.drained with
      | false => simp only [hd]
      | true => simp only [hd, h t ht hd]

/-- What a move announces. -/
def news (s : Coordinator) : Move → List Announcement
  | .create occasion id title =>
    [.sidebar (.upsert (s.createConversation occasion id title).1)]
  | .archive now id =>
    match (s.archiveConversation now id).1 with
    | .ok stored => [.sidebar (.upsert stored)]
    | .error _ => []
  | .delete id =>
    match (s.deleteConversation id).1 with
    | .ok _ => [.sidebar (.delete id)]
    | .error _ => []
  | .start occasion conversation run prompt =>
    match (s.startRun occasion conversation run prompt).1 with
    | .ok (.created snapshot) =>
      s.directory.markNews occasion.now conversation (some snapshot.key.run)
    | _ => []
  | .cancel now key =>
    if s.registry.runs.contains key then s.endNews now key .cancelled else []
  | .forward task => s.forwardNews task
  | .finish now task => s.finishNews now task
  | _ => []

/-- The forwarder of a task has nothing to do, or hands something on for the run of the task. -/
theorem forward_cases (s : Coordinator) (task : Nat) :
    (s.perform (.forward task) = s ∧ s.news (.forward task) = [] ∧
      ∀ t, s.tasks.get? task = some t → t.forward? = none) ∨
    ∃ t t' h, s.tasks.get? task = some t ∧ t.forward? = some (h, t') ∧
      s.perform (.forward task) =
        ({ s with tasks := s.tasks.insert task t' }).takeHandover t.key h ∧
      s.news (.forward task) =
        match s.registry.runs.get? t.key with
        | some run =>
          (run.report s.registry.mostTools t.key h).map (.conversation t.key.conversation)
        | none => [] := by
  -- The task may be gone, or have nothing to hand over; only otherwise does anything happen.
  cases ht : s.tasks.get? task with
  | none =>
      have hnone : ∀ t, s.tasks.get? task = some t → t.forward? = none :=
        fun t h => absurd (ht.symm.trans h) (by simp)
      refine Or.inl ⟨?_, by simp only [news, forwardNews, ht], by simp⟩
      rw [perform, forwardTask?_none s task hnone, Option.getD_none]
  | some t =>
      cases hf : t.forward? with
      | none =>
          have hnone : ∀ t', s.tasks.get? task = some t' → t'.forward? = none :=
            fun t' h => by rw [← Option.some.inj (ht.symm.trans h), hf]
          refine Or.inl ⟨?_, by simp only [news, forwardNews, ht, hf], by simp [hf]⟩
          rw [perform, forwardTask?_none s task hnone, Option.getD_none]
      | some p =>
          refine Or.inr ⟨t, p.2, p.1, rfl, hf, ?_, ?_⟩
          · rw [perform, forwardTask?_some s task t p.2 p.1 ht hf, Option.getD_some]
          · simp only [news, forwardNews, ht, hf]
            cases s.registry.runs.get? t.key <;> rfl

/-- A task is not done, or it ends. -/
theorem finish_cases (s : Coordinator) (now : Timestamp) (task : Nat) :
    (s.perform (.finish now task) = s ∧ s.news (.finish now task) = []) ∨
    ∃ t status, s.tasks.get? task = some t ∧ t.drained = true ∧ t.status? = some status ∧
      s.perform (.finish now task) = s.finished now task t status ∧
      s.news (.finish now task) = s.endNews now t.key status := by
  by_cases hdone : ∃ t status, s.tasks.get? task = some t ∧ t.drained = true ∧
      t.status? = some status
  · rcases hdone with ⟨t, status, ht, hd, hs⟩
    exact Or.inr ⟨t, status, ht, hd, hs, finishTask_eq s now task t status ht hd hs,
      finishNews_eq s now task t status ht hd hs⟩
  · have hidle := not_done s task hdone
    exact Or.inl ⟨finishTask_idle s now task hidle, finishNews_idle s now task hidle⟩

/-- What a move announces on a conversation. -/
def newsOn (conversation : String) (s : Coordinator) (m : Move) : List ConversationEvent :=
  eventsOn conversation (s.news m)

/-- What some moves announce on a conversation, in order. -/
def newsOnAll (conversation : String) : List Move → Coordinator → List ConversationEvent
  | [], _ => []
  | m :: rest, s => newsOn conversation s m ++ newsOnAll conversation rest (s.perform m)

theorem newsOnAll_singleton (conversation : String) (m : Move) (s : Coordinator) :
    newsOnAll conversation [m] s = newsOn conversation s m :=
  List.append_nil _

theorem newsOnAll_append (conversation : String) (first second : List Move) (s : Coordinator) :
    newsOnAll conversation (first ++ second) s =
      newsOnAll conversation first s ++ newsOnAll conversation second (s.performAll first) := by
  induction first generalizing s with
  | nil => rfl
  | cons m rest ih =>
      rw [List.cons_append, newsOnAll, newsOnAll, ih, List.append_assoc, performAll_cons]

/-- What a move does to the hub. -/
def hubActions (s : Coordinator) : Move → List Hub.Action
  | .attach capacity => [.attach capacity]
  | .detach connection => [.detach connection]
  | .close connection => [.close connection]
  | .take connection => [.take connection]
  | .followSidebar connection => [.followSidebar connection]
  | .follow connection conversation =>
    [.follow connection conversation (s.activeRun conversation)]
  | m => (s.news m).map .tell

/-- What a connection does to the hub on its own. -/
inductive ActsAlone (s : Coordinator) : Move → Hub.Action → Prop where
  | attach (capacity : Nat) : ActsAlone s (.attach capacity) (.attach capacity)
  | detach (connection : Nat) : ActsAlone s (.detach connection) (.detach connection)
  | close (connection : Nat) : ActsAlone s (.close connection) (.close connection)
  | take (connection : Nat) : ActsAlone s (.take connection) (.take connection)
  | followSidebar (connection : Nat) :
      ActsAlone s (.followSidebar connection) (.followSidebar connection)
  /-- Whoever follows a conversation is sent the run that it has then. -/
  | follow (connection : Nat) (conversation : String) :
      ActsAlone s (.follow connection conversation)
        (.follow connection conversation (s.activeRun conversation))

/-- Whatever a move does to the hub, it tells its news or is what a connection does alone. -/
theorem mem_hubActions {s : Coordinator} {m : Move} {a : Hub.Action} (ha : a ∈ s.hubActions m) :
    (∃ announcement ∈ s.news m, a = .tell announcement) ∨ s.ActsAlone m a := by
  cases m with
  | attach capacity => exact Or.inr (List.mem_singleton.mp ha ▸ .attach capacity)
  | detach connection => exact Or.inr (List.mem_singleton.mp ha ▸ .detach connection)
  | close connection => exact Or.inr (List.mem_singleton.mp ha ▸ .close connection)
  | take connection => exact Or.inr (List.mem_singleton.mp ha ▸ .take connection)
  | followSidebar connection => exact Or.inr (List.mem_singleton.mp ha ▸ .followSidebar connection)
  | follow connection conversation =>
      exact Or.inr (List.mem_singleton.mp ha ▸ .follow connection conversation)
  | _ =>
      rcases List.mem_map.mp ha with ⟨announcement, hmem, rfl⟩
      exact Or.inl ⟨announcement, hmem, rfl⟩

/-- Only a move of the connection itself takes it out of the hub. -/
theorem hubActions_stay (s : Coordinator) (connection : Nat) (m : Move)
    (hm : m ≠ .detach connection) :
    ∀ a ∈ s.hubActions m, a ≠ .reset ∧ a ≠ .detach connection := by
  intro a ha
  rcases mem_hubActions ha with ⟨announcement, -, rfl⟩ | halone
  · exact ⟨by simp, by simp⟩
  · cases halone with
    | detach c => exact ⟨by simp, fun hc => hm (by rw [Hub.Action.detach.inj hc])⟩
    | _ => exact ⟨by simp, by simp⟩

/-- Only a move of the connection itself closes its mailbox. -/
theorem hubActions_open (s : Coordinator) (connection : Nat) (m : Move)
    (hm : m ≠ .close connection) : .close connection ∉ s.hubActions m := by
  intro ha
  rcases mem_hubActions ha with ⟨announcement, -, htold⟩ | halone
  · exact absurd htold (by simp)
  · cases halone with
    | close => exact hm rfl

/-- What some moves do to the hub. -/
def hubActionsAll : List Move → Coordinator → List Hub.Action
  | [], _ => []
  | m :: rest, s => s.hubActions m ++ hubActionsAll rest (s.perform m)

theorem hubActionsAll_append (first second : List Move) (s : Coordinator) :
    hubActionsAll (first ++ second) s =
      hubActionsAll first s ++ hubActionsAll second (s.performAll first) := by
  induction first generalizing s with
  | nil => rfl
  | cons m rest ih =>
      rw [List.cons_append, hubActionsAll, hubActionsAll, ih, List.append_assoc, performAll_cons]

/-! ### Moves of connections -/

/-- Whether a move is something that connections do on their own. -/
def Move.isOfConnection : Move → Bool
  | .attach _ | .detach _ | .close _ | .take _ | .followSidebar _ | .follow .. => true
  | _ => false

/-- What connections do on their own does not leave the hub. -/
theorem perform_of_connection (s : Coordinator) (m : Move) (hm : m.isOfConnection = true) :
    ∃ hub, s.perform m = { s with hub } := by
  cases m with
  | attach capacity => exact ⟨_, rfl⟩
  | detach connection => exact ⟨_, rfl⟩
  | close connection => exact ⟨_, rfl⟩
  | take connection =>
      simp only [perform]
      cases s.hub.take? connection <;> exact ⟨_, rfl⟩
  | followSidebar connection =>
      simp only [perform, subscribeSidebar?]
      cases s.hub.subscribeSidebar? connection <;> exact ⟨_, rfl⟩
  | follow connection conversation =>
      simp only [perform, subscribe?]
      cases s.hub.subscribe? connection conversation (s.activeRun conversation) <;> exact ⟨_, rfl⟩
  | _ => exact absurd hm Bool.false_ne_true

/-- What connections do on their own is not announced. -/
theorem news_of_connection (s : Coordinator) (m : Move) (hm : m.isOfConnection = true) :
    s.news m = [] := by
  cases m with
  | attach | detach | close | take | followSidebar | follow => rfl
  | _ => exact absurd hm Bool.false_ne_true

/-! ### What reaches the hub -/

theorem createConversation_hub (s : Coordinator) (occasion : Occasion) (id : Option String)
    (title : String) : (s.createConversation occasion id title).2.hub =
      s.hub.tell (.sidebar (.upsert (s.createConversation occasion id title).1)) := by
  simp only [createConversation]
  cases s.directory.get? (id.getD occasion.freshId) <;> rfl

theorem archiveConversation_hub (s : Coordinator) (now : Timestamp) (id : String) :
    (s.archiveConversation now id).2.hub = s.hub.tellAll (s.news (.archive now id)) := by
  simp only [news, archiveConversation]
  cases s.directory.get? id <;> rfl

theorem deleteConversation_hub (s : Coordinator) (id : String) :
    (s.deleteConversation id).2.hub = s.hub.tellAll (s.news (.delete id)) := by
  simp only [news, deleteConversation]
  cases s.locks.acquire? id with
  | none => rfl
  | some p => cases s.directory.get? id <;> rfl

theorem startRun_hub (s : Coordinator) (occasion : Occasion) (conversation : String)
    (run : Option String) (prompt : String) :
    (s.startRun occasion conversation run prompt).2.hub =
      s.hub.tellAll (s.news (.start occasion conversation run prompt)) := by
  rcases startRun_cases s occasion conversation run prompt with
    ⟨e, h⟩ | ⟨snapshot, -, h⟩ | ⟨provider, c, -, -, -, -, -, h⟩
  · simp only [news, h, Hub.tellAll_nil]
  · simp only [news, h, Hub.tellAll_nil]
  · simp only [news, h]
    rfl

theorem cancelRun_hub (s : Coordinator) (now : Timestamp) (key : RunKey) :
    (s.cancelRun now key).2.hub = s.hub.tellAll (s.news (.cancel now key)) := by
  cases h : s.registry.runs.get? key with
  | none =>
      have hr := Table.contains_of_none h
      simp only [cancelRun_absent s now key h, news, hr, Bool.false_eq_true, if_false,
        Hub.tellAll_nil]
  | some run =>
      have hr := Table.contains_of_some h
      simp only [cancelRun_eq s now key run h, news, hr, if_true, endNews, cancelled,
        List.singleton_append]

theorem takeHandover_hub (s : Coordinator) (key : RunKey) (h : RunTask.Handover) :
    (s.takeHandover key h).hub = s.hub.tellAll
      (match s.registry.runs.get? key with
      | some run => (run.report s.registry.mostTools key h).map (.conversation key.conversation)
      | none => []) := by
  cases hr : s.registry.runs.get? key with
  | none => rw [takeHandover_absent s key h hr, Hub.tellAll_nil]
  | some run => rw [takeHandover_eq s key run h hr, tookIn]

theorem forward_hub (s : Coordinator) (task : Nat) :
    (s.perform (.forward task)).hub = s.hub.tellAll (s.news (.forward task)) := by
  rcases forward_cases s task with ⟨hs, hnews, -⟩ | ⟨t, t', h, -, -, hs, hnews⟩
  · rw [hs, hnews, Hub.tellAll_nil]
  · rw [hs, hnews, takeHandover_hub]

theorem finish_hub (s : Coordinator) (now : Timestamp) (task : Nat) :
    (s.perform (.finish now task)).hub = s.hub.tellAll (s.news (.finish now task)) := by
  rcases finish_cases s now task with ⟨hs, hnews⟩ | ⟨t, status, -, -, -, hs, hnews⟩
  · rw [hs, hnews, Hub.tellAll_nil]
  · rw [hs, hnews, finished]

/-- A move reaches the hub by its actions. -/
theorem perform_hub (s : Coordinator) (m : Move) :
    (s.perform m).hub = s.hub.actAll (s.hubActions m) := by
  cases m with
  | create occasion id title => exact createConversation_hub s occasion id title
  | archive now id => exact (archiveConversation_hub s now id).trans (Hub.actAll_tell ..).symm
  | delete id => exact (deleteConversation_hub s id).trans (Hub.actAll_tell ..).symm
  | start occasion conversation run prompt =>
      exact (startRun_hub s occasion conversation run prompt).trans (Hub.actAll_tell ..).symm
  | cancel now key => exact (cancelRun_hub s now key).trans (Hub.actAll_tell ..).symm
  | retune turn => rfl
  | drive clock task => rfl
  | forward task => exact (forward_hub s task).trans (Hub.actAll_tell ..).symm
  | drain task => rfl
  | finish now task => exact (finish_hub s now task).trans (Hub.actAll_tell ..).symm
  | attach capacity => rfl
  | detach connection => rfl
  | close connection => rfl
  -- What connections do is an action by itself.
  | take connection =>
      simp only [perform, hubActions, Hub.actAll_cons, Hub.actAll_nil, Hub.act]
      cases s.hub.take? connection <;> rfl
  | followSidebar connection =>
      simp only [perform, hubActions, Hub.actAll_cons, Hub.actAll_nil, Hub.act, subscribeSidebar?]
      cases s.hub.subscribeSidebar? connection <;> rfl
  | follow connection conversation =>
      simp only [perform, hubActions, Hub.actAll_cons, Hub.actAll_nil, Hub.act, subscribe?,
        Option.map_map]
      cases s.hub.subscribe? connection conversation (s.activeRun conversation) <;> rfl

theorem performAll_hub (s : Coordinator) (moves : List Move) :
    (s.performAll moves).hub = s.hub.actAll (hubActionsAll moves s) := by
  induction moves generalizing s with
  | nil => rfl
  | cons m rest ih =>
      rw [performAll_cons, ih, hubActionsAll, Hub.actAll_append, perform_hub]

/-! ### What stays -/

/-- What a task was launched with, if it has not ended. -/
def mandate? (s : Coordinator) (task : Nat) : Option RunTask.Mandate :=
  (s.tasks.get? task).map (·.mandate)

theorem mandate?_of_task {s : Coordinator} {task : Nat} {t : RunTask}
    (h : s.tasks.get? task = some t) : s.mandate? task = some t.mandate := by
  rw [mandate?, h, Option.map_some]

theorem mandate?_drive (s : Coordinator) (clock task id : Nat) :
    (s.driveTask clock task).mandate? id = s.mandate? id := by
  simp only [mandate?, driveTask, Table.get?_update]
  by_cases h : id = task
  · simp only [if_pos h, Option.map_map, Function.comp_def, RunTask.drive_mandate]
  · rw [if_neg h]

theorem mandate?_drain (s : Coordinator) (task id : Nat) :
    (s.drainTask task).mandate? id = s.mandate? id := by
  simp only [mandate?, drainTask, Table.get?_update]
  by_cases h : id = task
  · simp only [if_pos h, Option.map_map, Function.comp_def]
    rfl
  · rw [if_neg h]

/-- A task whose forwarder took a step keeps its mandate. -/
theorem mandate?_insert_forward (s : Coordinator) (task id : Nat) (t t' : RunTask)
    (h : RunTask.Handover) (ht : s.tasks.get? task = some t) (hf : t.forward? = some (h, t')) :
    ({ s with tasks := s.tasks.insert task t' } : Coordinator).mandate? id = s.mandate? id := by
  simp only [mandate?, Table.get?_insert]
  by_cases hid : id = task
  · rw [if_pos hid, hid, ht, Option.map_some, Option.map_some, RunTask.forward?_mandate t t' h hf]
  · rw [if_neg hid]

theorem mandate?_forward (s : Coordinator) (task id : Nat) :
    (s.perform (.forward task)).mandate? id = s.mandate? id := by
  rcases forward_cases s task with ⟨hs, -, -⟩ | ⟨t, t', h, ht, hf, hs, -⟩
  · rw [hs]
  · rcases takeHandover_stores { s with tasks := s.tasks.insert task t' } t.key h with
      ⟨registry, hub, htook, -⟩
    rw [hs, htook]
    exact s.mandate?_insert_forward task id t t' h ht hf

end Coordinator

end Switchboard

import Switchboard.Coordinator
import Switchboard.Proofs.Hub.Action

/-!
# Operations in One Equation

What every operation of the coordinator does, as one equation for the state
after it. The operations are written the way they are carried out, one store
after the other; here each of them is a single update of the stores it
touches, so that everything else is seen to stay as it was.

The hub changes by announcements only. `Hub.tellAll` makes a list of them, and
the directory says which ones a change of it calls for. An operation therefore
determines two things that do not depend on who listens: the other stores after
it and the list of announcements.

## Main definitions

* `Directory.active?`: The run that a summary names.
* `Directory.mark`, `Directory.unmark`: The directory after a run became active or ceased to be.
* `Directory.markNews`, `Directory.unmarkNews`: What is announced about it.
* `Run.after`, `Run.report`: A run that goes on, and what is announced about it.
* `Coordinator.started`, `Coordinator.tookIn`, `Coordinator.cancelled`, `Coordinator.finished`: The
  state after a run was started, went on, was cancelled or ended on its own.

## Theorems

* `Coordinator.setActiveRun_eq`, `Coordinator.clearActiveRun_eq`: Changes of a summary.
* `Coordinator.startRun_cases`, `Coordinator.startRun_created`: A run is refused, found or started.
* `Coordinator.takeHandover_eq`, `Coordinator.takeHandover_absent`: A run goes on if it is
  registered.
* `Coordinator.cancelRun_eq`: A run that is registered is cancelled.
* `Coordinator.finishTask_eq`, `Coordinator.finishTask_idle`: A task ends if it is done.
-/

namespace Switchboard

namespace Directory

/-- The run that the summary of a conversation names, if there is one. -/
def active? (d : Directory) (conversation : String) : Option String :=
  (d.get? conversation).bind (·.activeRun)

/-- The directory after a summary was told which run is active. -/
def mark (d : Directory) (now : Timestamp) (conversation : String) (run : Option String) :
    Directory :=
  match d.get? conversation with
  | none => d
  | some c => if c.activeRun = run then d else d.upsert now { c with activeRun := run }

/-- What is announced when a summary is told which run is active. -/
def markNews (d : Directory) (now : Timestamp) (conversation : String) (run : Option String) :
    List Announcement :=
  match d.get? conversation with
  | none => []
  | some c =>
    if c.activeRun = run then []
    else [.sidebar (.upsert { c with activeRun := run, updatedAt := now })]

/-- The directory after a run ceased to be active, if it was. -/
def unmark (d : Directory) (now : Timestamp) (key : RunKey) : Directory :=
  if d.active? key.conversation = some key.run then
    d.mark now key.conversation none
  else d

/-- What is announced when a run ceases to be active, if it was. -/
def unmarkNews (d : Directory) (now : Timestamp) (key : RunKey) : List Announcement :=
  if d.active? key.conversation = some key.run then
    d.markNews now key.conversation none
  else []

end Directory

namespace Run

variable {κ : Type}

/-- A run that has taken in what a forwarder hands on. -/
def after (most : Nat) (run : Run κ) : RunTask.Handover → Run κ
  | .nothing => run
  | .restart => run.restart
  | .event (.delta text) => run.append text
  | .event (.tool update) => (run.updateTool most update).2

/-- What is announced when a run takes in what a forwarder hands on. -/
def report (most : Nat) (key : RunKey) (run : Run κ) : RunTask.Handover → List ConversationEvent
  | .nothing => []
  | .restart => [.snapshot (run.restart.snapshot key)]
  | .event (.delta text) => [.delta key.run text]
  | .event (.tool update) => [.toolState key.run (run.updateTool most update).1]

/-- One announcement at most comes of a handover, and its kind is read off the handover. -/
theorem mem_report {most : Nat} {key : RunKey} {run : Run κ} {h : RunTask.Handover}
    {event : ConversationEvent} (he : event ∈ run.report most key h) :
    (∃ restarted : Run κ, event = .snapshot (restarted.snapshot key)) ∨
      (∃ text, event = .delta key.run text) ∨ ∃ call, event = .toolState key.run call := by
  cases h with
  | nothing => exact absurd he List.not_mem_nil
  | restart => exact .inl ⟨_, List.mem_singleton.mp he⟩
  | event e =>
      cases e with
      | delta text => exact .inr (.inl ⟨_, List.mem_singleton.mp he⟩)
      | tool update => exact .inr (.inr ⟨_, List.mem_singleton.mp he⟩)

theorem after_onCancel (most : Nat) (run : Run κ) (h : RunTask.Handover) :
    (run.after most h).onCancel = run.onCancel := by
  cases h with
  | nothing => rfl
  | restart => rfl
  | event e =>
      cases e with
      | delta text => rfl
      -- A known call is updated, a new one is added.
      | tool update =>
          simp only [after, updateTool]
          split <;> rfl

end Run

namespace Registry

variable {κ : Type}

/-- A registry without a run, which is remembered. -/
def without (r : Registry κ) (key : RunKey) : Registry κ :=
  { r with runs := r.runs.erase key, finalized := remember r.memory key r.finalized }

theorem remove_eq (r : Registry κ) (key : RunKey) :
    r.remove key = (r.runs.get? key).map fun run => (run, r.without key) := rfl

/-- A registry that a run has left, if it was there. -/
def leave (r : Registry κ) (key : RunKey) : Registry κ :=
  if r.runs.contains key then r.without key else r

theorem finalize_eq (r : Registry κ) (key : RunKey) :
    r.finalize key = (r.runs.contains key, r.leave key) := by
  rw [finalize, remove_eq, leave, Table.contains]
  cases r.runs.get? key <;> rfl

theorem get?_without (r : Registry κ) (key other : RunKey) :
    (r.without key).runs.get? other = if other = key then none else r.runs.get? other :=
  Table.get?_erase ..

theorem get?_leave (r : Registry κ) (key other : RunKey) :
    (r.leave key).runs.get? other = if other = key then none else r.runs.get? other := by
  unfold leave
  by_cases hr : r.runs.contains key = true
  · rw [if_pos hr, get?_without]
  · rw [if_neg hr]
    by_cases ho : other = key
    · simp only [Table.contains, Bool.not_eq_true, Option.isSome_eq_false_iff,
        Option.isNone_iff_eq_none] at hr
      rw [if_pos ho, ho, hr]
    · rw [if_neg ho]

theorem change_absent (r : Registry κ) (key : RunKey) (f : Run κ → Run κ)
    (h : r.runs.get? key = none) : r.change key f = r := by
  rw [change, Table.update_id]
  intro a ha
  rw [h] at ha
  exact absurd ha (by simp)

theorem change_const (r : Registry κ) (key : RunKey) (f : Run κ → Run κ) (run : Run κ)
    (h : r.runs.get? key = some run) : r.change key f = r.change key fun _ => f run := by
  rw [change, change, Table.update_congr]
  intro a ha
  rw [h, Option.some.injEq] at ha
  rw [ha]

theorem change_self (r : Registry κ) (key : RunKey) (run : Run κ)
    (h : r.runs.get? key = some run) : (r.change key fun _ => run) = r := by
  rw [change, Table.update_id]
  intro a ha
  rw [h, Option.some.injEq] at ha
  exact ha

end Registry

namespace Locks

/-- The locks after a hold on a conversation was taken. -/
def taking (l : Locks) (conversation : String) : Locks :=
  ⟨l.held.insert conversation (l.taken + 1), l.taken + 1⟩

theorem acquire?_free (l : Locks) (conversation : String) (h : l.held.get? conversation = none) :
    l.acquire? conversation = some (⟨conversation, l.taken + 1⟩, l.taking conversation) := by
  rw [acquire?, isHeld, Table.contains_of_none h, if_neg Bool.false_ne_true]
  rfl

theorem acquire?_held (l : Locks) (conversation : String) (g : Nat)
    (h : l.held.get? conversation = some g) : l.acquire? conversation = none := by
  rw [acquire?, isHeld, Table.contains_of_some h, if_pos rfl]

end Locks

namespace Coordinator

/-! ### Announcements and summaries -/

theorem announce_eq (s : Coordinator) (conversation : String) (event : ConversationEvent) :
    (s.announce conversation event).2 =
      { s with hub := s.hub.tell (.conversation conversation event) } := rfl

theorem store_eq (s : Coordinator) (now : Timestamp) (c : Conversation) :
    s.store now c = ({ c with updatedAt := now },
      { s with
        directory := s.directory.upsert now c
        hub := s.hub.tell (.sidebar (.upsert { c with updatedAt := now })) }) := rfl

theorem setActiveRun_eq (s : Coordinator) (now : Timestamp) (conversation : String)
    (run : Option String) :
    s.setActiveRun now conversation run =
      { s with
        directory := s.directory.mark now conversation run
        hub := s.hub.tellAll (s.directory.markNews now conversation run) } := by
  unfold setActiveRun Directory.mark Directory.markNews
  cases h : s.directory.get? conversation with
  | none => rfl
  | some c =>
      by_cases hc : c.activeRun = run
      · simp only [if_pos hc, Hub.tellAll_nil]
      · simp only [if_neg hc, store_eq, Hub.tellAll_cons, Hub.tellAll_nil]

theorem clearActiveRun_eq (s : Coordinator) (now : Timestamp) (key : RunKey) :
    s.clearActiveRun now key =
      { s with
        directory := s.directory.unmark now key
        hub := s.hub.tellAll (s.directory.unmarkNews now key) } := by
  unfold clearActiveRun Directory.unmark Directory.unmarkNews Directory.active?
  by_cases h : (s.directory.get? key.conversation).bind (·.activeRun) = some key.run
  · simp only [if_pos h, setActiveRun_eq]
  · simp only [if_neg h, Hub.tellAll_nil]

/-! ### Starting -/

/-- The state after a run was registered and its task was launched. -/
def started (s : Coordinator) (now : Timestamp) (key : RunKey) (prompt : String)
    (provider : Provider) : Coordinator :=
  { s with
    locks := s.locks.taking key.conversation
    registry := { s.registry with
      runs := s.registry.runs.insert key (.start now (some (.task s.launched))) }
    hub := s.hub.tellAll (s.directory.markNews now key.conversation (some key.run))
    directory := s.directory.mark now key.conversation (some key.run)
    tasks := s.tasks.insert s.launched
      (.launch key prompt provider ⟨key.conversation, s.locks.taken + 1⟩)
    launched := s.launched + 1 }

theorem launch_eq (s : Coordinator) (now : Timestamp) (key : RunKey) (prompt : String)
    (provider : Provider) (hfree : s.registry.runs.get? key = none) :
    ({ s with locks := s.locks.taking key.conversation }).launch now key prompt provider
        ⟨key.conversation, s.locks.taken + 1⟩ =
      (.created (Run.snapshot (κ := Callback) (.start now none) key),
        s.started now key prompt provider) := by
  simp only [launch, Registry.register, hfree, setActiveRun_eq, started]
  rfl

/-- A run is refused, found or started. Only a run that is started changes anything. -/
theorem startRun_cases (s : Coordinator) (occasion : Occasion) (conversation : String)
    (run : Option String) (prompt : String) :
    (∃ e, s.startRun occasion conversation run prompt = (.error e, s)) ∨
    (∃ snapshot, s.registry.get? ⟨conversation, run.getD occasion.freshId⟩ = some snapshot ∧
      s.startRun occasion conversation run prompt = (.ok (.existing snapshot), s)) ∨
    (∃ provider c, s.provider = some provider ∧ s.directory.get? conversation = some c ∧
      c.archived = false ∧
      s.registry.runs.get? ⟨conversation, run.getD occasion.freshId⟩ = none ∧
      s.locks.held.get? conversation = none ∧
      s.startRun occasion conversation run prompt =
        (.ok (.created (Run.snapshot (κ := Callback) (.start occasion.now none)
            ⟨conversation, run.getD occasion.freshId⟩)),
          s.started occasion.now ⟨conversation, run.getD occasion.freshId⟩ prompt provider)) := by
  unfold startRun
  cases hp : s.provider with
  | none => exact Or.inl ⟨_, rfl⟩
  | some provider =>
      cases hc : s.directory.get? conversation with
      | none => exact Or.inl ⟨_, rfl⟩
      | some c =>
          -- In the order in which the checks are made: archived, found, held.
          by_cases ha : c.archived = true
          · exact Or.inl ⟨.conflict (.archived conversation), by simp only [if_pos ha]⟩
          · simp only [if_neg ha]
            cases hr : s.registry.runs.get? ⟨conversation, run.getD occasion.freshId⟩ with
            | some r =>
                have hg : s.registry.get? ⟨conversation, run.getD occasion.freshId⟩ =
                    some (r.snapshot ⟨conversation, run.getD occasion.freshId⟩) := by
                  rw [Registry.get?, hr, Option.map_some]
                exact Or.inr (Or.inl ⟨_, hg, by rw [hg]⟩)
            | none =>
                have hg : s.registry.get? ⟨conversation, run.getD occasion.freshId⟩ = none := by
                  rw [Registry.get?, hr, Option.map_none]
                cases hl : s.locks.held.get? conversation with
                | some g =>
                    exact Or.inl ⟨_, by rw [hg, Locks.acquire?_held _ _ _ hl]⟩
                | none =>
                    -- All checks are passed, so that the hold is taken and the run launched.
                    have hs := launch_eq s occasion.now
                      ⟨conversation, run.getD occasion.freshId⟩ prompt provider hr
                    rw [hp] at hs
                    refine Or.inr (Or.inr ⟨provider, c, rfl, rfl, by simpa using ha, rfl, rfl, ?_⟩)
                    simp only [hg, Locks.acquire?_free _ _ hl]
                    exact congrArg (fun p => (Except.ok p.1, p.2)) hs

/-- A run that is created is started under the name that is given back. -/
theorem startRun_created (s : Coordinator) (occasion : Occasion) (conversation : String)
    (run : Option String) (prompt : String) (snapshot : Snapshot)
    (h : (s.startRun occasion conversation run prompt).1 = .ok (.created snapshot)) :
    ∃ provider, s.provider = some provider ∧ snapshot.key.conversation = conversation ∧
      (s.startRun occasion conversation run prompt).2 =
        s.started occasion.now snapshot.key prompt provider := by
  rcases startRun_cases s occasion conversation run prompt with
    ⟨e, hs⟩ | ⟨other, -, hs⟩ | ⟨provider, c, hp, -, -, -, -, hs⟩
  · rw [hs] at h
    exact absurd h (by simp)
  · rw [hs] at h
    exact absurd h (by simp)
  · rw [hs] at h ⊢
    have hsnapshot := Registration.created.inj (Except.ok.inj h)
    exact ⟨provider, hp, by rw [← hsnapshot]; rfl, by rw [← hsnapshot]; rfl⟩

/-! ### Going on -/

/-- The state after a registered run took in what its forwarder handed on. -/
def tookIn (s : Coordinator) (key : RunKey) (run : Run Callback) (h : RunTask.Handover) :
    Coordinator :=
  { s with
    registry := s.registry.change key fun _ => run.after s.registry.mostTools h
    hub := s.hub.tellAll ((run.report s.registry.mostTools key h).map
      (.conversation key.conversation)) }

/-- What is handed on for a run that is registered changes the run and is announced. -/
theorem takeHandover_eq (s : Coordinator) (key : RunKey) (run : Run Callback)
    (h : RunTask.Handover) (hr : s.registry.runs.get? key = some run) :
    s.takeHandover key h = s.tookIn key run h := by
  cases h with
  | nothing =>
      simp only [takeHandover, tookIn, Run.after, Run.report, Registry.change_self _ _ _ hr,
        List.map_nil, Hub.tellAll_nil]
  | restart =>
      have hc := Registry.change_const s.registry key (·.restart) run hr
      -- The snapshot is read back after the change.
      have hg : (s.registry.change key fun _ => run.restart).get? key =
          some (run.restart.snapshot key) := by
        rw [Registry.get?, Registry.change, Table.get?_update, if_pos rfl, hr]
        rfl
      simp only [takeHandover, restartRun, Registry.restart, hc, hg, announce_eq]
      rfl
  | event e =>
      cases e with
      | delta text =>
          have hc := Registry.change_const s.registry key (·.append text) run hr
          have hs := Table.contains_of_some hr
          simp only [takeHandover, receive, Registry.appendDelta, hc, hs, announce_eq]
          rfl
      | tool update =>
          simp only [takeHandover, receive, Registry.updateTool, hr, announce_eq]
          rfl

/-- What is handed on for a run that is gone changes nothing. -/
theorem takeHandover_absent (s : Coordinator) (key : RunKey) (h : RunTask.Handover)
    (hr : s.registry.runs.get? key = none) : s.takeHandover key h = s := by
  -- With no run registered the registry takes nothing in and announces nothing.
  cases h with
  | nothing => rfl
  | restart =>
      have hg : s.registry.get? key = none := by rw [Registry.get?, hr, Option.map_none]
      simp only [takeHandover, restartRun, Registry.restart, Registry.change_absent _ _ _ hr, hg]
  | event e =>
      cases e with
      | delta text =>
          have hs := Table.contains_of_none hr
          simp only [takeHandover, receive, Registry.appendDelta,
            Registry.change_absent _ _ _ hr, hs]
      | tool update =>
          simp only [takeHandover, receive, Registry.updateTool, hr]

/-- What is handed on reaches the registry and the hub only. -/
theorem takeHandover_stores (s : Coordinator) (key : RunKey) (h : RunTask.Handover) :
    ∃ registry hub, s.takeHandover key h = { s with registry, hub } ∧
      registry.mostTools = s.registry.mostTools := by
  cases hr : s.registry.runs.get? key with
  | none => exact ⟨s.registry, s.hub, takeHandover_absent s key h hr, rfl⟩
  | some run => exact ⟨_, _, takeHandover_eq s key run h hr, rfl⟩

theorem forwardTask?_none (s : Coordinator) (id : Nat)
    (h : ∀ t, s.tasks.get? id = some t → t.forward? = none) : s.forwardTask? id = none := by
  unfold forwardTask?
  cases ht : s.tasks.get? id with
  | none => rfl
  | some t =>
      have := h t ht
      simp only [Option.bind_eq_bind, Option.bind_some, this, Option.bind_none]

theorem forwardTask?_some (s : Coordinator) (id : Nat) (t t' : RunTask) (h : RunTask.Handover)
    (ht : s.tasks.get? id = some t) (hf : t.forward? = some (h, t')) :
    s.forwardTask? id =
      some (({ s with tasks := s.tasks.insert id t' }).takeHandover t.key h) := by
  unfold forwardTask?
  simp only [Option.bind_eq_bind, ht, Option.bind_some, hf]

/-! ### Ending -/

/-- The state after a registered run was cancelled. -/
def cancelled (s : Coordinator) (now : Timestamp) (key : RunKey) (run : Run Callback) :
    Coordinator :=
  { s with
    registry := s.registry.without key
    fired := s.fired ++ run.onCancel.toList
    locks := s.locks.release key.conversation
    hub := s.hub.tellAll (.conversation key.conversation (.turnFinal key.run .cancelled) ::
      s.directory.unmarkNews now key)
    directory := s.directory.unmark now key }

theorem cancelRun_eq (s : Coordinator) (now : Timestamp) (key : RunKey) (run : Run Callback)
    (h : s.registry.runs.get? key = some run) :
    s.cancelRun now key = (true, s.cancelled now key run) := by
  simp only [cancelRun, Registry.remove_eq, h, Option.map_some, announce_eq, clearActiveRun_eq]
  rfl

/-- What is announced when a run ends on its own. -/
def endNews (s : Coordinator) (now : Timestamp) (key : RunKey) (status : FinalStatus) :
    List Announcement :=
  (if s.registry.runs.contains key then
      [.conversation key.conversation (.turnFinal key.run status)]
    else []) ++ s.directory.unmarkNews now key

/-- The state after the task of a run ended. -/
def finished (s : Coordinator) (now : Timestamp) (id : Nat) (t : RunTask) (status : FinalStatus) :
    Coordinator :=
  { s with
    tasks := s.tasks.erase id
    registry := s.registry.leave t.key
    locks := s.locks.drop t.guard
    hub := s.hub.tellAll (s.endNews now t.key status)
    directory := s.directory.unmark now t.key }

theorem finishTask_eq (s : Coordinator) (now : Timestamp) (id : Nat) (t : RunTask)
    (status : FinalStatus) (ht : s.tasks.get? id = some t) (hd : t.drained = true)
    (hs : t.status? = some status) : s.finishTask now id = s.finished now id t status := by
  unfold finishTask
  simp only [ht, hd, hs, finishRun, Registry.finalize_eq, finished, endNews]
  -- The end is announced only if the run is still registered.
  by_cases hr : s.registry.runs.contains t.key = true
  · simp only [if_pos hr, announce_eq, clearActiveRun_eq, List.singleton_append,
      Hub.tellAll_cons]
  · simp only [if_neg hr, clearActiveRun_eq, List.nil_append]

theorem not_done (s : Coordinator) (id : Nat)
    (h : ¬∃ t status, s.tasks.get? id = some t ∧ t.drained = true ∧ t.status? = some status)
    (t : RunTask) (ht : s.tasks.get? id = some t) (hd : t.drained = true) : t.status? = none := by
  cases hs : t.status? with
  | none => rfl
  | some status => exact absurd ⟨t, status, ht, hd, hs⟩ h

/-- A task that is not there or not done does not end. -/
theorem finishTask_idle (s : Coordinator) (now : Timestamp) (id : Nat)
    (h : ∀ t, s.tasks.get? id = some t → t.drained = true → t.status? = none) :
    s.finishTask now id = s := by
  unfold finishTask
  cases ht : s.tasks.get? id with
  | none => rfl
  | some t =>
      cases hd : t.drained with
      | false => simp only [hd]
      | true => simp only [hd, h t ht hd]

end Coordinator

end Switchboard

import Switchboard.Proofs.Followers
import Switchboard.Proofs.Progress
import Switchboard.Proofs.Registry.ToolList
import Switchboard.Proofs.Tasks

/-!
# What Becomes of a Run

What is announced about a run that is not cancelled is what its provider did,
attempt after attempt, and then the end of the run. `RunTask.transcript` says this
of the provider alone. A text is announced as it is. An update of a tool call is
announced as the state that it makes together with the updates before it, and a
further attempt begins with the states that all the updates so far have made. What
the states are is read off the history of the updates, not off the list that the
run keeps.

That the transcript is announced takes three steps. The task hands on what its
provider does, however its driver and its forwarder take turns; this is the matter
of its outlook. Whatever the task hands on is taken in by the run and announced,
because the run stays registered and nobody else acts in its name.
`Coordinator.Carries` is the invariant of this step: the task is there, was not told
of a cancellation, has a registered run, and is the only one on its conversation.
And the run keeps to the history of the updates that it takes in, so that it
announces the states of that history.

## Main definitions

* `RunTask.announced`: What is announced for some events.
* `RunTask.transcript`: Everything that is announced about a run.
* `Run.reports`, `Run.afterAll`: What a run announces when it takes in what is handed on, and the
  run after it.
* `Coordinator.Carries`: A task carries out a registered run.

## Theorems

* `Run.reports_script`: What a run announces from its start on is its transcript.
* `Coordinator.Carries.perform`: A move lets the task take a step or end.
* `Coordinator.Carries.performAll`: What some moves announce is what the task handed on.
* `Coordinator.Carries.ends`: A task whose turns return can be brought to its end.
* `Coordinator.provider_on_wire`: What is announced about a run is what its provider did.
-/

namespace Switchboard

namespace Run

variable {κ : Type}

/-- What is announced when a run takes in everything that is handed on. -/
def reports (most : Nat) (key : RunKey) : Run κ → List RunTask.Handover → List ConversationEvent
  | _, [] => []
  | run, h :: rest => run.report most key h ++ reports most key (run.after most h) rest

/-- A run that has taken in everything that is handed on. -/
def afterAll (most : Nat) (run : Run κ) (handovers : List RunTask.Handover) : Run κ :=
  handovers.foldl (after most) run

theorem reports_append (most : Nat) (key : RunKey) (run : Run κ)
    (first second : List RunTask.Handover) :
    run.reports most key (first ++ second) =
      run.reports most key first ++ (run.afterAll most first).reports most key second := by
  induction first generalizing run with
  | nil => rfl
  | cons h rest ih =>
      rw [List.cons_append, reports, reports, ih, List.append_assoc]
      rfl

theorem reports_told (most : Nat) (key : RunKey) (run : Run κ) (h : RunTask.Handover) :
    run.reports most key h.told = run.report most key h := by
  cases h with
  | nothing => rfl
  | restart => exact List.append_nil _
  | event e => exact List.append_nil _

theorem afterAll_told (most : Nat) (run : Run κ) (h : RunTask.Handover) :
    run.afterAll most h.told = run.after most h := by
  cases h <;> rfl

theorem afterAll_append (most : Nat) (run : Run κ) (first second : List RunTask.Handover) :
    run.afterAll most (first ++ second) = (run.afterAll most first).afterAll most second :=
  List.foldl_append ..

end Run

/-! ### What is announced, told by the provider -/

/-- The update of a tool call that an event is, if it is one. -/
def ProviderEvent.update? : ProviderEvent → Option ToolUpdate
  | .delta _ => none
  | .tool update => some update

namespace RunTask

section

variable (most : Nat) (key : RunKey) (startedAt : Timestamp) (turn : Nat → Turn)

/-- What is announced for some events, after some updates of tool calls: a text as it is, and for
    an update the state that all the updates so far make of its call. -/
def announced : (us : List ToolUpdate) → List ProviderEvent → List ConversationEvent
  | _, [] => []
  | us, .delta text :: rest => .delta key.run text :: announced us rest
  | us, .tool u :: rest =>
      .toolState key.run (ToolUpdate.state most (us ++ [u]) u.id) :: announced (us ++ [u]) rest

/-- The updates of tool calls in an attempt. -/
def updatesIn (attempt : Nat) : List ToolUpdate :=
  (Turn.sent (turn attempt).actions).filterMap (·.update?)

/-- The updates of tool calls in the attempts before one. -/
def updatesBefore (attempt : Nat) : List ToolUpdate :=
  (List.range' 1 (attempt - 1)).flatMap (updatesIn turn)

/-- What is announced for a further attempt: the run without a text and with the states of its
    calls so far, and what is streamed then. -/
def announcedAgain (attempt : Nat) : List ConversationEvent :=
  .snapshot ⟨key, startedAt, "", ToolUpdate.listed most (updatesBefore turn attempt)⟩ ::
    announced most key (updatesBefore turn attempt) (Turn.sent (turn attempt).actions)

/-- Everything that is announced about a run whose attempts end with the last one. -/
def transcript (last : Nat) : List ConversationEvent :=
  announced most key [] (Turn.sent (turn 1).actions) ++
    (List.range' 2 (last - 1)).flatMap (announcedAgain most key startedAt turn) ++
    [.turnFinal key.run (statusAfter (turn last).outcome)]

theorem updatesBefore_succ (attempt : Nat) (hpos : 0 < attempt) :
    updatesBefore turn (attempt + 1) = updatesBefore turn attempt ++ updatesIn turn attempt := by
  obtain ⟨before, rfl⟩ : ∃ before, attempt = before + 1 := ⟨attempt - 1, by omega⟩
  rw [updatesBefore, Nat.add_sub_cancel, List.range'_1_concat, List.flatMap_append,
    List.flatMap_singleton, Nat.add_comm 1 before]
  rfl

end

end RunTask

namespace Run

variable {κ : Type} {most : Nat} {run : Run κ}

/-- A run that keeps to a history announces some events as the history says, and keeps to it. -/
theorem reports_events (key : RunKey) (us : List ToolUpdate) (h : run.Follows most us)
    (hmost : 0 < most) (events : List ProviderEvent) :
    run.reports most key (events.map .event) = RunTask.announced most key us events ∧
      (run.afterAll most (events.map .event)).Follows most
        (us ++ events.filterMap (·.update?)) ∧
      (run.afterAll most (events.map .event)).startedAt = run.startedAt := by
  induction events generalizing run us with
  | nil => exact ⟨rfl, (List.append_nil us).symm ▸ h, rfl⟩
  | cons event rest ih =>
      cases event with
      | delta text =>
          rcases ih us (h.append text) with ⟨hreports, hfollows, hstarted⟩
          refine ⟨?_, hfollows, hstarted⟩
          rw [List.map_cons, reports, RunTask.announced, ← hreports]
          rfl
      -- The history has one more update, and what is reported is the state it makes.
      | tool u =>
          rcases ih (us ++ [u]) (h.updateTool u hmost) with ⟨hreports, hfollows, hstarted⟩
          refine ⟨?_, ?_, hstarted.trans (run.updateTool_startedAt most u)⟩
          · rw [List.map_cons, reports, RunTask.announced, ← hreports, ← h.reported_eq u hmost]
            rfl
          · rw [List.append_assoc] at hfollows
            exact hfollows

/-- The same for some further attempts, each of which begins with the state of the run. -/
theorem reports_further (key : RunKey) (turn : Nat → Turn) (first count : Nat) (hpos : 0 < first)
    (h : run.Follows most (RunTask.updatesBefore turn first)) (hmost : 0 < most) :
    run.reports most key ((List.range' first count).flatMap (RunTask.further turn)) =
      (List.range' first count).flatMap
        (RunTask.announcedAgain most key run.startedAt turn) := by
  -- The induction is on the attempts; each starts from the list that the updates before it left.
  induction count generalizing run first with
  | zero => rfl
  | succ count ih =>
      rcases reports_events key _ h.restart hmost (Turn.sent (turn first).actions) with
        ⟨hreports, hfollows, hstarted⟩
      have hnext := RunTask.updatesBefore_succ turn first hpos
      rw [RunTask.updatesIn] at hnext
      rw [← hnext] at hfollows
      have hrest := ih (first + 1) (Nat.succ_pos _) hfollows
      rw [hstarted] at hrest
      have hsnapshot : run.restart.snapshot key = ⟨key, run.startedAt, "",
          ToolUpdate.listed most (RunTask.updatesBefore turn first)⟩ := by
        rw [← h.calls_eq]
        rfl
      rw [List.range'_succ, List.flatMap_cons, List.flatMap_cons, reports_append,
        RunTask.further, RunTask.announcedAgain, ← hsnapshot, ← hreports]
      exact congrArg _ hrest

/-- What a run announces from its start on, told by its provider. -/
theorem reports_script (key : RunKey) (now : Timestamp) (onCancel : Option κ) (hmost : 0 < most)
    (turn : Nat → Turn) (last : Nat) :
    reports most key (.start now onCancel) (RunTask.script turn last) ++
        [.turnFinal key.run (RunTask.statusAfter (turn last).outcome)] =
      RunTask.transcript most key now turn last := by
  rcases reports_events key [] (.start most now onCancel) hmost (Turn.sent (turn 1).actions) with
    ⟨hreports, hfollows, hstarted⟩
  have hfirst : RunTask.updatesBefore turn 2 = [] ++ RunTask.updatesIn turn 1 :=
    RunTask.updatesBefore_succ turn 1 Nat.one_pos
  rw [RunTask.updatesIn] at hfirst
  rw [← hfirst] at hfollows
  have hrest := reports_further key turn 2 (last - 1) (Nat.succ_pos _) hfollows hmost
  rw [hstarted] at hrest
  rw [RunTask.transcript, RunTask.script, reports_append, hreports, hrest]
  rfl

end Run

namespace Coordinator

/-! ### Carrying out a run -/

/-- A task carries out a registered run. -/
structure Carries (s : Coordinator) (id : Nat) (t : RunTask) (run : Run Callback) : Prop where
  task : s.tasks.get? id = some t
  registered : s.registry.runs.get? t.key = some run
  live : .task id ∉ s.fired
  /-- No other task is for the same conversation. -/
  sole : ∀ other m, s.mandate? other = some m → m.key.conversation = t.key.conversation → other = id

section

variable {s : Coordinator} {id : Nat} {t : RunTask} {run : Run Callback}

theorem Carries.mandate (h : s.Carries id t run) : s.mandate? id = some t.mandate :=
  mandate?_of_task h.task

theorem Carries.isCancelled (h : s.Carries id t run) : s.isCancelled id = false :=
  (s.isCancelled_eq_false_iff id).mpr h.live

theorem Carries.held (h : s.Carries id t run) (hc : s.Coherent) :
    s.locks.held.get? t.key.conversation = some t.guard.generation :=
  hc.holds id t.mandate h.mandate h.live

/-- The tasks of other runs do not matter, as long as the task and the run go on together. -/
theorem Carries.next (h : s.Carries id t run) (hc : s.Coherent) (m : Move) (t' : RunTask)
    (run' : Run Callback) (hmandate : t'.mandate = t.mandate)
    (htask : (s.perform m).tasks.get? id = some t')
    (hrun : (s.perform m).registry.runs.get? t.key = some run')
    (hlive : .task id ∉ (s.perform m).fired) : (s.perform m).Carries id t' run' := by
  have hkey : t'.key = t.key := congrArg RunTask.Mandate.key hmandate
  refine ⟨htask, by rw [hkey]; exact hrun, hlive, fun other mandate hm hconv => ?_⟩
  rw [hkey] at hconv
  rcases s.mandate?_perform m other mandate hm with hold | ⟨-, hfree⟩
  · exact h.sole other mandate hold hconv
  · -- a conversation that is held is not free for another task
    rw [hconv, h.held hc] at hfree
    exact absurd hfree (by simp)

/-- Another task is for another conversation. -/
theorem Carries.other (h : s.Carries id t run) (other : Nat) (u : RunTask)
    (hu : s.tasks.get? other = some u) (hne : other ≠ id) :
    u.key.conversation ≠ t.key.conversation := by
  intro hconv
  exact hne (h.sole other u.mandate (mandate?_of_task hu) hconv)

/-- A move that does not cancel the run lets the task take a step, which the run takes in and
    which is announced, or ends it. -/
theorem Carries.perform (h : s.Carries id t run) (hc : s.Coherent) (m : Move)
    (hcancel : ∀ now, m ≠ .cancel now t.key) :
    (∃ handover t', RunTask.Step s.retry t handover t' ∧
      (s.perform m).Carries id t' (run.after s.registry.mostTools handover) ∧
      newsOn t.key.conversation s m = run.report s.registry.mostTools t.key handover) ∨
    ∃ status, t.drained = true ∧ t.status? = some status ∧
      (s.perform m).tasks.get? id = none ∧
      newsOn t.key.conversation s m = [.turnFinal t.key.run status] := by
  have hlaunched : id < s.launched := hc.task_launched id t.mandate h.mandate
  -- What remains to be shown where the task does nothing.
  have hrest : (s.perform m).tasks.get? id = some t →
      (s.perform m).registry.runs.get? t.key = some run → .task id ∉ (s.perform m).fired →
      newsOn t.key.conversation s m = [] →
      ∃ handover t', RunTask.Step s.retry t handover t' ∧
        (s.perform m).Carries id t' (run.after s.registry.mostTools handover) ∧
        newsOn t.key.conversation s m = run.report s.registry.mostTools t.key handover :=
    fun htask hrun hlive hnews =>
      ⟨.nothing, t, .rest, h.next hc m t run rfl htask hrun hlive, hnews⟩
  cases s.perform_change m with
  | aside locks hub directory provider hperform hnews =>
      refine Or.inl (hrest ?_ ?_ ?_ (hnews _)) <;> rw [hperform]
      · exact h.task
      · exact h.registered
      · exact h.live
  | starts now key prompt provider hnew hfree hperform hnews =>
      -- The run is registered, the new one was not.
      have hkey : t.key ≠ key := by
        rintro rfl
        rw [h.registered] at hnew
        exact absurd hnew (by simp)
      refine Or.inl (hrest ?_ ?_ ?_ (hnews _)) <;> rw [hperform, started]
      · rw [Table.get?_insert, if_neg (Nat.ne_of_lt hlaunched)]
        exact h.task
      · rw [Table.get?_insert, if_neg hkey]
        exact h.registered
      · exact h.live
  | cancels now key other hmove hother hperform hnews =>
      have hkey : t.key ≠ key := fun e => hcancel now (e ▸ hmove)
      have hconv : key.conversation ≠ t.key.conversation := by
        intro hconv
        exact hkey (hc.registered_unique t.key key (Option.isSome_of_eq_some h.registered)
          (Option.isSome_of_eq_some hother) hconv.symm)
      -- The cancellation of another run is told to another task.
      have hcallback : other.onCancel ≠ some (.task id) := by
        intro hcb
        rcases hc.carried key other.onCancel (by rw [callback?, hother, Option.map_some]) with
          ⟨id', m', hid', hm', hkey', -⟩
        rw [hcb, Option.some.injEq, Callback.task.injEq] at hid'
        rw [← hid', h.mandate, Option.some.injEq] at hm'
        exact hkey (by rw [← hkey', ← hm']; rfl)
      refine Or.inl (hrest ?_ ?_ ?_ ?_)
      · rw [hperform]
        exact h.task
      · rw [hperform, cancelled, Registry.get?_without, if_neg hkey]
        exact h.registered
      · rw [hperform, cancelled, List.mem_append, Option.mem_toList]
        rintro (hf | hf)
        · exact h.live hf
        · exact hcallback hf
      · rw [hnews, if_neg hconv]
  | drives task u u' tasks hmove hu htasks hperform hnews =>
      by_cases hid : id = task
      · subst hid
        -- The driver of the task, or the end of its forwarder.
        obtain rfl : t = u := Option.some.inj (h.task.symm.trans hu)
        have hstep : RunTask.Step s.retry t .nothing u' := by
          rcases hmove with ⟨clock, -, rfl⟩ | ⟨-, rfl⟩
          · rw [h.isCancelled]
            exact .drive clock
          · exact .drain
        refine Or.inl ⟨.nothing, u', hstep, h.next hc m u' run hstep.mandate ?_ ?_ ?_, hnews _⟩ <;>
          rw [hperform]
        · rw [htasks, if_pos rfl]
        · exact h.registered
        · exact h.live
      · refine Or.inl (hrest ?_ ?_ ?_ (hnews _)) <;> rw [hperform]
        · rw [htasks, if_neg hid]
          exact h.task
        · exact h.registered
        · exact h.live
  -- What another task hands on is for a run on another conversation.
  | forwards task u u' handover registry hub hmove hu hforward hmost hruns hperform hnews =>
      by_cases hid : id = task
      · subst hid
        obtain rfl : t = u := Option.some.inj (h.task.symm.trans hu)
        have hstep : RunTask.Step s.retry t handover u' := .forward hforward
        refine Or.inl ⟨handover, u', hstep, h.next hc m u' _ hstep.mandate ?_ ?_ ?_, ?_⟩
        · rw [hperform, Table.get?_insert, if_pos rfl]
        · rw [hperform, hruns, if_pos rfl, h.registered, Option.map_some]
        · rw [hperform]
          exact h.live
        · rw [hnews, if_pos rfl, h.registered, Option.elim_some]
      · have hconv := h.other task u hu fun e => hid e.symm
        have hkey : t.key ≠ u.key := fun e => hconv (e ▸ rfl)
        refine Or.inl (hrest ?_ ?_ ?_ ?_)
        · rw [hperform, Table.get?_insert, if_neg hid]
          exact h.task
        · rw [hperform, hruns, if_neg hkey]
          exact h.registered
        · rw [hperform]
          exact h.live
        · rw [hnews, if_neg hconv]
  | finishes now task u status hmove hu hdrained hstatus hperform hnews =>
      by_cases hid : id = task
      · subst hid
        obtain rfl : t = u := Option.some.inj (h.task.symm.trans hu)
        -- The end of the task is announced because the run is registered.
        have hcontains := Table.contains_of_some h.registered
        refine Or.inr ⟨status, hdrained, hstatus, ?_, ?_⟩
        · rw [hperform, finished, Table.get?_erase, if_pos rfl]
        · rw [hnews, if_pos ⟨hcontains, rfl⟩]
      · have hconv := h.other task u hu fun e => hid e.symm
        have hkey : t.key ≠ u.key := fun e => hconv (e ▸ rfl)
        refine Or.inl (hrest ?_ ?_ ?_ ?_)
        · rw [hperform, finished, Table.get?_erase, if_neg hid]
          exact h.task
        · rw [hperform, finished, Registry.get?_leave, if_neg hkey]
          exact h.registered
        · rw [hperform]
          exact h.live
        · rw [hnews, if_neg fun hp => hconv hp.2]

/-! ### Courses of events -/

/-- A run has room for a tool call. -/
theorem Reachable.mostTools_pos (hs : s.Reachable) : 0 < s.registry.mostTools := by
  rcases hs with ⟨config, provider, moves, rfl⟩
  refine performAll_induction (fun s' => 0 < s'.registry.mostTools) _ moves ?_ fun s' m h => ?_
  · exact Nat.le_max_right ..
  · rw [(s'.settings_perform m).2.1]
    exact h

theorem retry_performAll (s : Coordinator) (moves : List Move) :
    (s.performAll moves).retry = s.retry :=
  performAll_induction (fun s' => s'.retry = s.retry) s moves rfl
    fun s' m h => (s'.settings_perform m).1.trans h

/-- A task that has ended does not come back. -/
theorem gone_performAll (s : Coordinator) (id : Nat) (hid : id < s.launched)
    (hgone : s.tasks.get? id = none) (moves : List Move) :
    (s.performAll moves).tasks.get? id = none := by
  -- The number of the task was given out, so that no new task gets it.
  have hboth : id < (s.performAll moves).launched ∧ (s.performAll moves).tasks.get? id = none := by
    refine performAll_induction (fun s => id < s.launched ∧ s.tasks.get? id = none) s moves
      ⟨hid, hgone⟩ fun s m h => ⟨Nat.lt_of_lt_of_le h.1 (s.settings_perform m).2.2, ?_⟩
    cases ht : (s.perform m).tasks.get? id with
    | none => rfl
    | some t =>
        rcases s.mandate?_perform m id t.mandate (mandate?_of_task ht) with hold | ⟨hnew, -⟩
        · rw [mandate?, h.2] at hold
          exact absurd hold (by simp)
        · exact absurd hnew (Nat.ne_of_lt h.1)
  exact hboth.2

/-- As long as the task is there, the run and what is announced on the conversation are what has
    become of what the task handed on, and that is the first part of its outlook. -/
theorem Carries.performAll (h : s.Carries id t run) (hc : s.Coherent) (hw : t.WellFormed)
    (moves : List Move) (hcancel : ∀ now, .cancel now t.key ∉ moves)
    (hthere : ((s.performAll moves).tasks.get? id).isSome) :
    ∃ handovers t', (s.performAll moves).Carries id t'
        (run.afterAll s.registry.mostTools handovers) ∧
      t'.WellFormed ∧ (t.Returning → t'.Returning) ∧ t'.mandate = t.mandate ∧
      t.outlook s.retry = (t'.outlook s.retry).after handovers ∧
      newsOnAll t.key.conversation moves s =
        run.reports s.registry.mostTools t.key handovers := by
  induction moves generalizing s t run with
  -- The induction is on the moves, with the task and the run as each move leaves them.
  | nil => exact ⟨[], t, h, hw, fun hr => hr, rfl, rfl, rfl⟩
  | cons m rest ih =>
      have hfirst : ∀ now, m ≠ .cancel now t.key :=
        fun now e => hcancel now (e ▸ List.mem_cons_self)
      have hlaunched : id < s.launched := hc.task_launched id t.mandate h.mandate
      rcases h.perform hc m hfirst with ⟨handover, t', hstep, hnext, hnews⟩ | ⟨-, -, -, hgone, -⟩
      -- The first move lets the task take a step, the others are left to the induction.
      · have hkey : t'.key = t.key := congrArg RunTask.Mandate.key hstep.mandate
        have hsettings := s.settings_perform m
        rcases ih hnext (hc.perform m) (hstep.wellFormed hw)
          (fun now hmem => hcancel now (hkey ▸ List.mem_cons_of_mem _ hmem)) hthere with
          ⟨handovers, t'', hcarries, hw', hreturning, hmandate, houtlook, hrest⟩
        rw [hsettings.1] at houtlook
        rw [hsettings.2.1] at hcarries hrest
        rw [hkey] at hrest
        refine ⟨handover.told ++ handovers, t'', ?_, hw', fun hr => hreturning (hstep.returning hr),
          hmandate.trans hstep.mandate, ?_, ?_⟩
        · rw [Run.afterAll_append, Run.afterAll_told]
          exact hcarries
        · rw [hstep.outlook hw, houtlook, RunTask.Outlook.after_after]
        · rw [newsOnAll, hnews, hrest, Run.reports_append, Run.reports_told, Run.afterAll_told]
      · -- a task that has ended would still be there
        have := gone_performAll (s.perform m) id
          (Nat.lt_of_lt_of_le hlaunched (s.settings_perform m).2.2) hgone rest
        rw [performAll_cons, this] at hthere
        exact absurd hthere (by simp)

/-! ### Coming to an end -/

/-- Every step of a task is brought about by a move, unless it is none. -/
theorem exists_move (s : Coordinator) (id : Nat) (t t' : RunTask) (handover : RunTask.Handover)
    (ht : s.tasks.get? id = some t) (hcancelled : s.isCancelled id = false)
    (hs : RunTask.Step s.retry t handover t') (hne : t' ≠ t) :
    ∃ m, m.IsStepOf id ∧ (s.perform m).tasks.get? id = some t' := by
  -- For each step the task can take there is a move that lets it take this step.
  cases hs with
  | rest => exact absurd rfl hne
  | drive clock =>
      refine ⟨.drive clock id, rfl, ?_⟩
      rw [perform, driveTask, Table.get?_update, if_pos rfl, ht, hcancelled, Option.map_some]
  | drain =>
      refine ⟨.drain id, rfl, ?_⟩
      rw [perform, drainTask, Table.get?_update, if_pos rfl, ht, Option.map_some]
  | forward hf =>
      refine ⟨.forward id, rfl, ?_⟩
      rcases forward_cases s id with ⟨-, -, hnone⟩ | ⟨u, u', h', hu, hf', hperform, -⟩
      · rw [hnone t ht] at hf
        exact absurd hf (by simp)
      · obtain rfl : t = u := Option.some.inj (ht.symm.trans hu)
        rw [hf, Option.some.injEq, Prod.mk.injEq] at hf'
        rcases takeHandover_stores { s with tasks := s.tasks.insert id u' } t.key h' with
          ⟨registry, hub, htook, -⟩
        rw [hperform, htook, Table.get?_insert, if_pos rfl, hf'.2]

/-- A task whose turns return can be brought to its end by steps of its own. -/
theorem Carries.ends (h : s.Carries id t run) (hc : s.Coherent) (hw : t.WellFormed)
    (hr : t.Returning) (now : Timestamp) :
    ∃ more, (∀ m ∈ more, m.IsStepOf id) ∧ (s.performAll more).tasks.get? id = none := by
  induction hn : t.work s.retry using Nat.strongRecOn generalizing s t run with
  | ind n ih =>
      -- The induction is on the work that is left: a task that is drained ends now, and any other
      -- has a step, after which less is left.
      cases hd : t.drained with
      | true =>
          have hstatus := (RunTask.outlook_drained s.retry t hw hd).2
          refine ⟨[.finish now id], by simp [Move.IsStepOf], ?_⟩
          rw [performAll_cons, performAll_nil, Coordinator.perform,
            finishTask_eq s now id t _ h.task hd hstatus, finished, Table.get?_erase, if_pos rfl]
      | false =>
          rcases RunTask.exists_step s.retry t hw hr hd with ⟨handover, t', hstep, hlt⟩
          have hne : t' ≠ t := by
            rintro rfl
            exact Nat.lt_irrefl _ hlt
          rcases exists_move s id t t' handover h.task h.isCancelled hstep hne with
            ⟨m, hm, htask⟩
          have hcancel : ∀ now, m ≠ .cancel now t.key := by
            rintro now rfl
            exact hm
          rcases h.perform hc m hcancel with ⟨handover', t'', -, hnext, -⟩ | ⟨-, -, -, hgone, -⟩
          · obtain rfl : t' = t'' := Option.some.inj (htask.symm.trans hnext.task)
            have hpolicy := (s.settings_perform m).1
            rcases ih (t'.work (s.perform m).retry) (by rw [hpolicy, ← hn]; exact hlt) hnext
              (hc.perform m) (hstep.wellFormed hw) (hstep.returning hr) rfl with
              ⟨more, hmore, hend⟩
            exact ⟨m :: more, List.forall_mem_cons.mpr ⟨hm, hmore⟩, hend⟩
          · rw [hgone] at htask
            exact absurd htask (by simp)

/-- A task ends when it has handed on everything, and what is announced then is how it was going
    to end. -/
theorem Carries.last_move (h : s.Carries id t run) (hc : s.Coherent) (hw : t.WellFormed)
    (m : Move) (hcancel : ∀ now, m ≠ .cancel now t.key)
    (hend : (s.perform m).tasks.get? id = none) :
    (t.outlook s.retry).handovers = [] ∧
      newsOn t.key.conversation s m =
        [.turnFinal t.key.run (RunTask.statusOf (t.outlook s.retry).result)] := by
  rcases h.perform hc m hcancel with ⟨handover, t', -, hnext, -⟩ | ⟨status, hd, hst, -, hnews⟩
  · have hthere := hnext.task
    rw [hend] at hthere
    exact absurd hthere (by simp)
  · rcases RunTask.outlook_drained s.retry t hw hd with ⟨hnothing, hstatus⟩
    rw [hst, Option.some.injEq] at hstatus
    exact ⟨hnothing, hstatus ▸ hnews⟩

end

/-! ### From start to end -/

/-- The task of a run that has just been started carries it out, if no other task is for the same
    conversation. -/
theorem carries_started {s : Coordinator} (hc : s.Coherent) (now : Timestamp) (key : RunKey)
    (prompt : String) (provider : Provider)
    (hsole : ∀ task t, s.tasks.get? task = some t → t.key.conversation ≠ key.conversation) :
    (s.started now key prompt provider).Carries s.launched
      (.launch key prompt provider ⟨key.conversation, s.locks.taken + 1⟩)
      (.start now (some (.task s.launched))) where
  task := by rw [started, Table.get?_insert, if_pos rfl]
  registered := by
    rw [started, Table.get?_insert]
    exact if_pos rfl
  live hf := Nat.lt_irrefl _ (hc.fired_launched s.launched hf)
  sole other m hm hconv := by
    rw [mandate?_started] at hm
    by_cases ho : other = s.launched
    · exact ho
    · rw [if_neg ho] at hm
      rcases Option.map_eq_some_iff.mp hm with ⟨u, hu, rfl⟩
      exact absurd hconv (hsole other u hu)

/-- A run is started while no task is for its conversation, and is never cancelled. Whatever
    happens meanwhile, what is announced on the conversation from the start of the run to the end
    of its task is what its provider did: what it streamed in the first attempt, for every further
    attempt the run without its text and with the states of its tool calls so far, and what was
    streamed then, up to the first attempt that is the last one, and how the run ended. Every
    update of a tool call is told as the state that all the updates so far have made. Before the
    end of the task a proper part of it has been announced, and if the turns return, the task can
    still be brought to its end. Whoever follows the conversation and has room for every frame
    receives just that. -/
theorem provider_on_wire (s : Coordinator) (hs : s.Reachable) (occasion : Occasion)
    (conversation : String) (run : Option String) (prompt : String) (provider : Provider)
    (snapshot : Snapshot) (hprovider : s.provider = some provider)
    (hcreated : (s.startRun occasion conversation run prompt).1 = .ok (.created snapshot))
    (hsole : ∀ task t, s.tasks.get? task = some t → t.key.conversation ≠ conversation) :
    let start := Move.start occasion conversation run prompt
    let turn := fun n => provider.turn ⟨conversation, snapshot.key.run, prompt, n⟩
    ∃ last, RunTask.EndsAt s.retry turn 1 last ∧
      let wire := RunTask.transcript s.registry.mostTools snapshot.key occasion.now turn last
      ∀ moves, (∀ now, .cancel now snapshot.key ∉ moves) →
        ((s.performAll (start :: moves)).tasks.get? s.launched).isSome →
        (∃ rest, rest ≠ [] ∧ wire = newsOnAll conversation (start :: moves) s ++ rest) ∧
        ((∀ n, (turn n).Returns) → ∃ more, (∀ m ∈ more, m.IsStepOf s.launched) ∧
          (s.performAll (start :: (moves ++ more))).tasks.get? s.launched = none) ∧
        ∀ m, (∀ now, m ≠ .cancel now snapshot.key) →
          (s.performAll (start :: (moves ++ [m]))).tasks.get? s.launched = none →
          newsOnAll conversation (start :: (moves ++ [m])) s = wire ∧
          ∀ connection, s.hub.roster.Follows connection conversation →
            (∀ m' ∈ start :: (moves ++ [m]),
              m' ≠ .detach connection ∧ m' ≠ .close connection) →
            Hub.NeverOverflows connection (hubActionsAll (start :: (moves ++ [m])) s) s.hub →
            bodiesOn conversation (receivedSince connection (start :: (moves ++ [m])) s) =
              bodiesOn conversation (s.hub.waiting connection) ++
                wire.map (·.body conversation) := by
  intro start turn
  rcases startRun_created s occasion conversation run prompt snapshot hcreated with
    ⟨provider', hp, rfl, hstarted⟩
  obtain rfl : provider' = provider := Option.some.inj (hp.symm.trans hprovider)
  have hstart : s.perform start = s.started occasion.now snapshot.key prompt provider' := hstarted
  have hcoherent := hs.coherent.perform start
  have hcarries := carries_started hs.coherent occasion.now snapshot.key prompt provider' hsole
  rw [← hstart] at hcarries
  have hsettings := s.settings_perform start
  rcases RunTask.launch_outlook s.retry snapshot.key prompt provider'
    ⟨snapshot.key.conversation, s.locks.taken + 1⟩ with ⟨last, hends, houtlook⟩
  refine ⟨last, hends, ?_⟩
  intro wire moves hcancel hthere
  rcases hcarries.performAll hcoherent (RunTask.launch_wellFormed ..) moves hcancel hthere with
    ⟨handovers, t', hcarries', hw', hreturning, hmandate, hsplit, hnews⟩
  rw [hsettings.1, houtlook] at hsplit
  -- What was handed on is the first part of the script, the rest is the outlook.
  have hscript : RunTask.script turn last = handovers ++ (t'.outlook s.retry).handovers :=
    congrArg RunTask.Outlook.handovers hsplit
  have hresult : RunTask.resultOf last (turn last).outcome = (t'.outlook s.retry).result :=
    congrArg RunTask.Outlook.result hsplit
  -- The start itself is announced on the sidebar only.
  have hquiet : newsOn snapshot.key.conversation s start = [] := by
    simp only [newsOn, news, start, hcreated]
    exact eventsOn_markNews ..
  have hannounced : newsOnAll snapshot.key.conversation (start :: moves) s =
      Run.reports s.registry.mostTools snapshot.key
        (.start occasion.now (some (Callback.task s.launched))) handovers := by
    rw [newsOnAll, hquiet, List.nil_append, ← hsettings.2.1]
    exact hnews
  have hwire : wire = newsOnAll snapshot.key.conversation (start :: moves) s ++
      (Run.reports s.registry.mostTools snapshot.key
          (Run.afterAll s.registry.mostTools
            (.start occasion.now (some (Callback.task s.launched))) handovers)
          (t'.outlook s.retry).handovers ++
        [.turnFinal snapshot.key.run (RunTask.statusAfter (turn last).outcome)]) := by
    rw [hannounced, ← List.append_assoc, ← Run.reports_append, ← hscript]
    exact (Run.reports_script _ _ _ hs.mostTools_pos turn last).symm
  have hreachable := hs.performAll (start :: moves)
  have hkey : t'.key = snapshot.key := congrArg RunTask.Mandate.key hmandate
  refine ⟨⟨_, by simp, hwire⟩, fun hreturns => ?_, fun m hm hend => ?_⟩
  · have hlaunched := RunTask.launch_returning snapshot.key prompt provider'
      ⟨snapshot.key.conversation, s.locks.taken + 1⟩ hreturns
    rcases hcarries'.ends hreachable.coherent hw' (hreturning hlaunched) occasion.now with
      ⟨more, hmore, hend⟩
    exact ⟨more, hmore, by rw [performAll_cons, performAll_append]; exact hend⟩
  · have hgone : ((s.performAll (start :: moves)).perform m).tasks.get? s.launched = none := by
      rw [← List.cons_append, performAll_append] at hend
      exact hend
    have hlast := hcarries'.last_move hreachable.coherent hw' m (by rw [hkey]; exact hm) hgone
    -- The task ends with nothing left to hand on, so that the first part is the whole.
    have hpolicy : ((s.perform start).performAll moves).retry = s.retry :=
      (retry_performAll _ moves).trans hsettings.1
    rw [hpolicy, hkey, ← hresult, RunTask.statusOf_resultOf] at hlast
    have hall : newsOnAll snapshot.key.conversation (start :: (moves ++ [m])) s = wire := by
      rw [← List.cons_append, newsOnAll_append, newsOnAll_singleton, hwire, hlast.1]
      exact congrArg _ hlast.2
    refine ⟨hall, fun connection hfollows hstay hroom => ?_⟩
    rw [s.bodiesOn_follower hs connection _ _ hfollows hstay hroom, hall]

/-- A provider whose first attempt fails after some text and two tool calls. -/
def faltering : Provider where
  name := "faltering"
  turn request :=
    if request.attempt = 1 then
      ⟨[.send (.tool { ToolUpdate.bare "t" with name := some "find", status := some "running" })
          false,
        .send (.tool (.bare "u")) false, .send (.delta "a") false,
        .send (.tool { ToolUpdate.bare "t" with stage := some "reading" }) false],
        .error (.transient "")⟩
    else
      ⟨[.pause 1 true, .send (.delta "b") true,
        .send (.tool { ToolUpdate.bare "t" with status := some "done", result := some .null })
          true],
        .ok "b"⟩

/-- A conversation, and nothing else so far. -/
def ready : Coordinator :=
  (ofConfig .standard (some faltering)).perform (.create ⟨⟨0, 0⟩, "c"⟩ none "")

/-- The second attempt starts from an empty text and the tool calls of the first one, and what it
    says of a call adds to what the first one said. -/
theorem faltering_on_wire :
    newsOnAll "c"
      [.start ⟨⟨1, 0⟩, "i"⟩ "c" none "", .drive 0 0, .forward 0, .forward 0, .forward 0,
        .forward 0, .drive 500 0, .forward 0, .forward 0, .drive 501 0, .forward 0, .forward 0,
        .forward 0, .forward 0, .drain 0, .finish ⟨2, 0⟩ 0] ready =
      [.toolState "i" ⟨"t", some "find", "running", none, none, none⟩,
        .toolState "i" ⟨"u", none, "requesting", none, none, none⟩, .delta "i" "a",
        .toolState "i" ⟨"t", some "find", "running", some "reading", none, none⟩,
        .snapshot ⟨⟨"c", "i"⟩, ⟨1, 0⟩, "",
          [⟨"t", some "find", "running", some "reading", none, none⟩,
            ⟨"u", none, "requesting", none, none, none⟩]⟩,
        .delta "i" "b",
        .toolState "i" ⟨"t", some "find", "done", some "reading", some .null, none⟩,
        .turnFinal "i" .completed] := by
  have hidle : ∀ task, ready.tasks.get? task = none := fun task => rfl
  rcases provider_on_wire ready ⟨_, _, [.create ⟨⟨0, 0⟩, "c"⟩ none ""], rfl⟩ ⟨⟨1, 0⟩, "i"⟩ "c"
    none "" faltering ⟨⟨"c", "i"⟩, ⟨1, 0⟩, "", []⟩ rfl rfl
    (fun task t ht => absurd (ht.symm.trans (hidle task)) (by simp)) with ⟨last, hends, hall⟩
  -- The second attempt is the first that succeeds.
  have htwo : RunTask.EndsAt ready.retry
      (fun n => faltering.turn ⟨"c", "i", "", n⟩) 1 2 := by
    refine ⟨by decide, by decide, Or.inl ⟨"b", by simp [faltering]⟩, fun n hpos hlt => ?_⟩
    obtain rfl : n = 1 := by omega
    rintro (⟨value, hok⟩ | ⟨e, he, hretry⟩ | hmost)
    · exact absurd hok (by simp [faltering])
    · obtain rfl : ProviderError.transient "" = e := Except.error.inj he
      exact absurd hretry (by decide)
    · exact absurd hmost (by decide)
  obtain rfl : last = 2 := hends.unique htwo
  have hwire := ((hall [.drive 0 0, .forward 0, .forward 0, .forward 0, .forward 0, .drive 500 0,
    .forward 0, .forward 0, .drive 501 0, .forward 0, .forward 0, .forward 0, .forward 0, .drain 0]
    (by simp) (by decide +kernel)).2.2 (.finish ⟨2, 0⟩ 0) (by simp)
    (Option.isNone_iff_eq_none.mp (by decide +kernel))).1
  exact hwire.trans rfl

end Coordinator

end Switchboard

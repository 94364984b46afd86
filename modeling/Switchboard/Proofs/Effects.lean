import Switchboard.Proofs.Moves

/-!
# What a Move Changes

There are many moves, but only a few things that can happen to runs and tasks.
`Coordinator.perform_change` says once what they are: a run is started or
cancelled, the driver of a task goes on, its forwarder hands something on, a task
ends, or nothing of that kind happens. With every case comes the state after the
move, as one update, and what is announced on the conversations.

Seen from the registry there is even less: nothing, a run begins, a run goes on,
or a run leaves. This is `Coordinator.Effect`. A statement about runs and their
followers needs those four cases and not one for each move.

The sidebar hears of summaries only, and a conversation hears of its runs only.

## Main definitions

* `Coordinator.Change`: What a move changes.
* `Coordinator.Effect`: What a move means for the registered runs.

## Theorems

* `Coordinator.eventsOn_markNews`, `Coordinator.eventsOn_unmarkNews`: Changes of a summary are
  not announced on conversations.
* `Coordinator.perform_change`: Every move changes one of six things.
* `Coordinator.perform_effect`: Every move does one of four things to the runs.
-/

namespace Switchboard

namespace Coordinator

/-! ### Events of a conversation -/

theorem eventsOn_markNews (d : Directory) (now : Timestamp) (conversation : String)
    (run : Option String) (c : String) : eventsOn c (d.markNews now conversation run) = [] := by
  unfold Directory.markNews
  cases d.get? conversation with
  | none => rfl
  | some x =>
      by_cases hx : x.activeRun = run
      · simp only [if_pos hx, eventsOn_nil]
      · simp only [if_neg hx, eventsOn_sidebar, eventsOn_nil]

theorem eventsOn_unmarkNews (d : Directory) (now : Timestamp) (key : RunKey) (c : String) :
    eventsOn c (d.unmarkNews now key) = [] := by
  unfold Directory.unmarkNews
  split
  · exact eventsOn_markNews ..
  · rfl

theorem eventsOn_endNews (s : Coordinator) (now : Timestamp) (key : RunKey)
    (status : FinalStatus) (c : String) :
    eventsOn c (s.endNews now key status) =
      if s.registry.runs.contains key ∧ key.conversation = c then [.turnFinal key.run status]
      else [] := by
  -- The sidebar is told of the summary, the conversation of the end only.
  rw [endNews, eventsOn_append, eventsOn_unmarkNews, List.append_nil]
  by_cases hr : s.registry.runs.contains key = true
  · have h := eventsOn_conversation c key.conversation [.turnFinal key.run status]
    rw [List.map_singleton] at h
    rw [if_pos hr, h]
    by_cases hc : key.conversation = c
    · rw [if_pos hc, if_pos ⟨hr, hc⟩]
    · rw [if_neg hc, if_neg fun hp => hc hp.2]
  · rw [if_neg hr, if_neg fun hp => hr hp.1, eventsOn_nil]

/-! ### Changes -/

/-- What a move changes. -/
inductive Change (s : Coordinator) (m : Move) : Prop where
  /-- Nothing that runs or tasks are made of. -/
  | aside (locks : Locks) (hub : Hub) (directory : Directory) (provider : Option Provider)
      (hperform : s.perform m = { s with locks, hub, directory, provider })
      (hnews : ∀ c, newsOn c s m = [])
      (hprovider : provider.isSome = s.provider.isSome)
  /-- A run is started. -/
  | starts (now : Timestamp) (key : RunKey) (prompt : String) (provider : Provider)
      (hnew : s.registry.runs.get? key = none)
      (hfree : s.locks.held.get? key.conversation = none)
      (hperform : s.perform m = s.started now key prompt provider)
      (hnews : ∀ c, newsOn c s m = [])
      (hmove : ∃ occasion run, m = .start occasion key.conversation run prompt)
  /-- A run is cancelled. -/
  | cancels (now : Timestamp) (key : RunKey) (run : Run Callback)
      (hmove : m = .cancel now key) (hrun : s.registry.runs.get? key = some run)
      (hperform : s.perform m = s.cancelled now key run)
      (hnews : ∀ c, newsOn c s m =
        if key.conversation = c then [.turnFinal key.run .cancelled] else [])
  /-- The driver of a task goes on, or its forwarder is found to be done. -/
  | drives (task : Nat) (t t' : RunTask) (tasks : Table Nat RunTask)
      (hmove : (∃ clock, m = .drive clock task ∧
          t' = t.drive s.retry clock (s.isCancelled task)) ∨
        m = .drain task ∧ t' = { t with drained := t.isExhausted })
      (ht : s.tasks.get? task = some t)
      (htasks : ∀ id, tasks.get? id = if id = task then some t' else s.tasks.get? id)
      (hperform : s.perform m = { s with tasks })
      (hnews : ∀ c, newsOn c s m = [])
  /-- The forwarder of a task hands something on. -/
  | forwards (task : Nat) (t t' : RunTask) (handover : RunTask.Handover)
      (registry : Registry Callback) (hub : Hub)
      (hmove : m = .forward task)
      (ht : s.tasks.get? task = some t) (hforward : t.forward? = some (handover, t'))
      (hmost : registry.mostTools = s.registry.mostTools)
      (hruns : ∀ key, registry.runs.get? key =
        if key = t.key then
          (s.registry.runs.get? key).map (·.after s.registry.mostTools handover)
        else s.registry.runs.get? key)
      (hperform : s.perform m = { s with tasks := s.tasks.insert task t', registry, hub })
      (hnews : ∀ c, newsOn c s m =
        if t.key.conversation = c then
          (s.registry.runs.get? t.key).elim [] fun run =>
            run.report s.registry.mostTools t.key handover
        else [])
  /-- A task ends. -/
  | finishes (now : Timestamp) (task : Nat) (t : RunTask) (status : FinalStatus)
      (hmove : m = .finish now task)
      (ht : s.tasks.get? task = some t) (hdrained : t.drained = true)
      (hstatus : t.status? = some status)
      (hperform : s.perform m = s.finished now task t status)
      (hnews : ∀ c, newsOn c s m =
        if s.registry.runs.contains t.key ∧ t.key.conversation = c then
          [.turnFinal t.key.run status]
        else [])

/-- A move that changes nothing at all. -/
theorem Change.of_same {s : Coordinator} {m : Move} (hperform : s.perform m = s)
    (hnews : ∀ c, newsOn c s m = []) : Change s m :=
  .aside s.locks s.hub s.directory s.provider hperform hnews rfl

/-- A move that only concerns conversations and those who follow them. -/
theorem Change.of_aside {s : Coordinator} {m : Move}
    (hperform : ∃ locks hub directory, s.perform m = { s with locks, hub, directory })
    (hnews : ∀ c, newsOn c s m = []) : Change s m := by
  rcases hperform with ⟨locks, hub, directory, h⟩
  exact .aside locks hub directory s.provider h hnews rfl

theorem start_change (s : Coordinator) (occasion : Occasion) (conversation : String)
    (run : Option String) (prompt : String) :
    Change s (.start occasion conversation run prompt) := by
  rcases startRun_cases s occasion conversation run prompt with
    ⟨e, h⟩ | ⟨snapshot, -, h⟩ | ⟨provider, c, -, -, -, hnew, hfree, h⟩
  -- A run that is refused or found already.
  · refine .of_same (by rw [perform, h]) fun c => ?_
    simp only [newsOn, news, h, eventsOn_nil]
  · refine .of_same (by rw [perform, h]) fun c => ?_
    simp only [newsOn, news, h, eventsOn_nil]
  · refine .starts occasion.now ⟨conversation, run.getD occasion.freshId⟩ prompt provider hnew
      hfree (by rw [perform, h]) (fun c => ?_) ⟨occasion, run, rfl⟩
    simp only [newsOn, news, h]
    exact eventsOn_markNews ..

theorem cancel_change (s : Coordinator) (now : Timestamp) (key : RunKey) :
    Change s (.cancel now key) := by
  cases hr : s.registry.runs.get? key with
  | none =>
      have hc := Table.contains_of_none hr
      refine .of_same (by rw [perform, cancelRun_absent s now key hr]) fun c => ?_
      simp only [newsOn, news, hc, Bool.false_eq_true, if_false, eventsOn_nil]
  | some run =>
      have hc := Table.contains_of_some hr
      refine .cancels now key run rfl hr (by rw [perform, cancelRun_eq s now key run hr])
        fun c => ?_
      simp only [newsOn, news, hc, if_true, eventsOn_endNews, true_and]

/-- A task that is changed in place. -/
theorem update_change (s : Coordinator) (m : Move) (task : Nat) (f : RunTask → RunTask)
    (hmove : (∃ clock, m = .drive clock task ∧
        ∀ t, f t = t.drive s.retry clock (s.isCancelled task)) ∨
      m = .drain task ∧ ∀ t, f t = { t with drained := t.isExhausted })
    (hperform : s.perform m = { s with tasks := s.tasks.update task f })
    (hnews : ∀ c, newsOn c s m = []) : Change s m := by
  cases ht : s.tasks.get? task with
  | none =>
      -- There is no such task, so that nothing is updated.
      have hsame : s.tasks.update task f = s.tasks :=
        Table.update_id _ _ _ fun t h => absurd (ht.symm.trans h) (by simp)
      rw [hsame] at hperform
      exact .of_same hperform hnews
  | some t =>
      refine .drives task t (f t) _ ?_ ht (fun id => ?_) hperform hnews
      · rcases hmove with ⟨clock, hm, hf⟩ | ⟨hm, hf⟩
        · exact Or.inl ⟨clock, hm, hf t⟩
        · exact Or.inr ⟨hm, hf t⟩
      · rw [Table.get?_update]
        by_cases hid : id = task
        · rw [if_pos hid, if_pos hid, hid, ht, Option.map_some]
        · rw [if_neg hid, if_neg hid]

theorem forward_change (s : Coordinator) (task : Nat) : Change s (.forward task) := by
  rcases forward_cases s task with ⟨hs, hnews, -⟩ | ⟨t, t', h, ht, hf, hs, hnews⟩
  · exact .of_same hs fun c => by rw [newsOn, hnews, eventsOn_nil]
  · cases hr : s.registry.runs.get? t.key with
    -- The task goes on, but its run is gone and nobody hears of it.
    | none =>
        simp only [hr] at hnews
        refine .forwards task t t' h s.registry s.hub rfl ht hf rfl (fun key => ?_)
          (hs.trans (takeHandover_absent _ t.key h hr)) fun c => ?_
        · by_cases hkey : key = t.key
          · rw [if_pos hkey, hkey, hr, Option.map_none]
          · rw [if_neg hkey]
        · rw [newsOn, hnews, hr, eventsOn_nil, Option.elim_none, ite_self]
    | some run =>
        simp only [hr] at hnews
        have htook := hs.trans (takeHandover_eq { s with tasks := s.tasks.insert task t' } t.key run
          h hr)
        refine .forwards task t t' h
          (s.registry.change t.key fun _ => run.after s.registry.mostTools h) _ rfl ht hf rfl
          (fun key => ?_) htook fun c => ?_
        · simp only [Registry.change, Table.get?_update]
          by_cases hkey : key = t.key
          · rw [if_pos hkey, if_pos hkey, hkey, hr, Option.map_some, Option.map_some]
          · rw [if_neg hkey, if_neg hkey]
        · rw [newsOn, hnews, hr, Option.elim_some]
          exact eventsOn_conversation ..

theorem finish_change (s : Coordinator) (now : Timestamp) (task : Nat) :
    Change s (.finish now task) := by
  rcases finish_cases s now task with ⟨hs, hnews⟩ | ⟨t, status, ht, hd, hst, hs, hnews⟩
  · exact .of_same hs fun c => by rw [newsOn, hnews, eventsOn_nil]
  · refine .finishes now task t status rfl ht hd hst hs fun c => ?_
    rw [newsOn, hnews, eventsOn_endNews]

/-- What a move changes. -/
theorem perform_change (s : Coordinator) (m : Move) : Change s m := by
  cases hm : m.isOfConnection with
  | true =>
      rcases s.perform_of_connection m hm with ⟨hub, hperform⟩
      refine .of_aside ⟨_, hub, _, hperform⟩ fun c => ?_
      rw [newsOn, s.news_of_connection m hm, eventsOn_nil]
  | false =>
      cases m with
      | create occasion id title =>
          refine .of_aside ?_ fun c => rfl
          simp only [perform, createConversation]
          cases s.directory.get? (id.getD occasion.freshId) <;> exact ⟨_, _, _, rfl⟩
      | archive now id =>
          refine .of_aside ?_ fun c => ?_
          · simp only [perform, archiveConversation]
            cases s.directory.get? id <;> exact ⟨_, _, _, rfl⟩
          · simp only [newsOn, news]
            cases (s.archiveConversation now id).1 <;> rfl
      | delete id =>
          refine .of_aside ?_ fun c => ?_
          · simp only [perform, deleteConversation]
            cases s.locks.acquire? id with
            | none => exact ⟨_, _, _, rfl⟩
            | some p => cases s.directory.get? id <;> exact ⟨_, _, _, rfl⟩
          · simp only [newsOn, news]
            cases (s.deleteConversation id).1 <;> rfl
      | start occasion conversation run prompt =>
          exact start_change s occasion conversation run prompt
      | cancel now key => exact cancel_change s now key
      -- A provider that answers in another way still answers.
      | retune turn => exact .aside _ _ _ _ rfl (fun c => rfl) Option.isSome_map
      | drive clock task =>
          exact update_change s _ task _ (Or.inl ⟨clock, rfl, fun t => rfl⟩) rfl fun c => rfl
      | forward task => exact forward_change s task
      | drain task => exact update_change s _ task _ (Or.inr ⟨rfl, fun t => rfl⟩) rfl fun c => rfl
      | finish now task => exact finish_change s now task
      | _ => exact absurd hm (by simp [Move.isOfConnection])

/-! ### Effects -/

/-- What a move means for the registered runs. -/
inductive Effect (s : Coordinator) (m : Move) : Prop where
  /-- Nothing. -/
  | idle
      (hruns : ∀ key, (s.perform m).registry.runs.get? key = s.registry.runs.get? key)
      (hnews : ∀ c, newsOn c s m = [])
  /-- A run begins on a conversation that is not held. -/
  | begins (now : Timestamp) (key : RunKey) (callback : Option Callback)
      (hnew : s.registry.runs.get? key = none)
      (hfree : s.locks.held.get? key.conversation = none)
      (hruns : ∀ other, (s.perform m).registry.runs.get? other =
        if other = key then some (.start now callback) else s.registry.runs.get? other)
      (hnews : ∀ c, newsOn c s m = [])
  /-- A run goes on with what the forwarder of a task hands on. -/
  | goesOn (task : Nat) (t t' : RunTask) (handover : RunTask.Handover) (run : Run Callback)
      (hmove : m = .forward task)
      (ht : s.tasks.get? task = some t) (hforward : t.forward? = some (handover, t'))
      (hrun : s.registry.runs.get? t.key = some run)
      (hruns : ∀ other, (s.perform m).registry.runs.get? other =
        if other = t.key then some (run.after s.registry.mostTools handover)
        else s.registry.runs.get? other)
      (hnews : ∀ c, newsOn c s m =
        if t.key.conversation = c then run.report s.registry.mostTools t.key handover else [])
  /-- A run is cancelled, or a task of its name ends. -/
  | leaves (key : RunKey) (run : Run Callback) (status : FinalStatus)
      (hmove : (∃ now, m = .cancel now key ∧ status = .cancelled) ∨
        ∃ now task t, m = .finish now task ∧ s.tasks.get? task = some t ∧ t.key = key ∧
          t.drained = true ∧ t.status? = some status)
      (hrun : s.registry.runs.get? key = some run)
      (hruns : ∀ other, (s.perform m).registry.runs.get? other =
        if other = key then none else s.registry.runs.get? other)
      (hnews : ∀ c, newsOn c s m =
        if key.conversation = c then [.turnFinal key.run status] else [])

/-- Who joins a conversation does not touch the runs. -/
theorem registry_follow (s : Coordinator) (connection : Nat) (conversation : String) :
    (s.perform (.follow connection conversation)).registry = s.registry := by
  rcases s.perform_of_connection (.follow connection conversation) rfl with ⟨hub, h⟩
  rw [h]

/-- Every move does one of four things. -/
theorem perform_effect (s : Coordinator) (m : Move) : Effect s m := by
  cases s.perform_change m with
  | aside locks hub directory provider hperform hnews =>
      exact .idle (fun key => by rw [hperform]) hnews
  | starts now key prompt provider hnew hfree hperform hnews =>
      refine .begins now key (some (.task s.launched)) hnew hfree (fun other => ?_) hnews
      rw [hperform]
      exact Table.get?_insert ..
  | cancels now key run hmove hrun hperform hnews =>
      refine .leaves key run .cancelled (Or.inl ⟨now, hmove, rfl⟩) hrun (fun other => ?_) hnews
      rw [hperform]
      exact Registry.get?_without ..
  -- The driver only fills channels, which the runs do not see.
  | drives task t t' tasks hmove ht htasks hperform hnews =>
      exact .idle (fun key => by rw [hperform]) hnews
  | forwards task t t' handover registry hub hmove ht hforward hmost hruns hperform hnews =>
      cases hr : s.registry.runs.get? t.key with
      | none =>
          refine .idle (fun key => ?_) fun c => ?_
          · rw [hperform, hruns]
            by_cases hkey : key = t.key
            · rw [if_pos hkey, hkey, hr, Option.map_none]
            · rw [if_neg hkey]
          · rw [hnews, hr, Option.elim_none, ite_self]
      | some run =>
          refine .goesOn task t t' handover run hmove ht hforward hr (fun key => ?_) fun c => ?_
          · rw [hperform, hruns]
            by_cases hkey : key = t.key
            · rw [if_pos hkey, if_pos hkey, hkey, hr, Option.map_some]
            · rw [if_neg hkey, if_neg hkey]
          · rw [hnews, hr, Option.elim_some]
  | finishes now task t status hmove ht hdrained hstatus hperform hnews =>
      cases hr : s.registry.runs.get? t.key with
      | none =>
          have hc := Table.contains_of_none hr
          refine .idle (fun key => ?_) fun c => ?_
          · rw [hperform, finished, Registry.leave, hc, if_neg Bool.false_ne_true]
          · rw [hnews, hc, if_neg (fun h => Bool.false_ne_true h.1)]
      | some run =>
          have hc := Table.contains_of_some hr
          refine .leaves t.key run status
            (Or.inr ⟨now, task, t, hmove, ht, rfl, hdrained, hstatus⟩) hr (fun key => ?_)
            fun c => ?_
          · rw [hperform]
            exact Registry.get?_leave ..
          · rw [hnews, hc]
            simp only [true_and]

end Coordinator

end Switchboard

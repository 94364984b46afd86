import Switchboard.Proofs.Followers

/-!
# What Cancelled Runs Leave Behind

The task of a run that was cancelled lives on until it notices. By then the
conversation may be held by the task of a later run, and the question is whether
the leftover task can do anything to that run.

Its guard cannot: the hold it is for is over, and the generations tell it from
the one of the later run. What the forwarder of the leftover task hands on and
its end, however, reach the registry under the name of the run alone. Names are
chosen by whoever starts a run, and one that is free again may be chosen again.
So it all depends on the names. If they differ, the leftover task changes
nothing but itself; if they agree and the later run is registered, every step
that is not silent acts on the later run as if it were its own.

## Main definitions

* `Announcement.IsAbout`: Whether an announcement is made in the name of a run.
* `RunTask.Silent`: A step with which a task neither hands on anything nor ends.
* `Coordinator.LeavesAlone`: A move has nothing to do with a run.

## Theorems

* `Coordinator.step_quiet`: A step that is silent or of a run that is gone changes only tasks.
* `Coordinator.step_loud`: Every other step announces something about the run.
* `Coordinator.registered_leaves`: How a run leaves the registry.
* `Coordinator.leftover_leaves_alone_iff`: When a leftover task leaves a later run alone.
* `Coordinator.leftover_ends_namesake`: A leftover task that does not.
-/

namespace Switchboard

/-- Whether an announcement is made in the name of a run. -/
def Announcement.IsAbout (key : RunKey) : Announcement → Prop
  | .sidebar _ => False
  | .conversation id event => event.key id = key

/-- Whether a task neither hands on anything nor ends with a step. -/
def RunTask.Silent (t : RunTask) : Coordinator.Move → Prop
  | .forward _ => ∀ h t', t.forward? = some (h, t') → h = .nothing
  | .finish _ _ => t.drained = true → t.status? = none
  | _ => True

namespace Coordinator

/-- Whether a move has nothing to do with a run. -/
structure LeavesAlone (s : Coordinator) (m : Move) (key : RunKey) : Prop where
  entry : (s.perform m).registry.runs.get? key = s.registry.runs.get? key
  hold : (s.perform m).locks.held.get? key.conversation = s.locks.held.get? key.conversation
  active : (s.perform m).directory.active? key.conversation =
    s.directory.active? key.conversation
  unnamed : ∀ a ∈ s.news m, ¬a.IsAbout key

/-! ### Steps of a task -/

/-- A step that does not concern a registered run, by a task whose hold is over, changes
    nothing but the tasks and is not announced. -/
theorem step_quiet {s : Coordinator} (h : s.Coherent) (task : Nat) (t : RunTask) (m : Move)
    (ht : s.tasks.get? task = some t)
    (hstale : s.locks.held.get? t.guard.conversation ≠ some t.guard.generation)
    (hm : m.IsStepOf task) (hquiet : ¬s.IsRegistered t.key ∨ t.Silent m) :
    (∃ tasks, s.perform m = { s with tasks }) ∧ s.news m = [] := by
  have hgone := (s.not_isRegistered_iff t.key).mp
  cases m with
  | drive clock id => exact ⟨⟨_, rfl⟩, rfl⟩
  | drain id => exact ⟨⟨_, rfl⟩, rfl⟩
  -- The forwarder: either the run is gone, or it is told nothing.
  | forward id =>
      obtain rfl : id = task := hm
      rcases forward_cases s id with ⟨hs, hnews, -⟩ | ⟨u, u', handover, hu, hf, hs, hnews⟩
      · exact ⟨⟨_, hs⟩, hnews⟩
      · obtain rfl : t = u := Option.some.inj (ht.symm.trans hu)
        rcases hquiet with hr | hsilent
        · simp only [hgone hr] at hnews
          exact ⟨⟨_, hs.trans (takeHandover_absent _ _ _ (hgone hr))⟩, hnews⟩
        · obtain rfl : handover = .nothing := hsilent handover u' hf
          refine ⟨⟨_, hs⟩, ?_⟩
          rw [hnews]
          cases s.registry.runs.get? t.key <;> rfl
  | finish now id =>
      obtain rfl : id = task := hm
      rcases finish_cases s now id with ⟨hs, hnews⟩ | ⟨u, status, hu, hd, hst, hs, hnews⟩
      · exact ⟨⟨_, hs⟩, hnews⟩
      · obtain rfl : t = u := Option.some.inj (ht.symm.trans hu)
        -- A task that ends is not silent, so that its run must be gone.
        have hr : ¬s.IsRegistered t.key := by
          rcases hquiet with hr | hsilent
          · exact hr
          · have := hsilent hd
            rw [hst] at this
            exact absurd this (by simp)
        have hcontains := Table.contains_of_none (hgone hr)
        have hactive : s.directory.active? t.key.conversation ≠ some t.key.run :=
          fun ha => hr ((h.registered_iff t.key).mpr ha)
        have hend : s.endNews now t.key status = [] := by
          rw [endNews, hcontains, Directory.unmarkNews, if_neg hactive, if_neg (by simp)]
          rfl
        -- Every store is asked for something it does not have.
        rw [hs, finished, hend, Registry.leave, hcontains, Locks.drop_stale _ _ hstale,
          Directory.unmark, if_neg hactive, if_neg (by simp), hnews]
        exact ⟨⟨_, rfl⟩, hend⟩
  | _ => exact absurd hm (by simp [Move.IsStepOf])

/-- A step that concerns a registered run is announced in its name. -/
theorem step_loud (s : Coordinator) (task : Nat) (t : RunTask) (m : Move)
    (ht : s.tasks.get? task = some t) (hr : s.IsRegistered t.key) (hm : m.IsStepOf task)
    (hloud : ¬t.Silent m) : ∃ a ∈ s.news m, a.IsAbout t.key := by
  rcases Option.isSome_iff_exists.mp hr with ⟨run, hrun⟩
  cases m with
  | forward id =>
      obtain rfl : id = task := hm
      simp only [RunTask.Silent, Classical.not_forall] at hloud
      rcases hloud with ⟨handover, t', hf, hne⟩
      simp only [news, forwardNews, ht, hf, hrun]
      -- Whatever is handed on is reported, unless it is nothing.
      have hreport : ∃ event, event ∈ run.report s.registry.mostTools t.key handover := by
        cases handover with
        | nothing => exact absurd rfl hne
        | restart => exact ⟨_, List.mem_singleton.mpr rfl⟩
        | event e => cases e <;> exact ⟨_, List.mem_singleton.mpr rfl⟩
      rcases hreport with ⟨event, hevent⟩
      exact ⟨_, List.mem_map_of_mem hevent, Run.report_key _ _ _ _ _ hevent⟩
  | finish now id =>
      obtain rfl : id = task := hm
      simp only [RunTask.Silent, Classical.not_imp] at hloud
      rcases hloud with ⟨hd, hs⟩
      rcases Option.ne_none_iff_exists'.mp hs with ⟨status, hs⟩
      have hcontains : s.registry.runs.contains t.key = true := hr
      rw [news, finishNews_eq s now id t status ht hd hs, endNews, if_pos hcontains]
      exact ⟨_, List.mem_append_left _ (List.mem_singleton.mpr rfl), rfl⟩
  | drive clock id => exact absurd trivial hloud
  | drain id => exact absurd trivial hloud
  | _ => exact absurd hm (by simp [Move.IsStepOf])

/-- A step of a task whose hold is over leaves the locks as they are. -/
theorem step_locks (s : Coordinator) (task : Nat) (t : RunTask) (m : Move)
    (ht : s.tasks.get? task = some t)
    (hstale : s.locks.held.get? t.guard.conversation ≠ some t.guard.generation)
    (hm : m.IsStepOf task) : (s.perform m).locks = s.locks := by
  -- Only the end of a task drops a guard, and the one this task holds is stale.
  cases m with
  | drive clock id => rfl
  | drain id => rfl
  | forward id =>
      rcases forward_cases s id with ⟨hs, -, -⟩ | ⟨u, u', handover, -, -, hs, -⟩
      · rw [hs]
      · rcases takeHandover_stores { s with tasks := s.tasks.insert id u' } u.key handover with
          ⟨registry, hub, htook, -⟩
        rw [hs, htook]
  | finish now id =>
      obtain rfl : id = task := hm
      rcases finish_cases s now id with ⟨hs, -⟩ | ⟨u, status, hu, -, -, hs, -⟩
      · rw [hs]
      · obtain rfl : t = u := Option.some.inj (ht.symm.trans hu)
        rw [hs, finished, Locks.drop_stale _ _ hstale]
  | _ => exact absurd hm (by simp [Move.IsStepOf])

/-! ### Leaving the registry -/

/-- A run leaves the registry when it is cancelled or when a task of its name ends. -/
theorem registered_leaves (s : Coordinator) (m : Move) (key : RunKey) (hr : s.IsRegistered key)
    (hgone : ¬(s.perform m).IsRegistered key) :
    (∃ now, m = .cancel now key ∧ (s.cancelRun now key).1 = true) ∨
      ∃ now task t, m = .finish now task ∧ s.tasks.get? task = some t ∧ t.key = key := by
  unfold IsRegistered at hr hgone
  cases perform_effect s m with
  | idle hruns hnews =>
      -- A run leaves only where the effect of the move is a removal; its two causes are a cancel
      -- and the end of a task.
      rw [hruns] at hgone
      exact absurd hr hgone
  | begins now other callback hnew hfree hruns hnews =>
      rw [hruns] at hgone
      by_cases ho : key = other
      · rw [if_pos ho] at hgone
        exact absurd rfl hgone
      · rw [if_neg ho] at hgone
        exact absurd hr hgone
  | goesOn task t t' handover run hmove ht hforward hrun hruns hnews =>
      rw [hruns] at hgone
      by_cases ho : key = t.key
      · rw [if_pos ho] at hgone
        exact absurd rfl hgone
      · rw [if_neg ho] at hgone
        exact absurd hr hgone
  | leaves other run status hmove hrun hruns hnews =>
      rw [hruns] at hgone
      by_cases ho : key = other
      · subst ho
        rcases hmove with ⟨now, hm, -⟩ | ⟨now, task, t, hm, ht, hkey, -, -⟩
        · exact Or.inl ⟨now, hm, by rw [cancelRun_eq s now key run hrun]⟩
        · exact Or.inr ⟨now, task, t, hm, ht, hkey⟩
      · rw [if_neg ho] at hgone
        exact absurd hr hgone

/-! ### Leftover tasks -/

/-- Nothing is registered on a conversation but the run of the task that has the hold. -/
theorem Coherent.registered_key {s : Coordinator} (h : s.Coherent) (task : Nat) (u : RunTask)
    (hu : s.tasks.get? task = some u) (hlive : .task task ∉ s.fired) (key : RunKey)
    (hr : s.IsRegistered key) (hc : key.conversation = u.key.conversation) : key = u.key := by
  have hmu := mandate?_of_task hu
  rcases Option.isSome_iff_exists.mp ((s.isRegistered_iff key).mp hr) with ⟨callback, hcb⟩
  rcases h.carried key callback hcb with ⟨id, m, -, hm, hkey, hnot⟩
  -- The run of another name would have a task of its own with the same hold.
  have hid : id = task := h.task_unique id task m u.mandate hm hmu hnot hlive (hkey ▸ hc)
  subst hid
  rw [← hkey, Option.some.inj (hm.symm.trans hmu)]
  rfl

/-- The task of a cancelled run that is left over never touches the hold of a later run on the
    same conversation. It leaves the later run alone altogether iff the two have different names,
    or the later run is not registered any more, or the step is a silent one. And the later run
    leaves the registry only when it is cancelled, when its own task ends, or when the leftover
    task of a run of the same name does. -/
theorem leftover_leaves_alone_iff (s : Coordinator) (hs : s.Reachable) (later : Nat)
    (u : RunTask) (hu : s.tasks.get? later = some u) (hlive : s.isCancelled later = false) :
    (∀ task t m, s.tasks.get? task = some t → s.isCancelled task = true →
      t.key.conversation = u.key.conversation → m.IsStepOf task →
      (s.perform m).locks.held.get? u.key.conversation = some u.guard.generation ∧
      (s.LeavesAlone m u.key ↔ t.key ≠ u.key ∨ ¬s.IsRegistered u.key ∨ t.Silent m)) ∧
    ∀ m, s.IsRegistered u.key → ¬(s.perform m).IsRegistered u.key →
      (∃ now, m = .cancel now u.key ∧ (s.cancelRun now u.key).1 = true) ∨
      (∃ now, m = .finish now later) ∨
      ∃ now task t, m = .finish now task ∧ s.tasks.get? task = some t ∧
        s.isCancelled task = true ∧ t.key = u.key := by
  have h := hs.coherent
  have hnot := (s.isCancelled_eq_false_iff later).mp hlive
  have hmu := mandate?_of_task hu
  have hheld := h.holds later u.mandate hmu hnot
  constructor
  · intro task t m ht hcancelled hconv hm
    have hmt := mandate?_of_task ht
    have hguard : t.guard.conversation = t.key.conversation := h.guard_conversation task _ hmt
    -- The generations tell the two guards apart.
    have hstale : s.locks.held.get? t.guard.conversation ≠ some t.guard.generation := by
      rw [hguard, hconv]
      intro hsame
      have hid := h.guard_injective later task u.mandate t.mandate hmu hmt
        (Option.some.inj (hheld.symm.trans hsame))
      exact hnot (hid ▸ (s.isCancelled_iff task).mp hcancelled)
    refine ⟨by rw [step_locks s task t m ht hstale hm]; exact hheld, ?_⟩
    constructor
    -- A step that concerns a registered run of the same name would be announced.
    · intro halone
      by_cases hkey : t.key = u.key
      · by_cases hr : s.IsRegistered u.key
        · by_cases hsilent : t.Silent m
          · exact Or.inr (Or.inr hsilent)
          · rcases step_loud s task t m ht (hkey ▸ hr) hm hsilent with ⟨a, ha, habout⟩
            exact absurd (hkey ▸ habout) (halone.unnamed a ha)
        · exact Or.inr (Or.inl hr)
      · exact Or.inl hkey
    · intro hcase
      -- Under another name nothing is registered on the conversation, as the hold is taken.
      have hquiet : ¬s.IsRegistered t.key ∨ t.Silent m := by
        rcases hcase with hkey | hr | hsilent
        · exact Or.inl fun hr => hkey (h.registered_key later u hu hnot t.key hr hconv)
        · exact Or.inl fun hrt => hr (h.registered_key later u hu hnot t.key hrt hconv ▸ hrt)
        · exact Or.inr hsilent
      rcases step_quiet h task t m ht hstale hm hquiet with ⟨⟨tasks, hperform⟩, hnews⟩
      refine ⟨by rw [hperform], by rw [hperform], by rw [hperform], ?_⟩
      rw [hnews]
      intro a ha
      exact absurd ha (by simp)
  · intro m hr hgone
    rcases registered_leaves s m u.key hr hgone with hcancel | ⟨now, task, t, hm, ht, hkey⟩
    · exact Or.inl hcancel
    · refine Or.inr ?_
      by_cases hcancelled : s.isCancelled task = true
      · exact Or.inr ⟨now, task, t, hm, ht, hcancelled, hkey⟩
      · have hmt := mandate?_of_task ht
        -- A task that was not told of a cancellation is the one that has the hold.
        have hid := h.task_unique task later t.mandate u.mandate hmt hmu
          ((s.isCancelled_eq_false_iff task).mp (by simpa using hcancelled)) hnot
          (congrArg RunKey.conversation hkey)
        exact Or.inl ⟨now, hid ▸ hm⟩

/-- A provider that never answers. -/
def stalling : Provider :=
  ⟨"stalling", fun _ => ⟨[.stall], .ok ""⟩⟩

/-- A run is started and cancelled, another one is started on the same conversation, and the
    task of the first one has noticed and is about to end. -/
def restarted (first second : String) : Coordinator :=
  (ofConfig .standard (some stalling)).performAll
    [.create ⟨⟨0, 0⟩, "c"⟩ none "", .start ⟨⟨1, 0⟩, first⟩ "c" none "",
      .cancel ⟨2, 0⟩ ⟨"c", first⟩, .start ⟨⟨3, 0⟩, second⟩ "c" none "", .drive 0 0, .drain 0]

/-- Under a name of its own the second run is left alone when the first task ends. -/
theorem leftover_leaves_other_alone :
    (restarted "i" "j").isCancelled 0 = true ∧
      (restarted "i" "j").LeavesAlone (.finish ⟨4, 0⟩ 0) ⟨"c", "j"⟩ :=
  ⟨rfl, (((leftover_leaves_alone_iff (restarted "i" "j") ⟨_, _, _, rfl⟩ 1
    (.launch ⟨"c", "j"⟩ "" stalling ⟨"c", 2⟩) rfl rfl).1 0
    { key := ⟨"c", "i"⟩, prompt := "", provider := stalling, guard := ⟨"c", 1⟩,
      phase := .ended (.error .aborted), channels := [], reading := false, drained := true }
    (.finish ⟨4, 0⟩ 0) rfl rfl rfl rfl).2).mpr (Or.inl (by decide))⟩

/-- Under the same name the end of the first task takes the second run out of the registry, out
    of the summary and off the wire, while its own task goes on and keeps the conversation
    held. -/
theorem leftover_ends_namesake :
    (restarted "i" "i").isCancelled 0 = true ∧ (restarted "i" "i").isCancelled 1 = false ∧
      ((restarted "i" "i").tasks.get? 1).map (·.key) = some ⟨"c", "i"⟩ ∧
      (restarted "i" "i").IsRegistered ⟨"c", "i"⟩ ∧
      ¬(restarted "i" "i").LeavesAlone (.finish ⟨4, 0⟩ 0) ⟨"c", "i"⟩ ∧
      ¬((restarted "i" "i").perform (.finish ⟨4, 0⟩ 0)).IsRegistered ⟨"c", "i"⟩ ∧
      ((restarted "i" "i").perform (.finish ⟨4, 0⟩ 0)).directory.active? "c" = none ∧
      (((restarted "i" "i").perform (.finish ⟨4, 0⟩ 0)).tasks.get? 1).map (·.key) =
        some ⟨"c", "i"⟩ ∧
      ((restarted "i" "i").perform (.finish ⟨4, 0⟩ 0)).locks.held.get? "c" = some 2 := by
  refine ⟨rfl, rfl, rfl, rfl, fun h => ?_, by unfold IsRegistered; decide, rfl, rfl, rfl⟩
  have hentry := congrArg Option.isSome h.entry
  exact absurd hentry (by decide)

end Coordinator

end Switchboard

import Switchboard.Proofs.Lifespan

/-!
# No Hold is Left Over

A hold keeps every other run off its conversation, so that one that is never
given back would close the conversation for good. It is given back by whoever
cancels the run, by the task when it ends and by a deletion that needed it for
itself only, and each of the three has to be the right one: a hold that is given
back twice would be that of somebody else the second time.

`Coherent` has it both ways. A task is at work on a conversation as long as it
has neither ended nor been told that its run is cancelled; such a task has the
hold, and every hold is that of such a task. What an operation says about a
conversation that is held is therefore something about tasks: a start is refused
because somebody is at work, a conversation is free as soon as a run is
cancelled, and where no task is left nothing is held.

## Main definitions

* `Coordinator.IsAtWork`: A task has neither ended nor been told of a cancellation.

## Theorems

* `Coordinator.startRun_held`, `Coordinator.startRun_free`, `Coordinator.startRun_archived`,
  `Coordinator.held_of_busy`: What a start says, by what it finds.
* `Coordinator.Coherent.held_iff`: A hold is that of a task at work.
* `Coordinator.Coherent.freed`: A run that is cancelled leaves its conversation free.
* `Coordinator.registered_answered`: Runs are registered only where prompts are answered.
* `Coordinator.hold_is_of_task_at_work`: What this means after every course of events.
-/

namespace Switchboard

/-- A summary that loses its run is otherwise the same. -/
theorem Directory.get?_unmark (d : Directory) (now : Timestamp) (key : RunKey)
    (h : d.Named) (c : Conversation) (hc : d.get? key.conversation = some c)
    (hrun : c.activeRun = some key.run) :
    (d.unmark now key).get? key.conversation =
      some { c with activeRun := none, updatedAt := now } := by
  have hid : key.conversation = c.id := (h key.conversation c hc).symm
  have ha : d.active? key.conversation = some key.run := by
    rw [active?, hc, Option.bind_some, hrun]
  have hne : c.activeRun ≠ none := by
    rw [hrun]
    exact Option.some_ne_none _
  unfold unmark mark
  simp only [if_pos ha, hc, if_neg hne]
  rw [upsert_get?, if_pos hid]

namespace Coordinator

/-- Whether a task is there that is for a conversation and was not told that its run is
    cancelled. -/
def IsAtWork (s : Coordinator) (task : Nat) (conversation : String) : Prop :=
  ∃ t, s.tasks.get? task = some t ∧ t.key.conversation = conversation ∧
    s.isCancelled task = false

/-! ### What a start says -/

section Start

variable (s : Coordinator) (occasion : Occasion) (conversation : String) (run : Option String)
  (prompt : String) (provider : Provider) (c : Conversation)

theorem startRun_archived (hp : s.provider = some provider)
    (hc : s.directory.get? conversation = some c) (ha : c.archived = true) :
    (s.startRun occasion conversation run prompt).1 =
      .error (.conflict (.archived conversation)) := by
  unfold startRun
  simp only [hp, hc, ha, if_true]

/-- A run that is not registered is refused on a conversation that is held. -/
theorem startRun_held (hp : s.provider = some provider)
    (hc : s.directory.get? conversation = some c) (ha : c.archived = false)
    (hnew : ¬s.IsRegistered ⟨conversation, run.getD occasion.freshId⟩) (g : Nat)
    (hheld : s.locks.held.get? conversation = some g) :
    (s.startRun occasion conversation run prompt).1 = .error (.conflict (.busy conversation)) := by
  have hr := (s.not_isRegistered_iff _).mp hnew
  have hg : s.registry.get? ⟨conversation, run.getD occasion.freshId⟩ = none := by
    rw [Registry.get?, hr, Option.map_none]
  unfold startRun
  simp only [hp, hc, ha, Bool.false_eq_true, if_false, hg, Locks.acquire?_held _ _ _ hheld]

/-- A run that is not registered is created on a conversation that is free. -/
theorem startRun_free (hp : s.provider = some provider)
    (hc : s.directory.get? conversation = some c) (ha : c.archived = false)
    (hnew : ¬s.IsRegistered ⟨conversation, run.getD occasion.freshId⟩)
    (hfree : s.locks.held.get? conversation = none) :
    ∃ snapshot, (s.startRun occasion conversation run prompt).1 = .ok (.created snapshot) ∧
      snapshot.key = ⟨conversation, run.getD occasion.freshId⟩ := by
  have hr := (s.not_isRegistered_iff _).mp hnew
  have hg : s.registry.get? ⟨conversation, run.getD occasion.freshId⟩ = none := by
    rw [Registry.get?, hr, Option.map_none]
  have hs := launch_eq s occasion.now ⟨conversation, run.getD occasion.freshId⟩ prompt provider hr
  rw [hp] at hs
  refine ⟨Run.snapshot (κ := Callback) (.start occasion.now none)
    ⟨conversation, run.getD occasion.freshId⟩, ?_, rfl⟩
  unfold startRun
  simp only [hp, hc, ha, Bool.false_eq_true, if_false, hg, Locks.acquire?_free _ _ hfree]
  exact congrArg (fun p => Except.ok p.1) hs

/-- A start is refused because of another run only on a conversation that is held. -/
theorem held_of_busy
    (h : (s.startRun occasion conversation run prompt).1 =
      .error (.conflict (.busy conversation))) :
    ∃ g, s.locks.held.get? conversation = some g := by
  cases hheld : s.locks.held.get? conversation with
  | some g => exact ⟨g, rfl⟩
  | none =>
      -- Every other reason comes first or gives another answer.
      exfalso
      unfold startRun at h
      cases hp : s.provider with
      | none => simp [hp] at h
      | some provider =>
          cases hc : s.directory.get? conversation with
          | none => simp [hp, hc, Conflict.notFound, Conflict.busy] at h
          | some c =>
              cases ha : c.archived with
              | true => simp [hp, hc, ha, Conflict.archived, Conflict.busy] at h
              | false =>
                  cases hg : s.registry.get? ⟨conversation, run.getD occasion.freshId⟩ with
                  | some snapshot => simp [hp, hc, ha, hg] at h
                  | none => simp [hp, hc, ha, hg, Locks.acquire?_free _ _ hheld] at h

end Start

/-! ### Whether prompts are answered -/

theorem provider_perform (s : Coordinator) (m : Move) :
    (s.perform m).provider.isSome = s.provider.isSome := by
  cases s.perform_change m with
  | aside locks hub directory provider hperform hnews hprovider =>
      rw [hperform]
      exact hprovider
  -- Runs and tasks do not touch the provider.
  | starts now key prompt provider hnew hfree hperform => rw [hperform, started]
  | cancels now key run hmove hrun hperform => rw [hperform, cancelled]
  | drives task t t' tasks hmove ht htasks hperform => rw [hperform]
  | forwards task t t' h registry hub hmove ht hforward hmost hruns hperform => rw [hperform]
  | finishes now task t status hmove ht hdrained hstatus hperform => rw [hperform, finished]

/-- Runs are registered only where there is somebody to answer prompts. -/
theorem registered_answered (config : ServerConfig) (provider : Option Provider)
    (moves : List Move) (key : RunKey)
    (h : ((ofConfig config provider).performAll moves).IsRegistered key) :
    ((ofConfig config provider).performAll moves).provider.isSome := by
  refine performAll_induction (fun s => s.IsRegistered key → s.provider.isSome) _ moves
    (fun h => absurd h (by simp [IsRegistered, ofConfig, Registry.fresh])) ?_ h
  intro s m ih hafter
  rw [provider_perform]
  by_cases hbefore : s.IsRegistered key
  · exact ih hbefore
  -- Whoever created the run found somebody to answer its prompt.
  · have hcreated := (s.createdBy?_iff m key).mpr ⟨hbefore, hafter⟩
    cases m with
    | start occasion conversation run prompt =>
        rcases startRun_cases s occasion conversation run prompt with
          ⟨e, hs⟩ | ⟨snapshot, -, hs⟩ | ⟨p, c, hp, -, -, -, -, -⟩
        · simp only [createdBy?, hs, reduceCtorEq] at hcreated
        · simp only [createdBy?, hs, reduceCtorEq] at hcreated
        · rw [hp, Option.isSome_some]
    | _ => exact absurd hcreated (by simp [createdBy?])

/-! ### Holds and tasks -/

namespace Coherent

variable {s : Coordinator}

/-- A hold is that of a task at work, and a task at work has its hold. -/
theorem held_iff (h : s.Coherent) (c : String) (g : Nat) :
    s.locks.held.get? c = some g ↔ ∃ task t, s.tasks.get? task = some t ∧
      t.key.conversation = c ∧ t.guard = ⟨c, g⟩ ∧ s.isCancelled task = false := by
  constructor
  -- A hold was taken by the task that has its guard.
  · intro hg
    rcases h.held c g hg with ⟨task, m, hm, hguard, hnot⟩
    have hconv := h.guard_conversation task m hm
    rcases Option.map_eq_some_iff.mp hm with ⟨t, ht, rfl⟩
    have htg : t.guard = ⟨c, g⟩ := hguard
    refine ⟨task, t, ht, ?_, htg, (s.isCancelled_eq_false_iff task).mpr hnot⟩
    rw [hguard] at hconv
    exact hconv.symm
  -- A task that was not told of a cancellation still has its hold.
  · rintro ⟨task, t, ht, rfl, hguard, hlive⟩
    have hheld := h.holds task _ (mandate?_of_task ht) ((s.isCancelled_eq_false_iff task).mp hlive)
    have hgeneration : t.mandate.guard.generation = g := congrArg Guard.generation hguard
    rw [hgeneration] at hheld
    exact hheld

theorem isHeld_iff (h : s.Coherent) (c : String) :
    (∃ g, s.locks.held.get? c = some g) ↔ ∃ task, s.IsAtWork task c := by
  constructor
  · rintro ⟨g, hg⟩
    rcases (h.held_iff c g).mp hg with ⟨task, t, ht, hconv, -, hlive⟩
    exact ⟨task, t, ht, hconv, hlive⟩
  · rintro ⟨task, t, ht, rfl, hlive⟩
    exact ⟨_, h.holds task _ (mandate?_of_task ht) ((s.isCancelled_eq_false_iff task).mp hlive)⟩

/-- A run that is cancelled leaves its conversation free, without a registered run and as it was
    but for the run. -/
theorem freed (h : s.Coherent) (now : Timestamp) (key : RunKey)
    (hcancel : (s.cancelRun now key).1 = true) :
    s.IsRegistered key ∧ (s.cancelRun now key).2.locks.held.get? key.conversation = none ∧
      (s.cancelRun now key).2.provider = s.provider ∧
      ∃ c, s.directory.get? key.conversation = some c ∧
        (s.cancelRun now key).2.directory.get? key.conversation =
          some { c with activeRun := none, updatedAt := now } := by
  cases hr : s.registry.runs.get? key with
  | none =>
      rw [cancelRun_absent s now key hr] at hcancel
      exact absurd hcancel Bool.false_ne_true
  | some run =>
      have hreg : s.IsRegistered key := by rw [IsRegistered, hr, Option.isSome_some]
      rcases Option.bind_eq_some_iff.mp ((h.registered_iff key).mp hreg) with ⟨c, hc, hrun⟩
      rw [cancelRun_eq s now key run hr]
      refine ⟨hreg, ?_, rfl, c, hc, s.directory.get?_unmark now key h.named c hc hrun⟩
      exact (Locks.held_release ..).trans (if_pos rfl)

/-- Where no task is left nothing is held and no run is registered or named by a summary. -/
theorem nothing_left (h : s.Coherent) (hnone : ∀ task, s.tasks.get? task = none) :
    (∀ c, s.locks.held.get? c = none) ∧ (∀ key, ¬s.IsRegistered key) ∧
      ∀ id c, s.directory.get? id = some c → c.activeRun = none := by
  -- A conversation that is held is held by a task, and there is none.
  have hfree : ∀ c, s.locks.held.get? c = none := by
    intro c
    cases hg : s.locks.held.get? c with
    | none => rfl
    | some g =>
        rcases (h.held_iff c g).mp hg with ⟨task, t, ht, -⟩
        exact absurd ((hnone task).symm.trans ht) (by simp)
  have hgone := fun key : RunKey => h.not_registered_of_free key (hfree key.conversation)
  refine ⟨hfree, hgone, fun id c hc => ?_⟩
  -- A run in the summary would be registered.
  cases hrun : c.activeRun with
  | none => rfl
  | some run =>
      refine absurd ((h.registered_iff ⟨id, run⟩).mpr ?_) (hgone _)
      rw [Directory.active?, hc, Option.bind_some, hrun]

end Coherent

/-- After every course of events: a conversation is held exactly by the guard of a task on it
    that has neither ended nor been told of a cancellation. So a run that is not registered, on a
    conversation that is there and not archived, is refused as one too many if such a task is
    there, and created if not; right after a run was cancelled its conversation is still there,
    and a run with any id is created on it unless it was archived meanwhile; and when every task
    has ended nothing is held, no run is registered and no summary names one. -/
theorem hold_is_of_task_at_work (config : ServerConfig) (provider : Option Provider)
    (moves : List Move) :
    let s := (ofConfig config provider).performAll moves
    (∀ c g, s.locks.held.get? c = some g ↔ ∃ task t, s.tasks.get? task = some t ∧
      t.key.conversation = c ∧ t.guard = ⟨c, g⟩ ∧ s.isCancelled task = false) ∧
    (∀ occasion c run prompt,
      (s.startRun occasion c run prompt).1 = .error (.conflict (.busy c)) →
      ∃ task, s.IsAtWork task c) ∧
    (∀ occasion c x run prompt, s.provider.isSome → s.directory.get? c = some x →
      x.archived = false → ¬s.IsRegistered ⟨c, run.getD occasion.freshId⟩ →
      ((∃ task, s.IsAtWork task c) ∧
          (s.startRun occasion c run prompt).1 = .error (.conflict (.busy c)) ∨
        (¬∃ task, s.IsAtWork task c) ∧
          ∃ snapshot, (s.startRun occasion c run prompt).1 = .ok (.created snapshot) ∧
            snapshot.key = ⟨c, run.getD occasion.freshId⟩)) ∧
    (∀ now key, (s.cancelRun now key).1 = true →
      ∃ x, s.directory.get? key.conversation = some x ∧ ∀ occasion run prompt,
        (x.archived = false → ∃ snapshot,
          ((s.cancelRun now key).2.startRun occasion key.conversation run prompt).1 =
            .ok (.created snapshot) ∧
          snapshot.key = ⟨key.conversation, run.getD occasion.freshId⟩) ∧
        (x.archived = true →
          ((s.cancelRun now key).2.startRun occasion key.conversation run prompt).1 =
            .error (.conflict (.archived key.conversation)))) ∧
    ((∀ task, s.tasks.get? task = none) →
      (∀ c, s.locks.held.get? c = none) ∧ (∀ key, ¬s.IsRegistered key) ∧
        ∀ id c, s.directory.get? id = some c → c.activeRun = none) := by
  intro s
  have h : s.Coherent := coherent_performAll config provider moves
  refine ⟨h.held_iff, ?_, ?_, ?_, h.nothing_left⟩
  -- Somebody is at work where a start finds the conversation held.
  · intro occasion c run prompt hbusy
    exact (h.isHeld_iff c).mp (s.held_of_busy occasion c run prompt hbusy)
  · intro occasion c x run prompt hprovider hx ha hnew
    rcases Option.isSome_iff_exists.mp hprovider with ⟨p, hp⟩
    -- The conversation is held or free, which settles the answer.
    cases hg : s.locks.held.get? c with
    | some g =>
        exact Or.inl ⟨(h.isHeld_iff c).mp ⟨g, hg⟩,
          s.startRun_held occasion c run prompt p x hp hx ha hnew g hg⟩
    | none =>
        refine Or.inr ⟨fun hwork => ?_, s.startRun_free occasion c run prompt p x hp hx ha hnew hg⟩
        rcases (h.isHeld_iff c).mpr hwork with ⟨g, hheld⟩
        rw [hg] at hheld
        exact absurd hheld (by simp)
  · intro now key hcancel
    -- The hold of the run is given back by its cancellation.
    rcases h.freed now key hcancel with ⟨hreg, hfree, hsame, x, hx, hx'⟩
    have hanswered := registered_answered config provider moves key hreg
    rcases Option.isSome_iff_exists.mp hanswered with ⟨p, hp⟩
    have hafter := h.cancelRun now key
    refine ⟨x, hx, fun occasion run prompt => ⟨fun ha => ?_, fun ha => ?_⟩⟩
    · exact startRun_free _ occasion key.conversation run prompt p _ (hsame.trans hp) hx' ha
        (hafter.not_registered_of_free _ hfree) hfree
    · exact startRun_archived _ occasion key.conversation run prompt p _ (hsame.trans hp) hx' ha

end Coordinator

end Switchboard

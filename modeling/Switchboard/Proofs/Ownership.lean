import Switchboard.Proofs.Moves
import Switchboard.Proofs.Summaries

/-!
# Who Holds What

The stores of the coordinator agree with each other after every course of
events: a run that is registered is carried out by a task which has the hold on
the conversation, and the summary of the conversation says so.

The statement one is after, that a registered run is held by its own task, is
not preserved by itself. The hold is given back in two ways, by whoever cancels
the run and by the task when it ends, and the task of a cancelled run lives on
with a guard for a hold that is over. What makes the difference is that a hold
has a generation: `Coherent` says that guards of different tasks have different
generations, that a task which was not told of a cancellation has the current
hold, and that every hold is had by such a task. A task that was told has
nothing left that could be mistaken for the hold of another one.

Only the mandates of the tasks count here, so that the steps which merely let a
task go on are dealt with at once by `Coherent.of_same`. What is left are the
three operations that change who holds what: a start, a cancellation and an end.

## Main definitions

* `Coordinator.IsRegistered`, `Coordinator.callback?`: Whether a run is registered, and what is
  done when it is cancelled.
* `Coordinator.Coherent`: The stores agree.

## Theorems

* `Coordinator.Coherent.of_same`: Nothing else counts.
* `Coordinator.Coherent.started`, `Coordinator.Coherent.cancelled`,
  `Coordinator.Coherent.finished`: The stores agree after a start, a cancellation and an end.
* `Coordinator.Coherent.perform`, `Coordinator.coherent_performAll`: They agree after every move
  and after every course of events.
* `Coordinator.registered_run_held`: What this means for the runs that are registered.
-/

namespace Switchboard

namespace Locks

/-- A guard that is dropped gives back its own hold and nothing else. -/
theorem held_drop (l : Locks) (g : Guard) (c : String) :
    (l.drop g).held.get? c =
      if c = g.conversation ∧ l.held.get? c = some g.generation then none else l.held.get? c := by
  unfold drop
  by_cases hg : l.held.get? g.conversation = some g.generation
  · rw [if_pos hg, release, Table.get?_erase]
    by_cases hc : c = g.conversation
    · rw [if_pos hc, if_pos ⟨hc, hc ▸ hg⟩]
    · rw [if_neg hc, if_neg fun hp => hc hp.1]
  · have hn : ¬(c = g.conversation ∧ l.held.get? c = some g.generation) :=
      fun hp => hg (hp.1 ▸ hp.2)
    rw [if_neg hg, if_neg hn]

theorem taken_drop (l : Locks) (g : Guard) : (l.drop g).taken = l.taken := by
  unfold drop
  split <;> rfl

theorem held_taking (l : Locks) (conversation c : String) :
    (l.taking conversation).held.get? c =
      if c = conversation then some (l.taken + 1) else l.held.get? c :=
  Table.get?_insert ..

theorem held_release (l : Locks) (conversation c : String) :
    (l.release conversation).held.get? c =
      if c = conversation then none else l.held.get? c :=
  Table.get?_erase ..

/-- A hold that was taken and given back at once leaves the holds as they were. -/
theorem held_taking_drop (l : Locks) (conversation c : String)
    (hfree : l.held.get? conversation = none) :
    ((l.taking conversation).drop ⟨conversation, l.taken + 1⟩).held.get? c = l.held.get? c := by
  -- The guard has the generation of the hold, so that it gives it back.
  rw [held_drop, held_taking]
  by_cases hc : c = conversation
  · rw [if_pos hc, if_pos ⟨hc, rfl⟩, hc, hfree]
  · rw [if_neg hc, if_neg fun hp => hc hp.1]

end Locks

namespace Coordinator

/-- Whether a run is registered. -/
def IsRegistered (s : Coordinator) (key : RunKey) : Prop :=
  (s.registry.runs.get? key).isSome

/-- What is done when a run is cancelled, if it is registered. -/
def callback? (s : Coordinator) (key : RunKey) : Option (Option Callback) :=
  (s.registry.runs.get? key).map (·.onCancel)

theorem isRegistered_iff (s : Coordinator) (key : RunKey) :
    s.IsRegistered key ↔ (s.callback? key).isSome := by
  rw [IsRegistered, callback?, Option.isSome_map]

theorem not_isRegistered_iff (s : Coordinator) (key : RunKey) :
    ¬s.IsRegistered key ↔ s.registry.runs.get? key = none := by
  rw [IsRegistered, Option.not_isSome_iff_eq_none]

theorem isCancelled_iff (s : Coordinator) (task : Nat) :
    s.isCancelled task = true ↔ .task task ∈ s.fired := by
  rw [isCancelled, List.contains_eq_mem, decide_eq_true_iff]

theorem isCancelled_eq_false_iff (s : Coordinator) (task : Nat) :
    s.isCancelled task = false ↔ .task task ∉ s.fired := by
  rw [isCancelled, List.contains_eq_mem, decide_eq_false_iff_not]

/-- The guards tell the tasks apart. -/
structure Guarded (s : Coordinator) : Prop where
  /-- A guard is for the conversation of its task. -/
  guard_conversation : ∀ id m, s.mandate? id = some m → m.guard.conversation = m.key.conversation
  guard_taken : ∀ id m, s.mandate? id = some m → m.guard.generation ≤ s.locks.taken
  guard_injective : ∀ id id' m m', s.mandate? id = some m → s.mandate? id' = some m' →
    m.guard.generation = m'.guard.generation → id = id'
  task_launched : ∀ id m, s.mandate? id = some m → id < s.launched
  fired_launched : ∀ id, .task id ∈ s.fired → id < s.launched

/-- The stores agree. -/
structure Coherent (s : Coordinator) : Prop extends Guarded s where
  /-- A task that was not told of a cancellation has its hold. -/
  holds : ∀ id m, s.mandate? id = some m → .task id ∉ s.fired →
    s.locks.held.get? m.key.conversation = some m.guard.generation
  /-- Every hold is that of such a task. -/
  held : ∀ c g, s.locks.held.get? c = some g →
    ∃ id m, s.mandate? id = some m ∧ m.guard = ⟨c, g⟩ ∧ .task id ∉ s.fired
  /-- Every registered run is carried out by such a task. -/
  carried : ∀ key callback, s.callback? key = some callback →
    ∃ id m, callback = some (.task id) ∧ s.mandate? id = some m ∧ m.key = key ∧
      .task id ∉ s.fired
  named : s.directory.Named
  /-- The summaries name the registered runs and no others. -/
  registered_iff : ∀ key, s.IsRegistered key ↔
    s.directory.active? key.conversation = some key.run

/-! ### Guards -/

/-- Guards that are gone leave the other ones different. -/
theorem Guarded.of_fewer {s : Coordinator} (h : s.Guarded) (s' : Coordinator)
    (hmandate : ∀ id m, s'.mandate? id = some m → s.mandate? id = some m)
    (htaken : s.locks.taken ≤ s'.locks.taken) (hlaunched : s'.launched = s.launched)
    (hfired : ∀ id, .task id ∈ s'.fired → id < s'.launched) : s'.Guarded where
  guard_conversation id m hm := h.guard_conversation id m (hmandate id m hm)
  guard_taken id m hm := Nat.le_trans (h.guard_taken id m (hmandate id m hm)) htaken
  guard_injective id id' m m' hm hm' :=
    h.guard_injective id id' m m' (hmandate id m hm) (hmandate id' m' hm')
  task_launched id m hm := hlaunched ▸ h.task_launched id m (hmandate id m hm)
  fired_launched := hfired

/-- The new task is the only one with its number. -/
theorem mandate?_started (s : Coordinator) (now : Timestamp) (key : RunKey) (prompt : String)
    (provider : Provider) (id : Nat) :
    (s.started now key prompt provider).mandate? id =
      if id = s.launched then some ⟨key, prompt, provider, key.conversation, s.locks.taken + 1⟩
      else s.mandate? id := by
  simp only [mandate?, started, Table.get?_insert]
  split <;> rfl

/-- The guard of a new task has a generation that no guard had before. -/
theorem Guarded.started {s : Coordinator} (h : s.Guarded) (now : Timestamp) (key : RunKey)
    (prompt : String) (provider : Provider) : (s.started now key prompt provider).Guarded := by
  -- One more task, under a guard whose generation is new; each clause asks whether a task is that
  -- one.
  refine ⟨?_, ?_, ?_, ?_, ?_⟩
  · intro id m hm
    rw [mandate?_started] at hm
    by_cases hid : id = s.launched
    · rw [if_pos hid, Option.some.injEq] at hm
      rw [← hm]
    · rw [if_neg hid] at hm
      exact h.guard_conversation id m hm
  · intro id m hm
    rw [mandate?_started] at hm
    by_cases hid : id = s.launched
    · rw [if_pos hid, Option.some.injEq] at hm
      rw [← hm]
      exact Nat.le_refl _
    · rw [if_neg hid] at hm
      exact Nat.le_succ_of_le (h.guard_taken id m hm)
  · intro id id' m m' hm hm' hg
    rw [mandate?_started] at hm hm'
    by_cases hid : id = s.launched
    -- The generation of the new guard lies above all that were given out before.
    · by_cases hid' : id' = s.launched
      · rw [hid, hid']
      · rw [if_pos hid, Option.some.injEq] at hm
        rw [if_neg hid'] at hm'
        have := h.guard_taken id' m' hm'
        rw [← hg, ← hm] at this
        exact absurd this (Nat.not_succ_le_self _)
    · rw [if_neg hid] at hm
      by_cases hid' : id' = s.launched
      · rw [if_pos hid', Option.some.injEq] at hm'
        have := h.guard_taken id m hm
        rw [hg, ← hm'] at this
        exact absurd this (Nat.not_succ_le_self _)
      · rw [if_neg hid'] at hm'
        exact h.guard_injective id id' m m' hm hm' hg
  · intro id m hm
    rw [mandate?_started] at hm
    by_cases hid : id = s.launched
    · rw [hid]
      exact Nat.lt_succ_self _
    · rw [if_neg hid] at hm
      exact Nat.lt_succ_of_lt (h.task_launched id m hm)
  · intro id hid
    exact Nat.lt_succ_of_lt (h.fired_launched id hid)

theorem ofConfig_coherent (config : ServerConfig) (provider : Option Provider) :
    (ofConfig config provider).Coherent where
  guard_conversation _ _ hm := absurd hm (by simp [mandate?, ofConfig])
  guard_taken _ _ hm := absurd hm (by simp [mandate?, ofConfig])
  guard_injective _ _ _ _ hm := absurd hm (by simp [mandate?, ofConfig])
  task_launched _ _ hm := absurd hm (by simp [mandate?, ofConfig])
  fired_launched _ hf := absurd hf (by simp [ofConfig])
  holds _ _ hm := absurd hm (by simp [mandate?, ofConfig])
  held _ _ hg := absurd hg (by simp [ofConfig, Locks.fresh])
  carried _ _ hc := absurd hc (by simp [callback?, ofConfig, Registry.fresh])
  named _ _ hx := absurd hx (by simp [ofConfig, Directory.fresh, Directory.get?])
  registered_iff _ := by
    simp [IsRegistered, ofConfig, Registry.fresh, Directory.active?, Directory.fresh,
      Directory.get?]

namespace Coherent

variable {s : Coordinator}

/-- A conversation that is not held has no registered run. -/
theorem not_registered_of_free (h : s.Coherent) (key : RunKey)
    (hfree : s.locks.held.get? key.conversation = none) : ¬s.IsRegistered key := by
  intro hr
  rcases Option.isSome_iff_exists.mp ((s.isRegistered_iff key).mp hr) with ⟨callback, hcb⟩
  rcases h.carried key callback hcb with ⟨id, m, -, hm, hkey, hnot⟩
  have hheld := h.holds id m hm hnot
  rw [hkey, hfree] at hheld
  exact absurd hheld (by simp)

/-- A conversation has at most one registered run. -/
theorem registered_unique (h : s.Coherent) (key key' : RunKey) (hr : s.IsRegistered key)
    (hr' : s.IsRegistered key') (hc : key.conversation = key'.conversation) : key = key' := by
  -- The summary of the conversation names both runs.
  have ha := (h.registered_iff key).mp hr
  have ha' := (h.registered_iff key').mp hr'
  rw [hc, ha', Option.some.injEq] at ha
  exact RunKey.ext hc ha.symm

/-- Of two tasks that were not told of a cancellation only one can be at work on a
    conversation. -/
theorem task_unique (h : s.Coherent) (id id' : Nat) (m m' : RunTask.Mandate)
    (hm : s.mandate? id = some m) (hm' : s.mandate? id' = some m') (hn : .task id ∉ s.fired)
    (hn' : .task id' ∉ s.fired) (hc : m.key.conversation = m'.key.conversation) : id = id' := by
  have hh := h.holds id m hm hn
  have hh' := h.holds id' m' hm' hn'
  rw [hc, hh', Option.some.injEq] at hh
  exact h.guard_injective id id' m m' hm hm' hh.symm

/-- Only the holds, the mandates, the callbacks and the summaries count. -/
theorem of_same (h : s.Coherent) (s' : Coordinator)
    (hmandate : ∀ id, s'.mandate? id = s.mandate? id)
    (hheld : ∀ c, s'.locks.held.get? c = s.locks.held.get? c)
    (htaken : s.locks.taken ≤ s'.locks.taken) (hlaunched : s'.launched = s.launched)
    (hfired : s'.fired = s.fired) (hcallback : ∀ key, s'.callback? key = s.callback? key)
    (hnamed : s'.directory.Named)
    (hactive : ∀ c, s'.directory.active? c = s.directory.active? c) : s'.Coherent where
  toGuarded := by
    -- Every clause reads the state through what the two states agree on.
    refine h.toGuarded.of_fewer s' (fun id m hm => hmandate id ▸ hm) htaken hlaunched ?_
    rw [hfired, hlaunched]
    exact h.fired_launched
  holds := by
    intro id m hm hnot
    rw [hheld]
    exact h.holds id m (hmandate id ▸ hm) (hfired ▸ hnot)
  held := by
    intro c g hg
    rcases h.held c g (hheld c ▸ hg) with ⟨id, m, hm, hguard, hnot⟩
    exact ⟨id, m, (hmandate id).trans hm, hguard, hfired.symm ▸ hnot⟩
  carried := by
    intro key callback hcb
    rcases h.carried key callback (hcallback key ▸ hcb) with ⟨id, m, hid, hm, hkey, hnot⟩
    exact ⟨id, m, hid, (hmandate id).trans hm, hkey, hfired.symm ▸ hnot⟩
  named := hnamed
  registered_iff := by
    intro key
    rw [isRegistered_iff, hcallback, hactive, ← isRegistered_iff]
    exact h.registered_iff key

/-! ### Start, cancellation and end -/

theorem started (h : s.Coherent) (now : Timestamp) (key : RunKey) (prompt : String)
    (provider : Provider) (hlisted : (s.directory.get? key.conversation).isSome)
    (hfree : s.locks.held.get? key.conversation = none) :
    (s.started now key prompt provider).Coherent := by
  have hheld : ∀ c, (s.started now key prompt provider).locks.held.get? c =
      if c = key.conversation then some (s.locks.taken + 1) else s.locks.held.get? c :=
    fun c => Locks.held_taking ..
  have hcallback : ∀ other, (s.started now key prompt provider).callback? other =
      if other = key then some (some (.task s.launched)) else s.callback? other := by
    intro other
    simp only [callback?, Coordinator.started, Table.get?_insert]
    split <;> rfl
  have hactive : ∀ c, (s.started now key prompt provider).directory.active? c =
      if c = key.conversation then some key.run else s.directory.active? c := by
    intro c
    have := Directory.active?_mark s.directory now key.conversation (some key.run) h.named c
    simp only [hlisted, and_true] at this
    exact this
  -- Nobody can have told a task that was not launched yet.
  have hnew : .task s.launched ∉ s.fired :=
    fun hf => Nat.lt_irrefl _ (h.fired_launched s.launched hf)
  refine ⟨h.toGuarded.started now key prompt provider, ?_, ?_, ?_, ?_, ?_⟩
  · intro id m hm hnot
    rw [mandate?_started] at hm
    rw [hheld]
    by_cases hid : id = s.launched
    · rw [if_pos hid, Option.some.injEq] at hm
      rw [← hm, if_pos rfl]
    · rw [if_neg hid] at hm
      have hold := h.holds id m hm hnot
      -- A task that has its hold is at work elsewhere, as this conversation was free.
      have hc : m.key.conversation ≠ key.conversation := by
        intro hc
        rw [hc, hfree] at hold
        exact absurd hold (by simp)
      rw [if_neg hc]
      exact hold
  · intro c g hg
    rw [hheld] at hg
    by_cases hc : c = key.conversation
    · rw [if_pos hc, Option.some.injEq] at hg
      exact ⟨s.launched, _, (mandate?_started ..).trans (if_pos rfl), by rw [hc, hg], hnew⟩
    · rw [if_neg hc] at hg
      rcases h.held c g hg with ⟨id, m, hm, hguard, hnot⟩
      have hid : id ≠ s.launched := Nat.ne_of_lt (h.task_launched id m hm)
      exact ⟨id, m, by rw [mandate?_started, if_neg hid, hm], hguard, hnot⟩
  · intro other callback hcb
    rw [hcallback] at hcb
    by_cases ho : other = key
    · rw [if_pos ho, Option.some.injEq] at hcb
      exact ⟨s.launched, _, hcb.symm, (mandate?_started ..).trans (if_pos rfl), ho.symm, hnew⟩
    · rw [if_neg ho] at hcb
      rcases h.carried other callback hcb with ⟨id, m, hcall, hm, hkey, hnot⟩
      have hid : id ≠ s.launched := Nat.ne_of_lt (h.task_launched id m hm)
      exact ⟨id, m, hcall, by rw [mandate?_started, if_neg hid, hm], hkey, hnot⟩
  · exact Directory.named_mark _ _ _ _ h.named
  · intro other
    rw [isRegistered_iff, hcallback, hactive]
    by_cases hc : other.conversation = key.conversation
    · rw [if_pos hc, Option.some.injEq]
      by_cases hr : other = key
      · rw [if_pos hr, hr]
        exact ⟨fun _ => rfl, fun _ => rfl⟩
      -- Neither side holds: the conversation was free, and the summary names the new run.
      · rw [if_neg hr, ← isRegistered_iff]
        constructor
        · intro hreg
          exact absurd hreg (h.not_registered_of_free other (hc ▸ hfree))
        · intro hrun
          exact absurd (RunKey.ext hc hrun.symm) hr
    · have hr : other ≠ key := fun e => hc (e ▸ rfl)
      rw [if_neg hc, if_neg hr, ← isRegistered_iff]
      exact h.registered_iff other

/-- A run that leaves the registry and its summary leaves the others in both. -/
theorem registered_iff_unmark (h : s.Coherent) (now : Timestamp) (key other : RunKey) :
    other ≠ key ∧ s.IsRegistered other ↔
      (s.directory.unmark now key).active? other.conversation = some other.run := by
  rw [Directory.active?_unmark _ _ _ h.named, h.registered_iff]
  -- Unmarking takes effect for the active run only, which is what it names by then.
  by_cases hc : other.conversation = key.conversation ∧
      s.directory.active? other.conversation = some key.run
  · rw [if_pos hc, hc.2]
    constructor
    · rintro ⟨hne, hrun⟩
      exact absurd (RunKey.ext hc.1 (Option.some.inj hrun).symm) hne
    · intro hnone
      exact absurd hnone (by simp)
  · rw [if_neg hc]
    constructor
    · exact fun hp => hp.2
    · intro hrun
      refine ⟨fun e => hc ?_, hrun⟩
      rw [← e]
      exact ⟨rfl, hrun⟩

theorem cancelled (h : s.Coherent) (now : Timestamp) (key : RunKey) (run : Run Callback)
    (hrun : s.registry.runs.get? key = some run) : (s.cancelled now key run).Coherent := by
  have hcb : s.callback? key = some run.onCancel := by rw [callback?, hrun, Option.map_some]
  -- The task that is told.
  rcases h.carried key run.onCancel hcb with ⟨task, m₀, hcall, hm₀, hkey, hnot₀⟩
  have hheld : ∀ c, (s.cancelled now key run).locks.held.get? c =
      if c = key.conversation then none else s.locks.held.get? c :=
    fun c => Locks.held_release ..
  have hfired : ∀ id, .task id ∈ (s.cancelled now key run).fired ↔
      .task id ∈ s.fired ∨ id = task := by
    intro id
    simp only [Coordinator.cancelled, hcall, Option.toList_some, List.mem_append,
      List.mem_singleton, Callback.task.injEq]
  have hcallback : ∀ other, (s.cancelled now key run).callback? other =
      if other = key then none else s.callback? other := by
    intro other
    simp only [callback?, Coordinator.cancelled, Registry.get?_without]
    split <;> rfl
  refine ⟨?_, ?_, ?_, ?_, ?_, ?_⟩
  · refine h.toGuarded.of_fewer _ (fun id m hm => hm) (Nat.le_refl _) rfl ?_
    intro id hid
    rcases (hfired id).mp hid with hold | rfl
    · exact h.fired_launched id hold
    · exact h.task_launched id m₀ hm₀
  · intro id m hm hnot
    -- Of the tasks that were not told only this one was at work on the conversation.
    have hnot' := fun hp => hnot ((hfired id).mpr hp)
    have hc : m.key.conversation ≠ key.conversation := by
      intro hc
      exact hnot' (Or.inr (h.task_unique id task m m₀ hm hm₀ (fun hf => hnot' (Or.inl hf)) hnot₀
        (hkey ▸ hc)))
    rw [hheld, if_neg hc]
    exact h.holds id m hm fun hf => hnot' (Or.inl hf)
  · intro c g hg
    rw [hheld] at hg
    by_cases hc : c = key.conversation
    · rw [if_pos hc] at hg
      exact absurd hg (by simp)
    · rw [if_neg hc] at hg
      -- A hold elsewhere is not that of the task that was told.
      rcases h.held c g hg with ⟨id, m, hm, hguard, hnot⟩
      refine ⟨id, m, hm, hguard, fun hf => ?_⟩
      rcases (hfired id).mp hf with hold | rfl
      · exact hnot hold
      · have hconv := h.guard_conversation id m hm
        rw [hguard, Option.some.inj (hm.symm.trans hm₀), hkey] at hconv
        exact hc hconv
  · intro other callback hother
    rw [hcallback] at hother
    by_cases ho : other = key
    · rw [if_pos ho] at hother
      exact absurd hother (by simp)
    · rw [if_neg ho] at hother
      rcases h.carried other callback hother with ⟨id, m, hid, hm, hkey', hnot⟩
      refine ⟨id, m, hid, hm, hkey', fun hf => ?_⟩
      rcases (hfired id).mp hf with hold | rfl
      · exact hnot hold
      · exact ho (by rw [← hkey', Option.some.inj (hm.symm.trans hm₀), hkey])
  · exact Directory.named_unmark _ _ _ h.named
  · intro other
    refine Iff.trans ?_ (h.registered_iff_unmark now key other)
    rw [isRegistered_iff, isRegistered_iff, hcallback]
    by_cases ho : other = key <;> simp [ho]

theorem finished (h : s.Coherent) (now : Timestamp) (task : Nat) (t : RunTask)
    (status : FinalStatus) (ht : s.tasks.get? task = some t) :
    (s.finished now task t status).Coherent := by
  have hm₀ := mandate?_of_task ht
  have hmandate : ∀ id, (s.finished now task t status).mandate? id =
      if id = task then none else s.mandate? id := by
    intro id
    simp only [mandate?, Coordinator.finished, Table.get?_erase]
    split <;> rfl
  have hmandate_of : ∀ id m, (s.finished now task t status).mandate? id = some m →
      id ≠ task ∧ s.mandate? id = some m := by
    intro id m hm
    rw [hmandate] at hm
    by_cases hid : id = task
    · rw [if_pos hid] at hm
      exact absurd hm (by simp)
    · rw [if_neg hid] at hm
      exact ⟨hid, hm⟩
  have hcallback : ∀ other, (s.finished now task t status).callback? other =
      if other = t.key then none else s.callback? other := by
    intro other
    simp only [callback?, Coordinator.finished, Registry.get?_leave]
    split <;> rfl
  refine ⟨?_, ?_, ?_, ?_, ?_, ?_⟩
  -- The task that ends takes its mandate and its guard with it; the others keep theirs.
  · refine h.toGuarded.of_fewer _ (fun id m hm => (hmandate_of id m hm).2) ?_ rfl
      h.fired_launched
    simp only [Coordinator.finished, Locks.taken_drop]
    exact Nat.le_refl _
  · intro id m hm hnot
    rcases hmandate_of id m hm with ⟨hid, hm⟩
    have hold := h.holds id m hm hnot
    simp only [Coordinator.finished, Locks.held_drop]
    -- The guard that is dropped has another generation than the hold of a task that is left.
    rw [if_neg, hold]
    rintro ⟨-, hg⟩
    rw [hold, Option.some.injEq] at hg
    exact hid (h.guard_injective id task m t.mandate hm hm₀ hg)
  · intro c g hg
    simp only [Coordinator.finished, Locks.held_drop] at hg
    by_cases hc : c = t.guard.conversation ∧ s.locks.held.get? c = some t.guard.generation
    · rw [if_pos hc] at hg
      exact absurd hg (by simp)
    · rw [if_neg hc] at hg
      rcases h.held c g hg with ⟨id, m, hm, hguard, hnot⟩
      refine ⟨id, m, ?_, hguard, hnot⟩
      -- A hold that is left is not that of the task that ended.
      rw [hmandate, if_neg, hm]
      rintro rfl
      have hmt : t.guard = ⟨c, g⟩ := by
        rw [← hguard, Option.some.inj (hm.symm.trans hm₀)]
        rfl
      exact hc ⟨by rw [hmt], by rw [hg, hmt]⟩
  · intro other callback hother
    rw [hcallback] at hother
    by_cases ho : other = t.key
    · rw [if_pos ho] at hother
      exact absurd hother (by simp)
    · rw [if_neg ho] at hother
      rcases h.carried other callback hother with ⟨id, m, hcall, hm, hkey, hnot⟩
      refine ⟨id, m, hcall, ?_, hkey, hnot⟩
      rw [hmandate, if_neg, hm]
      rintro rfl
      exact ho (by rw [← hkey, Option.some.inj (hm.symm.trans hm₀)]; rfl)
  · exact Directory.named_unmark _ _ _ h.named
  · intro other
    refine Iff.trans ?_ (h.registered_iff_unmark now t.key other)
    rw [isRegistered_iff, isRegistered_iff, hcallback]
    by_cases ho : other = t.key <;> simp [ho]

/-! ### The other moves -/

/-- It does not matter who listens. -/
theorem with_hub (h : s.Coherent) (hub : Hub) : ({ s with hub } : Coordinator).Coherent :=
  h.of_same _ (fun _ => rfl) (fun _ => rfl) (Nat.le_refl _) rfl rfl (fun _ => rfl) h.named
    fun _ => rfl

/-- A summary may change as long as it names the same run. -/
theorem stored (h : s.Coherent) (now : Timestamp) (c : Conversation)
    (hrun : s.directory.active? c.id = c.activeRun) : (s.store now c).2.Coherent :=
  h.of_same _ (fun _ => rfl) (fun _ => rfl) (Nat.le_refl _) rfl rfl (fun _ => rfl)
    (Directory.named_upsert _ _ _ h.named)
    fun id => Directory.active?_upsert_same _ _ _ id hrun

theorem createConversation (h : s.Coherent) (occasion : Occasion) (id : Option String)
    (title : String) : (s.createConversation occasion id title).2.Coherent := by
  simp only [Coordinator.createConversation]
  cases hc : s.directory.get? (id.getD occasion.freshId) with
  | none =>
      refine h.stored _ _ ?_
      rw [Conversation.fresh, Directory.active?, hc, Option.bind_none]
  | some c =>
      have hid := h.named _ c hc
      refine h.stored _ _ ?_
      rw [Directory.active?, hid, hc, Option.bind_some]

theorem archiveConversation (h : s.Coherent) (now : Timestamp) (id : String) :
    (s.archiveConversation now id).2.Coherent := by
  simp only [Coordinator.archiveConversation]
  cases hc : s.directory.get? id with
  | none => exact h
  | some c =>
      have hid := h.named id c hc
      refine h.stored _ _ ?_
      rw [Directory.active?, hid, hc, Option.bind_some]

/-- A conversation that is not held names no run, so that nothing is lost with its summary. -/
theorem deleteConversation (h : s.Coherent) (id : String) :
    (s.deleteConversation id).2.Coherent := by
  cases hl : s.locks.held.get? id with
  | some g =>
      -- While the conversation is held the delete is refused.
      simp only [Coordinator.deleteConversation, Locks.acquire?_held _ _ _ hl]
      exact h
  | none =>
      -- The delete takes the lock for its own duration, so that afterwards it is as free as before.
      have hheld := fun c => Locks.held_taking_drop s.locks id c hl
      have htaken : s.locks.taken ≤
          ((s.locks.taking id).drop ⟨id, s.locks.taken + 1⟩).taken := by
        rw [Locks.taken_drop]
        exact Nat.le_succ _
      simp only [Coordinator.deleteConversation, Locks.acquire?_free _ _ hl]
      cases hc : s.directory.get? id with
      | none =>
          exact h.of_same _ (fun _ => rfl) hheld htaken rfl rfl (fun _ => rfl) h.named
            fun _ => rfl
      | some x =>
          refine h.of_same _ (fun _ => rfl) hheld htaken rfl rfl (fun _ => rfl)
            (Directory.named_delete _ _ h.named) fun c => ?_
          refine (Directory.active?_delete ..).trans ?_
          -- A conversation that is free has no registered run, hence no active run to lose.
          by_cases hcid : c = id
          · rw [if_pos hcid]
            cases ha : s.directory.active? c with
            | none => rfl
            | some run =>
                have hreg := (h.registered_iff ⟨c, run⟩).mpr ha
                exact absurd hreg (h.not_registered_of_free ⟨c, run⟩ (hcid ▸ hl))
          · rw [if_neg hcid]

theorem startRun (h : s.Coherent) (occasion : Occasion) (conversation : String)
    (run : Option String) (prompt : String) :
    (s.startRun occasion conversation run prompt).2.Coherent := by
  rcases startRun_cases s occasion conversation run prompt with
    ⟨e, hs⟩ | ⟨snapshot, -, hs⟩ | ⟨provider, c, -, hc, -, -, hfree, hs⟩
  · rw [hs]
    exact h
  · rw [hs]
    exact h
  · rw [hs]
    exact h.started _ _ _ _ (by rw [hc, Option.isSome_some]) hfree

theorem cancelRun (h : s.Coherent) (now : Timestamp) (key : RunKey) :
    (s.cancelRun now key).2.Coherent := by
  cases hr : s.registry.runs.get? key with
  | none =>
      rw [cancelRun_absent s now key hr]
      exact h
  | some run =>
      rw [cancelRun_eq s now key run hr]
      exact h.cancelled now key run hr

end Coherent

/-- A run that goes on keeps what is done when it is cancelled. -/
theorem callback?_takeHandover (s : Coordinator) (key : RunKey) (h : RunTask.Handover)
    (other : RunKey) : (s.takeHandover key h).callback? other = s.callback? other := by
  cases hr : s.registry.runs.get? key with
  | none => rw [takeHandover_absent s key h hr]
  | some run =>
      rw [takeHandover_eq s key run h hr]
      simp only [callback?, tookIn, Registry.change, Table.get?_update]
      by_cases ho : other = key
      · rw [if_pos ho, ho, hr, Option.map_some, Option.map_some, Option.map_some,
          Run.after_onCancel]
      · rw [if_neg ho]

namespace Coherent

variable {s : Coordinator}

theorem takeHandover (h : s.Coherent) (key : RunKey) (handover : RunTask.Handover) :
    (s.takeHandover key handover).Coherent := by
  have hcallback := callback?_takeHandover s key handover
  cases hr : s.registry.runs.get? key with
  | none =>
      rw [takeHandover_absent s key handover hr]
      exact h
  | some run =>
      rw [takeHandover_eq s key run handover hr] at hcallback ⊢
      exact h.of_same _ (fun _ => rfl) (fun _ => rfl) (Nat.le_refl _) rfl rfl hcallback h.named
        fun _ => rfl

theorem forward (h : s.Coherent) (task : Nat) : (s.perform (.forward task)).Coherent := by
  rcases forward_cases s task with ⟨hs, -, -⟩ | ⟨t, t', handover, ht, hf, hs, -⟩
  · rw [hs]
    exact h
  · rw [hs]
    have hmandate := fun id => s.mandate?_insert_forward task id t t' handover ht hf
    exact Coherent.takeHandover (h.of_same _ hmandate (fun _ => rfl) (Nat.le_refl _) rfl rfl
      (fun _ => rfl) h.named fun _ => rfl) _ _

theorem finish (h : s.Coherent) (now : Timestamp) (task : Nat) :
    (s.perform (.finish now task)).Coherent := by
  rcases finish_cases s now task with ⟨hs, -⟩ | ⟨t, status, ht, -, -, hs, -⟩
  · rw [hs]
    exact h
  · rw [hs]
    exact h.finished now task t status ht

/-- The stores agree after every move. -/
theorem perform (h : s.Coherent) (m : Move) : (s.perform m).Coherent := by
  cases hm : m.isOfConnection with
  | true =>
      -- Nothing of the hub is looked at.
      rcases s.perform_of_connection m hm with ⟨hub, hperform⟩
      rw [hperform]
      exact h.with_hub hub
  | false =>
      cases m with
      | create occasion id title => exact h.createConversation occasion id title
      | archive now id => exact h.archiveConversation now id
      | delete id => exact h.deleteConversation id
      | start occasion conversation run prompt => exact h.startRun occasion conversation run prompt
      | cancel now key => exact h.cancelRun now key
      | retune turn =>
          exact h.of_same _ (fun _ => rfl) (fun _ => rfl) (Nat.le_refl _) rfl rfl (fun _ => rfl)
            h.named fun _ => rfl
      | drive clock task =>
          exact h.of_same _ (mandate?_drive s clock task) (fun _ => rfl) (Nat.le_refl _) rfl rfl
            (fun _ => rfl) h.named fun _ => rfl
      | forward task => exact h.forward task
      | drain task =>
          exact h.of_same _ (mandate?_drain s task) (fun _ => rfl) (Nat.le_refl _) rfl rfl
            (fun _ => rfl) h.named fun _ => rfl
      | finish now task => exact h.finish now task
      | _ => exact absurd hm (by simp [Move.isOfConnection])

end Coherent

/-- The stores agree after every course of events. -/
theorem coherent_performAll (config : ServerConfig) (provider : Option Provider)
    (moves : List Move) : ((ofConfig config provider).performAll moves).Coherent :=
  performAll_induction Coherent _ moves (ofConfig_coherent config provider) fun _ m h => h.perform m

theorem Reachable.coherent {s : Coordinator} (h : s.Reachable) : s.Coherent := by
  rcases h with ⟨config, provider, moves, rfl⟩
  exact coherent_performAll config provider moves

/-- After every course of events, a run that is registered is carried out by a task of its own
    which has the hold on the conversation, whose guard nobody else has and whose run was not
    cancelled; a conversation has at most one registered run; and the summaries of the
    conversations name the registered runs and no others. -/
theorem registered_run_held (config : ServerConfig) (provider : Option Provider)
    (moves : List Move) :
    let s := (ofConfig config provider).performAll moves
    (∀ key, s.IsRegistered key → ∃ task t, s.tasks.get? task = some t ∧ t.key = key ∧
      t.guard.conversation = key.conversation ∧
      s.locks.held.get? key.conversation = some t.guard.generation ∧
      s.isCancelled task = false ∧
      ∀ other u, s.tasks.get? other = some u → u.guard = t.guard → other = task) ∧
    (∀ key key', s.IsRegistered key → s.IsRegistered key' →
      key.conversation = key'.conversation → key = key') ∧
    (∀ key, s.IsRegistered key → (s.directory.get? key.conversation).isSome) ∧
    ∀ id c run, s.directory.get? id = some c →
      (c.activeRun = some run ↔ s.IsRegistered ⟨id, run⟩) := by
  intro s
  have h : s.Coherent := coherent_performAll config provider moves
  refine ⟨?_, h.registered_unique, ?_, ?_⟩
  -- The callback of a registered run names its task, and the task carries the guard.
  · intro key hreg
    rcases Option.isSome_iff_exists.mp ((s.isRegistered_iff key).mp hreg) with ⟨callback, hcb⟩
    rcases h.carried key callback hcb with ⟨task, m, -, hm, hkey, hnot⟩
    have hconv := h.guard_conversation task m hm
    have hheld := h.holds task m hm hnot
    rcases Option.map_eq_some_iff.mp hm with ⟨t, ht, rfl⟩
    rw [hkey] at hconv hheld
    refine ⟨task, t, ht, hkey, hconv, hheld, ?_, ?_⟩
    · exact (s.isCancelled_eq_false_iff task).mpr hnot
    · intro other u hu hguard
      exact h.guard_injective other task u.mandate t.mandate (mandate?_of_task hu) hm
        (congrArg Guard.generation hguard)
  · intro key hreg
    have ha := (h.registered_iff key).mp hreg
    cases hc : s.directory.get? key.conversation with
    | none => simp only [Directory.active?, hc, Option.bind_none, reduceCtorEq] at ha
    | some c => rfl
  · intro id c run hc
    have ha : s.directory.active? id = c.activeRun := by
      rw [Directory.active?, hc, Option.bind_some]
    rw [h.registered_iff ⟨id, run⟩, ha]

end Coordinator

end Switchboard

import Switchboard.Proofs.Effects

/-!
# Actions on the Registry

Everything that is done with the registry of runs, as data, so that a history of
the registry is a list. The registry after an action and what is reported about
it are those of the operations; a cancellation calls a callback besides.

What most statements about histories need is not the runs but which names are
registered, and with which callbacks. A run that goes on does not change that, so
that there are only three kinds of step: a name comes in with a callback, a name
leaves, and all names leave at once.

The coordinator uses its registry in no other way and calls no other callbacks.
`Coordinator.Reachable.registry_acts` says so, and makes every statement about
histories of a registry one about every course of events.

## Main definitions

* `Registry.cancel`: A run is cancelled.
* `Registry.Action`, `Registry.act`, `Registry.answer`, `Registry.fires`: Something that is done,
  the registry after it, what is reported and which callbacks are called.
* `Registry.actAll`, `Registry.firedAll`: The same for some actions.
* `Registry.Action.Ends`: An action ends the registration of a name.
* `Registry.callback?`: The callback that was installed with a name.

## Theorems

* `Registry.cancel_eq`, `Registry.register_eq`, `Registry.updateTool_eq`: The operations in one
  equation.
* `Registry.callback?_act`: What an action makes of the names and their callbacks.
* `Registry.get?_act_other`: An action touches no other name.
* `Coordinator.registry_acts`, `Coordinator.Reachable.registry_acts`: The coordinator does nothing
  else with its registry.
-/

namespace Switchboard

namespace Registry

variable {κ : Type}

/-! ### Histories -/

/-- Cancel a run: it is taken out, and its callback is called. It is said whether there was one,
    with the callbacks that were called. -/
def cancel (r : Registry κ) (key : RunKey) : Bool × List κ × Registry κ :=
  match r.remove key with
  | none => (false, [], r)
  | some (run, r) => (true, run.onCancel.toList, r)

/-- Something that is done with the registry. -/
inductive Action (κ : Type) where
  | register (now : Timestamp) (key : RunKey) (onCancel : Option κ)
  | append (key : RunKey) (delta : String)
  | update (key : RunKey) (u : ToolUpdate)
  | restart (key : RunKey)
  | cancel (key : RunKey)
  | finalize (key : RunKey)
  | reset

namespace Action

/-- The name that an action is about, if it is about one. -/
def key? : Action κ → Option RunKey
  | .register _ key _ => some key
  | .append key _ => some key
  | .update key _ => some key
  | .restart key => some key
  | .cancel key => some key
  | .finalize key => some key
  | .reset => none

/-- Whether an action ends the registration of a name, if there is one. -/
def Ends (key : RunKey) : Action κ → Prop
  | .cancel k => k = key
  | .finalize k => k = key
  | .reset => True
  | _ => False

end Action

/-- The registry after an action. -/
def act (r : Registry κ) : Action κ → Registry κ
  | .register now key onCancel => (r.register now key onCancel).2
  | .append key delta => (r.appendDelta key delta).2
  | .update key u => (r.updateTool key u).2
  | .restart key => (r.restart key).2
  | .cancel key => (r.cancel key).2.2
  | .finalize key => (r.finalize key).2
  | .reset => r.reset

/-- What is reported about an action: whether a run was created, was there to go on or was taken
    out. -/
def answer (r : Registry κ) : Action κ → Bool
  | .register now key onCancel => (r.register now key onCancel).1.isCreated
  | .append key delta => (r.appendDelta key delta).1
  | .update key u => (r.updateTool key u).1.isSome
  | .restart key => (r.restart key).1.isSome
  | .cancel key => (r.cancel key).1
  | .finalize key => (r.finalize key).1
  | .reset => true

/-- The callbacks that an action calls. -/
def fires (r : Registry κ) : Action κ → List κ
  | .cancel key => (r.cancel key).2.1
  | _ => []

/-- The registry after some actions. -/
def actAll (r : Registry κ) (actions : List (Action κ)) : Registry κ :=
  actions.foldl act r

/-- The callbacks that some actions call, in order. -/
def firedAll : List (Action κ) → Registry κ → List κ
  | [], _ => []
  | a :: rest, r => r.fires a ++ firedAll rest (r.act a)

@[simp] theorem actAll_nil (r : Registry κ) : r.actAll [] = r := rfl

@[simp] theorem actAll_cons (r : Registry κ) (a : Action κ) (rest : List (Action κ)) :
    r.actAll (a :: rest) = (r.act a).actAll rest := rfl

theorem actAll_singleton (r : Registry κ) (a : Action κ) : r.actAll [a] = r.act a := rfl

theorem actAll_append (r : Registry κ) (first second : List (Action κ)) :
    r.actAll (first ++ second) = (r.actAll first).actAll second :=
  List.foldl_append ..

theorem firedAll_append (first second : List (Action κ)) (r : Registry κ) :
    firedAll (first ++ second) r = firedAll first r ++ firedAll second (r.actAll first) := by
  induction first generalizing r with
  | nil => rfl
  | cons a rest ih => rw [List.cons_append, firedAll, ih, firedAll, List.append_assoc, actAll_cons]

/-! ### Names and callbacks -/

/-- The callback that was installed with a name, if the name is registered. -/
def callback? (r : Registry κ) (key : RunKey) : Option (Option κ) :=
  (r.runs.get? key).map (·.onCancel)

theorem contains_eq (r : Registry κ) (key : RunKey) :
    r.runs.contains key = (r.callback? key).isSome := by
  rw [Table.contains, callback?, Option.isSome_map]

theorem cancel_eq (r : Registry κ) (key : RunKey) :
    r.cancel key = (r.runs.contains key, ((r.callback? key).join).toList, r.leave key) := by
  unfold cancel
  rw [remove_eq, leave, Table.contains, callback?]
  cases r.runs.get? key <;> rfl

theorem callback?_leave (r : Registry κ) (key other : RunKey) :
    (r.leave key).callback? other = if other = key then none else r.callback? other := by
  rw [callback?, get?_leave, callback?]
  split <;> rfl

theorem get?_change_other (r : Registry κ) (key other : RunKey) (f : Run κ → Run κ)
    (h : other ≠ key) : (r.change key f).runs.get? other = r.runs.get? other := by
  rw [change, Table.get?_update, if_neg h]

/-- A run that goes on keeps its callback. -/
theorem callback?_change (r : Registry κ) (key other : RunKey) (f : Run κ → Run κ)
    (hf : ∀ run, (f run).onCancel = run.onCancel) :
    (r.change key f).callback? other = r.callback? other := by
  rw [callback?, change, Table.get?_update]
  split
  · rw [callback?, Option.map_map]
    exact congrArg (fun g => (r.runs.get? other).map g) (funext hf)
  · rfl

theorem updateTool_eq (r : Registry κ) (key : RunKey) (u : ToolUpdate) :
    (r.updateTool key u).2 = r.change key fun run => (run.updateTool r.mostTools u).2 := by
  unfold updateTool
  cases hr : r.runs.get? key with
  | none => rw [change_absent _ _ _ hr]
  | some run =>
      exact (change_const r key (fun run => (run.updateTool r.mostTools u).2) run hr).symm

theorem register_eq (r : Registry κ) (now : Timestamp) (key : RunKey) (onCancel : Option κ) :
    (r.register now key onCancel).2 =
      if r.runs.contains key then r
      else { r with runs := r.runs.insert key (.start now onCancel) } := by
  unfold register Table.contains
  cases r.runs.get? key <;> rfl

theorem register_created (r : Registry κ) (now : Timestamp) (key : RunKey) (onCancel : Option κ) :
    (r.register now key onCancel).1.isCreated = !r.runs.contains key := by
  unfold register Table.contains
  cases r.runs.get? key <;> rfl

theorem act_update (r : Registry κ) (key : RunKey) (u : ToolUpdate) :
    r.act (.update key u) = r.change key fun run => (run.updateTool r.mostTools u).2 :=
  updateTool_eq ..

theorem act_cancel (r : Registry κ) (key : RunKey) : r.act (.cancel key) = r.leave key := by
  rw [act, cancel_eq]

theorem act_finalize (r : Registry κ) (key : RunKey) : r.act (.finalize key) = r.leave key := by
  rw [act, finalize_eq]

/-- What a step makes of the names and their callbacks: a name that comes in brings its callback,
    unless it is there already, and a run that goes on keeps it. -/
theorem callback?_act (r : Registry κ) (a : Action κ) (key : RunKey) :
    (r.act a).callback? key =
      match a with
      | .register _ k onCancel =>
        if key = k then some ((r.callback? key).getD onCancel) else r.callback? key
      | .cancel k => if key = k then none else r.callback? key
      | .finalize k => if key = k then none else r.callback? key
      | .reset => none
      | _ => r.callback? key := by
  -- Registering puts a callback in where there was none; leaving and the reset take one out.
  cases a with
  | register now k onCancel =>
      simp only [act, register_eq, contains_eq]
      cases hk : r.callback? k with
      | some c =>
          by_cases hkey : key = k
          · simp [hkey, hk]
          · simp [hkey]
      | none =>
          by_cases hkey : key = k
          · subst hkey
            rw [if_pos rfl, hk, Option.isSome_none, if_neg Bool.false_ne_true]
            simp [callback?, Run.start]
          · simp [callback?, hkey]
  | append k delta => exact callback?_change r k key _ fun _ => rfl
  | update k u =>
      rw [act_update]
      exact callback?_change r k key _ fun run =>
        Run.after_onCancel r.mostTools run (.event (.tool u))
  | restart k => exact callback?_change r k key _ fun _ => rfl
  | cancel k =>
      rw [act_cancel]
      exact callback?_leave ..
  | finalize k =>
      rw [act_finalize]
      exact callback?_leave ..
  | reset => rfl

/-- How many tool calls are kept for a run and how many names are remembered never changes. -/
theorem limits_act (r : Registry κ) (a : Action κ) :
    (r.act a).mostTools = r.mostTools ∧ (r.act a).memory = r.memory := by
  -- Both limits are set when the registry is made and no action writes them.
  cases a with
  | register now k onCancel =>
      rw [act, register_eq]
      split <;> exact ⟨rfl, rfl⟩
  | append k delta => exact ⟨rfl, rfl⟩
  | update k u =>
      rw [act_update]
      exact ⟨rfl, rfl⟩
  | restart k => exact ⟨rfl, rfl⟩
  | cancel k =>
      rw [act_cancel, leave]
      split <;> exact ⟨rfl, rfl⟩
  | finalize k =>
      rw [act_finalize, leave]
      split <;> exact ⟨rfl, rfl⟩
  | reset => exact ⟨rfl, rfl⟩

theorem limits_actAll (r : Registry κ) (actions : List (Action κ)) :
    (r.actAll actions).mostTools = r.mostTools ∧ (r.actAll actions).memory = r.memory := by
  induction actions generalizing r with
  | nil => exact ⟨rfl, rfl⟩
  | cons a rest ih =>
      rw [actAll_cons, (ih (r.act a)).1, (ih (r.act a)).2]
      exact r.limits_act a

theorem mostTools_act (r : Registry κ) (a : Action κ) : (r.act a).mostTools = r.mostTools :=
  (r.limits_act a).1

/-- A step touches no other name, unless it makes the registry forget everything. -/
theorem get?_act_other (r : Registry κ) (a : Action κ) (key : RunKey) (hreset : a ≠ .reset)
    (hkey : a.key? ≠ some key) : (r.act a).runs.get? key = r.runs.get? key := by
  -- Every action but the reset writes under its own name only.
  cases a with
  | register now k onCancel =>
      have hk : key ≠ k := fun h => hkey (congrArg some h.symm)
      rw [act, register_eq]
      split
      · rfl
      · rw [Table.get?_insert, if_neg hk]
  | append k delta => exact get?_change_other r k key _ fun h => hkey (congrArg some h.symm)
  | update k u =>
      rw [act_update]
      exact get?_change_other r k key _ fun h => hkey (congrArg some h.symm)
  | restart k => exact get?_change_other r k key _ fun h => hkey (congrArg some h.symm)
  | cancel k =>
      rw [act_cancel, get?_leave, if_neg fun h => hkey (congrArg some h.symm)]
  | finalize k =>
      rw [act_finalize, get?_leave, if_neg fun h => hkey (congrArg some h.symm)]
  | reset => exact absurd rfl hreset

/-- The actions by which a run takes in what a forwarder hands on. -/
def ofHandover (key : RunKey) : RunTask.Handover → List (Action κ)
  | .nothing => []
  | .restart => [.restart key]
  | .event (.delta text) => [.append key text]
  | .event (.tool u) => [.update key u]

theorem firedAll_ofHandover (r : Registry κ) (key : RunKey) (h : RunTask.Handover) :
    firedAll (ofHandover key h) r = [] := by
  cases h with
  | nothing => rfl
  | restart => rfl
  | event e => cases e <;> rfl

end Registry

/-! ### The registry of a coordinator -/

namespace Coordinator

theorem takeHandover_registry (s : Coordinator) (key : RunKey) (h : RunTask.Handover) :
    (s.takeHandover key h).registry = s.registry.actAll (Registry.ofHandover key h) ∧
      (s.takeHandover key h).fired = s.fired := by
  -- Each handover is at most one action on the registry, and none of them calls a callback.
  cases h with
  | nothing => exact ⟨rfl, rfl⟩
  | restart =>
      simp only [takeHandover, restartRun, Registry.ofHandover, Registry.actAll_singleton,
        Registry.act]
      rcases s.registry.restart key with ⟨_ | snapshot, registry⟩ <;> exact ⟨rfl, rfl⟩
  | event e =>
      cases e with
      | delta text =>
          simp only [takeHandover, receive, Registry.ofHandover, Registry.actAll_singleton,
            Registry.act]
          rcases s.registry.appendDelta key text with ⟨_ | _, registry⟩ <;> exact ⟨rfl, rfl⟩
      | tool u =>
          simp only [takeHandover, receive, Registry.ofHandover, Registry.actAll_singleton,
            Registry.act]
          rcases s.registry.updateTool key u with ⟨_ | call, registry⟩ <;> exact ⟨rfl, rfl⟩

/-- A move reaches the registry by its actions, and calls the callbacks that they call. -/
theorem registry_acts (s : Coordinator) (m : Move) :
    ∃ actions, (s.perform m).registry = s.registry.actAll actions ∧
      (s.perform m).fired = s.fired ++ Registry.firedAll actions s.registry := by
  -- Of the moves only a start, a cancel, a handover and the end of a task reach the registry.
  cases s.perform_change m with
  | aside locks hub directory provider hperform hnews =>
      exact ⟨[], by rw [hperform, Registry.actAll_nil], by simp [hperform, Registry.firedAll]⟩
  | starts now key prompt provider hnew hfree hperform hnews =>
      refine ⟨[.register now key (some (.task s.launched))], ?_, ?_⟩
      · rw [hperform, Registry.actAll_singleton, Registry.act,
          Registry.register_eq, Table.contains_of_none hnew, if_neg Bool.false_ne_true, started]
      · rw [hperform]
        exact (List.append_nil _).symm
  | cancels now key run hmove hrun hperform hnews =>
      refine ⟨[.cancel key], ?_, ?_⟩
      · rw [hperform, Registry.actAll_singleton, Registry.act_cancel, Registry.leave,
           if_pos (Table.contains_of_some hrun), cancelled]
      · rw [hperform, Registry.firedAll, Registry.firedAll, Registry.fires, Registry.cancel_eq,
          Registry.callback?, hrun, List.append_nil, cancelled]
        rfl
  -- The driver fills the channels of its task.
  | drives task t t' tasks hmove ht htasks hperform hnews =>
      exact ⟨[], by rw [hperform, Registry.actAll_nil], by simp [hperform, Registry.firedAll]⟩
  | forwards task t t' handover registry hub hmove ht hforward hmost hruns hperform hnews =>
      subst hmove
      rcases forward_cases s task with ⟨hs, -, -⟩ | ⟨t, t', h, -, -, hs, -⟩
      · exact ⟨[], by rw [hs, Registry.actAll_nil], by simp [hs, Registry.firedAll]⟩
      · rcases takeHandover_registry { s with tasks := s.tasks.insert task t' } t.key h with
          ⟨hregistry, hfired⟩
        refine ⟨Registry.ofHandover t.key h, hs ▸ hregistry, ?_⟩
        rw [hs, hfired, Registry.firedAll_ofHandover, List.append_nil]
  | finishes now task t status hmove ht hdrained hstatus hperform hnews =>
      refine ⟨[.finalize t.key], ?_, ?_⟩
      · rw [hperform, Registry.actAll_singleton, Registry.act_finalize, finished]
      · rw [hperform]
        exact (List.append_nil _).symm

/-- Every course of events is a history of the registry. -/
theorem Reachable.registry_acts {s : Coordinator} (h : s.Reachable) :
    ∃ maxTools memory actions, s.registry = (Registry.fresh maxTools memory).actAll actions ∧
      s.fired = Registry.firedAll actions (Registry.fresh maxTools memory) := by
  rcases h with ⟨config, provider, moves, rfl⟩
  refine ⟨config.maxToolCalls, config.finalizedMemory, ?_⟩
  refine performAll_induction (fun s => ∃ actions,
    s.registry = (Registry.fresh config.maxToolCalls config.finalizedMemory).actAll actions ∧
      s.fired = Registry.firedAll actions
        (Registry.fresh config.maxToolCalls config.finalizedMemory)) _ moves ⟨[], rfl, rfl⟩ ?_
  rintro s m ⟨before, hregistry, hfired⟩
  rcases s.registry_acts m with ⟨actions, hregistry', hfired'⟩
  refine ⟨before ++ actions, ?_, ?_⟩
  · rw [hregistry', hregistry, Registry.actAll_append]
  · rw [hfired', hfired, hregistry, Registry.firedAll_append]

end Coordinator

end Switchboard

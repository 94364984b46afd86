import Switchboard.Proofs.Replica
import Switchboard.Proofs.Registry.Action
import Switchboard.Proofs.Registry.Recency

/-!
# The List of Tool Calls

The tool calls of a run are the ones that were updated last, listed in the order in
which they were put in, with the states that the updates since then make. A run
does not keep the history of its updates. It notes for each call the time of its
last update, and drops the call with the smallest one.

What connects the times with the history is a ranking: the calls of the run in the
order of their times, which are the recent ids of the history in their order. An
update of a call that is listed moves it to the end of the ranking but not of the
list. Room for a new call is made at the front of the ranking, wherever in the list
that is.

## Main definitions

* `Run.Ranking`: The calls of a run in the order of their last updates.
* `Run.Follows`: A run lists what a history of updates says.
* `Registry.updatesOf`: The updates of a run among some actions.

## Theorems

* `Run.dropOldestN_perm`: The calls that make room are the first ones of the ranking.
* `Run.Ranking.known`, `Run.Ranking.new`: The ranking after an update.
* `Run.Follows.updateTool`, `Registry.follows_actAll`: A run keeps to its history.
* `Run.Follows.calls_eq`, `Run.Follows.reported_eq`: The states that a run lists and reports are
  those of its history.
* `Registry.tool_list_recent`: What the list of a run is.
-/

namespace Switchboard

namespace Run

variable {κ : Type}

/-! ### Making room -/

theorem foldl_min (tools : List TrackedCall) (t least : Nat) (ht : least ≤ t)
    (hle : ∀ tool ∈ tools, least ≤ tool.touched)
    (hmem : t = least ∨ ∃ tool ∈ tools, tool.touched = least) :
    tools.foldl (fun t tool => min t tool.touched) t = least := by
  induction tools generalizing t with
  | nil => simpa using hmem
  | cons first rest ih =>
      rw [List.forall_mem_cons] at hle
      rw [List.foldl_cons]
      refine ih _ (Nat.le_min.mpr ⟨ht, hle.1⟩) hle.2 ?_
      -- Where the least time is, it is kept.
      rcases hmem with rfl | ⟨tool, htool, rfl⟩
      · exact Or.inl (Nat.min_eq_left hle.1)
      · rcases List.mem_cons.mp htool with rfl | hrest
        · exact Or.inl (Nat.min_eq_right ht)
        · exact Or.inr ⟨tool, hrest, rfl⟩

theorem oldest_eq (tools : List TrackedCall) (first : TrackedCall) (hmem : first ∈ tools)
    (hle : ∀ tool ∈ tools, first.touched ≤ tool.touched) : oldest tools = first.touched := by
  cases tools with
  | nil => exact absurd hmem List.not_mem_nil
  | cons head rest =>
      exact foldl_min _ _ _ (hle head List.mem_cons_self) hle (Or.inr ⟨first, hmem, rfl⟩)

/-- The call that makes room is the first one in the order of the last updates. -/
theorem dropOldest_perm (tools order : List TrackedCall) (hperm : order.Perm tools)
    (hsorted : order.Pairwise (·.touched < ·.touched)) :
    (order.drop 1).Perm (dropOldest tools) := by
  cases order with
  | nil =>
      rw [← hperm.nil_eq]
      exact List.Perm.refl _
  | cons first rest =>
      have hfirst := (List.pairwise_cons.mp hsorted).1
      have holdest : oldest tools = first.touched := by
        refine oldest_eq tools first (hperm.subset List.mem_cons_self) fun tool htool => ?_
        rcases List.mem_cons.mp (hperm.symm.subset htool) with rfl | hrest
        · exact Nat.le_refl _
        · exact (hfirst tool hrest).le
      -- The times differ, so that it is the only one of its time.
      have honly : (first :: rest).Pairwise fun a b =>
          decide (a.touched = first.touched) = true →
            ¬decide (b.touched = first.touched) = true := by
        refine hsorted.imp fun {a b} hab ha hb => ?_
        exact absurd ((of_decide_eq_true ha).trans (of_decide_eq_true hb).symm) hab.ne
      have herase := List.Perm.eraseP (fun tool => decide (tool.touched = first.touched)) honly
        hperm
      rw [List.eraseP_cons_of_pos (by simp)] at herase
      rw [dropOldest, holdest]
      exact herase

theorem dropOldestN_perm (n : Nat) (tools order : List TrackedCall) (hperm : order.Perm tools)
    (hsorted : order.Pairwise (·.touched < ·.touched)) :
    (order.drop n).Perm (dropOldestN n tools) := by
  induction n generalizing tools order with
  | zero => exact hperm
  | succ n ih =>
      have hrest := ih (dropOldest tools) (order.drop 1) (dropOldest_perm tools order hperm hsorted)
        (hsorted.sublist (List.drop_sublist ..))
      rwa [List.drop_drop, Nat.add_comm] at hrest

/-! ### Rankings -/

theorem map_keep (tools : List TrackedCall) (id : String) (new : TrackedCall)
    (h : ∀ tool ∈ tools, tool.call.id ≠ id) :
    (tools.map fun tool => if tool.call.id = id then new else tool) = tools := by
  conv_rhs => rw [← List.map_id tools]
  exact List.map_congr_left fun tool htool => if_neg (h tool htool)

/-- The calls of a run in the order of their last updates. -/
structure Ranking (most : Nat) (us : List ToolUpdate) (tools order : List TrackedCall) : Prop where
  perm : order.Perm tools
  ids : order.map (·.call.id) = ToolUpdate.recent most us
  sorted : order.Pairwise (·.touched < ·.touched)
  bounded : ∀ tool ∈ order, tool.touched ≤ us.length

namespace Ranking

variable {most : Nat} {us : List ToolUpdate} {tools order : List TrackedCall}

theorem mem_ids (h : Ranking most us tools order) (id : String) :
    id ∈ ToolUpdate.recent most us ↔ ∃ tool ∈ tools, tool.call.id = id := by
  rw [← h.ids, List.mem_map]
  simp only [h.perm.mem_iff]

theorem length_eq (h : Ranking most us tools order) :
    tools.length = (ToolUpdate.recent most us).length := by
  rw [← h.ids, List.length_map, h.perm.length_eq]

theorem nodup (h : Ranking most us tools order) : (tools.map (·.call.id)).Nodup := by
  have hids := ToolUpdate.nodup_recent most us
  rw [← h.ids] at hids
  exact (h.perm.map _).nodup_iff.mp hids

/-- A call that is updated now comes last. -/
theorem concat (h : Ranking most us tools order) (kept : List TrackedCall)
    (hkept : kept.Sublist order) (u : ToolUpdate) (call : ToolCall) (tools' : List TrackedCall)
    (hperm : (kept ++ [TrackedCall.mk call (us.length + 1)]).Perm tools')
    (hids : kept.map (·.call.id) ++ [call.id] = ToolUpdate.recent most (us ++ [u])) :
    Ranking most (us ++ [u]) tools' (kept ++ [⟨call, us.length + 1⟩]) where
  perm := hperm
  ids := by rw [List.map_append, List.map_singleton, hids]
  sorted := by
    rw [List.pairwise_append]
    refine ⟨h.sorted.sublist hkept, List.pairwise_singleton _ _, fun tool htool new hnew => ?_⟩
    rw [List.mem_singleton.mp hnew]
    exact Nat.lt_succ_of_le (h.bounded tool (hkept.subset htool))
  bounded := by
    intro tool htool
    rw [List.length_append, List.length_singleton]
    rcases List.mem_append.mp htool with hold | hnew
    · exact (h.bounded tool (hkept.subset hold)).trans (Nat.le_succ _)
    · rw [List.mem_singleton.mp hnew]

/-- A listed call that is updated keeps its place in the list, and comes last in the ranking. -/
theorem known (h : Ranking most us tools order) (u : ToolUpdate) (call : ToolCall)
    (hcall : call.id = u.id) (hmem : ∃ tool ∈ tools, tool.call.id = u.id) :
    ∃ order', Ranking most (us ++ [u])
      (tools.map fun tool => if tool.call.id = u.id then ⟨call, us.length + 1⟩ else tool)
      order' := by
  rcases hmem with ⟨tool, htool, hid⟩
  rcases List.append_of_mem (h.perm.symm.subset htool) with ⟨before, after, rfl⟩
  have hids := h.ids
  rw [List.map_append, List.map_cons, hid] at hids
  have hnodup : (before.map (·.call.id) ++ u.id :: after.map (·.call.id)).Nodup :=
    hids ▸ ToolUpdate.nodup_recent most us
  -- The other calls have other ids.
  have hother : ∀ other ∈ before ++ after, other.call.id ≠ u.id := by
    intro other hother heq
    have hrest := (List.nodup_middle.mp hnodup).notMem
    rw [← List.map_append] at hrest
    exact hrest (heq ▸ List.mem_map_of_mem hother)
  have hkept : (before ++ after).Sublist (before ++ tool :: after) :=
    (List.Sublist.refl before).append (List.sublist_cons_self tool after)
  refine ⟨_, h.concat (before ++ after) hkept u call _ ?_ ?_⟩
  · have hperm := h.perm.map fun tool =>
      if tool.call.id = u.id then ⟨call, us.length + 1⟩ else tool
    rw [List.map_append, List.map_cons, if_pos hid,
      map_keep before _ _ fun other ho => hother other (List.mem_append_left _ ho),
      map_keep after _ _ fun other ho => hother other (List.mem_append_right _ ho)] at hperm
    exact (List.perm_append_singleton _ _).trans (List.perm_middle.symm.trans hperm)
  · rw [ToolUpdate.recent_known most us u _ _ hids.symm, hcall, List.map_append]

/-- A new call comes last, and the first ones of the ranking make room for it. -/
theorem new (h : Ranking most us tools order) (u : ToolUpdate) (hmost : 0 < most)
    (hnew : ¬∃ tool ∈ tools, tool.call.id = u.id) :
    ∃ order', Ranking most (us ++ [u])
      (dropOldestN (tools.length + 1 - most) tools ++ [⟨.ofUpdate u, us.length + 1⟩]) order' := by
  refine ⟨_, h.concat (order.drop (tools.length + 1 - most)) (List.drop_sublist ..) u
    (.ofUpdate u) _ ?_ ?_⟩
  · exact (dropOldestN_perm _ tools order h.perm h.sorted).append_right _
  · rw [ToolUpdate.recent_new most us u hmost (mt (h.mem_ids u.id).mp hnew), ← h.length_eq, ← h.ids,
      List.map_drop]
    rfl

end Ranking

/-! ### Runs and their histories -/

/-- A run lists what a history of updates says. -/
structure Follows (most : Nat) (us : List ToolUpdate) (run : Run κ) : Prop where
  updates : run.updates = us.length
  ranked : ∃ order, Ranking most us run.tools order
  /-- The state of a call is made by the updates since it was put in. -/
  entries : ∀ tool ∈ run.tools, ToolUpdate.Explains most us tool.call
  /-- The calls stand in the order in which they were put in. -/
  listed : run.tools.Pairwise fun a b => ∀ p q, ToolUpdate.InsertedLast most us a.call.id p →
    ToolUpdate.InsertedLast most us b.call.id q → p < q

namespace Follows

variable {most : Nat} {us : List ToolUpdate} {run : Run κ}

theorem start (most : Nat) (now : Timestamp) (onCancel : Option κ) :
    Follows most [] (.start now onCancel) where
  updates := rfl
  ranked := ⟨[], List.Perm.refl _, (ToolUpdate.recent_nil most).symm, List.Pairwise.nil,
    fun _ h => absurd h List.not_mem_nil⟩
  entries := fun _ h => absurd h List.not_mem_nil
  listed := List.Pairwise.nil

/-- A text does not touch the calls. -/
theorem append (h : Follows most us run) (delta : String) : Follows most us (run.append delta) :=
  ⟨h.updates, h.ranked, h.entries, h.listed⟩

/-- A text that starts anew leaves the calls as they are. -/
theorem restart (h : Follows most us run) : Follows most us run.restart :=
  ⟨h.updates, h.ranked, h.entries, h.listed⟩

theorem mem_recent (h : Follows most us run) (id : String) :
    id ∈ ToolUpdate.recent most us ↔ ∃ tool ∈ run.tools, tool.call.id = id := by
  rcases h.ranked with ⟨order, hranking⟩
  exact hranking.mem_ids id

/-- The run after an update of a call that it lists. -/
theorem known (h : Follows most us run) (u : ToolUpdate) (known : TrackedCall)
    (hmem : known ∈ run.tools) (hid : known.call.id = u.id) :
    Follows most (us ++ [u]) { run with
      updates := run.updates + 1
      tools := run.tools.map fun tool =>
        if tool.call.id = u.id then ⟨known.call.apply u, run.updates + 1⟩ else tool } := by
  have hrecent := (h.mem_recent u.id).mpr ⟨known, hmem, hid⟩
  -- Nothing is put in, so that all places are as before.
  have hplaces : ∀ id place, ToolUpdate.InsertedLast most (us ++ [u]) id place ↔
      ToolUpdate.InsertedLast most us id place :=
    fun id place => ToolUpdate.insertedLast_concat most us u id place fun heq => heq ▸ hrecent
  refine ⟨?_, ?_, ?_, ?_⟩
  · rw [List.length_append, List.length_singleton, h.updates]
  · rcases h.ranked with ⟨order, hranking⟩
    rw [h.updates]
    exact hranking.known u (known.call.apply u) hid ⟨known, hmem, hid⟩
  · intro tool htool
    rcases List.mem_map.mp htool with ⟨before, hbefore, rfl⟩
    by_cases hb : before.call.id = u.id
    · rw [if_pos hb]
      exact (h.entries known hmem).again hid hrecent
    · rw [if_neg hb]
      exact (h.entries before hbefore).other hb
  · rw [List.pairwise_map]
    refine h.listed.imp fun {a b} hab => ?_
    have hsame : ∀ tool : TrackedCall, (if tool.call.id = u.id then
        ⟨known.call.apply u, run.updates + 1⟩ else tool : TrackedCall).call.id = tool.call.id := by
      intro tool
      split
      · next heq => rw [ToolCall.apply_id, hid, heq]
      · rfl
    simpa only [hsame, hplaces] using hab

/-- The run after an update of a call that it does not list. -/
theorem new (h : Follows most us run) (u : ToolUpdate) (hmost : 0 < most)
    (hnew : ∀ tool ∈ run.tools, tool.call.id ≠ u.id) :
    Follows most (us ++ [u]) { run with
      updates := run.updates + 1
      tools := dropOldestN (run.tools.length + 1 - most) run.tools ++
        [⟨.ofUpdate u, run.updates + 1⟩] } := by
  have hnone : ¬∃ tool ∈ run.tools, tool.call.id = u.id :=
    fun ⟨tool, htool, hid⟩ => hnew tool htool hid
  have hfar : u.id ∉ ToolUpdate.recent most us := mt (h.mem_recent u.id).mp hnone
  -- The other calls were put in where they were.
  have hplaces : ∀ tool ∈ run.tools, ∀ place,
      ToolUpdate.InsertedLast most (us ++ [u]) tool.call.id place ↔
        ToolUpdate.InsertedLast most us tool.call.id place :=
    fun tool htool place => ToolUpdate.insertedLast_concat most us u _ place
      fun heq => absurd heq.symm (hnew tool htool)
  have hkept := dropOldestN_sublist (run.tools.length + 1 - most) run.tools
  refine ⟨?_, ?_, ?_, ?_⟩
  · rw [List.length_append, List.length_singleton, h.updates]
  · rcases h.ranked with ⟨order, hranking⟩
    rw [h.updates]
    exact hranking.new u hmost hnone
  · intro tool htool
    rcases List.mem_append.mp htool with hold | hlast
    · have hmem := hkept.subset hold
      exact (h.entries tool hmem).other (hnew tool hmem)
    · rw [List.mem_singleton.mp hlast]
      exact ToolUpdate.explains_new hfar
  · rw [List.pairwise_append]
    refine ⟨?_, List.pairwise_singleton _ _, fun tool hold last hlast p q hp hq => ?_⟩
    · refine (h.listed.sublist hkept).imp_of_mem fun {a b} ha hb hab p q hp hq => ?_
      exact hab p q ((hplaces a (hkept.subset ha) p).mp hp) ((hplaces b (hkept.subset hb) q).mp hq)
    -- The new call was put in last.
    · have hlt := ((hplaces tool (hkept.subset hold) p).mp hp).1.lt
      rw [List.mem_singleton.mp hlast] at hq
      rwa [hq.unique (ToolUpdate.insertedLast_new most us u hfar)]

/-- A run that takes in an update keeps to its history. -/
theorem updateTool (h : Follows most us run) (u : ToolUpdate) (hmost : 0 < most) :
    Follows most (us ++ [u]) (run.updateTool most u).2 := by
  unfold Run.updateTool
  cases hf : run.tools.find? fun tool => tool.call.id = u.id with
  | some known => exact h.known u known (List.mem_of_find?_eq_some hf) (find?_id _ _ _ hf)
  | none => exact h.new u hmost fun tool htool => by simpa using List.find?_eq_none.mp hf tool htool

/-- A run lists the states that its history makes. -/
theorem calls_eq (h : Follows most us run) :
    run.tools.map (·.call) = ToolUpdate.listed most us := by
  -- The listing is in order of insertion, so sorting by it gives the same identifiers.
  have hids : run.tools.map (·.call.id) = (ToolUpdate.recent most us).insertionSort fun a b =>
      ToolUpdate.place most us a ≤ ToolUpdate.place most us b := by
    rcases h.ranked with ⟨order, hranking⟩
    refine ToolUpdate.ids_eq_sorted _ ?_ ?_ (List.pairwise_map.mpr h.listed)
    · rw [← hranking.ids]
      exact (hranking.perm.map _).symm
    · intro id hid
      rcases List.mem_map.mp hid with ⟨tool, htool, rfl⟩
      rcases h.entries tool htool with ⟨place, hplace, -⟩
      exact ⟨place, hplace⟩
  rw [ToolUpdate.listed, ← hids, List.map_map]
  exact List.map_congr_left fun tool htool => (h.entries tool htool).state_eq

end Follows

theorem updateTool_startedAt (most : Nat) (u : ToolUpdate) (run : Run κ) :
    (run.updateTool most u).2.startedAt = run.startedAt := by
  unfold updateTool
  split <;> rfl

/-- What an update reports is the entry as it stands in the list. -/
theorem updateTool_mem (most : Nat) (u : ToolUpdate) (run : Run κ) :
    ∃ tool ∈ (run.updateTool most u).2.tools, tool.call = (run.updateTool most u).1 := by
  unfold updateTool
  cases hf : run.tools.find? fun tool => tool.call.id = u.id with
  | some known =>
      have hmem := List.mem_of_find?_eq_some hf
      have hid := find?_id _ _ _ hf
      exact ⟨_, List.mem_map_of_mem hmem, by rw [if_pos hid]⟩
  | none => exact ⟨_, List.mem_append_right _ (List.mem_singleton_self _), rfl⟩

/-- An update reports the state that the history makes with it. -/
theorem Follows.reported_eq {most : Nat} {us : List ToolUpdate} {run : Run κ}
    (h : Follows most us run) (u : ToolUpdate) (hmost : 0 < most) :
    (run.updateTool most u).1 = ToolUpdate.state most (us ++ [u]) u.id := by
  rcases run.updateTool_mem most u with ⟨tool, htool, hreport⟩
  have hstate := ((h.updateTool u hmost).entries tool htool).state_eq
  rw [hreport, Run.updateTool_id] at hstate
  exact hstate

end Run

/-! ### The registry -/

namespace Registry

variable {κ : Type}

/-- The update of a run that an action is, if it is one. -/
def Action.update? (key : RunKey) : Action κ → Option ToolUpdate
  | .update k u => if k = key then some u else none
  | _ => none

/-- The updates of a run among some actions. -/
def updatesOf (key : RunKey) (actions : List (Action κ)) : List ToolUpdate :=
  actions.filterMap (·.update? key)

theorem update?_other (a : Action κ) (key : RunKey) (h : a.key? ≠ some key) :
    a.update? key = none := by
  cases a with
  | update k u => exact if_neg fun hk => h (congrArg some hk)
  | _ => rfl

theorem get?_change (r : Registry κ) (key : RunKey) (f : Run κ → Run κ) (run : Run κ)
    (h : r.runs.get? key = some run) : (r.change key f).runs.get? key = some (f run) := by
  rw [change, Table.get?_update, if_pos rfl, h, Option.map_some]

/-- An action that does not end a run lets it keep to its history. -/
theorem follows_act (r : Registry κ) (a : Action κ) (key : RunKey) (run : Run κ)
    (us : List ToolUpdate) (hr : r.runs.get? key = some run) (h : run.Follows r.mostTools us)
    (hmost : 0 < r.mostTools) (hstays : ¬a.Ends key) :
    ∃ run', (r.act a).runs.get? key = some run' ∧
      run'.Follows r.mostTools (us ++ (a.update? key).toList) := by
  -- Whatever the action does to this run; an action under another name leaves it alone.
  by_cases hkey : a.key? = some key
  · cases a with
    | register now k onCancel =>
        obtain rfl := Option.some.inj hkey
        refine ⟨run, ?_, (List.append_nil us).symm ▸ h⟩
        rw [act, register_eq, if_pos (Table.contains_of_some hr), hr]
    | append k delta =>
        obtain rfl := Option.some.inj hkey
        refine ⟨run.append delta, get?_change r k _ run hr, ?_⟩
        exact (List.append_nil us).symm ▸ h.append delta
    | restart k =>
        obtain rfl := Option.some.inj hkey
        refine ⟨run.restart, get?_change r k _ run hr, ?_⟩
        exact (List.append_nil us).symm ▸ h.restart
    | update k u =>
        obtain rfl := Option.some.inj hkey
        refine ⟨(run.updateTool r.mostTools u).2, ?_, ?_⟩
        · rw [act_update, get?_change r k _ run hr]
        · rw [Action.update?, if_pos rfl]
          exact h.updateTool u hmost
    -- The run would be gone.
    | cancel k => exact absurd (Option.some.inj hkey) hstays
    | finalize k => exact absurd (Option.some.inj hkey) hstays
    | reset => exact absurd trivial hstays
  · have hreset : a ≠ .reset := fun ha => hstays (ha ▸ trivial)
    refine ⟨run, (r.get?_act_other a key hreset hkey).trans hr, ?_⟩
    rwa [update?_other a key hkey, Option.toList_none, List.append_nil]

/-- A run keeps to its history as long as it is registered. -/
theorem follows_actAll (actions : List (Action κ)) (r : Registry κ) (key : RunKey) (run : Run κ)
    (us : List ToolUpdate) (hr : r.runs.get? key = some run) (h : run.Follows r.mostTools us)
    (hmost : 0 < r.mostTools) (hstays : ∀ a ∈ actions, ¬a.Ends key) :
    ∃ run', (r.actAll actions).runs.get? key = some run' ∧
      run'.Follows r.mostTools (us ++ updatesOf key actions) := by
  -- The induction is on the actions, with the updates seen so far taken along.
  induction actions generalizing r run us with
  | nil => exact ⟨run, hr, by rwa [updatesOf, List.filterMap_nil, List.append_nil]⟩
  | cons a rest ih =>
      rw [List.forall_mem_cons] at hstays
      rcases r.follows_act a key run us hr h hmost hstays.1 with ⟨run', hr', h'⟩
      have hmost' := r.mostTools_act a
      rcases ih (r.act a) run' _ hr' (hmost' ▸ h') (hmost' ▸ hmost) hstays.2 with ⟨last, hlast, hl⟩
      refine ⟨last, hlast, ?_⟩
      rw [hmost', List.append_assoc] at hl
      have hupdates : updatesOf key (a :: rest) = (a.update? key).toList ++ updatesOf key rest := by
        rw [updatesOf, List.filterMap_cons]
        cases a.update? key <;> rfl
      rwa [hupdates]

theorem mostTools_actAll (r : Registry κ) (actions : List (Action κ)) :
    (r.actAll actions).mostTools = r.mostTools :=
  (r.limits_actAll actions).1

/-- The list of tool calls of a run that was created and has not left, whatever was done with the
    registry besides. With `most` for the number of calls that are kept and `us` for the updates of
    the run since it was created, it has as many entries as there are ids among the updates, up to
    the bound, and no id twice. The ids are the ones that were updated last, listed in the order in
    which they were put in. The state of a call is made by the updates of its id since it was put
    in last, so that a call which was dropped and came back knows nothing of what it was told
    before. One more update reports the entry as it stands in the list then. -/
theorem tool_list_recent (maxTools memory : Nat) (before after : List (Action κ))
    (now : Timestamp) (key : RunKey) (onCancel : Option κ)
    (hcreated : ((fresh maxTools memory).actAll before).answer (.register now key onCancel) = true)
    (hstays : ∀ a ∈ after, ¬a.Ends key) :
    let most := max maxTools 1
    let us := updatesOf key after
    let r := (fresh maxTools memory).actAll (before ++ .register now key onCancel :: after)
    (∃ snapshot, r.get? key = some snapshot ∧
      snapshot.tools.length = min most (us.map (·.id)).dedup.length ∧
      (snapshot.tools.map (·.id)).Nodup ∧
      (∀ id, id ∈ snapshot.tools.map (·.id) ↔ id ∈ ToolUpdate.recent most us) ∧
      (snapshot.tools.Pairwise fun a b => ∀ p q, ToolUpdate.InsertedLast most us a.id p →
        ToolUpdate.InsertedLast most us b.id q → p < q) ∧
      ∀ call ∈ snapshot.tools, ∃ place, ToolUpdate.InsertedLast most us call.id place ∧
        call = ToolUpdate.merged call.id (ToolUpdate.since us place call.id)) ∧
    ∀ u, ∃ call snapshot, (r.updateTool key u).1 = some call ∧ call.id = u.id ∧
      (r.updateTool key u).2.get? key = some snapshot ∧ call ∈ snapshot.tools := by
  intro most us r
  -- The run begins without calls, which is what an empty history says.
  have hmost : (((fresh maxTools memory).actAll before).act
      (.register now key onCancel)).mostTools = most := by
    rw [mostTools_act, mostTools_actAll]
    rfl
  have hstart : (((fresh maxTools memory).actAll before).act
      (.register now key onCancel)).runs.get? key = some (.start now onCancel) := by
    rw [answer, register_created, Bool.not_eq_true'] at hcreated
    rw [act, register_eq, hcreated, if_neg Bool.false_ne_true, Table.get?_insert, if_pos rfl]
  rcases follows_actAll after _ key _ [] hstart (hmost ▸ .start most now onCancel)
    (hmost ▸ Nat.le_max_right ..) hstays with ⟨run, hrun, hfollows⟩
  rw [← actAll_cons, ← actAll_append] at hrun
  rw [hmost, List.nil_append] at hfollows
  -- The listing has the length, the names and the order that its ranking gives it.
  refine ⟨⟨run.snapshot key, ?_, ?_, ?_, fun id => ?_, ?_, fun call hcall => ?_⟩, fun u => ?_⟩
  · rw [get?, hrun, Option.map_some]
  · rcases hfollows.ranked with ⟨order, hranking⟩
    rw [Run.snapshot, List.length_map, hranking.length_eq, ToolUpdate.length_recent]
    rfl
  · rcases hfollows.ranked with ⟨order, hranking⟩
    rw [Run.snapshot, List.map_map]
    exact hranking.nodup
  · rw [hfollows.mem_recent id, Run.snapshot, List.map_map, List.mem_map]
    rfl
  · exact List.pairwise_map.mpr hfollows.listed
  · rcases List.mem_map.mp hcall with ⟨tool, htool, rfl⟩
    exact hfollows.entries tool htool
  -- The update itself: what is returned is the entry it left in the list.
  · rcases run.updateTool_mem r.mostTools u with ⟨tool, htool, hreport⟩
    refine ⟨tool.call, (run.updateTool r.mostTools u).2.snapshot key, ?_, ?_, ?_, ?_⟩
    · rw [updateTool, hrun, hreport]
    · rw [hreport, Run.updateTool_id]
    · rw [get?, updateTool_eq, get?_change r key _ run hrun, Option.map_some]
    · exact List.mem_map_of_mem htool

/-- Two calls fill a list, a third one drops the first of them, and the first comes back. -/
def crowded (key : RunKey) : List (Action Nat) :=
  [.update key { ToolUpdate.bare "a" with stage := some "running" }, .update key (.bare "b"),
    .append key "text", .update key (.bare "c"), .restart key, .update key (.bare "a")]

/-- The call that comes back is the latest one in the list, and its stage is forgotten. -/
theorem dropped_call_starts_anew :
    let r := (fresh 2 0).actAll ([] ++ .register ⟨0, 0⟩ ⟨"c", "i"⟩ none :: crowded ⟨"c", "i"⟩)
    (∃ snapshot, r.get? ⟨"c", "i"⟩ = some snapshot ∧ snapshot.tools.length = 2) ∧
      (r.get? ⟨"c", "i"⟩).map (·.tools) = some [.ofUpdate (.bare "c"), .ofUpdate (.bare "a")] := by
  refine ⟨?_, rfl⟩
  have hstays : ∀ a ∈ crowded ⟨"c", "i"⟩, ¬a.Ends ⟨"c", "i"⟩ := by
    simp [crowded, Action.Ends]
  rcases (tool_list_recent 2 0 [] (crowded ⟨"c", "i"⟩) ⟨0, 0⟩ ⟨"c", "i"⟩ none rfl hstays).1 with
    ⟨snapshot, hsnapshot, hlength, -⟩
  exact ⟨snapshot, hsnapshot, hlength.trans (by decide)⟩

end Registry

end Switchboard

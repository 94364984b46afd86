import Switchboard.Proofs.Followers

/-!
# Copies of a Run

A follower of a conversation keeps a copy of the run that is in flight: a
snapshot replaces it, text is appended, the state of a tool call is put under
its id, and the end of the run empties it. `Coordinator.follower_copy_agrees` says
that the copy agrees with the registry, whenever the follower joined and whatever
happened since, as long as its mailbox had room.

The registry drops tool calls without saying so when there are too many, so the
copy may know more calls than the registry. It is never wrong about one the
registry still has, because a call is dropped from the registry and not changed.

A snapshot lists the calls, and a copy looks them up by id. The two can only
agree if no id is listed twice, which is an invariant of the runs.

## Main definitions

* `Replica`: A copy of a run.
* `Replica.see`, `Replica.ofFrames`: The copy after a frame and after some frames.
* `Replica.Shows`: A copy agrees with a run.
* `Run.Distinct`: No tool call is listed twice.
* `Replica.Mirrors`: A copy agrees with the registry on a conversation.

## Theorems

* `Replica.Shows.after`: Copies follow the runs.
* `Replica.Mirrors.perform`, `Replica.Mirrors.performAll`: Copies follow the registry.
* `Coordinator.follower_copy_agrees`: The copy of a follower agrees with the registry.
-/

namespace Switchboard

/-! ### Tool calls of a run -/

namespace Run

variable {κ : Type}

/-- No tool call is listed twice. -/
def Distinct (run : Run κ) : Prop :=
  (run.tools.map (·.call.id)).Nodup

theorem dropOldestN_sublist (n : Nat) (tools : List TrackedCall) :
    (dropOldestN n tools).Sublist tools := by
  induction n generalizing tools with
  | zero => exact List.Sublist.refl _
  | succ n ih => exact (ih (dropOldest tools)).trans List.eraseP_sublist

theorem find?_id (tools : List TrackedCall) (id : String) (known : TrackedCall)
    (h : (tools.find? fun tool => tool.call.id = id) = some known) : known.call.id = id := by
  simpa using List.find?_some h

/-- What becomes of the tool calls of a run: those that are still there are as they were, apart
    from the one that was updated. -/
theorem mem_updateTool (most : Nat) (u : ToolUpdate) (run : Run κ) (tool : TrackedCall)
    (h : tool ∈ (run.updateTool most u).2.tools) :
    tool.call = (run.updateTool most u).1 ∨ tool ∈ run.tools ∧ tool.call.id ≠ u.id := by
  unfold updateTool at h ⊢
  cases hf : run.tools.find? fun tool => tool.call.id = u.id with
  -- A known call is changed in place, the others stay.
  | some known =>
      simp only [hf, List.mem_map] at h ⊢
      rcases h with ⟨before, hbefore, rfl⟩
      by_cases hid : before.call.id = u.id
      · rw [if_pos hid]
        exact Or.inl rfl
      · rw [if_neg hid]
        exact Or.inr ⟨hbefore, hid⟩
  -- A new call is added at the end, after the oldest ones made room for it.
  | none =>
      simp only [hf, List.mem_append, List.mem_singleton] at h ⊢
      rcases h with hkept | rfl
      · have hold := (dropOldestN_sublist _ _).mem hkept
        have hne := List.find?_eq_none.mp hf tool hold
        exact Or.inr ⟨hold, by simpa using hne⟩
      · exact Or.inl rfl

/-- The state of an updated tool call has the id of the update. -/
theorem updateTool_id (most : Nat) (u : ToolUpdate) (run : Run κ) :
    (run.updateTool most u).1.id = u.id := by
  unfold updateTool
  cases hf : run.tools.find? fun tool => tool.call.id = u.id with
  | some known => exact find?_id _ _ _ hf
  | none => rfl

theorem updateTool_distinct (most : Nat) (u : ToolUpdate) (run : Run κ) (h : run.Distinct) :
    (run.updateTool most u).2.Distinct := by
  unfold updateTool Distinct
  cases hf : run.tools.find? fun tool => tool.call.id = u.id with
  | some known =>
      have hknown : known.call.id = u.id := find?_id _ _ _ hf
      -- An update does not change the ids.
      have hids : (run.tools.map fun tool =>
          if tool.call.id = u.id then ⟨known.call.apply u, run.updates + 1⟩ else tool).map
            (·.call.id) = run.tools.map (·.call.id) := by
        rw [List.map_map]
        refine List.map_congr_left fun tool _ => ?_
        by_cases hid : tool.call.id = u.id
        · rw [Function.comp_apply, if_pos hid, ToolCall.apply_id, hknown, hid]
        · rw [Function.comp_apply, if_neg hid]
      simp only
      rw [hids]
      exact h
  | none =>
      simp only [List.map_append, List.map_singleton]
      refine List.nodup_append.mpr ⟨h.sublist ((dropOldestN_sublist _ _).map _), by simp, ?_⟩
      intro id hid other hother
      rw [List.mem_singleton] at hother
      rcases List.mem_map.mp hid with ⟨tool, htool, rfl⟩
      have hne := List.find?_eq_none.mp hf tool ((dropOldestN_sublist _ _).mem htool)
      rw [hother]
      simpa [ToolCall.ofUpdate] using hne

/-- A run that goes on lists no tool call twice. -/
theorem Distinct.after {run : Run κ} (h : run.Distinct) (most : Nat)
    (handover : RunTask.Handover) : (run.after most handover).Distinct := by
  cases handover with
  | nothing => exact h
  | restart => exact h
  | event e =>
      cases e with
      | delta text => exact h
      | tool update => exact updateTool_distinct most update run h

end Run

/-! ### Copies -/

/-- A copy of a run. -/
structure Replica where
  text : String
  /-- The states of the tool calls by id. -/
  tools : Table String ToolCall

namespace Replica

/-- The copy of somebody who knows of no run. -/
def empty : Replica :=
  ⟨"", .empty⟩

/-- The states of tool calls by id. -/
def index (calls : List ToolCall) (tools : Table String ToolCall) : Table String ToolCall :=
  calls.foldl (fun tools call => tools.insert call.id call) tools

/-- The copy after a frame. -/
def see (copy : Replica) : Frame.Body → Replica
  | .snapshot s => ⟨s.text, index s.tools .empty⟩
  | .delta _ text => { copy with text := copy.text ++ text }
  | .toolState _ call => { copy with tools := copy.tools.insert call.id call }
  | .turnFinal .. => empty
  | _ => copy

/-- The copy of a conversation after some frames. Frames that are not about the conversation
    are not looked at. -/
def ofFrames (conversation : String) (fs : List Frame) : Replica :=
  (bodiesOn conversation fs).foldl see empty

theorem get?_index_other (calls : List ToolCall) (tools : Table String ToolCall) (id : String)
    (h : id ∉ calls.map (·.id)) : (index calls tools).get? id = tools.get? id := by
  induction calls generalizing tools with
  | nil => rfl
  | cons call rest ih =>
      rw [List.map_cons, List.mem_cons, not_or] at h
      rw [index, List.foldl_cons, ← index, ih _ h.2, Table.get?_insert, if_neg h.1]

/-- Calls with different ids are all found under their ids. -/
theorem get?_index (calls : List ToolCall) (tools : Table String ToolCall)
    (h : (calls.map (·.id)).Nodup) (call : ToolCall) (hmem : call ∈ calls) :
    (index calls tools).get? call.id = some call := by
  induction calls generalizing tools with
  | nil => exact absurd hmem List.not_mem_nil
  | cons first rest ih =>
      rw [List.map_cons, List.nodup_cons] at h
      rw [index, List.foldl_cons, ← index]
      rcases List.mem_cons.mp hmem with rfl | hrest
      · rw [get?_index_other rest _ _ h.1, Table.get?_insert, if_pos rfl]
      · exact ih _ h.2 hrest

/-- A copy agrees with a run on the text and on every tool call the run still lists. -/
structure Shows {κ : Type} (copy : Replica) (run : Run κ) : Prop where
  text : copy.text = run.text
  tools : ∀ tool ∈ run.tools, copy.tools.get? tool.call.id = some tool.call

theorem shows_snapshot {κ : Type} (copy : Replica) (key : RunKey) (run : Run κ)
    (h : run.Distinct) : (copy.see (.snapshot (run.snapshot key))).Shows run where
  text := rfl
  tools := by
    intro tool htool
    have hids : ((run.tools.map (·.call)).map (·.id)).Nodup := by
      rw [List.map_map]
      exact h
    exact get?_index _ _ hids tool.call (List.mem_map_of_mem htool)

/-- A copy that agrees with a run agrees with it after the run went on and the copy has seen
    what was reported. -/
theorem Shows.after {κ : Type} {copy : Replica} {run : Run κ} (h : copy.Shows run)
    (hd : run.Distinct) (most : Nat) (key : RunKey) (handover : RunTask.Handover) :
    (((run.report most key handover).map (·.body key.conversation)).foldl see copy).Shows
      (run.after most handover) := by
  cases handover with
  | nothing => exact h
  | restart => exact shows_snapshot copy key run.restart hd
  | event e =>
      cases e with
      | delta text =>
          refine ⟨?_, h.tools⟩
          show copy.text ++ text = run.text ++ text
          rw [h.text]
      | tool update =>
          have htext : (run.updateTool most update).2.text = run.text := by
            unfold Run.updateTool
            cases run.tools.find? fun tool => tool.call.id = update.id <;> rfl
          refine ⟨h.text.trans htext.symm, ?_⟩
          intro tool htool
          show (copy.tools.insert (run.updateTool most update).1.id _).get? _ = _
          rw [Table.get?_insert, Run.updateTool_id]
          -- Calls that were dropped to make room are not asked for.
          rcases Run.mem_updateTool most update run tool htool with hcall | ⟨hold, hne⟩
          · rw [hcall, Run.updateTool_id, if_pos rfl]
          · rw [if_neg hne, h.tools tool hold]

/-! ### Copies and the registry -/

/-- A copy agrees with the registry on a conversation: with every run that is registered, and
    with there being none. -/
structure Mirrors (copy : Replica) (s : Coordinator) (conversation : String) : Prop where
  shows : ∀ key run, key.conversation = conversation → s.registry.runs.get? key = some run →
    copy.Shows run
  idle : (∀ key, key.conversation = conversation → s.registry.runs.get? key = none) →
    copy = empty

theorem empty_shows_start {κ : Type} (now : Timestamp) (callback : Option κ) :
    empty.Shows (.start now callback) :=
  ⟨rfl, fun _ h => absurd h List.not_mem_nil⟩

/-- Only the runs of the conversation count. -/
theorem Mirrors.of_same {copy : Replica} {s : Coordinator} {conversation : String}
    (h : copy.Mirrors s conversation) (s' : Coordinator)
    (hruns : ∀ key, key.conversation = conversation →
      s'.registry.runs.get? key = s.registry.runs.get? key) : copy.Mirrors s' conversation where
  shows key run hkey hrun := h.shows key run hkey ((hruns key hkey).symm.trans hrun)
  idle hnone := h.idle fun key hkey => (hruns key hkey).symm.trans (hnone key hkey)

/-- A copy that agrees with the registry agrees with it after a move, once it has seen what was
    announced on the conversation. -/
theorem Mirrors.perform {copy : Replica} {s : Coordinator} {conversation : String}
    (h : copy.Mirrors s conversation) (hc : s.Coherent)
    (hd : ∀ key run, s.registry.runs.get? key = some run → run.Distinct) (m : Coordinator.Move) :
    (((Coordinator.newsOn conversation s m).map (·.body conversation)).foldl see copy).Mirrors
      (s.perform m) conversation := by
  -- There is at most one run that the copy can be about.
  have hunique : ∀ key key' run run', s.registry.runs.get? key = some run →
      s.registry.runs.get? key' = some run' → key.conversation = key'.conversation →
      key = key' := by
    intro key key' run run' hrun hrun' hconv
    exact hc.registered_unique key key' (Option.isSome_of_eq_some hrun)
      (Option.isSome_of_eq_some hrun') hconv
  cases s.perform_effect m with
  | idle hruns hnews =>
      rw [hnews]
      exact h.of_same _ fun key _ => hruns key
  | begins now key callback hnew hfree hruns hnews =>
      rw [hnews]
      by_cases hkc : key.conversation = conversation
      · -- the conversation had no run, so that the copy is empty like the new run
        have hcopy : copy = empty := by
          refine h.idle fun other hother => ?_
          exact (s.not_isRegistered_iff other).mp
            (hc.not_registered_of_free other (hother.trans hkc.symm ▸ hfree))
        refine ⟨fun other run hother hrun => ?_, fun hnone => ?_⟩
        · rw [hruns] at hrun
          by_cases ho : other = key
          · rw [if_pos ho, Option.some.injEq] at hrun
            rw [List.map_nil, List.foldl_nil, hcopy, ← hrun]
            exact empty_shows_start now callback
          · rw [if_neg ho] at hrun
            exact h.shows other run hother hrun
        · have hkey := hnone key hkc
          rw [hruns, if_pos rfl] at hkey
          exact absurd hkey (by simp)
      · refine h.of_same _ fun other hother => ?_
        have ho : other ≠ key := fun e => hkc (e ▸ hother)
        rw [hruns, if_neg ho]
  | goesOn task t t' handover run hmove ht hforward hrun hruns hnews =>
      rw [hnews]
      by_cases hkc : t.key.conversation = conversation
      · subst hkc
        rw [if_pos rfl]
        refine ⟨fun other run' hother hrun' => ?_, fun hnone => ?_⟩
        · rw [hruns] at hrun'
          by_cases ho : other = t.key
          · rw [if_pos ho, Option.some.injEq] at hrun'
            rw [← hrun']
            exact (h.shows t.key run rfl hrun).after (hd t.key run hrun) _ t.key handover
          · rw [if_neg ho] at hrun'
            exact absurd (hunique other t.key run' run hrun' hrun hother) ho
        · have hkey := hnone t.key rfl
          rw [hruns, if_pos rfl] at hkey
          exact absurd hkey (by simp)
      · rw [if_neg hkc]
        refine h.of_same _ fun other hother => ?_
        have ho : other ≠ t.key := fun e => hkc (e ▸ hother)
        rw [hruns, if_neg ho]
  | leaves key run status hmove hrun hruns hnews =>
      rw [hnews]
      by_cases hkc : key.conversation = conversation
      · rw [if_pos hkc]
        -- The run was the only one, and the copy has been emptied.
        refine ⟨fun other run' hother hrun' => ?_, fun _ => rfl⟩
        rw [hruns] at hrun'
        by_cases ho : other = key
        · rw [if_pos ho] at hrun'
          exact absurd hrun' (by simp)
        · rw [if_neg ho] at hrun'
          exact absurd (hunique other key run' run hrun' hrun (hother.trans hkc.symm)) ho
      · rw [if_neg hkc]
        refine h.of_same _ fun other hother => ?_
        have ho : other ≠ key := fun e => hkc (e ▸ hother)
        rw [hruns, if_neg ho]

end Replica

namespace Coordinator

/-- No registered run lists a tool call twice. -/
def Distinct (s : Coordinator) : Prop :=
  ∀ key run, s.registry.runs.get? key = some run → run.Distinct

theorem Distinct.perform {s : Coordinator} (h : s.Distinct) (m : Move) :
    (s.perform m).Distinct := by
  intro key run hrun
  -- A new run has no calls, and an event keeps the calls of its run distinct.
  cases s.perform_effect m with
  | idle hruns hnews =>
      rw [hruns] at hrun
      exact h key run hrun
  | begins now other callback hnew hfree hruns hnews =>
      rw [hruns] at hrun
      by_cases ho : key = other
      · rw [if_pos ho, Option.some.injEq] at hrun
        rw [← hrun]
        exact List.nodup_nil
      · rw [if_neg ho] at hrun
        exact h key run hrun
  | goesOn task t t' handover before hmove ht hforward hbefore hruns hnews =>
      rw [hruns] at hrun
      by_cases ho : key = t.key
      · rw [if_pos ho, Option.some.injEq] at hrun
        rw [← hrun]
        exact (h t.key before hbefore).after _ handover
      · rw [if_neg ho] at hrun
        exact h key run hrun
  | leaves other before status hmove hbefore hruns hnews =>
      rw [hruns] at hrun
      by_cases ho : key = other
      · rw [if_pos ho] at hrun
        exact absurd hrun (by simp)
      · rw [if_neg ho] at hrun
        exact h key run hrun

theorem Reachable.distinct {s : Coordinator} (h : s.Reachable) : s.Distinct := by
  rcases h with ⟨config, provider, moves, rfl⟩
  refine performAll_induction Distinct _ moves ?_ fun _ m h => h.perform m
  intro key run hrun
  exact absurd hrun (by simp [ofConfig, Registry.fresh])

end Coordinator

/-- A copy that agrees with the registry agrees with it after some moves, once it has seen what
    was announced on the conversation. -/
theorem Replica.Mirrors.performAll {copy : Replica} {s : Coordinator} {conversation : String}
    (h : copy.Mirrors s conversation) (hc : s.Coherent) (hd : s.Distinct)
    (moves : List Coordinator.Move) :
    (((Coordinator.newsOnAll conversation moves s).map (·.body conversation)).foldl see
      copy).Mirrors (s.performAll moves) conversation := by
  induction moves generalizing s copy with
  | nil => exact h
  | cons m rest ih =>
      rw [Coordinator.newsOnAll, List.map_append, List.foldl_append, Coordinator.performAll_cons]
      exact ih (h.perform hc hd m) (hc.perform m) (hd.perform m)

namespace Coordinator

/-- The copy of whoever joins a conversation agrees with the registry from the first frame. -/
theorem mirrors_joined (s : Coordinator) (hd : s.Distinct) (hc : s.Coherent)
    (conversation : String) :
    (((s.activeRun conversation).toList.map Frame.Body.snapshot).foldl Replica.see
      .empty).Mirrors s conversation := by
  cases hactive : s.activeRun conversation with
  | none =>
      refine ⟨fun key run hkey hrun => ?_, fun _ => rfl⟩
      have hnone := s.registry.newest_none key (hkey ▸ hactive)
      exact absurd (hrun.symm.trans hnone) (by simp)
  | some snapshot =>
      rcases s.registry.newest_mem conversation snapshot hactive with
        ⟨key, run, hrun, rfl, hkey⟩
      refine ⟨fun other run' hother hrun' => ?_, fun hnone => ?_⟩
      -- The newest run is the only one.
      · have ho := hc.registered_unique other key (Option.isSome_of_eq_some hrun')
          (Option.isSome_of_eq_some hrun) (hother.trans hkey.symm)
        subst ho
        rw [← Option.some.inj (hrun.symm.trans hrun')]
        exact Replica.shows_snapshot .empty other run (hd other run hrun)
      · exact absurd (hrun.symm.trans (hnone key hkey)) (by simp)

/-- The copy of a connection that joined a conversation and whose mailbox had room for every
    frame agrees with the registry: with the text and the tool calls of the run that is
    registered, and with there being none. What it received about the conversation is the state
    of the run that was active when it joined and everything that was announced since, so that no
    change is missed or seen twice. -/
theorem follower_copy_agrees (s : Coordinator) (hs : s.Reachable) (connection : Nat)
    (conversation : String) (after : List Move)
    (hattached : s.hub.roster.isAttached connection = true)
    (hnew : ¬s.hub.roster.Follows connection conversation)
    (hstay : ∀ m ∈ after, m ≠ .detach connection ∧ m ≠ .close connection)
    (hroom : Hub.NeverOverflows connection
      (hubActionsAll (.follow connection conversation :: after) s) s.hub) :
    let moves := .follow connection conversation :: after
    let received := receivedSince connection moves s
    let copy := Replica.ofFrames conversation received
    (∀ key run, key.conversation = conversation →
      (s.performAll moves).registry.runs.get? key = some run →
      copy.text = run.text ∧
        ∀ tool ∈ run.tools, copy.tools.get? tool.call.id = some tool.call) ∧
    ((∀ key, key.conversation = conversation → ¬(s.performAll moves).IsRegistered key) →
      copy = .empty) ∧
    bodiesOn conversation received = (s.activeRun conversation).toList.map .snapshot ++
      (newsOnAll conversation after (s.perform (.follow connection conversation))).map
        (·.body conversation) := by
  intro moves received copy
  have hreceived := s.bodiesOn_received hs connection conversation after hattached hnew hstay hroom
  have hjoined := (s.mirrors_joined hs.distinct hs.coherent conversation).of_same
    (s.perform (.follow connection conversation))
    (fun key _ => by rw [registry_follow])
  have hmirrors := hjoined.performAll (hs.coherent.perform _) (hs.distinct.perform _) after
  rw [← List.foldl_append, ← hreceived] at hmirrors
  refine ⟨fun key run hkey hrun => ?_, fun hnone => ?_, hreceived⟩
  · have hshows := hmirrors.shows key run hkey hrun
    exact ⟨hshows.text, hshows.tools⟩
  · exact hmirrors.idle fun key hkey => (not_isRegistered_iff _ key).mp (hnone key hkey)

/-- A provider that answers in two pieces. -/
def halting : Provider :=
  ⟨"halting", fun _ => ⟨[.send (.delta "a") false, .send (.delta "b") false], .ok "ab"⟩⟩

/-- A run has been started and the first piece of its answer was handed on. -/
def halfway : Coordinator :=
  (ofConfig .standard (some halting)).performAll
    [.create ⟨⟨0, 0⟩, "c"⟩ none "", .attach 4, .start ⟨⟨1, 0⟩, "i"⟩ "c" none "", .drive 0 0,
      .forward 0, .forward 0]

/-- Who joins half way through an answer knows the whole of it in the end. -/
theorem late_follower_knows_all :
    (Replica.ofFrames "c" (receivedSince 0 [.follow 0 "c", .take 0, .forward 0] halfway)).text =
      "ab" :=
  ((follower_copy_agrees halfway ⟨_, _, _, rfl⟩ 0 "c" [.take 0, .forward 0] rfl
    (fun ⟨_, hsub, hmem⟩ => by
      cases hsub
      exact absurd hmem List.not_mem_nil)
    (by simp) (by decide)).1 ⟨"c", "i"⟩
      ⟨⟨1, 0⟩, "ab", [], 0, some (.task 0)⟩ rfl rfl).1

end Coordinator

end Switchboard

import Switchboard.Proofs.Cancelling
import Switchboard.Proofs.Registry.Memory

/-!
# Cancelling Again

A posted request to cancel a run is answered from two sources. If the run is
registered it is taken out, and that is success. If it is not, the request is
successful all the same as long as the registry remembers that the run left, so
that a client that lost the answer can ask again. The registry remembers a
bounded number of names, and which ones these are is said by its history: see
`Registry.wasFinalized_iff_leftLately`.

Nothing is assumed about how the registry came to its history, so that this
covers every course of events of a coordinator and every other use of the
registry, resets included.

## Main definitions

* `Http.Request.Cancels`: A request that is posted to cancel a run.
* `Http.done`, `Http.missing`: The two answers.

## Theorems

* `Http.handle_registered`, `Http.handle_absent`: What comes of such a request.
* `Http.cancels_posting`: Every run can be asked to be cancelled.
* `Coordinator.cancel_answered_from_memory`: What the history says about the answer.
-/

namespace Switchboard

namespace Http

/-- Whether a request is posted to cancel a run, and which run its body names. -/
structure Request.Cancels (request : Request) (key : RunKey) : Prop where
  posted : request.method = "POST"
  path : request.path = "/chat/cancel"
  body : readBody cancelBody request = .ok key

/-- The answer if the run was cancelled, or left a short while ago. -/
def done : Response :=
  ⟨200, .json (.obj [("status", .str "ok")])⟩

/-- The answer if the run is not known. -/
def missing : Response :=
  ⟨404, .json (.obj [("error", .str "not_found")])⟩

section

variable {request : Request} {key : RunKey} (h : request.Cancels key) (occasion : Occasion)
  (s : Coordinator)

include h

theorem handle_cancels : handle occasion request s = cancelKey occasion key s := by
  simp only [handle, h.path, posted, h.posted, cancelRun, h.body]
  rfl

/-- A run that is registered is taken out. -/
theorem handle_registered (run : Run Callback) (hrun : s.registry.runs.get? key = some run) :
    handle occasion request s = (done, s.cancelled occasion.now key run) := by
  rw [handle_cancels h, cancelKey, s.cancelRun_eq occasion.now key run hrun]
  rfl

/-- If there is no such run nothing changes, and the memory gives the answer. -/
theorem handle_absent (hnone : ¬s.IsRegistered key) :
    handle occasion request s =
      (if s.registry.wasFinalized key then done else missing, s) := by
  rw [handle_cancels h, cancelKey,
    s.cancelRun_absent occasion.now key ((s.not_isRegistered_iff key).mp hnone)]
  cases hwas : s.registry.wasFinalized key <;> simp [hwas, done, missing]

end

/-- Every run can be asked to be cancelled. -/
theorem cancels_posting (key : RunKey) :
    (Coordinator.posting "/chat/cancel" (.obj (Coordinator.naming key))).Cancels key where
  posted := rfl
  path := Coordinator.posting_path _ _ (by decide)
  body := by
    have hjson : MediaType.isJson "application/json" = true := by decide
    have hnames := Coordinator.naming_names key [] (by simp)
    rw [List.append_nil] at hnames
    refine cancelBody_names _ key _ hjson (Coordinator.posting_parse _ _ ?_) hnames
    simp [Coordinator.naming, Json.Survives, Json.MembersSurvive, Json.depthLimit]

end Http

namespace Coordinator

/-- A run that was cancelled has left the registry, and nothing else has. -/
theorem cancelled_registry (s : Coordinator) (now : Timestamp) (key : RunKey)
    (run : Run Callback) (hrun : s.registry.runs.get? key = some run) :
    (s.cancelled now key run).registry = s.registry.act (.cancel key) := by
  rw [cancelled, Registry.act_cancel, Registry.leave, if_pos (Table.contains_of_some hrun)]

/-- For every history of the registry: the names that it remembers are those that were reported to
    leave since it forgot everything, as many of the latest ones as it may hold. A request to cancel
    a run succeeds if the run is registered or is one of these, and finds nothing otherwise. It
    takes the run out if it is registered, and nothing else, and changes nothing if it is not. If
    one name at least is remembered, a request that succeeded can be repeated: it succeeds again and
    changes nothing. -/
theorem cancel_answered_from_memory (s : Coordinator) (maxTools memory : Nat)
    (actions : List (Registry.Action Callback))
    (h : s.registry = (Registry.fresh maxTools memory).actAll actions) :
    let lately := fun key =>
      Registry.LeftLately memory key actions (Registry.fresh maxTools memory)
    (∀ key, s.registry.wasFinalized key = true ↔ lately key) ∧
    (∀ key, ∃ request : Http.Request, request.Cancels key) ∧
    ∀ occasion key (request : Http.Request), request.Cancels key →
      let response := (Http.handle occasion request s).1
      let s' := (Http.handle occasion request s).2
      (s.IsRegistered key ∨ lately key → response = Http.done) ∧
      (¬(s.IsRegistered key ∨ lately key) → response = Http.missing) ∧
      (s.IsRegistered key → s'.registry = s.registry.act (.cancel key) ∧
        ¬s'.IsRegistered key ∧
        ∀ other, other ≠ key → s'.registry.runs.get? other = s.registry.runs.get? other) ∧
      (¬s.IsRegistered key → s' = s) ∧
      (1 ≤ memory → response.status = 200 → ∀ occasion' (request' : Http.Request),
        request'.Cancels key → Http.handle occasion' request' s' = (Http.done, s')) := by
  intro lately
  have hlately : ∀ key, s.registry.wasFinalized key = true ↔ lately key := by
    intro key
    rw [h]
    exact Registry.wasFinalized_iff_leftLately maxTools memory actions key
  have hmemory : s.registry.memory = memory := by
    rw [h, Registry.memory_actAll]
    rfl
  refine ⟨hlately, fun key => ⟨_, Http.cancels_posting key⟩, ?_⟩
  intro occasion key request hrequest response s'
  -- Whether the run is registered decides between the two answers that there can be.
  by_cases hr : s.IsRegistered key
  · rcases Option.isSome_iff_exists.mp hr with ⟨run, hrun⟩
    have hhandle := Http.handle_registered hrequest occasion s run hrun
    have hgone : ¬(s.cancelled occasion.now key run).IsRegistered key := by
      rw [not_isRegistered_iff, cancelled, Registry.get?_without, if_pos rfl]
    simp only [response, s', hhandle, hr, true_or, not_true_eq_false, false_imp_iff, forall_const,
      true_and]
    refine ⟨⟨s.cancelled_registry occasion.now key run hrun, hgone, fun other hother => ?_⟩, ?_⟩
    · rw [cancelled, Registry.get?_without, if_neg hother]
    -- The run that is cancelled now is in the memory when the repetition comes.
    · intro hsome _ occasion' request' hrequest'
      have hwas : (s.cancelled occasion.now key run).registry.wasFinalized key = true :=
        Registry.wasFinalized_without _ key (hmemory ▸ hsome)
      rw [Http.handle_absent hrequest' occasion' _ hgone, if_pos hwas]
  · have hhandle := Http.handle_absent hrequest occasion s hr
    simp only [response, s', hhandle, hr, false_or, not_false_eq_true, false_imp_iff, true_and,
      forall_const, ← hlately]
    refine ⟨fun hwas => by rw [if_pos hwas], fun hwas => by rw [if_neg hwas], ?_⟩
    intro _ hstatus occasion' request' hrequest'
    have hwas : s.registry.wasFinalized key = true := by
      by_contra hwas
      rw [if_neg hwas] at hstatus
      exact absurd hstatus (by decide)
    rw [Http.handle_absent hrequest' occasion' s hr, if_pos hwas]

/-- Where one name is remembered, the run that left last can be cancelled again, and the one that
    left before it is forgotten. -/
theorem earlier_run_forgotten :
    let s : Coordinator := { ofConfig .standard none with
      registry := (Registry.fresh 8 1).actAll
        [.register ⟨0, 0⟩ ⟨"c", "i"⟩ none, .register ⟨1, 0⟩ ⟨"d", "j"⟩ none, .cancel ⟨"c", "i"⟩,
          .finalize ⟨"d", "j"⟩] }
    ∃ first second : Http.Request, first.Cancels ⟨"c", "i"⟩ ∧ second.Cancels ⟨"d", "j"⟩ ∧
      Http.handle ⟨⟨2, 0⟩, "f"⟩ first s = (Http.missing, s) ∧
      Http.handle ⟨⟨2, 0⟩, "f"⟩ second s = (Http.done, s) := by
  intro s
  have h := cancel_answered_from_memory s 8 1 _ rfl
  have hgone : ∀ key : RunKey, key = ⟨"c", "i"⟩ ∨ key = ⟨"d", "j"⟩ → ¬s.IsRegistered key := by
    rintro key (rfl | rfl) <;> exact Bool.false_ne_true
  have hfirst : ¬s.registry.wasFinalized ⟨"c", "i"⟩ = true := by decide
  have hsecond : s.registry.wasFinalized ⟨"d", "j"⟩ = true := by decide
  rw [h.1] at hfirst hsecond
  rcases h.2.1 ⟨"c", "i"⟩ with ⟨first, hnamed⟩
  rcases h.2.1 ⟨"d", "j"⟩ with ⟨second, hnamed'⟩
  have hmissing := h.2.2 ⟨⟨2, 0⟩, "f"⟩ _ first hnamed
  have hdone := h.2.2 ⟨⟨2, 0⟩, "f"⟩ _ second hnamed'
  refine ⟨first, second, hnamed, hnamed', Prod.ext ?_ ?_, Prod.ext ?_ ?_⟩
  · exact hmissing.2.1 fun hr => hr.elim (hgone _ (Or.inl rfl)) hfirst
  · exact hmissing.2.2.2.1 (hgone _ (Or.inl rfl))
  · exact hdone.1 (Or.inr hsecond)
  · exact hdone.2.2.2.1 (hgone _ (Or.inr rfl))

end Coordinator

end Switchboard

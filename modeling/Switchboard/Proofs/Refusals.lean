import Switchboard.Proofs.Surfaces

/-!
# Refused Requests

A request that is refused does nothing. That holds on every surface, for every
state and however far the request came: a run is refused at five places, a text
for its form or for the run that it names, a call for its tool, its arguments or
what they name. Deleting a conversation is the one operation that acts before it
fails. It holds the conversation meanwhile, and when it finds that there is none
it gives the hold back. All that is left of that is the number of the hold, which
will not be used again.

Finding a run instead of starting it is no refusal, and does nothing either. And
nothing is done by the tools that only look at runs, whatever they answer.

## Main definitions

* `Coordinator.Unaffected`: Nothing happened but that holds may have been numbered.
* `ChatTools.SparesOnError`: A call that does nothing if it fails.
* `Http.Response.TellsError`: An answer that tells of an error.

## Theorems

* `Coordinator.deleteConversation_refused`, `Coordinator.cancelRun_refused`,
  `Coordinator.startRun_idle`: Operations that come to nothing.
* `ChatTools.call_spares`: So do calls of tools that fail.
* `Rpc.Toolbox.handleText_refused`: A body that is answered with an error does no more than a call
  that fails.
* `Connection.answer_refused`, `Http.handle_refused`, `Http.handle_run_refused`: Refused texts and
  requests.
* `Http.handle_runs`: Looking at runs does nothing.
* `Coordinator.refusals_unaffecting`: All of this, for any state.
-/

namespace Switchboard

namespace Coordinator

/-- Whether nothing happened between two states. The holds are the same, but there may have been
    others in between. -/
structure Unaffected (s s' : Coordinator) : Prop where
  held : s'.locks.held = s.locks.held
  /-- The runs and the memory of those that ended. -/
  registry : s'.registry = s.registry
  /-- Who is on which topic, the numbers of the topics and the frames in the mailboxes. -/
  hub : s'.hub = s.hub
  directory : s'.directory = s.directory
  provider : s'.provider = s.provider
  retry : s'.retry = s.retry
  tasks : s'.tasks = s.tasks
  launched : s'.launched = s.launched
  fired : s'.fired = s.fired

theorem Unaffected.of_eq {s s' : Coordinator} (h : s' = s) : s.Unaffected s' := by
  subst h
  constructor <;> rfl

/-! ### Operations -/

theorem archiveConversation_refused (s : Coordinator) (now : Timestamp) (id : String) (e : Conflict)
    (h : (s.archiveConversation now id).1 = .error e) : (s.archiveConversation now id).2 = s := by
  unfold archiveConversation at h ⊢
  cases hc : s.directory.get? id with
  | none => rfl
  | some c => simp [hc] at h

/-- A conversation that cannot be deleted was held for a moment at most. -/
theorem deleteConversation_refused (s : Coordinator) (id : String) (e : Conflict)
    (h : (s.deleteConversation id).1 = .error e) : s.Unaffected (s.deleteConversation id).2 := by
  unfold deleteConversation at h ⊢
  cases hheld : s.locks.held.get? id with
  | some g =>
      rw [Locks.acquire?_held _ _ _ hheld]
      exact .of_eq rfl
  | none =>
      rw [Locks.acquire?_free _ _ hheld] at h ⊢
      cases hc : s.directory.get? id with
      | some c => simp [hc] at h
      | none =>
          refine { Unaffected.of_eq rfl with held := ?_ }
          -- The hold is still the one that was taken.
          have hcurrent : (s.locks.taking id).held.get? id = some (s.locks.taken + 1) := by
            rw [Locks.taking, Table.get?_insert, if_pos rfl]
          simp only [Locks.drop, hcurrent, if_true]
          exact Table.erase_insert _ _ _ hheld

/-- A start that creates no run changes nothing: it was refused, or the run was there. -/
theorem startRun_idle (s : Coordinator) (occasion : Occasion) (conversation : String)
    (run : Option String) (prompt : String)
    (h : ∀ snapshot, (s.startRun occasion conversation run prompt).1 ≠ .ok (.created snapshot)) :
    (s.startRun occasion conversation run prompt).2 = s := by
  rcases startRun_cases s occasion conversation run prompt with
    ⟨e, hs⟩ | ⟨found, -, hs⟩ | ⟨provider, c, -, -, -, -, -, hs⟩
  · rw [hs]
  · rw [hs]
  · rw [hs] at h
    exact absurd rfl (h _)

theorem cancelRun_refused (s : Coordinator) (now : Timestamp) (key : RunKey)
    (h : (s.cancelRun now key).1 = false) : (s.cancelRun now key).2 = s := by
  cases hr : s.registry.runs.get? key with
  | none => rw [cancelRun_absent s now key hr]
  | some run =>
      rw [cancelRun_eq s now key run hr] at h
      cases h

end Coordinator

/-! ### Tools -/

namespace ChatTools

open Rpc (ToolError)

variable (s : Coordinator)

/-- Whether a call of a tool does nothing if it fails. -/
def SparesOnError (outcome : Except ToolError Json × Coordinator) : Prop :=
  ∀ e, outcome.1 = .error e → s.Unaffected outcome.2

theorem withArguments_spares {α : Type} (read : Except ToolError α)
    (call : α → Except ToolError Json × Coordinator) (h : ∀ a, SparesOnError s (call a)) :
    SparesOnError s (withArguments read s call) := by
  cases read with
  | error e => exact fun _ _ => .of_eq rfl
  | ok a => exact h a

theorem create_spares (occasion : Occasion) (args : Arguments) :
    SparesOnError s (create occasion args s) :=
  withArguments_spares s _ _ fun _ e he => by cases he

theorem archive_spares (occasion : Occasion) (args : Arguments) :
    SparesOnError s (archive occasion args s) := by
  refine withArguments_spares s _ _ fun id => ?_
  have hrefused := s.archiveConversation_refused occasion.now id
  generalize s.archiveConversation occasion.now id = outcome at hrefused ⊢
  rcases outcome with ⟨conflict | c, s'⟩
  · exact fun _ _ => .of_eq (hrefused conflict rfl)
  · exact fun _ he => by cases he

theorem delete_spares (args : Arguments) : SparesOnError s (delete args s) := by
  refine withArguments_spares s _ _ fun id => ?_
  have hrefused := s.deleteConversation_refused id
  generalize s.deleteConversation id = outcome at hrefused ⊢
  rcases outcome with ⟨conflict | u, s'⟩
  · exact fun _ _ => hrefused conflict rfl
  · exact fun _ he => by cases he

theorem start_spares (occasion : Occasion) (args : Arguments) :
    SparesOnError s (start occasion args s) := by
  refine withArguments_spares s _ _ fun ⟨conversation, prompt, run⟩ => ?_
  have hidle := s.startRun_idle occasion conversation run prompt
  simp only
  generalize s.startRun occasion conversation run prompt = outcome at hidle ⊢
  rcases outcome with ⟨e | registration, s'⟩
  · exact fun _ _ => .of_eq (hidle nofun)
  · exact fun _ he => by cases he

theorem cancel_spares (occasion : Occasion) (args : Arguments) :
    SparesOnError s (cancel occasion args s) :=
  withArguments_spares s _ _ fun _ e he => by cases he

theorem status_spares (args : Arguments) : SparesOnError s (status args s) :=
  withArguments_spares s _ _ fun _ _ _ => .of_eq rfl

/-- A call of a tool that fails does nothing. -/
theorem call_spares (occasion : Occasion) (tool : String) (arguments : Json) :
    SparesOnError s ((toolbox occasion).call tool arguments s) := by
  have hcall : SparesOnError s (call occasion tool arguments s) := by
    refine withArguments_spares s _ _ fun args => ?_
    split_ifs
    · exact create_spares s occasion args
    · exact archive_spares s occasion args
    · exact delete_spares s args
    · exact start_spares s occasion args
    · exact cancel_spares s occasion args
    · exact status_spares s args
    · exact fun _ _ => .of_eq rfl
  intro e he
  -- The result is only put in order, which makes no error of it.
  have hresult : (call occasion tool arguments s).1.map Json.canonical = .error e := he
  cases hr : (call occasion tool arguments s).1 with
  | error e' => exact hcall e' hr
  | ok value => simp [hr, Except.map] at hresult

end ChatTools

/-! ### Bodies -/

namespace Rpc

namespace Toolbox

variable {σ : Type} (box : Toolbox σ) (s : σ) (Kept : σ → Prop)

/-- A body that is answered with an error does nothing, or the call in it failed. -/
theorem handleText_refused (hstays : Kept s)
    (hcall : ∀ tool arguments e, (box.call tool arguments s).1 = .error e →
      Kept (box.call tool arguments s).2)
    (body : List Char) (r : Response) (hr : (box.handleText body s).1 = some r)
    (herror : r.error.isSome = true) : Kept (box.handleText body s).2 := by
  -- A call can only fail before the tool is reached or in it.
  have hcalled : ∀ params e, (box.callTool params s).1 = .error e →
      Kept (box.callTool params s).2 := by
    intro params e he
    unfold callTool at he ⊢
    cases hparams : callParams params with
    | error e' => exact hstays
    | ok call =>
        rcases call with ⟨tool, arguments⟩
        have hkept := hcall tool arguments
        simp only [hparams] at he ⊢
        generalize box.call tool arguments s = outcome at hkept he ⊢
        rcases outcome with ⟨e' | value, s'⟩
        · exact hkept e' rfl
        · cases he
  have hperformed : ∀ method params e, (box.perform method params s).1 = .error e →
      Kept (box.perform method params s).2 := by
    intro method params e he
    unfold perform at he ⊢
    by_cases hmethod : method = "tools/call"
    · subst hmethod
      exact hcalled params e he
    · -- no other method changes the state
      simp only [hmethod, if_false]
      repeat' split
      all_goals exact hstays
  -- A body is refused where it is read, or in the method it asks for.
  unfold handleText at hr ⊢
  cases hparse : Json.parse? body with
  | none => exact hstays
  | some j =>
      simp only [hparse] at hr ⊢
      cases hrequest : Request.ofJson j.canonical with
      | error refused => exact hstays
      | ok request =>
          simp only [hrequest, handle, Option.map_eq_some_iff] at hr ⊢
          rcases hr with ⟨id, -, rfl⟩
          have hkept := hperformed request.method request.params
          generalize box.perform request.method request.params s = outcome at hkept herror ⊢
          rcases outcome with ⟨e | result, s'⟩
          · exact hkept e rfl
          · cases herror

end Toolbox

theorem Response.json_error (r : Response) :
    r.json.member? "error" = r.error.map Error.json := by
  rcases r with ⟨jsonrpc, id, result, error⟩
  cases result <;> cases error <;> rfl

end Rpc

theorem RunTools.handleText_state (body : List Char) (s : Coordinator) :
    (RunTools.toolbox.handleText body s).2 = s := by
  rcases RunTools.toolbox.handleText_state body s with hs | ⟨tool, arguments, hs⟩
  · exact hs
  · exact hs.trans (RunTools.toolbox_call tool arguments s)

/-! ### Texts on a connection -/

/-- A text that is answered with an error does nothing. -/
theorem Connection.answer_refused (id : Nat) (now : Timestamp) (text : String) (s : Coordinator)
    (code : ErrorCode) (message : String)
    (h : (answer id now text s).1.body = .error code message) :
    (answer id now text s).2 = s := by
  -- The subscriptions are always granted; of what is left only a cancel can be refused.
  unfold answer at h ⊢
  cases hdecode : ClientMessage.decode text with
  | error e => rfl
  | ok m =>
      simp only [hdecode, perform] at h ⊢
      cases hrequest : m.request with
      | subscribeSidebar => simp [hrequest, Frame.ack] at h
      | subscribeConversation conversation => simp [hrequest, Frame.ack] at h
      | cancel key =>
          simp only [hrequest] at h ⊢
          have hrefused := s.cancelRun_refused now key
          generalize s.cancelRun now key = outcome at hrefused h ⊢
          rcases outcome with ⟨cancelled | cancelled, s'⟩
          · exact hrefused rfl
          · cases h

/-! ### Requests -/

namespace Http

/-- Whether an answer tells of an error: by its status, or by a member of its body. An error of
    JSON-RPC is told with the status of a success. -/
def Response.TellsError (r : Response) : Prop :=
  (r.status ≠ 200 ∧ r.status ≠ 202) ∨ ∃ j, r.body = .json j ∧ (j.member? "error").isSome = true

/-- The request to start a run does nothing, or it is told which run there is now. -/
theorem startRun_answer (occasion : Occasion) (request : Request) (s : Coordinator) :
    (startRun occasion request s).2 = s ∨ ∃ registration,
      (startRun occasion request s).1 = ⟨200, .json (ChatTools.startResult registration)⟩ := by
  unfold startRun
  cases readBody StartBody.read request with
  | error response => exact .inl rfl
  | ok body =>
      have hidle := s.startRun_idle occasion body.conversation body.run body.prompt
      simp only
      generalize s.startRun occasion body.conversation body.run body.prompt = outcome
        at hidle ⊢
      rcases outcome with ⟨e | registration, s'⟩
      · exact .inl (hidle nofun)
      · exact .inr ⟨registration, rfl⟩

/-- The request to cancel a run does nothing, or it is told that there is no such run now. -/
theorem cancelRun_answer (occasion : Occasion) (request : Request) (s : Coordinator) :
    (cancelRun occasion request s).2 = s ∨
      (cancelRun occasion request s).1 = ⟨200, .json (.obj [("status", .str "ok")])⟩ := by
  unfold cancelRun
  -- The body that cannot be read is refused before the registry is asked.
  cases readBody cancelBody request with
  | error response => exact .inl rfl
  | ok key =>
      have hrefused := s.cancelRun_refused occasion.now key
      simp only [cancelKey]
      generalize s.cancelRun occasion.now key = outcome at hrefused ⊢
      rcases outcome with ⟨cancelled | cancelled, s'⟩
      · -- whether the run has ended or never was is only looked up
        have hsame : s' = s := hrefused rfl
        subst hsame
        left
        split <;> rfl
      · exact .inr rfl

theorem startRun_refused (occasion : Occasion) (request : Request) (s : Coordinator)
    (h : (startRun occasion request s).1.status ≠ 200 ∨
      (startRun occasion request s).1.TellsError) : (startRun occasion request s).2 = s := by
  rcases startRun_answer occasion request s with hs | ⟨registration, hanswer⟩
  · exact hs
  · rw [hanswer] at h
    simp [Response.TellsError, ChatTools.startResult, Json.member?, Json.members?,
      List.lookup_cons] at h

theorem cancelRun_refused (occasion : Occasion) (request : Request) (s : Coordinator)
    (h : (cancelRun occasion request s).1.status ≠ 200 ∨
      (cancelRun occasion request s).1.TellsError) : (cancelRun occasion request s).2 = s := by
  rcases cancelRun_answer occasion request s with hs | hanswer
  · exact hs
  · rw [hanswer] at h
    simp [Response.TellsError, Json.member?, Json.members?, List.lookup_cons] at h

/-- A body that a toolbox answers with an error does no more than a call that fails. -/
theorem callToolbox_refused (box : Rpc.Toolbox Coordinator) (request : Request) (s : Coordinator)
    (hcall : ∀ tool arguments e, (box.call tool arguments s).1 = .error e →
      s.Unaffected (box.call tool arguments s).2)
    (h : (callToolbox box request s).1.TellsError) :
    s.Unaffected (callToolbox box request s).2 := by
  have hrefused := box.handleText_refused s s.Unaffected (.of_eq rfl) hcall request.body
  unfold callToolbox at h ⊢
  generalize box.handleText request.body s = outcome at hrefused h ⊢
  rcases outcome with ⟨_ | response, s'⟩
  · simp [Response.TellsError, bare] at h
  · refine hrefused response rfl ?_
    rcases h with ⟨hstatus, -⟩ | ⟨j, hj, herror⟩
    -- The status of an answer with a body is always that of a success.
    · exact absurd rfl hstatus
    · rw [← Body.json.inj hj, Rpc.Response.json_error, Option.isSome_map] at herror
      exact herror

/-- A handler that does nothing when it answers in some way does nothing behind the method
    either. -/
theorem posted_refused {request : Request} {s : Coordinator}
    {handler : Request → Coordinator → Response × Coordinator} (Tells : Response → Prop)
    (Kept : Coordinator → Prop) (hstays : Kept s)
    (h : Tells (handler request s).1 → Kept (handler request s).2)
    (htells : Tells (posted request s handler).1) : Kept (posted request s handler).2 := by
  unfold posted at htells ⊢
  by_cases hmethod : request.method = "POST"
  · rw [if_pos hmethod] at htells ⊢
    exact h htells
  · rw [if_neg hmethod]
    exact hstays

/-- A request for a run to be started or cancelled that is not answered with 200 does nothing. -/
theorem handle_run_refused (occasion : Occasion) (request : Request) (s : Coordinator)
    (hpath : request.path = "/chat/start" ∨ request.path = "/chat/cancel")
    (h : (handle occasion request s).1.status ≠ 200) : (handle occasion request s).2 = s := by
  rcases hpath with hpath | hpath
  · simp only [handle, hpath] at h ⊢
    exact posted_refused (·.status ≠ 200) (· = s) rfl
      (fun ht => startRun_refused occasion request s (.inl ht)) h
  · simp only [handle, hpath] at h ⊢
    exact posted_refused (·.status ≠ 200) (· = s) rfl
      (fun ht => cancelRun_refused occasion request s (.inl ht)) h

/-- A request to the tools that look at runs does nothing. -/
theorem handle_runs (occasion : Occasion) (request : Request) (s : Coordinator)
    (hpath : request.path = "/mcp/runs") : (handle occasion request s).2 = s := by
  have hbody := RunTools.handleText_state request.body s
  have hhandle : handle occasion request s = posted request s (callToolbox RunTools.toolbox) := by
    simp only [handle, hpath]
    rfl
  rw [hhandle]
  refine posted_refused (fun _ => True) (· = s) rfl (fun _ => ?_) trivial
  unfold callToolbox
  generalize RunTools.toolbox.handleText request.body s = outcome at hbody ⊢
  rcases outcome with ⟨_ | response, s'⟩ <;> exact hbody

/-- A request that is answered with an error does nothing, whatever it asks for. -/
theorem handle_refused (occasion : Occasion) (request : Request) (s : Coordinator)
    (h : (handle occasion request s).1.TellsError) :
    s.Unaffected (handle occasion request s).2 := by
  by_cases hstart : request.path = "/chat/start"
  · simp only [handle, hstart] at h ⊢
    exact posted_refused _ s.Unaffected (.of_eq rfl)
      (fun ht => .of_eq (startRun_refused occasion request s (.inr ht))) h
  by_cases hcancel : request.path = "/chat/cancel"
  · simp only [handle, hcancel] at h ⊢
    exact posted_refused _ s.Unaffected (.of_eq rfl)
      (fun ht => .of_eq (cancelRun_refused occasion request s (.inr ht))) h
  by_cases hchat : request.path = "/mcp/chat"
  · simp only [handle, hchat] at h ⊢
    exact posted_refused _ s.Unaffected (.of_eq rfl)
      (callToolbox_refused (ChatTools.toolbox occasion) request s fun tool arguments =>
        ChatTools.call_spares s occasion tool arguments) h
  by_cases hruns : request.path = "/mcp/runs"
  · exact .of_eq (handle_runs occasion request s hruns)
  -- Nothing else that can be asked for reaches the state.
  · refine .of_eq ?_
    simp only [handle, hstart, hcancel, hchat, hruns, if_false]
    repeat' split
    all_goals rfl

end Http

/-! ### All of this -/

/-- In any state, nothing is done by the tools that look at runs, by a text or a request that is
    answered with an error, by a body that is answered with an error of JSON-RPC, and by finding a
    run that was to be started. -/
theorem Coordinator.refusals_unaffecting (s : Coordinator) :
    (∀ occasion request, request.path = "/mcp/runs" →
      (Http.handle occasion request s).2 = s) ∧
    (∀ body, (RunTools.toolbox.handleBody body s).2 = s) ∧
    (∀ id now text code message,
      (Connection.answer id now text s).1.body = .error code message →
      s.Unaffected (Connection.answer id now text s).2) ∧
    (∀ occasion request, request.path = "/chat/start" ∨ request.path = "/chat/cancel" →
      (Http.handle occasion request s).1.status ≠ 200 →
      s.Unaffected (Http.handle occasion request s).2) ∧
    (∀ occasion request, (Http.handle occasion request s).1.TellsError →
      s.Unaffected (Http.handle occasion request s).2) ∧
    (∀ occasion body r, ((ChatTools.toolbox occasion).handleBody body s).1 = some r →
      r.error.isSome = true → s.Unaffected ((ChatTools.toolbox occasion).handleBody body s).2) ∧
    ∀ occasion conversation run prompt snapshot,
      (s.startRun occasion conversation run prompt).1 = .ok (.existing snapshot) →
      (s.startRun occasion conversation run prompt).2 = s :=
  ⟨fun occasion request => Http.handle_runs occasion request s,
    fun body => RunTools.handleText_state (Json.ofBytes body) s,
    fun id now text code message h =>
      .of_eq (Connection.answer_refused id now text s code message h),
    fun occasion request hpath h => .of_eq (Http.handle_run_refused occasion request s hpath h),
    fun occasion request => Http.handle_refused occasion request s,
    fun occasion body r => (ChatTools.toolbox occasion).handleText_refused s s.Unaffected
      (.of_eq rfl) (ChatTools.call_spares s occasion) (Json.ofBytes body) r,
    fun occasion conversation run prompt _ h =>
      s.startRun_idle occasion conversation run prompt (by simp [h])⟩

end Switchboard

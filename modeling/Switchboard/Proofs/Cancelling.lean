import Switchboard.Proofs.Holds
import Switchboard.Proofs.Json.Printed
import Switchboard.Proofs.Readers
import Switchboard.Proofs.Surfaces

/-!
# Cancelling from Every Surface

A run can be cancelled by a posted request, by a call of a tool and by a text
on a connection. Each of them names the run by the same two ids. The request
takes them as they are. The other two trim them and refuse blank ones, and so
do the tools through which conversations are made and runs are started; only
the request that starts a run does not. A run that was started by it under an
id with blanks at its ends is therefore out of reach for the tool and for
connections: they look for a run under the trimmed id, and there is none.

Any id can be given to a run in this way, and any run can be named from every
surface. So what is said of attempts that name a run is said of something.

## Main definitions

* `Coordinator.Attempt`: A way to ask for a run to be cancelled.
* `Coordinator.Attempt.Carries`: The attempt names a run.
* `Coordinator.Attempt.Succeeds`, `Coordinator.Attempt.after`: What comes of an attempt.
* `Coordinator.startedUnder`, `Coordinator.attempts`: How a run is started under an id, and asked
  to be cancelled.

## Theorems

* `Coordinator.posted_cancels`, `Coordinator.called_cancels_iff`,
  `Coordinator.written_cancels_iff`: What comes of an attempt from each surface.
* `Coordinator.startedUnder_registered`: Any id can be given to a run.
* `Coordinator.attempts_carry`: Any run can be named from every surface.
* `Coordinator.cancelled_from_every_surface_iff`: Which attempts succeed.
* `Coordinator.padded_run_out_of_reach`: A run that only one surface can cancel.
-/

namespace Switchboard

namespace Coordinator

/-! ### Cancelling by the ids as they are and trimmed -/

theorem cancelRun_registered (s : Coordinator) (now : Timestamp) (key : RunKey)
    (hr : s.IsRegistered key) :
    (s.cancelRun now key).1 = true ∧ ¬(s.cancelRun now key).2.IsRegistered key := by
  rcases Option.isSome_iff_exists.mp hr with ⟨run, hrun⟩
  rw [cancelRun_eq s now key run hrun]
  refine ⟨rfl, ?_⟩
  rw [not_isRegistered_iff, cancelled, Registry.get?_without, if_pos rfl]

/-- No other run is registered on the conversation, so a name that differs names none. -/
theorem cancelRun_renamed {s : Coordinator} (h : s.Coherent) (now : Timestamp) (key : RunKey)
    (hr : s.IsRegistered key) (run : String) (hne : run ≠ key.run) :
    s.cancelRun now ⟨key.conversation, run⟩ = (false, s) := by
  refine s.cancelRun_absent now _ ((s.not_isRegistered_iff _).mp fun hother => hne ?_)
  exact congrArg RunKey.run (h.registered_unique ⟨key.conversation, run⟩ key hother hr rfl)

/-! ### Attempts -/

/-- A way to ask for a run to be cancelled. -/
inductive Attempt where
  /-- A request that is posted to the path for cancelling. -/
  | posted (occasion : Occasion) (r : Http.Request)
  /-- A call of the tool for cancelling, answered under an id. -/
  | called (occasion : Occasion) (r : Http.Request) (id : Json)
  /-- A text on a connection, answered under an id if there is one. -/
  | written (connection : Nat) (now : Timestamp) (text : String) (requestId : Option String)

/-- Whether an attempt names a run, by the two ids in the JSON that is sent. -/
def Attempt.Carries (key : RunKey) : Attempt → Prop
  | .posted _ r => r.method = "POST" ∧ r.path = "/chat/cancel" ∧
      r.contentType.any MediaType.isJson = true ∧
      ∃ members, Json.parse? r.body = some (.obj members) ∧ (Json.obj members).Names key
  | .called _ r id => r.method = "POST" ∧ r.path = "/mcp/chat" ∧
      ∃ j arguments, Json.parse? r.body = some j ∧ Rpc.IsCall j id "chat_cancel" arguments ∧
        (Json.obj arguments).Names key ∧ (Json.obj arguments).member? "inflight_id" = none
  | .written _ _ text requestId =>
      ∃ j, Json.parse? text.toList = some j ∧ j.onlyText? "type" = some "cancel_inflight" ∧
        j.Names key ∧ ClientMessage.requestIdOf (j.canonical.members?.getD []) = .ok requestId ∧
        ClientMessage.checkVersion (j.canonical.members?.getD []) = .ok ()

/-- Whether an attempt is read with its ids as they are. -/
def Attempt.IsVerbatim : Attempt → Prop
  | .posted .. => True
  | _ => False

/-- The state after an attempt. -/
def Attempt.after (s : Coordinator) : Attempt → Coordinator
  | .posted occasion r | .called occasion r _ => (Http.handle occasion r s).2
  | .written connection now text _ => (Connection.answer connection now text s).2

/-- What the tool for cancelling tells. -/
def cancelResult (ok : Bool) : Json :=
  .obj [("finalizedNow", .bool ok), ("ok", .bool ok)]

/-- Whether success is reported to who made the attempt. -/
def Attempt.Succeeds (s : Coordinator) : Attempt → Prop
  | .posted occasion r =>
    (Http.handle occasion r s).1 = ⟨200, .json (.obj [("status", .str "ok")])⟩
  | .called occasion r id => (Http.handle occasion r s).1 =
      ⟨200, .json (Rpc.Response.success id (Rpc.Toolbox.resultOf (cancelResult true))).json⟩
  | .written connection now text requestId =>
    (Connection.answer connection now text s).1 = .ack requestId

section

variable {s : Coordinator} {key : RunKey} (hr : s.IsRegistered key)

include hr

theorem posted_cancels (occasion : Occasion) (r : Http.Request)
    (h : (Attempt.posted occasion r).Carries key) :
    (Attempt.posted occasion r).Succeeds s ∧
      ¬((Attempt.posted occasion r).after s).IsRegistered key := by
  rcases h with ⟨hmethod, hpath, hjson, members, hparse, hnames⟩
  have hhandle : Http.handle occasion r s = Http.cancelKey occasion key s := by
    simp only [Http.handle, hpath, Http.posted, hmethod, Http.cancelRun,
      Http.cancelBody_names r key members hjson hparse hnames]
    rfl
  rcases s.cancelRun_registered occasion.now key hr with ⟨hok, hgone⟩
  simp only [Attempt.Succeeds, Attempt.after, hhandle, Http.cancelKey, hok, Bool.true_or, if_true]
  exact ⟨trivial, hgone⟩

variable (hs : s.Coherent) (htidy : Text.IsTidy key.conversation)

include hs htidy

/-- A call of the tool and a text on a connection reach the run only by its own name. -/
theorem called_cancels_iff (occasion : Occasion) (r : Http.Request) (id : Json)
    (h : (Attempt.called occasion r id).Carries key) :
    (Text.IsTidy key.run → (Attempt.called occasion r id).Succeeds s ∧
      ¬((Attempt.called occasion r id).after s).IsRegistered key) ∧
    (¬Text.IsTidy key.run → ¬(Attempt.called occasion r id).Succeeds s ∧
      (Attempt.called occasion r id).after s = s) := by
  rcases h with ⟨hmethod, hpath, j, arguments, hparse, hcall, hnames, hother⟩
  -- The arguments as the toolbox sees them.
  let args : Arguments := ⟨Json.sortMembers (Json.canonicalMembers arguments)⟩
  have hkey := ChatTools.keyOf_names args key
    (Json.lookup_canonical_text hnames.1) (Json.lookup_canonical_text hnames.2)
    (Json.absent_canonical hother) htidy
  have hhandle : Http.handle occasion r s =
      (⟨200, .json (Rpc.answerOf id
        ((ChatTools.cancel occasion args s).1.map Json.canonical)).json⟩,
        (ChatTools.cancel occasion args s).2) :=
    Http.handle_call occasion r s j id "chat_cancel" arguments hmethod hpath hparse hcall
      (by decide)
  -- The members of the result stand in the order in which they are printed.
  have hcanonical : ∀ ok, (Json.obj [("finalizedNow", .bool ok), ("ok", .bool ok)]).canonical =
      cancelResult ok := fun ok => by
    have horder : ¬"ok" < "finalizedNow" := by decide
    simp only [cancelResult, Json.canonical, Json.canonicalMembers, Json.sortMembers,
      Json.insertMember, List.foldl_cons, List.foldl_nil, String.reduceEq, horder, if_false]
  simp only [Attempt.Succeeds, Attempt.after, hhandle, ChatTools.cancel, ChatTools.withArguments,
    hkey]
  constructor
  -- The id is tidy, so that trimming it leaves it as it is.
  · intro hrun
    rw [hrun.1, hrun.2]
    rcases s.cancelRun_registered occasion.now key hr with ⟨hok, hgone⟩
    simp only [Bool.false_eq_true, if_false, hok, Except.map, hcanonical]
    exact ⟨rfl, hgone⟩
  · intro hrun
    by_cases hblank : Text.allBlank key.run = true
    · -- a blank id is refused before any run is looked for
      simp only [hblank, if_true]
      refine ⟨fun h => ?_, trivial⟩
      injection h with _ hbody
      exact Rpc.Response.failure_json_ne _ _ _ (Http.Body.json.inj hbody)
    · -- the trimmed id is not the one that the conversation's only run is registered under
      have hne : Text.trim key.run ≠ key.run := fun heq => hrun ⟨by simpa using hblank, heq⟩
      simp only [hblank, Bool.false_eq_true, if_false,
        cancelRun_renamed hs occasion.now key hr _ hne, Except.map, hcanonical]
      refine ⟨fun h => ?_, trivial⟩
      injection h with _ hbody
      have hresult := Rpc.Response.success_json_inj _ _ _ (Http.Body.json.inj hbody)
      simp [cancelResult] at hresult

theorem written_cancels_iff (connection : Nat) (now : Timestamp) (text : String)
    (requestId : Option String)
    (h : (Attempt.written connection now text requestId).Carries key) :
    (Text.IsTidy key.run → (Attempt.written connection now text requestId).Succeeds s ∧
      ¬((Attempt.written connection now text requestId).after s).IsRegistered key) ∧
    (¬Text.IsTidy key.run → ¬(Attempt.written connection now text requestId).Succeeds s ∧
      (Attempt.written connection now text requestId).after s = s) := by
  rcases h with ⟨j, hparse, hkind, hnames, hid, hversion⟩
  have hdecode := ClientMessage.decode_names text j requestId key hparse hkind hnames hid hversion
    htidy
  simp only [Attempt.Succeeds, Attempt.after, Connection.answer, hdecode]
  -- On a connection the id is trimmed in the same way.
  constructor
  · intro hrun
    rw [hrun.1, hrun.2]
    rcases s.cancelRun_registered now key hr with ⟨hok, hgone⟩
    rcases hcancel : s.cancelRun now key with ⟨ok, s'⟩
    rw [hcancel] at hok hgone
    cases hok
    simp only [Bool.false_eq_true, if_false, Connection.perform, hcancel]
    exact ⟨trivial, hgone⟩
  · intro hrun
    by_cases hblank : Text.allBlank key.run = true
    · simp only [hblank, if_true]
      refine ⟨fun h => ?_, trivial⟩
      injection h with _ _ _ hbody
      cases hbody
    · have hne : Text.trim key.run ≠ key.run := fun heq => hrun ⟨by simpa using hblank, heq⟩
      simp only [hblank, Bool.false_eq_true, if_false, Connection.perform,
        cancelRun_renamed hs now key hr _ hne]
      refine ⟨fun h => ?_, trivial⟩
      injection h with _ _ _ hbody
      cases hbody

end

/-! ### Every id and every surface -/

/-- A request that posts JSON to a path. -/
def posting (path : String) (j : Json) : Http.Request :=
  ⟨"POST", path, some "application/json", j.chars⟩

/-- The members that name a run. -/
def naming (key : RunKey) : List (String × Json) :=
  [("conversationId", .str key.conversation), ("inflightId", .str key.run)]

/-- A request to call a tool. -/
def calling (tool : String) (arguments : List (String × Json)) : Json :=
  .obj [("jsonrpc", .str "2.0"), ("id", .str "1"), ("method", .str "tools/call"),
    ("params", .obj [("name", .str tool), ("arguments", .obj arguments)])]

/-- A conversation is created by the tool for it. -/
def creating (conversation : String) : Event :=
  .request ⟨⟨0, 0⟩, "f"⟩ (by decide) (posting "/mcp/chat" (calling "conversation_create"
    [("conversationId", .str conversation), ("title", .str "t")]))

/-- The request that starts a run under an id. -/
def starting (key : RunKey) : Http.Request :=
  posting "/chat/start" (.obj (naming key ++ [("prompt", .str "p")]))

/-- A conversation is created, and a run is started on it by a request. -/
def startedUnder (key : RunKey) : List Event :=
  [creating key.conversation, .request ⟨⟨1, 0⟩, "f"⟩ (by decide) (starting key)]

/-- An attempt from every surface. -/
def attempts (key : RunKey) : List Attempt :=
  [.posted ⟨⟨2, 0⟩, "f"⟩ (posting "/chat/cancel" (.obj (naming key))),
    .called ⟨⟨2, 0⟩, "f"⟩ (posting "/mcp/chat" (calling "chat_cancel" (naming key))) (.str "1"),
    .written 0 ⟨2, 0⟩ (ClientMessage.encode ⟨some "r", .cancel key⟩) (some "r")]

theorem naming_names (key : RunKey) (others : List (String × Json))
    (hother : ∀ m ∈ others, m.1 ≠ "conversationId" ∧ m.1 ≠ "inflightId") :
    (Json.obj (naming key ++ others)).Names key := by
  have hrest : ∀ name, (∀ m ∈ others, m.1 ≠ name) →
      (others.filter fun m => m.1 = name) = [] := by
    intro name hname
    rw [List.filter_eq_nil_iff]
    intro m hm
    simpa using hname m hm
  have hconversation := hrest "conversationId" fun m hm => (hother m hm).1
  have hrun := hrest "inflightId" fun m hm => (hother m hm).2
  simp [Json.Names, Json.onlyText?, Json.only?, Json.members?, naming, hconversation,
    hrun, Json.string?]

/-- A call of a tool is a call of that tool when it is read. -/
theorem calling_call (tool : String) (arguments : List (String × Json)) :
    Rpc.IsCall (calling tool arguments) (.str "1") tool arguments where
  version := rfl
  answered := rfl
  isId := rfl
  method := rfl
  call := ⟨_, rfl, rfl, rfl⟩

/-- What a posted request is about does not depend on its body. -/
theorem posting_path (path : String) (j : Json)
    (h : (⟨"POST", path, none, []⟩ : Http.Request).path = path) : (posting path j).path = path := h

theorem posting_parse (path : String) (j : Json) (h : j.Survives Json.depthLimit) :
    Json.parse? (posting path j).body = some j :=
  j.parse?_chars h

/-- Any run can be named from every surface. -/
theorem attempts_carry (key : RunKey) : ∀ a ∈ attempts key, a.Carries key := by
  have hnames := naming_names key [] (by simp)
  rw [List.append_nil] at hnames
  simp only [attempts, List.forall_mem_cons]
  refine ⟨⟨rfl, posting_path _ _ (by decide), ?_, naming key, ?_, hnames⟩,
    ⟨rfl, posting_path _ _ (by decide), _, naming key, ?_, calling_call _ _, hnames, rfl⟩, ?_,
    by simp⟩
  -- The request that names the run in its body.
  · have hjson : MediaType.isJson "application/json" = true := by decide
    exact hjson
  -- The call of the tool for it.
  · exact posting_parse _ _ (by simp [naming, Json.Survives, Json.MembersSurvive, Json.depthLimit])
  · exact posting_parse _ _ (by
      simp [calling, naming, Json.Survives, Json.MembersSurvive, Json.depthLimit])
  · -- the text on a connection has its members in the order in which they are printed
    let members : List (String × Json) :=
      naming key ++ [("protocolVersion", .ofNat 1), ("requestId", .str "r"),
        ("type", .str "cancel_inflight")]
    have hparse : Json.parse? (ClientMessage.encode ⟨some "r", .cancel key⟩).toList =
        some (.obj members) := by
      have hjson : ClientMessage.json ⟨some "r", .cancel key⟩ = .obj members := rfl
      rw [ClientMessage.encode, Json.text, String.toList_ofList, hjson]
      refine Json.parse?_chars _ ?_
      simp [members, naming, Json.Survives, Json.MembersSurvive, Json.depthLimit, Json.ofNat,
        Json.Number.ofNat, Json.Number.whole_survives]
    have hid : (Json.sortMembers (Json.canonicalMembers members)).lookup "requestId" =
        some (.str "r") := Json.lookup_canonical_text rfl
    have hversion : (Json.sortMembers (Json.canonicalMembers members)).lookup "protocolVersion" =
        some (.num (.ofNat 1)) := by
      have honly : (Json.obj members).only? "protocolVersion" = some (.num (.ofNat 1)) := rfl
      simpa only [Json.canonical] using Json.lookup_canonical honly
    refine ⟨.obj members, hparse, rfl, naming_names key _ (by simp), ?_, ?_⟩
    · simp only [Json.canonical, Json.members?, Option.getD_some, ClientMessage.requestIdOf, hid]
    · simp only [Json.canonical, Json.members?, Option.getD_some, ClientMessage.checkVersion,
        hversion]
      rfl

/-- The tool for making a conversation makes it under the id that it is given. -/
theorem create_named (occasion : Occasion) (s : Coordinator) (id : String)
    (htidy : Text.IsTidy id) :
    (ChatTools.call occasion "conversation_create"
      (Json.obj [("conversationId", .str id), ("title", .str "t")]).canonical s).2 =
      (s.createConversation occasion (some id) "t").2 := by
  let arguments : List (String × Json) := [("conversationId", .str id), ("title", .str "t")]
  let args : Arguments := ⟨Json.sortMembers (Json.canonicalMembers arguments)⟩
  have hid : args.get? "conversationId" = some (.str id) := Json.lookup_canonical_text rfl
  have htitle : args.get? "title" = some (.str "t") := Json.lookup_canonical_text rfl
  have hcall : ChatTools.call occasion "conversation_create" (Json.obj arguments).canonical s =
      ChatTools.create occasion args s := rfl
  rw [hcall]
  simp only [ChatTools.create, ChatTools.text?_str args _ _ htitle, Arguments.firstText?,
    ChatTools.text?_str args _ _ hid, htidy.1, htidy.2, bind, Except.bind]
  rfl

theorem serve_creating (s : Coordinator) (conversation : String)
    (htidy : Text.IsTidy conversation) :
    s.serve (creating conversation) =
      (s.createConversation ⟨⟨0, 0⟩, "f"⟩ (some conversation) "t").2 := by
  rw [creating, serve, Http.handle_call _ _ s _ (.str "1") "conversation_create" _ rfl
    (posting_path _ _ (by decide)) (posting_parse _ _ (by
      simp [calling, Json.Survives, Json.MembersSurvive, Json.depthLimit]))
    (calling_call _ _) (by decide)]
  exact create_named _ s conversation htidy

/-- The request for starting a run starts it under the ids as they are, tidy or not. -/
theorem handle_starting (s : Coordinator) (key : RunKey) :
    Http.handle ⟨⟨1, 0⟩, "f"⟩ (starting key) s =
      (Http.startResponse (s.startRun ⟨⟨1, 0⟩, "f"⟩ key.conversation (some key.run) "p").1,
        s.perform (.start ⟨⟨1, 0⟩, "f"⟩ key.conversation (some key.run) "p")) := by
  have hbody : Http.readBody Http.StartBody.read (starting key) =
      .ok ⟨key.conversation, some key.run, "p"⟩ := by
    have hjson : MediaType.isJson "application/json" = true := by decide
    refine Http.startBody_names _ key "p" _ hjson (posting_parse _ _ ?_)
      (naming_names key _ (by simp)) rfl
    simp [naming, Json.Survives, Json.MembersSurvive, Json.depthLimit]
  have hpath : (starting key).path = "/chat/start" := posting_path _ _ (by decide)
  have hmethod : (starting key).method = "POST" := rfl
  simp only [Http.handle, hpath, Http.posted, hmethod, Http.startRun, hbody]
  rfl

/-- Any id can be given to a run. The answer to the start tells the two ids as they are. -/
theorem startedUnder_registered (config : ServerConfig) (provider : Provider) (key : RunKey)
    (htidy : Text.IsTidy key.conversation) :
    (∃ j, (Http.handle ⟨⟨1, 0⟩, "f"⟩ (starting key)
        ((ofConfig config (some provider)).serve (creating key.conversation))).1 =
          ⟨200, .json j⟩ ∧ j.Names key) ∧
      ((ofConfig config (some provider)).serveAll (startedUnder key)).IsRegistered key := by
  let s := ofConfig config (some provider)
  let s' := (s.createConversation ⟨⟨0, 0⟩, "f"⟩ (some key.conversation) "t").2
  have hcreate : s.serve (creating key.conversation) = s' := s.serve_creating _ htidy
  -- The conversation is there, and nothing is registered or held yet.
  have hlisted : ∃ c, s'.directory.get? key.conversation = some c ∧ c.archived = false := by
    let c := Conversation.fresh key.conversation "t" ⟨0, 0⟩
    have hdirectory : s'.directory = s.directory.upsert ⟨0, 0⟩ c := rfl
    rw [hdirectory, Directory.upsert_get?, if_pos (show key.conversation = c.id from rfl)]
    exact ⟨_, rfl, rfl⟩
  rcases hlisted with ⟨c, hc, harchived⟩
  rcases s'.startRun_free ⟨⟨1, 0⟩, "f"⟩ key.conversation (some key.run) "p" provider c rfl hc
    harchived Bool.false_ne_true rfl with ⟨snapshot, hcreated, hkey⟩
  constructor
  · refine ⟨ChatTools.startResult (.created snapshot), ?_, ?_⟩
    · rw [hcreate, handle_starting, hcreated]
      rfl
    · rw [ChatTools.startResult, Registration.snapshot, hkey]
      exact ⟨rfl, rfl⟩
  · have hserve : s.serveAll (startedUnder key) =
        s'.perform (.start ⟨⟨1, 0⟩, "f"⟩ key.conversation (some key.run) "p") := by
      simp only [startedUnder, serveAll, List.foldl_cons, List.foldl_nil]
      rw [hcreate, serve, handle_starting]
    rw [hserve]
    refine ((s'.createdBy?_iff _ key).mp ?_).2
    simp only [createdBy?, hcreated, hkey]
    rfl

/-! ### Which attempts succeed -/

/-- After every course of events, of a run that is registered: an attempt that names it takes it
    out and reports success if the attempt is read with its ids as they are or the id of the run is
    tidy, and is refused and changes nothing otherwise. There is an attempt that names it from
    every surface. An id that is not tidy was given to the run by the request that started it. -/
theorem cancelled_from_every_surface_iff (config : ServerConfig) (provider : Option Provider)
    (events : List Event) (key : RunKey)
    (hr : ((ofConfig config provider).serveAll events).IsRegistered key) :
    let s := (ofConfig config provider).serveAll events
    (∀ a : Attempt, a.Carries key →
      (a.IsVerbatim ∨ Text.IsTidy key.run → a.Succeeds s ∧ ¬(a.after s).IsRegistered key) ∧
      (¬(a.IsVerbatim ∨ Text.IsTidy key.run) → ¬a.Succeeds s ∧ a.after s = s)) ∧
    (∀ a ∈ attempts key, a.Carries key) ∧
    (Text.IsTidy key.run ∨ ∃ e ∈ events, e.Starts key) := by
  intro s
  have hs : s.Coherent := coherent_serveAll config provider events
  have htidy : Text.IsTidy key.conversation :=
    (allTidy_serveAll config provider events).conversation hs key hr
  -- The run is named as it was given only where it is not trimmed.
  refine ⟨?_, attempts_carry key, ?_⟩
  · intro a ha
    cases a with
    | posted occasion r =>
        exact ⟨fun _ => posted_cancels hr occasion r ha, fun h => absurd (Or.inl trivial) h⟩
    | called occasion r id =>
        have h := called_cancels_iff hr hs htidy occasion r id ha
        exact ⟨fun hrun => h.1 (hrun.resolve_left False.elim),
          fun hrun => h.2 fun ht => hrun (Or.inr ht)⟩
    | written connection now text requestId =>
        have h := written_cancels_iff hr hs htidy connection now text requestId ha
        exact ⟨fun hrun => h.1 (hrun.resolve_left False.elim),
          fun hrun => h.2 fun ht => hrun (Or.inr ht)⟩
  · -- nothing is registered at the start
    rcases (ofConfig config provider).registered_origin events key hr with hstart | horigin
    · cases hstart
    · exact horigin

/-- A provider that never answers. -/
def silent : Provider :=
  ⟨"silent", fun _ => ⟨[.stall], .ok ""⟩⟩

/-- A run with a blank inside its id is cancelled from every surface. -/
theorem spaced_run_cancelled :
    let key : RunKey := ⟨"c", "a b"⟩
    let s := (ofConfig .standard (some silent)).serveAll (startedUnder key)
    s.IsRegistered key ∧ ∀ a ∈ attempts key,
      a.Carries key ∧ a.Succeeds s ∧ ¬(a.after s).IsRegistered key := by
  intro key s
  have hr : s.IsRegistered key := (startedUnder_registered _ _ key (by decide)).2
  refine ⟨hr, fun a ha => ?_⟩
  have hcarries := attempts_carry key a ha
  have h := (cancelled_from_every_surface_iff .standard (some silent) (startedUnder key) key hr).1 a
    hcarries
  exact ⟨hcarries, h.1 (Or.inr (by decide))⟩

/-- A run with blanks at the ends of its id is registered under the two ids that the answer to
    its start told, but a call of the tool and a text on a connection that carry these ids are
    refused and leave it where it is. -/
theorem padded_run_out_of_reach :
    let key : RunKey := ⟨"c", " i "⟩
    let s := (ofConfig .standard (some silent)).serveAll (startedUnder key)
    (∃ j, (Http.handle ⟨⟨1, 0⟩, "f"⟩ (starting key)
        ((ofConfig .standard (some silent)).serve (creating "c"))).1 = ⟨200, .json j⟩ ∧
          j.Names key) ∧
      s.IsRegistered key ∧ ∀ a ∈ attempts key, a.Carries key ∧
        (¬a.IsVerbatim → ¬a.Succeeds s ∧ (a.after s).IsRegistered key) := by
  intro key s
  rcases startedUnder_registered .standard silent key (by decide) with ⟨hanswer, hr⟩
  refine ⟨hanswer, hr, fun a ha => ⟨attempts_carry key a ha, fun hverbatim => ?_⟩⟩
  -- Trimming makes another id of this one, on all surfaces but one.
  have hs : s.Coherent := coherent_serveAll ..
  have hcarries := attempts_carry key a ha
  have hpadded : ¬Text.IsTidy key.run := by decide
  cases a with
  | posted occasion r => exact absurd trivial hverbatim
  | called occasion r id =>
      have h := (called_cancels_iff hr hs (by decide) occasion r id hcarries).2 hpadded
      rw [h.2]
      exact ⟨h.1, hr⟩
  | written connection now text requestId =>
      have h := (written_cancels_iff hr hs (by decide) connection now text requestId hcarries).2
        hpadded
      rw [h.2]
      exact ⟨h.1, hr⟩

end Coordinator

end Switchboard

import Switchboard.Connection
import Switchboard.Proofs.Json.Fields
import Switchboard.Proofs.Messages
import Switchboard.Server.Http

/-!
# Readers of the Same Ids

A run is named by two ids, and they are read in three ways. The body of a
request gives them as they are. The arguments of a tool and the text on a
connection give them without the blanks at their ends, and do not give a blank
one at all.

What the three are given is said without any of them: in the JSON that is sent
each of the two ids is a member that occurs once.

## Main definitions

* `Json.Names`: An object that names a run.
* `Rpc.IsCall`: A JSON value that is a request to call a tool.
* `Rpc.answerOf`: The answer to a call.

## Theorems

* `Http.cancelBody_names`, `Http.startBody_names`: The bodies give the ids as they are.
* `ClientMessage.decode_names`, `ChatTools.keyOf_names`: The other two trim them.
* `Rpc.Toolbox.handleText_call`, `Http.handle_call`: A call of a tool is carried out and answered.
-/

namespace Switchboard

/-- Whether an object names a run: each of the two ids is a member that occurs once. -/
def Json.Names (j : Json) (key : RunKey) : Prop :=
  j.onlyText? "conversationId" = some key.conversation ∧
    j.onlyText? "inflightId" = some key.run

instance Json.decidableNames (j : Json) (key : RunKey) : Decidable (j.Names key) :=
  inferInstanceAs (Decidable (_ ∧ _))

/-! ### Three readers of the same ids -/

namespace Http

theorem readBody_ok {α : Type} {read : Json.Reads α} {request : Request} {a : α}
    (hjson : request.contentType.any MediaType.isJson = true)
    (h : Json.ofText read request.body = .ok a) : readBody read request = .ok a := by
  unfold readBody
  rw [if_pos hjson, h]

/-- The body that cancels a run is read with the ids as they are. -/
theorem cancelBody_names (request : Request) (key : RunKey) (members : List (String × Json))
    (hjson : request.contentType.any MediaType.isJson = true)
    (hparse : Json.parse? request.body = some (.obj members))
    (hnames : (Json.obj members).Names key) : readBody cancelBody request = .ok key := by
  refine readBody_ok hjson (Json.ofText_texts _ ?_
    (fun name => if name = "conversationId" then key.conversation else key.run) _ key
    -- The fields of the body are each given once, as texts, so the key is read off them.
    request.body members hparse ?_ ?_)
  · simp only [List.forall_mem_cons]
    exact ⟨Json.required_takesTexts _, Json.required_takesTexts _, by simp⟩
  · simp only [List.forall_mem_cons]
    exact ⟨hnames.1, hnames.2, by simp⟩
  · intro fs hmet
    simp only [List.forall_mem_cons] at hmet
    have hconversation := hmet.1.text
    have hrun := hmet.2.1.text
    simp only [Json.Field.required] at hconversation hrun
    simp only [hconversation, hrun, bind, Except.bind]
    rfl

/-- The body that starts a run is read with the ids as they are. -/
theorem startBody_names (request : Request) (key : RunKey) (prompt : String)
    (members : List (String × Json))
    (hjson : request.contentType.any MediaType.isJson = true)
    (hparse : Json.parse? request.body = some (.obj members))
    (hnames : (Json.obj members).Names key)
    (hprompt : (Json.obj members).onlyText? "prompt" = some prompt) :
    readBody StartBody.read request = .ok ⟨key.conversation, some key.run, prompt⟩ := by
  refine readBody_ok hjson (Json.ofText_texts _ ?_
    (fun name => if name = "conversationId" then key.conversation
      else if name = "inflightId" then key.run else prompt) _ _
    request.body members hparse ?_ ?_)
  -- Besides the two of the key the body has a prompt, which is taken as it stands.
  · simp only [StartBody.fields, List.forall_mem_cons]
    exact ⟨Json.required_takesTexts _, Json.optionally_takesTexts _, Json.required_takesTexts _,
      by simp⟩
  · simp only [StartBody.fields, List.forall_mem_cons]
    exact ⟨hnames.1, hnames.2, hprompt, by simp⟩
  · intro fs hmet
    simp only [StartBody.fields, List.forall_mem_cons] at hmet
    have hconversation := hmet.1.text
    have hrun := hmet.2.1.text?
    have hprompt := hmet.2.2.1.text
    simp only [Json.Field.required, Json.Field.optionally] at hconversation hrun hprompt
    simp only [hconversation, hrun, hprompt, bind, Except.bind]
    rfl

end Http

namespace ClientMessage

/-- A text is read with the ids trimmed, and a blank id is none. -/
theorem decode_names (text : String) (j : Json) (requestId : Option String) (key : RunKey)
    (hparse : Json.parse? text.toList = some j)
    (hkind : j.onlyText? "type" = some "cancel_inflight") (hnames : j.Names key)
    (hid : requestIdOf (j.canonical.members?.getD []) = .ok requestId)
    (hversion : checkVersion (j.canonical.members?.getD []) = .ok ())
    (htidy : Text.IsTidy key.conversation) :
    decode text =
      if Text.allBlank key.run then .error (.invalid requestId (.noField "inflightId"))
      else .ok ⟨requestId, .cancel ⟨key.conversation, Text.trim key.run⟩⟩ := by
  have hread : Json.read? text = some j.canonical := by
    rw [Json.read?, hparse, Option.map_some]
  -- The message is read from sorted members, in which each single text is found again.
  rcases Json.only?_eq_some (Json.onlyText?_eq_some hkind) with ⟨members, rfl, -⟩
  simp only [Json.canonical, Json.members?, Option.getD_some] at hid hversion
  have hkind := Json.lookup_canonical_text hkind
  have hrun := idOf_text _ _ _ (Json.lookup_canonical_text hnames.2)
  have hconversation := idOf_text _ _ _ (Json.lookup_canonical_text hnames.1)
  rw [htidy.1, htidy.2, if_neg Bool.false_ne_true] at hconversation
  simp only [decode, hread, ofJson, Json.canonical, hid, requestOf, hversion, hkind, hconversation,
    hrun, bind, Except.bind]
  by_cases hblank : Text.allBlank key.run = true
  · simp [hblank]
  · simp [hblank]

end ClientMessage

namespace ChatTools

theorem text?_str (args : Arguments) (name s : String) (h : args.get? name = some (.str s)) :
    args.text? name = .ok (if Text.allBlank s then none else some (Text.trim s)) := by
  simp only [Arguments.text?, h]

/-- The arguments of a call are read with the ids trimmed, and a blank id is none. -/
theorem keyOf_names (args : Arguments) (key : RunKey)
    (hconversation : args.get? "conversationId" = some (.str key.conversation))
    (hrun : args.get? "inflightId" = some (.str key.run))
    (hother : args.get? "inflight_id" = none) (htidy : Text.IsTidy key.conversation) :
    keyOf args =
      if Text.allBlank key.run then
        .error (Arguments.complaint "inflightId" "inflightId is required")
      else .ok ⟨key.conversation, Text.trim key.run⟩ := by
  -- Of the two spellings of the run only the first is used, so nothing is read from the other.
  have hfirst : conversationOf args = .ok key.conversation := by
    rw [conversationOf, Arguments.requiredText_ok, Arguments.firstText?,
      text?_str args _ _ hconversation, htidy.1, htidy.2]
    rfl
  have hnone : args.text? "inflight_id" = .ok none := by
    simp only [Arguments.text?, hother]
  simp only [keyOf, hfirst, Arguments.requiredText, Arguments.firstText?, runNames,
    text?_str args _ _ hrun, hnone, bind, Except.bind]
  by_cases hblank : Text.allBlank key.run = true
  · simp only [hblank, if_true]
    rfl
  · simp only [hblank, Bool.false_eq_true, if_false]

end ChatTools

namespace Rpc

/-- Whether a JSON value is a request, with an id, to call a tool with some arguments. -/
structure IsCall (j id : Json) (tool : String) (arguments : List (String × Json)) : Prop where
  version : j.onlyText? "jsonrpc" = some jsonrpcVersion
  answered : j.only? "id" = some id
  isId : Request.isId id = true
  method : j.onlyText? "method" = some "tools/call"
  call : ∃ params, j.only? "params" = some params ∧ params.onlyText? "name" = some tool ∧
    params.only? "arguments" = some (.obj arguments)

/-- The answer to a call. -/
def answerOf (id : Json) : Except ToolError Json → Response
  | .ok value => .success id (Toolbox.resultOf value)
  | .error e => .failure id e.error

theorem Response.failure_json_ne (id value : Json) (e : Error) :
    (Response.failure id e).json ≠ (Response.success id value).json := by
  intro h
  have herror := congrArg (fun j => (j.member? "error").isSome) h
  exact absurd herror (by simp [Response.json, Response.failure, Response.success, Json.record,
    Json.field, Json.field?, Json.member?, Json.members?, List.lookup_cons, List.lookup_nil])

theorem Response.success_json_inj (id value value' : Json)
    (h : (Response.success id (Toolbox.resultOf value)).json =
      (Response.success id (Toolbox.resultOf value')).json) : value = value' := by
  have hresult := congrArg (fun j => (j.member? "result").bind (·.member? "structuredContent")) h
  simpa [Response.json, Response.success, Json.record, Json.field, Json.field?, Json.member?,
    Json.members?, List.lookup_cons, List.lookup_nil, Toolbox.resultOf] using hresult

/-- A call is carried out with the canonical form of its arguments. -/
theorem Toolbox.handleText_call {σ : Type} (box : Toolbox σ) (body : List Char) (s : σ)
    (j id : Json) (tool : String) (arguments : List (String × Json))
    (hparse : Json.parse? body = some j) (hcall : IsCall j id tool arguments)
    (htool : Text.allBlank tool = false) :
    box.handleText body s =
      (some (answerOf id (box.call tool (Json.obj arguments).canonical s).1),
        (box.call tool (Json.obj arguments).canonical s).2) := by
  rcases Json.only?_eq_some hcall.answered with ⟨members, rfl, -⟩
  rcases hcall.call with ⟨params, hparams, hname, harguments⟩
  have hversion := Json.lookup_canonical_text hcall.version
  have hid := Json.lookup_canonical hcall.answered
  have hmethod := Json.lookup_canonical_text hcall.method
  have hparams := Json.lookup_canonical hparams
  have hid' : id.canonical = id := by
    have hisId := hcall.isId
    cases id with
    | null | bool | num | str => rfl
    | arr | obj => cases hisId
  -- The envelope.
  have hrequest : Request.ofJson (Json.obj members).canonical =
      .ok ⟨some id, "tools/call", params.canonical⟩ := by
    simp only [Json.canonical, Request.ofJson, hid, hid', hcall.isId, if_true, Request.ofMembers,
      hversion, hmethod, hparams, Option.getD_some, jsonrpcVersion]
    rfl
  -- The parameters.
  rcases Json.only?_eq_some harguments with ⟨named, rfl, -⟩
  have hname := Json.lookup_canonical_text hname
  have harguments := Json.lookup_canonical harguments
  have hread : callParams (Json.obj named).canonical =
      .ok (tool, (Json.obj arguments).canonical) := by
    simp only [Json.canonical] at harguments hname ⊢
    simp only [callParams, hname, harguments, htool, Bool.false_eq_true, if_false]
  unfold handleText
  simp only [hparse, hrequest, handle, Option.map_some]
  have hperform : box.perform "tools/call" (Json.obj named).canonical s =
      box.callTool (Json.obj named).canonical s := rfl
  rw [hperform]
  simp only [callTool, hread]
  generalize box.call tool (Json.obj arguments).canonical s = outcome
  rcases outcome with ⟨e | value, s'⟩ <;> rfl

end Rpc

/-- A call that is posted to the chat tools is carried out and answered. -/
theorem Http.handle_call (occasion : Occasion) (request : Http.Request) (s : Coordinator)
    (j id : Json) (tool : String) (arguments : List (String × Json))
    (hmethod : request.method = "POST") (hpath : request.path = "/mcp/chat")
    (hparse : Json.parse? request.body = some j) (hcall : Rpc.IsCall j id tool arguments)
    (htool : Text.allBlank tool = false) :
    Http.handle occasion request s =
      (⟨200, .json (Rpc.answerOf id ((ChatTools.call occasion tool
          (Json.obj arguments).canonical s).1.map Json.canonical)).json⟩,
        (ChatTools.call occasion tool (Json.obj arguments).canonical s).2) := by
  have htext := (ChatTools.toolbox occasion).handleText_call request.body s j id tool
    arguments hparse hcall htool
  simp only [Http.handle, hpath, Http.posted, hmethod, Http.callToolbox, htext]
  rfl

end Switchboard

import Switchboard.Rpc.Dispatch

/-!
# Envelopes of JSON-RPC Bodies

What can be relied on for every body that is given to a toolbox, whatever the
toolbox is and whatever bytes the body consists of. A body is no JSON, or JSON
that breaks the rules of the envelope, or a request. Only a request reaches the
tools, and whether it is answered is a matter of its id alone: a request
without one is carried out like any other.

Which tools were called is not to be seen in an answer, and need not be seen in
the state. So the statements are about a toolbox that takes down the calls that
are made and does in all other respects what the given one does.

## Main definitions

* `Rpc.valueIn?`: The JSON value that a body holds.
* `Rpc.IsEnvelope`: A JSON value that keeps to the rules of the envelope.
* `Rpc.Asks`: A JSON value that asks for a tool to be called.
* `Rpc.replyId`: The id that an answer has to carry.
* `Rpc.Toolbox.logged`: A toolbox that takes down the calls that are made.
* `Rpc.Handling`, `Rpc.Toolbox.handling`: What comes of a body.
* `Rpc.Handling.Conforms`: The rules for what comes of a body.

## Theorems

* `Rpc.Request.ofJson_envelope`, `Rpc.Request.ofJson_refused`: What the checks let through.
* `Rpc.Toolbox.logged_handleBody`: Taking down the calls changes nothing else.
* `Rpc.Toolbox.handling_unread`, `Rpc.Toolbox.handling_refused`,
  `Rpc.Toolbox.handling_request`: What comes of each of the three kinds of body.
* `Rpc.Toolbox.callBy?_iff`: Which call a request makes.
* `Rpc.Toolbox.handling_conforms`, `Rpc.Toolbox.bodies_answered`: What this means for every body.
-/

namespace Switchboard

namespace Rpc

/-! ### Bodies -/

/-- The JSON value that a body holds, if it holds one. Of several members with one name the last
    one counts. -/
def valueIn? (body : ByteArray) : Option Json :=
  (Json.parse? (Json.ofBytes body)).map Json.canonical

/-- Whether a JSON value keeps to the rules of the envelope: the version is right, there is a
    method, and the id is a string, a number or null if it is there at all. -/
structure IsEnvelope (j : Json) : Prop where
  version : j.member? "jsonrpc" = some (.str "2.0")
  method : ∃ method, method ≠ "" ∧ j.member? "method" = some (.str method)
  id : ∀ id, j.member? "id" = some id → Request.isId id = true

/-- Whether a JSON value asks for a tool to be called with some arguments, which are an empty
    object if there are none. -/
structure Asks (j : Json) (tool : String) (arguments : Json) : Prop where
  method : j.member? "method" = some (.str "tools/call")
  name : (j.member? "params").bind (·.member? "name") = some (.str tool)
  named : Text.allBlank tool = false
  arguments :
    match (j.member? "params").bind (·.member? "arguments") with
    | none | some .null => arguments = .obj []
    | some given => (∃ members, given = .obj members) ∧ arguments = given

/-- The id that the answer to a body has to carry: the id of an object if it is a string, a number
    or null, and null in all other cases. -/
def replyId (value : Option Json) : Json :=
  match value.bind (·.member? "id") with
  | some id => if Request.isId id then id else .null
  | none => .null

/-- Whether two JSON values have the same members, the id left aside. -/
def SameButId (j j' : Json) : Prop :=
  ∀ name, name ≠ "id" → j.member? name = j'.member? name

namespace Request

/-- The method of a request. -/
def methodIn (j : Json) : String :=
  ((j.member? "method").bind Json.string?).getD ""

/-- The parameters of a request. -/
def paramsIn (j : Json) : Json :=
  (j.member? "params").getD .null

theorem member?_paramsIn (j : Json) (name : String) :
    (paramsIn j).member? name = (j.member? "params").bind (·.member? name) := by
  unfold paramsIn
  cases j.member? "params" <;> rfl

/-- What keeps to the rules of the envelope is a request. -/
theorem ofJson_envelope {j : Json} (h : IsEnvelope j) :
    ofJson j = .ok ⟨j.member? "id", methodIn j, paramsIn j⟩ := by
  rcases h.method with ⟨method, hne, hmethod⟩
  have hversion := h.version
  have hid := h.id
  have hin : methodIn j = method := by
    rw [methodIn, hmethod]
    rfl
  have hempty : method.isEmpty = false := by
    rw [Bool.eq_false_iff, ne_eq, String.isEmpty_iff]
    exact hne
  rw [hin, paramsIn]
  cases j with
  | obj members =>
      simp only [Json.member?, Json.members?, Option.bind_some] at hversion hmethod hid ⊢
      -- The checks that come after the one of the id do not look at it.
      have hmembers : ∀ id, ofMembers id members =
          .ok ⟨id, method, (members.lookup "params").getD .null⟩ := by
        intro id
        simp only [ofMembers, hversion, hmethod, hempty, jsonrpcVersion, if_true,
          Bool.false_eq_true, if_false]
      cases hlookup : members.lookup "id" with
      | none => simp only [ofJson, hlookup, hmembers]
      | some id => simp only [ofJson, hlookup, hid id hlookup, if_true, hmembers]
  | _ => cases hversion

/-- What breaks the rules of the envelope is refused, with the id as far as it can be told. -/
theorem ofJson_refused {j : Json} (h : ¬ IsEnvelope j) :
    ∃ message, ofJson j = .error (replyId (some j), complaint message) := by
  cases j with
  | obj members =>
      -- An id with which nothing is wrong is handed to the checks that are left, and the one that
      -- fails gives it back.
      have hmembers : ∀ id : Option Json, (∀ i, members.lookup "id" = some i → isId i = true) →
          ∃ message, ofMembers id members = .error (id.getD .null, complaint message) := by
        intro id hid
        unfold ofMembers
        split
        · next version hversion =>
            split
            · next heq =>
                split
                · next method hmethod =>
                    split
                    · exact ⟨_, rfl⟩
                    · next hne =>
                        -- All of the rules are kept after all.
                        refine absurd ⟨?_, ⟨method, ?_, hmethod⟩, hid⟩ h
                        · rw [Json.member?, Json.members?, Option.bind_some, hversion, heq]
                          rfl
                        · rintro rfl
                          exact hne rfl
                · exact ⟨_, rfl⟩
            · exact ⟨_, rfl⟩
        · exact ⟨_, rfl⟩
      unfold ofJson replyId
      simp only [Json.member?, Json.members?, Option.bind_some]
      cases hlookup : members.lookup "id" with
      | none =>
          exact hmembers none fun i hi => by simp [hlookup] at hi
      | some id =>
          by_cases hid : isId id = true
          · simp only [hid, if_true]
            refine hmembers (some id) fun i hi => ?_
            rw [hlookup, Option.some.injEq] at hi
            rw [← hi, hid]
          · simp only [hid, Bool.false_eq_true, if_false]
            exact ⟨_, rfl⟩
  | _ => exact ⟨_, rfl⟩

end Request

namespace Toolbox

variable {σ : Type} (box : Toolbox σ)

/-! ### Taking down the calls -/

/-- A toolbox that takes down the calls that are made, in order. -/
def logged : Toolbox (σ × List (String × Json)) where
  name := box.name
  version := box.version
  tools := box.tools
  resources s := box.resources s.1
  resourceTemplates := box.resourceTemplates
  call tool arguments s :=
    let (result, state) := box.call tool arguments s.1
    (result, state, s.2 ++ [(tool, arguments)])

/-- The call that a method makes with some parameters, if it makes one. -/
def callBy? (method : String) (params : Json) : Option (String × Json) :=
  if method = "tools/call" then (callParams params).toOption else none

/-- The call that a body makes, if it makes one. -/
def callIn? (body : ByteArray) : Option (String × Json) :=
  (valueIn? body).bind fun j =>
    (Request.ofJson j).toOption.bind fun request => callBy? request.method request.params

theorem logged_call (tool : String) (arguments : Json) (s : σ) (log : List (String × Json)) :
    box.logged.call tool arguments (s, log) =
      ((box.call tool arguments s).1, (box.call tool arguments s).2,
        log ++ [(tool, arguments)]) := rfl

theorem logged_callTool (params : Json) (s : σ) (log : List (String × Json)) :
    box.logged.callTool params (s, log) =
      ((box.callTool params s).1, (box.callTool params s).2,
        log ++ (callParams params).toOption.toList) := by
  unfold callTool
  cases hparams : callParams params with
  | error e => simp [Except.toOption]
  | ok call =>
      rcases call with ⟨tool, arguments⟩
      simp only [logged_call, Except.toOption, Option.toList_some]
      rcases box.call tool arguments s with ⟨e | value, s'⟩ <;> rfl

theorem logged_perform (method : String) (params : Json) (s : σ) (log : List (String × Json)) :
    box.logged.perform method params (s, log) =
      ((box.perform method params s).1, (box.perform method params s).2,
        log ++ (callBy? method params).toList) := by
  by_cases hcall : method = "tools/call"
  · subst hcall
    exact box.logged_callTool params s log
  · -- the other methods do not reach the tools, and they leave the state alone
    have hnone : (callBy? method params).toList = [] := by rw [callBy?, if_neg hcall]; rfl
    rw [hnone, List.append_nil]
    simp only [perform, hcall, if_false]
    repeat' split
    all_goals rfl

theorem logged_handle (request : Request) (s : σ) (log : List (String × Json)) :
    box.logged.handle request (s, log) =
      ((box.handle request s).1, (box.handle request s).2,
        log ++ (callBy? request.method request.params).toList) := by
  unfold handle
  rw [logged_perform]

/-- What a body does when the calls are taken down: the answer and the state are what they are
    otherwise. -/
theorem logged_handleBody (body : ByteArray) (s : σ) (log : List (String × Json)) :
    box.logged.handleBody body (s, log) =
      ((box.handleBody body s).1, (box.handleBody body s).2, log ++ (callIn? body).toList) := by
  unfold handleBody handleText callIn? valueIn?
  cases Json.parse? (Json.ofBytes body) with
  | none => simp
  | some j =>
      simp only [Option.map_some, Option.bind_some]
      cases Request.ofJson j.canonical with
      | error e => simp [Except.toOption]
      | ok request => exact box.logged_handle request s log

/-! ### What comes of a body -/

end Toolbox

/-- What comes of a body: the answer, the calls of tools that were made, and the state after it. -/
structure Handling (σ : Type) where
  answer : Option Response
  calls : List (String × Json)
  state : σ

namespace Toolbox

variable {σ : Type} (box : Toolbox σ)

/-- What comes of a body. -/
def handling (body : ByteArray) (s : σ) : Handling σ :=
  let (answer, state, calls) := box.logged.handleBody body (s, [])
  ⟨answer, calls, state⟩

theorem handling_eq (body : ByteArray) (s : σ) :
    box.handling body s =
      ⟨(box.handleBody body s).1, (callIn? body).toList, (box.handleBody body s).2⟩ := by
  unfold handling
  rw [logged_handleBody, List.nil_append]

/-- A body that is not JSON. -/
theorem handling_unread {body : ByteArray} (h : valueIn? body = none) (s : σ) :
    box.handling body s = ⟨some (.failure .null .parseError), [], s⟩ := by
  have hparse : Json.parse? (Json.ofBytes body) = none := Option.map_eq_none_iff.mp h
  rw [handling_eq, callIn?, h]
  simp only [handleBody, handleText, hparse]
  rfl

/-- A body that breaks the rules of the envelope. -/
theorem handling_refused {body : ByteArray} {j : Json} (hj : valueIn? body = some j)
    (h : ¬ IsEnvelope j) (s : σ) :
    ∃ message, box.handling body s =
      ⟨some (.failure (replyId (some j)) (Request.complaint message)), [], s⟩ := by
  rcases Request.ofJson_refused h with ⟨message, hrefused⟩
  rcases Option.map_eq_some_iff.mp hj with ⟨tree, hparse, rfl⟩
  refine ⟨message, ?_⟩
  rw [handling_eq, callIn?, hj]
  simp only [handleBody, handleText, hparse, hrefused, Option.bind_some]
  rfl

/-- The answer to a request with an id. -/
def outcomeAnswer (id : Json) : Except Error Json → Response
  | .ok result => .success id result
  | .error e => .failure id e

/-- A body that is a request. Its id decides whether it is answered and nothing else. -/
theorem handling_request {body : ByteArray} {j : Json} (hj : valueIn? body = some j)
    (h : IsEnvelope j) (s : σ) :
    box.handling body s =
      ⟨(j.member? "id").map fun id =>
          outcomeAnswer id (box.perform (Request.methodIn j) (Request.paramsIn j) s).1,
        (callBy? (Request.methodIn j) (Request.paramsIn j)).toList,
        (box.perform (Request.methodIn j) (Request.paramsIn j) s).2⟩ := by
  have hrequest := Request.ofJson_envelope h
  rcases Option.map_eq_some_iff.mp hj with ⟨tree, hparse, rfl⟩
  rw [handling_eq, callIn?, hj]
  simp only [handleBody, handleText, hparse, hrequest, Option.bind_some, handle]
  rfl

/-! ### Calls -/

/-- The arguments that are passed on are those that are given, or an empty object. -/
theorem callParams_iff (params : Json) (tool : String) (arguments : Json) :
    callParams params = .ok (tool, arguments) ↔
      params.member? "name" = some (.str tool) ∧ Text.allBlank tool = false ∧
        match params.member? "arguments" with
        | none | some .null => arguments = .obj []
        | some given => (∃ members, given = .obj members) ∧ arguments = given := by
  -- The name is a text that is not blank, and the arguments are absent or an object.
  cases params with
  | obj members =>
      simp only [callParams, Json.member?, Json.members?, Option.bind_some]
      cases members.lookup "name" with
      | none => simp
      | some value =>
          cases value with
          | str name =>
              by_cases hblank : Text.allBlank name = true
              · simp only [hblank, if_true, reduceCtorEq, false_iff]
                rintro ⟨hname, hnamed, -⟩
                rw [Option.some.injEq, Json.str.injEq] at hname
                rw [← hname, hblank] at hnamed
                cases hnamed
              · have hnamed : Text.allBlank name = false := Bool.eq_false_iff.mpr hblank
                simp only [hnamed, Bool.false_eq_true, if_false]
                cases members.lookup "arguments" with
                | none => grind
                | some given => cases given <;> grind
          | _ => simp
  | _ => simp [callParams, Json.member?, Json.members?]

/-- A request makes the call that it asks for, and no other. -/
theorem callBy?_iff (j : Json) (tool : String) (arguments : Json) :
    callBy? (Request.methodIn j) (Request.paramsIn j) = some (tool, arguments) ↔
      Asks j tool arguments := by
  have hmethod : Request.methodIn j = "tools/call" ↔
      j.member? "method" = some (.str "tools/call") := by
    unfold Request.methodIn
    cases j.member? "method" with
    | none => simp
    | some value => cases value <;> simp [Json.string?]
  -- No parameters are read like null, in which nothing is found.
  have hparams := callParams_iff (Request.paramsIn j) tool arguments
  simp only [Request.member?_paramsIn] at hparams
  have hcall : callBy? (Request.methodIn j) (Request.paramsIn j) = some (tool, arguments) ↔
      Request.methodIn j = "tools/call" ∧
        callParams (Request.paramsIn j) = .ok (tool, arguments) := by
    rw [callBy?]
    by_cases h : Request.methodIn j = "tools/call"
    · cases callParams (Request.paramsIn j) <;> simp [h, Except.toOption]
    · simp [h]
  rw [hcall, hmethod, hparams]
  exact ⟨fun ⟨hm, hn, hb, ha⟩ => ⟨hm, hn, hb, ha⟩,
    fun h => ⟨h.method, h.name, h.named, h.arguments⟩⟩

/-! ### Every body -/

/-- The answers carry their version and their id, and hold either a result or an error. -/
theorem outcomeAnswer_form (id : Json) (outcome : Except Error Json) :
    (outcomeAnswer id outcome).jsonrpc = "2.0" ∧
      ((outcomeAnswer id outcome).result.isSome ↔ (outcomeAnswer id outcome).error.isNone) ∧
        (outcomeAnswer id outcome).id = id := by
  cases outcome with
  | ok result => exact ⟨rfl, by simp [outcomeAnswer, Response.success], rfl⟩
  | error e => exact ⟨rfl, by simp [outcomeAnswer, Response.failure], rfl⟩

theorem failure_form (id : Json) (e : Error) :
    (Response.failure id e).jsonrpc = "2.0" ∧
      ((Response.failure id e).result.isSome ↔ (Response.failure id e).error.isNone) ∧
        (Response.failure id e).id = id :=
  outcomeAnswer_form id (.error e)

end Toolbox

/-- The rules for what comes of a body, given the JSON value in it and the state before. -/
structure Handling.Conforms {σ : Type} (h : Handling σ) (value : Option Json) (s : σ) : Prop where
  /-- A body that is not JSON is told so. -/
  unread : value = none →
    h.answer = some ⟨"2.0", .null, none, some ⟨-32700, "Parse error", none⟩⟩ ∧
      h.calls = [] ∧ h.state = s
  /-- A body is not answered exactly if it is a request without an id. -/
  silent : h.answer = none ↔ ∃ j, value = some j ∧ IsEnvelope j ∧ j.member? "id" = none
  /-- Every answer has the version, either a result or an error, and the id it has to carry. -/
  answered : ∀ r, h.answer = some r →
    r.jsonrpc = "2.0" ∧ (r.result.isSome ↔ r.error.isNone) ∧ r.id = replyId value
  /-- What breaks the rules of the envelope is refused and does nothing. -/
  refused : ∀ j, value = some j → ¬ IsEnvelope j →
    (∃ message, h.answer = some ⟨"2.0", replyId value, none, some ⟨-32600, message, none⟩⟩) ∧
      h.calls = [] ∧ h.state = s
  /-- What keeps to them makes the call that it asks for, once, and no other. -/
  called : ∀ j, value = some j → IsEnvelope j → h.calls.length ≤ 1 ∧
    ∀ tool arguments, (tool, arguments) ∈ h.calls ↔ Asks j tool arguments

namespace Toolbox

variable {σ : Type} (box : Toolbox σ)

theorem handling_conforms (body : ByteArray) (s : σ) :
    (box.handling body s).Conforms (valueIn? body) s := by
  -- The three clauses of the handling: no JSON at all, an envelope, and JSON that is none.
  cases hvalue : valueIn? body with
  | none =>
      rw [handling_unread box hvalue]
      constructor
      case unread => exact fun _ => ⟨rfl, rfl, rfl⟩
      case answered =>
        rintro r ⟨⟩
        exact failure_form .null _
      case silent | refused | called => simp
  | some j =>
      by_cases henv : IsEnvelope j
      · rw [handling_request box hvalue henv]
        constructor
        case unread => simp
        case silent => simp [henv]
        case answered =>
          intro r hr
          rcases Option.map_eq_some_iff.mp hr with ⟨id, hid, rfl⟩
          -- An id in an envelope is one that answers can carry.
          have hreply : replyId (some j) = id := by
            simp only [replyId, Option.bind_some, hid, henv.id id hid, if_true]
          rw [hreply]
          exact outcomeAnswer_form id _
        case refused =>
          rintro j' ⟨⟩ hnot
          exact absurd henv hnot
        case called =>
          rintro j' ⟨⟩ -
          refine ⟨Option.length_toList_le, fun tool arguments => ?_⟩
          rw [Option.mem_toList, callBy?_iff]
      · rcases handling_refused box hvalue henv s with ⟨message, hrefused⟩
        rw [hrefused]
        constructor
        case unread => simp
        case silent => simp [henv]
        case answered =>
          rintro r ⟨⟩
          exact failure_form _ _
        case refused =>
          rintro j' - -
          exact ⟨⟨message, rfl⟩, rfl, rfl⟩
        case called =>
          rintro j' ⟨⟩ henv'
          exact absurd henv' henv

/-- What comes of any body keeps to the rules, and it is what comes of it when nobody takes down
    the calls. Of two requests that differ in their ids alone both make the same calls and lead to
    the same state, and where both are answered the answers differ in their ids alone. -/
theorem bodies_answered (s : σ) :
    (∀ body, (box.handling body s).Conforms (valueIn? body) s ∧
      box.handleBody body s = ((box.handling body s).answer, (box.handling body s).state)) ∧
    ∀ body body' j j', valueIn? body = some j → valueIn? body' = some j' →
      IsEnvelope j → IsEnvelope j' → SameButId j j' →
      (box.handling body s).calls = (box.handling body' s).calls ∧
      (box.handling body s).state = (box.handling body' s).state ∧
      ∀ r r', (box.handling body s).answer = some r → (box.handling body' s).answer = some r' →
        { r with id := r'.id } = r' := by
  refine ⟨fun body => ⟨box.handling_conforms body s, by rw [handling_eq]⟩, ?_⟩
  intro body body' j j' hj hj' henv henv' hsame
  have hmethod : Request.methodIn j = Request.methodIn j' := by
    rw [Request.methodIn, Request.methodIn, hsame "method" (by decide)]
  have hparams : Request.paramsIn j = Request.paramsIn j' := by
    rw [Request.paramsIn, Request.paramsIn, hsame "params" (by decide)]
  rw [handling_request box hj henv, handling_request box hj' henv', hmethod, hparams]
  refine ⟨rfl, rfl, fun r r' hr hr' => ?_⟩
  -- Both were made from one outcome.
  rcases Option.map_eq_some_iff.mp hr with ⟨id, -, rfl⟩
  rcases Option.map_eq_some_iff.mp hr' with ⟨id', -, rfl⟩
  cases (box.perform (Request.methodIn j') (Request.paramsIn j') s).1 <;> rfl

end Toolbox

end Rpc

end Switchboard

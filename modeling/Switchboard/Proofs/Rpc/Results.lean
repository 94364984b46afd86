import Switchboard.Proofs.Rpc.Envelope
import Switchboard.Proofs.Rpc.Responses

/-!
# Results of Calls

What a client gets to know of the value that a tool gives. An answer holds the
value twice, once as it is and once as a text. The text of a string is the string
itself, without quotation marks; any other value is written out, and that text is
quoted once more when the answer is written. Both copies are still the same value
after that, and so is the answer as a whole: a result is an object whatever the
value is, so that not even a value that is null is read as a missing result.

The value in an answer may be nested two levels less than one that has a text for
itself, because it stands in the result and that in the answer.

## Main definitions

* `Rpc.Response.Presents`: An answer of success that holds a value and a text.
* `Rpc.textOf`: The text of a value in a result.

## Theorems

* `Json.ofBytes_toUTF8`: The bytes of a text are read as that text.
* `Rpc.Toolbox.handleBody_asked`: A body that asks for a tool to be called is answered with what
  the tool gave.
* `Rpc.read?_textOf`: A value that is not a string is what its text denotes.
* `Rpc.resultOf_lasts`: A result lasts if the value in it does.
* `Rpc.Toolbox.copies_agree`: The two copies agree, before and after the answer is written.
-/

namespace Switchboard

namespace Json

/-! ### Bytes -/

/-- The bytes of a text are read as its characters, whatever stands before them. -/
theorem ofBytes_go (before : ByteArray) (cs : List Char) (bound : Nat) (escaped : Bool)
    (hbound : cs.utf8Encode.size ≤ bound) :
    ofBytes.go (before ++ cs.utf8Encode) bound before.size escaped = cs := by
  induction cs generalizing before bound escaped with
  | nil => cases bound <;> simp [ofBytes.go]
  | cons c rest ih =>
      rw [List.utf8Encode_cons] at hbound ⊢
      have hsize : [c].utf8Encode.size = c.utf8Size := by simp [List.utf8Encode_singleton]
      have hpos := c.utf8Size_pos
      rw [ByteArray.size_append, hsize] at hbound
      cases bound with
      | zero => omega
      | succ bound =>
          have hdecode : (before ++ ([c].utf8Encode ++ rest.utf8Encode)).utf8DecodeChar?
              before.size = some c := by
            rw [ByteArray.utf8DecodeChar?_eq_utf8DecodeChar?_extract,
              ByteArray.extract_append_eq_right rfl (by rw [ByteArray.size_append]),
              List.utf8DecodeChar?_utf8Encode_singleton_append]
          -- The character that was read is one more of those that stand before.
          have hmore := ih (before ++ [c].utf8Encode) bound (c == '\\' && !escaped) (by omega)
          rw [ByteArray.append_assoc, ByteArray.size_append, hsize] at hmore
          rw [ofBytes.go, if_pos (by simp only [ByteArray.size_append, hsize]; omega), hdecode]
          exact congrArg (c :: ·) hmore

theorem ofBytes_toUTF8 (s : String) : ofBytes s.toUTF8 = s.toList := by
  have hgo := ofBytes_go .empty s.toList s.toUTF8.size false (by simp)
  simpa [ofBytes] using hgo

/-! ### Values that last -/

theorem item_lasts {item : Json} {room : Nat} (h : item.Lasts room) :
    (Json.arr [item]).Lasts (room + 1) where
  canonical := by simp only [canonical, canonicalItems, h.canonical]
  survives := (arr_survives room [item]).mpr (List.forall_mem_singleton.mpr h.survives)

end Json

namespace Rpc

/-- A value that lasts is what the bytes of its text hold. -/
theorem valueIn?_text {j : Json} (h : j.Lasts Json.depthLimit) :
    valueIn? j.text.toUTF8 = some j := by
  rw [valueIn?, Json.ofBytes_toUTF8, Json.text, String.toList_ofList,
    Json.parse?_chars j h.survives, Option.map_some, h.canonical]

/-! ### Results -/

/-- An answer of success that holds a value and, as its only content, a text. -/
structure Response.Presents (r : Response) (value : Json) (text : String) : Prop where
  error : r.error = none
  structured : r.result.bind (·.member? "structuredContent") = some value
  content : ∃ item, r.result.bind (·.member? "content") = some (.arr [item]) ∧
    item.member? "type" = some (.str "text") ∧ item.member? "text" = some (.str text)
  unflagged : r.result.bind (·.member? "isError") = some (.bool false)

/-- The text of a value in a result. A string is its own text. -/
def textOf : Json → String
  | .str s => s
  | value => value.text

theorem textOf_of_ne {value : Json} (h : ∀ s, value ≠ .str s) : textOf value = value.text := by
  cases value with
  | str s => exact absurd rfl (h s)
  | _ => rfl

/-- A value that is not a string is what its text denotes. -/
theorem read?_textOf {value : Json} (hstring : ∀ s, value ≠ .str s)
    (h : value.Lasts Json.depthLimit) : Json.read? (textOf value) = some value := by
  rw [textOf_of_ne hstring, Json.read?, Json.text, String.toList_ofList,
    Json.parse?_chars value h.survives, Option.map_some, h.canonical]

/-- A result is a record that holds the value and its text. -/
theorem resultOf_eq (value : Json) :
    Toolbox.resultOf value =
      .record
        [Json.field "content" (.arr [.record
          [Json.field "text" (.str (textOf value)), Json.field "type" (.str "text")]]),
          Json.field "isError" (.bool false), Json.field "structuredContent" value] := by
  cases value <;> rfl

theorem success_presents (id value : Json) :
    (Response.success id (Toolbox.resultOf value)).Presents value (textOf value) := by
  rw [resultOf_eq]
  exact ⟨rfl, rfl, ⟨_, rfl, rfl, rfl⟩, rfl⟩

/-- A result lasts if the value in it does. -/
theorem resultOf_lasts {value : Json} {room : Nat} (h : value.Lasts (room + 2)) :
    (Toolbox.resultOf value).Lasts (room + 3) := by
  -- The text and the value last each by itself, so the record of them does.
  have hitem : (Json.record [Json.field "text" (.str (textOf value)),
      Json.field "type" (.str "text")]).Lasts (room + 1) := by
    refine Json.record_lasts ["text", "type"]
      (.cons (Json.field_named _ _) <| .cons (Json.field_named _ _) .nil) (by decide) ?_
    rw [List.forall_mem_cons, List.forall_mem_singleton, Json.field_lasts, Json.field_lasts]
    exact ⟨Json.str_lasts room _, Json.str_lasts room _⟩
  rw [resultOf_eq]
  refine Json.record_lasts ["content", "isError", "structuredContent"]
    (.cons (Json.field_named _ _) <| .cons (Json.field_named _ _) <|
      .cons (Json.field_named _ _) .nil) (by decide) ?_
  rw [List.forall_mem_cons, List.forall_mem_cons, List.forall_mem_singleton, Json.field_lasts,
    Json.field_lasts, Json.field_lasts]
  exact ⟨Json.item_lasts hitem, ⟨Json.canonical_leaf.2.1 false, Json.bool_survives _ false⟩, h⟩

/-- An id that answers can carry lasts if the number in it does. -/
theorem id_lasts {id : Json} (hid : Request.isId id = true)
    (h : ∀ n, id = .num n → n.Survives) (room : Nat) : id.Lasts room := by
  cases id with
  | null => exact Json.null_lasts room
  | str s => exact Json.str_lasts room s
  | num n => exact ⟨Json.canonical_leaf.2.2.1 n, by cases room <;> exact h n rfl⟩
  | bool b => cases hid
  | arr items => cases hid
  | obj members => cases hid

/-- An answer that presents a value is read back if the value lasts. -/
theorem success_read_back {id value : Json} (hid : id.Lasts 126) (h : value.Lasts 125) :
    Response.decode (Response.success id (Toolbox.resultOf value)).encode =
      some (.success id (Toolbox.resultOf value)) := by
  have hprintable : (Response.success id (Toolbox.resultOf value)).Printable := by
    constructor
    case id => exact hid
    case result =>
      rintro _ ⟨⟩
      exact resultOf_lasts h
    case code | data => simp [Response.success]
  rw [Response.decode_encode _ hprintable]
  -- The result is an object, and no object is read as one that is missing.
  rfl

/-! ### Calls -/

namespace Toolbox

variable {σ : Type} (box : Toolbox σ)

/-- What asks for a tool to be called is a call of it. -/
theorem callParams_asked {j arguments : Json} {tool : String} (h : Asks j tool arguments) :
    Request.methodIn j = "tools/call" ∧
      callParams (Request.paramsIn j) = .ok (tool, arguments) := by
  -- The call is the one read from the parameters, which are read only if the method is that of a
  -- call.
  have hcall := (callBy?_iff j tool arguments).mpr h
  unfold callBy? at hcall
  split at hcall
  · next hmethod =>
      cases hparams : callParams (Request.paramsIn j) with
      | error e =>
          rw [hparams] at hcall
          cases hcall
      | ok call =>
          rw [hparams] at hcall
          exact ⟨hmethod, congrArg Except.ok (Option.some.inj hcall)⟩
  · cases hcall

theorem callTool_ok {params arguments value : Json} {tool : String} {s s' : σ}
    (hparams : callParams params = .ok (tool, arguments))
    (hcall : box.call tool arguments s = (.ok value, s')) :
    box.callTool params s = (.ok (resultOf value), s') := by
  simp only [callTool, hparams, hcall]

/-- A body that asks for a tool to be called is answered with what the tool gave. -/
theorem handleBody_asked {body : ByteArray} {j id arguments value : Json} {tool : String}
    {s s' : σ} (hbody : valueIn? body = some j) (henvelope : IsEnvelope j)
    (hid : j.member? "id" = some id) (hasks : Asks j tool arguments)
    (hcall : box.call tool arguments s = (.ok value, s')) :
    box.handleBody body s = (some (.success id (resultOf value)), s') := by
  rcases callParams_asked hasks with ⟨hmethod, hparams⟩
  have hperform : box.perform (Request.methodIn j) (Request.paramsIn j) s =
      (.ok (resultOf value), s') := by
    rw [hmethod]
    exact box.callTool_ok hparams hcall
  have hhandling := box.handling_request hbody henvelope s
  rw [handling_eq, Handling.mk.injEq, hperform, hid] at hhandling
  exact Prod.ext hhandling.1 hhandling.2.2

/-- The answer to a call that succeeds presents the value that the tool gave: the value itself, and
    one text, which is the value if that is a string and denotes it otherwise. The whole answer is
    read back from its own text. A text denotes the value if all numbers in the value are read back
    and it is not nested too deep, where the answer takes two levels for itself. -/
theorem copies_agree {body : ByteArray} {j id arguments value : Json} {tool : String} {s s' : σ}
    (hbody : valueIn? body = some j) (henvelope : IsEnvelope j) (hid : j.member? "id" = some id)
    (hasks : Asks j tool arguments) (hcall : box.call tool arguments s = (.ok value, s')) :
    ∃ r text, box.handleBody body s = (some r, s') ∧ r.id = id ∧ r.Presents value text ∧
      (∀ t, value = .str t → text = t) ∧
      ((∀ t, value ≠ .str t) → value.Lasts Json.depthLimit → Json.read? text = some value) ∧
      ((∀ n, id = .num n → n.Survives) → value.Lasts (Json.depthLimit - 2) →
        Response.decode r.encode = some r) := by
  refine ⟨.success id (resultOf value), textOf value, ?_, rfl, success_presents id value, ?_,
    read?_textOf, fun hnumber hvalue => ?_⟩
  · exact box.handleBody_asked hbody henvelope hid hasks hcall
  · rintro t rfl
    rfl
  · exact success_read_back (id_lasts (henvelope.id id hid) hnumber 126) hvalue

/-- A toolbox that gives arguments back with a remark, which has to be quoted when it is written. -/
def remarking : Toolbox Unit where
  name := "remarks"
  version := "1"
  tools := []
  resources _ := []
  resourceTemplates := []
  call _ arguments s :=
    (.ok (.obj [("given", arguments), ("remark", .str "a \"quoted\" \\ remark\n")]), s)

/-- Arguments with a null, a negative number and a character that is written as a unit. -/
def remarked : Json :=
  .obj [("a", .arr [.null, .ofInt (-3), .str "\x01"])]

/-- A request to give them back. -/
def remarkable : Json :=
  .obj [("id", .ofNat 7), ("jsonrpc", .str "2.0"), ("method", .str "tools/call"),
    ("params", .obj [("arguments", remarked), ("name", .str "remark")])]

theorem remarked_survives (room : Nat) : remarked.Survives (room + 2) := by
  have hnumber := Json.ofInt_survives (n := -3) (by decide) room
  simp [remarked, Json.Survives, Json.MembersSurvive, Json.ItemsSurvive, hnumber]

theorem remarkable_lasts : remarkable.Lasts Json.depthLimit where
  canonical := rfl
  survives := by
    simp [remarkable, Json.Survives, Json.MembersSurvive, Json.depthLimit, Json.ofNat_survives,
      remarked_survives]

theorem remark_copies_agree :
    ∃ value, remarking.call "remark" remarked () = (.ok value, ()) ∧
      ∃ r text, remarking.handleBody remarkable.text.toUTF8 () = (some r, ()) ∧
        r.id = .ofNat 7 ∧ r.Presents value text ∧ Json.read? text = some value ∧
        Response.decode r.encode = some r := by
  -- The request of the example is an envelope and asks for the tool with these arguments.
  have henvelope : IsEnvelope remarkable := by
    refine ⟨rfl, ⟨"tools/call", by decide, rfl⟩, ?_⟩
    rintro _ ⟨⟩
    rfl
  have hasks : Asks remarkable "remark" remarked := ⟨rfl, rfl, by decide, ⟨_, rfl⟩, rfl⟩
  refine ⟨_, rfl, ?_⟩
  rcases remarking.copies_agree (valueIn?_text remarkable_lasts) henvelope rfl hasks rfl with
    ⟨r, text, hanswer, hid, hpresents, -, htext, hdecode⟩
  refine ⟨r, text, hanswer, hid, hpresents, htext (by simp) ⟨rfl, ?_⟩, hdecode ?_ ⟨rfl, ?_⟩⟩
  · simp [Json.Survives, Json.MembersSurvive, Json.depthLimit, remarked_survives]
  · rintro n ⟨⟩
    exact Json.Number.whole_survives _
  · simp [Json.Survives, Json.MembersSurvive, Json.depthLimit, remarked_survives]

end Toolbox

end Rpc

end Switchboard

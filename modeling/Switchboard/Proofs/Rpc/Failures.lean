import Switchboard.Proofs.Rpc.Responses
import Switchboard.Rpc.Toolbox

/-!
# Failed Calls Told Apart

How a client can tell from a JSON-RPC error what went wrong with a call. Two of
the kinds of failure share a code, and messages and details are free: they may be
worded like those of another kind. So the kind is read off the code and then off
the member of the data that the server writes itself, which lies beside the
details and not among them. Nothing else is looked at before the kind is known.

Since the failure can be told from the error no two failures have the same error,
and since answers are read back from their texts they do not have the same text
either. The details of a call have to last for that, like any other free value.

## Main definitions

* `Rpc.Error.note?`: The text of a member of the data.
* `Rpc.ToolError.ofError?`: The failure that an error tells of.
* `Rpc.ToolError.details?`: The free value in a failure.

## Theorems

* `Rpc.ToolError.ofError?_error`: A failure is told from its error.
* `Rpc.ToolError.failure_printable`: A failure is read back if its details last.
* `Rpc.ToolError.failures_told_apart`: A failure is told from the text of its answer.
-/

namespace Switchboard

namespace Rpc

/-- The text of a member of the data of an error. -/
def Error.note? (e : Error) (name : String) : Option String :=
  (e.data.bind (·.member? name)).bind Json.string?

namespace ToolError

/-- The failure that an error tells of. -/
def ofError? (e : Error) : Option ToolError :=
  if e.code = Code.internalError.number then some (.internal e.message)
  else if e.code = Code.domainConflict.number then
    ((e.note? "code").bind fun name => Conflict.Code.names.lookup name).map fun code =>
      .conflict ⟨code, e.message⟩
  else if e.code = Code.capabilityUnavailable.number then
    (e.note? "capability").map fun capability => .capabilityUnavailable capability e.message
  else if e.code = Code.invalidParams.number then
    -- The two kinds with this code are told apart by what the server says, not by the message.
    if e.note? "code" = some "tool_not_found" then (e.note? "tool").map .notFound
    else some (.invalidParams e.message (e.data.bind (·.member? "details")))
  else none

/-- The free value in a failure. -/
def details? : ToolError → Option Json
  | .invalidParams _ details => details
  | _ => none

/-- A failure is told from its error. -/
theorem ofError?_error (e : ToolError) : ofError? e.error = some e := by
  cases e with
  | invalidParams message details => cases details <;> rfl
  | notFound tool => rfl
  | capabilityUnavailable capability message => rfl
  | conflict c =>
      rcases c with ⟨code, message⟩
      cases code <;> rfl
  | internal message => rfl

/-! ### Texts -/

theorem code_integer64 (code : Code) : Json.IsInteger64 code.number := by
  cases code <;> decide

/-- A record of two texts whose names are in order lasts. -/
theorem texts_last (room : Nat) {first second : String} (horder : first < second) (s t : String) :
    (Json.record [Json.field first (.str s), Json.field second (.str t)]).Lasts (room + 1) := by
  refine Json.record_lasts [first, second]
    (.cons (Json.field_named _ _) <| .cons (Json.field_named _ _) .nil)
    (List.pairwise_pair.mpr horder) ?_
  rw [List.forall_mem_cons, List.forall_mem_singleton, Json.field_lasts, Json.field_lasts]
  exact ⟨Json.str_lasts room s, Json.str_lasts room t⟩

/-- The data of a failure is a record with its names in order, and free details are the only thing
    in it that may not last. -/
theorem data_lasts (e : ToolError) {room : Nat} (h : ∀ v ∈ e.details?, v.Lasts room) :
    ∀ v ∈ e.error.data, v.Lasts (room + 1) := by
  -- Only one kind carries free details; the data of the others are texts, or there are none.
  cases e with
  | invalidParams message details =>
      rintro _ ⟨⟩
      refine Json.record_lasts ["code", "details"]
        (.cons (Json.field_named _ _) <| .cons (Json.field?_named _ _) .nil) (by decide) ?_
      rw [List.forall_mem_cons, List.forall_mem_singleton, Json.field_lasts, Json.field?_lasts]
      exact ⟨Json.str_lasts room _, h⟩
  | notFound tool =>
      rintro _ ⟨⟩
      exact texts_last room (by decide) _ _
  | capabilityUnavailable capability message =>
      rintro _ ⟨⟩
      exact texts_last room (by decide) _ _
  | conflict c =>
      rintro _ ⟨⟩
      exact texts_last room (by decide) _ _
  | internal message => exact fun v hv => absurd hv (by simp [error, Error.plain])

/-- No failure has data that is null, so that all of an error is read back. -/
theorem asRead_failure (id : Json) (e : ToolError) :
    (Response.failure id e.error).asRead = .failure id e.error := by
  cases e <;> rfl

theorem error_integer64 (e : ToolError) : Json.IsInteger64 e.error.code := by
  cases e with
  | invalidParams message details => exact code_integer64 .invalidParams
  | notFound tool => exact code_integer64 .invalidParams
  | capabilityUnavailable capability message => exact code_integer64 .capabilityUnavailable
  | conflict c => exact code_integer64 .domainConflict
  | internal message => exact code_integer64 .internalError

/-- The answer to a failed call is read back if the id and the details last. -/
theorem failure_printable {id : Json} {e : ToolError} (hid : id.Lasts 126)
    (hdetails : ∀ v ∈ e.details?, v.Lasts 124) : (Response.failure id e.error).Printable where
  id := hid
  result := by simp [Response.failure]
  code := by
    rintro _ ⟨⟩
    exact e.error_integer64
  data := by
    rintro _ ⟨⟩
    exact e.data_lasts hdetails

/-- Every failure of a call is told from its error, with all that it says: the kind, the messages,
    the details if there are any, the tool, the capability and the conflict. It is told in the
    same way from the text of the answer to the call, if the id of the answer and the details are
    read back from their own texts and not nested too deep. So failures that differ have different
    errors, and answers with different texts. -/
theorem failures_told_apart :
    (∀ e : ToolError, ofError? e.error = some e) ∧
    (∀ (id : Json) (e : ToolError), id.Lasts 126 → (∀ v ∈ e.details?, v.Lasts 124) →
      Response.decode (Response.failure id e.error).encode = some (.failure id e.error) ∧
      ((Response.decode (Response.failure id e.error).encode).bind (·.error)).bind ofError? =
        some e) ∧
    Function.Injective error := by
  refine ⟨ofError?_error, fun id e hid hdetails => ?_, fun e e' heq => ?_⟩
  · have hread : Response.decode (Response.failure id e.error).encode =
        some (.failure id e.error) := by
      rw [Response.decode_encode _ (failure_printable hid hdetails), asRead_failure]
    refine ⟨hread, ?_⟩
    rw [hread]
    exact ofError?_error e
  · have hsame : ofError? e.error = ofError? e'.error := by rw [heq]
    rwa [ofError?_error, ofError?_error, Option.some.injEq] at hsame

/-- A call with bad parameters that looks like one of a tool that is not there, in its message and
    in its details. -/
def imitation : ToolError :=
  .invalidParams "Tool not found: run"
    (some (.obj [("code", .str "tool_not_found"), ("tool", .str "run")]))

theorem imitation_told_apart :
    imitation.error.code = (notFound "run").error.code ∧
    imitation.error.message = (notFound "run").error.message ∧
    (∀ v ∈ imitation.details?, v.Lasts 124) ∧
    ((Response.decode (Response.failure .null imitation.error).encode).bind (·.error)).bind
      ofError? = some imitation := by
  have hdetails : ∀ v ∈ imitation.details?, v.Lasts 124 := by
    rintro _ ⟨⟩
    exact texts_last 123 (by decide) "tool_not_found" "run"
  exact ⟨rfl, rfl, hdetails,
    (failures_told_apart.2.1 .null imitation (Json.null_lasts 126) hdetails).2⟩

end ToolError

end Rpc

end Switchboard

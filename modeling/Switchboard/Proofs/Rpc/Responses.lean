import Mathlib.Data.Option.Basic
import Switchboard.Proofs.Json.Canonical
import Switchboard.Proofs.Json.Fields
import Switchboard.Proofs.Json.Printed
import Switchboard.Rpc.Response

/-!
# Responses that Arrive

What an answer of a tool surface is read back as. As with frames, what is read is
told from the tree first and from the text afterwards. The id, the result and the
data of an error are free values: they come back as they were if nothing in them
is nested too deep, every number survives and their members are in order.

A result and data may be missing, and null is written for a value that is null but
read as one that is missing. An id has to be there, so that null stays null.

## Main definitions

* `Json.Lasts`: A value that is read back as it is.
* `Rpc.Error.asRead`, `Rpc.Response.asRead`: What is read back.
* `Rpc.Response.Printable`: An answer of which everything it holds is read back.

## Theorems

* `Json.gives_integer`: Integers of 64 bits are read back.
* `Json.ofText_of_tree`: A text is read like its tree.
* `Rpc.Error.gives`, `Rpc.Response.gives`: Errors and answers are read back from their trees.
* `Rpc.Response.decode_encode`: An answer is read back from its text.
-/

namespace Switchboard

open Json (Gives Brings)

namespace Json

/-- A value that is read back as it is where at most `room` arrays and objects may be opened. -/
structure Lasts (room : Nat) (j : Json) : Prop where
  canonical : j.canonical = j
  survives : j.Survives room

theorem str_lasts (room : Nat) (s : String) : (Json.str s).Lasts room :=
  ⟨str_canonical s, str_survives room s⟩

theorem null_lasts (room : Nat) : Json.null.Lasts room :=
  ⟨canonical_leaf.1, by cases room <;> trivial⟩

theorem field_lasts (room : Nat) (key : String) (value : Json) :
    (∀ m ∈ field key value, m.2.Lasts room) ↔ value.Lasts room := by
  simp [field]

theorem field?_lasts (room : Nat) (key : String) (value : Option Json) :
    (∀ m ∈ field? key value, m.2.Lasts room) ↔ ∀ v ∈ value, v.Lasts room := by
  cases value <;> simp [field?]

/-- A record whose names are in order lasts if everything does that is written in it. -/
theorem record_lasts (names : List String) {entries : List (Option (String × Json))} {room : Nat}
    (hnamed : Named names entries) (hsorted : names.Pairwise (· < ·))
    (h : ∀ entry ∈ entries, ∀ m ∈ entry, m.2.Lasts room) : (record entries).Lasts (room + 1) where
  canonical :=
    canonical_record names hnamed hsorted fun entry he m hm => (h entry he m hm).canonical
  survives := (record_survives room entries).mpr fun entry he m hm => (h entry he m hm).survives

/-- The integers of 64 bits. -/
def IsInteger64 (n : Int) : Prop :=
  -(Nat.pow 2 63 : Int) ≤ n ∧ n < Nat.pow 2 63

instance decidableIsInteger64 (n : Int) : Decidable (IsInteger64 n) :=
  inferInstanceAs (Decidable (_ ∧ _))

/-- The number that an integer of 64 bits is written as. -/
theorem ofInt_integer64 {n : Int} (h : IsInteger64 n) :
    ∃ v : Number, ofInt n = .num v ∧ v.integer? = some n ∧ v.Survives := by
  rcases h with ⟨hlow, hhigh⟩
  -- The two forms of an integer are the two forms in which whole numbers are written.
  cases n with
  | ofNat k =>
      have hk : k < Nat.pow 2 63 := Int.ofNat_lt.mp hhigh
      have hword : k < wordBound := Nat.lt_trans hk (by decide)
      have hvalue : (UInt64.ofNat k).toNat = k := UInt64.toNat_ofNat_of_lt hword
      refine ⟨.whole (UInt64.ofNat k), rfl, ?_, Number.whole_survives _⟩
      rw [Number.integer?, hvalue, if_pos hk]
      rfl
  | negSucc k =>
      have hk : k < Nat.pow 2 63 := by omega
      refine ⟨.below ⟨k, hk⟩, by rw [ofInt, dif_pos hk], ?_, Number.below_survives _⟩
      rw [Number.integer?, Int.negSucc_eq]

theorem gives_integer {n : Int} (h : IsInteger64 n) (room : Nat) :
    Gives readInteger room (.ofInt n) n := by
  rcases ofInt_integer64 h with ⟨v, hv, hinteger, -⟩
  intro o ho
  rw [hv] at ho
  rcases Outline.tree?_num ho with ⟨m, rfl, hm⟩
  simp only [readInteger, hm, hinteger]

theorem ofInt_survives {n : Int} (h : IsInteger64 n) (room : Nat) : (ofInt n).Survives room := by
  rcases ofInt_integer64 h with ⟨v, hv, -, hsurvives⟩
  rw [hv]
  cases room <;> exact hsurvives

/-- A text is read like the tree that it denotes. -/
theorem ofText_of_tree {α : Type} {read : Reads α} {cs : List Char} {j : Json} {a : α}
    (hparse : parse? cs = some j) (hgives : Gives read depthLimit j a) :
    ofText read cs = .ok a := by
  unfold parse? at hparse
  split at hparse
  · next o ho => simp only [ofText, ho, hgives o hparse, bind, Except.bind, if_true]
  · cases hparse

end Json

namespace Rpc

/-! ### Errors -/

namespace Error

/-- What an error is read back as. -/
def asRead (e : Error) : Error :=
  { e with data := Json.unlessNull e.data }

/-- An error is read back but for data that is null. -/
theorem gives (e : Error) (hcode : Json.IsInteger64 e.code)
    (hdata : ∀ v ∈ e.data, v.canonical = v) (room : Nat) :
    Gives read (room + 1) e.json e.asRead := by
  have hcode := Json.gives_integer hcode room
  have hmessage := Json.gives_text room e.message
  have hdata := Json.brings_tree room e.data hdata
  have hfits := List.Forall₂.cons (Json.required_fits "code" hcode) <|
    .cons (Json.required_fits "message" hmessage) <|
    .cons (Json.optionally_fits "data" hdata) .nil
  refine Json.gives_record hfits (by decide) fun outlines hfinds => ?_
  rcases hfinds with _ | ⟨fcode, _ | ⟨fmessage, _ | ⟨fdata, -⟩⟩⟩
  simp only [fcode.get hcode, fmessage.get hmessage, Json.Fields.get?, fdata.getD hdata, bind,
    Except.bind]
  rfl

theorem json_survives (e : Error) (hcode : Json.IsInteger64 e.code) (room : Nat)
    (hdata : ∀ v ∈ e.data, v.Survives room) : e.json.Survives (room + 1) := by
  rw [json, Json.record_survives]
  simp only [List.forall_mem_cons, Json.field_survives, Json.field?_survives, Json.str_survives,
    Json.ofInt_survives hcode, List.not_mem_nil, false_implies, implies_true, and_true, true_and]
  exact hdata

end Error

/-! ### Answers -/

namespace Response

/-- What an answer is read back as. -/
def asRead (r : Response) : Response :=
  { r with result := Json.unlessNull r.result, error := r.error.map Error.asRead }

/-- An answer of which everything it holds is read back. -/
structure Printable (r : Response) : Prop where
  /-- The id may be nested as deep as anything in an object. -/
  id : r.id.Lasts (Json.depthLimit - 1)
  result : ∀ v ∈ r.result, v.Lasts (Json.depthLimit - 1)
  code : ∀ e ∈ r.error, Json.IsInteger64 e.code
  /-- Data stands in an error, and that in an answer. -/
  data : ∀ e ∈ r.error, ∀ v ∈ e.data, v.Lasts (Json.depthLimit - 2)

/-- An answer is read back from its tree but for free values that may be missing and are null. -/
theorem gives (r : Response) (h : r.Printable) (room : Nat) :
    Gives read (room + 2) r.json r.asRead := by
  -- Every member is read back by itself; an answer without a member is read as one with none.
  have hjsonrpc := Json.gives_text (room + 1) r.jsonrpc
  have hid : Gives Json.readTree (room + 1) r.id r.id := by
    have hcanonical := Json.gives_tree (room + 1) r.id
    rwa [h.id.canonical] at hcanonical
  have hresult := Json.brings_tree (room + 1) r.result fun v hv => (h.result v hv).canonical
  have herror : Brings (Json.readNullable Error.read) none (room + 1) (r.error.map Error.json)
      (r.error.map Error.asRead) := by
    cases herror : r.error with
    | none => rfl
    | some e =>
        exact Json.gives_some (by simp [Error.json, Json.record]) <|
          e.gives (h.code e herror) (fun v hv => (h.data e herror v hv).canonical) room
  have hfits := List.Forall₂.cons (Json.required_fits "jsonrpc" hjsonrpc) <|
    .cons (Json.required_fits "id" hid) <|
    .cons (Json.optionally_fits "result" hresult) <|
    .cons (Json.optionally_fits "error" herror) .nil
  refine Json.gives_record hfits (by decide) fun outlines hfinds => ?_
  rcases hfinds with _ | ⟨fjsonrpc, _ | ⟨fid, _ | ⟨fresult, _ | ⟨ferror, -⟩⟩⟩⟩
  simp only [fjsonrpc.get hjsonrpc, fid.get hid, Json.Fields.get?, fresult.getD hresult,
    ferror.getD herror, bind, Except.bind]
  rfl

theorem json_survives (r : Response) (h : r.Printable) : r.json.Survives Json.depthLimit := by
  have hlimit : Json.depthLimit = 125 + 1 + 1 := rfl
  have herror : ∀ e ∈ r.error, e.json.Survives (125 + 1) := fun e he =>
    e.json_survives (h.code e he) 125 fun v hv => (h.data e he v hv).survives
  rw [json, hlimit, Json.record_survives]
  simp only [List.forall_mem_cons, Json.field_survives, Json.field?_survives, Json.str_survives,
    Option.forall_mem_map, List.not_mem_nil, false_implies, implies_true, and_true, true_and]
  exact ⟨h.id.survives, fun v hv => (h.result v hv).survives, herror⟩

/-- An answer is read back from its text. -/
theorem decode_encode (r : Response) (h : r.Printable) : decode r.encode = some r.asRead := by
  have hparse : Json.parse? r.encode.toList = some r.json := by
    rw [encode, Json.text, String.toList_ofList]
    exact r.json.parse?_chars (r.json_survives h)
  rw [decode, Json.ofText_of_tree hparse (r.gives h 125)]
  rfl

end Response

end Rpc

end Switchboard

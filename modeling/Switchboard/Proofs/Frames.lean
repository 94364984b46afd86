import Mathlib.Data.Option.Basic
import Switchboard.Frame.Reader
import Switchboard.Proofs.Json.Fields
import Switchboard.Proofs.Json.Printed

/-!
# Frames that Arrive

What a frame is read back as. A frame is written by one piece of code and read by
another, and the text in between is all they share: the order of the members, the
ones that are left out and the names they go by are known to both, and to nobody
else. That the two fit together is said of the tree of a frame first, from the
inside to the outside, and then of its text.

One kind of field is not read back as it was. The result and the error of a tool
call are free values that may be missing, and null is written for a value that is
null but read as one that is missing.

Not everything that a frame can hold has a text that is read back. A number has to
survive, a timestamp has to be read from its own text, and values must not be
nested too deep. These are conditions on what the frame holds.

## Main definitions

* `ToolCall.asRead`, `Snapshot.asRead`, `Frame.Body.asRead`, `Frame.asRead`: What is read back.
* `ToolCall.values`, `Frame.Body.calls`, `Frame.Body.times`: What is not always read back.
* `Frame.Body.room`: How deep free values may be nested.
* `Frame.Printable`: A frame of which everything it holds is read back.

## Theorems

* `Conversation.gives`, `ToolCall.gives`, `Snapshot.gives`: The parts of frames are read back.
* `Frame.Body.fits_and_reads`: So are their contents.
* `Frame.gives`: So are the trees of frames.
* `Frame.json_survives`, `Frame.decode_of_tree`: The tree is in the text, and a text is read like
  its tree.
* `Frame.outgoing_read_back`: A frame is read back from its text.
-/

namespace Switchboard

open Json (Gives Brings)

/-! ### Timestamps and conversations -/

theorem gives_timestamp {t : Timestamp} (h : Timestamp.read? t.text = some t) (room : Nat) :
    Gives readTimestamp room (.str t.text) t := by
  intro o ho
  simp only [readTimestamp, Json.gives_text room t.text o ho, bind, Except.bind, h]

/-- A summary is read back. -/
theorem Conversation.gives (c : Conversation)
    (htime : Timestamp.read? c.updatedAt.text = some c.updatedAt) (room : Nat) :
    Gives read (room + 1) c.json c := by
  -- How the value of each field is read back.
  have hid := Json.gives_text room c.id
  have htitle := Json.gives_text room c.title
  have harchived : Brings Json.readFlag false room (some (.bool c.archived)) c.archived :=
    Json.gives_flag room c.archived
  have hupdated := gives_timestamp htime room
  have hactive := Json.brings_text room c.activeRun
  -- These are the values of the fields, in the order in which they are written.
  have hfits := List.Forall₂.cons (Json.required_fits "id" hid) <|
    .cons (Json.required_fits "title" htitle) <|
    .cons (Json.optionally_fits "archived" harchived) <|
    .cons (Json.required_fits "updatedAt" hupdated) <|
    .cons (Json.optionally_fits "activeInflightId" hactive) .nil
  refine Json.gives_record hfits (by decide) fun outlines hfinds => ?_
  simp only [List.forall₂_cons] at hfinds
  rcases hfinds with ⟨fid, ftitle, farchived, fupdated, factive, -⟩
  simp only [fid.get hid, ftitle.get htitle, farchived.getD harchived, fupdated.get hupdated,
    Json.Fields.get?, factive.getD hactive, bind, Except.bind]

theorem Conversation.json_survives (c : Conversation) (room : Nat) :
    c.json.Survives (room + 1) := by
  rw [json, Json.record_survives]
  simp only [List.forall_mem_cons, Json.field_survives, Json.field?_survives, Json.str_survives,
    Json.bool_survives, Option.forall_mem_map, implies_true, List.not_mem_nil, false_implies,
    and_self]

/-! ### Tool calls and snapshots -/

namespace ToolCall

/-- What the state of a tool call is read back as. -/
def asRead (call : ToolCall) : ToolCall :=
  { call with result := Json.unlessNull call.result, error := Json.unlessNull call.error }

/-- The free values of a state. -/
def values (call : ToolCall) : List Json :=
  call.result.toList ++ call.error.toList

/-- The state of a tool call is read back but for the values that are null. -/
theorem gives (call : ToolCall) (hvalues : ∀ v ∈ call.values, v.canonical = v) (room : Nat) :
    Gives read (room + 1) call.json call.asRead := by
  have hid := Json.gives_text room call.id
  have hname := Json.brings_text room call.name
  have hstatus := Json.gives_text room call.status
  have hstage := Json.brings_text room call.stage
  -- The values that come from outside are written in the order of their keys.
  have hresult := Json.brings_tree room call.result fun v hv =>
    hvalues v (List.mem_append_left _ (Option.mem_toList.mpr hv))
  have herror := Json.brings_tree room call.error fun v hv =>
    hvalues v (List.mem_append_right _ (Option.mem_toList.mpr hv))
  have hfits := List.Forall₂.cons (Json.required_fits "id" hid) <|
    .cons (Json.optionally_fits "name" hname) <|
    .cons (Json.required_fits "status" hstatus) <|
    .cons (Json.optionally_fits "stage" hstage) <|
    .cons (Json.optionally_fits "result" hresult) <|
    .cons (Json.optionally_fits "error" herror) .nil
  refine Json.gives_record hfits (by decide) fun outlines hfinds => ?_
  simp only [List.forall₂_cons] at hfinds
  rcases hfinds with ⟨fid, fname, fstatus, fstage, fresult, ferror, -⟩
  simp only [fid.get hid, Json.Fields.get?, fname.getD hname, fstatus.get hstatus,
    fstage.getD hstage, fresult.getD hresult, ferror.getD herror, bind, Except.bind]
  rfl

theorem json_survives (call : ToolCall) (room : Nat) (h : ∀ v ∈ call.values, v.Survives room) :
    call.json.Survives (room + 1) := by
  rw [json, Json.record_survives]
  simp only [List.forall_mem_cons, Json.field_survives, Json.field?_survives, Json.str_survives,
    Option.forall_mem_map, implies_true, List.not_mem_nil, false_implies, true_and, and_true]
  exact ⟨fun v hv => h v (List.mem_append_left _ (Option.mem_toList.mpr hv)),
    fun v hv => h v (List.mem_append_right _ (Option.mem_toList.mpr hv))⟩

end ToolCall

namespace Snapshot

/-- What a snapshot is read back as. -/
def asRead (s : Snapshot) : Snapshot :=
  { s with tools := s.tools.map ToolCall.asRead }

theorem fields_nodup (emptyObject : Bool) : ((fields emptyObject).map (·.name)).Nodup := by
  cases emptyObject <;> decide

/-- A snapshot is read back as its tool calls are. -/
theorem gives (s : Snapshot) (hstarted : Timestamp.read? s.startedAt.text = some s.startedAt)
    (hvalues : ∀ call ∈ s.tools, ∀ v ∈ call.values, v.canonical = v) (emptyObject : Bool)
    (room : Nat) : Gives (read emptyObject) (room + 3) s.json s.asRead := by
  have hconversation := Json.gives_text (room + 2) s.key.conversation
  have hrun := Json.gives_text (room + 2) s.key.run
  have hstatus : Gives (Json.readName emptyObject [(activeName, ())]) (room + 2)
      (.str activeName) () := Json.gives_name (by simp) (room + 2)
  have hstarted := gives_timestamp hstarted (room + 2)
  have htext : Brings Json.readText "" (room + 2) (some (.str s.text)) s.text :=
    Json.gives_text (room + 2) s.text
  have hcalls : List.Forall₂ (Gives ToolCall.read (room + 1)) (s.tools.map ToolCall.json)
      (s.tools.map ToolCall.asRead) := by
    rw [List.forall₂_map_left_iff, List.forall₂_map_right_iff, List.forall₂_same]
    exact fun call hcall => call.gives (hvalues call hcall) room
  have htools : Brings (Json.readList ToolCall.read) [] (room + 2)
      (some (.arr (s.tools.map ToolCall.json))) (s.tools.map ToolCall.asRead) :=
    Json.gives_list hcalls
  have hfits := List.Forall₂.cons (Json.required_fits "conversationId" hconversation) <|
    .cons (Json.required_fits "inflightId" hrun) <|
    .cons (Json.required_fits "status" hstatus) <|
    .cons (Json.required_fits "startedAt" hstarted) <|
    .cons (Json.optionally_fits "assistantText" htext) <|
    .cons (Json.optionally_fits "tools" htools) .nil
  refine Json.gives_record hfits (fields_nodup emptyObject) fun outlines hfinds => ?_
  simp only [List.forall₂_cons] at hfinds
  rcases hfinds with ⟨fconversation, frun, -, fstarted, ftext, ftools, -⟩
  simp only [fconversation.get hconversation, frun.get hrun, fstarted.get hstarted,
    ftext.getD htext, ftools.getD htools, bind, Except.bind]
  rfl

theorem json_survives (s : Snapshot) (room : Nat)
    (h : ∀ call ∈ s.tools, ∀ v ∈ call.values, v.Survives room) :
    s.json.Survives (room + 3) := by
  have htools : (Json.arr (s.tools.map ToolCall.json)).Survives (room + 2) := by
    rw [Json.arr_survives, List.forall_mem_map]
    exact fun call hcall => call.json_survives room (h call hcall)
  rw [json, Json.record_survives]
  simp only [List.forall_mem_cons, Json.field_survives, Json.str_survives, htools,
    List.not_mem_nil, false_implies, implies_true, and_self]

end Snapshot

/-! ### Contents -/

namespace Frame

namespace Body

/-- What a content is read back as. -/
def asRead : Body → Body
  | .snapshot s => .snapshot s.asRead
  | .toolState key call => .toolState key call.asRead
  | b => b

/-- The tool calls that a content tells of. -/
def calls : Body → List ToolCall
  | .snapshot s => s.tools
  | .toolState _ call => [call]
  | _ => []

/-- The timestamps of a content. -/
def times : Body → List Timestamp
  | .conversationUpsert c => [c.updatedAt]
  | .snapshot s => [s.startedAt]
  | _ => []

/-- How many arrays and objects may be open in a free value of a content. The others that a reader
    has open are the frame, the tool call and, in a snapshot, that and the list of calls. -/
def room : Body → Nat
  | .snapshot _ => Json.depthLimit - 4
  | _ => Json.depthLimit - 2

/-- A content is written as the fields of its kind, and read from them. -/
theorem fits_and_reads (b : Body)
    (htimes : ∀ t ∈ b.times, Timestamp.read? t.text = some t)
    (hvalues : ∀ call ∈ b.calls, ∀ v ∈ call.values, v.canonical = v) (room : Nat) :
    List.Forall₂ (Json.Field.Fits (room + 3)) b.toKind.fields b.members ∧
    ∀ outlines, List.Forall₂ (Json.Fields.Finds ⟨room + 3, outlines⟩) b.toKind.fields b.members →
      readBody ⟨room + 3, outlines⟩ b.toKind = .ok b.asRead := by
  -- In both halves the fields of a kind come in the same order, and one fact about the value of
  -- each field serves for both.
  have htext := fun s => Json.gives_text (room + 3) s
  have hfit := fun name s => Json.required_fits name (htext s)
  cases b with
  | ack => exact ⟨.nil, fun _ _ => rfl⟩
  | error code message =>
      have hcode : Gives (ErrorCode.read true) (room + 3) (.str code.name) code :=
        Json.gives_name code.lookup_name (room + 3)
      refine ⟨.cons (Json.required_fits "code" hcode) <| .cons (hfit "message" message) .nil,
        fun outlines hfinds => ?_⟩
      rcases hfinds with _ | ⟨fcode, _ | ⟨fmessage, -⟩⟩
      simp only [toKind, readBody, fcode.get hcode, fmessage.get (htext message), bind, Except.bind]
      rfl
  | conversationUpsert c =>
      have hc := c.gives (htimes _ List.mem_cons_self) (room + 2)
      refine ⟨.cons (Json.required_fits "conversation" hc) .nil, fun outlines hfinds => ?_⟩
      rcases hfinds with _ | ⟨fc, -⟩
      simp only [toKind, readBody, fc.get hc, bind, Except.bind]
      rfl
  | conversationDelete id =>
      refine ⟨.cons (hfit "conversationId" id) .nil, fun outlines hfinds => ?_⟩
      rcases hfinds with _ | ⟨fid, -⟩
      simp only [toKind, readBody, fid.get (htext id), bind, Except.bind]
      rfl
  | snapshot s =>
      have hs := s.gives (htimes _ List.mem_cons_self) hvalues true room
      refine ⟨.cons (Json.required_fits "snapshot" hs) .nil, fun outlines hfinds => ?_⟩
      rcases hfinds with _ | ⟨fs, -⟩
      simp only [toKind, readBody, fs.get hs, bind, Except.bind]
      rfl
  | delta key text =>
      refine ⟨.cons (hfit "conversationId" key.conversation) <| .cons (hfit "inflightId" key.run) <|
        .cons (hfit "delta" text) .nil, fun outlines hfinds => ?_⟩
      rcases hfinds with _ | ⟨fconversation, _ | ⟨frun, _ | ⟨ftext, -⟩⟩⟩
      simp only [toKind, readBody, readKey, fconversation.get (htext _), frun.get (htext _),
        ftext.get (htext _), bind, Except.bind]
      rfl
  | toolState key call =>
      have hcall := call.gives (hvalues call List.mem_cons_self) (room + 2)
      refine ⟨.cons (hfit "conversationId" key.conversation) <| .cons (hfit "inflightId" key.run) <|
        .cons (Json.required_fits "tool" hcall) .nil, fun outlines hfinds => ?_⟩
      rcases hfinds with _ | ⟨fconversation, _ | ⟨frun, _ | ⟨fcall, -⟩⟩⟩
      simp only [toKind, readBody, readKey, fconversation.get (htext _), frun.get (htext _),
        fcall.get hcall, bind, Except.bind]
      rfl
  | turnFinal key status =>
      have hstatus : Gives (FinalStatus.read true) (room + 3) (.str status.name) status :=
        Json.gives_name status.lookup_name (room + 3)
      refine ⟨.cons (hfit "conversationId" key.conversation) <| .cons (hfit "inflightId" key.run) <|
        .cons (Json.required_fits "status" hstatus) .nil, fun outlines hfinds => ?_⟩
      rcases hfinds with _ | ⟨fconversation, _ | ⟨frun, _ | ⟨fstatus, -⟩⟩⟩
      simp only [toKind, readBody, readKey, fconversation.get (htext _), frun.get (htext _),
        fstatus.get hstatus, bind, Except.bind]
      rfl

end Body

/-! ### Frames -/

/-- What is written of one kind of frames alone goes by other names than what is written of all. -/
theorem Kind.names_nodup (k : Kind) : ((commonFields ++ k.fields).map (·.name)).Nodup := by
  cases k <;> decide

theorem gives_kind (b : Body) (room : Nat) : Gives readKind room (.str b.kind) b.toKind := by
  intro o ho
  rcases Json.Outline.tree?_str ho with ⟨ps, rfl, hps⟩
  simp only [readKind, Json.readText, hps, Json.named, lookup_kind, bind, Except.bind]

/-- What a frame is read back as. -/
def asRead (f : Frame) : Frame :=
  { f with body := f.body.asRead }

/-- A frame of which everything it holds is read back. -/
structure Printable (f : Frame) : Prop where
  /-- The sequence number fits a word. -/
  seq : ∀ n ∈ f.seq, n < Json.wordBound
  /-- Timestamps are read from their own texts. -/
  times : ∀ t ∈ f.body.times, Timestamp.read? t.text = some t
  /-- Free values are kept in canonical form. -/
  values : ∀ call ∈ f.body.calls, ∀ v ∈ call.values, v.canonical = v
  /-- The numbers in free values are read from their own texts, and nothing in them is nested too
      deep. -/
  survives : ∀ call ∈ f.body.calls, ∀ v ∈ call.values, v.Survives f.body.room

/-- A frame is read back from its tree. -/
theorem gives (f : Frame) (h : f.Printable) (room : Nat) :
    Gives read (room + 4) f.json f.asRead := by
  have hversion : Gives (Json.readWord versionBound) (room + 3) (.ofNat f.version.toNat)
      f.version.toNat :=
    Json.gives_word f.version.toNat_lt (Nat.lt_trans f.version.toNat_lt (by decide)) (room + 3)
  have hseq := Json.brings_word f.seq h.seq h.seq (room + 3)
  have hrequestId := Json.brings_text (room + 3) f.requestId
  have hkind := gives_kind f.body (room + 3)
  rcases f.body.fits_and_reads h.times h.values room with ⟨hbody, hreads⟩
  have hfits := List.Forall₂.cons (Json.required_fits "protocolVersion" hversion) <|
    .cons (Json.optionally_fits "seq" hseq) <|
    .cons (Json.optionally_fits "requestId" hrequestId) <|
    .cons (Json.required_fits "type" hkind) hbody
  intro o ho
  -- The outline is walked over twice, and each time the fields of the other walk are passed over.
  have hnames := f.body.toKind.names_nodup
  rcases Json.readFields_finds hfits hnames
    (List.subset_append_left commonFields f.body.toKind.fields) ho with ⟨common, hcommon, hfinds⟩
  rcases Json.readFields_finds hfits hnames
    (List.subset_append_right commonFields f.body.toKind.fields) ho with ⟨own, hown, hfindsOwn⟩
  rcases hfinds with _ | ⟨fversion, _ | ⟨fseq, _ | ⟨frequestId, _ | ⟨fkind, -⟩⟩⟩⟩
  rcases hfindsOwn with _ | ⟨-, _ | ⟨-, _ | ⟨-, _ | ⟨-, hfindsOwn⟩⟩⟩⟩
  have hbodyFinds : List.Forall₂ (Json.Fields.Finds ⟨room + 3, own⟩) f.body.toKind.fields
      f.body.members :=
    ((List.forall₂_and_left _ _).mpr ⟨fun _ hf => hf, hfindsOwn⟩).imp fun _ _ h => h.2 h.1
  have hversion := (fversion (by simp [commonFields])).get hversion
  have hseq := (fseq (by simp [commonFields])).getD hseq
  have hrequestId := (frequestId (by simp [commonFields])).getD hrequestId
  have hkind := (fkind (by simp [commonFields])).get hkind
  rcases Json.Outline.tree?_obj ho with ⟨inner, members, hroom, rfl, -⟩
  simp only [read, Json.readRecord, hcommon, hown, bind, Except.bind, Nat.add_one_sub_one, hkind,
    hreads own hbodyFinds, hversion, Json.Fields.get?, hseq, hrequestId]
  rw [UInt16.ofNat_toNat, asRead]

/-! ### Texts -/

/-- What a frame holds besides free values survives. -/
theorem json_survives (f : Frame)
    (h : ∀ call ∈ f.body.calls, ∀ v ∈ call.values, v.Survives f.body.room) :
    f.json.Survives Json.depthLimit := by
  -- The frame is the first of the objects that are open.
  have hbody : ∀ entry ∈ f.body.members, ∀ m ∈ entry, m.2.Survives 126 := by
    rcases f with ⟨version, seq, requestId, body⟩
    cases body with
    | conversationUpsert c =>
        simp only [Body.members, List.forall_mem_singleton, Json.field_survives]
        exact c.json_survives 125
    | snapshot s =>
        simp only [Body.members, List.forall_mem_singleton, Json.field_survives]
        exact s.json_survives 123 h
    | toolState key call =>
        simp only [Body.members, Body.keyMembers, List.cons_append, List.nil_append,
          List.forall_mem_cons, Json.field_survives, Json.str_survives, true_and]
        exact ⟨call.json_survives 125 (h call List.mem_cons_self), by simp⟩
    | _ =>
        simp only [Body.members, Body.keyMembers, List.cons_append, List.nil_append,
          List.forall_mem_cons, Json.field_survives, Json.str_survives, List.not_mem_nil,
          false_implies, implies_true, and_self]
  have hlimit : Json.depthLimit = 126 + 1 := rfl
  rw [json, hlimit, Json.record_survives]
  simp only [List.cons_append, List.nil_append, List.forall_mem_cons, Json.field_survives,
    Json.field?_survives, Json.str_survives, Json.ofNat_survives, Option.forall_mem_map,
    implies_true, true_and]
  exact hbody

/-- A text is read like the tree that it denotes. -/
theorem decode_of_tree {text : String} {j : Json} {f : Frame}
    (hparse : Json.parse? text.toList = some j) (hgives : Gives read Json.depthLimit j f) :
    decode text = some f := by
  unfold Json.parse? at hparse
  split at hparse
  · next o ho =>
      simp only [decode, ho, hparse, Option.isSome_some, if_true, hgives o hparse]
      rfl
  · cases hparse

theorem json_type (f : Frame) : f.json.member? "type" = some (.str f.kind) := by
  rcases f with ⟨version, seq, requestId, body⟩
  cases seq <;> cases requestId <;> rfl

/-- Only the sequence number of a frame is written under its name, whatever the content is. -/
theorem json_seq (f : Frame) : f.json.member? "seq" = f.seq.map .ofNat := by
  rcases f with ⟨version, seq, requestId, body⟩
  cases seq with
  | some n => rfl
  | none => cases requestId <;> cases body <;> rfl

/-- A frame is read back from its text, but for the results and errors of tool calls that are
    null. What is handed to connections with the text is in the text: the kind and the sequence
    number are members of it. -/
theorem outgoing_read_back (f : Frame) (h : f.Printable) :
    decode f.encode = some f.asRead ∧
    f.outgoing.text = f.encode ∧
    ∃ j, Json.parse? f.outgoing.text.toList = some j ∧
      j.member? "type" = some (.str f.body.kind) ∧ f.outgoing.kind = f.body.kind ∧
      j.member? "seq" = f.outgoing.seq.map .ofNat ∧ f.outgoing.seq = f.seq := by
  have hparse : Json.parse? f.encode.toList = some f.json := by
    rw [encode, Json.text, String.toList_ofList]
    exact f.json.parse?_chars (f.json_survives h.survives)
  exact ⟨decode_of_tree hparse (f.gives h 123), rfl, f.json, hparse, f.json_type, rfl, f.json_seq,
    rfl⟩

/-- A snapshot of a run whose only tool call has null for a result, and an error of some shape. -/
def nullResult : Frame :=
  event 7 <| .snapshot ⟨⟨"c", "r"⟩, ⟨0, 0⟩, "so far",
    [⟨"t", some "search", "done", none, some .null,
      some (.obj [("code", .ofNat 3), ("text", .str "late")])⟩]⟩

theorem nullResult_printable : nullResult.Printable where
  seq := by simp [nullResult, event, Json.wordBound]
  times := by
    simp only [nullResult, event, Body.times, List.mem_singleton, forall_eq]
    decide
  values := by
    simp only [nullResult, event, Body.calls, ToolCall.values, List.mem_singleton, forall_eq,
      Option.toList_some, List.singleton_append, List.forall_mem_cons]
    exact ⟨rfl, rfl⟩
  survives := by
    simp only [nullResult, event, Body.calls, ToolCall.values, List.mem_singleton, forall_eq,
      Option.toList_some, List.singleton_append, List.forall_mem_cons]
    simp [Body.room, Json.depthLimit, Json.Survives, Json.MembersSurvive, Json.ofNat_survives]

theorem nullResult_read_back : nullResult.Printable ∧
    decode nullResult.encode = some (event 7 <| .snapshot ⟨⟨"c", "r"⟩, ⟨0, 0⟩, "so far",
      [⟨"t", some "search", "done", none, none,
        some (.obj [("code", .ofNat 3), ("text", .str "late")])⟩]⟩) :=
  ⟨nullResult_printable, (outgoing_read_back nullResult nullResult_printable).1⟩

end Frame

end Switchboard

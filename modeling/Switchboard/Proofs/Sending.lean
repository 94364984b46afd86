import Mathlib.Data.Option.Basic
import Switchboard.Proofs.Json.Canonical
import Switchboard.Proofs.Json.Printed
import Switchboard.Proofs.Messages

/-!
# Messages That Are Sent

What becomes of a message that a client writes. The writer puts the members of a
message together in one piece, and the reader looks them up one by one, checks
each of them and trims the ids on the way. What the two agree on is therefore a
message whose ids are tidy, and it is what every other message turns into, unless
one of its ids is blank. Then the reader complains about the first of them.

The ids of a request are listed here with the names they are written under, in
the order in which they are read, so that the first one that is blank can be told
without the reader.

## Main definitions

* `Request.ids`: The ids that a request carries, by name.
* `Request.trimmed`, `ClientMessage.trimmed`: What is read back.
* `ClientMessage.Holds`: What is found under the names of a message.

## Theorems

* `ClientMessage.read?_encode`, `ClientMessage.json_holds`: What is in the text of a message.
* `ClientMessage.Holds.requestOf`: What its members are read as.
* `ClientMessage.decode_encode`: What a message is read as.
* `ClientMessage.tidy_of_decode`: What was read once has nothing to trim.
* `ClientMessage.sent_read_back`: Messages are read back but for blanks.
-/

namespace Switchboard

namespace Request

/-- The ids that a request carries, with the names they are written under, in the order in which
    they are read. -/
def ids : Request → List (String × String)
  | .subscribeSidebar => []
  | .subscribeConversation conversation => [("conversationId", conversation)]
  | .cancel key => [("conversationId", key.conversation), ("inflightId", key.run)]

/-- A request without the blanks at the ends of its ids. -/
def trimmed : Request → Request
  | .subscribeSidebar => .subscribeSidebar
  | .subscribeConversation conversation => .subscribeConversation (Text.trim conversation)
  | .cancel key => .cancel ⟨Text.trim key.conversation, Text.trim key.run⟩

end Request

namespace ClientMessage

/-- A message without the blanks at the ends of its ids. -/
def trimmed (m : ClientMessage) : ClientMessage :=
  { m with request := m.request.trimmed }

/-! ### Texts of messages -/

/-- The members of a message are written in the order of their names. -/
theorem json_canonical (m : ClientMessage) : m.json.canonical = m.json := by
  refine Json.canonical_record
    ["conversationId", "inflightId", "protocolVersion", "requestId", "type"]
    (.cons (Json.field?_named _ _) <| .cons (Json.field?_named _ _) <|
      .cons (Json.field_named _ _) <| .cons (Json.field?_named _ _) <|
      .cons (Json.field_named _ _) .nil) (by decide) ?_
  simp only [List.forall_mem_cons, Json.field_canonical, Json.field?_canonical,
    Json.str_canonical, Json.ofNat_canonical, Option.forall_mem_map, implies_true,
    List.not_mem_nil, false_implies, and_self]

theorem json_survives (m : ClientMessage) : m.json.Survives Json.depthLimit := by
  have hlimit : Json.depthLimit = 126 + 1 := rfl
  rw [json, hlimit, Json.record_survives]
  simp only [List.forall_mem_cons, Json.field_survives, Json.field?_survives, Json.str_survives,
    Json.ofNat_survives, Option.forall_mem_map, implies_true, List.not_mem_nil, false_implies,
    and_self]

/-- The members of a message are in its text. -/
theorem read?_encode (m : ClientMessage) : Json.read? m.encode = some m.json := by
  have hparse : Json.parse? m.encode.toList = some m.json := by
    rw [encode, Json.text, String.toList_ofList]
    exact m.json.parse?_chars m.json_survives
  rw [Json.read?, hparse, Option.map_some, json_canonical]

/-- What is found under the names of a message. -/
structure Holds (m : ClientMessage) (members : List (String × Json)) : Prop where
  requestId : members.lookup "requestId" = m.requestId.map .str
  version : members.lookup "protocolVersion" = some (.ofNat protocolVersion.toNat)
  kind : members.lookup "type" = some (.str m.request.kind)
  ids : ∀ p ∈ m.request.ids, members.lookup p.1 = some (.str p.2)

theorem json_holds (m : ClientMessage) : ∃ members, m.json = .obj members ∧ m.Holds members := by
  rcases m with ⟨requestId, request⟩
  refine ⟨_, rfl, ?_, ?_, ?_, ?_⟩
  -- The request id, the version and the kind stand in every message, whatever is asked.
  · cases requestId <;> cases request <;> rfl
  · cases requestId <;> cases request <;> rfl
  · cases requestId <;> cases request <;> rfl
  · intro p hp
    -- A message has a member for each of its ids and no other text.
    cases request with
    | subscribeSidebar => cases hp
    | subscribeConversation conversation =>
        rcases List.mem_singleton.mp hp with rfl
        cases requestId <;> rfl
    | cancel key =>
        rcases List.mem_pair.mp hp with rfl | rfl
        · cases requestId <;> rfl
        · cases requestId <;> rfl

/-! ### Reading them -/

variable {members : List (String × Json)}

theorem Holds.requestIdOf {m : ClientMessage} (h : m.Holds members) :
    requestIdOf members = .ok m.requestId := by
  rw [ClientMessage.requestIdOf, h.requestId]
  cases m.requestId <;> rfl

theorem Holds.checkVersion {m : ClientMessage} (h : m.Holds members) :
    checkVersion members = .ok () :=
  (checkVersion_iff members).mpr h.version

/-- The first id that is blank is complained about, and if there is none the request is read
    without the blanks at the ends of its ids. -/
theorem Holds.requestOf {m : ClientMessage} (h : m.Holds members) :
    requestOf members =
      match m.request.ids.find? fun p => Text.trim p.2 = "" with
      | some (name, _) => .error (.noField name)
      | none => .ok m.request.trimmed := by
  rcases m with ⟨requestId, request⟩
  have hkind := h.kind
  have hids := h.ids
  have hblanks (s : String) : (Text.allBlank s = true) = (Text.trim s = "") := by
    rw [← Text.trim_isEmpty, String.isEmpty_iff]
  simp only [ClientMessage.requestOf, h.checkVersion, hkind, bind, Except.bind]
  cases request with
  | subscribeSidebar => rfl
  | subscribeConversation conversation =>
      have hid := idOf_text _ _ _ (hids _ List.mem_cons_self)
      simp only [Request.kind, Request.ids, hid, hblanks, String.reduceEq, if_false, if_true]
      by_cases hblank : Text.trim conversation = "" <;> simp [hblank, Request.trimmed]
  | cancel key =>
      have hconversation := idOf_text _ _ _ (hids _ List.mem_cons_self)
      have hrun := idOf_text _ _ _ (hids _ (List.mem_cons_of_mem _ List.mem_cons_self))
      simp only [Request.kind, Request.ids, hconversation, hrun, hblanks, String.reduceEq, if_false,
        if_true]
      -- The run is only looked at if the conversation is not blank.
      by_cases hfirst : Text.trim key.conversation = ""
      · simp [hfirst]
      · by_cases hsecond : Text.trim key.run = "" <;> simp [hfirst, hsecond, Request.trimmed]

/-- What a message is read as. -/
theorem decode_encode (m : ClientMessage) :
    decode m.encode =
      match m.request.ids.find? fun p => Text.trim p.2 = "" with
      | some (name, _) => .error (.invalid m.requestId (.noField name))
      | none => .ok m.trimmed := by
  rcases m.json_holds with ⟨members, hjson, hholds⟩
  rw [decode, read?_encode, hjson]
  simp only [ofJson, hholds.requestIdOf, hholds.requestOf]
  cases m.request.ids.find? fun p => Text.trim p.2 = "" <;> rfl

/-! ### Every message -/

theorem GivesId.tidy {name id : String} (h : GivesId members name id) : Text.IsTidy id := by
  rcases h with ⟨s, -, ⟨c, hc, hblank⟩, rfl⟩
  refine Text.trim_tidy s ?_
  rw [Text.allBlank, List.all_eq_false]
  exact ⟨c, hc, by simp [hblank]⟩

/-- The ids of a message that was read are tidy. -/
theorem tidy_of_decode {text : String} {m : ClientMessage} (h : decode text = .ok m) :
    ∀ p ∈ m.request.ids, Text.IsTidy p.2 := by
  rcases m with ⟨requestId, request⟩
  rcases (decode_ok_iff text _).mp h with ⟨members, -, hmessage⟩
  have hrequest : Makes members request := hmessage.request
  cases hrequest with
  | subscribeSidebar hkind => exact fun p hp => absurd hp List.not_mem_nil
  | subscribeConversation hkind hconversation =>
      exact List.forall_mem_singleton.mpr hconversation.tidy
  | cancel hkind hconversation hrun =>
      exact List.forall_mem_cons.mpr
        ⟨hconversation.tidy, List.forall_mem_singleton.mpr hrun.tidy⟩

theorem trimmed_of_tidy {m : ClientMessage} (h : ∀ p ∈ m.request.ids, Text.IsTidy p.2) :
    m.trimmed = m := by
  rcases m with ⟨requestId, request⟩
  cases request with
  | subscribeSidebar => rfl
  | subscribeConversation conversation =>
      have hconversation := (h _ List.mem_cons_self).2
      simp only [trimmed, Request.trimmed, hconversation]
  | cancel key =>
      have hconversation := (h _ List.mem_cons_self).2
      have hrun := (h _ (List.mem_cons_of_mem _ List.mem_cons_self)).2
      simp only [trimmed, Request.trimmed, hconversation, hrun]

/-- Every message is read back from its text, but for the blanks at the ends of its ids, if each of
    them has a character that is not blank. Otherwise the reader complains about the first one
    that has none, and the complaint carries the request id of the message. A message that was
    read from whatever text is read back from its own text as it is. -/
theorem sent_read_back (m : ClientMessage) :
    ((∀ p ∈ m.request.ids, Text.trim p.2 ≠ "") → decode m.encode = .ok m.trimmed) ∧
    (∀ before name id after, m.request.ids = before ++ (name, id) :: after →
      (∀ p ∈ before, Text.trim p.2 ≠ "") → Text.trim id = "" →
        decode m.encode = .error (.invalid m.requestId (.noField name))) ∧
    ∀ text, decode text = .ok m → decode m.encode = .ok m := by
  have hread := m.decode_encode
  have hgood : (∀ p ∈ m.request.ids, Text.trim p.2 ≠ "") → decode m.encode = .ok m.trimmed := by
    intro hids
    have hnone : (m.request.ids.find? fun p => Text.trim p.2 = "") = none :=
      List.find?_eq_none.mpr fun p hp => by simpa using hids p hp
    rw [hread, hnone]
  refine ⟨hgood, fun before name id after hids hbefore hblank => ?_, fun text htext => ?_⟩
  -- The ids are checked in the order in which they stand, so the first blank one is complained
  -- about.
  · have hfirst : (m.request.ids.find? fun p => Text.trim p.2 = "") = some (name, id) := by
      rw [hids]
      refine List.find?_eq_some_iff_append.mpr ⟨by simpa using hblank, before, after, rfl, ?_⟩
      exact fun p hp => by simpa using hbefore p hp
    rw [hread, hfirst]
  -- A text that was accepted had its ids trimmed, so sending the message again changes nothing.
  · have htidy := tidy_of_decode htext
    have hids : ∀ p ∈ m.request.ids, Text.trim p.2 ≠ "" := by
      intro p hp hempty
      have hblank : (Text.trim p.2).isEmpty = true := String.isEmpty_iff.mpr hempty
      rw [Text.trim_isEmpty, (htidy p hp).1] at hblank
      cases hblank
    rw [hgood hids, trimmed_of_tidy htidy]

end ClientMessage

end Switchboard

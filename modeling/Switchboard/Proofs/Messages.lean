import Switchboard.Proofs.Requests
import Switchboard.Proofs.Text.Tidy

/-!
# Texts That Are Messages

Which texts are messages of a client, said without the order in which they are
checked: a text is a message if it is a JSON object whose members give a
request id, or none, the version that is spoken and a request. Only the members
that the request asks for matter, and an id among them is any text that is not
blank, without the blanks at its ends.

A text that is no message is either no JSON or flawed. The flaw that is
reported depends on the order of the checks, but the request id that comes with
it does not: it is told whenever it can be.

## Main definitions

* `ClientMessage.GivesId`, `ClientMessage.GivesRequestId`: What members say of an id.
* `ClientMessage.Makes`: The request that members make.
* `ClientMessage.IsMessage`: The message that members are.

## Theorems

* `ClientMessage.idOf_iff`, `ClientMessage.requestIdOf_iff`, `ClientMessage.checkVersion_iff`,
  `ClientMessage.requestOf_iff`: What each of the checks lets through.
* `ClientMessage.decode_ok_iff`: The texts that are messages.
* `ClientMessage.texts_understood`: What every text is taken for.
-/

namespace Switchboard

namespace ClientMessage

variable (members : List (String × Json))

/-! ### Messages -/

/-- Whether members give an id under a name: there is a text with a character that is not blank,
    and the id is that text without the blanks at its ends. -/
def GivesId (name id : String) : Prop :=
  ∃ s, members.lookup name = some (.str s) ∧ (∃ c ∈ s.toList, Text.isBlank c = false) ∧
    id = Text.trim s

/-- Whether members give a request id: a text, the text of a number, or none at all. -/
inductive GivesRequestId : Option String → Prop where
  | absent (h : members.lookup "requestId" = none) : GivesRequestId none
  | null (h : members.lookup "requestId" = some .null) : GivesRequestId none
  | text {s : String} (h : members.lookup "requestId" = some (.str s)) : GivesRequestId (some s)
  | number {n : Json.Number} (h : members.lookup "requestId" = some (.num n)) :
      GivesRequestId (some n.text)

/-- The request that members make. -/
inductive Makes : Request → Prop where
  | subscribeSidebar (kind : members.lookup "type" = some (.str "subscribe_sidebar")) :
      Makes .subscribeSidebar
  | subscribeConversation {conversation : String}
      (kind : members.lookup "type" = some (.str "subscribe_conversation"))
      (hconversation : GivesId members "conversationId" conversation) :
      Makes (.subscribeConversation conversation)
  | cancel {conversation run : String}
      (kind : members.lookup "type" = some (.str "cancel_inflight"))
      (hconversation : GivesId members "conversationId" conversation)
      (hrun : GivesId members "inflightId" run) : Makes (.cancel ⟨conversation, run⟩)

/-- The message that members are. -/
structure IsMessage (m : ClientMessage) : Prop where
  requestId : GivesRequestId members m.requestId
  /-- The version is an integer, and the one that is spoken. -/
  version : members.lookup "protocolVersion" = some (.ofNat protocolVersion.toNat)
  request : Makes members m.request

/-! ### Checks -/

theorem idOf_iff (name id : String) : idOf members name = .ok id ↔ GivesId members name id := by
  have hblank : ∀ s : String, (∃ c ∈ s.toList, Text.isBlank c = false) ↔
      (Text.trim s).isEmpty = false := by
    intro s
    rw [Text.trim_isEmpty, Text.allBlank, List.all_eq_false]
    simp
  -- Only a text that is more than blanks gives an identifier.
  unfold idOf GivesId
  cases members.lookup name with
  | none => simp
  | some value =>
      cases value with
      | str s =>
          simp only [Option.some.injEq, Json.str.injEq, exists_eq_left', hblank]
          cases (Text.trim s).isEmpty <;> simp [eq_comm]
      | _ => simp

/-- An id that is there is trimmed, and refused if it is blank. -/
theorem idOf_text (members : List (String × Json)) (name s : String)
    (h : members.lookup name = some (.str s)) :
    idOf members name =
      if Text.allBlank s then .error (.noField name) else .ok (Text.trim s) := by
  simp only [idOf, h, Text.trim_isEmpty]

theorem requestIdOf_iff (requestId : Option String) :
    requestIdOf members = .ok requestId ↔ GivesRequestId members requestId := by
  -- One case of the relation for each form of the member, in both directions.
  constructor
  · intro h
    unfold requestIdOf at h
    split at h
    · next hlookup =>
        cases h
        exact .absent hlookup
    · next hlookup =>
        cases h
        exact .null hlookup
    · next s hlookup =>
        cases h
        exact .text hlookup
    · next n hlookup =>
        cases h
        exact .number hlookup
    · cases h
  · intro h
    cases h with
    | absent h | null h | text h | number h => simp only [requestIdOf, h]

theorem checkVersion_iff :
    checkVersion members = .ok () ↔
      members.lookup "protocolVersion" = some (.ofNat protocolVersion.toNat) := by
  -- Only one version is spoken, and only a whole number that is not negative is taken for one.
  have hone : ∀ w : UInt64, isSupportedVersion w.toNat = true ↔ w = 1 := by
    intro w
    rw [isSupportedVersion, beq_iff_eq, ← UInt64.toNat_inj]
    rfl
  have hspoken : Json.ofNat protocolVersion.toNat = .num (.whole 1) := rfl
  unfold checkVersion
  rw [hspoken]
  cases members.lookup "protocolVersion" with
  | none => simp
  | some value =>
      cases value with
      | num n =>
          cases n with
          | whole w =>
              simp only [Json.Number.word?, Option.some.injEq, Json.num.injEq,
                Json.Number.whole.injEq, ← hone]
              cases isSupportedVersion w.toNat <;> simp
          | below | double => simp [Json.Number.word?]
      | _ => simp

/-- The kinds of requests differ, so that at most one way to make a request is open. -/
theorem requestOf_iff (request : Request) :
    requestOf members = .ok request ↔ checkVersion members = .ok () ∧ Makes members request := by
  unfold requestOf
  cases checkVersion members with
  | error flaw => simp [bind, Except.bind]
  | ok u =>
      simp only [bind, Except.bind, true_and]
      -- The kind on the wire says which of the three messages is meant, and each reads its own ids.
      constructor
      · intro h
        split at h
        -- The kinds are tried one after the other, and then the ids that go with the kind are read.
        · next kind hkind =>
            split at h
            · next heq =>
                cases h
                exact .subscribeSidebar (heq ▸ hkind)
            split at h
            · next heq =>
                cases hconversation : idOf members "conversationId" with
                | error flaw => simp [hconversation] at h
                | ok conversation =>
                    simp only [hconversation, Except.ok.injEq] at h
                    subst h
                    exact .subscribeConversation (heq ▸ hkind) ((idOf_iff ..).mp hconversation)
            split at h
            · next heq =>
                cases hconversation : idOf members "conversationId" with
                | error flaw => simp [hconversation] at h
                | ok conversation =>
                    cases hrun : idOf members "inflightId" with
                    | error flaw => simp [hconversation, hrun] at h
                    | ok run =>
                        simp only [hconversation, hrun, Except.ok.injEq] at h
                        subst h
                        exact .cancel (heq ▸ hkind) ((idOf_iff ..).mp hconversation)
                          ((idOf_iff ..).mp hrun)
            cases h
        · cases h
      · intro h
        cases h with
        | subscribeSidebar hkind => simp [hkind]
        | subscribeConversation hkind hconversation =>
            simp [hkind, (idOf_iff ..).mpr hconversation]
        | cancel hkind hconversation hrun =>
            simp [hkind, (idOf_iff ..).mpr hconversation, (idOf_iff ..).mpr hrun]

/-! ### Every text -/

/-- A text is a message if and only if it is an object with the members of the message. -/
theorem decode_ok_iff (text : String) (m : ClientMessage) :
    decode text = .ok m ↔
      ∃ members, Json.read? text = some (.obj members) ∧ IsMessage members m := by
  have hmembers : ∀ members, ofJson (.obj members) = .ok m ↔ IsMessage members m := by
    intro members
    rcases m with ⟨requestId, request⟩
    -- The version is checked by the reader of the request.
    have hmessage : IsMessage members ⟨requestId, request⟩ ↔
        requestIdOf members = .ok requestId ∧ requestOf members = .ok request := by
      rw [requestIdOf_iff, requestOf_iff, checkVersion_iff]
      exact ⟨fun h => ⟨h.requestId, h.version, h.request⟩, fun ⟨hi, hv, hr⟩ => ⟨hi, hv, hr⟩⟩
    rw [hmessage]
    cases hid : requestIdOf members with
    | error flaw => simp [ofJson, hid]
    | ok id => cases hrequest : requestOf members <;> simp [ofJson, hid, hrequest]
  unfold decode
  cases Json.read? text with
  | none => simp
  | some j =>
      cases j with
      | obj members => simp [hmembers]
      | _ => simp [ofJson]

/-- What every text is taken for. It is reported as no JSON if and only if it is none, it is
    accepted if and only if it is a message, and in all other cases a flaw is reported. With a
    message and with a flaw alike comes the request id that can be told from the text. -/
theorem texts_understood (text : String) :
    (decode text = .error .invalidJson ↔ Json.read? text = none) ∧
    (∀ m, decode text = .ok m ↔
      ∃ members, Json.read? text = some (.obj members) ∧ IsMessage members m) ∧
    ((∃ requestId flaw, decode text = .error (.invalid requestId flaw)) ↔
      (∃ j, Json.read? text = some j) ∧
        ¬∃ members m, Json.read? text = some (.obj members) ∧ IsMessage members m) ∧
    (∀ m, decode text = .ok m → m.requestId = requestIdIn text) ∧
    ∀ requestId flaw, decode text = .error (.invalid requestId flaw) →
      requestId = requestIdIn text := by
  have hid := decode_requestId text
  refine ⟨decode_invalidJson text, decode_ok_iff text, ?_, fun m hm => ?_,
    fun requestId flaw hflaw => ?_⟩
  -- A text that is no JSON is told apart first, so that what is left unread is a refused message.
  · have hjson := decode_invalidJson text
    have hok := decode_ok_iff text
    cases hdecode : decode text with
    | ok m =>
        rcases (hok m).mp hdecode with ⟨members, hread, hmessage⟩
        simp only [reduceCtorEq, exists_false, false_iff, not_and, not_not]
        exact fun _ => ⟨members, m, hread, hmessage⟩
    | error e =>
        have hnone : ¬∃ members m, Json.read? text = some (.obj members) ∧
            IsMessage members m := by
          rintro ⟨members, m, hmessage⟩
          rw [(hok m).mpr ⟨members, hmessage⟩] at hdecode
          cases hdecode
        cases e with
        | invalidJson => simp [hjson.mp hdecode]
        | invalid requestId flaw =>
            have hread : Json.read? text ≠ none := fun h => by
              rw [hjson.mpr h] at hdecode
              cases hdecode
            exact ⟨fun _ => ⟨Option.ne_none_iff_exists'.mp hread, hnone⟩,
              fun _ => ⟨requestId, flaw, rfl⟩⟩
  · rwa [hm] at hid
  · rwa [hflaw] at hid

end ClientMessage

end Switchboard

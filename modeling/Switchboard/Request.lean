import Switchboard.Frame.Basic
import Switchboard.Json.Reader
import Switchboard.Text.Blank

/-!
# Requests

What a client writes to a connection: one JSON object for each request, with a
version, a kind, an optional id of its own choice and the ids that the kind
asks for.

The checks have an order, and the first one that fails is reported. The request
id is looked at before everything else, so that every later complaint carries
it.

## Main definitions

* `Request`: What a client asks for.
* `ClientMessage`: A request with its id.
* `ClientMessage.json`: The written form of a message.
* `RequestError`: Why a text is not a message.
* `ClientMessage.decode`: The message that a text denotes.

## Theorems

* `ClientMessage.decode_invalidJson`: A text that is not JSON is reported as such.
-/

namespace Switchboard

/-- What a client asks for. -/
inductive Request where
  | subscribeSidebar
  | subscribeConversation (conversation : String)
  | cancel (key : RunKey)
  deriving DecidableEq

/-- A request with the id that its reply carries. -/
structure ClientMessage where
  requestId : Option String
  request : Request
  deriving DecidableEq

/-- What is wrong with a JSON text that should be a request. -/
inductive RequestFlaw where
  | notObject
  | requestId
  | unsupportedVersion (version : Nat)
  | noVersion
  | noKind
  | unknownKind (kind : String)
  | noField (name : String)
  deriving DecidableEq

/-- Why a text is not a message. -/
inductive RequestError where
  | invalidJson
  | invalid (requestId : Option String) (flaw : RequestFlaw)
  deriving DecidableEq

namespace Request

/-- The kind of a request, as it is written. -/
def kind : Request → String
  | .subscribeSidebar => "subscribe_sidebar"
  | .subscribeConversation _ => "subscribe_conversation"
  | .cancel _ => "cancel_inflight"

end Request

namespace RequestFlaw

/-- The words for a flaw. -/
def message : RequestFlaw → String
  | .notObject => "message must be a JSON object"
  | .requestId => "requestId must be a string or number"
  | .unsupportedVersion version => "unsupported protocolVersion " ++ toString version
  | .noVersion => "missing or invalid protocolVersion"
  | .noKind => "missing 'type'"
  | .unknownKind kind => "unsupported message type '" ++ kind ++ "'"
  | .noField name => "missing or empty '" ++ name ++ "'"

end RequestFlaw

namespace RequestError

/-- The code of the reply to a text that is not a message. -/
def code : RequestError → ErrorCode
  | .invalidJson => .invalidJson
  | .invalid .. => .validation

/-- The id that the reply carries. -/
def requestId : RequestError → Option String
  | .invalidJson => none
  | .invalid requestId _ => requestId

/-- The words of the reply. -/
def message : RequestError → String
  | .invalidJson => "invalid json"
  | .invalid _ flaw => flaw.message

end RequestError

namespace ClientMessage

/-- The written form of a message, members sorted by key. -/
def json (m : ClientMessage) : Json :=
  let (conversation, run) := match m.request with
    | .subscribeSidebar => (none, none)
    | .subscribeConversation c => (some c, none)
    | .cancel key => (some key.conversation, some key.run)
  .record
    [Json.field? "conversationId" (conversation.map .str),
     Json.field? "inflightId" (run.map .str),
     Json.field "protocolVersion" (.ofNat protocolVersion.toNat),
     Json.field? "requestId" (m.requestId.map .str),
     Json.field "type" (.str m.request.kind)]

/-- The text of a message. -/
def encode (m : ClientMessage) : String :=
  m.json.text

/-- The request id in the members of a message: a string, or the text of a number. -/
def requestIdOf (members : List (String × Json)) : Except RequestFlaw (Option String) :=
  match members.lookup "requestId" with
  | none | some .null => .ok none
  | some (.str s) => .ok (some s)
  | some (.num n) => .ok (some n.text)
  | some _ => .error .requestId

/-- An id that has to be there: a string with a character that is not blank, without the
    blanks at its ends. -/
def idOf (members : List (String × Json)) (name : String) : Except RequestFlaw String :=
  match members.lookup name with
  | some (.str s) =>
    let id := Text.trim s
    if id.isEmpty then .error (.noField name) else .ok id
  | _ => .error (.noField name)

/-- The version is there and supported. -/
def checkVersion (members : List (String × Json)) : Except RequestFlaw Unit :=
  match members.lookup "protocolVersion" with
  | some (.num n) =>
    match n.word? with
    | some version =>
      if isSupportedVersion version then .ok () else .error (.unsupportedVersion version)
    | none => .error .noVersion
  | _ => .error .noVersion

/-- The request in the members of a message. -/
def requestOf (members : List (String × Json)) : Except RequestFlaw Request := do
  checkVersion members
  match members.lookup "type" with
  | some (.str kind) =>
    if kind = "subscribe_sidebar" then .ok .subscribeSidebar
    else if kind = "subscribe_conversation" then do
      let conversation ← idOf members "conversationId"
      .ok (.subscribeConversation conversation)
    else if kind = "cancel_inflight" then do
      let conversation ← idOf members "conversationId"
      let run ← idOf members "inflightId"
      .ok (.cancel ⟨conversation, run⟩)
    else .error (.unknownKind kind)
  | _ => .error .noKind

/-- The message that a JSON value denotes. -/
def ofJson (j : Json) : Except RequestError ClientMessage :=
  match j with
  | .obj members =>
    match requestIdOf members with
    | .error flaw => .error (.invalid none flaw)
    | .ok requestId =>
      match requestOf members with
      | .error flaw => .error (.invalid requestId flaw)
      | .ok request => .ok ⟨requestId, request⟩
  | _ => .error (.invalid none .notObject)

/-- The message that a text denotes. -/
def decode (s : String) : Except RequestError ClientMessage :=
  match Json.read? s with
  | none => .error .invalidJson
  | some j => ofJson j

/-- A text that is not JSON is reported as such, and nothing else is. -/
theorem decode_invalidJson (s : String) :
    decode s = .error .invalidJson ↔ Json.read? s = none := by
  rw [decode]
  split
  · next h => simp [h]
  · next j h =>
      simp only [h, reduceCtorEq, iff_false]
      unfold ofJson
      split
      · split
        · simp
        · split <;> simp
      · simp

end ClientMessage

end Switchboard

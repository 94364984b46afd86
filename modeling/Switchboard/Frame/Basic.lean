import Switchboard.Snapshot

/-!
# Frames

What the server writes to a connection: replies to requests, which carry the
id of the request, and events of a topic, which carry a sequence number of the
topic. The sidebar is one topic; every conversation is a topic of its own.

A frame is written as one flat object: version, sequence number, request id,
then the kind and the fields of the body.

## Main definitions

* `ErrorCode`: What is wrong with a request.
* `Frame.Body`, `Frame`: The content of a frame, and the frame.
* `SidebarEvent`, `ConversationEvent`: What happens on a topic.
* `Frame.ack`, `Frame.refusal`, `Frame.event`: The frames the server makes.
* `Frame.json`, `Frame.encode`: The written form of a frame.
* `Frame.Outgoing`, `Frame.outgoing`: A frame on its way to the connections that get it.

## Theorems

* `Frame.event_seq`: An event carries its sequence number and no request id.
-/

namespace Switchboard

/-- The version of the frames. -/
def protocolVersion : UInt16 := 1

/-- Whether a version is one the server speaks. -/
def isSupportedVersion (version : Nat) : Bool :=
  version == protocolVersion.toNat

/-- What is wrong with a request. -/
inductive ErrorCode where
  | invalidJson
  | validation
  | notFound
  deriving DecidableEq

namespace ErrorCode

/-- The names of the codes. -/
def names : List (String × ErrorCode) :=
  [("invalid_json", .invalidJson), ("validation_error", .validation), ("not_found", .notFound)]

/-- The name of a code. -/
def name : ErrorCode → String
  | .invalidJson => "invalid_json"
  | .validation => "validation_error"
  | .notFound => "not_found"

/-- Reads a code. -/
def read (emptyObject : Bool) : Json.Reads ErrorCode :=
  Json.readName emptyObject names

theorem lookup_name (c : ErrorCode) : names.lookup c.name = some c := by
  cases c <;> decide

end ErrorCode

/-- The content of a frame. -/
inductive Frame.Body where
  | ack
  | error (code : ErrorCode) (message : String)
  | conversationUpsert (conversation : Conversation)
  | conversationDelete (id : String)
  | snapshot (snapshot : Snapshot)
  | delta (key : RunKey) (text : String)
  | toolState (key : RunKey) (call : ToolCall)
  | turnFinal (key : RunKey) (status : FinalStatus)
  deriving BEq

/-- A frame. -/
structure Frame where
  version : UInt16
  /-- The number of the event on its topic. -/
  seq : Option Nat
  /-- The id of the request that is answered. -/
  requestId : Option String
  body : Frame.Body
  deriving BEq

/-- What happens on the sidebar. -/
inductive SidebarEvent where
  | upsert (conversation : Conversation)
  | delete (id : String)

/-- What happens to the runs of a conversation. -/
inductive ConversationEvent where
  /-- The state of a run, to be taken instead of what was known of it. -/
  | snapshot (snapshot : Snapshot)
  | delta (run : String) (text : String)
  | toolState (run : String) (call : ToolCall)
  | turnFinal (run : String) (status : FinalStatus)

namespace SidebarEvent

/-- The content of the frame that announces an event. -/
def body : SidebarEvent → Frame.Body
  | .upsert c => .conversationUpsert c
  | .delete id => .conversationDelete id

end SidebarEvent

namespace ConversationEvent

/-- The content of the frame that announces an event of a conversation. -/
def body (conversation : String) : ConversationEvent → Frame.Body
  | .snapshot s => .snapshot s
  | .delta run text => .delta ⟨conversation, run⟩ text
  | .toolState run call => .toolState ⟨conversation, run⟩ call
  | .turnFinal run status => .turnFinal ⟨conversation, run⟩ status

end ConversationEvent

namespace Frame

namespace Body

/-- The kind of a frame, as it is written. -/
def kind : Body → String
  | .ack => "ack"
  | .error .. => "error"
  | .conversationUpsert _ => "conversation_upsert"
  | .conversationDelete _ => "conversation_delete"
  | .snapshot _ => "inflight_snapshot"
  | .delta .. => "assistant_delta"
  | .toolState .. => "tool_state"
  | .turnFinal .. => "turn_final"

/-- The members that name a run. -/
def keyMembers (key : RunKey) : List (Option (String × Json)) :=
  [Json.field "conversationId" (.str key.conversation), Json.field "inflightId" (.str key.run)]

/-- The members of a frame after its kind. -/
def members : Body → List (Option (String × Json))
  | .ack => []
  | .error code message =>
    [Json.field "code" (.str code.name), Json.field "message" (.str message)]
  | .conversationUpsert c => [Json.field "conversation" c.json]
  | .conversationDelete id => [Json.field "conversationId" (.str id)]
  | .snapshot s => [Json.field "snapshot" s.json]
  | .delta key text => keyMembers key ++ [Json.field "delta" (.str text)]
  | .toolState key call => keyMembers key ++ [Json.field "tool" call.json]
  | .turnFinal key status => keyMembers key ++ [Json.field "status" (.str status.name)]

end Body

/-- The reply to a request that succeeded. -/
def ack (requestId : Option String) : Frame :=
  ⟨protocolVersion, none, requestId, .ack⟩

/-- The reply to a request that failed. -/
def refusal (code : ErrorCode) (requestId : Option String) (message : String) : Frame :=
  ⟨protocolVersion, none, requestId, .error code message⟩

/-- The frame of an event with its number on the topic. -/
def event (seq : Nat) (body : Body) : Frame :=
  ⟨protocolVersion, some seq, none, body⟩

theorem event_seq (seq : Nat) (body : Body) :
    (event seq body).seq = some seq ∧ (event seq body).requestId = none := ⟨rfl, rfl⟩

/-- The kind of a frame. -/
def kind (f : Frame) : String :=
  f.body.kind

/-- The written form of a frame. -/
def json (f : Frame) : Json :=
  .record
    ([Json.field "protocolVersion" (.ofNat f.version.toNat),
      Json.field? "seq" (f.seq.map .ofNat),
      Json.field? "requestId" (f.requestId.map .str),
      Json.field "type" (.str f.kind)] ++ f.body.members)

/-- The text of a frame. -/
def encode (f : Frame) : String :=
  f.json.text

/-- A frame on its way to connections. The text is made once and shared by all that get it. -/
structure Outgoing where
  kind : String
  seq : Option Nat
  text : String

/-- A frame as it is handed to connections. -/
def outgoing (f : Frame) : Outgoing :=
  ⟨f.kind, f.seq, f.encode⟩

end Frame

end Switchboard

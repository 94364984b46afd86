import Switchboard.Frame.Basic

/-!
# Reading Frames

The frame that a text denotes. The members of a frame may come in any order,
and those that belong neither to the frame nor to its kind are passed over,
although they have to be JSON within the usual limits.

## Main definitions

* `Frame.Kind`: The kinds of frames, in the order of their numbers.
* `Frame.readKind`: Reads a kind, given by name or number.
* `Frame.readBody`: Reads the content of a frame of a known kind.
* `Frame.decode`: The frame that a text denotes.
-/

namespace Switchboard

namespace Frame

/-- The kind of a frame. -/
inductive Kind where
  | ack
  | error
  | conversationUpsert
  | conversationDelete
  | snapshot
  | delta
  | toolState
  | turnFinal
  deriving DecidableEq

/-- The names of the kinds, in the order of their numbers. -/
def kindNames : List (String × Kind) :=
  [("ack", .ack), ("error", .error), ("conversation_upsert", .conversationUpsert),
   ("conversation_delete", .conversationDelete), ("inflight_snapshot", .snapshot),
   ("assistant_delta", .delta), ("tool_state", .toolState), ("turn_final", .turnFinal)]

/-- The kind of a content. -/
def Body.toKind : Body → Kind
  | .ack => .ack
  | .error .. => .error
  | .conversationUpsert _ => .conversationUpsert
  | .conversationDelete _ => .conversationDelete
  | .snapshot _ => .snapshot
  | .delta .. => .delta
  | .toolState .. => .toolState
  | .turnFinal .. => .turnFinal

theorem lookup_kind (b : Body) : kindNames.lookup b.kind = some b.toKind := by
  cases b <;> rfl

/-- Reads a kind: its name or its number. -/
def readKind : Json.Reads Kind
  | room, .num n => do
    let i ← Json.readWord kindNames.length room (.num n)
    match kindNames[i]? with
    | some (_, kind) => .ok kind
    | none => .error .mismatch
  | room, o => do
    let s ← Json.readText room o
    Json.named kindNames s

/-- The fields that name a run. -/
def keyFields : List Json.Field :=
  [.required "conversationId" Json.readText, .required "inflightId" Json.readText]

/-- The fields of a kind. -/
def Kind.fields : Kind → List Json.Field
  | .ack => []
  | .error => [.required "code" (ErrorCode.read true), .required "message" Json.readText]
  | .conversationUpsert => [.required "conversation" Conversation.read]
  | .conversationDelete => [.required "conversationId" Json.readText]
  | .snapshot => [.required "snapshot" (Snapshot.read true)]
  | .delta => keyFields ++ [.required "delta" Json.readText]
  | .toolState => keyFields ++ [.required "tool" ToolCall.read]
  | .turnFinal => keyFields ++ [.required "status" (FinalStatus.read true)]

/-- Reads the name of a run. -/
def readKey (fs : Json.Fields) : Except Json.Fault RunKey := do
  let conversation ← fs.get "conversationId" Json.readText
  let run ← fs.get "inflightId" Json.readText
  .ok ⟨conversation, run⟩

/-- The content of a frame of a known kind from its fields. -/
def readBody (fs : Json.Fields) : Kind → Except Json.Fault Body
  | .ack => .ok .ack
  | .error => do
    let code ← fs.get "code" (ErrorCode.read true)
    let message ← fs.get "message" Json.readText
    .ok (.error code message)
  | .conversationUpsert => do
    let c ← fs.get "conversation" Conversation.read
    .ok (.conversationUpsert c)
  | .conversationDelete => do
    let id ← fs.get "conversationId" Json.readText
    .ok (.conversationDelete id)
  | .snapshot => do
    let s ← fs.get "snapshot" (Snapshot.read true)
    .ok (.snapshot s)
  | .delta => do
    let key ← readKey fs
    let text ← fs.get "delta" Json.readText
    .ok (.delta key text)
  | .toolState => do
    let key ← readKey fs
    let call ← fs.get "tool" ToolCall.read
    .ok (.toolState key call)
  | .turnFinal => do
    let key ← readKey fs
    let status ← fs.get "status" (FinalStatus.read true)
    .ok (.turnFinal key status)

/-- The bound of protocol versions. -/
def versionBound : Nat := Nat.pow 2 16

/-- The fields that all frames have. -/
def commonFields : List Json.Field :=
  [.required "protocolVersion" (Json.readWord versionBound),
   .optionally "seq" (Json.readNullable (Json.readWord Json.wordBound)),
   .optionally "requestId" (Json.readNullable Json.readText),
   .required "type" readKind]

/-- Reads a frame from the outline of an object. -/
def read : Json.Reads Frame
  | room, .obj members closed => do
    let common ← Json.readRecord commonFields (fun fs => .ok fs) room (.obj members closed)
    let kind ← common.get "type" readKind
    -- The same members again, now that the kind says which of them are known.
    let own ← Json.readRecord kind.fields (fun fs => .ok fs) room (.obj members closed)
    let body ← readBody own kind
    let version ← common.get "protocolVersion" (Json.readWord versionBound)
    let seq ← common.get? "seq" (Json.readWord Json.wordBound)
    let requestId ← common.get? "requestId" Json.readText
    .ok ⟨UInt16.ofNat version, seq, requestId, body⟩
  | _, _ => .error .mismatch

/-- The frame that a text denotes. -/
def decode (s : String) : Option Frame :=
  match Json.Outline.ofChars s.toList with
  | (o, true) =>
    if (o.tree? Json.depthLimit).isSome then (read Json.depthLimit o).toOption else none
  | (_, false) => none

end Frame

end Switchboard

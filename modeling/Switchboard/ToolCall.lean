import Switchboard.Json.Record
import Switchboard.Json.Printer

/-!
# Tool Calls

A run calls tools, and the state of each call is shown to everybody who follows
the run. A provider never sends a whole state: it sends updates, in which every
field but the id may be missing. What is present overwrites, what is missing
stays as it was.

## Main definitions

* `ToolCall`: The state of a tool call.
* `ToolUpdate`: A change to a state.
* `ToolCall.ofUpdate`, `ToolCall.apply`: The state after a first and after a further update.
* `ToolCall.json`, `ToolCall.read`: The written form of a state.
* `ToolUpdate.json`, `ToolUpdate.read`: The written form of an update.

## Theorems

* `ToolCall.apply_id`: An update leaves the id of a state alone.
* `ToolCall.apply_bare`: An update without fields changes nothing.
-/

namespace Switchboard

/-- The state of a tool call. -/
structure ToolCall where
  id : String
  name : Option String
  /-- Where the call stands; the words are the provider's own. -/
  status : String
  stage : Option String
  result : Option Json
  error : Option Json
  deriving BEq

/-- A change to the state of a tool call. -/
structure ToolUpdate where
  id : String
  name : Option String
  status : Option String
  stage : Option String
  result : Option Json
  error : Option Json
  deriving BEq

namespace ToolUpdate

/-- An update that changes nothing. -/
def bare (id : String) : ToolUpdate :=
  ⟨id, none, none, none, none, none⟩

/-- The fields of an update. -/
def fields : List Json.Field :=
  [.required "id" Json.readText,
   .optionally "name" (Json.readNullable Json.readText),
   .optionally "status" (Json.readNullable Json.readText),
   .optionally "stage" (Json.readNullable Json.readText),
   .optionally "result" (Json.readNullable Json.readTree),
   .optionally "error" (Json.readNullable Json.readTree)]

/-- Reads an update. A field that is null is missing. -/
def read : Json.Reads ToolUpdate :=
  Json.readRecord fields fun fs => do
    let id ← fs.get "id" Json.readText
    let name ← fs.get? "name" Json.readText
    let status ← fs.get? "status" Json.readText
    let stage ← fs.get? "stage" Json.readText
    let result ← fs.get? "result" Json.readTree
    let error ← fs.get? "error" Json.readTree
    .ok ⟨id, name, status, stage, result, error⟩

/-- The written form of an update. -/
def json (u : ToolUpdate) : Json :=
  .record
    [Json.field "id" (.str u.id),
     Json.field? "name" (u.name.map .str),
     Json.field? "status" (u.status.map .str),
     Json.field? "stage" (u.stage.map .str),
     Json.field? "result" u.result,
     Json.field? "error" u.error]

end ToolUpdate

namespace ToolCall

/-- The status of a call whose first update says nothing about it. -/
def initialStatus : String := "requesting"

/-- The state after the first update for an id. -/
def ofUpdate (u : ToolUpdate) : ToolCall :=
  ⟨u.id, u.name, u.status.getD initialStatus, u.stage, u.result, u.error⟩

/-- The state after a further update. The id of the update is not looked at. -/
def apply (call : ToolCall) (u : ToolUpdate) : ToolCall :=
  { call with
    name := u.name <|> call.name
    status := u.status.getD call.status
    stage := u.stage <|> call.stage
    result := u.result <|> call.result
    error := u.error <|> call.error }

theorem apply_id (call : ToolCall) (u : ToolUpdate) : (call.apply u).id = call.id := rfl

theorem apply_bare (call : ToolCall) (id : String) : call.apply (.bare id) = call := rfl

/-- The fields of a state. -/
def fields : List Json.Field :=
  [.required "id" Json.readText,
   .optionally "name" (Json.readNullable Json.readText),
   .required "status" Json.readText,
   .optionally "stage" (Json.readNullable Json.readText),
   .optionally "result" (Json.readNullable Json.readTree),
   .optionally "error" (Json.readNullable Json.readTree)]

/-- Reads a state. -/
def read : Json.Reads ToolCall :=
  Json.readRecord fields fun fs => do
    let id ← fs.get "id" Json.readText
    let name ← fs.get? "name" Json.readText
    let status ← fs.get "status" Json.readText
    let stage ← fs.get? "stage" Json.readText
    let result ← fs.get? "result" Json.readTree
    let error ← fs.get? "error" Json.readTree
    .ok ⟨id, name, status, stage, result, error⟩

/-- The written form of a state. -/
def json (call : ToolCall) : Json :=
  .record
    [Json.field "id" (.str call.id),
     Json.field? "name" (call.name.map .str),
     Json.field "status" (.str call.status),
     Json.field? "stage" (call.stage.map .str),
     Json.field? "result" call.result,
     Json.field? "error" call.error]

end ToolCall

end Switchboard

import Switchboard.Json.Record
import Switchboard.Json.Printer

/-!
# JSON-RPC Responses

The answers of the tool surfaces in the format of JSON-RPC 2.0.

## Main definitions

* `Rpc.Code`: The error codes in use.
* `Rpc.Error`, `Rpc.Response`: An error, and an answer.
* `Rpc.Response.success`, `Rpc.Response.failure`: The two kinds of answer.
* `Rpc.Response.json`, `Rpc.Response.read`: The written form of an answer.
-/

namespace Switchboard

namespace Rpc

/-- The version of JSON-RPC. -/
def jsonrpcVersion : String := "2.0"

/-- The version of the tool protocol that is spoken over JSON-RPC. -/
def toolProtocolVersion : String := "2024-11-05"

/-- The error codes in use. -/
inductive Code where
  | parseError
  | invalidRequest
  | methodNotFound
  | invalidParams
  | internalError
  | domainConflict
  | capabilityUnavailable
  deriving DecidableEq

/-- The number of a code. -/
def Code.number : Code → Int
  | .parseError => -32700
  | .invalidRequest => -32600
  | .methodNotFound => -32601
  | .invalidParams => -32602
  | .internalError => -32603
  | .domainConflict => -32000
  | .capabilityUnavailable => -32001

/-- An error. -/
structure Error where
  code : Int
  message : String
  data : Option Json
  deriving BEq

/-- An answer. The server makes only answers with either a result or an error. -/
structure Response where
  jsonrpc : String
  id : Json
  result : Option Json
  error : Option Error
  deriving BEq

namespace Error

/-- An error with one of the codes in use and without data. -/
def plain (code : Code) (message : String) : Error :=
  ⟨code.number, message, none⟩

/-- An error with one of the codes in use and with data. -/
def withData (code : Code) (message : String) (data : Json) : Error :=
  ⟨code.number, message, some data⟩

/-- The body is not JSON. -/
def parseError : Error :=
  plain .parseError "Parse error"

/-- The method does not exist. -/
def methodNotFound (method : String) : Error :=
  plain .methodNotFound ("Method not found: " ++ method)

/-- The written form of an error. -/
def json (e : Error) : Json :=
  .record
    [Json.field "code" (.ofInt e.code),
     Json.field "message" (.str e.message),
     Json.field? "data" e.data]

/-- The fields of an error. -/
def fields : List Json.Field :=
  [.required "code" Json.readInteger, .required "message" Json.readText,
   .optionally "data" (Json.readNullable Json.readTree)]

/-- Reads an error. -/
def read : Json.Reads Error :=
  Json.readRecord fields fun fs => do
    let code ← fs.get "code" Json.readInteger
    let message ← fs.get "message" Json.readText
    let data ← fs.get? "data" Json.readTree
    .ok ⟨code, message, data⟩

end Error

namespace Response

/-- The answer to a request that succeeded. -/
def success (id result : Json) : Response :=
  ⟨jsonrpcVersion, id, some result, none⟩

/-- The answer to a request that failed. -/
def failure (id : Json) (error : Error) : Response :=
  ⟨jsonrpcVersion, id, none, some error⟩

/-- The written form of an answer. -/
def json (r : Response) : Json :=
  .record
    [Json.field "jsonrpc" (.str r.jsonrpc),
     Json.field "id" r.id,
     Json.field? "result" r.result,
     Json.field? "error" (r.error.map Error.json)]

/-- The text of an answer. -/
def encode (r : Response) : String :=
  r.json.text

/-- The fields of an answer. -/
def fields : List Json.Field :=
  [.required "jsonrpc" Json.readText, .required "id" Json.readTree,
   .optionally "result" (Json.readNullable Json.readTree),
   .optionally "error" (Json.readNullable Error.read)]

/-- Reads an answer. -/
def read : Json.Reads Response :=
  Json.readRecord fields fun fs => do
    let jsonrpc ← fs.get "jsonrpc" Json.readText
    let id ← fs.get "id" Json.readTree
    let result ← fs.get? "result" Json.readTree
    let error ← fs.get? "error" Error.read
    .ok ⟨jsonrpc, id, result, error⟩

/-- The answer that a text denotes. -/
def decode (s : String) : Option Response :=
  (Json.ofText read s.toList).toOption

end Response

end Rpc

end Switchboard

import Switchboard.Rpc.Response
import Switchboard.RunError

/-!
# Toolboxes

A toolbox is what a tool surface offers: a name, the tools with their input
schemas, the resources, and a way to call a tool. Tools act on a state.

A call fails in one of a few ways, and each of them has its own form as a
JSON-RPC error, so that no two of them look alike.

## Main definitions

* `Rpc.ToolError`: How a call fails.
* `Rpc.ToolError.error`: The JSON-RPC error for a failed call.
* `Rpc.Tool`, `Rpc.Toolbox`: A tool, and a set of tools over a state.
-/

namespace Switchboard

namespace Rpc

/-- How a call of a tool fails. -/
inductive ToolError where
  | invalidParams (message : String) (details : Option Json)
  | notFound (tool : String)
  /-- Something the tool needs is not there. -/
  | capabilityUnavailable (capability message : String)
  | conflict (c : Conflict)
  | internal (message : String)

namespace ToolError

/-- The words for a failed call. -/
def message : ToolError → String
  | .invalidParams message _ => message
  | .notFound tool => "Tool not found: " ++ tool
  | .capabilityUnavailable _ message => message
  | .conflict c => c.message
  | .internal message => message

/-- The capability to answer prompts. -/
def chatProvider : String := "chat_provider"

/-- A run that cannot be started, as a failed call. -/
def ofRunError (e : RunError) : ToolError :=
  match e with
  | .conflict c => .conflict c
  | .noProvider => .capabilityUnavailable chatProvider e.message

/-- The JSON-RPC error for a failed call. -/
def error (e : ToolError) : Error :=
  match e with
  | .invalidParams message details =>
    .withData .invalidParams message
      (.record [Json.field "code" (.str "invalid_params"), Json.field? "details" details])
  | .notFound tool =>
    .withData .invalidParams e.message
      (.record [Json.field "code" (.str "tool_not_found"), Json.field "tool" (.str tool)])
  | .capabilityUnavailable capability message =>
    .withData .capabilityUnavailable message
      (.record [Json.field "capability" (.str capability),
        Json.field "code" (.str "capability_unavailable")])
  | .conflict c => .withData .domainConflict c.message c.json
  | .internal message => .plain .internalError message

end ToolError

/-- A tool as it is listed. -/
structure Tool where
  name : String
  description : String
  /-- The JSON schema of the arguments. -/
  inputSchema : Json

namespace Tool

/-- The written form of a tool, members sorted by key. -/
def json (t : Tool) : Json :=
  .record
    [Json.field "description" (.str t.description),
     Json.field "inputSchema" t.inputSchema,
     Json.field "name" (.str t.name)]

end Tool

/-- A set of tools over a state. -/
structure Toolbox (σ : Type) where
  name : String
  version : String
  tools : List Tool
  /-- The resources that can be read, given the state. -/
  resources : σ → List Json
  resourceTemplates : List Json
  /-- Call a tool by name with its arguments. -/
  call : (tool : String) → (arguments : Json) → σ → Except ToolError Json × σ

end Rpc

end Switchboard

import Switchboard.Rpc.Toolbox
import Switchboard.Text.Blank

/-!
# JSON-RPC Dispatch

From the bytes of a body to the answer of a toolbox.

The envelope is checked in a fixed order: the body is JSON, it is an object,
its id is a string, a number or null, the version is right, and there is a
method. From the second check on the id is known, and every complaint carries
it. A request without an id is a notification; it is carried out like any other
request but is not answered.

## Main definitions

* `Rpc.Request`: A request whose envelope is in order.
* `Rpc.Request.ofJson`: The request in a JSON value, or the complaint about it.
* `Rpc.Toolbox.perform`: What a method does and gives.
* `Rpc.Toolbox.handle`: The answer to a request.
* `Rpc.Toolbox.handleBody`: The answer to a body.

## Theorems

* `Rpc.Toolbox.handle_notification`: A notification is not answered.
* `Rpc.Toolbox.handle_id`: Every answer to a request carries its id.
-/

namespace Switchboard

namespace Rpc

/-- A request whose envelope is in order. -/
structure Request where
  /-- The id that the answer carries; a notification has none. -/
  id : Option Json
  method : String
  params : Json

namespace Request

/-- Whether a value may serve as an id. -/
def isId : Json → Bool
  | .str _ | .num _ | .null => true
  | _ => false

/-- The complaint about an envelope. -/
def complaint (message : String) : Error :=
  .plain .invalidRequest message

/-- The request in the members of an object with a known id. -/
def ofMembers (id : Option Json) (members : List (String × Json)) :
    Except (Json × Error) Request :=
  let reply := id.getD .null
  match members.lookup "jsonrpc" with
  | some (.str version) =>
    if version = jsonrpcVersion then
      match members.lookup "method" with
      | some (.str method) =>
        if method.isEmpty then .error (reply, complaint "missing method")
        else .ok ⟨id, method, (members.lookup "params").getD .null⟩
      | _ => .error (reply, complaint "missing method")
    else .error (reply, complaint "jsonrpc must be \"2.0\"")
  | _ => .error (reply, complaint "jsonrpc must be \"2.0\"")

/-- The request in a JSON value, or the complaint about it with the id to answer with. -/
def ofJson (j : Json) : Except (Json × Error) Request :=
  match j with
  | .obj members =>
    match members.lookup "id" with
    -- An id that is null is an id: the request is answered.
    | none => ofMembers none members
    | some id =>
      if isId id then ofMembers (some id) members
      else .error (.null, complaint "id must be a string, number, or null")
  | _ => .error (.null, complaint "request must be a JSON object")

end Request

namespace Toolbox

variable {σ : Type}

/-- What is told to a client that introduces itself. -/
def introduction (box : Toolbox σ) : Json :=
  .obj
    [("capabilities",
      .obj [("resources", .obj []), ("tools", .obj [("listChanged", .bool false)])]),
     ("protocolVersion", .str toolProtocolVersion),
     ("serverInfo", .obj [("name", .str box.name), ("version", .str box.version)])]

/-- The result of a call: the value itself and a text of it. A string is its own text. -/
def resultOf (value : Json) : Json :=
  let text := match value with
    | .str s => s
    | j => j.text
  .obj
    [("content", .arr [.obj [("text", .str text), ("type", .str "text")]]),
     ("isError", .bool false),
     ("structuredContent", value)]

/-- The error of a call with parameters that are not in order. -/
def badParams (message : String) : Error :=
  .plain .invalidParams message

/-- The tool and the arguments that the parameters of a call name. -/
def callParams (params : Json) : Except Error (String × Json) :=
  match params with
  | .obj members =>
    match members.lookup "name" with
    | some (.str name) =>
      if Text.allBlank name then .error (badParams "missing tool name")
      else
        match members.lookup "arguments" with
        | none | some .null => .ok (name, .obj [])
        | some (.obj arguments) => .ok (name, .obj arguments)
        | some _ => .error (badParams "arguments must be an object")
    | _ => .error (badParams "missing tool name")
  | _ => .error (badParams "params must be an object")

/-- Call the tool that the parameters name. -/
def callTool (box : Toolbox σ) (params : Json) (s : σ) : Except Error Json × σ :=
  match callParams params with
  | .error e => (.error e, s)
  | .ok (name, arguments) =>
    match box.call name arguments s with
    | (.ok value, s) => (.ok (resultOf value), s)
    | (.error e, s) => (.error e.error, s)

/-- What a method does and gives. -/
def perform (box : Toolbox σ) (method : String) (params : Json) (s : σ) : Except Error Json × σ :=
  if method = "initialize" then (.ok box.introduction, s)
  else if method = "resources/list" then
    (.ok (.obj [("resources", .arr (box.resources s))]), s)
  else if method = "resources/listTemplates" then
    (.ok (.obj [("resourceTemplates", .arr box.resourceTemplates)]), s)
  else if method = "tools/list" then
    (.ok (.obj [("tools", .arr (box.tools.map Tool.json))]), s)
  else if method = "tools/call" then box.callTool params s
  else (.error (.methodNotFound method), s)

/-- The answer to a request, and the state after it. -/
def handle (box : Toolbox σ) (request : Request) (s : σ) : Option Response × σ :=
  let (outcome, s) := box.perform request.method request.params s
  let answer := request.id.map fun id =>
    match outcome with
    | .ok result => .success id result
    | .error e => .failure id e
  (answer, s)

/-- The answer to the characters of a body, and the state after it. -/
def handleText (box : Toolbox σ) (body : List Char) (s : σ) : Option Response × σ :=
  match Json.parse? body with
  | none => (some (.failure .null .parseError), s)
  | some j =>
    match Request.ofJson j.canonical with
    | .error (id, e) => (some (.failure id e), s)
    | .ok request => box.handle request s

/-- The answer to a body, and the state after it. -/
def handleBody (box : Toolbox σ) (body : ByteArray) (s : σ) : Option Response × σ :=
  box.handleText (Json.ofBytes body) s

theorem handle_notification (box : Toolbox σ) (request : Request) (s : σ)
    (h : request.id = none) : (box.handle request s).1 = none := by
  simp [handle, h]

theorem handle_id (box : Toolbox σ) (request : Request) (s : σ) (r : Response)
    (h : (box.handle request s).1 = some r) : request.id = some r.id := by
  simp only [handle, Option.map_eq_some_iff] at h
  obtain ⟨id, hid, rfl⟩ := h
  rw [hid]
  split <;> rfl

end Toolbox

end Rpc

end Switchboard

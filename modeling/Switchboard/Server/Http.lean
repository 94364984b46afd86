import Switchboard.Rpc.Dispatch
import Switchboard.Server.MediaType
import Switchboard.Tool.Runs

/-!
# HTTP

The requests that come in over HTTP: a sign of life, starting and cancelling a
run, and the two toolboxes. Cancelling also succeeds for a run that left a
short while ago, so that it can be repeated.

## Main definitions

* `Http.Request`, `Http.Response`: A request and the answer.
* `Http.Request.path`: The path that a request is about.
* `Http.StartBody`, `Http.cancelBody`: The bodies of the two requests about runs.
* `Http.startRun`, `Http.cancelRun`: Those requests.
* `Http.handle`: The answer to a request, and the state after it.

## Theorems

* `Http.withoutHost_slash`: A target that begins with its path is that path.
* `Http.cancelKey_status`: Cancelling answers 200 or 404.
-/

namespace Switchboard

namespace Http

/-- A request. -/
structure Request where
  method : String
  /-- What is asked for, as it is written in the request. -/
  target : String
  contentType : Option String
  /-- The characters of the body. -/
  body : List Char

/-- Whether a character may stand in the scheme of a target. -/
def isSchemeChar (c : Char) : Bool :=
  c.isAlphanum || c == '+' || c == '-' || c == '.'

/-- Whether a target goes on with its query or its fragment. -/
def endsPath (c : Char) : Bool :=
  c == '?' || c == '#'

/-- A target without the scheme and the host that may stand in front of the path. -/
def withoutHost (target : List Char) : List Char :=
  match target.dropWhile isSchemeChar with
  | ':' :: '/' :: '/' :: rest => rest.dropWhile fun c => c != '/' && !endsPath c
  | _ => target

theorem withoutHost_slash (cs : List Char) : withoutHost ('/' :: cs) = '/' :: cs := by
  simp [withoutHost, List.dropWhile, isSchemeChar]

/-- The path that a request is about: its target without scheme and host, query and fragment. -/
def Request.path (request : Request) : String :=
  String.ofList ((withoutHost request.target.toList).takeWhile fun c => !endsPath c)

/-- The body of an answer. -/
inductive Body where
  | none
  | text (s : String)
  | json (j : Json)

/-- An answer. -/
structure Response where
  status : Nat
  body : Body

/-- An answer without a body. -/
def bare (status : Nat) : Response :=
  ⟨status, .none⟩

/-- What is asked of a run that is to be started. -/
structure StartBody where
  conversation : String
  run : Option String
  prompt : String

namespace StartBody

/-- The fields of the body. -/
def fields : List Json.Field :=
  [.required "conversationId" Json.readText,
   .optionally "inflightId" (Json.readNullable Json.readText),
   .required "prompt" Json.readText]

/-- Reads the body. -/
def read : Json.Reads StartBody :=
  Json.readRecord fields fun fs => do
    let conversation ← fs.get "conversationId" Json.readText
    let run ← fs.get? "inflightId" Json.readText
    let prompt ← fs.get "prompt" Json.readText
    .ok ⟨conversation, run, prompt⟩

end StartBody

/-- Reads the name of a run that is to be cancelled. -/
def cancelBody : Json.Reads RunKey :=
  Json.readRecord
    [.required "conversationId" Json.readText, .required "inflightId" Json.readText]
    fun fs => do
      let conversation ← fs.get "conversationId" Json.readText
      let run ← fs.get "inflightId" Json.readText
      .ok ⟨conversation, run⟩

/-- The status of the answer to a body that cannot be read. -/
def faultStatus : Json.Fault → Nat
  | .malformed => 400
  | .mismatch => 422

/-- The body of a request that has to be JSON, or the answer if it is not. -/
def readBody {α : Type} (read : Json.Reads α) (request : Request) : Except Response α :=
  if request.contentType.any MediaType.isJson then
    match Json.ofText read request.body with
    | .ok a => .ok a
    | .error fault => .error (bare (faultStatus fault))
  else .error (bare 415)

/-- The answer that tells of a conflict. -/
def conflictResponse (c : Conflict) : Response :=
  let status := match c.code with
    | .conversationNotFound => 404
    | .conversationArchived | .runInProgress => 409
  ⟨status, .json (.obj [("error", .str c.code.name), ("message", .str c.message)])⟩

/-- The answer to an attempt to start a run. -/
def startResponse : Except RunError Registration → Response
  | .ok registration => ⟨200, .json (ChatTools.startResult registration)⟩
  | .error (.conflict c) => conflictResponse c
  | .error .noProvider =>
    ⟨503, .json (.obj [("capability", .str Rpc.ToolError.chatProvider),
      ("error", .str "capability_unavailable")])⟩

/-- Start a run. -/
def startRun (occasion : Occasion) (request : Request) (s : Coordinator) :
    Response × Coordinator :=
  match readBody StartBody.read request with
  | .error response => (response, s)
  | .ok body =>
    let (result, s) := s.startRun occasion body.conversation body.run body.prompt
    (startResponse result, s)

/-- Cancel a run, or find that it left a short while ago. -/
def cancelKey (occasion : Occasion) (key : RunKey) (s : Coordinator) : Response × Coordinator :=
  let (cancelled, s) := s.cancelRun occasion.now key
  if cancelled || s.registry.wasFinalized key then
    (⟨200, .json (.obj [("status", .str "ok")])⟩, s)
  else (⟨404, .json (.obj [("error", .str "not_found")])⟩, s)

/-- Cancel the run that a request names. -/
def cancelRun (occasion : Occasion) (request : Request) (s : Coordinator) :
    Response × Coordinator :=
  match readBody cancelBody request with
  | .error response => (response, s)
  | .ok key => cancelKey occasion key s

/-- Let a toolbox answer. -/
def callToolbox (box : Rpc.Toolbox Coordinator) (request : Request) (s : Coordinator) :
    Response × Coordinator :=
  match box.handleText request.body s with
  | (some response, s) => (⟨200, .json response.json⟩, s)
  | (none, s) => (bare 202, s)

/-- A handler of requests that have to be posted. -/
def posted (request : Request) (s : Coordinator)
    (handler : Request → Coordinator → Response × Coordinator) : Response × Coordinator :=
  if request.method = "POST" then handler request s else (bare 405, s)

/-- The answer to a request, and the state after it. A request for a connection that is not
    asked for in the way connections are is refused. -/
def handle (occasion : Occasion) (request : Request) (s : Coordinator) : Response × Coordinator :=
  if request.path = "/health" then
    if request.method = "GET" then (⟨200, .text "ok"⟩, s)
    else if request.method = "HEAD" then (⟨200, .text ""⟩, s)
    else (bare 405, s)
  else if request.path = "/ws" then
    (if request.method = "GET" then bare 400 else bare 405, s)
  else if request.path = "/chat/start" then posted request s (startRun occasion)
  else if request.path = "/chat/cancel" then posted request s (cancelRun occasion)
  else if request.path = "/mcp/chat" then
    posted request s (callToolbox (ChatTools.toolbox occasion))
  else if request.path = "/mcp/runs" then posted request s (callToolbox RunTools.toolbox)
  else (bare 404, s)

theorem cancelKey_status (occasion : Occasion) (key : RunKey) (s : Coordinator) :
    (cancelKey occasion key s).1.status = 200 ∨ (cancelKey occasion key s).1.status = 404 := by
  simp only [cancelKey]
  split <;> simp

end Http

end Switchboard

import Switchboard.Coordinator
import Switchboard.Request

/-!
# Connections

The server's side of one connection. Every request is answered by one frame at
once; the frames of the topics wait in the mailbox and are written between
requests. The server pings at fixed intervals and closes a connection on which
nothing came in for too long.

Requests, frames of topics, pings and the deadline are steps of their own, in
whatever order they become due.

## Main definitions

* `Inbound`, `Outbound`: What comes in and what goes out.
* `Connection`: The state of a connection that is open.
* `Connection.answer`: The reply to a request and what the request does.
* `Connection.open?`: A new connection.
* `Connection.receive`, `Connection.forward?`, `Connection.beat`, `Connection.expire`: The steps.

## Theorems

* `Connection.answer_seq`: Replies have no sequence number.
* `Connection.receive_deadline`: Every message that is not an end puts the deadline off.
-/

namespace Switchboard

/-- What comes in on a connection. -/
inductive Inbound where
  | text (s : String)
  | binary
  | ping (data : String)
  | pong
  | close
  /-- The connection broke. -/
  | lost

/-- The largest number of bytes that a ping can carry. -/
def Inbound.largestPing : Nat := 125

/-- What arrives of what was sent: a ping that carries too much breaks the connection. -/
def Inbound.arriving : Inbound → Inbound
  | .ping data => if data.utf8ByteSize ≤ largestPing then .ping data else .lost
  | m => m

/-- What goes out on a connection. -/
inductive Outbound where
  | frame (f : Frame)
  | ping
  | pong (data : String)
  | close (code : Nat) (reason : String)
  /-- Nothing more will follow. -/
  | ended

/-- The state of a connection that is open. Times are in milliseconds. -/
structure Connection where
  /-- The number of the connection in the hub. -/
  id : Nat
  heartbeat : Nat
  idleTimeout : Nat
  /-- The time of the next ping. -/
  nextPing : Nat
  /-- The time at which the connection is closed if nothing comes in. -/
  deadline : Nat

namespace Connection

/-- The code with which a silent connection is closed. -/
def idleCode : Nat := 4000

/-- The reason that is given when a silent connection is closed. -/
def idleReason : String := "idle timeout"

/-- The largest number of frames that a mailbox can be made for. -/
def largestCapacity : Nat := Nat.pow 2 61 - 1

/-- The last point in time that can be told, in milliseconds. -/
def latestTime : Nat := Nat.pow 2 63 * 1000 - 1

/-- Whether connections can be served with a configuration: there is a time between pings, the
    mailbox can be made and the deadline can be told. -/
def canServe (config : ServerConfig) (clock : Nat) : Bool :=
  0 < config.heartbeat && config.outboundCapacity ≤ largestCapacity &&
    clock + config.idleTimeout ≤ latestTime

/-- A new connection, attached to the hub. -/
def open? (config : ServerConfig) (clock : Nat) (s : Coordinator) :
    Option (Connection × Coordinator) :=
  if canServe config clock then
    let (id, hub) := s.hub.attach config.outboundCapacity
    some (⟨id, config.heartbeat, config.idleTimeout, clock + config.heartbeat,
      clock + config.idleTimeout⟩, { s with hub })
  else none

/-- The reply to a run that cannot be cancelled. -/
def noSuchRun (requestId : Option String) (key : RunKey) : Frame :=
  .refusal .notFound requestId
    ("no active run " ++ key.run ++ " in conversation " ++ key.conversation)

/-- Carry out a request and give the reply. -/
def perform (id : Nat) (now : Timestamp) (m : ClientMessage) (s : Coordinator) :
    Frame × Coordinator :=
  match m.request with
  | .subscribeSidebar => (.ack m.requestId, (s.subscribeSidebar? id).getD s)
  | .subscribeConversation conversation =>
    (.ack m.requestId, ((s.subscribe? id conversation).map (·.2)).getD s)
  | .cancel key =>
    match s.cancelRun now key with
    | (true, s) => (.ack m.requestId, s)
    | (false, s) => (noSuchRun m.requestId key, s)

/-- The reply to a text and what the request in it does. -/
def answer (id : Nat) (now : Timestamp) (text : String) (s : Coordinator) : Frame × Coordinator :=
  match ClientMessage.decode text with
  | .error e => (.refusal e.code e.requestId e.message, s)
  | .ok m => perform id now m s

/-- A connection on which something came in. -/
def heard (c : Connection) (clock : Nat) : Connection :=
  { c with deadline := clock + c.idleTimeout }

/-- Leave the hub. The mailbox is closed. -/
def leave (c : Connection) (s : Coordinator) : Coordinator :=
  { s with hub := (s.hub.detach c.id).closeMailbox c.id }

/-- Something came in. There is what is written at once, the connection if it stays open, and
    the state after it. -/
def receive (c : Connection) (clock : Nat) (now : Timestamp) (m : Inbound) (s : Coordinator) :
    List Outbound × Option Connection × Coordinator :=
  match m with
  | .text text =>
    let (reply, s) := answer c.id now text s
    ([.frame reply], some (c.heard clock), s)
  | .ping data => ([.pong data], some (c.heard clock), s)
  | .binary | .pong => ([], some (c.heard clock), s)
  | .close | .lost => ([.ended], none, c.leave s)

/-- Write the first frame of the mailbox. -/
def forward? (c : Connection) (s : Coordinator) : Option (List Outbound × Coordinator) :=
  (s.hub.take? c.id).map fun (f, hub) => ([.frame f], { s with hub })

/-- Ping, and set the time of the next ping. -/
def beat (c : Connection) : List Outbound × Connection :=
  ([.ping], { c with nextPing := c.nextPing + c.heartbeat })

/-- Close a connection that was silent for too long. -/
def expire (c : Connection) (s : Coordinator) : List Outbound × Coordinator :=
  ([.close idleCode idleReason, .ended], c.leave s)

theorem perform_seq (id : Nat) (now : Timestamp) (m : ClientMessage) (s : Coordinator) :
    (perform id now m s).1.seq = none ∧ (perform id now m s).1.requestId = m.requestId := by
  unfold perform
  split
  · exact ⟨rfl, rfl⟩
  · exact ⟨rfl, rfl⟩
  · split <;> exact ⟨rfl, rfl⟩

theorem answer_seq (id : Nat) (now : Timestamp) (text : String) (s : Coordinator) :
    (answer id now text s).1.seq = none := by
  unfold answer
  split
  · rfl
  · exact (perform_seq ..).1

theorem receive_deadline (c c' : Connection) (clock : Nat) (now : Timestamp) (m : Inbound)
    (s : Coordinator) (h : (c.receive clock now m s).2.1 = some c') :
    c'.deadline = clock + c.idleTimeout := by
  cases m <;> simp only [receive, Option.some.injEq, reduceCtorEq] at h <;> rw [← h] <;> rfl

end Connection

end Switchboard

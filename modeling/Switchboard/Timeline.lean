import Switchboard.Connection

/-!
# Servers on a Timeline

A server with a clock that only moves when nothing is left to do. Whatever can
go on waits in a queue and goes on in turn: the drivers and the forwarders of
run tasks and the connections. When the queue is empty the clock moves to the
next time somebody waits for.

Every operation on the state has its own time of day and its own unused id, so
the order of the operations can be told from the times they leave behind.

The client at the other end of a connection answers pings at once.

## Main definitions

* `Timeline.Job`: What can go on.
* `Timeline.Socket`: A connection with what is under way in both directions.
* `Timeline`: The server, the clock and the queue.
* `Timeline.act`: An operation on the state.
* `Timeline.step`: The first job of the queue goes on.
* `Timeline.wait`: Time passes.
* `Timeline.connect`, `Timeline.send`, `Timeline.collect`: The client's side of a connection.
-/

namespace Switchboard

/-- What can go on. -/
inductive Timeline.Job where
  | drive (task : Nat)
  | forward (task : Nat)
  | serve (socket : Nat)
  deriving DecidableEq

/-- A connection with what is under way in both directions. -/
structure Timeline.Socket where
  /-- The connection, as long as it is open. -/
  connection : Option Connection
  /-- What was sent to the server and not yet read. -/
  inbox : List Inbound
  /-- What came from the server since it was looked at last. -/
  received : List Outbound

/-- A server on a timeline. -/
structure Timeline where
  config : ServerConfig
  coordinator : Coordinator
  /-- The time in milliseconds since the start. -/
  clock : Nat
  /-- The number of operations so far. -/
  operations : Nat
  sockets : Table Nat Timeline.Socket
  ready : List Timeline.Job

namespace Timeline

/-- A server that was just started. -/
def start (config : ServerConfig) (provider : Option Provider) : Timeline :=
  ⟨config, .ofConfig config provider, 0, 0, .empty, []⟩

/-- The id that belongs to an operation, in the form of a random id. -/
def idOf (n : Nat) : String :=
  let digits := Nat.toDigits 16 n
  "00000000-0000-4000-8000-" ++ String.ofList (List.replicate (12 - digits.length) '0' ++ digits)

/-- The time of day of the first operation, in seconds. -/
def startOfDay : Nat := 1700000000

/-- The number of nanoseconds in a second. -/
def second : Nat := 1000000000

/-- The occasion of an operation. -/
def occasionOf (n : Nat) : Occasion :=
  ⟨⟨(startOfDay + n / second : Nat), n % second⟩, idOf n⟩

/-- Put a job at the end of the queue, unless it is in it. -/
def push (t : Timeline) (job : Job) : Timeline :=
  if t.ready.contains job then t else { t with ready := t.ready ++ [job] }

/-- Put jobs at the end of the queue. -/
def pushAll (t : Timeline) (jobs : List Job) : Timeline :=
  jobs.foldl push t

/-- The tasks whose driver goes on because their run was cancelled. -/
def cancelledJobs (t : Timeline) : List Job :=
  t.coordinator.tasks.entries.filterMap fun (id, task) =>
    if t.coordinator.isCancelled id && task.heedsCancellation then some (.drive id) else none

/-- Whether a connection has something to read, to write or to end. -/
def isStirred (t : Timeline) (socket : Socket) (c : Connection) : Bool :=
  !socket.inbox.isEmpty || !(t.coordinator.hub.waiting c.id).isEmpty ||
    !t.coordinator.hub.roster.isAttached c.id

/-- The connections that can go on. -/
def stirredJobs (t : Timeline) : List Job :=
  t.sockets.entries.filterMap fun (id, socket) =>
    match socket.connection with
    | some c => if t.isStirred socket c then some (.serve id) else none
    | none => none

/-- The tasks that were launched. -/
def launchedJobs (t : Timeline) : List Job :=
  t.coordinator.tasks.entries.filterMap fun (id, task) =>
    match task.phase with
    | .launched => some (.drive id)
    | _ => none

/-- Queue everything that can go on after an operation. -/
def wake (t : Timeline) : Timeline :=
  ((t.pushAll t.cancelledJobs).pushAll t.stirredJobs).pushAll t.launchedJobs

/-- An operation on the state. -/
def act {α : Type} (t : Timeline) (op : Occasion → Coordinator → α × Coordinator) : α × Timeline :=
  let (a, coordinator) := op (occasionOf t.operations) t.coordinator
  (a, ({ t with coordinator, operations := t.operations + 1 }).wake)

/-- An operation on the state without a result. -/
def run (t : Timeline) (op : Occasion → Coordinator → Coordinator) : Timeline :=
  (t.act fun occasion s => ((), op occasion s)).2

/-! ### Jobs -/

/-- The driver of a task goes on. Its forwarder follows if there is something for it. -/
def drive (t : Timeline) (id : Nat) : Timeline :=
  match t.coordinator.tasks.get? id with
  | none => t
  | some task =>
    -- The forwarder has ended, which is what an ended driver waits for.
    if task.drained then t.run fun occasion s => s.finishTask occasion.now id
    else if task.isEnded then t
    else
      let t := t.run fun _ s => s.driveTask t.clock id
      match t.coordinator.tasks.get? id with
      | none => t
      | some task =>
        if task.forward?.isSome || task.isExhausted then t.push (.forward id) else t

/-- The forwarder of a task takes a step. It is said whether it goes on at once. A driver that
    waits for room goes on once there is some, and the driver of a task whose forwarder is done
    ends the run. -/
def forward (t : Timeline) (id : Nat) : Bool × Timeline :=
  match t.coordinator.tasks.get? id with
  | none => (false, t)
  | some task =>
    match t.coordinator.forwardTask? id with
    | some s =>
      let t := if (s.tasks.get? id).any (·.findsRoom) then t.push (.drive id) else t
      (true, t.run fun _ _ => s)
    | none =>
      if task.isExhausted && !task.drained then
        (false, (t.run fun _ s => s.drainTask id).push (.drive id))
      else (false, t)

/-- A socket on which the server wrote something. -/
def Socket.write (socket : Socket) (out : List Outbound) (connection : Option Connection) :
    Socket :=
  { socket with received := socket.received ++ out, connection }

/-- Set a socket. -/
def put (t : Timeline) (id : Nat) (socket : Socket) : Timeline :=
  { t with sockets := t.sockets.insert id socket }

/-- A connection takes a step. It is said whether it goes on at once. -/
def serve (t : Timeline) (id : Nat) : Bool × Timeline :=
  match t.sockets.get? id with
  | none => (false, t)
  | some socket =>
    match socket.connection with
    | none => (false, t)
    | some c =>
      match socket.inbox with
      | m :: rest =>
        let ((out, connection), t) := t.act fun occasion s =>
          let (out, connection, s) := c.receive t.clock occasion.now m s
          ((out, connection), s)
        (true, t.put id (({ socket with inbox := rest }).write out connection))
      | [] =>
        match c.forward? t.coordinator with
        | some (out, s) => (true, (t.put id (socket.write out (some c))).run fun _ _ => s)
        | none =>
          -- Nothing to read and nothing to write is left.
          if !t.coordinator.hub.roster.isAttached c.id then
            (false, (t.put id (socket.write [.ended] none)).run fun _ s => c.leave s)
          else if c.nextPing ≤ t.clock then
            -- The client answers at once.
            let (out, c) := c.beat
            (true, t.put id (({ socket with inbox := [.pong] }).write out (some c)))
          else if c.deadline ≤ t.clock then
            let (out, s) := c.expire t.coordinator
            (false, (t.put id (socket.write out none)).run fun _ _ => s)
          else (false, t)

/-- A job goes on. It is said whether it goes on at once. -/
def perform (t : Timeline) : Job → Bool × Timeline
  | .drive id => (false, t.drive id)
  | .forward id => t.forward id
  | .serve id => t.serve id

/-- The first job of the queue goes on; it stays first if it goes on at once. -/
def step (t : Timeline) (job : Job) (rest : List Job) : Timeline :=
  let (again, t) := ({ t with ready := rest }).perform job
  if again then { t with ready := job :: t.ready.erase job } else t

/-! ### Time -/

/-- The times somebody waits for, with who does. -/
def timers (t : Timeline) : List (Nat × Job) :=
  t.coordinator.tasks.entries.filterMap (fun (id, task) =>
      task.wakeTime?.map fun time => (time, .drive id)) ++
    t.sockets.entries.filterMap fun (id, socket) =>
      socket.connection.map fun c => (min c.nextPing c.deadline, .serve id)

/-- The earliest of some times. -/
def earliest (times : List Nat) : Option Nat :=
  times.foldl (fun best time => some ((best.map (min time)).getD time)) none

/-- Move the clock to a time and queue what waits for it. -/
def moveTo (t : Timeline) (time : Nat) : Timeline :=
  let t := { t with clock := max t.clock time }
  t.pushAll ((t.timers.filter fun timer => timer.1 ≤ t.clock).map (·.2))

/-- Let everything go on until a time. The bound limits the number of steps. -/
def runUntil (time : Nat) : (bound : Nat) → Timeline → Timeline
  | 0, t => t
  | bound + 1, t =>
    match t.ready with
    | job :: rest => runUntil time bound (t.step job rest)
    | [] =>
      match earliest (t.timers.map (·.1)) with
      | some next =>
        -- Whoever waits until the very end of the wait goes on in the next one.
        if next < time then runUntil time bound (t.moveTo next)
        else { t with clock := max t.clock time }
      | none => { t with clock := max t.clock time }

/-- More steps than anything takes within a wait. -/
def stepBound : Nat := Nat.pow 2 40

/-- Time passes. -/
def wait (t : Timeline) (ms : Nat) : Timeline :=
  t.runUntil (Clock.after t.clock ms) stepBound

/-! ### The client's side -/

/-- Open a connection. A server that cannot serve it ends it at once. -/
def connect (t : Timeline) : Nat × Timeline :=
  let id := t.sockets.size
  match Connection.open? t.config t.clock t.coordinator with
  | some (c, s) => (id, ({ t with coordinator := s }).put id ⟨some c, [], []⟩)
  | none => (id, t.put id ⟨none, [], [.ended]⟩)

/-- Whether a connection is open. -/
def isOpen (t : Timeline) (id : Nat) : Bool :=
  ((t.sockets.get? id).bind (·.connection)).isSome

/-- Send something to the server. -/
def send (t : Timeline) (id : Nat) (m : Inbound) : Timeline :=
  ({ t with sockets :=
    t.sockets.update id fun socket => { socket with inbox := socket.inbox ++ [m.arriving] } }).wake

/-- What came from the server since it was looked at last. -/
def collect (t : Timeline) (id : Nat) : List Outbound × Timeline :=
  match t.sockets.get? id with
  | none => ([], t)
  | some socket => (socket.received, t.put id { socket with received := [] })

end Timeline

end Switchboard

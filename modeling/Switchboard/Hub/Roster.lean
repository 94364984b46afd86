import Switchboard.Frame.Basic
import Switchboard.Table

/-!
# The Roster of the Hub

Who follows what, and which number the next frame of a topic has. The sidebar
is one topic; every conversation that somebody follows is a topic, which is
made when the first one joins and forgotten when the last one leaves.

Nothing here depends on the queues of the connections: an operation says which
frames are addressed to whom, and what becomes of them is not its business.

## Main definitions

* `Topic`, `Subscriber`, `Roster`: A topic, what a connection follows, and everything together.
* `Delivery`: A frame that is addressed to a connection.
* `Roster.attach`, `Roster.detach`: Connections come and go.
* `Roster.joinSidebar?`, `Roster.joinConversation?`: A connection follows a topic.
* `Roster.publishSidebar`, `Roster.publish?`: A frame for everybody who follows a topic.

## Theorems

* `Topic.announce_seq`: A frame has the number of its topic, and the next one the next number.
* `Topic.announce_members`: A frame is addressed to every member and to nobody else.
-/

namespace Switchboard

/-- The number of the first frame of a topic. -/
def initialSeq : Nat := 1

/-- A topic. -/
structure Topic where
  /-- The number of the next frame. -/
  nextSeq : Nat
  /-- The connections that follow the topic. -/
  members : List Nat

/-- A frame that is addressed to a connection. -/
structure Delivery where
  connection : Nat
  frame : Frame

/-- What a connection follows. -/
structure Subscriber where
  sidebar : Bool
  conversations : List String

/-- Who follows what. -/
structure Roster where
  subscribers : Table Nat Subscriber
  sidebar : Topic
  topics : Table String Topic
  /-- The number of connections there have ever been. -/
  opened : Nat

namespace Topic

/-- A topic that nobody follows yet. -/
def fresh : Topic :=
  ⟨initialSeq, []⟩

/-- A topic with one more member. -/
def join (t : Topic) (connection : Nat) : Topic :=
  { t with members := t.members.insert connection }

/-- A topic with one member less. -/
def leave (t : Topic) (connection : Nat) : Topic :=
  { t with members := t.members.filter (· ≠ connection) }

/-- A topic whose next frame has the next number. -/
def numbered (t : Topic) : Topic :=
  { t with nextSeq := t.nextSeq + 1 }

/-- A frame for every member. -/
def announce (t : Topic) (body : Frame.Body) : List Delivery :=
  t.members.map fun connection => ⟨connection, .event t.nextSeq body⟩

theorem announce_seq (t : Topic) (body : Frame.Body) (d : Delivery) (h : d ∈ t.announce body) :
    d.frame.seq = some t.nextSeq := by
  simp only [announce, List.mem_map] at h
  obtain ⟨c, -, rfl⟩ := h
  rfl

theorem announce_members (t : Topic) (body : Frame.Body) :
    (t.announce body).map (·.connection) = t.members := by
  simp [announce, Function.comp_def]

end Topic

namespace Roster

/-- Nobody is there. -/
def fresh : Roster :=
  ⟨.empty, .fresh, .empty, 0⟩

/-- A connection comes. Its number is one that no connection had before. -/
def attach (r : Roster) : Nat × Roster :=
  (r.opened, { r with
    subscribers := r.subscribers.insert r.opened ⟨false, []⟩
    opened := r.opened + 1 })

/-- Whether a connection is there. -/
def isAttached (r : Roster) (connection : Nat) : Bool :=
  r.subscribers.contains connection

/-- The topics after a connection left one of them. -/
def leaveTopic (connection : Nat) (topics : Table String Topic) (conversation : String) :
    Table String Topic :=
  match topics.get? conversation with
  | none => topics
  | some t =>
    let t := t.leave connection
    if t.members.isEmpty then topics.erase conversation else topics.insert conversation t

/-- A connection goes, and leaves every topic. -/
def detach (r : Roster) (connection : Nat) : Roster :=
  match r.subscribers.get? connection with
  | none => r
  | some sub =>
    { r with
      subscribers := r.subscribers.erase connection
      sidebar := if sub.sidebar then r.sidebar.leave connection else r.sidebar
      topics := sub.conversations.foldl (leaveTopic connection) r.topics }

/-- Everybody goes, and every topic starts anew. -/
def reset (r : Roster) : Roster :=
  { fresh with opened := r.opened }

/-- A connection follows the sidebar. There is no result if it is not there. -/
def joinSidebar? (r : Roster) (connection : Nat) : Option Roster :=
  (r.subscribers.get? connection).map fun sub =>
    { r with
      subscribers := r.subscribers.insert connection { sub with sidebar := true }
      sidebar := r.sidebar.join connection }

/-- The topic of a conversation, made if it is not there. -/
def topic (r : Roster) (conversation : String) : Topic :=
  (r.topics.get? conversation).getD .fresh

/-- A connection follows a conversation. If it did not before and a run is active, the state of
    that run is addressed to it, and to nobody else. There is no result if the connection is
    not there. -/
def joinConversation? (r : Roster) (connection : Nat) (conversation : String)
    (active : Option Snapshot) : Option (List Delivery × Roster) :=
  (r.subscribers.get? connection).map fun sub =>
    let topic := (r.topic conversation).join connection
    let known := decide (conversation ∈ sub.conversations)
    let sub := { sub with conversations := sub.conversations.insert conversation }
    let r := { r with subscribers := r.subscribers.insert connection sub }
    -- The snapshot takes a number of the topic, so that it is ordered among the other frames.
    match known, active with
    | false, some snapshot =>
      ([⟨connection, .event topic.nextSeq (.snapshot snapshot)⟩],
        { r with topics := r.topics.insert conversation topic.numbered })
    | _, _ => ([], { r with topics := r.topics.insert conversation topic })

/-- A frame for everybody who follows the sidebar, with its number. -/
def publishSidebar (r : Roster) (event : SidebarEvent) : (Nat × List Delivery) × Roster :=
  ((r.sidebar.nextSeq, r.sidebar.announce event.body), { r with sidebar := r.sidebar.numbered })

/-- A frame for everybody who follows a conversation, with its number, if anybody does. -/
def publish? (r : Roster) (conversation : String) (event : ConversationEvent) :
    Option ((Nat × List Delivery) × Roster) :=
  (r.topics.get? conversation).map fun t =>
    ((t.nextSeq, t.announce (event.body conversation)),
      { r with topics := r.topics.insert conversation t.numbered })

/-- The number of connections that follow a conversation. -/
def followers (r : Roster) (conversation : String) : Nat :=
  ((r.topics.get? conversation).map fun t => t.members.length).getD 0

/-- The number of memberships in topics of conversations. -/
def memberships (r : Roster) : Nat :=
  r.topics.values.foldl (fun n t => n + t.members.length) 0

end Roster

end Switchboard

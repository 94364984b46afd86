import Switchboard.Proofs.Followers
import Switchboard.Proofs.Hub.Greetings
import Switchboard.Proofs.Hub.Presence
import Switchboard.Proofs.Registry.Action

/-!
# Joining a Conversation

When a connection is sent the state of a run because it joins a conversation:
what the hub knows about the connection and what the registry knows about the
conversation at that moment decide it together, and nothing else does. The hub
and the registry change independently of each other, so that the courses of
events here are longer than those of a coordinator: in between its moves anything
may happen to the hub and anything to the registry.

The state that is sent takes a number of the topic like an announcement. Since
nothing of the conversation was addressed to the connection before, and all that
is addressed to it later has a greater number, it is the first thing that the
connection is told about the conversation.

## Main definitions

* `Coordinator.Occurrence`: Something that happens to a coordinator, its hub or its registry.
* `Coordinator.occur`, `Coordinator.occurAll`: The state after it.
* `Coordinator.hubHistory`: What some occurrences do to the hub.
* `Coordinator.Greets`: A connection that joins is to be sent the state of a run.
* `Coordinator.joining`: Joining as an action on the hub.

## Theorems

* `Coordinator.occurAll_hub`: Occurrences reach the hub by their actions.
* `Coordinator.subscribe?_iff_greets`: When it is reported that the state of a run was sent.
* `Coordinator.join_greeted_once`: What comes of joining a conversation.
-/

namespace Switchboard

namespace Coordinator

/-! ### Courses of events -/

/-- Something that happens to a coordinator, or to its hub or its registry alone. -/
inductive Occurrence where
  | move (m : Move)
  | hub (a : Hub.Action)
  | registry (a : Registry.Action Callback)

/-- An action as the hub carries it out: it asks the registry for the run of a conversation that
    somebody joins. -/
def informed (s : Coordinator) : Hub.Action → Hub.Action
  | .follow connection conversation _ =>
    .follow connection conversation (s.activeRun conversation)
  | a => a

/-- The state after an occurrence. -/
def occur (s : Coordinator) : Occurrence → Coordinator
  | .move m => s.perform m
  | .hub a => { s with hub := s.hub.act (s.informed a) }
  | .registry a => { s with registry := s.registry.act a }

/-- The state after some occurrences. -/
def occurAll (s : Coordinator) (occurrences : List Occurrence) : Coordinator :=
  occurrences.foldl occur s

/-- What an occurrence does to the hub. -/
def reaching (s : Coordinator) : Occurrence → List Hub.Action
  | .move m => s.hubActions m
  | .hub a => [s.informed a]
  | .registry _ => []

/-- What some occurrences do to the hub. -/
def hubHistory : List Occurrence → Coordinator → List Hub.Action
  | [], _ => []
  | o :: rest, s => s.reaching o ++ hubHistory rest (s.occur o)

theorem occur_hub (s : Coordinator) (o : Occurrence) :
    (s.occur o).hub = s.hub.actAll (s.reaching o) := by
  cases o with
  | move m => exact s.perform_hub m
  | hub a => rfl
  | registry a => rfl

/-- Occurrences reach the hub by their actions. -/
theorem occurAll_hub (occurrences : List Occurrence) (s : Coordinator) :
    (s.occurAll occurrences).hub = s.hub.actAll (hubHistory occurrences s) := by
  induction occurrences generalizing s with
  | nil => rfl
  | cons o rest ih =>
      rw [hubHistory, Hub.actAll_append, ← occur_hub, ← ih]
      rfl

/-! ### Greetings -/

/-- Whether a connection that joins a conversation now is sent the state of a run: it is there, it
    does not follow the conversation, and a run of the conversation is registered. -/
structure Greets (s : Coordinator) (connection : Nat) (conversation : String) : Prop where
  attached : s.hub.roster.isAttached connection = true
  stranger : ¬s.hub.roster.Follows connection conversation
  running : ∃ key, s.IsRegistered key ∧ key.conversation = conversation

/-- A conversation has a newest run if it has one at all. -/
theorem activeRun_isSome_iff (s : Coordinator) (conversation : String) :
    (s.activeRun conversation).isSome = true ↔
      ∃ key, s.IsRegistered key ∧ key.conversation = conversation := by
  constructor
  · intro hsome
    rcases Option.isSome_iff_exists.mp hsome with ⟨snapshot, hsnapshot⟩
    rcases s.registry.newest_mem conversation snapshot hsnapshot with ⟨key, run, hrun, -, hkey⟩
    exact ⟨key, Option.isSome_iff_exists.mpr ⟨run, hrun⟩, hkey⟩
  · rintro ⟨key, hr, rfl⟩
    by_contra hnone
    rw [activeRun, Option.not_isSome_iff_eq_none] at hnone
    exact (s.not_isRegistered_iff key).mpr (s.registry.newest_none key hnone) hr

section

variable (s : Coordinator) (connection : Nat) (conversation : String)

/-- A connection that joins a conversation, as an action on the hub. -/
def joining : Hub.Action :=
  .follow connection conversation (s.activeRun conversation)

theorem hub_follow :
    (s.perform (.follow connection conversation)).hub =
      s.hub.act (s.joining connection conversation) := by
  simp only [perform, subscribe?, joining, Hub.act]
  cases s.hub.subscribe? connection conversation (s.activeRun conversation) <;> rfl

/-- What is addressed is what is numbered, and it is addressed to the connection that joins. -/
theorem addressed_joining (other : Nat) :
    s.hub.addressed other (s.joining connection conversation) =
      if other = connection then
        (s.hub.issues? (.conversation conversation) (s.joining connection conversation)).toList
      else [] :=
  s.hub.addressed_follow connection other conversation (s.activeRun conversation)

theorem nextSeq_follow (name : TopicName) :
    ((s.perform (.follow connection conversation)).hub.roster.topicOf name).nextSeq =
      (s.hub.roster.topicOf name).nextSeq +
        (s.hub.roster.numbered? name (s.joining connection conversation)).toList.length := by
  rw [hub_follow, Hub.act_roster]
  exact Roster.nextSeq_follow ..

/-- It is reported to a connection that is there whether anything was sent to it. -/
theorem subscribe?_attached (h : s.hub.roster.isAttached connection = true) :
    s.subscribe? connection conversation =
      some ((s.hub.issues? (.conversation conversation)
        (s.joining connection conversation)).isSome,
          s.perform (.follow connection conversation)) := by
  have hsubscribe := s.hub.subscribe?_eq connection conversation (s.activeRun conversation) h
  simp only [perform, subscribe?, hsubscribe, Option.map_some, Option.getD_some, joining]

theorem subscribe?_absent (h : ¬s.hub.roster.isAttached connection = true) :
    s.subscribe? connection conversation = none := by
  rw [subscribe?, ((s.hub.join_refused connection).1.2 conversation _).mpr
    (Bool.eq_false_iff.mpr h), Option.map_none]

variable {s connection conversation}

/-- What takes a number when a connection is greeted is the state of the newest run, and it takes
    it of the conversation. -/
theorem Greets.numbered? (h : s.Greets connection conversation) :
    ∃ snapshot, s.activeRun conversation = some snapshot ∧ ∀ name,
      s.hub.roster.numbered? name (s.joining connection conversation) =
        if name = .conversation conversation then some (.snapshot snapshot) else none := by
  rcases Option.isSome_iff_exists.mp ((s.activeRun_isSome_iff conversation).mpr h.running) with
    ⟨snapshot, hsnapshot⟩
  refine ⟨snapshot, hsnapshot, fun name => ?_⟩
  rw [joining, hsnapshot]
  by_cases hname : name = .conversation conversation
  · rw [if_pos hname, hname, Roster.numbered?_follow _ _ _ _ ⟨h.attached, h.stranger⟩]
    rfl
  · rw [if_neg hname, Roster.numbered?_other _ _ _ (.snapshot snapshot) _ rfl
      fun heq => hname heq.symm]

/-- If a connection is not greeted nothing takes a number. -/
theorem numbered?_of_not_greets (h : ¬s.Greets connection conversation) (name : TopicName) :
    s.hub.roster.numbered? name (s.joining connection conversation) = none := by
  by_cases hnew : s.hub.roster.isAttached connection = true ∧
      ¬s.hub.roster.Follows connection conversation
  · have hidle : s.activeRun conversation = none := by
      rw [← Option.not_isSome_iff_eq_none, s.activeRun_isSome_iff conversation]
      exact fun hrunning => h ⟨hnew.1, hnew.2, hrunning⟩
    rw [joining, hidle]
    exact Roster.numbered?_of_silent _ _ _ rfl
  · exact Roster.numbered?_follow_again _ _ _ _ name hnew

/-- A connection is greeted if and only if it is reported to it that something was sent. -/
theorem subscribe?_iff_greets :
    s.subscribe? connection conversation =
        some (true, s.perform (.follow connection conversation)) ↔
      s.Greets connection conversation := by
  by_cases hattached : s.hub.roster.isAttached connection = true
  · rw [s.subscribe?_attached connection conversation hattached, Hub.issues?]
    by_cases hgreets : s.Greets connection conversation
    · rcases hgreets.numbered? with ⟨snapshot, -, hnumbered⟩
      rw [hnumbered, if_pos rfl]
      exact iff_of_true rfl hgreets
    · rw [numbered?_of_not_greets hgreets]
      exact iff_of_false (by simp) hgreets
  · rw [s.subscribe?_absent connection conversation hattached]
    exact iff_of_false (by simp) fun h => hattached h.attached

/-- After a connection was greeted all that is addressed to it on the conversation has a greater
    number. -/
theorem Greets.later (h : s.Greets connection conversation) (horderly : s.hub.roster.Orderly)
    (actions : List Hub.Action) :
    ∀ f ∈ Hub.sentOn connection (.conversation conversation) actions
        (s.perform (.follow connection conversation)).hub,
      ∃ n, f.seq = some n ∧
        (s.hub.roster.topicOf (.conversation conversation)).nextSeq < n := by
  intro f hf
  -- A follower is sent, of the conversation, only numbers from the next one on, and the snapshot
  -- has taken the number before it.
  have hjoined : (s.perform (.follow connection conversation)).hub.roster.Orderly := by
    rw [hub_follow]
    exact Hub.orderly_act horderly _
  have hon : (s.perform (.follow connection conversation)).hub.roster.IsOn connection
      (.conversation conversation) := by
    rw [hub_follow, Hub.act_roster]
    exact s.hub.roster.follows_follow connection conversation _ h.attached
  rcases Hub.sentOn_above hjoined connection _ hon actions f hf with ⟨n, hseq, hle⟩
  rcases h.numbered? with ⟨snapshot, -, hnumbered⟩
  rw [nextSeq_follow, hnumbered, if_pos rfl] at hle
  exact ⟨n, hseq, hle⟩

end

/-! ### Every course of events -/

/-- Whatever happened to a coordinator, its hub and its registry: a connection that joins a
    conversation is told that it was sent the state of a run if and only if it is there, did not
    follow the conversation and a run of the conversation is registered. Then the state of the
    newest one is addressed to it and to nobody else. It takes one number of the conversation and
    none of another topic. Nothing of the conversation was addressed to the connection before, and
    all that is addressed to it later has a greater number. If the connection is not greeted,
    nothing is addressed to anybody and no number is taken. -/
theorem join_greeted_once (config : ServerConfig) (provider : Option Provider)
    (before : List Occurrence) (connection : Nat) (conversation : String) :
    let start := ofConfig config provider
    let s := start.occurAll before
    let join := s.joining connection conversation
    let joined := s.perform (.follow connection conversation)
    let topic := TopicName.conversation conversation
    let number := (s.hub.roster.topicOf topic).nextSeq
    (s.subscribe? connection conversation = some (true, joined) ↔
      s.Greets connection conversation) ∧
    (∀ other, joined.hub.mailboxes.get? other =
      (s.hub.mailboxes.get? other).map (·.offerAll (s.hub.addressed other join))) ∧
    (s.Greets connection conversation → ∃ snapshot, s.activeRun conversation = some snapshot ∧
      (∀ other, s.hub.addressed other join =
        if other = connection then [.event number (.snapshot snapshot)] else []) ∧
      (∀ name, (joined.hub.roster.topicOf name).nextSeq =
        (s.hub.roster.topicOf name).nextSeq + if name = topic then 1 else 0) ∧
      Hub.sentOn connection topic (hubHistory before start) start.hub = [] ∧
      ∀ after, ∀ f ∈ Hub.sentOn connection topic (hubHistory after joined) joined.hub,
        ∃ n, f.seq = some n ∧ number < n) ∧
    (¬s.Greets connection conversation →
      (∀ other, s.hub.addressed other join = []) ∧
      ∀ name, (joined.hub.roster.topicOf name).nextSeq =
        (s.hub.roster.topicOf name).nextSeq) := by
  intro start s join joined topic number
  have hhub : s.hub = Hub.fresh.actAll (hubHistory before start) := occurAll_hub before start
  have horderly : s.hub.roster.Orderly := by
    rw [hhub]
    exact Hub.orderly_actAll Hub.fresh_orderly _
  have hnextSeq := s.nextSeq_follow connection conversation
  refine ⟨subscribe?_iff_greets, fun other => ?_, fun hgreets => ?_,
    fun hnot => ⟨fun other => ?_, fun name => ?_⟩⟩
  -- The mailbox of a connection is touched by what is addressed to it, and a follow clears none.
  · rw [s.hub_follow connection conversation]
    exact s.hub.act_mailbox_of_ne join other fun capacity h => absurd h (by simp [join, joining])
  · rcases hgreets.numbered? with ⟨snapshot, hsnapshot, hnumbered⟩
    refine ⟨snapshot, hsnapshot, fun other => ?_, fun name => ?_, ?_,
      fun after => hgreets.later horderly _⟩
    · rw [s.addressed_joining connection conversation, Hub.issues?, hnumbered, if_pos rfl]
      rfl
    · rw [hnextSeq, hnumbered]
      by_cases hname : name = .conversation conversation
      · rw [if_pos hname, if_pos hname]
        rfl
      · rw [if_neg hname, if_neg hname]
        rfl
    -- Whoever was sent something of the conversation would still follow it.
    · refine Hub.sentOn_stranger Hub.fresh_orderly connection topic _ ?_ ?_
      · rw [← hhub]
        exact hgreets.attached
      · rw [← hhub]
        exact hgreets.stranger
  -- A join that greets nobody addresses nothing and takes no number.
  · rw [s.addressed_joining connection conversation, Hub.issues?, numbered?_of_not_greets hnot]
    exact ite_self _
  · rw [hnextSeq, numbered?_of_not_greets hnot]
    rfl

end Coordinator

end Switchboard

import Switchboard.Connection
import Switchboard.Proofs.Followers
import Switchboard.Proofs.Hub.Arrivals

/-!
# Requests and their Replies

What a text on a connection does and what comes back. A text is one of three
things: no request at all, a request to follow something, or a request to cancel
a run. It changes the state by one move at most, and gets one reply, which
carries the request id of the text as far as one can be told from it.

Since the requests of a connection are moves of its own, it can be told apart
what the connection does itself and what others do to it. Only the connection
can put itself on a topic, and what others do makes its mailbox longer, never
shorter.

## Main definitions

* `Coordinator.Move.isOf`: A move that a connection makes itself.
* `requestIdIn`, `topicAsked?`: What a text says about itself.
* `Frame.Answers`: A frame is the reply to a text.

## Theorems

* `Coordinator.waiting_perform`, `Coordinator.isOn_perform`: What others do to a connection.
* `Connection.answer_cases`, `Connection.answer_answers`: What a text does, and its reply.
* `Connection.forward?_cases`: The frame that is written is the first of the mailbox.
-/

namespace Switchboard

/-! ### What others do to a connection -/

namespace Coordinator

/-- Whether a move is one that a connection makes itself. -/
def Move.isOf (connection : Nat) : Move → Bool
  | .detach c | .close c | .take c | .followSidebar c | .follow c _ => c = connection
  | _ => false

/-- Whether a move leaves the mailbox of a connection to fill. -/
def Move.spares (connection : Nat) : Move → Bool
  | .detach c | .close c | .take c => c ≠ connection
  | _ => true

theorem Move.spares_of_others {connection : Nat} {m : Move} (h : m.isOf connection = false) :
    m.spares connection = true := by
  cases m with
  | detach c => simpa [isOf, spares] using h
  | close c => simpa [isOf, spares] using h
  | take c => simpa [isOf, spares] using h
  | _ => rfl

theorem Reachable.hub_orderly {s : Coordinator} (h : s.Reachable) : s.hub.roster.Orderly := by
  rcases h with ⟨config, provider, moves, rfl⟩
  rw [performAll_hub]
  exact Hub.orderly_actAll Hub.fresh_orderly _

theorem Reachable.hub_boxed {s : Coordinator} (h : s.Reachable) : s.hub.Boxed := by
  rcases h with ⟨config, provider, moves, rfl⟩
  rw [performAll_hub]
  exact Hub.fresh_boxed.actAll _

theorem hubActions_spare (s : Coordinator) (connection : Nat) (m : Move)
    (hm : m.spares connection = true) : ∀ a ∈ s.hubActions m, a.spares connection = true := by
  intro a ha
  rcases mem_hubActions ha with ⟨announcement, -, rfl⟩ | halone
  · rfl
  -- Only detaching, closing and taking can touch another connection, and they name theirs.
  · cases halone with
    | detach | close | take => simpa [Hub.Action.spares, Move.spares] using hm
    | attach | followSidebar | follow => rfl

/-- What a move adds to a mailbox that it leaves to fill is from topics that the connection is
    on. -/
theorem waiting_perform {s : Coordinator} (hs : s.Reachable) (connection : Nat) (m : Move)
    (hm : m.spares connection = true) :
    ∃ fs, (s.perform m).hub.waiting connection = s.hub.waiting connection ++ fs ∧
      ∀ f ∈ fs, ∃ name, f.IsEventOn name ∧
        (s.perform m).hub.roster.IsOn connection name := by
  rw [perform_hub]
  exact Hub.waiting_actAll_of_spares hs.hub_orderly hs.hub_boxed connection _
    (s.hubActions_wellAddressed m) (s.hubActions_spare connection m hm)

/-- A connection on a topic was on it before or has just joined it itself. -/
theorem isOn_perform {s : Coordinator} {m : Move} {connection : Nat} {name : TopicName}
    (hon : (s.perform m).hub.roster.IsOn connection name) :
    s.hub.roster.IsOn connection name ∨ m = .followSidebar connection ∧ name = .sidebar ∨
      ∃ id, m = .follow connection id ∧ name = .conversation id := by
  rw [perform_hub] at hon
  -- Only the two moves that subscribe join a topic; what is told never does.
  rcases hon.of_actAll with hold | ⟨ha, hname⟩ | ⟨id, active, ha, hname⟩
  · exact Or.inl hold
  · rcases mem_hubActions ha with ⟨announcement, -, htold⟩ | halone
    · exact absurd htold (by simp)
    · cases halone with
      | followSidebar => exact Or.inr (Or.inl ⟨rfl, hname⟩)
  · rcases mem_hubActions ha with ⟨announcement, -, htold⟩ | halone
    · exact absurd htold (by simp)
    · cases halone with
      | follow => exact Or.inr (Or.inr ⟨id, rfl, hname⟩)

end Coordinator

/-! ### Texts and their replies -/

/-- The request id that can be told from a text: in a JSON object, a string or the text of a
    number. -/
def requestIdIn (text : String) : Option String :=
  match Json.read? text with
  | some (.obj members) =>
    match members.lookup "requestId" with
    | some (.str s) => some s
    | some (.num n) => some n.text
    | _ => none
  | _ => none

/-- The topic that a text asks to follow, if it does. -/
def topicAsked? (text : String) : Option TopicName :=
  match ClientMessage.decode text with
  | .ok ⟨_, .subscribeSidebar⟩ => some .sidebar
  | .ok ⟨_, .subscribeConversation conversation⟩ => some (.conversation conversation)
  | _ => none

/-- Whether a frame is the reply to a text. -/
structure Frame.Answers (f : Frame) (text : String) : Prop where
  seq : f.seq = none
  requestId : f.requestId = requestIdIn text
  body : f.body = .ack ∨ ∃ code message, f.body = .error code message
  granted : (topicAsked? text).isSome → f.body = .ack

/-- A message carries the request id of its text, and so does a complaint. -/
theorem ClientMessage.decode_requestId (text : String) :
    (match decode text with
      | .error e => e.requestId
      | .ok m => m.requestId) = requestIdIn text := by
  -- The identifier is read before the request, so that a refused one carries it too.
  unfold decode requestIdIn
  cases hread : Json.read? text with
  | none => rfl
  | some j =>
      cases j with
      | obj members =>
          simp only [ofJson, requestIdOf]
          cases members.lookup "requestId" with
          | none => cases requestOf members <;> rfl
          | some value =>
              cases value with
              | null => cases requestOf members <;> rfl
              | str s => cases requestOf members <;> rfl
              | num n => cases requestOf members <;> rfl
              | _ => rfl
      | _ => rfl

namespace Connection

theorem perform_body (id : Nat) (now : Timestamp) (m : ClientMessage) (s : Coordinator) :
    (perform id now m s).1.body = .ack ∨
      (∃ key, m.request = .cancel key) ∧
        ∃ code message, (perform id now m s).1.body = .error code message := by
  unfold perform
  cases hrequest : m.request with
  | subscribeSidebar => exact Or.inl rfl
  | subscribeConversation conversation => exact Or.inl rfl
  | cancel key =>
      simp only
      split
      · exact Or.inl rfl
      · exact Or.inr ⟨⟨key, rfl⟩, _, _, rfl⟩

/-- Whatever a text is, it gets its reply. -/
theorem answer_answers (id : Nat) (now : Timestamp) (text : String) (s : Coordinator) :
    (answer id now text s).1.Answers text := by
  have hid := ClientMessage.decode_requestId text
  unfold answer
  cases hdecode : ClientMessage.decode text with
  | error e =>
      rw [hdecode] at hid
      refine ⟨rfl, hid, Or.inr ⟨_, _, rfl⟩, fun hasked => ?_⟩
      exact absurd hasked (by simp [topicAsked?, hdecode])
  | ok m =>
      rw [hdecode] at hid
      have hseq := perform_seq id now m s
      refine ⟨hseq.1, hseq.2.trans hid, ?_, fun hasked => ?_⟩
      -- Only a subscription asks for a topic, and a subscription is granted.
      · exact (perform_body id now m s).imp_right fun h => h.2
      · rcases perform_body id now m s with hack | ⟨⟨key, hkey⟩, -⟩
        · exact hack
        · rcases m with ⟨requestId, request⟩
          cases hkey
          exact absurd hasked (by simp [topicAsked?, hdecode])

/-- What a text does: nothing, or one move of its connection. -/
theorem answer_cases (id : Nat) (now : Timestamp) (text : String) (s : Coordinator) :
    (answer id now text s).2 = s ∨
    ((answer id now text s).2 = s.perform (.followSidebar id) ∧
      topicAsked? text = some .sidebar) ∨
    (∃ conversation, (answer id now text s).2 = s.perform (.follow id conversation) ∧
      topicAsked? text = some (.conversation conversation)) ∨
    ∃ key, (answer id now text s).2 = s.perform (.cancel now key) := by
  unfold answer topicAsked?
  -- Each request is one move of its connection, and a text that is no request is none.
  cases ClientMessage.decode text with
  | error e => exact Or.inl rfl
  | ok m =>
      rcases m with ⟨requestId, request⟩
      cases request with
      | subscribeSidebar => exact Or.inr (Or.inl ⟨rfl, rfl⟩)
      | subscribeConversation conversation =>
          exact Or.inr (Or.inr (Or.inl ⟨conversation, rfl, rfl⟩))
      | cancel key =>
          refine Or.inr (Or.inr (Or.inr ⟨key, ?_⟩))
          simp only [perform, Coordinator.perform]
          split <;> next h => exact (congrArg Prod.snd h).symm

theorem leave_eq (c : Connection) (s : Coordinator) :
    c.leave s = s.performAll [.detach c.id, .close c.id] := rfl

/-- Nobody can find anything in a mailbox that was given up. -/
theorem leave_waiting (c : Connection) (s : Coordinator) :
    (c.leave s).hub.waiting c.id = [] := by
  simp only [leave, Hub.waiting, Hub.closeMailbox, Hub.detach, Table.get?_update, if_true]
  cases s.hub.mailboxes.get? c.id <;> rfl

/-- The frame that is taken out of a mailbox is the first that waits in it. -/
theorem forward?_cases (c : Connection) (s s' : Coordinator) (out : List Outbound)
    (h : c.forward? s = some (out, s')) :
    s' = s.perform (.take c.id) ∧
      ∃ f, out = [.frame f] ∧ s.hub.waiting c.id = f :: s'.hub.waiting c.id := by
  unfold forward? at h
  -- The frame comes from the front of the mailbox, and the rest stays in it.
  cases htake : s.hub.take? c.id with
  | none =>
      rw [htake] at h
      exact absurd h (by simp)
  | some p =>
      rw [htake, Option.map_some, Option.some.injEq, Prod.mk.injEq] at h
      obtain ⟨rfl, rfl⟩ := h
      refine ⟨by rw [Coordinator.perform, htake]; rfl, p.1, rfl, ?_⟩
      unfold Hub.take? at htake
      rcases Option.map_eq_some_iff.mp htake with ⟨⟨f, m'⟩, hbind, rfl⟩
      rcases Option.bind_eq_some_iff.mp hbind with ⟨m, hm, hfirst⟩
      rw [Hub.waiting, hm, Option.map_some, Option.getD_some, Hub.waiting, Table.get?_insert,
        if_pos rfl, Option.map_some, Option.getD_some]
      unfold Mailbox.take? at hfirst
      cases hitems : m.items with
      | nil => simp [hitems] at hfirst
      | cons g rest =>
          simp only [hitems, Option.some.injEq, Prod.mk.injEq] at hfirst
          rw [← hfirst.1, ← hfirst.2]

/-- If there is no frame to write, none waits. -/
theorem forward?_none (c : Connection) (s : Coordinator) (h : c.forward? s = none) :
    s.hub.waiting c.id = [] := by
  unfold forward? Hub.take? at h
  rw [Option.map_eq_none_iff, Option.map_eq_none_iff] at h
  rw [Hub.waiting]
  cases hm : s.hub.mailboxes.get? c.id with
  | none => rfl
  | some m =>
      rw [hm, Option.bind_some, Mailbox.take?] at h
      rw [Option.map_some, Option.getD_some]
      cases hitems : m.items with
      | nil => rfl
      | cons f rest => simp [hitems] at h

end Connection

end Switchboard

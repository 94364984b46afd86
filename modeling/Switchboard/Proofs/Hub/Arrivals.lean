import Switchboard.Proofs.Hub.Isolation
import Switchboard.Proofs.Hub.Presence
import Switchboard.Proofs.Hub.Received

/-!
# What Arrives in a Mailbox

What comes into the mailbox of one connection while others are at work. As long
as the connection does not read and stays, its mailbox only grows at the end,
and whatever is added is a numbered frame of a topic that the connection is on.
It got there by itself: nobody else can put a connection on a topic.

Which topic a frame is from can be told by its content, because what is sent on
a conversation is about the runs of the conversation (`Hub.Action.WellAddressed`).

## Main definitions

* `Frame.Body.topic?`, `Frame.IsEventOn`: The topic that a frame is from.
* `Hub.Action.spares`: An action that leaves the mailbox of a connection to fill.

## Theorems

* `Roster.IsOn.of_act`, `Roster.IsOn.of_actAll`: A connection is on the topics that it joined.
* `Hub.waiting_act_of_spares`, `Hub.waiting_actAll_of_spares`: What is added to a mailbox.
-/

namespace Switchboard

/-- The topic that a content is announced on, if it is announced at all. -/
def Frame.Body.topic? : Frame.Body → Option TopicName
  | .ack | .error .. => none
  | .conversationUpsert _ | .conversationDelete _ => some .sidebar
  | .snapshot s => some (.conversation s.key.conversation)
  | .delta key _ | .toolState key _ | .turnFinal key _ => some (.conversation key.conversation)

/-- Whether a frame is a numbered frame of a topic. -/
structure Frame.IsEventOn (f : Frame) (name : TopicName) : Prop where
  seq : f.seq.isSome
  topic : f.body.topic? = some name

theorem SidebarEvent.body_topic? (event : SidebarEvent) : event.body.topic? = some .sidebar := by
  cases event <;> rfl

theorem ConversationEvent.body_topic? (conversation : String) (event : ConversationEvent) :
    (event.body conversation).topic? =
      some (.conversation (event.key conversation).conversation) := by
  cases event <;> rfl

/-- The topic can be told from what is said on it. -/
theorem Hub.Action.topic?_of_message {a : Action} (ha : a.WellAddressed) {name : TopicName}
    {body : Frame.Body} (hmessage : a.message? = some (name, body)) :
    body.topic? = some name := by
  -- A follower is told the state of a run of the conversation, and what is announced says where.
  cases a with
  | follow connection id active =>
      rcases Option.map_eq_some_iff.mp hmessage with ⟨snapshot, hactive, hsaid⟩
      obtain ⟨rfl, rfl⟩ := Prod.mk.inj hsaid
      rw [Frame.Body.topic?, ha snapshot hactive]
  | tell announcement =>
      cases announcement with
      | sidebar event =>
          obtain ⟨rfl, rfl⟩ := Prod.mk.inj (Option.some.inj hmessage)
          exact event.body_topic?
      | conversation id event =>
          obtain ⟨rfl, rfl⟩ := Prod.mk.inj (Option.some.inj hmessage)
          have hid : (event.key id).conversation = id := ha
          rw [event.body_topic?, hid]
  | _ => exact absurd hmessage (by simp [message?])

/-! ### How a connection gets on a topic -/

/-- A connection on a topic was on it before or has just joined it. -/
theorem Roster.IsOn.of_act {r : Roster} {connection : Nat} {name : TopicName} {a : Hub.Action}
    (hon : (r.act a).2.IsOn connection name) :
    r.IsOn connection name ∨ a = .followSidebar connection ∧ name = .sidebar ∨
      ∃ id active, a = .follow connection id active ∧ name = .conversation id := by
  -- What a connection follows is on its own list, whoever else does something.
  have hsame : (r.act a).2.subscribers.get? connection = r.subscribers.get? connection →
      r.IsOn connection name := by
    intro h
    cases name <;> simpa only [IsOn, Follows, h] using hon
  cases a with
  | attach capacity =>
      by_cases hnew : connection = r.opened
      -- Who has just come is on no list.
      · cases name <;> simp [IsOn, Follows, Roster.act, attach, hnew] at hon
      · exact Or.inl (hsame (by simp only [Roster.act, attach, Table.get?_insert, if_neg hnew]))
  | detach other => exact Or.inl ((r.isOn_detach other connection name).mp hon).2
  | reset => cases name <;> simp [IsOn, Follows, Roster.act, reset, fresh] at hon
  | followSidebar other =>
      by_cases ho : other = connection
      -- Whoever joins the sidebar is on it, and stays on the other topics.
      · cases name with
        | sidebar => exact Or.inr (Or.inl ⟨by rw [ho], rfl⟩)
        | conversation id =>
            refine Or.inl ?_
            simp only [IsOn, Follows, Roster.act, joinSidebar?] at hon ⊢
            cases hsub : r.subscribers.get? other with
            | none => rwa [hsub] at hon
            | some sub =>
                rw [hsub] at hon
                subst ho
                simpa [hsub] using hon
      · refine Or.inl (hsame ?_)
        simp only [Roster.act, joinSidebar?]
        cases r.subscribers.get? other with
        | none => rfl
        | some sub => exact (Table.get?_insert ..).trans (if_neg (Ne.symm ho))
  | follow other id active =>
      cases hsub : r.subscribers.get? other with
      | none =>
          rw [(r.act_follow_absent other id active hsub).1] at hon
          exact Or.inl hon
      | some sub =>
          -- A connection that joins is on what it was on before and on the conversation.
          by_cases ho : other = connection
          · subst ho
            rw [r.act_follow other id active sub hsub] at hon
            cases name with
            | sidebar => exact Or.inl (by simpa [IsOn, hsub] using hon)
            | conversation other' =>
                by_cases hid : other' = id
                · exact Or.inr (Or.inr ⟨id, active, rfl, by rw [hid]⟩)
                · exact Or.inl (by simpa [IsOn, Follows, hsub, hid] using hon)
          · refine Or.inl (hsame ?_)
            rw [r.act_follow other id active sub hsub]
            exact (Table.get?_insert ..).trans (if_neg (Ne.symm ho))
  | tell announcement =>
      refine Or.inl (hsame ?_)
      cases announcement with
      | sidebar event => rfl
      | conversation id event =>
          simp only [Roster.act, publish?]
          cases r.topics.get? id <;> rfl
  | close other => exact Or.inl (hsame rfl)
  | take other => exact Or.inl (hsame rfl)

/-- Over some actions a connection on a topic was on it before, or one of them was to join it. -/
theorem Roster.IsOn.of_actAll {connection : Nat} {name : TopicName} {actions : List Hub.Action}
    {hub : Hub} (hon : (hub.actAll actions).roster.IsOn connection name) :
    hub.roster.IsOn connection name ∨
      .followSidebar connection ∈ actions ∧ name = .sidebar ∨
      ∃ id active, .follow connection id active ∈ actions ∧ name = .conversation id := by
  induction actions generalizing hub with
  | nil => exact Or.inl hon
  | cons a rest ih =>
      rcases ih hon with hafter | ⟨hmem, hname⟩ | ⟨id, active, hmem, hname⟩
      · rw [Hub.act_roster] at hafter
        rcases hafter.of_act with hold | ⟨rfl, hname⟩ | ⟨id, active, rfl, hname⟩
        · exact Or.inl hold
        · exact Or.inr (Or.inl ⟨List.mem_cons_self, hname⟩)
        · exact Or.inr (Or.inr ⟨id, active, List.mem_cons_self, hname⟩)
      · exact Or.inr (Or.inl ⟨List.mem_cons_of_mem _ hmem, hname⟩)
      · exact Or.inr (Or.inr ⟨id, active, List.mem_cons_of_mem _ hmem, hname⟩)

/-! ### How a mailbox fills -/

namespace Hub

/-- Whether an action leaves the mailbox of a connection to fill: the connection stays and does
    not read. -/
def Action.spares (connection : Nat) : Action → Bool
  | .detach c => c ≠ connection
  | .close c => c ≠ connection
  | .take c => c ≠ connection
  | .reset => false
  | _ => true

theorem accepted_sublist (hub : Hub) (connection : Nat) (a : Action) :
    (hub.accepted connection a).Sublist (hub.addressed connection a) := by
  rw [accepted]
  cases hub.mailboxes.get? connection with
  | none => exact List.nil_sublist _
  | some m => exact Mailbox.accepted_sublist ..

/-- What is added to a mailbox that is left to fill is from topics that the connection is on. -/
theorem waiting_act_of_spares {hub : Hub} (h : hub.roster.Orderly) (hboxed : hub.Boxed)
    (connection : Nat) (a : Action) (ha : a.WellAddressed)
    (hspares : a.spares connection = true) :
    ∃ fs, (hub.act a).waiting connection = hub.waiting connection ++ fs ∧
      ∀ f ∈ fs, ∃ name, f.IsEventOn name ∧ (hub.act a).roster.IsOn connection name := by
  -- The action is not one of the connection, so that nothing is taken out and the mailbox stays.
  have htaken : hub.taken connection a = [] := by
    cases a with
    | take c =>
        have hc : c ≠ connection := of_decide_eq_true hspares
        rw [taken, if_neg hc]
    | _ => rfl
  have hopen : a = .close connection → hub.mailboxes.get? connection = none := by
    rintro rfl
    exact absurd hspares (by simp [Action.spares])
  have hwaiting := waiting_append_accepted hub hboxed connection a hopen
  rw [htaken, List.nil_append] at hwaiting
  refine ⟨hub.accepted connection a, hwaiting.symm, fun f hf => ?_⟩
  have hsent := (hub.accepted_sublist connection a).subset hf
  rw [act_roster]
  -- An action sends one frame at most, on its topic.
  rcases hub.roster.framesFor_act h connection a with hnone | ⟨name, body, hn, -, hon, hone⟩
  · rw [addressed, hnone] at hsent
    exact absurd hsent List.not_mem_nil
  · rw [addressed, hone, List.mem_singleton] at hsent
    subst hsent
    have hmessage := hub.roster.message_of_numbered name body a hn
    exact ⟨name, ⟨rfl, Action.topic?_of_message ha hmessage⟩, hon⟩

/-- A connection that is spared stays on its topics. -/
theorem IsOn.act_of_spares {hub : Hub} (h : hub.roster.Orderly) {connection : Nat}
    {name : TopicName} (hon : hub.roster.IsOn connection name) (a : Action)
    (hspares : a.spares connection = true) : (hub.act a).roster.IsOn connection name := by
  rw [act_roster]
  refine hon.act h.toSound a ?_ ?_
  · rintro rfl
    exact absurd hspares Bool.false_ne_true
  · rintro rfl
    exact absurd hspares (by simp [Action.spares])

theorem IsOn.actAll_of_spares {hub : Hub} (h : hub.roster.Orderly) {connection : Nat}
    {name : TopicName} (hon : hub.roster.IsOn connection name) (actions : List Action)
    (hspares : ∀ a ∈ actions, a.spares connection = true) :
    (hub.actAll actions).roster.IsOn connection name := by
  induction actions generalizing hub with
  | nil => exact hon
  | cons a rest ih =>
      exact ih (orderly_act h a) (IsOn.act_of_spares h hon a (hspares a List.mem_cons_self))
        fun b hb => hspares b (List.mem_cons_of_mem _ hb)

theorem waiting_actAll_of_spares {hub : Hub} (h : hub.roster.Orderly) (hboxed : hub.Boxed)
    (connection : Nat) (actions : List Action) (hwell : ∀ a ∈ actions, a.WellAddressed)
    (hspares : ∀ a ∈ actions, a.spares connection = true) :
    ∃ fs, (hub.actAll actions).waiting connection = hub.waiting connection ++ fs ∧
      ∀ f ∈ fs, ∃ name, f.IsEventOn name ∧
        (hub.actAll actions).roster.IsOn connection name := by
  induction actions generalizing hub with
  | nil => exact ⟨[], (List.append_nil _).symm, fun f hf => absurd hf List.not_mem_nil⟩
  | cons a rest ih =>
      have hrest : ∀ b ∈ rest, b.spares connection = true :=
        fun b hb => hspares b (List.mem_cons_of_mem _ hb)
      rcases waiting_act_of_spares h hboxed connection a (hwell a List.mem_cons_self)
        (hspares a List.mem_cons_self) with ⟨first, hfirst, honFirst⟩
      rcases ih (orderly_act h a) (hboxed.act a) (fun b hb => hwell b (List.mem_cons_of_mem _ hb))
        hrest with ⟨more, hmore, honMore⟩
      refine ⟨first ++ more, ?_, fun f hf => ?_⟩
      · rw [actAll_cons, hmore, hfirst, List.append_assoc]
      · rcases List.mem_append.mp hf with hf | hf
        -- Whoever was on a topic when a frame came is still on it.
        · rcases honFirst f hf with ⟨name, hevent, hon⟩
          exact ⟨name, hevent, IsOn.actAll_of_spares (orderly_act h a) hon rest hrest⟩
        · exact honMore f hf

end Hub

end Switchboard

import Switchboard.Proofs.Hub.Membership

/-!
# What a Follower Receives

A frame about a run belongs to the conversation of that run. What a connection
receives about a conversation comes from two sources: the frame it got when it
joined, if a run was active, and the announcements made on the conversation
since. Nothing older is in the way, because a connection has no frames about a
conversation it does not follow; this is the part of `Hub.Sound` that speaks of
mailboxes.

The numbers of the frames do not matter here, nor does anything a connection
receives about other topics, so only the contents that are about the one
conversation are compared.

## Main definitions

* `Frame.Body.conversation?`: The conversation a frame is about.
* `bodiesOn`: The contents of frames that are about a conversation.
* `Hub.Action.WellAddressed`: What is sent to a topic is about the conversation of the topic.
* `Hub.announced`: The announcements among some actions.
* `Hub.Sound`: The roster is in order, and frames are where they belong.

## Theorems

* `Hub.bodiesOn_addressedAll`: A follower is sent the announcements on its conversation.
* `Hub.bodiesOn_addressed_join`: A new follower is sent the state of the active run.
* `Hub.Sound.act`, `Hub.Sound.actAll`: Frames stay where they belong.
-/

namespace Switchboard

/-! ### Frames about a conversation -/

/-- The conversation of the run that a frame is about, if it is about one. -/
def Frame.Body.conversation? : Frame.Body → Option String
  | .snapshot s => some s.key.conversation
  | .delta key _ => some key.conversation
  | .toolState key _ => some key.conversation
  | .turnFinal key _ => some key.conversation
  | _ => none

theorem SidebarEvent.body_conversation? (event : SidebarEvent) :
    event.body.conversation? = none := by
  cases event <;> rfl

theorem ConversationEvent.body_conversation? (conversation : String)
    (event : ConversationEvent) :
    (event.body conversation).conversation? = some (event.key conversation).conversation := by
  cases event <;> rfl

/-- The contents of the frames that are about a conversation. -/
def bodiesOn (conversation : String) (fs : List Frame) : List Frame.Body :=
  (fs.map (·.body)).filter (·.conversation? = some conversation)

@[simp] theorem bodiesOn_nil (conversation : String) : bodiesOn conversation [] = [] := rfl

theorem bodiesOn_append (conversation : String) (first second : List Frame) :
    bodiesOn conversation (first ++ second) =
      bodiesOn conversation first ++ bodiesOn conversation second := by
  rw [bodiesOn, List.map_append, List.filter_append, bodiesOn, bodiesOn]

theorem bodiesOn_event (conversation : String) (seq : Nat) (body : Frame.Body) :
    bodiesOn conversation [.event seq body] =
      if body.conversation? = some conversation then [body] else [] := by
  unfold bodiesOn Frame.event
  by_cases h : body.conversation? = some conversation
  · simp [h]
  · simp [h]

theorem bodiesOn_eq_nil_iff (conversation : String) (fs : List Frame) :
    bodiesOn conversation fs = [] ↔ ∀ f ∈ fs, f.body.conversation? ≠ some conversation := by
  simp [bodiesOn, List.filter_eq_nil_iff]

/-- The frames of an announcement all have its content. -/
theorem bodiesOn_announce_other (t : Topic) (body : Frame.Body) (connection : Nat)
    (conversation : String) (h : body.conversation? ≠ some conversation) :
    bodiesOn conversation (framesFor connection (t.announce body)) = [] := by
  rw [bodiesOn_eq_nil_iff]
  intro f hf
  simp only [framesFor, Topic.announce, List.filter_map, List.map_map, List.mem_map] at hf
  rcases hf with ⟨c, -, rfl⟩
  exact h

/-- A member receives the content of an announcement once. -/
theorem bodiesOn_announce (t : Topic) (body : Frame.Body) (connection : Nat)
    (conversation : String) (hnodup : t.members.Nodup)
    (h : body.conversation? = some conversation) :
    bodiesOn conversation (framesFor connection (t.announce body)) =
      if connection ∈ t.members then [body] else [] := by
  rw [framesFor_announce t body connection hnodup]
  by_cases hc : connection ∈ t.members
  · rw [if_pos hc, if_pos hc, bodiesOn_event, if_pos h]
  · rw [if_neg hc, if_neg hc, bodiesOn_nil]

/-! ### What actions address -/

/-- Whether an announcement on a conversation is about a run of the conversation. -/
def Announcement.WellAddressed : Announcement → Prop
  | .sidebar _ => True
  | .conversation id event => (event.key id).conversation = id

/-- Whether what is sent to a topic is about a run of the conversation. -/
def Hub.Action.WellAddressed : Hub.Action → Prop
  | .follow _ conversation active => ∀ s ∈ active, s.key.conversation = conversation
  | .tell announcement => announcement.WellAddressed
  | _ => True

namespace Hub

/-- The announcements among some actions. -/
def announced (actions : List Action) : List Announcement :=
  actions.filterMap fun
    | .tell announcement => some announcement
    | _ => none

theorem announced_append (first second : List Action) :
    announced (first ++ second) = announced first ++ announced second :=
  List.filterMap_append ..

theorem announced_tell (news : List Announcement) : announced (news.map .tell) = news := by
  rw [announced, List.filterMap_map]
  exact List.filterMap_some

theorem addressed_conversation (hub : Hub) (connection : Nat) (id : String)
    (event : ConversationEvent) : hub.addressed connection (.tell (.conversation id event)) =
      framesFor connection ((hub.roster.topic id).announce (event.body id)) := by
  rw [addressed, Roster.act, Roster.publish?, Roster.topic]
  cases hub.roster.topics.get? id <;> rfl

/-- A follower is sent what is announced on its conversation. -/
theorem bodiesOn_addressed_tell (hub : Hub) (h : hub.roster.Sound) (connection : Nat)
    (conversation : String) (a : Announcement) (ha : a.WellAddressed)
    (hf : hub.roster.Follows connection conversation) :
    bodiesOn conversation (hub.addressed connection (.tell a)) =
      (eventsOn conversation [a]).map (·.body conversation) := by
  -- The event is of this conversation only when the identifiers agree; any other is skipped.
  cases a with
  | sidebar event =>
      refine bodiesOn_announce_other _ _ _ _ ?_
      rw [event.body_conversation?]
      exact (Option.some_ne_none conversation).symm
  | conversation id event =>
      have hbody : (event.body id).conversation? = some id := by
        rw [event.body_conversation?, ha]
      have hevents := eventsOn_conversation conversation id [event]
      rw [List.map_singleton] at hevents
      rw [addressed_conversation, hevents]
      by_cases hid : id = conversation
      · subst hid
        have hmem : connection ∈ (hub.roster.topic id).members :=
          (h.mem_members connection id).mpr hf
        rw [bodiesOn_announce _ _ _ _ (h.nodup id) hbody, if_pos rfl, if_pos hmem,
          List.map_singleton]
      · rw [if_neg hid, List.map_nil]
        refine bodiesOn_announce_other _ _ _ _ ?_
        rw [hbody]
        exact fun e => hid (Option.some.inj e)

/-- The contents of the frame that a connection is sent when it joins a conversation. -/
theorem bodiesOn_addressed_join (hub : Hub) (connection : Nat) (conversation : String)
    (active : Option Snapshot) (hactive : ∀ s ∈ active, s.key.conversation = conversation)
    (hattached : hub.roster.isAttached connection = true)
    (hnew : ¬hub.roster.Follows connection conversation) :
    bodiesOn conversation (hub.addressed connection (.follow connection conversation active)) =
      active.toList.map .snapshot := by
  rcases Option.isSome_iff_exists.mp hattached with ⟨sub, hsub⟩
  rcases hub.roster.joinConversation?_some connection conversation active sub hsub with
    ⟨t, -, hjoin⟩
  -- A first follow is not in the subscription yet, so the snapshot is sent.
  have hnot : conversation ∉ sub.conversations := fun hmem => hnew ⟨sub, hsub, hmem⟩
  rw [addressed, Roster.act, hjoin, Option.getD_some, if_neg hnot]
  cases active with
  | none => rfl
  | some s =>
      have hs : s.key.conversation = conversation := hactive s rfl
      have hframes : framesFor connection ((some s).toList.map fun s =>
          ⟨connection, .event (hub.roster.topic conversation).nextSeq (.snapshot s)⟩) =
          [.event (hub.roster.topic conversation).nextSeq (.snapshot s)] := by
        simp [framesFor]
      rw [hframes, bodiesOn_event, if_pos (by rw [Frame.Body.conversation?, hs])]
      rfl

/-- Joining anything else, or joining again, sends a connection nothing about a
    conversation. -/
theorem bodiesOn_addressed_follow (hub : Hub) (connection other : Nat)
    (conversation id : String) (active : Option Snapshot)
    (hactive : ∀ s ∈ active, s.key.conversation = id)
    (hold : other ≠ connection ∨ id ≠ conversation ∨
      hub.roster.Follows connection conversation) :
    bodiesOn conversation (hub.addressed connection (.follow other id active)) = [] := by
  rw [addressed, Roster.act]
  cases hsub : hub.roster.subscribers.get? other with
  | none =>
      rw [Roster.joinConversation?, hsub]
      rfl
  | some sub =>
      rcases hub.roster.joinConversation?_some other id active sub hsub with ⟨t, -, hjoin⟩
      rw [hjoin, Option.getD_some]
      by_cases hmem : id ∈ sub.conversations
      · rw [if_pos hmem]
        rfl
      · rw [if_neg hmem, bodiesOn_eq_nil_iff]
        intro f hf
        simp only [framesFor, List.mem_map, List.mem_filter, decide_eq_true_eq] at hf
        rcases hf with ⟨d, ⟨⟨s, hs, rfl⟩, hd⟩, rfl⟩
        have hkey : s.key.conversation = id := hactive s (by simpa using hs)
        -- Another connection is sent the frame, or it is about another conversation, or it is not
        -- sent because the conversation is on the list.
        rcases hold with hother | hid | hfollows
        · exact absurd hd hother
        · rw [Frame.event, Frame.Body.conversation?, hkey]
          exact fun e => hid (Option.some.inj e)
        · rw [Frame.event, Frame.Body.conversation?, hkey]
          intro e
          rcases hfollows with ⟨sub', hsub', hmem'⟩
          rw [← show other = connection from hd, hsub, Option.some.injEq] at hsub'
          exact hmem (Option.some.inj e ▸ hsub' ▸ hmem')

/-- A connection that does not follow a conversation and does not join it either is sent
    nothing about it. -/
theorem bodiesOn_addressed_stranger (hub : Hub) (h : hub.roster.Sound) (connection : Nat)
    (conversation : String) (a : Action) (ha : a.WellAddressed)
    (hnot : ¬hub.roster.Follows connection conversation)
    (hjoin : ∀ active, a ≠ .follow connection conversation active) :
    bodiesOn conversation (hub.addressed connection a) = [] := by
  -- Only two actions address frames of the conversation: a follow, which somebody else made, and an
  -- event, which goes to the members.
  cases a with
  | follow other id active =>
      refine bodiesOn_addressed_follow hub connection other conversation id active ha ?_
      by_cases ho : other = connection
      · by_cases hid : id = conversation
        · exact absurd (by rw [ho, hid]) (hjoin active)
        · exact Or.inr (Or.inl hid)
      · exact Or.inl ho
  | tell announcement =>
      cases announcement with
      | sidebar event =>
          refine bodiesOn_announce_other _ _ _ _ ?_
          rw [event.body_conversation?]
          exact (Option.some_ne_none conversation).symm
      | conversation id event =>
          have hbody : (event.body id).conversation? = some id := by
            rw [event.body_conversation?, ha]
          rw [addressed_conversation]
          by_cases hid : id = conversation
          · subst hid
            have hmem : connection ∉ (hub.roster.topic id).members :=
              fun hmem => hnot ((h.mem_members connection id).mp hmem)
            rw [bodiesOn_announce _ _ _ _ (h.nodup id) hbody, if_neg hmem]
          · refine bodiesOn_announce_other _ _ _ _ ?_
            rw [hbody]
            exact fun e => hid (Option.some.inj e)
  | _ => rfl

/-- A follower is sent the announcements on its conversation, each of them once and in order,
    and nothing else about it. -/
theorem bodiesOn_addressedAll (connection : Nat) (conversation : String) (actions : List Action)
    (hub : Hub) (h : hub.roster.Sound) (hf : hub.roster.Follows connection conversation)
    (hwell : ∀ a ∈ actions, a.WellAddressed)
    (hstay : ∀ a ∈ actions, a ≠ .reset ∧ a ≠ .detach connection) :
    bodiesOn conversation (addressedAll connection actions hub) =
      (eventsOn conversation (announced actions)).map (·.body conversation) := by
  -- The induction is on the actions, with the hub after each for the rest; that the connection
  -- follows throughout is what carries it.
  induction actions generalizing hub with
  | nil => rfl
  | cons a rest ih =>
      have ha := hwell a List.mem_cons_self
      have hsa := hstay a List.mem_cons_self
      have hfirst : bodiesOn conversation (hub.addressed connection a) =
          (eventsOn conversation (announced [a])).map (·.body conversation) := by
        cases a with
        | tell announcement => exact bodiesOn_addressed_tell hub h _ _ announcement ha hf
        | follow other id active =>
            exact bodiesOn_addressed_follow hub connection other conversation id active ha
              (Or.inr (Or.inr hf))
        | _ => rfl
      have hrest := ih (hub.act a) (by rw [act_roster]; exact h.act a)
        (by rw [act_roster]; exact hf.act h a hsa.1 hsa.2)
        (fun b hb => hwell b (List.mem_cons_of_mem _ hb))
        (fun b hb => hstay b (List.mem_cons_of_mem _ hb))
      rw [addressedAll, bodiesOn_append, hfirst, hrest, ← List.map_append, ← eventsOn_append,
        ← announced_append, List.singleton_append]

/-! ### Frames that wait -/

/-- The roster is in order, every connection has a mailbox, and no connection has frames about a
    conversation it does not follow. -/
structure Sound (hub : Hub) : Prop where
  roster : hub.roster.Sound
  mailbox : ∀ connection, hub.roster.isAttached connection = true →
    (hub.mailboxes.get? connection).isSome
  belongs : ∀ connection conversation, hub.roster.isAttached connection = true →
    ¬hub.roster.Follows connection conversation →
    bodiesOn conversation (hub.waiting connection) = []

theorem fresh_sound : fresh.Sound where
  roster := Roster.fresh_sound
  mailbox _ h := absurd h (by simp [fresh, Roster.fresh, Roster.isAttached, Table.contains])
  belongs _ _ h := absurd h (by simp [fresh, Roster.fresh, Roster.isAttached, Table.contains])

theorem Sound.opened {hub : Hub} (h : hub.Sound) (connection : Nat)
    (hattached : hub.roster.isAttached connection = true) : connection < hub.roster.opened := by
  rcases Option.isSome_iff_exists.mp hattached with ⟨sub, hsub⟩
  exact h.roster.opened connection sub hsub

/-- What waits after an action was waiting before or was addressed by it. -/
theorem mem_waiting_act (hub : Hub) (a : Action) (connection : Nat)
    (hold : connection < hub.roster.opened) (f : Frame)
    (hf : f ∈ (hub.act a).waiting connection) :
    f ∈ hub.waiting connection ∨ f ∈ hub.addressed connection a := by
  -- Whatever finds no room is lost, but nothing else is added.
  have hoffer : ∀ (fs : List Frame) (m : Mailbox), f ∈ (m.offerAll fs).items →
      f ∈ m.items ∨ f ∈ fs := by
    intro fs
    induction fs with
    | nil => exact fun m hmem => Or.inl hmem
    | cons g rest ih =>
        intro m hmem
        rcases ih (m.offer g) hmem with hm | hr
        · rw [Mailbox.offer_items, List.mem_append] at hm
          rcases hm with hm | hg
          · exact Or.inl hm
          · by_cases hroom : m.hasRoom = true
            · rw [if_pos hroom, List.mem_singleton] at hg
              exact Or.inr (List.mem_cons.mpr (Or.inl hg))
            · rw [if_neg hroom] at hg
              exact absurd hg List.not_mem_nil
        · exact Or.inr (List.mem_cons_of_mem _ hr)
  rw [waiting, act_mailbox hub a connection hold] at hf
  rw [waiting]
  cases hm : hub.mailboxes.get? connection with
  | none =>
      rw [hm] at hf
      exact absurd hf (by simp)
  | some m =>
      rw [hm] at hf
      simp only [Option.map_some, Option.getD_some] at hf ⊢
      refine (hoffer _ _ hf).imp (fun hc => ?_) id
      cases a with
      | close c =>
          by_cases h : c = connection
          · rw [Action.clear, if_pos h, Mailbox.close] at hc
            exact absurd hc List.not_mem_nil
          · rw [Action.clear, if_neg h] at hc
            exact hc
      | take c =>
          by_cases h : c = connection
          · rw [Action.clear, if_pos h] at hc
            exact List.mem_of_mem_tail hc
          · rw [Action.clear, if_neg h] at hc
            exact hc
      | _ => exact hc

/-- Frames stay where they belong. -/
theorem Sound.act {hub : Hub} (h : hub.Sound) (a : Action) (ha : a.WellAddressed) :
    (hub.act a).Sound where
  roster := by
    rw [act_roster]
    exact h.roster.act a
  mailbox := by
    intro connection hattached
    rw [act_roster] at hattached
    -- Either the connection was attached before the action, or the action attached it and its
    -- mailbox is new and empty.
    rcases hub.roster.isAttached_act a connection hattached with
      ⟨hold, -, -⟩ | ⟨⟨capacity, rfl⟩, hnew⟩
    · rw [act_mailbox hub a connection (h.opened connection hold), Option.isSome_map]
      exact h.mailbox connection hold
    · simp only [Hub.act, attach, Roster.attach, Table.get?_insert, if_pos hnew,
        Option.isSome_some]
  belongs := by
    intro connection conversation hattached hnot
    rw [act_roster] at hattached hnot
    rcases hub.roster.isAttached_act a connection hattached with
      ⟨hold, hreset, hstay⟩ | ⟨⟨capacity, rfl⟩, hnew⟩
    · have hbefore : ¬hub.roster.Follows connection conversation :=
        fun hf => hnot (hf.act h.roster a hreset hstay)
      -- Who joins follows afterwards.
      have hjoin : ∀ active, a ≠ .follow connection conversation active := by
        rintro active rfl
        exact hnot (hub.roster.follows_follow connection conversation active hold)
      rw [bodiesOn_eq_nil_iff]
      intro f hf
      rcases mem_waiting_act hub a connection (h.opened connection hold) f hf with hw | hadd
      · exact (bodiesOn_eq_nil_iff _ _).mp (h.belongs connection conversation hold hbefore) f hw
      · exact (bodiesOn_eq_nil_iff _ _).mp
          (bodiesOn_addressed_stranger hub h.roster connection conversation a ha hbefore hjoin)
          f hadd
    · simp only [Hub.act, attach, Roster.attach, waiting, Table.get?_insert, if_pos hnew,
        Option.map_some, Option.getD_some, Mailbox.ofCapacity, bodiesOn_nil]

theorem Sound.actAll {hub : Hub} (h : hub.Sound) (actions : List Action)
    (hwell : ∀ a ∈ actions, a.WellAddressed) : (hub.actAll actions).Sound := by
  induction actions generalizing hub with
  | nil => exact h
  | cons a rest ih =>
      exact ih (h.act a (hwell a List.mem_cons_self))
        fun b hb => hwell b (List.mem_cons_of_mem _ hb)

end Hub

end Switchboard

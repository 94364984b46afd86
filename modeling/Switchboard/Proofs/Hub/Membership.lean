import Mathlib.Data.List.Nodup
import Switchboard.Proofs.Hub.Action

/-!
# Membership

Who follows what is written down twice: a topic lists its members, and a
connection lists the conversations it follows. `Roster.Sound` says that the two
agree and that nobody is listed twice, so that an announcement reaches every
follower exactly once and nobody else.

A topic that is not there has no members, and a connection that is not there
follows nothing, so that the two lists can be compared without asking whether
there is anything to ask about.

## Main definitions

* `Roster.members`, `Roster.Follows`: The two ways to say who follows what.
* `Roster.Sound`: The two agree.

## Theorems

* `framesFor_announce`: An announcement reaches every member once.
* `Roster.joinConversation?_some`: What it means to join a conversation.
* `Roster.Sound.act`: Every action keeps the roster in order.
* `Roster.Follows.act`, `Roster.follows_follow`, `Roster.isAttached_act`: Who is there and follows
  what after an action.
-/

namespace Switchboard

/-- An announcement reaches a member once and nobody else, if no member is listed twice. -/
theorem framesFor_announce (t : Topic) (body : Frame.Body) (connection : Nat)
    (h : t.members.Nodup) : framesFor connection (t.announce body) =
      if connection ∈ t.members then [.event t.nextSeq body] else [] := by
  have hmap : framesFor connection (t.announce body) =
      (t.members.filter (· = connection)).map fun _ => .event t.nextSeq body := by
    rw [framesFor, Topic.announce, List.filter_map, List.map_map]
    rfl
  rw [hmap, List.filter_eq, h.count]
  by_cases hc : connection ∈ t.members
  · rw [if_pos hc, if_pos hc]
    rfl
  · rw [if_neg hc, if_neg hc]
    rfl

/-! ### The roster -/

namespace Roster

/-- The connections that are listed as followers of a conversation. -/
def members (r : Roster) (conversation : String) : List Nat :=
  (r.topic conversation).members

/-- Whether a connection is there and has a conversation on its list. -/
def Follows (r : Roster) (connection : Nat) (conversation : String) : Prop :=
  ∃ sub, r.subscribers.get? connection = some sub ∧ conversation ∈ sub.conversations

/-- The two lists agree, and nobody is listed twice. -/
structure Sound (r : Roster) : Prop where
  opened : ∀ connection sub, r.subscribers.get? connection = some sub → connection < r.opened
  mem_members : ∀ connection conversation,
    connection ∈ r.members conversation ↔ r.Follows connection conversation
  nodup : ∀ conversation, (r.members conversation).Nodup

theorem fresh_sound : fresh.Sound where
  opened _ _ h := absurd h (by simp [fresh])
  mem_members _ _ := by simp [members, topic, Follows, fresh, Topic.fresh]
  nodup _ := by simp [members, topic, fresh, Topic.fresh]

/-- The followers of a conversation, if they are those listed in some topics. -/
def membersIn (topics : Table String Topic) (conversation : String) : List Nat :=
  ((topics.get? conversation).getD .fresh).members

theorem membersIn_insert (topics : Table String Topic) (id conversation : String) (t : Topic) :
    membersIn (topics.insert id t) conversation =
      if conversation = id then t.members else membersIn topics conversation := by
  rw [membersIn, Table.get?_insert]
  by_cases h : conversation = id
  · rw [if_pos h, if_pos h, Option.getD_some]
  · rw [if_neg h, if_neg h, membersIn]

theorem membersIn_leaveTopic (connection : Nat) (topics : Table String Topic)
    (id conversation : String) :
    membersIn (leaveTopic connection topics id) conversation =
      if conversation = id then (membersIn topics conversation).filter (· ≠ connection)
      else membersIn topics conversation := by
  unfold leaveTopic
  cases ht : topics.get? id with
  | none =>
      by_cases h : conversation = id
      · rw [if_pos h, h, membersIn, ht, Option.getD_none, Topic.fresh, List.filter_nil]
      · rw [if_neg h]
  | some t =>
      have hin : membersIn topics id = t.members := by rw [membersIn, ht, Option.getD_some]
      -- A topic without members is removed, and then has none either.
      by_cases he : (t.leave connection).members.isEmpty = true
      · simp only [he, if_true]
        rw [membersIn, Table.get?_erase]
        by_cases h : conversation = id
        · rw [if_pos h, if_pos h, h, hin]
          exact (List.isEmpty_iff.mp he).symm
        · rw [if_neg h, if_neg h, membersIn]
      · simp only [he, Bool.false_eq_true, if_false, membersIn_insert]
        by_cases h : conversation = id
        · rw [if_pos h, if_pos h, h, hin, Topic.leave]
        · rw [if_neg h, if_neg h]

/-- Who leaves some topics is a member of none of them. -/
theorem membersIn_leaveAll (connection : Nat) (ids : List String)
    (topics : Table String Topic) (conversation : String) :
    membersIn (ids.foldl (leaveTopic connection) topics) conversation =
      if conversation ∈ ids then (membersIn topics conversation).filter (· ≠ connection)
      else membersIn topics conversation := by
  -- The induction is on the topics that are left, one after the other.
  induction ids generalizing topics with
  | nil => rw [List.foldl_nil, if_neg List.not_mem_nil]
  | cons id rest ih =>
      rw [List.foldl_cons, ih, membersIn_leaveTopic]
      by_cases hid : conversation = id
      · have hm : conversation ∈ id :: rest := List.mem_cons.mpr (Or.inl hid)
        rw [if_pos hid, if_pos hm, List.filter_filter]
        simp only [Bool.and_self, ite_self]
      · rw [if_neg hid]
        by_cases hr : conversation ∈ rest
        · rw [if_pos hr, if_pos (List.mem_cons_of_mem _ hr)]
        · rw [if_neg hr, if_neg fun h => (List.mem_cons.mp h).elim hid hr]

theorem members_eq (r : Roster) (conversation : String) :
    r.members conversation = membersIn r.topics conversation := rfl

/-- What it means to join a conversation: the connection is listed on both sides, and if it was
    not before, it is sent the state of the active run. -/
theorem joinConversation?_some (r : Roster) (connection : Nat) (conversation : String)
    (active : Option Snapshot) (sub : Subscriber)
    (hsub : r.subscribers.get? connection = some sub) :
    ∃ t, t.members = (r.members conversation).insert connection ∧
      r.joinConversation? connection conversation active =
        some (if conversation ∈ sub.conversations then []
            else active.toList.map fun s =>
              ⟨connection, .event (r.topic conversation).nextSeq (.snapshot s)⟩,
          { r with
            subscribers := r.subscribers.insert connection
              { sub with conversations := sub.conversations.insert conversation }
            topics := r.topics.insert conversation t }) := by
  unfold joinConversation?
  rw [hsub, Option.map_some]
  by_cases hknown : conversation ∈ sub.conversations
  · refine ⟨(r.topic conversation).join connection, rfl, ?_⟩
    simp only [decide_eq_true hknown, if_pos hknown]
  · cases active with
    | none =>
        refine ⟨(r.topic conversation).join connection, rfl, ?_⟩
        simp only [decide_eq_false hknown, if_neg hknown]
        rfl
    -- The frame that is sent takes a number of the topic.
    | some snapshot =>
        refine ⟨((r.topic conversation).join connection).numbered, rfl, ?_⟩
        simp only [decide_eq_false hknown, if_neg hknown]
        rfl

namespace Sound

variable {r : Roster}

/-- Numbers and the sidebar do not count. -/
theorem of_same (h : r.Sound) (r' : Roster)
    (hopened : ∀ connection sub, r'.subscribers.get? connection = some sub →
      connection < r'.opened)
    (hmembers : ∀ conversation, r'.members conversation = r.members conversation)
    (hfollows : ∀ connection conversation,
      r'.Follows connection conversation ↔ r.Follows connection conversation) : r'.Sound where
  opened := hopened
  mem_members connection conversation := by
    rw [hmembers, hfollows]
    exact h.mem_members connection conversation
  nodup conversation := by
    rw [hmembers]
    exact h.nodup conversation

theorem attach (h : r.Sound) : r.attach.2.Sound := by
  refine h.of_same _ ?_ (fun _ => rfl) ?_
  -- Whoever comes has a number that was not used and follows nothing.
  · intro connection sub hsub
    simp only [Roster.attach, Table.get?_insert] at hsub ⊢
    by_cases hc : connection = r.opened
    · omega
    · rw [if_neg hc] at hsub
      have := h.opened connection sub hsub
      omega
  · intro connection conversation
    simp only [Follows, Roster.attach, Table.get?_insert]
    by_cases hc : connection = r.opened
    · rw [if_pos hc]
      constructor
      · rintro ⟨sub, hsub, hmem⟩
        rw [← Option.some.inj hsub] at hmem
        exact absurd hmem List.not_mem_nil
      · rintro ⟨sub, hsub, -⟩
        exact absurd (h.opened connection sub hsub) (by omega)
    · rw [if_neg hc]

theorem follows_detach (r : Roster) (connection other : Nat) (conversation : String) :
    (r.detach connection).Follows other conversation ↔
      other ≠ connection ∧ r.Follows other conversation := by
  unfold Follows Roster.detach
  cases hsub : r.subscribers.get? connection with
  | none =>
      constructor
      · rintro ⟨sub, hs, hmem⟩
        refine ⟨?_, sub, hs, hmem⟩
        rintro rfl
        exact absurd (hsub.symm.trans hs) (by simp)
      · exact fun hp => hp.2
  | some sub =>
      simp only [Table.get?_erase]
      by_cases ho : other = connection
      · simp [ho]
      · simp [ho]

theorem detach (h : r.Sound) (connection : Nat) : (r.detach connection).Sound := by
  have hmembers : ∀ conversation, (r.detach connection).members conversation =
      (r.members conversation).filter (· ≠ connection) := by
    intro conversation
    -- Who is not listed need not be taken off the list.
    have hself : connection ∉ r.members conversation →
        r.members conversation = (r.members conversation).filter (· ≠ connection) := by
      intro hnot
      rw [List.filter_eq_self.mpr]
      intro other hother
      exact decide_eq_true fun e => hnot (e ▸ hother)
    unfold Roster.detach
    cases hsub : r.subscribers.get? connection with
    | none =>
        refine hself fun hmem => ?_
        rcases (h.mem_members connection conversation).mp hmem with ⟨sub, hs, -⟩
        exact absurd (hsub.symm.trans hs) (by simp)
    | some sub =>
        simp only [members_eq, membersIn_leaveAll]
        by_cases hc : conversation ∈ sub.conversations
        · rw [if_pos hc]
        · rw [if_neg hc]
          refine hself fun hmem => ?_
          rcases (h.mem_members connection conversation).mp hmem with ⟨sub', hs, hin⟩
          exact hc (Option.some.inj (hsub.symm.trans hs) ▸ hin)
  refine ⟨?_, ?_, ?_⟩
  · intro other sub
    unfold Roster.detach
    cases r.subscribers.get? connection with
    | none => exact h.opened other sub
    | some sub' =>
        simp only [Table.get?_erase]
        intro hs
        by_cases ho : other = connection
        · rw [if_pos ho] at hs
          exact absurd hs (by simp)
        · rw [if_neg ho] at hs
          exact h.opened other sub hs
  · intro other conversation
    rw [hmembers, List.mem_filter, h.mem_members, follows_detach, decide_eq_true_eq]
    exact And.comm
  · intro conversation
    rw [hmembers]
    exact (h.nodup conversation).filter _

theorem reset (r : Roster) : r.reset.Sound where
  opened _ _ hs := absurd hs (by simp [Roster.reset, fresh])
  mem_members _ _ := by simp [members, topic, Follows, Roster.reset, fresh, Topic.fresh]
  nodup _ := by simp [members, topic, Roster.reset, fresh, Topic.fresh]

theorem joinSidebar? (h : r.Sound) (connection : Nat) :
    ((r.joinSidebar? connection).getD r).Sound := by
  -- The sidebar has its own list, and no conversation changes.
  unfold Roster.joinSidebar?
  cases hsub : r.subscribers.get? connection with
  | none => exact h
  | some sub =>
      rw [Option.map_some, Option.getD_some]
      refine h.of_same _ ?_ (fun _ => rfl) ?_
      · intro other sub' hs
        simp only [Table.get?_insert] at hs
        by_cases ho : other = connection
        · exact ho ▸ h.opened connection sub hsub
        · rw [if_neg ho] at hs
          exact h.opened other sub' hs
      · intro other conversation
        simp only [Follows, Table.get?_insert]
        by_cases ho : other = connection
        · simp [ho, hsub]
        · simp [ho]

theorem publish? (h : r.Sound) (conversation : String) (event : ConversationEvent) :
    (((r.publish? conversation event).map (·.2)).getD r).Sound := by
  unfold Roster.publish?
  cases ht : r.topics.get? conversation with
  | none => exact h
  | some t =>
      simp only [Option.map_some, Option.getD_some]
      refine h.of_same _ h.opened (fun id => ?_) (fun _ _ => Iff.rfl)
      simp only [members_eq, membersIn_insert]
      by_cases hid : id = conversation
      · rw [if_pos hid, hid, membersIn, ht, Option.getD_some, Topic.numbered]
      · rw [if_neg hid]

end Sound

/-- Who follows what after a connection that is there joined a conversation. -/
theorem follows_joined (r : Roster) (connection : Nat) (conversation : String)
    (sub : Subscriber) (hsub : r.subscribers.get? connection = some sub)
    (topics : Table String Topic) (other : Nat) (id : String) :
    ({ r with
        subscribers := r.subscribers.insert connection
          { sub with conversations := sub.conversations.insert conversation }
        topics } : Roster).Follows other id ↔
      r.Follows other id ∨ other = connection ∧ id = conversation := by
  simp only [Follows, Table.get?_insert]
  by_cases ho : other = connection
  · subst ho
    simp only [if_true, Option.some.injEq, exists_eq_left', hsub, List.mem_insert_iff, true_and]
    exact Or.comm
  · rw [if_neg ho]
    exact ⟨Or.inl, fun hp => hp.resolve_right fun hc => ho hc.1⟩

namespace Sound

variable {r : Roster}

theorem joinConversation? (h : r.Sound) (connection : Nat) (conversation : String)
    (active : Option Snapshot) :
    (((r.joinConversation? connection conversation active).map (·.2)).getD r).Sound := by
  cases hsub : r.subscribers.get? connection with
  | none =>
      rw [Roster.joinConversation?, hsub]
      exact h
  | some sub =>
      rcases joinConversation?_some r connection conversation active sub hsub with ⟨t, ht, hjoin⟩
      simp only [hjoin, Option.map_some, Option.getD_some]
      -- The one list that changes.
      have hmembers : ∀ id, membersIn (r.topics.insert conversation t) id =
          if id = conversation then (r.members conversation).insert connection
          else r.members id := by
        intro id
        rw [membersIn_insert, ht]
        rfl
      refine ⟨?_, ?_, ?_⟩
      · intro other sub' hs
        simp only [Table.get?_insert] at hs
        by_cases ho : other = connection
        · exact ho ▸ h.opened connection sub hsub
        · rw [if_neg ho] at hs
          exact h.opened other sub' hs
      · intro other id
        rw [members_eq, follows_joined r connection conversation sub hsub]
        simp only [hmembers]
        by_cases hid : id = conversation
        · subst hid
          rw [if_pos rfl, List.mem_insert_iff, h.mem_members]
          simp only [and_true]
          exact Or.comm
        · rw [if_neg hid, h.mem_members]
          simp only [hid, and_false, or_false]
      · intro id
        rw [members_eq]
        simp only [hmembers]
        by_cases hid : id = conversation
        · rw [if_pos hid]
          exact (h.nodup conversation).insert
        · rw [if_neg hid]
          exact h.nodup id

/-- Every action keeps the roster in order. -/
theorem act (h : r.Sound) (a : Hub.Action) : (r.act a).2.Sound := by
  -- Only coming, leaving and joining touch the lists; announcing counts and addresses.
  cases a with
  | attach capacity => exact h.attach
  | detach connection => exact h.detach connection
  | reset => exact Sound.reset r
  | close connection => exact h
  | take connection => exact h
  | followSidebar connection => exact h.joinSidebar? connection
  | follow connection conversation active =>
      have := h.joinConversation? connection conversation active
      simp only [Roster.act]
      cases hj : r.joinConversation? connection conversation active with
      | none => exact h
      | some p =>
          rw [hj] at this
          exact this
  | tell announcement =>
      cases announcement with
      | sidebar event => exact h.of_same _ h.opened (fun _ => rfl) fun _ _ => Iff.rfl
      | conversation id event =>
          have := h.publish? id event
          simp only [Roster.act]
          cases hp : r.publish? id event with
          | none => exact h
          | some p =>
              rw [hp] at this
              exact this

end Sound

/-- A connection follows what it followed as long as it is there. -/
theorem Follows.act {r : Roster} (h : r.Sound) {connection : Nat} {conversation : String}
    (hf : r.Follows connection conversation) (a : Hub.Action) (hreset : a ≠ .reset)
    (hstay : a ≠ .detach connection) : (r.act a).2.Follows connection conversation := by
  -- A connection stays on its topics unless it leaves or everything is reset.
  cases a with
  | attach capacity =>
      rcases hf with ⟨sub, hsub, hmem⟩
      have hne : connection ≠ r.opened := Nat.ne_of_lt (h.opened connection sub hsub)
      exact ⟨sub, by simp only [Roster.act, attach, Table.get?_insert, if_neg hne, hsub], hmem⟩
  | detach other =>
      exact (Sound.follows_detach ..).mpr ⟨fun e => hstay (by rw [e]), hf⟩
  | reset => exact absurd rfl hreset
  | close other => exact hf
  | take other => exact hf
  | followSidebar other =>
      simp only [Roster.act, joinSidebar?]
      cases hother : r.subscribers.get? other with
      | none => exact hf
      | some sub' =>
          -- The other connection may be the same one, whose conversations stay.
          rcases hf with ⟨sub, hsub, hmem⟩
          by_cases ho : connection = other
          · refine ⟨{ sub' with sidebar := true }, ?_, ?_⟩
            · simp only [Option.map_some, Option.getD_some, Table.get?_insert, if_pos ho]
            · rw [ho, hother] at hsub
              exact Option.some.inj hsub ▸ hmem
          · refine ⟨sub, ?_, hmem⟩
            simp only [Option.map_some, Option.getD_some, Table.get?_insert, if_neg ho, hsub]
  | follow other id active =>
      simp only [Roster.act]
      cases hother : r.subscribers.get? other with
      | none =>
          rw [joinConversation?, hother]
          exact hf
      | some sub' =>
          rcases joinConversation?_some r other id active sub' hother with ⟨t, -, hjoin⟩
          rw [hjoin, Option.getD_some]
          exact (follows_joined r other id sub' hother _ connection conversation).mpr (Or.inl hf)
  | tell announcement =>
      cases announcement with
      | sidebar event => exact hf
      | conversation id event =>
          simp only [Roster.act, publish?]
          cases r.topics.get? id <;> exact hf

/-- A connection that joins a conversation follows it. -/
theorem follows_follow (r : Roster) (connection : Nat) (conversation : String)
    (active : Option Snapshot) (hattached : r.isAttached connection = true) :
    (r.act (.follow connection conversation active)).2.Follows connection conversation := by
  rcases Option.isSome_iff_exists.mp hattached with ⟨sub, hsub⟩
  rcases joinConversation?_some r connection conversation active sub hsub with ⟨t, -, hjoin⟩
  rw [Roster.act, hjoin, Option.getD_some]
  exact (follows_joined r connection conversation sub hsub _ connection conversation).mpr
    (Or.inr ⟨rfl, rfl⟩)

/-- A connection that is there was there before, or it has just come. -/
theorem isAttached_act (r : Roster) (a : Hub.Action) (connection : Nat)
    (hattached : (r.act a).2.isAttached connection = true) :
    (r.isAttached connection = true ∧ a ≠ .reset ∧ a ≠ .detach connection) ∨
      (∃ capacity, a = .attach capacity) ∧ connection = r.opened := by
  -- A connection is there if it was there, or if it is the one that comes.
  unfold isAttached Table.contains at hattached ⊢
  cases a with
  | attach capacity =>
      simp only [Roster.act, attach, Table.get?_insert] at hattached
      by_cases hc : connection = r.opened
      · exact Or.inr ⟨⟨capacity, rfl⟩, hc⟩
      · rw [if_neg hc] at hattached
        exact Or.inl ⟨hattached, by simp, by simp⟩
  | detach other =>
      simp only [Roster.act, detach] at hattached
      cases hother : r.subscribers.get? other with
      | none =>
          rw [hother] at hattached
          refine Or.inl ⟨hattached, by simp, ?_⟩
          -- A connection that is not there cannot leave.
          rintro ⟨⟩
          rw [hother] at hattached
          exact absurd hattached (by simp)
      | some sub =>
          simp only [hother, Table.get?_erase] at hattached
          by_cases hc : connection = other
          · rw [if_pos hc] at hattached
            exact absurd hattached (by simp)
          · rw [if_neg hc] at hattached
            exact Or.inl ⟨hattached, by simp, fun e => hc (Hub.Action.detach.inj e).symm⟩
  | reset => exact absurd hattached (by simp [Roster.act, reset, fresh])
  | close other => exact Or.inl ⟨hattached, by simp, by simp⟩
  | take other => exact Or.inl ⟨hattached, by simp, by simp⟩
  | followSidebar other =>
      refine Or.inl ⟨?_, by simp, by simp⟩
      simp only [Roster.act, joinSidebar?] at hattached
      cases hother : r.subscribers.get? other with
      | none =>
          rw [hother] at hattached
          exact hattached
      | some sub =>
          simp only [hother, Option.map_some, Option.getD_some, Table.get?_insert] at hattached
          by_cases hc : connection = other
          · rw [hc, hother, Option.isSome_some]
          · rw [if_neg hc] at hattached
            exact hattached
  | follow other id active =>
      refine Or.inl ⟨?_, by simp, by simp⟩
      simp only [Roster.act] at hattached
      cases hother : r.subscribers.get? other with
      | none =>
          rw [joinConversation?, hother] at hattached
          exact hattached
      | some sub =>
          rcases joinConversation?_some r other id active sub hother with ⟨t, -, hjoin⟩
          simp only [hjoin, Option.getD_some, Table.get?_insert] at hattached
          by_cases hc : connection = other
          · rw [hc, hother, Option.isSome_some]
          · rw [if_neg hc] at hattached
            exact hattached
  | tell announcement =>
      refine Or.inl ⟨?_, by simp, by simp⟩
      cases announcement with
      | sidebar event => exact hattached
      | conversation id event =>
          simp only [Roster.act, publish?] at hattached
          cases ht : r.topics.get? id with
          | none =>
              rw [ht] at hattached
              exact hattached
          | some t =>
              rw [ht] at hattached
              exact hattached

end Roster

end Switchboard

import Switchboard.Proofs.Hub.Topics

/-!
# Presence

What is left of a connection when it goes, and when a topic is there. Members
and connections agree about who follows what (`Roster.Orderly`); what is added
here is that a conversation is a topic exactly as long as somebody follows it.
That has to be kept by everything that takes a member off a list, which is only
done when a connection goes.

A connection that goes is looked up once, and the topics it leaves are those on
its own list. Since the two sides agree, no other topic has it as a member, so
that nothing of it remains, and a connection that is not there, because it went
before or because the hub was reset, leaves nothing behind that could be missed.

## Main definitions

* `Roster.Populated`: No topic of a conversation is without members.

## Theorems

* `Roster.Populated.act`: Every action keeps the topics populated.
* `Roster.hasTopic_iff`: A conversation is a topic exactly if somebody follows it.
* `Roster.isOn_detach`: Who follows what after a connection went.
* `Hub.memberships_agree`: What this means after every course of events.
-/

namespace Switchboard

namespace Roster

/-! ### Topics that are there -/

/-- Whether none of some topics is without members. -/
def Populated (topics : Table String Topic) : Prop :=
  ∀ id t, topics.get? id = some t → t.members ≠ []

theorem Populated.insert {topics : Table String Topic} (h : Populated topics) (id : String)
    (t : Topic) (ht : t.members ≠ []) : Populated (topics.insert id t) := by
  intro other u hu
  rw [Table.get?_insert] at hu
  by_cases ho : other = id
  · rw [if_pos ho, Option.some.injEq] at hu
    exact hu ▸ ht
  · rw [if_neg ho] at hu
    exact h other u hu

theorem Populated.erase {topics : Table String Topic} (h : Populated topics) (id : String) :
    Populated (topics.erase id) := by
  intro other u hu
  rw [Table.get?_erase] at hu
  by_cases ho : other = id
  · rw [if_pos ho] at hu
    exact absurd hu (by simp)
  · rw [if_neg ho] at hu
    exact h other u hu

/-- A topic that the last member leaves is not kept. -/
theorem Populated.leaveTopic {topics : Table String Topic} (h : Populated topics)
    (connection : Nat) (id : String) : Populated (leaveTopic connection topics id) := by
  unfold Roster.leaveTopic
  cases topics.get? id with
  | none => exact h
  | some t =>
      by_cases he : (t.leave connection).members.isEmpty = true
      · simp only [if_pos he]
        exact h.erase id
      · simp only [if_neg he]
        exact h.insert id _ fun hnil => he (List.isEmpty_iff.mpr hnil)

theorem Populated.leaveAll {topics : Table String Topic} (h : Populated topics)
    (connection : Nat) (ids : List String) :
    Populated (ids.foldl (Roster.leaveTopic connection) topics) := by
  induction ids generalizing topics with
  | nil => exact h
  | cons id rest ih => exact ih (h.leaveTopic connection id)

/-- Every action keeps the topics populated. -/
theorem Populated.act {r : Roster} (h : Populated r.topics) (a : Hub.Action) :
    Populated (r.act a).2.topics := by
  cases a with
  | detach connection =>
      simp only [Roster.act, detach]
      cases r.subscribers.get? connection with
      | none => exact h
      | some sub => exact h.leaveAll connection sub.conversations
  | reset => exact fun _ _ ht => absurd ht (by simp [Roster.act, reset, fresh])
  -- The sidebar is no entry of the table, so joining it leaves the topics alone.
  | followSidebar connection =>
      simp only [Roster.act, joinSidebar?]
      cases r.subscribers.get? connection <;> exact h
  | follow connection id active =>
      cases hsub : r.subscribers.get? connection with
      | none =>
          rw [(r.act_follow_absent connection id active hsub).1]
          exact h
      | some sub =>
          rw [r.act_follow connection id active sub hsub]
          -- Whoever joins is a member.
          refine h.insert id _ fun hnil => ?_
          have hmem : connection ∈ (r.topic id).members.insert connection :=
            List.mem_insert_iff.mpr (Or.inl rfl)
          exact List.ne_nil_of_mem hmem hnil
  | tell announcement =>
      cases announcement with
      | sidebar event => exact h
      | conversation id event =>
          -- An announcement creates no topic, and the one it numbers keeps its members.
          simp only [Roster.act, publish?]
          cases ht : r.topics.get? id with
          | none => exact h
          | some t => exact h.insert id _ (h id t ht)
  | attach capacity => exact h
  | close connection => exact h
  | take connection => exact h

/-- A conversation is a topic exactly if somebody follows it. -/
theorem hasTopic_iff {r : Roster} (h : r.Orderly) (hp : Populated r.topics) (id : String) :
    r.hasTopic (.conversation id) = true ↔ ∃ connection, r.Follows connection id := by
  constructor
  · intro hthere
    rcases Option.isSome_iff_exists.mp hthere with ⟨t, ht⟩
    rcases List.exists_mem_of_ne_nil _ (hp id t ht) with ⟨connection, hmem⟩
    refine ⟨connection, (h.mem_members connection id).mp ?_⟩
    rwa [members, topic, ht, Option.getD_some]
  · rintro ⟨connection, hf⟩
    have hon : r.IsOn connection (.conversation id) := hf
    exact h.hasTopic hon

theorem followers_eq (r : Roster) (id : String) : r.followers id = (r.members id).length := by
  rw [followers, members, topic]
  cases r.topics.get? id <;> rfl

/-- A conversation has followers exactly if one can be named. -/
theorem followers_pos_iff {r : Roster} (h : r.Orderly) (id : String) :
    0 < r.followers id ↔ ∃ connection, r.Follows connection id := by
  rw [followers_eq, List.length_pos_iff_exists_mem]
  exact exists_congr fun connection => h.mem_members connection id

/-! ### Connections that go -/

theorem subscribers_detach (r : Roster) (connection other : Nat) :
    (r.detach connection).subscribers.get? other =
      if other = connection then none else r.subscribers.get? other := by
  unfold detach
  cases hsub : r.subscribers.get? connection with
  | none =>
      by_cases ho : other = connection
      · rw [if_pos ho, ho, hsub]
      · rw [if_neg ho]
  | some sub => exact Table.get?_erase ..

/-- Who is on which topic after a connection went. -/
theorem isOn_detach (r : Roster) (connection other : Nat) (name : TopicName) :
    (r.detach connection).IsOn other name ↔ other ≠ connection ∧ r.IsOn other name := by
  cases name with
  | conversation id => exact Sound.follows_detach r connection other id
  | sidebar =>
      simp only [IsOn, subscribers_detach]
      by_cases ho : other = connection
      · simp [ho]
      · simp [ho]

/-- A connection that is not there has nothing to leave. -/
theorem detach_absent (r : Roster) (connection : Nat) (h : r.isAttached connection = false) :
    r.detach connection = r := by
  have hsub : r.subscribers.get? connection = none := by
    simpa [isAttached, Table.contains] using h
  rw [detach, hsub]

/-- A connection that is not on the roster cannot join anything, and every other one can. -/
theorem joins_iff (r : Roster) (connection : Nat) :
    (r.joinSidebar? connection = none ↔ r.isAttached connection = false) ∧
      ∀ id active, r.joinConversation? connection id active = none ↔
        r.isAttached connection = false := by
  unfold joinSidebar? joinConversation? isAttached Table.contains
  cases r.subscribers.get? connection <;> simp

/-- Without connections nothing has a member, and the sidebar is the only topic. -/
theorem deserted {r : Roster} (h : r.Orderly) (hp : Populated r.topics)
    (hgone : ∀ connection, r.isAttached connection = false) :
    r.topics.isEmpty = true ∧ r.sidebar.members = [] ∧ r.memberships = 0 := by
  -- With no connection attached nobody is on any topic, and each thing left would have somebody on
  -- it.
  have hnobody : ∀ connection name, ¬r.IsOn connection name := by
    intro connection name hon
    exact absurd (hon.isAttached.symm.trans (hgone connection)) (by simp)
  have htopics : r.topics.entries = [] := by
    rw [List.eq_nil_iff_forall_not_mem]
    rintro ⟨id, t⟩ hmem
    have hthere : r.hasTopic (.conversation id) = true :=
      Table.contains_of_some ((r.topics.mem_entries id t).mp hmem)
    rcases (hasTopic_iff h hp id).mp hthere with ⟨connection, hf⟩
    exact hnobody connection (.conversation id) hf
  refine ⟨by rw [Table.isEmpty, htopics, List.isEmpty_nil], ?_, ?_⟩
  · rw [List.eq_nil_iff_forall_not_mem]
    intro connection hmem
    exact hnobody connection .sidebar ((h.mem_sidebar connection).mp hmem)
  · rw [memberships, Table.values, htopics, List.map_nil, List.foldl_nil]

end Roster

namespace Hub

theorem populated_actAll {hub : Hub} (h : Roster.Populated hub.roster.topics)
    (actions : List Action) : Roster.Populated (hub.actAll actions).roster.topics := by
  induction actions generalizing hub with
  | nil => exact h
  | cons a rest ih =>
      refine ih ?_
      rw [act_roster]
      exact h.act a

theorem fresh_populated : Roster.Populated fresh.roster.topics :=
  fun _ _ ht => absurd ht (by simp [fresh, Roster.fresh])

/-- A connection that is not there cannot join anything, and trying changes nothing. -/
theorem join_refused (hub : Hub) (connection : Nat) :
    ((hub.subscribeSidebar? connection = none ↔ hub.roster.isAttached connection = false) ∧
      ∀ id active, hub.subscribe? connection id active = none ↔
        hub.roster.isAttached connection = false) ∧
    (hub.roster.isAttached connection = false →
      hub.act (.followSidebar connection) = hub ∧
        ∀ id active, hub.act (.follow connection id active) = hub) := by
  rcases hub.roster.joins_iff connection with ⟨hsidebar, hconversation⟩
  have hrefused : ∀ id active, hub.subscribe? connection id active = none ↔
      hub.roster.isAttached connection = false := by
    intro id active
    rw [← hconversation id active, subscribe?, Option.map_eq_none_iff]
  have hsidebar' : hub.subscribeSidebar? connection = none ↔
      hub.roster.isAttached connection = false := by
    rw [← hsidebar, subscribeSidebar?, Option.map_eq_none_iff]
  refine ⟨⟨hsidebar', hrefused⟩, fun habsent => ⟨?_, fun id active => ?_⟩⟩
  · rw [act, hsidebar'.mpr habsent, Option.getD_none]
  · rw [act, (hrefused id active).mpr habsent, Option.map_none, Option.getD_none]

/-- Whatever happened to the hub, a connection is a member of a topic exactly if it is there and
    has the topic on its own list, nobody is listed twice, and a conversation is a topic exactly
    if it has a follower. A connection that is not there is refused and changes nothing, whether
    it wants to join or to go. One that goes is a member of nothing afterwards; everybody else
    follows what they followed, and the topics that are still there keep their numbers. When
    everybody has gone, no topic but the sidebar is there and nobody is a member of it. -/
theorem memberships_agree (actions : List Action) :
    let hub := fresh.actAll actions
    let r := hub.roster
    ((∀ connection id, (∃ t, r.topics.get? id = some t ∧ connection ∈ t.members) ↔
        ∃ sub, r.subscribers.get? connection = some sub ∧ id ∈ sub.conversations) ∧
      (∀ connection, connection ∈ r.sidebar.members ↔
        ∃ sub, r.subscribers.get? connection = some sub ∧ sub.sidebar = true) ∧
      (∀ name, (r.topicOf name).members.Nodup) ∧
      ∀ id, r.topics.contains id = true ↔ 0 < r.followers id) ∧
    (∀ connection,
      (hub.subscribeSidebar? connection = none ↔ r.isAttached connection = false) ∧
      (∀ id active, hub.subscribe? connection id active = none ↔
        r.isAttached connection = false) ∧
      (r.isAttached connection = false →
        hub.act (.followSidebar connection) = hub ∧
        (∀ id active, hub.act (.follow connection id active) = hub) ∧
        hub.detach connection = hub)) ∧
    (∀ connection,
      let after := (hub.detach connection).roster
      after.isAttached connection = false ∧
      (∀ name, connection ∉ (after.topicOf name).members) ∧
      (∀ other, other ≠ connection →
        after.subscribers.get? other = r.subscribers.get? other ∧
        ∀ name, other ∈ (after.topicOf name).members ↔ other ∈ (r.topicOf name).members) ∧
      ∀ name, after.hasTopic name = true →
        (after.topicOf name).nextSeq = (r.topicOf name).nextSeq) ∧
    ((∀ connection, r.isAttached connection = false) →
      r.topics.isEmpty = true ∧ r.sidebar.members = [] ∧ r.memberships = 0) := by
  intro hub r
  have h : r.Orderly := orderly_actAll fresh_orderly actions
  have hp : Roster.Populated r.topics := populated_actAll fresh_populated actions
  refine ⟨⟨?_, h.mem_sidebar, h.nodup_members, ?_⟩, ?_, ?_, Roster.deserted h hp⟩
  · intro connection id
    refine Iff.trans ?_ (h.mem_members connection id)
    -- A topic that is not there has no members.
    rw [Roster.members, Roster.topic]
    cases r.topics.get? id with
    | none => simp [Topic.fresh]
    | some t => simp
  · intro id
    -- A topic that is there has a member, so its followers cannot number none.
    exact (Roster.hasTopic_iff h hp id).trans (Roster.followers_pos_iff h id).symm
  · intro connection
    rcases hub.join_refused connection with ⟨⟨hsidebar, hconversation⟩, hnothing⟩
    refine ⟨hsidebar, hconversation, fun habsent => ?_⟩
    refine ⟨(hnothing habsent).1, (hnothing habsent).2, ?_⟩
    rw [detach, hub.roster.detach_absent connection habsent]
  -- Leaving: the one who left is on nothing, and for the others nothing changed.
  · intro connection
    have hafter : (r.detach connection).Orderly := h.act (.detach connection)
    refine ⟨?_, ?_, ?_, ?_⟩
    · refine Table.contains_of_none ?_
      rw [detach, Roster.subscribers_detach, if_pos rfl]
    · intro name hmem
      exact ((r.isOn_detach connection connection name).mp
        ((hafter.mem_iff connection name).mp hmem)).1 rfl
    · intro other hne
      refine ⟨?_, fun name => ?_⟩
      · rw [detach, Roster.subscribers_detach, if_neg hne]
      · calc other ∈ ((r.detach connection).topicOf name).members
            ↔ (r.detach connection).IsOn other name := hafter.mem_iff other name
          _ ↔ r.IsOn other name :=
              (r.isOn_detach connection other name).trans (and_iff_right hne)
          _ ↔ other ∈ (r.topicOf name).members := (h.mem_iff other name).symm
    · exact fun name hthere => r.nextSeq_detach connection name hthere

end Hub

end Switchboard

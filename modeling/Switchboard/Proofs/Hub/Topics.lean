import Switchboard.Proofs.Hub.Membership

/-!
# Topics and their Numbers

The sidebar and the conversations that somebody follows are topics of one kind:
each has members and a number for its next frame. Here they are spoken of under
one name, so that what is said of a topic is said once.

An action says at most one thing, on one topic. It takes a number of that topic
if the topic is there, or if it greets a connection that has just joined; all
frames that go out with it carry that number, and no other topic is touched.
`Roster.framesFor_act` says so for the frames and `Roster.nextSeq_act` for the
numbers.

## Main definitions

* `TopicName`: The names of the topics.
* `Hub.Action.message?`: What an action says, and on which topic.
* `Roster.topicOf`, `Roster.hasTopic`, `Roster.IsOn`: A topic, whether it is there, and whether a
  connection is on it.
* `Roster.numbered?`: What takes a number of a topic.
* `Roster.Orderly`: Members and connections agree about all topics.

## Theorems

* `Roster.nextSeq_act`: How the number of a topic changes.
* `Roster.Orderly.act`: Every action keeps members and connections in agreement.
* `Roster.framesFor_act`: A connection is sent at most one frame, with the number of its topic.
-/

namespace Switchboard

/-- The names of the topics. -/
inductive TopicName where
  | sidebar
  | conversation (id : String)
  deriving DecidableEq

/-- What an action says, and on which topic. -/
def Hub.Action.message? : Hub.Action → Option (TopicName × Frame.Body)
  | .follow _ id active => active.map fun s => (.conversation id, .snapshot s)
  | .tell (.sidebar event) => some (.sidebar, event.body)
  | .tell (.conversation id event) => some (.conversation id, event.body id)
  | _ => none

namespace Roster

/-- The topic of a name. One that is not there is like a new one. -/
def topicOf (r : Roster) : TopicName → Topic
  | .sidebar => r.sidebar
  | .conversation id => r.topic id

/-- Whether a topic is there. The sidebar always is. -/
def hasTopic (r : Roster) : TopicName → Bool
  | .sidebar => true
  | .conversation id => r.topics.contains id

/-- Whether a connection is there and follows a topic. -/
def IsOn (r : Roster) (connection : Nat) : TopicName → Prop
  | .sidebar => ∃ sub, r.subscribers.get? connection = some sub ∧ sub.sidebar = true
  | .conversation id => r.Follows connection id

/-- Whether what an action says takes a number: an announcement does if its topic is there, and
    the state of a run if it is sent to a connection that did not follow the conversation. -/
def counts (r : Roster) : Hub.Action → Bool
  | .follow connection id _ =>
    (r.subscribers.get? connection).any fun sub => decide (id ∉ sub.conversations)
  | .tell (.conversation id _) => r.hasTopic (.conversation id)
  | _ => true

/-- What takes a number of a topic when an action is carried out. -/
def numbered? (r : Roster) (name : TopicName) (a : Hub.Action) : Option Frame.Body :=
  match a.message? with
  | some (topic, body) => if topic = name ∧ r.counts a = true then some body else none
  | none => none

theorem numbered?_of_message (r : Roster) (name : TopicName) (body : Frame.Body) (a : Hub.Action)
    (hmessage : a.message? = some (name, body)) (hcounts : r.counts a = true) :
    r.numbered? name a = some body := by
  simp only [numbered?, hmessage, hcounts, and_self, if_true]

/-- What takes a number was said on the topic. -/
theorem message_of_numbered (r : Roster) (name : TopicName) (body : Frame.Body) (a : Hub.Action)
    (h : r.numbered? name a = some body) : a.message? = some (name, body) := by
  unfold numbered? at h
  cases hmessage : a.message? with
  | none =>
      rw [hmessage] at h
      exact absurd h (by simp)
  | some p =>
      rw [hmessage] at h
      by_cases hp : p.1 = name ∧ r.counts a = true
      · have hbody : p.2 = body := Option.some.inj ((if_pos hp).symm.trans h)
        rw [← hp.1, ← hbody]
      · exact absurd ((if_neg hp).symm.trans h) (by simp)

theorem numbered?_of_silent (r : Roster) (name : TopicName) (a : Hub.Action)
    (hmessage : a.message? = none) : r.numbered? name a = none := by
  simp only [numbered?, hmessage]

theorem numbered?_of_uncounted (r : Roster) (name : TopicName) (a : Hub.Action)
    (hcounts : r.counts a = false) : r.numbered? name a = none := by
  unfold numbered?
  cases a.message? with
  | none => rfl
  | some p => exact if_neg fun hp => absurd (hcounts.symm.trans hp.2) Bool.false_ne_true

/-- What is said on one topic takes no number of another one. -/
theorem numbered?_other (r : Roster) (name topic : TopicName) (body : Frame.Body)
    (a : Hub.Action) (hmessage : a.message? = some (topic, body)) (hne : topic ≠ name) :
    r.numbered? name a = none := by
  simp only [numbered?, hmessage, if_neg fun hp : topic = name ∧ _ => hne hp.1]

/-! ### Numbers -/

theorem nextSeq_absent (r : Roster) (name : TopicName) (h : r.hasTopic name = false) :
    (r.topicOf name).nextSeq = initialSeq := by
  cases name with
  | sidebar => exact absurd h (by simp [hasTopic])
  | conversation id =>
      have hnone : r.topics.get? id = none := by
        simpa [hasTopic, Table.contains] using h
      rw [topicOf, topic, hnone, Option.getD_none, Topic.fresh]

/-- Whoever leaves some topics leaves their numbers as they are. -/
theorem nextSeq_leaveAll (connection : Nat) (ids : List String) (topics : Table String Topic)
    (id : String) (t : Topic)
    (h : (ids.foldl (leaveTopic connection) topics).get? id = some t) :
    ∃ before, topics.get? id = some before ∧ before.nextSeq = t.nextSeq := by
  -- The induction is on the conversations left, one topic at a time.
  induction ids generalizing topics with
  | nil => exact ⟨t, h, rfl⟩
  | cons other rest ih =>
      rcases ih (leaveTopic connection topics other) h with ⟨u, hu, hseq⟩
      unfold leaveTopic at hu
      cases ho : topics.get? other with
      | none =>
          rw [ho] at hu
          exact ⟨u, hu, hseq⟩
      | some v =>
          simp only [ho] at hu
          -- The topic itself is left: it goes with its last member, and otherwise keeps its number.
          by_cases hid : id = other
          · subst hid
            refine ⟨v, ho, ?_⟩
            by_cases he : (v.leave connection).members.isEmpty = true
            · rw [if_pos he, Table.get?_erase, if_pos rfl] at hu
              exact absurd hu (by simp)
            · rw [if_neg he, Table.get?_insert, if_pos rfl, Option.some.injEq] at hu
              rw [← hseq, ← hu, Topic.leave]
          · refine ⟨u, ?_, hseq⟩
            by_cases he : (v.leave connection).members.isEmpty = true
            · rw [if_pos he, Table.get?_erase, if_neg hid] at hu
              exact hu
            · rw [if_neg he, Table.get?_insert, if_neg hid] at hu
              exact hu

theorem nextSeq_detach (r : Roster) (connection : Nat) (name : TopicName)
    (hthere : (r.detach connection).hasTopic name = true) :
    ((r.detach connection).topicOf name).nextSeq = (r.topicOf name).nextSeq := by
  -- The sidebar is never removed; a conversation still there after the detach was there before.
  unfold detach at hthere ⊢
  cases hsub : r.subscribers.get? connection with
  | none => rfl
  | some sub =>
      simp only [hsub] at hthere
      cases name with
      | sidebar =>
          simp only [topicOf]
          split <;> rfl
      | conversation id =>
          simp only [hasTopic, Table.contains] at hthere
          rcases Option.isSome_iff_exists.mp hthere with ⟨t, ht⟩
          rcases nextSeq_leaveAll connection sub.conversations r.topics id t ht with
            ⟨before, hbefore, hseq⟩
          simp only [topicOf, topic, ht, hbefore, Option.getD_some, hseq]

/-- A connection that is not there joins nothing. -/
theorem act_follow_absent (r : Roster) (connection : Nat) (id : String)
    (active : Option Snapshot) (hsub : r.subscribers.get? connection = none) :
    r.act (.follow connection id active) = ([], r) ∧
      r.counts (.follow connection id active) = false := by
  constructor
  · rw [act, joinConversation?, hsub, Option.map_none, Option.getD_none]
  · rw [counts, hsub, Option.any_none]

/-- A connection that joins a conversation is sent what takes a number then, and becomes a
    member. -/
theorem act_follow (r : Roster) (connection : Nat) (id : String) (active : Option Snapshot)
    (sub : Subscriber) (hsub : r.subscribers.get? connection = some sub) :
    r.act (.follow connection id active) =
      ((r.numbered? (.conversation id) (.follow connection id active)).toList.map fun body =>
          ⟨connection, .event (r.topic id).nextSeq body⟩,
        { r with
          subscribers := r.subscribers.insert connection
            { sub with conversations := sub.conversations.insert id }
          topics := r.topics.insert id
            ⟨(r.topic id).nextSeq +
                (r.numbered? (.conversation id) (.follow connection id active)).toList.length,
              (r.topic id).members.insert connection⟩ }) := by
  have hcounts : r.counts (.follow connection id active) =
      decide (id ∉ sub.conversations) := by
    rw [counts, hsub, Option.any_some]
  rw [act, joinConversation?, hsub, Option.map_some, Option.getD_some]
  -- A second follow sends nothing and counts nothing; a first one sends the snapshot of the run, if
  -- one is there.
  by_cases hknown : id ∈ sub.conversations
  · have hold : decide (id ∉ sub.conversations) = false := decide_eq_false (not_not_intro hknown)
    rw [r.numbered?_of_uncounted _ _ (hcounts.trans hold)]
    simp only [decide_eq_true hknown]
    rfl
  · cases active with
    | none =>
        simp only [decide_eq_false hknown]
        rfl
    | some snapshot =>
        have hsome := r.numbered?_of_message (.conversation id) (.snapshot snapshot)
          (.follow connection id (some snapshot)) rfl (hcounts.trans (decide_eq_true hknown))
        rw [hsome]
        simp only [decide_eq_false hknown]
        rfl

theorem nextSeq_follow (r : Roster) (connection : Nat) (id : String) (active : Option Snapshot)
    (name : TopicName) :
    ((r.act (.follow connection id active)).2.topicOf name).nextSeq = (r.topicOf name).nextSeq +
      (r.numbered? name (.follow connection id active)).toList.length := by
  -- The snapshot is said on the conversation and nowhere else.
  have hother : name ≠ .conversation id →
      r.numbered? name (.follow connection id active) = none := by
    intro hname
    cases active with
    | none => exact r.numbered?_of_silent name _ rfl
    | some snapshot => exact r.numbered?_other name _ (.snapshot snapshot) _ rfl hname.symm
  cases hsub : r.subscribers.get? connection with
  | none =>
      rcases r.act_follow_absent connection id active hsub with ⟨hact, hcounts⟩
      rw [hact, r.numbered?_of_uncounted name _ hcounts, Option.toList_none, List.length_nil,
        Nat.add_zero]
  | some sub =>
      rw [r.act_follow connection id active sub hsub]
      cases name with
      | sidebar =>
          rw [hother (by simp), Option.toList_none, List.length_nil, Nat.add_zero]
          rfl
      | conversation other =>
          simp only [topicOf, topic, Table.get?_insert]
          by_cases hid : other = id
          · rw [if_pos hid, hid, Option.getD_some]
          · rw [if_neg hid, hother (by simpa using hid), Option.toList_none, List.length_nil,
              Nat.add_zero]

theorem nextSeq_tell (r : Roster) (announcement : Announcement) (name : TopicName) :
    ((r.act (.tell announcement)).2.topicOf name).nextSeq = (r.topicOf name).nextSeq +
      (r.numbered? name (.tell announcement)).toList.length := by
  cases announcement with
  | sidebar event =>
      cases name with
      | sidebar => rfl
      | conversation id => rfl
  | conversation id event =>
      -- An announcement moves the number of its own topic only, and only if somebody is on it.
      by_cases hname : name = .conversation id
      · subst hname
        cases ht : r.topics.get? id with
        | none =>
            have hcounts : r.counts (.tell (.conversation id event)) = false :=
              Table.contains_of_none ht
            rw [r.numbered?_of_uncounted _ _ hcounts, act, publish?, ht]
            rfl
        | some t =>
            have hcounts : r.counts (.tell (.conversation id event)) = true :=
              Table.contains_of_some ht
            rw [r.numbered?_of_message _ (event.body id) (.tell (.conversation id event)) rfl
              hcounts]
            simp only [act, publish?, ht, topicOf, topic, Option.map_some, Option.getD_some,
              Table.get?_insert, if_pos, Topic.numbered]
            rfl
      · have hnone := r.numbered?_other name (.conversation id) (event.body id)
          (.tell (.conversation id event)) rfl fun e => hname e.symm
        rw [hnone, act, publish?]
        cases ht : r.topics.get? id with
        | none => rfl
        | some t =>
            cases name with
            | sidebar => rfl
            | conversation other =>
                have hid : ¬other = id := fun e => hname (by rw [e])
                simp only [topicOf, topic, Option.map_some, Option.getD_some, Table.get?_insert,
                  if_neg hid]
                rfl

/-- The number of a topic grows by one for everything that takes one, as long as the topic stays
    and nobody resets the hub. -/
theorem nextSeq_act (r : Roster) (name : TopicName) (a : Hub.Action) (hreset : a ≠ .reset)
    (hthere : (r.act a).2.hasTopic name = true) :
    ((r.act a).2.topicOf name).nextSeq =
      (r.topicOf name).nextSeq + (r.numbered? name a).toList.length := by
  cases a with
  | follow connection id active => exact r.nextSeq_follow connection id active name
  | tell announcement => exact r.nextSeq_tell announcement name
  | reset => exact absurd rfl hreset
  | detach connection =>
      rw [r.numbered?_of_silent name _ rfl]
      exact r.nextSeq_detach connection name hthere
  | followSidebar connection =>
      rw [r.numbered?_of_silent name _ rfl, act, joinSidebar?]
      cases r.subscribers.get? connection with
      | none => rfl
      | some sub => cases name <;> rfl
  | attach capacity => cases name <;> rfl
  | close connection => cases name <;> rfl
  | take connection => cases name <;> rfl

/-! ### Members -/

/-- A connection stays on a topic as long as it is there. -/
theorem IsOn.act {r : Roster} (h : r.Sound) {connection : Nat} {name : TopicName}
    (hon : r.IsOn connection name) (a : Hub.Action) (hreset : a ≠ .reset)
    (hstay : a ≠ .detach connection) : (r.act a).2.IsOn connection name := by
  cases name with
  | conversation id => exact Follows.act h hon a hreset hstay
  -- The sidebar is a flag of the subscription, so it is enough to follow the subscription.
  | sidebar =>
      rcases hon with ⟨sub, hsub, hside⟩
      cases a with
      | reset => exact absurd rfl hreset
      | attach capacity =>
          have hne : connection ≠ r.opened := Nat.ne_of_lt (h.opened connection sub hsub)
          exact ⟨sub, by simp only [Roster.act, attach, Table.get?_insert, if_neg hne, hsub], hside⟩
      | detach other =>
          have hne : connection ≠ other := fun e => hstay (by rw [e])
          refine ⟨sub, ?_, hside⟩
          simp only [Roster.act, detach]
          cases r.subscribers.get? other with
          | none => exact hsub
          | some sub' => simp only [Table.get?_erase, if_neg hne, hsub]
      | followSidebar other =>
          simp only [Roster.act, joinSidebar?]
          cases hother : r.subscribers.get? other with
          | none => exact ⟨sub, hsub, hside⟩
          | some sub' =>
              by_cases ho : connection = other
              · exact ⟨{ sub' with sidebar := true }, by simp [ho], rfl⟩
              · exact ⟨sub, by simp [ho, hsub], hside⟩
      | follow other id active =>
          cases hother : r.subscribers.get? other with
          | none =>
              rw [(r.act_follow_absent other id active hother).1]
              exact ⟨sub, hsub, hside⟩
          | some sub' =>
              rw [r.act_follow other id active sub' hother]
              by_cases ho : connection = other
              · have hsame : sub' = sub := Option.some.inj (hother.symm.trans (ho ▸ hsub))
                refine ⟨{ sub' with conversations := sub'.conversations.insert id }, ?_, ?_⟩
                · simp only [Table.get?_insert, if_pos ho]
                · exact hsame ▸ hside
              · exact ⟨sub, by simp [ho, hsub], hside⟩
      | tell announcement =>
          cases announcement with
          | sidebar event => exact ⟨sub, hsub, hside⟩
          | conversation id event =>
              simp only [Roster.act, publish?]
              cases r.topics.get? id <;> exact ⟨sub, hsub, hside⟩
      | close other => exact ⟨sub, hsub, hside⟩
      | take other => exact ⟨sub, hsub, hside⟩

/-- Members and connections agree about the conversations and about the sidebar. -/
structure Orderly (r : Roster) : Prop extends Sound r where
  mem_sidebar : ∀ connection, connection ∈ r.sidebar.members ↔ r.IsOn connection .sidebar
  nodup_sidebar : r.sidebar.members.Nodup

theorem fresh_orderly : fresh.Orderly where
  toSound := fresh_sound
  mem_sidebar _ := by simp [fresh, Topic.fresh, IsOn]
  nodup_sidebar := List.nodup_nil

namespace Orderly

variable {r : Roster}

theorem mem_iff (h : r.Orderly) (connection : Nat) (name : TopicName) :
    connection ∈ (r.topicOf name).members ↔ r.IsOn connection name := by
  cases name with
  | sidebar => exact h.mem_sidebar connection
  | conversation id => exact h.mem_members connection id

theorem nodup_members (h : r.Orderly) (name : TopicName) : (r.topicOf name).members.Nodup := by
  cases name with
  | sidebar => exact h.nodup_sidebar
  | conversation id => exact h.nodup id

/-- The sidebar after an action: whoever is there and was on it before, and whoever joins it. -/
theorem sidebar_act (h : r.Orderly) (a : Hub.Action) :
    (∀ connection, connection ∈ (r.act a).2.sidebar.members ↔
      (r.act a).2.IsOn connection .sidebar) ∧ (r.act a).2.sidebar.members.Nodup := by
  cases a with
  | attach capacity =>
      -- The new connection has the next number, which no earlier one has, and is on no sidebar.
      refine ⟨fun connection => (h.mem_sidebar connection).trans ?_, h.nodup_sidebar⟩
      simp only [IsOn, Roster.act, attach, Table.get?_insert]
      by_cases hc : connection = r.opened
      · rw [if_pos hc]
        constructor
        · rintro ⟨sub, hsub, -⟩
          exact absurd (h.opened connection sub hsub) (by omega)
        · rintro ⟨sub, hsub, hside⟩
          rw [← Option.some.inj hsub] at hside
          exact absurd hside Bool.false_ne_true
      · rw [if_neg hc]
  | detach other =>
      simp only [Roster.act, detach]
      cases hother : r.subscribers.get? other with
      | none => exact ⟨h.mem_sidebar, h.nodup_sidebar⟩
      | some sub =>
          have hleft : ∀ connection, connection ∈ (if sub.sidebar then r.sidebar.leave other
              else r.sidebar).members ↔ connection ∈ r.sidebar.members ∧ connection ≠ other := by
            intro connection
            by_cases hside : sub.sidebar = true
            · simp only [hside, if_true, Topic.leave, List.mem_filter, decide_eq_true_eq]
            · rw [if_neg hside]
              refine ⟨fun hmem => ⟨hmem, ?_⟩, fun hp => hp.1⟩
              -- Who is not on the sidebar is not among its members.
              rintro rfl
              rcases (h.mem_sidebar connection).mp hmem with ⟨sub', hsub', hside'⟩
              exact hside (Option.some.inj (hother.symm.trans hsub') ▸ hside')
          have hnodup : (if sub.sidebar then r.sidebar.leave other
              else r.sidebar).members.Nodup := by
            split
            · exact h.nodup_sidebar.filter _
            · exact h.nodup_sidebar
          refine ⟨fun connection => (hleft connection).trans ?_, hnodup⟩
          simp only [h.mem_sidebar, IsOn, Table.get?_erase]
          by_cases hc : connection = other
          · simp [hc]
          · simp [hc]
  | reset => exact ⟨fresh_orderly.mem_sidebar, List.nodup_nil⟩
  | followSidebar other =>
      simp only [Roster.act, joinSidebar?]
      cases hother : r.subscribers.get? other with
      | none => exact ⟨h.mem_sidebar, h.nodup_sidebar⟩
      | some sub =>
          refine ⟨fun connection => ?_, h.nodup_sidebar.insert⟩
          simp only [Option.map_some, Option.getD_some, Topic.join, List.mem_insert_iff,
            h.mem_sidebar, IsOn, Table.get?_insert]
          by_cases hc : connection = other
          · simp [hc]
          · simp [hc]
  | follow other id active =>
      cases hother : r.subscribers.get? other with
      | none =>
          rw [(r.act_follow_absent other id active hother).1]
          exact ⟨h.mem_sidebar, h.nodup_sidebar⟩
      | some sub =>
          rw [r.act_follow other id active sub hother]
          refine ⟨fun connection => (h.mem_sidebar connection).trans ?_, h.nodup_sidebar⟩
          simp only [IsOn, Table.get?_insert]
          by_cases hc : connection = other
          · simp [hc, hother]
          · simp [hc]
  | tell announcement =>
      cases announcement with
      | sidebar event => exact ⟨h.mem_sidebar, h.nodup_sidebar⟩
      | conversation id event =>
          simp only [Roster.act, publish?]
          cases r.topics.get? id <;> exact ⟨h.mem_sidebar, h.nodup_sidebar⟩
  | close other => exact ⟨h.mem_sidebar, h.nodup_sidebar⟩
  | take other => exact ⟨h.mem_sidebar, h.nodup_sidebar⟩

/-- Every action keeps members and connections in agreement. -/
theorem act (h : r.Orderly) (a : Hub.Action) : (r.act a).2.Orderly where
  toSound := h.toSound.act a
  mem_sidebar := (h.sidebar_act a).1
  nodup_sidebar := (h.sidebar_act a).2

end Orderly

theorem IsOn.isAttached {r : Roster} {connection : Nat} {name : TopicName}
    (hon : r.IsOn connection name) : r.isAttached connection = true := by
  cases name with
  | sidebar =>
      rcases hon with ⟨sub, hsub, -⟩
      exact Table.contains_of_some hsub
  | conversation id =>
      rcases hon with ⟨sub, hsub, -⟩
      exact Table.contains_of_some hsub

/-- A topic that somebody is on is there. -/
theorem Orderly.hasTopic {r : Roster} (h : r.Orderly) {connection : Nat} {name : TopicName}
    (hon : r.IsOn connection name) : r.hasTopic name = true := by
  cases name with
  | sidebar => rfl
  | conversation id =>
      have hmem := (h.mem_members connection id).mpr hon
      cases ht : r.topics.get? id with
      | none =>
          rw [members, topic, ht, Option.getD_none, Topic.fresh] at hmem
          exact absurd hmem List.not_mem_nil
      | some t => exact Table.contains_of_some ht

/-! ### Frames -/

/-- What a topic announces reaches a connection that is on it, with the number of the topic. -/
theorem framesFor_topic {r : Roster} (h : r.Orderly) (connection : Nat) (name : TopicName)
    (body : Frame.Body) :
    framesFor connection ((r.topicOf name).announce body) = [] ∨
      r.IsOn connection name ∧ framesFor connection ((r.topicOf name).announce body) =
        [.event (r.topicOf name).nextSeq body] := by
  rw [framesFor_announce _ _ _ (h.nodup_members name)]
  by_cases hmem : connection ∈ (r.topicOf name).members
  · exact Or.inr ⟨(h.mem_iff connection name).mp hmem, if_pos hmem⟩
  · exact Or.inl (if_neg hmem)

/-- An action sends a connection nothing, or one frame about what takes a number. The frame has
    the number of its topic, and the connection is there and on the topic afterwards. -/
theorem framesFor_act {r : Roster} (h : r.Orderly) (connection : Nat) (a : Hub.Action) :
    framesFor connection (r.act a).1 = [] ∨
      ∃ name body, r.numbered? name a = some body ∧ r.isAttached connection = true ∧
        (r.act a).2.IsOn connection name ∧
        framesFor connection (r.act a).1 = [.event (r.topicOf name).nextSeq body] := by
  cases a with
  -- Only a follow and an announcement address frames; a follow sends one, to whoever made it.
  | follow other id active =>
      cases hother : r.subscribers.get? other with
      | none =>
          rw [(r.act_follow_absent other id active hother).1]
          exact Or.inl rfl
      | some sub =>
          have hattached : r.isAttached other = true := Table.contains_of_some hother
          have hon := r.follows_follow other id active hattached
          have hframes := congrArg Prod.fst (r.act_follow other id active sub hother)
          rw [hframes]
          cases hn : r.numbered? (.conversation id) (.follow other id active) with
          | none => exact Or.inl rfl
          | some body =>
              by_cases hc : other = connection
              · subst hc
                exact Or.inr ⟨.conversation id, body, hn, hattached, hon, by
                  simp [framesFor, topicOf]⟩
              · exact Or.inl (by simp [framesFor, hc])
  | tell announcement =>
      cases announcement with
      -- The sidebar has a topic at all times, a conversation only while somebody follows it.
      | sidebar event =>
          refine (framesFor_topic h connection .sidebar event.body).imp id ?_
          rintro ⟨hon, hframes⟩
          exact ⟨.sidebar, event.body, rfl, hon.isAttached,
            hon.act h.toSound _ (by simp) (by simp), hframes⟩
      | conversation id event =>
          cases ht : r.topics.get? id with
          | none =>
              rw [act, publish?, ht]
              exact Or.inl rfl
          | some t =>
              have hcounts : r.counts (.tell (.conversation id event)) = true :=
                Table.contains_of_some ht
              have hsent : (r.act (.tell (.conversation id event))).1 =
                  (r.topicOf (.conversation id)).announce (event.body id) := by
                rw [act, publish?, ht, topicOf, topic, ht]
                rfl
              rw [hsent]
              refine (framesFor_topic h connection (.conversation id) _).imp (fun e => e) ?_
              rintro ⟨hon, hframes⟩
              exact ⟨.conversation id, event.body id,
                r.numbered?_of_message _ _ _ rfl hcounts, hon.isAttached,
                hon.act h.toSound _ (by simp) (by simp), hframes⟩
  | _ => exact Or.inl rfl

end Roster

namespace Hub

theorem fresh_orderly : fresh.roster.Orderly := Roster.fresh_orderly

theorem orderly_act {hub : Hub} (h : hub.roster.Orderly) (a : Action) :
    (hub.act a).roster.Orderly := by
  rw [act_roster]
  exact h.act a

theorem orderly_actAll {hub : Hub} (h : hub.roster.Orderly) (actions : List Action) :
    (hub.actAll actions).roster.Orderly := by
  induction actions generalizing hub with
  | nil => exact h
  | cons a rest ih => exact ih (orderly_act h a)

end Hub

end Switchboard

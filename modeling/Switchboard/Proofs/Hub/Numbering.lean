import Mathlib.Data.List.Pairwise
import Switchboard.Proofs.Hub.Topics

/-!
# Numbers and Order

The frames of a topic are numbered one after the other, starting with one when
the topic is made. The number of a topic is not kept by those who read it but
by the topic itself, and a topic is forgotten when nobody is on it any more, so
that two things have to be seen: that a number is the count of what was
numbered since the topic was made, and that a connection never sees a topic
being made anew. The second is because a connection that is on a topic stays on
it as long as it is there at all, and one that has left never comes back: its
topics are there as long as it is, and so their numbers only grow.

What one connection receives of a topic is compared with what another one
receives through the list of all that was numbered on the topic. Both are
sublists of it, whatever their mailboxes lost, so that they agree about the
order and about every frame. Since a number may be given out again on a topic
that is made anew, the entries of the list are told apart by the action they
come from.

## Main definitions

* `Mailbox.accepted`, `Hub.accepted`: The frames that find room.
* `Hub.log`: What was numbered on a topic since it was made.
* `Hub.issued`: Everything that was numbered on a topic, with the actions it comes from.
* `Hub.sending`: What an action addresses to a connection on a topic.
* `Hub.arrivals`: What entered the mailbox of a connection from a topic.

## Theorems

* `Hub.waiting_act`: Nothing enters a mailbox but what is accepted.
* `Hub.nextSeq_log`: The next number is one more than the count of what was numbered.
* `Hub.arrivals_sublist`: What arrives is part of what was numbered, in the same order.
* `Hub.arrivals_increasing`: The numbers that arrive from a topic increase.
* `Hub.numbers_and_order`: What this means after every course of events.
-/

namespace Switchboard

namespace Mailbox

/-- Those of some frames that find room, in order. -/
def accepted (m : Mailbox) : List Frame → List Frame
  | [] => []
  | f :: fs => (if m.hasRoom then [f] else []) ++ (m.offer f).accepted fs

theorem offerAll_items (m : Mailbox) (fs : List Frame) :
    (m.offerAll fs).items = m.items ++ m.accepted fs := by
  induction fs generalizing m with
  | nil => rw [accepted, List.append_nil, offerAll, List.foldl_nil]
  | cons f rest ih =>
      have hrest := ih (m.offer f)
      rw [offer_items, List.append_assoc] at hrest
      exact hrest

theorem accepted_sublist (m : Mailbox) (fs : List Frame) : (m.accepted fs).Sublist fs := by
  induction fs generalizing m with
  | nil => exact .slnil
  | cons f rest ih =>
      rw [accepted]
      by_cases hroom : m.hasRoom = true
      · rw [if_pos hroom]
        exact (ih (m.offer f)).cons_cons f
      · rw [if_neg hroom]
        exact (ih (m.offer f)).cons f

end Mailbox

namespace Hub

/-- The frames that an action puts into the mailbox of a connection. -/
def accepted (hub : Hub) (connection : Nat) (a : Action) : List Frame :=
  match hub.mailboxes.get? connection with
  | some m => (a.clear connection m).accepted (hub.addressed connection a)
  | none => []

/-- What waits after an action is what is left of what waited before, and what was accepted. -/
theorem waiting_act (hub : Hub) (a : Action) (connection : Nat)
    (hold : connection < hub.roster.opened) :
    (hub.act a).waiting connection =
      ((hub.mailboxes.get? connection).map fun m => (a.clear connection m).items).getD [] ++
        hub.accepted connection a := by
  rw [waiting, act_mailbox hub a connection hold, accepted]
  cases hub.mailboxes.get? connection with
  | none => rfl
  | some m => exact Mailbox.offerAll_items ..

theorem publish_seq (hub : Hub) (id : String) (event : ConversationEvent) :
    (hub.publish id event).1 = if hub.roster.hasTopic (.conversation id) then
      some (hub.roster.topicOf (.conversation id)).nextSeq else none := by
  rw [publish, Roster.publish?, Roster.hasTopic, Table.contains, Roster.topicOf, Roster.topic]
  cases hub.roster.topics.get? id <;> rfl

/-! ### What is numbered -/

/-- What was numbered on a topic since it was made, when one more action is carried out. -/
def logged (hub : Hub) (name : TopicName) (log : List Frame.Body) : Action → List Frame.Body
  | .reset => []
  | a =>
    if (hub.act a).roster.hasTopic name then log ++ (hub.roster.numbered? name a).toList else []

/-- What was numbered on a topic since it was made, when some more actions are carried out. -/
def logFrom (name : TopicName) : List Action → Hub → List Frame.Body → List Frame.Body
  | [], _, log => log
  | a :: rest, hub, log => logFrom name rest (hub.act a) (hub.logged name log a)

/-- What was numbered on a topic since it was made, in order. -/
def log (name : TopicName) (actions : List Action) : List Frame.Body :=
  logFrom name actions .fresh []

theorem nextSeq_logged (hub : Hub) (name : TopicName) (log : List Frame.Body) (a : Action)
    (h : (hub.roster.topicOf name).nextSeq = 1 + log.length) :
    ((hub.act a).roster.topicOf name).nextSeq = 1 + (hub.logged name log a).length := by
  by_cases hreset : a = .reset
  · subst hreset
    cases name <;> rfl
  · have hlogged : hub.logged name log a = if (hub.act a).roster.hasTopic name then
        log ++ (hub.roster.numbered? name a).toList else [] := by
      cases a with
      | reset => exact absurd rfl hreset
      | _ => rfl
    rw [hlogged]
    by_cases hthere : (hub.act a).roster.hasTopic name = true
    · have hgrows := hub.roster.nextSeq_act name a hreset (by rw [← act_roster]; exact hthere)
      rw [if_pos hthere, act_roster, hgrows, h, List.length_append, Nat.add_assoc]
    -- A topic that is not there starts with one when it is made.
    · rw [if_neg hthere, Roster.nextSeq_absent _ _ (by simpa using hthere)]
      rfl

theorem nextSeq_logFrom (name : TopicName) (actions : List Action) (hub : Hub)
    (log : List Frame.Body) (h : (hub.roster.topicOf name).nextSeq = 1 + log.length) :
    ((hub.actAll actions).roster.topicOf name).nextSeq =
      1 + (logFrom name actions hub log).length := by
  induction actions generalizing hub log with
  | nil => exact h
  | cons a rest ih => exact ih (hub.act a) _ (hub.nextSeq_logged name log a h)

/-- The next number of a topic is one more than the count of what was numbered on it since it was
    made. -/
theorem nextSeq_log (name : TopicName) (actions : List Action) :
    ((fresh.actAll actions).roster.topicOf name).nextSeq = 1 + (log name actions).length :=
  nextSeq_logFrom name actions fresh [] (by cases name <;> rfl)

/-- The frame that is numbered on a topic when an action is carried out. -/
def issues? (hub : Hub) (name : TopicName) (a : Action) : Option Frame :=
  (hub.roster.numbered? name a).map (.event (hub.roster.topicOf name).nextSeq)

/-- The frames that are numbered on a topic, each with the place of the action it comes from. -/
def issued (name : TopicName) : List Action → Hub → Nat → List (Nat × Frame)
  | [], _, _ => []
  | a :: rest, hub, place =>
    (hub.issues? name a).toList.map (place, ·) ++ issued name rest (hub.act a) (place + 1)

theorem place_le_of_issued (name : TopicName) (actions : List Action) (hub : Hub) (place : Nat)
    (x : Nat × Frame) (hx : x ∈ issued name actions hub place) : place ≤ x.1 := by
  induction actions generalizing hub place with
  | nil => exact absurd hx List.not_mem_nil
  | cons a rest ih =>
      rcases List.mem_append.mp hx with hnow | hlater
      · rcases List.mem_map.mp hnow with ⟨f, -, rfl⟩
        exact Nat.le_refl _
      · have := ih (hub.act a) (place + 1) hlater
        omega

/-- An action issues at most one frame of a topic, so that the places increase. -/
theorem places_increasing (name : TopicName) (actions : List Action) (hub : Hub) (place : Nat) :
    (issued name actions hub place).Pairwise (fun x y => x.1 < y.1) := by
  induction actions generalizing hub place with
  | nil => exact List.Pairwise.nil
  | cons a rest ih =>
      -- One action issues one number at most, and later actions are later places.
      rw [issued, List.pairwise_append]
      refine ⟨?_, ih (hub.act a) (place + 1), ?_⟩
      · cases hub.issues? name a with
        | none => exact List.Pairwise.nil
        | some f => exact List.pairwise_singleton _ _
      · intro x hx y hy
        rcases List.mem_map.mp hx with ⟨f, -, rfl⟩
        have hlater := place_le_of_issued name rest (hub.act a) (place + 1) y hy
        exact hlater

/-! ### What is addressed -/

/-- The frames of a topic that an action addresses to a connection. -/
def sending (hub : Hub) (connection : Nat) (name : TopicName) (a : Action) : List Frame :=
  if a.message?.map (·.1) = some name then hub.addressed connection a else []

/-- Nothing of a topic is addressed to a connection by an action, or the frame that is numbered
    with it is. Then the connection is there, and on the topic afterwards. -/
theorem sending_cases {hub : Hub} (h : hub.roster.Orderly) (connection : Nat) (name : TopicName)
    (a : Action) :
    hub.sending connection name a = [] ∨
      ∃ f, hub.issues? name a = some f ∧ f.seq = some (hub.roster.topicOf name).nextSeq ∧
        hub.roster.isAttached connection = true ∧ (hub.act a).roster.IsOn connection name ∧
        hub.sending connection name a = [f] := by
  unfold sending
  by_cases hname : a.message?.map (·.1) = some name
  · rw [if_pos hname]
    refine (Roster.framesFor_act h connection a).imp (fun hnone => hnone) ?_
    rintro ⟨topic, body, hn, hattached, hon, hone⟩
    -- What is numbered was said on this topic.
    obtain rfl : topic = name := by
      rw [Roster.message_of_numbered _ _ _ _ hn] at hname
      exact Option.some.inj hname
    refine ⟨.event (hub.roster.topicOf topic).nextSeq body, ?_, rfl, hattached, ?_, hone⟩
    · rw [issues?, hn, Option.map_some]
    · rw [act_roster]
      exact hon
  · exact Or.inl (if_neg hname)

/-! ### What arrives -/

/-- The frames of a topic that an action puts into the mailbox of a connection. -/
def arriving (hub : Hub) (connection : Nat) (name : TopicName) (a : Action) : List Frame :=
  if a.message?.map (·.1) = some name then hub.accepted connection a else []

/-- The frames of a topic that enter the mailbox of a connection, in order, each with the place of
    the action it comes from. -/
def arrivals (connection : Nat) (name : TopicName) : List Action → Hub → Nat → List (Nat × Frame)
  | [], _, _ => []
  | a :: rest, hub, place =>
    (hub.arriving connection name a).map (place, ·) ++
      arrivals connection name rest (hub.act a) (place + 1)

/-- What arrives is part of what is addressed. -/
theorem arriving_sublist (hub : Hub) (connection : Nat) (name : TopicName) (a : Action) :
    (hub.arriving connection name a).Sublist (hub.sending connection name a) := by
  unfold arriving sending
  split
  · unfold accepted
    cases hub.mailboxes.get? connection with
    | none => exact List.nil_sublist _
    | some m => exact Mailbox.accepted_sublist _ _
  · exact List.nil_sublist _

/-- Nothing of a topic arrives with an action, or the frame that is numbered with it does. Then
    the connection is there, and on the topic afterwards. -/
theorem arriving_cases {hub : Hub} (h : hub.roster.Orderly) (connection : Nat)
    (name : TopicName) (a : Action) :
    hub.arriving connection name a = [] ∨
      ∃ f, hub.issues? name a = some f ∧ f.seq = some (hub.roster.topicOf name).nextSeq ∧
        hub.roster.isAttached connection = true ∧ (hub.act a).roster.IsOn connection name ∧
        hub.arriving connection name a = [f] := by
  have hsub := hub.arriving_sublist connection name a
  rcases sending_cases h connection name a with hnone | ⟨f, hf, hseq, hattached, hon, hone⟩
  · rw [hnone] at hsub
    exact Or.inl (List.sublist_nil.mp hsub)
  · rw [hone, List.sublist_singleton] at hsub
    exact hsub.imp (fun e => e) fun harrives => ⟨f, hf, hseq, hattached, hon, harrives⟩

/-- What arrives at a connection is part of what was numbered, in the same order. -/
theorem arrivals_sublist (connection : Nat) (name : TopicName) (actions : List Action)
    (hub : Hub) (h : hub.roster.Orderly) (place : Nat) :
    (arrivals connection name actions hub place).Sublist (issued name actions hub place) := by
  induction actions generalizing hub place with
  | nil => exact .slnil
  | cons a rest ih =>
      refine List.Sublist.append ?_ (ih (hub.act a) (orderly_act h a) (place + 1))
      rcases arriving_cases h connection name a with hnone | ⟨f, hf, -, -, -, hone⟩
      · rw [hnone]
        exact List.nil_sublist _
      · rw [hone, hf]
        exact List.Sublist.refl _

/-- One arrival comes before another one and has a smaller number. -/
def Precedes (x y : Nat × Frame) : Prop :=
  x.1 < y.1 ∧ ∃ n m, x.2.seq = some n ∧ y.2.seq = some m ∧ n < m

/-- What arrived at a connection has smaller numbers than what is to come: nothing arrived as
    long as the connection was not on the topic, and since then the number only grew. -/
structure Kept (connection : Nat) (name : TopicName) (hub : Hub) (earlier : List (Nat × Frame)) :
    Prop where
  before : hub.roster.opened ≤ connection ∨
    hub.roster.isAttached connection = true ∧ ¬hub.roster.IsOn connection name → earlier = []
  below : hub.roster.IsOn connection name → ∀ x ∈ earlier,
    ∃ n, x.2.seq = some n ∧ n < (hub.roster.topicOf name).nextSeq

/-- As long as a connection is on a topic, the number of the topic grows by what is issued. -/
theorem nextSeq_on {hub : Hub} (h : hub.roster.Orderly) (connection : Nat) (name : TopicName)
    (a : Action) (hon : (hub.act a).roster.IsOn connection name) :
    ((hub.act a).roster.topicOf name).nextSeq =
      (hub.roster.topicOf name).nextSeq + (hub.issues? name a).toList.length := by
  have hreset : a ≠ .reset := by
    -- After a reset nobody is there.
    rintro rfl
    exact absurd hon.isAttached (by simp [act, reset, Roster.reset, Roster.fresh,
      Roster.isAttached, Table.contains])
  have hthere := (orderly_act h a).hasTopic hon
  rw [act_roster] at hthere ⊢
  rw [hub.roster.nextSeq_act name a hreset hthere, issues?]
  cases hub.roster.numbered? name a <;> rfl

/-- A connection to which something arrived and which is on the topic now was on it before. -/
theorem Kept.isOn {connection : Nat} {name : TopicName} {hub : Hub} {earlier : List (Nat × Frame)}
    (hk : Kept connection name hub earlier) (a : Action) (x : Nat × Frame) (hx : x ∈ earlier)
    (hattached : (hub.act a).roster.isAttached connection = true) :
    hub.roster.IsOn connection name ∧ a ≠ .reset ∧ a ≠ .detach connection := by
  have hne : earlier ≠ [] := List.ne_nil_of_mem hx
  rw [act_roster] at hattached
  rcases hub.roster.isAttached_act a connection hattached with ⟨hold, hstay⟩ | ⟨-, hnew⟩
  · refine ⟨?_, hstay⟩
    by_contra hnot
    exact hne (hk.before (Or.inr ⟨hold, hnot⟩))
  · exact absurd (hk.before (Or.inl (Nat.le_of_eq hnew.symm))) hne

theorem Kept.act {connection : Nat} {name : TopicName} {hub : Hub} {earlier : List (Nat × Frame)}
    (hk : Kept connection name hub earlier) (h : hub.roster.Orderly) (a : Action) (place : Nat) :
    Kept connection name (hub.act a)
      (earlier ++ (hub.arriving connection name a).map (place, ·)) where
  before := by
    intro houtside
    -- Whoever is not on the topic is sent nothing on it.
    have hoff : ¬(hub.act a).roster.IsOn connection name := by
      intro hon
      rcases houtside with hopened | ⟨-, hnot⟩
      · rcases Option.isSome_iff_exists.mp hon.isAttached with ⟨sub, hsub⟩
        have := (orderly_act h a).opened connection sub hsub
        omega
      · exact hnot hon
    have hnone : hub.arriving connection name a = [] := by
      rcases arriving_cases h connection name a with hnone | ⟨f, -, -, -, hon, -⟩
      · exact hnone
      · exact absurd hon hoff
    rw [hnone, List.map_nil, List.append_nil, List.eq_nil_iff_forall_not_mem]
    intro x hx
    -- It never came, or what it was sent before would have kept it there.
    rcases houtside with hopened | ⟨hattached, -⟩
    · have hle := Nat.le_trans (opened_le_act hub a) hopened
      exact absurd (hk.before (Or.inl hle)) (List.ne_nil_of_mem hx)
    · rcases hk.isOn a x hx hattached with ⟨hon, hreset, hstay⟩
      have hkept := hon.act h.toSound a hreset hstay
      rw [← act_roster] at hkept
      exact hoff hkept
  below := by
    intro hon x hx
    -- Its numbers are below the next one, and the next one grows with what it is sent.
    have hgrows := nextSeq_on h connection name a hon
    rcases List.mem_append.mp hx with hearlier | hnow
    · rcases hk.below (hk.isOn a x hearlier hon.isAttached).1 x hearlier with ⟨n, hn, hlt⟩
      exact ⟨n, hn, by omega⟩
    · rcases arriving_cases h connection name a with hnone | ⟨f, hf, hseq, -, -, hone⟩
      · rw [hnone] at hnow
        exact absurd hnow List.not_mem_nil
      · rw [hone, List.map_singleton, List.mem_singleton] at hnow
        rw [hnow, hgrows, hf]
        exact ⟨_, hseq, Nat.lt_succ_self _⟩

/-- What is to come has larger numbers than what arrived. -/
theorem Kept.precedes {connection : Nat} {name : TopicName} {hub : Hub}
    {earlier : List (Nat × Frame)} (hk : Kept connection name hub earlier)
    (h : hub.roster.Orderly) (a : Action) (place : Nat) (hplace : ∀ x ∈ earlier, x.1 < place)
    (x : Nat × Frame) (hx : x ∈ earlier) (y : Nat × Frame)
    (hy : y ∈ (hub.arriving connection name a).map (place, ·)) : Precedes x y := by
  rcases arriving_cases h connection name a with hnone | ⟨f, -, hseq, -, hon, hone⟩
  · rw [hnone] at hy
    exact absurd hy List.not_mem_nil
  · rw [hone, List.map_singleton, List.mem_singleton] at hy
    rcases hk.below (hk.isOn a x hx hon.isAttached).1 x hx with ⟨n, hn, hlt⟩
    exact ⟨hy ▸ hplace x hx, n, _, hn, hy ▸ hseq, hlt⟩

theorem arrivals_increasing_from (connection : Nat) (name : TopicName) (actions : List Action)
    (hub : Hub) (h : hub.roster.Orderly) (place : Nat) (earlier : List (Nat × Frame))
    (hk : Kept connection name hub earlier) (hplace : ∀ x ∈ earlier, x.1 < place)
    (hearlier : earlier.Pairwise Precedes) :
    (earlier ++ arrivals connection name actions hub place).Pairwise Precedes := by
  induction actions generalizing hub place earlier with
  | nil =>
      rw [arrivals, List.append_nil]
      exact hearlier
  | cons a rest ih =>
      -- What arrives now comes after what arrived before.
      rw [arrivals, ← List.append_assoc]
      refine ih (hub.act a) (orderly_act h a) (place + 1) _ (hk.act h a place) ?_ ?_
      · intro x hx
        rcases List.mem_append.mp hx with hold | hnow
        · exact Nat.lt_succ_of_lt (hplace x hold)
        · rcases List.mem_map.mp hnow with ⟨f, -, rfl⟩
          exact Nat.lt_succ_self _
      · rw [List.pairwise_append]
        refine ⟨hearlier, ?_, hk.precedes h a place hplace⟩
        rcases arriving_cases h connection name a with hnone | ⟨f, -, -, -, -, hone⟩
        · rw [hnone]
          exact List.Pairwise.nil
        · rw [hone]
          exact List.pairwise_singleton _ _

/-- The numbers of what arrives at a connection from a topic increase over its whole life. -/
theorem arrivals_increasing (connection : Nat) (name : TopicName) (actions : List Action) :
    (arrivals connection name actions fresh 0).Pairwise Precedes :=
  arrivals_increasing_from connection name actions fresh fresh_orderly 0 []
    ⟨fun _ => rfl, fun _ _ hx => absurd hx List.not_mem_nil⟩
    (fun _ hx => absurd hx List.not_mem_nil) List.Pairwise.nil

/-! ### Two connections -/

/-- Where the places increase, two entries stand in the order of their places. -/
theorem pair_sublist_iff (l : List (Nat × Frame)) (hl : l.Pairwise fun x y => x.1 < y.1)
    (x y : Nat × Frame) (hx : x ∈ l) (hy : y ∈ l) : [x, y].Sublist l ↔ x.1 < y.1 := by
  constructor
  · intro hsub
    exact (List.pairwise_cons.mp (hl.sublist hsub)).1 y (List.mem_singleton.mpr rfl)
  · intro hlt
    induction l with
    | nil => exact absurd hx List.not_mem_nil
    | cons z rest ih =>
        rw [List.pairwise_cons] at hl
        rcases List.mem_cons.mp hy with rfl | hy'
        -- The later one of the two cannot be the first entry.
        · rcases List.mem_cons.mp hx with rfl | hx'
          · exact absurd hlt (Nat.lt_irrefl _)
          · exact absurd (Nat.lt_trans hlt (hl.1 x hx')) (Nat.lt_irrefl _)
        · rcases List.mem_cons.mp hx with rfl | hx'
          · exact List.Sublist.cons_cons _ (List.singleton_sublist.mpr hy')
          · exact List.Sublist.cons _ (ih hl.2 hx' hy')

/-- Where the places increase, an entry is known by its place. -/
theorem eq_of_place (l : List (Nat × Frame)) (hl : l.Pairwise fun x y => x.1 < y.1)
    (x y : Nat × Frame) (hx : x ∈ l) (hy : y ∈ l) (hplace : x.1 = y.1) : x = y := by
  by_contra hne
  have hdiff : l.Pairwise fun x y => x.1 ≠ y.1 := hl.imp fun h => Nat.ne_of_lt h
  have : Std.Symm fun x y : Nat × Frame => x.1 ≠ y.1 := ⟨fun _ _ h => Ne.symm h⟩
  exact hdiff.forall hx hy hne hplace

/-- Whatever happened to the hub, a frame has the number that is one more than the count of what
    was numbered on its topic since the topic was made, and that number is given back; a topic
    that is not there gives none. The numbers that enter the mailbox of a connection from a topic
    increase over its whole life. And two connections that both receive two frames of a topic
    receive the same frames in the same order. -/
theorem numbers_and_order (actions : List Action) :
    let hub := fresh.actAll actions
    (∀ a, ∀ d ∈ (hub.roster.act a).1, ∃ name body, hub.roster.numbered? name a = some body ∧
      d.frame = .event (1 + (log name actions).length) body) ∧
    (∀ event, (hub.publishSidebar event).1 = 1 + (log .sidebar actions).length) ∧
    (∀ id event, (hub.publish id event).1 =
      if hub.roster.hasTopic (.conversation id) then
        some (1 + (log (.conversation id) actions).length)
      else none) ∧
    (∀ connection name, (arrivals connection name actions fresh 0).Pairwise Precedes) ∧
    ∀ connection other name x y f g,
      x ∈ arrivals connection name actions fresh 0 →
      y ∈ arrivals connection name actions fresh 0 →
      (x.1, f) ∈ arrivals other name actions fresh 0 →
      (y.1, g) ∈ arrivals other name actions fresh 0 →
      f = x.2 ∧ g = y.2 ∧
        ([x, y].Sublist (arrivals connection name actions fresh 0) ↔
          [(x.1, f), (y.1, g)].Sublist (arrivals other name actions fresh 0)) := by
  intro hub
  have h : hub.roster.Orderly := orderly_actAll fresh_orderly actions
  refine ⟨?_, ?_, ?_, fun connection name => arrivals_increasing connection name actions, ?_⟩
  · intro a d hd
    -- A frame carries the number that its topic has reached.
    have hmem : d.frame ∈ framesFor d.connection (hub.roster.act a).1 :=
      List.mem_map_of_mem (List.mem_filter.mpr ⟨hd, decide_eq_true rfl⟩)
    rcases Roster.framesFor_act h d.connection a with hnone | ⟨name, body, hn, -, -, hone⟩
    · rw [hnone] at hmem
      exact absurd hmem List.not_mem_nil
    · rw [hone, List.mem_singleton, nextSeq_log] at hmem
      exact ⟨name, body, hn, hmem⟩
  · intro event
    exact nextSeq_log .sidebar actions
  · intro id event
    rw [publish_seq, nextSeq_log]
  · intro connection other name x y f g hx hy hf hg
    -- The numbers of a topic are issued one by one, so that a number tells its place.
    have hall := places_increasing name actions fresh 0
    have hsub := fun c => arrivals_sublist c name actions fresh fresh_orderly 0
    have hxf := eq_of_place _ hall x (x.1, f) ((hsub connection).subset hx)
      ((hsub other).subset hf) rfl
    have hyg := eq_of_place _ hall y (y.1, g) ((hsub connection).subset hy)
      ((hsub other).subset hg) rfl
    refine ⟨(congrArg Prod.snd hxf).symm, (congrArg Prod.snd hyg).symm, ?_⟩
    rw [pair_sublist_iff _ (hall.sublist (hsub connection)) x y hx hy,
      pair_sublist_iff _ (hall.sublist (hsub other)) _ _ hf hg]

end Hub

end Switchboard

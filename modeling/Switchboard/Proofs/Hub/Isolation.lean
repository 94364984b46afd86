import Switchboard.Proofs.Hub.Numbering

/-!
# Isolation of Mailboxes

How large the mailbox of a connection is, when the connection reads it and
whether it reads it at all is nobody else's business. Two courses of events that
differ in nothing but that are told apart by nobody but the connection itself:
every operation gives back the same, the same frames with the same numbers are
addressed to the same connections, and the same frames enter every other
mailbox.

The two courses are not compared with each other, because their actions do not
go together one by one. Each is compared with the course in which the one
mailbox is left alone (`Hub.Action.apartFrom`), and that course is the same for
both. One simulation, `Hub.collect_apart`, does this for whatever is watched.

The frames for the one connection are the same in both courses too. Which of
them enter its mailbox is decided one by one: a frame that finds room stays and
comes out in its turn, and a frame that finds none is lost.

## Main definitions

* `Hub.Action.isOnMailbox`: An action by which a connection reads its mailbox or gives it up.
* `Hub.Action.apartFrom`: A course of events in which one mailbox is left alone.
* `Hub.Answer`, `Hub.answer`: What an operation gives back.
* `Hub.collect`: What is watched during a course of events.
* `Mailbox.fates`, `Hub.fates`: The frames for a connection, with whether they find room.
* `Hub.SameBut`: Two hubs that differ in one mailbox.

## Theorems

* `Hub.SameBut.act`, `Hub.SameBut.skip`: What one action does to two such hubs.
* `Hub.collect_apart`: What is watched does not depend on the one mailbox.
* `Hub.deliverAll_perm`: The order in which members are visited does not matter.
* `Hub.taken_prefix`: What a connection reads is what found room, in order.
* `Hub.slow_reader_apart`: What this means for two courses of events.
-/

namespace Switchboard

namespace Hub

/-! ### Courses of events -/

/-- Whether an action is one by which a connection reads its mailbox or gives it up. -/
def Action.isOnMailbox (connection : Nat) : Action → Bool
  | .take c => c = connection
  | .close c => c = connection
  | _ => false

/-- How many connections come with an action. -/
def Action.comings : Action → Nat
  | .attach _ => 1
  | _ => 0

/-- An action that does not say how large the mailbox of a connection is. So many connections
    have come before. -/
def Action.blurred (connection opened : Nat) : Action → Action
  | .attach capacity => .attach (if opened = connection then 0 else capacity)
  | a => a

/-- Some actions without those on the mailbox of a connection, and without its size. So many
    connections have come before. -/
def Action.apartFrom (connection : Nat) : List Action → Nat → List Action
  | [], _ => []
  | a :: rest, opened =>
    (if a.isOnMailbox connection then [] else [a.blurred connection opened]) ++
      apartFrom connection rest (opened + a.comings)

/-- What an operation gives back. -/
inductive Answer where
  | nothing
  | connection (id : Nat)
  /-- Whether a connection was let in to the sidebar. -/
  | admitted (yes : Bool)
  /-- Whether the state of a run was sent to a connection that joined a conversation, if it was
      let in. -/
  | joined (sent : Option Bool)
  | number (seq : Option Nat)
  | frame (f : Option Frame)

/-- What an action gives back. -/
def answer (hub : Hub) : Action → Answer
  | .attach capacity => .connection (hub.attach capacity).1
  | .take connection => .frame ((hub.take? connection).map (·.1))
  | .followSidebar connection => .admitted (hub.subscribeSidebar? connection).isSome
  | .follow connection id active => .joined ((hub.subscribe? connection id active).map (·.1))
  | .tell (.sidebar event) => .number (some (hub.publishSidebar event).1)
  | .tell (.conversation id event) => .number (hub.publish id event).1
  | _ => .nothing

/-- What is watched during some actions, in order. -/
def collect {α : Type} (watch : Hub → Action → List α) : List Action → Hub → List α
  | [], _ => []
  | a :: rest, hub => watch hub a ++ collect watch rest (hub.act a)

/-- What can be seen of an action without a look into a mailbox: what it gives back, which frames
    it addresses to whom, and who follows what afterwards. What a connection does with its own
    mailbox is not looked at. -/
def sight (connection : Nat) (hub : Hub) (a : Action) : List (Answer × List Delivery × Roster) :=
  if a.isOnMailbox connection then [] else [(hub.answer a, hub.roster.act a)]

/-! ### Two hubs -/

/-- Whether two hubs differ in nothing but the mailbox of a connection. -/
structure SameBut (connection : Nat) (hub hub' : Hub) : Prop where
  roster : hub.roster = hub'.roster
  mailboxes : ∀ other, other ≠ connection →
    hub.mailboxes.get? other = hub'.mailboxes.get? other

theorem SameBut.refl (connection : Nat) (hub : Hub) : SameBut connection hub hub :=
  ⟨rfl, fun _ _ => rfl⟩

theorem Action.clear_blurred (connection opened other : Nat) (a : Action) :
    (a.blurred connection opened).clear other = a.clear other := by
  cases a <;> rfl

theorem roster_blurred (r : Roster) (connection : Nat) (a : Action) (opened : Nat) :
    r.act (a.blurred connection opened) = r.act a := by
  cases a <;> rfl

theorem addressed_same {connection : Nat} {hub hub' : Hub} (h : SameBut connection hub hub')
    (other : Nat) (a : Action) :
    hub.addressed other a = hub'.addressed other (a.blurred connection hub.roster.opened) := by
  rw [addressed, addressed, roster_blurred, h.roster]

theorem opened_act (hub : Hub) (a : Action) :
    (hub.act a).roster.opened = hub.roster.opened + a.comings := by
  -- Nobody comes but by coming, whatever happens to topics and mailboxes.
  rw [act_roster]
  cases a with
  | attach capacity => rfl
  | detach connection =>
      simp only [Roster.act, Roster.detach]
      cases hub.roster.subscribers.get? connection <;> rfl
  | reset => rfl
  | close connection => rfl
  | take connection => rfl
  | followSidebar connection =>
      simp only [Roster.act, Roster.joinSidebar?]
      cases hub.roster.subscribers.get? connection <;> rfl
  | follow connection id active =>
      cases hsub : hub.roster.subscribers.get? connection with
      | none =>
          rw [(hub.roster.act_follow_absent connection id active hsub).1]
          rfl
      | some sub =>
          rw [hub.roster.act_follow connection id active sub hsub]
          rfl
  | tell announcement =>
      cases announcement with
      | sidebar event => rfl
      | conversation id event =>
          simp only [Roster.act, Roster.publish?]
          cases hub.roster.topics.get? id <;> rfl

/-- An action of anybody keeps two hubs the same but for one mailbox. -/
theorem SameBut.act {connection : Nat} {hub hub' : Hub} (h : SameBut connection hub hub')
    (a : Action) :
    SameBut connection (hub.act a) (hub'.act (a.blurred connection hub.roster.opened)) where
  roster := by rw [act_roster, act_roster, roster_blurred, h.roster]
  mailboxes := by
    intro other hne
    -- A connection that comes has an empty mailbox, of whatever size.
    by_cases hnew : ∃ capacity, a = .attach capacity ∧ other = hub.roster.opened
    · rcases hnew with ⟨capacity, rfl, rfl⟩
      rw [Action.blurred, if_neg hne, attach_mailbox, h.roster, attach_mailbox]
    · have hold : ∀ capacity, a = .attach capacity → other ≠ hub.roster.opened :=
        fun capacity ha ho => hnew ⟨capacity, ha, ho⟩
      have hold' : ∀ capacity, a.blurred connection hub.roster.opened = .attach capacity →
          other ≠ hub'.roster.opened := by
        intro capacity ha
        cases a with
        | attach before => exact h.roster ▸ hold before rfl
        | _ => cases ha
      -- The other mailboxes are offered the same frames.
      rw [act_mailbox_of_ne hub a other hold, act_mailbox_of_ne hub' _ other hold',
        Action.clear_blurred, h.mailboxes other hne, addressed_same h other a]

/-- An action on the one mailbox keeps two hubs the same but for that mailbox. -/
theorem SameBut.skip {connection : Nat} {hub hub' : Hub} (h : SameBut connection hub hub')
    (a : Action) (ha : a.isOnMailbox connection = true) : SameBut connection (hub.act a) hub' := by
  -- What only concerns the mailbox of the one connection leaves the others alone.
  cases a with
  | take c =>
      have hc : c = connection := of_decide_eq_true ha
      refine ⟨?_, fun other hne => ?_⟩
      · rw [act_roster]
        exact h.roster
      · rw [take_mailbox_other hub c other (hc ▸ hne)]
        exact h.mailboxes other hne
  | close c =>
      have hc : c = connection := of_decide_eq_true ha
      refine ⟨h.roster, fun other hne => ?_⟩
      simp only [Hub.act, closeMailbox, Table.get?_update, hc, if_neg hne]
      exact h.mailboxes other hne
  | _ => exact absurd ha Bool.false_ne_true

/-- What is watched during a course of events is what is watched when one mailbox is left alone,
    if it can be seen without that mailbox. -/
theorem collect_apart {α : Type} (connection : Nat) (watch : Hub → Action → List α)
    (hown : ∀ hub a, a.isOnMailbox connection = true → watch hub a = [])
    (hsame : ∀ hub hub' a, SameBut connection hub hub' → a.isOnMailbox connection = false →
      watch hub a = watch hub' (a.blurred connection hub.roster.opened))
    (actions : List Action) (hub hub' : Hub) (h : SameBut connection hub hub') :
    collect watch actions hub =
      collect watch (Action.apartFrom connection actions hub.roster.opened) hub' := by
  induction actions generalizing hub hub' with
  | nil => rfl
  | cons a rest ih =>
      rw [collect, Action.apartFrom, ← opened_act]
      by_cases ha : a.isOnMailbox connection = true
      · rw [hown hub a ha, if_pos ha, List.nil_append, List.nil_append]
        exact ih (hub.act a) hub' (h.skip a ha)
      · rw [if_neg ha, List.singleton_append, collect,
          hsame hub hub' a h (Bool.eq_false_iff.mpr ha), ih (hub.act a) _ (h.act a)]

/-- Two courses of events in which the same is left when one mailbox is left alone. -/
theorem collect_congr {α : Type} (connection : Nat) (watch : Hub → Action → List α)
    (hown : ∀ hub a, a.isOnMailbox connection = true → watch hub a = [])
    (hsame : ∀ hub hub' a, SameBut connection hub hub' → a.isOnMailbox connection = false →
      watch hub a = watch hub' (a.blurred connection hub.roster.opened))
    (actions actions' : List Action)
    (h : Action.apartFrom connection actions 0 = Action.apartFrom connection actions' 0) :
    collect watch actions fresh = collect watch actions' fresh := by
  have hfirst := collect_apart connection watch hown hsame actions fresh fresh (.refl _ _)
  have hsecond := collect_apart connection watch hown hsame actions' fresh fresh (.refl _ _)
  exact hfirst.trans ((congrArg (collect watch · fresh) h).trans hsecond.symm)

/-! ### What can be watched -/

theorem answer_same {connection : Nat} {hub hub' : Hub} (h : SameBut connection hub hub')
    (a : Action) (ha : a.isOnMailbox connection = false) :
    hub.answer a = hub'.answer (a.blurred connection hub.roster.opened) := by
  -- The answers are read off the roster or off the mailbox of another connection.
  cases a with
  | attach capacity => simp only [answer, Action.blurred, attach, Roster.attach, h.roster]
  | take c =>
      have hc : c ≠ connection := of_decide_eq_false ha
      simp only [answer, Action.blurred, take?, h.mailboxes c hc, Option.map_map]
      rfl
  | followSidebar c => simp only [answer, Action.blurred, subscribeSidebar?, h.roster,
      Option.isSome_map]
  | follow c id active =>
      simp only [answer, Action.blurred, subscribe?, h.roster, Option.map_map]
      rfl
  | tell announcement =>
      cases announcement with
      | sidebar event => simp only [answer, Action.blurred, publishSidebar, h.roster]
      | conversation id event =>
          simp only [answer, Action.blurred, publish, h.roster]
          cases hub'.roster.publish? id event <;> rfl
  | _ => rfl

theorem sight_same {connection : Nat} {hub hub' : Hub} (h : SameBut connection hub hub')
    (a : Action) (ha : a.isOnMailbox connection = false) :
    sight connection hub a =
      sight connection hub' (a.blurred connection hub.roster.opened) := by
  have hblurred : (a.blurred connection hub.roster.opened).isOnMailbox connection = false := by
    cases a <;> exact ha
  rw [sight, sight, ha, hblurred, answer_same h a ha, roster_blurred, h.roster]

/-- Nothing is addressed to anybody when a connection reads its mailbox or gives it up. -/
theorem addressed_own (connection other : Nat) (hub : Hub) (a : Action)
    (ha : a.isOnMailbox connection = true) : hub.addressed other a = [] := by
  cases a with
  | take c => rfl
  | close c => rfl
  | _ => exact absurd ha Bool.false_ne_true

theorem accepted_own (connection other : Nat) (hub : Hub) (a : Action)
    (ha : a.isOnMailbox connection = true) : hub.accepted other a = [] := by
  rw [accepted, addressed_own connection other hub a ha]
  cases hub.mailboxes.get? other <;> rfl

theorem accepted_same {connection : Nat} {hub hub' : Hub} (h : SameBut connection hub hub')
    (other : Nat) (hne : other ≠ connection) (a : Action) :
    hub.accepted other a = hub'.accepted other (a.blurred connection hub.roster.opened) := by
  rw [accepted, accepted, Action.clear_blurred, h.mailboxes other hne, addressed_same h other a]

theorem taken_same {connection : Nat} {hub hub' : Hub} (h : SameBut connection hub hub')
    (other : Nat) (hne : other ≠ connection) (a : Action) :
    hub.taken other a = hub'.taken other (a.blurred connection hub.roster.opened) := by
  cases a with
  | take c => simp only [taken, Action.blurred, waiting, h.mailboxes other hne]
  | _ => rfl

theorem taken_own (connection other : Nat) (hne : other ≠ connection) (hub : Hub) (a : Action)
    (ha : a.isOnMailbox connection = true) : hub.taken other a = [] := by
  cases a with
  | take c =>
      have hc : c = connection := of_decide_eq_true ha
      rw [taken, if_neg fun e => hne (e.symm.trans hc)]
  | close c => rfl
  | _ => exact absurd ha Bool.false_ne_true

/-! ### The order of members -/

theorem framesFor_perm (connection : Nat) (ds ds' : List Delivery) (h : ds.Perm ds')
    (hnodup : (ds.map (·.connection)).Nodup) :
    framesFor connection ds = framesFor connection ds' := by
  -- There is at most one frame for the connection, so that there is nothing to reorder.
  have hshort : (framesFor connection ds).length ≤ 1 := by
    rw [framesFor, List.length_map, ← List.countP_eq_length_filter]
    calc ds.countP (fun d => decide (d.connection = connection))
        = (ds.map (·.connection)).count connection := by
          rw [List.count, List.countP_map]
          rfl
      _ ≤ 1 := List.nodup_iff_count_le_one.mp hnodup connection
  have hperm : (framesFor connection ds).Perm (framesFor connection ds') :=
    (h.filter _).map _
  cases hframes : framesFor connection ds with
  | nil => exact (List.nil_perm.mp (hframes ▸ hperm)).symm
  | cons f rest =>
      rw [hframes, List.length_cons] at hshort
      have hrest : rest = [] := List.eq_nil_of_length_eq_zero (by omega)
      rw [hframes, hrest] at hperm
      rw [hrest]
      exact List.singleton_perm.mp hperm

/-- The order in which members are visited does not matter. -/
theorem deliverAll_perm (hub : Hub) (ds ds' : List Delivery) (h : ds.Perm ds')
    (hnodup : (ds.map (·.connection)).Nodup) (connection : Nat) :
    (hub.deliverAll ds).mailboxes.get? connection =
      (hub.deliverAll ds').mailboxes.get? connection := by
  rw [deliverAll_mailbox, deliverAll_mailbox, framesFor_perm connection ds ds' h hnodup]

theorem tell_eq (hub : Hub) (announcement : Announcement) :
    hub.tell announcement =
      ({ hub with roster := (hub.roster.act (.tell announcement)).2 }).deliverAll
        (hub.roster.act (.tell announcement)).1 := by
  cases announcement with
  | sidebar event => rfl
  | conversation id event =>
      simp only [tell, publish, Roster.act]
      cases hub.roster.publish? id event <;> rfl

/-- An announcement visits nobody twice. -/
theorem nodup_told {r : Roster} (h : r.Orderly) (announcement : Announcement) :
    ((r.act (.tell announcement)).1.map (·.connection)).Nodup := by
  cases announcement with
  | sidebar event =>
      refine (congrArg List.Nodup (Topic.announce_members r.sidebar event.body)).mpr ?_
      exact h.nodup_members .sidebar
  | conversation id event =>
      simp only [Roster.act, Roster.publish?]
      cases ht : r.topics.get? id with
      | none => exact List.nodup_nil
      | some t =>
          -- The members of a topic are addressed once each.
          have hmembers := h.nodup_members (.conversation id)
          rw [Roster.topicOf, Roster.topic, ht] at hmembers
          exact (congrArg List.Nodup (Topic.announce_members t _)).mpr hmembers

theorem tell_perm {hub : Hub} (h : hub.roster.Orderly) (announcement : Announcement)
    (ds : List Delivery) (hperm : ds.Perm (hub.roster.act (.tell announcement)).1)
    (connection : Nat) :
    (({ hub with roster := (hub.roster.act (.tell announcement)).2 }).deliverAll
        ds).mailboxes.get? connection = (hub.tell announcement).mailboxes.get? connection := by
  rw [tell_eq]
  refine deliverAll_perm _ _ _ hperm ?_ connection
  exact (hperm.map _).nodup_iff.mpr (nodup_told h announcement)

end Hub

/-! ### The mailbox itself -/

namespace Mailbox

/-- Some frames that are offered, each with whether it finds room. -/
def fates (m : Mailbox) : List Frame → List (Frame × Bool)
  | [] => []
  | f :: fs => (f, m.hasRoom) :: (m.offer f).fates fs

theorem fates_frames (m : Mailbox) (fs : List Frame) : (m.fates fs).map (·.1) = fs := by
  induction fs generalizing m with
  | nil => rfl
  | cons f rest ih => rw [fates, List.map_cons, ih]

/-- The frames that find room are those that are accepted. -/
theorem accepted_eq (m : Mailbox) (fs : List Frame) :
    m.accepted fs = ((m.fates fs).filter (·.2)).map (·.1) := by
  induction fs generalizing m with
  | nil => rfl
  | cons f rest ih =>
      rw [accepted, fates, ih]
      by_cases hroom : m.hasRoom = true
      · rw [if_pos hroom, hroom]
        rfl
      · rw [if_neg hroom, Bool.eq_false_iff.mpr hroom]
        rfl

theorem accepted_closed (m : Mailbox) (h : m.closed = true) (fs : List Frame) :
    m.accepted fs = [] := by
  induction fs with
  | nil => rfl
  | cons f rest ih =>
      have hroom : m.hasRoom = false := by rw [hasRoom, h, Bool.not_true, Bool.false_and]
      rw [accepted, offer, hroom]
      exact ih

theorem offerAll_closed (m : Mailbox) (fs : List Frame) : (m.offerAll fs).closed = m.closed := by
  induction fs generalizing m with
  | nil => rfl
  | cons f rest ih =>
      refine (ih (m.offer f)).trans ?_
      rw [offer]
      split <;> rfl

end Mailbox

namespace Hub

/-- The frames that an action addresses to a connection, each with whether it finds room. -/
def fates (hub : Hub) (connection : Nat) (a : Action) : List (Frame × Bool) :=
  match hub.mailboxes.get? connection with
  | some m => (a.clear connection m).fates (hub.addressed connection a)
  | none => (hub.addressed connection a).map fun f => (f, false)

theorem fates_addressed (hub : Hub) (connection : Nat) (a : Action) :
    (hub.fates connection a).map (·.1) = hub.addressed connection a := by
  rw [fates]
  cases hub.mailboxes.get? connection with
  | none => simp [Function.comp_def]
  | some m => exact Mailbox.fates_frames ..

theorem accepted_eq (hub : Hub) (connection : Nat) (a : Action) :
    hub.accepted connection a = ((hub.fates connection a).filter (·.2)).map (·.1) := by
  rw [accepted, fates]
  cases hub.mailboxes.get? connection with
  | none => simp
  | some m => exact Mailbox.accepted_eq ..

theorem map_collect {α β : Type} (watch : Hub → Action → List α) (f : α → β)
    (actions : List Action) (hub : Hub) :
    (collect watch actions hub).map f = collect (fun hub a => (watch hub a).map f) actions hub := by
  induction actions generalizing hub with
  | nil => rfl
  | cons a rest ih => rw [collect, List.map_append, ih, collect]

theorem filter_collect {α : Type} (watch : Hub → Action → List α) (p : α → Bool)
    (actions : List Action) (hub : Hub) :
    (collect watch actions hub).filter p =
      collect (fun hub a => (watch hub a).filter p) actions hub := by
  induction actions generalizing hub with
  | nil => rfl
  | cons a rest ih => rw [collect, List.filter_append, ih, collect]

/-- Connections that have not come yet have no mailbox. -/
def Boxed (hub : Hub) : Prop :=
  ∀ connection, hub.roster.opened ≤ connection → hub.mailboxes.get? connection = none

theorem Boxed.act {hub : Hub} (h : hub.Boxed) (a : Action) : (hub.act a).Boxed := by
  intro connection hnew
  rw [opened_act] at hnew
  have hne : ∀ capacity, a = .attach capacity → connection ≠ hub.roster.opened := by
    rintro capacity rfl ho
    rw [Action.comings] at hnew
    omega
  rw [act_mailbox_of_ne hub a connection hne, h connection (by omega), Option.map_none]

theorem fresh_boxed : fresh.Boxed := fun _ _ => rfl

theorem Boxed.actAll {hub : Hub} (h : hub.Boxed) (actions : List Action) :
    (hub.actAll actions).Boxed := by
  induction actions generalizing hub with
  | nil => exact h
  | cons a rest ih => exact ih (h.act a)

theorem Boxed.lt {hub : Hub} (h : hub.Boxed) {connection : Nat} {m : Mailbox}
    (hm : hub.mailboxes.get? connection = some m) : connection < hub.roster.opened := by
  by_contra hle
  rw [h connection (Nat.le_of_not_lt hle)] at hm
  exact absurd hm (by simp)

/-- Nothing enters a mailbox that was closed. -/
theorem accepted_closed (connection : Nat) (actions : List Action) (hub : Hub) (h : hub.Boxed)
    (m : Mailbox) (hm : hub.mailboxes.get? connection = some m) (hclosed : m.closed = true) :
    collect (fun hub a => hub.accepted connection a) actions hub = [] := by
  induction actions generalizing hub m with
  | nil => rfl
  | cons a rest ih =>
      -- Nobody opens a mailbox again.
      have hstill : (a.clear connection m).closed = true := by
        cases a with
        | close c =>
            rw [Action.clear]
            split
            · rfl
            · exact hclosed
        | take c =>
            rw [Action.clear]
            split <;> exact hclosed
        | _ => exact hclosed
      have hafter := act_mailbox hub a connection (h.lt hm)
      rw [hm, Option.map_some] at hafter
      rw [collect, ih (hub.act a) (h.act a) _ hafter ((Mailbox.offerAll_closed ..).trans hstill),
        accepted, hm, List.append_nil]
      exact Mailbox.accepted_closed _ hstill _

/-- What waited and what found room is what was read and what waits, unless the mailbox is given
    up with what is in it. -/
theorem waiting_append_accepted (hub : Hub) (h : hub.Boxed) (connection : Nat) (a : Action)
    (hopen : a = .close connection → hub.mailboxes.get? connection = none) :
    hub.waiting connection ++ hub.accepted connection a =
      hub.taken connection a ++ (hub.act a).waiting connection := by
  cases hm : hub.mailboxes.get? connection with
  -- A connection that has not come has nothing, and one that comes has nothing yet.
  | none =>
      have hwaiting : hub.waiting connection = [] := by
        rw [waiting, hm, Option.map_none, Option.getD_none]
      have htaken : hub.taken connection a = [] := by
        cases a with
        | take c =>
            rw [taken, hwaiting]
            split <;> rfl
        | _ => rfl
      have hafter : (hub.act a).waiting connection = [] := by
        by_cases hnew : ∃ capacity, a = .attach capacity ∧ connection = hub.roster.opened
        · rcases hnew with ⟨capacity, rfl, rfl⟩
          rw [waiting, attach_mailbox]
          rfl
        · rw [waiting, act_mailbox_of_ne hub a connection
            fun capacity ha ho => hnew ⟨capacity, ha, ho⟩, hm, Option.map_none, Option.map_none,
            Option.getD_none]
      rw [hwaiting, htaken, hafter, accepted, hm]
  | some m =>
      have hclose : a ≠ .close connection := by
        intro ha
        exact absurd (hm.symm.trans (hopen ha)) (by simp)
      have hwaiting : hub.waiting connection = m.items := by
        rw [waiting, hm, Option.map_some, Option.getD_some]
      rw [waiting_act hub a connection (h.lt hm), hm, Option.map_some, Option.getD_some, hwaiting,
        ← List.append_assoc]
      congr 1
      cases a with
      | close c =>
          have hc : ¬c = connection := fun e => hclose (by rw [e])
          simp only [taken, Action.clear, if_neg hc, List.nil_append]
      | take c =>
          by_cases hc : c = connection
          · simp only [taken, Action.clear, if_pos hc, hwaiting]
            cases m.items <;> rfl
          · simp only [taken, Action.clear, if_neg hc, List.nil_append]
      | _ => rfl

/-- What a connection reads is what found room, in order and from the first frame on, and the
    rest waits unless the mailbox is given up. -/
theorem taken_prefix (connection : Nat) (actions : List Action) (hub : Hub) (h : hub.Boxed) :
    takenAll connection actions hub <+:
      hub.waiting connection ++ collect (fun hub a => hub.accepted connection a) actions hub ∧
    (.close connection ∉ actions →
      takenAll connection actions hub ++ (hub.actAll actions).waiting connection =
        hub.waiting connection ++
          collect (fun hub a => hub.accepted connection a) actions hub) := by
  induction actions generalizing hub with
  | nil => exact ⟨List.nil_prefix, fun _ => by rw [takenAll, collect, List.append_nil]; rfl⟩
  | cons a rest ih =>
      rcases ih (hub.act a) (h.act a) with ⟨hfirst, hall⟩
      rw [takenAll, collect, actAll_cons, ← List.append_assoc]
      by_cases hgone : a = .close connection ∧ (hub.mailboxes.get? connection).isSome
      -- The frames that wait go with the mailbox, and none comes in afterwards.
      · rcases hgone with ⟨rfl, hsome⟩
        rcases Option.isSome_iff_exists.mp hsome with ⟨m, hm⟩
        have hafter : (hub.act (.close connection)).mailboxes.get? connection = some m.close := by
          simp only [act, closeMailbox, Table.get?_update, if_true, hm, Option.map_some]
        have hnone := accepted_closed connection rest _ (h.act (.close connection)) _ hafter rfl
        have hwaiting : (hub.act (.close connection)).waiting connection = [] := by
          rw [waiting, hafter]
          rfl
        rw [hnone, hwaiting, List.append_nil, List.prefix_nil] at hfirst
        refine ⟨?_, fun hopen => absurd List.mem_cons_self hopen⟩
        rw [hfirst]
        exact List.nil_prefix
      · have hstep := waiting_append_accepted hub h connection a fun ha => by
          simpa using fun hsome => hgone ⟨ha, hsome⟩
        rw [hstep, List.append_assoc]
        refine ⟨(List.prefix_append_right_inj _).mpr hfirst, fun hopen => ?_⟩
        rw [List.append_assoc, hall fun hmem => hopen (List.mem_cons_of_mem _ hmem)]

theorem takenAll_eq (connection : Nat) (actions : List Action) (hub : Hub) :
    takenAll connection actions hub =
      collect (fun hub a => hub.taken connection a) actions hub := by
  induction actions generalizing hub with
  | nil => rfl
  | cons a rest ih => rw [takenAll, collect, ih]

theorem addressedAll_eq (connection : Nat) (actions : List Action) (hub : Hub) :
    addressedAll connection actions hub =
      collect (fun hub a => hub.addressed connection a) actions hub := by
  induction actions generalizing hub with
  | nil => rfl
  | cons a rest ih => rw [addressedAll, collect, ih]

/-- Two courses of events that differ in nothing but the mailbox of a connection, in how large it
    is, when it is read and whether it is given up, look the same without it: every operation
    gives back the same, addresses the same frames with the same numbers to the same connections
    and leaves the same roster, and the same frames enter and leave every other mailbox. The
    frames for the connection are the same as well. Those that enter its mailbox are the ones
    that find room in it when they come, neither full nor closed; they are read in order from the
    first one on, and wait until then unless the mailbox is given up. And in whichever order the
    members of a topic are visited, every mailbox is the same afterwards. -/
theorem slow_reader_apart (connection : Nat) (actions actions' : List Action)
    (h : Action.apartFrom connection actions 0 = Action.apartFrom connection actions' 0) :
    collect (sight connection) actions fresh = collect (sight connection) actions' fresh ∧
    (∀ other, other ≠ connection →
      collect (fun hub a => hub.accepted other a) actions fresh =
        collect (fun hub a => hub.accepted other a) actions' fresh ∧
      takenAll other actions fresh = takenAll other actions' fresh) ∧
    addressedAll connection actions fresh = addressedAll connection actions' fresh ∧
    (∀ course ∈ [actions, actions'],
      let offered := collect (fun hub a => hub.fates connection a) course fresh
      let kept := (offered.filter (·.2)).map (·.1)
      offered.map (·.1) = addressedAll connection course fresh ∧
      takenAll connection course fresh <+: kept ∧
      (.close connection ∉ course →
        takenAll connection course fresh ++ (fresh.actAll course).waiting connection = kept)) ∧
    ∀ announcement ds,
      let hub := fresh.actAll actions
      let (sent, roster) := hub.roster.act (.tell announcement)
      ds.Perm sent → ∀ other,
        (({ hub with roster }).deliverAll ds).mailboxes.get? other =
          (hub.tell announcement).mailboxes.get? other := by
  -- What is seen elsewhere depends on the roster and on other mailboxes, and these agree.
  refine ⟨?_, fun other hne => ⟨?_, ?_⟩, ?_, ?_, ?_⟩
  · refine collect_congr connection _ (fun hub a ha => ?_)
      (fun _ _ a hsame ha => sight_same hsame a ha) _ _ h
    rw [sight, if_pos ha]
  · exact collect_congr connection _ (accepted_own connection other)
      (fun _ _ a hsame _ => accepted_same hsame other hne a) _ _ h
  · rw [takenAll_eq, takenAll_eq]
    exact collect_congr connection _ (taken_own connection other hne)
      (fun _ _ a hsame _ => taken_same hsame other hne a) _ _ h
  -- What is sent to the slow connection agrees as well; only what it keeps does not.
  · rw [addressedAll_eq, addressedAll_eq]
    exact collect_congr connection _ (addressed_own connection connection)
      (fun _ _ a hsame _ => addressed_same hsame connection a) _ _ h
  · intro course _ offered kept
    have hkept : kept = collect (fun hub a => hub.accepted connection a) course fresh := by
      simp only [kept, offered, filter_collect, map_collect, accepted_eq]
    have hread := taken_prefix connection course fresh fresh_boxed
    rw [← hkept] at hread
    refine ⟨?_, hread.1, hread.2⟩
    simp only [offered, map_collect, fates_addressed, addressedAll_eq]
  -- The order in which the members are visited does not matter.
  · intro announcement ds hub
    have horderly : hub.roster.Orderly := orderly_actAll fresh_orderly actions
    exact fun hperm other => tell_perm horderly announcement ds hperm other

/-- A connection notices nothing of another one, whether that one never reads and has lost a frame,
    or reads and is gone before the next frame comes. -/
theorem neighbour_of_slow_reader :
    collect (fun hub a => hub.accepted 1 a)
        [.attach 1, .attach 4, .followSidebar 0, .followSidebar 1, .tell (.sidebar (.delete "a")),
          .tell (.sidebar (.delete "b"))] fresh =
      collect (fun hub a => hub.accepted 1 a)
        [.attach 8, .attach 4, .followSidebar 0, .followSidebar 1, .tell (.sidebar (.delete "a")),
          .take 0, .close 0, .tell (.sidebar (.delete "b"))] fresh :=
  ((slow_reader_apart 0 _ _ rfl).2.1 1 (by decide)).1

end Hub

end Switchboard

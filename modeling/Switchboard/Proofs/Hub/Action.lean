import Switchboard.Hub.Basic

/-!
# Actions on the Hub

Everything that happens to the hub, as data, so that whole courses of events
can be spoken of.

An action has two sides. The roster says which frames it addresses to whom,
whatever the state of the mailboxes; a mailbox takes the frames that are
addressed to it as far as there is room. `Hub.waiting_append_addressed` puts
the two together for one connection: as long as every frame finds room, what was
waiting and what was addressed since is what was taken out and what is waiting
now, in the same order.

## Main definitions

* `Announcement`: An event with the topic it is announced on.
* `ConversationEvent.key`: The run that an event names.
* `eventsOn`: The events that are announced on a conversation.
* `Hub.tell`, `Hub.tellAll`: The hub after announcements.
* `Hub.Action`, `Hub.act`, `Hub.actAll`: An action, and the hub after actions.
* `Roster.act`: The frames an action addresses, and the roster after it.
* `Hub.addressed`, `Hub.addressedAll`: The frames that are addressed to a connection.
* `Mailbox.TakesAll`, `Hub.NeverOverflows`: Every frame finds room.
* `Hub.takenAll`: The frames that a connection takes out.

## Theorems

* `Hub.act_roster`: The roster does not depend on the mailboxes.
* `Hub.act_mailbox`: What an action does to the mailbox of a connection.
* `Hub.waiting_append_addressed`: No frame is lost, added or moved while every frame finds room.
-/

namespace Switchboard

/-- An event with the topic it is announced on. -/
inductive Announcement where
  | sidebar (event : SidebarEvent)
  | conversation (id : String) (event : ConversationEvent)

/-- The run that an event of a conversation names. -/
def ConversationEvent.key (conversation : String) : ConversationEvent → RunKey
  | .snapshot s => s.key
  | .delta run _ => ⟨conversation, run⟩
  | .toolState run _ => ⟨conversation, run⟩
  | .turnFinal run _ => ⟨conversation, run⟩

/-- The events among some announcements that are made on a conversation. -/
def eventsOn (conversation : String) (news : List Announcement) : List ConversationEvent :=
  news.filterMap fun
    | .sidebar _ => none
    | .conversation id event => if id = conversation then some event else none

@[simp] theorem eventsOn_nil (conversation : String) : eventsOn conversation [] = [] := rfl

@[simp] theorem eventsOn_sidebar (conversation : String) (event : SidebarEvent)
    (news : List Announcement) :
    eventsOn conversation (.sidebar event :: news) = eventsOn conversation news := rfl

theorem eventsOn_append (conversation : String) (first second : List Announcement) :
    eventsOn conversation (first ++ second) =
      eventsOn conversation first ++ eventsOn conversation second :=
  List.filterMap_append ..

theorem eventsOn_conversation (conversation id : String) (events : List ConversationEvent) :
    eventsOn conversation (events.map (.conversation id)) =
      if id = conversation then events else [] := by
  induction events with
  | nil => simp
  | cons e rest ih =>
      rw [List.map_cons, eventsOn, List.filterMap_cons]
      by_cases h : id = conversation
      · rw [if_pos h] at ih ⊢
        simp only [if_pos h]
        exact congrArg (e :: ·) ih
      · rw [if_neg h] at ih ⊢
        simp only [if_neg h]
        exact ih

namespace Hub

/-- The hub after an announcement. -/
def tell (hub : Hub) : Announcement → Hub
  | .sidebar event => (hub.publishSidebar event).2
  | .conversation id event => (hub.publish id event).2

/-- The hub after some announcements. -/
def tellAll (hub : Hub) (news : List Announcement) : Hub :=
  news.foldl tell hub

@[simp] theorem tellAll_nil (hub : Hub) : hub.tellAll [] = hub := rfl

@[simp] theorem tellAll_cons (hub : Hub) (a : Announcement) (news : List Announcement) :
    hub.tellAll (a :: news) = (hub.tell a).tellAll news := rfl

/-- Something that happens to the hub. -/
inductive Action where
  | attach (capacity : Nat)
  | detach (connection : Nat)
  | reset
  /-- Nobody reads the mailbox of a connection any more. -/
  | close (connection : Nat)
  /-- A connection takes the first frame out of its mailbox. -/
  | take (connection : Nat)
  | followSidebar (connection : Nat)
  | follow (connection : Nat) (conversation : String) (active : Option Snapshot)
  | tell (announcement : Announcement)

/-- The hub after an action. An action of a connection that is not there changes nothing. -/
def act (hub : Hub) : Action → Hub
  | .attach capacity => (hub.attach capacity).2
  | .detach connection => hub.detach connection
  | .reset => hub.reset
  | .close connection => hub.closeMailbox connection
  | .take connection => ((hub.take? connection).map (·.2)).getD hub
  | .followSidebar connection => (hub.subscribeSidebar? connection).getD hub
  | .follow connection conversation active =>
    ((hub.subscribe? connection conversation active).map (·.2)).getD hub
  | .tell announcement => hub.tell announcement

/-- The hub after some actions. -/
def actAll (hub : Hub) (actions : List Action) : Hub :=
  actions.foldl act hub

@[simp] theorem actAll_nil (hub : Hub) : hub.actAll [] = hub := rfl

@[simp] theorem actAll_cons (hub : Hub) (a : Action) (actions : List Action) :
    hub.actAll (a :: actions) = (hub.act a).actAll actions := rfl

theorem actAll_append (hub : Hub) (first second : List Action) :
    hub.actAll (first ++ second) = (hub.actAll first).actAll second :=
  List.foldl_append ..

theorem actAll_tell (hub : Hub) (news : List Announcement) :
    hub.actAll (news.map .tell) = hub.tellAll news := by
  induction news generalizing hub with
  | nil => rfl
  | cons a rest ih => exact ih (hub.tell a)

end Hub

/-! ### The roster -/

/-- The frames an action addresses and the roster after it. -/
def Roster.act (r : Roster) : Hub.Action → List Delivery × Roster
  | .attach _ => ([], r.attach.2)
  | .detach connection => ([], r.detach connection)
  | .reset => ([], r.reset)
  | .close _ => ([], r)
  | .take _ => ([], r)
  | .followSidebar connection => ([], (r.joinSidebar? connection).getD r)
  | .follow connection conversation active =>
    (r.joinConversation? connection conversation active).getD ([], r)
  | .tell (.sidebar event) => ((r.publishSidebar event).1.2, (r.publishSidebar event).2)
  | .tell (.conversation id event) =>
    ((r.publish? id event).map fun p => (p.1.2, p.2)).getD ([], r)

/-- The frames of some deliveries that are for a connection. -/
def framesFor (connection : Nat) (ds : List Delivery) : List Frame :=
  (ds.filter (·.connection = connection)).map (·.frame)

@[simp] theorem framesFor_nil (connection : Nat) : framesFor connection [] = [] := rfl

/-! ### Mailboxes -/

namespace Mailbox

/-- The mailbox after some frames were offered. -/
def offerAll (m : Mailbox) (fs : List Frame) : Mailbox :=
  fs.foldl offer m

/-- Whether every one of some frames finds room. -/
def TakesAll (m : Mailbox) : List Frame → Prop
  | [] => True
  | f :: fs => m.hasRoom = true ∧ (m.offer f).TakesAll fs

instance decidableTakesAll (m : Mailbox) : (fs : List Frame) → Decidable (m.TakesAll fs)
  | [] => .isTrue trivial
  | f :: fs =>
    have := (m.offer f).decidableTakesAll fs
    inferInstanceAs (Decidable (m.hasRoom = true ∧ (m.offer f).TakesAll fs))

theorem offerAll_of_takesAll (m : Mailbox) (fs : List Frame) (h : m.TakesAll fs) :
    m.offerAll fs = { m with items := m.items ++ fs } := by
  induction fs generalizing m with
  | nil => simp only [offerAll, List.foldl_nil, List.append_nil]
  | cons f rest ih =>
      have hf : m.offer f = { m with items := m.items ++ [f] } := by rw [offer, if_pos h.1]
      have hr := ih (m.offer f) h.2
      rw [offerAll, List.foldl_cons, ← offerAll, hr, hf]
      simp only [List.append_assoc, List.singleton_append]

end Mailbox

namespace Hub

theorem deliver_mailbox (hub : Hub) (d : Delivery) (connection : Nat) :
    (hub.deliver d).mailboxes.get? connection =
      (hub.mailboxes.get? connection).map (·.offerAll (framesFor connection [d])) := by
  rw [deliver, Table.get?_update]
  by_cases h : connection = d.connection
  · subst h
    simp [framesFor, Mailbox.offerAll]
  · rw [if_neg h]
    have hd : ¬d.connection = connection := fun e => h e.symm
    simp [framesFor, Mailbox.offerAll, hd]

theorem deliverAll_mailbox (hub : Hub) (ds : List Delivery) (connection : Nat) :
    (hub.deliverAll ds).mailboxes.get? connection =
      (hub.mailboxes.get? connection).map (·.offerAll (framesFor connection ds)) := by
  induction ds generalizing hub with
  | nil => simp [deliverAll, Mailbox.offerAll]
  | cons d rest ih =>
      have hr := ih (hub.deliver d)
      rw [deliver_mailbox, Option.map_map] at hr
      have hf : framesFor connection (d :: rest) =
          framesFor connection [d] ++ framesFor connection rest := by
        simp only [framesFor, ← List.map_append, ← List.filter_append, List.singleton_append]
      rw [deliverAll, List.foldl_cons, ← deliverAll, hr, hf]
      simp [Function.comp_def, Mailbox.offerAll]

/-- The roster does not depend on the mailboxes. -/
theorem act_roster (hub : Hub) (a : Action) : (hub.act a).roster = (hub.roster.act a).2 := by
  -- Who is on which topic depends on nothing that mailboxes do.
  cases a with
  | attach capacity => rfl
  | detach connection => rfl
  | reset => rfl
  | close connection => rfl
  | take connection =>
      simp only [act, take?, Roster.act]
      cases (hub.mailboxes.get? connection).bind Mailbox.take? <;> rfl
  | followSidebar connection =>
      simp only [act, subscribeSidebar?, Roster.act]
      cases hub.roster.joinSidebar? connection <;> rfl
  | follow connection conversation active =>
      simp only [act, subscribe?, Roster.act]
      cases h : hub.roster.joinConversation? connection conversation active with
      | none => rfl
      | some p => simp [deliverAll_roster]
  | tell announcement =>
      cases announcement with
      | sidebar event => exact deliverAll_roster ..
      | conversation id event =>
          simp only [act, tell, publish, Roster.act]
          cases h : hub.roster.publish? id event with
          | none => rfl
          | some p => simp [deliverAll_roster]

/-- The frames an action addresses to a connection. -/
def addressed (hub : Hub) (connection : Nat) (a : Action) : List Frame :=
  framesFor connection (hub.roster.act a).1

/-- The mailbox of a connection after an action, as far as it does not depend on what is
    addressed to it. -/
def Action.clear (connection : Nat) : Action → Mailbox → Mailbox
  | .close c, m => if c = connection then m.close else m
  | .take c, m => if c = connection then { m with items := m.items.tail } else m
  | _, m => m

theorem take_mailbox_self (hub : Hub) (connection : Nat) :
    (hub.act (.take connection)).mailboxes.get? connection =
      (hub.mailboxes.get? connection).map fun m => { m with items := m.items.tail } := by
  unfold act take?
  -- There is a mailbox or not, with a frame in it or not.
  cases hm : hub.mailboxes.get? connection with
  | none => simp [hm]
  | some m =>
      cases hi : m.items with
      | nil =>
          simp only [Option.bind_some, Mailbox.take?, hi, Option.map_none, Option.getD_none, hm,
            Option.map_some, List.tail_nil]
          rw [← hi]
      | cons f rest =>
          simp only [hm, Option.bind_some, Mailbox.take?, hi, Option.map_some, Option.getD_some,
            Table.get?_insert, if_true, List.tail_cons]

theorem take_mailbox_other (hub : Hub) (c connection : Nat) (h : connection ≠ c) :
    (hub.act (.take c)).mailboxes.get? connection = hub.mailboxes.get? connection := by
  simp only [act, take?]
  cases (hub.mailboxes.get? c).bind Mailbox.take? with
  | none => rfl
  | some p => simp [h]

/-- The mailbox of a connection that has just come is empty. -/
theorem attach_mailbox (hub : Hub) (capacity : Nat) :
    (hub.act (.attach capacity)).mailboxes.get? hub.roster.opened =
      some (.ofCapacity capacity) := by
  simp only [act, attach, Roster.attach, Table.get?_insert, if_true]

/-- An action changes a mailbox by what it takes out and by what is addressed to the connection,
    unless the connection has only just come. -/
theorem act_mailbox_of_ne (hub : Hub) (a : Action) (connection : Nat)
    (hold : ∀ capacity, a = .attach capacity → connection ≠ hub.roster.opened) :
    (hub.act a).mailboxes.get? connection =
      (hub.mailboxes.get? connection).map fun m =>
        (a.clear connection m).offerAll (hub.addressed connection a) := by
  -- An action that addresses nobody offers no frame to any mailbox.
  have hid : ∀ o : Option Mailbox, (o.map fun m => m.offerAll []) = o := by
    intro o
    cases o <;> rfl
  cases a with
  | attach capacity =>
      -- The new connection is another one.
      have hne : ¬connection = hub.roster.opened := hold capacity rfl
      simp only [act, attach, Roster.attach, addressed, Roster.act, Action.clear, framesFor_nil,
        Table.get?_insert, if_neg hne, hid]
  | detach c => simp only [act, detach, addressed, Roster.act, Action.clear, framesFor_nil, hid]
  | reset => simp only [act, reset, addressed, Roster.act, Action.clear, framesFor_nil, hid]
  | close c =>
      simp only [act, closeMailbox, addressed, Roster.act, Action.clear, framesFor_nil,
        Table.get?_update, Mailbox.offerAll, List.foldl_nil]
      by_cases h : connection = c
      · simp [h]
      · have hc : ¬c = connection := fun e => h e.symm
        simp [h, hc]
  | take c =>
      simp only [addressed, Roster.act, framesFor_nil, Action.clear]
      by_cases h : connection = c
      · subst h
        simp only [take_mailbox_self, if_true, Mailbox.offerAll, List.foldl_nil]
      · have hc : ¬c = connection := fun e => h e.symm
        simp only [take_mailbox_other hub c connection h, if_neg hc, hid]
  | followSidebar c =>
      simp only [act, subscribeSidebar?, addressed, Roster.act, Action.clear, framesFor_nil, hid]
      cases hub.roster.joinSidebar? c <;> rfl
  | follow c conversation active =>
      simp only [act, subscribe?, addressed, Roster.act, Action.clear]
      cases h : hub.roster.joinConversation? c conversation active with
      | none => simp [hid]
      | some p => simp [deliverAll_mailbox]
  | tell announcement =>
      cases announcement with
      | sidebar event => exact deliverAll_mailbox ..
      | conversation id event =>
          simp only [act, tell, publish, addressed, Roster.act, Action.clear]
          cases h : hub.roster.publish? id event with
          | none => simp [hid]
          | some p => simp [deliverAll_mailbox]

/-- An action changes the mailbox of a connection that is there by what it takes out and by
    what is addressed to it. -/
theorem act_mailbox (hub : Hub) (a : Action) (connection : Nat)
    (hold : connection < hub.roster.opened) :
    (hub.act a).mailboxes.get? connection =
      (hub.mailboxes.get? connection).map fun m =>
        (a.clear connection m).offerAll (hub.addressed connection a) :=
  act_mailbox_of_ne hub a connection fun _ _ => Nat.ne_of_lt hold

/-! ### Courses of events -/

/-- The frames that some actions address to a connection. -/
def addressedAll (connection : Nat) : List Action → Hub → List Frame
  | [], _ => []
  | a :: rest, hub => hub.addressed connection a ++ addressedAll connection rest (hub.act a)

theorem addressedAll_append (connection : Nat) (first second : List Action) (hub : Hub) :
    addressedAll connection (first ++ second) hub =
      addressedAll connection first hub ++
        addressedAll connection second (hub.actAll first) := by
  induction first generalizing hub with
  | nil => rfl
  | cons a rest ih =>
      rw [List.cons_append, addressedAll, addressedAll, ih, List.append_assoc, actAll_cons]

/-- Whether every frame that is addressed to a connection finds room in its mailbox. -/
def NeverOverflows (connection : Nat) : List Action → Hub → Prop
  | [], _ => True
  | a :: rest, hub =>
    (∀ m ∈ hub.mailboxes.get? connection, m.TakesAll (hub.addressed connection a)) ∧
      NeverOverflows connection rest (hub.act a)

instance decidableNeverOverflows (connection : Nat) :
    (actions : List Action) → (hub : Hub) → Decidable (NeverOverflows connection actions hub)
  | [], _ => .isTrue trivial
  | a :: rest, hub =>
    have := decidableNeverOverflows connection rest (hub.act a)
    inferInstanceAs (Decidable
      ((∀ m ∈ hub.mailboxes.get? connection, m.TakesAll (hub.addressed connection a)) ∧
        NeverOverflows connection rest (hub.act a)))

theorem NeverOverflows.of_append {connection : Nat} {first second : List Action} {hub : Hub}
    (h : NeverOverflows connection (first ++ second) hub) :
    NeverOverflows connection first hub := by
  induction first generalizing hub with
  | nil => trivial
  | cons a rest ih => exact ⟨h.1, ih h.2⟩

/-- The frame that a connection takes out of its mailbox. -/
def taken (hub : Hub) (connection : Nat) : Action → List Frame
  | .take c => if c = connection then (hub.waiting connection).head?.toList else []
  | _ => []

/-- The frames that a connection takes out of its mailbox, in order. -/
def takenAll (connection : Nat) : List Action → Hub → List Frame
  | [], _ => []
  | a :: rest, hub => hub.taken connection a ++ takenAll connection rest (hub.act a)

theorem opened_le_act (hub : Hub) (a : Action) :
    hub.roster.opened ≤ (hub.act a).roster.opened := by
  rw [act_roster]
  -- Only somebody who comes makes the number larger.
  cases a with
  | attach capacity => exact Nat.le_succ _
  | detach connection =>
      simp only [Roster.act, Roster.detach]
      split <;> exact Nat.le_refl _
  | reset => exact Nat.le_refl _
  | close connection => exact Nat.le_refl _
  | take connection => exact Nat.le_refl _
  | followSidebar connection =>
      simp only [Roster.act, Roster.joinSidebar?]
      cases hub.roster.subscribers.get? connection <;> exact Nat.le_refl _
  | follow connection conversation active =>
      simp only [Roster.act, Roster.joinConversation?]
      cases hub.roster.subscribers.get? connection with
      | none => exact Nat.le_refl _
      | some sub =>
          simp only [Option.map_some, Option.getD_some]
          split <;> exact Nat.le_refl _
  | tell announcement =>
      cases announcement with
      | sidebar event => exact Nat.le_refl _
      | conversation id event =>
          simp only [Roster.act, Roster.publish?]
          cases hub.roster.topics.get? id <;> exact Nat.le_refl _

theorem waiting_append_addressed_act (hub : Hub) (connection : Nat) (a : Action) (m : Mailbox)
    (hold : connection < hub.roster.opened) (hbox : hub.mailboxes.get? connection = some m)
    (hopen : a ≠ .close connection) (hroom : m.TakesAll (hub.addressed connection a)) :
    hub.waiting connection ++ hub.addressed connection a =
      hub.taken connection a ++ (hub.act a).waiting connection := by
  have hafter := act_mailbox hub a connection hold
  -- A frame that is taken out is the first that waited.
  by_cases ht : a = .take connection
  · subst ht
    simp only [waiting, hafter, hbox, taken, addressed, Roster.act, framesFor_nil, Action.clear,
      Mailbox.offerAll, if_true, Option.map_some, Option.getD_some, List.foldl_nil,
      List.append_nil]
    cases h : m.items <;> rfl
  -- No other action takes anything out of the mailbox.
  · have hclear : a.clear connection m = m := by
      cases a with
      | close c =>
          have hc : ¬c = connection := fun e => hopen (by rw [e])
          simp only [Action.clear, if_neg hc]
      | take c =>
          have hc : ¬c = connection := fun e => ht (by rw [e])
          simp only [Action.clear, if_neg hc]
      | _ => rfl
    have htaken : hub.taken connection a = [] := by
      cases a with
      | take c =>
          have hc : ¬c = connection := fun e => ht (by rw [e])
          simp only [taken, if_neg hc]
      | _ => rfl
    simp only [waiting, hafter, hbox, htaken, Option.map_some, Option.getD_some, hclear,
      Mailbox.offerAll_of_takesAll m _ hroom, List.nil_append]

/-- No frame is lost, added or moved while every frame finds room. -/
theorem waiting_append_addressed (connection : Nat) (actions : List Action) (hub : Hub)
    (hold : connection < hub.roster.opened) (hbox : (hub.mailboxes.get? connection).isSome)
    (hopen : .close connection ∉ actions) (hroom : NeverOverflows connection actions hub) :
    hub.waiting connection ++ addressedAll connection actions hub =
      takenAll connection actions hub ++ (hub.actAll actions).waiting connection := by
  induction actions generalizing hub with
  | nil => simp [addressedAll, takenAll]
  | cons a rest ih =>
      -- The mailbox stays open, and it is there after the first action.
      have ha : a ≠ .close connection := by
        rintro rfl
        exact hopen List.mem_cons_self
      have hr : .close connection ∉ rest := fun h => hopen (List.mem_cons_of_mem _ h)
      rcases Option.isSome_iff_exists.mp hbox with ⟨m, hm⟩
      have hstep := waiting_append_addressed_act hub connection a m hold hm ha (hroom.1 m hm)
      have hnext := ih (hub.act a) (Nat.lt_of_lt_of_le hold (opened_le_act hub a))
        (by rw [act_mailbox hub a connection hold, Option.isSome_map]; exact hbox) hr hroom.2
      rw [addressedAll, takenAll, ← List.append_assoc, hstep, List.append_assoc, hnext,
        List.append_assoc, actAll_cons]

end Hub

end Switchboard

import Switchboard.Proofs.Edits
import Switchboard.Proofs.Followers
import Switchboard.Proofs.Hub.Topics
import Switchboard.Proofs.Replica

/-!
# The Sidebar as a Log of the Directory

The directory is changed by commands, and on the side by runs that begin, are
cancelled or end. Whoever follows the sidebar sees none of that, only frames:
here is a summary, and here is one less. A copy that is made of the frames alone
is the directory itself, after every move and in every field of every summary,
because each change of the directory is announced as it was stored and nothing
is announced that is not a change.

The first half of this needs no connection at all. `Coordinator.directory_perform`
says that a move takes the directory to what its announcements make of it. The
second half is about one connection, and says that the frames that are sent to it
make the same of any directory as the announcements do, although other frames are
among them.

## Main definitions

* `Directory.see`, `Directory.ofFrames`: The copy of the directory that frames make.
* `Announcement.body`: The content of the frames of an announcement.

## Theorems

* `Coordinator.directory_perform`: The announcements of a move are its changes of the directory.
* `Hub.see_addressedAll`: A connection on the sidebar is sent all changes in order.
* `Coordinator.sidebar_copy_agrees`: The copy of a connection on the sidebar is the directory.
-/

namespace Switchboard

/-! ### Copies of the directory -/

namespace Directory

/-- What the content of a frame makes of a copy of the directory. -/
def see (copy : Directory) : Frame.Body → Directory
  | .conversationUpsert c => ⟨copy.conversations.insert c.id c⟩
  | .conversationDelete id => copy.delete id
  | _ => copy

/-- The copy of the directory that some frames make. -/
def ofFrames (fs : List Frame) : Directory :=
  (fs.map (·.body)).foldl see fresh

theorem see_conversation (copy : Directory) (id : String) (event : ConversationEvent) :
    copy.see (event.body id) = copy := by
  cases event <;> rfl

end Directory

/-- The content of the frames of an announcement. -/
def Announcement.body : Announcement → Frame.Body
  | .sidebar event => event.body
  | .conversation id event => event.body id

namespace Directory

/-- The directory after some announcements, for somebody who goes by nothing else. -/
def seeAll (copy : Directory) (news : List Announcement) : Directory :=
  (news.map (·.body)).foldl see copy

@[simp] theorem seeAll_nil (copy : Directory) : copy.seeAll [] = copy := rfl

theorem seeAll_append (copy : Directory) (first second : List Announcement) :
    copy.seeAll (first ++ second) = (copy.seeAll first).seeAll second := by
  rw [seeAll, List.map_append, List.foldl_append, seeAll, seeAll]

/-- What is announced on conversations does not concern the directory. -/
theorem seeAll_conversation (copy : Directory) (id : String) (events : List ConversationEvent) :
    copy.seeAll (events.map (.conversation id)) = copy := by
  induction events with
  | nil => rfl
  | cons event rest ih =>
      rw [List.map_cons, ← List.singleton_append, seeAll_append]
      exact (congrArg (seeAll · _) (copy.see_conversation id event)).trans ih

/-- What is told the sidebar is all that matters. -/
theorem seeAll_eq (copy : Directory) (news : List Announcement) :
    copy.seeAll news = ((sidebarEvents news).map (·.body)).foldl see copy := by
  induction news generalizing copy with
  | nil => rfl
  | cons announcement rest ih =>
      cases announcement with
      | sidebar event => exact ih (copy.see event.body)
      | conversation id event =>
          exact (congrArg (seeAll · rest) (copy.see_conversation id event)).trans (ih copy)

end Directory

/-! ### Changes are announced -/

namespace Coordinator

/-- The directory after a move is what the announcements of the move make of it. -/
theorem directory_perform (s : Coordinator) (m : Move) :
    (s.perform m).directory = s.directory.seeAll (s.news m) := by
  rw [Directory.seeAll_eq]
  cases s.perform_edit m with
  | keeps hdirectory hnews =>
      rw [hdirectory, hnews]
      rfl
  | stores now c hrevises hdirectory hnews =>
      rw [hdirectory, hnews]
      rfl
  | deletes id hmove hdirectory hnews =>
      rw [hdirectory, hnews]
      rfl

theorem directory_performAll (s : Coordinator) (moves : List Move) :
    (s.performAll moves).directory =
      s.directory.seeAll (Hub.announced (hubActionsAll moves s)) := by
  induction moves generalizing s with
  | nil => rfl
  | cons m rest ih =>
      rw [performAll_cons, ih, hubActionsAll, Hub.announced_append, Directory.seeAll_append,
        announced_hubActions, directory_perform]

end Coordinator

/-! ### What is sent on the sidebar -/

namespace Hub

/-- The frames that an action sends to a connection on the sidebar make of a copy what is
    announced. -/
theorem see_addressed (hub : Hub) (h : hub.roster.Orderly) (connection : Nat) (a : Action)
    (hon : hub.roster.IsOn connection .sidebar) (copy : Directory) :
    ((hub.addressed connection a).map (·.body)).foldl Directory.see copy =
      copy.seeAll (announced [a]) := by
  -- Any other frame is the state of a run or an event of a conversation.
  have hother : (∀ name body, a.message? = some (name, body) → copy.see body = copy) →
      ((hub.addressed connection a).map (·.body)).foldl Directory.see copy = copy := by
    intro hbody
    rcases hub.roster.framesFor_act h connection a with hnone | ⟨name, body, hn, -, -, hone⟩
    · rw [addressed, hnone]
      rfl
    · rw [addressed, hone]
      exact hbody name body (hub.roster.message_of_numbered name body a hn)
  -- The copy takes in sidebar events, which nothing but an announcement carries.
  cases a with
  | tell announcement =>
      cases announcement with
      | sidebar event =>
          have hmem := (h.mem_sidebar connection).mpr hon
          have hframes := framesFor_announce hub.roster.sidebar event.body connection
            h.nodup_sidebar
          rw [if_pos hmem] at hframes
          exact congrArg (fun fs => (fs.map (·.body)).foldl Directory.see copy) hframes
      | conversation id event =>
          rw [hother fun name body hmessage => by
            rw [← (Prod.mk.inj (Option.some.inj hmessage)).2, Directory.see_conversation]]
          exact (copy.seeAll_conversation id [event]).symm
  | follow other id active =>
      refine hother fun name body hmessage => ?_
      rcases Option.map_eq_some_iff.mp hmessage with ⟨snapshot, -, hsnapshot⟩
      rw [← (Prod.mk.inj hsnapshot).2]
      rfl
  | _ => rfl

/-- The frames that some actions send to a connection on the sidebar make of a copy what is
    announced. -/
theorem see_addressedAll (connection : Nat) (actions : List Action) (hub : Hub)
    (h : hub.roster.Orderly) (hon : hub.roster.IsOn connection .sidebar)
    (hstay : ∀ a ∈ actions, a ≠ .reset ∧ a ≠ .detach connection) (copy : Directory) :
    ((addressedAll connection actions hub).map (·.body)).foldl Directory.see copy =
      copy.seeAll (announced actions) := by
  induction actions generalizing hub copy with
  | nil => rfl
  | cons a rest ih =>
      have ha := hstay a List.mem_cons_self
      have hrest := ih (hub.act a) (orderly_act h a)
        (by rw [act_roster]; exact hon.act h.toSound a ha.1 ha.2)
        (fun b hb => hstay b (List.mem_cons_of_mem _ hb))
      rw [addressedAll, List.map_append, List.foldl_append, see_addressed hub h connection a hon,
        hrest, ← Directory.seeAll_append, ← announced_append, List.singleton_append]

/-- Nothing waits for anybody. -/
def Silent (hub : Hub) : Prop :=
  ∀ connection m, hub.mailboxes.get? connection = some m → m.items = []

/-- An action that says nothing leaves the mailboxes empty. -/
theorem Silent.act {hub : Hub} (h : hub.Silent) (horderly : hub.roster.Orderly) (a : Action)
    (hmute : a.message? = none) : (hub.act a).Silent := by
  intro connection m hm
  -- The mailbox is new and empty, or nothing is put into it, as the action says nothing.
  by_cases hnew : ∃ capacity, a = .attach capacity ∧ connection = hub.roster.opened
  · rcases hnew with ⟨capacity, rfl, rfl⟩
    rw [attach_mailbox] at hm
    rw [← Option.some.inj hm]
    rfl
  · have hnothing : hub.addressed connection a = [] := by
      rcases hub.roster.framesFor_act horderly connection a with hnone | ⟨name, body, hn, -⟩
      · exact hnone
      · have hsaid := hub.roster.message_of_numbered name body a hn
        exact absurd (hmute.symm.trans hsaid) (by simp)
    rw [act_mailbox_of_ne hub a connection fun capacity ha ho => hnew ⟨capacity, ha, ho⟩,
      hnothing] at hm
    rcases Option.map_eq_some_iff.mp hm with ⟨before, hbefore, rfl⟩
    have hitems := h connection before hbefore
    cases a with
    | close c =>
        simp only [Action.clear, Mailbox.offerAll, List.foldl_nil]
        split
        · rfl
        · exact hitems
    | take c =>
        simp only [Action.clear, Mailbox.offerAll, List.foldl_nil]
        split
        · rw [hitems, List.tail_nil]
        · exact hitems
    | _ => exact hitems

end Hub

/-! ### The whole log -/

namespace Coordinator

/-- Without runs, what connections do on their own says nothing. -/
theorem hubActions_of_connection (s : Coordinator) (m : Move) (hm : m.isOfConnection = true)
    (hidle : ∀ conversation, s.activeRun conversation = none) :
    ∃ a, s.hubActions m = [a] ∧ a.message? = none := by
  cases m with
  | follow connection conversation =>
      refine ⟨_, rfl, ?_⟩
      rw [hidle]
      rfl
  | attach | detach | close | take | followSidebar => exact ⟨_, rfl, rfl⟩
  | _ => exact absurd hm Bool.false_ne_true

/-- Nothing has happened yet but that connections came and went. -/
structure Untouched (s : Coordinator) : Prop where
  directory : s.directory = .fresh
  idle : ∀ conversation, s.activeRun conversation = none
  orderly : s.hub.roster.Orderly
  silent : s.hub.Silent

theorem ofConfig_untouched (config : ServerConfig) (provider : Option Provider) :
    (ofConfig config provider).Untouched where
  directory := rfl
  idle _ := rfl
  orderly := Hub.fresh_orderly
  silent _ _ hm := absurd hm (by simp [ofConfig, Hub.fresh])

theorem Untouched.perform {s : Coordinator} (h : s.Untouched) (m : Move)
    (hm : m.isOfConnection = true) : (s.perform m).Untouched := by
  -- A move of a connection edits nothing and announces nothing.
  rcases s.perform_of_connection m hm with ⟨hub, hperform⟩
  rcases s.hubActions_of_connection m hm h.idle with ⟨a, hactions, hmute⟩
  have hhub := s.perform_hub m
  rw [hactions, Hub.actAll_cons, Hub.actAll_nil] at hhub
  refine ⟨?_, ?_, ?_, ?_⟩
  · rw [hperform]
    exact h.directory
  · rw [hperform]
    exact h.idle
  · rw [hhub]
    exact Hub.orderly_act h.orderly a
  · rw [hhub]
    exact h.silent.act h.orderly a hmute

theorem Untouched.performAll {s : Coordinator} (h : s.Untouched) (moves : List Move)
    (hmoves : ∀ m ∈ moves, m.isOfConnection = true) : (s.performAll moves).Untouched := by
  induction moves generalizing s with
  | nil => exact h
  | cons m rest ih =>
      exact ih (h.perform m (hmoves m List.mem_cons_self))
        fun m hmem => hmoves m (List.mem_cons_of_mem _ hmem)

/-- The copy that a connection makes of what it receives on the sidebar is the directory, summary
    by summary and in every field, after each of the moves. The connection was on the sidebar
    before anything but connections moved, stays there, and its mailbox has room for every
    frame. -/
theorem sidebar_copy_agrees (config : ServerConfig) (provider : Option Provider)
    (before moves : List Move) (connection : Nat)
    (hbefore : ∀ m ∈ before, m.isOfConnection = true)
    (hon : ((ofConfig config provider).performAll before).hub.roster.IsOn connection .sidebar)
    (hstay : ∀ m ∈ moves, m ≠ .detach connection ∧ m ≠ .close connection)
    (hroom : Hub.NeverOverflows connection
      (hubActionsAll moves ((ofConfig config provider).performAll before))
      ((ofConfig config provider).performAll before).hub) :
    let start := (ofConfig config provider).performAll before
    ∀ done, done <+: moves →
      Directory.ofFrames (receivedSince connection done start) =
        (start.performAll done).directory := by
  rintro start done ⟨rest, rfl⟩
  have huntouched : start.Untouched :=
    (ofConfig_untouched config provider).performAll before hbefore
  have hreachable : start.Reachable := ⟨config, provider, before, rfl⟩
  have hstays : ∀ m ∈ done, m ≠ .detach connection ∧ m ≠ .close connection :=
    fun m hm => hstay m (List.mem_append_left _ hm)
  rw [hubActionsAll_append] at hroom
  -- Nothing waited at the start, so that what was received is what was sent.
  have hwaiting : start.hub.waiting connection = [] := by
    rw [Hub.waiting]
    cases hm : start.hub.mailboxes.get? connection with
    | none => rfl
    | some m => exact huntouched.silent connection m hm
  have hreceived := start.receivedSince_eq hreachable connection done hon.isAttached hstays
    hroom.of_append
  have hactions := mem_hubActionsAll connection done start hstays
  rw [hreceived, hwaiting, List.nil_append, Directory.ofFrames, Hub.see_addressedAll connection _
    start.hub huntouched.orderly hon fun a ha => ⟨(hactions a ha).1, (hactions a ha).2.1⟩]
  exact (congrArg (Directory.seeAll · _) huntouched.directory).symm.trans
    (start.directory_performAll done).symm

/-- A connection on the sidebar knows that a run is in flight, and that it has ended. -/
theorem sidebar_knows_run :
    ((Directory.ofFrames (receivedSince 0
      [.create ⟨⟨0, 0⟩, "c"⟩ none "t", .start ⟨⟨1, 0⟩, "i"⟩ "c" none "", .drive 0 0, .take 0,
        .forward 0, .forward 0, .cancel ⟨2, 0⟩ ⟨"c", "i"⟩, .archive ⟨3, 0⟩ "c"]
      ((ofConfig .standard (some halting)).performAll
        [.attach 8, .followSidebar 0, .follow 0 "c"]))).get? "c") =
      some ⟨"c", "t", true, ⟨3, 0⟩, none⟩ :=
  congrArg (·.get? "c") (sidebar_copy_agrees .standard (some halting)
    [.attach 8, .followSidebar 0, .follow 0 "c"] _ 0 (by simp [Move.isOfConnection])
    ⟨_, rfl, rfl⟩ (by simp) (by decide) _ List.prefix_rfl)

end Coordinator

end Switchboard

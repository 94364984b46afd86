import Switchboard.Proofs.Edits
import Switchboard.Proofs.Followers
import Switchboard.Proofs.Hub.Topics

/-!
# The Life of a Run

A run is on the wire from the start that reports it as created to the end that
takes it out of the registry, and at no other time. Its id may be chosen again
later, so that a name has many such lives; what separates them is that a name
that is registered is never created and one that is not is never ended.

That everything announced in between is about a registered run is seen move by
move: a forwarder reports what the registry took in, and whoever ends a run
announces its end only if the registry had it. The other frames that name a run
are the snapshots for those who join and the summaries on the sidebar, and both
are read from stores that agree with the registry. Everything else is counting:
`Coordinator.lives` says that the number of times a run was created and the
number of times it left differ by whether it is there.

## Main definitions

* `Frame.Body.Names`: Whether a frame names a run.
* `Coordinator.createdBy?`: The run that a move reports as created.
* `Coordinator.Removes`: A run leaves the registry with a move.
* `Coordinator.creations`, `Coordinator.removals`, `Coordinator.endings`: How often a run is
  created, leaves, and is announced to be over.

## Theorems

* `Coordinator.createdBy?_iff`: A run comes into the registry when it is reported as created.
* `Coordinator.newsOn_removes`, `Coordinator.removes_of_turnFinal`: A run that leaves is announced
  to be over, and no other one is.
* `Coordinator.lives`: Lives of a run are begun and ended in turn.
* `Coordinator.named_cases`: A frame names a run only if it is announced of it or the run is there.
* `Coordinator.run_lifespan`: What this means after every course of events.
-/

namespace Switchboard

/-- Whether a frame names a run. A summary names the run that is active by it. -/
def Frame.Body.Names (key : RunKey) : Frame.Body → Prop
  | .snapshot s => s.key = key
  | .delta k _ => k = key
  | .toolState k _ => k = key
  | .turnFinal k _ => k = key
  | .conversationUpsert c => c.id = key.conversation ∧ c.activeRun = some key.run
  | _ => False

theorem ConversationEvent.names_body (conversation : String) (event : ConversationEvent)
    (key : RunKey) : (event.body conversation).Names key ↔ event.key conversation = key := by
  cases event <;> rfl

/-- Whether an event is the end of a run. -/
def ConversationEvent.ends (run : String) : ConversationEvent → Bool
  | .turnFinal r _ => decide (r = run)
  | _ => false

/-- A run that goes on does not report an end. -/
theorem Run.report_ends {κ : Type} (most : Nat) (key : RunKey) (run : Run κ)
    (h : RunTask.Handover) (event : ConversationEvent) (he : event ∈ run.report most key h)
    (other : String) : event.ends other = false := by
  obtain ⟨_, rfl⟩ | ⟨_, rfl⟩ | ⟨_, rfl⟩ := mem_report he <;> rfl

namespace Coordinator

instance decidableIsRegistered (s : Coordinator) (key : RunKey) : Decidable (s.IsRegistered key) :=
  inferInstanceAs (Decidable ((s.registry.runs.get? key).isSome = true))

/-- The run that a move reports as created. -/
def createdBy? (s : Coordinator) : Move → Option RunKey
  | .start occasion conversation run prompt =>
    match (s.startRun occasion conversation run prompt).1 with
    | .ok (.created snapshot) => some snapshot.key
    | _ => none
  | _ => none

/-- Whether a run leaves the registry with a move. -/
def Removes (s : Coordinator) (key : RunKey) (m : Move) : Prop :=
  s.IsRegistered key ∧ ¬(s.perform m).IsRegistered key

instance decidableRemoves (s : Coordinator) (key : RunKey) (m : Move) :
    Decidable (s.Removes key m) :=
  inferInstanceAs (Decidable (_ ∧ ¬_))

/-! ### Coming into the registry -/

/-- A run that a start reports as created is registered then, and was not before. -/
theorem createdBy?_start (s : Coordinator) (occasion : Occasion) (conversation : String)
    (run : Option String) (prompt : String) (key : RunKey) :
    s.createdBy? (.start occasion conversation run prompt) = some key ↔
      ¬s.IsRegistered key ∧
        (s.perform (.start occasion conversation run prompt)).IsRegistered key := by
  rcases startRun_cases s occasion conversation run prompt with
    ⟨e, h⟩ | ⟨snapshot, -, h⟩ | ⟨provider, c, -, -, -, hnew, -, h⟩
  -- A run that is refused or found changes nothing.
  · simp only [createdBy?, perform, h, reduceCtorEq, false_iff]
    exact fun hp => hp.1 hp.2
  · simp only [createdBy?, perform, h, reduceCtorEq, false_iff]
    exact fun hp => hp.1 hp.2
  · have hruns : ∀ other, (s.started occasion.now ⟨conversation, run.getD occasion.freshId⟩ prompt
        provider).registry.runs.get? other =
        if other = ⟨conversation, run.getD occasion.freshId⟩ then
          some (.start occasion.now (some (.task s.launched)))
        else s.registry.runs.get? other := fun other => Table.get?_insert ..
    simp only [createdBy?, perform, h, Run.snapshot, IsRegistered, hruns, Option.some.injEq]
    constructor
    · rintro rfl
      rw [hnew, if_pos rfl]
      exact ⟨Bool.false_ne_true, rfl⟩
    · rintro ⟨hbefore, hafter⟩
      by_contra hne
      rw [if_neg fun e => hne e.symm] at hafter
      exact hbefore hafter

/-- A run comes into the registry when it is reported as created, and in no other way. -/
theorem createdBy?_iff (s : Coordinator) (m : Move) (key : RunKey) :
    s.createdBy? m = some key ↔ ¬s.IsRegistered key ∧ (s.perform m).IsRegistered key := by
  by_cases hstart : ∃ occasion conversation run prompt, m = .start occasion conversation run prompt
  · rcases hstart with ⟨occasion, conversation, run, prompt, rfl⟩
    exact s.createdBy?_start occasion conversation run prompt key
  · have hnone : s.createdBy? m = none := by
      cases m with
      | start occasion conversation run prompt => exact absurd ⟨_, _, _, _, rfl⟩ hstart
      | _ => rfl
    rw [hnone]
    simp only [reduceCtorEq, false_iff, not_and]
    intro hbefore
    -- Only a start tells the registry of a run.
    cases s.perform_change m with
    | starts now other prompt provider hnew hfree hperform hnews hmove =>
        rcases hmove with ⟨occasion, run, hm⟩
        exact absurd ⟨occasion, _, run, prompt, hm⟩ hstart
    | aside locks hub directory provider hperform hnews =>
        rw [hperform]
        exact hbefore
    | drives task t t' tasks hmove ht htasks hperform hnews =>
        rw [hperform]
        exact hbefore
    | cancels now other run hmove hrun hperform hnews =>
        rw [hperform, IsRegistered, cancelled, Registry.get?_without]
        split
        · exact Bool.false_ne_true
        · exact hbefore
    | forwards task t t' handover registry hub hmove ht hforward hmost hruns hperform hnews =>
        rw [hperform, IsRegistered, hruns]
        split
        · rw [Option.isSome_map]
          exact hbefore
        · exact hbefore
    | finishes now task t status hmove ht hdrained hstatus hperform hnews =>
        rw [hperform, IsRegistered, finished, Registry.get?_leave]
        split
        · exact Bool.false_ne_true
        · exact hbefore

/-! ### Leaving the registry -/

/-- A run that leaves is announced to be over, once and with nothing else: as cancelled if it was
    cancelled, and otherwise as the task ended whose end took it away. -/
theorem newsOn_removes (s : Coordinator) (m : Move) (key : RunKey) (h : s.Removes key m) :
    ∃ status, newsOn key.conversation s m = [.turnFinal key.run status] ∧
      ((∃ now, m = .cancel now key ∧ (s.cancelRun now key).1 = true ∧ status = .cancelled) ∨
        ∃ now task t, m = .finish now task ∧ s.tasks.get? task = some t ∧ t.key = key ∧
          t.drained = true ∧ t.status? = some status) := by
  -- The removal itself announces the end of the run.
  rcases h with ⟨hbefore, hafter⟩
  unfold IsRegistered at hbefore hafter
  cases s.perform_effect m with
  | leaves other run status hmove hrun hruns hnews =>
      rw [hruns] at hafter
      by_cases ho : key = other
      · subst ho
        refine ⟨status, by rw [hnews, if_pos rfl], ?_⟩
        rcases hmove with ⟨now, hm, hstatus⟩ | hfinish
        · exact Or.inl ⟨now, hm, by rw [cancelRun_eq s now key run hrun], hstatus⟩
        · exact Or.inr hfinish
      · rw [if_neg ho] at hafter
        exact absurd hbefore hafter
  -- With any other move the runs that are registered stay registered.
  | idle hruns hnews =>
      rw [hruns] at hafter
      exact absurd hbefore hafter
  | begins now other callback hnew hfree hruns hnews =>
      rw [hruns] at hafter
      split at hafter
      · exact absurd rfl hafter
      · exact absurd hbefore hafter
  | goesOn task t t' handover run hmove ht hforward hrun hruns hnews =>
      rw [hruns] at hafter
      split at hafter
      · exact absurd rfl hafter
      · exact absurd hbefore hafter

/-- Whatever is announced on a conversation is the end of a run that leaves, or is about a run
    that is registered and stays registered. -/
theorem newsOn_cases (s : Coordinator) (m : Move) (conversation : String)
    (event : ConversationEvent) (he : event ∈ newsOn conversation s m) :
    (∃ run status, event = .turnFinal run status ∧ s.Removes ⟨conversation, run⟩ m) ∨
      (∀ run, event.ends run = false) ∧ s.IsRegistered (event.key conversation) ∧
        (s.perform m).IsRegistered (event.key conversation) := by
  -- What is told of a run comes from a handover of its task or from its removal.
  cases s.perform_effect m with
  | idle hruns hnews =>
      rw [hnews] at he
      exact absurd he List.not_mem_nil
  | begins now key callback hnew hfree hruns hnews =>
      rw [hnews] at he
      exact absurd he List.not_mem_nil
  | goesOn task t t' handover run hmove ht hforward hrun hruns hnews =>
      rw [hnews] at he
      by_cases hc : t.key.conversation = conversation
      · rw [if_pos hc] at he
        have hkey := Run.report_key _ _ _ _ event he
        rw [hc] at hkey
        refine Or.inr ⟨Run.report_ends _ _ _ _ event he, ?_, ?_⟩
        · rw [hkey, IsRegistered, hrun, Option.isSome_some]
        · rw [hkey, IsRegistered, hruns, if_pos rfl, Option.isSome_some]
      · rw [if_neg hc] at he
        exact absurd he List.not_mem_nil
  | leaves key run status hmove hrun hruns hnews =>
      rw [hnews] at he
      by_cases hc : key.conversation = conversation
      · rw [if_pos hc, List.mem_singleton] at he
        have hkey : (⟨conversation, key.run⟩ : RunKey) = key := RunKey.ext hc.symm rfl
        refine Or.inl ⟨key.run, status, he, ?_⟩
        rw [hkey, Removes, IsRegistered, hrun, IsRegistered, hruns, if_pos rfl]
        exact ⟨rfl, Bool.false_ne_true⟩
      · rw [if_neg hc] at he
        exact absurd he List.not_mem_nil

/-! ### Counting -/

/-- How often a run is reported as created. -/
def creations (key : RunKey) : List Move → Coordinator → Nat
  | [], _ => 0
  | m :: rest, s =>
    (if s.createdBy? m = some key then 1 else 0) + creations key rest (s.perform m)

/-- How often a run leaves the registry. -/
def removals (key : RunKey) : List Move → Coordinator → Nat
  | [], _ => 0
  | m :: rest, s => (if s.Removes key m then 1 else 0) + removals key rest (s.perform m)

/-- How often a run is announced to be over. -/
def endings (key : RunKey) (moves : List Move) (s : Coordinator) : Nat :=
  (newsOnAll key.conversation moves s).countP (·.ends key.run)

/-- The number of registered runs of a name. -/
def present (s : Coordinator) (key : RunKey) : Nat :=
  if s.IsRegistered key then 1 else 0

theorem lives_step (s : Coordinator) (m : Move) (key : RunKey) :
    s.present key + (if s.createdBy? m = some key then 1 else 0) =
      (if s.Removes key m then 1 else 0) + (s.perform m).present key := by
  simp only [present, createdBy?_iff, Removes]
  by_cases hbefore : s.IsRegistered key <;> by_cases hafter : (s.perform m).IsRegistered key <;>
    simp [hbefore, hafter]

/-- Lives of a run are begun and ended in turn: what was there and what was created is what left
    and what is there now. -/
theorem lives (key : RunKey) (moves : List Move) (s : Coordinator) :
    s.present key + creations key moves s =
      removals key moves s + (s.performAll moves).present key := by
  induction moves generalizing s with
  | nil =>
      simp only [creations, removals, performAll_nil]
      omega
  | cons m rest ih =>
      have hstep := s.lives_step m key
      have hrest := ih (s.perform m)
      simp only [creations, removals, performAll_cons]
      omega

theorem endings_step (s : Coordinator) (m : Move) (key : RunKey) :
    (newsOn key.conversation s m).countP (·.ends key.run) =
      if s.Removes key m then 1 else 0 := by
  by_cases h : s.Removes key m
  · rcases s.newsOn_removes m key h with ⟨status, hnews, -⟩
    rw [if_pos h, hnews]
    simp [ConversationEvent.ends]
  · rw [if_neg h, List.countP_eq_zero]
    intro event he
    rcases s.newsOn_cases m key.conversation event he with ⟨run, status, rfl, hleaves⟩ | ⟨hno, -, -⟩
    -- An end is announced of runs that leave only.
    · rw [ConversationEvent.ends, decide_eq_true_eq]
      rintro rfl
      exact h hleaves
    · rw [hno]
      exact Bool.false_ne_true

/-- A run is announced to be over as often as it leaves. -/
theorem endings_eq (key : RunKey) (moves : List Move) (s : Coordinator) :
    endings key moves s = removals key moves s := by
  induction moves generalizing s with
  | nil => rfl
  | cons m rest ih =>
      have hrest := ih (s.perform m)
      rw [endings] at hrest
      rw [endings, newsOnAll, List.countP_append, endings_step, hrest, removals]

/-! ### Frames that name a run -/

end Coordinator

/-- Whatever is addressed to a connection was said by one of the actions. -/
theorem Hub.message_of_addressedAll (connection : Nat) (actions : List Action) (hub : Hub)
    (h : hub.roster.Orderly) (f : Frame) (hf : f ∈ addressedAll connection actions hub) :
    ∃ a ∈ actions, ∃ name, a.message? = some (name, f.body) := by
  -- The induction is on the actions, with the hub as each of them finds it.
  induction actions generalizing hub with
  | nil => exact absurd hf List.not_mem_nil
  | cons a rest ih =>
      rcases List.mem_append.mp hf with hnow | hlater
      · rcases Roster.framesFor_act h connection a with hnone | ⟨name, body, hn, -, -, hone⟩
        · rw [addressed, hnone] at hnow
          exact absurd hnow List.not_mem_nil
        · rw [addressed, hone, List.mem_singleton] at hnow
          refine ⟨a, List.mem_cons_self, name, ?_⟩
          rw [hnow]
          exact Roster.message_of_numbered _ _ _ _ hn
      · rcases ih (hub.act a) (by rw [act_roster]; exact h.act a) hlater with ⟨b, hb, hmessage⟩
        exact ⟨b, List.mem_cons_of_mem _ hb, hmessage⟩

/-- A follower is sent what is told on its conversation, and nobody else is sent anything of it. -/
theorem Hub.bodiesOn_told (connection : Nat) (conversation : String) (news : List Announcement)
    (hub : Hub) (h : hub.roster.Sound) (hwell : ∀ a ∈ news, a.WellAddressed) :
    (hub.roster.Follows connection conversation →
      bodiesOn conversation (addressedAll connection (news.map .tell) hub) =
        (eventsOn conversation news).map (·.body conversation)) ∧
    (¬hub.roster.Follows connection conversation →
      bodiesOn conversation (addressedAll connection (news.map .tell) hub) = []) := by
  have hwell' : ∀ a ∈ news.map Action.tell, a.WellAddressed := by
    intro a ha
    rcases List.mem_map.mp ha with ⟨announcement, hmem, rfl⟩
    exact hwell announcement hmem
  constructor
  -- A follower is told everything of the conversation, as nothing told ends a follow.
  · intro hf
    rw [bodiesOn_addressedAll connection conversation _ hub h hf hwell', announced_tell]
    intro a ha
    rcases List.mem_map.mp ha with ⟨announcement, -, rfl⟩
    exact ⟨by simp, by simp⟩
  · intro hnot
    clear hwell
    induction news generalizing hub with
    | nil => rfl
    | cons announcement rest ih =>
        have hfirst := bodiesOn_addressed_stranger hub h connection conversation
          (.tell announcement) (hwell' _ List.mem_cons_self) hnot (fun _ => by simp)
        -- Nobody joins because something is told.
        have hstill : ¬(hub.act (.tell announcement)).roster.Follows connection conversation := by
          rw [act_roster]
          cases announcement with
          | sidebar event => exact hnot
          | conversation id event =>
              simp only [Roster.act, Roster.publish?]
              cases hub.roster.topics.get? id <;> exact hnot
        have hrest := ih (hub.act (.tell announcement)) (by rw [act_roster]; exact h.act _)
          (fun a ha => hwell' a (List.mem_cons_of_mem _ ha)) hstill
        rw [List.map_cons, addressedAll, bodiesOn_append, hfirst, hrest, List.append_nil]

namespace Coordinator

/-- A summary that is announced is the one that is stored. -/
theorem upsert_listed (s : Coordinator) (m : Move) (c : Conversation)
    (h : .sidebar (.upsert c) ∈ s.news m) : (s.perform m).directory.get? c.id = some c := by
  -- A sidebar event is told only by a move that edits the directory, and carries the record it
  -- stored.
  rw [← mem_sidebarEvents] at h
  cases s.perform_edit m with
  | keeps hdirectory hnews =>
      rw [hnews] at h
      exact absurd h List.not_mem_nil
  | stores now stored hrevises hdirectory hnews =>
      rw [hnews, List.mem_singleton, SidebarEvent.upsert.injEq] at h
      rw [hdirectory, h]
      exact (Directory.upsert_get? ..).trans (if_pos rfl)
  | deletes id hmove hdirectory hnews =>
      rw [hnews, List.mem_singleton] at h
      exact absurd h (by simp)

/-- A frame of a move that names a run was announced on the conversation of the run, or the run
    is registered after the move. -/
theorem named_cases {s : Coordinator} (hs : s.Coherent) (m : Move) (key : RunKey)
    (a : Hub.Action) (ha : a ∈ s.hubActions m) (name : TopicName) (body : Frame.Body)
    (hmessage : a.message? = some (name, body)) (hnames : body.Names key) :
    (∃ event, event ∈ newsOn key.conversation s m ∧ event.key key.conversation = key ∧
      body = event.body key.conversation) ∨ (s.perform m).IsRegistered key := by
  rcases mem_hubActions ha with ⟨announcement, hnews, rfl⟩ | halone
  -- What is told is told as news.
  · cases announcement with
    | conversation id event =>
        obtain ⟨-, rfl⟩ := Prod.mk.inj (Option.some.inj hmessage)
        have hkey := (event.names_body id key).mp hnames
        have hwell : (event.key id).conversation = id := s.news_wellAddressed m _ hnews
        obtain rfl : key.conversation = id := hkey ▸ hwell
        exact Or.inl ⟨event, List.mem_filterMap.mpr ⟨_, hnews, if_pos rfl⟩, hkey, rfl⟩
    | sidebar event =>
        obtain ⟨-, rfl⟩ := Prod.mk.inj (Option.some.inj hmessage)
        cases event with
        | delete id => exact absurd hnames (by simp [SidebarEvent.body, Frame.Body.Names])
        | upsert c =>
            rcases hnames with ⟨hid, hrun⟩
            have hlisted := s.upsert_listed m c hnews
            -- The summary names the run, so that the run is registered.
            refine Or.inr (((hs.perform m).registered_iff key).mpr ?_)
            rw [Directory.active?, ← hid, hlisted, Option.bind_some, hrun]
  -- A connection that acts alone is told nothing, but for the snapshot that greets a new follower.
  · cases halone with
    | follow connection conversation =>
        cases hactive : s.activeRun conversation with
        | none =>
            rw [hactive] at hmessage
            exact absurd hmessage (by simp [Hub.Action.message?])
        | some snapshot =>
            rw [hactive] at hmessage
            obtain ⟨-, rfl⟩ := Prod.mk.inj (Option.some.inj hmessage)
            rcases s.registry.newest_mem conversation snapshot hactive with
              ⟨other, run, hrun, rfl, -⟩
            have hkey : other = key := hnames
            rw [IsRegistered, registry_follow, ← hkey, hrun]
            exact Or.inr rfl
    | _ => exact absurd hmessage (by simp [Hub.Action.message?])

/-- Whatever is announced of a run is announced while it is registered. -/
theorem registered_of_news (s : Coordinator) (m : Move) (key : RunKey) (event : ConversationEvent)
    (he : event ∈ newsOn key.conversation s m) (hkey : event.key key.conversation = key) :
    s.IsRegistered key := by
  rcases s.newsOn_cases m key.conversation event he with ⟨run, status, rfl, hleaves⟩ | ⟨-, hreg, -⟩
  · exact hkey ▸ hleaves.1
  · exact hkey ▸ hreg

/-- While a run is not registered and not created no frame names it. -/
theorem unnamed_while_gone (key : RunKey) (moves : List Move) (s : Coordinator)
    (hs : s.Coherent) (hhub : s.hub.roster.Orderly) (hgone : ¬s.IsRegistered key)
    (hnone : creations key moves s = 0) (connection : Nat) (f : Frame)
    (hf : f ∈ Hub.addressedAll connection (hubActionsAll moves s) s.hub) : ¬f.body.Names key := by
  -- The induction is on the moves: while the run is away no move names it, and none brings it back.
  induction moves generalizing s with
  | nil => exact absurd hf List.not_mem_nil
  | cons m rest ih =>
      rw [creations] at hnone
      have hgone' : ¬(s.perform m).IsRegistered key := by
        intro hafter
        rw [if_pos ((s.createdBy?_iff m key).mpr ⟨hgone, hafter⟩)] at hnone
        omega
      have hhub' := Hub.orderly_actAll hhub (s.hubActions m)
      rw [hubActionsAll, Hub.addressedAll_append, List.mem_append] at hf
      rcases hf with hnow | hlater
      · intro hnames
        rcases Hub.message_of_addressedAll connection _ s.hub hhub f hnow with
          ⟨a, ha, name, hmessage⟩
        rcases named_cases hs m key a ha name f.body hmessage hnames with
          ⟨event, he, hkey, -⟩ | hafter
        · exact hgone (s.registered_of_news m key event he hkey)
        · exact hgone' hafter
      · rw [← perform_hub] at hhub' hlater
        exact ih (s.perform m) (hs.perform m) hhub' hgone' (by omega) hlater

/-- After every course of events, whatever move comes next: a run comes into the registry when it
    is reported as created and in no other way; when it leaves, its followers are sent one
    `turn_final`, with the status of what took it away, and nobody is sent anything else that
    names it; such a frame is
    announced of no run that does not leave; and everything else that is announced of a run is
    announced while it is registered. Whatever moves come next: a run leaves at most once for
    every time it was created, it is announced to be over as often as it leaves, and as long as
    it is not registered and not created again nobody is sent a frame that names it. -/
theorem run_lifespan (config : ServerConfig) (provider : Option Provider) (moves : List Move)
    (key : RunKey) :
    let s := (ofConfig config provider).performAll moves
    (∀ m, s.createdBy? m = some key ↔
      ¬s.IsRegistered key ∧ (s.perform m).IsRegistered key) ∧
    (∀ m, s.Removes key m → ∃ status,
      newsOn key.conversation s m = [.turnFinal key.run status] ∧
      ((∃ now, m = .cancel now key ∧ (s.cancelRun now key).1 = true ∧ status = .cancelled) ∨
        ∃ now task t, m = .finish now task ∧ s.tasks.get? task = some t ∧ t.key = key ∧
          t.drained = true ∧ t.status? = some status) ∧
      ∀ connection,
        (s.hub.roster.Follows connection key.conversation →
          bodiesOn key.conversation (Hub.addressedAll connection (s.hubActions m) s.hub) =
            [.turnFinal key status]) ∧
        (¬s.hub.roster.Follows connection key.conversation →
          bodiesOn key.conversation (Hub.addressedAll connection (s.hubActions m) s.hub) = []) ∧
        ∀ f ∈ Hub.addressedAll connection (s.hubActions m) s.hub,
          f.body.Names key → f.body = .turnFinal key status) ∧
    (∀ m status, .turnFinal key.run status ∈ newsOn key.conversation s m → s.Removes key m) ∧
    (∀ m event, event ∈ newsOn key.conversation s m → event.key key.conversation = key →
      (∃ status, event = .turnFinal key.run status) ∨
        s.IsRegistered key ∧ (s.perform m).IsRegistered key) ∧
    ∀ later,
      s.present key + creations key later s =
        removals key later s + (s.performAll later).present key ∧
      endings key later s = removals key later s ∧
      (¬s.IsRegistered key → creations key later s = 0 → ∀ connection,
        ∀ f ∈ Hub.addressedAll connection (hubActionsAll later s) s.hub, ¬f.body.Names key) := by
  intro s
  have hs : s.Coherent := coherent_performAll config provider moves
  have hreachable : s.Reachable := ⟨config, provider, moves, rfl⟩
  have hhub : s.hub.roster.Orderly := by
    rw [performAll_hub]
    exact Hub.orderly_actAll Hub.fresh_orderly _
  refine ⟨fun m => s.createdBy?_iff m key, ?_, ?_, ?_, ?_⟩
  -- The removal: one event, and the frames of the move are those of that event.
  · intro m hleaves
    rcases s.newsOn_removes m key hleaves with ⟨status, hnews, hcause⟩
    refine ⟨status, hnews, hcause, fun connection => ?_⟩
    have hactions : s.hubActions m = (s.news m).map .tell := by
      rcases hcause with ⟨now, rfl, -⟩ | ⟨now, task, t, rfl, -⟩ <;> rfl
    have htold := Hub.bodiesOn_told connection key.conversation (s.news m) s.hub
      hreachable.hub_sound.roster (s.news_wellAddressed m)
    rw [newsOn] at hnews
    rw [hnews, ← hactions] at htold
    refine ⟨htold.1, htold.2, fun f hf hnames => ?_⟩
    rcases Hub.message_of_addressedAll connection _ s.hub hhub f hf with ⟨a, ha, name, hmessage⟩
    rcases named_cases hs m key a ha name f.body hmessage hnames with ⟨event, he, -, hbody⟩ | hafter
    · rw [newsOn, hnews, List.mem_singleton] at he
      rw [hbody, he]
      rfl
    · exact absurd hafter hleaves.2
  -- An event that ends the run can only come from its removal.
  · intro m status hmem
    rcases s.newsOn_cases m key.conversation _ hmem with ⟨run, status', he, hleaves⟩ | ⟨hno, -, -⟩
    · obtain ⟨rfl, -⟩ := ConversationEvent.turnFinal.inj he
      exact hleaves
    · exact absurd (hno key.run) (by simp [ConversationEvent.ends])
  -- Any other event needs the run on both sides of the move.
  · intro m event hmem hkey
    rcases s.newsOn_cases m key.conversation event hmem with
      ⟨run, status, rfl, hleaves⟩ | ⟨-, hbefore, hafter⟩
    · have hrun : run = key.run := congrArg RunKey.run hkey
      exact Or.inl ⟨status, by rw [hrun]⟩
    · rw [hkey] at hbefore hafter
      exact Or.inr ⟨hbefore, hafter⟩
  · intro later
    exact ⟨lives key later s, endings_eq key later s,
      fun hgone hnone connection f hf =>
        unnamed_while_gone key later s hs hhub hgone hnone connection f hf⟩

end Coordinator

end Switchboard

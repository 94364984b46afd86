import Switchboard.Proofs.Effects
import Switchboard.Proofs.Hub.Received
import Switchboard.Proofs.Ownership

/-!
# Followers of the Coordinator

What a connection receives about a conversation it joined, however the
operations, the steps of the tasks and the other connections are interleaved:
the state of the run that was active when it joined, and then everything that
was announced on the conversation, once and in order.

That a change can neither fall between the two nor be in both is due to the
state and its announcement being one step. Here this is the equation
`Coordinator.announced_hubActions`, by which a move announces to the hub exactly its news.

## Main definitions

* `Coordinator.receivedSince`: The frames a connection took out or still has waiting.

## Theorems

* `Registry.newest_mem`, `Registry.newest_none`: The newest run of a conversation is one of its
  runs, if it has any.
* `Coordinator.news_wellAddressed`: What is announced on a conversation is about its runs.
* `Coordinator.Reachable.hub_sound`: The hub is in order after every course of events.
* `Coordinator.bodiesOn_follower`: What a connection receives about a conversation it follows.
* `Coordinator.bodiesOn_received`: What a connection receives about a conversation it joined.
-/

namespace Switchboard

/-! ### The newest run -/

namespace Registry

variable {κ : Type}

/-- The better one of what was found so far and another snapshot. -/
theorem newest_fold (ss : List Snapshot) (best : Option Snapshot) :
    ∀ found, ss.foldl (fun best s => some (match best with
        | some b => later b s
        | none => s)) best = some found → found ∈ ss ∨ best = some found := by
  -- The induction is on the snapshots that are still to be compared.
  induction ss generalizing best with
  | nil => exact fun found h => Or.inr h
  | cons s rest ih =>
      intro found h
      rcases ih _ found h with hmem | hbest
      · exact Or.inl (List.mem_cons_of_mem _ hmem)
      · cases best with
        | none => exact Or.inl (List.mem_cons.mpr (Or.inl (Option.some.inj hbest).symm))
        | some b =>
            simp only [later, Option.some.injEq] at hbest
            by_cases hb : s.startedAt.before b.startedAt = true
            · rw [if_pos hb] at hbest
              exact Or.inr (congrArg some hbest)
            · rw [if_neg hb] at hbest
              exact Or.inl (List.mem_cons.mpr (Or.inl hbest.symm))

theorem newest_fold_some (ss : List Snapshot) (b : Snapshot) :
    (ss.foldl (fun best s => some (match best with
        | some b => later b s
        | none => s)) (some b)).isSome := by
  induction ss generalizing b with
  | nil => rfl
  | cons s rest ih => exact ih (later b s)

theorem mem_snapshots (r : Registry κ) (s : Snapshot) :
    s ∈ r.snapshots ↔ ∃ key run, r.runs.get? key = some run ∧ run.snapshot key = s := by
  simp only [snapshots, List.mem_map, Prod.exists, Table.mem_entries]

/-- The newest run of a conversation is one of its runs. -/
theorem newest_mem (r : Registry κ) (conversation : String) (s : Snapshot)
    (h : r.newest conversation = some s) :
    ∃ key run, r.runs.get? key = some run ∧ run.snapshot key = s ∧
      key.conversation = conversation := by
  rcases newest_fold _ none s h with hmem | hnone
  · rw [List.mem_filter, mem_snapshots] at hmem
    rcases hmem with ⟨⟨key, run, hrun, rfl⟩, hc⟩
    exact ⟨key, run, hrun, rfl, of_decide_eq_true hc⟩
  · exact absurd hnone (by simp)

/-- A conversation without a newest run has none. -/
theorem newest_none (r : Registry κ) (key : RunKey)
    (h : r.newest key.conversation = none) : r.runs.get? key = none := by
  cases hrun : r.runs.get? key with
  | none => rfl
  | some run =>
      have hmem : run.snapshot key ∈
          r.snapshots.filter fun s => s.key.conversation = key.conversation := by
        rw [List.mem_filter, mem_snapshots]
        exact ⟨⟨key, run, hrun, rfl⟩, by simp [Run.snapshot]⟩
      rw [newest] at h
      -- A run of the conversation is among those that are compared, so that one is found.
      cases hss : r.snapshots.filter fun s => s.key.conversation = key.conversation with
      | nil =>
          rw [hss] at hmem
          exact absurd hmem List.not_mem_nil
      | cons s rest =>
          rw [hss, List.foldl_cons] at h
          have hsome := newest_fold_some rest s
          exact absurd ((congrArg Option.isSome h).symm.trans hsome) (by simp)

end Registry

/-- Whatever a run reports names it. -/
theorem Run.report_key {κ : Type} (most : Nat) (key : RunKey) (run : Run κ)
    (h : RunTask.Handover) (event : ConversationEvent) (he : event ∈ run.report most key h) :
    event.key key.conversation = key := by
  -- A run names itself in everything that it reports.
  obtain ⟨_, rfl⟩ | ⟨_, rfl⟩ | ⟨_, rfl⟩ := mem_report he <;> rfl

namespace Coordinator

/-! ### Announcements and the hub -/

theorem markNews_wellAddressed (d : Directory) (now : Timestamp) (conversation : String)
    (run : Option String) : ∀ a ∈ d.markNews now conversation run, a.WellAddressed := by
  intro a ha
  unfold Directory.markNews at ha
  cases hc : d.get? conversation with
  | none =>
      rw [hc] at ha
      exact absurd ha List.not_mem_nil
  | some c =>
      -- A summary is told the sidebar, where any conversation is in place.
      simp only [hc] at ha
      by_cases hr : c.activeRun = run
      · rw [if_pos hr] at ha
        exact absurd ha List.not_mem_nil
      · rw [if_neg hr, List.mem_singleton] at ha
        rw [ha]
        trivial

theorem endNews_wellAddressed (s : Coordinator) (now : Timestamp) (key : RunKey)
    (status : FinalStatus) : ∀ a ∈ s.endNews now key status, a.WellAddressed := by
  intro a ha
  rw [endNews, List.mem_append] at ha
  -- The end of a run is told its own conversation.
  rcases ha with ha | ha
  · by_cases hr : s.registry.runs.contains key = true
    · rw [if_pos hr, List.mem_singleton] at ha
      rw [ha]
      rfl
    · rw [if_neg hr] at ha
      exact absurd ha List.not_mem_nil
  · unfold Directory.unmarkNews at ha
    split at ha
    · exact markNews_wellAddressed _ _ _ _ a ha
    · exact absurd ha List.not_mem_nil

/-- What is announced on a conversation is about its runs. -/
theorem news_wellAddressed (s : Coordinator) (m : Move) : ∀ a ∈ s.news m, a.WellAddressed := by
  intro a ha
  -- The sidebar may hear of anything.
  cases m with
  | create occasion id title =>
      rw [news, List.mem_singleton] at ha
      rw [ha]
      trivial
  | archive now id =>
      simp only [news] at ha
      split at ha
      · rw [List.mem_singleton] at ha
        rw [ha]
        trivial
      · exact absurd ha List.not_mem_nil
  | delete id =>
      simp only [news] at ha
      split at ha
      · rw [List.mem_singleton] at ha
        rw [ha]
        trivial
      · exact absurd ha List.not_mem_nil
  | start occasion conversation run prompt =>
      simp only [news] at ha
      split at ha
      · exact markNews_wellAddressed _ _ _ _ a ha
      · exact absurd ha List.not_mem_nil
  | cancel now key =>
      simp only [news] at ha
      split at ha
      · exact endNews_wellAddressed s now key _ a ha
      · exact absurd ha List.not_mem_nil
  | forward task =>
      simp only [news, forwardNews] at ha
      split at ha
      · exact absurd ha List.not_mem_nil
      · split at ha
        · next t ht h t' run hf hrun =>
            rcases List.mem_map.mp ha with ⟨event, hevent, rfl⟩
            rw [Announcement.WellAddressed, Run.report_key _ _ _ _ event hevent]
        · exact absurd ha List.not_mem_nil
  | finish now task =>
      simp only [news, finishNews] at ha
      split at ha
      · exact absurd ha List.not_mem_nil
      · split at ha
        · exact endNews_wellAddressed s now _ _ a ha
        · exact absurd ha List.not_mem_nil
  | _ => exact absurd ha List.not_mem_nil

/-- A move announces to the hub exactly its news. -/
theorem announced_hubActions (s : Coordinator) (m : Move) :
    Hub.announced (s.hubActions m) = s.news m := by
  cases m with
  | attach | detach | close | take | followSidebar | follow => rfl
  | _ => exact Hub.announced_tell _

theorem eventsOn_announced (conversation : String) (moves : List Move) (s : Coordinator) :
    eventsOn conversation (Hub.announced (hubActionsAll moves s)) =
      newsOnAll conversation moves s := by
  induction moves generalizing s with
  | nil => rfl
  | cons m rest ih =>
      rw [hubActionsAll, Hub.announced_append, eventsOn_append, announced_hubActions, ih,
        newsOnAll, newsOn]

theorem hubActions_wellAddressed (s : Coordinator) (m : Move) :
    ∀ a ∈ s.hubActions m, a.WellAddressed := by
  intro a ha
  rcases mem_hubActions ha with ⟨announcement, hmem, rfl⟩ | halone
  · exact s.news_wellAddressed m announcement hmem
  · cases halone with
    | follow connection conversation =>
        -- The snapshot that is sent to whoever joins is of the newest run of the conversation.
        intro snapshot hs
        rcases s.registry.newest_mem conversation snapshot hs with ⟨key, run, -, rfl, hc⟩
        exact hc
    | _ => trivial

theorem hubActionsAll_wellAddressed (moves : List Move) (s : Coordinator) :
    ∀ a ∈ hubActionsAll moves s, a.WellAddressed := by
  induction moves generalizing s with
  | nil => exact fun a ha => absurd ha List.not_mem_nil
  | cons m rest ih =>
      intro a ha
      rcases List.mem_append.mp ha with hm | hr
      · exact s.hubActions_wellAddressed m a hm
      · exact ih (s.perform m) a hr

/-- The hub is in order after every course of events. -/
theorem Reachable.hub_sound {s : Coordinator} (h : s.Reachable) : s.hub.Sound := by
  rcases h with ⟨config, provider, moves, rfl⟩
  rw [performAll_hub]
  exact Hub.fresh_sound.actAll _ (hubActionsAll_wellAddressed moves _)

/-- A connection stays and is read from as long as no move says otherwise. -/
theorem mem_hubActionsAll (connection : Nat) (moves : List Move) (s : Coordinator)
    (hstay : ∀ m ∈ moves, m ≠ .detach connection ∧ m ≠ .close connection) :
    ∀ a ∈ hubActionsAll moves s,
      a ≠ .reset ∧ a ≠ .detach connection ∧ a ≠ .close connection := by
  induction moves generalizing s with
  | nil => exact fun a ha => absurd ha List.not_mem_nil
  | cons m rest ih =>
      intro a ha
      rcases List.mem_append.mp ha with hm | hr
      · rcases hstay m List.mem_cons_self with ⟨hdetach, hclose⟩
        rcases s.hubActions_stay connection m hdetach a hm with ⟨hreset, hstays⟩
        exact ⟨hreset, hstays, fun e => s.hubActions_open connection m hclose (e ▸ hm)⟩
      · exact ih (s.perform m) (fun m hm => hstay m (List.mem_cons_of_mem _ hm)) a hr

/-! ### What a follower receives -/

/-- The frames a connection took out of its mailbox during some moves or has waiting after
    them, in order. -/
def receivedSince (connection : Nat) (moves : List Move) (s : Coordinator) : List Frame :=
  Hub.takenAll connection (hubActionsAll moves s) s.hub ++
    (s.performAll moves).hub.waiting connection

/-- A connection whose mailbox had room for every frame received what was waiting and what it was
    sent since. -/
theorem receivedSince_eq (s : Coordinator) (hs : s.Reachable) (connection : Nat)
    (moves : List Move) (hattached : s.hub.roster.isAttached connection = true)
    (hstay : ∀ m ∈ moves, m ≠ .detach connection ∧ m ≠ .close connection)
    (hroom : Hub.NeverOverflows connection (hubActionsAll moves s) s.hub) :
    receivedSince connection moves s =
      s.hub.waiting connection ++ Hub.addressedAll connection (hubActionsAll moves s) s.hub := by
  have hsound := hs.hub_sound
  have hopen : .close connection ∉ hubActionsAll moves s :=
    fun hmem => (mem_hubActionsAll connection moves s hstay _ hmem).2.2 rfl
  have hmove := Hub.waiting_append_addressed connection _ s.hub
    (hsound.opened connection hattached) (hsound.mailbox connection hattached) hopen hroom
  rw [receivedSince, performAll_hub, ← hmove]

/-- A connection that follows a conversation and whose mailbox had room for every frame received
    everything that was announced on the conversation, once and in order, and nothing else about
    it but what was waiting already. -/
theorem bodiesOn_follower (s : Coordinator) (hs : s.Reachable) (connection : Nat)
    (conversation : String) (moves : List Move)
    (hfollows : s.hub.roster.Follows connection conversation)
    (hstay : ∀ m ∈ moves, m ≠ .detach connection ∧ m ≠ .close connection)
    (hroom : Hub.NeverOverflows connection (hubActionsAll moves s) s.hub) :
    bodiesOn conversation (receivedSince connection moves s) =
      bodiesOn conversation (s.hub.waiting connection) ++
        (newsOnAll conversation moves s).map (·.body conversation) := by
  have hattached : s.hub.roster.isAttached connection = true := by
    rcases hfollows with ⟨sub, hsub, -⟩
    exact Table.contains_of_some hsub
  have hsent := Hub.bodiesOn_addressedAll connection conversation (hubActionsAll moves s) s.hub
    hs.hub_sound.roster hfollows (hubActionsAll_wellAddressed moves s)
    (fun a ha => ⟨(mem_hubActionsAll connection moves s hstay a ha).1,
      (mem_hubActionsAll connection moves s hstay a ha).2.1⟩)
  rw [receivedSince_eq s hs connection moves hattached hstay hroom, bodiesOn_append, hsent,
    eventsOn_announced]

/-- A connection that joined a conversation and whose mailbox had room for every frame received
    the state of the run that was active and everything that was announced on the conversation
    since, once and in order, and nothing else about it. -/
theorem bodiesOn_received (s : Coordinator) (hs : s.Reachable) (connection : Nat)
    (conversation : String) (after : List Move)
    (hattached : s.hub.roster.isAttached connection = true)
    (hnew : ¬s.hub.roster.Follows connection conversation)
    (hstay : ∀ m ∈ after, m ≠ .detach connection ∧ m ≠ .close connection)
    (hroom : Hub.NeverOverflows connection
      (hubActionsAll (.follow connection conversation :: after) s) s.hub) :
    bodiesOn conversation (receivedSince connection (.follow connection conversation :: after) s) =
      (s.activeRun conversation).toList.map .snapshot ++
        (newsOnAll conversation after (s.perform (.follow connection conversation))).map
          (·.body conversation) := by
  have hsound := hs.hub_sound
  have hwell := s.hubActions_wellAddressed (.follow connection conversation)
  have hjoined : (s.perform (.follow connection conversation)).hub =
      s.hub.act (.follow connection conversation (s.activeRun conversation)) :=
    perform_hub s (.follow connection conversation)
  have hactions : hubActionsAll (.follow connection conversation :: after) s =
      .follow connection conversation (s.activeRun conversation) ::
        hubActionsAll after (s.perform (.follow connection conversation)) := rfl
  have hstay' : ∀ m ∈ .follow connection conversation :: after,
      m ≠ .detach connection ∧ m ≠ .close connection :=
    List.forall_mem_cons.mpr ⟨⟨by simp, by simp⟩, hstay⟩
  -- The frame that is sent when the connection joins.
  have hfirst := s.hub.bodiesOn_addressed_join connection conversation (s.activeRun conversation)
    (hwell _ List.mem_cons_self) hattached hnew
  have hfollows : (s.hub.act (.follow connection conversation
      (s.activeRun conversation))).roster.Follows connection conversation := by
    rw [Hub.act_roster]
    exact s.hub.roster.follows_follow connection conversation _ hattached
  -- Everything after it.
  have hrest := Hub.bodiesOn_addressedAll connection conversation
    (hubActionsAll after (s.perform (.follow connection conversation))) _
    (hsound.act _ (hwell _ List.mem_cons_self)).roster hfollows
    (hubActionsAll_wellAddressed after _)
    (fun a ha => ⟨(mem_hubActionsAll connection after _ hstay a ha).1,
      (mem_hubActionsAll connection after _ hstay a ha).2.1⟩)
  rw [receivedSince_eq s hs connection _ hattached hstay' hroom, bodiesOn_append,
    hsound.belongs connection conversation hattached hnew, List.nil_append, hactions,
    Hub.addressedAll, bodiesOn_append, hfirst, hrest, eventsOn_announced]

end Coordinator

end Switchboard

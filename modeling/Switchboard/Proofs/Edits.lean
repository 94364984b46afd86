import Switchboard.Proofs.Moves

/-!
# What a Move Does to the Directory

Few moves change the directory, and all of them in the same way. A summary is made,
or it is read and changed in one field; then it is stored, and the sidebar is told
of what was stored. Only deleting a conversation takes a summary out, and the
sidebar is told of that. `Coordinator.perform_edit` says so once for all moves, with
the directory after the move and everything that the sidebar is told.

It is the counterpart of `Coordinator.perform_change`, which says what a move does to
runs and tasks. A statement about summaries needs these three cases, and where it
matters what a summary was before, the four of `Coordinator.Revises`.

## Main definitions

* `sidebarEvents`: What some announcements tell the sidebar.
* `Coordinator.Move.edits`: A move that is about a conversation and not about its runs.
* `Coordinator.Revises`: A summary that a move stores.
* `Coordinator.Edit`: What a move does to the directory.

## Theorems

* `Directory.mark_cases`, `Directory.unmark_cases`: What a summary is told of its run.
* `Coordinator.perform_edit`: Every move does one of three things to the directory.
-/

namespace Switchboard

/-- What an announcement tells the sidebar, if it is for the sidebar. -/
def Announcement.sidebar? : Announcement → Option SidebarEvent
  | .sidebar event => some event
  | .conversation .. => none

/-- What some announcements tell the sidebar, in order. -/
def sidebarEvents (news : List Announcement) : List SidebarEvent :=
  news.filterMap (·.sidebar?)

theorem mem_sidebarEvents (news : List Announcement) (event : SidebarEvent) :
    event ∈ sidebarEvents news ↔ .sidebar event ∈ news := by
  rw [sidebarEvents, List.mem_filterMap]
  constructor
  · rintro ⟨announcement, hmem, hevent⟩
    cases announcement with
    | sidebar e => exact Option.some.inj hevent ▸ hmem
    | conversation id e => exact absurd hevent (by simp [Announcement.sidebar?])
  · exact fun hmem => ⟨_, hmem, rfl⟩

/-- Conversations are told of their runs, which the sidebar does not hear. -/
theorem sidebarEvents_conversation (id : String) (events : List ConversationEvent) :
    sidebarEvents (events.map (.conversation id)) = [] := by
  rw [sidebarEvents, List.filterMap_map]
  exact List.filterMap_eq_nil_iff.mpr fun _ _ => rfl

namespace Directory

/-- A summary that is told which run is active is stored with it, unless it says so already or
    there is none. -/
theorem mark_cases (d : Directory) (now : Timestamp) (conversation : String)
    (run : Option String) :
    (d.mark now conversation run = d ∧ d.markNews now conversation run = []) ∨
    ∃ c, d.get? conversation = some c ∧
      d.mark now conversation run = d.upsert now { c with activeRun := run } ∧
      d.markNews now conversation run =
        [.sidebar (.upsert { c with activeRun := run, updatedAt := now })] := by
  unfold mark markNews
  cases hc : d.get? conversation with
  | none => exact Or.inl ⟨rfl, rfl⟩
  | some c =>
      by_cases hrun : c.activeRun = run
      · simp only [if_pos hrun]
        exact Or.inl ⟨trivial, trivial⟩
      · simp only [if_neg hrun]
        exact Or.inr ⟨c, rfl, rfl, rfl⟩

/-- The same for a run that ceases to be active. -/
theorem unmark_cases (d : Directory) (now : Timestamp) (key : RunKey) :
    (d.unmark now key = d ∧ d.unmarkNews now key = []) ∨
    ∃ c, d.get? key.conversation = some c ∧
      d.unmark now key = d.upsert now { c with activeRun := none } ∧
      d.unmarkNews now key =
        [.sidebar (.upsert { c with activeRun := none, updatedAt := now })] := by
  unfold unmark unmarkNews
  split
  · exact d.mark_cases now key.conversation none
  · exact Or.inl ⟨rfl, rfl⟩

end Directory

namespace Coordinator

/-! ### Edits -/

/-- Whether a move is about a conversation itself and not about its runs. -/
def Move.edits : Move → Bool
  | .create .. | .archive .. | .delete _ => true
  | _ => false

/-- A summary that a move stores: one that it makes, or one that is there and that it changes in
    one field. -/
inductive Revises (s : Coordinator) (m : Move) : Conversation → Prop where
  | creates (occasion : Occasion) (given : Option String) (title : String)
      (hmove : m = .create occasion given title)
      (hnew : s.directory.get? (given.getD occasion.freshId) = none) :
      Revises s m (.fresh (given.getD occasion.freshId) title occasion.now)
  | retitles (occasion : Occasion) (given : Option String) (title : String) (c : Conversation)
      (hmove : m = .create occasion given title)
      (hc : s.directory.get? (given.getD occasion.freshId) = some c) :
      Revises s m { c with title }
  | archives (now : Timestamp) (id : String) (c : Conversation) (hmove : m = .archive now id)
      (hc : s.directory.get? id = some c) : Revises s m { c with archived := true }
  /-- The summary is told which run is active. -/
  | marks (id : String) (run : Option String) (c : Conversation) (hmove : m.edits = false)
      (hc : s.directory.get? id = some c) : Revises s m { c with activeRun := run }

/-- What a move does to the directory, and what it tells the sidebar. -/
inductive Edit (s : Coordinator) (m : Move) : Prop where
  /-- Nothing. -/
  | keeps (hdirectory : (s.perform m).directory = s.directory)
      (hnews : sidebarEvents (s.news m) = [])
  /-- A summary is stored. -/
  | stores (now : Timestamp) (c : Conversation) (hrevises : Revises s m c)
      (hdirectory : (s.perform m).directory = s.directory.upsert now c)
      (hnews : sidebarEvents (s.news m) = [.upsert { c with updatedAt := now }])
  /-- A summary is taken out. -/
  | deletes (id : String) (hmove : m = .delete id)
      (hdirectory : (s.perform m).directory = s.directory.delete id)
      (hnews : sidebarEvents (s.news m) = [.delete id])

variable (s : Coordinator)

/-- A move that leaves the directory alone and announces nothing. -/
theorem Edit.of_same {s : Coordinator} {m : Move} (hperform : s.perform m = s)
    (hnews : s.news m = []) : Edit s m :=
  .keeps (by rw [hperform]) (by rw [hnews]; rfl)

/-- A move by which a run ceases to be active. -/
theorem Edit.of_unmark {s : Coordinator} {m : Move} (now : Timestamp) (key : RunKey)
    (status : FinalStatus) (hmove : m.edits = false)
    (hdirectory : (s.perform m).directory = s.directory.unmark now key)
    (hnews : s.news m = s.endNews now key status) : Edit s m := by
  -- The end of the run is told its conversation only.
  have hsidebar : sidebarEvents (s.news m) = sidebarEvents (s.directory.unmarkNews now key) := by
    rw [hnews, endNews, sidebarEvents, List.filterMap_append]
    split <;> rfl
  rcases s.directory.unmark_cases now key with ⟨hsame, hnone⟩ | ⟨c, hc, hstored, htold⟩
  · exact .keeps (hdirectory.trans hsame) (by rw [hsidebar, hnone]; rfl)
  · exact .stores now _ (.marks key.conversation none c hmove hc) (hdirectory.trans hstored)
      (by rw [hsidebar, htold]; rfl)

theorem create_edit (occasion : Occasion) (given : Option String) (title : String) :
    Edit s (.create occasion given title) := by
  cases hc : s.directory.get? (given.getD occasion.freshId) with
  | none =>
      refine .stores occasion.now _ (.creates occasion given title rfl hc) ?_ ?_ <;>
        simp only [perform, news, createConversation, hc] <;> rfl
  | some c =>
      refine .stores occasion.now _ (.retitles occasion given title c rfl hc) ?_ ?_ <;>
        simp only [perform, news, createConversation, hc] <;> rfl

theorem archive_edit (now : Timestamp) (id : String) : Edit s (.archive now id) := by
  cases hc : s.directory.get? id with
  | none => refine .of_same ?_ ?_ <;> simp only [perform, news, archiveConversation, hc]
  | some c =>
      refine .stores now _ (.archives now id c rfl hc) ?_ ?_ <;>
        simp only [perform, news, archiveConversation, hc] <;> rfl

theorem delete_edit (id : String) : Edit s (.delete id) := by
  cases hl : s.locks.acquire? id with
  | none => refine .of_same ?_ ?_ <;> simp only [perform, news, deleteConversation, hl]
  | some p =>
      -- The hold is there for the moment of the deletion only.
      cases hc : s.directory.get? id with
      | none =>
          refine .keeps ?_ ?_
          · simp only [perform, deleteConversation, hl, hc]
          · simp only [news, deleteConversation, hl, hc]
            rfl
      | some c =>
          refine .deletes id rfl ?_ ?_ <;>
            simp only [perform, news, deleteConversation, hl, hc] <;> rfl

theorem start_edit (occasion : Occasion) (conversation : String) (run : Option String)
    (prompt : String) : Edit s (.start occasion conversation run prompt) := by
  rcases startRun_cases s occasion conversation run prompt with
    ⟨e, h⟩ | ⟨snapshot, -, h⟩ | ⟨provider, c, -, -, -, -, -, h⟩
  -- A run that is refused or found is not started.
  · exact .of_same (by rw [perform, h]) (by simp only [news, h])
  · exact .of_same (by rw [perform, h]) (by simp only [news, h])
  · have hdirectory : (s.perform (.start occasion conversation run prompt)).directory =
        s.directory.mark occasion.now conversation (some (run.getD occasion.freshId)) := by
      rw [perform, h]
      rfl
    have hnews : s.news (.start occasion conversation run prompt) =
        s.directory.markNews occasion.now conversation (some (run.getD occasion.freshId)) := by
      simp only [news, h]
      rfl
    rcases s.directory.mark_cases occasion.now conversation (some (run.getD occasion.freshId)) with
      ⟨hsame, hnone⟩ | ⟨x, hx, hstored, htold⟩
    · exact .keeps (hdirectory.trans hsame) (by rw [hnews, hnone]; rfl)
    · exact .stores occasion.now _ (.marks conversation _ x rfl hx) (hdirectory.trans hstored)
        (by rw [hnews, htold]; rfl)

theorem cancel_edit (now : Timestamp) (key : RunKey) : Edit s (.cancel now key) := by
  cases hr : s.registry.runs.get? key with
  | none =>
      refine .of_same (by rw [perform, cancelRun_absent s now key hr]) ?_
      rw [news, Table.contains_of_none hr, if_neg Bool.false_ne_true]
  | some run =>
      refine .of_unmark now key .cancelled rfl ?_ ?_
      · rw [perform, cancelRun_eq s now key run hr, cancelled]
      · rw [news, Table.contains_of_some hr, if_pos rfl]

theorem forward_edit (task : Nat) : Edit s (.forward task) := by
  rcases forward_cases s task with ⟨hs, hnews, -⟩ | ⟨t, t', handover, -, -, hs, hnews⟩
  · exact .of_same hs hnews
  · rcases takeHandover_stores { s with tasks := s.tasks.insert task t' } t.key handover with
      ⟨registry, hub, htook, -⟩
    refine .keeps (by rw [hs, htook]) ?_
    -- What a task hands on is told the conversation of its run.
    rw [hnews]
    cases s.registry.runs.get? t.key with
    | none => rfl
    | some run => exact sidebarEvents_conversation ..

theorem finish_edit (now : Timestamp) (task : Nat) : Edit s (.finish now task) := by
  rcases finish_cases s now task with ⟨hs, hnews⟩ | ⟨t, status, -, -, -, hs, hnews⟩
  · exact .of_same hs hnews
  · exact .of_unmark now t.key status rfl (by rw [hs, finished]) hnews

/-- What a move does to the directory. -/
theorem perform_edit (m : Move) : Edit s m := by
  -- The moves of a connection edit nothing; each of the others has its lemma.
  cases hm : m.isOfConnection with
  | true =>
      rcases s.perform_of_connection m hm with ⟨hub, hperform⟩
      exact .keeps (by rw [hperform]) (by rw [s.news_of_connection m hm]; rfl)
  | false =>
      cases m with
      | create occasion given title => exact s.create_edit occasion given title
      | archive now id => exact s.archive_edit now id
      | delete id => exact s.delete_edit id
      | start occasion conversation run prompt =>
          exact s.start_edit occasion conversation run prompt
      | cancel now key => exact s.cancel_edit now key
      | forward task => exact s.forward_edit task
      | finish now task => exact s.finish_edit now task
      | retune | drive | drain => exact .keeps rfl rfl
      | _ => exact absurd hm (by simp [Move.isOfConnection])

end Coordinator

end Switchboard

import Mathlib.Data.List.Induction
import Switchboard.Proofs.Histories
import Switchboard.Proofs.Holds
import Switchboard.Proofs.Sidebar

/-!
# Titles and Archiving

What the history of a coordinator says about the summary of a conversation.
Whoever stores a summary stores all of it, and runs store it as often as titles
and archiving do: when a run starts, when it is cancelled and when its task ends,
which may be long after its conversation was deleted and made again. That none of
this loses a title or brings a conversation back is because a summary is never
stored from memory. It is read, changed in one field and stored in one step, and a
conversation that is not there is left alone.

What is followed here is therefore the label of a conversation, its title and
whether it is archived. `Coordinator.relabels_perform` says everything that a move
can do to it, and each statement about the history is one induction over the moves
with the four cases of that.

## Main definitions

* `Directory.label?`: The title of a conversation and whether it is archived.
* `Coordinator.Move.title?`: The title that a move gives to a conversation.
* `Coordinator.CreatesAnew`, `Coordinator.Archives`, `Coordinator.Deletes`: A move has this effect.
* `Coordinator.Relabels`: What a move does to the label of a conversation.

## Theorems

* `Coordinator.label?_unedited`: Runs leave every label alone.
* `Coordinator.relabels_perform`: A move has one of four effects on a label.
* `Coordinator.listed_iff_since`, `Coordinator.title_of_latest`,
  `Coordinator.archived_iff_since`: What the label says about the history.
* `Coordinator.Barred.startRun`: No run is started on a conversation that is archived.
* `Coordinator.directory_tells_history`: What this means after every course of events.
-/

namespace Switchboard

/-! ### Labels -/

namespace Directory

/-- The title of a conversation and whether it is archived, if it is there. -/
def label? (d : Directory) (id : String) : Option (String × Bool) :=
  (d.get? id).map fun c => (c.title, c.archived)

theorem label?_upsert (d : Directory) (now : Timestamp) (c : Conversation) (id : String) :
    (d.upsert now c).label? id = if id = c.id then some (c.title, c.archived) else d.label? id := by
  rw [label?, upsert_get?]
  split <;> rfl

theorem label?_delete (d : Directory) (id other : String) :
    (d.delete id).label? other = if other = id then none else d.label? other := by
  rw [label?, get?, delete, Table.get?_erase]
  split <;> rfl

end Directory

namespace Coordinator

/-! ### Moves and labels -/

/-- The title that a move gives to a conversation, if it creates it or names it anew. -/
def Move.title? (c : String) : Move → Option String
  | .create occasion id title => if id.getD occasion.freshId = c then some title else none
  | _ => none

/-- Whether a move creates a conversation that is not there. -/
def CreatesAnew (c : String) (s : Coordinator) (m : Move) : Prop :=
  (m.title? c).isSome ∧ s.directory.get? c = none

/-- Whether a move archives a conversation. -/
def Archives (c : String) (s : Coordinator) (m : Move) : Prop :=
  ∃ now stored, m = .archive now c ∧ (s.archiveConversation now c).1 = .ok stored

/-- Whether a move deletes a conversation. -/
def Deletes (c : String) (s : Coordinator) (m : Move) : Prop :=
  m = .delete c ∧ (s.deleteConversation c).1 = .ok ()

/-- What a move does to the label of a conversation. -/
inductive Relabels (c : String) (s : Coordinator) (m : Move) : Prop where
  /-- It gives the conversation a title. The conversation is archived if it was before. -/
  | titles (title : String) (htitle : m.title? c = some title)
      (hother : ¬Archives c s m ∧ ¬Deletes c s m)
      (hlabel : (s.perform m).directory.label? c =
        some (title, ((s.directory.label? c).map (·.2)).getD false))
  /-- It archives the conversation. -/
  | archives (title : String) (archived : Bool) (harchives : Archives c s m)
      (hother : m.title? c = none ∧ ¬Deletes c s m)
      (hbefore : s.directory.label? c = some (title, archived))
      (hlabel : (s.perform m).directory.label? c = some (title, true))
  /-- It deletes the conversation. -/
  | deletes (hdeletes : Deletes c s m) (hother : m.title? c = none ∧ ¬Archives c s m)
      (hlabel : (s.perform m).directory.label? c = none)
  /-- It leaves the label as it is. -/
  | keeps (hother : m.title? c = none ∧ ¬Archives c s m ∧ ¬Deletes c s m)
      (hlabel : (s.perform m).directory.label? c = s.directory.label? c)

section

variable {s : Coordinator} (hs : s.directory.Named) (c : String)

include hs

/-- Runs leave the label of every conversation alone, whether it is there or not. -/
theorem label?_unedited (m : Move) (hm : m.edits = false) :
    (s.perform m).directory.label? c = s.directory.label? c := by
  cases s.perform_edit m with
  | keeps hdirectory hnews => rw [hdirectory]
  | deletes id hmove hdirectory hnews => exact absurd (hmove ▸ hm) (by simp [Move.edits])
  | stores now stored hrevises hdirectory hnews =>
      rw [hdirectory, Directory.label?_upsert]
      cases hrevises with
      | creates occasion given title hmove hnew => exact absurd (hmove ▸ hm) (by simp [Move.edits])
      | retitles occasion given title x hmove hx => exact absurd (hmove ▸ hm) (by simp [Move.edits])
      | archives now id x hmove hx => exact absurd (hmove ▸ hm) (by simp [Move.edits])
      -- A summary that is told which run is active keeps its label.
      | marks id run x hmove hx =>
          have hid : x.id = id := hs id x hx
          by_cases hc : c = x.id
          · rw [if_pos hc, hc, hid, Directory.label?, hx, Option.map_some]
          · rw [if_neg hc]

theorem relabels_create (occasion : Occasion) (id : Option String) (title : String) :
    Relabels c s (.create occasion id title) := by
  have hother : ¬Archives c s (.create occasion id title) ∧
      ¬Deletes c s (.create occasion id title) := by
    simp [Archives, Deletes]
  -- The conversation is the one that is named, or another one whose label stays.
  by_cases hid : id.getD occasion.freshId = c
  · refine .titles title (by rw [Move.title?, if_pos hid]) hother ?_
    simp only [perform, createConversation, hid]
    -- A conversation that is made is not archived; one that is there stays as it was.
    cases hc : s.directory.get? c with
    | none =>
        have hbefore : s.directory.label? c = none := by rw [Directory.label?, hc, Option.map_none]
        rw [hbefore]
        exact (Directory.label?_upsert ..).trans (if_pos rfl)
    | some x =>
        have hbefore : s.directory.label? c = some (x.title, x.archived) := by
          rw [Directory.label?, hc, Option.map_some]
        rw [hbefore]
        exact (Directory.label?_upsert ..).trans (if_pos (hs c x hc).symm)
  · refine .keeps ⟨by rw [Move.title?, if_neg hid], hother⟩ ?_
    simp only [perform, createConversation]
    -- The summary that is stored goes by the id that is named, which is another one.
    cases hc : s.directory.get? (id.getD occasion.freshId) with
    | none => exact (Directory.label?_upsert ..).trans (if_neg fun h => hid h.symm)
    | some x =>
        exact (Directory.label?_upsert ..).trans
          (if_neg fun h => hid (h.trans (hs _ x hc)).symm)

theorem relabels_archive (now : Timestamp) (id : String) : Relabels c s (.archive now id) := by
  have hdeletes : ¬Deletes c s (.archive now id) := by simp [Deletes]
  -- Only a conversation that is there is archived.
  cases hx : s.directory.get? id with
  | none =>
      refine .keeps ⟨rfl, ?_, hdeletes⟩ (by simp only [perform, archiveConversation, hx])
      rintro ⟨now', stored, hmove, hok⟩
      cases hmove
      simp [archiveConversation, hx] at hok
  | some x =>
      have hlabel : (s.perform (.archive now id)).directory.label? c =
          if c = id then some (x.title, true) else s.directory.label? c := by
        simp only [perform, archiveConversation, hx]
        refine (Directory.label?_upsert ..).trans ?_
        simp only [hs id x hx]
      by_cases hid : id = c
      · subst hid
        refine .archives x.title x.archived ?_ ⟨rfl, hdeletes⟩ ?_ (hlabel.trans (if_pos rfl))
        · exact ⟨now, _, rfl, by simp only [archiveConversation, hx]; rfl⟩
        · rw [Directory.label?, hx, Option.map_some]
      · refine .keeps ⟨rfl, ?_, hdeletes⟩ (hlabel.trans (if_neg fun h => hid h.symm))
        rintro ⟨now', stored, hmove, -⟩
        cases hmove
        exact hid rfl

omit hs in
theorem relabels_delete (id : String) : Relabels c s (.delete id) := by
  have harchives : ¬Archives c s (.delete id) := by simp [Archives]
  -- A deletion that is refused leaves the directory alone.
  have hrefused : ∀ e, (s.deleteConversation id).1 = .error e →
      (s.perform (.delete id)).directory = s.directory → Relabels c s (.delete id) := by
    intro e he hdirectory
    refine .keeps ⟨rfl, harchives, ?_⟩ (by rw [hdirectory])
    rintro ⟨hmove, hok⟩
    cases hmove
    rw [he] at hok
    cases hok
  -- A conversation that is held is not deleted, and neither is one that is not there.
  cases hheld : s.locks.held.get? id with
  | some g =>
      have hacquire := s.locks.acquire?_held id g hheld
      have hdelete : s.deleteConversation id = (.error (.busy id), s) := by
        rw [deleteConversation, hacquire]
      exact hrefused (.busy id) (by rw [hdelete]) (by rw [perform, hdelete])
  | none =>
      have hacquire := s.locks.acquire?_free id hheld
      cases hx : s.directory.get? id with
      | none =>
          have hdelete : s.deleteConversation id =
              (.error (.notFound id), { s with
                locks := (s.locks.taking id).drop ⟨id, s.locks.taken + 1⟩ }) := by
            rw [deleteConversation, hacquire]
            simp only [hx]
          exact hrefused (.notFound id) (by rw [hdelete]) (by rw [perform, hdelete])
      | some x =>
          have hlabel : (s.perform (.delete id)).directory.label? c =
              if c = id then none else s.directory.label? c := by
            rw [perform, deleteConversation, hacquire]
            simp only [hx]
            exact Directory.label?_delete ..
          by_cases hid : id = c
          · subst hid
            refine .deletes ⟨rfl, ?_⟩ ⟨rfl, harchives⟩ (hlabel.trans (if_pos rfl))
            rw [deleteConversation, hacquire]
            simp only [hx]
          · refine .keeps ⟨rfl, harchives, ?_⟩ (hlabel.trans (if_neg fun h => hid h.symm))
            rintro ⟨hmove, -⟩
            cases hmove
            exact hid rfl

/-- What a move can do to a label. -/
theorem relabels_perform (m : Move) : Relabels c s m := by
  cases hm : m.edits with
  -- A move that edits nothing has none of the three effects.
  | false =>
      refine .keeps ⟨?_, ?_, ?_⟩ (label?_unedited hs c m hm)
      · cases m with
        | create => exact absurd hm (by simp [Move.edits])
        | _ => rfl
      · rintro ⟨now, stored, rfl, -⟩
        exact absurd hm (by simp [Move.edits])
      · rintro ⟨rfl, -⟩
        exact absurd hm (by simp [Move.edits])
  | true =>
      cases m with
      | create occasion id title => exact relabels_create hs c occasion id title
      | archive now id => exact relabels_archive hs c now id
      | delete id => exact relabels_delete c id
      | _ => exact absurd hm (by simp [Move.edits])

end

/-! ### Histories -/

section

variable (config : ServerConfig) (provider : Option Provider) (moves : List Move) (c : String)

theorem relabels_next (m : Move) :
    Relabels c ((ofConfig config provider).performAll moves) m :=
  relabels_perform (coherent_performAll config provider moves).named c m

theorem performAll_snoc (s : Coordinator) (m : Move) :
    s.performAll (moves ++ [m]) = (s.performAll moves).perform m :=
  performAll_append s moves [m]

theorem since_move (begins ends : Coordinator → Move → Prop) (s : Coordinator) (m : Move) :
    History.Since perform s begins ends (moves ++ [m]) ↔
      begins (s.performAll moves) m ∨
        (History.Since perform s begins ends moves ∧ ¬ends (s.performAll moves) m) :=
  History.since_snoc perform s begins ends moves m

theorem label?_start : (ofConfig config provider).directory.label? c = none := rfl

/-- A conversation is there if it was created after it was deleted last. -/
theorem listed_iff_since :
    (((ofConfig config provider).performAll moves).directory.label? c).isSome = true ↔
      History.Since perform (ofConfig config provider) (fun _ m => (m.title? c).isSome = true)
        (Deletes c) moves := by
  induction moves using List.reverseRecOn with
  | nil =>
      rw [performAll_nil, label?_start]
      exact iff_of_false Bool.false_ne_true (History.not_since_nil _ _ _ _)
  | append_singleton moves m ih =>
      rw [since_move, performAll_snoc, ← ih]
      -- Each effect on the label is an effect on whether there is one.
      cases relabels_next config provider moves c m with
      | titles title htitle hother hlabel => simp [hlabel, htitle]
      | archives title archived harchives hother hbefore hlabel =>
          simp [hlabel, hother.1, hother.2, hbefore]
      | deletes hdeletes hother hlabel => simp [hlabel, hdeletes, hother.1]
      | keeps hother hlabel => simp [hlabel, hother.1, hother.2.2]

/-- The title of a conversation is the one that it was given last. -/
theorem title_of_latest (title : String) (archived : Bool)
    (hlabel : ((ofConfig config provider).performAll moves).directory.label? c =
      some (title, archived)) :
    (moves.filterMap (Move.title? c)).getLast? = some title := by
  induction moves using List.reverseRecOn generalizing archived with
  | nil =>
      rw [performAll_nil, label?_start] at hlabel
      exact absurd hlabel (by simp)
  | append_singleton moves m ih =>
      rw [performAll_snoc] at hlabel
      rw [List.filterMap_append]
      -- The title is read off the latest move that gave one, the others leave it alone.
      cases relabels_next config provider moves c m with
      | titles given htitle hother hnext =>
          rw [hnext, Option.some.injEq, Prod.mk.injEq] at hlabel
          simp [htitle, hlabel.1]
      | archives before flag harchives hother hbefore hnext =>
          rw [hnext, Option.some.injEq, Prod.mk.injEq] at hlabel
          rw [hlabel.1] at hbefore
          simpa [hother.1] using ih flag hbefore
      | deletes hdeletes hother hnext =>
          rw [hnext] at hlabel
          exact absurd hlabel (by simp)
      | keeps hother hnext =>
          rw [hnext] at hlabel
          simpa [hother.1] using ih archived hlabel

/-- A conversation is archived if it was archived after it was created from nothing last. -/
theorem archived_iff_since (title : String) (archived : Bool)
    (hlabel : ((ofConfig config provider).performAll moves).directory.label? c =
      some (title, archived)) :
    archived = true ↔ History.Since perform (ofConfig config provider) (Archives c)
      (CreatesAnew c) moves := by
  induction moves using List.reverseRecOn generalizing title archived with
  | nil =>
      rw [performAll_nil, label?_start] at hlabel
      exact absurd hlabel (by simp)
  | append_singleton moves m ih =>
      rw [performAll_snoc] at hlabel
      rw [since_move]
      cases relabels_next config provider moves c m with
      -- A title brings back nothing: a conversation that is there stays archived.
      | titles given htitle hother hnext =>
          rw [hnext, Option.some.injEq, Prod.mk.injEq] at hlabel
          rw [← hlabel.2, or_iff_right hother.1]
          cases hbefore : ((ofConfig config provider).performAll moves).directory.label? c with
          | none =>
              have hanew : CreatesAnew c ((ofConfig config provider).performAll moves) m :=
                ⟨by rw [htitle]; rfl, Option.map_eq_none_iff.mp hbefore⟩
              simp [hanew]
          | some label =>
              have hold : ¬CreatesAnew c ((ofConfig config provider).performAll moves) m := by
                rintro ⟨-, hnone⟩
                rw [Directory.label?, hnone] at hbefore
                exact absurd hbefore (by simp)
              simpa [hold] using ih label.1 label.2 hbefore
      | archives before flag harchives hother hbefore hnext =>
          rw [hnext, Option.some.injEq, Prod.mk.injEq] at hlabel
          exact iff_of_true hlabel.2.symm (Or.inl harchives)
      -- A conversation that is deleted has no label to speak of.
      | deletes hdeletes hother hnext =>
          rw [hnext] at hlabel
          exact absurd hlabel (by simp)
      | keeps hother hnext =>
          rw [hnext] at hlabel
          have hold : ¬CreatesAnew c ((ofConfig config provider).performAll moves) m := by
            rintro ⟨hcreates, -⟩
            rw [hother.1] at hcreates
            exact absurd hcreates (by simp)
          rw [ih title archived hlabel, or_iff_right hother.2.1, and_iff_left hold]

end

/-! ### Archived conversations -/

/-- Whether no run can be started on a conversation: it is archived, or it is not there. -/
def Barred (s : Coordinator) (c : String) : Prop :=
  ∀ title archived, s.directory.label? c = some (title, archived) → archived = true

/-- A start on such a conversation is refused. -/
theorem Barred.startRun {s : Coordinator} {c : String} (h : s.Barred c) (occasion : Occasion)
    (run : Option String) (prompt : String) :
    ∃ e, s.startRun occasion c run prompt = (.error e, s) := by
  unfold Coordinator.startRun
  cases s.provider with
  | none => exact ⟨_, rfl⟩
  | some provider =>
      cases hx : s.directory.get? c with
      | none => exact ⟨_, rfl⟩
      | some x =>
          have harchived : x.archived = true :=
            h x.title x.archived (by rw [Directory.label?, hx, Option.map_some])
          exact ⟨.conflict (.archived c), by simp only [if_pos harchived]⟩

/-- Only creating such a conversation from nothing lifts the bar. -/
theorem Barred.perform {s : Coordinator} {c : String} (h : s.Barred c)
    (hs : s.directory.Named) (m : Move) (hm : ¬CreatesAnew c s m) : (s.perform m).Barred c := by
  intro title archived hlabel
  cases relabels_perform hs c m with
  -- Only a conversation that is not there would be made open.
  | titles given htitle hother hnext =>
      cases hbefore : s.directory.label? c with
      | none => exact absurd ⟨by rw [htitle]; rfl, Option.map_eq_none_iff.mp hbefore⟩ hm
      | some label =>
          rw [hnext, hbefore, Option.some.injEq, Prod.mk.injEq] at hlabel
          rw [← hlabel.2]
          exact h label.1 label.2 hbefore
  | archives before flag harchives hother hbefore hnext =>
      rw [hnext, Option.some.injEq, Prod.mk.injEq] at hlabel
      exact hlabel.2.symm
  | deletes hdeletes hother hnext =>
      rw [hnext] at hlabel
      exact absurd hlabel (by simp)
  | keeps hother hnext =>
      rw [hnext] at hlabel
      exact h title archived hlabel

theorem Barred.performAll {s : Coordinator} {c : String} (h : s.Barred c) (hs : s.Coherent)
    (later : List Move) (hlater : ∀ mid m late, later = mid ++ m :: late →
      ¬CreatesAnew c (s.performAll mid) m) : (s.performAll later).Barred c := by
  induction later generalizing s with
  | nil => exact h
  | cons m rest ih =>
      refine ih (h.perform hs.named m (hlater [] m rest rfl)) (hs.perform m) ?_
      intro mid x late hsplit
      exact hlater (m :: mid) x late (by rw [hsplit, List.cons_append])

/-! ### Every course of events -/

/-- Whatever happened, the directory says of every conversation what its history says. It is there
    if and only if it was created after it was deleted last. Its title is the one that it was given
    last, and it is archived if and only if it was archived after it was created from nothing last.
    A move that does not create, archive or delete changes no title and no archiving and brings no
    conversation back, whatever runs it is about. And while a conversation is archived no run is
    started or found on it, until it has been deleted and is created again. -/
theorem directory_tells_history (config : ServerConfig) (provider : Option Provider)
    (moves : List Move) (c : String) :
    let start := ofConfig config provider
    let s := start.performAll moves
    ((s.directory.get? c).isSome = true ↔
      History.Since perform start (fun _ m => (m.title? c).isSome = true) (Deletes c) moves) ∧
    (∀ x, s.directory.get? c = some x →
      (moves.filterMap (Move.title? c)).getLast? = some x.title ∧
      (x.archived = true ↔
        History.Since perform start (Archives c) (CreatesAnew c) moves)) ∧
    (∀ m : Move, m.edits = false → (s.perform m).directory.label? c = s.directory.label? c) ∧
    (∀ x, s.directory.get? c = some x → x.archived = true → ∀ later,
      (∀ mid m late, later = mid ++ m :: late → ¬CreatesAnew c (s.performAll mid) m) →
        ∀ occasion run prompt, ∃ e, (s.performAll later).startRun occasion c run prompt =
          (.error e, s.performAll later)) := by
  intro start s
  have hs : s.Coherent := coherent_performAll config provider moves
  -- A summary that is stored is seen through its label.
  have hlabel : ∀ x, s.directory.get? c = some x →
      s.directory.label? c = some (x.title, x.archived) := by
    intro x hx
    rw [Directory.label?, hx, Option.map_some]
  refine ⟨?_, fun x hx => ?_, label?_unedited hs.named c, fun x hx harchived later hlater => ?_⟩
  · rw [← listed_iff_since config provider moves c, Directory.label?, Option.isSome_map]
  · exact ⟨title_of_latest config provider moves c x.title x.archived (hlabel x hx),
      archived_iff_since config provider moves c x.title x.archived (hlabel x hx)⟩
  · have hbarred : s.Barred c := by
      intro title archived h
      rw [hlabel x hx, Option.some.injEq, Prod.mk.injEq] at h
      exact h.2 ▸ harchived
    exact (hbarred.performAll hs later hlater).startRun

end Coordinator

end Switchboard

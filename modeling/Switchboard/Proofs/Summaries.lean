import Switchboard.Proofs.Operations

/-!
# Summaries and their Runs

What the directory says about the runs: a summary names at most one run, the
one that is in flight. The directory is asked by conversation, but a summary is
stored under the id it carries; as long as every summary is found under its own
id the two are the same, and every change of a summary shows at its
conversation and nowhere else.

## Main definitions

* `Directory.Named`: Every summary is found under its own id.

## Theorems

* `Directory.active?_upsert`, `Directory.active?_delete`: What a change of a summary does.
* `Directory.active?_mark`, `Directory.active?_unmark`: A run becomes active or ceases to be.
* `Directory.named_upsert`, `Directory.named_delete`, `Directory.named_mark`,
  `Directory.named_unmark`: Summaries stay under their ids.
-/

namespace Switchboard

namespace Directory

/-- Every summary is found under its own id. -/
def Named (d : Directory) : Prop :=
  ∀ id c, d.get? id = some c → c.id = id

theorem named_upsert (d : Directory) (now : Timestamp) (c : Conversation) (h : d.Named) :
    (d.upsert now c).Named := by
  intro id x hx
  rw [upsert_get?] at hx
  by_cases hid : id = c.id
  · rw [if_pos hid, Option.some.injEq] at hx
    rw [← hx, hid]
  · rw [if_neg hid] at hx
    exact h id x hx

theorem named_delete (d : Directory) (id : String) (h : d.Named) : (d.delete id).Named := by
  intro other x hx
  rw [get?, delete, Table.get?_erase] at hx
  by_cases hid : other = id
  · rw [if_pos hid] at hx
    exact absurd hx (by simp)
  · rw [if_neg hid] at hx
    exact h other x hx

theorem active?_upsert (d : Directory) (now : Timestamp) (c : Conversation) (id : String) :
    (d.upsert now c).active? id = if id = c.id then c.activeRun else d.active? id := by
  rw [active?, upsert_get?]
  by_cases h : id = c.id
  · rw [if_pos h, if_pos h, Option.bind_some]
  · rw [if_neg h, if_neg h, active?]

/-- A summary that is stored again with the same run says nothing new. -/
theorem active?_upsert_same (d : Directory) (now : Timestamp) (c : Conversation) (id : String)
    (h : d.active? c.id = c.activeRun) : (d.upsert now c).active? id = d.active? id := by
  rw [active?_upsert]
  by_cases hid : id = c.id
  · rw [if_pos hid, hid, h]
  · rw [if_neg hid]

theorem active?_delete (d : Directory) (id other : String) :
    (d.delete id).active? other = if other = id then none else d.active? other := by
  rw [active?, get?, delete, Table.get?_erase]
  by_cases h : other = id
  · rw [if_pos h, if_pos h, Option.bind_none]
  · rw [if_neg h, if_neg h, active?, get?]

theorem named_mark (d : Directory) (now : Timestamp) (conversation : String)
    (run : Option String) (h : d.Named) : (d.mark now conversation run).Named := by
  unfold mark
  cases d.get? conversation with
  | none => exact h
  | some c =>
      by_cases hc : c.activeRun = run
      · simp only [if_pos hc]
        exact h
      · simp only [if_neg hc]
        exact named_upsert d now _ h

theorem active?_mark (d : Directory) (now : Timestamp) (conversation : String)
    (run : Option String) (h : d.Named) (id : String) :
    (d.mark now conversation run).active? id =
      if id = conversation ∧ (d.get? conversation).isSome then run else d.active? id := by
  unfold mark
  cases hc : d.get? conversation with
  | none => simp
  | some c =>
      have hid : c.id = conversation := h conversation c hc
      have ha : d.active? conversation = c.activeRun := by rw [active?, hc, Option.bind_some]
      simp only [Option.isSome_some, and_true]
      -- A summary that names the run already is not stored again.
      by_cases hrun : c.activeRun = run
      · rw [if_pos hrun]
        by_cases hi : id = conversation
        · rw [if_pos hi, hi, ha, hrun]
        · rw [if_neg hi]
      · rw [if_neg hrun, active?_upsert]
        simp only [hid]

theorem named_unmark (d : Directory) (now : Timestamp) (key : RunKey) (h : d.Named) :
    (d.unmark now key).Named := by
  unfold unmark
  split
  · exact named_mark d now _ _ h
  · exact h

/-- A run that ceased to be active is not named any more, and every other one is named as
    before. -/
theorem active?_unmark (d : Directory) (now : Timestamp) (key : RunKey) (h : d.Named)
    (id : String) : (d.unmark now key).active? id =
      if id = key.conversation ∧ d.active? id = some key.run then none else d.active? id := by
  unfold unmark
  by_cases ha : d.active? key.conversation = some key.run
  · rw [if_pos ha, active?_mark d now _ _ h]
    -- A summary that names a run is there.
    have hs : (d.get? key.conversation).isSome := by
      cases hg : d.get? key.conversation with
      | none => simp only [active?, hg, Option.bind_none, reduceCtorEq] at ha
      | some c => rfl
    by_cases hid : id = key.conversation
    · rw [if_pos ⟨hid, hs⟩, if_pos ⟨hid, hid ▸ ha⟩]
    · rw [if_neg (fun hp => hid hp.1), if_neg (fun hp => hid hp.1)]
  · have hn : ¬(id = key.conversation ∧ d.active? id = some key.run) :=
      fun hp => ha (hp.1 ▸ hp.2)
    rw [if_neg ha, if_neg hn]

end Directory

end Switchboard

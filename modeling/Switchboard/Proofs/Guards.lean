import Mathlib.Data.List.Induction
import Switchboard.Proofs.Histories
import Switchboard.Proofs.Ownership

/-!
# Guards and Generations

What the history of the locks says about who holds what. Holds are taken with a
guard or without one, given back by name, all at once or by dropping the guard,
and a guard may be dropped long after its hold is over. Whether a conversation
is held can be read off the history: it is if a hold on it was taken and nothing
ended that hold since.

A guard knows the generation of its hold and nothing else. That this tells the
holds apart is the one invariant here, `Locks.taken_injective`: generations are
never given out twice, whichever conversation they are for, and neither giving
back all holds nor taking one without a guard starts them anew.

Only guards that were given out and not dropped yet can be dropped. The history
says which these are, so that no assumption about it is needed.

## Main definitions

* `Locks.Action`: Something that is done with the locks.
* `Locks.Custody`: The locks and the guards that are about.
* `Locks.after`: What a history leads to.
* `Locks.Takes`: An action takes a hold.
* `Locks.Ends`: An action ends a hold that was taken by some action.
* `Locks.HeldSince`, `Locks.KeptSince`: A hold lasts, and a guard is about, since it was taken.

## Theorems

* `Locks.taken_injective`: No two holds have the same generation.
* `Locks.mem_guards_iff`: The guards that are about are those that were not dropped.
* `Locks.held_iff_since`: What is held was taken, and nothing ended it since.
* `Locks.generations_tell_apart`: What this means for holds, attempts to take them and guards.
-/

namespace Switchboard

namespace Locks

/-! ### Histories -/

/-- Something that is done with the locks. -/
inductive Action where
  /-- Try to take a hold without a guard. -/
  | acquire (conversation : String)
  /-- Try to take a hold with a guard. -/
  | guard (conversation : String)
  | release (conversation : String)
  | drop (g : Guard)
  | reset
  deriving DecidableEq

/-- The conversation that an action tries to take a hold on. -/
def Action.tries? : Action → Option String
  | .acquire c => some c
  | .guard c => some c
  | _ => none

/-- The locks, and the guards that were given out and not dropped yet. -/
structure Custody where
  locks : Locks
  guards : List Guard

namespace Custody

/-- What an action makes of the locks. A guard that is not about cannot be dropped. -/
def perform (s : Custody) : Action → Custody
  | .acquire c =>
    match s.locks.acquire? c with
    | none => s
    | some (_, locks) => { s with locks }
  | .guard c =>
    match s.locks.acquire? c with
    | none => s
    | some (g, locks) => ⟨locks, s.guards ++ [g]⟩
  | .release c => { s with locks := s.locks.release c }
  | .drop g =>
    ⟨if g ∈ s.guards then s.locks.drop g else s.locks, s.guards.filter fun other => other ≠ g⟩
  | .reset => { s with locks := s.locks.reset }

end Custody

/-- What a history of the locks leads to. -/
def after (actions : List Action) : Custody :=
  actions.foldl Custody.perform ⟨.fresh, []⟩

theorem after_snoc (actions : List Action) (a : Action) :
    after (actions ++ [a]) = (after actions).perform a := by
  rw [after, List.foldl_append]
  rfl

/-- After some history an action takes a hold on a conversation, which has the generation of the
    guard. -/
def Takes (before : List Action) (a : Action) (c : String) (g : Guard) : Prop :=
  a.tries? = some c ∧ ∃ locks, (after before).locks.acquire? c = some (g, locks)

/-- An action ends the hold of a guard that was taken by an action. Only an action that gives out a
    guard takes a hold that ends when the guard is dropped. -/
def Ends (a : Action) (g : Guard) : Action → Prop
  | .release c => c = g.conversation
  | .drop g' => a = .guard g.conversation ∧ g' = g
  | .reset => True
  | _ => False

/-- A hold was taken in a history and nothing ended it since. -/
def HeldSince (actions : List Action) (g : Guard) : Prop :=
  ∃ first a rest, actions = first ++ a :: rest ∧ Takes first a g.conversation g ∧
    ∀ b ∈ rest, ¬Ends a g b

/-- A guard was given out in a history and not dropped since. -/
def KeptSince (actions : List Action) (g : Guard) : Prop :=
  ∃ first rest, actions = first ++ .guard g.conversation :: rest ∧
    Takes first (.guard g.conversation) g.conversation g ∧ .drop g ∉ rest

/-! ### Steps -/

theorem takes_iff (before : List Action) (a : Action) (c : String) (g : Guard) :
    Takes before a c g ↔ a.tries? = some c ∧ (after before).locks.held.get? c = none ∧
      g = ⟨c, (after before).locks.taken + 1⟩ := by
  refine and_congr_right fun _ => ?_
  cases hheld : (after before).locks.held.get? c with
  | none => simp [acquire?_free _ _ hheld, eq_comm]
  | some n => simp [acquire?_held _ _ _ hheld]

/-- An action that does not try to take a hold takes none. -/
theorem not_takes (actions : List Action) (x : Action) (c : String) (g : Guard)
    (htries : x.tries? = none) : ¬Takes actions x c g := fun h =>
  absurd (htries.symm.trans h.1) (by simp)

/-- The guard of a hold is for the conversation. -/
theorem Takes.conversation {before : List Action} {a : Action} {c : String} {g : Guard}
    (h : Takes before a c g) : g.conversation = c := by
  rw [((takes_iff ..).mp h).2.2]

/-- A hold that can be taken is taken, and whoever asked for a guard gets one. -/
theorem Custody.perform_free (s : Custody) (a : Action) (c : String) (ha : a.tries? = some c)
    (hfree : s.locks.held.get? c = none) :
    s.perform a = ⟨s.locks.taking c,
      s.guards ++ match a with
        | .guard _ => [⟨c, s.locks.taken + 1⟩]
        | _ => []⟩ := by
  cases a with
  | acquire c' =>
      obtain rfl : c' = c := Option.some.inj ha
      simp only [perform, acquire?_free _ _ hfree, List.append_nil]
  | guard c' =>
      obtain rfl : c' = c := Option.some.inj ha
      simp only [perform, acquire?_free _ _ hfree]
  | release c' => exact absurd ha (by simp [Action.tries?])
  | drop g => exact absurd ha (by simp [Action.tries?])
  | reset => exact absurd ha (by simp [Action.tries?])

/-- A hold that cannot be taken is left alone. -/
theorem Custody.perform_held (s : Custody) (a : Action) (c : String) (n : Nat)
    (ha : a.tries? = some c) (hheld : s.locks.held.get? c = some n) : s.perform a = s := by
  cases a with
  | acquire c' =>
      obtain rfl : c' = c := Option.some.inj ha
      simp only [perform, acquire?_held _ _ _ hheld]
  | guard c' =>
      obtain rfl : c' = c := Option.some.inj ha
      simp only [perform, acquire?_held _ _ _ hheld]
  | release c' => exact absurd ha (by simp [Action.tries?])
  | drop g => exact absurd ha (by simp [Action.tries?])
  | reset => exact absurd ha (by simp [Action.tries?])

/-- An action that takes no hold keeps the number of holds ever taken. -/
theorem Custody.perform_taken (s : Custody) (a : Action) :
    s.locks.taken ≤ (s.perform a).locks.taken := by
  cases htries : a.tries? with
  | some c =>
      cases hheld : s.locks.held.get? c with
      | none =>
          rw [s.perform_free a c htries hheld]
          exact Nat.le_succ _
      | some n =>
          exact Nat.le_of_eq (by rw [s.perform_held a c n htries hheld])
  | none =>
      cases a with
      | acquire c => exact absurd htries (by simp [Action.tries?])
      | guard c => exact absurd htries (by simp [Action.tries?])
      | release c => exact Nat.le_refl _
      | drop g =>
          simp only [perform]
          split
          · exact Nat.le_of_eq (taken_drop ..).symm
          · exact Nat.le_refl _
      | reset => exact Nat.le_refl _

/-! ### Generations -/

theorem taken_le (first rest : List Action) :
    (after first).locks.taken ≤ (after (first ++ rest)).locks.taken := by
  induction rest using List.reverseRecOn with
  | nil => exact Nat.le_of_eq (by rw [List.append_nil])
  | append_singleton rest a ih =>
      rw [← List.append_assoc, after_snoc]
      exact Nat.le_trans ih (Custody.perform_taken _ a)

/-- A hold that is taken later has a greater generation. -/
theorem Takes.generation_lt {first mid : List Action} {a b : Action} {c c' : String} {g g' : Guard}
    (h : Takes first a c g) (h' : Takes (first ++ a :: mid) b c' g') :
    g.generation < g'.generation := by
  rw [takes_iff] at h h'
  rcases h with ⟨htries, hfree, rfl⟩
  rcases h' with ⟨-, -, rfl⟩
  have hle := taken_le (first ++ [a]) mid
  rw [after_snoc, Custody.perform_free _ a c htries hfree, List.append_assoc,
    List.singleton_append] at hle
  exact Nat.lt_succ_of_le hle

/-- No two holds have the same generation. -/
theorem taken_injective {first first' rest rest' : List Action} {a a' : Action} {c c' : String}
    {g g' : Guard} (hsplit : first ++ a :: rest = first' ++ a' :: rest') (h : Takes first a c g)
    (h' : Takes first' a' c' g') (hg : g.generation = g'.generation) :
    first = first' ∧ a = a' ∧ rest = rest' := by
  rcases List.append_eq_append_iff.mp hsplit with ⟨mid, rfl, hmid⟩ | ⟨mid, rfl, hmid⟩
  · cases mid with
    | nil => simpa using hmid
    | cons b mid =>
        -- The second hold was taken after the first.
        rw [List.cons_append, List.cons.injEq] at hmid
        rcases hmid with ⟨rfl, -⟩
        exact absurd hg (Nat.ne_of_lt (h.generation_lt h'))
  · cases mid with
    | nil => simpa [eq_comm] using hmid
    | cons b mid =>
        rw [List.cons_append, List.cons.injEq] at hmid
        rcases hmid with ⟨rfl, -⟩
        exact absurd hg.symm (Nat.ne_of_lt (h'.generation_lt h))

/-! ### Since -/

theorem heldSince_snoc (actions : List Action) (x : Action) (g : Guard) :
    HeldSince (actions ++ [x]) g ↔ Takes actions x g.conversation g ∨
      ∃ first a rest, actions = first ++ a :: rest ∧ Takes first a g.conversation g ∧
        (∀ b ∈ rest, ¬Ends a g b) ∧ ¬Ends a g x := by
  constructor
  · rintro ⟨first, a, rest, hsplit, htakes, hends⟩
    rcases (History.split_snoc ..).mp hsplit with ⟨-, rfl, rfl⟩ | ⟨rest', rfl, hsplit'⟩
    · exact Or.inl htakes
    · rw [List.forall_mem_append] at hends
      exact Or.inr ⟨first, a, rest', hsplit', htakes, hends.1,
        hends.2 x (List.mem_singleton_self x)⟩
  · rintro (htakes | ⟨first, a, rest, rfl, htakes, hends, hx⟩)
    · exact ⟨actions, x, [], rfl, htakes, by simp⟩
    · refine ⟨first, a, rest ++ [x], by simp, htakes, ?_⟩
      rw [List.forall_mem_append]
      exact ⟨hends, by simpa using hx⟩

/-- A hold lasts through an action that does not end it. -/
theorem heldSince_snoc_of_unended (actions : List Action) (x : Action) (g : Guard)
    (hx : ∀ a, ¬Ends a g x) :
    HeldSince (actions ++ [x]) g ↔ Takes actions x g.conversation g ∨ HeldSince actions g := by
  simp only [heldSince_snoc, hx, not_false_eq_true, and_true]
  rfl

/-- No hold lasts through an action that ends it, however it was taken. -/
theorem not_heldSince_snoc_of_ended (actions : List Action) (x : Action) (g : Guard)
    (hx : ∀ a, Ends a g x) (htries : x.tries? = none) : ¬HeldSince (actions ++ [x]) g := by
  simp [heldSince_snoc, hx, Takes, htries]

theorem keptSince_snoc (actions : List Action) (x : Action) (g : Guard) :
    KeptSince (actions ++ [x]) g ↔
      (x = .guard g.conversation ∧ Takes actions x g.conversation g) ∨
        (KeptSince actions g ∧ x ≠ .drop g) := by
  constructor
  · rintro ⟨first, rest, hsplit, htakes, hdrop⟩
    rcases (History.split_snoc ..).mp hsplit with ⟨-, rfl, rfl⟩ | ⟨rest', rfl, hsplit'⟩
    · exact Or.inl ⟨rfl, htakes⟩
    · rw [List.mem_append, List.mem_singleton, not_or] at hdrop
      exact Or.inr ⟨⟨first, rest', hsplit', htakes, hdrop.1⟩, fun hx => hdrop.2 hx.symm⟩
  · rintro (⟨rfl, htakes⟩ | ⟨⟨first, rest, rfl, htakes, hdrop⟩, hx⟩)
    · exact ⟨actions, [], rfl, htakes, List.not_mem_nil⟩
    · refine ⟨first, rest ++ [x], by simp, htakes, ?_⟩
      rw [List.mem_append, List.mem_singleton, not_or]
      exact ⟨hdrop, fun h => hx h.symm⟩

/-- The guards that are about are those that were given out and not dropped. -/
theorem mem_guards_iff (actions : List Action) (g : Guard) :
    g ∈ (after actions).guards ↔ KeptSince actions g := by
  induction actions using List.reverseRecOn with
  | nil =>
      refine ⟨fun h => absurd h List.not_mem_nil, ?_⟩
      rintro ⟨first, rest, hsplit, -⟩
      exact absurd hsplit (by simp)
  | append_singleton actions x ih =>
      rw [after_snoc, keptSince_snoc, ← ih, takes_iff]
      cases x with
      | acquire c =>
          have hguards :
              ((after actions).perform (.acquire c)).guards = (after actions).guards := by
            cases hheld : (after actions).locks.held.get? c with
            | none => rw [Custody.perform_free _ (.acquire c) c rfl hheld, List.append_nil]
            | some n => rw [Custody.perform_held _ (.acquire c) c n rfl hheld]
          simp [hguards]
      | guard c =>
          cases hheld : (after actions).locks.held.get? c with
          | none =>
              rw [Custody.perform_free _ (.guard c) c rfl hheld, List.mem_append,
                List.mem_singleton, or_comm]
              -- The guard that is given out is the new one.
              refine or_congr ⟨?_, fun h => ?_⟩ (by simp)
              · rintro rfl
                exact ⟨rfl, rfl, hheld, rfl⟩
              · rw [h.2.2.2, Action.guard.inj h.1]
          | some n =>
              rw [Custody.perform_held _ (.guard c) c n rfl hheld]
              refine ⟨fun h => Or.inr ⟨h, by simp⟩, ?_⟩
              rintro (⟨hc, -, hfree, -⟩ | h)
              · rw [← Action.guard.inj hc, hheld] at hfree
                exact absurd hfree (by simp)
              · exact h.1
      | release c => simp [Custody.perform]
      | drop g' =>
          simp only [Custody.perform, List.mem_filter, decide_eq_true_eq, reduceCtorEq, false_and,
            false_or, ne_eq, Action.drop.injEq]
          exact and_congr_right fun _ => not_congr eq_comm
      | reset => simp [Custody.perform]

/-- A hold lasts until its guard is dropped, if there is one. -/
theorem heldSince_snoc_drop (actions : List Action) (g : Guard) :
    HeldSince (actions ++ [.drop g]) g ↔ HeldSince actions g ∧ ¬KeptSince actions g := by
  rw [heldSince_snoc, or_iff_right (not_takes _ _ _ _ rfl)]
  constructor
  · rintro ⟨first, a, rest, hsplit, htakes, hends, hdrop⟩
    refine ⟨⟨first, a, rest, hsplit, htakes, hends⟩, ?_⟩
    -- The guard was given out with this very hold.
    rintro ⟨first', rest', hsplit', htakes', -⟩
    exact hdrop ⟨(taken_injective (hsplit.symm.trans hsplit') htakes htakes' rfl).2.1, rfl⟩
  · rintro ⟨⟨first, a, rest, hsplit, htakes, hends⟩, hkept⟩
    refine ⟨first, a, rest, hsplit, htakes, hends, ?_⟩
    rintro ⟨rfl, -⟩
    exact hkept ⟨first, rest, hsplit, htakes, fun hmem => hends _ hmem ⟨rfl, rfl⟩⟩

/-- What is held after an attempt to take a hold is what was taken and what was held before. -/
theorem held_perform_of_tries (actions : List Action) (x : Action) (c c' : String) (n : Nat)
    (htries : x.tries? = some c') :
    ((after actions).perform x).locks.held.get? c = some n ↔
      Takes actions x c ⟨c, n⟩ ∨ (after actions).locks.held.get? c = some n := by
  rw [takes_iff, htries]
  cases hheld : (after actions).locks.held.get? c' with
  | none =>
      rw [Custody.perform_free _ x c' htries hheld, held_taking]
      by_cases hc : c = c'
      · subst hc
        simp [hheld, eq_comm]
      · have hc' : ¬c' = c := fun h => hc h.symm
        simp [hc, hc']
  | some m =>
      rw [Custody.perform_held _ x c' m htries hheld, or_iff_right]
      rintro ⟨hc, hfree, -⟩
      rw [← Option.some.inj hc, hheld] at hfree
      exact absurd hfree (by simp)

/-- What is held was taken, and nothing ended it since. -/
theorem held_iff_since (actions : List Action) (c : String) (n : Nat) :
    (after actions).locks.held.get? c = some n ↔ HeldSince actions ⟨c, n⟩ := by
  induction actions using List.reverseRecOn with
  | nil =>
      refine ⟨fun h => absurd h (by simp [after, fresh]), ?_⟩
      rintro ⟨first, a, rest, hsplit, -⟩
      exact absurd hsplit (by simp)
  | append_singleton actions x ih =>
      rw [after_snoc]
      cases x with
      | acquire c' =>
          rw [held_perform_of_tries _ _ c c' n rfl, ih]
          exact (heldSince_snoc_of_unended actions (.acquire c') ⟨c, n⟩ fun _ => id).symm
      | guard c' =>
          rw [held_perform_of_tries _ _ c c' n rfl, ih]
          exact (heldSince_snoc_of_unended actions (.guard c') ⟨c, n⟩ fun _ => id).symm
      | release c' =>
          rw [Custody.perform, held_release]
          by_cases hc : c = c'
          · rw [if_pos hc]
            have hends : ∀ a, Ends a ⟨c, n⟩ (.release c') := fun _ => hc.symm
            exact iff_of_false (by simp) (not_heldSince_snoc_of_ended _ _ _ hends rfl)
          · have hends : ∀ a, ¬Ends a ⟨c, n⟩ (.release c') := fun _ h => hc (Eq.symm h)
            rw [if_neg hc, ih, heldSince_snoc_of_unended _ _ _ hends,
              or_iff_right (not_takes _ _ _ _ rfl)]
      | drop g =>
          -- A guard that is not about frees nothing, nor does one for another hold.
          simp only [Custody.perform]
          by_cases hg : g = ⟨c, n⟩
          · subst hg
            rw [heldSince_snoc_drop, ← mem_guards_iff, ← ih]
            by_cases hmem : (⟨c, n⟩ : Guard) ∈ (after actions).guards
            · rw [if_pos hmem, held_drop]
              simp [hmem]
            · simp [hmem]
          · have hother : ∀ a, ¬Ends a ⟨c, n⟩ (.drop g) := fun _ h => hg h.2
            rw [heldSince_snoc_of_unended _ _ _ hother, or_iff_right (not_takes _ _ _ _ rfl), ← ih]
            split
            · rw [held_drop]
              -- The guard would have to be for the hold that was found.
              by_cases hown : c = g.conversation ∧
                  (after actions).locks.held.get? c = some g.generation
              · rw [if_pos hown, hown.2, Option.some.injEq]
                exact iff_of_false (by simp) fun hn => hg (by rw [← hn, hown.1])
              · rw [if_neg hown]
            · exact Iff.rfl
      | reset =>
          exact iff_of_false (by simp [Custody.perform, Locks.reset])
            (not_heldSince_snoc_of_ended _ _ _ (fun _ => trivial) rfl)

/-! ### What this means -/

theorem isHeld_iff_since (actions : List Action) (c : String) :
    (after actions).locks.isHeld c = true ↔ ∃ n, HeldSince actions ⟨c, n⟩ := by
  simp only [← held_iff_since, isHeld, Table.contains, Option.isSome_iff_exists]

/-- Between two holds on a conversation the first one is ended. -/
theorem Takes.ended_between {first mid : List Action} {a b : Action} {c : String} {g g' : Guard}
    (h : Takes first a c g) (h' : Takes (first ++ a :: mid) b c g') : ∃ x ∈ mid, Ends a g x := by
  by_contra hnone
  obtain rfl := h.conversation
  have hsince : HeldSince (first ++ a :: mid) g :=
    ⟨first, a, mid, rfl, h, fun x hx hends => hnone ⟨x, hx, hends⟩⟩
  have hfree := ((takes_iff ..).mp h').2.1
  rw [(held_iff_since ..).mpr hsince] at hfree
  exact absurd hfree (by simp)

/-- Whether a conversation was given back by name, or all were, among some actions. -/
def GivenBack (c : String) (actions : List Action) : Prop :=
  .release c ∈ actions ∨ .reset ∈ actions

section

variable {first rest : List Action} {c : String} {g : Guard}

/-- What ended the hold of a guard that was not dropped gave it back in another way. -/
theorem givenBack_of_ends (a : Action) (hkept : .drop g ∉ rest) (b : Action) (hb : b ∈ rest)
    (hends : Ends a g b) : GivenBack g.conversation rest := by
  cases b with
  | acquire => exact hends.elim
  | guard => exact hends.elim
  | release c' =>
      obtain rfl : c' = g.conversation := hends
      exact Or.inl hb
  | drop g' =>
      obtain rfl : g' = g := hends.2
      exact absurd hb hkept
  | reset => exact Or.inr hb

/-- The hold of a guard that was not dropped lasts until it is given back in another way. -/
theorem Takes.held_iff (h : Takes first (.guard c) c g) (hkept : .drop g ∉ rest) :
    (after (first ++ .guard c :: rest)).locks.held.get? c = some g.generation ↔
      ¬GivenBack c rest := by
  obtain rfl := h.conversation
  rw [held_iff_since]
  constructor
  · rintro ⟨first', a, rest', hsplit, htakes, hends⟩ hback
    rcases taken_injective hsplit h htakes rfl with ⟨rfl, rfl, rfl⟩
    rcases hback with hback | hback
    · exact hends _ hback rfl
    · exact hends _ hback trivial
  · exact fun hback => ⟨first, _, rest, rfl, h, fun b hb hends =>
      hback (givenBack_of_ends _ hkept b hb hends)⟩

/-- What is left of the locks when a guard is dropped that was not dropped before. -/
theorem Takes.perform_drop (h : Takes first (.guard c) c g) (hkept : .drop g ∉ rest) :
    ((after (first ++ .guard c :: rest)).perform (.drop g)).locks =
      (after (first ++ .guard c :: rest)).locks.drop g := by
  obtain rfl := h.conversation
  have hmem : g ∈ (after (first ++ .guard g.conversation :: rest)).guards :=
    (mem_guards_iff ..).mpr ⟨first, rest, rfl, h, hkept⟩
  simp only [Custody.perform, if_pos hmem]

end

/-- What the history says about holds and guards, whatever was done with the locks.

    A conversation is held if and only if the last hold that was taken on it was not followed by
    giving it back, by a reset or by dropping the guard that came with it. An attempt to take a hold
    succeeds if and only if the conversation is not held, and changes nothing otherwise. Dropping a
    guard, however late, frees its conversation if and only if the conversation was neither given
    back nor reset since the guard was given out, leaves a hold alone that was taken later, and
    never touches another conversation. Between two holds on a conversation the first one was
    ended. -/
theorem generations_tell_apart (actions : List Action) (c : String) :
    ((after actions).locks.isHeld c = true ↔
      ∃ first a rest g, actions = first ++ a :: rest ∧ Takes first a c g ∧
        (∀ mid b late g', rest = mid ++ b :: late → ¬Takes (first ++ a :: mid) b c g') ∧
        ∀ b ∈ rest, ¬Ends a g b) ∧
    (∀ a, a.tries? = some c →
      ((∃ g, Takes actions a c g) ↔ (after actions).locks.isHeld c = false) ∧
      ((after actions).locks.isHeld c = true → after (actions ++ [a]) = after actions)) ∧
    (∀ first rest g, actions = first ++ .guard c :: rest → Takes first (.guard c) c g →
      .drop g ∉ rest →
      ((after actions).locks.isHeld c = true ∧
          (after (actions ++ [.drop g])).locks.isHeld c = false ↔
        .release c ∉ rest ∧ .reset ∉ rest) ∧
      (∀ mid b late g', rest = mid ++ b :: late → Takes (first ++ .guard c :: mid) b c g' →
        (after (actions ++ [.drop g])).locks = (after actions).locks) ∧
      ∀ c', c' ≠ c → (after (actions ++ [.drop g])).locks.held.get? c' =
        (after actions).locks.held.get? c') ∧
    ∀ first a mid b late g g', actions = first ++ a :: mid ++ b :: late → Takes first a c g →
      Takes (first ++ a :: mid) b c g' → ∃ x ∈ mid, Ends a g x := by
  refine ⟨?_, fun a ha => ⟨?_, fun hheld => ?_⟩, fun first rest g hsplit htakes hkept => ?_,
    fun first a mid b late g g' _ h h' => h.ended_between h'⟩
  · rw [isHeld_iff_since]
    constructor
    · rintro ⟨n, first, a, rest, hsplit, htakes, hends⟩
      refine ⟨first, a, rest, _, hsplit, htakes, fun mid b late g' hrest hlater => ?_, hends⟩
      rcases htakes.ended_between hlater with ⟨x, hx, hx'⟩
      exact hends x (by rw [hrest]; exact List.mem_append_left _ hx) hx'
    · rintro ⟨first, a, rest, g, hsplit, htakes, -, hends⟩
      obtain rfl := htakes.conversation
      exact ⟨g.generation, first, a, rest, hsplit, htakes, hends⟩
  · simp only [takes_iff, ha, true_and, isHeld, Table.contains, Option.isSome_eq_false_iff,
      Option.isNone_iff_eq_none]
    constructor
    · rintro ⟨g, hfree, -⟩
      exact hfree
    · exact fun hfree => ⟨_, hfree, rfl⟩
  · rcases Option.isSome_iff_exists.mp hheld with ⟨n, hn⟩
    rw [after_snoc, Custody.perform_held _ a c n ha hn]
  · subst hsplit
    have hconv := htakes.conversation
    have hheld := htakes.held_iff hkept
    rw [after_snoc, htakes.perform_drop hkept]
    refine ⟨?_, fun mid b late g' hrest hlater => ?_, fun c' hc' => ?_⟩
    · rw [← not_or, ← GivenBack, ← hheld]
      simp only [isHeld, Table.contains, held_drop, hconv]
      cases hn : (after (first ++ .guard c :: rest)).locks.held.get? c with
      | none => simp
      | some n => by_cases hown : n = g.generation <;> simp [hown]
    -- The later hold was taken after the conversation was given back.
    · rcases htakes.ended_between hlater with ⟨x, hx, hends⟩
      have hx' : x ∈ rest := by
        rw [hrest]
        exact List.mem_append_left _ hx
      refine drop_stale _ _ ?_
      rw [hconv, Ne, hheld, Classical.not_not, ← hconv]
      exact givenBack_of_ends _ hkept x hx' hends
    · rw [held_drop, hconv, if_neg fun h => hc' h.1]

/-- A guard that is dropped after its conversation was given back and taken again frees nothing. -/
theorem stale_guard_frees_nothing :
    (after [.guard "c", .release "c", .guard "c", .drop ⟨"c", 1⟩]).locks =
      (after [.guard "c", .release "c", .guard "c"]).locks :=
  ((generations_tell_apart [.guard "c", .release "c", .guard "c"] "c").2.2.1 []
    [.release "c", .guard "c"] ⟨"c", 1⟩ rfl ⟨rfl, _, rfl⟩ (by decide)).2.1
      [.release "c"] (.guard "c") [] ⟨"c", 2⟩ rfl ⟨rfl, _, rfl⟩

end Locks

end Switchboard

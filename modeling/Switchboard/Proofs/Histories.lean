/-!
# Places in a History

A history is a list of steps, the latest one at the end. What a history says is
often said by a place in it: something was done there, in the state that the
steps before led to, and nothing that was done afterwards put an end to it. That
such a statement agrees with a state is shown one step at a time, and a step that
is added at the end is either the place itself or comes after it.

## Main definitions

* `History.Since`: Something began in a history and has not ended.

## Theorems

* `History.split_snoc`: The places in a history with one more step.
* `History.since_snoc`: What one more step makes of what has begun.
-/

namespace Switchboard

namespace History

variable {α σ : Type}

/-- A place in a history with one more step is the end of it or a place before. -/
theorem split_snoc (history first rest : List α) (a x : α) :
    history ++ [x] = first ++ a :: rest ↔
      (rest = [] ∧ first = history ∧ a = x) ∨
        ∃ rest', rest = rest' ++ [x] ∧ history = first ++ a :: rest' := by
  constructor
  -- The rest is empty, or it ends with the new one.
  · intro h
    rcases List.eq_nil_or_concat rest with rfl | ⟨rest', y, rfl⟩
    · have hends := List.append_inj' h rfl
      exact Or.inl ⟨rfl, hends.1.symm, (List.singleton_inj.mp hends.2).symm⟩
    · rw [List.concat_eq_append, ← List.cons_append, ← List.append_assoc] at h
      have hends := List.append_inj' h rfl
      rw [List.singleton_inj.mp hends.2]
      exact Or.inr ⟨rest', List.concat_eq_append, hends.1⟩
  · rintro (⟨rfl, rfl, rfl⟩ | ⟨rest', rfl, rfl⟩)
    · rfl
    · simp

/-- Something began with a step of a history, and no later step ended it. Whether a step begins or
    ends it may depend on the state that the step is made in. -/
def Since (step : σ → α → σ) (s : σ) (begins ends : σ → α → Prop) (history : List α) : Prop :=
  ∃ first a rest, history = first ++ a :: rest ∧ begins (first.foldl step s) a ∧
    ∀ mid x late, rest = mid ++ x :: late → ¬ends ((first ++ a :: mid).foldl step s) x

section

variable (step : σ → α → σ) (s : σ) (begins ends : σ → α → Prop)

theorem not_since_nil : ¬Since step s begins ends [] := by
  rintro ⟨first, a, rest, hsplit, -⟩
  exact absurd hsplit (by simp)

/-- What has begun in a history with one more step began with this step, or it had begun before and
    this step does not end it. -/
theorem since_snoc (history : List α) (x : α) :
    Since step s begins ends (history ++ [x]) ↔
      begins (history.foldl step s) x ∨
        (Since step s begins ends history ∧ ¬ends (history.foldl step s) x) := by
  constructor
  -- The latest beginning is the new one, or an earlier one that the new one does not end.
  · rintro ⟨first, a, rest, hsplit, hbegins, hends⟩
    rcases (split_snoc ..).mp hsplit with ⟨-, rfl, rfl⟩ | ⟨rest', rfl, rfl⟩
    · exact Or.inl hbegins
    · refine Or.inr ⟨⟨first, a, rest', rfl, hbegins, ?_⟩, hends rest' x [] rfl⟩
      intro mid y late hrest
      exact hends mid y (late ++ [x]) (by rw [hrest, List.append_assoc, List.cons_append])
  · rintro (hbegins | ⟨⟨first, a, rest, rfl, hbegins, hends⟩, hx⟩)
    · refine ⟨history, x, [], rfl, hbegins, fun mid y late hrest => ?_⟩
      exact absurd hrest (by simp)
    · refine ⟨first, a, rest ++ [x], by simp, hbegins, fun mid y late hrest => ?_⟩
      rcases (split_snoc ..).mp hrest with ⟨-, rfl, rfl⟩ | ⟨late', -, hrest'⟩
      · exact hx
      · exact hends mid y late' hrest'

end

end History

end Switchboard

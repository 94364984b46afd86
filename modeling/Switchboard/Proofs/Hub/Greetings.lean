import Switchboard.Proofs.Hub.Isolation
import Switchboard.Proofs.Hub.Numbering

/-!
# Greetings

A connection that joins a conversation on which a run is active is sent the
state of that run, once and before anything else of the conversation. What
makes this the first thing is not what happens after the connection has joined,
since then everything is numbered, but what happened before: a connection that
does not follow a conversation was never on its topic, because it would still be
on it, and so nothing of it was ever addressed to it.

A connection that goes does not come back. So a stretch of its life is one on
which it stays on its topics, and after that nothing is addressed to it.

## Main definitions

* `Hub.sentOn`: What some actions address to a connection on a topic.

## Theorems

* `Roster.numbered?_follow`: What takes a number when a connection joins a conversation.
* `Hub.subscribe?_eq`, `Hub.addressed_follow`: What is reported and addressed then.
* `Hub.sentOn_stranger`: Nothing was addressed to a connection on a topic that it is not on.
* `Hub.sentOn_above`: What is addressed to a connection on a topic has the numbers to come.
-/

namespace Switchboard

/-! ### Joining -/

namespace Roster

/-- A run's state is sent to a connection if it is there and did not follow the conversation. -/
theorem counts_follow_iff (r : Roster) (connection : Nat) (id : String)
    (active : Option Snapshot) :
    r.counts (.follow connection id active) = true ↔
      r.isAttached connection = true ∧ ¬r.Follows connection id := by
  rw [counts, isAttached, Table.contains, Follows]
  cases hsub : r.subscribers.get? connection <;> simp

/-- What takes a number when a connection joins a conversation is the state of the run. -/
theorem numbered?_follow (r : Roster) (connection : Nat) (id : String)
    (active : Option Snapshot)
    (h : r.isAttached connection = true ∧ ¬r.Follows connection id) :
    r.numbered? (.conversation id) (.follow connection id active) =
      active.map Frame.Body.snapshot := by
  have hcounts := (r.counts_follow_iff connection id active).mpr h
  cases active with
  | none => exact r.numbered?_of_silent _ _ rfl
  | some snapshot => exact r.numbered?_of_message _ _ _ rfl hcounts

/-- Nothing takes a number if the connection is not there or followed the conversation before. -/
theorem numbered?_follow_again (r : Roster) (connection : Nat) (id : String)
    (active : Option Snapshot) (name : TopicName)
    (h : ¬(r.isAttached connection = true ∧ ¬r.Follows connection id)) :
    r.numbered? name (.follow connection id active) = none := by
  rw [← r.counts_follow_iff connection id active, Bool.not_eq_true] at h
  exact r.numbered?_of_uncounted _ _ h

end Roster

namespace Hub

/-- What is addressed when a connection joins a conversation is what takes a number then, and it
    is addressed to that connection. -/
theorem addressed_follow (hub : Hub) (connection other : Nat) (id : String)
    (active : Option Snapshot) :
    hub.addressed other (.follow connection id active) =
      if other = connection then
        (hub.issues? (.conversation id) (.follow connection id active)).toList
      else [] := by
  rw [addressed, issues?]
  -- A connection that has not come cannot join.
  cases hsub : hub.roster.subscribers.get? connection with
  | none =>
      rcases hub.roster.act_follow_absent connection id active hsub with ⟨hact, hcounts⟩
      rw [hact, hub.roster.numbered?_of_uncounted _ _ hcounts]
      simp
  | some sub =>
      rw [hub.roster.act_follow connection id active sub hsub]
      cases hub.roster.numbered? (.conversation id) (.follow connection id active) with
      | none => simp
      | some body =>
          -- Only who joins is told the state of the run.
          by_cases ho : other = connection
          · subst ho
            simp [framesFor, Roster.topicOf]
          · have ho' : ¬connection = other := fun h => ho h.symm
            simp [framesFor, ho, ho']

/-- It is reported whether anything was addressed. -/
theorem subscribe?_eq (hub : Hub) (connection : Nat) (id : String) (active : Option Snapshot)
    (h : hub.roster.isAttached connection = true) :
    hub.subscribe? connection id active =
      some ((hub.issues? (.conversation id) (.follow connection id active)).isSome,
        hub.act (.follow connection id active)) := by
  -- Joining is answered with whether the state of a run was sent.
  rcases Option.isSome_iff_exists.mp h with ⟨sub, hsub⟩
  have hact := congrArg Prod.fst (hub.roster.act_follow connection id active sub hsub)
  rw [Roster.act] at hact
  cases hjoin : hub.roster.joinConversation? connection id active with
  | none =>
      rw [Roster.joinConversation?, hsub] at hjoin
      exact absurd hjoin (by simp)
  | some p =>
      rw [hjoin, Option.getD_some] at hact
      have hsent : (!p.1.isEmpty) =
          (hub.issues? (.conversation id) (.follow connection id active)).isSome := by
        rw [hact, issues?]
        cases hub.roster.numbered? (.conversation id) (.follow connection id active) <;> rfl
      rw [act, subscribe?, hjoin, ← hsent]
      rfl

/-! ### Staying -/

/-- The frames of a topic that some actions address to a connection, in order. -/
def sentOn (connection : Nat) (name : TopicName) (actions : List Action) (hub : Hub) :
    List Frame :=
  collect (fun hub => hub.sending connection name) actions hub

theorem sentOn_cons (connection : Nat) (name : TopicName) (a : Action) (rest : List Action)
    (hub : Hub) : sentOn connection name (a :: rest) hub =
      hub.sending connection name a ++ sentOn connection name rest (hub.act a) := rfl

theorem isAttached_of_actAll (actions : List Action) (hub : Hub) (connection : Nat)
    (hold : connection < hub.roster.opened)
    (hattached : (hub.actAll actions).roster.isAttached connection = true) :
    hub.roster.isAttached connection = true := by
  induction actions generalizing hub with
  | nil => exact hattached
  | cons a rest ih =>
      have hnext := ih (hub.act a) (Nat.lt_of_lt_of_le hold (hub.opened_le_act a)) hattached
      rw [act_roster] at hnext
      rcases hub.roster.isAttached_act a connection hnext with ⟨hbefore, -⟩ | ⟨-, hnew⟩
      · exact hbefore
      · exact absurd hnew (Nat.ne_of_lt hold)

variable {hub : Hub} (h : hub.roster.Orderly) (connection : Nat) (name : TopicName)

include h

theorem opened_of_isOn (hon : hub.roster.IsOn connection name) :
    connection < hub.roster.opened := by
  rcases Option.isSome_iff_exists.mp hon.isAttached with ⟨sub, hsub⟩
  exact h.opened connection sub hsub

/-- A connection that is still there is still on its topics. -/
theorem isOn_act (hon : hub.roster.IsOn connection name) (a : Action)
    (hattached : (hub.act a).roster.isAttached connection = true) :
    (hub.act a).roster.IsOn connection name := by
  rw [act_roster] at hattached ⊢
  rcases hub.roster.isAttached_act a connection hattached with ⟨-, hreset, hstay⟩ | ⟨-, hnew⟩
  · exact hon.act h.toSound a hreset hstay
  · exact absurd hnew (Nat.ne_of_lt (opened_of_isOn h connection name hon))

theorem isOn_actAll (hon : hub.roster.IsOn connection name) (actions : List Action)
    (hattached : (hub.actAll actions).roster.isAttached connection = true) :
    (hub.actAll actions).roster.IsOn connection name := by
  induction actions generalizing hub with
  | nil => exact hon
  | cons a rest ih =>
      have hopened := Nat.lt_of_lt_of_le (opened_of_isOn h connection name hon)
        (hub.opened_le_act a)
      have hnext := isAttached_of_actAll rest (hub.act a) connection hopened hattached
      exact ih (orderly_act h a) (isOn_act h connection name hon a hnext) hattached

omit h in
/-- A connection that is gone does not come back, and nothing is addressed to it any more. -/
theorem sentOn_gone (h : hub.roster.Orderly) (hold : connection < hub.roster.opened)
    (hgone : ¬hub.roster.isAttached connection = true) (actions : List Action) :
    sentOn connection name actions hub = [] := by
  induction actions generalizing hub with
  | nil => rfl
  | cons a rest ih =>
      have hstill : ¬(hub.act a).roster.isAttached connection = true :=
        fun hback => hgone (isAttached_of_actAll [a] hub connection hold hback)
      have hnow : hub.sending connection name a = [] := by
        rcases sending_cases h connection name a with hnone | ⟨f, -, -, hattached, -, -⟩
        · exact hnone
        · exact absurd hattached hgone
      rw [sentOn_cons, hnow, List.nil_append]
      exact ih (orderly_act h a) (Nat.lt_of_lt_of_le hold (hub.opened_le_act a)) hstill

/-- Nothing was addressed on a topic to a connection that is there and not on it: it would still be
    on it. -/
theorem sentOn_stranger (actions : List Action)
    (hattached : (hub.actAll actions).roster.isAttached connection = true)
    (hoff : ¬(hub.actAll actions).roster.IsOn connection name) :
    sentOn connection name actions hub = [] := by
  induction actions generalizing hub with
  | nil => rfl
  | cons a rest ih =>
      have hnow : hub.sending connection name a = [] := by
        rcases sending_cases h connection name a with hnone | ⟨f, -, -, -, hon, -⟩
        · exact hnone
        · exact absurd (isOn_actAll (orderly_act h a) connection name hon rest hattached) hoff
      rw [sentOn_cons, hnow, List.nil_append]
      exact ih (orderly_act h a) hattached hoff

/-- What is addressed on a topic to a connection that is on it has the numbers to come. -/
theorem sentOn_above (hon : hub.roster.IsOn connection name) (actions : List Action) :
    ∀ f ∈ sentOn connection name actions hub,
      ∃ n, f.seq = some n ∧ (hub.roster.topicOf name).nextSeq ≤ n := by
  induction actions generalizing hub with
  | nil => exact fun f hf => absurd hf List.not_mem_nil
  | cons a rest ih =>
      intro f hf
      rw [sentOn_cons] at hf
      rcases List.mem_append.mp hf with hnow | hlater
      · rcases sending_cases h connection name a with hnone | ⟨g, -, hseq, -, -, hone⟩
        · rw [hnone] at hnow
          exact absurd hnow List.not_mem_nil
        · rw [hone, List.mem_singleton] at hnow
          exact ⟨_, hnow ▸ hseq, Nat.le_refl _⟩
      · by_cases hattached : (hub.act a).roster.isAttached connection = true
        · have hstill := isOn_act h connection name hon a hattached
          rcases ih (orderly_act h a) hstill f hlater with ⟨n, hseq, hle⟩
          rw [nextSeq_on h connection name a hstill] at hle
          exact ⟨n, hseq, Nat.le_of_add_right_le hle⟩
        -- Whoever has gone is sent nothing more.
        · have hopened := Nat.lt_of_lt_of_le (opened_of_isOn h connection name hon)
            (hub.opened_le_act a)
          rw [sentOn_gone connection name (orderly_act h a) hopened hattached rest] at hlater
          exact absurd hlater List.not_mem_nil

end Hub

end Switchboard

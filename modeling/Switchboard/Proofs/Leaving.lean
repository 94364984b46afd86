import Switchboard.Proofs.Followers
import Switchboard.Proofs.Hub.Greetings
import Switchboard.Proofs.Hub.Presence

/-!
# Connections That Leave

A connection that is in the hub stays there until it goes itself, whatever others
do, and one that has gone does not come back, because no number is given twice.
Both are kept by every move of the coordinator (with the one exception that makes
the difference), so that they hold from the move on with which they begin.

The order of the hub is carried along. It is what lets a connection that is gone be
missing from the lists of the topics as well as from its own.

## Main definitions

* `Coordinator.IsThere`, `Coordinator.IsGone`: A connection is in the hub, or it has left it.

## Theorems

* `Roster.isAttached_stays`: Which actions leave a connection where it is.
* `Coordinator.IsThere.perform`, `Coordinator.IsGone.perform`: What moves keep.
* `Coordinator.IsThere.isGone`: A connection that goes is gone.
* `Coordinator.IsGone.belongs`: A connection that is gone belongs to no topic.
-/

namespace Switchboard

/-- A connection that is there stays, unless it goes or everybody does. -/
theorem Roster.isAttached_stays (r : Roster) (a : Hub.Action) (connection : Nat)
    (h : r.isAttached connection = true) (hreset : a ≠ .reset)
    (hdetach : a ≠ .detach connection) : (r.act a).2.isAttached connection = true := by
  unfold isAttached Table.contains at h ⊢
  -- A subscriber may be put in another one's place, but is never taken away.
  have hput (other : Nat) (sub : Subscriber) :
      ((r.subscribers.insert other sub).get? connection).isSome = true := by
    rw [Table.get?_insert]
    by_cases hc : connection = other
    · rw [if_pos hc, Option.isSome_some]
    · rw [if_neg hc, h]
  cases a with
  | attach capacity => exact hput r.opened _
  | detach other =>
      rw [Roster.act, subscribers_detach, if_neg fun hc => hdetach (by rw [hc]), h]
  | reset => exact absurd rfl hreset
  | close | take => exact h
  | followSidebar other =>
      simp only [Roster.act, joinSidebar?]
      cases r.subscribers.get? other with
      | none => exact h
      | some sub => exact hput other _
  | follow other id active =>
      cases hother : r.subscribers.get? other with
      | none =>
          rw [(r.act_follow_absent other id active hother).1]
          exact h
      | some sub =>
          rw [r.act_follow other id active sub hother]
          exact hput other _
  | tell announcement =>
      cases announcement with
      | sidebar event => exact h
      | conversation id event =>
          simp only [Roster.act, publish?]
          cases r.topics.get? id <;> exact h

/-- So does everything that does not take a connection away. -/
theorem Hub.isAttached_actAll {connection : Nat} (actions : List Action) (hub : Hub)
    (hactions : ∀ a ∈ actions, a ≠ .reset ∧ a ≠ .detach connection)
    (h : hub.roster.isAttached connection = true) :
    (hub.actAll actions).roster.isAttached connection = true := by
  induction actions generalizing hub with
  | nil => exact h
  | cons a rest ih =>
      obtain ⟨⟨hreset, hdetach⟩, hrest⟩ := List.forall_mem_cons.mp hactions
      refine ih (hub.act a) hrest ?_
      rw [act_roster]
      exact hub.roster.isAttached_stays a connection h hreset hdetach

/-- No number of a connection is taken back. -/
theorem Hub.opened_le_actAll (hub : Hub) (actions : List Action) :
    hub.roster.opened ≤ (hub.actAll actions).roster.opened := by
  induction actions generalizing hub with
  | nil => exact Nat.le_refl _
  | cons a rest ih => exact Nat.le_trans (hub.opened_le_act a) (ih _)

namespace Coordinator

/-- Whether a connection is there, in a hub that is in order. -/
structure IsThere (s : Coordinator) (connection : Nat) : Prop where
  opened : connection < s.hub.roster.opened
  attached : s.hub.roster.isAttached connection = true
  orderly : s.hub.roster.Orderly

/-- Whether a connection has been there and is there no more. -/
structure IsGone (s : Coordinator) (connection : Nat) : Prop where
  opened : connection < s.hub.roster.opened
  absent : ¬s.hub.roster.isAttached connection = true
  orderly : s.hub.roster.Orderly

section

variable {s : Coordinator} {connection : Nat}

theorem opened_le_perform (s : Coordinator) (m : Move) :
    s.hub.roster.opened ≤ (s.perform m).hub.roster.opened := by
  rw [perform_hub]
  exact s.hub.opened_le_actAll _

theorem orderly_perform (h : s.hub.roster.Orderly) (m : Move) :
    (s.perform m).hub.roster.Orderly := by
  rw [perform_hub]
  exact Hub.orderly_actAll h _

/-- A connection that is there stays, unless it goes. -/
theorem IsThere.perform (h : s.IsThere connection) (m : Move) (hm : m ≠ .detach connection) :
    (s.perform m).IsThere connection where
  opened := Nat.lt_of_lt_of_le h.opened (s.opened_le_perform m)
  attached := by
    rw [perform_hub]
    exact Hub.isAttached_actAll _ _ (s.hubActions_stay connection m hm) h.attached
  orderly := orderly_perform h.orderly m

/-- A connection that goes is gone. -/
theorem IsThere.isGone (h : s.IsThere connection) :
    (s.perform (.detach connection)).IsGone connection where
  opened := Nat.lt_of_lt_of_le h.opened (s.opened_le_perform _)
  absent := by
    show ¬((s.hub.roster.detach connection).subscribers.get? connection).isSome = true
    rw [Roster.subscribers_detach, if_pos rfl]
    simp
  orderly := orderly_perform h.orderly _

/-- A connection that is gone does not come back. -/
theorem IsGone.perform (h : s.IsGone connection) (m : Move) :
    (s.perform m).IsGone connection where
  opened := Nat.lt_of_lt_of_le h.opened (s.opened_le_perform m)
  absent hback := by
    rw [perform_hub] at hback
    exact h.absent (Hub.isAttached_of_actAll _ s.hub connection h.opened hback)
  orderly := orderly_perform h.orderly m

/-- A connection that is gone belongs to no topic, as far as it and the topics are concerned. -/
theorem IsGone.belongs (h : s.IsGone connection) (name : TopicName) :
    ¬s.hub.roster.IsOn connection name ∧
      connection ∉ (s.hub.roster.topicOf name).members := by
  have hoff : ¬s.hub.roster.IsOn connection name := fun hon => h.absent hon.isAttached
  exact ⟨hoff, fun hmem => hoff ((h.orderly.mem_iff connection name).mp hmem)⟩

end

end Coordinator

end Switchboard

import Switchboard.Echo
import Switchboard.Proofs.Progress

/-!
# The Course of a Turn

What becomes of a turn depends on what happens around it: on how large its channel
is and how fast it is emptied, on how long somebody listens, and on when the run is
cancelled. A course is a turn under way together with its channel, and a list of
incidents says what happens to it, in any order and any number of times. A turn
that goes on may be made to stop after any number of events, so that a cancellation
can fall between any two of them.

The turns looked at here heed the cancellation of the run in everything they do, and
the last thing they do is to send an event. Such a turn is attentive. It ends with
the outcome it was meant to have exactly when everything was sent, because what
makes it give up is always the wait for an event that has not been sent yet.

## Main definitions

* `Turn.Course`, `Turn.Incident`: A turn under way, and what can happen to it.
* `Turn.Course.step`, `Turn.Course.run`: One incident, and several of them.
* `Turn.Attentive`: Every action heeds the cancellation, and the last one sends.
* `Turn.Course.Stands`: The three ways in which a course can stand.

## Theorems

* `Turn.advance_attentive`: How far an attentive turn gets.
* `Turn.Course.run_stands`: Nothing that happens leaves the three ways.
* `Turn.Course.run_room`: The channel never holds more than it can take.
* `Turn.Course.run_stopped`: A cancelled turn sends nothing more.
* `Turn.Course.exists_end`: Only a full channel or a pause can hold a turn up.
* `Turn.perform_run`: A turn that is played on a stage takes a course.
-/

namespace Switchboard

namespace Turn

/-- A turn under way, and what is around it. -/
structure Course where
  now : Nat
  /-- The events that wait in the channel. -/
  channel : List ProviderEvent
  /-- Whether nobody listens to the channel any more. -/
  closed : Bool
  cancelled : Bool
  /-- What the turn has left to do. -/
  left : List Action
  /-- Everything the turn has sent. -/
  sent : List ProviderEvent
  /-- How the turn ended, if it did. -/
  result : Option (Except ProviderError String)

/-- What can happen to a turn. -/
inductive Incident where
  | pass (ms : Nat)
  /-- The first event is taken out of the channel. -/
  | take
  /-- Whoever listens stops doing so. -/
  | close
  | cancel
  /-- The turn goes on, until it has sent some number of events at the latest. -/
  | resume (limit : Nat)

/-- Whether an incident neither cancels the run nor closes the channel. -/
def Incident.IsOrdinary : Incident → Prop
  | .close => False
  | .cancel => False
  | _ => True

/-- Every one of some actions heeds the cancellation of the run, and the last one sends. -/
structure Attentive (actions : List Action) : Prop where
  heeds : ∀ a ∈ actions, a.isHeedful = true
  last : ∃ event, actions.getLast? = some (.send event true)

namespace Course

/-- A turn that begins. -/
def begin (turn : Turn) : Course :=
  ⟨0, [], false, false, turn.actions, [], none⟩

/-- What the turn finds. -/
def conditions (c : Course) : Conditions :=
  ⟨c.now, c.cancelled, c.closed⟩

/-- The number of events that the turn may send at once. -/
def room (capacity limit : Nat) (c : Course) : Nat :=
  min limit (capacity - c.channel.length)

/-- A course in which the turn got some way. -/
def advanced (c : Course) (p : List ProviderEvent × Advance) : Course :=
  let c := { c with channel := c.channel ++ p.1, sent := c.sent ++ p.1 }
  match p.2 with
  | .held rest _ => { c with left := rest }
  | .ended result => { c with left := [], result := some result }

/-- Let the turn go on, unless it has ended. -/
def resume (capacity : Nat) (outcome : Except ProviderError String) (limit : Nat) (c : Course) :
    Course :=
  match c.result with
  | some _ => c
  | none => c.advanced (advance c.conditions outcome (c.room capacity limit) c.left)

/-- What an incident makes of a course. -/
def step (capacity : Nat) (outcome : Except ProviderError String) (c : Course) :
    Incident → Course
  | .pass ms => { c with now := c.now + ms }
  | .take => { c with channel := c.channel.tail }
  | .close => { c with closed := true }
  | .cancel => { c with cancelled := true }
  | .resume limit => c.resume capacity outcome limit

/-- What several incidents make of a course, one after the other. -/
def run (capacity : Nat) (outcome : Except ProviderError String) (c : Course)
    (incidents : List Incident) : Course :=
  incidents.foldl (step capacity outcome) c

theorem run_append (capacity : Nat) (outcome : Except ProviderError String) (c : Course)
    (first second : List Incident) :
    c.run capacity outcome (first ++ second) =
      (c.run capacity outcome first).run capacity outcome second :=
  List.foldl_append

end Course

/-! ### Attentive turns -/

namespace Attentive

variable {action : Action} {rest : List Action}

theorem tail (h : Attentive (action :: rest)) (hne : rest ≠ []) : Attentive rest where
  heeds := (List.forall_mem_cons.mp h.heeds).2
  last := by
    obtain ⟨event, hlast⟩ := h.last
    rw [List.getLast?_cons_of_ne_nil hne] at hlast
    exact ⟨event, hlast⟩

theorem head (h : Attentive (action :: rest)) : action.isHeedful = true :=
  (List.forall_mem_cons.mp h.heeds).1

/-- The last action sends, so that another one has something after it. -/
theorem tail_ne_nil (h : Attentive (action :: rest)) (hsend : action.event? = none) :
    rest ≠ [] := by
  rintro rfl
  obtain ⟨event, hlast⟩ := h.last
  rw [List.getLast?_singleton, Option.some.injEq] at hlast
  rw [hlast] at hsend
  exact absurd hsend (by simp [Action.event?])

theorem ne_nil {actions : List Action} (h : Attentive actions) : actions ≠ [] := by
  rintro rfl
  obtain ⟨event, hlast⟩ := h.last
  exact absurd hlast (by simp)

theorem work_pos {actions : List Action} (h : Attentive actions) : 0 < work actions := by
  cases actions with
  | nil => exact absurd rfl h.ne_nil
  | cons action rest =>
      refine Nat.add_pos_left ?_ _
      cases action with
      | send | pause | waitUntil => exact Nat.succ_pos _
      | awaitCancel | stall => exact absurd h.head (by simp [Action.isHeedful])

/-- Something is left to be sent. -/
theorem sent_ne_nil {actions : List Action} (h : Attentive actions) : sent actions ≠ [] := by
  obtain ⟨event, hlast⟩ := h.last
  exact List.ne_nil_of_mem
    (List.mem_filterMap.mpr ⟨_, List.mem_of_getLast? hlast, rfl⟩ : event ∈ sent actions)

/-- A time that has been fixed for a pause takes the place of the pause. -/
theorem replace {other : Action} (h : Attentive (action :: rest)) (hne : rest ≠ [])
    (hother : other.isHeedful = true) : Attentive (other :: rest) where
  heeds := List.forall_mem_cons.mpr ⟨hother, (List.forall_mem_cons.mp h.heeds).2⟩
  last := by
    obtain ⟨event, hlast⟩ := (h.tail hne).last
    exact ⟨event, by rw [List.getLast?_cons_of_ne_nil hne, hlast]⟩

end Attentive

/-- How far an attentive turn can get: it is held up with an attentive rest, it ends as it was
    meant to, or it gives up before it sends anything. -/
inductive Progress (k : Conditions) (outcome : Except ProviderError String)
    (actions : List Action) : List ProviderEvent × Advance → Prop where
  | held (events : List ProviderEvent) (rest : List Action) (hold : Hold)
      (hsent : sent actions = events ++ sent rest) (hrest : Attentive rest)
      (hwork : work rest ≤ work actions) :
      Progress k outcome actions (events, .held rest hold)
  | complete (hcancelled : k.cancelled = false) (hclosed : k.closed = false) :
      Progress k outcome actions (sent actions, .ended outcome)
  | givenUp (hwhy : k.cancelled = true ∨ k.closed = true) :
      Progress k outcome actions ([], .ended (.error .cancelled))

namespace Progress

variable {k : Conditions} {outcome : Except ProviderError String} {action : Action}
  {rest : List Action} {p : List ProviderEvent × Advance}

theorem work_le {actions : List Action} (h : Progress k outcome actions p) :
    p.2.work ≤ Turn.work actions := by
  cases h with
  | held events rest hold hsent hrest hwork => exact hwork
  | complete | givenUp => exact Nat.zero_le _

/-- An action that sends nothing can be put in front. -/
theorem skip (h : Progress k outcome rest p) (hevent : action.event? = none) :
    Progress k outcome (action :: rest) p := by
  have hsent : sent (action :: rest) = sent rest := List.filterMap_cons_none hevent
  cases h with
  | held events left hold hsent' hleft hwork =>
      exact .held events left hold (by rw [hsent, hsent']) hleft
        (Nat.le_trans hwork (Nat.le_add_left _ _))
  | complete hcancelled hclosed =>
      rw [← hsent]
      exact .complete hcancelled hclosed
  | givenUp hwhy => exact .givenUp hwhy

/-- An event can be sent before, unless that is a reason to give up. -/
theorem cons (h : Progress k outcome rest p) (hcancelled : k.cancelled = false)
    (hclosed : k.closed = false) (event : ProviderEvent) (heedful : Bool) :
    Progress k outcome (.send event heedful :: rest) (event :: p.1, p.2) := by
  have hsent : sent (.send event heedful :: rest) = event :: sent rest := rfl
  -- The event comes before whatever the rest sends.
  cases h with
  | held events left hold hsent' hleft hwork =>
      exact .held (event :: events) left hold (by rw [hsent, hsent']; rfl) hleft
        (Nat.le_trans hwork (Nat.le_add_left _ _))
  | complete =>
      rw [← hsent]
      exact .complete hcancelled hclosed
  | givenUp hwhy =>
      rcases hwhy with hwhy | hwhy
      · exact absurd (hcancelled.symm.trans hwhy) (by simp)
      · exact absurd (hclosed.symm.trans hwhy) (by simp)

end Progress

/-- How far an attentive turn gets. -/
theorem advance_attentive (k : Conditions) (outcome : Except ProviderError String) (free : Nat)
    (actions : List Action) (h : Attentive actions) :
    Progress k outcome actions (advance k outcome free actions) := by
  -- The induction is on the actions that are left.
  induction actions generalizing free with
  | nil => exact absurd rfl h.ne_nil
  | cons action rest ih =>
      -- Whatever comes next gives up when the run is cancelled.
      cases hcancelled : k.cancelled with
      | true =>
          rw [advance_cancelled_heedful k outcome free action rest hcancelled h.head]
          exact .givenUp (Or.inl hcancelled)
      | false =>
          cases action with
          | send event heedful =>
              obtain rfl : heedful = true := h.head
              -- Nobody listens, or the channel is full, or the event is sent.
              cases hclosed : k.closed with
              | true =>
                  simp only [advance, hcancelled, hclosed, Bool.false_or, Bool.and_self, if_true]
                  exact .givenUp (Or.inr hclosed)
              | false =>
                  cases free with
                  | zero =>
                      simp only [advance, hcancelled, hclosed, Bool.or_self, Bool.and_false,
                        Bool.false_eq_true, if_false]
                      exact .held [] _ _ rfl h (Nat.le_refl _)
                  | succ free =>
                      have hstep : advance k outcome (free + 1) (.send event true :: rest) =
                          (event :: (advance k outcome free rest).1,
                            (advance k outcome free rest).2) := by
                        simp only [advance, hcancelled, hclosed, Bool.or_self, Bool.and_false,
                          Bool.false_eq_true, if_false]
                      rw [hstep]
                      -- After the last action the turn ends at once.
                      by_cases hrest : rest = []
                      · subst hrest
                        rw [advance]
                        exact .complete hcancelled hclosed
                      · exact (ih free (h.tail hrest)).cons hcancelled hclosed event true
          | pause ms heedful =>
              obtain rfl : heedful = true := h.head
              have hrest := h.tail_ne_nil rfl
              simp only [advance, hcancelled, Bool.and_false, Bool.false_eq_true, if_false]
              -- A pause without length is passed over.
              by_cases hms : ms = 0
              · rw [if_pos hms]
                exact (ih free (h.tail hrest)).skip rfl
              · rw [if_neg hms]
                exact .held [] _ _ rfl (h.replace hrest rfl)
                  (Nat.add_le_add_right (Nat.le_succ 1) _)
          | waitUntil time heedful =>
              obtain rfl : heedful = true := h.head
              have hrest := h.tail_ne_nil rfl
              simp only [advance, hcancelled, Bool.and_false, Bool.false_eq_true, if_false]
              by_cases htime : time ≤ k.now
              · rw [if_pos htime]
                exact (ih free (h.tail hrest)).skip rfl
              · rw [if_neg htime]
                exact .held [] _ _ rfl h (Nat.le_refl _)
          | awaitCancel => exact absurd h.head (by simp [Action.isHeedful])
          | stall => exact absurd h.head (by simp [Action.isHeedful])

/-- Where there is room and the time has come, less is left to do. -/
theorem advance_due (k : Conditions) (outcome : Except ProviderError String) (free : Nat)
    (actions : List Action) (h : Attentive actions) (hfree : 0 < free)
    (hdue : dueTime actions ≤ k.now) :
    (advance k outcome free actions).2.work < work actions := by
  -- Only the first action matters: the others cannot add work.
  cases actions with
  | nil => exact absurd rfl h.ne_nil
  | cons action rest =>
      cases hcancelled : k.cancelled with
      | true =>
          rw [advance_cancelled_heedful k outcome free action rest hcancelled h.head]
          exact h.work_pos
      | false =>
          cases hclosed : k.closed with
          | false =>
              refine Nat.lt_of_le_of_lt (Nat.le_add_left _ _) (advance_work_lt k outcome
                hcancelled hclosed free action rest hfree ?_ hdue)
              cases action <;> first | trivial | exact absurd h.head (by simp [Action.isHeedful])
          -- Nobody listens, so that the turn ends at the latest when it sends.
          | true =>
              cases action with
              | send event heedful =>
                  obtain rfl : heedful = true := h.head
                  simp only [advance, hcancelled, hclosed, Bool.false_or, Bool.and_self, if_true]
                  exact h.work_pos
              | pause ms heedful =>
                  have hle := (advance_attentive k outcome free rest
                    (h.tail (h.tail_ne_nil rfl))).work_le
                  simp only [advance, hcancelled, Bool.and_false, Bool.false_eq_true, if_false,
                    work_cons, Action.work]
                  by_cases hms : ms = 0
                  · rw [if_pos hms]
                    omega
                  · rw [if_neg hms]
                    exact Nat.add_lt_add_right (Nat.lt_succ_self 1) _
              | waitUntil time heedful =>
                  have hle := (advance_attentive k outcome free rest
                    (h.tail (h.tail_ne_nil rfl))).work_le
                  simp only [advance, hcancelled, Bool.and_false, Bool.false_eq_true, if_false,
                    work_cons, Action.work]
                  rw [if_pos (show time ≤ k.now from hdue)]
                  omega
              | awaitCancel => exact absurd h.head (by simp [Action.isHeedful])
              | stall => exact absurd h.head (by simp [Action.isHeedful])

/-- No more is sent than there is room for. -/
theorem advance_length (k : Conditions) (outcome : Except ProviderError String) (free : Nat)
    (actions : List Action) : (advance k outcome free actions).1.length ≤ free := by
  fun_induction advance k outcome free actions with
  | case5 event heedful rest _ _ free events result hadvance ih =>
      exact Nat.succ_le_succ (by simpa only [hadvance] using ih)
  | _ => first | assumption | exact Nat.zero_le _

namespace Course

variable {capacity : Nat} {turn : Turn} {c : Course}

/-! ### Going on -/

theorem advanced_sent (c : Course) (p : List ProviderEvent × Advance) :
    (c.advanced p).sent = c.sent ++ p.1 := by
  rcases p with ⟨events, rest | result⟩ <;> rfl

theorem advanced_channel (c : Course) (p : List ProviderEvent × Advance) :
    (c.advanced p).channel = c.channel ++ p.1 := by
  rcases p with ⟨events, rest | result⟩ <;> rfl

theorem advanced_work (c : Course) (p : List ProviderEvent × Advance) :
    work (c.advanced p).left = p.2.work := by
  rcases p with ⟨events, rest | result⟩ <;> rfl

/-- A turn that has ended does not go on. -/
theorem resume_of_result {result : Except ProviderError String} (h : c.result = some result)
    (outcome : Except ProviderError String) (limit : Nat) :
    c.resume capacity outcome limit = c := by
  rw [resume, h]

theorem resume_of_none (h : c.result = none) (outcome : Except ProviderError String)
    (limit : Nat) : c.resume capacity outcome limit =
      c.advanced (advance c.conditions outcome (c.room capacity limit) c.left) := by
  rw [resume, h]

theorem resume_flags (c : Course) (outcome : Except ProviderError String) (limit : Nat) :
    (c.resume capacity outcome limit).cancelled = c.cancelled ∧
      (c.resume capacity outcome limit).closed = c.closed := by
  cases hresult : c.result with
  | some result =>
      rw [resume_of_result hresult]
      exact ⟨rfl, rfl⟩
  | none =>
      rw [resume_of_none hresult]
      rcases advance c.conditions outcome (c.room capacity limit) c.left with ⟨events, _ | _⟩ <;>
        exact ⟨rfl, rfl⟩

/-- A run is cancelled by a cancellation and a channel is closed by whoever listens. Nothing else
    does either. -/
theorem run_flags (c : Course) (outcome : Except ProviderError String)
    (incidents : List Incident) :
    ((c.run capacity outcome incidents).cancelled = true ↔
      c.cancelled = true ∨ .cancel ∈ incidents) ∧
    ((c.run capacity outcome incidents).closed = true ↔
      c.closed = true ∨ .close ∈ incidents) := by
  induction incidents generalizing c with
  | nil => simp [run]
  | cons i rest ih =>
      have hrest := ih (c.step capacity outcome i)
      -- One incident raises one of the flags at most.
      refine ⟨hrest.1.trans ?_, hrest.2.trans ?_⟩ <;> cases i <;> simp [step, resume_flags]

/-- A turn that finds its run cancelled ends without sending anything. -/
theorem resume_cancelled (hresult : c.result = none) (hleft : Attentive c.left)
    (hcancelled : c.cancelled = true) (outcome : Except ProviderError String) (limit : Nat) :
    c.resume capacity outcome limit = c.advanced ([], .ended (.error .cancelled)) := by
  rw [resume_of_none hresult]
  cases hactions : c.left with
  | nil => exact absurd hactions hleft.ne_nil
  | cons action rest =>
      rw [hactions] at hleft
      rw [advance_cancelled_heedful _ _ _ _ _ hcancelled hleft.head]

/-! ### How a course stands -/

/-- The three ways in which the course of a turn can stand: it is under way, everything was sent
    and it has ended as it was meant to, or it was given up before everything was sent. -/
inductive Stands (turn : Turn) (c : Course) : Prop where
  | underWay (hresult : c.result = none) (hleft : Attentive c.left)
      (hsent : Turn.sent turn.actions = c.sent ++ Turn.sent c.left)
  | complete (hresult : c.result = some turn.outcome) (hsent : c.sent = Turn.sent turn.actions)
  | givenUp (hresult : c.result = some (.error .cancelled))
      (hwhy : c.cancelled = true ∨ c.closed = true) (rest : List Action)
      (hrest : Attentive rest) (hsent : Turn.sent turn.actions = c.sent ++ Turn.sent rest)

theorem begin_stands (h : Attentive turn.actions) : (begin turn).Stands turn :=
  .underWay rfl h rfl

/-- What is sent and what is left after a turn went on make up what was left before. -/
theorem advanced_stands (h : c.Stands turn) (hresult : c.result = none)
    {p : List ProviderEvent × Advance} (hp : Progress c.conditions turn.outcome c.left p) :
    (c.advanced p).Stands turn := by
  -- A turn that has ended does not go on.
  cases h with
  | complete hsome | givenUp hsome => exact absurd (hresult.symm.trans hsome) (by simp)
  | underWay _ hleft hsent =>
      cases hp with
      | held events rest hold hsent' hrest _ =>
          refine .underWay hresult hrest ?_
          rw [advanced_sent, hsent, hsent', List.append_assoc]
          rfl
      | complete _ _ => exact .complete rfl hsent.symm
      | givenUp hwhy =>
          refine .givenUp rfl hwhy c.left hleft ?_
          rw [advanced_sent, List.append_nil, hsent]

theorem resume_stands (h : c.Stands turn) (limit : Nat) :
    (c.resume capacity turn.outcome limit).Stands turn := by
  have hstands := h
  cases h with
  | complete hresult | givenUp hresult =>
      rw [resume_of_result hresult]
      exact hstands
  | underWay hresult hleft _ =>
      rw [resume_of_none hresult]
      exact advanced_stands hstands hresult (advance_attentive _ _ _ _ hleft)

/-- Nothing that happens to a course makes it stand in another way. -/
theorem step_stands (h : c.Stands turn) (i : Incident) :
    (c.step capacity turn.outcome i).Stands turn := by
  cases i with
  | resume limit => exact resume_stands h limit
  | _ =>
      cases h with
      | underWay hresult hleft hsent => exact .underWay hresult hleft hsent
      | complete hresult hsent => exact .complete hresult hsent
      | givenUp hresult hwhy rest hrest hsent =>
          exact .givenUp hresult (by simp only [step, hwhy, true_or, or_true]) rest hrest hsent

theorem run_stands (h : c.Stands turn) (incidents : List Incident) :
    (c.run capacity turn.outcome incidents).Stands turn := by
  induction incidents generalizing c with
  | nil => exact h
  | cons i rest ih => exact ih (step_stands h i)

namespace Stands

/-- What was sent comes first among what was to be sent. -/
theorem sent_prefix (h : c.Stands turn) : c.sent <+: Turn.sent turn.actions := by
  cases h with
  | underWay _ _ hsent => exact ⟨_, hsent.symm⟩
  | complete _ hsent => exact ⟨[], by rw [hsent, List.append_nil]⟩
  | givenUp _ _ _ _ hsent => exact ⟨_, hsent.symm⟩

/-- A turn has ended as it was meant to once everything was sent. -/
theorem result_of_sent (h : c.Stands turn) (hsent : c.sent = Turn.sent turn.actions) :
    c.result = some turn.outcome := by
  have absurd_rest (rest : List Action) (hrest : Attentive rest)
      (happend : Turn.sent turn.actions = c.sent ++ Turn.sent rest) : False := by
    rw [← hsent, eq_comm, List.append_right_eq_self] at happend
    exact hrest.sent_ne_nil happend
  cases h with
  | underWay _ hleft happend => exact (absurd_rest _ hleft happend).elim
  | complete hresult _ => exact hresult
  | givenUp _ _ rest hrest happend => exact (absurd_rest rest hrest happend).elim

/-- A turn that ends with a text was meant to and has sent everything. -/
theorem of_ok (h : c.Stands turn) {text : String} (hresult : c.result = some (.ok text)) :
    c.sent = Turn.sent turn.actions ∧ turn.outcome = .ok text := by
  cases h with
  | underWay hnone _ _ => exact absurd (hnone.symm.trans hresult) (by simp)
  | complete hsome hsent => exact ⟨hsent, Option.some.inj (hsome.symm.trans hresult)⟩
  | givenUp herror _ _ _ _ => exact absurd (herror.symm.trans hresult) (by simp)

/-- A turn that was meant to end with a text and fails was given up early, and for a reason. -/
theorem of_error (h : c.Stands turn) {text : String} (houtcome : turn.outcome = .ok text)
    {e : ProviderError} (hresult : c.result = some (.error e)) :
    e = .cancelled ∧ (c.cancelled = true ∨ c.closed = true) ∧
      c.sent <+: (Turn.sent turn.actions).dropLast := by
  cases h with
  | underWay hnone _ _ => exact absurd (hnone.symm.trans hresult) (by simp)
  | complete hsome _ => exact absurd (hsome.symm.trans hresult) (by simp [houtcome])
  | givenUp herror hwhy rest hrest hsent =>
      refine ⟨?_, hwhy, ?_⟩
      · rw [hresult, Option.some.injEq, Except.error.injEq] at herror
        exact herror
      · rw [hsent, List.dropLast_append_of_ne_nil hrest.sent_ne_nil]
        exact List.prefix_append _ _

end Stands

/-! ### The channel -/

/-- The channel never holds more than it can take. -/
theorem step_room (h : c.channel.length ≤ capacity) (outcome : Except ProviderError String)
    (i : Incident) : (c.step capacity outcome i).channel.length ≤ capacity := by
  -- Events come into the channel when the turn goes on, and it has room for them.
  cases i with
  | pass | close | cancel => exact h
  | take => exact Nat.le_trans (by simp [step]) h
  | resume limit =>
      cases hresult : c.result with
      | some result =>
          show (c.resume capacity outcome limit).channel.length ≤ _
          rw [resume_of_result hresult]
          exact h
      | none =>
          have hlength := advance_length c.conditions outcome (c.room capacity limit) c.left
          have hroom : c.room capacity limit ≤ capacity - c.channel.length := Nat.min_le_right _ _
          rw [step, resume_of_none hresult, advanced_channel, List.length_append]
          omega

theorem run_room (h : c.channel.length ≤ capacity) (outcome : Except ProviderError String)
    (incidents : List Incident) :
    (c.run capacity outcome incidents).channel.length ≤ capacity := by
  induction incidents generalizing c with
  | nil => exact h
  | cons i rest ih => exact ih (step_room h outcome i)

/-! ### Stopping -/

/-- Whether the run was cancelled or the turn has ended. -/
def Stopped (c : Course) : Prop :=
  c.cancelled = true ∨ c.result.isSome = true

/-- A turn whose run is cancelled sends nothing more, and neither does one that has ended. -/
theorem step_stopped (h : c.Stands turn) (hstopped : c.Stopped) (i : Incident) :
    (c.step capacity turn.outcome i).Stopped ∧
      (c.step capacity turn.outcome i).sent = c.sent := by
  -- Only a turn that goes on could send, and it was stopped.
  cases i with
  | pass | take | close => exact ⟨hstopped, rfl⟩
  | cancel => exact ⟨Or.inl rfl, rfl⟩
  | resume limit =>
      cases h with
      | complete hresult | givenUp hresult =>
          rw [step, resume_of_result hresult]
          exact ⟨hstopped, rfl⟩
      | underWay hresult hleft _ =>
          have hcancelled : c.cancelled = true := by simpa [Stopped, hresult] using hstopped
          rw [step, resume_cancelled hresult hleft hcancelled, advanced_sent]
          exact ⟨Or.inr rfl, List.append_nil _⟩

theorem run_stopped (h : c.Stands turn) (hstopped : c.Stopped) (incidents : List Incident) :
    (c.run capacity turn.outcome incidents).sent = c.sent := by
  induction incidents generalizing c with
  | nil => rfl
  | cons i rest ih =>
      have hstep : (c.step capacity turn.outcome i).Stopped ∧
          (c.step capacity turn.outcome i).sent = c.sent := step_stopped h hstopped i
      exact (ih (step_stands h i) hstep.1).trans hstep.2

/-! ### Coming to an end -/

/-- A turn that goes on where there is room and its time has come has less left to do. -/
theorem resume_work (hresult : c.result = none) (hleft : Attentive c.left) {limit : Nat}
    (hlimit : 0 < limit) (hroom : c.channel.length < capacity) (hdue : dueTime c.left ≤ c.now)
    (outcome : Except ProviderError String) :
    work (c.resume capacity outcome limit).left < work c.left := by
  rw [resume_of_none hresult, advanced_work]
  exact advance_due c.conditions outcome _ c.left hleft
    (Nat.lt_min.mpr ⟨hlimit, Nat.sub_pos_of_lt hroom⟩) hdue

/-- The channel is emptied by taking out as many events as it holds. -/
theorem run_take (c : Course) (outcome : Except ProviderError String) (n : Nat)
    (hn : c.channel.length = n) :
    c.run capacity outcome (List.replicate n .take) = { c with channel := [] } := by
  induction n generalizing c with
  | zero =>
      rw [← List.eq_nil_of_length_eq_zero hn]
      rfl
  | succ n ih => exact ih { c with channel := c.channel.tail } (by simp [hn])

/-- Whatever has happened to a turn, emptying the channel, waiting and going on bring it to its
    end. -/
theorem exists_end (h : c.Stands turn) (hcapacity : 0 < capacity) :
    ∃ more : List Incident, (∀ i ∈ more, i.IsOrdinary) ∧
      (c.run capacity turn.outcome more).result.isSome = true := by
  -- By induction on what is left to do.
  induction hwork : work c.left using Nat.strongRecOn generalizing c with
  | ind n ih =>
      cases hresult : c.result with
      | some result => exact ⟨[], by simp, by simp [run, hresult]⟩
      | none =>
          cases h with
          | complete hsome | givenUp hsome => exact absurd (hresult.symm.trans hsome) (by simp)
          | underWay _ hleft hsent =>
              -- The channel is emptied and the time of the next action comes.
              let ready : Course := { c with channel := [], now := c.now + dueTime c.left }
              let next := ready.resume capacity turn.outcome 1
              let round : List Incident :=
                List.replicate c.channel.length .take ++ [.pass (dueTime c.left), .resume 1]
              have hround : c.run capacity turn.outcome round = next := by
                rw [run_append, run_take c turn.outcome _ rfl]
                rfl
              have hready : ready.Stands turn := .underWay hresult hleft hsent
              have hstands : next.Stands turn := resume_stands hready 1
              have hless : work next.left < n := hwork ▸ resume_work (c := ready) hresult hleft
                Nat.one_pos hcapacity (Nat.le_add_left _ _) turn.outcome
              obtain ⟨more, hmore, hend⟩ := ih _ hless hstands rfl
              refine ⟨round ++ more, ?_, by rw [run_append, hround, hend]⟩
              intro i hi
              rcases List.mem_append.mp hi with hi | hi
              · rcases List.mem_append.mp hi with hi | hi
                · obtain rfl := List.eq_of_mem_replicate hi
                  trivial
                · simp only [List.mem_cons, List.not_mem_nil, or_false] at hi
                  rcases hi with rfl | rfl <;> trivial
              · exact hmore i hi

/-! ### On a stage -/

/-- Whether a course is one that a turn takes on a stage: what it finds is what the stage shows
    at the time, and nobody has emptied the channel. -/
structure OnStage (stage : Stage) (c : Course) : Prop where
  unread : c.channel = c.sent
  closed : c.closed = stage.closed
  cancelled : c.cancelled = true → stage.cancelledAt c.now = true

/-- A course in which the run is cancelled when the stage says so. -/
def told (stage : Stage) (c : Course) : Course :=
  { c with cancelled := stage.cancelledAt c.now }

theorem told_run (stage : Stage) (outcome : Except ProviderError String)
    (hstage : OnStage stage c) : ∃ incidents : List Incident, Incident.take ∉ incidents ∧
      c.run stage.capacity outcome incidents = c.told stage := by
  unfold told
  cases hnow : stage.cancelledAt c.now with
  | true => exact ⟨[.cancel], by simp, rfl⟩
  | false =>
      have hcancelled : c.cancelled = false := by simpa [hnow] using hstage.cancelled
      refine ⟨[], by simp, ?_⟩
      rw [← hcancelled]
      rfl

theorem told_resume (stage : Stage) (outcome : Except ProviderError String)
    (hstage : OnStage stage c) (hresult : c.result = none) :
    (c.told stage).resume stage.capacity outcome stage.capacity =
      (c.told stage).advanced (advance ⟨c.now, stage.cancelledAt c.now, stage.closed⟩ outcome
        (stage.capacity - c.sent.length) c.left) := by
  have hroom : (c.told stage).room stage.capacity stage.capacity =
      stage.capacity - c.sent.length := by
    rw [← hstage.unread]
    exact Nat.min_eq_right (Nat.sub_le _ _)
  have hfinds : (c.told stage).conditions = ⟨c.now, stage.cancelledAt c.now, stage.closed⟩ := by
    rw [← hstage.closed]
    rfl
  rw [resume_of_none (c := c.told stage) hresult, hroom, hfinds]
  rfl

theorem cancelledAt_mono (stage : Stage) {now later : Nat} (h : now ≤ later)
    (hcancelled : stage.cancelledAt now = true) : stage.cancelledAt later = true := by
  unfold Stage.cancelledAt at *
  cases ht : stage.cancelTime? with
  | none => simp [ht] at hcancelled
  | some t =>
      simp only [ht, decide_eq_true_eq] at hcancelled ⊢
      exact Nat.le_trans hcancelled h

/-- A turn that is played on a stage takes a course. -/
theorem play_run (stage : Stage) (outcome : Except ProviderError String) (bound : Nat)
    (hstage : OnStage stage c) (hresult : c.result = none) :
    ∃ incidents : List Incident, Incident.take ∉ incidents ∧
      let last := c.run stage.capacity outcome incidents
      play stage outcome bound c.now c.sent c.left = ⟨last.sent, last.result, last.now⟩ := by
  induction bound generalizing c with
  | zero => exact ⟨[], by simp, by simp [run, play, hresult]⟩
  | succ bound ih =>
      obtain ⟨before, hbefore, htold⟩ := told_run stage outcome hstage
      -- The turn is told of what the stage has planned, and goes on.
      have hgo : c.run stage.capacity outcome (before ++ [.resume stage.capacity]) =
          (c.told stage).resume stage.capacity outcome stage.capacity := by
        rw [run_append, htold]
        rfl
      rw [told_resume stage outcome hstage hresult] at hgo
      rw [play]
      generalize advance ⟨c.now, stage.cancelledAt c.now, stage.closed⟩ outcome
        (stage.capacity - c.sent.length) c.left = p at hgo ⊢
      rcases p with ⟨events, ⟨rest, hold⟩ | result⟩
      -- What the turn has sent by now, if it is held up.
      · let gone := (c.told stage).advanced (events, .held rest hold)
        cases hwake : stage.wake hold with
        | none =>
            refine ⟨before ++ [.resume stage.capacity], by simp [hbefore], ?_⟩
            simp only [hgo, hwake]
            exact congrArg (Performance.mk _ · _) hresult.symm
        | some time =>
            -- The turn sleeps until it is woken.
            let woken : Course := { gone with now := gone.now + (time - c.now) }
            have hnow : woken.now = max c.now time := by
              show c.now + (time - c.now) = _
              omega
            have hwoken : OnStage stage woken :=
              ⟨congrArg (· ++ events) hstage.unread, hstage.closed,
                cancelledAt_mono stage (Nat.le_add_right _ _)⟩
            obtain ⟨more, hmore, hplay⟩ := ih hwoken hresult
            have hpass : c.run stage.capacity outcome
                (before ++ [.resume stage.capacity] ++ [.pass (time - c.now)]) = woken := by
              rw [run_append, hgo]
              rfl
            refine ⟨before ++ [.resume stage.capacity] ++ [.pass (time - c.now)] ++ more,
              by simp [hbefore, hmore], ?_⟩
            simp only [hwake]
            rw [run_append, hpass, ← hnow]
            exact hplay
      · refine ⟨before ++ [.resume stage.capacity], by simp [hbefore], ?_⟩
        simp only [hgo]
        rfl

/-- So does a whole performance. -/
theorem perform_run (stage : Stage) (turn : Turn) :
    ∃ incidents : List Incident, Incident.take ∉ incidents ∧
      let last := (begin turn).run stage.capacity turn.outcome incidents
      perform stage turn = ⟨last.sent, last.result, last.now⟩ := by
  have hstart (closed : Bool) (hclosed : closed = stage.closed) :=
    play_run (c := { begin turn with closed := closed }) stage turn.outcome
      (2 * turn.actions.length + 2) ⟨rfl, hclosed, nofun⟩ rfl
  cases hclosed : stage.closed with
  | false => exact hstart false hclosed.symm
  | true =>
      obtain ⟨incidents, htake, hplay⟩ := hstart true hclosed.symm
      exact ⟨.close :: incidents, by simp [htake], hplay⟩

end Course

end Turn

end Switchboard

import Switchboard.Proofs.Outlook

/-!
# A Task Gets Done

A task whose run is not cancelled never waits for itself: as long as it is not
done there is a step that brings it closer to its end, provided that the turns of
its provider return. If the forwarder has something to take out of the channels,
that is the step. If it has not, the channel of the current attempt is empty, so
that the driver finds room, and nothing but the clock can hold it up.

Closer means that there is less work left. An event is work twice, once for the
driver and once for the forwarder; so is a pause, which has to begin and to end; and
an attempt is work apart from its events, because it has to begin and to end for the
driver and for the forwarder.

## Main definitions

* `Turn.Returns`: A turn does not wait for anything but time and room.
* `Turn.work`, `RunTask.work`: The work that is left for a turn and for a task.
* `RunTask.Returning`: The turns of a task return.

## Theorems

* `Turn.advance_work`, `Turn.advance_work_lt`: A turn that is advanced has less work left.
* `RunTask.forward?_work`, `RunTask.drive_work`: So has a task.
* `RunTask.exists_step`: There is a step as long as a task is not done.
-/

namespace Switchboard

namespace Turn

/-- Whether an action comes to its end by itself, given time and room. -/
def Action.Passes : Action → Prop
  | .awaitCancel => False
  | .stall => False
  | _ => True

/-- Whether a turn comes to its end by itself. -/
def Returns (turn : Turn) : Prop :=
  ∀ a ∈ turn.actions, a.Passes

/-- The work that an action is. -/
def Action.work : Action → Nat
  | .send .. => 2
  | .pause .. => 2
  | .waitUntil .. => 1
  | _ => 0

/-- The work that some actions are. -/
def work : List Action → Nat
  | [] => 0
  | action :: rest => action.work + work rest

theorem work_cons (action : Action) (rest : List Action) :
    work (action :: rest) = action.work + work rest := rfl

/-- The work that is left after a turn was advanced. -/
def Advance.work : Advance → Nat
  | .held rest _ => Turn.work rest
  | .ended _ => 0

/-- The time that some actions wait for at once. -/
def dueTime : List Action → Nat
  | .waitUntil time _ :: _ => time
  | _ => 0

/-- A turn that is advanced has no more work left than before. -/
theorem advance_work (k : Conditions) (outcome : Except ProviderError String)
    (hcancelled : k.cancelled = false) (hclosed : k.closed = false) (free : Nat)
    (actions : List Action) :
    (advance k outcome free actions).1.length + (advance k outcome free actions).2.work ≤
      work actions := by
  induction actions generalizing free with
  | nil => exact Nat.zero_le _
  | cons action rest ih =>
      rw [work_cons]
      cases action with
      | send event heedful =>
          simp only [advance, hcancelled, hclosed, Bool.or_self, Bool.and_false,
            Bool.false_eq_true, if_false, Action.work]
          cases free with
          -- A full channel: nothing is sent and nothing is left out.
          | zero => simp only [List.length_nil, Advance.work, work_cons, Action.work]; omega
          | succ free =>
              have := ih free
              simp only [List.length_cons]
              omega
      | pause ms heedful =>
          simp only [advance, hcancelled, Bool.and_false, Bool.false_eq_true, if_false, Action.work]
          -- A pause becomes a time to wait for, which is less work by one.
          by_cases hms : ms = 0
          · rw [if_pos hms]
            exact Nat.le_trans (ih free) (Nat.le_add_left _ _)
          · rw [if_neg hms]
            simp only [List.length_nil, Advance.work, work_cons, Action.work]
            omega
      | waitUntil time heedful =>
          simp only [advance, hcancelled, Bool.and_false, Bool.false_eq_true, if_false, Action.work]
          by_cases ht : time ≤ k.now
          · rw [if_pos ht]
            exact Nat.le_trans (ih free) (Nat.le_add_left _ _)
          · rw [if_neg ht]
            simp only [List.length_nil, Advance.work, work_cons, Action.work]
            omega
      | awaitCancel =>
          simp only [advance, hcancelled, Bool.false_eq_true, if_false, List.length_nil,
            Advance.work, work_cons]
          omega
      | stall =>
          simp only [advance, List.length_nil, Advance.work, work_cons]
          omega

theorem advance_work_held (k : Conditions) (outcome : Except ProviderError String)
    (hcancelled : k.cancelled = false) (hclosed : k.closed = false) (free : Nat)
    (actions : List Action) (events : List ProviderEvent) (rest : List Action) (hold : Hold)
    (hadv : advance k outcome free actions = (events, .held rest hold)) :
    events.length + work rest ≤ work actions := by
  have h := advance_work k outcome hcancelled hclosed free actions
  rw [hadv] at h
  exact h

theorem advance_work_ended {k : Conditions} {outcome : Except ProviderError String} {free : Nat}
    {actions : List Action} (hcancelled : k.cancelled = false) (hclosed : k.closed = false)
    {events : List ProviderEvent} {result : Except ProviderError String}
    (hadv : advance k outcome free actions = (events, .ended result)) :
    events.length ≤ work actions := by
  have h := advance_work k outcome hcancelled hclosed free actions
  rw [hadv] at h
  exact h

/-- A turn that has room and whose time has come has less work left than before. -/
theorem advance_work_lt (k : Conditions) (outcome : Except ProviderError String)
    (hcancelled : k.cancelled = false) (hclosed : k.closed = false) (free : Nat)
    (action : Action) (rest : List Action) (hfree : 0 < free) (hpasses : action.Passes)
    (hdue : dueTime (action :: rest) ≤ k.now) :
    (advance k outcome free (action :: rest)).1.length +
      (advance k outcome free (action :: rest)).2.work < work (action :: rest) := by
  have hrest := fun free => advance_work k outcome hcancelled hclosed free rest
  rw [work_cons]
  cases action with
  -- Each kind of action either is done, which is one unit of work less, or holds the turn up
  -- further on.
  | send event heedful =>
      obtain ⟨free, rfl⟩ := Nat.exists_eq_succ_of_ne_zero (Nat.ne_of_gt hfree)
      simp only [advance, hcancelled, hclosed, Bool.or_self, Bool.and_false, Bool.false_eq_true,
        if_false, Action.work, List.length_cons]
      have := hrest free
      omega
  | pause ms heedful =>
      simp only [advance, hcancelled, Bool.and_false, Bool.false_eq_true, if_false, Action.work]
      by_cases hms : ms = 0
      · rw [if_pos hms]
        have := hrest free
        omega
      · rw [if_neg hms]
        simp only [List.length_nil, Advance.work, work_cons, Action.work]
        omega
  | waitUntil time heedful =>
      simp only [advance, hcancelled, Bool.and_false, Bool.false_eq_true, if_false, Action.work]
      rw [if_pos (show time ≤ k.now from hdue)]
      have := hrest free
      omega
  | awaitCancel => exact absurd hpasses not_false
  | stall => exact absurd hpasses not_false

/-- What is left of a turn that comes to its end by itself does so too. -/
theorem advance_passes (k : Conditions) (outcome : Except ProviderError String) (free : Nat)
    (actions : List Action) (h : ∀ a ∈ actions, a.Passes) (events : List ProviderEvent)
    (rest : List Action) (hold : Hold)
    (hadvance : advance k outcome free actions = (events, .held rest hold)) :
    ∀ a ∈ rest, a.Passes := by
  -- What is held is a tail of the actions, so each of them still passes.
  induction actions generalizing free events with
  | nil => simp [advance] at hadvance
  | cons action tail ih =>
      have htail := (List.forall_mem_cons.mp h).2
      cases action with
      | send event heedful =>
          simp only [advance] at hadvance
          split at hadvance
          · simp at hadvance
          · split at hadvance
            · exact ih free htail events hadvance
            · cases free with
              | zero =>
                  simp only [Prod.mk.injEq, Advance.held.injEq] at hadvance
                  rw [← hadvance.2.1]
                  exact h
              | succ free =>
                  simp only [Prod.mk.injEq] at hadvance
                  exact ih free htail _ (Prod.ext rfl hadvance.2)
      | pause ms heedful =>
          simp only [advance] at hadvance
          split at hadvance
          · simp at hadvance
          · split at hadvance
            · exact ih free htail events hadvance
            · simp only [Prod.mk.injEq, Advance.held.injEq] at hadvance
              rw [← hadvance.2.1]
              exact List.forall_mem_cons.mpr ⟨trivial, htail⟩
      | waitUntil time heedful =>
          simp only [advance] at hadvance
          split at hadvance
          · simp at hadvance
          · split at hadvance
            · exact ih free htail events hadvance
            · simp only [Prod.mk.injEq, Advance.held.injEq] at hadvance
              rw [← hadvance.2.1]
              exact List.forall_mem_cons.mpr ⟨trivial, htail⟩
      | awaitCancel => exact absurd (h _ List.mem_cons_self) not_false
      | stall => exact absurd (h _ List.mem_cons_self) not_false

end Turn

namespace RunTask

/-! ### Work -/

/-- The work that some channels are for the forwarder. -/
def channelWork (reading : Bool) : List Channel → Nat
  | [] => 0
  | c :: rest => (if reading then 1 else 2) + c.events.length + channelWork false rest

/-- The work that is left when an attempt has ended and `left` more may follow. -/
def workAfter (policy : RetryPolicy) (turn : Nat → Turn) :
    (left attempt : Nat) → Except ProviderError String → Nat
  | left, attempt, outcome =>
    match policy.judge ProviderError.isRetryable false attempt outcome with
    | .ended _ => 0
    | .again _ _ =>
      match left with
      | 0 => 0
      | left + 1 =>
        4 + Turn.work (turn (attempt + 1)).actions +
          workAfter policy turn left (attempt + 1) (turn (attempt + 1)).outcome

/-- The work that is left when an attempt is about to begin. -/
def workFrom (policy : RetryPolicy) (turn : Nat → Turn) (attempt : Nat) : Nat :=
  4 + Turn.work (turn attempt).actions +
    workAfter policy turn (policy.attempts - attempt) attempt (turn attempt).outcome

/-- The work that is left for the driver. -/
def driverWork (policy : RetryPolicy) (t : RunTask) : Nat :=
  match t.phase with
  | .launched => workFrom policy t.turn 1
  | .attempting attempt rest outcome _ =>
    1 + Turn.work rest + workAfter policy t.turn (policy.attempts - attempt) attempt outcome
  | .resting attempt _ => workFrom policy t.turn (attempt + 1)
  | .ended _ => 0

/-- The work that is left for the forwarder; in the end it has to end itself. -/
def forwarderWork (t : RunTask) : Nat :=
  channelWork t.reading t.channels + if t.drained then 0 else 1

/-- The work that is left for a task. -/
def work (policy : RetryPolicy) (t : RunTask) : Nat :=
  t.driverWork policy + t.forwarderWork

theorem channelWork_append (reading : Bool) (channels : List Channel) (c : Channel)
    (h : reading = true → channels ≠ []) :
    channelWork reading (channels ++ [c]) =
      channelWork reading channels + 2 + c.events.length := by
  induction channels generalizing reading with
  | nil =>
      -- As in the outlook, the new channel is not the one that was begun with.
      cases reading with
      | true => exact absurd rfl (h rfl)
      | false => simp [channelWork]
  | cons d rest ih =>
      rw [List.cons_append, channelWork, channelWork, ih false (by simp)]
      omega

/-- Streamed events are work for the forwarder. -/
theorem forwarderWork_streamed (t : RunTask) (events : List ProviderEvent) (closed : Bool)
    (before : List Channel) (c : Channel) (h : t.channels = before ++ [c]) :
    (t.streamed events closed).forwarderWork = t.forwarderWork + events.length := by
  show channelWork t.reading (t.streamed events closed).channels + (if t.drained then 0 else 1) =
    channelWork t.reading t.channels + (if t.drained then 0 else 1) + events.length
  rw [streamed_channels t events closed before c h, h]
  cases before with
  -- The channel that is filled is the first or one behind it; either way its events count once.
  | nil =>
      simp only [List.nil_append, channelWork, List.length_append]
      omega
  | cons d rest =>
      rw [List.cons_append, List.cons_append, channelWork, channelWork,
        channelWork_append false rest _ (by simp), channelWork_append false rest _ (by simp)]
      simp only [List.length_append]
      omega

theorem forwarderWork_opened (t : RunTask) (attempt : Nat)
    (h : t.reading = true → t.channels ≠ []) :
    (t.opened attempt).forwarderWork = t.forwarderWork + 2 := by
  rw [forwarderWork, forwarderWork, opened]
  simp only [channelWork_append t.reading t.channels _ h, List.length_nil]
  omega

/-! ### The forwarder -/

/-- A forwarder with nothing to do waits for the first channel or for the first event of one. -/
theorem forward?_none (t : RunTask) (h : t.forward? = none) :
    t.channels = [] ∨ ∃ c rest, t.channels = c :: rest ∧ c.events = [] ∧ c.closed = false := by
  -- Nothing can be forwarded: no channel is left, or the first is open and empty.
  unfold forward? at h
  cases hcs : t.channels with
  | nil => exact Or.inl rfl
  | cons c rest =>
      refine Or.inr ⟨c, rest, rfl, ?_⟩
      simp only [hcs] at h
      cases hr : t.reading with
      | false => simp [hr] at h
      | true =>
          cases he : c.events with
          | cons e events => simp [hr, he] at h
          | nil =>
              cases hc : c.closed with
              | true => simp [hr, he, hc] at h
              | false => exact ⟨rfl, rfl⟩

/-- A step of the forwarder leaves less work. -/
theorem forward?_work (policy : RetryPolicy) (t t' : RunTask) (h : Handover)
    (hf : t.forward? = some (h, t')) : t'.work policy < t.work policy := by
  rcases forward?_cases t t' h hf with
    ⟨c, rest, hchannels, ⟨hr, -, rfl⟩ | ⟨hr, e, events, he, -, rfl⟩ | ⟨hr, he, -, -, rfl⟩⟩
  -- The driver is not concerned: a channel is begun with, an event is taken out, or a channel is
  -- given up.
  · show t.driverWork policy + _ < t.driverWork policy + _
    simp only [forwarderWork, hchannels, hr, channelWork, if_true, Bool.false_eq_true, if_false]
    omega
  · show t.driverWork policy + _ < t.driverWork policy + _
    simp only [forwarderWork, hchannels, hr, channelWork, if_true, he, List.length_cons]
    omega
  · show t.driverWork policy + _ < t.driverWork policy + _
    simp only [forwarderWork, hchannels, hr, channelWork, if_true, he, List.length_nil]
    cases rest with
    | nil => simp only [channelWork]; omega
    | cons d rest => simp only [channelWork, Bool.false_eq_true, if_false]; omega

/-! ### The driver -/

section

variable {policy : RetryPolicy} {k : Turn.Conditions} {left attempt : Nat}
  {actions : List Turn.Action} {outcome : Except ProviderError String} {t t' : RunTask}

theorem workAfter_again {turn : Nat → Turn} {e : ProviderError} {delay : Nat}
    (h : policy.judge ProviderError.isRetryable false attempt outcome = .again e delay) :
    workAfter policy turn (left + 1) attempt outcome =
      4 + Turn.work (turn (attempt + 1)).actions +
        workAfter policy turn left (attempt + 1) (turn (attempt + 1)).outcome := by
  rw [workAfter, h]

/-- An attempt that goes on leaves no more work than before, and less by one if the turn has
    less work left by one or ends. -/
theorem Proceeds.work (h : Proceeds policy k left attempt actions outcome t t')
    (hcancelled : k.cancelled = false) (hclosed : k.closed = false)
    (hleft : left = policy.attempts - attempt) (before : List Channel) (c : Channel)
    (hlast : t.channels = before ++ [c]) (gain : Nat) (hone : gain ≤ 1)
    (hgain : ∀ events rest hold, Turn.advance k outcome t.room actions =
      (events, .held rest hold) → events.length + Turn.work rest + gain ≤ Turn.work actions) :
    t'.work policy + gain ≤
      1 + Turn.work actions + workAfter policy t.turn left attempt outcome + t.forwarderWork := by
  -- Closing the channel is the work that makes the difference where the turn is over.
  induction h generalizing before c gain with
  | @held left attempt actions outcome t events rest hold hadvance =>
      have hle := hgain events rest hold hadvance
      have hf := forwarderWork_streamed t events false before c hlast
      show 1 + Turn.work rest +
        workAfter policy t.turn (policy.attempts - attempt) attempt outcome +
        (t.streamed events false).forwarderWork + gain ≤ _
      rw [← hleft, hf]
      omega
  | @ended left attempt actions outcome t events result final hadvance hjudge =>
      have hwork := Turn.advance_work_ended hcancelled hclosed hadvance
      have hf := forwarderWork_streamed t events true before c hlast
      show 0 + (t.streamed events true).forwarderWork + gain ≤ _
      rw [hf]
      omega
  | @rests left attempt actions outcome t events result e delay hadvance hjudge hdelay =>
      have hwork := Turn.advance_work_ended hcancelled hclosed hadvance
      have hf := forwarderWork_streamed t events true before c hlast
      obtain ⟨-, rfl⟩ := Turn.advance_ended hcancelled hclosed hadvance
      rw [hcancelled] at hjudge
      -- There is a further attempt, since otherwise it would have been the last one.
      have hmore := judge_again policy attempt result e delay hjudge
      obtain ⟨n, rfl⟩ : ∃ n, left = n + 1 := ⟨left - 1, by omega⟩
      have hnext : n = policy.attempts - (attempt + 1) := by omega
      show workFrom policy t.turn (attempt + 1) + (t.streamed events true).forwarderWork +
        gain ≤ _
      rw [workAfter_again hjudge, workFrom, hf, ← hnext]
      omega
  | @spent attempt actions outcome t events result e delay hadvance hjudge =>
      obtain ⟨-, rfl⟩ := Turn.advance_ended hcancelled hclosed hadvance
      rw [hcancelled] at hjudge
      have hmore := judge_again policy attempt result e delay hjudge
      omega
  | @again left attempt actions outcome t t' events result e delay hadvance hjudge hnext ih =>
      have hwork := Turn.advance_work_ended hcancelled hclosed hadvance
      have hf := forwarderWork_streamed t events true before c hlast
      have hopened := forwarderWork_opened (t.streamed events true) (attempt + 1) fun _ => by
        rw [streamed_channels t events true before c hlast]
        simp
      have hrest := ih (by omega) _ _ rfl 0 (Nat.zero_le 1)
        (Turn.advance_work_held k _ hcancelled hclosed _ _)
      obtain ⟨-, rfl⟩ := Turn.advance_ended hcancelled hclosed hadvance
      rw [hcancelled] at hjudge
      refine Nat.le_trans (Nat.add_le_add_right hrest gain) ?_
      rw [hopened, hf, workAfter_again hjudge]
      show 1 + _ + workAfter policy t.turn left (attempt + 1) _ + _ + gain ≤ _
      omega

theorem Proceeds.rest (h : Proceeds policy k left attempt actions outcome t t')
    (hturns : ∀ n, (t.turn n).Returns) (hactions : ∀ a ∈ actions, a.Passes) :
    ∀ n rest o hold, t'.phase = .attempting n rest o hold → ∀ a ∈ rest, a.Passes := by
  induction h with
  | held events rest hold hadvance =>
      intro n rest' o hold' hp
      rw [Phase.attempting.injEq] at hp
      -- What is left is a part of a turn that returns.
      have hpasses := Turn.advance_passes k _ _ _ hactions events rest hold hadvance
      rw [hp.2.1] at hpasses
      exact hpasses
  | ended => exact fun n rest o hold hp => absurd hp (by simp)
  | rests => exact fun n rest o hold hp => absurd hp (by simp)
  | spent => exact fun n rest o hold hp => absurd hp (by simp)
  | again events result e delay hadvance hjudge hnext ih => exact ih hturns (hturns _)

end

/-- An attempt that begins leaves less work. -/
theorem begin_work (policy : RetryPolicy) (k : Turn.Conditions)
    (hcancelled : k.cancelled = false) (hclosed : k.closed = false) (attempt : Nat)
    (t : RunTask) (hreading : t.reading = true → t.channels ≠ []) :
    (t.begin policy k attempt).work policy < workFrom policy t.turn attempt + t.forwarderWork := by
  have hopened := forwarderWork_opened t attempt hreading
  have hproceed := (proceed_proceeds policy k _ attempt (t.turn attempt).actions
    (t.turn attempt).outcome (t.opened attempt)).work hcancelled hclosed rfl t.channels _ rfl 0
    (Nat.zero_le 1) (Turn.advance_work_held k _ hcancelled hclosed _ _)
  unfold begin
  rw [hcancelled, if_neg Bool.false_ne_true]
  refine Nat.lt_of_le_of_lt hproceed ?_
  rw [hopened]
  show 1 + _ + workAfter policy t.turn _ attempt _ + _ < _
  rw [workFrom]
  omega

/-- The turns of a task come to their end by themselves, and so does what is left of the one
    that is under way. -/
structure Returning (t : RunTask) : Prop where
  turns : ∀ n, (t.turn n).Returns
  rest : ∀ attempt rest outcome hold, t.phase = .attempting attempt rest outcome hold →
    ∀ a ∈ rest, a.Passes

/-- A driver whose forwarder has nothing to do finds room in the channel of its attempt. -/
theorem WellFormed.room {t : RunTask} (hw : t.WellFormed) (hp : t.phase.isAttempting = true)
    (hidle : t.forward? = none) : 0 < t.room := by
  rcases hw.current hp with ⟨before, c, hchannels, hsealed, -⟩
  rcases forward?_none t hidle with hnil | ⟨d, rest, hcons, hevents, hopen⟩
  · rw [hnil] at hchannels
    exact absurd hchannels (by simp)
  · cases before with
    | nil =>
        rw [hcons, List.nil_append] at hchannels
        simp [RunTask.room, hcons, (List.cons.inj hchannels).2, hevents, Channel.capacity]
    | cons b before =>
        -- The forwarder would be done with a channel that is closed.
        rw [hcons, List.cons_append, List.cons.injEq] at hchannels
        have hclosed := hsealed b List.mem_cons_self
        rw [← hchannels.1, hopen] at hclosed
        exact absurd hclosed (by simp)

/-- A driver whose forwarder has nothing to do goes on when the time has come. -/
theorem drive_work (policy : RetryPolicy) (t : RunTask) (hw : t.WellFormed) (hr : t.Returning)
    (hidle : t.forward? = none) (hended : t.isEnded = false) :
    ∃ clock, (t.drive policy clock false).work policy < t.work policy := by
  cases hp : t.phase with
  -- The work of a driver is read off its phase; before and after are written out in each.
  | launched =>
      have hbefore : t.work policy = workFrom policy t.turn 1 + t.forwarderWork := by
        rw [work, driverWork, hp]
      have hbegin := begin_work policy ⟨0, false, false⟩ rfl rfl 1 t hw.reading
      refine ⟨0, ?_⟩
      simp only [drive, hp]
      rw [hbefore]
      exact hbegin
  | attempting attempt rest outcome hold =>
      have hbefore : t.work policy = 1 + Turn.work rest +
          workAfter policy t.turn (policy.attempts - attempt) attempt outcome +
          t.forwarderWork := by
        rw [work, driverWork, hp]
      rcases hw.current (by rw [hp]; rfl) with ⟨before, c, hchannels, -, -⟩
      have hroom := hw.room (by rw [hp]; rfl) hidle
      -- There is room and the time has come, so that the first action is done.
      have hgain : ∀ events rest' hold',
          Turn.advance ⟨Turn.dueTime rest, false, false⟩ outcome t.room rest =
            (events, .held rest' hold') →
          events.length + Turn.work rest' + 1 ≤ Turn.work rest := by
        intro events rest' hold' hadv
        cases hrest : rest with
        -- Nothing is left of the turn, so that it is not held up.
        | nil =>
            rw [hrest, Turn.advance] at hadv
            exact absurd hadv (by simp)
        | cons action tail =>
            have hpasses := hr.rest attempt rest outcome hold hp action (by simp [hrest])
            have hdue : Turn.dueTime (action :: tail) ≤ Turn.dueTime rest :=
              Nat.le_of_eq (by rw [hrest])
            have hlt := Turn.advance_work_lt ⟨Turn.dueTime rest, false, false⟩ outcome rfl rfl
              t.room action tail hroom hpasses hdue
            rw [← hrest, hadv] at hlt
            rw [← hrest]
            exact hlt
      have hproceed := (proceed_proceeds policy ⟨Turn.dueTime rest, false, false⟩ _ attempt rest
        outcome t).work rfl rfl rfl before c hchannels 1 (Nat.le_refl 1) hgain
      refine ⟨Turn.dueTime rest, ?_⟩
      simp only [drive, hp]
      rw [hbefore]
      exact hproceed
  | resting attempt time =>
      have hbefore : t.work policy = workFrom policy t.turn (attempt + 1) + t.forwarderWork := by
        rw [work, driverWork, hp]
      have hbegin := begin_work policy ⟨time, false, false⟩ rfl rfl (attempt + 1) t hw.reading
      refine ⟨time, ?_⟩
      simp only [drive, hp, Bool.false_eq_true, if_false, Nat.le_refl, if_true]
      rw [hbefore]
      exact hbegin
  | ended result =>
      rw [isEnded, hp] at hended
      exact absurd hended (by simp)

/-! ### Steps -/

theorem launch_returning (key : RunKey) (prompt : String) (provider : Provider) (guard : Guard)
    (h : ∀ n, (provider.turn ⟨key.conversation, key.run, prompt, n⟩).Returns) :
    (launch key prompt provider guard).Returning where
  turns := h
  rest _ _ _ _ hp := absurd hp (by simp [launch])

theorem begin_rest (policy : RetryPolicy) (k : Turn.Conditions) (attempt : Nat) (t : RunTask)
    (hturns : ∀ n, (t.turn n).Returns) : ∀ n rest o hold,
      (t.begin policy k attempt).phase = .attempting n rest o hold → ∀ a ∈ rest, a.Passes := by
  unfold begin
  by_cases hc : k.cancelled = true
  · rw [if_pos hc]
    intro n rest o hold hp
    exact absurd hp (by simp)
  · rw [if_neg hc]
    exact (proceed_proceeds ..).rest hturns (hturns attempt)

theorem Step.returning {policy : RetryPolicy} {t t' : RunTask} {h : Handover}
    (hs : Step policy t h t') (hr : t.Returning) : t'.Returning where
  turns := by
    rw [turn_congr hs.mandate]
    -- The actions left after a step are those of the turn or those of a new attempt.
    exact hr.turns
  rest := by
    cases hs with
    | rest => exact hr.rest
    | drain => exact hr.rest
    | forward hf =>
        rw [(forward?_guard t t' h hf).2.2]
        exact hr.rest
    | drive clock =>
        simp only [RunTask.drive]
        cases hp : t.phase with
        | launched => exact begin_rest policy _ 1 t hr.turns
        | attempting attempt rest outcome hold =>
            exact (proceed_proceeds ..).rest hr.turns (hr.rest attempt rest outcome hold hp)
        | resting attempt time =>
            simp only [Bool.false_eq_true, if_false]
            by_cases ht : time ≤ clock
            · rw [if_pos ht]
              exact begin_rest policy _ _ t hr.turns
            · rw [if_neg ht]
              exact hr.rest
        | ended result => exact hr.rest

/-- As long as a task is not done there is a step that leaves less work. -/
theorem exists_step (policy : RetryPolicy) (t : RunTask) (hw : t.WellFormed) (hr : t.Returning)
    (hdrained : t.drained = false) :
    ∃ h t', Step policy t h t' ∧ t'.work policy < t.work policy := by
  -- The forwarder first, then the driver, and the end of the forwarder last.
  cases hf : t.forward? with
  | some p => exact ⟨p.1, p.2, .forward hf, forward?_work policy t p.2 p.1 hf⟩
  | none =>
      cases hended : t.isEnded with
      | false =>
          rcases drive_work policy t hw hr hf hended with ⟨clock, hlt⟩
          exact ⟨.nothing, _, .drive clock, hlt⟩
      | true =>
          have hphase : t.phase.isAttempting = false := by
            cases hp : t.phase with
            | attempting attempt rest outcome hold => simp [isEnded, hp] at hended
            | _ => rfl
          -- The forwarder would be done with a channel that is closed.
          have hchannels : t.channels = [] := by
            rcases forward?_none t hf with hnil | ⟨c, rest, hcons, -, hopen⟩
            · exact hnil
            · have hclosed := hw.between hphase c (by simp [hcons])
              rw [hopen] at hclosed
              exact absurd hclosed (by simp)
          have hexhausted : t.isExhausted = true := by
            rw [isExhausted, hended, hchannels]
            rfl
          refine ⟨.nothing, _, .drain, ?_⟩
          show t.driverWork policy + _ < t.driverWork policy + _
          simp only [forwarderWork, hexhausted, hdrained, if_true, Bool.false_eq_true, if_false]
          omega

end RunTask

end Switchboard

import Switchboard.Proofs.Steps

/-!
# What a Task Will Hand On

As long as its run is not cancelled, what a task will still hand on and how it
will end is settled by its state, whatever the driver and the forwarder do next
and in which order. The outlook of a task is made of two parts: what waits in the
channels, and what the turns from here on will stream. A driver that goes on
moves events from the second part to the end of the first; a forwarder takes
them from the front. Neither changes the whole.

This needs little of the state to be in order: a forwarder that is reading has a
channel to read from, and the channel of the current attempt is the last one and
the only one that is open, so that it is not given up before the attempt is over.
`RunTask.WellFormed` says so.

The outlook of a task that has not begun can be written down without recursion.
There is one attempt that ends the run, the first that succeeds, is not worth
repeating, or is the last one allowed; `RunTask.launch_outlook` lists what is handed on
up to there.

## Main definitions

* `Turn.sent`: The events among some actions.
* `RunTask.Outlook`: What will be handed on, and how the run will end.
* `RunTask.pending`: What waits in some channels.
* `RunTask.outlookAfter`, `RunTask.outlookFrom`: The outlook after and before an attempt.
* `RunTask.outlook`: The outlook of a task.
* `RunTask.WellFormed`: The channels are in order.
* `RunTask.Step`: A step of a task whose run is not cancelled.

## Theorems

* `Turn.advance_running`: A turn streams its events in order and keeps its outcome.
* `RunTask.drive_outlook`, `RunTask.forward?_outlook`: Steps do not change the outlook.
* `RunTask.Step.outlook`, `RunTask.Step.wellFormed`: The same for any step.
* `RunTask.launch_outlook`: The outlook of a task that has not begun.
-/

namespace Switchboard

namespace Turn

/-- The event that an action sends, if it sends one. -/
def Action.event? : Action → Option ProviderEvent
  | .send event _ => some event
  | _ => none

/-- The events among some actions. -/
def sent (actions : List Action) : List ProviderEvent :=
  actions.filterMap Action.event?

/-- A turn that is not cancelled and has a listener streams its events in order and keeps its
    outcome. -/
theorem advance_running (k : Conditions) (outcome : Except ProviderError String)
    (hcancelled : k.cancelled = false) (hclosed : k.closed = false) (free : Nat)
    (actions : List Action) :
    (∃ events rest hold, advance k outcome free actions = (events, .held rest hold) ∧
      sent actions = events ++ sent rest) ∨
    advance k outcome free actions = (sent actions, .ended outcome) := by
  -- The induction is on the actions left; what was sent and what is left make up the whole turn.
  induction actions generalizing free with
  | nil => exact Or.inr (by rw [advance]; rfl)
  | cons action rest ih =>
      -- Only a pause, a time to wait for and a full channel can hold up a turn for good.
      cases action with
      | send event heedful =>
          have hsent : sent (.send event heedful :: rest) = event :: sent rest := rfl
          cases free with
          | zero =>
              refine Or.inl ⟨[], .send event heedful :: rest, .channelFull, ?_, rfl⟩
              simp only [advance, hcancelled, hclosed, Bool.or_self, Bool.and_false,
                Bool.false_eq_true, if_false]
          | succ free =>
              have hstep : advance k outcome (free + 1) (.send event heedful :: rest) =
                  (event :: (advance k outcome free rest).1,
                    (advance k outcome free rest).2) := by
                simp only [advance, hcancelled, hclosed, Bool.or_self, Bool.and_false,
                  Bool.false_eq_true, if_false]
              rw [hstep, hsent]
              rcases ih free with ⟨events, rest', hold, hadv, hs⟩ | hadv
              · exact Or.inl ⟨event :: events, rest', hold, by rw [hadv], by rw [hs]; rfl⟩
              · exact Or.inr (by rw [hadv])
      | pause ms heedful =>
          simp only [advance, hcancelled, Bool.and_false, Bool.false_eq_true, if_false]
          by_cases hms : ms = 0
          · rw [if_pos hms]
            exact ih free
          · rw [if_neg hms]
            exact Or.inl ⟨[], _, _, rfl, rfl⟩
      | waitUntil time heedful =>
          simp only [advance, hcancelled, Bool.and_false, Bool.false_eq_true, if_false]
          by_cases ht : time ≤ k.now
          · rw [if_pos ht]
            exact ih free
          · rw [if_neg ht]
            exact Or.inl ⟨[], _, _, rfl, rfl⟩
      | awaitCancel =>
          simp only [advance, hcancelled, Bool.false_eq_true, if_false]
          exact Or.inl ⟨[], _, _, rfl, rfl⟩
      | stall =>
          simp only [advance]
          exact Or.inl ⟨[], _, _, rfl, rfl⟩

/-- A turn that is held up has streamed a first part of its events. -/
theorem advance_held {k : Conditions} {outcome : Except ProviderError String} {free : Nat}
    {actions : List Action} (hcancelled : k.cancelled = false) (hclosed : k.closed = false)
    {events : List ProviderEvent} {rest : List Action} {hold : Hold}
    (h : advance k outcome free actions = (events, .held rest hold)) :
    sent actions = events ++ sent rest := by
  rcases advance_running k outcome hcancelled hclosed free actions with
    ⟨events', rest', hold', hadvance, hsent⟩ | hadvance
  · rw [h, Prod.mk.injEq, Advance.held.injEq] at hadvance
    rw [hsent, hadvance.1, hadvance.2.1]
  · rw [h] at hadvance
    exact absurd hadvance (by simp)

/-- A turn that is over has streamed all of its events. -/
theorem advance_ended {k : Conditions} {outcome : Except ProviderError String} {free : Nat}
    {actions : List Action} (hcancelled : k.cancelled = false) (hclosed : k.closed = false)
    {events : List ProviderEvent} {result : Except ProviderError String}
    (h : advance k outcome free actions = (events, .ended result)) :
    events = sent actions ∧ result = outcome := by
  rcases advance_running k outcome hcancelled hclosed free actions with
    ⟨events', rest', hold', hadvance, -⟩ | hadvance
  · rw [h] at hadvance
    exact absurd hadvance (by simp)
  · rw [h, Prod.mk.injEq, Advance.ended.injEq] at hadvance
    exact hadvance

end Turn

namespace RunTask

/-! ### Outlooks -/

/-- What will be handed on, and how the run will end. -/
structure Outlook where
  handovers : List Handover
  result : Except (RetryFailure ProviderError) String

/-- An outlook with something to be handed on before. -/
def Outlook.after (o : Outlook) (first : List Handover) : Outlook :=
  ⟨first ++ o.handovers, o.result⟩

theorem Outlook.after_after (o : Outlook) (first second : List Handover) :
    (o.after second).after first = o.after (first ++ second) := by
  rw [after, after, after, List.append_assoc]

/-- What is handed on when an attempt begins. -/
def opening (attempt : Nat) : List Handover :=
  if 1 < attempt then [.restart] else []

/-- What waits in some channels; the forwarder may have begun with the first one. -/
def pending (reading : Bool) : List Channel → List Handover
  | [] => []
  | c :: rest =>
    (if reading then [] else opening c.attempt) ++ c.events.map .event ++ pending false rest

/-- The outlook when an attempt has ended and `left` more may follow. -/
def outlookAfter (policy : RetryPolicy) (turn : Nat → Turn) :
    (left attempt : Nat) → Except ProviderError String → Outlook
  | left, attempt, outcome =>
    match policy.judge ProviderError.isRetryable false attempt outcome with
    | .ended result => ⟨[], result⟩
    | .again e _ =>
      match left with
      | 0 => ⟨[], .error (.failed attempt e)⟩
      | left + 1 =>
        (outlookAfter policy turn left (attempt + 1) (turn (attempt + 1)).outcome).after
          (opening (attempt + 1) ++ (Turn.sent (turn (attempt + 1)).actions).map .event)

/-- The outlook when an attempt is about to begin. -/
def outlookFrom (policy : RetryPolicy) (turn : Nat → Turn) (attempt : Nat) : Outlook :=
  (outlookAfter policy turn (policy.attempts - attempt) attempt (turn attempt).outcome).after
    (opening attempt ++ (Turn.sent (turn attempt).actions).map .event)

/-- The outlook of a task apart from what waits in the channels. -/
def toCome (policy : RetryPolicy) (t : RunTask) : Outlook :=
  match t.phase with
  | .launched => outlookFrom policy t.turn 1
  | .attempting attempt rest outcome _ =>
    (outlookAfter policy t.turn (policy.attempts - attempt) attempt outcome).after
      ((Turn.sent rest).map .event)
  | .resting attempt _ => outlookFrom policy t.turn (attempt + 1)
  | .ended result => ⟨[], result⟩

/-- What a task will hand on and how it will end, if its run is not cancelled. -/
def outlook (policy : RetryPolicy) (t : RunTask) : Outlook :=
  (t.toCome policy).after (pending t.reading t.channels)

/-- Whether an attempt is under way. -/
def Phase.isAttempting : Phase → Bool
  | .attempting .. => true
  | _ => false

/-- Every one of some channels is closed. -/
def Sealed (channels : List Channel) : Prop :=
  ∀ c ∈ channels, c.closed = true

/-- The channels of a task are in order. -/
structure WellFormed (t : RunTask) : Prop where
  reading : t.reading = true → t.channels ≠ []
  /-- The channel of the current attempt is the last one and the only one that is open. -/
  current : t.phase.isAttempting = true →
    ∃ before c, t.channels = before ++ [c] ∧ Sealed before ∧ c.closed = false
  between : t.phase.isAttempting = false → Sealed t.channels
  drained : t.drained = true → t.isExhausted = true

/-! ### Channels -/

theorem pending_append (reading : Bool) (channels : List Channel) (c : Channel)
    (h : reading = true → channels ≠ []) :
    pending reading (channels ++ [c]) =
      pending reading channels ++ (opening c.attempt ++ c.events.map .event) := by
  induction channels generalizing reading with
  | nil =>
      -- A forwarder that has begun with a channel has one, so that the new one is not begun.
      cases reading with
      | true => exact absurd rfl (h rfl)
      | false => simp [pending]
  | cons d rest ih =>
      rw [List.cons_append, pending, pending, ih false (by simp)]
      simp only [List.append_assoc]

theorem onLast_append (f : Channel → Channel) (channels : List Channel) (c : Channel) :
    onLast f (channels ++ [c]) = channels ++ [f c] := by
  induction channels with
  | nil => rfl
  | cons d rest ih =>
      cases rest with
      | nil => rfl
      | cons e rest => exact congrArg (d :: ·) ih

theorem streamed_channels (t : RunTask) (events : List ProviderEvent) (closed : Bool)
    (before : List Channel) (c : Channel) (h : t.channels = before ++ [c]) :
    (t.streamed events closed).channels =
      before ++ [{ c with events := c.events ++ events, closed }] := by
  rw [streamed]
  simp only [h, onLast_append]

theorem pending_streamed (t : RunTask) (events : List ProviderEvent) (closed : Bool)
    (before : List Channel) (c : Channel) (h : t.channels = before ++ [c]) :
    pending t.reading (t.streamed events closed).channels =
      pending t.reading t.channels ++ events.map .event := by
  rw [streamed_channels t events closed before c h, h]
  -- The current channel is the first one or comes after others.
  cases before with
  | nil => simp [pending]
  | cons d rest =>
      rw [List.cons_append, List.cons_append, pending, pending,
        pending_append false rest _ (by simp), pending_append false rest _ (by simp)]
      simp only [List.map_append, List.append_assoc]

/-! ### The driver -/

/-- Another attempt follows only while attempts are left. -/
theorem judge_again (policy : RetryPolicy) (attempt : Nat)
    (outcome : Except ProviderError String) (e : ProviderError) (delay : Nat)
    (h : policy.judge ProviderError.isRetryable false attempt outcome = .again e delay) :
    attempt < policy.attempts := by
  cases outcome with
  | ok value => simp [RetryPolicy.judge] at h
  | error e' =>
      simp only [RetryPolicy.judge, Bool.false_eq_true, if_false] at h
      split at h
      · exact absurd h (by simp)
      · next hn =>
          simp only [Bool.or_eq_true, decide_eq_true_eq, not_or] at hn
          omega

section

variable {policy : RetryPolicy} {k : Turn.Conditions} {left attempt : Nat}
  {actions : List Turn.Action} {outcome : Except ProviderError String} {t t' : RunTask}

theorem outlookAfter_ended {turn : Nat → Turn} {result : Except (RetryFailure ProviderError) String}
    (h : policy.judge ProviderError.isRetryable false attempt outcome = .ended result) :
    outlookAfter policy turn left attempt outcome = ⟨[], result⟩ := by
  rw [outlookAfter, h]

theorem outlookAfter_again {turn : Nat → Turn} {e : ProviderError} {delay : Nat}
    (h : policy.judge ProviderError.isRetryable false attempt outcome = .again e delay) :
    outlookAfter policy turn (left + 1) attempt outcome =
      (outlookAfter policy turn left (attempt + 1) (turn (attempt + 1)).outcome).after
        (opening (attempt + 1) ++ (Turn.sent (turn (attempt + 1)).actions).map .event) := by
  rw [outlookAfter, h]

/-- An attempt that goes on, and everything that follows it at once, keeps the outlook. -/
theorem Proceeds.outlook (h : Proceeds policy k left attempt actions outcome t t')
    (hcancelled : k.cancelled = false) (hclosed : k.closed = false)
    (hleft : left = policy.attempts - attempt) (before : List Channel) (c : Channel)
    (hlast : t.channels = before ++ [c]) :
    t'.outlook policy = (outlookAfter policy t.turn left attempt outcome).after
      (pending t.reading t.channels ++ (Turn.sent actions).map .event) := by
  induction h generalizing before c with
  | @held left attempt actions outcome t events rest hold hadvance =>
      -- The turn is held up, so that the rest of it is still to come.
      have hsent := Turn.advance_held hcancelled hclosed hadvance
      have hp := pending_streamed t events false before c hlast
      simp only [RunTask.outlook, toCome, Outlook.after_after, ← hleft]
      rw [hsent, List.map_append, ← List.append_assoc, ← hp]
      rfl
  | @ended left attempt actions outcome t events result final hadvance hjudge =>
      obtain ⟨rfl, rfl⟩ := Turn.advance_ended hcancelled hclosed hadvance
      have hp := pending_streamed t (Turn.sent actions) true before c hlast
      rw [hcancelled] at hjudge
      simp only [RunTask.outlook, toCome]
      rw [outlookAfter_ended hjudge, ← hp]
      rfl
  | @rests left attempt actions outcome t events result e delay hadvance hjudge hdelay =>
      obtain ⟨rfl, rfl⟩ := Turn.advance_ended hcancelled hclosed hadvance
      have hp := pending_streamed t (Turn.sent actions) true before c hlast
      rw [hcancelled] at hjudge
      -- There is a further attempt, since otherwise it would have been the last one.
      have hmore := judge_again policy attempt result e delay hjudge
      obtain ⟨n, rfl⟩ : ∃ n, left = n + 1 := ⟨left - 1, by omega⟩
      have hnext : n = policy.attempts - (attempt + 1) := by omega
      simp only [RunTask.outlook, toCome]
      rw [outlookAfter_again hjudge, ← hp, outlookFrom, ← hnext, Outlook.after_after,
        Outlook.after_after]
      rfl
  | @spent attempt actions outcome t events result e delay hadvance hjudge =>
      obtain ⟨-, rfl⟩ := Turn.advance_ended hcancelled hclosed hadvance
      rw [hcancelled] at hjudge
      have hmore := judge_again policy attempt result e delay hjudge
      omega
  | @again left attempt actions outcome t t' events result e delay hadvance hjudge hnext ih =>
      obtain ⟨rfl, rfl⟩ := Turn.advance_ended hcancelled hclosed hadvance
      have hp := pending_streamed t (Turn.sent actions) true before c hlast
      have hchannels := streamed_channels t (Turn.sent actions) true before c hlast
      have hopen := pending_append t.reading (t.streamed (Turn.sent actions) true).channels
        ⟨attempt + 1, [], false⟩ (fun _ => by rw [hchannels]; simp)
      rw [List.map_nil, List.append_nil] at hopen
      rw [hcancelled] at hjudge
      rw [ih (by omega) _ _ rfl, outlookAfter_again hjudge, Outlook.after_after, ← hp,
        ← List.append_assoc, ← hopen]
      rfl

theorem sealed_append {before : List Channel} {c : Channel} (h : Sealed before)
    (hc : c.closed = true) : Sealed (before ++ [c]) := by
  intro d hd
  rcases List.mem_append.mp hd with hd | hd
  · exact h d hd
  · rw [List.mem_singleton.mp hd]
    exact hc

/-- The channel of the attempt that is made last is the last one, and open as long as the
    attempt is under way. -/
theorem Proceeds.current (h : Proceeds policy k left attempt actions outcome t t')
    (before : List Channel) (c : Channel) (hlast : t.channels = before ++ [c])
    (hsealed : Sealed before) :
    ∃ before' c', t'.channels = before' ++ [c'] ∧ Sealed before' ∧
      c'.closed = !t'.phase.isAttempting := by
  induction h generalizing before c with
  | held events rest hold hadvance =>
      exact ⟨before, _, streamed_channels _ events false before c hlast, hsealed, rfl⟩
  | ended events =>
      exact ⟨before, _, streamed_channels _ events true before c hlast, hsealed, rfl⟩
  | rests events =>
      exact ⟨before, _, streamed_channels _ events true before c hlast, hsealed, rfl⟩
  | spent events =>
      exact ⟨before, _, streamed_channels _ events true before c hlast, hsealed, rfl⟩
  | again events result e delay hadvance hjudge hnext ih =>
      -- A new channel is opened only after the current one was closed.
      refine ih _ _ rfl ?_
      rw [streamed_channels _ events true before c hlast]
      exact sealed_append hsealed rfl

theorem Proceeds.wellFormed (h : Proceeds policy k left attempt actions outcome t t')
    (before : List Channel) (c : Channel) (hlast : t.channels = before ++ [c])
    (hsealed : Sealed before) (hdrained : t.drained = false) : t'.WellFormed := by
  rcases h.current before c hlast hsealed with ⟨before', c', hchannels, hsealed', hclosed⟩
  refine ⟨fun _ => ?_, fun hp => ?_, fun hp => ?_, fun hd => ?_⟩
  · rw [hchannels]
    simp
  · exact ⟨before', c', hchannels, hsealed', by rw [hclosed, hp]; rfl⟩
  · rw [hchannels]
    exact sealed_append hsealed' (by rw [hclosed, hp]; rfl)
  · rw [h.reading.2, hdrained] at hd
    exact absurd hd (by simp)

end

/-- A task whose forwarder has ended has nothing to do but end. -/
theorem WellFormed.not_drained {t : RunTask} (h : t.WellFormed) (hp : t.isEnded = false) :
    t.drained = false := by
  cases hd : t.drained with
  | false => rfl
  | true =>
      have := h.drained hd
      rw [isExhausted, hp] at this
      exact absurd this (by simp)

theorem begin_outlook (policy : RetryPolicy) (k : Turn.Conditions)
    (hcancelled : k.cancelled = false) (hclosed : k.closed = false) (attempt : Nat)
    (t : RunTask) (hreading : t.reading = true → t.channels ≠ []) :
    (t.begin policy k attempt).outlook policy =
      (outlookFrom policy t.turn attempt).after (pending t.reading t.channels) := by
  have hopen := pending_append t.reading t.channels ⟨attempt, [], false⟩ hreading
  rw [List.map_nil, List.append_nil] at hopen
  unfold begin
  rw [hcancelled, if_neg Bool.false_ne_true]
  simp only
  rw [(proceed_proceeds ..).outlook hcancelled hclosed rfl t.channels _ rfl,
    outlookFrom, Outlook.after_after, ← List.append_assoc, ← hopen]
  rfl

theorem begin_wellFormed (policy : RetryPolicy) (k : Turn.Conditions)
    (hcancelled : k.cancelled = false) (attempt : Nat) (t : RunTask)
    (hsealed : Sealed t.channels) (hdrained : t.drained = false) :
    (t.begin policy k attempt).WellFormed := by
  unfold begin
  rw [hcancelled, if_neg Bool.false_ne_true]
  exact (proceed_proceeds ..).wellFormed t.channels _ rfl hsealed hdrained

/-- A driver that goes on keeps the outlook. -/
theorem drive_outlook (policy : RetryPolicy) (now : Nat) (t : RunTask) (h : t.WellFormed) :
    (t.drive policy now false).outlook policy = t.outlook policy := by
  simp only [drive]
  cases hp : t.phase with
  | launched =>
      simp only [outlook, toCome, hp]
      exact begin_outlook policy _ rfl rfl 1 t h.reading
  | attempting attempt rest outcome hold =>
      rcases h.current (by rw [hp]; rfl) with ⟨before, c, hchannels, -, -⟩
      have hp' := (proceed_proceeds policy ⟨now, false, false⟩ _ attempt rest outcome t).outlook
        rfl rfl rfl before c hchannels
      simp only [hp']
      simp only [outlook, toCome, hp, Outlook.after_after]
  | resting attempt time =>
      simp only [Bool.false_eq_true, if_false]
      -- A rest that is not over yet changes nothing.
      by_cases ht : time ≤ now
      · rw [if_pos ht, begin_outlook policy _ rfl rfl (attempt + 1) t h.reading]
        simp only [outlook, toCome, hp]
      · rw [if_neg ht]
  | ended result => rfl

theorem drive_wellFormed (policy : RetryPolicy) (now : Nat) (t : RunTask) (h : t.WellFormed) :
    (t.drive policy now false).WellFormed := by
  -- A driver begins an attempt when it starts and after a pause; within an attempt it goes on.
  simp only [drive]
  cases hp : t.phase with
  | launched =>
      exact begin_wellFormed policy _ rfl 1 t (h.between (by rw [hp]; rfl))
        (h.not_drained (by simp [isEnded, hp]))
  | attempting attempt rest outcome hold =>
      rcases h.current (by rw [hp]; rfl) with ⟨before, c, hchannels, hsealed, -⟩
      exact (proceed_proceeds ..).wellFormed before c hchannels hsealed
        (h.not_drained (by simp [isEnded, hp]))
  | resting attempt time =>
      simp only [Bool.false_eq_true, if_false]
      by_cases ht : time ≤ now
      · rw [if_pos ht]
        exact begin_wellFormed policy _ rfl _ t (h.between (by rw [hp]; rfl))
          (h.not_drained (by simp [isEnded, hp]))
      · rw [if_neg ht]
        exact h
  | ended result => exact h

/-! ### The forwarder -/

/-- What is handed on, as a list without the handovers of nothing. -/
def Handover.told : Handover → List Handover
  | .nothing => []
  | h => [h]

/-- A step of the forwarder hands on the first thing of the outlook. -/
theorem forward?_outlook (policy : RetryPolicy) (t t' : RunTask) (h : Handover)
    (hf : t.forward? = some (h, t')) :
    t.outlook policy = (t'.outlook policy).after h.told := by
  rcases forward?_cases t t' h hf with
    ⟨c, rest, hchannels, ⟨hr, rfl, rfl⟩ | ⟨hr, e, events, he, rfl, rfl⟩ | ⟨hr, he, -, rfl, rfl⟩⟩
  -- A channel is begun with: what is handed on is the opening of its attempt.
  · have htold : (if 1 < c.attempt then Handover.restart else .nothing).told =
        opening c.attempt := by
      rw [opening]
      split <;> rfl
    rw [outlook, outlook, hchannels, Outlook.after_after, htold, hr]
    simp only [pending, Bool.false_eq_true, if_false, if_true, List.nil_append,
      List.append_assoc]
    rfl
  -- An event is taken out.
  · rw [outlook, outlook, hchannels, Outlook.after_after, hr]
    simp only [pending, if_true, List.nil_append, he, List.map_cons]
    rfl
  · rw [outlook, outlook, hchannels, Outlook.after_after, hr]
    simp only [pending, if_true, List.nil_append, he, List.map_nil, Handover.told]
    rfl

theorem forward?_wellFormed (t t' : RunTask) (h : Handover) (hf : t.forward? = some (h, t'))
    (hw : t.WellFormed) : t'.WellFormed := by
  rcases forward?_cases t t' h hf with ⟨c, rest, hchannels, hcase⟩
  -- A forwarder that has ended takes no step.
  have hdrained : t.drained = false := by
    cases hd : t.drained with
    | false => rfl
    | true =>
        have := hw.drained hd
        rw [isExhausted, hchannels] at this
        exact absurd this (by simp)
  have hkeep : ∀ u : RunTask, u.drained = t.drained → u.drained = true → u.isExhausted = true :=
    fun u hu hd => absurd (hdrained.symm.trans (hu.symm.trans hd)) (by simp)
  rcases hcase with ⟨-, -, rfl⟩ | ⟨-, e, events, -, -, rfl⟩ | ⟨-, -, hclosed, -, rfl⟩
  -- The channels are as before.
  · refine ⟨fun _ => ?_, hw.current, hw.between, hkeep _ rfl⟩
    simp only [hchannels]
    simp
  -- The first channel has one event less, and may be the current one.
  · refine ⟨fun _ => by simp, fun hp => ?_, fun hp => ?_, hkeep _ rfl⟩
    · rcases hw.current hp with ⟨before, d, hd, hsealed, hopen⟩
      rw [hchannels] at hd
      cases before with
      | nil =>
          rw [List.nil_append, List.cons.injEq] at hd
          exact ⟨[], { c with events }, by rw [hd.2]; rfl, hsealed, by rw [hd.1]; exact hopen⟩
      | cons b before =>
          rw [List.cons_append, List.cons.injEq] at hd
          refine ⟨{ c with events } :: before, d, by rw [hd.2]; rfl, ?_, hopen⟩
          rw [hd.1]
          exact List.forall_mem_cons.mpr (List.forall_mem_cons.mp hsealed)
    · have hsealed := hw.between hp
      rw [hchannels] at hsealed
      exact List.forall_mem_cons.mpr (List.forall_mem_cons.mp hsealed)
  · refine ⟨fun hr => absurd hr (by simp), fun hp => ?_, fun hp => ?_, hkeep _ rfl⟩
    · rcases hw.current hp with ⟨before, d, hd, hsealed, hopen⟩
      rw [hchannels] at hd
      cases before with
      | nil =>
          -- The channel that is given up would be the open one.
          rw [List.nil_append, List.cons.injEq] at hd
          rw [← hd.1, hclosed] at hopen
          exact absurd hopen (by simp)
      | cons b before =>
          rw [List.cons_append, List.cons.injEq] at hd
          exact ⟨before, d, hd.2, (List.forall_mem_cons.mp hsealed).2, hopen⟩
    · have hsealed := hw.between hp
      rw [hchannels] at hsealed
      exact (List.forall_mem_cons.mp hsealed).2

/-! ### Steps -/

/-- A step of a task whose run is not cancelled, with what is handed on. -/
inductive Step (policy : RetryPolicy) : RunTask → Handover → RunTask → Prop
  | rest {t : RunTask} : Step policy t .nothing t
  | drive {t : RunTask} (clock : Nat) : Step policy t .nothing (t.drive policy clock false)
  | forward {t t' : RunTask} {h : Handover} (hf : t.forward? = some (h, t')) : Step policy t h t'
  | drain {t : RunTask} : Step policy t .nothing { t with drained := t.isExhausted }

variable {policy : RetryPolicy} {t t' : RunTask} {h : Handover}

theorem Step.mandate (hs : Step policy t h t') : t'.mandate = t.mandate := by
  cases hs with
  | rest => rfl
  | drive clock => exact drive_mandate ..
  | forward hf => exact forward?_mandate t t' h hf
  | drain => rfl

theorem Step.wellFormed (hs : Step policy t h t') (hw : t.WellFormed) : t'.WellFormed := by
  cases hs with
  | rest => exact hw
  | drive clock => exact drive_wellFormed policy clock t hw
  | forward hf => exact forward?_wellFormed t t' h hf hw
  | drain => exact ⟨hw.reading, hw.current, hw.between, id⟩

/-- A step takes from the front of the outlook what it hands on. -/
theorem Step.outlook (hs : Step policy t h t') (hw : t.WellFormed) :
    t.outlook policy = (t'.outlook policy).after h.told := by
  cases hs with
  | rest => rfl
  | drive clock => exact (drive_outlook policy clock t hw).symm
  | forward hf => exact forward?_outlook policy t t' h hf
  | drain => rfl

/-- A task whose forwarder has ended has nothing more to hand on, and its result is the one it
    was going to have. -/
theorem outlook_drained (policy : RetryPolicy) (t : RunTask) (hw : t.WellFormed)
    (hd : t.drained = true) : (t.outlook policy).handovers = [] ∧
      t.status? = some (statusOf (t.outlook policy).result) := by
  have hx := hw.drained hd
  rw [isExhausted, Bool.and_eq_true, List.isEmpty_iff] at hx
  cases hp : t.phase with
  | ended result =>
      simp only [outlook, toCome, hp, hx.2, status?]
      exact ⟨rfl, rfl⟩
  | _ => simp [isEnded, hp] at hx

/-! ### Tasks that have not begun -/

/-- Whether no attempt follows an attempt, whatever it streams: it succeeds, or its error is not
    worth another attempt, or it is the last one allowed. -/
def IsLast (policy : RetryPolicy) (turn : Nat → Turn) (attempt : Nat) : Prop :=
  (∃ value, (turn attempt).outcome = .ok value) ∨
    (∃ e, (turn attempt).outcome = .error e ∧ e.isRetryable = false) ∨
    attempt = policy.attempts

/-- Everything that is handed on for a further attempt. -/
def further (turn : Nat → Turn) (attempt : Nat) : List Handover :=
  .restart :: (Turn.sent (turn attempt).actions).map .event

/-- Everything that is handed on for the attempts up to the last one, in order. -/
def script (turn : Nat → Turn) (last : Nat) : List Handover :=
  (Turn.sent (turn 1).actions).map .event ++ (List.range' 2 (last - 1)).flatMap (further turn)

/-- How a run ends after its last attempt. -/
def resultOf (last : Nat) : Except ProviderError String →
    Except (RetryFailure ProviderError) String
  | .ok value => .ok value
  | .error e => .error (.failed last e)

/-- How a run is said to have ended after its last attempt. -/
def statusAfter : Except ProviderError String → FinalStatus
  | .ok _ => .completed
  | .error .cancelled => .cancelled
  | .error _ => .error

theorem statusOf_resultOf (last : Nat) (outcome : Except ProviderError String) :
    statusOf (resultOf last outcome) = statusAfter outcome := by
  cases outcome with
  | ok value => rfl
  | error e => cases e <;> rfl

/-- Whether an attempt is the first last one from another attempt on. -/
structure EndsAt (policy : RetryPolicy) (turn : Nat → Turn) (first last : Nat) : Prop where
  le : first ≤ last
  le_attempts : last ≤ policy.attempts
  isLast : IsLast policy turn last
  before : ∀ n, first ≤ n → n < last → ¬IsLast policy turn n

variable {turn : Nat → Turn}

theorem EndsAt.unique {first last last' : Nat} (h : EndsAt policy turn first last)
    (h' : EndsAt policy turn first last') : last = last' := by
  rcases Nat.lt_trichotomy last last' with hlt | heq | hlt
  · exact absurd h.isLast (h'.before last h.le hlt)
  · exact heq
  · exact absurd h'.isLast (h.before last' h'.le hlt)

/-- What is decided after an attempt. -/
theorem judge_isLast (attempt : Nat)
    (hlast : IsLast policy turn attempt) :
    policy.judge ProviderError.isRetryable false attempt (turn attempt).outcome =
      .ended (resultOf attempt (turn attempt).outcome) := by
  cases ho : (turn attempt).outcome with
  | ok value => rfl
  | error e =>
      rcases hlast with ⟨value, hok⟩ | ⟨e', he, hr⟩ | hn
      · rw [ho] at hok
        exact absurd hok (by simp)
      · rw [ho, Except.error.injEq] at he
        simp [RetryPolicy.judge, resultOf, he, hr]
      · simp [RetryPolicy.judge, resultOf, hn]

theorem judge_not_isLast (attempt : Nat) (hle : attempt ≤ policy.attempts)
    (hlast : ¬IsLast policy turn attempt) :
    attempt < policy.attempts ∧ ∃ e delay,
      policy.judge ProviderError.isRetryable false attempt (turn attempt).outcome =
        .again e delay := by
  -- What is not the last attempt failed with an error worth another one.
  rw [IsLast, not_or, not_or] at hlast
  rcases hlast with ⟨hok, hretry, hn⟩
  have hlt : attempt < policy.attempts := Nat.lt_of_le_of_ne hle hn
  refine ⟨hlt, ?_⟩
  cases ho : (turn attempt).outcome with
  | ok value => exact absurd ⟨value, ho⟩ hok
  | error e =>
      have hr : e.isRetryable = true := by
        cases hr : e.isRetryable with
        | true => rfl
        | false => exact absurd ⟨e, ho, hr⟩ hretry
      refine ⟨e, policy.delayAfter attempt, ?_⟩
      simp [RetryPolicy.judge, hr, hlt]

/-- The outlook after an attempt goes up to the first attempt from there on that is the last
    one. -/
theorem outlookAfter_eq (left attempt : Nat) (hleft : left = policy.attempts - attempt)
    (hpos : 1 ≤ attempt) (hle : attempt ≤ policy.attempts) :
    ∃ last, EndsAt policy turn attempt last ∧
      outlookAfter policy turn left attempt (turn attempt).outcome =
        ⟨(List.range' (attempt + 1) (last - attempt)).flatMap (further turn),
          resultOf last (turn last).outcome⟩ := by
  induction left generalizing attempt with
  | zero =>
      -- No attempt is left, so that this one is the last one allowed.
      have hlast : IsLast policy turn attempt := Or.inr (Or.inr (by omega))
      refine ⟨attempt, ⟨Nat.le_refl _, hle, hlast, fun n _ _ => by omega⟩, ?_⟩
      rw [outlookAfter_ended (judge_isLast attempt hlast), Nat.sub_self]
      rfl
  | succ left ih =>
      by_cases hlast : IsLast policy turn attempt
      · refine ⟨attempt, ⟨Nat.le_refl _, hle, hlast, fun n _ _ => by omega⟩, ?_⟩
        rw [outlookAfter_ended (judge_isLast attempt hlast), Nat.sub_self]
        rfl
      · rcases judge_not_isLast attempt hle hlast with ⟨hlt, e, delay, hj⟩
        rcases ih (attempt + 1) (by omega) (by omega) hlt with ⟨last, hends, heq⟩
        have hopening : opening (attempt + 1) = [.restart] := if_pos (by omega)
        -- This attempt is one more than those that follow it.
        have hcount : last - attempt = (last - (attempt + 1)) + 1 := by
          have := hends.le
          omega
        refine ⟨last, ⟨by have := hends.le; omega, hends.le_attempts, hends.isLast, ?_⟩, ?_⟩
        · intro n hn hnl
          rcases Nat.eq_or_lt_of_le hn with rfl | hn
          · exact hlast
          · exact hends.before n hn hnl
        · rw [outlookAfter_again hj, heq, hopening, hcount, List.range'_succ, List.flatMap_cons]
          rfl

/-- The outlook of a task that has not begun: what its turns send up to the first attempt that
    is the last one, with a restart before each further attempt. -/
theorem launch_outlook (policy : RetryPolicy) (key : RunKey) (prompt : String)
    (provider : Provider) (guard : Guard) :
    ∃ last, EndsAt policy (launch key prompt provider guard).turn 1 last ∧
      (launch key prompt provider guard).outlook policy =
        ⟨script (launch key prompt provider guard).turn last,
          resultOf last ((launch key prompt provider guard).turn last).outcome⟩ := by
  have hle : 1 ≤ policy.attempts := Nat.le_max_right ..
  rcases @outlookAfter_eq policy (launch key prompt provider guard).turn _ 1 rfl
    (Nat.le_refl _) hle with ⟨last, hends, heq⟩
  refine ⟨last, hends, ?_⟩
  have hfrom : (launch key prompt provider guard).outlook policy =
      (outlookFrom policy (launch key prompt provider guard).turn 1).after [] := rfl
  rw [hfrom, outlookFrom, heq]
  rfl

theorem launch_wellFormed (key : RunKey) (prompt : String) (provider : Provider)
    (guard : Guard) : (launch key prompt provider guard).WellFormed where
  reading h := absurd h Bool.false_ne_true
  current h := absurd h Bool.false_ne_true
  between _ _ h := absurd h List.not_mem_nil
  drained h := absurd h Bool.false_ne_true

end RunTask

end Switchboard

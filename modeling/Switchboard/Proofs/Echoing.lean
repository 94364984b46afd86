import Switchboard.Proofs.Courses

/-!
# What an Echo Sends

A turn of the echo provider is attentive: it heeds the cancellation of its run in
everything it does, and the last thing it does is to report that its tool call is
done. So everything that holds of the courses of attentive turns holds of an echo,
whatever the prompt, the pauses, the channel, its reader and the moment of
cancellation: what was sent is a first part of `Echo.events`, and the turn succeeds
exactly if it is the whole. That list is written out here with its updates, apart from
the turn, which builds its own as it goes.

The text of a successful turn is written down in three ways that agree: the provider
collects it chunk by chunk, a reader puts it together from the deltas, and the prompt
has it as its words with a single blank between them. The first chunk is bare and every
other one begins with a blank, so that the blanks stand between the words.

## Main definitions

* `Echo.events`: Everything a complete turn sends, in order.
* `ProviderEvent.delta?`: The text that an event adds.
* `ProviderEvent.ReportsDone`: An event that says of a tool call that it is done.

## Theorems

* `Echo.join_chunks`: The chunks of some words are the words joined by blanks.
* `Echo.turn_attentive`, `Echo.turn_sent`: What an echo does, and what it sends.
* `Echo.not_reportsDone`: Nothing but the last event reports that the call is done.
* `Echo.turn_course`: What becomes of an echo, whatever happens around it.
-/

namespace Switchboard

/-- The text that an event adds to the answer, if it adds one. -/
def ProviderEvent.delta? : ProviderEvent → Option String
  | .delta text => some text
  | .tool _ => none

/-- An event that says of a tool call that it is done. -/
def ProviderEvent.ReportsDone (event : ProviderEvent) : Prop :=
  ∃ update, event = .tool update ∧ update.status = some "done"

namespace Echo

/-- The texts of some words: the first word is bare, every later one comes after one blank. -/
def deltas (words : List String) : List ProviderEvent :=
  (words.take 1).map .delta ++ (words.drop 1).map fun word => .delta (" " ++ word)

/-- Everything a complete turn sends, in order. -/
def events (run prompt : String) : List ProviderEvent :=
  let call := run ++ "-echo"
  let words := Text.words prompt
  [.tool ⟨call, some "echo", some "requesting", none, none, none⟩,
    .tool ⟨call, none, some "running", some "streaming", none, none⟩] ++
    deltas words ++
    [.tool ⟨call, none, some "done", none, some (.obj [("words", .ofNat words.length)]), none⟩]

/-! ### The text -/

theorem join_spaced (words : List String) (word : String) :
    String.join (word :: words.map fun w => " " ++ w) = " ".intercalate (word :: words) := by
  induction words generalizing word with
  | nil => simp
  | cons next rest ih =>
      rw [List.map_cons, String.join_cons, String.join_cons, String.intercalate_cons_cons,
        ← ih next, String.join_cons]
      simp only [String.append_assoc]

/-- The chunks of some words put together are the words with a blank between any two. -/
theorem join_chunks (words : List String) :
    String.join (chunks words) = " ".intercalate words := by
  cases words with
  | nil => simp [chunks]
  | cons word rest => exact join_spaced rest word

theorem map_chunks (words : List String) : (chunks words).map .delta = deltas words := by
  cases words with
  | nil => rfl
  | cons word rest => exact congrArg (ProviderEvent.delta word :: ·) List.map_map

/-- The deltas of a complete turn are the chunks of the prompt. -/
theorem events_deltas (run prompt : String) :
    (events run prompt).filterMap ProviderEvent.delta? = chunks (Text.words prompt) := by
  have hspoken (texts : List String) :
      (texts.map ProviderEvent.delta).filterMap ProviderEvent.delta? = texts :=
    List.filterMap_map.trans List.filterMap_some
  -- What is reported of the tool call has no text.
  rw [events, ← map_chunks, List.filterMap_append, List.filterMap_append, hspoken]
  exact List.append_nil _

/-! ### The turn -/

theorem spoken_sent (delay : Nat) (texts : List String) :
    Turn.sent (texts.flatMap (spoken delay)) = texts.map .delta := by
  induction texts with
  | nil => rfl
  | cons text rest ih => exact congrArg (.delta text :: ·) ih

/-- A complete turn sends its events. -/
theorem turn_sent (delay : Nat) (request : TurnRequest) :
    Turn.sent (turn delay request).actions = events request.run request.prompt := by
  have happend (first second : List Turn.Action) :
      Turn.sent (first ++ second) = Turn.sent first ++ Turn.sent second :=
    List.filterMap_append
  rw [turn, happend, happend, spoken_sent, map_chunks]
  rfl

theorem spoken_heeds (delay : Nat) (text : String) :
    ∀ a ∈ spoken delay text, a.isHeedful = true := by
  simp [spoken, Turn.Action.isHeedful]

/-- An echo heeds the cancellation of its run in everything it does, and sends last. -/
theorem turn_attentive (delay : Nat) (request : TurnRequest) :
    Turn.Attentive (turn delay request).actions where
  heeds := by
    intro a ha
    rcases List.mem_append.mp ha with ha | ha
    · rcases List.mem_append.mp ha with ha | ha
      · simp only [List.mem_cons, List.not_mem_nil, or_false] at ha
        rcases ha with rfl | rfl <;> rfl
      · obtain ⟨text, -, ha⟩ := List.mem_flatMap.mp ha
        exact spoken_heeds delay text a ha
    · rw [List.mem_singleton.mp ha]
      rfl
  last := ⟨_, List.getLast?_concat⟩

/-- Of the events of a turn only the last one reports that the tool call is done. -/
theorem not_reportsDone (run prompt : String) {event : ProviderEvent}
    (h : event ∈ (events run prompt).dropLast) : ¬ event.ReportsDone := by
  rw [events, List.dropLast_concat] at h
  rintro ⟨update, rfl, hdone⟩
  rcases List.mem_append.mp h with h | h
  · simp only [List.mem_cons, ProviderEvent.tool.injEq, List.not_mem_nil, or_false] at h
    rcases h with rfl | rfl <;> exact absurd hdone (by simp)
  -- A delta is not about the tool call.
  · rw [← map_chunks] at h
    simp at h

/-! ### Its courses -/

/-- What becomes of an echo, whatever happens around it and when: which events it sends, how
    it ends and why, and what a cancellation does. -/
theorem turn_course (delay : Nat) (request : TurnRequest) (capacity : Nat)
    (incidents : List Turn.Incident) :
    let turn := Echo.turn delay request
    let all := events request.run request.prompt
    let after := fun happened : List Turn.Incident =>
      (Turn.Course.begin turn).run capacity turn.outcome happened
    let c := after incidents
    -- What was sent is a first part of the whole, and the channel holds no more than it can.
    c.sent <+: all ∧
    c.channel.length ≤ capacity ∧
    -- The turn succeeds exactly if the whole was sent, with the words of the prompt.
    ((∃ text, c.result = some (.ok text)) ↔ c.sent = all) ∧
    (∀ text, c.result = some (.ok text) →
      text = " ".intercalate (Text.words request.prompt) ∧
      text = String.join (c.sent.filterMap ProviderEvent.delta?)) ∧
    -- Otherwise it was cancelled or nobody listened, and it has not reported that it is done.
    (∀ e, c.result = some (.error e) →
      e = .cancelled ∧ (.cancel ∈ incidents ∨ .close ∈ incidents) ∧
      ∀ event ∈ c.sent, ¬ event.ReportsDone) ∧
    -- After a cancellation, and after the end, nothing more is sent.
    (.cancel ∈ incidents ∨ c.result.isSome = true →
      ∀ more, (after (incidents ++ more)).sent = c.sent) ∧
    -- A turn that is under way when it is cancelled ends as soon as it goes on.
    (.cancel ∈ incidents → c.result = none → ∀ limit,
      (after (incidents ++ [.resume limit])).result = some (.error .cancelled)) ∧
    -- Nothing but a full channel and the pauses keep a turn from its end.
    (0 < capacity → ∃ more : List Turn.Incident, (∀ i ∈ more, i.IsOrdinary) ∧
      (after (incidents ++ more)).result.isSome = true) := by
  intro turn all after c
  -- An echo is attentive, so that its course stands in one of three ways.
  have hsent : Turn.sent turn.actions = all := turn_sent delay request
  have houtcome : turn.outcome = .ok (answer request.prompt) := rfl
  have hstands : c.Stands turn :=
    Turn.Course.run_stands (Turn.Course.begin_stands (turn_attentive delay request)) incidents
  have hflags := @Turn.Course.run_flags capacity (Turn.Course.begin turn) turn.outcome incidents
  have hcancelled : c.cancelled = true ↔ .cancel ∈ incidents :=
    hflags.1.trans (or_iff_right Bool.false_ne_true)
  have hclosed : c.closed = true ↔ .close ∈ incidents :=
    hflags.2.trans (or_iff_right Bool.false_ne_true)
  -- What happens later happens to the course as it stands.
  have hafter (more : List Turn.Incident) :
      after (incidents ++ more) = c.run capacity turn.outcome more :=
    Turn.Course.run_append ..
  refine ⟨hsent ▸ hstands.sent_prefix, Turn.Course.run_room (Nat.zero_le _) _ _, ⟨?_, ?_⟩, ?_, ?_,
    ?_, ?_, ?_⟩
  -- The whole was sent or given up.
  · rintro ⟨text, hresult⟩
    exact hsent ▸ (hstands.of_ok hresult).1
  · intro hwhole
    exact ⟨_, hstands.result_of_sent (hwhole.trans hsent.symm)⟩
  · intro text hresult
    obtain ⟨hwhole, htext⟩ := hstands.of_ok hresult
    obtain rfl : answer request.prompt = text := Except.ok.inj (houtcome.symm.trans htext)
    rw [hwhole, hsent, events_deltas]
    exact ⟨join_chunks _, rfl⟩
  · intro e hresult
    obtain ⟨he, hwhy, hfirst⟩ := hstands.of_error houtcome hresult
    rw [hsent] at hfirst
    exact ⟨he, hwhy.imp hcancelled.mp hclosed.mp, fun event hevent =>
      not_reportsDone _ _ (hfirst.subset hevent)⟩
  · intro hstopped more
    rw [hafter]
    exact Turn.Course.run_stopped hstands (hstopped.imp hcancelled.mpr id) more
  · intro hcancel hresult limit
    rw [hafter]
    cases hstands with
    | complete hsome | givenUp hsome => exact absurd (hresult.symm.trans hsome) (by simp)
    | underWay _ hleft _ =>
        -- A turn under way finds the run cancelled when it goes on.
        show (c.resume capacity turn.outcome limit).result = _
        rw [Turn.Course.resume_cancelled hresult hleft (hcancelled.mpr hcancel)]
        rfl
  · intro hcapacity
    obtain ⟨more, hmore, hend⟩ := Turn.Course.exists_end hstands hcapacity
    exact ⟨more, hmore, hafter more ▸ hend⟩

end Echo

end Switchboard

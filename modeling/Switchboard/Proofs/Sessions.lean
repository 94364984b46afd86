import Switchboard.Proofs.Requests

/-!
# Sessions of a Connection

One connection from the time it is opened, with everything that can happen to it
in whatever order: messages come in, the server reads one, takes a frame out of
the mailbox, pings, loses patience or finds itself cut off, and meanwhile others
move the coordinator. The steps of the server are those of `Connection`; what is
added is that they are turns of a loop, which takes no other turn before what it
has to write is written. Others can do a lot in that time.

What happens is told in a log: which texts were read, which frames came into the
mailbox, and what was written. The order of a log is what this is about.
`Session.FitsFrom` says of each entry what must have been before it, and
`Session.Kept` says what the state of a session has to do with its log. Both
are kept by every event.

## Main definitions

* `Session`, `Session.Event`, `Session.step`, `Session.run`: A session and what happens to it.
* `Session.Entry`: What is told of a session.
* `Session.texts`, `Session.entered`, `Session.replies`, `Session.events`: Parts of a log.
* `Session.owed`: The text that was read and has not been answered.
* `Session.Fits`, `Session.FitsFrom`: What must have been before an entry.
* `Session.Kept`: What a session has to do with its log.

## Theorems

* `Session.fitsFrom_append`, `Session.FitsFrom.fits`: Every entry fits at its place.
* `Session.Kept.step`, `Session.Kept.run`: Every event keeps the order.
-/

namespace Switchboard

/-! ### Sessions -/

/-- A connection with what is under way in both directions. -/
structure Session where
  /-- The connection, as long as it is open. -/
  connection : Option Connection
  /-- What came in and was not yet read. -/
  inbox : List Inbound
  /-- What is being written. -/
  unsent : List Outbound
  coordinator : Coordinator

namespace Session

/-- What the server does next if there is nothing left to write. -/
inductive Turn where
  /-- Read the first message that came in. -/
  | read (clock : Nat) (now : Timestamp)
  /-- Take the first frame out of the mailbox. -/
  | forward
  | beat
  | expire
  /-- Find that no frames will come any more. -/
  | cut

/-- Something that happens. -/
inductive Event where
  | arrive (m : Inbound)
  | turn (t : Turn)
  /-- What has to be written first is written. -/
  | write
  /-- Somebody else makes a move, or a run task does. -/
  | elsewhere (m : Coordinator.Move)

/-- What is told of a session. -/
inductive Entry where
  /-- A text was read. -/
  | heard (text : String)
  /-- A frame came into the mailbox. -/
  | entered (f : Frame)
  /-- Something was written. -/
  | wrote (o : Outbound)

/-- A new session. A connection that cannot be served is ended at once. -/
def opened (config : ServerConfig) (clock : Nat) (s : Coordinator) : Session :=
  match Connection.open? config clock s with
  | some (c, s) => ⟨some c, [], [], s⟩
  | none => ⟨none, [], [.ended], s⟩

/-- The frames that came into the mailbox of a connection between two states. -/
def arrivals (connection : Nat) (s s' : Coordinator) : List Entry :=
  ((s'.hub.waiting connection).drop (s.hub.waiting connection).length).map .entered

/-- What is told when a message is read. -/
def hearing : Inbound → List Entry
  | .text text => [.heard text]
  | _ => []

/-- The server takes a turn. A turn for which there is no occasion changes nothing. -/
def take (x : Session) (c : Connection) : Turn → List Entry × Session
  | .read clock now =>
    match x.inbox with
    | [] => ([], x)
    | m :: rest =>
      let (out, connection, s) := c.receive clock now m x.coordinator
      (hearing m ++ arrivals c.id x.coordinator s, ⟨connection, rest, out, s⟩)
  | .forward =>
    match c.forward? x.coordinator with
    | none => ([], x)
    | some (out, s) => ([], { x with unsent := out, coordinator := s })
  | .beat =>
    let (out, c) := c.beat
    ([], { x with connection := some c, unsent := out })
  | .expire =>
    let (out, s) := c.expire x.coordinator
    ([], { x with connection := none, unsent := out, coordinator := s })
  | .cut =>
    if !x.coordinator.hub.roster.isAttached c.id && (x.coordinator.hub.waiting c.id).isEmpty then
      ([], { x with connection := none, unsent := [.ended], coordinator := c.leave x.coordinator })
    else ([], x)

/-- Something happens. A turn is taken only if nothing is left to write, and a connection makes
    its moves in its own turns only. -/
def step (x : Session) : Event → List Entry × Session
  | .arrive m => ([], { x with inbox := x.inbox ++ [m] })
  | .turn t =>
    match x.connection, x.unsent with
    | some c, [] => x.take c t
    | _, _ => ([], x)
  | .write =>
    match x.unsent with
    | [] => ([], x)
    | o :: rest => ([.wrote o], { x with unsent := rest })
  | .elsewhere m =>
    match x.connection with
    | none => ([], { x with coordinator := x.coordinator.perform m })
    | some c =>
      if m.isOf c.id then ([], x)
      else
        let s := x.coordinator.perform m
        (arrivals c.id x.coordinator s, { x with coordinator := s })

/-- The log and the session after some events. -/
def run : List Event → Session → List Entry × Session
  | [], x => ([], x)
  | e :: rest, x =>
    let (first, x) := x.step e
    let (more, x) := run rest x
    (first ++ more, x)

theorem run_cons (e : Event) (rest : List Event) (x : Session) :
    run (e :: rest) x =
      ((x.step e).1 ++ (run rest (x.step e).2).1, (run rest (x.step e).2).2) := rfl

theorem run_append (first second : List Event) (x : Session) :
    run (first ++ second) x =
      ((run first x).1 ++ (run second (run first x).2).1, (run second (run first x).2).2) := by
  induction first generalizing x with
  | nil => rfl
  | cons e rest ih => rw [List.cons_append, run_cons, ih, run_cons, List.append_assoc]

/-! ### Logs -/

/-- The texts that were read. -/
def texts (log : List Entry) : List String :=
  log.filterMap fun
    | .heard text => some text
    | _ => none

/-- The frames that came into the mailbox. -/
def entered (log : List Entry) : List Frame :=
  log.filterMap fun
    | .entered f => some f
    | _ => none

/-- The frames in what goes out. -/
def frames (out : List Outbound) : List Frame :=
  out.filterMap fun
    | .frame f => some f
    | _ => none

/-- What was written. -/
def written (log : List Entry) : List Outbound :=
  log.filterMap fun
    | .wrote o => some o
    | _ => none

/-- Those of some frames that have a number. -/
def numbered (fs : List Frame) : List Frame :=
  fs.filter (·.seq.isSome)

/-- The frames that were written without a number. -/
def replies (log : List Entry) : List Frame :=
  (frames (written log)).filter (·.seq.isNone)

/-- The frames that were written with a number. -/
def events (log : List Entry) : List Frame :=
  numbered (frames (written log))

/-- The text that is owed a reply after an entry. -/
def Entry.debt (owed : Option String) : Entry → Option String
  | .heard text => some text
  | .entered _ => owed
  | .wrote _ => none

/-- The text that was read last, if nothing has been written since. -/
def owed (log : List Entry) : Option String :=
  log.foldl Entry.debt none

@[simp] theorem texts_append (first second : List Entry) :
    texts (first ++ second) = texts first ++ texts second :=
  List.filterMap_append ..

@[simp] theorem entered_append (first second : List Entry) :
    entered (first ++ second) = entered first ++ entered second :=
  List.filterMap_append ..

@[simp] theorem numbered_append (first second : List Frame) :
    numbered (first ++ second) = numbered first ++ numbered second :=
  List.filter_append ..

@[simp] theorem frames_append (first second : List Outbound) :
    frames (first ++ second) = frames first ++ frames second :=
  List.filterMap_append ..

@[simp] theorem written_append (first second : List Entry) :
    written (first ++ second) = written first ++ written second :=
  List.filterMap_append ..

@[simp] theorem replies_append (first second : List Entry) :
    replies (first ++ second) = replies first ++ replies second := by
  simp only [replies, written_append, frames_append, List.filter_append]

@[simp] theorem events_append (first second : List Entry) :
    events (first ++ second) = events first ++ events second := by
  simp only [events, written_append, frames_append, numbered_append]

@[simp] theorem owed_append_singleton (log : List Entry) (e : Entry) :
    owed (log ++ [e]) = e.debt (owed log) := by
  rw [owed, List.foldl_append]
  rfl

theorem written_entered (fs : List Frame) : written (fs.map .entered) = [] := by
  simp [written, List.filterMap_map]

/-- Frames that come in are nothing but frames that came in. -/
theorem parts_entered (fs : List Frame) :
    texts (fs.map .entered) = [] ∧ entered (fs.map .entered) = fs ∧
      events (fs.map .entered) = [] := by
  refine ⟨?_, ?_, ?_⟩
  · simp [texts, List.filterMap_map]
  · simp [entered, List.filterMap_map]
  · rw [events, written_entered]
    rfl

theorem owed_append_entered (log : List Entry) (fs : List Frame) :
    owed (log ++ fs.map .entered) = owed log := by
  induction fs generalizing log with
  | nil => rw [List.map_nil, List.append_nil]
  | cons f rest ih =>
      rw [List.map_cons, List.append_cons, ih, owed_append_singleton]
      rfl

theorem mem_entered (log : List Entry) (f : Frame) : f ∈ entered log ↔ .entered f ∈ log := by
  rw [entered, List.mem_filterMap]
  constructor
  · rintro ⟨e, he, hf⟩
    cases e with
    | entered g => exact Option.some.inj hf ▸ he
    | _ => exact absurd hf (by simp)
  · exact fun h => ⟨.entered f, h, rfl⟩

theorem mem_texts (log : List Entry) (text : String) : text ∈ texts log ↔ .heard text ∈ log := by
  rw [texts, List.mem_filterMap]
  constructor
  · rintro ⟨e, he, htext⟩
    cases e with
    | heard other => exact Option.some.inj htext ▸ he
    | _ => exact absurd htext (by simp)
  · exact fun h => ⟨.heard text, h, rfl⟩

/-! ### What must have been before -/

/-- Whether an entry can follow on what was told before: a text is read only if no reply is owed,
    a frame comes from a topic that was asked for, and what is written is the reply that is owed
    or, if there is none, the next frame of those that came in or no frame at all. -/
def Fits (before : List Entry) : Entry → Prop
  | .heard _ => owed before = none
  | .entered f => ∃ name, f.IsEventOn name ∧ ∃ text ∈ texts before, topicAsked? text = some name
  | .wrote o =>
    (∀ text, owed before = some text → ∃ r, o = .frame r ∧ r.Answers text) ∧
      (owed before = none → ∀ f, o = .frame f →
        f.seq.isSome ∧ events before ++ [f] <+: entered before)

/-- Whether each of some entries fits what was told before. -/
def FitsFrom (before : List Entry) : List Entry → Prop
  | [] => True
  | e :: rest => Fits before e ∧ FitsFrom (before ++ [e]) rest

theorem fitsFrom_append (before first second : List Entry) :
    FitsFrom before (first ++ second) ↔
      FitsFrom before first ∧ FitsFrom (before ++ first) second := by
  induction first generalizing before with
  | nil => simp [FitsFrom]
  | cons e rest ih => simp [FitsFrom, ih, List.append_assoc, and_assoc]

/-- Every entry fits at its place. -/
theorem FitsFrom.fits {before : List Entry} {e : Entry} {after : List Entry}
    (h : FitsFrom [] (before ++ e :: after)) : Fits before e := by
  have hrest := ((fitsFrom_append [] before (e :: after)).mp h).2
  rw [List.nil_append] at hrest
  exact hrest.1

theorem fitsFrom_entered (before : List Entry) (fs : List Frame)
    (h : ∀ f ∈ fs, ∃ name, f.IsEventOn name ∧
      ∃ text ∈ texts before, topicAsked? text = some name) :
    FitsFrom before (fs.map .entered) := by
  induction fs generalizing before with
  | nil => trivial
  | cons f rest ih =>
      refine ⟨h f List.mem_cons_self, ih _ fun g hg => ?_⟩
      rcases h g (List.mem_cons_of_mem _ hg) with ⟨name, hevent, text, htext, hasked⟩
      exact ⟨name, hevent, text, by simp [htext], hasked⟩

/-- Whatever came in is from a topic that was asked for. -/
theorem FitsFrom.of_entered {log : List Entry} (h : FitsFrom [] log) {f : Frame}
    (hf : f ∈ entered log) :
    ∃ name, f.IsEventOn name ∧ ∃ text ∈ texts log, topicAsked? text = some name := by
  rcases List.append_of_mem ((mem_entered log f).mp hf) with ⟨before, after, rfl⟩
  rcases h.fits with ⟨name, hevent, text, htext, hasked⟩
  exact ⟨name, hevent, text, by simp [htext], hasked⟩

/-! ### What a session has to do with its log -/

/-- What the state of a session has to do with its log. -/
structure Kept (log : List Entry) (x : Session) : Prop where
  fits : FitsFrom [] log
  reachable : x.coordinator.Reachable
  /-- The reply that is owed is being written. -/
  debt : ∀ text, owed log = some text → ∃ r, x.unsent = [.frame r] ∧ r.Answers text
  /-- Otherwise frames that are being written are frames that came in. -/
  paid : owed log = none → ∀ f ∈ frames x.unsent, f.seq.isSome
  /-- What came in was written, is being written or is left, which is what waits as long as the
      connection is open. -/
  queue : ∃ rest, entered log = events log ++ numbered (frames x.unsent) ++ rest ∧
    ∀ c, x.connection = some c → rest = x.coordinator.hub.waiting c.id
  /-- The connection asked for the topics it is on. -/
  asked : ∀ c name, x.connection = some c → x.coordinator.hub.roster.IsOn c.id name →
    ∃ text ∈ texts log, topicAsked? text = some name
  /-- There is never more than one thing to write, until the connection is closed. -/
  single : x.connection.isSome → x.unsent.length ≤ 1

variable {log : List Entry} {x : Session}

/-- A connection that was just opened has heard and written nothing. It has an empty mailbox, and
    it cannot have been on a topic before it was there. -/
theorem opened_kept (config : ServerConfig) (clock : Nat) {s : Coordinator} (hs : s.Reachable) :
    Kept [] (opened config clock s) := by
  have hnothing : ∀ text, owed [] = some text → False :=
    fun text h => absurd h (by simp [owed])
  unfold opened Connection.open?
  -- A connection that cannot be served leaves the coordinator as it was and is owed nothing.
  by_cases hserve : Connection.canServe config clock = true
  · rw [if_pos hserve]
    exact {
      fits := trivial
      reachable := hs.perform (.attach config.outboundCapacity)
      debt := fun text h => (hnothing text h).elim
      paid := fun _ f hf => absurd hf List.not_mem_nil
      queue := by
        refine ⟨[], rfl, fun c hc => ?_⟩
        cases hc
        have hbox := s.hub.attach_mailbox config.outboundCapacity
        show [] = (s.hub.act (.attach config.outboundCapacity)).waiting s.hub.roster.opened
        rw [Hub.waiting, hbox]
        rfl
      asked := by
        intro c name hc hon
        cases hc
        rcases Coordinator.isOn_perform (m := .attach config.outboundCapacity) hon with hold | h
        · have hopened := hs.hub_sound.opened _ hold.isAttached
          exact absurd hopened (Nat.lt_irrefl _)
        · simp at h
      single := fun _ => Nat.zero_le _ }
  · rw [if_neg hserve]
    exact {
      fits := trivial
      reachable := hs
      debt := fun text h => (hnothing text h).elim
      paid := fun _ f hf => absurd hf List.not_mem_nil
      queue := ⟨[], rfl, fun c hc => absurd hc (by simp)⟩
      asked := fun c name hc => absurd hc (by simp)
      single := fun h => absurd h (by simp) }

/-- Nothing is owed when nothing is left to write. -/
theorem Kept.owed_none (h : Kept log x) (hunsent : x.unsent = []) : owed log = none := by
  cases hdebt : owed log with
  | none => rfl
  | some text =>
      rcases h.debt text hdebt with ⟨r, hr, -⟩
      exact absurd (hunsent.symm.trans hr) (by simp)

/-! ### Writing -/

/-- What is written first is the reply if one is owed, and otherwise an event only if it is the
    next one. -/
theorem Kept.fits_write (h : Kept log x) {o : Outbound} {rest : List Outbound}
    (hunsent : x.unsent = o :: rest) : Fits log (.wrote o) := by
  -- A reply is written if one is owed, and an event only if none is.
  refine ⟨fun text hdebt => ?_, fun hpaid f hf => ?_⟩
  · rcases h.debt text hdebt with ⟨r, hr, hanswers⟩
    rw [hunsent] at hr
    exact ⟨r, (List.cons.inj hr).1, hanswers⟩
  · subst hf
    have hseq := h.paid hpaid f (by simp [hunsent, frames])
    have hnext : numbered (frames x.unsent) = f :: numbered (frames rest) := by
      simp [hunsent, numbered, frames, hseq]
    rcases h.queue with ⟨left, hqueue, -⟩
    refine ⟨hseq, numbered (frames rest) ++ left, ?_⟩
    rw [hqueue, hnext]
    simp only [List.append_assoc, List.cons_append, List.nil_append]

theorem Kept.write (h : Kept log x) {o : Outbound} {rest : List Outbound}
    (hunsent : x.unsent = o :: rest) : Kept (log ++ [.wrote o]) { x with unsent := rest } where
  fits := (fitsFrom_append [] log _).mpr ⟨h.fits, h.fits_write hunsent, trivial⟩
  reachable := h.reachable
  debt text hdebt := by
    rw [owed_append_singleton] at hdebt
    exact absurd hdebt (by simp [Entry.debt])
  paid _ f hf := by
    cases hdebt : owed log with
    | none =>
        refine h.paid hdebt f ?_
        rw [hunsent, ← List.singleton_append, frames_append]
        exact List.mem_append_right _ hf
    -- A reply that was owed was the only thing to write.
    | some text =>
        rcases h.debt text hdebt with ⟨r, hr, -⟩
        rw [hunsent] at hr
        rw [(List.cons.inj hr).2] at hf
        exact absurd hf List.not_mem_nil
  queue := by
    rcases h.queue with ⟨left, hqueue, hleft⟩
    refine ⟨left, ?_, hleft⟩
    have hevents : events [.wrote o] = numbered (frames [o]) := rfl
    have hentered : entered [.wrote o] = [] := rfl
    rw [hunsent, ← List.singleton_append, frames_append, numbered_append] at hqueue
    rw [entered_append, events_append, hevents, hentered, List.append_nil, hqueue]
    simp only [List.append_assoc]
  asked c name hc hon := by
    rcases h.asked c name hc hon with ⟨text, htext, hasked⟩
    exact ⟨text, by simp [htext], hasked⟩
  single hopen := by
    have hlength := h.single hopen
    rw [hunsent, List.length_cons] at hlength
    show rest.length ≤ 1
    omega

/-! ### Reading -/

/-- What can happen to a coordinator without a turn of a connection, except that the connection
    joins what it asks for: its mailbox becomes longer. -/
structure Grows (connection : Nat) (asked : Option TopicName) (s s' : Coordinator) : Prop where
  reachable : s'.Reachable
  waiting : ∃ fs, s'.hub.waiting connection = s.hub.waiting connection ++ fs ∧
    ∀ f ∈ fs, ∃ name, f.IsEventOn name ∧ s'.hub.roster.IsOn connection name
  joined : ∀ name, s'.hub.roster.IsOn connection name →
    s.hub.roster.IsOn connection name ∨ asked = some name

theorem Grows.refl {s : Coordinator} (hs : s.Reachable) (connection : Nat)
    (asked : Option TopicName) : Grows connection asked s s where
  reachable := hs
  waiting := ⟨[], (List.append_nil _).symm, fun _ hf => absurd hf List.not_mem_nil⟩
  joined _ hon := Or.inl hon

/-- A move of anybody, if the connection asked for the topic that it joins by it. -/
theorem Grows.of_perform {s : Coordinator} (hs : s.Reachable) {connection : Nat}
    {asked : Option TopicName} (m : Coordinator.Move) (hspares : m.spares connection = true)
    (hsidebar : m = .followSidebar connection → asked = some .sidebar)
    (hconversation : ∀ id, m = .follow connection id → asked = some (.conversation id)) :
    Grows connection asked s (s.perform m) where
  reachable := hs.perform m
  waiting := Coordinator.waiting_perform hs connection m hspares
  joined name hon := by
    rcases Coordinator.isOn_perform hon with hold | ⟨hm, rfl⟩ | ⟨id, hm, rfl⟩
    · exact Or.inl hold
    · exact Or.inr (hsidebar hm)
    · exact Or.inr (hconversation id hm)

theorem grows_elsewhere {s : Coordinator} (hs : s.Reachable) (connection : Nat)
    (m : Coordinator.Move) (hm : m.isOf connection = false) :
    Grows connection none s (s.perform m) := by
  refine .of_perform hs m (Coordinator.Move.spares_of_others hm) ?_ ?_
  · rintro rfl
    exact absurd hm (by simp [Coordinator.Move.isOf])
  · rintro id rfl
    exact absurd hm (by simp [Coordinator.Move.isOf])

theorem grows_answer {s : Coordinator} (hs : s.Reachable) (connection : Nat) (now : Timestamp)
    (text : String) :
    Grows connection (topicAsked? text) s (Connection.answer connection now text s).2 := by
  rcases Connection.answer_cases connection now text s with
    h | ⟨h, hasked⟩ | ⟨conversation, h, hasked⟩ | ⟨key, h⟩
  · rw [h]
    exact .refl hs connection _
  · rw [h]
    exact .of_perform hs _ rfl (fun _ => hasked) (by simp)
  · rw [h]
    refine .of_perform hs _ rfl (by simp) fun id hm => ?_
    rw [hasked, (Coordinator.Move.follow.inj hm).2]
  · rw [h]
    exact .of_perform hs _ rfl (by simp) (by simp)

/-- The mailbox of an open connection becomes longer. -/
theorem Kept.grow (h : Kept log x) {c : Connection} (hc : x.connection = some c)
    {asked : Option TopicName} {s : Coordinator} (hgrows : Grows c.id asked x.coordinator s)
    (hasked : ∀ name, asked = some name → ∃ text ∈ texts log, topicAsked? text = some name) :
    Kept (log ++ arrivals c.id x.coordinator s) { x with coordinator := s } := by
  -- What came in belongs to topics the connection is on, and so to topics that were asked for.
  rcases hgrows.waiting with ⟨fs, hwaiting, hon⟩
  have harrivals : arrivals c.id x.coordinator s = fs.map .entered := by
    rw [arrivals, hwaiting, List.drop_left]
  rcases parts_entered fs with ⟨htexts, hentered, hevents⟩
  have hjoined : ∀ name, s.hub.roster.IsOn c.id name →
      ∃ text ∈ texts log, topicAsked? text = some name := by
    intro name hname
    rcases hgrows.joined name hname with hold | hnew
    · exact h.asked c name hc hold
    · exact hasked name hnew
  rw [harrivals]
  exact {
    fits := by
      refine (fitsFrom_append [] log _).mpr ⟨h.fits, fitsFrom_entered log fs fun f hf => ?_⟩
      rcases hon f hf with ⟨name, hevent, hname⟩
      exact ⟨name, hevent, hjoined name hname⟩
    reachable := hgrows.reachable
    debt := fun text hdebt => h.debt text (by rwa [owed_append_entered] at hdebt)
    paid := fun hpaid => h.paid (by rwa [owed_append_entered] at hpaid)
    queue := by
      rcases h.queue with ⟨rest, hqueue, hrest⟩
      refine ⟨rest ++ fs, ?_, fun c' hc' => ?_⟩
      · rw [entered_append, events_append, hentered, hevents, hqueue, List.append_nil,
          List.append_assoc]
      · rw [hc, Option.some.injEq] at hc'
        rw [hrest c hc, ← hc', hwaiting]
    asked := by
      intro c' name hc' hon'
      rw [hc, Option.some.injEq] at hc'
      rw [texts_append, htexts, List.append_nil]
      exact hjoined name (hc' ▸ hon')
    single := h.single }

/-- A text is read, and its reply will be written. -/
theorem Kept.hear (h : Kept log x) {c : Connection} (hc : x.connection = some c) (c' : Connection)
    (hid : c'.id = c.id) (hunsent : x.unsent = []) {text : String} {r : Frame}
    (hanswers : r.Answers text) (inbox : List Inbound) :
    Kept (log ++ [.heard text]) ⟨some c', inbox, [.frame r], x.coordinator⟩ where
  fits := (fitsFrom_append [] log _).mpr ⟨h.fits, h.owed_none hunsent, trivial⟩
  reachable := h.reachable
  debt other hdebt := by
    rw [owed_append_singleton] at hdebt
    exact ⟨r, rfl, Option.some.inj hdebt ▸ hanswers⟩
  paid hpaid := by
    rw [owed_append_singleton] at hpaid
    exact absurd hpaid (by simp [Entry.debt])
  -- A reply has no number, so that it is not counted among the events.
  queue := by
    rcases h.queue with ⟨rest, hqueue, hrest⟩
    have hnone : numbered (frames [.frame r]) = [] := by
      simp [numbered, frames, hanswers.seq]
    have hentered : entered [.heard text] = [] := rfl
    have hevents : events [.heard text] = [] := rfl
    refine ⟨rest, ?_, fun d hd => ?_⟩
    · rw [hunsent] at hqueue
      rw [entered_append, events_append, hentered, hevents, List.append_nil, List.append_nil,
        hnone, hqueue]
      rfl
    · rw [← Option.some.inj hd, hid]
      exact hrest c hc
  asked d name hd hon := by
    rw [← Option.some.inj hd, hid] at hon
    rcases h.asked c name hc hon with ⟨asked, hmem, hasked⟩
    exact ⟨asked, by simp [hmem], hasked⟩
  single _ := Nat.le_refl _

/-- A connection that has nothing to write stays as it is but for what is to be written now, in
    which there are no frames. -/
theorem Kept.say (h : Kept log x) {c : Connection} (hc : x.connection = some c) (c' : Connection)
    (hid : c'.id = c.id) (hunsent : x.unsent = []) (out : List Outbound) (hout : frames out = [])
    (hshort : out.length ≤ 1) (inbox : List Inbound) :
    Kept log ⟨some c', inbox, out, x.coordinator⟩ where
  fits := h.fits
  reachable := h.reachable
  debt text hdebt := absurd ((h.owed_none hunsent).symm.trans hdebt) (by simp)
  paid _ f hf := by
    rw [hout] at hf
    exact absurd hf List.not_mem_nil
  queue := by
    rcases h.queue with ⟨rest, hqueue, hrest⟩
    rw [hunsent] at hqueue
    refine ⟨rest, by rw [hout]; exact hqueue, fun d hd => ?_⟩
    rw [← Option.some.inj hd, hid]
    exact hrest c hc
  asked d name hd hon := by
    rw [← Option.some.inj hd, hid] at hon
    exact h.asked c name hc hon
  single _ := hshort

/-- A connection that has nothing to write is closed. -/
theorem Kept.close (h : Kept log x) (c : Connection) (hunsent : x.unsent = [])
    {out : List Outbound} (hout : frames out = []) (inbox : List Inbound) :
    Kept log ⟨none, inbox, out, c.leave x.coordinator⟩ where
  fits := h.fits
  reachable := by
    rw [c.leave_eq]
    exact h.reachable.performAll _
  debt text hdebt := absurd ((h.owed_none hunsent).symm.trans hdebt) (by simp)
  paid _ f hf := by
    rw [hout] at hf
    exact absurd hf List.not_mem_nil
  queue := by
    rcases h.queue with ⟨rest, hqueue, -⟩
    rw [hunsent] at hqueue
    exact ⟨rest, by rw [hout]; exact hqueue, fun d hd => absurd hd (by simp)⟩
  asked d name hd := absurd hd (by simp)
  single hopen := absurd hopen (by simp)

theorem arrivals_same (connection : Nat) (s : Coordinator) : arrivals connection s s = [] := by
  rw [arrivals, List.drop_length, List.map_nil]

theorem arrivals_leave (c : Connection) (s : Coordinator) :
    arrivals c.id s (c.leave s) = [] := by
  rw [arrivals, c.leave_waiting, List.drop_nil, List.map_nil]

theorem Kept.read (h : Kept log x) {c : Connection} (hc : x.connection = some c)
    (hunsent : x.unsent = []) (clock : Nat) (now : Timestamp) :
    Kept (log ++ (x.take c (.read clock now)).1) (x.take c (.read clock now)).2 := by
  unfold take
  cases hinbox : x.inbox with
  | nil =>
      simp only [List.append_nil]
      exact h
  | cons m rest =>
      cases m with
      | text text =>
          -- The text is heard first, and then it does what it does.
          have hheard := h.hear hc (c.heard clock) rfl hunsent
            (Connection.answer_answers c.id now text x.coordinator) rest
          have hgrown := hheard.grow rfl (grows_answer h.reachable c.id now text)
            fun name hname => ⟨text, by simp [texts], hname⟩
          rw [List.append_assoc] at hgrown
          exact hgrown
      | binary =>
          simp only [Connection.receive, hearing, arrivals_same, List.append_nil]
          exact h.say hc (c.heard clock) rfl hunsent [] rfl (Nat.zero_le _) rest
      | pong =>
          simp only [Connection.receive, hearing, arrivals_same, List.append_nil]
          exact h.say hc (c.heard clock) rfl hunsent [] rfl (Nat.zero_le _) rest
      | ping data =>
          simp only [Connection.receive, hearing, arrivals_same, List.append_nil]
          exact h.say hc (c.heard clock) rfl hunsent [.pong data] rfl (Nat.le_refl _) rest
      | close =>
          simp only [Connection.receive, hearing, arrivals_leave, List.append_nil]
          exact h.close c hunsent rfl rest
      | lost =>
          simp only [Connection.receive, hearing, arrivals_leave, List.append_nil]
          exact h.close c hunsent rfl rest

/-! ### Forwarding -/

theorem Kept.forward (h : Kept log x) {c : Connection} (hc : x.connection = some c)
    (hunsent : x.unsent = []) :
    Kept (log ++ (x.take c .forward).1) (x.take c .forward).2 := by
  unfold take
  cases hforward : c.forward? x.coordinator with
  | none =>
      simp only [List.append_nil]
      exact h
  | some p =>
      rcases p with ⟨out, s⟩
      simp only [List.append_nil]
      rcases c.forward?_cases x.coordinator s out hforward with ⟨hs, f, rfl, hwaiting⟩
      have hqueue : entered log = events log ++ f :: s.hub.waiting c.id := by
        rcases h.queue with ⟨rest, hqueue, hrest⟩
        rw [hqueue, hunsent, hrest c hc, hwaiting]
        simp [frames, numbered]
      -- Whatever waited came in, and so it has a number.
      have hseq : f.seq.isSome := by
        rcases h.fits.of_entered (f := f) (by rw [hqueue]; simp) with ⟨name, hevent, -⟩
        exact hevent.seq
      exact {
        fits := h.fits
        reachable := by
          rw [hs]
          exact h.reachable.perform (.take c.id)
        debt := fun text hdebt => absurd ((h.owed_none hunsent).symm.trans hdebt) (by simp)
        paid := by
          intro _ g hg
          have hg' : g = f := by simpa [frames] using hg
          rw [hg']
          exact hseq
        queue := by
          refine ⟨s.hub.waiting c.id, ?_, fun d hd => ?_⟩
          · rw [hqueue]
            simp [frames, numbered, hseq]
          · rw [hc, Option.some.injEq] at hd
            rw [hd]
        asked := by
          intro d name hd hon
          rw [hs] at hon
          rcases Coordinator.isOn_perform hon with hold | ⟨hm, -⟩ | ⟨id, hm, -⟩
          · exact h.asked d name hd hold
          · exact absurd hm (by simp)
          · exact absurd hm (by simp)
        single := fun _ => Nat.le_refl _ }

/-! ### Every event -/

theorem Kept.take (h : Kept log x) {c : Connection} (hc : x.connection = some c)
    (hunsent : x.unsent = []) (t : Turn) : Kept (log ++ (x.take c t).1) (x.take c t).2 := by
  -- Every turn is a reading, the forwarding of a frame, one frame of its own or an end.
  cases t with
  | read clock now => exact h.read hc hunsent clock now
  | forward => exact h.forward hc hunsent
  | beat =>
      simp only [Session.take, List.append_nil]
      exact h.say hc c.beat.2 rfl hunsent [.ping] rfl (Nat.le_refl _) x.inbox
  | expire =>
      simp only [Session.take, List.append_nil]
      exact h.close c hunsent rfl x.inbox
  | cut =>
      simp only [Session.take]
      split
      · simp only [List.append_nil]
        exact h.close c hunsent rfl x.inbox
      · simp only [List.append_nil]
        exact h

/-- A connection that is closed does not notice what others do. -/
theorem Kept.outlive (h : Kept log x) (hc : x.connection = none) (m : Coordinator.Move) :
    Kept log { x with coordinator := x.coordinator.perform m } := by
  rcases h.queue with ⟨rest, hqueue, -⟩
  exact ⟨h.fits, h.reachable.perform m, h.debt, h.paid,
    ⟨rest, hqueue, fun d hd => absurd (hc.symm.trans hd) (by simp)⟩,
    fun d name hd => absurd (hc.symm.trans hd) (by simp), h.single⟩

/-- Every event keeps the order. -/
theorem Kept.step (h : Kept log x) (e : Event) : Kept (log ++ (x.step e).1) (x.step e).2 := by
  -- A turn is taken only when nothing is unsent, a move elsewhere only if it is of another
  -- connection.
  cases e with
  | arrive m =>
      simp only [Session.step, List.append_nil]
      exact ⟨h.fits, h.reachable, h.debt, h.paid, h.queue, h.asked, h.single⟩
  | turn t =>
      simp only [Session.step]
      split
      · next c hc hunsent => exact h.take hc hunsent t
      · simp only [List.append_nil]
        exact h
  | write =>
      simp only [Session.step]
      split
      · simp only [List.append_nil]
        exact h
      · next o rest hunsent => exact h.write hunsent
  | elsewhere m =>
      simp only [Session.step]
      split
      · next hc =>
          simp only [List.append_nil]
          exact h.outlive hc m
      · next c hc =>
          by_cases hm : m.isOf c.id = true
          · simp only [if_pos hm, List.append_nil]
            exact h
          · simp only [if_neg hm]
            exact h.grow hc (grows_elsewhere h.reachable c.id m (Bool.eq_false_iff.mpr hm))
              fun name hname => absurd hname (by simp)

theorem Kept.run (h : Kept log x) (course : List Event) :
    Kept (log ++ (run course x).1) (run course x).2 := by
  induction course generalizing log x with
  | nil =>
      simp only [Session.run, List.append_nil]
      exact h
  | cons e rest ih =>
      rw [run_cons, ← List.append_assoc]
      exact ih (h.step e)

end Session

end Switchboard

import Switchboard.Proofs.Sessions
import Switchboard.Timeline

/-!
# The Order of Replies and Events

What a client can rely on when it reads a connection. Its texts are answered one
by one, each by one frame without a number that carries its own request id, and
the answer to a text is the first thing it hears after the server has read it.
Whatever the request caused comes later, because that has to go through the
mailbox and the mailbox is not looked at before the answer is written. For the
same reason no frame of a topic comes before the client was told that it is on
the topic.

All of this is read off logs in which every entry fits what was before it. That
is enough to know what was written; that every text is answered in the end needs
the state of the session as well, and that it is there to be settled.

A server on a timeline goes through sessions of this kind, with one order of its
own choice (`Timeline.serve_runs`).

## Main definitions

* `Session.sent`, `Session.textsIn`: The texts that came in, and those that wait to be read.
* `Session.settling`: The server reads and answers everything that came in.
* `Timeline.IsDue`: The turns that a server may take at a time.

## Theorems

* `Session.FitsFrom.answered`: Replies and texts go together one by one.
* `Session.FitsFrom.reply_first`: The first thing that is written after a text is its reply.
* `Session.FitsFrom.events_inOrder`: Events are written in the order in which they came in.
* `Session.settled`: Everything that came in can be answered.
* `Timeline.serve_turn`: What a server on a timeline does when it is its turn.
* `Timeline.serve_runs`: Servers on a timeline go through sessions.
* `Session.replies_and_events`: What this means for every session.
-/

namespace Switchboard

namespace Session

variable {before log rest : List Entry}

/-! ### What can be read off a log -/

/-- What is written is no reply if none is owed. -/
theorem Fits.reply_owed {o : Outbound} (h : Fits log (.wrote o)) {f : Frame}
    (ho : o = .frame f) (hseq : f.seq = none) : ∃ text, owed log = some text ∧ f.Answers text := by
  subst ho
  cases howed : owed log with
  | none =>
      have hsome := (h.2 howed f rfl).1
      rw [hseq] at hsome
      exact absurd hsome Bool.false_ne_true
  | some text =>
      rcases h.1 text howed with ⟨r, hr, hanswers⟩
      exact ⟨text, rfl, Outbound.frame.inj hr ▸ hanswers⟩

/-- If an event is written no reply is owed, and the event is the next one of those that came
    in. -/
theorem Fits.event_next {f : Frame} (h : Fits log (.wrote (.frame f))) (hseq : f.seq.isSome) :
    owed log = none ∧ events log ++ [f] <+: entered log := by
  cases howed : owed log with
  | none => exact ⟨rfl, (h.2 howed f rfl).2⟩
  | some text =>
      rcases h.1 text howed with ⟨r, hr, hanswers⟩
      rw [Outbound.frame.inj hr, hanswers.seq] at hseq
      exact absurd hseq Bool.false_ne_true

theorem replies_wrote (o : Outbound) :
    replies [.wrote o] = [] ∨ ∃ f, o = .frame f ∧ f.seq = none ∧ replies [.wrote o] = [f] := by
  cases o with
  | frame f =>
      cases hseq : f.seq with
      | none => exact Or.inr ⟨f, rfl, hseq, by simp [replies, written, frames, hseq]⟩
      | some n => exact Or.inl (by simp [replies, written, frames, hseq])
  | _ => exact Or.inl rfl

/-- Replies and texts go together one by one: what was owed and what was read is what was
    answered and what is owed. -/
theorem FitsFrom.answered (h : FitsFrom log rest) :
    (replies rest).map (·.requestId) ++ (owed (log ++ rest)).toList.map requestIdIn =
      (owed log).toList.map requestIdIn ++ (texts rest).map requestIdIn := by
  -- The induction is on what is left of the log, as the part before it says what is owed.
  induction rest generalizing log with
  | nil => rw [List.append_nil, texts, replies, written]; simp [frames]
  | cons e rest ih =>
      have hrest := ih h.2
      rw [List.append_assoc, List.singleton_append, owed_append_singleton] at hrest
      rw [← List.singleton_append, replies_append, texts_append, List.map_append, List.append_assoc,
        List.singleton_append, hrest, List.map_append]
      cases e with
      | heard text =>
          have hnone : owed log = none := h.1
          rw [hnone]
          rfl
      | entered f => rfl
      | wrote o =>
          -- A reply is owed exactly if one is written.
          cases howed : owed log with
          | none =>
              rcases replies_wrote o with hno | ⟨f, rfl, hseq, -⟩
              · rw [hno]
                rfl
              · rcases h.1.reply_owed rfl hseq with ⟨text, htext, -⟩
                exact absurd (howed.symm.trans htext) (by simp)
          | some text =>
              rcases h.1.1 text howed with ⟨r, rfl, hanswers⟩
              have hone : replies [.wrote (.frame r)] = [r] := by
                simp [replies, written, frames, hanswers.seq]
              rw [hone, List.map_singleton, hanswers.requestId]
              rfl

/-- The first thing that is written after a text is its reply. -/
theorem FitsFrom.reply_first (h : FitsFrom log rest) {text : String}
    (howed : owed log = some text) (hpaid : owed (log ++ rest) = none) :
    ∃ early r late, rest = early ++ .wrote (.frame r) :: late ∧ written early = [] ∧
      r.Answers text := by
  induction rest generalizing log with
  | nil =>
      rw [List.append_nil, howed] at hpaid
      exact absurd hpaid (by simp)
  | cons e rest ih =>
      rw [List.append_cons] at hpaid
      cases e with
      -- No other text can be read in between.
      | heard other => exact absurd (howed.symm.trans h.1) (by simp)
      | entered f =>
          have hstill : owed (log ++ [.entered f]) = some text := by
            rw [owed_append_singleton]
            exact howed
          rcases ih h.2 hstill hpaid with ⟨early, r, late, rfl, hearly, hanswers⟩
          exact ⟨.entered f :: early, r, late, rfl, hearly, hanswers⟩
      | wrote o =>
          rcases h.1.1 text howed with ⟨r, rfl, hanswers⟩
          exact ⟨[], r, rest, rfl, rfl, hanswers⟩

/-- Events are written in the order in which they came into the mailbox, from the first one
    on. -/
theorem FitsFrom.events_inOrder (h : FitsFrom log rest) (hqueued : events log <+: entered log) :
    events (log ++ rest) <+: entered (log ++ rest) := by
  -- Only a written event changes what was written, and only an entering frame what is queued.
  induction rest generalizing log with
  | nil => rwa [List.append_nil]
  | cons e rest ih =>
      rw [List.append_cons]
      refine ih h.2 ?_
      rw [events_append, entered_append]
      cases e with
      | heard text =>
          have hsame : events [.heard text] = [] ∧ entered [.heard text] = [] := ⟨rfl, rfl⟩
          rwa [hsame.1, hsame.2, List.append_nil, List.append_nil]
      | entered f =>
          have hnone : events [.entered f] = [] := rfl
          rw [hnone, List.append_nil]
          exact hqueued.trans (List.prefix_append _ _)
      | wrote o =>
          have hnone : entered [.wrote o] = [] := rfl
          rw [hnone, List.append_nil]
          by_cases hevent : ∃ f, o = .frame f ∧ f.seq.isSome
          · rcases hevent with ⟨f, rfl, hseq⟩
            have hone : events [.wrote (.frame f)] = [f] := by
              simp [events, numbered, written, frames, hseq]
            rw [hone]
            exact (h.1.event_next hseq).2
          · have hno : events [.wrote o] = [] := by
              cases o with
              | frame f =>
                  have hseq : f.seq.isSome = false :=
                    Bool.eq_false_iff.mpr fun hseq => hevent ⟨f, rfl, hseq⟩
                  simp [events, numbered, written, frames, hseq]
              | _ => rfl
            rwa [hno, List.append_nil]

/-- When an event is written, no reply is owed, and the event came in before. -/
theorem FitsFrom.event_written {f : Frame} {after : List Entry}
    (h : FitsFrom [] (before ++ .wrote (.frame f) :: after)) (hseq : f.seq.isSome) :
    owed before = none ∧ f ∈ entered before := by
  rcases h.fits.event_next hseq with ⟨hpaid, hnext⟩
  exact ⟨hpaid, hnext.subset (List.mem_append_right _ List.mem_cons_self)⟩

/-- Whether an entry tells of a text with a property. -/
def Entry.tells (p : String → Bool) : Entry → Bool
  | .heard text => p text
  | _ => false

/-- The first text with a property among those that were read. -/
theorem exists_first_text (p : String → Bool) {text : String} (hmem : text ∈ texts log)
    (hp : p text = true) :
    ∃ first text late, log = first ++ .heard text :: late ∧ p text = true ∧
      ∀ t ∈ texts first, p t = false := by
  have hsome : (log.find? (Entry.tells p)).isSome :=
    List.find?_isSome.mpr ⟨.heard text, (mem_texts log text).mp hmem, hp⟩
  rcases Option.isSome_iff_exists.mp hsome with ⟨e, he⟩
  rcases List.find?_eq_some_iff_append.mp he with ⟨hit, first, late, rfl, hnone⟩
  cases e with
  | heard t =>
      refine ⟨first, t, late, rfl, hit, fun u hu => ?_⟩
      have hu' := hnone (.heard u) ((mem_texts first u).mp hu)
      simpa [Entry.tells] using hu'
  | _ => exact absurd hit Bool.false_ne_true

/-- Before an event of a topic is written, the first text that asked for the topic has been
    granted. -/
theorem FitsFrom.granted_first {f : Frame} {after : List Entry} {name : TopicName}
    (h : FitsFrom [] (before ++ .wrote (.frame f) :: after)) (hevent : f.IsEventOn name) :
    ∃ first text early ack late,
      before = first ++ .heard text :: early ++ .wrote (.frame ack) :: late ∧
      topicAsked? text = some name ∧ (∀ t ∈ texts first, topicAsked? t ≠ some name) ∧
      written early = [] ∧ ack.Answers text ∧ ack.body = .ack := by
  have hbefore := ((fitsFrom_append [] before _).mp h).1
  rcases h.event_written hevent.seq with ⟨hpaid, hentered⟩
  rcases hbefore.of_entered hentered with ⟨name', hevent', text, htext, hasked⟩
  have hname : name' = name := Option.some.inj (hevent'.topic.symm.trans hevent.topic)
  subst hname
  rcases exists_first_text (fun t => decide (topicAsked? t = some name')) htext
    (decide_eq_true hasked) with ⟨first, asking, late, rfl, hasking, hfirst⟩
  have hgranted : topicAsked? asking = some name' := of_decide_eq_true hasking
  -- Everything that was read is answered by now.
  rw [List.append_cons] at hbefore hpaid
  have hrest := ((fitsFrom_append [] _ late).mp hbefore).2
  rw [List.nil_append] at hrest
  rcases hrest.reply_first (owed_append_singleton ..) hpaid with
    ⟨early, ack, done, rfl, hearly, hanswers⟩
  refine ⟨first, asking, early, ack, done, ?_, hgranted, fun t ht => ?_, hearly, hanswers,
    hanswers.granted (by rw [hgranted]; rfl)⟩
  · simp only [List.append_assoc, List.cons_append]
  · exact of_decide_eq_false (hfirst t ht)

/-! ### Everything is read and answered -/

/-- The texts that came in. -/
def sent (course : List Event) : List String :=
  course.filterMap fun
    | .arrive (.text text) => some text
    | _ => none

/-- The texts that wait to be read. -/
def textsIn (inbox : List Inbound) : List String :=
  inbox.filterMap fun
    | .text text => some text
    | _ => none

theorem sent_append (first second : List Event) :
    sent (first ++ second) = sent first ++ sent second :=
  List.filterMap_append ..

theorem textsIn_append (first second : List Inbound) :
    textsIn (first ++ second) = textsIn first ++ textsIn second :=
  List.filterMap_append ..

theorem texts_arrivals (connection : Nat) (s s' : Coordinator) :
    texts (arrivals connection s s') = [] :=
  (parts_entered _).1

theorem texts_take (x : Session) (c : Connection) (t : Turn) :
    texts (x.take c t).1 ++ textsIn (x.take c t).2.inbox = textsIn x.inbox := by
  -- A turn reads at most one message, and only a text is put down as heard.
  cases t with
  | read clock now =>
      unfold take
      cases hinbox : x.inbox with
      | nil => simp [hinbox, texts]
      | cons m rest =>
          simp only [texts_append, texts_arrivals, List.append_nil]
          cases m <;> rfl
  | forward =>
      simp only [take]
      cases c.forward? x.coordinator <;> rfl
  | beat => rfl
  | expire => rfl
  | cut =>
      simp only [take]
      split <;> rfl

/-- A text that came in was read or still waits. -/
theorem texts_step (x : Session) (e : Event) :
    texts (x.step e).1 ++ textsIn (x.step e).2.inbox = textsIn x.inbox ++ sent [e] := by
  -- What arrives is read later, so the two sides differ by what still waits.
  cases e with
  | arrive m =>
      simp only [step, textsIn_append]
      cases m <;> rfl
  | turn t =>
      have hnone : sent [.turn t] = [] := rfl
      rw [hnone, List.append_nil]
      simp only [step]
      split
      · exact x.texts_take _ t
      · rfl
  | write =>
      have hnone : sent [.write] = [] := rfl
      rw [hnone, List.append_nil]
      simp only [step]
      split <;> rfl
  | elsewhere m =>
      have hnone : sent [.elsewhere m] = [] := rfl
      rw [hnone, List.append_nil]
      simp only [step]
      split
      · rfl
      · split
        · rfl
        · rw [texts_arrivals, List.nil_append]

theorem texts_run (course : List Event) (x : Session) :
    texts (run course x).1 ++ textsIn (run course x).2.inbox =
      textsIn x.inbox ++ sent course := by
  induction course generalizing x with
  | nil => simp [run, texts, sent]
  | cons e rest ih =>
      rw [run_cons, texts_append, List.append_assoc, ih, ← List.append_assoc, texts_step,
        List.append_assoc, ← sent_append, List.singleton_append]

end Session

/-- Whether a message ends the connection. -/
def Inbound.ends : Inbound → Bool
  | .close | .lost => true
  | _ => false

namespace Session

/-- The server writes what is left to write, and reads and answers what came in. -/
def settling (x : Session) (clock : Nat) (now : Timestamp) : List Event :=
  .write :: x.inbox.flatMap fun _ => [.turn (.read clock now), .write]

theorem sent_settling (x : Session) (clock : Nat) (now : Timestamp) :
    sent (x.settling clock now) = [] := by
  have hinbox : ∀ inbox : List Inbound,
      sent (inbox.flatMap fun _ => [.turn (.read clock now), .write]) = [] := by
    intro inbox
    induction inbox with
    | nil => rfl
    | cons m rest ih => rw [List.flatMap_cons, sent_append, ih]; rfl
  exact hinbox x.inbox

/-- A message that does not end the connection is read, and what it calls for is written. -/
theorem read_write {x : Session} {c : Connection} {m : Inbound} {inbox : List Inbound}
    (hc : x.connection = some c) (hunsent : x.unsent = []) (hinbox : x.inbox = m :: inbox)
    (hm : m.ends = false) (clock : Nat) (now : Timestamp) :
    ∃ s, (run [.turn (.read clock now), .write] x).2 = ⟨some (c.heard clock), inbox, [], s⟩ := by
  refine ⟨(c.receive clock now m x.coordinator).2.2, ?_⟩
  cases m with
  | close => exact absurd hm (by simp [Inbound.ends])
  | lost => exact absurd hm (by simp [Inbound.ends])
  | _ => simp only [run, step, hc, hunsent, take, hinbox, Connection.receive]

theorem read_all (inbox : List Inbound) (hends : ∀ m ∈ inbox, m.ends = false) (clock : Nat)
    (now : Timestamp) {x : Session} (hopen : x.connection.isSome) (hunsent : x.unsent = [])
    (hinbox : x.inbox = inbox) :
    let y := (run (inbox.flatMap fun _ => [.turn (.read clock now), .write]) x).2
    y.connection.isSome ∧ y.inbox = [] ∧ y.unsent = [] := by
  induction inbox generalizing x with
  | nil => exact ⟨hopen, hinbox, hunsent⟩
  | cons m rest ih =>
      rcases Option.isSome_iff_exists.mp hopen with ⟨c, hc⟩
      rcases read_write hc hunsent hinbox (hends m List.mem_cons_self) clock now with ⟨s, hs⟩
      rw [List.flatMap_cons, run_append, hs]
      exact ih (fun m hm => hends m (List.mem_cons_of_mem _ hm)) rfl rfl rfl

/-- If no end came in, the server can read and answer everything that did. -/
theorem settled {x : Session} (h : Kept log x) (hopen : x.connection.isSome)
    (hends : ∀ m ∈ x.inbox, m.ends = false) (clock : Nat) (now : Timestamp) :
    let y := (run (x.settling clock now) x).2
    y.connection.isSome ∧ y.inbox = [] ∧ y.unsent = [] := by
  -- An open connection has at most one frame unsent, so a single write leaves none.
  have hwritten : (x.step .write).2 = { x with unsent := [] } := by
    simp only [step]
    cases hunsent : x.unsent with
    | nil =>
        rcases x with ⟨connection, inbox, unsent, coordinator⟩
        cases hunsent
        rfl
    | cons o rest =>
        have hlength := h.single hopen
        rw [hunsent, List.length_cons] at hlength
        rw [List.eq_nil_of_length_eq_zero (by omega : rest.length = 0)]
  rw [settling, run_cons, hwritten]
  exact read_all x.inbox hends clock now hopen rfl rfl

/-! ### Turns of their own -/

theorem run_writes (x : Session) :
    run (List.replicate x.unsent.length .write) x =
      (x.unsent.map .wrote, { x with unsent := [] }) := by
  rcases x with ⟨connection, inbox, unsent, coordinator⟩
  induction unsent with
  | nil => rfl
  | cons o rest ih =>
      rw [List.length_cons, List.replicate_succ, run_cons]
      simp only [step, ih]
      rfl

theorem written_take (x : Session) (c : Connection) (t : Turn) : written (x.take c t).1 = [] := by
  -- No turn of the loop writes; whatever goes out is unsent until a write.
  cases t with
  | read clock now =>
      unfold take
      cases x.inbox with
      | nil => rfl
      | cons m rest =>
          have harrivals : ∀ s s' : Coordinator, written (arrivals c.id s s') = [] :=
            fun _ _ => written_entered _
          simp only [written_append, harrivals, List.append_nil]
          cases m <;> rfl
  | forward =>
      simp only [take]
      cases c.forward? x.coordinator <;> rfl
  | beat => rfl
  | expire => rfl
  | cut =>
      simp only [take]
      split <;> rfl

/-- A turn with everything that is written because of it. -/
theorem run_turn {x : Session} {c : Connection} (hc : x.connection = some c)
    (hunsent : x.unsent = []) (t : Turn) :
    ∃ course log, run course x = (log, { (x.take c t).2 with unsent := [] }) ∧
      written log = (x.take c t).2.unsent := by
  have hstep : x.step (.turn t) = x.take c t := by
    simp only [step, hc, hunsent]
  refine ⟨.turn t :: List.replicate (x.take c t).2.unsent.length .write,
    (x.take c t).1 ++ (x.take c t).2.unsent.map .wrote, ?_, ?_⟩
  · rw [run_cons, hstep, run_writes]
  · rw [written_append, written_take, List.nil_append]
    simp [written, List.filterMap_map]

/-- What comes in waits to be read. -/
theorem run_arrivals (x : Session) (messages : List Inbound) :
    run (messages.map .arrive) x = ([], { x with inbox := x.inbox ++ messages }) := by
  induction messages generalizing x with
  | nil => rw [List.append_nil]; rfl
  | cons m rest ih =>
      rw [List.map_cons, run_cons, step, ih, List.append_assoc, List.singleton_append]
      rfl

end Session

/-! ### Servers on a timeline -/

namespace Timeline

theorem pushAll_state (t : Timeline) (jobs : List Job) :
    (t.pushAll jobs).coordinator = t.coordinator ∧ (t.pushAll jobs).sockets = t.sockets := by
  induction jobs generalizing t with
  | nil => exact ⟨rfl, rfl⟩
  | cons job rest ih =>
      have hpush : (t.push job).coordinator = t.coordinator ∧ (t.push job).sockets = t.sockets := by
        unfold push
        split <;> exact ⟨rfl, rfl⟩
      rcases ih (t.push job) with ⟨hcoordinator, hsockets⟩
      exact ⟨hcoordinator.trans hpush.1, hsockets.trans hpush.2⟩

/-- Queueing what can go on changes nothing but the queue. -/
theorem wake_state (t : Timeline) :
    t.wake.coordinator = t.coordinator ∧ t.wake.sockets = t.sockets := by
  unfold wake
  refine ⟨?_, ?_⟩
  · rw [(pushAll_state ..).1, (pushAll_state ..).1, (pushAll_state ..).1]
  · rw [(pushAll_state ..).2, (pushAll_state ..).2, (pushAll_state ..).2]

theorem run_state (t : Timeline) (op : Occasion → Coordinator → Coordinator) :
    (t.run op).coordinator = op (occasionOf t.operations) t.coordinator ∧
      (t.run op).sockets = t.sockets :=
  wake_state _

theorem put_socket (t : Timeline) (id : Nat) (socket : Socket) :
    (t.put id socket).sockets.get? id = some socket := by
  rw [put, Table.get?_insert, if_pos rfl]

/-- A socket as a session that has nothing left to write. -/
def session (t : Timeline) (socket : Socket) : Session :=
  ⟨socket.connection, socket.inbox, [], t.coordinator⟩

/-- Whether a timeline comes from another one by some events of the session of a socket, of which
    the client received what was written. -/
def ServedTo (t : Timeline) (id : Nat) (socket : Socket) (t' : Timeline) : Prop :=
  ∃ course log x, Session.run course (t.session socket) = (log, x) ∧ x.unsent = [] ∧
    t'.coordinator = x.coordinator ∧
    t'.sockets.get? id = some ⟨x.connection, x.inbox, socket.received ++ Session.written log⟩

theorem servedTo_self (t : Timeline) (id : Nat) (socket : Socket)
    (hsocket : t.sockets.get? id = some socket) : t.ServedTo id socket t := by
  refine ⟨[], [], _, rfl, rfl, rfl, ?_⟩
  rw [hsocket, Session.written, List.filterMap_nil, List.append_nil]
  rfl

/-- Whether the server may take a turn at a time: it reads what came in at once, and its pings and
    the deadline have their times. -/
def IsDue (c : Connection) (clock : Nat) : Session.Turn → Prop
  | .read time _ => time = clock
  | .beat => c.nextPing ≤ clock
  | .expire => c.deadline ≤ clock
  | .forward | .cut => True

/-- When a socket is served, the server takes a turn that is due, and the client receives what is
    written and answers a ping at once. If nothing is left to do and nothing is due, nothing
    happens. -/
theorem serve_turn (t : Timeline) (id : Nat) (socket : Socket) (c : Connection)
    (hsocket : t.sockets.get? id = some socket) (hc : socket.connection = some c) :
    ((t.serve id).2 = t ∧ socket.inbox = [] ∧ t.coordinator.hub.waiting c.id = [] ∧
      t.clock < c.nextPing ∧ t.clock < c.deadline) ∨
    ∃ turn answers, IsDue c t.clock turn ∧ (∀ m ∈ answers, m = .pong) ∧
      let x := ((t.session socket).take c turn).2
      (t.serve id).2.coordinator = x.coordinator ∧
      (t.serve id).2.sockets.get? id =
        some ⟨x.connection, x.inbox ++ answers, socket.received ++ x.unsent⟩ := by
  rcases socket with ⟨connection, inbox, received⟩
  obtain rfl : connection = some c := hc
  -- The branches of the loop in the order in which they are tried, each of them one turn or none.
  simp only [serve, hsocket]
  split
  · next m rest =>
    refine Or.inr ⟨.read t.clock (occasionOf t.operations).now, [], rfl, by simp,
      (wake_state _).1, ?_⟩
    rw [List.append_nil]
    exact put_socket ..
  · split
    · next out s hforward =>
      refine Or.inr ⟨.forward, [], trivial, by simp, ?_, ?_⟩
      · simp only [Session.take, session, hforward, (run_state ..).1]
      · simp only [Session.take, session, hforward, (run_state ..).2, put_socket]
        rfl
    · next hforward =>
      have hnone := c.forward?_none t.coordinator hforward
      split
      -- No frame is left, and none will come.
      · next hgone =>
        refine Or.inr ⟨.cut, [], trivial, by simp, ?_, ?_⟩
        · simp only [Session.take, session, hgone, hnone, List.isEmpty_nil, Bool.and_self,
            if_true, (run_state ..).1]
          rfl
        · simp only [Session.take, session, hgone, hnone, List.isEmpty_nil, Bool.and_self,
            if_true, (run_state ..).2, put_socket]
          rfl
      · split
        · next hping =>
          exact Or.inr ⟨.beat, [.pong], hping, by simp, rfl, put_socket ..⟩
        · next hping =>
          split
          · next hdue =>
            refine Or.inr ⟨.expire, [], hdue, by simp, (run_state ..).1, ?_⟩
            rw [(run_state ..).2]
            exact put_socket ..
          · next hdue =>
            exact Or.inl ⟨rfl, rfl, hnone, Nat.lt_of_not_le hping, Nat.lt_of_not_le hdue⟩

/-- When a socket is served, the server goes through some events of a session, and the client
    receives what is written. -/
theorem serve_runs (t : Timeline) (id : Nat) (socket : Socket)
    (hsocket : t.sockets.get? id = some socket) : t.ServedTo id socket (t.serve id).2 := by
  cases hc : socket.connection with
  | none =>
      have hsame : (t.serve id).2 = t := by simp only [serve, hsocket, hc]
      rw [hsame]
      exact t.servedTo_self id socket hsocket
  | some c =>
      rcases t.serve_turn id socket c hsocket hc with
        ⟨hsame, -⟩ | ⟨turn, answers, -, -, hcoordinator, hserved⟩
      · rw [hsame]
        exact t.servedTo_self id socket hsocket
      -- The turn with what is written because of it, and then the answers of the client.
      · rcases Session.run_turn (x := t.session socket) hc rfl turn with ⟨course, log, hrun, hout⟩
        have hcourse : Session.run (course ++ answers.map .arrive) (t.session socket) =
            (log, { ((t.session socket).take c turn).2 with
              inbox := ((t.session socket).take c turn).2.inbox ++ answers, unsent := [] }) := by
          rw [Session.run_append, hrun, Session.run_arrivals, List.append_nil]
        exact ⟨_, log, _, hcourse, rfl, hcoordinator, by rw [hserved, hout]⟩

end Timeline

namespace Session

/-- However messages, events and the steps of the server are interleaved: the texts that were read
    are answered in order, each by one acknowledgement or error without a number and with the
    request id of the text, and nothing else is written without a number. The reply to a text is
    written before every event that is written after the text was read, and so before everything
    that the text caused. Events are written in the order in which they came into the mailbox,
    and no event of a topic before the first text that asked for the topic was granted. Every
    text that came in was read or waits to be read, and as long as the connection is open and no
    end waits, the server can go on to answer all of them. -/
theorem replies_and_events (config : ServerConfig) (provider : Option Provider)
    (moves : List Coordinator.Move) (clock : Nat) (course : List Event) :
    let start := opened config clock ((Coordinator.ofConfig config provider).performAll moves)
    let log := (run course start).1
    let x := (run course start).2
    ((replies log).map (·.requestId) ++ (owed log).toList.map requestIdIn =
        (texts log).map requestIdIn ∧
      ∀ before f after, log = before ++ .wrote (.frame f) :: after → f.seq = none →
        ∃ text, owed before = some text ∧ f.Answers text) ∧
    (∀ before text mid f after,
      log = before ++ .heard text :: mid ++ .wrote (.frame f) :: after → f.seq.isSome →
      ∃ early r late, mid = early ++ .wrote (.frame r) :: late ∧ written early = [] ∧
        r.Answers text) ∧
    (∀ before after, log = before ++ after → events before <+: entered before) ∧
    (∀ before f after name, log = before ++ .wrote (.frame f) :: after → f.IsEventOn name →
      ∃ first text early ack late,
        before = first ++ .heard text :: early ++ .wrote (.frame ack) :: late ∧
        topicAsked? text = some name ∧ (∀ t ∈ texts first, topicAsked? t ≠ some name) ∧
        written early = [] ∧ ack.Answers text ∧ ack.body = .ack) ∧
    texts log ++ textsIn x.inbox = sent course ∧
    (x.connection.isSome → (∀ m ∈ x.inbox, m.ends = false) → ∀ clock now,
      (replies (log ++ (run (x.settling clock now) x).1)).map (·.requestId) =
        (sent course).map requestIdIn) := by
  intro start log x
  have hreachable : ((Coordinator.ofConfig config provider).performAll moves).Reachable :=
    ⟨config, provider, moves, rfl⟩
  have hkept : Kept log x := (opened_kept config clock hreachable).run course
  have hinbox : start.inbox = [] := by
    simp only [start, opened]
    cases Connection.open? config clock _ <;> rfl
  have hread := texts_run course start
  rw [hinbox] at hread
  -- Each clause reads the log at one place, and the log fits there what came before.
  refine ⟨⟨?_, fun before f after hlog hseq => ?_⟩, fun before text mid f after hlog hseq => ?_,
    fun before after hlog => ?_, fun before f after name hlog hevent => ?_, hread,
    fun hopen hends clock' now => ?_⟩
  · exact hkept.fits.answered
  · have hfits := hkept.fits
    rw [hlog] at hfits
    exact hfits.fits.reply_owed rfl hseq
  · have hfits := hkept.fits
    rw [hlog] at hfits
    have hpaid := (hfits.event_written hseq).1
    have hmid := ((fitsFrom_append [] _ _).mp hfits).1
    rw [List.append_cons] at hmid hpaid
    have hrest := ((fitsFrom_append [] _ mid).mp hmid).2
    rw [List.nil_append] at hrest
    exact hrest.reply_first (owed_append_singleton ..) hpaid
  · have hfits := hkept.fits
    rw [hlog] at hfits
    have hqueued := ((fitsFrom_append [] before after).mp hfits).1.events_inOrder List.prefix_rfl
    rwa [List.nil_append] at hqueued
  · have hfits := hkept.fits
    rw [hlog] at hfits
    exact hfits.granted_first hevent
  -- When nothing is left to read or to write, nothing is owed.
  · rcases settled hkept hopen hends clock' now with ⟨-, hempty, hunsent⟩
    have hdone := hkept.run (x.settling clock' now)
    have hanswered := hdone.fits.answered
    have hall := texts_run (x.settling clock' now) x
    rw [hempty, sent_settling, List.append_nil] at hall
    rw [List.nil_append, hdone.owed_none hunsent] at hanswered
    rw [texts_append] at hanswered
    have htexts : texts (run (x.settling clock' now) x).1 = textsIn x.inbox :=
      (List.append_nil _).symm.trans hall
    rw [htexts] at hanswered
    have hsent : texts log ++ textsIn x.inbox = sent course := hread
    rw [hsent] at hanswered
    exact (List.append_nil _).symm.trans hanswered

end Session

end Switchboard

import Mathlib.Data.List.Chain
import Mathlib.Order.Bounds.Basic
import Switchboard.Proofs.Leaving
import Switchboard.Proofs.Replies

/-!
# Vigils

A session on a clock. The events of a session happen at times, and time passes only
when nothing is left to do: what came in was read, the mailbox is empty and everything
is written, and it stops when a ping or the deadline is due. What falls together in
time may still happen in any order, since the server has no order of its own.

The server has patience with a silence for some time, which begins anew with every
message. When it runs out can be told from the times of the messages alone, and a
vigil is kept to find that the server does nothing else: as long as the connection is
open every message came in time (`Vigil.Awake`), and when it was closed patience had
just run out (`Vigil.Asleep`). The deadline of the connection follows the messages
that were read, not those that came, but time does not pass in between. So there is
no more to know about a message that was not read than that it came just now, and
before the deadline.

A message that comes at the very time at which patience runs out may be read before or
after the deadline is found to be over. Such ties are left out (`Vigil.Untied`).

## Main definitions

* `Vigil.RunsOut`: Patience with a silence runs out, as the times of the messages have it.
* `Vigil.Untied`, `Vigil.InTime`: Messages that do not fall on the deadline, or come before it.
* `Vigil`, `Vigil.step`, `Vigil.run`: A session on a clock, and what happens to it.
* `Vigil.mayPass`, `Vigil.permits`: What may happen at a time.
* `Vigil.Awake`, `Vigil.Shut`, `Vigil.Asleep`, `Vigil.Kept`: What a vigil has to do with its log.

## Theorems

* `Vigil.InTime.isLeast`: When patience runs out first.
* `Vigil.Kept.step`, `Vigil.Kept.run`: Every event is kept to.
* `Timeline.serve_permitted`: A socket on a timeline takes turns that are permitted.
-/

namespace Switchboard

/-! ### Patience -/

namespace Vigil

/-- The time of the last message, or of the start if there is none. -/
def latest (start : Nat) (came : List Nat) : Nat :=
  came.getLast?.getD start

/-- Whether patience with a silence runs out at a time: it began with the last message that has
    come by then, or at the start. -/
def RunsOut (start patience : Nat) (came : List Nat) (t : Nat) : Prop :=
  ∃ last ∈ start :: came, t = last + patience ∧ ∀ a ∈ came, a ≤ t → a ≤ last

/-- Whether no message comes at the very time at which patience with the silence before it runs
    out. -/
def Untied (start patience : Nat) (came : List Nat) : Prop :=
  (start :: came).IsChain fun last next => next ≠ last + patience

/-- Whether every message comes before patience with the silence before it runs out. -/
def InTime (start patience : Nat) (came : List Nat) : Prop :=
  (start :: came).IsChain fun last next => last ≤ next ∧ next < last + patience

variable {start patience : Nat} {came : List Nat}

theorem isChain_snoc (R : Nat → Nat → Prop) (a : Nat) :
    (start :: (came ++ [a])).IsChain R ↔ (start :: came).IsChain R ∧ R (latest start came) a := by
  rw [← List.cons_append, List.isChain_append]
  simp [List.getLast?_cons, latest]

theorem latest_snoc (a : Nat) : latest start (came ++ [a]) = a := by
  simp [latest]

theorem latest_cons (next : Nat) (rest : List Nat) :
    latest start (next :: rest) = latest next rest := by
  simp [latest, List.getLast?_cons]

theorem latest_mem : latest start came ∈ start :: came := by
  unfold latest
  cases h : came.getLast? with
  | none => exact List.mem_cons_self
  | some a => exact List.mem_cons_of_mem _ (List.mem_of_getLast? h)

/-- The last message is the latest. -/
theorem InTime.le_latest (h : InTime start patience came) :
    ∀ a ∈ start :: came, a ≤ latest start came := by
  -- The induction is on the arrivals, each of which is no earlier than the one before.
  induction came generalizing start with
  | nil =>
      intro a ha
      rw [List.mem_singleton.mp ha]
      exact Nat.le_refl _
  | cons next rest ih =>
      obtain ⟨⟨hle, -⟩, hrest⟩ := List.isChain_cons_cons.mp h
      rw [latest_cons]
      intro a ha
      rcases List.mem_cons.mp ha with rfl | ha
      · exact Nat.le_trans hle (ih hrest next List.mem_cons_self)
      · exact ih hrest a ha

/-- After a message that is not the last one, the next one comes before patience runs out. -/
theorem InTime.exists_next (h : InTime start patience came) {last : Nat}
    (hlast : last ∈ start :: came) (hlt : last < latest start came) :
    ∃ a ∈ came, last < a ∧ a < last + patience := by
  -- Arrivals may fall together, so the next later one need not be the next in the list.
  induction came generalizing start with
  | nil =>
      rw [List.mem_singleton.mp hlast] at hlt
      exact absurd hlt (Nat.lt_irrefl _)
  | cons next rest ih =>
      obtain ⟨⟨hle, hin⟩, hrest⟩ := List.isChain_cons_cons.mp h
      rw [latest_cons] at hlt
      have hlater (hmem : last ∈ next :: rest) :
          ∃ a ∈ next :: rest, last < a ∧ a < last + patience := by
        obtain ⟨a, ha, hbounds⟩ := ih hrest hmem hlt
        exact ⟨a, List.mem_cons_of_mem _ ha, hbounds⟩
      rcases List.mem_cons.mp hlast with rfl | hmem
      · -- several messages may come at the same time
        rcases Nat.eq_or_lt_of_le hle with heq | hnext
        · exact hlater (heq ▸ List.mem_cons_self)
        · exact ⟨next, List.mem_cons_self, hnext, hin⟩
      · exact hlater hmem

/-- Patience runs out first with the silence after the messages that come in time, if the next
    one comes too late. -/
theorem InTime.isLeast (h : InTime start patience came) {later : List Nat}
    (hlater : ∀ a ∈ later, latest start came + patience < a) :
    IsLeast {t | RunsOut start patience (came ++ later) t} (latest start came + patience) := by
  constructor
  -- At the last arrival the patience runs out; at any earlier one something came in between.
  · have hmem : latest start came ∈ start :: came := latest_mem
    refine ⟨latest start came, List.mem_append_left later hmem, rfl, fun a ha hle => ?_⟩
    rcases List.mem_append.mp ha with ha | ha
    · exact h.le_latest a (List.mem_cons_of_mem _ ha)
    · exact absurd hle (Nat.not_le.mpr (hlater a ha))
  · rintro t ⟨last, hlast, rfl, hfirst⟩
    rw [← List.cons_append, List.mem_append] at hlast
    refine Nat.add_le_add_right (Nat.not_lt.mp fun hlt => ?_) patience
    rcases hlast with hlast | hlast
    · obtain ⟨a, ha, hafter, hbefore⟩ := h.exists_next hlast hlt
      exact absurd (hfirst a (List.mem_append_left _ ha) (Nat.le_of_lt hbefore))
        (Nat.not_le.mpr hafter)
    · have := hlater last hlast
      omega

/-! ### Vigils -/

end Vigil

/-- Whether something that comes in is a message, and not the end of the connection. -/
def Inbound.isMessage : Inbound → Bool
  | .text _ | .binary | .ping _ | .pong => true
  | .close | .lost => false

/-- A session on a clock. -/
structure Vigil where
  session : Session
  clock : Nat

namespace Vigil

/-- Something that happens. -/
inductive Event where
  | pass (ms : Nat)
  | happen (e : Session.Event)

/-- What is told of a vigil, with the time. -/
inductive Report where
  /-- A message came in. -/
  | came (time : Nat)
  | wrote (time : Nat) (o : Outbound)

/-- Whether nothing is left to do at the time. -/
def isStill (v : Vigil) : Bool :=
  v.session.unsent.isEmpty && v.session.connection.all fun c =>
    v.session.inbox.isEmpty && (v.session.coordinator.hub.waiting c.id).isEmpty

/-- Whether time may pass. It does not as long as something is left to do, and it stops when a
    ping or the deadline is due. -/
def mayPass (v : Vigil) (ms : Nat) : Bool :=
  v.isStill && v.session.connection.all fun c =>
    v.clock + ms ≤ c.nextPing && v.clock + ms ≤ c.deadline

/-- Whether something may happen. What comes in are messages, a message is read at the time it
    is, and pings and the deadline wait for their times. -/
def permits (v : Vigil) : Session.Event → Bool
  | .arrive m => m.isMessage
  | .turn (.read clock _) => clock = v.clock
  | .turn .beat => v.session.connection.any fun c => c.nextPing ≤ v.clock
  | .turn .expire => v.session.connection.any fun c => c.deadline ≤ v.clock
  | .turn .forward | .turn .cut | .write | .elsewhere _ => true

/-- What is told of something that happens. -/
def reports (clock : Nat) : Session.Event → List Session.Entry → List Report
  | .arrive _, _ => [.came clock]
  | _, log => (Session.written log).map (.wrote clock)

/-- Something happens. What may not happen changes nothing. -/
def step (v : Vigil) : Event → List Report × Vigil
  | .pass ms => if v.mayPass ms then ([], { v with clock := v.clock + ms }) else ([], v)
  | .happen e =>
    if v.permits e then
      (reports v.clock e (v.session.step e).1, { v with session := (v.session.step e).2 })
    else ([], v)

/-- The log and the vigil after some events. -/
def run : List Event → Vigil → List Report × Vigil
  | [], v => ([], v)
  | e :: rest, v => ((v.step e).1 ++ (run rest (v.step e).2).1, (run rest (v.step e).2).2)

theorem run_append (first second : List Event) (v : Vigil) :
    run (first ++ second) v =
      ((run first v).1 ++ (run second (run first v).2).1, (run second (run first v).2).2) := by
  induction first generalizing v with
  | nil => rfl
  | cons e rest ih => rw [List.cons_append, run, ih, run, List.append_assoc]

/-- The vigil over a connection that is opened. -/
def opened (config : ServerConfig) (clock : Nat) (s : Coordinator) : Vigil :=
  ⟨.opened config clock s, clock⟩

/-- The times at which messages came in. -/
def arrivals (log : List Report) : List Nat :=
  log.filterMap fun
    | .came time => some time
    | .wrote .. => none

/-- The close frames in what goes out, with their codes and reasons. -/
def farewells (out : List Outbound) : List (Nat × String) :=
  out.filterMap fun
    | .close code reason => some (code, reason)
    | _ => none

/-- The close frames that were written, with their times, codes and reasons. -/
def closings (log : List Report) : List (Nat × Nat × String) :=
  log.filterMap fun
    | .wrote time (.close code reason) => some (time, code, reason)
    | _ => none

@[simp] theorem arrivals_append (first second : List Report) :
    arrivals (first ++ second) = arrivals first ++ arrivals second :=
  List.filterMap_append ..

@[simp] theorem closings_append (first second : List Report) :
    closings (first ++ second) = closings first ++ closings second :=
  List.filterMap_append ..

theorem arrivals_wrote (clock : Nat) (out : List Outbound) :
    arrivals (out.map (.wrote clock)) = [] := by
  simp [arrivals, List.filterMap_map]

theorem closings_wrote (clock : Nat) (out : List Outbound) :
    closings (out.map (.wrote clock)) = (farewells out).map (clock, ·) := by
  rw [closings, List.filterMap_map, farewells, List.map_filterMap]
  refine List.filterMap_congr fun o _ => ?_
  cases o <;> rfl

/-- Nothing is written but by writing. -/
theorem written_step (x : Session) (e : Session.Event) (he : e ≠ .write) :
    Session.written (x.step e).1 = [] := by
  cases e with
  | arrive m => rfl
  | write => exact absurd rfl he
  | turn t =>
      simp only [Session.step]
      split
      · exact x.written_take _ t
      · rfl
  | elsewhere m =>
      simp only [Session.step]
      split
      · rfl
      · split
        · rfl
        · exact Session.written_entered _

/-- What happens is not told, unless a message comes in or something is written. -/
theorem reports_quiet (clock : Nat) (x : Session) (e : Session.Event)
    (harrive : ∀ m, e ≠ .arrive m) (hwrite : e ≠ .write) : reports clock e (x.step e).1 = [] := by
  have hwritten := written_step x e hwrite
  cases e with
  | arrive m => exact absurd rfl (harrive m)
  | _ =>
      show (Session.written _).map _ = []
      rw [hwritten, List.map_nil]

/-! ### What a vigil has to do with its log -/

variable {number start patience : Nat} {log : List Report} {v : Vigil} {c : Connection}

/-- The connection of a vigil is open. -/
structure Awake (number start patience : Nat) (log : List Report) (v : Vigil) (c : Connection) :
    Prop where
  connection : v.session.connection = some c
  number : c.id = number
  idleTimeout : c.idleTimeout = patience
  heartbeat : 0 < c.heartbeat
  there : v.session.coordinator.IsThere c.id
  messages : ∀ m ∈ v.session.inbox, m.isMessage = true
  unclosed : closings log = []
  quiet : farewells v.session.unsent = []
  nextPing : v.clock ≤ c.nextPing
  deadline : v.clock ≤ c.deadline
  inTime : InTime start patience (arrivals log)
  past : latest start (arrivals log) ≤ v.clock
  /-- If everything was read, the deadline is counted from the last message. -/
  read : v.session.inbox = [] → c.deadline = latest start (arrivals log) + patience
  /-- Otherwise the last message has just come, before the deadline. -/
  unread : v.session.inbox ≠ [] →
    latest start (arrivals log) = v.clock ∧ v.clock < c.deadline ∧ 0 < patience

/-- Patience has run out with the silence after some messages, and those that came later came too
    late. -/
structure Shut (start patience : Nat) (log : List Report) (v : Vigil) (before later : List Nat) :
    Prop where
  came : arrivals log = before ++ later
  inTime : InTime start patience before
  late : ∀ a ∈ later, latest start before + patience < a
  reached : latest start before + patience ≤ v.clock
  past : ∀ a ∈ later, a ≤ v.clock
  /-- Time does not pass before the farewell is written. -/
  now : v.session.unsent ≠ [] → v.clock = latest start before + patience
  /-- There is one farewell, which was written or is to be written. -/
  farewell : closings log ++ (farewells v.session.unsent).map (v.clock, ·) =
    [(latest start before + patience, Connection.idleCode, Connection.idleReason)]

/-- The connection of a vigil was closed when patience had run out. -/
structure Asleep (number start patience : Nat) (log : List Report) (v : Vigil) : Prop where
  connection : v.session.connection = none
  gone : v.session.coordinator.IsGone number
  shut : ∃ before later, Shut start patience log v before later

/-- A vigil goes on as long as the connection is open, and after it was closed. -/
inductive Kept (number start patience : Nat) (log : List Report) (v : Vigil) : Prop where
  | awake (c : Connection) (h : Awake number start patience log v c)
  | asleep (h : Asleep number start patience log v)

/-- A vigil begins with the connection. -/
theorem opened_awake (config : ServerConfig) (clock : Nat) {s : Coordinator} (hs : s.Reachable)
    (hserve : Connection.canServe config clock = true) :
    ∃ c, Awake s.hub.roster.opened clock config.idleTimeout [] (opened config clock s) c := by
  -- The connection opens with a full period ahead of it and with nothing heard.
  have hheartbeat : 0 < config.heartbeat := by
    simp only [Connection.canServe, Bool.and_eq_true, decide_eq_true_eq] at hserve
    exact hserve.1.1
  rw [opened, Session.opened, Connection.open?, if_pos hserve]
  exact ⟨_, {
    connection := rfl
    number := rfl
    idleTimeout := rfl
    heartbeat := hheartbeat
    there := {
      opened := Nat.lt_succ_self _
      attached := by
        refine Table.contains_of_some (a := ⟨false, []⟩) ?_
        exact (Table.get?_insert ..).trans (if_pos rfl)
      orderly := Coordinator.orderly_perform hs.hub_orderly (.attach config.outboundCapacity) }
    messages := fun _ hm => absurd hm List.not_mem_nil
    unclosed := rfl
    quiet := rfl
    nextPing := Nat.le_add_right _ _
    deadline := Nat.le_add_right _ _
    inTime := List.isChain_singleton _
    past := Nat.le_refl _
    read := fun _ => rfl
    unread := fun hne => absurd rfl hne }⟩

/-- Time passes only if everything was read. -/
theorem Awake.pass (h : Awake number start patience log v c) {ms : Nat}
    (hms : v.mayPass ms = true) :
    Awake number start patience log { v with clock := v.clock + ms } c := by
  simp only [mayPass, isStill, h.connection, Option.all_some, Bool.and_eq_true,
    List.isEmpty_iff, decide_eq_true_eq] at hms
  obtain ⟨⟨-, hinbox, -⟩, hping, hdeadline⟩ := hms
  exact { h with
    nextPing := hping
    deadline := hdeadline
    past := Nat.le_trans h.past (Nat.le_add_right _ _)
    unread := fun hne => absurd hinbox hne }

/-- A message comes in before the deadline, unless it comes at the very same time. -/
theorem Awake.arrive (h : Awake number start patience log v c) {m : Inbound}
    (hm : m.isMessage = true)
    (huntied : v.clock ≠ latest start (arrivals log) + patience) :
    Awake number start patience (log ++ [.came v.clock])
      { v with session.inbox := v.session.inbox ++ [m] } c := by
  have harrivals : arrivals (log ++ [.came v.clock]) = arrivals log ++ [v.clock] :=
    arrivals_append ..
  -- The deadline may be earlier than what the messages that were not read will make it.
  have hbefore : v.clock < c.deadline ∧ v.clock < latest start (arrivals log) + patience := by
    by_cases hinbox : v.session.inbox = []
    · rw [h.read hinbox]
      have := h.deadline
      rw [h.read hinbox] at this
      omega
    · obtain ⟨hlatest, hdeadline, hpatience⟩ := h.unread hinbox
      omega
  have hpatience : 0 < patience := by
    have := h.past
    omega
  exact { h with
    messages := by
      intro m' hm'
      rcases List.mem_append.mp hm' with hm' | hm'
      · exact h.messages m' hm'
      · rw [List.mem_singleton.mp hm']
        exact hm
    unclosed := by rw [closings_append, h.unclosed]; rfl
    inTime := by
      rw [harrivals]
      exact (isChain_snoc _ _).mpr ⟨h.inTime, h.past, hbefore.2⟩
    past := by rw [harrivals, latest_snoc]
    read := fun hnil => absurd hnil (by simp)
    unread := fun _ => by
      rw [harrivals, latest_snoc]
      exact ⟨rfl, hbefore.1, hpatience⟩ }

/-- What is written while the connection is open is no farewell. -/
theorem Awake.write (h : Awake number start patience log v c) {o : Outbound}
    {rest : List Outbound} (hunsent : v.session.unsent = o :: rest) :
    Awake number start patience (log ++ [.wrote v.clock o])
      { v with session.unsent := rest } c := by
  -- A write adds no arrival and, as nothing unsent is a farewell, no closing.
  have harrivals : arrivals (log ++ [.wrote v.clock o]) = arrivals log := by
    rw [arrivals_append]
    exact List.append_nil _
  have hquiet : farewells [o] = [] ∧ farewells rest = [] := by
    have := h.quiet
    rw [hunsent, ← List.singleton_append, farewells, List.filterMap_append,
      List.append_eq_nil_iff] at this
    exact this
  exact { h with
    unclosed := by
      have hclosings : closings [.wrote v.clock o] = (farewells [o]).map (v.clock, ·) :=
        closings_wrote v.clock [o]
      rw [closings_append, h.unclosed, hclosings, hquiet.1]
      rfl
    quiet := hquiet.2
    inTime := harrivals ▸ h.inTime
    past := harrivals ▸ h.past
    read := harrivals ▸ h.read
    unread := harrivals ▸ h.unread }

/-- A session that is open after it took a turn in which nothing was read. -/
theorem Awake.go (h : Awake number start patience log v c) (c' : Connection)
    (out : List Outbound) {s : Coordinator}
    (hid : c'.id = c.id) (hidle : c'.idleTimeout = c.idleTimeout)
    (hheartbeat : c'.heartbeat = c.heartbeat) (hping : v.clock ≤ c'.nextPing)
    (hdeadline : c'.deadline = c.deadline) (hout : farewells out = [])
    (hthere : s.IsThere c.id) :
    Awake number start patience log ⟨⟨some c', v.session.inbox, out, s⟩, v.clock⟩ c' where
  connection := rfl
  number := hid.trans h.number
  idleTimeout := hidle.trans h.idleTimeout
  heartbeat := hheartbeat ▸ h.heartbeat
  there := hid ▸ hthere
  messages := h.messages
  unclosed := h.unclosed
  quiet := hout
  nextPing := hping
  deadline := hdeadline ▸ h.deadline
  inTime := h.inTime
  past := h.past
  read hinbox := hdeadline.trans (h.read hinbox)
  unread hinbox := hdeadline ▸ h.unread hinbox

/-- Reading a message puts the deadline off, which makes up for what was not yet read. -/
theorem Awake.hear (h : Awake number start patience log v c) {m : Inbound} {rest : List Inbound}
    (hinbox : v.session.inbox = m :: rest) {out : List Outbound} (hout : farewells out = [])
    {s : Coordinator} (hthere : s.IsThere c.id) :
    Awake number start patience log ⟨⟨some (c.heard v.clock), rest, out, s⟩, v.clock⟩
      (c.heard v.clock) := by
  -- The deadline starts again at the hearing, which is the time of the last arrival.
  obtain ⟨hlatest, -, hpatience⟩ := h.unread (by rw [hinbox]; simp)
  have hdeadline : (c.heard v.clock).deadline = v.clock + patience := by
    rw [← h.idleTimeout]
    rfl
  exact {
    connection := rfl
    number := h.number
    idleTimeout := h.idleTimeout
    heartbeat := h.heartbeat
    there := hthere
    messages := fun m' hm' => h.messages m' (by rw [hinbox]; exact List.mem_cons_of_mem _ hm')
    unclosed := h.unclosed
    quiet := hout
    nextPing := h.nextPing
    deadline := hdeadline ▸ Nat.le_add_right _ _
    inTime := h.inTime
    past := h.past
    read := fun _ => by rw [hdeadline, hlatest]
    unread := fun _ => ⟨hlatest, hdeadline ▸ Nat.lt_add_of_pos_right hpatience, hpatience⟩ }

/-- The deadline falls due only if everything was read, and then patience has run out. -/
theorem Awake.expire (h : Awake number start patience log v c) (hdue : c.deadline ≤ v.clock)
    (inbox : List Inbound) :
    Asleep number start patience log
      ⟨⟨none, inbox, [.close Connection.idleCode Connection.idleReason, .ended],
        c.leave v.session.coordinator⟩, v.clock⟩ := by
  -- Had something come in that was not read, the deadline would lie ahead.
  have hinbox : v.session.inbox = [] := by
    by_cases hinbox : v.session.inbox = []
    · exact hinbox
    · exact absurd hdue (Nat.not_le.mpr (h.unread hinbox).2.1)
  have hclock : v.clock = latest start (arrivals log) + patience := by
    rw [← h.read hinbox]
    exact Nat.le_antisymm h.deadline hdue
  have hgone : (v.session.coordinator.perform (.detach c.id)).IsGone number :=
    h.number ▸ h.there.isGone
  exact {
    connection := rfl
    gone := by
      rw [c.leave_eq]
      exact hgone.perform (.close c.id)
    shut := ⟨arrivals log, [], {
      came := (List.append_nil _).symm
      inTime := h.inTime
      late := fun _ ha => absurd ha List.not_mem_nil
      reached := hclock ▸ Nat.le_refl _
      past := fun _ ha => absurd ha List.not_mem_nil
      now := fun _ => hclock
      farewell := by rw [h.unclosed, ← hclock]; rfl }⟩ }

/-- What a connection asks for does not take it away. -/
theorem Awake.answer (h : Awake number start patience log v c) (now : Timestamp) (text : String) :
    (Connection.answer c.id now text v.session.coordinator).2.IsThere c.id := by
  rcases Connection.answer_cases c.id now text v.session.coordinator with
    hs | ⟨hs, -⟩ | ⟨conversation, hs, -⟩ | ⟨key, hs⟩
  · rw [hs]
    exact h.there
  all_goals
    rw [hs]
    exact h.there.perform _ (by simp)

/-- A turn that is taken when it is time keeps an open vigil or ends it. -/
theorem Awake.take (h : Awake number start patience log v c) (t : Session.Turn)
    (hpermits : v.permits (.turn t) = true) :
    Kept number start patience log { v with session := (v.session.take c t).2 } := by
  -- Every turn but the expiry leaves the connection open.
  have hsame : Kept number start patience log v := .awake c h
  cases t with
  | read clock now =>
      obtain rfl : clock = v.clock := of_decide_eq_true hpermits
      cases hinbox : v.session.inbox with
      | nil =>
          simp only [Session.take, hinbox]
          exact hsame
      | cons m rest =>
          have hm := h.messages m (by rw [hinbox]; exact List.mem_cons_self)
          simp only [Session.take, hinbox]
          cases m with
          | text text => exact .awake _ (h.hear hinbox rfl (h.answer now text))
          | binary | ping | pong => exact .awake _ (h.hear hinbox rfl h.there)
          | close | lost => exact absurd hm (by simp [Inbound.isMessage])
  | forward =>
      cases hforward : c.forward? v.session.coordinator with
      | none =>
          simp only [Session.take, hforward]
          exact hsame
      | some p =>
          obtain ⟨hs, f, hf, -⟩ := c.forward?_cases _ _ _ hforward
          simp only [Session.take, hforward, h.connection]
          have hthere := h.there.perform (.take c.id) (by simp)
          rw [← hs] at hthere
          exact .awake c (h.go c p.1 rfl rfl rfl h.nextPing rfl (hf ▸ rfl) hthere)
  | beat =>
      exact .awake _ (h.go c.beat.2 [.ping] rfl rfl rfl
        (Nat.le_trans h.nextPing (Nat.le_add_right _ _)) rfl rfl h.there)
  | expire =>
      have hdue : c.deadline ≤ v.clock := by simpa [permits, h.connection] using hpermits
      exact .asleep (h.expire hdue v.session.inbox)
  | cut =>
      -- The mailbox of a connection that is there is not given up.
      simp only [Session.take, h.there.attached, Bool.not_true, Bool.false_and, Bool.false_eq_true,
        if_false]
      exact hsame

/-- Something happens while the connection is open. -/
theorem Awake.happen (h : Awake number start patience log v c) (e : Session.Event)
    (hpermits : v.permits e = true)
    (huntied : Untied start patience (arrivals (log ++ reports v.clock e (v.session.step e).1))) :
    Kept number start patience (log ++ reports v.clock e (v.session.step e).1)
      { v with session := (v.session.step e).2 } := by
  -- No event moves the clock, so what is reported of it has the time at which it began.
  have hsame : Kept number start patience log v := .awake c h
  cases e with
  | arrive m =>
      refine .awake c (h.arrive hpermits ?_)
      rw [arrivals_append] at huntied
      exact ((isChain_snoc _ _).mp huntied).2
  | write =>
      simp only [Session.step, reports]
      cases hunsent : v.session.unsent with
      | nil => simpa [Session.written] using hsame
      | cons o rest => exact .awake c (h.write hunsent)
  | turn t =>
      rw [reports_quiet _ _ _ (by simp) (by simp), List.append_nil]
      simp only [Session.step, h.connection]
      cases v.session.unsent with
      | nil => exact h.take t hpermits
      | cons o rest => exact hsame
  | elsewhere m =>
      rw [reports_quiet _ _ _ (by simp) (by simp), List.append_nil]
      simp only [Session.step, h.connection]
      by_cases hm : m.isOf c.id = true
      · rw [if_pos hm]
        exact hsame
      · rw [if_neg hm]
        have hstays : m ≠ .detach c.id := by
          rintro rfl
          exact hm (by simp [Coordinator.Move.isOf])
        exact .awake c (h.go c _ rfl rfl rfl h.nextPing rfl h.quiet (h.there.perform m hstays))

/-- What comes in after the connection was closed comes too late. -/
theorem Asleep.arrive (h : Asleep number start patience log v) (m : Inbound)
    (huntied : v.clock ≠ latest start (arrivals log) + patience) :
    Asleep number start patience (log ++ [.came v.clock])
      { v with session.inbox := v.session.inbox ++ [m] } := by
  obtain ⟨before, later, hshut⟩ := h.shut
  -- What comes in now comes after the deadline, as no arrival is tied with it.
  have hlate : latest start before + patience < v.clock := by
    cases later with
    | nil =>
        rw [hshut.came, List.append_nil] at huntied
        exact Nat.lt_of_le_of_ne hshut.reached huntied.symm
    | cons a rest =>
        exact Nat.lt_of_lt_of_le (hshut.late a List.mem_cons_self)
          (hshut.past a List.mem_cons_self)
  exact { h with
    shut := ⟨before, later ++ [v.clock], { hshut with
      came := by
        rw [arrivals_append, hshut.came, List.append_assoc]
        rfl
      late := List.forall_mem_append.mpr ⟨hshut.late, List.forall_mem_singleton.mpr hlate⟩
      past := List.forall_mem_append.mpr
        ⟨hshut.past, List.forall_mem_singleton.mpr (Nat.le_refl _)⟩
      farewell := by
        rw [closings_append]
        exact (congrArg (· ++ _) (List.append_nil _)).trans hshut.farewell }⟩ }

/-- The farewell is written once. -/
theorem Asleep.write (h : Asleep number start patience log v) {o : Outbound}
    {rest : List Outbound} (hunsent : v.session.unsent = o :: rest) :
    Asleep number start patience (log ++ [.wrote v.clock o])
      { v with session.unsent := rest } := by
  -- What is written now, if anything, is the close frame that was unsent.
  obtain ⟨before, later, hshut⟩ := h.shut
  exact { h with
    shut := ⟨before, later, { hshut with
      came := by
        rw [arrivals_append, hshut.came]
        exact List.append_nil _
      now := fun _ => hshut.now (by rw [hunsent]; simp)
      farewell := by
        have hwrote : closings [.wrote v.clock o] = (farewells [o]).map (v.clock, ·) :=
          closings_wrote v.clock [o]
        have hsplit : farewells (o :: rest) = farewells [o] ++ farewells rest := by
          rw [farewells, ← List.singleton_append, List.filterMap_append]
          rfl
        have hfarewell := hshut.farewell
        rw [hunsent, hsplit, List.map_append, ← List.append_assoc] at hfarewell
        rw [closings_append, hwrote]
        exact hfarewell }⟩ }

/-- Something happens after the connection was closed. -/
theorem Asleep.happen (h : Asleep number start patience log v) (e : Session.Event)
    (huntied : Untied start patience (arrivals (log ++ reports v.clock e (v.session.step e).1))) :
    Asleep number start patience (log ++ reports v.clock e (v.session.step e).1)
      { v with session := (v.session.step e).2 } := by
  -- Nothing is read any more, so only what is unsent changes.
  cases e with
  | arrive m =>
      rw [arrivals_append] at huntied
      exact h.arrive m ((isChain_snoc _ _).mp huntied).2
  | write =>
      simp only [Session.step, reports]
      cases hunsent : v.session.unsent with
      | nil => simpa [Session.written] using h
      | cons o rest => exact h.write hunsent
  | turn t =>
      rw [reports_quiet _ _ _ (by simp) (by simp), List.append_nil]
      simp only [Session.step, h.connection]
      exact h
  | elsewhere m =>
      rw [reports_quiet _ _ _ (by simp) (by simp), List.append_nil]
      simp only [Session.step, h.connection]
      obtain ⟨before, later, hshut⟩ := h.shut
      exact ⟨rfl, h.gone.perform m, before, later, { hshut with }⟩

theorem Asleep.pass (h : Asleep number start patience log v) {ms : Nat}
    (hms : v.mayPass ms = true) :
    Asleep number start patience log { v with clock := v.clock + ms } := by
  -- Time passes only when nothing is unsent.
  have hunsent : v.session.unsent = [] := by
    simp only [mayPass, isStill, Bool.and_eq_true, List.isEmpty_iff] at hms
    exact hms.1.1
  obtain ⟨before, later, hshut⟩ := h.shut
  exact { h with
    shut := ⟨before, later, { hshut with
      reached := Nat.le_trans hshut.reached (Nat.le_add_right _ _)
      past := fun a ha => Nat.le_trans (hshut.past a ha) (Nat.le_add_right _ _)
      now := fun hne => absurd hunsent hne
      farewell := by
        have hfarewell := hshut.farewell
        rw [hunsent] at hfarewell ⊢
        exact hfarewell }⟩ }

/-- Every event is kept to. -/
theorem Kept.step (h : Kept number start patience log v) (e : Event)
    (huntied : Untied start patience (arrivals (log ++ (v.step e).1))) :
    Kept number start patience (log ++ (v.step e).1) (v.step e).2 := by
  -- A step that is not permitted does nothing.
  cases e with
  | pass ms =>
      simp only [Vigil.step]
      by_cases hms : v.mayPass ms = true
      · simp only [if_pos hms, List.append_nil]
        cases h with
        | awake c h => exact .awake c (h.pass hms)
        | asleep h => exact .asleep (h.pass hms)
      · simp only [if_neg hms, List.append_nil]
        exact h
  | happen e =>
      simp only [Vigil.step] at huntied ⊢
      by_cases hpermits : v.permits e = true
      · simp only [if_pos hpermits] at huntied ⊢
        cases h with
        | awake c h => exact h.happen e hpermits huntied
        | asleep h => exact .asleep (h.happen e huntied)
      · simp only [if_neg hpermits, List.append_nil]
        exact h

theorem Untied.of_append {first second : List Nat} (h : Untied start patience (first ++ second)) :
    Untied start patience first := by
  rw [Untied, ← List.cons_append] at h
  exact h.left_of_append

theorem Kept.run (h : Kept number start patience log v) (events : List Event)
    (huntied : Untied start patience (arrivals (log ++ (run events v).1))) :
    Kept number start patience (log ++ (run events v).1) (run events v).2 := by
  induction events generalizing log v with
  | nil =>
      simp only [Vigil.run, List.append_nil]
      exact h
  | cons e rest ih =>
      rw [Vigil.run, ← List.append_assoc] at huntied ⊢
      refine ih (h.step e ?_) huntied
      rw [arrivals_append] at huntied
      exact huntied.of_append

end Vigil

/-! ### On a timeline -/

/-- A socket that is served on a timeline takes a turn that is permitted at the time, and if there
    is none, time may pass. A ping is answered at once. -/
theorem Timeline.serve_permitted (t : Timeline) (id : Nat) (socket : Socket) (c : Connection)
    (hsocket : t.sockets.get? id = some socket) (hc : socket.connection = some c) :
    let v : Vigil := ⟨t.session socket, t.clock⟩
    let t' := (t.serve id).2
    t' = t ∧ v.mayPass 1 = true ∨
      ∃ turn answers, v.permits (.turn turn) = true ∧ (∀ m ∈ answers, m = .pong) ∧
        let x := (v.session.take c turn).2
        t'.coordinator = x.coordinator ∧
        t'.sockets.get? id =
          some ⟨x.connection, x.inbox ++ answers, socket.received ++ x.unsent⟩ := by
  intro v t'
  rcases t.serve_turn id socket c hsocket hc with
    ⟨hsame, hinbox, hnone, hping, hdue⟩ | ⟨turn, answers, hturn, hanswers, hserved⟩
  · refine Or.inl ⟨hsame, ?_⟩
    simp only [v, Vigil.mayPass, Vigil.isStill, session, hc, hinbox, hnone, List.isEmpty_nil,
      Option.all_some, Bool.and_self, Bool.true_and, Bool.and_eq_true, decide_eq_true_eq]
    exact ⟨hping, hdue⟩
  · refine Or.inr ⟨turn, answers, ?_, hanswers, hserved⟩
    -- A vigil permits the turns that are due.
    cases turn with
    | read time now => exact decide_eq_true hturn
    | beat | expire => simpa [v, Vigil.permits, session, hc, IsDue] using hturn
    | forward | cut => rfl

end Switchboard

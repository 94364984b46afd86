import Mathlib.Data.Prod.Lex
import Switchboard.Proofs.Vigils

/-!
# Silent Connections

A connection on which nothing has come in for too long is closed, at the first time
at which patience runs out and at no other. That it is closed at no other time is
what a vigil keeps to. That it is closed at all needs time to get there, and nothing
keeps time from passing: what is left to do at a time becomes less with every turn of
the server. A message that is read may put frames into the mailbox, a frame that is
taken out has to be written, and a deadline that is due brings a close frame, so that
what is left is counted in this order of importance.

## Main definitions

* `Vigil.Event.IsOwn`: What happens without anybody else.
* `Vigil.burden`: What has to be done before time can pass.

## Theorems

* `Vigil.Kept.exists_easier`: There is something to do as long as time cannot pass.
* `Vigil.Kept.exists_later`: Nothing keeps time from passing.
* `Vigil.closed_when_silent`: When a connection is closed, and what is left of it.
-/

namespace Switchboard

namespace Vigil

variable {number start patience : Nat} {log : List Report} {v : Vigil} {c : Connection}

/-! ### Getting on -/

/-- Whether something happens by itself: time passes, or the server goes on. -/
def Event.IsOwn : Event → Prop
  | .pass _ | .happen (.turn _) | .happen .write => True
  | .happen (.arrive _) | .happen (.elsewhere _) => False

/-- What has to be done before time can pass: what was not read, what waits in the mailbox, and
    what is to be written, with the ping and the farewell if they are due. -/
def burden (v : Vigil) : Nat ×ₗ Nat ×ₗ Nat :=
  match v.session.connection with
  | none => toLex (0, toLex (0, v.session.unsent.length))
  | some c =>
    toLex (v.session.inbox.length, toLex ((v.session.coordinator.hub.waiting c.id).length,
      v.session.unsent.length + (if c.nextPing ≤ v.clock then 2 else 0) +
        if c.deadline ≤ v.clock then 3 else 0))

theorem burden_of_open (v : Vigil) (hc : v.session.connection = some c) :
    v.burden = toLex (v.session.inbox.length,
      toLex ((v.session.coordinator.hub.waiting c.id).length,
        v.session.unsent.length + (if c.nextPing ≤ v.clock then 2 else 0) +
          if c.deadline ≤ v.clock then 3 else 0)) := by
  rw [burden, hc]

/-- What is to be written can be written. -/
theorem write_easier {o : Outbound} {rest : List Outbound}
    (hunsent : v.session.unsent = o :: rest) :
    (v.step (.happen .write)).2.burden < v.burden := by
  simp only [step, permits, if_true, Session.step, hunsent, burden]
  cases v.session.connection <;> simp [Prod.Lex.toLex_lt_toLex]

section

variable (h : Awake number start patience log v c) (hunsent : v.session.unsent = [])

include h hunsent

theorem Awake.turn_step (t : Session.Turn) (hpermits : v.permits (.turn t) = true) :
    (v.step (.happen (.turn t))).2 = ⟨(v.session.take c t).2, v.clock⟩ := by
  simp only [step, if_pos hpermits, Session.step, h.connection, hunsent]

theorem Awake.read_easier {m : Inbound} {rest : List Inbound}
    (hinbox : v.session.inbox = m :: rest) (now : Timestamp) :
    (v.step (.happen (.turn (.read v.clock now)))).2.burden < v.burden := by
  have hm := h.messages m (by rw [hinbox]; exact List.mem_cons_self)
  rw [h.turn_step hunsent _ (by simp [permits]), v.burden_of_open h.connection, hinbox]
  simp only [Session.take, hinbox]
  cases m with
  | close | lost => exact absurd hm (by simp [Inbound.isMessage])
  | _ =>
      rw [burden_of_open _ rfl, Prod.Lex.toLex_lt_toLex]
      exact Or.inl (Nat.lt_succ_self _)

theorem Awake.forward_easier {p : List Outbound × Coordinator}
    (hforward : c.forward? v.session.coordinator = some p) :
    (v.step (.happen (.turn .forward))).2.burden < v.burden := by
  obtain ⟨-, f, -, hwaiting⟩ := c.forward?_cases _ _ _ hforward
  rw [h.turn_step hunsent _ rfl, v.burden_of_open h.connection]
  simp only [Session.take, hforward]
  rw [burden_of_open ⟨⟨v.session.connection, v.session.inbox, p.1, p.2⟩, v.clock⟩ h.connection,
    hwaiting, Prod.Lex.toLex_lt_toLex, Prod.Lex.toLex_lt_toLex]
  exact Or.inr ⟨rfl, Or.inl (Nat.lt_succ_self _)⟩

variable (hinbox : v.session.inbox = [])
  (hwaiting : v.session.coordinator.hub.waiting c.id = [])

include hinbox hwaiting

theorem Awake.expire_easier (hdue : c.deadline ≤ v.clock) :
    (v.step (.happen (.turn .expire))).2.burden < v.burden := by
  have hpermits : v.permits (.turn .expire) = true := by
    simpa [permits, h.connection] using hdue
  rw [h.turn_step hunsent _ hpermits, v.burden_of_open h.connection, hinbox, hwaiting, hunsent,
    if_pos hdue]
  -- Two frames are to be written, instead of one that is due and counts three.
  have hless : 2 < 0 + (if c.nextPing ≤ v.clock then 2 else 0) + 3 := by omega
  exact Prod.Lex.toLex_lt_toLex.mpr (Or.inr ⟨rfl, Prod.Lex.toLex_lt_toLex.mpr
    (Or.inr ⟨rfl, hless⟩)⟩)

theorem Awake.beat_easier (hdue : ¬c.deadline ≤ v.clock) (hping : c.nextPing ≤ v.clock) :
    (v.step (.happen (.turn .beat))).2.burden < v.burden := by
  -- The clock has reached the next ping and not the deadline, so the ping is the next thing to do.
  have hpermits : v.permits (.turn .beat) = true := by
    simpa [permits, h.connection] using hping
  have hlater : ¬c.beat.2.nextPing ≤ v.clock := by
    have hnext : c.beat.2.nextPing = c.nextPing + c.heartbeat := rfl
    have hheartbeat := h.heartbeat
    have hnow := h.nextPing
    omega
  rw [h.turn_step hunsent _ hpermits, v.burden_of_open h.connection, hinbox, hwaiting, hunsent,
    if_pos hping, if_neg hdue]
  simp only [Session.take]
  rw [burden_of_open _ rfl, if_neg hlater, if_neg (show ¬c.beat.2.deadline ≤ v.clock from hdue),
    hinbox]
  refine Prod.Lex.toLex_lt_toLex.mpr (Or.inr ⟨rfl, Prod.Lex.toLex_lt_toLex.mpr (Or.inr ⟨?_, ?_⟩)⟩)
  · exact congrArg List.length hwaiting
  · exact Nat.lt_succ_self 1

end

/-- An open connection that has nothing to write goes on with the first thing there is to do. -/
theorem Awake.exists_turn (h : Awake number start patience log v c)
    (hunsent : v.session.unsent = []) (hstuck : ¬v.mayPass 1 = true) :
    ∃ t : Session.Turn, (v.step (.happen (.turn t))).2.burden < v.burden := by
  cases hinbox : v.session.inbox with
  | cons m rest => exact ⟨.read v.clock ⟨0, 0⟩, h.read_easier hunsent hinbox _⟩
  | nil =>
      cases hforward : c.forward? v.session.coordinator with
      | some p => exact ⟨.forward, h.forward_easier hunsent hforward⟩
      | none =>
          have hwaiting := c.forward?_none _ hforward
          by_cases hdue : c.deadline ≤ v.clock
          · exact ⟨.expire, h.expire_easier hunsent hinbox hwaiting hdue⟩
          · -- nothing else is left that time could wait for
            have hping : c.nextPing ≤ v.clock := by
              simp only [mayPass, isStill, h.connection, hunsent, hinbox, hwaiting,
                Option.all_some, List.isEmpty_nil, Bool.true_and, Bool.and_eq_true,
                decide_eq_true_eq] at hstuck
              omega
            exact ⟨.beat, h.beat_easier hunsent hinbox hwaiting hdue hping⟩

/-- As long as time cannot pass there is something that makes the burden less. -/
theorem Kept.exists_easier (h : Kept number start patience log v) (hstuck : ¬v.mayPass 1 = true) :
    ∃ e : Session.Event, (Event.happen e).IsOwn ∧ (v.step (.happen e)).2.burden < v.burden := by
  cases hunsent : v.session.unsent with
  | cons o rest => exact ⟨.write, trivial, write_easier hunsent⟩
  | nil =>
      cases h with
      | awake c h =>
          obtain ⟨t, ht⟩ := h.exists_turn hunsent hstuck
          exact ⟨.turn t, trivial, ht⟩
      -- A closed connection with nothing to write does not hold up time.
      | asleep h => exact absurd (by simp [mayPass, isStill, h.connection, hunsent]) hstuck

/-- What happens by itself lets no time pass and brings no message, unless it is that time
    passes. -/
theorem own_step {e : Session.Event} (he : (Event.happen e).IsOwn) :
    (v.step (.happen e)).2.clock = v.clock ∧ arrivals (v.step (.happen e)).1 = [] := by
  simp only [step]
  split
  · refine ⟨rfl, ?_⟩
    cases e with
    | turn t => exact arrivals_wrote _ _
    | write => exact arrivals_wrote _ _
    | arrive | elsewhere => exact absurd he not_false
  · exact ⟨rfl, rfl⟩

/-- Time can pass after some turns. -/
theorem Kept.exists_pass (h : Kept number start patience log v)
    (huntied : Untied start patience (arrivals log)) : ∃ events : List Event,
    (∀ e ∈ events, e.IsOwn) ∧ arrivals (Vigil.run events v).1 = [] ∧
      (Vigil.run events v).2.clock = v.clock ∧ (Vigil.run events v).2.mayPass 1 = true := by
  -- By induction on the burden.
  induction hburden : v.burden using WellFoundedLT.induction generalizing log v with
  | ind b ih =>
      by_cases hmay : v.mayPass 1 = true
      · exact ⟨[], by simp, rfl, rfl, hmay⟩
      · obtain ⟨e, he, hless⟩ := h.exists_easier hmay
        obtain ⟨hclock, harrivals⟩ := own_step (v := v) he
        have harrived : arrivals (log ++ (v.step (.happen e)).1) = arrivals log := by
          rw [arrivals_append, harrivals, List.append_nil]
        obtain ⟨rest, hrest, hnone, hsame, hpass⟩ := ih _ (hburden ▸ hless)
          (h.step (.happen e) (harrived ▸ huntied)) (harrived ▸ huntied) rfl
        refine ⟨.happen e :: rest, List.forall_mem_cons.mpr ⟨he, hrest⟩, ?_, ?_, hpass⟩
        · rw [Vigil.run, arrivals_append, harrivals, hnone]
          rfl
        · exact hsame.trans hclock

/-- Nothing keeps time from passing. -/
theorem Kept.exists_later (h : Kept number start patience log v)
    (huntied : Untied start patience (arrivals log)) (ms : Nat) : ∃ events : List Event,
    (∀ e ∈ events, e.IsOwn) ∧ arrivals (Vigil.run events v).1 = [] ∧
      (Vigil.run events v).2.clock = v.clock + ms := by
  -- The induction is on the time to wait, one tick after the other; before each tick the server
  -- does all it can.
  induction ms with
  | zero => exact ⟨[], by simp, rfl, rfl⟩
  | succ ms ih =>
      obtain ⟨first, hfirst, hnone, hclock⟩ := ih
      have harrived : arrivals (log ++ (Vigil.run first v).1) = arrivals log := by
        rw [arrivals_append, hnone, List.append_nil]
      obtain ⟨second, hsecond, hnone', hclock', hpass⟩ :=
        (h.run first (harrived ▸ huntied)).exists_pass (harrived ▸ huntied)
      have hlast : Vigil.run [.pass 1] (Vigil.run second (Vigil.run first v).2).2 =
          ([], { (Vigil.run second (Vigil.run first v).2).2 with clock := v.clock + ms + 1 }) := by
        rw [Vigil.run, Vigil.step, if_pos hpass, hclock', hclock]
        rfl
      refine ⟨first ++ (second ++ [.pass 1]), ?_, ?_, ?_⟩
      · simp only [List.forall_mem_append, List.forall_mem_singleton]
        exact ⟨hfirst, hsecond, trivial⟩
      · simp only [run_append, arrivals_append, hnone, hnone', hlast]
        rfl
      · simp only [run_append, hlast]
        rfl

/-! ### The close -/

/-- As long as the connection is open, patience has not run out before. -/
theorem Awake.isLeast (h : Awake number start patience log v c) :
    ∃ t, IsLeast {t | RunsOut start patience (arrivals log) t} t ∧ v.clock ≤ t := by
  have hleast : IsLeast {t | RunsOut start patience (arrivals log ++ []) t}
      (latest start (arrivals log) + patience) := h.inTime.isLeast (by simp)
  rw [List.append_nil] at hleast
  refine ⟨_, hleast, ?_⟩
  by_cases hinbox : v.session.inbox = []
  · exact h.read hinbox ▸ h.deadline
  · rw [(h.unread hinbox).1]
    exact Nat.le_add_right _ _

/-- A connection on which nothing has come in for too long is closed, at that time and at no
    other.

    Whatever comes in, is sent and is done by others meanwhile, there is a first time at which
    patience runs out, which the times of the messages alone decide. The connection is open and
    nothing was closed until then. Afterwards it is closed, with a single close frame that was
    written at that very time, and it belongs to no topic. -/
theorem closed_when_silent (config : ServerConfig) (start : Nat) {s : Coordinator}
    (hs : s.Reachable) (hserve : Connection.canServe config start = true) (events : List Event)
    (huntied : Untied start config.idleTimeout
      (arrivals (run events (opened config start s)).1)) :
    let log := (run events (opened config start s)).1
    let v := (run events (opened config start s)).2
    ∃ t, IsLeast {t | RunsOut start config.idleTimeout (arrivals log) t} t ∧
      -- Nothing is closed before, and there is one close frame afterwards.
      (v.clock < t → v.session.connection.isSome = true) ∧
      (v.session.connection.isSome = true → closings log = []) ∧
      (closings log = [] ∨ closings log = [(t, 4000, "idle timeout")]) ∧
      (t < v.clock → v.session.connection = none ∧
        closings log = [(t, 4000, "idle timeout")]) ∧
      -- A connection that was closed belongs to no topic.
      (v.session.connection = none → ∀ name,
        ¬v.session.coordinator.hub.roster.IsOn s.hub.roster.opened name ∧
        s.hub.roster.opened ∉ (v.session.coordinator.hub.roster.topicOf name).members) ∧
      -- Time goes on without a message.
      ∀ ms, ∃ more : List Event, (∀ e ∈ more, e.IsOwn) ∧
        arrivals (run (events ++ more) (opened config start s)).1 = arrivals log ∧
        (run (events ++ more) (opened config start s)).2.clock = v.clock + ms := by
  intro log v
  have hkept : Kept s.hub.roster.opened start config.idleTimeout log v := by
    -- A connection that is served is awake at the start, and any events keep it awake or let it
    -- end.
    obtain ⟨c, hawake⟩ := opened_awake config start hs hserve
    have hstart : Kept s.hub.roster.opened start config.idleTimeout [] (opened config start s) :=
      .awake c hawake
    exact hstart.run events huntied
  have hlater : ∀ ms, ∃ more : List Event, (∀ e ∈ more, e.IsOwn) ∧
      arrivals (run (events ++ more) (opened config start s)).1 = arrivals log ∧
      (run (events ++ more) (opened config start s)).2.clock = v.clock + ms := by
    intro ms
    obtain ⟨more, hmore, hnone, hclock⟩ := hkept.exists_later huntied ms
    refine ⟨more, hmore, ?_, ?_⟩
    · rw [run_append, arrivals_append, hnone, List.append_nil]
    · rw [run_append]
      exact hclock
  cases hkept with
  | awake c h =>
      obtain ⟨t, hleast, hclock⟩ := h.isLeast
      refine ⟨t, hleast, fun _ => by rw [h.connection]; rfl, fun _ => h.unclosed, Or.inl h.unclosed,
        fun hlt => absurd hclock (Nat.not_le.mpr hlt), fun hnone => ?_, hlater⟩
      exact absurd (h.connection.symm.trans hnone) (by simp)
  | asleep h =>
      obtain ⟨before, late, hshut⟩ := h.shut
      have hleast := hshut.inTime.isLeast hshut.late
      have hfarewell := hshut.farewell
      rw [← hshut.came] at hleast
      refine ⟨_, hleast, fun hlt => absurd hshut.reached (Nat.not_le.mpr hlt), fun hopen => ?_, ?_,
        fun hlt => ⟨h.connection, ?_⟩, fun _ name => h.gone.belongs name, hlater⟩
      · exact absurd hopen (by simp [h.connection])
      · exact (List.append_eq_singleton_iff.mp hfarewell).imp And.left And.left
      · have hunsent : v.session.unsent = [] := by
          by_contra hne
          exact absurd (hshut.now hne) (Nat.ne_of_gt hlt)
        rw [hunsent] at hfarewell
        exact (List.append_nil _).symm.trans hfarewell

/-- A connection on which one message comes in. The server pings it every ten milliseconds, which
    does not count. -/
def lonely : List Event :=
  [.pass 7, .happen (.arrive .binary), .happen (.turn (.read 7 ⟨0, 0⟩)), .pass 3,
    .happen (.turn .beat), .happen .write, .pass 10, .happen (.turn .beat), .happen .write,
    .pass 10, .happen (.turn .beat), .happen .write, .pass 2, .happen (.turn .expire),
    .happen .write, .happen .write, .pass 1]

/-- The connection is closed twenty-five milliseconds after its message. -/
theorem lonely_closed :
    let config := { ServerConfig.standard with heartbeat := 10, idleTimeout := 25 }
    let s := Coordinator.ofConfig config none
    let log := (run lonely (opened config 0 s)).1
    Connection.canServe config 0 = true ∧ Untied 0 25 (arrivals log) ∧ arrivals log = [7] ∧
      ∃ t, IsLeast {t | RunsOut 0 25 [7] t} t ∧ closings log = [(t, 4000, "idle timeout")] := by
  intro config s log
  have hserve : Connection.canServe config 0 = true := by decide
  have harrivals : arrivals log = [7] := by decide
  have huntied : Untied 0 25 (arrivals log) := by
    rw [harrivals]
    exact .cons_cons (by decide) (.singleton 7)
  obtain ⟨t, hleast, -, -, hclosings, -⟩ :=
    closed_when_silent config 0 ⟨config, none, [], rfl⟩ hserve lonely huntied
  have hclosed : closings log ≠ [] := by decide
  exact ⟨hserve, huntied, harrivals, t, harrivals ▸ hleast, hclosings.resolve_left hclosed⟩

end Vigil

end Switchboard

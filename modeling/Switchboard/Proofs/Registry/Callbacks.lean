import Switchboard.Proofs.Registry.Shelves

/-!
# Registrations and Callbacks

What the history of a registry says about the callbacks of its runs. The name of
a run may be registered, leave and be registered again, so that a callback does
not belong to a name but to one registration of it. A registration lasts from the
action that created it to the next one that ends the name, and it is the way in
which it ends that settles what becomes of its callback: a cancellation calls it,
once, and nothing else does.

Which registration a callback came with is said by the place in the history where
it was offered. To count how often it is called it has to be told apart from the
others as well, and so it is offered once only there, like everything that is
given away.

## Main definitions

* `Registry.Action.Offers`: A name is to be registered with a callback.
* `Registry.created`, `Registry.removed`: How often a name is reported to come in and to leave.
* `Registry.Installed`, `Registry.InstalledSince`: A name is registered with a callback, now and in
  the course of a history.
* `Registry.EndsCancelled`: A registration ends by a cancellation.

## Theorems

* `Registry.installed_iff_since`, `Registry.installed_actAll`: A callback stays installed until its
  registration ends.
* `Registry.mem_firedAll_iff_cancelled`, `Registry.count_firedAll_le_one`: A callback is called if
  its registration ends by a cancellation, and then once.
* `Registry.created_add_presence`: Names come in and leave in turn.
* `Registry.callbacks_called_once`: What this means for every history.
-/

namespace Switchboard

namespace Registry

variable {κ : Type}

/-! ### Histories -/

/-- Whether an action offers a callback. -/
def Action.Offers (callback : κ) : Action κ → Prop
  | .register _ _ onCancel => onCancel = some callback
  | _ => False

/-- Whether an action is to register a name. -/
def Action.registers (key : RunKey) : Action κ → Bool
  | .register _ k _ => k = key
  | _ => false

/-- Whether an action is to take a name out. -/
def Action.takesOut (key : RunKey) : Action κ → Bool
  | .cancel k => k = key
  | .finalize k => k = key
  | _ => false

/-- Some actions with what is reported about them. -/
def answers : List (Action κ) → Registry κ → List (Action κ × Bool)
  | [], _ => []
  | a :: rest, r => (a, r.answer a) :: answers rest (r.act a)

/-- How often a name is reported to come in. -/
def created (key : RunKey) (actions : List (Action κ)) (r : Registry κ) : Nat :=
  (answers actions r).countP fun (a, ok) => a.registers key && ok

/-- How often a name is reported to leave. -/
def removed (key : RunKey) (actions : List (Action κ)) (r : Registry κ) : Nat :=
  (answers actions r).countP fun (a, ok) => a.takesOut key && ok

/-! ### Registrations -/

theorem answer_register (r : Registry κ) (now : Timestamp) (key : RunKey) (onCancel : Option κ) :
    r.answer (.register now key onCancel) = !r.runs.contains key :=
  register_created ..

theorem answer_cancel (r : Registry κ) (key : RunKey) :
    r.answer (.cancel key) = r.runs.contains key := by
  rw [answer, cancel_eq]

theorem answer_finalize (r : Registry κ) (key : RunKey) :
    r.answer (.finalize key) = r.runs.contains key := by
  rw [answer, finalize_eq]

/-- A name is registered with a callback. -/
def Installed (r : Registry κ) (key : RunKey) (callback : κ) : Prop :=
  r.callback? key = some (some callback)

/-- A name was registered with a callback in a history, and nothing ended this registration
    since. -/
def InstalledSince (r : Registry κ) (actions : List (Action κ)) (key : RunKey) (callback : κ) :
    Prop :=
  ∃ first now rest, actions = first ++ .register now key (some callback) :: rest ∧
    (r.actAll first).answer (.register now key (some callback)) = true ∧ ∀ a ∈ rest, ¬a.Ends key

section

variable {c : κ}

theorem installed_act (r : Registry κ) (a : Action κ) (key : RunKey) (hoffer : ¬a.Offers c) :
    (r.act a).Installed key c ↔ r.Installed key c ∧ ¬a.Ends key := by
  -- An action that does not offer the callback can only take it out.
  rw [Installed, Installed, callback?_act]
  cases a with
  | register now k onCancel =>
      have hother : onCancel ≠ some c := hoffer
      by_cases hkey : key = k
      · simp only [← hkey, if_true, Action.Ends]
        cases r.callback? key <;> simp [hother]
      · simp [hkey, Action.Ends]
  | append k delta => simp [Action.Ends]
  | update k u => simp [Action.Ends]
  | restart k => simp [Action.Ends]
  | cancel k => by_cases hkey : key = k <;> simp [hkey, Action.Ends, eq_comm]
  | finalize k => by_cases hkey : key = k <;> simp [hkey, Action.Ends, eq_comm]
  | reset => simp [Action.Ends]

/-- A callback is installed after a step if it was before and the step does not end its
    registration, or if the step is the registration. -/
theorem installed_act_iff (r : Registry κ) (a : Action κ) (key : RunKey) :
    (r.act a).Installed key c ↔ (r.Installed key c ∧ ¬a.Ends key) ∨
      ∃ now, a = .register now key (some c) ∧ r.answer a = true := by
  -- Whether the offer is taken decides it, unless the action offers something else.
  by_cases hoffer : a.Offers c
  · cases a with
    | register now k onCancel =>
        obtain rfl : onCancel = some c := hoffer
        rw [Installed, Installed, callback?_act, answer_register, contains_eq]
        by_cases hkey : key = k
        · subst hkey
          cases r.callback? key <;> simp [Action.Ends]
        · simp [Action.Ends, hkey, Ne.symm hkey]
    | _ => exact absurd hoffer id
  · rw [installed_act r a key hoffer]
    refine (or_iff_left ?_).symm
    rintro ⟨now, rfl, -⟩
    exact hoffer rfl

/-- What is installed was installed at the start, or it was registered and its registration has not
    ended. -/
theorem installed_iff_since (r : Registry κ) (actions : List (Action κ)) (key : RunKey) :
    (r.actAll actions).Installed key c ↔
      (r.Installed key c ∧ ∀ a ∈ actions, ¬a.Ends key) ∨ r.InstalledSince actions key c := by
  induction actions generalizing r with
  | nil => simp [InstalledSince]
  | cons a rest ih =>
      rw [actAll_cons, ih, installed_act_iff, List.forall_mem_cons]
      constructor
      · rintro (⟨hinstalled | ⟨now, rfl, haccepted⟩, hrest⟩ |
          ⟨first, now, late, rfl, haccepted, hlate⟩)
        · exact Or.inl ⟨hinstalled.1, hinstalled.2, hrest⟩
        -- The first action is the registration.
        · exact Or.inr ⟨[], now, rest, rfl, haccepted, hrest⟩
        · exact Or.inr ⟨a :: first, now, late, rfl, haccepted, hlate⟩
      · rintro (⟨hinstalled, ha, hrest⟩ | ⟨first, now, late, hsplit, haccepted, hlate⟩)
        · exact Or.inl ⟨Or.inl ⟨hinstalled, ha⟩, hrest⟩
        · cases first with
          | nil =>
              rw [List.nil_append, List.cons.injEq] at hsplit
              rw [hsplit.1, hsplit.2]
              exact Or.inl ⟨Or.inr ⟨now, rfl, haccepted⟩, hlate⟩
          | cons b first =>
              rw [List.cons_append, List.cons.injEq] at hsplit
              rw [hsplit.1]
              exact Or.inr ⟨first, now, late, hsplit.2, haccepted, hlate⟩

/-- A callback that nobody offers again stays installed until its registration ends. -/
theorem installed_actAll (r : Registry κ) (actions : List (Action κ)) (key : RunKey)
    (hoffers : ∀ a ∈ actions, ¬a.Offers c) :
    (r.actAll actions).Installed key c ↔ r.Installed key c ∧ ∀ a ∈ actions, ¬a.Ends key := by
  rw [installed_iff_since]
  refine or_iff_left ?_
  rintro ⟨first, now, rest, rfl, -⟩
  exact hoffers (.register now key (some c)) (by simp) rfl

/-! ### Callbacks -/

theorem mem_fires_cancel (r : Registry κ) (key : RunKey) :
    c ∈ r.fires (.cancel key) ↔ r.Installed key c := by
  rw [fires, cancel_eq]
  simp [Installed, Option.join_eq_some_iff]

/-- An action calls one callback at most. -/
theorem length_fires (r : Registry κ) (a : Action κ) : (r.fires a).length ≤ 1 := by
  cases a with
  | cancel key =>
      rw [fires, cancel_eq]
      cases (r.callback? key).join <;> simp
  | _ => exact Nat.zero_le 1

theorem mem_fires_iff (r : Registry κ) (a : Action κ) :
    c ∈ r.fires a ↔ ∃ key, a = .cancel key ∧ r.Installed key c := by
  cases a with
  | cancel key => simp [mem_fires_cancel]
  | _ => simp [fires]

theorem mem_firedAll_iff (actions : List (Action κ)) (r : Registry κ) :
    c ∈ firedAll actions r ↔
      ∃ mid a late, actions = mid ++ a :: late ∧ c ∈ (r.actAll mid).fires a := by
  -- The induction is on the actions: the callback is called now or by one of the rest.
  induction actions generalizing r with
  | nil => simp [firedAll]
  | cons a rest ih =>
      rw [firedAll, List.mem_append, ih]
      constructor
      · rintro (hfired | ⟨mid, b, late, rfl, hfired⟩)
        · exact ⟨[], a, rest, rfl, hfired⟩
        · exact ⟨a :: mid, b, late, rfl, hfired⟩
      · rintro ⟨mid, b, late, hsplit, hfired⟩
        cases mid with
        | nil =>
            rw [List.nil_append, List.cons.injEq] at hsplit
            rw [hsplit.1]
            exact Or.inl hfired
        | cons first mid =>
            rw [List.cons_append, List.cons.injEq] at hsplit
            rw [hsplit.1]
            exact Or.inr ⟨mid, b, late, hsplit.2, hfired⟩

/-- A callback that nobody offers again is called if and only if its registration ends by a
    cancellation. -/
theorem mem_firedAll_iff_cancelled (actions : List (Action κ)) (r : Registry κ)
    (hoffers : ∀ a ∈ actions, ¬a.Offers c) :
    c ∈ firedAll actions r ↔ ∃ key mid late, r.Installed key c ∧
      actions = mid ++ .cancel key :: late ∧ ∀ a ∈ mid, ¬a.Ends key := by
  rw [mem_firedAll_iff]
  constructor
  · rintro ⟨mid, a, late, rfl, hfired⟩
    rcases (mem_fires_iff ..).mp hfired with ⟨key, rfl, hinstalled⟩
    have hmid : ∀ a ∈ mid, ¬a.Offers c := fun a ha => hoffers a (List.mem_append_left _ ha)
    rw [installed_actAll r mid key hmid] at hinstalled
    exact ⟨key, mid, late, hinstalled.1, rfl, hinstalled.2⟩
  · rintro ⟨key, mid, late, hinstalled, rfl, hends⟩
    have hmid : ∀ a ∈ mid, ¬a.Offers c := fun a ha => hoffers a (List.mem_append_left _ ha)
    exact ⟨mid, _, late, rfl, (mem_fires_iff ..).mpr
      ⟨key, rfl, (installed_actAll r mid key hmid).mpr ⟨hinstalled, hends⟩⟩⟩

/-- A callback that is installed with one name at most and that nobody offers again is called once
    at most. -/
theorem count_firedAll_le_one [DecidableEq κ] (actions : List (Action κ)) (r : Registry κ)
    (key : RunKey) (honly : ∀ k, r.Installed k c → k = key)
    (hoffers : ∀ a ∈ actions, ¬a.Offers c) : (firedAll actions r).count c ≤ 1 := by
  by_cases hmem : c ∈ firedAll actions r
  · rcases (mem_firedAll_iff_cancelled actions r hoffers).mp hmem with
      ⟨k, mid, late, hinstalled, rfl, hends⟩
    obtain rfl := honly k hinstalled
    rw [List.forall_mem_append, List.forall_mem_cons] at hoffers
    -- It was not called before its registration ended.
    have hbefore : c ∉ firedAll mid r := by
      rw [mem_firedAll_iff_cancelled mid r hoffers.1]
      rintro ⟨k', mid', late', hinstalled', rfl, -⟩
      have hk := honly k' hinstalled'
      exact hends (.cancel k') (by simp) hk
    -- And it is not installed any more afterwards.
    have hgone : c ∉ firedAll late ((r.actAll mid).act (.cancel k)) := by
      rw [mem_firedAll_iff_cancelled late _ hoffers.2.2]
      rintro ⟨k', mid', late', hinstalled', -⟩
      rw [installed_act _ _ _ hoffers.2.1, installed_actAll _ _ _ hoffers.1] at hinstalled'
      exact hinstalled'.2 (honly k' hinstalled'.1.1).symm
    have hnow : ((r.actAll mid).fires (.cancel k)).count c ≤ 1 :=
      Nat.le_trans List.count_le_length (length_fires ..)
    rw [firedAll_append, firedAll, List.count_append, List.count_append,
      List.count_eq_zero_of_not_mem hbefore, List.count_eq_zero_of_not_mem hgone]
    omega
  · rw [List.count_eq_zero_of_not_mem hmem]
    exact Nat.zero_le 1

end

/-! ### Coming and leaving -/

/-- Whether a name is registered, as a number. -/
def presence (r : Registry κ) (key : RunKey) : Nat :=
  if r.runs.contains key then 1 else 0

/-- A name that leaves was there before. -/
theorem presence_leave (r : Registry κ) (k key : RunKey) :
    r.presence key =
      (if (decide (k = key) && r.runs.contains k) = true then 1 else 0) +
        (r.leave k).presence key := by
  simp only [presence, contains_eq, callback?_leave]
  by_cases hkey : k = key
  · simp [hkey]
  · have hkey' : ¬key = k := fun h => hkey h.symm
    simp [hkey, hkey']

/-- A name that comes in was not there before. -/
theorem presence_register (r : Registry κ) (now : Timestamp) (k key : RunKey)
    (onCancel : Option κ) :
    (if (decide (k = key) && !r.runs.contains k) = true then 1 else 0) + r.presence key =
      (r.act (.register now k onCancel)).presence key := by
  simp only [presence, contains_eq, callback?_act]
  by_cases hkey : k = key
  · subst hkey
    cases r.callback? k <;> simp
  · have hkey' : ¬key = k := fun h => hkey h.symm
    simp [hkey, hkey']

/-- A step that is reported to bring a name in or to take it out does so, and every other step but
    a reset leaves it where it is. -/
theorem presence_act (r : Registry κ) (a : Action κ) (key : RunKey) (hreset : a ≠ .reset) :
    (if (a.registers key && r.answer a) = true then 1 else 0) + r.presence key =
      (if (a.takesOut key && r.answer a) = true then 1 else 0) + (r.act a).presence key := by
  -- Runs that go on stay where they are.
  have hstays : ∀ a : Action κ, (r.act a).callback? key = r.callback? key →
      0 + r.presence key = 0 + (r.act a).presence key := by
    intro a ha
    rw [presence, presence, contains_eq, contains_eq, ha]
  cases a with
  | register now k onCancel =>
      simpa [Action.registers, Action.takesOut, answer_register] using
        r.presence_register now k key onCancel
  | append k delta => exact hstays _ (callback?_act ..)
  | update k u => exact hstays _ (callback?_act ..)
  | restart k => exact hstays _ (callback?_act ..)
  | cancel k =>
      simpa [Action.registers, Action.takesOut, answer_cancel, act_cancel] using
        r.presence_leave k key
  | finalize k =>
      simpa [Action.registers, Action.takesOut, answer_finalize, act_finalize] using
        r.presence_leave k key
  | reset => exact absurd rfl hreset

/-- Names come in and leave in turn, as long as the registry does not forget them. -/
theorem created_add_presence (actions : List (Action κ)) (r : Registry κ) (key : RunKey)
    (hreset : ∀ a ∈ actions, a ≠ .reset) :
    created key actions r + r.presence key =
      removed key actions r + (r.actAll actions).presence key := by
  induction actions generalizing r with
  | nil => rfl
  | cons a rest ih =>
      rw [List.forall_mem_cons] at hreset
      have hstep := r.presence_act a key hreset.1
      have hrest := ih (r.act a) hreset.2
      simp only [created, removed, answers, List.countP_cons, actAll_cons] at hrest ⊢
      omega

/-! ### Every history -/

/-- The registration of a name ends by a cancellation, about which it is said that the name was
    registered. -/
def EndsCancelled (key : RunKey) (actions : List (Action κ)) (r : Registry κ) : Prop :=
  ∃ mid late, actions = mid ++ .cancel key :: late ∧ (∀ a ∈ mid, ¬a.Ends key) ∧
    (r.actAll mid).answer (.cancel key) = true

theorem not_installed_fresh (maxTools memory : Nat) (key : RunKey) (c : κ) :
    ¬(fresh maxTools memory).Installed key c := by
  simp [Installed, callback?, fresh]

/-- A callback is installed with the name that it is offered for, unless the name is registered
    already. -/
theorem installed_register (r : Registry κ) (now : Timestamp) (key other : RunKey) (c : κ)
    (hnew : ¬r.Installed other c) :
    (r.act (.register now key (some c))).Installed other c ↔
      other = key ∧ r.answer (.register now key (some c)) = true := by
  rw [installed_act_iff, or_iff_right fun h => hnew h.1]
  constructor
  · rintro ⟨now', hregister, haccepted⟩
    injection hregister with _ hkey _
    exact ⟨hkey.symm, haccepted⟩
  · rintro ⟨rfl, haccepted⟩
    exact ⟨now, rfl, haccepted⟩

section

variable (r : Registry κ) (first rest : List (Action κ)) (now : Timestamp) (key : RunKey) (c : κ)
  (hnew : ∀ k, ¬r.Installed k c) (hfirst : ∀ a ∈ first, ¬a.Offers c)
  (hrest : ∀ a ∈ rest, ¬a.Offers c)

include hnew hfirst

/-- A callback is not installed before it is offered. -/
theorem not_installed_before (k : RunKey) : ¬(r.actAll first).Installed k c := by
  rw [installed_actAll r first k hfirst]
  exact fun h => hnew k h.1

/-- A callback is not called before it is offered. -/
theorem not_mem_firedAll_before : c ∉ firedAll first r := by
  rw [mem_firedAll_iff_cancelled first r hfirst]
  rintro ⟨k, mid, late, hinstalled, -⟩
  exact hnew k hinstalled

include hrest

/-- A callback that is offered once is called if and only if it is accepted and its registration
    ends by a cancellation. -/
theorem mem_firedAll_offered :
    c ∈ firedAll (first ++ .register now key (some c) :: rest) r ↔
      (r.actAll first).answer (.register now key (some c)) = true ∧
        EndsCancelled key rest ((r.actAll first).act (.register now key (some c))) := by
  have hbefore := not_mem_firedAll_before r first c hnew hfirst
  have hoffer : (r.actAll first).fires (.register now key (some c)) = [] := rfl
  have hinstalled := fun k => installed_register (r.actAll first) now key k c
    (not_installed_before r first c hnew hfirst k)
  rw [firedAll_append, firedAll, hoffer, List.nil_append, List.mem_append, or_iff_right hbefore,
    mem_firedAll_iff_cancelled rest _ hrest]
  constructor
  · rintro ⟨k, mid, late, hk, rfl, hends⟩
    rcases (hinstalled k).mp hk with ⟨rfl, haccepted⟩
    refine ⟨haccepted, mid, late, rfl, hends, ?_⟩
    -- It is still installed when the cancellation comes, so that the name is registered.
    have hmid := (installed_actAll _ mid k fun a ha => hrest a (List.mem_append_left _ ha)).mpr
      ⟨hk, hends⟩
    rw [answer_cancel, contains_eq, hmid, Option.isSome_some]
  · rintro ⟨haccepted, mid, late, hsplit, hends, -⟩
    exact ⟨key, mid, late, (hinstalled key).mpr ⟨rfl, haccepted⟩, hsplit, hends⟩

theorem count_firedAll_offered [DecidableEq κ] :
    (firedAll (first ++ .register now key (some c) :: rest) r).count c ≤ 1 := by
  have hbefore := not_mem_firedAll_before r first c hnew hfirst
  have hafter := count_firedAll_le_one rest ((r.actAll first).act (.register now key (some c)))
    key (fun k hk => ((installed_register _ now key k c
      (not_installed_before r first c hnew hfirst k)).mp hk).1) hrest
  rw [firedAll_append, firedAll, List.count_append, List.count_append,
    List.count_eq_zero_of_not_mem hbefore]
  simpa [fires] using hafter

end

/-- In every history of a registry the callbacks go with the registrations. A callback that is
    offered once is called at most once, and it is called if and only if it is accepted and a
    cancellation ends this very registration: no action in between has ended it, and the
    cancellation reports that the name was registered. If the name is registered when the callback
    is offered, it is never called. No other callback is called, and nothing but a cancellation
    calls one. That the callback is offered once only matters for the counting: a cancellation
    calls one callback at most, and it is that of the registration which it ends.

    A name is reported to leave if and only if it is registered, and without a reset it came in as
    often as it left, and once more if it is registered. Apart from a reset, an action touches its
    own name only. Kept on shelves, the runs are the same and as many, and there are no shelves if
    and only if there are no runs. -/
theorem callbacks_called_once [DecidableEq κ] (maxTools memory : Nat)
    (actions : List (Action κ)) :
    let start : Registry κ := .fresh maxTools memory
    let r := start.actAll actions
    let shelves := (Shelves.empty : Shelves κ).actAll start.mostTools actions
    (∀ first now key c rest, actions = first ++ .register now key (some c) :: rest →
      (∀ a ∈ first, ¬a.Offers c) → (∀ a ∈ rest, ¬a.Offers c) →
      let before := start.actAll first
      let offer := .register now key (some c)
      (firedAll actions start).count c ≤ 1 ∧
      (c ∈ firedAll actions start ↔
        before.answer offer = true ∧ EndsCancelled key rest (before.act offer)) ∧
      (before.runs.contains key = true → c ∉ firedAll actions start)) ∧
    (∀ c ∈ firedAll actions start, ∃ a ∈ actions, a.Offers c) ∧
    (∀ a, (∀ key, a ≠ .cancel key) → r.fires a = []) ∧
    (∀ key, (r.fires (.cancel key)).length ≤ 1 ∧
      ∀ c, c ∈ r.fires (.cancel key) ↔ start.InstalledSince actions key c) ∧
    (∀ key, r.answer (.cancel key) = r.runs.contains key ∧
      r.answer (.finalize key) = r.runs.contains key) ∧
    ((∀ a ∈ actions, a ≠ .reset) → ∀ key,
      created key actions start =
        removed key actions start + if r.runs.contains key then 1 else 0) ∧
    (∀ a key, a ≠ .reset → a.key? ≠ some key →
      (r.act a).runs.get? key = r.runs.get? key) ∧
    (∀ key, shelves.get? key = r.runs.get? key) ∧ shelves.size = r.size ∧
      (shelves.isEmpty = true ↔ shelves.size = 0) := by
  intro start r shelves
  -- At the start nothing is installed, so that a callback comes in by being offered only.
  have hfresh : ∀ c k, ¬start.Installed k c := fun c k => not_installed_fresh maxTools memory k c
  refine ⟨?_, fun c hc => ?_, fun a ha => ?_, fun key => ⟨r.length_fires _, fun c => ?_⟩,
    fun key => ⟨answer_cancel r key, answer_finalize r key⟩, fun hreset key => ?_,
    fun a key => r.get?_act_other a key, ?_⟩
  -- Offered once, the callback is called at most once, and only if the registry took it.
  · rintro first now key c rest rfl hfirst hrest before offer
    have hmem := mem_firedAll_offered start first rest now key c (hfresh c) hfirst hrest
    refine ⟨count_firedAll_offered start first rest now key c (hfresh c) hfirst hrest, hmem,
      fun hregistered hcalled => ?_⟩
    have haccepted := (hmem.mp hcalled).1
    rw [answer_register, hregistered] at haccepted
    exact Bool.noConfusion haccepted
  · by_contra hnever
    refine not_mem_firedAll_before start actions c (hfresh c) (fun a ha hoffer => ?_) hc
    exact hnever ⟨a, ha, hoffer⟩
  · cases a with
    | cancel key => exact absurd rfl (ha key)
    | _ => rfl
  -- The callback that a cancel calls is the one installed, which the history tells.
  · have hstart : ¬(start.Installed key c ∧ ∀ a ∈ actions, ¬a.Ends key) :=
      fun h => hfresh c key h.1
    rw [mem_fires_cancel, installed_iff_since, or_iff_right hstart]
  -- The count follows the actions: each creation adds one and each removal takes one away.
  · have hcount := created_add_presence actions start key hreset
    rwa [show start.presence key = 0 from rfl, Nat.add_zero] at hcount
  · have hholds := Shelves.holds_actAll actions (Shelves.holds_empty (κ := κ) maxTools memory)
    have htidy := Shelves.tidy_actAll start.mostTools actions (Shelves.tidy_empty (κ := κ))
    exact ⟨hholds, Shelves.size_eq hholds, Shelves.isEmpty_iff htidy⟩

/-- A name that is registered, offered another callback, finalized and registered again. -/
def reregistered (key : RunKey) : List (Action Nat) :=
  [.register ⟨0, 0⟩ key (some 0), .register ⟨1, 0⟩ key (some 1), .finalize key,
    .register ⟨2, 0⟩ key (some 2)]

/-- A cancellation calls the callback of the second registration, and not those that were offered
    for the first one. -/
theorem reregistered_cancelled :
    let actions := reregistered ⟨"c", "i"⟩ ++ [.cancel ⟨"c", "i"⟩]
    let start : Registry Nat := .fresh 1 1
    2 ∈ firedAll actions start ∧ 1 ∉ firedAll actions start ∧ firedAll actions start = [2] := by
  refine ⟨?_, ?_, rfl⟩
  · refine ((callbacks_called_once 1 1 _).1 ((reregistered ⟨"c", "i"⟩).take 3) _ _ 2 _ rfl
      (by simp [reregistered, Action.Offers]) (by simp [Action.Offers])).2.1.mpr ⟨rfl, ?_⟩
    exact ⟨[], [], rfl, by simp, rfl⟩
  · exact ((callbacks_called_once 1 1 _).1 ((reregistered ⟨"c", "i"⟩).take 1) _ _ 1 _ rfl
      (by simp [reregistered, Action.Offers]) (by simp [Action.Offers])).2.2 rfl

end Registry

end Switchboard

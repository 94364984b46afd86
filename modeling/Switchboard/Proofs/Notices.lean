import Switchboard.Proofs.Attempts
import Switchboard.Proofs.Steps

/-!
# Messages that Tell of Reconnecting

Which messages are taken for reconnect notices, and what that means for a run.
The search for a notice tries every place of a message, and at a place it takes
as many blanks and as many digits as there are. It never has to take fewer of
them: a blank is no digit, and neither is the slash. So a message is taken for a
notice exactly if it can be cut into pieces of which the middle ones make up a
notice, however many openings without a count stand before it.

An attempt that fails with a message for good is judged by the same search. The
run goes on with another attempt if the message tells of reconnecting, as far as
attempts are left, and ends with the failure of this attempt if it does not.

## Main definitions

* `Notice.IsCount`: A row of digits of any script.
* `Notice.Follows`: What may follow the opening of a notice.
* `TellsOfReconnecting`: A message with a notice somewhere in it.

## Theorems

* `Notice.not_isDecimalDigit_of_isBlank`: No blank is a digit.
* `Notice.startsWithCount_iff`, `Notice.startsHere_iff`, `Notice.occursIn_iff`: What each part
  of the search finds.
* `isReconnectNotice_iff`: What the search finds in a message.
* `RunTask.Proceeds.failed_le`: A run never fails with an attempt before the current one.
* `RunTask.failed_iff`: When a run ends with the failure of the current attempt.
* `notices_recognized`: Notices are found wherever they stand, and runs go on after them.
-/

namespace Switchboard

namespace Notice

/-! ### Blanks and digits -/

/-- No blank is a digit. -/
theorem not_isDecimalDigit_of_isBlank {c : Char} (h : Text.isBlank c = true) :
    Text.isDecimalDigit c = false := by
  -- There are few blanks, and each of them can be looked up among the digits.
  have hcode : c.toNat ∈ [9, 10, 11, 12, 13, 0x20, 0x85, 0xA0, 0x1680, 0x2000, 0x2001, 0x2002,
      0x2003, 0x2004, 0x2005, 0x2006, 0x2007, 0x2008, 0x2009, 0x200A, 0x2028, 0x2029, 0x202F,
      0x205F, 0x3000] := by
    simp only [Text.isBlank, Bool.or_eq_true, Bool.and_eq_true, decide_eq_true_eq,
      beq_iff_eq] at h
    simp only [List.mem_cons, List.not_mem_nil, or_false]
    omega
  have hnone : ∀ n ∈ [9, 10, 11, 12, 13, 0x20, 0x85, 0xA0, 0x1680, 0x2000, 0x2001, 0x2002,
      0x2003, 0x2004, 0x2005, 0x2006, 0x2007, 0x2008, 0x2009, 0x200A, 0x2028, 0x2029, 0x202F,
      0x205F, 0x3000], (Text.digitZeros.any fun z => z ≤ n && n < z + 10) = false := by
    decide
  exact hnone _ hcode

/-- A row of one or more digits of any script. -/
structure IsCount (digits : List Char) : Prop where
  ne_nil : digits ≠ []
  digit : ∀ c ∈ digits, Text.isDecimalDigit c = true

/-! ### The parts of the search -/

theorem startsWithDigit_iff (cs : List Char) :
    startsWithDigit cs = true ↔ ∃ digits rest, IsCount digits ∧ cs = digits ++ rest := by
  constructor
  · intro h
    cases cs with
    | nil => cases h
    | cons c rest => exact ⟨[c], rest, ⟨by simp, by simpa [startsWithDigit] using h⟩, rfl⟩
  · rintro ⟨digits, rest, hcount, rfl⟩
    cases digits with
    | nil => exact absurd rfl hcount.ne_nil
    | cons c more => exact hcount.digit c List.mem_cons_self

/-- Digits are passed over as far as they go, and a slash stops them. -/
theorem dropWhile_count {digits : List Char} (h : IsCount digits) (rest : List Char) :
    (digits ++ '/' :: rest).dropWhile Text.isDecimalDigit = '/' :: rest := by
  rw [List.dropWhile_append_of_pos h.digit, List.dropWhile_cons_of_neg (by decide)]

theorem startsWithCount_iff (cs : List Char) :
    startsWithCount cs = true ↔
      ∃ first second rest, IsCount first ∧ IsCount second ∧
        cs = first ++ '/' :: second ++ rest := by
  -- The first count is the longest run of digits, as the slash that must follow is not one.
  constructor
  · intro h
    rw [startsWithCount, Bool.and_eq_true] at h
    rcases h with ⟨hfirst, hsecond⟩
    split at hsecond
    · next rest hrest =>
        rcases (startsWithDigit_iff rest).mp hsecond with ⟨second, after, hcount, rfl⟩
        refine ⟨cs.takeWhile Text.isDecimalDigit, second, after, ⟨?_, ?_⟩, hcount, ?_⟩
        · cases cs with
          | nil => cases hfirst
          | cons c more =>
              have hdigit : Text.isDecimalDigit c = true := hfirst
              rw [List.takeWhile_cons_of_pos hdigit]
              exact List.cons_ne_nil _ _
        · exact List.all_eq_true.mp List.all_takeWhile
        · rw [List.append_assoc, List.cons_append, ← hrest, List.takeWhile_append_dropWhile]
    · cases hsecond
  · rintro ⟨first, second, rest, hfirst, hsecond, rfl⟩
    rw [List.append_assoc, List.cons_append, startsWithCount, dropWhile_count hfirst,
      Bool.and_eq_true]
    exact ⟨(startsWithDigit_iff _).mpr ⟨first, _, hfirst, rfl⟩,
      (startsWithDigit_iff _).mpr ⟨second, rest, hsecond, rfl⟩⟩

/-- Whether a text starts with what may follow the opening of a notice: blanks or none, digits, a
    slash and digits. -/
def Follows (cs : List Char) : Prop :=
  ∃ blanks first second rest, (∀ c ∈ blanks, Text.isBlank c = true) ∧ IsCount first ∧
    IsCount second ∧ cs = blanks ++ (first ++ '/' :: second ++ rest)

/-- Blanks are passed over as far as they go, and a digit stops them. -/
theorem dropWhile_blanks {blanks digits : List Char}
    (hblanks : ∀ c ∈ blanks, Text.isBlank c = true) (h : IsCount digits) (rest : List Char) :
    (blanks ++ (digits ++ rest)).dropWhile Text.isBlank = digits ++ rest := by
  rw [List.dropWhile_append_of_pos hblanks]
  cases digits with
  | nil => exact absurd rfl h.ne_nil
  | cons c more =>
      have hblank : ¬Text.isBlank c = true := fun hb =>
        Bool.false_ne_true ((not_isDecimalDigit_of_isBlank hb).symm.trans
          (h.digit c List.mem_cons_self))
      rw [List.cons_append, List.dropWhile_cons_of_neg hblank]

theorem startsWithCount_blanks_iff (cs : List Char) :
    startsWithCount (cs.dropWhile Text.isBlank) = true ↔ Follows cs := by
  rw [startsWithCount_iff]
  constructor
  · rintro ⟨first, second, rest, hfirst, hsecond, hcs⟩
    refine ⟨cs.takeWhile Text.isBlank, first, second, rest,
      List.all_eq_true.mp List.all_takeWhile, hfirst, hsecond, ?_⟩
    rw [← hcs, List.takeWhile_append_dropWhile]
  · rintro ⟨blanks, first, second, rest, hblanks, hfirst, hsecond, rfl⟩
    refine ⟨first, second, rest, hfirst, hsecond, ?_⟩
    rw [List.append_assoc, dropWhile_blanks hblanks hfirst]

theorem after?_eq_some_iff (word cs rest : List Char) :
    Json.after? word cs = some rest ↔ cs = word ++ rest := by
  induction word generalizing cs with
  | nil => simp [Json.after?]
  | cons w word ih =>
      cases cs with
      | nil => simp [Json.after?]
      | cons c cs =>
          by_cases hc : w = c
          · simp [Json.after?, hc, ih]
          · simp [Json.after?, hc, Ne.symm hc]

theorem startsHere_iff (cs : List Char) :
    startsHere cs = true ↔ ∃ rest, cs = opening ++ rest ∧ Follows rest := by
  unfold startsHere
  -- The opening can be taken off in one way only, so the rest of the message is determined.
  cases hafter : Json.after? opening cs with
  | none =>
      simp only [Bool.false_eq_true, false_iff, not_exists, not_and]
      intro rest hcs
      rw [(after?_eq_some_iff opening cs rest).mpr hcs] at hafter
      cases hafter
  | some rest =>
      have hcs := (after?_eq_some_iff opening cs rest).mp hafter
      simp only [startsWithCount_blanks_iff]
      constructor
      · exact fun h => ⟨rest, hcs, h⟩
      · rintro ⟨rest', hcs', h⟩
        rwa [List.append_cancel_left (hcs.symm.trans hcs')]

/-- A notice is found wherever it starts. -/
theorem occursIn_iff (cs : List Char) :
    occursIn cs = true ↔ ∃ front rest, cs = front ++ rest ∧ startsHere rest = true := by
  -- The notice starts at some place; the scan tries the places from the left.
  constructor
  · intro h
    induction cs with
    | nil => cases h
    | cons c cs ih =>
        rw [occursIn, Bool.or_eq_true] at h
        rcases h with hhere | hlater
        · exact ⟨[], c :: cs, rfl, hhere⟩
        · rcases ih hlater with ⟨front, rest, rfl, hrest⟩
          exact ⟨c :: front, rest, rfl, hrest⟩
  · rintro ⟨front, rest, rfl, hrest⟩
    refine occursIn_append_left front rest ?_
    cases rest with
    | nil => cases hrest
    | cons c rest => rw [occursIn, hrest, Bool.true_or]

end Notice

/-! ### Messages -/

/-- Whether a message has a reconnect notice somewhere in it: the opening, blanks or none, digits,
    a slash and digits. -/
def TellsOfReconnecting (message : String) : Prop :=
  ∃ front blanks first second back : String,
    message = front ++ "Reconnecting..." ++ blanks ++ first ++ "/" ++ second ++ back ∧
    (∀ c ∈ blanks.toList, Text.isBlank c = true) ∧
    (first ≠ "" ∧ ∀ c ∈ first.toList, Text.isDecimalDigit c = true) ∧
    (second ≠ "" ∧ ∀ c ∈ second.toList, Text.isDecimalDigit c = true)

theorem isCount_toList (s : String) :
    Notice.IsCount s.toList ↔ s ≠ "" ∧ ∀ c ∈ s.toList, Text.isDecimalDigit c = true :=
  ⟨fun h => ⟨fun hs => h.ne_nil (String.toList_eq_nil_iff.mpr hs), h.digit⟩,
    fun h => ⟨fun hs => h.1 (String.toList_eq_nil_iff.mp hs), h.2⟩⟩

theorem isReconnectNotice_iff (message : String) :
    isReconnectNotice message = true ↔ TellsOfReconnecting message := by
  have hopening : "Reconnecting...".toList = Notice.opening := by decide
  have hslash : "/".toList = ['/'] := by decide
  rw [isReconnectNotice, Notice.occursIn_iff]
  constructor
  -- The parts found by the scan are lists of characters, the parts of the notice are texts.
  · rintro ⟨front, cs, hmessage, hstarts⟩
    rcases (Notice.startsHere_iff cs).mp hstarts with
      ⟨rest, rfl, blanks, first, second, back, hblanks, hfirst, hsecond, rfl⟩
    refine ⟨.ofList front, .ofList blanks, .ofList first, .ofList second, .ofList back, ?_, ?_,
      (isCount_toList _).mp ?_, (isCount_toList _).mp ?_⟩
    · rw [← String.toList_inj, hmessage]
      simp [hopening, hslash]
    all_goals rwa [String.toList_ofList]
  · rintro ⟨front, blanks, first, second, back, rfl, hblanks, hfirst, hsecond⟩
    refine ⟨front.toList, "Reconnecting...".toList ++
      (blanks.toList ++ (first.toList ++ '/' :: second.toList ++ back.toList)), ?_, ?_⟩
    · simp [hslash]
    · exact (Notice.startsHere_iff _).mpr ⟨_, by rw [hopening], blanks.toList, first.toList,
        second.toList, back.toList, hblanks, (isCount_toList first).mpr hfirst,
        (isCount_toList second).mpr hsecond, rfl⟩

/-- A message tells of reconnecting if a part of it does. -/
theorem TellsOfReconnecting.within {message : String} (h : TellsOfReconnecting message)
    (front back : String) : TellsOfReconnecting (front ++ message ++ back) := by
  rcases h with ⟨front', blanks, first, second, back', rfl, hparts⟩
  exact ⟨front ++ front', blanks, first, second, back' ++ back,
    by simp only [String.append_assoc], hparts⟩

/-! ### Runs -/

namespace RunTask

section

variable {policy : RetryPolicy} {k : Turn.Conditions} {left attempt : Nat}
  {actions : List Turn.Action} {outcome : Except ProviderError String} {t t' : RunTask}

/-- A run never fails with an attempt before the current one. -/
theorem Proceeds.failed_le (h : Proceeds policy k left attempt actions outcome t t') {n : Nat}
    {e : ProviderError} (hphase : t'.phase = .ended (.error (.failed n e))) : attempt ≤ n := by
  -- The failing attempt is the one that gives the final result, and no later one is begun.
  induction h with
  | held => cases hphase
  | ended events result final hadvance hjudge =>
      cases hphase
      cases result with
      | ok value => cases hjudge
      | error e' =>
          simp only [RetryPolicy.judge] at hjudge
          split at hjudge
          · cases hjudge
          · split at hjudge
            · cases hjudge
              exact Nat.le_refl _
            · cases hjudge
  | rests => cases hphase
  | spent =>
      cases hphase
      exact Nat.le_refl _
  | again events result e' delay hadvance hjudge hnext ih => exact Nat.le_of_succ_le (ih hphase)

/-- A failure that another attempt may help does not end the run while attempts are left. -/
theorem Proceeds.not_failed (h : Proceeds policy k left attempt actions outcome t t')
    (hcancelled : k.cancelled = false) (hmore : attempt < policy.attempts) (hleft : left ≠ 0)
    {events : List ProviderEvent} {e : ProviderError}
    (hadvance : Turn.advance k outcome t.room actions = (events, .ended (.error e)))
    (hretry : e.isRetryable = true) : t'.phase ≠ .ended (.error (.failed attempt e)) := by
  intro hphase
  cases h with
  | held events' rest hold hheld =>
      rw [hadvance] at hheld
      cases hheld
  | ended events' result final hended hjudge =>
      rw [hadvance] at hended
      cases hended
      rw [hcancelled, policy.judge_repeated _ attempt e hretry hmore] at hjudge
      cases hjudge
  | rests => cases hphase
  | spent => exact hleft rfl
  -- Whatever comes of the attempt that begins at once, it is a later one.
  | again events' result e' delay hended hjudge hnext =>
      exact Nat.not_succ_le_self attempt (hnext.failed_le hphase)

end

/-- A run that is not cancelled and has attempts left ends with the failure of the current attempt
    exactly if another attempt would not help. -/
theorem failed_iff (policy : RetryPolicy) (k : Turn.Conditions) (attempt : Nat)
    (actions : List Turn.Action) (outcome : Except ProviderError String) (t : RunTask)
    {events : List ProviderEvent} {e : ProviderError} (hcancelled : k.cancelled = false)
    (hmore : attempt < policy.attempts)
    (hadvance : Turn.advance k outcome t.room actions = (events, .ended (.error e))) :
    (proceed policy k (policy.attempts - attempt) attempt actions outcome t).phase =
        .ended (.error (.failed attempt e)) ↔ e.isRetryable = false := by
  have hproceeds := proceed_proceeds policy k (policy.attempts - attempt) attempt actions outcome t
  constructor
  · intro hphase
    cases hretry : e.isRetryable with
    | false => rfl
    | true =>
        exact absurd hphase (hproceeds.not_failed hcancelled hmore (by omega) hadvance hretry)
  · intro hretry
    unfold proceed
    simp only [hadvance, hcancelled, policy.judge_final _ attempt e (.inl hretry)]

end RunTask

/-- Exactly the messages that can be cut into some text, the opening, blanks or none, digits, a
    slash, digits and some text are taken for notices. An attempt that fails for good with a message
    is judged by that alone, by the policy as well as by the task of a run: while the run is not
    cancelled and attempts are left, it ends with this failure exactly if there is no notice in the
    message. Text before and after a notice makes no difference. -/
theorem notices_recognized :
    (∀ message, isReconnectNotice message = true ↔ TellsOfReconnecting message) ∧
    (∀ message, (ProviderError.fatal message).isRetryable = true ↔ TellsOfReconnecting message) ∧
    (∀ (policy : RetryPolicy) (attempt : Nat) (message : String), attempt < policy.attempts →
      (policy.judge (α := String) ProviderError.isRetryable false attempt
          (.error (.fatal message)) = .again (.fatal message) (policy.delayAfter attempt) ↔
        TellsOfReconnecting message)) ∧
    (∀ (policy : RetryPolicy) (k : Turn.Conditions) (attempt : Nat) (actions : List Turn.Action)
      (outcome : Except ProviderError String) (t : RunTask) (events : List ProviderEvent)
      (message : String), k.cancelled = false → attempt < policy.attempts →
      Turn.advance k outcome t.room actions = (events, .ended (.error (.fatal message))) →
      ((t.proceed policy k (policy.attempts - attempt) attempt actions outcome).phase =
          .ended (.error (.failed attempt (.fatal message))) ↔
        ¬TellsOfReconnecting message)) ∧
    (∀ message, (ProviderError.fatal message).isRetryable = true → ∀ front back,
      (ProviderError.fatal (front ++ message ++ back)).isRetryable = true) := by
  refine ⟨isReconnectNotice_iff, isReconnectNotice_iff, ?_, ?_, ?_⟩
  -- The judgement of an attempt that may be repeated turns on the pattern alone.
  · intro policy attempt message hmore
    rw [← isReconnectNotice_iff]
    constructor
    · intro hagain
      cases hnotice : isReconnectNotice message with
      | true => rfl
      | false =>
          have hretry : (ProviderError.fatal message).isRetryable = false := hnotice
          rw [policy.judge_final _ attempt _ (.inl hretry)] at hagain
          cases hagain
    · exact fun hnotice => policy.judge_repeated _ attempt _ hnotice hmore
  · intro policy k attempt actions outcome t events message hcancelled hmore hadvance
    rw [RunTask.failed_iff policy k attempt actions outcome t hcancelled hmore hadvance,
      ← isReconnectNotice_iff, Bool.not_eq_true]
    rfl
  · intro message hmessage front back
    exact (isReconnectNotice_iff _).mpr (((isReconnectNotice_iff message).mp hmessage).within ..)

/-- A message in which an opening without a count stands before the notice, and in which the digits
    and the blank are not those of ASCII. -/
def stammer : String :=
  "upstream: Reconnecting...Reconnecting... 1/ Reconnecting...\u00a0\u0662/\u0665, please wait"

theorem stammer_recognized :
    isReconnectNotice stammer = true ∧ 1 < RetryPolicy.standard.attempts ∧
    ∀ t : RunTask,
      (t.proceed .standard ⟨0, false, false⟩ (RetryPolicy.standard.attempts - 1) 1 []
        (.error (.fatal stammer))).phase ≠ .ended (.error (.failed 1 (.fatal stammer))) := by
  have htells : TellsOfReconnecting stammer :=
    ⟨"upstream: Reconnecting...Reconnecting... 1/ ", "\u00a0", "\u0662", "\u0665",
      ", please wait", by decide, List.all_eq_true.mp (by decide),
      ⟨by decide, List.all_eq_true.mp (by decide)⟩, ⟨by decide, List.all_eq_true.mp (by decide)⟩⟩
  have hmore : 1 < RetryPolicy.standard.attempts := by decide
  refine ⟨(notices_recognized.1 stammer).mpr htells, hmore, fun t hphase => ?_⟩
  exact (notices_recognized.2.2.2.1 .standard ⟨0, false, false⟩ 1 [] _ t [] stammer rfl hmore
    rfl).mp hphase htells

end Switchboard

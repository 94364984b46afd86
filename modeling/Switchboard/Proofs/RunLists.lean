import Switchboard.Proofs.Json.Canonical
import Switchboard.Proofs.Json.Counts
import Switchboard.Proofs.Registry.Listing
import Switchboard.Tool.Runs

/-!
# Lists of Runs

What the tool `runs_list` answers. Its arguments name a conversation and a
limit, both leniently: the conversation may go by one of two names and come as a
number, the limit may come as any kind of number or as text. What the arguments
say is told here by relations, without the order in which the tool looks at
them, and the answer is told by the listing of the registry, without sorting.

The conversation is read first, so that the complaint about an argument that is
no id hides the one about the limit. A limit is a word when it is used. A value
beyond all words is cut off there, which cannot be told from the answer as long
as the runs can be counted by a word.

## Main definitions

* `Arguments.SaysId`: What an argument says as an id.
* `RunTools.Restricts`, `RunTools.Limits`: The conversation and the limit that arguments ask for.
* `RunTools.cut`: A list up to a limit.
* `RunTools.shown`: The answer that shows some runs.
* `Arguments.badId`, `RunTools.badLimit`: The complaints about an id and about a limit.
* `RunTools.overlapping`, `RunTools.busy`: A state with runs of two conversations.

## Theorems

* `Arguments.text?_ok_iff`, `RunTools.conversation?_ok_iff`, `RunTools.limit_ok_iff`: The
  readers read what the arguments say.
* `RunTools.list_ok_iff`: When a list is made, and which.
* `RunTools.list_exact`: The answer is the right part of the listing, and a limit is refused
  exactly if it does not count.
-/

namespace Switchboard

open Rpc (ToolError)

/-! ### Ids -/

namespace Arguments

/-- What an argument says as an id. It says nothing if it is missing, null or blank. -/
inductive SaysId (args : Arguments) (name : String) : Option String → Prop where
  | absent (h : args.get? name = none) : SaysId args name none
  | null (h : args.get? name = some .null) : SaysId args name none
  | blank {s : String} (h : args.get? name = some (.str s))
      (hblank : ∀ c ∈ s.toList, Text.isBlank c) : SaysId args name none
  | text {s : String} (h : args.get? name = some (.str s))
      (hblank : ∃ c ∈ s.toList, Text.isBlank c = false) : SaysId args name (some (Text.trim s))
  | number {n : Json.Number} (h : args.get? name = some (.num n)) : SaysId args name (some n.text)

/-- The complaint about an argument that is no id. -/
def badId (name : String) : ToolError :=
  complaint name (name ++ " must be a string")

theorem text?_ok_iff (args : Arguments) (name : String) (id : Option String) :
    args.text? name = .ok id ↔ args.SaysId name id := by
  -- One case of the relation for each form of the member; a blank text counts as no text.
  constructor
  · intro h
    rw [text?] at h
    split at h
    case h_1 hget => exact Except.ok.inj h ▸ .absent hget
    case h_2 hget => exact Except.ok.inj h ▸ .null hget
    case h_3 s hget =>
      split at h
      case isTrue hblank =>
        exact Except.ok.inj h ▸ .blank hget (List.all_eq_true.mp hblank)
      case isFalse hblank =>
        have hsome : ∃ c ∈ s.toList, Text.isBlank c = false := by
          simpa [Text.allBlank] using hblank
        exact Except.ok.inj h ▸ .text hget hsome
    case h_4 n hget => exact Except.ok.inj h ▸ .number hget
    case h_5 => cases h
  · intro h
    cases h with
    | absent hget => rw [text?, hget]
    | null hget => rw [text?, hget]
    | @blank s hget hblank =>
        have hall : Text.allBlank s = true := List.all_eq_true.mpr hblank
        simp only [text?, hget, hall, if_true]
    | @text s hget hblank =>
        have hall : Text.allBlank s = false := List.all_eq_false.mpr (by simpa using hblank)
        simp only [text?, hget, hall, Bool.false_eq_true, if_false]
    | number hget => rw [text?, hget]

theorem text?_error (args : Arguments) (name : String) (e : ToolError)
    (h : args.text? name = .error e) : e = badId name := by
  rw [text?] at h
  split at h
  case h_5 => exact (Except.error.inj h).symm
  all_goals cases h

end Arguments

namespace RunTools

/-! ### The conversation and the limit -/

/-- The conversation that arguments ask for, if they name one. Of its two names the second one
    counts only if the first one says nothing. -/
inductive Restricts (args : Arguments) : Option String → Prop where
  | own {id : String} (h : args.SaysId "conversationId" (some id)) : Restricts args (some id)
  | other {id : Option String} (h : args.SaysId "conversationId" none)
      (hother : args.SaysId "conversation_id" id) : Restricts args id

theorem conversation?_ok_iff (args : Arguments) (conversation : Option String) :
    conversation? args = .ok conversation ↔ Restricts args conversation := by
  -- The second name is looked at only if the first gives nothing.
  have hfirst := args.text?_ok_iff "conversationId"
  have hsecond := args.text?_ok_iff "conversation_id"
  simp only [conversation?, ChatTools.conversationNames, Arguments.firstText?]
  constructor
  · intro h
    split at h
    case h_1 => cases h
    case h_2 id hid => exact Except.ok.inj h ▸ .own ((hfirst _).mp hid)
    case h_3 hid =>
      split at h
      case h_1 => cases h
      case h_2 id' hid' => exact Except.ok.inj h ▸ .other ((hfirst _).mp hid) ((hsecond _).mp hid')
      case h_3 hid' => exact Except.ok.inj h ▸ .other ((hfirst _).mp hid) ((hsecond _).mp hid')
  · intro h
    cases h with
    | own hid => rw [(hfirst _).mpr hid]
    | other hid hother =>
        rw [(hfirst _).mpr hid, (hsecond _).mpr hother]
        cases conversation <;> rfl

theorem conversation?_error (args : Arguments) (e : ToolError)
    (h : conversation? args = .error e) :
    e = Arguments.badId "conversationId" ∨ e = Arguments.badId "conversation_id" := by
  simp only [conversation?, ChatTools.conversationNames, Arguments.firstText?] at h
  split at h
  case h_1 e' hid => exact Or.inl (Except.error.inj h ▸ args.text?_error _ e' hid)
  case h_2 => cases h
  case h_3 =>
    split at h
    case h_1 e' hid => exact Or.inr (Except.error.inj h ▸ args.text?_error _ e' hid)
    all_goals cases h

/-- The limit that arguments ask for, if they name one. -/
inductive Limits (args : Arguments) : Option ℕ → Prop where
  | absent (h : args.get? "limit" = none) : Limits args none
  | counts {j : Json} {total : ℕ} (h : args.get? "limit" = some j) (hcounts : j.Counts total) :
      Limits args (some total)

/-- The complaint about a limit. -/
def badLimit : ToolError :=
  Arguments.complaint "limit" "limit must be a non-negative integer"

theorem limit_ok_iff (args : Arguments) (limit : Option ℕ) :
    args.count? "limit" = .ok limit ↔
      ∃ total, Limits args total ∧ limit = total.map (min · (Json.wordBound - 1)) := by
  -- The limit is absent, or it counts something.
  constructor
  · intro h
    rw [Arguments.count?] at h
    split at h
    case h_1 hget => exact ⟨none, .absent hget, (Except.ok.inj h).symm⟩
    case h_2 j hget =>
      split at h
      case h_1 c hc =>
        obtain ⟨total, hcounts, rfl⟩ := (Arguments.countOf?_eq_some_iff j c).mp hc
        exact ⟨some total, .counts hget hcounts, (Except.ok.inj h).symm⟩
      case h_2 => cases h
  · rintro ⟨total, hlimits, rfl⟩
    cases hlimits with
    | absent hget => rw [Arguments.count?, hget, Option.map_none]
    | @counts j total hget hcounts =>
        have hc := (Arguments.countOf?_eq_some_iff j _).mpr ⟨total, hcounts, rfl⟩
        simp only [Arguments.count?, hget, hc, Option.map_some]

theorem limit_error_iff (args : Arguments) (e : ToolError) :
    args.count? "limit" = .error e ↔
      e = badLimit ∧ ∃ j, args.get? "limit" = some j ∧ ∀ total, ¬j.Counts total := by
  -- A limit is complained about exactly if it is there and counts nothing.
  constructor
  · intro h
    rw [Arguments.count?] at h
    split at h
    case h_1 => cases h
    case h_2 j hget =>
      split at h
      case h_1 => cases h
      case h_2 hc =>
        refine ⟨(Except.error.inj h).symm, j, hget, fun total hcounts => ?_⟩
        rw [(Arguments.countOf?_eq_some_iff j _).mpr ⟨total, hcounts, rfl⟩] at hc
        cases hc
  · rintro ⟨rfl, j, hget, hnone⟩
    have hc : Arguments.countOf? j = none := by
      cases hc : Arguments.countOf? j with
      | none => rfl
      | some c =>
          obtain ⟨total, hcounts, -⟩ := (Arguments.countOf?_eq_some_iff j c).mp hc
          exact (hnone total hcounts).elim
    simp only [Arguments.count?, hget, hc]
    rfl

/-! ### The answer -/

/-- The first runs of a list, as many as a limit allows. -/
def cut (limit : Option ℕ) (runs : List Snapshot) : List Snapshot :=
  match limit with
  | some total => runs.take (min total runs.length)
  | none => runs

/-- The answer that shows some runs. -/
def shown (runs : List Snapshot) : Json :=
  .obj [("runs", .arr (runs.map entry))]

theorem entry_canonical (run : Snapshot) : (entry run).canonical = entry run := by
  have hnames : ["conversationId", "inflightId", "startedAt", "toolCount"].Pairwise (· < ·) := by
    decide
  refine Json.canonical_obj (List.pairwise_map.mp hnames) fun m hm => ?_
  · simp only [List.mem_cons, List.not_mem_nil, or_false] at hm
    rcases hm with rfl | rfl | rfl | rfl
    · exact Json.str_canonical _
    · exact Json.str_canonical _
    · exact Json.str_canonical _
    · exact Json.ofNat_canonical _

theorem shown_canonical (runs : List Snapshot) : (shown runs).canonical = shown runs := by
  refine Json.canonical_obj (List.pairwise_singleton ..) fun m hm => ?_
  rw [List.mem_singleton.mp hm]
  refine Json.canonical_arr fun item hitem => ?_
  obtain ⟨run, -, rfl⟩ := List.mem_map.mp hitem
  exact entry_canonical run

/-- A limit that is cut off at the largest word is no other limit for runs that a word counts. -/
theorem select_eq_cut {runs : List Snapshot} (hruns : runs.length < Json.wordBound)
    (conversation : Option String) (limit : Option ℕ) :
    select runs conversation (limit.map (min · (Json.wordBound - 1))) =
      cut limit (runs.filter fun run => conversation.all (run.key.conversation = ·)) := by
  cases limit with
  | none => rfl
  | some total =>
      have hchosen := List.length_filter_le
        (fun run : Snapshot => conversation.all (run.key.conversation = ·)) runs
      simp only [select, cut, Option.map_some]
      generalize runs.filter _ = chosen at hchosen ⊢
      rw [List.take_eq_take_iff]
      omega

theorem list_ok (args : Arguments) (s : Coordinator) (result : Json) :
    list args s = .ok result ↔ ∃ conversation limit, conversation? args = .ok conversation ∧
      args.count? "limit" = .ok limit ∧
      result = shown (select s.registry.active conversation limit) := by
  rw [list]
  cases conversation? args with
  | error e => simp [bind, Except.bind]
  | ok conversation =>
      cases args.count? "limit" with
      | error e => simp [bind, Except.bind]
      | ok limit => simp [bind, Except.bind, shown, eq_comm]

theorem call_list {arguments : Json} {args : Arguments} (h : Arguments.read arguments = .ok args)
    (s : Coordinator) : toolbox.call "runs_list" arguments s = (list args s, s) := by
  have hcall : toolbox.call "runs_list" arguments s = ((list args s).map Json.canonical, s) := by
    simp only [toolbox, call, h, bind, Except.bind, if_true]
  rw [hcall]
  -- An answer is in canonical form as it is made.
  cases hlist : list args s with
  | error e => rfl
  | ok result =>
      obtain ⟨_, _, -, -, rfl⟩ := (list_ok args s result).mp hlist
      rw [Except.map, shown_canonical]

theorem list_error (args : Arguments) (s : Coordinator) (e : ToolError) :
    list args s = .error e ↔ conversation? args = .error e ∨
      ∃ conversation, conversation? args = .ok conversation ∧ args.count? "limit" = .error e := by
  rw [list]
  cases conversation? args with
  | error e' => simp [bind, Except.bind]
  | ok conversation =>
      cases args.count? "limit" with
      | error e' => simp [bind, Except.bind]
      | ok limit => simp [bind, Except.bind]

/-- When a list is made, and which. -/
theorem list_ok_iff {s : Coordinator} (hapart : s.registry.times.Nodup)
    (hsize : s.registry.size < Json.wordBound) (args : Arguments) (result : Json) :
    list args s = .ok result ↔ ∃ conversation limit runs, Restricts args conversation ∧
      Limits args limit ∧ s.registry.Listing conversation runs ∧
      result = shown (cut limit runs) := by
  have hactive : s.registry.active.length < Json.wordBound := by
    simpa [Registry.active, Registry.snapshots, Registry.size, Table.size] using hsize
  have hlisting := Registry.active_listing hapart
  rw [list_ok]
  constructor
  -- What the tool reads and cuts is what the relations say, and the listing is the only one there
  -- is.
  · rintro ⟨conversation, limit, hconversation, hlimit, rfl⟩
    obtain ⟨total, htotal, rfl⟩ := (limit_ok_iff args limit).mp hlimit
    exact ⟨conversation, total, _, (conversation?_ok_iff ..).mp hconversation, htotal,
      hlisting conversation, by rw [select_eq_cut hactive]⟩
  · rintro ⟨conversation, total, runs, hconversation, htotal, hruns, rfl⟩
    refine ⟨conversation, _, (conversation?_ok_iff ..).mpr hconversation,
      (limit_ok_iff args _).mpr ⟨total, htotal, rfl⟩, ?_⟩
    rw [select_eq_cut hactive, (hlisting conversation).unique hruns]

theorem list_badLimit_iff (args : Arguments) (s : Coordinator) :
    list args s = .error badLimit ↔ (∃ conversation, Restricts args conversation) ∧
      ∃ j, args.get? "limit" = some j ∧ ∀ total, ¬j.Counts total := by
  rw [list_error]
  simp only [conversation?_ok_iff, limit_error_iff, true_and, exists_and_right]
  refine or_iff_right fun h => ?_
  -- The complaint about an id names another argument.
  rcases conversation?_error args _ h with h | h <;>
    simp [badLimit, Arguments.badId, Arguments.complaint] at h

/-- What comes back when runs are asked for, in a state whose registry was made by actions that
    never start two runs at the same time and has no more runs than a word can count. The tool
    changes nothing. It answers if the arguments name no conversation or one, and no limit or one
    that counts; the answer shows the listing of the registry, restricted to the conversation and
    cut after as many runs as the limit says, or after all of them. The limit is complained about
    exactly if it is there and does not count, and a call with such a limit is refused in any
    case. -/
theorem list_exact (maxTools memory : ℕ) (actions : List (Registry.Action Callback))
    (s : Coordinator) (hregistry : s.registry = (Registry.fresh maxTools memory).actAll actions)
    (hapart : (Registry.startTimes actions (Registry.fresh maxTools memory)).Nodup)
    (hsize : s.registry.size < Json.wordBound) (arguments : Json) (args : Arguments)
    (hargs : Arguments.read arguments = .ok args) :
    (∀ result after, toolbox.call "runs_list" arguments s = (.ok result, after) ↔
      after = s ∧ ∃ conversation limit runs, Restricts args conversation ∧ Limits args limit ∧
        s.registry.Listing conversation runs ∧ result = shown (cut limit runs)) ∧
    (∀ conversation, ∃ runs, s.registry.Listing conversation runs) ∧
    (∀ after, toolbox.call "runs_list" arguments s = (.error badLimit, after) ↔
      after = s ∧ (∃ conversation, Restricts args conversation) ∧
        ∃ j, args.get? "limit" = some j ∧ ∀ total, ¬j.Counts total) ∧
    ∀ j, args.get? "limit" = some j → (∀ total, ¬j.Counts total) →
      ∃ message details,
        toolbox.call "runs_list" arguments s = (.error (.invalidParams message details), s) := by
  have htimes : s.registry.times.Nodup := by
    have hsub := Registry.times_actAll actions (Registry.fresh maxTools memory)
    rw [← hregistry] at hsub
    exact hsub.nodup hapart
  rw [call_list hargs]
  simp only [Prod.mk.injEq]
  refine ⟨fun result after => ?_, fun conversation => ⟨_, Registry.active_listing htimes _⟩,
    fun after => ?_, fun j hget hnone => ?_⟩
  · rw [list_ok_iff htimes hsize, and_comm, eq_comm (a := s)]
  · rw [list_badLimit_iff, and_comm, eq_comm (a := s)]
  · -- the conversation is complained about before the limit is
    cases hconversation : conversation? args with
    | error e =>
        have hlist := (list_error args s e).mpr (Or.inl hconversation)
        rcases conversation?_error args e hconversation with rfl | rfl
        · exact ⟨_, _, hlist, trivial⟩
        · exact ⟨_, _, hlist, trivial⟩
    | ok conversation =>
        have hread := (conversation?_ok_iff ..).mp hconversation
        exact ⟨_, _, (list_badLimit_iff args s).mpr ⟨⟨_, hread⟩, j, hget, hnone⟩, trivial⟩

/-! ### A state with runs of two conversations -/

/-- Two runs of one conversation, the later one registered first, and one of another. -/
def overlapping : List (Registry.Action Callback) :=
  [.register ⟨30, 0⟩ ⟨"b", "late"⟩ none, .register ⟨10, 0⟩ ⟨"b", "early"⟩ none,
   .register ⟨20, 0⟩ ⟨"a", "other"⟩ none]

/-- A state in which they are registered. -/
def busy : Coordinator :=
  { Coordinator.ofConfig .standard none with
    registry := (Registry.fresh 50 256).actAll overlapping }

/-- A floating point number that is whole and beyond all words. -/
def beyondWords : Binary64 :=
  ⟨false, 1123 * Nat.pow 2 52, by decide⟩

/-- The runs of the conversation with two of them, as they are listed. -/
def bothRuns : List Snapshot :=
  [⟨⟨"b", "early"⟩, ⟨10, 0⟩, "", []⟩, ⟨⟨"b", "late"⟩, ⟨30, 0⟩, "", []⟩]

theorem bothRuns_listing : busy.registry.Listing (some "b") bothRuns where
  mem run := by
    have hsnapshots : busy.registry.snapshots =
        [⟨⟨"b", "late"⟩, ⟨30, 0⟩, "", []⟩, ⟨⟨"b", "early"⟩, ⟨10, 0⟩, "", []⟩,
          ⟨⟨"a", "other"⟩, ⟨20, 0⟩, "", []⟩] := rfl
    rw [← Registry.mem_snapshots_iff, hsnapshots, bothRuns]
    simp only [List.mem_cons, List.not_mem_nil, or_false, Option.some.injEq, forall_eq']
    constructor
    · rintro (rfl | rfl) <;> simp
    · rintro ⟨rfl | rfl | rfl, hb⟩
      · exact Or.inr rfl
      · exact Or.inl rfl
      · exact absurd hb (by decide)
  nodup := List.Nodup.of_map (·.startedAt) (by decide)
  ordered := List.pairwise_pair.mpr (Or.inr ⟨rfl, by decide⟩)

theorem beyondWords_value : beyondWords.value = (Nat.pow 2 100 : ℕ) := by
  have hwhole : beyondWords.integer? = some (Nat.pow 2 100 : ℕ) := by decide +kernel
  exact (beyondWords.integer?_eq_some_iff _).mp hwhole

/-- The runs of a conversation come in the order of their times, and a limit beyond all words
    leaves them all. A negative limit is refused. -/
theorem busy_list_exact :
    toolbox.call "runs_list"
        (.obj [("conversationId", .null), ("conversation_id", .str " b "),
          ("limit", .num (.double beyondWords))]) busy = (.ok (shown bothRuns), busy) ∧
    toolbox.call "runs_list" (.obj [("limit", .num (.below 0))]) busy =
      (.error badLimit, busy) := by
  have hexact := list_exact 50 256 overlapping busy rfl (by decide) (by decide)
  constructor
  · have hcounts : Json.Counts (.num (.double beyondWords)) (Nat.pow 2 100) :=
      .number beyondWords_value
    refine ((hexact _ ⟨_⟩ rfl).1 _ _).mpr ⟨rfl, some "b", some (Nat.pow 2 100), bothRuns, ?_,
      .counts rfl hcounts, bothRuns_listing, rfl⟩
    have htrim : Text.trim " b " = "b" := by decide +kernel
    exact .other (.null rfl) (htrim ▸ .text rfl ⟨'b', by decide, by decide⟩)
  · refine ((hexact _ ⟨_⟩ rfl).2.2.1 _).mpr ⟨rfl, ⟨none, .other (.absent rfl) (.absent rfl)⟩,
      .num (.below 0), rfl, fun total hcounts => ?_⟩
    have hread := (Arguments.countOf?_eq_some_iff _ _).mpr ⟨total, hcounts, rfl⟩
    cases hread

end RunTools

end Switchboard

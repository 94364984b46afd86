import Mathlib.Tactic.SplitIfs
import Switchboard.Connection
import Switchboard.Proofs.Lifespan
import Switchboard.Proofs.Text.Tidy
import Switchboard.Server.Http

/-!
# Surfaces

What clients can do to the coordinator, and with which names. A request over
HTTP, a call of a tool and a text on a connection each come down to one
operation at most, so a course of what clients send is a course of moves. But
it is not any course: the tools trim the ids that they are given and take a
blank one for none, and an id that nobody chose is tidy.

Conversations are made by a tool and nowhere else. So every conversation has a
tidy id, and every run is on such a conversation. Runs are also started by a
request that takes its ids as they are. A run whose id is not tidy can only
have come from there, with the id that the request gave it.

## Main definitions

* `Coordinator.Move.IsTidy`: A move that makes conversations and runs under tidy ids.
* `Coordinator.StaysOrMoves`: A state is another one still, or follows on it by such a move.
* `Http.Request.Starts`: A request that is posted to start a run.
* `Coordinator.Event`: Something that a client sends, or that happens without clients.
* `Coordinator.serve`, `Coordinator.serveAll`: The state after an event and after some events.
* `Coordinator.AllTidy`: The ids of all conversations are tidy.

## Theorems

* `Arguments.firstText?_tidy`: An id that a tool is given is tidy when it is used.
* `ChatTools.call_perform`, `Connection.answer_perform`, `Http.handle_perform`: A call, a text and
  a request come down to one move at most.
* `Coordinator.listed_perform`: Conversations come into being only when they are created.
* `Coordinator.allTidy_serveAll`: Every conversation has a tidy id.
* `Coordinator.registered_origin`: Where a run with an untidy id comes from.
-/

namespace Switchboard

/-! ### Ids that tools are given -/

namespace Arguments

theorem text?_tidy (args : Arguments) (name s : String) (h : args.text? name = .ok (some s)) :
    Text.IsTidy s := by
  unfold text? at h
  split at h
  · cases h
  · cases h
  -- A text is trimmed, and refused if nothing is left of it.
  · next raw hget =>
      split at h
      · cases h
      · next hblank =>
          cases h
          exact Text.trim_tidy raw (Bool.eq_false_iff.mpr hblank)
  -- A number is written without blanks.
  · next n hget =>
      cases h
      exact n.text_tidy
  · cases h

theorem firstText?_tidy (args : Arguments) (names : List String) (s : String)
    (h : args.firstText? names = .ok (some s)) : Text.IsTidy s := by
  induction names with
  | nil => cases h
  | cons name rest ih =>
      rw [firstText?] at h
      split at h
      · cases h
      · next found hfound =>
          cases h
          exact args.text?_tidy name s hfound
      · exact ih h

end Arguments

/-- An id that was read, or else one that is tidy, is tidy. -/
theorem Text.getD_tidy {id : Option String} {other : String}
    (h : ∀ s, id = some s → Text.IsTidy s) (hother : Text.IsTidy other) :
    Text.IsTidy (id.getD other) := by
  cases id with
  | none => exact hother
  | some s => exact h s rfl

/-! ### One move at most -/

/-- Whether a move makes conversations and runs under tidy ids only. -/
def Coordinator.Move.IsTidy : Coordinator.Move → Prop
  | .create occasion id _ => Text.IsTidy (id.getD occasion.freshId)
  | .start occasion _ run _ => Text.IsTidy (run.getD occasion.freshId)
  | _ => True

/-- Whether a state is another one still or follows on it by a tidy move. -/
def Coordinator.StaysOrMoves (s s' : Coordinator) : Prop :=
  s' = s ∨ ∃ m : Coordinator.Move, m.IsTidy ∧ s' = s.perform m

namespace ChatTools

variable (occasion : Occasion) (hfresh : Text.IsTidy occasion.freshId) (s : Coordinator)

include hfresh

theorem create_perform (args : Arguments) : s.StaysOrMoves (create occasion args s).2 := by
  unfold create
  cases htitle : args.text? "title" with
  | error e => exact Or.inl rfl
  | ok title =>
      cases hid : args.firstText? ("conversationId" :: conversationNames) with
      | error e => exact Or.inl rfl
      | ok id =>
          refine Or.inr ⟨.create occasion id (title.getD usualTitle), ?_, rfl⟩
          exact Text.getD_tidy (fun s hs => args.firstText?_tidy _ s (hs ▸ hid)) hfresh

theorem start_perform (args : Arguments) : s.StaysOrMoves (start occasion args s).2 := by
  unfold start
  cases hconversation : conversationOf args with
  | error e => exact Or.inl rfl
  | ok conversation =>
      cases hprompt : args.requiredText "prompt" ["message"] with
      | error e => exact Or.inl rfl
      | ok prompt =>
          cases hrun : args.firstText? ("inflightId" :: runNames) with
          | error e => exact Or.inl rfl
          | ok run =>
              -- A run that the caller does not name goes by the id that is not used yet.
              refine Or.inr ⟨.start occasion conversation run prompt, ?_, ?_⟩
              · exact Text.getD_tidy (fun s hs => args.firstText?_tidy _ s (hs ▸ hrun)) hfresh
              · simp only [withArguments, bind, Except.bind, Coordinator.perform]
                split <;> next h => exact (congrArg Prod.snd h).symm

omit hfresh

theorem archive_perform (args : Arguments) : s.StaysOrMoves (archive occasion args s).2 := by
  unfold archive withArguments
  split
  · exact Or.inl rfl
  · next id hid =>
      refine Or.inr ⟨.archive occasion.now id, trivial, ?_⟩
      simp only [Coordinator.perform]
      split <;> next h => exact (congrArg Prod.snd h).symm

theorem delete_perform (args : Arguments) : s.StaysOrMoves (delete args s).2 := by
  unfold delete withArguments
  split
  · exact Or.inl rfl
  · next id hid =>
      refine Or.inr ⟨.delete id, trivial, ?_⟩
      simp only [Coordinator.perform]
      split <;> next h => exact (congrArg Prod.snd h).symm

theorem cancel_perform (args : Arguments) : s.StaysOrMoves (cancel occasion args s).2 := by
  unfold cancel withArguments
  split
  · exact Or.inl rfl
  · next key hkey => exact Or.inr ⟨.cancel occasion.now key, trivial, rfl⟩

include hfresh

/-- A call of a tool comes down to one move at most, and the move is tidy. -/
theorem call_perform (tool : String) (arguments : Json) :
    s.StaysOrMoves (call occasion tool arguments s).2 := by
  unfold call withArguments
  split
  · exact Or.inl rfl
  · next args hargs =>
      simp only
      split_ifs
      · exact create_perform occasion hfresh s args
      · exact archive_perform occasion s args
      · exact delete_perform s args
      · exact start_perform occasion hfresh s args
      · exact cancel_perform occasion s args
      -- Asking for the status of a run moves nothing.
      · refine Or.inl ?_
        simp only [status, withArguments]
        split <;> rfl
      · exact Or.inl rfl

end ChatTools

/-- What a body does is what the call in it does, if there is one. -/
theorem Rpc.Toolbox.handleText_state {σ : Type} (box : Rpc.Toolbox σ) (body : List Char) (s : σ) :
    (box.handleText body s).2 = s ∨
      ∃ tool arguments, (box.handleText body s).2 = (box.call tool arguments s).2 := by
  unfold handleText
  split
  · exact Or.inl rfl
  · split
    · exact Or.inl rfl
    · next request hrequest =>
        simp only [handle, perform]
        repeat' split
        -- Of all methods only the one that calls a tool reaches the state.
        any_goals exact Or.inl rfl
        simp only [callTool]
        split
        · exact Or.inl rfl
        · next tool arguments hparams =>
            refine Or.inr ⟨tool, arguments, ?_⟩
            split <;> next h => exact (congrArg Prod.snd h).symm

/-- A text on a connection comes down to one move at most. -/
theorem Connection.answer_perform (id : Nat) (now : Timestamp) (text : String) (s : Coordinator) :
    s.StaysOrMoves (answer id now text s).2 := by
  unfold answer
  split
  · exact Or.inl rfl
  · next message hmessage =>
      right
      unfold perform
      split
      -- Every request that a message can be is one move.
      · exact ⟨.followSidebar id, trivial, rfl⟩
      · next conversation hrequest => exact ⟨.follow id conversation, trivial, rfl⟩
      · next key hrequest =>
          refine ⟨.cancel now key, trivial, ?_⟩
          simp only [Coordinator.perform]
          split <;> next h => exact (congrArg Prod.snd h).symm

namespace Http

/-- Whether a request is posted to start a run, and what its body asks for. -/
structure Request.Starts (request : Request) (body : StartBody) : Prop where
  posted : request.method = "POST"
  path : request.path = "/chat/start"
  body : readBody StartBody.read request = .ok body

/-- A request comes down to one move at most. The move is tidy, or else it is the start that
    the body asks for. -/
theorem handle_perform (occasion : Occasion) (hfresh : Text.IsTidy occasion.freshId)
    (request : Request) (s : Coordinator) :
    (handle occasion request s).2 = s ∨
      ∃ m : Coordinator.Move, (handle occasion request s).2 = s.perform m ∧
        (m.IsTidy ∨ ∃ body, request.Starts body ∧
          m = .start occasion body.conversation body.run body.prompt) := by
  -- A toolbox is asked for one call at most, and does nothing to the state besides.
  have hbox : ∀ box : Rpc.Toolbox Coordinator, (callToolbox box request s).2 = s ∨
      ∃ tool arguments, (callToolbox box request s).2 = (box.call tool arguments s).2 := by
    intro box
    have hstate := box.handleText_state request.body s
    unfold callToolbox
    split <;> next h => rwa [h] at hstate
  unfold handle
  -- The health of the server.
  split
  · left
    repeat' split
    all_goals rfl
  -- A connection that is opened in another way.
  split
  · left
    split <;> rfl
  -- A run that is to be started, which is named as the body says.
  split
  · next hpath =>
      unfold posted
      split
      · next hmethod =>
          unfold startRun
          split
          · exact Or.inl rfl
          · next body hbody =>
              exact Or.inr ⟨.start occasion body.conversation body.run body.prompt, rfl,
                Or.inr ⟨body, ⟨hmethod, hpath, hbody⟩, rfl⟩⟩
      · exact Or.inl rfl
  -- A run that is to be cancelled.
  split
  · unfold posted
    split
    · unfold cancelRun
      split
      · exact Or.inl rfl
      · next key hkey =>
          refine Or.inr ⟨.cancel occasion.now key, ?_, Or.inl trivial⟩
          simp only [cancelKey, Coordinator.perform]
          split <;> rfl
    · exact Or.inl rfl
  -- The tools for conversations and runs, and after them the tools that only look at runs.
  split
  · unfold posted
    split
    · rcases hbox (ChatTools.toolbox occasion) with h | ⟨tool, arguments, h⟩
      · exact Or.inl h
      · rcases ChatTools.call_perform occasion hfresh s tool arguments with hs | ⟨m, htidy, hs⟩
        · exact Or.inl (h.trans hs)
        · exact Or.inr ⟨m, h.trans hs, Or.inl htidy⟩
    · exact Or.inl rfl
  split
  · left
    unfold posted
    split
    · rcases hbox RunTools.toolbox with h | ⟨tool, arguments, h⟩
      · exact h
      · exact h.trans (RunTools.toolbox_call tool arguments s)
    · rfl
  · exact Or.inl rfl

end Http

/-! ### Conversations of a directory -/

namespace Directory

theorem listed_upsert (d : Directory) (now : Timestamp) (c : Conversation) (id : String)
    (h : ((d.upsert now c).get? id).isSome) : (d.get? id).isSome ∨ id = c.id := by
  rw [upsert_get?] at h
  split at h
  · next hid => exact Or.inr hid
  · exact Or.inl h

/-- A summary goes by the id under which it is found. -/
theorem Named.listed {d : Directory} (h : d.Named) {id : String} {c : Conversation}
    (hc : d.get? id = some c) : (d.get? c.id).isSome := by
  rw [h id c hc, hc]
  rfl

end Directory

namespace Coordinator

/-! ### Events -/

/-- Whether a move takes no client: a step of a task, or something about connections. -/
def Move.isInner : Move → Bool
  | .create .. | .archive .. | .delete .. | .start .. | .cancel .. => false
  | _ => true

/-- Something that a client sends, or that happens without clients. Ids that nobody chose are
    tidy. -/
inductive Event where
  | request (occasion : Occasion) (hfresh : Text.IsTidy occasion.freshId) (r : Http.Request)
  /-- A text that comes in on a connection. -/
  | text (connection : Nat) (now : Timestamp) (s : String)
  | inner (m : Move) (hinner : m.isInner = true)

/-- The state after an event. -/
def serve (s : Coordinator) : Event → Coordinator
  | .request occasion _ r => (Http.handle occasion r s).2
  | .text connection now text => (Connection.answer connection now text s).2
  | .inner m _ => s.perform m

/-- The state after some events. -/
def serveAll (s : Coordinator) (events : List Event) : Coordinator :=
  events.foldl serve s

/-- Whether an event is a request that starts a run under the name that it gives. -/
def Event.Starts (key : RunKey) : Event → Prop
  | .request _ _ r => ∃ body, r.Starts body ∧ body.conversation = key.conversation ∧
      body.run = some key.run
  | _ => False

/-- An event comes down to one move at most. The move is tidy, or else it starts a run under
    the name that the event gives. -/
theorem serve_perform (s : Coordinator) (e : Event) :
    s.serve e = s ∨ ∃ m, s.serve e = s.perform m ∧
      (m.IsTidy ∨ ∃ occasion conversation run prompt,
        m = .start occasion conversation (some run) prompt ∧
          e.Starts ⟨conversation, run⟩) := by
  cases e with
  | request occasion hfresh r =>
      -- A request is a tidy move, unless it starts a run under the name that its body gives.
      rcases Http.handle_perform occasion hfresh r s with h | ⟨m, h, htidy | ⟨body, hstarts, rfl⟩⟩
      · exact Or.inl h
      · exact Or.inr ⟨m, h, Or.inl htidy⟩
      · refine Or.inr ⟨_, h, ?_⟩
        cases hrun : body.run with
        | none => exact Or.inl hfresh
        | some run =>
            exact Or.inr ⟨occasion, body.conversation, run, body.prompt, rfl, body, hstarts, rfl,
              hrun⟩
  | text connection now text =>
      rcases Connection.answer_perform connection now text s with h | ⟨m, htidy, h⟩
      · exact Or.inl h
      · exact Or.inr ⟨m, h, Or.inl htidy⟩
  -- What does not come from outside creates and starts nothing.
  | inner m hinner =>
      refine Or.inr ⟨m, rfl, Or.inl ?_⟩
      cases m with
      | create | start => cases hinner
      | _ => trivial

/-- What outlasts every move outlasts every event. -/
theorem serveAll_induction (P : Coordinator → Prop) (s : Coordinator) (events : List Event)
    (hstart : P s) (hstep : ∀ s e, P s → P (s.serve e)) : P (s.serveAll events) := by
  induction events generalizing s with
  | nil => exact hstart
  | cons e rest ih => exact ih (s.serve e) (hstep s e hstart)

theorem Coherent.serve {s : Coordinator} (h : s.Coherent) (e : Event) : (s.serve e).Coherent := by
  rcases s.serve_perform e with hs | ⟨m, hs, -⟩
  · rw [hs]
    exact h
  · rw [hs]
    exact h.perform m

theorem coherent_serveAll (config : ServerConfig) (provider : Option Provider)
    (events : List Event) : ((ofConfig config provider).serveAll events).Coherent :=
  serveAll_induction Coherent _ events (ofConfig_coherent config provider) fun _ e h => h.serve e

/-! ### Conversations -/

/-- A conversation is there because it was there before or is created. -/
theorem listed_perform (s : Coordinator) (hnamed : s.directory.Named) (m : Move) (id : String)
    (h : ((s.perform m).directory.get? id).isSome) :
    (s.directory.get? id).isSome ∨
      ∃ occasion given title, m = .create occasion given title ∧
        given.getD occasion.freshId = id := by
  cases s.perform_edit m with
  | keeps hdirectory hnews =>
      rw [hdirectory] at h
      exact Or.inl h
  | deletes given hmove hdirectory hnews =>
      rw [hdirectory, Directory.get?, Directory.delete, Table.get?_erase] at h
      split at h
      · cases h
      · exact Or.inl h
  | stores now c hrevises hdirectory hnews =>
      rw [hdirectory] at h
      rcases s.directory.listed_upsert now c id h with hold | rfl
      · exact Or.inl hold
      -- The summary that is stored is new, or goes by the id under which it was found.
      · cases hrevises with
        | creates occasion given title hmove hnew =>
            exact Or.inr ⟨occasion, given, title, hmove, rfl⟩
        | retitles occasion given title x hmove hx =>
            exact Or.inr ⟨occasion, given, title, hmove, (hnamed _ x hx).symm⟩
        | archives now given x hmove hx => exact Or.inl (hnamed.listed hx :)
        | marks given run x hmove hx => exact Or.inl (hnamed.listed hx :)

/-- The ids of all conversations are tidy. -/
def AllTidy (s : Coordinator) : Prop :=
  ∀ id, (s.directory.get? id).isSome → Text.IsTidy id

theorem AllTidy.serve {s : Coordinator} (h : s.AllTidy) (hnamed : s.directory.Named) (e : Event) :
    (s.serve e).AllTidy := by
  rcases s.serve_perform e with hs | ⟨m, hs, hm⟩
  · rw [hs]
    exact h
  · intro id hid
    rw [hs] at hid
    rcases s.listed_perform hnamed m id hid with hold | ⟨occasion, given, title, rfl, rfl⟩
    · exact h id hold
    · rcases hm with htidy | ⟨_, _, _, _, hstart, -⟩
      · exact htidy
      · cases hstart

/-- Every conversation has a tidy id. -/
theorem allTidy_serveAll (config : ServerConfig) (provider : Option Provider)
    (events : List Event) : ((ofConfig config provider).serveAll events).AllTidy := by
  have hboth := serveAll_induction (fun s => s.Coherent ∧ s.AllTidy) (ofConfig config provider)
    events ⟨ofConfig_coherent config provider, fun id hid => by cases hid⟩
    fun s e h => ⟨h.1.serve e, h.2.serve h.1.named e⟩
  exact hboth.2

/-- The conversation of a registered run has a tidy id. -/
theorem AllTidy.conversation {s : Coordinator} (h : s.AllTidy) (hs : s.Coherent) (key : RunKey)
    (hr : s.IsRegistered key) : Text.IsTidy key.conversation := by
  refine h key.conversation ?_
  have hactive := (hs.registered_iff key).mp hr
  rw [Directory.active?] at hactive
  rcases Option.bind_eq_some_iff.mp hactive with ⟨c, hc, -⟩
  rw [hc]
  rfl

/-! ### Runs -/

/-- A run that comes into the registry has a tidy id, or the event gave it its name. -/
theorem registered_serve (s : Coordinator) (e : Event) (key : RunKey)
    (hr : (s.serve e).IsRegistered key) :
    s.IsRegistered key ∨ Text.IsTidy key.run ∨ e.Starts key := by
  by_cases hold : s.IsRegistered key
  · exact Or.inl hold
  right
  rcases s.serve_perform e with hs | ⟨m, hs, hm⟩
  · rw [hs] at hr
    exact absurd hr hold
  · rw [hs] at hr
    have hcreated := (s.createdBy?_iff m key).mpr ⟨hold, hr⟩
    -- Only a start creates a run, and it does so under the name that it is given.
    cases m with
    | start occasion conversation run prompt =>
        have hkey : key = ⟨conversation, run.getD occasion.freshId⟩ := by
          rcases startRun_cases s occasion conversation run prompt with
            ⟨x, h⟩ | ⟨snapshot, -, h⟩ | ⟨provider, c, -, -, -, -, -, h⟩
          · simp only [createdBy?, h, reduceCtorEq] at hcreated
          · simp only [createdBy?, h, reduceCtorEq] at hcreated
          · simp only [createdBy?, h, Option.some.injEq] at hcreated
            exact hcreated.symm
        rcases hm with htidy | ⟨o, c, i, p, hstart, hstarts⟩
        · rw [hkey]
          exact Or.inl htidy
        · cases hstart
          rw [hkey]
          exact Or.inr hstarts
    | _ => cases hcreated

/-- A run with an untidy id was started by a request that gave it this id. -/
theorem registered_origin (s : Coordinator) (events : List Event) (key : RunKey)
    (hr : (s.serveAll events).IsRegistered key) :
    s.IsRegistered key ∨ Text.IsTidy key.run ∨ ∃ e ∈ events, e.Starts key := by
  induction events generalizing s with
  | nil => exact Or.inl hr
  | cons e rest ih =>
      rcases ih (s.serve e) hr with hold | htidy | ⟨e', hmem, hstarts⟩
      · rcases s.registered_serve e key hold with hold' | htidy | hstarts
        · exact Or.inl hold'
        · exact Or.inr (Or.inl htidy)
        · exact Or.inr (Or.inr ⟨e, List.mem_cons_self, hstarts⟩)
      · exact Or.inr (Or.inl htidy)
      · exact Or.inr (Or.inr ⟨e', List.mem_cons_of_mem e hmem, hstarts⟩)

end Coordinator

end Switchboard

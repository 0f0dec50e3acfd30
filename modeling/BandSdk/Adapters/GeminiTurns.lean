/-
# Adapters.GeminiTurns -- the live contents of a Gemini room

`GeminiAdapter.on_turn` opens a turn with one user entry, whatever the history ends
in, and leaves the loop by a model entry without calls, a decline, an answer without
content, the round cap, a provider failure or a cancellation.  Only the first leaves
a history that the next turn may open on: after the others two user entries meet, or
a call stays unanswered (`turn_after_failure_repeats_user`).  Where every turn opens on
a history that rests -- empty, or ending in a model entry without calls -- every list
of contents the model is called with is `Alternating`.

`calls` is the model's own record of those lists.
-/
import Mathlib.Data.List.Chain
import Mathlib.Data.List.Forall2
import BandSdk.Theory.Json
import BandSdk.Theory.Machine

namespace BandSdk.Adapters.Gemini

open List Option

open BandSdk.Theory (Json Machine)

/-! ## Contents -/

structure FunctionCall where
  id : Option String
  name : Option String
  args : Json

structure FunctionResponse where
  id : String
  name : String
  response : Json

inductive Part where
  | text (text : String)
  | functionCall (call : FunctionCall)
  | functionResponse (response : FunctionResponse)
  | other

inductive Role where
  | user
  | model
  deriving DecidableEq

structure Content where
  role : Role
  parts : List Part

def Part.call? : Part → Option FunctionCall
  | .functionCall call => some call
  | _ => none

def Part.response? : Part → Option FunctionResponse
  | .functionResponse response => some response
  | _ => none

namespace Content

variable (c : Content)

def calls : List FunctionCall := c.parts.filterMap Part.call?

def responses : List FunctionResponse := c.parts.filterMap Part.response?

end Content

/-- The response of a call, by its name and, where it has one, its id. -/
def FunctionCall.AnsweredBy (call : FunctionCall) (response : FunctionResponse) : Prop :=
  response.name = call.name.getD "" ∧ ∀ id, call.id = some id → id ≠ "" → response.id = id

/-- The roles alternate, and a model entry's calls are answered in order. -/
def Content.Follows (c next : Content) : Prop :=
  c.role ≠ next.role ∧ (c.role = .model → List.Forall₂ FunctionCall.AnsweredBy c.calls next.responses)

/-- User and model entries alternate, and each call is answered by the entry that follows. -/
structure Alternating (contents : List Content) : Prop where
  follows : contents.IsChain Content.Follows
  last : ∀ c ∈ contents.getLast?, c.role = .model → c.calls = []

/-! ## Responses -/

structure Candidate where
  content : Option Content
  finishReason : Option String

/-- A response of the model; the client reads `function_calls` off the first candidate, whose
content is the model's. -/
structure Response where
  candidate : Option Candidate
  blockReason : Option String
  functionCalls : List FunctionCall
  ofModel : ∀ content ∈ candidate.bind Candidate.content, content.role = .model
  ofCandidate : functionCalls = ((candidate.bind Candidate.content).map Content.calls).getD []

namespace Response

variable (response : Response)

/-- `_model_failure`. -/
def modelFailure : Option String :=
  match response.candidate with
  | some candidate =>
    if candidate.content.any fun content => !content.parts.isEmpty then none
    else candidate.finishReason.filter (· ≠ "STOP")
  | none => response.blockReason

/-- `_extract_candidate_content`. -/
def candidateContent : Option Content :=
  match response.candidate.bind Candidate.content with
  | some content => some content
  | none =>
    let parts := response.functionCalls.filterMap fun call =>
      if call.name.getD "" = "" then none else some (Part.functionCall call)
    if parts.isEmpty then none else some ⟨.model, parts⟩

end Response

inductive TurnEffect where
  | observe
  | act
  | reply
  | decline

structure Executed where
  output : Json
  succeeded : Bool
  effect : TurnEffect

structure Config where
  emitToolCalls : Bool
  maxToolRounds : Nat
  someRounds : 0 < maxToolRounds
  maxHistoryMessages : Nat
  someHistory : 0 < maxHistoryMessages
  /-- `RoundOutcome.should_stop` of a whole round. -/
  shouldStop : List (TurnEffect × Bool) → Bool

/-! ## One room -/

/-- The loop of `_process_function_calls`. -/
structure Round where
  call : FunctionCall
  rest : List FunctionCall
  responses : List Part
  outcome : List (TurnEffect × Bool)

/-- Where `on_turn` awaits; `rounds` counts the tool rounds of the turn. -/
inductive Phase where
  | idle
  | calling (rounds : Nat)
  | reportingFailure
  | reportingCall (rounds : Nat) (round : Round)
  | executing (rounds : Nat) (round : Round)
  | reportingResult (rounds : Nat) (round : Round) (response : Part)
  | emittingUsage (raising : Bool)

structure Room where
  messageHistory : Option (List Content) := none
  phase : Phase := .idle
  calls : List (List Content) := []

/-- What a turn is given; a bootstrap brings a history that alternates. -/
structure Turn where
  bootstrap : Option { history : List Content // Alternating history }
  participantsMsg : Option String
  contactsMsg : Option String
  inputs : String

inductive Answer where
  | returned
  | raised (error : String)
  | cancelled
  | response (response : Response)
  | executed (executed : Executed)
  /-- A `ValidationError` of the tool's arguments. -/
  | invalidArguments (errors : String)

inductive Event where
  | turn (turn : Turn)
  | cleanup
  | resume (answer : Answer)

namespace Turn

variable (turn : Turn)

def opening (history : Option (List Content)) : List Content :=
  match turn.bootstrap with
  | some history => history.1
  | none => history.getD []

/-- All user-side content of the turn, in one entry. -/
def entry : Content :=
  let update (msg : Option String) : List Part :=
    match msg with
    | some msg => if msg = "" then [] else [.text ("[System]: " ++ msg)]
    | none => []
  ⟨.user, update turn.participantsMsg ++ update turn.contactsMsg ++ [.text turn.inputs]⟩

end Turn

/-- `_drop_leading_tool_response_parts`. -/
def dropLeadingToolResponseParts (c : Content) : Option Content :=
  let remaining := c.parts.dropWhile fun part => part.response?.isSome
  if remaining.length = c.parts.length then some c
  else if remaining.isEmpty then none
  else some { c with parts := remaining }

/-- The realignment of `_trim_history`. -/
def realign : List Content → List Content
  | [] => []
  | first :: rest =>
    if first.role = .model then realign rest
    else
      match dropLeadingToolResponseParts first with
      | none => realign rest
      | some first => first :: rest

namespace Room

variable (config : Config) (r : Room)

def history : List Content := r.messageHistory.getD []

def append (c : Content) : Room := { r with messageHistory := some (r.history ++ [c]) }

/-- `_trim_history`. -/
def trimHistory : Room :=
  if r.history.length ≤ config.maxHistoryMessages then r
  else
    let trimmed := r.history.drop (r.history.length - config.maxHistoryMessages)
    { r with messageHistory := some (realign trimmed) }

/-- The top of the loop: the round cap, or `_call_gemini`. -/
def nextRound (rounds : Nat) : Room :=
  if config.maxToolRounds ≤ rounds then { r with phase := .reportingFailure }
  else { r with phase := .calling rounds, calls := r.calls ++ [r.history] }

/-- The next call of a round, or its responses. -/
def nextCall (rounds : Nat) (functionCalls : List FunctionCall) (responses : List Part)
    (outcome : List (TurnEffect × Bool)) : Room :=
  match functionCalls with
  | [] =>
    let r := if responses.isEmpty then r else r.append ⟨.user, responses⟩
    if config.shouldStop outcome then { r with phase := .emittingUsage false }
    else r.nextRound config (rounds + 1)
  | call :: rest =>
    let round : Round := ⟨call, rest, responses, outcome⟩
    { r with
      phase := if config.emitToolCalls then .reportingCall rounds round else .executing rounds round }

def respond (rounds : Nat) (response : Response) : Room :=
  if response.modelFailure.isSome then { r with phase := .reportingFailure }
  else
    let r := match response.candidateContent with
      | some content => r.append content
      | none => r
    if response.functionCalls.isEmpty then { r with phase := .emittingUsage false }
    else r.nextCall config rounds response.functionCalls [] []

/-- `function_call.id or f"gemini_tool_call_{index}"`. -/
def toolCallId (round : Round) : String :=
  let id := round.call.id.getD ""
  if id = "" then "gemini_tool_call_" ++ toString round.responses.length else id

def callDone (rounds : Nat) (round : Round) (response : Part) : Room :=
  r.nextCall config rounds round.rest (round.responses ++ [response]) round.outcome

def executed (rounds : Nat) (round : Round) (payload : Json) (recorded : List (TurnEffect × Bool)) : Room :=
  let response := Part.functionResponse ⟨toolCallId round, round.call.name.getD "", payload⟩
  let round := { round with outcome := round.outcome ++ recorded }
  if config.emitToolCalls then { r with phase := .reportingResult rounds round response }
  else r.callDone config rounds round response

def onTurn (turn : Turn) : Room :=
  { r with messageHistory := some (turn.opening r.messageHistory ++ [turn.entry]) }.nextRound config 0

def resume (answer : Answer) : Option Room :=
  match r.phase, answer with
  | .calling rounds, .response response => some (r.respond config rounds response)
  | .calling _, .raised _ => some { r with phase := .reportingFailure }
  | .reportingCall rounds round, .returned | .reportingCall rounds round, .raised _ =>
    some { r with phase := .executing rounds round }
  | .executing rounds round, .executed outcome =>
    some (if outcome.succeeded then
        r.executed config rounds round (.obj [("output", outcome.output)]) [(outcome.effect, true)]
      else
        r.executed config rounds round (.obj [("error", outcome.output)])
          [(outcome.effect, false), (.observe, false)])
  | .executing rounds round, .raised error =>
    some (r.executed config rounds round (.obj [("error", .str ("Error: " ++ error))])
      [(.observe, false)])
  | .executing rounds round, .invalidArguments errors =>
    let text := "Invalid arguments for " ++ round.call.name.getD "" ++ ": " ++ errors
    some (r.executed config rounds round (.obj [("error", .str text)]) [(.observe, false)])
  | .reportingResult rounds round response, .returned
  | .reportingResult rounds round response, .raised _ =>
    some (r.callDone config rounds round response)
  | .reportingFailure, .returned | .reportingFailure, .raised _ | .reportingFailure, .cancelled
  | .calling _, .cancelled | .reportingCall _ _, .cancelled | .executing _ _, .cancelled
  | .reportingResult _ _ _, .cancelled => some { r with phase := .emittingUsage true }
  | .emittingUsage raising, .returned =>
    some { (if raising then r else r.trimHistory config) with phase := .idle }
  | .emittingUsage _, .cancelled => some { r with phase := .idle }
  | _, _ => none

def step (r : Room) : Event → Option Room
  | .turn turn =>
    match r.phase with
    | .idle => some (r.onTurn config turn)
    | _ => none
  | .cleanup =>
    match r.phase with
    | .idle => some { r with messageHistory := none }
    | _ => none
  | .resume answer => r.resume config answer

end Room

def room (config : Config) : Machine Room Event where
  init r := r = {}
  step r e := r.step config e

/-- Empty, or ending in a model entry without calls. -/
def rests (history : List Content) : Bool :=
  history.getLast?.all fun c => c.role = .model && c.calls.isEmpty

/-- Every turn opens on a history that rests. -/
def opensAtRest (r : Room) : Event → Bool
  | .turn turn => rests (turn.opening r.messageHistory)
  | _ => true

/-! ## Appending to contents that alternate -/

variable {contents : List Content} {c next : Content}

theorem Alternating.nil : Alternating [] := ⟨.nil, by simp⟩

/-- A turn opens. -/
theorem Alternating.open (alternating : Alternating contents) (atRest : rests contents)
    (user : c.role = .user) (silent : c.responses = []) : Alternating (contents ++ [c]) := by
  refine ⟨alternating.follows.append (.singleton c) ?_, by simp [user]⟩
  intro last final first head
  have same : c = first := by simpa using head
  subst same
  have model : last.role = .model ∧ last.calls = [] := by
    simpa [rests, mem_def.1 final] using atRest
  rw [Content.Follows, model.1, user, model.2, silent]
  exact ⟨by simp, fun _ => .nil⟩

theorem Alternating.answer (alternating : Alternating (contents ++ [c])) (user : c.role = .user)
    (model : next.role = .model) : (contents ++ [c] ++ [next]).IsChain Content.Follows := by
  refine alternating.follows.append (.singleton next) ?_
  intro last final first head
  have same : next = first := by simpa using head
  have ends : c = last := by simpa using final
  subst same ends
  rw [Content.Follows, user, model]
  exact ⟨by simp, by simp⟩

/-- The history ends in a model entry that `responses` answers so far. -/
def Asked (history : List Content) (responses : List Part) (pending : List FunctionCall) : Prop :=
  ∃ before asks done, history = before ++ [asks] ∧ history.IsChain Content.Follows ∧
    asks.role = .model ∧ asks.calls = done ++ pending ∧
    List.Forall₂ FunctionCall.AnsweredBy done (responses.filterMap Part.response?)

variable {history : List Content} {responses : List Part}

theorem Asked.answered (asked : Asked history responses []) :
    Alternating (history ++ [⟨.user, responses⟩]) := by
  obtain ⟨before, asks, done, split, follows, model, calls, answered⟩ := asked
  refine ⟨follows.append (.singleton _) ?_, by simp⟩
  intro last final first head
  have same : ⟨.user, responses⟩ = first := by simpa using head
  have ends : asks = last := by simpa [split] using final
  subst same ends
  refine ⟨by simp [model], fun _ => ?_⟩
  rw [calls, append_nil]
  exact answered

theorem Asked.respond {call : FunctionCall}
    {rest : List FunctionCall} {response : FunctionResponse} (asked : Asked history responses (call :: rest))
    (answers : call.AnsweredBy response) : Asked history (responses ++ [.functionResponse response]) rest := by
  obtain ⟨before, asks, done, split, follows, model, calls, answered⟩ := asked
  refine ⟨before, asks, done ++ [call], split, follows, model, by simp [calls], ?_⟩
  rw [filterMap_append]
  exact rel_append answered (.cons answers .nil)

/-- A call that nothing answers yet does not let the history rest. -/
theorem Asked.not_rests {call : FunctionCall}
    {rest : List FunctionCall} (asked : Asked history responses (call :: rest)) (atRest : rests history) :
    False := by
  obtain ⟨before, asks, done, rfl, -, -, calls, -⟩ := asked
  simp [rests, calls] at atRest

/-! ## Trimming -/

theorem dropLeading_role {c c' : Content} (kept : dropLeadingToolResponseParts c = some c') :
    c'.role = c.role := by
  simp only [dropLeadingToolResponseParts] at kept
  split at kept
  · cases kept
    rfl
  · split at kept
    · cases kept
    · cases kept
      rfl

/-- An entry that the realignment may stop at. -/
def opens (c : Content) : Bool := c.role = .user && (dropLeadingToolResponseParts c).isSome

/-- The realignment drops entries in front of the first that opens, and may cut that one. -/
theorem realign_cases (contents : List Content) :
    realign contents = [] ∧ contents.find? opens = none ∨
    ∃ dropped first first' rest, contents = dropped ++ first :: rest ∧ realign contents = first' :: rest ∧
      first.role = .user ∧ dropLeadingToolResponseParts first = some first' ∧
      contents.find? opens = some first := by
  induction contents with
  | nil => exact .inl ⟨rfl, rfl⟩
  | cons c rest ih =>
    cases its : opens c with
    | true =>
      obtain ⟨user, some_⟩ := Bool.and_eq_true_iff.1 its
      obtain ⟨c', kept⟩ := isSome_iff_exists.1 some_
      have user : c.role = .user := of_decide_eq_true user
      exact .inr ⟨[], c, c', rest, rfl, by simp [realign, user, kept], user, kept, List.find?_cons_of_pos its⟩
    | false =>
      have same : realign (c :: rest) = realign rest := by
        cases role : c.role <;> cases kept : dropLeadingToolResponseParts c <;>
          simp_all [opens, realign]
      rw [same, List.find?_cons_of_neg (by simp [its])]
      rcases ih with none_ | ⟨dropped, first, first', later, split, more⟩
      · exact .inl none_
      · exact .inr ⟨c :: dropped, first, first', later, by simp [split], more⟩

theorem Alternating.realign (alternating : Alternating contents) : Alternating (realign contents) := by
  rcases realign_cases contents with ⟨none, -⟩ | ⟨dropped, first, first', rest, split, same, user, kept, -⟩
  · rw [none]
    exact Alternating.nil
  · have user' := (dropLeading_role kept).trans user
    have tail : (first :: rest).IsChain Content.Follows :=
      (split ▸ alternating.follows).right_of_append
    rw [same]
    refine ⟨?_, ?_⟩
    · cases rest with
      | nil => exact .singleton first'
      | cons c rest =>
        obtain ⟨follows, after⟩ := isChain_cons_cons.1 tail
        refine .cons_cons ⟨?_, ?_⟩ after
        · rw [user', ← user]
          exact follows.1
        · intro model
          simp [user'] at model
    · cases rest with
      | nil => simp [user']
      | cons c rest =>
        intro last final
        refine alternating.last last ?_
        rw [split]
        simpa using final

theorem rests_of_trimmed {n : Nat} (atRest : rests (realign (contents.drop n)))
    (some : realign (contents.drop n) ≠ []) : rests contents := by
  rcases realign_cases (contents.drop n) with
    ⟨none, -⟩ | ⟨dropped, first, first', rest, split, same, user, kept, -⟩
  · exact absurd none some
  cases rest with
  | nil => simp [same, rests, (dropLeading_role kept).trans user] at atRest
  | cons c rest =>
    have whole : contents.getLast? = (c :: rest).getLast? := by
      rw [← take_append_drop n contents, split]
      simp [getLast?_append, getLast?_cons]
    rw [same] at atRest
    simpa [rests, whole] using atRest

/-! ## Along a run -/

namespace Room

variable {config : Config} {r r' : Room}

def Sound (r : Room) : Prop :=
  (∀ contents ∈ r.calls, Alternating contents) ∧
    match r.phase with
    | .calling _ => Alternating r.history ∧ ∃ before c, r.history = before ++ [c] ∧ c.role = .user
    | .reportingCall _ round | .executing _ round =>
      Asked r.history round.responses (round.call :: round.rest)
    | .reportingResult _ round response =>
      Asked r.history round.responses (round.call :: round.rest) ∧
        ∃ answer, response = .functionResponse answer ∧ round.call.AnsweredBy answer
    | _ => rests r.history → Alternating r.history

variable {rounds : Nat}

theorem nextRound_sound {before : List Content} {c : Content}
    (calls : ∀ contents ∈ r.calls, Alternating contents) (alternating : Alternating r.history)
    (ends : r.history = before ++ [c]) (user : c.role = .user) : (r.nextRound config rounds).Sound := by
  unfold nextRound
  split
  · exact ⟨calls, fun _ => alternating⟩
  · refine ⟨forall_mem_append.2 ⟨calls, ?_⟩, alternating, before, c, ends, user⟩
    simpa using alternating

theorem nextCall_sound {functionCalls : List FunctionCall} {responses : List Part}
    {outcome : List (TurnEffect × Bool)} (calls : ∀ contents ∈ r.calls, Alternating contents)
    (asked : Asked r.history responses functionCalls) (some : functionCalls = [] → responses ≠ []) :
    (r.nextCall config rounds functionCalls responses outcome).Sound := by
  cases functionCalls with
  | nil =>
    have answered : ¬ responses.isEmpty = true := by simpa using some rfl
    have alternating : Alternating (r.append ⟨.user, responses⟩).history := asked.answered
    simp only [nextCall, if_neg answered]
    split
    · exact ⟨calls, fun _ => alternating⟩
    · exact nextRound_sound calls alternating rfl rfl
  | cons call rest =>
    simp only [nextCall]
    split
    · exact ⟨calls, asked⟩
    · exact ⟨calls, asked⟩

theorem respond_sound {response : Response} {before : List Content} {c : Content}
    (calls : ∀ contents ∈ r.calls, Alternating contents) (alternating : Alternating r.history)
    (ends : r.history = before ++ [c]) (user : c.role = .user) :
    (r.respond config rounds response).Sound := by
  have made := response.ofCandidate
  unfold respond
  split
  · exact ⟨calls, fun _ => alternating⟩
  cases found : response.candidate.bind Candidate.content with
  | none =>
    have none : response.functionCalls = [] := by simpa [found] using made
    have empty : response.candidateContent = Option.none := by
      simp [Response.candidateContent, found, none]
    simp only [empty, none, isEmpty_nil, if_true]
    exact ⟨calls, fun _ => alternating⟩
  | some content =>
    have model := response.ofModel content found
    have asks : response.functionCalls = content.calls := by simpa [found] using made
    have whole : response.candidateContent = Option.some content := by
      simp [Response.candidateContent, found]
    have follows : (r.history ++ [content]).IsChain Content.Follows := by
      rw [ends] at alternating ⊢
      exact alternating.answer user model
    simp only [whole]
    split
    · rename_i silent
      refine ⟨calls, fun _ => ⟨follows, ?_⟩⟩
      have quiet : content.calls = [] := by simpa [asks] using silent
      simpa [history, append] using fun _ => quiet
    · rename_i some
      refine nextCall_sound calls ⟨r.history, content, [], rfl, follows, model, ?_, .nil⟩ ?_
      · simp [asks]
      · exact fun none => absurd (by simp [none]) some

theorem toolCallId_answers {round : Round} {payload : Json} :
    round.call.AnsweredBy ⟨toolCallId round, round.call.name.getD "", payload⟩ := by
  refine ⟨rfl, fun id is some => ?_⟩
  simp [toolCallId, is, some]

theorem executed_sound {round : Round} {payload : Json}
    {recorded : List (TurnEffect × Bool)} (calls : ∀ contents ∈ r.calls, Alternating contents)
    (asked : Asked r.history round.responses (round.call :: round.rest)) :
    (r.executed config rounds round payload recorded).Sound := by
  unfold executed
  simp only
  split
  · exact ⟨calls, asked, _, rfl, toolCallId_answers⟩
  · exact nextCall_sound calls (asked.respond toolCallId_answers) (by simp)

theorem trimHistory_sound (loose : rests r.history → Alternating r.history) :
    rests (r.trimHistory config).history → Alternating (r.trimHistory config).history := by
  unfold trimHistory
  split
  · exact loose
  intro atRest
  by_cases none : realign (r.history.drop (r.history.length - config.maxHistoryMessages)) = []
  · simp only [history, getD_some] at none ⊢
    rw [none]
    exact Alternating.nil
  · have alternating := loose (rests_of_trimmed atRest none)
    have suffix : Alternating (r.history.drop (r.history.length - config.maxHistoryMessages)) := by
      refine ⟨alternating.follows.drop _, fun last final => alternating.last last ?_⟩
      rw [getLast?_drop] at final
      split at final
      · cases final
      · exact final
    exact suffix.realign

theorem onTurn_sound {turn : Turn} (sound : r.Sound) (idle : r.phase = .idle)
    (atRest : rests (turn.opening r.messageHistory)) : (r.onTurn config turn).Sound := by
  obtain ⟨calls, loose⟩ := sound
  rw [idle] at loose
  have opening : Alternating (turn.opening r.messageHistory) := by
    unfold Turn.opening at atRest ⊢
    split at atRest
    · rename_i history _
      exact history.2
    · exact loose atRest
  have silent : turn.entry.responses = [] := by
    have update : ∀ msg : Option String, (match msg with
        | some msg => if msg = "" then [] else [Part.text ("[System]: " ++ msg)]
        | none => []).filterMap Part.response? = [] := by
      intro msg
      split
      · split <;> rfl
      · rfl
    simp only [Content.responses, Turn.entry, filterMap_append, update]
    rfl
  exact nextRound_sound calls (opening.open atRest rfl silent) rfl rfl

theorem resume_sound {answer : Answer} (sound : r.Sound)
    (stepped : r.resume config answer = some r') : r'.Sound := by
  obtain ⟨calls, holds⟩ := sound
  cases phase : r.phase with
  | idle => simp [resume, phase] at stepped
  | calling rounds =>
    rw [phase] at holds
    obtain ⟨alternating, before, c, ends, user⟩ := holds
    cases answer with
    | response response =>
      simp only [resume, phase] at stepped
      cases stepped
      exact respond_sound calls alternating ends user
    | raised | cancelled =>
      simp only [resume, phase] at stepped
      cases stepped
      exact ⟨calls, fun _ => alternating⟩
    | returned | executed | invalidArguments => simp [resume, phase] at stepped
  | reportingFailure =>
    rw [phase] at holds
    cases answer with
    | returned | raised | cancelled =>
      simp only [resume, phase] at stepped
      cases stepped
      exact ⟨calls, holds⟩
    | response | executed | invalidArguments => simp [resume, phase] at stepped
  | reportingCall rounds round =>
    rw [phase] at holds
    cases answer with
    | returned | raised =>
      simp only [resume, phase] at stepped
      cases stepped
      exact ⟨calls, holds⟩
    | cancelled =>
      simp only [resume, phase] at stepped
      cases stepped
      exact ⟨calls, fun atRest => (Asked.not_rests holds atRest).elim⟩
    | response | executed | invalidArguments => simp [resume, phase] at stepped
  | executing rounds round =>
    rw [phase] at holds
    cases answer with
    | executed outcome =>
      simp only [resume, phase] at stepped
      cases stepped
      split
      · exact executed_sound calls holds
      · exact executed_sound calls holds
    | raised | invalidArguments =>
      simp only [resume, phase] at stepped
      cases stepped
      exact executed_sound calls holds
    | cancelled =>
      simp only [resume, phase] at stepped
      cases stepped
      exact ⟨calls, fun atRest => (Asked.not_rests holds atRest).elim⟩
    | returned | response => simp [resume, phase] at stepped
  | reportingResult rounds round response =>
    rw [phase] at holds
    obtain ⟨asked, response, rfl, answers⟩ := holds
    cases answer with
    | returned | raised =>
      simp only [resume, phase] at stepped
      cases stepped
      exact nextCall_sound calls (asked.respond answers) (by simp)
    | cancelled =>
      simp only [resume, phase] at stepped
      cases stepped
      exact ⟨calls, fun atRest => (asked.not_rests atRest).elim⟩
    | response | executed | invalidArguments => simp [resume, phase] at stepped
  | emittingUsage raising =>
    rw [phase] at holds
    cases answer with
    | returned =>
      simp only [resume, phase] at stepped
      cases stepped
      cases raising with
      | true => exact ⟨calls, holds⟩
      | false =>
        refine ⟨?_, trimHistory_sound holds⟩
        simp only [Bool.false_eq_true, if_false, trimHistory]
        split <;> exact calls
    | cancelled =>
      simp only [resume, phase] at stepped
      cases stepped
      exact ⟨calls, holds⟩
    | raised | response | executed | invalidArguments => simp [resume, phase] at stepped

theorem step_sound {e : Event} (sound : r.Sound) (allowed : opensAtRest r e)
    (stepped : r.step config e = some r') : r'.Sound := by
  cases e with
  | turn turn =>
    simp only [step] at stepped
    split at stepped
    · rename_i idle
      cases stepped
      exact onTurn_sound sound idle allowed
    · cases stepped
  | cleanup =>
    simp only [step] at stepped
    split at stepped
    · rename_i idle
      cases stepped
      refine ⟨sound.1, ?_⟩
      simp only [idle]
      exact fun _ => Alternating.nil
    · cases stepped
  | resume answer => exact resume_sound sound stepped

end Room

/-- **Every list of contents the model is called with alternates**, in every run whose turns open on
a history that rests. -/
theorem live_contents_alternate (config : Config) {r : Room}
    (reached : ((room config).restrict opensAtRest).Reachable r) :
    ∀ contents ∈ r.calls, Alternating contents := by
  have sound : r.Sound := by
    refine reached.invariant ?_ ?_
    · rintro s rfl
      exact ⟨by simp, fun _ => Alternating.nil⟩
    · intro s e t sound stepped
      obtain ⟨allowed, ran⟩ := Machine.restrict_step stepped
      exact Room.step_sound sound allowed ran
  exact sound.1

/-! ## Runs -/

def plainConfig : Config where
  emitToolCalls := false
  maxToolRounds := 10
  someRounds := by decide
  maxHistoryMessages := 200
  someHistory := by decide
  shouldStop := fun _ => false

def firstTurn : Turn where
  bootstrap := none
  participantsMsg := none
  contactsMsg := none
  inputs := "[Ann]: hello"

def asksFunction : Response where
  candidate := some ⟨some ⟨.model, [.functionCall ⟨none, some "lookup", .null⟩]⟩, none⟩
  blockReason := none
  functionCalls := [⟨none, some "lookup", .null⟩]
  ofModel := by simp
  ofCandidate := rfl

/-- One function call, answered: the model is called again with the response. -/
theorem live_contents_alternate_answered : ∃ r,
    ((room plainConfig).restrict opensAtRest).Reachable r ∧ r.calls.length = 2 ∧
      ∀ contents ∈ r.calls, Alternating contents := by
  have ran : (((room plainConfig).restrict opensAtRest).run {}
      [.turn firstTurn, .resume (.response asksFunction),
        .resume (.executed ⟨.null, true, .observe⟩)]).map (fun r => r.calls.length) = some 2 := by rfl
  obtain ⟨r, run, made⟩ := map_eq_some_iff.1 ran
  have reached : ((room plainConfig).restrict opensAtRest).Reachable r := ⟨{}, rfl, _, run⟩
  exact ⟨r, reached, made, live_contents_alternate _ reached⟩

/-- A turn whose model call fails, then the next turn: two user entries meet. -/
theorem turn_after_failure_repeats_user : ∃ r, (room plainConfig).Reachable r ∧
    ∃ contents ∈ r.calls, ¬ Alternating contents := by
  let entry : Content := ⟨.user, [.text "[Ann]: hello"]⟩
  have ran : ((room plainConfig).run {}
      [.turn firstTurn, .resume (.raised "503"), .resume .returned, .resume .returned,
        .turn firstTurn]).map (fun r => r.calls) = some [[entry], [entry, entry]] := by rfl
  obtain ⟨r, run, calls⟩ := map_eq_some_iff.1 ran
  refine ⟨r, ⟨{}, rfl, _, run⟩, [entry, entry], by simp [calls], fun alternating => ?_⟩
  have follows := alternating.follows
  simp [entry, Content.Follows] at follows

end BandSdk.Adapters.Gemini

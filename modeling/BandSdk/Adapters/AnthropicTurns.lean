/-
# Adapters.AnthropicTurns -- the live history of an Anthropic room

`AnthropicAdapter.on_turn` appends to the room's history around its awaits, and the
history survives the turn.  An assistant message with `tool_use` blocks is appended
before its tools run and the results after all of them did, so a turn cancelled in
between leaves a call that nothing answers: `interrupted_call_unanswered`.  The
converter answers such calls (`Converters.Anthropic.patchOrphanedToolUses`); the live
history has no such pass.  Where no tool round is cancelled, every list of messages
the API is called with is `Valid`.

`calls` is the model's own record of those lists.
-/
import Mathlib.Data.List.Chain
import BandSdk.Converters.Parsing
import BandSdk.Theory.Machine

namespace BandSdk.Adapters.Anthropic

open List

open BandSdk.Theory (Json Machine)
open BandSdk.Converters (Role)

/-! ## Messages -/

/-- A block of a message; a result's content is a text or a list of image blocks. -/
inductive Block where
  | text (text : String)
  | toolUse (id name : String) (input : Json)
  | toolResult (toolUseId : String) (content : Json) (isError : Bool)

inductive Content where
  | str (text : String)
  | list (blocks : List Block)

structure Message where
  role : Role
  content : Content

namespace Block

def useId : Block → Option String
  | .toolUse id _ _ => some id
  | _ => none

def resultId : Block → Option String
  | .toolResult toolUseId _ _ => some toolUseId
  | _ => none

end Block

namespace Message

variable (m : Message)

def blocks : List Block :=
  match m.content with
  | .str text => [.text text]
  | .list blocks => blocks

/-- The `tool_use` ids of an assistant message. -/
def uses : List String := if m.role = .assistant then m.blocks.filterMap Block.useId else []

def answers : List String := m.blocks.filterMap Block.resultId

/-- `next` answers exactly the calls of `m`, once each. -/
def Follows (m next : Message) : Prop :=
  next.answers.Perm m.uses ∧ (m.uses ≠ [] → next.role = .user)

end Message

/-- Every call is answered by the next message, and no result stands elsewhere. -/
structure Valid (messages : List Message) : Prop where
  first : ∀ m ∈ messages.head?, m.answers = []
  follows : messages.IsChain Message.Follows
  last : ∀ m ∈ messages.getLast?, m.uses = []

/-! ## One room -/

/-- A block of a response; `other` is one the adapter does not know. -/
inductive ApiBlock where
  | text (text : String)
  | toolUse (id name : String) (input : Json)
  | other

structure ToolUse where
  id : String
  name : String
  input : Json

def ApiBlock.toolUse? : ApiBlock → Option ToolUse
  | .toolUse id name input => some ⟨id, name, input⟩
  | _ => none

/-- An API response; it stops for tools exactly when it has calls. -/
structure Response where
  content : List ApiBlock
  stopReason : String
  agrees : stopReason = "tool_use" ↔ content.filterMap ApiBlock.toolUse? ≠ []

inductive TurnEffect where
  | observe
  | act
  | reply
  | decline

/-- What a tool call returned. -/
structure Executed where
  content : Json
  succeeded : Bool
  effect : TurnEffect

/-- Whether tool calls are reported to the room, and `RoundOutcome.should_stop` of a whole round. -/
structure Config where
  emitToolCalls : Bool
  shouldStop : List (TurnEffect × Bool) → Bool

/-- The loop of `_process_tool_calls`. -/
structure Round where
  block : ToolUse
  rest : List ToolUse
  toolResults : List Block
  outcome : List (TurnEffect × Bool)

/-- Where `on_turn` awaits. -/
inductive Phase where
  | idle
  | calling
  | reportingFailure
  | reportingCall (round : Round)
  | executing (round : Round)
  | reportingResult (round : Round) (result : Block)
  | emittingUsage

structure Room where
  messageHistory : Option (List Message) := none
  phase : Phase := .idle
  calls : List (List Message) := []

/-- What a turn is given; a bootstrap brings a converted history, which is valid. -/
structure Turn where
  bootstrap : Option { history : List Message // Valid history }
  participantsMsg : Option String
  contactsMsg : Option String
  inputs : String

inductive Answer where
  | returned
  | raised (error : String)
  | cancelled
  | response (response : Response)
  | executed (executed : Executed)

inductive Event where
  | turn (turn : Turn)
  | cleanup
  | resume (answer : Answer)

def systemUpdatePrefix : String := "[System]: "

/-- `_extract_text_content`. -/
def extractTextContent (content : List ApiBlock) : String :=
  " ".intercalate (content.filterMap fun
    | .text text => if text ≠ "" then some text else none
    | _ => none)

/-- `_serialize_content_blocks`. -/
def serializeContentBlocks (content : List ApiBlock) : List Block :=
  content.filterMap fun
    | .toolUse id name input => some (.toolUse id name input)
    | .text text => if text ≠ "" then some (.text text) else none
    | .other => none

namespace Turn

variable (turn : Turn)

/-- The history the turn starts from. -/
def opening (history : Option (List Message)) : List Message :=
  match turn.bootstrap with
  | some history => history.1
  | none => history.getD []

/-- What the turn adds before its first call. -/
def added : List Message :=
  let update (msg : Option String) : List Message :=
    match msg with
    | some msg => if msg = "" then [] else [⟨.user, .str (systemUpdatePrefix ++ msg)⟩]
    | none => []
  update turn.participantsMsg ++ update turn.contactsMsg ++ [⟨.user, .str turn.inputs⟩]

end Turn

namespace Room

variable (config : Config) (r : Room)

def history : List Message := r.messageHistory.getD []

def append (m : Message) : Room := { r with messageHistory := some (r.history ++ [m]) }

/-- `_call_anthropic`. -/
def callAnthropic : Room := { r with phase := .calling, calls := r.calls ++ [r.history] }

/-- The next call of a round, or its results. -/
def nextCall (toolUses : List ToolUse) (toolResults : List Block) (outcome : List (TurnEffect × Bool)) : Room :=
  match toolUses with
  | [] =>
    let r := r.append ⟨.user, .list toolResults⟩
    if config.shouldStop outcome then { r with phase := .emittingUsage } else r.callAnthropic
  | block :: rest =>
    let round : Round := ⟨block, rest, toolResults, outcome⟩
    { r with phase := if config.emitToolCalls then .reportingCall round else .executing round }

def respond (response : Response) : Room :=
  if response.stopReason ≠ "tool_use" then
    let text := extractTextContent response.content
    let r := if text ≠ "" then r.append ⟨.assistant, .str text⟩ else r
    { r with phase := .emittingUsage }
  else
    (r.append ⟨.assistant, .list (serializeContentBlocks response.content)⟩).nextCall config
      (response.content.filterMap ApiBlock.toolUse?) [] []

/-- A call of the round has its result. -/
def callDone (round : Round) (result : Block) : Room :=
  r.nextCall config round.rest (round.toolResults ++ [result]) round.outcome

def executed (round : Round) (content : Json) (isError : Bool) (recorded : TurnEffect × Bool) : Room :=
  let round := { round with outcome := round.outcome ++ [recorded] }
  let result := Block.toolResult round.block.id content isError
  if config.emitToolCalls then { r with phase := .reportingResult round result }
  else r.callDone config round result

def onTurn (turn : Turn) : Room :=
  { r with messageHistory := some (turn.opening r.messageHistory ++ turn.added) }.callAnthropic

def resume (answer : Answer) : Option Room :=
  match r.phase, answer with
  | .calling, .response response => some (r.respond config response)
  | .calling, .raised _ => some { r with phase := .reportingFailure }
  | .reportingCall round, .returned | .reportingCall round, .raised _ =>
    some { r with phase := .executing round }
  | .executing round, .executed outcome =>
    some (r.executed config round outcome.content (!outcome.succeeded)
      (outcome.effect, outcome.succeeded))
  | .executing round, .raised error =>
    some (r.executed config round (.str ("Error: " ++ error)) true (.observe, false))
  | .reportingResult round result, .returned | .reportingResult round result, .raised _ =>
    some (r.callDone config round result)
  | .reportingFailure, .returned | .reportingFailure, .raised _ | .reportingFailure, .cancelled
  | .calling, .cancelled | .reportingCall _, .cancelled | .executing _, .cancelled
  | .reportingResult _ _, .cancelled => some { r with phase := .emittingUsage }
  | .emittingUsage, .returned | .emittingUsage, .cancelled => some { r with phase := .idle }
  | _, _ => none

def step (r : Room) : Event → Option Room
  | .turn turn =>
    match r.phase with
    | .idle => some (r.onTurn turn)
    | _ => none
  | .cleanup =>
    match r.phase with
    | .idle => some { r with messageHistory := none }
    | _ => none
  | .resume answer => r.resume config answer

end Room

def room (config : Config) : Machine Room Event where
  init r := r = {}
  step r e := r.step config e

/-- A tool round is under way. -/
def Phase.inRound : Phase → Bool
  | .reportingCall _ | .executing _ | .reportingResult _ _ => true
  | _ => false

/-- No tool round is cancelled. -/
def uninterrupted (r : Room) : Event → Bool
  | .resume .cancelled => !r.phase.inRound
  | _ => true

/-! ## Appending to a valid history -/

variable {messages : List Message} {m next : Message}

theorem Valid.nil : Valid [] := ⟨by simp, .nil, by simp⟩

/-- The history may grow by a message that neither calls nor answers. -/
theorem Valid.snoc (valid : Valid messages) (silent : m.answers = []) (closed : m.uses = []) :
    Valid (messages ++ [m]) := by
  refine ⟨?_, ?_, ?_⟩
  · cases messages with
    | nil => simpa using silent
    | cons first rest => simpa using valid.first
  · refine valid.follows.append (.singleton m) ?_
    intro last final next first
    have same : m = next := by simpa using first
    subst same
    rw [Message.Follows, silent, valid.last last final]
    exact ⟨.nil, fun asks => (asks rfl).elim⟩
  · simpa using closed

open Message

theorem Valid.round (valid : Valid messages) (silent : m.answers = [])
    (answers : next.answers.Perm m.uses) (user : next.role = .user) :
    Valid (messages ++ [m] ++ [next]) := by
  have closed : next.uses = [] := by simp [uses, user]
  refine ⟨?_, ?_, ?_⟩
  · cases messages with
    | nil => simpa using silent
    | cons first rest => simpa using valid.first
  · rw [append_assoc]
    refine valid.follows.append (.cons_cons ⟨answers, fun _ => user⟩ (.singleton next)) ?_
    intro last final first head
    have same : m = first := by simpa using head
    subst same
    rw [Message.Follows, silent, valid.last last final]
    exact ⟨.nil, fun asks => (asks rfl).elim⟩
  · simpa using closed

/-- The history ends in a call whose first ids have results and whose others are pending. -/
def Asked (history : List Message) (results : List Block) (pending : List ToolUse) : Prop :=
  ∃ before asks, history = before ++ [asks] ∧ Valid before ∧ asks.answers = [] ∧
    asks.uses = results.filterMap Block.resultId ++ pending.map ToolUse.id

theorem Asked.answered {history : List Message} {results : List Block} (asked : Asked history results []) :
    Valid (history ++ [⟨.user, .list results⟩]) := by
  obtain ⟨before, asks, rfl, valid, silent, uses⟩ := asked
  refine valid.round silent ?_ rfl
  rw [uses]
  simp [answers, blocks]

theorem Asked.result {history : List Message} {results : List Block} {result : Block} {block : ToolUse}
    {rest : List ToolUse} (asked : Asked history results (block :: rest))
    (answers : result.resultId = some block.id) : Asked history (results ++ [result]) rest := by
  obtain ⟨before, asks, split, valid, silent, uses⟩ := asked
  exact ⟨before, asks, split, valid, silent, by simp [uses, answers]⟩

theorem serialize_uses (content : List ApiBlock) :
    (serializeContentBlocks content).filterMap Block.useId =
      (content.filterMap ApiBlock.toolUse?).map ToolUse.id := by
  rw [serializeContentBlocks, filterMap_filterMap, map_filterMap]
  congr 1
  funext block
  cases block with
  | text text => by_cases empty : text = "" <;> simp [empty, ApiBlock.toolUse?, Block.useId]
  | toolUse id name input | other => rfl

theorem serialize_answers (content : List ApiBlock) :
    (serializeContentBlocks content).filterMap Block.resultId = [] := by
  rw [serializeContentBlocks, filterMap_filterMap]
  refine filterMap_eq_nil_iff.2 fun block _ => ?_
  cases block with
  | text text => by_cases empty : text = "" <;> simp [empty, Block.resultId]
  | toolUse id name input | other => rfl

/-! ## Along a run -/

namespace Room

variable {config : Config} {r r' : Room}

def Sound (r : Room) : Prop :=
  (∀ messages ∈ r.calls, Valid messages) ∧
    match r.phase with
    | .reportingCall round | .executing round =>
      Asked r.history round.toolResults (round.block :: round.rest)
    | .reportingResult round result =>
      Asked r.history round.toolResults (round.block :: round.rest) ∧ result.resultId = some round.block.id
    | _ => Valid r.history

theorem callAnthropic_sound (calls : ∀ messages ∈ r.calls, Valid messages) (valid : Valid r.history) :
    r.callAnthropic.Sound := by
  refine ⟨?_, valid⟩
  refine forall_mem_append.2 ⟨calls, ?_⟩
  simpa using valid

theorem nextCall_sound {toolUses : List ToolUse} {toolResults : List Block}
    {outcome : List (TurnEffect × Bool)} (calls : ∀ messages ∈ r.calls, Valid messages)
    (asked : Asked r.history toolResults toolUses) :
    (r.nextCall config toolUses toolResults outcome).Sound := by
  cases toolUses with
  | nil =>
    have valid : Valid (r.append ⟨.user, .list toolResults⟩).history := asked.answered
    simp only [nextCall]
    split
    · exact ⟨calls, valid⟩
    · exact callAnthropic_sound calls valid
  | cons block rest =>
    simp only [nextCall]
    split
    · exact ⟨calls, asked⟩
    · exact ⟨calls, asked⟩

theorem respond_sound {response : Response} (calls : ∀ messages ∈ r.calls, Valid messages)
    (valid : Valid r.history) : (r.respond config response).Sound := by
  unfold respond
  split
  · simp only
    split
    · refine ⟨calls, ?_⟩
      exact valid.snoc (by simp [answers, blocks, Block.resultId])
        (by simp [uses, blocks, Block.useId])
    · exact ⟨calls, valid⟩
  · refine nextCall_sound calls ⟨r.history, _, rfl, valid, ?_, ?_⟩
    · exact serialize_answers response.content
    · simpa [uses, blocks] using serialize_uses response.content

theorem executed_sound {round : Round} {content : Json} {isError : Bool} {recorded : TurnEffect × Bool}
    (calls : ∀ messages ∈ r.calls, Valid messages)
    (asked : Asked r.history round.toolResults (round.block :: round.rest)) :
    (r.executed config round content isError recorded).Sound := by
  unfold executed
  simp only
  split
  · exact ⟨calls, asked, rfl⟩
  · exact nextCall_sound calls (asked.result rfl)

theorem onTurn_sound {turn : Turn} (sound : r.Sound) (idle : r.phase = .idle) : (r.onTurn turn).Sound := by
  obtain ⟨calls, valid⟩ := sound
  rw [idle] at valid
  have opening : Valid (turn.opening r.messageHistory) := by
    unfold Turn.opening
    split
    · rename_i history _
      exact history.2
    · exact valid
  have plain : ∀ text, (Message.mk .user (.str text)).answers = [] ∧
      (Message.mk .user (.str text)).uses = [] := by
    intro text
    simp [Message.answers, Message.uses, Message.blocks, Block.resultId]
  -- whatever updates stand before it, the turn adds user texts only
  have grows : ∀ added : List Message, (∀ m ∈ added, m.answers = [] ∧ m.uses = []) →
      ∀ history, Valid history → Valid (history ++ added) := by
    intro added
    induction added with
    | nil => simp
    | cons m rest ih =>
      intro silent history valid
      rw [append_cons]
      obtain ⟨answers, uses⟩ := silent m (by simp)
      exact ih (fun m mem => silent m (by simp [mem])) _ (valid.snoc answers uses)
  refine callAnthropic_sound calls (grows _ ?_ _ opening)
  intro m mem
  simp only [Turn.added, mem_append, mem_singleton] at mem
  rcases mem with (update | update) | rfl
  · split at update
    · split at update
      · simp at update
      · rw [mem_singleton.1 update]
        exact plain _
    · simp at update
  · split at update
    · split at update
      · simp at update
      · rw [mem_singleton.1 update]
        exact plain _
    · simp at update
  · exact plain _

theorem resume_sound {answer : Answer} (sound : r.Sound) (allowed : uninterrupted r (.resume answer))
    (stepped : r.resume config answer = some r') : r'.Sound := by
  obtain ⟨calls, holds⟩ := sound
  cases phase : r.phase with
  | idle => simp [resume, phase] at stepped
  | calling =>
    rw [phase] at holds
    cases answer with
    | response response =>
      simp only [resume, phase] at stepped
      cases stepped
      exact respond_sound calls holds
    | raised | cancelled =>
      simp only [resume, phase] at stepped
      cases stepped
      exact ⟨calls, holds⟩
    | returned | executed => simp [resume, phase] at stepped
  | reportingFailure =>
    rw [phase] at holds
    cases answer with
    | returned | raised | cancelled =>
      simp only [resume, phase] at stepped
      cases stepped
      exact ⟨calls, holds⟩
    | response | executed => simp [resume, phase] at stepped
  | reportingCall round =>
    rw [phase] at holds
    cases answer with
    | returned | raised =>
      simp only [resume, phase] at stepped
      cases stepped
      exact ⟨calls, holds⟩
    | cancelled => simp [uninterrupted, phase, Phase.inRound] at allowed
    | response | executed => simp [resume, phase] at stepped
  | executing round =>
    rw [phase] at holds
    cases answer with
    | executed | raised =>
      simp only [resume, phase] at stepped
      cases stepped
      exact executed_sound calls holds
    | cancelled => simp [uninterrupted, phase, Phase.inRound] at allowed
    | returned | response => simp [resume, phase] at stepped
  | reportingResult round result =>
    rw [phase] at holds
    cases answer with
    | returned | raised =>
      simp only [resume, phase] at stepped
      cases stepped
      exact nextCall_sound calls (holds.1.result holds.2)
    | cancelled => simp [uninterrupted, phase, Phase.inRound] at allowed
    | response | executed => simp [resume, phase] at stepped
  | emittingUsage =>
    rw [phase] at holds
    cases answer with
    | returned | cancelled =>
      simp only [resume, phase] at stepped
      cases stepped
      exact ⟨calls, holds⟩
    | raised | response | executed => simp [resume, phase] at stepped

theorem step_sound {e : Event} (sound : r.Sound) (allowed : uninterrupted r e)
    (stepped : r.step config e = some r') : r'.Sound := by
  cases e with
  | turn turn =>
    simp only [step] at stepped
    split at stepped
    · rename_i idle
      cases stepped
      exact onTurn_sound sound idle
    · cases stepped
  | cleanup =>
    simp only [step] at stepped
    split at stepped
    · rename_i idle
      cases stepped
      refine ⟨sound.1, ?_⟩
      simp only [idle]
      exact Valid.nil
    · cases stepped
  | resume answer => exact resume_sound sound allowed stepped

end Room

/-- **Every list of messages the API is called with is valid**, in every run in which no tool round
is cancelled. -/
theorem live_history_valid (config : Config) {r : Room}
    (reached : ((room config).restrict uninterrupted).Reachable r) :
    ∀ messages ∈ r.calls, Valid messages := by
  have sound : r.Sound := by
    refine reached.invariant ?_ ?_
    · rintro s rfl
      exact ⟨by simp, Valid.nil⟩
    · intro s e t sound stepped
      obtain ⟨allowed, ran⟩ := Machine.restrict_step stepped
      exact Room.step_sound sound allowed ran
  exact sound.1

/-! ## Runs -/

def firstTurn : Turn where
  bootstrap := none
  participantsMsg := none
  contactsMsg := none
  inputs := "[Ann]: hello"

def asksTool : Response where
  content := [.toolUse "tool-1" "lookup" .null]
  stopReason := "tool_use"
  agrees := by simp [ApiBlock.toolUse?]

/-- One call, answered: the API is called again with the result. -/
theorem live_history_valid_answered : ∃ r,
    ((room ⟨false, fun _ => false⟩).restrict uninterrupted).Reachable r ∧ r.calls.length = 2 ∧
      ∀ messages ∈ r.calls, Valid messages := by
  have ran : (((room ⟨false, fun _ => false⟩).restrict uninterrupted).run {}
      [.turn firstTurn, .resume (.response asksTool), .resume (.executed ⟨.null, true, .observe⟩)]).map
      (fun r => r.calls.length) = some 2 := by rfl
  obtain ⟨r, run, made⟩ := Option.map_eq_some_iff.1 ran
  have reached : ((room ⟨false, fun _ => false⟩).restrict uninterrupted).Reachable r :=
    ⟨{}, rfl, _, run⟩
  exact ⟨r, reached, made, live_history_valid _ reached⟩

/-- A turn cancelled while its tool runs, then the next turn: the API is called with a call that
nothing answers. -/
theorem interrupted_call_unanswered : ∃ r, (room ⟨false, fun _ => false⟩).Reachable r ∧
    ∃ messages ∈ r.calls, ¬ Valid messages := by
  let unanswered : List Message :=
    [⟨.user, .str "[Ann]: hello"⟩, ⟨.assistant, .list [.toolUse "tool-1" "lookup" .null]⟩,
      ⟨.user, .str "[Ann]: hello"⟩]
  have ran : ((room ⟨false, fun _ => false⟩).run {}
      [.turn firstTurn, .resume (.response asksTool), .resume .cancelled, .resume .cancelled,
        .turn firstTurn]).map (fun r => r.calls) = some [unanswered.take 1, unanswered] := by rfl
  obtain ⟨r, run, calls⟩ := Option.map_eq_some_iff.1 ran
  refine ⟨r, ⟨{}, rfl, _, run⟩, unanswered, by simp [calls], fun valid => ?_⟩
  have follows := valid.follows
  simp [unanswered, Message.Follows, answers, uses, blocks, Block.useId,
    Block.resultId, filterMap_cons] at follows

end BandSdk.Adapters.Anthropic

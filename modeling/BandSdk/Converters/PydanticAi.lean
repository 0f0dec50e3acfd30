/-
# Converters.PydanticAi -- Pydantic AI messages from a room's history

`convert` batches the calls of a history into responses and their results into
requests.  A provider takes a response with calls only when the request right
after it answers exactly those calls (`Paired`).

The converter keeps to that while it gathers calls and then results, and drops
this agent's own text in the meantime.  It does not hold back what ends a round
early: another participant's text, or anything of this agent but a result once
the round was asked.  `Parts` says which rows those are, and the converted
messages are paired exactly where no such row comes while a call is unanswered.
-/
import Mathlib
import BandSdk.Converters.AnthropicResults

namespace BandSdk.Converters.PydanticAi

open List

open BandSdk.Theory (Json)
open BandSdk.Converters.Anthropic (Mark callIds resultIds Correlated callIds_append known_of_correlated)

/-! ## Messages -/

structure ToolCallPart where
  toolName : String
  args : List (String × Json)
  toolCallId : String

/-- `ToolReturnPart | RetryPromptPart`. -/
inductive ResultPart where
  | toolReturn (toolName content toolCallId : String)
  | retryPrompt (content toolName toolCallId : String)

def ResultPart.toolCallId : ResultPart → String
  | .toolReturn _ _ toolCallId | .retryPrompt _ _ toolCallId => toolCallId

inductive RequestPart where
  | userPrompt (content : String)
  | result (part : ResultPart)

/-- The call a part of a request answers. -/
def RequestPart.answered : RequestPart → Option String
  | .userPrompt _ => none
  | .result part => some part.toolCallId

inductive ResponsePart where
  | text (content : String)
  | toolCall (part : ToolCallPart)

def ResponsePart.asked : ResponsePart → Option String
  | .text _ => none
  | .toolCall part => some part.toolCallId

inductive Message where
  | request (parts : List RequestPart)
  | response (parts : List ResponsePart)

namespace Message

def asks : Message → List String
  | .request _ => []
  | .response parts => parts.filterMap ResponsePart.asked

def answers : Message → List String
  | .request parts => parts.filterMap RequestPart.answered
  | .response _ => []

/-- A request each part of which answers one of the calls, and every call one part. -/
def Replies (ids : List String) : Message → Prop
  | .request parts => (parts.map RequestPart.answered).Perm (ids.map some)
  | .response _ => False

end Message

/-- A response with calls is followed at once by a request that answers exactly those. -/
def Paired (messages : List Message) : Prop :=
  ∀ before m after, messages = before ++ m :: after → m.asks ≠ [] →
    ∃ next rest, after = next :: rest ∧ next.Replies m.asks

/-! ## The converter -/

/-- The messages so far, and the calls and results not yet in one. -/
structure Draft where
  messages : List Message := []
  pendingToolCalls : List ToolCallPart := []
  pendingToolResults : List ResultPart := []

namespace Draft

variable (d : Draft)

def flushPendingToolCalls : Draft :=
  if d.pendingToolCalls = [] then d
  else
    { d with
      messages := d.messages ++ [.response (d.pendingToolCalls.map .toolCall)]
      pendingToolCalls := [] }

def flushPendingToolResults : Draft :=
  if d.pendingToolResults = [] then d
  else
    { d with
      messages := d.messages ++ [.request (d.pendingToolResults.map .result)]
      pendingToolResults := [] }

end Draft

/-- A text row of this agent; an agent without a name has none. -/
def isOwn (agentName : String) (row : Row) : Bool :=
  row.role.getD .user = .assistant && agentName ≠ "" && row.sender = agentName

variable (codec : Codec) (agentName : String)

def handleToolCall (d : Draft) (content : String) : Draft :=
  let d := d.flushPendingToolResults
  match parseToolCall codec content with
  | some parsed =>
    { d with pendingToolCalls := d.pendingToolCalls ++
        [{ toolName := parsed.name, args := parsed.args, toolCallId := parsed.toolCallId }] }
  | none => d

/-- The part that carries a result; an error asks the model to retry. -/
def resultPart (parsed : ParsedToolResult) : ResultPart :=
  if parsed.isError then .retryPrompt parsed.output parsed.name parsed.toolCallId
  else .toolReturn parsed.name parsed.output parsed.toolCallId

def handleToolResult (d : Draft) (content : String) : Draft :=
  let d := d.flushPendingToolCalls
  match parseToolResult codec content with
  | some parsed => { d with pendingToolResults := d.pendingToolResults ++ [resultPart parsed] }
  | none => d

def handleText (d : Draft) (row : Row) : Draft :=
  if isOwn agentName row ∧ d.pendingToolCalls ≠ [] then d
  else
    let d := d.flushPendingToolCalls.flushPendingToolResults
    let message : Message :=
      if isOwn agentName row then .response [.text row.body] else .request [.userPrompt row.quoted]
    { d with messages := d.messages ++ [message] }

def handle (d : Draft) (row : Row) : Draft :=
  match row.type with
  | .toolCall => handleToolCall codec d row.body
  | .toolResult => handleToolResult codec d row.body
  | .text => handleText agentName d row
  -- platform rows, and types this version does not know
  | .thought | .error | .task | .usage | .unknown => d

def convert (raw : List Row) : List Message :=
  (raw.foldl (handle codec agentName) {}).flushPendingToolCalls.flushPendingToolResults.messages

/-! ## Rows that end a round -/

def mark (row : Row) : Mark :=
  match row.type with
  | .toolCall => (parseToolCall codec row.body).elim .badCall fun call => .call call.toolCallId
  | .toolResult =>
    (parseToolResult codec row.body).elim .badResult fun result => .result result.toolCallId
  | .text => if isOwn agentName row then .own else .peer
  | .thought | .error | .task | .usage | .unknown => .other

/-- The last tool row or text of another participant, unparseable calls apart, is a call. -/
def Gathering (before : List Mark) : Prop :=
  ∃ id, (before.filter (· ∉ [.badCall, .own, .other])).getLast? = some (.call id)

/-- The last tool row or text, unparseable results apart, is a result. -/
def Answering (before : List Mark) : Prop :=
  ∃ id, (before.filter (· ∉ [.badResult, .other])).getLast? = some (.result id)

/-- A row that ends the round the rows before it are in. -/
def Parts (before : List Mark) : Mark → Prop
  | .peer => True
  | .own | .call _ => ¬ Gathering before
  | .badCall => Answering before
  | .result _ | .badResult | .other => False

/-- No row ends a round while one of the calls before it has no result. -/
def Unparted (marks : List Mark) : Prop :=
  ∀ before m after, marks = before ++ m :: after → Parts before m → ∀ id ∈ callIds before, id ∈ resultIds before

/-! ## Paired messages as a chain -/

/-- What may come right after a message. -/
def Follows (m next : Message) : Prop := m.asks ≠ [] → next.Replies m.asks

/-- What the last message asks. -/
def lastAsks (messages : List Message) : List String := (messages.getLast?.map Message.asks).getD []

@[simp] theorem lastAsks_append (messages : List Message) (m : Message) :
    lastAsks (messages ++ [m]) = m.asks := by
  simp [lastAsks]

variable {messages : List Message}

theorem isChain_append_singleton {m : Message} :
    List.IsChain Follows (messages ++ [m]) ↔
      List.IsChain Follows messages ∧ (lastAsks messages ≠ [] → m.Replies (lastAsks messages)) := by
  rw [isChain_append]
  cases last : messages.getLast? with
  | none => simp [lastAsks, last]
  | some previous => simp [lastAsks, last, Follows]

theorem paired_iff : Paired messages ↔ List.IsChain Follows messages ∧ lastAsks messages = [] := by
  induction messages with
  | nil => simp [Paired, lastAsks]
  | cons m rest ih =>
    have split : Paired (m :: rest) ↔
        (m.asks ≠ [] → ∃ next after, rest = next :: after ∧ next.Replies m.asks) ∧ Paired rest := by
      constructor
      · intro paired
        refine ⟨paired [] m rest rfl, fun before n after here => ?_⟩
        exact paired (m :: before) n after (by rw [here]; rfl)
      · rintro ⟨first, others⟩ before n after here
        cases before with
        | nil =>
          obtain ⟨rfl, rfl⟩ : m = n ∧ rest = after := by simpa using here
          exact first
        | cons _ before => exact others before n after (by simpa using (List.cons.inj here).2)
    rw [split, ih]
    cases rest with
    | nil => simp [lastAsks]
    | cons next after => simp [lastAsks, Follows, and_assoc]

open Message

open RequestPart

theorem answered_of_isChain (chain : List.IsChain Follows messages) :
    ∀ i ∈ messages.flatMap Message.asks, i ∈ messages.flatMap Message.answers ∨ i ∈ lastAsks messages := by
  induction messages using reverseRecOn with
  | nil => simp
  | append_singleton messages m ih =>
    obtain ⟨chain, replies⟩ := isChain_append_singleton.1 chain
    intro i asked
    simp only [flatMap_append, flatMap_singleton, mem_append, lastAsks_append] at asked ⊢
    rcases asked with earlier | here
    · rcases ih chain i earlier with answered | waiting
      · exact .inl (.inl answered)
      -- the last message waited for this one
      have reply := replies (ne_nil_of_mem waiting)
      cases m with
      | response parts => exact absurd reply id
      | request parts =>
        have inside : some i ∈ parts.map answered :=
          reply.mem_iff.2 (mem_map_of_mem waiting)
        left; right
        simpa [answers, mem_filterMap] using inside
    · exact .inr here

/-! ## What a draft holds -/

namespace Draft

def asked (d : Draft) : List String := lastAsks d.messages

def callsPending (d : Draft) : List String := d.pendingToolCalls.map ToolCallPart.toolCallId

def resultsPending (d : Draft) : List String := d.pendingToolResults.map ResultPart.toolCallId

/-- The draft holds these calls and these results. -/
structure Holds (calls results : List String) (d : Draft) : Prop where
  calls : d.messages.flatMap Message.asks ++ d.callsPending = calls
  results : d.messages.flatMap Message.answers ++ d.resultsPending = results
  /-- Only one of the two gathers at a time. -/
  apart : d.pendingToolCalls = [] ∨ d.pendingToolResults = []
  /-- What is still to be answered was not answered before. -/
  fresh : ∀ i ∈ d.asked ++ d.callsPending, i ∉ d.messages.flatMap Message.answers

/-- The messages so far are paired, and the calls pending may come next. -/
structure Sound (d : Draft) : Prop where
  chain : List.IsChain Follows d.messages
  next : d.pendingToolCalls ≠ [] → d.asked = []

theorem asks_calls (calls : List ToolCallPart) :
    (Message.response (calls.map .toolCall)).asks = calls.map ToolCallPart.toolCallId := by
  simp [asks, filterMap_map, Function.comp_def, ResponsePart.asked]

theorem answers_results (results : List ResultPart) :
    (Message.request (results.map .result)).answers = results.map ResultPart.toolCallId := by
  simp [answers, filterMap_map, Function.comp_def, answered]

theorem replies_results {results : List ResultPart} {ids : List String} :
    (Message.request (results.map .result)).Replies ids ↔ (results.map ResultPart.toolCallId).Perm ids := by
  have parts : (results.map result).map answered = (results.map ResultPart.toolCallId).map some := by
    simp [answered]
  rw [Message.Replies, parts, map_perm_map_iff (Option.some_injective _)]

variable (d : Draft)

@[simp] theorem flushCalls_pendingToolCalls : d.flushPendingToolCalls.pendingToolCalls = [] := by
  unfold flushPendingToolCalls
  split
  · assumption
  · rfl

@[simp] theorem flushCalls_pendingToolResults :
    d.flushPendingToolCalls.pendingToolResults = d.pendingToolResults := by
  unfold flushPendingToolCalls
  split <;> rfl

@[simp] theorem flushResults_pendingToolResults : d.flushPendingToolResults.pendingToolResults = [] := by
  unfold flushPendingToolResults
  split
  · assumption
  · rfl

@[simp] theorem flushResults_pendingToolCalls :
    d.flushPendingToolResults.pendingToolCalls = d.pendingToolCalls := by
  unfold flushPendingToolResults
  split <;> rfl

variable {calls results : List String} {d : Draft}

section

variable (holds : d.Holds calls results)
include holds

theorem Holds.flushCalls : d.flushPendingToolCalls.Holds calls results := by
  by_cases none_ : d.pendingToolCalls = []
  · rwa [flushPendingToolCalls, if_pos none_]
  have empty := holds.apart.resolve_left none_
  rw [flushPendingToolCalls, if_neg none_]
  constructor
  · simpa [asks_calls, callsPending] using holds.calls
  · simpa [resultsPending, answers] using holds.results
  · exact .inl rfl
  intro i inside
  have called : i ∈ d.asked ++ d.callsPending := by
    simp only [asked, lastAsks_append, asks_calls, callsPending, map_nil, append_nil] at inside
    exact mem_append_right _ inside
  simpa [answers] using holds.fresh i called

theorem Holds.flushResults : d.flushPendingToolResults.Holds calls results := by
  by_cases empty : d.pendingToolResults = []
  · rwa [flushPendingToolResults, if_pos empty]
  have none_ := holds.apart.resolve_right empty
  rw [flushPendingToolResults, if_neg empty]
  constructor
  · simpa [callsPending, asks] using holds.calls
  · simpa [answers_results, resultsPending] using holds.results
  · exact .inr rfl
  · simp [asked, asks, callsPending, none_]

omit holds in
theorem sound_flushCalls : d.flushPendingToolCalls.Sound ↔ d.Sound := by
  by_cases none_ : d.pendingToolCalls = []
  · rw [flushPendingToolCalls, if_pos none_]
  rw [flushPendingToolCalls, if_neg none_]
  constructor
  · intro sound
    obtain ⟨chain, replies⟩ := isChain_append_singleton.1 sound.chain
    refine ⟨chain, fun _ => ?_⟩
    -- a response answers nothing
    by_contra waiting
    exact replies waiting
  · intro sound
    refine ⟨isChain_append_singleton.2 ⟨sound.chain, fun waiting => ?_⟩, by simp⟩
    exact absurd (sound.next none_) waiting

/-- Where the messages so far are paired, the results pending answer the last message. -/
theorem Holds.results_asked (sound : d.Sound) (known : ∀ i ∈ results, i ∈ calls) (distinct : results.Nodup) :
    ∀ i ∈ d.resultsPending, i ∈ d.asked := by
  intro i pending
  have none_ : d.pendingToolCalls = [] := by
    refine holds.apart.resolve_right ?_
    rintro empty
    simp [resultsPending, empty] at pending
  have called := known i (by rw [← holds.results]; exact mem_append_right _ pending)
  rw [← holds.calls, callsPending, none_, map_nil, append_nil] at called
  rcases answered_of_isChain sound.chain i called with answered | waiting
  · rw [← holds.results] at distinct
    exact absurd rfl ((nodup_append.1 distinct).2.2 i answered i pending)
  · exact waiting

theorem Holds.nodup_asked (unique : calls.Nodup) : d.asked.Nodup := by
  rw [← holds.calls] at unique
  unfold asked lastAsks
  cases last : d.messages.getLast? with
  | none => simp
  | some m =>
    obtain ⟨front, whole⟩ := getLast?_eq_some_iff.1 last
    rw [whole] at unique
    simp only [flatMap_append, flatMap_singleton, append_assoc] at unique
    exact (nodup_append.1 (nodup_append.1 unique).2.1).1

/-- Flushing results keeps the messages paired where they answer all that was asked. -/
theorem Holds.sound_flushResults (unique : calls.Nodup)
    (distinct : results.Nodup) (known : ∀ i ∈ results, i ∈ calls) :
    d.flushPendingToolResults.Sound ↔
      d.Sound ∧ (d.pendingToolResults ≠ [] → ∀ i ∈ d.asked, i ∈ d.resultsPending) := by
  by_cases empty : d.pendingToolResults = []
  · simp [flushPendingToolResults, empty]
  have none_ := holds.apart.resolve_right empty
  rw [flushPendingToolResults, if_neg empty]
  constructor
  · intro sound
    obtain ⟨chain, replies⟩ := isChain_append_singleton.1 sound.chain
    refine ⟨⟨chain, by simp [none_]⟩, fun _ i waiting => ?_⟩
    exact (replies_results.1 (replies (ne_nil_of_mem waiting))).mem_iff.2 waiting
  · rintro ⟨sound, all⟩
    refine ⟨isChain_append_singleton.2 ⟨sound.chain, fun _ => replies_results.2 ?_⟩, by simp [none_]⟩
    have pending : d.resultsPending.Nodup := by
      rw [← holds.results] at distinct
      exact (nodup_append.1 distinct).2.1
    refine (perm_ext_iff_of_nodup pending (holds.nodup_asked unique)).2 fun i => ?_
    exact ⟨holds.results_asked sound known distinct i, all empty i⟩

/-- All calls have their results where nothing is pending but what answers the last message. -/
theorem Holds.answered_iff (sound : d.Sound) :
    (∀ i ∈ calls, i ∈ results) ↔ d.pendingToolCalls = [] ∧ ∀ i ∈ d.asked, i ∈ d.resultsPending := by
  constructor
  · intro all
    constructor
    · by_contra some_
      have empty : d.resultsPending = [] := by
        simp [resultsPending, holds.apart.resolve_left some_]
      obtain ⟨call, inside⟩ := exists_mem_of_ne_nil _ some_
      have pending : call.toolCallId ∈ d.callsPending := mem_map_of_mem inside
      have answered := all _ (by rw [← holds.calls]; exact mem_append_right _ pending)
      rw [← holds.results, empty, append_nil] at answered
      exact holds.fresh _ (mem_append_right _ pending) answered
    · intro i waiting
      have called : i ∈ calls := by
        rw [← holds.calls]
        refine mem_append_left _ ?_
        unfold asked lastAsks at waiting
        cases last : d.messages.getLast? with
        | none => simp [last] at waiting
        | some m =>
          exact mem_flatMap.2 ⟨m, mem_of_getLast? last, by simpa [last] using waiting⟩
      have answered := all i called
      rw [← holds.results] at answered
      exact (mem_append.1 answered).resolve_left (holds.fresh i (mem_append_left _ waiting))
  · rintro ⟨none_, all⟩ i called
    rw [← holds.calls, callsPending, none_, map_nil, append_nil] at called
    rw [← holds.results]
    rcases answered_of_isChain sound.chain i called with answered | waiting
    · exact mem_append_left _ answered
    · exact mem_append_right _ (all i waiting)

end

end Draft

/-! ## One row -/

namespace Draft

def addCall (d : Draft) (part : ToolCallPart) : Draft :=
  { d with pendingToolCalls := d.pendingToolCalls ++ [part] }

def addResult (d : Draft) (part : ResultPart) : Draft :=
  { d with pendingToolResults := d.pendingToolResults ++ [part] }

def addText (d : Draft) (m : Message) : Draft := { d with messages := d.messages ++ [m] }

/-- What a row does to a draft, by what it is to the converter. -/
inductive Moves (d : Draft) : Mark → Draft → Prop
  | call (part : ToolCallPart) : Moves d (.call part.toolCallId) (d.flushPendingToolResults.addCall part)
  | badCall : Moves d .badCall d.flushPendingToolResults
  | result (part : ResultPart) : Moves d (.result part.toolCallId) (d.flushPendingToolCalls.addResult part)
  | badResult : Moves d .badResult d.flushPendingToolCalls
  /-- Own text amid calls is the side effect of one of them. -/
  | dropped (calling : d.pendingToolCalls ≠ []) : Moves d .own d
  | own (idle : d.pendingToolCalls = []) (content : String) :
      Moves d .own (d.flushPendingToolResults.addText (.response [.text content]))
  | peer (content : String) :
      Moves d .peer
        (d.flushPendingToolCalls.flushPendingToolResults.addText (.request [.userPrompt content]))
  | other : Moves d .other d

end Draft

theorem toolCallId_resultPart (parsed : ParsedToolResult) :
    (resultPart parsed).toolCallId = parsed.toolCallId := by
  unfold resultPart
  split <;> rfl

open Draft

theorem handle_moves (d : Draft) (row : Row) :
    d.Moves (mark codec agentName row) (handle codec agentName d row) := by
  unfold mark handle
  cases row.type with
  | toolCall =>
    simp only [handleToolCall]
    cases parseToolCall codec row.body with
    | none => exact .badCall
    | some parsed => exact .call { toolName := parsed.name, args := parsed.args, toolCallId := parsed.toolCallId }
  | toolResult =>
    simp only [handleToolResult]
    cases parseToolResult codec row.body with
    | none => exact .badResult
    | some parsed =>
      simp only [Option.elim_some, ← toolCallId_resultPart parsed]
      exact .result (resultPart parsed)
  | text =>
    simp only [handleText]
    by_cases own : isOwn agentName row = true
    · by_cases idle : d.pendingToolCalls = []
      · simp only [own, if_true, idle, ne_eq, not_true_eq_false, and_false, if_false]
        have same : d.flushPendingToolCalls = d := by rw [flushPendingToolCalls, if_pos idle]
        rw [same]
        exact .own idle row.body
      · simp only [own, if_true, ne_eq, idle, not_false_eq_true, and_self]
        exact .dropped idle
    · simp only [own, Bool.false_eq_true, if_false, false_and]
      exact .peer row.quoted
  | thought | error | task | usage | unknown => exact .other

namespace Draft

variable {calls results : List String} {d : Draft}

/-- Nothing is asked after the results pending are out, exactly if they answer all that was. -/
theorem Holds.closed_iff (holds : d.Holds calls results) (unique : calls.Nodup)
    (distinct : results.Nodup) (known : ∀ i ∈ results, i ∈ calls) :
    (d.flushPendingToolResults.Sound ∧ d.flushPendingToolResults.asked = []) ↔
      d.Sound ∧ ∀ i ∈ d.asked, i ∈ d.resultsPending := by
  rw [holds.sound_flushResults unique distinct known]
  by_cases empty : d.pendingToolResults = []
  · simp [flushPendingToolResults, empty, resultsPending, eq_nil_iff_forall_not_mem]
  have closed : d.flushPendingToolResults.asked = [] := by
    simp [flushPendingToolResults, empty, asked, asks]
  simp [empty, closed]

theorem sound_addText {m : Message} (silent : ∀ ids ≠ [], ¬ m.Replies ids)
    (none_ : d.pendingToolCalls = []) : (d.addText m).Sound ↔ d.Sound ∧ d.asked = [] := by
  constructor
  · intro sound
    obtain ⟨chain, replies⟩ := isChain_append_singleton.1 sound.chain
    refine ⟨⟨chain, fun calling => absurd none_ calling⟩, ?_⟩
    by_contra waiting
    exact silent _ waiting (replies waiting)
  · rintro ⟨sound, closed⟩
    refine ⟨isChain_append_singleton.2 ⟨sound.chain, fun waiting => absurd closed waiting⟩, ?_⟩
    exact fun calling => absurd none_ calling

theorem sound_addCall (part : ToolCallPart) : (d.addCall part).Sound ↔ d.Sound ∧ d.asked = [] := by
  constructor
  · intro sound
    have closed : d.asked = [] := sound.next (by simp [addCall])
    exact ⟨⟨sound.chain, fun _ => closed⟩, closed⟩
  · rintro ⟨sound, closed⟩
    exact ⟨sound.chain, fun _ => closed⟩

theorem sound_addResult (part : ResultPart) : (d.addResult part).Sound ↔ d.Sound :=
  ⟨fun sound => ⟨sound.chain, sound.next⟩, fun sound => ⟨sound.chain, sound.next⟩⟩

theorem userPrompt_silent (content : String) :
    ∀ ids ≠ [], ¬ (Message.request [.userPrompt content]).Replies ids := by
  intro ids _ replies
  have inside : none ∈ ids.map some := replies.mem_iff.1 (by simp [answered])
  simp at inside

end Draft

variable {before : List Mark} {m : Mark}

theorem gathering_append :
    Gathering (before ++ [m]) ↔
      match m with
      | .call _ => True
      | .badCall | .own | .other => Gathering before
      | .result _ | .badResult | .peer => False := by
  cases m <;> simp [Gathering]

theorem answering_append :
    Answering (before ++ [m]) ↔
      match m with
      | .result _ => True
      | .badResult | .other => Answering before
      | .call _ | .badCall | .own | .peer => False := by
  cases m <;> simp [Answering]

/-- A draft after these rows. -/
structure Kept (before : List Mark) (d : Draft) : Prop where
  holds : d.Holds (callIds before) (resultIds before)
  gathering : Gathering before ↔ d.pendingToolCalls ≠ []
  answering : Answering before ↔ d.pendingToolResults ≠ []

theorem correlated_init {before after : List Mark} (correlated : Correlated (before ++ after)) :
    Correlated before := by
  constructor
  · exact (nodup_append.1 (callIds_append before after ▸ correlated.calls)).1
  · have whole := correlated.results
    rw [resultIds, filterMap_append] at whole
    exact (nodup_append.1 whole).1
  · intro front id since split
    exact correlated.earlier front id (since ++ after) (by rw [split]; simp)

theorem kept_moves {d d' : Draft} (kept : Kept before d)
    (correlated : Correlated (before ++ [m])) (moves : d.Moves m d') : Kept (before ++ [m]) d' := by
  obtain ⟨holds, gathering, answering⟩ := kept
  have results_append : resultIds (before ++ [m]) = resultIds before ++ resultIds [m] :=
    filterMap_append
  cases moves with
  | call part =>
    obtain ⟨calls, results, apart, fresh⟩ := holds.flushResults
    have first : part.toolCallId ∉ resultIds before := by
      intro answered
      have called := known_of_correlated (correlated_init correlated) _ answered
      have unique := correlated.calls
      rw [callIds_append] at unique
      exact (nodup_append.1 unique).2.2 _ called _ (by simp [callIds]) rfl
    refine ⟨⟨?_, ?_, ?_, ?_⟩, ?_, ?_⟩
    · rw [callIds_append, ← calls]
      simp [addCall, callsPending, callIds]
    · rw [results_append, ← results]
      simp [addCall, resultsPending, resultIds]
    · exact .inr (by simp [addCall])
    · intro i inside answered
      have earlier : i ∈ resultIds before := results ▸ mem_append_left _ answered
      simp only [addCall, asked, callsPending, map_append, map_cons,
        map_nil, mem_append, mem_singleton] at inside
      rcases inside with waiting | called | here
      · exact fresh i (mem_append_left _ waiting) answered
      · exact fresh i (mem_append_right _ called) answered
      · exact first (here ▸ earlier)
    · simp [gathering_append, addCall]
    · simp [answering_append, addCall]
  | badCall =>
    refine ⟨?_, ?_, ?_⟩
    · simpa [callIds, resultIds] using holds.flushResults
    · simpa [gathering_append] using gathering
    · simp [answering_append]
  | result part =>
    obtain ⟨calls, results, apart, fresh⟩ := holds.flushCalls
    refine ⟨⟨?_, ?_, ?_, ?_⟩, ?_, ?_⟩
    · rw [callIds_append, ← calls]
      simp [addResult, callsPending, callIds]
    · rw [results_append, ← results]
      simp [addResult, resultsPending, resultIds]
    · exact .inl (by simp [addResult])
    · exact fresh
    · simp [gathering_append, addResult]
    · simp [answering_append, addResult]
  | badResult =>
    refine ⟨?_, ?_, ?_⟩
    · simpa [callIds, resultIds] using holds.flushCalls
    · simp [gathering_append]
    · simpa [answering_append] using answering
  | dropped calling =>
    refine ⟨?_, ?_, ?_⟩
    · simpa [callIds, resultIds] using holds
    · simpa [gathering_append] using gathering
    · simpa [answering_append] using holds.apart.resolve_left calling
  | own idle content =>
    obtain ⟨calls, results, apart, fresh⟩ := holds.flushResults
    refine ⟨⟨?_, ?_, ?_, ?_⟩, ?_, ?_⟩
    · rw [callIds_append, ← calls]
      simp [addText, callsPending, callIds, idle, asks, ResponsePart.asked]
    · rw [results_append, ← results]
      simp [addText, resultsPending, resultIds, answers]
    · exact .inr (by simp [addText])
    · simp [addText, asked, callsPending, idle, asks, ResponsePart.asked]
    · simpa [gathering_append, addText] using gathering
    · simp [answering_append, addText]
  | peer content =>
    obtain ⟨calls, results, apart, fresh⟩ := holds.flushCalls.flushResults
    refine ⟨⟨?_, ?_, ?_, ?_⟩, ?_, ?_⟩
    · rw [callIds_append, ← calls]
      simp [addText, callsPending, callIds, asks]
    · rw [results_append, ← results]
      simp [addText, resultsPending, resultIds, answers, answered]
    · exact .inr (by simp [addText])
    · simp [addText, asked, callsPending, asks]
    · simp [gathering_append, addText]
    · simp [answering_append, addText]
  | other =>
    refine ⟨?_, ?_, ?_⟩
    · simpa [callIds, resultIds] using holds
    · simpa [gathering_append] using gathering
    · simpa [answering_append] using answering

/-- A row keeps the messages paired unless it ends a round with a call unanswered. -/
theorem sound_moves {d d' : Draft} (kept : Kept before d)
    (correlated : Correlated before) (moves : d.Moves m d') :
    d'.Sound ↔ d.Sound ∧ (Parts before m → ∀ id ∈ callIds before, id ∈ resultIds before) := by
  obtain ⟨holds, gathering, answering⟩ := kept
  have known := known_of_correlated correlated
  have closed := holds.closed_iff correlated.calls correlated.results known
  -- with no call pending, all is answered where the results pending answer what was asked
  have settled (idle : d.pendingToolCalls = []) : (d.Sound ∧ ∀ i ∈ d.asked, i ∈ d.resultsPending) ↔
      d.Sound ∧ ∀ id ∈ callIds before, id ∈ resultIds before := by
    refine and_congr_right fun sound => ?_
    rw [holds.answered_iff sound]
    simp [idle]
  cases moves with
  | call part =>
    rw [sound_addCall]
    by_cases idle : d.pendingToolCalls = []
    · rw [closed, settled idle]
      simp [Parts, gathering, idle]
    · have empty := holds.apart.resolve_left idle
      have same : d.flushPendingToolResults = d := by rw [flushPendingToolResults, if_pos empty]
      rw [same]
      simp only [Parts, gathering, ne_eq, idle, not_false_eq_true, not_true_eq_false, false_implies, and_true]
      exact and_iff_left_of_imp fun sound => sound.next idle
  | badCall =>
    rw [holds.sound_flushResults correlated.calls correlated.results known]
    by_cases empty : d.pendingToolResults = []
    · simp [Parts, answering, empty]
    · have idle := holds.apart.resolve_right empty
      simpa [Parts, answering, empty] using settled idle
  | result part => simp [sound_addResult, sound_flushCalls, Parts]
  | badResult => simp [sound_flushCalls, Parts]
  | dropped calling => simp [Parts, gathering, calling]
  | own idle content =>
    rw [sound_addText (fun ids _ => id) (by simpa using idle), closed, settled idle]
    simp [Parts, gathering, idle]
  | peer content =>
    have holdsC := holds.flushCalls
    rw [sound_addText (userPrompt_silent content) (by simp),
      holdsC.closed_iff correlated.calls correlated.results known, sound_flushCalls]
    simp only [Parts, true_implies]
    refine and_congr_right fun sound => ?_
    rw [holdsC.answered_iff (sound_flushCalls.2 sound)]
    simp
  | other => simp [Parts]

/-! ## All rows -/

theorem kept_foldl (raw : List Row) (correlated : Correlated (raw.map (mark codec agentName))) :
    Kept (raw.map (mark codec agentName)) (raw.foldl (handle codec agentName) {}) := by
  induction raw using reverseRecOn with
  | nil =>
    refine ⟨⟨rfl, rfl, .inl rfl, ?_⟩, ?_, ?_⟩
    · exact fun _ _ => not_mem_nil
    · simp [Gathering]
    · simp [Answering]
  | append_singleton raw row ih =>
    rw [map_append] at correlated ⊢
    rw [foldl_append]
    exact kept_moves (ih (correlated_init correlated)) correlated (handle_moves codec agentName _ row)

theorem unparted_append :
    Unparted (before ++ [m]) ↔
      Unparted before ∧ (Parts before m → ∀ id ∈ callIds before, id ∈ resultIds before) := by
  constructor
  · intro unparted
    refine ⟨fun front n since split => ?_, unparted before m [] rfl⟩
    exact unparted front n (since ++ [m]) (by rw [split]; simp)
  · rintro ⟨earlier, last⟩ front n since split
    rcases eq_nil_or_concat since with rfl | ⟨since, final, rfl⟩
    · obtain ⟨rfl, rfl⟩ : before = front ∧ m = n := by simpa using append_inj' split rfl
      exact last
    · rw [concat_eq_append, ← cons_append, ← append_assoc] at split
      exact earlier front n since (append_inj' split rfl).1

theorem sound_foldl (raw : List Row) (correlated : Correlated (raw.map (mark codec agentName))) :
    (raw.foldl (handle codec agentName) {}).Sound ↔ Unparted (raw.map (mark codec agentName)) := by
  induction raw using reverseRecOn with
  | nil =>
    constructor
    · intro _ before m after split
      exact absurd split (by simp)
    · exact fun _ => ⟨.nil, fun calling => absurd rfl calling⟩
  | append_singleton raw row ih =>
    rw [map_append] at correlated ⊢
    have earlier := correlated_init correlated
    rw [foldl_append, map_singleton, unparted_append, ← ih earlier]
    exact sound_moves (kept_foldl codec agentName raw earlier) earlier
      (handle_moves codec agentName _ row)

/-- **When calls are answered next.**  Over a history whose ids are unique, whose
results all have an earlier call and whose calls all have a result, each converted
response with calls is followed at once by a request that answers exactly those,
if and only if no row ends a round while a call before it has no result: no text
of another participant, and no own text or call once the round was asked. -/
theorem paired_iff_unparted (raw : List Row) (correlated : Correlated (raw.map (mark codec agentName)))
    (answered : ∀ id ∈ callIds (raw.map (mark codec agentName)),
      id ∈ resultIds (raw.map (mark codec agentName))) :
    Paired (convert codec agentName raw) ↔ Unparted (raw.map (mark codec agentName)) := by
  obtain ⟨holds, -, -⟩ := kept_foldl codec agentName raw correlated
  rw [← sound_foldl codec agentName raw correlated, convert]
  generalize raw.foldl (handle codec agentName) {} = d at holds
  have closed := holds.flushCalls.closed_iff correlated.calls correlated.results
    (known_of_correlated correlated)
  rw [sound_flushCalls] at closed
  rw [paired_iff]
  constructor
  · rintro ⟨chain, asked⟩
    exact (closed.1 ⟨⟨chain, by simp⟩, asked⟩).1
  · intro sound
    -- every call has its result, so the results pending answer all that was asked
    have all := (holds.flushCalls.answered_iff (sound_flushCalls.2 sound)).1 answered
    obtain ⟨sound, asked⟩ := closed.2 ⟨sound, all.2⟩
    exact ⟨sound.chain, asked⟩

/-! ### A participant who speaks while a tool runs -/

open BandSdk.Converters.Anthropic (sampleCodec sampleCall sampleResult samplePeer)

theorem interrupted_marks : [sampleCall, samplePeer, sampleResult].map (mark sampleCodec "helper") =
    [.call "t1", .peer, .result "t1"] := by
  decide +kernel

theorem interrupted_correlated :
    Correlated ([sampleCall, samplePeer, sampleResult].map (mark sampleCodec "helper")) := by
  rw [interrupted_marks, ← Anthropic.sample_marks]
  exact Anthropic.sample_correlated

theorem interrupted_parted :
    ¬ Unparted ([sampleCall, samplePeer, sampleResult].map (mark sampleCodec "helper")) := by
  rw [interrupted_marks]
  intro unparted
  have answered := unparted [.call "t1"] .peer [.result "t1"] rfl trivial "t1" (by decide)
  revert answered
  decide

theorem paired_iff_unparted_interrupted :
    ¬ Paired (convert sampleCodec "helper" [sampleCall, samplePeer, sampleResult]) := by
  rw [paired_iff_unparted sampleCodec "helper" _ interrupted_correlated ?_]
  · exact interrupted_parted
  · rw [interrupted_marks]
    decide

/-- The call is followed by the participant's text, and its result by nothing. -/
theorem interrupted_call_not_answered_next :
    ∃ raw, Correlated (raw.map (mark sampleCodec "helper")) ∧
      (∀ id ∈ callIds (raw.map (mark sampleCodec "helper")),
        id ∈ resultIds (raw.map (mark sampleCodec "helper"))) ∧
      ¬ Paired (convert sampleCodec "helper" raw) := by
  refine ⟨[sampleCall, samplePeer, sampleResult], interrupted_correlated, ?_, fun paired => ?_⟩
  · rw [interrupted_marks]
    decide
  · obtain ⟨next, rest, after, reply⟩ := paired []
      (.response [.toolCall { toolName := "search", args := [], toolCallId := "t1" }])
      [.request [.userPrompt "[ana]: any news?"], .request [.result (.toolReturn "search" "found" "t1")]]
      rfl (by simp [asks, ResponsePart.asked])
    obtain ⟨rfl, -⟩ := List.cons.inj after
    exact userPrompt_silent _ _ (by simp [asks, ResponsePart.asked]) reply

end BandSdk.Converters.PydanticAi

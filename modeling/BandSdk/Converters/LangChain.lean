/-
# Converters.LangChain -- LangChain messages from a room's history

A call row is kept until a result claims it; the two then go out as one pair, an
`AIMessage` with the call and its `ToolMessage`.  A result claims by its ids, in
their order, and by the tool's name only when no pending call has one of them.
Rows of two formats mix: a legacy row names its run, and its result may carry a
call's id inside the output, as data or as printed text.

`pairs_tool_calls` reads the pairs off as positions of rows, so that two equal
rows are still two.
-/
import Mathlib
import BandSdk.Converters.Parsing

namespace BandSdk.Converters.LangChain

open List

open BandSdk.Theory (Json)

/-! ## Messages -/

structure ToolCall where
  id : String
  name : String
  args : List (String × Json)

/-- `AIMessage | HumanMessage | ToolMessage`. -/
inductive Message where
  | ai (content : String) (toolCalls : List ToolCall)
  | human (content : String)
  | tool (content toolCallId : String)

namespace Message

def toolCalls : Message → List ToolCall
  | .ai _ toolCalls => toolCalls
  | .human _ | .tool _ _ => []

/-- Calls and results, as opposed to texts. -/
def isTool : Message → Bool
  | .ai _ toolCalls => !toolCalls.isEmpty
  | .human _ => false
  | .tool _ _ => true

end Message

structure PendingToolCall where
  name : String
  args : List (String × Json)
  matchIds : List String
  emitToolCallId : String

structure LangChainParsedToolResult where
  name : String
  /-- `str(output)`. -/
  output : String
  matchIds : List String
  emitToolCallId : String

/-! ## Reading the rows -/

variable (codec : Codec)

/-- `event.get("data")` where that is an object, else an empty one. -/
def legacyData (event : List (String × Json)) : List (String × Json) :=
  match event.lookup "data" with
  | some (.obj data) => data
  | _ => []

def parseLegacyToolCall (content : String) : Option PendingToolCall := do
  let event ← toolEvent codec content
  let toolName ← Json.strField event "name"
  let toolInput := match (legacyData event).lookup "input" with
    | some (.obj toolInput) => toolInput
    | _ => []
  let runId := Json.strField event "run_id"
  return {
    name := toolName
    args := toolInput
    matchIds := runId.toList
    emitToolCallId := runId.getD "unknown" }

/-- `re.search` of `key`, then characters other than `close`, then `close`. -/
def searchQuoted (key : List Char) (close : Char) : List Char → Option String
  | [] => none
  | x :: rest =>
    let after := (x :: rest).drop key.length
    let word := after.takeWhile (· ≠ close)
    if key.isPrefixOf (x :: rest) ∧ word ≠ [] ∧ after.contains close then some (String.ofList word)
    else searchQuoted key close rest

/-- The call's id in an output printed as text, between two apostrophes. -/
def searchToolCallId (text : String) : Option String :=
  searchQuoted ("tool_call_id=".toList ++ [Char.ofNat 39]) (Char.ofNat 39) text.toList

def truthyText (value : Option String) : Option String := value.filter (· ≠ "")

mutual

/-- `_extract_tool_call_id`. -/
def extractToolCallId : Json → Option String
  | .obj fields =>
    match Json.strField fields "tool_call_id" with
    | some value => some value
    | none =>
      match truthyText (extractFromMessages fields) with
      | some extracted => some extracted
      | none => extractFromOutput fields
  | .arr items => extractFromItems items
  | value => searchToolCallId (codec.str value)

/-- The first item that has one. -/
def extractFromItems : List Json → Option String
  | [] => none
  | item :: rest =>
    match truthyText (extractToolCallId item) with
    | some extracted => some extracted
    | none => extractFromItems rest

/-- From the items of the object's `messages`, when these are a list. -/
def extractFromMessages : List (String × Json) → Option String
  | [] => none
  | (key, value) :: rest =>
    if key = "messages" then
      match value with
      | .arr items => extractFromItems items
      | _ => none
    else extractFromMessages rest

/-- From the object's `output`, when it has one. -/
def extractFromOutput : List (String × Json) → Option String
  | [] => none
  | (key, value) :: rest =>
    if key = "output" then
      match value with
      | .null => none
      | output => extractToolCallId output
    else extractFromOutput rest

end

def parseLegacyToolResult (content : String) : Option LangChainParsedToolResult := do
  let event ← toolEvent codec content
  let toolName ← Json.strField event "name"
  let output := ((legacyData event).lookup "output").getD (.str "")
  let runId := Json.strField event "run_id"
  let extracted := extractToolCallId codec output
  let emitToolCallId ← truthyText extracted <|> runId
  return {
    name := toolName
    output := codec.str output
    matchIds := (runId.toList ++ extracted.toList).eraseDups
    emitToolCallId := emitToolCallId }

/-- A call row in the current format, or else in the legacy one. -/
def readToolCall (content : String) : Option PendingToolCall :=
  match parseToolCall codec content with
  | some parsed => some {
      name := parsed.name
      args := parsed.args
      matchIds := [parsed.toolCallId]
      emitToolCallId := parsed.toolCallId }
  | none => parseLegacyToolCall codec content

def readToolResult (content : String) : Option LangChainParsedToolResult :=
  match parseToolResult codec content with
  | some parsed => some {
      name := parsed.name
      output := parsed.output
      matchIds := [parsed.toolCallId]
      emitToolCallId := parsed.toolCallId }
  | none => parseLegacyToolResult codec content

/-! ## The converter -/

/-- Where the call that a result claims stands among the pending ones. -/
def matchingIndex (pending : List PendingToolCall) (toolName : String) (matchIds : List String) : Option Nat :=
  match matchIds.findSome? fun matchId => pending.findIdx? fun call => matchId ∈ call.matchIds with
  | some i => some i
  | none =>
    let named := (pending.zipIdx.filter fun entry => entry.1.name = toolName).map Prod.snd
    if matchIds = [] then named.getLast?
    else if named.length = 1 then named.head?
    else none

/-- `_pop_matching_tool_call`: the call and those left pending. -/
def popMatchingToolCall (pending : List PendingToolCall) (toolName : String) (matchIds : List String) :
    Option (PendingToolCall × List PendingToolCall) := do
  let i ← matchingIndex pending toolName matchIds
  let call ← pending[i]?
  return (call, pending.eraseIdx i)

/-- A call with the result that claimed it. -/
def pairOf (call : PendingToolCall) (result : LangChainParsedToolResult) : List Message :=
  let toolCallId := if result.emitToolCallId = "" then call.emitToolCallId else result.emitToolCallId
  [.ai "" [{ id := toolCallId, name := result.name, args := call.args }], .tool result.output toolCallId]

structure Draft where
  messages : List Message := []
  pendingToolCalls : List PendingToolCall := []

def isOwn (agentName : String) (row : Row) : Bool :=
  row.role = some .assistant && row.sender = agentName

def handleToolResult (d : Draft) (result : LangChainParsedToolResult) : Draft :=
  match popMatchingToolCall d.pendingToolCalls result.name result.matchIds with
  | some (call, rest) => { messages := d.messages ++ pairOf call result, pendingToolCalls := rest }
  | none => d

def handleText (agentName : String) (d : Draft) (row : Row) : Draft :=
  if isOwn agentName row then
    -- own text amid a call would come between the call and its result
    if d.pendingToolCalls ≠ [] then d else { d with messages := d.messages ++ [.ai row.body []] }
  else { d with messages := d.messages ++ [.human ("[" ++ row.sender ++ "]: " ++ row.body)] }

def handle (agentName : String) (d : Draft) (row : Row) : Draft :=
  match row.type with
  | .toolCall =>
    match readToolCall codec row.body with
    | some call => { d with pendingToolCalls := d.pendingToolCalls ++ [call] }
    | none => d
  | .toolResult =>
    match readToolResult codec row.body with
    | some result => handleToolResult d result
    | none => d
  | .text => handleText agentName d row
  | .thought | .error | .task | .usage | .unknown => d

def convert (agentName : String) (raw : List Row) : List Message :=
  (raw.foldl (handle codec agentName) {}).messages

/-! ## Which call a result claims -/

/-- What a row is to the pairing. -/
inductive Event where
  | call (call : PendingToolCall)
  | result (result : LangChainParsedToolResult)
  | other

def event (row : Row) : Event :=
  match row.type with
  | .toolCall => (readToolCall codec row.body).elim .other .call
  | .toolResult => (readToolResult codec row.body).elim .other .result
  | .text | .thought | .error | .task | .usage | .unknown => .other

variable (events : List Event)

/-- The call at this row has the first of the result's ids that any call has. -/
def CallOf (result : LangChainParsedToolResult) (i : Nat) : Prop :=
  ∃ call front id back, events[i]? = some (.call call) ∧ result.matchIds = front ++ id :: back ∧
    id ∈ call.matchIds ∧ ∀ other ∈ front, ∀ rival, .call rival ∈ events → other ∉ rival.matchIds

/-- Ids are unique, and every result's call precedes it. -/
structure Correlated : Prop where
  calls : ∀ (i j : Nat) (call rival : PendingToolCall) (id : String), events[i]? = some (.call call) →
    events[j]? = some (.call rival) → id ∈ call.matchIds → id ∈ rival.matchIds → i = j
  results : ∀ (j k : Nat) (first second : LangChainParsedToolResult) (i : Nat),
    events[j]? = some (.result first) → events[k]? = some (.result second) →
    CallOf events first i → CallOf events second i → j = k
  earlier : ∀ (j : Nat) (result : LangChainParsedToolResult), events[j]? = some (.result result) →
    ∃ i < j, CallOf events result i

/-- Calls with the results that claimed them, by the positions of their rows: each
call and each result once, and the results in order. -/
structure Matching (matching : List (Nat × Nat)) : Prop where
  calls : (matching.map Prod.fst).Nodup
  results : (matching.map Prod.snd).Pairwise (· < ·)
  rows : ∀ p ∈ matching, p.1 < p.2 ∧ ∃ call result,
    events[p.1]? = some (.call call) ∧ events[p.2]? = some (.result result)

/-- The messages of one pair of rows. -/
def emittedBy (p : Nat × Nat) : List Message :=
  match events[p.1]?, events[p.2]? with
  | some (.call call), some (.result result) => pairOf call result
  | _, _ => []

/-- A message with calls has one, and its result is the message right after it. -/
def CallsAnswered (messages : List Message) : Prop :=
  ∀ before m after, messages = before ++ m :: after → m.toolCalls ≠ [] →
    ∃ call content rest, m.toolCalls = [call] ∧ after = .tool content call.id :: rest

theorem CallsAnswered.append {messages more : List Message} (answered : CallsAnswered messages)
    (answered' : CallsAnswered more) : CallsAnswered (messages ++ more) := by
  intro before m after split asks
  rcases append_eq_append_iff.1 split with ⟨front, rfl, here⟩ | ⟨back, whole, here⟩
  · exact answered' front m after here asks
  cases back with
  | nil => exact answered' [] m after (by simpa using here.symm) asks
  | cons n back =>
    obtain ⟨rfl, rfl⟩ := List.cons.inj here
    obtain ⟨call, content, rest, one, next⟩ := answered before m back whole asks
    exact ⟨call, content, rest ++ more, one, by rw [next]; rfl⟩

theorem callsAnswered_text {m : Message} (text : m.toolCalls = []) : CallsAnswered [m] := by
  intro before n after split asks
  rcases before with _ | ⟨_, before⟩
  · obtain ⟨rfl, -⟩ := List.cons.inj split
    exact absurd text asks
  · simp at split

theorem callsAnswered_pair (call : PendingToolCall) (result : LangChainParsedToolResult) :
    CallsAnswered (pairOf call result) := by
  intro before m after split asks
  rcases before with _ | ⟨first, _ | ⟨second, before⟩⟩
  · obtain ⟨rfl, rfl⟩ := List.cons.inj split
    exact ⟨_, result.output, [], rfl, rfl⟩
  · obtain ⟨-, rest⟩ := List.cons.inj split
    obtain ⟨rfl, -⟩ := List.cons.inj rest
    exact absurd rfl asks
  · simp [pairOf] at split

theorem filter_pair (call : PendingToolCall) (result : LangChainParsedToolResult) :
    (pairOf call result).filter Message.isTool = pairOf call result := rfl

/-! ## One row -/

theorem map_eraseIdx {α β : Type*} (f : α → β) (l : List α) (k : Nat) :
    (l.eraseIdx k).map f = (l.map f).eraseIdx k := by
  rw [eraseIdx_eq_take_drop_succ, eraseIdx_eq_take_drop_succ, map_append, map_take, map_drop]

/-- What a draft holds after the first `n` rows: the pending calls are those at
`opened`, and the pairs so far are those of `matching`. -/
structure Tally (n : Nat) (d : Draft) (opened : List Nat) (matching : List (Nat × Nat)) : Prop where
  pending : opened.map (events[·]?) = d.pendingToolCalls.map fun call => some (.call call)
  distinct : (opened ++ matching.map Prod.fst).Nodup
  bound : ∀ i ∈ opened ++ matching.map Prod.fst, i < n
  covers : ∀ i < n, ∀ call, events[i]? = some (.call call) → i ∈ opened ++ matching.map Prod.fst
  matched : Matching events matching
  seen : ∀ p ∈ matching, p.2 < n
  emitted : d.messages.filter Message.isTool = matching.flatMap (emittedBy events)
  answered : CallsAnswered d.messages
  full : Correlated events → ∀ j < n, ∀ result, events[j]? = some (.result result) →
    ∃ i, (i, j) ∈ matching ∧ CallOf events result i

variable {events} {n : Nat} {d : Draft} {opened : List Nat} {matching : List (Nat × Nat)}

section

variable (tally : Tally events n d opened matching)
include tally

theorem Tally.call {call : PendingToolCall} (here : events[n]? = some (.call call)) :
    Tally events (n + 1) { d with pendingToolCalls := d.pendingToolCalls ++ [call] } (opened ++ [n])
      matching := by
  have bound : ∀ i ∈ (opened ++ [n]) ++ matching.map Prod.fst, i < n + 1 := by
    intro i inside
    simp only [mem_append, mem_singleton] at inside
    rcases inside with (earlier | now) | earlier
    · exact Nat.lt_succ_of_lt (tally.bound i (mem_append_left _ earlier))
    · omega
    · exact Nat.lt_succ_of_lt (tally.bound i (mem_append_right _ earlier))
  have fresh : n ∉ opened ++ matching.map Prod.fst := fun inside => Nat.lt_irrefl n (tally.bound n inside)
  refine ⟨?_, ?_, bound, ?_, tally.matched, ?_, tally.emitted, tally.answered, ?_⟩
  · rw [map_append, map_append, tally.pending]
    simp [here]
  · have swap : (opened ++ [n] ++ matching.map Prod.fst).Perm (n :: (opened ++ matching.map Prod.fst)) := by
      rw [append_assoc]
      exact perm_middle
    exact swap.nodup_iff.2 (nodup_cons.2 ⟨fresh, tally.distinct⟩)
  · intro i early other at_
    rcases Nat.lt_succ_iff_lt_or_eq.1 early with earlier | rfl
    · have inside := tally.covers i earlier other at_
      simp only [mem_append] at inside ⊢
      exact inside.imp .inl id
    · simp
  · exact fun p inside => Nat.lt_succ_of_lt (tally.seen p inside)
  intro correlated j early result at_
  rcases Nat.lt_succ_iff_lt_or_eq.1 early with earlier | rfl
  · exact tally.full correlated j earlier result at_
  · rw [here] at at_
    cases at_

theorem Tally.result {result : LangChainParsedToolResult}
    (here : events[n]? = some (.result result)) {k i : Nat} {call : PendingToolCall}
    (at_ : opened[k]? = some i) (pending : d.pendingToolCalls[k]? = some call)
    (named : Correlated events → CallOf events result i) :
    Tally events (n + 1)
      { messages := d.messages ++ pairOf call result, pendingToolCalls := d.pendingToolCalls.eraseIdx k }
      (opened.eraseIdx k) (matching ++ [(i, n)]) := by
  obtain ⟨inRange, rfl⟩ := List.getElem?_eq_some_iff.1 at_
  have found : events[opened[k]]? = some (.call call) := by
    have same := congrArg (·[k]?) tally.pending
    simpa [at_, pending] using same
  have early : opened[k] < n := tally.bound _ (mem_append_left _ (getElem_mem inRange))
  have swap : (opened.eraseIdx k ++ (matching ++ [(opened[k], n)]).map Prod.fst).Perm
      (opened ++ matching.map Prod.fst) := by
    rw [map_append, map_singleton]
    calc opened.eraseIdx k ++ (matching.map Prod.fst ++ [opened[k]])
      _ = (opened.eraseIdx k ++ matching.map Prod.fst) ++ [opened[k]] := (append_assoc _ _ _).symm
      _ |>.Perm (opened[k] :: (opened.eraseIdx k ++ matching.map Prod.fst)) := perm_append_singleton _ _
      _ = (opened[k] :: opened.eraseIdx k) ++ matching.map Prod.fst := rfl
      _ |>.Perm (opened ++ matching.map Prod.fst) := (getElem_cons_eraseIdx_perm inRange).append_right _
  refine ⟨?_, swap.nodup_iff.2 tally.distinct, ?_, ?_, ⟨?_, ?_, ?_⟩, ?_, ?_, ?_, ?_⟩
  · rw [map_eraseIdx, map_eraseIdx, tally.pending]
  · exact fun j inside => Nat.lt_succ_of_lt (tally.bound j (swap.mem_iff.1 inside))
  · intro j before other atJ
    rcases Nat.lt_succ_iff_lt_or_eq.1 before with earlier | rfl
    · exact swap.mem_iff.2 (tally.covers j earlier other atJ)
    · rw [here] at atJ
      cases atJ
  · exact (nodup_append.1 (swap.nodup_iff.2 tally.distinct)).2.1
  · rw [map_append, pairwise_append]
    refine ⟨tally.matched.results, pairwise_singleton _ _, ?_⟩
    intro j inside m last
    obtain ⟨p, member, rfl⟩ := mem_map.1 inside
    obtain rfl : m = n := by simpa using last
    exact tally.seen p member
  · intro p inside
    rcases mem_append.1 inside with earlier | last
    · exact tally.matched.rows p earlier
    · obtain rfl := mem_singleton.1 last
      exact ⟨early, call, result, found, here⟩
  · intro p inside
    rcases mem_append.1 inside with earlier | last
    · exact Nat.lt_succ_of_lt (tally.seen p earlier)
    · obtain rfl := mem_singleton.1 last
      exact Nat.lt_succ_self n
  · rw [filter_append, tally.emitted, filter_pair, flatMap_append]
    simp [emittedBy, found, here]
  · exact tally.answered.append (callsAnswered_pair call result)
  intro correlated j before other atJ
  rcases Nat.lt_succ_iff_lt_or_eq.1 before with earlier | rfl
  · obtain ⟨i, inside, callOf⟩ := tally.full correlated j earlier other atJ
    exact ⟨i, mem_append_left _ inside, callOf⟩
  · obtain rfl : result = other := by simpa [here] using atJ
    exact ⟨opened[k], by simp, named correlated⟩

/-- A row that is neither leaves the pairs as they are; text it adds is in no pair. -/
theorem Tally.other (more : List Message) (quiet : (∀ call, events[n]? ≠ some (.call call)) ∧
      (Correlated events → ∀ result, events[n]? ≠ some (.result result)))
    (texts : ∀ m ∈ more, m.isTool = false) (answered : CallsAnswered more) :
    Tally events (n + 1) { d with messages := d.messages ++ more } opened matching := by
  refine ⟨tally.pending, tally.distinct, ?_, ?_, tally.matched, ?_, ?_, ?_, ?_⟩
  · exact fun i inside => Nat.lt_succ_of_lt (tally.bound i inside)
  · intro i before call at_
    rcases Nat.lt_succ_iff_lt_or_eq.1 before with earlier | rfl
    · exact tally.covers i earlier call at_
    · exact absurd at_ (quiet.1 call)
  · exact fun p inside => Nat.lt_succ_of_lt (tally.seen p inside)
  · have none_ : more.filter Message.isTool = [] := filter_eq_nil_iff.2 fun m inside => by
      simp [texts m inside]
    rw [filter_append, none_, append_nil, tally.emitted]
  · exact tally.answered.append answered
  intro correlated j before result at_
  rcases Nat.lt_succ_iff_lt_or_eq.1 before with earlier | rfl
  · exact tally.full correlated j earlier result at_
  · exact absurd at_ (quiet.2 correlated result)

end

/-! ## Results that claim by id -/

theorem popMatchingToolCall_eq_some {pending rest : List PendingToolCall} {toolName : String}
    {matchIds : List String} {call : PendingToolCall}
    (popped : popMatchingToolCall pending toolName matchIds = some (call, rest)) :
    ∃ k, matchingIndex pending toolName matchIds = some k ∧ pending[k]? = some call ∧
      rest = pending.eraseIdx k := by
  simp only [popMatchingToolCall, Option.bind_eq_bind, Option.bind_eq_some_iff, Option.pure_def,
    Option.some.injEq] at popped
  obtain ⟨k, index, _, at_, same⟩ := popped
  obtain ⟨rfl, rfl⟩ := Prod.mk.inj same
  exact ⟨k, index, at_, rfl⟩

namespace Tally

section

variable (tally : Tally events n d opened matching)
include tally

theorem at_pending {k : Nat} {call : PendingToolCall} (pending : d.pendingToolCalls[k]? = some call) :
    ∃ i, opened[k]? = some i ∧ events[i]? = some (.call call) := by
  have same := congrArg (·[k]?) tally.pending
  simp only [getElem?_map, pending, Option.map_some] at same
  obtain ⟨i, at_, found⟩ := Option.map_eq_some_iff.1 same
  exact ⟨i, at_, found⟩

theorem at_opened {k i : Nat} (at_ : opened[k]? = some i) : ∃ call, d.pendingToolCalls[k]? = some call := by
  have same := congrArg List.length tally.pending
  simp only [List.length_map] at same
  obtain ⟨inRange, -⟩ := List.getElem?_eq_some_iff.1 at_
  exact ⟨_, List.getElem?_eq_getElem (same ▸ inRange)⟩

section

variable (correlated : Correlated events)
include correlated

/-- The call of a result is pending still: only another result of it could have taken it. -/
theorem pending_of_callOf {result : LangChainParsedToolResult} (here : events[n]? = some (.result result)) {i : Nat}
    (early : i < n) (callOf : CallOf events result i) : i ∈ opened := by
  have ⟨call, _, _, _, at_, _⟩ := callOf
  rcases mem_append.1 (tally.covers i early call at_) with inside | taken
  · exact inside
  obtain ⟨⟨_, j⟩, member, rfl⟩ := mem_map.1 taken
  obtain ⟨-, -, other, -, atJ⟩ := tally.matched.rows _ member
  have before : j < n := tally.seen _ member
  obtain ⟨i', member', callOf'⟩ := tally.full correlated j before other atJ
  have distinct : (matching.map Prod.snd).Nodup :=
    tally.matched.results.imp fun lt => Nat.ne_of_lt lt
  obtain ⟨rfl, -⟩ := Prod.mk.inj (inj_on_of_nodup_map distinct member' member rfl)
  exact absurd (correlated.results j n other result i' atJ here callOf' callOf) (Nat.ne_of_lt before)

theorem claims {result : LangChainParsedToolResult} (here : events[n]? = some (.result result)) :
    ∃ k i, matchingIndex d.pendingToolCalls result.name result.matchIds = some k ∧
      opened[k]? = some i ∧ CallOf events result i := by
  obtain ⟨i, early, callOf⟩ := correlated.earlier n result here
  have inside := tally.pending_of_callOf correlated here early callOf
  obtain ⟨call, front, id, back, at_, ids, named, first⟩ := callOf
  obtain ⟨k, atK⟩ := mem_iff_getElem?.1 inside
  obtain ⟨pendingCall, pending⟩ := tally.at_opened atK
  have same : pendingCall = call := by
    obtain ⟨_, atK', found⟩ := tally.at_pending pending
    obtain rfl : i = _ := by simpa [atK] using atK'
    simpa [at_] using found.symm
  subst same
  -- no pending call has one of the ids in front
  have none_ : front.findSome? (fun matchId =>
      d.pendingToolCalls.findIdx? fun call => matchId ∈ call.matchIds) = none := by
    refine findSome?_eq_none_iff.2 fun other member => findIdx?_eq_none_iff.2 fun rival waits => ?_
    obtain ⟨j, atJ⟩ := mem_iff_getElem?.1 waits
    obtain ⟨_, -, found⟩ := tally.at_pending atJ
    exact decide_eq_false (first other member rival (mem_of_getElem? found))
  cases found : d.pendingToolCalls.findIdx? fun call => id ∈ call.matchIds with
  | none =>
    have absent := findIdx?_eq_none_iff.1 found pendingCall (mem_of_getElem? pending)
    exact absurd named (of_decide_eq_false absent)
  | some k' =>
    obtain ⟨inRange, has, -⟩ := findIdx?_eq_some_iff_getElem.1 found
    obtain ⟨i', atK', found'⟩ := tally.at_pending (getElem?_eq_getElem inRange)
    -- ids are unique, so the call found by id is the call
    obtain rfl : i' = i := correlated.calls i' i _ _ id found' at_ (of_decide_eq_true has) named
    refine ⟨k', i', ?_, atK', pendingCall, front, id, back, at_, ids, named, first⟩
    simp [matchingIndex, ids, findSome?_append, none_, found]

theorem pop_ne_none {result : LangChainParsedToolResult} (here : events[n]? = some (.result result)) :
    popMatchingToolCall d.pendingToolCalls result.name result.matchIds ≠ none := by
  obtain ⟨k, i, index, atK, -⟩ := tally.claims correlated here
  obtain ⟨call, pending⟩ := tally.at_opened atK
  simp [popMatchingToolCall, index, pending]

end

/-- Every row keeps the tally, with one pair more where a result claims a call. -/
theorem step {row : Row} (agentName : String) (here : events[n]? = some (event codec row)) :
    ∃ opened' matching', Tally events (n + 1) (handle codec agentName d row) opened' matching' := by
  have idle (quiet : event codec row = .other) : Tally events (n + 1) d opened matching := by
    have stays := tally.other [] ⟨by simp [here, quiet], by simp [here, quiet]⟩
      (fun _ inside => absurd inside not_mem_nil) (fun _ _ _ split => absurd split (by simp))
    simpa using stays
  have text (m : Message) (quiet : event codec row = .other) (plain : m.isTool = false)
      (silent : m.toolCalls = []) :
      Tally events (n + 1) { d with messages := d.messages ++ [m] } opened matching :=
    tally.other [m] ⟨by simp [here, quiet], by simp [here, quiet]⟩ (by simpa using plain)
      (callsAnswered_text silent)
  unfold handle
  cases type : row.type with
  | toolCall =>
    cases read : readToolCall codec row.body with
    | none => exact ⟨opened, matching, idle (by simp [event, type, read])⟩
    | some call => exact ⟨_, _, tally.call (by simp [here, event, type, read])⟩
  | toolResult =>
    cases read : readToolResult codec row.body with
    | none => exact ⟨opened, matching, idle (by simp [event, type, read])⟩
    | some result =>
      have now : events[n]? = some (.result result) := by simp [here, event, type, read]
      simp only [handleToolResult]
      cases popped : popMatchingToolCall d.pendingToolCalls result.name result.matchIds with
      | none =>
        refine ⟨opened, matching, ?_⟩
        have stays := tally.other []
          ⟨by simp [now], fun correlated => absurd popped (tally.pop_ne_none correlated now)⟩
          (fun _ inside => absurd inside not_mem_nil)
          (fun _ _ _ split => absurd split (by simp))
        simpa using stays
      | some taken =>
        obtain ⟨call, rest⟩ := taken
        obtain ⟨k, index, pending, rfl⟩ := popMatchingToolCall_eq_some popped
        obtain ⟨i, atK, -⟩ := tally.at_pending pending
        refine ⟨_, _, tally.result now atK pending fun correlated => ?_⟩
        obtain ⟨k', i', index', atK', callOf⟩ := tally.claims correlated now
        obtain rfl : k = k' := by simpa [index] using index'
        obtain rfl : i = i' := by simpa [atK] using atK'
        exact callOf
  | text =>
    have quiet : event codec row = .other := by simp [event, type]
    refine ⟨opened, matching, ?_⟩
    simp only [handleText]
    split
    · split
      · exact idle quiet
      · exact text _ quiet rfl rfl
    · exact text _ quiet rfl rfl
  | thought | error | task | usage | unknown =>
    exact ⟨opened, matching, idle (by simp [event, type])⟩

end

end Tally

/-! ## All rows -/

theorem tally_foldl (agentName : String) (raw : List Row) (after : List Event) :
    ∃ opened matching, Tally (raw.map (event codec) ++ after) raw.length
      (raw.foldl (handle codec agentName) {}) opened matching := by
  induction raw using reverseRecOn generalizing after with
  | nil =>
    refine ⟨[], [], rfl, nodup_nil, ?_, ?_, ⟨nodup_nil, .nil, ?_⟩, ?_, rfl, ?_, ?_⟩
    · simp
    · exact fun i early => absurd early (Nat.not_lt_zero i)
    · simp
    · simp
    · exact fun _ _ _ split => absurd split (by simp)
    · exact fun _ j early => absurd early (Nat.not_lt_zero j)
  | append_singleton raw row ih =>
    obtain ⟨opened, matching, tally⟩ := ih (event codec row :: after)
    have here : (raw.map (event codec) ++ event codec row :: after)[raw.length]? = some (event codec row) := by
      simp
    simpa [foldl_append] using tally.step codec agentName here

/-- **Calls are paired with their results.**  In the messages of any history the calls
and results come as adjacent pairs, each with one id: there are positions of a call row
and a later result row for each, no row in two of them, in the order of the results.
Where ids are unique and every result's call precedes it, every result is in one, with
the arguments of its own call. -/
theorem pairs_tool_calls (agentName : String) (raw : List Row) :
    CallsAnswered (convert codec agentName raw) ∧ ∃ matching, Matching (raw.map (event codec)) matching ∧
        (convert codec agentName raw).filter Message.isTool =
          matching.flatMap (emittedBy (raw.map (event codec))) ∧
        (Correlated (raw.map (event codec)) → ∀ (j : Nat) (result : LangChainParsedToolResult),
            (raw.map (event codec))[j]? = some (.result result) →
            ∃ i, (i, j) ∈ matching ∧ CallOf (raw.map (event codec)) result i) := by
  obtain ⟨opened, matching, tally⟩ := tally_foldl codec agentName raw []
  rw [append_nil] at tally
  refine ⟨tally.answered, matching, tally.matched, tally.emitted, fun correlated j result at_ => ?_⟩
  have inRange : j < raw.length := by
    simpa using (List.getElem?_eq_some_iff.1 at_).1
  exact tally.full correlated j inRange result at_

/-! ### A legacy call left open beside a call that is answered -/

/-- A legacy call, and a call and its result in the current format, as `json.loads` reads them. -/
def sampleCodec : Codec where
  loads
    | "legacy call" =>
      some (.obj [("name", .str "search"), ("run_id", .str "r1"),
        ("data", .obj [("input", .obj [("query", .str "old")])])])
    | "call" =>
      some (.obj [("name", .str "search"), ("tool_call_id", .str "t1"), ("args", .obj [("query", .str "new")])])
    | "result" => some (.obj [("name", .str "search"), ("output", .str "found"), ("tool_call_id", .str "t1")])
    | _ => none
  str
    | .str value => value
    | _ => ""

def sampleRows : List Row := [ { messageType := some .toolCall, content := some "legacy call" },
  { messageType := some .toolCall, content := some "call" },
  { messageType := some .toolResult, content := some "result" }]

def sampleEvents : List Event := [
  .call { name := "search", args := [("query", .str "old")], matchIds := ["r1"], emitToolCallId := "r1" },
  .call { name := "search", args := [("query", .str "new")], matchIds := ["t1"], emitToolCallId := "t1" },
  .result { name := "search", output := "found", matchIds := ["t1"], emitToolCallId := "t1" }]

theorem sample_events : sampleRows.map (event sampleCodec) = sampleEvents := by
  simp [sampleRows, sampleEvents, event, readToolCall, readToolResult, parseToolCall, parseToolResult,
    parseLegacyToolCall, legacyData, toolEvent, sampleCodec, textField, Json.strField, Json.asStr, Row.type,
    Row.body, List.lookup, Option.filter]

theorem sample_callOf {result : LangChainParsedToolResult} (ids : result.matchIds = ["t1"]) {i : Nat} :
    CallOf sampleEvents result i ↔ i = 1 := by
  constructor
  · rintro ⟨call, front, id, back, at_, split, named, -⟩
    have same : id = "t1" := by
      rw [ids] at split
      rcases front with _ | ⟨_, front⟩
      · exact (List.cons.inj split).1.symm
      · simp at split
    subst same
    rcases i with _ | _ | _ | i
    · obtain ⟨rfl⟩ : _ = call := by simpa [sampleEvents] using at_
      simp at named
    · rfl
    · simp [sampleEvents] at at_
    · simp [sampleEvents] at at_
  · rintro rfl
    exact ⟨_, [], "t1", [], rfl, ids, by simp, by simp⟩

theorem sample_correlated : Correlated sampleEvents := by
  constructor
  · intro i j call rival id atI atJ named named'
    rcases i with _ | _ | _ | i <;> rcases j with _ | _ | _ | j <;> simp [sampleEvents] at atI atJ <;>
      subst atI atJ <;> simp_all
  · intro j k first second i atJ atK _ _
    rcases j with _ | _ | _ | j <;> rcases k with _ | _ | _ | k <;> simp [sampleEvents] at atJ atK
    rfl
  · intro j result at_
    rcases j with _ | _ | _ | j <;> simp [sampleEvents] at at_
    subst at_
    exact ⟨1, by omega, (sample_callOf rfl).2 rfl⟩

/-- The result takes its own call, not the older one of the same tool. -/
theorem pairs_tool_calls_sample :
    ∃ i, CallOf sampleEvents { name := "search", output := "found", matchIds := ["t1"], emitToolCallId := "t1" } i ∧
      ∃ matching, Matching sampleEvents matching ∧ (i, 2) ∈ matching := by
  obtain ⟨-, matching, matched, -, full⟩ := pairs_tool_calls sampleCodec "helper" sampleRows
  rw [sample_events] at matched full
  obtain ⟨i, inside, callOf⟩ := full sample_correlated 2 _ rfl
  exact ⟨i, callOf, matching, matched, inside⟩

end BandSdk.Converters.LangChain

/-
# Acp.Stream -- the chunk stream of one session

`ingest` coalesces text deltas, holds a call reported before its input, folds the
frames of a result, and tells the sink which calls run.  `Session` is what the
stream keeps for one session between two resets; every operation works on the
session it is called for and no other.

A chunk is a mutable object that may stand in two places: a published result is
also the one later frames are folded into.  So an item of the buffer is a chunk of
its own or the name of a result.  `clock` counts the operations; an own item keeps
the operation that brought its chunk, a result the one that published it.  `loads`
is the JSON decoder on a text without the white space around it, a parameter.
-/
import BandSdk.Theory.Json
import BandSdk.Theory.Keyed

namespace BandSdk.Acp

open BandSdk.Theory

/-! ## Chunks -/

inductive ChunkType where
  | text
  | thought
  | toolCall
  | toolResult
  | plan
  | other (name : String)
  deriving DecidableEq

namespace ToolStatus

def pending : String := "pending"

def inProgress : String := "in_progress"

def completed : String := "completed"

def failed : String := "failed"

end ToolStatus

structure ACPToolCall where
  toolCallId : String
  name : String
  arguments : List (String × Json)
  mcpServer : Option String := none
  title : Option String := none
  mcpMetadataRejected : Bool := false

/-- An identity patch of a running call. -/
structure ACPToolActivity where
  toolCallId : String
  mcpServer : Option String := none
  mcpTool : Option String := none
  mcpMetadataRejected : Bool := false
  deriving DecidableEq

structure ACPToolResult where
  call : ACPToolCall
  output : String
  status : Option String

inductive Tool where
  | call (call : ACPToolCall)
  | result (result : ACPToolResult)

/-- The metadata the stream reads; the call id may be missing, `None` or a value. -/
structure Metadata where
  toolCallId : Option (Option String) := none
  status : Option String := none
  rawInput : Option Json := none

structure CollectedChunk where
  chunkType : ChunkType
  content : String
  metadata : Metadata := {}
  fromRaw : Bool := false
  echo : Option (List (String × Json)) := none
  tool : Option Tool := none
  activity : Option ACPToolActivity := none

namespace CollectedChunk

variable (chunk : CollectedChunk)

/-- `str(chunk.metadata.get("tool_call_id", ""))`. -/
def resultId : String :=
  match chunk.metadata.toolCallId with
  | none => ""
  | some none => "None"
  | some (some id) => id

/-- `str(chunk.metadata.get("tool_call_id") or "")`. -/
def activityId : String := chunk.metadata.toolCallId.join.getD ""

/-- A pending call reported before its input. -/
def awaitsInput : Bool :=
  chunk.metadata.status = some ToolStatus.pending ∧ ¬(chunk.metadata.rawInput.any Json.truthy)

/-- A frame that only revised its call's identity. -/
def carriesNoResult : Bool := chunk.metadata.status = none ∧ chunk.content = ""

/-- The call a chunk's `tool` is, if it is one. -/
def call? : Option ACPToolCall :=
  match chunk.tool with
  | some (.call call) => some call
  | _ => none

/-- The identity of a running call after this chunk. -/
def identity (call : ACPToolActivity) : ACPToolActivity :=
  match chunk.activity with
  | some revision => if revision.mcpTool.isSome ∨ revision.mcpMetadataRejected then revision else call
  | none => call

/-- A held call under the identity an update gives it. -/
def revise (revision : ACPToolCall) : CollectedChunk :=
  { chunk with
    tool := some (.call revision)
    content := revision.name
    metadata := { chunk.metadata with rawInput := some (.obj revision.arguments) } }

end CollectedChunk

def isTerminal (status : Option String) : Bool :=
  status = some ToolStatus.completed ∨ status = some ToolStatus.failed

/-! ## Results -/

/-- Equality of floats by their bits: both zeros are equal, no NaN is. -/
def floatEqual (a b : UInt64) : Bool :=
  let magnitude := (a &&& 0x7fffffffffffffff)
  (a = b ∧ magnitude ≤ 0x7ff0000000000000) ∨ (magnitude = 0 ∧ b &&& 0x7fffffffffffffff = 0)

mutual

/-- Equality of JSON values with their types. -/
def strictJsonEqual : Json → Json → Bool
  | .null, .null => true
  | .bool a, .bool b => a = b
  | .int a, .int b => a = b
  | .float a, .float b => floatEqual a b
  | .str a, .str b => a = b
  | .arr a, .arr b => strictItemsEqual a b
  | .obj a, .obj b => a.length = b.length ∧ strictFieldsEqual a b
  | _, _ => false

def strictItemsEqual : List Json → List Json → Bool
  | [], [] => true
  | a :: as, b :: bs => strictJsonEqual a b && strictItemsEqual as bs
  | _, _ => false

/-- Each field of the first object is in the second. -/
def strictFieldsEqual : List (String × Json) → List (String × Json) → Bool
  | [], _ => true
  | (key, value) :: rest, b =>
    (match b.lookup key with
      | some other => strictJsonEqual value other
      | none => false) && strictFieldsEqual rest b

end

variable (loads : String → Option Json)

/-- A readable value followed by an exact JSON echo. -/
def isEchoOf (content readable : String) (echo : List (String × Json)) : Bool :=
  if readable.toList.isPrefixOf content.toList then
    (loads (String.ofList (content.toList.drop readable.length))).any (strictJsonEqual · (.obj echo))
  else false

/-- The order of `_result_key`. -/
def resultKeyLt (a b : CollectedChunk) : Bool :=
  let key (chunk : CollectedChunk) : Nat × Nat × Nat :=
    let hasText : Bool := chunk.content ≠ ""
    (hasText.toNat, (hasText && !chunk.fromRaw).toNat, chunk.content.length)
  (key a).1 < (key b).1 ∨
    (key a).1 = (key b).1 ∧ ((key a).2.1 < (key b).2.1 ∨ (key a).2.1 = (key b).2.1 ∧ (key a).2.2 < (key b).2.2)

def foldResult (canonical chunk : CollectedChunk) : CollectedChunk :=
  let status := chunk.metadata.status <|> canonical.metadata.status
  let best :=
    if canonical.echo.any (isEchoOf loads chunk.content canonical.content) then canonical
    else if chunk.content ≠ "" ∧ ¬chunk.fromRaw then chunk
    else if canonical.content ≠ "" ∧ ¬canonical.fromRaw then canonical
    else if resultKeyLt canonical chunk then chunk else canonical
  let tool :=
    match canonical.tool with
    | some (.result result) => some (.result { result with output := best.content, status := status })
    | tool => tool
  { canonical with
    metadata := { canonical.metadata with status := status }
    content := best.content
    fromRaw := best.fromRaw
    echo := best.echo
    tool := tool }

/-! ## A session -/

structure CallActivity where
  call : ACPToolActivity
  status : Option String := some ToolStatus.pending
  deriving DecidableEq

/-- What the sink is told about running calls. -/
inductive Notice where
  | started (call : ACPToolActivity)
  | updated (call : ACPToolActivity)
  | ended (callId : String)
  deriving DecidableEq

/-- A finalized chunk: one of its own, handed to `finalize` by a caller or not, or a result. -/
inductive Item where
  | own (origin : Nat) (direct : Bool) (chunk : CollectedChunk)
  | result (time : Nat) (callId : String)

structure Session where
  chunks : List Item := []
  results : List (String × CollectedChunk) := []
  toolCalls : List (String × ACPToolCall) := []
  emittedResults : List String := []
  openRun : Option (Nat × CollectedChunk) := none
  activityCalls : List (String × CallActivity) := []
  /-- Whether `emit` raises for a chunk. -/
  sink : Option (CollectedChunk → Bool) := none
  notices : List Notice := []
  /-- The failures of `emit` logged. -/
  logged : Nat := 0
  clock : Nat := 0
  /-- The result frames folded so far: their call and status. -/
  frames : List (String × Option String) := []

namespace Session

variable (s : Session)

/-- The chunk an item stands for now. -/
def valueOf : Item → Option CollectedChunk
  | .own _ _ chunk => some chunk
  | .result _ callId => Keyed.get callId s.results

/-- An error of the sink is logged, and nothing else comes of it. -/
def finalize (item : Item) : Session :=
  let s := { s with chunks := s.chunks ++ [item] }
  match s.sink, s.valueOf item with
  | some raises, some chunk => if raises chunk then { s with logged := s.logged + 1 } else s
  | _, _ => s

def closeOpenRun : Session :=
  match s.openRun with
  | none => s
  | some (origin, run) => { s with openRun := none }.finalize (.own origin false run)

def notify (notice : Notice) : Session :=
  if s.sink.isSome then { s with notices := s.notices ++ [notice] } else s

/-- What is known of a call; a new one is pending. -/
def activityOf (callId : String) : CallActivity :=
  (Keyed.get callId s.activityCalls).getD { call := { toolCallId := callId } }

/-- Tell the sink that a call runs, or no longer does. -/
def reportActivity (previous status : Option String) (call : ACPToolActivity) (callId : String) : Session :=
  if status = some ToolStatus.inProgress then
    s.notify (if previous = some ToolStatus.inProgress then .updated call else .started call)
  else if previous = some ToolStatus.inProgress then s.notify (.ended callId)
  else s

def observeActivity (chunk : CollectedChunk) : Session :=
  if chunk.chunkType ≠ .toolCall ∧ chunk.chunkType ≠ .toolResult then s
  else if chunk.activityId = "" then s
  else
    let callId := chunk.activityId
    let state := s.activityOf callId
    if isTerminal state.status then
      { s with activityCalls := Keyed.setItem callId state s.activityCalls }
    else
      let call := chunk.identity state.call
      let status := chunk.metadata.status <|> state.status
      { s with
        activityCalls := Keyed.setItem callId { call := call, status := status } s.activityCalls
        }.reportActivity state.status status call callId

/-- Apply `revision` to the held call it names, if any. -/
def reviseHeldCall (revision : ACPToolCall) : Bool × Session :=
  match s.openRun with
  | none => (false, s)
  | some (origin, held) =>
    if held.call?.any (·.toolCallId = revision.toolCallId) then
      (true,
        { s with
          openRun := some (origin, held.revise revision)
          toolCalls := Keyed.setItem revision.toolCallId revision s.toolCalls })
    else (false, s)

/-- A frame as a result of the call it names. -/
def resultOf (chunk : CollectedChunk) : CollectedChunk :=
  let callId := chunk.resultId
  let call :=
    (Keyed.get callId s.toolCalls).getD { toolCallId := callId, name := "unknown", arguments := [] }
  let result : ACPToolResult :=
    { call := call, output := chunk.content, status := chunk.metadata.status }
  { chunk with tool := some (.result result) }

/-- The result of a call with one more frame. -/
def canonicalOf (callId : String) (chunk : CollectedChunk) : CollectedChunk :=
  match Keyed.get callId s.results with
  | none => chunk
  | some canonical => foldResult loads canonical chunk

/-- Keep a result, and publish it once, when its call first becomes terminal. -/
def keepResult (callId : String) (status : Option String) (canonical : CollectedChunk) : Session :=
  let s :=
    { s with
      results := Keyed.setItem callId canonical s.results
      frames := s.frames ++ [(callId, status)] }
  if isTerminal canonical.metadata.status ∧ callId ∉ s.emittedResults then
    { s with emittedResults := s.emittedResults ++ [callId] }.finalize (.result s.clock callId)
  else s

def ingestToolResult (chunk : CollectedChunk) : Session :=
  let callId := chunk.resultId
  let chunk := s.resultOf chunk
  if callId = "" then s.finalize (.own s.clock false chunk)
  else s.keepResult callId chunk.metadata.status (s.canonicalOf loads callId chunk)

def rememberCall (chunk : CollectedChunk) : Session :=
  match chunk.call? with
  | some call =>
    if call.toolCallId ≠ "" then
      { s with toolCalls := Keyed.setItem call.toolCallId call s.toolCalls }
    else s
  | none => s

/-- `ingest` after the revision of a held call. -/
def admitChunk (chunk : CollectedChunk) : Session :=
  let s := s.rememberCall chunk
  if chunk.chunkType = .text ∨ chunk.chunkType = .thought then
    match s.openRun with
    | some (origin, run) =>
      if run.chunkType = chunk.chunkType then
        { s with openRun := some (origin, { run with content := run.content ++ chunk.content }) }
      else { s.closeOpenRun with openRun := some (s.clock, chunk) }
    | none => { s.closeOpenRun with openRun := some (s.clock, chunk) }
  else
    let s := s.closeOpenRun
    if chunk.chunkType = .toolResult then s.ingestToolResult loads chunk
    else if chunk.chunkType = .toolCall ∧ chunk.awaitsInput then
      { s with openRun := some (s.clock, chunk) }
    else s.finalize (.own s.clock false chunk)

def ingest (chunk : CollectedChunk) : Session :=
  let s := s.observeActivity chunk
  if chunk.chunkType = .toolResult then
    let frame := { chunk with tool := none }
    match chunk.call? with
    | some revision =>
      let (revised, s) := s.reviseHeldCall revision
      if revised ∧ chunk.carriesNoResult then s else s.admitChunk loads frame
    | none => s.admitChunk loads frame
  else s.admitChunk loads chunk

/-- Finalize the results that were never reported terminal. -/
def flushResults : List String → Session → Session
  | [], s => s
  | callId :: rest, s =>
    if callId ∈ s.emittedResults then flushResults rest s
    else
      flushResults rest
        ({ s with emittedResults := s.emittedResults ++ [callId] }.finalize (.result s.clock callId))

def flush : Session :=
  let s := s.closeOpenRun
  flushResults (s.results.map Prod.fst) s

def getCollectedChunks : List CollectedChunk := s.chunks.filterMap s.valueOf

def getCollectedText : String :=
  String.join ((s.getCollectedChunks.filter (·.chunkType = .text)).map (·.content))

end Session

/-- The operations of one session between two resets. -/
inductive Op where
  | ingest (chunk : CollectedChunk)
  | closeOpenRun
  | finalize (chunk : CollectedChunk)
  | flush

namespace Session

/-- One operation, without the clock. -/
def perform (s : Session) : Op → Session
  | .ingest chunk => s.ingest loads chunk
  | .closeOpenRun => s.closeOpenRun
  | .finalize chunk => s.finalize (.own s.clock true chunk)
  | .flush => s.flush

def step (s : Session) (op : Op) : Session := { s.perform loads op with clock := s.clock + 1 }

def run (ops : List Op) (s : Session) : Session := ops.foldl (step loads) s

end Session

end BandSdk.Acp

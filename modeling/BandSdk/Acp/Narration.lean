/-
# Acp.Narration -- the stream loses and duplicates nothing

The laws of single operations, carried along every sequence of operations of a session
from its reset, and put together in `stream_loses_nothing`.
-/
import BandSdk.Acp.Activity

namespace BandSdk.Acp

open BandSdk.Theory List Session

/-! ## Runs -/

section Runs

variable {loads : String → Option Json} {s : Session} {ops : List Op} {op : Op}

theorem run_cons : s.run loads (op :: ops) = (s.step loads op).run loads ops := rfl

theorem run_append (more : List Op) : s.run loads (ops ++ more) = (s.run loads ops).run loads more := by
  simp [run]

theorem run_clock : (s.run loads ops).clock = s.clock + ops.length := by
  induction ops generalizing s with
  | nil => rfl
  | cons op rest ih =>
    rw [run_cons, ih, length_cons]
    simp only [step]
    omega

theorem ordered_run (ordered : Ordered s.buffer) : Ordered (s.run loads ops).buffer := by
  induction ops generalizing s with
  | nil => exact ordered
  | cons op rest ih => exact ih ((step_performs loads s op).ordered ordered)

theorem settled_run {k : Nat} {call : CollectedChunk} (past : k < s.clock)
    (settled : Settled k call s.buffer) : Settled k call (s.run loads ops).buffer := by
  induction ops generalizing s with
  | nil => exact settled
  | cons op rest ih =>
    exact ih (Nat.lt_succ_of_lt past) ((step_performs loads s op).settled past settled)

theorem holding_run {k : Nat} {call : CollectedChunk} (past : k < s.clock) (holding : Holding k call s.buffer) :
    Settled k (heldThrough call ops) (s.run loads (ops ++ [.flush])).buffer := by
  induction ops generalizing s call with
  | nil =>
    rcases (step_performs loads s .flush).holding past holding [] with settled | ⟨call', held, -⟩
    · exact settled
    have closed := (step_performs loads s .flush).flush_closed
    rw [held.opened] at closed
    cases closed
  | cons op rest ih =>
    rcases (step_performs loads s op).holding past holding rest with settled | ⟨call', held, same⟩
    · exact settled_run (s := s.step loads op) (Nat.lt_succ_of_lt past) settled
    · rw [same]
      exact ih (Nat.lt_succ_of_lt past) held

theorem total_run {kind : ChunkType} (text : kind = .text ∨ kind = .thought) (plain : PlainRun s.buffer)
    (formed : ∀ op ∈ ops, op.wellFormed) :
    total kind (s.run loads ops).buffer = total kind s.buffer ++ ingestedText kind ops := by
  induction ops generalizing s with
  | nil => simp [run, ingestedText]
  | cons op rest ih =>
    have performs := step_performs loads s op
    have first := formed op (by simp)
    rw [run_cons, ih (performs.plainRun plain first) fun other mem => formed other (mem_cons_of_mem op mem)]
    rw [performs.total plain text, ingestedText, ingestedText, map_cons, String.join_cons, String.append_assoc]

theorem published_run (published : Published s.buffer) : Published (s.run loads ops).buffer := by
  induction ops generalizing s with
  | nil => exact published
  | cons op rest ih => exact ih ((step_performs loads s op).published published)

theorem frames_run : ∃ more, (s.run loads ops).frames = s.frames ++ more := by
  induction ops generalizing s with
  | nil => exact ⟨[], by simp [run]⟩
  | cons op rest ih =>
    obtain ⟨first, one⟩ := (step_performs loads s op).frames_grow
    obtain ⟨more, many⟩ := ih (s := s.step loads op)
    refine ⟨first ++ more, ?_⟩
    rw [run_cons, many, ← append_assoc]
    exact congrArg (· ++ more) one

theorem told_run (told : Session.Told s) (formed : ∀ op ∈ ops, op.wellFormed) :
    Session.Told (s.run loads ops) := by
  induction ops generalizing s with
  | nil => exact told
  | cons op rest ih =>
    refine ih ((step_tells op).told told (formed op (by simp))) ?_
    exact fun other mem => formed other (mem_cons_of_mem op mem)

/-- Nothing is told of a call that is over. -/
theorem marks_run {callId : String} (told : Session.Told s) (formed : ∀ op ∈ ops, op.wellFormed)
    (terminal : isTerminal (s.activityOf callId).status = true) :
    (s.run loads ops).marks callId = s.marks callId := by
  induction ops generalizing s with
  | nil => rfl
  | cons op rest ih =>
    have tells := @Session.step_tells loads s op
    have first := formed op (by simp)
    obtain ⟨still, same⟩ := tells.terminal terminal
    rw [run_cons, ih (tells.told told first) (fun other mem => formed other (mem_cons_of_mem op mem)) still]
    exact same told first

end Runs

/-- A tool call that is ingested is held, or finalized at once. -/
theorem Performs.call {b b' : Buffer} {call : CollectedChunk} (performs : Performs b (.ingest call) b')
    (ordered : Ordered b) (kind : call.chunkType = .toolCall) :
    (call.awaitsInput = true ∧ Holding b.clock call b') ∨
      (call.awaitsInput = false ∧ Settled b.clock call b') := by
  have inside := ordered.close rfl
  have none_ : (b.chunks ++ closing b.openRun).filter (Item.isOwn b.clock) = [] := by
    rw [filter_eq_nil_iff]
    intro item mem own
    have earlier := inside.past item mem
    cases item with
    | own origin direct chunk =>
      simp only [Item.isOwn, decide_eq_true_eq] at own
      exact absurd own.1 (Nat.ne_of_lt earlier)
    | result time callId => simp [Item.isOwn] at own
  cases performs with
  | @ingest _ b' ingests =>
    cases ingests with
    | merge coalesced opened same => simp [CollectedChunk.coalesced, kind] at coalesced
    | hold held =>
      simp only [CollectedChunk.coalesced, kind, reduceCtorEq, or_self, false_and, false_or, true_and] at held
      exact .inl ⟨held, rfl, kind, none_⟩
    | revise empty opened revised => simp [names, kind] at revised
    | pass plain whole named =>
      right
      refine ⟨by simpa [kind] using named, ?_, ?_⟩
      · intro origin run opened
        cases opened
      · rw [filter_append, none_]
        simp [Item.isOwn]
    | anonymous frame | fold frame => simp [kind] at frame

/-! ## The stream -/

/-- A session after a reset, with the sink of its turn. -/
def Session.start (sink : Option (CollectedChunk → Bool)) : Session := { sink := sink }

/-- The calls whose results are published. -/
def Session.published (s : Session) : List String := s.chunks.filterMap Item.published

section Stream

variable (loads : String → Option Json) (sink : Option (CollectedChunk → Bool)) {ops : List Op}

theorem start_ordered : Ordered (Session.start sink).buffer :=
  InOrder.ordered ⟨by simp [start, buffer], by simp [start, buffer]⟩ rfl

theorem start_published : Published (Session.start sink).buffer := by
  refine ⟨rfl, nodup_nil, ?_, ?_, ?_, ?_⟩
  all_goals simp [start, buffer, Keyed.get, foldedStatus, isTerminal]

theorem start_told : Session.Told (Session.start sink) := by
  refine ⟨?_, fun _ => rfl, fun _ => trivial, ?_⟩
  · simp [start, Keyed.get]
  · intro _ callId
    rfl

theorem start_finalizedText {kind : ChunkType} (text : kind = .text ∨ kind = .thought)
    (formed : ∀ op ∈ ops, op.wellFormed) :
    finalizedText kind ((Session.start sink).run loads (ops ++ [.flush])).chunks = ingestedText kind ops := by
  have plain : PlainRun (start sink).buffer := plainRun_none rfl
  have whole : ∀ op ∈ ops ++ [.flush], op.wellFormed := by
    simp only [mem_append, mem_singleton]
    rintro op (mem | rfl)
    · exact formed op mem
    · trivial
  have closed : ((start sink).run loads (ops ++ [.flush])).buffer.openRun = none := by
    rw [run_append]
    exact (step_performs loads _ .flush).flush_closed
  have all : total kind ((start sink).run loads (ops ++ [.flush])).buffer =
      total kind (start sink).buffer ++ ingestedText kind (ops ++ [.flush]) :=
    total_run text plain whole
  rw [total, closed, openText_none, String.append_empty] at all
  rw [show ((start sink).run loads (ops ++ [.flush])).chunks =
    ((start sink).run loads (ops ++ [.flush])).buffer.chunks from rfl, all]
  simp [total, ingestedText, deltaOf, start, buffer, finalizedText]

/-- A tool call is finalized once, as it was when it stopped being held. -/
theorem start_call {before after : List Op} {call : CollectedChunk} (kind : call.chunkType = .toolCall) :
    ((Session.start sink).run loads (before ++ .ingest call :: after ++ [.flush])).chunks.filter
        (Item.isOwn before.length) =
      [.own before.length false (if call.awaitsInput then heldThrough call after else call)] := by
  let s := (start sink).run loads before
  have clock : s.clock = before.length := by
    rw [run_clock]
    simp [start]
  have later : before.length < (s.step loads (.ingest call)).clock := by
    rw [← clock]
    exact Nat.lt_succ_self _
  have ordered : Ordered s.buffer := ordered_run (start_ordered sink)
  have whole : (start sink).run loads (before ++ .ingest call :: after ++ [.flush]) =
      (s.step loads (.ingest call)).run loads (after ++ [.flush]) := by
    rw [append_assoc, run_append, cons_append, run_cons]
  rw [whole]
  rcases (step_performs loads s (.ingest call)).call ordered kind with ⟨awaits, held⟩ | ⟨complete, settled⟩
  · rw [if_pos awaits]
    rw [show s.buffer.clock = before.length from clock] at held
    exact (holding_run later held).once
  · rw [if_neg (by simp [complete])]
    rw [show s.buffer.clock = before.length from clock] at settled
    exact (settled_run later settled).once

/-- Nothing ingested or published after a chunk stands before it. -/
theorem start_sorted {k : Nat} {first last : List Item} {chunk : CollectedChunk}
    (split : ((Session.start sink).run loads ops).chunks = first ++ .own k false chunk :: last) :
    ∀ item ∈ first, item.direct = false → item.stamp < k := by
  have ordered : Ordered ((start sink).run loads ops).buffer := ordered_run (start_ordered sink)
  have sorted := ordered.sorted
  rw [show ((start sink).run loads ops).buffer.chunks =
    ((start sink).run loads ops).chunks from rfl, split] at sorted
  intro item mem ingested
  exact (pairwise_append.1 sorted).2.2 item mem _ mem_cons_self k chunk rfl ingested

theorem start_published_run : Published ((Session.start sink).run loads ops).buffer :=
  published_run (start_published sink)

theorem start_bears {chunk : CollectedChunk} (mem : .ingest chunk ∈ ops)
    (frame : chunk.chunkType = .toolResult) (named : chunk.resultId ≠ "")
    (bears : chunk.carriesNoResult = false) :
    ((Session.start sink).run loads (ops ++ [.flush])).published.count chunk.resultId = 1 := by
  obtain ⟨before, after, rfl⟩ := append_of_mem mem
  let s := (start sink).run loads before
  have folded := (step_performs loads s (.ingest chunk)).frames_ingest frame named bears
  obtain ⟨more, grown⟩ := @frames_run loads (s.step loads (.ingest chunk)) after
  have known : chunk.resultId ∈
      ((start sink).run loads (before ++ .ingest chunk :: after)).frames.map Prod.fst := by
    rw [run_append, run_cons, grown]
    rw [show (s.step loads (.ingest chunk)).frames = (s.step loads (.ingest chunk)).buffer.frames from rfl,
      folded]
    simp
  have out : chunk.resultId ∈
      ((start sink).run loads (before ++ .ingest chunk :: after ++ [.flush])).buffer.emittedResults := by
    rw [run_append]
    exact ((step_performs loads _ .flush).emitted_iff (start_published_run loads sink)).2
      (.inr (.inl ⟨rfl, known⟩))
  have after_ := @start_published_run loads sink (before ++ .ingest chunk :: after ++ [.flush])
  have once := after_.once
  rw [← after_.items] at out once
  exact count_eq_one_of_mem once out

end Stream

/-- **The stream loses and duplicates nothing.**  For every sequence of operations of a session,
with chunks as the parser makes them: the text finalized by a flush is the text ingested, in order;
each ingested tool call is finalized once, with the latest revision that came while it was held, and
nothing that was ingested or published after it stands before it; a call's result is published at
most once, by the first frame that makes its folded status terminal or else by a flush, and a flush
leaves no frame with a result unpublished; and the starts and ends the sink is told of a call
alternate, with none after a terminal status. -/
theorem stream_loses_nothing (loads : String → Option Json) (sink : Option (CollectedChunk → Bool))
    (ops : List Op) (formed : ∀ op ∈ ops, op.wellFormed) :
    (∀ kind : ChunkType, kind = .text ∨ kind = .thought →
      finalizedText kind ((Session.start sink).run loads (ops ++ [.flush])).chunks = ingestedText kind ops) ∧
    (∀ (before : List Op) (call : CollectedChunk) (after : List Op), ops = before ++ .ingest call :: after → call.chunkType = .toolCall →
      ((Session.start sink).run loads (ops ++ [.flush])).chunks.filter (Item.isOwn before.length) =
          [.own before.length false (if call.awaitsInput then heldThrough call after else call)] ∧
      ∀ (first : List Item) (chunk : CollectedChunk) (last : List Item), ((Session.start sink).run loads (ops ++ [.flush])).chunks =
          first ++ .own before.length false chunk :: last →
        ∀ item ∈ first, item.direct = false → item.stamp < before.length) ∧
    (∀ callId : String, ((Session.start sink).run loads ops).published.count callId ≤ 1 ∧
      ∀ op : Op, callId ∈ ((Session.start sink).run loads (ops ++ [op])).published ↔
        callId ∈ ((Session.start sink).run loads ops).published ∨
        (op = .flush ∧ callId ∈ ((Session.start sink).run loads ops).frames.map Prod.fst) ∨
        ∃ chunk : CollectedChunk, op = .ingest chunk ∧ ((Session.start sink).run loads (ops ++ [op])).frames =
            ((Session.start sink).run loads ops).frames ++ [(callId, chunk.metadata.status)] ∧
          isTerminal (foldedStatus callId ((Session.start sink).run loads (ops ++ [op])).frames)) ∧
    (∀ chunk : CollectedChunk, .ingest chunk ∈ ops → chunk.chunkType = .toolResult → chunk.resultId ≠ "" →
      chunk.carriesNoResult = false →
      ((Session.start sink).run loads (ops ++ [.flush])).published.count chunk.resultId = 1) ∧
    (∀ callId : String, Alternates true (((Session.start sink).run loads ops).marks callId)) ∧
    (∀ (before : List Op) (chunk : CollectedChunk) (after : List Op), ops = before ++ .ingest chunk :: after →
      chunk.chunkType = .toolCall ∨ chunk.chunkType = .toolResult → chunk.activityId ≠ "" →
      isTerminal chunk.metadata.status = true →
      ((Session.start sink).run loads ops).marks chunk.activityId =
        ((Session.start sink).run loads (before ++ [.ingest chunk])).marks chunk.activityId) := by
  have published := @start_published_run loads sink
  refine ⟨?_, ?_, ?_, ?_, ?_, ?_⟩
  · exact fun kind text => start_finalizedText loads sink text formed
  · rintro before call after rfl kind
    exact ⟨start_call loads sink kind, fun first chunk last split => start_sorted loads sink split⟩
  · intro callId
    refine ⟨?_, ?_⟩
    · have once := nodup_iff_count_le_one.1 (@published ops).once callId
      rwa [← (@published ops).items] at once
    · intro op
      have out := @Performs.emitted_iff _ _ op callId
        (step_performs loads ((start sink).run loads ops) op) published
      have next : (start sink).run loads (ops ++ [op]) =
          ((start sink).run loads ops).step loads op := run_append [op]
      have items := (@published (ops ++ [op])).items
      rw [next] at items ⊢
      rw [← (@published ops).items, ← items] at out
      exact out
  · exact fun chunk mem frame named bears => start_bears loads sink mem frame named bears
  · exact (told_run (start_told sink) formed).alternates
  rintro before chunk after rfl tool named terminal
  have first : ∀ op ∈ before ++ [.ingest chunk], op.wellFormed := by
    intro op mem
    refine formed op ?_
    rw [append_cons]
    exact mem_append_left after mem
  have later : ∀ op ∈ after, op.wellFormed := by
    intro op mem
    exact formed op (mem_append_right before (mem_cons_of_mem _ mem))
  have ended : isTerminal (((start sink).run loads (before ++ [.ingest chunk])).activityOf
      chunk.activityId).status = true := by
    rw [run_append]
    exact (step_tells (.ingest chunk)).reported tool named terminal
  rw [append_cons, run_append]
  exact marks_run (told_run (start_told sink) first) later ended

/-- Two deltas, a call named by a later update, and its result. -/
def namedLater : List Op :=
  let call : ACPToolCall := { toolCallId := "call-1", name := "MCP: tool", arguments := [] }
  let revision : ACPToolCall := { call with name := "search" }
  [.ingest { chunkType := .text, content := "Let me " }, .ingest { chunkType := .text, content := "look." },
    .ingest
      { chunkType := .toolCall, content := "MCP: tool"
        metadata := { toolCallId := some (some "call-1"), status := some ToolStatus.pending }
        tool := some (.call call) },
    .ingest
      { chunkType := .toolResult, content := "", metadata := { toolCallId := some (some "call-1") }
        fromRaw := true, tool := some (.call revision) },
    .ingest
      { chunkType := .toolResult, content := "found"
        metadata := { toolCallId := some (some "call-1"), status := some ToolStatus.completed } }]

theorem stream_loses_nothing_named :
    finalizedText .text ((Session.start none).run (fun _ => none) (namedLater ++ [.flush])).chunks =
        "Let me look." ∧
      ((Session.start none).run (fun _ => none) (namedLater ++ [.flush])).published.count "call-1" = 1 := by
  have formed : ∀ op ∈ namedLater, op.wellFormed := by
    simp only [namedLater, mem_cons, not_mem_nil, or_false]
    rintro op (rfl | rfl | rfl | rfl | rfl)
    all_goals exact ⟨by simp [CollectedChunk.coalesced], by simp⟩
  have law := stream_loses_nothing (fun _ => none) none namedLater formed
  refine ⟨(law.1 .text (.inl rfl)).trans (by decide +kernel), ?_⟩
  exact law.2.2.2.1
    { chunkType := .toolResult, content := "found"
      metadata := { toolCallId := some (some "call-1"), status := some ToolStatus.completed } }
    (by simp [namedLater]) rfl (by decide) (by decide)

/-- What a caller finalizes itself is text that was not ingested. -/
theorem finalized_text_not_ingested :
    ¬∀ (loads : String → Option Json) (sink : Option (CollectedChunk → Bool)) (ops : List Op),
      (∀ op ∈ ops, op.wellFormed) →
      ((Session.start sink).run loads (ops ++ [.flush])).getCollectedText = ingestedText .text ops := by
  intro always
  have same := always (fun _ => none) none [.finalize { chunkType := .text, content := "x" }] (by simp [Op.wellFormed])
  exact absurd same (by decide +kernel)

end BandSdk.Acp

/-
# Acp.Buffer -- what an operation does to the chunks

`Buffer` is the part of a session the chunks go through, without the notices to the
sink.  What `ingest` does to it is said once, in `Ingests`: the open run grows or is
revised, a chunk takes its place, or one goes through.  `Performs` says it of every
operation, and the laws of the stream are proved from it alone.
-/
import BandSdk.Acp.Stream

namespace BandSdk.Acp

open BandSdk.Theory List Session

/-! ## The buffer -/

/-- The part of a session the chunks go through. -/
structure Buffer where
  chunks : List Item
  openRun : Option (Nat × CollectedChunk)
  results : List (String × CollectedChunk)
  emittedResults : List String
  frames : List (String × Option String)
  clock : Nat

def Session.buffer (s : Session) : Buffer :=
  ⟨s.chunks, s.openRun, s.results, s.emittedResults, s.frames, s.clock⟩

/-- What closing an open run adds to the buffer. -/
def closing : Option (Nat × CollectedChunk) → List Item
  | none => []
  | some (origin, run) => [.own origin false run]

/-- The frame carries a revision of the call. -/
def names (chunk call : CollectedChunk) : Bool :=
  chunk.chunkType = .toolResult ∧
    chunk.call?.any (fun revision => call.call?.any (·.toolCallId = revision.toolCallId))

/-- The call under the identity the frame gives it. -/
def revisedBy (chunk call : CollectedChunk) : CollectedChunk :=
  match chunk.call? with
  | some revision => if names chunk call then call.revise revision else call
  | none => call

/-- The open run after a frame that may revise it. -/
def revising (chunk : CollectedChunk) (run : Option (Nat × CollectedChunk)) :
    Option (Nat × CollectedChunk) := run.map fun held => (held.1, revisedBy chunk held.2)

def CollectedChunk.coalesced (chunk : CollectedChunk) : Prop :=
  chunk.chunkType = .text ∨ chunk.chunkType = .thought

/-- What ingesting a chunk does to the buffer. -/
inductive Ingests (chunk : CollectedChunk) (b : Buffer) : Buffer → Prop where
  /-- A delta joins the open run. -/
  | merge {origin : Nat} {run : CollectedChunk} (coalesced : chunk.coalesced)
      (opened : b.openRun = some (origin, run)) (same : run.chunkType = chunk.chunkType) :
      Ingests chunk b
        { b with openRun := some (origin, { run with content := run.content ++ chunk.content }) }
  /-- A delta of another kind, or a call that awaits its input, takes the place of the open run. -/
  | hold (held : chunk.coalesced ∧
        (∀ origin run, b.openRun = some (origin, run) → run.chunkType ≠ chunk.chunkType) ∨
        chunk.chunkType = .toolCall ∧ chunk.awaitsInput = true) :
      Ingests chunk b
        { b with chunks := b.chunks ++ closing b.openRun, openRun := some (b.clock, chunk) }
  /-- A frame without a result revises the held call. -/
  | revise {origin : Nat} {held : CollectedChunk} (empty : chunk.carriesNoResult = true)
      (opened : b.openRun = some (origin, held)) (revised : names chunk held = true) :
      Ingests chunk b { b with openRun := some (origin, revisedBy chunk held) }
  /-- A chunk that is complete goes through. -/
  | pass (plain : ¬chunk.coalesced) (whole : chunk.chunkType ≠ .toolResult)
      (named : ¬(chunk.chunkType = .toolCall ∧ chunk.awaitsInput = true)) :
      Ingests chunk b
        { b with
          chunks := b.chunks ++ closing b.openRun ++ [.own b.clock false chunk]
          openRun := none }
  /-- A result without a call id goes through. -/
  | anonymous {result : CollectedChunk} (frame : chunk.chunkType = .toolResult)
      (kept : ∀ origin held, b.openRun = some (origin, held) → names chunk held = true →
        chunk.carriesNoResult = false)
      (nameless : chunk.resultId = "") (kind : result.chunkType = .toolResult) :
      Ingests chunk b
        { b with
          chunks := b.chunks ++ closing (revising chunk b.openRun) ++ [.own b.clock false result]
          openRun := none }
  /-- A result frame is folded, and its result published if it is terminal now. -/
  | fold {canonical : CollectedChunk} (frame : chunk.chunkType = .toolResult)
      (kept : ∀ origin held, b.openRun = some (origin, held) → names chunk held = true →
        chunk.carriesNoResult = false)
      (named : chunk.resultId ≠ "")
      (status : canonical.metadata.status =
        (chunk.metadata.status <|> (Keyed.get chunk.resultId b.results).bind (·.metadata.status))) :
      Ingests chunk b
        { b with
          chunks := b.chunks ++ closing (revising chunk b.openRun) ++
            if isTerminal canonical.metadata.status ∧ chunk.resultId ∉ b.emittedResults then
              [.result b.clock chunk.resultId]
            else []
          openRun := none
          results := Keyed.setItem chunk.resultId canonical b.results
          frames := b.frames ++ [(chunk.resultId, chunk.metadata.status)]
          emittedResults := b.emittedResults ++
            if isTerminal canonical.metadata.status ∧ chunk.resultId ∉ b.emittedResults then
              [chunk.resultId]
            else [] }

theorem revisedBy_chunkType {chunk call : CollectedChunk} :
    (revisedBy chunk call).chunkType = call.chunkType := by
  unfold revisedBy
  split
  · split <;> rfl
  · rfl

namespace Session

variable {loads : String → Option Json} {s : Session} {chunk : CollectedChunk} {item : Item}
  {notice : Notice} {callId : String}

theorem finalize_buffer : (s.finalize item).buffer = { s.buffer with chunks := s.chunks ++ [item] } := by
  unfold finalize
  dsimp only
  split
  · split <;> rfl
  · rfl

theorem closeOpenRun_buffer :
    s.closeOpenRun.buffer = { s.buffer with chunks := s.chunks ++ closing s.openRun, openRun := none } := by
  unfold closeOpenRun
  split
  next none_ => simp [buffer, closing, none_]
  next origin run opened =>
    rw [finalize_buffer]
    simp [buffer, closing, opened]

theorem notify_buffer : (s.notify notice).buffer = s.buffer := by
  unfold notify
  split <;> rfl

theorem reportActivity_buffer {previous status : Option String} {call : ACPToolActivity} :
    (s.reportActivity previous status call callId).buffer = s.buffer := by
  unfold reportActivity
  split
  · exact notify_buffer
  split
  · exact notify_buffer
  · rfl

theorem observeActivity_buffer : (s.observeActivity chunk).buffer = s.buffer := by
  unfold observeActivity
  dsimp only
  split
  · rfl
  split
  · rfl
  split
  · rfl
  · exact reportActivity_buffer

theorem keepResult_buffer {status : Option String} {canonical : CollectedChunk} :
    (s.keepResult callId status canonical).buffer =
      { s.buffer with
        chunks := s.chunks ++
          if isTerminal canonical.metadata.status ∧ callId ∉ s.emittedResults then [.result s.clock callId]
          else []
        results := Keyed.setItem callId canonical s.results
        frames := s.frames ++ [(callId, status)]
        emittedResults := s.emittedResults ++
          if isTerminal canonical.metadata.status ∧ callId ∉ s.emittedResults then [callId] else [] } := by
  unfold keepResult
  dsimp only
  split
  · rw [finalize_buffer]
    rfl
  · simp [buffer]

theorem canonicalOf_status :
    (s.canonicalOf loads callId chunk).metadata.status =
      (chunk.metadata.status <|> (Keyed.get callId s.results).bind (·.metadata.status)) := by
  unfold canonicalOf
  split
  next none_ => simp [none_]
  next canonical known =>
    rw [known]
    rfl

theorem rememberCall_buffer : (s.rememberCall chunk).buffer = s.buffer := by
  unfold rememberCall
  split
  · split <;> rfl
  · rfl

@[simp] theorem closeOpenRun_chunks : s.closeOpenRun.chunks = s.chunks ++ closing s.openRun :=
  congrArg Buffer.chunks closeOpenRun_buffer

@[simp] theorem closeOpenRun_results : s.closeOpenRun.results = s.results :=
  congrArg Buffer.results closeOpenRun_buffer

@[simp] theorem closeOpenRun_emitted : s.closeOpenRun.emittedResults = s.emittedResults :=
  congrArg Buffer.emittedResults closeOpenRun_buffer

@[simp] theorem closeOpenRun_frames : s.closeOpenRun.frames = s.frames :=
  congrArg Buffer.frames closeOpenRun_buffer

@[simp] theorem closeOpenRun_clock : s.closeOpenRun.clock = s.clock :=
  congrArg Buffer.clock closeOpenRun_buffer

theorem hold_buffer {time : Nat} :
    { s.closeOpenRun with openRun := some (time, chunk) }.buffer =
      { s.buffer with chunks := s.chunks ++ closing s.openRun, openRun := some (time, chunk) } :=
  congrArg (fun b => { b with openRun := some (time, chunk) }) closeOpenRun_buffer

theorem pass_buffer :
    (s.closeOpenRun.finalize item).buffer =
      { s.buffer with chunks := s.chunks ++ closing s.openRun ++ [item], openRun := none } := by
  rw [finalize_buffer]
  exact congrArg (fun b => { b with chunks := b.chunks ++ [item] }) closeOpenRun_buffer

/-- A chunk that is no result frame, once its activity was observed. -/
theorem admitChunk_ingests (whole : chunk.chunkType ≠ .toolResult) :
    Ingests chunk s.buffer (s.admitChunk loads chunk).buffer := by
  unfold admitChunk
  rw [← @rememberCall_buffer s chunk]
  generalize s.rememberCall chunk = s
  by_cases coalesced : chunk.chunkType = .text ∨ chunk.chunkType = .thought
  · rw [if_pos coalesced]
    split
    next origin run opened =>
      split
      next same => exact .merge coalesced opened same
      next other =>
        rw [hold_buffer]
        refine .hold (.inl ⟨coalesced, ?_⟩)
        intro origin' run' opened' same
        obtain ⟨rfl, rfl⟩ := Prod.mk.inj (Option.some.inj (opened.symm.trans opened'))
        exact other same
    next none_ =>
      rw [hold_buffer]
      refine .hold (.inl ⟨coalesced, ?_⟩)
      intro origin' run' opened'
      exact absurd (none_.symm.trans opened') nofun
  · rw [if_neg coalesced, if_neg whole]
    by_cases held : chunk.chunkType = .toolCall ∧ chunk.awaitsInput = true
    · rw [if_pos held, hold_buffer, closeOpenRun_clock]
      exact .hold (.inr held)
    · rw [if_neg held, closeOpenRun_clock, pass_buffer]
      exact .pass coalesced whole held

/-- A result frame that is not used up by the revision it made. -/
theorem admitChunk_frame {b : Buffer} (frame : chunk.chunkType = .toolResult)
    (kept : ∀ origin held, b.openRun = some (origin, held) → names chunk held = true →
      chunk.carriesNoResult = false)
    (revised : s.buffer = { b with openRun := revising chunk b.openRun }) :
    Ingests chunk b (s.admitChunk loads { chunk with tool := none }).buffer := by
  have remembered : s.rememberCall { chunk with tool := none } = s := rfl
  have plain : ¬(chunk.chunkType = .text ∨ chunk.chunkType = .thought) := by simp [frame]
  have nothing : ({ chunk with tool := none } : CollectedChunk).resultId = chunk.resultId := rfl
  obtain ⟨chunks, openRun, results, emitted, frames, clock⟩ := b
  obtain ⟨rfl, opened, rfl, rfl, rfl, rfl⟩ := Buffer.mk.inj revised
  unfold admitChunk ingestToolResult
  rw [remembered, if_neg plain, if_pos frame, nothing]
  by_cases nameless : chunk.resultId = ""
  · rw [if_pos nameless, pass_buffer, closeOpenRun_clock, opened]
    exact .anonymous frame kept nameless frame
  · rw [if_neg nameless, keepResult_buffer]
    simp only [closeOpenRun_chunks, closeOpenRun_results, closeOpenRun_emitted, closeOpenRun_frames,
      closeOpenRun_clock, closeOpenRun_buffer, opened]
    refine .fold frame kept nameless ?_
    rw [canonicalOf_status, closeOpenRun_results]
    rfl

theorem reviseHeldCall_buffer {revision : ACPToolCall} (frame : chunk.chunkType = .toolResult)
    (known : chunk.call? = some revision) :
    (s.reviseHeldCall revision).2.buffer = { s.buffer with openRun := revising chunk s.openRun } ∧
      ((s.reviseHeldCall revision).1 = true ↔
        ∃ origin held, s.openRun = some (origin, held) ∧ names chunk held = true) := by
  rcases opened : s.openRun with _ | ⟨origin, held⟩
  · simp [reviseHeldCall, opened, revising, buffer]
  by_cases named : held.call?.any (·.toolCallId = revision.toolCallId) = true
  · simp [reviseHeldCall, opened, revising, revisedBy, buffer, names, known, frame, named]
  · simp [reviseHeldCall, opened, revising, revisedBy, buffer, names, known, frame, named]

theorem ingest_ingests : Ingests chunk s.buffer (s.ingest loads chunk).buffer := by
  unfold ingest
  dsimp only
  rw [← @observeActivity_buffer s chunk]
  generalize s.observeActivity chunk = s
  by_cases frame : chunk.chunkType = .toolResult
  · rw [if_pos frame]
    split
    next revision known =>
      obtain ⟨revised, named⟩ := @reviseHeldCall_buffer s chunk revision frame known
      by_cases used : (s.reviseHeldCall revision).1 = true ∧ chunk.carriesNoResult = true
      · rw [if_pos used, revised]
        obtain ⟨origin, held, opened, named⟩ := named.1 used.1
        rw [opened]
        exact .revise used.2 opened named
      · rw [if_neg used]
        refine admitChunk_frame frame ?_ revised
        intro origin held opened names_
        by_contra empty
        exact used ⟨named.2 ⟨origin, held, opened, names_⟩, by simpa using empty⟩
    next none_ =>
      have unnamed : ∀ held, names chunk held = false := by simp [names, none_]
      refine admitChunk_frame frame ?_ ?_
      · intro origin held opened named
        rw [unnamed held] at named
        cases named
      · rcases opened : s.openRun with _ | ⟨origin, held⟩ <;>
          simp [buffer, opened, revising, revisedBy, none_]
  · rw [if_neg frame]
    exact admitChunk_ingests frame

/-- A flush closes the open run and publishes every result that is not out yet. -/
theorem flushResults_spec (ids : List String) (s : Session) :
    ∃ new : List String, (flushResults ids s).buffer =
        { s.buffer with
          chunks := s.chunks ++ new.map (Item.result s.clock)
          emittedResults := s.emittedResults ++ new } ∧
      new.Nodup ∧ (∀ id ∈ new, id ∈ ids ∧ id ∉ s.emittedResults) ∧
      ∀ id ∈ ids, id ∈ s.emittedResults ++ new := by
  induction ids generalizing s with
  | nil => exact ⟨[], by simp [flushResults, buffer], by simp⟩
  | cons callId rest ih =>
    unfold flushResults
    split
    next out =>
      obtain ⟨new, same, apart, fresh, all⟩ := ih s
      refine ⟨new, same, apart, ?_, ?_⟩
      · exact fun id mem => ⟨mem_cons_of_mem _ (fresh id mem).1, (fresh id mem).2⟩
      intro id mem
      rcases mem_cons.1 mem with rfl | later
      · exact mem_append_left _ out
      · exact all id later
    next absent =>
      obtain ⟨new, same, apart, fresh, all⟩ :=
        ih ({ s with emittedResults := s.emittedResults ++ [callId] }.finalize (.result s.clock callId))
      have published : ({ s with emittedResults := s.emittedResults ++ [callId] }.finalize
          (.result s.clock callId)).buffer =
          { s.buffer with
            chunks := s.chunks ++ [.result s.clock callId]
            emittedResults := s.emittedResults ++ [callId] } := finalize_buffer
      have chunks := congrArg Buffer.chunks published
      have emitted := congrArg Buffer.emittedResults published
      have time := congrArg Buffer.clock published
      simp only [buffer] at chunks emitted time
      rw [emitted] at fresh all
      refine ⟨callId :: new, ?_, ?_, ?_, ?_⟩
      · rw [same, published, chunks, emitted, time]
        simp [buffer]
      · refine nodup_cons.2 ⟨fun mem => (fresh callId mem).2 (by simp), apart⟩
      · intro id mem
        rcases mem_cons.1 mem with rfl | later
        · exact ⟨mem_cons_self, absent⟩
        · refine ⟨mem_cons_of_mem _ (fresh id later).1, ?_⟩
          exact fun out => (fresh id later).2 (mem_append_left _ out)
      · intro id mem
        rcases mem_cons.1 mem with rfl | later
        · simp
        · simpa using all id later

end Session

/-! ## Operations on the buffer -/

/-- What an operation does to the buffer. -/
inductive Performs (b : Buffer) : Op → Buffer → Prop where
  | ingest {chunk : CollectedChunk} {b' : Buffer} (ingests : Ingests chunk b b') :
      Performs b (.ingest chunk) { b' with clock := b.clock + 1 }
  | closeOpenRun :
      Performs b .closeOpenRun
        { b with chunks := b.chunks ++ closing b.openRun, openRun := none, clock := b.clock + 1 }
  | finalize (chunk : CollectedChunk) :
      Performs b (.finalize chunk)
        { b with chunks := b.chunks ++ [.own b.clock true chunk], clock := b.clock + 1 }
  | flush {new : List String} (apart : new.Nodup)
      (fresh : ∀ id ∈ new, id ∈ b.results.map Prod.fst ∧ id ∉ b.emittedResults)
      (all : ∀ id ∈ b.results.map Prod.fst, id ∈ b.emittedResults ++ new) :
      Performs b .flush
        { b with
          chunks := b.chunks ++ closing b.openRun ++ new.map (Item.result b.clock)
          openRun := none
          emittedResults := b.emittedResults ++ new
          clock := b.clock + 1 }

theorem Performs.flush_closed {b b' : Buffer} (performs : Performs b .flush b') : b'.openRun = none := by
  cases performs
  rfl

theorem step_performs (loads : String → Option Json) (s : Session) (op : Op) :
    Performs s.buffer op (s.step loads op).buffer := by
  cases op with
  | ingest chunk => exact .ingest ingest_ingests
  | closeOpenRun =>
    have same : (s.step loads .closeOpenRun).buffer = { s.closeOpenRun.buffer with clock := s.clock + 1 } := rfl
    rw [same, closeOpenRun_buffer]
    exact .closeOpenRun
  | finalize chunk =>
    have same : (s.step loads (.finalize chunk)).buffer =
        { (s.finalize (.own s.clock true chunk)).buffer with clock := s.clock + 1 } := rfl
    rw [same, finalize_buffer]
    exact .finalize chunk
  | flush =>
    have same : (s.step loads .flush).buffer = { s.flush.buffer with clock := s.clock + 1 } := rfl
    obtain ⟨new, flushed, apart, fresh, all⟩ :=
      flushResults_spec (s.closeOpenRun.results.map Prod.fst) s.closeOpenRun
    rw [same, flush, flushed, closeOpenRun_buffer]
    simp only [closeOpenRun_chunks, closeOpenRun_emitted, closeOpenRun_clock,
      closeOpenRun_results] at fresh all ⊢
    exact .flush apart fresh all

end BandSdk.Acp

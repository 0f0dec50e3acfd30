/-
# Acp.Laws -- text, tool calls and results in the buffer

* `Performs.total` -- the text finalized and still open grows by what is ingested;
* `Performs.ordered` -- the buffer keeps the order in which chunks were ingested;
* `Performs.holding`, `Performs.settled` -- where a tool call is until it is finalized, and
  under which identity;
* `Performs.published`, `Performs.emitted_iff` -- a result is published by the frame that makes
  its folded status terminal, or by a flush.
-/
import BandSdk.Acp.Buffer
import Mathlib.Data.List.Nodup

namespace BandSdk.Acp

open BandSdk.Theory List CollectedChunk Item

/-! ## Text -/

/-- The text of one kind an item holds; what a caller finalized itself does not count. -/
def textOf (kind : ChunkType) : Item → String
  | .own _ false chunk => if chunk.chunkType = kind then chunk.content else ""
  | _ => ""

def openText (kind : ChunkType) : Option (Nat × CollectedChunk) → String
  | some (_, run) => if run.chunkType = kind then run.content else ""
  | none => ""

@[simp] theorem openText_none (kind : ChunkType) : openText kind none = "" := rfl

/-- The finalized text of one kind. -/
def finalizedText (kind : ChunkType) (chunks : List Item) : String := String.join (chunks.map (textOf kind))

def deltaOf (kind : ChunkType) : Op → String
  | .ingest chunk => if chunk.chunkType = kind then chunk.content else ""
  | _ => ""

def ingestedText (kind : ChunkType) (ops : List Op) : String := String.join (ops.map (deltaOf kind))

/-- A chunk as the update parser makes it: a tool only on a tool chunk, and an activity under the
chunk's own call id. -/
structure WellFormed (chunk : CollectedChunk) : Prop where
  tool : chunk.coalesced → chunk.tool = none
  activity : ∀ revision, chunk.activity = some revision → revision.toolCallId = chunk.activityId

def Op.wellFormed : Op → Prop
  | .ingest chunk => WellFormed chunk
  | _ => True

/-- An open run of text is no tool call. -/
def PlainRun (b : Buffer) : Prop :=
  ∀ origin run, b.openRun = some (origin, run) → run.coalesced → run.call? = none

def total (kind : ChunkType) (b : Buffer) : String :=
  finalizedText kind b.chunks ++ openText kind b.openRun

section Text

variable {kind : ChunkType} {chunk : CollectedChunk} {b b' : Buffer} {op : Op}

theorem finalizedText_append (first second : List Item) :
    finalizedText kind (first ++ second) = finalizedText kind first ++ finalizedText kind second := by
  simp [finalizedText, String.join_append]

@[simp] theorem finalizedText_closing (run : Option (Nat × CollectedChunk)) :
    finalizedText kind (closing run) = openText kind run := by
  rcases run with _ | ⟨origin, run⟩
  · rfl
  · simp [finalizedText, closing, openText, textOf]

@[simp] theorem finalizedText_own (time : Nat) (direct : Bool) :
    finalizedText kind [.own time direct chunk] =
      if direct = false ∧ chunk.chunkType = kind then chunk.content else "" := by
  cases direct <;> simp [finalizedText, textOf]

@[simp] theorem finalizedText_results (time : Nat) (ids : List String) :
    finalizedText kind (ids.map (Item.result time)) = "" := by
  induction ids with
  | nil => rfl
  | cons id rest ih => simpa [finalizedText, textOf] using ih

theorem openText_revisedBy (plain : PlainRun b) (text : kind = .text ∨ kind = .thought) {origin : Nat}
    {held : CollectedChunk} (opened : b.openRun = some (origin, held)) :
    openText kind (some (origin, revisedBy chunk held)) = openText kind (some (origin, held)) := by
  unfold revisedBy
  split
  · split
    next named =>
      have call : held.call? ≠ none := by
        intro none_
        simp [names, none_] at named
      have other : held.chunkType ≠ kind := by
        rintro rfl
        exact call (plain origin held opened text)
      simp [openText, revise, other]
    · rfl
  · rfl

theorem openText_revising (plain : PlainRun b) (text : kind = .text ∨ kind = .thought) :
    openText kind (revising chunk b.openRun) = openText kind b.openRun := by
  rcases opened : b.openRun with _ | ⟨origin, held⟩
  · rfl
  · exact openText_revisedBy plain text opened

theorem Ingests.total (ingests : Ingests chunk b b') (plain : PlainRun b)
    (text : kind = .text ∨ kind = .thought) :
    total kind b' = total kind b ++ deltaOf kind (.ingest chunk) := by
  cases ingests with
  | @merge origin run coalesced opened same =>
    simp only [Acp.total, opened, openText, deltaOf, same]
    split <;> simp [String.append_assoc]
  | hold held =>
    simp [Acp.total, finalizedText_append, openText, deltaOf]
  | @revise origin held empty opened revised =>
    have same : openText kind (some (origin, revisedBy chunk held)) = openText kind b.openRun := by
      rw [opened]
      exact openText_revisedBy plain text opened
    have frame : chunk.chunkType = .toolResult := by
      simp only [names, decide_eq_true_eq] at revised
      exact revised.1
    have other : chunk.chunkType ≠ kind := by
      rintro rfl
      simp [frame] at text
    simp [Acp.total, same, deltaOf, other]
  | pass other whole named =>
    simp [Acp.total, finalizedText_append, deltaOf, String.append_assoc]
  | anonymous frame kept nameless same =>
    have other : ChunkType.toolResult ≠ kind := by
      rintro rfl
      simp at text
    simp [Acp.total, finalizedText_append, openText_revising plain text, same, deltaOf, frame, other]
  | @fold canonical frame kept named status =>
    have other : ChunkType.toolResult ≠ kind := by
      rintro rfl
      simp at text
    have nothing : finalizedText kind (if isTerminal canonical.metadata.status ∧ chunk.resultId ∉ b.emittedResults then
        [result b.clock chunk.resultId] else []) = "" := by
      split
      · exact finalizedText_results b.clock [chunk.resultId]
      · rfl
    simp [Acp.total, finalizedText_append, openText_revising plain text, deltaOf, frame, other, nothing]

/-- Every operation adds the text it ingests. -/
theorem Performs.total (performs : Performs b op b') (plain : PlainRun b)
    (text : kind = .text ∨ kind = .thought) : total kind b' = total kind b ++ deltaOf kind op := by
  cases performs with
  | @ingest chunk b' ingests => exact ingests.total plain text
  | closeOpenRun | finalize chunk
  | flush apart fresh all => simp [Acp.total, finalizedText_append, deltaOf]

theorem plainRun_none (closed : b.openRun = none) : PlainRun b := by
  intro origin run opened
  rw [closed] at opened
  cases opened

theorem Performs.plainRun (performs : Performs b op b') (plain : PlainRun b) (formed : op.wellFormed) :
    PlainRun b' := by
  cases performs with
  | @ingest chunk b' ingests =>
    cases ingests with
    | @merge origin run coalesced opened same =>
      intro origin' run' opened'
      obtain ⟨rfl, rfl⟩ := Prod.mk.inj (Option.some.inj opened')
      exact plain origin run opened
    | hold held =>
      intro origin' run' opened' coalesced
      obtain ⟨rfl, rfl⟩ := Prod.mk.inj (Option.some.inj opened')
      simp [call?, formed.tool coalesced]
    | @revise origin held empty opened revised =>
      intro origin' run' opened' coalesced
      obtain ⟨rfl, rfl⟩ := Prod.mk.inj (Option.some.inj opened')
      have same : (revisedBy chunk held).chunkType = held.chunkType := revisedBy_chunkType
      rw [CollectedChunk.coalesced, same] at coalesced
      have none_ := plain origin held opened coalesced
      simp [names, none_] at revised
    | pass | anonymous | fold => exact plainRun_none rfl
  | closeOpenRun | flush apart fresh all => exact plainRun_none rfl
  | finalize chunk => exact plain

end Text

/-! ## Tool calls -/

def Item.stamp : Item → Nat
  | .own origin _ _ => origin
  | .result time _ => time

/-- Whether a caller finalized the item itself. -/
def Item.direct : Item → Bool
  | .own _ direct _ => direct
  | .result .. => false

/-- Whether the item is the chunk that operation `k` ingested. -/
def Item.isOwn (k : Nat) : Item → Bool
  | .own origin direct _ => origin = k ∧ direct = false
  | .result .. => false

/-- The items came before `clock`, and what was ingested comes in its order: nothing that was
ingested or published after an own chunk stands before it. -/
structure InOrder (clock : Nat) (chunks : List Item) : Prop where
  past : ∀ item ∈ chunks, item.stamp < clock
  sorted : chunks.Pairwise fun first second =>
    ∀ k chunk, second = .own k false chunk → first.direct = false → first.stamp < k

structure Ordered (b : Buffer) : Prop extends InOrder b.clock b.chunks where
  openPast : ∀ origin run, b.openRun = some (origin, run) → origin < b.clock
  opened : ∀ origin run, b.openRun = some (origin, run) → ∀ item ∈ b.chunks, item.direct = false →
    item.stamp < origin

section Calls

variable {chunk call : CollectedChunk} {b b' : Buffer} {op : Op} {k clock : Nat} {chunks : List Item}

section

variable (inOrder : InOrder clock chunks)
include inOrder

theorem InOrder.later : InOrder (clock + 1) chunks :=
  ⟨fun item mem => Nat.lt_succ_of_lt (inOrder.past item mem), inOrder.sorted⟩

/-- An item of the present operation goes to the end. -/
theorem InOrder.push {last : Item} (present : last.stamp = clock) : InOrder (clock + 1) (chunks ++ [last]) where
  past := by
    intro item mem
    rcases mem_append.1 mem with before | same
    · exact Nat.lt_succ_of_lt (inOrder.past item before)
    · rw [mem_singleton.1 same, present]
      exact Nat.lt_succ_self clock
  sorted := by
    refine pairwise_append.2 ⟨inOrder.sorted, by simp, ?_⟩
    intro first before second same k chunk own ingested
    have time : k = clock := by
      rw [← present, ← mem_singleton.1 same, own]
      rfl
    rw [time]
    exact inOrder.past first before

/-- Results go to the end. -/
theorem InOrder.publish (ids : List String) : InOrder (clock + 1) (chunks ++ ids.map (Item.result clock)) where
  past := by
    intro item mem
    rcases mem_append.1 mem with before | same
    · exact Nat.lt_succ_of_lt (inOrder.past item before)
    · obtain ⟨id, -, rfl⟩ := mem_map.1 same
      exact Nat.lt_succ_self clock
  sorted := by
    refine pairwise_append.2 ⟨inOrder.sorted, ?_, ?_⟩
    · refine pairwise_map.2 (pairwise_of_forall ?_)
      intro first second k chunk own
      cases own
    · intro first before second same k chunk own
      obtain ⟨id, -, rfl⟩ := mem_map.1 same
      cases own

end

theorem Ordered.close (ordered : Ordered b) {run : Option (Nat × CollectedChunk)}
    (same : run.map Prod.fst = b.openRun.map Prod.fst) : InOrder b.clock (b.chunks ++ closing run) := by
  rcases run with _ | ⟨origin, run⟩
  · simpa [closing] using ordered.toInOrder
  obtain ⟨run', opened⟩ : ∃ run', b.openRun = some (origin, run') := by
    rcases opened : b.openRun with _ | ⟨origin', run'⟩
    · simp [opened] at same
    · simp only [opened, Option.map_some, Option.some.injEq] at same
      exact ⟨run', by rw [same]⟩
  refine ⟨?_, ?_⟩
  · intro item mem
    rcases mem_append.1 mem with before | last
    · exact ordered.past item before
    rw [closing, mem_singleton] at last
    rw [last]
    exact ordered.openPast origin run' opened
  · refine pairwise_append.2 ⟨ordered.sorted, by simp [closing], ?_⟩
    intro first before second last k chunk own ingested
    rw [closing, mem_singleton] at last
    rw [last] at own
    cases own
    exact ordered.opened origin run' opened first before ingested

theorem revising_origin (run : Option (Nat × CollectedChunk)) :
    (revising chunk run).map Prod.fst = run.map Prod.fst := by
  rcases run with _ | ⟨origin, held⟩ <;> rfl

theorem InOrder.ordered (inOrder : InOrder b.clock b.chunks) (closed : b.openRun = none) : Ordered b := by
  refine ⟨inOrder, ?_, ?_⟩
  · intro origin run opened
    rw [closed] at opened
    cases opened
  · intro origin run opened
    rw [closed] at opened
    cases opened

/-- The open run changes, but stays the run of its operation. -/
theorem Ordered.replace (ordered : Ordered b) {origin : Nat} {run run' : CollectedChunk}
    (opened : b.openRun = some (origin, run)) :
    Ordered { b with openRun := some (origin, run'), clock := b.clock + 1 } := by
  refine ⟨ordered.later, ?_, ?_⟩
  · intro origin' run'' same
    cases same
    exact Nat.lt_succ_of_lt (ordered.openPast origin run opened)
  · intro origin' run'' same
    cases same
    exact ordered.opened origin run opened

theorem Performs.ordered (performs : Performs b op b') (ordered : Ordered b) : Ordered b' := by
  have closed := ordered.close rfl
  cases performs with
  | @ingest chunk b' ingests =>
    cases ingests with
    | merge coalesced opened same | revise empty opened revised => exact ordered.replace opened
    | hold held =>
      refine ⟨closed.later, ?_, ?_⟩
      · intro origin run same
        cases same
        exact Nat.lt_succ_self _
      · intro origin run same item mem ingested
        cases same
        exact closed.past item mem
    | pass plain whole named => exact (closed.push rfl).ordered rfl
    | anonymous frame kept nameless kind =>
      exact ((ordered.close (revising_origin _)).push rfl).ordered rfl
    | @fold canonical frame kept named status =>
      have revised := ordered.close (@revising_origin chunk b.openRun)
      refine InOrder.ordered ?_ rfl
      split
      · exact revised.push rfl
      · simpa using revised.later
  | closeOpenRun => exact closed.later.ordered rfl
  | finalize chunk =>
    refine ⟨ordered.toInOrder.push rfl, ?_, ?_⟩
    · intro origin run opened
      exact Nat.lt_succ_of_lt (ordered.openPast origin run opened)
    · intro origin run opened item mem ingested
      rcases mem_append.1 mem with before | last
      · exact ordered.opened origin run opened item before ingested
      · rw [mem_singleton.1 last] at ingested
        cases ingested
  | flush apart fresh all => exact (closed.publish _).ordered rfl

/-- A held call as it is finalized: with the latest revision that came while it was held.  Frames
without a result and chunks a caller finalizes itself leave it held. -/
def heldThrough (call : CollectedChunk) : List Op → CollectedChunk
  | .ingest chunk :: rest =>
    if names chunk call then
      if chunk.carriesNoResult then heldThrough (revisedBy chunk call) rest else revisedBy chunk call
    else call
  | .finalize _ :: rest => heldThrough call rest
  | _ => call

/-- The call that operation `k` ingested is held. -/
structure Holding (k : Nat) (call : CollectedChunk) (b : Buffer) : Prop where
  opened : b.openRun = some (k, call)
  kind : call.chunkType = .toolCall
  absent : b.chunks.filter (Item.isOwn k) = []

/-- The call that operation `k` ingested is finalized, once. -/
structure Settled (k : Nat) (call : CollectedChunk) (b : Buffer) : Prop where
  apart : ∀ origin run, b.openRun = some (origin, run) → origin ≠ k
  once : b.chunks.filter (Item.isOwn k) = [.own k false call]

theorem filter_closing_ne {run : Option (Nat × CollectedChunk)}
    (apart : ∀ origin chunk, run = some (origin, chunk) → origin ≠ k) :
    (closing run).filter (Item.isOwn k) = [] := by
  rcases run with _ | ⟨origin, chunk⟩
  · rfl
  · simp [closing, isOwn, apart origin chunk rfl]

theorem filter_own_ne {time : Nat} {direct : Bool} (other : time ≠ k) :
    [Item.own time direct chunk].filter (Item.isOwn k) = [] := by
  simp [isOwn, other]

theorem filter_results (time : Nat) (ids : List String) :
    (ids.map (Item.result time)).filter (Item.isOwn k) = [] := by
  simp [filter_map, isOwn, Function.comp_def]

theorem revising_over {run : Option (Nat × CollectedChunk)}
    (apart : ∀ origin chunk, run = some (origin, chunk) → origin ≠ k) :
    ∀ origin chunk', revising chunk run = some (origin, chunk') → origin ≠ k := by
  intro origin chunk' revised
  have same := @revising_origin chunk run
  rw [revised] at same
  rcases run with _ | ⟨origin', run⟩
  · cases same
  · cases same
    exact apart origin run rfl

theorem Performs.settled (performs : Performs b op b') (past : k < b.clock) (settled : Settled k call b) :
    Settled k call b' := by
  have time : b.clock ≠ k := Nat.ne_of_gt past
  have closed := filter_closing_ne settled.apart
  have ended : ∀ origin (run : CollectedChunk), none = some (origin, run) → origin ≠ k := by
    intro origin run same
    cases same
  cases performs with
  | @ingest chunk b' ingests =>
    cases ingests with
    | merge coalesced opened same =>
      refine ⟨?_, settled.once⟩
      intro origin run same'
      obtain ⟨rfl, -⟩ := Prod.mk.inj (Option.some.inj same')
      exact settled.apart _ _ opened
    | hold held =>
      refine ⟨?_, by simp [settled.once, closed]⟩
      intro origin run same
      cases same
      exact time
    | revise empty opened revised =>
      refine ⟨?_, settled.once⟩
      intro origin run same
      cases same
      exact settled.apart _ _ opened
    | pass plain whole named =>
      exact ⟨ended, by simp [settled.once, closed, filter_own_ne time]⟩
    | anonymous frame kept nameless kind =>
      have revised := filter_closing_ne (@revising_over chunk _ _ settled.apart)
      exact ⟨ended, by simp [settled.once, revised, filter_own_ne time]⟩
    | fold frame kept named status =>
      have revised := filter_closing_ne (@revising_over chunk _ _ settled.apart)
      refine ⟨ended, ?_⟩
      split
      · simp [settled.once, revised, isOwn]
      · simp [settled.once, revised]
  | closeOpenRun => exact ⟨ended, by simp [settled.once, closed]⟩
  | finalize chunk => exact ⟨settled.apart, by simp [settled.once, isOwn]⟩
  | flush apart fresh all => exact ⟨ended, by simp [settled.once, closed, filter_results]⟩

/-- The held call is closed under the identity it has. -/
theorem Holding.settle (holding : Holding k call b) {rest : List Item}
    (others : rest.filter (Item.isOwn k) = []) (closed : b'.openRun = none)
    (chunks : b'.chunks = b.chunks ++ closing (some (k, call)) ++ rest) : Settled k call b' := by
  refine ⟨?_, ?_⟩
  · intro origin run opened
    rw [closed] at opened
    cases opened
  · rw [chunks]
    simp [holding.absent, others, closing, isOwn]

theorem Holding.revised (holding : Holding k call b) : Holding k (revisedBy chunk call)
    { b with openRun := some (k, revisedBy chunk call) } :=
  ⟨rfl, revisedBy_chunkType.trans holding.kind, holding.absent⟩

theorem revisedBy_of_not_names (unnamed : ¬names chunk call = true) : revisedBy chunk call = call := by
  unfold revisedBy
  split
  · rw [if_neg unnamed]
  · rfl

theorem Holding.frame (holding : Holding k call b) {rest : List Item}
    (kept : ∀ origin held, b.openRun = some (origin, held) → names chunk held = true →
      chunk.carriesNoResult = false)
    (others : rest.filter (Item.isOwn k) = []) (closed : b'.openRun = none)
    (chunks : b'.chunks = b.chunks ++ closing (revising chunk b.openRun) ++ rest) (ops : List Op) :
    Settled k (heldThrough call (.ingest chunk :: ops)) b' := by
  have through : heldThrough call (.ingest chunk :: ops) = revisedBy chunk call := by
    unfold heldThrough
    split
    next named => rw [if_neg (by simp [kept k call holding.opened named])]
    next unnamed => exact (revisedBy_of_not_names unnamed).symm
  have shown : Holding k (revisedBy chunk call) { b with openRun := some (k, revisedBy chunk call) } :=
    holding.revised
  rw [through]
  refine shown.settle others closed ?_
  rw [chunks, holding.opened]
  rfl

theorem Performs.holding (performs : Performs b op b') (past : k < b.clock) (holding : Holding k call b)
    (ops : List Op) :
    Settled k (heldThrough call (op :: ops)) b' ∨
      ∃ call', Holding k call' b' ∧ heldThrough call (op :: ops) = heldThrough call' ops := by
  have time : b.clock ≠ k := Nat.ne_of_gt past
  cases performs with
  | @ingest chunk b' ingests =>
    cases ingests with
    | @merge origin run coalesced opened same =>
      obtain ⟨rfl, rfl⟩ := Prod.mk.inj (Option.some.inj (opened.symm.trans holding.opened))
      rw [CollectedChunk.coalesced, ← same, holding.kind] at coalesced
      simp at coalesced
    | hold held =>
      left
      have frame : chunk.chunkType ≠ .toolResult := by
        intro frame
        simp [coalesced, frame] at held
      have through : heldThrough call (.ingest chunk :: ops) = call := by
        simp [heldThrough, names, frame]
      rw [through]
      refine ⟨?_, ?_⟩
      · intro origin run same
        cases same
        exact time
      · simp [holding.absent, holding.opened, closing, isOwn]
    | @revise origin held empty opened revised =>
      right
      obtain ⟨rfl, rfl⟩ := Prod.mk.inj (Option.some.inj (opened.symm.trans holding.opened))
      refine ⟨revisedBy chunk held, ⟨rfl, revisedBy_chunkType.trans holding.kind, holding.absent⟩, ?_⟩
      simp [heldThrough, revised, empty]
    | pass plain whole named =>
      left
      have through : heldThrough call (.ingest chunk :: ops) = call := by
        simp [heldThrough, names, whole]
      rw [through]
      exact holding.settle (filter_own_ne time) rfl (by rw [holding.opened])
    | anonymous frame kept nameless kind =>
      left
      exact holding.frame kept (filter_own_ne time) rfl rfl ops
    | fold frame kept named status =>
      left
      refine holding.frame kept ?_ rfl rfl ops
      split <;> simp [isOwn]
  | closeOpenRun =>
    left
    have nothing : ([] : List Item).filter (isOwn k) = [] := rfl
    exact holding.settle nothing rfl (by simp [holding.opened])
  | finalize chunk =>
    right
    exact ⟨call, ⟨holding.opened, holding.kind, by simp [holding.absent, isOwn]⟩, rfl⟩
  | flush apart fresh all =>
    left
    exact holding.settle (filter_results b.clock _) rfl (by rw [holding.opened])

end Calls

/-! ## Results -/

/-- The call a published result is of. -/
def Item.published : Item → Option String
  | .own .. => none
  | .result _ callId => some callId

/-- The status of a call's result, from the frames folded into it: the last one reported. -/
def foldedStatus (callId : String) (frames : List (String × Option String)) : Option String :=
  (frames.filter (·.1 = callId)).foldl (fun status frame => frame.2 <|> status) none

/-- What is published, and what is not yet. -/
structure Published (b : Buffer) : Prop where
  items : b.chunks.filterMap Item.published = b.emittedResults
  once : b.emittedResults.Nodup
  known : ∀ callId, callId ∈ b.results.map Prod.fst ↔ callId ∈ b.frames.map Prod.fst
  status : ∀ callId canonical, Keyed.get callId b.results = some canonical →
    canonical.metadata.status = foldedStatus callId b.frames
  terminal : ∀ callId, isTerminal (foldedStatus callId b.frames) → callId ∈ b.emittedResults
  emitted : ∀ callId ∈ b.emittedResults, callId ∈ b.frames.map Prod.fst

section Results

variable {chunk : CollectedChunk} {b b' : Buffer} {op : Op} {callId : String}

theorem foldedStatus_append (frames : List (String × Option String)) (other : String) (status : Option String) :
    foldedStatus callId (frames ++ [(other, status)]) =
      if other = callId then status <|> foldedStatus callId frames else foldedStatus callId frames := by
  unfold foldedStatus
  rw [filter_append, foldl_append]
  split
  next same => simp [same]
  next differs => simp [differs]

theorem foldedStatus_none {frames : List (String × Option String)}
    (absent : callId ∉ frames.map Prod.fst) : foldedStatus callId frames = none := by
  have nothing : frames.filter (·.1 = callId) = [] := by
    rw [filter_eq_nil_iff]
    intro frame mem same
    exact absent (mem_map.2 ⟨frame, mem, by simpa using same⟩)
  rw [foldedStatus, nothing]
  rfl

theorem published_closing (run : Option (Nat × CollectedChunk)) :
    (closing run).filterMap Item.published = [] := by
  rcases run with _ | ⟨origin, run⟩ <;> rfl

theorem published_results (time : Nat) (ids : List String) :
    (ids.map (Item.result time)).filterMap Item.published = ids := by
  induction ids with
  | nil => rfl
  | cons id rest ih => simpa [published] using ih

/-- An operation that publishes nothing. -/
theorem Published.quiet (published : Published b) (results : b'.results = b.results)
    (emitted : b'.emittedResults = b.emittedResults) (frames : b'.frames = b.frames)
    (chunks : b'.chunks.filterMap Item.published = b.chunks.filterMap Item.published) : Published b' := by
  obtain ⟨chunks', openRun', results', emitted', frames', clock'⟩ := b'
  simp only at results emitted frames chunks
  subst results emitted frames
  exact ⟨chunks.trans published.items, published.once, published.known, published.status,
    published.terminal, published.emitted⟩

theorem Published.folds (published : Published b) {canonical : CollectedChunk}
    (status : canonical.metadata.status = (chunk.metadata.status <|>
      (Keyed.get chunk.resultId b.results).bind (·.metadata.status))) :
    canonical.metadata.status =
      foldedStatus chunk.resultId (b.frames ++ [(chunk.resultId, chunk.metadata.status)]) := by
  rw [status, foldedStatus_append, if_pos rfl]
  rcases found : Keyed.get chunk.resultId b.results with _ | before
  · have absent : chunk.resultId ∉ b.frames.map Prod.fst := by
      rw [← published.known, ← Keyed.get_eq_none]
      exact found
    rw [foldedStatus_none absent, Option.bind_none]
  · rw [Option.bind_some, published.status _ _ found]

/-- A frame is folded into its result, which is published now if it is terminal and not out. -/
theorem Published.fold (published : Published b) {canonical : CollectedChunk} {time : Nat}
    {run : Option (Nat × CollectedChunk)} {clock : Nat}
    (status : canonical.metadata.status = (chunk.metadata.status <|>
      (Keyed.get chunk.resultId b.results).bind (·.metadata.status))) :
    Published
      { chunks := b.chunks ++ closing run ++
          if isTerminal canonical.metadata.status ∧ chunk.resultId ∉ b.emittedResults then
            [.result time chunk.resultId]
          else []
        openRun := none
        results := Keyed.setItem chunk.resultId canonical b.results
        frames := b.frames ++ [(chunk.resultId, chunk.metadata.status)]
        emittedResults := b.emittedResults ++
          if isTerminal canonical.metadata.status ∧ chunk.resultId ∉ b.emittedResults then
            [chunk.resultId]
          else []
        clock := clock } := by
  have folded := published.folds status
  refine ⟨?_, ?_, ?_, ?_, ?_, ?_⟩
  · simp only [filterMap_append, published_closing, append_nil, published.items]
    split <;> rfl
  · dsimp only
    split
    next due =>
      refine nodup_append.2 ⟨published.once, by simp, ?_⟩
      intro id out other last same
      rw [mem_singleton] at last
      exact due.2 (last ▸ same ▸ out)
    next => simpa using published.once
  · intro callId
    rw [Keyed.mem_keys_setItem, published.known]
    simp [eq_comm, or_comm]
  · intro callId result found
    rw [Keyed.get_setItem] at found
    rw [foldedStatus_append]
    split at found
    next same =>
      cases found
      rw [if_pos same, folded, foldedStatus_append, if_pos rfl, same]
    next other =>
      rw [if_neg other]
      exact published.status callId result found
  · intro callId terminal
    rw [foldedStatus_append] at terminal
    by_cases same : chunk.resultId = callId
    · subst same
      rw [← foldedStatus_append, ← folded] at terminal
      by_cases out : chunk.resultId ∈ b.emittedResults
      · exact mem_append_left _ out
      refine mem_append_right _ ?_
      rw [if_pos ⟨terminal, out⟩]
      exact mem_singleton_self _
    · rw [if_neg same] at terminal
      exact mem_append_left _ (published.terminal callId terminal)
  · intro callId mem
    rw [map_append]
    rcases mem_append.1 mem with out | now
    · exact mem_append_left _ (published.emitted callId out)
    split at now
    · rw [mem_singleton] at now
      simp [now]
    · cases now

theorem Performs.published (performs : Performs b op b') (published : Published b) : Published b' := by
  cases performs with
  | @ingest chunk b' ingests =>
    cases ingests with
    | merge coalesced opened same | revise empty opened revised => exact published.quiet rfl rfl rfl rfl
    | hold held => exact published.quiet rfl rfl rfl (by simp [published_closing])
    | pass plain whole named | anonymous frame kept nameless kind =>
      exact published.quiet rfl rfl rfl (by simp [published_closing, Item.published])
    | fold frame kept named status => exact published.fold status
  | closeOpenRun => exact published.quiet rfl rfl rfl (by simp [published_closing])
  | finalize chunk => exact published.quiet rfl rfl rfl (by simp [Item.published])
  | @flush new apart fresh all =>
    refine ⟨?_, ?_, published.known, published.status, ?_, ?_⟩
    · simp only [filterMap_append, published_closing, published_results, published.items, append_nil]
    · refine nodup_append.2 ⟨published.once, apart, ?_⟩
      intro id out other now same
      exact (fresh other now).2 (same ▸ out)
    · exact fun callId terminal => mem_append_left _ (published.terminal callId terminal)
    intro callId mem
    rcases mem_append.1 mem with out | now
    · exact published.emitted callId out
    · exact (published.known callId).1 (fresh callId now).1

/-- A result is published by the first frame that makes its folded status terminal, or by a flush. -/
theorem Performs.emitted_iff (performs : Performs b op b') (published : Published b) :
    callId ∈ b'.emittedResults ↔ callId ∈ b.emittedResults ∨ (op = .flush ∧ callId ∈ b.frames.map Prod.fst) ∨
      ∃ chunk, op = .ingest chunk ∧ b'.frames = b.frames ++ [(callId, chunk.metadata.status)] ∧
        isTerminal (foldedStatus callId b'.frames) := by
  have quiet : ∀ {frames : List (String × Option String)} {status : Option String},
      frames ≠ frames ++ [(callId, status)] := by simp
  cases performs with
  | @ingest chunk b' ingests =>
    cases ingests with
    | @fold canonical frame kept named status =>
      have folded := published.folds status
      simp only [mem_append, reduceCtorEq, false_and, false_or]
      constructor
      · rintro (out | now)
        · exact .inl out
        split at now
        next due =>
          rw [mem_singleton] at now
          subst now
          exact .inr ⟨chunk, rfl, rfl, folded ▸ due.1⟩
        · cases now
      · rintro (out | ⟨other, same, added, terminal⟩)
        · exact .inl out
        obtain rfl := Op.ingest.inj same
        obtain ⟨rfl, -⟩ := Prod.mk.inj (singleton_inj.1 (append_cancel_left added))
        by_cases out : chunk.resultId ∈ b.emittedResults
        · exact .inl out
        right
        rw [if_pos ⟨folded ▸ terminal, out⟩]
        exact mem_singleton_self _
    | _ => simp
  | closeOpenRun | finalize chunk => simp
  | @flush new apart fresh all =>
    simp only [mem_append, true_and, reduceCtorEq, false_and, exists_false, or_false]
    constructor
    · rintro (out | now)
      · exact .inl out
      · exact .inr ((published.known callId).1 (fresh callId now).1)
    · rintro (out | known)
      · exact .inl out
      · exact mem_append.1 (all callId ((published.known callId).2 known))

theorem Performs.frames_ingest (performs : Performs b (.ingest chunk) b')
    (frame : chunk.chunkType = .toolResult) (named : chunk.resultId ≠ "")
    (bears : chunk.carriesNoResult = false) :
    b'.frames = b.frames ++ [(chunk.resultId, chunk.metadata.status)] := by
  cases performs with
  | @ingest _ b' ingests =>
    cases ingests with
    | merge coalesced opened same => simp [CollectedChunk.coalesced, frame] at coalesced
    | hold held => simp [CollectedChunk.coalesced, frame] at held
    | revise empty opened revised =>
      rw [bears] at empty
      cases empty
    | pass plain whole awaits => exact absurd frame whole
    | anonymous _ kept nameless kind => exact absurd nameless named
    | fold _ kept _ status => rfl

theorem Performs.frames_grow (performs : Performs b op b') : ∃ more, b'.frames = b.frames ++ more := by
  cases performs with
  | @ingest chunk b' ingests =>
    cases ingests with
    | fold frame kept named status => exact ⟨_, rfl⟩
    | _ => exact ⟨[], by simp⟩
  | _ => exact ⟨[], by simp⟩

end Results

end BandSdk.Acp

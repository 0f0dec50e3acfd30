/-
# Acp.Activity -- what the sink is told of running calls

Only `observeActivity` reads or writes what the notices depend on; `Tells` says what an
operation tells the sink.  `Told` is the invariant: the starts and ends of a call
alternate, and the call runs exactly after a start.
-/
import BandSdk.Acp.Laws

namespace BandSdk.Acp

open BandSdk.Theory List

/-! ## Running calls -/

/-- A list that alternates, from `first` on. -/
def Alternates : Bool → List Bool → Prop
  | _, [] => True
  | first, mark :: rest => mark = first ∧ Alternates (!first) rest

/-- What an alternating list goes on with. -/
def following (first : Bool) (marks : List Bool) : Bool :=
  if marks.length % 2 = 0 then first else !first

theorem alternates_append {first mark : Bool} {marks : List Bool} :
    Alternates first (marks ++ [mark]) ↔ Alternates first marks ∧ mark = following first marks := by
  induction marks generalizing first with
  | nil => simp [Alternates, following]
  | cons head rest ih =>
    have flips : following (!first) rest = following first (head :: rest) := by
      simp only [following, length_cons]
      split <;> split <;> first | omega | simp
    simp only [cons_append, Alternates, ih, flips, and_assoc]

/-- A start or an end of this call. -/
def Notice.mark (callId : String) : Notice → Option Bool
  | .started call => if call.toolCallId = callId then some true else none
  | .updated _ => none
  | .ended other => if other = callId then some false else none

namespace Session

variable {loads : String → Option Json} {s : Session} {chunk : CollectedChunk} {item : Item}
  {callId : String}

def marks (callId : String) (s : Session) : List Bool := s.notices.filterMap (Notice.mark callId)

/-- What the activity of calls depends on. -/
def told (s : Session) : List (String × CallActivity) × List Notice × Bool :=
  (s.activityCalls, s.notices, s.sink.isSome)

theorem finalize_told : (s.finalize item).told = s.told := by
  unfold finalize
  dsimp only
  split
  · split <;> rfl
  · rfl

theorem closeOpenRun_told : s.closeOpenRun.told = s.told := by
  unfold closeOpenRun
  split
  · rfl
  · exact finalize_told

theorem keepResult_told {status : Option String} {canonical : CollectedChunk} :
    (s.keepResult callId status canonical).told = s.told := by
  unfold keepResult
  dsimp only
  split
  · exact finalize_told
  · rfl

theorem ingestToolResult_told : (s.ingestToolResult loads chunk).told = s.told := by
  unfold ingestToolResult
  dsimp only
  split
  · exact finalize_told
  · exact keepResult_told

theorem rememberCall_told : (s.rememberCall chunk).told = s.told := by
  unfold rememberCall
  split
  · split <;> rfl
  · rfl

theorem admitChunk_told : (s.admitChunk loads chunk).told = s.told := by
  unfold admitChunk
  rw [← @rememberCall_told s chunk]
  generalize s.rememberCall chunk = s
  dsimp only
  split
  · split
    · split
      · rfl
      · exact closeOpenRun_told
    · exact closeOpenRun_told
  · rw [← @closeOpenRun_told s]
    generalize s.closeOpenRun = s
    split
    · exact ingestToolResult_told
    split
    · rfl
    · exact finalize_told

theorem ingest_told : (s.ingest loads chunk).told = (s.observeActivity chunk).told := by
  unfold ingest
  dsimp only
  generalize s.observeActivity chunk = s
  have revised : ∀ revision, (s.reviseHeldCall revision).2.told = s.told := by
    intro revision
    unfold reviseHeldCall
    split
    · rfl
    · split <;> rfl
  split
  · split
    next revision known =>
      split
      · exact revised revision
      · exact admitChunk_told.trans (revised revision)
    · exact admitChunk_told
  · exact admitChunk_told

theorem flushResults_told (ids : List String) (s : Session) : (flushResults ids s).told = s.told := by
  induction ids generalizing s with
  | nil => rfl
  | cons id rest ih =>
    unfold flushResults
    split
    · exact ih s
    · exact (ih _).trans finalize_told

theorem flush_told : s.flush.told = s.told := (flushResults_told _ _).trans closeOpenRun_told

/-! ### One observation -/

/-- What the sink hears of an update: a start, an end, something else or nothing. -/
def noticesOf (previous status : Option String) (call : ACPToolActivity) (callId : String) : List Notice :=
  if status = some ToolStatus.inProgress then
    [if previous = some ToolStatus.inProgress then .updated call else .started call]
  else if previous = some ToolStatus.inProgress then [.ended callId]
  else []

variable {call : ACPToolActivity} {s' : Session} {previous status : Option String}

theorem reportActivity_told :
    (s.reportActivity previous status call callId).told =
      (s.activityCalls, s.notices ++ (if s.sink.isSome then noticesOf previous status call callId else []),
        s.sink.isSome) := by
  unfold reportActivity noticesOf notify
  split
  · split <;> simp [told]
  split
  · split <;> simp [told]
  · simp [told]

/-- What an operation tells the sink about a call. -/
inductive Tells (s : Session) : Op → Session → Prop where
  /-- Nothing is observed. -/
  | quiet {op : Op} {s' : Session} (same : s'.told = s.told)
      (mute : ∀ chunk, op = .ingest chunk →
        (chunk.chunkType ≠ .toolCall ∧ chunk.chunkType ≠ .toolResult) ∨ chunk.activityId = "") :
      Tells s op s'
  /-- A call that is over is only remembered. -/
  | finished {chunk : CollectedChunk} {s' : Session} (named : chunk.activityId ≠ "")
      (terminal : isTerminal (s.activityOf chunk.activityId).status = true)
      (same : s'.told = (Keyed.setItem chunk.activityId (s.activityOf chunk.activityId) s.activityCalls,
        s.notices, s.sink.isSome)) :
      Tells s (.ingest chunk) s'
  /-- A call is observed. -/
  | observed {chunk : CollectedChunk} {s' : Session} (named : chunk.activityId ≠ "")
      (going : isTerminal (s.activityOf chunk.activityId).status = false)
      (same : s'.told =
        (Keyed.setItem chunk.activityId
            { call := chunk.identity (s.activityOf chunk.activityId).call
              status := chunk.metadata.status <|> (s.activityOf chunk.activityId).status } s.activityCalls,
          s.notices ++ (if s.sink.isSome then
            noticesOf (s.activityOf chunk.activityId).status
              (chunk.metadata.status <|> (s.activityOf chunk.activityId).status)
              (chunk.identity (s.activityOf chunk.activityId).call) chunk.activityId
          else []), s.sink.isSome)) :
      Tells s (.ingest chunk) s'

theorem step_tells (op : Op) : Tells s op (s.step loads op) := by
  cases op with
  | ingest chunk =>
    have same : (s.step loads (.ingest chunk)).told = (s.observeActivity chunk).told := ingest_told
    unfold observeActivity at same
    dsimp only at same
    split at same
    next other =>
      refine .quiet same ?_
      intro chunk' same'
      obtain rfl := Op.ingest.inj same'
      exact .inl other
    next =>
      split at same
      next nameless =>
        refine .quiet same ?_
        intro chunk' same'
        obtain rfl := Op.ingest.inj same'
        exact .inr nameless
      next named =>
        split at same
        next terminal => exact .finished named terminal same
        next going =>
          rw [reportActivity_told] at same
          exact .observed named (by simpa using going) same
  | closeOpenRun => exact .quiet closeOpenRun_told fun _ other => by cases other
  | finalize chunk => exact .quiet finalize_told fun _ other => by cases other
  | flush => exact .quiet flush_told fun _ other => by cases other

/-! ### What was told -/

/-- Starts and ends of a call alternate, and the call runs after a start. -/
structure Told (s : Session) : Prop where
  named : ∀ callId state, Keyed.get callId s.activityCalls = some state → state.call.toolCallId = callId
  silent : s.sink.isSome = false → s.notices = []
  alternates : ∀ callId, Alternates true (s.marks callId)
  runs : s.sink.isSome = true → ∀ callId, following true (s.marks callId) =
    decide ((s.activityOf callId).status ≠ some ToolStatus.inProgress)

theorem told_eq {calls : List (String × CallActivity)} {notices : List Notice} {sink : Bool}
    (same : s'.told = (calls, notices, sink)) :
    s'.activityCalls = calls ∧ s'.notices = notices ∧ s'.sink.isSome = sink := by
  obtain ⟨calls, rest⟩ := Prod.mk.inj same
  obtain ⟨notices, sink⟩ := Prod.mk.inj rest
  exact ⟨calls, notices, sink⟩

theorem activityOf_setItem {other : String} {state : CallActivity}
    (calls : s'.activityCalls = Keyed.setItem other state s.activityCalls) :
    s'.activityOf callId = if other = callId then state else s.activityOf callId := by
  rw [activityOf, calls, Keyed.get_setItem]
  split
  · rfl
  · rfl

theorem Told.activityOf_named (told : Told s) : (s.activityOf callId).call.toolCallId = callId := by
  unfold activityOf
  rcases found : Keyed.get callId s.activityCalls with _ | state
  · rfl
  · exact told.named callId state found

theorem identity_named (formed : WellFormed chunk) (named : call.toolCallId = chunk.activityId) :
    (chunk.identity call).toolCallId = chunk.activityId := by
  unfold CollectedChunk.identity
  split
  next revision known =>
    split
    · exact formed.activity revision known
    · exact named
  · exact named

/-- What an update says of its own call. -/
theorem marks_noticesOf (named : call.toolCallId = callId) :
    (noticesOf previous status call callId).filterMap (Notice.mark callId) =
      if status = some ToolStatus.inProgress then
        if previous = some ToolStatus.inProgress then [] else [true]
      else if previous = some ToolStatus.inProgress then [false] else [] := by
  unfold noticesOf
  split
  · split <;> simp [Notice.mark, named]
  · split <;> simp [Notice.mark]

/-- An update says nothing of another call. -/
theorem marks_noticesOf_ne {other : String} (named : call.toolCallId = callId) (differs : callId ≠ other) :
    (noticesOf previous status call callId).filterMap (Notice.mark other) = [] := by
  unfold noticesOf
  split
  · split <;> simp [Notice.mark, named, differs]
  · split <;> simp [Notice.mark, differs]

theorem following_append {first mark : Bool} {marks : List Bool} :
    following first (marks ++ [mark]) = !following first marks := by
  simp only [following, length_append, length_singleton]
  split <;> split <;> first | omega | simp

/-- An update the sink hears of. -/
theorem Told.observed {status : Option String} (told : Told s) (named : call.toolCallId = callId)
    (notices : s'.notices = s.notices ++
      (if s.sink.isSome then noticesOf (s.activityOf callId).status status call callId else []))
    (calls : s'.activityCalls = Keyed.setItem callId { call := call, status := status } s.activityCalls)
    (listening : s.sink.isSome = true) (other : String) :
    Alternates true (s'.marks other) ∧ following true (s'.marks other) =
      decide ((s'.activityOf other).status ≠ some ToolStatus.inProgress) := by
  have before := told.alternates other
  have next := told.runs listening other
  rw [if_pos listening] at notices
  rw [activityOf_setItem calls, marks, notices, filterMap_append]
  by_cases same : callId = other
  · subst same
    rw [marks_noticesOf named, if_pos rfl]
    rw [marks] at before next
    by_cases now : status = some ToolStatus.inProgress
    · by_cases previous : (s.activityOf callId).status = some ToolStatus.inProgress
      · rw [if_pos now, if_pos previous, append_nil]
        exact ⟨before, by rw [next, previous, now]⟩
      · rw [if_pos now, if_neg previous, alternates_append, following_append, next]
        exact ⟨⟨before, by simp [previous]⟩, by simp [previous, now]⟩
    · by_cases previous : (s.activityOf callId).status = some ToolStatus.inProgress
      · rw [if_neg now, if_pos previous, alternates_append, following_append, next]
        exact ⟨⟨before, by simp [previous]⟩, by simp [previous, now]⟩
      · rw [if_neg now, if_neg previous, append_nil]
        exact ⟨before, by rw [next]; simp [previous, now]⟩
  · rw [marks_noticesOf_ne named same, append_nil, if_neg same]
    exact ⟨before, next⟩

theorem Tells.told {op : Op} (tells : Tells s op s') (told : Told s) (formed : op.wellFormed) : Told s' := by
  cases tells with
  | quiet same mute =>
    obtain ⟨calls, notices, sink⟩ := told_eq same
    refine ⟨?_, ?_, ?_, ?_⟩
    · rw [calls]
      exact told.named
    · rw [sink, notices]
      exact told.silent
    · unfold marks
      rw [notices]
      exact told.alternates
    · unfold marks activityOf
      rw [sink, notices, calls]
      exact told.runs
  | @finished chunk s' named terminal same =>
    obtain ⟨calls, notices, sink⟩ := told_eq same
    have kept : ∀ callId, s'.activityOf callId = s.activityOf callId := by
      intro callId
      rw [activityOf_setItem calls]
      split
      next same => rw [same]
      · rfl
    refine ⟨?_, ?_, ?_, ?_⟩
    · intro callId state found
      rw [calls, Keyed.get_setItem] at found
      split at found
      next same =>
        cases found
        rw [← same]
        exact told.activityOf_named
      · exact told.named callId state found
    · rw [sink, notices]
      exact told.silent
    · unfold marks
      rw [notices]
      exact told.alternates
    · intro listening callId
      rw [kept, marks, notices]
      exact told.runs (sink ▸ listening) callId
  | @observed chunk s' named going same =>
    obtain ⟨calls, notices, sink⟩ := told_eq same
    have identity : (chunk.identity (s.activityOf chunk.activityId).call).toolCallId =
        chunk.activityId := identity_named formed told.activityOf_named
    refine ⟨?_, ?_, ?_, ?_⟩
    · intro callId state found
      rw [calls, Keyed.get_setItem] at found
      split at found
      next same =>
        cases found
        exact identity.trans same
      · exact told.named callId state found
    · intro silent
      rw [sink] at silent
      rw [notices, silent, told.silent silent]
      rfl
    · intro callId
      rcases listening : s.sink.isSome with _ | _
      · have nothing : s'.notices = [] := by
          rw [notices, listening, told.silent listening]
          rfl
        rw [marks, nothing]
        trivial
      · exact (told.observed identity notices calls listening callId).1
    · intro listening callId
      exact (told.observed identity notices calls (sink ▸ listening) callId).2

/-- A terminal status reported of a call is the last thing observed of it. -/
theorem Tells.terminal {op : Op} (tells : Tells s op s')
    (terminal : isTerminal (s.activityOf callId).status = true) :
    isTerminal (s'.activityOf callId).status = true ∧ (Told s → op.wellFormed → s'.marks callId = s.marks callId) := by
  cases tells with
  | quiet same mute =>
    obtain ⟨calls, notices, sink⟩ := told_eq same
    unfold activityOf marks at *
    rw [calls, notices]
    exact ⟨terminal, fun _ _ => rfl⟩
  | @finished chunk s' named _ same =>
    obtain ⟨calls, notices, sink⟩ := told_eq same
    rw [activityOf_setItem calls, marks, notices]
    refine ⟨?_, fun _ _ => rfl⟩
    split
    next same => rwa [same]
    · exact terminal
  | @observed chunk s' named going same =>
    obtain ⟨calls, notices, sink⟩ := told_eq same
    have other : chunk.activityId ≠ callId := by
      rintro rfl
      rw [terminal] at going
      cases going
    rw [activityOf_setItem calls, if_neg other]
    refine ⟨terminal, ?_⟩
    intro told formed
    have identity : (chunk.identity (s.activityOf chunk.activityId).call).toolCallId =
        chunk.activityId := identity_named formed told.activityOf_named
    rw [marks, marks, notices, filterMap_append]
    split
    · rw [marks_noticesOf_ne identity other, append_nil]
    · simp

theorem Tells.reported (tells : Tells s (.ingest chunk) s')
    (tool : chunk.chunkType = .toolCall ∨ chunk.chunkType = .toolResult) (named : chunk.activityId ≠ "")
    (terminal : isTerminal chunk.metadata.status = true) :
    isTerminal (s'.activityOf chunk.activityId).status = true := by
  cases tells with
  | quiet same mute =>
    rcases mute chunk rfl with other | nameless
    · rcases tool with same | same
      · exact absurd same other.1
      · exact absurd same other.2
    · exact absurd nameless named
  | finished _ before same =>
    obtain ⟨calls, -, -⟩ := told_eq same
    rw [activityOf_setItem calls, if_pos rfl]
    exact before
  | observed _ going same =>
    obtain ⟨calls, -, -⟩ := told_eq same
    rw [activityOf_setItem calls, if_pos rfl]
    rcases status : chunk.metadata.status with _ | status
    · rw [status] at terminal
      cases terminal
    · rwa [status] at terminal

end Session

end BandSdk.Acp

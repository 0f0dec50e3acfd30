/-
# Scheduling.Boundaries -- a local event before the originals that came after it

A local event (housekeeping, or a contact-hub turn) holds its place on the room's
line: an ordinary original received behind it runs only once the event was
dispatched and dropped.  Four scans of the line enforce it: `next_local` runs the
event first where it can, `local_segment` and `batch_candidates` keep a batch in
front of it, and `local_predecessor` redirects a selection that a read brought
up from behind it.

`stage` and `choose` say which of its calls a step makes, with the scheduler it
makes it on; `step_stage` and `runSelection_choose` are the proof that they do.
-/
import BandSdk.Scheduling.Departures

namespace BandSdk.Scheduling

open BandSdk.Theory BandSdk.Turns List

variable {I ρ C : Type} [LinearOrder I]

/-! ## What a step calls -/

/-- How `step` ends, or what it goes on with. -/
inductive Stage (I ρ C : Type) where
  | ended (outcome : Option ResyncOutcome) (s : Scheduler I ρ C)
  | localEvent (event : Event I) (s : Scheduler I ρ C)
  | selection (read : PageRead I C) (s : Scheduler I ρ C)

/-- What `run_selection` does with its selection; `missing` is a redirection to a
predecessor that is not among the candidates. -/
inductive Choice (I ρ C : Type) where
  | ended (outcome : ResyncOutcome) (s : Scheduler I ρ C)
  | localEvent (event : Event I) (s : Scheduler I ρ C)
  | missing (s : Scheduler I ρ C)
  | turn (members : List (Candidate I)) (s : Scheduler I ρ C)

def Stage.carry (room : Settings ρ) (answers : Answers I ρ C) :
    Stage I ρ C → Option ResyncOutcome × Scheduler I ρ C
  | .ended outcome s => (outcome, s)
  | .localEvent event s => s.dispatchLocal room event answers
  | .selection read s => s.runSelection room read answers

def Choice.carry (room : Settings ρ) (answers : Answers I ρ C) :
    Choice I ρ C → Option ResyncOutcome × Scheduler I ρ C
  | .ended outcome s => (some outcome, s)
  | .localEvent event s => s.dispatchLocal room event answers
  | .missing s => (none, s)
  | .turn members s => s.dispatchSelection room members answers

namespace Scheduler

variable (room : Settings ρ) (s : Scheduler I ρ C)

/-- `step`, up to its last call. -/
def stage (answers : Answers I ρ C) : Stage I ρ C :=
  let s := s.absorb
  if s.world.host.stopped || s.world.host.closing then .ended (some .stopped) s
  else
    let recovery := s.active.recovery || !s.syncComplete
    let ready := (s.nextLocal room).filter fun event =>
      !recovery || room.batching || (s.deferredId.isSome && event.deliveryId = s.deferredId)
    match ready with
    | some event => .localEvent event s
    | none =>
      match s.readPage room recovery answers with
      | (.error outcome, s) => .ended outcome s
      | (.ok read, s) =>
        if s.world.host.stopped then .ended (some .stopped) s
        else
          let queued := if read.rows = [] ∧ s.syncComplete = true then s.nextLocal room else none
          match queued with
          | some event => .localEvent event s
          | none => .selection read s

/-- The input a selection asks for first. -/
def nextInput (selection : Selection I) : Option (Candidate I) :=
  if selection.members = [] then selection.at_ else selection.members.head?

/-- The event a selection has to wait for. -/
def prior (selection : Selection I) : Option (Event I) :=
  if selection.stop = .frontier then none
  else (nextInput selection).bind fun c => s.localPredecessor room c.messageId

def selectionOf (read : PageRead I C) (cs : List (Candidate I)) : Selection I :=
  selectPrefix
    { listed := read.rows.map Message.id, pageReaches := MessageKey.lastOf read.rows
      exhausted := read.exhausted, resumed := s.active.resumedRetries } room.turnSize cs []

/-- `run_selection` on its selection, up to its last call. -/
def chooseFrom (read : PageRead I C) (cs : List (Candidate I)) (selection : Selection I)
    (skipped : List I) (segment : List (Message I)) : Choice I ρ C :=
  match s.prior room selection with
  | some event =>
    if event.isOrdinary = false then .localEvent event s
    else
      match cs.find? fun c => c.retained && event.deliveryId = some c.messageId with
      | none => .missing s
      | some member => .turn [member] s
  | none =>
    if selection.members ≠ [] then .turn selection.members s
    else
      match selection.stop, selection.at_ with
      | .held, some c => .ended .blocked (s.defer (some c.messageId))
      | _, _ => .ended (s.advanceScan room read skipped segment).1
          (s.advanceScan room read skipped segment).2

/-- `run_selection`, up to its last call. -/
def choose (read : PageRead I C) : Choice I ρ C :=
  let (cs, t) := s.selectable room read
  let (skipped, u) := t.pruneSkipped room cs (MessageKey.lastOf read.rows) read.exhausted
  u.chooseFrom room read cs (t.selectionOf room read cs) skipped s.localSegment.1

variable {room s}

theorem step_stage (answers : Answers I ρ C) :
    s.step room answers = (s.stage room answers).carry room answers := by
  unfold step stage
  dsimp only
  split
  · rfl
  generalize Option.filter _ (s.absorb.nextLocal room) = ready
  cases ready with
  | some event => rfl
  | none =>
    generalize s.absorb.readPage room _ answers = paged
    obtain ⟨answer, t⟩ := paged
    cases answer with
    | error outcome => rfl
    | ok read =>
      dsimp only
      split
      · rfl
      · generalize (if read.rows = [] ∧ t.syncComplete = true then t.nextLocal room else none) = queued
        cases queued <;> rfl

theorem runSelected_chooseFrom (read : PageRead I C) (cs : List (Candidate I))
    (selection : Selection I) (skipped : List I) (segment : List (Message I))
    (answers : Answers I ρ C) : s.runSelected room read cs selection skipped segment answers =
      (s.chooseFrom room read cs selection skipped segment).carry room answers := by
  have asked : (if selection.stop = .frontier then none
      else (if selection.members = [] then selection.at_ else selection.members.head?).bind
        fun c => s.localPredecessor room c.messageId) = s.prior room selection := rfl
  unfold runSelected chooseFrom
  dsimp only
  rw [asked]
  cases s.prior room selection with
  | some event =>
    dsimp only
    split
    · rfl
    · generalize List.find? _ cs = found
      cases found <;> rfl
  | none =>
    dsimp only
    split
    · rfl
    · cases selection.stop <;> cases selection.at_ <;> rfl

theorem runSelection_choose (read : PageRead I C) (answers : Answers I ρ C) :
    s.runSelection room read answers = (s.choose room read).carry room answers :=
  runSelected_chooseFrom _ _ _ _ _ _

/-! ## The line -/

/-- The ordinary original `i` is on the line, and a local event is in front of it. -/
def BehindLocal (s : Scheduler I ρ C) (i : I) : Prop :=
  ∃ before event after, s.pending.events = before ++ event :: after ∧ event.isOrdinary = true ∧
    event.deliveryId = some i ∧ ∃ first ∈ before, first.isOrdinary = false

/-- The ids the hub mints for its own turns are not those of the rows. -/
def Apart (s : Scheduler I ρ C) (rows : List (Message I)) : Prop :=
  ∀ event ∈ s.pending.events, event.isSynthetic = true → ∀ row ∈ rows, event.deliveryId ≠ some row.id

section Line

variable {t u : Scheduler I ρ C} {identity : I} {events : List (Event I)}

omit [LinearOrder I] in
theorem isOrdinary_of_original {event : Event I} {payload : Message I}
    (original : event.original = some payload) : event.isOrdinary = true := by
  rw [Event.original_eq_some.1 original]
  rfl

omit [LinearOrder I] in
theorem original_of_isOrdinary {event : Event I} (ordinary : event.isOrdinary = true) :
    ∃ payload, event = .message payload false := by
  cases event with
  | message payload synthetic =>
    cases synthetic with
    | false => exact ⟨payload, rfl⟩
    | true => cases ordinary
  | bare | roster serial => cases ordinary

omit [LinearOrder I] in
theorem isOrdinary_of_holdsRetry {event : Event I} (holds : s.holdsRetry room event = true) :
    event.isOrdinary = true := by
  unfold holdsRetry at holds
  cases original : event.original with
  | none => rw [original] at holds; cases holds
  | some payload => exact isOrdinary_of_original original

/-- A line without the identity has no predecessor for it. -/
theorem search_absent (absent : ∀ event ∈ events, event.deliveryId ≠ some identity)
    (head : Option (Event I)) (boundary : Bool) :
    localPredecessor.search room s identity events head boundary = none := by
  induction events generalizing head boundary with
  | nil => rfl
  | cons event rest ih =>
    have later := ih fun e inside => absent e (mem_cons_of_mem _ inside)
    unfold localPredecessor.search
    split
    · exact later head boundary
    · rw [if_neg (absent event mem_cons_self)]
      exact later _ _

theorem search_clear (clear : ∀ before event after, events = before ++ event :: after →
      event.deliveryId = some identity → ∀ e ∈ before, e.isOrdinary = true)
    (head : Option (Event I)) :
    localPredecessor.search room s identity events head false = none := by
  induction events generalizing head with
  | nil => rfl
  | cons event rest ih =>
    have later : ∀ before e after, rest = before ++ e :: after → e.deliveryId = some identity →
        ∀ x ∈ event :: before, x.isOrdinary = true := by
      intro before e after split id
      exact clear (event :: before) e after (by rw [split]; rfl) id
    have onward := ih fun before e after split id x inside =>
      later before e after split id x (mem_cons_of_mem _ inside)
    unfold localPredecessor.search
    split
    · exact onward head
    split
    · rfl
    cases ordinary : event.isOrdinary with
    | true => exact onward _
    | false =>
      -- nothing behind this local event has the identity
      refine search_absent ?_ _ _
      intro e inside id
      obtain ⟨before, after, split⟩ := append_of_mem inside
      have := later before e after split id event mem_cons_self
      rw [ordinary] at this
      cases this

/-- An original behind a local event has a predecessor, unless it is held. -/
theorem search_behind {before after : List (Event I)} {event : Event I}
    (id : event.deliveryId = some identity) (free : s.holdsRetry room event = false)
    (fresh : ∀ e ∈ before, e.deliveryId ≠ some identity) (head : Option (Event I)) (boundary : Bool)
    (behind : (boundary = true ∧ head.isSome = true) ∨ ∃ e ∈ before, e.isOrdinary = false) :
    (localPredecessor.search room s identity (before ++ event :: after) head boundary).isSome = true := by
  induction before generalizing head boundary with
  | nil =>
    obtain ⟨rfl, known⟩ := behind.resolve_right (by simp)
    simp [localPredecessor.search, free, id, known]
  | cons first rest ih =>
    have ih := ih fun e inside => fresh e (mem_cons_of_mem _ inside)
    have passes : first.deliveryId ≠ some identity := fresh first mem_cons_self
    simp only [cons_append]
    unfold localPredecessor.search
    rw [if_neg passes]
    split
    next holds =>
      refine ih head boundary (behind.imp_right ?_)
      rintro ⟨e, inside, local_⟩
      rcases mem_cons.1 inside with rfl | inside
      · rw [isOrdinary_of_holdsRetry holds] at local_
        cases local_
      · exact ⟨e, inside, local_⟩
    next =>
      refine ih _ _ ?_
      rcases behind with ⟨rfl, known⟩ | ⟨e, inside, local_⟩
      · refine .inl ⟨by simp, ?_⟩
        cases head with
        | none => cases known
        | some h => rfl
      · rcases mem_cons.1 inside with rfl | inside
        · refine .inl ⟨by simp [local_], ?_⟩
          cases head <;> rfl
        · exact .inr ⟨e, inside, local_⟩

theorem search_head {event first : Event I} (boundary : Bool)
    (found : localPredecessor.search room s identity events (some first) boundary = some event) :
    event = first := by
  induction events generalizing boundary with
  | nil => cases found
  | cons next rest ih =>
    unfold localPredecessor.search at found
    split at found
    · exact ih boundary found
    split at found
    · obtain ⟨-, found⟩ := of_passed found
      exact (Option.some.inj found).symm
    · exact ih _ found

theorem search_first {event : Event I} (boundary : Bool)
    (found : localPredecessor.search room s identity events none boundary = some event) :
    ∃ before after, events = before ++ event :: after ∧ ∀ e ∈ before, e.isOrdinary = true := by
  induction events generalizing boundary with
  | nil => cases found
  | cons first rest ih =>
    unfold localPredecessor.search at found
    split at found
    next holds =>
      obtain ⟨before, after, split, all⟩ := ih boundary found
      refine ⟨first :: before, after, by rw [split]; rfl, ?_⟩
      intro e inside
      rcases mem_cons.1 inside with rfl | inside
      · exact isOrdinary_of_holdsRetry holds
      · exact all e inside
    next =>
      split at found
      · split at found <;> cases found
      · obtain rfl := search_head _ found
        exact ⟨[], rest, rfl, by simp⟩

omit [LinearOrder I] in
/-- Two splits of a line at one delivery are one. -/
theorem split_unique {before before' after after' : List (Event I)} {event event' : Event I}
    (split : t.pending.events = before ++ event :: after)
    (split' : t.pending.events = before' ++ event' :: after') (id : event.deliveryId = some identity)
    (id' : event'.deliveryId = some identity) : before = before' ∧ event = event' := by
  have distinct := t.pending.distinct
  have absent : ∀ {front back : List (Event I)} {e : Event I},
      t.pending.events = front ++ e :: back → e.deliveryId = some identity →
        ∀ x ∈ front, x.deliveryId ≠ some identity := by
    intro front back e eq own x inside same
    rw [eq, filterMap_append, nodup_append] at distinct
    refine distinct.2.2 identity (mem_filterMap.2 ⟨x, inside, same⟩) identity ?_ rfl
    exact mem_filterMap.2 ⟨e, mem_cons_self, own⟩
  have clear := absent split id
  have clear' := absent split' id'
  rw [split] at split'
  clear split
  induction before generalizing before' with
  | nil =>
    cases before' with
    | nil =>
      obtain ⟨rfl, -⟩ := List.cons.inj split'
      exact ⟨rfl, rfl⟩
    | cons first rest =>
      obtain ⟨rfl, -⟩ := List.cons.inj split'
      exact absurd id (clear' event mem_cons_self)
  | cons first rest ih =>
    cases before' with
    | nil =>
      obtain ⟨rfl, -⟩ := List.cons.inj split'
      exact absurd id' (clear first mem_cons_self)
    | cons first' rest' =>
      obtain ⟨rfl, tail⟩ := List.cons.inj split'
      obtain ⟨rfl, rfl⟩ := ih tail (fun x inside => clear x (mem_cons_of_mem _ inside))
        (fun x inside => clear' x (mem_cons_of_mem _ inside))
      exact ⟨rfl, rfl⟩

omit [LinearOrder I] in
/-- A split of a part of a line is one of the line. -/
theorem split_of_sublist {part before after : List (Event I)} {event : Event I}
    (sub : part.Sublist events) (split : part = before ++ event :: after) :
    ∃ before' after', events = before' ++ event :: after' ∧ before.Sublist before' := by
  rw [split] at sub
  obtain ⟨left, right, rfl, front, back⟩ := append_sublist_iff.1 sub
  obtain ⟨low, high, rfl, inside, -⟩ := cons_sublist_iff.1 back
  obtain ⟨low, rest, rfl⟩ := append_of_mem inside
  refine ⟨left ++ low, rest ++ high, by simp, front.trans (sublist_append_left _ _)⟩

/-- No local event is in front of the identity's event. -/
def Clear (events : List (Event I)) (identity : I) : Prop :=
  ∀ before event after, events = before ++ event :: after → event.deliveryId = some identity →
    ∀ e ∈ before, e.isOrdinary = true

omit [LinearOrder I] in
theorem Clear.sublist {part : List (Event I)} (clear : Clear events identity)
    (sub : part.Sublist events) : Clear part identity := by
  intro before event after split id e inside
  obtain ⟨before', after', split', front⟩ := split_of_sublist sub split
  exact clear before' event after' split' id e (front.subset inside)

omit [LinearOrder I] in
theorem Clear.of_absent (absent : ∀ event ∈ events, event.deliveryId ≠ some identity) :
    Clear events identity := by
  intro before event after split id
  refine absurd id (absent event ?_)
  rw [split]
  simp

omit [LinearOrder I] in
theorem Clear.not_behind (clear : Clear t.pending.events identity) : ¬ t.BehindLocal identity := by
  rintro ⟨before, event, after, split, -, id, first, inside, local_⟩
  rw [clear before event after split id first inside] at local_
  cases local_

omit [LinearOrder I] in
theorem mem_originals {payload : Message I} :
    payload ∈ s.originals ↔ Event.message payload false ∈ s.pending.events := by
  rw [originals, mem_filterMap]
  constructor
  · rintro ⟨event, inside, original⟩
    rwa [← Event.original_eq_some.1 original]
  · exact fun inside => ⟨_, inside, rfl⟩

omit [LinearOrder I] in
theorem clear_of_segment (inside : identity ∈ s.localSegment.1.map Message.id) :
    Clear s.pending.events identity := by
  obtain ⟨payload, listed, rfl⟩ := mem_map.1 inside
  obtain ⟨own, taken, original⟩ := mem_filterMap.1 listed
  rw [Event.original_eq_some.1 original] at taken
  obtain ⟨front, back, eq⟩ := append_of_mem taken
  have whole : s.pending.events =
      front ++ Event.message payload false :: (back ++ s.pending.events.dropWhile Event.isOrdinary) := by
    rw [← cons_append, ← append_assoc, ← eq, takeWhile_append_dropWhile]
  intro before event after split id e member
  obtain ⟨rfl, -⟩ := split_unique split whole id rfl
  have all := all_takeWhile (p := Event.isOrdinary) (l := s.pending.events)
  rw [all_eq_true] at all
  refine all e ?_
  rw [eq]
  exact mem_append_left _ member

end Line

/-! ## What is selected -/

/-- A selected candidate is one a turn may run. -/
theorem selectPrefix_runs (read : Frontier I) (cap : Nat) (cs : List (Candidate I))
    {members : List (Candidate I)} (runs : ∀ c ∈ members, c.disposition ≠ .skip ∧ c.disposition ≠ .held) :
    ∀ c ∈ (selectPrefix read cap cs members).members, c.disposition ≠ .skip ∧ c.disposition ≠ .held := by
  induction cs generalizing members with
  | nil => exact runs
  | cons c rest ih =>
    unfold selectPrefix
    dsimp only
    split
    · exact runs
    split
    · exact ih runs
    split
    · exact runs
    rename_i skip held
    have more : ∀ d ∈ members ++ [c], d.disposition ≠ .skip ∧ d.disposition ≠ .held := by
      intro d inside
      rcases mem_concat inside with inside | inside
      · exact runs d inside
      · rw [inside]
        exact ⟨skip, held⟩
    split
    · split
      · exact fun d inside => more d (mem_append_right _ inside)
      · exact runs
    · split
      · exact more
      · exact ih more

theorem selectPrefix_at (read : Frontier I) (cap : Nat) (cs members : List (Candidate I))
    {c : Candidate I} (ended : (selectPrefix read cap cs members).at_ = some c) : c ∈ cs := by
  induction cs generalizing members with
  | nil => cases ended
  | cons first rest ih =>
    unfold selectPrefix at ended
    dsimp only at ended
    split at ended
    · exact Option.some.inj ended ▸ mem_cons_self
    split at ended
    · exact mem_cons_of_mem _ (ih _ ended)
    split at ended
    · exact Option.some.inj ended ▸ mem_cons_self
    split at ended
    · exact Option.some.inj ended ▸ mem_cons_self
    split at ended
    · cases ended
    · exact mem_cons_of_mem _ (ih _ ended)

/-- One message a turn: a selection is at most one, and a frontier comes before it. -/
theorem selectPrefix_single (read : Frontier I) (cs : List (Candidate I)) :
    (selectPrefix read 1 cs []).members = [] ∨
      ∃ c, (selectPrefix read 1 cs []).members = [c] ∧ (selectPrefix read 1 cs []).stop ≠ .frontier := by
  induction cs with
  | nil => exact .inl rfl
  | cons c rest ih =>
    unfold selectPrefix
    dsimp only
    split
    · exact .inl rfl
    split
    · exact ih
    split
    · exact .inl rfl
    split
    · refine .inr ⟨c, rfl, ?_⟩
      dsimp only
      split <;> decide
    · exact .inr ⟨c, rfl, by simp⟩

theorem retained_resolve (merged : List (Candidate I)) (c : Candidate I) :
    (resolve merged c).retained = c.retained := by
  unfold resolve
  split <;> rfl

/-- `assign` leaves no other entry of the identity. -/
theorem eq_of_mem_assign {merged : List (Candidate I)} {c d : Candidate I}
    (inside : d ∈ assign merged c) (same : d.messageId = c.messageId) : d = c := by
  unfold assign at inside
  split at inside
  next =>
    obtain ⟨e, -, eq⟩ := mem_map.1 inside
    split at eq
    · exact eq.symm
    next other => exact absurd (eq ▸ same) other
  next absent =>
    rcases mem_concat inside with held | last
    · refine absurd ?_ absent
      rw [any_eq_true]
      exact ⟨d, held, decide_eq_true same⟩
    · exact last

/-- An entry a merge did not take from its originals is none of theirs. -/
theorem retained_fold {originals merged : List (Candidate I)} (own : ∀ c ∈ originals, c.retained = true)
    {d : Candidate I} (inside : d ∈ originals.foldl (fun merged c => assign merged (resolve merged c)) merged) :
    d.retained = true ∨ (d ∈ merged ∧ d.messageId ∉ originals.map Candidate.messageId) := by
  induction originals generalizing merged with
  | nil => exact .inr ⟨inside, not_mem_nil⟩
  | cons c rest ih =>
    have mine : c.retained = true := own c mem_cons_self
    rcases ih (fun e later => own e (mem_cons_of_mem _ later)) inside with done | ⟨held, fresh⟩
    · exact .inl done
    by_cases same : d.messageId = c.messageId
    · refine .inl ?_
      rw [eq_of_mem_assign held (same.trans (messageId_resolve merged c).symm), retained_resolve, mine]
    · rcases mem_assign held with rfl | held
      · exact absurd (messageId_resolve _ _) same
      refine .inr ⟨held, ?_⟩
      rw [map_cons, mem_cons, not_or]
      exact ⟨same, fresh⟩

theorem retained_merge {rest : List (Candidate I)} {segment : List (Message I)} {d : Candidate I}
    (inside : d ∈ merge rest (segment.map Candidate.ofRetained))
    (own : d.messageId ∈ segment.map Message.id) : d.retained = true := by
  have all : ∀ c ∈ segment.map Candidate.ofRetained, c.retained = true := by
    intro c inside
    obtain ⟨payload, -, rfl⟩ := mem_map.1 inside
    rfl
  rcases retained_fold all ((merge_perm _ _).mem_iff.1 inside) with done | ⟨-, fresh⟩
  · exact done
  · rw [retained_ids] at fresh
    exact absurd own fresh

/-! ## Pruning -/

theorem pruneSkipped_pending (cs : List (Candidate I)) (reaches : Option (MessageKey I)) (exhausted : Bool) :
    (s.pruneSkipped room cs reaches exhausted).2.pending.events.Sublist s.pending.events :=
  filter_sublist

theorem skippable_kept {reaches : Option (MessageKey I)} {exhausted : Bool} {cs : List (Candidate I)}
    {i : I} (runs : ∀ c ∈ cs, c.messageId = i → c.disposition ≠ .skip) (w : World I ρ) :
    (skippable room reaches exhausted w cs).2.record i = w.record i := by
  induction cs generalizing w with
  | nil => rfl
  | cons c rest ih =>
    have ih := ih fun d inside => runs d (mem_cons_of_mem _ inside)
    unfold skippable
    split
    · exact ih w
    rename_i skip
    have other : i ≠ c.messageId := fun same => skip (.inl (runs c mem_cons_self same.symm))
    refine (ih _).trans ?_
    unfold Lifecycle.judge
    split
    · exact World.record_update_of_ne other _
    · rfl

/-- A candidate a turn may run is not held for a retry once the rest is pruned. -/
theorem free_of_runs (lawful : room.life.core.Lawful) {rows : List (Message I)}
    {cs : List (Candidate I)} {t : Scheduler I ρ C} (spec : Selectable room s rows cs t)
    {c : Candidate I} (inside : c ∈ cs) (runs : c.disposition ≠ .skip ∧ c.disposition ≠ .held)
    (reaches : Option (MessageKey I)) (exhausted : Bool) :
    room.life.keepsOriginal (t.pruneSkipped room cs reaches exhausted).2.world c.messageId = false := by
  have runnable := (spec.classified c inside).runs runs.1 runs.2
  have single : ∀ d ∈ cs, d.messageId = c.messageId → d.disposition ≠ .skip := by
    intro d member same
    rw [inj_on_of_nodup_map spec.distinct member inside same]
    exact runs.1
  obtain ⟨boundaries, frame⟩ := spec.frame
  have record : (t.pruneSkipped room cs reaches exhausted).2.world.record c.messageId =
      s.world.record c.messageId := by
    refine (skippable_kept single t.world).trans ?_
    rw [frame]
  rw [Lifecycle.keepsOriginal, record, Bool.eq_false_iff]
  exact fun retry => lawful.held _ _ retry runnable

/-! ## What a selection runs -/

/-- Where the rows are not merged with the whole line, a candidate comes before
every local event or is none of the line's originals. -/
theorem selectable_fronts {read : PageRead I C}
    (path : room.batching = true ∨ (read.rows = [] ∧ s.syncComplete = true)) {c : Candidate I}
    (inside : c ∈ (s.selectable room read).1) :
    c.messageId ∈ s.localSegment.1.map Message.id ∨ c.messageId ∉ s.originals.map Message.id := by
  by_cases batching : room.batching = true
  · have cs : (s.selectable room read).1 =
        (s.batchCandidates room read.rows s.localSegment.1 s.localSegment.2).1 := by
      unfold selectable
      dsimp only
      rw [if_pos batching]
    rw [cs] at inside
    obtain ⟨⟨d, member, same⟩, -⟩ := mem_classifyAll inside
    have id : c.messageId = d.messageId := by rw [same]; rfl
    rw [id]
    have known := mem_ids_merge.1 (mem_map_of_mem (f := Candidate.messageId) member)
    rw [listed_ids, retained_ids] at known
    rcases known with row | own
    · obtain ⟨row, kept, eq⟩ := mem_map.1 row
      obtain ⟨not_later, -⟩ := of_decide_eq_true (mem_filter.1 kept).2
      rw [← eq]
      by_cases fronts : row.id ∈ s.localSegment.1.map Message.id
      · exact .inl fronts
      · refine .inr fun own => not_later (mem_filter.2 ⟨own, ?_⟩)
        exact decide_eq_true fronts
    · exact .inl own
  · have cs : (s.selectable room read).1 =
        (classifyAll room (s.localSegment.1.map Candidate.ofRetained) s).1 := by
      unfold selectable
      dsimp only
      rw [if_neg batching, if_pos (path.resolve_left batching)]
    rw [cs] at inside
    obtain ⟨⟨d, member, same⟩, -⟩ := mem_classifyAll inside
    obtain ⟨payload, own, rfl⟩ := mem_map.1 member
    rw [same]
    exact .inl (mem_map_of_mem own)

omit [LinearOrder I] in
/-- An identity the line's originals do not have is behind nothing. -/
theorem not_behind_of_fronts {t : Scheduler I ρ C} {i : I} (sub : t.pending.events.Sublist s.pending.events)
    (fronts : i ∈ s.localSegment.1.map Message.id ∨ i ∉ s.originals.map Message.id) :
    ¬ t.BehindLocal i := by
  rcases fronts with own | absent
  · exact ((clear_of_segment own).sublist sub).not_behind
  rintro ⟨before, event, after, split, ordinary, id, -⟩
  obtain ⟨payload, rfl⟩ := original_of_isOrdinary ordinary
  have held : Event.message payload false ∈ t.pending.events := by
    rw [split]
    simp
  exact absent (mem_map.2 ⟨payload, mem_originals.2 (sub.subset held), Option.some.inj id⟩)

/-- What a step redirects to is behind nothing. -/
theorem not_behind_prior {identity i : I} {event : Event I}
    (found : s.localPredecessor room identity = some event) (id : event.deliveryId = some i) :
    ¬ s.BehindLocal i := by
  obtain ⟨before, after, split, all⟩ := search_first _ found
  rintro ⟨before', event', after', split', -, id', first, inside, local_⟩
  obtain ⟨rfl, -⟩ := split_unique split split' id id'
  rw [all first inside] at local_
  cases local_

theorem localPredecessor_of_behind {i : I} (behind : s.BehindLocal i)
    (free : room.life.keepsOriginal s.world i = false) : (s.localPredecessor room i).isSome = true := by
  obtain ⟨before, event, after, split, ordinary, id, first, inside, local_⟩ := behind
  obtain ⟨payload, rfl⟩ := original_of_isOrdinary ordinary
  obtain rfl := Option.some.inj id
  have distinct := s.pending.distinct
  rw [split, filterMap_append, nodup_append] at distinct
  have fresh : ∀ e ∈ before, e.deliveryId ≠ some payload.id := by
    intro e member same
    refine distinct.2.2 payload.id (mem_filterMap.2 ⟨e, member, same⟩) payload.id ?_ rfl
    exact mem_filterMap.2 ⟨_, mem_cons_self, id⟩
  unfold localPredecessor
  rw [split]
  exact search_behind id free fresh none false (.inr ⟨first, inside, local_⟩)

/-- The line of what `choose` ends on is a part of the line it started from. -/
theorem choose_pending (room : Settings ρ) (read : PageRead I C) (cs : List (Candidate I)) {t : Scheduler I ρ C}
    (frame : ∃ boundaries, t = { s with active := { s.active with controlBoundaries := boundaries } }) :
    (t.pruneSkipped room cs (MessageKey.lastOf read.rows) read.exhausted).2.pending.events.Sublist
      s.pending.events := by
  obtain ⟨boundaries, rfl⟩ := frame
  exact pruneSkipped_pending cs _ _

section Chosen

variable {t u : Scheduler I ρ C} {read : PageRead I C} {cs members : List (Candidate I)}
  {selection : Selection I} {skipped : List I} {segment : List (Message I)}

/-- A turn is the selection, or the original it has to wait for. -/
theorem chooseFrom_turn (chosen : s.chooseFrom room read cs selection skipped segment = .turn members u) :
    u = s ∧ ((∃ event member, s.prior room selection = some event ∧ members = [member] ∧
        event.deliveryId = some member.messageId) ∨
      (s.prior room selection = none ∧ members = selection.members)) := by
  unfold chooseFrom at chosen
  cases asked : s.prior room selection with
  | some event =>
    rw [asked] at chosen
    dsimp only at chosen
    split at chosen
    · cases chosen
    cases found : cs.find? fun c => c.retained && event.deliveryId = some c.messageId with
    | none => rw [found] at chosen; cases chosen
    | some member =>
      rw [found] at chosen
      obtain ⟨rfl, rfl⟩ := Choice.turn.inj chosen
      have matched := List.find?_some found
      rw [Bool.and_eq_true] at matched
      exact ⟨rfl, .inl ⟨event, member, rfl, rfl, of_decide_eq_true matched.2⟩⟩
  | none =>
    rw [asked] at chosen
    dsimp only at chosen
    split at chosen
    · obtain ⟨rfl, rfl⟩ := Choice.turn.inj chosen
      exact ⟨rfl, .inr ⟨rfl, rfl⟩⟩
    · split at chosen <;> cases chosen

/-- A redirection fails only where its original is no candidate. -/
theorem chooseFrom_missing (chosen : s.chooseFrom room read cs selection skipped segment = .missing u) :
    ∃ event, s.prior room selection = some event ∧ event.isOrdinary = true ∧
      ∀ c ∈ cs, c.retained = true → event.deliveryId ≠ some c.messageId := by
  unfold chooseFrom at chosen
  cases asked : s.prior room selection with
  | some event =>
    rw [asked] at chosen
    dsimp only at chosen
    split at chosen
    · cases chosen
    rename_i ordinary
    cases found : cs.find? fun c => c.retained && event.deliveryId = some c.messageId with
    | some member => rw [found] at chosen; cases chosen
    | none =>
      refine ⟨event, rfl, by simpa using ordinary, ?_⟩
      intro c inside own same
      refine List.find?_eq_none.1 found c inside ?_
      rw [own, decide_eq_true same]
      rfl
  | none =>
    rw [asked] at chosen
    dsimp only at chosen
    split at chosen
    · cases chosen
    · split at chosen <;> cases chosen

theorem prior_localPredecessor {event : Event I} (asked : s.prior room selection = some event) :
    ∃ c, nextInput selection = some c ∧ s.localPredecessor room c.messageId = some event := by
  obtain ⟨-, asked⟩ := of_barred asked
  exact Option.bind_eq_some_iff.1 asked

/-- What a selection asks for first is one of its candidates. -/
theorem nextInput_mem (spec : Selectable room s read.rows cs t) {c : Candidate I}
    (asked : nextInput (t.selectionOf room read cs) = some c) : c ∈ cs := by
  unfold nextInput at asked
  split at asked
  · exact selectPrefix_at _ _ _ _ asked
  · exact (selection_batch spec rfl _).2 c (mem_of_mem_head? asked)

theorem choose_not_behind (lawful : room.life.core.Lawful)
    (chosen : s.choose room read = .turn members u) {c : Candidate I} (inside : c ∈ members) :
    ¬ u.BehindLocal c.messageId := by
  have spec := selectable_spec room s read
  have fronts := @selectable_fronts I ρ C _ room s read
  unfold choose at chosen
  generalize s.selectable room read = selected at spec fronts chosen
  obtain ⟨cs, t⟩ := selected
  have line := choose_pending room read cs spec.frame
  obtain ⟨rfl, ⟨event, member, asked, rfl, id⟩ | ⟨unasked, rfl⟩⟩ := chooseFrom_turn chosen
  · obtain ⟨first, -, found⟩ := prior_localPredecessor asked
    rw [mem_singleton.1 inside]
    exact not_behind_prior found id
  · have member : c ∈ cs := (selection_batch spec rfl _).2 c inside
    by_cases path : room.batching = true ∨ (read.rows = [] ∧ s.syncComplete = true)
    · exact not_behind_of_fronts line (fronts path member)
    -- one message a turn: the selection asked for this very candidate
    have alone : room.turnSize = 1 := if_neg fun batching => path (.inl batching)
    have runs := selectPrefix_runs _ _ cs (fun d absent => absurd absent not_mem_nil) c inside
    have free := free_of_runs lawful spec member runs (MessageKey.lastOf read.rows) read.exhausted
    intro behind
    have waits := localPredecessor_of_behind behind free
    unfold selectionOf at inside unasked
    rw [alone] at inside unasked
    rcases selectPrefix_single _ cs with none_ | ⟨d, only, stopped⟩
    · rw [none_] at inside
      cases inside
    · rw [only] at inside
      rw [mem_singleton.1 inside] at waits
      unfold prior nextInput at unasked
      rw [if_neg stopped, only] at unasked
      change localPredecessor _ _ _ = none at unasked
      rw [unasked] at waits
      cases waits

/-- Where the rows are not merged with the whole line, nothing precedes a candidate. -/
theorem localPredecessor_of_fronts {i : I} (sub : t.pending.events.Sublist s.pending.events)
    (apart : s.Apart read.rows) (known : i ∈ read.rows.map Message.id ∨ i ∈ s.originals.map Message.id)
    (fronts : i ∈ s.localSegment.1.map Message.id ∨ i ∉ s.originals.map Message.id) :
    t.localPredecessor room i = none := by
  suffices clear : Clear s.pending.events i from search_clear (clear.sublist sub) none
  rcases fronts with own | absent
  · exact clear_of_segment own
  obtain ⟨row, listed, rfl⟩ := mem_map.1 (known.resolve_right absent)
  refine Clear.of_absent fun event held id => ?_
  cases event with
  | message payload synthetic =>
    cases synthetic with
    | false => exact absent (mem_map.2 ⟨payload, mem_originals.2 held, Option.some.inj id⟩)
    | true => exact apart _ held rfl row listed id
  | bare | roster serial => cases id

/-- A selection over the whole line has every original of it. -/
theorem selectable_covers (path : ¬ (room.batching = true ∨ (read.rows = [] ∧ s.syncComplete = true)))
    {payload : Message I} (own : payload ∈ s.originals) :
    ∃ c ∈ (s.selectable room read).1, c.retained = true ∧ c.messageId = payload.id := by
  rw [not_or] at path
  have cs : (s.selectable room read).1 =
      (s.candidates room read.rows).2.resumedFirst (s.candidates room read.rows).1 := by
    unfold selectable
    dsimp only
    rw [if_neg path.1, if_neg path.2]
  rw [cs]
  have ids : payload.id ∈ (s.candidates room read.rows).1.map Candidate.messageId := by
    unfold candidates
    rw [map_messageId_classifyAll, mem_ids_merge, retained_ids]
    exact .inr (mem_map_of_mem own)
  obtain ⟨c, member, id⟩ := mem_map.1 ids
  refine ⟨c, (resumedFirst_perm _).mem_iff.2 member, ?_, id⟩
  obtain ⟨⟨d, merged, same⟩, -⟩ := mem_classifyAll member
  have mine : d.messageId ∈ s.originals.map Message.id := by
    have eq : d.messageId = c.messageId := by rw [same]; rfl
    rw [eq, id]
    exact mem_map_of_mem own
  have retained : c.retained = d.retained := by rw [same]
  rw [retained]
  exact retained_merge merged mine

/-- A redirection finds its original among the candidates. -/
theorem choose_ne_missing (apart : s.Apart read.rows) : s.choose room read ≠ .missing u := by
  intro chosen
  have spec := selectable_spec room s read
  have fronts := @selectable_fronts I ρ C _ room s read
  have covers := @selectable_covers I ρ C _ room s read
  unfold choose at chosen
  generalize s.selectable room read = selected at spec fronts covers chosen
  obtain ⟨cs, t⟩ := selected
  dsimp only at spec fronts covers chosen
  have line := choose_pending room read cs spec.frame
  obtain ⟨event, asked, ordinary, absent⟩ := chooseFrom_missing chosen
  obtain ⟨c, first, found⟩ := prior_localPredecessor asked
  have member := nextInput_mem spec first
  by_cases path : room.batching = true ∨ (read.rows = [] ∧ s.syncComplete = true)
  · rw [localPredecessor_of_fronts line apart (spec.known c member) (fronts path member)] at found
    cases found
  · obtain ⟨payload, rfl⟩ := original_of_isOrdinary ordinary
    have own : payload ∈ s.originals := mem_originals.2 (line.subset (localPredecessor_mem found))
    obtain ⟨d, inside, retained, id⟩ := covers path own
    exact absent d inside retained (by rw [id]; rfl)

end Chosen

end Scheduler

/-! ## Every step -/

/-- **A local event before the originals behind it.**  From whatever state a run has
reached, where a step selects ordinary input, what it does is what `choose` says;
it never gives a turn an original that a local event of its line is in front of,
whichever read brought it up; and where it redirects to an ordinary predecessor,
that predecessor is one of its candidates, the hub's own ids being none of the
rows'. -/
theorem locals_come_first (room : Settings ρ) (lawful : room.life.core.Lawful)
    (s : Scheduler I ρ C) (answers : Answers I ρ C) {read : PageRead I C} {t : Scheduler I ρ C}
    (selecting : s.stage room answers = .selection read t) :
    s.step room answers = (t.choose room read).carry room answers ∧
      (∀ members u, t.choose room read = .turn members u → ∀ c ∈ members, ¬ u.BehindLocal c.messageId) ∧
      (t.Apart read.rows → ∀ u, t.choose room read ≠ .missing u) := by
  refine ⟨?_, ?_, ?_⟩
  · rw [Scheduler.step_stage, selecting]
    exact Scheduler.runSelection_choose read answers
  · intro members u chosen c inside
    exact Scheduler.choose_not_behind lawful chosen inside
  · exact fun apart u => Scheduler.choose_ne_missing apart

/-- A roster update waits between two messages, in a room that recovers. -/
def dividedScheduler : Scheduler Nat LedgerEntry Nat :=
  { world :=
      { registry := { ids := [], record := fun _ => {} }, host := {}
        queue := [.message { id := 1, insertedAt := 5 } false, .roster 0,
          .message { id := 2, insertedAt := 7 } false] } }

/-- The backlog's `/next` lists the message behind the update. -/
def listedBehind : Answers Nat LedgerEntry Nat :=
  { read := some
      { meanwhile := quietly, page := fun _ => { messages := [], nextCursor := none }
        next := some { id := 2, insertedAt := 3 } }
    sleep := quietly }

theorem locals_come_first_divided :
    ∃ read t members u, dividedScheduler.stage singletonRoom listedBehind = .selection read t ∧
      t.BehindLocal 2 ∧ t.choose singletonRoom read = .turn members u ∧
      members.map Candidate.messageId = [1] ∧ (∀ c ∈ members, ¬ u.BehindLocal c.messageId) ∧
      t.choose singletonRoom read ≠ .missing u := by
  have first := locals_come_first singletonRoom ledgerCore_lawful dividedScheduler listedBehind rfl
  refine ⟨_, _, _, _, rfl, ?_, rfl, rfl, first.2.1 _ _ rfl, first.2.2 ?_ _⟩
  · exact ⟨[.message { id := 1, insertedAt := 5 } false, .roster 0],
      .message { id := 2, insertedAt := 7 } false, [], rfl, rfl, rfl, .roster 0, by decide, rfl⟩
  · have events : ∀ event ∈ [Event.message { id := 1, insertedAt := 5 } false, .roster 0,
        .message { id := 2, insertedAt := 7 } false], event.isSynthetic = false := by decide
    intro event held synthetic
    rw [events event held] at synthetic
    cases synthetic

end BandSdk.Scheduling

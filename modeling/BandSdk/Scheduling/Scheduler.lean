/-
# Scheduling.Scheduler -- one room's discovery, selection and dispatch

`Scheduler` is the room's scheduler with the pass it is in.  `takeStep` is one
iteration of a pass: at most one platform read, one turn (a control's probe may
come first) and one local event.  What those awaits answer is an argument
(`Answers`); a missing answer is an await that raised, and `none` in place of an
outcome is the exception that leaves the step.

`departures` is the model's own: every retained delivery the scheduler released,
with what it knew of it at that moment.
-/
import BandSdk.Theory.Machine
import BandSdk.Scheduling.Delivery

namespace BandSdk.Scheduling

open BandSdk.Theory BandSdk.Turns
open Lifecycle (Round Write RunResult)

inductive ResyncOutcome where
  | empty
  | work
  | blocked
  | retry
  | stopped
  | progress
  deriving DecidableEq

structure Page (I C : Type) where
  messages : List (Message I)
  nextCursor : Option C

/-- What a pass already dispatched; a repeat without progress is not run again. -/
structure DispatchKey (I : Type) where
  priority : Bool
  revision : Nat
  identities : List I
  disposition : Disposition
  deriving DecidableEq

scoped instance lawfulKey {I : Type} [LinearOrder I] : LawfulBEq (DispatchKey I) := inferInstance

scoped instance lawfulDecline {I : Type} [LinearOrder I] : LawfulBEq (Nat × I) := inferInstance

/-- Decisions that expire when one scheduler wake finishes. -/
structure DiscoveryPass (I C : Type) where
  recovery : Bool
  declined : List (Nat × I) := []
  controlPage : Option (Page I C) := none
  /-- The deferred head already met in this pass. -/
  ordinaryHeld : Bool := false
  invalidated : Bool := false
  controlBoundaries : List (Nat × I) := []
  resumedRetries : List I := []
  gateMessage : Option (Message I) := none
  selections : List (DispatchKey I) := []

/-- Why an original was released. -/
inductive Cause (I : Type) where
  | turn (outcome : TurnOutcome)
  | pruned (reaches : Option (MessageKey I)) (exhausted : Bool)

/-- A released delivery, with the candidate it was released as and what the
registry and the room said of it then. -/
structure Departure (I ρ : Type) where
  event : Event I
  candidate : Candidate I
  record : ρ
  host : Host I
  cause : Cause I

structure Scheduler (I ρ C : Type) where
  world : World I ρ
  pending : RetainedEvents I := .empty
  syncComplete : Bool := false
  firstWsId : Option I := none
  deferredId : Option I := none
  scanCursor : Option C := none
  controlCursor : Option C := none
  nextFallback : Bool := false
  /-- The periodic schedule runs. -/
  started : Bool := false
  active : DiscoveryPass I C := { recovery := false }
  /-- The pass under way, with the argument `run_pass` was called with. -/
  passing : Option Bool := none
  departures : List (Departure I ρ) := []

structure Settings (ρ : Type) where
  life : Lifecycle ρ
  maxQueuedMessages : Nat

namespace Settings

variable {ρ : Type} (room : Settings ρ)

/-- `consume_all_queued`. -/
def batching : Bool := room.life.batching

/-- Messages one turn consumes. -/
def turnSize : Nat := if room.batching then room.maxQueuedMessages else 1

end Settings

variable {I ρ C : Type}

/-- The platform when it answered a read: its pages by cursor, and its `/next`. -/
structure Read (I ρ C : Type) where
  meanwhile : Meanwhile I ρ
  page : Option C → Page I C
  next : Option (Message I)

/-- How a local event's turn ended. -/
inductive LocalEnd where
  | unbegun
  | finished
  | paused
  | retryLater
  | refused

structure Answers (I ρ C : Type) where
  read : Option (Read I ρ C) := none
  controlTurn : List (Round I ρ) := []
  turn : List (Round I ρ) := []
  execution : Option (Meanwhile I ρ × LocalEnd) := none
  /-- `asyncio.sleep(0)`. -/
  sleep : Meanwhile I ρ

/-- The platform rows one step selects from. -/
structure PageRead (I C : Type) where
  rows : List (Message I)
  exhausted : Bool
  nextCursor : Option C := none

/-- `execute_local`: a roster event that began is never replayed. -/
def executeLocal (event : Event I) (ended : LocalEnd) : TurnOutcome :=
  match ended with
  | .unbegun => .retryLater
  | .finished => .advanced
  | .paused => if event.isMessage then .paused else .advanced
  | .retryLater => if event.isMessage then .retryLater else .advanced
  | .refused => if event.isMessage then .notAccepted else .advanced

namespace Scheduler

variable [LinearOrder I] (room : Settings ρ) (s : Scheduler I ρ C)

def await (m : Meanwhile I ρ) : Scheduler I ρ C :=
  { s with world := s.world.await room.life.core [] m }

def declined (identity : I) : Bool := (s.world.host.controlRevision, identity) ∈ s.active.declined

def owesWrites : Bool :=
  s.world.registry.ids.any fun i => room.life.core.retryableSettlement (s.world.record i)

def deferred : Bool := s.deferredId.isSome || s.owesWrites room

/-- Whether ordinary input waits: an owed write, or a head this pass found held. -/
def ordinaryGated : Bool := s.owesWrites room || (s.active.ordinaryHeld && s.deferredId.isSome)

def defer (message : Option I) : Scheduler I ρ C :=
  if message ≠ s.deferredId then { s with deferredId := message, controlCursor := none } else s

def housekeeping : Option (Event I) := s.pending.events.find? (!·.isMessage)

/-- Whether the original is kept only until its retry's write confirms. -/
def holdsRetry (event : Event I) : Bool :=
  event.original.any fun payload => room.life.keepsOriginal s.world payload.id

/-- Drop the retained originals no turn will run. -/
def release (identities : List I) (forms : List (Candidate I)) (cause : Cause I) : Scheduler I ρ C :=
  let doomed := fun event : Event I =>
    event.deliveryId.any (· ∈ identities) && !s.holdsRetry room event
  { s with
    pending := s.pending.remove doomed
    departures := s.departures ++ (s.pending.events.filter doomed).filterMap fun event =>
      event.deliveryId.bind fun i => (forms.find? (·.messageId = i)).map fun c =>
        { event := event, candidate := c, record := s.world.record i, host := s.world.host
          cause := cause } }

def receive (event : Event I) : Scheduler I ρ C :=
  { s with
    firstWsId := if event.isMessage = true ∧ s.firstWsId = none ∧ s.syncComplete = false then
      event.deliveryId else s.firstWsId
    pending := s.pending.add event }

def absorb : Scheduler I ρ C :=
  let received := s.world.queue.foldl receive s
  { received with world := { s.world with queue := [] } }

/-! ## Candidates -/

def classify (c : Candidate I) : Candidate I × Scheduler I ρ C :=
  let boundary := (s.world.host.controlRevision, c.messageId)
  match room.life.eligibility s.world c with
  | .runnable =>
    if s.world.host.recognizes c.event then
      ({ c with disposition := .control },
        { s with active := { s.active with
          controlBoundaries := s.active.controlBoundaries ++ [boundary] } })
    else if boundary ∈ s.active.controlBoundaries then ({ c with disposition := .boundary }, s)
    else ({ c with disposition := .runnable }, s)
  | .inflight => ({ c with disposition := .held }, s)
  | _ => ({ c with disposition := .skip }, s)

def classifyAll : List (Candidate I) → Scheduler I ρ C → List (Candidate I) × Scheduler I ρ C
  | [], s => ([], s)
  | c :: rest, s =>
    let (c, s) := s.classify room c
    let (rest, s) := classifyAll rest s
    (c :: rest, s)

def originals : List (Message I) := s.pending.events.filterMap Event.original

/-- The page's rows merged with every retained original, each classified. -/
def candidates (rows : List (Message I)) : List (Candidate I) × Scheduler I ρ C :=
  classifyAll room (merge (rows.map Candidate.listed) (s.originals.map Candidate.ofRetained)) s

/-- The retained originals up to the first local event, and whether one bounds them. -/
def localSegment : List (Message I) × Bool :=
  ((s.pending.events.takeWhile Event.isOrdinary).filterMap Event.original, s.pending.events.any (!·.isOrdinary))

/-- Merge rows with the segment in arrival order, within the first local event. -/
def batchCandidates (rows segment : List (Message I)) (bounded : Bool) : List (Candidate I) × Scheduler I ρ C :=
  let retained := segment.map Message.id
  let later := (s.originals.map Message.id).filter (· ∉ retained)
  let limit := if bounded then segment.getLast?.map MessageKey.ofMessage else none
  let rest := rows.filter fun row => row.id ∉ later ∧
    (row.id ∈ retained ∨ limit.all fun limit => MessageKey.ofMessage row ≤ limit)
  classifyAll room (merge (rest.map Candidate.listed) (segment.map Candidate.ofRetained)) s

/-- The first event owing no delivery, past originals held only for a retry. -/
def nextLocal : Option (Event I) :=
  (s.pending.events.find? (!s.holdsRetry room ·)).filter (!·.isOrdinary)

/-- Keep a known original behind the local boundary it arrived after. -/
def localPredecessor (identity : I) : Option (Event I) :=
  search s.pending.events none false
where
  search : List (Event I) → Option (Event I) → Bool → Option (Event I)
    | [], _, _ => none
    | event :: rest, head, boundary =>
      if s.holdsRetry room event then search rest head boundary
      else if event.deliveryId = some identity then if boundary then head else none
      else search rest (head <|> some event) (boundary || !event.isOrdinary)

/-- Whether a read covers the candidate: it listed it, or reached its position. -/
def covered (reaches : Option (MessageKey I)) (exhausted : Bool) (c : Candidate I) : Bool :=
  c.observed.isSome || readReaches c reaches exhausted

/-- The loop of `prune_skipped`. -/
def skippable (reaches : Option (MessageKey I)) (exhausted : Bool) (w : World I ρ) :
    List (Candidate I) → List (Candidate I) × World I ρ
  | [] => ([], w)
  | c :: rest =>
    if c.disposition ≠ .skip ∨ covered reaches exhausted c = false then
      skippable reaches exhausted w rest
    else
      let (answer, w) := room.life.judge w c
      let (skipped, w) := skippable reaches exhausted w rest
      (if answer ≠ .runnable then c :: skipped else skipped, w)

def pruneSkipped (cs : List (Candidate I)) (reaches : Option (MessageKey I)) (exhausted : Bool) :
    List I × Scheduler I ρ C :=
  let (skipped, world) := skippable room reaches exhausted s.world cs
  let ids := skipped.map Candidate.messageId
  (ids, { s with world := world }.release room ids skipped (.pruned reaches exhausted))

/-! ## Dispatch -/

/-- What a turn's outcome means for the pass. -/
def afterDelivery (outcome : TurnOutcome) (identities : List I) (forms : List (Candidate I))
    (revision : Nat) (priority control : Bool) : ResyncOutcome × Scheduler I ρ C :=
  let deferHead := fun s : Scheduler I ρ C =>
    if priority then s else if identities = [] then s else s.defer identities.head?
  match outcome with
  | .advanced | .absent =>
    let released := s.release room identities forms (.turn outcome)
    (.progress, if released.deferredId.any (· ∈ identities) then released.defer none else released)
  | outcome =>
    if s.world.host.stopped || s.world.host.closing then (.stopped, s)
    else if revision ≠ s.world.host.controlRevision then
      let s := { s with active := { s.active with invalidated := true } }
      (.blocked, if control then s else deferHead s)
    else
      match outcome with
      | .notAccepted => (.blocked, deferHead s)
      | .retryLater => (.retry, deferHead s)
      | _ => (.blocked, s)

def dispatchLocal (event : Event I) (answers : Answers I ρ C) : Option ResyncOutcome × Scheduler I ρ C :=
  if s.world.host.stopped && event.isMessage then (some .stopped, s)
  else
    match answers.execution with
    | none => (none, s)
    | some (m, ended) =>
      let revision := s.world.host.controlRevision
      let s := s.await room m
      let outcome := executeLocal event ended
      let identities := if event.isSynthetic then event.deliveryId.toList else []
      if outcome = .advanced then
        -- earlier pages may hold originals this local boundary excluded
        let s := { s with pending := s.pending.drop event, scanCursor := none }
        let (scheduling, s) := s.afterDelivery room outcome identities [] revision false false
        (some scheduling, s)
      else if event.isMessage = false then (some .retry, s)
      else
        let (scheduling, s) := s.afterDelivery room outcome identities [] revision false false
        (some scheduling, s)

/-- A turn over `members`; a refused input defers the head of the attempt. -/
def runTurn (members : List (Candidate I)) (revision : Nat) (control : Bool)
    (rounds : List (Round I ρ)) : RunResult I ρ × Scheduler I ρ C :=
  let result := room.life.run members revision control rounds s.world
  let s := { s with world := result.world }
  (result, if result.deferred.isSome then s.defer result.deferred else s)

def recordDecline (revision : Nat) (identity : I) : Scheduler I ρ C :=
  if revision = s.world.host.controlRevision then
    { s with active := { s.active with declined := s.active.declined ++ [(revision, identity)] } }
  else s

/-- The ordinary turn of a dispatch. -/
def dispatchOrdinary (members : List (Candidate I)) (revision : Nat) (priority : Bool)
    (rounds : List (Round I ρ)) : (Option ResyncOutcome × Option TurnOutcome) × Scheduler I ρ C :=
  let (result, s) := s.runTurn room members revision false rounds
  match result.outcome with
  | none => ((none, none), s)
  | some outcome =>
    let (scheduling, s) := s.afterDelivery room outcome (members.map Candidate.messageId)
      result.forms revision priority false
    ((some scheduling, some outcome), s)

def dispatchKey (members : List (Candidate I)) (priority : Bool) : DispatchKey I where
  priority := priority
  revision := s.world.host.controlRevision
  identities := members.map Candidate.messageId
  disposition := (members.head?.map Candidate.disposition).getD .runnable

/-- Whether the turn is a control's probe. -/
def probes (members : List (Candidate I)) : Bool :=
  members.head?.any fun c => c.disposition = .control && !s.declined c.messageId

def dispatch (members : List (Candidate I)) (priority : Bool) (answers : Answers I ρ C) :
    (Option ResyncOutcome × Option TurnOutcome) × Scheduler I ρ C :=
  let revision := s.world.host.controlRevision
  let control := s.probes members
  if s.world.host.stopped then ((some .stopped, some .paused), s)
  else if priority && !control then ((some .blocked, some .declined), s)
  else if s.dispatchKey members priority ∈ s.active.selections then ((some .blocked, none), s)
  else
    let s := { s with active := { s.active with
      selections := s.active.selections ++ [s.dispatchKey members priority] } }
    if control then
      let (result, s) := s.runTurn room members revision true answers.controlTurn
      match result.outcome with
      | none => ((none, none), s)
      | some .declined =>
        let s := members.head?.elim s fun c => s.recordDecline revision c.messageId
        if priority then ((some .blocked, some .declined), s)
        else s.dispatchOrdinary room members revision priority answers.turn
      | some outcome =>
        let (scheduling, s) := s.afterDelivery room outcome (members.map Candidate.messageId)
          result.forms revision priority true
        ((some scheduling, some outcome), s)
    else s.dispatchOrdinary room members revision priority answers.turn

/-! ## One step of a pass -/

def dispatchSelection (members : List (Candidate I)) (answers : Answers I ρ C) :
    Option ResyncOutcome × Scheduler I ρ C :=
  let ((scheduling, _), s) := s.dispatch room members false answers
  if scheduling = some .progress ∧ room.batching = false then
    let s := { s with nextFallback := false, scanCursor := none }
    if members.any (some ·.messageId = s.firstWsId) then
      (scheduling,
        { s with
          syncComplete := true
          firstWsId := none
          active := { s.active with recovery := s.active.recovery && s.started } })
    else (scheduling, s)
  else (scheduling, s)

/-- Nothing was selected: move to the next page, or conclude the scan. -/
def advanceScan (read : PageRead I C) (skipped : List I) (segment : List (Message I)) :
    ResyncOutcome × Scheduler I ρ C :=
  if read.nextCursor.isSome then (.progress, { s with scanCursor := read.nextCursor })
  else
    let s := { s with
      scanCursor := none
      syncComplete := s.syncComplete || read.exhausted
      active := { s.active with recovery := s.active.recovery && !read.exhausted } }
    if segment.any fun payload => payload.id ∈ skipped ∧
        room.life.keepsOriginal s.world payload.id = false then (.progress, s)
    else if s.syncComplete && (s.nextLocal room).isSome then (.progress, s)
    else (.empty, s)

/-- The platform rows this step selects from, or the outcome ending it early. -/
def readPage (recovery : Bool) (answers : Answers I ρ C) :
    Except (Option ResyncOutcome) (PageRead I C) × Scheduler I ρ C :=
  let revision := s.world.host.controlRevision
  if recovery = false ∧ room.batching = false then (.ok { rows := [], exhausted := true }, s)
  else if room.batching || s.nextFallback then
    match answers.read with
    | none => (.error none, s)
    | some read =>
      let page := read.page s.scanCursor
      let s := (s.await room read.meanwhile).absorb
      if revision ≠ s.world.host.controlRevision then (.error (some .progress), s)
      else
        (.ok { rows := page.messages, exhausted := page.nextCursor.isNone
               nextCursor := page.nextCursor }, s)
  else
    let answered : Option (Option (Message I) × Scheduler I ρ C) :=
      match s.active.gateMessage with
      | some row => some (some row, s)
      | none => answers.read.map fun read => (read.next, s.await room read.meanwhile)
    match answered with
    | none => (.error none, s)
    | some (row, s) =>
      let s := { s with active := { s.active with gateMessage := none } }.absorb
      if revision ≠ s.world.host.controlRevision then (.error (some .progress), s)
      else
        match row with
        | none =>
          (.ok { rows := [], exhausted := true },
            { s with syncComplete := true, active := { s.active with recovery := false } })
        | some row =>
          let (c, s) := s.classify room (.listed row)
          if c.disposition = .skip then
            (.error (some .progress), { s with nextFallback := true })
          else (.ok { rows := [row], exhausted := false }, s)

/-- Resumed retries first, each in its order: a stable sort. -/
def resumedFirst (cs : List (Candidate I)) : List (Candidate I) :=
  cs.filter (·.messageId ∈ s.active.resumedRetries) ++ cs.filter (·.messageId ∉ s.active.resumedRetries)

/-- What the step's selection walks. -/
def selectable (read : PageRead I C) : List (Candidate I) × Scheduler I ρ C :=
  let (segment, bounded) := s.localSegment
  if room.batching then s.batchCandidates room read.rows segment bounded
  else if read.rows = [] ∧ s.syncComplete = true then
    classifyAll room (segment.map Candidate.ofRetained) s
  else
    let (cs, s) := s.candidates room read.rows
    (s.resumedFirst cs, s)

/-- Run what was selected, or what it has to wait for. -/
def runSelected (read : PageRead I C) (cs : List (Candidate I)) (selection : Selection I)
    (skipped : List I) (segment : List (Message I)) (answers : Answers I ρ C) :
    Option ResyncOutcome × Scheduler I ρ C :=
  let nextInput := if selection.members = [] then selection.at_ else selection.members.head?
  let prior := if selection.stop = .frontier then none
    else nextInput.bind fun c => s.localPredecessor room c.messageId
  match prior with
  | some event =>
    if event.isOrdinary = false then s.dispatchLocal room event answers
    else
      match cs.find? fun c => c.retained && event.deliveryId = some c.messageId with
      | none => (none, s)
      | some member => s.dispatchSelection room [member] answers
  | none =>
    if selection.members ≠ [] then s.dispatchSelection room selection.members answers
    else
      match selection.stop, selection.at_ with
      | .held, some c => (some .blocked, s.defer (some c.messageId))
      | _, _ =>
        let (scheduling, s) := s.advanceScan room read skipped segment
        (some scheduling, s)

/-- Select the next turn from the page and the retained originals, and run it. -/
def runSelection (read : PageRead I C) (answers : Answers I ρ C) : Option ResyncOutcome × Scheduler I ρ C :=
  let segment := s.localSegment.1
  let (cs, s) := s.selectable room read
  let reaches := MessageKey.lastOf read.rows
  let selection := selectPrefix
    { listed := read.rows.map Message.id, pageReaches := reaches, exhausted := read.exhausted
      resumed := s.active.resumedRetries } room.turnSize cs []
  let (skipped, s) := s.pruneSkipped room cs reaches read.exhausted
  s.runSelected room read cs selection skipped segment answers

def step (answers : Answers I ρ C) : Option ResyncOutcome × Scheduler I ρ C :=
  let s := s.absorb
  if s.world.host.stopped || s.world.host.closing then (some .stopped, s)
  else
    let recovery := s.active.recovery || !s.syncComplete
    let ready := (s.nextLocal room).filter fun event =>
      !recovery || room.batching || (s.deferredId.isSome && event.deliveryId = s.deferredId)
    match ready with
    | some event => s.dispatchLocal room event answers
    | none =>
      match s.readPage room recovery answers with
      | (.error outcome, s) => (outcome, s)
      | (.ok read, s) =>
        if s.world.host.stopped then (some .stopped, s)
        else
          let queued := if read.rows = [] ∧ s.syncComplete = true then s.nextLocal room else none
          match queued with
          | some event => s.dispatchLocal room event answers
          | none => s.runSelection room read answers

/-- The loop of `priority_step`. -/
def priorityLoop (page : Page I C) (answers : Answers I ρ C) :
    List (Candidate I) → Scheduler I ρ C → Option ResyncOutcome × Scheduler I ρ C
  | [], s => (some (if s.deferred room then .blocked else .progress), s)
  | c :: rest, s =>
    if c.disposition = .skip then
      let (skipped, s) := s.pruneSkipped room [c] (MessageKey.lastOf page.messages)
        page.nextCursor.isNone
      let s := if c.messageId ∈ skipped ∧ s.deferredId = some c.messageId ∧
          room.life.keepsOriginal s.world c.messageId = false then s.defer none else s
      priorityLoop page answers rest s
    else if c.disposition = .control ∧ s.declined c.messageId = false ∧
        s.dispatchKey [c] true ∉ s.active.selections then
      let ((scheduling, turn), s) := s.dispatch room [c] true answers
      let s := if turn = some .advanced then
        { s with active := { s.active with
          ordinaryHeld := false
          selections := s.active.selections.filter (·.priority) } } else s
      (scheduling.map fun outcome => if outcome = .stopped then .stopped else .progress, s)
    else priorityLoop page answers rest s

def priorityStep (answers : Answers I ρ C) : Option ResyncOutcome × Scheduler I ρ C :=
  if s.world.host.handlesControl = false then (some .blocked, s)
  else
    let revision := s.world.host.controlRevision
    let paged : Except (Option ResyncOutcome) (Page I C) × Scheduler I ρ C :=
      match s.active.controlPage with
      | some page => (.ok page, s)
      | none =>
        match answers.read with
        | none => (.error none, s)
        | some read =>
          let page := read.page s.controlCursor
          let s := (s.await room read.meanwhile).absorb
          if s.world.host.stopped then (.error (some .stopped), s)
          else if revision ≠ s.world.host.controlRevision then (.error (some .progress), s)
          else
            (.ok page, { s with
              active := { s.active with controlPage := some page }
              controlCursor := page.nextCursor })
    match paged with
    | (.error outcome, s) => (outcome, s)
    | (.ok page, s) =>
      let (cs, s) := s.candidates room page.messages
      priorityLoop room page answers cs s

/-- Housekeeping before held or stopped input, then controls, then ordinary work. -/
def takeStep (answers : Answers I ρ C) : Option ResyncOutcome × Scheduler I ρ C :=
  let gated := s.ordinaryGated room
  let housekeeping := if gated || s.world.host.stopped then s.housekeeping else none
  match housekeeping with
  | some event => s.dispatchLocal room event answers
  | none =>
    if s.world.host.stopped then (some .stopped, s)
    else if gated then s.priorityStep room answers
    else
      let (outcome, s) := s.step room answers
      if (outcome = some .blocked ∨ outcome = some .retry) ∧ s.deferred room = true then
        (some .progress, { s with active := { s.active with ordinaryHeld := true } })
      else (outcome, s)

/-- Take the next step; invalidation ends the pass, housekeeping keeps it going. -/
def advance (answers : Answers I ρ C) : Option ResyncOutcome × Scheduler I ρ C :=
  let (outcome, s) := s.takeStep room answers
  if outcome = none then (none, s)
  else if s.active.invalidated then (some .blocked, s)
  else if outcome = some .stopped ∧ s.housekeeping.isSome then (some .progress, s)
  else (outcome, s)

/-! ## Passes -/

/-- The gate of a stopped room: whether the pass goes on. -/
def resumeFromGate (gate : Option (Read I ρ C)) : Bool × Scheduler I ρ C :=
  match gate with
  | none => (false, s)
  | some read =>
    let revision := s.world.host.controlRevision
    let s := (s.await room read.meanwhile).absorb
    if revision ≠ s.world.host.controlRevision then (false, s)
    else
      match read.next with
      | none => (true, s)
      | some row =>
        let (answer, world) := room.life.judge s.world (.listed row)
        let s := { s with world := world }
        if answer = .runnable ∨ answer = .pending ∨ answer = .inflight then
          (true, { s with
            world := { s.world with host := { s.world.host with
              controlRevision := s.world.host.controlRevision + 1, stopped := false } }
            active := { s.active with gateMessage := some row } })
        else (true, s)

/-- `retry_settlements`; `false` when a write raised. -/
def retrySettlements : List I → List (Write I ρ) → Scheduler I ρ C → Bool × Scheduler I ρ C
  | [], _, s => (true, s)
  | i :: rest, answers, s =>
    let keeps := room.life.keepsOriginal s.world i
    let (retried, answers, world) := room.life.retrySettlement [] i answers s.world
    let s := { s with world := world }
    if retried = none then (false, s)
    else
      let resumed := if keeps = true ∧ room.life.keepsOriginal s.world i = false then
        s.active.resumedRetries ++ [i] else s.active.resumedRetries
      retrySettlements rest answers { s with active := { s.active with resumedRetries := resumed } }

def pendingAckIds : List I :=
  s.world.registry.ids.filter fun i =>
    (room.life.core.pendingSettlement (s.world.record i)).isSome

/-- A new pass, with everything queued taken in. -/
def openPass (recovery : Bool) : Scheduler I ρ C :=
  { s with
    scanCursor := none
    nextFallback := false
    active := { recovery := recovery } }.absorb

/-- A stopped room's recovery asks the gate first. -/
def passGate (recovery : Bool) (gate : Option (Read I ρ C)) : Bool × Scheduler I ρ C :=
  if s.world.host.stopped && recovery then s.resumeFromGate room gate else (true, s)

/-- The owed writes, then the loop. -/
def enterLoop (recovery : Bool) (writes : List (Write I ρ)) : Scheduler I ρ C :=
  let (goes, s) := retrySettlements room (s.pendingAckIds room) writes s
  if goes = false then s
  else
    { s with
      active := { s.active with ordinaryHeld := s.deferredId.isSome && !recovery }
      passing := some recovery }

/-- `run_pass`, up to its loop. -/
def beginPass (recovery : Bool) (gate : Option (Read I ρ C)) (writes : List (Write I ρ)) : Scheduler I ρ C :=
  let (goes, s) := (s.openPass recovery).passGate room recovery gate
  if goes = false then s else s.enterLoop room recovery writes

/-- One iteration of the pass's loop. -/
def iterate (answers : Answers I ρ C) : Scheduler I ρ C :=
  let (outcome, s) := s.advance room answers
  if outcome = some .progress then s.await room answers.sleep
  else
    { (if outcome = some .empty then s.defer none else s) with passing := none }

end Scheduler

inductive SchedulerEvent (I ρ C : Type) where
  /-- Other tasks run while the scheduler waits for its queue. -/
  | meanwhile (m : Meanwhile I ρ)
  | scheduleStarted
  | begin (recovery : Bool) (gate : Option (Read I ρ C)) (writes : List (Write I ρ))
  | iterate (answers : Answers I ρ C)
  /-- A live pass gives way to a resync, or a closing room ends its pass. -/
  | yielded

def Scheduler.react [LinearOrder I] (room : Settings ρ) (s : Scheduler I ρ C) :
    SchedulerEvent I ρ C → Option (Scheduler I ρ C)
  | .meanwhile m => if s.passing = none then some (s.await room m) else none
  | .scheduleStarted => if s.passing = none then some { s with started := true } else none
  | .begin recovery gate writes =>
    if s.passing = none ∧ (recovery = true ∨ s.world.queue ≠ []) then
      some (s.beginPass room recovery gate writes)
    else none
  | .iterate answers =>
    if s.passing ≠ none ∧ s.world.host.closing = false then some (s.iterate room answers) else none
  | .yielded =>
    if s.passing = some false ∨ (s.passing = some true ∧ s.world.host.closing = true) then
      some { s with passing := none }
    else none

/-- The runs of one room's scheduler, from a fresh one over any registry. -/
def scheduling [LinearOrder I] (room : Settings ρ) : Machine (Scheduler I ρ C) (SchedulerEvent I ρ C) where
  init s := ∃ world, s = { world := world, syncComplete := room.batching }
  step s event := s.react room event

end BandSdk.Scheduling

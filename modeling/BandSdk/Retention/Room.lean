/-
# Retention.Room -- one room's residency and the tasks that move it

`RetainedRoom` is the source's object together with the event-loop state its
methods act on: the transition and disposal tasks it spawned, the suspended
`use()` and `wait_released()` calls, and the detached work it accepted.  Every
task ever spawned keeps its index, so nothing in the representation forbids two
live transitions: that only one is ever unfinished is a theorem, not a shape.

This module holds the synchronous methods.  `history` is the provider's own
record of its callbacks, in order, and `ownerCalls` the room's outgoing calls to
its owner during the current loop step.
-/
import BandSdk.Retention.States

namespace BandSdk.Retention

open BandSdk.Theory

/-- Circuit breakers of one settling and one acquiring operation. -/
def maxSettleSteps : Nat := 6
def maxResidencySteps : Nat := 3

/-- The identity of a caller's task or of detached work. -/
abbrev TaskId := Nat

/-- What a room reads of its owner: the settings, the clock, and whether the
owner is stopping. -/
structure OwnerView where
  idleTimeout : Option Nat
  transitionTimeout : Nat
  settleGrace : Nat
  now : Nat
  stopping : Bool

inductive TransitionKind where
  | acquire
  | release (cause : ReleaseCause) (previous : Residency) (automatic : Bool)
  deriving DecidableEq

/-- A transition task is created, then inside its provider callback, then
finished.  A refused one finishes without ever calling the provider. -/
inductive TransitionPhase where
  | created
  | calling
  | finished (outcome : Outcome)
  deriving DecidableEq

structure Transition where
  kind : TransitionKind
  phase : TransitionPhase := .created
  /-- How often the task was asked to cancel. -/
  cancels : Nat := 0
  /-- Whether the task's done callback ran. -/
  reported : Bool := false

namespace Transition

def outcome? (transition : Transition) : Option Outcome :=
  match transition.phase with
  | .finished outcome => some outcome
  | _ => none

def done (transition : Transition) : Bool := transition.outcome?.isSome

end Transition

/-- Where the disposal task is suspended. -/
inductive DisposalPhase where
  | created
  | grace
  | draining (seen : Nat)
  | joining (transition : Nat)
  | releasing (transition : Nat)
  | disposing
  | finished (outcome : Outcome)
  deriving DecidableEq

def DisposalPhase.done : DisposalPhase → Bool
  | .finished _ => true
  | _ => false

/-- What a settling caller waits for: a transition task, or the level that its
leases drained (from the release count it began at). -/
inductive SettleWait where
  | transition (index : Nat)
  | settleable (seen : Nat)

/-- Where a `use()` call is suspended; `left` is what remains of its loop. -/
inductive UsePhase where
  | settling (left : Nat) (on : SettleWait)
  | preparing
  | residing (left : Nat) (transition : Nat) (initiator : Bool)
  | body
  | ended (outcome : Outcome)

namespace UsePhase

def leased : UsePhase → Bool
  | .preparing | .residing .. | .body => true
  | _ => false

def active : UsePhase → Bool
  | .ended _ => false
  | _ => true

end UsePhase

structure Use where
  holder : TaskId
  prepares : Bool
  phase : UsePhase

/-- Where a `wait_released()` call is suspended. -/
inductive ReleaseWaitPhase where
  | transition (left : Nat) (index : Nat) (reports : Bool)
  | settleable (left : Nat) (seen : Nat)
  | disposal (index : Nat)
  | ended (outcome : Outcome)

structure ReleaseWait where
  generation : Nat
  phase : ReleaseWaitPhase

/-- The provider's record of one callback: its call, then its result. -/
inductive ProviderEvent where
  | acquire (generation : Nat) (resume : Bool)
  | acquired
  | acquireFailed
  | release (cause : ReleaseCause)
  | released (cause : ReleaseCause)
  | busy
  | releaseFailed (cause : ReleaseCause)
  | dispose
  | disposed
  | disposeFailed
  deriving DecidableEq

inductive OwnerCall where
  | reschedule
  | forget
  deriving DecidableEq

structure RetainedRoom where
  roomId : String
  state : Residency := .suspended
  generation : Nat := 0
  leases : Nat := 0
  owned : List TaskId := []
  waiting : List (TaskId × TaskId) := []
  unwinding : List TaskId := []
  /-- The counter of holders: one entry for each `use()` call a task is in. -/
  holders : List TaskId := []
  activity : ProviderActivity := .unknown
  reason : String := unknownActivityReason
  deadline : Option Nat := none
  error : Option String := none
  cause : Option ReleaseCause := none
  recoverWhenUnleased : Bool := false
  resume : Bool := false
  closing : Bool := false
  workCancelled : Bool := false
  settleable : Signal := ⟨true, 0⟩
  drained : Signal := ⟨true, 0⟩
  transition : Option Nat := none
  disposal : Option Nat := none
  cancelledAcquisition : Option Nat := none
  releaseCallbacks : List Nat := []
  -- The event loop's side: every task spawned for the room, by index.
  transitions : List Transition := []
  disposals : List DisposalPhase := []
  uses : List Use := []
  releaseWaits : List ReleaseWait := []
  /-- Release callbacks handed to the loop. -/
  callSoon : List Nat := []
  /-- Detached work that finished, and work asked to cancel. -/
  finished : List TaskId := []
  cancelling : List TaskId := []
  /-- Every task `own` ever accepted. -/
  enrolled : List TaskId := []
  ownerCalls : List OwnerCall := []
  history : List ProviderEvent := []

namespace RetainedRoom

variable (o : OwnerView) (r : RetainedRoom)

/-! ## Errors -/

def closingError : PyError := ⟨"RoomClosingError", "Room " ++ r.roomId ++ " is closing"⟩

def stalled (steps : Nat) : PyError :=
  ⟨"RuntimeError", "Room " ++ r.roomId ++ " did not settle within " ++ toString steps ++ " steps"⟩

/-! ## Observations -/

/-- The number of accepted operations: detached work and holders, each task once. -/
def accepted : Nat := (r.owned ++ r.holders).dedup.length

/-- Admission is closed for good: the room is being disposed, or its owner stops. -/
def isClosing : Bool := r.closing || o.stopping

/-- The current transition task while it is unfinished. -/
def inFlight : Option Nat :=
  match r.transition with
  | some t => if (r.transitions[t]?.map (·.done)).getD true then none else some t
  | none => none

/-- Whether residency `generation` may still observe or act. -/
def hasAuthority (generation : Nat) : Bool :=
  generation == r.generation && !r.isClosing o &&
    (r.cause == none || r.cause == some .idle) &&
    !(r.state == .suspended || r.state == .closed)

/-- Whether accepted work may still hear from residency `generation`. -/
def mayFinish (generation : Nat) : Bool :=
  r.hasAuthority o generation ||
    (r.isClosing o && generation == r.generation && r.state == .resident)

def released (generation : Nat) : Bool :=
  decide (generation < r.generation) || r.state == .suspended || r.state == .closed

def enrolls (task : TaskId) : Bool := r.owned.contains task || r.holders.contains task

/-! ## The idle deadline and the level signals -/

/-- A residency an idle release may retire, or retry retiring. -/
def idleCandidate : Bool :=
  match r.state, r.cause with
  | .resident, none | .cleanupPending, some .idle => true
  | _, _ => false

def idleEligible : Bool :=
  r.idleCandidate && !r.isClosing o && r.leases == 0 && r.accepted == 0 &&
    r.activity == .quiescent

def rearmDeadline (reset : Bool) : RetainedRoom :=
  match o.idleTimeout with
  | none => { r with deadline := none }
  | some timeout =>
    if r.idleEligible o then
      if reset || r.deadline == none then { r with deadline := some (o.now + timeout) } else r
    else { r with deadline := none }

def notify : RetainedRoom :=
  let fired := r.released r.generation
  { r with
    callSoon := if fired then r.callSoon ++ r.releaseCallbacks else r.callSoon
    releaseCallbacks := if fired then [] else r.releaseCallbacks
    settleable := r.settleable.hold (r.leases == 0 || r.isClosing o)
    drained := r.drained.hold (r.accepted == 0)
    ownerCalls := r.ownerCalls ++ [.reschedule] }

/-- Re-arm the idle deadline and wake everything waiting on a change. -/
def schedule (reset : Bool) : RetainedRoom := (r.rearmDeadline o reset).notify o

/-! ## Transitions -/

def request (cause : ReleaseCause) : RetainedRoom :=
  { r with cause := some (strongerCause r.cause cause) }

def spawn (kind : TransitionKind) : RetainedRoom :=
  { r with
    transitions := r.transitions ++ [{ kind := kind }]
    transition := some r.transitions.length }

def startAcquire : RetainedRoom :=
  spawn { r with
    generation := r.generation + 1
    cancelledAcquisition := none
    state := .acquiring
    activity := .unknown
    reason := unknownActivityReason } .acquire

def startRelease (cause : ReleaseCause) (automatic : Bool) : RetainedRoom :=
  let previous := r.state
  let r := if cause = .recovery then { r with recoverWhenUnleased := false } else r
  spawn { r.request cause with state := .suspending, deadline := none }
    (.release cause previous automatic)

def startIdleRelease : RetainedRoom := r.startRelease .idle true

def startRequestedRecovery : RetainedRoom :=
  if r.recoverWhenUnleased ∧ r.cause = some .recovery ∧ r.state = .cleanupPending ∧
      r.leases = 0 ∧ r.closing = false ∧ r.inFlight = none
  then r.startRelease .recovery false
  else r

/-- An acquisition its initiator stopped waiting for needs recovery. -/
def abandon : RetainedRoom :=
  let r := { r.request .recovery with recoverWhenUnleased := true }
  if r.state = .resident then { r with state := .cleanupPending } else r

/-- Deliver cancellation once, including across abandoned-start settlement. -/
def cancelAcquisition (t : Nat) : RetainedRoom :=
  if r.cancelledAcquisition = some t then r
  else { r with
    cancelledAcquisition := some t
    transitions := r.transitions.modify t fun tr => { tr with cancels := tr.cancels + 1 } }

/-- Recovery cancels a start its initiator stopped waiting for; a pending
`final` leaves it to disposal. -/
def abandonAcquisition (t : Nat) : RetainedRoom :=
  let r := r.abandon
  if r.state = .acquiring ∧ r.cause = some .recovery then r.cancelAcquisition t else r

def recordFailure (error : PyError) : RetainedRoom :=
  { r with state := .cleanupPending, error := some (failureText error) }

def finish (t : Nat) (outcome : Outcome) : RetainedRoom :=
  { r with transitions := r.transitions.modify t fun tr => { tr with phase := .finished outcome } }

def call (t : Nat) (event : ProviderEvent) : RetainedRoom :=
  { r with
    transitions := r.transitions.modify t fun tr => { tr with phase := .calling }
    history := r.history ++ [event] }

/-- The first run of an acquisition task, up to its provider callback. -/
def runAcquire (t : Nat) : RetainedRoom :=
  if r.isClosing o then
    (schedule o { r with state := .suspended } false).finish t (.raised r.closingError)
  else r.call t (.acquire r.generation r.resume)

/-- The acquire callback ended. -/
def acquireEnded (t : Nat) (outcome : Outcome) : RetainedRoom :=
  let r := match outcome.error? with
    | some error =>
      { r.abandon.recordFailure error with history := r.history ++ [ProviderEvent.acquireFailed] }
    | none =>
      let r := { r with history := r.history ++ [ProviderEvent.acquired] }
      if r.cause = none then { r with state := .resident, resume := false, error := none }
      else { r with state := .cleanupPending }
  (r.schedule o true).finish t outcome

def idleReleaseAllowed (automatic : Bool) : Bool :=
  r.cause == some .idle && !r.isClosing o && r.leases == 0 &&
    !(automatic && r.accepted != 0) && r.activity == .quiescent

/-- Keep an intact handle resident; a stronger pending cause still applies. -/
def refuseIdleRelease (intact : Bool) : RetainedRoom :=
  if r.cause = some .idle ∧ intact
  then schedule o { r with cause := none, state := .resident } false
  else schedule o { r with state := .cleanupPending } false

def idleRefusedError : PyError :=
  if r.isClosing o then r.closingError
  else ⟨"RuntimeError", "Room " ++ r.roomId ++ " cleanup pending: provider activity is " ++
    r.activity.text ++ "; " ++
    (if r.reason.isEmpty then "waiting for quiescence" else r.reason)⟩

/-- A confirmed release.  A stronger cause recorded during it stays pending. -/
def commitRelease (cause : ReleaseCause) : RetainedRoom :=
  match r.cause with
  | some pending =>
    if strongerCause (some cause) pending ≠ cause then
      { r with error := none, state := .cleanupPending, resume := false }
    else
      { r with
        error := none
        state := .suspended
        resume := r.resume || cause == .idle
        cause := if pending = .final then some .final else none }
  | none => { r with error := none, state := .suspended, resume := r.resume || cause == .idle }

/-- The first run of a release task, up to its provider callback. -/
def runRelease (t : Nat) (cause : ReleaseCause) (previous : Residency) (automatic : Bool) : RetainedRoom :=
  if cause = .idle ∧ r.idleReleaseAllowed o automatic = false then
    let r := r.refuseIdleRelease o (previous == .resident)
    r.finish t (if automatic then .returned else .raised (r.idleRefusedError o))
  else r.call t (.release cause)

/-- How the release callback ended: its result, or the exception it raised. -/
inductive ReleaseResult where
  | value (outcome : ReleaseOutcome)
  | raised (error : PyError)
  | cancelled (message : String)

def invalidReleaseError (cause : ReleaseCause) : PyError :=
  ⟨"RuntimeError", "<ReleaseOutcome.BUSY: 'busy'> is not a valid " ++ cause.text ++ " release result"⟩

def releaseFailed (t : Nat) (cause : ReleaseCause) (error : PyError) (outcome : Outcome) : RetainedRoom :=
  (schedule o { r.recordFailure error with history := r.history ++ [.releaseFailed cause] }
    true).finish t outcome

/-- The release callback ended. -/
def releaseEnded (t : Nat) (cause : ReleaseCause) : ReleaseResult → RetainedRoom
  | .value .released =>
    (schedule o { r.commitRelease cause with history := r.history ++ [.released cause] }
      true).finish t .returned
  | .value .busy =>
    if cause = .idle then
      let r := { r with
        activity := .active, reason := busyActivityReason, history := r.history ++ [ProviderEvent.busy] }
      ((r.refuseIdleRelease o true).schedule o true).finish t .returned
    else
      let error := invalidReleaseError cause
      r.releaseFailed o t cause error (.raised error)
  | .raised error => r.releaseFailed o t cause error (.raised error)
  | .cancelled message =>
    r.releaseFailed o t cause ⟨"CancelledError", message⟩ (.cancelled message)

/-! ## Observation, recovery and enrolled work -/

/-- Accept authoritative provider observations from this residency only. -/
def observe (activity : ProviderActivity) (generation : Nat) (reason : String) : RetainedRoom :=
  if r.hasAuthority o generation then
    schedule o { r with
      activity := activity
      reason := if !reason.isEmpty then reason
        else if activity = .unknown then unknownActivityReason else "" }
      (r.activity != activity)
  else r

/-- Retire a crashed or stale residency through this owner. -/
def recover (generation : Nat) (reason : String) : RetainedRoom :=
  if r.hasAuthority o generation then
    let r := { r.request .recovery with
      recoverWhenUnleased := true
      activity := .unknown
      reason := reason
      error := some reason }
    let r := if r.state = .resident then { r with state := .cleanupPending } else r
    (r.schedule o false).startRequestedRecovery
  else r

/-- Enroll accepted detached work; a refused enrollment cancels the task. -/
def own (task : TaskId) : RetainedRoom :=
  if r.isClosing o then { r with cancelling := task :: r.cancelling }
  else schedule o { r with
    owned := r.owned.insert task
    enrolled := task :: r.enrolled } false

def disown (task : TaskId) : RetainedRoom :=
  schedule o { r with
    owned := r.owned.filter (· != task)
    unwinding := r.unwinding.filter (· != task)
    waiting := r.waiting.filter (·.1 != task) } false

def addReleaseCallback (callback generation : Nat) : RetainedRoom :=
  if r.generation < generation then r
  else if r.released generation then { r with callSoon := r.callSoon ++ [callback] }
  else { r with releaseCallbacks := r.releaseCallbacks.insert callback }

def removeReleaseCallback (callback : Nat) : RetainedRoom :=
  { r with releaseCallbacks := r.releaseCallbacks.filter (· != callback) }

/-! ## Disposal requests -/

/-- The worklist of `_spare_requester`: from the requester back along the waits,
marking every owned task met.  Each waiter waits for one task, so it is added at
most once and `waiting.length + 1` rounds always suffice. -/
def spareLoop : Nat → List TaskId → List TaskId → List TaskId → List TaskId
  | 0, _, _, unwinding => unwinding
  | _ + 1, [], _, unwinding => unwinding
  | n + 1, requester :: pending, visited, unwinding =>
    if visited.contains requester then spareLoop n pending visited unwinding
    else
      let waiters := (r.waiting.filter fun edge => edge.2 == requester && r.enrolls edge.1).map
        (·.1)
      spareLoop n (pending ++ waiters) (requester :: visited)
        (if r.owned.contains requester then unwinding.insert requester else unwinding)

/-- Exempt enrolled work requesting cleanup from cancellation. -/
def spareRequester (current : TaskId) : RetainedRoom :=
  if r.enrolls current then
    { r with unwinding := r.spareLoop (r.waiting.length + 1) [current] [] r.unwinding }
  else r

/-- Join an enrolled operation without cancelling its outcome handling. -/
def beginSettlement (task : TaskId) : RetainedRoom :=
  if r.owned.contains task then { r with unwinding := r.unwinding.insert task } else r

/-- A settled owned task that did not fail is joined; a failed or cancelled one
is followed by a new attempt. -/
def rejoinsDisposal : Bool :=
  match r.disposal.bind (r.disposals[·]?) with
  | none => false
  | some (.finished outcome) => (taskFailure outcome).isNone
  | some _ => true

def beginDisposal : RetainedRoom :=
  let r := schedule o { r.request .final with closing := true } false
  if r.state = .closed ∨ r.rejoinsDisposal then r
  else { r with disposals := r.disposals ++ [.created], disposal := some r.disposals.length }

/-- Close admission and start or join the owned attempt, without awaiting it. -/
def requestDisposal (caller : TaskId) : RetainedRoom :=
  (r.spareRequester caller).beginDisposal o

/-- Owned work final cleanup may still cancel. -/
def uncancelledWork : List TaskId :=
  r.owned.filter fun task => !r.unwinding.contains task && !r.cancelling.contains task

end RetainedRoom

end BandSdk.Retention

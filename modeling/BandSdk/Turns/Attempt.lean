/-
# Turns.Attempt -- one delivery attempt under controls, shutdown and timeouts

`Attempt` is one run of `DeliveryLifecycle._run_claimed` over an
`ExecutionContext`: the coroutine's position (`Point`), its scope, the handler's
task, and the part of the room that controls write.  `AttemptEvent` lists what
the loop can run next: a control, a shutdown step, the end of the await the
coroutine is at, or a cancellation delivered there.

`records` is every terminal settlement the attempt recorded, in order, and
`settledAs` what the scope said when it settled; both are the model's own.
Eligibility, the retry budget and the terminal writes are the claim registry's:
an event carries what they answered.
-/
import Mathlib
import BandSdk.Turns.Scope

namespace BandSdk.Turns

open BandSdk.Theory

variable {I : Type} [DecidableEq I]

/-- The scheduling decision following one delivery attempt. -/
inductive TurnOutcome where
  | advanced
  | paused
  | retryLater
  | notAccepted
  | declined
  | absent
  deriving DecidableEq

/-- What a delivery-status write established about the platform; a stopped room
raises instead. -/
inductive SettlementResult where
  | accepted
  | unconfirmed
  | notFound
  | rejected
  deriving DecidableEq

/-- What the attempt reads of its room. -/
structure Host where
  controlRevision : Nat := 0
  stopped : Bool := false
  closing : Bool := false

/-- Where the attempt's coroutine is suspended. -/
inductive Point (I : Type) where
  /-- `begin_delivery` returned. -/
  | begun
  /-- `_prepare` hydrates the context. -/
  | hydrating
  /-- `confirm_processing` waits for the first of `rest`. -/
  | confirming (confirmed rest : List I)
  /-- `is_gone` probes the room for the first of `rest`. -/
  | probing (confirmed rest : List I)
  /-- `_admit` prepares the context of an admitted attempt. -/
  | preparing
  /-- `execute_delivery` waits for the handler or a termination. -/
  | waiting
  | draining (timedOut : Bool)
  /-- The same after the attempt itself was cancelled. -/
  | cancelledDraining
  /-- The `finally` of a cancelled `execute_delivery`, before its `settle()`. -/
  | cancelledUnwinding
  /-- The `finally` of `execute_delivery`, its intent selected. -/
  | unwinding (timedOut raised : Bool)
  | aborting
  /-- `settle` sends the terminal writes, then `_fail` reports. -/
  | acknowledging (reports : Bool)
  | reporting
  /-- Left with an outcome, or with an exception. -/
  | ended (outcome : Option TurnOutcome)

/-- The handler's task: whether it exists, and how it ended. -/
inductive Handler where
  | absent
  | running
  | done (result : HandlerEnd)
  deriving DecidableEq

structure Attempt (I : Type) where
  members : List I
  /-- The control revision the scheduler selected under. -/
  revision : Nat
  /-- A control probe. -/
  control : Bool
  /-- `consume_all_queued`. -/
  batching : Bool
  host : Host := {}
  scope : TurnScope I := {}
  handler : Handler := .absent
  point : Point I := .begun
  records : List (I × DeliveryStatus) := []
  settledAs : Option (Option ControlMode × Bool) := none

namespace Attempt

variable (a : Attempt I)

def at_ (point : Point I) : Attempt I := { a with point := point }

def unadmittedOutcome : TurnOutcome := if a.host.stopped then .paused else .retryLater

/-- What an admitted attempt leaves behind; `owes` is whether an original still
owes its write. -/
def settledOutcome (owes : Bool) : TurnOutcome :=
  if a.scope.intent = none then if a.scope.stopObserved then .retryLater else .paused
  else if owes then .retryLater
  else .advanced

def ownsDelivery : Bool :=
  !a.host.closing && a.revision == a.host.controlRevision && !a.scope.terminating

/-- `store_intent`: one record for each original, when this settles the scope. -/
def storeIntent (intent : Option DeliveryStatus) : Option (Attempt I) :=
  (a.scope.settle intent).map fun
    | (_, false) => a
    | (scope, true) => { a with
        scope := scope
        records := a.records ++
          (match intent with
          | some .processed => scope.originals.map (·, .processed)
          | some .failed => scope.originals.map (·, .failed)
          | _ => [])
        settledAs := some (scope.kind, scope.shutdown) }

/-- `finish_delivery` in the `finally` of `_run_claimed`. -/
def finish (outcome : Option TurnOutcome) : Attempt I :=
  ((a.storeIntent none).getD a).at_ (.ended outcome)

/-- `_fail`: settle an admitted attempt whose execution raised as one failure. -/
def fail : Attempt I := ((a.storeIntent (some .failed)).getD a).at_ (.acknowledging true)

/-- An exception other than a refusal or a stopped room reaches `_run_claimed`. -/
def raised : Attempt I := if a.scope.admitted then a.fail else a.finish (some a.unadmittedOutcome)

def handlerEnd : Option HandlerEnd :=
  match a.handler with
  | .done result => some result
  | _ => none

/-- `select_intent`; a scope that refuses the intent raises. -/
def selectIntent (owner : Option HandlerEnd) (timedOut : Bool) (next : Attempt I → Attempt I) : Attempt I :=
  match a.storeIntent (a.scope.terminalIntent owner timedOut) with
  | some a => next a
  | none => a.raised

/-! ## The phases of an attempt -/

/-- `execute_delivery`, up to its first await. -/
def execute : Attempt I :=
  if a.scope.kind ≠ none then a.selectIntent none false (·.at_ .aborting)
  else { a with handler := .running }.at_ .waiting

/-- The end of `confirm_processing` and of `_admit`, up to its context. -/
def admitAttempt (present : List I) (recognized : Bool) : Attempt I :=
  let a := { a with scope := { a.scope with originals := present } }
  if present = [] then a.finish (some .absent)
  else if a.control = true ∧ recognized = false then a.finish (some .declined)
  else
    match a.scope.admitAttempt with
    | some scope => { a with scope := scope }.at_ .preparing
    | none => a.raised

/-- The loop of `confirm_processing`, from where `rest` is left to confirm. -/
def confirm (confirmed rest : List I) (recognized : Bool) : Attempt I :=
  if rest = [] then a.admitAttempt confirmed recognized else a.at_ (.confirming confirmed rest)

/-- The end of `_prepare`: `kept` are the originals still owed a turn and charged. -/
def prepared (kept : List I) : Attempt I :=
  let originals := a.members.filter (· ∈ kept)
  let a := { a with scope := { a.scope with originals := originals } }
  if originals = [] then a.finish (some .advanced)
  else if a.ownsDelivery = false then a.finish (some a.unadmittedOutcome)
  else a.at_ (.confirming [] originals)

/-- `_prepare`, up to its first await. -/
def prepare (hydrated : Bool) (kept : List I) : Attempt I :=
  if a.revision ≠ a.host.controlRevision then a.finish (some a.unadmittedOutcome)
  else if a.control = false ∧ hydrated = false then a.at_ .hydrating
  else a.prepared kept

/-- The platform answered a processing write. -/
def processing (confirmed rest : List I) (result : SettlementResult) (recognized : Bool) : Attempt I :=
  match result, rest with
  | .notFound, _ =>
    if a.batching then a.finish (some a.unadmittedOutcome) else a.at_ (.probing confirmed rest)
  | .accepted, identity :: rest =>
    if a.ownsDelivery then a.confirm (confirmed ++ [identity]) rest recognized
    else a.finish (some a.unadmittedOutcome)
  | _, _ => a.finish (some a.unadmittedOutcome)

/-- The context of an admitted attempt is ready. -/
def contextReady : Attempt I :=
  if a.revision ≠ a.host.controlRevision ∧ a.scope.kind = none then
    a.finish (some a.unadmittedOutcome)
  else a.execute

/-- The intent is selected once the handler ended or was drained. -/
def afterDrain (timedOut : Bool) : Attempt I :=
  a.selectIntent a.handlerEnd timedOut fun a =>
    if a.scope.terminating then a.at_ (.unwinding timedOut false)
    else
      match a.handlerEnd with
      | some .returned => a.at_ (.unwinding timedOut false)
      | some .cancelled =>
        -- result() raises CancelledError inside the try
        { a with scope := a.scope.terminate none false true }.at_ .cancelledUnwinding
      | _ => a.at_ (.unwinding timedOut true)

/-- `asyncio.wait` returned; a termination is drained first. -/
def woke (timedOut : Bool) : Attempt I :=
  let a := if timedOut then { a with scope := a.scope.terminate none false false } else a
  if a.scope.terminating = true ∧ a.handlerEnd = none then a.at_ (.draining timedOut)
  else a.afterDrain timedOut

/-- `owner.task.result()` after the `finally`, or what `_run_claimed` does with
the exception that left `execute_delivery`. -/
def resulted : Attempt I :=
  match a.handlerEnd with
  | some .returned =>
    if a.scope.consumed then a.at_ (.acknowledging false) else a.finish (some .declined)
  | some .inputNotAccepted => a.finish (some .notAccepted)
  | some .roomExecutionStopped => a.finish (some .retryLater)
  | some .cancelled => a.finish none
  | some .failed | none => a.raised

/-- `execute_delivery` past its `finally`. -/
def unwound (timedOut raised_ : Bool) : Attempt I :=
  if raised_ then a.resulted
  else if a.scope.shutdown then a.finish none
  else if a.scope.kind ≠ none then a.at_ .aborting
  else if timedOut then a.raised
  else a.resulted

/-- The attempt's task is cancelled at its await. -/
def cancelled : Option (Attempt I) :=
  match a.point with
  | .waiting | .draining _ =>
    let a := { a with scope := a.scope.terminate none false true }
    some (a.at_ (if a.handlerEnd = none then .cancelledDraining else .cancelledUnwinding))
  | .cancelledDraining => some (a.at_ .cancelledUnwinding)
  | .ended _ => none
  | _ => some (a.finish none)

/-! ## Controls -/

/-- `_cancel_cycle`: the running scope, or one settled whose worker still runs. -/
def cancelCycle (kind : ControlMode) (detached : Bool) : Attempt I :=
  if a.scope.running = true ∨ (a.scope.settled = true ∧ detached = true) then
    { a with scope := a.scope.terminate (some kind) false false }
  else a

def interrupt (kind : ControlMode) (detached : Bool) : Attempt I :=
  { a with host := { a.host with controlRevision := a.host.controlRevision + 1 } }.cancelCycle kind
    detached

def stopRoom (detached : Bool) : Attempt I :=
  { a with host := { a.host with stopped := true } }.interrupt .stop detached

def resumeRoom : Attempt I :=
  { a with host := { a.host with
    controlRevision := a.host.controlRevision + 1, stopped := false } }

def observePlatformStop (controlRevision : Option Nat) : Attempt I :=
  let scope := if a.scope.stopObserved then a.scope
    else { a.scope with stopRevision := some (controlRevision.getD a.scope.controlRevision) }
  { a with scope := scope.terminate (some .stop) true false }

/-- `_stop`, before it cancels the room's loop. -/
def shutdown : Attempt I :=
  if a.scope.settled then a else { a with scope := a.scope.terminate none false true }

end Attempt

inductive AttemptEvent (I : Type) where
  | interrupt (detached : Bool)
  | stopRoom (detached : Bool)
  | resumeRoom
  | observePlatformStop (controlRevision : Option Nat)
  | close
  | shutdown
  | cancelled
  | handlerEnded (result : HandlerEnd) (consumed : Bool)
  | prepare (hydrated : Bool) (kept : List I)
  | hydrated (kept : List I)
  | processing (result : SettlementResult) (recognized : Bool)
  | probed (gone recognized : Bool)
  | contextReady
  | woke (timedOut : Bool)
  | drained
  | unwound
  | aborted
  | acknowledged (owes : Bool)
  | reported (owes : Bool)
  /-- The await raises: a stopped room's refusal, or another exception. -/
  | raised (roomStopped : Bool)

def Attempt.step (a : Attempt I) (event : AttemptEvent I) : Option (Attempt I) :=
  match event, a.point with
  | .interrupt detached, _ => some (a.interrupt .interrupt detached)
  | .stopRoom detached, _ => some (a.stopRoom detached)
  | .resumeRoom, _ => some a.resumeRoom
  | .observePlatformStop controlRevision, _ => some (a.observePlatformStop controlRevision)
  | .close, _ => some { a with host := { a.host with closing := true } }
  | .shutdown, _ => if a.host.closing then some a.shutdown else none
  | .cancelled, _ => a.cancelled
  | .handlerEnded result consumed, _ =>
    if a.handler = .running then
      some { a with
        handler := .done result
        scope := if a.control = true ∧ result = .returned then { a.scope with consumed := consumed }
          else a.scope }
    else none
  | .prepare hydrated kept, .begun => some (a.prepare hydrated kept)
  | .hydrated kept, .hydrating => some (a.prepared kept)
  | .processing result recognized, .confirming confirmed rest =>
    some (a.processing confirmed rest result recognized)
  | .probed gone recognized, .probing confirmed rest =>
    some (if gone then a.confirm confirmed (rest.drop 1) recognized
      else a.finish (some a.unadmittedOutcome))
  | .contextReady, .preparing => some a.contextReady
  | .woke true, .waiting => if a.handler = .running then some (a.woke true) else none
  | .woke false, .waiting =>
    if a.handler ≠ .running ∨ a.scope.terminating = true then some (a.woke false) else none
  | .drained, .draining timedOut => some (a.afterDrain timedOut)
  | .drained, .cancelledDraining => some (a.at_ .cancelledUnwinding)
  | .unwound, .cancelledUnwinding => some (a.finish none)
  | .unwound, .unwinding timedOut raised_ => some (a.unwound timedOut raised_)
  | .aborted, .aborting => some (a.at_ (.acknowledging false))
  | .acknowledged owes, .acknowledging reports =>
    some (if reports then a.at_ .reporting else a.finish (some (a.settledOutcome owes)))
  | .reported owes, .reporting => some (a.finish (some (a.settledOutcome owes)))
  | .raised roomStopped, .confirming _ _ =>
    some (if roomStopped then a.finish (some a.unadmittedOutcome) else a.raised)
  | .raised roomStopped, .unwinding _ _ =>
    some (if roomStopped then a.finish (some .retryLater) else a.raised)
  | .raised false, .acknowledging false => some a.raised
  | .raised _, .acknowledging true | .raised _, .reporting => some (a.finish none)
  | _, _ => none

/-- Every attempt from the return of `begin_delivery` on. -/
def attempts (I : Type) [DecidableEq I] : Machine (Attempt I) (AttemptEvent I) where
  init a := ∃ members revision control batching host,
    a = { members := members, revision := revision, control := control, batching := batching, host := host
          scope := { controlRevision := host.controlRevision, originals := members } }
  step := Attempt.step

end BandSdk.Turns

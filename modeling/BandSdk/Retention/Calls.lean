/-
# Retention.Calls -- the coroutines around a room, one loop step at a time

`use()`, `wait_released()` and the disposal task suspend at their awaits; what
runs between two awaits is one loop step.  `RoomEvent` lists every such step
with the fact that decides it (what a callback returned, whether a wait ended by
its target, its time limit or a cancellation), and `RetainedRoom.step` runs it,
or refuses an event that is not enabled.  An interleaving is a list of events.
-/
import BandSdk.Retention.Room

namespace BandSdk.Retention

open BandSdk.Theory

namespace RetainedRoom

variable (o : OwnerView) (r : RetainedRoom)

/-! ## Settling and acquiring -/

/-- How far a settling loop ran before it suspended. -/
inductive SettleFlow where
  | settled
  | failed (error : PyError)
  | waits (left : Nat) (on : SettleWait)

/-- Finish earlier transitions and pending releases without a lease.  Waiting
for a level that is already set does not suspend, so that branch loops. -/
def settleFrom (o : OwnerView) : Nat → RetainedRoom → RetainedRoom × SettleFlow
  | 0, r => (r, .failed (r.stalled maxSettleSteps))
  | n + 1, r =>
    if r.isClosing o then (r, .failed r.closingError)
    else
      match r.inFlight, r.cause, r.leases with
      | some t, _, _ => (r, .waits n (.transition t))
      | none, none, _ => (r, .settled)
      | none, some cause, 0 =>
        (r.startRelease cause false, .waits n (.transition r.transitions.length))
      | none, some _, _ + 1 =>
        if r.settleable.value then settleFrom o n r
        else (r, .waits n (.settleable r.settleable.sets))

inductive ResideFlow where
  | resident
  | failed (error : PyError)
  | waits (left : Nat) (transition : Nat) (initiator : Bool)

def cleanupPendingError : PyError :=
  ⟨"RuntimeError", "Room " ++ r.roomId ++ " cleanup pending: " ++
    (match r.cause with | none => "None" | some cause => cause.text) ++ " release"⟩

def ensureResidentFrom : Nat → RetainedRoom × ResideFlow
  | 0 => (r, .failed (r.stalled maxResidencySteps))
  | n + 1 =>
    if r.isClosing o then (r, .failed r.closingError)
    else
      match r.inFlight, r.state, r.cause with
      | some t, _, _ => (r, .waits n t false)
      | none, .resident, _ => (r, .resident)
      | none, .suspended, none => (r.startAcquire, .waits n r.transitions.length true)
      | none, _, _ => (r, .failed r.cleanupPendingError)

/-- What a bounded wait for a transition leaves its caller with: `none` when the
caller goes on, else how it leaves. -/
def joined (t : Nat) (initiator : Bool) (wake : Wake) : RetainedRoom × Option Outcome :=
  let give := if initiator then r.abandonAcquisition t else r
  match wake, r.transitions[t]?.bind (·.outcome?) with
  | .cancelled, _ => (give, some (.cancelled ""))
  | _, none =>
    (give, some (.raised ⟨"TimeoutError", "Room " ++ r.roomId ++
      (if initiator then " start abandoned after " else " transition still running after ") ++
      toString o.transitionTimeout ++ "s"⟩))
  -- A cancelled transition is recovery's doing, or disposal's once admission closed.
  | _, some (.cancelled _) => (r, if r.isClosing o then some (.raised r.closingError) else none)
  | _, some (.raised error) => (r, some (.raised error))
  | _, some .returned => (r, none)

/-! ## `use()` -/

def setUse (u : Nat) (phase : UsePhase) : RetainedRoom :=
  { r with uses := r.uses.modify u fun use => { use with phase := phase } }

/-- The two `finally` blocks of `use()`: drop the lease if one was taken, then
the holder. -/
def exitUse (u : Nat) (leased : Bool) (outcome : Outcome) : RetainedRoom :=
  match r.uses[u]? with
  | none => r
  | some use =>
    let r := { r with
      leases := if leased then r.leases - 1 else r.leases
      holders := r.holders.erase use.holder }
    ((r.setUse u (.ended outcome)).schedule o false).startRequestedRecovery

def resideUse (u : Nat) (left : Nat) : RetainedRoom :=
  match r.ensureResidentFrom o left with
  | (r, .resident) => r.setUse u .body
  | (r, .failed error) => r.exitUse o u true (.raised error)
  | (r, .waits left t initiator) => r.setUse u (.residing left t initiator)

/-- Take the lease, then prepare or go straight to residency. -/
def leaseUse (u : Nat) (prepares : Bool) : RetainedRoom :=
  if r.isClosing o then r.exitUse o u false (.raised r.closingError)
  else
    let r := ({ r with leases := r.leases + 1 } : RetainedRoom).setUse u .preparing
    if prepares then r else r.resideUse o u maxResidencySteps

def settleUse (u : Nat) (prepares : Bool) (left : Nat) : RetainedRoom :=
  match settleFrom o left r with
  | (r, .settled) => r.leaseUse o u prepares
  | (r, .failed error) => r.exitUse o u false (.raised error)
  | (r, .waits left on) => r.setUse u (.settling left on)

def enterUse (holder : TaskId) (prepares : Bool) : RetainedRoom :=
  if r.isClosing o then
    { r with uses := r.uses ++ [⟨holder, prepares, .ended (.raised r.closingError)⟩] }
  else
    let u := r.uses.length
    let start : UsePhase := .settling maxSettleSteps (.settleable r.settleable.sets)
    let r := schedule o { r with
      holders := holder :: r.holders
      uses := r.uses ++ [⟨holder, prepares, start⟩] } false
    r.settleUse o u prepares maxSettleSteps

/-- Whether a wait for `t` may end this way: its target finished, or the caller
stopped waiting. -/
def mayWake (t : Nat) (wake : Wake) : Bool :=
  wake != .ready || (r.transitions[t]?.map (·.done)).getD false

def resumeUse (u : Nat) (wake : Wake) : Option RetainedRoom :=
  match r.uses[u]? with
  | some ⟨_, prepares, .settling left (.transition t)⟩ =>
    if r.mayWake t wake then
      some (match r.joined o t false wake with
        | (r, none) => r.settleUse o u prepares left
        | (r, some outcome) => r.exitUse o u false outcome)
    else none
  | some ⟨_, prepares, .settling left (.settleable seen)⟩ =>
    match wake with
    | .ready => if seen < r.settleable.sets then some (r.settleUse o u prepares left) else none
    | .cancelled => some (r.exitUse o u false (.cancelled ""))
    | .timeout => none
  | some ⟨_, _, .residing left t initiator⟩ =>
    if r.mayWake t wake then
      some (match r.joined o t initiator wake with
        | (r, none) => r.resideUse o u left
        | (r, some outcome) => r.exitUse o u true outcome)
    else none
  | _ => none

/-- The caller's `prepare` ended. -/
def prepared (u : Nat) (outcome : Outcome) : Option RetainedRoom :=
  match r.uses[u]? with
  | some ⟨_, _, .preparing⟩ =>
    some (if outcome.error?.isNone then r.resideUse o u maxResidencySteps
      else r.exitUse o u true outcome)
  | _ => none

/-- The caller's body ended, normally or not. -/
def bodyEnded (u : Nat) (outcome : Outcome) : Option RetainedRoom :=
  match r.uses[u]? with
  | some ⟨_, _, .body⟩ => some (r.exitUse o u true outcome)
  | _ => none

/-! ## `wait_released()` -/

def setWait (w : Nat) (phase : ReleaseWaitPhase) : RetainedRoom :=
  { r with releaseWaits := r.releaseWaits.modify w fun wait => { wait with phase := phase } }

/-- Join a requested retirement without acquiring a successor. -/
def waitReleasedFrom (o : OwnerView) (w generation : Nat) : Nat → RetainedRoom → RetainedRoom
  | 0, r => r.setWait w (.ended (.raised (r.stalled maxSettleSteps)))
  | n + 1, r =>
    if r.released generation then r.setWait w (.ended .returned)
    else if r.isClosing o then
      let r := r.beginDisposal o
      if r.state = .closed then r.setWait w (.ended .returned)
      else r.setWait w (.disposal (r.disposal.getD 0))
    else
      match r.inFlight, r.leases, r.cause with
      | some t, _, _ => r.setWait w (.transition n t (r.state != .acquiring))
      | none, _ + 1, _ =>
        if r.settleable.value then waitReleasedFrom o w generation n r
        else r.setWait w (.settleable n r.settleable.sets)
      | none, 0, some cause =>
        (r.startRelease cause false).setWait w (.transition n r.transitions.length true)
      | none, 0, none =>
        r.setWait w (.ended (.raised ⟨"RuntimeError",
          "Room " ++ r.roomId ++ " retirement is no longer pending"⟩))

/-- Why `wait_released()` refuses to wait at all, if it does. -/
def waitRefusal (caller : TaskId) (generation : Nat) : Option PyError :=
  if r.generation < generation then
    some ⟨"ValueError", "Cannot wait for a future residency"⟩
  else if r.enrolls caller then
    some ⟨"CleanupIncompleteError", "Room " ++ r.roomId ++ " release waits for the calling work to finish"⟩
  else if generation = r.generation ∧ r.isClosing o = false ∧ r.state ≠ .suspended ∧
      r.state ≠ .closed ∧ r.cause ≠ some .recovery ∧ r.cause ≠ some .final then
    some ⟨"ValueError", "Residency has no retirement request"⟩
  else none

def waitReleased (caller : TaskId) (generation : Nat) : RetainedRoom :=
  match r.waitRefusal o caller generation with
  | some error =>
    { r with releaseWaits := r.releaseWaits ++ [⟨generation, .ended (.raised error)⟩] }
  | none =>
    waitReleasedFrom o r.releaseWaits.length generation maxSettleSteps
      { r with releaseWaits := r.releaseWaits ++ [⟨generation, .settleable maxSettleSteps 0⟩] }

/-- A wait that ends by its reporting deadline or a cancellation leaves the
cleanup owned. -/
def stopWaiting (w : Nat) (wake : Wake) : RetainedRoom :=
  r.setWait w (.ended (match wake with
    | .cancelled => .cancelled ""
    | _ => .raised ⟨"CleanupIncompleteError",
        "Room " ++ r.roomId ++ " release still running after its transition budget"⟩))

def resumeWait (w : Nat) (wake : Wake) : Option RetainedRoom :=
  match r.releaseWaits[w]?, wake with
  | some ⟨_, .ended _⟩, _ => none
  | some ⟨generation, .transition left t reports⟩, .ready =>
    match r.transitions[t]?.bind (·.outcome?) with
    | none => none
    | some outcome =>
      some (if reports && (taskFailure outcome).isSome then
          r.setWait w (.ended (reportedOutcome outcome))
        else waitReleasedFrom o w generation left r)
  | some ⟨generation, .settleable left seen⟩, .ready =>
    if seen < r.settleable.sets then some (waitReleasedFrom o w generation left r) else none
  | some ⟨_, .disposal d⟩, .ready =>
    match r.disposals[d]? with
    | some (.finished outcome) => some (r.setWait w (.ended (reportedOutcome outcome)))
    | _ => none
  | some _, wake => some (r.stopWaiting w wake)
  | none, _ => none

/-! ## Disposal -/

def setDisposal (d : Nat) (phase : DisposalPhase) : RetainedRoom :=
  { r with disposals := r.disposals.set d phase }

/-- The dispose callback begins. -/
def disposeProvider (d : Nat) : RetainedRoom :=
  { r.setDisposal d .disposing with state := .disposing, history := r.history ++ [.dispose] }

/-- Release for good unless nothing is held, then dispose. -/
def releaseFinal (d : Nat) : RetainedRoom :=
  if r.state = .suspended then r.disposeProvider d
  else (r.startRelease .final false).setDisposal d (.releasing r.transitions.length)

def joinTransition (d : Nat) : RetainedRoom :=
  match r.inFlight with
  | some t => r.setDisposal d (.joining t)
  | none => r.releaseFinal d

def awaitDrained (d : Nat) : RetainedRoom :=
  if r.drained.value then r.joinTransition d
  else r.setDisposal d (.draining r.drained.sets)

/-- Cancel what remains of the accepted work, and interrupted startup, once. -/
def cancelWork : RetainedRoom :=
  let r := { r with
    workCancelled := true
    cancelling := r.uncancelledWork ++ r.cancelling }
  match r.transition with
  | some t => if r.state = .acquiring then r.cancelAcquisition t else r
  | none => r

/-- The first run of the disposal task. -/
def runDispose (d : Nat) : RetainedRoom :=
  if r.workCancelled then r.awaitDrained d
  else if o.settleGrace = 0 ∨ r.uncancelledWork = [] then r.cancelWork.awaitDrained d
  else r.setDisposal d .grace

def resumeDisposal (d : Nat) : Option RetainedRoom :=
  match r.disposals[d]? with
  | some .created => some (r.runDispose o d)
  | some .grace => some (r.cancelWork.awaitDrained d)
  | some (.draining seen) => if seen < r.drained.sets then some (r.joinTransition d) else none
  | some (.joining t) =>
    if (r.transitions[t]?.map (·.done)).getD false then some (r.releaseFinal d) else none
  | some (.releasing t) =>
    match r.transitions[t]?.bind (·.outcome?) with
    | none => none
    | some .returned => some (r.disposeProvider d)
    | some outcome => some (r.setDisposal d (.finished outcome))
  | _ => none

/-- The disposal task is cancelled.  The final release is awaited directly, so
there the cancellation goes to the release, which decides; a dispose callback
takes it in `disposeEnded`. -/
def cancelDisposal (d : Nat) (message : String) : Option RetainedRoom :=
  match r.disposals[d]? with
  | none | some (.finished _) => none
  | some .disposing => some r
  | some (.releasing t) =>
    if (r.transitions[t]?.map (·.done)).getD true then
      some (r.setDisposal d (.finished (.cancelled message)))
    else some { r with
      transitions := r.transitions.modify t fun tr => { tr with cancels := tr.cancels + 1 } }
  | some _ => some (r.setDisposal d (.finished (.cancelled message)))

/-- The dispose callback ended. -/
def disposeEnded (d : Nat) (outcome : Outcome) : Option RetainedRoom :=
  match r.disposals[d]? with
  | some .disposing =>
    let r := match outcome.error? with
      | none => { r with
          state := .closed
          error := none
          ownerCalls := r.ownerCalls ++ [.forget]
          history := r.history ++ [.disposed] }
      | some error => { r with
          state := .suspended
          error := some (failureText error)
          history := r.history ++ [.disposeFailed] }
    some ((schedule o r false).setDisposal d (.finished outcome))
  | _ => none

/-! ## Transition tasks -/

/-- A created transition task runs; a cancelled one never reaches its body. -/
def runTransition (t : Nat) : Option RetainedRoom :=
  match r.transitions[t]? with
  | some ⟨.acquire, .created, 0, _⟩ => some (r.runAcquire o t)
  | some ⟨.release cause previous automatic, .created, 0, _⟩ =>
    some (r.runRelease o t cause previous automatic)
  | _ => none

/-- The task is cancelled before its first run: its coroutine never starts. -/
def cancelUnstarted (t : Nat) (message : String) : Option RetainedRoom :=
  match r.transitions[t]? with
  | some ⟨_, .created, _, _⟩ => some (r.finish t (.cancelled message))
  | _ => none

def acquireReturned (t : Nat) (outcome : Outcome) : Option RetainedRoom :=
  match r.transitions[t]? with
  | some ⟨.acquire, .calling, _, _⟩ => some (r.acquireEnded o t outcome)
  | _ => none

def releaseReturned (t : Nat) (result : ReleaseResult) : Option RetainedRoom :=
  match r.transitions[t]? with
  | some ⟨.release cause _ _, .calling, _, _⟩ => some (r.releaseEnded o t cause result)
  | _ => none

/-- The done callback of a finished transition task. -/
def transitionDone (t : Nat) : Option RetainedRoom :=
  match r.transitions[t]? with
  | some ⟨_, .finished _, _, false⟩ =>
    some (startRequestedRecovery { r with
      transitions := r.transitions.modify t fun tr => { tr with reported := true } })
  | _ => none

/-! ## Waiting on enrolled work -/

def waitOwned (current task : TaskId) : RetainedRoom :=
  if current ≠ task ∧ r.finished.contains task = false ∧ r.enrolls current ∧ r.enrolls task then
    { r with waiting := (current, task) :: r.waiting.filter (·.1 != current) }
  else r

def waitOwnedEnded (current : TaskId) : RetainedRoom :=
  { r with waiting := r.waiting.filter (·.1 != current) }

end RetainedRoom

/-- Everything that can happen to a room in one loop step, its owner's shutdown
and timer apart. -/
inductive RoomEvent where
  | observe (activity : ProviderActivity) (generation : Nat) (reason : String)
  | recover (generation : Nat) (reason : String)
  | own (task : TaskId)
  | taskFinished (task : TaskId)
  | taskCancelled (task : TaskId)
  | disown (task : TaskId)
  | waitOwned (current task : TaskId)
  | waitOwnedEnded (current : TaskId)
  | beginSettlement (task : TaskId)
  | addReleaseCallback (callback generation : Nat)
  | removeReleaseCallback (callback : Nat)
  | use (holder : TaskId) (prepares : Bool)
  | resumeUse (u : Nat) (wake : Wake)
  | prepared (u : Nat) (outcome : Outcome)
  | bodyEnded (u : Nat) (outcome : Outcome)
  | waitReleased (caller : TaskId) (generation : Nat)
  | resumeWait (w : Nat) (wake : Wake)
  | requestDisposal (caller : TaskId)
  | resumeDisposal (d : Nat)
  | cancelDisposal (d : Nat) (message : String)
  | disposeEnded (d : Nat) (outcome : Outcome)
  | runTransition (t : Nat)
  | cancelUnstarted (t : Nat) (message : String)
  | acquireReturned (t : Nat) (outcome : Outcome)
  | releaseReturned (t : Nat) (result : RetainedRoom.ReleaseResult)
  | transitionDone (t : Nat)

/-- One loop step of the room. -/
def RetainedRoom.step (o : OwnerView) (r : RetainedRoom) : RoomEvent → Option RetainedRoom
  | .observe activity generation reason => some (r.observe o activity generation reason)
  | .recover generation reason => some (r.recover o generation reason)
  | .own task => some (r.own o task)
  | .taskFinished task => some { r with finished := task :: r.finished }
  | .taskCancelled task => some { r with cancelling := task :: r.cancelling }
  | .disown task =>
    if r.finished.contains task && r.enrolled.contains task then some (r.disown o task) else none
  | .waitOwned current task => some (r.waitOwned current task)
  | .waitOwnedEnded current => some (r.waitOwnedEnded current)
  | .beginSettlement task => some (r.beginSettlement task)
  | .addReleaseCallback callback generation => some (r.addReleaseCallback callback generation)
  | .removeReleaseCallback callback => some (r.removeReleaseCallback callback)
  | .use holder prepares => some (r.enterUse o holder prepares)
  | .resumeUse u wake => r.resumeUse o u wake
  | .prepared u outcome => r.prepared o u outcome
  | .bodyEnded u outcome => r.bodyEnded o u outcome
  | .waitReleased caller generation => some (r.waitReleased o caller generation)
  | .resumeWait w wake => r.resumeWait o w wake
  | .requestDisposal caller => some (r.requestDisposal o caller)
  | .resumeDisposal d => r.resumeDisposal o d
  | .cancelDisposal d message => r.cancelDisposal d message
  | .disposeEnded d outcome => r.disposeEnded o d outcome
  | .runTransition t => r.runTransition o t
  | .cancelUnstarted t message => r.cancelUnstarted t message
  | .acquireReturned t outcome => r.acquireReturned o t outcome
  | .releaseReturned t result => r.releaseReturned o t result
  | .transitionDone t => r.transitionDone t

end BandSdk.Retention

/-
# Agents.Ownership -- start() and stop() on one agent

`Agent.start` and `Agent.stop` share four flags, two pending cleanup phases and the
single-instance guard, and change them around every await.  A call runs from one
await to the next; `resume` names the call and how its await ended, so every
interleaving of calls, failures and cancellations is a list of events.

`Host` has the fields of the agent and of its `PlatformRuntime`.  The adapter's own
disposal record may be shared with other hosts: whether it accepts a start is a part
of the event, like the answer of the lock file behind the guard.  A helper that does
not suspend is an await that returned.

`adapterUp`, `holder`, `stops` and `log` are the model's own: whether the adapter was
started and not yet disposed of, the start() whose agent this is, the stop() calls
that returned, and what the calls returned on.
-/
import BandSdk.Theory.Machine

namespace BandSdk.Agents

open BandSdk.Theory

/-- The adapter's kind is fixed, and so are its registrations once a start sealed them. -/
structure Setup where
  singleInstance : Bool
  /-- The adapter is a `SimpleAdapter`. -/
  simple : Bool
  /-- `_owns_cleanup`. -/
  ownsCleanup : Bool

/-- What `accept_adapter` returns. -/
def Setup.ownsResources (setup : Setup) : Bool := setup.simple && setup.ownsCleanup

/-- How an await ended. -/
inductive Ended where
  | returned
  | raised
  | cancelled
  deriving DecidableEq

/-- Where `stop()` awaits; `disconnecting` knows how the runtime's stop went before it. -/
inductive StopPhase where
  | locking
  | unsubscribing
  | stoppingRuntime
  | disconnecting (before : Ended)
  | disposing (failed settled : Bool)
  deriving DecidableEq

/-- Where `start()` awaits: its body, the two unwinds of a failed body, and the stop it was asked
for. -/
inductive StartPhase where
  | initializing
  | startingAdapter
  | runtimeInitializing
  | runtimeStarting
  | settingUpContacts
  | unwindingRuntime
  | unwindingAdapter (settled : Bool)
  | stopping (phase : StopPhase)
  deriving DecidableEq

/-- How far a call came: it awaits again, returned, or was left by an exception.  `recorded` is the
stop that only left a request. -/
inductive Progress (π : Type) where
  | awaits (phase : π)
  | returned
  | recorded
  | raised

structure Host where
  started : Bool := false
  starting : Bool := false
  stopRequested : Bool := false
  /-- `CleanupPhase.RUNTIME` is pending. -/
  runtimePending : Bool := false
  /-- `CleanupPhase.ADAPTER` is pending. -/
  adapterPending : Bool := false
  stopLock : Bool := false
  waiters : List Nat := []
  instanceGuard : Bool := false
  ownsInstanceGuard : Bool := false
  /-- The runtime has an `AgentRuntime`. -/
  runtimeHeld : Bool := false
  running : Bool := false
  adapterUp : Bool := false
  holder : Option Nat := none

namespace Host

variable (setup : Setup) (task : Nat) (h : Host)

def cleanupPending : Bool := h.runtimePending || h.adapterPending

/-- `PlatformRuntime.cleanup_pending`. -/
def runtimeCleanupPending : Bool := h.runtimeHeld && !h.running

def claimSingleInstance (free : Bool) : Option Host :=
  if setup.singleInstance && !h.instanceGuard then
    if free then some { h with instanceGuard := true } else none
  else some h

def releaseSingleInstance : Host := { h with instanceGuard := false, ownsInstanceGuard := false }

def releaseOwnedGuard : Host := if h.ownsInstanceGuard then h.releaseSingleInstance else h

/-- The adapter's disposal returned; a `SimpleAdapter` is not done while work is unsettled. -/
def adapterDisposed (settled : Bool) : Host :=
  if settled || !setup.simple then { h with adapterPending := false, adapterUp := false } else h

/-! ### `stop()` -/

def finishStop (failed : Bool) : Host × Progress StopPhase :=
  if failed then ({ h with stopLock := false }, .raised)
  else ({ h.releaseSingleInstance with stopLock := false, holder := none }, .returned)

/-- A cancelled stop leaves what is pending to the next. -/
def cancelStop : Host × Progress StopPhase := ({ h with stopLock := false }, .raised)

def runAdapterPhase (failed : Bool) : Host × Progress StopPhase :=
  if h.adapterPending then (h, .awaits (.disposing failed (!h.runtimePending)))
  else h.finishStop failed

/-- `PlatformRuntime.stop` ended. -/
def runtimePhaseEnded : Ended → Host × Progress StopPhase
  | .returned => { h.releaseOwnedGuard with runtimePending := false }.runAdapterPhase false
  | .raised => h.runAdapterPhase true
  | .cancelled => h.cancelStop

def runCleanup : Host × Progress StopPhase :=
  if h.runtimePending then ({ h with running := false }, .awaits .unsubscribing)
  else h.runAdapterPhase false

/-- The stop lock is free. -/
def enterStop : Host × Progress StopPhase :=
  if h.starting && !h.started then ({ h with stopRequested := true }, .recorded)
  else if !h.started && !h.cleanupPending then (h, .returned)
  else { h with stopLock := true, stopRequested := false, started := false }.runCleanup

/-- A call finds the lock free and nobody before it, or waits. -/
def callStop : Host × Progress StopPhase :=
  if !h.stopLock && h.waiters.isEmpty then h.enterStop
  else ({ h with waiters := h.waiters ++ [task] }, .awaits .locking)

def resumeStop (phase : StopPhase) (ended : Ended) : Option (Host × Progress StopPhase) :=
  match phase, ended with
  | .locking, .returned =>
    if h.stopLock || h.waiters.head? != some task then none
    else some { h with waiters := h.waiters.tail }.enterStop
  | .locking, .raised => none
  | .locking, .cancelled => some ({ h with waiters := h.waiters.erase task }, .raised)
  | .unsubscribing, .cancelled => some (h, .awaits (.disconnecting .cancelled))
  | .unsubscribing, _ =>
    some (h, .awaits (if h.runtimeHeld then .stoppingRuntime else .disconnecting .returned))
  | .stoppingRuntime, .returned =>
    some ({ h with runtimeHeld := false }, .awaits (.disconnecting .returned))
  | .stoppingRuntime, ended => some (h, .awaits (.disconnecting ended))
  -- the disconnect is in a `finally`: what it raises replaces what came before
  | .disconnecting before, .returned => some (h.runtimePhaseEnded before)
  | .disconnecting _, ended => some (h.runtimePhaseEnded ended)
  | .disposing failed settled, .returned => some ((h.adapterDisposed setup settled).finishStop failed)
  | .disposing _ _, .raised => some (h.finishStop true)
  | .disposing _ _, .cancelled => some h.cancelStop

/-! ### `start()` -/

/-- A failed start raises, and forgets a stop it was asked for. -/
def startFailed : Host × Progress StartPhase :=
  ({ h with stopRequested := false, starting := false }, .raised)

def finishUnwind : Host × Progress StartPhase :=
  if h.cleanupPending then h.startFailed
  else { h.releaseSingleInstance with holder := none }.startFailed

/-- `Agent._unwind_failed_start`. -/
def unwindFailedStart : Host × Progress StartPhase :=
  let settled := !h.runtimeCleanupPending
  let h := { h with runtimePending := !settled }
  if h.adapterPending then (h, .awaits (.unwindingAdapter settled)) else h.finishUnwind

/-- `PlatformRuntime._unwind_failed_start`. -/
def unwindFailedRuntime : Host × Progress StartPhase :=
  if h.runtimeHeld then (h, .awaits .unwindingRuntime) else h.releaseOwnedGuard.unwindFailedStart

def startAdapter : Host × Progress StartPhase :=
  ({ h with adapterPending := true, adapterUp := true }, .awaits .startingAdapter)

/-- `PlatformRuntime.start` up to its first await. -/
def startRuntime (free : Bool) : Host × Progress StartPhase :=
  let h := { h with runtimePending := true }
  if h.runtimeHeld then h.unwindFailedStart
  else if h.instanceGuard then (h, .awaits .runtimeInitializing)
  else
    match h.claimSingleInstance setup free with
    | none => h.unwindFailedStart
    | some h => ({ h with ownsInstanceGuard := true }, .awaits .runtimeInitializing)

/-- `start()` after the stop it was asked for. -/
def afterStop : Host × Progress StopPhase → Host × Progress StartPhase
  | (h, .awaits phase) => (h, .awaits (.stopping phase))
  | (h, .returned) | (h, .recorded) => ({ h with starting := false }, .returned)
  | (h, .raised) => ({ h with starting := false }, .raised)

def broughtUp : Host × Progress StartPhase :=
  let h := { h with running := true, started := true }
  if h.stopRequested then afterStop (h.callStop task) else ({ h with starting := false }, .returned)

/-- How a start goes on: `accepted` is what `_batch_hosts` and `accept_adapter` say to it at once,
`free` what the lock file does. -/
structure Answer where
  ended : Ended := .returned
  accepted : Bool := true
  free : Bool := true

def callStart (answer : Answer) : Host × Progress StartPhase :=
  if h.started then (h, .returned)
  else if h.starting && setup.ownsResources then (h, .raised)
  else if h.cleanupPending then (h, .raised)
  else if !answer.accepted then (h, .raised)
  else
    let h := { h with adapterPending := setup.ownsResources, starting := true }
    match h.claimSingleInstance setup answer.free with
    | some h => ({ h with holder := some task }, .awaits .initializing)
    | none =>
      -- without resources the claim is made before the `try` that unwinds
      if setup.ownsResources then { h with holder := some task }.unwindFailedStart
      else ({ h with starting := false }, .raised)

def resumeStart (phase : StartPhase) (answer : Answer) : Option (Host × Progress StartPhase) :=
  match phase, answer.ended with
  | .initializing, .returned => some (if answer.accepted then h.startAdapter else h.unwindFailedStart)
  | .startingAdapter, .returned => some (h.startRuntime setup answer.free)
  | .initializing, _ | .startingAdapter, _ => some h.unwindFailedStart
  | .runtimeInitializing, .returned => some ({ h with runtimeHeld := true }, .awaits .runtimeStarting)
  | .runtimeStarting, .returned => some (h, .awaits .settingUpContacts)
  | .settingUpContacts, .returned => some (h.broughtUp task)
  | .runtimeInitializing, _ | .runtimeStarting, _ | .settingUpContacts, _ =>
    some h.unwindFailedRuntime
  | .unwindingRuntime, .returned =>
    some { h with runtimeHeld := false }.releaseOwnedGuard.unwindFailedStart
  | .unwindingRuntime, .raised =>
    some (if h.runtimeHeld then h else h.releaseOwnedGuard).unwindFailedStart
  | .unwindingRuntime, .cancelled => some h.unwindFailedStart
  | .unwindingAdapter settled, .returned => some (h.adapterDisposed setup settled).finishUnwind
  | .unwindingAdapter _, .raised => some h.finishUnwind
  | .unwindingAdapter _, .cancelled => some h.startFailed
  | .stopping phase, ended => (h.resumeStop setup task phase ended).map afterStop

end Host

/-! ### One agent's calls -/

/-- A call under way; `since` counts the stop() calls that had returned when the start was made. -/
inductive Call where
  | start (phase : StartPhase) (since : Nat)
  | stop (phase : StopPhase)
  deriving DecidableEq

/-- What the calls returned on: whether the stop left a request and whether cleanup was pending;
whether a stop had returned during the start and whether the agent runs. -/
inductive Returned where
  | stop (call : Nat) (recorded pending : Bool)
  | start (call : Nat) (asked running : Bool)
  deriving DecidableEq

structure Agent where
  host : Host := {}
  calls : Nat → Option Call := fun _ => none
  made : Nat := 0
  stops : Nat := 0
  log : List Returned := []

inductive Event where
  | start (answer : Host.Answer)
  /-- `inCleanup`: the caller is the adapter's own cleanup. -/
  | stop (inCleanup : Bool)
  | resume (call : Nat) (answer : Host.Answer)

namespace Agent

variable (setup : Setup) (a : Agent)

def setCall (call : Nat) (next : Option Call) : Agent :=
  { a with calls := Function.update a.calls call next }

def startNext (call since : Nat) : Host × Progress StartPhase → Agent
  | (h, .awaits phase) => { a.setCall call (some (.start phase since)) with host := h }
  | (h, .returned) | (h, .recorded) =>
    { a.setCall call none with
      host := h, log := a.log ++ [.start call (since < a.stops) h.started] }
  | (h, .raised) => { a.setCall call none with host := h }

def stopNext (call : Nat) : Host × Progress StopPhase → Agent
  | (h, .awaits phase) => { a.setCall call (some (.stop phase)) with host := h }
  | (h, .returned) =>
    { a.setCall call none with
      host := h, stops := a.stops + 1, log := a.log ++ [.stop call false h.cleanupPending] }
  | (h, .recorded) =>
    { a.setCall call none with
      host := h, stops := a.stops + 1, log := a.log ++ [.stop call true h.cleanupPending] }
  | (h, .raised) => { a.setCall call none with host := h }

def step : Event → Option Agent
  | .start answer =>
    some { a.startNext a.made a.stops (a.host.callStart setup a.made answer) with made := a.made + 1 }
  | .stop inCleanup =>
    if setup.simple && inCleanup then some { a with made := a.made + 1 }
    else some { a.stopNext a.made (a.host.callStop a.made) with made := a.made + 1 }
  | .resume call answer =>
    match a.calls call with
    | none => none
    | some (.start phase since) =>
      (a.host.resumeStart setup call phase answer).map (a.startNext call since)
    | some (.stop phase) =>
      (a.host.resumeStop setup call phase answer.ended).map (a.stopNext call)

end Agent

def lifecycle (setup : Setup) : Machine Agent Event where
  init a := a = {}
  step a e := a.step setup e

/-- No start() is made while another is in flight, nothing is pending and the adapter owns no
resources: the one overlap that is not refused. -/
def unrivalled (setup : Setup) (a : Agent) : Event → Bool
  | .start _ => !(a.host.starting && !setup.ownsResources && !a.host.cleanupPending)
  | _ => true

end BandSdk.Agents

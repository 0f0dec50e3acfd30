/-
# Gateway.Model -- A2A requests and the rooms that answer them

The A2A gateway keeps one pending request a room.  `pending_task` registers a request
and pops the room's slot when the request leaves its block; `on_cleanup` and
`cleanup_all` take slots too.  Band messages are published to the request the slot
names.  A request publishes under its own lock until it is done, and its `TaskUpdater`
refuses an update once a terminal one was tried.

A call runs from one await to the next; `resume` names the call and how its await
ended.  A request has the number of the execution that made it.  `cleaned`,
`cancelled` and `log` are the model's own: whether the request's room was cleaned up
since it registered, whether `_cancel_a2a` published for it, and what was published.
-/
import BandSdk.Theory.Asyncio
import BandSdk.Theory.Keyed
import BandSdk.Theory.Machine

namespace BandSdk.Gateway

open BandSdk.Theory

set_option linter.dupNamespace false

inductive Update where
  | progress
  | complete
  | fail
  | cancel
  deriving DecidableEq

def Update.terminal (update : Update) : Bool := update ≠ .progress

/-- `PendingA2ATask`; `terminalReached` is its updater's. -/
structure PendingA2ATask where
  room : String
  done : Bool := false
  lock : Bool := false
  terminalReached : Bool := false
  cleaned : Bool := false
  cancelled : Bool := false
  deriving DecidableEq

/-- Where a publication awaits: the request's lock, or its updater. -/
inductive Publishing where
  | locking
  | updating
  deriving DecidableEq

/-- Where `_execute_a2a` awaits; `failing` is behind the block. -/
inductive ExecutionPhase where
  | announcing
  | sending
  | waiting
  | timingOut (publishing : Publishing)
  | failing (publishing : Publishing)
  deriving DecidableEq

inductive Call where
  | execution (phase : ExecutionPhase)
  /-- A Band message for `request`, with what the slot said when it came. -/
  | message (request : Nat) (update : Update) (registered : Option Nat) (publishing : Publishing)
  | cleanup (request : Nat) (publishing : Publishing)
  | cleanupAll (room : String) (request : Nat) (rest : List (String × Nat)) (publishing : Publishing)
  deriving DecidableEq

/-- An update handed to the A2A event queue; for a Band message, with what the slot said when the
message came. -/
structure Note where
  request : Nat
  update : Update
  registered : Option (Option Nat) := none
  deriving DecidableEq

structure Gateway where
  pendingTasks : List (String × Nat) := []
  requests : Nat → Option PendingA2ATask := fun _ => none
  calls : Nat → Option Call := fun _ => none
  made : Nat := 0
  log : List Note := []

inductive Input where
  | ended (ended : Ended)
  | timeout
  deriving DecidableEq

inductive Event where
  /-- The room of an execution is there; it registers and goes on. -/
  | execute (room : String)
  | message (room : String) (update : Update)
  | cleanup (room : String)
  | cleanupAll
  | cancel (request : Nat)
  | resume (call : Nat) (input : Input)

namespace Gateway

variable (g : Gateway)

def slot (room : String) : Option Nat := Keyed.get room g.pendingTasks

def setCall (call : Nat) (next : Option Call) : Gateway :=
  { g with calls := Function.update g.calls call next }

def setRequest (request : Nat) (pending : PendingA2ATask) : Gateway :=
  { g with requests := Function.update g.requests request (some pending) }

/-- A new call. -/
def spawn (next : Call) : Gateway := { g.setCall g.made (some next) with made := g.made + 1 }

/-! ### Publishing -/

inductive Progress where
  | still (publishing : Publishing)
  | ended (ended : Ended)

/-- `report_progress`, `complete_with_message` and `fail`. -/
def publish (request : Nat) (update : Update) (registered : Option (Option Nat))
    (publishing : Publishing) (ended : Ended) : Option (Gateway × Progress) :=
  match g.requests request with
  | none => none
  | some pending =>
    match publishing, ended with
    | .locking, .returned =>
      if pending.lock then none
      else if pending.done then some (g, .ended .returned)
      else if pending.terminalReached then some (g, .ended .raised)
      else
        let pending := { pending with lock := true, terminalReached := update.terminal }
        some ({ g.setRequest request pending with log := g.log ++ [⟨request, update, registered⟩] },
          .still .updating)
    | .locking, .raised => none
    | .locking, .cancelled => some (g, .ended .cancelled)
    | .updating, .returned =>
      some (g.setRequest request
        { pending with lock := false, done := pending.done || update.terminal }, .ended .returned)
    | .updating, ended => some (g.setRequest request { pending with lock := false }, .ended ended)

/-! ### Executions -/

/-- The `finally` of `pending_task`. -/
def leave (request : Nat) : Gateway :=
  match g.requests request with
  | none => g
  | some pending => { g with pendingTasks := Keyed.erase pending.room g.pendingTasks }

/-- The block is left by an exception; a cancelled execution ends there. -/
def leaveRaising (request : Nat) (ended : Ended) : Gateway :=
  if ended = .raised then (g.leave request).setCall request (some (.execution (.failing .locking)))
  else (g.leave request).setCall request none

def execute (room : String) : Gateway :=
  let request := g.made
  let g := g.setRequest request { room := room }
  match g.slot room with
  | some _ => g.spawn (.execution (.failing .locking))
  | none =>
    { g.spawn (.execution .announcing) with
      pendingTasks := Keyed.setItem room request g.pendingTasks }

def resumeExecution (request : Nat) (phase : ExecutionPhase) (input : Input) : Option Gateway :=
  match phase, input with
  | .announcing, .ended .returned => some (g.setCall request (some (.execution .sending)))
  | .sending, .ended .returned => some (g.setCall request (some (.execution .waiting)))
  | .waiting, .ended .returned =>
    if (g.requests request).any PendingA2ATask.done then some (g.leaveRaising request .returned) else none
  | .waiting, .timeout => some (g.setCall request (some (.execution (.timingOut .locking))))
  | .waiting, .ended .raised => none
  | .announcing, .ended ended | .sending, .ended ended | .waiting, .ended ended =>
    some (g.leaveRaising request ended)
  | .timingOut publishing, .ended ended =>
    (g.publish request .fail none publishing ended).map fun
      | (g, .still publishing) => g.setCall request (some (.execution (.timingOut publishing)))
      | (g, .ended ended) => g.leaveRaising request ended
  | .failing publishing, .ended ended =>
    (g.publish request .fail none publishing ended).map fun
      | (g, .still publishing) => g.setCall request (some (.execution (.failing publishing)))
      | (g, .ended _) => g.setCall request none
  | _, .timeout => none

/-! ### Cleanups -/

/-- `on_cleanup`; `cleaned` is noted of every request of the room. -/
def onCleanup (room : String) : Gateway :=
  let found := g.slot room
  let g := { g with
    pendingTasks := Keyed.erase room g.pendingTasks
    requests := fun request => (g.requests request).map fun pending =>
      if pending.room = room then { pending with cleaned := true } else pending }
  match found with
  | some request => g.spawn (.cleanup request .locking)
  | none => g

/-- The next response of `cleanup_all`. -/
def failNext (call : Nat) : List (String × Nat) → Gateway
  | [] => g.setCall call none
  | (room, request) :: rest => g.setCall call (some (.cleanupAll room request rest .locking))

/-- A response was failed; its slot goes if it is still its own. -/
def releaseFailed (room : String) (request : Nat) : Gateway :=
  if g.slot room = some request then { g with pendingTasks := Keyed.erase room g.pendingTasks } else g

/-! ### One event -/

def resume (call : Nat) (input : Input) : Option Gateway :=
  match g.calls call, input with
  | some (.execution phase), input => g.resumeExecution call phase input
  | some (.message request update registered publishing), .ended ended =>
    (g.publish request update (some registered) publishing ended).map fun
      | (g, .still publishing) =>
        g.setCall call (some (.message request update registered publishing))
      | (g, .ended _) => g.setCall call none
  | some (.cleanup request publishing), .ended ended =>
    (g.publish request .fail none publishing ended).map fun
      | (g, .still publishing) => g.setCall call (some (.cleanup request publishing))
      | (g, .ended _) => g.setCall call none
  | some (.cleanupAll room request rest publishing), .ended ended =>
    (g.publish request .fail none publishing ended).map fun
      | (g, .still publishing) => g.setCall call (some (.cleanupAll room request rest publishing))
      | (g, .ended .returned) => (g.releaseFailed room request).failNext call rest
      | (g, .ended .raised) => g.failNext call rest
      | (g, .ended .cancelled) => g.setCall call none
  | _, _ => none

def step (g : Gateway) : Event → Option Gateway
  | .execute room => some (g.execute room)
  | .message room update =>
    if update = .cancel then none
    else
      match g.slot room with
      | none => some g
      | some request => some (g.spawn (.message request update (some request) .locking))
  | .cleanup room => some (g.onCleanup room)
  | .cleanupAll => some { g.failNext g.made g.pendingTasks with made := g.made + 1 }
  | .cancel request =>
    (g.requests request).map fun pending =>
      { g.setRequest request { pending with cancelled := true } with
        log := g.log ++ [⟨request, .cancel, none⟩] }
  | .resume call input => g.resume call input

end Gateway

def gateway : Machine Gateway Event where
  init g := g = {}
  step g e := g.step e

end BandSdk.Gateway

/-
# Rooms.Model -- each room's owned execution: admission, routing, retirement

`Slot` is everything `RoomExecutions` keeps under one room id: the `Room`
records ever created for it (a record can be forgotten and a new one created
while an old step's done callback is still queued), which of them the registry
names, what is routed, and the step tasks with their coroutine's local
variables.  `RoomSignal` lists every loop step: the signals, and the end of each
await of a step task.

Two fields are the model's own record of what happened: `executions`, one entry
for each execution built, and `log`, what became of each event.  A held event
carries the position at which it was held, with the admission it was held under.
-/
import BandSdk.Retention.States
import BandSdk.Theory.Machine
import Mathlib.Logic.Function.Basic

namespace BandSdk.Rooms

open BandSdk.Theory

/-- Without a new signal a room needs at most: retire its old execution, start a
new one, and retire that start when a stop overtook it. -/
def maxStepsPerSignal : Nat := 3

/-- Events a wanted room receives before its execution is routed. -/
def maxHeldEvents : Nat := 256

/-- A full queue plus as many arrivals during its delivery. -/
def maxDeliverySteps : Nat := 2 * maxHeldEvents

/-- An execution's identity: its position among those built for the room id. -/
abbrev ExecId := Nat

variable {E : Type}

inductive RoomState where
  | idle
  | starting
  | serving
  | retiring
  deriving DecidableEq

structure Held (E : Type) where
  record : Nat
  generation : Nat
  seq : Nat
  event : E

/-- One room's membership intent and the execution it owns. -/
structure Room (E : Type) where
  wanted : Bool := false
  generation : Nat := 0
  state : RoomState := .idle
  execution : Option ExecId := none
  stopTimeout : Option Nat := none
  stepsLeft : Nat := maxStepsPerSignal
  /-- The unfinished convergence, with its `graceful` flag. -/
  convergence : Option Bool := none
  held : List (Held E) := []

/-- Where a step task is suspended. -/
inductive StepPhase (E : Type) where
  | startCreated
  | starting (execution : ExecId) (generation : Nat)
  | delivering (execution : ExecId) (generation : Nat) (tail : List (Held E)) (delivered : Nat)
  | resyncing (execution : ExecId)
  | retireCreated (execution : ExecId)
  | stopping (execution : ExecId) (timeout : Option Nat)
  | releasing (execution : ExecId) (graceful : Bool)
  /-- The task finished; its done callback has not run yet. -/
  | finished (outcome : Outcome)
  | reported

structure Step (E : Type) where
  record : Nat
  phase : StepPhase E

/-- An execution built for the room: the record and the admission generation its
start began under, and how far its cleanup got. -/
structure Execution where
  record : Nat
  generation : Nat
  routed : Bool := false
  stopBegan : Bool := false
  stopped : Bool := false
  released : Bool := false

/-- Its stop and the room's release both succeeded. -/
def Execution.cleaned (execution : Execution) : Bool := execution.stopped && execution.released

/-- Why a held event was not delivered: the oldest of a full `queue`, the flood cap
of an execution, its admission gone, or a failed start. -/
inductive Drop (E : Type) where
  | evicted (queue : List (Held E))
  | flooded (execution : ExecId)
  | discarded
  | lost

inductive LogEntry (E : Type) where
  | handed (item : Held E) (execution : ExecId)
  | dropped (item : Held E) (why : Drop E)
  | live (event : E) (execution : ExecId)

/-- How a convergence ended; `exceeded` is the circuit breaker's failure. -/
inductive ConvergenceOutcome where
  | settled (graceful : Bool)
  | failed (error : PyError)
  | exceeded (error : PyError)
  deriving DecidableEq

/-- What every room reads of its owner. -/
structure Admission where
  accepting : Bool := true
  closingTimeout : Option Nat := none

structure Slot (E : Type) where
  roomId : String
  records : Nat → Room E := fun _ => {}
  /-- How many records were created. -/
  born : Nat := 0
  /-- The record the registry names. -/
  current : Option Nat := none
  routed : Option ExecId := none
  executions : List Execution := []
  steps : List (Step E) := []
  outcomes : List ConvergenceOutcome := []
  /-- How many events were held. -/
  arrivals : Nat := 0
  log : List (LogEntry E) := []

namespace Slot

variable (a : Admission) (s : Slot E)

def setRoom (k : Nat) (room : Room E) : Slot E :=
  { s with records := Function.update s.records k room }

def setPhase (t : Nat) (phase : StepPhase E) : Slot E :=
  { s with steps := s.steps.modify t fun step => { step with phase := phase } }

def mark (x : ExecId) (f : Execution → Execution) : Slot E :=
  { s with executions := s.executions.modify x f }

def record (entries : List (LogEntry E)) : Slot E := { s with log := s.log ++ entries }

/-! ## Reading a room -/

def admits (room : Room E) : Bool := room.wanted && a.accepting

/-- The intent a start began under still stands. -/
def stands (k generation : Nat) : Bool :=
  admits a (s.records k) && (s.records k).generation == generation

def serving : Bool :=
  match s.current with
  | none => false
  | some k =>
    match (s.records k).execution with
    | none => false
    | some x => s.routed == some x

/-! ## One step of the room's state machine -/

def settle (k : Nat) : Slot E :=
  match (s.records k).convergence with
  | none => s
  | some graceful =>
    { s.setRoom k { s.records k with convergence := none } with
      outcomes := s.outcomes ++ [.settled graceful] }

def fail (k : Nat) (outcome : ConvergenceOutcome) : Slot E :=
  match (s.records k).convergence with
  | none => s
  | some _ =>
    { s.setRoom k { s.records k with convergence := none } with
      outcomes := s.outcomes ++ [outcome] }

/-- The registry drops the record; it is unreachable from here on, so what it
still holds is gone with it. -/
def forget (k : Nat) : Slot E :=
  let s := if s.current = some k then
      { (s.setRoom k { s.records k with held := [] }).record
          ((s.records k).held.map (.dropped · .discarded)) with current := none }
    else s
  s.settle k

def exceededError : PyError :=
  ⟨"CleanupIncompleteError", "Room " ++ s.roomId ++ " lifecycle exceeded " ++
    toString maxStepsPerSignal ++ " steps without a new signal"⟩

/-- `_step`: create the task of the next step, unless the circuit breaker trips. -/
def takeStep (k : Nat) (state : RoomState) (phase : StepPhase E) : Slot E :=
  let room := s.records k
  let s := s.setRoom k { room with convergence := some (room.convergence.getD true) }
  if room.stepsLeft = 0 then s.fail k (.exceeded s.exceededError)
  else
    { s.setRoom k { s.records k with stepsLeft := room.stepsLeft - 1, state := state } with
      steps := s.steps ++ [⟨k, phase⟩] }

/-- Take the one step the room's state and intent call for, if any. -/
def advance (k : Nat) : Slot E :=
  match (s.records k).state, admits a (s.records k), (s.records k).execution with
  | .starting, _, _ | .retiring, _, _ => s
  | .serving, true, _ => s.settle k
  | _, false, none => s.forget k
  | _, true, none => s.takeStep k .starting .startCreated
  | _, _, some x => ({ s with routed := none } : Slot E).takeStep k .retiring (.retireCreated x)

def signal (k : Nat) : Slot E :=
  (s.setRoom k { s.records k with stepsLeft := maxStepsPerSignal }).advance a k

/-! ## Signals -/

def requestAdmission : Slot E :=
  match s.current with
  | some k => (s.setRoom k { s.records k with wanted := true }).signal a k
  | none =>
    signal a { s.setRoom s.born { wanted := true } with
      born := s.born + 1, current := some s.born } s.born

/-- `admit`, up to its wait: a stopping owner refuses, a served room is done. -/
def admitRoom : Slot E :=
  if a.accepting = false ∨ s.serving = true then s else s.requestAdmission a

/-- Keep an event for a wanted room until its execution is routed. -/
def hold (event : E) : Slot E :=
  match s.current with
  | none => s
  | some k =>
    let room := s.records k
    if room.wanted = false then s
    else
      let item : Held E := ⟨k, room.generation, s.arrivals, event⟩
      let kept := if room.held.length = maxHeldEvents then room.held.drop 1 else room.held
      let evicted := if room.held.length = maxHeldEvents then room.held.take 1 else []
      let s := (s.record (evicted.map (.dropped · (.evicted room.held)))).setRoom k
        { room with held := kept ++ [item] }
      signal a { s with arrivals := s.arrivals + 1 } k

/-- `AgentRuntime._on_room_event`: forward to the routed execution, or hold. -/
def roomEvent (event : E) : Slot E :=
  match s.routed with
  | some x => s.record [.live event x]
  | none => s.hold a event

/-- Withdraw membership: no admission completes and no work routes. -/
def fence (k : Nat) : Slot E :=
  let room := s.records k
  ({ s with routed := none }.setRoom k { room with
    wanted := false, generation := room.generation + 1, stopTimeout := none, held := [] }).record
      (room.held.map (.dropped · .discarded))

def withdraw : Slot E :=
  match s.current with
  | none => s
  | some k => if (s.records k).wanted = false then s else (s.fence k).signal a k

def converge : Slot E :=
  match s.current with
  | none => s
  | some k => s.signal a k

def convergeUnserved : Slot E := if s.serving then s else s.converge a

/-- `destroy`, up to its wait. -/
def destroy (timeout : Option Nat) : Slot E :=
  match s.current with
  | none => s
  | some k =>
    let s := s.fence k
    (s.setRoom k { s.records k with stopTimeout := timeout }).signal a k

/-! ## Step tasks -/

/-- The last segment of a start: the state follows what is routed. -/
def endStart (t k : Nat) : Slot E :=
  (s.setRoom k { s.records k with state := if s.serving then .serving else .idle }).setPhase t
    (.finished .returned)

/-- Route only if the admission the start began under still stands. -/
def finishStart (t k : Nat) (x : ExecId) (generation : Nat) (resyncs : Bool) : Slot E :=
  if s.stands a k generation then
    let s := ({ s with routed := some x } : Slot E).mark x fun e => { e with routed := true }
    if resyncs then s.setPhase t (.resyncing x) else s.endStart t k
  else s.endStart t k

/-- The on_event call for the next event of a batch. -/
def hand (t : Nat) (x : ExecId) (generation : Nat) (item : Held E) (rest : List (Held E))
    (delivered : Nat) : Slot E :=
  (s.record [.handed item x]).setPhase t (.delivering x generation rest delivered)

/-- The delivery loop up to its next await: `tail` is what remains of the batch.
A batch is taken only to be begun at once, so the two loops need no recursion. -/
def deliver (t k : Nat) (x : ExecId) (generation : Nat) (tail : List (Held E)) (delivered : Nat)
    (resyncs : Bool) : Slot E :=
  match tail, (s.records k).held with
  | item :: rest, held =>
    if s.stands a k generation = false then
      (s.record (tail.map (.dropped · .discarded))).finishStart a t k x generation resyncs
    else if maxDeliverySteps ≤ delivered then
      ((s.record ((tail ++ held).map (.dropped · (.flooded x)))).setRoom k
        { s.records k with held := [] }).finishStart a t k x generation resyncs
    else s.hand t x generation item rest delivered
  | [], [] => s.finishStart a t k x generation resyncs
  | [], item :: rest =>
    if s.stands a k generation = false then s.finishStart a t k x generation resyncs
    else if maxDeliverySteps ≤ delivered then
      ((s.record ((item :: rest).map (.dropped · (.flooded x)))).setRoom k
        { s.records k with held := [] }).finishStart a t k x generation resyncs
    else (s.setRoom k { s.records k with held := [] }).hand t x generation item rest delivered

/-- Whether every earlier step of the record was reported: the loop runs a done
callback before a task created after it was queued. -/
def caughtUp (t : Nat) : Bool :=
  match s.steps[t]? with
  | none => false
  | some step => (s.steps.take t).all fun earlier =>
    earlier.record != step.record ||
      (match earlier.phase with | .reported => true | _ => false)

/-- The first run of a step task; `build` is how `_build` ended. -/
def runStep (t : Nat) (build : Outcome) : Option (Slot E) :=
  if s.caughtUp t = false then none
  else
    match s.steps[t]? with
    | some ⟨k, .startCreated⟩ =>
      if build = .returned then
        let x := s.executions.length
        let generation := (s.records k).generation
        some (({ s.setRoom k { s.records k with execution := some x } with
          executions := s.executions ++ [{ record := k, generation := generation }] } :
            Slot E).setPhase t (.starting x generation))
      else some (s.setPhase t (.finished build))
    | some ⟨k, .retireCreated x⟩ =>
      let timeout := if a.accepting then (s.records k).stopTimeout else a.closingTimeout
      some ((s.mark x fun e => { e with stopBegan := true }).setPhase t (.stopping x timeout))
    | _ => none

/-- A step task cancelled before its first run. -/
def cancelStep (t : Nat) (message : String) : Option (Slot E) :=
  if s.caughtUp t = false then none
  else
    match s.steps[t]? with
    | some ⟨_, .startCreated⟩ | some ⟨_, .retireCreated _⟩ =>
      some (s.setPhase t (.finished (.cancelled message)))
    | _ => none

/-- `execution.start()` ended. -/
def startEnded (t : Nat) (outcome : Outcome) (resyncs : Bool) : Option (Slot E) :=
  match s.steps[t]? with
  | some ⟨k, .starting x generation⟩ =>
    some (if outcome = .returned then s.deliver a t k x generation [] 0 resyncs
      else s.setPhase t (.finished outcome))
  | _ => none

/-- `execution.on_event()` of a held event ended; a failure loses the batch. -/
def eventEnded (t : Nat) (outcome : Outcome) (resyncs : Bool) : Option (Slot E) :=
  match s.steps[t]? with
  | some ⟨k, .delivering x generation tail delivered⟩ =>
    some (if outcome = .returned then s.deliver a t k x generation tail (delivered + 1) resyncs
      else (s.record (tail.map (.dropped · .lost))).setPhase t (.finished outcome))
  | _ => none

/-- `request_resync` ended; it logs an exception and goes on. -/
def resyncEnded (t : Nat) (outcome : Outcome) : Option (Slot E) :=
  match s.steps[t]?, outcome with
  | some ⟨_, .resyncing _⟩, .cancelled message =>
    some (s.setPhase t (.finished (.cancelled message)))
  | some ⟨k, .resyncing _⟩, _ => some (s.endStart t k)
  | _, _ => none

/-- `execution.stop()` ended. -/
def stopEnded (t : Nat) (outcome : Outcome) (graceful : Bool) : Option (Slot E) :=
  match s.steps[t]? with
  | some ⟨_, .stopping x _⟩ =>
    some (if outcome = .returned then
        (s.mark x fun e => { e with stopped := true }).setPhase t (.releasing x graceful)
      else s.setPhase t (.finished outcome))
  | _ => none

/-- The room's release ended. -/
def releaseEnded (t : Nat) (outcome : Outcome) : Option (Slot E) :=
  match s.steps[t]? with
  | some ⟨k, .releasing x graceful⟩ =>
    some (if outcome = .returned then
        let room := s.records k
        ((s.mark x fun e => { e with released := true }).setRoom k { room with
          execution := none, state := .idle
          convergence := room.convergence.map (· && graceful) }).setPhase t (.finished .returned)
      else s.setPhase t (.finished outcome))
  | _ => none

/-- `_step_done`, the done callback of a step task. -/
def stepDone (t : Nat) : Option (Slot E) :=
  match s.steps[t]? with
  | some ⟨k, .finished outcome⟩ =>
    let s := s.setPhase t .reported
    some (match Retention.taskFailure outcome with
      | none => s.advance a k
      | some error =>
        let failed := (s.records k).state
        let s := s.setRoom k { s.records k with state := .idle }
        if failed = .starting ∧ admits a (s.records k) = false then s.advance a k
        else s.fail k (.failed error))
  | _ => none

end Slot

/-- Everything that can happen to one room id in one loop step. -/
inductive RoomSignal (E : Type) where
  | admitRoom
  | requestAdmission
  | hold (event : E)
  | roomEvent (event : E)
  | withdraw
  | converge
  | destroy (timeout : Option Nat)
  | runStep (t : Nat) (build : Outcome)
  | cancelStep (t : Nat) (message : String)
  | startEnded (t : Nat) (outcome : Outcome) (resyncs : Bool)
  | eventEnded (t : Nat) (outcome : Outcome) (resyncs : Bool)
  | resyncEnded (t : Nat) (outcome : Outcome)
  | stopEnded (t : Nat) (outcome : Outcome) (graceful : Bool)
  | releaseEnded (t : Nat) (outcome : Outcome)
  | stepDone (t : Nat)

def Slot.step (a : Admission) (s : Slot E) : RoomSignal E → Option (Slot E)
  | .admitRoom => some (s.admitRoom a)
  | .requestAdmission => some (s.requestAdmission a)
  | .hold event => some (s.hold a event)
  | .roomEvent event => some (s.roomEvent a event)
  | .withdraw => some (s.withdraw a)
  | .converge => some (s.converge a)
  | .destroy timeout => some (s.destroy a timeout)
  | .runStep t build => s.runStep a t build
  | .cancelStep t message => s.cancelStep t message
  | .startEnded t outcome resyncs => s.startEnded a t outcome resyncs
  | .eventEnded t outcome resyncs => s.eventEnded a t outcome resyncs
  | .resyncEnded t outcome => s.resyncEnded t outcome
  | .stopEnded t outcome graceful => s.stopEnded t outcome graceful
  | .releaseEnded t outcome => s.releaseEnded t outcome
  | .stepDone t => s.stepDone a t

/-- Every room id's slot under one owner. -/
structure RoomExecutions (E : Type) where
  admission : Admission := {}
  slots : String → Slot E := fun roomId => { roomId := roomId }

inductive RoomsEvent (E : Type) where
  | room (roomId : String) (signal : RoomSignal E)
  | convergeUnserved
  | close (timeout : Option Nat)

def RoomExecutions.step (w : RoomExecutions E) : RoomsEvent E → Option (RoomExecutions E)
  | .room roomId signal =>
    ((w.slots roomId).step w.admission signal).map fun s =>
      { w with slots := Function.update w.slots roomId s }
  | .convergeUnserved =>
    some { w with slots := fun roomId => (w.slots roomId).convergeUnserved w.admission }
  | .close timeout => some { w with admission := ⟨false, timeout⟩ }

/-- The owner of every room, from its construction on. -/
def roomExecutions (E : Type) : Machine (RoomExecutions E) (RoomsEvent E) where
  init w := w = {}
  step := RoomExecutions.step

end BandSdk.Rooms

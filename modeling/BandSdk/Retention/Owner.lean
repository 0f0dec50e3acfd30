/-
# Retention.Owner -- the adapter-wide owner: registry, idle timer, shutdown

`RoomRetention` holds every room object ever registered, by index, and the
registry of those not yet forgotten.  Its machine `retention` runs one loop step
of one room, or of the owner itself.  A room's calls to its owner during a step
(`ownerCalls`) take effect when the step ends.
-/
import BandSdk.Retention.Calls
import BandSdk.Theory.Machine

namespace BandSdk.Retention

open BandSdk.Theory

/-- The shutdown task: created, waiting for `(room, disposal)` tasks, finished. -/
inductive ShutdownPhase where
  | created
  | waiting (pending : List (Nat × Nat))
  | finished (outcome : Outcome)

inductive StopPhase where
  | waiting (shutdown : Nat)
  | ended (outcome : Outcome)

structure RoomRetention where
  idleTimeout : Option Nat := none
  transitionTimeout : Nat := 10
  settleGrace : Nat := 0
  now : Nat := 0
  stopping : Bool := false
  rooms : List RetainedRoom := []
  registry : List (String × Nat) := []
  timer : Option Nat := none
  shutdown : Option Nat := none
  shutdowns : List ShutdownPhase := []
  stops : List StopPhase := []

inductive RetentionEvent where
  | room (i : Nat) (event : RoomEvent)
  | register (roomId : String)
  | tick (elapsed : Nat)
  | timer
  | stop (caller : TaskId)
  | runShutdown (s : Nat)
  | cancelShutdown (s : Nat) (message : String)
  | resumeStop (k : Nat) (wake : Wake)

namespace RoomRetention

variable (w : RoomRetention)

def view : OwnerView :=
  { idleTimeout := w.idleTimeout
    transitionTimeout := w.transitionTimeout
    settleGrace := w.settleGrace
    now := w.now
    stopping := w.stopping }

/-- The room objects the registry still names, in registration order. -/
def registered : List RetainedRoom := w.registry.filterMap fun entry => w.rooms[entry.2]?

/-- Arm the timer for the earliest idle deadline, if any. -/
def reschedule : RoomRetention :=
  { w with timer := (w.registered.filterMap (·.deadline)).min? }

def forget (i : Nat) : RoomRetention :=
  reschedule { w with registry := w.registry.filter (·.2 != i) }

/-- The owner's side of one call a room made during its step. -/
def answer (i : Nat) (w : RoomRetention) : OwnerCall → RoomRetention
  | .reschedule => w.reschedule
  | .forget => w.forget i

/-- Store a room back after a step of it, and answer its calls in order. -/
def putRoom (i : Nat) (r : RetainedRoom) : RoomRetention :=
  r.ownerCalls.foldl (answer i) { w with rooms := w.rooms.set i { r with ownerCalls := [] } }

def register (roomId : String) : RoomRetention :=
  if w.stopping ∨ w.registry.any (·.1 == roomId) then w
  else reschedule { w with
    rooms := w.rooms ++ [{ roomId := roomId }]
    registry := w.registry ++ [(roomId, w.rooms.length)] }

/-- Start every idle release due by `due`; each clears its deadline. -/
def releaseDueRooms (due : Nat) : RoomRetention :=
  reschedule { w with
    timer := none
    rooms := w.rooms.mapIdx fun i r =>
      if w.registry.any (·.2 == i) && (r.deadline.map (fun at_ => decide (at_ ≤ due))).getD false
      then r.startIdleRelease else r }

def rejoinsShutdown : Bool :=
  match w.shutdown.bind (w.shutdowns[·]?) with
  | none => false
  | some (.finished outcome) => (taskFailure outcome).isNone
  | some _ => true

/-- Dispose every room under one shutdown task; work enrolled in a room cannot
await it. -/
def stop (caller : TaskId) : RoomRetention :=
  let inside := w.registered.any (·.enrolls caller)
  let w := reschedule { w with
    rooms := w.rooms.mapIdx fun i r =>
      if w.registry.any (·.2 == i) then r.spareRequester caller else r
    stopping := true }
  let w := if w.rejoinsShutdown then w
    else { w with shutdowns := w.shutdowns ++ [.created], shutdown := some w.shutdowns.length }
  { w with stops := w.stops ++ [if inside then
      .ended (.raised ⟨"CleanupIncompleteError",
        "Room retention shutdown waits for the calling work to finish"⟩)
    else .waiting (w.shutdown.getD 0)] }

/-- Begin the disposal of one registered room, keeping the task to await. -/
def beginRoom (state : RoomRetention × List (Nat × Nat)) (entry : String × Nat) :
    RoomRetention × List (Nat × Nat) :=
  match state.1.rooms[entry.2]? with
  | none => state
  | some r =>
    let r := r.beginDisposal state.1.view
    (state.1.putRoom entry.2 r,
      if r.state = .closed then state.2 else state.2 ++ [(entry.2, r.disposal.getD 0)])

def disposalOutcome (task : Nat × Nat) : Option Outcome :=
  match w.rooms[task.1]?.bind (·.disposals[task.2]?) with
  | some (.finished outcome) => some outcome
  | _ => none

def setShutdown (s : Nat) (phase : ShutdownPhase) : RoomRetention :=
  { w with shutdowns := w.shutdowns.set s phase }

def incompleteError : PyError := ⟨"BaseExceptionGroup", "Room cleanup remains incomplete"⟩

def runShutdown (s : Nat) : Option RoomRetention :=
  match w.shutdowns[s]? with
  | some .created =>
    let begun := w.registry.foldl beginRoom (w, [])
    some (begun.1.setShutdown s
      (if begun.2 = [] then .finished .returned else .waiting begun.2))
  | some (.waiting pending) =>
    if pending.all fun task => (w.disposalOutcome task).isSome then
      some (w.setShutdown s (.finished
        (if pending.any fun task => ((w.disposalOutcome task).bind taskFailure).isSome
         then .raised incompleteError else .returned)))
    else none
  | _ => none

def cancelShutdown (s : Nat) (message : String) : Option RoomRetention :=
  match w.shutdowns[s]? with
  | some .created | some (.waiting _) => some (w.setShutdown s (.finished (.cancelled message)))
  | _ => none

def endStop (k : Nat) (outcome : Outcome) : RoomRetention :=
  { w with stops := w.stops.set k (.ended outcome) }

def resumeStop (k : Nat) (wake : Wake) : Option RoomRetention :=
  match w.stops[k]? with
  | some (.waiting s) =>
    match wake, w.shutdowns[s]? with
    | .cancelled, _ => some (w.endStop k (.cancelled ""))
    | _, some (.finished outcome) => some (w.endStop k (reportedOutcome outcome))
    | .timeout, _ =>
      some (w.endStop k (.raised ⟨"CleanupIncompleteError",
        "Cleanup still running after " ++ toString w.transitionTimeout ++ "s"⟩))
    | .ready, _ => none
  | _ => none

/-- One loop step of the retention. -/
def step : RetentionEvent → Option RoomRetention
  | .room i event =>
    match w.rooms[i]? with
    | none => none
    | some r => (r.step w.view event).map (w.putRoom i)
  | .register roomId => some (w.register roomId)
  | .tick elapsed => some { w with now := w.now + elapsed }
  | .timer =>
    match w.timer with
    | some due => some (w.releaseDueRooms due)
    | none => none
  | .stop caller => some (w.stop caller)
  | .runShutdown s => w.runShutdown s
  | .cancelShutdown s message => w.cancelShutdown s message
  | .resumeStop k wake => w.resumeStop k wake

end RoomRetention

/-- The owner with its rooms, started with any settings and no room. -/
def retention : Machine RoomRetention RetentionEvent where
  init w := ∃ idleTimeout transitionTimeout settleGrace now,
    w = { idleTimeout := idleTimeout, transitionTimeout := transitionTimeout,
          settleGrace := settleGrace, now := now }
  step := RoomRetention.step

end BandSdk.Retention

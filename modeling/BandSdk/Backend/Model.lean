/-
# Backend.Model -- a room's backend turn and the one way to stop it

`BackendTurns` keeps, per room, the registered turn (`_turns`), the stop in
flight (`_stopping`) and the stop whose end the provider has not confirmed
(`_unconfirmed`).  All three dictionaries are keyed by the room, so a room is a
machine of its own.

Turns, start calls and stop tasks are heap objects: several owners may be inside
`running` at once, a start call outlives the owner that made it, and a stop task
outlives its place in `_stopping`.  The slot holds one task; nothing in the state
says that every unfinished stop is in it.

A stop is *issued* where the adapter's cancel call is made: in `_stop`, which
builds it on the spot, and in `_stop_when_started`, once the start call has
revealed a handle.  `issued` records each one with the turn it is for, and
`owed` the handles whose stop was issued and that nobody confirmed since.

Left out: log records, the failure report of `require_admission` and its
`reported` flag, and what the residency of `recovering` does in its own time: a
release, or a wait for one, is an event.
-/
import BandSdk.Theory.Machine

namespace BandSdk.Backend

open BandSdk.Theory

/-! ## Objects -/

/-- `BackendTurn`.  `detached` is set when a start call of the turn is left to a
stop; no code reads it. -/
structure BackendTurn (H : Type) where
  handle : Option H
  stopRequested : Bool
  detached : Bool

/-- The call that starts a backend turn; it may reveal no handle. -/
inductive StartCall (H : Type) where
  | pending
  | revealed (handle : Option H)
  | failed

/-- A task of `_spawn_stop`: the adapter's cancel call, or the wait for a start
call whose handle it will cancel. -/
inductive StopTask (H : Type) where
  | sending (handle : H)
  | awaitingStart (call : Nat)
  | done
  deriving DecidableEq

/-- A stop task and the turn it stops; no code reads the turn. -/
structure Stop (H : Type) where
  turn : Nat
  task : StopTask H

/-- A task that holds `running`: waiting in `settled`, inside the context, inside
`started`, or out again. -/
inductive Owner (H : Type) where
  | settling (stop : Nat) (handle : Option H)
  | inside (turn : Nat)
  | starting (turn call : Nat)
  | left

/-- `UnconfirmedStop`; `identity` is the object, `recovery` the residency that
`recovering` recorded. -/
structure UnconfirmedStop (H ρ : Type) where
  identity : Nat
  handle : H
  recovery : Option (ρ × Nat)

/-- A `require_admission` in its wait for a release, with what it captured. -/
structure Admission (H ρ : Type) where
  handle : H
  residency : ρ × Nat

/-- What `BackendTurns` holds for one room. -/
structure RoomState (H ρ : Type) where
  current : Option Nat
  turns : Nat → BackendTurn H
  turnCount : Nat
  owners : List (Owner H)
  calls : Nat → StartCall H
  callCount : Nat
  stops : Nat → Stop H
  stopCount : Nat
  /-- `_stopping.get(room_id)`. -/
  slot : Option Nat
  unconfirmed : Option (UnconfirmedStop H ρ)
  unconfirmedCount : Nat
  admissions : List (Option (Admission H ρ))
  issued : List (Nat × H)
  owed : List H

namespace RoomState

variable {H ρ : Type} [DecidableEq H] [DecidableEq ρ]

def initial : RoomState H ρ where
  current := none
  turns _ := ⟨none, false, false⟩
  turnCount := 0
  owners := []
  calls _ := .failed
  callCount := 0
  stops _ := ⟨0, .done⟩
  stopCount := 0
  slot := none
  unconfirmed := none
  unconfirmedCount := 0
  admissions := []
  issued := []
  owed := []

variable (s : RoomState H ρ)

def setTurn (n : Nat) (turn : BackendTurn H) : RoomState H ρ :=
  { s with turns := Function.update s.turns n turn }

def setOwner (o : Nat) (owner : Owner H) : RoomState H ρ :=
  { s with owners := s.owners.set o owner }

def setTask (t : Nat) (task : StopTask H) : RoomState H ρ :=
  { s with stops := Function.update s.stops t ⟨(s.stops t).turn, task⟩ }

/-! ## Stopping -/

/-- `_spawn_stop`. -/
def spawnStop (turn : Nat) (task : StopTask H) : RoomState H ρ :=
  { s with
    stops := Function.update s.stops s.stopCount ⟨turn, task⟩
    stopCount := s.stopCount + 1
    slot := some s.stopCount }

/-- `_unconfirmed_stop`: the room keeps the record it has. -/
def unconfirmedStop (handle : H) : RoomState H ρ :=
  match s.unconfirmed with
  | some _ => s
  | none => { s with
      unconfirmed := some ⟨s.unconfirmedCount, handle, none⟩
      unconfirmedCount := s.unconfirmedCount + 1 }

/-- The adapter's cancel call is made for `handle`. -/
def issue (turn : Nat) (handle : H) : RoomState H ρ :=
  { s with issued := s.issued ++ [(turn, handle)], owed := s.owed ++ [handle] }

/-- `_stop`. -/
def stop (confirm : Bool) (turn : Nat) (handle : H) : RoomState H ρ :=
  let s := if confirm then s.unconfirmedStop handle else s
  (s.issue turn handle).spawnStop turn (.sending handle)

/-- `bind`. -/
def bind (confirm : Bool) (handle : H) : RoomState H ρ :=
  match s.current with
  | none => s
  | some n =>
    if (s.turns n).handle.isSome then s
    else
      let s := s.setTurn n { s.turns n with handle := some handle }
      if (s.turns n).stopRequested then s.stop confirm n handle else s

/-- `cancel`. -/
def cancel (confirm : Bool) : RoomState H ρ :=
  match s.current with
  | none => s
  | some n =>
    if (s.turns n).stopRequested then s
    else
      let s := s.setTurn n { s.turns n with stopRequested := true }
      match (s.turns n).handle with
      | some handle => s.stop confirm n handle
      | none => s

/-- `blocker`: a stop task, or the `ready` future of an unconfirmed stop. -/
inductive Blocker where
  | stopping (stop : Nat)
  | ready (identity : Nat)

variable (s : RoomState H ρ)

def unconfirmedBlocker : Option Blocker :=
  s.unconfirmed.map fun stop => .ready stop.identity

def blocker : Option Blocker :=
  match s.slot with
  | some t => match (s.stops t).task with
      | .done => s.unconfirmedBlocker
      | _ => some (.stopping t)
  | none => s.unconfirmedBlocker

/-! ## The owner of a turn -/

/-- `self._turns[room_id] = BackendTurn(handle)`; the owner's phase comes back
with the turn's identity. -/
def register (handle : Option H) : RoomState H ρ :=
  { s.setTurn s.turnCount ⟨handle, false, false⟩ with
    current := some s.turnCount, turnCount := s.turnCount + 1 }

/-- `running` up to its registration, or to the wait for the stop in `_stopping`. -/
def enter (handle : Option H) : RoomState H ρ :=
  match s.slot with
  | some t => { s with owners := s.owners ++ [.settling t handle] }
  | none =>
    let s' := s.register handle
    { s' with owners := s'.owners ++ [.inside s.turnCount] }

/-- The stop the owner waited for is done. -/
def wake (o : Nat) : Option (RoomState H ρ) :=
  match s.owners[o]? with
  | some (.settling t handle) =>
    match (s.stops t).task with
    | .done => some ((s.register handle).setOwner o (.inside s.turnCount))
    | _ => none
  | _ => none

/-- The owner is cancelled in `settled`, before it registered anything. -/
def abortEnter (o : Nat) : Option (RoomState H ρ) :=
  match s.owners[o]? with
  | some (.settling _ _) => some (s.setOwner o .left)
  | _ => none

/-- The owner calls `started` and waits on the shielded call. -/
def start (s : RoomState H ρ) (o : Nat) : Option (RoomState H ρ) :=
  match s.owners[o]? with
  | some (.inside n) => some { s.setOwner o (.starting n s.callCount) with
      calls := Function.update s.calls s.callCount .pending, callCount := s.callCount + 1 }
  | _ => none

/-- The start call completes. -/
def callEnds (c : Nat) (outcome : StartCall H) : Option (RoomState H ρ) :=
  match s.calls c, outcome with
  | .pending, .revealed handle =>
    some { s with calls := Function.update s.calls c (.revealed handle) }
  | .pending, .failed => some { s with calls := Function.update s.calls c .failed }
  | _, _ => none

/-- `started` returns, or raises what the call raised. -/
def started (s : RoomState H ρ) (confirm : Bool) (o : Nat) : Option (RoomState H ρ) :=
  match s.owners[o]? with
  | some (.starting n c) =>
    match s.calls c with
    | .pending => none
    | .revealed (some handle) => some ((s.setOwner o (.inside n)).bind confirm handle)
    | .revealed none => some (s.setOwner o (.inside n))
    | .failed => some (s.setOwner o (.inside n))
  | _ => none

/-- The owner is cancelled in `started`: a stop takes the call over. -/
def cancelStarted (o : Nat) : Option (RoomState H ρ) :=
  match s.owners[o]? with
  | some (.starting n c) =>
    some (((s.setOwner o (.inside n)).setTurn n { s.turns n with detached := true }).spawnStop n
      (.awaitingStart c))
  | _ => none

/-- The owner leaves `running`, by a cancellation or otherwise. -/
def leave (confirm : Bool) (o : Nat) (cancelled : Bool) : Option (RoomState H ρ) :=
  match s.owners[o]? with
  | some (.inside n) =>
    let s := if cancelled then s.cancel confirm else s
    let s := if s.current = some n then { s with current := none } else s
    some (s.setOwner o .left)
  | _ => none

/-! ## Stop tasks -/

/-- `_stop_when_started` runs again once its start call is done. -/
def stopRevealed (t : Nat) : Option (RoomState H ρ) :=
  match (s.stops t).task with
  | .awaitingStart c =>
    match s.calls c with
    | .pending => none
    | .revealed (some handle) => some ((s.issue (s.stops t).turn handle).setTask t (.sending handle))
    | .revealed none => some (s.setTask t .done)
    | .failed => some (s.setTask t .done)
  | _ => none

/-- The stop task ends: its cancel call returned or raised, or the time limit
passed. -/
def stopEnds (t : Nat) : Option (RoomState H ρ) :=
  match (s.stops t).task with
  | .done => none
  | _ => some (s.setTask t .done)

/-- `_forget_stop`, the done-callback. -/
def forgetStop (t : Nat) : Option (RoomState H ρ) :=
  match (s.stops t).task with
  | .done => some (if s.slot = some t then { s with slot := none } else s)
  | _ => none

/-! ## Confirmation and admission -/

/-- `confirm_stopped`. -/
def confirmStopped (handle : H) : RoomState H ρ :=
  let current := match s.current with
    | some n => if (s.turns n).handle = some handle then none else some n
    | none => none
  let unconfirmed := match s.unconfirmed with
    | some stop => if stop.handle = handle then none else some stop
    | none => none
  { s with current, unconfirmed, owed := s.owed.filter (· ≠ handle) }

/-- `recovering`, with the residency and its generation. -/
def recovering (handle : H) (residency : ρ × Nat) : RoomState H ρ :=
  let s := s.unconfirmedStop handle
  match s.unconfirmed with
  | some stop =>
    if stop.handle = handle then
      { s with unconfirmed := some { stop with recovery := some residency } }
    else s
  | none => s

/-- `_released`: the callback bound to one unconfirmed stop and one residency. -/
def released (identity : Nat) (residency : ρ × Nat) : RoomState H ρ :=
  match s.unconfirmed with
  | some stop =>
    if stop.identity = identity ∧ stop.recovery = some residency then
      s.confirmStopped stop.handle
    else s
  | none => s

/-- `confirm_disposed`; `closed` says the recorded residency is being disposed or
is closed. -/
def confirmDisposed (closed : Bool) : RoomState H ρ :=
  match s.unconfirmed with
  | some stop =>
    if stop.recovery.isSome ∧ closed = true then s.confirmStopped stop.handle else s
  | none => s

inductive Verdict where
  | admitted
  | inputNotAccepted
  deriving DecidableEq

/-- The end of `require_admission`, from its `blocker` on. -/
def verdict (s : RoomState H ρ) : Verdict :=
  match s.blocker with
  | none => .admitted
  | some _ => .inputNotAccepted

/-- The beginning of `require_admission`: the residency whose release it waits
for, if it has to. -/
def awaitedRelease (s : RoomState H ρ) : Option (Admission H ρ) :=
  match s.unconfirmed, s.slot with
  | some stop, none => stop.recovery.map fun residency => ⟨stop.handle, residency⟩
  | _, _ => none

/-- `require_admission` goes into its wait.  A closing residency that is not
closed refuses instead, with the `RoomClosingError` that is an
`InputNotAccepted`. -/
def requireAdmission (s : RoomState H ρ) : Option (RoomState H ρ) :=
  match s.awaitedRelease with
  | some admission => some { s with admissions := s.admissions ++ [some admission] }
  | none => none

/-- The wait of `require_admission` ends; a failed one confirms nothing.  The
verdict is that of the state this leaves. -/
def releaseWaited (s : RoomState H ρ) (a : Nat) (ok : Bool) : Option (RoomState H ρ) :=
  match s.admissions[a]? with
  | some (some admission) =>
    let s := { s with admissions := s.admissions.set a none }
    some (if ok then s.confirmStopped admission.handle else s)
  | _ => none

/-! ## The machine -/

/-- What can happen next.  `stop` of the source is `cancel` and a wait. -/
inductive BackendEvent (H ρ : Type) where
  | enter (handle : Option H)
  | wake (o : Nat)
  | abortEnter (o : Nat)
  | start (o : Nat)
  | callEnds (c : Nat) (outcome : StartCall H)
  | started (o : Nat)
  | cancelStarted (o : Nat)
  | leave (o : Nat) (cancelled : Bool)
  | bind (handle : H)
  | cancel
  | stopRevealed (t : Nat)
  | stopEnds (t : Nat)
  | forgetStop (t : Nat)
  | confirmStopped (handle : H)
  | recovering (handle : H) (residency : ρ × Nat)
  | released (identity : Nat) (residency : ρ × Nat)
  | confirmDisposed (closed : Bool)
  | requireAdmission
  | releaseWaited (a : Nat) (ok : Bool)

/-- `confirm` is `requires_confirmation`. -/
def step (confirm : Bool) (s : RoomState H ρ) : BackendEvent H ρ → Option (RoomState H ρ)
  | .enter handle => some (s.enter handle)
  | .wake o => s.wake o
  | .abortEnter o => s.abortEnter o
  | .start o => s.start o
  | .callEnds c outcome => s.callEnds c outcome
  | .started o => s.started confirm o
  | .cancelStarted o => s.cancelStarted o
  | .leave o cancelled => s.leave confirm o cancelled
  | .bind handle => some (s.bind confirm handle)
  | .cancel => some (s.cancel confirm)
  | .stopRevealed t => s.stopRevealed t
  | .stopEnds t => s.stopEnds t
  | .forgetStop t => s.forgetStop t
  | .confirmStopped handle => some (s.confirmStopped handle)
  | .recovering handle residency => some (s.recovering handle residency)
  | .released identity residency => some (s.released identity residency)
  | .confirmDisposed closed => some (s.confirmDisposed closed)
  | .requireAdmission => s.requireAdmission
  | .releaseWaited a ok => s.releaseWaited a ok

end RoomState

/-- One room of `BackendTurns`. -/
def room (H ρ : Type) [DecidableEq H] [DecidableEq ρ] (confirm : Bool) :
    Machine (RoomState H ρ) (RoomState.BackendEvent H ρ) where
  init s := s = RoomState.initial
  step := RoomState.step confirm

end BandSdk.Backend

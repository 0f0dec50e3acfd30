/-
# Turns.Scope -- one attempt's scope and its terminal intent

`TurnScope` is the part of an attempt that controls, shutdown and the delivery
lifecycle share.  Its `settle` freezes the first disposition; `terminate` asks
the attempt to end and, until it is settled, says why.  A method that raises in
the source returns `none` here.
-/
import BandSdk.Theory.Machine

namespace BandSdk.Turns

open BandSdk.Theory

inductive ControlMode where
  | interrupt
  | stop
  | play
  deriving DecidableEq

inductive DeliveryStatus where
  | delivered
  | processing
  | processed
  | failed
  deriving DecidableEq

inductive AttemptPhase where
  | preparing
  | admitted
  | abandoned
  | settled
  deriving DecidableEq

/-- How the handler's task ended: its own return, a refused input, a stopped
room, another exception, or cancelled. -/
inductive HandlerEnd where
  | returned
  | inputNotAccepted
  | roomExecutionStopped
  | failed
  | cancelled
  deriving DecidableEq

variable {I : Type}

/-- One room-owned attempt: its originals share one handler and one outcome. -/
structure TurnScope (I : Type) where
  controlRevision : Nat := 0
  originals : List I := []
  intent : Option DeliveryStatus := none
  consumed : Bool := true
  /-- Revision at which a platform STOP was observed. -/
  stopRevision : Option Nat := none
  phase : AttemptPhase := .preparing
  kind : Option ControlMode := none
  /-- Its cleanup deadline is set. -/
  terminating : Bool := false
  shutdown : Bool := false

namespace TurnScope

variable (scope : TurnScope I)

def admitted : Bool := scope.phase == .admitted || scope.phase == .settled

def settled : Bool := scope.phase == .abandoned || scope.phase == .settled

/-- Between admission and settlement. -/
def running : Bool := scope.phase == .admitted

def stopObserved : Bool := scope.stopRevision.isSome

def admitAttempt : Option (TurnScope I) :=
  if scope.phase = .preparing then some { scope with phase := .admitted } else none

/-- The scope once an intent is frozen. -/
def frozen (intent : Option DeliveryStatus) : TurnScope I :=
  { scope with intent := intent, phase := if scope.admitted then .settled else .abandoned }

/-- Freeze the first disposition; whether this call did. -/
def settle (intent : Option DeliveryStatus) : Option (TurnScope I × Bool) :=
  if scope.settled then some (scope, false)
  else if intent ≠ none ∧ scope.phase ≠ .admitted then none
  else some (scope.frozen intent, true)

/-- `terminate`, without the tasks it cancels: those end in their own time. -/
def terminate (kind : Option ControlMode) (observed shutdown : Bool) : TurnScope I :=
  { scope with
    kind := if kind ≠ none ∧ scope.settled = false ∧ (observed = false ∨ scope.kind = none) then kind
      else scope.kind
    shutdown := scope.shutdown || shutdown
    terminating := true }

/-- Precedence: STOP, then INTERRUPT, shutdown, timeout, and last the handler's
result.  `owner` is how the handler's task ended, when it did. -/
def terminalIntent (owner : Option HandlerEnd) (timedOut : Bool) : Option DeliveryStatus :=
  if scope.kind = some .stop then none
  else if scope.kind = some .interrupt then some .processed
  else if scope.shutdown then none
  else if timedOut then some .failed
  else
    match owner with
    | none | some .cancelled => none
    | some .inputNotAccepted | some .roomExecutionStopped => none
    | some .failed => some .failed
    | some .returned => if scope.consumed then some .processed else none

/-! ## What each method leaves alone -/

theorem settle_settled {intent : Option DeliveryStatus} (done : scope.settled = true) :
    scope.settle intent = some (scope, false) := by
  simp [settle, done]

/-- A scope that is not settled settles, as the intent says, when it is admitted
or the intent is to write nothing. -/
theorem settle_fresh {intent : Option DeliveryStatus} (open_ : scope.settled = false)
    (allowed : intent = none ∨ scope.phase = .admitted) :
    scope.settle intent = some (scope.frozen intent, true) := by
  have not_refused : ¬ (intent ≠ none ∧ scope.phase ≠ .admitted) := by
    rintro ⟨some_, unadmitted⟩
    exact allowed.elim some_ unadmitted
  rw [settle, if_neg (by simp [open_]), if_neg not_refused]

@[simp] theorem frozen_settled (intent : Option DeliveryStatus) : (scope.frozen intent).settled = true := by
  cases h : scope.admitted <;> simp [frozen, settled, h]

@[simp] theorem frozen_admitted (intent : Option DeliveryStatus) :
    (scope.frozen intent).admitted = scope.admitted := by
  show ((if scope.admitted then AttemptPhase.settled else .abandoned) == .admitted ||
    (if scope.admitted then AttemptPhase.settled else .abandoned) == .settled) = scope.admitted
  cases scope.admitted <;> rfl

/-- A termination after settlement does not change why. -/
theorem terminate_kind_of_settled {kind : Option ControlMode} {observed shutdown : Bool}
    (done : scope.settled = true) :
    (scope.terminate kind observed shutdown).kind = scope.kind := by
  simp [terminate, done]

end TurnScope

end BandSdk.Turns

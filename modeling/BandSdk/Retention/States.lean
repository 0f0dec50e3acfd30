/-
# Retention.States -- the residency vocabulary

The enumerations shared by a room, its provider and its observers, and the
precedence of release causes: `idle < recovery < final`, where a stronger cause
supersedes a weaker one while it pends (`strongerCause`).
-/
import BandSdk.Theory.Asyncio

namespace BandSdk.Retention

open BandSdk.Theory

def unknownActivityReason : String := "Provider has not established authoritative quiescence"

def busyActivityReason : String := "Provider refused idle release"

inductive ProviderActivity where
  | active
  | quiescent
  | unknown
  deriving DecidableEq

def ProviderActivity.text : ProviderActivity → String
  | .active => "active"
  | .quiescent => "quiescent"
  | .unknown => "unknown"

inductive Residency where
  | resident
  | suspending
  | suspended
  | acquiring
  | cleanupPending
  | disposing
  | closed
  deriving DecidableEq

/-- Why a physical release runs; later members supersede earlier ones. -/
inductive ReleaseCause where
  | idle
  | recovery
  | final
  deriving DecidableEq

namespace ReleaseCause

def text : ReleaseCause → String
  | .idle => "idle"
  | .recovery => "recovery"
  | .final => "final"

/-- The cause's index in the declaration order. -/
def precedence : ReleaseCause → Nat
  | .idle => 0
  | .recovery => 1
  | .final => 2

end ReleaseCause

/-- A release callback's successful result; raising means incomplete cleanup. -/
inductive ReleaseOutcome where
  | released
  | busy

/-- The cause that wins when `requested` arrives while `current` pends. -/
def strongerCause (current : Option ReleaseCause) (requested : ReleaseCause) : ReleaseCause :=
  match current with
  | none => requested
  | some cause => if cause.precedence < requested.precedence then requested else cause

/-- The strength of a pending cause; nothing pending is the weakest. -/
def strength : Option ReleaseCause → Nat
  | none => 0
  | some cause => cause.precedence + 1

theorem strength_stronger (current : Option ReleaseCause) (requested : ReleaseCause) :
    strength (some (strongerCause current requested)) = max (strength current) (strength (some requested)) := by
  cases current with
  | none => simp [strongerCause, strength]
  | some cause => cases cause <;> cases requested <;> rfl

theorem strongerCause_eq_final (current : Option ReleaseCause) (requested : ReleaseCause) :
    strongerCause current requested = .final ↔ current = some .final ∨ requested = .final := by
  cases current with
  | none => simp [strongerCause]
  | some cause => cases cause <;> cases requested <;> simp [strongerCause, ReleaseCause.precedence]

theorem strongerCause_idle (cause : ReleaseCause) : strongerCause (some cause) .idle = cause := by
  cases cause <;> rfl

theorem strongerCause_self (cause : ReleaseCause) : strongerCause (some cause) cause = cause := by
  cases cause <;> rfl

/-- `type(error).__name__: error`. -/
def failureText (error : PyError) : String := error.kind ++ ": " ++ error.message

/-- A finished owned cleanup's failure; cancellation is incomplete cleanup. -/
def taskFailure : Outcome → Option PyError
  | .returned => none
  | .raised error => some error
  | .cancelled _ => some ⟨"CleanupIncompleteError", "Cleanup was cancelled"⟩

/-- What a caller that reports an owned cleanup leaves with. -/
def reportedOutcome (outcome : Outcome) : Outcome :=
  match taskFailure outcome with
  | none => .returned
  | some error => .raised error

end BandSdk.Retention

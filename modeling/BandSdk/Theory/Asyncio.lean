/-
# Theory.Asyncio -- what an event loop's tasks and level signals are

The two primitives a single-threaded coroutine program is written against.

* `Outcome` is how a finished task finished.  A cancelled task is not a failed
  one, and a waiter can tell them apart.
* `Signal` is a level event with waiters.  `set` releases everyone waiting, and
  a released waiter runs later, after the level may have been cleared again.
  `sets` counts the releases, so a waiter that began at count `n` may run
  exactly when `n < sets`: the level itself says nothing about it.
-/
import Mathlib.Data.List.Basic

namespace BandSdk.Theory

/-- An exception: its type's name and its text. -/
structure PyError where
  kind : String
  message : String
  deriving DecidableEq

/-- How a finished task finished; a cancellation carries its message. -/
inductive Outcome where
  | returned
  | raised (error : PyError)
  | cancelled (message : String)
  deriving DecidableEq

namespace Outcome

/-- The exception leaving the coroutine, if any. -/
def error? : Outcome → Option PyError
  | .returned => none
  | .raised error => some error
  | .cancelled message => some ⟨"CancelledError", message⟩

end Outcome

/-- A level event: its value, and how often it has released its waiters. -/
structure Signal where
  value : Bool
  sets : Nat

namespace Signal

def set (signal : Signal) : Signal :=
  if signal.value then signal else ⟨true, signal.sets + 1⟩

def clear (signal : Signal) : Signal := { signal with value := false }

/-- Keep the level set exactly while `active`. -/
def hold (signal : Signal) (active : Bool) : Signal :=
  if active then signal.set else signal.clear

@[simp] theorem hold_value (signal : Signal) (active : Bool) : (signal.hold active).value = active := by
  cases active <;> simp [hold, set, clear]
  split <;> simp_all

end Signal

/-- Why a suspended coroutine runs again: what it waited for, its time limit, or
a cancellation of its task. -/
inductive Wake where
  | ready
  | timeout
  | cancelled
  deriving DecidableEq

/-- How an await ended, where nothing else is told of it. -/
inductive Ended where
  | returned
  | raised
  | cancelled
  deriving DecidableEq

end BandSdk.Theory

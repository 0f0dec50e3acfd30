/-
# Retention.Ledger -- the provider's record of its own callbacks

`Ledger` relates the record to the room: nothing is acquired over a handle that
was not confirmed released, and the dispose callback succeeded exactly when the
room is closed.  `Advance` is everything one loop step of a room is proved to
do; a growing step (`Good`) that starts no body unready is one.
-/
import BandSdk.Retention.Callers
import Mathlib.Data.List.Induction

namespace BandSdk.Retention

open BandSdk.Theory List

/-- Whether the provider may hold a handle: it was asked to acquire, and has not
confirmed a release since. -/
def holdsHandle (history : List ProviderEvent) : Bool :=
  history.foldl (fun held event => match event with
    | .acquire .. => true
    | .released _ => false
    | _ => held) false

/-- Between two calls of the acquire callback a release was confirmed. -/
def ReleasedBetween (history : List ProviderEvent) : Prop :=
  ∀ before between after generation resume generation' resume',
    history = before ++ .acquire generation resume :: (between ++ .acquire generation' resume' :: after) →
      ∃ cause, .released cause ∈ between

theorem holdsHandle_append (history : List ProviderEvent) (event : ProviderEvent) :
    holdsHandle (history ++ [event]) = match event with
      | .acquire .. => true
      | .released _ => false
      | _ => holdsHandle history := by
  unfold holdsHandle
  rw [foldl_append]
  cases event <;> rfl

theorem holdsHandle_of_acquire (before after : List ProviderEvent) (generation : Nat) (resume : Bool)
    (unreleased : ∀ cause, ProviderEvent.released cause ∉ after) :
    holdsHandle (before ++ .acquire generation resume :: after) = true := by
  induction after using reverseRecOn with
  | nil => rw [holdsHandle_append]
  | append_singleton after event ih =>
    have earlier := ih fun cause member => unreleased cause (mem_append_left _ member)
    rw [← cons_append, ← append_assoc, holdsHandle_append]
    cases event with
    | released cause => exact absurd (by simp) (unreleased cause)
    | acquire => rfl
    | _ => exact earlier

/-- Appending one entry keeps the order, provided an acquire is only appended
over a released handle. -/
theorem ReleasedBetween.append {history : List ProviderEvent} {event : ProviderEvent}
    (ordered : ReleasedBetween history)
    (vacant : ∀ generation resume, event = .acquire generation resume → holdsHandle history = false) :
    ReleasedBetween (history ++ [event]) := by
  intro before between after generation resume generation' resume' split
  induction after using reverseRecOn with
  | nil =>
    have ends : history ++ [event] =
        (before ++ .acquire generation resume :: between) ++ [.acquire generation' resume'] := by
      rw [split]; simp
    obtain ⟨same, last⟩ := append_inj' ends rfl
    have released := vacant generation' resume' (by simpa using last)
    by_contra none_
    have held := holdsHandle_of_acquire before between generation resume
      fun cause member => none_ ⟨cause, member⟩
    rw [← same, released] at held
    cases held
  | append_singleton after last _ =>
    have ends : history ++ [event] =
        (before ++ .acquire generation resume :: (between ++
          .acquire generation' resume' :: after)) ++ [last] := by
      rw [split]; simp
    exact ordered before between after generation resume generation' resume'
      (append_inj' ends rfl).1

namespace RetainedRoom

variable {o : OwnerView} {r r' : RetainedRoom}

structure Ledger (o : OwnerView) (r : RetainedRoom) : Prop where
  vacant : r.Vacant → r.isClosing o = true ∨ holdsHandle r.history = false
  ordered : ReleasedBetween r.history
  disposed : r.history.count .disposed = if r.state = .closed then 1 else 0

/-- How a pending cause may be dropped: a confirmed release at least as strong,
or an idle release refused with its handle intact (before the provider was
asked, over a resident room, or by the provider itself). -/
def Cleared (r r' : RetainedRoom) : Prop :=
  r'.cause = none ∧
    ((∃ cause, strength r.cause ≤ strength (some cause) ∧ r'.history = r.history ++ [.released cause]) ∨
      (r.cause = some .idle ∧ r'.state = .resident ∧
        ((r'.history = r.history ∧ ∃ (t : Nat) (automatic : Bool),
            r.tasks[t]? = some (.release .idle .resident automatic, .created)) ∨
          r'.history = r.history ++ [.busy])))

/-- What one loop step of a room does. -/
structure Advance (o : OwnerView) (r r' : RetainedRoom) : Prop where
  inv : r'.Inv o
  kept : ∀ t, r.inFlight = some t → r'.transition = some t
  generation : r.generation ≤ r'.generation
  retired : ∀ g ≤ r.generation, r.hasAuthority o g = false → r'.hasAuthority o g = false
  closing : r.isClosing o = true → r'.isClosing o = true
  cause : strength r.cause ≤ strength r'.cause ∨ r.Cleared r'
  bodies : ∀ u, r'.BodyAt u → r.BodyAt u ∨ r'.Ready o
  ledger : r.Ledger o → r'.Ledger o
  closed : r.state = .closed → r'.state = .closed
  forgets : .forget ∈ r'.ownerCalls ↔ .forget ∈ r.ownerCalls ∨ (r.state ≠ .closed ∧ r'.state = .closed)

/-- A step that only adds tasks cannot replace the one in flight: it is still
unfinished afterwards, and the invariant says it is the current one. -/
theorem Grows.kept (grows : r.Grows o r') (inv : r'.Inv o) (t : Nat)
    (flight : r.inFlight = some t) : r'.transition = some t := by
  obtain ⟨-, kind, phase, found, pending⟩ := inFlight_eq_some.1 flight
  have lt := (List.getElem?_eq_some_iff.1 found).1
  have still : r'.tasks[t]? = some (kind, phase) := by
    obtain ⟨more, eq⟩ := grows.tasks
    rw [← eq, getElem?_append_left lt, found]
  exact (inv.1.live t kind phase still pending).1

theorem Grows.ledger (grows : r.Grows o r') (ledger : r.Ledger o) : r'.Ledger o where
  vacant h := by
    rw [grows.history]
    rcases grows.vacant h with old | closing
    · exact (ledger.vacant old).imp grows.closing id
    · exact .inl closing
  ordered := grows.history ▸ ledger.ordered
  disposed := by
    rw [grows.history, ledger.disposed]
    simp only [grows.closed]

theorem Entered.advance (entered : r.Entered o r') : r.Advance o r' where
  inv := entered.1.1
  kept := entered.1.2.kept entered.1.1
  generation := entered.1.2.generation
  retired := entered.1.2.retired
  closing := entered.1.2.closing
  cause := .inl entered.1.2.cause
  bodies := entered.2
  ledger := entered.1.2.ledger
  closed := entered.1.2.closed.2
  forgets := by
    rw [entered.1.2.forgets, entered.1.2.closed]
    exact ⟨.inl, fun h => h.elim id fun h => absurd h.2 h.1⟩

theorem Good.advance (good : r.Good o r') (uses : r'.uses = r.uses) : r.Advance o r' :=
  (Entered.of_good good (bodyAt_of_uses uses)).advance

end RetainedRoom

end BandSdk.Retention

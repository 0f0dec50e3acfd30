/-
# Decisions.Registry -- pending asks over the core registry

The wrapper keeps the payloads and the timers of asks whose claim, eviction and
ticket rules are the core registry's.  The core is a parameter: `Core` lists the
calls the wrapper makes of it, and `Documented` says what each does to the
registrations it holds, oldest first.

An entry is a handle: two entries are one exactly if they have the same `id`, so
`holds` is the identity test.  A timeout task is asleep until it wakes; it is the
current task of the claim it makes then, and is detached rather than cancelled.
Whatever raises leaves the changes made before it: `keyError` stands for a lookup
of a token that is not there.
-/
import BandSdk.Theory.Keyed

namespace BandSdk.Decisions

open BandSdk.Theory

/-! ## The core registry -/

inductive ClaimOutcome where
  | claimed
  | alreadyClaimed
  | stale
  deriving DecidableEq

structure CancelledDecisions where
  unclaimed : List String
  claimed : List String

/-- The calls of `band_sdk_core.DecisionRegistry`. -/
structure Core (C : Type) where
  new : C
  evictOldest : C → Option String × C
  registerMinted : C → Option (String × Nat) × C
  registerKeyed : C → String → Option (String × Nat) × C
  tryClaim : C → String → Nat → ClaimOutcome × C
  withdraw : C → String → Nat → Bool × C
  forget : C → String → Nat → Bool × C
  cancelAll : C → CancelledDecisions × C

/-- One registration, as the core holds it. -/
structure Slot where
  token : String
  ticket : Nat
  claimed : Bool

/-- What the calls do to the registrations held; when the core evicts and when it is out of
tickets is left to it. -/
structure Documented {C : Type} (core : Core C) (slots : C → List Slot) : Prop where
  new : slots core.new = []
  evict_none : ∀ {c c'}, core.evictOldest c = (none, c') → slots c' = slots c
  evict_some : ∀ {c c' token}, core.evictOldest c = (some token, c') →
    ∃ older ticket newer, slots c = older ++ ⟨token, ticket, false⟩ :: newer ∧ slots c' = older ++ newer
  minted_none : ∀ {c c'}, core.registerMinted c = (none, c') → slots c' = slots c
  minted_some : ∀ {c c' token ticket}, core.registerMinted c = (some (token, ticket), c') →
    (∀ slot ∈ slots c, slot.token ≠ token) ∧ slots c' = slots c ++ [⟨token, ticket, false⟩]
  keyed_none : ∀ {c c' key}, core.registerKeyed c key = (none, c') → slots c' = slots c
  keyed_claimed : ∀ {c key ticket}, ⟨key, ticket, true⟩ ∈ slots c → (core.registerKeyed c key).1 = none
  keyed_open : ∀ {c c' key token ticket old older newer}, slots c = older ++ ⟨key, old, false⟩ :: newer →
    core.registerKeyed c key = (some (token, ticket), c') →
    token = key ∧ slots c' = older ++ ⟨key, ticket, false⟩ :: newer
  keyed_new : ∀ {c c' key token ticket}, (∀ slot ∈ slots c, slot.token ≠ key) →
    core.registerKeyed c key = (some (token, ticket), c') →
    token = key ∧ slots c' = slots c ++ [⟨key, ticket, false⟩]
  claim_open : ∀ {c token ticket older newer}, slots c = older ++ ⟨token, ticket, false⟩ :: newer →
    (core.tryClaim c token ticket).1 = .claimed ∧
      slots (core.tryClaim c token ticket).2 = older ++ ⟨token, ticket, true⟩ :: newer
  claim_claimed : ∀ {c token ticket}, ⟨token, ticket, true⟩ ∈ slots c →
    (core.tryClaim c token ticket).1 = .alreadyClaimed ∧ slots (core.tryClaim c token ticket).2 = slots c
  withdraw_open : ∀ {c token ticket older newer}, slots c = older ++ ⟨token, ticket, false⟩ :: newer →
    (core.withdraw c token ticket).1 = true ∧ slots (core.withdraw c token ticket).2 = older ++ newer
  withdraw_claimed : ∀ {c token ticket}, ⟨token, ticket, true⟩ ∈ slots c →
    (core.withdraw c token ticket).1 = false ∧ slots (core.withdraw c token ticket).2 = slots c
  forget : ∀ {c token ticket claimed older newer}, slots c = older ++ ⟨token, ticket, claimed⟩ :: newer →
    (core.forget c token ticket).1 = true ∧ slots (core.forget c token ticket).2 = older ++ newer
  cancelAll : ∀ c, (core.cancelAll c).1.unclaimed = ((slots c).filter (!·.claimed)).map Slot.token ∧
      (core.cancelAll c).1.claimed = ((slots c).filter (·.claimed)).map Slot.token ∧
      slots (core.cancelAll c).2 = []

/-! ## The wrapper -/

structure DecisionEntry (T : Type) where
  id : Nat
  token : String
  ticket : Nat
  payload : T
  deriving DecidableEq

structure Registration (T : Type) where
  entry : DecisionEntry T
  evicted : Option (DecisionEntry T) := none
  replaced : Option (DecisionEntry T) := none

def Registration.removed {T : Type} (registration : Registration T) : List (DecisionEntry T) :=
  registration.evicted.toList ++ registration.replaced.toList

inductive TaskStatus where
  | sleeping
  | running
  | cancelled
  | done
  deriving DecidableEq

def TaskStatus.cancel : TaskStatus → TaskStatus
  | .done => .done
  | _ => .cancelled

/-- A task of `expire`. -/
structure TimeoutTask (T : Type) where
  entry : DecisionEntry T
  status : TaskStatus := .sleeping

def TimeoutTask.cancel {T : Type} (task : TimeoutTask T) : TimeoutTask T :=
  { task with status := task.status.cancel }

/-- The wrapper, the tasks it made, and how many entries were made. -/
structure Registry (C T : Type) where
  core : C
  entries : List (DecisionEntry T) := []
  timeouts : List (String × Nat) := []
  tasks : List (TimeoutTask T) := []
  made : Nat := 0

inductive Raised where
  | keyError
  | outOfTickets

namespace Registry

variable {C T : Type} [DecidableEq T] (core : Core C)

/-- `self._entries.get(token)`. -/
def get (token : String) (r : Registry C T) : Option (DecisionEntry T) :=
  r.entries.find? (·.token = token)

def holds (entry : DecisionEntry T) (r : Registry C T) : Bool := r.get entry.token = some entry

/-- `current` is the current task, if it is one of these. -/
def cancelTimeout (current : Option Nat) (token : String) (r : Registry C T) : Registry C T :=
  match Keyed.get token r.timeouts with
  | none => r
  | some task =>
    { r with
      timeouts := r.timeouts.filter (·.1 ≠ token)
      tasks := if current = some task then r.tasks else r.tasks.modify task TimeoutTask.cancel }

def discard (token : String) (r : Registry C T) : Except Raised (DecisionEntry T) × Registry C T :=
  let r := r.cancelTimeout none token
  match r.get token with
  | none => (.error .keyError, r)
  | some entry => (.ok entry, { r with entries := r.entries.eraseP (·.token = token) })

def store (payload : T) (token : String) (ticket : Nat) (r : Registry C T) : DecisionEntry T × Registry C T :=
  let r := r.cancelTimeout none token
  let entry : DecisionEntry T := { id := r.made, token := token, ticket := ticket, payload := payload }
  let entries := Keyed.put DecisionEntry.token Keyed.replace entry r.entries
  (entry, { r with entries := entries, made := r.made + 1 })

def evictOldest (r : Registry C T) : Except Raised (Option (DecisionEntry T)) × Registry C T :=
  let (evicted, core) := core.evictOldest r.core
  let r := { r with core := core }
  match evicted with
  | none => (.ok none, r)
  | some token =>
    let (entry, r) := r.discard token
    (entry.map some, r)

def registerMinted (payload : T) (r : Registry C T) : Except Raised (Registration T) × Registry C T :=
  let (evicted, r) := r.evictOldest core
  match evicted with
  | .error error => (.error error, r)
  | .ok evicted =>
    let (registered, c) := core.registerMinted r.core
    let r := { r with core := c }
    match registered with
    | none => (.error .outOfTickets, r)
    | some (token, ticket) =>
      let (entry, r) := r.store payload token ticket
      (.ok { entry := entry, evicted := evicted }, r)

def registerKeyed (payload : T) (key : String) (r : Registry C T) :
    Except Raised (Option (Registration T)) × Registry C T :=
  let replaced := r.get key
  let (evicted, r) := if replaced.isSome then (.ok none, r) else r.evictOldest core
  match evicted with
  | .error error => (.error error, r)
  | .ok evicted =>
    let (registered, c) := core.registerKeyed r.core key
    let r := { r with core := c }
    match registered with
    | none => (.ok none, r)
    | some (token, ticket) =>
      let (entry, r) := r.store payload token ticket
      (.ok (some { entry := entry, evicted := evicted, replaced := replaced }), r)

def startTimeout (entry : DecisionEntry T) (r : Registry C T) : Registry C T :=
  if r.holds entry then
    let r := r.cancelTimeout none entry.token
    { r with
      timeouts := Keyed.setItem entry.token r.tasks.length r.timeouts
      tasks := r.tasks ++ [{ entry := entry }] }
  else r

def claim (current : Option Nat) (entry : DecisionEntry T) (r : Registry C T) : ClaimOutcome × Registry C T :=
  if r.holds entry then
    let (outcome, c) := core.tryClaim r.core entry.token entry.ticket
    let r := { r with core := c }
    (outcome, if outcome = .claimed then r.cancelTimeout current entry.token else r)
  else (.stale, r)

/-- A timeout task after its sleep, up to the end of its claim. -/
def expire (task : Nat) (r : Registry C T) : Option (ClaimOutcome × Registry C T) :=
  match r.tasks[task]? with
  | some ⟨entry, .sleeping⟩ =>
    let awake := { r with tasks := r.tasks.set task ⟨entry, .running⟩ }
    let (outcome, r) := awake.claim core (some task) entry
    let after := if outcome = .claimed then TaskStatus.running else .done
    some (outcome, { r with tasks := r.tasks.set task ⟨entry, after⟩ })
  | _ => none

/-- The end of a timeout task's `on_timeout`. -/
def timedOut (task : Nat) (r : Registry C T) : Option (Registry C T) :=
  match r.tasks[task]? with
  | some ⟨entry, .running⟩ => some { r with tasks := r.tasks.set task ⟨entry, .done⟩ }
  | _ => none

def tryClaim (token : String) (r : Registry C T) : Option (DecisionEntry T) × Registry C T :=
  match r.get token with
  | none => (none, r)
  | some entry =>
    let (outcome, r) := r.claim core none entry
    (if outcome = .claimed then some entry else none, r)

def withdraw (entry : DecisionEntry T) (r : Registry C T) : Except Raised Bool × Registry C T :=
  if r.holds entry then
    let (withdrawn, c) := core.withdraw r.core entry.token entry.ticket
    let r := { r with core := c }
    if withdrawn then
      let (discarded, r) := r.discard entry.token
      (discarded.map fun _ => true, r)
    else (.ok false, r)
  else (.ok false, r)

/-- Whether `entry` was dropped is for the record only: `forget` returns nothing. -/
def forget (entry : DecisionEntry T) (r : Registry C T) : Except Raised Bool × Registry C T :=
  if r.holds entry then
    let (forgotten, c) := core.forget r.core entry.token entry.ticket
    let r := { r with core := c }
    if forgotten then
      let (discarded, r) := r.discard entry.token
      (discarded.map fun _ => true, r)
    else (.ok false, r)
  else (.ok false, r)

def discardAll : List String → Registry C T → Except Raised Unit × Registry C T
  | [], r => (.ok (), r)
  | token :: rest, r =>
    let (discarded, r) := r.discard token
    match discarded with
    | .error error => (.error error, r)
    | .ok _ => discardAll rest r

def dropCancelled (cancelled : CancelledDecisions) (r : Registry C T) :
    Except Raised (List (DecisionEntry T)) × Registry C T :=
  match cancelled.unclaimed.mapM r.get with
  | none => (.error .keyError, r)
  | some unclaimed =>
    let (discarded, r) := r.discardAll (cancelled.unclaimed ++ cancelled.claimed)
    (discarded.map fun _ => unclaimed, r)

def cancelAll (r : Registry C T) : Except Raised (List (DecisionEntry T)) × Registry C T :=
  let (cancelled, c) := core.cancelAll r.core
  { r with core := c }.dropCancelled cancelled

end Registry

end BandSdk.Decisions

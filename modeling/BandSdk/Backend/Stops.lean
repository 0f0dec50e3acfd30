/-
# Backend.Stops -- a turn is stopped once, and its stop stays visible

A turn can be stopped along two paths: through its record, once it has a handle
(`cancel`, or `bind` after a requested stop), and through its start call, when
its owner is cancelled in `started`.  Each path by itself stops the turn at most
once.  `orderly` is the condition that they do not cross: turns are entered one
at a time, an owner is cancelled in `started` only while its turn is the
registered one and has no handle, and no handle is bound to a turn whose start
call was left to a stop.

Where they do cross (`stop_paths_cross`), one handle is cancelled twice, and the
first of the two stops has lost its place in `_stopping`: nobody waits for it.
-/
import BandSdk.Backend.Model
import Mathlib.Tactic.Common

namespace BandSdk.Backend

set_option linter.unusedSectionVars false

open BandSdk.Theory List Function

namespace RoomState

variable {H ρ : Type} [DecidableEq H] [DecidableEq ρ] {s t : RoomState H ρ}

/-! ## The condition -/

def isSettling : Owner H → Bool
  | .settling _ _ => true
  | _ => false

/-- No handle comes to a turn whose start call was left to a stop. -/
def bindable (s : RoomState H ρ) : Bool :=
  match s.current with
  | some n => (s.turns n).handle.isSome || !(s.turns n).detached
  | none => true

/-- `started` of owner `o` is about to bind a handle. -/
def reveals (s : RoomState H ρ) (o : Nat) : Bool :=
  match s.owners[o]? with
  | some (.starting _ c) => match s.calls c with
      | .revealed (some _) => true
      | _ => false
  | _ => false

/-- The owner's turn is the registered one and has neither a handle nor a start
call left to a stop. -/
def unrevealed (s : RoomState H ρ) (o : Nat) : Bool :=
  match s.owners[o]? with
  | some (.starting n _) =>
    s.current = some n && (s.turns n).handle.isNone && !(s.turns n).detached
  | _ => true

def orderly (s : RoomState H ρ) : BackendEvent H ρ → Bool
  | .enter _ => s.current.isNone && !s.owners.any isSettling
  | .started o => !s.reveals o || s.bindable
  | .bind _ => s.bindable
  | .cancelStarted o => s.unrevealed o
  | _ => true

/-! ## The invariant -/

/-- How often the adapter's cancel call was made for turn `n`. -/
def issuedFor (s : RoomState H ρ) (n : Nat) : Nat := s.issued.countP fun entry => entry.1 = n

/-- Owner `o` waits in `settled` for stop `k`. -/
def Settles (s : RoomState H ρ) (o k : Nat) (handle : Option H) : Prop :=
  s.owners[o]? = some (.settling k handle)

/-- No stop is in flight. -/
def Quiet (s : RoomState H ρ) : Prop := ∀ k, (s.stops k).task = .done

/-- Turn `n` has not been stopped along either path. -/
def Unstopped (s : RoomState H ρ) (n : Nat) : Prop :=
  (s.turns n).detached = false ∧ ((s.turns n).stopRequested = true → (s.turns n).handle = none)

structure Tidy (s : RoomState H ρ) : Prop where
  slotted : ∀ k, (s.stops k).task ≠ .done → s.slot = some k
  once : ∀ n, s.issuedFor n ≤ 1
  /-- A registered turn that was not stopped has the room to itself. -/
  unstopped : ∀ n, s.current = some n → s.Unstopped n → s.Quiet ∧ s.issuedFor n = 0
  detached : ∀ n, s.current = some n → (s.turns n).detached = true → (s.turns n).handle = none
  /-- A stop that waits for a start call has the turn's only stop ahead of it. -/
  waiting : ∀ k c, (s.stops k).task = .awaitingStart c →
    s.issuedFor (s.stops k).turn = 0 ∧ (s.turns (s.stops k).turn).detached = true
  /-- While an owner waits to enter, no turn is registered and only the stop it
  waits for may be in flight. -/
  settling : ∀ o k handle, s.Settles o k handle → s.current = none ∧ ∀ k', (s.stops k').task ≠ .done → k' = k
  lone : ∀ o o' k k' handle handle', s.Settles o k handle → s.Settles o' k' handle' → o = o'
  known : ∀ n, s.current = some n → n < s.turnCount
  issuedKnown : ∀ n, s.turnCount ≤ n → s.issuedFor n = 0
  stopKnown : ∀ k, (s.stops k).task ≠ .done → (s.stops k).turn < s.turnCount

theorem tidy_initial : (initial : RoomState H ρ).Tidy := by
  constructor <;> simp [initial, issuedFor, Settles]

section

variable (tidy : s.Tidy)
include tidy

theorem Tidy.quiet_of_slot (empty : s.slot = none) : s.Quiet := by
  intro k
  by_contra flying
  cases (tidy.slotted k flying).symm.trans empty

/-- Nobody waits to enter while a turn is registered. -/
theorem Tidy.not_settling {n o k : Nat} {handle : Option H}
    (current : s.current = some n) : ¬ s.Settles o k handle := by
  intro waits
  cases (tidy.settling o k handle waits).1.symm.trans current

/-! ## Parts of the state the invariant does not read -/

/-- The invariant reads neither confirmations nor admissions; a turn may be
deregistered, and a stop in flight may end. -/
theorem Tidy.mono (current : t.current = s.current ∨ t.current = none)
    (turns : t.turns = s.turns) (turnCount : t.turnCount = s.turnCount)
    (owners : ∀ o k handle, t.Settles o k handle →
      s.Settles o k handle) (stops : ∀ k, t.stops k = s.stops k ∨ (t.stops k).task = .done)
    (slot : ∀ k, (t.stops k).task ≠ .done → s.slot = some k → t.slot = some k)
    (issued : t.issued = s.issued) : t.Tidy := by
  have flying : ∀ k, (t.stops k).task ≠ .done → t.stops k = s.stops k :=
    fun k unfinished => (stops k).resolve_right unfinished
  have registered : ∀ n, t.current = some n → s.current = some n := by
    intro n here
    rcases current with same | gone
    · exact same.symm.trans here
    · cases gone.symm.trans here
  have counts : ∀ n, t.issuedFor n = s.issuedFor n := by
    intro n
    unfold issuedFor
    rw [issued]
  constructor
  case slotted =>
    intro k unfinished
    exact slot k unfinished (tidy.slotted k (flying k unfinished ▸ unfinished))
  case once =>
    intro n
    rw [counts]
    exact tidy.once n
  case unstopped =>
    intro n here unstopped
    unfold Unstopped at unstopped
    rw [turns] at unstopped
    obtain ⟨quiet, none'⟩ := tidy.unstopped n (registered n here) unstopped
    refine ⟨fun k => ?_, (counts n).trans none'⟩
    rcases stops k with same | done
    · rw [same]
      exact quiet k
    · exact done
  case detached =>
    intro n here
    rw [turns]
    exact tidy.detached n (registered n here)
  case waiting =>
    intro k c awaiting
    have same := flying k (by simp [awaiting])
    rw [same] at awaiting ⊢
    rw [counts, turns]
    exact tidy.waiting k c awaiting
  case settling =>
    intro o k handle waits
    obtain ⟨none', only⟩ := tidy.settling o k handle (owners o k handle waits)
    refine ⟨?_, fun k' unfinished => only k' (flying k' unfinished ▸ unfinished)⟩
    rcases current with same | gone
    · exact same.trans none'
    · exact gone
  case lone =>
    intro o o' k k' handle handle' first second
    exact tidy.lone o o' k k' handle handle' (owners o k handle first) (owners o' k' handle' second)
  case known =>
    intro n here
    rw [turnCount]
    exact tidy.known n (registered n here)
  case issuedKnown =>
    intro n late
    rw [turnCount] at late
    exact (counts n).trans (tidy.issuedKnown n late)
  case stopKnown =>
    intro k unfinished
    have same := flying k unfinished
    rw [same] at unfinished ⊢
    rw [turnCount]
    exact tidy.stopKnown k unfinished

omit tidy in
theorem settles_of_set {o o' k : Nat} {owner : Owner H} {h : Option H} (calm : isSettling owner = false)
    (waits : (s.owners.set o owner)[o']? = some (Owner.settling k h)) : s.Settles o' k h := by
  rw [getElem?_set] at waits
  split at waits
  · obtain ⟨-, ⟨⟩⟩ := of_passed waits
    cases calm
  · exact waits

/-! ## Registration -/

/-- A turn registers in a room where no stop is in flight and nobody waits. -/
theorem Tidy.register (quiet : s.Quiet) (handle : Option H) {owners : List (Owner H)}
    (alone : ∀ (o k : Nat) (h : Option H), owners[o]? ≠ some (Owner.settling k h)) :
    ({ s.register handle with owners } : RoomState H ρ).Tidy := by
  have fresh : s.issuedFor s.turnCount = 0 := tidy.issuedKnown _ (Nat.le_refl _)
  constructor
  case slotted => exact fun k flying => absurd (quiet k) flying
  case once => exact tidy.once
  case unstopped =>
    intro n here _
    cases here
    exact ⟨quiet, fresh⟩
  case detached =>
    intro n here detached
    cases here
    simp [RoomState.register, setTurn] at detached
  case waiting =>
    intro k c awaiting
    cases (quiet k).symm.trans awaiting
  case settling => exact fun o k h waits => absurd waits (alone o k h)
  case lone => exact fun o o' k k' h h' waits _ => absurd waits (alone o k h)
  case known =>
    intro n here
    cases here
    exact Nat.lt_succ_self _
  case issuedKnown => exact fun n late => tidy.issuedKnown n (Nat.le_of_succ_le late)
  case stopKnown => exact fun k flying => absurd (quiet k) flying

theorem Tidy.enter {handle : Option H} (ok : s.orderly (.enter handle) = true) : (s.enter handle).Tidy := by
  simp only [orderly, Bool.and_eq_true, Option.isNone_iff_eq_none, Bool.not_eq_true', any_eq_false] at ok
  obtain ⟨none', nobody⟩ := ok
  have alone : ∀ (o k : Nat) (h : Option H), s.owners[o]? ≠ some (Owner.settling k h) := by
    intro o k h waits
    exact nobody _ (mem_of_getElem? waits) rfl
  unfold RoomState.enter
  split
  · rename_i k slot
    have old : ∀ (o k' : Nat) (h : Option H), (s.owners ++ [Owner.settling k handle])[o]? = some (Owner.settling k' h) →
        o = s.owners.length ∧ k' = k := by
      intro o k' h waits
      rw [getElem?_append] at waits
      split at waits
      · exact absurd waits (alone o k' h)
      rename_i late
      have last : o - s.owners.length = 0 := by
        by_contra more
        rw [getElem?_singleton, if_neg more] at waits
        cases waits
      rw [last] at waits
      cases waits
      exact ⟨by omega, rfl⟩
    constructor
    case settling =>
      intro o k' h waits
      obtain ⟨-, rfl⟩ := old o k' h waits
      refine ⟨none', fun k' flying => ?_⟩
      cases (tidy.slotted k' flying).symm.trans slot
      rfl
    case lone =>
      intro o o' k' k'' h h' first second
      rw [(old o k' h first).1, (old o' k'' h' second).1]
    all_goals first
      | exact tidy.slotted
      | exact tidy.once
      | exact tidy.unstopped
      | exact tidy.detached
      | exact tidy.waiting
      | exact tidy.known
      | exact tidy.issuedKnown
      | exact tidy.stopKnown
  · rename_i slot
    refine tidy.register (tidy.quiet_of_slot slot) handle ?_
    intro o k h waits
    rw [getElem?_append] at waits
    split at waits
    · exact alone o k h waits
    · rw [getElem?_singleton] at waits
      split at waits <;> cases waits

theorem Tidy.wake {o : Nat} (stepped : s.wake o = some t) : t.Tidy := by
  unfold RoomState.wake at stepped
  split at stepped
  · rename_i k handle waits
    split at stepped
    · rename_i done
      cases stepped
      have quiet : s.Quiet := by
        intro k'
        by_contra flying
        obtain rfl := (tidy.settling o k handle waits).2 k' flying
        exact flying done
      refine tidy.register quiet handle ?_
      intro o' k' h' still
      rw [show (s.register handle).owners = s.owners from rfl, getElem?_set] at still
      split at still
      · split at still <;> cases still
      · rename_i different
        exact different (tidy.lone o o' k k' handle h' waits still)
    · cases stepped
  · cases stepped

/-! ## The two ways to stop a turn -/

/-- Turn `n`, registered and not stopped, is stopped: through its record, which
now says so, or through its start call, and then nothing is issued yet. -/
theorem Tidy.spawn {n : Nat} {turn : BackendTurn H} {task : StopTask H}
    (registered : s.current = some n) (quiet : s.Quiet) (unissued : s.issuedFor n = 0)
    (current : t.current = some n) (turns : t.turns = Function.update s.turns n turn)
    (turnCount : t.turnCount = s.turnCount) (owners : ∀ o k handle, ¬ t.Settles o k handle)
    (stops : t.stops = Function.update s.stops s.stopCount ⟨n, task⟩) (slot : t.slot = some s.stopCount)
    (path : t.issued = s.issued ∧ turn.detached = true ∧ turn.handle = none ∨
      ∃ h, t.issued = s.issued ++ [(n, h)] ∧ task = .sending h ∧ turn.detached = false ∧
        turn.stopRequested = true ∧ turn.handle = some h) : t.Tidy := by
  have only : ∀ k, (t.stops k).task ≠ .done → k = s.stopCount := by
    intro k flying
    by_contra other
    rw [stops, update_of_ne other] at flying
    exact flying (quiet k)
  have turnIs : t.turns n = turn := by simp [turns]
  have counts : ∀ m, m ≠ n → t.issuedFor m = s.issuedFor m := by
    intro m other
    rcases path with ⟨issued, -⟩ | ⟨h, issued, -⟩
    · simp [issuedFor, issued]
    · simp [issuedFor, issued, Ne.symm other]
  constructor
  case slotted =>
    intro k flying
    rw [only k flying]
    exact slot
  case once =>
    intro m
    by_cases same : m = n
    · subst same
      rcases path with ⟨issued, -⟩ | ⟨h, issued, -⟩
      · have : t.issuedFor m = s.issuedFor m := by simp [issuedFor, issued]
        omega
      · have : t.issuedFor m = s.issuedFor m + 1 := by simp [issuedFor, issued]
        omega
    · rw [counts m same]
      exact tidy.once m
  case unstopped =>
    intro m here unstopped
    cases current.symm.trans here
    rw [Unstopped, turnIs] at unstopped
    rcases path with ⟨-, detached, -⟩ | ⟨h, -, -, -, requested, handle⟩
    · exact absurd unstopped.1 (by simp [detached])
    · exact absurd (unstopped.2 requested) (by simp [handle])
  case detached =>
    intro m here detached
    cases current.symm.trans here
    rw [turnIs] at detached ⊢
    rcases path with ⟨-, -, handle⟩ | ⟨h, -, -, attached, -⟩
    · exact handle
    · exact absurd detached (by simp [attached])
  case waiting =>
    intro k c awaiting
    obtain rfl := only k (by simp [awaiting])
    rw [stops, update_self] at awaiting ⊢
    rw [turnIs]
    rcases path with ⟨issued, detached, -⟩ | ⟨h, -, sending, -⟩
    · exact ⟨by simpa [issuedFor, issued] using unissued, detached⟩
    · cases sending.symm.trans awaiting
  case settling => exact fun o k handle waits => absurd waits (owners o k handle)
  case lone => exact fun o o' k k' handle _ waits _ => absurd waits (owners o k handle)
  case known =>
    intro m here
    cases current.symm.trans here
    rw [turnCount]
    exact tidy.known _ registered
  case issuedKnown =>
    intro m late
    rw [turnCount] at late
    have other : m ≠ n := by
      have := tidy.known n registered
      omega
    rw [counts m other]
    exact tidy.issuedKnown m late
  case stopKnown =>
    intro k flying
    obtain rfl := only k flying
    rw [stops, update_self, turnCount]
    exact tidy.known n registered

omit tidy in
/-- `_stop` adds at most an unconfirmed record to the task and the cancel call. -/
theorem stop_eq (confirm : Bool) (n : Nat) (handle : H) : ∃ unconfirmed unconfirmedCount,
    s.stop confirm n handle = { (s.issue n handle).spawnStop n (.sending handle) with
      unconfirmed, unconfirmedCount } := by
  unfold RoomState.stop unconfirmedStop
  cases confirm with
  | false => exact ⟨_, _, rfl⟩
  | true =>
    cases known : s.unconfirmed with
    | none | some stop => exact ⟨_, _, rfl⟩

omit tidy in
@[simp] theorem setTurn_self (n : Nat) (turn : BackendTurn H) :
    (s.setTurn n turn).turns n = turn := update_self ..

/-- The registered turn's record changes without a stop. -/
theorem Tidy.setTurn {n : Nat} {turn : BackendTurn H}
    (registered : s.current = some n) (detached : turn.detached = (s.turns n).detached)
    (handle : turn.detached = true → turn.handle = none)
    (unstopped : turn.detached = false → s.Unstopped n) : (s.setTurn n turn).Tidy := by
  constructor
  case unstopped =>
    intro m here free
    cases registered.symm.trans here
    rw [Unstopped, setTurn_self] at free
    exact tidy.unstopped n registered (unstopped free.1)
  case detached =>
    intro m here
    cases registered.symm.trans here
    simpa using handle
  case waiting =>
    intro k c awaiting
    obtain ⟨unissued, gone⟩ := tidy.waiting k c awaiting
    refine ⟨unissued, ?_⟩
    by_cases same : (s.stops k).turn = n
    · simp only [RoomState.setTurn]
      rw [same, update_self, detached, ← same]
      exact gone
    · simpa [RoomState.setTurn, same] using gone
  all_goals first
    | exact tidy.slotted
    | exact tidy.once
    | exact tidy.settling
    | exact tidy.lone
    | exact tidy.known
    | exact tidy.issuedKnown
    | exact tidy.stopKnown

theorem Tidy.bind (confirm : Bool) (handle : H) (ok : s.bindable = true) : (s.bind confirm handle).Tidy := by
  unfold RoomState.bind
  split
  · exact tidy
  rename_i n registered
  split
  · exact tidy
  rename_i unbound
  have unbound' : (s.turns n).handle = none := by simpa using unbound
  have attached : (s.turns n).detached = false := by
    simpa [bindable, registered, unbound'] using ok
  have free : s.Unstopped n := ⟨attached, fun _ => unbound'⟩
  obtain ⟨quiet, unissued⟩ := tidy.unstopped n registered free
  dsimp only
  split
  · rename_i requested
    have requested' : (s.turns n).stopRequested = true := by
      simpa [RoomState.setTurn] using requested
    obtain ⟨unconfirmed, count, same⟩ :=
      (s.setTurn n { s.turns n with handle := some handle }).stop_eq confirm n handle
    rw [same]
    refine tidy.spawn registered quiet unissued registered rfl rfl ?_ rfl rfl
      (.inr ⟨handle, rfl, rfl, attached, requested', rfl⟩)
    exact fun o k h => tidy.not_settling registered
  · exact tidy.setTurn registered rfl (fun gone => by simp [attached] at gone) fun _ => free

theorem Tidy.cancel (confirm : Bool) : (s.cancel confirm).Tidy := by
  unfold RoomState.cancel
  split
  · exact tidy
  rename_i n registered
  split
  · exact tidy
  rename_i unrequested
  have free : (s.turns n).detached = false → s.Unstopped n :=
    fun attached => ⟨attached, fun requested => absurd requested unrequested⟩
  dsimp only
  split
  · rename_i handle bound
    have bound' : (s.turns n).handle = some handle := by
      simpa [RoomState.setTurn] using bound
    have attached : (s.turns n).detached = false := by
      by_contra gone
      have := tidy.detached n registered (by simpa using gone)
      simp [bound'] at this
    obtain ⟨quiet, unissued⟩ := tidy.unstopped n registered (free attached)
    obtain ⟨unconfirmed, count, same⟩ :=
      (s.setTurn n { s.turns n with stopRequested := true }).stop_eq confirm n handle
    rw [same]
    refine tidy.spawn registered quiet unissued registered rfl rfl ?_ rfl rfl
      (.inr ⟨handle, rfl, rfl, attached, rfl, bound'⟩)
    exact fun o k h => tidy.not_settling registered
  · exact tidy.setTurn registered rfl (tidy.detached n registered) free

theorem Tidy.cancelStarted {o : Nat} (ok : s.unrevealed o = true)
    (stepped : s.cancelStarted o = some t) : t.Tidy := by
  unfold RoomState.cancelStarted at stepped
  split at stepped
  · rename_i n c inStarted
    cases stepped
    simp only [unrevealed, inStarted, Bool.and_eq_true, decide_eq_true_eq,
      Option.isNone_iff_eq_none, Bool.not_eq_true'] at ok
    obtain ⟨⟨registered, unbound⟩, attached⟩ := ok
    obtain ⟨quiet, unissued⟩ := tidy.unstopped n registered ⟨attached, fun _ => unbound⟩
    refine tidy.spawn registered quiet unissued registered rfl rfl ?_ rfl rfl
      (.inl ⟨rfl, rfl, unbound⟩)
    exact fun o' k h waits => tidy.not_settling registered (settles_of_set rfl waits)
  · cases stepped

theorem Tidy.setOwner (o : Nat) {owner : Owner H} (calm : isSettling owner = false) :
    (s.setOwner o owner).Tidy :=
  tidy.mono (.inl rfl) rfl rfl (fun _ _ _ waits => settles_of_set calm waits)
    (fun _ => .inl rfl) (fun _ _ => id) rfl

omit tidy in
theorem leave_cases {confirm cancelled : Bool} {o : Nat} (stepped : s.leave confirm o cancelled = some t) :
    ∃ r : RoomState H ρ, (cancelled = true ∧ r = s.cancel confirm ∨ r = s) ∧
      ∃ current, (current = r.current ∨ current = none) ∧
        t = ({ r with current } : RoomState H ρ).setOwner o .left := by
  unfold RoomState.leave at stepped
  split at stepped
  · cases stepped
    refine ⟨if cancelled then s.cancel confirm else s, ?_, ?_⟩
    · cases cancelled with
      | true => exact .inl ⟨rfl, rfl⟩
      | false => exact .inr rfl
    · generalize (if cancelled then s.cancel confirm else s) = r
      split
      · exact ⟨none, .inr rfl, rfl⟩
      · exact ⟨_, .inl rfl, rfl⟩
  · cases stepped

omit tidy in
theorem started_cases {confirm : Bool} {o : Nat} (stepped : s.started confirm o = some t) :
    ∃ n c, s.owners[o]? = some (.starting n c) ∧ (t = s.setOwner o (.inside n) ∨
      ∃ handle, s.calls c = .revealed (some handle) ∧ t = (s.setOwner o (.inside n)).bind confirm handle) := by
  unfold RoomState.started at stepped
  split at stepped
  next n c starting =>
    refine ⟨n, c, starting, ?_⟩
    split at stepped
    · cases stepped
    next handle revealed =>
      cases stepped
      exact .inr ⟨handle, revealed, rfl⟩
    · cases stepped
      exact .inl rfl
    · cases stepped
      exact .inl rfl
  next => cases stepped

theorem Tidy.leave {confirm cancelled : Bool} {o : Nat}
    (stepped : s.leave confirm o cancelled = some t) : t.Tidy := by
  obtain ⟨r, made, current, left, rfl⟩ := leave_cases stepped
  have stopped : r.Tidy := by
    rcases made with ⟨-, rfl⟩ | rfl
    · exact tidy.cancel confirm
    · exact tidy
  refine Tidy.setOwner ?_ o rfl
  exact stopped.mono left rfl rfl (fun _ _ _ => id) (fun _ => .inl rfl) (fun _ _ => id) rfl

/-! ## Stop tasks -/

theorem Tidy.ends (k : Nat) : (s.setTask k .done).Tidy := by
  refine tidy.mono (.inl rfl) rfl rfl (fun _ _ _ => id) (fun k' => ?_) (fun _ _ => id) rfl
  by_cases same : k' = k
  · subst same
    exact .inr (by simp [setTask])
  · exact .inl (by simp [setTask, same])

/-- The start call reveals the handle to the stop that waits for it. -/
theorem Tidy.revealed {k c : Nat} (handle : H) (awaiting : (s.stops k).task = .awaitingStart c) :
    ((s.issue (s.stops k).turn handle).setTask k (.sending handle)).Tidy := by
  obtain ⟨unissued, detached⟩ := tidy.waiting k c awaiting
  have flying : (s.stops k).task ≠ .done := by simp [awaiting]
  have only : ∀ k', (s.stops k').task ≠ .done → k' = k := by
    intro k' other
    cases (tidy.slotted k' other).symm.trans (tidy.slotted k flying)
    rfl
  have tasks : ∀ k', (((s.issue (s.stops k).turn handle).setTask k (.sending handle)).stops
      k').task ≠ .done → k' = k := by
    intro k' unfinished
    by_contra other
    simp only [setTask, issue, update_of_ne other] at unfinished
    exact other (only k' unfinished)
  have counts : ∀ m, ((s.issue (s.stops k).turn handle).setTask k (.sending handle)).issuedFor m =
      s.issuedFor m + if (s.stops k).turn = m then 1 else 0 := by
    intro m
    simp [issuedFor, setTask, issue, countP_append, countP_singleton]
  constructor
  case slotted =>
    intro k' unfinished
    rw [tasks k' unfinished]
    exact tidy.slotted k flying
  case once =>
    intro m
    rw [counts]
    split
    · rename_i same
      have zero : s.issuedFor m = 0 := same ▸ unissued
      omega
    · exact tidy.once m
  case unstopped =>
    intro n here free
    exact absurd ((tidy.unstopped n here free).1 k) flying
  case detached => exact tidy.detached
  case waiting =>
    intro k' c' still
    obtain rfl := tasks k' (by simp [still])
    simp [setTask] at still
  case settling =>
    intro o k' h waits
    obtain ⟨none', all⟩ := tidy.settling o k' h waits
    refine ⟨none', fun k'' unfinished => ?_⟩
    rw [tasks k'' unfinished]
    exact all k flying
  case lone => exact tidy.lone
  case known => exact tidy.known
  case issuedKnown =>
    intro m late
    have early : (s.stops k).turn < s.turnCount := tidy.stopKnown k flying
    have late' : s.turnCount ≤ m := late
    rw [counts, if_neg (by omega)]
    exact tidy.issuedKnown m late
  case stopKnown =>
    intro k' unfinished
    obtain rfl := tasks k' unfinished
    simpa [setTask, issue] using tidy.stopKnown k' flying

theorem Tidy.stopRevealed {k : Nat} (stepped : s.stopRevealed k = some t) : t.Tidy := by
  unfold RoomState.stopRevealed at stepped
  split at stepped
  · rename_i c awaiting
    split at stepped
    · cases stepped
    · cases stepped
      exact tidy.revealed _ awaiting
    · cases stepped
      exact tidy.ends k
    · cases stepped
      exact tidy.ends k
  · cases stepped

theorem Tidy.forgetStop {k : Nat} (stepped : s.forgetStop k = some t) : t.Tidy := by
  unfold RoomState.forgetStop at stepped
  split at stepped
  · rename_i done
    cases stepped
    split
    · rename_i slot
      refine tidy.mono (.inl rfl) rfl rfl (fun _ _ _ => id) (fun _ => .inl rfl) ?_ rfl
      intro k' unfinished here
      cases slot.symm.trans here
      exact absurd done unfinished
    · exact tidy
  · cases stepped

/-! ## Confirmations -/

theorem Tidy.unread (current : t.current = s.current ∨ t.current = none)
    (turns : t.turns = s.turns) (turnCount : t.turnCount = s.turnCount)
    (owners : t.owners = s.owners) (stops : t.stops = s.stops) (slot : t.slot = s.slot)
    (issued : t.issued = s.issued) : t.Tidy := by
  refine tidy.mono current turns turnCount ?_ (fun k => .inl (by rw [stops])) ?_ issued
  · intro o k h waits
    rwa [Settles, owners] at waits
  · intro k _ here
    rwa [slot]

theorem Tidy.confirmStopped (handle : H) : (s.confirmStopped handle).Tidy := by
  refine tidy.unread ?_ rfl rfl rfl rfl rfl rfl
  unfold RoomState.confirmStopped
  split
  · rename_i n registered
    split
    · exact .inr rfl
    · exact .inl registered.symm
  · exact .inr rfl

/-- `e` confirms `handle`: directly; by a release, or a completed wait for the
release, of the residency that `recovering` recorded; or by its disposal. -/
def Confirms (s : RoomState H ρ) (handle : H) : BackendEvent H ρ → Prop
  | .confirmStopped given => given = handle
  | .released identity residency => ∃ stop, s.unconfirmed = some stop ∧ stop.handle = handle ∧
      stop.identity = identity ∧ stop.recovery = some residency
  | .releaseWaited a ok => ok = true ∧ ∃ residency, s.admissions[a]? = some (some ⟨handle, residency⟩)
  | .confirmDisposed closed => closed = true ∧
      ∃ stop, s.unconfirmed = some stop ∧ stop.handle = handle ∧ stop.recovery.isSome
  | _ => False

/-- The calls that end in a `confirm_stopped`. -/
def isConfirmation : BackendEvent H ρ → Bool
  | .confirmStopped _ | .released _ _ | .confirmDisposed _ | .releaseWaited _ _ => true
  | _ => false

omit tidy in
/-- Such a call confirms a handle, or leaves the room as it is. -/
theorem confirmation_cases {confirm : Bool} {e : BackendEvent H ρ} (confirmation : isConfirmation e = true)
    (stepped : s.step confirm e = some t) : ∃ admissions, t = { s with admissions } ∨
      ∃ handle, s.Confirms handle e ∧ t = ({ s with admissions } : RoomState H ρ).confirmStopped handle := by
  cases e with
  | confirmStopped handle =>
    cases stepped
    exact ⟨_, .inr ⟨handle, rfl, rfl⟩⟩
  | released identity residency =>
    cases stepped
    refine ⟨s.admissions, ?_⟩
    unfold released
    split
    next stop known =>
      split
      next same => exact .inr ⟨_, ⟨stop, known, rfl, same.1, same.2⟩, rfl⟩
      next => exact .inl rfl
    next => exact .inl rfl
  | confirmDisposed closed =>
    cases stepped
    refine ⟨s.admissions, ?_⟩
    unfold confirmDisposed
    split
    next stop known =>
      split
      next same => exact .inr ⟨_, ⟨same.2, stop, known, rfl, same.1⟩, rfl⟩
      next => exact .inl rfl
    next => exact .inl rfl
  | releaseWaited a ok =>
    simp only [RoomState.step, releaseWaited] at stepped
    split at stepped
    next admission waits =>
      cases stepped
      refine ⟨s.admissions.set a none, ?_⟩
      cases ok with
      | false => exact .inl rfl
      | true => exact .inr ⟨_, ⟨rfl, admission.residency, waits⟩, rfl⟩
    next => cases stepped
  | _ => cases confirmation

theorem Tidy.unconfirmedStop (handle : H) : (s.unconfirmedStop handle).Tidy := by
  unfold RoomState.unconfirmedStop
  split
  · exact tidy
  · exact tidy.unread (.inl rfl) rfl rfl rfl rfl rfl rfl

theorem Tidy.recovering (handle : H) (residency : ρ × Nat) : (s.recovering handle residency).Tidy := by
  unfold RoomState.recovering
  dsimp only
  split
  · split
    · exact (tidy.unconfirmedStop handle).unread (.inl rfl) rfl rfl rfl rfl rfl rfl
    · exact tidy.unconfirmedStop handle
  · exact tidy.unconfirmedStop handle

/-! ## All events -/

theorem Tidy.step {confirm : Bool} {e : BackendEvent H ρ}
    (ok : s.orderly e = true) (stepped : s.step confirm e = some t) : t.Tidy := by
  by_cases confirmation : isConfirmation e = true
  · obtain ⟨admissions, made⟩ := confirmation_cases confirmation stepped
    have read : ({ s with admissions } : RoomState H ρ).Tidy :=
      tidy.unread (.inl rfl) rfl rfl rfl rfl rfl rfl
    rcases made with rfl | ⟨handle, -, rfl⟩
    · exact read
    · exact read.confirmStopped handle
  cases e with
  | confirmStopped | released | confirmDisposed | releaseWaited => exact absurd rfl confirmation
  | enter handle =>
    cases stepped
    exact tidy.enter ok
  | wake o => exact tidy.wake stepped
  | abortEnter o =>
    simp only [RoomState.step, abortEnter] at stepped
    split at stepped <;> cases stepped
    exact tidy.setOwner o rfl
  | start o =>
    simp only [RoomState.step, start] at stepped
    split at stepped <;> cases stepped
    exact (tidy.setOwner o rfl).unread (.inl rfl) rfl rfl rfl rfl rfl rfl
  | callEnds c outcome =>
    simp only [RoomState.step, callEnds] at stepped
    split at stepped <;> cases stepped <;>
      exact tidy.unread (.inl rfl) rfl rfl rfl rfl rfl rfl
  | started o =>
    obtain ⟨n, c, starting, rfl | ⟨handle, revealed, rfl⟩⟩ := started_cases stepped
    · exact tidy.setOwner o rfl
    refine (tidy.setOwner o rfl).bind confirm handle ?_
    show s.bindable = true
    simpa [orderly, reveals, starting, revealed] using ok
  | cancelStarted o => exact tidy.cancelStarted ok stepped
  | leave o cancelled => exact tidy.leave stepped
  | bind handle =>
    cases stepped
    exact tidy.bind confirm handle ok
  | cancel =>
    cases stepped
    exact tidy.cancel confirm
  | stopRevealed k => exact tidy.stopRevealed stepped
  | stopEnds k =>
    simp only [RoomState.step, stopEnds] at stepped
    split at stepped <;> cases stepped
    exact tidy.ends k
  | forgetStop k => exact tidy.forgetStop stepped
  | recovering handle residency =>
    cases stepped
    exact tidy.recovering handle residency
  | requireAdmission =>
    simp only [RoomState.step, requireAdmission] at stepped
    split at stepped <;> cases stepped
    exact tidy.unread (.inl rfl) rfl rfl rfl rfl rfl rfl

end

/-! ## Who registers -/

theorem stop_turnCount (confirm : Bool) (n : Nat) (handle : H) :
    (s.stop confirm n handle).turnCount = s.turnCount := by
  obtain ⟨_, _, same⟩ := s.stop_eq confirm n handle
  rw [same]
  rfl

theorem bind_turnCount (confirm : Bool) (handle : H) : (s.bind confirm handle).turnCount = s.turnCount := by
  unfold RoomState.bind
  dsimp only
  repeat' split
  all_goals first | rfl | exact stop_turnCount ..

theorem cancel_turnCount (confirm : Bool) : (s.cancel confirm).turnCount = s.turnCount := by
  unfold RoomState.cancel
  dsimp only
  repeat' split
  all_goals first | rfl | exact stop_turnCount ..

theorem unconfirmedStop_turnCount (handle : H) : (s.unconfirmedStop handle).turnCount = s.turnCount := by
  unfold unconfirmedStop
  split <;> rfl

/-- Only `running` registers: at once where `_stopping` is empty, or after the
stop it waited for. -/
theorem step_registers {confirm : Bool} {e : BackendEvent H ρ}
    (stepped : s.step confirm e = some t) : t.turnCount = s.turnCount ∨ s.slot = none ∨
      ∃ o k handle, s.Settles o k handle ∧ (s.stops k).task = .done := by
  cases e with
  | enter handle =>
    cases stepped
    unfold RoomState.enter
    split
    · exact .inl rfl
    · rename_i empty
      exact .inr (.inl empty)
  | wake o =>
    simp only [RoomState.step, RoomState.wake] at stepped
    split at stepped
    · rename_i k handle waits
      split at stepped
      · rename_i done
        exact .inr (.inr ⟨o, k, handle, waits, done⟩)
      · cases stepped
    · cases stepped
  | leave o cancelled =>
    obtain ⟨r, ⟨-, rfl⟩ | rfl, current, -, rfl⟩ := leave_cases stepped
    · exact .inl (cancel_turnCount confirm)
    · exact .inl rfl
  | started o =>
    obtain ⟨n, c, -, rfl | ⟨handle, -, rfl⟩⟩ := started_cases stepped
    · exact .inl rfl
    · exact .inl (bind_turnCount ..)
  | bind handle =>
    cases stepped
    exact .inl (bind_turnCount ..)
  | cancel =>
    cases stepped
    exact .inl (cancel_turnCount ..)
  | recovering handle residency =>
    cases stepped
    unfold recovering
    dsimp only
    repeat' split
    all_goals exact .inl (unconfirmedStop_turnCount handle)
  | abortEnter o | start o | callEnds c outcome | cancelStarted o | stopRevealed k | stopEnds k
    | forgetStop k | confirmStopped handle | released identity residency
    | confirmDisposed closed | requireAdmission | releaseWaited a ok =>
      simp only [RoomState.step, abortEnter, start, callEnds, RoomState.cancelStarted,
        RoomState.stopRevealed, stopEnds, RoomState.forgetStop, released, confirmDisposed,
        requireAdmission, releaseWaited] at stepped
      repeat' split at stepped
      all_goals cases stepped
      all_goals exact .inl rfl

end RoomState

open RoomState

variable {H ρ : Type} [DecidableEq H] [DecidableEq ρ]

/-- What the room promises about its stops: each turn is stopped once; every stop
in flight is the one `blocker` reports and `settled` waits for; and a turn
registers only when none is in flight. -/
structure StopsVisible (confirm : Bool) (s : RoomState H ρ) : Prop where
  once : ∀ n, s.issuedFor n ≤ 1
  visible : ∀ k, (s.stops k).task ≠ .done → s.blocker = some (.stopping k) ∧ s.slot = some k
  registers : ∀ e t, s.step confirm e = some t → s.turnCount < t.turnCount → s.Quiet

/-- The runs in which the two ways to stop a turn do not cross. -/
def orderlyRoom (H ρ : Type) [DecidableEq H] [DecidableEq ρ] (confirm : Bool) :
    Machine (RoomState H ρ) (BackendEvent H ρ) := (room H ρ confirm).restrict orderly

theorem tidy_of_reachable {confirm : Bool} {s : RoomState H ρ}
    (reached : (orderlyRoom H ρ confirm).Reachable s) : s.Tidy := by
  refine reached.invariant ?_ ?_
  · rintro s rfl
    exact tidy_initial
  · intro s e t tidy stepped
    obtain ⟨ok, inside⟩ := Machine.restrict_step stepped
    exact tidy.step ok inside

theorem RoomState.Tidy.stopsVisible {s : RoomState H ρ} (tidy : s.Tidy) (confirm : Bool) :
    StopsVisible confirm s where
  once := tidy.once
  visible k flying := by
    have here := tidy.slotted k flying
    refine ⟨?_, here⟩
    unfold blocker
    rw [here]
    dsimp only
    split
    · rename_i done
      exact absurd done flying
    · rfl
  registers e t stepped grew := by
    rcases step_registers stepped with same | empty | ⟨o, k, handle, waits, done⟩
    · omega
    · exact tidy.quiet_of_slot empty
    intro k'
    by_contra flying
    obtain rfl := (tidy.settling o k handle waits).2 k' flying
    exact flying done

/-- **Stopped once, and visibly.**  In every run of every room in which turns are
entered one at a time and the two ways to stop a turn do not cross. -/
theorem stops_once_and_visible (rooms : Type) [DecidableEq rooms] (confirm : Bool)
    (s : rooms → RoomState H ρ) (reached : ((orderlyRoom H ρ confirm).family rooms).Reachable s)
    (r : rooms) : StopsVisible confirm (s r) :=
  (tidy_of_reachable (reached.component r)).stopsVisible confirm

/-- A turn cancelled while its start call is pending, and the turn after it. -/
def cancelledStart : List (Unit × BackendEvent String Unit) :=
  [.enter none, .start 0, .cancel, .cancelStarted 0, .leave 0 true, .enter (some "second"),
    .callEnds 0 (.revealed (some "first")), .stopRevealed 0, .stopEnds 0, .forgetStop 0, .wake 1].map
    fun e => ((), e)

theorem stops_once_cancelled_start :
    ∃ s, ((orderlyRoom String Unit false).family Unit).run (fun _ => initial) cancelledStart =
        some s ∧ (s ()).issued = [(0, "first")] ∧ (s ()).current = some 1 ∧
      StopsVisible false (s ()) := by
  have ran : (((orderlyRoom String Unit false).family Unit).run (fun _ => initial)
      cancelledStart).map (fun s => ((s ()).issued, (s ()).current)) =
        some ([(0, "first")], some 1) := by decide +kernel
  obtain ⟨s, path, facts⟩ := Option.map_eq_some_iff.1 ran
  simp only [Prod.mk.injEq] at facts
  exact ⟨s, path, facts.1, facts.2, stops_once_and_visible Unit false s ⟨_, fun _ => rfl, _, path⟩ ()⟩

/-- **The two ways cross.**  A handle is bound while the start call that reveals
the same turn is pending; the owner is cancelled in `started`.  Both paths stop
the turn, so `"turn"` is cancelled twice, and the stop that waited for the start
call is in flight with `_stopping` naming the other. -/
theorem stop_paths_cross :
    ∃ s, (room String Unit false).run initial
        [.enter none, .start 0, .bind "turn", .cancelStarted 0, .leave 0 true,
          .callEnds 0 (.revealed (some "turn")), .stopRevealed 0] = some s ∧
      s.issued = [(0, "turn"), (0, "turn")] ∧ (s.stops 0).task = .sending "turn" ∧
      s.blocker = some (.stopping 1) ∧ ¬ StopsVisible false s := by
  refine ⟨_, rfl, rfl, rfl, rfl, fun visible => ?_⟩
  exact absurd (visible.once 0) (by decide)

end BandSdk.Backend

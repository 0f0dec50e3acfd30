/-
# Turns.Grace -- one task's cancellation and its cleanup grace

A `TurnTask` owns the cancellation of one task.  Its first termination sets a
deadline for good, until a retry after that grace ran out sets the next; within
one grace the task is asked to cancel once, by whoever comes first: the
termination, the retry, the loop's call at the deadline, or the provider's timer
that had fired already.

`graces` is the history of these periods, newest first, and no code reads it.
The provider's timer is an `asyncio.Timeout` that was entered; what leaves its
block is asyncio's.  The loop may make a call up to its clock's resolution early.

Left out: the callback of `observe_revocation`, and `drain`, which only waits.
-/
import BandSdk.Theory.Asyncio
import BandSdk.Theory.Machine

namespace BandSdk.Turns

open BandSdk.Theory List

/-! ## The provider's timer -/

inductive TimeoutState where
  | entered
  | expiring
  deriving DecidableEq

/-- An entered `asyncio.Timeout`; it is armed while the loop holds its call. -/
structure Timeout where
  state : TimeoutState
  when : Option Int
  armed : Bool

def Timeout.expired (timer : Timeout) : Bool := timer.state = .expiring

/-- `retire_provider_timeout`. -/
def retireProviderTimeout (timer : Timeout) : Timeout × Bool :=
  if timer.expired then (timer, true) else ({ timer with when := none, armed := false }, false)

/-! ## The task's owner -/

/-- One grace: how often the task was asked to cancel for it, the timer that had `fired` before it
began included, and whether the task was still running when it ran out. -/
structure Grace where
  deadline : Int
  cooperative : Bool
  fired : Bool
  asks : Nat
  expired : Bool := false
  outlived : Bool := false

/-- The loop: its clock's resolution, and the grace in its time. -/
structure Loop where
  resolution : Nat
  cycleCancelGrace : Int

structure TurnTask where
  done : Bool
  failure : Option PyError := none
  deadline : Option Int := none
  cancelDelivered : Bool := false
  graceExpired : Bool := false
  timer : Option Timeout := none
  cleanupTimer : Bool := false
  /-- The loop's time, and its pending calls of `_expire`. -/
  time : Int
  calls : List Int := []
  graces : List Grace := []

namespace TurnTask

variable (l : Loop) (s : TurnTask)

def authoritative : Bool := s.deadline.isNone && !s.done

/-- The task is asked to cancel, in the grace that runs. -/
def asked : List Grace → List Grace
  | [] => []
  | g :: rest => { g with asks := g.asks + 1 } :: rest

/-- `_cancel`. -/
def cancel : TurnTask :=
  if !s.cancelDelivered && !s.done then { s with cancelDelivered := true, graces := asked s.graces } else s

/-- `_release_timer`: the bound it returns, and the owner after it. -/
def releaseTimer (bound : Int) : Int × TurnTask :=
  match s.timer with
  | none => (bound, s)
  | some timer =>
    let lowered := match timer.when with
      | some timerBound => if s.cleanupTimer then min bound timerBound else bound
      | none => bound
    let retired := retireProviderTimeout timer
    (lowered, { s with timer := some retired.1, cancelDelivered := s.cancelDelivered || retired.2 })

/-- A grace begins: its deadline is set and the loop told of it. -/
def begin (deadline : Int) (cooperative fired : Bool) : TurnTask :=
  { s with
    deadline := some deadline
    calls := s.calls ++ [deadline]
    graces := ⟨deadline, cooperative, fired, if fired then 1 else 0, false, false⟩ :: s.graces }

def terminate (deadline : Option Int) (cooperative : Bool) : TurnTask :=
  if s.deadline.isSome then s
  else
    let released := s.releaseTimer (deadline.getD (s.time + l.cycleCancelGrace))
    let begun := released.2.begin released.1 cooperative (s.timer.any Timeout.expired)
    if cooperative then begun else begun.cancel

def fail (error : PyError) (cooperative : Bool) : TurnTask :=
  if s.authoritative then { s with failure := some error }.terminate l none cooperative else s

def retry (deadline : Int) : TurnTask :=
  if !s.graceExpired then s.terminate l (some deadline) false
  else ({ s with graceExpired := false, cancelDelivered := false }.begin deadline false false).cancel

/-- The grace that runs has run out. -/
def ranOut (done : Bool) : List Grace → List Grace
  | [] => []
  | g :: rest => { g with expired := true, outlived := !done } :: rest

/-- `_expire`. -/
def expire : TurnTask := { s with graceExpired := true, graces := ranOut s.done s.graces }.cancel

/-- Why `timed` is not entered. -/
inductive Refusal where
  | cancelled
  | runtimeError

/-- `timed`, up to its body; `own` is whether the owned task runs it. -/
def enterTimed (timeout : Option Int) (cleanup own : Bool) : Except Refusal TurnTask :=
  if s.deadline.isSome then .error .cancelled
  else if s.timer.isSome || !own then .error .runtimeError
  else .ok { s with
    timer := some ⟨.entered, timeout.map (s.time + ·), timeout.isSome⟩, cleanupTimer := cleanup }

def cancelledError : PyError := ⟨"CancelledError", ""⟩

/-- `timed`, after its body, and what it raises for what the timer let through. -/
def exitTimed (raised : Option PyError) : TurnTask × Option PyError :=
  ({ s with timer := none, cleanupTimer := false },
    if s.deadline.isSome then some (s.failure.getD cancelledError) else raised)

/-- `Timeout._on_timeout`: it cancels the task itself. -/
def timerFires (timer : Timeout) : TurnTask :=
  { s with
    timer := some { timer with state := .expiring, armed := false }
    graces := if s.done then s.graces else asked s.graces }

/-! ## Runs -/

inductive Event where
  | tick (elapsed : Nat)
  | terminate (deadline : Option Int) (cooperative : Bool)
  | fail (error : PyError) (cooperative : Bool)
  | retry (deadline : Int)
  /-- The loop makes the pending call. -/
  | expire
  | enter (timeout : Option Int) (cleanup own : Bool)
  | exit (raised : Option PyError)
  | timerFires
  | finish

/-- A call of the loop is due. -/
def due (at_ : Int) : Bool := at_ ≤ s.time + l.resolution

/-- The event is a termination, where none came before. -/
def Event.terminates (s : TurnTask) : Event → Bool
  | .terminate .. => true
  | .fail .. => s.authoritative
  | .retry _ => true
  | _ => false

def step (s : TurnTask) : Event → Option TurnTask
  | .tick elapsed => some { s with time := s.time + elapsed }
  | .terminate deadline cooperative => some (s.terminate l deadline cooperative)
  | .fail error cooperative => some (s.fail l error cooperative)
  | .retry deadline => some (s.retry l deadline)
  | .expire =>
    match s.calls with
    | [] => none
    | call :: rest => if s.due l call then some { s with calls := rest }.expire else none
  | .enter timeout cleanup own =>
    match s.enterTimed timeout cleanup own with
    | .ok s' => some s'
    | .error _ => some s
  | .exit raised => if s.timer.isSome then some (s.exitTimed raised).1 else none
  | .timerFires =>
    match s.timer with
    | none => none
    | some timer =>
      match timer.when with
      | none => none
      | some when_ => if timer.armed && s.due l when_ then some (s.timerFires timer) else none
  | .finish => if s.done then none else some { s with done := true }

end TurnTask

/-- An owner of a task that runs or is done already. -/
def turnTask (l : Loop) : Machine TurnTask TurnTask.Event where
  init s := ∃ done time, s = { done := done, time := time }
  step := TurnTask.step l

/-! ## What holds of a grace -/

/-- The task was asked once at most, and exactly once by its end if it outlived the grace; of a
cooperative one nothing is asked before that. -/
structure Grace.Kept (g : Grace) : Prop where
  once : g.asks ≤ 1
  expiry : g.expired = true → g.outlived = true → g.asks = 1
  waits : g.cooperative = true → g.expired = false → g.asks = if g.fired then 1 else 0

namespace TurnTask

/-- The calls the loop has to make for these graces. -/
def pending : List Grace → List Int
  | [] => []
  | g :: _ => if g.expired then [] else [g.deadline]

/-- What the owner's fields say of its graces. -/
structure Ordered (s : TurnTask) : Prop where
  kept : ∀ g ∈ s.graces, g.Kept
  deadline : s.deadline = s.graces.head?.map Grace.deadline
  calls : s.calls = pending s.graces
  earlier : ∀ g ∈ s.graces.tail, g.expired = true
  expired : s.graceExpired = s.graces.head?.any Grace.expired
  delivered : ∀ g, s.graces.head? = some g → g.asks = if s.cancelDelivered then 1 else 0
  fresh : s.graces = [] → s.cancelDelivered = false
  spent : ∀ timer, s.timer = some timer → timer.expired = true → timer.armed = false
  /-- After the first termination the provider's timer has fired or never will. -/
  retired : s.graces ≠ [] → ∀ timer, s.timer = some timer → timer.armed = false

section Steps

variable {l : Loop} {s s' : TurnTask}

theorem Ordered.deadline_iff (inv : Ordered s) : s.deadline.isSome = false ↔ s.graces = [] := by
  rw [inv.deadline]
  cases s.graces <;> simp

open TurnTask

theorem Ordered.cancel (inv : Ordered s) {g : Grace} {rest : List Grace} (graces : s.graces = g :: rest)
    (may : g.cooperative = true → g.expired = true) : Ordered s.cancel := by
  unfold TurnTask.cancel
  split
  · rename_i asks
    rw [Bool.and_eq_true, Bool.not_eq_true', Bool.not_eq_true'] at asks
    have none_ : g.asks = 0 := by
      have counted := inv.delivered g (by simp [graces])
      simpa [asks.1] using counted
    have head := inv.kept g (by simp [graces])
    constructor
    · intro g' inside
      rw [graces, asked, mem_cons] at inside
      rcases inside with rfl | later
      · refine ⟨?_, ?_, ?_⟩
        · show g.asks + 1 ≤ 1
          omega
        · intro _ _
          show g.asks + 1 = 1
          omega
        · intro cooperative running
          have over_ : g.expired = true := may cooperative
          have running : g.expired = false := running
          rw [over_] at running
          cases running
      · exact inv.kept g' (by simp [graces, later])
    · simpa [graces, asked] using inv.deadline
    · simpa [graces, asked, pending] using inv.calls
    · simpa [graces, asked] using inv.earlier
    · simpa [graces, asked] using inv.expired
    · intro g' head
      rw [graces, asked, List.head?_cons, Option.some.injEq] at head
      subst head
      simp [none_]
    · simp [graces, asked]
    · exact inv.spent
    · intro _
      exact inv.retired (by simp [graces])
  · exact inv

/-- A grace begins where none runs, with the timer spent. -/
theorem Ordered.begin {deadline : Int} {cooperative fired : Bool} (kept : ∀ g ∈ s.graces, g.Kept)
    (over_ : ∀ g ∈ s.graces, g.expired = true) (calls : s.calls = []) (flag : s.graceExpired = false)
    (delivered : s.cancelDelivered = fired) (retired : ∀ timer, s.timer = some timer → timer.armed = false) :
    Ordered (s.begin deadline cooperative fired) := by
  constructor
  · intro g inside
    simp only [TurnTask.begin, mem_cons] at inside
    rcases inside with rfl | later
    · refine ⟨?_, by simp, by simp⟩
      show (if fired then 1 else 0) ≤ 1
      split <;> omega
    · exact kept g later
  · rfl
  · simp [TurnTask.begin, calls, pending]
  · exact over_
  · simp [TurnTask.begin, flag]
  · intro g head
    simp only [TurnTask.begin, List.head?_cons, Option.some.injEq] at head
    subst head
    simp [TurnTask.begin, delivered]
  · simp [TurnTask.begin]
  · intro timer held _
    exact retired timer held
  · intro _
    exact retired

theorem retire_spec (timer : Timeout) : (retireProviderTimeout timer).2 = timer.expired ∧
    (retireProviderTimeout timer).1.expired = timer.expired ∧
    ((timer.expired = true → timer.armed = false) → (retireProviderTimeout timer).1.armed = false) := by
  unfold retireProviderTimeout
  split
  · rename_i fired
    simp [fired]
  · rename_i waiting
    rw [Bool.not_eq_true] at waiting
    refine ⟨waiting.symm, ?_, fun _ => rfl⟩
    exact waiting.symm ▸ waiting

/-- What the release of the timer leaves of the owner. -/
theorem releaseTimer_spec (bound : Int) : ∃ timer, (s.releaseTimer bound).2 =
      { s with timer := timer, cancelDelivered := s.cancelDelivered || s.timer.any Timeout.expired } ∧
    ((∀ t, s.timer = some t → t.expired = true → t.armed = false) → ∀ t, timer = some t → t.armed = false) := by
  unfold releaseTimer
  cases held : s.timer with
  | none =>
    have same : { s with timer := none, cancelDelivered := s.cancelDelivered || false } = s := by
      rw [Bool.or_false, ← held]
    exact ⟨none, same.symm, by simp⟩
  | some timer =>
    obtain ⟨fired, -, spent⟩ := retire_spec timer
    refine ⟨some (retireProviderTimeout timer).1, ?_, ?_⟩
    · simp [fired]
    · rintro earlier _ ⟨⟩
      exact spent (earlier timer rfl)

theorem Ordered.terminate (inv : Ordered s) (deadline : Option Int) (cooperative : Bool) :
    Ordered (s.terminate l deadline cooperative) := by
  unfold TurnTask.terminate
  split
  · exact inv
  rename_i first
  rw [Bool.not_eq_true] at first
  have none_ := inv.deadline_iff.1 first
  obtain ⟨timer, shape, spent⟩ := releaseTimer_spec (s := s) (deadline.getD (s.time + l.cycleCancelGrace))
  have begun (bound : Int) : Ordered ((s.releaseTimer (deadline.getD (s.time + l.cycleCancelGrace))).2.begin
      bound cooperative (s.timer.any Timeout.expired)) := by
    rw [shape]
    apply Ordered.begin
    · simp [none_]
    · simp [none_]
    · simpa [none_, pending] using inv.calls
    · simpa [none_] using inv.expired
    · simp [inv.fresh none_]
    · exact spent inv.spent
  split
  · exact begun _
  rename_i waits
  refine (begun _).cancel rfl fun cooperates => ?_
  exact absurd cooperates waits

theorem Ordered.retry (inv : Ordered s) (deadline : Int) : Ordered (s.retry l deadline) := by
  unfold TurnTask.retry
  split
  · exact inv.terminate (some deadline) false
  rename_i ran
  rw [Bool.not_eq_true', Bool.not_eq_false] at ran
  have expired := inv.expired
  rw [ran] at expired
  obtain ⟨g, rest, graces⟩ : ∃ g rest, s.graces = g :: rest := by
    cases graces : s.graces with
    | nil => simp [graces] at expired
    | cons g rest => exact ⟨g, rest, rfl⟩
  have over_ : g.expired = true := by simpa [graces] using expired.symm
  have begun : Ordered ({ s with graceExpired := false, cancelDelivered := false }.begin deadline false false) := by
    apply Ordered.begin
    · exact inv.kept
    · intro g' inside
      rw [graces, mem_cons] at inside
      rcases inside with rfl | later
      · exact over_
      · exact inv.earlier g' (by simp [graces, later])
    · simp [inv.calls, graces, pending, over_]
    · rfl
    · rfl
    · exact inv.retired (by simp [graces])
  apply begun.cancel rfl
  simp

theorem Ordered.fail (inv : Ordered s) (error : PyError) (cooperative : Bool) :
    Ordered (s.fail l error cooperative) := by
  have blamed : Ordered { s with failure := some error } :=
    { inv with }
  unfold TurnTask.fail
  split
  · exact blamed.terminate none cooperative
  · exact inv

/-- The grace runs out: the task has been asked by then, or is asked now if it still runs. -/
theorem Ordered.expire (inv : Ordered s) {call : Int} {rest : List Int} (calls : s.calls = call :: rest) :
    Ordered { s with calls := rest }.expire := by
  obtain ⟨g, others, graces⟩ : ∃ g others, s.graces = g :: others := by
    cases graces : s.graces with
    | nil => simp [inv.calls, graces, pending] at calls
    | cons g others => exact ⟨g, others, rfl⟩
  have running : g.expired = false := by
    cases ran : g.expired with
    | false => rfl
    | true => simp [inv.calls, graces, pending, ran] at calls
  have alone : rest = [] := by
    rw [inv.calls, graces] at calls
    simp only [pending, running, Bool.false_eq_true, if_false, List.cons.injEq] at calls
    exact calls.2.symm
  have head := inv.kept g (by simp [graces])
  have counted : g.asks = if s.cancelDelivered then 1 else 0 := inv.delivered g (by simp [graces])
  -- whichever way it goes, the head of the history is all that changes
  have shape : ∃ asks delivered, { s with calls := rest }.expire = { s with
      calls := [], graceExpired := true, cancelDelivered := delivered
      graces := { g with expired := true, outlived := !s.done, asks := asks } :: others } ∧
      asks = (if delivered then 1 else 0) ∧ (s.done = false → delivered = true) := by
    by_cases asks : s.cancelDelivered = false ∧ s.done = false
    · refine ⟨1, true, ?_, rfl, fun _ => rfl⟩
      simp [TurnTask.expire, TurnTask.cancel, graces, ranOut, asked, asks, alone, counted]
    · refine ⟨g.asks, s.cancelDelivered, ?_, counted, fun open_ => ?_⟩
      · have quiet : (!s.cancelDelivered && !s.done) = false := by
          cases delivered : s.cancelDelivered <;> cases done : s.done <;> simp_all
        simp [TurnTask.expire, TurnTask.cancel, graces, ranOut, quiet, alone]
      · by_contra silent
        exact asks ⟨by simpa using silent, open_⟩
  obtain ⟨asks, delivered, shape, count, asked⟩ := shape
  rw [shape]
  constructor
  · intro g' inside
    rcases mem_cons.1 inside with rfl | later
    · refine ⟨?_, ?_, by simp⟩
      · show asks ≤ 1
        rw [count]
        split <;> omega
      · intro _ outlived
        have open_ : s.done = false := by simpa using outlived
        show asks = 1
        rw [count, asked open_, if_pos rfl]
    · exact inv.kept g' (by simp [graces, later])
  · simpa [graces] using inv.deadline
  · simp [pending]
  · simpa [graces] using inv.earlier
  · simp
  · intro g' first
    rw [List.head?_cons, Option.some.injEq] at first
    subst first
    exact count
  · simp
  · exact inv.spent
  · intro _
    exact inv.retired (by simp [graces])

variable {event : Event} (deadline : Option Int) (cooperative : Bool)

theorem Ordered.step (inv : Ordered s) (stepped : step l s event = some s') : Ordered s' := by
  cases event with
  | tick elapsed =>
    cases stepped
    exact { inv with }
  | terminate deadline cooperative =>
    cases stepped
    exact inv.terminate deadline cooperative
  | fail error cooperative =>
    cases stepped
    exact inv.fail error cooperative
  | retry deadline =>
    cases stepped
    exact inv.retry deadline
  | expire =>
    simp only [step] at stepped
    split at stepped
    · cases stepped
    rename_i call rest calls
    obtain ⟨-, ⟨⟩⟩ := of_passed stepped
    exact inv.expire calls
  | enter timeout cleanup own =>
    simp only [step, enterTimed] at stepped
    by_cases terminated : s.deadline.isSome = true
    · rw [if_pos terminated] at stepped
      cases stepped
      exact inv
    · rw [if_neg terminated] at stepped
      have none_ : s.graces = [] := inv.deadline_iff.1 (by simpa using terminated)
      split at stepped
      · rename_i entered ok
        cases stepped
        split at ok
        · cases ok
        cases ok
        refine { inv with spent := ?_, retired := ?_ }
        · rintro _ ⟨⟩ fired
          cases fired
        · exact fun some_ => absurd none_ some_
      · cases stepped
        exact inv
  | exit raised =>
    simp only [step, exitTimed] at stepped
    obtain ⟨-, ⟨⟩⟩ := of_passed stepped
    exact { inv with spent := by simp, retired := by simp }
  | timerFires =>
    simp only [step] at stepped
    split at stepped
    · cases stepped
    rename_i timer held
    split at stepped
    · cases stepped
    obtain ⟨fires, stepped⟩ := of_passed stepped
    rw [Bool.and_eq_true] at fires
    -- an armed timer means that nothing was terminated yet
    have none_ : s.graces = [] := by
      by_contra some_
      have spent := inv.retired some_ timer held
      rw [spent] at fires
      cases fires.1
    have same : (if s.done then s.graces else asked s.graces) = s.graces := by
      split <;> simp [none_, asked]
    cases stepped
    unfold timerFires
    rw [same]
    refine { inv with spent := ?_, retired := ?_ }
    · rintro _ ⟨⟩ _
      rfl
    · exact fun some_ => absurd none_ some_
  | finish =>
    obtain ⟨-, ⟨⟩⟩ := of_barred stepped
    exact { inv with }

theorem terminate_deadline :
    (s.terminate l deadline cooperative).deadline.isSome = true ∧
      (s.deadline.isSome = true → s.terminate l deadline cooperative = s) := by
  unfold terminate
  split
  · rename_i terminated
    exact ⟨terminated, fun _ => rfl⟩
  · rename_i first
    refine ⟨?_, fun terminated => absurd terminated first⟩
    dsimp only
    split
    · rfl
    · unfold cancel
      split <;> rfl

@[simp] theorem cancel_deadline : s.cancel.deadline = s.deadline := by
  unfold cancel
  split <;> rfl

@[simp] theorem cancel_failure : s.cancel.failure = s.failure := by
  unfold cancel
  split <;> rfl

@[simp] theorem cancel_done : s.cancel.done = s.done := by
  unfold cancel
  split <;> rfl

theorem releaseTimer_same (bound : Int) :
    (s.releaseTimer bound).2.failure = s.failure ∧ (s.releaseTimer bound).2.done = s.done := by
  obtain ⟨timer, shape, -⟩ := releaseTimer_spec (s := s) bound
  rw [shape]
  exact ⟨rfl, rfl⟩

@[simp] theorem terminate_failure : (s.terminate l deadline cooperative).failure = s.failure := by
  unfold terminate
  split
  · rfl
  dsimp only
  split
  · exact (releaseTimer_same _).1
  · rw [cancel_failure]
    exact (releaseTimer_same _).1

@[simp] theorem terminate_done : (s.terminate l deadline cooperative).done = s.done := by
  unfold terminate
  split
  · rfl
  dsimp only
  split
  · exact (releaseTimer_same _).2
  · rw [cancel_done]
    exact (releaseTimer_same _).2

/-- What one event may do to the deadline, to the failure and to the task's end. -/
structure Follows (s : TurnTask) (event : Event) (s' : TurnTask) : Prop where
  /-- Only the first termination, or a retry once the grace has run out. -/
  deadline : s'.deadline ≠ s.deadline →
    s.deadline = none ∨ ∃ deadline, event = .retry deadline ∧ s.graceExpired = true ∧ s'.deadline = some deadline
  /-- A termination that comes first is what sets it. -/
  terminated : s.deadline = none → s'.deadline.isSome = event.terminates s
  failure : s'.failure ≠ s.failure → s.authoritative = true ∧ ∃ error cooperative, event = .fail error cooperative
  done : s.done = true → s'.done = true

theorem Follows.of_same (quiet : event.terminates s = false) (deadline : s'.deadline = s.deadline)
    (failure : s'.failure = s.failure) (done : s.done = true → s'.done = true) : Follows s event s' := by
  refine ⟨fun changed => absurd deadline changed, ?_, fun changed => absurd failure changed, done⟩
  intro none_
  rw [deadline, none_, quiet]
  rfl

theorem follows_terminate {deadline : Option Int} {cooperative : Bool}
    (terminates : s.deadline = none → event.terminates s = true) :
    Follows s event (s.terminate l deadline cooperative) := by
  obtain ⟨set, later⟩ := terminate_deadline (l := l) (s := s) deadline cooperative
  refine ⟨fun changed => ?_, fun none_ => set.trans (terminates none_).symm, ?_, ?_⟩
  · by_cases first : s.deadline = none
    · exact .inl first
    · rw [later (Option.isSome_iff_ne_none.2 first)] at changed
      exact absurd rfl changed
  · intro changed
    exact absurd (terminate_failure deadline cooperative) changed
  · intro done
    rw [terminate_done]
    exact done

theorem follows_of_step (stepped : step l s event = some s') : Follows s event s' := by
  cases event with
  | tick elapsed =>
    cases stepped
    exact .of_same rfl rfl rfl id
  | terminate deadline cooperative =>
    cases stepped
    exact follows_terminate fun _ => rfl
  | fail error cooperative =>
    cases stepped
    unfold fail
    split
    · rename_i may
      have ended : Follows { s with failure := some error } (.fail error cooperative)
          (terminate l { s with failure := some error } none cooperative) :=
        follows_terminate fun _ => may
      exact ⟨ended.deadline, ended.terminated, fun _ => ⟨may, error, cooperative, rfl⟩, ended.done⟩
    · rename_i refused
      exact .of_same (by simpa [Event.terminates] using refused) rfl rfl id
  | retry deadline =>
    cases stepped
    unfold retry
    split
    · exact follows_terminate fun _ => rfl
    rename_i ran
    rw [Bool.not_eq_true', Bool.not_eq_false] at ran
    refine ⟨fun _ => .inr ⟨deadline, rfl, ran, by simp [begin]⟩, ?_, ?_, ?_⟩
    · simp [begin, Event.terminates]
    · intro changed
      simp [begin] at changed
    · intro done
      simpa [begin] using done
  | expire =>
    simp only [step] at stepped
    split at stepped
    · cases stepped
    obtain ⟨-, ⟨⟩⟩ := of_passed stepped
    unfold expire
    exact .of_same rfl (by simp) (by simp) (by simp)
  | enter timeout cleanup own =>
    simp only [step, enterTimed] at stepped
    split at stepped
    · rename_i entered ok
      cases stepped
      split at ok
      · cases ok
      split at ok
      · cases ok
      · cases ok
        exact .of_same rfl rfl rfl id
    · cases stepped
      exact .of_same rfl rfl rfl id
  | exit raised =>
    obtain ⟨-, ⟨⟩⟩ := of_passed stepped
    exact .of_same rfl rfl rfl id
  | timerFires =>
    simp only [step] at stepped
    split at stepped
    · cases stepped
    split at stepped
    · cases stepped
    · obtain ⟨-, ⟨⟩⟩ := of_passed stepped
      exact .of_same rfl rfl rfl id
  | finish =>
    obtain ⟨-, ⟨⟩⟩ := of_barred stepped
    exact .of_same rfl rfl rfl fun _ => rfl

/-- A deadline and an end are for good. -/
theorem Follows.revoked (follows : Follows s event s') (revoked : s.authoritative = false) :
    s'.authoritative = false := by
  rw [authoritative, Bool.and_eq_false_iff] at revoked ⊢
  rcases revoked with terminated | done
  · refine .inl ?_
    by_cases same : s'.deadline = s.deadline
    · rw [same]
      exact terminated
    · rcases follows.deadline same with none_ | ⟨deadline, -, -, set⟩
      · simp [none_] at terminated
      · rw [set]
        rfl
  · rw [Bool.not_eq_false'] at done
    exact .inr (by rw [follows.done done]; rfl)

end Steps

theorem ordered_of_reachable {l : Loop} {s : TurnTask} (reached : (turnTask l).Reachable s) : Ordered s := by
  refine reached.invariant ?_ fun s event s' inv stepped => inv.step stepped
  rintro _ ⟨done, time, rfl⟩
  exact ⟨by simp, rfl, rfl, by simp, rfl, by simp, by simp, by simp, by simp⟩

/-- **One cancellation for each grace.**  Whatever comes in whatever order, the task is asked to
cancel once at most in each grace, and by its end if it still runs then; a cooperative one waits for
its end, unless the provider's timer fired before it began.  The deadline is the newest grace's, and
the loop has a call to make for it until it ran out, as every earlier one has.  Only a first
termination sets it and only a retry after that replaces it; a failure is recorded by an
authoritative task alone; and a task that lost its authority never has it again. -/
theorem grace_kept (l : Loop) {s : TurnTask} (reached : (turnTask l).Reachable s) :
    (∀ g ∈ s.graces, g.Kept) ∧
    s.deadline = s.graces.head?.map Grace.deadline ∧ s.calls = pending s.graces ∧
    s.graceExpired = s.graces.head?.any Grace.expired ∧ (∀ g ∈ s.graces.tail, g.expired = true) ∧
    (∀ event s', step l s event = some s' → Follows s event s') ∧
    (s.authoritative = false → ∀ s', (turnTask l).Reaches s s' → s'.authoritative = false) := by
  have inv := ordered_of_reachable reached
  refine ⟨inv.kept, inv.deadline, inv.calls, inv.expired, inv.earlier, ?_, ?_⟩
  · intro event s' stepped
    exact follows_of_step stepped
  · intro revoked s' path
    have both := path.invariant (P := fun t => Ordered t ∧ t.authoritative = false) ⟨inv, revoked⟩ ?_
    · exact both.2
    · intro t event t' before stepped
      exact ⟨before.1.step stepped, (follows_of_step stepped).revoked before.2⟩

/-- A cooperative termination that outlives its grace, and a retry. -/
def outlivedEvents : List Event :=
  [.enter (some 60) false true, .terminate none true, .terminate (some 1) false, .tick 5, .expire,
    .fail ⟨"ProviderError", "late"⟩ false, .retry 12]

theorem grace_kept_outlived : ∃ s, (turnTask ⟨0, 5⟩).run { done := false, time := 0 } outlivedEvents = some s ∧
    s.deadline = some 12 ∧ s.failure = none ∧
    s.graces = [⟨12, false, false, 1, false, false⟩, ⟨5, true, false, 1, true, true⟩] ∧
    ∀ g ∈ s.graces, g.Kept :=
  ⟨_, rfl, rfl, rfl, rfl, (grace_kept ⟨0, 5⟩ ⟨_, ⟨false, 0, rfl⟩, outlivedEvents, rfl⟩).1⟩

end TurnTask

end BandSdk.Turns

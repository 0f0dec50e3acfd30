/-
# Rooms.Guarantees -- ownership, the circuit breaker, and held events

The three results about every run of `RoomExecutions`.  The witnesses evaluate a
room through its whole life: admitted, served, left and rejoined while it is
retired.
-/
import BandSdk.Rooms.Delivery

namespace BandSdk.Rooms

open BandSdk.Theory List Function Option

variable {E : Type} {w w' : RoomExecutions E}

/-- The task exists and has not finished. -/
def StepPhase.inFlight : StepPhase E → Bool
  | .finished _ | .reported => false
  | _ => true

theorem StepPhase.busy_of_inFlight {p : StepPhase E} (flies : p.inFlight = true) : p.busy = true := by
  cases p <;> first | rfl | cases flies

namespace Slot

variable {a : Admission} {s : Slot E}

/-- What ownership promises of one room id. -/
structure OwnsOne (s : Slot E) : Prop where
  /-- At most one step task is in flight. -/
  oneStep : ∀ (t t' : Nat) (step step' : Step E), s.steps[t]? = some step →
    s.steps[t']? = some step' → step.phase.inFlight = true → step'.phase.inFlight = true → t = t'
  /-- An execution is the room's until its stop and the room's release succeeded. -/
  recorded : ∀ (x : Nat) (e : Execution), s.executions[x]? = some e → e.cleaned = false →
    ∃ k, s.current = some k ∧ (s.records k).execution = some x
  /-- No execution is built before every earlier one was cleaned up. -/
  cleanedFirst : ∀ (x y : Nat) (e : Execution), x < y → y < s.executions.length →
    s.executions[x]? = some e → e.cleaned = true
  /-- What is routed is the current execution of a wanted room, under the admission
  its start began under, and its stop has not begun. -/
  routed : ∀ x, s.routed = some x → ∃ k e, s.current = some k ∧
    (s.records k).execution = some x ∧ (s.records k).wanted = true ∧
    s.executions[x]? = some e ∧ e.generation = (s.records k).generation ∧ e.stopBegan = false
  /-- No execution is stopped while anything is routed. -/
  unroutedStop : ∀ (t : Nat) (k : Nat) (x : ExecId) (timeout : Option Nat),
    s.steps[t]? = some ⟨k, .stopping x timeout⟩ → s.routed = none

theorem Inv.ownsOne (inv : s.Inv a) : s.OwnsOne where
  oneStep t t' step step' found found' flies flies' := by
    have last := inv.busy_last t step found (StepPhase.busy_of_inFlight flies)
    have last' := inv.busy_last t' step' found' (StepPhase.busy_of_inFlight flies')
    omega
  recorded x e found unclean := by
    have kept := inv.kept x e found unclean
    refine ⟨e.record, ?_, kept⟩
    by_contra dead
    rw [(inv.dead e.record dead).2.1] at kept
    cases kept
  cleanedFirst x y e lt bound found := by
    cases unclean : e.cleaned with
    | true => rfl
    | false =>
      have newest := (inv.orderly x e found).2 unclean
      omega
  routed := inv.routed
  unroutedStop t k x timeout found := (inv.at_ t _ found).2.2.1

end Slot

/-- **Ownership.**  Whatever the signals and however the steps end, a room id has
one step in flight at most, owns each execution until its cleanup succeeded, and
routes only the current one. -/
theorem room_owns_one_execution (reached : (roomExecutions E).Reachable w) (roomId : String) :
    (w.slots roomId).OwnsOne :=
  (RoomExecutions.Inv.reachable reached roomId).ownsOne

/-- A room is admitted and served. -/
def servedEvents : List (RoomsEvent Nat) :=
  [.room "room" .requestAdmission, .room "room" (.runStep 0 .returned),
    .room "room" (.startEnded 0 .returned false), .room "room" (.stepDone 0)]

def servedWorld : RoomExecutions Nat := ((roomExecutions Nat).run {} servedEvents).getD {}

theorem servedWorld_reachable : (roomExecutions Nat).Reachable servedWorld :=
  ⟨{}, rfl, servedEvents, rfl⟩

theorem room_owns_one_execution_served :
    (servedWorld.slots "room").routed = some 0 ∧ (servedWorld.slots "room").OwnsOne :=
  ⟨rfl, room_owns_one_execution servedWorld_reachable "room"⟩

/-- A step taken with no steps left fails the convergence by the circuit breaker. -/
theorem exceeded_of_spent {s : Slot E} {k : Nat} (spent : (s.records k).stepsLeft = 0)
    (state : RoomState) (phase : StepPhase E) :
    .exceeded s.exceededError ∈ (s.takeStep k state phase).outcomes := by
  simp [Slot.takeStep, spent, Slot.fail, Slot.exceededError, Slot.setRoom]

/-- **The circuit breaker never trips.** -/
theorem circuit_breaker_unreachable (reached : (roomExecutions E).Reachable w) (roomId : String)
    (error : PyError) : .exceeded error ∉ (w.slots roomId).outcomes :=
  (RoomExecutions.Inv.reachable reached roomId).unexceeded error

/-- Three steps on one signal: a room whose start was cancelled after it routed is
retired and started again, and the owner closes meanwhile. -/
def tightEvents : List (RoomsEvent Nat) :=
  [.room "room" .requestAdmission, .room "room" (.runStep 0 .returned),
    .room "room" (.startEnded 0 .returned true), .room "room" (.resyncEnded 0 (.cancelled "")),
    .room "room" (.stepDone 0), .room "room" .converge,
    .room "room" (.runStep 1 .returned), .room "room" (.stopEnded 1 .returned true),
    .room "room" (.releaseEnded 1 .returned), .room "room" (.stepDone 1),
    .room "room" (.runStep 2 .returned), .close none, .room "room" (.startEnded 2 .returned false),
    .room "room" (.stepDone 2), .room "room" (.runStep 3 .returned),
    .room "room" (.stopEnded 3 .returned true), .room "room" (.releaseEnded 3 .returned),
    .room "room" (.stepDone 3)]

def tightWorld : RoomExecutions Nat := ((roomExecutions Nat).run {} tightEvents).getD {}

theorem circuit_breaker_unreachable_tight :
    ((tightWorld.slots "room").records 0).stepsLeft = 0 ∧
      .exceeded ⟨"CleanupIncompleteError", ""⟩ ∉ (tightWorld.slots "room").outcomes :=
  ⟨rfl, circuit_breaker_unreachable ⟨{}, rfl, tightEvents, rfl⟩ "room" _⟩

/-! ## Held events -/

/-- An execution's `start` and `on_event` succeed, and events are held only by
`AgentRuntime._on_room_event`. -/
def RoomSignal.calm : RoomSignal E → Bool
  | .hold _ => false
  | .startEnded _ outcome _ | .eventEnded _ outcome _ => outcome == .returned
  | _ => true

def RoomsEvent.calm : RoomsEvent E → Bool
  | .room _ signal => signal.calm
  | _ => true

/-- The runs in which no start and no delivery fails. -/
def calmRooms (E : Type) : Machine (RoomExecutions E) (RoomsEvent E) :=
  (roomExecutions E).restrict fun _ event => event.calm

namespace Slot

variable {a : Admission} {s s' : Slot E} {t k : Nat} {x : ExecId} {generation : Nat}

theorem Ledger.step (ledger : s.Ledger a) (inv : s.Inv a) {signal : RoomSignal E}
    (calm : signal.calm = true) (stepped : s.step a signal = some s') : s'.Ledger a := by
  cases signal with
  | admitRoom => cases stepped; exact ledger.admitRoom inv
  | requestAdmission => cases stepped; exact ledger.requestAdmission inv
  | hold event => cases calm
  | roomEvent event => cases stepped; exact ledger.roomEvent inv event
  | withdraw => cases stepped; exact ledger.withdraw inv
  | converge => cases stepped; exact ledger.converge inv
  | destroy timeout => cases stepped; exact ledger.destroy inv timeout
  | runStep t build => exact ledger.runStep stepped
  | cancelStep t message => exact ledger.cancelStep stepped
  | startEnded t outcome resyncs =>
    rw [show outcome = .returned by simpa [RoomSignal.calm] using calm] at stepped
    exact ledger.startEnded inv stepped
  | eventEnded t outcome resyncs =>
    rw [show outcome = .returned by simpa [RoomSignal.calm] using calm] at stepped
    exact ledger.eventEnded inv stepped
  | resyncEnded t outcome => exact ledger.resyncEnded stepped
  | stopEnded t outcome graceful => exact ledger.stopEnded stepped
  | releaseEnded t outcome => exact ledger.releaseEnded stepped
  | stepDone t => exact ledger.stepDone inv stepped

theorem Ledger.close (ledger : s.Ledger a) (timeout : Option Nat) : s.Ledger ⟨false, timeout⟩ := by
  refine { ledger with why := ?_ }
  intro item why member
  have justified := ledger.why item why member
  cases why with
  | discarded => exact .inr rfl
  | _ => exact justified

theorem Ledger.fresh (roomId : String) : Ledger a ({ roomId := roomId } : Slot E) where
  books := Accounted.empty
  tagged _ _ member := by cases member
  wanted _ some_ := absurd rfl some_
  unborn _ _ := rfl
  phases _ _ found := by cases found
  handed _ _ member := by cases member
  live _ _ member := by cases member
  before_live := List.Pairwise.nil
  why _ _ member := by cases member
  routed _ has := by cases has

end Slot

def RoomExecutions.Ledger (w : RoomExecutions E) : Prop :=
  ∀ roomId, (w.slots roomId).Ledger w.admission

theorem RoomExecutions.Ledger.step (ledger : w.Ledger) (inv : w.Inv) {event : RoomsEvent E}
    (calm : event.calm = true) (stepped : w.step event = some w') : w'.Ledger := by
  intro roomId
  cases event with
  | room id signal =>
    obtain ⟨s', moved, rfl⟩ := map_eq_some_iff.1 stepped
    show (update w.slots id s' roomId).Ledger w.admission
    by_cases same : roomId = id
    · subst same
      rw [update_self]
      exact (ledger roomId).step (inv roomId) calm moved
    · rw [update_of_ne same]
      exact ledger roomId
  | convergeUnserved =>
    cases stepped
    exact (ledger roomId).convergeUnserved (inv roomId)
  | close timeout =>
    cases stepped
    exact (ledger roomId).close timeout

theorem RoomExecutions.Ledger.reachable (reached : (calmRooms E).Reachable w) : w.Inv ∧ w.Ledger := by
  refine reached.invariant (P := fun w => w.Inv ∧ w.Ledger) ?_ ?_
  · rintro w rfl
    exact ⟨fun roomId => Slot.Inv.fresh roomId, fun roomId => Slot.Ledger.fresh roomId⟩
  · rintro w event w' ⟨inv, ledger⟩ stepped
    obtain ⟨calm, stepped⟩ := Machine.restrict_step stepped
    exact ⟨inv.step stepped, ledger.step inv calm stepped⟩

/-! ## A start that is let run drains the queue -/

/-- The ends of a start's awaits, when its calls succeed. -/
def Delivery (roomId : String) (t : Nat) (event : RoomsEvent E) : Prop :=
  ∃ resyncs, event = .room roomId (.startEnded t .returned resyncs) ∨
    event = .room roomId (.eventEnded t .returned resyncs)

theorem Delivery.calm {roomId : String} {t : Nat} {event : RoomsEvent E}
    (delivery : Delivery roomId t event) : event.calm = true := by
  obtain ⟨resyncs, rfl | rfl⟩ := delivery <;> rfl

/-- Some deliveries of step `t` lead to where `x` is routed. -/
def Drains (roomId : String) (t : Nat) (x : ExecId) (w : RoomExecutions E) : Prop :=
  ∃ events w', (∀ event ∈ events, Delivery roomId t event) ∧
    (calmRooms E).run w events = some w' ∧ (w'.slots roomId).routed = some x

/-- One delivery: it routes the execution, or it left less to hand over. -/
theorem Drains.after {roomId : String} {t k : Nat} {x : ExecId} {generation : Nat}
    {p : StepPhase E} {tail : List (Held E)} {delivered : Nat} {signal : RoomSignal E}
    (first : Delivery roomId t (.room roomId signal : RoomsEvent E))
    (moved : (w.slots roomId).step w.admission signal =
      some ((w.slots roomId).deliver w.admission t k x generation tail delivered false))
    (found : (w.slots roomId).steps[t]? = some ⟨k, p⟩)
    (stands : (w.slots roomId).stands w.admission k generation = true)
    (next : ∀ (w₁ : RoomExecutions E) (rest : List (Held E)) (n : Nat),
      (w₁.slots roomId).steps[t]? = some ⟨k, .delivering x generation rest n⟩ →
      (w₁.slots roomId).stands w₁.admission k generation = true →
      rest.length + ((w₁.slots roomId).records k).held.length <
        tail.length + ((w.slots roomId).records k).held.length → Drains roomId t x w₁) :
    Drains roomId t x w := by
  obtain ⟨w₁, eq⟩ : ∃ w₁ : RoomExecutions E, w₁ = { w with
      slots := update w.slots roomId
        ((w.slots roomId).deliver w.admission t k x generation tail delivered false) } := ⟨_, rfl⟩
  have here : w₁.slots roomId = (w.slots roomId).deliver w.admission t k x generation tail delivered false := by
    rw [eq]; exact update_self ..
  have same : w₁.admission = w.admission := by rw [eq]
  have calm : signal.calm = true := first.calm
  have stepped : (calmRooms E).step w (.room roomId signal) = some w₁ := by
    simp [calmRooms, Machine.restrict, RoomsEvent.calm, calm, roomExecutions, RoomExecutions.step, moved, eq]
  rcases Slot.deliver_progress (x := x) found stands tail delivered false with
    routed | ⟨rest, n, found', stands', less⟩
  · rw [← here] at routed
    refine ⟨[.room roomId signal], w₁, by simpa using first, ?_, routed⟩
    exact Machine.run_cons_eq_some.2 ⟨w₁, stepped, rfl⟩
  · rw [← here] at found' stands' less
    rw [← same] at stands'
    obtain ⟨events, w', deliveries, ran, routed⟩ := next w₁ rest n found' stands' less
    refine ⟨_ :: events, w', ?_, Machine.run_cons_eq_some.2 ⟨w₁, stepped, ran⟩, routed⟩
    intro event member
    rcases mem_cons.1 member with rfl | later
    · exact first
    · exact deliveries event later

end BandSdk.Rooms

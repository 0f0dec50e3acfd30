/-
# Rooms.Ledger -- what becomes of the events held for a room

`Ledger` is the invariant of the runs in which an execution's `start` and
`on_event` do not fail and events are held only while nothing is routed
(`AgentRuntime._on_room_event` holds them nowhere else).  Every event held is in
the queue or in the log, once (`books`); what the log says of it is tied to the
admission it was held under and to the executions.

The queue is the rest of the batch a start took, followed by what its record
still holds.
-/
import BandSdk.Rooms.Steps
import BandSdk.Theory.Queue

namespace BandSdk.Rooms

open BandSdk.Theory List Function LogEntry

variable {E : Type}

namespace LogEntry

/-- The number of the held event that left by this entry. -/
def gone : LogEntry E → Option Nat
  | .handed item _ | .dropped item _ => some item.seq
  | .live _ _ => none

def handedSeq : LogEntry E → Option Nat
  | .handed item _ => some item.seq
  | _ => none

def handedTo (x : ExecId) : LogEntry E → Bool
  | .handed _ y => y == x
  | _ => false

end LogEntry

namespace StepPhase

/-- What a delivery took from the queue and did not hand over yet. -/
def tail : StepPhase E → List (Held E)
  | .delivering _ _ tail _ => tail
  | _ => []

/-- A start that has not routed its execution. -/
def delivers : StepPhase E → Bool
  | .starting _ _ | .delivering _ _ _ _ => true
  | _ => false

theorem tail_of_created {p : StepPhase E} (created : p.created = true) : p.tail = [] := by
  cases p <;> first | rfl | cases created

theorem delivers_of_created {p : StepPhase E} (created : p.created = true) : p.delivers = false := by
  cases p <;> first | rfl | cases created

end StepPhase

namespace Slot

variable {a : Admission} {s s' : Slot E} {t k : Nat} {x : ExecId} {p p' : StepPhase E}
  {generation : Nat}

def batch (s : Slot E) : List (Held E) := s.steps.flatMap fun step => step.phase.tail

/-- What the registered record holds. -/
def holding (s : Slot E) : List (Held E) :=
  match s.current with
  | none => []
  | some k => (s.records k).held

def queued (s : Slot E) : List (Held E) := s.batch ++ s.holding

def handedCount (s : Slot E) (x : ExecId) : Nat := s.log.countP (LogEntry.handedTo x)

/-- The reason an event was dropped holds. -/
def Justified (a : Admission) (s : Slot E) (item : Held E) : Drop E → Prop
  | .evicted queue =>
    queue.length = maxHeldEvents ∧ queue.head? = some item ∧ (queue.map (·.seq)).Pairwise (· < ·) ∧
      ∃ later, later < s.arrivals ∧ ∀ other ∈ queue, other.seq < later
  | .flooded x => maxDeliverySteps ≤ s.handedCount x
  | .discarded => item.generation < (s.records item.record).generation ∨ a.accepting = false
  | .lost => False

/-- An execution its start still owns, `n` events after it began to deliver. -/
def Fresh (s : Slot E) (k : Nat) (x : ExecId) (generation n : Nat) : Prop :=
  (∃ e, s.executions[x]? = some e ∧ e.record = k ∧ e.generation = generation ∧ e.routed = false) ∧
    s.handedCount x = n ∧ generation ≤ (s.records k).generation

/-- What the ledger knows of a step at a phase. -/
def Delivers (s : Slot E) (k : Nat) : StepPhase E → Prop
  | .starting x generation => s.Fresh k x generation 0
  | .delivering x generation tail delivered =>
    s.Fresh k x generation (delivered + 1) ∧ (∀ item ∈ tail, item.record = k ∧ item.generation = generation) ∧
      (tail ≠ [] → (s.records k).generation = generation → (s.records k).wanted = true)
  | _ => True

structure Ledger (a : Admission) (s : Slot E) : Prop where
  books : Accounted (s.log.filterMap LogEntry.handedSeq) (s.log.filterMap LogEntry.gone)
    (s.queued.map (·.seq)) s.arrivals
  tagged : ∀ k, ∀ item ∈ (s.records k).held, item.record = k ∧ item.generation = (s.records k).generation
  wanted : ∀ k, (s.records k).held ≠ [] → (s.records k).wanted = true
  unborn : ∀ k, s.born ≤ k → (s.records k).generation = 0
  phases : ∀ (t : Nat) (step : Step E), s.steps[t]? = some step → s.Delivers step.record step.phase
  handed : ∀ item x, .handed item x ∈ s.log →
    ∃ e, s.executions[x]? = some e ∧ e.record = item.record ∧ e.generation = item.generation
  live : ∀ event x, .live event x ∈ s.log → ∃ e, s.executions[x]? = some e ∧ e.routed = true
  before_live : s.log.Pairwise fun earlier later =>
    ∀ event item x, earlier = .live event x → later ≠ .handed item x
  why : ∀ item why, .dropped item why ∈ s.log → s.Justified a item why
  routed : ∀ x, s.routed = some x → s.queued = [] ∧ ∃ e, s.executions[x]? = some e ∧ e.routed = true

/-! ## Frames -/

/-- Each execution of `s` is one of `s'`, as far as the ledger reads it. -/
def Continues (s s' : Slot E) : Prop :=
  ∀ (x : Nat) (e : Execution), s.executions[x]? = some e → ∃ e', s'.executions[x]? = some e' ∧
    e'.record = e.record ∧ e'.generation = e.generation ∧ e'.routed = e.routed

/-- A record as the ledger reads it: its admission at least as wanted. -/
def Keeps (room room' : Room E) : Prop :=
  room'.held = room.held ∧ room'.generation = room.generation ∧ (room.wanted = true → room'.wanted = true)

theorem Keeps.refl (room : Room E) : Keeps room room := ⟨rfl, rfl, id⟩

theorem Continues.of_eq (same : s'.executions = s.executions) : s.Continues s' := fun x e found =>
  ⟨e, by rw [same]; exact found, rfl, rfl, rfl⟩

/-- No admission comes back: a withdrawn one got a new generation. -/
def Outlasts (room room' : Room E) : Prop :=
  room.generation ≤ room'.generation ∧
    (room'.generation = room.generation → room.wanted = true → room'.wanted = true)

theorem Keeps.outlasts {room room' : Room E} (keeps : Keeps room room') : Outlasts room room' :=
  ⟨Nat.le_of_eq keeps.2.1.symm, fun _ => keeps.2.2⟩

/-- The records after a change of the queues: no admission came back, and what is held is
tagged and wanted. -/
structure Requeued (s s' : Slot E) : Prop where
  outlasts : ∀ k, Outlasts (s.records k) (s'.records k)
  unborn : ∀ k, s.born ≤ k → (s'.records k).generation = (s.records k).generation
  tagged : ∀ k, ∀ item ∈ (s'.records k).held, item.record = k ∧ item.generation = (s'.records k).generation
  wanted : ∀ k, (s'.records k).held ≠ [] → (s'.records k).wanted = true

/-- A write to one record leaves the others as they were. -/
theorem Ledger.requeued (ledger : s.Ledger a) {room : Room E}
    (records : s'.records = Function.update s.records k room) (outlasts : Outlasts (s.records k) room)
    (unborn : s.born ≤ k → room.generation = (s.records k).generation)
    (tagged : ∀ item ∈ room.held, item.record = k ∧ item.generation = room.generation)
    (wanted : room.held ≠ [] → room.wanted = true) : s.Requeued s' := by
  have here : s'.records k = room := by rw [records, update_self]
  have there : ∀ j, j ≠ k → s'.records j = s.records j := fun j other => by
    rw [records, update_of_ne other]
  refine ⟨fun j => ?_, fun j le => ?_, fun j item member => ?_, fun j some_ => ?_⟩
  all_goals rcases eq_or_ne j k with rfl | other
  · rw [here]; exact outlasts
  · rw [there j other]; exact (Keeps.refl _).outlasts
  · rw [here]; exact unborn le
  · rw [there j other]
  · rw [here] at member ⊢; exact tagged item member
  · rw [there j other] at member ⊢; exact ledger.tagged j item member
  · rw [here] at some_ ⊢; exact wanted some_
  · rw [there j other] at some_ ⊢; exact ledger.wanted j some_

theorem Delivers.frame (delivers : s.Delivers k p)
    (counts : ∀ x, s'.handedCount x = s.handedCount x) (continues : s.Continues s')
    (outlasts : Outlasts (s.records k) (s'.records k)) : s'.Delivers k p := by
  have fresh : ∀ {x generation n}, s.Fresh k x generation n → s'.Fresh k x generation n := by
    rintro x generation n ⟨⟨e, found, record, began, unrouted⟩, count, le⟩
    obtain ⟨e', found', record', began', routed'⟩ := continues x e found
    exact ⟨⟨e', found', record'.trans record, began'.trans began, routed'.trans unrouted⟩,
      (counts x).trans count, Nat.le_trans le outlasts.1⟩
  cases p with
  | starting x generation => exact fresh delivers
  | delivering x generation tail delivered =>
    refine ⟨fresh delivers.1, delivers.2.1, fun some_ same => ?_⟩
    have le := delivers.1.2.2
    have unchanged : (s.records k).generation = generation := by
      have := outlasts.1
      omega
    exact outlasts.2 (by omega) (delivers.2.2 some_ unchanged)
  | _ => trivial

variable (items : List (Held E)) {room : Room E} (why : Drop E)

theorem filterMap_gone_dropped :
    (items.map (LogEntry.dropped · why)).filterMap LogEntry.gone = items.map (·.seq) := by
  induction items with
  | nil => rfl
  | cons item rest ih => simp [gone, ih]

theorem filterMap_handed_dropped : (items.map (LogEntry.dropped · why)).filterMap LogEntry.handedSeq = [] := by
  simp [filterMap_map, comp_def, handedSeq]

theorem countP_dropped (x : ExecId) :
    (items.map (LogEntry.dropped · why)).countP (LogEntry.handedTo x) = 0 := by
  rw [countP_eq_zero]
  intro entry member
  obtain ⟨item, -, rfl⟩ := mem_map.1 member
  simp [handedTo]

/-- **Events leave the queue undelivered**, for a reason that holds afterwards;
`s'` may also have withdrawn an admission and taken a route off. -/
theorem Ledger.dropped (ledger : s.Ledger a) {before dropped after : List (Held E)} {why : Drop E}
    (queue : s.queued = before ++ dropped ++ after) (queue' : s'.queued = before ++ after)
    (log : s'.log = s.log ++ dropped.map (.dropped · why)) (arrivals : s'.arrivals = s.arrivals)
    (born : s.born ≤ s'.born) (continues : s.Continues s')
    (routed : s'.routed = s.routed ∨ s'.routed = none) (requeued : s.Requeued s')
    (phases : ∀ (t : Nat) (step : Step E), s'.steps[t]? = some step → s'.Delivers step.record step.phase)
    (justified : ∀ item ∈ dropped, s'.Justified a item why) : s'.Ledger a := by
  have counts : ∀ x, s'.handedCount x = s.handedCount x := fun x => by
    rw [handedCount, handedCount, log, countP_append, countP_dropped, Nat.add_zero]
  refine {
    books := ?_, tagged := requeued.tagged, wanted := requeued.wanted, unborn := ?_, phases := phases
    handed := ?_
    live := ?_, before_live := ?_, why := ?_, routed := ?_ }
  · rw [log, filterMap_append, filterMap_append, filterMap_gone_dropped,
      filterMap_handed_dropped, append_nil, queue', arrivals, map_append]
    have books := ledger.books
    rw [queue, map_append, map_append] at books
    exact books.drop
  · intro k le
    have le := Nat.le_trans born le
    exact (requeued.unborn k le).trans (ledger.unborn k le)
  · intro item x member
    rw [log] at member
    rcases mem_append.1 member with old | new
    · obtain ⟨e, found, record, began⟩ := ledger.handed item x old
      obtain ⟨e', found', record', began', -⟩ := continues x e found
      exact ⟨e', found', record'.trans record, began'.trans began⟩
    · obtain ⟨_, -, contra⟩ := mem_map.1 new
      cases contra
  · intro event x member
    rw [log] at member
    rcases mem_append.1 member with old | new
    · obtain ⟨e, found, route⟩ := ledger.live event x old
      obtain ⟨e', found', -, -, route'⟩ := continues x e found
      exact ⟨e', found', route'.trans route⟩
    · obtain ⟨_, -, contra⟩ := mem_map.1 new
      cases contra
  · rw [log, pairwise_append]
    refine ⟨ledger.before_live, ?_, ?_⟩
    · refine List.Pairwise.map _ (R := fun _ _ => True) (fun _ _ _ => nofun) ?_
      exact pairwise_of_forall fun _ _ => trivial
    · intro earlier _ later new event item x _ contra
      obtain ⟨_, -, eq⟩ := mem_map.1 new
      rw [← eq] at contra
      cases contra
  · intro item why' member
    rw [log] at member
    rcases mem_append.1 member with old | new
    · have was := ledger.why item why' old
      cases why' with
      | evicted queue =>
        obtain ⟨full, first, sorted, later, lt, below⟩ := was
        exact ⟨full, first, sorted, later, by rw [arrivals]; exact lt, below⟩
      | flooded x =>
        show maxDeliverySteps ≤ s'.handedCount x
        rw [counts x]
        exact was
      | discarded => exact was.imp (fun lt => Nat.lt_of_lt_of_le lt (requeued.outlasts _).1) id
      | lost => exact was
    · obtain ⟨item', here, eq⟩ := mem_map.1 new
      cases eq
      exact justified item here
  · intro x has
    rcases routed with same | none_
    · rw [same] at has
      obtain ⟨empty, e, found, route⟩ := ledger.routed x has
      obtain ⟨e', found', -, -, route'⟩ := continues x e found
      refine ⟨?_, e', found', route'.trans route⟩
      rw [queue] at empty
      rw [queue']
      simp only [append_eq_nil_iff] at empty ⊢
      exact ⟨empty.1.1, empty.2⟩
    · rw [none_] at has
      cases has

theorem Ledger.frame (ledger : s.Ledger a) (records : ∀ k, Keeps (s.records k) (s'.records k))
    (log : s'.log = s.log) (arrivals : s'.arrivals = s.arrivals) (born : s.born ≤ s'.born)
    (queued : s'.queued = s.queued) (continues : s.Continues s')
    (routed : s'.routed = s.routed ∨ s'.routed = none)
    (steps : ∀ (t : Nat) (step : Step E), s'.steps[t]? = some step →
      s.steps[t]? = some step ∨ step.phase.delivers = false) : s'.Ledger a := by
  have queue : s.queued = s.queued ++ [] ++ [] := by simp
  have queue' : s'.queued = s.queued ++ [] := by rw [queued, append_nil]
  have log' : s'.log = s.log ++ ([] : List (Held E)).map (.dropped · .lost) := by simp [log]
  have requeued : s.Requeued s' := by
    refine ⟨fun k => (records k).outlasts, fun k _ => (records k).2.1, fun k item member => ?_,
      fun k some_ => ?_⟩
    · rw [(records k).1] at member
      rw [(records k).2.1]
      exact ledger.tagged k item member
    · rw [(records k).1] at some_
      exact (records k).2.2 (ledger.wanted k some_)
  refine ledger.dropped queue queue' log' arrivals born continues routed requeued ?_ nofun
  · intro t step found
    rcases steps t step found with old | quiet
    · exact (ledger.phases t step old).frame (fun x => by rw [handedCount, log]; rfl) continues
        (records step.record).outlasts
    · cases phase : step.phase <;> rw [phase] at quiet <;> trivial

theorem keeps_setRoom (keeps : Keeps (s.records k) room) (j : Nat) :
    Keeps (s.records j) ((s.setRoom k room).records j) := by
  by_cases same : j = k
  · subst same
    rw [records_setRoom]
    exact keeps
  · rw [records_setRoom_of_ne same]
    exact Keeps.refl _

theorem holding_eq (current : s'.current = s.current)
    (records : ∀ k, Keeps (s.records k) (s'.records k)) : s'.holding = s.holding := by
  unfold holding
  rw [current]
  cases s.current with
  | none => rfl
  | some k => exact (records k).1

theorem holding_of_current (registered : s.current = some k) : s.holding = (s.records k).held := by
  simp [holding, registered]

theorem holding_setRoom (registered : s.current = some k) (room : Room E) :
    (s.setRoom k room).holding = room.held := by
  rw [holding_of_current (s := s.setRoom k room) registered, records_setRoom]

section

variable (ledger : s.Ledger a)
include ledger

theorem Ledger.write (records : s'.records = Function.update s.records k room)
    (keeps : Keeps (s.records k) room) (log : s'.log = s.log)
    (arrivals : s'.arrivals = s.arrivals) (born : s'.born = s.born)
    (current : s'.current = s.current) (batch : s'.batch = s.batch) (continues : s.Continues s')
    (routed : s'.routed = s.routed ∨ s'.routed = none)
    (steps : ∀ (t : Nat) (step : Step E), s'.steps[t]? = some step →
      s.steps[t]? = some step ∨ step.phase.delivers = false) : s'.Ledger a := by
  have kept : ∀ j, Keeps (s.records j) (s'.records j) := by
    intro j
    rw [records]
    by_cases same : j = k
    · subst same
      rw [update_self]
      exact keeps
    · rw [update_of_ne same]
      exact Keeps.refl _
  refine ledger.frame kept log arrivals (Nat.le_of_eq born.symm) ?_ continues routed steps
  unfold queued
  rw [batch, holding_eq current kept]

open Continues

theorem Ledger.setRoom (keeps : Keeps (s.records k) room) :
    (s.setRoom k room).Ledger a :=
  ledger.write rfl keeps rfl rfl rfl rfl rfl (of_eq rfl) (.inl rfl) fun _ _ => .inl

theorem Ledger.unroute : Ledger a { s with routed := none } :=
  ledger.frame (fun _ => Keeps.refl _) rfl rfl (Nat.le_refl _) rfl (of_eq rfl) (.inr rfl)
    fun _ _ => .inl

/-! ## Signals -/

theorem Ledger.settle (k : Nat) : (s.settle k).Ledger a := by
  unfold Slot.settle
  split
  · exact ledger
  · exact ledger.write rfl ⟨rfl, rfl, id⟩ rfl rfl rfl rfl rfl (of_eq rfl) (.inl rfl)
      fun _ _ => .inl

theorem Ledger.fail (k : Nat) (outcome : ConvergenceOutcome) : (s.fail k outcome).Ledger a := by
  unfold Slot.fail
  split
  · exact ledger
  · exact ledger.write rfl ⟨rfl, rfl, id⟩ rfl rfl rfl rfl rfl (of_eq rfl) (.inl rfl)
      fun _ _ => .inl

theorem Ledger.takeStep (k : Nat) (state : RoomState)
    (created : p.created = true) : (s.takeStep k state p).Ledger a := by
  have converges : (s.setRoom k { s.records k with
      convergence := some ((s.records k).convergence.getD true) }).Ledger a :=
    ledger.setRoom ⟨rfl, rfl, id⟩
  unfold Slot.takeStep
  dsimp only
  split
  · exact converges.fail k _
  refine converges.write rfl ⟨rfl, rfl, id⟩ rfl rfl rfl rfl ?_ (of_eq rfl) (.inl rfl) ?_
  · simp only [batch, flatMap_append, flatMap_singleton]
    rw [StepPhase.tail_of_created created]
    exact append_nil _
  · intro t step found
    rcases getElem?_append_singleton found with old | ⟨-, rfl⟩
    · exact .inl old
    · exact .inr (StepPhase.delivers_of_created created)

theorem Ledger.emptied (registered : s.current = some k)
    (records : s'.records = Function.update s.records k room) (held : room.held = [])
    (outlasts : Outlasts (s.records k) room)
    (log : s'.log = s.log ++ (s.records k).held.map (.dropped · .discarded))
    (arrivals : s'.arrivals = s.arrivals) (born : s'.born = s.born) (old : k < s.born)
    (current : s'.current = s.current ∨ s'.current = none) (steps : s'.steps = s.steps)
    (executions : s'.executions = s.executions) (routed : s'.routed = s.routed ∨ s'.routed = none)
    (gone : (s.records k).held ≠ [] → (s.records k).generation < room.generation ∨
      a.accepting = false) : s'.Ledger a := by
  have here : s'.records k = room := by rw [records, update_self]
  have requeued : s.Requeued s' :=
    ledger.requeued records outlasts (by omega) (by simp [held]) (by simp [held])
  have counts : ∀ x, s'.handedCount x = s.handedCount x := fun x => by
    rw [handedCount, handedCount, log, countP_append, countP_dropped, Nat.add_zero]
  have queue : s.queued = s.batch ++ (s.records k).held ++ [] := by
    rw [append_nil, queued, holding_of_current registered]
  have queue' : s'.queued = s.batch ++ [] := by
    have batch : s'.batch = s.batch := by rw [Slot.batch, steps]; rfl
    have holding : s'.holding = [] := by
      rcases current with same | none_
      · rw [holding_of_current (same.trans registered), here, held]
      · simp [Slot.holding, none_]
    rw [queued, batch, holding]
  refine ledger.dropped queue queue' log arrivals (Nat.le_of_eq born.symm)
    (of_eq executions) routed requeued ?_ ?_
  · intro t step found
    rw [steps] at found
    exact (ledger.phases t step found).frame counts (of_eq executions) (requeued.outlasts _)
  · intro item member
    have tag := ledger.tagged k item member
    refine (gone (ne_nil_of_mem member)).imp (fun lt => ?_) id
    rw [tag.1, tag.2, here]
    exact lt

section

variable (lt : s.current = some k → k < s.born)
include lt

theorem Ledger.forget (unadmitted : admits a (s.records k) = false) : (s.forget k).Ledger a := by
  unfold Slot.forget
  split
  · rename_i registered
    refine Ledger.settle ?_ k
    refine ledger.emptied registered rfl rfl ⟨Nat.le_refl _, fun _ => id⟩ rfl rfl rfl
      (lt registered) (.inr rfl) rfl rfl (.inl rfl) fun some_ => .inr ?_
    simpa [admits, ledger.wanted k some_] using unadmitted
  · exact ledger.settle k

theorem Ledger.advance : (s.advance a k).Ledger a := by
  unfold Slot.advance
  split
  · exact ledger
  · exact ledger
  · exact ledger.settle k
  · exact ledger.forget lt ‹_›
  · exact ledger.takeStep k _ rfl
  · exact ledger.unroute.takeStep k _ rfl

theorem Ledger.signal : (s.signal a k).Ledger a := by
  refine Ledger.advance (ledger.setRoom ?_) lt
  exact ⟨rfl, rfl, id⟩

end

section

variable (inv : s.Inv a)
include inv

theorem Ledger.requestAdmission : (s.requestAdmission a).Ledger a := by
  unfold Slot.requestAdmission
  split
  · rename_i k registered
    refine Ledger.signal (ledger.setRoom ?_) (inv.current_lt k)
    exact ⟨rfl, rfl, fun _ => rfl⟩
  · rename_i none_
    -- the new record was never written: its generation is still zero
    have fresh : Keeps (s.records s.born) { wanted := true } := by
      refine ⟨?_, (ledger.unborn s.born (Nat.le_refl _)).symm, fun _ => rfl⟩
      refine (inv.dead s.born fun registered => ?_).2.2.2.symm
      rw [none_] at registered
      cases registered
    refine Ledger.signal ?_ fun _ => Nat.lt_succ_self _
    refine ledger.frame (keeps_setRoom fresh) rfl rfl (Nat.le_succ _) ?_ (of_eq rfl)
      (.inl rfl) fun _ _ => .inl
    show s.batch ++ ((s.setRoom s.born { wanted := true }).records s.born).held = s.batch ++ s.holding
    rw [records_setRoom]
    simp [Slot.holding, none_]

theorem Ledger.admitRoom : (s.admitRoom a).Ledger a := by
  unfold Slot.admitRoom
  split
  · exact ledger
  · exact ledger.requestAdmission inv

theorem Ledger.converge : (s.converge a).Ledger a := by
  unfold Slot.converge
  split
  · exact ledger
  · exact ledger.signal (inv.current_lt _)

theorem Ledger.convergeUnserved : (s.convergeUnserved a).Ledger a := by
  unfold Slot.convergeUnserved
  split
  · exact ledger
  · exact ledger.converge inv

theorem Ledger.fence (registered : s.current = some k) : (s.fence k).Ledger a := by
  refine ledger.emptied registered rfl rfl ⟨Nat.le_succ _, fun same => ?_⟩ rfl rfl rfl
    (inv.current_lt k registered) (.inl rfl) rfl rfl (.inr rfl) fun _ => .inl (Nat.lt_succ_self _)
  exact absurd same (Nat.succ_ne_self _)

theorem Ledger.withdraw : (s.withdraw a).Ledger a := by
  unfold Slot.withdraw
  split
  · exact ledger
  rename_i k registered
  split
  · exact ledger
  · exact (ledger.fence inv registered).signal (inv.current_lt k)

theorem Ledger.destroy (timeout : Option Nat) : (s.destroy a timeout).Ledger a := by
  unfold Slot.destroy
  split
  · exact ledger
  rename_i k registered
  refine Ledger.signal ((ledger.fence inv registered).setRoom ?_) (inv.current_lt k)
  exact ⟨rfl, rfl, id⟩

/-! ## Room events -/

omit inv in
/-- An event is held behind all others. -/
theorem Ledger.arrived (registered : s.current = some k)
    (unrouted : s.routed = none) (wanted : (s.records k).wanted = true) (old : k < s.born)
    (item : Held E) (tag : item.record = k ∧ item.generation = (s.records k).generation)
    (number : item.seq = s.arrivals) :
    Ledger a { s.setRoom k { s.records k with held := (s.records k).held ++ [item] } with
      arrivals := s.arrivals + 1 } := by
  have requeued : s.Requeued { s.setRoom k { s.records k with held := (s.records k).held ++ [item] } with
      arrivals := s.arrivals + 1 } := by
    refine ledger.requeued rfl ⟨Nat.le_refl _, fun _ => id⟩ (fun _ => rfl) (fun other member => ?_) fun _ => wanted
    rcases mem_concat member with earlier | rfl
    · exact ledger.tagged k other earlier
    · exact tag
  have queue : ({ s.setRoom k { s.records k with held := (s.records k).held ++ [item] } with
      arrivals := s.arrivals + 1 } : Slot E).queued = s.queued ++ [item] := by
    show s.batch ++ (s.setRoom k _).holding = _
    rw [holding_setRoom registered, queued, holding_of_current registered, append_assoc]
  refine {
    books := ?_, tagged := requeued.tagged, wanted := requeued.wanted, unborn := ?_, phases := ?_
    handed := ledger.handed, live := ledger.live, before_live := ledger.before_live, why := ?_, routed := ?_ }
  · rw [queue, map_append, map_singleton, number]
    exact ledger.books.arrive
  · exact fun j le => (requeued.unborn j le).trans (ledger.unborn j le)
  · intro t step found
    exact (ledger.phases t step found).frame (fun _ => rfl) (of_eq rfl)
      (requeued.outlasts step.record)
  · intro other why member
    have justified := ledger.why other why member
    cases why with
    | evicted queue =>
      obtain ⟨full, first, sorted, later, lt, below⟩ := justified
      exact ⟨full, first, sorted, later, Nat.lt_succ_of_lt lt, below⟩
    | flooded x | lost => exact justified
    | discarded =>
      exact justified.imp (fun lt => Nat.lt_of_lt_of_le lt (requeued.outlasts other.record).1) id
  · intro x has
    have has : s.routed = some x := has
    rw [unrouted] at has
    cases has

omit inv in
theorem Ledger.evicted (registered : s.current = some k)
    (old : k < s.born) {oldest item : Held E} {rest : List (Held E)}
    (held : (s.records k).held = oldest :: rest ++ [item]) (full : (oldest :: rest).length = maxHeldEvents) :
    Ledger a ((s.record [.dropped oldest (.evicted (oldest :: rest))]).setRoom k
      { s.records k with held := rest ++ [item] }) := by
  have queue : s.queued = s.batch ++ [oldest] ++ (rest ++ [item]) := by
    rw [queued, holding_of_current registered, held]
    simp
  have queue' : ((s.record [.dropped oldest (.evicted (oldest :: rest))]).setRoom k
      { s.records k with held := rest ++ [item] }).queued = s.batch ++ (rest ++ [item]) := by
    show s.batch ++ ((s.record _).setRoom k _).holding = _
    rw [holding_setRoom (s := s.record _) registered]
  have requeued : s.Requeued ((s.record [.dropped oldest (.evicted (oldest :: rest))]).setRoom k
      { s.records k with held := rest ++ [item] }) := by
    refine ledger.requeued rfl ⟨Nat.le_refl _, fun _ => id⟩ (fun _ => rfl) (fun other member => ?_) fun _ => ?_
    · exact ledger.tagged k other (by rw [held]; exact mem_cons_of_mem _ member)
    · exact ledger.wanted k (by rw [held]; exact nofun)
  have sorted : ((oldest :: rest ++ [item]).map (·.seq)).Pairwise (· < ·) := by
    have := ledger.books.ordered
    rw [queued, holding_of_current registered, held, map_append] at this
    exact (pairwise_append.1 (pairwise_append.1 this).2.1).2.1
  refine ledger.dropped queue queue' rfl rfl (Nat.le_refl _) (of_eq rfl) (.inl rfl) requeued ?_ ?_
  · intro t step found
    refine (ledger.phases t step found).frame (fun x => ?_) (of_eq rfl) (requeued.outlasts _)
    show (s.log ++ [LogEntry.dropped oldest (.evicted (oldest :: rest))]).countP _ = _
    simp [handedCount, LogEntry.handedTo]
  · intro other member
    rw [mem_singleton.1 member]
    rw [map_append, pairwise_append] at sorted
    refine ⟨full, rfl, sorted.1, item.seq, ?_, fun other member => ?_⟩
    · refine ledger.books.lt_of_queued (mem_map_of_mem (f := (·.seq)) (a := item) ?_)
      rw [queue]
      simp
    · exact sorted.2.2 other.seq (mem_map_of_mem member) item.seq (by simp)

theorem Ledger.hold (unrouted : s.routed = none) (event : E) : (s.hold a event).Ledger a := by
  unfold Slot.hold
  split
  · exact ledger
  rename_i k registered
  dsimp only
  split
  · exact ledger
  rename_i unwanted
  have wanted : (s.records k).wanted = true := by simpa using unwanted
  have old := inv.current_lt k registered
  have arrived := ledger.arrived registered unrouted wanted old
    ⟨k, (s.records k).generation, s.arrivals, event⟩ ⟨rfl, rfl⟩ rfl
  refine Ledger.signal ?_ (inv.current_lt k)
  by_cases full : (s.records k).held.length = maxHeldEvents
  · rw [if_pos full, if_pos full]
    cases shape : (s.records k).held with
    | nil => rw [shape] at full; cases full
    | cons oldest rest =>
      have evicted := arrived.evicted (k := k) registered old
        (by rw [records_setRoom, shape]) (by rw [← shape]; exact full)
      simp only [Slot.setRoom, Slot.record, update_self, update_idem]
        at evicted ⊢
      exact evicted
  · rw [if_neg full, if_neg full]
    simpa [Slot.setRoom, Slot.record] using arrived

theorem Ledger.roomEvent (event : E) : (s.roomEvent a event).Ledger a := by
  unfold Slot.roomEvent
  split
  · rename_i x routed
    obtain ⟨empty, e, found, route⟩ := ledger.routed x routed
    have counts : ∀ y, (s.record [.live event x]).handedCount y = s.handedCount y := fun y => by
      show (s.log ++ [LogEntry.live event x]).countP _ = s.log.countP _
      simp [LogEntry.handedTo]
    refine { ledger with books := ?_, phases := ?_, handed := ?_, live := ?_, before_live := ?_, why := ?_ }
    · show Accounted ((s.log ++ _).filterMap _) ((s.log ++ _).filterMap _) _ _
      simp only [filterMap_append, filterMap_cons, handedSeq, gone, filterMap_nil, append_nil]
      exact ledger.books
    · intro t step present
      exact (ledger.phases t step present).frame counts (of_eq rfl) (Keeps.refl _).outlasts
    · intro item y member
      rcases mem_append.1 member with old | new
      · exact ledger.handed item y old
      · cases mem_singleton.1 new
    · intro event' y member
      rcases mem_append.1 member with old | new
      · exact ledger.live event' y old
      · cases mem_singleton.1 new
        exact ⟨e, found, route⟩
    · refine pairwise_append.2 ⟨ledger.before_live, pairwise_singleton .., ?_⟩
      intro earlier _ later new event' item y _ contra
      rw [mem_singleton.1 new] at contra
      cases contra
    · intro item why member
      rcases mem_append.1 member with old | new
      · have justified := ledger.why item why old
        cases why with
        | flooded y =>
          show maxDeliverySteps ≤ _
          rw [counts y]
          exact justified
        | _ => exact justified
      · cases mem_singleton.1 new
  · rename_i unrouted
    exact ledger.hold inv unrouted event

end

end

end Slot

end BandSdk.Rooms

/-
# Rooms.Invariant -- what one room id's slot keeps

`At` says what holds while a step task is at each of its awaits, `Budgeted` how
many steps a room at rest may still take before the next signal, and `Control`
that at most the last step task is unfinished and belongs to the registered
record.  `Owned` ties executions to records: one not cleaned up is recorded, and
only the registered record's execution is routed.

A step that failed but was not reported still holds its room (`busy`); one that
returned does not, so a signal may overtake its done callback.
-/
import BandSdk.Rooms.Model
import BandSdk.Theory.Lists
import Mathlib.Tactic.Common

namespace BandSdk.Rooms

open BandSdk.Theory Function

variable {E : Type}

namespace StepPhase

/-- The task exists and its coroutine has not run. -/
def created : StepPhase E → Bool
  | .startCreated | .retireCreated _ => true
  | _ => false

/-- The task runs, or failed and was not reported. -/
def busy : StepPhase E → Bool
  | .finished outcome => (Retention.taskFailure outcome).isSome
  | .reported => false
  | _ => true

end StepPhase

namespace Slot

variable {a : Admission} {s s' : Slot E}

/-- What a room at rest needs left for the steps it may still take. -/
def Budgeted (a : Admission) (room : Room E) : Prop :=
  (room.state = .serving → 1 ≤ room.stepsLeft) ∧
    (room.state = .idle → room.execution ≠ none →
      1 ≤ room.stepsLeft ∧ (3 ≤ room.stepsLeft ∨ admits a room = false)) ∧
    (room.state = .idle → room.execution = none → 2 ≤ room.stepsLeft ∨ admits a room = false)

/-- The execution a running start owns: its generation, neither routed nor
stopped yet. -/
def Under (s : Slot E) (x : ExecId) (generation : Nat) : Prop :=
  ∃ e, s.executions[x]? = some e ∧ e.generation = generation ∧ e.stopBegan = false

/-- What holds while a step of record `k` is at a phase. -/
def At (a : Admission) (s : Slot E) (k : Nat) : StepPhase E → Prop
  | .startCreated =>
    (s.records k).state = .starting ∧ (s.records k).execution = none ∧ 1 ≤ (s.records k).stepsLeft
  | .starting x generation | .delivering x generation _ _ =>
    (s.records k).state = .starting ∧ (s.records k).execution = some x ∧
      s.Under x generation ∧ 1 ≤ (s.records k).stepsLeft ∧
      (generation ≠ (s.records k).generation → 3 ≤ (s.records k).stepsLeft)
  | .resyncing x =>
    (s.records k).state = .starting ∧ (s.records k).execution = some x ∧
      1 ≤ (s.records k).stepsLeft ∧ (s.routed = some x ∨ 3 ≤ (s.records k).stepsLeft)
  | .retireCreated x | .stopping x _ =>
    (s.records k).state = .retiring ∧ (s.records k).execution = some x ∧ s.routed = none ∧
      (2 ≤ (s.records k).stepsLeft ∨ admits a (s.records k) = false)
  | .releasing x _ =>
    (s.records k).state = .retiring ∧ (s.records k).execution = some x ∧ s.routed = none ∧
      (2 ≤ (s.records k).stepsLeft ∨ admits a (s.records k) = false) ∧
      ∃ e, s.executions[x]? = some e ∧ e.stopped = true
  | .finished outcome =>
    if (Retention.taskFailure outcome).isSome then
      ((s.records k).state = .starting ∧ 1 ≤ (s.records k).stepsLeft) ∨ (s.records k).state = .retiring
    else Budgeted a (s.records k)
  | .reported => True

structure Control (a : Admission) (s : Slot E) : Prop where
  at_ : ∀ (t : Nat) (step : Step E), s.steps[t]? = some step → s.At a step.record step.phase
  busy_current : ∀ (t : Nat) (step : Step E), s.steps[t]? = some step →
    step.phase.busy = true → s.current = some step.record
  busy_last : ∀ (t : Nat) (step : Step E), s.steps[t]? = some step →
    step.phase.busy = true → t + 1 = s.steps.length
  overtaken : ∀ (t t' : Nat) (step step' : Step E), s.steps[t]? = some step →
    s.steps[t']? = some step' → step.record = step'.record → step.phase.busy = false →
      step.phase ≠ .reported → step'.phase.busy = true → step'.phase.created = true
  step_lt : ∀ (t : Nat) (step : Step E), s.steps[t]? = some step → step.record < s.born
  current_lt : ∀ k, s.current = some k → k < s.born
  dead : ∀ k, s.current ≠ some k → (s.records k).state = .idle ∧ (s.records k).execution = none ∧
      admits a (s.records k) = false ∧ (s.records k).held = []
  unexceeded : ∀ error, .exceeded error ∉ s.outcomes

structure Owned (s : Slot E) : Prop where
  recorded : ∀ k x, (s.records k).execution = some x →
    ∃ e, s.executions[x]? = some e ∧ e.record = k ∧ e.cleaned = false
  kept : ∀ (x : Nat) (e : Execution), s.executions[x]? = some e → e.cleaned = false →
    (s.records e.record).execution = some x
  serving : ∀ k, (s.records k).state = .serving → (s.records k).execution ≠ none
  routed : ∀ x, s.routed = some x → ∃ k e, s.current = some k ∧
    (s.records k).execution = some x ∧ (s.records k).wanted = true ∧
    s.executions[x]? = some e ∧ e.generation = (s.records k).generation ∧ e.stopBegan = false
  /-- An execution is stopped before it is released, and only the newest is not
  cleaned up. -/
  orderly : ∀ (x : Nat) (e : Execution), s.executions[x]? = some e →
    (e.released = true → e.stopped = true) ∧ (e.cleaned = false → x + 1 = s.executions.length)

structure Inv (a : Admission) (s : Slot E) : Prop extends Control a s, Owned s

/-! ## Frames -/

/-- The fields of a record that the invariant reads, the queue apart. -/
def Alike (room room' : Room E) : Prop :=
  room'.wanted = room.wanted ∧ room'.generation = room.generation ∧ room'.state = room.state ∧
    room'.execution = room.execution ∧ room'.stepsLeft = room.stepsLeft

theorem Budgeted.alike {room room' : Room E} (alike : Alike room room')
    (budget : Budgeted a room) : Budgeted a room' := by
  obtain ⟨wanted, -, state, execution, left⟩ := alike
  unfold Budgeted admits at *
  rw [wanted, state, execution, left]
  exact budget

variable {k : Nat} {phase : StepPhase E}

theorem At.alike (at_ : s.At a k phase)
    (alike : Alike (s.records k) (s'.records k)) (executions : s'.executions = s.executions)
    (routed : s'.routed = s.routed) : s'.At a k phase := by
  have same := alike
  obtain ⟨wanted, generation, state, execution, left⟩ := alike
  cases phase with
  | finished outcome =>
    simp only [At] at at_ ⊢
    split
    · rename_i failed
      rw [if_pos failed] at at_
      rw [state, left]
      exact at_
    · rename_i returned
      rw [if_neg returned] at at_
      exact at_.alike same
  | reported => trivial
  | _ =>
    simp only [At, Under, admits] at at_ ⊢
    simp only [wanted, generation, state, execution, left, executions, routed]
    exact at_

/-- A change of convergences, queues and the log keeps the invariant, as long as
a record that is not registered holds nothing. -/
theorem Inv.alike (inv : s.Inv a) (records : ∀ k, Alike (s.records k) (s'.records k))
    (held : ∀ k, s.current ≠ some k → (s'.records k).held = [])
    (executions : s'.executions = s.executions) (routed : s'.routed = s.routed)
    (steps : s'.steps = s.steps) (current : s'.current = s.current) (born : s'.born = s.born)
    (unexceeded : ∀ error, .exceeded error ∉ s'.outcomes) : s'.Inv a where
  at_ t step found := by
    rw [steps] at found
    exact (inv.at_ t step found).alike (records step.record) executions routed
  busy_current t step found busy := by
    rw [steps] at found
    rw [current]
    exact inv.busy_current t step found busy
  busy_last t step found busy := by
    rw [steps] at found ⊢
    exact inv.busy_last t step found busy
  overtaken := by
    rw [steps]
    exact inv.overtaken
  step_lt := by
    rw [steps, born]
    exact inv.step_lt
  current_lt := by
    rw [current, born]
    exact inv.current_lt
  dead k other := by
    rw [current] at other
    obtain ⟨state, execution, admits_, -⟩ := inv.dead k other
    have same := records k
    refine ⟨same.2.2.1.trans state, same.2.2.2.1.trans execution, ?_, held k other⟩
    unfold admits at *
    rw [same.1]
    exact admits_
  unexceeded := unexceeded
  recorded k x has := by
    rw [executions]
    exact inv.recorded k x ((records k).2.2.2.1.symm.trans has)
  kept x e found unclean := by
    rw [executions] at found
    exact (records e.record).2.2.2.1.trans (inv.kept x e found unclean)
  serving k state := by
    rw [(records k).2.2.2.1]
    exact inv.serving k ((records k).2.2.1.symm.trans state)
  routed x has := by
    rw [routed] at has
    obtain ⟨k, e, registered, execution, wanted, found, generation, unstopped⟩ := inv.routed x has
    refine ⟨k, e, current.trans registered, (records k).2.2.2.1.trans execution,
      (records k).1.trans wanted, ?_, ?_, unstopped⟩
    · rw [executions, found]
    · rw [(records k).2.1]
      exact generation
  orderly := by
    rw [executions]
    exact inv.orderly

theorem Alike.refl (room : Room E) : Alike room room := ⟨rfl, rfl, rfl, rfl, rfl⟩

theorem alike_setRoom {room : Room E} (alike : Alike (s.records k) room) (j : Nat) :
    Alike (s.records j) ((s.setRoom k room).records j) := by
  show Alike (s.records j) (update s.records k room j)
  by_cases same : j = k
  · subst same
    rw [update_self]
    exact alike
  · rw [update_of_ne same]
    exact Alike.refl _

theorem records_setRoom (k : Nat) (room : Room E) : (s.setRoom k room).records k = room :=
  update_self ..

theorem records_setRoom_of_ne {k j : Nat} (other : j ≠ k) (room : Room E) :
    (s.setRoom k room).records j = s.records j :=
  update_of_ne other ..

theorem Owned.frame (owned : s.Owned) {room : Room E} (records : s'.records = Function.update s.records k room)
    (execution : room.execution = (s.records k).execution)
    (state : room.state = .serving → room.execution ≠ none) (executions : s'.executions = s.executions)
    (routed : ∀ x, s'.routed = some x → s.routed = some x ∧ s'.current = s.current ∧
      ((s.records k).wanted = true → room.wanted = true) ∧
      room.generation = (s.records k).generation) : s'.Owned := by
  have executes : ∀ j, (s'.records j).execution = (s.records j).execution := by
    intro j
    rw [records]
    by_cases same : j = k
    · subst same; rw [update_self, execution]
    · rw [update_of_ne same]
  refine ⟨?_, ?_, ?_, ?_, executions ▸ owned.orderly⟩
  · intro j y has
    rw [executions]
    exact owned.recorded j y ((executes j).symm.trans has)
  · intro y e found unclean
    rw [executions] at found
    exact (executes e.record).trans (owned.kept y e found unclean)
  · intro j serves
    by_cases same : j = k
    · subst same
      rw [records, update_self] at serves ⊢
      exact state serves
    · rw [executes j]
      rw [records, update_of_ne same] at serves
      exact owned.serving j serves
  · intro y has
    obtain ⟨has, current, wanted, generation⟩ := routed y has
    obtain ⟨j, e, registered, runs, wants, found, gen, unstopped⟩ := owned.routed y has
    refine ⟨j, e, current.trans registered, (executes j).trans runs, ?_, by rw [executions, found], ?_,
      unstopped⟩
    all_goals
      rw [records]
      by_cases same : j = k
    · subst same; rw [update_self]; exact wanted wants
    · rw [update_of_ne same]; exact wants
    · subst same; rw [update_self, generation]; exact gen
    · rw [update_of_ne same]; exact gen

/-! ## Settling, failing, forgetting -/

section

variable (inv : s.Inv a)
include inv

/-- A convergence ends. -/
theorem Inv.converged (k : Nat) {outcome : ConvergenceOutcome} (other : ∀ error, outcome ≠ .exceeded error) :
    Inv a { s.setRoom k { s.records k with convergence := none } with
      outcomes := s.outcomes ++ [outcome] } := by
  refine inv.alike (alike_setRoom ⟨rfl, rfl, rfl, rfl, rfl⟩) ?_ rfl rfl rfl rfl rfl ?_
  · intro j dead
    show (update s.records k _ j).held = []
    by_cases same : j = k
    · subst same
      rw [update_self]
      exact (inv.dead j dead).2.2.2
    · rw [update_of_ne same]
      exact (inv.dead j dead).2.2.2
  · intro error member
    rcases mem_concat member with old | new
    · exact inv.unexceeded error old
    · exact other error new.symm

theorem Inv.settle (k : Nat) : (s.settle k).Inv a := by
  unfold Slot.settle
  split
  · exact inv
  · exact inv.converged k nofun

theorem Inv.fail (k : Nat) {outcome : ConvergenceOutcome}
    (other : ∀ error, outcome ≠ .exceeded error) : (s.fail k outcome).Inv a := by
  unfold Slot.fail
  split
  · exact inv
  · exact inv.converged k other

/-- Nothing is in flight for a registered room at rest. -/
theorem Inv.unbusy (registered : s.current = some k)
    (rest : (s.records k).state = .idle ∨ (s.records k).state = .serving) {t : Nat} {step : Step E}
    (found : s.steps[t]? = some step) : step.phase.busy = false := by
  by_contra unfinished
  have busy : step.phase.busy = true := by simpa using unfinished
  have same := inv.busy_current t step found busy
  rw [registered] at same
  cases same
  have at_ := inv.at_ t step found
  cases phase : step.phase with
  | finished outcome =>
    rw [phase] at at_ busy
    simp only [StepPhase.busy] at busy
    simp only [At, busy, if_true] at at_
    rcases at_ with ⟨h, -⟩ | h <;> rcases rest with rest | rest <;> rw [rest] at h <;> cases h
  | reported => rw [phase] at busy; cases busy
  | _ =>
    rw [phase] at at_
    rcases rest with rest | rest <;> rw [At, rest] at at_ <;> cases at_.1

/-- A registered room without an execution routes nothing. -/
theorem Inv.unrouted (registered : s.current = some k)
    (none_ : (s.records k).execution = none) : s.routed = none := by
  cases has : s.routed with
  | none => rfl
  | some x =>
    obtain ⟨k', e, registered', execution, -⟩ := inv.routed x has
    rw [registered] at registered'
    cases registered'
    rw [none_] at execution
    cases execution

theorem Inv.forget (unadmitted : admits a (s.records k) = false)
    (state : (s.records k).state = .idle) (none_ : (s.records k).execution = none) :
    (s.forget k).Inv a := by
  unfold Slot.forget
  split
  · rename_i registered
    refine Inv.settle ?_ k
    have idle : ∀ (t : Nat) (step : Step E), s.steps[t]? = some step → step.phase.busy = false :=
      fun t step => inv.unbusy registered (.inl state)
    have unrouted := inv.unrouted registered none_
    have alike : ∀ j, Alike (s.records j)
        ((s.setRoom k { s.records k with held := [] }).records j) :=
      alike_setRoom ⟨rfl, rfl, rfl, rfl, rfl⟩
    have owned : Owned ({ (s.setRoom k { s.records k with held := [] }).record
        ((s.records k).held.map (.dropped · .discarded)) with current := none } : Slot E) :=
      inv.toOwned.frame rfl rfl (inv.serving k) rfl fun x has => absurd (unrouted.symm.trans has) nofun
    refine { owned, inv with at_ := ?_, busy_current := ?_, current_lt := nofun, dead := ?_ }
    · intro t step found
      exact (inv.at_ t step found).alike (alike step.record) rfl rfl
    · intro t step found busy
      rw [idle t step found] at busy
      cases busy
    · intro j _
      show (update s.records k _ j).state = .idle ∧ (update s.records k _ j).execution = none ∧
        admits a (update s.records k _ j) = false ∧
        (update s.records k _ j).held = []
      by_cases same : j = k
      · subst same
        rw [update_self]
        exact ⟨state, none_, unadmitted, rfl⟩
      · rw [update_of_ne same]
        refine inv.dead j fun current => same ?_
        rw [registered] at current
        exact (Option.some.inj current).symm
  · exact inv.settle k

/-! ## Taking a step -/

omit inv in
theorem takeStep_shape {state : RoomState} (left : (s.records k).stepsLeft ≠ 0) :
    s.takeStep k state phase = { s.setRoom k { s.records k with
      convergence := some ((s.records k).convergence.getD true)
      stepsLeft := (s.records k).stepsLeft - 1
      state := state } with steps := s.steps ++ [⟨k, phase⟩] } := by
  simp [takeStep, setRoom, left]

section

variable (registered : s.current = some k)
  (rest : (s.records k).state = .idle ∨ (s.records k).state = .serving)
include registered rest

theorem Inv.takeStep {state : RoomState} (next : (state = .starting ∧ phase = .startCreated ∧ (s.records k).execution = none ∧
        2 ≤ (s.records k).stepsLeft) ∨
      (state = .retiring ∧ s.routed = none ∧ 1 ≤ (s.records k).stepsLeft ∧
        (3 ≤ (s.records k).stepsLeft ∨ admits a (s.records k) = false) ∧
        ∃ x, phase = .retireCreated x ∧ (s.records k).execution = some x)) :
    (s.takeStep k state phase).Inv a := by
  have idle : ∀ (t : Nat) (step : Step E), s.steps[t]? = some step → step.phase.busy = false :=
    fun t step => inv.unbusy registered rest
  have left : (s.records k).stepsLeft ≠ 0 := by
    rcases next with ⟨-, -, -, le⟩ | ⟨-, -, le, -⟩ <;> omega
  have busy_state : state ≠ .idle ∧ state ≠ .serving := by
    rcases next with ⟨rfl, -⟩ | ⟨rfl, -⟩ <;> exact ⟨nofun, nofun⟩
  have unrouted : s.routed = none := by
    rcases next with ⟨-, -, none_, -⟩ | ⟨-, none_, -⟩
    · exact inv.unrouted registered none_
    · exact none_
  rw [takeStep_shape left]
  obtain ⟨room, eq⟩ : ∃ room : Room E, room = { s.records k with
      convergence := some ((s.records k).convergence.getD true)
      stepsLeft := (s.records k).stepsLeft - 1
      state := state } := ⟨_, rfl⟩
  rw [← eq]
  have owned : Owned ({ s.setRoom k room with steps := s.steps ++ [⟨k, phase⟩] } : Slot E) := by
    refine inv.toOwned.frame rfl (by rw [eq]) ?_ rfl fun x has => absurd (unrouted.symm.trans has) nofun
    rw [eq]
    exact fun serves => absurd serves busy_state.2
  refine { owned with
    at_ := ?_, busy_current := ?_, busy_last := ?_, overtaken := ?_, step_lt := ?_
    current_lt := inv.current_lt, dead := ?_, unexceeded := inv.unexceeded }
  · intro t step found
    rcases getElem?_append_singleton found with old | ⟨-, rfl⟩
    · -- an earlier step is at rest: it constrains only a room that is too
      have quiet := idle t step old
      have at_ := inv.at_ t step old
      by_cases same : step.record = k
      · cases phase' : step.phase with
        | finished outcome =>
          rw [phase'] at quiet
          simp only [StepPhase.busy] at quiet
          simp only [At, quiet, Bool.false_eq_true, if_false]
          have here : ({ s.setRoom k room with steps := s.steps ++ [⟨k, phase⟩] } :
              Slot E).records step.record = room := by
            rw [same]; exact records_setRoom k room
          rw [here, eq]
          exact ⟨fun h => absurd h busy_state.2, fun h => absurd h busy_state.1, fun h => absurd h busy_state.1⟩
        | reported => trivial
        | _ => rw [phase'] at quiet; cases quiet
      · refine at_.alike ?_ rfl rfl
        show Alike _ (update s.records k room step.record)
        rw [update_of_ne same]
        exact Alike.refl _
    · rcases next with ⟨rfl, rfl, none_, le⟩ | ⟨rfl, _, _, budget, x, rfl, execution⟩
      · simp only [At, records_setRoom]
        rw [eq]
        exact ⟨rfl, none_, by show 1 ≤ (s.records k).stepsLeft - 1; omega⟩
      · simp only [At, records_setRoom]
        rw [eq]
        refine ⟨rfl, execution, unrouted, ?_⟩
        refine budget.imp (fun le => ?_) id
        show 2 ≤ (s.records k).stepsLeft - 1
        omega
  · intro t step found busy
    rcases getElem?_append_singleton found with old | ⟨-, rfl⟩
    · rw [idle t step old] at busy; cases busy
    · exact registered
  · intro t step found busy
    rcases getElem?_append_singleton found with old | ⟨rfl, -⟩
    · rw [idle t step old] at busy; cases busy
    · simp
  · intro t t' step step' found found' _ _ _ busy
    rcases getElem?_append_singleton found' with old | ⟨-, rfl⟩
    · rw [idle t' step' old] at busy; cases busy
    · rcases next with ⟨-, rfl, -⟩ | ⟨-, -, -, -, x, rfl, -⟩ <;> rfl
  · intro t step found
    rcases getElem?_append_singleton found with old | ⟨-, rfl⟩
    · exact inv.step_lt t step old
    · exact inv.current_lt k registered
  · intro j dead
    have other : j ≠ k := fun h => dead (by rw [h]; exact registered)
    rw [records_setRoom_of_ne other]
    exact inv.dead j dead

/-- Whatever is routed may be taken off. -/
theorem Inv.unroute : Inv a { s with routed := none } := by
  refine { inv with at_ := ?_, routed := nofun }
  intro t step found
  have quiet := inv.unbusy registered rest found
  have at_ := inv.at_ t step found
  cases phase : step.phase with
  | finished outcome => rw [phase] at at_; exact at_
  | reported => trivial
  | _ => rw [phase] at quiet; cases quiet

end

/-- **One advance.**  A room at rest with enough steps left keeps the invariant:
the circuit breaker does not trip. -/
theorem Inv.advance (k : Nat)
    (budget : s.current = some k → Budgeted a (s.records k)) : (s.advance a k).Inv a := by
  have retire : ∀ x, (s.records k).execution = some x →
      ((s.records k).state = .idle ∨ ((s.records k).state = .serving ∧ admits a (s.records k) = false)) →
      (({ s with routed := none } : Slot E).takeStep k .retiring (.retireCreated x)).Inv a := by
    intro x execution state
    have registered : s.current = some k := by
      by_contra other
      rw [(inv.dead k other).2.1] at execution
      cases execution
    have rest : (s.records k).state = .idle ∨ (s.records k).state = .serving :=
      state.imp id And.left
    have some_ : (s.records k).execution ≠ none := by rw [execution]; exact nofun
    refine (inv.unroute registered rest).takeStep registered rest (.inr ⟨rfl, rfl, ?_, ?_, x, rfl, execution⟩)
    · rcases state with idle | ⟨serving, -⟩
      · exact ((budget registered).2.1 idle some_).1
      · exact (budget registered).1 serving
    · rcases state with idle | ⟨-, unadmitted⟩
      · exact ((budget registered).2.1 idle some_).2
      · exact .inr unadmitted
  cases state : (s.records k).state with
  | starting | retiring => simp only [Slot.advance, state]; exact inv
  | serving =>
    cases adm : admits a (s.records k) with
    | true => simp only [Slot.advance, state, adm]; exact inv.settle k
    | false =>
      cases execution : (s.records k).execution with
      | none => exact absurd execution (inv.serving k state)
      | some x =>
        simp only [Slot.advance, state, adm, execution]
        exact retire x execution (.inr ⟨state, adm⟩)
  | idle =>
    cases execution : (s.records k).execution with
    | none =>
      cases adm : admits a (s.records k) with
      | false =>
        simp only [Slot.advance, state, adm, execution]
        exact inv.forget adm state execution
      | true =>
        simp only [Slot.advance, state, adm, execution]
        have registered : s.current = some k := by
          by_contra other
          rw [(inv.dead k other).2.2.1] at adm
          cases adm
        refine inv.takeStep registered (.inl state) (.inl ⟨rfl, rfl, execution, ?_⟩)
        rcases (budget registered).2.2 state execution with le | unadmitted
        · exact le
        · rw [adm] at unadmitted; cases unadmitted
    | some x =>
      cases adm : admits a (s.records k) with
      | false | true =>
        simp only [Slot.advance, state, adm, execution]
        exact retire x execution (.inl state)

omit inv in
theorem budgeted_of_full {room : Room E} (full : room.stepsLeft = maxStepsPerSignal) : Budgeted a room := by
  unfold Budgeted
  rw [full]
  exact ⟨fun _ => by decide, fun _ _ => ⟨by decide, .inl (by decide)⟩, fun _ _ => .inl (by decide)⟩

section

variable (registered : s.current = some k)
include registered

/-- A signal's writes to the registered record, with its step budget renewed: the
state and the execution stay, and a route survives only an unchanged admission. -/
theorem Inv.renewed (room : Room E) (records : s'.records = Function.update s.records k room)
    (state : room.state = (s.records k).state) (execution : room.execution = (s.records k).execution)
    (full : room.stepsLeft = maxStepsPerSignal)
    (routed : s'.routed = none ∨ (s'.routed = s.routed ∧ (room.wanted = true ∨ s.routed = none) ∧
      room.generation = (s.records k).generation))
    (executions : s'.executions = s.executions) (steps : s'.steps = s.steps)
    (current : s'.current = s.current) (born : s'.born = s.born)
    (outcomes : s'.outcomes = s.outcomes) : s'.Inv a := by
  have here : s'.records k = room := by rw [records, update_self]
  have there : ∀ j, j ≠ k → s'.records j = s.records j := fun j other => by
    rw [records, update_of_ne other]
  have left : 3 ≤ room.stepsLeft := by rw [full]; decide
  have unrouted : s.routed = none → s'.routed = none := fun none_ => by
    rcases routed with h | ⟨h, -⟩
    · exact h
    · rw [h, none_]
  have owned : s'.Owned := by
    refine inv.toOwned.frame records execution ?_ executions fun x has => ?_
    · rw [state, execution]
      exact inv.serving k
    · rcases routed with none_ | ⟨same, wanted, generation⟩
      · exact absurd (none_.symm.trans has) nofun
      · have has := same.symm.trans has
        exact ⟨has, current, fun _ => wanted.resolve_right fun none_ => by simp [none_] at has, generation⟩
  refine { owned with
    at_ := ?_, busy_current := ?_, busy_last := ?_, overtaken := ?_, step_lt := ?_
    current_lt := ?_, dead := ?_, unexceeded := ?_ }
  · intro t step found
    rw [steps] at found
    have at_ := inv.at_ t step found
    by_cases same : step.record = k
    · rw [same] at at_ ⊢
      cases phase : step.phase with
      | startCreated =>
        rw [phase] at at_
        simp only [At, here, state, execution] at at_ ⊢
        exact ⟨at_.1, at_.2.1, by omega⟩
      | starting x generation | delivering x generation tail delivered =>
        rw [phase] at at_
        simp only [At, here, state, execution, Under, executions] at at_ ⊢
        exact ⟨at_.1, at_.2.1, at_.2.2.1, by omega, fun _ => left⟩
      | resyncing x =>
        rw [phase] at at_
        simp only [At, here, state, execution] at at_ ⊢
        exact ⟨at_.1, at_.2.1, by omega, .inr left⟩
      | retireCreated x | stopping x timeout =>
        rw [phase] at at_
        simp only [At, here, state, execution] at at_ ⊢
        exact ⟨at_.1, at_.2.1, unrouted at_.2.2.1, .inl (by omega)⟩
      | releasing x graceful =>
        rw [phase] at at_
        simp only [At, here, state, execution, executions] at at_ ⊢
        exact ⟨at_.1, at_.2.1, unrouted at_.2.2.1, .inl (by omega), at_.2.2.2.2⟩
      | finished outcome =>
        rw [phase] at at_
        simp only [At, here] at at_ ⊢
        split
        · rename_i failed
          rw [if_pos failed] at at_
          rw [state]
          exact at_.imp (fun h => ⟨h.1, by omega⟩) id
        · exact budgeted_of_full full
      | reported => trivial
    · -- a step of a forgotten record is at rest
      cases phase : step.phase with
      | finished outcome =>
        rw [phase] at at_
        simp only [At, there step.record same] at at_ ⊢
        exact at_
      | reported => trivial
      | _ =>
        have busy := inv.busy_current t step found (by rw [phase]; rfl)
        rw [registered] at busy
        exact absurd (Option.some.inj busy).symm same
  · rw [steps, current]; exact inv.busy_current
  · rw [steps]; exact inv.busy_last
  · rw [steps]; exact inv.overtaken
  · rw [steps, born]; exact inv.step_lt
  · rw [current, born]; exact inv.current_lt
  · intro j dead
    rw [current] at dead
    rw [there j fun h => dead (by rw [h]; exact registered)]
    exact inv.dead j dead
  · rw [outcomes]; exact inv.unexceeded

/-! ## Signals -/

theorem Inv.wanted_of_routed : (s.records k).wanted = true ∨ s.routed = none := by
  cases has : s.routed with
  | none => exact .inr rfl
  | some x =>
    obtain ⟨k', e, registered', -, wanted, -⟩ := inv.routed x has
    rw [registered] at registered'
    cases registered'
    exact .inl wanted

/-- A signal renews the budget and advances once: `s'` is what it wrote before. -/
theorem Inv.signal (room : Room E) (records : s'.records = Function.update s.records k room)
    (state : room.state = (s.records k).state) (execution : room.execution = (s.records k).execution)
    (routed : s'.routed = none ∨ (s'.routed = s.routed ∧ (room.wanted = true ∨ s.routed = none) ∧
      room.generation = (s.records k).generation))
    (executions : s'.executions = s.executions) (steps : s'.steps = s.steps)
    (current : s'.current = s.current) (born : s'.born = s.born)
    (outcomes : s'.outcomes = s.outcomes) : (s'.signal a k).Inv a := by
  have here : s'.records k = room := by rw [records, update_self]
  refine Inv.advance ?_ k fun _ => ?_
  · refine inv.renewed registered { room with stepsLeft := maxStepsPerSignal } ?_ state
      execution rfl routed executions steps current born outcomes
    show update s'.records k { s'.records k with stepsLeft := maxStepsPerSignal } = _
    rw [here, records, update_idem]
  · rw [records_setRoom]
    exact budgeted_of_full rfl

/-- The same with nothing written before. -/
theorem Inv.signal_self : (s.signal a k).Inv a := by
  refine inv.signal registered (s.records k) ?_ rfl rfl
    (.inr ⟨rfl, inv.wanted_of_routed registered, rfl⟩) rfl rfl rfl rfl rfl
  rw [update_eq_self]

end

theorem Inv.converge : (s.converge a).Inv a := by
  unfold Slot.converge
  split
  · exact inv
  · rename_i k registered
    exact inv.signal_self registered

theorem Inv.convergeUnserved : (s.convergeUnserved a).Inv a := by
  unfold Slot.convergeUnserved
  split
  · exact inv
  · exact inv.converge

/-- A new record enters the registry at rest, wanted. -/
theorem Inv.enroll (none_ : s.current = none) :
    Inv a { s.setRoom s.born { wanted := true } with
      born := s.born + 1, current := some s.born } := by
  have unborn : ∀ j, j < s.born → update s.records s.born { wanted := true } j = s.records j := fun j lt =>
    update_of_ne (by omega) _ _
  have unregistered : ∀ j, s.current ≠ some j := fun j h => by rw [none_] at h; cases h
  have unrouted : s.routed = none := by
    cases has : s.routed with
    | none => rfl
    | some x =>
      obtain ⟨k, e, registered, -⟩ := inv.routed x has
      rw [none_] at registered
      cases registered
  have owned : Owned ({ s.setRoom s.born { wanted := true } with
      born := s.born + 1, current := some s.born } : Slot E) :=
    inv.toOwned.frame rfl (inv.dead s.born (unregistered _)).2.1.symm nofun rfl
      fun x has => absurd (unrouted.symm.trans has) nofun
  refine { owned with
    at_ := ?_, busy_current := ?_, busy_last := ?_, overtaken := inv.overtaken, step_lt := ?_
    current_lt := ?_, dead := ?_, unexceeded := inv.unexceeded }
  · intro t step found
    refine (inv.at_ t step found).alike ?_ rfl rfl
    show Alike _ (update s.records s.born _ step.record)
    rw [unborn step.record (inv.step_lt t step found)]
    exact Alike.refl _
  · intro t step found busy
    have := inv.busy_current t step found busy
    rw [none_] at this
    cases this
  · exact inv.busy_last
  · intro t step found
    exact Nat.lt_succ_of_lt (inv.step_lt t step found)
  · intro k registered
    cases registered
    exact Nat.lt_succ_self _
  · intro j other
    have ne : j ≠ s.born := fun h => other (by rw [h])
    show (update s.records s.born _ j).state = .idle ∧ (update s.records s.born _ j).execution = none ∧
      admits a (update s.records s.born _ j) = false ∧
      (update s.records s.born _ j).held = []
    rw [update_of_ne ne]
    exact inv.dead j (unregistered j)

theorem Inv.requestAdmission : (s.requestAdmission a).Inv a := by
  unfold Slot.requestAdmission
  split
  · rename_i k registered
    exact inv.signal registered { s.records k with wanted := true } rfl rfl rfl
      (.inr ⟨rfl, .inl rfl, rfl⟩) rfl rfl rfl rfl rfl
  · rename_i none_
    exact (inv.enroll none_).signal_self rfl

theorem Inv.admitRoom : (s.admitRoom a).Inv a := by
  unfold Slot.admitRoom
  split
  · exact inv
  · exact inv.requestAdmission

theorem Inv.hold (event : E) : (s.hold a event).Inv a := by
  unfold Slot.hold
  split
  · exact inv
  rename_i k registered
  dsimp only
  split
  · exact inv
  · exact inv.signal registered { s.records k with held := _ } rfl rfl rfl
      (.inr ⟨rfl, inv.wanted_of_routed registered, rfl⟩) rfl rfl rfl rfl rfl

theorem Inv.roomEvent (event : E) : (s.roomEvent a event).Inv a := by
  unfold Slot.roomEvent
  split
  · exact inv.alike (fun k => Alike.refl _) (fun k dead => (inv.dead k dead).2.2.2) rfl rfl rfl rfl
      rfl inv.unexceeded
  · exact inv.hold event

theorem Inv.withdraw : (s.withdraw a).Inv a := by
  unfold Slot.withdraw
  split
  · exact inv
  rename_i k registered
  split
  · exact inv
  exact inv.signal registered { s.records k with
    wanted := false, generation := (s.records k).generation + 1
    stopTimeout := none, held := [] } rfl rfl rfl (.inl rfl) rfl rfl rfl rfl rfl

theorem Inv.destroy (timeout : Option Nat) : (s.destroy a timeout).Inv a := by
  unfold Slot.destroy
  split
  · exact inv
  rename_i k registered
  refine inv.signal registered { s.records k with
    wanted := false, generation := (s.records k).generation + 1
    stopTimeout := timeout, held := [] } ?_ rfl rfl (.inl rfl) rfl rfl rfl rfl rfl
  show update (update s.records k _) k
    { update s.records k _ k with stopTimeout := timeout } = _
  rw [update_self, update_idem]

end

end Slot

end BandSdk.Rooms

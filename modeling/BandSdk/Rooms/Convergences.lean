/-
# Rooms.Convergences -- every convergence is completed, once

A record holds at most one convergence, from the step that begins it to the one that
completes it.  It holds one only while a step of it is under way, and it is settled
gracefully only if every stop performed meanwhile was.

`answers` is the model's own record: of each record, what the stops of its convergence
reported.
-/
import BandSdk.Rooms.Guarantees

namespace BandSdk.Rooms

open BandSdk.Theory List Function Option RoomExecutions StepPhase

variable {E : Type}

/-- A step that stops an execution. -/
def StepPhase.retires : StepPhase E → Bool
  | .retireCreated _ | .stopping _ _ | .releasing _ _ => true
  | _ => false

theorem StepPhase.busy_of_retires {p : StepPhase E} (retires : p.retires = true) : p.busy = true := by
  cases p with
  | retireCreated x | stopping x timeout | releasing x graceful => rfl
  | _ => cases retires

theorem StepPhase.ne_reported_of_busy {p : StepPhase E} (busy : p.busy = true) : p ≠ .reported := by
  rintro rfl
  cases busy

namespace Slot

variable {a : Admission} {s s' : Slot E} {answers : Nat → List Bool} {t k : Nat} {p : StepPhase E}

/-- What a stop that ends reports, for the convergence of its record. -/
def stopAnswers (s : Slot E) (signal : RoomSignal E) (k : Nat) : List Bool :=
  match signal with
  | .stopEnded t .returned graceful =>
    match s.steps[t]? with
    | some ⟨j, .stopping _ _⟩ => if j = k then [graceful] else []
    | _ => []
  | _ => []

/-- The answers of the convergences that are left. -/
def kept (s : Slot E) (answers : Nat → List Bool) (k : Nat) : List Bool :=
  if (s.records k).convergence = none then [] else answers k

/-- What the flag of a convergence is worth, where its step is. -/
def StopAt (graceful : Bool) (answers : List Bool) : StepPhase E → Prop
  | .retireCreated _ | .stopping _ _ => answers.all id = graceful
  | .releasing _ last => answers.all id = (graceful && last)
  | _ => True

theorem StopAt.of_running {graceful : Bool} {answers : List Bool} (runs : p.retires = false) :
    StopAt graceful answers p := by
  cases p with
  | retireCreated x | stopping x timeout | releasing x last => cases runs
  | _ => trivial

/-- `due` are the records that are about to be advanced. -/
structure Converging (s : Slot E) (answers : Nat → List Bool) (due : Nat → Prop) : Prop where
  current : ∀ k graceful, (s.records k).convergence = some graceful → s.current = some k
  flight : ∀ k graceful, (s.records k).convergence = some graceful → due k ∨
    ∃ (t : Nat) (p : StepPhase E), s.steps[t]? = some ⟨k, p⟩ ∧ p ≠ .reported
  moving : ∀ k, (s.records k).state = .starting ∨ (s.records k).state = .retiring →
    (∃ graceful, (s.records k).convergence = some graceful) ∧
      ∃ (t : Nat) (p : StepPhase E), s.steps[t]? = some ⟨k, p⟩ ∧ p.busy = true
  retiring : ∀ (t k : Nat) (p : StepPhase E), s.steps[t]? = some ⟨k, p⟩ → p.retires = true →
    (s.records k).state = .retiring
  resting : ∀ k, (s.records k).convergence = none → answers k = []
  calm : ∀ k graceful, (s.records k).convergence = some graceful → (s.records k).state ≠ .retiring →
    (answers k).all id = graceful
  stops : ∀ (t k : Nat) (p : StepPhase E) graceful, s.steps[t]? = some ⟨k, p⟩ →
    (s.records k).convergence = some graceful → StopAt graceful (answers k) p

/-- Nothing of what convergences read has changed. -/
structure Same (s s' : Slot E) : Prop where
  convergence : ∀ k, (s'.records k).convergence = (s.records k).convergence
  outcomes : s'.outcomes = s.outcomes

/-- At most one convergence is completed, with one outcome; it is settled with what its stops reported. -/
def Progress (answers : Nat → List Bool) (s s' : Slot E) : Prop :=
  (s'.outcomes = s.outcomes ∧ ∀ k, (s.records k).convergence ≠ none → (s'.records k).convergence ≠ none) ∨
  ∃ k outcome, (s.records k).convergence ≠ none ∧ (s'.records k).convergence = none ∧
    s'.outcomes = s.outcomes ++ [outcome] ∧
    (∀ j, j ≠ k → (s'.records j).convergence = (s.records j).convergence) ∧
    ∀ graceful, outcome = .settled graceful → graceful = (answers k).all id

theorem Same.progress (same : Same s s') (answers : Nat → List Bool) : Progress answers s s' :=
  .inl ⟨same.outcomes, fun k some_ => by rwa [same.convergence k]⟩

theorem Same.before {s'' : Slot E} (same : Same s s') (progress : Progress answers s' s'') :
    Progress answers s s'' := by
  rcases progress with ⟨outcomes, held⟩ | ⟨k, outcome, held, gone, outcomes, others, settled⟩
  · exact .inl ⟨outcomes.trans same.outcomes, fun k some_ => held k (by rwa [same.convergence k])⟩
  · refine .inr ⟨k, outcome, by rwa [same.convergence k] at held, gone, by rw [outcomes, same.outcomes], ?_, settled⟩
    exact fun j other => (others j other).trans (same.convergence j)

theorem Same.of_update {room : Room E} (records : s'.records = Function.update s.records k room)
    (convergence : room.convergence = (s.records k).convergence) (outcomes : s'.outcomes = s.outcomes) :
    Same s s' where
  convergence := by
    intro j
    rw [records]
    by_cases same : j = k
    · subst same
      rwa [update_self]
    · rw [update_of_ne same]
  outcomes := outcomes

/-! ### Frames -/

theorem state_of_update {room : Room E} (records : s'.records = Function.update s.records k room)
    (state : room.state = (s.records k).state) (j : Nat) : (s'.records j).state = (s.records j).state := by
  rw [records]
  by_cases same : j = k
  · subst same
    rwa [update_self]
  · rw [update_of_ne same]

theorem Converging.frame {due : Nat → Prop} (c : s.Converging answers due) (same : Same s s')
    (state : ∀ k, (s'.records k).state = (s.records k).state)
    (current : ∀ k, (s.records k).convergence ≠ none → s.current = some k → s'.current = some k)
    (steps : s'.steps = s.steps) : s'.Converging answers due := by
  have held := same.convergence
  refine ⟨?_, ?_, ?_, ?_, ?_, ?_, ?_⟩
  · intro k graceful its
    have its := (held k).symm.trans its
    exact current k (by simp [its]) (c.current k graceful its)
  · intro k graceful its
    rw [steps]
    exact c.flight k graceful ((held k).symm.trans its)
  · intro k moves
    rw [state] at moves
    rw [held, steps]
    exact c.moving k moves
  · intro t k p found retires
    rw [state]
    exact c.retiring t k p (steps ▸ found) retires
  · exact fun k its => c.resting k ((held k).symm.trans its)
  · intro k graceful its moves
    rw [state] at moves
    exact c.calm k graceful ((held k).symm.trans its) moves
  · intro t k p graceful found its
    exact c.stops t k p graceful (steps ▸ found) ((held k).symm.trans its)

theorem Converging.update {due : Nat → Prop} (c : s.Converging answers due) {room : Room E}
    (records : s'.records = Function.update s.records k room)
    (convergence : room.convergence = (s.records k).convergence) (state : room.state = (s.records k).state)
    (current : s'.current = s.current) (steps : s'.steps = s.steps) (outcomes : s'.outcomes = s.outcomes) :
    s'.Converging answers due :=
  c.frame (.of_update records convergence outcomes) (state_of_update records state)
    (fun _ _ its => current.trans its) steps

theorem Converging.due (c : s.Converging answers fun _ => False) (due : Nat → Prop) : s.Converging answers due :=
  { c with flight := fun k graceful its => .inr ((c.flight k graceful its).resolve_left id) }

theorem Converging.kept_eq {due : Nat → Prop} (c : s.Converging answers due) : s.kept answers = answers := by
  funext k
  unfold kept
  split
  · rename_i none_
    exact (c.resting k none_).symm
  · rfl

open Slot

/-- What `Converging` says of one record. -/
structure ConvergingAt (s : Slot E) (answers : List Bool) (due : Prop) (k : Nat) : Prop where
  current : ∀ graceful, (s.records k).convergence = some graceful → s.current = some k
  flight : ∀ graceful, (s.records k).convergence = some graceful → due ∨
    ∃ (t : Nat) (p : StepPhase E), s.steps[t]? = some ⟨k, p⟩ ∧ p ≠ .reported
  moving : (s.records k).state = .starting ∨ (s.records k).state = .retiring →
    (∃ graceful, (s.records k).convergence = some graceful) ∧
      ∃ (t : Nat) (p : StepPhase E), s.steps[t]? = some ⟨k, p⟩ ∧ p.busy = true
  retiring : ∀ (t : Nat) (p : StepPhase E), s.steps[t]? = some ⟨k, p⟩ → p.retires = true →
    (s.records k).state = .retiring
  resting : (s.records k).convergence = none → answers = []
  calm : ∀ graceful, (s.records k).convergence = some graceful → (s.records k).state ≠ .retiring →
    answers.all id = graceful
  stops : ∀ (t : Nat) (p : StepPhase E) graceful, s.steps[t]? = some ⟨k, p⟩ →
    (s.records k).convergence = some graceful → StopAt graceful answers p

/-- Nothing has changed but record `k` and its steps. -/
structure Apart (s s' : Slot E) (k : Nat) : Prop where
  records : ∀ j, j ≠ k → s'.records j = s.records j
  current : ∀ j, j ≠ k → s.current = some j → s'.current = some j
  steps : ∀ (t j : Nat) (p : StepPhase E), j ≠ k → (s'.steps[t]? = some ⟨j, p⟩ ↔ s.steps[t]? = some ⟨j, p⟩)

/-- It is enough to look at the record that changed. -/
theorem Converging.change {due due' : Nat → Prop} (c : s.Converging answers due) (apart : Apart s s' k)
    {answers' : Nat → List Bool} (others : ∀ j, j ≠ k → answers' j = answers j)
    (only : ∀ j, j ≠ k → due j → due' j) (here : s'.ConvergingAt (answers' k) (due' k) k) :
    s'.Converging answers' due' := by
  have at_ : ∀ j, s'.ConvergingAt (answers' j) (due' j) j := by
    intro j
    by_cases same : j = k
    · subst same
      exact here
    · have steps := fun t p => apart.steps t j p same
      rw [others j same]
      constructor <;> rw [apart.records j same]
      · exact fun graceful held => apart.current j same (c.current j graceful held)
      · intro graceful held
        refine (c.flight j graceful held).imp (only j same) fun ⟨t, p, found, live⟩ => ?_
        exact ⟨t, p, (steps t p).2 found, live⟩
      · intro moves
        obtain ⟨held, t, p, found, busy⟩ := c.moving j moves
        exact ⟨held, t, p, (steps t p).2 found, busy⟩
      · exact fun t p found => c.retiring t j p ((steps t p).1 found)
      · exact c.resting j
      · exact c.calm j
      · exact fun t p graceful found => c.stops t j p graceful ((steps t p).1 found)
  exact ⟨fun j => (at_ j).current, fun j => (at_ j).flight, fun j => (at_ j).moving,
    fun t j => (at_ j).retiring t, fun j => (at_ j).resting, fun j => (at_ j).calm, fun t j => (at_ j).stops t⟩

theorem steps_setPhase (found : s.steps[t]? = some ⟨k, p⟩) {p' q : StepPhase E} {t' j : Nat} :
    (s.setPhase t p').steps[t']? = some ⟨j, q⟩ ↔
      (t' = t ∧ j = k ∧ q = p') ∨ (t' ≠ t ∧ s.steps[t']? = some ⟨j, q⟩) := by
  by_cases same : t' = t
  · subst same
    simp [setPhase, found, eq_comm]
  · simp [setPhase, same, Ne.symm same]

theorem Apart.move (found : s.steps[t]? = some ⟨k, p⟩) {p' : StepPhase E} {room : Room E}
    (records : s'.records = Function.update s.records k room) (steps : s'.steps = (s.setPhase t p').steps)
    (current : s'.current = s.current) : Apart s s' k where
  records j other := by rw [records, update_of_ne other]
  current j _ its := current.trans its
  steps t' j q other := by
    rw [steps, steps_setPhase found]
    constructor
    · rintro (⟨-, same, -⟩ | ⟨-, old⟩)
      · exact absurd same other
      · exact old
    · intro old
      refine .inr ⟨?_, old⟩
      rintro rfl
      cases found.symm.trans old
      exact other rfl

section

variable (c : s.Converging answers fun _ => False) (found : s.steps[t]? = some ⟨k, p⟩)
include c found

theorem Converging.move {p' : StepPhase E} {answers' : Nat → List Bool} (live : p' ≠ .reported)
    (busy : p'.busy = true ∨ ((s.records k).state ≠ .starting ∧ (s.records k).state ≠ .retiring))
    (retires : p'.retires = true → (s.records k).state = .retiring)
    (others : ∀ j, j ≠ k → answers' j = answers j) (rest : (s.records k).convergence = none → answers' k = [])
    (calm : ∀ graceful, (s.records k).convergence = some graceful → (s.records k).state ≠ .retiring →
      (answers' k).all id = graceful)
    (stop : ∀ graceful, (s.records k).convergence = some graceful → StopAt graceful (answers' k) p')
    (alone : ∀ (t' : Nat) (q : StepPhase E) graceful, t' ≠ t → s.steps[t']? = some ⟨k, q⟩ →
      (s.records k).convergence = some graceful → StopAt graceful (answers' k) q) :
    (s.setPhase t p').Converging answers' fun _ => False := by
  have here : (s.setPhase t p').steps[t]? = some ⟨k, p'⟩ := (steps_setPhase found).2 (.inl ⟨rfl, rfl, rfl⟩)
  have apart : Apart s (s.setPhase t p') k := .move found (update_eq_self k s.records).symm rfl rfl
  refine c.change apart others (fun _ _ => id)
    ⟨c.current k, fun graceful its => .inr ⟨t, p', here, live⟩, ?_, ?_, rest, calm, ?_⟩
  · intro moves
    refine ⟨(c.moving k moves).1, t, p', here, busy.resolve_right fun ⟨unstarted, unretired⟩ => ?_⟩
    exact not_or.2 ⟨unstarted, unretired⟩ moves
  · intro t' q found' its
    rcases (steps_setPhase found).1 found' with ⟨-, -, rfl⟩ | ⟨-, old⟩
    · exact retires its
    · exact c.retiring t' k q old its
  · intro t' q graceful found' its
    rcases (steps_setPhase found).1 found' with ⟨-, -, rfl⟩ | ⟨other, old⟩
    · exact stop graceful its
    · exact alone t' q graceful other old its

theorem Converging.setPhase {p' : StepPhase E} (live : p' ≠ .reported)
    (busy : p'.busy = true ∨ ((s.records k).state ≠ .starting ∧ (s.records k).state ≠ .retiring))
    (retires : p'.retires = true → (s.records k).state = .retiring)
    (stop : ∀ graceful, (s.records k).convergence = some graceful → StopAt graceful (answers k) p') :
    (s.setPhase t p').Converging answers fun _ => False :=
  c.move found live busy retires (fun _ _ => rfl) (c.resting k) (c.calm k) stop
    fun t' q graceful _ old its => c.stops t' k q graceful old its

end

/-! ### One advance -/

/-- What an advance, or a failure, does to the convergences. -/
structure Advances (answers : Nat → List Bool) (s s' : Slot E) : Prop where
  converging : s'.Converging (s'.kept answers) fun _ => False
  progress : Progress answers s s'

theorem Converging.kept_apart {due : Nat → Prop} (c : s.Converging answers due) (apart : Apart s s' k) (j : Nat)
    (other : j ≠ k) : s'.kept answers j = answers j := by
  rw [kept, apart.records j other]
  split
  · rename_i gone
    exact (c.resting j gone).symm
  · rfl

theorem Converging.completed {due : Nat → Prop} (c : s.Converging answers due) (only : ∀ j, due j → j = k)
    (some_ : (s.records k).convergence ≠ none) {outcome : ConvergenceOutcome}
    (settled : ∀ flag, outcome = .settled flag → flag = (answers k).all id) (apart : Apart s s' k)
    (none_ : (s'.records k).convergence = none)
    (rests : (s'.records k).state ≠ .starting ∧ (s'.records k).state ≠ .retiring)
    (unstopped : ∀ (t : Nat) (p : StepPhase E), s'.steps[t]? = some ⟨k, p⟩ → p.retires = false)
    (outcomes : s'.outcomes = s.outcomes ++ [outcome]) : Advances answers s s' := by
  have left : ∀ {flag}, (s'.records k).convergence ≠ some flag := by
    rw [none_]
    exact nofun
  refine ⟨?_, .inr ⟨k, outcome, some_, none_, outcomes, fun j other => by rw [apart.records j other], settled⟩⟩
  refine c.change apart (c.kept_apart apart) (fun j other its => other (only j its)) ?_
  refine ⟨fun _ held => absurd held left, fun _ held => absurd held left, fun moves => absurd moves (not_or.2 rests),
    ?_, fun gone => if_pos gone, fun _ held => absurd held left, fun _ _ _ _ held => absurd held left⟩
  intro t p found retires
  rw [unstopped t p found] at retires
  cases retires

section

variable (c : s.Converging answers (· = k))
include c

/-- A record without a convergence, at rest, has none due. -/
theorem Converging.undue (none_ : (s.records k).convergence = none) : s.Converging answers fun _ => False := by
  refine { c with flight := ?_ }
  intro j graceful its
  rcases c.flight j graceful its with rfl | flying
  · rw [none_] at its
    cases its
  · exact .inr flying

section

variable (still : (s.records k).state ≠ .starting ∧ (s.records k).state ≠ .retiring)
include still

/-- A record at rest is settled, its own fields written first. -/
theorem Converging.settleAfter {room : Room E} (records : s'.records = Function.update s.records k room)
    (convergence : room.convergence = (s.records k).convergence) (state : room.state = (s.records k).state)
    (steps : s'.steps = s.steps) (outcomes : s'.outcomes = s.outcomes)
    (current : ∀ j, j ≠ k → s.current = some j → s'.current = some j) :
    Advances answers s (s'.settle k) := by
  have here : s'.records k = room := by rw [records, update_self]
  have there : ∀ {j}, j ≠ k → s'.records j = s.records j := by
    intro j other
    rw [records, update_of_ne other]
  have same : Same s s' := by
    refine ⟨fun j => ?_, outcomes⟩
    by_cases its : j = k
    · rw [its, here, convergence]
    · rw [there its]
  cases its : (s.records k).convergence with
  | none =>
    have none_ : (s'.records k).convergence = none := (same.convergence k).trans its
    have unsettled : s'.settle k = s' := by
      rw [settle, none_]
    have calm : s'.Converging answers fun _ => False := by
      refine (c.undue its).frame same ?_ ?_ steps
      · intro j
        by_cases its : j = k
        · rw [its, here, state]
        · rw [there its]
      · intro j some_ registered
        refine current j ?_ registered
        rintro rfl
        exact some_ its
    rw [unsettled]
    exact ⟨calm.kept_eq.symm ▸ calm, same.progress answers⟩
  | some graceful =>
    have some_ : (s'.records k).convergence = some graceful := (same.convergence k).trans its
    let settled : Slot E := { s'.setRoom k { s'.records k with convergence := none } with
      outcomes := s'.outcomes ++ [.settled graceful] }
    have here' : settled.records k = { s'.records k with convergence := none } := records_setRoom ..
    have apart : Apart s settled k := by
      refine ⟨fun j other => (records_setRoom_of_ne other _).trans (there other), current, fun t j p _ => ?_⟩
      rw [← steps]
      rfl
    rw [show s'.settle k = settled by rw [settle, some_]]
    refine c.completed (fun _ its => its) (by simp [its]) ?_ apart (by rw [here']) ?_ ?_
      (congrArg (· ++ _) outcomes)
    · rintro flag equal
      obtain rfl := ConvergenceOutcome.settled.inj equal
      exact (c.calm k graceful its still.2).symm
    · rw [here', here, state]
      exact still
    · intro t p found
      have found : s'.steps[t]? = some ⟨k, p⟩ := found
      rw [steps] at found
      cases retires : p.retires with
      | true => exact absurd (c.retiring t k p found retires) still.2
      | false => rfl

theorem Converging.settle :
    Advances answers s (s.settle k) :=
  c.settleAfter still (update_eq_self k s.records).symm rfl rfl rfl rfl fun _ _ its => its

/-- The registry drops a record with nothing under way. -/
theorem Converging.forget : Advances answers s (s.forget k) := by
  unfold Slot.forget
  split
  · rename_i registered
    refine c.settleAfter still rfl rfl rfl rfl rfl ?_
    intro j other its
    exact absurd (some.inj (its.symm.trans registered)) other
  · exact c.settle still

end

theorem Converging.takeStep (registered : s.current = some k)
    (still : (s.records k).state ≠ .starting ∧ (s.records k).state ≠ .retiring) {state : RoomState}
    {phase : StepPhase E} (left : (s.records k).stepsLeft ≠ 0) (created : phase.created = true)
    (retires : phase.retires = true → state = .retiring) (rest : phase.retires = true ∨ state = .starting) :
    Advances answers s (s.takeStep k state phase) := by
  rw [takeStep_shape left]
  let room : Room E := { s.records k with
    convergence := some ((s.records k).convergence.getD true)
    stepsLeft := (s.records k).stepsLeft - 1
    state := state }
  let taken : Slot E := { s.setRoom k room with steps := s.steps ++ [⟨k, phase⟩] }
  have here : taken.records k = room := records_setRoom k room
  have busy : phase.busy = true := by
    cases phase with
    | startCreated | retireCreated x => rfl
    | _ => cases created
  have flag : (answers k).all id = (s.records k).convergence.getD true := by
    cases its : (s.records k).convergence with
    | none => rw [c.resting k its]; rfl
    | some graceful => exact c.calm k graceful its still.2
  have new : taken.steps[s.steps.length]? = some ⟨k, phase⟩ := getElem?_concat_length
  have lookup : ∀ {t : Nat} {step : Step E}, taken.steps[t]? = some step →
      s.steps[t]? = some step ∨ step = ⟨k, phase⟩ := by
    intro t step found
    rw [getElem?_append] at found
    split at found
    · exact .inl found
    · exact .inr (mem_singleton.1 (mem_of_getElem? found))
  have apart : Apart s taken k := by
    refine ⟨fun j other => records_setRoom_of_ne other room, fun _ _ its => its, fun t j p other => ⟨fun found => ?_,
      fun found => ?_⟩⟩
    · exact (lookup found).resolve_right fun now => other (Step.mk.inj now).1
    · exact (List.getElem?_append_left (List.getElem?_eq_some_iff.1 found).1).trans found
  have kept : taken.kept answers k = answers k := if_neg (by rw [here]; exact nofun)
  refine ⟨c.change apart (c.kept_apart apart) (fun _ other its => other its) ?_, .inl ⟨rfl, fun j some_ => ?_⟩⟩
  · rw [kept]
    constructor <;> rw [here]
    · exact fun _ _ => registered
    · exact fun _ _ => .inr ⟨_, phase, new, ne_reported_of_busy busy⟩
    · exact fun _ => ⟨⟨_, rfl⟩, _, phase, new, busy⟩
    · intro t p found its
      rcases lookup found with before | now
      · exact absurd (c.retiring t k p before its) still.2
      · obtain ⟨-, rfl⟩ := Step.mk.inj now
        exact retires its
    · exact nofun
    · rintro graceful held -
      exact flag.trans (some.inj held)
    · intro t p graceful found held
      rcases lookup found with before | now
      · -- a record at rest has no step that stops
        cases its : p.retires with
        | true => exact absurd (c.retiring t k p before its) still.2
        | false => exact StopAt.of_running its
      · obtain ⟨-, rfl⟩ := Step.mk.inj now
        cases held
        cases p with
        | startCreated => trivial
        | retireCreated x => exact flag
        | _ => cases created
  · by_cases same : j = k
    · rw [same, here]
      exact nofun
    · rwa [apart.records j same]

theorem Converging.advance (dead : s.current ≠ some k → (s.records k).execution = none ∧ admits a (s.records k) = false)
    (after : (s.advance a k).Inv a) : Advances answers s (s.advance a k) := by
  have moves : ((s.records k).state = .starting ∨ (s.records k).state = .retiring) → Advances answers s s := by
    intro moving
    have calm : s.Converging answers fun _ => False :=
      { c with
        flight := by
          intro j graceful held
          rcases c.flight j graceful held with rfl | flying
          · obtain ⟨-, t, p, found, busy⟩ := c.moving j moving
            exact .inr ⟨t, p, found, ne_reported_of_busy busy⟩
          · exact .inr flying }
    exact ⟨calm.kept_eq.symm ▸ calm, Same.progress ⟨fun _ => rfl, rfl⟩ answers⟩
  have unspent : ∀ {s : Slot E} {state : RoomState} {phase : StepPhase E}, (s.takeStep k state phase).Inv a →
      (s.records k).stepsLeft ≠ 0 := fun inv spent => inv.unexceeded _ (exceeded_of_spent spent _ _)
  have retire : ∀ x, ((s.records k).state ≠ .starting ∧ (s.records k).state ≠ .retiring) → s.current = some k →
      (({ s with routed := none } : Slot E).takeStep k .retiring (.retireCreated x)).Inv a →
      Advances answers s (({ s with routed := none } : Slot E).takeStep k .retiring (.retireCreated x)) := by
    intro x still registered inv
    have same : Same s { s with routed := none } := ⟨fun _ => rfl, rfl⟩
    have c' : Converging { s with routed := none } answers (· = k) :=
      c.frame same (fun _ => rfl) (fun _ _ its => its) rfl
    have taken : Advances answers { s with routed := none }
        (({ s with routed := none } : Slot E).takeStep k .retiring (.retireCreated x)) :=
      c'.takeStep registered still (unspent inv) rfl (fun _ => rfl) (.inl rfl)
    exact ⟨taken.converging, same.before taken.progress⟩
  cases state : (s.records k).state with
  | starting =>
    simp only [Slot.advance, state]
    exact moves (.inl state)
  | retiring =>
    simp only [Slot.advance, state]
    exact moves (.inr state)
  | serving =>
    have still : (s.records k).state ≠ .starting ∧ (s.records k).state ≠ .retiring := by simp [state]
    cases adm : admits a (s.records k) with
    | true =>
      simp only [Slot.advance, state, adm]
      exact c.settle still
    | false =>
      cases execution : (s.records k).execution with
      | none =>
        simp only [Slot.advance, state, adm, execution]
        exact c.forget still
      | some x =>
        have registered : s.current = some k := by
          by_contra other
          rw [execution] at dead
          cases (dead other).1
        simp only [Slot.advance, state, adm, execution] at after ⊢
        exact retire x still registered after
  | idle =>
    have still : (s.records k).state ≠ .starting ∧ (s.records k).state ≠ .retiring := by simp [state]
    cases execution : (s.records k).execution with
    | none =>
      cases adm : admits a (s.records k) with
      | false =>
        simp only [Slot.advance, state, adm, execution]
        exact c.forget still
      | true =>
        have registered : s.current = some k := by
          by_contra other
          rw [adm] at dead
          cases (dead other).2
        simp only [Slot.advance, state, adm, execution] at after ⊢
        exact c.takeStep registered still (unspent after) rfl (by rintro ⟨⟩) (.inr rfl)
    | some x =>
      have registered : s.current = some k := by
        by_contra other
        rw [execution] at dead
        cases (dead other).1
      cases adm : admits a (s.records k) with
      | false | true =>
        simp only [Slot.advance, state, adm, execution] at after ⊢
        exact retire x still registered after

end

/-! ### Signals -/

theorem Advances.before {s'' : Slot E} (same : Same s s') (advances : Advances answers s' s'') :
    Advances answers s s'' :=
  ⟨advances.converging, same.before advances.progress⟩

theorem Converging.quiet (c : s'.Converging answers fun _ => False) (same : Same s s') : Advances answers s s' :=
  ⟨c.kept_eq.symm ▸ c, same.progress answers⟩

/-- A signal, behind its own writes to the registered record. -/
theorem Converging.signal (c : s.Converging answers fun _ => False) (registered : s'.current = some k)
    (same : Same s s') (state : ∀ j, (s'.records j).state = (s.records j).state)
    (current : ∀ j, (s.records j).convergence ≠ none → s.current = some j → s'.current = some j)
    (steps : s'.steps = s.steps) (after : (s'.signal a k).Inv a) : Advances answers s (s'.signal a k) := by
  have written : s'.Converging answers fun _ => False := c.frame same state current steps
  have renewed : (s'.setRoom k { s'.records k with stepsLeft := maxStepsPerSignal }).Converging answers (· = k) :=
    (written.due _).update rfl rfl rfl rfl rfl rfl
  have alike : Same s' (s'.setRoom k { s'.records k with stepsLeft := maxStepsPerSignal }) := .of_update rfl rfl rfl
  exact .before same (.before alike (renewed.advance (fun other => absurd registered other) after))

section

variable (inv : s.Inv a) (c : s.Converging answers fun _ => False)
include inv c

theorem Converging.requestAdmission : Advances answers s (s.requestAdmission a) := by
  have after := inv.requestAdmission
  unfold Slot.requestAdmission at after ⊢
  split at after
  · rename_i k registered
    exact c.signal registered (.of_update rfl rfl rfl) (state_of_update rfl rfl) (fun _ _ its => its) rfl after
  · rename_i none_
    have unheld : ∀ j, (s.records j).convergence = none := by
      intro j
      refine eq_none_iff_forall_ne_some.2 fun graceful held => ?_
      rw [c.current j graceful held] at none_
      cases none_
    have idle : (s.records s.born).state = .idle := (inv.dead s.born (by rw [none_]; exact nofun)).1
    have enrolled : Same s { s.setRoom s.born { wanted := true } with born := s.born + 1, current := some s.born } := by
      refine ⟨fun j => ?_, rfl⟩
      by_cases same : j = s.born
      · subst same
        exact (congrArg Room.convergence (records_setRoom ..)).trans (unheld _).symm
      · exact congrArg Room.convergence (records_setRoom_of_ne same _)
    refine c.signal rfl enrolled ?_ (fun j some_ => absurd (unheld j) some_) rfl after
    intro j
    by_cases same : j = s.born
    · subst same
      exact (congrArg Room.state (records_setRoom ..)).trans idle.symm
    · exact congrArg Room.state (records_setRoom_of_ne same _)

theorem Converging.admitRoom : Advances answers s (s.admitRoom a) := by
  unfold Slot.admitRoom
  split
  · exact c.quiet ⟨fun _ => rfl, rfl⟩
  · exact c.requestAdmission inv

theorem Converging.hold (event : E) : Advances answers s (s.hold a event) := by
  have after := inv.hold event
  unfold Slot.hold at after ⊢
  split at after
  · exact c.quiet ⟨fun _ => rfl, rfl⟩
  rename_i k registered
  dsimp only at after ⊢
  split at after
  · rename_i unwanted
    rw [if_pos unwanted]
    exact c.quiet ⟨fun _ => rfl, rfl⟩
  · rename_i wanted
    rw [if_neg wanted]
    exact c.signal registered (.of_update rfl rfl rfl) (state_of_update rfl rfl) (fun _ _ its => its) rfl after

theorem Converging.roomEvent (event : E) : Advances answers s (s.roomEvent a event) := by
  unfold Slot.roomEvent
  split
  · rename_i x _
    have same : Same s (s.record [.live event x]) := ⟨fun _ => rfl, rfl⟩
    exact (c.frame same (fun _ => rfl) (fun _ _ its => its) rfl).quiet same
  · exact c.hold inv event

theorem Converging.withdraw : Advances answers s (s.withdraw a) := by
  have after := inv.withdraw
  unfold Slot.withdraw at after ⊢
  split at after
  · exact c.quiet ⟨fun _ => rfl, rfl⟩
  rename_i k registered
  split at after
  · rename_i unwanted
    rw [if_pos unwanted]
    exact c.quiet ⟨fun _ => rfl, rfl⟩
  · rename_i wanted
    rw [if_neg wanted]
    exact c.signal registered (.of_update rfl rfl rfl) (state_of_update rfl rfl) (fun _ _ its => its) rfl after

theorem Converging.converge : Advances answers s (s.converge a) := by
  have after := inv.converge
  unfold Slot.converge at after ⊢
  split at after
  · exact c.quiet ⟨fun _ => rfl, rfl⟩
  · rename_i k registered
    exact c.signal registered ⟨fun _ => rfl, rfl⟩ (fun _ => rfl) (fun _ _ its => its) rfl after

theorem Converging.convergeUnserved : Advances answers s (s.convergeUnserved a) := by
  unfold Slot.convergeUnserved
  split
  · exact c.quiet ⟨fun _ => rfl, rfl⟩
  · exact c.converge inv

theorem Converging.destroy (timeout : Option Nat) : Advances answers s (s.destroy a timeout) := by
  have after := inv.destroy timeout
  unfold Slot.destroy at after ⊢
  split at after
  · exact c.quiet ⟨fun _ => rfl, rfl⟩
  rename_i k registered
  let timed := (s.fence k).setRoom k { (s.fence k).records k with stopTimeout := timeout }
  have fenced : Same s (s.fence k) := .of_update rfl rfl rfl
  have written : Same (s.fence k) timed := .of_update rfl rfl rfl
  have still := @state_of_update E s (s.fence k) k _ rfl rfl
  have still' := @state_of_update E (s.fence k) timed k _ rfl rfl
  exact c.signal registered ⟨fun j => (written.convergence j).trans (fenced.convergence j), rfl⟩
    (fun j => (still' j).trans (still j)) (fun _ _ its => its) rfl after

end

/-! ### Step tasks -/

theorem Same.trans {s'' : Slot E} (first : Same s s') (second : Same s' s'') : Same s s'' :=
  ⟨fun j => (second.convergence j).trans (first.convergence j), second.outcomes.trans first.outcomes⟩

theorem Same.setPhase (t : Nat) (p : StepPhase E) : Same s (s.setPhase t p) := ⟨fun _ => rfl, rfl⟩

section

variable (c : s.Converging answers fun _ => False)
include c

section

variable (found : s.steps[t]? = some ⟨k, p⟩)
include found

theorem Converging.start {p' : StepPhase E} (busy : p'.busy = true) (starts : p'.retires = false) :
    (s.setPhase t p').Converging answers fun _ => False := by
  refine c.setPhase found (ne_reported_of_busy busy) (.inl busy) ?_ ?_
  · intro retires
    rw [starts] at retires
    cases retires
  · exact fun _ _ => .of_running starts

omit found in
omit c in
theorem busy_failed {outcome : Outcome} (failed : outcome ≠ .returned) :
    (StepPhase.finished outcome : StepPhase E).busy = true := by
  cases outcome with
  | returned => exact absurd rfl failed
  | raised error | cancelled message => rfl

section

variable (starting : (s.records k).state = .starting)
include starting

theorem Converging.rest {state : RoomState} (rests : state ≠ .starting ∧ state ≠ .retiring) :
    ((s.setRoom k { s.records k with state := state }).setPhase t (.finished .returned)).Converging answers
      fun _ => False := by
  have here : (s.setRoom k { s.records k with state := state }).records k = { s.records k with state := state } :=
    records_setRoom ..
  have apart : Apart s (s.setRoom k { s.records k with state := state }) k :=
    ⟨fun j other => records_setRoom_of_ne other _, fun _ _ its => its, fun _ _ _ _ => Iff.rfl⟩
  have written : (s.setRoom k { s.records k with state := state }).Converging answers fun _ => False := by
    refine c.change apart (fun _ _ => rfl) (fun _ _ => id) ?_
    constructor <;> rw [here]
    · exact c.current k
    · exact c.flight k
    · exact fun moves => absurd moves (not_or.2 rests)
    · intro t p found retires
      cases (c.retiring t k p found retires).symm.trans starting
    · exact c.resting k
    · refine fun graceful held _ => c.calm k graceful held ?_
      rw [starting]
      exact nofun
    · exact fun t => c.stops t k
  refine written.setPhase found nofun (.inr ?_) nofun fun _ _ => trivial
  rw [here]
  exact rests

theorem Converging.endStart : Advances answers s (s.endStart t k) := by
  have rested : (s.endStart t k).Converging answers fun _ => False := by
    refine c.rest found starting ?_
    split
    · exact ⟨nofun, nofun⟩
    · exact ⟨nofun, nofun⟩
  exact rested.quiet (.of_update rfl rfl rfl)

theorem Converging.finishStart (x : ExecId) (generation : Nat) (resyncs : Bool) :
    Advances answers s (s.finishStart a t k x generation resyncs) := by
  unfold Slot.finishStart
  split
  · have same : Same s (({ s with routed := some x } : Slot E).mark x fun e => { e with routed := true }) :=
      ⟨fun _ => rfl, rfl⟩
    have routed := c.frame same (fun _ => rfl) (fun _ _ its => its) rfl
    split
    · have moved := @Converging.start E _ answers t k p routed found (.resyncing x) rfl rfl
      exact moved.quiet (same.trans (.setPhase t _))
    · exact .before same (routed.endStart found starting)
  · exact c.endStart found starting

end

theorem Converging.hand (x : ExecId) (generation : Nat) (item : Held E) (rest : List (Held E))
    (delivered : Nat) :
    Advances answers s (s.hand t x generation item rest delivered) := by
  have same : Same s (s.record [.handed item x]) := ⟨fun _ => rfl, rfl⟩
  have logged := c.frame same (fun _ => rfl) (fun _ _ its => its) rfl
  have moved := @Converging.start E _ answers t k p logged found (.delivering x generation rest delivered) rfl rfl
  exact moved.quiet (same.trans (.setPhase t _))

theorem Converging.deliver (starting : (s.records k).state = .starting) (x : ExecId) (generation : Nat)
    (tail : List (Held E)) (delivered : Nat) (resyncs : Bool) :
    Advances answers s (s.deliver a t k x generation tail delivered resyncs) := by
  -- the log and the queue are not read by convergences
  have after : ∀ {s₁ : Slot E} {room : Room E}, s₁.records = Function.update s.records k room →
      room.convergence = (s.records k).convergence → room.state = (s.records k).state →
      s₁.current = s.current → s₁.steps = s.steps → s₁.outcomes = s.outcomes →
      s₁.Converging answers (fun _ => False) ∧ Same s s₁ ∧ s₁.steps[t]? = some ⟨k, p⟩ ∧
        (s₁.records k).state = .starting := by
    intro s₁ room records convergence state current steps outcomes
    refine ⟨c.update records convergence state current steps outcomes, .of_update records convergence outcomes,
      by rw [steps]; exact found, ?_⟩
    rw [records, update_self, state, starting]
  unfold Slot.deliver
  split
  · split
    · obtain ⟨c', same, found', starting'⟩ := @after (s.record (List.map (.dropped · .discarded) _)) (s.records k)
        (update_eq_self k s.records).symm rfl rfl rfl rfl rfl
      exact .before same (c'.finishStart found' starting' x generation resyncs)
    · split
      · obtain ⟨c', same, found', starting'⟩ := @after ((s.record (List.map (.dropped · (.flooded x)) _)).setRoom k
          { s.records k with held := [] }) _ rfl rfl rfl rfl rfl rfl
        exact .before same (c'.finishStart found' starting' x generation resyncs)
      · exact c.hand found ..
  · exact c.finishStart found starting x generation resyncs
  split
  · exact c.finishStart found starting x generation resyncs
  split
  · obtain ⟨c', same, found', starting'⟩ := @after ((s.record (List.map (.dropped · (.flooded x)) _)).setRoom k
      { s.records k with held := [] }) _ rfl rfl rfl rfl rfl rfl
    exact .before same (c'.finishStart found' starting' x generation resyncs)
  · obtain ⟨c', same, found', -⟩ := @after (s.setRoom k { s.records k with held := [] }) _
      rfl rfl rfl rfl rfl rfl
    exact .before same (c'.hand found' ..)

theorem Converging.failed {outcome : Outcome} (failed : outcome ≠ .returned) :
    Advances answers s (s.setPhase t (.finished outcome)) :=
  (c.start found (busy_failed failed) rfl).quiet (.setPhase t _)

end

theorem Converging.runStep {build : Outcome} (ran : s.runStep a t build = some s') : Advances answers s s' := by
  obtain ⟨-, ran⟩ := of_barred ran
  split at ran
  · rename_i k found
    split at ran
    · cases ran
      let built : Slot E := { s.setRoom k { s.records k with execution := some s.executions.length } with
        executions := s.executions ++ [{ record := k, generation := (s.records k).generation }] }
      have c' : built.Converging answers fun _ => False := c.update rfl rfl rfl rfl rfl rfl
      have same : Same s built := .of_update rfl rfl rfl
      have moved := @Converging.start E built answers t k _ c' found
        (.starting s.executions.length (s.records k).generation) rfl rfl
      exact moved.quiet (same.trans (.setPhase t _))
    · rename_i unbuilt
      cases ran
      exact c.failed found unbuilt
  · rename_i k x found
    cases ran
    let stopping : Slot E := s.mark x fun e => { e with stopBegan := true }
    have same : Same s stopping := ⟨fun _ => rfl, rfl⟩
    have c' : stopping.Converging answers fun _ => False := c.frame same (fun _ => rfl) (fun _ _ its => its) rfl
    have moved := @Converging.setPhase E stopping answers t k _ c' found
      (.stopping x (if a.accepting then (s.records k).stopTimeout else a.closingTimeout)) nofun (.inl rfl)
      (fun _ => c.retiring t k _ found rfl)
      (fun graceful held => c.stops t k (.retireCreated x) graceful found held)
    exact moved.quiet (same.trans (.setPhase t _))
  · cases ran

theorem Converging.cancelStep {message : String}
    (ran : s.cancelStep t message = some s') : Advances answers s s' := by
  obtain ⟨-, ran⟩ := of_barred ran
  split at ran
  · rename_i found
    cases ran
    exact c.failed found nofun
  · rename_i found
    cases ran
    exact c.failed found nofun
  · cases ran

end

section

variable (inv : s.Inv a) (c : s.Converging answers fun _ => False)
include inv c

theorem Converging.startEnded {outcome : Outcome}
    {resyncs : Bool} (ended : s.startEnded a t outcome resyncs = some s') : Advances answers s s' := by
  unfold Slot.startEnded at ended
  split at ended
  · rename_i k x generation found
    cases ended
    split
    · exact c.deliver found (inv.at_ t _ found).1 ..
    · rename_i failed
      exact c.failed found failed
  · cases ended

theorem Converging.eventEnded {outcome : Outcome}
    {resyncs : Bool} (ended : s.eventEnded a t outcome resyncs = some s') : Advances answers s s' := by
  unfold Slot.eventEnded at ended
  split at ended
  · rename_i k x generation tail delivered found
    cases ended
    split
    · exact c.deliver found (inv.at_ t _ found).1 ..
    rename_i failed
    have same : Same s (s.record (tail.map (.dropped · .lost))) := ⟨fun _ => rfl, rfl⟩
    have logged := c.frame same (fun _ => rfl) (fun _ _ its => its) rfl
    exact .before same (@Converging.failed E _ answers t k _ logged found outcome failed)
  · cases ended

theorem Converging.resyncEnded {outcome : Outcome}
    (ended : s.resyncEnded t outcome = some s') : Advances answers s s' := by
  unfold Slot.resyncEnded at ended
  split at ended
  · rename_i found
    cases ended
    exact c.failed found nofun
  · rename_i found _
    cases ended
    exact c.endStart found (inv.at_ t _ found).1
  · cases ended

end

/-- The answers behind a signal: a stop that ends adds its own. -/
def answersAfter (s s' : Slot E) (signal : RoomSignal E) (answers : Nat → List Bool) (k : Nat) : List Bool :=
  if (s'.records k).convergence = none then [] else answers k ++ s.stopAnswers signal k

section

variable (inv : s.Inv a) (c : s.Converging answers fun _ => False)
include inv c

/-- A stop reports to the convergence of its record, whose flag it reaches with the release. -/
theorem Converging.stopEnded {outcome : Outcome}
    {graceful : Bool} (ended : s.stopEnded t outcome graceful = some s') :
    s'.Converging (s.answersAfter s' (.stopEnded t outcome graceful) answers) (fun _ => False) ∧
      Progress answers s s' := by
  unfold Slot.stopEnded at ended
  split at ended
  · rename_i k x timeout found
    cases ended
    split
    · rename_i returned
      subst returned
      let stopped : Slot E := s.mark x fun e => { e with stopped := true }
      have same : Same s stopped := ⟨fun _ => rfl, rfl⟩
      have c' : stopped.Converging answers fun _ => False := c.frame same (fun _ => rfl) (fun _ _ its => its) rfl
      refine ⟨?_, (same.trans (.setPhase t _)).progress answers⟩
      have its : ∀ j, s.answersAfter (stopped.setPhase t (.releasing x graceful)) (.stopEnded t .returned graceful)
          answers j = if (s.records j).convergence = none then [] else
            answers j ++ if k = j then [graceful] else [] := by
        intro j
        simp only [answersAfter, stopAnswers, found]
        rfl
      have here : ∀ {flag}, (s.records k).convergence = some flag →
          s.answersAfter (stopped.setPhase t (.releasing x graceful)) (.stopEnded t .returned graceful) answers k =
            answers k ++ [graceful] := by
        intro flag held
        rw [its, if_neg (by simp [held]), if_pos rfl]
      refine @Converging.move E stopped answers t k _ c' found (.releasing x graceful) _ nofun (.inl rfl)
        (fun _ => c.retiring t k _ found rfl) ?_ ?_ ?_ ?_ ?_
      · intro j other
        rw [its, if_neg (Ne.symm other), append_nil]
        split
        · rename_i none_
          exact (c.resting j none_).symm
        · rfl
      · intro none_
        rw [its]
        exact if_pos none_
      · intro flag held moves
        exact absurd (c.retiring t k _ found rfl) moves
      · intro flag held
        rw [here held]
        have before : (answers k).all id = flag := c.stops t k _ flag found held
        simp [StopAt, before]
      · intro t' q flag other found' held
        -- only the last step of a room can stop one
        cases retires : q.retires with
        | true =>
          have last := inv.busy_last t _ found rfl
          have last' := inv.busy_last t' _ found' (busy_of_retires retires)
          exact absurd (Nat.succ.inj (last'.trans last.symm)) other
        | false => exact .of_running retires
    · rename_i failed
      obtain ⟨converging, progress⟩ := c.failed found failed
      have unreported : s.answersAfter (s.setPhase t (.finished outcome)) (.stopEnded t outcome graceful) answers =
          (s.setPhase t (.finished outcome)).kept answers := by
        funext j
        have none_ : s.stopAnswers (.stopEnded t outcome graceful) j = [] := by
          cases outcome with
          | returned => exact absurd rfl failed
          | raised error | cancelled message => rfl
        rw [answersAfter, none_, append_nil, kept]
      rw [unreported]
      exact ⟨converging, progress⟩
  · cases ended

/-- A release that succeeds puts its record at rest, with what the stop reported. -/
theorem Converging.releaseEnded {outcome : Outcome}
    (ended : s.releaseEnded t outcome = some s') : Advances answers s s' := by
  unfold Slot.releaseEnded at ended
  split at ended
  · rename_i k x graceful found
    cases ended
    split
    · let room : Room E := { s.records k with
        execution := none, state := .idle
        convergence := (s.records k).convergence.map (· && graceful) }
      let released : Slot E := ((s.mark x fun e => { e with released := true }).setRoom k room).setPhase t
        (.finished .returned)
      have here : released.records k = room := records_setRoom k room
      have apart : Apart s released k := .move found rfl rfl rfl
      have last := inv.busy_last t _ found rfl
      have steps : ∀ {t' : Nat} {q : StepPhase E}, released.steps[t']? = some ⟨k, q⟩ →
          q = .finished .returned ∨ s.steps[t']? = some ⟨k, q⟩ ∧ q.retires = false := by
        intro t' q found'
        rcases (steps_setPhase found).1 found' with ⟨-, -, rfl⟩ | ⟨other, old⟩
        · exact .inl rfl
        refine .inr ⟨old, Bool.not_eq_true _ ▸ fun retires => other ?_⟩
        -- no other step of the room stops one
        exact Nat.succ.inj ((inv.busy_last t' _ old (busy_of_retires retires)).trans last.symm)
      have settled : released.Converging answers fun _ => False := by
        refine c.change apart (fun _ _ => rfl) (fun _ _ => id) ?_
        constructor <;> rw [here]
        · intro flag its
          obtain ⟨flag', its, -⟩ := map_eq_some_iff.1 its
          exact c.current k flag' its
        · exact fun flag its => .inr ⟨t, .finished .returned, (steps_setPhase found).2 (.inl ⟨rfl, rfl, rfl⟩), nofun⟩
        · exact fun moves => absurd moves (not_or.2 ⟨nofun, nofun⟩)
        · intro t' q found' retires
          rcases steps found' with rfl | ⟨-, runs⟩
          · cases retires
          · rw [runs] at retires
            cases retires
        · exact fun none_ => c.resting k (map_eq_none_iff.1 none_)
        · rintro flag its -
          obtain ⟨flag', was, rfl⟩ := map_eq_some_iff.1 its
          exact c.stops t k _ flag' found was
        · intro t' q flag found' its
          rcases steps found' with rfl | ⟨-, runs⟩
          · trivial
          · exact .of_running runs
      refine ⟨settled.kept_eq.symm ▸ settled, .inl ⟨rfl, fun j some_ => ?_⟩⟩
      by_cases same : j = k
      · subst same
        rw [here]
        exact fun gone => some_ (map_eq_none_iff.1 gone)
      · rwa [apart.records j same]
    · rename_i failed
      exact c.failed found failed
  · cases ended

/-- A step that failed is reported: its convergence fails, unless nobody wants what a failed start built. -/
theorem Converging.stepFailed {outcome : Outcome}
    (found : s.steps[t]? = some ⟨k, .finished outcome⟩) {error : PyError}
    (failure : Retention.taskFailure outcome = some error) :
    Advances answers s (((s.setPhase t .reported).setRoom k { s.records k with state := .idle }).fail k
      (.failed error)) := by
  have busy : (finished outcome : StepPhase E).busy = true := by
    simp [busy, failure]
  have moves : (s.records k).state = .starting ∨ (s.records k).state = .retiring := by
    have at_ := inv.at_ t _ found
    simp only [At, failure, isSome_some, if_true] at at_
    exact at_.imp_left And.left
  obtain ⟨⟨graceful, held⟩, -⟩ := c.moving k moves
  have written : ((s.setPhase t .reported).setRoom k { s.records k with state := .idle }).records k =
      { s.records k with state := .idle } := records_setRoom ..
  have failed : ((s.setPhase t .reported).setRoom k { s.records k with state := .idle }).fail k (.failed error) =
      { ((s.setPhase t .reported).setRoom k { s.records k with state := .idle }).setRoom k
          { s.records k with state := .idle, convergence := none } with
        outcomes := s.outcomes ++ [.failed error] } := by
    rw [fail, written]
    simp only [held]
    rfl
  rw [failed]
  have some_ : (s.records k).convergence ≠ none := by simp [held]
  have apart : Apart s { ((s.setPhase t .reported).setRoom k { s.records k with state := .idle }).setRoom k
      { s.records k with state := .idle, convergence := none } with
    outcomes := s.outcomes ++ [.failed error] } k := .move found (update_idem ..) rfl rfl
  have here := @records_setRoom E ((s.setPhase t .reported).setRoom k { s.records k with state := .idle }) k
    { s.records k with state := .idle, convergence := none }
  refine c.completed (fun _ its => its.elim) some_ (fun _ equal => by cases equal) apart
    (congrArg Room.convergence here) ?_ ?_ rfl
  · rw [show _ = RoomState.idle from congrArg Room.state here]
    exact ⟨by simp, by simp⟩
  · intro t' q found'
    rcases (steps_setPhase found).1 found' with ⟨-, -, rfl⟩ | ⟨other, old⟩
    · rfl
    refine Bool.not_eq_true _ ▸ fun retires => other ?_
    have last := inv.busy_last t _ found busy
    exact Nat.succ.inj ((inv.busy_last t' _ old (busy_of_retires retires)).trans last.symm)

end

theorem Converging.reported (c : s.Converging answers fun _ => False) {outcome : Outcome}
    (found : s.steps[t]? = some ⟨k, .finished outcome⟩) {room : Room E}
    (records : s'.records = Function.update s.records k room)
    (convergence : room.convergence = (s.records k).convergence)
    (steps : s'.steps = (s.setPhase t .reported).steps) (current : s'.current = s.current)
    (state : room.state = (s.records k).state ∧ (StepPhase.finished outcome : StepPhase E).busy = false ∨
      room.state = .idle ∧ (s.records k).state = .starting) : s'.Converging answers (· = k) := by
  have here : s'.records k = room := by rw [records, update_self]
  have lookup : ∀ {t' : Nat} {q : StepPhase E}, s'.steps[t']? = some ⟨k, q⟩ →
      q = .reported ∨ s.steps[t']? = some ⟨k, q⟩ := by
    intro t' q found'
    rw [steps] at found'
    rcases (steps_setPhase found).1 found' with ⟨-, -, now⟩ | ⟨-, old⟩
    · exact .inl now
    · exact .inr old
  refine c.change (.move found records steps current) (fun _ _ => rfl) (fun _ _ => False.elim) ?_
  constructor <;> rw [here]
  · intro graceful held
    exact current.trans (c.current k graceful (convergence.symm.trans held))
  · exact fun _ _ => .inl rfl
  · intro moves
    obtain ⟨equal, quiet⟩ | ⟨idle, -⟩ := state
    · rw [equal] at moves
      obtain ⟨held, t', q, found', busy⟩ := c.moving k moves
      rw [convergence]
      have other : t' ≠ t := by
        rintro rfl
        cases found.symm.trans found'
        cases quiet.symm.trans busy
      exact ⟨held, t', q, steps ▸ (steps_setPhase found).2 (.inr ⟨other, found'⟩), busy⟩
    · rw [idle] at moves
      exact absurd moves (not_or.2 ⟨nofun, nofun⟩)
  · intro t' q found' retires
    rcases lookup found' with rfl | old
    · cases retires
    have was := c.retiring t' k q old retires
    obtain ⟨equal, -⟩ | ⟨-, starting⟩ := state
    · exact equal.trans was
    · cases was.symm.trans starting
  · exact fun none_ => c.resting k (convergence.symm.trans none_)
  · intro graceful held moves
    refine c.calm k graceful (convergence.symm.trans held) ?_
    obtain ⟨equal, -⟩ | ⟨-, starting⟩ := state
    · rwa [equal] at moves
    · rw [starting]
      exact nofun
  · intro t' q graceful found' held
    rcases lookup found' with rfl | old
    · trivial
    · exact c.stops t' k q graceful old (convergence.symm.trans held)

theorem Converging.stepDone (inv : s.Inv a) (c : s.Converging answers fun _ => False)
    (done : s.stepDone a t = some s') : Advances answers s s' := by
  have after := inv.stepDone done
  unfold Slot.stepDone at done
  split at done
  · rename_i k outcome found
    cases failure : Retention.taskFailure outcome with
    | none =>
      simp only [failure] at done
      cases done
      have quiet : (finished outcome : StepPhase E).busy = false := by
        simp [busy, failure]
      have due := @Converging.reported E s (s.setPhase t .reported) answers t k c outcome found (s.records k)
        (update_eq_self k s.records).symm rfl rfl rfl (.inl ⟨rfl, quiet⟩)
      refine .before (.setPhase t _) (due.advance ?_ after)
      exact fun other => ⟨(inv.dead k other).2.1, (inv.dead k other).2.2.1⟩
    | some error =>
      simp only [failure] at done
      cases done
      split
      · rename_i withdrawn
        have due := @Converging.reported E s ((s.setPhase t .reported).setRoom k
          { s.records k with state := .idle }) answers t k c outcome found _ rfl rfl rfl rfl
          (.inr ⟨rfl, withdrawn.1⟩)
        rw [if_pos withdrawn] at after
        have idled : Same (s.setPhase t .reported) ((s.setPhase t .reported).setRoom k
            { s.records k with state := .idle }) := .of_update rfl rfl rfl
        refine .before (.setPhase t .reported) (.before idled (due.advance ?_ after))
        intro other
        have dead := inv.dead k other
        exact ⟨(congrArg Room.execution (records_setRoom ..)).trans dead.2.1, withdrawn.2⟩
      · exact c.stepFailed inv found failure
  · cases done

/-! ### Every signal -/

theorem Advances.answered (advances : Advances answers s s') {signal : RoomSignal E}
    (silent : ∀ k, s.stopAnswers signal k = []) :
    s'.Converging (s.answersAfter s' signal answers) (fun _ => False) ∧ Progress answers s s' := by
  have same : s.answersAfter s' signal answers = s'.kept answers := by
    funext k
    rw [answersAfter, silent, append_nil, kept]
  rw [same]
  exact ⟨advances.converging, advances.progress⟩

theorem Converging.step (inv : s.Inv a) (c : s.Converging answers fun _ => False) {signal : RoomSignal E}
    (stepped : s.step a signal = some s') :
    s'.Converging (s.answersAfter s' signal answers) (fun _ => False) ∧ Progress answers s s' := by
  cases signal with
  | admitRoom => cases stepped; exact (c.admitRoom inv).answered fun _ => rfl
  | requestAdmission => cases stepped; exact (c.requestAdmission inv).answered fun _ => rfl
  | hold event => cases stepped; exact (c.hold inv event).answered fun _ => rfl
  | roomEvent event => cases stepped; exact (c.roomEvent inv event).answered fun _ => rfl
  | withdraw => cases stepped; exact (c.withdraw inv).answered fun _ => rfl
  | converge => cases stepped; exact (c.converge inv).answered fun _ => rfl
  | destroy timeout => cases stepped; exact (c.destroy inv timeout).answered fun _ => rfl
  | runStep t build => exact (c.runStep stepped).answered fun _ => rfl
  | cancelStep t message => exact (c.cancelStep stepped).answered fun _ => rfl
  | startEnded t outcome resyncs => exact (c.startEnded inv stepped).answered fun _ => rfl
  | eventEnded t outcome resyncs => exact (c.eventEnded inv stepped).answered fun _ => rfl
  | resyncEnded t outcome => exact (c.resyncEnded inv stepped).answered fun _ => rfl
  | stopEnded t outcome graceful => exact c.stopEnded inv stepped
  | releaseEnded t outcome => exact (c.releaseEnded inv stepped).answered fun _ => rfl
  | stepDone t => exact (c.stepDone inv stepped).answered fun _ => rfl

end Slot

/-! ## Runs -/

def RoomExecutions.answersAfter (w w' : RoomExecutions E) (event : RoomsEvent E)
    (answers : String → Nat → List Bool) (roomId : String) : Nat → List Bool :=
  match event with
  | .room id signal =>
    if id = roomId then (w.slots roomId).answersAfter (w'.slots roomId) signal (answers roomId)
    else answers roomId
  | _ => (w'.slots roomId).kept (answers roomId)

/-- The owner of every room, with what the stops of each convergence reported. -/
def watchedRooms (E : Type) : Machine (RoomExecutions E × (String → Nat → List Bool)) (RoomsEvent E) where
  init p := p = ({}, fun _ _ => [])
  step p event := (p.1.step event).map fun w => (w, p.1.answersAfter w event p.2)

variable {w w' : RoomExecutions E} {answers : String → Nat → List Bool}

theorem RoomExecutions.converging_step (inv : w.Inv)
    (c : ∀ roomId, (w.slots roomId).Converging (answers roomId) fun _ => False) {event : RoomsEvent E}
    (stepped : w.step event = some w') (roomId : String) :
    (w'.slots roomId).Converging (w.answersAfter w' event answers roomId) (fun _ => False) ∧
      Slot.Progress (answers roomId) (w.slots roomId) (w'.slots roomId) := by
  cases event with
  | room id signal =>
    obtain ⟨s', moved, rfl⟩ := map_eq_some_iff.1 stepped
    by_cases same : id = roomId
    · subst same
      simp only [answersAfter, if_true, update_self]
      exact (c id).step (inv id) moved
    · simp only [answersAfter, if_neg same, update_of_ne (Ne.symm same)]
      exact ⟨c roomId, Slot.Same.progress ⟨fun _ => rfl, rfl⟩ _⟩
  | convergeUnserved =>
    cases stepped
    obtain ⟨converging, progress⟩ := (c roomId).convergeUnserved (inv roomId)
    exact ⟨converging, progress⟩
  | close timeout =>
    cases stepped
    have kept := (c roomId).kept_eq
    refine ⟨?_, Slot.Same.progress ⟨fun _ => rfl, rfl⟩ _⟩
    show (w.slots roomId).Converging ((w.slots roomId).kept (answers roomId)) _
    rw [kept]
    exact c roomId

theorem RoomExecutions.converging_of_reachable (reached : (watchedRooms E).Reachable (w, answers)) :
    w.Inv ∧ ∀ roomId, (w.slots roomId).Converging (answers roomId) fun _ => False := by
  refine reached.invariant (P := fun p => p.1.Inv ∧ ∀ roomId, (p.1.slots roomId).Converging (p.2 roomId)
    fun _ => False) ?_ ?_
  · rintro p rfl
    refine ⟨fun roomId => Slot.Inv.fresh roomId, fun roomId => ?_⟩
    refine ⟨nofun, nofun, ?_, nofun, fun _ _ => rfl, nofun, nofun⟩
    rintro k (starting | retiring)
    · cases starting
    · cases retiring
  · rintro ⟨w, answers⟩ event ⟨w', answers'⟩ ⟨inv, c⟩ stepped
    obtain ⟨after, moved, same⟩ := map_eq_some_iff.1 stepped
    obtain ⟨rfl, rfl⟩ := Prod.mk.inj same
    exact ⟨inv.step moved, fun roomId => (converging_step inv c moved roomId).1⟩

/-- **Every convergence is completed once.**  A record holds one only while it is the room's and a step of it
is under way.  A step of the loop completes at most one: it leaves its record with one outcome, and it is
settled gracefully only if every stop performed in it was. -/
theorem convergences_settled (reached : (watchedRooms E).Reachable (w, answers)) (roomId : String) :
    (∀ k graceful, ((w.slots roomId).records k).convergence = some graceful →
      (w.slots roomId).current = some k ∧
        ∃ (t : Nat) (p : StepPhase E), (w.slots roomId).steps[t]? = some ⟨k, p⟩ ∧ p ≠ .reported) ∧
    (∀ event w', w.step event = some w' →
      Slot.Progress (answers roomId) (w.slots roomId) (w'.slots roomId)) := by
  obtain ⟨inv, c⟩ := converging_of_reachable reached
  refine ⟨fun k graceful held => ⟨(c roomId).current k graceful held, ?_⟩, fun event w' stepped => ?_⟩
  · exact ((c roomId).flight k graceful held).resolve_left id
  · exact (converging_step inv c stepped roomId).2

/-- A room is served, then destroyed by a stop that was not graceful. -/
theorem convergences_settled_ungraceful : ∃ w answers, (watchedRooms Nat).Reachable (w, answers) ∧
    (w.slots "room").outcomes = [.settled true] ∧ answers "room" 0 = [false] ∧
    Slot.Progress (answers "room") (w.slots "room") (((w.slots "room").step w.admission (.stepDone 1)).getD
      (w.slots "room")) := by
  have ran : ((watchedRooms Nat).run ({}, fun _ _ => []) [.room "room" .requestAdmission,
      .room "room" (.runStep 0 .returned), .room "room" (.startEnded 0 .returned false),
      .room "room" (.stepDone 0), .room "room" (.destroy none), .room "room" (.runStep 1 .returned),
      .room "room" (.stopEnded 1 .returned false), .room "room" (.releaseEnded 1 .returned)]).map (fun p =>
        decide ((p.1.slots "room").outcomes = [.settled true] ∧ p.2 "room" 0 = [false] ∧
          ((p.1.slots "room").step p.1.admission (.stepDone 1)).isSome = true)) = some true := by
    decide +kernel
  obtain ⟨⟨w, answers⟩, run, found⟩ := map_eq_some_iff.1 ran
  obtain ⟨outcomes, reported, able⟩ := of_decide_eq_true found
  have reached : (watchedRooms Nat).Reachable (w, answers) := ⟨_, rfl, _, run⟩
  obtain ⟨s', moved⟩ := isSome_iff_exists.1 able
  refine ⟨w, answers, reached, outcomes, reported, ?_⟩
  have stepped : w.step (.room "room" (.stepDone 1)) = some { w with slots := update w.slots "room" s' } := by
    simp [step, moved]
  have progress := (convergences_settled reached "room").2 _ _ stepped
  rw [moved]
  simpa using progress

end BandSdk.Rooms

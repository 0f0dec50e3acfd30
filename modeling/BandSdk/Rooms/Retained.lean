/-
# Rooms.Retained -- what a failed start leaves held

A start takes its room's queue into a local list before it hands over the
first event.  When `execution.start` or an `on_event` call raises, what the
queue still has stays for the next execution: it leaves only as the oldest of a
full queue, in every run until an execution takes it or the room is withdrawn or
closed.  What was in the local list does not come back.

So nothing is lost exactly where the call that raised was the last of its batch,
or where the queue behind it is full and would have evicted the rest anyway.
-/
import BandSdk.Rooms.Guarantees

namespace BandSdk.Rooms

open BandSdk.Theory List Function Slot

variable {E : Type}

/-- A start found the room's queue at `generation`, with `count` executions built before it, and
took nothing from it. -/
def StepPhase.Since (generation count : Nat) : StepPhase E → Prop
  | .starting x began => began = generation ∧ count ≤ x
  | .delivering _ _ _ _ => False
  | _ => True

theorem StepPhase.since_of_created {p : StepPhase E} {generation count : Nat} (created : p.created = true) :
    p.Since generation count := by
  cases p <;> first | exact trivial | cases created

namespace Slot

variable {a : Admission} {s s' s'' : Slot E} {t k j : Nat} {p : StepPhase E} {generation count : Nat}

def Idle (s : Slot E) (generation count : Nat) : Prop := ∀ step ∈ s.steps, step.phase.Since generation count

/-- The record's queue and admission are untouched. -/
structure Stays (a : Admission) (k : Nat) (s s' : Slot E) : Prop where
  current : s'.current = s.current
  held : (s'.records k).held = (s.records k).held
  generation : (s'.records k).generation = (s.records k).generation
  admitted : admits a (s.records k) = true → admits a (s'.records k) = true
  arrivals : s'.arrivals = s.arrivals
  executions : s.executions.length ≤ s'.executions.length
  idle : ∀ count, count ≤ s.executions.length → s.Idle (s.records k).generation count →
    s'.Idle (s.records k).generation count

theorem Stays.refl : s.Stays a k s := ⟨rfl, rfl, rfl, id, rfl, Nat.le_refl _, fun _ _ idle => idle⟩

theorem Stays.trans (first : s.Stays a k s') (second : s'.Stays a k s'') : s.Stays a k s'' where
  current := second.current.trans first.current
  held := second.held.trans first.held
  generation := second.generation.trans first.generation
  admitted := second.admitted ∘ first.admitted
  arrivals := second.arrivals.trans first.arrivals
  executions := Nat.le_trans first.executions second.executions
  idle := by
    intro count before idle
    have middle := first.idle count before idle
    rw [← first.generation] at middle ⊢
    exact second.idle count (Nat.le_trans before first.executions) middle

/-- A record as its queue's reader has it. -/
structure Unread (a : Admission) (room room' : Room E) : Prop where
  held : room'.held = room.held
  generation : room'.generation = room.generation
  admitted : admits a room = true → admits a room' = true

/-- One record is written, where the queue's reader does not look, and the steps move on. -/
theorem Stays.write {room : Room E} (records : s'.records = Function.update s.records j room)
    (unread : j = k → Unread a (s.records j) room) (current : s'.current = s.current)
    (arrivals : s'.arrivals = s.arrivals) (executions : s.executions.length ≤ s'.executions.length)
    (idle : ∀ count, count ≤ s.executions.length → s.Idle (s.records k).generation count →
      s'.Idle (s.records k).generation count) : s.Stays a k s' := by
  by_cases here : j = k
  · subst here
    have room' : s'.records j = room := by rw [records, update_self]
    have kept := unread rfl
    rw [← room'] at kept
    exact ⟨current, kept.held, kept.generation, kept.admitted, arrivals, executions, idle⟩
  · have there : s'.records k = s.records k := by rw [records, update_of_ne (Ne.symm here)]
    refine ⟨current, ?_, ?_, ?_, arrivals, executions, idle⟩ <;> rw [there]
    exact id

theorem Stays.setRoom {room : Room E} (unread : j = k → Unread a (s.records j) room) :
    s.Stays a k (s.setRoom j room) :=
  .write rfl unread rfl rfl (Nat.le_refl _) fun _ _ idle => idle

theorem Stays.settle (j : Nat) : s.Stays a k (s.settle j) := by
  unfold Slot.settle
  split
  · exact .refl
  · exact .write rfl (fun _ => ⟨rfl, rfl, id⟩) rfl rfl (Nat.le_refl _) fun _ _ idle => idle

theorem Stays.fail (j : Nat) (outcome : ConvergenceOutcome) : s.Stays a k (s.fail j outcome) := by
  unfold Slot.fail
  split
  · exact .refl
  · exact .write rfl (fun _ => ⟨rfl, rfl, id⟩) rfl rfl (Nat.le_refl _) fun _ _ idle => idle

theorem idle_append {step : Step E} (since : step.phase.Since generation count) (idle : s.Idle generation count)
    (steps : s'.steps = s.steps ++ [step]) : s'.Idle generation count := by
  intro step' member
  rw [steps, mem_append, mem_singleton] at member
  rcases member with old | rfl
  · exact idle step' old
  · exact since

theorem Stays.takeStep (j : Nat) (state : RoomState) (created : p.created = true) :
    s.Stays a k (s.takeStep j state p) := by
  have begun : s.Stays a k (s.setRoom j { s.records j with
      convergence := some ((s.records j).convergence.getD true) }) := .setRoom fun _ => ⟨rfl, rfl, id⟩
  by_cases left : (s.records j).stepsLeft = 0
  · have shape : s.takeStep j state p = (s.setRoom j { s.records j with
        convergence := some ((s.records j).convergence.getD true) }).fail j (.exceeded s.exceededError) := by
      simp [Slot.takeStep, left, exceededError, Slot.setRoom]
    rw [shape]
    exact begun.trans (.fail j _)
  · rw [takeStep_shape left]
    refine .write rfl (fun _ => ⟨rfl, rfl, id⟩) rfl rfl (Nat.le_refl _) fun count _ idle => ?_
    exact idle_append (StepPhase.since_of_created created) idle rfl

/-- Only the owner of a room nobody wants forgets it. -/
theorem Stays.advance (registered : s.current = some k) (admitted : admits a (s.records k) = true) (j : Nat) :
    s.Stays a k (s.advance a j) := by
  unfold Slot.advance
  split
  · exact .refl
  · exact .refl
  · exact .settle j
  · have unwanted : admits a (s.records j) = false := by assumption
    unfold forget
    have other : s.current ≠ some j := by
      intro here
      rw [registered, Option.some.injEq] at here
      subst here
      rw [admitted] at unwanted
      cases unwanted
    rw [if_neg other]
    exact .settle j
  · exact .takeStep j _ rfl
  have unrouted : s.Stays a k { s with routed := none } :=
    .write (update_eq_self j _).symm (fun _ => ⟨rfl, rfl, id⟩) rfl rfl (Nat.le_refl _)
      fun _ _ idle => idle
  exact unrouted.trans (.takeStep j _ rfl)

theorem Stays.signal (registered : s.current = some k) (admitted : admits a (s.records k) = true) (j : Nat) :
    s.Stays a k (s.signal a j) := by
  have renewed : s.Stays a k (s.setRoom j { s.records j with stepsLeft := maxStepsPerSignal }) :=
    .setRoom fun _ => ⟨rfl, rfl, id⟩
  exact renewed.trans (.advance (renewed.current.trans registered) (renewed.admitted admitted) j)

/-! ## Step tasks -/

theorem idle_modify {f : Step E → Step E} (since : ∀ step, (f step).phase.Since generation count)
    (idle : s.Idle generation count) (steps : s'.steps = s.steps.modify t f) : s'.Idle generation count := by
  intro step member
  obtain ⟨i, found⟩ := mem_iff_getElem?.1 member
  rw [steps] at found
  rcases getElem?_modify_cases found with ⟨rfl, old, -, rfl⟩ | ⟨-, kept⟩
  · exact since old
  · exact idle step (mem_of_getElem? kept)

/-- A step moves to a phase that takes nothing from the queue. -/
theorem Stays.move {room : Room E} (records : s'.records = Function.update s.records j room)
    (unread : j = k → Unread a (s.records j) room) (current : s'.current = s.current)
    (arrivals : s'.arrivals = s.arrivals) (executions : s.executions.length ≤ s'.executions.length)
    (steps : s'.steps = s.steps.modify t fun step => { step with phase := p })
    (since : ∀ count, count ≤ s.executions.length → p.Since (s.records k).generation count) :
    s.Stays a k s' :=
  .write records unread current arrivals executions fun count before idle =>
    idle_modify (fun _ => since count before) idle steps

theorem Stays.setPhase (t : Nat) (since : ∀ generation count, p.Since generation count) :
    s.Stays a k (s.setPhase t p) :=
  .move (update_eq_self k s.records).symm (fun _ => ⟨rfl, rfl, id⟩) rfl rfl (Nat.le_refl _) rfl
    fun _ _ => since _ _

theorem Stays.mark (x : ExecId) (f : Execution → Execution) : s.Stays a k (s.mark x f) := by
  refine .write (update_eq_self k s.records).symm (fun _ => ⟨rfl, rfl, id⟩) rfl rfl ?_
    fun _ _ idle => idle
  simp [Slot.mark]

theorem Stays.endStart (t j : Nat) : s.Stays a k (s.endStart t j) :=
  .move (t := t) (p := .finished .returned) rfl (fun _ => ⟨rfl, rfl, id⟩) rfl rfl (Nat.le_refl _) rfl
    fun _ _ => trivial

theorem Stays.runStep (inv : s.Inv a) (registered : s.current = some k) {build : Outcome}
    (ran : s.runStep a t build = some s') : s.Stays a k s' := by
  obtain ⟨-, ran⟩ := of_barred ran
  split at ran
  · rename_i j found
    have here : j = k := by
      have current := inv.busy_current t _ found rfl
      rw [registered, Option.some.injEq] at current
      exact current.symm
    subst here
    split at ran
    · cases ran
      refine .move (t := t) rfl (fun _ => ⟨rfl, rfl, id⟩) rfl rfl ?_ rfl fun count before => ⟨rfl, before⟩
      simp [Slot.setPhase]
    · cases ran
      exact .setPhase t fun _ _ => trivial
  · cases ran
    exact Stays.trans (.mark _ _) (.setPhase t fun _ _ => trivial)
  · cases ran

theorem Stays.cancelStep {message : String} (ran : s.cancelStep t message = some s') : s.Stays a k s' := by
  obtain ⟨-, ran⟩ := of_barred ran
  split at ran
  · cases ran
    exact .setPhase t fun _ _ => trivial
  · cases ran
    exact .setPhase t fun _ _ => trivial
  · cases ran

theorem Stays.startFailed {outcome : Outcome} {resyncs : Bool} (failed : outcome ≠ .returned)
    (ended : s.startEnded a t outcome resyncs = some s') : s.Stays a k s' := by
  unfold startEnded at ended
  split at ended
  · cases ended
    rw [if_neg failed]
    exact .setPhase t fun _ _ => trivial
  · cases ended

theorem Stays.resyncEnded {outcome : Outcome} (ended : s.resyncEnded t outcome = some s') : s.Stays a k s' := by
  unfold Slot.resyncEnded at ended
  split at ended
  · cases ended
    exact .setPhase t fun _ _ => trivial
  · cases ended
    exact .endStart t _
  · cases ended

theorem Stays.stopEnded {outcome : Outcome} {graceful : Bool} (ended : s.stopEnded t outcome graceful = some s') :
    s.Stays a k s' := by
  unfold Slot.stopEnded at ended
  split at ended
  · cases ended
    split
    · exact Stays.trans (.mark _ _) (.setPhase t fun _ _ => trivial)
    · exact .setPhase t fun _ _ => trivial
  · cases ended

theorem Stays.releaseEnded {outcome : Outcome} (ended : s.releaseEnded t outcome = some s') : s.Stays a k s' := by
  unfold Slot.releaseEnded at ended
  split at ended
  · cases ended
    split
    · refine Stays.trans (.mark _ _) (Stays.trans (.setRoom fun _ => ?_) (.setPhase t fun _ _ => trivial))
      exact ⟨rfl, rfl, id⟩
    · exact .setPhase t fun _ _ => trivial
  · cases ended

theorem Stays.stepDone (registered : s.current = some k) (admitted : admits a (s.records k) = true)
    (done : s.stepDone a t = some s') : s.Stays a k s' := by
  unfold Slot.stepDone at done
  split at done
  · rename_i j outcome found
    cases done
    have reported : s.Stays a k (s.setPhase t .reported) := .setPhase t fun _ _ => trivial
    dsimp only
    split
    · exact reported.trans (.advance (reported.current.trans registered) (reported.admitted admitted) j)
    have idle : s.Stays a k ((s.setPhase t .reported).setRoom j
        { (s.setPhase t .reported).records j with state := .idle }) :=
      reported.trans (.setRoom fun _ => ⟨rfl, rfl, id⟩)
    split
    · exact idle.trans (.advance (idle.current.trans registered) (idle.admitted admitted) j)
    · exact idle.trans (.fail j _)
  · cases done

/-! ## What waits for the next execution -/

/-- The record's queue is `items` and what was held since `arrived` events were, in order, less the
oldest ones; and it is full if some of them are gone. -/
def Holds (s : Slot E) (k : Nat) (items : List (Held E)) (arrived : Nat) : Prop :=
  ∃ since gone, (s.records k).held = (items ++ since).drop gone ∧
    (gone = 0 ∨ (s.records k).held.length = maxHeldEvents) ∧
    since.map (·.seq) = List.range' arrived since.length ∧ s.arrivals = arrived + since.length

/-- `items`, which waited when the start of record `k` failed in `s₀`, wait on. -/
structure StillHeld (s : Slot E) (a : Admission) (s₀ : Slot E) (k : Nat) (items : List (Held E)) : Prop where
  registered : s.current = some k
  admitted : admits a (s.records k) = true
  held : s.Holds k items s₀.arrivals
  /-- A later execution, once it started, is handed the oldest and has the rest as its batch. -/
  next : ∀ (t : Nat) (x : ExecId) (generation : Nat) (item : Held E) (rest : List (Held E)) (resyncs : Bool),
    s.steps[t]? = some ⟨k, .starting x generation⟩ → (s.records k).held = item :: rest →
    s₀.executions.length ≤ x ∧ ∃ s', s.startEnded a t .returned resyncs = some s' ∧
      s'.steps[t]? = some ⟨k, .delivering x generation rest 0⟩ ∧ s'.log = s.log ++ [.handed item x]

/-- The invariant of the runs that no later execution takes part in. -/
structure Waits (s : Slot E) (a : Admission) (s₀ : Slot E) (k : Nat) (items : List (Held E)) : Prop where
  registered : s.current = some k
  admitted : admits a (s.records k) = true
  held : s.Holds k items s₀.arrivals
  generation : (s.records k).generation = (s₀.records k).generation
  executions : s₀.executions.length ≤ s.executions.length
  idle : s.Idle (s₀.records k).generation s₀.executions.length

variable {s₀ : Slot E} {items : List (Held E)}

section

variable (waits : s.Waits a s₀ k items)
include waits

theorem Waits.stays (stays : s.Stays a k s') : s'.Waits a s₀ k items where
  registered := stays.current.trans waits.registered
  admitted := stays.admitted waits.admitted
  held := by
    unfold Holds
    rw [stays.held, stays.arrivals]
    exact waits.held
  generation := stays.generation.trans waits.generation
  executions := Nat.le_trans waits.executions stays.executions
  idle := by
    have idle := waits.idle
    rw [← waits.generation] at idle ⊢
    exact stays.idle _ waits.executions idle

theorem Waits.signal : (s.signal a k).Waits a s₀ k items :=
  waits.stays (.signal waits.registered waits.admitted k)

omit waits in
/-- Another event is held: the oldest makes room for it in a full queue. -/
theorem Holds.arrived {arrived : Nat} (held : s.Holds k items arrived) {item : Held E}
    (number : item.seq = s.arrivals) (arrivals : s'.arrivals = s.arrivals + 1)
    (queue : (s'.records k).held = (if (s.records k).held.length = maxHeldEvents then (s.records k).held.drop 1
      else (s.records k).held) ++ [item]) : s'.Holds k items arrived := by
  obtain ⟨since, gone, left, full, numbers, count⟩ := held
  have numbered : (since ++ [item]).map (·.seq) = List.range' arrived (since ++ [item]).length := by
    rw [map_append, numbers, length_append, length_singleton, List.range'_concat, Nat.one_mul,
      ← count, ← number]
    rfl
  have counted : s'.arrivals = arrived + (since ++ [item]).length := by
    rw [arrivals, count, length_append, length_singleton, Nat.add_assoc]
  by_cases max : (s.records k).held.length = maxHeldEvents
  · rw [if_pos max] at queue
    have some_ : gone < (items ++ since).length := by
      have size := congrArg List.length left
      rw [max, length_drop] at size
      unfold maxHeldEvents at size
      omega
    refine ⟨since ++ [item], gone + 1, ?_, .inr ?_, numbered, counted⟩
    · rw [queue, left, drop_drop, ← append_assoc, drop_append_of_le_length some_]
    · rw [queue, length_append, length_drop, max]
      rfl
  · rw [if_neg max] at queue
    have all : gone = 0 := full.resolve_right max
    refine ⟨since ++ [item], 0, ?_, .inl rfl, numbered, counted⟩
    rw [queue, left, all, drop_zero, drop_zero, append_assoc]

theorem Waits.hold (event : E) : (s.hold a event).Waits a s₀ k items := by
  have wanted : (s.records k).wanted = true := by
    have admitted := waits.admitted
    rw [admits, Bool.and_eq_true] at admitted
    exact admitted.1
  unfold Slot.hold
  rw [waits.registered]
  dsimp only
  rw [if_neg (by simp [wanted])]
  refine Waits.signal ⟨waits.registered, ?_, ?_, ?_, waits.executions, waits.idle⟩
  · simpa [setRoom, admits] using waits.admitted
  · have number : (⟨k, (s.records k).generation, s.arrivals, event⟩ : Held E).seq = s.arrivals := rfl
    refine waits.held.arrived number rfl ?_
    simp [setRoom]
  · simpa [setRoom] using waits.generation

theorem Waits.requestAdmission : (s.requestAdmission a).Waits a s₀ k items := by
  have wanted : (s.setRoom k { s.records k with wanted := true }).Waits a s₀ k items := by
    refine waits.stays (.setRoom fun _ => ⟨rfl, rfl, fun admitted => ?_⟩)
    rw [admits, Bool.and_eq_true] at admitted ⊢
    exact ⟨rfl, admitted.2⟩
  unfold Slot.requestAdmission
  rw [waits.registered]
  exact wanted.signal

/-- The step can only be delivering if a start took the queue. -/
theorem Waits.not_delivering {outcome : Outcome} {resyncs : Bool} :
    s.eventEnded a t outcome resyncs = none := by
  unfold eventEnded
  split
  · rename_i found
    exact (waits.idle _ (mem_of_getElem? found)).elim
  · rfl

end

end Slot

/-! ## Runs -/

/-- The call of `start` or `on_event` that step `t` awaits raises. -/
def RoomSignal.raises (t : Nat) : RoomSignal E → Bool
  | .startEnded t' outcome _ | .eventEnded t' outcome _ => t' == t && outcome != .returned
  | _ => false

/-- The event withdraws the room, closes its owner, or lets an execution take what the room holds. -/
def RoomsEvent.overtakes (roomId : String) : RoomsEvent E → Bool
  | .room id .withdraw | .room id (.destroy _) => id == roomId
  | .room id (.startEnded _ outcome _) => id == roomId && outcome == .returned
  | .close _ => true
  | _ => false

/-- The runs in which the room stays wanted and no execution takes what it holds. -/
def waitingRooms (E : Type) (roomId : String) : Machine (RoomExecutions E) (RoomsEvent E) :=
  (roomExecutions E).restrict fun _ event => !event.overtakes roomId

namespace Slot

variable {a : Admission} {s s' s₀ : Slot E} {t k : Nat} {p : StepPhase E} {items : List (Held E)}

section

variable (waits : s.Waits a s₀ k items)
include waits

theorem Waits.step (inv : s.Inv a) {roomId : String} {signal : RoomSignal E}
    (allowed : (RoomsEvent.room roomId signal).overtakes roomId = false) (stepped : s.step a signal = some s') :
    s'.Waits a s₀ k items := by
  cases signal with
  | admitRoom =>
    cases stepped
    unfold admitRoom
    split
    · exact waits
    · exact waits.requestAdmission
  | requestAdmission =>
    cases stepped
    exact waits.requestAdmission
  | hold event =>
    cases stepped
    exact waits.hold event
  | roomEvent event =>
    cases stepped
    unfold roomEvent
    split
    · refine waits.stays (.write (update_eq_self k s.records).symm ?_ rfl rfl (Nat.le_refl _)
        fun _ _ idle => idle)
      exact fun _ => ⟨rfl, rfl, id⟩
    · exact waits.hold event
  | withdraw | destroy timeout => simp [RoomsEvent.overtakes] at allowed
  | converge =>
    cases stepped
    unfold converge
    rw [waits.registered]
    exact waits.signal
  | runStep t build => exact waits.stays (.runStep inv waits.registered stepped)
  | cancelStep t message => exact waits.stays (.cancelStep stepped)
  | startEnded t outcome resyncs =>
    have failed : outcome ≠ .returned := by simpa [RoomsEvent.overtakes] using allowed
    exact waits.stays (.startFailed failed stepped)
  | eventEnded t outcome resyncs =>
    have none_ : s.eventEnded a t outcome resyncs = none := waits.not_delivering
    rw [Slot.step, none_] at stepped
    cases stepped
  | resyncEnded t outcome => exact waits.stays (.resyncEnded stepped)
  | stopEnded t outcome graceful => exact waits.stays (.stopEnded stepped)
  | releaseEnded t outcome => exact waits.stays (.releaseEnded stepped)
  | stepDone t => exact waits.stays (.stepDone waits.registered waits.admitted stepped)

theorem Waits.convergeUnserved : (s.convergeUnserved a).Waits a s₀ k items := by
  unfold Slot.convergeUnserved
  split
  · exact waits
  unfold converge
  rw [waits.registered]
  exact waits.signal

/-- A start that began since the failure is handed what waits, oldest first. -/
theorem Waits.stillHeld : s.StillHeld a s₀ k items := by
  refine ⟨waits.registered, waits.admitted, waits.held, ?_⟩
  intro t x generation item rest resyncs found queue
  obtain ⟨began, later⟩ : generation = (s₀.records k).generation ∧ s₀.executions.length ≤ x :=
    waits.idle _ (mem_of_getElem? found)
  have stands : s.stands a k generation = true := by
    rw [stands, waits.admitted, waits.generation, began]
    simp
  refine ⟨later, (s.setRoom k { s.records k with held := [] }).hand t x generation item rest 0, ?_, ?_, rfl⟩
  · unfold startEnded
    rw [found]
    simp [deliver, queue, stands, maxDeliverySteps, maxHeldEvents]
  · simp [hand, setPhase, record, setRoom, found]

end

/-- The start fails: what the queue has stays, the rest of the batch does not. -/
theorem failed_shape (inv : s.Inv a) (found : s.steps[t]? = some ⟨k, p⟩) {signal : RoomSignal E}
    (raises : signal.raises t = true) (stepped : s.step a signal = some s') :
    s.current = some k ∧ s'.current = s.current ∧ s'.records = s.records ∧ s'.arrivals = s.arrivals ∧
      s'.executions = s.executions ∧ ∀ generation count, s'.Idle generation count := by
  have rests {outcome : Outcome} (busy : p.busy = true) (generation count : Nat) (w : Slot E)
      (steps : w.steps = s.steps.modify t fun step => { step with phase := .finished outcome }) :
      w.Idle generation count := by
    intro step member
    obtain ⟨i, at_⟩ := mem_iff_getElem?.1 member
    rcases moved_cases found steps at_ with ⟨-, rfl⟩ | ⟨other, old⟩
    · trivial
    · have quiet := inv.sole found busy i step other old
      cases phase : step.phase <;> first | exact trivial | (rw [phase] at quiet; cases quiet)
  cases signal with
  | startEnded t' outcome resyncs =>
    rw [RoomSignal.raises, Bool.and_eq_true, beq_iff_eq, bne_iff_ne] at raises
    obtain ⟨rfl, failed⟩ := raises
    simp only [step, startEnded, found] at stepped
    split at stepped
    · rename_i found'
      cases found'
      rw [if_neg failed] at stepped
      cases stepped
      exact ⟨inv.busy_current t' _ found rfl, rfl, rfl, rfl, rfl, fun g c => rests rfl g c _ rfl⟩
    · cases stepped
  | eventEnded t' outcome resyncs =>
    rw [RoomSignal.raises, Bool.and_eq_true, beq_iff_eq, bne_iff_ne] at raises
    obtain ⟨rfl, failed⟩ := raises
    simp only [step, eventEnded, found] at stepped
    split at stepped
    · rename_i found'
      cases found'
      rw [if_neg failed] at stepped
      cases stepped
      exact ⟨inv.busy_current t' _ found rfl, rfl, rfl, rfl, rfl, fun g c => rests rfl g c _ rfl⟩
    · cases stepped
  | _ => cases raises

end Slot

section World

variable {w w' : RoomExecutions E} {roomId : String} {t k : Nat} {phase : StepPhase E} {signal : RoomSignal E}

theorem RoomExecutions.waits_step {s₀ : Slot E} {items : List (Held E)} (inv : w.Inv)
    (waits : (w.slots roomId).Waits w.admission s₀ k items) {event : RoomsEvent E}
    (stepped : (waitingRooms E roomId).step w event = some w') :
    (w'.slots roomId).Waits w'.admission s₀ k items := by
  obtain ⟨allowed, stepped⟩ := Machine.restrict_step stepped
  rw [Bool.not_eq_true'] at allowed
  cases event with
  | room id signal =>
    obtain ⟨s', moved, rfl⟩ := Option.map_eq_some_iff.1 stepped
    show (update w.slots id s' roomId).Waits w.admission s₀ k items
    by_cases same : id = roomId
    · subst same
      rw [update_self]
      exact waits.step (inv id) allowed moved
    · rw [update_of_ne (Ne.symm same)]
      exact waits
  | convergeUnserved =>
    cases stepped
    exact waits.convergeUnserved
  | close timeout => cases allowed

theorem RoomExecutions.waits_of_reaches {s₀ : Slot E} {items : List (Held E)} (inv : w.Inv)
    (waits : (w.slots roomId).Waits w.admission s₀ k items) (path : (waitingRooms E roomId).Reaches w w') :
    (w'.slots roomId).Waits w'.admission s₀ k items := by
  have both := path.invariant
    (P := fun w => w.Inv ∧ (w.slots roomId).Waits w.admission s₀ k items) ⟨inv, waits⟩ ?_
  · exact both.2
  · intro w event w' before stepped
    exact ⟨before.1.step (Machine.restrict_step stepped).2, RoomExecutions.waits_step before.1 before.2 stepped⟩

/-- **A failed start.**  Where `start` or an `on_event` call raises while the room is wanted, what was not
handed over yet waits for the next execution, in every run until one takes it, exactly if the call
was the last of its batch or the queue behind the batch is full. -/
theorem undelivered_held_iff (reached : (roomExecutions E).Reachable w) (raises : signal.raises t = true)
    (found : (w.slots roomId).steps[t]? = some ⟨k, phase⟩)
    (wanted : Slot.admits w.admission ((w.slots roomId).records k) = true)
    (stepped : w.step (.room roomId signal) = some w') :
    (∀ w'', (waitingRooms E roomId).Reaches w' w'' → (w''.slots roomId).StillHeld w''.admission
        (w'.slots roomId) k (phase.tail ++ ((w.slots roomId).records k).held)) ↔
      phase.tail = [] ∨ ((w.slots roomId).records k).held.length = maxHeldEvents := by
  have inv := RoomExecutions.Inv.reachable reached
  have inv' := inv.step stepped
  obtain ⟨s', moved, rfl⟩ := Option.map_eq_some_iff.1 stepped
  obtain ⟨registered, current, records, arrivals, executions, idle⟩ :=
    failed_shape (inv roomId) found raises moved
  have here : (update w.slots roomId s') roomId = s' := update_self ..
  constructor
  · intro all
    obtain ⟨since, gone, left, full, -, count⟩ := (all _ (Machine.Reaches.refl _)).held
    simp only [here, records] at left full count
    rcases full with rfl | full
    · refine .inl ?_
      have none_ : since = [] := length_eq_zero_iff.1 (by omega)
      rw [none_, append_nil, drop_zero] at left
      have size := congrArg List.length left
      rw [length_append] at size
      exact length_eq_zero_iff.1 (by omega)
    · exact .inr full
  · intro spared w'' path
    have waits : s'.Waits w.admission s' k (phase.tail ++ ((w.slots roomId).records k).held) := by
      refine ⟨current.trans registered, by rw [records]; exact wanted, ?_, rfl, Nat.le_refl _, idle _ _⟩
      refine ⟨[], phase.tail.length, ?_, ?_, rfl, rfl⟩
      · rw [append_nil, drop_left, records]
      · rcases spared with none_ | full
        · exact .inl (by rw [none_]; rfl)
        · exact .inr (by rw [records]; exact full)
    have start : ((update w.slots roomId s') roomId).Waits w.admission
        ((update w.slots roomId s') roomId) k
        (phase.tail ++ ((w.slots roomId).records k).held) := by
      rw [here]
      exact waits
    exact (RoomExecutions.waits_of_reaches inv' start path).stillHeld

end World

/-- Two events are held and the execution's start raises. -/
def startFailsEvents : List (RoomsEvent Nat) :=
  [.room "room" .requestAdmission, .room "room" (.roomEvent 7), .room "room" (.roomEvent 8),
    .room "room" (.runStep 0 .returned)]

def startFailsWorld : RoomExecutions Nat := ((roomExecutions Nat).run {} startFailsEvents).getD {}

theorem undelivered_held_after_start : ∃ w', startFailsWorld.step
      (.room "room" (.startEnded 0 (.raised ⟨"RuntimeError", ""⟩) false)) = some w' ∧
    ∀ w'', (waitingRooms Nat "room").Reaches w' w'' →
      (w''.slots "room").StillHeld w''.admission (w'.slots "room") 0 [⟨0, 0, 0, 7⟩, ⟨0, 0, 1, 8⟩] := by
  have reached : (roomExecutions Nat).Reachable startFailsWorld := ⟨{}, rfl, startFailsEvents, rfl⟩
  refine ⟨_, rfl, ?_⟩
  exact (@undelivered_held_iff Nat startFailsWorld _ "room" 0 0 (.starting 0 0)
    (.startEnded 0 (.raised ⟨"RuntimeError", ""⟩) false) reached rfl rfl rfl rfl).2 (.inl rfl)

/-- The execution takes the two as one batch and raises over the first. -/
def batchFailsEvents : List (RoomsEvent Nat) :=
  startFailsEvents ++ [.room "room" (.startEnded 0 .returned false)]

def batchFailsWorld : RoomExecutions Nat := ((roomExecutions Nat).run {} batchFailsEvents).getD {}

def batchLostWorld : RoomExecutions Nat :=
  (batchFailsWorld.step (.room "room" (.eventEnded 0 (.raised ⟨"RuntimeError", ""⟩) false))).getD {}

/-- The failure is reported, and the next signal has the execution retired and another one serve. -/
def replacedEvents : List (RoomsEvent Nat) :=
  [.room "room" (.stepDone 0), .room "room" .converge, .room "room" (.runStep 1 .returned),
    .room "room" (.stopEnded 1 .returned true), .room "room" (.releaseEnded 1 .returned),
    .room "room" (.stepDone 1), .room "room" (.runStep 2 .returned),
    .room "room" (.startEnded 2 .returned false)]

/-- The second event is held nowhere, and the execution that serves the room next never sees it. -/
theorem batch_lost : (roomExecutions Nat).Reachable batchFailsWorld ∧
    (batchFailsWorld.slots "room").steps[0]? = some ⟨0, .delivering 0 0 [⟨0, 0, 1, 8⟩] 0⟩ ∧
    Slot.admits batchFailsWorld.admission ((batchFailsWorld.slots "room").records 0) = true ∧
    batchFailsWorld.step (.room "room" (.eventEnded 0 (.raised ⟨"RuntimeError", ""⟩) false)) =
      some batchLostWorld ∧
    (¬ ∀ w'', (waitingRooms Nat "room").Reaches batchLostWorld w'' →
      (w''.slots "room").StillHeld w''.admission (batchLostWorld.slots "room") 0 [⟨0, 0, 1, 8⟩]) ∧
    ∃ w'', (roomExecutions Nat).run batchLostWorld replacedEvents = some w'' ∧
      (w''.slots "room").routed = some 1 ∧
      (w''.slots "room").log = [.handed ⟨0, 0, 0, 7⟩ 0, .dropped ⟨0, 0, 1, 8⟩ .lost] := by
  refine ⟨⟨{}, rfl, batchFailsEvents, rfl⟩, rfl, rfl, rfl, fun all => ?_, _, rfl, rfl, rfl⟩
  obtain ⟨since, gone, left, full, -, -⟩ := (all _ (Machine.Reaches.refl _)).held
  have empty : ([] : List (Held Nat)) = (⟨0, 0, 1, 8⟩ :: since).drop gone := left
  rcases full with rfl | full
  · cases empty
  · cases full

end BandSdk.Rooms

/-
# Rooms.Steps -- every loop step keeps the slot's invariant

`Inv.move` is the one lemma about a step task moving from one await to the next:
the task is the last of its slot and belongs to the registered record, so only
the facts of its new phase and the ownership of executions are left to show.
`Inv.step` collects the events.
-/
import BandSdk.Rooms.Invariant

namespace BandSdk.Rooms

open BandSdk.Theory List Option Function

variable {E : Type}

namespace Slot

variable {a : Admission} {s s' : Slot E} {t k : Nat} {x : ExecId} {p p' : StepPhase E}
  {generation : Nat}

/-- Every other step of the record was reported. -/
def Alone (s : Slot E) (t k : Nat) : Prop :=
  ∀ (t' : Nat) (step : Step E), t' ≠ t → s.steps[t']? = some step → step.record = k → step.phase = .reported

section

variable (inv : s.Inv a) (found : s.steps[t]? = some ⟨k, p⟩) (busy : p.busy = true)
include inv found busy

/-- Past its first run, a step has no unreported step of its record before it. -/
theorem Inv.alone (ran : p.created = false) : s.Alone t k := by
  intro t' step other found' same
  have quiet : step.phase.busy = false := by
    by_contra unfinished
    have last := inv.busy_last t _ found busy
    have last' := inv.busy_last t' step found' (by simpa using unfinished)
    omega
  by_contra unreported
  have := inv.overtaken t' t step _ found' found same quiet unreported busy
  rw [ran] at this
  cases this

theorem Inv.alone_of_caughtUp (caught : s.caughtUp t = true) : s.Alone t k := by
  intro t' step other found' same
  have last := inv.busy_last t _ found busy
  have lt : t' < t := by
    have := (List.getElem?_eq_some_iff.1 found').1
    omega
  unfold caughtUp at caught
  rw [found] at caught
  have member : step ∈ s.steps.take t := by
    refine mem_of_getElem? (i := t') ?_
    rw [getElem?_take_of_lt lt, found']
  have reported := all_eq_true.1 caught step member
  rw [Bool.or_eq_true] at reported
  rcases reported with different | reported
  · exact absurd same (by simpa using different)
  split at reported
  · assumption
  · cases reported

/-- **A step moves to its next await.** -/
theorem Inv.move (alone : s.Alone t k) {room : Room E} (records : s'.records = Function.update s.records k room)
    (steps : s'.steps = s.steps.modify t fun step => { step with phase := p' })
    (current : s'.current = s.current) (born : s'.born = s.born)
    (outcomes : s'.outcomes = s.outcomes) (at_ : s'.At a k p') (owned : s'.Owned) : s'.Inv a := by
  have registered := inv.busy_current t _ found busy
  have last := inv.busy_last t _ found busy
  have lookup : ∀ (t' : Nat) (step : Step E), s'.steps[t']? = some step →
      (t' = t ∧ step = ⟨k, p'⟩) ∨ (t' ≠ t ∧ s.steps[t']? = some step ∧ step.phase.busy = false) := by
    intro t' step found'
    rw [steps] at found'
    rcases getElem?_modify_cases found' with ⟨rfl, old, present, rfl⟩ | ⟨other, kept⟩
    · rw [found] at present
      cases present
      exact .inl ⟨rfl, rfl⟩
    · refine .inr ⟨other, kept, ?_⟩
      by_contra unfinished
      have := inv.busy_last t' step kept (by simpa using unfinished)
      omega
  refine { owned with
    at_ := ?_, busy_current := ?_, busy_last := ?_, overtaken := ?_, step_lt := ?_
    current_lt := ?_, dead := ?_, unexceeded := ?_ }
  · intro t' step found'
    rcases lookup t' step found' with ⟨rfl, rfl⟩ | ⟨other, kept, quiet⟩
    · exact at_
    by_cases same : step.record = k
    · rw [alone t' step other kept same]
      trivial
    · have old := inv.at_ t' step kept
      cases phase : step.phase with
      | finished outcome =>
        rw [phase] at old
        have there : s'.records step.record = s.records step.record := by
          rw [records, update_of_ne same]
        simp only [At, there] at old ⊢
        exact old
      | reported => trivial
      | _ => rw [phase] at quiet; cases quiet
  · intro t' step found' running
    rcases lookup t' step found' with ⟨rfl, rfl⟩ | ⟨-, -, quiet⟩
    · exact current.trans registered
    · rw [quiet] at running; cases running
  · intro t' step found' running
    rcases lookup t' step found' with ⟨rfl, rfl⟩ | ⟨-, -, quiet⟩
    · rw [steps, length_modify]; exact last
    · rw [quiet] at running; cases running
  · intro t₁ t₂ step₁ step₂ found₁ found₂ same quiet unreported running
    rcases lookup t₂ step₂ found₂ with ⟨rfl, rfl⟩ | ⟨-, -, quiet₂⟩
    · rcases lookup t₁ step₁ found₁ with ⟨-, rfl⟩ | ⟨other, kept, -⟩
      · rw [quiet] at running; cases running
      · exact absurd (alone t₁ step₁ other kept same) unreported
    · rw [quiet₂] at running; cases running
  · intro t' step found'
    rw [born]
    rcases lookup t' step found' with ⟨rfl, rfl⟩ | ⟨-, kept, -⟩
    · exact inv.step_lt t' ⟨k, p⟩ found
    · exact inv.step_lt t' step kept
  · rw [current, born]; exact inv.current_lt
  · intro j dead
    rw [current] at dead
    rw [records, update_of_ne fun h => dead (by rw [h]; exact registered)]
    exact inv.dead j dead
  · rw [outcomes]; exact inv.unexceeded

end

/-! ## Ownership -/

/-- Marking an execution's progress keeps ownership while it is not both stopped
and released, and not routed once its stop began. -/
theorem Owned.mark (owned : s.Owned) {f : Execution → Execution}
    (record : ∀ e, (f e).record = e.record) (generation : ∀ e, (f e).generation = e.generation)
    (cleaned : ∀ e, s.executions[x]? = some e → (f e).cleaned = e.cleaned)
    (released : ∀ e, s.executions[x]? = some e → (f e).released = true → (f e).stopped = true)
    (stop : (∀ e, (f e).stopBegan = e.stopBegan) ∨ s.routed = none) : (s.mark x f).Owned := by
  have lookup : ∀ (y : Nat) (e : Execution), (s.mark x f).executions[y]? = some e →
      ∃ old, s.executions[y]? = some old ∧ e.record = old.record ∧
        e.generation = old.generation ∧ e.cleaned = old.cleaned ∧
        ((∀ e, (f e).stopBegan = e.stopBegan) → e.stopBegan = old.stopBegan) := by
    intro y e found
    rcases getElem?_modify_cases found with ⟨rfl, old, present, rfl⟩ | ⟨-, kept⟩
    · exact ⟨old, present, record old, generation old, cleaned old present, fun same => same old⟩
    · exact ⟨e, kept, rfl, rfl, rfl, fun _ => rfl⟩
  have forth : ∀ (y : Nat) (old : Execution), s.executions[y]? = some old →
      ∃ e, (s.mark x f).executions[y]? = some e ∧ e.record = old.record ∧
        e.generation = old.generation ∧ e.cleaned = old.cleaned ∧
        ((∀ e, (f e).stopBegan = e.stopBegan) → e.stopBegan = old.stopBegan) := by
    intro y old present
    show ∃ e, (s.executions.modify x f)[y]? = some e ∧ _
    by_cases same : x = y
    · subst same
      rw [getElem?_modify_eq, present]
      exact ⟨f old, rfl, record old, generation old, cleaned old present, fun same => same old⟩
    · rw [getElem?_modify_ne _ _ same]
      exact ⟨old, present, rfl, rfl, rfl, fun _ => rfl⟩
  refine ⟨?_, ?_, owned.serving, ?_, ?_⟩
  · intro j y has
    obtain ⟨old, present, same, unclean⟩ := owned.recorded j y has
    obtain ⟨e, found, record', -, cleaned', -⟩ := forth y old present
    exact ⟨e, found, record'.trans same, cleaned'.trans unclean⟩
  · intro y e found unclean
    obtain ⟨old, present, record', -, cleaned', -⟩ := lookup y e found
    rw [record']
    exact owned.kept y old present (cleaned'.symm.trans unclean)
  · intro y has
    rcases stop with same | none_
    · obtain ⟨j, old, registered, runs, wants, present, gen, unstopped⟩ := owned.routed y has
      obtain ⟨e, found, -, generation', -, stop'⟩ := forth y old present
      exact ⟨j, e, registered, runs, wants, found, generation'.trans gen, (stop' same).trans unstopped⟩
    · have has : s.routed = some y := has
      rw [none_] at has
      cases has
  · intro y e found
    have length : (s.mark x f).executions.length = s.executions.length := length_modify ..
    rcases getElem?_modify_cases found with ⟨rfl, old, present, rfl⟩ | ⟨-, kept⟩
    · refine ⟨released old present, fun unclean => ?_⟩
      rw [cleaned old present] at unclean
      rw [length]
      exact (owned.orderly y old present).2 unclean
    · rw [length]
      exact owned.orderly y e kept

theorem Owned.setPhase (owned : s.Owned) (t : Nat) (phase : StepPhase E) :
    (s.setPhase t phase).Owned :=
  ⟨owned.recorded, owned.kept, owned.serving, owned.routed, owned.orderly⟩

/-- A step moves with nothing else written. -/
theorem Inv.setPhase (inv : s.Inv a) (found : s.steps[t]? = some ⟨k, p⟩) (busy : p.busy = true)
    (alone : s.Alone t k) (at_ : s.At a k p') : (s.setPhase t p').Inv a := by
  have same : (s.setPhase t p').records = update s.records k (s.records k) :=
    (update_eq_self ..).symm
  refine inv.move found busy alone same rfl rfl rfl rfl ?_ (inv.toOwned.setPhase t p')
  cases p' <;> exact at_

/-- The log is no part of the invariant. -/
theorem Inv.record (inv : s.Inv a) (entries : List (LogEntry E)) : (s.record entries).Inv a :=
  inv.alike (fun _ => Alike.refl _) (fun k dead => (inv.dead k dead).2.2.2) rfl rfl rfl rfl rfl
    inv.unexceeded

/-- Nor is what a queue holds, once it is emptied. -/
theorem Inv.emptied (inv : s.Inv a) (k : Nat) : (s.setRoom k { s.records k with held := [] }).Inv a := by
  refine inv.alike (alike_setRoom ⟨rfl, rfl, rfl, rfl, rfl⟩) ?_ rfl rfl rfl rfl rfl inv.unexceeded
  intro j dead
  by_cases same : j = k
  · subst same; rw [records_setRoom]
  · rw [records_setRoom_of_ne same]; exact (inv.dead j dead).2.2.2

/-! ## Starting -/

/-- What a running start keeps, whichever of its awaits it is at. -/
def Starts (a : Admission) (s : Slot E) (k : Nat) (x : ExecId) (generation : Nat) : Prop :=
  s.At a k (.starting x generation)

theorem serving_iff (registered : s.current = some k) (execution : (s.records k).execution = some x) :
    s.serving = true ↔ s.routed = some x := by
  simp [Slot.serving, registered, execution]

section

variable (inv : s.Inv a)
include inv

/-- A start ends: `s₁` is the slot with what the start routed, if it did. -/
theorem Inv.endStart (found : s.steps[t]? = some ⟨k, p⟩) (busy : p.busy = true)
    (alone : s.Alone t k) {s₁ : Slot E} (records : s₁.records = s.records)
    (steps : s₁.steps = s.steps) (current : s₁.current = s.current) (born : s₁.born = s.born)
    (outcomes : s₁.outcomes = s.outcomes) (owned : s₁.Owned)
    (execution : (s.records k).execution = some x) (left : 1 ≤ (s.records k).stepsLeft)
    (budget : s₁.serving = true ∨ 3 ≤ (s.records k).stepsLeft ∨ admits a (s.records k) = false) :
    (s₁.endStart t k).Inv a := by
  obtain ⟨room, eq⟩ : ∃ room : Room E, room = { s.records k with
    state := if s₁.serving then .serving else .idle } := ⟨_, rfl⟩
  have written : (s₁.endStart t k).records = update s.records k room := by
    show update s₁.records k { s₁.records k with state := _ } = _
    rw [eq, records]
  have same : room.execution = (s.records k).execution := by rw [eq]
  have some_ : room.execution ≠ none := by rw [same, execution]; exact nofun
  have moved : (s₁.endStart t k).steps = s.steps.modify t fun step =>
      { step with phase := .finished .returned } := by
    show s₁.steps.modify t _ = _
    rw [steps]
  refine inv.move found busy alone written moved current born outcomes ?_ ?_
  · simp only [At, Retention.taskFailure, isSome_none, Bool.false_eq_true, if_false]
    rw [written, update_self]
    have same_left : room.stepsLeft = (s.records k).stepsLeft := by rw [eq]
    refine ⟨fun _ => by omega, fun idle _ => ⟨by omega, ?_⟩, fun _ none_ => absurd none_ some_⟩
    rw [eq] at idle ⊢
    rcases budget with serves | rest
    · simp [serves] at idle
    · exact rest
  · refine Owned.frame (s := s₁) owned (written.trans (by rw [records])) (by rw [records, eq])
      (fun _ => some_) rfl fun y has => ⟨has, rfl, ?_⟩
    rw [records, eq]
    exact ⟨id, rfl⟩

theorem Inv.route (registered : s.current = some k)
    (starts : s.Starts a k x generation) (stands : s.stands a k generation = true) :
    (({ s with routed := some x } : Slot E).mark x fun e => { e with routed := true }).Owned := by
  obtain ⟨-, execution, ⟨e, present, began, unstopped⟩, -⟩ := starts
  have admitted : (s.records k).wanted = true ∧ (s.records k).generation = generation := by
    simp only [Slot.stands, admits, Bool.and_eq_true, beq_iff_eq] at stands
    exact ⟨stands.1.1, stands.2⟩
  have owned : ({ s with routed := some x } : Slot E).Owned := by
    refine ⟨inv.recorded, inv.kept, inv.serving, ?_, inv.orderly⟩
    intro y has
    cases has
    exact ⟨k, e, registered, execution, admitted.1, present, began.trans admitted.2.symm, unstopped⟩
  exact owned.mark (fun _ => rfl) (fun _ => rfl) (fun _ _ => rfl) (fun e present => (inv.orderly x e present).1)
    (.inl fun _ => rfl)

section

variable (found : s.steps[t]? = some ⟨k, p⟩) (busy : p.busy = true) (alone : s.Alone t k) (starts : s.Starts a k x generation)
include found busy alone starts

theorem Inv.finishStart (resyncs : Bool) : (s.finishStart a t k x generation resyncs).Inv a := by
  have registered := inv.busy_current t _ found busy
  obtain ⟨state, execution, under, left, renewed⟩ := starts
  unfold Slot.finishStart
  split
  · rename_i stands
    have owned := inv.route registered ⟨state, execution, under, left, renewed⟩ stands
    split
    · have same : ∀ phase : StepPhase E,
          ((({ s with routed := some x } : Slot E).mark x fun e => { e with routed := true }).setPhase
            t phase).records = update s.records k (s.records k) :=
        fun _ => (update_eq_self ..).symm
      exact inv.move found busy alone (same _) rfl rfl rfl rfl
        ⟨state, execution, left, .inl rfl⟩ (owned.setPhase t _)
    · refine inv.endStart found busy alone rfl rfl rfl rfl rfl owned execution left (.inl ?_)
      simp [Slot.serving, Slot.mark, registered, execution]
  · rename_i fallen
    refine inv.endStart found busy alone rfl rfl rfl rfl rfl inv.toOwned execution left (.inr ?_)
    by_cases same : generation = (s.records k).generation
    · right
      simpa [Slot.stands, same] using fallen
    · exact .inl (renewed same)

theorem Inv.hand (item : Held E) (rest : List (Held E)) (delivered : Nat) :
    (s.hand t x generation item rest delivered).Inv a :=
  (inv.record [.handed item x]).setPhase found busy alone starts

theorem Inv.deliver (tail : List (Held E)) (delivered : Nat) (resyncs : Bool) :
    (s.deliver a t k x generation tail delivered resyncs).Inv a := by
  have emptied : ∀ entries : List (LogEntry E), ((s.record entries).setRoom k
      { s.records k with held := [] }).Starts a k x generation := by
    intro entries
    refine At.alike starts ?_ rfl rfl
    rw [records_setRoom]
    exact ⟨rfl, rfl, rfl, rfl, rfl⟩
  unfold Slot.deliver
  split
  · split
    · exact (inv.record _).finishStart found busy alone starts resyncs
    split
    · exact ((inv.record _).emptied k).finishStart found busy alone (emptied _) resyncs
    · exact inv.hand found busy alone starts ..
  · exact inv.finishStart found busy alone starts resyncs
  split
  · exact inv.finishStart found busy alone starts resyncs
  split
  · exact ((inv.record _).emptied k).finishStart found busy alone (emptied _) resyncs
  · exact (inv.emptied k).hand found busy alone (emptied []) ..

end

/-! ## The first run of a step -/

omit inv in
/-- A failed step keeps the room at what it was, for its done callback. -/
theorem at_failed {outcome : Outcome} (failed : outcome ≠ .returned)
    (held : ((s.records k).state = .starting ∧ 1 ≤ (s.records k).stepsLeft) ∨
      (s.records k).state = .retiring) : s.At a k (.finished outcome) := by
  cases outcome with
  | returned => exact absurd rfl failed
  | raised error
  | cancelled message => simpa only [At, Retention.taskFailure, isSome_some, if_true] using held

/-- A start's build: the record had no execution, so every earlier one was
cleaned up. -/
theorem Inv.build (found : s.steps[t]? = some ⟨k, .startCreated⟩) (alone : s.Alone t k) :
    Inv a (({ s.setRoom k { s.records k with execution := some s.executions.length } with
      executions := s.executions ++ [{ record := k, generation := (s.records k).generation }] } :
        Slot E).setPhase t (.starting s.executions.length (s.records k).generation)) := by
  have registered := inv.busy_current t _ found rfl
  obtain ⟨state, none_, left⟩ := inv.at_ t _ found
  have unrouted := inv.unrouted registered none_
  have others : ∀ j, j ≠ k → (s.records j).execution = none := fun j other =>
    (inv.dead j fun h => other (some.inj (h.symm.trans registered))).2.1
  have cleaned : ∀ (y : Nat) (e : Execution), s.executions[y]? = some e → e.cleaned = false → False := by
    intro y e present unclean
    have kept := inv.kept y e present unclean
    by_cases same : e.record = k
    · rw [same, none_] at kept; cases kept
    · rw [others _ same] at kept; cases kept
  obtain ⟨room, eq⟩ : ∃ room : Room E,
    room = { s.records k with execution := some s.executions.length } := ⟨_, rfl⟩
  rw [← eq]
  have new : (s.executions ++ [({ record := k, generation := (s.records k).generation } :
      Execution)])[s.executions.length]? =
        some { record := k, generation := (s.records k).generation } := by simp
  refine inv.move found rfl alone rfl rfl rfl rfl rfl ?_ ?_
  · simp only [At, Slot.setPhase, records_setRoom, Under]
    rw [eq]
    exact ⟨state, rfl, ⟨_, new, rfl, rfl⟩, left, fun ne => absurd rfl ne⟩
  · refine ⟨?_, ?_, ?_, ?_, ?_⟩
    · intro j y has
      have has : (update s.records k room j).execution = some y := has
      by_cases same : j = k
      · subst same
        rw [update_self, eq] at has
        cases has
        exact ⟨_, new, rfl, rfl⟩
      · rw [update_of_ne same, others j same] at has
        cases has
    · intro y e present unclean
      show (update s.records k room e.record).execution = some y
      rcases getElem?_append_singleton present with old | ⟨rfl, rfl⟩
      · exact (cleaned y e old unclean).elim
      · rw [update_self, eq]
    · intro j serves
      have serves : (update s.records k room j).state = .serving := serves
      by_cases same : j = k
      · subst same
        rw [update_self, eq] at serves
        rw [state] at serves
        cases serves
      · rw [update_of_ne same] at serves
        exact absurd (others j same) (inv.serving j serves)
    · intro y has
      have has : s.routed = some y := has
      rw [unrouted] at has
      cases has
    · intro y e present
      rcases getElem?_append_singleton present with old | ⟨rfl, rfl⟩
      · exact ⟨(inv.orderly y e old).1, fun unclean => (cleaned y e old unclean).elim⟩
      · exact ⟨by simp, fun _ => by simp [Slot.setPhase]⟩

theorem Inv.runStep {build : Outcome} (ran : s.runStep a t build = some s') : s'.Inv a := by
  obtain ⟨caught, ran⟩ := of_barred ran
  have caught : s.caughtUp t = true := by simpa using caught
  split at ran
  · rename_i k found
    have alone := inv.alone_of_caughtUp found rfl caught
    obtain ⟨state, none_, left⟩ := inv.at_ t _ found
    split at ran
    · cases ran
      exact inv.build found alone
    · rename_i failed
      cases ran
      exact inv.setPhase found rfl alone (at_failed failed (.inl ⟨state, left⟩))
  · rename_i k x found
    have alone := inv.alone_of_caughtUp found rfl caught
    obtain ⟨state, execution, unrouted, budget⟩ := inv.at_ t _ found
    cases ran
    have same : ∀ phase : StepPhase E, ((s.mark x fun e => { e with stopBegan := true }).setPhase t
        phase).records = update s.records k (s.records k) :=
      fun _ => (update_eq_self ..).symm
    have owned : (s.mark x fun e => { e with stopBegan := true }).Owned :=
      inv.toOwned.mark (fun _ => rfl) (fun _ => rfl) (fun _ _ => rfl)
        (fun e present => (inv.orderly x e present).1) (.inr unrouted)
    exact inv.move found rfl alone (same _) rfl rfl rfl rfl ⟨state, execution, unrouted, budget⟩
      (owned.setPhase t _)
  · cases ran

theorem Inv.cancelStep {message : String} (ran : s.cancelStep t message = some s') : s'.Inv a := by
  unfold Slot.cancelStep at ran
  split at ran
  · cases ran
  rename_i caught
  have caught : s.caughtUp t = true := by simpa using caught
  split at ran
  · rename_i k found
    obtain ⟨state, -, left⟩ := inv.at_ t _ found
    cases ran
    exact inv.setPhase found rfl (inv.alone_of_caughtUp found rfl caught)
      (at_failed nofun (.inl ⟨state, left⟩))
  · rename_i k x found
    obtain ⟨state, -⟩ := inv.at_ t _ found
    cases ran
    exact inv.setPhase found rfl (inv.alone_of_caughtUp found rfl caught)
      (at_failed nofun (.inr state))
  · cases ran

/-! ## The ends of a step's awaits -/

theorem Inv.startEnded {outcome : Outcome} {resyncs : Bool}
    (ended : s.startEnded a t outcome resyncs = some s') : s'.Inv a := by
  unfold Slot.startEnded at ended
  split at ended
  · rename_i k x generation found
    have starts := inv.at_ t _ found
    have alone := inv.alone found rfl rfl
    cases ended
    split
    · exact inv.deliver found rfl alone starts ..
    · rename_i failed
      exact inv.setPhase found rfl alone (at_failed failed (.inl ⟨starts.1, starts.2.2.2.1⟩))
  · cases ended

theorem Inv.eventEnded {outcome : Outcome} {resyncs : Bool}
    (ended : s.eventEnded a t outcome resyncs = some s') : s'.Inv a := by
  unfold Slot.eventEnded at ended
  split at ended
  · rename_i k x generation tail delivered found
    have starts := inv.at_ t _ found
    have alone := inv.alone found rfl rfl
    cases ended
    split
    · exact inv.deliver found rfl alone starts ..
    rename_i failed
    exact (inv.record _).setPhase found rfl alone
      (at_failed failed (.inl ⟨starts.1, starts.2.2.2.1⟩))
  · cases ended

theorem Inv.resyncEnded {outcome : Outcome} (ended : s.resyncEnded t outcome = some s') : s'.Inv a := by
  unfold Slot.resyncEnded at ended
  split at ended
  · rename_i k x message found
    obtain ⟨state, -, left, -⟩ := inv.at_ t _ found
    cases ended
    exact inv.setPhase found rfl (inv.alone found rfl rfl) (at_failed nofun (.inl ⟨state, left⟩))
  · rename_i k x found uncancelled
    obtain ⟨-, execution, left, kept⟩ := inv.at_ t _ found
    cases ended
    refine inv.endStart found rfl (inv.alone found rfl rfl) rfl rfl rfl rfl rfl inv.toOwned
      execution left ?_
    exact kept.imp (serving_iff (inv.busy_current t _ found rfl) execution).2 .inl
  · cases ended

theorem Inv.stopEnded {outcome : Outcome} {graceful : Bool}
    (ended : s.stopEnded t outcome graceful = some s') : s'.Inv a := by
  unfold Slot.stopEnded at ended
  split at ended
  · rename_i k x timeout found
    obtain ⟨state, execution, unrouted, budget⟩ := inv.at_ t _ found
    have alone := inv.alone found rfl rfl
    obtain ⟨e, present, -, unclean⟩ := inv.recorded k x execution
    cases ended
    split
    · have same : ∀ phase : StepPhase E, ((s.mark x fun e => { e with stopped := true }).setPhase t
          phase).records = update s.records k (s.records k) :=
        fun _ => (update_eq_self ..).symm
      have unreleased : ∀ e', s.executions[x]? = some e' → e'.released = false := by
        intro e' present'
        rw [present] at present'
        cases present'
        have first := (inv.orderly x e present).1
        revert unclean first
        simp only [Execution.cleaned]
        cases e.released <;> cases e.stopped <;> simp
      have owned : (s.mark x fun e => { e with stopped := true }).Owned := by
        refine inv.toOwned.mark (fun _ => rfl) (fun _ => rfl) ?_ (fun _ _ _ => rfl)
          (.inl fun _ => rfl)
        intro e' present'
        simp [Execution.cleaned, unreleased e' present']
      refine inv.move found rfl alone (same _) rfl rfl rfl rfl ?_ (owned.setPhase t _)
      refine ⟨state, execution, unrouted, budget, { e with stopped := true }, ?_, rfl⟩
      show (s.executions.modify x _)[x]? = _
      rw [getElem?_modify_eq, present]
      rfl
    · rename_i failed
      exact inv.setPhase found rfl alone (at_failed failed (.inr state))
  · cases ended

/-- The room's release succeeded: its execution is cleaned up and no longer
recorded. -/
theorem Inv.retired {graceful : Bool} (found : s.steps[t]? = some ⟨k, .releasing x graceful⟩) :
    Inv a (((s.mark x fun e => { e with released := true }).setRoom k { s.records k with
      execution := none, state := .idle
      convergence := (s.records k).convergence.map (· && graceful) }).setPhase t
        (.finished .returned)) := by
  have registered := inv.busy_current t _ found rfl
  obtain ⟨-, execution, unrouted, budget, e, present, stopped⟩ := inv.at_ t _ found
  have others : ∀ j, j ≠ k → (s.records j).execution = none := fun j other =>
    (inv.dead j fun h => other (some.inj (h.symm.trans registered))).2.1
  obtain ⟨room, eq⟩ : ∃ room : Room E, room = { s.records k with
      execution := none, state := .idle
      convergence := (s.records k).convergence.map (· && graceful) } := ⟨_, rfl⟩
  rw [← eq]
  have none_ : ∀ j, (update s.records k room j).execution = none := by
    intro j
    by_cases same : j = k
    · subst same; rw [update_self, eq]
    · rw [update_of_ne same, others j same]
  have cleaned : ∀ (y : Nat) (e' : Execution),
      (s.executions.modify x fun e => { e with released := true })[y]? = some e' →
      e'.cleaned = false → False := by
    intro y e' found' unclean
    rcases getElem?_modify_cases found' with ⟨rfl, old, present', rfl⟩ | ⟨other, present'⟩
    · rw [present] at present'
      cases present'
      simp [Execution.cleaned, stopped] at unclean
    · have kept := inv.kept y e' present' unclean
      by_cases same : e'.record = k
      · rw [same, execution] at kept
        exact other (some.inj kept).symm
      · rw [others _ same] at kept
        cases kept
  refine inv.move found rfl (inv.alone found rfl rfl) rfl rfl rfl rfl rfl ?_ ?_
  · simp only [At, Retention.taskFailure, isSome_none, Bool.false_eq_true, if_false,
      Slot.setPhase, records_setRoom]
    rw [eq]
    exact ⟨by simp, fun _ some_ => absurd rfl some_, fun _ _ => budget⟩
  · refine ⟨?_, ?_, ?_, ?_, ?_⟩
    · intro j y has
      have has : (update s.records k room j).execution = some y := has
      rw [none_ j] at has
      cases has
    · exact fun y e' found' unclean => (cleaned y e' found' unclean).elim
    · intro j serves
      have serves : (update s.records k room j).state = .serving := serves
      by_cases same : j = k
      · subst same; rw [update_self, eq] at serves; cases serves
      · rw [update_of_ne same] at serves
        exact absurd (others j same) (inv.serving j serves)
    · intro y has
      have has : s.routed = some y := has
      rw [unrouted] at has
      cases has
    · intro y e' found'
      refine ⟨?_, fun unclean => (cleaned y e' found' unclean).elim⟩
      rcases getElem?_modify_cases found' with ⟨rfl, old, present', rfl⟩ | ⟨-, present'⟩
      · rw [present] at present'
        cases present'
        exact fun _ => stopped
      · exact (inv.orderly y e' present').1

theorem Inv.releaseEnded {outcome : Outcome} (ended : s.releaseEnded t outcome = some s') : s'.Inv a := by
  unfold Slot.releaseEnded at ended
  split at ended
  · rename_i k x graceful found
    cases ended
    split
    · exact inv.retired found
    rename_i failed
    exact inv.setPhase found rfl (inv.alone found rfl rfl)
      (at_failed failed (.inr (inv.at_ t _ found).1))
  · cases ended

/-! ## Done callbacks -/

/-- A step that returned is reported: nothing else changes, and a later step of
its record may be under way. -/
theorem Inv.reported (found : s.steps[t]? = some ⟨k, p⟩) : (s.setPhase t .reported).Inv a := by
  have lookup : ∀ (t' : Nat) (step : Step E), (s.setPhase t .reported).steps[t']? = some step →
      step = ⟨k, .reported⟩ ∨ s.steps[t']? = some step := by
    intro t' step found'
    rcases getElem?_modify_cases found' with ⟨rfl, old, present, rfl⟩ | ⟨-, kept⟩
    · rw [found] at present
      cases present
      exact .inl rfl
    · exact .inr kept
  refine { inv with at_ := ?_, busy_current := ?_, busy_last := ?_, overtaken := ?_, step_lt := ?_ }
  · intro t' step found'
    rcases lookup t' step found' with rfl | kept
    · trivial
    · have at_ := inv.at_ t' step kept
      cases phase : step.phase <;> rw [phase] at at_ <;> exact at_
  · intro t' step found' busy
    rcases lookup t' step found' with rfl | kept
    · cases busy
    · exact inv.busy_current t' step kept busy
  · intro t' step found' busy
    rcases lookup t' step found' with rfl | kept
    · cases busy
    show t' + 1 = (s.steps.modify t _).length
    rw [length_modify]
    exact inv.busy_last t' step kept busy
  · intro t₁ t₂ step₁ step₂ found₁ found₂ same still unreported busy
    rcases lookup t₁ step₁ found₁ with rfl | kept₁
    · exact absurd rfl unreported
    rcases lookup t₂ step₂ found₂ with rfl | kept₂
    · cases busy
    · exact inv.overtaken t₁ t₂ step₁ step₂ kept₁ kept₂ same still unreported busy
  · intro t' step found'
    rcases lookup t' step found' with rfl | kept
    · exact inv.step_lt t ⟨k, p⟩ found
    · exact inv.step_lt t' step kept

theorem Inv.stepDone (done : s.stepDone a t = some s') : s'.Inv a := by
  unfold Slot.stepDone at done
  split at done
  · rename_i k outcome found
    have at_ := inv.at_ t _ found
    cases failure : Retention.taskFailure outcome with
    | none =>
      simp only [failure] at done
      cases done
      simp only [At, failure, isSome_none, Bool.false_eq_true, if_false] at at_
      exact (inv.reported found).advance k fun _ => at_
    | some error =>
      simp only [failure] at done
      cases done
      have busy : (StepPhase.finished outcome : StepPhase E).busy = true := by
        simp [StepPhase.busy, failure]
      simp only [At, failure, isSome_some, if_true] at at_
      have idle : ((s.setPhase t .reported).setRoom k
          { s.records k with state := .idle }).Inv a := by
        refine inv.move found busy (inv.alone found busy rfl) rfl rfl rfl rfl rfl trivial ?_
        exact inv.toOwned.frame rfl rfl (by simp) rfl fun x has => ⟨has, rfl, id, rfl⟩
      split
      · rename_i withdrawn
        refine idle.advance k fun _ => ?_
        have left : 1 ≤ (s.records k).stepsLeft := by
          rcases at_ with ⟨-, le⟩ | retiring
          · exact le
          have := withdrawn.1
          rw [show ((s.setPhase t .reported).records k).state = (s.records k).state from rfl,
            retiring] at this
          cases this
        have unadmitted : admits a { s.records k with state := .idle } = false := by
          have := withdrawn.2
          rwa [records_setRoom] at this
        rw [records_setRoom]
        exact ⟨by simp, fun _ _ => ⟨left, .inr unadmitted⟩, fun _ _ => .inr unadmitted⟩
      · exact idle.fail k (by simp)
  · cases done

/-! ## Every event -/

theorem Inv.step {signal : RoomSignal E} (stepped : s.step a signal = some s') : s'.Inv a := by
  cases signal with
  | admitRoom => cases stepped; exact inv.admitRoom
  | requestAdmission => cases stepped; exact inv.requestAdmission
  | hold event => cases stepped; exact inv.hold event
  | roomEvent event => cases stepped; exact inv.roomEvent event
  | withdraw => cases stepped; exact inv.withdraw
  | converge => cases stepped; exact inv.converge
  | destroy timeout => cases stepped; exact inv.destroy timeout
  | runStep t build => exact inv.runStep stepped
  | cancelStep t message => exact inv.cancelStep stepped
  | startEnded t outcome resyncs => exact inv.startEnded stepped
  | eventEnded t outcome resyncs => exact inv.eventEnded stepped
  | resyncEnded t outcome => exact inv.resyncEnded stepped
  | stopEnded t outcome graceful => exact inv.stopEnded stepped
  | releaseEnded t outcome => exact inv.releaseEnded stepped
  | stepDone t => exact inv.stepDone stepped

/-- Closing only takes admissions away. -/
theorem Inv.close (timeout : Option Nat) : s.Inv ⟨false, timeout⟩ := by
  have unadmitted : ∀ room : Room E, admits ⟨false, timeout⟩ room = false := fun room => by
    simp [admits]
  refine { inv with at_ := ?_, dead := ?_ }
  · intro t step found
    have at_ := inv.at_ t step found
    cases phase : step.phase with
    | retireCreated x | stopping x timeout =>
      rw [phase] at at_
      exact ⟨at_.1, at_.2.1, at_.2.2.1, .inr (unadmitted _)⟩
    | releasing x graceful =>
      rw [phase] at at_
      exact ⟨at_.1, at_.2.1, at_.2.2.1, .inr (unadmitted _), at_.2.2.2.2⟩
    | finished outcome =>
      rw [phase] at at_
      simp only [At] at at_ ⊢
      split
      · rename_i failed
        rw [if_pos failed] at at_
        exact at_
      · rename_i returned
        rw [if_neg returned] at at_
        exact ⟨at_.1, fun idle some_ => ⟨(at_.2.1 idle some_).1, .inr (unadmitted _)⟩,
          fun _ _ => .inr (unadmitted _)⟩
    | _ =>
      rw [phase] at at_
      exact at_
  · intro k dead
    obtain ⟨state, execution, -, held⟩ := inv.dead k dead
    exact ⟨state, execution, unadmitted _, held⟩

end

theorem Inv.fresh (roomId : String) : Inv a ({ roomId := roomId } : Slot E) where
  at_ _ _ found := by cases found
  busy_current _ _ found := by cases found
  busy_last _ _ found := by cases found
  overtaken _ _ _ _ found := by cases found
  step_lt _ _ found := by cases found
  current_lt _ registered := by cases registered
  dead _ _ := ⟨rfl, rfl, by simp [admits], rfl⟩
  unexceeded _ := by simp
  recorded _ _ has := by cases has
  kept _ _ found := by cases found
  serving _ serves := by cases serves
  routed _ has := by cases has
  orderly _ _ found := by cases found

end Slot

variable {w w' : RoomExecutions E}

def RoomExecutions.Inv (w : RoomExecutions E) : Prop :=
  ∀ roomId, (w.slots roomId).Inv w.admission

theorem RoomExecutions.Inv.step (inv : w.Inv) {event : RoomsEvent E}
    (stepped : w.step event = some w') : w'.Inv := by
  intro roomId
  cases event with
  | room id signal =>
    obtain ⟨s', moved, rfl⟩ := Option.map_eq_some_iff.1 stepped
    show (update w.slots id s' roomId).Inv w.admission
    by_cases same : roomId = id
    · subst same
      rw [update_self]
      exact (inv roomId).step moved
    · rw [update_of_ne same]
      exact inv roomId
  | convergeUnserved =>
    cases stepped
    exact (inv roomId).convergeUnserved
  | close timeout =>
    cases stepped
    exact (inv roomId).close timeout

/-- **Every reachable slot keeps its invariant.** -/
theorem RoomExecutions.Inv.reachable (reached : (roomExecutions E).Reachable w) : w.Inv := by
  refine reached.invariant ?_ fun w event w' inv stepped => inv.step stepped
  rintro w rfl roomId
  exact Slot.Inv.fresh roomId

end BandSdk.Rooms

/-
# Turns.Settlement -- terminal writes respect control

An attempt settles once.  `Sound` says where the coroutine can be in each phase
of its scope and what the attempt recorded when it settled; every event keeps it.
An INTERRUPT is obeyed wherever the intent is selected (`Obeyed`).  The one
settlement that selects none is that of a cancelled attempt: it discards an
INTERRUPT that came first, against the precedence `terminalIntent` states.
-/
import Mathlib.Tactic.ByContra
import BandSdk.Turns.Attempt

namespace BandSdk.Turns

open BandSdk.Theory Attempt TurnScope

variable {I : Type}

/-- The phases of the scope at each point. -/
def Place : Point I → AttemptPhase → Prop
  | .begun, phase | .hydrating, phase | .confirming _ _, phase | .probing _ _, phase =>
    phase = .preparing
  | .preparing, phase | .waiting, phase | .draining _, phase | .cancelledDraining, phase =>
    phase = .admitted
  | .cancelledUnwinding, phase => phase = .admitted ∨ phase = .settled
  | .unwinding _ _, phase | .aborting, phase | .acknowledging _, phase | .reporting, phase =>
    phase = .settled
  | .ended _, phase => phase = .settled ∨ phase = .abandoned

/-- What a STOP or a shutdown without an INTERRUPT lets a scope write: nothing. -/
def Obeys (kind : Option ControlMode) (shutdown : Bool) (intent : Option DeliveryStatus) : Prop :=
  (kind = some .stop → intent = none) ∧ (shutdown = true → kind ≠ some .interrupt → intent = none)

namespace Attempt

variable {a a' : Attempt I}

/-- One record for each original, with the intent's status. -/
def writes (originals : List I) (intent : Option DeliveryStatus) : List (I × DeliveryStatus) :=
  match intent with
  | some status => originals.map (·, status)
  | none => []

structure Sound (a : Attempt I) : Prop where
  unsettled : a.scope.settled = false → a.records = [] ∧ a.scope.intent = none ∧ a.settledAs = none
  settled : a.scope.settled = true →
    (∃ shutdown, a.settledAs = some (a.scope.kind, shutdown) ∧ Obeys a.scope.kind shutdown a.scope.intent) ∧
    a.records = writes a.scope.originals a.scope.intent
  interrupted : a.scope.kind = some .interrupt → a.scope.admitted = true
  place : Place a.point a.scope.phase

/-- A settled scope whose kind is INTERRUPT consumes its originals. -/
def Obeyed (a : Attempt I) : Prop :=
  a.scope.settled = true → a.scope.kind = some .interrupt → a.scope.intent = some .processed

theorem terminalIntent_obeys (scope : TurnScope I) (owner : Option HandlerEnd) (timedOut : Bool) :
    Obeys scope.kind scope.shutdown (scope.terminalIntent owner timedOut) := by
  refine ⟨fun stop => by simp [terminalIntent, stop], fun shutdown other => ?_⟩
  simp [terminalIntent, shutdown, other]

theorem terminalIntent_interrupt {scope : TurnScope I} (kind : scope.kind = some .interrupt)
    (owner : Option HandlerEnd) (timedOut : Bool) :
    scope.terminalIntent owner timedOut = some .processed := by
  simp [terminalIntent, kind]

/-- Only `processed` and `failed` are ever written. -/
theorem terminalIntent_cases (scope : TurnScope I) (owner : Option HandlerEnd) (timedOut : Bool) :
    scope.terminalIntent owner timedOut = none ∨ scope.terminalIntent owner timedOut = some .processed ∨
      scope.terminalIntent owner timedOut = some .failed := by
  unfold terminalIntent
  repeat' split
  all_goals simp

/-! ## Storing an intent -/

theorem storeIntent_settled (done : a.scope.settled = true) (intent : Option DeliveryStatus) :
    a.storeIntent intent = some a := by
  simp [storeIntent, settle_settled a.scope done]

/-- The attempt once an intent is stored. -/
def stored (a : Attempt I) (intent : Option DeliveryStatus) : Attempt I :=
  { a with
    scope := a.scope.frozen intent
    records := a.records ++ writes a.scope.originals intent
    settledAs := some (a.scope.kind, a.scope.shutdown) }

theorem storeIntent_fresh {intent : Option DeliveryStatus} (open_ : a.scope.settled = false)
    (status : intent = none ∨ intent = some .processed ∨ intent = some .failed)
    (allowed : intent = none ∨ a.scope.phase = .admitted) :
    a.storeIntent intent = some (a.stored intent) := by
  rw [storeIntent, settle_fresh a.scope open_ allowed]
  rcases status with rfl | rfl | rfl <;> rfl

/-- **Settling.**  An attempt that is not settled stores an intent its kind and
its shutdown allow. -/
theorem Sound.stored (sound : a.Sound) {intent : Option DeliveryStatus} {point : Point I}
    (open_ : a.scope.settled = false) (obeys : Obeys a.scope.kind a.scope.shutdown intent)
    (place : Place point (a.scope.frozen intent).phase) : ((a.stored intent).at_ point).Sound where
  unsettled still := by
    rw [show ((a.stored intent).at_ point).scope = a.scope.frozen intent from rfl, frozen_settled] at still
    cases still
  settled _ := by
    refine ⟨⟨_, rfl, obeys⟩, ?_⟩
    show a.records ++ writes a.scope.originals intent = writes a.scope.originals intent
    rw [(sound.unsettled open_).1, List.nil_append]
  interrupted kind := (a.scope.frozen_admitted intent).trans (sound.interrupted kind)
  place := place

/-- Moving within a phase. -/
theorem Sound.moved (sound : a.Sound) {point : Point I} (place : Place point a.scope.phase) :
    (a.at_ point).Sound :=
  ⟨sound.unsettled, sound.settled, sound.interrupted, place⟩

theorem settled_of_phase (phase : a.scope.phase = .settled) : a.scope.settled = true := by
  simp [settled, phase]

theorem Sound.finish (sound : a.Sound) (outcome : Option TurnOutcome) : (a.finish outcome).Sound := by
  unfold Attempt.finish
  cases done : a.scope.settled with
  | true =>
    rw [storeIntent_settled done]
    have phase : a.scope.phase = .abandoned ∨ a.scope.phase = .settled := by
      simpa [TurnScope.settled] using done
    exact sound.moved phase.symm
  | false =>
    rw [storeIntent_fresh done (.inl rfl) (.inl rfl)]
    refine sound.stored done ⟨fun _ => rfl, fun _ _ => rfl⟩ ?_
    cases h : a.scope.admitted <;> simp [frozen, Place, h]

theorem Obeyed.finish (obeyed : a.Obeyed) (outcome : Option TurnOutcome)
    (heard : a.scope.settled = true ∨ a.scope.kind ≠ some .interrupt) :
    (a.finish outcome).Obeyed := by
  unfold Attempt.finish
  cases done : a.scope.settled with
  | true =>
    rw [storeIntent_settled done]
    exact obeyed
  | false =>
    rw [storeIntent_fresh done (.inl rfl) (.inl rfl)]
    rw [done] at heard
    intro _ kind
    exact absurd kind (heard.resolve_left nofun)

/-- `_fail` finds the scope settled: it moves on to the writes. -/
theorem fail_settled (done : a.scope.settled = true) : a.fail = a.at_ (.acknowledging true) := by
  rw [fail, storeIntent_settled done]
  rfl

theorem raised_settled (phase : a.scope.phase = .settled) : a.raised = a.at_ (.acknowledging true) := by
  rw [raised, if_pos (by simp [admitted, phase])]
  exact fail_settled (settled_of_phase phase)

theorem selectIntent_admitted (phase : a.scope.phase = .admitted) (owner : Option HandlerEnd)
    (timedOut : Bool) (next : Attempt I → Attempt I) :
    a.selectIntent owner timedOut next = next (a.stored (a.scope.terminalIntent owner timedOut)) := by
  have open_ : a.scope.settled = false := by simp [settled, phase]
  rw [selectIntent, storeIntent_fresh open_ (terminalIntent_cases ..) (.inr phase)]

/-- An attempt whose coroutine is where its scope is, and that obeyed. -/
def Good (a : Attempt I) : Prop := a.Sound ∧ a.Obeyed

section

variable (good : a.Good)
include good

theorem Good.finish (outcome : Option TurnOutcome)
    (heard : a.scope.settled = true ∨ a.scope.kind ≠ some .interrupt) : (a.finish outcome).Good :=
  ⟨good.1.finish outcome, good.2.finish outcome heard⟩

theorem Good.moved {point : Point I} (place : Place point a.scope.phase) :
    (a.at_ point).Good :=
  ⟨good.1.moved place, good.2⟩

/-- Before its admission an attempt has no INTERRUPT to obey. -/
theorem Good.unheard (phase : a.scope.phase = .preparing) :
    a.scope.settled = true ∨ a.scope.kind ≠ some .interrupt := by
  refine .inr fun kind => ?_
  have := good.1.interrupted kind
  simp [admitted, phase] at this

/-- The intent is selected and the attempt moves on. -/
theorem Good.selected (phase : a.scope.phase = .admitted)
    (owner : Option HandlerEnd) (timedOut : Bool) {point : Point I} (place : Place point .settled) :
    ((a.stored (a.scope.terminalIntent owner timedOut)).at_ point).Good := by
  have open_ : a.scope.settled = false := by simp [settled, phase]
  refine ⟨good.1.stored open_ (terminalIntent_obeys ..) ?_, ?_⟩
  · simpa [frozen, admitted, phase] using place
  · intro _ kind
    exact terminalIntent_interrupt kind owner timedOut

/-- A write to the scope that only a control or a handler makes. -/
theorem Good.rescoped {scope : TurnScope I} (phase : scope.phase = a.scope.phase)
    (intent : scope.intent = a.scope.intent) (originals : scope.originals = a.scope.originals)
    (kind : a.scope.settled = true → scope.kind = a.scope.kind)
    (interrupted : scope.kind = some .interrupt → a.scope.admitted = true) :
    Good { a with scope := scope } := by
  have settled : scope.settled = a.scope.settled := by simp [settled, phase]
  refine ⟨⟨?_, ?_, ?_, ?_⟩, ?_⟩
  · intro still
    rw [settled] at still
    have := good.1.unsettled still
    exact ⟨this.1, intent.trans this.2.1, this.2.2⟩
  · intro done
    rw [settled] at done
    obtain ⟨⟨shutdown, as_, obeys⟩, records⟩ := good.1.settled done
    refine ⟨⟨shutdown, ?_, ?_⟩, ?_⟩
    · rw [kind done]; exact as_
    · rw [kind done, intent]; exact obeys
    · rw [originals, intent]; exact records
  · intro now
    have := interrupted now
    simpa [admitted, phase] using this
  · rw [phase]; exact good.1.place
  intro done now
  rw [settled] at done
  rw [kind done] at now
  rw [intent]
  exact good.2 done now

theorem Good.terminated (kind : Option ControlMode) (observed shutdown : Bool)
    (running : kind = some .interrupt → a.scope.settled = true ∨ a.scope.admitted = true) :
    Good { a with scope := a.scope.terminate kind observed shutdown } := by
  refine good.rescoped rfl rfl rfl (fun done => a.scope.terminate_kind_of_settled done) fun now => ?_
  simp only [terminate] at now
  split at now
  · rename_i set
    refine (running now).resolve_left fun done => ?_
    rw [set.2.1] at done
    cases done
  · exact good.1.interrupted now

/-! ## The phases of an attempt -/

theorem Good.execute (phase : a.scope.phase = .admitted) : a.execute.Good := by
  unfold Attempt.execute
  split
  · rw [selectIntent_admitted phase]
    exact good.selected phase none false rfl
  · exact ⟨⟨good.1.unsettled, good.1.settled, good.1.interrupted, phase⟩, good.2⟩

section

variable (phase : a.scope.phase = .preparing)
include phase

theorem Good.narrowed (originals : List I) :
    Good { a with scope := { a.scope with originals := originals } } := by
  have open_ : a.scope.settled = false := by simp [settled, phase]
  refine ⟨⟨good.1.unsettled, fun done => ?_, good.1.interrupted, good.1.place⟩, good.2⟩
  have done : a.scope.settled = true := done
  rw [open_] at done
  cases done

theorem Good.admitAttempt (present : List I)
    (recognized : Bool) : (a.admitAttempt present recognized).Good := by
  have narrowed := good.narrowed phase present
  unfold Attempt.admitAttempt
  dsimp only
  split
  · exact narrowed.finish _ (narrowed.unheard phase)
  split
  · exact narrowed.finish _ (narrowed.unheard phase)
  have open_ : a.scope.settled = false := by simp [TurnScope.settled, phase]
  have admits : ({ a.scope with originals := present } : TurnScope I).admitAttempt =
      some { a.scope with originals := present, phase := .admitted } := by
    simp [TurnScope.admitAttempt, phase]
  rw [admits]
  refine ⟨⟨fun _ => good.1.unsettled open_, fun done => ?_, fun _ => rfl, rfl⟩, fun done => ?_⟩
  · cases done
  · cases done

theorem Good.confirm (confirmed rest : List I)
    (recognized : Bool) : (a.confirm confirmed rest recognized).Good := by
  unfold Attempt.confirm
  split
  · exact good.admitAttempt phase confirmed recognized
  · exact good.moved phase

theorem Good.processing (confirmed rest : List I) (result : SettlementResult) (recognized : Bool) :
    (a.processing confirmed rest result recognized).Good := by
  have unheard := good.unheard phase
  unfold Attempt.processing
  split
  · split
    · exact good.finish _ unheard
    · exact good.moved phase
  · split
    · exact good.confirm phase _ _ recognized
    · exact good.finish _ unheard
  · exact good.finish _ unheard

end

section

variable (phase : a.scope.phase = .admitted)
include phase

theorem Good.contextReady : a.contextReady.Good := by
  unfold Attempt.contextReady
  split
  · rename_i changed
    exact good.finish _ (.inr (by rw [changed.2]; exact nofun))
  · exact good.execute phase

theorem Good.afterDrain (timedOut : Bool) : (a.afterDrain timedOut).Good := by
  unfold Attempt.afterDrain
  rw [selectIntent_admitted phase]
  split
  · exact good.selected phase _ timedOut rfl
  split
  · exact good.selected phase _ timedOut rfl
  · have selected : ((a.stored (a.scope.terminalIntent a.handlerEnd timedOut)).at_
        .cancelledUnwinding).Good := good.selected phase a.handlerEnd timedOut (.inr rfl)
    exact selected.terminated none false true nofun
  · exact good.selected phase _ timedOut rfl

theorem Good.woke (timedOut : Bool) : (a.woke timedOut).Good := by
  unfold Attempt.woke
  cases timedOut with
  | false =>
    simp only [Bool.false_eq_true, if_false]
    split
    · exact good.moved phase
    · exact good.afterDrain phase false
  | true =>
    have ends : Good { a with scope := a.scope.terminate none false false } :=
      good.terminated none false false nofun
    simp only [if_true]
    split
    · exact ends.moved phase
    · exact ends.afterDrain phase true

end

omit good in
/-- Past its settlement an attempt only moves. -/
theorem finish_settled (done : a.scope.settled = true) (outcome : Option TurnOutcome) :
    a.finish outcome = a.at_ (.ended outcome) := by
  rw [finish, storeIntent_settled done]
  rfl

omit good in
theorem resulted_settled (phase : a.scope.phase = .settled) :
    ∃ point, a.resulted = a.at_ point ∧ Place point .settled := by
  have ends : ∀ outcome, ∃ point, a.finish outcome = a.at_ point ∧ Place point .settled :=
    fun outcome => ⟨_, finish_settled (settled_of_phase phase) outcome, .inl rfl⟩
  unfold resulted
  split
  · split
    · exact ⟨_, rfl, rfl⟩
    · exact ends _
  · exact ends _
  · exact ends _
  · exact ends _
  · exact ⟨_, raised_settled phase, rfl⟩
  · exact ⟨_, raised_settled phase, rfl⟩

omit good in
theorem unwound_settled (phase : a.scope.phase = .settled) (timedOut raised_ : Bool) :
    ∃ point, a.unwound timedOut raised_ = a.at_ point ∧ Place point .settled := by
  unfold unwound
  split
  · exact resulted_settled phase
  split
  · exact ⟨_, finish_settled (settled_of_phase phase) none, .inl rfl⟩
  split
  · exact ⟨_, rfl, rfl⟩
  split
  · exact ⟨_, raised_settled phase, rfl⟩
  · exact resulted_settled phase

theorem Good.unwound (phase : a.scope.phase = .settled) (timedOut raised_ : Bool) :
    (a.unwound timedOut raised_).Good := by
  obtain ⟨point, moves, place⟩ := unwound_settled phase timedOut raised_
  rw [moves]
  refine good.moved ?_
  rw [phase]
  exact place

theorem Good.cancelCycle (kind : ControlMode) (detached : Bool) : (a.cancelCycle kind detached).Good := by
  unfold Attempt.cancelCycle
  split
  · rename_i target
    refine good.terminated (some kind) false false fun _ => ?_
    rcases target with running | ⟨done, -⟩
    · right
      have phase : a.scope.phase = .admitted := by simpa [TurnScope.running] using running
      simp [TurnScope.admitted, phase]
    · exact .inl done
  · exact good

theorem Good.rehosted (host : Host) : Good { a with host := host } :=
  ⟨⟨good.1.unsettled, good.1.settled, good.1.interrupted, good.1.place⟩, good.2⟩

theorem Good.observePlatformStop (controlRevision : Option Nat) :
    (a.observePlatformStop controlRevision).Good := by
  unfold Attempt.observePlatformStop
  split
  · exact good.terminated (some .stop) true false nofun
  have stamped : Good { a with scope := { a.scope with
      stopRevision := some (controlRevision.getD a.scope.controlRevision) } } :=
    good.rescoped rfl rfl rfl (fun _ => rfl) good.1.interrupted
  exact stamped.terminated (some .stop) true false nofun

theorem Good.shutdown : a.shutdown.Good := by
  unfold Attempt.shutdown
  split
  · exact good
  · exact good.terminated none false true nofun

end

/-! ## Every event -/

/-- A cancelled attempt settles here, without selecting its intent. -/
def cancelSettles (a : Attempt I) (event : AttemptEvent I) : Bool :=
  match event, a.point with
  | .cancelled, .preparing | .cancelled, .cancelledUnwinding | .unwound, .cancelledUnwinding => true
  | _, _ => false

/-- The branch that loses an INTERRUPT. -/
def losesInterrupt (a : Attempt I) (event : AttemptEvent I) : Bool :=
  a.cancelSettles event && a.scope.running && a.scope.kind == some .interrupt

theorem heard_of_kept {event : AttemptEvent I} (kept : a.losesInterrupt event = false)
    (settles : a.cancelSettles event = true) (phase : a.scope.phase = .admitted ∨ a.scope.phase = .settled) :
    a.scope.settled = true ∨ a.scope.kind ≠ some .interrupt := by
  rcases phase with running | done
  · right
    intro kind
    simp [losesInterrupt, settles, TurnScope.running, running, kind] at kept
  · exact .inl (settled_of_phase done)

theorem Good.cancelled (good : a.Good) (kept : a.losesInterrupt .cancelled = false)
    (ended : a.cancelled = some a') : a'.Good := by
  have place := good.1.place
  unfold Attempt.cancelled at ended
  cases point : a.point with
  | begun | hydrating | confirming confirmed rest | probing confirmed rest =>
    rw [point] at ended place
    cases ended
    exact good.finish none (good.unheard place)
  | preparing =>
    rw [point] at ended place
    cases ended
    exact good.finish none (heard_of_kept kept (by simp [cancelSettles, point]) (.inl place))
  | waiting | draining timedOut =>
    rw [point] at ended place
    cases ended
    have ends : Good { a with scope := a.scope.terminate none false true } :=
      good.terminated none false true nofun
    refine ends.moved ?_
    split
    · exact place
    · exact .inl place
  | cancelledDraining =>
    rw [point] at ended place
    cases ended
    exact good.moved (.inl place)
  | cancelledUnwinding =>
    rw [point] at ended place
    cases ended
    exact good.finish none (heard_of_kept kept (by simp [cancelSettles, point]) place)
  | unwinding timedOut raised_ | aborting | acknowledging reports | reporting =>
    rw [point] at ended place
    cases ended
    exact good.finish none (.inl (settled_of_phase place))
  | ended outcome =>
    rw [point] at ended
    cases ended

theorem Good.handlerEnded (good : a.Good) (result : HandlerEnd) (consumed : Bool) :
    Good { a with
      handler := .done result
      scope := if a.control = true ∧ result = .returned then { a.scope with consumed := consumed }
        else a.scope } := by
  have noted : Good { a with
      scope := if a.control = true ∧ result = .returned then { a.scope with consumed := consumed }
        else a.scope } := by
    split
    · exact good.rescoped rfl rfl rfl (fun _ => rfl) good.1.interrupted
    · exact good
  exact ⟨⟨noted.1.unsettled, noted.1.settled, noted.1.interrupted, noted.1.place⟩, noted.2⟩

section Steps

variable [DecidableEq I]

theorem Good.prepared (good : a.Good) (phase : a.scope.phase = .preparing) (kept : List I) :
    (a.prepared kept).Good := by
  have narrowed := good.narrowed phase (a.members.filter (· ∈ kept))
  unfold Attempt.prepared
  dsimp only
  split
  · exact narrowed.finish _ (narrowed.unheard phase)
  split
  · exact narrowed.finish _ (narrowed.unheard phase)
  · exact narrowed.moved phase

theorem Good.prepare (good : a.Good) (phase : a.scope.phase = .preparing) (hydrated : Bool)
    (kept : List I) : (a.prepare hydrated kept).Good := by
  unfold Attempt.prepare
  split
  · exact good.finish _ (good.unheard phase)
  split
  · exact good.moved phase
  · exact good.prepared phase kept

theorem Good.step (good : a.Good) {event : AttemptEvent I} (kept : a.losesInterrupt event = false)
    (stepped : a.step event = some a') : a'.Good := by
  have place := good.1.place
  unfold Attempt.step at stepped
  cases event with
  | interrupt detached => cases stepped; exact (good.rehosted _).cancelCycle .interrupt _
  | stopRoom detached => cases stepped; exact (good.rehosted _).cancelCycle .stop _
  | resumeRoom | close => cases stepped; exact good.rehosted _
  | observePlatformStop controlRevision => cases stepped; exact good.observePlatformStop _
  | shutdown =>
    simp only at stepped
    obtain ⟨-, stepped⟩ := of_passed stepped
    cases stepped; exact good.shutdown
  | cancelled => exact good.cancelled kept stepped
  | handlerEnded result consumed =>
    simp only at stepped
    obtain ⟨-, stepped⟩ := of_passed stepped
    cases stepped; exact good.handlerEnded _ _
  | prepare hydrated kept =>
    split at stepped <;> try contradiction
    rename_i point
    rw [point] at place
    cases stepped
    exact good.prepare place _ _
  | hydrated kept =>
    split at stepped <;> try contradiction
    rename_i point
    rw [point] at place
    cases stepped
    exact good.prepared place _
  | processing result recognized =>
    split at stepped <;> try contradiction
    rename_i point
    rw [point] at place
    cases stepped
    exact good.processing place _ _ _ _
  | probed gone recognized =>
    split at stepped <;> try contradiction
    rename_i point
    rw [point] at place
    cases stepped
    split
    · exact good.confirm place _ _ _
    · exact good.finish _ (good.unheard place)
  | contextReady =>
    split at stepped <;> try contradiction
    rename_i point
    rw [point] at place
    cases stepped
    exact good.contextReady place
  | woke timedOut =>
    cases point : a.point <;> rw [point] at stepped <;> cases timedOut <;> try contradiction
    all_goals
      rw [point] at place
      simp only at stepped
      split at stepped <;> cases stepped
      exact good.woke place _
  | drained =>
    split at stepped <;> try contradiction
    · rename_i point
      rw [point] at place
      cases stepped
      exact good.afterDrain place _
    · rename_i point
      rw [point] at place
      cases stepped
      exact good.moved (.inl place)
  | unwound =>
    split at stepped <;> try contradiction
    · rename_i point
      rw [point] at place
      cases stepped
      exact good.finish none (heard_of_kept kept (by simp [cancelSettles, point]) place)
    · rename_i point
      rw [point] at place
      cases stepped
      exact good.unwound place _ _
  | aborted =>
    split at stepped <;> try contradiction
    rename_i point
    rw [point] at place
    cases stepped
    exact good.moved place
  | acknowledged owes =>
    split at stepped <;> try contradiction
    rename_i point
    rw [point] at place
    cases stepped
    split
    · exact good.moved place
    · exact good.finish _ (.inl (settled_of_phase place))
  | reported owes =>
    split at stepped <;> try contradiction
    rename_i point
    rw [point] at place
    cases stepped
    exact good.finish _ (.inl (settled_of_phase place))
  | raised roomStopped =>
    split at stepped <;> try contradiction
    · rename_i point
      rw [point] at place
      have phase : a.scope.phase = .preparing := place
      cases stepped
      split
      · exact good.finish _ (good.unheard phase)
      · rw [raised, if_neg (by simp [admitted, phase])]
        exact good.finish _ (good.unheard phase)
    · rename_i point
      rw [point] at place
      cases stepped
      split
      · exact good.finish _ (.inl (settled_of_phase place))
      · rw [raised_settled place]
        exact good.moved place
    · rename_i point
      rw [point] at place
      cases stepped
      rw [raised_settled place]
      exact good.moved place
    all_goals
      rename_i point
      rw [point] at place
      cases stepped
      exact good.finish none (.inl (settled_of_phase place))

end Steps

/-! ## After settlement -/

/-- What no later event changes. -/
def Frozen (a a' : Attempt I) : Prop :=
  a'.scope.intent = a.scope.intent ∧ a'.scope.kind = a.scope.kind ∧ a'.records = a.records

theorem frozen_at (a : Attempt I) (point : Point I) : a.Frozen (a.at_ point) := ⟨rfl, rfl, rfl⟩

section

variable (done : a.scope.settled = true)
include done

theorem frozen_terminate (kind : Option ControlMode) (observed shutdown : Bool) :
    a.Frozen { a with scope := a.scope.terminate kind observed shutdown } :=
  ⟨rfl, a.scope.terminate_kind_of_settled done, rfl⟩

theorem frozen_cancelCycle (kind : ControlMode) (detached : Bool) : a.Frozen (a.cancelCycle kind detached) := by
  unfold cancelCycle
  split
  · exact frozen_terminate done _ _ _
  · exact ⟨rfl, rfl, rfl⟩

theorem frozen_observePlatformStop (controlRevision : Option Nat) :
    a.Frozen (a.observePlatformStop controlRevision) := by
  unfold observePlatformStop
  split
  · exact frozen_terminate done _ _ _
  · refine ⟨rfl, ?_, rfl⟩
    exact terminate_kind_of_settled _ done

theorem frozen_cancelled (ended : a.cancelled = some a') : a.Frozen a' := by
  unfold cancelled at ended
  split at ended
  · cases ended; exact frozen_terminate done _ _ _
  · cases ended; exact frozen_terminate done _ _ _
  · cases ended; exact frozen_at a _
  · cases ended
  cases ended
  rw [finish_settled done]
  exact frozen_at a _

end

/-- **Nothing changes a settled attempt**: neither its intent, nor its kind, nor
what it recorded. -/
theorem Sound.frozen [DecidableEq I] (sound : a.Sound) (done : a.scope.settled = true)
    {event : AttemptEvent I} (stepped : a.step event = some a') : a.Frozen a' := by
  have place := sound.place
  -- a settled scope is past every point at which an intent is selected
  have past : ∀ phase, a.scope.phase = phase → phase ≠ .preparing ∧ phase ≠ .admitted := by
    rintro phase rfl
    constructor <;> intro h <;> simp [TurnScope.settled, h] at done
  have moves : ∀ {r : Attempt I}, (∃ point, r = a.at_ point) → a.Frozen r := by
    rintro r ⟨point, rfl⟩
    exact frozen_at a point
  have ends : ∀ outcome, a.Frozen (a.finish outcome) := fun outcome =>
    moves ⟨_, finish_settled done outcome⟩
  unfold step at stepped
  cases event with
  | interrupt detached =>
    cases stepped
    exact frozen_cancelCycle (a := { a with host := { a.host with
      controlRevision := a.host.controlRevision + 1 } }) done .interrupt detached
  | stopRoom detached =>
    cases stepped
    exact frozen_cancelCycle (a := { a with host := { a.host with
      controlRevision := a.host.controlRevision + 1, stopped := true } }) done .stop detached
  | resumeRoom | close => cases stepped; exact ⟨rfl, rfl, rfl⟩
  | observePlatformStop controlRevision =>
    cases stepped
    exact frozen_observePlatformStop done _
  | shutdown =>
    simp only at stepped
    split at stepped <;> cases stepped
    rw [shutdown, if_pos done]
    exact ⟨rfl, rfl, rfl⟩
  | cancelled => exact frozen_cancelled done stepped
  | handlerEnded result consumed =>
    simp only at stepped
    split at stepped <;> cases stepped
    refine ⟨?_, ?_, rfl⟩ <;> (dsimp only; split <;> rfl)
  | prepare hydrated kept | hydrated kept | processing result recognized | probed gone recognized =>
    split at stepped <;> try contradiction
    rename_i point
    rw [point] at place
    exact absurd rfl (past .preparing place).1
  | contextReady =>
    split at stepped <;> try contradiction
    rename_i point
    rw [point] at place
    exact absurd rfl (past .admitted place).2
  | woke timedOut =>
    cases point : a.point <;> rw [point] at stepped <;> cases timedOut <;> try contradiction
    all_goals
      rw [point] at place
      exact absurd rfl (past .admitted place).2
  | drained =>
    split at stepped <;> try contradiction
    all_goals
      rename_i point
      rw [point] at place
      exact absurd rfl (past .admitted place).2
  | unwound =>
    split at stepped <;> try contradiction
    · cases stepped
      exact ends none
    · rename_i point
      rw [point] at place
      cases stepped
      obtain ⟨point', eq, -⟩ := unwound_settled place _ _
      exact moves ⟨point', eq⟩
  | aborted =>
    split at stepped <;> try contradiction
    cases stepped
    exact frozen_at a _
  | acknowledged owes =>
    split at stepped <;> try contradiction
    cases stepped
    split
    · exact frozen_at a _
    · exact ends _
  | reported owes =>
    split at stepped <;> try contradiction
    cases stepped
    exact ends _
  | raised roomStopped =>
    split at stepped <;> try contradiction
    · rename_i point
      rw [point] at place
      exact absurd rfl (past .preparing place).1
    · rename_i point
      rw [point] at place
      cases stepped
      split
      · exact ends _
      · exact moves ⟨_, raised_settled place⟩
    · rename_i point
      rw [point] at place
      cases stepped
      exact moves ⟨_, raised_settled place⟩
    all_goals
      cases stepped
      exact ends none

end Attempt

/-! ## The attempt's promise -/

/-- What controls are promised of one attempt. -/
structure RespectsControl [DecidableEq I] (a : Attempt I) : Prop where
  /-- Terminal settlements are recorded once, with one status for all originals. -/
  once : a.records = [] ∨ ∃ status, a.records = a.scope.originals.map (·, status)
  /-- A scope stopped when it settles, or shutting down with no INTERRUPT, leaves
  its originals recoverable. -/
  recoverable : ∀ kind shutdown, a.settledAs = some (kind, shutdown) →
    (kind = some .stop ∨ (shutdown = true ∧ kind ≠ some .interrupt)) → a.records = []
  /-- A scope interrupted when it settles consumes every original. -/
  consumed : ∀ shutdown, a.settledAs = some (some .interrupt, shutdown) →
    a.records = a.scope.originals.map (·, .processed)
  /-- A later termination changes neither the intent nor the kind. -/
  frozen : a.scope.settled = true → ∀ event a', a.step event = some a' → a.Frozen a'

theorem Attempt.Good.respectsControl [DecidableEq I] {a : Attempt I} (good : a.Good) : RespectsControl a := by
  have settled_of : a.settledAs ≠ none → a.scope.settled = true := by
    intro some_
    by_contra still
    exact some_ (good.1.unsettled (by simpa using still)).2.2
  refine { once := ?_, recoverable := ?_, consumed := ?_, frozen := ?_ }
  · cases done : a.scope.settled with
    | false => exact .inl (good.1.unsettled done).1
    | true =>
      have records := (good.1.settled done).2
      cases intent : a.scope.intent with
      | none => rw [intent] at records; exact .inl records
      | some status => rw [intent] at records; exact .inr ⟨status, records⟩
  · intro kind shutdown as_ quiet
    have done := settled_of (by rw [as_]; exact nofun)
    obtain ⟨⟨shutdown', as', obeys⟩, records⟩ := good.1.settled done
    rw [as_] at as'
    cases as'
    have none_ : a.scope.intent = none := by
      rcases quiet with stop | ⟨down, other⟩
      · exact obeys.1 stop
      · exact obeys.2 down other
    rw [records, none_]
    rfl
  · intro shutdown as_
    have done := settled_of (by rw [as_]; exact nofun)
    obtain ⟨⟨shutdown', as', -⟩, records⟩ := good.1.settled done
    have kind : a.scope.kind = some .interrupt := by
      rw [as_] at as'
      exact (Prod.mk.inj (Option.some.inj as')).1.symm
    rw [records, good.2 done kind]
    rfl
  · exact fun done event a' stepped => good.1.frozen done stepped

/-- The runs in which no cancelled attempt settles while its kind is INTERRUPT. -/
def heardAttempts (I : Type) [DecidableEq I] : Machine (Attempt I) (AttemptEvent I) :=
  (attempts I).restrict fun a event => !a.losesInterrupt event

/-- **Terminal writes respect control**, in every run in which no attempt is
cancelled after an INTERRUPT and before it settles. -/
theorem terminal_writes_respect_control [DecidableEq I] {a : Attempt I}
    (reached : (heardAttempts I).Reachable a) : RespectsControl a := by
  have good : a.Good := by
    refine reached.invariant (P := Attempt.Good) ?_ ?_
    · rintro a ⟨members, revision, control, batching, host, rfl⟩
      exact ⟨⟨fun _ => ⟨rfl, rfl, rfl⟩, nofun, nofun, rfl⟩, nofun⟩
    · intro a event a' good stepped
      obtain ⟨kept, stepped⟩ := Machine.restrict_step stepped
      exact good.step (by simpa using kept) stepped
  exact good.respectsControl

/-- A fresh attempt at the original `1`. -/
def freshAttempt : Attempt Nat :=
  { members := [1], revision := 0, control := false, batching := false, scope := { originals := [1] } }

theorem init_freshAttempt : (attempts Nat).init freshAttempt := ⟨[1], 0, false, false, {}, rfl⟩

/-- An INTERRUPT while the handler runs: the handler is drained, its original
consumed and the terminal write acknowledged. -/
def interruptedRun : List (AttemptEvent Nat) :=
  [.prepare true [1], .processing .accepted true, .contextReady, .interrupt false,
    .handlerEnded .cancelled true, .woke false, .unwound, .aborted, .acknowledged false]

theorem terminal_writes_respect_control_interrupted :
    ∃ a : Attempt Nat, (heardAttempts Nat).run freshAttempt interruptedRun = some a ∧
      a.records = [(1, .processed)] ∧ RespectsControl a := by
  refine ⟨_, rfl, rfl, terminal_writes_respect_control ?_⟩
  exact ⟨freshAttempt, init_freshAttempt, interruptedRun, rfl⟩

/-- The same INTERRUPT, but `stop()` cancels the room's loop while the handler
drains. -/
def interruptedThenStoppedRun : List (AttemptEvent Nat) :=
  [.prepare true [1], .processing .accepted true, .contextReady, .interrupt false, .woke false,
    .close, .shutdown, .cancelled, .handlerEnded .cancelled true, .drained, .unwound]

/-- A cancelled attempt settles without an intent, though its kind is INTERRUPT:
the original it should have consumed stays to be replayed. -/
theorem interrupt_lost_by_shutdown : ¬ ∀ a : Attempt Nat, (attempts Nat).Reachable a → RespectsControl a := by
  intro respects
  have ran : ((attempts Nat).run freshAttempt interruptedThenStoppedRun).isSome = true := rfl
  obtain ⟨a, ran⟩ := Option.isSome_iff_exists.1 ran
  have lost : a.settledAs = some (some .interrupt, true) ∧ a.records = [] ∧ a.scope.originals = [1] := by
    cases ran
    exact ⟨rfl, rfl, rfl⟩
  obtain ⟨as_, none_, originals⟩ := lost
  have consumed := (respects a ⟨freshAttempt, init_freshAttempt, _, ran⟩).consumed true as_
  rw [none_, originals] at consumed
  cases consumed

end BandSdk.Turns

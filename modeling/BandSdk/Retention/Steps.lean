/-
# Retention.Steps -- every loop step of a room advances it

The remaining events: observation and recovery, enrolled work, `wait_released()`
and the disposal task.  `Inv.step` collects them all, so that a run of a room is
a chain of `Advance`s.
-/
import BandSdk.Retention.Landing

namespace BandSdk.Retention

open BandSdk.Theory List Option RetainedRoom

namespace RetainedRoom

variable {o : OwnerView} {r r₁ r' : RetainedRoom}

open Grows

theorem Good.refl (inv : r.Inv o) : r.Good o r := ⟨inv, Grows.refl o r⟩

open Good

theorem Core.scheduled (core : r₁.Core o) (grows : r.Grows o r₁) (reset : Bool) :
    r.Good o (r₁.schedule o reset) :=
  trans grows (core.good_schedule reset)

/-! ## Observation, recovery and enrolled work -/

theorem Inv.observe (inv : r.Inv o) (activity : ProviderActivity) (generation : Nat)
    (reason : String) : r.Advance o (r.observe o activity generation reason) := by
  unfold RetainedRoom.observe
  split
  · have core : Core o { r with
        activity := activity
        reason := if !reason.isEmpty then reason
          else if activity = .unknown then unknownActivityReason else "" } := { inv.1 with }
    refine (core.scheduled ?_ _).advance (uses_schedule _)
    exact frame rfl rfl rfl rfl rfl rfl rfl
  · exact (refl inv).advance rfl

theorem Inv.recover (inv : r.Inv o) (generation : Nat) (reason : String) :
    r.Advance o (r.recover o generation reason) := by
  unfold RetainedRoom.recover
  split
  · rename_i authority
    have unsuspended := ((authority_eq generation).1 authority).2.2.2.1
    obtain ⟨r₁, eq, shape⟩ : ∃ r₁ : RetainedRoom,
        r₁ = (let r₂ : RetainedRoom := { r.request .recovery with
          recoverWhenUnleased := true
          activity := .unknown
          reason := reason
          error := some reason }
        if r₂.state = .resident then { r₂ with state := .cleanupPending } else r₂) ∧
        r₁ = { r with
          cause := some (strongerCause r.cause .recovery)
          recoverWhenUnleased := true
          activity := .unknown
          reason := reason
          error := some reason
          state := if r.state = .resident then .cleanupPending else r.state } := by
      refine ⟨_, rfl, ?_⟩
      by_cases resident : r.state = .resident <;> simp [request, resident]
    dsimp only at eq ⊢
    rw [← eq]
    have core : r₁.Core o := by
      have retired := inv.1.retire (fun h => absurd h unsuspended) rfl
      rw [shape]
      exact { retired with }
    have grows : r.Grows o r₁ := by
      rw [shape]
      exact retire rfl rfl rfl rfl rfl rfl rfl
    have scheduled := core.scheduled grows false
    have recovered := trans scheduled.2 scheduled.1.startRequestedRecovery
    refine recovered.advance ?_
    rw [uses_startRequestedRecovery, uses_schedule, shape]
  · exact (refl inv).advance rfl

/-- Accepted work enters only while admission is open. -/
theorem Core.own (core : r.Core o) (open_ : r.isClosing o = false) (task : TaskId) :
    Core o { r with owned := r.owned.insert task, enrolled := task :: r.enrolled } := by
  have unclosing := closing_false_of_isClosing open_
  refine { core with live := ?_, disposal := ?_, closed := ?_, enrolled := ?_ }
  · intro t kind phase present pending
    have old := core.live t kind phase present pending
    refine ⟨old.1, ?_⟩
    cases kind with
    | acquire => exact old.2
    | release cause previous automatic =>
      obtain ⟨state, unleased, stronger, final⟩ := old.2
      refine ⟨state, unleased, stronger, fun h => ?_⟩
      rw [(final h).2] at unclosing
      cases unclosing
  · intro d phase present
    have none_ : r.disposals = [] := core.no_disposals unclosing
    have present : r.disposals[d]? = some phase := present
    rw [none_] at present
    cases present
  · intro closed
    have := (core.closed closed).1
    rw [unclosing] at this
    cases this
  · intro other member
    rcases mem_cons.1 member with rfl | old
    · exact .inl mem_insert_self
    · exact (core.enrolled other old).imp mem_insert_of_mem id

theorem Inv.own (inv : r.Inv o) (task : TaskId) : r.Advance o (r.own o task) := by
  unfold RetainedRoom.own
  split
  · exact advance ⟨⟨{ inv.1 with }, inv.2.1, inv.2.2⟩, frame rfl rfl rfl rfl rfl rfl rfl⟩ rfl
  rename_i admitting
  have core := inv.1.own (by simpa using admitting) task
  refine (core.scheduled ?_ false).advance (uses_schedule _)
  exact frame rfl rfl rfl rfl rfl rfl rfl

theorem Core.disown (core : r.Core o) {task : TaskId} (finished : task ∈ r.finished) :
    Core o { r with
      owned := r.owned.filter (· != task)
      unwinding := r.unwinding.filter (· != task)
      waiting := r.waiting.filter (·.1 != task) } := by
  have quiet : r.Quiet → r.owned.filter (· != task) = [] ∧ r.holders = [] := by
    rintro ⟨owned, holders⟩
    exact ⟨by rw [owned]; rfl, holders⟩
  refine { core with live := ?_, disposal := ?_, closed := ?_, enrolled := ?_ }
  · intro t kind phase present pending
    have old := core.live t kind phase present pending
    refine ⟨old.1, ?_⟩
    cases kind with
    | acquire => exact old.2
    | release cause previous automatic =>
      obtain ⟨state, unleased, stronger, final⟩ := old.2
      exact ⟨state, unleased, stronger, fun h => ⟨quiet (final h).1, (final h).2⟩⟩
  · intro d phase present
    have old := core.disposal d phase present
    exact ⟨old.1, old.2.mono rfl quiet rfl rfl rfl⟩
  · intro closed
    obtain ⟨closing, idle, rest⟩ := core.closed closed
    exact ⟨closing, quiet idle, rest⟩
  · intro other member
    by_cases same : other = task
    · subst same
      exact .inr finished
    · refine (core.enrolled other member).imp (fun owned => ?_) id
      exact mem_filter.2 ⟨owned, by simpa using same⟩

theorem Inv.disown (inv : r.Inv o) {task : TaskId} (finished : task ∈ r.finished) :
    r.Advance o (r.disown o task) := by
  refine ((inv.1.disown finished).scheduled ?_ false).advance (uses_schedule _)
  exact frame rfl rfl rfl rfl rfl rfl rfl

/-! ## Asking for disposal -/

/-- Closing admission for good: nothing has authority any more. -/
theorem Core.close (core : r.Core o) : Core o { r.request .final with closing := true } := by
  have final : strongerCause r.cause .final = .final :=
    (strongerCause_eq_final _ _).2 (.inr rfl)
  refine { core with
    live := ?_, disposal_closing := fun _ => rfl, closing_final := ?_, resident_cause := ?_,
    suspended_cause := ?_, owed_cause := ?_, closed := ?_, initiator := ?_,
    cancelled := fun _ _ _ _ _ => some_ne_none _ }
  · intro t kind phase present pending
    have old := core.live t kind phase present pending
    refine ⟨old.1, ?_⟩
    cases kind with
    | acquire => exact old.2
    | release cause previous automatic =>
      obtain ⟨state, unleased, stronger, quiet⟩ := old.2
      refine ⟨state, unleased, ?_, fun h => ⟨(quiet h).1, rfl⟩⟩
      show strength (some cause) ≤ strength (some (strongerCause r.cause .final))
      rw [strength_stronger]
      exact stronger.trans (le_max_left _ _)
  · show true = true ↔ some (strongerCause r.cause .final) = some .final
    rw [final]
    simp
  · exact fun _ => .inr rfl
  · exact fun _ => .inr rfl
  · exact fun _ => some_ne_none _
  · exact fun closed => ⟨rfl, (core.closed closed).2⟩
  intro use member left t residing
  rcases core.initiator use member left t residing with h | h | h | h
  · exact .inl h
  · exact .inr (.inl h)
  · exact .inr (.inr (.inl h))
  · exact .inr (.inr (.inr ⟨h.1, rfl⟩))

theorem Grows.close (o : OwnerView) (r : RetainedRoom) :
    r.Grows o { r.request .final with closing := true } where
  tasks := prefix_rfl
  cause := by
    show _ ≤ strength (some (strongerCause r.cause .final))
    rw [strength_stronger]
    exact le_max_left _ _
  generation := le_rfl
  retired g _ _ := by simp [hasAuthority, isClosing, request]
  closing _ := rfl
  closed := Iff.rfl
  vacant h := .inl h
  history := rfl
  forgets := Iff.rfl

/-- A new disposal attempt is the only unfinished one. -/
theorem Core.addDisposal (core : r.Core o) (closing : r.closing = true)
    (unclosed : r.state ≠ .closed) (finished : r.rejoinsDisposal = false) :
    Core o { r with
      disposals := r.disposals ++ [.created], disposal := some r.disposals.length } := by
  have done : ∀ (d : Nat) (phase : DisposalPhase), r.disposals[d]? = some phase → phase.done = true := by
    intro d phase found
    by_contra unfinished
    have pending : phase.done = false := by simpa using unfinished
    have current := (core.disposal d phase found).1 pending
    unfold rejoinsDisposal at finished
    rw [current, bind_some, found] at finished
    cases phase with
    | finished outcome => cases pending
    | _ => cases finished
  refine { core with disposal := ?_, disposal_closing := fun _ => closing, closed := ?_ }
  · intro d phase found
    rcases getElem?_append_singleton found with old | ⟨rfl, rfl⟩
    · refine ⟨fun pending => ?_, (core.disposal d phase old).2⟩
      rw [done d phase old] at pending
      cases pending
    · exact ⟨fun _ => rfl, trivial⟩
  · exact fun closed => absurd closed unclosed

theorem Inv.beginDisposal (inv : r.Inv o) : r.Good o (r.beginDisposal o) := by
  have scheduled := inv.1.close.scheduled (close o r) false
  unfold RetainedRoom.beginDisposal
  dsimp only
  split
  · exact scheduled
  rename_i fresh
  obtain ⟨unclosed, finished⟩ := not_or.1 fresh
  have closing : (schedule o { r.request .final with closing := true } false).closing = true := by
    obtain ⟨_, _, _, _, eq, -⟩ :=
      schedule_shape o { r.request .final with closing := true } false
    rw [eq]
  have core := scheduled.1.1.addDisposal closing unclosed (by simpa using finished)
  exact ⟨⟨core, scheduled.1.2.1, scheduled.1.2.2⟩, scheduled.2.trans (frame rfl rfl rfl rfl rfl rfl rfl)⟩

theorem uses_beginDisposal : (r.beginDisposal o).uses = r.uses := by
  have same : (schedule o { r.request .final with closing := true } false).uses = r.uses :=
    uses_schedule false
  unfold beginDisposal
  dsimp only
  split
  · exact same
  · exact same

section

variable (inv : r.Inv o)
include inv

theorem Inv.spareRequester (caller : TaskId) :
    r.Good o (r.spareRequester caller) ∧ (r.spareRequester caller).uses = r.uses := by
  unfold RetainedRoom.spareRequester
  split
  · exact ⟨⟨⟨{ inv.1 with }, inv.2.1, inv.2.2⟩, frame rfl rfl rfl rfl rfl rfl rfl⟩, rfl⟩
  · exact ⟨refl inv, rfl⟩

theorem Inv.requestDisposal (caller : TaskId) :
    r.Good o (r.requestDisposal o caller) ∧ (r.requestDisposal o caller).uses = r.uses := by
  obtain ⟨spared, same⟩ := inv.spareRequester caller
  exact ⟨trans spared.2 spared.1.beginDisposal, uses_beginDisposal.trans same⟩

/-! ## `wait_released()` -/

theorem Inv.setWait (w : Nat) (phase : ReleaseWaitPhase) :
    r.Good o (r.setWait w phase) :=
  ⟨⟨{ inv.1 with }, inv.2.1, inv.2.2⟩, frame rfl rfl rfl rfl rfl rfl rfl⟩

theorem waitReleasedFrom_spec (w generation n : Nat) :
    r.Good o (waitReleasedFrom o w generation n r) ∧ (waitReleasedFrom o w generation n r).uses = r.uses := by
  induction n with
  | zero => exact ⟨inv.setWait w _, rfl⟩
  | succ n ih =>
    simp only [waitReleasedFrom]
    split
    · exact ⟨inv.setWait w _, rfl⟩
    split
    · have begun := inv.beginDisposal
      split
      · exact ⟨trans begun.2 (begun.1.setWait w _), uses_beginDisposal⟩
      · exact ⟨trans begun.2 (begun.1.setWait w _), uses_beginDisposal⟩
    · rename_i admitting
      have open_ : r.isClosing o = false := by simpa using admitting
      split
      · exact ⟨inv.setWait w _, rfl⟩
      · split
        · exact ih
        · exact ⟨inv.setWait w _, rfl⟩
      · rename_i cause flight unleased caused
        have started := inv.startPending open_ flight unleased caused
        exact ⟨trans started.2 (started.1.setWait w _), uses_startRelease cause false⟩
      · exact ⟨inv.setWait w _, rfl⟩

theorem Inv.waitReleased (caller : TaskId) (generation : Nat) :
    r.Advance o (r.waitReleased o caller generation) := by
  have added : ∀ waits, r.Good o { r with releaseWaits := waits } := fun waits =>
    ⟨⟨{ inv.1 with }, inv.2.1, inv.2.2⟩, frame rfl rfl rfl rfl rfl rfl rfl⟩
  unfold RetainedRoom.waitReleased
  split
  · exact (added _).advance rfl
  have entered := added (r.releaseWaits ++ [⟨generation, .settleable maxSettleSteps 0⟩])
  obtain ⟨good, same⟩ :=
    waitReleasedFrom_spec entered.1 r.releaseWaits.length generation maxSettleSteps
  exact (trans entered.2 good).advance same

theorem Inv.resumeWait {w : Nat} {wake : Wake}
    (resumed : r.resumeWait o w wake = some r') : r.Advance o r' := by
  have moved : ∀ phase, r.Advance o (r.setWait w phase) := fun phase =>
    (inv.setWait w phase).advance rfl
  have looped : ∀ generation left, r.Advance o (waitReleasedFrom o w generation left r) :=
    fun generation left =>
      have spec := waitReleasedFrom_spec inv w generation left
      spec.1.advance spec.2
  unfold RetainedRoom.resumeWait at resumed
  split at resumed
  · cases resumed
  · split at resumed
    · cases resumed
    cases resumed
    split
    · exact moved _
    · exact looped _ _
  · split at resumed
    · cases resumed
      exact looped _ _
    · cases resumed
  · split at resumed
    · cases resumed
      exact moved _
    · cases resumed
  · cases resumed
    exact moved _
  · cases resumed

end

/-! ## The disposal task -/

section Disposal

variable {d : Nat} {old : DisposalPhase}

theorem Core.unclosed_of_disposal (core : r.Core o) (found : r.disposals[d]? = some old)
    (pending : old.done = false) : r.state ≠ .closed := by
  intro closed
  have := (core.closed closed).2.2.2 old (mem_of_getElem? found)
  rw [pending] at this
  cases this

theorem Core.closing_of_disposal (core : r.Core o) (found : r.disposals[d]? = some old) :
    r.closing = true :=
  core.disposal_closing fun none_ => by rw [none_] at found; cases found

theorem getElem?_setDisposal {phase phase' : DisposalPhase} {d' : Nat}
    (found : (r.setDisposal d phase).disposals[d']? = some phase') :
    (d' = d ∧ phase' = phase) ∨ (d' ≠ d ∧ r.disposals[d']? = some phase') := by
  have found : (r.disposals.set d phase)[d']? = some phase' := found
  by_cases same : d = d'
  · subst same
    rw [getElem?_set_self'] at found
    cases present : r.disposals[d]? with
    | none => rw [present] at found; cases found
    | some old => rw [present] at found; cases found; exact .inl ⟨rfl, rfl⟩
  · rw [getElem?_set_ne same] at found
    exact .inr ⟨fun h => same h.symm, found⟩

/-- The running disposal task moves to a phase whose facts hold. -/
theorem Core.setDisposal (core : r.Core o) (found : r.disposals[d]? = some old)
    (pending : old.done = false) (phase : DisposalPhase) (at_ : r.DisposalAt phase) :
    (r.setDisposal d phase).Core o := by
  refine { core with disposal := ?_, disposal_closing := ?_, closed := ?_ }
  · intro d' phase' found'
    rcases getElem?_setDisposal found' with ⟨rfl, rfl⟩ | ⟨-, kept⟩
    · exact ⟨fun _ => (core.disposal d' old found).1 pending, at_⟩
    · exact core.disposal d' phase' kept
  · exact fun _ => core.closing_of_disposal found
  · exact fun closed => absurd closed (core.unclosed_of_disposal found pending)

theorem Inv.setDisposal (inv : r.Inv o) (found : r.disposals[d]? = some old)
    (pending : old.done = false) (phase : DisposalPhase) (at_ : r.DisposalAt phase) :
    r.Good o (r.setDisposal d phase) :=
  ⟨⟨inv.1.setDisposal found pending phase at_, inv.2.1, inv.2.2⟩, frame rfl rfl rfl rfl rfl rfl rfl⟩

/-- Every disposal task but the running one is finished. -/
theorem Core.other_disposals (core : r.Core o) (found : r.disposals[d]? = some old)
    (pending : old.done = false) {d' : Nat} {phase : DisposalPhase} (other : d' ≠ d)
    (found' : r.disposals[d']? = some phase) : phase.done = true := by
  by_contra unfinished
  have current := (core.disposal d old found).1 pending
  have current' := (core.disposal d' phase found').1 (by simpa using unfinished)
  rw [current] at current'
  cases current'
  exact other rfl

section

variable (inv : r.Inv o) (found : r.disposals[d]? = some old) (pending : old.done = false)
include inv found pending

/-- The dispose callback begins: accepted work is gone and nothing is live. -/
theorem Inv.disposeProvider (quiet : r.Quiet) (noLive : r.NoLive) : r.Advance o (r.disposeProvider d) := by
  obtain ⟨core, idle⟩ := inv
  have closing := core.closing_of_disposal found
  have unclosed := core.unclosed_of_disposal found pending
  have unleased := core.unleased (core.leases_zero quiet.2)
  have isClosing : r.isClosing o = true := isClosing_of_closing closing
  refine ⟨⟨{ core with
    live := ?_, disposal := ?_, disposal_closing := fun _ => closing, resident_cause := by rintro ⟨⟩,
    suspended_cause := by rintro ⟨⟩, owed_cause := ?_, closed := by rintro ⟨⟩, initiator := ?_ }, ?_⟩,
    fun t flight => (inFlight_eq_some.1 flight).1, le_rfl, ?_, id, .inl le_rfl,
    fun _ body => .inl body, fun ledger => ⟨?_, ?_, ?_⟩,
    fun closed => absurd closed unclosed, ?_⟩
  · intro t kind phase present pending
    rw [noLive t kind phase present] at pending
    cases pending
  · intro d' phase found'
    rcases getElem?_setDisposal found' with ⟨rfl, rfl⟩ | ⟨other, kept⟩
    · exact ⟨fun _ => (core.disposal d' old found).1 pending, quiet, rfl, noLive⟩
    have done := core.other_disposals found pending other kept
    refine ⟨fun unfinished => absurd (done.symm.trans unfinished) (by simp), ?_⟩
    have at_ := (core.disposal d' phase kept).2
    cases phase with
    | finished outcome => exact fun returned => absurd (at_ returned) unclosed
    | _ => cases done
  · rintro (impossible | impossible) <;> cases impossible
  · intro use member left t residing
    have := unleased use member
    rw [residing] at this
    cases this
  · exact ⟨fun armed => absurd (idle.deadline armed).2.1 (by rw [closing]; simp), idle.drained⟩
  · intro g _ _
    have closed : (r.disposeProvider d).isClosing o = true := isClosing
    simp [hasAuthority, closed]
  · exact fun _ => .inl isClosing
  · exact ledger.ordered.append (by simp)
  · show (r.history ++ [ProviderEvent.dispose]).count .disposed = if Residency.disposing = .closed then 1 else 0
    rw [count_append, ledger.disposed, if_neg unclosed]
    rfl
  · exact ⟨.inl, fun h => h.elim id fun shut => by cases shut.2⟩

/-- The last await before the provider is released or disposed for good. -/
theorem Inv.releaseFinal (quiet : r.Quiet) (noLive : r.NoLive) : r.Advance o (r.releaseFinal d) := by
  unfold RetainedRoom.releaseFinal
  split
  · exact inv.disposeProvider found pending quiet noLive
  rename_i unsuspended
  have closing := inv.1.closing_of_disposal found
  have unclosed := inv.1.unclosed_of_disposal found pending
  -- park the task at a phase that names no transition while the release starts
  have parked := inv.setDisposal found pending .created trivial
  have found' : (r.setDisposal d .created).disposals[d]? = some .created := by
    show (r.disposals.set d .created)[d]? = _
    rw [getElem?_set_self', found]
    rfl
  have early : ∀ phase ∈ (r.setDisposal d .created).disposals, DisposalPhase.early phase = true := by
    intro phase member
    obtain ⟨d', at_⟩ := mem_iff_getElem?.1 member
    rcases getElem?_setDisposal at_ with ⟨-, rfl⟩ | ⟨other, kept⟩
    · rfl
    have done := inv.1.other_disposals found pending other kept
    cases phase with
    | finished outcome => rfl
    | _ => cases done
  have started : (r.setDisposal d .created).Good o
      ((r.setDisposal d .created).startRelease .final false) :=
    parked.1.startRelease noLive (inv.1.leases_zero quiet.2) unclosed
      (fun h => absurd h unsuspended) (fun _ => ⟨quiet, closing⟩) early false
  have moved := started.1.setDisposal (d := d) found' rfl (.releasing r.transitions.length)
    ⟨quiet, rfl⟩
  have good := trans (parked.2.trans started.2) moved
  have eq : (r.startRelease .final false).setDisposal d (.releasing r.transitions.length) =
      ((r.setDisposal d .created).startRelease .final false).setDisposal d
        (.releasing r.transitions.length) := by
    simp [RetainedRoom.startRelease, RetainedRoom.setDisposal, request, spawn]
  rw [eq]
  exact good.advance rfl

theorem Inv.joinTransition (quiet : r.Quiet) : r.Advance o (r.joinTransition d) := by
  unfold RetainedRoom.joinTransition
  split
  · rename_i t flight
    have current := (inFlight_eq_some.1 flight).1
    exact (inv.setDisposal found pending (.joining t) ⟨quiet, current⟩).advance rfl
  · rename_i flight
    exact inv.releaseFinal found pending quiet (inv.1.noLive flight)

theorem Inv.awaitDrained : r.Advance o (r.awaitDrained d) := by
  unfold RetainedRoom.awaitDrained
  split
  · rename_i drained
    exact inv.joinTransition found pending (inv.2.drained.1 drained)
  · exact (inv.setDisposal found pending (.draining r.drained.sets) (.inl le_rfl)).advance rfl

end

/-- A step that only marks who was asked to cancel can be taken first. -/
theorem Advance.after (good : r.Good o r₁) (tasks : r₁.tasks = r.tasks) (uses : r₁.uses = r.uses)
    (cause : r₁.cause = r.cause) (advance : r₁.Advance o r') : r.Advance o r' where
  inv := advance.inv
  kept t flight := by
    obtain ⟨-, kind, phase, found, pending⟩ := inFlight_eq_some.1 flight
    refine advance.kept t (inFlight_eq_some.2 ⟨good.2.kept good.1 t flight, kind, phase, ?_, pending⟩)
    rw [tasks, found]
  generation := good.2.generation.trans advance.generation
  retired g le lost :=
    advance.retired g (le.trans good.2.generation) (good.2.retired g le lost)
  closing := advance.closing ∘ good.2.closing
  cause := by
    have step := advance.cause
    unfold Cleared at step
    rw [cause, tasks, good.2.history] at step
    exact step
  bodies u body := (advance.bodies u body).imp (bodyAt_of_uses uses u) id
  ledger ledger := advance.ledger (good.2.ledger ledger)
  closed := advance.closed ∘ good.2.closed.2
  forgets := by rw [advance.forgets, good.2.forgets, ne_eq, good.2.closed]

theorem tasks_cancelAcquisition (t : Nat) : (r.cancelAcquisition t).tasks = r.tasks := by
  unfold cancelAcquisition
  split
  · rfl
  · exact map_modify_of_eq fun _ => rfl

theorem cancelWork_cases (r : RetainedRoom) : ∃ work : RetainedRoom,
    work = { r with workCancelled := true, cancelling := r.uncancelledWork ++ r.cancelling } ∧
      (r.cancelWork = work ∨ ∃ t, r.cancelWork = work.cancelAcquisition t) := by
  refine ⟨_, rfl, ?_⟩
  unfold cancelWork
  dsimp only
  split
  · rename_i t current
    split
    · exact .inr ⟨t, rfl⟩
    · exact .inl rfl
  · exact .inl rfl

theorem cancelAcquisition_shape (r : RetainedRoom) (t : Nat) :
    ∃ transitions acquisition, r.cancelAcquisition t =
      { r with transitions := transitions, cancelledAcquisition := acquisition } := by
  unfold cancelAcquisition
  split
  · exact ⟨r.transitions, r.cancelledAcquisition, rfl⟩
  · exact ⟨_, _, rfl⟩

section

variable (inv : r.Inv o) (found : r.disposals[d]? = some old) (pending : old.done = false)
include inv found pending

theorem Inv.cancelWork : r.Advance o (r.cancelWork.awaitDrained d) := by
  obtain ⟨work, eq, cases_⟩ := cancelWork_cases r
  have marked : r.Good o work := by
    rw [eq]
    exact ⟨⟨{ inv.1 with }, inv.2.1, inv.2.2⟩, frame rfl rfl rfl rfl rfl rfl rfl⟩
  have same : work.tasks = r.tasks ∧ work.uses = r.uses ∧ work.cause = r.cause ∧
      work.disposals = r.disposals := by rw [eq]; exact ⟨rfl, rfl, rfl, rfl⟩
  obtain ⟨tasks, uses, cause, disposals⟩ := same
  rcases cases_ with kept | ⟨t, cancelled⟩
  · rw [kept]
    exact Advance.after marked tasks uses cause
      (marked.1.awaitDrained (by rw [disposals, found]) pending)
  · rw [cancelled]
    have caused : work.cause ≠ none := by
      rw [cause, inv.1.closing_final.1 (inv.1.closing_of_disposal found)]
      exact some_ne_none _
    have good := trans marked.2 (marked.1.cancelAcquisition caused t)
    have tasks' := (tasks_cancelAcquisition (r := work) t).trans tasks
    have uses' := (uses_cancelAcquisition (r := work) t).trans uses
    obtain ⟨transitions, acquisition, shape⟩ := cancelAcquisition_shape work t
    have cause' : (work.cancelAcquisition t).cause = r.cause := by rw [shape]; exact cause
    have found' : (work.cancelAcquisition t).disposals[d]? = some old := by
      rw [shape]
      show work.disposals[d]? = some old
      rw [disposals, found]
    exact Advance.after good tasks' uses' cause' (good.1.awaitDrained found' pending)

theorem Inv.runDispose : r.Advance o (r.runDispose o d) := by
  unfold RetainedRoom.runDispose
  split
  · exact inv.awaitDrained found pending
  split
  · exact inv.cancelWork found pending
  · exact (inv.setDisposal found pending .grace trivial).advance rfl

end

/-- The transition a disposal phase names is the current one, so once it is
finished nothing is live. -/
theorem Core.noLive_of_done (core : r.Core o) {t : Nat} (current : r.transition = some t)
    (done : (r.transitions[t]?.map (·.done)).getD true = true) : r.NoLive := by
  refine core.noLive ?_
  unfold inFlight
  rw [current]
  simp [done]

theorem Inv.resumeDisposal (inv : r.Inv o) (resumed : r.resumeDisposal o d = some r') : r.Advance o r' := by
  unfold RetainedRoom.resumeDisposal at resumed
  split at resumed
  · rename_i found
    cases resumed
    exact inv.runDispose found rfl
  · rename_i found
    cases resumed
    exact inv.cancelWork found rfl
  · rename_i seen found
    split at resumed
    · rename_i released
      cases resumed
      rcases (inv.1.disposal d _ found).2 with le | quiet
      · omega
      · exact inv.joinTransition found rfl quiet
    · cases resumed
  · rename_i t found
    obtain ⟨quiet, current⟩ := (inv.1.disposal d _ found).2
    split at resumed
    · rename_i done
      cases resumed
      refine inv.releaseFinal found rfl quiet (inv.1.noLive_of_done current ?_)
      cases at_ : r.transitions[t]? with
      | none => rfl
      | some tr => rw [at_] at done; exact done
    · cases resumed
  · rename_i t found
    obtain ⟨quiet, current⟩ := (inv.1.disposal d _ found).2
    split at resumed
    · cases resumed
    · rename_i finished
      cases resumed
      refine inv.disposeProvider found rfl quiet (inv.1.noLive_of_done current ?_)
      obtain ⟨tr, at_, outcome⟩ := Option.bind_eq_some_iff.1 finished
      simp [at_, Transition.done, outcome]
    · rename_i outcome failed finished
      cases resumed
      exact (inv.setDisposal found rfl (.finished outcome) fun h => absurd h failed).advance rfl
  · cases resumed

theorem Inv.cancelDisposal (inv : r.Inv o) {message : String}
    (cancelled : r.cancelDisposal d message = some r') : r.Advance o r' := by
  have ended : ∀ old : DisposalPhase, r.disposals[d]? = some old → old.done = false →
      r.Advance o (r.setDisposal d (.finished (.cancelled message))) := fun old found pending =>
    (inv.setDisposal found pending (.finished (.cancelled message)) nofun).advance rfl
  unfold RetainedRoom.cancelDisposal at cancelled
  split at cancelled
  · cases cancelled
  · cases cancelled
  · cases cancelled
    exact (refl inv).advance rfl
  · rename_i t found
    split at cancelled
    · cases cancelled
      exact ended _ found rfl
    · cases cancelled
      have final := inv.1.closing_final.1 (inv.1.closing_of_disposal found)
      refine (inv.transitions_eq _ ?_ ?_ r.cancelledAcquisition).advance rfl
      · exact map_modify_of_eq fun _ => rfl
      · rw [final]
        exact fun _ _ _ _ _ => some_ne_none _
  · rename_i old _ _ _ found
    cases cancelled
    refine ended old found ?_
    cases old <;> simp_all [DisposalPhase.done]

theorem setDisposal_schedule (o : OwnerView) (r : RetainedRoom) (reset : Bool) (d : Nat)
    (phase : DisposalPhase) :
    (r.schedule o reset).setDisposal d phase = (r.setDisposal d phase).schedule o reset := by
  unfold schedule rearmDeadline
  cases o.idleTimeout with
  | none => rfl
  | some timeout =>
    have same : (r.setDisposal d phase).idleEligible o = r.idleEligible o := rfl
    have armed : (r.setDisposal d phase).deadline = r.deadline := rfl
    dsimp only
    rw [same, armed]
    by_cases eligible : r.idleEligible o = true
    · rw [if_pos eligible, if_pos eligible]
      by_cases fresh : (reset || r.deadline == none) = true
      · rw [if_pos fresh, if_pos fresh]; rfl
      · rw [if_neg fresh, if_neg fresh]; rfl
    · rw [if_neg eligible, if_neg eligible]; rfl

/-- What the dispose callback's end writes: closed when it succeeded, suspended
otherwise, and the matching entry of the record. -/
theorem Inv.disposed (inv : r.Inv o) (found : r.disposals[d]? = some .disposing)
    {outcome : Outcome} {event : ProviderEvent}
    (ends : (outcome = .returned ∧ r₁.state = .closed ∧ event = .disposed) ∨
      (outcome ≠ .returned ∧ r₁.state = .suspended ∧ event = .disposeFailed))
    (calls : .forget ∈ r₁.ownerCalls ↔ .forget ∈ r.ownerCalls ∨ r₁.state = .closed)
    (frame : r₁ = { r with
      state := r₁.state, error := r₁.error, ownerCalls := r₁.ownerCalls
      history := r.history ++ [event] }) :
    r.Advance o ((r₁.schedule o false).setDisposal d (.finished outcome)) := by
  obtain ⟨core, idle⟩ := inv
  obtain ⟨quiet, disposing, noLive⟩ := (core.disposal d _ found).2
  have closing := core.closing_of_disposal found
  have unleased := core.unleased (core.leases_zero quiet.2)
  have isClosing : r.isClosing o = true := isClosing_of_closing closing
  have landed : r₁.state = .closed ∨ r₁.state = .suspended :=
    ends.imp (fun h => h.2.1) fun h => h.2.1
  have phases : ∀ (d' : Nat) (phase : DisposalPhase), (r.setDisposal d (.finished outcome)).disposals[d']? = some phase →
      phase.done = true ∧ r₁.DisposalAt phase := by
    intro d' phase found'
    rcases getElem?_setDisposal found' with ⟨rfl, rfl⟩ | ⟨other, kept⟩
    · exact ⟨rfl, fun returned => (ends.resolve_right fun h => h.1 returned).2.1⟩
    have done := core.other_disposals found rfl other kept
    refine ⟨done, ?_⟩
    have at_ := (core.disposal d' phase kept).2
    cases phase with
    | finished outcome =>
      exact fun returned => absurd ((at_ returned).symm.trans disposing) (by simp)
    | _ => cases done
  have closed : (r₁.setDisposal d (.finished outcome)).Core o := by
    rw [frame]
    refine { core with
      live := ?_, disposal := ?_, disposal_closing := fun _ => closing, resident_cause := ?_,
      suspended_cause := fun _ => .inr isClosing, owed_cause := ?_, closed := ?_, initiator := ?_ }
    · intro t kind phase present pending
      rw [noLive t kind phase present] at pending
      cases pending
    · intro d' phase found'
      obtain ⟨done, at_⟩ := phases d' phase found'
      refine ⟨fun unfinished => absurd (done.symm.trans unfinished) (by simp), ?_⟩
      rw [frame] at at_
      exact at_
    · intro impossible
      have impossible : r₁.state = .resident := impossible
      rcases landed with h | h <;> rw [h] at impossible <;> cases impossible
    · intro impossible
      have impossible : r₁.state = .cleanupPending ∨ r₁.state = .suspending := impossible
      rcases landed with h | h <;> rw [h] at impossible <;> rcases impossible with h | h <;> cases h
    · intro _
      refine ⟨closing, quiet, noLive, fun phase member => ?_⟩
      obtain ⟨d', at_⟩ := mem_iff_getElem?.1 member
      exact (phases d' phase at_).1
    · intro use member left t residing
      have := unleased use member
      rw [residing] at this
      cases this
  have disarmed : r.deadline = none := by
    by_contra armed
    exact absurd (idle.deadline armed).2.1 (by rw [closing]; simp)
  have isClosing' : (r₁.setDisposal d (.finished outcome)).isClosing o = true := by
    rw [frame]
    exact isClosing
  have history : r₁.history = r.history ++ [event] := by rw [frame]
  rw [setDisposal_schedule]
  refine Advance.schedule ⟨⟨closed, ?_, ?_⟩, ?_, ?_, ?_, fun _ => isClosing', ?_, ?_, ?_,
    fun closed => absurd (closed.symm.trans disposing) (by simp), ?_⟩ false
  · intro armed
    rw [frame] at armed
    exact absurd disarmed armed
  · rw [frame]
    exact idle.drained
  · intro t flight
    rw [frame]
    exact (inFlight_eq_some.1 flight).1
  · rw [frame]
    exact le_rfl
  · intro g _ _
    simp [hasAuthority, isClosing']
  · rw [frame]
    exact .inl le_rfl
  · intro u body
    rw [frame] at body
    exact .inl body
  · intro ledger
    have before := ledger.disposed
    rw [if_neg (by rw [disposing]; simp)] at before
    refine ⟨fun _ => .inl isClosing', ?_, ?_⟩
    · show ReleasedBetween r₁.history
      rw [history]
      refine ledger.ordered.append ?_
      rcases ends with ⟨-, -, rfl⟩ | ⟨-, -, rfl⟩ <;> simp
    · show r₁.history.count .disposed = if r₁.state = .closed then 1 else 0
      rw [history, count_append, before]
      rcases ends with ⟨-, state, rfl⟩ | ⟨-, state, rfl⟩ <;> rw [state] <;> rfl
  · refine calls.trans (or_congr Iff.rfl ⟨fun h => ⟨?_, h⟩, And.right⟩)
    rw [disposing]
    simp

theorem Inv.disposeEnded (inv : r.Inv o) {outcome : Outcome}
    (ended : r.disposeEnded o d outcome = some r') : r.Advance o r' := by
  unfold RetainedRoom.disposeEnded at ended
  split at ended
  · rename_i found
    cases ended
    cases outcome with
    | returned =>
      refine inv.disposed found (.inl ⟨rfl, rfl, rfl⟩) ?_ rfl
      simp [Outcome.error?]
    | raised error | cancelled message =>
      refine inv.disposed found (.inr ⟨nofun, rfl, rfl⟩) ?_ rfl
      simp [Outcome.error?]
  · cases ended

end Disposal

/-! ## All events -/

/-- Bookkeeping the invariant does not read. -/
theorem Inv.bookkeeping (inv : r.Inv o) (waiting : List (TaskId × TaskId))
    (unwinding cancelling finished callbacks callSoon : List TaskId)
    (more : r.finished ⊆ finished) : r.Advance o { r with
      waiting := waiting, unwinding := unwinding, cancelling := cancelling
      finished := finished, releaseCallbacks := callbacks, callSoon := callSoon } := by
  refine advance ⟨⟨{ inv.1 with enrolled := ?_ }, inv.2.1, inv.2.2⟩, frame rfl rfl rfl rfl rfl rfl rfl⟩ rfl
  intro task member
  exact (inv.1.enrolled task member).imp id fun done => more done

/-- **One loop step.**  From a room that satisfies the invariant, every enabled
event advances it. -/
theorem Inv.step (inv : r.Inv o) {event : RoomEvent} (stepped : r.step o event = some r') : r.Advance o r' := by
  have same : r.Advance o r := (refl inv).advance rfl
  cases event with
  | observe activity generation reason =>
    cases stepped; exact inv.observe activity generation reason
  | recover generation reason => cases stepped; exact inv.recover generation reason
  | own task => cases stepped; exact inv.own task
  | taskFinished task =>
    cases stepped
    exact inv.bookkeeping _ _ _ _ _ _ (subset_cons_self _ _)
  | taskCancelled task => cases stepped; exact inv.bookkeeping _ _ _ _ _ _ (List.Subset.refl _)
  | disown task =>
    simp only [RetainedRoom.step] at stepped
    split at stepped
    · rename_i guard
      cases stepped
      simp only [Bool.and_eq_true, contains_iff_mem] at guard
      exact inv.disown guard.1
    · cases stepped
  | waitOwned current task =>
    cases stepped
    unfold waitOwned
    split
    · exact inv.bookkeeping _ _ _ _ _ _ (List.Subset.refl _)
    · exact same
  | waitOwnedEnded current | removeReleaseCallback callback =>
    cases stepped; exact inv.bookkeeping _ _ _ _ _ _ (List.Subset.refl _)
  | beginSettlement task =>
    cases stepped
    unfold beginSettlement
    split
    · exact inv.bookkeeping _ _ _ _ _ _ (List.Subset.refl _)
    · exact same
  | addReleaseCallback callback generation =>
    cases stepped
    unfold addReleaseCallback
    split
    · exact same
    split
    · exact inv.bookkeeping _ _ _ _ _ _ (List.Subset.refl _)
    · exact inv.bookkeeping _ _ _ _ _ _ (List.Subset.refl _)
  | use holder prepares => cases stepped; exact (inv.enterUse holder prepares).advance
  | resumeUse u wake => exact (inv.resumeUse stepped).advance
  | prepared u outcome => exact (inv.prepared stepped).advance
  | bodyEnded u outcome => exact (inv.bodyEnded stepped).advance
  | waitReleased caller generation => cases stepped; exact inv.waitReleased caller generation
  | resumeWait w wake => exact inv.resumeWait stepped
  | requestDisposal caller =>
    cases stepped
    obtain ⟨good, uses⟩ := inv.requestDisposal caller
    exact good.advance uses
  | resumeDisposal d => exact inv.resumeDisposal stepped
  | cancelDisposal d message => exact inv.cancelDisposal stepped
  | disposeEnded d outcome => exact inv.disposeEnded stepped
  | runTransition t => exact inv.runTransition stepped
  | cancelUnstarted t message => exact inv.cancelUnstarted stepped
  | acquireReturned t outcome => exact inv.acquireReturned stepped
  | releaseReturned t result => exact inv.releaseReturned stepped
  | transitionDone t => exact inv.transitionDone stepped

end RetainedRoom

end BandSdk.Retention

/-
# Retention.Pacing -- every event of a room, seen by the idle scheduler

The remaining events of `RetainedRoom.step`, and their one case analysis:
`Paces` is what all of them do to the deadline and the reports, and all but the
three that run or end a transition's callback are `Continues` as well.
-/
import BandSdk.Retention.Strides

namespace BandSdk.Retention

open BandSdk.Theory List RetainedRoom Stride Timed Told

/-- The events that run a transition task to its callback, or to its end. -/
def RoomEvent.runs : RoomEvent → Bool
  | .runTransition _ | .acquireReturned .. | .releaseReturned .. => true
  | _ => false

namespace RetainedRoom

variable {o : OwnerView} {r r₁ r' : RetainedRoom}

/-! ## Observation, recovery and enrolled work -/

section

variable (timed : r.Timed o)
include timed

theorem Stride.observe (activity : ProviderActivity) (generation : Nat)
    (reason : String) : r.Stride o (r.observe o activity generation reason) := by
  unfold RetainedRoom.observe
  split
  · refine Keeps.scheduled ?_ o _
    exact Keeps.frame rfl rfl rfl rfl rfl rfl rfl
  · exact refl timed

theorem Stride.recover (generation : Nat) (reason : String) : r.Stride o (r.recover o generation reason) := by
  unfold RetainedRoom.recover
  split
  · have keeps : r.Keeps (let asked : RetainedRoom := { r.request .recovery with
          recoverWhenUnleased := true
          activity := .unknown
          reason := reason
          error := some reason }
        if asked.state = .resident then { asked with state := .cleanupPending } else asked) := by
      by_cases resident : r.state = .resident
      · dsimp only
        rw [if_pos (show (r.request .recovery).state = .resident from resident)]
        exact Keeps.retire rfl (by rw [if_pos resident]) rfl rfl rfl rfl rfl
      · dsimp only
        rw [if_neg (show ¬ (r.request .recovery).state = .resident from resident)]
        exact Keeps.retire rfl (by rw [if_neg resident]; rfl) rfl rfl rfl rfl rfl
    have scheduled := keeps.scheduled o false
    exact scheduled.trans (startRequestedRecovery scheduled.timed)
  · exact refl timed

/-- Bookkeeping neither the continuation nor the deadline reads. -/
theorem Stride.bookkeeping (waiting : List (TaskId × TaskId))
    (unwinding cancelling finished callbacks callSoon : List TaskId) : r.Stride o { r with
      waiting := waiting, unwinding := unwinding, cancelling := cancelling
      finished := finished, releaseCallbacks := callbacks, callSoon := callSoon } :=
  ⟨Keeps.frame rfl rfl rfl rfl rfl rfl rfl, timed.frame rfl rfl rfl rfl rfl rfl rfl rfl, still rfl rfl⟩

theorem Stride.own (task : TaskId) : r.Stride o (r.own o task) := by
  unfold RetainedRoom.own
  split
  · exact bookkeeping timed _ _ _ _ _ _
  · refine Keeps.scheduled ?_ o false
    exact Keeps.frame rfl rfl rfl rfl rfl rfl rfl

end

/-! ## `wait_released()` -/

theorem releaseWaits_beginDisposal (o : OwnerView) (r : RetainedRoom) :
    (r.beginDisposal o).releaseWaits = r.releaseWaits := by
  obtain ⟨_, _, _, _, eq, -⟩ := schedule_shape o { r.request .final with closing := true } false
  unfold beginDisposal
  dsimp only
  split
  · rw [eq]; rfl
  · rw [eq]; rfl

theorem Stride.beginDisposal (o : OwnerView) (r : RetainedRoom) : r.Stride o (r.beginDisposal o) := by
  have final : strongerCause r.cause .final = .final := (strongerCause_eq_final _ _).2 (.inr rfl)
  have asked : r.Keeps { r.request .final with closing := true } := by
    refine ⟨⟨rfl, id, fun h => ?_, fun _ => rfl,
      fun t previous automatic phase found pending => .inl ⟨phase, found, pending⟩⟩, rfl,
      fun wait member live => ⟨wait, member, rfl, live⟩⟩
    have weak : strongerCause r.cause .final = .idle := Option.some.inj h
    rw [final] at weak
    cases weak
  have scheduled := asked.scheduled o false
  unfold RetainedRoom.beginDisposal
  dsimp only
  split
  · exact scheduled
  · exact ⟨scheduled.keeps.trans (Keeps.frame rfl rfl rfl rfl rfl rfl rfl),
      scheduled.timed.frame rfl rfl rfl rfl rfl rfl rfl rfl, scheduled.told⟩

theorem Stride.requestDisposal (o : OwnerView) (r : RetainedRoom) (caller : TaskId) :
    r.Stride o (r.requestDisposal o caller) := by
  have spared : r.Keeps (r.spareRequester caller) ∧ r.Told o (r.spareRequester caller) := by
    unfold spareRequester
    split
    · exact ⟨Keeps.frame rfl rfl rfl rfl rfl rfl rfl, still rfl rfl⟩
    · exact ⟨Keeps.refl r, still rfl rfl⟩
  have begun := beginDisposal o (r.spareRequester caller)
  exact ⟨spared.1.trans begun.keeps, begun.timed, spared.2.trans begun.told⟩

/-- A wait that is not over is for a residency without authority. -/
def Owed (o : OwnerView) (r : RetainedRoom) : Prop :=
  ∀ wait ∈ r.releaseWaits, wait.phase.over_ = false →
    wait.generation ≤ r.generation ∧ r.hasAuthority o wait.generation = false

theorem Owed.mono (owed : r.Owed o) {o' : OwnerView}
    (waits : ∀ wait ∈ r'.releaseWaits, wait.phase.over_ = false →
      ∃ old ∈ r.releaseWaits, old.generation = wait.generation ∧ old.phase.over_ = false)
    (generation : r.generation ≤ r'.generation)
    (retired : ∀ g ≤ r.generation, r.hasAuthority o g = false → r'.hasAuthority o' g = false) :
    r'.Owed o' := by
  intro wait member live
  obtain ⟨old, before, same, live⟩ := waits wait member live
  obtain ⟨le, lost⟩ := owed old before live
  rw [same] at le lost
  exact ⟨le.trans generation, retired _ le lost⟩

theorem Stride.setWait (timed : r.Timed o) {w : Nat} {wait : ReleaseWait}
    (found : r.releaseWaits[w]? = some wait) (live : wait.phase.over_ = false)
    (phase : ReleaseWaitPhase) : r.Stride o (r.setWait w phase) := by
  refine ⟨{ Keeps.frame rfl rfl rfl rfl rfl rfl rfl with waits := ?_ },
    timed.frame rfl rfl rfl rfl rfl rfl rfl rfl, still rfl rfl⟩
  intro other member running
  obtain ⟨w', at_⟩ := mem_iff_getElem?.1 member
  rcases getElem?_modify_cases at_ with ⟨rfl, old, present, rfl⟩ | ⟨-, kept⟩
  · rw [found] at present
    cases present
    exact ⟨wait, mem_of_getElem? found, rfl, live⟩
  · exact ⟨other, mem_of_getElem? kept, rfl, running⟩

/-- A release this wait starts is for recovery or for good: nothing weaker takes
authority away. -/
theorem strong_of_lost {generation : Nat} (lost : r.hasAuthority o generation = false)
    (le : generation ≤ r.generation) (unreleased : r.released generation = false)
    (open_ : r.isClosing o = false) {cause : ReleaseCause} (caused : r.cause = some cause) :
    cause ≠ .idle := by
  rintro rfl
  simp only [released, Bool.or_eq_false_iff, decide_eq_false_iff_not, beq_eq_false_iff_ne,
    Nat.not_lt] at unreleased
  obtain ⟨⟨ge, unsuspended⟩, unclosed⟩ := unreleased
  have kept := (authority_eq (o := o) generation).2
    ⟨Nat.le_antisymm le ge, open_, .inr caused, unsuspended, unclosed⟩
  rw [lost] at kept
  cases kept

theorem Stride.waitReleasedFrom (timed : r.Timed o) {w generation : Nat} {wait : ReleaseWait}
    (found : r.releaseWaits[w]? = some wait) (live : wait.phase.over_ = false)
    (lost : r.hasAuthority o generation = false) (le : generation ≤ r.generation) (n : Nat) :
    r.Stride o (waitReleasedFrom o w generation n r) := by
  have moved : ∀ phase, r.Stride o (r.setWait w phase) := setWait timed found live
  induction n with
  | zero => exact moved _
  | succ n ih =>
    simp only [RetainedRoom.waitReleasedFrom]
    split
    · exact moved _
    rename_i unreleased
    split
    · have begun := beginDisposal o r
      have found' : (r.beginDisposal o).releaseWaits[w]? = some wait := by
        rw [releaseWaits_beginDisposal, found]
      split
      · exact begun.trans (setWait begun.timed found' live _)
      · exact begun.trans (setWait begun.timed found' live _)
    · rename_i admitting
      split
      · exact moved _
      · split
        · exact ih
        · exact moved _
      · rename_i cause flight unleased caused
        have strong := strong_of_lost lost le (by simpa using unreleased)
          (by simpa using admitting) caused
        have started := startRelease (o := o)
          (timed.disarmed (rests_of_cause caused strong)) (.inr strong) false
        obtain ⟨flag, eq⟩ := startRelease_shape r cause false
        have found' : (r.startRelease cause false).releaseWaits[w]? = some wait := by
          rw [eq]
          exact found
        exact started.trans (setWait started.timed found' live _)
      · exact moved _

theorem Stride.resumeWait (timed : r.Timed o) (owed : r.Owed o) {w : Nat} {wake : Wake}
    (resumed : r.resumeWait o w wake = some r') : r.Stride o r' := by
  have looped : ∀ (wait : ReleaseWait) (left : Nat), r.releaseWaits[w]? = some wait →
      wait.phase.over_ = false → r.Stride o (RetainedRoom.waitReleasedFrom o w wait.generation left r) :=
    fun wait left found live =>
      have at_ := owed wait (mem_of_getElem? found) live
      waitReleasedFrom timed found live at_.2 at_.1 left
  unfold RetainedRoom.resumeWait at resumed
  split at resumed
  · cases resumed
  · rename_i generation left t reports found
    split at resumed
    · cases resumed
    cases resumed
    split
    · exact setWait timed found rfl _
    · exact looped _ _ found rfl
  · rename_i generation left seen found
    obtain ⟨-, ⟨⟩⟩ := of_passed resumed
    exact looped _ _ found rfl
  · rename_i generation d found
    split at resumed
    · cases resumed
      exact setWait timed found rfl _
    · cases resumed
  · rename_i wait alive found _ _ _
    cases resumed
    refine setWait timed found ?_ _
    obtain ⟨generation, phase⟩ := wait
    cases phase with
    | ended outcome => exact (alive generation outcome rfl).elim
    | _ => rfl
  · cases resumed

theorem lost_of_waitRefusal {caller : TaskId} {generation : Nat}
    (accepted : r.waitRefusal o caller generation = none) :
    generation ≤ r.generation ∧ r.hasAuthority o generation = false := by
  unfold waitRefusal at accepted
  split at accepted
  · cases accepted
  rename_i past
  split at accepted
  · cases accepted
  split at accepted
  · cases accepted
  rename_i unasked
  refine ⟨Nat.not_lt.1 past, ?_⟩
  by_contra kept
  obtain ⟨same, admitting, weak, unsuspended, unclosed⟩ :=
    (authority_eq (o := o) generation).1 (by simpa using kept)
  refine unasked ⟨same, admitting, unsuspended, unclosed, ?_, ?_⟩
  · rcases weak with none_ | idle
    · rw [none_]; exact nofun
    · rw [idle]; exact nofun
  · rcases weak with none_ | idle
    · rw [none_]; exact nofun
    · rw [idle]; exact nofun

/-! ## The disposal task -/

section Disposal

variable {d : Nat}

section

variable (timed : r.Timed o)
include timed

theorem Stride.setDisposal (d : Nat) (phase : DisposalPhase) :
    r.Stride o (r.setDisposal d phase) :=
  ⟨Keeps.frame rfl rfl rfl rfl rfl rfl rfl, timed.frame rfl rfl rfl rfl rfl rfl rfl rfl, still rfl rfl⟩

section

variable (closing : r.closing = true)
include closing

theorem Stride.disposeProvider (d : Nat) : r.Stride o (r.disposeProvider d) := by
  have disarmed := timed.disarmed (rests_of_closing closing)
  refine ⟨⟨⟨rfl, nofun, id, id, fun t previous automatic phase found pending =>
    .inl ⟨phase, found, pending⟩⟩, ?_, fun wait member live => ⟨wait, member, rfl, live⟩⟩,
    restless disarmed (rests_of_closing closing), still rfl rfl⟩
  show (r.history ++ [ProviderEvent.dispose]).filter ProviderEvent.ofTransition = _
  rw [filter_append]
  exact append_nil _

theorem Stride.releaseFinal (d : Nat) : r.Stride o (r.releaseFinal d) := by
  unfold RetainedRoom.releaseFinal
  split
  · exact disposeProvider timed closing d
  have started : r.Stride o (r.startRelease .final false) :=
    startRelease (timed.disarmed (rests_of_closing closing)) (.inr (by decide)) false
  exact started.trans (setDisposal started.timed d _)

theorem Stride.joinTransition (d : Nat) : r.Stride o (r.joinTransition d) := by
  unfold RetainedRoom.joinTransition
  split
  · exact setDisposal timed d _
  · exact releaseFinal timed closing d

theorem Stride.awaitDrained (d : Nat) : r.Stride o (r.awaitDrained d) := by
  unfold RetainedRoom.awaitDrained
  split
  · exact joinTransition timed closing d
  · exact setDisposal timed d _

end

theorem Stride.cancelWork : r.Stride o r.cancelWork ∧ r.cancelWork.closing = r.closing := by
  obtain ⟨work, eq, cases_⟩ := cancelWork_cases r
  have marked : r.Stride o work := by
    rw [eq]
    exact ⟨Keeps.frame rfl rfl rfl rfl rfl rfl rfl, timed.frame rfl rfl rfl rfl rfl rfl rfl rfl, still rfl rfl⟩
  have closing : work.closing = r.closing := by rw [eq]
  rcases cases_ with kept | ⟨t, cancelled⟩
  · rw [kept]
    exact ⟨marked, closing⟩
  · have keeps := Keeps.cancelAcquisition work t
    obtain ⟨transitions, acquisition, shape⟩ := cancelAcquisition_shape work t
    rw [cancelled]
    rw [shape] at keeps ⊢
    refine ⟨marked.trans ⟨keeps, ?_, still rfl rfl⟩, closing⟩
    exact marked.timed.frame rfl rfl rfl rfl rfl rfl rfl rfl

theorem Stride.runDispose (closing : r.closing = true) (d : Nat) : r.Stride o (r.runDispose o d) := by
  unfold RetainedRoom.runDispose
  split
  · exact awaitDrained timed closing d
  split
  · obtain ⟨cancelled, same⟩ := cancelWork timed
    exact cancelled.trans (awaitDrained cancelled.timed (same.trans closing) d)
  · exact setDisposal timed d _

omit timed in
theorem Stride.resumeDisposal (inv : r.Inv o) (timed : r.Timed o)
    (resumed : r.resumeDisposal o d = some r') : r.Stride o r' := by
  unfold RetainedRoom.resumeDisposal at resumed
  split at resumed
  · rename_i found
    cases resumed
    exact runDispose timed (inv.1.closing_of_disposal found) d
  · rename_i found
    cases resumed
    obtain ⟨cancelled, same⟩ := cancelWork timed
    exact cancelled.trans
      (awaitDrained cancelled.timed (same.trans (inv.1.closing_of_disposal found)) d)
  · rename_i seen found
    obtain ⟨-, ⟨⟩⟩ := of_passed resumed
    exact joinTransition timed (inv.1.closing_of_disposal found) d
  · rename_i t found
    obtain ⟨-, ⟨⟩⟩ := of_passed resumed
    exact releaseFinal timed (inv.1.closing_of_disposal found) d
  · rename_i t found
    split at resumed
    · cases resumed
    · cases resumed
      exact disposeProvider timed (inv.1.closing_of_disposal found) d
    · cases resumed
      exact setDisposal timed d _
  · cases resumed

theorem Stride.cancelDisposal {message : String}
    (cancelled : r.cancelDisposal d message = some r') : r.Stride o r' := by
  unfold RetainedRoom.cancelDisposal at cancelled
  split at cancelled
  · cases cancelled
  · cases cancelled
  · cases cancelled
    exact refl timed
  · rename_i t found
    split at cancelled
    · cases cancelled
      exact setDisposal timed d _
    · cases cancelled
      refine ⟨Keeps.frame rfl rfl rfl rfl ?_ rfl rfl, timed.frame rfl rfl rfl rfl rfl rfl rfl rfl,
        still rfl rfl⟩
      exact map_modify_of_eq fun _ => rfl
  · cases cancelled
    exact setDisposal timed d _

end

theorem Stride.disposeEnded {outcome : Outcome} (ended : r.disposeEnded o d outcome = some r') :
    r.Stride o r' := by
  have ends : ∀ (r₁ : RetainedRoom) (event : ProviderEvent), event.ofTransition = false →
      r₁.state ≠ .resident → r₁ = { r with
        state := r₁.state, error := r₁.error, ownerCalls := r₁.ownerCalls
        history := r.history ++ [event] } →
      r.Stride o ((r₁.schedule o false).setDisposal d (.finished outcome)) := by
    intro r₁ event other unresident frame
    have keeps : r.Keeps r₁ := by
      rw [frame]
      refine ⟨⟨rfl, fun h => absurd h unresident, id, id, fun t previous automatic phase found
        pending => .inl ⟨phase, found, pending⟩⟩, ?_, fun wait member live =>
        ⟨wait, member, rfl, live⟩⟩
      show (r.history ++ [event]).filter ProviderEvent.ofTransition = _
      simp [other]
    have scheduled := keeps.scheduled o false
    exact scheduled.trans (setDisposal scheduled.timed d _)
  unfold RetainedRoom.disposeEnded at ended
  split at ended
  · cases ended
    cases outcome with
    | returned => exact ends _ .disposed rfl nofun rfl
    | raised error | cancelled message => exact ends _ .disposeFailed rfl nofun rfl
  · cases ended

end Disposal

/-! ## Transition tasks -/

section Transitions

variable {t : Nat}

/-- Every segment that finishes its task schedules first. -/
theorem Timed.landed (o : OwnerView) (r r₁ : RetainedRoom) (reset : Bool) (t : Nat)
    (outcome : Outcome) : ((r₁.schedule o reset).finish t outcome).Timed o ∧
      r.Told o ((r₁.schedule o reset).finish t outcome) :=
  ⟨(schedule o r₁ reset).frame rfl rfl rfl rfl rfl rfl rfl rfl, .inr ⟨r₁, reset, rfl, rfl⟩⟩

theorem Timed.refused (o : OwnerView) (r r₁ : RetainedRoom) (intact : Bool) (t : Nat)
    (outcome : Outcome) : ((r₁.refuseIdleRelease o intact).finish t outcome).Timed o ∧
      r.Told o ((r₁.refuseIdleRelease o intact).finish t outcome) := by
  unfold refuseIdleRelease
  split
  · exact landed o r _ false t outcome
  · exact landed o r _ false t outcome

theorem Timed.call (timed : r.Timed o) (t : Nat) (event : ProviderEvent) :
    (r.call t event).Timed o ∧ r.Told o (r.call t event) :=
  ⟨timed.frame rfl rfl rfl rfl rfl rfl rfl rfl, still rfl rfl⟩

theorem Timed.runTransition (timed : r.Timed o) (ran : r.runTransition o t = some r') :
    r'.Timed o ∧ r.Told o r' := by
  unfold RetainedRoom.runTransition at ran
  split at ran
  · cases ran
    unfold runAcquire
    split
    · exact landed o r _ false t _
    · exact timed.call t _
  · cases ran
    unfold runRelease
    split
    · exact refused o r r _ t _
    · exact timed.call t _
  · cases ran

theorem Timed.acquireReturned {outcome : Outcome}
    (returned : r.acquireReturned o t outcome = some r') : r'.Timed o ∧ r.Told o r' := by
  unfold RetainedRoom.acquireReturned at returned
  split at returned
  · cases returned
    exact landed o r _ true t outcome
  · cases returned

theorem Timed.releaseEnded (o : OwnerView) (r : RetainedRoom) (t : Nat) (cause : ReleaseCause)
    (result : ReleaseResult) : (r.releaseEnded o t cause result).Timed o ∧
      r.Told o (r.releaseEnded o t cause result) := by
  cases result with
  | value outcome =>
    cases outcome with
    | released => exact landed o r _ true t _
    | busy =>
      unfold RetainedRoom.releaseEnded
      dsimp only
      split
      · exact landed o r _ true t _
      · exact landed o r _ true t _
  | raised error | cancelled message => exact landed o r _ true t _

theorem Timed.releaseReturned {result : ReleaseResult}
    (returned : r.releaseReturned o t result = some r') : r'.Timed o ∧ r.Told o r' := by
  unfold RetainedRoom.releaseReturned at returned
  split at returned
  · cases returned
    exact releaseEnded o r t _ result
  · cases returned

/-- What running or ending a transition leaves alone. -/
def Frames (r r' : RetainedRoom) : Prop :=
  r'.releaseWaits = r.releaseWaits ∧ r'.closing = r.closing

theorem frames_schedule (frames : r.Frames r₁) (reset : Bool) : r.Frames (r₁.schedule o reset) := by
  obtain ⟨_, _, _, _, eq, -⟩ := schedule_shape o r₁ reset
  rw [eq]
  exact frames

theorem frames_refuse (frames : r.Frames r₁) (intact : Bool) : r.Frames (r₁.refuseIdleRelease o intact) := by
  unfold refuseIdleRelease
  split
  · refine frames_schedule ?_ false
    exact frames
  · refine frames_schedule ?_ false
    exact frames

theorem frames_runTransition (ran : r.runTransition o t = some r') : r.Frames r' := by
  unfold runTransition at ran
  split at ran
  · cases ran
    unfold runAcquire
    split
    · exact frames_schedule ⟨rfl, rfl⟩ false
    · exact ⟨rfl, rfl⟩
  · cases ran
    unfold runRelease
    split
    · exact frames_refuse ⟨rfl, rfl⟩ _
    · exact ⟨rfl, rfl⟩
  · cases ran

theorem frames_acquireReturned {outcome : Outcome}
    (returned : r.acquireReturned o t outcome = some r') : r.Frames r' := by
  unfold acquireReturned at returned
  split at returned
  · cases returned
    refine frames_schedule ?_ true
    cases outcome.error? with
    | some error => rw [abandon_shape]; exact ⟨rfl, rfl⟩
    | none => dsimp only; split <;> exact ⟨rfl, rfl⟩
  · cases returned

theorem frames_commitRelease (r : RetainedRoom) (cause : ReleaseCause) : r.Frames (r.commitRelease cause) := by
  unfold commitRelease
  split
  · split <;> exact ⟨rfl, rfl⟩
  · exact ⟨rfl, rfl⟩

theorem frames_releaseReturned {result : ReleaseResult}
    (returned : r.releaseReturned o t result = some r') : r.Frames r' := by
  unfold releaseReturned at returned
  split at returned
  · rename_i cause previous automatic cancels reported found
    cases returned
    cases result with
    | value outcome =>
      cases outcome with
      | released =>
        refine frames_schedule ?_ true
        exact frames_commitRelease r cause
      | busy =>
        unfold releaseEnded
        dsimp only
        split
        · exact frames_schedule (frames_refuse ⟨rfl, rfl⟩ true) true
        · exact frames_schedule ⟨rfl, rfl⟩ true
    | raised error | cancelled message => exact frames_schedule ⟨rfl, rfl⟩ true
  · cases returned

/-- A task that finishes runs no more. -/
theorem Continues.finish (r : RetainedRoom) (t : Nat) (outcome : Outcome) :
    r.Continues (r.finish t outcome) := by
  refine ⟨rfl, id, id, id, fun t' previous automatic phase found pending => ?_⟩
  rw [tasks_finish] at found
  rcases getElem?_modify_cases found with ⟨-, old, -, eq⟩ | ⟨-, kept⟩
  · have finished : phase = .finished outcome := congrArg Prod.snd eq
    rw [finished] at pending
    cases pending
  · exact .inl ⟨phase, kept, pending⟩

theorem Stride.cancelUnstarted (timed : r.Timed o) {message : String}
    (cancelled : r.cancelUnstarted t message = some r') : r.Stride o r' := by
  unfold RetainedRoom.cancelUnstarted at cancelled
  split at cancelled
  · cases cancelled
    exact ⟨⟨Continues.finish r t _, rfl, fun wait member live => ⟨wait, member, rfl, live⟩⟩,
      timed.frame rfl rfl rfl rfl rfl rfl rfl rfl, still rfl rfl⟩
  · cases cancelled

theorem Stride.transitionDone (timed : r.Timed o) (done : r.transitionDone t = some r') : r.Stride o r' := by
  unfold RetainedRoom.transitionDone at done
  split at done
  · cases done
    have marked : r.Stride o { r with
        transitions := r.transitions.modify t fun tr => { tr with reported := true } } := by
      refine ⟨Keeps.frame rfl rfl rfl rfl ?_ rfl rfl, timed.frame rfl rfl rfl rfl rfl rfl rfl rfl,
        still rfl rfl⟩
      exact map_modify_of_eq fun _ => rfl
    exact marked.trans (startRequestedRecovery marked.timed)
  · cases done

/-! ## Every event -/

/-- What every event leaves of the deadline, the reports, the waits and admission. -/
structure Paces (o : OwnerView) (r r' : RetainedRoom) : Prop where
  timed : r'.Timed o
  told : r.Told o r'
  owed : r'.Owed o
  closing : r.closing = true → r'.closing = true

theorem Stride.paces (stride : r.Stride o r') (advance : r.Advance o r') (owed : r.Owed o) :
    r.Paces o r' :=
  ⟨stride.timed, stride.told, owed.mono stride.keeps.waits advance.generation advance.retired,
    stride.keeps.closing⟩

/-- A refused call is over at once; an accepted one waits for a residency that
has no authority any more. -/
theorem paces_waitReleased (inv : r.Inv o) (timed : r.Timed o) (owed : r.Owed o) (caller : TaskId)
    (generation : Nat) : r.Paces o (r.waitReleased o caller generation) ∧
      r.Continues (r.waitReleased o caller generation) ∧
      (r.waitReleased o caller generation).history.filter ProviderEvent.ofTransition =
        r.history.filter ProviderEvent.ofTransition := by
  have entered : ∀ (waits : List ReleaseWait), r.Continues { r with releaseWaits := waits } ∧
      Timed o { r with releaseWaits := waits } :=
    fun waits => ⟨Continues.frame rfl rfl rfl rfl rfl, timed.frame rfl rfl rfl rfl rfl rfl rfl rfl⟩
  unfold waitReleased
  split
  · rename_i error refused
    refine ⟨⟨(entered _).2, still rfl rfl, ?_, id⟩, (entered _).1, rfl⟩
    intro wait member live
    rcases mem_concat member with old | new
    · exact owed wait old live
    · rw [new] at live
      cases live
  · rename_i accepted
    obtain ⟨le, lost⟩ := lost_of_waitRefusal accepted
    have waiting : ({ r with releaseWaits :=
        r.releaseWaits ++ [⟨generation, .settleable maxSettleSteps 0⟩] } : RetainedRoom).Owed o := by
      intro wait member live
      rcases mem_concat member with old | new
      · exact owed wait old live
      · rw [new]
        exact ⟨le, lost⟩
    have found : (r.releaseWaits ++ [⟨generation, .settleable maxSettleSteps 0⟩])[
        r.releaseWaits.length]? = some ⟨generation, .settleable maxSettleSteps 0⟩ := by simp
    have stride := Stride.waitReleasedFrom (entered _).2 found rfl lost le maxSettleSteps
    have inv' : ({ r with releaseWaits :=
        r.releaseWaits ++ [⟨generation, .settleable maxSettleSteps 0⟩] } : RetainedRoom).Inv o :=
      ⟨{ inv.1 with }, inv.2.1, inv.2.2⟩
    have grows := (waitReleasedFrom_spec inv' r.releaseWaits.length generation maxSettleSteps).1.2
    refine ⟨⟨stride.timed, stride.told, ?_, stride.keeps.closing⟩, ?_, stride.keeps.record⟩
    · exact waiting.mono stride.keeps.waits grows.generation grows.retired
    · exact (entered _).1.trans stride.keeps.toContinues

end Transitions

/-- **One event.**  The deadline stays timed, the owner stays told, and no event
but a transition task's own touches the continuation. -/
theorem paces_step (inv : r.Inv o) (timed : r.Timed o) (owed : r.Owed o) {event : RoomEvent}
    (stepped : r.step o event = some r') : r.Paces o r' ∧ (event.runs = false → r.Continues r' ∧
      r'.history.filter ProviderEvent.ofTransition = r.history.filter ProviderEvent.ofTransition) := by
  have advance := inv.step stepped
  have strides : r.Stride o r' → r.Paces o r' ∧ (event.runs = false → r.Continues r' ∧
      r'.history.filter ProviderEvent.ofTransition = r.history.filter ProviderEvent.ofTransition) :=
    fun stride => ⟨stride.paces advance owed, fun _ => ⟨stride.keeps.toContinues, stride.keeps.record⟩⟩
  have still : r.Frames r' → r'.Timed o ∧ r.Told o r' → r.Paces o r' :=
    fun frames told => ⟨told.1, told.2, owed.mono (fun wait member live =>
      ⟨wait, frames.1 ▸ member, rfl, live⟩) advance.generation advance.retired, frames.2.trans⟩
  cases event with
  | observe activity generation reason =>
    cases stepped; exact strides (Stride.observe timed activity generation reason)
  | recover generation reason =>
    cases stepped; exact strides (Stride.recover timed generation reason)
  | own task => cases stepped; exact strides (Stride.own timed task)
  | taskFinished task
  | taskCancelled task
  | waitOwnedEnded current => cases stepped; exact strides (bookkeeping timed _ _ _ _ _ _)
  | disown task =>
    obtain ⟨-, ⟨⟩⟩ := of_passed stepped
    refine strides (Keeps.scheduled ?_ o false)
    exact Keeps.frame rfl rfl rfl rfl rfl rfl rfl
  | waitOwned current task =>
    cases stepped
    refine strides ?_
    unfold waitOwned
    split
    · exact bookkeeping timed _ _ _ _ _ _
    · exact refl timed
  | beginSettlement task =>
    cases stepped
    refine strides ?_
    unfold beginSettlement
    split
    · exact bookkeeping timed _ _ _ _ _ _
    · exact refl timed
  | addReleaseCallback callback generation =>
    cases stepped
    refine strides ?_
    unfold addReleaseCallback
    split
    · exact refl timed
    split
    · exact bookkeeping timed _ _ _ _ _ _
    · exact bookkeeping timed _ _ _ _ _ _
  | removeReleaseCallback callback =>
    cases stepped; exact strides (Stride.bookkeeping timed _ _ _ _ _ _)
  | use holder prepares => cases stepped; exact strides (Stride.enterUse inv timed holder prepares)
  | resumeUse u wake => exact strides (Stride.resumeUse inv timed stepped)
  | prepared u outcome => exact strides (Stride.prepared timed stepped)
  | bodyEnded u outcome => exact strides (Stride.bodyEnded timed stepped)
  | waitReleased caller generation =>
    cases stepped
    obtain ⟨paces, continues⟩ := paces_waitReleased inv timed owed caller generation
    exact ⟨paces, fun _ => continues⟩
  | resumeWait w wake => exact strides (Stride.resumeWait timed owed stepped)
  | requestDisposal caller => cases stepped; exact strides (Stride.requestDisposal o r caller)
  | resumeDisposal d => exact strides (Stride.resumeDisposal inv timed stepped)
  | cancelDisposal d message => exact strides (Stride.cancelDisposal timed stepped)
  | disposeEnded d outcome => exact strides (Stride.disposeEnded stepped)
  | cancelUnstarted t message => exact strides (Stride.cancelUnstarted timed stepped)
  | transitionDone t => exact strides (Stride.transitionDone timed stepped)
  | runTransition t =>
    exact ⟨still (frames_runTransition stepped) (timed.runTransition stepped), nofun⟩
  | acquireReturned t outcome =>
    exact ⟨still (frames_acquireReturned stepped) (Timed.acquireReturned stepped), nofun⟩
  | releaseReturned t result =>
    exact ⟨still (frames_releaseReturned stepped) (Timed.releaseReturned stepped), nofun⟩

end RetainedRoom

end BandSdk.Retention

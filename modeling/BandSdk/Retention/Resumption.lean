/-
# Retention.Resumption -- which acquires resume

Beside each room `watchedRetention` keeps how the room left residency last:
`Departure` is told by the room before and after a step, never by the flag.
`Resuming` ties the two together while admission is the room's own to give.
-/
import BandSdk.Retention.Deadlines

namespace BandSdk.Retention

open BandSdk.Theory List Option

/-- How a room last left `resident`. -/
inductive Departure where
  | never
  /-- For recovery or for good. -/
  | retired
  /-- For being idle; no idle release was confirmed yet. -/
  | idling
  /-- For being idle; the release was confirmed with nothing stronger pending. -/
  | idled
  deriving DecidableEq

theorem snoc_ne_snoc {α : Type} {before : List α} {first second : α} (other : first ≠ second) :
    before ++ [first] ≠ before ++ [second] := by
  intro same
  exact other (by simpa using same)

theorem self_ne_snoc {α : Type} {before : List α} {last : α} : before ≠ before ++ [last] := by
  intro same
  simpa using congrArg List.length same

namespace RetainedRoom

variable {o : OwnerView} {r r₁ r' : RetainedRoom} {d : Departure}

/-- The departure after a step from `r` to `r'`. -/
def departs (r r' : RetainedRoom) (d : Departure) : Departure :=
  if r.state = .resident ∧ r'.state ≠ .resident then
    if r'.cause = some .idle then .idling else .retired
  else if r'.history = r.history ++ [.released .idle] ∧ r.cause = some .idle ∧ d = .idling then .idled
  else d

structure Resuming (r : RetainedRoom) (d : Departure) : Prop where
  resident : r.state = .resident → r.resume = false
  idle : r.cause = some .idle → r.resume = false ∧ d = .idling
  running : ∀ (t : Nat) (previous : Residency) (automatic : Bool) (phase : TransitionPhase),
    r.tasks[t]? = some (.release .idle previous automatic, phase) → phase.done = false →
      r.resume = false ∧ d = .idling
  flag : r.closing = false → r.state ≠ .resident → (r.resume = true ↔ d = .idled)

/-! ## Steps that leave the flag alone -/

theorem departs_stay (stays : r.state = .resident → r'.state = .resident)
    (unconfirmed : r'.history ≠ r.history ++ [.released .idle]) : r.departs r' d = d := by
  unfold departs
  rw [if_neg fun h => h.2 (stays h.1), if_neg fun h => unconfirmed h.1]

theorem departs_confirmed (unresident : r.state ≠ .resident)
    (confirmed : r'.history = r.history ++ [.released .idle]) (idle : r.cause = some .idle) :
    r.departs r' .idling = .idled := by
  unfold departs
  rw [if_neg fun h => unresident h.1, if_pos ⟨confirmed, idle, rfl⟩]

theorem departs_superseded (unresident : r.state ≠ .resident) (other : r.cause ≠ some .idle) :
    r.departs r' d = d := by
  unfold departs
  rw [if_neg fun h => unresident h.1, if_neg fun h => other h.2.1]

/-- A room is resident without a pending cause, unless it closes. -/
theorem Core.cause_of_resident (core : r.Core o) (resident : r.state = .resident) : r.cause ≠ some .idle := by
  intro idle
  rcases core.resident_cause resident with none_ | closing
  · rw [none_] at idle
    cases idle
  · rw [core.closing_final.1 closing] at idle
    cases idle

theorem Core.no_release_resident (core : r.Core o) (resident : r.state = .resident) {t : Nat}
    {cause : ReleaseCause} {previous : Residency} {automatic : Bool} {phase : TransitionPhase}
    (found : r.tasks[t]? = some (.release cause previous automatic, phase)) :
    phase.done = true := by
  by_contra pending
  have running := (core.live t _ _ found (by simpa using pending)).2.1
  rw [resident] at running
  cases running

theorem Resuming.continued (law : r.Resuming d) (core : r.Core o) (continues : r.Continues r')
    (unconfirmed : r'.history ≠ r.history ++ [.released .idle]) :
    r'.Resuming (r.departs r' d) := by
  by_cases leaves : r.state = .resident ∧ r'.state ≠ .resident
  · -- it left for something stronger than idle: the flag was down, and stays down
    have resume : r'.resume = false := continues.resume.trans (law.resident leaves.1)
    have uncaused : r'.cause ≠ some .idle := fun idle =>
      core.cause_of_resident leaves.1 (continues.idle idle)
    have retired : r.departs r' d = .retired := by
      unfold departs
      rw [if_pos leaves, if_neg uncaused]
    rw [retired]
    refine ⟨fun _ => resume, fun idle => absurd idle uncaused, ?_, fun _ _ => ?_⟩
    · intro t previous automatic phase found pending
      rcases continues.running t previous automatic phase found pending with ⟨phase, old, live⟩ | idle
      · rw [core.no_release_resident leaves.1 old] at live
        cases live
      · exact absurd idle (core.cause_of_resident leaves.1)
    · rw [resume]
      exact ⟨nofun, nofun⟩
  · have stays : r.state = .resident → r'.state = .resident := fun resident => by
      by_contra left
      exact leaves ⟨resident, left⟩
    rw [departs_stay stays unconfirmed]
    refine ⟨fun resident => ?_, fun idle => ?_, ?_, fun open_ unresident => ?_⟩
    · exact continues.resume.trans (law.resident (continues.resident resident))
    · rw [continues.resume]
      exact law.idle (continues.idle idle)
    · intro t previous automatic phase found pending
      rw [continues.resume]
      rcases continues.running t previous automatic phase found pending with ⟨phase, old, live⟩ | idle
      · exact law.running t previous automatic phase old live
      · exact law.idle idle
    · have admitting : r.closing = false := by
        by_contra closing
        rw [continues.closing (by simpa using closing)] at open_
        cases open_
      rw [continues.resume]
      exact law.flag admitting fun resident => unresident (stays resident)

/-! ## Transitions that land -/

/-- A transition that lands leaves no release running. -/
theorem Resuming.landed (noLive : r'.NoLive) (resident : r'.state = .resident → r'.resume = false)
    (idle : r'.cause = some .idle → r'.resume = false ∧ d = .idling)
    (flag : r'.closing = false → r'.state ≠ .resident → (r'.resume = true ↔ d = .idled)) :
    r'.Resuming d := by
  refine ⟨resident, idle, fun t previous automatic phase found pending => ?_, flag⟩
  rw [noLive t _ phase found] at pending
  cases pending

/-- The fields the law reads, after a segment that schedules and finishes. -/
theorem landed_fields (o : OwnerView) (r₁ : RetainedRoom) (reset : Bool) (t : Nat)
    (outcome : Outcome) : ∃ r' : RetainedRoom, (r₁.schedule o reset).finish t outcome = r' ∧
      r'.state = r₁.state ∧ r'.cause = r₁.cause ∧ r'.resume = r₁.resume ∧
      r'.closing = r₁.closing ∧ r'.history = r₁.history ∧
      r'.tasks = (r₁.finish t outcome).tasks := by
  obtain ⟨_, _, _, _, eq, -⟩ := schedule_shape o r₁ reset
  refine ⟨_, rfl, ?_⟩
  rw [eq]
  exact ⟨rfl, rfl, rfl, rfl, rfl, rfl⟩

theorem Core.unresident_of_live (core : r.Core o) {t : Nat} {kind : TransitionKind}
    {phase : TransitionPhase} (found : r.tasks[t]? = some (kind, phase))
    (pending : phase.done = false) : r.state ≠ .resident := by
  intro resident
  have running := (core.live t kind phase found pending).2
  cases kind with
  | acquire => rw [Running, resident] at running; cases running
  | release cause previous automatic => rw [Running, resident] at running; cases running.1

section Landing

variable {t : Nat} {kind : TransitionKind} {phase : TransitionPhase}

/-- What the last segment of a live transition does to the law. -/
theorem Resuming.land (core : r.Core o) (found : r.tasks[t]? = some (kind, phase))
    (pending : phase.done = false) (tasks : r₁.tasks = r.tasks) (reset : Bool) (outcome : Outcome)
    (resident : r₁.state = .resident → r₁.resume = false)
    (idle : r₁.cause = some .idle → r₁.resume = false ∧ r.departs r₁ d = .idling)
    (flag : r₁.closing = false → r₁.state ≠ .resident → (r₁.resume = true ↔ r.departs r₁ d = .idled)) :
    ((r₁.schedule o reset).finish t outcome).Resuming
      (r.departs ((r₁.schedule o reset).finish t outcome) d) := by
  have unresident := core.unresident_of_live found pending
  obtain ⟨r', eq, state, cause, resume, closing, history, table⟩ := landed_fields o r₁ reset t outcome
  have noLive : r'.NoLive := by
    have finished := core.noLive_finish found pending outcome
    unfold NoLive at finished ⊢
    rw [table, tasks_finish, tasks, ← tasks_finish]
    exact finished
  have same : r.departs r' d = r.departs r₁ d := by
    unfold departs
    rw [history, state, cause]
  rw [eq, same]
  refine Resuming.landed noLive ?_ ?_ ?_
  · rw [state, resume]; exact resident
  · rw [cause, resume]; exact idle
  · rw [closing, state, resume]; exact flag

/-- A segment that neither confirms an idle release nor touches the flag. -/
theorem Resuming.land_kept (law : r.Resuming d) (core : r.Core o)
    (found : r.tasks[t]? = some (kind, phase)) (pending : phase.done = false)
    (tasks : r₁.tasks = r.tasks) (reset : Bool) (outcome : Outcome)
    (resume : r₁.resume = r.resume) (closing : r₁.closing = r.closing)
    (cause : r₁.cause = some .idle → r.cause = some .idle)
    (resident : r₁.state = .resident → r.cause = some .idle)
    (unconfirmed : r₁.history ≠ r.history ++ [.released .idle]) :
    ((r₁.schedule o reset).finish t outcome).Resuming
      (r.departs ((r₁.schedule o reset).finish t outcome) d) := by
  have unresident := core.unresident_of_live found pending
  have stay : r.departs r₁ d = d := departs_stay (fun h => absurd h unresident) unconfirmed
  refine Resuming.land core found pending tasks reset outcome ?_ ?_ ?_
  · intro landed
    rw [resume]
    exact (law.idle (resident landed)).1
  · intro idle
    rw [resume, stay]
    exact law.idle (cause idle)
  · intro open_ _
    rw [resume, stay]
    exact law.flag (closing.symm.trans open_) unresident

end Landing

/-! ## Acquires and releases -/

section Transitions

variable {t : Nat}

theorem Continues.call (r : RetainedRoom) {kind : TransitionKind}
    (found : r.tasks[t]? = some (kind, .created)) (event : ProviderEvent) :
    r.Continues (r.call t event) := by
  refine ⟨rfl, id, id, id, fun t' previous automatic phase found' pending => ?_⟩
  rw [tasks_call] at found'
  rcases getElem?_modify_cases found' with ⟨rfl, old, present, eq⟩ | ⟨-, kept⟩
  · rw [found] at present
    cases present
    have same : TransitionKind.release .idle previous automatic = kind := congrArg Prod.fst eq
    exact .inl ⟨.created, same ▸ found, rfl⟩
  · exact .inl ⟨phase, kept, pending⟩

section

variable (law : r.Resuming d)
include law

theorem Resuming.called (core : r.Core o) {kind : TransitionKind}
    (found : r.tasks[t]? = some (kind, .created)) {event : ProviderEvent}
    (unconfirmed : event ≠ .released .idle) :
    (r.call t event).Resuming (r.departs (r.call t event) d) :=
  law.continued core (Continues.call r found event) (snoc_ne_snoc unconfirmed)

theorem Resuming.refused (core : r.Core o) {previous : Residency}
    {automatic intact : Bool} (found : r.tasks[t]? = some (.release .idle previous automatic, .created))
    (outcome : Outcome) : ((r.refuseIdleRelease o intact).finish t outcome).Resuming
      (r.departs ((r.refuseIdleRelease o intact).finish t outcome) d) := by
  unfold refuseIdleRelease
  split
  · rename_i guard
    exact law.land_kept core found rfl (by rfl) false outcome (by rfl) (by rfl) (by exact nofun) (fun _ => guard.1)
      (by exact self_ne_snoc)
  · exact law.land_kept core found rfl (by rfl) false outcome (by rfl) (by rfl) id (by exact nofun) (by exact self_ne_snoc)

theorem Resuming.runTransition (core : r.Core o)
    (ran : r.runTransition o t = some r') : r'.Resuming (r.departs r' d) := by
  unfold RetainedRoom.runTransition at ran
  split at ran
  · rename_i reported found
    cases ran
    have found := found_task found
    unfold runAcquire
    split
    · exact law.land_kept core found rfl (by rfl) false _ (by rfl) (by rfl) id (by exact nofun) (by exact self_ne_snoc)
    · exact law.called core found nofun
  · rename_i cause previous automatic reported found
    cases ran
    have found := found_task found
    unfold runRelease
    split
    · rename_i refusal
      obtain ⟨rfl, -⟩ := refusal
      exact law.refused core found _
    · exact law.called core found nofun
  · cases ran

omit law in
theorem weak_of_recovery {cause : Option ReleaseCause} : some (strongerCause cause .recovery) ≠ some .idle := by
  intro weak
  have le := le_max_right (strength cause) (strength (some .recovery))
  rw [← strength_stronger, some.inj weak] at le
  exact absurd le (by decide)

theorem Resuming.acquireReturned (core : r.Core o) {outcome : Outcome}
    (returned : r.acquireReturned o t outcome = some r') : r'.Resuming (r.departs r' d) := by
  unfold RetainedRoom.acquireReturned at returned
  split at returned
  · rename_i cancels reported found
    cases returned
    have found := found_task found
    unfold acquireEnded
    cases outcome.error? with
    | some error =>
      rw [abandon_shape]
      refine law.land_kept core found rfl (by rfl) true outcome (by rfl) (by rfl) ?_ (by exact nofun)
        (by exact snoc_ne_snoc nofun)
      exact fun weak => absurd weak weak_of_recovery
    | none =>
      dsimp only
      split
      · rename_i uncaused
        -- the residency begins: the flag is spent
        refine Resuming.land core found rfl (by rfl) true outcome (fun _ => by rfl) ?_ ?_
        · intro idle
          have idle : r.cause = some .idle := idle
          rw [uncaused] at idle
          cases idle
        · exact fun _ unresident => absurd rfl unresident
      · exact law.land_kept core found rfl (by rfl) true outcome (by rfl) (by rfl) id
          (by exact nofun) (by exact snoc_ne_snoc nofun)
  · cases returned

/-- A confirmed release.  Over its own cause it sets the flag for an idle one;
over a stronger cause the flag was down, or the room is closing. -/
theorem Resuming.released (core : r.Core o) {cause : ReleaseCause} {previous : Residency} {automatic : Bool}
    (found : r.tasks[t]? = some (.release cause previous automatic, .calling)) (outcome : Outcome) :
    ((schedule o { r.commitRelease cause with history := r.history ++ [.released cause] }
      true).finish t outcome).Resuming (r.departs ((schedule o { r.commitRelease cause with
        history := r.history ++ [.released cause] } true).finish t outcome) d) := by
  obtain ⟨-, suspending, -, stronger, -⟩ := core.live t _ _ found rfl
  obtain ⟨requested, current⟩ := Option.ne_none_iff_exists'.1 (core.owed_cause (.inr suspending))
  have unresident := core.unresident_of_live found rfl
  have admitting : r.closing = false → requested ≠ .final := by
    rintro open_ rfl
    rw [core.closing_final.2 current] at open_
    cases open_
  by_cases settled : strongerCause (some cause) requested = cause
  · have same : requested = cause := by
      rw [current] at stronger
      cases cause <;> cases requested <;>
        simp_all [strongerCause, strength, ReleaseCause.precedence]
    subst same
    rw [commitRelease_settled current settled]
    refine Resuming.land core found rfl (by rfl) true outcome (by simp) ?_ fun open_ _ => ?_
    · intro idle
      have idle : (if requested = .final then some ReleaseCause.final else none) = some .idle := idle
      split at idle <;> cases idle
    · have open_ : r.closing = false := open_
      show (r.resume || requested == .idle) = true ↔ r.departs _ d = .idled
      cases requested with
      | final => exact absurd rfl (admitting open_)
      | recovery =>
        rw [departs_superseded unresident (by rw [current]; simp)]
        simpa using law.flag open_ unresident
      | idle =>
        rw [(law.idle current).2, departs_confirmed unresident rfl current]
        simp
  · rw [commitRelease_superseded current settled]
    refine Resuming.land core found rfl (by rfl) true outcome (by simp) ?_ fun open_ _ => ?_
    · intro idle
      have idle : r.cause = some .idle := idle
      rw [current] at idle
      cases idle
      exact absurd (strongerCause_idle cause) settled
    · have open_ : r.closing = false := open_
      have strong : r.cause ≠ some .idle := by
        rw [current]
        intro weak
        cases weak
        exact settled (strongerCause_idle cause)
      show false = true ↔ r.departs _ d = .idled
      rw [departs_superseded unresident strong]
      have unidled : d ≠ .idled := by
        cases cause with
        | idle =>
          rw [(law.running t _ _ _ found rfl).2]
          simp
        | recovery =>
          cases requested with
          | final => exact absurd rfl (admitting open_)
          | idle => exact absurd (strongerCause_idle _) settled
          | recovery => exact absurd (strongerCause_self _) settled
        | final =>
          cases requested with
          | final => exact absurd rfl (admitting open_)
          | idle => exact absurd (strongerCause_idle _) settled
          | recovery => exact absurd rfl settled
      exact ⟨by simp, fun idled => absurd idled unidled⟩

theorem Resuming.releaseReturned (core : r.Core o) {result : ReleaseResult}
    (returned : r.releaseReturned o t result = some r') : r'.Resuming (r.departs r' d) := by
  unfold RetainedRoom.releaseReturned at returned
  split at returned
  · rename_i cause previous automatic cancels reported found
    cases returned
    have found := found_task found
    have failed : ∀ error outcome, (r.releaseFailed o t cause error outcome).Resuming
        (r.departs (r.releaseFailed o t cause error outcome) d) := fun error outcome =>
      law.land_kept core found rfl (by rfl) true outcome (by rfl) (by rfl) id (by exact nofun)
        (by exact snoc_ne_snoc nofun)
    cases result with
    | value outcome =>
      cases outcome with
      | released => exact law.released core found _
      | busy =>
        unfold RetainedRoom.releaseEnded
        dsimp only
        split
        · rename_i idle
          subst idle
          unfold refuseIdleRelease
          split
          · rename_i guard
            obtain ⟨_, _, _, _, eq, -⟩ := schedule_shape o { r with
              activity := .active, reason := busyActivityReason
              history := r.history ++ [ProviderEvent.busy], cause := none, state := .resident } false
            rw [eq]
            exact law.land_kept core found rfl (by rfl) true _ (by rfl) (by rfl) (by exact nofun)
              (fun _ => guard.1) (by exact snoc_ne_snoc nofun)
          · obtain ⟨_, _, _, _, eq, -⟩ := schedule_shape o { r with
              activity := .active, reason := busyActivityReason
              history := r.history ++ [ProviderEvent.busy], state := .cleanupPending } false
            rw [eq]
            exact law.land_kept core found rfl (by rfl) true _ (by rfl) (by rfl) id (by exact nofun)
              (by exact snoc_ne_snoc nofun)
        · exact failed _ _
    | raised error | cancelled message => exact failed _ _
  · cases returned

/-- **One event of a room.** -/
theorem Resuming.step (inv : r.Inv o) (timed : r.Timed o) (owed : r.Owed o)
    {event : RoomEvent} (stepped : r.step o event = some r') : r'.Resuming (r.departs r' d) := by
  have quiet := (paces_step inv timed owed stepped).2
  cases event with
  | runTransition t => exact law.runTransition inv.1 stepped
  | acquireReturned t outcome => exact law.acquireReturned inv.1 stepped
  | releaseReturned t result => exact law.releaseReturned inv.1 stepped
  | _ =>
    obtain ⟨continues, record⟩ := quiet rfl
    refine law.continued inv.1 continues fun more => ?_
    rw [more, filter_append] at record
    exact self_ne_snoc record.symm

end

/-- **Asking to acquire.**  Only an acquisition's first run does, under open
admission, and it passes the flag. -/
theorem acquire_called (inv : r.Inv o) (timed : r.Timed o) (owed : r.Owed o) {event : RoomEvent}
    (stepped : r.step o event = some r') {generation : Nat} {resume : Bool}
    (called : r'.history = r.history ++ [.acquire generation resume]) :
    resume = r.resume ∧ r.closing = false ∧ r.state ≠ .resident := by
  have quiet := (paces_step inv timed owed stepped).2
  have ended : (∃ event, r'.history = r.history ++ [event] ∧ event.ends = true) → False := by
    rintro ⟨event, history, ends⟩
    rw [history] at called
    have same : event = .acquire generation resume := by simpa using called
    rw [same] at ends
    cases ends
  cases event with
  | runTransition t =>
    have ran : r.runTransition o t = some r' := stepped
    unfold RetainedRoom.runTransition at ran
    split at ran
    · rename_i reported found
      cases ran
      unfold runAcquire at called
      split at called
      · rw [history_landed] at called
        exact absurd called self_ne_snoc
      · rename_i admitting
        have called : r.history ++ [ProviderEvent.acquire r.generation r.resume] =
            r.history ++ [.acquire generation resume] := called
        have same : r.generation = generation ∧ r.resume = resume := by simpa using called
        exact ⟨same.2.symm, closing_false_of_isClosing (by simpa using admitting),
          inv.1.unresident_of_live (found_task found) rfl⟩
    · cases ran
      unfold runRelease at called
      split at called
      · have called : (r.refuseIdleRelease o _).history = _ := called
        rw [history_refused] at called
        exact absurd called self_ne_snoc
      · exact absurd called (snoc_ne_snoc nofun)
    · cases ran
  | acquireReturned t outcome => exact (ended (history_acquireReturned stepped)).elim
  | releaseReturned t result => exact (ended (history_releaseReturned stepped)).elim
  | _ =>
    have record := (quiet rfl).2
    rw [called, filter_append] at record
    exact absurd record.symm self_ne_snoc

end Transitions

end RetainedRoom

/-! ## Under the owner -/

/-- The departure of a registered room; one not registered yet never left. -/
def departsAt : Option RetainedRoom → Option RetainedRoom → Departure → Departure
  | some r, some r', d => r.departs r' d
  | _, _, d => d

def watchedRetention : Machine (RoomRetention × (Nat → Departure)) RetentionEvent where
  init p := retention.init p.1 ∧ p.2 = fun _ => .never
  step p event := (p.1.step event).map fun w => (w, fun i => departsAt p.1.rooms[i]? w.rooms[i]? (p.2 i))

namespace RoomRetention

open RetainedRoom

variable {w w' : RoomRetention} {ds : Nat → Departure}

structure Departed (w : RoomRetention) (ds : Nat → Departure) : Prop where
  room : ∀ (i : Nat) (r : RetainedRoom), w.rooms[i]? = some r → r.Resuming (ds i)
  fresh : ∀ i : Nat, w.rooms[i]? = none → ds i = .never

theorem resuming_fresh (roomId : String) : ({ roomId := roomId } : RetainedRoom).Resuming .never := by
  refine ⟨fun _ => rfl, fun idle => ?_, fun t previous automatic phase found => ?_, fun _ _ => ?_⟩
  · cases idle
  · cases found
  constructor
  · intro resume
    cases resume
  · intro idled
    cases idled

/-- The timer's idle release leaves the room for being idle. -/
theorem resuming_startIdleRelease {r : RetainedRoom} {d : Departure} (law : r.Resuming d)
    (rests : r.rests = true) :
    r.startIdleRelease.Resuming (r.departs r.startIdleRelease d) := by
  simp only [RetainedRoom.rests, Bool.and_eq_true] at rests
  have candidate := (idleCandidate_iff r).1 rests.1.1.1.1
  obtain ⟨flag, eq⟩ := startRelease_shape r .idle true
  have fields : r.startIdleRelease.state = .suspending ∧
      r.startIdleRelease.cause = some (strongerCause r.cause .idle) ∧
      r.startIdleRelease.resume = r.resume ∧ r.startIdleRelease.history = r.history := by
    show (r.startRelease .idle true).state = _ ∧ (r.startRelease .idle true).cause = _ ∧
      (r.startRelease .idle true).resume = _ ∧ (r.startRelease .idle true).history = _
    rw [eq]
    exact ⟨rfl, rfl, rfl, rfl⟩
  obtain ⟨state, cause, resume, history⟩ := fields
  have left : r.resume = false ∧ r.departs r.startIdleRelease d = .idling := by
    rcases candidate with ⟨resident, uncaused⟩ | ⟨pending, idle⟩
    · refine ⟨law.resident resident, ?_⟩
      unfold departs
      rw [if_pos ⟨resident, by rw [state]; simp⟩, if_pos (by rw [cause, uncaused]; rfl)]
    · obtain ⟨down, idling⟩ := law.idle idle
      refine ⟨down, ?_⟩
      rw [departs_stay (fun resident => by rw [pending] at resident; cases resident)
        (by rw [history]; exact self_ne_snoc), idling]
  rw [left.2]
  refine ⟨fun resident => ?_, fun _ => ⟨resume.trans left.1, rfl⟩,
    fun t previous automatic phase found pending => ⟨resume.trans left.1, rfl⟩, fun _ _ => ?_⟩
  · rw [state] at resident
    cases resident
  · rw [resume, left.1]
    exact ⟨by simp, by simp⟩

/-- The owner's own steps continue every room. -/
theorem Departed.owned (departed : w.Departed ds) (sound : w.Sound)
    (continues : ∀ (i : Nat) (r : RetainedRoom), w.rooms[i]? = some r →
      ∃ r', w'.rooms[i]? = some r' ∧ r.Continues r' ∧ r'.history = r.history)
    (length : w'.rooms.length = w.rooms.length) :
    w'.Departed fun i => departsAt w.rooms[i]? w'.rooms[i]? (ds i) := by
  refine ⟨fun i r' found' => ?_, fun i none_ => ?_⟩
  · have lt : i < w.rooms.length := by
      rw [← length]
      exact (List.getElem?_eq_some_iff.1 found').1
    have found := List.getElem?_eq_getElem lt
    obtain ⟨r'', at_, moves, history⟩ := continues i _ found
    rw [found'] at at_
    cases at_
    rw [found, found']
    exact (departed.room i _ found).continued (sound.room i _ found).1.1 moves
      (by rw [history]; exact self_ne_snoc)
  · have gone : w.rooms[i]? = none := by
      rw [List.getElem?_eq_none_iff] at none_ ⊢
      omega
    rw [gone]
    exact departed.fresh i gone

theorem continues_refl (r : RetainedRoom) : r.Continues r := Continues.frame rfl rfl rfl rfl rfl

theorem continues_spareRequester (r : RetainedRoom) (caller : TaskId) :
    r.Continues (r.spareRequester caller) ∧ (r.spareRequester caller).history = r.history := by
  unfold spareRequester
  split
  · exact ⟨Continues.frame rfl rfl rfl rfl rfl, rfl⟩
  · exact ⟨continues_refl r, rfl⟩

theorem begun_continues (entries : List (String × Nat)) (state : RoomRetention × List (Nat × Nat)) :
    (entries.foldl beginRoom state).1.rooms.length = state.1.rooms.length ∧
      ∀ (i : Nat) (r : RetainedRoom), state.1.rooms[i]? = some r →
        ∃ r', (entries.foldl beginRoom state).1.rooms[i]? = some r' ∧ r.Continues r' := by
  induction entries generalizing state with
  | nil => exact ⟨rfl, fun i r found => ⟨r, found, continues_refl r⟩⟩
  | cons entry entries ih =>
    obtain ⟨length, later⟩ := ih (beginRoom state entry)
    have first : (beginRoom state entry).1.rooms.length = state.1.rooms.length ∧
        ∀ (i : Nat) (r : RetainedRoom), state.1.rooms[i]? = some r →
          ∃ r', (beginRoom state entry).1.rooms[i]? = some r' ∧ r.Continues r' := by
      unfold beginRoom
      cases found : state.1.rooms[entry.2]? with
      | none => exact ⟨rfl, fun i r at_ => ⟨r, at_, continues_refl r⟩⟩
      | some r₁ =>
        obtain ⟨timer, eq⟩ := putRoom_shape state.1 entry.2 (r₁.beginDisposal state.1.view)
        dsimp only
        rw [eq]
        refine ⟨length_set, fun i r at_ => ?_⟩
        by_cases same : entry.2 = i
        · subst same
          rw [found] at at_
          cases at_
          refine ⟨{ r₁.beginDisposal state.1.view with ownerCalls := [] }, ?_, ?_⟩
          · show (state.1.rooms.set entry.2 _)[entry.2]? = _
            rw [getElem?_set_self', found]
            rfl
          · exact (Stride.beginDisposal state.1.view r₁).keeps.toContinues.trans
              (Continues.frame rfl rfl rfl rfl rfl)
        · refine ⟨r, ?_, continues_refl r⟩
          show (state.1.rooms.set entry.2 _)[i]? = _
          rw [getElem?_set_ne same, at_]
    refine ⟨length.trans first.1, fun i r at_ => ?_⟩
    obtain ⟨r₁, at₁, continues⟩ := first.2 i r at_
    obtain ⟨r₂, at₂, more⟩ := later i r₁ at₁
    exact ⟨r₂, at₂, continues.trans more⟩

theorem Departed.still (departed : w.Departed ds) (rooms : w'.rooms = w.rooms) :
    w'.Departed fun i => departsAt w.rooms[i]? w'.rooms[i]? (ds i) := by
  have same : (fun i => departsAt w.rooms[i]? w'.rooms[i]? (ds i)) = ds := by
    funext i
    rw [rooms]
    cases w.rooms[i]? with
    | none => rfl
    | some r => exact departs_stay id self_ne_snoc
  rw [same]
  exact ⟨fun i r found => departed.room i r (rooms ▸ found), fun i none_ =>
    departed.fresh i (rooms ▸ none_)⟩

theorem Departed.step (departed : w.Departed ds) (timely : w.Timely) {event : RetentionEvent}
    (stepped : w.step event = some w') :
    w'.Departed fun i => departsAt w.rooms[i]? w'.rooms[i]? (ds i) := by
  have sound := timely.sound
  cases event with
  | room j event =>
    obtain ⟨r, r', found, ran, rfl⟩ := step_room stepped
    obtain ⟨timed, owed⟩ := timely.scheduled.room j r found
    have law := (departed.room j r found).step (sound.room j r found).1 timed owed ran
    obtain ⟨timer, eq⟩ := putRoom_shape w j r'
    rw [eq]
    refine ⟨fun i q at_ => ?_, fun i none_ => ?_⟩
    · have at_ : (w.rooms.set j { r' with ownerCalls := [] })[i]? = some q := at_
      show q.Resuming (departsAt w.rooms[i]? (w.rooms.set j { r' with ownerCalls := [] })[i]? (ds i))
      by_cases same : j = i
      · subst same
        rw [getElem?_set_self', found] at at_ ⊢
        cases at_
        exact ⟨law.resident, law.idle, law.running, law.flag⟩
      · rw [getElem?_set_ne same] at at_ ⊢
        rw [at_]
        show q.Resuming (q.departs q (ds i))
        rw [departs_stay id self_ne_snoc]
        exact departed.room i q at_
    · have none_ : (w.rooms.set j { r' with ownerCalls := [] })[i]? = none := none_
      have gone : w.rooms[i]? = none := by
        rw [getElem?_eq_none_iff, length_set] at none_
        rw [getElem?_eq_none_iff]
        exact none_
      rw [gone]
      exact departed.fresh i gone
  | register roomId =>
    cases stepped
    unfold RoomRetention.register
    split
    · exact departed.still rfl
    refine ⟨fun i r found => ?_, fun i none_ => ?_⟩
    · have found : (w.rooms ++ [{ roomId := roomId }])[i]? = some r := found
      show r.Resuming (departsAt w.rooms[i]? (w.rooms ++ [{ roomId := roomId }])[i]? (ds i))
      rcases getElem?_append_singleton found with old | ⟨rfl, rfl⟩
      · rw [found, old]
        show r.Resuming (r.departs r (ds i))
        rw [departs_stay id self_ne_snoc]
        exact departed.room i r old
      · have gone : w.rooms[w.rooms.length]? = none := by simp
        rw [gone]
        show Resuming _ (ds w.rooms.length)
        rw [departed.fresh _ gone]
        exact resuming_fresh roomId
    · have none_ : (w.rooms ++ [{ roomId := roomId }])[i]? = none := none_
      have gone : w.rooms[i]? = none := by
        rw [getElem?_eq_none_iff, length_append] at none_
        rw [getElem?_eq_none_iff]
        omega
      rw [gone]
      exact departed.fresh i gone
  | tick elapsed => cases stepped; exact departed.still rfl
  | timer =>
    simp only [RoomRetention.step] at stepped
    split at stepped
    · rename_i due _
      cases stepped
      have lookup : ∀ i : Nat, (w.releaseDueRooms due).rooms[i]? = w.rooms[i]?.map fun r =>
          if w.registry.any (·.2 == i) && (r.deadline.map (fun at_ => decide (at_ ≤ due))).getD false
          then r.startIdleRelease else r := fun i => getElem?_mapIdx
      refine ⟨fun i r' found' => ?_, fun i none_ => ?_⟩
      · rw [found']
        rw [lookup] at found'
        obtain ⟨r, found, rfl⟩ := map_eq_some_iff.1 found'
        rw [found]
        have law := departed.room i r found
        split
        · rename_i fires
          have armed : r.deadline ≠ none := by
            intro none_
            rw [none_] at fires
            simp at fires
          exact resuming_startIdleRelease law ((timely.scheduled.room i r found).1.armed armed)
        · show r.Resuming (r.departs r (ds i))
          rw [departs_stay id self_ne_snoc]
          exact law
      · rw [lookup, map_eq_none_iff] at none_
        rw [none_]
        exact departed.fresh i none_
    · cases stepped
  | stop caller =>
    cases stepped
    obtain ⟨phase, -, -, -, -, rooms, -⟩ := stop_shape w caller
    refine departed.owned sound (fun i r found => ?_) (by rw [rooms, length_mapIdx])
    rw [rooms, getElem?_mapIdx, found]
    refine ⟨_, rfl, ?_⟩
    split
    · exact continues_spareRequester r caller
    · exact ⟨continues_refl r, rfl⟩
  | runShutdown s =>
    have histories := fun i r r' => @history_owner w w' sound (.runShutdown s) stepped
      (fun i roomEvent => by simp) i r r'
    simp only [RoomRetention.step, RoomRetention.runShutdown] at stepped
    split at stepped
    · cases stepped
      obtain ⟨length, continues⟩ := begun_continues w.registry (w, [])
      refine departed.owned sound (fun i r found => ?_) length
      obtain ⟨r', found', moves⟩ := continues i r found
      exact ⟨r', found', moves, histories i r r' found found'⟩
    · obtain ⟨-, stepped⟩ := of_passed stepped
      cases stepped; exact departed.still rfl
    · cases stepped
  | cancelShutdown s message =>
    simp only [RoomRetention.step, RoomRetention.cancelShutdown] at stepped
    split at stepped
    · cases stepped; exact departed.still rfl
    · cases stepped; exact departed.still rfl
    · cases stepped
  | resumeStop k wake =>
    simp only [RoomRetention.step, RoomRetention.resumeStop] at stepped
    split at stepped
    · split at stepped
      · cases stepped; exact departed.still rfl
      · cases stepped; exact departed.still rfl
      · cases stepped; exact departed.still rfl
      · cases stepped
    · cases stepped

theorem departed_of_reachable (reached : watchedRetention.Reachable (w, ds)) : w.Timely ∧ w.Departed ds := by
  refine reached.invariant (P := fun p => p.1.Timely ∧ p.1.Departed p.2) ?_ ?_
  · rintro ⟨w, ds⟩ ⟨start, rfl⟩
    have timely := timely_of_reachable ⟨w, start, Machine.Reaches.refl w⟩
    obtain ⟨idleTimeout, transitionTimeout, settleGrace, now, rfl⟩ := start
    refine ⟨timely, fun i r found => ?_, fun _ _ => rfl⟩
    cases found
  · rintro ⟨w, ds⟩ event ⟨w', ds'⟩ ⟨timely, departed⟩ stepped
    obtain ⟨after, moved, same⟩ := map_eq_some_iff.1 stepped
    obtain ⟨rfl, rfl⟩ := Prod.mk.inj same
    exact ⟨timely.step moved, departed.step timely moved⟩

/-- **Resuming.**  The acquire callback is told to resume exactly when the room
last left residency by an idle release, confirmed with nothing stronger pending;
until the room closes, the flag says so in every state but residency itself. -/
theorem resume_law (reached : watchedRetention.Reachable (w, ds)) {i : Nat} {r : RetainedRoom}
    (found : w.rooms[i]? = some r) :
    (∀ event w' r' generation resume, w.step event = some w' → w'.rooms[i]? = some r' →
      r'.history = r.history ++ [.acquire generation resume] → (resume = true ↔ ds i = .idled)) ∧
    (r.closing = false → r.state ≠ .resident → (r.resume = true ↔ ds i = .idled)) ∧
    (r.state = .resident → r.resume = false) := by
  obtain ⟨timely, departed⟩ := departed_of_reachable reached
  have law := departed.room i r found
  refine ⟨fun event w' r' generation resume stepped found' called => ?_, law.flag, law.resident⟩
  by_cases own : ∃ j roomEvent, event = .room j roomEvent
  · obtain ⟨j, roomEvent, rfl⟩ := own
    obtain ⟨q, q', at_, ran, rfl⟩ := step_room stepped
    obtain ⟨timer, eq⟩ := putRoom_shape w j q'
    rw [eq] at found'
    have found' : (w.rooms.set j { q' with ownerCalls := [] })[i]? = some r' := found'
    by_cases same : j = i
    · subst same
      rw [at_] at found
      cases found
      rw [getElem?_set_self', at_] at found'
      cases found'
      obtain ⟨timed, owed⟩ := timely.scheduled.room j r at_
      obtain ⟨passed, open_, unresident⟩ :=
        acquire_called (timely.sound.room j r at_).1 timed owed ran called
      rw [passed]
      exact law.flag open_ unresident
    · rw [getElem?_set_ne same, found] at found'
      cases found'
      exact absurd called self_ne_snoc
  · have kept := history_owner timely.sound stepped
      (fun j roomEvent h => own ⟨j, roomEvent, h⟩) found found'
    rw [kept] at called
    exact absurd called self_ne_snoc

/-- The quiet room is released for being idle and asked for again. -/
def resumingEvents : List RetentionEvent :=
  quietEvents ++ [.timer, .room 0 (.runTransition 1),
    .room 0 (.releaseReturned 1 (.value .released)), .room 0 (.use 2 false)]

theorem resume_law_resuming : ∃ w ds, watchedRetention.Reachable (w, ds) ∧ ds 0 = .idled ∧
    (w.step (.room 0 (.runTransition 2))).map (fun w' => w'.rooms.map (·.history)) =
      some [[.acquire 1 false, .acquired, .release .idle, .released .idle, .acquire 2 true]] := by
  have ran : (watchedRetention.run ({ idleTimeout := some 5 }, fun _ => .never) resumingEvents).map
      (fun p => decide (p.1.rooms.map (·.history) =
          [[.acquire 1 false, .acquired, .release .idle, .released .idle]] ∧
        (p.1.step (.room 0 (.runTransition 2))).map (fun w' => w'.rooms.map (·.history)) =
          some [[.acquire 1 false, .acquired, .release .idle, .released .idle, .acquire 2 true]])) =
      some true := by
    decide +kernel
  obtain ⟨⟨w, ds⟩, run, found⟩ := map_eq_some_iff.1 ran
  obtain ⟨histories, called⟩ := of_decide_eq_true found
  have reached : watchedRetention.Reachable (w, ds) :=
    ⟨_, ⟨⟨some 5, 10, 0, 0, rfl⟩, rfl⟩, _, run⟩
  obtain ⟨r, rest, rooms, history, -⟩ := map_eq_cons_iff.1 histories
  obtain ⟨w', stepped, histories'⟩ := map_eq_some_iff.1 called
  obtain ⟨r', rest', rooms', history', -⟩ := map_eq_cons_iff.1 histories'
  have at_ : w.rooms[0]? = some r := by rw [rooms]; rfl
  have at' : w'.rooms[0]? = some r' := by rw [rooms']; rfl
  have asked : r'.history = r.history ++ [.acquire 2 true] := by rw [history, history']; rfl
  have resumed := (resume_law reached at_).1 _ w' r' 2 true stepped at' asked
  exact ⟨w, ds, reached, resumed.1 rfl, called⟩

/-- A resuming acquire fails and its recovery release runs when the room is asked
to close: the confirmed release drops the flag, though nothing became resident. -/
theorem flag_dropped_by_final :
    (retention.run { idleTimeout := some 5 } (resumingEvents ++ [.room 0 (.runTransition 2),
        .room 0 (.acquireReturned 2 (.raised ⟨"RuntimeError", "no session"⟩)),
        .room 0 (.resumeUse 1 .ready), .room 0 (.runTransition 3),
        .room 0 (.requestDisposal 9)])).map
      (fun w => w.rooms.map fun r => (r.resume, r.state, r.history.drop 4)) =
      some [(true, .suspending, [.acquire 2 true, .acquireFailed, .release .recovery])] ∧
    (retention.run { idleTimeout := some 5 } (resumingEvents ++ [.room 0 (.runTransition 2),
        .room 0 (.acquireReturned 2 (.raised ⟨"RuntimeError", "no session"⟩)),
        .room 0 (.resumeUse 1 .ready), .room 0 (.runTransition 3),
        .room 0 (.requestDisposal 9), .room 0 (.releaseReturned 3 (.value .released))])).map
      (fun w => w.rooms.map fun r => (r.resume, r.state, r.history.drop 4)) =
      some [(false, .cleanupPending,
        [.acquire 2 true, .acquireFailed, .release .recovery, .released .recovery])] := by
  constructor
  · decide +kernel
  · decide +kernel

end RoomRetention

end BandSdk.Retention

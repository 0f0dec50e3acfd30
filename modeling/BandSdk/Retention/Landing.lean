/-
# Retention.Landing -- how a transition task runs and ends

A transition's last segment writes the room's state and cause, schedules, and
finishes the task.  `Lands` says what such a segment may write while its task is
the one in flight; every branch of the acquire and release coroutines lands, and
a room that lands keeps the invariant with nothing left in flight.
-/
import BandSdk.Retention.Ledger

namespace BandSdk.Retention

open BandSdk.Theory List Option

namespace RetainedRoom

variable {o : OwnerView} {r r₁ r' : RetainedRoom}

/-! ## The task table -/

theorem tasks_finish (t : Nat) (outcome : Outcome) :
    (r.finish t outcome).tasks = r.tasks.modify t fun task => (task.1, .finished outcome) :=
  map_modify fun _ => rfl

theorem tasks_call (t : Nat) (event : ProviderEvent) :
    (r.call t event).tasks = r.tasks.modify t fun task => (task.1, .calling) :=
  map_modify fun _ => rfl

theorem Core.live_unique (core : r.Core o) {t t' : Nat} {kind kind' : TransitionKind}
    {phase phase' : TransitionPhase} (found : r.tasks[t]? = some (kind, phase))
    (pending : phase.done = false) (found' : r.tasks[t']? = some (kind', phase'))
    (pending' : phase'.done = false) : t' = t := by
  have current := (core.live t kind phase found pending).1
  have current' := (core.live t' kind' phase' found' pending').1
  rw [current] at current'
  cases current'
  rfl

variable {kind : TransitionKind} {t : Nat} {phase : TransitionPhase} {previous : Residency} {automatic : Bool}
    {cause : ReleaseCause}

theorem Core.noLive_finish (core : r.Core o) (found : r.tasks[t]? = some (kind, phase))
    (pending : phase.done = false) (outcome : Outcome) : (r.finish t outcome).NoLive := by
  intro t' kind' phase' found'
  rw [tasks_finish] at found'
  rcases getElem?_modify_cases found' with ⟨-, old, -, eq⟩ | ⟨other, kept⟩
  · cases eq; rfl
  · by_contra unfinished
    exact other (core.live_unique found pending kept (by simpa using unfinished))

theorem kinds_modify (t : Nat) (phase : TransitionPhase) :
    (r.tasks.modify t fun task => (task.1, phase)).map (·.1) = r.tasks.map (·.1) :=
  map_modify_of_eq fun _ => rfl

theorem acquires_of_kinds {tasks tasks' : List (TransitionKind × TransitionPhase)}
    (same : tasks'.map (·.1) = tasks.map (·.1)) :
    (tasks'.countP fun task => task.1 = .acquire) = tasks.countP fun task => task.1 = .acquire := by
  have count := congrArg (List.countP fun kind => decide (kind = TransitionKind.acquire)) same
  simpa only [countP_map, Function.comp_def] using count

section

variable (core : r.Core o) (found : r.tasks[t]? = some (kind, phase)) (pending : phase.done = false)
include core found pending

theorem Core.unclosed_of_live : r.state ≠ .closed := by
  intro closed
  have := (core.closed closed).2.2.1 t kind phase found
  rw [pending] at this
  cases this

theorem Core.unsuspended_of_live : r.state ≠ .suspended := by
  intro suspended
  have running := (core.live t kind phase found pending).2
  cases kind with
  | acquire => rw [Running, suspended] at running; cases running
  | release cause previous automatic => rw [Running, suspended] at running; cases running.1

/-- While a transition is live, no disposal callback runs and none succeeded. -/
theorem DisposalAt.of_live {at_ : DisposalPhase} (holds : r.DisposalAt at_)
    (drained : r'.drained = r.drained) (quiet : r.Quiet → r'.Quiet)
    (current : r'.transition = r.transition) : r'.DisposalAt at_ := by
  cases at_ with
  | created | grace => trivial
  | draining seen => exact holds.imp (fun le => drained ▸ le) quiet
  | joining t | releasing t => exact ⟨quiet holds.1, current ▸ holds.2⟩
  | disposing =>
    have := holds.2.2 t kind phase found
    rw [pending] at this
    cases this
  | finished outcome =>
    exact fun returned => absurd (holds returned) (core.unclosed_of_live found pending)

/-! ## Running and finishing -/

theorem Core.finish (outcome : Outcome) : (r.finish t outcome).Core o := by
  have noLive := core.noLive_finish found pending outcome
  refine { core with
    live := ?_, transition_lt := ?_, disposal := ?_, closed := ?_, generation_count := ?_,
    cancelled := fun _ _ found' _ pending' => absurd (noLive.done found') (by simp [pending']) }
  · intro t' kind' phase' found' pending'
    rw [noLive t' kind' phase' found'] at pending'
    cases pending'
  · rw [tasks_finish, length_modify]
    exact core.transition_lt
  · intro d at_ present
    have old := core.disposal d at_ present
    exact ⟨old.1, DisposalAt.of_live core found pending old.2 rfl id rfl⟩
  · exact fun closed => absurd closed (core.unclosed_of_live found pending)
  · show r.generation = _
    rw [tasks_finish, acquires_of_kinds (kinds_modify t _), core.generation_count]

end

/-- The provider callback of the current transition begins. -/
theorem Inv.call (inv : r.Inv o) (found : r.tasks[t]? = some (kind, .created)) (event : ProviderEvent) :
    (r.call t event).Inv o := by
  obtain ⟨core, idle⟩ := inv
  have running := core.live t kind .created found rfl
  refine ⟨{ core with
    live := ?_, transition_lt := ?_, disposal := ?_, closed := ?_, generation_count := ?_,
    cancelled := ?_ }, idle.1, idle.2⟩
  · intro t' kind' phase' found' pending'
    rw [tasks_call] at found'
    rcases getElem?_modify_cases found' with ⟨rfl, old, present, eq⟩ | ⟨other, kept⟩
    · rw [found] at present
      cases present
      cases eq
      exact running
    · exact core.live t' kind' phase' kept pending'
  · rw [tasks_call, length_modify]
    exact core.transition_lt
  · intro d at_ present
    have old := core.disposal d at_ present
    exact ⟨old.1, DisposalAt.of_live core found rfl old.2 rfl id rfl⟩
  · exact fun closed => absurd closed (core.unclosed_of_live found rfl)
  · show r.generation = _
    rw [tasks_call, acquires_of_kinds (kinds_modify t _), core.generation_count]
  · intro t' tr found' asked pending
    rcases getElem?_modify_cases found' with ⟨-, old, present, rfl⟩ | ⟨-, kept⟩
    · refine core.cancelled t old present asked ?_
      rw [tasks_getElem?, present] at found
      have created : old.phase = .created := congrArg Prod.snd (some.inj found)
      rw [done_eq, created]
      rfl
    · exact core.cancelled t' tr kept asked pending

/-- What the last segment of a transition may write, before it schedules and the
task finishes. -/
structure Lands (o : OwnerView) (r r₁ : RetainedRoom) : Prop where
  frame : r₁ = { r with
    state := r₁.state, cause := r₁.cause, error := r₁.error, resume := r₁.resume
    activity := r₁.activity, reason := r₁.reason
    recoverWhenUnleased := r₁.recoverWhenUnleased, history := r₁.history }
  state : r₁.state = .resident ∨ r₁.state = .cleanupPending ∨ r₁.state = .suspended
  final : r₁.cause = some .final ↔ r.cause = some .final
  resident : r₁.state = .resident → r₁.cause = none ∨ r.closing = true
  owed : r₁.state = .cleanupPending → r₁.cause ≠ none
  suspended : r₁.state = .suspended → r.isClosing o = true ∨
    (r₁.cause = none ∧ r.leases = 0 ∧ holdsHandle r₁.history = false)
  authority : r₁.state ≠ .suspended → (r₁.cause = none ∨ r₁.cause = some .idle) →
    r.cause = none ∨ r.cause = some .idle
  cause : strength r.cause ≤ strength r₁.cause ∨ r.Cleared r₁
  record : r₁.history = r.history ∨ ∃ event, r₁.history = r.history ++ [event] ∧
    event ≠ .disposed ∧ ∀ generation resume, event ≠ .acquire generation resume

theorem Lands.finish (lands : r.Lands o r₁) (t : Nat) (outcome : Outcome) :
    (r₁.finish t outcome) = { r.finish t outcome with
      state := r₁.state, cause := r₁.cause, error := r₁.error, resume := r₁.resume
      activity := r₁.activity, reason := r₁.reason
      recoverWhenUnleased := r₁.recoverWhenUnleased, history := r₁.history } :=
  congrArg (RetainedRoom.finish · t outcome) lands.frame

theorem Lands.unclosed (lands : r.Lands o r₁) : r₁.state ≠ .closed := by
  intro closed
  rcases lands.state with h | h | h <;> rw [h] at closed <;> cases closed

theorem Core.land (core : r.Core o) (found : r.tasks[t]? = some (kind, phase)) (pending : phase.done = false)
    (lands : r.Lands o r₁) (outcome : Outcome) : (r₁.finish t outcome).Core o := by
  have noLive := core.noLive_finish found pending outcome
  have finished := core.finish found pending outcome
  rw [lands.finish]
  refine { finished with
    live := ?_, disposal := ?_, closing_final := ?_, resident_cause := lands.resident,
    suspended_cause := ?_, owed_cause := ?_, closed := ?_, initiator := ?_,
    cancelled := fun _ _ found' _ pending' => absurd (noLive.done found') (by simp [pending']) }
  · intro t' kind' phase' found' pending'
    rw [noLive t' kind' phase' found'] at pending'
    cases pending'
  · intro d at_ present
    have old := core.disposal d at_ present
    exact ⟨old.1, DisposalAt.of_live core found pending old.2 rfl id rfl⟩
  · exact core.closing_final.trans lands.final.symm
  · exact fun suspended => (lands.suspended suspended).symm.imp And.left id
  · rintro (owed | impossible)
    · exact lands.owed owed
    · have impossible : r₁.state = .suspending := impossible
      rcases lands.state with h | h | h <;> rw [h] at impossible <;> cases impossible
  · exact fun closed => absurd closed lands.unclosed
  intro use member left t' residing
  rcases lands.state with h | h | h
  · exact .inr (.inl h)
  · exact .inr (.inr (.inl h))
  rcases lands.suspended h with closing | ⟨-, unleased, -⟩
  · exact .inr (.inr (.inr ⟨h, closing⟩))
  have := core.unleased unleased use member
  rw [residing] at this
  cases this

theorem finish_schedule (o : OwnerView) (r : RetainedRoom) (reset : Bool) (t : Nat) (outcome : Outcome) :
    (r.schedule o reset).finish t outcome = (r.finish t outcome).schedule o reset := by
  unfold schedule rearmDeadline
  cases o.idleTimeout with
  | none => rfl
  | some timeout =>
    have same : (r.finish t outcome).idleEligible o = r.idleEligible o := rfl
    have armed : (r.finish t outcome).deadline = r.deadline := rfl
    dsimp only
    rw [same, armed]
    by_cases eligible : r.idleEligible o = true
    · rw [if_pos eligible, if_pos eligible]
      by_cases fresh : (reset || r.deadline == none) = true
      · rw [if_pos fresh, if_pos fresh]; rfl
      · rw [if_neg fresh, if_neg fresh]; rfl
    · rw [if_neg eligible, if_neg eligible]; rfl

theorem authority_eq (g : Nat) : r.hasAuthority o g = true ↔
    g = r.generation ∧ r.isClosing o = false ∧ (r.cause = none ∨ r.cause = some .idle) ∧
      r.state ≠ .suspended ∧ r.state ≠ .closed := by
  simp [hasAuthority, and_assoc]

theorem Lands.retired (lands : r.Lands o r₁) (active : r.state ≠ .suspended)
    (unclosed : r.state ≠ .closed) (g : Nat) (lost : r.hasAuthority o g = false) :
    r₁.hasAuthority o g = false := by
  by_contra regained
  have regained := (authority_eq g).1 (by simpa using regained)
  rw [lands.frame] at regained
  obtain ⟨current, admitting, weak, unsuspended, -⟩ := regained
  have kept : r.hasAuthority o g = true :=
    (authority_eq g).2 ⟨current, admitting, lands.authority unsuspended weak, active, unclosed⟩
  rw [lost] at kept
  cases kept

/-- A finished table has no acquisition waiting to run. -/
theorem NoLive.vacant (noLive : r.NoLive) (vacant : r.Vacant) : r.state = .suspended := by
  rcases vacant with suspended | ⟨t, created⟩
  · exact suspended
  · cases noLive t _ _ created

theorem Lands.ledger (lands : r.Lands o r₁) (unclosed : r.state ≠ .closed) {outcome : Outcome}
    (noLive : (r₁.finish t outcome).NoLive) (ledger : r.Ledger o) :
    (r₁.finish t outcome).Ledger o where
  vacant h := by
    have suspended := noLive.vacant h
    rcases lands.suspended suspended with closing | ⟨-, -, released⟩
    · left
      rw [lands.finish]
      exact closing
    · exact .inr released
  ordered := by
    show ReleasedBetween r₁.history
    rcases lands.record with same | ⟨event, eq, -, other⟩
    · rw [same]; exact ledger.ordered
    · rw [eq]
      exact ledger.ordered.append fun generation resume h => absurd h (other generation resume)
  disposed := by
    have none_ := ledger.disposed
    rw [if_neg unclosed] at none_
    show r₁.history.count .disposed = if r₁.state = .closed then 1 else 0
    rw [if_neg lands.unclosed]
    rcases lands.record with same | ⟨event, eq, other, -⟩
    · rw [same, none_]
    · rw [eq, count_append, none_, count_singleton]
      simpa using other

/-- **A transition that lands.**  The room keeps the invariant with nothing in
flight, retires no more than it did, and drops its cause only when cleared. -/
theorem Inv.land (inv : r.Inv o) (found : r.tasks[t]? = some (kind, phase)) (pending : phase.done = false)
    (lands : r.Lands o r₁) (reset : Bool) (outcome : Outcome) :
    r.Advance o ((r₁.schedule o reset).finish t outcome) := by
  have core := inv.1.land found pending lands outcome
  have active := inv.1.unsuspended_of_live found pending
  have unclosed := inv.1.unclosed_of_live found pending
  rw [finish_schedule]
  have scheduled := core.good_schedule (o := o) reset
  have grows := scheduled.2
  have noLive : (r₁.finish t outcome).NoLive := by
    intro t' kind' phase' found'
    refine inv.1.noLive_finish found pending outcome t' kind' phase' ?_
    rw [lands.finish] at found'
    exact found'
  refine ⟨scheduled.1, ?_, ?_, ?_, ?_, ?_, ?_, fun ledger => ?_, fun closed => absurd closed unclosed, ?_⟩
  · intro t' flight
    obtain ⟨deadline, callSoon, callbacks, settleable, eq, -⟩ :=
      schedule_shape o (r₁.finish t outcome) reset
    have current := (inFlight_eq_some.1 flight).1
    rw [eq, lands.finish]
    exact current
  · refine le_trans ?_ grows.generation
    rw [lands.finish]
    exact le_rfl
  · intro g le lost
    refine grows.retired g ?_ (lands.retired active unclosed g lost)
    rw [lands.finish]
    exact le
  · intro closing
    refine grows.closing ?_
    rw [lands.finish]
    exact closing
  · obtain ⟨deadline, callSoon, callbacks, settleable, eq, -⟩ :=
      schedule_shape o (r₁.finish t outcome) reset
    rw [eq]
    exact lands.cause
  · intro u body
    left
    have same : ((r₁.finish t outcome).schedule o reset).uses = r.uses := by
      rw [uses_schedule, lands.finish]
      rfl
    exact bodyAt_of_uses same u body
  · exact grows.ledger (lands.ledger unclosed noLive ledger)
  have open_ : r₁.state ≠ .closed := lands.unclosed
  rw [grows.forgets, lands.finish]
  obtain ⟨_, _, _, _, eq, -⟩ := schedule_shape o { r.finish t outcome with
    state := r₁.state, cause := r₁.cause, error := r₁.error, resume := r₁.resume
    activity := r₁.activity, reason := r₁.reason
    recoverWhenUnleased := r₁.recoverWhenUnleased, history := r₁.history } reset
  rw [eq]
  exact ⟨.inl, fun h => h.elim id fun h => absurd h.2 open_⟩

theorem Advance.schedule (advance : r.Advance o r') (reset : Bool) : r.Advance o (r'.schedule o reset) := by
  have scheduled := advance.inv.1.good_schedule (o := o) reset
  obtain ⟨deadline, callSoon, callbacks, settleable, eq, -⟩ := schedule_shape o r' reset
  rw [eq] at scheduled ⊢
  exact ⟨scheduled.1, advance.kept, advance.generation, advance.retired, advance.closing,
    advance.cause, advance.bodies, fun ledger => scheduled.2.ledger (advance.ledger ledger),
    advance.closed, scheduled.2.forgets.trans advance.forgets⟩

/-! ## Acquisitions -/

/-- A start that finds admission closed gives its residency back untouched. -/
theorem Lands.closedStart (closing : r.isClosing o = true) : r.Lands o { r with state := .suspended } where
  frame := rfl
  state := .inr (.inr rfl)
  final := Iff.rfl
  resident := nofun
  owed := nofun
  suspended _ := .inl closing
  authority unsuspended := absurd rfl unsuspended
  cause := .inl le_rfl
  record := .inl rfl

theorem Lands.acquireFailed (error : PyError) :
    r.Lands o { r.abandon.recordFailure error with
      history := r.history ++ [.acquireFailed] } := by
  rw [abandon_shape]
  refine ⟨rfl, .inr (.inl rfl), ?_, nofun, fun _ => some_ne_none _, nofun, ?_, ?_, ?_⟩
  · show some (strongerCause r.cause .recovery) = some .final ↔ _
    rw [some.injEq, strongerCause_eq_final]
    simp
  · intro _ weak
    rcases weak with h | h
    · cases h
    have h : strongerCause r.cause .recovery = .idle := some.inj h
    have stronger := strength_stronger r.cause .recovery
    rw [h] at stronger
    have le := le_max_right (strength r.cause) (strength (some .recovery))
    rw [← stronger] at le
    exact absurd le (by decide)
  · left
    show strength r.cause ≤ strength (some (strongerCause r.cause .recovery))
    rw [strength_stronger]
    exact le_max_left _ _
  · exact .inr ⟨_, rfl, nofun, nofun⟩

theorem Lands.acquired (uncaused : r.cause = none) :
    r.Lands o { r with
      state := .resident, resume := false, error := none
      history := r.history ++ [.acquired] } where
  frame := rfl
  state := .inl rfl
  final := Iff.rfl
  resident _ := .inl uncaused
  owed := nofun
  suspended := nofun
  authority _ weak := weak
  cause := .inl le_rfl
  record := .inr ⟨_, rfl, nofun, nofun⟩

/-- A cause recorded during the acquisition keeps it from becoming resident. -/
theorem Lands.acquiredPending (caused : r.cause ≠ none) :
    r.Lands o { r with
      state := .cleanupPending
      history := r.history ++ [.acquired] } where
  frame := rfl
  state := .inr (.inl rfl)
  final := Iff.rfl
  resident := nofun
  owed _ := caused
  suspended := nofun
  authority _ weak := weak
  cause := .inl le_rfl
  record := .inr ⟨_, rfl, nofun, nofun⟩

open Lands

theorem Inv.acquireEnded (inv : r.Inv o) (found : r.tasks[t]? = some (.acquire, .calling)) (outcome : Outcome) :
    r.Advance o (r.acquireEnded o t outcome) := by
  unfold RetainedRoom.acquireEnded
  cases outcome.error? with
  | some error => exact inv.land found rfl (acquireFailed error) true outcome
  | none =>
    dsimp only
    split
    · rename_i uncaused
      exact inv.land found rfl (acquired uncaused) true outcome
    · rename_i caused
      exact inv.land found rfl (acquiredPending caused) true outcome

/-! ## Releases -/

theorem Lands.refuseIntact (idle : r.cause = some .idle)
    (recorded : r₁.history = r.history ∧ (∃ (t : Nat) (automatic : Bool),
        r.tasks[t]? = some (.release .idle .resident automatic, .created)) ∨
      r₁.history = r.history ++ [.busy]) (frame : r₁ = { r with
      cause := none, state := .resident
      activity := r₁.activity, reason := r₁.reason, history := r₁.history }) :
    r.Lands o r₁ := by
  have state : r₁.state = .resident := by rw [frame]
  have cause : r₁.cause = none := by rw [frame]
  refine ⟨?_, .inl state, ?_, fun _ => .inl cause, ?_, ?_, fun _ _ => .inr idle, ?_, ?_⟩
  · rw [frame]
  · rw [cause, idle]; simp
  · rw [state]; exact nofun
  · rw [state]; exact nofun
  · exact .inr ⟨cause, .inr ⟨idle, state, recorded⟩⟩
  · exact recorded.imp And.left fun eq => ⟨.busy, eq, nofun, nofun⟩

/-- Whatever a failed, refused or superseded release leaves still pends. -/
theorem Lands.stillOwed (caused : r.cause ≠ none) (state : r₁.state = .cleanupPending)
    (record : r₁.history = r.history ∨ ∃ event, r₁.history = r.history ++ [event] ∧
      event ≠ .disposed ∧ ∀ generation resume, event ≠ .acquire generation resume)
    (frame : r₁ = { r with
      state := r₁.state, error := r₁.error, resume := r₁.resume, activity := r₁.activity
      reason := r₁.reason, history := r₁.history }) : r.Lands o r₁ := by
  have cause : r₁.cause = r.cause := by rw [frame]
  refine ⟨?_, .inr (.inl state), by rw [cause], ?_, ?_, ?_, ?_, .inl (by rw [cause]), record⟩
  · rw [frame]
  · rw [state]; exact nofun
  · rw [cause]; exact fun _ => caused
  · rw [state]; exact nofun
  · rw [cause]; exact fun _ weak => weak

theorem commitRelease_superseded {cause requested : ReleaseCause}
    (current : r.cause = some requested) (stronger : strongerCause (some cause) requested ≠ cause) :
    r.commitRelease cause = { r with error := none, state := .cleanupPending, resume := false } := by
  simp [commitRelease, current, stronger]

theorem commitRelease_settled {cause requested : ReleaseCause} (current : r.cause = some requested)
    (settled : strongerCause (some cause) requested = cause) :
    r.commitRelease cause = { r with
      error := none
      state := .suspended
      resume := r.resume || cause == .idle
      cause := if requested = .final then some .final else none } := by
  simp [commitRelease, current, settled]

theorem Lands.commitRelease (core : r.Core o)
    (found : r.tasks[t]? = some (.release cause previous automatic, phase)) (pending : phase.done = false) :
    r.Lands o { r.commitRelease cause with history := r.history ++ [.released cause] } := by
  obtain ⟨-, suspending, unleased, stronger, -⟩ := core.live t _ phase found pending
  have caused := core.owed_cause (.inr suspending)
  obtain ⟨requested, current⟩ := Option.ne_none_iff_exists'.1 caused
  have recorded : ∃ event, r.history ++ [ProviderEvent.released cause] = r.history ++ [event] ∧
      event ≠ .disposed ∧ ∀ generation resume, event ≠ .acquire generation resume :=
    ⟨_, rfl, by simp, by simp⟩
  by_cases superseded : strongerCause (some cause) requested = cause
  · have same : requested = cause := by
      rw [current] at stronger
      cases cause <;> cases requested <;>
        simp_all [strongerCause, strength, ReleaseCause.precedence]
    subst same
    have released : holdsHandle (r.history ++ [.released requested]) = false := by
      rw [holdsHandle_append]
    rw [commitRelease_settled current superseded]
    by_cases final : requested = .final
    · have closing := core.closing_final.2 (by rw [current, final])
      have kept : (if requested = .final then some ReleaseCause.final else none) = r.cause := by
        rw [if_pos final, current, final]
      refine ⟨rfl, .inr (.inr rfl), by simp only [kept], by simp, by simp,
        fun _ => .inl (isClosing_of_closing closing), fun h => absurd rfl h,
        .inl (by simp only [kept, le_refl]), .inr recorded⟩
    · have dropped : (if requested = .final then some ReleaseCause.final else none) = none :=
        if_neg final
      refine ⟨rfl, .inr (.inr rfl), ?_, by simp, by simp,
        fun _ => .inr ⟨dropped, unleased, released⟩, fun h => absurd rfl h, ?_, .inr recorded⟩
      · simp only [dropped, current]
        simpa using final
      · exact .inr ⟨dropped, .inl ⟨requested, by rw [current], rfl⟩⟩
  · rw [commitRelease_superseded current superseded]
    exact stillOwed caused rfl (.inr recorded) rfl

section

variable (inv : r.Inv o)
include inv

theorem Inv.refuseIdleRelease (found : r.tasks[t]? = some (.release .idle previous automatic, .created))
    (outcome : Outcome) :
    r.Advance o ((r.refuseIdleRelease o (previous == .resident)).finish t outcome) := by
  have running := inv.1.live t _ _ found rfl
  unfold RetainedRoom.refuseIdleRelease
  split
  · rename_i guard
    have intact : previous = .resident := by simpa using guard.2
    subst intact
    refine inv.land found rfl ?_ false outcome
    exact refuseIntact guard.1 (.inl ⟨rfl, t, automatic, found⟩) rfl
  · refine inv.land found rfl ?_ false outcome
    exact stillOwed (inv.1.owed_cause (.inr running.2.1)) rfl (.inl rfl) rfl

theorem Inv.releaseFailed (found : r.tasks[t]? = some (.release cause previous automatic, .calling))
    (error : PyError) (outcome : Outcome) :
    r.Advance o (r.releaseFailed o t cause error outcome) := by
  have running := inv.1.live t _ _ found rfl
  refine inv.land found rfl ?_ true outcome
  exact stillOwed (inv.1.owed_cause (.inr running.2.1)) rfl
    (.inr ⟨.releaseFailed cause, rfl, nofun, nofun⟩) rfl

theorem Inv.releaseBusy (found : r.tasks[t]? = some (.release .idle previous automatic, .calling))
    (outcome : Outcome) :
    r.Advance o (((RetainedRoom.refuseIdleRelease o { r with
      activity := .active, reason := busyActivityReason
      history := r.history ++ [ProviderEvent.busy] } true).schedule o true).finish t outcome) := by
  have running := inv.1.live t _ _ found rfl
  rw [finish_schedule]
  refine Advance.schedule ?_ true
  unfold RetainedRoom.refuseIdleRelease
  split
  · rename_i guard
    refine inv.land found rfl ?_ false outcome
    exact refuseIntact guard.1 (.inr rfl) rfl
  · refine inv.land found rfl ?_ false outcome
    exact stillOwed (inv.1.owed_cause (.inr running.2.1)) rfl
      (.inr ⟨.busy, rfl, nofun, nofun⟩) rfl

theorem Inv.releaseEnded (found : r.tasks[t]? = some (.release cause previous automatic, .calling))
    (result : ReleaseResult) : r.Advance o (r.releaseEnded o t cause result) := by
  cases result with
  | value outcome =>
    cases outcome with
    | released => exact inv.land found rfl (Lands.commitRelease inv.1 found rfl) true .returned
    | busy =>
      unfold RetainedRoom.releaseEnded
      dsimp only
      split
      · rename_i idle
        subst idle
        exact inv.releaseBusy found .returned
      · exact inv.releaseFailed found _ _
  | raised error => exact inv.releaseFailed found error _
  | cancelled message => exact inv.releaseFailed found _ _

/-! ## The task's events -/

theorem Inv.call_advance (found : r.tasks[t]? = some (kind, .created)) {event : ProviderEvent}
    (undisposed : event ≠ .disposed)
    (acquires : ∀ generation resume, event = .acquire generation resume →
      kind = .acquire ∧ r.isClosing o = false) : r.Advance o (r.call t event) := by
  refine ⟨inv.call found event, fun t' flight => (inFlight_eq_some.1 flight).1, le_rfl,
    fun _ _ lost => lost, id, .inl le_rfl, fun _ body => .inl body, fun ledger => ?_,
    id, ⟨.inl, fun h => h.elim id fun h => absurd h.2 h.1⟩⟩
  refine ⟨?_, ?_, ?_⟩
  · rintro (suspended | ⟨t', created⟩)
    · exact absurd suspended (inv.1.unsuspended_of_live found rfl)
    rw [tasks_call] at created
    rcases getElem?_modify_cases created with ⟨-, old, -, eq⟩ | ⟨other, kept⟩
    · cases congrArg Prod.snd eq
    · exact absurd (inv.1.live_unique found rfl kept rfl) other
  · refine ledger.ordered.append fun generation resume acquire => ?_
    obtain ⟨rfl, admitting⟩ := acquires generation resume acquire
    rcases ledger.vacant (.inr ⟨t, found⟩) with closing | released
    · rw [admitting] at closing; cases closing
    · exact released
  · show (r.history ++ [event]).count .disposed = if r.state = .closed then 1 else 0
    rw [count_append, ledger.disposed, count_singleton]
    simpa using undisposed

omit inv in
theorem found_task {cancels : Nat}
    {reported : Bool} (found : r.transitions[t]? = some ⟨kind, phase, cancels, reported⟩) :
    r.tasks[t]? = some (kind, phase) := by
  rw [tasks_getElem?, found]
  rfl

theorem Inv.runTransition (ran : r.runTransition o t = some r') : r.Advance o r' := by
  unfold RetainedRoom.runTransition at ran
  split at ran
  · rename_i reported found
    cases ran
    have found := found_task found
    unfold runAcquire
    split
    · rename_i closing
      exact inv.land found rfl (closedStart closing) false _
    · rename_i admitting
      refine inv.call_advance found nofun fun generation resume _ => ⟨rfl, ?_⟩
      simpa using admitting
  · rename_i cause previous automatic reported found
    cases ran
    have found := found_task found
    unfold runRelease
    split
    · rename_i refused
      obtain ⟨rfl, -⟩ := refused
      exact inv.refuseIdleRelease found _
    · exact inv.call_advance found nofun nofun
  · cases ran

/-- The coroutine of a task cancelled before its first run never starts, so the
room's state is left as the start wrote it. -/
theorem Inv.cancelUnstarted {message : String}
    (cancelled : r.cancelUnstarted t message = some r') : r.Advance o r' := by
  unfold RetainedRoom.cancelUnstarted at cancelled
  split at cancelled
  · rename_i kind cancels reported found
    cases cancelled
    have found := found_task found
    refine ⟨⟨inv.1.finish found rfl _, inv.2.1, inv.2.2⟩,
      fun t' flight => (inFlight_eq_some.1 flight).1, le_rfl, fun _ _ lost => lost, id,
      .inl le_rfl, fun _ body => .inl body, fun ledger => ⟨fun vacant => ?_, ledger.2, ledger.3⟩,
      id, ⟨.inl, fun h => h.elim id fun h => absurd h.2 h.1⟩⟩
    have suspended := (inv.1.noLive_finish found rfl _).vacant vacant
    exact absurd suspended (inv.1.unsuspended_of_live found rfl)
  · cases cancelled

theorem Inv.acquireReturned {outcome : Outcome}
    (returned : r.acquireReturned o t outcome = some r') : r.Advance o r' := by
  unfold RetainedRoom.acquireReturned at returned
  split at returned
  · rename_i cancels reported found
    cases returned
    exact inv.acquireEnded (found_task found) outcome
  · cases returned

theorem Inv.releaseReturned {result : ReleaseResult}
    (returned : r.releaseReturned o t result = some r') : r.Advance o r' := by
  unfold RetainedRoom.releaseReturned at returned
  split at returned
  · rename_i cause previous automatic cancels reported found
    cases returned
    exact inv.releaseEnded (found_task found) result
  · cases returned

theorem Inv.transitionDone (done : r.transitionDone t = some r') : r.Advance o r' := by
  unfold RetainedRoom.transitionDone at done
  split at done
  · cases done
    have marked := inv.transitions_eq (r.transitions.modify t fun tr => { tr with reported := true })
      (map_modify_of_eq fun _ => rfl) (fun t' tr found asked pending => by
        rcases getElem?_modify_cases found with ⟨-, old, present, rfl⟩ | ⟨-, kept⟩
        · exact inv.1.cancelled t old present asked pending
        · exact inv.1.cancelled t' tr kept asked pending) r.cancelledAcquisition
    have recovered := Good.trans marked.2 marked.1.startRequestedRecovery
    exact recovered.advance uses_startRequestedRecovery
  · cases done

end

end RetainedRoom

end BandSdk.Retention

/-
# Retention.Guarantees -- what a room promises its provider and its callers

For every interleaving of a retention's events:

* `provider_callbacks_exclude` -- at most one provider callback of a room runs,
  and no path replaces a transition that is unfinished.
* `releases_exclude_leases` -- no release or dispose callback runs under a lease,
  a body starts only over a resident room, and final cleanup only after every
  accepted operation finished.
* `authority_never_regained` -- a retired residency stays retired.
* `cleanup_never_forgotten` -- a pending release is dropped only by a release.
-/
import BandSdk.Retention.Runs

namespace BandSdk.Retention

open BandSdk.Theory RetainedRoom RoomRetention List Option RetainedRoom

variable {w w' w₁ w₂ w₃ : RoomRetention} {i : Nat} {r r' r₁ r₂ r₃ : RetainedRoom} {o : OwnerView}

/-! ## One provider callback at a time -/

/-- How many provider callbacks of the room are running. -/
def RetainedRoom.callbacksRunning (r : RetainedRoom) : Nat :=
  r.transitions.countP (fun tr => tr.phase = .calling) + r.disposals.countP (· = .disposing)

theorem RetainedRoom.Core.live_transition (core : r.Core o) {t : Nat} {tr : Transition}
    (found : r.transitions[t]? = some tr) (pending : tr.done = false) :
    r.transition = some t ∧ r.Running tr.kind := by
  refine core.live t tr.kind tr.phase ?_ (by rw [← done_eq, pending])
  rw [tasks_getElem?, found]
  rfl

/-- While the dispose callback runs, every transition is finished. -/
theorem RetainedRoom.Core.disposing_alone (core : r.Core o) (disposing : .disposing ∈ r.disposals) :
    r.Quiet ∧ ∀ tr ∈ r.transitions, tr.done = true := by
  obtain ⟨d, found⟩ := mem_iff_getElem?.1 disposing
  obtain ⟨quiet, -, noLive⟩ := (core.disposal d _ found).2
  refine ⟨quiet, fun tr member => ?_⟩
  obtain ⟨t, at_⟩ := mem_iff_getElem?.1 member
  exact noLive.done at_

theorem calling_live {tr : Transition} (calling : tr.phase = .calling) : tr.done = false := by
  rw [done_eq, calling]
  rfl

theorem RetainedRoom.Core.callbacksRunning_le (core : r.Core o) : r.callbacksRunning ≤ 1 := by
  have transitions : r.transitions.countP (fun tr => tr.phase = .calling) ≤ 1 := by
    refine countP_le_one fun t t' tr tr' found calling found' calling' => ?_
    have current := (core.live_transition found (calling_live (by simpa using calling))).1
    have current' := (core.live_transition found' (calling_live (by simpa using calling'))).1
    rw [current] at current'
    exact some.inj current'
  have disposals : r.disposals.countP (· = .disposing) ≤ 1 := by
    refine countP_le_one fun d d' phase phase' found disposing found' disposing' => ?_
    have current := (core.disposal d phase found).1 (by simp_all [DisposalPhase.done])
    have current' := (core.disposal d' phase' found').1 (by simp_all [DisposalPhase.done])
    rw [current] at current'
    exact some.inj current'
  unfold callbacksRunning
  by_cases disposing : .disposing ∈ r.disposals
  · -- a dispose callback excludes every transition
    have none_ : r.transitions.countP (fun tr => tr.phase = .calling) = 0 := by
      rw [countP_eq_zero]
      intro tr member calling
      have done := (core.disposing_alone disposing).2 tr member
      rw [calling_live (by simpa using calling)] at done
      cases done
    omega
  · have none_ : r.disposals.countP (· = .disposing) = 0 := by
      rw [countP_eq_zero]
      intro phase member same
      have same : phase = .disposing := by simpa using same
      exact disposing (same ▸ member)
    omega

/-- **Provider callbacks exclude one another.**  In every reachable state at most
one acquire, release or dispose callback of a room runs; only the current
transition is ever unfinished, no step replaces it while it is, and the dispose
callback runs only over finished transitions. -/
theorem provider_callbacks_exclude (reached : retention.Reachable w) (found : w.rooms[i]? = some r) :
    r.callbacksRunning ≤ 1 ∧
      (∀ (t : Nat) (tr : Transition), r.transitions[t]? = some tr → tr.done = false → r.transition = some t) ∧
      (.disposing ∈ r.disposals → ∀ tr ∈ r.transitions, tr.done = true) ∧
      (∀ event w', retention.step w event = some w' → ∀ t, r.inFlight = some t →
        ∃ r', w'.rooms[i]? = some r' ∧ r'.transition = some t) := by
  have sound := Sound.reachable reached
  have core := (sound.room i r found).1.1
  refine ⟨core.callbacksRunning_le, fun t tr at_ pending => (core.live_transition at_ pending).1,
    fun disposing => (core.disposing_alone disposing).2, fun event w' stepped t flight => ?_⟩
  obtain ⟨r', found', moves⟩ := (sound.step stepped).2 i r found
  exact ⟨r', found', moves.kept t flight⟩

/-- A room whose first acquire callback is running. -/
def acquiringEvents : List RetentionEvent :=
  [.register "room", .room 0 (.use 1 false), .room 0 (.runTransition 0)]

def acquiringWorld : RoomRetention := (retention.run {} acquiringEvents).getD {}

def acquiringRoom : RetainedRoom := (acquiringWorld.rooms[0]?).getD { roomId := "" }

theorem acquiringWorld_reachable : retention.Reachable acquiringWorld :=
  ⟨{}, ⟨none, 10, 0, 0, rfl⟩, acquiringEvents, rfl⟩

theorem provider_callbacks_exclude_acquiring :
    acquiringRoom.callbacksRunning = 1 ∧ acquiringRoom.callbacksRunning ≤ 1 ∧
      acquiringRoom.transition = some 0 := by
  have exclusive := provider_callbacks_exclude acquiringWorld_reachable
    (i := 0) (r := acquiringRoom) rfl
  exact ⟨rfl, exclusive.1, exclusive.2.1 0 _ rfl rfl⟩

/-! ## Leases and releases -/

/-- Every accepted operation finished and admission is closed. -/
structure RetainedRoom.Settled (o : OwnerView) (r : RetainedRoom) : Prop where
  closing : r.isClosing o = true
  owned : r.owned = []
  holders : r.holders = []
  enrolled : ∀ task ∈ r.enrolled, task ∈ r.finished
  uses : ∀ use ∈ r.uses, use.phase.active = false

theorem RetainedRoom.Core.settled (core : r.Core o) (quiet : r.Quiet) (closing : r.closing = true) :
    r.Settled o where
  closing := isClosing_of_closing closing
  owned := quiet.1
  holders := quiet.2
  enrolled task member := by
    refine (core.enrolled task member).resolve_left fun owned => ?_
    rw [quiet.1] at owned
    cases owned
  uses use member := by
    by_contra active
    obtain ⟨u, found⟩ := mem_iff_getElem?.1 member
    exact core.holders_ne_nil found (by simpa using active) quiet.2

theorem RetainedRoom.Core.bodyless (core : r.Core o) (unleased : r.leases = 0) (u : Nat) : ¬ r.BodyAt u := by
  rintro ⟨use, found, body⟩
  have := core.unleased unleased use (mem_of_getElem? found)
  rw [body] at this
  cases this

/-- **Leases exclude physical release.**  While a release or dispose callback runs
no lease is held and no body executes; a body starts only over a resident room
with nothing in flight, nothing pending and admission open; the final release
and the dispose callback run only once every accepted operation finished. -/
theorem releases_exclude_leases (reached : retention.Reachable w) (found : w.rooms[i]? = some r) :
    (∀ tr ∈ r.transitions, ∀ cause previous automatic,
      tr.kind = .release cause previous automatic → tr.phase = .calling →
        r.leases = 0 ∧ (∀ u, ¬ r.BodyAt u) ∧ (cause = .final → r.Settled w.view)) ∧
      (.disposing ∈ r.disposals → r.leases = 0 ∧ (∀ u, ¬ r.BodyAt u) ∧ r.Settled w.view) ∧
      (∀ event w' r', retention.step w event = some w' → w'.rooms[i]? = some r' →
        ∀ u, r'.BodyAt u → ¬ r.BodyAt u → r'.Ready w'.view) := by
  have sound := Sound.reachable reached
  have core := (sound.room i r found).1.1
  refine ⟨?_, ?_, ?_⟩
  · intro tr member cause previous automatic kind calling
    obtain ⟨t, at_⟩ := mem_iff_getElem?.1 member
    have running := (core.live_transition at_ (calling_live calling)).2
    rw [kind] at running
    obtain ⟨-, unleased, -, final⟩ := running
    exact ⟨unleased, core.bodyless unleased, fun h => core.settled (final h).1 (final h).2⟩
  · intro disposing
    have quiet := (core.disposing_alone disposing).1
    have unleased := core.leases_zero quiet.2
    have closing := core.disposal_closing fun none_ => by rw [none_] at disposing; cases disposing
    exact ⟨unleased, core.bodyless unleased, core.settled quiet closing⟩
  · intro event w' r' stepped found' u body fresh
    obtain ⟨r'', found'', moves⟩ := (sound.step stepped).2 i r found
    rw [found'] at found''
    cases found''
    exact (moves.bodies u body).resolve_left fresh

/-- The first body ended, and the room is disposed: its final release runs. -/
def closingEvents : List RetentionEvent :=
  [.room 0 (.acquireReturned 0 .returned), .room 0 (.resumeUse 0 .ready),
    .room 0 (.bodyEnded 0 .returned), .room 0 (.requestDisposal 2), .room 0 (.resumeDisposal 0),
    .room 0 (.runTransition 1)]

def releasingEvents : List RetentionEvent := acquiringEvents ++ closingEvents

def releasingWorld : RoomRetention := (retention.run {} releasingEvents).getD {}

def releasingRoom : RetainedRoom := (releasingWorld.rooms[0]?).getD { roomId := "" }

theorem releasingWorld_reachable : retention.Reachable releasingWorld :=
  ⟨{}, ⟨none, 10, 0, 0, rfl⟩, releasingEvents, rfl⟩

theorem releases_exclude_leases_final :
    releasingRoom.history.getLast? = some (.release .final) ∧ releasingRoom.leases = 0 ∧
      releasingRoom.Settled releasingWorld.view := by
  have running := (releases_exclude_leases releasingWorld_reachable
    (i := 0) (r := releasingRoom) rfl).1 _ (mem_of_getElem? (i := 1) rfl) .final .resident
      false rfl rfl
  exact ⟨rfl, running.1, running.2.2 rfl⟩

/-! ## Authority -/

/-- The acquisitions ever started for the room. -/
def RetainedRoom.acquisitions (r : RetainedRoom) : Nat :=
  r.transitions.countP fun tr => tr.kind = .acquire

/-- What accumulates over a run of a room. -/
def RoomRetention.Later (w w' : RoomRetention) : Prop :=
  ∀ (i : Nat) (r : RetainedRoom), w.rooms[i]? = some r → ∃ r', w'.rooms[i]? = some r' ∧
    r.generation ≤ r'.generation ∧
    ∀ g ≤ r.generation, r.hasAuthority w.view g = false → r'.hasAuthority w'.view g = false

theorem RoomRetention.Later.trans (first : w₁.Later w₂) (second : w₂.Later w₃) : w₁.Later w₃ := by
  intro i r found
  obtain ⟨r', found', le, lost⟩ := first i r found
  obtain ⟨r'', found'', le', lost'⟩ := second i r' found'
  exact ⟨r'', found'', le.trans le', fun g le'' h => lost' g (le''.trans le) (lost g le'' h)⟩

theorem RoomRetention.Sound.later (sound : w.Sound) (path : retention.Reaches w w') : w.Later w' := by
  refine path.rel (P := Sound) sound (fun _ _ _ sound stepped => (sound.step stepped).1)
    (fun w i r found => ⟨r, found, le_rfl, fun _ _ lost => lost⟩)
    (fun _ _ _ first second => first.trans second) ?_
  intro w event w' sound stepped i r found
  obtain ⟨r', found', moves⟩ := (sound.step stepped).2 i r found
  exact ⟨r', found', moves.generation, moves.retired⟩

theorem acquisitions_eq : r.acquisitions = r.tasks.countP fun task => task.1 = .acquire := by
  unfold acquisitions tasks
  rw [countP_map]
  rfl

/-- Storing an unchanged room back changes nothing. -/
theorem putRoom_self (found : w.rooms[i]? = some r) (uncalled : r.ownerCalls = []) : w.putRoom i r = w := by
  have same : ({ r with ownerCalls := [] } : RetainedRoom) = r := by rw [← uncalled]
  have set_self : w.rooms.set i r = w.rooms := by
    refine ext_getElem? fun j => ?_
    by_cases eq : i = j
    · subst eq
      rw [getElem?_set_self', found]
      rfl
    · rw [getElem?_set_ne eq]
  unfold RoomRetention.putRoom
  rw [uncalled, same, set_self]
  rfl

/-- **A retired residency never regains authority.**  Along every run: authority
lost by a generation is never regained; the generation grows, and equals the
number of acquisitions started; and observing or recovering without authority
changes nothing. -/
theorem authority_never_regained (reached : retention.Reachable w₁)
    (first : retention.Reaches w₁ w₂) (second : retention.Reaches w₂ w₃)
    (found₁ : w₁.rooms[i]? = some r₁) (found₂ : w₂.rooms[i]? = some r₂) (found₃ : w₃.rooms[i]? = some r₃) :
    (∀ g, r₁.hasAuthority w₁.view g = true → r₂.hasAuthority w₂.view g = false →
      r₃.hasAuthority w₃.view g = false) ∧
      r₁.generation ≤ r₂.generation ∧
      r₁.generation = r₁.acquisitions ∧ r₂.generation = r₂.acquisitions ∧
      (∀ activity g reason, r₁.hasAuthority w₁.view g = false →
        retention.step w₁ (.room i (.observe activity g reason)) = some w₁) ∧
      (∀ g reason, r₁.hasAuthority w₁.view g = false →
        retention.step w₁ (.room i (.recover g reason)) = some w₁) := by
  have sound₁ := Sound.reachable reached
  have sound₂ := Sound.reachable (reached.trans first)
  have early := sound₁.later first i r₁ found₁
  have late := sound₂.later second i r₂ found₂
  obtain ⟨r', found', le, -⟩ := early
  rw [found₂] at found'
  cases found'
  obtain ⟨r'', found'', -, lost⟩ := late
  rw [found₃] at found''
  cases found''
  have uncalled := (sound₁.room i r₁ found₁).2.2
  refine ⟨?_, le, ?_, ?_, ?_, ?_⟩
  · intro g had lost₂
    have current := ((authority_eq g).1 had).1
    exact lost g (by omega) lost₂
  · rw [acquisitions_eq]
    exact (sound₁.room i r₁ found₁).1.1.generation_count
  · rw [acquisitions_eq]
    exact (sound₂.room i r₂ found₂).1.1.generation_count
  · intro activity g reason lost₁
    have same : r₁.observe w₁.view activity g reason = r₁ := by
      unfold RetainedRoom.observe
      rw [lost₁]
      rfl
    simp only [retention, RoomRetention.step, found₁, RetainedRoom.step, same, map_some,
      putRoom_self found₁ uncalled]
  · intro g reason lost₁
    have same : r₁.recover w₁.view g reason = r₁ := by
      unfold RetainedRoom.recover
      rw [lost₁]
      rfl
    simp only [retention, RoomRetention.step, found₁, RetainedRoom.step, same, map_some,
      putRoom_self found₁ uncalled]

/-- Disposing an acquiring room retires its residency for good. -/
theorem authority_never_regained_disposed :
    acquiringRoom.hasAuthority acquiringWorld.view 1 = true ∧
      releasingRoom.hasAuthority releasingWorld.view 1 = false := by
  have first : retention.Reaches acquiringWorld releasingWorld := ⟨closingEvents, rfl⟩
  have found₁ : acquiringWorld.rooms[0]? = some acquiringRoom := rfl
  have found₂ : releasingWorld.rooms[0]? = some releasingRoom := rfl
  have retired := authority_never_regained acquiringWorld_reachable first
    (Machine.Reaches.refl _) found₁ found₂ found₂
  exact ⟨rfl, retired.1 1 rfl rfl⟩

/-! ## Pending cleanup -/

theorem state_schedule (reset : Bool) : (r.schedule o reset).state = r.state := by
  obtain ⟨_, _, _, _, eq, -⟩ := schedule_shape o r reset
  rw [eq]

theorem cause_schedule (reset : Bool) : (r.schedule o reset).cause = r.cause := by
  obtain ⟨_, _, _, _, eq, -⟩ := schedule_shape o r reset
  rw [eq]

theorem acquire_failure (t : Nat) {outcome : Outcome} (failed : outcome ≠ .returned)
    (returned : r.acquireReturned o t outcome = some r') :
    r'.state = .cleanupPending ∧ strength (some .recovery) ≤ strength r'.cause := by
  unfold acquireReturned at returned
  split at returned
  · cases returned
    obtain ⟨error, raised⟩ : ∃ error, outcome.error? = some error := by
      cases outcome with
      | returned => exact absurd rfl failed
      | raised error | cancelled message => exact ⟨_, rfl⟩
    unfold acquireEnded
    rw [raised]
    refine ⟨state_schedule true, ?_⟩
    show strength (schedule o _ true).cause ≥ _
    rw [cause_schedule, abandon_shape]
    show _ ≤ strength (some (strongerCause r.cause .recovery))
    rw [strength_stronger]
    exact le_max_right _ _
  · cases returned

/-- Whether a release callback's end is a failure: neither a confirmed release
nor a refusal that is valid for its cause. -/
def RetainedRoom.ReleaseResult.failed (cause : ReleaseCause) : ReleaseResult → Bool
  | .value .released => false
  | .value .busy => cause != .idle
  | .raised _ | .cancelled _ => true

theorem release_failure {t cancels : Nat} {cause : ReleaseCause} {previous : Residency}
    {automatic reported : Bool} {result : ReleaseResult} (found : r.transitions[t]? =
      some ⟨.release cause previous automatic, .calling, cancels, reported⟩)
    (failed : result.failed cause = true) (returned : r.releaseReturned o t result = some r') :
    r'.state = .cleanupPending ∧ r'.cause = r.cause := by
  have recorded : ∀ error outcome, (r.releaseFailed o t cause error outcome).state =
      .cleanupPending ∧ (r.releaseFailed o t cause error outcome).cause = r.cause :=
    fun error outcome => ⟨state_schedule true, cause_schedule true⟩
  unfold releaseReturned at returned
  rw [found] at returned
  cases returned
  cases result with
  | value outcome =>
    cases outcome with
    | released => cases failed
    | busy =>
      have other : cause ≠ .idle := by simpa [ReleaseResult.failed] using failed
      unfold releaseEnded
      rw [if_neg other]
      exact recorded _ _
  | raised error | cancelled message => exact recorded _ _

theorem settleFrom_release (open_ : r.isClosing o = false) (flight : r.inFlight = none)
    (unleased : r.leases = 0) {cause : ReleaseCause} (caused : r.cause = some cause) (n : Nat) :
    settleFrom o (n + 1) r = (r.startRelease cause false, .waits n (.transition r.transitions.length)) := by
  simp [settleFrom, open_, flight, unleased, caused]

theorem startRelease_task (cause : ReleaseCause) (automatic : Bool) :
    (r.startRelease cause automatic).transitions =
        r.transitions ++ [{ kind := .release cause r.state automatic }] ∧
      (r.startRelease cause automatic).transition = some r.transitions.length := by
  obtain ⟨_, eq⟩ := startRelease_shape r cause automatic
  rw [eq]
  exact ⟨rfl, rfl⟩

/-- A new `use()` over a pending cause starts that release before anything else. -/
theorem use_starts_release (open_ : r.isClosing o = false) (flight : r.inFlight = none)
    (unleased : r.leases = 0) {cause : ReleaseCause} (caused : r.cause = some cause)
    (holder : TaskId) (prepares : Bool) :
    (r.enterUse o holder prepares).transitions = r.transitions ++ [{ kind := .release cause r.state false }] ∧
      (r.enterUse o holder prepares).transition = some r.transitions.length := by
  obtain ⟨entered, eq, fields⟩ : ∃ entered : RetainedRoom,
      r.enterUse o holder prepares = entered.settleUse o r.uses.length prepares maxSettleSteps ∧
        (entered.isClosing o = r.isClosing o ∧ entered.inFlight = r.inFlight ∧
          entered.leases = r.leases ∧ entered.cause = r.cause ∧ entered.state = r.state ∧
          entered.transitions = r.transitions) := by
    obtain ⟨_, _, _, _, eq, -⟩ := schedule_shape o { r with
      holders := holder :: r.holders
      uses := r.uses ++ [⟨holder, prepares, .settling maxSettleSteps
        (.settleable r.settleable.sets)⟩] } false
    refine ⟨_, by unfold enterUse; rw [if_neg (by simp [open_])], ?_⟩
    rw [eq]
    exact ⟨rfl, rfl, rfl, rfl, rfl, rfl⟩
  obtain ⟨closing, flight', leases, cause', state, transitions⟩ := fields
  have settles := settleFrom_release (closing.trans open_) (flight'.trans flight)
    (leases.trans unleased) (cause'.trans caused) 5
  rw [eq]
  unfold settleUse maxSettleSteps
  rw [settles, ← state, ← transitions]
  exact startRelease_task cause false

theorem waitReleasedFrom_release {generation : Nat} (held : r.released generation = false)
    (open_ : r.isClosing o = false) (flight : r.inFlight = none) (unleased : r.leases = 0)
    {cause : ReleaseCause} (caused : r.cause = some cause) (k n : Nat) :
    waitReleasedFrom o k generation (n + 1) r =
      (r.startRelease cause false).setWait k (.transition n r.transitions.length true) := by
  simp [waitReleasedFrom, held, open_, flight, unleased, caused]

/-- `wait_released()` from outside starts a pending recovery. -/
theorem wait_starts_release (core : r.Core o) (open_ : r.isClosing o = false)
    (flight : r.inFlight = none) (unleased : r.leases = 0) (caused : r.cause = some .recovery)
    {caller : TaskId} (outside : r.enrolls caller = false) :
    (r.waitReleased o caller r.generation).transitions =
        r.transitions ++ [{ kind := .release .recovery r.state false }] ∧
      (r.waitReleased o caller r.generation).transition = some r.transitions.length := by
  have unsuspended : r.state ≠ .suspended := fun suspended => by
    rcases core.suspended_cause suspended with h | h
    · rw [caused] at h; cases h
    · rw [open_] at h; cases h
  have unclosed : r.state ≠ .closed := fun closed => by
    have := isClosing_of_closing (o := o) (core.closed closed).1
    rw [open_] at this
    cases this
  have accepted : r.waitRefusal o caller r.generation = none := by
    simp [waitRefusal, outside, caused]
  have held : r.released r.generation = false := by
    simp [released, unsuspended, unclosed]
  unfold waitReleased
  rw [accepted]
  obtain ⟨entered, eq⟩ : ∃ entered : RetainedRoom, entered = { r with
    releaseWaits := r.releaseWaits ++ [⟨r.generation, .settleable maxSettleSteps 0⟩] } := ⟨_, rfl⟩
  rw [← eq, maxSettleSteps, waitReleasedFrom_release (r := entered) (by rw [eq]; exact held)
    (by rw [eq]; exact open_) (by rw [eq]; exact flight) (by rw [eq]; exact unleased)
    (by rw [eq]; exact caused)]
  have started := startRelease_task (r := entered) .recovery false
  rw [eq] at started ⊢
  exact started

theorem beginDisposal_leaves_task (inv : r.Inv o) (unclosed : r.state ≠ .closed) :
    (r.beginDisposal o).closing = true ∧ ∃ (d : Nat) (phase : DisposalPhase),
      (r.beginDisposal o).disposals[d]? = some phase ∧ phase.done = false := by
  have scheduled := inv.1.close.scheduled (Grows.close o r) false
  obtain ⟨r₁, eq⟩ : ∃ r₁, r₁ = schedule o { r.request .final with closing := true } false :=
    ⟨_, rfl⟩
  have closing : r₁.closing = true := by
    obtain ⟨_, _, _, _, shape, -⟩ :=
      schedule_shape o { r.request .final with closing := true } false
    rw [eq, shape]
  have open_ : r₁.state ≠ .closed := by
    rw [eq, ne_eq, scheduled.2.closed]
    exact unclosed
  rw [← eq] at scheduled
  unfold beginDisposal
  rw [← eq]
  by_cases rejoins : r₁.rejoinsDisposal = true
  · rw [if_pos (.inr rejoins)]
    refine ⟨closing, ?_⟩
    unfold rejoinsDisposal at rejoins
    split at rejoins
    · cases rejoins
    · rename_i outcome finished
      obtain ⟨d, current, found⟩ := bind_eq_some_iff.1 finished
      have returned : outcome = .returned := returned_of_taskFailure (by simpa using rejoins)
      exact absurd ((scheduled.1.1.disposal d _ found).2 returned) open_
    · rename_i phase unfinished present
      obtain ⟨d, current, found⟩ := bind_eq_some_iff.1 present
      refine ⟨d, phase, found, ?_⟩
      cases phase with
      | finished outcome => exact absurd rfl (unfinished outcome)
      | _ => rfl
  · rw [if_neg (not_or.2 ⟨open_, rejoins⟩)]
    exact ⟨closing, r₁.disposals.length, .created, by simp, rfl⟩

theorem requestDisposal_leaves_task (inv : r.Inv o) (unclosed : r.state ≠ .closed)
    (caller : TaskId) : (r.requestDisposal o caller).closing = true ∧ ∃ (d : Nat) (phase : DisposalPhase),
        (r.requestDisposal o caller).disposals[d]? = some phase ∧ phase.done = false := by
  obtain ⟨spared, -⟩ := inv.spareRequester caller
  refine beginDisposal_leaves_task spared.1 ?_
  rw [ne_eq, spared.2.closed]
  exact unclosed

theorem releaseFinal_disposing {d : Nat}
    (disposing : (r.releaseFinal d).disposals[d]? = some .disposing) : r.state = .suspended := by
  unfold releaseFinal at disposing
  split at disposing
  · assumption
  rcases getElem?_setDisposal disposing with ⟨-, phase⟩ | ⟨other, -⟩
  · cases phase
  · exact absurd rfl other

theorem joinTransition_disposing {d : Nat}
    (disposing : (r.joinTransition d).disposals[d]? = some .disposing) : r.state = .suspended := by
  unfold joinTransition at disposing
  split at disposing
  · rcases getElem?_setDisposal disposing with ⟨-, phase⟩ | ⟨other, -⟩
    · cases phase
    · exact absurd rfl other
  · exact releaseFinal_disposing disposing

theorem awaitDrained_disposing {d : Nat}
    (disposing : (r.awaitDrained d).disposals[d]? = some .disposing) : r.state = .suspended := by
  unfold awaitDrained at disposing
  split at disposing
  · exact joinTransition_disposing disposing
  rcases getElem?_setDisposal disposing with ⟨-, phase⟩ | ⟨other, -⟩
  · cases phase
  · exact absurd rfl other

theorem state_cancelWork : r.cancelWork.state = r.state := by
  obtain ⟨work, eq, kept | ⟨t, cancelled⟩⟩ := cancelWork_cases r
  · rw [kept, eq]
  · obtain ⟨_, _, shape⟩ := cancelAcquisition_shape work t
    rw [cancelled, shape, eq]

/-- The dispose callback begins only over a suspended room, or after the final
release the task itself started returned. -/
theorem disposing_after_release {d : Nat} (resumed : r.resumeDisposal o d = some r')
    (disposing : r'.disposals[d]? = some .disposing) :
    r.state = .suspended ∨ ∃ t, r.disposals[d]? = some (.releasing t) ∧
      r.transitions[t]?.bind (·.outcome?) = some .returned := by
  have moved : ∀ phase : DisposalPhase, phase ≠ .disposing →
      (r.setDisposal d phase).disposals[d]? ≠ some .disposing := by
    intro phase other found
    rcases getElem?_setDisposal found with ⟨-, same⟩ | ⟨impossible, -⟩
    · exact other same.symm
    · exact impossible rfl
  unfold resumeDisposal at resumed
  split at resumed
  · cases resumed
    left
    unfold runDispose at disposing
    split at disposing
    · exact awaitDrained_disposing disposing
    split at disposing
    · exact state_cancelWork.symm.trans (awaitDrained_disposing disposing)
    · exact absurd disposing (moved _ nofun)
  · cases resumed
    exact .inl (state_cancelWork.symm.trans (awaitDrained_disposing disposing))
  · obtain ⟨-, ⟨⟩⟩ := of_passed resumed
    exact .inl (joinTransition_disposing disposing)
  · obtain ⟨-, ⟨⟩⟩ := of_passed resumed
    exact .inl (releaseFinal_disposing disposing)
  · rename_i t found
    split at resumed
    · cases resumed
    · rename_i finished
      exact .inr ⟨t, found, finished⟩
    · cases resumed
      exact absurd disposing (moved _ nofun)
  · cases resumed

theorem awaitDrained_release {d : Nat} (drained : r.drained.value = true)
    (flight : r.inFlight = none) (owed : r.state = .cleanupPending) :
    (r.awaitDrained d).transitions = r.transitions ++ [{ kind := .release .final .cleanupPending false }] ∧
      (r.awaitDrained d).transition = some r.transitions.length := by
  have task := startRelease_task (r := r) .final false
  rw [owed] at task
  have held : r.state ≠ .suspended := by rw [owed]; exact nofun
  have released : r.awaitDrained d =
      (r.startRelease .final false).setDisposal d (.releasing r.transitions.length) := by
    simp [awaitDrained, joinTransition, releaseFinal, drained, flight, held]
  rw [released]
  exact task

/-- The disposal task of a quiet room that still owes a release starts the final
one at its first run. -/
theorem dispose_starts_release (inv : r.Inv o) {d : Nat} (created : r.disposals[d]? = some .created)
    (quiet : r.Quiet) (flight : r.inFlight = none) (owed : r.state = .cleanupPending) :
    ∃ r', r.resumeDisposal o d = some r' ∧
      r'.transitions = r.transitions ++ [{ kind := .release .final .cleanupPending false }] ∧
      r'.transition = some r.transitions.length := by
  have drained := inv.2.drained.2 quiet
  have idle : r.uncancelledWork = [] := by
    unfold uncancelledWork
    rw [quiet.1]
    rfl
  unfold resumeDisposal
  rw [created]
  refine ⟨_, rfl, ?_⟩
  unfold runDispose
  split
  · exact awaitDrained_release drained flight owed
  rw [if_pos (.inr idle)]
  have unacquiring : r.state ≠ .acquiring := by rw [owed]; exact nofun
  have kept : r.cancelWork = { r with
      workCancelled := true, cancelling := r.uncancelledWork ++ r.cancelling } := by
    unfold cancelWork
    cases r.transition with
    | none => rfl
    | some t => simp [unacquiring]
  rw [kept]
  exact awaitDrained_release (r := { r with
    workCancelled := true, cancelling := r.uncancelledWork ++ r.cancelling }) drained flight owed

/-- What a room owes and how it pays, in one reachable state.

* `strengthens` -- every step keeps the pending cause at least as strong, or
  drops it by a release that covers it or an intact refused idle one.
* `failedAcquire` .. `owes` -- a failed or cancelled transition leaves a cause.
* `use`, `wait`, `disposal` .. -- how a later caller starts the release again.
* `ordered` -- no acquire callback over a handle not confirmed released.
* `closed` -- one successful dispose callback, exactly when closed. -/
structure RoomRetention.CleanupKept (w : RoomRetention) (i : Nat) (r : RetainedRoom) : Prop where
  strengthens : ∀ event w' r', retention.step w event = some w' → w'.rooms[i]? = some r' →
    strength r.cause ≤ strength r'.cause ∨ r.Cleared r'
  failedAcquire : ∀ t outcome r', outcome ≠ .returned → r.step w.view (.acquireReturned t outcome) = some r' →
      r'.state = .cleanupPending ∧ strength (some .recovery) ≤ strength r'.cause
  failedRelease : ∀ (t cancels : Nat) cause previous automatic reported result r',
    r.transitions[t]? = some ⟨.release cause previous automatic, .calling, cancels, reported⟩ →
    ReleaseResult.failed cause result = true →
    r.step w.view (.releaseReturned t result) = some r' →
      r'.state = .cleanupPending ∧ strength (some cause) ≤ strength r'.cause
  cancelledUnstarted : ∀ (t : Nat) tr message r', r.transitions[t]? = some tr → 0 < tr.cancels →
    r.step w.view (.cancelUnstarted t message) = some r' → r'.cause ≠ none
  owes : r.state = .cleanupPending ∨ r.state = .suspending → r.cause ≠ none
  use : ∀ holder prepares cause, r.cause = some cause → r.inFlight = none → r.leases = 0 →
    r.isClosing w.view = false → ∃ r', r.step w.view (.use holder prepares) = some r' ∧
        r'.transitions = r.transitions ++ [{ kind := .release cause r.state false }] ∧
        r'.transition = some r.transitions.length
  wait : ∀ caller, r.cause = some .recovery → r.inFlight = none → r.leases = 0 →
    r.isClosing w.view = false → r.enrolls caller = false →
      ∃ r', r.step w.view (.waitReleased caller r.generation) = some r' ∧
        r'.transitions = r.transitions ++ [{ kind := .release .recovery r.state false }] ∧
        r'.transition = some r.transitions.length
  disposal : ∀ caller, r.state ≠ .closed →
    ∃ r', r.step w.view (.requestDisposal caller) = some r' ∧ r'.closing = true ∧
      ∃ (d : Nat) (phase : DisposalPhase), r'.disposals[d]? = some phase ∧ phase.done = false
  disposalReleases : ∀ d : Nat, r.disposals[d]? = some .created → r.Quiet → r.inFlight = none →
    r.state = .cleanupPending → ∃ r', r.step w.view (.resumeDisposal d) = some r' ∧
        r'.transitions = r.transitions ++ [{ kind := .release .final .cleanupPending false }] ∧
        r'.transition = some r.transitions.length
  disposesReleased : ∀ (d : Nat) r', r.step w.view (.resumeDisposal d) = some r' →
    r'.disposals[d]? = some .disposing → r.state = .suspended ∨ ∃ t, r.disposals[d]? = some (.releasing t) ∧
        r.transitions[t]?.bind (·.outcome?) = some .returned
  ordered : ReleasedBetween r.history
  closed : r.history.count .disposed = if r.state = .closed then 1 else 0

theorem RoomRetention.Sound.cleanupKept (sound : w.Sound) (found : w.rooms[i]? = some r) :
    w.CleanupKept i r := by
  obtain ⟨inv, ledger, -⟩ := sound.room i r found
  refine {
    strengthens := ?_
    failedAcquire := fun t outcome r' failed returned => acquire_failure t failed returned
    failedRelease := ?_
    cancelledUnstarted := ?_
    owes := inv.1.owed_cause
    use := fun holder prepares cause caused flight unleased open_ =>
      ⟨_, rfl, use_starts_release open_ flight unleased caused holder prepares⟩
    wait := fun caller caused flight unleased open_ outside =>
      ⟨_, rfl, wait_starts_release inv.1 open_ flight unleased caused outside⟩
    disposal := fun caller unclosed => ⟨_, rfl, requestDisposal_leaves_task inv unclosed caller⟩
    disposalReleases := fun d created quiet flight owed =>
      dispose_starts_release inv created quiet flight owed
    disposesReleased := fun d r' resumed disposing => disposing_after_release resumed disposing
    ordered := ledger.ordered
    closed := ledger.disposed }
  · intro event w' r' stepped found'
    obtain ⟨r'', found'', moves⟩ := (sound.step stepped).2 i r found
    rw [found'] at found''
    cases found''
    exact moves.cause
  · intro t cancels cause previous automatic reported result r' at_ failed returned
    obtain ⟨state, same⟩ := release_failure at_ failed returned
    have running := (inv.1.live_transition at_ rfl).2
    rw [same]
    exact ⟨state, running.2.2.1⟩
  · intro t tr message r' at_ asked cancelled
    have cancelled : r.cancelUnstarted t message = some r' := cancelled
    unfold cancelUnstarted at cancelled
    rw [at_] at cancelled
    obtain ⟨kind, phase, cancels, reported⟩ := tr
    cases phase with
    | created =>
      cases cancelled
      exact inv.1.cancelled t _ at_ asked rfl
    | calling | finished outcome => cases cancelled

/-- **Cleanup is never forgotten.**  In every reachable state the room keeps what
it owes, and a `stop()` that returned normally left every room closed and
forgotten. -/
theorem cleanup_never_forgotten (reached : retention.Reachable w) :
    (∀ (i : Nat) (r : RetainedRoom), w.rooms[i]? = some r → w.CleanupKept i r) ∧
      (∀ k : Nat, w.stops[k]? = some (.ended .returned) →
        w.registry = [] ∧ ∀ r ∈ w.rooms, r.state = .closed) := by
  have sound := Sound.reachable reached
  refine ⟨fun i r found => sound.cleanupKept found, fun k stopped => ?_⟩
  have empty := (sound.stopped k stopped).1
  exact ⟨empty, sound.closed_of_empty empty⟩

/-- The final release and the dispose callback succeed under `stop()`. -/
def stoppedEvents : List RetentionEvent :=
  [.register "room", .room 0 (.use 1 false), .room 0 (.runTransition 0),
    .room 0 (.acquireReturned 0 .returned), .room 0 (.resumeUse 0 .ready),
    .room 0 (.bodyEnded 0 .returned), .stop 2, .runShutdown 0, .room 0 (.resumeDisposal 0),
    .room 0 (.runTransition 1), .room 0 (.releaseReturned 1 (.value .released)),
    .room 0 (.resumeDisposal 0), .room 0 (.disposeEnded 0 .returned), .runShutdown 0,
    .resumeStop 0 .ready]

def stoppedWorld : RoomRetention := (retention.run {} stoppedEvents).getD {}

theorem stoppedWorld_reachable : retention.Reachable stoppedWorld :=
  ⟨{}, ⟨none, 10, 0, 0, rfl⟩, stoppedEvents, rfl⟩

theorem cleanup_never_forgotten_stopped :
    stoppedWorld.stops[0]? = some (.ended .returned) ∧ stoppedWorld.registry = [] ∧
      ∀ r ∈ stoppedWorld.rooms, r.state = .closed :=
  ⟨rfl, (cleanup_never_forgotten stoppedWorld_reachable).2 0 rfl⟩

/-- What `wait_released()` would have to do for every pending cause: start the
release again. -/
def WaitAlwaysReleases : Prop :=
  ∀ (w : RoomRetention) (i : Nat) (r : RetainedRoom), retention.Reachable w →
    w.rooms[i]? = some r → r.state = .cleanupPending → r.inFlight = none → r.leases = 0 →
      r.isClosing w.view = false → ∀ caller, r.enrolls caller = false →
        ∀ r', r.step w.view (.waitReleased caller r.generation) = some r' →
          r'.transitions.length = r.transitions.length + 1

/-- An idle release failed: its cause pends and the room keeps its handle. -/
def idleFailedEvents : List RetentionEvent :=
  [.register "room", .room 0 (.use 1 false), .room 0 (.runTransition 0),
    .room 0 (.acquireReturned 0 .returned), .room 0 (.resumeUse 0 .ready),
    .room 0 (.bodyEnded 0 .returned), .room 0 (.observe .quiescent 1 ""), .timer,
    .room 0 (.runTransition 1), .room 0 (.releaseReturned 1 (.raised ⟨"OSError", "busy"⟩))]

def idleFailedWorld : RoomRetention :=
  (retention.run { idleTimeout := some 5 } idleFailedEvents).getD {}

def idleFailedRoom : RetainedRoom := (idleFailedWorld.rooms[0]?).getD { roomId := "" }

/-- After a failed idle release `wait_released()` refuses ("Residency has no
retirement request") and starts nothing. -/
theorem wait_released_refuses_idle : ¬ WaitAlwaysReleases := by
  intro always
  have reached : retention.Reachable idleFailedWorld :=
    ⟨{ idleTimeout := some 5 }, ⟨some 5, 10, 0, 0, rfl⟩, idleFailedEvents, rfl⟩
  have grown := always idleFailedWorld 0 idleFailedRoom reached rfl rfl rfl rfl rfl 9 rfl _ rfl
  exact absurd grown (by decide)

/-! ## Accounts, and after a stop -/

/-- **Accounts.**  The counters say what the suspended `use()` calls hold, and `drained` is set exactly
while no accepted operation is left. -/
theorem accounts_kept (reached : retention.Reachable w) (found : w.rooms[i]? = some r) :
    r.leases = r.uses.countP (·.phase.leased) ∧
      (∀ holder, r.holders.count holder = r.uses.countP fun use => use.phase.active && use.holder == holder) ∧
      (r.drained.value = true ↔ r.owned = [] ∧ ∀ use ∈ r.uses, use.phase.active = false) ∧
      ∀ task ∈ r.enrolled, task ∈ r.owned ∨ task ∈ r.finished := by
  obtain ⟨core, idle⟩ := ((Sound.reachable reached).room i r found).1
  refine ⟨core.leases_count, core.holders_count, idle.drained.trans (and_congr_right fun _ => ?_), core.enrolled⟩
  rw [eq_nil_iff_forall_not_mem]
  constructor
  · intro none_ use member
    by_contra active
    obtain ⟨u, at_⟩ := mem_iff_getElem?.1 member
    exact core.holders_ne_nil at_ (by simpa using active) (eq_nil_iff_forall_not_mem.2 none_)
  · intro ended holder member
    have counted := count_pos_iff.2 member
    rw [core.holders_count, countP_pos_iff] at counted
    obtain ⟨use, member, held⟩ := counted
    simp [ended use member] at held

theorem accounts_kept_acquiring : acquiringRoom.holders = [1] ∧
    acquiringRoom.leases = acquiringRoom.uses.countP (·.phase.leased) :=
  ⟨rfl, (accounts_kept acquiringWorld_reachable (i := 0) rfl).1⟩

/-- No room is registered, and none can be. -/
structure RoomRetention.Gone (w : RoomRetention) : Prop where
  sound : w.Sound
  stopping : w.stopping = true
  empty : w.registry = []

theorem RoomRetention.Gone.step {event : RetentionEvent} (gone : w.Gone) (stepped : w.step event = some w') :
    w'.Gone ∧ w'.rooms.length = w.rooms.length := by
  suffices same : w'.stopping = true ∧ w'.registry = [] ∧ w'.rooms.length = w.rooms.length from
    ⟨⟨(gone.sound.step stepped).1, same.1, same.2.1⟩, same.2.2⟩
  have stopping := gone.stopping
  have empty := gone.empty
  cases event with
  | room i event =>
    simp only [RoomRetention.step] at stepped
    split at stepped
    · cases stepped
    obtain ⟨r', -, rfl⟩ := map_eq_some_iff.1 stepped
    obtain ⟨timer, shape⟩ := putRoom_shape w i r'
    simp [shape, stopping, empty]
  | register roomId => cases stepped; simp [register, stopping, empty]
  | tick elapsed => cases stepped; exact ⟨stopping, empty, rfl⟩
  | timer =>
    simp only [RoomRetention.step] at stepped
    split at stepped
    · rename_i due armed
      cases stepped
      have tended := gone.sound.releaseDueRooms due
      exact ⟨tended.later stopping, tended.registry.trans empty, tended.length⟩
    · cases stepped
  | stop caller =>
    cases stepped
    obtain ⟨_, -, -, stopped, registry, rooms, -⟩ := stop_shape w caller
    exact ⟨stopped, registry.trans empty, by simp [rooms]⟩
  | runShutdown s =>
    simp only [RoomRetention.step, runShutdown, empty, foldl_nil] at stepped
    split at stepped
    · cases stepped
      exact ⟨stopping, empty, rfl⟩
    · split at stepped
      · cases stepped
        exact ⟨stopping, empty, rfl⟩
      · cases stepped
    · cases stepped
  | cancelShutdown s message =>
    simp only [RoomRetention.step, cancelShutdown] at stepped
    split at stepped <;> cases stepped <;> exact ⟨stopping, empty, rfl⟩
  | resumeStop k wake =>
    simp only [RoomRetention.step, resumeStop] at stepped
    split at stepped
    · split at stepped <;> cases stepped <;> exact ⟨stopping, empty, rfl⟩
    · cases stepped

/-- **Stopped for good.**  Once a `stop()` returned normally, no later step registers a room, and every
room stays closed with nothing accepted, no lease and no provider callback running. -/
theorem stopped_for_good (reached : retention.Reachable w) {k : Nat}
    (returned : w.stops[k]? = some (.ended .returned)) (later : retention.Reaches w w') :
    w'.rooms.length = w.rooms.length ∧ ∀ r ∈ w'.rooms,
      r.state = .closed ∧ r.callbacksRunning = 0 ∧ r.leases = 0 ∧ r.owned = [] ∧ r.holders = [] := by
  have sound := Sound.reachable reached
  have kept : w'.Gone ∧ w'.rooms.length = w.rooms.length := by
    refine later.invariant (P := fun u => u.Gone ∧ u.rooms.length = w.rooms.length)
      ⟨⟨sound, (sound.stopped k returned).2, (sound.stopped k returned).1⟩, rfl⟩ fun u event u' held stepped => ?_
    obtain ⟨gone, length⟩ := held.1.step stepped
    exact ⟨gone, length.trans held.2⟩
  refine ⟨kept.2, fun r member => ?_⟩
  have closed := kept.1.sound.closed_of_empty kept.1.empty r member
  obtain ⟨i, found⟩ := mem_iff_getElem?.1 member
  have core := (kept.1.sound.room i r found).1.1
  obtain ⟨-, ⟨unowned, unheld⟩, noLive, disposed⟩ := core.closed closed
  refine ⟨closed, ?_, core.leases_zero unheld, unowned, unheld⟩
  rw [callbacksRunning, Nat.add_eq_zero_iff, countP_eq_zero, countP_eq_zero]
  constructor
  · intro tr member calling
    obtain ⟨t, at_⟩ := mem_iff_getElem?.1 member
    have live := calling_live (of_decide_eq_true calling)
    rw [noLive.done at_] at live
    cases live
  · intro phase member disposing
    have done := disposed phase member
    rw [of_decide_eq_true disposing] at done
    cases done

theorem stopped_for_good_again : stoppedWorld.stops[0]? = some (.ended .returned) ∧
    ∀ r ∈ (stoppedWorld.stop 3).rooms, r.state = .closed :=
  ⟨rfl, fun r member => ((stopped_for_good stoppedWorld_reachable (k := 0) rfl
    (.step (e := .stop 3) rfl)).2 r member).1⟩

end BandSdk.Retention

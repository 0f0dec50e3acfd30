/-
# Retention.Invariant -- what every loop step of a room preserves

`Core` ties the mutable fields together: which transition task may be unfinished
and what the state is while it is, what each phase of the disposal task implies,
and that leases and holders count exactly the suspended `use()` calls.  `Idle`
is what `schedule` re-establishes: a deadline only on a quiet, admitting room.

`Grows` is the two-state half: tasks are only added, a pending cause only
strengthens, and an authority once lost stays lost.  Every method that does not
finish a transition task satisfies both (`Good`).
-/
import BandSdk.Retention.Calls
import BandSdk.Theory.Lists
import Mathlib.Data.List.Dedup
import Mathlib.Tactic.Common
import Mathlib.Order.Lattice

namespace BandSdk.Retention

open BandSdk.Theory List Option

def TransitionPhase.done : TransitionPhase → Bool
  | .finished _ => true
  | _ => false

namespace RetainedRoom

variable {o : OwnerView} {r : RetainedRoom}

/-- The kind and phase of every transition task. -/
def tasks (r : RetainedRoom) : List (TransitionKind × TransitionPhase) :=
  r.transitions.map fun tr => (tr.kind, tr.phase)

def NoLive (r : RetainedRoom) : Prop :=
  ∀ (t : Nat) (kind : TransitionKind) (phase : TransitionPhase),
    r.tasks[t]? = some (kind, phase) → phase.done = true

/-- No accepted operation remains. -/
def Quiet (r : RetainedRoom) : Prop := r.owned = [] ∧ r.holders = []

/-- What holds while a transition of this kind is unfinished. -/
def Running (r : RetainedRoom) : TransitionKind → Prop
  | .acquire => r.state = .acquiring
  | .release cause _ _ =>
    r.state = .suspending ∧ r.leases = 0 ∧ strength (some cause) ≤ strength r.cause ∧
      (cause = .final → r.Quiet ∧ r.closing = true)

/-- What holds at each phase of a disposal task. -/
def DisposalAt (r : RetainedRoom) : DisposalPhase → Prop
  | .created | .grace => True
  | .draining seen => r.drained.sets ≤ seen ∨ r.Quiet
  | .joining t | .releasing t => r.Quiet ∧ r.transition = some t
  | .disposing => r.Quiet ∧ r.state = .disposing ∧ r.NoLive
  | .finished outcome => outcome = .returned → r.state = .closed

/-- A caller that started an acquisition holds its lease, so the room stays on
the acquired side; only a closed start falls back to `suspended`. -/
def Held (o : OwnerView) (r : RetainedRoom) : Prop :=
  r.state = .acquiring ∨ r.state = .resident ∨ r.state = .cleanupPending ∨
    (r.state = .suspended ∧ r.isClosing o = true)

structure Core (o : OwnerView) (r : RetainedRoom) : Prop where
  live : ∀ (t : Nat) (kind : TransitionKind) (phase : TransitionPhase),
    r.tasks[t]? = some (kind, phase) → phase.done = false → r.transition = some t ∧ r.Running kind
  transition_lt : ∀ t, r.transition = some t → t < r.tasks.length
  disposal : ∀ (d : Nat) (phase : DisposalPhase), r.disposals[d]? = some phase →
    (phase.done = false → r.disposal = some d) ∧ r.DisposalAt phase
  disposal_closing : r.disposals ≠ [] → r.closing = true
  closing_final : r.closing = true ↔ r.cause = some .final
  resident_cause : r.state = .resident → r.cause = none ∨ r.closing = true
  suspended_cause : r.state = .suspended → r.cause = none ∨ r.isClosing o = true
  owed_cause : r.state = .cleanupPending ∨ r.state = .suspending → r.cause ≠ none
  closed : r.state = .closed → r.closing = true ∧ r.Quiet ∧ r.NoLive ∧ ∀ phase ∈ r.disposals, phase.done = true
  leases_count : r.leases = r.uses.countP (·.phase.leased)
  holders_count : ∀ holder, r.holders.count holder =
    r.uses.countP fun use => use.phase.active && use.holder == holder
  initiator : ∀ use ∈ r.uses, ∀ left t, use.phase = .residing left t true → r.Held o
  enrolled : ∀ task ∈ r.enrolled, task ∈ r.owned ∨ task ∈ r.finished
  generation_count : r.generation = r.tasks.countP fun task => task.1 = .acquire
  cancelled : ∀ (t : Nat) (tr : Transition), r.transitions[t]? = some tr → 0 < tr.cancels →
    tr.done = false → r.cause ≠ none

/-- What `schedule` re-establishes. -/
structure Idle (r : RetainedRoom) : Prop where
  deadline : r.deadline ≠ none → (r.state = .resident ∨ r.state = .cleanupPending) ∧ r.closing = false ∧ r.Quiet
  drained : r.drained.value = true ↔ r.Quiet

def Inv (o : OwnerView) (r : RetainedRoom) : Prop := r.Core o ∧ r.Idle

/-- The provider may be asked to acquire next. -/
def Vacant (r : RetainedRoom) : Prop :=
  r.state = .suspended ∨ ∃ t : Nat, r.tasks[t]? = some (.acquire, .created)

structure Grows (o : OwnerView) (r r' : RetainedRoom) : Prop where
  tasks : r.tasks <+: r'.tasks
  cause : strength r.cause ≤ strength r'.cause
  generation : r.generation ≤ r'.generation
  retired : ∀ g ≤ r.generation, r.hasAuthority o g = false → r'.hasAuthority o g = false
  closing : r.isClosing o = true → r'.isClosing o = true
  closed : r'.state = .closed ↔ r.state = .closed
  vacant : r'.Vacant → r.Vacant ∨ r'.isClosing o = true
  history : r'.history = r.history
  forgets : .forget ∈ r'.ownerCalls ↔ .forget ∈ r.ownerCalls

def Good (o : OwnerView) (r r' : RetainedRoom) : Prop := r'.Inv o ∧ r.Grows o r'

variable {r' : RetainedRoom} {phase : DisposalPhase} {cause : ReleaseCause}

/-- Fields no growth reads are free. -/
theorem Grows.frame (tasks : r'.tasks = r.tasks) (state : r'.state = r.state)
    (cause : r'.cause = r.cause) (generation : r'.generation = r.generation)
    (closing : r'.closing = r.closing) (history : r'.history = r.history)
    (calls : r'.ownerCalls = r.ownerCalls) : r.Grows o r' where
  tasks := tasks ▸ prefix_rfl
  cause := by rw [cause]
  generation := by rw [generation]
  retired g le lost := by
    simpa only [hasAuthority, isClosing, state, cause, generation, closing] using lost
  closing h := by simpa only [isClosing, closing] using h
  closed := by rw [state]
  vacant h := .inl (by simpa only [Vacant, state, tasks] using h)
  history := history
  forgets := by rw [calls]

theorem Grows.refl (o : OwnerView) (r : RetainedRoom) : r.Grows o r :=
  Grows.frame rfl rfl rfl rfl rfl rfl rfl

theorem Grows.trans {r₁ r₂ r₃ : RetainedRoom} (first : r₁.Grows o r₂) (second : r₂.Grows o r₃) :
    r₁.Grows o r₃ where
  tasks := first.tasks.trans second.tasks
  cause := first.cause.trans second.cause
  generation := first.generation.trans second.generation
  retired g le lost :=
    second.retired g (le.trans first.generation) (first.retired g le lost)
  closing := second.closing ∘ first.closing
  closed := second.closed.trans first.closed
  vacant h := (second.vacant h).elim (fun h => (first.vacant h).imp id second.closing) .inr
  history := second.history.trans first.history
  forgets := second.forgets.trans first.forgets

theorem Good.trans {r₁ r₂ r₃ : RetainedRoom} (first : r₁.Grows o r₂) (second : r₂.Good o r₃) :
    r₁.Good o r₃ := ⟨second.1, first.trans second.2⟩

/-! ## Reading the fields -/

theorem quiet_iff_accepted : r.accepted = 0 ↔ r.Quiet := by
  simp [accepted, Quiet, dedup_eq_nil]

theorem isClosing_of_closing (closing : r.closing = true) : r.isClosing o = true := by
  simp [isClosing, closing]

theorem closing_false_of_isClosing (open_ : r.isClosing o = false) : r.closing = false := by
  simp only [isClosing, Bool.or_eq_false_iff] at open_
  exact open_.1

theorem tasks_getElem? (t : Nat) : r.tasks[t]? = r.transitions[t]?.map fun tr => (tr.kind, tr.phase) := by
  simp [tasks]

theorem done_eq (tr : Transition) : tr.done = tr.phase.done := by
  cases tr with
  | mk kind phase cancels reported =>
    cases phase <;> rfl

theorem inFlight_eq_some {t : Nat} : r.inFlight = some t ↔
    r.transition = some t ∧ ∃ kind phase, r.tasks[t]? = some (kind, phase) ∧
      TransitionPhase.done phase = false := by
  unfold inFlight
  cases current : r.transition with
  | none => simp
  | some t' =>
    cases found : r.transitions[t']? with
    | none =>
      constructor
      · intro h; simp [found] at h
      rintro ⟨same, _, _, h, _⟩
      cases same
      simp [tasks_getElem?, found] at h
    | some tr =>
      cases pending : tr.phase.done with
      | true =>
        constructor
        · intro h; simp [found, done_eq, pending] at h
        rintro ⟨same, _, phase, h, live⟩
        cases same
        simp only [tasks_getElem?, found, map_some, some.injEq, Prod.mk.injEq] at h
        rw [← h.2, pending] at live
        cases live
      | false =>
        constructor
        · intro h
          have same : t' = t := by simpa [found, done_eq, pending] using h
          subst same
          exact ⟨rfl, tr.kind, tr.phase, by simp [tasks_getElem?, found], pending⟩
        · rintro ⟨same, _⟩
          simp [found, done_eq, pending, same]

/-- With the invariant, no current transition in flight means none at all. -/
theorem Core.noLive (core : r.Core o) (none_ : r.inFlight = none) : r.NoLive := by
  intro t kind phase found
  by_contra unfinished
  have pending : phase.done = false := by simpa using unfinished
  have current := (core.live t kind phase found pending).1
  have : r.inFlight = some t := inFlight_eq_some.2 ⟨current, kind, phase, found, pending⟩
  rw [none_] at this
  cases this

theorem NoLive.done (noLive : r.NoLive) {t : Nat} {tr : Transition}
    (found : r.transitions[t]? = some tr) : tr.done = true := by
  rw [done_eq]
  exact noLive t tr.kind tr.phase (by rw [tasks_getElem?, found]; rfl)

/-- Leases are held by callers that are still holders. -/
theorem Core.leases_zero (core : r.Core o) (quiet : r.holders = []) : r.leases = 0 := by
  rw [core.leases_count, countP_eq_zero]
  intro use member leased
  have count := core.holders_count use.holder
  rw [quiet, count_nil, eq_comm, countP_eq_zero] at count
  have := count use member
  cases phase : use.phase <;> simp_all [UsePhase.leased, UsePhase.active]

/-- A suspended `use()` call keeps the room from being quiet. -/
theorem Core.holders_ne_nil (core : r.Core o) {u : Nat} {use : Use}
    (found : r.uses[u]? = some use) (active : use.phase.active = true) : r.holders ≠ [] := by
  intro quiet
  have count := core.holders_count use.holder
  rw [quiet, count_nil, eq_comm, countP_eq_zero] at count
  have := count use (mem_of_getElem? found)
  simp [active] at this

theorem Idle.deadline_none (idle : r.Idle) (busy : r.holders ≠ []) : r.deadline = none := by
  by_contra armed
  exact busy (idle.deadline armed).2.2.2

/-! ## `schedule` -/

/-- Everything `schedule` can change, and when it leaves a deadline. -/
theorem schedule_shape (o : OwnerView) (r : RetainedRoom) (reset : Bool) :
    ∃ deadline callSoon callbacks settleable,
      r.schedule o reset = { r with
        deadline := deadline
        callSoon := callSoon
        releaseCallbacks := callbacks
        settleable := settleable
        drained := r.drained.hold (r.accepted == 0)
        ownerCalls := r.ownerCalls ++ [.reschedule] } ∧
      (deadline ≠ none → r.idleEligible o = true) := by
  unfold schedule rearmDeadline
  cases o.idleTimeout with
  | none => exact ⟨_, _, _, _, rfl, fun h => absurd rfl h⟩
  | some timeout =>
    by_cases eligible : r.idleEligible o = true
    · by_cases fresh : (reset || r.deadline == none) = true
      · simp only [eligible, if_true, fresh]
        exact ⟨_, _, _, _, rfl, fun _ => trivial⟩
      · simp only [eligible, if_true, fresh]
        exact ⟨_, _, _, _, rfl, fun _ => trivial⟩
    · simp only [eligible]
      exact ⟨_, _, _, _, rfl, fun h => absurd rfl h⟩

theorem idle_of_eligible (eligible : r.idleEligible o = true) :
    (r.state = .resident ∨ r.state = .cleanupPending) ∧ r.closing = false ∧ r.Quiet := by
  simp only [idleEligible, Bool.and_eq_true, beq_iff_eq, Bool.not_eq_true'] at eligible
  obtain ⟨⟨⟨⟨candidate, admitting⟩, -⟩, quiet⟩, -⟩ := eligible
  refine ⟨?_, closing_false_of_isClosing admitting, quiet_iff_accepted.1 quiet⟩
  unfold idleCandidate at candidate
  split at candidate <;> simp_all

theorem disposalAt_schedule (reset : Bool) (at_ : r.DisposalAt phase) :
    (r.schedule o reset).DisposalAt phase := by
  obtain ⟨deadline, callSoon, callbacks, settleable, eq, -⟩ := schedule_shape o r reset
  rw [eq]
  cases phase with
  | draining seen =>
    rcases at_ with le | quiet
    · by_cases quiet : r.accepted = 0
      · exact .inr (quiet_iff_accepted.1 quiet)
      have busy : (r.accepted == 0) = false := by simpa using quiet
      left
      show (r.drained.hold (r.accepted == 0)).sets ≤ seen
      rw [busy]
      exact le
    · exact .inr quiet
  | _ => exact at_

theorem Core.schedule (core : r.Core o) (reset : Bool) : (r.schedule o reset).Inv o := by
  obtain ⟨deadline, callSoon, callbacks, settleable, eq, armed⟩ := schedule_shape o r reset
  have phases := fun d phase found =>
    And.intro (core.disposal d phase found).1
      (disposalAt_schedule (o := o) reset (core.disposal d phase found).2)
  rw [eq] at phases ⊢
  refine ⟨{ core with disposal := phases }, ⟨fun h => idle_of_eligible (armed h), ?_⟩⟩
  simp only [Signal.hold_value, beq_iff_eq]
  exact quiet_iff_accepted

theorem Grows.schedule (o : OwnerView) (r : RetainedRoom) (reset : Bool) : r.Grows o (r.schedule o reset) := by
  obtain ⟨deadline, callSoon, callbacks, settleable, eq, -⟩ := schedule_shape o r reset
  rw [eq]
  refine { Grows.frame rfl rfl rfl rfl rfl rfl rfl with forgets := ?_ }
  simp

theorem Core.good_schedule (core : r.Core o) (reset : Bool) : r.Good o (r.schedule o reset) :=
  ⟨core.schedule reset, Grows.schedule o r reset⟩

/-! ## Starting a transition -/

/-- Nobody is waiting at a disposal phase that names a transition while
admission is open. -/
theorem Core.no_disposals (core : r.Core o) (open_ : r.closing = false) : r.disposals = [] := by
  by_contra some_
  rw [core.disposal_closing some_] at open_
  cases open_

/-- The disposal phases that name no transition and hold no state. -/
def DisposalPhase.early : DisposalPhase → Bool
  | .joining _ | .releasing _ | .disposing => false
  | _ => true

theorem Core.early_of_open (core : r.Core o) (open_ : r.closing = false) :
    ∀ phase ∈ r.disposals, DisposalPhase.early phase = true := by
  rw [core.no_disposals open_]
  intro phase member
  cases member

theorem Core.unleased (core : r.Core o) (none_ : r.leases = 0) : ∀ use ∈ r.uses, use.phase.leased = false := by
  have count := core.leases_count
  rw [none_, eq_comm, countP_eq_zero] at count
  intro use member
  simpa using count use member

/-- An early phase depends only on what accepted work remains and, once
finished, on the room being closed. -/
theorem DisposalAt.of_early (early : DisposalPhase.early phase = true) (at_ : r.DisposalAt phase)
    (sets : r'.drained.sets = r.drained.sets) (quiet : r.Quiet → r'.Quiet)
    (closed : r.state = .closed → r'.state = .closed) : r'.DisposalAt phase := by
  cases phase with
  | created | grace => trivial
  | draining seen => exact at_.imp (fun le => sets ▸ le) quiet
  | finished outcome => exact fun returned => closed (at_ returned)
  | _ => cases early

theorem startRelease_shape (r : RetainedRoom) (cause : ReleaseCause) (automatic : Bool) :
    ∃ flag, r.startRelease cause automatic = { r with
      recoverWhenUnleased := flag
      cause := some (strongerCause r.cause cause)
      state := .suspending
      deadline := none
      transitions := r.transitions ++ [{ kind := .release cause r.state automatic }]
      transition := some r.transitions.length } := by
  unfold startRelease request spawn
  by_cases recovery : cause = .recovery
  · exact ⟨false, by simp [recovery]⟩
  · exact ⟨r.recoverWhenUnleased, by simp [recovery]⟩

/-- A release starts only over an idle room: nothing live, no lease, and for a
final one no accepted work left. -/
theorem Core.startRelease (core : r.Core o) (quiet : r.NoLive) (unleased : r.leases = 0)
    (unclosed : r.state ≠ .closed) (final : cause = .final → r.Quiet ∧ r.closing = true)
    (early : ∀ phase ∈ r.disposals, DisposalPhase.early phase = true) (automatic : Bool) :
    (r.startRelease cause automatic).Core o := by
  obtain ⟨flag, eq⟩ := startRelease_shape r cause automatic
  have tasks_eq : (r.startRelease cause automatic).tasks =
      r.tasks ++ [(.release cause r.state automatic, .created)] := by
    rw [eq]; simp [tasks]
  have length_eq : r.transitions.length = r.tasks.length := by simp [tasks]
  rw [eq] at tasks_eq ⊢
  refine { core with
    live := ?_, transition_lt := ?_, disposal := ?_, closing_final := ?_, resident_cause := ?_,
    suspended_cause := ?_, owed_cause := ?_, closed := ?_, initiator := ?_,
    generation_count := ?_, cancelled := fun _ _ _ _ _ => some_ne_none _ }
  · intro t kind phase found pending
    rw [tasks_eq] at found
    rcases getElem?_append_singleton found with old | ⟨rfl, new⟩
    · rw [quiet t kind phase old] at pending
      cases pending
    · cases new
      refine ⟨by rw [length_eq], rfl, unleased, ?_, final⟩
      rw [strength_stronger]
      exact le_max_right _ _
  · intro t current
    rw [tasks_eq]
    cases current
    simp [tasks]
  · intro d phase found
    have old := core.disposal d phase found
    exact ⟨old.1, DisposalAt.of_early (early phase (mem_of_getElem? found)) old.2 rfl id
      fun closed => absurd closed unclosed⟩
  · show r.closing = true ↔ some (strongerCause r.cause cause) = some .final
    rw [some.injEq, strongerCause_eq_final, ← core.closing_final]
    exact ⟨.inl, fun h => h.elim id fun f => (final f).2⟩
  · intro impossible; cases impossible
  · intro impossible; cases impossible
  · exact fun _ => some_ne_none _
  · intro impossible; cases impossible
  · intro use member left t residing
    have := core.unleased unleased use member
    rw [residing] at this
    cases this
  · show r.generation = _
    rw [tasks_eq, core.generation_count]
    simp

theorem Grows.startRelease (authority : r.state = .suspended → r.isClosing o = true)
    (unclosed : r.state ≠ .closed) (cause : ReleaseCause) (automatic : Bool) :
    r.Grows o (r.startRelease cause automatic) := by
  obtain ⟨flag, eq⟩ := startRelease_shape r cause automatic
  rw [eq]
  have stronger : strength r.cause ≤ strength (some (strongerCause r.cause cause)) := by
    rw [strength_stronger]
    exact le_max_left _ _
  refine ⟨by simp [RetainedRoom.tasks], stronger, le_rfl, ?_, id, ?_, ?_, rfl, Iff.rfl⟩
  · intro g le lost
    by_cases closing : r.isClosing o = true
    · have : (r.closing || o.stopping) = true := closing
      simp [hasAuthority, isClosing, this]
    · have suspended : r.state ≠ .suspended := fun h => closing (authority h)
      have admitting : (r.closing || o.stopping) = false := Bool.not_eq_true _ ▸ closing
      cases current : r.cause with
      | none => simp_all [hasAuthority, isClosing]
      | some pending => cases pending <;> cases cause <;>
          simp_all [hasAuthority, isClosing, strongerCause, ReleaseCause.precedence]
  · exact ⟨by simp, fun h => absurd h unclosed⟩
  rintro (impossible | ⟨t, found⟩)
  · cases impossible
  have found : (r.tasks ++ [(.release cause r.state automatic, .created)])[t]? =
      some (.acquire, .created) := by
    simpa [RetainedRoom.tasks] using found
  rcases getElem?_append_singleton found with old | ⟨-, new⟩
  · exact .inl (.inr ⟨t, old⟩)
  · cases new

theorem Inv.startRelease (inv : r.Inv o) (quiet : r.NoLive) (unleased : r.leases = 0)
    (unclosed : r.state ≠ .closed) (authority : r.state = .suspended → r.isClosing o = true) (final : cause = .final → r.Quiet ∧ r.closing = true)
    (early : ∀ phase ∈ r.disposals, DisposalPhase.early phase = true) (automatic : Bool) :
    r.Good o (r.startRelease cause automatic) := by
  refine ⟨⟨inv.1.startRelease quiet unleased unclosed final early automatic, ?_⟩,
    Grows.startRelease authority unclosed cause automatic⟩
  obtain ⟨flag, eq⟩ := startRelease_shape r cause automatic
  rw [eq]
  exact ⟨fun armed => absurd rfl armed, inv.2.drained⟩

/-- A caller without a lease starts the pending release: it is not final while
admission is open. -/
theorem Inv.startPending (inv : r.Inv o) (open_ : r.isClosing o = false)
    (flight : r.inFlight = none) (unleased : r.leases = 0) (caused : r.cause = some cause) : r.Good o (r.startRelease cause false) := by
  have unclosing := closing_false_of_isClosing open_
  refine inv.startRelease (inv.1.noLive flight) unleased ?_ ?_ ?_
    (inv.1.early_of_open unclosing) false
  · intro closed
    rw [(inv.1.closed closed).1] at unclosing
    cases unclosing
  · intro suspended
    rcases inv.1.suspended_cause suspended with h | h
    · rw [caused] at h; cases h
    · exact h
  · rintro rfl
    rw [inv.1.closing_final.2 caused] at unclosing
    cases unclosing

theorem Inv.startAcquire (inv : r.Inv o) (quiet : r.NoLive) (suspended : r.state = .suspended)
    (open_ : r.isClosing o = false) (busy : r.holders ≠ []) : r.Good o r.startAcquire := by
  obtain ⟨core, idle⟩ := inv
  have unclosing := closing_false_of_isClosing open_
  have tasks_eq : r.startAcquire.tasks = r.tasks ++ [(.acquire, .created)] := by
    simp [tasks, RetainedRoom.startAcquire, spawn]
  have length_eq : r.transitions.length = r.tasks.length := by simp [tasks]
  refine ⟨⟨{ core with
    live := ?_, transition_lt := ?_, disposal := ?_, resident_cause := ?_,
    suspended_cause := ?_, owed_cause := ?_, closed := ?_, initiator := ?_,
    generation_count := ?_, cancelled := ?_ }, ?_⟩, ?_⟩
  · intro t kind phase found pending
    rw [tasks_eq] at found
    rcases getElem?_append_singleton found with old | ⟨rfl, new⟩
    · rw [quiet t kind phase old] at pending
      cases pending
    · cases new
      exact ⟨congrArg some length_eq, rfl⟩
  · intro t current
    rw [tasks_eq]
    cases current
    simp [tasks]
  · intro d phase found
    have none_ : r.startAcquire.disposals = [] := core.no_disposals unclosing
    rw [none_] at found
    cases found
  · intro impossible; cases impossible
  · intro impossible; cases impossible
  · rintro (impossible | impossible) <;> cases impossible
  · intro impossible; cases impossible
  · intro use member left t residing
    exact .inl rfl
  · show r.generation + 1 = _
    rw [tasks_eq, core.generation_count]
    simp
  · intro t tr found asked pending
    rcases getElem?_append_singleton found with old | ⟨-, rfl⟩
    · rw [quiet.done old] at pending
      cases pending
    · cases asked
  · exact ⟨fun armed => absurd (idle.deadline_none busy) armed, idle.drained⟩
  refine ⟨by rw [tasks_eq]; exact prefix_append _ _, le_rfl, Nat.le_succ _, ?_, id,
    ⟨nofun, fun h => absurd (suspended.symm.trans h) nofun⟩, ?_, rfl, Iff.rfl⟩
  · intro g le lost
    have newer : (g == r.generation + 1) = false := by simpa using by omega
    simp [hasAuthority, RetainedRoom.startAcquire, spawn, newer]
  · exact fun _ => .inl (.inl suspended)

theorem Inv.startRequestedRecovery (inv : r.Inv o) : r.Good o r.startRequestedRecovery := by
  unfold RetainedRoom.startRequestedRecovery
  split
  · rename_i guard
    obtain ⟨-, caused, pending, unleased, open_, none_⟩ := guard
    refine inv.startRelease (inv.1.noLive none_) unleased ?_ ?_ ?_ (inv.1.early_of_open open_) false
    · rw [pending]; exact fun h => by cases h
    · rw [pending]; exact fun h => by cases h
    · exact fun h => by cases h
  · exact ⟨inv, Grows.refl o r⟩

/-- Frame for the phases of a disposal: they read only accepted work, the
current transition, the tasks, the state and the drain count. -/
theorem DisposalAt.mono (at_ : r.DisposalAt phase) (sets : r'.drained = r.drained) (quiet : r.Quiet → r'.Quiet)
    (current : r'.transition = r.transition) (state : r'.state = r.state)
    (tasks_eq : r'.tasks = r.tasks) : r'.DisposalAt phase := by
  cases phase with
  | created | grace => trivial
  | draining seen => exact at_.imp (fun le => sets ▸ le) quiet
  | joining t | releasing t => exact ⟨quiet at_.1, current ▸ at_.2⟩
  | disposing =>
    refine ⟨quiet at_.1, state ▸ at_.2.1, ?_⟩
    unfold NoLive
    rw [tasks_eq]
    exact at_.2.2
  | finished outcome => exact fun returned => state ▸ at_ returned

/-! ## Callers -/

theorem abandon_shape (r : RetainedRoom) : r.abandon = { r with
    cause := some (strongerCause r.cause .recovery)
    recoverWhenUnleased := true
    state := if r.state = .resident then .cleanupPending else r.state } := by
  by_cases resident : r.state = .resident <;> simp [RetainedRoom.abandon, request, resident]

/-- A state change away from `resident` under a recovery request: what
`abandon` and `recover` share. -/
theorem Core.retire (core : r.Core o)
    (held : r.state = .suspended → r.isClosing o = true) (eq : r' = { r with
      cause := some (strongerCause r.cause .recovery)
      state := if r.state = .resident then .cleanupPending else r.state }) : r'.Core o := by
  have request_final : r.closing = true ↔ some (strongerCause r.cause .recovery) = some .final := by
    rw [some.injEq, strongerCause_eq_final, ← core.closing_final]
    simp
  have stronger : strength r.cause ≤ strength (some (strongerCause r.cause .recovery)) := by
    rw [strength_stronger]; exact le_max_left _ _
  by_cases resident : r.state = .resident
  · rw [if_pos resident] at eq
    subst eq
    refine { core with
      live := ?_, disposal := ?_, closing_final := request_final, resident_cause := ?_,
      suspended_cause := ?_, owed_cause := ?_, closed := ?_, initiator := ?_,
      cancelled := fun _ _ _ _ _ => some_ne_none _ }
    · intro t kind phase found pending
      have := (core.live t kind phase found pending).2
      cases kind with
      | acquire => rw [Running, resident] at this; cases this
      | release cause previous automatic => rw [Running, resident] at this; cases this.1
    · intro d phase found
      have old := core.disposal d phase found
      refine ⟨old.1, ?_⟩
      have at_ := old.2
      cases phase with
      | disposing => rw [DisposalAt, resident] at at_; cases at_.2.1
      | finished outcome =>
        intro returned
        have := at_ returned
        rw [resident] at this
        cases this
      | _ => exact at_
    · intro impossible; cases impossible
    · intro impossible; cases impossible
    · exact fun _ => some_ne_none _
    · intro impossible; cases impossible
    · intro use member left t residing
      exact .inr (.inr (.inl rfl))
  · rw [if_neg resident] at eq
    subst eq
    refine { core with
      live := ?_, closing_final := request_final, resident_cause := ?_, suspended_cause := ?_,
      owed_cause := ?_, cancelled := fun _ _ _ _ _ => some_ne_none _ }
    · intro t kind phase found pending
      have old := core.live t kind phase found pending
      refine ⟨old.1, ?_⟩
      cases kind with
      | acquire => exact old.2
      | release cause previous automatic =>
        exact ⟨old.2.1, old.2.2.1, old.2.2.2.1.trans stronger, old.2.2.2.2⟩
    · exact fun h => absurd h resident
    · exact fun h => .inr (held h)
    · exact fun _ => some_ne_none _

/-- Nothing has authority once recovery is requested. -/
theorem hasAuthority_of_recovery (g : Nat) {cause : Option ReleaseCause}
    (caused : r.cause = some (strongerCause cause .recovery)) : r.hasAuthority o g = false := by
  have : (r.cause == none || r.cause == some .idle) = false := by
    rw [caused]
    cases cause with
    | none => rfl
    | some cause => cases cause <;> rfl
  unfold hasAuthority
  rw [this]
  simp

theorem Grows.retire (tasks : r'.tasks = r.tasks)
    (state : r'.state = if r.state = .resident then .cleanupPending else r.state)
    (cause : r'.cause = some (strongerCause r.cause .recovery))
    (generation : r'.generation = r.generation) (closing : r'.closing = r.closing)
    (history : r'.history = r.history) (calls : r'.ownerCalls = r.ownerCalls) :
    r.Grows o r' where
  tasks := tasks ▸ prefix_rfl
  cause := by
    rw [cause, strength_stronger]
    exact le_max_left _ _
  generation := by rw [generation]
  retired g _ _ := hasAuthority_of_recovery g cause
  closing h := by simpa only [isClosing, closing] using h
  closed := by
    rw [state]
    split
    · rename_i resident; rw [resident]; exact ⟨nofun, nofun⟩
    · rfl
  vacant h := by
    refine .inl (h.imp (fun suspended => ?_) fun ⟨t, found⟩ => ⟨t, by rwa [tasks] at found⟩)
    rw [state] at suspended
    split at suspended
    · cases suspended
    · exact suspended
  history := history
  forgets := by rw [calls]

theorem Held.suspended (held : r.Held o) (suspended : r.state = .suspended) : r.isClosing o = true := by
  rcases held with h | h | h | h
  · rw [suspended] at h; cases h
  · rw [suspended] at h; cases h
  · rw [suspended] at h; cases h
  · exact h.2

theorem Inv.abandon (inv : r.Inv o) (held : r.Held o) (busy : r.holders ≠ []) : r.Good o r.abandon := by
  have core := inv.1.retire held.suspended rfl
  rw [abandon_shape]
  exact ⟨⟨{ core with }, fun armed => absurd (inv.2.deadline_none busy) armed, inv.2.drained⟩,
    Grows.retire rfl rfl rfl rfl rfl rfl rfl⟩

/-- Marking a task, as asked to cancel or as reported, changes nothing else; a
cancellation is only asked for while a release pends. -/
theorem Inv.transitions_eq (inv : r.Inv o) (transitions : List Transition)
    (same : transitions.map (fun tr => (tr.kind, tr.phase)) = r.tasks)
    (asked : ∀ (t : Nat) (tr : Transition), transitions[t]? = some tr → 0 < tr.cancels →
      tr.done = false → r.cause ≠ none) (acquisition : Option Nat) :
    r.Good o { r with transitions := transitions, cancelledAcquisition := acquisition } := by
  have tasks_eq : ({ r with
      transitions := transitions, cancelledAcquisition := acquisition } : RetainedRoom).tasks =
      r.tasks := same
  obtain ⟨core, idle⟩ := inv
  refine ⟨⟨{ core with
    live := ?_, transition_lt := ?_, disposal := ?_, closed := ?_, generation_count := ?_,
    cancelled := asked }, idle.1, idle.2⟩, ?_⟩
  · rw [tasks_eq]; exact core.live
  · rw [tasks_eq]; exact core.transition_lt
  · intro d phase found
    have old := core.disposal d phase found
    exact ⟨old.1, old.2.mono rfl id rfl rfl tasks_eq⟩
  · intro closed
    obtain ⟨closing, quiet, noLive, done⟩ := core.closed closed
    refine ⟨closing, quiet, ?_, done⟩
    unfold NoLive
    rw [tasks_eq]
    exact noLive
  · rw [tasks_eq]; exact core.generation_count
  · exact Grows.frame tasks_eq rfl rfl rfl rfl rfl rfl

theorem Inv.cancelAcquisition (inv : r.Inv o) (caused : r.cause ≠ none) (t : Nat) :
    r.Good o (r.cancelAcquisition t) := by
  unfold RetainedRoom.cancelAcquisition
  split
  · exact ⟨inv, Grows.refl o r⟩
  · refine inv.transitions_eq _ ?_ (fun _ _ _ _ _ => caused) _
    exact map_modify_of_eq fun _ => rfl

theorem Inv.abandonAcquisition (inv : r.Inv o) (held : r.Held o) (busy : r.holders ≠ []) (t : Nat) :
    r.Good o (r.abandonAcquisition t) := by
  have abandoned := inv.abandon held busy
  simp only [RetainedRoom.abandonAcquisition]
  split
  · rename_i acquiring
    refine Good.trans abandoned.2 (abandoned.1.cancelAcquisition ?_ t)
    rw [acquiring.2]
    exact some_ne_none _
  · exact abandoned

end RetainedRoom

end BandSdk.Retention

/-
# Retention.Strides -- what a loop step leaves of the flag, the deadline and the reports

`Keeps` is what every operation but a transition's last segment does to the
continuation: it neither touches the flag nor makes the room resident, asks for
no idle release and records none.  `Timed` says when a room has a deadline, and
`Told` that the last thing its owner heard of it is the deadline it has.  `Stride`
is all three; this module proves it of the operations, by the order in which
`Retention.Callers` and `Retention.Steps` compose them.
-/
import BandSdk.Retention.Runs

namespace BandSdk.Retention

open BandSdk.Theory Option RetainedRoom

/-- Whether a callback belongs to a transition, not to disposal. -/
def ProviderEvent.ofTransition : ProviderEvent → Bool
  | .dispose | .disposed | .disposeFailed => false
  | _ => true

def ReleaseWaitPhase.over_ : ReleaseWaitPhase → Bool
  | .ended _ => true
  | _ => false

namespace RetainedRoom

variable {o : OwnerView} {r r₁ r' : RetainedRoom}

/-! ## The continuation -/

structure Continues (r r' : RetainedRoom) : Prop where
  resume : r'.resume = r.resume
  resident : r'.state = .resident → r.state = .resident
  idle : r'.cause = some .idle → r.cause = some .idle
  closing : r.closing = true → r'.closing = true
  running : ∀ (t : Nat) (previous : Residency) (automatic : Bool) (phase : TransitionPhase),
    r'.tasks[t]? = some (.release .idle previous automatic, phase) → phase.done = false →
      (∃ phase, r.tasks[t]? = some (.release .idle previous automatic, phase) ∧
        TransitionPhase.done phase = false) ∨ r.cause = some .idle

/-- `Continues`, with the transitions' callbacks and the waits that are not over. -/
structure Keeps (r r' : RetainedRoom) : Prop extends r.Continues r' where
  record : r'.history.filter ProviderEvent.ofTransition = r.history.filter ProviderEvent.ofTransition
  waits : ∀ wait ∈ r'.releaseWaits, wait.phase.over_ = false →
    ∃ old ∈ r.releaseWaits, old.generation = wait.generation ∧ old.phase.over_ = false

section

variable (resume : r'.resume = r.resume) (state : r'.state = r.state) (cause : r'.cause = r.cause)
  (closing : r'.closing = r.closing) (tasks : r'.tasks = r.tasks)
include resume state cause closing tasks

/-- Fields the continuation does not read are free. -/
theorem Continues.frame : r.Continues r' where
  resume := resume
  resident h := state ▸ h
  idle h := cause ▸ h
  closing h := closing.trans h
  running _ _ _ phase found pending := .inl ⟨phase, tasks ▸ found, pending⟩

theorem Keeps.frame (history : r'.history = r.history) (waits : r'.releaseWaits = r.releaseWaits) : r.Keeps r' where
  toContinues := Continues.frame resume state cause closing tasks
  record := by rw [history]
  waits wait member live := ⟨wait, waits ▸ member, rfl, live⟩

end

open Keeps

theorem Keeps.refl (r : RetainedRoom) : r.Keeps r := frame rfl rfl rfl rfl rfl rfl rfl

variable {r₂ r₃ : RetainedRoom} {cause : ReleaseCause} {u : Nat}

theorem Continues.trans (first : r₁.Continues r₂) (second : r₂.Continues r₃) : r₁.Continues r₃ where
  resume := second.resume.trans first.resume
  resident := first.resident ∘ second.resident
  idle := first.idle ∘ second.idle
  closing := second.closing ∘ first.closing
  running t previous automatic phase found pending := by
    rcases second.running t previous automatic phase found pending with ⟨phase, found, live⟩ | caused
    · exact first.running t previous automatic phase found live
    · exact .inr (first.idle caused)

theorem Keeps.trans (first : r₁.Keeps r₂) (second : r₂.Keeps r₃) : r₁.Keeps r₃ where
  toContinues := first.toContinues.trans second.toContinues
  record := second.record.trans first.record
  waits wait member live := by
    obtain ⟨old, member, same, live⟩ := second.waits wait member live
    obtain ⟨older, member, same', live⟩ := first.waits old member live
    exact ⟨older, member, same'.trans same, live⟩

theorem Keeps.schedule (o : OwnerView) (r : RetainedRoom) (reset : Bool) : r.Keeps (r.schedule o reset) := by
  obtain ⟨deadline, callSoon, callbacks, settleable, eq, -⟩ := schedule_shape o r reset
  rw [eq]
  exact frame rfl rfl rfl rfl rfl rfl rfl

theorem Keeps.startRelease (caused : r.cause = some cause ∨ cause ≠ .idle) (automatic : Bool) :
    r.Keeps (r.startRelease cause automatic) := by
  obtain ⟨flag, eq⟩ := startRelease_shape r cause automatic
  have pending : strongerCause r.cause cause = .idle → r.cause = some .idle := by
    intro weak
    rcases caused with same | strong
    · rw [same, strongerCause_self] at weak
      rw [same, weak]
    · have le := le_max_right (strength r.cause) (strength (some cause))
      rw [← strength_stronger, weak] at le
      cases cause with
      | idle => exact absurd rfl strong
      | recovery | final => exact absurd le (by decide)
  rw [eq]
  refine ⟨⟨rfl, nofun, fun h => pending (some.inj h), id, ?_⟩, rfl,
    fun wait member live => ⟨wait, member, rfl, live⟩⟩
  intro t previous again phase found live
  have found : (r.tasks ++ [(.release cause r.state automatic, .created)])[t]? =
      some (.release .idle previous again, phase) := by
    simpa [tasks] using found
  rcases getElem?_append_singleton found with old | ⟨-, new⟩
  · exact .inl ⟨phase, old, live⟩
  · cases new
    exact .inr (caused.resolve_right fun strong => strong rfl)

theorem Keeps.startAcquire (r : RetainedRoom) : r.Keeps r.startAcquire := by
  refine ⟨⟨rfl, nofun, id, id, ?_⟩, rfl, fun wait member live => ⟨wait, member, rfl, live⟩⟩
  intro t previous automatic phase found live
  have found : (r.tasks ++ [(.acquire, .created)])[t]? = some (.release .idle previous automatic, phase) := by
    simpa [RetainedRoom.tasks, RetainedRoom.startAcquire, spawn] using found
  rcases getElem?_append_singleton found with old | ⟨-, new⟩
  · exact .inl ⟨phase, old, live⟩
  · cases new

/-- A recovery request over the room, wherever it leaves the state. -/
theorem Keeps.retire (resume : r'.resume = r.resume)
    (state : r'.state = if r.state = .resident then .cleanupPending else r.state)
    (cause : r'.cause = some (strongerCause r.cause .recovery)) (closing : r'.closing = r.closing)
    (tasks : r'.tasks = r.tasks) (history : r'.history = r.history)
    (waits : r'.releaseWaits = r.releaseWaits) : r.Keeps r' where
  resume := resume
  resident h := by
    rw [state] at h
    split at h
    · cases h
    · exact h
  idle h := by
    have weak : strongerCause r.cause .recovery = .idle := by
      rw [cause] at h
      exact some.inj h
    have le := le_max_right (strength r.cause) (strength (some .recovery))
    rw [← strength_stronger, weak] at le
    exact absurd le (by decide)
  closing h := closing.trans h
  running t previous automatic phase found pending := .inl ⟨phase, tasks ▸ found, pending⟩
  record := by rw [history]
  waits wait member live := ⟨wait, waits ▸ member, rfl, live⟩

theorem Keeps.cancelAcquisition (r : RetainedRoom) (t : Nat) : r.Keeps (r.cancelAcquisition t) := by
  have tasks : (r.cancelAcquisition t).tasks = r.tasks := tasks_cancelAcquisition t
  obtain ⟨transitions, acquisition, shape⟩ := cancelAcquisition_shape r t
  rw [shape] at tasks ⊢
  exact frame rfl rfl rfl rfl tasks rfl rfl

theorem Keeps.abandonAcquisition (r : RetainedRoom) (t : Nat) : r.Keeps (r.abandonAcquisition t) := by
  have abandoned : r.Keeps r.abandon := by
    rw [abandon_shape]
    exact retire rfl rfl rfl rfl rfl rfl rfl
  simp only [RetainedRoom.abandonAcquisition]
  split
  · exact abandoned.trans (cancelAcquisition _ t)
  · exact abandoned

/-! ## The deadline -/

/-- An idle candidate with nothing accepted and nothing leased over a quiescent
provider; admission counts the room's own, not its owner's. -/
def rests (r : RetainedRoom) : Bool :=
  r.idleCandidate && !r.closing && r.leases == 0 && r.accepted == 0 && r.activity == .quiescent

theorem idleEligible_eq (o : OwnerView) (r : RetainedRoom) : r.idleEligible o = (r.rests && !o.stopping) := by
  unfold idleEligible rests isClosing
  cases r.idleCandidate <;> cases r.closing <;> cases o.stopping <;> simp

structure Timed (o : OwnerView) (r : RetainedRoom) : Prop where
  armed : r.deadline ≠ none → r.rests = true
  due : o.idleTimeout ≠ none → r.idleEligible o = true → r.deadline ≠ none

/-- Since the last `schedule`, which reports the deadline it leaves, neither the
deadline nor the reports changed. -/
def Told (o : OwnerView) (r r' : RetainedRoom) : Prop :=
  (r'.deadline = r.deadline ∧ r'.ownerCalls = r.ownerCalls) ∨
    ∃ (r₁ : RetainedRoom) (reset : Bool), r'.deadline = (r₁.schedule o reset).deadline ∧
      r'.ownerCalls = (r₁.schedule o reset).ownerCalls

structure Stride (o : OwnerView) (r r' : RetainedRoom) : Prop where
  keeps : r.Keeps r'
  timed : r'.Timed o
  told : r.Told o r'

theorem Told.trans (first : r₁.Told o r₂) (second : r₂.Told o r₃) : r₁.Told o r₃ := by
  rcases second with ⟨deadline, calls⟩ | scheduled
  · rcases first with ⟨deadline', calls'⟩ | ⟨r₀, reset, deadline', calls'⟩
    · exact .inl ⟨deadline.trans deadline', calls.trans calls'⟩
    · exact .inr ⟨r₀, reset, deadline.trans deadline', calls.trans calls'⟩
  · exact .inr scheduled

theorem Told.still (deadline : r'.deadline = r.deadline) (calls : r'.ownerCalls = r.ownerCalls) :
    r.Told o r' := .inl ⟨deadline, calls⟩

theorem Stride.refl (timed : r.Timed o) : r.Stride o r :=
  ⟨Keeps.refl r, timed, Told.still rfl rfl⟩

theorem Stride.trans (first : r₁.Stride o r₂) (second : r₂.Stride o r₃) :
    r₁.Stride o r₃ :=
  ⟨first.keeps.trans second.keeps, second.timed, first.told.trans second.told⟩

theorem Timed.schedule (o : OwnerView) (r : RetainedRoom) (reset : Bool) : (r.schedule o reset).Timed o := by
  obtain ⟨deadline, callSoon, callbacks, settleable, eq, armed⟩ := schedule_shape o r reset
  have same : (r.schedule o reset).idleEligible o = r.idleEligible o := by rw [eq]; rfl
  have rests : (r.schedule o reset).rests = r.rests := by rw [eq]; rfl
  refine ⟨fun some_ => ?_, fun configured eligible => ?_⟩
  · rw [eq] at some_
    have eligible := armed some_
    rw [idleEligible_eq, Bool.and_eq_true] at eligible
    exact rests.trans eligible.1
  · rw [same] at eligible
    unfold RetainedRoom.schedule rearmDeadline notify
    obtain ⟨timeout, set_⟩ := Option.ne_none_iff_exists'.1 configured
    rw [set_]
    dsimp only
    rw [if_pos eligible]
    split
    · exact some_ne_none _
    rename_i kept
    simp only [Bool.or_eq_true, beq_iff_eq, not_or] at kept
    exact kept.2

theorem Told.schedule (o : OwnerView) (r r₁ : RetainedRoom) (reset : Bool) :
    r.Told o (r₁.schedule o reset) := .inr ⟨r₁, reset, rfl, rfl⟩

/-- Whatever was written, scheduling after it settles the deadline. -/
theorem Keeps.scheduled (keeps : r.Keeps r₁) (o : OwnerView) (reset : Bool) :
    r.Stride o (r₁.schedule o reset) :=
  ⟨keeps.trans (schedule o r₁ reset), Timed.schedule o r₁ reset, Told.schedule o r r₁ reset⟩

theorem Timed.frame (timed : r.Timed o) (deadline : r'.deadline = r.deadline)
    (state : r'.state = r.state) (cause : r'.cause = r.cause) (closing : r'.closing = r.closing)
    (leases : r'.leases = r.leases) (owned : r'.owned = r.owned) (holders : r'.holders = r.holders)
    (activity : r'.activity = r.activity) : r'.Timed o := by
  have rests : r'.rests = r.rests := by
    simp only [rests, idleCandidate, accepted, state, cause, closing, leases, owned, holders, activity]
  refine ⟨fun armed => ?_, fun configured eligible => ?_⟩
  · rw [rests]
    exact timed.armed (deadline ▸ armed)
  · rw [idleEligible_eq, rests, ← idleEligible_eq] at eligible
    rw [deadline]
    exact timed.due configured eligible

/-- A room with no deadline that rests no more. -/
theorem Timed.restless (disarmed : r.deadline = none) (restless : r.rests = false) : r.Timed o := by
  refine ⟨fun armed => absurd disarmed armed, fun _ eligible => ?_⟩
  rw [idleEligible_eq, restless] at eligible
  cases eligible

theorem Timed.disarmed (timed : r.Timed o) (restless : r.rests = false) : r.deadline = none := by
  by_contra armed
  rw [timed.armed armed] at restless
  cases restless

theorem rests_of_holders (busy : r.holders ≠ []) : r.rests = false := by
  have accepted : (r.accepted == 0) = false := by
    rw [beq_eq_false_iff_ne]
    exact fun none_ => busy (quiet_iff_accepted.1 none_).2
  simp [rests, accepted]

theorem rests_of_closing (closing : r.closing = true) : r.rests = false := by
  simp [rests, closing]

theorem rests_of_state (resident : r.state ≠ .resident) (pending : r.state ≠ .cleanupPending) :
    r.rests = false := by
  have candidate : r.idleCandidate = false := by
    unfold idleCandidate
    split <;> simp_all
  simp [rests, candidate]

theorem rests_of_cause (caused : r.cause = some cause) (strong : cause ≠ .idle) : r.rests = false := by
  have candidate : r.idleCandidate = false := by
    unfold idleCandidate
    split <;> simp_all
  simp [rests, candidate]

/-! ## Starting transitions -/

theorem Stride.startRelease (disarmed : r.deadline = none) (caused : r.cause = some cause ∨ cause ≠ .idle)
    (automatic : Bool) :
    r.Stride o (r.startRelease cause automatic) := by
  have keeps := Keeps.startRelease caused automatic
  obtain ⟨flag, eq⟩ := startRelease_shape r cause automatic
  rw [eq] at keeps ⊢
  exact ⟨keeps, Timed.restless rfl (rests_of_state nofun nofun), Told.still disarmed.symm rfl⟩

section

variable (timed : r.Timed o)
include timed

theorem Stride.startAcquire (suspended : r.state = .suspended) : r.Stride o r.startAcquire := by
  have disarmed : r.deadline = none := by
    refine timed.disarmed (rests_of_state ?_ ?_) <;> rw [suspended] <;> exact nofun
  exact ⟨Keeps.startAcquire r, Timed.restless disarmed (rests_of_state nofun nofun), Told.still rfl rfl⟩

open Stride

theorem Stride.startRequestedRecovery : r.Stride o r.startRequestedRecovery := by
  unfold RetainedRoom.startRequestedRecovery
  split
  · rename_i guard
    have disarmed := timed.disarmed (rests_of_cause guard.2.1 nofun)
    exact startRelease disarmed (.inr (by decide)) false
  · exact refl timed

/-! ## Callers -/

theorem Stride.setUse (u : Nat) (phase : UsePhase) :
    r.Stride o (r.setUse u phase) :=
  ⟨frame rfl rfl rfl rfl rfl rfl rfl, timed.frame rfl rfl rfl rfl rfl rfl rfl rfl, Told.still rfl rfl⟩

theorem Stride.exitUse (u : Nat) (leased : Bool) (outcome : Outcome) :
    r.Stride o (r.exitUse o u leased outcome) := by
  unfold RetainedRoom.exitUse
  split
  · exact refl timed
  rename_i use found
  have left : r.Keeps (({ r with
      leases := if leased then r.leases - 1 else r.leases
      holders := r.holders.erase use.holder } : RetainedRoom).setUse u (.ended outcome)) :=
    frame rfl rfl rfl rfl rfl rfl rfl
  have scheduled := left.scheduled o false
  exact scheduled.trans (startRequestedRecovery scheduled.timed)

theorem Stride.settleFrom (busy : r.holders ≠ []) (n : Nat) : r.Stride o (settleFrom o n r).1 := by
  induction n with
  | zero => exact refl timed
  | succ n ih =>
    simp only [RetainedRoom.settleFrom]
    split
    · exact refl timed
    split
    · exact refl timed
    · exact refl timed
    · rename_i cause flight caused unleased
      exact startRelease (timed.disarmed (rests_of_holders busy)) (.inl caused) false
    · split
      · exact ih
      · exact refl timed

theorem Stride.ensureResidentFrom (n : Nat) : r.Stride o (r.ensureResidentFrom o n).1 := by
  cases n with
  | zero => exact refl timed
  | succ n =>
    simp only [RetainedRoom.ensureResidentFrom]
    split
    · exact refl timed
    split
    · exact refl timed
    · exact refl timed
    · rename_i flight suspended uncaused
      exact startAcquire timed suspended
    · exact refl timed

omit timed in
theorem holders_abandonAcquisition (r : RetainedRoom) (t : Nat) :
    (r.abandonAcquisition t).holders = r.holders ∧ (r.abandonAcquisition t).deadline = r.deadline ∧
      (r.abandonAcquisition t).ownerCalls = r.ownerCalls := by
  have abandoned : r.abandon.holders = r.holders ∧ r.abandon.deadline = r.deadline ∧
      r.abandon.ownerCalls = r.ownerCalls := by
    rw [abandon_shape]
    exact ⟨rfl, rfl, rfl⟩
  simp only [abandonAcquisition]
  split
  · obtain ⟨transitions, acquisition, shape⟩ := cancelAcquisition_shape r.abandon t
    rw [shape]
    exact abandoned
  · exact abandoned

/-- The initiator that gives up still holds the room, so no deadline is armed. -/
theorem Stride.joined (busy : r.holders ≠ []) (t : Nat) (initiator : Bool)
    (wake : Wake) : r.Stride o (r.joined o t initiator wake).1 := by
  have give : r.Stride o (if initiator then r.abandonAcquisition t else r) := by
    cases initiator with
    | false => exact refl timed
    | true =>
      obtain ⟨holders, deadline, calls⟩ := holders_abandonAcquisition r t
      have disarmed := timed.disarmed (rests_of_holders busy)
      refine ⟨Keeps.abandonAcquisition r t, Timed.restless (deadline.trans disarmed) ?_,
        Told.still deadline calls⟩
      refine rests_of_holders ?_
      show (r.abandonAcquisition t).holders ≠ []
      rw [holders]
      exact busy
  unfold RetainedRoom.joined
  cases wake with
  | cancelled => exact give
  | ready | timeout =>
    cases r.transitions[t]?.bind (·.outcome?) with
    | none => exact give
    | some outcome => cases outcome <;> exact refl timed

theorem Stride.resideUse (u left : Nat) : r.Stride o (r.resideUse o u left) := by
  have ensured := ensureResidentFrom timed left
  unfold RetainedRoom.resideUse
  split
  · rename_i r' eq
    rw [eq] at ensured
    exact ensured.trans (setUse ensured.timed u _)
  · rename_i r' error eq
    rw [eq] at ensured
    exact ensured.trans (exitUse ensured.timed u true _)
  · rename_i r' left' t initiator eq
    rw [eq] at ensured
    exact ensured.trans (setUse ensured.timed u _)

/-- The lease is taken under the caller's own hold. -/
theorem Stride.leaseUse (busy : r.holders ≠ []) (u : Nat) (prepares : Bool) :
    r.Stride o (r.leaseUse o u prepares) := by
  unfold RetainedRoom.leaseUse
  split
  · exact exitUse timed u false _
  have leased : r.Stride o
      (({ r with leases := r.leases + 1 } : RetainedRoom).setUse u .preparing) := by
    have disarmed := timed.disarmed (rests_of_holders busy)
    exact ⟨frame rfl rfl rfl rfl rfl rfl rfl, Timed.restless disarmed (rests_of_holders busy),
      Told.still rfl rfl⟩
  split
  · exact leased
  · exact leased.trans (resideUse leased.timed u maxResidencySteps)

end

section

variable (inv : r.Inv o) (timed : r.Timed o)
include inv timed

theorem Stride.settleUse (busy : r.holders ≠ []) (u : Nat)
    (prepares : Bool) (left : Nat) : r.Stride o (r.settleUse o u prepares left) := by
  have settled := settleFrom timed busy left
  have spec := (settleFrom_spec inv left).2.2
  unfold RetainedRoom.settleUse
  split
  · rename_i r' eq
    rw [eq] at spec
    obtain ⟨still, -⟩ := spec rfl
    change r' = r at still
    subst still
    exact leaseUse timed busy u prepares
  · rename_i r' error eq
    rw [eq] at settled
    exact settled.trans (exitUse settled.timed u false _)
  · rename_i r' left' on eq
    rw [eq] at settled
    exact settled.trans (setUse settled.timed u _)

theorem Stride.enterUse (holder : TaskId) (prepares : Bool) :
    r.Stride o (r.enterUse o holder prepares) := by
  unfold RetainedRoom.enterUse
  split
  · exact ⟨frame rfl rfl rfl rfl rfl rfl rfl, timed.frame rfl rfl rfl rfl rfl rfl rfl rfl, Told.still rfl rfl⟩
  rename_i admitting
  have open_ : r.isClosing o = false := by simpa using admitting
  have core := inv.1.enter open_ holder prepares maxSettleSteps (.settleable r.settleable.sets)
  have keeps : r.Keeps { r with
      holders := holder :: r.holders
      uses := r.uses ++ [⟨holder, prepares, .settling maxSettleSteps
        (.settleable r.settleable.sets)⟩] } := frame rfl rfl rfl rfl rfl rfl rfl
  have entered := keeps.scheduled o false
  refine entered.trans (settleUse (core.schedule false) entered.timed ?_ _ _ _)
  obtain ⟨_, _, _, _, eq, -⟩ := schedule_shape o { r with
    holders := holder :: r.holders
    uses := r.uses ++ [⟨holder, prepares, .settling maxSettleSteps
      (.settleable r.settleable.sets)⟩] } false
  rw [eq]
  exact List.cons_ne_nil _ _

theorem Stride.resumeUse {wake : Wake}
    (resumed : r.resumeUse o u wake = some r') : r.Stride o r' := by
  unfold RetainedRoom.resumeUse at resumed
  split at resumed
  · rename_i holder prepares left t found
    have busy := inv.1.holders_ne_nil found rfl
    obtain ⟨good, same⟩ := joined_spec inv t false wake nofun busy
    have waited := joined timed busy t false wake
    obtain ⟨-, ⟨⟩⟩ := of_passed resumed
    split
    · rename_i r₁ eq
      rw [eq] at good same waited
      have found' : r₁.uses[u]? = _ := (congrArg (·[u]?) same).trans found
      have busy' := good.1.1.holders_ne_nil found' rfl
      exact waited.trans (settleUse good.1 waited.timed busy' u prepares left)
    · rename_i r₁ outcome eq
      rw [eq] at waited
      exact waited.trans (exitUse waited.timed u false outcome)
  · rename_i holder prepares left seen found
    have busy := inv.1.holders_ne_nil found rfl
    split at resumed
    · obtain ⟨-, ⟨⟩⟩ := of_passed resumed
      exact settleUse inv timed busy u prepares left
    · cases resumed
      exact exitUse timed u false _
    · cases resumed
  · rename_i holder prepares left t initiator found
    have busy := inv.1.holders_ne_nil found rfl
    have waited := joined timed busy t initiator wake
    obtain ⟨-, ⟨⟩⟩ := of_passed resumed
    split
    · rename_i r₁ eq
      rw [eq] at waited
      exact waited.trans (resideUse waited.timed u left)
    · rename_i r₁ outcome eq
      rw [eq] at waited
      exact waited.trans (exitUse waited.timed u true outcome)
  · cases resumed

end

theorem Stride.prepared (timed : r.Timed o) {outcome : Outcome}
    (ended : r.prepared o u outcome = some r') : r.Stride o r' := by
  unfold RetainedRoom.prepared at ended
  split at ended
  · cases ended
    split
    · exact resideUse timed u maxResidencySteps
    · exact exitUse timed u true outcome
  · cases ended

theorem Stride.bodyEnded (timed : r.Timed o) {outcome : Outcome}
    (ended : r.bodyEnded o u outcome = some r') : r.Stride o r' := by
  unfold RetainedRoom.bodyEnded at ended
  split at ended
  · cases ended
    exact exitUse timed u true outcome
  · cases ended

end RetainedRoom

end BandSdk.Retention

/-
# Agents.Holdings -- what the flags owe to the call that runs

Two helpers of `Agent` change the flags between awaits: a stop past its lock cleans
up (`Cleans`), a start body climbs or is unwound (`Climbs`).  Each is told what it is
owed where it awaits (`Owes`) and says where it leaves the flags; `Sound` is what holds
between any two awaits, whoever runs.
-/
import BandSdk.Agents.Ownership
import Mathlib.Tactic.Common

namespace BandSdk.Agents

open BandSdk.Theory

/-! ## The flags -/

namespace Host

variable {setup : Setup} {h : Host}

/-- What holds between any two awaits. -/
structure Sound (setup : Setup) (h : Host) : Prop where
  running : h.running → h.started
  started : h.started → h.runtimePending ∧ h.adapterPending
  held : h.runtimeHeld → h.runtimePending
  up : h.adapterUp → h.adapterPending
  guarded : setup.singleInstance → h.adapterUp ∨ h.runtimePending → h.instanceGuard
  unowned : h.ownsInstanceGuard → setup.singleInstance = false

/-- An agent that a start holds has cleanup pending. -/
def Kept (h : Host) : Prop := h.holder.isSome → h.cleanupPending

end Host

/-- What the flags owe to a stop past the lock. -/
def StopPhase.Owes (h : Host) : StopPhase → Prop
  | .locking => False
  | .unsubscribing | .stoppingRuntime => h.runtimePending
  | .disconnecting before => h.runtimePending ∧ (before = .returned → h.runtimeHeld = false)
  | .disposing failed settled => h.adapterPending ∧ failed = h.runtimePending ∧ settled = !h.runtimePending

/-- What the flags owe to a start body that has not come up. -/
def StartPhase.Owes (setup : Setup) (h : Host) : StartPhase → Prop
  | .initializing => h.runtimePending = false ∧ (setup.singleInstance → h.instanceGuard)
  | .startingAdapter => h.adapterPending ∧ h.runtimePending = false ∧ (setup.singleInstance → h.instanceGuard)
  | .runtimeInitializing | .runtimeStarting | .settingUpContacts | .unwindingRuntime =>
    h.adapterPending ∧ h.runtimePending
  | .unwindingAdapter _ => h.adapterPending
  | .stopping _ => False

namespace Host

variable {setup : Setup} {h : Host}

/-! ### `stop()` past the lock -/

/-- Where a stop past the lock is after it ran. -/
structure Cleans (setup : Setup) (h : Host) (result : Host × Progress StopPhase) : Prop where
  sound : result.1.Sound setup
  stopped : result.1.started = false
  starting : result.1.starting = h.starting
  kept : result.1.Kept
  holder : result.1.holder = h.holder ∨ result.1.holder = none
  awaits : ∀ phase, result.2 = .awaits phase → result.1.stopLock ∧ phase.Owes result.1
  returned : result.2 = .returned → result.1.cleanupPending = false
  unrecorded : result.2 ≠ .recorded

section

variable (sound : h.Sound setup)
include sound

section

variable (stopped : h.started = false)
include stopped

theorem cancelStop_cleans (kept : h.Kept) : h.Cleans setup h.cancelStop := by
  constructor <;> grind -linarith [cancelStop, Sound, Kept, cleanupPending]

theorem finishStop_cleans {failed : Bool} (owed : failed = h.cleanupPending) : h.Cleans setup (h.finishStop failed) := by
  constructor <;> grind -linarith [finishStop, releaseSingleInstance, Sound, Kept, cleanupPending]

theorem runAdapterPhase_cleans {failed : Bool} (lock : h.stopLock) (owed : failed = h.runtimePending) :
    h.Cleans setup (h.runAdapterPhase failed) := by
  unfold runAdapterPhase
  split
  · rename_i pending
    constructor <;> grind -linarith [StopPhase.Owes, Kept, cleanupPending]
  · rename_i settled
    exact finishStop_cleans sound stopped (by simp [cleanupPending, owed, settled])

end

theorem releaseOwnedGuard_sound : h.releaseOwnedGuard.Sound setup := by
  unfold releaseOwnedGuard
  split
  · rename_i owned
    have off := sound.unowned owned
    constructor <;> grind -linarith [releaseSingleInstance, Sound]
  · exact sound

end

theorem Cleans.of_eq {h' : Host} {result : Host × Progress StopPhase} (cleans : h'.Cleans setup result)
    (starting : h'.starting = h.starting) (holder : h'.holder = h.holder) : h.Cleans setup result :=
  { cleans with
    starting := cleans.starting.trans starting
    holder := holder ▸ cleans.holder }

@[simp] theorem releaseOwnedGuard_flags :
    h.releaseOwnedGuard.started = h.started ∧ h.releaseOwnedGuard.starting = h.starting ∧
      h.releaseOwnedGuard.stopLock = h.stopLock ∧ h.releaseOwnedGuard.holder = h.holder ∧
      h.releaseOwnedGuard.runtimePending = h.runtimePending ∧
      h.releaseOwnedGuard.adapterPending = h.adapterPending ∧
      h.releaseOwnedGuard.runtimeHeld = h.runtimeHeld ∧
      h.releaseOwnedGuard.stopRequested = h.stopRequested ∧
      h.releaseOwnedGuard.running = h.running := by
  unfold releaseOwnedGuard
  split <;> simp [releaseSingleInstance]

theorem runtimePhaseEnded_cleans {before : Ended} (sound : h.Sound setup)
    (stopped : h.started = false) (lock : h.stopLock) (owed : h.runtimePending)
    (settled : before = .returned → h.runtimeHeld = false) :
    h.Cleans setup (h.runtimePhaseEnded before) := by
  cases before with
  | returned =>
    have released := releaseOwnedGuard_sound sound
    obtain ⟨started, starting, locked, holder, -, -, held, -, -⟩ := releaseOwnedGuard_flags (h := h)
    have free := settled rfl
    refine Cleans.of_eq (runAdapterPhase_cleans ?_ ?_ ?_ rfl) ?_ ?_ <;>
      grind -linarith [Sound]
  | raised => exact runAdapterPhase_cleans sound stopped lock owed.symm
  | cancelled => exact cancelStop_cleans sound stopped (by simp [Kept, cleanupPending, owed])

theorem runCleanup_cleans (sound : h.Sound setup) :
    h.Cleans setup { h with stopLock := true, stopRequested := false, started := false }.runCleanup := by
  unfold runCleanup
  split
  · constructor <;> grind -linarith [StopPhase.Owes, Sound, Kept, cleanupPending]
  rename_i settled
  refine Cleans.of_eq (runAdapterPhase_cleans ?_ rfl rfl (by simpa using settled)) rfl rfl
  constructor <;> grind -linarith [Sound]

theorem enterStop_recorded (starting : h.starting) (coming : h.started = false) :
    h.enterStop = ({ h with stopRequested := true }, .recorded) := by
  simp [enterStop, starting, coming]

theorem enterStop_cleans (sound : h.Sound setup) (come : h.starting → h.started)
    (kept : h.starting = false → h.Kept) : h.Cleans setup h.enterStop := by
  unfold enterStop
  split
  · grind -linarith
  split
  · constructor <;> grind -linarith [Kept]
  · exact runCleanup_cleans sound

theorem adapterDisposed_sound {settled : Bool} (sound : h.Sound setup) (stopped : h.started = false) :
    (h.adapterDisposed setup settled).Sound setup := by
  unfold adapterDisposed
  split
  · constructor <;> grind -linarith [Sound]
  · exact sound

/-- **A stop past the lock.** -/
theorem resumeStop_cleans {task : Nat} {phase : StopPhase} {ended : Ended}
    {result : Host × Progress StopPhase} (sound : h.Sound setup) (stopped : h.started = false)
    (lock : h.stopLock) (owes : phase.Owes h) (ran : h.resumeStop setup task phase ended = some result) :
    h.Cleans setup result := by
  cases phase with
  | locking => exact owes.elim
  | unsubscribing =>
    cases ended <;> obtain rfl := Option.some.inj ran <;>
      constructor <;> grind -linarith [StopPhase.Owes, Kept, cleanupPending]
  | stoppingRuntime =>
    cases ended <;> obtain rfl := Option.some.inj ran <;>
      constructor <;> grind -linarith [StopPhase.Owes, Sound, Kept, cleanupPending]
  | disconnecting before =>
    cases ended with
    | returned =>
      cases ran
      exact runtimePhaseEnded_cleans sound stopped lock owes.1 owes.2
    | raised | cancelled =>
      cases ran
      exact runtimePhaseEnded_cleans sound stopped lock owes.1 (by simp)
  | disposing failed settled =>
    obtain ⟨pending, owed, work⟩ := owes
    cases ended with
    | returned =>
      cases ran
      -- unsettled work is a runtime phase that failed, so the phase that stays is paid for
      refine Cleans.of_eq (finishStop_cleans (adapterDisposed_sound sound stopped) ?_ ?_) ?_ ?_ <;>
        grind -linarith [adapterDisposed, cleanupPending]
    | raised =>
      cases ran
      exact finishStop_cleans sound stopped (by simp [cleanupPending, pending])
    | cancelled =>
      cases ran
      exact cancelStop_cleans sound stopped (by simp [Kept, cleanupPending, pending])

/-! ### A start body that has not come up -/

/-- Where a start body is after it ran.  `task` holds the agent until it comes up or is unwound. -/
structure Climbs (setup : Setup) (task : Nat) (h : Host) (result : Host × Progress StartPhase) : Prop where
  sound : result.1.Sound setup
  stopped : result.1.started = false
  awaits : ∀ phase, result.2 = .awaits phase → phase.Owes setup result.1 ∧ result.1.starting ∧
    result.1.holder = some task ∧ (h.stopRequested → result.1.stopRequested)
  raised : result.2 = .raised → result.1.starting = false ∧ result.1.Kept
  unreturned : result.2 ≠ .returned ∧ result.2 ≠ .recorded

variable {task : Nat}

theorem Climbs.of_asked {h' : Host} {result : Host × Progress StartPhase}
    (climbs : h'.Climbs setup task result) (asked : h.stopRequested → h'.stopRequested) :
    h.Climbs setup task result := by
  refine { climbs with awaits := ?_ }
  intro phase awaits
  obtain ⟨owes, starting, holder, kept⟩ := climbs.awaits phase awaits
  exact ⟨owes, starting, holder, fun request => kept (asked request)⟩

section

variable (sound : h.Sound setup) (stopped : h.started = false)
include sound stopped

theorem startFailed_climbs (kept : h.Kept) : h.Climbs setup task h.startFailed := by
  constructor <;> grind -linarith [startFailed, Sound, Kept, cleanupPending]

theorem finishUnwind_climbs : h.Climbs setup task h.finishUnwind := by
  constructor <;>
    grind -linarith [finishUnwind, startFailed, releaseSingleInstance, Sound, Kept, cleanupPending]

section

variable (starting : h.starting) (holder : h.holder = some task)
include starting holder

theorem unwindFailedStart_climbs : h.Climbs setup task h.unwindFailedStart := by
  have idle : h.running = false := by grind -linarith [Sound]
  have settles : { h with runtimePending := h.runtimeCleanupPending }.Sound setup := by
    constructor <;> grind -linarith [Sound, runtimeCleanupPending]
  unfold unwindFailedStart
  simp only [Bool.not_not]
  split
  · constructor <;> grind -linarith [StartPhase.Owes]
  · exact Climbs.of_asked (finishUnwind_climbs settles stopped) id

theorem unwindFailedRuntime_climbs (adapter : h.adapterPending)
    (runtime : h.runtimePending) : h.Climbs setup task h.unwindFailedRuntime := by
  unfold unwindFailedRuntime
  split
  · constructor <;> grind -linarith [StartPhase.Owes]
  · refine Climbs.of_asked (unwindFailedStart_climbs (releaseOwnedGuard_sound sound) ?_ ?_ ?_) ?_ <;>
      simp_all

theorem startRuntime_climbs {free : Bool} (adapter : h.adapterPending)
    (guarded : setup.singleInstance → h.instanceGuard) :
    h.Climbs setup task (h.startRuntime setup free) := by
  have pends : { h with runtimePending := true }.Sound setup := by
    constructor <;> grind -linarith [Sound]
  unfold startRuntime
  simp only
  split
  · exact Climbs.of_asked (unwindFailedStart_climbs pends stopped starting holder) id
  split
  · constructor <;> grind -linarith [StartPhase.Owes]
  rename_i bare
  have off : setup.singleInstance = false := by grind -linarith
  simp only [claimSingleInstance, off, Bool.false_and, Bool.false_eq_true, ↓reduceIte]
  constructor <;> grind -linarith [StartPhase.Owes, Sound]

/-- **A start body that does not come up in this step.** -/
theorem resumeStart_climbs {phase : StartPhase} {answer : Answer}
    {result : Host × Progress StartPhase} (owes : phase.Owes setup h)
    (rises : phase = .settingUpContacts → answer.ended ≠ .returned)
    (ran : h.resumeStart setup task phase answer = some result) : h.Climbs setup task result := by
  obtain ⟨ended, accepted, free⟩ := answer
  have unwinds := unwindFailedStart_climbs sound stopped starting holder
  cases phase with
  | initializing =>
    cases ended with
    | returned =>
      cases ran
      split
      · constructor <;> grind -linarith [StartPhase.Owes, startAdapter, Sound]
      · exact unwinds
    | raised | cancelled =>
      cases ran
      exact unwinds
  | startingAdapter =>
    cases ended with
    | returned =>
      cases ran
      exact startRuntime_climbs sound stopped starting holder owes.1 owes.2.2
    | raised | cancelled =>
      cases ran
      exact unwinds
  | runtimeInitializing | runtimeStarting | settingUpContacts =>
    cases ended with
    | returned =>
      first
      | exact absurd rfl (rises rfl)
      | cases ran
        constructor <;> grind -linarith [StartPhase.Owes, Sound]
    | raised | cancelled =>
      cases ran
      exact unwindFailedRuntime_climbs sound stopped starting holder owes.1 owes.2
  | unwindingRuntime =>
    have freed : { h with runtimeHeld := false }.Sound setup := by
      constructor <;> grind -linarith [Sound]
    cases ended with
    | returned =>
      cases ran
      refine Climbs.of_asked
        (unwindFailedStart_climbs (releaseOwnedGuard_sound freed) ?_ ?_ ?_) ?_ <;> simp_all
    | raised =>
      cases ran
      split
      · exact unwinds
      · refine Climbs.of_asked
          (unwindFailedStart_climbs (releaseOwnedGuard_sound sound) ?_ ?_ ?_) ?_ <;> simp_all
    | cancelled =>
      cases ran
      exact unwinds
  | unwindingAdapter settled =>
    cases ended with
    | returned =>
      cases ran
      refine Climbs.of_asked
        (finishUnwind_climbs (adapterDisposed_sound sound stopped) ?_) ?_ <;>
        grind -linarith [adapterDisposed]
    | raised =>
      cases ran
      exact finishUnwind_climbs sound stopped
    | cancelled =>
      cases ran
      exact startFailed_climbs sound stopped fun _ => by
        simp only [StartPhase.Owes] at owes
        simp [cleanupPending, owes]
  | stopping phase => exact owes.elim

end

end

/-- **A start is called.**  It changes nothing, or is admitted to an agent that nobody has. -/
theorem callStart_cases (task : Nat) (answer : Answer) (sound : h.Sound setup)
    (alone : h.starting → setup.ownsResources = false → h.cleanupPending) :
    ((h.callStart setup task answer).1 = h ∧
      ((h.callStart setup task answer).2 = .returned ∨ (h.callStart setup task answer).2 = .raised)) ∨
    h.started = false ∧ h.starting = false ∧ h.cleanupPending = false ∧
      h.Climbs setup task (h.callStart setup task answer) := by
  unfold callStart
  split
  · exact .inl ⟨rfl, .inl rfl⟩
  split
  · exact .inl ⟨rfl, .inr rfl⟩
  split
  · exact .inl ⟨rfl, .inr rfl⟩
  split
  · exact .inl ⟨rfl, .inr rfl⟩
  rename_i down rival pending accepted
  have stopped : h.started = false := by simpa using down
  have settled : h.cleanupPending = false := by simpa using pending
  have free : h.starting = false := by grind -linarith
  have clear : h.runtimePending = false ∧ h.adapterPending = false := by
    simpa [cleanupPending] using settled
  have admitted : { h with adapterPending := setup.ownsResources, starting := true,
                           holder := some task }.Sound setup := by
    constructor <;> grind -linarith [Sound]
  simp only [claimSingleInstance]
  split
  · rename_i claimed held
    refine .inr ⟨stopped, free, settled, ?_⟩
    constructor <;> grind -linarith [StartPhase.Owes, Sound]
  · split
    · refine .inr ⟨stopped, free, settled, ?_⟩
      exact Climbs.of_asked (unwindFailedStart_climbs admitted stopped rfl rfl) id
    · rename_i bare
      refine .inl ⟨?_, .inr rfl⟩
      cases h
      simp_all

end Host

end BandSdk.Agents

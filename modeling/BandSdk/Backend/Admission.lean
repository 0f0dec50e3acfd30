/-
# Backend.Admission -- an unconfirmed stop keeps the room shut

With `requires_confirmation` the room's next turn is refused from the moment a
stop is issued until its handle is confirmed.  What blocks is the room's one
`UnconfirmedStop`, and it blocks for the handle it was made for; so the promise
holds for every stop that is recorded there.

Two stops are not.  The one that waited for a start call cancels the handle
without recording anything (`unrecorded_stop_admits`), and one issued while the
record belongs to another handle finds the record taken.  `recorded` is the
condition that neither happens.
-/
import BandSdk.Backend.Stops

namespace BandSdk.Backend

set_option linter.unusedSectionVars false

open BandSdk.Theory List RoomState

namespace RoomState

variable {H ρ : Type} [DecidableEq H] [DecidableEq ρ] {s t : RoomState H ρ}

/-! ## The condition -/

/-- The room's record is free, or already for `handle`. -/
def recordFree (s : RoomState H ρ) (handle : H) : Bool :=
  match s.unconfirmed with
  | none => true
  | some stop => stop.handle = handle

/-- If the registered turn is stopped now, its stop is recorded. -/
def cancelRecorded (s : RoomState H ρ) : Bool :=
  match s.current with
  | some n => match (s.turns n).handle with
      | some handle => (s.turns n).stopRequested || s.recordFree handle
      | none => true
  | none => true

/-- If a stop was asked for and `handle` is bound now, its stop is recorded. -/
def bindRecorded (s : RoomState H ρ) (handle : H) : Bool :=
  match s.current with
  | some n => (s.turns n).handle.isSome || !(s.turns n).stopRequested || s.recordFree handle
  | none => true

def recorded (s : RoomState H ρ) : BackendEvent H ρ → Bool
  | .cancel => s.cancelRecorded
  | .leave _ true => s.cancelRecorded
  | .bind handle => s.bindRecorded handle
  | .started o => match s.owners[o]? with
      | some (.starting _ c) => match s.calls c with
          | .revealed (some handle) => s.bindRecorded handle
          | _ => true
      | _ => true
  | .stopRevealed k => match (s.stops k).task with
      | .awaitingStart c => match s.calls c with
          | .revealed (some _) => false
          | _ => true
      | _ => true
  | _ => true

/-! ## The invariant -/

/-- Whatever is owed a confirmation is what the room's record is for. -/
def Blocked (s : RoomState H ρ) : Prop :=
  ∀ handle ∈ s.owed, ∃ stop, s.unconfirmed = some stop ∧ stop.handle = handle

section

variable (blocked : s.Blocked)
include blocked

theorem Blocked.congr (unconfirmed : t.unconfirmed = s.unconfirmed) (owed : t.owed = s.owed) : t.Blocked := by
  unfold Blocked
  rw [unconfirmed, owed]
  exact blocked

theorem Blocked.setTurn (n : Nat) (turn : BackendTurn H) :
    (s.setTurn n turn).Blocked := blocked.congr rfl rfl

theorem Blocked.stop {n : Nat} {handle : H} (free : s.recordFree handle = true) :
    (s.stop true n handle).Blocked := by
  have record : ∃ stop, (s.stop true n handle).unconfirmed = some stop ∧ stop.handle = handle := by
    unfold RoomState.stop unconfirmedStop
    rw [recordFree] at free
    cases known : s.unconfirmed with
    | none => exact ⟨_, rfl, rfl⟩
    | some stop =>
      rw [known] at free
      exact ⟨stop, known, by simpa using free⟩
  have owed : (s.stop true n handle).owed = s.owed ++ [handle] := by
    obtain ⟨_, _, same⟩ := s.stop_eq true n handle
    rw [same]
    rfl
  intro owing member
  rw [owed, mem_append, mem_singleton] at member
  rcases member with old | rfl
  · -- whoever was owed before had the same record
    obtain ⟨stop, known, rfl⟩ := blocked owing old
    have same : stop.handle = handle := by
      rw [recordFree, known] at free
      simpa using free
    rw [same]
    exact record
  · exact record

theorem Blocked.bind {handle : H} (ok : s.bindRecorded handle = true) : (s.bind true handle).Blocked := by
  unfold RoomState.bind
  split
  · exact blocked
  rename_i n registered
  split
  · exact blocked
  rename_i unbound
  dsimp only
  split
  · rename_i requested
    have requested' : (s.turns n).stopRequested = true := by simpa using requested
    refine (blocked.setTurn n _).stop ?_
    show s.recordFree handle = true
    simpa [bindRecorded, registered, unbound, requested'] using ok
  · exact blocked.congr rfl rfl

theorem Blocked.cancel (ok : s.cancelRecorded = true) : (s.cancel true).Blocked := by
  unfold RoomState.cancel
  split
  · exact blocked
  rename_i n registered
  split
  · exact blocked
  rename_i unrequested
  dsimp only
  split
  · rename_i handle bound
    have bound' : (s.turns n).handle = some handle := by simpa using bound
    refine (blocked.setTurn n _).stop ?_
    show s.recordFree handle = true
    simpa [cancelRecorded, registered, bound', unrequested] using ok
  · exact blocked.congr rfl rfl

theorem Blocked.confirmStopped (handle : H) : (s.confirmStopped handle).Blocked := by
  intro owing member
  obtain ⟨old, other⟩ := mem_filter.1 member
  have other' : owing ≠ handle := by simpa using other
  obtain ⟨stop, known, rfl⟩ := blocked owing old
  refine ⟨stop, ?_, rfl⟩
  simp [RoomState.confirmStopped, known, other']

omit blocked in
theorem unconfirmedStop_owed (handle : H) : (s.unconfirmedStop handle).owed = s.owed := by
  unfold unconfirmedStop
  split <;> rfl

theorem Blocked.recovering (handle : H) (residency : ρ × Nat) : (s.recovering handle residency).Blocked := by
  have kept : (s.unconfirmedStop handle).Blocked := by
    intro owing member
    rw [unconfirmedStop_owed] at member
    obtain ⟨stop, known, same⟩ := blocked owing member
    exact ⟨stop, by simp [unconfirmedStop, known], same⟩
  unfold RoomState.recovering
  dsimp only
  split
  · rename_i stop known
    split
    · intro owing member
      obtain ⟨stop', known', same⟩ := kept owing member
      cases known.symm.trans known'
      exact ⟨_, rfl, same⟩
    · exact kept
  · exact kept

theorem blocked_step {e : BackendEvent H ρ} (ok : s.recorded e = true)
    (stepped : s.step true e = some t) : t.Blocked := by
  by_cases confirmation : isConfirmation e = true
  · obtain ⟨admissions, made⟩ := confirmation_cases confirmation stepped
    have read : ({ s with admissions } : RoomState H ρ).Blocked := blocked.congr rfl rfl
    rcases made with rfl | ⟨handle, -, rfl⟩
    · exact read
    · exact read.confirmStopped handle
  cases e with
  | confirmStopped | released | confirmDisposed | releaseWaited => exact absurd rfl confirmation
  | enter handle =>
    cases stepped
    unfold enter
    split <;> exact blocked.congr rfl rfl
  | leave o cancelled =>
    obtain ⟨r, made, current, -, rfl⟩ := leave_cases stepped
    have stopped : r.Blocked := by
      rcases made with ⟨rfl, rfl⟩ | rfl
      · exact blocked.cancel ok
      · exact blocked
    exact stopped.congr rfl rfl
  | started o =>
    obtain ⟨n, c, starting, rfl | ⟨handle, revealed, rfl⟩⟩ := started_cases stepped
    · exact blocked.congr rfl rfl
    have unowned : (s.setOwner o (.inside n)).Blocked := blocked.congr rfl rfl
    refine unowned.bind ?_
    show s.bindRecorded handle = true
    simpa [recorded, starting, revealed] using ok
  | bind handle =>
    cases stepped
    exact blocked.bind ok
  | cancel =>
    cases stepped
    exact blocked.cancel ok
  | stopRevealed k =>
    simp only [step, stopRevealed] at stepped
    split at stepped
    · rename_i c awaiting
      split at stepped
      · cases stepped
      · rename_i handle revealed
        simp [recorded, awaiting, revealed] at ok
      · cases stepped
        exact blocked.congr rfl rfl
      · cases stepped
        exact blocked.congr rfl rfl
    · cases stepped
  | recovering handle residency =>
    cases stepped
    exact blocked.recovering handle residency
  | wake o | abortEnter o | start o | callEnds c outcome | cancelStarted o | stopEnds k
    | forgetStop k | requireAdmission =>
      simp only [step, wake, abortEnter, start, callEnds,
        cancelStarted, stopEnds, forgetStop, requireAdmission] at stepped
      repeat' split at stepped
      all_goals cases stepped
      all_goals exact blocked.congr rfl rfl

end

/-- A record in `_unconfirmed` refuses, whatever is in `_stopping`. -/
theorem verdict_of_record {stop : UnconfirmedStop H ρ} (known : s.unconfirmed = some stop) :
    s.verdict = .inputNotAccepted := by
  have blocks : s.blocker ≠ none := by
    unfold blocker unconfirmedBlocker
    rw [known]
    repeat' split
    all_goals simp
  unfold verdict
  split
  · rename_i free
    exact absurd free blocks
  · rfl

/-! ## What lifts a refusal -/

theorem mem_confirmStopped {owing handle : H} (member : owing ∈ s.owed)
    (lifted : owing ∉ (s.confirmStopped handle).owed) : handle = owing := by
  by_contra other
  exact lifted (mem_filter.2 ⟨member, by simpa using Ne.symm other⟩)

/-- The cancel call is made in `_stop` and in `_stop_when_started`, for a handle
that is owed from then on; nothing but a confirmation takes one away. -/
structure Owing (s t : RoomState H ρ) : Prop where
  issues : t.issued = s.issued ∨ ∃ n handle, t.issued = s.issued ++ [(n, handle)] ∧ handle ∈ t.owed
  kept : ∀ handle ∈ s.owed, handle ∈ t.owed

theorem Owing.same (issued : t.issued = s.issued) (owed : t.owed = s.owed) : s.Owing t :=
  ⟨.inl issued, fun _ member => by rwa [owed]⟩

theorem Owing.stop (confirm : Bool) (n : Nat) (handle : H) : s.Owing (s.stop confirm n handle) := by
  obtain ⟨_, _, same⟩ := s.stop_eq confirm n handle
  rw [same]
  exact ⟨.inr ⟨n, handle, rfl, by simp [issue, spawnStop]⟩, fun _ member => mem_append_left _ member⟩

theorem Owing.of_setTurn {n : Nat} {turn : BackendTurn H} (owing : (s.setTurn n turn).Owing t) :
    s.Owing t := ⟨owing.issues, owing.kept⟩

open Owing

theorem Owing.bind (confirm : Bool) (handle : H) : s.Owing (s.bind confirm handle) := by
  unfold RoomState.bind
  dsimp only
  repeat' split
  all_goals first
    | exact same rfl rfl
    | exact of_setTurn (stop ..)

theorem Owing.cancel (confirm : Bool) : s.Owing (s.cancel confirm) := by
  unfold RoomState.cancel
  dsimp only
  repeat' split
  all_goals first
    | exact same rfl rfl
    | exact of_setTurn (stop ..)

theorem Owing.of_congr {r : RoomState H ρ} (owing : r.Owing t) (issued : r.issued = s.issued)
    (owed : r.owed = s.owed) : s.Owing t := by
  refine ⟨?_, ?_⟩
  · rw [← issued]
    exact owing.issues
  · rw [← owed]
    exact owing.kept

theorem Owing.step {confirm : Bool} {e : BackendEvent H ρ} (plain : isConfirmation e = false)
    (stepped : s.step confirm e = some t) : s.Owing t := by
  cases e with
  | confirmStopped | released | confirmDisposed | releaseWaited => cases plain
  | leave o cancelled =>
    obtain ⟨r, ⟨-, rfl⟩ | rfl, current, -, rfl⟩ := leave_cases stepped
    · exact ⟨(cancel confirm).issues, (cancel confirm).kept⟩
    · exact same rfl rfl
  | started o =>
    obtain ⟨n, c, -, rfl | ⟨handle, -, rfl⟩⟩ := started_cases stepped
    · exact same rfl rfl
    · exact (bind confirm _).of_congr rfl rfl
  | bind handle =>
    cases stepped
    exact bind confirm handle
  | cancel =>
    cases stepped
    exact cancel confirm
  | stopRevealed k =>
    simp only [RoomState.step, RoomState.stopRevealed] at stepped
    repeat' split at stepped
    all_goals cases stepped
    · refine ⟨.inr ⟨_, _, rfl, by simp [setTask, issue]⟩, fun _ member => ?_⟩
      exact mem_append_left _ member
    · exact same rfl rfl
    · exact same rfl rfl
  | recovering handle residency =>
    cases stepped
    unfold recovering unconfirmedStop
    dsimp only
    repeat' split
    all_goals exact same rfl rfl
  | enter handle =>
    cases stepped
    unfold enter
    split <;> exact same rfl rfl
  | wake o | abortEnter o | start o | callEnds c outcome | cancelStarted o | stopEnds k
    | forgetStop k | requireAdmission =>
      simp only [RoomState.step, RoomState.wake, abortEnter, start, callEnds,
        RoomState.cancelStarted, stopEnds, RoomState.forgetStop, requireAdmission] at stepped
      repeat' split at stepped
      all_goals cases stepped
      all_goals exact same rfl rfl

theorem confirms_of_lifted {confirm : Bool} {e : BackendEvent H ρ} {owing : H}
    (stepped : s.step confirm e = some t) (member : owing ∈ s.owed) (lifted : owing ∉ t.owed) :
    s.Confirms owing e := by
  cases plain : isConfirmation e with
  | false => exact absurd ((Owing.step plain stepped).kept owing member) lifted
  | true =>
    obtain ⟨admissions, rfl | ⟨handle, confirms, rfl⟩⟩ := confirmation_cases plain stepped
    · exact absurd member lifted
    · exact mem_confirmStopped member lifted ▸ confirms

/-- A cancel call leaves its handle owed. -/
theorem step_issues {confirm : Bool} {e : BackendEvent H ρ} (stepped : s.step confirm e = some t) :
    t.issued = s.issued ∨ ∃ n handle, t.issued = s.issued ++ [(n, handle)] ∧ handle ∈ t.owed := by
  cases plain : isConfirmation e with
  | false => exact (Owing.step plain stepped).issues
  | true =>
    obtain ⟨admissions, rfl | ⟨handle, -, rfl⟩⟩ := confirmation_cases plain stepped
    · exact .inl rfl
    · exact .inl rfl

end RoomState

open RoomState

variable {H ρ : Type} [DecidableEq H] [DecidableEq ρ]

/-- What the room promises about admission. -/
structure Guarded (s : RoomState H ρ) : Prop where
  /-- A cancel call leaves its handle owed. -/
  owes : ∀ e t, s.step true e = some t → t.issued = s.issued ∨
    ∃ n handle, t.issued = s.issued ++ [(n, handle)] ∧ handle ∈ t.owed
  /-- While a handle is owed, `require_admission` refuses. -/
  refuses : ∀ handle ∈ s.owed, s.verdict = .inputNotAccepted
  /-- It is owed until it is confirmed itself. -/
  lifted : ∀ e t, s.step true e = some t → ∀ handle ∈ s.owed, handle ∉ t.owed → s.Confirms handle e
  /-- The confirmation of another handle does not admit. -/
  ownHandle : ∀ handle ∈ s.owed, ∀ other, other ≠ handle → (s.confirmStopped other).verdict = .inputNotAccepted

/-- The runs in which every stop is recorded. -/
def recordedRoom (H ρ : Type) [DecidableEq H] [DecidableEq ρ] :
    Machine (RoomState H ρ) (BackendEvent H ρ) := (room H ρ true).restrict recorded

theorem RoomState.Blocked.guarded {s : RoomState H ρ} (blocked : s.Blocked) : Guarded s where
  owes _ _ stepped := step_issues stepped
  refuses handle member := by
    obtain ⟨stop, known, -⟩ := blocked handle member
    exact verdict_of_record known
  lifted _ _ stepped _ member lifted := confirms_of_lifted stepped member lifted
  ownHandle handle member other different := by
    have still : handle ∈ (s.confirmStopped other).owed :=
      mem_filter.2 ⟨member, by simpa using Ne.symm different⟩
    obtain ⟨stop, known, -⟩ := blocked.confirmStopped other handle still
    exact verdict_of_record known

/-- **Admission waits for the confirmation.**  In every run of every room in
which every stop is recorded. -/
theorem admission_waits_for_confirmation (rooms : Type) [DecidableEq rooms]
    (s : rooms → RoomState H ρ) (reached : ((recordedRoom H ρ).family rooms).Reachable s)
    (r : rooms) : Guarded (s r) := by
  have blocked : (s r).Blocked := by
    refine (reached.component r).invariant ?_ ?_
    · rintro s rfl
      exact nofun
    · intro s e t blocked stepped
      obtain ⟨ok, inside⟩ := Machine.restrict_step stepped
      exact blocked_step blocked ok inside
  exact blocked.guarded

/-- A stopped turn, another handle's confirmation, and then its own. -/
def stoppedTurn : List (Unit × BackendEvent String Unit) :=
  [.enter (some "turn"), .cancel, .stopEnds 0, .forgetStop 0, .leave 0 true,
    .confirmStopped "another"].map fun e => ((), e)

theorem admission_waits_stopped_turn :
    ∃ s, ((recordedRoom String Unit).family Unit).run (fun _ => initial) stoppedTurn = some s ∧
      (s ()).owed = ["turn"] ∧ (s ()).verdict = .inputNotAccepted ∧
      ((s ()).confirmStopped "turn").verdict = .admitted ∧ Guarded (s ()) := by
  have ran : (((recordedRoom String Unit).family Unit).run (fun _ => initial) stoppedTurn).map
      (fun s => ((s ()).owed, (s ()).verdict, ((s ()).confirmStopped "turn").verdict)) =
        some (["turn"], .inputNotAccepted, .admitted) := by decide +kernel
  obtain ⟨s, path, facts⟩ := Option.map_eq_some_iff.1 ran
  simp only [Prod.mk.injEq] at facts
  exact ⟨s, path, facts.1, facts.2.1, facts.2.2,
    admission_waits_for_confirmation Unit s ⟨_, fun _ => rfl, _, path⟩ ()⟩

/-- **A stop without a record.**  The owner is cancelled in `started`; the stop
that waits for the start call cancels the handle it reveals, and once it is done
the room admits again although nobody confirmed anything. -/
theorem unrecorded_stop_admits :
    ∃ s, (room String Unit true).run initial
        [.enter none, .start 0, .cancelStarted 0, .leave 0 true,
          .callEnds 0 (.revealed (some "turn")), .stopRevealed 0, .stopEnds 0, .forgetStop 0] =
        some s ∧
      s.issued = [(0, "turn")] ∧ s.owed = ["turn"] ∧ s.verdict = .admitted ∧ ¬ Guarded s := by
  refine ⟨_, rfl, rfl, rfl, rfl, fun guarded => ?_⟩
  exact absurd (guarded.refuses "turn" (mem_singleton.2 rfl)) (by decide)

end BandSdk.Backend

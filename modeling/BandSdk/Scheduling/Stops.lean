/-
# Scheduling.Stops -- the handlers of a turn, and the room they begin in

Controls are the only writers of the room's stop flag, and each of them moves its
revision: `stoppedAfter` reads the flag back from the revision.  An attempt's
handler begins only at the revision its dispatch saw a running room at, so the
room is running then, whatever happened in between.

`approaches` follows `run` up to each attempt's handler.
-/
import BandSdk.Scheduling.Scheduler
import BandSdk.Scheduling.Batches

namespace BandSdk.Scheduling

open BandSdk.Theory BandSdk.Turns List Option

variable {I ρ C : Type}

/-! ## Controls -/

/-- `stop_room`, `interrupt` and `resume_from_gate`, on what the scheduler reads. -/
def Host.control (host : Host I) : ControlMode → Host I
  | .stop => { host with controlRevision := host.controlRevision + 1, stopped := true }
  | .interrupt => { host with controlRevision := host.controlRevision + 1 }
  | .play => { host with controlRevision := host.controlRevision + 1, stopped := false }

/-- Whether the room is stopped after the first of its controls. -/
def stoppedAfter (controls : Nat → ControlMode) : Nat → Bool
  | 0 => false
  | n + 1 =>
    match controls n with
    | .stop => true
    | .interrupt => stoppedAfter controls n
    | .play => false

/-- The room as some of its controls left it; its revision counts them. -/
def Host.Heeds (controls : Nat → ControlMode) (host : Host I) : Prop :=
  host.stopped = stoppedAfter controls host.controlRevision

/-- A scope in its running turn, after a control: `_cancel_cycle` terminates it,
`resume_from_gate` leaves it alone. -/
def controlScope (scope : TurnScope I) : ControlMode → TurnScope I
  | .play => scope
  | mode => scope.terminate (some mode) false false

/-- `_execute_message_cycle`, up to its handler: the controls that came since the
handler's task was created may have ended its scope. -/
def beginCycle (scope : TurnScope I) (host : Host I) (controls : List ControlMode) : Option (Host I) :=
  if (controls.foldl controlScope scope).terminating then none
  else some (controls.foldl Host.control host)

variable {scope : TurnScope I} {controls : List ControlMode}

/-- A control that leaves a scope running does not stop its room. -/
theorem stopped_foldl_of_running {host : Host I}
    (running : (controls.foldl controlScope scope).terminating = false) (goes : host.stopped = false) :
    (controls.foldl Host.control host).stopped = false := by
  induction controls generalizing scope host with
  | nil => exact goes
  | cons mode rest ih =>
    have stays : ∀ (modes : List ControlMode) (scope : TurnScope I), scope.terminating = true →
        (modes.foldl controlScope scope).terminating = true := by
      intro modes
      induction modes with
      | nil => exact fun _ ended => ended
      | cons mode rest ih =>
        intro scope ended
        refine ih _ ?_
        cases mode with
        | play => exact ended
        | stop | interrupt => rfl
    cases mode with
    | play => exact ih running rfl
    | stop | interrupt =>
      rw [foldl_cons, stays rest _ rfl] at running
      cases running

theorem stopped_beginCycle {host started : Host I} (begun : beginCycle scope host controls = some started)
    (goes : host.stopped = false) :
    started.stopped = false := by
  obtain ⟨running, ⟨⟩⟩ := of_barred begun
  exact stopped_foldl_of_running (by simpa using running) goes

/-! ## Local events -/

/-- The awaits of `execute_local`, up to its handler: the controls that came at each. -/
structure LocalRound where
  beginning : List ControlMode
  /-- `begin_delivery` gave a scope. -/
  begins : Bool
  preparation : List ControlMode
  /-- The context was prepared, and the roster updated. -/
  prepared : Bool
  cycle : List ControlMode

/-- `_begin_turn`: a control at its await leaves a message for the next wake. -/
def beginTurn (host : Host I) (round : LocalRound) : Option (Host I × TurnScope I) :=
  let began := round.beginning.foldl Host.control host
  if round.begins = false ∨ host.controlRevision ≠ began.controlRevision then none
  else some (began, { controlRevision := began.controlRevision, phase := .admitted })

/-- `execute_local`, up to the message handler it begins. -/
def executeLocalBegins (host : Host I) (round : LocalRound) : Option (Host I) :=
  match beginTurn host round with
  | none => none
  | some (host, scope) =>
    let host := round.preparation.foldl Host.control host
    let scope := round.preparation.foldl controlScope scope
    if round.prepared = false ∨ scope.kind ≠ none then none
    else beginCycle scope host round.cycle

theorem revision_foldl (controls : List ControlMode) (host : Host I) :
    (controls.foldl Host.control host).controlRevision = host.controlRevision + controls.length := by
  induction controls generalizing host with
  | nil => rfl
  | cons mode rest ih =>
    rw [foldl_cons, ih]
    have one : (host.control mode).controlRevision = host.controlRevision + 1 := by cases mode <;> rfl
    rw [one, length_cons, Nat.add_assoc, Nat.add_comm 1]

theorem kind_foldl_of_terminating (open_ : scope.settled = false)
    (said : scope.terminating = true → scope.kind ≠ none)
    (ended : (controls.foldl controlScope scope).terminating = true) :
    (controls.foldl controlScope scope).kind ≠ none := by
  induction controls generalizing scope with
  | nil => exact said ended
  | cons mode rest ih =>
    refine ih ?_ ?_ ended
    · cases mode with
      | play | stop | interrupt => exact open_
    · intro ends
      cases mode with
      | play => exact said ends
      | stop | interrupt => simp [controlScope, TurnScope.terminate, open_]

/-- No control came at the await of `_begin_turn`. -/
theorem beginTurn_quiet {host began : Host I} {round : LocalRound}
    (admitted : beginTurn host round = some (began, scope)) :
    began = host ∧ scope.settled = false ∧ scope.terminating = false := by
  obtain ⟨same, admitted⟩ := of_barred admitted
  have quiet : round.beginning = [] := by
    have unmoved := (not_or.1 same).2
    rw [revision_foldl] at unmoved
    exact length_eq_zero_iff.1 (by omega)
  cases admitted
  rw [quiet]
  exact ⟨rfl, rfl, rfl⟩

/-- **A message of the local line** begins its handler in a running room. -/
theorem executeLocalBegins_running {host started : Host I} {round : LocalRound}
    (goes : host.stopped = false) (begun : executeLocalBegins host round = some started) :
    started.stopped = false := by
  unfold executeLocalBegins at begun
  split at begun
  · cases begun
  rename_i began scope admitted
  obtain ⟨rfl, open_, fresh⟩ := beginTurn_quiet admitted
  obtain ⟨prepared, begun⟩ := of_barred begun
  -- only PLAY came while the context was prepared
  have running : (round.preparation.foldl controlScope scope).terminating = false := by
    refine Bool.eq_false_iff.2 ?_
    intro ended
    exact (not_or.1 prepared).2 (kind_foldl_of_terminating open_ (by simp [fresh]) ended)
  exact stopped_beginCycle begun (stopped_foldl_of_running running goes)

/-! ## Attempts -/

/-- How far an attempt comes. -/
inductive Approach (I : Type) where
  | refused
  /-- A control's probe, its original not recognised as a control any more. -/
  | unrecognised
  /-- The handler's task is created, with the room as it is then. -/
  | begun (host : Host I)

/-- The handler is not called for a scope that a control has ended. -/
def Lifecycle.Round.sound (round : Lifecycle.Round I ρ) : Bool :=
  !(round.controlled && round.execution.any fun ended => ended.2 = .declined)

namespace Lifecycle

variable [DecidableEq I] (life : Lifecycle ρ)

/-- `_run_claimed`, up to `execute_delivery`. -/
def approach (batch : List I) (revision : Nat) (control : Bool) (round : Round I ρ)
    (turn : Turn I ρ) : Approach I :=
  match round.beginning with
  | none => .refused
  | some (m, begun) =>
    let turn := { turn with world := turn.world.await life.core batch m }
    if begun = false then .refused
    else
      match life.prepare batch revision control round turn with
      | (.error _, _) => .refused
      | (.ok originals, turn) =>
        match life.admitOriginals batch revision control round originals turn with
        | (.error outcome, _) => if outcome = some .declined then .unrecognised else .refused
        | (.ok _, turn) => if round.controlled then .refused else .begun turn.world.host

/-- `_run_once`, likewise. -/
def approachOnce (batch : List I) (revision : Nat) (control : Bool) (round : Round I ρ)
    (members : List (Candidate I)) (w : World I ρ) : Approach I :=
  match life.screen batch w members round.screening with
  | (.error _, _) => .refused
  | (.ok runnable, w) =>
    if runnable = [] then .refused
    else
      let (acquired, _, w) := life.claim w runnable
      if acquired then life.approach batch revision control round { members := runnable, world := w }
      else .refused

/-- The attempts of one turn, in their order. -/
def approaches (batch : List I) (revision : Nat) (control : Bool) :
    List (Round I ρ) → List (Candidate I) → World I ρ → List (Approach I)
  | [], _, _ => []
  | round :: rounds, current, w =>
    let (outcome, turn, _) := life.runOnce batch revision control round current w
    let approach := life.approachOnce batch revision control round current w
    if outcome ≠ some .advanced then [approach]
    else
      let (again, w) := life.anyRunnable turn.world turn.members
      if again then approach :: approaches batch revision control rounds turn.members w
      else [approach]

variable {life} {batch : List I} {revision : Nat} {control : Bool} {round : Round I ρ}

/-- An admitted attempt, when no control ended its scope: the room as its context left it. -/
theorem admitOriginals_host {originals present : List (Candidate I)} {turn admitted : Turn I ρ}
    (done : life.admitOriginals batch revision control round originals turn = (.ok present, admitted))
    (free : round.controlled = false) :
    ∃ m, round.preparation = some m ∧ m.host = admitted.world.host ∧
      admitted.world.host.controlRevision = revision := by
  unfold admitOriginals at done
  split at done
  · cases done
  dsimp only at done
  split at done
  · cases done
  split at done
  · cases done
  split at done
  · cases done
  split at done
  · cases done
  rename_i m prepared
  split at done
  · cases done
  rename_i same
  cases done
  refine ⟨m, prepared, rfl, ?_⟩
  by_contra moved
  exact same ⟨fun eq => moved eq.symm, free⟩

variable {w : World I ρ} {members : List (Candidate I)} {turn : Turn I ρ} {host : Host I}

/-- **A handler's task** is created at the revision its turn was dispatched at. -/
theorem approach_begun (begun : life.approach batch revision control round turn = .begun host) :
    ∃ m, round.preparation = some m ∧ m.host = host ∧ host.controlRevision = revision := by
  unfold approach at begun
  split at begun
  · cases begun
  dsimp only at begun
  split at begun
  · cases begun
  split at begun
  · cases begun
  split at begun
  · split at begun <;> cases begun
  rename_i admission
  split at begun
  · cases begun
  rename_i free
  cases begun
  exact admitOriginals_host admission (by simpa using free)

theorem approachOnce_begun (begun : life.approachOnce batch revision control round members w = .begun host) :
    ∃ m, round.preparation = some m ∧ m.host = host ∧ host.controlRevision = revision := by
  unfold approachOnce at begun
  split at begun
  · cases begun
  split at begun
  · cases begun
  dsimp only at begun
  split at begun
  · exact approach_begun begun
  · cases begun

theorem approaches_begun {rounds : List (Round I ρ)} {current : List (Candidate I)}
    (mem : .begun host ∈ life.approaches batch revision control rounds current w) :
    ∃ round ∈ rounds, ∃ m, round.preparation = some m ∧ m.host = host ∧ host.controlRevision = revision := by
  induction rounds generalizing current w with
  | nil => cases mem
  | cons round rounds ih =>
    have first : .begun host = life.approachOnce batch revision control round current w →
        ∃ r ∈ round :: rounds, ∃ m, r.preparation = some m ∧ m.host = host ∧
          host.controlRevision = revision := by
      intro begun
      exact ⟨round, mem_cons_self, approachOnce_begun begun.symm⟩
    unfold approaches at mem
    dsimp only at mem
    split at mem
    · exact first (mem_singleton.1 mem)
    split at mem
    · rcases mem_cons.1 mem with here | later
      · exact first here
      · obtain ⟨r, listed, found⟩ := ih later
        exact ⟨r, mem_cons_of_mem _ listed, found⟩
    · exact first (mem_singleton.1 mem)

/-! ### Declined probes -/

omit [DecidableEq I] in
theorem settledOutcome_ne_declined (intent : Option DeliveryStatus) (observed : Bool) (ids : List I)
    (w : World I ρ) : life.settledOutcome intent observed ids w ≠ .declined := by
  unfold settledOutcome
  split
  · split <;> nofun
  · split <;> nofun

theorem prepare_ne_declined : (life.prepare batch revision control round turn).1 ≠ .error (some .declined) := by
  unfold prepare
  split
  · intro declined
    injection declined with outcome
    exact (unadmitted_ne _).2 (some.inj outcome)
  · dsimp only
    split
    · nofun
    · split <;> nofun

theorem execute_declined {originals : List (Candidate I)}
    (declined : (life.execute batch control round originals turn).1 = some .declined) :
    ∃ m, round.execution = some (m, .declined) := by
  unfold execute at declined
  split at declined
  · cases declined
  rename_i m course ran
  cases course with
  | declined => exact ⟨m, ran⟩
  | refused | roomStopped | cancelled => cases declined
  | settled intent interrupted observed failing =>
    dsimp only at declined
    generalize life.sendWrites batch _ _ _ = sent at declined
    cases returned : sent.1 with
    | true =>
      rw [returned, if_pos rfl] at declined
      exact absurd (some.inj declined) (settledOutcome_ne_declined _ _ _ _)
    | false =>
      rw [returned] at declined
      cases declined

/-- The attempt came as far as its handler, or as far as the original it no longer recognised. -/
def Reached (approach : Approach I) : Prop := approach = .unrecognised ∨ ∃ host, approach = .begun host

theorem runClaimed_declined (sound : round.sound = true)
    (declined : (life.runClaimed batch revision control round turn).1 = some .declined) :
    Reached (life.approach batch revision control round turn) := by
  unfold runClaimed at declined
  unfold approach
  cases began : round.beginning with
  | none =>
    rw [began] at declined
    cases declined
  | some beginning =>
    obtain ⟨m, begun⟩ := beginning
    rw [began] at declined
    dsimp only at declined ⊢
    cases begun with
    | false =>
      rw [if_pos rfl] at declined
      exact absurd (some.inj declined) (unadmitted_ne _).2
    | true =>
      simp only [Bool.true_eq_false, if_false] at declined ⊢
      rcases prepared : life.prepare batch revision control round
        { turn with world := turn.world.await life.core batch m } with ⟨outcome | originals, present⟩
      · rw [prepared] at declined
        exact absurd ((congrArg Prod.fst prepared).trans (congrArg Except.error declined)) prepare_ne_declined
      · rw [prepared] at declined
        dsimp only at declined ⊢
        rcases admission : life.admitOriginals batch revision control round originals present with
          ⟨outcome | admitted, later⟩
        · rw [admission] at declined
          dsimp only at declined ⊢
          rw [if_pos declined]
          exact .inl rfl
        · rw [admission] at declined
          dsimp only at declined ⊢
          have ended : (life.execute batch control round admitted later).1 = some .declined := by
            split at declined <;> exact declined
          obtain ⟨m, ran⟩ := execute_declined ended
          have free : round.controlled = false := by simpa [Round.sound, ran] using sound
          rw [free]
          exact .inr ⟨_, rfl⟩

theorem runOnce_declined (sound : round.sound = true)
    (declined : (life.runOnce batch revision control round members w).1 = some .declined) :
    Reached (life.approachOnce batch revision control round members w) := by
  unfold runOnce at declined
  unfold approachOnce
  rcases screening : life.screen batch w members round.screening with ⟨outcome | runnable, later⟩
  · rw [screening] at declined
    exact absurd ((congrArg Prod.fst screening).trans (congrArg Except.error declined))
      (screen_ne (by decide : TurnOutcome.declined ≠ .retryLater) life batch members round.screening w)
  · rw [screening] at declined
    dsimp only at declined ⊢
    split at declined
    · cases declined
    rename_i some_
    rw [if_neg some_]
    split at declined
    · rename_i acquired
      rw [if_pos acquired]
      exact runClaimed_declined sound declined
    · cases declined

/-- **A declined turn** reached its handler, or an original that is no control any more. -/
theorem runFrom_declined {rounds : List (Round I ρ)} (sound : ∀ round ∈ rounds, round.sound = true)
    {current left : List (Candidate I)} (declined : (life.runFrom batch revision control rounds current left w).outcome = some .declined) :
    ∃ approach ∈ life.approaches batch revision control rounds current w, Reached approach := by
  induction rounds generalizing current left w with
  | nil => cases declined
  | cons round rounds ih =>
    unfold runFrom at declined
    unfold approaches
    dsimp only at declined ⊢
    split at declined
    · rename_i other
      rw [if_pos other]
      exact ⟨_, mem_singleton_self _, runOnce_declined (sound round mem_cons_self) declined⟩
    · rename_i advanced
      rw [if_neg advanced]
      split at declined
      · rename_i again
        rw [if_pos again]
        obtain ⟨approach, mem, reached⟩ :=
          ih (fun round mem => sound round (mem_cons_of_mem _ mem)) declined
        exact ⟨approach, mem_cons_of_mem _ mem, reached⟩
      · exact absurd (declined.symm.trans (not_not.1 advanced)) (by simp)

end Lifecycle

end BandSdk.Scheduling

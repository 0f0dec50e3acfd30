/-
# Runtime.Control -- interrupt, stop and play, applied to the rooms they name

`AgentRuntime.handle_control` finds the executions a signal is for, drops a signal
whose correlation id it has seen, and applies the signal to the executions one
after another.  The platform does not deduplicate, so the ids of the last signals
that found a room are kept.

* The id is recorded before the fan-out, and the fan-out awaits foreign code in
  every room: the adapter's `on_control`, or the execution's own `resume_room`.
  Where one of these raises or hangs, the rooms after it are never reached, and a
  redelivery is dropped.
* `Requirements` says what a run of signals owes, `Clear` what a signal must meet
  for the code to pay it, `requirements_iff_clear` that the two agree over every
  run of signals with rooms becoming routed and unrouted between them.
-/
import BandSdk.Theory.Histories
import BandSdk.Theory.Keyed
import Mathlib.Data.List.Induction
import Mathlib.Data.List.Nodup

namespace BandSdk.Runtime.Control

open BandSdk.Theory List

/-! ## Signals and executions -/

/-- `unknown` is any other text of the wire. -/
inductive ControlMode where
  | interrupt
  | stop
  | play
  | unknown

inductive Scope where
  | agent
  | room

structure AgentControlPayload where
  mode : ControlMode
  scope : Scope
  roomId : Option String
  correlationId : Option String

/-- An execution: its own `room_id`, if it has one, and for which modes it has the
method (`interrupt`, `stop_room`, `resume_room`). -/
structure Execution where
  roomId : Option String
  supports : ControlMode → Bool

/-- The executions by room, as the runtime's dictionary has them. -/
abbrev Executions := List (String × Execution)

/-- How a call of foreign code ends. -/
inductive Reply where
  | returns
  | raises
  | hangs
deriving DecidableEq

/-- What foreign code does in one room: the execution's method for the mode, and
the adapter's `on_control`. -/
structure Conduct where
  method : Reply
  onControl : Reply

/-! ## The runtime -/

def maxSeenControlIds : Nat := 256

/-- Whether the signal's id has not been seen, and the ids seen after it. -/
def firstSighting (seen : List String) (payload : AgentControlPayload) : Bool × List String :=
  match payload.correlationId with
  | none => (true, seen)
  | some cid =>
    if cid ∈ seen then (false, seen)
    else (true, if maxSeenControlIds < (seen ++ [cid]).length then (seen ++ [cid]).tail else seen ++ [cid])

def controlTargets (payload : AgentControlPayload) (executions : Executions) : Executions :=
  match payload.roomId, payload.scope with
  | none, .agent => executions
  | none, .room => []
  | some room, _ =>
    match Keyed.get room executions with
    | some execution => [(room, execution)]
    | none => []

/-- One signal in one room.  A method that is missing is skipped; one that raises
takes the call with it, before the adapter is told. -/
def applyControl (onControl : Bool) (mode : ControlMode) (execution : Execution) (conduct : Conduct) : Reply :=
  match mode with
  | .interrupt | .stop =>
    if execution.supports mode ∧ conduct.method ≠ .returns then conduct.method
    else if onControl ∧ execution.roomId.isSome then conduct.onControl
    else .returns
  | .play => if execution.supports mode then conduct.method else .returns
  | .unknown => .returns

/-- The loop over the targets: which were begun, and which of them came to their
end.  What does not return is the last one begun. -/
def fanOut (onControl : Bool) (mode : ControlMode) (conduct : String → Conduct) :
    Executions → Executions × List String
  | [] => ([], [])
  | (room, execution) :: rest =>
    if applyControl onControl mode execution (conduct room) = .returns then
      let others := fanOut onControl mode conduct rest
      ((room, execution) :: others.1, room :: others.2)
    else ([(room, execution)], [])

/-- What came of one signal: its targets, whether it was applied at all, the
targets whose application was begun, and the rooms where it was completed. -/
structure Handled where
  payload : AgentControlPayload
  targets : Executions
  applied : Bool
  begun : Executions
  completed : List String

/-- `onControl` says whether the runtime was given an `on_control`. -/
structure AgentRuntime where
  onControl : Bool
  executions : Executions
  controlIds : List String
  history : List Handled

namespace AgentRuntime

def dropped (payload : AgentControlPayload) (targets : Executions) : Handled :=
  { payload := payload, targets := targets, applied := false, begun := [], completed := [] }

/-- `handle_control`: the id is recorded first, and only where there are targets. -/
def handleControl (runtime : AgentRuntime) (payload : AgentControlPayload) (conduct : String → Conduct) :
    List String × Handled :=
  let targets := controlTargets payload runtime.executions
  let sighting := firstSighting runtime.controlIds payload
  if targets.isEmpty then (runtime.controlIds, dropped payload targets)
  else if !sighting.1 then (runtime.controlIds, dropped payload targets)
  else
    let reached := fanOut runtime.onControl payload.mode conduct targets
    (sighting.2,
      { payload := payload, targets := targets, applied := true, begun := reached.1, completed := reached.2 })

end AgentRuntime

/-- What happens to the runtime: a room becomes routed or unrouted, or a signal is
handled.  A call that hangs ends with its task, before the next signal's turn. -/
inductive Event where
  | routed (room : String) (execution : Execution)
  | unrouted (room : String)
  | control (payload : AgentControlPayload) (conduct : String → Conduct)

def step (runtime : AgentRuntime) : Event → AgentRuntime
  | .routed room execution =>
    { runtime with executions := Keyed.setItem room execution runtime.executions }
  | .unrouted room => { runtime with executions := Keyed.erase room runtime.executions }
  | .control payload conduct =>
    let handled := runtime.handleControl payload conduct
    { runtime with controlIds := handled.1, history := runtime.history ++ [handled.2] }

/-- A runtime's life so far. -/
def run (onControl : Bool) (events : List Event) : AgentRuntime :=
  events.foldl step { onControl := onControl, executions := [], controlIds := [], history := [] }

theorem run_snoc (onControl : Bool) (past : List Event) (event : Event) :
    run onControl (past ++ [event]) = step (run onControl past) event := by
  simp [run]

/-! ## What a run owes -/

/-- The ids of the signals applied so far, in order. -/
def appliedIds (history : List Handled) : List String :=
  (history.filter (·.applied)).filterMap (·.payload.correlationId)

/-- In this room an application of the signal failed, and none has been completed
since. -/
def Owed (history : List Handled) (cid room : String) : Prop :=
  Open (fun handled : Handled => handled.payload.correlationId = some cid ∧ handled.applied = true ∧
      room ∈ handled.targets.map (·.1) ∧ room ∉ handled.completed)
    (fun handled => handled.payload.correlationId = some cid ∧ room ∈ handled.completed) history

/-- **What a run of signals owes.** -/
structure Requirements (history : List Handled) : Prop where
  /-- An interrupt or stop that is applied reaches every execution it is for. -/
  reaches : Along (fun _ handled => handled.applied = true →
    handled.payload.mode = .interrupt ∨ handled.payload.mode = .stop →
    ∀ target ∈ handled.targets, target.2.supports handled.payload.mode = true → target ∈ handled.begun) history
  /-- A signal whose id is among the last distinct ones applied is not applied
  again, but for the rooms where its application failed. -/
  notAgain : Along (fun before handled => ∀ cid, handled.payload.correlationId = some cid →
    cid ∈ recent maxSeenControlIds (appliedIds before) →
    ∀ target ∈ handled.begun, Owed before cid target.1) history
  /-- A signal of which no copy has reached a room applies where there is one. -/
  laterCopy : Along (fun before handled => handled.targets ≠ [] →
    (∀ cid, handled.payload.correlationId = some cid → ∀ earlier ∈ before,
      earlier.payload.correlationId = some cid → earlier.targets = []) →
    handled.applied = true) history
  /-- A signal is not dropped for a room where its application failed. -/
  retried : Along (fun before handled => ∀ cid, handled.payload.correlationId = some cid →
    ∀ target ∈ handled.targets, Owed before cid target.1 → handled.applied = true) history

/-- **What a signal must meet.**  Where it is a first sighting, its application
returns in every room that comes before one with the method; where it is a
redelivery, no room it is for is one its application has failed in. -/
structure Clear (runtime : AgentRuntime) (payload : AgentControlPayload) (conduct : String → Conduct) : Prop where
  first : (firstSighting runtime.controlIds payload).1 = true →
    payload.mode = .interrupt ∨ payload.mode = .stop →
    ∀ before target after, controlTargets payload runtime.executions = before ++ target :: after →
      target.2.supports payload.mode = true → ∀ earlier ∈ before,
        applyControl runtime.onControl payload.mode earlier.2 (conduct earlier.1) = .returns
  again : (firstSighting runtime.controlIds payload).1 = false → ∀ cid, payload.correlationId = some cid →
      ∀ target ∈ controlTargets payload runtime.executions, ¬ Owed runtime.history cid target.1

def ClearAt (runtime : AgentRuntime) : Event → Prop
  | .control payload conduct => Clear runtime payload conduct
  | .routed _ _ | .unrouted _ => True

/-! ## The fan-out -/

section FanOut

variable {onControl : Bool} {mode : ControlMode} {conduct : String → Conduct} {targets : Executions}

/-- Either every target is applied, or the loop ends with the first that does not
return. -/
theorem fanOut_cases :
    (fanOut onControl mode conduct targets = (targets, targets.map (·.1)) ∧
      ∀ target ∈ targets, applyControl onControl mode target.2 (conduct target.1) = .returns) ∨
    ∃ before last after, targets = before ++ last :: after ∧
      fanOut onControl mode conduct targets = (before ++ [last], before.map (·.1)) ∧
      (∀ target ∈ before, applyControl onControl mode target.2 (conduct target.1) = .returns) ∧
      applyControl onControl mode last.2 (conduct last.1) ≠ .returns := by
  induction targets with
  | nil => exact .inl ⟨rfl, by simp⟩
  | cons first rest ih =>
    by_cases returns : applyControl onControl mode first.2 (conduct first.1) = .returns
    · have here : fanOut onControl mode conduct (first :: rest) =
          (first :: (fanOut onControl mode conduct rest).1,
            first.1 :: (fanOut onControl mode conduct rest).2) := if_pos returns
      rcases ih with ⟨all, returned⟩ | ⟨before, last, after, split, stopped, returned, fails⟩
      · exact .inl ⟨by rw [here, all]; rfl, forall_mem_cons.2 ⟨returns, returned⟩⟩
      · refine .inr ⟨first :: before, last, after, by rw [split]; rfl, by rw [here, stopped]; rfl, ?_, fails⟩
        exact forall_mem_cons.2 ⟨returns, returned⟩
    · exact .inr ⟨[], first, rest, rfl, if_neg returns, by simp, returns⟩

theorem fanOut_reaches_iff (onControl : Bool) (mode : ControlMode) (conduct : String → Conduct)
    (distinct : (targets.map (·.1)).Nodup) (wanted : Execution → Prop) :
    (∀ target ∈ targets, wanted target.2 → target ∈ (fanOut onControl mode conduct targets).1) ↔
      ∀ before target after, targets = before ++ target :: after → wanted target.2 →
        ∀ earlier ∈ before, applyControl onControl mode earlier.2 (conduct earlier.1) = .returns := by
  rcases fanOut_cases with ⟨all, returned⟩ | ⟨before, last, after, cut, stopped, returned, fails⟩
  · rw [all]
    refine iff_of_true (fun target member _ => member) fun before target after split _ earlier member => ?_
    exact returned earlier (by simp [split, member])
  · rw [stopped]
    constructor
    · intro reaches front target back split wants earlier member
      have begun := reaches target (by simp [split]) wants
      rcases split_cases (split.symm.trans cut) with ⟨between, rfl⟩ | ⟨rfl, -⟩ | ⟨between, rfl⟩
      · exact returned earlier (by simp [member])
      · exact returned earlier member
      -- the target stands after the one that did not return
      rw [split, map_append, map_cons] at distinct
      have apart := (nodup_middle.1 distinct).notMem
      have inside : target ∈ before ++ last :: between := by
        rcases mem_append.1 begun with early | same
        · simp [early]
        · simp [mem_singleton.1 same]
      exact absurd (mem_append_left _ (mem_map_of_mem inside)) apart
    · intro returns target member wants
      obtain ⟨front, back, split⟩ := append_of_mem member
      rcases split_cases (split.symm.trans cut) with ⟨between, rfl⟩ | ⟨rfl, rfl⟩ | ⟨between, rfl⟩
      · simp
      · simp
      · exact absurd (returns _ target back split wants last (by simp)) fails

end FanOut

/-! ## One signal -/

theorem controlTargets_nodup (payload : AgentControlPayload) {executions : Executions}
    (distinct : (executions.map (·.1)).Nodup) : ((controlTargets payload executions).map (·.1)).Nodup := by
  unfold controlTargets
  split
  · exact distinct
  · simp
  · split <;> simp

variable {runtime : AgentRuntime} {payload : AgentControlPayload} {conduct : String → Conduct}

/-- A signal is dropped, or applied to targets that are there. -/
theorem handleControl_cases (runtime : AgentRuntime) (payload : AgentControlPayload) (conduct : String → Conduct) :
    ((controlTargets payload runtime.executions = [] ∨ (firstSighting runtime.controlIds payload).1 = false) ∧
      runtime.handleControl payload conduct =
        (runtime.controlIds, AgentRuntime.dropped payload (controlTargets payload runtime.executions))) ∨
    (controlTargets payload runtime.executions ≠ [] ∧ (firstSighting runtime.controlIds payload).1 = true ∧
      runtime.handleControl payload conduct = ((firstSighting runtime.controlIds payload).2,
        { payload := payload, targets := controlTargets payload runtime.executions, applied := true
          begun := (fanOut runtime.onControl payload.mode conduct
            (controlTargets payload runtime.executions)).1
          completed := (fanOut runtime.onControl payload.mode conduct
            (controlTargets payload runtime.executions)).2 })) := by
  unfold AgentRuntime.handleControl
  cases targets : controlTargets payload runtime.executions with
  | nil => exact .inl ⟨.inl rfl, rfl⟩
  | cons first rest =>
    cases sighting : (firstSighting runtime.controlIds payload).1 with
    | false => exact .inl ⟨.inr rfl, by simp [sighting]⟩
    | true => exact .inr ⟨by simp, rfl, by simp [sighting]⟩

theorem firstSighting_false : (firstSighting runtime.controlIds payload).1 = false ↔
    ∃ cid, payload.correlationId = some cid ∧ cid ∈ runtime.controlIds := by
  cases given : payload.correlationId with
  | none => simp [firstSighting, given]
  | some cid => by_cases seen : cid ∈ runtime.controlIds <;> simp [firstSighting, given, seen]

/-- What holds of the runtime between two events. -/
structure Sound (runtime : AgentRuntime) : Prop where
  ids : runtime.controlIds = recent maxSeenControlIds (appliedIds runtime.history)
  distinct : (runtime.executions.map (·.1)).Nodup
  found : ∀ handled ∈ runtime.history, handled.applied = true → handled.targets ≠ []

theorem appliedIds_snoc (history : List Handled) (handled : Handled) :
    appliedIds (history ++ [handled]) =
      appliedIds history ++ if handled.applied then handled.payload.correlationId.toList else [] := by
  cases applied : handled.applied with
  | false => simp [appliedIds, applied]
  | true => cases id : handled.payload.correlationId <;> simp [appliedIds, applied, id]

theorem Sound.control (sound : Sound runtime) : Sound (step runtime (.control payload conduct)) := by
  simp only [step]
  rcases handleControl_cases runtime payload conduct with ⟨-, same⟩ | ⟨some_, first, applies⟩
  · rw [same]
    refine ⟨?_, sound.distinct, fun handled member applied => ?_⟩
    · rw [appliedIds_snoc]
      simpa [AgentRuntime.dropped] using sound.ids
    · rcases mem_append.1 member with old | new
      · exact sound.found handled old applied
      · rw [mem_singleton.1 new] at applied
        cases applied
  · rw [applies]
    refine ⟨?_, sound.distinct, fun handled member applied => ?_⟩
    · rw [appliedIds_snoc, if_pos rfl]
      cases given : payload.correlationId with
      | none =>
        simp only [firstSighting, given, Option.toList_none, append_nil]
        exact sound.ids
      | some cid =>
        have new : cid ∉ runtime.controlIds := by
          intro seen
          have again := firstSighting_false.2 ⟨cid, given, seen⟩
          rw [first] at again
          cases again
        have shifted := recent_snoc (sound.ids ▸ new)
        rw [← sound.ids] at shifted
        simp only [firstSighting, given, if_neg new, Option.toList_some, shifted]
    · rcases mem_append.1 member with old | new
      · exact sound.found handled old applied
      · rw [mem_singleton.1 new]
        exact some_

theorem sound_run (onControl : Bool) (events : List Event) : Sound (run onControl events) := by
  induction events using reverseRecOn with
  | nil => exact ⟨by simp [run, recent, appliedIds], nodup_nil, by simp [run]⟩
  | append_singleton past event ih =>
    rw [run_snoc]
    cases event with
    | routed room execution => exact ⟨ih.ids, Keyed.nodup_setItem ih.distinct, ih.found⟩
    | unrouted room => exact ⟨ih.ids, Keyed.nodup_erase ih.distinct, ih.found⟩
    | control payload conduct => exact ih.control

/-- A history meets the requirements signal by signal. -/
theorem requirements_snoc {history : List Handled} {handled : Handled} :
    Requirements (history ++ [handled]) ↔ Requirements history ∧
      (handled.applied = true → handled.payload.mode = .interrupt ∨ handled.payload.mode = .stop →
        ∀ target ∈ handled.targets, target.2.supports handled.payload.mode = true → target ∈ handled.begun) ∧
      (∀ cid, handled.payload.correlationId = some cid → cid ∈ recent maxSeenControlIds (appliedIds history) →
        ∀ target ∈ handled.begun, Owed history cid target.1) ∧
      (handled.targets ≠ [] → (∀ cid, handled.payload.correlationId = some cid → ∀ earlier ∈ history,
        earlier.payload.correlationId = some cid → earlier.targets = []) → handled.applied = true) ∧
      (∀ cid, handled.payload.correlationId = some cid →
        ∀ target ∈ handled.targets, Owed history cid target.1 → handled.applied = true) := by
  constructor
  · rintro ⟨reaches, notAgain, laterCopy, retried⟩
    have reaches := along_snoc.1 reaches
    have notAgain := along_snoc.1 notAgain
    have laterCopy := along_snoc.1 laterCopy
    have retried := along_snoc.1 retried
    exact ⟨⟨reaches.1, notAgain.1, laterCopy.1, retried.1⟩, reaches.2, notAgain.2, laterCopy.2, retried.2⟩
  · rintro ⟨⟨reaches, notAgain, laterCopy, retried⟩, one, two, three, four⟩
    exact ⟨along_snoc.2 ⟨reaches, one⟩, along_snoc.2 ⟨notAgain, two⟩, along_snoc.2 ⟨laterCopy, three⟩,
      along_snoc.2 ⟨retried, four⟩⟩

/-- The ids kept are those of applied signals, which had targets. -/
theorem Sound.found_copy (sound : Sound runtime) {cid : String} (seen : cid ∈ runtime.controlIds) :
    ∃ earlier ∈ runtime.history, earlier.payload.correlationId = some cid ∧ earlier.targets ≠ [] := by
  rw [sound.ids] at seen
  obtain ⟨earlier, member, id⟩ := mem_filterMap.1 (mem_of_mem_recent seen)
  obtain ⟨inside, applied⟩ := mem_filter.1 member
  exact ⟨earlier, inside, id, sound.found earlier inside applied⟩

/-- What the signal adds to the history is what it owes exactly when it is clear. -/
theorem Sound.requirements_control (sound : Sound runtime) :
    Requirements (step runtime (.control payload conduct)).history ↔
      Requirements runtime.history ∧ Clear runtime payload conduct := by
  simp only [step]
  rw [requirements_snoc]
  refine and_congr_right fun _ => ?_
  rcases handleControl_cases runtime payload conduct with ⟨why, same⟩ | ⟨some_, first, applies⟩
  · rw [same]
    constructor
    · rintro ⟨-, -, -, retried⟩
      refine ⟨fun first _ before target after split => ?_, fun _ cid given target member owed => ?_⟩
      · rcases why with empty | seen
        · rw [empty] at split
          cases before <;> cases split
        · rw [first] at seen
          cases seen
      · cases retried cid given target member owed
    · intro clear
      refine ⟨nofun, fun _ _ _ _ => nofun, fun targets copies => ?_, fun cid given target member owed => ?_⟩
      · obtain ⟨cid, given, seen⟩ := firstSighting_false.1 (why.resolve_left targets)
        obtain ⟨earlier, inside, id, reached⟩ := sound.found_copy seen
        exact absurd (copies cid given earlier inside id) reached
      · rcases why with empty | seen
        · exact absurd (empty ▸ member) not_mem_nil
        · exact absurd owed (clear.again seen cid given target member)
  · rw [applies]
    have reaches := fanOut_reaches_iff runtime.onControl payload.mode conduct
      (controlTargets_nodup payload sound.distinct) fun execution => execution.supports payload.mode = true
    constructor
    · rintro ⟨reached, -⟩
      refine ⟨fun _ mode => reaches.1 (reached rfl mode), fun seen => ?_⟩
      rw [first] at seen
      cases seen
    · intro clear
      refine ⟨fun _ mode => reaches.2 (clear.first first mode), fun cid given seen => ?_, fun _ _ => rfl,
        fun _ _ _ _ _ => rfl⟩
      have again := firstSighting_false.2 ⟨cid, given, sound.ids ▸ seen⟩
      rw [first] at again
      cases again

/-- **Control signals.**  Over every run of signals, with rooms becoming routed and
unrouted between them, what the run owes is paid exactly when each signal is clear
at its turn. -/
theorem requirements_iff_clear (onControl : Bool) (events : List Event) :
    Requirements (run onControl events).history ↔
      Along (fun past event => ClearAt (run onControl past) event) events := by
  induction events using reverseRecOn with
  | nil => exact ⟨fun _ => Along.nil, fun _ => ⟨Along.nil, Along.nil, Along.nil, Along.nil⟩⟩
  | append_singleton past event ih =>
    rw [run_snoc, along_snoc, ← ih]
    cases event with
    | routed room execution | unrouted room => exact (and_iff_left trivial).symm
    | control payload conduct => exact (sound_run onControl past).requirements_control

/-- A stop for all rooms, of which the adapter's callback raises in the first: the
second room is not reached, and the redelivered stop is dropped. -/
theorem stop_lost_after_failure :
    let stop : AgentControlPayload := ⟨.stop, .agent, none, some "c-1"⟩
    let conduct := fun room : String => Conduct.mk .returns (if room = "room-1" then .raises else .returns)
    let events := [Event.routed "room-1" ⟨some "room-1", fun _ => true⟩,
      .routed "room-2" ⟨some "room-2", fun _ => true⟩, .control stop conduct, .control stop conduct]
    let history := (run true events).history
    history.map (fun handled => (handled.applied, handled.begun.map (·.1), handled.completed)) =
        [(true, ["room-1"], []), (false, [], [])] ∧
      ¬ Requirements history := by
  refine ⟨by decide +kernel, fun requirements => ?_⟩
  have reached := requirements.reaches [] _ _ rfl rfl (.inr rfl) ("room-2", ⟨some "room-2", fun _ => true⟩)
    (.tail _ (.head _)) rfl
  exact absurd (mem_map_of_mem (f := Prod.fst) reached) (by decide +kernel)

end BandSdk.Runtime.Control

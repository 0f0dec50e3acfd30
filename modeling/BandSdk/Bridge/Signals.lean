/-
# Bridge.Signals -- control signals, applied to the forwards of an agent

`ControlSignalHandler.handle` remembers a signal's id before it asks for the agent's rooms,
and `_fetch_existing_rooms` answers a failure with no rooms.  So a stop whose rooms could
not be listed counts as handled, and one whose rooms were listed reaches only the rooms of
that listing, not those that own work.
-/
import BandSdk.Runtime.Control

namespace BandSdk.Bridge

open BandSdk.Theory BandSdk.Runtime.Control List

/-- An accepted task of `RoomForwards` that has not settled, and its room. -/
structure Forward where
  task : Nat
  room : Option String
deriving DecidableEq

/-- One signal: what the listing of the rooms gave (`none` where it raised), the unsettled
forwards when it was applied, those it cancelled, and whether it put its id among those seen. -/
structure Handled where
  payload : AgentControlPayload
  listing : Option (List String)
  unsettled : List Forward
  cancelled : List Forward
  recorded : Bool

structure AgentRunner where
  forwards : List Forward := []
  seenControlIds : List String := []
  history : List Handled := []

namespace AgentRunner

variable (runner : AgentRunner)

/-- The first page of the rooms; a failure is logged and gives none. -/
def fetchExistingRooms (listing : Option (List String)) : List String := listing.getD []

def resolveRooms (payload : AgentControlPayload) (listing : Option (List String)) : Option (List String) :=
  match payload.roomId, payload.scope with
  | some room, _ => some [room]
  | none, .agent => some (fetchExistingRooms listing)
  | none, .room => none

/-- `_cancel_active_forward`. -/
def cancelActiveForward (room : String) : List Forward := runner.forwards.filter (·.room = some room)

/-- The forwards that a signal with these rooms cancels; a play nudges instead. -/
def apply (mode : ControlMode) (rooms : List String) : List Forward :=
  match mode with
  | .interrupt | .stop => rooms.flatMap runner.cancelActiveForward
  | .play | .unknown => []

/-- `handle`.  Signals come one at a time and nothing else touches the ids, so the duplicate
check can stand where the listing ends. -/
def handle (payload : AgentControlPayload) (listing : Option (List String)) : AgentRunner :=
  let sighting := firstSighting runner.seenControlIds payload
  let cancelled :=
    if sighting.1 then
      match resolveRooms payload listing with
      | none => []
      | some rooms => runner.apply payload.mode rooms
    else []
  { runner with
    seenControlIds := sighting.2
    history := runner.history ++ [{
      payload := payload, listing := listing, unsettled := runner.forwards, cancelled := cancelled
      recorded := payload.correlationId.any (· ∉ runner.seenControlIds) }] }

end AgentRunner

inductive Event where
  | accepted (forward : Forward)
  | settled (forward : Forward)
  | control (payload : AgentControlPayload) (listing : Option (List String))

def step (runner : AgentRunner) : Event → AgentRunner
  | .accepted forward => { runner with forwards := runner.forwards ++ [forward] }
  | .settled forward => { runner with forwards := runner.forwards.erase forward }
  | .control payload listing => runner.handle payload listing

def run (events : List Event) : AgentRunner := events.foldl step {}

/-- An interrupt or stop for all of the agent's rooms. -/
def StopsAgent (payload : AgentControlPayload) : Prop :=
  payload.roomId = none ∧ payload.scope = .agent ∧ (payload.mode = .interrupt ∨ payload.mode = .stop)

/-- No copy of the signal has been applied: of every earlier one the rooms were unknown. -/
def Unapplied (before : List Handled) (payload : AgentControlPayload) : Prop :=
  ∀ cid, payload.correlationId = some cid → ∀ earlier ∈ before, earlier.payload.correlationId = some cid →
      earlier.payload.roomId = none ∧ earlier.payload.scope = .agent ∧ earlier.listing = none

/-- **What an interrupt or stop of the agent owes**, given the signals before it. -/
structure Honored (before : List Handled) (handled : Handled) : Prop where
  cancels : StopsAgent handled.payload → handled.listing ≠ none → Unapplied before handled.payload →
    ∀ forward ∈ handled.unsettled, forward ∈ handled.cancelled
  unrecorded : StopsAgent handled.payload → handled.listing = none → handled.recorded = false

/-- **What it must meet.**  Rooms are listed, they are all that own work, and the id is not among those
seen; or they are not listed, and there is no id to put there. -/
def Met (runner : AgentRunner) : Event → Prop
  | .control payload listing => StopsAgent payload →
    match listing with
    | some rooms => Unapplied runner.history payload → ∀ forward ∈ runner.forwards,
        (firstSighting runner.seenControlIds payload).1 = true ∧ ∃ room ∈ rooms, forward.room = some room
    | none => ∀ cid, payload.correlationId = some cid → cid ∈ runner.seenControlIds
  | .accepted _ | .settled _ => True

variable {runner : AgentRunner} {payload : AgentControlPayload} {rooms : List String}

theorem mem_apply {forward : Forward} (stops : payload.mode = .interrupt ∨ payload.mode = .stop) :
    forward ∈ runner.apply payload.mode rooms ↔
      forward ∈ runner.forwards ∧ ∃ room ∈ rooms, forward.room = some room := by
  have same : runner.apply payload.mode rooms = rooms.flatMap runner.cancelActiveForward := by
    rcases stops with mode | mode <;> rw [mode] <;> rfl
  simp only [same, mem_flatMap, AgentRunner.cancelActiveForward, mem_filter, decide_eq_true_eq]
  exact ⟨fun ⟨room, listed, held, its⟩ => ⟨held, room, listed, its⟩,
    fun ⟨held, room, listed, its⟩ => ⟨room, listed, held, its⟩⟩

/-- One signal adds to the history what it owes exactly when it meets the condition. -/
theorem handle_honored_iff (listing : Option (List String)) :
    Along Honored (runner.handle payload listing).history ↔
      Along Honored runner.history ∧ Met runner (.control payload listing) := by
  rw [AgentRunner.handle, along_snoc]
  refine and_congr_right fun _ => ?_
  cases listing with
  | none =>
    constructor
    · intro honored stops cid given
      simpa [given] using honored.unrecorded stops rfl
    · intro met
      refine ⟨fun _ some_ => absurd rfl some_, fun stops _ => ?_⟩
      cases given : payload.correlationId with
      | none => rfl
      | some cid => simpa using met stops cid given
  | some rooms =>
    have resolved : ∀ stops : StopsAgent payload,
        AgentRunner.resolveRooms payload (some rooms) = some rooms := by
      rintro ⟨room, scope, -⟩
      rw [AgentRunner.resolveRooms, room, scope]
      rfl
    constructor
    · intro honored stops new forward held
      have mem := honored.cancels stops nofun new forward held
      simp only [resolved stops] at mem
      split at mem
      · exact ⟨‹_›, ((mem_apply stops.2.2).1 mem).2⟩
      · cases mem
    · intro met
      refine ⟨fun stops _ new forward held => ?_, nofun⟩
      obtain ⟨first, listed⟩ := met stops new forward held
      simp only [resolved stops, first, if_true]
      exact (mem_apply stops.2.2).2 ⟨held, listed⟩

/-- **Control signals of a bridge.**  Over every run of signals, with forwards accepted and settled
between them, each stop of the agent pays what it owes exactly when each meets the condition. -/
theorem honored_iff_met (events : List Event) :
    Along Honored (run events).history ↔ Along (fun past event => Met (run past) event) events := by
  induction events using reverseRecOn with
  | nil => exact ⟨fun _ => Along.nil, fun _ => Along.nil⟩
  | append_singleton past event ih =>
    rw [run, foldl_append, ← run, along_snoc, ← ih]
    cases event with
    | accepted forward | settled forward => exact (and_iff_left trivial).symm
    | control payload listing => exact handle_honored_iff listing

/-- A stop whose rooms cannot be listed is remembered, and its copy is dropped while a forward runs. -/
theorem stop_lost_after_failed_listing :
    let stop : AgentControlPayload := ⟨.stop, .agent, none, some "c-1"⟩
    let history := (run [.accepted ⟨0, some "room-1"⟩, .control stop none,
      .control stop (some ["room-1"])]).history
    history.map (fun handled => (handled.cancelled, handled.recorded)) = [([], true), ([], false)] ∧
      ¬ Along Honored history := by
  refine ⟨by decide +kernel, fun along => ?_⟩
  have unrecorded := (along [] _ _ rfl).unrecorded ⟨rfl, rfl, .inr rfl⟩ rfl
  exact absurd unrecorded (by decide +kernel)

end BandSdk.Bridge

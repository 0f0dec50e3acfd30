/-
# Scheduling.Passes -- what holds of a pass, however controls interleave with it

`Watched` is the scheduler with the controls' handlers under way (`offer_control`
awaits one, and a handler that outlived its turn may answer in a later pass) and
the log of its pass: what it recognised, dispatched, offered, and where a priority
control advanced.  `Agrees` is what the pass's memory says of that log.

* A message handler begins only in a running room.
* A decline is remembered in the pass and revision its control was probed in.
* A recognised control is not batched later in its pass and revision.
* A selection runs once until a priority control advances.
-/
import BandSdk.Theory.Histories
import BandSdk.Scheduling.Stops
import BandSdk.Scheduling.Calls

namespace BandSdk.Scheduling

open BandSdk.Theory BandSdk.Turns List Option Scheduler

variable {I ρ C : Type}

inductive Entry (I : Type) where
  /-- A candidate was classified as a control. -/
  | recognised (revision : Nat) (identity : I)
  | dispatched (key : DispatchKey I)
  /-- A control's handler was offered its original. -/
  | offered (revision : Nat) (identity : I)
  /-- A control's probe no longer recognised its original. -/
  | unrecognised (revision : Nat) (identity : I)
  /-- A priority control advanced. -/
  | advanced

/-- A turn over several messages, one of them `identity`. -/
def Entry.Batches (revision : Nat) (identity : I) (entry : Entry I) : Prop :=
  ∃ key, entry = .dispatched key ∧ key.revision = revision ∧ identity ∈ key.identities ∧
    1 < key.identities.length

/-- A control's handler under way, with what `offer_control` captured before it. -/
structure Offering (I : Type) where
  /-- The pass, if one was open. -/
  pass : Option Nat
  revision : Nat
  identity : I

/-- Every await of the step left the room as its controls did. -/
structure Answers.Heeds (controls : Nat → ControlMode) (answers : Answers I ρ C) : Prop where
  read : ∀ read, answers.read = some read → read.meanwhile.host.Heeds controls
  controlTurn : ∀ round ∈ answers.controlTurn, Lifecycle.Round.Allowed (fun m => m.host.Heeds controls) round
  turn : ∀ round ∈ answers.turn, Lifecycle.Round.Allowed (fun m => m.host.Heeds controls) round

section Observed

variable [LinearOrder I] (room : Settings ρ)

namespace Scheduler

variable (s : Scheduler I ρ C) (members : List (Candidate I)) (answers : Answers I ρ C)

/-- The attempts of a dispatch's probe. -/
def probeApproaches : List (Approach I) :=
  if s.probes members then
    room.life.approaches (members.map Candidate.messageId) s.world.host.controlRevision true
      answers.controlTurn members s.world
  else []

/-- The attempts of its ordinary turn. -/
def turnApproaches (priority : Bool) : List (Approach I) :=
  let revision := s.world.host.controlRevision
  let probed := room.life.run members revision true answers.controlTurn s.world
  if s.probes members = false then
    room.life.approaches (members.map Candidate.messageId) revision false answers.turn members s.world
  else if probed.outcome = some .declined ∧ priority = false then
    room.life.approaches (members.map Candidate.messageId) revision false answers.turn members
      probed.world
  else []

/-- What an attempt of a probe says of its control. -/
def probeEntry (identity : I) : Approach I → Option (Entry I)
  | .refused => none
  | .unrecognised => some (.unrecognised s.world.host.controlRevision identity)
  | .begun host => some (.offered host.controlRevision identity)

def probeEntries : List (Entry I) :=
  members.head?.elim [] fun c =>
    (s.probeApproaches room members answers).filterMap (s.probeEntry c.messageId)

end Scheduler

/-- The handlers a call begins for messages, with the room as each begins. -/
def Call.Begins (answers : Answers I ρ C) : Call I ρ C → Host I → Prop
  | .ended _, _ => False
  | .localEvent event s, host =>
    event.isMessage = true ∧ s.world.host.stopped = false ∧
      ∃ round, executeLocalBegins s.world.host round = some host
  | .turn members priority s, host =>
    s.admits members priority = true ∧ ∃ task controls, .begun task ∈ s.probeApproaches room members answers ++
          s.turnApproaches room members answers priority ∧
        beginCycle ({ phase := .admitted } : TurnScope I) task controls = some host

/-- What the call does, for the log. -/
def Call.entries (answers : Answers I ρ C) : Call I ρ C → List (Entry I)
  | .ended _ | .localEvent _ _ => []
  | .turn members priority s =>
    if s.admits members priority then
      .dispatched (s.dispatchKey members priority) :: (s.probeEntries room members answers ++
        if priority = true ∧ (s.dispatch room members priority answers).1.2 = some .advanced then
          [.advanced] else [])
    else []

/-- What one step does: the controls it recognises, then its call. -/
def Scheduler.entries (s : Scheduler I ρ C) (answers : Answers I ρ C) : List (Entry I) :=
  ((s.call room answers).scheduler.active.controlBoundaries.drop
      s.active.controlBoundaries.length).map (fun boundary => .recognised boundary.1 boundary.2) ++
    (s.call room answers).entries room answers

structure Watched (I ρ C : Type) where
  scheduler : Scheduler I ρ C
  /-- Passes opened so far; the last is the current one while it runs. -/
  passes : Nat := 0
  offers : List (Offering I) := []
  log : List (Entry I) := []

inductive WatchedEvent (I ρ C : Type) where
  | scheduler (event : SchedulerEvent I ρ C)
  /-- `offer_control` reaches its handler, with the room at `revision`. -/
  | offer (revision : Nat) (identity : I)
  /-- A handler returns, with the room at `revision`. -/
  | answer (index revision : Nat) (handled : Bool)

namespace Watched

variable (w : Watched I ρ C)

def currentPass : Option Nat := w.scheduler.passing.map fun _ => w.passes

/-- `record_decline`, for the pass the offer captured. -/
def recordDecline (offering : Offering I) (revision : Nat) : Watched I ρ C :=
  if offering.pass.isSome ∧ offering.pass = w.currentPass ∧ offering.revision = revision then
    { w with scheduler := { w.scheduler with active := { w.scheduler.active with
      declined := w.scheduler.active.declined ++ [(offering.revision, offering.identity)] } } }
  else w

def react : WatchedEvent I ρ C → Option (Watched I ρ C)
  | .scheduler (.iterate answers) =>
    if answers.controlTurn.all Lifecycle.Round.sound then
      (w.scheduler.react room (.iterate answers)).map fun s =>
        { w with scheduler := s, log := w.log ++ w.scheduler.entries room answers }
    else none
  | .scheduler (.begin recovery gate writes) =>
    (w.scheduler.react room (.begin recovery gate writes)).map fun s =>
      { w with scheduler := s, passes := w.passes + 1, log := [] }
  | .scheduler event => (w.scheduler.react room event).map fun s => { w with scheduler := s }
  | .offer revision identity =>
    if w.currentPass.isSome ∧ (revision, identity) ∈ w.scheduler.active.declined then none
    else
      some { w with
        offers := w.offers ++ [{ pass := w.currentPass, revision := revision, identity := identity }]
        log := if w.currentPass.isSome then w.log ++ [.offered revision identity] else w.log }
  | .answer index revision handled =>
    w.offers[index]?.map fun offering =>
      let w := { w with offers := w.offers.eraseIdx index }
      if handled then w else w.recordDecline offering revision

end Watched

/-- The runs of one room's scheduler, its controls' handlers beside it. -/
def watching : Machine (Watched I ρ C) (WatchedEvent I ρ C) where
  init w := (scheduling room).init w.scheduler ∧ w.passes = 0 ∧ w.offers = [] ∧ w.log = []
  step w event := w.react room event

end Observed

/-! ## The stop gate -/

section Gate

variable [LinearOrder I] {room : Settings ρ} {s : Scheduler I ρ C} {answers : Answers I ρ C}
  {controls : Nat → ControlMode}

theorem begun_running {members : List (Candidate I)} {priority : Bool} {task : Host I}
    (heeds : s.world.host.Heeds controls) (awaited : answers.Heeds controls)
    (admitted : s.admits members priority = true)
    (begun : .begun task ∈ s.probeApproaches room members answers ++
      s.turnApproaches room members answers priority) : task.stopped = false := by
  have goes : s.world.host.stopped = false := by
    simp only [admits, Bool.and_eq_true, Bool.not_eq_true'] at admitted
    exact admitted.1.1
  have made : ∃ m : Meanwhile I ρ, m.host.Heeds controls ∧ m.host = task ∧
      task.controlRevision = s.world.host.controlRevision := by
    rcases mem_append.1 begun with probe | turn
    · unfold probeApproaches at probe
      split at probe
      · obtain ⟨round, mem, m, prepared, same, revision⟩ := Lifecycle.approaches_begun probe
        exact ⟨m, (awaited.controlTurn round mem).preparation m prepared, same, revision⟩
      · cases probe
    · unfold turnApproaches at turn
      dsimp only at turn
      split at turn
      · obtain ⟨round, mem, m, prepared, same, revision⟩ := Lifecycle.approaches_begun turn
        exact ⟨m, (awaited.turn round mem).preparation m prepared, same, revision⟩
      · split at turn
        · obtain ⟨round, mem, m, prepared, same, revision⟩ := Lifecycle.approaches_begun turn
          exact ⟨m, (awaited.turn round mem).preparation m prepared, same, revision⟩
        · cases turn
  obtain ⟨m, follows, rfl, revision⟩ := made
  rw [follows, revision, ← heeds]
  exact goes

/-- **The stop gate.**  A message handler begins only in a running room. -/
theorem begins_running {host : Host I} (heeds : s.world.host.Heeds controls)
    (awaited : answers.Heeds controls) (begins : (s.call room answers).Begins room answers host) :
    host.stopped = false := by
  have surveyed := surveyed_call (P := Host.Heeds controls) room s answers awaited.read
  cases called : s.call room answers with
  | ended t =>
    rw [called] at begins
    exact begins.elim
  | localEvent event t =>
    rw [called] at begins
    obtain ⟨-, goes, round, begun⟩ := begins
    exact executeLocalBegins_running goes begun
  | turn members priority t =>
    rw [called] at begins surveyed
    obtain ⟨admitted, task, arrived, begun, cycle⟩ := begins
    exact stopped_beginCycle cycle (begun_running (surveyed.host heeds) awaited admitted begun)

theorem call_stopped (stopped : s.world.host.stopped = true) :
    s.call room answers = .ended s ∨
      ∃ event, s.call room answers = .localEvent event s ∧ event.isMessage = false := by
  unfold call
  dsimp only
  rw [stopped, Bool.or_true, if_pos rfl]
  cases found : s.housekeeping with
  | none => exact .inl (if_pos rfl)
  | some event => exact .inr ⟨event, rfl, by simpa using List.find?_some found⟩

end Gate

/-! ## What the memory says of the log -/

/-- What the pass remembers agrees with what it did. -/
structure Agrees (memory : Memory I) (log : List (Entry I)) : Prop where
  declined : ∀ revision identity, (revision, identity) ∈ memory.declined →
    .offered revision identity ∈ log ∨ .unrecognised revision identity ∈ log
  recognised : ∀ revision identity, .recognised revision identity ∈ log →
    (revision, identity) ∈ memory.controlBoundaries
  batches : ∀ revision identity,
    Guarded (· = .recognised revision identity) (fun _ => False) (Entry.Batches revision identity) log
  selected : ∀ key, Open (· = .dispatched key) (· = .advanced) log → key ∈ memory.selections
  once : ∀ key, Guarded (· = .dispatched key) (· = .advanced) (· = .dispatched key) log

namespace Agrees

variable {memory : Memory I} {log : List (Entry I)}

theorem fresh : Agrees ⟨[], [], []⟩ ([] : List (Entry I)) where
  declined _ _ := nofun
  recognised _ _ := nofun
  batches _ _ := .nil
  selected _ standing := (Open.nil standing).elim
  once _ := .nil

section

variable (agrees : Agrees memory log)
include agrees

/-- Entries that say nothing of recognitions, dispatches or advances. -/
theorem noted {more : List (Entry I)}
    (quiet : ∀ entry ∈ more, (∃ revision identity, entry = .offered revision identity) ∨
      ∃ revision identity, entry = .unrecognised revision identity) : Agrees memory (log ++ more) where
  declined revision identity mem :=
    (agrees.declined revision identity mem).imp (mem_append_left _) (mem_append_left _)
  recognised revision identity mem := by
    rcases mem_append.1 mem with before | later
    · exact agrees.recognised revision identity before
    · rcases quiet _ later with ⟨_, _, eq⟩ | ⟨_, _, eq⟩ <;> cases eq
  batches revision identity := by
    refine (agrees.batches revision identity).append_none ?_
    rintro entry mem ⟨key, rfl, -⟩
    rcases quiet _ mem with ⟨_, _, eq⟩ | ⟨_, _, eq⟩ <;> cases eq
  selected key standing := by
    by_contra forgotten
    refine Open.append_none (fun before => forgotten (agrees.selected key before)) ?_ standing
    rintro entry mem rfl
    rcases quiet _ mem with ⟨_, _, eq⟩ | ⟨_, _, eq⟩ <;> cases eq
  once key := by
    refine (agrees.once key).append_none ?_
    rintro entry mem rfl
    rcases quiet _ mem with ⟨_, _, eq⟩ | ⟨_, _, eq⟩ <;> cases eq

theorem recognise (more : List (Nat × I)) :
    Agrees { memory with controlBoundaries := memory.controlBoundaries ++ more }
      (log ++ more.map fun boundary => .recognised boundary.1 boundary.2) where
  declined revision identity mem :=
    (agrees.declined revision identity mem).imp (mem_append_left _) (mem_append_left _)
  recognised revision identity mem := by
    rcases mem_append.1 mem with before | later
    · exact mem_append_left _ (agrees.recognised revision identity before)
    obtain ⟨boundary, added, eq⟩ := mem_map.1 later
    cases eq
    exact mem_append_right _ added
  batches revision identity := by
    refine (agrees.batches revision identity).append_none ?_
    rintro entry mem ⟨key, rfl, -⟩
    obtain ⟨boundary, -, eq⟩ := mem_map.1 mem
    cases eq
  selected key standing := by
    by_contra forgotten
    refine Open.append_none (fun before => forgotten (agrees.selected key before)) ?_ standing
    rintro entry mem rfl
    obtain ⟨boundary, -, eq⟩ := mem_map.1 mem
    cases eq
  once key := by
    refine (agrees.once key).append_none ?_
    rintro entry mem rfl
    obtain ⟨boundary, -, eq⟩ := mem_map.1 mem
    cases eq

theorem dispatch {key : DispatchKey I} (new : key ∉ memory.selections)
    (apart : key.identities.length ≤ 1 ∨
      ∀ identity ∈ key.identities, (key.revision, identity) ∉ memory.controlBoundaries) :
    Agrees { memory with selections := memory.selections ++ [key] } (log ++ [.dispatched key]) where
  declined revision identity mem :=
    (agrees.declined revision identity mem).imp (mem_append_left _) (mem_append_left _)
  recognised revision identity mem := by
    rcases mem_append.1 mem with before | later
    · exact agrees.recognised revision identity before
    · cases mem_singleton.1 later
  batches revision identity := by
    refine (agrees.batches revision identity).snoc ?_
    rintro ⟨_, eq, rfl, inside, several⟩ ⟨before, entry, after, split, rfl, -⟩
    cases eq
    rcases apart with single | apart
    · exact absurd single (Nat.not_le.2 several)
    · exact apart identity inside (agrees.recognised _ identity (by simp [split]))
  selected other standing := by
    rcases Open.snoc.1 standing with eq | ⟨before, -⟩
    · cases eq
      exact mem_append_right _ (mem_singleton_self key)
    · exact mem_append_left _ (agrees.selected other before)
  once other := by
    refine (agrees.once other).snoc ?_
    intro eq standing
    cases eq
    exact new (agrees.selected key standing)

/-- An advance closes what was dispatched, whatever the pass goes on remembering of it. -/
theorem advance (kept : List (DispatchKey I)) :
    Agrees { memory with selections := kept } (log ++ [.advanced]) where
  declined revision identity mem :=
    (agrees.declined revision identity mem).imp (mem_append_left _) (mem_append_left _)
  recognised revision identity mem := by
    rcases mem_append.1 mem with before | later
    · exact agrees.recognised revision identity before
    · cases mem_singleton.1 later
  batches revision identity := by
    refine (agrees.batches revision identity).snoc ?_
    rintro ⟨_, eq, -⟩
    cases eq
  selected key standing := by
    rcases Open.snoc.1 standing with eq | ⟨-, closed⟩
    · cases eq
    · exact (closed rfl).elim
  once key := by
    refine (agrees.once key).snoc ?_
    intro eq
    cases eq

theorem decline {more : List (Nat × I)}
    (probed : ∀ entry ∈ more, .offered entry.1 entry.2 ∈ log ∨ .unrecognised entry.1 entry.2 ∈ log) :
    Agrees { memory with declined := memory.declined ++ more } log where
  declined revision identity mem := by
    rcases mem_append.1 mem with before | later
    · exact agrees.declined revision identity before
    · exact probed _ later
  recognised := agrees.recognised
  batches := agrees.batches
  selected := agrees.selected
  once := agrees.once

end

end Agrees

/-! ## Steps -/

section Steps

variable [LinearOrder I] {room : Settings ρ} {s : Scheduler I ρ C} {answers : Answers I ρ C}
  {log : List (Entry I)}

omit [LinearOrder I] in
theorem probeEntry_offered_or (identity : I) {approach : Approach I} {entry : Entry I}
    (told : s.probeEntry identity approach = some entry) :
    (∃ revision identity, entry = .offered revision identity) ∨
      ∃ revision identity, entry = .unrecognised revision identity := by
  cases approach with
  | refused => cases told
  | unrecognised => cases told; exact .inr ⟨_, _, rfl⟩
  | begun host => cases told; exact .inl ⟨_, _, rfl⟩

variable {w : Watched I ρ C} {members : List (Candidate I)} {t : Watched I ρ C}

theorem probeEntries_quiet {entry : Entry I} (mem : entry ∈ s.probeEntries room members answers) :
    (∃ revision identity, entry = .offered revision identity) ∨
      ∃ revision identity, entry = .unrecognised revision identity := by
  unfold probeEntries at mem
  cases head : members.head? with
  | none =>
    rw [head] at mem
    cases mem
  | some c =>
    rw [head] at mem
    obtain ⟨approach, -, told⟩ := mem_filterMap.1 mem
    exact probeEntry_offered_or c.messageId told

section

variable (sound : answers.controlTurn.all Lifecycle.Round.sound)
include sound

/-- **A recorded decline** is of the dispatch's own probe, at its revision. -/
theorem declines_probed {entry : Nat × I} (mem : entry ∈ s.declines room members answers) :
    .offered entry.1 entry.2 ∈ s.probeEntries room members answers ∨
      .unrecognised entry.1 entry.2 ∈ s.probeEntries room members answers := by
  unfold declines at mem
  dsimp only at mem
  split at mem
  · rename_i declined
    cases head : members.head? with
    | none =>
      rw [head] at mem
      cases mem
    | some c =>
      rw [head] at mem
      have eq : entry = (s.world.host.controlRevision, c.messageId) := mem_singleton.1 mem
      obtain ⟨approach, came, reached⟩ := Lifecycle.runFrom_declined (all_eq_true.1 sound)
        declined.2.1
      have probed : approach ∈ s.probeApproaches room members answers := by
        unfold probeApproaches
        rw [if_pos declined.1]
        exact came
      have noted : ∀ entry, s.probeEntry c.messageId approach = some entry →
          entry ∈ s.probeEntries room members answers := by
        intro entry told
        unfold probeEntries
        rw [head]
        exact mem_filterMap.2 ⟨approach, probed, told⟩
      rw [eq]
      rcases reached with rfl | ⟨host, rfl⟩
      · exact .inr (noted _ rfl)
      left
      obtain ⟨-, -, -, -, -, revision⟩ := Lifecycle.approaches_begun came
      exact noted _ (by rw [probeEntry, revision])
  · cases mem

theorem agrees_dispatch {priority : Bool} (agrees : Agrees s.memory log)
    (apart : members.length ≤ 1 ∨ ∀ c ∈ members,
      (s.world.host.controlRevision, c.messageId) ∉ s.active.controlBoundaries) :
    Agrees ((Call.turn members priority s).traces room answers).1
      (log ++ (Call.turn members priority s).entries room answers) := by
  cases admitted : s.admits members priority with
  | false =>
    obtain ⟨outcome, turn, same, unlike⟩ := dispatch_refused room answers admitted
    have entries : (Call.turn members priority s).entries room answers = [] := by
      simp [Call.entries, admitted]
    have traces : ((Call.turn members priority s).traces room answers).1 = s.memory := by
      simp [Call.traces, same, unlike, traces]
    rw [entries, traces, append_nil]
    exact agrees
  | true =>
    have new : s.dispatchKey members priority ∉ s.active.selections := by
      simp only [admits, Bool.and_eq_true, decide_eq_true_eq] at admitted
      exact admitted.2
    have alone : (s.dispatchKey members priority).identities.length ≤ 1 ∨
        ∀ identity ∈ (s.dispatchKey members priority).identities,
          ((s.dispatchKey members priority).revision, identity) ∉ s.active.controlBoundaries := by
      refine apart.imp (fun single => ?_) fun forgotten identity mem => ?_
      · exact (length_map ..).trans_le single
      · obtain ⟨c, inside, rfl⟩ := mem_map.1 mem
        exact forgotten c inside
    have dispatched : Agrees _ (_ ++ s.probeEntries room members answers) :=
      (agrees.dispatch new alone).noted fun _ => probeEntries_quiet
    have declined : Agrees ⟨s.memory.declined ++ s.declines room members answers, _, _⟩ _ :=
      dispatched.decline fun entry mem =>
        (declines_probed sound mem).imp (mem_append_right _) (mem_append_right _)
    have memory := memory_dispatch room answers admitted
    simp only [Call.traces, Call.entries, admitted, if_true]
    generalize s.dispatch room members priority answers = result at memory
    obtain ⟨⟨outcome, turn⟩, t⟩ := result
    have after : Agrees t.memory
        (log ++ (.dispatched (s.dispatchKey members priority) :: s.probeEntries room members answers)) := by
      rw [memory, append_cons log]
      exact declined
    split
    · rw [← cons_append, ← append_assoc]
      exact after.advance _
    · rw [append_nil]
      exact after

/-- **A step** keeps the memory and the log in agreement. -/
theorem agrees_step (agrees : Agrees s.memory log) :
    Agrees (s.takeStep room answers).2.memory (log ++ s.entries room answers) := by
  have left : (s.takeStep room answers).2.memory = ((s.call room answers).traces room answers).1 :=
    congrArg Prod.fst (takeStep_traces answers)
  obtain ⟨declined, selections, ⟨more, boundaries⟩, -⟩ :=
    surveyed_call (P := fun _ => True) room s answers fun _ _ => trivial
  have surveyed : Agrees (s.call room answers).scheduler.memory
      (log ++ more.map fun boundary => .recognised boundary.1 boundary.2) := by
    have same : (s.call room answers).scheduler.memory =
        { s.memory with controlBoundaries := s.memory.controlBoundaries ++ more } := by
      simp only [memory, declined, selections, boundaries]
    rw [same]
    exact agrees.recognise more
  rw [left, entries, boundaries, drop_left, ← append_assoc]
  cases called : s.call room answers with
  | ended t =>
    rw [called] at surveyed
    exact (append_nil _).symm ▸ surveyed
  | localEvent event t =>
    rw [called] at surveyed
    have same : ((Call.localEvent event t).traces room answers).1 = t.memory :=
      memory_dispatchLocal event answers
    rw [same]
    exact (append_nil _).symm ▸ surveyed
  | turn members priority t =>
    rw [called] at surveyed
    exact agrees_dispatch sound surveyed (call_unbatched called)

end

theorem memory_iterate : (s.iterate room answers).memory = (s.takeStep room answers).2.memory := by
  have advanced : (s.advance room answers).2 = (s.takeStep room answers).2 := by
    unfold advance
    dsimp only
    split
    · rfl
    split
    · rfl
    · split <;> rfl
  unfold Scheduler.iterate
  dsimp only
  rw [advanced]
  split
  · rfl
  split
  · exact memory_defer none
  · rfl

theorem memory_retrySettlements (ids : List I) (writes : List (Lifecycle.Write I ρ)) (s : Scheduler I ρ C) :
    (Scheduler.retrySettlements room ids writes s).2.memory = s.memory := by
  induction ids generalizing writes s with
  | nil => rfl
  | cons i rest ih =>
    unfold retrySettlements
    dsimp only
    split
    · rfl
    · exact ih _ _

theorem memory_beginPass (recovery : Bool) (gate : Option (Read I ρ C)) (writes : List (Lifecycle.Write I ρ)) :
    (s.beginPass room recovery gate writes).memory = ⟨[], [], []⟩ := by
  have opened : (s.openPass recovery).memory = ⟨[], [], []⟩ := memory_absorb
  have gated : ((s.openPass recovery).passGate room recovery gate).2.memory = ⟨[], [], []⟩ := by
    unfold passGate
    split
    · unfold resumeFromGate
      split
      · exact opened
      rename_i read
      have absorbed : (((s.openPass recovery).await room read.meanwhile).absorb).memory = ⟨[], [], []⟩ :=
        memory_absorb.trans opened
      dsimp only
      split
      · exact absorbed
      split
      · exact absorbed
      · split <;> exact absorbed
    · exact opened
  unfold beginPass
  dsimp only
  split
  · exact gated
  unfold enterLoop
  dsimp only
  split
  · exact (memory_retrySettlements _ _ _).trans gated
  · exact (memory_retrySettlements _ _ _).trans gated

/-! ## Runs -/

/-- What holds of the watched room between its events. -/
structure Watched.Kept (w : Watched I ρ C) : Prop where
  agrees : Agrees w.scheduler.memory w.log
  /-- An offer of the current pass is in its log. -/
  offers : ∀ offering ∈ w.offers, ∀ pass, offering.pass = some pass → pass ≤ w.passes ∧
    (pass = w.passes → .offered offering.revision offering.identity ∈ w.log)

theorem kept_scheduler (kept : w.Kept) {event : SchedulerEvent I ρ C}
    (reacted : w.react room (.scheduler event) = some t) : t.Kept := by
  cases event with
  | iterate answers =>
    obtain ⟨sound, reacted⟩ := of_passed reacted
    obtain ⟨s, stepped, rfl⟩ := map_eq_some_iff.1 reacted
    obtain ⟨-, ⟨⟩⟩ := of_passed stepped
    refine ⟨?_, fun offering mem pass captured => ?_⟩
    · dsimp only
      rw [memory_iterate]
      exact agrees_step sound kept.agrees
    · obtain ⟨opened, noted⟩ := kept.offers offering mem pass captured
      exact ⟨opened, fun current => mem_append_left _ (noted current)⟩
  | begin recovery gate writes =>
    obtain ⟨s, stepped, rfl⟩ := map_eq_some_iff.1 reacted
    obtain ⟨-, ⟨⟩⟩ := of_passed stepped
    refine ⟨?_, fun offering mem pass captured => ?_⟩
    · dsimp only
      rw [memory_beginPass]
      exact .fresh
    · obtain ⟨opened, -⟩ := kept.offers offering mem pass captured
      exact ⟨Nat.le_succ_of_le opened, fun current => absurd current (Nat.ne_of_lt (Nat.lt_succ_of_le opened))⟩
  | meanwhile m | scheduleStarted | yielded =>
    obtain ⟨s, stepped, rfl⟩ := map_eq_some_iff.1 reacted
    obtain ⟨-, ⟨⟩⟩ := of_passed stepped
    exact ⟨kept.agrees, kept.offers⟩

theorem kept_offer (kept : w.Kept) {revision : Nat} {identity : I}
    (reacted : w.react room (.offer revision identity) = some t) : t.Kept := by
  obtain ⟨-, ⟨⟩⟩ := of_barred reacted
  have offered : ∀ {entry}, entry ∈ w.log →
      entry ∈ (if w.currentPass.isSome then w.log ++ [.offered revision identity] else w.log) := by
    intro entry mem
    split
    · exact mem_append_left _ mem
    · exact mem
  refine ⟨?_, fun offering mem pass captured => ?_⟩
  · dsimp only
    split
    · refine kept.agrees.noted fun entry mem => .inl ⟨revision, identity, ?_⟩
      exact mem_singleton.1 mem
    · exact kept.agrees
  · rcases mem_concat mem with before | rfl
    · obtain ⟨opened, noted⟩ := kept.offers offering before pass captured
      exact ⟨opened, fun current => offered (noted current)⟩
    · have open_ : w.currentPass = some pass := captured
      have current : pass = w.passes := by
        obtain ⟨recovery, -, eq⟩ := map_eq_some_iff.1 open_
        exact eq.symm
      refine ⟨Nat.le_of_eq current, fun _ => ?_⟩
      simp [open_]

theorem kept_answer (kept : w.Kept) {index revision : Nat} {handled : Bool}
    (reacted : w.react room (.answer index revision handled) = some t) : t.Kept := by
  obtain ⟨offering, found, rfl⟩ := map_eq_some_iff.1 reacted
  have rest : ({ w with offers := w.offers.eraseIdx index } : Watched I ρ C).Kept :=
    ⟨kept.agrees, fun other mem => kept.offers other (mem_of_mem_eraseIdx mem)⟩
  dsimp only
  split
  · exact rest
  unfold Watched.recordDecline
  split
  · rename_i recorded
    refine ⟨rest.agrees.decline fun entry mem => .inl ?_, rest.offers⟩
    cases mem_singleton.1 mem
    -- the offer was made in this pass, and the pass noted it
    obtain ⟨pass, captured⟩ := isSome_iff_exists.1 recorded.1
    obtain ⟨recovery, -, eq⟩ := map_eq_some_iff.1 (recorded.2.1.symm.trans captured)
    exact (kept.offers offering (mem_of_getElem? found) pass captured).2 eq.symm
  · exact rest

theorem kept_of_reachable (reached : (watching room).Reachable w) : w.Kept := by
  refine reached.invariant ?_ ?_
  · rintro w ⟨⟨world, fresh⟩, -, none_, empty⟩
    refine ⟨?_, fun offering mem => ?_⟩
    · rw [fresh, empty]
      exact .fresh
    · rw [none_] at mem
      cases mem
  · intro w event t kept reacted
    have stepped : w.react room event = some t := reacted
    cases event with
    | scheduler event => exact kept_scheduler kept stepped
    | offer revision identity => exact kept_offer kept stepped
    | answer index revision handled => exact kept_answer kept stepped

/-- **A pass under controls.**  In every state a room's scheduler reaches: the next
step begins a message handler only while the room runs, and in a stopped room it
only does housekeeping; a decline is remembered where its control was probed; a
recognised control is not batched later; a selection ran once, or a priority
control advanced in between. -/
theorem passes_disciplined {w : Watched I ρ C} (reached : (watching room).Reachable w) :
    (∀ (controls : Nat → ControlMode) (answers : Answers I ρ C) (host : Host I),
      w.scheduler.world.host.Heeds controls → answers.Heeds controls →
      (w.scheduler.call room answers).Begins room answers host → host.stopped = false) ∧
    (w.scheduler.world.host.stopped = true → ∀ answers : Answers I ρ C,
      w.scheduler.call room answers = .ended w.scheduler ∨ ∃ event,
        w.scheduler.call room answers = .localEvent event w.scheduler ∧ event.isMessage = false) ∧
    (∀ revision identity, (revision, identity) ∈ w.scheduler.active.declined →
      .offered revision identity ∈ w.log ∨ .unrecognised revision identity ∈ w.log) ∧
    (∀ revision identity, Guarded (· = .recognised revision identity) (fun _ => False)
      (Entry.Batches revision identity) w.log) ∧
    ∀ key, Guarded (· = .dispatched key) (· = .advanced) (· = .dispatched key) w.log := by
  have kept := kept_of_reachable reached
  refine ⟨?_, ?_, kept.agrees.declined, kept.agrees.batches, kept.agrees.once⟩
  · exact fun controls answers host heeds awaited begins => begins_running heeds awaited begins
  · exact fun stopped answers => call_stopped stopped

end Steps

/-! ### A probe -/

/-- A room whose message 1 is a control. -/
def probedHost : Host Nat := { handlesControl := true, recognizes := fun message => message.id = 1 }

def probing : Meanwhile Nat LedgerEntry := { host := probedHost }

def probedStart : Watched Nat LedgerEntry Nat :=
  { scheduler := { world := { registry := { ids := [], record := fun _ => {} }, host := probedHost } } }

/-- One attempt of the control, ended by `course`. -/
def probeRound (recognized : Bool) (course : Lifecycle.Course) : Lifecycle.Round Nat LedgerEntry where
  beginning := some (probing, true)
  confirmations := [{ meanwhile := probing }]
  recognized := recognized
  preparation := some probing
  execution := some (probing, course)
  writes := [{ meanwhile := probing }]

/-- A recovery pass that finds the control at the head of the backlog, probes it
and, once it is declined, runs it as a message. -/
def probedRun (recognized : Bool) : List (WatchedEvent Nat LedgerEntry Nat) :=
  [.scheduler (.begin true none []),
    .scheduler (.iterate
      { read := some
          { meanwhile := probing, page := fun _ => { messages := [], nextCursor := none }
            next := some { id := 1, insertedAt := 5 } }
        controlTurn := [probeRound recognized .declined]
        turn := [probeRound true (.settled (some .processed) false false false)]
        sleep := probing })]

theorem passes_disciplined_probed : ∃ w, (watching singletonRoom).run probedStart (probedRun true) = some w ∧
    w.scheduler.active.declined = [(0, 1)] ∧
    w.log = [.recognised 0 1, .recognised 0 1, .dispatched ⟨false, 0, [1], .control⟩, .offered 0 1] ∧
    ∀ key, Guarded (· = .dispatched key) (· = .advanced) (· = .dispatched key) w.log :=
  ⟨_, rfl, rfl, rfl,
    (passes_disciplined (w := _) ⟨probedStart, ⟨⟨_, rfl⟩, rfl, rfl, rfl⟩, probedRun true, rfl⟩).2.2.2.2⟩

/-- An original that is no control any more when its probe is admitted is remembered as
declined, though its handler was never offered it. -/
theorem unrecognised_probe_declines : ∃ w : Watched Nat LedgerEntry Nat,
    (watching singletonRoom).Reachable w ∧ (0, 1) ∈ w.scheduler.active.declined ∧
      ∀ revision, .offered revision 1 ∉ w.log := by
  refine ⟨_, ⟨probedStart, ⟨⟨_, rfl⟩, rfl, rfl, rfl⟩, probedRun false, rfl⟩, ?_, ?_⟩
  · exact mem_singleton_self _
  · intro revision
    show Entry.offered revision 1 ∉
      [.recognised 0 1, .recognised 0 1, .dispatched ⟨false, 0, [1], .control⟩, .unrecognised 0 1]
    simp

end BandSdk.Scheduling

/-
# Scheduling.Calls -- what one step of a pass calls, and what a pass remembers

`Call` is what `takeStep` calls (`stage` and `choose` say it for the ordinary
path), with the scheduler it calls it on.  `Memory` is what a pass remembers of
its controls and its dispatches; up to its call a step only adds the controls it
recognises (`Surveyed`), and `takeStep_traces` is what it leaves behind.
-/
import BandSdk.Scheduling.Boundaries
import BandSdk.Scheduling.Prefixes

namespace BandSdk.Scheduling

open BandSdk.Theory BandSdk.Turns List

variable {I ρ C : Type} [LinearOrder I]

/-- The decisions a pass keeps by control revision, and its dispatches. -/
structure Memory (I : Type) where
  declined : List (Nat × I)
  controlBoundaries : List (Nat × I)
  selections : List (DispatchKey I)

inductive Call (I ρ C : Type) where
  /-- Nothing is dispatched. -/
  | ended (s : Scheduler I ρ C)
  | localEvent (event : Event I) (s : Scheduler I ρ C)
  | turn (members : List (Candidate I)) (priority : Bool) (s : Scheduler I ρ C)

def Call.scheduler : Call I ρ C → Scheduler I ρ C
  | .ended s | .localEvent _ s | .turn _ _ s => s

def Choice.call : Choice I ρ C → Call I ρ C
  | .ended _ s | .missing s => .ended s
  | .localEvent event s => .localEvent event s
  | .turn members s => .turn members false s

namespace Scheduler

variable (room : Settings ρ) (s : Scheduler I ρ C)

def memory : Memory I := ⟨s.active.declined, s.active.controlBoundaries, s.active.selections⟩

def stageCall : Stage I ρ C → Call I ρ C
  | .ended _ s => .ended s
  | .localEvent event s => .localEvent event s
  | .selection read s => (s.choose room read).call

/-- The page `priority_step` looks for controls in. -/
def controlPage (answers : Answers I ρ C) : Except (Option ResyncOutcome) (Page I C) × Scheduler I ρ C :=
  match s.active.controlPage with
  | some page => (.ok page, s)
  | none =>
    match answers.read with
    | none => (.error none, s)
    | some read =>
      let page := read.page s.controlCursor
      let t := (s.await room read.meanwhile).absorb
      if t.world.host.stopped then (.error (some .stopped), t)
      else if s.world.host.controlRevision ≠ t.world.host.controlRevision then
        (.error (some .progress), t)
      else
        (.ok page, { t with
          active := { t.active with controlPage := some page }
          controlCursor := page.nextCursor })

/-- The loop of `priority_step`, up to its dispatch. -/
def priorityPick (page : Page I C) : List (Candidate I) → Scheduler I ρ C → Call I ρ C
  | [], s => .ended s
  | c :: rest, s =>
    if c.disposition = .skip then
      let (skipped, s) := s.pruneSkipped room [c] (MessageKey.lastOf page.messages)
        page.nextCursor.isNone
      let s := if c.messageId ∈ skipped ∧ s.deferredId = some c.messageId ∧
          room.life.keepsOriginal s.world c.messageId = false then s.defer none else s
      priorityPick page rest s
    else if c.disposition = .control ∧ s.declined c.messageId = false ∧
        s.dispatchKey [c] true ∉ s.active.selections then .turn [c] true s
    else priorityPick page rest s

def priorityCall (answers : Answers I ρ C) : Call I ρ C :=
  if s.world.host.handlesControl = false then .ended s
  else
    match s.controlPage room answers with
    | (.error _, s) => .ended s
    | (.ok page, s) =>
      let (cs, s) := s.candidates room page.messages
      priorityPick room page cs s

/-- What `take_step` calls. -/
def call (answers : Answers I ρ C) : Call I ρ C :=
  let gated := s.ordinaryGated room
  let housekeeping := if gated || s.world.host.stopped then s.housekeeping else none
  match housekeeping with
  | some event => .localEvent event s
  | none =>
    if s.world.host.stopped then .ended s
    else if gated then s.priorityCall room answers
    else stageCall room (s.stage room answers)

/-- The guards of `dispatch`. -/
def admits (members : List (Candidate I)) (priority : Bool) : Bool :=
  !s.world.host.stopped && !(priority && !s.probes members) &&
    decide (s.dispatchKey members priority ∉ s.active.selections)

/-- The decline a dispatch's probe records. -/
def declines (members : List (Candidate I)) (answers : Answers I ρ C) : List (Nat × I) :=
  let revision := s.world.host.controlRevision
  let result := room.life.run members revision true answers.controlTurn s.world
  if s.probes members = true ∧ result.outcome = some .declined ∧
      revision = result.world.host.controlRevision then
    members.head?.toList.map fun c => (revision, c.messageId)
  else []

end Scheduler

/-- What a step leaves behind: its pass's memory and the room's world. -/
def Scheduler.traces (s : Scheduler I ρ C) : Memory I × World I ρ := (s.memory, s.world)

/-- What the call leaves behind; a priority control that advanced lets ordinary
work be selected again. -/
def Call.traces (room : Settings ρ) (answers : Answers I ρ C) : Call I ρ C → Memory I × World I ρ
  | .ended s => s.traces
  | .localEvent event s => (s.dispatchLocal room event answers).2.traces
  | .turn members priority s =>
    let ((_, outcome), t) := s.dispatch room members priority answers
    if priority = true ∧ outcome = some .advanced then
      ({ t.memory with selections := t.memory.selections.filter (·.priority) }, t.world)
    else t.traces

namespace Scheduler

variable {room : Settings ρ} {s : Scheduler I ρ C}

/-! ## What leaves the memory alone -/

@[simp] theorem memory_absorb : s.absorb.memory = s.memory := by
  have received : ∀ (events : List (Event I)) (s : Scheduler I ρ C),
      (events.foldl receive s).memory = s.memory := by
    intro events
    induction events with
    | nil => exact fun _ => rfl
    | cons event rest ih => exact fun s => ih _
  exact received s.world.queue s

@[simp] theorem memory_defer (message : Option I) : (s.defer message).memory = s.memory := by
  unfold defer
  split <;> rfl

@[simp] theorem memory_runTurn (members : List (Candidate I)) (revision : Nat) (control : Bool)
    (rounds : List (Lifecycle.Round I ρ)) :
    (s.runTurn room members revision control rounds).2.memory = s.memory := by
  unfold runTurn
  dsimp only
  split
  · rw [memory_defer]
    rfl
  · rfl

@[simp] theorem memory_advanceScan (read : PageRead I C) (skipped : List I) (segment : List (Message I)) :
    (s.advanceScan room read skipped segment).2.memory = s.memory := by
  unfold advanceScan
  split
  · rfl
  dsimp only
  split
  · rfl
  · split <;> rfl

@[simp] theorem memory_afterDelivery (outcome : TurnOutcome) (identities : List I)
    (forms : List (Candidate I)) (revision : Nat) (priority control : Bool) :
    (s.afterDelivery room outcome identities forms revision priority control).2.memory = s.memory := by
  have deferred : ∀ t : Scheduler I ρ C,
      (if priority then t else if identities = [] then t else t.defer identities.head?).memory = t.memory := by
    intro t
    split
    · rfl
    split
    · rfl
    · exact memory_defer _
  have released : ∀ t : Scheduler I ρ C,
      (if t.deferredId.any (· ∈ identities) then t.defer none else t).memory = t.memory := by
    intro t
    split
    · exact memory_defer none
    · rfl
  cases outcome with
  | advanced | absent => exact released _
  | paused | declined =>
    unfold afterDelivery
    dsimp only
    split
    · rfl
    split
    · split
      · rfl
      · exact deferred _
    · rfl
  | retryLater | notAccepted =>
    unfold afterDelivery
    dsimp only
    split
    · rfl
    split
    · split
      · rfl
      · exact deferred _
    · exact deferred s

@[simp] theorem memory_dispatchLocal (event : Event I) (answers : Answers I ρ C) :
    (s.dispatchLocal room event answers).2.memory = s.memory := by
  unfold dispatchLocal
  split
  · rfl
  split
  · rfl
  dsimp only
  split
  · rw [memory_afterDelivery]
    rfl
  · split
    · rfl
    · rw [memory_afterDelivery]
      rfl

@[simp] theorem memory_dispatchOrdinary (members : List (Candidate I)) (revision : Nat) (priority : Bool)
    (rounds : List (Lifecycle.Round I ρ)) :
    (s.dispatchOrdinary room members revision priority rounds).2.memory = s.memory := by
  unfold dispatchOrdinary
  dsimp only
  split
  · exact memory_runTurn ..
  · rw [memory_afterDelivery, memory_runTurn]

/-! ## Dispatches -/

variable {members : List (Candidate I)} {priority : Bool}

/-- A refused dispatch runs nothing. -/
theorem dispatch_refused (room : Settings ρ) (answers : Answers I ρ C) (refused : s.admits members priority = false) :
    ∃ outcome turn, s.dispatch room members priority answers = ((outcome, turn), s) ∧
      turn ≠ some .advanced := by
  unfold dispatch
  dsimp only
  split
  · exact ⟨_, _, rfl, nofun⟩
  rename_i goes
  split
  · exact ⟨_, _, rfl, nofun⟩
  rename_i probing
  split
  · exact ⟨_, _, rfl, nofun⟩
  · rename_i fresh
    simp [admits, goes, probing, fresh] at refused

omit [LinearOrder I] in
theorem memory_recordDecline (revision : Nat) (identity : I) :
    (s.recordDecline revision identity).memory =
      { s.memory with declined := s.memory.declined ++
          if revision = s.world.host.controlRevision then [(revision, identity)] else [] } := by
  unfold recordDecline
  split
  · rfl
  · simp [memory]

/-- **A dispatch** remembers its key, and the decline of its probe. -/
theorem memory_dispatch (room : Settings ρ) (answers : Answers I ρ C) (admitted : s.admits members priority = true) :
    (s.dispatch room members priority answers).2.memory =
      { s.memory with
        declined := s.memory.declined ++ s.declines room members answers
        selections := s.memory.selections ++ [s.dispatchKey members priority] } := by
  obtain ⟨⟨goes, probing⟩, fresh⟩ : (s.world.host.stopped = false ∧
      (priority && !s.probes members) = false) ∧ s.dispatchKey members priority ∉ s.active.selections := by
    simpa only [admits, Bool.and_eq_true, Bool.not_eq_true', decide_eq_true_eq] using admitted
  have world : ∀ control rounds (selections : List (DispatchKey I)),
      ({ s with active := { s.active with selections := selections } }.runTurn room members
        s.world.host.controlRevision control rounds).2.world =
      (room.life.run members s.world.host.controlRevision control rounds s.world).world :=
    fun control rounds selections => (runTurn_frame room _ members _ control rounds).2.1
  unfold dispatch
  dsimp only
  rw [if_neg (by simp [goes]), if_neg (by simp [probing]), if_neg fresh]
  cases probes : s.probes members with
  | false =>
    rw [if_neg (by simp), memory_dispatchOrdinary]
    simp [declines, probes, memory]
  | true =>
    rw [if_pos rfl]
    obtain ⟨c, head⟩ : ∃ c, members.head? = some c := by
      cases head : members.head? with
      | none => simp [Scheduler.probes, head] at probes
      | some c => exact ⟨c, rfl⟩
    split
    · rename_i ended
      have undeclined : s.declines room members answers = [] := by
        have outcome : (room.life.run members s.world.host.controlRevision true answers.controlTurn
          s.world).outcome = none := ended
        simp [declines, outcome]
      rw [undeclined, append_nil]
      exact memory_runTurn ..
    · rename_i ended
      have outcome : (room.life.run members s.world.host.controlRevision true answers.controlTurn
        s.world).outcome = some .declined := ended
      have recorded : ∀ t : Scheduler I ρ C,
          t.memory = { s.memory with selections := s.memory.selections ++ [s.dispatchKey members priority] } →
          t.world = (room.life.run members s.world.host.controlRevision true answers.controlTurn
            s.world).world →
          (t.recordDecline s.world.host.controlRevision c.messageId).memory =
            { s.memory with
              declined := s.memory.declined ++ s.declines room members answers
              selections := s.memory.selections ++ [s.dispatchKey members priority] } := by
        intro t kept ran
        rw [memory_recordDecline, kept, ran]
        simp [declines, probes, outcome, head]
      rw [head]
      split
      · exact recorded _ (memory_runTurn ..) (world true answers.controlTurn _)
      · rw [memory_dispatchOrdinary]
        exact recorded _ (memory_runTurn ..) (world true answers.controlTurn _)
    · rename_i other undecided ended
      have undeclined : s.declines room members answers = [] := by
        have outcome : (room.life.run members s.world.host.controlRevision true answers.controlTurn
          s.world).outcome = some other := ended
        have unlike : other ≠ .declined := by
          rintro rfl
          exact undecided rfl
        simp [declines, outcome, unlike]
      rw [memory_afterDelivery, undeclined, append_nil]
      exact memory_runTurn ..

theorem traces_dispatchSelection (answers : Answers I ρ C) :
    (s.dispatchSelection room members answers).2.traces = (s.dispatch room members false answers).2.traces := by
  unfold dispatchSelection
  dsimp only
  split
  · split <;> rfl
  · rfl

/-! ## Steps -/

theorem traces_carry (choice : Choice I ρ C) (answers : Answers I ρ C) :
    (choice.carry room answers).2.traces = choice.call.traces room answers := by
  cases choice with
  | ended outcome s | missing s | localEvent event s => rfl
  | turn members s =>
    simp only [Choice.carry, Choice.call, Call.traces, traces_dispatchSelection]
    rfl

theorem traces_step (answers : Answers I ρ C) :
    (s.step room answers).2.traces = (stageCall room (s.stage room answers)).traces room answers := by
  rw [step_stage]
  cases s.stage room answers with
  | ended outcome s | localEvent event s => rfl
  | selection read s =>
    simp only [Stage.carry, stageCall, runSelection_choose]
    exact traces_carry _ answers

theorem traces_priorityLoop (page : Page I C) (answers : Answers I ρ C) (cs : List (Candidate I))
    (s : Scheduler I ρ C) : (priorityLoop room page answers cs s).2.traces =
      (priorityPick room page cs s).traces room answers := by
  induction cs generalizing s with
  | nil => rfl
  | cons c rest ih =>
    unfold priorityLoop priorityPick
    split
    · exact ih _
    split
    · simp only [Call.traces]
      generalize s.dispatch room [c] true answers = result
      obtain ⟨⟨scheduling, turn⟩, t⟩ := result
      split <;> simp_all [Scheduler.traces, memory]
    · exact ih s

theorem traces_priorityStep (answers : Answers I ρ C) :
    (s.priorityStep room answers).2.traces = (s.priorityCall room answers).traces room answers := by
  have paged : s.priorityStep room answers =
      if s.world.host.handlesControl = false then (some .blocked, s)
      else
        match s.controlPage room answers with
        | (.error outcome, s) => (outcome, s)
        | (.ok page, s) =>
          priorityLoop room page answers (s.candidates room page.messages).1
            (s.candidates room page.messages).2 := rfl
  rw [paged]
  unfold priorityCall
  split
  · rfl
  generalize s.controlPage room answers = answered
  obtain ⟨page, t⟩ := answered
  cases page with
  | error outcome => rfl
  | ok page => exact traces_priorityLoop page answers _ _

/-- **A step** leaves behind what its call does. -/
theorem takeStep_traces (answers : Answers I ρ C) :
    (s.takeStep room answers).2.traces = (s.call room answers).traces room answers := by
  unfold takeStep call
  dsimp only
  generalize (if (s.ordinaryGated room || s.world.host.stopped) = true then s.housekeeping else none) =
    housekeeping
  cases housekeeping with
  | some event => rfl
  | none =>
    dsimp only
    split
    · rfl
    split
    · exact traces_priorityStep answers
    · split <;> exact traces_step answers

/-! ## Up to the call -/

/-- Up to its call a step only adds the controls it recognises; `P` is what every await
leaves true of the room. -/
structure Surveyed (P : Host I → Prop) (s t : Scheduler I ρ C) : Prop where
  declined : t.active.declined = s.active.declined
  selections : t.active.selections = s.active.selections
  boundaries : ∃ more, t.active.controlBoundaries = s.active.controlBoundaries ++ more
  host : P s.world.host → P t.world.host

namespace Surveyed

variable {P : Host I → Prop} {t u : Scheduler I ρ C}

omit [LinearOrder I] in
theorem of_memory (same : t.memory = s.memory) (host : P s.world.host → P t.world.host) : Surveyed P s t where
  declined := congrArg Memory.declined same
  selections := congrArg Memory.selections same
  boundaries := ⟨[], (congrArg Memory.controlBoundaries same).trans (append_nil _).symm⟩
  host := host

omit [LinearOrder I] in
theorem refl (s : Scheduler I ρ C) : Surveyed P s s := of_memory rfl id

omit [LinearOrder I] in
theorem trans (first : Surveyed P s t) (second : Surveyed P t u) : Surveyed P s u := by
  obtain ⟨more, first_eq⟩ := first.boundaries
  obtain ⟨later, second_eq⟩ := second.boundaries
  refine ⟨second.declined.trans first.declined, second.selections.trans first.selections, ?_, ?_⟩
  · exact ⟨more ++ later, by rw [second_eq, first_eq, append_assoc]⟩
  · exact fun holds => second.host (first.host holds)

end Surveyed

section Survey

variable {P : Host I → Prop} {t : Scheduler I ρ C}

theorem surveyed_await {m : Meanwhile I ρ} (holds : P m.host) : Surveyed P s (s.await room m) :=
  .of_memory rfl fun _ => holds

theorem surveyed_absorb : Surveyed P s s.absorb := .of_memory memory_absorb id

theorem surveyed_defer (message : Option I) : Surveyed P s (s.defer message) :=
  .of_memory (memory_defer message) (by unfold defer; split <;> exact id)

theorem host_skippable (reaches : Option (MessageKey I)) (exhausted : Bool) (cs : List (Candidate I))
    (w : World I ρ) : (skippable room reaches exhausted w cs).2.host = w.host := by
  induction cs generalizing w with
  | nil => rfl
  | cons c rest ih =>
    unfold skippable
    split
    · exact ih w
    · exact (ih _).trans (room.life.judge_host w c)

theorem surveyed_pruneSkipped (cs : List (Candidate I)) (reaches : Option (MessageKey I))
    (exhausted : Bool) : Surveyed P s (s.pruneSkipped room cs reaches exhausted).2 := by
  refine .of_memory rfl ?_
  have host : (s.pruneSkipped room cs reaches exhausted).2.world.host = s.world.host :=
    host_skippable reaches exhausted cs s.world
  exact fun holds => host ▸ holds

/-- **A classification as a control** is remembered, and nothing else is. -/
theorem classify_boundaries (room : Settings ρ) (s : Scheduler I ρ C) (c : Candidate I) :
    (s.classify room c).2.active.controlBoundaries = s.active.controlBoundaries ++
        (if (s.classify room c).1.disposition = .control then
          [(s.world.host.controlRevision, c.messageId)] else []) ∧
      ((s.classify room c).1.disposition = .runnable →
        (s.world.host.controlRevision, c.messageId) ∉ s.active.controlBoundaries) := by
  unfold classify
  cases room.life.eligibility s.world c with
  | runnable =>
    dsimp only
    split
    · exact ⟨by simp, nofun⟩
    split
    · exact ⟨by simp, nofun⟩
    · rename_i fresh
      exact ⟨by simp, fun _ => fresh⟩
  | inflight | pending | completed | failed | other => exact ⟨by simp, nofun⟩

theorem surveyed_classify (room : Settings ρ) (s : Scheduler I ρ C) (c : Candidate I) : Surveyed P s (s.classify room c).2 := by
  obtain ⟨-, -, boundaries, frame⟩ := classify_spec room s c
  have grown := (classify_boundaries room s c).1
  rw [frame] at grown ⊢
  exact ⟨rfl, rfl, ⟨_, grown⟩, id⟩

theorem surveyed_classifyAll (cs : List (Candidate I)) (s : Scheduler I ρ C) :
    Surveyed P s (classifyAll room cs s).2 := by
  induction cs generalizing s with
  | nil => exact .refl s
  | cons c rest ih => exact (surveyed_classify room s c).trans (ih _)

theorem mem_boundaries_classifyAll {cs : List (Candidate I)} {s : Scheduler I ρ C} {entry : Nat × I}
    (mem : entry ∈ (classifyAll room cs s).2.active.controlBoundaries) :
    entry ∈ s.active.controlBoundaries ∨ entry.2 ∈ cs.map Candidate.messageId := by
  induction cs generalizing s with
  | nil => exact .inl mem
  | cons c rest ih =>
    rcases ih (s := (s.classify room c).2) mem with known | later
    · rw [(classify_boundaries room s c).1] at known
      rcases mem_append.1 known with before | here
      · exact .inl before
      right
      split at here
      · rw [mem_singleton.1 here]
        exact mem_cons_self
      · cases here
    · exact .inr (mem_cons_of_mem _ later)

theorem runnable_of_classifyAll {cs : List (Candidate I)} (distinct : (cs.map Candidate.messageId).Nodup)
    {s : Scheduler I ρ C} {c : Candidate I} (mem : c ∈ (classifyAll room cs s).1)
    (runs : c.disposition = .runnable) : (s.world.host.controlRevision, c.messageId) ∉
      (classifyAll room cs s).2.active.controlBoundaries := by
  induction cs generalizing s with
  | nil => cases mem
  | cons d rest ih =>
    rw [map_cons, nodup_cons] at distinct
    obtain ⟨⟨disposition, same⟩, -, boundaries, frame⟩ := classify_spec room s d
    unfold classifyAll at mem ⊢
    dsimp only at mem ⊢
    rcases mem_cons.1 mem with rfl | mem
    · have id : (s.classify room d).1.messageId = d.messageId := by rw [same]; rfl
      rw [id]
      intro remembered
      rcases mem_boundaries_classifyAll remembered with known | later
      · have grown := (classify_boundaries room s d).1
        rw [if_neg (by rw [runs]; simp), append_nil] at grown
        rw [grown] at known
        exact (classify_boundaries room s d).2 runs known
      · exact distinct.1 later
    · have later := ih distinct.2 mem
      rw [frame] at later ⊢
      exact later

theorem selectable_classified (room : Settings ρ) (s : Scheduler I ρ C) (read : PageRead I C) : ∃ cs : List (Candidate I),
    (cs.map Candidate.messageId).Nodup ∧ (s.selectable room read).2 = (classifyAll room cs s).2 ∧
      ∀ c ∈ (s.selectable room read).1, c ∈ (classifyAll room cs s).1 := by
  unfold selectable
  dsimp only
  split
  · exact ⟨_, nodup_merge _ _, rfl, fun c mem => mem⟩
  split
  · refine ⟨_, ?_, rfl, fun c mem => mem⟩
    rw [retained_ids]
    exact originals_ids_nodup.sublist (segment_sublist.map _)
  · refine ⟨_, nodup_merge _ _, rfl, fun c mem => ?_⟩
    exact ((s.candidates room read.rows).2.resumedFirst_perm _).mem_iff.1 mem

theorem surveyed_readPage (room : Settings ρ) (s : Scheduler I ρ C) (recovery : Bool) (answers : Answers I ρ C)
    (holds : ∀ read, answers.read = some read → P read.meanwhile.host) :
    Surveyed P s (s.readPage room recovery answers).2 := by
  unfold readPage
  dsimp only
  split
  · exact .refl s
  split
  · split
    · exact .refl s
    rename_i read asked
    have awaited : Surveyed P s (s.await room read.meanwhile).absorb :=
      (surveyed_await (holds read asked)).trans surveyed_absorb
    split <;> exact awaited
  · split
    · exact .refl s
    rename_i row t answered
    have asked : Surveyed P s t := by
      split at answered
      · cases answered; exact .refl s
      obtain ⟨read, came, eq⟩ := Option.map_eq_some_iff.1 answered
      cases eq
      exact surveyed_await (holds read came)
    have cleared : Surveyed P s { t with active := { t.active with gateMessage := none } } :=
      asked.trans (.of_memory rfl id)
    have absorbed := cleared.trans surveyed_absorb
    split
    · exact absorbed
    split
    · exact absorbed.trans (.of_memory rfl id)
    rename_i row
    have classified := absorbed.trans (surveyed_classify room _ (.listed row))
    split
    · exact classified.trans (.of_memory rfl id)
    · exact classified

theorem surveyed_advanceScan (read : PageRead I C) (skipped : List I) (segment : List (Message I)) :
    Surveyed P s (s.advanceScan room read skipped segment).2 := by
  refine .of_memory (memory_advanceScan read skipped segment) ?_
  unfold advanceScan
  split
  · exact id
  dsimp only
  split
  · exact id
  · split <;> exact id

theorem surveyed_chooseFrom (read : PageRead I C) (cs : List (Candidate I)) (selection : Selection I)
    (skipped : List I) (segment : List (Message I)) :
    Surveyed P s (s.chooseFrom room read cs selection skipped segment).call.scheduler := by
  unfold chooseFrom
  split
  · split
    · exact .refl s
    · split <;> exact .refl s
  · split
    · exact .refl s
    split
    · exact surveyed_defer _
    · exact surveyed_advanceScan read skipped segment

theorem surveyed_choose (read : PageRead I C) : Surveyed P s (s.choose room read).call.scheduler := by
  obtain ⟨cs, -, frame, -⟩ := selectable_classified room s read
  have selected : Surveyed P s (s.selectable room read).2 := by
    rw [frame]
    exact surveyed_classifyAll cs s
  exact (selected.trans (surveyed_pruneSkipped _ _ _)).trans (surveyed_chooseFrom ..)

theorem surveyed_stage (answers : Answers I ρ C)
    (holds : ∀ read, answers.read = some read → P read.meanwhile.host) :
    Surveyed P s (stageCall room (s.stage room answers)).scheduler := by
  unfold stage
  dsimp only
  split
  · exact surveyed_absorb
  generalize Option.filter _ (s.absorb.nextLocal room) = ready
  cases ready with
  | some event => exact surveyed_absorb
  | none =>
    have paged := surveyed_absorb.trans (surveyed_readPage (P := P) room s.absorb
      (s.absorb.active.recovery || !s.absorb.syncComplete) answers holds)
    generalize s.absorb.readPage room _ answers = read at paged
    obtain ⟨answer, t⟩ := read
    cases answer with
    | error outcome => exact paged
    | ok read =>
      dsimp only
      split
      · exact paged
      generalize (if read.rows = [] ∧ t.syncComplete = true then t.nextLocal room else none) = queued
      cases queued with
      | some event => exact paged
      | none => exact paged.trans (surveyed_choose read)

theorem surveyed_controlPage (room : Settings ρ) (s : Scheduler I ρ C) (answers : Answers I ρ C)
    (holds : ∀ read, answers.read = some read → P read.meanwhile.host) :
    Surveyed P s (s.controlPage room answers).2 := by
  unfold controlPage
  split
  · exact .refl s
  split
  · exact .refl s
  rename_i read asked
  have awaited : Surveyed P s (s.await room read.meanwhile).absorb :=
    (surveyed_await (holds read asked)).trans surveyed_absorb
  dsimp only
  split
  · exact awaited
  split
  · exact awaited
  · exact awaited.trans (.of_memory rfl id)

theorem surveyed_priorityPick (page : Page I C) (cs : List (Candidate I)) (s : Scheduler I ρ C) :
    Surveyed P s (priorityPick room page cs s).scheduler := by
  induction cs generalizing s with
  | nil => exact .refl s
  | cons c rest ih =>
    unfold priorityPick
    split
    · have pruned : Surveyed P s (s.pruneSkipped room [c] (MessageKey.lastOf page.messages)
          page.nextCursor.isNone).2 := surveyed_pruneSkipped [c] _ _
      dsimp only
      split
      · exact (pruned.trans (surveyed_defer none)).trans (ih _)
      · exact pruned.trans (ih _)
    · split
      · exact .refl s
      · exact ih s

theorem surveyed_priorityCall (answers : Answers I ρ C)
    (holds : ∀ read, answers.read = some read → P read.meanwhile.host) :
    Surveyed P s (s.priorityCall room answers).scheduler := by
  unfold priorityCall
  split
  · exact .refl s
  have paged := surveyed_controlPage (P := P) room s answers holds
  generalize s.controlPage room answers = answered at paged
  obtain ⟨page, t⟩ := answered
  cases page with
  | error outcome => exact paged
  | ok page =>
    exact (paged.trans (surveyed_classifyAll _ t)).trans (surveyed_priorityPick page _ _)

/-- **Up to its call** a step adds to the pass what it recognises, and no more. -/
theorem surveyed_call (room : Settings ρ) (s : Scheduler I ρ C) (answers : Answers I ρ C)
    (holds : ∀ read, answers.read = some read → P read.meanwhile.host) :
    Surveyed P s (s.call room answers).scheduler := by
  unfold call
  dsimp only
  split
  · exact .refl s
  split
  · exact .refl s
  split
  · exact surveyed_priorityCall answers holds
  · exact surveyed_stage answers holds

end Survey

/-! ## What a step dispatches -/

section Turns

variable {u : Scheduler I ρ C} {members : List (Candidate I)} {priority : Bool}

theorem several_selectPrefix (read : Frontier I) (cap : Nat) (cs : List (Candidate I))
    {taken : List (Candidate I)} (runs : ∀ c ∈ taken, c.disposition = .runnable) :
    (selectPrefix read cap cs taken).members.length ≤ 1 ∨
      ∀ c ∈ (selectPrefix read cap cs taken).members, c.disposition = .runnable := by
  induction cs generalizing taken with
  | nil => exact .inr runs
  | cons c rest ih =>
    unfold selectPrefix
    dsimp only
    split
    · exact .inr runs
    split
    · exact ih runs
    rename_i live
    split
    · exact .inr runs
    rename_i free
    split
    · split
      · exact .inl (Nat.le_refl 1)
      · exact .inr runs
    next single =>
      have its : c.disposition = .runnable := by
        cases which : c.disposition with
        | runnable => rfl
        | skip => exact absurd which live
        | held => exact absurd which free
        | control => exact absurd (.inr (.inl which)) single
        | boundary => exact absurd (.inr (.inr which)) single
      have more : ∀ d ∈ taken ++ [c], d.disposition = .runnable := by
        intro d mem
        rcases mem_concat mem with mem | mem
        · exact runs d mem
        · rw [mem]
          exact its
      split
      · exact .inr more
      · exact ih more

/-- **A batch of a selection** holds no control that was recognised at this revision. -/
theorem choose_unbatched {read : PageRead I C} (chosen : s.choose room read = .turn members u) :
    members.length ≤ 1 ∨ ∀ c ∈ members,
      (u.world.host.controlRevision, c.messageId) ∉ u.active.controlBoundaries := by
  obtain ⟨cs, distinct, frame, sub⟩ := selectable_classified room s read
  have pruned : (((s.selectable room read).2.pruneSkipped room (s.selectable room read).1
      (MessageKey.lastOf read.rows) read.exhausted).2.chooseFrom room read (s.selectable room read).1
      ((s.selectable room read).2.selectionOf room read (s.selectable room read).1)
      ((s.selectable room read).2.pruneSkipped room (s.selectable room read).1
        (MessageKey.lastOf read.rows) read.exhausted).1 s.localSegment.1) = .turn members u := chosen
  have active : ((s.selectable room read).2.pruneSkipped room (s.selectable room read).1
      (MessageKey.lastOf read.rows) read.exhausted).2.active = (classifyAll room cs s).2.active := by
    rw [← frame]
    rfl
  have host : ((s.selectable room read).2.pruneSkipped room (s.selectable room read).1
      (MessageKey.lastOf read.rows) read.exhausted).2.world.host = s.world.host := by
    refine (host_skippable _ _ _ _).trans ?_
    rw [frame, classifyAll_world]
  obtain ⟨same, ⟨event, member, -, rfl, -⟩ | ⟨-, selected⟩⟩ := chooseFrom_turn pruned
  · exact .inl (Nat.le_refl 1)
  obtain ⟨taken, part, eq, -⟩ := selectPrefix_members
    { listed := read.rows.map Message.id, pageReaches := MessageKey.lastOf read.rows
      exhausted := read.exhausted, resumed := (s.selectable room read).2.active.resumedRetries }
    room.turnSize (s.selectable room read).1 fun c (mem : c ∈ []) => absurd mem not_mem_nil
  rw [same, active, host, selected]
  refine (several_selectPrefix _ room.turnSize (s.selectable room read).1
    fun c (mem : c ∈ []) => absurd mem not_mem_nil).imp_right ?_
  intro runs c mem
  have walked : c ∈ (s.selectable room read).1 := by
    rw [nil_append] at eq
    refine part.subset ?_
    rw [← eq]
    exact mem
  exact runnable_of_classifyAll distinct (sub c walked) (runs c mem)

theorem stage_unbatched {answers : Answers I ρ C}
    (called : stageCall room (s.stage room answers) = .turn members priority u) :
    members.length ≤ 1 ∨ ∀ c ∈ members,
      (u.world.host.controlRevision, c.messageId) ∉ u.active.controlBoundaries := by
  cases staged : s.stage room answers with
  | ended outcome t | localEvent event t => rw [staged] at called; cases called
  | selection read t =>
    rw [staged] at called
    cases chosen : t.choose room read with
    | ended outcome v | localEvent event v | missing v =>
      simp only [stageCall, chosen, Choice.call] at called
      cases called
    | turn members v =>
      simp only [stageCall, chosen, Choice.call] at called
      cases called
      exact choose_unbatched chosen

theorem priorityPick_single {page : Page I C} {cs : List (Candidate I)} {s : Scheduler I ρ C}
    (called : priorityPick room page cs s = .turn members priority u) :
    priority = true ∧ members.length ≤ 1 := by
  induction cs generalizing s with
  | nil => cases called
  | cons c rest ih =>
    unfold priorityPick at called
    split at called
    · exact ih called
    split at called
    · cases called
      exact ⟨rfl, Nat.le_refl 1⟩
    · exact ih called

/-- **A batch of a step**, likewise. -/
theorem call_unbatched {answers : Answers I ρ C} (called : s.call room answers = .turn members priority u) :
    members.length ≤ 1 ∨ ∀ c ∈ members,
      (u.world.host.controlRevision, c.messageId) ∉ u.active.controlBoundaries := by
  unfold call at called
  dsimp only at called
  split at called
  · cases called
  split at called
  · cases called
  split at called
  · unfold priorityCall at called
    split at called
    · cases called
    split at called
    · cases called
    · exact .inl (priorityPick_single called).2
  · exact stage_unbatched called

end Turns

end Scheduler

end BandSdk.Scheduling

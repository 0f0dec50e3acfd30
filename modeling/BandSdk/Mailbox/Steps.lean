/-
# Mailbox.Steps -- every spared event keeps the room settled

One lemma per operation.  Between two jobs the worker holds nothing and its
phase is stale (`Serving … none`); from there it takes the next job
(`Serving.takeNext`), hands the queue to a fresh worker (`Serving.restart`) or
closes the record behind itself (`idle_of_leave`).
-/
import BandSdk.Mailbox.Invariant

namespace BandSdk.Mailbox

open BandSdk.Theory List RoomState

namespace RoomState

variable {α : Type} {s t : RoomState α} {k w j : Nat} {held : Option (Nat × RunTask α)}
  {waiting : List Nat}

theorem phaseOf_ne_done (held : Option (Nat × RunTask α)) : phaseOf held ≠ .done := by
  cases held <;> simp [phaseOf]

theorem Busy.not_workerless (busy : s.Busy k w held waiting) : s.workerless k = false := by
  unfold workerless
  rw [busy.worker]
  dsimp only
  rw [busy.phase]
  cases held <;> rfl

/-! ## How far the worker is -/

/-- Loop steps left until the worker is through with the job in its hand. -/
def stage : Option (Nat × RunTask α) → Nat
  | none => 4
  | some (_, .created _) => 3
  | some (_, .entered) => 2
  | some (_, .done _) => 1

def stageOf : Phase α → Nat
  | .created => stage (none : Option (Nat × RunTask α))
  | .awaiting j task => stage (some (j, task))
  | .getting | .done => 0

/-- Loop steps left until the room's worker is through with job `j`. -/
def rank (s : RoomState α) (j : Nat) : Nat :=
  4 * (j - s.processed.length) + match s.entry with
    | none => 0
    | some k => match (s.records k).worker with
        | none => 0
        | some w => stageOf (s.workers w).phase

theorem Busy.rank (busy : s.Busy k w held waiting) (j : Nat) :
    s.rank j = 4 * (j - s.processed.length) + stage held := by
  unfold RoomState.rank
  rw [busy.entry]
  dsimp only
  rw [busy.worker]
  dsimp only
  rw [busy.phase]
  rcases held with _ | ⟨i, task⟩ <;> rfl

/-- An event that is not the worker's: nothing is processed, nobody is further
from being served. -/
structure Standing (s t : RoomState α) : Prop where
  processed : t.processed = s.processed
  settled : t.Settled
  near : s.Idle ∨ ∀ j, t.rank j = s.rank j

variable {result : Option (Future α)} {held' : Option (Nat × RunTask α)} {e : MailboxEvent α}
    {waiting' : List Nat}

theorem Busy.standing (busy : s.Busy k w held waiting) (busy' : t.Busy k w held' waiting')
    (processed : t.processed = s.processed) (near : stage held' = stage held) : s.Standing t where
  processed := processed
  settled := .inr ⟨_, _, _, _, busy'⟩
  near := .inr fun j => by rw [busy.rank, busy'.rank, processed, near]

theorem Settled.standing (settled : s.Settled) : s.Standing s where
  processed := rfl
  settled := settled
  near := .inr fun _ => rfl

/-! ## Submissions and closing -/

theorem Busy.enqueue (busy : s.Busy k w held waiting) (open' : (s.records k).closing = false)
    (unset : result = none ∨ result = some .pending) :
    (s.enqueue k result).Busy k w held (waiting ++ [s.accepted]) where
  entry := busy.entry
  known := busy.known
  worker := by simpa [RoomState.enqueue] using busy.worker
  issued := busy.issued
  record := busy.record
  alone := busy.alone
  queue := by simp [RoomState.enqueue, busy.queue, open', sentinel]
  homes j inLine := by
    rw [← append_assoc, mem_append, mem_singleton] at inLine
    rcases inLine with old | rfl
    · have known := busy.ledger.mem_range.1 (mem_append_right _ old)
      simpa [RoomState.enqueue, Nat.ne_of_lt known] using busy.homes j old
    · simp [RoomState.enqueue]
  running j v runs := by
    by_cases new : j = s.accepted
    · subst new
      simp [RoomState.enqueue] at runs
    · exact busy.running j v (by simpa [RoomState.enqueue, new] using runs)
  ledger := busy.ledger.enqueue k unset
  phase := busy.phase
  fresh empty := ⟨(busy.fresh empty).1, by simp [RoomState.enqueue]⟩

theorem Idle.submit (idle : s.Idle) (unset : result = none ∨ result = some .pending) :
    ∃ t, s.submit result = .ok t ∧ t.Busy s.recordCount s.workerCount none [s.accepted] := by
  unfold RoomState.submit
  rw [idle.entry]
  refine ⟨_, rfl, ?_⟩
  have ledger := idle.ledger.enqueue s.recordCount unset
  have starting : workerless ({ s.setRecord s.recordCount ⟨[], none, none, false⟩ with
      entry := some s.recordCount, recordCount := s.recordCount + 1 } : RoomState α)
      s.recordCount = true := by simp [workerless]
  rw [startWorker, if_pos starting]
  constructor
  case toServing =>
    constructor
    case entry => rfl
    case known => exact Nat.lt_succ_self _
    case worker => simp [enqueue]
    case issued => exact Nat.lt_succ_self _
    case record => simp [enqueue]
    case alone =>
      intro v other
      simpa [enqueue, other] using idle.alone v
    case queue => simp [enqueue, sentinel]
    case homes => simp [enqueue]
    case running =>
      intro j v runs
      by_cases new : j = s.accepted
      · subst new
        simp [enqueue] at runs
      · have none' := idle.running j
        simp [enqueue, new, none'] at runs
    case ledger =>
      refine ledger.congr (fun _ => rfl) (fun _ => rfl) rfl rfl rfl (Nat.le_succ _) ?_
      intro v issued
      have old : v ≠ s.workerCount := Nat.ne_of_lt issued
      simp [enqueue, old]
  case phase => simp [enqueue, phaseOf]
  case fresh => simp [enqueue]

theorem Busy.submit (busy : s.Busy k w held waiting) (unset : result = none ∨ result = some .pending) :
    (s.records k).closing = true ∧ s.submit result = .error .mailboxClosing ∨
    (s.records k).closing = false ∧
      ∃ t, s.submit result = .ok t ∧ t.Busy k w held (waiting ++ [s.accepted]) := by
  unfold RoomState.submit
  rw [busy.entry]
  dsimp only
  cases closing : (s.records k).closing with
  | true => exact .inl ⟨rfl, by simp⟩
  | false =>
    refine .inr ⟨rfl, s.enqueue k result, ?_, busy.enqueue closing unset⟩
    simp [startWorker, busy.not_workerless]

theorem startWorker_processed : (s.startWorker k).processed = s.processed := by
  unfold startWorker
  split <;> rfl

theorem submit_processed (sent : s.submit result = .ok t) : t.processed = s.processed := by
  unfold submit at sent
  split at sent
  · split at sent
    · cases sent
    · cases sent
      exact startWorker_processed
  · cases sent
    exact startWorker_processed

theorem Settled.submit (settled : s.Settled) (unset : result = none ∨ result = some .pending) :
    s.Standing (s.accept (s.submit result)) := by
  cases sent : s.submit result with
  | error refusal => exact settled.standing
  | ok t =>
    rcases settled with idle | ⟨k, w, held, waiting, busy⟩
    · obtain ⟨t', sent', busy⟩ := idle.submit unset
      cases sent.symm.trans sent'
      exact ⟨submit_processed sent, .inr ⟨_, _, _, _, busy⟩, .inl idle⟩
    · rcases busy.submit unset with ⟨-, refused⟩ | ⟨-, t', sent', busy'⟩
      · cases sent.symm.trans refused
      · cases sent.symm.trans sent'
        exact busy.standing busy' (submit_processed sent) rfl

theorem Busy.close (busy : s.Busy k w held waiting) (open' : (s.records k).closing = false) :
    (s.setRecord k { s.records k with
      closing := true, queue := (s.records k).queue ++ [none] }).Busy k w held waiting where
  entry := busy.entry
  known := busy.known
  worker := by simpa using busy.worker
  issued := busy.issued
  record := busy.record
  alone := busy.alone
  queue := by simp [busy.queue, open', sentinel]
  homes := busy.homes
  running := busy.running
  ledger := busy.ledger.congr (fun _ => rfl) (fun _ => rfl) rfl rfl rfl (Nat.le_refl _) fun _ _ => rfl
  phase := busy.phase
  fresh empty := ⟨(busy.fresh empty).1, by simp⟩

theorem Settled.close (settled : s.Settled) (caller : Caller) : s.Standing (s.accept (s.close caller)) := by
  unfold RoomState.close
  split
  · exact settled.standing
  rcases settled with idle | ⟨k, w, held, waiting, busy⟩
  · rw [idle.entry]
    exact Settled.standing (.inl idle)
  · rw [busy.entry]
    dsimp only
    split
    · exact Settled.standing (.inr ⟨_, _, _, _, busy⟩)
    · rename_i open'
      exact busy.standing (busy.close (by simpa using open')) rfl rfl

/-! ## Cancellations -/

/-- The worker changes its flags and its run task, not what it holds. -/
theorem Busy.rework (busy : s.Busy k w held waiting) {worker : Worker α}
    (held' : Option (Nat × RunTask α)) (record : worker.record = k)
    (same : held'.map Prod.fst = held.map Prod.fst) (phase : worker.phase = phaseOf held')
    (fresh : held' = none → worker.mustCancel = false) (ledger : s.Ledger held' waiting) :
    (s.setWorker w worker).Busy k w held' waiting where
  entry := busy.entry
  known := busy.known
  worker := busy.worker
  issued := busy.issued
  record := by simpa using record
  alone v other := by simpa [other] using busy.alone v other
  queue := busy.queue
  homes := by
    have fsts : held'.toList.map Prod.fst = held.toList.map Prod.fst := by
      cases held <;> cases held' <;> simp_all
    rw [fsts]
    exact busy.homes
  running i v runs := by
    obtain ⟨rfl, task, rfl⟩ := busy.running i v runs
    cases held' with
    | none => simp at same
    | some pair =>
      obtain ⟨i', task'⟩ := pair
      simp only [Option.map_some, Option.some.injEq] at same
      exact ⟨rfl, task', by rw [same]⟩
  ledger := by
    refine ledger.congr (fun _ => rfl) (fun _ => rfl) rfl rfl rfl (Nat.le_refl _) ?_
    intro v _
    by_cases own : v = w
    · subst own
      simp [record, busy.record]
    · simp [own]
  phase := by simpa using phase
  fresh empty := by
    refine ⟨by simpa using fresh empty, ?_⟩
    have none' : held = none := by
      subst empty
      cases held <;> simp_all
    exact (busy.fresh none').2

theorem Busy.revoke (busy : s.Busy k w held waiting) (pending : (s.jobs j).result = some .pending) :
    (s.setJob j { s.jobs j with result := some .cancelled }).Busy k w held waiting where
  entry := busy.entry
  known := busy.known
  worker := busy.worker
  issued := busy.issued
  record := busy.record
  alone := busy.alone
  queue := busy.queue
  homes i inLine := by
    by_cases same : i = j
    · subst same
      simpa using busy.homes i inLine
    · simpa [same] using busy.homes i inLine
  running i v runs := by
    by_cases same : i = j
    · subst same
      exact busy.running i v (by simpa using runs)
    · exact busy.running i v (by simpa [same] using runs)
  ledger := busy.ledger.revoke pending
  phase := busy.phase
  fresh := busy.fresh

theorem Settled.cancelWaiter (settled : s.Settled) (stepped : s.cancelWaiter j = some t) : s.Standing t := by
  unfold RoomState.cancelWaiter at stepped
  split at stepped
  · rename_i pending
    cases stepped
    rcases settled with idle | ⟨k, w, held, waiting, busy⟩
    · refine ⟨rfl, .inl ⟨idle.entry, idle.alone, fun i => ?_, idle.ledger.revoke pending⟩, .inl idle⟩
      by_cases same : i = j
      · subst same
        simpa using idle.running i
      · simpa [same] using idle.running i
    · exact busy.standing (busy.revoke pending) rfl rfl
  · cases stepped

theorem cancelResult_of_done (done : (s.jobs j).result ≠ some .pending) : s.cancelResult j = s := by
  unfold cancelResult
  split
  · rename_i pending
    exact absurd pending done
  · rfl

theorem Busy.abandonJob (busy : s.Busy k w held waiting)
    (done : (s.jobs j).result ≠ none ∧ (s.jobs j).result ≠ some .pending) :
    s.Standing (s.abandonJob j) := by
  have kept : s.Standing s := Settled.standing (.inr ⟨_, _, _, _, busy⟩)
  unfold RoomState.abandonJob
  rw [cancelResult_of_done done.2]
  split
  · exact kept
  rename_i v runs
  obtain ⟨rfl, task, rfl⟩ := busy.running j v runs
  rw [busy.phase]
  have gone : revoked (s.jobs j).result = true := by
    rcases busy.ledger.unsettled j (busy.ledger.not_processed (by simp)) with n | p | r
    · exact absurd n done.1
    · exact absurd p done.2
    · exact r
  cases task with
  | done ending => exact kept
  | entered =>
    exact busy.standing (busy.rework _ busy.record rfl rfl nofun busy.ledger) rfl rfl
  | created b =>
    have revoked : s.Ledger (some (j, .created true)) waiting :=
      busy.ledger.advance (.inr ⟨b, rfl⟩) fun _ => gone
    have cancelled : (s.setPhase v (.awaiting j (.created true))).Busy k v
        (some (j, .created true)) waiting :=
      busy.rework _ busy.record rfl rfl nofun revoked
    exact busy.standing cancelled rfl rfl

theorem Settled.abandon (settled : s.Settled) (stepped : s.abandon j = some t) : s.Standing t := by
  unfold RoomState.abandon at stepped
  split at stepped
  · cases stepped
  · cases stepped
  rename_i result noNone noPending
  cases stepped
  rcases settled with idle | ⟨k, w, held, waiting, busy⟩
  · have same : s.abandonJob j = s := by
      unfold abandonJob
      rw [idle.running j, cancelResult_of_done noPending]
    rw [same]
    exact Settled.standing (.inl idle)
  · exact busy.abandonJob ⟨noNone, noPending⟩

theorem Settled.cancelWorker (settled : s.Settled) (ok : s.spared (.cancelWorker w) = true)
    (stepped : s.cancelWorker w = some t) : s.Standing t := by
  rcases settled with idle | ⟨k, v, held, waiting, busy⟩
  · simp [RoomState.cancelWorker, idle.alone w] at stepped
  by_cases own : w = v
  · subst own
    have phase := busy.phase
    rcases held with _ | ⟨j, _ | _ | ending⟩
    · simp [spared, phase, phaseOf] at ok
    · simp [spared, phase, phaseOf] at ok
    · simp only [RoomState.cancelWorker, phase, phaseOf, Option.some.injEq] at stepped
      subst stepped
      exact busy.standing (busy.rework _ busy.record rfl rfl nofun busy.ledger) rfl rfl
    · simp only [RoomState.cancelWorker, phase, phaseOf, Option.some.injEq] at stepped
      subst stepped
      exact busy.standing (busy.rework _ busy.record rfl rfl nofun busy.ledger) rfl rfl
  · simp [RoomState.cancelWorker, busy.alone w own] at stepped

/-! ## The worker -/

theorem idle_of_leave (record : (s.workers w).record = k)
    (alone : ∀ v, v ≠ w → (s.workers v).phase = .done) (queue : (s.records k).queue = [])
    (running : ∀ j, (s.jobs j).running = none) (ledger : s.Ledger none []) :
    (s.leave w).Idle := by
  unfold leave disown
  rw [record]
  dsimp only
  have quiet : ∀ s' : RoomState α, (s'.records k).queue = [] →
      (if (s'.records k).queue = [] then { s' with entry := none }
        else if (s'.records k).worker = none then s'.startWorker k else s') =
        { s' with entry := none } := by
    intro s' empty
    rw [if_pos empty]
  have phases : ∀ v, ((s.setPhase w .done).workers v).phase = .done := by
    intro v
    by_cases own : v = w
    · subst own
      simp [setPhase_eq]
    · simpa [setPhase_eq, own] using alone v own
  have kept : ∀ v, ((s.setPhase w .done).workers v).record = (s.workers v).record := by
    intro v
    by_cases own : v = w
    · subst own
      simp [setPhase_eq]
    · simp [setPhase_eq, own]
  split
  · rw [quiet _ (by simpa using queue)]
    exact ⟨rfl, phases, running, ledger.congr (fun _ => rfl) (fun _ => rfl) rfl rfl rfl (Nat.le_refl _) fun v _ => kept v⟩
  · rw [quiet _ (by simpa using queue)]
    exact ⟨rfl, phases, running, ledger.congr (fun _ => rfl) (fun _ => rfl) rfl rfl rfl (Nat.le_refl _) fun v _ => kept v⟩

/-- The worker leaves a queue behind: a fresh worker takes it up. -/
theorem Serving.restart (serving : s.Serving k w none waiting) (more : (s.records k).queue ≠ []) :
    (s.leave w).Busy k s.workerCount none waiting := by
  have ne : s.workerCount ≠ w := (Nat.ne_of_lt serving.issued).symm
  unfold leave disown
  rw [serving.record]
  dsimp only
  have owned : ((s.setPhase w .done).records k).worker = some w := by simpa using serving.worker
  rw [if_pos owned]
  simp only [setRecord_records, Function.update_self]
  rw [if_neg (by simpa using more), if_pos trivial, startWorker, if_pos (by simp [workerless])]
  constructor
  case toServing =>
    constructor
    case entry => exact serving.entry
    case known => exact serving.known
    case worker => simp [setPhase_eq]
    case issued => exact Nat.lt_succ_self _
    case record => simp [setPhase_eq]
    case alone =>
      intro v other
      have other' : v ≠ s.workerCount := other
      by_cases own : v = w
      · subst own
        simp [setPhase_eq, other']
      · simpa [setPhase_eq, other', own] using serving.alone v own
    case queue => simpa using serving.queue
    case homes => exact serving.homes
    case running =>
      intro i v runs
      obtain ⟨-, task, hand⟩ := serving.running i v runs
      cases hand
    case ledger =>
      refine serving.ledger.congr (fun _ => rfl) (fun _ => rfl) rfl rfl rfl (Nat.le_succ _) ?_
      intro v issued
      have old : v ≠ s.workerCount := Nat.ne_of_lt issued
      by_cases own : v = w
      · subst own
        simp [setPhase_eq, old]
      · simp [setPhase_eq, old, own]
  case phase => simp [setPhase_eq, phaseOf]
  case fresh => exact fun _ => ⟨by simp [setPhase_eq], by simpa using more⟩

/-- A step of the worker or of its run task: whoever still waits is nearer. -/
structure Onward (s t : RoomState α) : Prop where
  settled : t.Settled
  nearer : ∀ j, j < s.accepted → j ∉ s.processed → j ∈ t.processed ∨ t.rank j < s.rank j

theorem Idle.all_processed (idle : s.Idle) (known : j < s.accepted) : j ∈ s.processed := by
  simpa using idle.ledger.mem_range.2 known

theorem Busy.onward {v : Nat} (busy : s.Busy k w held waiting) (busy' : t.Busy k v held' waiting')
    (processed : t.processed = s.processed) (near : stage held' < stage held) : s.Onward t where
  settled := .inr ⟨_, _, _, _, busy'⟩
  nearer j _ _ := .inr (by rw [busy.rank, busy'.rank, processed]; omega)

/-- The worker is through with the job in its hand. -/
theorem Busy.onward_next {i : Nat} {ended : Ending α} {v : Nat}
    (busy : s.Busy k w (some (i, .done ended)) waiting)
    (busy' : t.Busy k v held' waiting') (processed : t.processed = s.processed ++ [i]) :
    s.Onward t where
  settled := .inr ⟨_, _, _, _, busy'⟩
  nearer j known unprocessed := by
    have place : i = s.processed.length := by
      have at' : (List.range s.accepted)[s.processed.length]? = some i := by
        rw [← busy.ledger.fifo]
        simp
      obtain ⟨_, same⟩ := List.getElem?_eq_some_iff.1 at'
      simpa using same.symm
    by_cases same : j = i
    · subst same
      exact .inl (by simp [processed])
    · -- a job not processed yet stands behind every processed one
      have behind : i < j := by
        by_contra before
        have early : j < s.processed.length := by omega
        have at' : (List.range s.accepted)[j]? = some j := by simp [known]
        rw [← busy.ledger.fifo, getElem?_append_left early] at at'
        exact unprocessed (mem_of_getElem? at')
      have small : stage held' ≤ 4 := by rcases held' with _ | ⟨_, _ | _ | _⟩ <;> simp [stage]
      refine .inr ?_
      rw [busy.rank, busy'.rank, processed, length_append, length_singleton]
      have one : stage (some (i, RunTask.done ended)) = 1 := rfl
      omega

theorem Idle.onward (idle : t.Idle) (accepted : t.accepted = s.accepted) : s.Onward t where
  settled := .inl idle
  nearer _ known _ := .inl (idle.all_processed (accepted ▸ known))

theorem leave_accepted : (s.leave w).accepted = s.accepted := by
  simp only [leave, disown]
  repeat' split
  all_goals first | rfl | (unfold startWorker; split <;> rfl)

theorem leave_processed : (s.leave w).processed = s.processed := by
  simp only [leave, disown]
  repeat' split
  all_goals first | rfl | exact startWorker_processed

/-- What a worker with an empty hand does next. -/
theorem Serving.takeNext (serving : s.Serving k w none waiting) (more : (s.records k).queue ≠ []) :
    (s.takeNext w).accepted = s.accepted ∧ (s.takeNext w).processed = s.processed ∧
    ((s.takeNext w).Idle ∨ ∃ j rest, (s.takeNext w).Busy k w (some (j, .created false)) rest) := by
  unfold RoomState.takeNext
  rw [serving.record]
  dsimp only
  cases waiting with
  | nil =>
    -- only the sentinel is left
    have last : (s.records k).queue = [none] := by
      have queue := serving.queue
      unfold sentinel at queue
      split at queue
      · simpa using queue
      · exact absurd queue more
    rw [last]
    refine ⟨leave_accepted, leave_processed, .inl ?_⟩
    refine idle_of_leave (k := k) serving.record serving.alone (by simp) ?_ ?_
    · intro i
      cases runs : (s.jobs i).running with
      | none => exact runs
      | some v =>
        obtain ⟨-, task, hand⟩ := serving.running i v runs
        cases hand
    · exact serving.ledger.congr (fun _ => rfl) (fun _ => rfl) rfl rfl rfl (Nat.le_refl _) fun _ _ => rfl
  | cons j rest =>
    have queue := serving.queue
    rw [map_cons, cons_append] at queue
    rw [queue]
    refine ⟨rfl, rfl, .inr ⟨j, rest, ?_⟩⟩
    constructor
    case toServing =>
      constructor
      case entry => exact serving.entry
      case known => exact serving.known
      case worker => simpa using serving.worker
      case issued => exact serving.issued
      case record => simpa using serving.record
      case alone =>
        intro v other
        simpa [other] using serving.alone v other
      case queue => simp
      case homes =>
        intro i inLine
        have home := serving.homes i (by simpa using inLine)
        by_cases same : i = j
        · subst same
          simpa using home
        · simpa [same] using home
      case running =>
        intro i v runs
        by_cases same : i = j
        · subst same
          simp only [setPhase_eq, setWorker_jobs, setJob_jobs, Function.update_self, Option.some.injEq] at runs
          exact ⟨runs.symm, _, rfl⟩
        · obtain ⟨-, task, hand⟩ := serving.running i v (by simpa [same] using runs)
          cases hand
      case ledger =>
        refine serving.ledger.take.congr ?_ ?_ rfl rfl rfl (Nat.le_refl _) ?_
        · intro i
          by_cases same : i = j
          · subst same
            simp
          · simp [same]
        · intro i
          by_cases same : i = j
          · subst same
            simp
          · simp [same]
        · intro v _
          by_cases own : v = w
          · subst own
            simp
          · simp [own]
    case phase => simp [phaseOf]
    case fresh => exact nofun

theorem Busy.workerStart (busy : s.Busy k w held waiting) (stepped : s.workerStart w = some t) :
    s.Onward t := by
  rcases held with _ | ⟨j, task⟩
  · obtain ⟨calm, more⟩ := busy.fresh rfl
    simp only [workerStart, busy.phase, phaseOf, calm, Bool.false_eq_true, if_false,
      Option.some.injEq] at stepped
    subst stepped
    obtain ⟨accepted, processed, idle | ⟨j, rest, busy'⟩⟩ := busy.toServing.takeNext more
    · exact idle.onward accepted
    · exact busy.onward busy' processed (by simp [stage])
  · simp [workerStart, busy.phase, phaseOf] at stepped

/-- The body of the job in hand starts. -/
theorem Busy.begin {mustCancel : Bool} (busy : s.Busy k w (some (j, .created mustCancel)) waiting)
    (home : (s.workers w).record = (s.jobs j).home) :
    ({ s.setPhase w (.awaiting j .entered) with starts := s.starts ++ [(w, j)] } :
      RoomState α).Busy k w (some (j, .entered)) waiting where
  entry := busy.entry
  known := busy.known
  worker := busy.worker
  issued := busy.issued
  record := by simpa using busy.record
  alone v other := by simpa [other] using busy.alone v other
  queue := busy.queue
  homes := busy.homes
  running i v runs := by
    obtain ⟨own, task, hand⟩ := busy.running i v runs
    cases hand
    exact ⟨own, _, rfl⟩
  ledger := by
    refine (busy.ledger.begin busy.issued home).congr (fun _ => rfl) (fun _ => rfl) rfl rfl rfl
      (Nat.le_refl _) ?_
    intro v _
    by_cases own : v = w
    · subst own
      simp
    · simp [own]
  phase := by simp [phaseOf]
  fresh := nofun

theorem Busy.jobStart (busy : s.Busy k w held waiting) (stepped : s.jobStart w = some t) : s.Onward t := by
  rcases held with _ | ⟨j, _ | _ | ending⟩
  · simp [jobStart, busy.phase, phaseOf] at stepped
  · rename_i mustCancel
    simp only [jobStart, busy.phase, phaseOf] at stepped
    have skipped : ∀ ending, s.InHand j (.done ending) →
        s.Onward (s.setPhase w (.awaiting j (.done ending))) := by
      intro ending inHand
      have ledger : s.Ledger (some (j, .done ending)) waiting :=
        busy.ledger.advance (.inl nofun) inHand
      have busy' : (s.setPhase w (.awaiting j (.done ending))).Busy k w
          (some (j, .done ending)) waiting :=
        busy.rework _ busy.record rfl rfl nofun ledger
      exact busy.onward busy' rfl (by simp [stage])
    split at stepped
    · rename_i must
      cases stepped
      exact skipped _ (.inr (busy.ledger.inHand j _ rfl must))
    · split at stepped
      · rename_i gone
        cases stepped
        exact skipped _ (.inr gone)
      · cases stepped
        have home : (s.workers w).record = (s.jobs j).home := by
          rw [busy.record, busy.homes j (by simp)]
        refine busy.onward (busy.begin home) rfl (by simp [stage])
  · simp [jobStart, busy.phase, phaseOf] at stepped
  · simp [jobStart, busy.phase, phaseOf] at stepped

theorem Busy.jobEnd {ending : Ending α} (busy : s.Busy k w held waiting)
    (stepped : s.jobEnd w ending = some t) : s.Onward t := by
  rcases held with _ | ⟨j, _ | _ | ended⟩
  · simp [jobEnd, busy.phase, phaseOf] at stepped
  · simp [jobEnd, busy.phase, phaseOf] at stepped
  · simp only [jobEnd, busy.phase, phaseOf, Option.some.injEq] at stepped
    subst stepped
    have ledger : s.Ledger (some (j, .done ending)) waiting :=
      busy.ledger.advance (.inl nofun) (.inl (busy.ledger.inHand j _ rfl))
    have busy' : (s.setPhase w (.awaiting j (.done ending))).Busy k w
        (some (j, .done ending)) waiting :=
      busy.rework _ busy.record rfl rfl nofun ledger
    exact busy.onward busy' rfl (by simp [stage])
  · simp [jobEnd, busy.phase, phaseOf] at stepped

/-- After `_execute` the worker's hand is empty. -/
theorem Busy.finishJob {ended ending : Ending α} (busy : s.Busy k w (some (j, .done ended)) waiting) :
    (s.finishJob w j ending).Serving k w none waiting := by
  obtain ⟨current, records⟩ := finishJob_records s w j k ending
  constructor
  case entry => simpa using busy.entry
  case known => simpa using busy.known
  case worker => rw [records]; exact busy.worker
  case issued => simpa using busy.issued
  case record => simpa using busy.record
  case alone => simpa using busy.alone
  case queue => rw [records]; exact busy.queue
  case homes =>
    intro i inLine
    have home := busy.homes i (mem_append_right _ (by simpa using inLine))
    by_cases same : i = j
    · subst same
      simpa using home
    · simpa [same] using home
  case running =>
    intro i v runs
    by_cases same : i = j
    · subst same
      simp at runs
    · obtain ⟨-, task, hand⟩ := busy.running i v (by simpa [same] using runs)
      cases hand
      exact absurd rfl same
  case ledger => exact busy.ledger.finish

/-- With its hand empty the worker leaves or goes on, and either is a step
forward. -/
theorem Serving.proceed {r : RoomState α} {ended : Ending α}
    (serving : r.Serving k w none waiting) (busy : s.Busy k w (some (j, .done ended)) waiting)
    (processed : r.processed = s.processed ++ [j]) (accepted : r.accepted = s.accepted) :
    s.Onward (r.leave w) ∧ s.Onward (r.goOn w) := by
  unfold goOn
  rw [serving.record]
  by_cases empty : (r.records k).queue = []
  · rw [if_pos empty]
    have last : waiting = [] := by
      have queue := serving.queue
      rw [empty] at queue
      simpa using (append_eq_nil_iff.1 queue.symm).1
    subst last
    have idle : (r.leave w).Idle := by
      refine idle_of_leave serving.record serving.alone empty ?_ serving.ledger
      intro i
      cases runs : (r.jobs i).running with
      | none => rfl
      | some v =>
        obtain ⟨-, task, hand⟩ := serving.running i v runs
        cases hand
    exact ⟨idle.onward (leave_accepted.trans accepted), idle.onward (leave_accepted.trans accepted)⟩
  · rw [if_neg empty]
    refine ⟨busy.onward_next (serving.restart empty) (leave_processed.trans processed), ?_⟩
    obtain ⟨accepted', processed', idle | ⟨i, rest, busy'⟩⟩ := serving.takeNext empty
    · exact idle.onward (accepted'.trans accepted)
    · exact busy.onward_next busy' (processed'.trans processed)

/-- The worker ends, or goes round its loop, after settling the job in its hand. -/
theorem workerResume_cases (stepped : s.workerResume w = some t) :
    ∃ j ended ending, (s.workers w).phase = .awaiting j (.done ended) ∧
      (t = ((s.clearCancel w).finishJob w j ending).leave w ∨
        t = ((s.clearCancel w).finishJob w j ending).goOn w) := by
  unfold workerResume at stepped
  split at stepped
  · rename_i j ended phase
    generalize (if (s.workers w).mustCancel = true then Ending.cancelled "" else ended) = ending
      at stepped
    refine ⟨j, ended, ending, phase, ?_⟩
    cases ending with
    | cancelled message =>
      cases stepped
      split
      · exact .inl rfl
      · exact .inr rfl
    | returned value | raised error =>
      cases stepped
      exact .inr rfl
  · cases stepped

theorem Busy.workerResume (busy : s.Busy k w held waiting)
    (stepped : s.workerResume w = some t) : s.Onward t := by
  obtain ⟨j, ended, ending, phase, left⟩ := workerResume_cases stepped
  have hand : held = some (j, .done ended) := by
    rw [busy.phase] at phase
    rcases held with _ | ⟨i, task⟩
    · cases phase
    · simpa [phaseOf] using phase
  subst hand
  have calmed : (s.clearCancel w).Busy k w (some (j, .done ended)) waiting :=
    busy.rework _ busy.record rfl busy.phase nofun busy.ledger
  obtain ⟨leaves, goes⟩ : s.Onward (((s.clearCancel w).finishJob w j ending).leave w) ∧
      s.Onward (((s.clearCancel w).finishJob w j ending).goOn w) :=
    calmed.finishJob.proceed busy (by simp [clearCancel]) (by simp [clearCancel])
  rcases left with rfl | rfl
  · exact leaves
  · exact goes

/-! ## All events -/

/-- The steps the event loop owes the room: those of its worker and of the run
task the worker awaits. -/
def isLoopStep : MailboxEvent α → Bool
  | .workerStart _ | .workerGet _ | .jobStart _ | .jobEnd _ _ | .workerResume _ => true
  | _ => false

/-- Nothing is owed to a room all of whose workers have ended. -/
theorem loopStep_of_ended (ended : ∀ w, (s.workers w).phase = .done)
    (loop : isLoopStep e = true) : s.step e = none := by
  cases e <;>
    simp [isLoopStep, step, workerStart, workerGet, jobStart, jobEnd, workerResume, ended] at loop ⊢

theorem Settled.loopStep (settled : s.Settled) (loop : isLoopStep e = true)
    (stepped : s.step e = some t) : s.Onward t := by
  rcases settled with idle | ⟨k, v, held, waiting, busy⟩
  · rw [loopStep_of_ended idle.alone loop] at stepped
    cases stepped
  · -- only the record's own worker has not ended
    have own : ∀ w, (s.workers w).phase ≠ .done → w = v := by
      intro w live
      by_contra other
      exact live (busy.alone w other)
    cases e with
    | workerStart w =>
      have same : w = v := own w fun ended => by simp [step, workerStart, ended] at stepped
      subst same
      exact busy.workerStart stepped
    | workerGet w =>
      have same : w = v := own w fun ended => by simp [step, workerGet, ended] at stepped
      subst same
      rcases held with _ | ⟨j, task⟩ <;>
        simp [step, workerGet, busy.phase, phaseOf] at stepped
    | jobStart w =>
      have same : w = v := own w fun ended => by simp [step, jobStart, ended] at stepped
      subst same
      exact busy.jobStart stepped
    | jobEnd w ending =>
      have same : w = v := own w fun ended => by simp [step, jobEnd, ended] at stepped
      subst same
      exact busy.jobEnd stepped
    | workerResume w =>
      have same : w = v := own w fun ended => by simp [step, workerResume, ended] at stepped
      subst same
      exact busy.workerResume stepped
    | cast | spawn | ask | close | cancelWaiter | abandon | cancelWorker =>
      simp [isLoopStep] at loop

theorem Settled.otherStep (settled : s.Settled) (loop : isLoopStep e = false)
    (ok : s.spared e = true) (stepped : s.step e = some t) : s.Standing t := by
  cases e with
  | cast =>
    cases stepped
    exact settled.submit (.inl rfl)
  | spawn caller =>
    cases stepped
    unfold spawn
    split
    · exact settled.standing
    · exact settled.submit (.inr rfl)
  | ask caller =>
    cases stepped
    unfold ask
    split
    · exact settled.standing
    · exact settled.submit (.inr rfl)
  | close caller =>
    cases stepped
    exact settled.close caller
  | cancelWaiter j => exact settled.cancelWaiter stepped
  | abandon j => exact settled.abandon stepped
  | cancelWorker w => exact settled.cancelWorker ok stepped
  | workerStart | workerGet | jobStart | jobEnd | workerResume => simp [isLoopStep] at loop

theorem Settled.step (settled : s.Settled) (ok : s.spared e = true)
    (stepped : s.step e = some t) : t.Settled := by
  cases loop : isLoopStep e with
  | true => exact (settled.loopStep loop stepped).settled
  | false => exact (settled.otherStep loop ok stepped).settled

end RoomState

end BandSdk.Mailbox

/-
# Mailbox.Guarantees -- first in, first out, and exactly once

`Served` is what one room promises in one state, `Drained` what a close
promises about every later state, and fairness to the room's worker turns the
rank of `Steps` into "eventually".  All three hold along every run in which no
cancellation lands on a worker, or on its run task, before that task's first
step.

The exception is real.  `cancel_before_first_step` is a run in which a worker is
cancelled before it first runs: its `finally` never runs either, so the accepted
job has no worker, and the record it leaves in `_rooms` refuses every submission
once it is closed.
-/
import BandSdk.Mailbox.Steps

namespace BandSdk.Mailbox

open BandSdk.Theory RoomState

namespace RoomState

variable {α : Type} {s t : RoomState α}

/-- The body of job `j` is running, as a task of worker `w`. -/
def BodyRuns (s : RoomState α) (w j : Nat) : Prop := (s.workers w).phase = .awaiting j .entered

def started (s : RoomState α) : List Nat := s.starts.map Prod.snd

/-- What a room promises. -/
structure Served (s : RoomState α) : Prop where
  exclusive : ∀ w v i j, s.BodyRuns w i → s.BodyRuns v j → w = v ∧ i = j
  /-- Bodies start in the order of submission, and none starts twice. -/
  inOrder : s.started.Pairwise (· < ·)
  /-- A job the worker is through with has run, unless its result was cancelled
  first; and its result is completed. -/
  through : ∀ j ∈ s.processed, (j ∈ s.started ∨ revoked (s.jobs j).result = true) ∧
    (s.jobs j).result ≠ some .pending
  /-- A job that waits has a worker that can move. -/
  attended : ∀ j, j < s.accepted → j ∉ s.processed → ∃ e, isLoopStep e = true ∧ (s.step e).isSome
  /-- A worker runs only jobs of its own record. -/
  ownJobs : ∀ w j, (w, j) ∈ s.starts → (s.workers w).record = (s.jobs j).home
  /-- While a closing record's worker lives, submissions are refused. -/
  refuses : ∀ k w, s.entry = some k → (s.records k).closing = true →
    (s.records k).worker = some w ∧ (s.workers w).phase ≠ .done → ∀ result,
    s.submit result = .error .mailboxClosing
  /-- Once every worker has ended, a submission starts a new record with a worker of
  its own and is its first job. -/
  reopens : (∀ w, (s.workers w).phase = .done) → ∀ result, result = none ∨ result = some .pending →
    ∃ t, s.submit result = .ok t ∧ t.entry = some s.recordCount ∧
      (t.records s.recordCount).worker = some s.workerCount ∧
      (t.records s.recordCount).queue.head? = some (some s.accepted) ∧
      (t.jobs s.accepted).home = s.recordCount ∧
      ∀ v, v ≠ s.workerCount → (t.workers v).phase = .done

theorem Busy.live {k w : Nat} {held : Option (Nat × RunTask α)} {waiting : List Nat}
    (busy : s.Busy k w held waiting) : (s.workers w).phase ≠ .done := by
  rw [busy.phase]
  exact phaseOf_ne_done held

theorem Busy.attended {k w : Nat} {held : Option (Nat × RunTask α)} {waiting : List Nat}
    (busy : s.Busy k w held waiting) : ∃ e, isLoopStep e = true ∧ (s.step e).isSome := by
  rcases held with _ | ⟨j, mustCancel | _ | ended⟩
  · refine ⟨.workerStart w, rfl, ?_⟩
    simp [step, RoomState.workerStart, busy.phase, phaseOf, (busy.fresh rfl).1]
  · refine ⟨.jobStart w, rfl, ?_⟩
    simp only [step, RoomState.jobStart, busy.phase, phaseOf]
    split
    · rfl
    · split <;> rfl
  · exact ⟨.jobEnd w (.returned none), rfl, by simp [step, RoomState.jobEnd, busy.phase, phaseOf]⟩
  refine ⟨.workerResume w, rfl, ?_⟩
  simp only [step, RoomState.workerResume, busy.phase, phaseOf]
  split <;> rfl

theorem Settled.ledger (settled : s.Settled) : ∃ held waiting, s.Ledger held waiting := by
  rcases settled with idle | ⟨k, w, held, waiting, busy⟩
  · exact ⟨_, _, idle.ledger⟩
  · exact ⟨_, _, busy.ledger⟩

/-- **One state.**  A settled room serves. -/
theorem Settled.served (settled : s.Settled) : s.Served := by
  obtain ⟨held, waiting, ledger⟩ := settled.ledger
  constructor
  case exclusive =>
    intro w v i j runsW runsV
    rcases settled with idle | ⟨k, u, held, waiting, busy⟩
    · rw [BodyRuns, idle.alone w] at runsW
      cases runsW
    · have own : ∀ w j, s.BodyRuns w j → w = u := by
        intro w j runs
        by_contra other
        rw [BodyRuns, busy.alone w other] at runs
        cases runs
      obtain rfl := own w i runsW
      obtain rfl := own v j runsV
      rw [BodyRuns] at runsW runsV
      cases runsW.symm.trans runsV
      exact ⟨rfl, rfl⟩
  case inOrder => exact ledger.ordered
  case through =>
    intro j past
    exact (ledger.settled j past).symm
  case attended =>
    intro j known waits
    rcases settled with idle | ⟨k, w, held, waiting, busy⟩
    · exact absurd (idle.all_processed known) waits
    · exact busy.attended
  case ownJobs => exact fun w j began => (ledger.own w j began).2.1
  case refuses =>
    intro k w entry closing _ result
    simp [RoomState.submit, entry, closing]
  case reopens =>
    intro ended result unset
    rcases settled with idle | ⟨k, w, held, waiting, busy⟩
    · obtain ⟨t, sent, busy⟩ := idle.submit unset
      refine ⟨t, sent, busy.entry, busy.worker, ?_, busy.homes _ (by simp), busy.alone⟩
      simp [busy.queue]
    · exact absurd (ended w) busy.live

/-! ## Closing -/

/-- What no event undoes: jobs stay processed, and a record that closes stays
closing. -/
structure Later (s t : RoomState α) : Prop where
  processed : ∀ j ∈ s.processed, j ∈ t.processed
  accepted : s.accepted ≤ t.accepted
  records : s.recordCount ≤ t.recordCount
  closing : ∀ k, k < s.recordCount → (s.records k).closing = true → (t.records k).closing = true

namespace Later

theorem refl (s : RoomState α) : s.Later s :=
  ⟨fun _ => id, Nat.le_refl _, Nat.le_refl _, fun _ _ => id⟩

theorem trans {u : RoomState α} (first : s.Later t) (second : t.Later u) : s.Later u where
  processed j past := second.processed j (first.processed j past)
  accepted := Nat.le_trans first.accepted second.accepted
  records := Nat.le_trans first.records second.records
  closing k known closing :=
    second.closing k (Nat.lt_of_lt_of_le known first.records) (first.closing k known closing)

theorem of_records (processed : t.processed = s.processed) (accepted : t.accepted = s.accepted)
    (counts : t.recordCount = s.recordCount) (records : t.records = s.records) : s.Later t :=
  ⟨fun j past => by rwa [processed], Nat.le_of_eq accepted.symm, Nat.le_of_eq counts.symm,
    fun k _ closing => by rwa [records]⟩

/-- One record changes, and does not reopen. -/
theorem of_update {k : Nat} {room : MailboxRoom} (processed : t.processed = s.processed)
    (accepted : s.accepted ≤ t.accepted) (counts : t.recordCount = s.recordCount) (records : t.records = Function.update s.records k room)
    (closing : (s.records k).closing = true → room.closing = true) : s.Later t where
  processed j past := by rwa [processed]
  accepted := accepted
  records := Nat.le_of_eq counts.symm
  closing i _ closes := by
    rw [records]
    by_cases same : i = k
    · subst same
      simpa using closing closes
    · simpa [same] using closes

theorem startWorker (k : Nat) : s.Later (s.startWorker k) := by
  unfold RoomState.startWorker
  split
  · exact of_update rfl (Nat.le_refl _) rfl rfl id
  · exact refl s

theorem enqueue (k : Nat) (result : Option (Future α)) : s.Later (s.enqueue k result) :=
  of_update rfl (Nat.le_succ _) rfl rfl id

theorem disown (w k : Nat) : s.Later (s.disown w k) := by
  unfold RoomState.disown
  split
  · exact of_update rfl (Nat.le_refl _) rfl rfl id
  · exact refl s

theorem leave (w : Nat) : s.Later (s.leave w) := by
  unfold RoomState.leave
  dsimp only
  have ended : s.Later (s.setPhase w .done) := of_records rfl rfl rfl rfl
  have disowned := ended.trans (disown w (s.workers w).record)
  split
  · exact disowned.trans (of_records rfl rfl rfl rfl)
  split
  · exact disowned.trans (startWorker _)
  · exact disowned

theorem takeNext (w : Nat) : s.Later (s.takeNext w) := by
  unfold RoomState.takeNext
  dsimp only
  split
  · exact of_records rfl rfl rfl rfl
  · refine Later.trans ?_ (leave w)
    exact of_update rfl (Nat.le_refl _) rfl rfl id
  · exact of_update rfl (Nat.le_refl _) rfl rfl id

theorem finishJob (w j : Nat) (ending : Ending α) : s.Later (s.finishJob w j ending) where
  processed i past := by simp [past]
  accepted := by simp
  records := by simp
  closing k _ closes := by
    obtain ⟨current, same⟩ := finishJob_records s w j k ending
    rw [same]
    exact closes

theorem goOn (w : Nat) : s.Later (s.goOn w) := by
  unfold RoomState.goOn
  split
  · exact leave w
  · exact takeNext w

theorem submit {result : Option (Future α)} : s.Later (s.accept (s.submit result)) := by
  unfold RoomState.submit
  split
  · split
    · exact refl s
    · exact (startWorker _).trans (enqueue ..)
  · have fresh : s.Later ({ s.setRecord s.recordCount ⟨[], none, none, false⟩ with
        entry := some s.recordCount, recordCount := s.recordCount + 1 } : RoomState α) := by
      refine ⟨fun _ => id, Nat.le_refl _, Nat.le_succ _, fun k known closes => ?_⟩
      simpa [Nat.ne_of_lt known] using closes
    exact fresh.trans ((startWorker _).trans (enqueue ..))

theorem step {e : MailboxEvent α} (stepped : s.step e = some t) : s.Later t := by
  cases e with
  | cast =>
    cases stepped
    exact submit
  | spawn caller =>
    cases stepped
    unfold spawn
    split
    · exact refl s
    · exact submit
  | ask caller =>
    cases stepped
    unfold ask
    split
    · exact refl s
    · exact submit
  | close caller =>
    cases stepped
    unfold close
    split
    · exact refl s
    split
    · exact refl s
    split
    · exact refl s
    · exact of_update rfl (Nat.le_refl _) rfl rfl fun _ => rfl
  | cancelWaiter j =>
    simp only [RoomState.step, RoomState.cancelWaiter] at stepped
    split at stepped <;> cases stepped
    exact of_records rfl rfl rfl rfl
  | abandon j =>
    have same : ∀ i, s.Later (s.cancelResult i) := by
      intro i
      unfold cancelResult
      split <;> exact of_records rfl rfl rfl rfl
    simp only [RoomState.step, RoomState.abandon] at stepped
    split at stepped
    · cases stepped
    · cases stepped
    cases stepped
    unfold abandonJob
    split
    · exact same j
    split
    · split
      · exact same j
      · exact of_records rfl rfl rfl rfl
    · exact same j
  | cancelWorker w =>
    simp only [RoomState.step, RoomState.cancelWorker] at stepped
    split at stepped
    · cases stepped
    · split at stepped <;> cases stepped <;> exact of_records rfl rfl rfl rfl
    · cases stepped
      exact of_records rfl rfl rfl rfl
  | workerStart w =>
    simp only [RoomState.step, RoomState.workerStart] at stepped
    split at stepped
    · split at stepped <;> cases stepped
      · exact of_records rfl rfl rfl rfl
      · exact takeNext w
    · cases stepped
  | workerGet w =>
    simp only [RoomState.step, RoomState.workerGet] at stepped
    split at stepped
    · split at stepped
      · cases stepped
        exact leave w
      · split at stepped <;> cases stepped
        exact takeNext w
    · cases stepped
  | jobStart w =>
    simp only [RoomState.step, RoomState.jobStart] at stepped
    split at stepped
    · split at stepped
      · cases stepped
        exact of_records rfl rfl rfl rfl
      · split at stepped <;> cases stepped <;> exact of_records rfl rfl rfl rfl
    · cases stepped
  | jobEnd w ending =>
    simp only [RoomState.step, RoomState.jobEnd] at stepped
    split at stepped <;> cases stepped
    exact of_records rfl rfl rfl rfl
  | workerResume w =>
    obtain ⟨j, ended, ending, -, left⟩ := workerResume_cases stepped
    have cleared : s.Later (s.clearCancel w) := of_records rfl rfl rfl rfl
    have finished := cleared.trans (finishJob w j ending)
    rcases left with rfl | rfl
    · exact finished.trans (leave w)
    · exact finished.trans (goOn w)

end Later

/-- A room's record gives way only to none, and where none was only a new one
appears. -/
def EntryKept (s t : RoomState α) : Prop :=
  t.entry = s.entry ∨ t.entry = none ∨ s.entry = none ∧ t.entry = some s.recordCount

theorem startWorker_entry (k : Nat) : (s.startWorker k).entry = s.entry := by
  unfold startWorker
  split <;> rfl

theorem leave_entry (w : Nat) : (s.leave w).entry = s.entry ∨ (s.leave w).entry = none := by
  unfold leave disown
  dsimp only
  repeat' split
  all_goals first
    | exact .inr rfl
    | exact .inl (startWorker_entry _)
    | exact .inl rfl

theorem takeNext_entry (w : Nat) : (s.takeNext w).entry = s.entry ∨ (s.takeNext w).entry = none := by
  unfold takeNext
  dsimp only
  split
  · exact .inl rfl
  · exact leave_entry w
  · exact .inl rfl

theorem goOn_entry (w : Nat) : (s.goOn w).entry = s.entry ∨ (s.goOn w).entry = none := by
  unfold goOn
  split
  · exact leave_entry w
  · exact takeNext_entry w

theorem submit_entry {result : Option (Future α)} : s.EntryKept (s.accept (s.submit result)) := by
  unfold submit
  split
  · split
    · exact .inl rfl
    · exact .inl (startWorker_entry _)
  · rename_i none'
    exact .inr (.inr ⟨none', startWorker_entry _⟩)

theorem step_entry {e : MailboxEvent α} (stepped : s.step e = some t) : s.EntryKept t := by
  have kept : t.entry = s.entry ∨ t.entry = none → s.EntryKept t := by
    rintro (same | gone)
    · exact .inl same
    · exact .inr (.inl gone)
  cases e with
  | cast =>
    cases stepped
    exact submit_entry
  | spawn caller =>
    cases stepped
    unfold spawn
    split
    · exact .inl rfl
    · exact submit_entry
  | ask caller =>
    cases stepped
    unfold ask
    split
    · exact .inl rfl
    · exact submit_entry
  | close caller =>
    cases stepped
    unfold close
    repeat' split
    all_goals exact .inl rfl
  | cancelWaiter j =>
    simp only [step, cancelWaiter] at stepped
    split at stepped <;> cases stepped
    exact .inl rfl
  | abandon j =>
    simp only [step, abandon, abandonJob, cancelResult] at stepped
    repeat' split at stepped
    all_goals cases stepped
    all_goals exact .inl rfl
  | cancelWorker w =>
    simp only [step, cancelWorker] at stepped
    repeat' split at stepped
    all_goals cases stepped
    all_goals exact .inl rfl
  | workerStart w =>
    simp only [step, workerStart] at stepped
    repeat' split at stepped
    all_goals cases stepped
    · exact .inl rfl
    · exact kept (takeNext_entry w)
  | workerGet w =>
    simp only [step, workerGet] at stepped
    repeat' split at stepped
    all_goals cases stepped
    · exact kept (leave_entry w)
    · exact kept (takeNext_entry w)
  | jobStart w =>
    simp only [step, jobStart] at stepped
    repeat' split at stepped
    all_goals cases stepped
    all_goals exact .inl rfl
  | jobEnd w ending =>
    simp only [step, jobEnd] at stepped
    split at stepped <;> cases stepped
    exact .inl rfl
  | workerResume w =>
    obtain ⟨j, ended, ending, -, left⟩ := workerResume_cases stepped
    have same : ((s.clearCancel w).finishJob w j ending).entry = s.entry := by simp [clearCancel]
    rcases left with rfl | rfl
    · exact kept ((leave_entry w).imp_left fun h => h.trans same)
    · exact kept ((goOn_entry w).imp_left fun h => h.trans same)

end RoomState

open RoomState

/-- The rooms of a mailbox whose tasks are never cancelled before their first
step. -/
def sparing (α : Type) : Machine (RoomState α) (MailboxEvent α) := (room α).restrict spared

variable {α : Type} {s t : RoomState α}

theorem sparing_step {e : MailboxEvent α} (stepped : (sparing α).step s e = some t) :
    s.spared e = true ∧ s.step e = some t :=
  Machine.restrict_step stepped

theorem settled_of_reachable (reached : (sparing α).Reachable s) : s.Settled := by
  refine reached.invariant ?_ ?_
  · rintro s rfl
    exact settled_initial
  · intro s e t settled stepped
    obtain ⟨ok, inside⟩ := sparing_step stepped
    exact settled.step ok inside

/-- What a close of record `k` promises of a later state, `accepted` jobs having
been accepted before it.  While `k` is the room's record it has a worker and
refuses; afterwards all those jobs are processed and no worker of `k` lives. -/
def Drained (k accepted : Nat) (t : RoomState α) : Prop :=
  t.entry = some k ∧ (∀ result, t.submit result = .error .mailboxClosing) ∧
      (∃ w, (t.records k).worker = some w ∧ (t.workers w).phase ≠ .done) ∨
    (∀ j, j < accepted → j ∈ t.processed) ∧ ∀ w, (t.workers w).phase ≠ .done → (t.workers w).record ≠ k

theorem drained_of {k accepted : Nat} (settled : t.Settled)
    (state : t.entry = some k ∧ (t.records k).closing = true ∨
      t.entry ≠ some k ∧ ∀ j, j < accepted → j ∈ t.processed) : Drained k accepted t := by
  rcases state with ⟨entry, closing⟩ | ⟨other, past⟩
  · refine .inl ⟨entry, fun result => by simp [submit, entry, closing], ?_⟩
    rcases settled with idle | ⟨k', w, held, waiting, busy⟩
    · cases idle.entry.symm.trans entry
    · cases busy.entry.symm.trans entry
      exact ⟨w, busy.worker, busy.live⟩
  · refine .inr ⟨past, fun w live record => ?_⟩
    rcases settled with idle | ⟨k', v, held, waiting, busy⟩
    · exact live (idle.alone w)
    have own : w = v := by
      by_contra different
      exact live (busy.alone w different)
    subst own
    exact other (by rw [busy.entry, ← busy.record, record])

/-- **Closing.**  From a close on, in every later state. -/
theorem close_drains {k : Nat} {caller : Caller} {closed : RoomState α}
    (reached : (sparing α).Reachable s) (entry : s.entry = some k)
    (closes : s.close caller = .ok closed) (path : (sparing α).Reaches closed t) :
    Drained k s.accepted t := by
  have settled := settled_of_reachable reached
  have settled' : closed.Settled := by
    have standing := settled.close caller
    rw [closes] at standing
    exact standing.settled
  have known : k < s.recordCount := by
    rcases settled with idle | ⟨k', w, held, waiting, busy⟩
    · cases idle.entry.symm.trans entry
    · cases busy.entry.symm.trans entry
      exact busy.known
  have start : closed.entry = some k ∧ (closed.records k).closing = true ∧
      k < closed.recordCount ∧ closed.accepted = s.accepted := by
    unfold close at closes
    split at closes
    · cases closes
    rw [entry] at closes
    dsimp only at closes
    split at closes
    · rename_i closing
      cases closes
      exact ⟨entry, closing, known, rfl⟩
    · cases closes
      exact ⟨entry, by simp, known, rfl⟩
  -- the record keeps closing until it is gone, and it goes only when all is processed
  have kept : t.Settled ∧ k < t.recordCount ∧ s.accepted ≤ t.accepted ∧
      (t.records k).closing = true ∧ (t.entry = some k ∨
        t.entry ≠ some k ∧ ∀ j, j < s.accepted → j ∈ t.processed) := by
    refine path.invariant (P := fun t => t.Settled ∧ k < t.recordCount ∧ s.accepted ≤ t.accepted ∧
      (t.records k).closing = true ∧ (t.entry = some k ∨
        t.entry ≠ some k ∧ ∀ j, j < s.accepted → j ∈ t.processed)) ?_ ?_
    · exact ⟨settled', start.2.2.1, Nat.le_of_eq start.2.2.2.symm, start.2.1, .inl start.1⟩
    rintro u e v ⟨settledU, knownU, acceptedU, closingU, entryU⟩ stepped
    obtain ⟨ok, inside⟩ := sparing_step stepped
    have settledV := settledU.step ok inside
    have later := Later.step inside
    refine ⟨settledV, Nat.lt_of_lt_of_le knownU later.records,
      Nat.le_trans acceptedU later.accepted, later.closing k knownU closingU, ?_⟩
    rcases entryU with here | ⟨other, past⟩
    · rcases step_entry inside with same | gone | ⟨none', -⟩
      · exact .inl (same.trans here)
      · refine .inr ⟨by simp [gone], fun j early => ?_⟩
        rcases settledV with idle | ⟨k', w, held, waiting, busy⟩
        · exact idle.all_processed (Nat.lt_of_lt_of_le early
            (Nat.le_trans acceptedU later.accepted))
        · cases busy.entry.symm.trans gone
      · cases none'.symm.trans here
    · refine .inr ⟨fun back => ?_, fun j early => later.processed j (past j early)⟩
      rcases step_entry inside with same | gone | ⟨-, new⟩
      · exact other (same.symm.trans back)
      · cases gone.symm.trans back
      · cases new.symm.trans back
        exact Nat.lt_irrefl _ knownU
  obtain ⟨settledT, -, -, closing, here | gone⟩ := kept
  · exact drained_of settledT (.inl ⟨here, closing⟩)
  · exact drained_of settledT (.inr gone)

/-! ## The whole mailbox -/

/-- The event loop does not starve room `r`: while a job of `r` waits, some later
event is a step of the room's worker or of the job in its hand. -/
def Attends {ρ : Type} [DecidableEq ρ] (trace : ((sparing α).family ρ).Trace) (r : ρ) : Prop :=
  ∀ n j, j < (trace.state n r).accepted → j ∉ (trace.state n r).processed →
    ∃ m, n ≤ m ∧ (trace.event m).1 = r ∧ isLoopStep (trace.event m).2 = true

theorem eventually_processed {ρ : Type} [DecidableEq ρ] (trace : ((sparing α).family ρ).Trace)
    {r : ρ} (attends : Attends trace r) {n j : Nat} (known : j < (trace.state n r).accepted) :
    ∃ m, n ≤ m ∧ j ∈ (trace.state m r).processed := by
  have falls : ∀ (s : ρ → RoomState α) e t, ((sparing α).family ρ).Reachable s →
      (j < (s r).accepted ∧ j ∉ (s r).processed) → ((sparing α).family ρ).step s e = some t →
      ¬ (j < (t r).accepted ∧ j ∉ (t r).processed) ∨
      (t r).rank j ≤ (s r).rank j ∧ (e.1 = r ∧ isLoopStep e.2 = true → (t r).rank j < (s r).rank j) := by
    rintro s e t reached ⟨early, waits⟩ stepped
    have settled := settled_of_reachable (reached.component r)
    rcases Machine.family_step_or stepped r with ⟨-, inside⟩ | ⟨other, same⟩
    · obtain ⟨ok, inner⟩ := sparing_step inside
      cases loop : isLoopStep e.2 with
      | true =>
        rcases (settled.loopStep loop inner).nearer j early waits with past | nearer
        · exact .inl fun still => still.2 past
        · exact .inr ⟨Nat.le_of_lt nearer, fun _ => nearer⟩
      | false =>
        rcases (settled.otherStep loop ok inner).near with idle | near
        · exact absurd (idle.all_processed early) waits
        · exact .inr ⟨Nat.le_of_eq (near j), fun helps => by cases helps.2⟩
    · rw [same]
      exact .inr ⟨Nat.le_refl _, fun helps => absurd helps.1 other⟩
  obtain ⟨m, later, ended⟩ := trace.leaves (fun s => (s r).rank j)
    (fun e => e.1 = r ∧ isLoopStep e.2 = true) falls
    (fun n waits => attends n j waits.1 waits.2) n
  refine ⟨m, later, ?_⟩
  -- what was accepted stays accepted, so it is the waiting that ended
  have grows : (trace.state n r).Later (trace.state m r) := by
    refine ((trace.reaches later).component r).invariant
      (P := fun u => (trace.state n r).Later u) (Later.refl _) ?_
    exact fun u e v before stepped => before.trans (Later.step (sparing_step stepped).2)
  by_contra waits
  exact ended ⟨Nat.lt_of_lt_of_le known grows.accepted, waits⟩

/-- **First in, first out, exactly once.**  In every run of the mailbox in which
no worker is cancelled before its own first step or before the first step of the
job in its hand: every room serves in every state; a close drains; and every
accepted job is processed, if the loop keeps running the room's worker. -/
theorem jobs_served_in_order (ρ : Type) [DecidableEq ρ] :
    (∀ s, ((sparing α).family ρ).Reachable s → ∀ r, (s r).Served) ∧
    (∀ s t r k caller closed, ((sparing α).family ρ).Reachable s → (s r).entry = some k →
      (s r).close caller = .ok closed →
      ((sparing α).family ρ).Reaches (Function.update s r closed) t →
      Drained k (s r).accepted (t r)) ∧
    (∀ (trace : ((sparing α).family ρ).Trace) (r : ρ), Attends trace r →
      ∀ n j, j < (trace.state n r).accepted → ∃ m, n ≤ m ∧ j ∈ (trace.state m r).processed) := by
  refine ⟨fun s reached r => ?_, fun s t r k caller closed reached entry closes path => ?_,
    fun trace r attends n j known => eventually_processed trace attends known⟩
  · exact (settled_of_reachable (reached.component r)).served
  · have inside := path.component r
    rw [Function.update_self] at inside
    exact close_drains (reached.component r) entry closes inside

/-- Two jobs, the second cancelled while it waits, and a close behind them. -/
def twoJobs : List (MailboxEvent Nat) :=
  [.cast, .workerStart 0, .spawn ⟨false, .outside⟩, .cancelWaiter 1, .jobStart 0,
    .close ⟨false, .outside⟩, .jobEnd 0 (.returned (some 7)), .workerResume 0, .jobStart 0,
    .workerResume 0]

theorem jobs_served_two :
    ∃ s, ((sparing Nat).family Unit).run (fun _ => initial) (twoJobs.map fun e => ((), e)) = some s ∧
      (s ()).processed = [0, 1] ∧ (s ()).started = [0] ∧ (s ()).entry = none ∧ (s ()).Served := by
  have ran : (((sparing Nat).family Unit).run (fun _ => initial)
      (twoJobs.map fun e => ((), e))).map
        (fun s => ((s ()).processed, (s ()).started, (s ()).entry)) = some ([0, 1], [0], none) := by
    decide +kernel
  obtain ⟨s, path, facts⟩ := Option.map_eq_some_iff.1 ran
  simp only [Prod.mk.injEq] at facts
  refine ⟨s, path, facts.1, facts.2.1, facts.2.2, ?_⟩
  exact (jobs_served_in_order Unit).1 s ⟨_, fun _ => rfl, _, path⟩ ()

/-- A room whose workers have all ended owes its jobs a worker. -/
theorem not_served_of_ended {j : Nat} (ended : ∀ w, (s.workers w).phase = .done)
    (known : j < s.accepted) (waits : j ∉ s.processed) : ¬ s.Served := by
  intro served
  obtain ⟨e, loop, moves⟩ := served.attended j known waits
  rw [loopStep_of_ended ended loop] at moves
  cases moves

/-- **A worker cancelled before its first step.**  The job it was started for is
neither run nor cancelled and no step of the loop can serve it; and after a close
the room refuses submissions although every worker has ended. -/
theorem cancel_before_first_step :
    ∃ s, (mailbox Nat Unit).run (fun _ => initial)
        ([.spawn ⟨false, .outside⟩, .cancelWorker 0, .workerStart 0, .close ⟨false, .outside⟩].map
          fun e => ((), e)) = some s ∧
      (∀ w, ((s ()).workers w).phase = .done) ∧ (s ()).accepted = 1 ∧ (s ()).processed = [] ∧
      (s ()).started = [] ∧ ((s ()).jobs 0).result = some .pending ∧
      (s ()).cast = .error .mailboxClosing ∧ ¬ (s ()).Served := by
  refine ⟨_, rfl, fun w => ?_, rfl, rfl, rfl, rfl, rfl, ?_⟩
  · cases w <;> rfl
  · refine not_served_of_ended (j := 0) (fun w => ?_) Nat.one_pos List.not_mem_nil
    cases w <;> rfl

end BandSdk.Mailbox

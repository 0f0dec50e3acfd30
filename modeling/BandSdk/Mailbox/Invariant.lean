/-
# Mailbox.Invariant -- one worker, one job in hand, the rest in line

`Ledger` is about the jobs: those the worker is through with, then the one in
its hand, then the waiting ones are all the accepted jobs in order.  `Serving`
is about the record in `_rooms` and its worker.  `Settled` puts them together
and every event keeps it, with one exception: a cancellation that lands on a
worker, or on the run task it awaits, before that task's first step (`spared`
is what remains).  Such a cancellation skips the `finally` that would have
passed the queue on, or the body of the job in hand.
-/
import BandSdk.Mailbox.Model
import Mathlib.Tactic.Common

namespace BandSdk.Mailbox

open BandSdk.Theory List

namespace RoomState

variable {α : Type}

/-! ## What the setters leave alone -/

section Setters

variable (s : RoomState α) (w : Nat) (phase : Phase α)

@[simp] theorem setPhase_eq : s.setPhase w phase = s.setWorker w { s.workers w with phase := phase } := rfl

end Setters

section FinishJob

variable (s : RoomState α) (w j i : Nat) (ending : Ending α)

@[simp] theorem finishJob_jobs : (s.finishJob w j ending).jobs =
    Function.update s.jobs j { s.jobs j with
      result := (s.jobs j).result.map ending.settle, running := none } := by
  simp only [finishJob]; split <;> rfl

@[simp] theorem finishJob_processed : (s.finishJob w j ending).processed = s.processed ++ [j] := by
  simp only [finishJob]; split <;> rfl

@[simp] theorem finishJob_starts : (s.finishJob w j ending).starts = s.starts := by
  simp only [finishJob]; split <;> rfl

@[simp] theorem finishJob_accepted : (s.finishJob w j ending).accepted = s.accepted := by
  simp only [finishJob]; split <;> rfl

@[simp] theorem finishJob_workers : (s.finishJob w j ending).workers = s.workers := by
  simp only [finishJob]; split <;> rfl

@[simp] theorem finishJob_workerCount : (s.finishJob w j ending).workerCount = s.workerCount := by
  simp only [finishJob]; split <;> rfl

@[simp] theorem finishJob_entry : (s.finishJob w j ending).entry = s.entry := by
  simp only [finishJob]; split <;> rfl

@[simp] theorem finishJob_recordCount : (s.finishJob w j ending).recordCount = s.recordCount := by
  simp only [finishJob]; split <;> rfl

theorem finishJob_records : ∃ current, (s.finishJob w j ending).records i =
    { s.records i with current := current } := by
  simp only [finishJob]
  split
  · by_cases same : i = (s.workers w).record
    · subst same
      exact ⟨none, by simp⟩
    · exact ⟨(s.records i).current, by simp [same]⟩
  · exact ⟨(s.records i).current, rfl⟩

end FinishJob

/-! ## The invariant -/

/-- Job `j` is in a worker's hand and its run task is `task`. -/
def InHand (s : RoomState α) (j : Nat) : RunTask α → Prop
  | .created mustCancel => mustCancel = true → revoked (s.jobs j).result = true
  | .entered => j ∈ s.starts.map Prod.snd
  | .done _ => j ∈ s.starts.map Prod.snd ∨ revoked (s.jobs j).result = true

/-- What is true of the jobs, with `held` in hand and `waiting` in line. -/
structure Ledger (s : RoomState α) (held : Option (Nat × RunTask α)) (waiting : List Nat) :
    Prop where
  fifo : s.processed ++ (held.toList.map Prod.fst ++ waiting) = List.range s.accepted
  unsettled : ∀ j, j ∉ s.processed →
    (s.jobs j).result = none ∨ (s.jobs j).result = some .pending ∨ revoked (s.jobs j).result = true
  settled : ∀ j ∈ s.processed, (s.jobs j).result ≠ some .pending ∧
    (j ∈ s.starts.map Prod.snd ∨ revoked (s.jobs j).result = true)
  ordered : (s.starts.map Prod.snd).Pairwise (· < ·)
  started : ∀ j ∈ s.starts.map Prod.snd, j ∈ s.processed ∨
    ∃ task, held = some (j, task) ∧ ∀ mustCancel, task ≠ .created mustCancel
  inHand : ∀ j task, held = some (j, task) → s.InHand j task
  own : ∀ w j, (w, j) ∈ s.starts → w < s.workerCount ∧ (s.workers w).record = (s.jobs j).home ∧ j < s.accepted

/-- The sentinel that a closing record's queue ends with. -/
def sentinel (closing : Bool) : List (Option Nat) := if closing then [none] else []

/-- Record `k` is the room's, `w` is its worker, and every other worker ended.
The phase of `w` itself is left open. -/
structure Serving (s : RoomState α) (k w : Nat) (held : Option (Nat × RunTask α))
    (waiting : List Nat) : Prop where
  entry : s.entry = some k
  known : k < s.recordCount
  worker : (s.records k).worker = some w
  issued : w < s.workerCount
  record : (s.workers w).record = k
  alone : ∀ v, v ≠ w → (s.workers v).phase = .done
  queue : (s.records k).queue = waiting.map some ++ sentinel (s.records k).closing
  homes : ∀ j ∈ held.toList.map Prod.fst ++ waiting, (s.jobs j).home = k
  running : ∀ j v, (s.jobs j).running = some v → v = w ∧ ∃ task, held = some (j, task)
  ledger : s.Ledger held waiting

/-- No record, no worker, no job left. -/
structure Idle (s : RoomState α) : Prop where
  entry : s.entry = none
  alone : ∀ v, (s.workers v).phase = .done
  running : ∀ j, (s.jobs j).running = none
  ledger : s.Ledger none []

/-- The phase of a worker with `held` in hand. -/
def phaseOf : Option (Nat × RunTask α) → Phase α
  | none => .created
  | some (j, task) => .awaiting j task

/-- The record's worker is in the phase its hand says, and one that has not run
yet has something to run for. -/
structure Busy (s : RoomState α) (k w : Nat) (held : Option (Nat × RunTask α))
    (waiting : List Nat) : Prop extends s.Serving k w held waiting where
  phase : (s.workers w).phase = phaseOf held
  fresh : held = none → (s.workers w).mustCancel = false ∧ (s.records k).queue ≠ []

def Settled (s : RoomState α) : Prop :=
  s.Idle ∨ ∃ k w held waiting, s.Busy k w held waiting

theorem settled_initial : (initial : RoomState α).Settled := by
  refine .inl ⟨rfl, fun _ => rfl, fun _ => rfl, ?_⟩
  constructor <;> simp [initial]

/-- The steps during which no cancellation lands on a task before its first
step. -/
def spared (s : RoomState α) : MailboxEvent α → Bool
  | .cancelWorker w => match (s.workers w).phase with
      | .created => false
      | .awaiting _ (.created _) => false
      | _ => true
  | _ => true

/-! ## Reading the ledger -/

namespace Ledger

variable {s : RoomState α} {held : Option (Nat × RunTask α)} {waiting : List Nat}

section

variable (ledger : s.Ledger held waiting)
include ledger

theorem mem_range {j : Nat} : j ∈ s.processed ++ (held.toList.map Prod.fst ++ waiting) ↔ j < s.accepted := by
  rw [ledger.fifo]
  exact List.mem_range

theorem processed_lt {j : Nat} (past : j ∈ s.processed) :
    j < s.accepted :=
  ledger.mem_range.1 (mem_append_left _ past)

theorem pairwise : (s.processed ++ (held.toList.map Prod.fst ++ waiting)).Pairwise (· < ·) := by
  rw [ledger.fifo]
  exact pairwise_lt_range

/-- Whatever the worker is through with came before what is in line. -/
theorem lt_of_processed {i j : Nat} (past : i ∈ s.processed)
    (inLine : j ∈ held.toList.map Prod.fst ++ waiting) : i < j :=
  (pairwise_append.1 ledger.pairwise).2.2 i past j inLine

theorem not_processed {j : Nat} (inLine : j ∈ held.toList.map Prod.fst ++ waiting) : j ∉ s.processed :=
  fun past => Nat.lt_irrefl j (ledger.lt_of_processed past inLine)

/-- The ledger does not read `running`, nor anything of a worker but its record. -/
theorem congr {t : RoomState α} (results : ∀ j, (t.jobs j).result = (s.jobs j).result)
    (homes : ∀ j, (t.jobs j).home = (s.jobs j).home)
    (processed : t.processed = s.processed) (starts : t.starts = s.starts)
    (accepted : t.accepted = s.accepted) (counts : s.workerCount ≤ t.workerCount)
    (records : ∀ w, w < s.workerCount → (t.workers w).record = (s.workers w).record) :
    t.Ledger held waiting where
  fifo := by rw [processed, accepted]; exact ledger.fifo
  unsettled j open' := by
    rw [processed] at open'
    rw [results]
    exact ledger.unsettled j open'
  settled j past := by
    rw [processed] at past
    rw [results, starts]
    exact ledger.settled j past
  ordered := by rw [starts]; exact ledger.ordered
  started := by rw [starts, processed]; exact ledger.started
  inHand j task hand := by
    have before := ledger.inHand j task hand
    cases task <;> simpa only [InHand, results, starts] using before
  own w j began := by
    rw [starts] at began
    obtain ⟨issued, home, known⟩ := ledger.own w j began
    rw [homes, accepted, records w issued]
    exact ⟨Nat.lt_of_lt_of_le issued counts, home, known⟩

/-- A result future may be cancelled at any time before its job is settled. -/
theorem revoke {j : Nat} (pending : (s.jobs j).result = some .pending) :
    (s.setJob j { s.jobs j with result := some .cancelled }).Ledger held waiting where
  fifo := ledger.fifo
  unsettled i open' := by
    by_cases same : i = j
    · subst same
      simp [revoked]
    · simpa [same] using ledger.unsettled i open'
  settled i past := by
    by_cases same : i = j
    · subst same
      exact absurd pending (ledger.settled i past).1
    · simpa [same] using ledger.settled i past
  ordered := ledger.ordered
  started := ledger.started
  inHand i task hand := by
    have before := ledger.inHand i task hand
    by_cases same : i = j
    · subst same
      cases task <;> simp_all [InHand, revoked]
    · cases task <;> simpa [InHand, same] using before
  own w i began := by
    have before := ledger.own w i began
    by_cases same : i = j
    · subst same
      simpa using before
    · simpa [same] using before

/-- The next job joins the line. -/
theorem enqueue (k : Nat) {result : Option (Future α)} (unset : result = none ∨ result = some .pending) :
    (s.enqueue k result).Ledger held (waiting ++ [s.accepted]) where
  fifo := by
    show s.processed ++ (held.toList.map Prod.fst ++ (waiting ++ [s.accepted])) = List.range (s.accepted + 1)
    rw [range_succ, ← ledger.fifo]
    simp
  unsettled j open' := by
    by_cases new : j = s.accepted
    · subst new
      rcases unset with rfl | rfl <;> simp [RoomState.enqueue]
    · simpa [RoomState.enqueue, new] using ledger.unsettled j open'
  settled j past := by
    have old : j ≠ s.accepted := Nat.ne_of_lt (ledger.processed_lt past)
    simpa [RoomState.enqueue, old] using ledger.settled j past
  ordered := ledger.ordered
  started := ledger.started
  inHand j task hand := by
    have inLine : j < s.accepted := ledger.mem_range.1 (by simp [hand])
    have before := ledger.inHand j task hand
    cases task <;> simpa [InHand, RoomState.enqueue, Nat.ne_of_lt inLine] using before
  own w j began := by
    obtain ⟨issued, home, known⟩ := ledger.own w j began
    refine ⟨issued, ?_, Nat.lt_succ_of_lt known⟩
    simpa [RoomState.enqueue, Nat.ne_of_lt known] using home

end

/-- The first job in line is taken in hand. -/
theorem take {j : Nat} {rest : List Nat} (ledger : s.Ledger none (j :: rest)) :
    s.Ledger (some (j, .created false)) rest where
  fifo := ledger.fifo
  unsettled := ledger.unsettled
  settled := ledger.settled
  ordered := ledger.ordered
  started i began := by
    rcases ledger.started i began with past | ⟨task, hand, -⟩
    · exact .inl past
    · cases hand
  inHand i task hand := by
    cases hand
    exact nofun
  own := ledger.own

theorem advance {j : Nat} {task next : RunTask α} (ledger : s.Ledger (some (j, task)) waiting)
    (later : (∀ b, next ≠ .created b) ∨ ∃ b, task = .created b)
    (inHand : s.InHand j next) : s.Ledger (some (j, next)) waiting where
  fifo := ledger.fifo
  unsettled := ledger.unsettled
  settled := ledger.settled
  ordered := ledger.ordered
  started i began := by
    rcases ledger.started i began with past | ⟨now, hand, entered⟩
    · exact .inl past
    cases hand
    rcases later with entered' | ⟨b, created⟩
    · exact .inr ⟨next, rfl, entered'⟩
    · exact absurd created (entered b)
  inHand i now hand := by
    cases hand
    exact inHand
  own := ledger.own

/-- The body of the job in hand starts. -/
theorem begin {j w : Nat} {b : Bool} (ledger : s.Ledger (some (j, .created b)) waiting)
    (issued : w < s.workerCount) (home : (s.workers w).record = (s.jobs j).home) :
    ({ s with starts := s.starts ++ [(w, j)] } : RoomState α).Ledger (some (j, .entered)) waiting where
  fifo := ledger.fifo
  unsettled := ledger.unsettled
  settled i past := by
    obtain ⟨done, began | revoked⟩ := ledger.settled i past
    · exact ⟨done, .inl (by simp only [map_append, mem_append]; exact .inl began)⟩
    · exact ⟨done, .inr revoked⟩
  ordered := by
    simp only [map_append, map_cons, map_nil]
    refine pairwise_append.2 ⟨ledger.ordered, pairwise_singleton .., ?_⟩
    intro i began i' last
    rw [mem_singleton.1 last]
    rcases ledger.started i began with past | ⟨task, hand, entered⟩
    · exact ledger.lt_of_processed past (by simp)
    · cases hand
      exact absurd rfl (entered b)
  started i began := by
    simp only [map_append, map_cons, map_nil, mem_append, mem_singleton] at began
    rcases began with began | rfl
    · rcases ledger.started i began with past | ⟨task, hand, entered⟩
      · exact .inl past
      · cases hand
        exact absurd rfl (entered b)
    · exact .inr ⟨.entered, rfl, nofun⟩
  inHand i now hand := by
    cases hand
    simp [InHand]
  own v i began := by
    rcases mem_append.1 began with began | last
    · exact ledger.own v i began
    · cases mem_singleton.1 last
      exact ⟨issued, home, ledger.mem_range.1 (by simp)⟩

/-- The job in hand is settled with whatever its task ended with. -/
theorem finish {j w : Nat} {ended ending : Ending α} (ledger : s.Ledger (some (j, .done ended)) waiting) :
    (s.finishJob w j ending).Ledger none waiting := by
  have past : ∀ i, i ∈ s.processed → i ≠ j := by
    intro i old same
    subst same
    exact ledger.not_processed (by simp) old
  have unset := ledger.unsettled j (ledger.not_processed (by simp))
  have began := ledger.inHand j _ rfl
  constructor
  case fifo =>
    rw [finishJob_processed, finishJob_accepted, ← ledger.fifo]
    simp
  case unsettled =>
    intro i open'
    simp only [finishJob_processed, mem_append, mem_singleton, not_or] at open'
    simpa [open'.2] using ledger.unsettled i open'.1
  case settled =>
    intro i old
    simp only [finishJob_processed, mem_append, mem_singleton] at old
    rcases old with old | rfl
    · simpa [past i old] using ledger.settled i old
    rw [finishJob_starts, finishJob_jobs, Function.update_self]
    dsimp only
    rcases unset with none' | pending | cancelled
    · exact ⟨by simp [none'], began.imp_right fun gone => by simp [none', revoked] at gone⟩
    · refine ⟨?_, began.imp_right fun gone => by simp [pending, revoked] at gone⟩
      rw [pending]
      cases ending <;> simp [Ending.settle]
    · -- a cancelled future keeps its cancellation
      have kept : (s.jobs i).result.map ending.settle = (s.jobs i).result := by
        generalize (s.jobs i).result = result at cancelled
        unfold revoked at cancelled
        split at cancelled
        · rfl
        · cases cancelled
      rw [kept]
      refine ⟨fun pending => ?_, .inr cancelled⟩
      simp [pending, revoked] at cancelled
  case ordered =>
    rw [finishJob_starts]
    exact ledger.ordered
  case started =>
    intro i started
    rw [finishJob_starts] at started
    rw [finishJob_processed, mem_append, mem_singleton]
    rcases ledger.started i started with old | ⟨task, hand, -⟩
    · exact .inl (.inl old)
    · cases hand
      exact .inl (.inr rfl)
  case inHand => exact nofun
  case own =>
    intro v i started
    rw [finishJob_starts] at started
    obtain ⟨issued, home, known⟩ := ledger.own v i started
    rw [finishJob_workerCount, finishJob_workers, finishJob_accepted, finishJob_jobs]
    refine ⟨issued, ?_, known⟩
    by_cases same : i = j
    · subst same
      simpa using home
    · simpa [same] using home

end Ledger

end RoomState

end BandSdk.Mailbox

/-
# Mailbox.Model -- one serialized worker per room

`RoomMailbox` hands a room's jobs to one worker task, in order.  The state of a
room is a small heap: `_rooms` holds a *record* by identity, a record holds its
worker by identity, and a worker keeps the record it was started with.  Nothing
in the state says that a room has one worker, that a worker's record is the one
in `_rooms`, or that a job is executed once; two workers with two jobs in hand
are a legal value of the type.

A task created by the loop runs its first step later (`created`), and a
cancellation that lands before that step is thrown in front of the first line of
its coroutine: no `try` has been entered, so no `finally` runs.

`cancelWaiter` is the cancellation of the task in `ask` or of the future `spawn`
returned: both cancel the result at once, and `abandon` is what follows in a
later step, the `except` block of `ask` or the done-callback of `spawn`.

Left out: log records, `task_done`, and the waits of `ask` and `close`, which
change nothing.
-/
import Mathlib.Tactic.Simps.Basic
import BandSdk.Theory.Machine
import BandSdk.Theory.Asyncio

namespace BandSdk.Mailbox

open BandSdk.Theory

/-! ## Futures, jobs, workers, records -/

/-- An `asyncio.Future`. -/
inductive Future (α : Type) where
  | pending
  | finished (value : Option α)
  | failed (error : PyError)
  | cancelled

/-- `job.result is not None and job.result.cancelled()`. -/
def revoked {α : Type} : Option (Future α) → Bool
  | some .cancelled => true
  | _ => false

/-- How a run task ended. -/
inductive Ending (α : Type) where
  | returned (value : Option α)
  | raised (error : PyError)
  | cancelled (message : String)

/-- `set_result` and `set_exception`, each behind `not job.result.done()`. -/
def Ending.settle {α : Type} (ending : Ending α) : Future α → Future α
  | .pending =>
    match ending with
    | .returned value => .finished value
    | .raised error => .failed error
    | .cancelled message => .failed ⟨"CancelledError", message⟩
  | done => done

/-- `MailboxJob`: `running` names the worker whose run task it is.  `home` is
the record whose queue took the job, which no code reads. -/
structure MailboxJob (α : Type) where
  result : Option (Future α)
  running : Option Nat
  home : Nat

/-- The task of `run_job`; `entered` once the body has started. -/
inductive RunTask (α : Type) where
  | created (mustCancel : Bool)
  | entered
  | done (ending : Ending α)

def RunTask.cancel {α : Type} : RunTask α → RunTask α
  | .created _ => .created true
  -- the body receives the cancellation and decides how it ends
  | .entered => .entered
  | .done ending => .done ending

/-- Where a worker task stands: before its first step, in `queue.get`, in
`await job.running`, or ended. -/
inductive Phase (α : Type) where
  | created
  | getting
  | awaiting (job : Nat) (task : RunTask α)
  | done

structure Worker (α : Type) where
  record : Nat
  phase : Phase α
  /-- A cancellation to be thrown in at the next step. -/
  mustCancel : Bool
  /-- `worker.cancelling()`, which nothing lowers. -/
  cancelling : Bool

/-- `MailboxRoom`; a `none` in the queue is the sentinel of `close`. -/
structure MailboxRoom where
  queue : List (Option Nat)
  worker : Option Nat
  current : Option Nat
  closing : Bool

/-- What the mailbox knows of one room id. -/
structure RoomState (α : Type) where
  /-- `self._rooms.get(room_id)`. -/
  entry : Option Nat
  records : Nat → MailboxRoom
  recordCount : Nat
  workers : Nat → Worker α
  workerCount : Nat
  jobs : Nat → MailboxJob α
  /-- Jobs are numbered in the order in which they were accepted. -/
  accepted : Nat
  /-- Bodies that started, in order, each with the worker that ran it. -/
  starts : List (Nat × Nat)
  /-- Jobs whose worker is through with them, in order. -/
  processed : List Nat

namespace RoomState

variable {α : Type}

def initial : RoomState α where
  entry := none
  records _ := ⟨[], none, none, false⟩
  recordCount := 0
  workers _ := ⟨0, .done, false, false⟩
  workerCount := 0
  jobs _ := ⟨none, none, 0⟩
  accepted := 0
  starts := []
  processed := []

variable (s : RoomState α)

@[simps] def setRecord (k : Nat) (room : MailboxRoom) : RoomState α :=
  { s with records := Function.update s.records k room }

@[simps] def setWorker (w : Nat) (worker : Worker α) : RoomState α :=
  { s with workers := Function.update s.workers w worker }

def setPhase (w : Nat) (phase : Phase α) : RoomState α :=
  s.setWorker w { s.workers w with phase := phase }

@[simps] def setJob (j : Nat) (job : MailboxJob α) : RoomState α :=
  { s with jobs := Function.update s.jobs j job }

/-! ## Submission -/

/-- `room.worker is None or room.worker.done()`. -/
def workerless (k : Nat) : Bool :=
  match (s.records k).worker with
  | none => true
  | some w => match (s.workers w).phase with
      | .done => true
      | _ => false

def startWorker (k : Nat) : RoomState α :=
  if s.workerless k then
    { (s.setRecord k { s.records k with worker := some s.workerCount }).setWorker s.workerCount
        ⟨k, .created, false, false⟩ with workerCount := s.workerCount + 1 }
  else s

/-- `room.queue.put_nowait(job)` for the next job number. -/
def enqueue (k : Nat) (result : Option (Future α)) : RoomState α :=
  { (s.setRecord k { s.records k with queue := (s.records k).queue ++ [some s.accepted] }).setJob
      s.accepted ⟨result, none, k⟩ with accepted := s.accepted + 1 }

inductive Refusal where
  | nestedMailboxAsk
  | mailboxClosing

/-- `_submit`. -/
def submit (s : RoomState α) (result : Option (Future α)) : Except Refusal (RoomState α) :=
  match s.entry with
  | some k =>
    if (s.records k).closing then .error .mailboxClosing
    else .ok ((s.startWorker k).enqueue k result)
  | none =>
    let k := s.recordCount
    let s := { s.setRecord k ⟨[], none, none, false⟩ with
      entry := some k, recordCount := s.recordCount + 1 }
    .ok ((s.startWorker k).enqueue k result)

/-- The task that calls: a worker, the run task of a worker, or neither. -/
inductive TaskRef where
  | worker (w : Nat)
  | run (w : Nat)
  | outside

structure Caller where
  /-- `_current_job.get()` is a job of this mailbox, of whichever room. -/
  insideJob : Bool
  task : TaskRef

variable (s : RoomState α)

def occupying (me : TaskRef) : Bool :=
  match s.entry with
  | none => false
  | some k =>
    match me with
    | .worker w => (s.records k).worker = some w
    | .run w => match (s.records k).current with
        | some j => (s.jobs j).running = some w
        | none => false
    | .outside => false

/-- `_reject_nested_wait`. -/
def rejectNestedWait (caller : Caller) : Bool :=
  caller.insideJob || s.occupying caller.task

def cast : Except Refusal (RoomState α) := s.submit none

def spawn (caller : Caller) : Except Refusal (RoomState α) :=
  if s.rejectNestedWait caller then .error .nestedMailboxAsk else s.submit (some .pending)

/-- `ask` up to its `await future`. -/
def ask (caller : Caller) : Except Refusal (RoomState α) :=
  if s.rejectNestedWait caller then .error .nestedMailboxAsk else s.submit (some .pending)

/-- `close` up to its wait for the worker. -/
def close (caller : Caller) : Except Refusal (RoomState α) :=
  if s.rejectNestedWait caller then .error .nestedMailboxAsk
  else match s.entry with
    | none => .ok s
    | some k =>
      if (s.records k).closing then .ok s
      else .ok (s.setRecord k { s.records k with
        closing := true, queue := (s.records k).queue ++ [none] })

/-! ## Cancellation -/

/-- `future.cancel()` on the result of job `j`. -/
def cancelWaiter (j : Nat) : Option (RoomState α) :=
  match (s.jobs j).result with
  | some .pending => some (s.setJob j { s.jobs j with result := some .cancelled })
  | _ => none

/-- `job.result.cancel()` unless there is no result or it is done. -/
def cancelResult (j : Nat) : RoomState α :=
  match (s.jobs j).result with
  | some .pending => s.setJob j { s.jobs j with result := some .cancelled }
  | _ => s

/-- `_abandon`. -/
def abandonJob (j : Nat) : RoomState α :=
  match (s.jobs j).running with
  | none => s.cancelResult j
  | some w => match (s.workers w).phase with
      | .awaiting held task => match task with
          | .done _ => s.cancelResult j
          | _ => s.setPhase w (.awaiting held task.cancel)
      | _ => s.cancelResult j

/-- The waiter of job `j` runs again after its result is done.  An `ask` whose
task was cancelled, and a `spawn` whose future was, abandon the job. -/
def abandon (j : Nat) : Option (RoomState α) :=
  match (s.jobs j).result with
  | none | some .pending => none
  | _ => some (s.abandonJob j)

/-- `Task.cancel()` on worker `w`: forwarded to the run task it awaits unless
that is done, else thrown in at the worker's next step. -/
def cancelWorker (w : Nat) : Option (RoomState α) :=
  let worker := { s.workers w with cancelling := true }
  match (s.workers w).phase with
  | .done => none
  | .awaiting j task => match task with
      | .done _ => some (s.setWorker w { worker with mustCancel := true })
      | _ => some (s.setWorker w { worker with phase := .awaiting j task.cancel })
  | _ => some (s.setWorker w { worker with mustCancel := true })

/-! ## The worker -/

/-- `if room.worker is asyncio.current_task(): room.worker = None`. -/
def disown (w k : Nat) : RoomState α :=
  if (s.records k).worker = some w then s.setRecord k { s.records k with worker := none } else s

/-- The `finally` block of `_run`, and the end of the task. -/
def leave (w : Nat) : RoomState α :=
  let k := (s.workers w).record
  let s := (s.setPhase w .done).disown w k
  if (s.records k).queue = [] then { s with entry := none }
  else if (s.records k).worker = none then s.startWorker k
  else s

/-- From `room.queue.get()` to the next suspension. -/
def takeNext (w : Nat) : RoomState α :=
  let k := (s.workers w).record
  match (s.records k).queue with
  | [] => s.setPhase w .getting
  | none :: rest => (s.setRecord k { s.records k with queue := rest }).leave w
  | some j :: rest =>
    let s := s.setRecord k { s.records k with queue := rest, current := some j }
    let s := s.setJob j { s.jobs j with running := some w }
    s.setPhase w (.awaiting j (.created false))

/-- The worker's first step. -/
def workerStart (w : Nat) : Option (RoomState α) :=
  match (s.workers w).phase with
  | .created =>
    if (s.workers w).mustCancel then some (s.setPhase w .done)
    else some (s.takeNext w)
  | _ => none

/-- The worker runs again in `queue.get()`. -/
def workerGet (w : Nat) : Option (RoomState α) :=
  match (s.workers w).phase with
  | .getting =>
    if (s.workers w).mustCancel then some (s.leave w)
    else if (s.records (s.workers w).record).queue = [] then none
    else some (s.takeNext w)
  | _ => none

/-- The first step of `run_job`. -/
def jobStart (w : Nat) : Option (RoomState α) :=
  match (s.workers w).phase with
  | .awaiting j (.created mustCancel) =>
    if mustCancel then some (s.setPhase w (.awaiting j (.done (.cancelled ""))))
    else if revoked (s.jobs j).result then
      some (s.setPhase w (.awaiting j (.done (.returned none))))
    else some { s.setPhase w (.awaiting j .entered) with starts := s.starts ++ [(w, j)] }
  | _ => none

/-- The body of `job.run` ends, in whatever way it chooses. -/
def jobEnd (w : Nat) (ending : Ending α) : Option (RoomState α) :=
  match (s.workers w).phase with
  | .awaiting j .entered => some (s.setPhase w (.awaiting j (.done ending)))
  | _ => none

/-- The rest of `_execute` once `await job.running` gives `ending`. -/
def finishJob (w j : Nat) (ending : Ending α) : RoomState α :=
  let k := (s.workers w).record
  let s := s.setJob j { s.jobs j with
    result := (s.jobs j).result.map ending.settle, running := none }
  let s := if (s.records k).current = some j then
    s.setRecord k { s.records k with current := none } else s
  { s with processed := s.processed ++ [j] }

/-- `if room.queue.empty(): return`, else the loop goes round. -/
def goOn (w : Nat) : RoomState α :=
  if (s.records (s.workers w).record).queue = [] then s.leave w else s.takeNext w

/-- A pending cancellation is thrown in once. -/
def clearCancel (w : Nat) : RoomState α :=
  s.setWorker w { s.workers w with mustCancel := false }

/-- The worker runs again after its run task ended.  A cancellation of the worker
itself leaves `_execute` as an exception. -/
def workerResume (w : Nat) : Option (RoomState α) :=
  match (s.workers w).phase with
  | .awaiting j (.done ended) =>
    let ending := if (s.workers w).mustCancel then .cancelled "" else ended
    let s := (s.clearCancel w).finishJob w j ending
    match ending with
    | .cancelled _ => some (if (s.workers w).cancelling then s.leave w else s.goOn w)
    | _ => some (s.goOn w)
  | _ => none

/-! ## The machine -/

/-- What can happen next in a room. -/
inductive MailboxEvent (α : Type) where
  | cast
  | spawn (caller : Caller)
  | ask (caller : Caller)
  | close (caller : Caller)
  | cancelWaiter (j : Nat)
  | abandon (j : Nat)
  | cancelWorker (w : Nat)
  | workerStart (w : Nat)
  | workerGet (w : Nat)
  | jobStart (w : Nat)
  | jobEnd (w : Nat) (ending : Ending α)
  | workerResume (w : Nat)

/-- A refused call changes nothing. -/
def accept (s : RoomState α) : Except Refusal (RoomState α) → RoomState α
  | .ok t => t
  | .error _ => s

def step (s : RoomState α) : MailboxEvent α → Option (RoomState α)
  | .cast => some (s.accept s.cast)
  | .spawn caller => some (s.accept (s.spawn caller))
  | .ask caller => some (s.accept (s.ask caller))
  | .close caller => some (s.accept (s.close caller))
  | .cancelWaiter j => s.cancelWaiter j
  | .abandon j => s.abandon j
  | .cancelWorker w => s.cancelWorker w
  | .workerStart w => s.workerStart w
  | .workerGet w => s.workerGet w
  | .jobStart w => s.jobStart w
  | .jobEnd w ending => s.jobEnd w ending
  | .workerResume w => s.workerResume w

end RoomState

open RoomState in
/-- One room of the mailbox. -/
def room (α : Type) : Machine (RoomState α) (MailboxEvent α) where
  init s := s = initial
  step := RoomState.step

/-- `RoomMailbox`: `_rooms` is one entry per room id. -/
def mailbox (α : Type) (ρ : Type) [DecidableEq ρ] : Machine (ρ → RoomState α) (ρ × RoomState.MailboxEvent α) :=
  (room α).family ρ

end BandSdk.Mailbox

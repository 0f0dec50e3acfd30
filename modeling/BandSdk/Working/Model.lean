/-
# Working.Model -- the working signal of one execution

`WorkingStateReporter` sends `working: true` when a cycle starts and on a
keep-alive cadence, and one `working: false` when it ends.  Every send goes
through `_safe_report`, which takes the reporter's lock; false sends are tasks of
their own that outlive their caller and are joined through the one slot
`_false_send`.

A *report* here is one run of `_safe_report`: `created` while its task has not
run, `queued` for the lock, `reporting` while the callback is in flight, `done`.
`asyncio.Lock` is first come, first served; a waiter that is cancelled leaves its
place at its own next step, and until then does not hold up the others.  Start
calls and keep-alive tasks may be several at once; `callers` are the tasks inside
`_finish_false_send` or `stop`.

`issued` records every call of the callback with the cycle of its report: for a
start or a keep-alive the cycle it began, for a false send the cycle it ends.  No
code reads it.

Left out: log records, and a disabled reporter, which does nothing.
-/
import BandSdk.Theory.Machine
import BandSdk.Theory.Asyncio

namespace BandSdk.Working

open BandSdk.Theory

/-! ## Objects -/

/-- A run of `_safe_report`; `done` says whether it returned. -/
inductive Phase where
  | created
  | queued
  | reporting
  | done (returned : Bool)

def Phase.isDone : Phase → Bool
  | .done _ => true
  | _ => false

/-- Whose report it is. -/
inductive Owner where
  | start
  | keepAlive (k : Nat)
  | falseSend

structure Report where
  working : Bool
  cycle : Nat
  owner : Owner
  phase : Phase
  /-- A cancellation to be thrown in at the next step. -/
  cancelled : Bool

/-- A keep-alive task: at the head of its loop, paused by the cap until a wake
after `since`, in its report, or ended. -/
inductive KeepPhase where
  | waiting
  | paused (since : Nat)
  | inReport (r : Nat)
  | ended

structure KeepAlive where
  cycle : Nat
  phase : KeepPhase
  cancelled : Bool

/-- A caller in `_finish_false_send`, of `start` or of `stop`, or in `stop`'s
`gather`.  `drained` is its second wait, after a cancellation. -/
inductive Caller where
  | starting (send : Nat) (drained : Bool)
  | gathering (k : Nat)
  | stopping (send : Nat) (drained : Bool)
  | returned

structure Reporter where
  active : Bool
  /-- `_task`. -/
  task : Option Nat
  /-- `_false_send`. -/
  falseSend : Option Nat
  wake : Signal
  held : Option Nat
  waiters : List Nat
  reports : Nat → Report
  reportCount : Nat
  keeps : Nat → KeepAlive
  keepCount : Nat
  callers : List Caller
  cycles : Nat
  issued : List (Bool × Nat)

namespace Reporter

def initial : Reporter where
  active := false
  task := none
  falseSend := none
  wake := ⟨false, 0⟩
  held := none
  waiters := []
  reports _ := ⟨false, 0, .falseSend, .done true, false⟩
  reportCount := 0
  keeps _ := ⟨0, .ended, false⟩
  keepCount := 0
  callers := []
  cycles := 0
  issued := []

variable (s : Reporter)

def setReport (r : Nat) (report : Report) : Reporter :=
  { s with reports := Function.update s.reports r report }

def setPhase (r : Nat) (phase : Phase) : Reporter :=
  s.setReport r { s.reports r with phase := phase }

def setKeep (k : Nat) (keep : KeepAlive) : Reporter :=
  { s with keeps := Function.update s.keeps k keep }

def setCaller (i : Nat) (caller : Caller) : Reporter :=
  { s with callers := s.callers.set i caller }

/-! ## Beginning and ending a cycle -/

/-- A running task calls `_safe_report(True)` and joins the line for the lock. -/
def reportTrue (cycle : Nat) (owner : Owner) : Reporter :=
  { s.setReport s.reportCount ⟨true, cycle, owner, .queued, false⟩ with
    reportCount := s.reportCount + 1, waiters := s.waiters ++ [s.reportCount] }

/-- `start`, from `self._active = True` to its first report. -/
def beginCycle : Reporter :=
  { s with active := true, wake := s.wake.clear, cycles := s.cycles + 1 }.reportTrue
    (s.cycles + 1) .start

/-- `task.cancel()` on a keep-alive. -/
def cancelKeep (k : Nat) : Reporter :=
  let s' := s.setKeep k { s.keeps k with cancelled := true }
  match (s.keeps k).phase with
  | .inReport r => s'.setReport r { s.reports r with cancelled := true }
  | _ => s'

/-- `_arm_false_report`. -/
def arm : Reporter :=
  let s' := match s.task with
    | some k => s.cancelKeep k
    | none => s
  { s'.setReport s.reportCount ⟨false, s.cycles, .falseSend, .created, false⟩ with
    active := false, task := none, reportCount := s.reportCount + 1,
    falseSend := some s.reportCount }

/-- `defer_false_report`. -/
def deferFalseReport : Reporter := if s.active then s.arm else s

/-- `start`, up to its first wait. -/
def start : Reporter :=
  if s.active then s
  else match s.falseSend with
    | none => s.beginCycle
    | some send => { s with callers := s.callers ++ [.starting send false] }

/-- `_finish_false_send` of `stop`, up to its wait. -/
def finishFalse (wait : Nat → Reporter) : Reporter :=
  match s.falseSend with
  | none => s
  | some send => wait send

/-- `stop`, up to its first wait: for a keep-alive that has not ended, or for the
false send. -/
def stop : Reporter :=
  if s.active then
    let s' := s.arm
    let join := s'.finishFalse fun send =>
      { s' with callers := s'.callers ++ [.stopping send false] }
    match s.task with
    | some k => match (s.keeps k).phase with
        | .ended => join
        | _ => { s' with callers := s'.callers ++ [.gathering k] }
    | none => join
  else
    s.finishFalse fun send => { s with callers := s.callers ++ [.stopping send false] }

/-! ## The callers' waits -/

/-- A caller runs again: the false send, or the keep-alive, it waited for is done.
A `start` that was not cancelled, and whose send returned, begins its cycle. -/
def resume (i : Nat) : Option Reporter :=
  match s.callers[i]? with
  | some (.starting send drained) =>
    match (s.reports send).phase with
    | .done returned =>
      let s' := { s.setCaller i .returned with falseSend := none }
      some (if drained || !returned then s' else s'.beginCycle)
    | _ => none
  | some (.stopping send _) =>
    if (s.reports send).phase.isDone then
      some { s.setCaller i .returned with falseSend := none }
    else none
  | some (.gathering k) =>
    match (s.keeps k).phase with
    | .ended => some ((s.setCaller i .returned).finishFalse fun send =>
      s.setCaller i (.stopping send false))
    | _ => none
  | _ => none

/-- The caller is cancelled in its wait.  In `_finish_false_send` the first
cancellation makes it wait for the send itself and the second cancels the send;
`gather` passes its cancellation on to the keep-alive. -/
def cancelCaller (i : Nat) : Option Reporter :=
  match s.callers[i]? with
  | some (.starting send drained) =>
    if (s.reports send).phase.isDone then
      some { s.setCaller i .returned with falseSend := none }
    else if drained then some (s.setReport send { s.reports send with cancelled := true })
    else some (s.setCaller i (.starting send true))
  | some (.stopping send drained) =>
    if (s.reports send).phase.isDone then
      some { s.setCaller i .returned with falseSend := none }
    else if drained then some (s.setReport send { s.reports send with cancelled := true })
    else some (s.setCaller i (.stopping send true))
  | some (.gathering k) => some ((s.cancelKeep k).setCaller i .returned)
  | _ => none

/-! ## A report and its task -/

/-- The false send's task takes its first step. -/
def join (r : Nat) : Option Reporter :=
  match (s.reports r).phase with
  | .created =>
    if (s.reports r).cancelled then some (s.setPhase r (.done false))
    else some { s.setPhase r .queued with waiters := s.waiters ++ [r] }
  | _ => none

/-- What the task does with what `_safe_report` returned. -/
def returnTo (r : Nat) (paused : Bool) : Reporter :=
  match (s.reports r).owner with
  | .start =>
    if s.active then
      { s.setKeep s.keepCount ⟨(s.reports r).cycle, .waiting, false⟩ with
        keepCount := s.keepCount + 1, task := some s.keepCount }
    else s
  | .keepAlive k =>
    s.setKeep k { s.keeps k with phase := if paused then .paused s.wake.sets else .waiting }
  | .falseSend => s

/-- The task ends by the cancellation. -/
def raiseTo (r : Nat) : Reporter :=
  match (s.reports r).owner with
  | .keepAlive k => s.setKeep k { s.keeps k with phase := .ended }
  | _ => s

/-- What `self._project()` says of a true report: send it, hold it back, or clear
the signal. -/
inductive Projection where
  | report
  | pause
  | clear

variable (s : Reporter)

/-- The callback is called. -/
def issue (r : Nat) : Reporter :=
  { s.setPhase r .reporting with
    held := some r, issued := s.issued ++ [((s.reports r).working, (s.reports r).cycle)] }

/-- Everything ahead of `r` in the line is cancelled. -/
def first (s : Reporter) (r : Nat) : Bool :=
  (s.waiters.takeWhile (· ≠ r)).all fun ahead => (s.reports ahead).cancelled

/-- The first in line gets the lock and runs to its next suspension. -/
def grant (r : Nat) (projection : Projection) : Option Reporter :=
  if s.held = none ∧ r ∈ s.waiters ∧ s.first r = true ∧ (s.reports r).cancelled = false then
    let s := { s with waiters := s.waiters.erase r }
    let back := (s.setPhase r (.done true)).returnTo r
    if (s.reports r).working then
      if s.active then
        match projection with
        | .report => some (s.issue r)
        | .pause => some (back true)
        | .clear => some ((s.arm.setPhase r (.done true)).returnTo r false)
      else some (back true)
    else some (s.issue r)
  else none

/-- The callback returns, or raises something other than a cancellation. -/
def ends (r : Nat) : Option Reporter :=
  match (s.reports r).phase with
  | .reporting =>
    if (s.reports r).cancelled then none
    else some ({ s.setPhase r (.done true) with held := none }.returnTo r false)
  | _ => none

/-- The callback of a cancelled task raises the cancellation. -/
def interrupted (r : Nat) : Option Reporter :=
  match (s.reports r).phase with
  | .reporting =>
    if (s.reports r).cancelled then
      some ({ s.setPhase r (.done false) with held := none }.raiseTo r)
    else none
  | _ => none

/-- The callback of a cancelled task swallows the cancellation, and the task goes on
without it. -/
def swallows (r : Nat) : Option Reporter :=
  match (s.reports r).phase with
  | .reporting =>
    if (s.reports r).cancelled then
      let s := match (s.reports r).owner with
        | .keepAlive k => s.setKeep k { s.keeps k with cancelled := false }
        | _ => s
      some ({ s.setPhase r (.done true) with held := none }.returnTo r false)
    else none
  | _ => none

/-- A cancelled task leaves the line. -/
def quit (r : Nat) : Option Reporter :=
  match (s.reports r).phase with
  | .queued =>
    if (s.reports r).cancelled then
      some ({ s.setPhase r (.done false) with waiters := s.waiters.erase r }.raiseTo r)
    else none
  | _ => none

/-- The task in `start`'s first report is cancelled. -/
def cancelStart (r : Nat) : Option Reporter :=
  match (s.reports r).owner with
  | .start =>
    if (s.reports r).phase.isDone then none
    else some (s.setReport r { s.reports r with cancelled := true })
  | _ => none

/-! ## The keep-alive -/

/-- The cadence, or a wake, ends the wait at the head of the loop. -/
def tick (k : Nat) : Option Reporter :=
  match (s.keeps k).phase with
  | .waiting =>
    if (s.keeps k).cancelled then none
    else
      let s := { s with wake := s.wake.clear }
      if s.active then
        some ((s.reportTrue (s.keeps k).cycle (.keepAlive k)).setKeep k
          { s.keeps k with phase := .inReport s.reportCount })
      else some (s.setKeep k { s.keeps k with phase := .ended })
  | _ => none

/-- A wake ends the pause of a capped keep-alive. -/
def rouse (k : Nat) : Option Reporter :=
  match (s.keeps k).phase with
  | .paused since =>
    if (s.keeps k).cancelled then none
    else if s.wake.value || since < s.wake.sets then
      some (s.setKeep k { s.keeps k with phase := .waiting })
    else none
  | _ => none

/-- A cancelled keep-alive outside a report ends. -/
def endKeep (k : Nat) : Option Reporter :=
  match (s.keeps k).phase with
  | .waiting | .paused _ =>
    if (s.keeps k).cancelled then some (s.setKeep k { s.keeps k with phase := .ended }) else none
  | _ => none

/-! ## The machine -/

inductive ReporterEvent where
  | start
  | refresh
  | deferFalseReport
  | stop
  | resume (i : Nat)
  | cancelCaller (i : Nat)
  | cancelStart (r : Nat)
  | join (r : Nat)
  | grant (r : Nat) (projection : Projection)
  | ends (r : Nat)
  | interrupted (r : Nat)
  | swallows (r : Nat)
  | quit (r : Nat)
  | tick (k : Nat)
  | rouse (k : Nat)
  | endKeep (k : Nat)

def step (s : Reporter) : ReporterEvent → Option Reporter
  | .start => some s.start
  | .refresh => some { s with wake := s.wake.set }
  | .deferFalseReport => some s.deferFalseReport
  | .stop => some s.stop
  | .resume i => s.resume i
  | .cancelCaller i => s.cancelCaller i
  | .cancelStart r => s.cancelStart r
  | .join r => s.join r
  | .grant r projection => s.grant r projection
  | .ends r => s.ends r
  | .interrupted r => s.interrupted r
  | .swallows r => s.swallows r
  | .quit r => s.quit r
  | .tick k => s.tick k
  | .rouse k => s.rouse k
  | .endKeep k => s.endKeep k

end Reporter

def reporter : Machine Reporter Reporter.ReporterEvent where
  init s := s = Reporter.initial
  step := Reporter.step

end BandSdk.Working

/-
# Working.Order -- what the platform sees

The callback's calls as they go out, in every run that stays `calm`: one at a
time, true only while the reporter is active, a cycle's reports before the next
cycle's, and a false at the end.  `leaked_keep_alive` is a run that does not stay
calm: two starts wait for one false send and both begin a cycle, so the first
one's keep-alive is no longer in `_task`, outlives its cycle and reports in a
later one.
-/
import BandSdk.Working.Invariant
import Mathlib.Tactic.Common

namespace BandSdk.Working

open BandSdk.Theory Option Reporter

namespace Reporter

variable {s t : Reporter}

/-! ## Every step -/

section Steps

variable {r : Nat}

theorem land_of_line (free : s.held ≠ some r) (returned : Bool) :
    ({ s with waiters := s.waiters.erase r } : Reporter).setPhase r (.done returned) = s.land r returned := by
  simp [land, setPhase, setReport, free]

theorem Ordered.land_of_lock (ordered : s.Ordered) (reporting : (s.reports r).phase = .reporting)
    (returned : Bool) :
    ({ s.setPhase r (.done returned) with held := none } : Reporter) = s.land r returned := by
  have held := (ordered.reporting r).1 reporting
  have out : r ∉ s.waiters := by simp [ordered.line, reporting]
  simp [land, setPhase, setReport, held, List.erase_of_not_mem out]

theorem arm_waiters (waiters : List Nat) : ({ s with waiters } : Reporter).arm = { s.arm with waiters } := by
  cases task : s.task with
  | none => simp [arm, task, setReport]
  | some k =>
    simp only [arm, task, cancelKeep]
    split <;> simp [setReport, setKeep]

theorem arm_line : s.arm.waiters = s.waiters ∧ s.arm.held = s.held ∧
    (∀ i < s.reportCount, (s.arm.reports i).phase = (s.reports i).phase ∧
      (s.arm.reports i).working = (s.reports i).working) ∧ s.arm.active = false := by
  cases task : s.task with
  | none => 
    simp only [arm, task, setReport]
    grind -linarith
  | some k =>
    simp only [arm, task, cancelKeep]
    split <;> simp only [setReport, setKeep] <;> grind -linarith

section

variable (ordered : s.Ordered)
include ordered

theorem Ordered.grant {projection : Projection} (stepped : s.grant r projection = some t) : t.Ordered := by
  obtain ⟨enabled, stepped⟩ := of_passed stepped
  obtain ⟨free, waits, first, uncancelled⟩ := enabled
  have queued := (ordered.line r).1 waits
  have undone : (s.reports r).phase.isDone = false := by simp [queued, Phase.isDone]
  have unheld : s.held ≠ some r := by simp [free]
  dsimp only at stepped
  rw [land_of_line unheld] at stepped
  split at stepped
  next true' =>
    split at stepped
    next begun =>
      cases projection with
      | report =>
        cases stepped
        exact ordered.issueTrue free waits uncancelled true' begun
      | pause =>
        cases stepped
        exact ordered.returnTo undone (.inl true') (fun _ => uncancelled) true
      | clear =>
        obtain ⟨line, held, reports, ended⟩ := arm_line (s := s)
        have old : r < s.reportCount := by
          by_contra new
          simp [ordered.fresh r (by omega)] at undone
        obtain ⟨phase, working⟩ := reports r old
        simp only [arm_waiters, ← line] at stepped
        rw [land_of_line (by rw [held]; exact unheld)] at stepped
        cases stepped
        refine (ordered.arm begun).returnTo (by rw [phase]; exact undone)
          (.inl (by rw [working]; exact true')) (by simp [ended]) false
    next =>
      cases stepped
      exact ordered.returnTo undone (.inl true') (fun _ => uncancelled) true
  next false' =>
    cases stepped
    exact ordered.issueFalse free waits first uncancelled (by simpa using false')

theorem Ordered.ends (stepped : s.ends r = some t) : t.Ordered := by
  unfold Reporter.ends at stepped
  split at stepped
  next reporting =>
    obtain ⟨uncancelled, ⟨⟩⟩ := of_barred stepped
    rw [ordered.land_of_lock reporting]
    exact ordered.returnTo (by simp [reporting, Phase.isDone]) (.inr reporting)
      (fun _ => by simpa using uncancelled) false
  next => cases stepped

theorem Ordered.interrupted (stepped : s.interrupted r = some t) : t.Ordered := by
  unfold Reporter.interrupted at stepped
  split at stepped
  next reporting =>
    obtain ⟨cancelled, ⟨⟩⟩ := of_passed stepped
    rw [ordered.land_of_lock reporting]
    exact ordered.raiseTo (by simp [reporting, Phase.isDone]) cancelled
  next => cases stepped

theorem Ordered.quit (stepped : s.quit r = some t) : t.Ordered := by
  unfold Reporter.quit at stepped
  split at stepped
  next queued =>
    obtain ⟨cancelled, ⟨⟩⟩ := of_passed stepped
    have unheld : s.held ≠ some r := by
      rw [Ne, ← ordered.reporting, queued]
      exact nofun
    have landed : ({ s.setPhase r (.done false) with waiters := s.waiters.erase r } : Reporter) =
        s.land r false := land_of_line unheld false
    rw [landed]
    exact ordered.raiseTo (by simp [queued, Phase.isDone]) cancelled
  next => cases stepped

theorem Ordered.joinStep (stepped : s.join r = some t) : t.Ordered := by
  unfold Reporter.join at stepped
  split at stepped
  next created =>
    have spared := (ordered.falses r (by simp [created, Phase.isDone])
      (ordered.created r created)).2.1
    rw [spared] at stepped
    cases stepped
    exact ordered.join created
  next => cases stepped

theorem Ordered.cancelStartStep (stepped : s.cancelStart r = some t) : t.Ordered := by
  unfold Reporter.cancelStart at stepped
  split at stepped
  next own =>
    obtain ⟨-, ⟨⟩⟩ := of_barred stepped
    exact ordered.cancelStart own
  next => cases stepped

end

end Steps

section Keeps

variable {k : Nat}

theorem Ordered.tick (ordered : s.Ordered) (stepped : s.tick k = some t) : t.Ordered := by
  unfold Reporter.tick at stepped
  split at stepped
  next waiting =>
    have cleared : ({ s with wake := s.wake.clear } : Reporter).Ordered :=
      ordered.waits s.callers s.wake.clear
    obtain ⟨uncancelled, stepped⟩ := of_barred stepped
    dsimp only at stepped
    split at stepped
    next =>
      cases stepped
      exact cleared.reportKeep waiting (by simpa using uncancelled)
    next =>
      cases stepped
      exact cleared.keepOn (by simp [waiting]) (by simp) (by simp)
  next => cases stepped

theorem Ordered.rouse (ordered : s.Ordered) (stepped : s.rouse k = some t) : t.Ordered := by
  unfold Reporter.rouse at stepped
  split at stepped
  next paused =>
    obtain ⟨-, stepped⟩ := of_barred stepped
    split at stepped
    next =>
      cases stepped
      exact ordered.keepOn (by simp [paused]) (by simp) (by simp [paused])
    next => cases stepped
  next => cases stepped

theorem Ordered.endKeep (ordered : s.Ordered) (stepped : s.endKeep k = some t) : t.Ordered := by
  unfold Reporter.endKeep at stepped
  split at stepped
  next waiting =>
    obtain ⟨-, ⟨⟩⟩ := of_passed stepped
    exact ordered.keepOn (by simp [waiting]) (by simp) (by simp)
  next paused =>
    obtain ⟨-, ⟨⟩⟩ := of_passed stepped
    exact ordered.keepOn (by simp [paused]) (by simp) (by simp)
  next => cases stepped

end Keeps

section Callers

variable {i : Nat}

section

variable (ordered : s.Ordered)
include ordered

theorem Ordered.start : s.start.Ordered := by
  unfold Reporter.start
  split
  next => exact ordered
  next ended =>
    split
    next empty => exact ordered.beginCycle (by simpa using ended) empty
    next send _ => exact ordered.waits (s.callers ++ [Caller.starting send false]) s.wake

theorem Ordered.deferFalseReport : s.deferFalseReport.Ordered := by
  unfold Reporter.deferFalseReport
  split
  next begun => exact ordered.arm begun
  next => exact ordered

/-- `_finish_false_send` waits, or has nothing to wait for. -/
theorem Ordered.finishFalse {wait : Nat → Reporter}
    (waits : ∀ send, (wait send).Ordered) : (s.finishFalse wait).Ordered := by
  unfold Reporter.finishFalse
  split
  · exact ordered
  · exact waits _

theorem Ordered.stop : s.stop.Ordered := by
  have wait {w : Reporter} (kept : w.Ordered) (caller : Caller) :
      ({ w with callers := w.callers ++ [caller] } : Reporter).Ordered :=
    kept.waits (w.callers ++ [caller]) w.wake
  unfold Reporter.stop
  split
  next begun =>
    have armed := ordered.arm begun
    have join : (s.arm.finishFalse fun send =>
        { s.arm with callers := s.arm.callers ++ [.stopping send false] }).Ordered :=
      armed.finishFalse fun send => wait armed (.stopping send false)
    split
    · split
      · exact join
      · exact wait armed (.gathering _)
    · exact join
  next => exact ordered.finishFalse fun send => wait ordered (.stopping send false)

theorem Ordered.setCaller (caller : Caller) :
    (s.setCaller i caller).Ordered :=
  ordered.waits (s.callers.set i caller) s.wake

theorem Ordered.leaveSend {send : Nat} (own : s.ownSlot send = true)
    (done : (s.reports send).phase.isDone = true) :
    ({ s.setCaller i .returned with falseSend := none } : Reporter).Ordered := by
  refine Ordered.clear (ordered.setCaller .returned) ?_
  intro f slot
  replace slot : s.falseSend = some f := slot
  obtain rfl : f = send := by simpa [ownSlot, slot] using own
  exact done

theorem Ordered.resume (steady : s.calm (.resume i) = true) (stepped : s.resume i = some t) : t.Ordered := by
  unfold Reporter.resume at stepped
  unfold calm at steady
  split at stepped
  next send drained found =>
    simp only [found, Bool.and_eq_true] at steady
    obtain ⟨own, quiet⟩ := steady
    split at stepped
    next returned phase =>
      have left := ordered.leaveSend (i := i) own (by simp [phase, Phase.isDone])
      split at stepped
      next =>
        cases stepped
        exact left
      next going =>
        cases stepped
        refine left.beginCycle ?_ rfl
        have : s.active = false := by grind -linarith
        exact this
    next => cases stepped
  next send drained found =>
    simp only [found] at steady
    obtain ⟨done, ⟨⟩⟩ := of_passed stepped
    exact ordered.leaveSend steady done
  next k found =>
    split at stepped
    next =>
      cases stepped
      exact (ordered.setCaller _).finishFalse fun send => ordered.setCaller _
    next => cases stepped
  next => cases stepped

theorem Ordered.cancelCaller (steady : s.calm (.cancelCaller i) = true)
    (stepped : s.cancelCaller i = some t) : t.Ordered := by
  unfold Reporter.cancelCaller at stepped
  unfold calm at steady
  split at stepped
  next send drained found =>
    simp only [found] at steady
    split at stepped
    next done =>
      cases stepped
      exact ordered.leaveSend (by simpa [done] using steady) done
    next undone =>
      have first : drained = false := by simpa [undone] using steady
      rw [first] at stepped
      cases stepped
      exact ordered.setCaller _
  next send drained found =>
    simp only [found] at steady
    split at stepped
    next done =>
      cases stepped
      exact ordered.leaveSend (by simpa [done] using steady) done
    next undone =>
      have first : drained = false := by simpa [undone] using steady
      rw [first] at stepped
      cases stepped
      exact ordered.setCaller _
  next k found =>
    cases stepped
    exact (ordered.cancelKeep k).setCaller _
  next => cases stepped

end

end Callers

theorem Ordered.step (ordered : s.Ordered) {event : ReporterEvent} (steady : s.calm event = true)
    (stepped : s.step event = some t) : t.Ordered := by
  cases event with
  | start => cases stepped; exact ordered.start
  | refresh => cases stepped; exact ordered.waits s.callers s.wake.set
  | deferFalseReport => cases stepped; exact ordered.deferFalseReport
  | stop => cases stepped; exact ordered.stop
  | resume i => exact ordered.resume steady stepped
  | cancelCaller i => exact ordered.cancelCaller steady stepped
  | cancelStart r => exact ordered.cancelStartStep stepped
  | join r => exact ordered.joinStep stepped
  | grant r projection => exact ordered.grant stepped
  | ends r => exact ordered.ends stepped
  | interrupted r => exact ordered.interrupted stepped
  | swallows r => cases steady
  | quit r => exact ordered.quit stepped
  | tick k => exact ordered.tick stepped
  | rouse k => exact ordered.rouse stepped
  | endKeep k => exact ordered.endKeep stepped

/-! ## Calls of the callback -/

/-- What one step may add to the calls. -/
def Issues (s t : Reporter) : Prop :=
  t.issued = s.issued ∨ (∃ cycle, t.issued = s.issued ++ [(false, cycle)]) ∨
    ∃ cycle, t.issued = s.issued ++ [(true, cycle)] ∧ s.active = true ∧ t.active = true

/-- What the platform has seen, and will have seen when nothing is pending. -/
structure WireOrdered (s : Reporter) : Prop where
  /-- No two calls are in flight. -/
  alone : ∀ r r', (s.reports r).phase = .reporting → (s.reports r').phase = .reporting → r = r'
  /-- After a true report of one cycle comes nothing of an earlier one. -/
  inOrder : s.issued.Pairwise fun a b => a.1 = true → a.2 ≤ b.2
  cleared : s.active = false → 0 < s.cycles → (∀ r, (s.reports r).phase.isDone = true) →
    ∃ cycle, s.issued.getLast? = some (false, cycle)

theorem Ordered.wireOrdered (ordered : s.Ordered) : s.WireOrdered where
  alone r r' first second := by
    have held := (ordered.reporting r).1 first
    rw [(ordered.reporting r').1 second] at held
    exact (some.inj held).symm
  inOrder := ordered.inOrder
  cleared ended begun done := by
    refine (ordered.tail ended begun).resolve_left ?_
    rintro ⟨f, -, created | queued⟩
    · simpa [created, Phase.isDone] using done f
    · simpa [queued, Phase.isDone] using done f

@[simp] theorem cancelKeep_issued (k : Nat) : (s.cancelKeep k).issued = s.issued := by
  unfold cancelKeep
  split <;> rfl

@[simp] theorem arm_issued : s.arm.issued = s.issued := by
  unfold arm
  split
  · exact cancelKeep_issued _
  · rfl

@[simp] theorem returnTo_issued (r : Nat) (paused : Bool) : (s.returnTo r paused).issued = s.issued := by
  unfold returnTo
  split
  · split <;> rfl
  · rfl
  · rfl

@[simp] theorem raiseTo_issued (r : Nat) : (s.raiseTo r).issued = s.issued := by
  unfold raiseTo
  split <;> rfl

theorem start_issued : s.start.issued = s.issued := by
  unfold start
  split
  · rfl
  · split <;> rfl

theorem stop_issued : s.stop.issued = s.issued := by
  unfold stop finishFalse
  dsimp only
  split
  · split
    · split
      · split <;> exact arm_issued
      · exact arm_issued
    · split <;> exact arm_issued
  · split <;> rfl

theorem grant_issues {r : Nat} {projection : Projection} (stepped : s.grant r projection = some t) :
    s.Issues t := by
  obtain ⟨-, stepped⟩ := of_passed stepped
  dsimp only at stepped
  split at stepped
  next true' =>
    split at stepped
    next begun =>
      cases projection with
      | report =>
        cases stepped
        refine .inr (.inr ⟨(s.reports r).cycle, ?_, begun, begun⟩)
        rw [← show (s.reports r).working = true from true']
        rfl
      | pause | clear =>
        cases stepped
        exact .inl (by simp [setPhase, setReport])
    next =>
      cases stepped
      exact .inl (by simp [setPhase, setReport])
  next false' =>
    cases stepped
    refine .inr (.inl ⟨(s.reports r).cycle, ?_⟩)
    rw [← show (s.reports r).working = false by simpa using false']
    rfl

theorem step_issues {event : ReporterEvent} (stepped : s.step event = some t) : s.Issues t := by
  cases event with
  | grant r projection => exact grant_issues stepped
  | start => cases stepped; exact .inl start_issued
  | stop => cases stepped; exact .inl stop_issued
  | refresh => cases stepped; exact .inl rfl
  | deferFalseReport =>
    cases stepped
    refine .inl ?_
    unfold deferFalseReport
    split
    · exact arm_issued
    · rfl
  | _ =>
    refine .inl ?_
    simp only [step, resume, cancelCaller, cancelStart, join, ends, interrupted, swallows, quit, tick,
      rouse, endKeep, finishFalse] at stepped
    repeat' split at stepped
    all_goals cases stepped
    all_goals simp [setPhase, setReport, setKeep, setCaller, beginCycle, reportTrue]

end Reporter

/-! ## Every calm run -/

theorem ordered_of_reachable {s : Reporter}
    (reached : (reporter.restrict Reporter.calm).Reachable s) : s.Ordered := by
  refine reached.invariant ?_ ?_
  · rintro s rfl
    exact ordered_initial
  · intro s event t ordered stepped
    obtain ⟨steady, inside⟩ := Machine.restrict_step stepped
    exact ordered.step steady inside

/-- **The reports stay in order.**  In every run in which no caller clears another
cycle's false send, begins a cycle inside a cycle or cancels a false send, and in
which the callback passes a cancellation on. -/
theorem reports_in_order {s : Reporter} (reached : (reporter.restrict Reporter.calm).Reachable s) :
    s.WireOrdered ∧ ∀ event t, s.step event = some t → s.Issues t :=
  ⟨(ordered_of_reachable reached).wireOrdered, fun _ _ stepped => step_issues stepped⟩

/-- One cycle, ended while a `start` for the next one waits for its false send. -/
def nextCycle : List Reporter.ReporterEvent :=
  [.start, .grant 0 .report, .ends 0, .tick 0, .grant 1 .report, .deferFalseReport, .start,
    .cancelCaller 0, .interrupted 1, .join 2, .grant 2 .report, .ends 2, .start, .resume 1,
    .grant 3 .report]

theorem reports_in_order_next : ∃ s, (reporter.restrict Reporter.calm).Reachable s ∧
    s.issued = [(true, 1), (true, 1), (false, 1), (true, 2)] ∧ s.WireOrdered := by
  have ran : ((reporter.restrict calm).run initial nextCycle).map
      issued = some [(true, 1), (true, 1), (false, 1), (true, 2)] := by decide +kernel
  obtain ⟨s, path, issued⟩ := map_eq_some_iff.1 ran
  have reached : (reporter.restrict calm).Reachable s := ⟨_, rfl, nextCycle, path⟩
  exact ⟨s, reached, issued, (reports_in_order reached).1⟩

/-- Two starts wait for one false send; the first one's keep-alive, 1, is never
cancelled and reports two cycles later. -/
def leaked : List Reporter.ReporterEvent :=
  [.start, .grant 0 .report, .ends 0, .deferFalseReport, .start, .start, .join 1,
    .grant 1 .report, .ends 1, .resume 0, .resume 1, .grant 2 .report, .ends 2,
    .grant 3 .report, .ends 3, .deferFalseReport, .join 4, .grant 4 .report, .ends 4, .start,
    .resume 2, .grant 5 .report, .ends 5, .tick 1, .grant 6 .report]

theorem leaked_keep_alive : ∃ s, reporter.Reachable s ∧ ¬ s.WireOrdered := by
  have ran : (reporter.run initial leaked).map issued =
      some [(true, 1), (false, 1), (true, 2), (true, 3), (false, 3), (true, 4), (true, 2)] := by
    decide +kernel
  obtain ⟨s, path, issued⟩ := map_eq_some_iff.1 ran
  refine ⟨s, ⟨_, rfl, leaked, path⟩, fun wire => ?_⟩
  have := wire.inOrder
  rw [issued] at this
  revert this
  decide

end BandSdk.Working

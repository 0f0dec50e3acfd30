/-
# Working.Invariant -- one cycle's reports at a time

What keeps the cycles apart is that a cycle begins only when the false send of
the one before is done: then nothing of the earlier cycle that could still call
the callback is left.  `Ordered` says so, state by state.

Four things can break it, and `calm` is that none of them happens:
* a caller that wakes from a finished false send clears `_false_send` although
  a newer send is in it;
* a `start` that wakes from that wait begins a cycle although another `start` has
  begun one meanwhile;
* a caller that was cancelled in its wait is cancelled again, and the false send
  with it;
* the callback swallows the cancellation of a keep-alive.
-/
import BandSdk.Working.Model
import Mathlib.Tactic.Common

namespace BandSdk.Working

open BandSdk.Theory List Function Phase

namespace Reporter

variable {s t : Reporter}

/-! ## The condition -/

/-- `_false_send` is empty or still the send the caller waited for. -/
def ownSlot (s : Reporter) (send : Nat) : Bool :=
  s.falseSend = none || s.falseSend = some send

def calm (s : Reporter) : ReporterEvent → Bool
  | .resume i => match s.callers[i]? with
      | some (.starting send drained) => s.ownSlot send && (drained || !s.active)
      | some (.stopping send _) => s.ownSlot send
      | _ => true
  | .cancelCaller i => match s.callers[i]? with
      | some (.starting send drained) =>
        if (s.reports send).phase.isDone then s.ownSlot send else !drained
      | some (.stopping send drained) =>
        if (s.reports send).phase.isDone then s.ownSlot send else !drained
      | _ => true
  | .swallows _ => false
  | _ => true

/-! ## The invariant -/

/-- Report `r` may still call the callback. -/
def Live (s : Reporter) (r : Nat) : Prop :=
  (s.reports r).phase.isDone = false ∧ (s.reports r).cancelled = false

/-- The false send in the slot has not called the callback yet. -/
def Owed (s : Reporter) : Prop :=
  ∃ f, s.falseSend = some f ∧ ((s.reports f).phase = .created ∨ (s.reports f).phase = .queued)

structure Ordered (s : Reporter) : Prop where
  /-- The callback is in flight exactly for the holder of the lock. -/
  reporting : ∀ r, (s.reports r).phase = .reporting ↔ s.held = some r
  line : ∀ r, r ∈ s.waiters ↔ (s.reports r).phase = .queued
  nodup : s.waiters.Nodup
  fresh : ∀ r, s.reportCount ≤ r → (s.reports r).phase.isDone = true
  freshKeep : ∀ k, s.keepCount ≤ k → (s.keeps k).phase = .ended
  /-- Whatever may still call the callback is of the latest cycle. -/
  current : ∀ r, s.Live r → (s.reports r).cycle = s.cycles
  falses : ∀ r, (s.reports r).phase.isDone = false → (s.reports r).working = false →
    s.falseSend = some r ∧ (s.reports r).cancelled = false ∧ s.active = false
  /-- After the cycle ended, a true report is left only ahead of the false one. -/
  trues : ∀ r, s.Live r → (s.reports r).working = true → s.active = false → s.Owed
  last : ∀ f, s.falseSend = some f → (s.reports f).phase = .queued → ∃ ahead, s.waiters = ahead ++ [f]
  created : ∀ r, (s.reports r).phase = .created → (s.reports r).working = false
  owner : ∀ r, (s.reports r).owner = .falseSend ↔ (s.reports r).working = false
  send : ∀ f, s.falseSend = some f → (s.reports f).working = false
  slot : s.active = true → s.falseSend = none
  task : s.active = false → s.task = none
  keeps : ∀ k, (s.keeps k).phase ≠ .ended → (s.keeps k).cancelled = false →
    s.active = true ∧ s.task = some k ∧ (s.keeps k).cycle = s.cycles
  /-- A cycle has one start, and no keep-alive before it is done. -/
  starts : ∀ r, s.Live r → (s.reports r).owner = .start → s.active = true → s.task = none
  oneStart : ∀ r r', s.Live r → s.Live r' → (s.reports r).owner = .start →
    (s.reports r').owner = .start → r = r'
  inReport : ∀ k r, (s.keeps k).phase = .inReport r →
    (s.reports r).owner = .keepAlive k ∧ (s.reports r).phase.isDone = false
  ofKeep : ∀ r k, (s.reports r).phase.isDone = false → (s.reports r).owner = .keepAlive k →
    (s.keeps k).phase = .inReport r
  bounded : ∀ x ∈ s.issued, x.2 ≤ s.cycles
  inOrder : s.issued.Pairwise fun a b => a.1 = true → a.2 ≤ b.2
  /-- An ended cycle has reported false, or still will. -/
  tail : s.active = false → 0 < s.cycles → s.Owed ∨ ∃ cycle, s.issued.getLast? = some (false, cycle)

theorem ordered_initial : initial.Ordered := by
  constructor <;> simp [initial, Live, isDone]

/-! ## Steps that leave the reports alone -/

section

variable (ordered : s.Ordered)
include ordered

theorem Ordered.waits (callers : List Caller) (wake : Signal) :
    ({ s with callers, wake } : Reporter).Ordered :=
  ⟨ordered.reporting, ordered.line, ordered.nodup, ordered.fresh, ordered.freshKeep,
    ordered.current, ordered.falses, ordered.trues, ordered.last, ordered.created, ordered.owner,
    ordered.send, ordered.slot, ordered.task, ordered.keeps, ordered.starts, ordered.oneStart, ordered.inReport,
    ordered.ofKeep, ordered.bounded, ordered.inOrder, ordered.tail⟩

theorem Ordered.clear (done : ∀ f, s.falseSend = some f → (s.reports f).phase.isDone = true) :
    ({ s with falseSend := none } : Reporter).Ordered := by
  have unowed : ¬ s.Owed := by
    rintro ⟨f, slot, waits⟩
    have := done f slot
    rcases waits with created | queued
    · simp [created, isDone] at this
    · simp [queued, isDone] at this
  constructor
  case falses =>
    intro r live false'
    obtain ⟨slot, -⟩ := ordered.falses r live false'
    exact absurd (done r slot) (by simpa using live)
  case trues =>
    intro r live true' ended
    exact absurd (ordered.trues r live true' ended) unowed
  case last => exact nofun
  case send => exact nofun
  case slot => exact fun _ => rfl
  case tail =>
    intro ended begun
    exact .inr ((ordered.tail ended begun).resolve_left unowed)
  case reporting => exact ordered.reporting
  case line => exact ordered.line
  case nodup => exact ordered.nodup
  case fresh => exact ordered.fresh
  case freshKeep => exact ordered.freshKeep
  case current => exact ordered.current
  case created => exact ordered.created
  case owner => exact ordered.owner
  case task => exact ordered.task
  case keeps => exact ordered.keeps
  case starts => exact ordered.starts
  case oneStart => exact ordered.oneStart
  case inReport => exact ordered.inReport
  case ofKeep => exact ordered.ofKeep
  case bounded => exact ordered.bounded
  case inOrder => exact ordered.inOrder

/-- Between cycles, with the slot empty, nothing may call the callback. -/
theorem Ordered.not_live (ended : s.active = false) (empty : s.falseSend = none) (r : Nat) : ¬ s.Live r := by
  intro live
  cases kind : (s.reports r).working with
  | true =>
    obtain ⟨f, slot, -⟩ := ordered.trues r live kind ended
    cases slot.symm.trans empty
  | false =>
    cases (ordered.falses r live.1 kind).1.symm.trans empty

/-! ## A cycle begins and ends -/

theorem Ordered.beginCycle (ended : s.active = false) (empty : s.falseSend = none) : s.beginCycle.Ordered := by
  have nobody := ordered.not_live ended empty
  have idle := ordered.task ended
  have line := ordered.line
  have nodup := ordered.nodup
  have fresh := ordered.fresh
  cases ordered
  have newDone := fresh s.reportCount (Nat.le_refl _)
  have newOut : s.reportCount ∉ s.waiters := by
    rw [line]
    intro queued
    simp [queued, isDone] at newDone
  constructor <;>
    simp only [Reporter.beginCycle, reportTrue, setReport, Live, Owed, update_apply] at *
  case nodup => exact nodup_append.2 ⟨nodup, by simp, by grind -linarith⟩
  all_goals grind -linarith [isDone]

theorem Ordered.dropKeep (k : Nat) : (s.setKeep k { s.keeps k with cancelled := true }).Ordered := by
  have phase : ∀ k', ((s.setKeep k { s.keeps k with cancelled := true }).keeps k').phase =
      (s.keeps k').phase := by
    intro k'
    by_cases same : k' = k
    · simp [setKeep, same]
    · simp [setKeep, same]
  constructor
  case freshKeep =>
    intro k' new
    rw [phase]
    exact ordered.freshKeep k' new
  case keeps =>
    intro k' live spared
    rw [phase] at live
    by_cases same : k' = k
    · simp [setKeep, same] at spared
    have kept : (s.setKeep k { s.keeps k with cancelled := true }).keeps k' = s.keeps k' := by
      simp [setKeep, same]
    rw [kept] at spared ⊢
    exact ordered.keeps k' live spared
  case inReport =>
    intro k' r at_
    rw [phase] at at_
    exact ordered.inReport k' r at_
  case ofKeep =>
    intro r k' live owned
    rw [phase]
    exact ordered.ofKeep r k' live owned
  case reporting => exact ordered.reporting
  case line => exact ordered.line
  case nodup => exact ordered.nodup
  case fresh => exact ordered.fresh
  case current => exact ordered.current
  case falses => exact ordered.falses
  case trues => exact ordered.trues
  case last => exact ordered.last
  case created => exact ordered.created
  case owner => exact ordered.owner
  case send => exact ordered.send
  case slot => exact ordered.slot
  case task => exact ordered.task
  case starts => exact ordered.starts
  case oneStart => exact ordered.oneStart
  case bounded => exact ordered.bounded
  case inOrder => exact ordered.inOrder
  case tail => exact ordered.tail

theorem Ordered.dropReport {r : Nat} (true' : (s.reports r).working = true) :
    (s.setReport r { s.reports r with cancelled := true }).Ordered := by
  cases ordered
  constructor <;> simp only [setReport, Live, Owed, update_apply] at * <;> grind -linarith

theorem Ordered.working_of_owner {r : Nat}
    (other : (s.reports r).owner ≠ .falseSend) : (s.reports r).working = true := by
  cases kind : (s.reports r).working with
  | true => rfl
  | false => exact absurd ((ordered.owner r).2 kind) other

theorem Ordered.cancelKeep (k : Nat) : (s.cancelKeep k).Ordered := by
  unfold Reporter.cancelKeep
  split
  · rename_i r phase
    obtain ⟨owned, -⟩ := ordered.inReport k r phase
    exact (ordered.dropKeep k).dropReport (ordered.working_of_owner (by simp [owned]))
  · exact ordered.dropKeep k

theorem Ordered.cancelStart {r : Nat} (own : (s.reports r).owner = .start) :
    (s.setReport r { s.reports r with cancelled := true }).Ordered :=
  ordered.dropReport (ordered.working_of_owner (by simp [own]))

theorem Ordered.endCycle (begun : s.active = true)
    (ending : ∀ k, (s.keeps k).phase ≠ .ended → (s.keeps k).cancelled = true) :
    ({ s.setReport s.reportCount ⟨false, s.cycles, .falseSend, .created, false⟩ with
      active := false, task := none, reportCount := s.reportCount + 1,
      falseSend := some s.reportCount } : Reporter).Ordered := by
  have fresh := ordered.fresh
  cases ordered
  have newDone := fresh s.reportCount (Nat.le_refl _)
  constructor <;>
    simp only [setReport, Live, Owed, update_apply] at * <;> grind -linarith [isDone]

theorem Ordered.arm (begun : s.active = true) : s.arm.Ordered := by
  cases task : s.task with
  | none =>
    have idle : ∀ k, (s.keeps k).phase ≠ .ended → (s.keeps k).cancelled = true := by
      intro k busy
      by_contra still
      have := ordered.keeps k busy (by simpa using still)
      simp [task] at this
    have := ordered.endCycle begun idle
    simpa [Reporter.arm, task] using this
  | some k =>
    have others : ∀ i, ((s.cancelKeep k).keeps i).phase ≠ .ended →
        ((s.cancelKeep k).keeps i).cancelled = true := by
      intro i busy
      have own := ordered.keeps i
      unfold Reporter.cancelKeep at busy ⊢
      split at busy <;> simp only [setReport, setKeep, update_apply] at * <;> grind -linarith
    have same : (s.cancelKeep k).reportCount = s.reportCount ∧ (s.cancelKeep k).cycles = s.cycles ∧
        (s.cancelKeep k).active = s.active := by
      unfold Reporter.cancelKeep
      split <;> simp [setReport, setKeep]
    obtain ⟨count, cycles, active⟩ := same
    have := (ordered.cancelKeep k).endCycle (active.trans begun) others
    rw [count, cycles] at this
    simpa [Reporter.arm, task] using this

end

/-! ## A report comes back -/

/-- The report leaves the line, or gives the lock back. -/
def land (s : Reporter) (r : Nat) (returned : Bool) : Reporter :=
  { s.setPhase r (.done returned) with
    waiters := s.waiters.erase r, held := if s.held = some r then none else s.held }

section Land

variable {r k : Nat} {returned : Bool}

/-- Only the keep-alive that report `r` is of moves on, out of its report. -/
def MovesOn (s : Reporter) (r : Nat) (keeps : Nat → KeepAlive) : Prop :=
  ∀ k, ((s.reports r).owner ≠ .keepAlive k ∧ keeps k = s.keeps k) ∨
    ∃ phase, keeps k = { s.keeps k with phase := phase } ∧ (s.reports r).owner = .keepAlive k ∧
      ∀ i, phase ≠ .inReport i

theorem Ordered.landed (ordered : s.Ordered) (undone : (s.reports r).phase.isDone = false)
    (issued : (s.reports r).working = true ∨ (s.reports r).phase = .reporting)
    {moved : Nat → KeepAlive} (moves : s.MovesOn r moved) :
    ({ s.land r returned with keeps := moved } : Reporter).Ordered := by
  have nodup := ordered.nodup
  have last := ordered.last
  cases ordered
  constructor <;>
    simp only [Reporter.land, setPhase, setReport, Live, Owed, update_apply, MovesOn] at *
  case nodup => exact nodup.erase r
  case line =>
    intro i
    rw [nodup.mem_erase_iff]
    grind -linarith [isDone]
  case last =>
    intro f sent queued
    obtain ⟨ahead, shape⟩ := last f sent (by grind -linarith)
    exact ⟨ahead.erase r, by grind -linarith⟩
  all_goals grind -linarith [isDone]

theorem movesOn_self (own : ∀ k, (s.reports r).owner ≠ .keepAlive k) : s.MovesOn r s.keeps :=
  fun k => .inl ⟨own k, rfl⟩

theorem movesOn_keep (own : (s.reports r).owner = .keepAlive k) {phase : KeepPhase}
    (out : ∀ i, phase ≠ .inReport i) :
    s.MovesOn r (Function.update s.keeps k { s.keeps k with phase := phase }) := by
  intro i
  by_cases same : i = k
  · subst same
    exact .inr ⟨phase, by simp, own, out⟩
  · refine .inl ⟨?_, by simp [same]⟩
    rw [own]
    rintro ⟨⟩
    exact same rfl

theorem Ordered.addKeep (ordered : s.Ordered) (begun : s.active = true) (idle : s.task = none)
    (started : ∀ r, s.Live r → (s.reports r).owner ≠ .start) :
    ({ s.setKeep s.keepCount ⟨s.cycles, .waiting, false⟩ with
      keepCount := s.keepCount + 1, task := some s.keepCount } : Reporter).Ordered := by
  have freshKeep := ordered.freshKeep
  cases ordered
  have new := freshKeep s.keepCount (Nat.le_refl _)
  constructor <;>
    simp only [setKeep, Live, Owed, update_apply] at *
  all_goals grind -linarith [isDone]

/-- The report comes back to its task with a result. -/
theorem Ordered.returnTo (ordered : s.Ordered) (undone : (s.reports r).phase.isDone = false)
    (issued : (s.reports r).working = true ∨ (s.reports r).phase = .reporting)
    (uncancelled : s.active = true → (s.reports r).cancelled = false) (paused : Bool) :
    ((s.land r true).returnTo r paused).Ordered := by
  have same : ((s.land r true).reports r).owner = (s.reports r).owner := by
    simp [Reporter.land, setPhase, setReport]
  unfold Reporter.returnTo
  rw [same]
  cases own : (s.reports r).owner with
  | falseSend => exact ordered.landed undone issued (movesOn_self (by simp [own]))
  | keepAlive k =>
    refine ordered.landed undone issued (movesOn_keep own ?_)
    cases paused <;> simp
  | start =>
    have landed : (s.land r true).Ordered :=
      ordered.landed undone issued (movesOn_self (by simp [own]))
    dsimp only
    split
    next begun =>
      replace begun : s.active = true := begun
      have live : s.Live r := ⟨undone, uncancelled begun⟩
      have now : ((s.land r true).reports r).cycle = s.cycles := by
        simpa [Reporter.land, setPhase, setReport] using ordered.current r live
      rw [now]
      refine landed.addKeep begun (ordered.starts r live own begun) ?_
      intro i liveI ownI
      simp only [Reporter.land, setPhase, setReport, Live, update_apply] at liveI ownI live
      have := ordered.oneStart i r
      grind -linarith [Live, isDone]
    next => exact landed

/-- The report comes back to its task as a cancellation. -/
theorem Ordered.raiseTo (ordered : s.Ordered) (undone : (s.reports r).phase.isDone = false)
    (cancelled : (s.reports r).cancelled = true) :
    ((s.land r false).raiseTo r).Ordered := by
  have issued : (s.reports r).working = true := by
    by_contra other
    have := (ordered.falses r undone (by simpa using other)).2.1
    simp [cancelled] at this
  have same : ((s.land r false).reports r).owner = (s.reports r).owner := by
    simp [Reporter.land, setPhase, setReport]
  unfold Reporter.raiseTo
  rw [same]
  cases own : (s.reports r).owner with
  | falseSend | start => exact ordered.landed undone (.inl issued) (movesOn_self (by simp [own]))
  | keepAlive k => exact ordered.landed undone (.inl issued) (movesOn_keep own (by simp))

end Land

/-! ## The callback is called -/

section Issue

variable {r : Nat}

section

variable (ordered : s.Ordered) (free : s.held = none) (waits : r ∈ s.waiters)
include ordered free waits

/-- The report takes the lock and calls the callback. -/
theorem Ordered.issueTrue (uncancelled : (s.reports r).cancelled = false) (true' : (s.reports r).working = true)
    (begun : s.active = true) :
    (({ s with waiters := s.waiters.erase r } : Reporter).issue r).Ordered := by
  have queued := (ordered.line r).1 waits
  have now := ordered.current r ⟨by simp [queued, isDone], uncancelled⟩
  have nodup := ordered.nodup
  cases ordered
  constructor <;>
    simp only [issue, setPhase, setReport, Live, Owed, update_apply] at *
  case nodup => exact nodup.erase r
  case line =>
    intro i
    rw [nodup.mem_erase_iff]
    grind -linarith [isDone]
  all_goals grind -linarith [isDone]

theorem Ordered.alone (first : s.first r = true) (false' : (s.reports r).working = false) (i : Nat)
    (live : s.Live i) : (s.reports i).working = false := by
  have queued := (ordered.line r).1 waits
  obtain ⟨sent, -⟩ := ordered.falses r (by simp [queued, isDone]) false'
  obtain ⟨ahead, shape⟩ := ordered.last r sent queued
  have nodup := ordered.nodup
  have skipped : s.waiters.takeWhile (· ≠ r) = ahead := by
    rw [shape] at nodup ⊢
    have out : ∀ x ∈ ahead, decide (x ≠ r) = true := by grind -linarith
    rw [takeWhile_append_of_pos out]
    simp
  cases phase : (s.reports i).phase with
  | created => exact ordered.created i phase
  | reporting => simp [(ordered.reporting i).1 phase] at free
  | done returned => simp [Live, phase, isDone] at live
  | queued =>
    have inLine := (ordered.line i).2 phase
    by_cases same : i = r
    · exact same ▸ false'
    have cancelled : (s.reports i).cancelled = true := by
      rw [Reporter.first, skipped] at first
      grind -linarith
    simp [live.2] at cancelled

theorem Ordered.issueFalse (first : s.first r = true) (uncancelled : (s.reports r).cancelled = false)
    (false' : (s.reports r).working = false) :
    (({ s with waiters := s.waiters.erase r } : Reporter).issue r).Ordered := by
  have queued := (ordered.line r).1 waits
  have now := ordered.current r ⟨by simp [queued, isDone], uncancelled⟩
  have alone := ordered.alone free waits first false'
  have nodup := ordered.nodup
  cases ordered
  constructor <;>
    simp only [issue, setPhase, setReport, Live, Owed, update_apply] at *
  case nodup => exact nodup.erase r
  case line =>
    intro i
    rw [nodup.mem_erase_iff]
    grind -linarith [isDone]
  case tail =>
    intro _ _
    exact .inr ⟨(s.reports r).cycle, by simp [false']⟩
  all_goals grind -linarith [isDone]

end

end Issue

theorem Ordered.join (ordered : s.Ordered) {r : Nat} (created : (s.reports r).phase = .created) :
    ({ s.setPhase r .queued with waiters := s.waiters ++ [r] } : Reporter).Ordered := by
  have line := ordered.line
  have nodup := ordered.nodup
  have falses := ordered.falses
  have born := ordered.created
  cases ordered
  have out : r ∉ s.waiters := by simp [line, created]
  have false' := born r created
  obtain ⟨sent, -⟩ := falses r (by simp [created, isDone]) false'
  constructor <;>
    simp only [setPhase, setReport, Live, Owed, update_apply] at *
  case nodup => exact nodup_append.2 ⟨nodup, by simp, by grind -linarith⟩
  case last =>
    intro f sent' _
    obtain rfl : r = f := by simpa [sent] using sent'
    exact ⟨s.waiters, rfl⟩
  all_goals grind -linarith [isDone]

theorem Ordered.keepOn (ordered : s.Ordered) {k : Nat} {phase : KeepPhase}
    (now : ∀ i, (s.keeps k).phase ≠ .inReport i) (next : ∀ i, phase ≠ .inReport i)
    (alive : phase ≠ .ended → (s.keeps k).phase ≠ .ended) :
    (s.setKeep k { s.keeps k with phase := phase }).Ordered := by
  cases ordered
  constructor <;> simp only [setKeep, Live, Owed, update_apply] at *
  all_goals grind -linarith [isDone]

theorem Ordered.reportKeep (ordered : s.Ordered) {k : Nat} (waiting : (s.keeps k).phase = .waiting)
    (uncancelled : (s.keeps k).cancelled = false) :
    ((s.reportTrue (s.keeps k).cycle (.keepAlive k)).setKeep k
      { s.keeps k with phase := .inReport s.reportCount }).Ordered := by
  have line := ordered.line
  have nodup := ordered.nodup
  have fresh := ordered.fresh
  have keeps := ordered.keeps
  cases ordered
  have newDone := fresh s.reportCount (Nat.le_refl _)
  obtain ⟨begun, mine, now⟩ := keeps k (by simp [waiting]) uncancelled
  have newOut : s.reportCount ∉ s.waiters := by
    rw [line]
    intro queued
    simp [queued, isDone] at newDone
  constructor <;>
    simp only [reportTrue, setReport, setKeep, Live, Owed, update_apply] at *
  case nodup => exact nodup_append.2 ⟨nodup, by simp, by grind -linarith⟩
  all_goals grind -linarith [isDone]

end Reporter

end BandSdk.Working

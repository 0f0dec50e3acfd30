/-
# Scheduling.Accounts -- the claims and the charges of a turn

What a turn takes it takes in loops that can stop midway, and gives back on
another path than the one that took it.  A `Trail` is the way of one delivery's
record through a turn, with the acts the turn asked for it; each phase has one lemma
that names its trail.  A `Statement` says what one round asked: claims, charges,
terminal settlements, discarded charges and released claims, in this order.

`Account` is what decides the numbers in it: the members the round offered, those
it claimed, and how the execution of its originals ended.
-/
import BandSdk.Scheduling.Batches

namespace BandSdk.Scheduling

open BandSdk.Turns List Candidate

variable {I ρ : Type} [DecidableEq I]

/-! ## The journal of a delivery -/

inductive Act where
  | claim
  | release
  | charge (exceeded : Bool)
  | discard
  | settle (status : DeliveryStatus)
  deriving DecidableEq

/-- The core with a journal: claims behave as a lock, charges as a counter. -/
structure Core.Journaled (core : Core ρ) (acts : ρ → List Act) : Prop where
  guardedClaim : ∀ r facts, acts (core.guardedClaim r facts).2 =
    if (core.guardedClaim r facts).1 = .runnable then acts r ++ [.claim] else acts r
  release : ∀ r, acts (core.release r) = acts r ++ [.release]
  recordAttempt : ∀ r, acts (core.recordAttempt r).1 = acts r ++ [.charge (core.recordAttempt r).2]
  discardAttempt : ∀ r, acts (core.discardAttempt r) = acts r ++ [.discard]
  recordProcessedSettlement : ∀ r, acts (core.recordProcessedSettlement r) = acts r ++ [.settle .processed]
  recordFailedSettlement : ∀ retry r, acts (core.recordFailedSettlement retry r) = acts r ++ [.settle .failed]
  rememberCompleted : ∀ r, acts (core.rememberCompleted r) = acts r
  confirmSettlement : ∀ token r, acts (core.confirmSettlement token r) = acts r
  parkSettlement : ∀ token result r, acts (core.parkSettlement token result r) = acts r
  unparkAck : ∀ r, acts (core.unparkAck r) = acts r
  recordAckRetry : ∀ r, acts (core.recordAckRetry r) = acts r

/-- Any core keeps one, beside its own record. -/
def journaled (core : Core ρ) : Core (ρ × List Act) where
  deliveryEligibility r facts := core.deliveryEligibility r.1 facts
  guardedClaim r facts := ((core.guardedClaim r.1 facts).1, (core.guardedClaim r.1 facts).2,
    if (core.guardedClaim r.1 facts).1 = .runnable then r.2 ++ [.claim] else r.2)
  release r := (core.release r.1, r.2 ++ [.release])
  rememberCompleted r := (core.rememberCompleted r.1, r.2)
  recordAttempt r := (((core.recordAttempt r.1).1, r.2 ++ [.charge (core.recordAttempt r.1).2]),
    (core.recordAttempt r.1).2)
  discardAttempt r := (core.discardAttempt r.1, r.2 ++ [.discard])
  recordProcessedSettlement r := (core.recordProcessedSettlement r.1, r.2 ++ [.settle .processed])
  recordFailedSettlement retry r :=
    (core.recordFailedSettlement retry r.1, r.2 ++ [.settle .failed])
  pendingSettlement r := core.pendingSettlement r.1
  confirmSettlement token r := (core.confirmSettlement token r.1, r.2)
  parkSettlement token result r := (core.parkSettlement token result r.1, r.2)
  unparkAck r := (core.unparkAck r.1, r.2)
  recordAckRetry r := (core.recordAckRetry r.1, r.2)
  retryableSettlement r := core.retryableSettlement r.1

theorem journaled_spec (core : Core ρ) : (journaled core).Journaled Prod.snd where
  guardedClaim _ _ := rfl
  release _ := rfl
  recordAttempt _ := rfl
  discardAttempt _ := rfl
  recordProcessedSettlement _ := rfl
  recordFailedSettlement _ _ := rfl
  rememberCompleted _ := rfl
  confirmSettlement _ _ := rfl
  parkSettlement _ _ _ := rfl
  unparkAck _ := rfl
  recordAckRetry _ := rfl

/-! ## The trail of a record -/

/-- One request of a turn, the acts it counts as, and the record it leaves. -/
inductive Asks (core : Core ρ) : ρ → List Act → ρ → Prop where
  | claim {r : ρ} {facts : DeliveryFacts} : (core.guardedClaim r facts).1 = .runnable →
      Asks core r [.claim] (core.guardedClaim r facts).2
  | refused {r : ρ} {facts : DeliveryFacts} : (core.guardedClaim r facts).1 ≠ .runnable →
      Asks core r [] (core.guardedClaim r facts).2
  | release (r : ρ) : Asks core r [.release] (core.release r)
  | charge (r : ρ) : Asks core r [.charge (core.recordAttempt r).2] (core.recordAttempt r).1
  | discard (r : ρ) : Asks core r [.discard] (core.discardAttempt r)
  | processed (r : ρ) : Asks core r [.settle .processed] (core.recordProcessedSettlement r)
  | failed (retry : Bool) (r : ρ) :
      Asks core r [.settle .failed] (core.recordFailedSettlement retry r)
  | remember (r : ρ) : Asks core r [] (core.rememberCompleted r)
  | confirm (token : Nat) (r : ρ) : Asks core r [] (core.confirmSettlement token r)
  | park (token : Nat) (result : SettlementResult) (r : ρ) :
      Asks core r [] (core.parkSettlement token result r)
  | unpark (r : ρ) : Asks core r [] (core.unparkAck r)
  | ackRetry (r : ρ) : Asks core r [] (core.recordAckRetry r)

inductive Trail (core : Core ρ) : ρ → List Act → ρ → Prop where
  | refl (r : ρ) : Trail core r [] r
  | tail {r r' r'' : ρ} {acts asked : List Act} : Trail core r acts r' → Asks core r' asked r'' →
      Trail core r (acts ++ asked) r''

theorem Trail.trans {core : Core ρ} {r r' r'' : ρ} {acts later : List Act}
    (first : Trail core r acts r') (second : Trail core r' later r'') :
    Trail core r (acts ++ later) r'' := by
  induction second with
  | refl => rwa [append_nil]
  | tail _ asks ih =>
    rw [← append_assoc]
    exact .tail ih asks

theorem Asks.journaled {core : Core ρ} {journal : ρ → List Act} (kept : core.Journaled journal)
    {r r' : ρ} {acts : List Act} (asks : Asks core r acts r') :
    journal r' = journal r ++ acts := by
  cases asks with
  | claim runs => rw [kept.guardedClaim, if_pos runs]
  | refused refuses => rw [kept.guardedClaim, if_neg refuses, append_nil]
  | release => exact kept.release r
  | charge => exact kept.recordAttempt r
  | discard => exact kept.discardAttempt r
  | processed => exact kept.recordProcessedSettlement r
  | failed retry => exact kept.recordFailedSettlement retry r
  | remember => rw [kept.rememberCompleted, append_nil]
  | confirm token => rw [kept.confirmSettlement, append_nil]
  | park token result => rw [kept.parkSettlement, append_nil]
  | unpark => rw [kept.unparkAck, append_nil]
  | ackRetry => rw [kept.recordAckRetry, append_nil]

theorem Trail.journaled {core : Core ρ} {journal : ρ → List Act} (kept : core.Journaled journal)
    {r r' : ρ} {acts : List Act} (trail : Trail core r acts r') :
    journal r' = journal r ++ acts := by
  induction trail with
  | refl => rw [append_nil]
  | tail _ asks ih => rw [asks.journaled kept, ih, append_assoc]

/-! ## The account of a round -/

namespace Lifecycle

/-- The attempt settled with a terminal intent, and was no INTERRUPT. -/
def Course.keepsCharges : Course → Bool
  | .settled (some _) interrupted _ _ => !interrupted
  | _ => false

/-- The attempt recorded a failure: as its intent, or of an execution that raised
after its scope had settled with none. -/
def Course.recordsFailure : Course → Bool
  | .settled intent _ _ failing => intent = some .failed || failing && intent = none
  | _ => false

/-- The terminal settlement the attempt recorded for each of its originals. -/
def Course.settlement : Course → Option DeliveryStatus
  | .settled (some .processed) _ _ _ => some .processed
  | .settled (some .failed) _ _ _ => some .failed
  | _ => none

/-- What one round offered the registry, what it claimed of it, and what it executed:
the originals, and how the execution ended. -/
structure Account (I : Type) where
  offered : List I := []
  claimed : List I := []
  executed : Option (List I × Course) := none

variable (life : Lifecycle ρ)

/-- What a begun attempt executed; an execution with no answer was cancelled. -/
def executed (batch : List I) (revision : Nat) (control : Bool) (round : Round I ρ)
    (turn : Turn I ρ) : Option (List I × Course) :=
  match life.prepare batch revision control round turn with
  | (.error _, _) => none
  | (.ok originals, turn) =>
    match life.admitOriginals batch revision control round originals turn with
    | (.error _, _) => none
    | (.ok present, _) =>
      some (present.map Candidate.messageId, (round.execution.map Prod.snd).getD .cancelled)

def attempted (batch : List I) (revision : Nat) (control : Bool) (round : Round I ρ)
    (turn : Turn I ρ) : Option (List I × Course) :=
  match round.beginning with
  | some (m, true) =>
    life.executed batch revision control round
      { turn with world := turn.world.await life.core batch m }
  | _ => none

/-- The account of one `_run_once`. -/
def account (batch : List I) (revision : Nat) (control : Bool) (round : Round I ρ)
    (members : List (Candidate I)) (w : World I ρ) : Account I :=
  match life.screen batch w members round.screening with
  | (.error _, _) => {}
  | (.ok runnable, w) =>
    if runnable = [] then {}
    else
      let (acquired, held, w) := life.claim w runnable
      { offered := runnable.map Candidate.messageId
        claimed := held
        executed := if acquired then
          life.attempted batch revision control round { members := runnable, world := w } else none }

/-- The accounts of the rounds `runFrom` starts. -/
def accountsFrom (batch : List I) (revision : Nat) (control : Bool) :
    List (Round I ρ) → List (Candidate I) → World I ρ → List (Account I)
  | [], _, _ => []
  | round :: rounds, current, w =>
    let (outcome, turn, _) := life.runOnce batch revision control round current w
    life.account batch revision control round current w ::
      if outcome ≠ some .advanced then []
      else
        let (again, w) := life.anyRunnable turn.world turn.members
        if again then accountsFrom batch revision control rounds turn.members w else []

def accounts (members : List (Candidate I)) (revision : Nat) (control : Bool)
    (rounds : List (Round I ρ)) (w : World I ρ) : List (Account I) :=
  life.accountsFrom (members.map Candidate.messageId) revision control rounds members w

/-- What one round wrote in the journal of one delivery. -/
structure Statement where
  claims : Nat := 0
  /-- The attempts charged, each with whether it exceeded the budget. -/
  charges : List Bool := []
  settled : List DeliveryStatus := []
  discards : Nat := 0

/-- What stands between its claims and their release. -/
def Statement.body (s : Statement) : List Act :=
  s.charges.map .charge ++ s.settled.map .settle ++ List.replicate s.discards .discard

def Statement.acts (s : Statement) : List Act :=
  List.replicate s.claims .claim ++ s.body ++ List.replicate s.claims .release

/-- The charges of an attempt, by what it offered and what it executed. -/
structure Charged (control : Bool) (offered : List I) (executed : Option (List I × Course))
    (i : I) (s : Statement) : Prop where
  once : s.charges.length ≤ offered.count i
  /-- Of the charges the budget allowed, all are discarded or none is. -/
  discards : s.discards =
    if control = true ∨ executed.any (fun e => e.2.keepsCharges) = true then 0
    else s.charges.count false
  /-- A control is charged for a failure alone. -/
  failures : control = true → s.charges.length =
    executed.elim 0 fun e => if e.2.recordsFailure then e.1.count i else 0
  /-- An original settles as its execution ended. -/
  settled : s.settled = executed.elim [] fun e =>
    e.2.settlement.elim [] fun status => List.replicate (e.1.count i) status
  within : ∀ e ∈ executed, e.1.Sublist offered
  /-- Any other executes only within the budget. -/
  allowed : control = false → executed.elim 0 (fun e => e.1.count i) ≤ s.charges.count false

/-- What a round owes the journal of `i`. -/
structure Balanced (control : Bool) (account : Account I) (i : I) (s : Statement) : Prop where
  claims : s.claims = account.claimed.count i
  /-- A batch executes, and is charged or settled, only once all of it is claimed. -/
  whole : account.executed.isSome = true ∨ s.body ≠ [] → account.claimed = account.offered
  charged : Charged control account.offered account.executed i s

/-! ## What asks nothing of a delivery -/

variable {life} {core : Core ρ} {batch : List I} {i : I}

/-- The acts a step of a turn asked for `i`. -/
def Wrote (core : Core ρ) (i : I) (w : World I ρ) (acts : List Act) (w' : World I ρ) : Prop :=
  Trail core (w.record i) acts (w'.record i)

namespace Wrote

variable {w w' w'' : World I ρ} {acts later : List Act}

omit [DecidableEq I] in
theorem refl (w : World I ρ) : Wrote core i w [] w := Trail.refl _

omit [DecidableEq I] in
theorem trans (first : Wrote core i w acts w') (second : Wrote core i w' later w'') :
    Wrote core i w (acts ++ later) w'' := Trail.trans first second

omit [DecidableEq I] in
theorem after (quiet : Wrote core i w [] w') (second : Wrote core i w' acts w'') :
    Wrote core i w acts w'' := quiet.trans second

omit [DecidableEq I] in
theorem next (first : Wrote core i w acts w') (quiet : Wrote core i w' [] w'') : Wrote core i w acts w'' := by
  simpa using first.trans quiet

theorem of_asks {j : I} {r : ρ} (asks : Asks core (w.record j) acts r) :
    Wrote core i w (if i = j then acts else []) (w.set j r) := by
  unfold Wrote
  rw [World.record_set]
  split
  · rename_i same
    exact Trail.tail (.refl _) (same ▸ asks)
  · exact .refl _

theorem quiet {j : I} {r : ρ} (asks : Asks core (w.record j) [] r) : Wrote core i w [] (w.set j r) := by
  have wrote : Wrote core i w (if i = j then [] else []) (w.set j r) := of_asks asks
  rwa [ite_self] at wrote

/-- Each entry of a list of deliveries asks the same act. -/
theorem foldl {f : ρ → ρ} {act : Act} (asks : ∀ r, Asks core r [act] (f r)) (ids : List I)
    (w : World I ρ) : Wrote core i w (List.replicate (ids.count i) act)
      (ids.foldl (fun w j => w.update j f) w) := by
  induction ids generalizing w with
  | nil => exact .refl w
  | cons j rest ih =>
    have first : Wrote core i w (if i = j then [act] else []) (w.update j f) := of_asks (asks _)
    have both := first.trans (ih (w.update j f))
    rw [foldl_cons, count_cons, Nat.add_comm, ← replicate_append_replicate]
    rcases eq_or_ne i j with rfl | other
    · rw [if_pos rfl] at both
      rw [beq_self_eq_true, if_pos rfl]
      exact both
    · rw [if_neg other] at both
      rw [if_neg (by simpa using Ne.symm other)]
      exact both

end Wrote

omit [DecidableEq I] in
theorem Asks.of_notes {r r' : ρ} (notes : core.Notes r r') : Asks core r [] r' := by
  cases notes with
  | remember => exact .remember r
  | confirm token => exact .confirm token r
  | park token result => exact .park token result r
  | ackRetry => exact .ackRetry r

section Awaits

variable (member : i ∈ batch)
include member

theorem await_quiet (core : Core ρ) (w : World I ρ) (m : Meanwhile I ρ) :
    Wrote core i w [] (w.await core batch m) := by
  unfold Wrote
  rcases record_await_of_mem core w m member with same | unparked
  · rw [same]
    exact .refl _
  · rw [unparked]
    exact Trail.tail (.refl _) (.unpark _)

theorem quiet_of_stays {touched : List I} {w w' : World I ρ}
    (stays : Stays core (fun _ => True) batch touched w w') : Wrote core i w [] w' := by
  induction stays with
  | refl => exact .refl w
  | note _ _ notes _ ih => exact ih.after (.quiet (Asks.of_notes notes))
  | await m _ _ ih => exact ih.after (await_quiet member core _ m)

end Awaits

theorem anyRunnable_quiet (members : List (Candidate I)) (w : World I ρ) :
    Wrote life.core i w [] (life.anyRunnable w members).2 := by
  have stays : Stays life.core (fun _ => True) [i] _ w _ := anyRunnable_stays members w
  exact quiet_of_stays (mem_singleton_self i) stays

/-! ## What a turn takes -/

theorem claim_acquired {members : List (Candidate I)} {w : World I ρ}
    (acquired : (life.claim w members).1 = true) :
    (life.claim w members).2.1 = members.map Candidate.messageId := by
  induction members generalizing w with
  | nil => rfl
  | cons c rest ih =>
    unfold claim at acquired ⊢
    dsimp only at acquired ⊢
    split at acquired
    · cases acquired
    rename_i runs
    rw [if_neg runs]
    exact congrArg (c.messageId :: ·) (ih acquired)

theorem claim_wrote (members : List (Candidate I)) (w : World I ρ) :
    Wrote life.core i w (List.replicate ((life.claim w members).2.1.count i) .claim)
      (life.claim w members).2.2 := by
  induction members generalizing w with
  | nil => exact .refl w
  | cons c rest ih =>
    unfold claim
    dsimp only
    split
    · rename_i refused
      exact .quiet (.refused refused)
    · rename_i runs
      have first : Wrote life.core i w (if i = c.messageId then [.claim] else [])
          (w.set c.messageId
            (life.core.guardedClaim (w.record c.messageId) (life.facts w.host c)).2) :=
        .of_asks (.claim (not_not.1 runs))
      have both := first.trans (ih _)
      rw [count_cons, Nat.add_comm, ← replicate_append_replicate]
      rcases eq_or_ne i c.messageId with rfl | other
      · rw [if_pos rfl] at both
        rw [beq_self_eq_true, if_pos rfl]
        exact both
      · rw [if_neg other] at both
        rw [if_neg (by simpa using Ne.symm other)]
        exact both

theorem recordAttempt_wrote (life : Lifecycle ρ) (w : World I ρ) (j : I) : ∃ charges : List Bool,
    charges.length = [j].count i ∧
      Wrote life.core i w (charges.map .charge) (w.set j (life.core.recordAttempt (w.record j)).1) ∧
      charges.count false =
        if (life.core.recordAttempt (w.record j)).2 then 0 else [j].count i := by
  have wrote : Wrote life.core i w
      (if i = j then [.charge (life.core.recordAttempt (w.record j)).2] else [])
      (w.set j (life.core.recordAttempt (w.record j)).1) := .of_asks (.charge _)
  rcases eq_or_ne i j with same | other
  · rw [if_pos same] at wrote
    refine ⟨[(life.core.recordAttempt (w.record j)).2], by simp [same], wrote, ?_⟩
    cases (life.core.recordAttempt (w.record j)).2 <;> simp [same]
  · rw [if_neg other] at wrote
    have none_ : [j].count i = 0 := count_eq_zero.2 (by simpa using other)
    exact ⟨[], none_.symm, wrote, by simp [none_]⟩

/-- The originals the budget allows are those whose charge did not exceed it. -/
theorem chargeAttempts_wrote (life : Lifecycle ρ) (members : List (Candidate I))
    (w : World I ρ) : ∃ charges : List Bool, charges.length = (members.map Candidate.messageId).count i ∧
      Wrote life.core i w (charges.map .charge) (life.chargeAttempts w members).2 ∧
      charges.count false = ((life.chargeAttempts w members).1.map Candidate.messageId).count i := by
  induction members generalizing w with
  | nil => exact ⟨[], rfl, .refl w, rfl⟩
  | cons c rest ih =>
    obtain ⟨first, once, wrote, allowed⟩ := life.recordAttempt_wrote (i := i) w c.messageId
    obtain ⟨later, length, wrote', allowed'⟩ :=
      ih (w.set c.messageId (life.core.recordAttempt (w.record c.messageId)).1)
    refine ⟨first ++ later, ?_, ?_, ?_⟩
    · rw [length_append, once, length, ← count_append]
      rfl
    · rw [map_append]
      exact wrote.trans wrote'
    · unfold chargeAttempts
      rw [count_append, allowed, allowed']
      dsimp only
      split
      · exact Nat.zero_add _
      · rw [← count_append]
        rfl

theorem chargeFailures_wrote (life : Lifecycle ρ) (ids : List I) (w : World I ρ) :
    ∃ charges : List Bool, charges.length = ids.count i ∧ Wrote life.core i w (charges.map .charge)
        (ids.foldl (fun w j => w.update j fun r => (life.core.recordAttempt r).1) w) := by
  induction ids generalizing w with
  | nil => exact ⟨[], rfl, .refl w⟩
  | cons j rest ih =>
    obtain ⟨first, once, wrote, -⟩ := life.recordAttempt_wrote (i := i) w j
    obtain ⟨later, length, wrote'⟩ := ih (w.set j (life.core.recordAttempt (w.record j)).1)
    refine ⟨first ++ later, ?_, ?_⟩
    · rw [length_append, once, length, ← count_append]
      rfl
    · rw [foldl_cons, map_append]
      exact wrote.trans wrote'

/-- The settlement of each original, by the intent alone. -/
theorem recordSettlement_wrote (life : Lifecycle ρ) (intent : Option DeliveryStatus)
    (interrupted stopObserved failing : Bool) (ids : List I) (w : World I ρ) :
    Wrote life.core i w
      (((Course.settled intent interrupted stopObserved failing).settlement.elim [] fun status =>
        List.replicate (ids.count i) status).map .settle)
      (ids.foldl (fun w j => w.update j (life.recordSettlement intent)) w) := by
  have unwritten : (∀ r, life.recordSettlement intent r = r) →
      Wrote life.core i w [] (ids.foldl (fun w j => w.update j (life.recordSettlement intent)) w) := by
    intro same
    have record : ∀ w : World I ρ, (ids.foldl
        (fun w j => w.update j (life.recordSettlement intent)) w).record i = w.record i := by
      induction ids with
      | nil => exact fun _ => rfl
      | cons j rest ih =>
        intro w
        rw [foldl_cons, ih, World.update, same, World.record_set]
        split
        · rename_i own
          rw [own]
        · rfl
    unfold Wrote
    rw [record]
    exact .refl _
  cases intent with
  | none => exact unwritten fun _ => rfl
  | some status =>
    cases status with
    | delivered | processing => exact unwritten fun _ => rfl
    | processed =>
      refine Eq.subst (motive := fun acts => Wrote life.core i w acts _) ?_
        (Wrote.foldl (fun r => Asks.processed r) ids w)
      exact map_replicate.symm
    | failed =>
      refine Eq.subst (motive := fun acts => Wrote life.core i w acts _) ?_
        (Wrote.foldl (fun r => Asks.failed life.replaysFailures r) ids w)
      exact map_replicate.symm

/-! ## One attempt -/

/-- An attempt whose originals are fixed: what it charged of `i`, and nothing else. -/
structure Prepared (core : Core ρ) (control : Bool) (i : I) (turn turn' : Turn I ρ)
    (charges : List Bool) : Prop where
  wrote : Wrote core i turn.world (charges.map .charge) turn'.world
  once : charges.length ≤ turn.ids.count i
  charged : turn'.charged.count i = charges.count false
  control : control = true → charges = []

theorem Prepared.idle {control : Bool} {turn turn' : Turn I ρ} (none_ : turn'.charged = [])
    (quiet : Wrote core i turn.world [] turn'.world) : Prepared core control i turn turn' [] where
  wrote := quiet
  once := Nat.zero_le _
  charged := by rw [none_]; rfl
  control _ := rfl

/-- An attempt charges while it prepares, or, a control, as it fails. -/
theorem Charged.of_phases {control : Bool} {offered originals : List I} {course : Course}
    {charges failures : List Bool} (once : charges.length ≤ offered.count i)
    (uncharged : control = true → charges = []) (within : originals.Sublist offered)
    (allowed : control = false → originals.count i ≤ charges.count false)
    (failed : failures.length =
      if control = true ∧ course.recordsFailure = true then originals.count i else 0) :
    Charged control offered (some (originals, course)) i
      { charges := charges ++ failures
        settled := course.settlement.elim [] fun status => List.replicate (originals.count i) status
        discards := if course.keepsCharges then 0 else charges.count false } := by
  cases control with
  | false =>
    obtain rfl := eq_nil_of_length_eq_zero (failed.trans (by simp))
    exact ⟨by simpa using once, by simp, nofun, rfl, by simpa using within, fun _ => by simpa using allowed rfl⟩
  | true =>
    obtain rfl := uncharged rfl
    have bound : failures.length ≤ originals.count i := by
      rw [failed]
      split
      · exact le_rfl
      · exact Nat.zero_le _
    refine ⟨bound.trans (within.count_le i), by simp, fun _ => ?_, rfl, by simpa using within, nofun⟩
    rw [nil_append, failed]
    simp

section Attempt

variable (revision : Nat) (control : Bool) (round : Round I ρ) (turn : Turn I ρ)

theorem fixOriginals_prepared (life : Lifecycle ρ) : ∃ charges,
    Prepared life.core control i turn (life.fixOriginals control turn).2 charges ∧
      (life.fixOriginals control turn).1.Sublist turn.members ∧
      (control = false →
        ((life.fixOriginals control turn).1.map Candidate.messageId).count i ≤ charges.count false) := by
  obtain ⟨stays, sub⟩ := life.owedTurn_spec (fun _ => True) [i] turn.world
    fun c mem => mem_ids turn mem
  have owed := quiet_of_stays (mem_singleton_self i) stays
  cases control with
  | true => exact ⟨[], .idle rfl owed, sub, nofun⟩
  | false =>
    obtain ⟨charges, length, wrote, allowed⟩ := life.chargeAttempts_wrote (i := i)
      (life.owedTurn turn.world turn.members).1 (life.owedTurn turn.world turn.members).2
    refine ⟨charges, ⟨owed.after wrote, ?_, allowed.symm, nofun⟩,
      (life.chargeAttempts_spec (fun _ => True) [i] _ fun c mem => mem_map_of_mem mem).2.trans sub,
      fun _ => allowed.ge⟩
    rw [length]
    exact (sub.map messageId).count_le i

variable (member : i ∈ batch)
include member

theorem prepare_prepared (life : Lifecycle ρ) {turn : Turn I ρ} (uncharged : turn.charged = []) :
    ∃ charges, Prepared life.core control i turn
        (life.prepare batch revision control round turn).2 charges ∧
      ∀ originals, (life.prepare batch revision control round turn).1 = .ok originals →
        (originals.map Candidate.messageId).Sublist turn.ids ∧
          (control = false → (originals.map Candidate.messageId).count i ≤ charges.count false) := by
  unfold prepare
  split
  · exact ⟨[], .idle uncharged (.refl _), nofun⟩
  dsimp only
  split
  · exact ⟨[], .idle uncharged (.refl _), nofun⟩
  rename_i turn' begun
  have hydrated : turn'.ids = turn.ids ∧ Wrote life.core i turn.world [] turn'.world := by
    split at begun
    · cases begun
      exact ⟨rfl, .refl _⟩
    · obtain ⟨⟨m, refreshed⟩, -, rfl⟩ := Option.map_eq_some_iff.1 begun
      refine ⟨?_, await_quiet member life.core _ m⟩
      split
      · exact ids_hydrated _ turn.members
      · rfl
  obtain ⟨ids, quiet⟩ := hydrated
  obtain ⟨charges, fixed, sub, allowed⟩ := fixOriginals_prepared (i := i) control turn' life
  have prepared : Prepared life.core control i turn (life.fixOriginals control turn').2 charges :=
    ⟨quiet.after fixed.wrote, ids ▸ fixed.once, fixed.charged, fixed.control⟩
  split
  · exact ⟨charges, prepared, nofun⟩
  refine ⟨charges, prepared, fun originals done => ?_⟩
  cases done
  exact ⟨ids ▸ sub.map messageId, allowed⟩

/-- What an execution asks, by its course: a control's charges, then the settlements. -/
theorem execute_wrote (life : Lifecycle ρ) (originals : List (Candidate I)) :
    ∃ charges : List Bool, Wrote life.core i turn.world
          (charges.map .charge ++
            (((round.execution.map Prod.snd).getD .cancelled).settlement.elim [] fun status =>
              List.replicate ((originals.map Candidate.messageId).count i) status).map .settle)
          (life.execute batch control round originals turn).2.1.world ∧
        (life.execute batch control round originals turn).2.1.charged = turn.charged ∧
        (life.execute batch control round originals turn).2.2 =
          !((round.execution.map Prod.snd).getD .cancelled).keepsCharges ∧
        charges.length = if control = true ∧
            ((round.execution.map Prod.snd).getD .cancelled).recordsFailure = true then
          (originals.map Candidate.messageId).count i else 0 := by
  unfold execute
  cases answered : round.execution with
  | none => exact ⟨[], .refl _, rfl, rfl, by simp [Course.recordsFailure]⟩
  | some answer =>
    obtain ⟨m, course⟩ := answer
    have awaited := await_quiet member life.core turn.world m
    cases course with
    | declined | refused | roomStopped
    | cancelled => exact ⟨[], awaited, rfl, rfl, by simp [Course.recordsFailure]⟩
    | settled intent interrupted stopObserved failing =>
      -- a control's charges stand before the settlements, and the writes ask nothing
      have discards : (intent = none || interrupted) =
          !(Course.settled intent interrupted stopObserved failing).keepsCharges := by
        cases intent <;> simp [Course.keepsCharges]
      have settling := fun w => (life.recordSettlement_wrote (i := i) intent interrupted
        stopObserved failing (originals.map messageId) w).next
          (quiet_of_stays member (life.sendWrites_stays
            (fun j (mem : j ∈ originals.map messageId) => mem) round.allowed_any.writes _))
      by_cases charges : control = true ∧ (intent = some .failed ∨ (failing = true ∧ intent = none))
      · obtain ⟨charged, length, charging⟩ := life.chargeFailures_wrote (i := i)
          (originals.map messageId) (turn.world.await life.core batch m)
        refine ⟨charged, ?_, rfl, discards, ?_⟩
        · dsimp only
          rw [if_pos charges]
          exact awaited.after (charging.trans (settling _))
        · rw [length]
          exact (if_pos ⟨charges.1, by simpa [Course.recordsFailure] using charges.2⟩).symm
      · refine ⟨[], ?_, rfl, discards, ?_⟩
        · dsimp only
          rw [if_neg charges]
          exact awaited.after (settling _)
        · exact (if_neg (by simpa [Course.recordsFailure] using charges)).symm

open Statement

/-- **The charges of an attempt.** -/
theorem runClaimed_wrote (life : Lifecycle ρ) {turn : Turn I ρ} (uncharged : turn.charged = []) :
    ∃ s : Statement, Charged control turn.ids (life.attempted batch revision control round turn) i s ∧
        Wrote life.core i turn.world s.body
          (life.runClaimed batch revision control round turn).2.world := by
  have unattempted : ∀ w : World I ρ, Wrote life.core i turn.world [] w →
      ∃ s : Statement, Charged control turn.ids none i s ∧ Wrote life.core i turn.world s.body w :=
    fun w quiet =>
      ⟨{}, ⟨Nat.zero_le _, by simp, fun _ => rfl, rfl, nofun, fun _ => le_rfl⟩, quiet⟩
  unfold runClaimed attempted
  cases began : round.beginning with
  | none => exact unattempted _ (.refl _)
  | some answer =>
    obtain ⟨m, begun⟩ := answer
    have awaited := await_quiet member life.core turn.world m
    cases begun with
    | false => exact unattempted _ awaited
    | true =>
      obtain ⟨charges, prepared, fixed⟩ := prepare_prepared revision control round member life
        (show ({ turn with world := turn.world.await life.core batch m } : Turn I ρ).charged = []
          from uncharged)
      have wrote := awaited.after prepared.wrote
      -- an attempt given up discards what it charged within the budget
      have abandoned : ∀ turn' : Turn I ρ, turn'.charged.count i = charges.count false →
          Wrote life.core i turn.world (charges.map .charge) turn'.world →
          ∃ s : Statement, Charged control turn.ids none i s ∧ Wrote life.core i turn.world s.body
              (life.discardAttempts turn'.world turn'.charged) := by
        intro turn' charged wrote
        refine ⟨{ charges := charges, discards := charges.count false },
          ⟨prepared.once, ?_, fun control => by rw [prepared.control control]; rfl, rfl,
            nofun, fun _ => Nat.zero_le _⟩, ?_⟩
        · split
          · rename_i is_control
            rw [prepared.control (by simpa using is_control)]
            rfl
          · rfl
        · have discarding := wrote.trans (Wrote.foldl (fun r => Asks.discard r) turn'.charged
            turn'.world)
          rw [charged] at discarding
          simpa [body, discardAttempts] using discarding
      dsimp only
      rw [if_neg Bool.noConfusion]
      unfold executed
      rcases done : life.prepare batch revision control round
        { turn with world := turn.world.await life.core batch m } with ⟨outcome | originals, turn'⟩
      · rw [done] at prepared wrote
        exact abandoned turn' prepared.charged wrote
      · rw [done] at prepared wrote fixed
        obtain ⟨within, allowed⟩ := fixed originals rfl
        obtain ⟨⟨world, same, stays⟩, -, present_sub⟩ := life.admitOriginals_spec batch turn'.ids
          revision control turn' round.allowed_any originals
        have quiet := wrote.next (quiet_of_stays member stays)
        dsimp only
        rcases admitted : life.admitOriginals batch revision control round originals turn' with
          ⟨outcome | present, turn''⟩
        all_goals
          rw [admitted] at same present_sub
          have same : turn'' = { turn' with world := world } := same
          have kept : turn''.charged = turn'.charged := by rw [same]
          have quiet : Wrote life.core i turn.world (charges.map .charge) turn''.world := by rwa [same]
        · exact abandoned turn'' (kept ▸ prepared.charged) quiet
        have sub := (present_sub present rfl).1.map messageId
        obtain ⟨failures, executing, kept', discards, failed⟩ :=
          execute_wrote control round turn'' member life present
        have ended := quiet.trans executing
        refine ⟨_, Charged.of_phases prepared.once prepared.control (sub.trans within)
          (fun ordinary => (sub.count_le i).trans (allowed ordinary)) failed, ?_⟩
        cases keeps : ((round.execution.map Prod.snd).getD .cancelled).keepsCharges with
        | true =>
          rw [keeps] at discards
          simpa [body, discards] using ended
        | false =>
          rw [keeps] at discards
          have discarding := ended.trans (Wrote.foldl (fun r => Asks.discard r)
            (life.execute batch control round present turn'').2.1.charged _)
          rw [kept', kept, prepared.charged] at discarding
          simpa [body, discards, discardAttempts, kept', kept] using discarding

/-! ## One turn -/

/-- **One round.**  What it asks for a member is a balanced statement. -/
theorem runOnce_wrote (life : Lifecycle ρ) (members : List (Candidate I)) (w : World I ρ) :
    ∃ s : Statement, Balanced control (life.account batch revision control round members w) i s ∧
      Wrote life.core i w s.acts (life.runOnce batch revision control round members w).2.1.world := by
  have screened : Wrote life.core i w [] (life.screen batch w members round.screening).2 :=
    quiet_of_stays member (life.screen_stays batch members round.allowed_any.screening w)
  have idle : ∀ w' : World I ρ, Wrote life.core i w [] w' → ∃ s : Statement,
      Balanced control ({} : Account I) i s ∧ Wrote life.core i w s.acts w' :=
    fun w' quiet =>
      ⟨{}, ⟨rfl, fun _ => rfl, Nat.zero_le _, by simp, fun _ => rfl, rfl, nofun, fun _ => le_rfl⟩, quiet⟩
  unfold account runOnce
  rcases done : life.screen batch w members round.screening with ⟨outcome | runnable, w'⟩
  · rw [done] at screened
    exact idle w' screened
  · rw [done] at screened
    dsimp only
    split
    · exact idle w' screened
    have claimed := screened.after (life.claim_wrote (i := i) runnable w')
    cases acquired : (life.claim w' runnable).1 with
    | false =>
      refine ⟨{ claims := (life.claim w' runnable).2.1.count i },
        ⟨rfl, by simp [body], Nat.zero_le _, by simp, fun _ => rfl, rfl, nofun, fun _ => le_rfl⟩, ?_⟩
      rw [if_neg (by decide)]
      have released := claimed.trans (Wrote.foldl (fun r => Asks.release r)
        (life.claim w' runnable).2.1 (life.claim w' runnable).2.2)
      simpa [acts, body, releaseClaims] using released
    | true =>
      obtain ⟨s, charged, wrote⟩ := runClaimed_wrote revision control round member life
        (show ({ members := runnable, world := (life.claim w' runnable).2.2 } : Turn I ρ).charged
          = [] from rfl)
      refine ⟨{ s with claims := (life.claim w' runnable).2.1.count i },
        ⟨rfl, fun _ => claim_acquired acquired, charged.once, charged.discards,
          charged.failures, charged.settled, charged.within, charged.allowed⟩, ?_⟩
      rw [if_pos rfl]
      have released := (claimed.trans wrote).trans (Wrote.foldl (fun r => Asks.release r)
        (life.claim w' runnable).2.1 _)
      exact released

theorem runFrom_wrote (life : Lifecycle ρ) (rounds : List (Round I ρ))
    (current left : List (Candidate I)) (w : World I ρ) : ∃ statements : List Statement,
      List.Forall₂ (fun account s => Balanced control account i s)
          (life.accountsFrom batch revision control rounds current w) statements ∧
        Wrote life.core i w (statements.map Statement.acts).flatten
          (life.runFrom batch revision control rounds current left w).world := by
  induction rounds generalizing current left w with
  | nil => exact ⟨[], .nil, .refl w⟩
  | cons round rounds ih =>
    obtain ⟨s, balanced, wrote⟩ := runOnce_wrote revision control round member life current w
    have last : ([s].map acts).flatten = s.acts := by simp
    unfold accountsFrom runFrom
    dsimp only
    split
    · exact ⟨[s], .cons balanced .nil, last ▸ wrote⟩
    have asked := wrote.next (life.anyRunnable_quiet
      (life.runOnce batch revision control round current w).2.1.members _)
    split
    · obtain ⟨statements, later, wrote'⟩ := ih
        (life.runOnce batch revision control round current w).2.1.members
        ((life.runOnce batch revision control round current w).2.2 ++ left)
        (life.anyRunnable (life.runOnce batch revision control round current w).2.1.world
          (life.runOnce batch revision control round current w).2.1.members).2
      refine ⟨s :: statements, .cons balanced later, ?_⟩
      rw [map_cons, flatten_cons]
      exact asked.trans wrote'
    · exact ⟨[s], .cons balanced .nil, last ▸ asked⟩

end Attempt

/-- **Claims and charges are balanced.**  Whatever a turn meets, each round it starts
writes a balanced statement in the journal of each member, and the turn writes no more. -/
theorem accounts_balanced {life : Lifecycle ρ} {journal : ρ → List Act}
    (kept : life.core.Journaled journal) (members : List (Candidate I)) (revision : Nat)
    (control : Bool) (rounds : List (Round I ρ)) (w : World I ρ) :
    ∀ c ∈ members, ∃ statements : List Statement,
      List.Forall₂ (fun account s => Balanced control account c.messageId s)
          (life.accounts members revision control rounds w) statements ∧
        journal ((life.run members revision control rounds w).world.record c.messageId) =
          journal (w.record c.messageId) ++ (statements.map Statement.acts).flatten := by
  intro c mem
  obtain ⟨statements, balanced, wrote⟩ := runFrom_wrote revision control
    (mem_map_of_mem mem) life rounds members [] w
  exact ⟨statements, balanced, Trail.journaled kept wrote⟩

/-! ### Two turns over journals -/

/-- The ledger with a budget of one attempt. -/
def thriftyCore : Core LedgerEntry :=
  { ledgerCore with
    recordAttempt := fun r => ({ r with attempts := r.attempts + 1 }, decide (1 ≤ r.attempts)) }

def thrifty : Lifecycle (LedgerEntry × List Act) := { core := journaled thriftyCore, batching := false }

def freshWorld : World Nat (LedgerEntry × List Act) :=
  { registry := { ids := [], record := fun _ => ({}, []) }, host := {} }

def undisturbed : Meanwhile Nat (LedgerEntry × List Act) := { host := {} }

/-- A round whose single original executes, and whose write is acknowledged. -/
def executing (course : Course) : Round Nat (LedgerEntry × List Act) where
  beginning := some (undisturbed, true)
  confirmations := [{ meanwhile := undisturbed }]
  preparation := some undisturbed
  execution := some (undisturbed, course)
  writes := [{ meanwhile := undisturbed }]

/-- A cancelled attempt gives its charge and its claim back. -/
theorem accounts_balanced_cancelled :
    (thrifty.run [Candidate.listed { id := 7, insertedAt := 1 }] 0 false [executing .cancelled]
        freshWorld).world.record 7 = ({}, [.claim, .charge false, .discard, .release]) ∧
      ∃ statements : List Statement, List.Forall₂ (fun account s => Balanced false account 7 s)
            (thrifty.accounts [listed { id := 7, insertedAt := 1 }] 0 false
              [executing .cancelled] freshWorld) statements ∧
          ((thrifty.run [listed { id := 7, insertedAt := 1 }] 0 false
              [executing .cancelled] freshWorld).world.record 7).2 =
            [] ++ (statements.map Statement.acts).flatten :=
  ⟨by decide +kernel, accounts_balanced (journaled_spec thriftyCore)
    [listed { id := 7, insertedAt := 1 }] 0 false [executing .cancelled] freshWorld _
    mem_cons_self⟩

/-- **A charge over the budget stays.**  The first attempt fails and is retried; the
second is charged beyond the budget, executes nothing, and its charge is not discarded. -/
theorem exceeding_charge_stays :
    ((thrifty.run [Candidate.listed { id := 7, insertedAt := 1 }] 0 false
        [executing (.settled (some .failed) false false false), executing .cancelled]
        freshWorld).world.record 7).2 =
      [.claim, .charge false, .settle .failed, .release, .claim, .charge true, .release] ∧
    (thrifty.accounts [listed { id := 7, insertedAt := 1 }] 0 false
        [executing (.settled (some .failed) false false false), executing .cancelled]
        freshWorld).map Account.executed =
      [some ([7], .settled (some .failed) false false false), none] := by
  decide +kernel

end Lifecycle

end BandSdk.Scheduling

/-
# Scheduling.Budgets -- a turn ends within its members' retry budgets

The loop of `run` reads the eligibility of a list its own rounds narrow and hydrate,
and a round can return ADVANCED without having executed anything.  It goes on only
when a member is still runnable, though, and every round that leaves one has settled
an original: so some member has one execution less `remaining`, and no member ever
has more.

`Core.Budgeted` is what the retry tracker and the claim registry promise of the
budget; `Narrowed`, what the scheduler's batches keep between two rounds.
-/
import Mathlib
import BandSdk.Scheduling.Accounts
import BandSdk.Turns.Settlement

namespace BandSdk.Scheduling

open BandSdk.Turns List Option Candidate

variable {I ρ : Type} [DecidableEq I]

/-! ## What a budget promises -/

/-- The attempts counted once the turn asked for an act. -/
def counted (attempts : Nat) : Act → Nat
  | .charge _ => attempts + 1
  | .discard => attempts - 1
  | _ => attempts

/-- The retry budget: `attempts` are those counted for a delivery, and a `retired`
one has completed or failed for good, or owes no more than the write of it. -/
structure Core.Budgeted (core : Core ρ) (budget : Nat) (attempts : ρ → Nat) (retired : ρ → Bool) :
    Prop where
  positive : 0 < budget
  guarded : ∀ r facts, (core.guardedClaim r facts).1 = core.deliveryEligibility r facts
  exceeded : ∀ r facts, budget < attempts r → core.deliveryEligibility r facts ≠ .runnable
  final : ∀ r facts, retired r = true → core.deliveryEligibility r facts ≠ .runnable
  /-- A claim hides no failure. -/
  failure : ∀ r facts, core.deliveryEligibility r facts = .failed →
    core.deliveryEligibility (core.release r) facts ≠ .runnable
  recordAttempt : ∀ r, (core.recordAttempt r).2 = decide (budget < attempts r + 1)
  completed : ∀ r, retired (core.rememberCompleted r) = true
  processed : ∀ r, retired (core.recordProcessedSettlement r) = true
  /-- A failure is retried only while attempts are left. -/
  failed : ∀ retry r, retired (core.recordFailedSettlement retry r) = true ∨ attempts r < budget
  stays : ∀ {r acts r'}, Asks core r acts r' → retired r = true → retired r' = true
  counts : ∀ {r acts r'}, Asks core r acts r' →
    retired r' = true ∨ attempts r' = acts.foldl counted (attempts r)

/-- The executions of a delivery that can still fail. -/
def remaining (budget : Nat) (attempts : ρ → Nat) (retired : ρ → Bool) (r : ρ) : Nat :=
  if retired r then 0 else max 1 (budget - attempts r)

namespace Trail

variable {core : Core ρ} {budget : Nat} {attempts : ρ → Nat} {retired : ρ → Bool}
variable {r r' r'' : ρ} {acts : List Act}

section

variable (budgeted : core.Budgeted budget attempts retired) (trail : Trail core r acts r')
include budgeted trail

theorem retired_of (over_ : retired r = true) : retired r' = true := by
  induction trail with
  | refl => exact over_
  | tail _ asks ih => exact budgeted.stays asks ih

theorem counts :
    retired r' = true ∨ attempts r' = acts.foldl counted (attempts r) := by
  induction trail with
  | refl => exact .inr rfl
  | tail _ asks ih =>
    rcases ih with over_ | same
    · exact .inl (budgeted.stays asks over_)
    · rw [foldl_append, ← same]
      exact budgeted.counts asks

end

theorem split {first second : List Act} (trail : Trail core r (first ++ second) r'') :
    ∃ r', Trail core r first r' ∧ Trail core r' second r'' := by
  generalize whole : first ++ second = acts at trail
  induction trail generalizing second with
  | refl =>
    obtain ⟨rfl, rfl⟩ := append_eq_nil_iff.1 whole
    exact ⟨r, .refl r, .refl r⟩
  | @tail r₁ r₂ acts asked trail asks ih =>
    -- a request counts as one act at most, so a point of the acts is a point of the trail
    have short : asked = [] ∨ ∃ act, asked = [act] := by
      cases asks <;> simp
    rcases eq_nil_or_concat second with rfl | ⟨init, last, rfl⟩
    · rw [append_nil] at whole
      exact ⟨r₂, whole ▸ .tail trail asks, .refl r₂⟩
    · obtain rfl | ⟨act, rfl⟩ := short
      · rw [append_nil] at whole
        obtain ⟨r', before, behind⟩ := ih whole
        refine ⟨r', before, ?_⟩
        have step := behind.tail asks
        rwa [append_nil] at step
      · rw [concat_eq_append, ← append_assoc] at whole
        rw [concat_eq_append]
        obtain ⟨same, one⟩ := append_inj' whole rfl
        obtain ⟨r', before, behind⟩ := ih same
        refine ⟨r', before, ?_⟩
        have step := behind.tail asks
        rwa [← one] at step

/-- The request behind a single act. -/
theorem single {act : Act} (trail : Trail core r [act] r'') :
    ∃ r₁ r₂, Trail core r [] r₁ ∧ Asks core r₁ [act] r₂ ∧ Trail core r₂ [] r'' := by
  generalize whole : [act] = acts at trail
  induction trail with
  | refl => cases whole
  | @tail r₁ r₂ acts asked trail asks ih =>
    rcases acts with _ | ⟨first, rest⟩
    · rw [nil_append] at whole
      exact ⟨r₁, r₂, trail, whole ▸ asks, .refl r₂⟩
    · have none_ : rest = [] ∧ asked = [] := by
        rw [cons_append] at whole
        exact append_eq_nil_iff.1 (List.cons.inj whole).2.symm
      obtain ⟨rfl, rfl⟩ := none_
      obtain ⟨r₃, r₄, before, one, behind⟩ := ih (by simpa using whole)
      exact ⟨r₃, r₄, before, one, behind.tail asks⟩

section

variable (budgeted : core.Budgeted budget attempts retired)
include budgeted

theorem claimed (trail : Trail core r [.claim] r') : retired r = false ∧ attempts r ≤ budget := by
  obtain ⟨r₁, r₂, quiet, asks, -⟩ := trail.single
  cases asks with
  | claim runs =>
    rw [budgeted.guarded] at runs
    have live : retired r₁ = false := by
      by_contra over_
      exact budgeted.final _ _ (by simpa using over_) runs
    constructor
    · by_contra over_
      rw [quiet.retired_of budgeted (by simpa using over_)] at live
      cases live
    · rcases quiet.counts budgeted with over_ | same
      · rw [over_] at live
        cases live
      · by_contra more
        have same : attempts r₁ = attempts r := same
        exact budgeted.exceeded _ _ (by omega) runs

theorem processed (trail : Trail core r [.settle .processed] r') : retired r' = true := by
  obtain ⟨r₁, r₂, -, asks, quiet⟩ := trail.single
  cases asks
  exact quiet.retired_of budgeted (budgeted.processed _)

theorem failed (trail : Trail core r [.settle .failed] r') :
    retired r' = true ∨ retired r = false ∧ attempts r < budget := by
  obtain ⟨r₁, r₂, quiet, asks, later⟩ := trail.single
  have asked := asks
  cases asks with
  | failed retry =>
    rcases budgeted.failed retry r₁ with over_ | left
    · exact .inl (later.retired_of budgeted over_)
    rcases quiet.counts budgeted with over_ | same
    · exact .inl (later.retired_of budgeted (budgeted.stays asked over_))
    have same : attempts r₁ = attempts r := same
    cases live : retired r with
    | true => exact .inl (later.retired_of budgeted (budgeted.stays asked
        (quiet.retired_of budgeted live)))
    | false => exact .inr ⟨rfl, by omega⟩

end

end Trail

/-! ## What a round leaves of a budget -/

namespace Lifecycle

theorem foldl_counted_of_still {l : List Act} (still : ∀ act ∈ l, ∀ n, counted n act = n) (n : Nat) :
    l.foldl counted n = n := by
  induction l with
  | nil => rfl
  | cons act rest ih =>
    rw [foldl_cons, still act mem_cons_self]
    exact ih fun later mem => still later (mem_cons_of_mem _ mem)

theorem foldl_counted_charges (charges : List Bool) (n : Nat) :
    (charges.map Act.charge).foldl counted n = n + charges.length := by
  induction charges generalizing n with
  | nil => rfl
  | cons exceeded rest ih =>
    rw [map_cons, foldl_cons, ih, length_cons, counted]
    omega

theorem foldl_counted_discards (discards n : Nat) :
    (List.replicate discards Act.discard).foldl counted n = n - discards := by
  induction discards generalizing n with
  | zero => rfl
  | succ discards ih =>
    rw [replicate_succ, foldl_cons, ih, counted]
    omega

theorem Statement.counted_acts (s : Statement) (n : Nat) :
    s.acts.foldl counted n = n + s.charges.length - s.discards := by
  have claims : ∀ n, (List.replicate s.claims Act.claim).foldl counted n = n :=
    foldl_counted_of_still fun act mem => by simp [eq_of_mem_replicate mem, counted]
  have releases : ∀ n, (List.replicate s.claims Act.release).foldl counted n = n :=
    foldl_counted_of_still fun act mem => by simp [eq_of_mem_replicate mem, counted]
  have settles : ∀ n, (s.settled.map Act.settle).foldl counted n = n := by
    refine foldl_counted_of_still fun act mem n => ?_
    obtain ⟨status, -, rfl⟩ := mem_map.1 mem
    rfl
  simp only [Statement.acts, Statement.body, foldl_append, claims, releases, settles,
    foldl_counted_charges, foldl_counted_discards]

section Remaining

variable {core : Core ρ} {budget : Nat} {attempts : ρ → Nat} {retired : ρ → Bool}
variable {r r' : ρ} {s : Statement}

section

variable (budgeted : core.Budgeted budget attempts retired) (trail : Trail core r s.acts r')
include budgeted trail

/-- No round leaves a member more executions than it had. -/
theorem remaining_le (within : s.discards ≤ s.charges.length) :
    remaining budget attempts retired r' ≤ remaining budget attempts retired r := by
  unfold remaining
  cases over_ : retired r' with
  | true => exact Nat.zero_le _
  | false =>
    have live : retired r = false := by
      by_contra retired_
      rw [trail.retired_of budgeted (by simpa using retired_)] at over_
      cases over_
    have same := (trail.counts budgeted).resolve_left (by simp [over_])
    rw [s.counted_acts] at same
    rw [live, if_neg Bool.noConfusion, if_neg Bool.noConfusion]
    omega

/-- A round that claimed the delivery, and what is left of it then. -/
theorem remaining_pos (claims : s.claims = 1) :
    retired r = false ∧ ∃ r₁, Trail core r [Act.claim] r₁ ∧ Trail core r₁ (s.body ++ [Act.release]) r' := by
  have whole : s.acts = [Act.claim] ++ (s.body ++ [Act.release]) := by
    simp [Statement.acts, claims, replicate_one]
  rw [whole] at trail
  obtain ⟨r₁, first, later⟩ := trail.split
  exact ⟨(first.claimed budgeted).1, r₁, first, later⟩

theorem remaining_processed (claims : s.claims = 1) (settled : s.settled = [.processed]) :
    remaining budget attempts retired r' < remaining budget attempts retired r := by
  obtain ⟨live, r₁, -, later⟩ := remaining_pos budgeted trail claims
  have whole : s.body ++ [Act.release] = s.charges.map .charge ++
      ([Act.settle .processed] ++ (List.replicate s.discards Act.discard ++ [Act.release])) := by
    simp [Statement.body, settled]
  rw [whole] at later
  obtain ⟨r₂, -, later⟩ := later.split
  obtain ⟨r₃, settling, later⟩ := later.split
  have over_ := later.retired_of budgeted (settling.processed budgeted)
  rw [remaining, remaining, over_, live, if_pos rfl, if_neg Bool.noConfusion]
  omega

theorem remaining_failed (claims : s.claims = 1) (settled : s.settled = [.failed])
    (charged : s.charges.length = 1) (kept : s.discards = 0) :
    remaining budget attempts retired r' < remaining budget attempts retired r := by
  obtain ⟨live, r₁, claiming, later⟩ := remaining_pos budgeted trail claims
  unfold remaining
  rw [live, if_neg (show ¬ false = true by decide)]
  cases over_ : retired r' with
  | true =>
    rw [if_pos rfl]
    omega
  | false =>
    have unsettled : ∀ r₃, retired r₃ = true → ∀ acts, Trail core r₃ acts r' → False := by
      intro r₃ early acts rest
      rw [rest.retired_of budgeted early] at over_
      cases over_
    have whole : s.body ++ [Act.release] = s.charges.map .charge ++
        ([Act.settle .failed] ++ [Act.release]) := by
      simp [Statement.body, settled, kept]
    rw [whole] at later
    obtain ⟨r₂, charging, later⟩ := later.split
    obtain ⟨r₃, settling, later⟩ := later.split
    obtain ⟨-, left⟩ := (settling.failed budgeted).resolve_left fun early =>
      unsettled r₃ early _ later
    -- the failure was recorded on top of this round's charge
    have counted_ : attempts r₂ = attempts r + 1 := by
      have before := (claiming.trans charging).counts budgeted
      rcases before with early | same
      · exact absurd (settling.retired_of budgeted early) fun early => unsettled r₃ early _ later
      · rw [foldl_append, foldl_counted_charges, charged] at same
        exact same
    have ended := (trail.counts budgeted).resolve_left (by simp [over_])
    rw [s.counted_acts, charged, kept] at ended
    rw [if_neg Bool.noConfusion]
    omega

end

end Remaining

/-! ## Rounds that execute nothing -/

section Idle

variable {life : Lifecycle ρ} {batch touched : List I} {w w' : World I ρ}
variable {budget : Nat} {attempts : ρ → Nat} {retired : ρ → Bool}

/-- Without an await, a turn leaves the host and every other delivery as they are. -/
theorem still_of_moves (moves : Moves life.core (fun _ => False) batch touched w w') :
    w'.host = w.host ∧ ∀ i ∉ touched, w'.record i = w.record i := by
  induction moves with
  | refl => exact ⟨rfl, fun _ _ => rfl⟩
  | set i r mem _ ih =>
    refine ⟨ih.1, fun j outside => ?_⟩
    have other : j ≠ i := fun same => outside (same ▸ mem)
    rw [World.record_set, if_neg other]
    exact ih.2 j outside
  | await m none_ => exact none_.elim

/-- A member the rest of its round cannot make runnable. -/
def Spent (life : Lifecycle ρ) (budget : Nat) (attempts : ρ → Nat) (retired : ρ → Bool)
    (w : World I ρ) (c : Candidate I) : Prop :=
  retired (w.record c.messageId) = true ∨ life.eligibility w c = .failed ∨
    budget < attempts (w.record c.messageId)

theorem Spent.still {c : Candidate I} (spent : Spent life budget attempts retired w c)
    (moves : Moves life.core (fun _ => False) batch touched w w') (outside : c.messageId ∉ touched) :
    Spent life budget attempts retired w' c := by
  obtain ⟨host, record⟩ := still_of_moves moves
  unfold Spent eligibility
  rw [host, record _ outside]
  exact spent

variable {members : List (Candidate I)} {control : Bool} {round : Round I ρ} {turn : Turn I ρ} {revision : Nat}

section

variable (budgeted : life.core.Budgeted budget attempts retired)
include budgeted

theorem owedTurn_spent (distinct : (members.map Candidate.messageId).Nodup)
    (w : World I ρ) : ∀ c ∈ members, c ∉ (life.owedTurn w members).1 →
      Spent life budget attempts retired (life.owedTurn w members).2 c := by
  induction members generalizing w with
  | nil => simp
  | cons c rest ih =>
    rw [map_cons, nodup_cons] at distinct
    have moves : Moves life.core (fun _ => False) [] (rest.map messageId)
        (life.judge w c).2 (life.owedTurn (life.judge w c).2 rest).2 :=
      (life.owedTurn_spec _ [] _ fun d mem => mem_map_of_mem mem).1.moves
    intro d mem left
    unfold owedTurn at left ⊢
    dsimp only at left ⊢
    rcases mem_cons.1 mem with rfl | mem
    · have settled : (life.judge w d).1 = .completed ∨ (life.judge w d).1 = .failed := by
        by_contra live
        rw [if_neg live] at left
        exact left mem_cons_self
      refine Spent.still ?_ moves distinct.1
      rcases settled with done | failed
      · left
        have done : life.eligibility w d = .completed := done
        simp [judge, done, World.update, budgeted.completed]
      · right
        left
        have failed : life.eligibility w d = .failed := failed
        simp [judge, failed]
    · refine ih distinct.2 _ d mem fun kept => left ?_
      split
      · exact kept
      · exact mem_cons_of_mem _ kept

theorem chargeAttempts_spent (distinct : (members.map Candidate.messageId).Nodup)
    (w : World I ρ) : ∀ c ∈ members, c ∉ (life.chargeAttempts w members).1 →
      Spent life budget attempts retired (life.chargeAttempts w members).2 c := by
  induction members generalizing w with
  | nil => simp
  | cons c rest ih =>
    rw [map_cons, nodup_cons] at distinct
    let charged := w.set c.messageId (life.core.recordAttempt (w.record c.messageId)).1
    have moves : Moves life.core (fun _ => False) [] (rest.map messageId)
        charged (life.chargeAttempts charged rest).2 :=
      (life.chargeAttempts_spec _ [] _ fun d mem => mem_map_of_mem mem).1
    intro d mem left
    unfold chargeAttempts at left ⊢
    dsimp only at left ⊢
    rcases mem_cons.1 mem with rfl | mem
    · have exceeds : (life.core.recordAttempt (w.record d.messageId)).2 = true := by
        by_contra within
        rw [if_neg within] at left
        exact left mem_cons_self
      refine Spent.still ?_ moves distinct.1
      have more : budget < attempts (w.record d.messageId) + 1 := by
        simpa [budgeted.recordAttempt] using exceeds
      unfold Spent
      rw [World.record_set, if_pos rfl]
      rcases budgeted.counts (Asks.charge (w.record d.messageId)) with over_ | same
      · exact .inl over_
      have same : attempts (life.core.recordAttempt (w.record d.messageId)).1 =
          attempts (w.record d.messageId) + 1 := same
      exact .inr (.inr (by omega))
    · refine ih distinct.2 _ d mem fun kept => left ?_
      split
      · exact kept
      · exact mem_cons_of_mem _ kept

/-- An attempt with no original left has no member that can run. -/
theorem fixOriginals_spent (distinct : turn.ids.Nodup) (none_ : (life.fixOriginals control turn).1 = []) :
    (life.fixOriginals control turn).2.members = turn.members ∧
      (life.fixOriginals control turn).2.charged = [] ∧
      ∀ c ∈ turn.members, Spent life budget attempts retired (life.fixOriginals control turn).2.world c := by
  have owed := owedTurn_spent budgeted distinct turn.world
  unfold fixOriginals at none_ ⊢
  cases control with
  | true =>
    have none_ : (life.owedTurn turn.world turn.members).1 = [] := none_
    exact ⟨rfl, rfl, fun c mem => owed c mem (by simp [none_])⟩
  | false =>
    have none_ : (life.chargeAttempts (life.owedTurn turn.world turn.members).2
        (life.owedTurn turn.world turn.members).1).1 = [] := none_
    refine ⟨rfl, ?_, fun c mem => ?_⟩
    · dsimp only
      rw [if_neg Bool.noConfusion]
      rw [none_]
      rfl
    · have sub := (life.owedTurn_spec (fun _ => True) [] turn.world fun c mem => mem_ids turn mem).2
      by_cases kept : c ∈ (life.owedTurn turn.world turn.members).1
      · exact chargeAttempts_spent budgeted (distinct.sublist (sub.map _)) _ c kept
          (by simp [none_])
      · have moves : Moves life.core (fun _ => False) []
            ((life.owedTurn turn.world turn.members).1.map messageId)
            (life.owedTurn turn.world turn.members).2
            (life.chargeAttempts (life.owedTurn turn.world turn.members).2
              (life.owedTurn turn.world turn.members).1).2 :=
          (life.chargeAttempts_spec _ [] _ fun d mem => mem_map_of_mem mem).1
        refine (owed c mem kept).still moves fun here => ?_
        obtain ⟨d, owed, same⟩ := mem_map.1 here
        exact kept (inj_on_of_nodup_map distinct (sub.subset owed) mem same ▸ owed)

theorem prepare_advanced {turn turn' : Turn I ρ} (distinct : turn.ids.Nodup)
    (ended : life.prepare batch revision control round turn = (.error (some .advanced), turn')) :
    turn'.charged = [] ∧ ∀ c ∈ turn'.members, Spent life budget attempts retired turn'.world c := by
  unfold prepare at ended
  split at ended
  · simp only [Prod.mk.injEq, Except.error.injEq] at ended
    exact absurd (Option.some.inj ended.1) (unadmitted_ne _).1
  · dsimp only at ended
    split at ended
    · cases ended
    rename_i begun hydrated
    have ids : begun.ids = turn.ids := by
      split at hydrated
      · cases hydrated
        rfl
      · obtain ⟨⟨m, refreshed⟩, -, rfl⟩ := map_eq_some_iff.1 hydrated
        split
        · exact ids_hydrated _ turn.members
        · rfl
    split at ended
    · rename_i none_
      obtain ⟨members, charged, spent⟩ := fixOriginals_spent budgeted (ids ▸ distinct) none_
      cases ended
      exact ⟨charged, members ▸ spent⟩
    · cases ended

end

theorem execute_advanced {originals : List (Candidate I)}
    (advanced : (life.execute batch control round originals turn).1 = some .advanced) :
    ∃ status interrupted stopObserved failing, (round.execution.map Prod.snd).getD .cancelled =
      .settled (some status) interrupted stopObserved failing := by
  unfold execute at advanced
  cases answered : round.execution with
  | none =>
    rw [answered] at advanced
    cases advanced
  | some answer =>
    obtain ⟨m, course⟩ := answer
    rw [answered] at advanced
    cases course with
    | declined | refused | roomStopped | cancelled => cases advanced
    | settled intent interrupted stopObserved failing =>
      cases intent with
      | some status => exact ⟨status, interrupted, stopObserved, failing, rfl⟩
      | none =>
        have unsettled : ∀ (returned : Bool) (ids : List I) (w : World I ρ),
            (if returned then some (life.settledOutcome none stopObserved ids w) else none) ≠
              some .advanced := by
          intro returned ids w
          cases returned <;> cases stopObserved <;> nofun
        exact absurd advanced (unsettled _ _ _)

/-- An attempt ends ADVANCED when it settled its originals, or had none to execute. -/
theorem runClaimed_advanced (budgeted : life.core.Budgeted budget attempts retired) (distinct : turn.ids.Nodup)
    (advanced : (life.runClaimed batch revision control round turn).1 = some .advanced) :
    (∃ originals status interrupted stopObserved failing, originals ≠ [] ∧
      life.attempted batch revision control round turn =
        some (originals, .settled (some status) interrupted stopObserved failing)) ∨
      ∀ c ∈ (life.runClaimed batch revision control round turn).2.members, Spent life budget attempts retired
          (life.runClaimed batch revision control round turn).2.world c := by
  unfold runClaimed attempted at *
  cases began : round.beginning with
  | none =>
    rw [began] at advanced
    cases advanced
  | some answer =>
    obtain ⟨m, begun⟩ := answer
    rw [began] at advanced
    cases begun with
    | false => exact absurd (Option.some.inj advanced) (unadmitted_ne _).1
    | true =>
      dsimp only at advanced ⊢
      rw [if_neg Bool.noConfusion] at advanced ⊢
      unfold executed
      have distinct : ({ turn with world := turn.world.await life.core batch m } : Turn I ρ).ids.Nodup :=
        distinct
      rcases prepared : life.prepare batch revision control round
        { turn with world := turn.world.await life.core batch m } with ⟨outcome | originals, turn'⟩
      · rw [prepared] at advanced
        have advanced : outcome = some .advanced := advanced
        subst advanced
        obtain ⟨none_, spent⟩ := prepare_advanced budgeted distinct prepared
        right
        dsimp only
        rw [none_]
        exact spent
      · rw [prepared] at advanced
        dsimp only at advanced ⊢
        obtain ⟨-, going, some_⟩ := life.admitOriginals_spec batch [] revision control turn'
          round.allowed_any originals
        rcases admitted : life.admitOriginals batch revision control round originals turn' with
          ⟨outcome | present, turn''⟩
        · rw [admitted] at advanced going
          have advanced : outcome = some .advanced := advanced
          exact absurd (congrArg Except.error advanced) going
        · rw [admitted] at advanced some_
          have ended : (life.execute batch control round present turn'').1 = some .advanced := by
            dsimp only at advanced
            split at advanced <;> exact advanced
          obtain ⟨status, interrupted, stopObserved, failing, course⟩ := execute_advanced ended
          left
          refine ⟨present.map messageId, status, interrupted, stopObserved, failing, ?_, ?_⟩
          · exact fun none_ => (some_ present rfl).2 (map_eq_nil_iff.1 none_)
          · dsimp only
            rw [course]

theorem record_releaseClaims {held : List I} (distinct : held.Nodup) (w : World I ρ) (i : I) :
    (life.releaseClaims w held).record i =
      if i ∈ held then life.core.release (w.record i) else w.record i := by
  induction held generalizing w with
  | nil => rfl
  | cons j rest ih =>
    obtain ⟨fresh, distinct⟩ := nodup_cons.1 distinct
    have step : life.releaseClaims w (j :: rest) = life.releaseClaims (w.update j life.core.release) rest := rfl
    rw [step, ih distinct]
    rcases eq_or_ne i j with rfl | other
    · rw [if_neg fresh, if_pos mem_cons_self]
      simp [World.update]
    · rw [World.record_update_of_ne other]
      simp [other]

theorem host_releaseClaims (held : List I) (w : World I ρ) : (life.releaseClaims w held).host = w.host := by
  induction held generalizing w with
  | nil => rfl
  | cons j rest ih => exact ih (w.update j life.core.release)

theorem Spent.released (budgeted : life.core.Budgeted budget attempts retired) {c : Candidate I}
    (spent : Spent life budget attempts retired w c) {held : List I} (distinct : held.Nodup) :
    life.eligibility (life.releaseClaims w held) c ≠ .runnable := by
  unfold eligibility
  rw [record_releaseClaims distinct, host_releaseClaims]
  rcases spent with over_ | failed | more
  · split
    · exact budgeted.final _ _ (budgeted.stays (.release _) over_)
    · exact budgeted.final _ _ over_
  · have failed : life.core.deliveryEligibility (w.record c.messageId) (life.facts w.host c) = .failed := failed
    split
    · exact budgeted.failure _ _ failed
    · rw [failed]
      nofun
  · split
    · rcases budgeted.counts (Asks.release (w.record c.messageId)) with over_ | same
      · exact budgeted.final _ _ over_
      have same : attempts (life.core.release (w.record c.messageId)) =
          attempts (w.record c.messageId) := same
      exact budgeted.exceeded _ _ (by omega)
    · exact budgeted.exceeded _ _ more

/-- **What an ADVANCED round did.**  It settled originals it executed, or left no member
that can run. -/
theorem runOnce_advanced (lawful : life.core.Lawful)
    (budgeted : life.core.Budgeted budget attempts retired) (distinct : (members.map Candidate.messageId).Nodup)
    (own : ∀ c ∈ members, c.messageId ∈ batch)
    (seen : (∀ c ∈ members, c.observed.isSome = true) ∨ members.length ≤ 1)
    (advanced : (life.runOnce batch revision control round members w).1 = some .advanced) :
    (∃ originals status interrupted stopObserved failing, originals ≠ [] ∧
      (life.account batch revision control round members w).executed =
        some (originals, .settled (some status) interrupted stopObserved failing)) ∨
      ∀ c ∈ (life.runOnce batch revision control round members w).2.1.members,
        life.eligibility (life.runOnce batch revision control round members w).2.1.world c ≠
          .runnable := by
  have screening := screen_ne (by decide : TurnOutcome.advanced ≠ .retryLater) life batch members round.screening w
  unfold runOnce account at *
  rcases done : life.screen batch w members round.screening with ⟨outcome | runnable, w'⟩
  · rw [done] at advanced screening
    have advanced : outcome = some .advanced := advanced
    exact absurd (congrArg Except.error advanced) screening
  · rw [done] at advanced
    have ok : (life.screen batch w members round.screening).1 = .ok runnable := by rw [done]
    dsimp only at advanced ⊢
    by_cases none_ : runnable = []
    · right
      rw [if_pos none_]
      subst none_
      have idle : ∀ c ∈ members,
          life.eligibility (life.screen batch w members round.screening).2 c ≠ .runnable := by
        rcases seen with observed | short
        · exact fun c mem => screen_not_runnable lawful distinct observed own ok c mem nofun
        rcases members with _ | ⟨c, _ | ⟨d, rest⟩⟩
        · nofun
        · intro d mem
          obtain rfl := mem_singleton.1 mem
          unfold screen at ok ⊢
          rcases screened : life.screenMember batch w d round.screening with
            ⟨outcome | runs, answers, w''⟩
          · rw [screened] at ok
            cases ok
          · rw [screened] at ok
            have stays : runs = false := by
              cases runs with
              | false => rfl
              | true => cases ok
            subst stays
            have := screenMember_not_runnable lawful
              (show (life.screenMember batch w d round.screening).1 = .ok false by rw [screened])
            rw [screened] at this
            exact this
        · simp at short
      rw [done] at idle
      exact idle
    · simp only [if_neg none_] at advanced ⊢
      have within := (screen_sublist ok).map messageId
      cases acquired : (life.claim w' runnable).1 with
      | false =>
        rw [acquired] at advanced
        cases advanced
      | true =>
        simp only [acquired, if_true] at advanced ⊢
        have ids : ({ members := runnable, world := (life.claim w' runnable).2.2 } : Turn I ρ).ids.Nodup :=
          distinct.sublist within
        rcases runClaimed_advanced budgeted ids advanced with
          ⟨originals, status, interrupted, stopObserved, failing, some_, settled⟩ | spent
        · exact .inl ⟨originals, status, interrupted, stopObserved, failing, some_, settled⟩
        right
        refine fun c mem => (spent c mem).released budgeted ?_
        rw [claim_acquired acquired]
        exact distinct.sublist within

/-- When no member can run, the check finds none. -/
theorem anyRunnable_of_idle (lawful : life.core.Lawful)
    (idle : ∀ c ∈ members, life.eligibility w c ≠ .runnable) :
    (life.anyRunnable w members).1 = false := by
  induction members generalizing w with
  | nil => rfl
  | cons c rest ih =>
    unfold anyRunnable
    dsimp only
    have here : (life.judge w c).1 ≠ .runnable := idle c mem_cons_self
    rw [if_neg here]
    refine ih fun d mem => ?_
    have before := idle d (mem_cons_of_mem _ mem)
    unfold judge
    split
    · unfold eligibility
      rw [World.host_update, World.update, World.record_set]
      split
      · exact (lawful.remembered _ _).1
      · exact before
    · exact before

end Idle

/-! ## The whole turn -/

/-- A scope settles with a terminal status, and an INTERRUPT never with a failure. -/
def Course.Sound : Course → Prop
  | .settled (some status) interrupted _ _ =>
    status = .processed ∨ status = .failed ∧ interrupted = false
  | _ => True

def Round.Sound (round : Round I ρ) : Prop :=
  ∀ m course, round.execution = some (m, course) → course.Sound

omit [DecidableEq I] in
/-- The round executed an original of `i`, with a FAILED outcome. -/
def Account.failed (i : I) (a : Account I) : Bool :=
  a.executed.any fun e => decide (i ∈ e.1) && decide (e.2.settlement = some .failed)

/-- The round executed originals and settled them. -/
def Account.settles (a : Account I) : Bool :=
  a.executed.any fun e => !e.1.isEmpty && e.2.settlement.isSome

section Run

variable {life : Lifecycle ρ} {batch : List I}
variable {budget : Nat} {attempts : ρ → Nat} {retired : ρ → Bool}

theorem account_offered (life : Lifecycle ρ) (batch : List I) (revision : Nat) (control : Bool)
    (round : Round I ρ) (members : List (Candidate I)) (w : World I ρ) :
    (life.account batch revision control round members w).offered.Sublist
      (members.map Candidate.messageId) := by
  unfold account
  rcases done : life.screen batch w members round.screening with ⟨outcome | runnable, w'⟩
  · exact nil_sublist _
  dsimp only
  split
  · exact nil_sublist _
  · exact (screen_sublist (by rw [done])).map messageId

variable {round : Round I ρ} {revision : Nat} {control : Bool} {w : World I ρ}

theorem account_course {members : List (Candidate I)} {originals : List I} {course : Course}
    (executed_ : (life.account batch revision control round members w).executed =
      some (originals, course)) : course = (round.execution.map Prod.snd).getD .cancelled := by
  have attempt : ∀ turn : Turn I ρ,
      life.attempted batch revision control round turn = some (originals, course) →
        course = (round.execution.map Prod.snd).getD .cancelled := by
    intro turn found
    unfold attempted at found
    split at found
    · unfold executed at found
      split at found
      · cases found
      split at found
      · cases found
      · exact (Prod.mk.inj (some.inj found)).2.symm
    · cases found
  unfold account at executed_
  split at executed_
  · cases executed_
  split at executed_
  · cases executed_
  dsimp only at executed_
  split at executed_
  · exact attempt _ executed_
  · cases executed_

omit [DecidableEq I] in
theorem Round.Sound.course (sound : round.Sound) : ((round.execution.map Prod.snd).getD .cancelled).Sound := by
  cases answered : round.execution with
  | none => trivial
  | some answer => exact sound answer.1 answer.2 answered

/-- What a round does to the executions left of a member. -/
structure Spends (budget : Nat) (attempts : ρ → Nat) (retired : ρ → Bool) (account : Account I)
    (i : I) (r r' : ρ) : Prop where
  le : remaining budget attempts retired r' ≤ remaining budget attempts retired r
  lt : account.executed.any (fun e => decide (i ∈ e.1) && e.2.settlement.isSome) = true →
    remaining budget attempts retired r' < remaining budget attempts retired r

theorem runOnce_spends (budgeted : life.core.Budgeted budget attempts retired) (sound : round.Sound)
    {members : List (Candidate I)}
    (distinct : (members.map Candidate.messageId).Nodup) {w w' : World I ρ} {i : I} (member : i ∈ batch)
    (later : Wrote life.core i (life.runOnce batch revision control round members w).2.1.world [] w') :
    Spends budget attempts retired (life.account batch revision control round members w) i
      (w.record i) (w'.record i) := by
  obtain ⟨s, balanced, wrote⟩ := runOnce_wrote revision control round member life members w
  have trail : Trail life.core (w.record i) s.acts (w'.record i) := wrote.next later
  have nodup := distinct.sublist (life.account_offered batch revision control round members w)
  have charged := balanced.charged
  refine ⟨remaining_le budgeted trail ?_, fun settles => ?_⟩
  · rw [charged.discards]
    split
    · exact Nat.zero_le _
    · exact count_le_length
  · cases done : (life.account batch revision control round members w).executed with
    | none =>
      rw [done] at settles
      cases settles
    | some e =>
      obtain ⟨originals, course⟩ := e
      rw [done] at settles charged
      have settles : i ∈ originals ∧ course.settlement.isSome = true := by simpa using settles
      obtain ⟨mine, settled⟩ := settles
      have within := charged.within (originals, course) rfl
      have one : originals.count i = 1 :=
        count_eq_one_of_mem (nodup.sublist within) mine
      have offered : (life.account batch revision control round members w).offered.count i = 1 :=
        count_eq_one_of_mem nodup (within.subset mine)
      have claims : s.claims = 1 := by
        rw [balanced.claims, balanced.whole (.inl (by rw [done]; rfl)), offered]
      obtain ⟨status, settlement⟩ := isSome_iff_exists.1 settled
      have wrote : s.settled = [status] := by
        have := charged.settled
        simpa [settlement, one] using this
      have once : s.charges.length ≤ 1 := offered ▸ charged.once
      have sound : course.Sound := account_course done ▸ sound.course
      rcases course with _ | _ | _ | _ | ⟨_ | final, interrupted, stopObserved, failing⟩
      all_goals try cases settlement
      rcases sound with rfl | ⟨rfl, rfl⟩
      · cases settlement
        exact remaining_processed budgeted trail claims wrote
      · cases settlement
        -- a failure keeps its charge, whether it was made before or after it
        refine remaining_failed budgeted trail claims wrote ?_ ?_
        · cases control with
          | true =>
            have := charged.failures rfl
            simpa [Course.recordsFailure, one] using this
          | false =>
            have allowed : originals.count i ≤ s.charges.count false := charged.allowed rfl
            have := count_le_length (a := false) (l := s.charges)
            omega
        · rw [charged.discards, if_pos (.inr rfl)]

/-- The executions left of a list of members. -/
def totalRemaining (budget : Nat) (attempts : ρ → Nat) (retired : ρ → Bool) (w : World I ρ)
    (ids : List I) : Nat :=
  (ids.map fun i => remaining budget attempts retired (w.record i)).sum

/-- A round that goes on settled an original, so that fewer executions are left. -/
theorem runOnce_goes_on (lawful : life.core.Lawful)
    (budgeted : life.core.Budgeted budget attempts retired) (sound : round.Sound) {current left : List (Candidate I)} (narrowed : Narrowed life batch w current left)
    (advanced : (life.runOnce batch revision control round current w).1 = some .advanced)
    (again : (life.anyRunnable (life.runOnce batch revision control round current w).2.1.world
      (life.runOnce batch revision control round current w).2.1.members).1 = true) :
    (life.account batch revision control round current w).settles = true ∧
      totalRemaining budget attempts retired
          (life.anyRunnable (life.runOnce batch revision control round current w).2.1.world
            (life.runOnce batch revision control round current w).2.1.members).2
          ((life.runOnce batch revision control round current w).2.1.members.map
            Candidate.messageId) <
        totalRemaining budget attempts retired w (current.map Candidate.messageId) := by
  have distinct := nodup_of_append narrowed.distinct
  have own : ∀ c ∈ current, c.messageId ∈ batch :=
    fun c mem => narrowed.own c (mem_append_left _ mem)
  have seen : (∀ c ∈ current, c.observed.isSome = true) ∨ current.length ≤ 1 :=
    narrowed.seen.imp (fun observed c mem => observed c (mem_append_left _ mem)) (·.1)
  rcases runOnce_advanced lawful budgeted distinct own seen advanced with
    ⟨originals, status, interrupted, stopObserved, failing, some_, settled⟩ | idle
  · have sound' : status = .processed ∨ status = .failed ∧ interrupted = false := by
      have : (Course.settled (some status) interrupted stopObserved failing).Sound :=
        account_course settled ▸ sound.course
      exact this
    have records : ((Course.settled (some status) interrupted stopObserved failing).settlement).isSome
        = true := by
      rcases sound' with rfl | ⟨rfl, -⟩ <;> rfl
    refine ⟨?_, ?_⟩
    · rw [Account.settles, settled]
      simpa [records] using some_
    · have spends : ∀ i ∈ batch, Spends budget attempts retired
          (life.account batch revision control round current w) i (w.record i)
          ((life.anyRunnable (life.runOnce batch revision control round current w).2.1.world
            (life.runOnce batch revision control round current w).2.1.members).2.record i) :=
        fun i mem => runOnce_spends budgeted sound distinct mem (anyRunnable_quiet _ _)
      have ids_own : ∀ i ∈ current.map messageId, i ∈ batch := by
        intro i mem
        obtain ⟨c, here, rfl⟩ := mem_map.1 mem
        exact own c here
      obtain ⟨i, mine⟩ := exists_mem_of_ne_nil _ some_
      have here : i ∈ current.map messageId := by
        rcases current with _ | ⟨c, rest⟩
        · simp [account, screen] at settled
        obtain ⟨s, balanced, -⟩ := runOnce_wrote revision control round
          (own c mem_cons_self) life (c :: rest) w
        exact (life.account_offered batch revision control round (c :: rest) w).subset
          ((balanced.charged.within _ settled).subset mine)
      have perm := (life.runOnce_spec batch round.allowed_any revision control distinct w).ids
      have fewer := sum_lt_sum (l := current.map messageId) _ _
        (fun j mem => (spends j (ids_own j mem)).le)
        ⟨i, here, (spends i (ids_own i here)).lt (by rw [settled]; simpa [records] using mine)⟩
      refine lt_of_le_of_lt ?_ fewer
      rw [← (perm.map _).sum_eq, map_append, map_append, sum_append]
      exact Nat.le_add_right _ _
  · rw [anyRunnable_of_idle lawful idle] at again
    cases again

/-- What a run, from where `current` is left of its batch, keeps within the budgets. -/
structure Bounded (budget : Nat) (attempts : ρ → Nat) (retired : ρ → Bool) (batch : List I)
    (w : World I ρ) (current : List (Candidate I)) (accounts : List (Account I)) : Prop where
  rounds : accounts.length ≤ totalRemaining budget attempts retired w (current.map Candidate.messageId) + 1
  failures : ∀ i ∈ batch, accounts.countP (·.failed i) ≤ remaining budget attempts retired (w.record i)
  settles : ∀ a ∈ accounts.dropLast, a.settles = true

theorem failed_settles {i : I} {a : Account I} (failed : a.failed i = true) :
    a.executed.any (fun e => decide (i ∈ e.1) && e.2.settlement.isSome) = true := by
  unfold Account.failed at failed
  rw [Option.any_eq_true] at failed ⊢
  obtain ⟨e, found, both⟩ := failed
  simp only [Bool.and_eq_true, decide_eq_true_eq] at both
  exact ⟨e, found, by simp [both.1, both.2]⟩

theorem Spends.count {account : Account I} {i : I} {r r' : ρ}
    (spends : Spends budget attempts retired account i r r') :
    remaining budget attempts retired r' + [account].countP (·.failed i) ≤
      remaining budget attempts retired r := by
  cases failed : account.failed i with
  | false => simpa [failed] using spends.le
  | true =>
    have fewer := spends.lt (failed_settles failed)
    rw [countP_singleton, if_pos failed]
    omega

/-- A round that went on, before the rest of the run. -/
theorem Bounded.cons {w w' : World I ρ} {current current' : List (Candidate I)} {account : Account I}
    {accounts : List (Account I)}
    (spends : ∀ i ∈ batch, Spends budget attempts retired account i (w.record i) (w'.record i))
    (settles : account.settles = true)
    (fewer : totalRemaining budget attempts retired w' (current'.map Candidate.messageId) <
      totalRemaining budget attempts retired w (current.map Candidate.messageId))
    (later : Bounded budget attempts retired batch w' current' accounts) :
    Bounded budget attempts retired batch w current (account :: accounts) where
  rounds := by
    have := later.rounds
    rw [length_cons]
    omega
  failures i mem := by
    have here := (spends i mem).count
    have rest := later.failures i mem
    rw [← singleton_append, countP_append]
    omega
  settles a mem := by
    cases accounts with
    | nil => cases mem
    | cons b rest =>
      rw [dropLast_cons_of_ne_nil (cons_ne_nil b rest)] at mem
      rcases mem_cons.1 mem with rfl | mem
      · exact settles
      · exact later.settles a mem

theorem runFrom_bounded (lawful : life.core.Lawful)
    (budgeted : life.core.Budgeted budget attempts retired) {rounds : List (Round I ρ)} (sound : ∀ round ∈ rounds, round.Sound)
    {current left : List (Candidate I)} (narrowed : Narrowed life batch w current left) :
    Bounded budget attempts retired batch w current
      (life.accountsFrom batch revision control rounds current w) := by
  induction rounds generalizing current left w with
  | nil => exact ⟨Nat.zero_le _, fun _ _ => Nat.zero_le _, nofun⟩
  | cons round rounds ih =>
    have distinct := nodup_of_append narrowed.distinct
    have sound_ := sound round mem_cons_self
    have last : ∀ w' : World I ρ, (∀ i ∈ batch, Spends budget attempts retired
        (life.account batch revision control round current w) i (w.record i) (w'.record i)) →
        Bounded budget attempts retired batch w current
          [life.account batch revision control round current w] := by
      refine fun w' spends => ⟨by simp, fun i mem => ?_, nofun⟩
      exact (Nat.le_add_left _ _).trans (spends i mem).count
    unfold accountsFrom
    dsimp only
    split
    · exact last (life.runOnce batch revision control round current w).2.1.world
        fun i mem => runOnce_spends budgeted sound_ distinct mem (.refl _)
    · rename_i advanced
      have spends : ∀ i ∈ batch, Spends budget attempts retired
          (life.account batch revision control round current w) i (w.record i)
          ((life.anyRunnable (life.runOnce batch revision control round current w).2.1.world
            (life.runOnce batch revision control round current w).2.1.members).2.record i) :=
        fun i mem => runOnce_spends budgeted sound_ distinct mem (anyRunnable_quiet _ _)
      split
      · rename_i again
        obtain ⟨settles, fewer⟩ := runOnce_goes_on lawful budgeted sound_ narrowed
          (not_not.1 advanced) again
        have spec := life.runOnce_spec batch round.allowed_any revision control distinct w
        have later := ih (fun r mem => sound r (mem_cons_of_mem _ mem))
          ((narrowed.round lawful spec).checked lawful)
        exact .cons spends settles fewer later
      · exact last _ spends

theorem accountsFrom_length_le (life : Lifecycle ρ) (batch : List I) (revision : Nat)
    (control : Bool) (rounds : List (Round I ρ)) (current : List (Candidate I)) (w : World I ρ) :
    (life.accountsFrom batch revision control rounds current w).length ≤ rounds.length := by
  induction rounds generalizing current w with
  | nil => exact le_rfl
  | cons round rounds ih =>
    unfold accountsFrom
    dsimp only
    rw [length_cons, length_cons]
    refine Nat.succ_le_succ ?_
    split
    · exact Nat.zero_le _
    split
    · exact ih _ _
    · exact Nat.zero_le _

/-- A run that started no more rounds than it was given asks for no further one. -/
theorem runFrom_append (life : Lifecycle ρ) (batch : List I) (revision : Nat) (control : Bool)
    (rounds more : List (Round I ρ)) (current left : List (Candidate I)) (w : World I ρ)
    (enough : (life.accountsFrom batch revision control (rounds ++ more) current w).length ≤ rounds.length) :
    life.runFrom batch revision control (rounds ++ more) current left w =
      life.runFrom batch revision control rounds current left w := by
  induction rounds generalizing current left w with
  | nil =>
    cases more with
    | nil => rfl
    | cons round more =>
      unfold accountsFrom at enough
      simp at enough
  | cons round rounds ih =>
    rw [cons_append] at enough ⊢
    unfold accountsFrom at enough
    unfold runFrom
    dsimp only at enough ⊢
    split
    · rfl
    rename_i advanced
    rw [if_neg advanced] at enough
    split
    · rename_i again
      rw [if_pos again, length_cons, length_cons] at enough
      exact ih _ _ _ (Nat.le_of_succ_le_succ enough)
    · rfl

end Run

/-- **A run terminates.**  It starts at most one round more than its members have
executions left, goes on only from a round that settled an original, and executes no
member with a FAILED outcome more often than the budget allows. -/
theorem run_terminates {life : Lifecycle ρ} {budget : Nat} {attempts : ρ → Nat}
    {retired : ρ → Bool} (lawful : life.core.Lawful)
    (budgeted : life.core.Budgeted budget attempts retired) {members : List (Candidate I)}
    (batch : Batch members) (revision : Nat) (control : Bool) (rounds : List (Round I ρ))
    (sound : ∀ round ∈ rounds, round.Sound) (w : World I ρ) :
    (life.accounts members revision control rounds w).length ≤ members.length * budget + 1 ∧
      (∀ enough, members.length * budget < enough → life.run members revision control rounds w =
          life.run members revision control (rounds.take enough) w) ∧
      (∀ a ∈ (life.accounts members revision control rounds w).dropLast, a.settles = true) ∧
      ∀ c ∈ members, (life.accounts members revision control rounds w).countP
        (·.failed c.messageId) ≤ budget := by
  have narrowed : Narrowed life (members.map messageId) w members [] := by
    refine ⟨by simpa using batch.distinct, fun c mem => ?_, ?_, nofun⟩
    · exact mem_map_of_mem (by simpa using mem)
    · rcases batch.listed with listed | short
      · exact .inl (by simpa using listed)
      · exact .inr ⟨short, rfl⟩
  have each : ∀ r, remaining budget attempts retired r ≤ budget := by
    intro r
    have := budgeted.positive
    unfold remaining
    split <;> omega
  have total : totalRemaining budget attempts retired w (members.map messageId) ≤ members.length * budget := by
    refine (sum_le_card_nsmul _ budget fun n mem => ?_).trans (by simp)
    obtain ⟨i, -, rfl⟩ := mem_map.1 mem
    exact each _
  have bounded : Bounded budget attempts retired (members.map messageId) w members
      (life.accounts members revision control rounds w) :=
    runFrom_bounded lawful budgeted sound narrowed
  have length : (life.accounts members revision control rounds w).length ≤
      members.length * budget + 1 := bounded.rounds.trans (Nat.add_le_add_right total 1)
  refine ⟨length, fun enough more => ?_, bounded.settles, fun c mem => ?_⟩
  · have parts := take_append_drop enough rounds
    have started : (life.accounts members revision control rounds w).length ≤ rounds.length :=
      life.accountsFrom_length_le _ revision control rounds members w
    have whole := life.runFrom_append (members.map messageId) revision control
      (rounds.take enough) (rounds.drop enough) members [] w
    rw [parts, length_take] at whole
    exact whole (le_min (length.trans more) started)
  · exact (bounded.failures _ (mem_map_of_mem mem)).trans (each _)

/-! ### A registry with a budget -/

/-- It has completed, or owes a write that leaves no retry. -/
def closed (r : LedgerEntry) : Bool := r.completed || r.pending.any fun pending => !pending.retry

def quotaEligibility (budget : Nat) (r : LedgerEntry) (facts : DeliveryFacts) : Eligibility :=
  if budget < r.attempts then .other else ledgerEligibility r facts

def quotaFailure (budget : Nat) (retry : Bool) (attempts : Nat) : PendingSettlement :=
  { status := .failed, token := 0, retry := retry && decide (attempts < budget) }

/-- The ledger with a retry budget: a failure is final once its attempts are used up. -/
def quotaCore (budget : Nat) : Core LedgerEntry :=
  { ledgerCore with
    deliveryEligibility := quotaEligibility budget
    guardedClaim := fun r facts => (quotaEligibility budget r facts,
      if quotaEligibility budget r facts = .runnable then { r with claimed := true } else r)
    recordAttempt := fun r =>
      ({ r with attempts := r.attempts + 1 }, decide (budget < r.attempts + 1))
    recordFailedSettlement := fun retry r =>
      if closed r then r else { r with pending := some (quotaFailure budget retry r.attempts) }
    confirmSettlement := fun _ r => { r with pending := none, completed := closed r } }

theorem quotaCore_lawful (budget : Nat) : (quotaCore budget).Lawful where
  remembered r facts := by
    show quotaEligibility budget (ledgerCore.rememberCompleted r) facts ≠ .runnable ∧
      quotaEligibility budget (ledgerCore.rememberCompleted r) facts ≠ .inflight
    unfold quotaEligibility
    split
    · exact ⟨nofun, nofun⟩
    · exact ledgerCore_lawful.remembered r facts
  unowed r := rfl
  unparked r facts runs := by
    change quotaEligibility budget (ledgerCore.unparkAck r) facts = .runnable at runs
    show quotaEligibility budget r facts = .runnable
    unfold quotaEligibility at runs ⊢
    split at runs
    · cases runs
    rename_i within
    have within : ¬ budget < r.attempts := within
    rw [if_neg within]
    exact ledgerCore_lawful.unparked r facts runs
  claimed r facts facts' inflight := by
    change quotaEligibility budget r facts = .inflight at inflight
    show quotaEligibility budget r facts' = .inflight ∨ quotaEligibility budget r facts' = .completed
    unfold quotaEligibility at inflight ⊢
    split at inflight
    · cases inflight
    rename_i within
    rw [if_neg within]
    exact ledgerCore_lawful.claimed r facts facts' inflight
  held r facts retry := by
    show quotaEligibility budget r facts ≠ .runnable
    unfold quotaEligibility
    split
    · nofun
    · exact ledgerCore_lawful.held r facts retry

theorem not_runnable_of_closed {r : LedgerEntry} (over_ : closed r = true) (facts : DeliveryFacts) :
    ledgerEligibility r facts ≠ .runnable := by
  have done : r.completed = true ∨ r.pending.isSome = true := by
    cases pending : r.pending with
    | none => exact .inl (by simpa [closed, pending] using over_)
    | some settlement => exact .inr rfl
  unfold ledgerEligibility
  rcases done with completed | pending
  · rw [if_pos (by simp [completed])]
    nofun
  · rw [if_pos pending]
    split <;> nofun

theorem quotaCore_budgeted {budget : Nat} (positive : 0 < budget) :
    (quotaCore budget).Budgeted budget LedgerEntry.attempts closed where
  positive := positive
  guarded r facts := rfl
  exceeded r facts more := by
    show quotaEligibility budget r facts ≠ .runnable
    rw [quotaEligibility, if_pos more]
    simp
  final r facts over_ := by
    show quotaEligibility budget r facts ≠ .runnable
    unfold quotaEligibility
    split
    · simp
    · exact not_runnable_of_closed over_ facts
  failure r facts failed := by
    have same : quotaEligibility budget (ledgerCore.release r) facts = .failed := by
      change quotaEligibility budget r facts = .failed at failed
      unfold quotaEligibility ledgerEligibility at failed ⊢
      simp only [ledgerCore] at failed ⊢
      repeat' split at failed
      all_goals simp_all
    show quotaEligibility budget (ledgerCore.release r) facts ≠ .runnable
    rw [same]
    simp
  recordAttempt r := rfl
  completed r := rfl
  processed r := by simp [quotaCore, ledgerCore, closed]
  failed retry r := by
    rcases Nat.lt_or_ge r.attempts budget with within | used
    · exact .inr within
    left
    show closed (if closed r then r
      else { r with pending := some (quotaFailure budget retry r.attempts) }) = true
    split
    · assumption
    · simp [closed, quotaFailure, Nat.not_lt.2 used]
  stays := by
    intro r acts r' asks over_
    have marked : ∀ (b : Bool), closed { r with pending := r.pending.map fun pending =>
        { pending with parked := b } } = true := by
      intro b
      cases pending : r.pending <;> simpa [closed, pending] using over_
    cases asks with
    | @claim _ facts | @refused _ facts =>
      show closed (if quotaEligibility budget r facts = .runnable then { r with claimed := true }
        else r) = true
      split <;> exact over_
    | release | charge | discard | ackRetry => exact over_
    | processed => simp [quotaCore, ledgerCore, closed]
    | failed retry =>
      show closed (if closed r then r else _) = true
      rw [if_pos over_]
      exact over_
    | remember => rfl
    | confirm token =>
      show (closed r || none.any _) = true
      simp [over_]
    | park token result => exact marked true
    | unpark => exact marked false
  counts := by
    intro r acts r' asks
    right
    cases asks with
    | @claim _ facts | @refused _ facts =>
      show (if quotaEligibility budget r facts = .runnable then { r with claimed := true }
        else r).attempts = r.attempts
      split <;> rfl
    | failed retry =>
      show (if closed r then r
        else { r with pending := some (quotaFailure budget retry r.attempts) }).attempts = r.attempts
      split <;> rfl
    | release | charge | discard | processed | remember | confirm | park | unpark | ackRetry => rfl

/-! ### A failure and its retry -/

def quotaLife : Lifecycle LedgerEntry := { core := quotaCore 2, batching := false }

def quotaWorld : World Nat LedgerEntry :=
  { registry := { ids := [], record := fun _ => {} }, host := {} }

/-- A round whose single original fails, and whose write is acknowledged. -/
def failingRound : Round Nat LedgerEntry where
  beginning := some ({ host := {} }, true)
  confirmations := [{ meanwhile := { host := {} } }]
  preparation := some { host := {} }
  execution := some ({ host := {} }, .settled (some .failed) false false false)
  writes := [{ meanwhile := { host := {} } }]

theorem failingRound_sound : failingRound.Sound := by
  intro m course executes
  cases executes
  exact .inr ⟨rfl, rfl⟩

/-- A message that always fails is executed twice, whatever rounds are left. -/
theorem run_terminates_failing :
    (quotaLife.accounts [Candidate.listed { id := 7, insertedAt := 1 }] 0 false
        (List.replicate 5 failingRound) quotaWorld).map (Account.failed 7) = [true, true] ∧
      (quotaLife.accounts [listed { id := 7, insertedAt := 1 }] 0 false
        (List.replicate 5 failingRound) quotaWorld).length ≤ 1 * 2 + 1 :=
  ⟨by decide +kernel,
    (run_terminates (quotaCore_lawful 2) (quotaCore_budgeted (by decide))
      ⟨by simp, .inr (by decide)⟩ 0 false (List.replicate 5 failingRound)
      (fun round mem => eq_of_mem_replicate mem ▸ failingRound_sound) quotaWorld).1⟩

end Lifecycle

end BandSdk.Scheduling

/-
# Scheduling.Batches -- what a turn does to the records of its batch

`Moves` says what a turn can do to its room: record something of a delivery it
may touch, or await.  Every phase of a turn touches only the members it still
has, so a member the turn dropped keeps its record, up to a reconnection that
unparks its write.  Hence the main result: when a turn returns ADVANCED, no
member of its batch is runnable, those dropped on the way included.
-/
import Mathlib
import BandSdk.Scheduling.Delivery

namespace BandSdk.Scheduling

open BandSdk.Turns List Candidate

variable {I ρ : Type} [DecidableEq I]

/-- What the room relies on of the core. -/
structure Core.Lawful (core : Core ρ) : Prop where
  /-- A remembered completion never runs again. -/
  remembered : ∀ r facts, core.deliveryEligibility (core.rememberCompleted r) facts ≠ .runnable ∧
    core.deliveryEligibility (core.rememberCompleted r) facts ≠ .inflight
  /-- Local completion releases the pending settlement. -/
  unowed : ∀ r, core.retryableSettlement (core.rememberCompleted r) = false
  /-- Unparking a write lets it be sent again, not its original run. -/
  unparked : ∀ r facts, core.deliveryEligibility (core.unparkAck r) facts = .runnable →
    core.deliveryEligibility r facts = .runnable
  /-- A message another owner is running holds the room's order until it lets go,
  whatever a read shows of it, unless it shows it processed. -/
  claimed : ∀ r facts facts', core.deliveryEligibility r facts = .inflight →
    core.deliveryEligibility r facts' = .inflight ∨ core.deliveryEligibility r facts' = .completed
  /-- An original held for a retry never runs again until its write confirms. -/
  held : ∀ r facts, (core.pendingSettlement r).any (·.retry) = true →
    core.deliveryEligibility r facts ≠ .runnable

/-! ### A registry with these laws -/

/-- One delivery's claim, attempts and settlement. -/
structure LedgerEntry where
  completed : Bool := false
  claimed : Bool := false
  attempts : Nat := 0
  pending : Option PendingSettlement := none
  deriving DecidableEq

def ledgerEligibility (r : LedgerEntry) (facts : DeliveryFacts) : Eligibility :=
  if r.completed || facts.durablyProcessed then .completed
  else if r.pending.isSome then .pending
  else if r.claimed then .inflight
  else if facts.selfEcho then .other
  else if facts.durablyFailed && !facts.allowFailedRetry then .failed
  else .runnable

def ledgerCore : Core LedgerEntry where
  deliveryEligibility := ledgerEligibility
  guardedClaim r facts :=
    (ledgerEligibility r facts,
      if ledgerEligibility r facts = .runnable then { r with claimed := true } else r)
  release r := { r with claimed := false }
  rememberCompleted r := { r with completed := true, pending := none }
  recordAttempt r := ({ r with attempts := r.attempts + 1 }, false)
  discardAttempt r := { r with attempts := r.attempts - 1 }
  recordProcessedSettlement r := { r with pending := some { status := .processed, token := 0 } }
  recordFailedSettlement retry r :=
    { r with pending := some { status := .failed, token := 0, retry := retry } }
  pendingSettlement r := r.pending
  confirmSettlement _ r :=
    { r with pending := none, completed := r.pending.any fun pending => !pending.retry }
  parkSettlement _ _ r :=
    { r with pending := r.pending.map fun pending => { pending with parked := true } }
  unparkAck r :=
    { r with pending := r.pending.map fun pending => { pending with parked := false } }
  recordAckRetry r := r
  retryableSettlement r := r.pending.any fun pending => !pending.parked

theorem ledgerCore_lawful : ledgerCore.Lawful where
  remembered r facts := by simp [ledgerCore, ledgerEligibility]
  unowed r := rfl
  unparked r facts := by simp [ledgerCore, ledgerEligibility]
  claimed r facts facts' inflight := by
    simp only [ledgerCore, ledgerEligibility] at inflight ⊢
    cases completed : r.completed <;> cases pending : r.pending <;> cases claimed : r.claimed <;>
      cases facts'.durablyProcessed <;> simp_all
    all_goals
      repeat' split at inflight
      all_goals cases inflight
  held r facts retry := by
    have some_ : r.pending.isSome = true := by
      cases pending : r.pending with
      | none => simp [ledgerCore, pending] at retry
      | some settlement => rfl
    simp only [ledgerCore, ledgerEligibility, some_]
    split <;> nofun

/-! ## The moves of a turn -/

/-- From `w` to `w'` by awaits and by records of deliveries in `touched`. -/
inductive Moves (core : Core ρ) (allowed : Meanwhile I ρ → Prop) (batch touched : List I) :
    World I ρ → World I ρ → Prop where
  | refl (w : World I ρ) : Moves core allowed batch touched w w
  | set {w w' : World I ρ} (i : I) (r : ρ) : i ∈ touched → Moves core allowed batch touched w w' →
      Moves core allowed batch touched w (w'.set i r)
  | await {w w' : World I ρ} (m : Meanwhile I ρ) : allowed m → Moves core allowed batch touched w w' →
      Moves core allowed batch touched w (w'.await core batch m)

namespace Moves

variable {core : Core ρ} {allowed : Meanwhile I ρ → Prop} {batch touched touched' : List I}
  {w w' w'' : World I ρ}

theorem trans (first : Moves core allowed batch touched w w')
    (second : Moves core allowed batch touched w' w'') : Moves core allowed batch touched w w'' := by
  induction second with
  | refl => exact first
  | set i r mem _ ih => exact .set i r mem ih
  | await m ok _ ih => exact .await m ok ih

theorem mono (moves : Moves core allowed batch touched w w') (more : ∀ i ∈ touched, i ∈ touched') :
    Moves core allowed batch touched' w w' := by
  induction moves with
  | refl => exact .refl w
  | set i r mem _ ih => exact .set i r (more i mem) ih
  | await m ok _ ih => exact .await m ok ih

theorem cons (i : I) (moves : Moves core allowed batch touched w w') :
    Moves core allowed batch (i :: touched) w w' :=
  moves.mono fun _ mem => mem_cons_of_mem _ mem

theorem update (i : I) (f : ρ → ρ) (mem : i ∈ touched) (moves : Moves core allowed batch touched w w') :
    Moves core allowed batch touched w (w'.update i f) := .set i _ mem moves

theorem foldl {f : World I ρ → I → World I ρ} (l : List I)
    (each : ∀ w, ∀ i ∈ l, Moves core allowed batch touched w (f w i)) (w : World I ρ) :
    Moves core allowed batch touched w (l.foldl f w) :=
  foldlRecOn (motive := Moves core allowed batch touched w) l f (.refl w)
    fun w' moves i mem => moves.trans (each w' i mem)

end Moves

/-- What a turn notes of a delivery it asks nothing of: what became of its settlement. -/
inductive Core.Notes (core : Core ρ) (r : ρ) : ρ → Prop where
  | remember : core.Notes r (core.rememberCompleted r)
  | confirm (token : Nat) : core.Notes r (core.confirmSettlement token r)
  | park (token : Nat) (result : SettlementResult) : core.Notes r (core.parkSettlement token result r)
  | ackRetry : core.Notes r (core.recordAckRetry r)

/-- Moves that note, and ask nothing. -/
inductive Stays (core : Core ρ) (allowed : Meanwhile I ρ → Prop) (batch touched : List I) :
    World I ρ → World I ρ → Prop where
  | refl (w : World I ρ) : Stays core allowed batch touched w w
  | note {w w' : World I ρ} (i : I) {r : ρ} : i ∈ touched → core.Notes (w'.record i) r →
      Stays core allowed batch touched w w' → Stays core allowed batch touched w (w'.set i r)
  | await {w w' : World I ρ} (m : Meanwhile I ρ) : allowed m → Stays core allowed batch touched w w' →
      Stays core allowed batch touched w (w'.await core batch m)

namespace Stays

variable {core : Core ρ} {allowed : Meanwhile I ρ → Prop} {batch touched touched' : List I}
  {w w' w'' : World I ρ}

theorem moves (stays : Stays core allowed batch touched w w') : Moves core allowed batch touched w w' := by
  induction stays with
  | refl => exact .refl w
  | note i mem _ _ ih => exact .set i _ mem ih
  | await m ok _ ih => exact .await m ok ih

theorem trans (first : Stays core allowed batch touched w w')
    (second : Stays core allowed batch touched w' w'') : Stays core allowed batch touched w w'' := by
  induction second with
  | refl => exact first
  | note i mem notes _ ih => exact .note i mem notes ih
  | await m ok _ ih => exact .await m ok ih

theorem mono (stays : Stays core allowed batch touched w w') (more : ∀ i ∈ touched, i ∈ touched') :
    Stays core allowed batch touched' w w' := by
  induction stays with
  | refl => exact .refl w
  | note i mem notes _ ih => exact .note i (more i mem) notes ih
  | await m ok _ ih => exact .await m ok ih

theorem cons (i : I) (stays : Stays core allowed batch touched w w') :
    Stays core allowed batch (i :: touched) w w' :=
  stays.mono fun _ mem => mem_cons_of_mem _ mem

end Stays

variable (w : World I ρ)

@[simp] theorem World.record_set (i j : I) (r : ρ) :
    (w.set i r).record j = if j = i then r else w.record j := rfl

@[simp] theorem World.host_set (i : I) (r : ρ) : (w.set i r).host = w.host := rfl

@[simp] theorem World.host_update (i : I) (f : ρ → ρ) :
    (w.update i f).host = w.host := rfl

theorem World.record_update_of_ne {w : World I ρ} {i j : I} (other : j ≠ i) (f : ρ → ρ) :
    (w.update i f).record j = w.record j := by
  simp [World.update, other]

/-- No other owner records anything of a member. -/
theorem record_await_of_mem (core : Core ρ) {batch : List I} (w : World I ρ) (m : Meanwhile I ρ)
    {i : I} (mem : i ∈ batch) : (w.await core batch m).record i = w.record i ∨
      (w.await core batch m).record i = core.unparkAck (w.record i) := by
  have kept : ∀ (others : List (I × ρ)) (registry : Registry I ρ),
      (others.foldl (fun registry entry =>
        if entry.1 ∈ batch then registry else registry.set entry.1 entry.2) registry).record i =
      registry.record i := by
    intro others
    induction others with
    | nil => exact fun _ => rfl
    | cons entry others ih =>
      intro registry
      rw [foldl_cons, ih]
      split
      · rfl
      rename_i outside
      have other : i ≠ entry.1 := fun same => outside (same ▸ mem)
      simp [Registry.set, other]
  simp only [World.await, World.record, kept]
  split
  · exact .inr rfl
  · exact .inl rfl

namespace Lifecycle

variable {life : Lifecycle ρ} {allowed : Meanwhile I ρ → Prop} {batch touched : List I}
  {w w' : World I ρ}

omit [DecidableEq I] in
/-- What a read observed of a candidate is not looked up again. -/
theorem facts_of_observed {c : Candidate I} (observed : c.observed.isSome = true)
    (host host' : Host I) : life.facts host c = life.facts host' c := by
  obtain ⟨status, some_⟩ := Option.isSome_iff_exists.1 observed
  simp [facts, some_]

/-- **Frame.**  A member outside what a turn touches does not become runnable. -/
theorem not_runnable_of_moves (lawful : life.core.Lawful) {c : Candidate I}
    (moves : Moves life.core allowed batch touched w w') (member : c.messageId ∈ batch)
    (outside : c.messageId ∉ touched) (observed : c.observed.isSome = true)
    (idle : life.eligibility w c ≠ .runnable) : life.eligibility w' c ≠ .runnable := by
  induction moves with
  | refl => exact idle
  | @set w₁ i r mem _ ih =>
    have other : c.messageId ≠ i := fun same => outside (same ▸ mem)
    simpa [eligibility, other] using ih
  | @await w₁ m _ _ ih =>
    intro runs
    apply ih
    unfold eligibility at runs ⊢
    rw [facts_of_observed observed _ w₁.host] at runs
    rcases record_await_of_mem life.core w₁ m member with same | unparked
    · rwa [same] at runs
    · rw [unparked] at runs
      exact lawful.unparked _ _ runs

/-! ## Each phase moves within its members -/

section Phases

variable (life)

theorem judge_stays {c : Candidate I} (mem : c.messageId ∈ touched) :
    Stays life.core allowed batch touched w (life.judge w c).2 := by
  unfold judge
  split
  · exact .note _ mem .remember (.refl w)
  · exact .refl w

theorem judge_host (w : World I ρ) (c : Candidate I) : (life.judge w c).2.host = w.host := by
  unfold judge
  split <;> rfl

theorem writeSettlement_stays {i : I} (mem : i ∈ touched) {answer : Write I ρ} (ok : allowed answer.meanwhile) :
    Stays life.core allowed batch touched w (life.writeSettlement batch i answer w).2 := by
  unfold writeSettlement
  cases life.core.pendingSettlement (w.record i) with
  | none => exact .refl w
  | some pending =>
    have awaited : Stays life.core allowed batch touched w
        (w.await life.core batch answer.meanwhile) := .await _ ok (.refl w)
    dsimp only
    split
    · exact awaited
    cases answer.result with
    | accepted => exact .note _ mem (.confirm _) awaited
    | rejected => exact .note _ mem (.park _ _) awaited
    | unconfirmed => exact awaited
    | notFound =>
      dsimp only
      split
      · exact .note _ mem .remember awaited
      · exact .note _ mem (.park _ _) awaited

theorem retrySettlement_stays (batch : List I) (w : World I ρ) {i : I} (mem : i ∈ touched)
    {answers : List (Write I ρ)} (ok : ∀ answer ∈ answers, allowed answer.meanwhile) :
    Stays life.core allowed batch touched w (life.retrySettlement batch i answers w).2.2 ∧
      ∀ answer ∈ (life.retrySettlement batch i answers w).2.1, allowed answer.meanwhile := by
  unfold retrySettlement
  split
  · exact ⟨.refl w, ok⟩
  cases answers with
  | nil => exact ⟨.refl w, by simp⟩
  | cons answer rest =>
    have later : ∀ answer ∈ rest, allowed answer.meanwhile := fun a mem =>
      ok a (mem_cons_of_mem _ mem)
    dsimp only
    split
    · exact ⟨.refl w, later⟩
    have stays : Stays life.core allowed batch touched w
        (life.writeSettlement batch i answer w).2 :=
      life.writeSettlement_stays mem (ok answer mem_cons_self)
    match life.writeSettlement batch i answer w, stays with
    | (some .unconfirmed, w₁), stays => exact ⟨.note _ mem .ackRetry stays, later⟩
    | (none, w₁), stays | (some .accepted, w₁), stays | (some .notFound, w₁), stays
    | (some .rejected, w₁), stays => exact ⟨stays, later⟩

theorem owedTurn_spec (allowed : Meanwhile I ρ → Prop) (batch : List I)
    {members : List (Candidate I)} (w : World I ρ) (within : ∀ c ∈ members, c.messageId ∈ touched) :
    Stays life.core allowed batch touched w (life.owedTurn w members).2 ∧
      (life.owedTurn w members).1.Sublist members := by
  induction members generalizing w with
  | nil => exact ⟨.refl w, .slnil⟩
  | cons c rest ih =>
    obtain ⟨stays, kept⟩ := ih (life.judge w c).2 fun d mem => within d (mem_cons_of_mem _ mem)
    refine ⟨(life.judge_stays (within c mem_cons_self)).trans stays, ?_⟩
    unfold owedTurn
    dsimp only
    split
    · exact kept.cons _
    · exact kept.cons_cons _

theorem chargeAttempts_spec (allowed : Meanwhile I ρ → Prop) (batch : List I)
    {members : List (Candidate I)} (w : World I ρ) (within : ∀ c ∈ members, c.messageId ∈ touched) :
    Moves life.core allowed batch touched w (life.chargeAttempts w members).2 ∧
      (life.chargeAttempts w members).1.Sublist members := by
  induction members generalizing w with
  | nil => exact ⟨.refl w, .slnil⟩
  | cons c rest ih =>
    obtain ⟨moves, kept⟩ := ih (w.set c.messageId (life.core.recordAttempt (w.record c.messageId)).1)
      fun d mem => within d (mem_cons_of_mem _ mem)
    refine ⟨Moves.trans (.set _ _ (within c mem_cons_self) (.refl w)) moves, ?_⟩
    unfold chargeAttempts
    dsimp only
    split
    · exact kept.cons _
    · exact kept.cons_cons _

theorem discardAttempts_moves {charged : List I} (within : ∀ i ∈ charged, i ∈ touched)
    (w : World I ρ) : Moves life.core allowed batch touched w (life.discardAttempts w charged) :=
  Moves.foldl charged (fun w i mem => (Moves.refl w).update _ _ (within i mem)) w

theorem releaseClaims_moves {held : List I} (within : ∀ i ∈ held, i ∈ touched) (w : World I ρ) :
    Moves life.core allowed batch touched w (life.releaseClaims w held) :=
  Moves.foldl held (fun w i mem => (Moves.refl w).update _ _ (within i mem)) w

omit [DecidableEq I] in
theorem messageId_hydrated (host : Host I) (c : Candidate I) : (hydrated host c).messageId = c.messageId := by
  unfold hydrated
  split <;> rfl

omit [DecidableEq I] in
theorem observed_hydrated {host : Host I} {c : Candidate I} (observed : c.observed.isSome = true) :
    (hydrated host c).observed.isSome = true := by
  unfold hydrated
  split
  · exact observed
  · rfl

end Phases

/-- Every await of a round is an allowed one. -/
structure Round.Allowed (allowed : Meanwhile I ρ → Prop) (round : Round I ρ) : Prop where
  screening : ∀ answer ∈ round.screening, allowed answer.meanwhile
  beginning : ∀ m begun, round.beginning = some (m, begun) → allowed m
  hydration : ∀ m refreshed, round.hydration = some (m, refreshed) → allowed m
  confirmations : ∀ answer ∈ round.confirmations, allowed answer.meanwhile
  preparation : ∀ m, round.preparation = some m → allowed m
  execution : ∀ m course, round.execution = some (m, course) → allowed m
  writes : ∀ answer ∈ round.writes, allowed answer.meanwhile

omit [DecidableEq I] in
theorem Round.allowed_any (round : Round I ρ) : round.Allowed fun _ => True :=
  ⟨fun _ _ => trivial, fun _ _ _ => trivial, fun _ _ _ => trivial, fun _ _ => trivial,
    fun _ _ => trivial, fun _ _ _ => trivial, fun _ _ => trivial⟩

def Turn.ids (turn : Turn I ρ) : List I := turn.members.map Candidate.messageId

/-- A phase took the turn from `turn` to `turn'`, within its members. -/
structure Follows (life : Lifecycle ρ) (allowed : Meanwhile I ρ → Prop) (batch : List I)
    (turn turn' : Turn I ρ) : Prop where
  moves : Moves life.core allowed batch turn.ids turn.world turn'.world
  ids : turn'.ids = turn.ids
  observed : (∀ c ∈ turn.members, c.observed.isSome = true) → ∀ c ∈ turn'.members, c.observed.isSome = true
  charged : (∀ i ∈ turn.charged, i ∈ turn.ids) → ∀ i ∈ turn'.charged, i ∈ turn.ids

namespace Follows

variable {turn turn' turn'' : Turn I ρ}

theorem trans (first : Follows life allowed batch turn turn')
    (second : Follows life allowed batch turn' turn'') : Follows life allowed batch turn turn'' where
  moves := first.moves.trans (first.ids ▸ second.moves)
  ids := second.ids.trans first.ids
  observed seen := second.observed (first.observed seen)
  charged own := first.ids ▸ second.charged (first.ids ▸ first.charged own)

/-- A phase that only moved its room. -/
theorem of_moves {world : World I ρ} (moves : Moves life.core allowed batch turn.ids turn.world world) :
    Follows life allowed batch turn { turn with world := world } :=
  ⟨moves, rfl, id, id⟩

theorem await (turn : Turn I ρ) {m : Meanwhile I ρ} (ok : allowed m) :
    Follows life allowed batch turn { turn with world := turn.world.await life.core batch m } :=
  of_moves (.await m ok (.refl _))

end Follows

section Attempts

variable {round : Round I ρ} {turn : Turn I ρ} {revision : Nat} {control : Bool}

omit [DecidableEq I] in
theorem mem_ids (turn : Turn I ρ) {c : Candidate I} (mem : c ∈ turn.members) : c.messageId ∈ turn.ids :=
  mem_map_of_mem mem

omit [DecidableEq I] in
theorem ids_hydrated (host : Host I) (members : List (Candidate I)) :
    (members.map (hydrated host)).map Candidate.messageId = members.map Candidate.messageId := by
  rw [map_map]
  exact map_congr_left fun c _ => messageId_hydrated host c

theorem follows_hydration (ok : round.Allowed allowed) {m : Meanwhile I ρ} {refreshed : Bool}
    (answered : round.hydration = some (m, refreshed)) :
    Follows life allowed batch turn { turn with
      world := turn.world.await life.core batch m
      members := if refreshed then turn.members.map (hydrated m.host) else turn.members } := by
  refine ⟨.await m (ok.hydration m refreshed answered) (.refl _), ?_, fun seen c mem => ?_, id⟩
  · unfold Turn.ids
    split
    · exact ids_hydrated m.host turn.members
    · rfl
  · dsimp only at mem
    split at mem
    · obtain ⟨d, member, rfl⟩ := mem_map.1 mem
      exact observed_hydrated (seen d member)
    · exact seen c mem

theorem fixOriginals_spec (life : Lifecycle ρ) (allowed : Meanwhile I ρ → Prop) (batch : List I)
    (control : Bool) (turn : Turn I ρ) :
    Follows life allowed batch turn (life.fixOriginals control turn).2 ∧
      ∀ c ∈ (life.fixOriginals control turn).1, c.messageId ∈ turn.ids := by
  obtain ⟨stays, sub⟩ := life.owedTurn_spec allowed batch turn.world
    fun c mem => mem_ids turn mem
  have moves := stays.moves
  have within : ∀ c ∈ (life.owedTurn turn.world turn.members).1, c.messageId ∈ turn.ids :=
    fun c mem => mem_ids turn (sub.subset mem)
  cases control with
  | true => exact ⟨⟨moves, rfl, id, nofun⟩, within⟩
  | false =>
    obtain ⟨charges, kept⟩ := life.chargeAttempts_spec allowed batch
      (life.owedTurn turn.world turn.members).2 within
    refine ⟨⟨moves.trans charges, rfl, id, fun _ i mem => ?_⟩, fun c mem => within c (kept.subset mem)⟩
    obtain ⟨c, charged, rfl⟩ := mem_map.1 mem
    exact within c (kept.subset charged)

/-- The originals of a prepared attempt are its members. -/
theorem prepare_spec (life : Lifecycle ρ) (batch : List I) (revision : Nat) (control : Bool)
    (turn : Turn I ρ) (ok : round.Allowed allowed) :
    Follows life allowed batch turn (life.prepare batch revision control round turn).2 ∧
      ∀ originals, (life.prepare batch revision control round turn).1 = .ok originals →
        ∀ c ∈ originals, c.messageId ∈ turn.ids := by
  have refl : Follows life allowed batch turn turn := .of_moves (.refl _)
  unfold prepare
  split
  · exact ⟨refl, nofun⟩
  dsimp only
  split
  · exact ⟨refl, nofun⟩
  rename_i turn' begun
  have follows : Follows life allowed batch turn turn' := by
    split at begun
    · cases begun; exact refl
    · obtain ⟨⟨m, refreshed⟩, answered, rfl⟩ := Option.map_eq_some_iff.1 begun
      exact follows_hydration ok answered
  obtain ⟨fixed, within⟩ := life.fixOriginals_spec allowed batch control turn'
  have fixed := follows.trans fixed
  split
  · exact ⟨fixed, nofun⟩
  · exact ⟨fixed, fun originals done => by cases done; exact follows.ids ▸ within⟩

omit [DecidableEq I] in
theorem unadmitted_ne (host : Host I) : unadmittedOutcome host ≠ .advanced ∧ unadmittedOutcome host ≠ .declined := by
  unfold unadmittedOutcome
  split <;> decide

theorem confirmProcessing_spec (life : Lifecycle ρ) (batch touched : List I) (revision : Nat)
    (originals : List (Candidate I)) {answers : List (Confirmation I ρ)}
    (ok : ∀ answer ∈ answers, allowed answer.meanwhile) (w : World I ρ) :
    Stays life.core allowed batch touched w
        (life.confirmProcessing batch revision w originals answers).2 ∧
      (life.confirmProcessing batch revision w originals answers).1 ≠ .error (some .advanced) ∧
      ∀ present, (life.confirmProcessing batch revision w originals answers).1 = .ok present →
        present.Sublist originals := by
  have unadmitted : ∀ host : Host I, (.error (some (unadmittedOutcome host)) : PhaseEnd (List (Candidate I))) ≠
        .error (some .advanced) := fun host same =>
    (unadmitted_ne host).1 (Option.some.inj (Except.error.inj same))
  induction originals generalizing w answers with
  | nil => exact ⟨.refl w, nofun, fun present done => by cases done; exact .slnil⟩
  | cons c rest ih =>
    cases answers with
    | nil => exact ⟨.refl w, nofun, nofun⟩
    | cons answer answers =>
      have awaited : Stays life.core allowed batch touched w
          (w.await life.core batch answer.meanwhile) :=
        .await _ (ok answer mem_cons_self) (.refl w)
      obtain ⟨stays, going, sub⟩ := ih (fun a mem => ok a (mem_cons_of_mem _ mem))
        (w.await life.core batch answer.meanwhile)
      unfold confirmProcessing
      dsimp only
      split
      · exact ⟨awaited, unadmitted _, nofun⟩
      split
      · split
        · exact ⟨awaited, unadmitted _, nofun⟩
        split
        · exact ⟨awaited.trans stays, going, fun present done => (sub present done).cons _⟩
        · exact ⟨awaited, unadmitted _, nofun⟩
      · split
        · exact ⟨awaited, unadmitted _, nofun⟩
        refine ⟨awaited.trans stays, ?_⟩
        cases confirmed : (life.confirmProcessing batch revision
            (w.await life.core batch answer.meanwhile) rest answers).1 with
        | error outcome =>
          rw [confirmed] at going
          exact ⟨going, nofun⟩
        | ok later => exact ⟨nofun, fun present done => by cases done; exact (sub later confirmed).cons_cons _⟩

/-- An attempt is admitted with the originals the platform still has, and only its room has moved. -/
theorem admitOriginals_spec (life : Lifecycle ρ) (batch touched : List I) (revision : Nat) (control : Bool)
    (turn : Turn I ρ) (ok : round.Allowed allowed) (originals : List (Candidate I)) :
    (∃ world, (life.admitOriginals batch revision control round originals turn).2 =
        { turn with world := world } ∧ Stays life.core allowed batch touched turn.world world) ∧
      (life.admitOriginals batch revision control round originals turn).1 ≠ .error (some .advanced) ∧
      ∀ present, (life.admitOriginals batch revision control round originals turn).1 = .ok present →
        present.Sublist originals ∧ present ≠ [] := by
  obtain ⟨stays, going, sub⟩ := life.confirmProcessing_spec batch touched revision originals
    ok.confirmations turn.world
  unfold admitOriginals
  split
  · exact ⟨⟨_, rfl, .refl _⟩, fun same => (unadmitted_ne _).1 (Option.some.inj (Except.error.inj same)), nofun⟩
  dsimp only
  split
  · rename_i outcome refused
    rw [refused] at going
    exact ⟨⟨_, rfl, stays⟩, fun same => going (congrArg Except.error (Except.error.inj same)), nofun⟩
  · rename_i present confirmed
    split
    · exact ⟨⟨_, rfl, stays⟩, nofun, nofun⟩
    rename_i some_
    split
    · exact ⟨⟨_, rfl, stays⟩, nofun, nofun⟩
    split
    · exact ⟨⟨_, rfl, stays⟩, nofun, nofun⟩
    rename_i m answered
    have awaited := Stays.await m (ok.preparation m answered) stays
    split
    · exact ⟨⟨_, rfl, awaited⟩,
        fun same => (unadmitted_ne _).1 (Option.some.inj (Except.error.inj same)), nofun⟩
    · refine ⟨⟨_, rfl, awaited⟩, nofun, fun present done => ?_⟩
      cases done
      exact ⟨sub present confirmed, some_⟩

theorem sendWrites_stays {ids : List I} (within : ∀ i ∈ ids, i ∈ touched)
    {answers : List (Write I ρ)} (ok : ∀ answer ∈ answers, allowed answer.meanwhile)
    (w : World I ρ) : Stays life.core allowed batch touched w (life.sendWrites batch w ids answers).2 := by
  induction ids generalizing w answers with
  | nil => exact .refl w
  | cons i rest ih =>
    have within_rest : ∀ j ∈ rest, j ∈ touched := fun j mem => within j (mem_cons_of_mem _ mem)
    unfold sendWrites
    split
    · exact ih within_rest ok w
    cases answers with
    | nil => exact .refl w
    | cons answer answers =>
      have stays : Stays life.core allowed batch touched w
          (life.writeSettlement batch i answer w).2 :=
        life.writeSettlement_stays (within i mem_cons_self) (ok answer mem_cons_self)
      dsimp only
      split
      · rename_i w' wrote
        rw [wrote] at stays
        exact stays
      · rename_i result w' wrote
        rw [wrote] at stays
        exact stays.trans (ih within_rest (fun a mem => ok a (mem_cons_of_mem _ mem)) w')

theorem execute_follows (life : Lifecycle ρ) (batch : List I) (control : Bool) (turn : Turn I ρ)
    (ok : round.Allowed allowed) {originals : List (Candidate I)}
    (within : ∀ c ∈ originals, c.messageId ∈ turn.ids) :
    Follows life allowed batch turn (life.execute batch control round originals turn).2.1 := by
  unfold execute
  cases answered : round.execution with
  | none => exact .of_moves (.refl _)
  | some answer =>
    obtain ⟨m, course⟩ := answer
    have awaited : Follows life allowed batch turn
        { turn with world := turn.world.await life.core batch m } :=
      .await turn (ok.execution m course answered)
    cases course with
    | declined | roomStopped | cancelled => exact awaited
    | refused => exact awaited.trans ⟨.refl _, rfl, id, id⟩
    | settled intent interrupted stopObserved failing =>
      have own : ∀ i ∈ originals.map messageId, i ∈ turn.ids := by
        intro i mem
        obtain ⟨c, original, rfl⟩ := mem_map.1 mem
        exact within c original
      refine awaited.trans (.of_moves ?_)
      refine Moves.trans ?_ (life.sendWrites_stays own ok.writes _).moves
      refine Moves.trans ?_ (Moves.foldl _ (fun w i mem => (Moves.refl w).update _ _ (own i mem)) _)
      split
      · exact Moves.foldl _ (fun w i mem => (Moves.refl w).update _ _ (own i mem)) _
      · exact .refl _

theorem runClaimed_follows (ok : round.Allowed allowed) (uncharged : turn.charged = []) :
    Follows life allowed batch turn (life.runClaimed batch revision control round turn).2 := by
  unfold runClaimed
  cases answered : round.beginning with
  | none => exact .of_moves (.refl _)
  | some answer =>
    obtain ⟨m, begun⟩ := answer
    have awaited : Follows life allowed batch turn
        { turn with world := turn.world.await life.core batch m } :=
      .await turn (ok.beginning m begun answered)
    have abandons : ∀ turn' : Turn I ρ, Follows life allowed batch turn turn' → Follows life allowed batch turn
          { turn' with world := life.discardAttempts turn'.world turn'.charged } := by
      intro turn' follows
      have own := follows.charged (by simp [uncharged])
      exact follows.trans (.of_moves
        (life.discardAttempts_moves (fun i mem => follows.ids ▸ own i mem) _))
    dsimp only
    split
    · exact awaited
    obtain ⟨prepared, within⟩ := life.prepare_spec batch revision control
      { turn with world := turn.world.await life.core batch m } ok
    have prepared := awaited.trans prepared
    split
    · rename_i outcome turn' ended
      rw [ended] at prepared
      exact abandons turn' prepared
    · rename_i originals turn' ready
      rw [ready] at prepared within
      obtain ⟨⟨world, same, stays⟩, -, present⟩ := life.admitOriginals_spec batch turn'.ids revision
        control turn' ok originals
      have admitted := prepared.trans (.of_moves stays.moves)
      rw [← same] at admitted
      split
      · rename_i outcome turn'' ended
        rw [ended] at admitted
        exact abandons turn'' admitted
      · rename_i originals' turn'' ready'
        rw [ready'] at admitted present
        have executed := admitted.trans (life.execute_follows batch control turn'' ok
          fun c mem => by
            rw [admitted.ids]; exact within originals rfl c ((present originals' rfl).1.subset mem))
        split
        · exact abandons _ executed
        · exact executed

end Attempts

/-! ## Screening and narrowing -/

theorem judge_not_runnable (lawful : life.core.Lawful) {c : Candidate I}
    (idle : (life.judge w c).1 ≠ .runnable) : life.eligibility (life.judge w c).2 c ≠ .runnable := by
  unfold judge at idle ⊢
  split
  · unfold eligibility
    rw [World.host_update]
    simpa [World.update] using (lawful.remembered _ _).1
  · exact idle

theorem screened_ok {answer : Eligibility} {runs : Bool} (done : screened answer = .ok runs) :
    runs = decide (answer = .runnable) := by
  cases answer <;> cases done <;> rfl

variable {members : List (Candidate I)} {answers : List (Write I ρ)} {current left : List (Candidate I)}
    {rounds : List (Round I ρ)} {revision : Nat} {control : Bool}

theorem screenMember_spec (life : Lifecycle ρ) (batch : List I) (w : World I ρ) (c : Candidate I)
    (ok : ∀ answer ∈ answers, allowed answer.meanwhile) :
    Stays life.core allowed batch [c.messageId] w (life.screenMember batch w c answers).2.2 ∧
      ∀ answer ∈ (life.screenMember batch w c answers).2.1, allowed answer.meanwhile := by
  have own : c.messageId ∈ [c.messageId] := mem_singleton_self _
  have judged : Stays life.core allowed batch [c.messageId] w (life.judge w c).2 :=
    life.judge_stays own
  unfold screenMember
  dsimp only
  split
  · obtain ⟨retried, rest⟩ := life.retrySettlement_stays batch (life.judge w c).2 own ok
    have retried := judged.trans retried
    split
    all_goals
      rename_i answers' w' wrote
      rw [wrote] at retried rest
    · exact ⟨retried, rest⟩
    · exact ⟨retried, rest⟩
    · exact ⟨retried.trans (life.judge_stays own), rest⟩
  · exact ⟨judged, ok⟩

theorem screenMember_not_runnable (lawful : life.core.Lawful) {c : Candidate I}
    (idle : (life.screenMember batch w c answers).1 = .ok false) :
    life.eligibility (life.screenMember batch w c answers).2.2 c ≠ .runnable := by
  have judged : ∀ w : World I ρ, screened (life.judge w c).1 = .ok false →
      life.eligibility (life.judge w c).2 c ≠ .runnable := by
    intro w done
    exact judge_not_runnable lawful (by simpa using (screened_ok done).symm)
  unfold screenMember at idle ⊢
  dsimp only at idle ⊢
  split
  · rename_i pending
    rw [if_pos pending] at idle
    split
    all_goals
      rename_i answers' w' wrote
      rw [wrote] at idle
    · cases idle
    · cases idle
    · exact judged w' idle
  · rename_i settled
    rw [if_neg settled] at idle
    exact judged w idle

theorem screen_stays (life : Lifecycle ρ) (batch : List I) (members : List (Candidate I))
    (ok : ∀ answer ∈ answers, allowed answer.meanwhile) (w : World I ρ) :
    Stays life.core allowed batch (members.map Candidate.messageId) w
      (life.screen batch w members answers).2 := by
  induction members generalizing w answers with
  | nil => exact .refl w
  | cons c rest ih =>
    obtain ⟨stays, later⟩ := life.screenMember_spec batch w c ok
    have stays : Stays life.core allowed batch ((c :: rest).map messageId) w _ :=
      stays.mono (by simp)
    unfold screen
    split
    all_goals
      rename_i w' screened
      rw [screened] at stays later
    · exact stays
    · exact stays.trans ((ih later w').cons _)

theorem screen_sublist {members runnable : List (Candidate I)} {w : World I ρ}
    (done : (life.screen batch w members answers).1 = .ok runnable) :
    runnable.Sublist members := by
  induction members generalizing w answers runnable with
  | nil => cases done; exact .slnil
  | cons c rest ih =>
    unfold screen at done
    split at done
    · cases done
    rename_i runs answers' w' screened
    cases tail : (life.screen batch w' rest answers').1 with
    | error outcome => simp [tail, Except.map] at done
    | ok later =>
      have sub := ih tail
      cases runs <;> simp [tail, Except.map] at done <;> subst done
      · exact sub.cons _
      · exact sub.cons_cons _

/-- A screening that fails fails to be tried again. -/
theorem screen_ne {outcome : TurnOutcome} (other : outcome ≠ .retryLater) (life : Lifecycle ρ) (batch : List I)
    (members : List (Candidate I)) (answers : List (Write I ρ)) (w : World I ρ) :
    (life.screen batch w members answers).1 ≠ .error (some outcome) := by
  have answered : ∀ answer : Eligibility, screened answer ≠ .error (some outcome) := by
    intro answer same
    cases answer <;> cases same
    exact other rfl
  have member : ∀ (c : Candidate I) (answers : List (Write I ρ)) (w : World I ρ),
      (life.screenMember batch w c answers).1 ≠ .error (some outcome) := by
    intro c answers w
    unfold screenMember
    dsimp only
    split
    · split
      · nofun
      · exact fun same => other (Option.some.inj (Except.error.inj same)).symm
      · exact answered _
    · exact answered _
  induction members generalizing answers w with
  | nil => nofun
  | cons c rest ih =>
    have first := member c answers w
    unfold screen
    split
    · rename_i outcome' answers' w' refused
      rw [refused] at first
      exact fun same => first (congrArg Except.error (Except.error.inj same))
    · rename_i runs answers' w' screened
      have later := ih answers' w'
      dsimp only
      cases done : (life.screen batch w' rest answers').1 with
      | error outcome' =>
        rw [done] at later
        exact later
      | ok runnable => nofun

/-- A member the screening left out is not runnable when it is over. -/
theorem screen_not_runnable (lawful : life.core.Lawful) {members runnable : List (Candidate I)} {w : World I ρ}
    (distinct : (members.map Candidate.messageId).Nodup)
    (observed : ∀ c ∈ members, c.observed.isSome = true) (own : ∀ c ∈ members, c.messageId ∈ batch)
    (done : (life.screen batch w members answers).1 = .ok runnable) :
    ∀ c ∈ members, c ∉ runnable → life.eligibility (life.screen batch w members answers).2 c ≠ .runnable := by
  induction members generalizing w answers runnable with
  | nil => simp
  | cons c rest ih =>
    rw [map_cons, nodup_cons] at distinct
    have head : (life.screenMember batch w c answers).1 = .ok false →
        life.eligibility (life.screenMember batch w c answers).2.2 c ≠ .runnable :=
      screenMember_not_runnable lawful
    unfold screen at done ⊢
    split at done
    · cases done
    rename_i runs answers' w' screened
    rw [screened] at head
    cases tail : (life.screen batch w' rest answers').1 with
    | error outcome => simp [tail, Except.map] at done
    | ok later =>
      have rest_idle := ih distinct.2 (fun d mem => observed d (mem_cons_of_mem _ mem))
        (fun d mem => own d (mem_cons_of_mem _ mem)) tail
      have rest_moves : Moves life.core (fun _ => True) batch
          (rest.map messageId) w' (life.screen batch w' rest answers').2 :=
        (life.screen_stays batch rest (fun _ _ => trivial) w').moves
      intro d mem left
      cases runs with
      | false =>
        simp [tail, Except.map] at done
        subst done
        rcases mem_cons.1 mem with rfl | mem
        · exact not_runnable_of_moves lawful rest_moves (own d mem_cons_self)
            distinct.1 (observed d mem_cons_self) (head rfl)
        · exact rest_idle d mem left
      | true =>
        simp [tail, Except.map] at done
        subst done
        rcases mem_cons.1 mem with rfl | mem
        · exact absurd mem_cons_self left
        · exact rest_idle d mem fun mem => left (mem_cons_of_mem _ mem)

theorem claim_spec (life : Lifecycle ρ) (allowed : Meanwhile I ρ → Prop) (batch : List I)
    (members : List (Candidate I)) (w : World I ρ) :
    Moves life.core allowed batch (members.map Candidate.messageId) w (life.claim w members).2.2 ∧
      ∀ i ∈ (life.claim w members).2.1, i ∈ members.map Candidate.messageId := by
  induction members generalizing w with
  | nil => exact ⟨.refl w, by simp [claim]⟩
  | cons c rest ih =>
    have first : Moves life.core allowed batch ((c :: rest).map messageId) w
        (w.set c.messageId (life.core.guardedClaim (w.record c.messageId) (life.facts w.host c)).2) :=
      .set _ _ mem_cons_self (.refl w)
    obtain ⟨moves, held⟩ := ih
      (w.set c.messageId (life.core.guardedClaim (w.record c.messageId) (life.facts w.host c)).2)
    unfold claim
    dsimp only
    split
    · exact ⟨first, by simp⟩
    refine ⟨first.trans (moves.cons _), fun i mem => ?_⟩
    rcases mem_cons.1 mem with rfl | mem
    · exact mem_cons_self
    · exact mem_cons_of_mem _ (held i mem)

theorem anyRunnable_stays (members : List (Candidate I)) (w : World I ρ) :
    Stays life.core allowed batch (members.map Candidate.messageId) w
      (life.anyRunnable w members).2 := by
  induction members generalizing w with
  | nil => exact .refl w
  | cons c rest ih =>
    have first : Stays life.core allowed batch ((c :: rest).map messageId) w
        (life.judge w c).2 := life.judge_stays mem_cons_self
    unfold anyRunnable
    dsimp only
    split
    · exact first
    · exact first.trans ((ih _).cons _)

theorem anyRunnable_host (w : World I ρ) : (life.anyRunnable w members).2.host = w.host := by
  induction members generalizing w with
  | nil => rfl
  | cons c rest ih =>
    unfold anyRunnable
    dsimp only
    split
    · exact life.judge_host w c
    · rw [ih, life.judge_host]

theorem anyRunnable_record {i : I} (outside : i ∉ members.map Candidate.messageId) (w : World I ρ) :
    (life.anyRunnable w members).2.record i = w.record i := by
  induction members generalizing w with
  | nil => rfl
  | cons c rest ih =>
    rw [map_cons, mem_cons, not_or] at outside
    have judged : (life.judge w c).2.record i = w.record i := by
      unfold judge
      split
      · exact World.record_update_of_ne outside.1 _
      · rfl
    unfold anyRunnable
    dsimp only
    split
    · exact judged
    · rw [ih outside.2, judged]

theorem anyRunnable_false (lawful : life.core.Lawful) {w : World I ρ}
    (distinct : (members.map Candidate.messageId).Nodup) (none_ : (life.anyRunnable w members).1 = false) :
    ∀ c ∈ members, life.eligibility (life.anyRunnable w members).2 c ≠ .runnable := by
  induction members generalizing w with
  | nil => simp
  | cons c rest ih =>
    rw [map_cons, nodup_cons] at distinct
    unfold anyRunnable at none_ ⊢
    dsimp only at none_ ⊢
    split at none_
    · cases none_
    rename_i idle
    rw [if_neg idle]
    intro d mem
    rcases mem_cons.1 mem with rfl | mem
    · unfold eligibility
      rw [anyRunnable_record distinct.1, anyRunnable_host]
      exact judge_not_runnable lawful idle
    · exact ih distinct.2 none_ d mem

/-! ## One round, and the whole turn -/

theorem perm_dropped {members runnable : List (Candidate I)} (distinct : members.Nodup)
    (sub : runnable.Sublist members) :
    (runnable ++ members.filter (· ∉ runnable)).Perm members := by
  have kept : runnable.Perm (members.filter (· ∈ runnable)) := by
    rw [perm_ext_iff_of_nodup (distinct.sublist sub) (distinct.filter _)]
    intro c
    simpa using fun mem => sub.subset mem
  have split := filter_append_perm (fun c => decide (c ∈ runnable)) members
  exact (kept.append_right _).trans (by simpa using split)

/-- What one round leaves of its members. -/
structure RoundSpec (life : Lifecycle ρ) (allowed : Meanwhile I ρ → Prop) (batch : List I)
    (w : World I ρ) (members : List (Candidate I)) (turn : Turn I ρ) (dropped : List (Candidate I)) :
    Prop where
  moves : Moves life.core allowed batch (members.map Candidate.messageId) w turn.world
  ids : ((turn.members ++ dropped).map Candidate.messageId).Perm (members.map Candidate.messageId)
  observed : (∀ c ∈ members, c.observed.isSome = true) → ∀ c ∈ turn.members ++ dropped, c.observed.isSome = true
  idle : life.core.Lawful → (∀ c ∈ members, c.observed.isSome = true) → (∀ c ∈ members, c.messageId ∈ batch) →
    ∀ c ∈ dropped, life.eligibility turn.world c ≠ .runnable
  /-- Of one member nothing is dropped. -/
  single : members.length ≤ 1 → dropped = []

theorem runOnce_spec (life : Lifecycle ρ) (batch : List I) {round : Round I ρ}
    (ok : round.Allowed allowed) (revision : Nat) (control : Bool) (distinct : (members.map Candidate.messageId).Nodup) (w : World I ρ) :
    RoundSpec life allowed batch w members (life.runOnce batch revision control round members w).2.1
      (life.runOnce batch revision control round members w).2.2 := by
  have screening := life.screen_stays batch members ok.screening w
  have none_dropped : ∀ w', Moves life.core allowed batch (members.map messageId) w w' →
      RoundSpec life allowed batch w members { members := members, world := w' } [] := fun w' moves =>
    ⟨moves, by simp, by simp, by simp, fun _ => rfl⟩
  unfold runOnce
  split
  · rename_i outcome w' screened
    rw [screened] at screening
    exact none_dropped w' screening.moves
  · rename_i runnable w' screened
    have sub := screen_sublist (by rw [screened] : (life.screen batch w members _).1 = .ok runnable)
    have left := fun lawful observed own => screen_not_runnable lawful distinct observed own
      (by rw [screened] : (life.screen batch w members _).1 = .ok runnable)
    rw [screened] at screening left
    split
    · exact none_dropped w' screening.moves
    rename_i some_
    have members_nodup : members.Nodup := distinct.of_map _
    have within : ∀ i ∈ runnable.map messageId, i ∈ members.map messageId :=
      fun i mem => (sub.map _).subset mem
    obtain ⟨claiming, held⟩ := life.claim_spec allowed batch runnable w'
    -- the rest of the round touches only the members that can run
    have follows : Follows life allowed batch { members := runnable, world := w' }
        (let claimed := life.claim w' runnable
         let attempt := if claimed.1 then life.runClaimed batch revision control round
            { members := runnable, world := claimed.2.2 }
          else (some .retryLater, { members := runnable, world := claimed.2.2 })
         { attempt.2 with world := life.releaseClaims attempt.2.world claimed.2.1 }) := by
      have claimed : Follows life allowed batch { members := runnable, world := w' }
          { members := runnable, world := (life.claim w' runnable).2.2 } := .of_moves claiming
      have attempted : Follows life allowed batch { members := runnable, world := w' }
          (if (life.claim w' runnable).1 then life.runClaimed batch revision control round
            { members := runnable, world := (life.claim w' runnable).2.2 }
          else (some .retryLater, { members := runnable, world := (life.claim w' runnable).2.2 })).2 := by
        split
        · exact claimed.trans (runClaimed_follows ok rfl)
        · exact claimed
      refine attempted.trans (.of_moves (life.releaseClaims_moves (fun i mem => ?_) _))
      rw [attempted.ids]
      exact held i mem
    have perm := (perm_dropped members_nodup sub).map messageId
    refine ⟨screening.moves.trans (follows.moves.mono within), ?_, ?_, ?_, ?_⟩
    · rw [map_append] at perm ⊢
      exact (List.Perm.append_right _ (.of_eq follows.ids)).trans perm
    · intro observed c mem
      rcases mem_append.1 mem with mem | mem
      · exact follows.observed (fun d mem => observed d (sub.subset mem)) c mem
      · exact observed c (mem_filter.1 mem).1
    · intro lawful observed own c mem
      obtain ⟨member, out⟩ := mem_filter.1 mem
      have out : c ∉ runnable := by simpa using out
      refine not_runnable_of_moves lawful follows.moves (own c member) ?_ (observed c member)
        (left lawful observed own c member out)
      intro mem
      obtain ⟨d, runs, same⟩ := mem_map.1 mem
      exact out (inj_on_of_nodup_map distinct (sub.subset runs) member same ▸ runs)
    · intro short
      have whole : runnable = members := by
        refine sub.eq_of_length_le ?_
        have : 0 < runnable.length := length_pos_iff.2 some_
        omega
      rw [filter_eq_nil_iff]
      intro c mem
      simpa [whole] using mem

/-- The batch is what the turn still has, what the round dropped, and what earlier
rounds did. -/
theorem RoundSpec.perm {members dropped : List (Candidate I)} {turn : Turn I ρ}
    (spec : RoundSpec life allowed batch w members turn dropped) (left : List (Candidate I)) :
    ((turn.members ++ (dropped ++ left)).map Candidate.messageId).Perm
      ((members ++ left).map Candidate.messageId) := by
  simpa using spec.ids.append_right (left.map messageId)

omit [DecidableEq I] in
theorem nodup_of_append (distinct : ((current ++ left).map Candidate.messageId).Nodup) :
    (current.map Candidate.messageId).Nodup := by
  rw [map_append] at distinct
  exact (nodup_append.1 distinct).1

/-- What is left of a batch between two rounds: `current` may run, `left` may not. -/
structure Narrowed (life : Lifecycle ρ) (batch : List I) (w : World I ρ)
    (current left : List (Candidate I)) : Prop where
  distinct : ((current ++ left).map Candidate.messageId).Nodup
  own : ∀ c ∈ current ++ left, c.messageId ∈ batch
  /-- Only a batch of more than one member is ever narrowed, and a read listed
  all of those. -/
  seen : (∀ c ∈ current ++ left, c.observed.isSome = true) ∨ (current.length ≤ 1 ∧ left = [])
  idle : ∀ c ∈ left, life.eligibility w c ≠ .runnable

theorem Narrowed.round (lawful : life.core.Lawful) {current left dropped : List (Candidate I)}
    {turn : Turn I ρ} (narrowed : Narrowed life batch w current left)
    (spec : RoundSpec life allowed batch w current turn dropped) :
    Narrowed life batch turn.world turn.members (dropped ++ left) := by
  obtain ⟨distinct, own, seen, idle⟩ := narrowed
  have perm := spec.perm left
  have own' : ∀ c ∈ turn.members ++ (dropped ++ left), c.messageId ∈ batch := by
    intro c mem
    obtain ⟨d, member, same⟩ := mem_map.1 (perm.subset (mem_map_of_mem mem))
    exact same ▸ own d member
  refine ⟨perm.nodup_iff.2 distinct, own', ?_, ?_⟩
  · rcases seen with observed | ⟨short, rfl⟩
    · left
      intro c mem
      rw [← append_assoc] at mem
      rcases mem_append.1 mem with mem | mem
      · exact spec.observed (fun d mem => observed d (mem_append_left _ mem)) c mem
      · exact observed c (mem_append_right _ mem)
    · right
      have length : (turn.members ++ dropped).length = current.length := by
        simpa using spec.ids.length_eq
      rw [length_append] at length
      exact ⟨by omega, by simp [spec.single short]⟩
  · intro c mem
    rcases seen with observed | ⟨short, rfl⟩
    · rcases mem_append.1 mem with mem | mem
      · exact spec.idle lawful (fun d mem => observed d (mem_append_left _ mem))
          (fun d mem => own d (mem_append_left _ mem)) c mem
      · refine not_runnable_of_moves lawful spec.moves (own c (mem_append_right _ mem)) ?_
          (observed c (mem_append_right _ mem)) (idle c mem)
        intro here
        rw [map_append] at distinct
        exact (nodup_append.1 distinct).2.2 _ here _ (mem_map_of_mem mem) rfl
    · simp [spec.single short] at mem

/-- The members left out stay so while the others are checked. -/
theorem Narrowed.checked (lawful : life.core.Lawful) (narrowed : Narrowed life batch w current left) :
    Narrowed life batch (life.anyRunnable w current).2 current left := by
  refine ⟨narrowed.distinct, narrowed.own, narrowed.seen, fun c mem => ?_⟩
  rcases narrowed.seen with observed | ⟨-, rfl⟩
  · have moves : Moves life.core (fun _ => True) batch (current.map messageId) w
        (life.anyRunnable w current).2 := (anyRunnable_stays current w).moves
    have distinct := narrowed.distinct
    rw [map_append] at distinct
    refine not_runnable_of_moves lawful moves (narrowed.own c (mem_append_right _ mem)) ?_
      (observed c (mem_append_right _ mem)) (narrowed.idle c mem)
    intro here
    exact (nodup_append.1 distinct).2.2 _ here _ (mem_map_of_mem mem) rfl
  · cases mem

theorem runFrom_forms (life : Lifecycle ρ) (batch : List I) (revision : Nat) (control : Bool)
    (rounds : List (Round I ρ)) {current : List (Candidate I)} (left : List (Candidate I))
    (distinct : (current.map Candidate.messageId).Nodup) (w : World I ρ) :
    ((life.runFrom batch revision control rounds current left w).forms.map Candidate.messageId).Perm
      ((current ++ left).map Candidate.messageId) := by
  induction rounds generalizing current left w with
  | nil => exact .refl _
  | cons round rounds ih =>
    have spec := life.runOnce_spec batch round.allowed_any revision control distinct w
    have here := spec.perm left
    unfold runFrom
    dsimp only
    split
    · exact here
    split
    · exact (ih _ (nodup_of_append (spec.ids.nodup_iff.2 distinct)) _).trans here
    · exact here

theorem runFrom_advanced (lawful : life.core.Lawful) {w : World I ρ}
    (narrowed : Narrowed life batch w current left)
    (advanced : (life.runFrom batch revision control rounds current left w).outcome = some .advanced) :
    ∀ c ∈ (life.runFrom batch revision control rounds current left w).forms,
      life.eligibility (life.runFrom batch revision control rounds current left w).world c ≠
        .runnable := by
  induction rounds generalizing current left w with
  | nil => cases advanced
  | cons round rounds ih =>
    have spec := life.runOnce_spec batch round.allowed_any revision control
      (nodup_of_append narrowed.distinct) w
    have checked := (narrowed.round lawful spec).checked lawful
    unfold runFrom at advanced ⊢
    dsimp only at advanced ⊢
    split at advanced
    · rename_i other
      exact absurd advanced other
    · rename_i done
      rw [if_neg done]
      split at advanced
      · rename_i again
        rw [if_pos again]
        exact ih checked advanced
      · rename_i ended
        rw [if_neg ended]
        intro c mem
        rcases mem_append.1 mem with mem | mem
        · exact anyRunnable_false lawful (nodup_of_append checked.distinct) (by simpa using ended)
            c mem
        · exact checked.idle c mem

/-- The batches the scheduler runs: distinct, and all listed when there are several. -/
structure Batch (members : List (Candidate I)) : Prop where
  distinct : (members.map Candidate.messageId).Nodup
  listed : (∀ c ∈ members, c.observed.isSome = true) ∨ members.length ≤ 1

/-- **Nothing an advanced turn releases is runnable.** -/
theorem run_advanced (lawful : life.core.Lawful) (batch : Batch members) {w : World I ρ}
    (advanced : (life.run members revision control rounds w).outcome = some .advanced) :
    ∀ c ∈ (life.run members revision control rounds w).forms,
      life.eligibility (life.run members revision control rounds w).world c ≠ .runnable := by
  refine runFrom_advanced lawful ⟨by simpa using batch.distinct, ?_, ?_, nofun⟩ advanced
  · intro c mem
    exact mem_map_of_mem (by simpa using mem)
  · rcases batch.listed with listed | short
    · exact .inl (by simpa using listed)
    · exact .inr ⟨short, rfl⟩

theorem run_forms (batch : Batch members) (w : World I ρ) :
    ((life.run members revision control rounds w).forms.map Candidate.messageId).Perm
      (members.map Candidate.messageId) := by
  simpa [run] using life.runFrom_forms (members.map messageId) revision control rounds []
    batch.distinct w

end Lifecycle

end BandSdk.Scheduling

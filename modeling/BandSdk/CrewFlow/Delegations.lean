/-
# CrewFlow.Delegations -- one message a delegation, one round a turn

A delegation is posted only after its reservation is in the log with an entry for
its id and with the number of the round; both outlast every later event of the
run until the run is closed, and a turn works from the log as it was when it
began.  So a later turn finds the entry, and the count of posting turns stays
below the rounds the log shows.
-/
import BandSdk.CrewFlow.Events
import Mathlib.Data.Finset.Card

namespace BandSdk.CrewFlow

open BandSdk.Theory List Turn World

/-! ## Rounds in a log -/

section Logs

variable {log : List TaskEvent} {run : RunId} {event : TaskEvent} {id : DelegationId} {n : Nat}

/-- The run is closed, or its record has an entry for the delegation. -/
def Listed (log : List TaskEvent) (run : RunId) (id : DelegationId) : Prop :=
  ∃ m, recordOf log run = some m ∧ Entered id m

/-- The run is closed, or its record counts `n` rounds. -/
def Counted (log : List TaskEvent) (run : RunId) (n : Nat) : Prop :=
  ∀ m, recordOf log run = some m → m.isTerminal = false → n ≤ m.delegationRounds

theorem Listed.append (listed : Listed log run id) : Listed (log ++ [event]) run id := by
  by_cases own : event.run = run
  · refine ⟨absorb (recordOf log run) event.payload, ?_, Entered.absorb listed⟩
    rw [recordOf_append, if_pos own]
  · obtain ⟨m, found, entered⟩ := listed
    exact ⟨m, by rw [recordOf_append_other own, found], entered⟩

theorem Listed.of_event (own : event.run = run) (entry : ∃ d ∈ event.payload.delegations, d.delegationId = id) :
    Listed (log ++ [event]) run id := by
  refine ⟨absorb (recordOf log run) event.payload, ?_, entered_absorb entry⟩
  rw [recordOf_append, if_pos own]

theorem Counted.append (counted : Counted log run n)
    (empty : recordOf log run = none → n = 0) : Counted (log ++ [event]) run n := by
  intro m found active
  by_cases own : event.run = run
  · rw [recordOf_append, if_pos own] at found
    cases found
    rcases of_absorb_open active with ⟨absent, shape⟩ | ⟨m, before, active', shape⟩
    · rw [empty absent]
      exact Nat.zero_le _
    · rw [shape]
      exact le_max_of_le_left (counted m before active')
  · rw [recordOf_append_other own] at found
    exact counted m found active

theorem Counted.of_event (own : event.run = run) :
    Counted (log ++ [event]) run event.payload.delegationRounds := by
  intro m found active
  rw [recordOf_append, if_pos own] at found
  cases found
  rcases of_absorb_open active with ⟨absent, shape⟩ | ⟨m, before, active', shape⟩
  · rw [shape]
  · rw [shape]
    exact le_max_right _ _

end Logs

/-! ## The invariant -/

def Post.isDelegation (p : Post) : Bool :=
  match p.key with
  | .delegate _ => true
  | _ => false

namespace World

variable (w : World)

def Posted (run : RunId) (key : SideEffectKey) : Prop := ∃ p ∈ w.posts, p.run = run ∧ p.key = key

def postCount (run : RunId) (key : SideEffectKey) : Nat :=
  w.posts.countP fun p => p.run = run && p.key = key

/-- The turns in which a delegation of the run was posted. -/
def postingTurns (run : RunId) : Finset Nat :=
  ((w.posts.filter fun p => p.run = run && p.isDelegation).map Post.turn).toFinset

end World

namespace Turn

variable (c : FlowConfig) (w : World) (t : Turn)

def knownIds : List DelegationId := t.delegations.map Delegation.delegationId

def rounds : Nat := (t.record.map Metadata.delegationRounds).getD 0

/-- A posted delegation among `items` is one the turn knows of. -/
def Knows (items : List DelegateItem) : Prop :=
  ∀ item ∈ items, w.Posted t.run (.delegate item.delegationId) → item.delegationId ∈ t.knownIds

/-- The round the turn took is within the limit, and no earlier turn had it. -/
def InRound : Prop :=
  ((w.postingTurns t.run).erase w.turns).card + 1 ≤ t.delegationRounds ∧
    t.delegationRounds ≤ c.maxDelegationRounds

/-- A delegation on its way. -/
def OnWay (item : DelegateItem) : Leg → Prop
  | .reserve => ¬ w.Posted t.run (.delegate item.delegationId)
  | .post => ¬ w.Posted t.run (.delegate item.delegationId) ∧
      Listed w.log t.run item.delegationId ∧ Counted w.log t.run t.delegationRounds
  | .confirm _ => True

/-- What keeps the turn from posting a delegation twice, or in one round too many. -/
def Guard : Prop :=
  match t.phase with
  | .flow | .replying _ =>
    (∀ id, w.Posted t.run (.delegate id) → id ∈ t.knownIds) ∧
      (w.postingTurns t.run).card ≤ t.rounds ∧ w.turns ∉ w.postingTurns t.run
  | .delegating items _ =>
    (items.map DelegateItem.delegationId).Nodup ∧ t.Knows w items ∧ t.InRound c w
  | .delegation item _ rest _ leg =>
    ((item :: rest).map DelegateItem.delegationId).Nodup ∧ t.Knows w rest ∧ t.InRound c w ∧ t.OnWay w item leg
  | _ => True

end Turn

/-- Posted once, entered in the log, and counted there. -/
structure Delegated (c : FlowConfig) (w : World) : Prop where
  once : ∀ run id, w.postCount run (.delegate id) ≤ 1
  listed : ∀ run id, w.Posted run (.delegate id) → Listed w.log run id
  numbered : ∀ p ∈ w.posts, p.turn ≤ w.turns
  bounded : ∀ run, (w.postingTurns run).card ≤ c.maxDelegationRounds
  counted : ∀ run, Counted w.log run (w.postingTurns run).card
  guard : ∀ t, w.turn = some t → t.Guard c w

/-! ## Steps that post no delegation -/

/-- No delegation is posted, and the log only grows. -/
structure Quiet (w w' : World) : Prop where
  posts : w'.posts = w.posts ∨ ∃ p, w'.posts = w.posts ++ [p] ∧ p.isDelegation = false ∧ p.turn ≤ w'.turns
  log : w'.log = w.log ∨ ∃ event, w'.log = w.log ++ [event]
  turns : w.turns ≤ w'.turns

section Quiet

variable {c : FlowConfig} {w w' : World} {run : RunId} {id : DelegationId}

section

variable (quiet : Quiet w w')
include quiet

theorem Quiet.posted : w'.Posted run (.delegate id) ↔ w.Posted run (.delegate id) := by
  rcases quiet.posts with same | ⟨p, added, other, -⟩
  · simp [World.Posted, same]
  have different : p.key ≠ .delegate id := by
    rintro key
    simp [Post.isDelegation, key] at other
  simp [World.Posted, added, or_and_right, exists_or, different]

theorem Quiet.postCount : w'.postCount run (.delegate id) = w.postCount run (.delegate id) := by
  rcases quiet.posts with same | ⟨p, added, other, -⟩
  · simp [World.postCount, same]
  have different : p.key ≠ .delegate id := by
    rintro key
    simp [Post.isDelegation, key] at other
  simp [World.postCount, added, countP_append, different]

theorem Quiet.postingTurns : w'.postingTurns run = w.postingTurns run := by
  rcases quiet.posts with same | ⟨p, added, other, -⟩
  · simp [World.postingTurns, same]
  · simp [World.postingTurns, added, filter_append, other]

theorem Quiet.listed (listed : Listed w.log run id) : Listed w'.log run id := by
  rcases quiet.log with same | ⟨event, added⟩
  · rwa [same]
  · rw [added]
    exact listed.append

theorem Quiet.counted {n : Nat} (counted : Counted w.log run n)
    (empty : recordOf w.log run = none → n = 0) : Counted w'.log run n := by
  rcases quiet.log with same | ⟨event, added⟩
  · rwa [same]
  · rw [added]
    exact counted.append empty

end

theorem mem_postingTurns {n : Nat} :
    n ∈ w.postingTurns run ↔ ∃ id, ∃ p ∈ w.posts, p.run = run ∧ p.key = .delegate id ∧ p.turn = n := by
  simp only [postingTurns, mem_toFinset, mem_map, mem_filter, Bool.and_eq_true, decide_eq_true_eq]
  constructor
  · rintro ⟨p, ⟨inside, own, kind⟩, rfl⟩
    cases key : p.key with
    | delegate id => exact ⟨id, p, inside, own, key, rfl⟩
    | final | subcrew n => simp [Post.isDelegation, key] at kind
  · rintro ⟨id, p, inside, own, key, rfl⟩
    exact ⟨p, ⟨inside, own, by simp [Post.isDelegation, key]⟩, rfl⟩

theorem Delegated.unposted (inv : Delegated c w) (absent : recordOf w.log run = none) :
    (w.postingTurns run).card = 0 := by
  rw [Finset.card_eq_zero, Finset.eq_empty_iff_forall_notMem]
  intro n inside
  obtain ⟨id, p, posted, own, key, -⟩ := mem_postingTurns.1 inside
  obtain ⟨m, found, -⟩ := inv.listed run id ⟨p, posted, own, key⟩
  cases found.symm.trans absent

theorem Delegated.quiet (inv : Delegated c w) (quiet : Quiet w w')
    (guard : ∀ t, w'.turn = some t → t.Guard c w') : Delegated c w' where
  once run id := by
    rw [quiet.postCount]
    exact inv.once run id
  listed run id posted := quiet.listed (inv.listed run id (quiet.posted.1 posted))
  numbered p inside := by
    rcases quiet.posts with same | ⟨new, added, -, number⟩
    · rw [same] at inside
      exact le_trans (inv.numbered p inside) quiet.turns
    · rw [added] at inside
      rcases mem_concat inside with old | rfl
      · exact le_trans (inv.numbered p old) quiet.turns
      · exact number
  bounded run := by
    rw [quiet.postingTurns]
    exact inv.bounded run
  counted run := by
    rw [quiet.postingTurns]
    exact quiet.counted (inv.counted run) inv.unposted
  guard := guard

/-- The guard of a turn that stays where it is. -/
theorem Turn.Guard.quiet {t t' : Turn} (guard : t.Guard c w) (quiet : Quiet w w')
    (turns : w'.turns = w.turns) (phase : t'.phase = t.phase) (run : t'.run = t.run)
    (record : t'.record = t.record) (rounds : t'.delegationRounds = t.delegationRounds) :
    t'.Guard c w' := by
  have known : t'.knownIds = t.knownIds := by simp [knownIds, delegations, record]
  have knows : ∀ items, t.Knows w items → t'.Knows w' items := by
    intro items all item inside posted
    rw [run, quiet.posted] at posted
    rw [known]
    exact all item inside posted
  have inRound : t.InRound c w → t'.InRound c w' := by
    intro within
    unfold Turn.InRound
    rw [run, rounds, quiet.postingTurns, turns]
    exact within
  have before : ((∀ id, w.Posted t.run (.delegate id) → id ∈ t.knownIds) ∧
      (w.postingTurns t.run).card ≤ t.rounds ∧ w.turns ∉ w.postingTurns t.run) →
      (∀ id, w'.Posted t'.run (.delegate id) → id ∈ t'.knownIds) ∧
        (w'.postingTurns t'.run).card ≤ t'.rounds ∧ w'.turns ∉ w'.postingTurns t'.run := by
    rintro ⟨all, count, absent⟩
    rw [run, known, quiet.postingTurns, turns, show t'.rounds = t.rounds by
      simp [Turn.rounds, record]]
    exact ⟨fun id posted => all id (quiet.posted.1 posted), count, absent⟩
  unfold Turn.Guard at guard ⊢
  rw [phase]
  cases at_ : t.phase with
  | flow | replying id =>
    rw [at_] at guard
    exact before guard
  | delegating items accumulated =>
    rw [at_] at guard
    exact ⟨guard.1, knows _ guard.2.1, inRound guard.2.2⟩
  | delegation item target rest accumulated leg =>
    rw [at_] at guard
    obtain ⟨apart, others, within, way⟩ := guard
    refine ⟨apart, knows _ others, inRound within, ?_⟩
    cases leg with
    | reserve =>
      unfold Turn.OnWay at way ⊢
      rwa [run, quiet.posted]
    | post =>
      obtain ⟨unposted, listed, counted⟩ := way
      unfold Turn.OnWay
      rw [run, rounds, quiet.posted]
      refine ⟨unposted, quiet.listed listed, quiet.counted counted ?_⟩
      intro absent
      obtain ⟨m, found, -⟩ := listed
      cases found.symm.trans absent
    | confirm messageId => trivial
  | recording content payload safe | finalizing text | final text leg | marking key
  | finished raised => trivial

end Quiet

/-! ## The turn's line -/

/-- The turn may still post a delegation. -/
def Phase.guarded : Phase → Bool
  | .flow | .replying _ | .delegating _ _ | .delegation _ _ _ _ _ => true
  | _ => false

section Line

variable {c : FlowConfig} {w : World} {t t' : Turn}

theorem guard_of_unguarded (unguarded : t.phase.guarded = false) : t.Guard c w := by
  unfold Turn.Guard
  split <;> first | trivial | simp_all [Phase.guarded]

/-- Where the turn's line goes, its guard goes with it. -/
theorem Turn.Guard.line (guard : t.Guard c w) (line : t.Line c t') : t'.Guard c w := by
  unfold Turn.Guard at guard
  cases line with
  | delegate items flow apart within =>
    rw [flow] at guard
    obtain ⟨all, count, absent⟩ := guard
    refine ⟨apart, fun item _ posted => all item.delegationId posted, ?_⟩
    unfold Turn.InRound
    rw [Finset.erase_eq_of_notMem absent]
    exact ⟨Nat.succ_le_succ count, within⟩
  | next item rest accumulated at_ =>
    rw [at_] at guard
    obtain ⟨apart, knows, within⟩ := guard
    rw [map_cons, nodup_cons] at apart
    exact ⟨apart.2, fun x inside => knows x (mem_cons_of_mem _ inside), within⟩
  | reserve item target rest accumulated at_ unknown =>
    rw [at_] at guard
    obtain ⟨apart, knows, within⟩ := guard
    refine ⟨apart, fun x inside => knows x (mem_cons_of_mem _ inside), within, ?_⟩
    intro posted
    obtain ⟨d, inside, same⟩ := mem_map.1 (knows item (by simp) posted)
    exact unknown d inside same
  | _ => exact guard_of_unguarded rfl

theorem Turn.Guard.afterWrite {w' : World} {event : TaskEvent} {ok : Bool} (guard : t.Guard c w')
    (pending : t.pending = some event) (grown : ok = true → ∃ log, w'.log = log ++ [event]) :
    (t.afterWrite ok).Guard c w' := by
  unfold Turn.Guard at guard
  have line := written pending ok
  generalize t.afterWrite ok = t' at line ⊢
  cases line with
  | @reply id at_ =>
    -- the reply changes neither the delegations known nor the rounds
    rw [at_] at guard
    obtain ⟨all, count, absent⟩ := guard
    refine ⟨?_, ?_, absent⟩
    · intro id' posted
      have known := all id' posted
      simp only [knownIds, delegations, withReply] at known ⊢
      cases record : t.record with
      | none => simp [record] at known
      | some m =>
        simp only [record, Option.map_some, Option.getD_some, mem_map] at known ⊢
        obtain ⟨d, inside, same⟩ := known
        simp only [repliedDelegations, delegations, record, Option.map_some, Option.getD_some, mem_map]
        refine ⟨_, ⟨d, inside, rfl⟩, ?_⟩
        split <;> exact same
    · cases record : t.record with
      | none | some m => simpa [rounds, record, withReply] using count
  | delegation at_ =>
    rw [at_] at guard
    simp only [Turn.pending, at_] at pending
    obtain ⟨apart, others, within, way⟩ := guard
    obtain ⟨log, grown⟩ := grown rfl
    cases pending
    refine ⟨apart, others, within, way, ?_, ?_⟩
    · rw [grown]
      exact Listed.of_event rfl ⟨_, mem_append_right _ (mem_singleton_self _), rfl⟩
    · rw [grown]
      exact Counted.of_event rfl
  | next at_ =>
    rw [at_] at guard
    obtain ⟨apart, others, within, way⟩ := guard
    exact ⟨(nodup_cons.1 apart).2, others, within⟩
  | _ => exact guard_of_unguarded rfl

end Line

/-! ## A delegation is posted -/

section Posting

variable {c : FlowConfig} {w w' : World} {t : Turn} {item : DelegateItem} {p : Post}

theorem postCount_eq_zero {run : RunId} {key : SideEffectKey} (never : ¬ w.Posted run key) :
    w.postCount run key = 0 := by
  rw [postCount, countP_eq_zero]
  intro p inside same
  simp only [Bool.and_eq_true, decide_eq_true_eq] at same
  exact never ⟨p, inside, same⟩

theorem postingTurns_append (own : p.isDelegation = true) (added : w'.posts = w.posts ++ [p]) (run : RunId) :
    w'.postingTurns run = if p.run = run then insert p.turn (w.postingTurns run)
      else w.postingTurns run := by
  split
  next same =>
    simp [postingTurns, added, filter_append, own, same]
  next other => simp [postingTurns, added, filter_append, other]

theorem Delegated.deliver (inv : Delegated c w) (item : DelegateItem) (text : String)
    (within : t.InRound c w) (way : t.OnWay w item .post) (log : w'.log = w.log) (turns : w'.turns = w.turns)
    (added : w'.posts = w.posts ++ [⟨t.run, .delegate item.delegationId, text, w.turns⟩])
    (guard : ∀ t', w'.turn = some t' → t'.Guard c w') : Delegated c w' := by
  obtain ⟨unposted, listed, counted⟩ := way
  have grown := postingTurns_append rfl added
  have round : ∀ run, (w'.postingTurns run).card ≤ (w.postingTurns run).card ∨
      run = t.run ∧ (w'.postingTurns run).card ≤ t.delegationRounds := by
    intro run
    rw [grown]
    split
    next same =>
      refine .inr ⟨same.symm, le_trans ?_ within.1⟩
      rw [← same]
      have shape : insert w.turns (w.postingTurns t.run) =
          insert w.turns ((w.postingTurns t.run).erase w.turns) := by grind -linarith
      rw [shape]
      exact Finset.card_insert_le _ _
    next => exact .inl (le_refl _)
  refine ⟨?_, ?_, ?_, ?_, ?_, guard⟩
  · intro run id
    have before := inv.once run id
    rw [postCount, added, countP_append, countP_singleton]
    split
    next same =>
      simp only [Bool.and_eq_true, decide_eq_true_eq, SideEffectKey.delegate.injEq] at same
      have zero := postCount_eq_zero unposted
      rw [same.1, same.2, postCount] at zero
      omega
    next => exact before
  · intro run id posted
    rw [log]
    obtain ⟨q, inside, own, key⟩ := posted
    rw [added] at inside
    rcases mem_concat inside with old | rfl
    · exact inv.listed run id ⟨q, old, own, key⟩
    cases own
    cases key
    exact listed
  · intro q inside
    rw [added] at inside
    rw [turns]
    rcases mem_concat inside with old | rfl
    · exact inv.numbered q old
    · exact le_refl _
  · intro run
    rcases round run with same | ⟨rfl, few⟩
    · exact le_trans same (inv.bounded run)
    · exact le_trans few within.2
  · intro run m found active
    rw [log] at found
    rcases round run with same | ⟨rfl, few⟩
    · exact le_trans same (inv.counted run m found active)
    · exact le_trans few (counted m found active)

end Posting

/-! ## Every step -/

section Steps

variable {c : FlowConfig} {w w' : World}

theorem Delegated.fresh (inv : Delegated c w) {t : Turn} (fresh : Fresh w t) : t.Guard c (w.begin t) := by
  have quiet : Quiet w (w.begin t) := ⟨.inl rfl, .inl rfl, Nat.le_succ _⟩
  have new : w.turns + 1 ∉ w.postingTurns t.run := by
    intro inside
    obtain ⟨_, p, posted, -, -, number⟩ := mem_postingTurns.1 inside
    have := inv.numbered p posted
    omega
  rcases fresh.start with ⟨-, content, payload, safe, phase, -⟩ | ⟨record, active, phase⟩
  · exact guard_of_unguarded (by rw [phase]; rfl)
  have start : (∀ id, (w.begin t).Posted t.run (.delegate id) → id ∈ t.knownIds) ∧
      ((w.begin t).postingTurns t.run).card ≤ t.rounds ∧
      (w.begin t).turns ∉ (w.begin t).postingTurns t.run := by
    refine ⟨?_, ?_, ?_⟩
    · intro id posted
      obtain ⟨m, found, entered⟩ := inv.listed t.run id (quiet.posted.1 posted)
      have loaded : t.record = some m := record.trans found
      rcases entered with closed | ⟨d, inside, same⟩
      · rw [active m loaded] at closed
        cases closed
      · exact mem_map.2 ⟨d, by simpa [delegations, loaded] using inside, same⟩
    · rw [quiet.postingTurns]
      cases loaded : t.record with
      | none =>
        rw [inv.unposted (record.symm.trans loaded)]
        exact Nat.zero_le _
      | some m =>
        have counted := inv.counted t.run m (record.symm.trans loaded) (active m loaded)
        simpa [rounds, loaded] using counted
    · rw [quiet.postingTurns]
      exact new
  unfold Turn.Guard
  rcases phase with ⟨flow, -⟩ | ⟨id, replying, -⟩
  · rw [flow]
    exact start
  · rw [replying]
    exact start

theorem Delegated.post (inv : Delegated c w) {t : Turn} {key : SideEffectKey} {text : String}
    {outcome : PostOutcome} (busy : w.turn = some t) (pending : t.pendingPost c = some (key, text)) :
    Delegated c { w with
      posts := w.record t key text outcome, turn := some (t.afterPost outcome) } := by
  have guard := inv.guard t busy
  unfold pendingPost at pending
  split at pending
  next text' at_ =>
    cases pending
    refine inv.quiet ⟨?_, .inl rfl, le_refl _⟩ ?_
    · unfold World.record
      cases outcome.landed with
      | false => exact .inl rfl
      | true => exact .inr ⟨_, rfl, rfl, le_refl _⟩
    · rintro t' ⟨⟩
      refine guard_of_unguarded ?_
      unfold afterPost
      rw [at_]
      cases outcome <;> rfl
  next item target rest accumulated at_ =>
    cases pending
    unfold Turn.Guard at guard
    rw [at_] at guard
    obtain ⟨apart, others, within, way⟩ := guard
    cases landed : outcome.landed with
    | false =>
      refine inv.quiet ⟨.inl (by simp [World.record, landed]), .inl rfl, le_refl _⟩ ?_
      rintro t' ⟨⟩
      refine guard_of_unguarded ?_
      cases outcome with
      | posted messageId => cases landed
      | raised landed => simp [afterPost, at_, mark, Phase.guarded]
    | true =>
      have added : w.record t (.delegate item.delegationId) (t.delegationText c item target) outcome =
          w.posts ++ [⟨t.run, .delegate item.delegationId, t.delegationText c item target, w.turns⟩] := by
        simp [World.record, landed]
      refine inv.deliver item _ within way rfl rfl added ?_
      rintro t' ⟨⟩
      cases outcome with
      | raised landed => exact guard_of_unguarded (by simp [afterPost, at_, mark, Phase.guarded])
      | posted messageId =>
        have phase : (t.afterPost (.posted messageId)).phase =
            .delegation item target rest accumulated (.confirm messageId) := by
          simp [afterPost, at_]
        have moved := afterPost_moved (t := t) (.posted messageId)
        have rounds : (t.afterPost (.posted messageId)).delegationRounds = t.delegationRounds := by
          simp [afterPost, at_]
        unfold Turn.Guard
        rw [phase]
        refine ⟨apart, ?_, ?_, trivial⟩
        · intro x inside posted
          rw [moved.run] at posted
          rw [show (t.afterPost (.posted messageId)).knownIds = t.knownIds by
            simp [knownIds, delegations, moved.record]]
          refine others x inside ?_
          obtain ⟨p, listed, own, key⟩ := posted
          rw [added] at listed
          rcases mem_concat listed with old | rfl
          · exact ⟨p, old, own, key⟩
          rw [map_cons, nodup_cons] at apart
          refine absurd ?_ apart.1
          rw [SideEffectKey.delegate.inj key]
          exact mem_map_of_mem inside
        · unfold Turn.InRound
          rw [moved.run, rounds, postingTurns_append rfl added, if_pos rfl, Finset.erase_insert_eq_erase]
          exact within
  next => cases pending

theorem Delegated.step {event : World.RoomEvent} (inv : Delegated c w)
    (stepped : w.step c event = some w') : Delegated c w' := by
  cases step_act stepped with
  | pass m idle =>
    refine inv.quiet ⟨.inl rfl, .inl rfl, Nat.le_succ _⟩ ?_
    intro t busy
    cases busy.symm.trans idle
  | begin t idle fresh =>
    refine inv.quiet ⟨.inl rfl, .inl rfl, Nat.le_succ _⟩ ?_
    rintro t' ⟨⟩
    exact inv.fresh fresh
  | line t t' busy inner =>
    have quiet : Quiet w { w with turn := some t' } := ⟨.inl rfl, .inl rfl, le_refl _⟩
    have here : t.Guard c { w with turn := some t' } :=
      (inv.guard t busy).quiet quiet rfl rfl rfl rfl rfl
    refine inv.quiet quiet ?_
    rintro _ ⟨⟩
    exact here.line (line_cases inner)
  | write t event ok busy pending =>
    have quiet : Quiet w { w with
        log := if ok then w.log ++ [event] else w.log, turn := some (t.afterWrite ok) } := by
      refine ⟨.inl rfl, ?_, le_refl _⟩
      cases ok with
      | false => exact .inl rfl
      | true => exact .inr ⟨event, rfl⟩
    refine inv.quiet quiet ?_
    rintro _ ⟨⟩
    refine ((inv.guard t busy).quiet quiet rfl rfl rfl rfl rfl).afterWrite pending ?_
    rintro rfl
    exact ⟨w.log, rfl⟩
  | post t key text outcome busy pending => exact inv.post busy pending
  | callSend t t' text busy inner =>
    have quiet : Quiet w { w with turn := some t' } := ⟨.inl rfl, .inl rfl, le_refl _⟩
    have aside := callSend_aside inner
    refine inv.quiet quiet ?_
    rintro _ ⟨⟩
    exact (inv.guard t busy).quiet quiet rfl aside.phase aside.run aside.record aside.rounds
  | writeSend t i send event ok busy found pending =>
    refine inv.quiet ?quiet ?_
    case quiet =>
      refine ⟨.inl rfl, ?_, le_refl _⟩
      cases ok with
      | false => exact .inl rfl
      | true => exact .inr ⟨event, rfl⟩
    rintro _ ⟨⟩
    refine (inv.guard t busy).quiet ⟨.inl rfl, ?_, le_refl _⟩ rfl rfl rfl rfl rfl
    cases ok with
    | false => exact .inl rfl
    | true => exact .inr ⟨event, rfl⟩
  | postSend t i send outcome busy found posting =>
    have quiet : Quiet w { w with
        posts := w.record t (.subcrew send.n) send.text outcome
        turn := some (t.setSend i send (sendAfterPost send.phase outcome)) } := by
      refine ⟨?_, .inl rfl, le_refl _⟩
      unfold World.record
      cases outcome.landed with
      | false => exact .inl rfl
      | true => exact .inr ⟨_, rfl, rfl, le_refl _⟩
    refine inv.quiet quiet ?_
    rintro _ ⟨⟩
    exact (inv.guard t busy).quiet quiet rfl rfl rfl rfl rfl
  | dropSend t i send busy found running =>
    refine inv.quiet ⟨.inl rfl, .inl rfl, le_refl _⟩ ?_
    rintro _ ⟨⟩
    exact (inv.guard t busy).quiet ⟨.inl rfl, .inl rfl, le_refl _⟩ rfl rfl rfl rfl rfl
  | ends t normal busy =>
    refine inv.quiet ⟨.inl rfl, .inl rfl, le_refl _⟩ ?_
    rintro t' ⟨⟩

end Steps

theorem delegated_of_reachable {c : FlowConfig} {w : World} (reached : (room c).Reachable w) :
    Delegated c w := by
  refine reached.invariant ?_ fun w event w' inv stepped => inv.step stepped
  rintro w rfl
  refine ⟨?_, ?_, ?_, ?_, ?_, ?_⟩ <;>
    simp [postCount, World.Posted, postingTurns, Counted]

/-- **A delegation goes out once.**  In every run of a room, and at most
`max_delegation_rounds` turns of a run post a delegation. -/
theorem delegations_at_most_once {c : FlowConfig} {w : World} (reached : (room c).Reachable w)
    (run : RunId) : (∀ id, w.postCount run (.delegate id) ≤ 1) ∧
      (w.postingTurns run).card ≤ c.maxDelegationRounds :=
  ⟨(delegated_of_reachable reached).once run, (delegated_of_reachable reached).bounded run⟩

/-- The turn crashes after the post; the message is delivered again, and the Flow
decides the same. -/
def askedTwice : List World.RoomEvent :=
  [delivered request, .flowReturns ask, .proceed, .write true, .post (.posted (some 2)), .crash,
    delivered request, .flowReturns ask, .proceed, .write true, .close]

theorem delegations_at_most_once_asked : ∃ w, (room smallConfig).Reachable w ∧
    w.postCount 1 (.delegate 7) = 1 ∧ (w.log.map TaskEvent.content) =
      [.reserve (.delegate 7), .indeterminate (.delegate 7)] ∧
    (w.postingTurns 1).card ≤ 4 := by
  have ran : ((room smallConfig).run emptyRoom askedTwice).map
      (fun w => (w.postCount 1 (.delegate 7), w.log.map TaskEvent.content)) =
        some (1, [.reserve (.delegate 7), .indeterminate (.delegate 7)]) := by decide +kernel
  obtain ⟨w, path, facts⟩ := Option.map_eq_some_iff.1 ran
  have reached : (room smallConfig).Reachable w := ⟨_, rfl, askedTwice, path⟩
  exact ⟨w, reached, (Prod.mk.inj facts).1, (Prod.mk.inj facts).2, (delegations_at_most_once reached 1).2⟩

end BandSdk.CrewFlow

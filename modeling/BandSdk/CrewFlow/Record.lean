/-
# CrewFlow.Record -- what a folded record remembers of its log

`recordOf log run` is the run's record before ageing.  It meets the run's events
one by one (`recordOf_append`), and until one of them is terminal it has met them
all: a delegation entry or a side effect once written stays, the number of rounds
never falls, and the final message id is one that some event carried, whichever
side effect that was.
-/
import BandSdk.CrewFlow.Turn
import Mathlib.Data.List.Induction

namespace BandSdk.CrewFlow

open BandSdk.Theory List Keyed

def recordOf (log : List TaskEvent) (run : RunId) : Option Metadata :=
  Runs.get (log.foldl foldEvent []) run

section Fold

variable {log : List TaskEvent} {run : RunId} {event : TaskEvent} {m : Metadata}

theorem recordOf_append : recordOf (log ++ [event]) run =
    if event.run = run then some (absorb (recordOf log run) event.payload) else recordOf log run := by
  simp only [recordOf, foldl_append, foldl_cons, foldl_nil, foldEvent, Runs.get]
  rw [get_setItem]
  split
  next same => rw [same]
  next => rfl

theorem recordOf_append_other (other : event.run ≠ run) : recordOf (log ++ [event]) run = recordOf log run := by
  rw [recordOf_append, if_neg other]

theorem apart_fold (log : List TaskEvent) : ((log.foldl foldEvent []).map Prod.fst).Nodup := by
  induction log using reverseRecOn with
  | nil => simp
  | append_singleton log event ih =>
    rw [foldl_append]
    exact nodup_setItem ih

/-! ## The converted state -/

/-- A run the converter leaves open is in its state as the fold left it. -/
theorem recordOf_of_mem {aged : RunId → Bool} (inside : (run, m) ∈ convert aged log)
    (active : m.isTerminal = false) : recordOf log run = some m := by
  obtain ⟨pair, folded, shape⟩ := mem_map.1 inside
  have kept : pair = (run, m) := by
    unfold ageOut at shape
    split at shape
    · cases shape
      cases active
    · exact shape
  subst kept
  exact get_of_mem (apart_fold log) folded

theorem mem_of_get {runs : Runs} (found : runs.get run = some m) : (run, m) ∈ runs := by
  obtain ⟨pair, inside, rfl⟩ := Option.map_eq_some_iff.1 found
  obtain rfl : pair.1 = run := by simpa using List.find?_some inside
  exact mem_of_find?_eq_some inside

theorem get_map_none {runs : Runs} {f : RunId × Metadata → RunId × Metadata}
    (keeps : ∀ pair, (f pair).1 = pair.1) (absent : Runs.get (runs.map f) run = none) :
    Runs.get runs run = none := by
  induction runs with
  | nil => rfl
  | cons pair rest ih =>
    simp only [Runs.get, map_cons, get_cons, keeps] at absent ih ⊢
    split at absent
    · cases absent
    · rw [if_neg ‹_›]
      exact ih absent

theorem ageOut_fst (aged : RunId → Bool) (pair : RunId × Metadata) : (ageOut aged pair).1 = pair.1 := by
  unfold ageOut
  split <;> rfl

/-- The state of a run that is not terminal is the fold's. -/
theorem get_convert {aged : RunId → Bool} (active : (convert aged log).isTerminal run = false) :
    (convert aged log).get run = recordOf log run := by
  cases found : (convert aged log).get run with
  | none => exact (get_map_none (ageOut_fst aged) found).symm
  | some m =>
    have open' : m.isTerminal = false := by simpa [Runs.isTerminal, found] using active
    exact (recordOf_of_mem (mem_of_get found) open').symm

theorem matchReply_active {refToken : RunId → DelegationId → String} {message : Message}
    {runs : Runs} {id : DelegationId} (matched : matchReply refToken message runs = .delegation run id m) :
    (run, m) ∈ runs ∧ m.isTerminal = false := by
  unfold matchReply at matched
  split at matched
  · split at matched <;> cases matched
  split at matched
  · cases matched
  rename_i sender _ _
  -- whatever the token, the one hit is a candidate
  have within : ∀ x ∈ candidates runs sender, (x.1, x.2.2) ∈ runs ∧ x.2.2.isTerminal = false := by
    intro x inside
    obtain ⟨pair, active, mapped⟩ := mem_flatMap.1 inside
    obtain ⟨d, -, rfl⟩ := mem_map.1 mapped
    simpa [activeRuns] using active
  dsimp only at matched
  split at matched
  next run' d record single =>
    cases matched
    refine within (run, d, m) ?_
    split at single
    · exact mem_of_mem_filter (single ▸ mem_singleton_self _)
    · exact single ▸ mem_singleton_self _
  next =>
    unfold ambiguity at matched
    split at matched <;> cases matched

end Fold

/-! ## One event -/

section Absorb

variable {r : Option Metadata} {m p : Metadata} {id : DelegationId}

theorem absorb_terminal (closed : m.isTerminal = true) : absorb (some m) p = m := by
  simp [absorb, closed]

/-- A record left open by an event was open before, and met it. -/
theorem of_absorb_open (active : (absorb r p).isTerminal = false) :
    (r = none ∧ absorb r p = p) ∨ ∃ m, r = some m ∧ m.isTerminal = false ∧ absorb r p = merge m p := by
  cases r with
  | none => exact .inl ⟨rfl, rfl⟩
  | some m =>
    cases closed : m.isTerminal with
    | true => rw [absorb_terminal closed, closed] at active; cases active
    | false => exact .inr ⟨m, rfl, closed, by simp [absorb, closed]⟩

theorem merge_isTerminal : (merge m p).isTerminal = p.isTerminal := rfl

/-- An open record takes an event's status. -/
theorem absorb_isTerminal (closes : p.isTerminal = true) : (absorb r p).isTerminal = true := by
  cases r with
  | none => exact closes
  | some m =>
    cases closed : m.isTerminal with
    | true => rw [absorb_terminal closed, closed]
    | false =>
      have shape : absorb (some m) p = merge m p := by simp [absorb, closed]
      rw [shape, merge_isTerminal, closes]

/-! ## Delegations -/

/-- The run is closed, or its record has an entry for the delegation. -/
def Entered (id : DelegationId) (m : Metadata) : Prop :=
  m.isTerminal = true ∨ ∃ d ∈ m.delegations, d.delegationId = id

theorem mem_mergeDelegations {d : Delegation} {existing incoming : List Delegation}
    (inside : d ∈ mergeDelegations existing incoming) : d ∈ existing ∨ d ∈ incoming := by
  rcases mem_putAll_replace inside with new | old
  · exact .inr new
  rcases mem_putAll_replace old with old | none
  · exact .inl old
  · cases none

theorem id_mem_mergeDelegations {existing incoming : List Delegation} :
    (∃ d ∈ mergeDelegations existing incoming, d.delegationId = id) ↔
      (∃ d ∈ incoming, d.delegationId = id) ∨ ∃ d ∈ existing, d.delegationId = id := by
  unfold mergeDelegations
  rw [key_mem_putAll key_replace, key_mem_putAll key_replace]
  simp

theorem Entered.absorb (entered : ∃ m, r = some m ∧ Entered id m) : Entered id (absorb r p) := by
  obtain ⟨m, rfl, closed | known⟩ := entered
  · rw [absorb_terminal closed]
    exact .inl closed
  · cases closed : m.isTerminal with
    | true =>
      rw [absorb_terminal closed]
      exact .inl closed
    | false =>
      have shape : CrewFlow.absorb (some m) p = merge m p := by simp [CrewFlow.absorb, closed]
      rw [shape]
      exact .inr (id_mem_mergeDelegations.2 (.inr known))

theorem entered_absorb (listed : ∃ d ∈ p.delegations, d.delegationId = id) : Entered id (absorb r p) := by
  cases r with
  | none => exact .inr listed
  | some m =>
    cases closed : m.isTerminal with
    | true =>
      rw [absorb_terminal closed]
      exact .inl closed
    | false =>
      have shape : absorb (some m) p = merge m p := by simp [absorb, closed]
      rw [shape]
      exact .inr (id_mem_mergeDelegations.2 (.inl listed))

end Absorb

/-! ## Over a log -/

section Log

variable {log : List TaskEvent} {run : RunId} {m : Metadata}

/-- A record is closed, or it met every event of its run: the rule for what an open
record remembers. -/
theorem open_induction {P : List TaskEvent → Metadata → Prop}
    (first : ∀ log event, recordOf log run = none → event.run = run → P (log ++ [event]) event.payload)
    (next : ∀ log event m, recordOf log run = some m → P log m → event.run = run →
      P (log ++ [event]) (merge m event.payload))
    (other : ∀ log event m, P log m → event.run ≠ run → P (log ++ [event]) m)
    (found : recordOf log run = some m) (active : m.isTerminal = false) : P log m := by
  induction log using reverseRecOn generalizing m with
  | nil => cases found
  | append_singleton log event ih =>
    by_cases own : event.run = run
    · rw [recordOf_append, if_pos own] at found
      cases found
      rcases of_absorb_open active with ⟨absent, shape⟩ | ⟨m, before, active', shape⟩
      · rw [shape]
        exact first log event absent own
      · rw [shape]
        exact next log event m before (ih before active') own
    · rw [recordOf_append_other own] at found
      exact other log event m (ih found active) own

theorem recordOf_eq_none : recordOf log run = none ↔ ∀ event ∈ log, event.run ≠ run := by
  induction log using reverseRecOn with
  | nil => simp [recordOf, Runs.get]
  | append_singleton log event ih =>
    rw [recordOf_append]
    split
    next own => simp [own]
    next other =>
      rw [ih]
      grind -linarith

theorem mem_delegations_recordOf {d : Delegation} (found : recordOf log run = some m)
    (inside : d ∈ m.delegations) : ∃ event ∈ log, event.run = run ∧ d ∈ event.payload.delegations := by
  induction log using reverseRecOn generalizing m with
  | nil => cases found
  | append_singleton log event ih =>
    have older : (∃ e ∈ log, e.run = run ∧ d ∈ e.payload.delegations) →
        ∃ e ∈ log ++ [event], e.run = run ∧ d ∈ e.payload.delegations := by
      rintro ⟨e, within, rest⟩
      exact ⟨e, mem_append_left _ within, rest⟩
    by_cases own : event.run = run
    · rw [recordOf_append, if_pos own] at found
      cases found
      cases before : recordOf log run with
      | none =>
        rw [before] at inside
        exact ⟨event, by simp, own, inside⟩
      | some m =>
        rw [before] at inside
        unfold absorb at inside
        dsimp only at inside
        split at inside
        · exact older (ih before inside)
        rcases mem_mergeDelegations inside with old | new
        · exact older (ih before old)
        · exact ⟨event, by simp, own, new⟩
    · rw [recordOf_append_other own] at found
      exact older (ih found inside)

theorem delegations_kept {event : TaskEvent} {d : Delegation} (found : recordOf log run = some m)
    (active : m.isTerminal = false) (inside : event ∈ log) (own : event.run = run)
    (listed : d ∈ event.payload.delegations) :
    ∃ d' ∈ m.delegations, d'.delegationId = d.delegationId := by
  suffices all : ∀ event ∈ log, event.run = run → d ∈ event.payload.delegations →
      ∃ d' ∈ m.delegations, d'.delegationId = d.delegationId from all event inside own listed
  refine open_induction (P := fun log m => ∀ event ∈ log, event.run = run →
    d ∈ event.payload.delegations → ∃ d' ∈ m.delegations, d'.delegationId = d.delegationId)
    ?_ ?_ ?_ found active
  · intro log e absent own' event inside own listed
    rcases mem_concat inside with old | rfl
    · exact absurd own (recordOf_eq_none.1 absent event old)
    · exact ⟨d, listed, rfl⟩
  · intro log e m _ ih _ event inside own listed
    refine id_mem_mergeDelegations.2 ?_
    rcases mem_concat inside with old | rfl
    · exact .inr (ih event old own listed)
    · exact .inl ⟨d, listed, rfl⟩
  · intro log e m ih other event inside own listed
    rcases mem_concat inside with old | rfl
    · exact ih event old own listed
    · exact absurd own other

/-! ## Side effects -/

theorem mem_mergeSideEffects {x : SideEffect} {existing incoming : List SideEffect}
    (short : incoming.length ≤ 1) (inside : x ∈ mergeSideEffects existing incoming) :
    (x ∈ existing ∧ ∀ y ∈ incoming, y.key ≠ x.key) ∨ (x ∈ incoming ∧ ∀ y ∈ existing, y.key ≠ x.key) ∨
      ∃ y ∈ existing, ∃ z ∈ incoming, y.key = z.key ∧ x = y.combine z := by
  match incoming, short with
  | [], _ =>
    rcases mem_putAll_replace inside with old | none
    · exact .inl ⟨old, by simp⟩
    · cases none
  | [z], _ =>
    have apart : ((putAll SideEffect.key replace existing []).map SideEffect.key).Nodup :=
      nodup_putAll key_replace (by simp)
    have within : ∀ y ∈ putAll SideEffect.key replace existing [], y ∈ existing := by
      intro y inside
      rcases mem_putAll_replace inside with old | none
      · exact old
      · cases none
    rcases mem_put apart inside with ⟨old, differs⟩ | ⟨rfl, absent⟩ | ⟨y, old, same, rfl⟩
    · exact .inl ⟨within x old, by simpa using Ne.symm differs⟩
    · refine .inr (.inl ⟨by simp, ?_⟩)
      intro y inside same
      obtain ⟨y', inside', same'⟩ : ∃ y' ∈ putAll SideEffect.key replace existing [],
          y'.key = x.key := (key_mem_putAll key_replace).2 (.inl ⟨y, inside, same⟩)
      exact absent y' inside' same'
    · exact .inr (.inr ⟨y, within y old, z, by simp, same, rfl⟩)

theorem key_mem_mergeSideEffects {k : SideEffectKey} {existing incoming : List SideEffect} :
    (∃ x ∈ mergeSideEffects existing incoming, x.key = k) ↔
      (∃ x ∈ incoming, x.key = k) ∨ ∃ x ∈ existing, x.key = k := by
  have keeps : ∀ a b : SideEffect, a.key = b.key → (a.combine b).key = b.key := fun a b same => same
  unfold mergeSideEffects
  rw [key_mem_putAll keeps, key_mem_putAll key_replace]
  simp

/-- An event of the run writes side effect `k`. -/
def Touched (log : List TaskEvent) (run : RunId) (k : SideEffectKey) : Prop :=
  ∃ event ∈ log, event.run = run ∧ ∃ x ∈ event.payload.sideEffects, x.key = k

/-- An event of the run writes side effect `k` with its message id. -/
def Carried (log : List TaskEvent) (run : RunId) (k : SideEffectKey) : Prop :=
  ∃ event ∈ log, event.run = run ∧ ∃ x ∈ event.payload.sideEffects, x.key = k ∧ x.messageId.isSome = true

/-- What an open record knows of its side effects. -/
structure Remembers (log : List TaskEvent) (run : RunId) (m : Metadata) : Prop where
  touched : ∀ k, (∃ x ∈ m.sideEffects, x.key = k) ↔ Touched log run k
  carried : ∀ x ∈ m.sideEffects, x.messageId.isSome = true ↔ Carried log run x.key
  message : m.finalMessageId.isSome = true ↔
    ∃ event ∈ log, event.run = run ∧ event.payload.finalMessageId.isSome = true

theorem eq_singleton {effects : List SideEffect} {x : SideEffect} (short : effects.length ≤ 1)
    (inside : x ∈ effects) : effects = [x] := by
  match effects, short, inside with
  | [y], _, inside => rw [mem_singleton.1 inside]

theorem exists_mem_concat {event : TaskEvent} {P : TaskEvent → Prop} :
    (∃ e ∈ log ++ [event], P e) ↔ (∃ e ∈ log, P e) ∨ P event := by
  simp only [mem_append, mem_singleton, or_and_right, exists_or, exists_eq_left]

theorem Remembers.first {event : TaskEvent} (absent : recordOf log run = none)
    (own : event.run = run) (short : event.payload.sideEffects.length ≤ 1) :
    Remembers (log ++ [event]) run event.payload := by
  have none : ∀ {P : TaskEvent → Prop}, ¬ ∃ e ∈ log, e.run = run ∧ P e := by
    rintro P ⟨e, inside, same, -⟩
    exact recordOf_eq_none.1 absent e inside same
  refine ⟨?_, ?_, ?_⟩
  · intro k
    simp [Touched, none, own]
  · intro x inside
    have only := eq_singleton short inside
    simp [Carried, none, own, only]
  · simp [none, own]

theorem Remembers.next {event : TaskEvent} (before : Remembers log run m) (own : event.run = run)
    (short : event.payload.sideEffects.length ≤ 1) :
    Remembers (log ++ [event]) run (merge m event.payload) := by
  refine ⟨?_, ?_, ?_⟩
  · intro k
    have grown : (∃ x ∈ (merge m event.payload).sideEffects, x.key = k) ↔
        (∃ x ∈ event.payload.sideEffects, x.key = k) ∨ ∃ x ∈ m.sideEffects, x.key = k :=
      key_mem_mergeSideEffects
    rw [grown, before.touched k]
    simp only [Touched, exists_mem_concat, own, true_and]
    exact or_comm
  · intro x inside
    have split : Carried (log ++ [event]) run x.key ↔ Carried log run x.key ∨
        ∃ y ∈ event.payload.sideEffects, y.key = x.key ∧ y.messageId.isSome = true := by
      simp only [Carried, exists_mem_concat, own, true_and]
    rw [split]
    have inside : x ∈ mergeSideEffects m.sideEffects event.payload.sideEffects := inside
    rcases mem_mergeSideEffects short inside with ⟨old, others⟩ | ⟨new, absent⟩ |
      ⟨y, old, z, new, same, rfl⟩
    · rw [before.carried x old]
      have : ¬ ∃ y ∈ event.payload.sideEffects, y.key = x.key ∧ y.messageId.isSome = true := by
        rintro ⟨y, within, same, -⟩
        exact others y within same
      simp only [this, or_false]
    · have untouched : ¬ Carried log run x.key := by
        rintro ⟨e, within, own', y, listed, same, -⟩
        obtain ⟨y', old, same'⟩ := (before.touched x.key).2 ⟨e, within, own', y, listed, same⟩
        exact absent y' old same'
      have only := eq_singleton short new
      simp [untouched, only]
    · have only := eq_singleton short new
      have known := before.carried y old
      simp only [SideEffect.combine, only, mem_singleton, exists_eq_left, same, true_and,
        Option.isSome_or, Bool.or_eq_true] at known ⊢
      rw [known]
      exact or_comm
  · have shape : (merge m event.payload).finalMessageId =
        event.payload.finalMessageId.or m.finalMessageId := rfl
    rw [shape, Option.isSome_or, Bool.or_eq_true, before.message, exists_mem_concat]
    simp only [own, true_and]
    exact or_comm

/-- **An open record remembers its side effects.** -/
theorem remembers_of_open (short : ∀ event ∈ log, event.payload.sideEffects.length ≤ 1)
    (found : recordOf log run = some m) (active : m.isTerminal = false) : Remembers log run m := by
  revert short
  refine open_induction (P := fun log m => (∀ event ∈ log, event.payload.sideEffects.length ≤ 1) →
    Remembers log run m) ?_ ?_ ?_ found active
  · intro log event absent own short
    exact Remembers.first absent own (short event (by simp))
  · intro log event m _ ih own short
    exact (ih fun e inside => short e (mem_append_left _ inside)).next own
      (short event (by simp))
  · intro log event m ih other short
    have before := ih fun e inside => short e (mem_append_left _ inside)
    refine ⟨?_, ?_, ?_⟩
    · intro k
      rw [before.touched k]
      simp [Touched, other]
    · intro x inside
      rw [before.carried x inside]
      simp [Carried, other]
    · rw [before.message]
      simp [other]

end Log

end BandSdk.CrewFlow

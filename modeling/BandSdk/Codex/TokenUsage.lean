/-
# Codex.TokenUsage -- the tokens each turn reports as its own

Codex sends the totals of a thread.  A turn's usage is the rise from the totals held
when it started, so the turns of a thread should add up to the rise over all of them.

* The totals held never fall and no turn reports fewer than none: `step_rises`.
* A turn reports the right rise exactly when what is held at its start is the largest
  total so far, or it sees nothing above either: `addsUp_step_iff`; over a run,
  `addsUp_along_iff`.
* A thread with tokens from before is not held: its first turn reports them again.
-/
import Mathlib
import BandSdk.Theory.Histories
import BandSdk.Theory.Json

namespace BandSdk.Codex

open BandSdk.Theory List

inductive Counter where
  | input
  | output
  | reasoning
  | total

abbrev Counters := Counter → Int

def Counter.keys : Counter → List String
  | .input => ["inputTokens", "input_tokens"]
  | .output => ["outputTokens", "output_tokens"]
  | .reasoning => ["reasoningOutputTokens", "reasoningTokens", "reasoning_tokens"]
  | .total => ["totalTokens", "total_tokens"]

def fields : Json → Option (List (String × Json))
  | .obj fields => some fields
  | _ => none

def isPresent : Json → Bool
  | .null => false
  | _ => true

/-- The counters of a payload: `tokenUsage.total`, else `tokenUsage.last`; without
`tokenUsage`, `usage` or the payload itself. -/
def usageOf (params : List (String × Json)) : Option (List (String × Json)) :=
  match params.lookup "tokenUsage" with
  | some (.obj tokenUsage) =>
    let blocks := ["total", "last"].filterMap fun key => tokenUsage.lookup key
    ((blocks.find? Json.truthy).map fields).getD (some [])
  | _ => (((params.lookup "usage").filter Json.truthy).map fields).getD (some params)

/-- `int` is Python's, `none` where it refuses the value. -/
def get (int : Json → Option Int) (usage : List (String × Json)) (keys : List String) : Int :=
  (((keys.filterMap fun key => usage.lookup key).find? isPresent).bind int).getD 0

/-- The totals a payload reports; `none` where it holds no counters. -/
def reported (int : Json → Option Int) (params : List (String × Json)) : Option Counters :=
  (usageOf params).map fun usage =>
    let new := fun counter => get int usage (Counter.keys counter)
    fun
    | .total => if new .total = 0 then new .input + new .output + new .reasoning else new .total
    | counter => new counter

/-- Totals never go backwards. -/
def raise (held new : Counters) : Counters := fun counter => max (held counter) (new counter)

structure CodexTokenUsage where
  cumulative : Counters
  turn : Counters
  anchor : Counters

namespace CodexTokenUsage

def initial : CodexTokenUsage := ⟨fun _ => 0, fun _ => 0, fun _ => 0⟩

def update (int : Json → Option Int) (usage : CodexTokenUsage) (params : List (String × Json)) :
    CodexTokenUsage :=
  match reported int params with
  | none => usage
  | some new => { usage with
      cumulative := raise usage.cumulative new
      turn := fun counter => max 0 (raise usage.cumulative new counter - usage.anchor counter) }

def resetTurnDeltas (usage : CodexTokenUsage) : CodexTokenUsage :=
  { usage with anchor := usage.cumulative, turn := fun _ => 0 }

end CodexTokenUsage

structure TurnUsage where
  inputTokens : Int
  outputTokens : Int
deriving DecidableEq

/-- Reasoning counts as output. -/
def turnUsage (usage : CodexTokenUsage) : TurnUsage :=
  ⟨usage.turn .input, usage.turn .output + usage.turn .reasoning⟩

/-- A thread in this process: the record held of it, if any, and the usage emitted.
`seen` is the largest total so far, whoever saw it. -/
structure Thread where
  usage : Option CodexTokenUsage
  emitted : List TurnUsage
  seen : Counters

/-- A turn with its usage events, which ends in an outcome or is cut off before; or the
thread is forgotten, when its room is left. -/
inductive Event where
  | turn (payloads : List (List (String × Json))) (outcome : Bool)
  | forget

namespace Thread

/-- What is held of the thread; a new record holds nothing. -/
def held (thread : Thread) : CodexTokenUsage := thread.usage.getD .initial

def step (int : Json → Option Int) (thread : Thread) : Event → Thread
  | .forget => { thread with usage := none }
  | .turn payloads outcome =>
    -- the turn is anchored only where a record exists already
    let usage := payloads.foldl (fun usage params => some ((usage.getD .initial).update int params))
      (thread.usage.map CodexTokenUsage.resetTurnDeltas)
    let spent := turnUsage (usage.getD .initial)
    { usage, seen := (payloads.filterMap (reported int)).foldl raise thread.seen
      emitted := if outcome ∧ spent ≠ ⟨0, 0⟩ then thread.emitted ++ [spent] else thread.emitted }

end Thread

def run (int : Json → Option Int) (base : Counters) (events : List Event) : Thread :=
  events.foldl (Thread.step int) ⟨none, [], base⟩

/-- What was emitted is the rise from `base` to the largest total seen. -/
def AddsUp (base : Counters) (thread : Thread) : Prop :=
  (thread.emitted.map (·.inputTokens)).sum = thread.seen .input - base .input ∧
  (thread.emitted.map (·.outputTokens)).sum =
    (thread.seen .output + thread.seen .reasoning) - (base .output + base .reasoning)

/-- What one step owes: the sums, totals that never fall and usage that is never negative. -/
structure Accounted (base : Counters) (before after : Thread) : Prop where
  addsUp : AddsUp base after
  rises : after.usage ≠ none → ∀ counter, before.held.cumulative counter ≤ after.held.cumulative counter
  nonneg : ∀ counter, 0 ≤ after.held.turn counter

/-- The largest total of the payloads, none counting as zero. -/
def peak (int : Json → Option Int) (payloads : List (List (String × Json))) : Counters :=
  (payloads.filterMap (reported int)).foldl raise fun _ => 0

/-- **What a turn needs.**  With an outcome, the largest total so far is held at its start, or it sees
nothing above what is held; cut off before, it sees no new largest total. -/
def Counted (int : Json → Option Int) (thread : Thread) : Event → Prop
  | .forget => True
  | .turn payloads outcome => ∀ counter ∈ [Counter.input, .output, .reasoning],
    if outcome then thread.held.cumulative counter = thread.seen counter ∨
      peak int payloads counter ≤ thread.held.cumulative counter
    else peak int payloads counter ≤ thread.seen counter

variable {int : Json → Option Int} {base : Counters} {thread : Thread}

theorem foldl_raise {held : Counters} (reports : List Counters) {counter : Counter}
    (nonneg : 0 ≤ held counter) :
    reports.foldl raise held counter = max (held counter) (reports.foldl raise (fun _ => 0) counter) := by
  induction reports using List.reverseRecOn with
  | nil => simp [nonneg]
  | append_singleton reports new ih =>
    simp only [foldl_append, foldl_cons, foldl_nil, raise, ih]
    omega

/-- Above a lower total, the rise to a peak is no less. -/
theorem rise_le {held seen : Int} (le : held ≤ seen) (peak : Int) :
    max seen peak - seen ≤ max held peak - held := by
  omega

theorem rise_eq_iff {held seen peak : Int} (le : held ≤ seen) :
    max held peak - held = max seen peak - seen ↔ held = seen ∨ peak ≤ held := by
  omega

/-- The turn's counters are the rise from the anchor. -/
structure Anchored (start : Counters) (usage : CodexTokenUsage) : Prop where
  anchor : usage.anchor = start
  turn : ∀ counter, usage.turn counter = usage.cumulative counter - start counter
  below : ∀ counter, start counter ≤ usage.cumulative counter

theorem Anchored.update {start : Counters} {usage : CodexTokenUsage} (anchored : Anchored start usage)
    (params : List (String × Json)) : Anchored start (usage.update int params) := by
  obtain ⟨rfl, turn, below⟩ := anchored
  unfold CodexTokenUsage.update
  cases reported int params with
  | none => exact ⟨rfl, turn, below⟩
  | some new =>
    have above : ∀ counter, usage.anchor counter ≤ raise usage.cumulative new counter :=
      fun counter => (below counter).trans (le_max_left ..)
    exact ⟨rfl, fun counter => max_eq_right (Int.sub_nonneg.2 (above counter)), above⟩

theorem held_turn (payloads : List (List (String × Json))) (outcome : Bool) :
    (thread.step int (.turn payloads outcome)).held.cumulative =
        (payloads.filterMap (reported int)).foldl raise thread.held.cumulative ∧
      Anchored thread.held.cumulative (thread.step int (.turn payloads outcome)).held := by
  simp only [Thread.step, Thread.held]
  induction payloads using List.reverseRecOn with
  | nil =>
    cases thread.usage with
    | none => exact ⟨rfl, rfl, fun _ => rfl, fun _ => le_rfl⟩
    | some usage => exact ⟨rfl, rfl, fun _ => (Int.sub_self _).symm, fun _ => le_rfl⟩
  | append_singleton payloads params ih =>
    obtain ⟨total, anchored⟩ := ih
    rw [foldl_append, foldl_cons, foldl_nil, Option.getD_some]
    refine ⟨?_, anchored.update params⟩
    rw [filterMap_append, foldl_append, ← total]
    unfold CodexTokenUsage.update
    cases shape : reported int params <;> simp [shape]

/-- What is held is no more than the largest total. -/
def Kept (thread : Thread) : Prop :=
  ∀ counter, 0 ≤ thread.held.cumulative counter ∧ thread.held.cumulative counter ≤ thread.seen counter

theorem Kept.step (kept : Kept thread) (event : Event) : Kept (thread.step int event) := by
  intro counter
  obtain ⟨nonneg, le⟩ := kept counter
  cases event with
  | forget => exact ⟨le_rfl, nonneg.trans le⟩
  | turn payloads outcome =>
    rw [(held_turn payloads outcome).1, foldl_raise _ nonneg]
    have seen : (thread.step int (.turn payloads outcome)).seen counter = _ :=
      foldl_raise _ (nonneg.trans le)
    rw [seen]
    omega

/-- One step keeps the sums right exactly when the turn has what it needs; the rest it keeps anyway. -/
theorem accounted_step_iff (kept : Kept thread) (adds : AddsUp base thread) (event : Event) :
    Accounted base thread (thread.step int event) ↔ Counted int thread event := by
  cases event with
  | forget => exact iff_of_true ⟨adds, fun held => absurd rfl held, fun _ => le_rfl⟩ trivial
  | turn payloads outcome =>
    obtain ⟨total, anchored⟩ := @held_turn int thread payloads outcome
    have largest : ∀ counter, (thread.step int (.turn payloads outcome)).seen counter =
        max (thread.seen counter) (peak int payloads counter) :=
      fun counter => foldl_raise _ ((kept counter).1.trans (kept counter).2)
    have rise : ∀ counter, (thread.step int (.turn payloads outcome)).held.turn counter =
        max (thread.held.cumulative counter) (peak int payloads counter) -
          thread.held.cumulative counter := by
      intro counter
      rw [anchored.turn, total, foldl_raise _ (kept counter).1]
      rfl
    generalize after : thread.step int (.turn payloads outcome) = thread' at *
    have emitted : thread'.emitted = if outcome ∧ turnUsage thread'.held ≠ ⟨0, 0⟩
        then thread.emitted ++ [turnUsage thread'.held] else thread.emitted := by
      rw [← after]
      rfl
    have spent : (thread'.emitted.map (·.inputTokens)).sum = (thread.emitted.map (·.inputTokens)).sum +
          (if outcome then thread'.held.turn .input else 0) ∧
        (thread'.emitted.map (·.outputTokens)).sum = (thread.emitted.map (·.outputTokens)).sum +
          (if outcome then thread'.held.turn .output + thread'.held.turn .reasoning else 0) := by
      rw [emitted]
      by_cases none_ : turnUsage thread'.held = ⟨0, 0⟩
      · obtain ⟨input, output⟩ := TurnUsage.mk.inj none_
        simp [none_, input, output]
      · cases outcome
        · simp
        · simp [none_]
          exact ⟨rfl, rfl⟩
    have above : ∀ counter, 0 ≤ thread'.held.turn counter := fun counter =>
      anchored.turn counter ▸ Int.sub_nonneg.2 (anchored.below counter)
    refine Iff.trans ⟨fun accounted => accounted.addsUp, fun adds' => ⟨adds', fun _ => anchored.below, above⟩⟩ ?_
    unfold AddsUp at adds ⊢
    rw [spent.1, spent.2]
    simp only [rise, largest, Counted, forall_mem_cons, not_mem_nil, false_implies, implies_true, and_true]
    have input := kept .input
    have output := kept .output
    have reasoning := kept .reasoning
    cases outcome with
    | false =>
      simp only [Bool.false_eq_true, if_false]
      omega
    | true =>
      simp only [if_true, ← rise_eq_iff input.2, ← rise_eq_iff output.2, ← rise_eq_iff reasoning.2]
      have less := fun counter => rise_le (kept counter).2 (peak int payloads counter)
      have input := less .input
      have output := less .output
      have reasoning := less .reasoning
      constructor
      · rintro ⟨inputs, outputs⟩
        refine ⟨?_, ?_, ?_⟩ <;> linarith
      · rintro ⟨inputs, outputs, reasonings⟩
        constructor <;> linarith

theorem kept_run (nonneg : ∀ counter, 0 ≤ base counter) (events : List Event) : Kept (run int base events) := by
  induction events using List.reverseRecOn with
  | nil => exact fun counter => ⟨le_rfl, nonneg counter⟩
  | append_singleton past event ih =>
    rw [run, foldl_append]
    exact ih.step event

/-- **The turns of a thread add up, in every state of a run, exactly when every step has what it
needs.**  `base` is what the thread had when the first turn started. -/
theorem accounted_along_iff (int : Json → Option Int) (base : Counters) (nonneg : ∀ counter, 0 ≤ base counter)
    (events : List Event) :
    Along (fun past event => Accounted base (run int base past) (run int base (past ++ [event]))) events ↔
      Along (fun past event => Counted int (run int base past) event) events := by
  have last : ∀ past event, run int base (past ++ [event]) = (run int base past).step int event := by
    intro past event
    rw [run, foldl_append]
    rfl
  induction events using List.reverseRecOn with
  | nil => exact ⟨fun _ => Along.nil, fun _ => Along.nil⟩
  | append_singleton past event ih =>
    rw [along_snoc, along_snoc]
    refine (and_congr_left' ih).trans (and_congr_right fun along => ?_)
    rw [last]
    refine accounted_step_iff (kept_run nonneg past) ?_ event
    -- the sums before the step are those after the step before it
    rcases eq_nil_or_concat past with rfl | ⟨past, event, rfl⟩
    · simp [AddsUp, run]
    · rw [concat_eq_append] at ih along ⊢
      exact (along_snoc.1 (Iff.mpr ih along)).2.addsUp

/-- A payload with these totals of input tokens. -/
def inputs (tokens : Int) : List (String × Json) :=
  [("tokenUsage", .obj [("total", .obj [("inputTokens", .int tokens)])])]

theorem accounted_along_iff_fresh : Along (fun past event => Accounted (fun _ => 0)
    (run Json.asInt (fun _ => 0) past) (run Json.asInt (fun _ => 0) (past ++ [event])))
    [.turn [inputs 1000] true] := by
  refine (accounted_along_iff _ _ (fun _ => le_rfl) _).2 ((@along_snoc _ []).2 ⟨Along.nil, ?_⟩)
  unfold Counted
  decide

/-- A thread had 1000 tokens from before; its first turn here uses 200 and reports 1200. -/
theorem resumed_again : ¬ AddsUp (fun _ => 1000)
    (run Json.asInt (fun _ => 1000) [.turn [inputs 1200] true]) := by
  unfold AddsUp
  decide

end BandSdk.Codex

/-
# OmpRpc.Waits -- who waits for what

A request is pending under an id of its own until its caller leaves it, and is completed
once.  A recorded failure leaves no one waiting.
-/
import BandSdk.OmpRpc.Client
import Mathlib.Data.List.Nodup

namespace BandSdk.OmpRpc

open BandSdk.Theory List Option PromptRun Request

/-! ## Ids -/

/-- The id of the `n`-th request. -/
def requestIdOf (n : Nat) : String := "band-" ++ toString n

theorem requestIdOf_inj {n m : Nat} (same : requestIdOf n = requestIdOf m) : n = m := by
  have lists := congrArg String.toList same
  simp only [requestIdOf, String.toList_append, append_cancel_left_eq] at lists
  have digits : Nat.toDigits 10 n = Nat.toDigits 10 m := by
    simpa only [Nat.toString_eq_repr, Nat.toList_repr] using lists
  rw [← @Nat.ofDigitChars_ten_toDigits n, digits, Nat.ofDigitChars_ten_toDigits]

def Request.settle (completion : Completion) (request : Request) : Request :=
  { request with result := request.result <|> some completion }

def PromptRun.fail (error : PromptError) (turn : PromptRun) : PromptRun :=
  { turn with failure := turn.failure <|> some error }

theorem Request.settle_of_settled {completion result : Completion} {request : Request}
    (settled : request.result = some result) : request.settle completion = request := by
  cases request
  cases settled
  rfl

theorem PromptRun.fail_of_failed {error failure : PromptError} {turn : PromptRun}
    (failed : turn.failure = some failure) : turn.fail error = turn := by
  cases turn
  cases failed
  rfl

/-- The record of completions grows, by entries that have their reason. -/
def GrownBy (why : Nat × Completion → Prop) (before after : List (Nat × Completion)) : Prop :=
  ∃ more, after = before ++ more ∧ ∀ p ∈ more, why p

section

variable {why why' : Nat × Completion → Prop} {before between after : List (Nat × Completion)}

theorem GrownBy.refl (before : List (Nat × Completion)) : GrownBy why before before :=
  ⟨[], (append_nil _).symm, nofun⟩

theorem GrownBy.trans (first : GrownBy why before between) (second : GrownBy why between after) :
    GrownBy why before after := by
  obtain ⟨more, rfl, reasons⟩ := first
  obtain ⟨more', rfl, reasons'⟩ := second
  refine ⟨more ++ more', append_assoc .., ?_⟩
  intro p mem
  rcases mem_append.1 mem with early | late
  · exact reasons p early
  · exact reasons' p late

theorem GrownBy.mono (grown : GrownBy why before after) (weaker : ∀ p, why p → why' p) :
    GrownBy why' before after := by
  obtain ⟨more, rfl, reasons⟩ := grown
  exact ⟨more, rfl, fun p mem => weaker p (reasons p mem)⟩

end

namespace Client

variable {s s' : Client} {r t k : Nat} {request : Request} {turn : PromptRun} {id command : String}

/-! ## What failing does -/

theorem complete_requests (completion : Completion) (x : Nat) :
    (s.complete r completion).requests x =
      if x = r then (s.requests r).map (Request.settle completion) else s.requests x := by
  unfold complete
  split
  · rename_i none_
    split
    next same => rw [same, none_, map_none]
    next => rfl
  · rename_i request found
    split
    · rename_i result settled
      split
      next same => rw [same, found, map_some, settle_of_settled settled]
      next => rfl
    · rename_i open_
      by_cases same : x = r
      · simp [setRequest, same, found, settle, open_]
      · simp [setRequest, same]

theorem complete_eq (r : Nat) (completion : Completion) : ∃ C, s.complete r completion = { s with
    requests := (s.complete r completion).requests, completions := C } ∧
      GrownBy (· = (r, completion)) s.completions C := by
  unfold complete
  split
  · exact ⟨_, rfl, .refl _⟩
  split
  · exact ⟨_, rfl, .refl _⟩
  · exact ⟨_, rfl, [(r, completion)], rfl, fun p mem => mem_singleton.1 mem⟩

theorem settle_settle (completion : Completion) (request : Request) :
    (request.settle completion).settle completion = request.settle completion := by
  cases its : request.result <;> simp [settle, its]

theorem completeAll_eq (error : ProcessError) (rs : List Nat) : ∃ C,
    rs.foldl (fun s r => s.complete r (.error error)) s = { s with
      requests := fun x => if x ∈ rs then (s.requests x).map (settle (.error error)) else s.requests x
      completions := C } ∧ GrownBy (·.2 = .error error) s.completions C := by
  induction rs generalizing s with
  | nil => exact ⟨s.completions, by simp, .refl _⟩
  | cons r rest ih =>
    obtain ⟨C, same, from_⟩ := @complete_eq s r (.error error)
    obtain ⟨C', same', from'⟩ := @ih (s.complete r (.error error))
    refine ⟨C', ?_, ?_⟩
    · rw [foldl_cons, same']
      have requests : (fun x => if x ∈ rest then ((s.complete r (.error error)).requests x).map
          (settle (.error error)) else (s.complete r (.error error)).requests x) =
          fun x => if x ∈ r :: rest then (s.requests x).map (settle (.error error))
            else s.requests x := by
        funext x
        rw [complete_requests]
        by_cases same : x = r
        · subst same
          have twice : ((s.requests x).map (settle (.error error))).map
              (settle (.error error)) = (s.requests x).map (settle (.error error)) := by
            rw [Option.map_map]
            exact congrArg (Option.map · (s.requests x)) (funext (settle_settle _))
          simp [twice]
        · simp [same]
      rw [requests, same]
    · rw [same] at from'
      exact (from_.mono fun p its => by rw [its]).trans from'

theorem failTurn_eq (t : Nat) (error : PromptError) : s.failTurn t error = { s with
    turns := fun x => if x = t then (s.turns x).map (fail error) else s.turns x } := by
  have unchanged : (s.turns t).map (fail error) = s.turns t →
      (fun x => if x = t then (s.turns x).map (fail error) else s.turns x) = s.turns := by
    intro same
    funext x
    split
    next here => rw [here, same]
    next => rfl
  unfold failTurn
  split
  · rename_i none_
    rw [unchanged (by rw [none_, map_none])]
  · rename_i turn found
    split
    · rename_i failure failed
      rw [unchanged]
      rw [found, map_some, fail_of_failed failed]
    · rename_i going
      simp only [setTurn]
      congr 1
      funext x
      by_cases same : x = t
      · simp [same, found, fail, going]
      · simp [same]

/-- Everyone that waits is completed with the error. -/
theorem failPending_eq (error : ProcessError) : ∃ C, s.failPending error = { s with
    requests := fun x => if x ∈ s.pending.map Prod.snd then (s.requests x).map
      (settle (.error error)) else s.requests x
    completions := C
    ready := s.ready <|> some (Readiness.failed error)
    turns := fun x => if s.turn = some x then (s.turns x).map (fail (.process error))
      else s.turns x } ∧ GrownBy (·.2 = .error error) s.completions C := by
  obtain ⟨C, same, from_⟩ := @completeAll_eq s error (s.pending.map Prod.snd)
  refine ⟨C, ?_, from_⟩
  unfold failPending
  rw [same]
  dsimp only
  split
  · rename_i none_
    simp [none_]
  · rename_i t its
    rw [failTurn_eq]
    simp only [its, some.injEq]
    congr 1
    funext x
    simp only [eq_comm]

theorem beginClose_eq : ∃ phase, s.beginClose = { s with
    closing := true
    closeTask := some phase
    log := if s.closing then s.log else s.log ++ [.closing] } := by
  unfold beginClose
  cases closing : s.closing with
  | false =>
    simp only [Bool.false_eq_true, if_false, note]
    split
    · exact ⟨.made, rfl⟩
    · exact ⟨.made, rfl⟩
    rename_i other _
    cases its : s.closeTask with
    | none => exact absurd its other
    | some phase => exact ⟨phase, rfl⟩
  | true =>
    simp only [if_true]
    split
    · exact ⟨.made, by rw [← closing]⟩
    · exact ⟨.made, by rw [← closing]⟩
    rename_i other _
    cases its : s.closeTask with
    | none => exact absurd its other
    | some phase => exact ⟨phase, by rw [← its, ← closing]⟩

/-! ## The account of requests -/

structure Waits (s : Client) : Prop where
  fresh : ∀ n, s.made ≤ n → s.requests n = none
  freshTurn : ∀ n, s.made ≤ n → s.turns n = none
  ids : ∀ r request, s.requests r = some request → ∃ n ≤ s.requestId, request.id = requestIdOf n
  apart : ∀ r r' request request', s.requests r = some request → s.requests r' = some request' →
    request.id = request'.id → r = r'
  turnIds : ∀ t turn, s.turns t = some turn → ∃ n ≤ s.requestId, turn.id = requestIdOf n
  turnsApart : ∀ t t' turn turn', s.turns t = some turn → s.turns t' = some turn' → turn.id = turn'.id → t = t'
  unsubmitted : ∀ t turn r request, s.turns t = some turn → turn.submitted = false →
    s.requests r = some request → request.id ≠ turn.id
  pending : ∀ r request, s.requests r = some request → request.left = false →
    Keyed.get request.id s.pending = some r
  held : ∀ id r, Keyed.get id s.pending = some r → ∃ request, s.requests r = some request ∧ request.id = id
  results : ∀ r completion, (r, completion) ∈ s.completions ↔
    ∃ request, s.requests r = some request ∧ request.result = some completion
  once : (s.completions.map Prod.fst).Nodup
  current : ∀ t, s.turn = some t → ∃ turn, s.turns t = some turn
  closes : ∀ phase, s.closeTask = some phase → s.closing = true

/-- Behind a recorded failure no one waits. -/
structure Failed (s : Client) : Prop where
  closing : s.failure.isSome → s.closing = true
  ready : s.failure.isSome → s.ready.isSome
  requests : s.failure.isSome → ∀ r request, s.requests r = some request → request.left = false →
    request.result.isSome
  prompt : s.failure.isSome → ∀ t turn, s.turn = some t → s.turns t = some turn → turn.failure.isSome

/-- Whoever waited was completed with the failure. -/
structure FailsWith (message : String) (s s' : Client) : Prop where
  requests : ∀ r request, s.requests r = some request → request.left = false → request.result = none →
    ∃ after, s'.requests r = some after ∧ after.result = some (.error (.failure message))
  ready : s.ready = none → s'.ready = some (.failed (.failure message))
  prompt : ∀ t turn, s.turn = some t → s.turns t = some turn → turn.failure = none →
    ∃ after, s'.turns t = some after ∧ after.failure = some (.process (.failure message))

/-! ### Failing -/

section

variable (waits : s.Waits)
include waits

theorem Waits.complete (r : Nat) (completion : Completion) : (s.complete r completion).Waits := by
  have before : ∀ x after, (s.complete r completion).requests x = some after →
      ∃ request, s.requests x = some request ∧ after.id = request.id ∧ after.left = request.left := by
    intro x after held
    rw [complete_requests] at held
    split at held
    · rename_i same
      obtain ⟨request, found, rfl⟩ := map_eq_some_iff.1 held
      exact ⟨request, same ▸ found, rfl, rfl⟩
    · exact ⟨after, held, rfl, rfl⟩
  have later : ∀ x request, s.requests x = some request →
      ∃ after, (s.complete r completion).requests x = some after ∧ after.id = request.id := by
    intro x request found
    rw [complete_requests]
    split
    · rename_i same
      exact ⟨request.settle completion, by rw [← same, found, map_some], rfl⟩
    · exact ⟨request, found, rfl⟩
  obtain ⟨C, same, -⟩ := @complete_eq s r completion
  have results : (∀ x c, (x, c) ∈ (s.complete r completion).completions ↔
      ∃ request, (s.complete r completion).requests x = some request ∧ request.result = some c) ∧
      ((s.complete r completion).completions.map Prod.fst).Nodup := by
    cases found : s.requests r with
    | none =>
      have stays : s.complete r completion = s := by simp [Client.complete, found]
      rw [stays]
      exact ⟨waits.results, waits.once⟩
    | some request =>
      cases its : request.result with
      | some result =>
        have stays : s.complete r completion = s := by simp [Client.complete, found, its]
        rw [stays]
        exact ⟨waits.results, waits.once⟩
      | none =>
        have moves : s.complete r completion =
            { s.setRequest r { request with result := some completion } with
              completions := s.completions ++ [(r, completion)] } := by
          simp [Client.complete, found, its]
        have here : (s.complete r completion).requests r = some { request with result := some completion } := by
          simp [moves, setRequest]
        have new : ∀ c, (r, c) ∉ s.completions := by
          intro c mem
          obtain ⟨request', found', settled⟩ := (waits.results r c).1 mem
          cases found.symm.trans found'
          rw [its] at settled
          cases settled
        rw [moves] at here ⊢
        constructor
        · intro x c
          rw [mem_append, mem_singleton, waits.results]
          by_cases same : x = r
          · subst same
            constructor
            · rintro (⟨request', found', settled⟩ | now)
              · exact absurd ((waits.results x c).2 ⟨request', found', settled⟩) (new c)
              · obtain ⟨-, rfl⟩ := Prod.mk.inj now
                exact ⟨_, here, rfl⟩
            · rintro ⟨request', found', settled⟩
              cases here.symm.trans found'
              exact .inr (by rw [some.inj settled])
          · simp [setRequest, same]
        · rw [map_append, nodup_append]
          refine ⟨waits.once, by simp, ?_⟩
          rintro x old x' now rfl
          obtain ⟨⟨y, c⟩, mem, rfl⟩ := mem_map.1 old
          simp only [map_cons, map_nil, mem_singleton] at now
          subst now
          exact new c mem
  rw [same] at before later results ⊢
  refine { waits with
    fresh := ?_, ids := ?_, apart := ?_, unsubmitted := ?_, pending := ?_, held := ?_
    results := results.1, once := results.2 }
  · intro n late
    refine eq_none_iff_forall_ne_some.2 fun after held => ?_
    obtain ⟨request, found, -⟩ := before n after held
    rw [waits.fresh n late] at found
    cases found
  · intro x after held
    obtain ⟨request, found, id, -⟩ := before x after held
    rw [id]
    exact waits.ids x request found
  · intro x x' after after' held held' together
    obtain ⟨request, found, id, -⟩ := before x after held
    obtain ⟨request', found', id', -⟩ := before x' after' held'
    exact waits.apart x x' request request' found found' (by rw [← id, ← id', together])
  · intro t turn x after held open_ held'
    obtain ⟨request, found, id, -⟩ := before x after held'
    rw [id]
    exact waits.unsubmitted t turn x request held open_ found
  · intro x after held stays
    obtain ⟨request, found, id, left⟩ := before x after held
    rw [id]
    exact waits.pending x request found (left ▸ stays)
  · intro id x its
    obtain ⟨request, found, rfl⟩ := waits.held id x its
    exact later x request found

/-- A turn's own fields change. -/
theorem Waits.turnsOf {turns : Nat → Option PromptRun}
    (before : ∀ x after, turns x = some after → ∃ turn, s.turns x = some turn ∧ after.id = turn.id ∧
      (after.submitted = false → turn.submitted = false))
    (later : ∀ x turn, s.turns x = some turn → ∃ after, turns x = some after) :
    Waits { s with turns := turns } := by
  refine { waits with freshTurn := ?_, turnIds := ?_, turnsApart := ?_, unsubmitted := ?_, current := ?_ }
  · intro n late
    cases held : turns n with
    | none => exact held
    | some after =>
      obtain ⟨turn, found, -⟩ := before n after held
      rw [waits.freshTurn n late] at found
      cases found
  · intro x after held
    obtain ⟨turn, found, id, -⟩ := before x after held
    rw [id]
    exact waits.turnIds x turn found
  · intro x x' after after' held held' together
    obtain ⟨turn, found, id, -⟩ := before x after held
    obtain ⟨turn', found', id', -⟩ := before x' after' held'
    exact waits.turnsApart x x' turn turn' found found' (by rw [← id, ← id', together])
  · intro x after r request held open_ found
    obtain ⟨turn, found', id, submitted⟩ := before x after held
    rw [id]
    exact waits.unsubmitted x turn r request found' (submitted open_) found
  · intro t its
    obtain ⟨turn, found⟩ := waits.current t its
    exact later t turn found

theorem Waits.failTurns (error : PromptError) (which : Nat → Prop) [DecidablePred which] :
    Waits { s with turns := fun x => if which x then (s.turns x).map (fail error) else s.turns x } := by
  refine waits.turnsOf ?_ ?_
  · intro x after held
    split at held
    · obtain ⟨turn, found, rfl⟩ := map_eq_some_iff.1 held
      exact ⟨turn, found, rfl, fun its => its⟩
    · exact ⟨after, held, rfl, fun its => its⟩
  · intro x turn found
    split
    · exact ⟨turn.fail error, by rw [found, map_some]⟩
    · exact ⟨turn, found⟩

theorem Waits.failTurn (t : Nat) (error : PromptError) : (s.failTurn t error).Waits := by
  rw [failTurn_eq]
  exact waits.failTurns error (· = t)

theorem Waits.completeAll (error : ProcessError) (rs : List Nat) :
    (rs.foldl (fun s r => s.complete r (.error error)) s).Waits := by
  induction rs generalizing s with
  | nil => exact waits
  | cons r rest ih => exact ih (waits.complete r _)

theorem Waits.failPending (error : ProcessError) : (s.failPending error).Waits := by
  have completed := waits.completeAll error (s.pending.map Prod.snd)
  unfold Client.failPending
  dsimp only
  split
  · exact { completed with }
  · refine Waits.failTurn ?_ _ _
    exact { completed with }

theorem Waits.beginClose : s.beginClose.Waits := by
  obtain ⟨phase, same⟩ := @beginClose_eq s
  rw [same]
  exact { waits with closes := fun _ _ => rfl }

theorem Waits.recordFailure (message : String) : (s.recordFailure message).Waits := by
  have failing : Waits { s with failure := some (s.failure.getD message) } := { waits with }
  have failed := failing.failPending (.failure (s.failure.getD message))
  unfold Client.recordFailure
  dsimp only
  split
  · exact failed
  · exact failed.beginClose

theorem Waits.mem_pending (found : s.requests r = some request) (stays : request.left = false) :
    r ∈ s.pending.map Prod.snd := by
  have its := waits.pending r request found stays
  obtain ⟨pair, mem, rfl⟩ := map_eq_some_iff.1 its
  exact mem_map_of_mem (mem_of_find?_eq_some mem)

omit waits in
/-- What recording a failure leaves: the failure that was first, and those that waited told of it. -/
theorem recordFailure_eq (message : String) : ∃ C T, s.recordFailure message = { s with
    failure := some (s.failure.getD message)
    requests := fun x => if x ∈ s.pending.map Prod.snd then (s.requests x).map
      (settle (.error (.failure (s.failure.getD message)))) else s.requests x
    completions := C
    ready := s.ready <|> some (Readiness.failed (.failure (s.failure.getD message)))
    turns := fun x => if s.turn = some x then
      (s.turns x).map (fail (.process (.failure (s.failure.getD message)))) else s.turns x
    closing := true
    closeTask := T
    log := if s.closing then s.log else s.log ++ [.closing] } ∧
      GrownBy (·.2 = .error (.failure (s.failure.getD message))) s.completions C := by
  let failing : Client := { s with failure := some (s.failure.getD message) }
  obtain ⟨C, same, from_⟩ := @failPending_eq failing (.failure (s.failure.getD message))
  unfold recordFailure
  dsimp only
  rw [same]
  cases closing : s.closing with
  | true => exact ⟨C, s.closeTask, by simp [failing], from_⟩
  | false =>
    obtain ⟨phase, same'⟩ := @beginClose_eq { s with
      failure := some (s.failure.getD message)
      requests := fun x => if x ∈ s.pending.map Prod.snd then (s.requests x).map
        (settle (.error (.failure (s.failure.getD message)))) else s.requests x
      completions := C
      ready := s.ready <|> some (Readiness.failed (.failure (s.failure.getD message)))
      turns := fun x => if s.turn = some x then
        (s.turns x).map (fail (.process (.failure (s.failure.getD message)))) else s.turns x
      closing := false }
    refine ⟨C, some phase, ?_, from_⟩
    rw [same']
    rfl

theorem Waits.failed_recordFailure (message : String) : (s.recordFailure message).Failed := by
  obtain ⟨C, T, same, -⟩ := @recordFailure_eq s message
  rw [same]
  refine ⟨fun _ => rfl, fun _ => ?_, fun _ => ?_, fun _ => ?_⟩
  · cases s.ready <;> rfl
  · intro r after held stays
    dsimp only at held
    split at held
    · obtain ⟨request, found, rfl⟩ := map_eq_some_iff.1 held
      cases its : request.result <;> simp [settle, its]
    · rename_i absent
      exact absurd (waits.mem_pending held stays) absent
  · intro t turn its held
    dsimp only at its held
    rw [if_pos its] at held
    obtain ⟨before, found, rfl⟩ := map_eq_some_iff.1 held
    cases failure : before.failure <;> simp [fail, failure]

theorem Waits.failsWith_recordFailure (first : s.failure = none) (message : String) :
    (s.recordFailure message).failure = some message ∧ FailsWith message s (s.recordFailure message) := by
  obtain ⟨C, T, same, -⟩ := @recordFailure_eq s message
  have its : s.failure.getD message = message := by rw [first, getD_none]
  rw [its] at same
  rw [same]
  refine ⟨rfl, ?_, ?_, ?_⟩
  · intro r request found stays open_
    refine ⟨request.settle (.error (.failure message)), ?_, ?_⟩
    · dsimp only
      rw [if_pos (waits.mem_pending found stays), found, map_some]
    · simp [settle, open_]
  · intro none_
    rw [none_]
    rfl
  · intro t turn now found going
    refine ⟨turn.fail (.process (.failure message)), ?_, ?_⟩
    · dsimp only
      rw [if_pos now, found, map_some]
    · simp [fail, going]

end

end Client

end BandSdk.OmpRpc

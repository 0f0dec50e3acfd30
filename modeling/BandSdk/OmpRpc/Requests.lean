/-
# OmpRpc.Requests -- how requests are completed

Most steps leave those that wait alone, or record a failure, or register a request.  The
response of a request and the close task complete requests besides.
-/
import BandSdk.OmpRpc.Waits

namespace BandSdk.OmpRpc.Client

open BandSdk.Theory

variable {s s' s'' : Client} {r t k : Nat} {request : Request} {turn : PromptRun} {id command : String}

/-! ### Steps beside the requests -/

/-- Those that wait are as they were; a prompt may have failed, or be over. -/
structure Later (s s' : Client) : Prop where
  requests : s'.requests = s.requests
  pending : s'.pending = s.pending
  completions : s'.completions = s.completions
  failure : s'.failure = s.failure
  closing : s'.closing = s.closing
  closeTask : s'.closeTask = s.closeTask
  ready : s'.ready = s.ready
  requestId : s'.requestId = s.requestId
  made : s.made ≤ s'.made
  turn : ∀ t, s'.turn = some t → s.turn = some t
  turns : ∀ t turn, s.turns t = some turn → ∃ after, s'.turns t = some after ∧ after.id = turn.id ∧
    (after.submitted = false → turn.submitted = false) ∧ ∀ error, turn.failure = some error →
      after.failure = some error
  back : ∀ t, s.turns t = none → s'.turns t = none

/-- No prompt has failed either. -/
structure Calm (s s' : Client) : Prop extends Later s s' where
  going : ∀ t turn after, s.turns t = some turn → s'.turns t = some after → turn.failure = none →
    after.failure = none
  now : ∀ t, s.turn = some t → s'.turn = some t ∨ s'.turn = none

theorem Later.refl (s : Client) : Later s s where
  requests := rfl
  pending := rfl
  completions := rfl
  failure := rfl
  closing := rfl
  closeTask := rfl
  ready := rfl
  requestId := rfl
  made := Nat.le_refl _
  turn := fun _ its => its
  turns := fun _ turn found => ⟨turn, found, rfl, fun its => its, fun _ its => its⟩
  back := fun _ its => its

theorem Later.trans (first : Later s s') (second : Later s' s'') : Later s s'' where
  requests := second.requests.trans first.requests
  pending := second.pending.trans first.pending
  completions := second.completions.trans first.completions
  failure := second.failure.trans first.failure
  closing := second.closing.trans first.closing
  closeTask := second.closeTask.trans first.closeTask
  ready := second.ready.trans first.ready
  requestId := second.requestId.trans first.requestId
  made := Nat.le_trans first.made second.made
  turn := fun t its => first.turn t (second.turn t its)
  turns := by
    intro t turn found
    obtain ⟨between, held, id, submitted, failure⟩ := first.turns t turn found
    obtain ⟨after, held', id', submitted', failure'⟩ := second.turns t between held
    exact ⟨after, held', id'.trans id, fun its => submitted (submitted' its), fun error its =>
      failure' error (failure error its)⟩
  back := fun t none_ => second.back t (first.back t none_)

theorem Calm.refl (s : Client) : Calm s s :=
  { Later.refl s with
    going := by
      intro t turn after found found' going
      cases found.symm.trans found'
      exact going
    now := fun _ its => .inl its }

theorem Calm.trans (first : Calm s s') (second : Calm s' s'') : Calm s s'' :=
  { first.toLater.trans second.toLater with
    going := by
      intro t turn after found found' going
      obtain ⟨between, held, -⟩ := first.turns t turn found
      exact second.going t between after held found' (first.going t turn between found held going)
    now := by
      intro t its
      rcases first.now t its with still | none_
      · exact second.now t still
      refine .inr (Option.eq_none_iff_forall_ne_some.2 fun u held => ?_)
      rw [second.turn u held] at none_
      cases none_ }

/-- A change of what no one waits for. -/
theorem calm_of_eq {callbacks : Nat → Option Callback} {made : Nat} {log : List Note} {reading exited : Bool}
    {prompting lastTurn : Option Nat} (more : s.made ≤ made) : Calm s { s with
      callbacks := callbacks, made := made, log := log, reading := reading, exited := exited
      prompting := prompting, lastTurn := lastTurn } :=
  { Calm.refl s with made := more }

theorem calm_setCallback {callback : Callback} : Calm s (s.setCallback k callback) :=
  calm_of_eq (Nat.le_refl _)

theorem calm_note {new : Note} : Calm s (s.note new) := calm_of_eq (Nat.le_refl _)

theorem calm_setTurn (found : s.turns t = some turn) {after : PromptRun} (id : after.id = turn.id)
    (submitted : after.submitted = false → turn.submitted = false) (failure : after.failure = turn.failure) :
    Calm s (s.setTurn t after) := by
  have here : (s.setTurn t after).turns t = some after := by simp [setTurn]
  have elsewhere : ∀ x, x ≠ t → (s.setTurn t after).turns x = s.turns x := by
    intro x other
    simp [setTurn, other]
  refine { Calm.refl s with turns := ?_, back := ?_, going := ?_ }
  · intro x other held
    by_cases same : x = t
    · subst same
      cases found.symm.trans held
      exact ⟨after, here, id, submitted, fun error its => failure.trans its⟩
    · exact ⟨other, (elsewhere x same).trans held, rfl, fun its => its, fun _ its => its⟩
  · intro x none_
    have other : x ≠ t := by
      rintro rfl
      rw [found] at none_
      cases none_
    exact (elsewhere x other).trans none_
  · intro x before other held held' going
    by_cases same : x = t
    · subst same
      cases here.symm.trans held'
      cases found.symm.trans held
      exact failure.trans going
    · cases held.symm.trans ((elsewhere x same).symm.trans held')
      exact going

theorem later_failTurn (t : Nat) (error : PromptError) : Later s (s.failTurn t error) := by
  rw [failTurn_eq]
  refine { Later.refl s with turns := ?_, back := ?_ }
  · intro x turn found
    dsimp only
    split
    · refine ⟨turn.fail error, by rw [found, Option.map_some], rfl, fun its => its, ?_⟩
      intro failure failed
      rw [PromptRun.fail_of_failed failed]
      exact failed
    · exact ⟨turn, found, rfl, fun its => its, fun _ its => its⟩
  · intro x none_
    dsimp only
    split
    · rw [none_, Option.map_none]
    · exact none_

theorem Waits.later (waits : s.Waits) (later : Later s s') : s'.Waits := by
  have before : ∀ t after, s'.turns t = some after → ∃ turn, s.turns t = some turn ∧ after.id = turn.id ∧
      (after.submitted = false → turn.submitted = false) := by
    intro t after held
    cases found : s.turns t with
    | none =>
      rw [later.back t found] at held
      cases held
    | some turn =>
      obtain ⟨after', held', id, submitted, -⟩ := later.turns t turn found
      cases held.symm.trans held'
      exact ⟨turn, rfl, id, submitted⟩
  have turned := waits.turnsOf before fun t turn found =>
    (later.turns t turn found).imp fun _ its => its.1
  exact {
    fresh := fun n late => by rw [later.requests, waits.fresh n (Nat.le_trans later.made late)]
    freshTurn := fun n late => later.back n (waits.freshTurn n (Nat.le_trans later.made late))
    ids := by rw [later.requests, later.requestId]; exact waits.ids
    apart := by rw [later.requests]; exact waits.apart
    turnIds := by rw [later.requestId]; exact turned.turnIds
    turnsApart := turned.turnsApart
    unsubmitted := by rw [later.requests]; exact turned.unsubmitted
    pending := by rw [later.requests, later.pending]; exact waits.pending
    held := by rw [later.requests, later.pending]; exact waits.held
    results := by rw [later.requests, later.completions]; exact waits.results
    once := by rw [later.completions]; exact waits.once
    current := fun t its => turned.current t (later.turn t its)
    closes := by rw [later.closeTask, later.closing]; exact waits.closes }

theorem Failed.later (failed : s.Failed) (waits : s.Waits) (later : Later s s') : s'.Failed := by
  refine ⟨?_, ?_, ?_, ?_⟩
  · rw [later.failure, later.closing]
    exact failed.closing
  · rw [later.failure, later.ready]
    exact failed.ready
  · rw [later.failure, later.requests]
    exact failed.requests
  · rw [later.failure]
    intro first t after its held
    obtain ⟨turn, found⟩ := waits.current t (later.turn t its)
    obtain ⟨after', held', -, -, fails⟩ := later.turns t turn found
    cases held.symm.trans held'
    obtain ⟨error, failure⟩ := Option.isSome_iff_exists.1 (failed.prompt first t turn (later.turn t its) found)
    rw [fails error failure]
    rfl

/-! ### What a step does to those that wait -/

/-- The account is kept; whoever is completed, or waits when the first failure is recorded, is told of
the failure. -/
structure Goes (s s' : Client) : Prop where
  waits : s'.Waits
  failed : s'.Failed
  completions : GrownBy (fun p => ∃ message, s'.failure = some message ∧ p.2 = .error (.failure message))
    s.completions s'.completions
  first : ∀ message, s.failure = some message → s'.failure = some message
  fails : s.failure = none → ∀ message, s'.failure = some message → FailsWith message s s'

theorem Goes.of_later (waits : s.Waits) (failed : s.Failed) (later : Later s s') : Goes s s' where
  waits := waits.later later
  failed := failed.later waits later
  completions := by
    rw [later.completions]
    exact .refl _
  first := fun message its => later.failure.trans its
  fails := by
    intro none_ message its
    rw [later.failure, none_] at its
    cases its

theorem Goes.of_calm (waits : s.Waits) (failed : s.Failed) (calm : Calm s s') : Goes s s' :=
  .of_later waits failed calm.toLater

theorem FailsWith.before {message : String} (calm : Calm s s') (fails : FailsWith message s' s'')
    (over_ : ∀ t, s.turn = some t → s'.turn = some t) : FailsWith message s s'' where
  requests := fun r request found stays open_ =>
    fails.requests r request ((congrFun calm.requests r).trans found) stays open_
  ready := fun none_ => fails.ready (calm.ready.trans none_)
  prompt := by
    intro t turn now found going
    obtain ⟨after, held, -⟩ := calm.turns t turn found
    exact fails.prompt t after (over_ t now) held (calm.going t turn after found held going)

theorem FailsWith.behind {message : String} (fails : FailsWith message s s') (later : Later s' s'') :
    FailsWith message s s'' where
  requests := by rw [later.requests]; exact fails.requests
  ready := by rw [later.ready]; exact fails.ready
  prompt := by
    intro t turn now found going
    obtain ⟨between, held, failed⟩ := fails.prompt t turn now found going
    obtain ⟨after, held', -, -, keeps⟩ := later.turns t between held
    exact ⟨after, held', keeps _ failed⟩

theorem Goes.record (waits : s.Waits) (calm : Calm s s') (over_ : ∀ t, s.turn = some t → s'.turn = some t)
    (message : String) (later : Later (s'.recordFailure message) s'') : Goes s s'' := by
  have waits' := waits.later calm.toLater
  have recorded := waits'.recordFailure message
  have failed := waits'.failed_recordFailure message
  obtain ⟨C, T, same, from_⟩ := @recordFailure_eq s' message
  have its : s''.failure = some (s'.failure.getD message) := by rw [later.failure, same]
  refine ⟨recorded.later later, failed.later recorded later, ?_, ?_, ?_⟩
  · rw [later.completions, same, ← calm.completions]
    exact from_.mono fun p new => ⟨s'.failure.getD message, its, new⟩
  · intro first held
    rw [its, calm.failure, held, Option.getD_some]
  · intro none_ first its
    have none' : s'.failure = none := calm.failure.trans none_
    obtain ⟨failure, fails⟩ := waits'.failsWith_recordFailure none' message
    rw [later.failure, failure] at its
    cases its
    exact (fails.before calm over_).behind later

theorem ensureRunning_cases : (∃ error, s.ensureRunning = (s, some error)) ∨
    (s.failure = none ∧ s.ensureRunning = (s.recordFailure "OMP RPC process exited",
      some (.failure "OMP RPC process exited"))) ∨
    (s.failure = none ∧ s.closing = false ∧ s.ensureRunning = (s, none)) := by
  unfold ensureRunning
  split
  · exact .inl ⟨_, rfl⟩
  rename_i first
  split
  · exact .inl ⟨_, rfl⟩
  rename_i open_
  split
  · exact .inr (.inl ⟨first, rfl⟩)
  · exact .inr (.inr ⟨first, by simpa using open_, rfl⟩)

theorem Waits.nextId (waits : s.Waits) : (s.nextId).2.Waits :=
  { waits with
    ids := fun r request found =>
      (waits.ids r request found).imp fun _ its => ⟨Nat.le_succ_of_le its.1, its.2⟩
    turnIds := fun t turn found =>
      (waits.turnIds t turn found).imp fun _ its => ⟨Nat.le_succ_of_le its.1, its.2⟩ }

/-- An id that is taken now was not in use. -/
theorem Waits.nextId_fresh (waits : s.Waits) :
    (∀ r request, s.requests r = some request → request.id ≠ s.nextId.1) ∧
      ∀ t turn, s.turns t = some turn → turn.id ≠ s.nextId.1 := by
  have beyond : ∀ n ≤ s.requestId, requestIdOf n ≠ s.nextId.1 := by
    intro n below same
    have its : requestIdOf n = requestIdOf (s.requestId + 1) := same
    have equal := requestIdOf_inj its
    omega
  constructor
  · intro r request found
    obtain ⟨n, below, its⟩ := waits.ids r request found
    rw [its]
    exact beyond n below
  · intro t turn found
    obtain ⟨n, below, its⟩ := waits.turnIds t turn found
    rw [its]
    exact beyond n below

theorem Waits.register (waits : s.Waits) (numbered : ∃ n ≤ s.requestId, id = requestIdOf n)
    (new : ∀ r request, s.requests r = some request → request.id ≠ id)
    (apart : ∀ t turn, s.turns t = some turn → turn.submitted = false → turn.id ≠ id) :
    (s.register id command).Waits := by
  have fresh := waits.fresh s.made (Nat.le_refl _)
  have here : (s.register id command).requests s.made = some { id := id, command := command } := by
    simp [Client.register, setRequest]
  have elsewhere : ∀ x, x ≠ s.made → (s.register id command).requests x = s.requests x := by
    intro x other
    simp [Client.register, setRequest, other]
  have older : ∀ x request, s.requests x = some request → x ≠ s.made := by
    rintro x request found rfl
    rw [fresh] at found
    cases found
  have each : ∀ {P : Nat → Request → Prop}, P s.made { id := id, command := command } →
      (∀ x request, s.requests x = some request → P x request) →
      ∀ x request, (s.register id command).requests x = some request → P x request := by
    intro P first rest x request held
    rcases set_cases here elsewhere held with ⟨rfl, ⟨⟩⟩ | ⟨-, held⟩
    · exact first
    · exact rest x request held
  have slots : ∀ other, Keyed.get other (s.register id command).pending =
      if id = other then some s.made else Keyed.get other s.pending := fun other => Keyed.get_setItem
  refine { waits with
    fresh := ?_, freshTurn := ?_, ids := ?_, apart := ?_, unsubmitted := ?_, pending := ?_, held := ?_
    results := ?_ }
  · intro n late
    have late : s.made + 1 ≤ n := late
    exact (elsewhere n (by omega)).trans (waits.fresh n (by omega))
  · intro n late
    exact waits.freshTurn n (Nat.le_of_succ_le late)
  · exact each numbered waits.ids
  · intro x x' request request' held held' together
    by_cases same : x = s.made
    · subst same
      cases here.symm.trans held
      by_cases same' : x' = s.made
      · exact same'.symm
      · exact absurd together.symm (new x' request' ((elsewhere x' same').symm.trans held'))
    · have found := (elsewhere x same).symm.trans held
      by_cases same' : x' = s.made
      · subst same'
        cases here.symm.trans held'
        exact absurd together (new x request found)
      · exact waits.apart x x' request request' found ((elsewhere x' same').symm.trans held') together
  · intro t turn x request held open_
    refine each (P := fun _ request => request.id ≠ turn.id) ?_ ?_ x request
    · exact fun same => apart t turn held open_ same.symm
    · exact fun x request found => waits.unsubmitted t turn x request held open_ found
  · refine each ?_ ?_
    · exact fun _ => (slots id).trans (if_pos rfl)
    intro x request found stays
    refine (slots request.id).trans ?_
    rw [if_neg fun same => new x request found same.symm]
    exact waits.pending x request found stays
  · intro other x its
    have its := (slots other).symm.trans its
    split at its
    · rename_i same
      cases its
      exact ⟨_, here, same⟩
    · obtain ⟨request, found, named⟩ := waits.held other x its
      exact ⟨request, (elsewhere x (older x request found)).trans found, named⟩
  · intro x completion
    refine (waits.results x completion).trans ⟨?_, ?_⟩
    · rintro ⟨request, found, settled⟩
      exact ⟨request, (elsewhere x (older x request found)).trans found, settled⟩
    · rintro ⟨request, held, settled⟩
      by_cases same : x = s.made
      · subst same
        cases here.symm.trans held
        cases settled
      · exact ⟨request, (elsewhere x same).symm.trans held, settled⟩

/-- Behind a check that passed. -/
theorem Goes.register (first : s.failure = none) (waits : s'.Waits)
    (numbered : ∃ n ≤ s'.requestId, id = requestIdOf n) (failure : s'.failure = s.failure)
    (completions : s'.completions = s.completions)
    (new : ∀ r request, s'.requests r = some request → request.id ≠ id)
    (apart : ∀ t turn, s'.turns t = some turn → turn.submitted = false → turn.id ≠ id) :
    Goes s (s'.register id command) := by
  have none_ : (s'.register id command).failure = none := failure.trans first
  refine ⟨waits.register numbered new apart, ⟨?_, ?_, ?_, ?_⟩, ?_, ?_, ?_⟩
  · simp [none_]
  · simp [none_]
  · simp [none_]
  · simp [none_]
  · exact completions ▸ .refl _
  · intro message held
    cases first.symm.trans held
  · intro _ message its
    rw [none_] at its
    cases its

theorem Goes.registerNext (first : s.failure = none) (waits : s.Waits) :
    Goes s (s.nextId.2.register s.nextId.1 command) := by
  obtain ⟨new, apart⟩ := waits.nextId_fresh
  exact .register first waits.nextId ⟨s.requestId + 1, Nat.le_refl _, rfl⟩ rfl rfl new
    fun t turn found _ => apart t turn found

end BandSdk.OmpRpc.Client

/-
# OmpRpc.Completions -- every step keeps the account of requests

One lemma for each method that touches a request, a prompt or a failure.
-/
import BandSdk.OmpRpc.Requests

namespace BandSdk.OmpRpc.Client

open BandSdk.Theory Option Function

variable {s s' : Client} {r t k : Nat} {request : Request} {turn : PromptRun} {id command : String}

/-- Why a request is completed: the response that carries its id and command, the first failure, or a
close without any. -/
def CompletedBy (s s' : Client) (event : Event) (p : Nat × Completion) : Prop :=
  (∃ id command success request, event = .frame (.response (some id) command success) ∧
    s.requests p.1 = some request ∧ request.id = id ∧ request.command = command ∧
      p.2 = .response id command success) ∨
  (∃ message, s'.failure = some message ∧ p.2 = .error (.failure message)) ∨
  (event = .closeRuns ∧ s.closing = true ∧ s.failure = none ∧ p.2 = .error .closed)

/-- The account is kept through an event; completions have their reason, and the first failure reaches
everyone that waits. -/
structure Told (s s' : Client) (event : Event) : Prop where
  waits : s'.Waits
  failed : s'.Failed
  completions : GrownBy (CompletedBy s s' event) s.completions s'.completions
  first : ∀ message, s.failure = some message → s'.failure = some message
  fails : s.failure = none → ∀ message, s'.failure = some message → FailsWith message s s'

theorem Goes.told (goes : Goes s s') (event : Event) : Told s s' event where
  waits := goes.waits
  failed := goes.failed
  completions := goes.completions.mono fun _ its => .inr (.inl its)
  first := goes.first
  fails := goes.fails

/-! ### Requests -/

section

variable (waits : s.Waits) (failed : s.Failed)
include waits failed

theorem goes_requestFrame : Goes s (s.requestFrame command) := by
  unfold requestFrame
  rcases @ensureRunning_cases s with ⟨error, same⟩ | ⟨-, same⟩ | ⟨first, -, same⟩
  · rw [same]
    exact .of_calm waits failed (.refl s)
  · rw [same]
    exact .record waits (.refl s) (fun _ its => its) _ (.refl _)
  · rw [same]
    exact .registerNext first waits

theorem goes_leave (ran : s.leave r = some s') : Goes s s' := by
  obtain ⟨request, found, rfl⟩ := map_eq_some_iff.1 ran
  have each : ∀ {P : Nat → Request → Prop}, P r { request with left := true } →
      (∀ x request, s.requests x = some request → P x request) →
      ∀ x after, (s.setRequest r { request with left := true }).requests x = some after → P x after := by
    intro P first rest x after held
    rcases update_cases held with ⟨rfl, ⟨⟩⟩ | ⟨-, held⟩
    · exact first
    · exact rest x after held
  have later : ∀ x before, s.requests x = some before → ∃ after,
      (s.setRequest r { request with left := true }).requests x = some after ∧ after.id = before.id ∧
        after.result = before.result := by
    intro x before held
    by_cases same : x = r
    · subst same
      cases found.symm.trans held
      exact ⟨{ request with left := true }, by simp [setRequest], rfl, rfl⟩
    · exact ⟨before, by simpa [setRequest, same] using held, rfl, rfl⟩
  have slots : ∀ other, Keyed.get other (Keyed.erase request.id s.pending) =
      if request.id = other then none else Keyed.get other s.pending := fun other => Keyed.get_erase
  refine ⟨{ waits with
    fresh := ?_, ids := ?_, apart := ?_, unsubmitted := ?_, pending := ?_, held := ?_, results := ?_ },
    ⟨failed.closing, failed.ready, ?_, failed.prompt⟩, .refl _, fun _ its => its, ?_⟩
  · intro n late
    refine eq_none_iff_forall_ne_some.2 ?_
    intro after held
    refine each (P := fun x _ => s.made ≤ x → False) ?_ ?_ n after held late
    · intro late
      rw [waits.fresh r late] at found
      cases found
    · intro x request held late
      rw [waits.fresh x late] at held
      cases held
  · exact each (waits.ids r request found) waits.ids
  · intro x x' after after' held held' together
    have id : ∃ before, s.requests x = some before ∧ after.id = before.id :=
      each (P := fun x after => ∃ before, s.requests x = some before ∧ after.id = before.id)
        ⟨request, found, rfl⟩ (fun x request held => ⟨request, held, rfl⟩) x after held
    have id' : ∃ before, s.requests x' = some before ∧ after'.id = before.id :=
      each (P := fun x after => ∃ before, s.requests x = some before ∧ after.id = before.id)
        ⟨request, found, rfl⟩ (fun x request held => ⟨request, held, rfl⟩) x' after' held'
    obtain ⟨before, first, its⟩ := id
    obtain ⟨before', second, its'⟩ := id'
    exact waits.apart x x' before before' first second (by rw [← its, ← its', together])
  · intro t turn x after held open_
    exact each (P := fun _ after => after.id ≠ turn.id) (waits.unsubmitted t turn r request held open_ found)
      (fun x request found => waits.unsubmitted t turn x request held open_ found) x after
  · intro x after held stays
    rcases update_cases held with ⟨rfl, ⟨⟩⟩ | ⟨same, held⟩
    · cases stays
    refine (slots after.id).trans ?_
    rw [if_neg fun together => same (waits.apart x r after request held found together.symm)]
    exact waits.pending x after held stays
  · intro other x its
    have its := (slots other).symm.trans its
    obtain ⟨-, its⟩ := of_barred its
    obtain ⟨before, held, named⟩ := waits.held other x its
    obtain ⟨after, held', id, -⟩ := later x before held
    exact ⟨after, held', id.trans named⟩
  · intro x completion
    refine (waits.results x completion).trans ⟨?_, ?_⟩
    · rintro ⟨before, held, settled⟩
      obtain ⟨after, held', -, result⟩ := later x before held
      exact ⟨after, held', result.trans settled⟩
    · rintro ⟨after, held, settled⟩
      exact each (P := fun x after => after.result = some completion →
        ∃ request, s.requests x = some request ∧ request.result = some completion)
        (fun settled => ⟨request, found, settled⟩) (fun x request held settled => ⟨request, held, settled⟩)
        x after held settled
  · intro first
    exact each (by simp) (failed.requests first)
  · intro none_ message its
    cases none_.symm.trans its

/-! ### Prompts -/

theorem goes_prompt (ran : s.prompt = some s') : Goes s s' := by
  obtain ⟨-, ran⟩ := of_barred ran
  rcases @ensureRunning_cases s with ⟨error, same⟩ | ⟨-, same⟩ | ⟨first, -, same⟩
  · rw [same] at ran
    cases ran
    exact .of_calm waits failed (.refl s)
  · rw [same] at ran
    cases ran
    exact .record waits (.refl s) (fun _ its => its) _ (.refl _)
  · rw [same] at ran
    cases ran
    obtain ⟨new, apart⟩ := waits.nextId_fresh
    have next := waits.nextId
    have each : ∀ {P : Nat → PromptRun → Prop}, P s.made { id := s.nextId.1 } →
        (∀ x turn, s.turns x = some turn → P x turn) →
        ∀ x after, update s.turns s.made (some { id := s.nextId.1 }) x = some after → P x after := by
      intro P first rest x after held
      rcases update_cases held with ⟨rfl, ⟨⟩⟩ | ⟨-, held⟩
      · exact first
      · exact rest x after held
    have none_ : ∀ message, s.failure ≠ some message := by simp [first]
    refine ⟨{ next with
      fresh := ?_, freshTurn := ?_, turnIds := ?_, turnsApart := ?_, unsubmitted := ?_, current := ?_ },
      ⟨?_, ?_, ?_, ?_⟩, .refl _, fun _ its => its, fun _ message its => absurd its (none_ message)⟩
    · exact fun n late => waits.fresh n (Nat.le_of_succ_le late)
    · intro n late
      have late : s.made + 1 ≤ n := late
      have other : n ≠ s.made := by omega
      exact (update_of_ne other ..).trans (waits.freshTurn n (by omega))
    · exact each ⟨s.requestId + 1, Nat.le_refl _, rfl⟩ next.turnIds
    · intro x x' after after' held held' together
      by_cases same : x = s.made
      · by_cases same' : x' = s.made
        · exact same.trans same'.symm
        have found' : s.turns x' = some after' := (update_of_ne same' ..).symm.trans held'
        subst same
        cases (update_self ..).symm.trans held
        exact absurd together.symm (apart x' after' found')
      · have found : s.turns x = some after := (update_of_ne same ..).symm.trans held
        by_cases same' : x' = s.made
        · subst same'
          cases (update_self ..).symm.trans held'
          exact absurd together (apart x after found)
        · have found' : s.turns x' = some after' := (update_of_ne same' ..).symm.trans held'
          exact waits.turnsApart x x' after after' found found' together
    · intro x after r request held open_ found
      exact each (P := fun _ turn => turn.submitted = false → request.id ≠ turn.id)
        (fun _ => new r request found) (fun x turn held open_ => waits.unsubmitted x turn r request held
          open_ found) x after held open_
    · intro x its
      have its : s.made = x := some.inj its
      subst its
      exact ⟨_, update_self ..⟩
    · exact fun some_ => absurd (show s.failure.isSome = true from some_) (by simp [first])
    · exact fun some_ => absurd (show s.failure.isSome = true from some_) (by simp [first])
    · exact fun some_ => absurd (show s.failure.isSome = true from some_) (by simp [first])
    · exact fun some_ => absurd (show s.failure.isSome = true from some_) (by simp [first])

theorem goes_submit (ran : s.submit = some s') : Goes s s' := by
  obtain ⟨t, now, went⟩ := bind_eq_some_iff.1 ran
  obtain ⟨turn, found, went⟩ := bind_eq_some_iff.1 went
  obtain ⟨open_, went⟩ := of_barred went
  have calm : Calm s (s.setTurn t { turn with submitted := true }) := calm_setTurn found rfl nofun rfl
  have waits' := waits.later calm.toLater
  rcases @ensureRunning_cases (s.setTurn t { turn with submitted := true }) with
    ⟨error, same⟩ | ⟨-, same⟩ | ⟨first, -, same⟩
  · rw [same] at went
    cases went
    exact .of_calm waits failed calm
  · rw [same] at went
    cases went
    exact .record waits calm (fun _ its => its) _ (.refl _)
  · rw [same] at went
    cases went
    have open_ : turn.submitted = false := by simpa using open_
    refine .register first waits' (waits.turnIds t turn found) rfl rfl ?_ ?_
    · exact fun r request held => waits.unsubmitted t turn r request found open_ held
    intro x after held pending same'
    rcases update_cases held with ⟨rfl, ⟨⟩⟩ | ⟨same, held⟩
    · cases pending
    · exact same (waits.turnsApart x t after turn held found same')

end

theorem calm_endPrompt : Calm s { s with turn := none } :=
  { Calm.refl s with
    turn := nofun
    now := fun _ _ => .inr rfl }

theorem goes_retireSurvivors (waits : s.Waits) (failed : s.Failed) (count : Nat) :
    Goes s ({ s with prompting := none }.retireSurvivors count) := by
  have calm : Calm s { s with prompting := none } := calm_of_eq (Nat.le_refl _)
  unfold retireSurvivors
  split
  · exact .of_calm waits failed calm
  · exact .record waits calm (fun _ its => its) _ (.refl _)

theorem goes_promptOver (waits : s.Waits) (failed : s.Failed) {survives : Bool}
    (ran : s.promptOver survives = some s') : Goes s s' := by
  obtain ⟨-, ran⟩ := of_barred ran
  obtain ⟨t, -, rfl⟩ := map_eq_some_iff.1 ran
  exact goes_retireSurvivors waits failed _

/-! ### Callbacks -/

theorem calm_answer {callback : Callback} : Calm s (s.answer k callback turn) := by
  unfold answer
  dsimp only
  split
  · exact calm_setCallback.trans calm_note
  split
  · exact calm_setCallback.trans calm_note
  · exact calm_setCallback.trans calm_note

theorem calm_resumeCallback {input : CallbackInput} (ran : s.resumeCallback k input = some s') : Calm s s' := by
  obtain ⟨callback, found, went⟩ := bind_eq_some_iff.1 ran
  obtain ⟨turn, found', went⟩ := bind_eq_some_iff.1 went
  clear ran
  split at went
  · split at went
    · cases went
      exact calm_setCallback
    · cases went
      exact calm_setCallback.trans calm_note
  · cases went
    exact calm_answer
  · cases went
    exact calm_setCallback
  · cases went
    exact calm_setCallback
  · cases went
    exact calm_setCallback
  · cases went
    exact calm_setCallback
  · cases went

/-- A write's own failure is recorded, and what follows fails at most a prompt. -/
theorem goes_recordWrite {s₁ s₂ : Client} (waits : s.Waits) (failed : s.Failed) (calm : Calm s s₁)
    (now : ∀ t, s.turn = some t → s₁.turn = some t) (error : Option PromptError)
    (later : Later (s₁.recordWrite error) s₂) : Goes s s₂ := by
  unfold recordWrite at later
  split at later
  · exact .record waits calm now _ later
  · exact .of_later waits failed (calm.toLater.trans later)

theorem goes_written (waits : s.Waits) (failed : s.Failed) {wrote : Bool} {error : Option PromptError}
    (ran : s.written k wrote error = some s') : Goes s s' := by
  obtain ⟨callback, found, went⟩ := bind_eq_some_iff.1 ran
  obtain ⟨-, ⟨⟩⟩ := of_passed went
  split
  · exact goes_recordWrite waits failed (calm_setCallback.trans calm_note) (fun _ its => its) error (.refl _)
  · exact goes_recordWrite waits failed calm_setCallback (fun _ its => its) error (.refl _)

theorem later_callbackFinished (ran : s.callbackFinished k = some s') : Later s s' := by
  obtain ⟨callback, found, went⟩ := bind_eq_some_iff.1 ran
  obtain ⟨turn, found', went⟩ := bind_eq_some_iff.1 went
  split at went
  · rename_i error _
    cases went
    have popped : Calm s (if Keyed.get callback.call.key turn.callbacks = some k then s.setTurn
        callback.call.turn { turn with callbacks := Keyed.erase callback.call.key turn.callbacks } else s) := by
      split
      · exact calm_setTurn found' rfl (fun its => its) rfl
      · exact .refl s
    split
    · exact (popped.trans calm_setCallback).toLater.trans (later_failTurn ..)
    · exact (popped.trans calm_setCallback).toLater
  · cases went

theorem goes_stopTask (waits : s.Waits) (failed : s.Failed) {wrote : Bool} {input : CallbackInput}
    (ran : s.stopTask k wrote input = some s') : Goes s s' := by
  obtain ⟨callback, found, went⟩ := bind_eq_some_iff.1 ran
  obtain ⟨turn, found', went⟩ := bind_eq_some_iff.1 went
  clear ran
  split at went
  · rcases @ensureRunning_cases s with ⟨error, same⟩ | ⟨-, same⟩ | ⟨first, -, same⟩
    · rw [same] at went
      cases went
      exact .of_later waits failed (calm_setCallback.toLater.trans (later_failTurn ..))
    · rw [same] at went
      cases went
      exact .record waits (.refl s) (fun _ its => its) _ (calm_setCallback.toLater.trans (later_failTurn ..))
    · rw [same] at went
      cases went
      have registered := @Goes.registerNext s "abort" first waits
      have quiet : Calm (s.nextId.2.register s.nextId.1 "abort") _ :=
        @calm_setCallback _ k { callback with stop := some .writing }
      refine ⟨registered.waits.later quiet.toLater, registered.failed.later registered.waits quiet.toLater,
        registered.completions, registered.first, ?_⟩
      exact fun none_ message its => (registered.fails none_ message its).behind quiet.toLater
  · cases went
    split
    · exact .of_calm waits failed (calm_setCallback.trans calm_note)
    · exact .of_calm waits failed calm_setCallback
  · rename_i error _ _
    cases went
    split
    · exact goes_recordWrite waits failed (calm_setCallback.trans calm_note) (fun _ its => its) _
        (later_failTurn ..)
    · exact goes_recordWrite waits failed calm_setCallback (fun _ its => its) _ (later_failTurn ..)
  · cases went
    split
    · exact .of_calm waits failed (calm_setCallback.trans calm_note)
    · exact .of_calm waits failed calm_setCallback
  · cases went
    have over_ : Calm s (s.setCallback k { callback with stop := some .over }) := calm_setCallback
    have stopped := @calm_setTurn (s.setCallback k { callback with stop := some .over }) callback.call.turn turn
      found' { turn with stopped := true } rfl (fun its => its) rfl
    exact .of_calm waits failed (over_.trans stopped)
  · cases went
    exact .of_later waits failed (calm_setCallback.toLater.trans (later_failTurn ..))
  · cases went
    exact .of_calm waits failed calm_setCallback
  · cases went
    exact .of_calm waits failed calm_setCallback
  · cases went

theorem calm_stopAfterTool (id : String) : Calm s (s.stopAfterTool id) := by
  unfold stopAfterTool
  split
  · exact .refl s
  split
  · exact .refl s
  rename_i turn found
  split
  · exact .refl s
  split
  · exact .refl s
  have moved := @calm_setTurn s _ turn found { turn with stopAfterToolId := some id } rfl
    (fun its => its) rfl
  exact moved.trans calm_note

/-! ### Frames -/

theorem calm_startCallback {kind : OmpCallbackKind} (found : s.turns t = some turn)
    (started : s.startCallback t turn kind id = .ok s') : Calm s s' := by
  unfold startCallback at started
  split at started
  · cases started
    exact .refl s
  · split at started
    · cases started
    cases started
    have slotted := @calm_setTurn s t turn found
      { turn with callbacks := Keyed.setItem (kind, id) s.made turn.callbacks } rfl (fun its => its) rfl
    exact slotted.trans (calm_of_eq (Nat.le_succ _))

theorem calm_cancelCallback {kind : OmpCallbackKind} (found : s.turns t = some turn) :
    Calm s (s.cancelCallback t turn kind id) := by
  unfold cancelCallback
  split
  · exact .refl s
  have popped := @calm_setTurn s t turn found { turn with callbacks := Keyed.erase (kind, id) turn.callbacks }
    rfl (fun its => its) rfl
  exact popped.trans calm_note

theorem activeTurn_some (active : s.activeTurn = some (t, turn)) : s.turn = some t ∧ s.turns t = some turn := by
  obtain ⟨u, now, its⟩ := bind_eq_some_iff.1 active
  obtain ⟨other, found, same⟩ := map_eq_some_iff.1 its
  cases same
  exact ⟨now, found⟩

theorem later_rejectPrompt (success : Bool) : Later s (s.rejectPrompt id command success) := by
  unfold rejectPrompt
  split
  · exact .refl s
  rename_i t turn active
  split
  · have rejected := @calm_setTurn s t turn (activeTurn_some active).2 { turn with rejected := true } rfl
      (fun its => its) rfl
    exact rejected.toLater.trans (later_failTurn ..)
  · exact .refl s

theorem dispatchResponse_cases (waits : s.Waits) {id : Option String} {success : Bool}
    (dispatched : s.dispatchResponse id command success = .ok s') : Later s s' ∨
    ∃ r request, id = some request.id ∧ s.requests r = some request ∧ request.command = command ∧
      s' = s.complete r (.response request.id command success) := by
  cases id with
  | none => cases dispatched
  | some id =>
    simp only [dispatchResponse] at dispatched
    split at dispatched
    · cases dispatched
    rename_i fits
    split at dispatched
    · cases dispatched
      exact .inl (later_rejectPrompt success)
    · rename_i r request waiting
      split at dispatched
      · cases dispatched
        exact .inl (later_rejectPrompt success)
      · cases dispatched
        obtain ⟨x, its, held⟩ := bind_eq_some_iff.1 waiting
        obtain ⟨other, found, same⟩ := map_eq_some_iff.1 held
        cases same
        obtain ⟨named, found', rfl⟩ := waits.held id r its
        cases found.symm.trans found'
        have answers : request.command = command := by simpa [expectedCommand, waiting] using fits
        exact .inr ⟨r, request, rfl, found, answers, rfl⟩

theorem Failed.complete (failed : s.Failed) (r : Nat) (completion : Completion) :
    (s.complete r completion).Failed := by
  obtain ⟨C, same, -⟩ := @complete_eq s r completion
  have requests := @complete_requests s r completion
  rw [same] at requests ⊢
  refine ⟨failed.closing, failed.ready, ?_, failed.prompt⟩
  intro first x after held stays
  have held := (requests x).symm.trans held
  split at held
  · rename_i here
    obtain ⟨request, found, rfl⟩ := map_eq_some_iff.1 held
    have settled := failed.requests first r request found stays
    obtain ⟨result, its⟩ := isSome_iff_exists.1 settled
    simp [Request.settle, its]
  · exact failed.requests first x after held stays

section

variable (waits : s.Waits)
include waits

/-- A prompt whose backlog is full fails with what is recorded. -/
theorem goes_overflow (now : s.turn = some t) (found : s.turns t = some turn) (message : String) :
    Goes s ((s.failTurn t (.process (.failure message))).recordFailure message) := by
  have later : Later s (s.failTurn t (.process (.failure message))) := later_failTurn t _
  have waits' := waits.later later
  obtain ⟨C, T, same, from_⟩ := @recordFailure_eq (s.failTurn t (.process (.failure message))) message
  refine ⟨waits'.recordFailure message, waits'.failed_recordFailure message, ?_, ?_, ?_⟩
  · rw [same, ← later.completions]
    exact from_.mono fun p new => ⟨_, rfl, new⟩
  · intro first held
    rw [same, later.failure, held]
    rfl
  · intro none_ first its
    have none' := later.failure.trans none_
    obtain ⟨failure, fails⟩ := waits'.failsWith_recordFailure none' message
    obtain rfl := some.inj (failure.symm.trans its)
    refine ⟨?_, ?_, ?_⟩
    · rw [← later.requests]
      exact fails.requests
    · rw [← later.ready]
      exact fails.ready
    · intro u other now' found' going
      obtain rfl := some.inj (now.symm.trans now')
      cases found.symm.trans found'
      have failed : (s.failTurn t (.process (.failure message))).turns t =
          some (turn.fail (.process (.failure message))) := by
        simp [failTurn_eq, found]
      have its : (turn.fail (.process (.failure message))).failure = some (.process (.failure message)) := by
        simp [PromptRun.fail, going]
      refine ⟨turn.fail (.process (.failure message)), ?_, its⟩
      rw [same]
      dsimp only
      have active : (s.failTurn t (.process (.failure message))).turn = some t := by
        rw [failTurn_eq]
        exact now
      rw [if_pos active, failed, map_some, PromptRun.fail_of_failed its]

theorem goes_dispatchPayload (failed : s.Failed) {frame : Frame}
    (dispatched : s.dispatchPayload frame = .ok s') : Told s s' (.frame frame) := by
  have calm : ∀ {s'}, Calm s s' → Told s s' (.frame frame) := fun calm =>
    (Goes.of_calm waits failed calm).told _
  cases frame with
  | ready =>
    cases dispatched
    refine ⟨{ waits with }, ⟨failed.closing, ?_, failed.requests, failed.prompt⟩, .refl _, fun _ its => its, ?_⟩
    · intro first
      obtain ⟨ready, its⟩ := isSome_iff_exists.1 (failed.ready first)
      simp [its]
    · intro none_ message its
      cases none_.symm.trans its
  | frameError error => cases dispatched
  | response id command success =>
    rcases dispatchResponse_cases waits dispatched with later | ⟨r, request, rfl, found, rfl, rfl⟩
    · exact (Goes.of_later waits failed later).told _
    obtain ⟨C, same, from_⟩ := @complete_eq s r (.response request.id request.command success)
    refine ⟨waits.complete r _, failed.complete r _, ?_, ?_, ?_⟩
    · rw [same]
      refine from_.mono ?_
      rintro p rfl
      exact .inl ⟨_, _, success, request, rfl, found, rfl, rfl, rfl⟩
    · intro message held
      rw [same]
      exact held
    · intro none_ message its
      rw [same] at its
      cases none_.symm.trans its
  | hostToolCall id =>
    simp only [dispatchPayload] at dispatched
    split at dispatched
    · cases dispatched
    · rename_i t turn active
      exact calm (calm_startCallback (activeTurn_some active).2 dispatched)
  | hostToolCancel target =>
    simp only [dispatchPayload] at dispatched
    split at dispatched
    · cases dispatched
      exact calm (.refl s)
    · rename_i t turn active
      cases dispatched
      exact calm (calm_cancelCallback (activeTurn_some active).2)
  | uiRequest id =>
    simp only [dispatchPayload] at dispatched
    split at dispatched
    · cases dispatched
      exact calm (.refl s)
    · rename_i t turn active
      exact calm (calm_startCallback (activeTurn_some active).2 dispatched)
  | uiCancel target =>
    cases target with
    | none => cases dispatched
    | some target =>
      simp only [dispatchPayload] at dispatched
      split at dispatched
      · cases dispatched
        exact calm (.refl s)
      · rename_i t turn active
        cases dispatched
        exact calm (calm_cancelCallback (activeTurn_some active).2)
  | event overflow =>
    simp only [dispatchPayload] at dispatched
    split at dispatched
    · cases dispatched
      exact calm (.refl s)
    · rename_i t turn active
      split at dispatched
      · cases dispatched
        obtain ⟨now, found⟩ := activeTurn_some active
        exact (goes_overflow waits now found _).told _
      · cases dispatched
        exact calm (.refl s)
  | other =>
    cases dispatched
    exact calm (.refl s)

theorem goes_recordFailure (calm : Calm s s')
    (now : ∀ t, s.turn = some t → s'.turn = some t) (message : String) : Goes s (s'.recordFailure message) :=
  .record waits calm now message (.refl _)

/-- The close task completes those that still wait. -/
theorem goes_closeRuns (failed : s.Failed) (ran : s.closeRuns = some s') : Told s s' .closeRuns := by
  obtain ⟨made, ⟨⟩⟩ := of_passed ran
  have closing := waits.closes _ made
  have running : Waits { s with closeTask := some .running } := { waits with closes := fun _ _ => closing }
  let error := s.failure.elim ProcessError.closed ProcessError.failure
  obtain ⟨C, same, from_⟩ := @failPending_eq { s with closeTask := some .running } error
  refine ⟨running.failPending error, ?_, ?_, ?_, ?_⟩
  · rw [same]
    refine ⟨fun _ => closing, fun _ => ?_, fun first => ?_, fun first => ?_⟩
    · cases s.ready <;> rfl
    · intro r after held stays
      dsimp only at held
      split at held
      · obtain ⟨request, found, rfl⟩ := map_eq_some_iff.1 held
        cases its : request.result <;> simp [Request.settle, its]
      · exact failed.requests first r after held stays
    · intro t turn its held
      dsimp only at its held
      rw [if_pos its] at held
      obtain ⟨before, found, rfl⟩ := map_eq_some_iff.1 held
      cases failure : before.failure <;> simp [PromptRun.fail, failure]
  · rw [same]
    refine from_.mono ?_
    intro p new
    rcases Option.eq_none_or_eq_some s.failure with first | ⟨message, first⟩
    · exact .inr (.inr ⟨rfl, closing, first, by simpa [error, first] using new⟩)
    · exact .inr (.inl ⟨message, first, by simpa [error, first] using new⟩)
  · intro message held
    rw [same]
    exact held
  · intro none_ message its
    rw [same] at its
    cases none_.symm.trans its

/-! ### Every step -/

theorem goes_step (failed : s.Failed) {event : Event} (stepped : s.step event = some s') : Told s s' event := by
  have reader : Calm s { s with reading := false } := calm_of_eq (Nat.le_refl _)
  cases event with
  | frame frame =>
    obtain ⟨-, stepped⟩ := of_passed stepped
    split at stepped
    · rename_i dispatched
      cases stepped
      exact goes_dispatchPayload waits failed dispatched
    · cases stepped
      exact (goes_recordFailure waits reader (fun _ its => its) _).told _
  | readerEnds failure =>
    cases stepped
    cases failure with
    | none => exact (Goes.of_calm waits failed reader).told _
    | some message => exact (goes_recordFailure waits reader (fun _ its => its) _).told _
  | fails message =>
    cases stepped
    exact (goes_recordFailure waits (.refl s) (fun _ its => its) _).told _
  | exits =>
    cases stepped
    exact (Goes.of_calm waits failed (calm_of_eq (Nat.le_refl _))).told _
  | request command =>
    cases stepped
    exact (goes_requestFrame waits failed).told _
  | leave r => exact (goes_leave waits failed stepped).told _
  | prompt => exact (goes_prompt waits failed stepped).told _
  | submit => exact (goes_submit waits failed stepped).told _
  | endPrompt =>
    obtain ⟨t, -, rfl⟩ := map_eq_some_iff.1 stepped
    exact (Goes.of_calm waits failed calm_endPrompt).told _
  | promptOver survives => exact (goes_promptOver waits failed stepped).told _
  | callback k input => exact (Goes.of_calm waits failed (calm_resumeCallback stepped)).told _
  | written k wrote error => exact (goes_written waits failed stepped).told _
  | callbackFinished k => exact (Goes.of_later waits failed (later_callbackFinished stepped)).told _
  | stopTask k wrote input => exact (goes_stopTask waits failed stepped).told _
  | stopAfterTool id =>
    cases stepped
    exact (Goes.of_calm waits failed (calm_stopAfterTool id)).told _
  | close =>
    cases stepped
    obtain ⟨phase, same⟩ := @beginClose_eq s
    refine ⟨waits.beginClose, ?_, ?_, ?_, ?_⟩
    · rw [same]
      exact ⟨fun _ => rfl, failed.ready, failed.requests, failed.prompt⟩
    · rw [same]
      exact .refl _
    · intro message held
      rw [same]
      exact held
    · intro none_ message its
      rw [same] at its
      cases none_.symm.trans its
  | closeRuns => exact goes_closeRuns waits failed stepped
  | closeAborts =>
    obtain ⟨able, stepped⟩ := of_passed stepped
    obtain ⟨closing, first, -⟩ := able
    cases stepped
    have aborting : Waits { s with closeTask := some .aborting } :=
      { waits with closes := fun _ _ => waits.closes _ closing }
    have registered := @Goes.registerNext { s with closeTask := some .aborting } "abort" first aborting
    refine ⟨registered.waits, registered.failed, ?_, registered.first, ?_⟩
    · exact registered.completions.mono fun _ its => .inr (.inl its)
    · intro _ message its
      cases first.symm.trans its
  | closeEnds ok =>
    obtain ⟨running, ⟨⟩⟩ := of_passed stepped
    have closing : s.closing = true := running.elim (waits.closes _) (waits.closes _)
    refine ⟨{ waits with closes := fun _ _ => closing }, ⟨failed.closing, failed.ready, failed.requests,
      failed.prompt⟩, .refl _, fun _ its => its, ?_⟩
    intro none_ message its
    cases none_.symm.trans its

end

end BandSdk.OmpRpc.Client

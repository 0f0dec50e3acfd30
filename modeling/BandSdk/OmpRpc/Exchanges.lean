/-
# OmpRpc.Exchanges -- every request, and every callback, is answered once

One lemma for each method that touches a callback, and from them what holds over a run:
a request is completed once and for a reason, a failure reaches everyone that waits, and
an accepted callback is answered at most once, never behind its cancellation, a close, or
another tool's stop.
-/
import BandSdk.OmpRpc.Answers

namespace BandSdk.OmpRpc

open BandSdk.Theory List Option Function

namespace Client

variable {s s' : Client} {r t k : Nat} {turn : PromptRun} {callback : Callback} {id command : String}
  {kind : OmpCallbackKind}

/-! ## Requests and prompts -/

section

variable (answers : s.Answers)
include answers

theorem Answers.register : (s.register id command).Answers :=
  { answers with
    fresh := fun n late => answers.fresh n (Nat.le_of_succ_le late)
    freshTurn := fun n late => answers.freshTurn n (Nat.le_of_succ_le late) }

theorem Answers.registerNext : (s.nextId.2.register s.nextId.1 command).Answers :=
  @Answers.register s.nextId.2 _ command { answers with }

theorem Answers.requestFrame : (s.requestFrame command).Answers := by
  unfold Client.requestFrame
  rcases @ensureRunning_cases s with ⟨error, same⟩ | ⟨-, same⟩ | ⟨-, -, same⟩
  · rw [same]
    exact answers
  · rw [same]
    exact answers.recordFailure _
  · rw [same]
    exact answers.registerNext

theorem Answers.leave (ran : s.leave r = some s') : s'.Answers := by
  obtain ⟨request, -, rfl⟩ := map_eq_some_iff.1 ran
  exact { answers with }

/-- A prompt begins, and the one before it is over: no callback is left, and its stop counts no more. -/
theorem Answers.begin_ (idle : s.prompting = none) (first : s.failure = none)
    (prompt : String) (requestId : Nat) :
    Answers ({ s.setTurn s.made { id := prompt } with
      requestId := requestId, turn := some s.made, prompting := some s.made, lastTurn := some s.made
      made := s.made + 1 }.note (.prompted s.made)) := by
  have allOver : ∀ k callback, s.callbacks k = some callback → callback.phase.isOver = true := by
    rcases answers.idle idle with failed | all
    · rw [first] at failed
      cases failed
    · exact all
  have old : ∀ {new : Note}, new ≠ .prompted s.made → new ∈ s.log ++ [.prompted s.made] → new ∈ s.log := by
    intro new other mem
    rcases mem_concat mem with old | now
    · exact old
    · exact absurd now other
  have none_ : ∀ t id, ¬ Stopping t id (s.log ++ [.prompted s.made]) := by
    intro t id is
    rw [Stopping, Open.snoc] at is
    rcases is with now | ⟨-, never⟩
    · cases now
    · exact never ⟨s.made, rfl⟩
  refine {
    fresh := fun n late => answers.fresh n (Nat.le_of_succ_le late)
    freshTurn := ?_
    now := fun _ its => its
    last := fun _ its => its
    alone := ?_
    idle := by rintro ⟨⟩
    named := answers.named
    slots := ?_
    gone := fun k mem => answers.gone k (old (by simp) mem)
    closes := fun mem => answers.closes (old (by simp) mem)
    stops := ?_
    stopping := fun t id is => absurd is (none_ t id)
    unstopped := answers.unstopped
    unreplied := fun k callback found may mem => answers.unreplied k callback found may (old (by simp) mem)
    willReply := fun k callback found will => mem_append_left _ (answers.willReply k callback found will)
    replied := ?_
    once := ?_
    active := fun call => (answers.active call).snoc (by simp)
    others := fun t id => (answers.others t id).snoc ?_
    starts := fun t id => (answers.starts t id).snoc ?_
    othersOf := fun t id => (answers.othersOf t id).snoc ?_
    startsOf := fun t id => (answers.startsOf t id).snoc ?_ }
  · intro n late
    have other : n ≠ s.made := Nat.ne_of_gt late
    exact (update_of_ne other ..).trans (answers.freshTurn n (Nat.le_of_succ_le late))
  · intro k callback found open_
    rw [allOver k callback found] at open_
    cases open_
  · intro t turn key k found slot
    rcases update_cases found with ⟨rfl, ⟨⟩⟩ | ⟨-, found⟩
    · cases slot
    · obtain ⟨known, clear⟩ := answers.slots t turn key k found slot
      exact ⟨known, fun mem => clear (old (by simp) mem)⟩
  · intro t id mem
    obtain ⟨turn, found, stop⟩ := answers.stops t id (old (by simp) mem)
    have other : t ≠ s.made := by
      rintro rfl
      rw [answers.freshTurn s.made (Nat.le_refl _)] at found
      cases found
    exact ⟨turn, (update_of_ne other ..).trans found, stop⟩
  · intro k mem
    obtain ⟨callback, found, order⟩ := answers.replied k (old (by simp) mem)
    exact ⟨callback, found, order.trans (sublist_append_left ..)⟩
  · show ((s.log ++ [Note.prompted s.made]).filterMap Note.replies).Nodup
    have silent : [Note.prompted s.made].filterMap Note.replies = [] := rfl
    rw [filterMap_append, silent, append_nil]
    exact answers.once
  · rintro ⟨call, now, -⟩
    cases now
  · rintro ⟨call, now | now⟩
    · cases now
    · cases now
  · rintro ⟨call, now, -⟩
    cases now
  · rintro ⟨call, now | now, -⟩
    · cases now
    · cases now

theorem Answers.prompt (ran : s.prompt = some s') : s'.Answers := by
  obtain ⟨free, ran⟩ := of_barred ran
  have idle : s.prompting = none := by simpa using free
  rcases @ensureRunning_cases s with ⟨error, same⟩ | ⟨-, same⟩ | ⟨first, -, same⟩
  · rw [same] at ran
    cases ran
    exact answers
  · rw [same] at ran
    cases ran
    exact answers.recordFailure _
  · rw [same] at ran
    cases ran
    exact answers.begin_ idle first _ _

theorem Answers.submit (ran : s.submit = some s') : s'.Answers := by
  obtain ⟨t, now, went⟩ := bind_eq_some_iff.1 ran
  obtain ⟨turn, found, went⟩ := bind_eq_some_iff.1 went
  obtain ⟨-, went⟩ := of_barred went
  have submitted := @Answers.setTurn s t turn answers found { turn with submitted := true } rfl rfl
  rcases @ensureRunning_cases (s.setTurn t { turn with submitted := true }) with
    ⟨error, same⟩ | ⟨-, same⟩ | ⟨-, -, same⟩
  · rw [same] at went
    cases went
    exact submitted
  · rw [same] at went
    cases went
    exact submitted.recordFailure _
  · rw [same] at went
    cases went
    exact submitted.register

theorem Answers.endPrompt : Answers { s with turn := none } :=
  { answers with now := nofun }

theorem Answers.retireSurvivors (off : s.turn = none) (count : Nat)
    (all : count = 0 → ∀ k callback, s.callbacks k = some callback → callback.phase.isOver = true) :
    ({ s with prompting := none }.retireSurvivors count).Answers := by
  have none_ : ∀ t, s.turn = some t → (none : Option Nat) = some t := by
    intro t now
    rw [off] at now
    cases now
  unfold Client.retireSurvivors
  split
  · rename_i zero
    exact { answers with now := none_, last := nofun, idle := fun _ => .inr (all zero) }
  · obtain ⟨C, T, same, -⟩ := @recordFailure_eq { s with prompting := none }
      ("OMP callbacks survived cancellation: " ++ toString count ++
        " task(s) still pending; retirement is unproven")
    rw [same]
    have failed := answers.close.failTurns (.process (.failure (s.failure.getD
      ("OMP callbacks survived cancellation: " ++ toString count ++
        " task(s) still pending; retirement is unproven")))) (s.turn = some ·)
    exact { failed with now := none_, last := nofun, idle := fun _ => .inl rfl }

theorem Answers.promptOver {survives : Bool} (ran : s.promptOver survives = some s') : s'.Answers := by
  obtain ⟨off, ran⟩ := of_barred ran
  have off : s.turn = none := by simpa using off
  obtain ⟨t, its, rfl⟩ := map_eq_some_iff.1 ran
  refine answers.retireSurvivors off _ ?_
  intro zero k callback found
  have empty : s.survivors t = [] := eq_nil_of_length_eq_zero (Nat.eq_zero_of_add_eq_zero_right zero)
  by_contra going
  have going : callback.phase.isOver = false := by simpa using going
  have same : callback.call.turn = t :=
    some.inj ((answers.alone k callback found going).symm.trans (answers.last t its))
  have made : k < s.made := by
    by_contra late
    rw [answers.fresh k (by omega)] at found
    cases found
  have mem : k ∈ s.survivors t := by
    simp [survivors, made, found, same, going]
  rw [empty] at mem
  cases mem

/-! ## Callbacks -/

/-- A callback that goes on is of the prompt that began last; one stop of it is all that counts. -/
theorem Answers.stopped_of (found : s.callbacks k = some callback)
    (going : callback.phase.isOver = false) (found' : s.turns callback.call.turn = some turn)
    (stopping : Stopping t id s.log) : callback.call.turn = t ∧ turn.stopAfterToolId = some id := by
  have same : callback.call.turn = t := some.inj
    ((answers.alone k callback found going).symm.trans (answers.stopping t id stopping))
  obtain ⟨other, held, stop⟩ := answers.stops t id stopping.mem
  subst same
  cases found'.symm.trans held
  exact ⟨rfl, stop⟩

theorem Answers.unstopped_of (found : s.turns t = some turn)
    (stop : turn.stopAfterToolId = none) : .stopped t id ∉ s.log := by
  intro mem
  obtain ⟨before, found', stop'⟩ := answers.stops t id mem
  cases found.symm.trans found'
  rw [stop] at stop'
  cases stop'

/-- A request is accepted under a number of its own. -/
theorem Answers.accept (now : s.turn = some t) (found : s.turns t = some turn)
    (stop : turn.stopAfterToolId = none) {call : Call} (number : call.number = s.made)
    (inTurn : call.turn = t) :
    Answers ({ (s.setTurn t { turn with callbacks := Keyed.setItem call.key s.made turn.callbacks }).setCallback
      s.made { call := call } with made := s.made + 1 }.note (.accepted call)) := by
  have last := answers.last t (answers.now t now)
  have new := answers.fresh s.made (Nat.le_refl _)
  have apart : ∀ {k callback}, s.callbacks k = some callback → k ≠ s.made := by
    rintro k callback found rfl
    rw [new] at found
    cases found
  have each : ∀ {P : Nat → Callback → Prop}, P s.made { call := call } →
      (∀ x callback, s.callbacks x = some callback → P x callback) →
      ∀ x callback, update s.callbacks s.made (some { call := call }) x = some callback → P x callback := by
    intro P first rest x other held
    rcases update_cases held with ⟨rfl, ⟨⟩⟩ | ⟨-, held⟩
    · exact first
    · exact rest x other held
  have stays : ∀ {x before}, s.callbacks x = some before →
      update s.callbacks s.made (some { call := call }) x = some before :=
    fun held => (update_of_ne (apart held) ..).trans held
  have accepted : Answers { (s.setTurn t { turn with
      callbacks := Keyed.setItem call.key s.made turn.callbacks }).setCallback s.made { call := call } with
      made := s.made + 1 } := by
    refine { answers with
      fresh := ?_, freshTurn := ?_, alone := ?_, idle := ?_, named := ?_, slots := ?_, gone := ?_, stops := ?_
      unstopped := ?_, unreplied := ?_, willReply := ?_, replied := ?_ }
    · intro n late
      have other : n ≠ s.made := Nat.ne_of_gt late
      exact (update_of_ne other ..).trans (answers.fresh n (Nat.le_of_succ_le late))
    · intro n late
      have other : n ≠ t := by
        rintro rfl
        rw [answers.freshTurn n (Nat.le_of_succ_le late)] at found
        cases found
      exact (update_of_ne other ..).trans (answers.freshTurn n (Nat.le_of_succ_le late))
    · exact each (fun _ => by rw [inTurn]; exact last) answers.alone
    · intro none_
      cases none_.symm.trans (answers.now t now)
    · exact each number answers.named
    · intro u other key j held slot
      have old : ∀ {before : PromptRun}, s.turns u = some before → Keyed.get key before.callbacks = some j →
          (∃ callback, update s.callbacks s.made (some { call := call }) j = some callback ∧
            callback.call.turn = u ∧ callback.call.key = key) ∧ .cancelled j ∉ s.log := by
        intro before found' slot'
        obtain ⟨⟨callback, known, its⟩, clear⟩ := answers.slots u before key j found' slot'
        exact ⟨⟨callback, stays known, its⟩, clear⟩
      rcases update_cases held with ⟨rfl, ⟨⟩⟩ | ⟨-, held⟩
      · rw [Keyed.get_setItem] at slot
        split at slot
        · rename_i its
          cases slot
          refine ⟨⟨{ call := call }, update_self .., inTurn, its⟩, ?_⟩
          intro mem
          obtain ⟨callback, known⟩ := answers.gone s.made mem
          exact apart known rfl
        · exact old found slot
      · exact old held slot
    · intro j mem
      obtain ⟨callback, known⟩ := answers.gone j mem
      exact ⟨callback, stays known⟩
    · intro u id mem
      obtain ⟨before, found', stop'⟩ := answers.stops u id mem
      by_cases same : u = t
      · subst same
        cases found.symm.trans found'
        rw [stop] at stop'
        cases stop'
      · exact ⟨before, (update_of_ne same ..).trans found', stop'⟩
    · exact each (fun _ => rfl) answers.unstopped
    · refine each ?_ answers.unreplied
      intro _ mem
      obtain ⟨callback, known, -⟩ := answers.replied s.made mem
      exact apart known rfl
    · refine each ?_ answers.willReply
      rintro (writing | stops | stops)
      · cases writing
      · cases stops
      · cases stops
    · intro j mem
      obtain ⟨callback, known, order⟩ := answers.replied j mem
      exact ⟨callback, stays known, order⟩
  refine accepted.note (by simp) (by simp) (by simp) (by simp) (by simp) (by simp) ?_ (by simp) ?_
  · intro _ u id _ stopping
    have same : t = u := some.inj (last.symm.trans (answers.stopping u id stopping))
    subst same
    exact answers.unstopped_of found stop stopping.mem
  · rintro other id (its | its)
    · obtain rfl := Note.accepted.inj its
      rw [inTurn]
      exact answers.unstopped_of found stop
    · cases its

theorem Answers.startCallback (now : s.turn = some t) (found : s.turns t = some turn)
    (started : s.startCallback t turn kind id = .ok s') : s'.Answers := by
  unfold Client.startCallback at started
  split at started
  · cases started
    exact answers
  · rename_i open_
    split at started
    · cases started
    cases started
    have stop : turn.stopAfterToolId = none := by
      simp only [Bool.or_eq_true, not_or, Bool.not_eq_true, Option.isSome_eq_false_iff,
        isNone_iff_eq_none] at open_
      exact open_.2
    exact @Answers.accept s t turn answers now found stop ⟨s.made, t, kind, id⟩ rfl rfl

theorem Answers.cancelCallback (found : s.turns t = some turn) : (s.cancelCallback t turn kind id).Answers := by
  unfold Client.cancelCallback
  split
  · exact answers
  rename_i k slot
  obtain ⟨popped, gone⟩ := answers.popSlot found (kind, id)
  obtain ⟨⟨callback, known, -⟩, -⟩ := answers.slots t turn (kind, id) k found slot
  refine popped.note nofun ?_ nofun nofun nofun nofun nofun nofun nofun
  intro j its
  obtain rfl := Note.cancelled.inj its
  exact ⟨⟨callback, known⟩, gone k slot⟩

/-! ### Handlers -/

/-- A handler returns and its answer is to be written: the request is active, and no other tool's stop
counts. -/
theorem Answers.returns (found : s.callbacks k = some callback)
    (going : callback.phase.isOver = false) (found' : s.turns callback.call.turn = some turn)
    (active : s.callbackStillActive callback.call turn = true)
    (mine : ¬ (callback.call.kind = .tool ∧ turn.stopAfterToolId.any (· ≠ callback.call.requestId) = true)) :
    (s.note (.returned callback.call true)).Answers := by
  obtain ⟨open_, slot⟩ : s.closing = false ∧
      Keyed.get callback.call.key turn.callbacks = some callback.call.number := by
    simpa [callbackStillActive] using active
  refine answers.note (by simp) (by simp) (by simp) (by simp) ?_ ?_ ?_ ?_ ?_
  · intro call its
    obtain ⟨rfl, -⟩ := Note.returned.inj its
    refine ⟨(answers.slots _ turn _ _ found' slot).2, fun mem => ?_⟩
    have closed := answers.closes mem
    rw [open_] at closed
    cases closed
  · intro call t id its tool other stopping
    obtain ⟨rfl, -⟩ := Note.returned.inj its
    obtain ⟨inTurn, stop⟩ := answers.stopped_of found going found' stopping
    refine mine ⟨tool, ?_⟩
    rw [stop]
    simpa using fun same => other ⟨inTurn, same.symm⟩
  · rintro call t id (its | its)
    · cases its
    · cases its
  · intro call id its tool other mem
    obtain ⟨rfl, -⟩ := Note.returned.inj its
    obtain ⟨before, held, stop⟩ := answers.stops _ id mem
    cases found'.symm.trans held
    refine mine ⟨tool, ?_⟩
    rw [stop]
    simpa using other.symm
  · rintro call id (its | its)
    · cases its
    · cases its

theorem Answers.answer (found : s.callbacks k = some callback)
    (handling : callback.phase = .handling) (found' : s.turns callback.call.turn = some turn) :
    (s.answer k callback turn).Answers := by
  have going : callback.phase.isOver = false := by rw [handling]; rfl
  have unreplied := answers.unreplied k callback found (.inl going)
  have unstopped := answers.unstopped k callback found going
  unfold Client.answer
  dsimp only
  split
  · exact (answers.finish found going rfl).aside callback.call
  rename_i will
  rw [not_or] at will
  obtain ⟨mine, active⟩ := will
  have returned := answers.returns found going found' (by simpa using active) mine
  have mem : .returned callback.call true ∈ (s.note (.returned callback.call true)).log :=
    mem_append_right _ (mem_singleton.2 rfl)
  have still : .replied k ∉ (s.note (.returned callback.call true)).log := by
    intro inside
    rcases mem_append.1 inside with old | now
    · exact unreplied old
    · cases mem_singleton.1 now
  split
  · exact @Answers.move _ k callback { callback with phase := .done none, stop := some .scheduled } returned
      found rfl nofun nofun (fun _ => still) (fun _ => mem)
  · exact @Answers.move _ k callback { callback with phase := .writing } returned found rfl (fun _ => going)
      (fun _ => unstopped) (fun _ => still) (fun _ => mem)

theorem Answers.resumeCallback {input : CallbackInput}
    (ran : s.resumeCallback k input = some s') : s'.Answers := by
  obtain ⟨callback, found, held⟩ := bind_eq_some_iff.1 ran
  obtain ⟨turn, found', went⟩ := bind_eq_some_iff.1 held
  clear ran held
  split at went
  · rename_i scheduled
    have going : callback.phase.isOver = false := by rw [scheduled]; rfl
    split at went
    · cases went
      exact answers.finish found going rfl
    · rename_i unstopped
      cases went
      have stop := answers.unstopped k callback found going
      have handling := @Answers.move s k callback { callback with phase := .handling } answers found rfl
        (fun _ => going) (fun _ => stop) (fun _ => answers.unreplied k callback found (.inl going))
        (by simp [Callback.WillReply, stop])
      have free : turn.stopAfterToolId = none := by simpa using unstopped
      refine handling.note nofun nofun nofun nofun nofun nofun ?_ nofun ?_
      · intro call t id _ stopping
        obtain ⟨-, its⟩ := answers.stopped_of found going found' stopping
        rw [free] at its
        cases its
      · rintro call id (its | its)
        · cases its
        · obtain rfl := Note.started.inj its
          exact answers.unstopped_of found' free
  · rename_i handling
    cases went
    exact answers.answer found handling found'
  · rename_i scheduled
    cases went
    exact answers.finish found (by rw [scheduled]; rfl) rfl
  · rename_i handling
    cases went
    exact answers.finish found (by rw [handling]; rfl) rfl
  · rename_i scheduled
    cases went
    exact answers.finish found (by rw [scheduled]; rfl) rfl
  · rename_i handling
    cases went
    exact answers.finish found (by rw [handling]; rfl) rfl
  · cases went

/-! ### Writes -/

/-- A frame is written by the one who had it, who has it no longer. -/
theorem Answers.reply (found : s.callbacks k = some callback)
    (never : ¬ callback.MayReply) (returned : .returned callback.call true ∈ s.log)
    (unreplied : .replied k ∉ s.log) : (s.note (.replied k)).Answers := by
  refine answers.note nofun nofun nofun ?_ nofun nofun ?_ nofun ?_
  · intro j its
    obtain rfl := Note.replied.inj its
    exact ⟨callback, found, never, returned, unreplied⟩
  · rintro call t id (its | its)
    · cases its
    · cases its
  · rintro call id (its | its)
    · cases its
    · cases its

theorem Answers.recordWrite (error : Option PromptError) : (s.recordWrite error).Answers := by
  unfold Client.recordWrite
  split
  · exact answers.recordFailure _
  · exact answers

theorem Answers.written {wrote : Bool} {error : Option PromptError}
    (ran : s.written k wrote error = some s') : s'.Answers := by
  obtain ⟨callback, found, went⟩ := bind_eq_some_iff.1 ran
  obtain ⟨writing, ⟨⟩⟩ := of_passed went
  have going : callback.phase.isOver = false := by rw [writing]; rfl
  have done : (s.setCallback k { callback with phase := .done error }).Answers :=
    answers.finish found going rfl
  refine Answers.recordWrite ?_ error
  split
  · have stop := answers.unstopped k callback found going
    have here : (s.setCallback k { callback with phase := .done error }).callbacks k =
        some { callback with phase := .done error } := update_self ..
    exact done.reply here (by simp [Callback.MayReply, CallbackPhase.isOver, stop])
      (answers.willReply k callback found (.inl writing)) (answers.unreplied k callback found (.inl going))
  · exact done

theorem Answers.callbackFinished (ran : s.callbackFinished k = some s') : s'.Answers := by
  obtain ⟨callback, found, went⟩ := bind_eq_some_iff.1 ran
  obtain ⟨turn, found', went⟩ := bind_eq_some_iff.1 went
  split at went
  · rename_i error done
    cases went
    have finished : ∀ {t : Client}, t.Answers → t.callbacks = s.callbacks → t.log = s.log →
        (t.setCallback k { callback with phase := .finished }).Answers := by
      intro t answers' same log
      have found'' : t.callbacks k = some callback := by rw [same]; exact found
      refine @Answers.move t k callback { callback with phase := .finished } answers' found'' rfl nofun nofun
        ?_ ?_
      · rintro (open_ | stops)
        · cases open_
        · exact answers'.unreplied k callback found'' (.inr stops)
      · rintro (writing | stops)
        · cases writing
        · exact answers'.willReply k callback found'' (.inr stops)
    have kept : ((if Keyed.get callback.call.key turn.callbacks = some k then
        s.setTurn callback.call.turn { turn with callbacks := Keyed.erase callback.call.key turn.callbacks }
        else s).setCallback k { callback with phase := .finished }).Answers := by
      split
      · exact finished (answers.popSlot found' callback.call.key).1 rfl rfl
      · exact finished answers rfl rfl
    cases error with
    | none => exact kept
    | some error => exact kept.failTurn callback.call.turn error
  · cases went

/-! ### Stops -/

/-- The stop task goes on; its callback's own task has ended. -/
theorem Answers.moveStop (found : s.callbacks k = some callback)
    (stops : callback.stop.isSome) {stop : StopPhase}
    (before : stop = .writing → callback.stop = some .scheduled) (later : stop ≠ .scheduled) :
    (s.setCallback k { callback with stop := some stop }).Answers := by
  have done : callback.phase.isOver = true := by
    by_contra going
    rw [answers.unstopped k callback found (by simpa using going)] at stops
    cases stops
  have here : Callback.MayReply { callback with stop := some stop } → callback.stop = some .scheduled := by
    rintro (open_ | now | now)
    · exact absurd done (by simp [show callback.phase.isOver = false from open_])
    · exact absurd (some.inj now) later
    · exact before (some.inj now)
  refine answers.move found rfl (fun open_ => open_) ?_ ?_ ?_
  · intro open_
    exact absurd done (by simp [show callback.phase.isOver = false from open_])
  · exact fun may => answers.unreplied k callback found (.inr (.inl (here may)))
  rintro (writing | stops)
  · exact absurd done (by simp [show callback.phase = .writing from writing, CallbackPhase.isOver])
  · exact answers.willReply k callback found (.inr (.inl (here (.inr stops))))

/-- The stop task's write ends: it may have written the answer, and has it no longer. -/
theorem Answers.stopWritten (found : s.callbacks k = some callback)
    (writing : callback.stop = some .writing) (wrote : Bool) {stop : StopPhase} (later : stop ≠ .scheduled)
    (behind : stop ≠ .writing) :
    (if wrote then (s.setCallback k { callback with stop := some stop }).note (.replied k)
      else s.setCallback k { callback with stop := some stop }).Answers := by
  have moved := answers.moveStop found (by rw [writing]; rfl) (fun its => absurd its behind) later
  have done : callback.phase.isOver = true := by
    by_contra going
    rw [answers.unstopped k callback found (by simpa using going)] at writing
    cases writing
  split
  · have here : (s.setCallback k { callback with stop := some stop }).callbacks k =
        some { callback with stop := some stop } := update_self ..
    exact moved.reply here (by simp [Callback.MayReply, done, later, behind])
      (answers.willReply k callback found (.inr (.inr writing)))
      (answers.unreplied k callback found (.inr (.inr writing)))
  · exact moved

theorem Answers.stopTask {wrote : Bool} {input : CallbackInput}
    (ran : s.stopTask k wrote input = some s') : s'.Answers := by
  obtain ⟨callback, found, held⟩ := bind_eq_some_iff.1 ran
  obtain ⟨turn, found', went⟩ := bind_eq_some_iff.1 held
  clear ran held
  have over_ : callback.stop.isSome → (s.setCallback k { callback with stop := some .over }).Answers :=
    fun stops => answers.moveStop found stops nofun nofun
  split at went
  · rename_i scheduled
    have stops : callback.stop.isSome := by rw [scheduled]; rfl
    rcases @ensureRunning_cases s with ⟨error, same⟩ | ⟨-, same⟩ | ⟨-, -, same⟩
    · rw [same] at went
      cases went
      exact (over_ stops).failTurn ..
    · rw [same] at went
      cases went
      obtain ⟨C, T, its, -⟩ := @recordFailure_eq s "OMP RPC process exited"
      have found'' : (s.recordFailure "OMP RPC process exited").callbacks k = some callback := by
        rw [its]
        exact found
      have ended : ((s.recordFailure "OMP RPC process exited").setCallback k
          { callback with stop := some .over }).Answers :=
        (answers.recordFailure _).moveStop found'' stops nofun nofun
      exact ended.failTurn ..
    · rw [same] at went
      cases went
      exact (@Answers.registerNext s "abort" answers).moveStop found stops (fun _ => scheduled) nofun
  · rename_i writing
    cases went
    exact answers.stopWritten found writing wrote nofun nofun
  · rename_i error writing
    cases went
    have ended := @Answers.stopWritten s k callback answers found writing wrote .over nofun nofun
    exact (ended.recordWrite _).failTurn ..
  · rename_i writing
    cases went
    exact answers.stopWritten found writing wrote nofun nofun
  · rename_i aborting
    cases went
    exact (over_ (by rw [aborting]; rfl)).setTurn found' rfl rfl
  · rename_i aborting
    cases went
    exact (over_ (by rw [aborting]; rfl)).failTurn ..
  · rename_i scheduled
    cases went
    exact over_ (by rw [scheduled]; rfl)
  · rename_i aborting
    cases went
    exact over_ (by rw [aborting]; rfl)
  · cases went

theorem Answers.stopAfterTool (id : String) : (s.stopAfterTool id).Answers := by
  unfold Client.stopAfterTool
  split
  · exact answers
  rename_i t now
  split
  · exact answers
  rename_i turn found
  split
  · exact answers
  split
  · exact answers
  rename_i free
  have free : turn.stopAfterToolId = none := by simpa using free
  have each : ∀ {P : Nat → PromptRun → Prop}, P t { turn with stopAfterToolId := some id } →
      (∀ x turn, s.turns x = some turn → P x turn) →
      ∀ x after, (s.setTurn t { turn with stopAfterToolId := some id }).turns x = some after →
        P x after := by
    intro P first rest x after held
    rcases update_cases held with ⟨rfl, ⟨⟩⟩ | ⟨-, held⟩
    · exact first
    · exact rest x after held
  have stopped : (s.setTurn t { turn with stopAfterToolId := some id }).Answers := by
    refine { answers with freshTurn := ?_, slots := ?_, stops := ?_ }
    · intro n late
      refine eq_none_iff_forall_ne_some.2 ?_
      intro after held
      refine each (P := fun x _ => s.made ≤ x → False) ?_ ?_ n after held late
      · intro late
        rw [answers.freshTurn t late] at found
        cases found
      · intro x turn held late
        rw [answers.freshTurn x late] at held
        cases held
    · intro u after key j held
      exact each (P := fun u after => Keyed.get key after.callbacks = some j →
        (∃ callback, s.callbacks j = some callback ∧ callback.call.turn = u ∧ callback.call.key = key) ∧
          .cancelled j ∉ s.log) (answers.slots t turn key j found)
        (fun u turn held => answers.slots u turn key j held) u after held
    · intro u id' mem
      obtain ⟨before, found', stop⟩ := answers.stops u id' mem
      have other : u ≠ t := by
        rintro rfl
        cases found.symm.trans found'
        rw [free] at stop
        cases stop
      exact ⟨before, (update_of_ne other ..).trans found', stop⟩
  refine stopped.note (by simp) (by simp) ?_ (by simp) (by simp) (by simp) ?_ (by simp) ?_
  · intro u id' its
    obtain ⟨rfl, rfl⟩ := Note.stopped.inj its
    exact ⟨⟨_, update_self .., rfl⟩, answers.last t (answers.now t now)⟩
  · rintro call u id' (its | its)
    · cases its
    · cases its
  · rintro call id' (its | its)
    · cases its
    · cases its

/-! ## Every step -/

theorem Answers.rejectPrompt (success : Bool) : (s.rejectPrompt id command success).Answers := by
  unfold Client.rejectPrompt
  split
  · exact answers
  rename_i t turn active
  split
  · have rejected := @Answers.setTurn s t turn answers (activeTurn_some active).2 { turn with rejected := true }
      rfl rfl
    exact rejected.failTurn ..
  · exact answers

theorem Answers.dispatchResponse {id : Option String} {success : Bool}
    (dispatched : s.dispatchResponse id command success = .ok s') : s'.Answers := by
  unfold Client.dispatchResponse at dispatched
  split at dispatched
  · cases dispatched
  split at dispatched
  · cases dispatched
  split at dispatched
  · cases dispatched
    exact answers.rejectPrompt success
  · split at dispatched
    · cases dispatched
      exact answers.rejectPrompt success
    · cases dispatched
      exact answers.complete ..

theorem Answers.dispatchPayload {frame : Frame}
    (dispatched : s.dispatchPayload frame = .ok s') : s'.Answers := by
  cases frame with
  | ready =>
    cases dispatched
    exact { answers with }
  | frameError error => cases dispatched
  | response id command success => exact answers.dispatchResponse dispatched
  | hostToolCall id =>
    simp only [Client.dispatchPayload] at dispatched
    split at dispatched
    · cases dispatched
    rename_i t turn active
    obtain ⟨now, found⟩ := activeTurn_some active
    exact answers.startCallback now found dispatched
  | hostToolCancel target =>
    simp only [Client.dispatchPayload] at dispatched
    split at dispatched
    · cases dispatched
      exact answers
    · rename_i t turn active
      cases dispatched
      exact answers.cancelCallback (activeTurn_some active).2
  | uiRequest id =>
    simp only [Client.dispatchPayload] at dispatched
    split at dispatched
    · cases dispatched
      exact answers
    · rename_i t turn active
      obtain ⟨now, found⟩ := activeTurn_some active
      exact answers.startCallback now found dispatched
  | uiCancel target =>
    cases target with
    | none => cases dispatched
    | some target =>
      simp only [Client.dispatchPayload] at dispatched
      split at dispatched
      · cases dispatched
        exact answers
      · rename_i t turn active
        cases dispatched
        exact answers.cancelCallback (activeTurn_some active).2
  | event overflow =>
    simp only [Client.dispatchPayload] at dispatched
    split at dispatched
    · cases dispatched
      exact answers
    · split at dispatched
      · cases dispatched
        exact (answers.failTurn ..).recordFailure _
      · cases dispatched
        exact answers
  | other =>
    cases dispatched
    exact answers

theorem Answers.step {event : Event} (stepped : s.step event = some s') : s'.Answers := by
  have read : Answers { s with reading := false } := { answers with }
  cases event with
  | frame frame =>
    obtain ⟨-, stepped⟩ := of_passed stepped
    split at stepped
    · rename_i dispatched
      cases stepped
      exact answers.dispatchPayload dispatched
    · cases stepped
      exact read.recordFailure _
  | readerEnds failure =>
    cases stepped
    cases failure with
    | none => exact read
    | some message => exact read.recordFailure message
  | fails message =>
    cases stepped
    exact answers.recordFailure message
  | exits =>
    cases stepped
    exact { answers with }
  | request command =>
    cases stepped
    exact answers.requestFrame
  | leave r => exact answers.leave stepped
  | prompt => exact answers.prompt stepped
  | submit => exact answers.submit stepped
  | endPrompt =>
    obtain ⟨t, -, rfl⟩ := map_eq_some_iff.1 stepped
    exact answers.endPrompt
  | promptOver survives => exact answers.promptOver stepped
  | callback k input => exact answers.resumeCallback stepped
  | written k wrote error => exact answers.written stepped
  | callbackFinished k => exact answers.callbackFinished stepped
  | stopTask k wrote input => exact answers.stopTask stepped
  | stopAfterTool id =>
    cases stepped
    exact answers.stopAfterTool id
  | close =>
    cases stepped
    exact answers.beginClose
  | closeRuns =>
    obtain ⟨-, ⟨⟩⟩ := of_passed stepped
    have running : Answers { s with closeTask := some .running } := { answers with }
    exact running.failPending _
  | closeAborts =>
    obtain ⟨-, ⟨⟩⟩ := of_passed stepped
    exact @Answers.registerNext { s with closeTask := some .aborting } "abort" { answers with }
  | closeEnds ok =>
    obtain ⟨-, ⟨⟩⟩ := of_passed stepped
    exact { answers with }

end

/-! ## Runs -/

theorem initial_waits : ({} : Client).Waits := by
  have requests : ∀ r request, ({} : Client).requests r ≠ some request := by
    intro r request found
    cases found
  have turns : ∀ t turn, ({} : Client).turns t ≠ some turn := by
    intro t turn found
    cases found
  exact {
    fresh := fun _ _ => rfl
    freshTurn := fun _ _ => rfl
    ids := fun r request found => absurd found (requests r request)
    apart := fun r _ request _ found => absurd found (requests r request)
    turnIds := fun t turn found => absurd found (turns t turn)
    turnsApart := fun t _ turn _ found => absurd found (turns t turn)
    unsubmitted := fun t turn _ _ found => absurd found (turns t turn)
    pending := fun r request found => absurd found (requests r request)
    held := fun _ _ found => by cases found
    results := by
      intro r completion
      constructor
      · intro mem
        cases mem
      · rintro ⟨request, found, -⟩
        exact absurd found (requests r request)
    once := nodup_nil
    current := fun _ its => by cases its
    closes := fun _ its => by cases its }

theorem initial_answers : ({} : Client).Answers where
  fresh := fun _ _ => rfl
  freshTurn := fun _ _ => rfl
  now := nofun
  last := nofun
  alone := nofun
  idle := fun _ => .inr nofun
  named := nofun
  slots := nofun
  gone := nofun
  closes := nofun
  stops := nofun
  stopping := fun _ _ stopping => absurd stopping Open.nil
  unstopped := nofun
  unreplied := nofun
  willReply := nofun
  replied := nofun
  once := nodup_nil
  active := fun _ => .nil
  others := fun _ _ => .nil
  starts := fun _ _ => .nil
  othersOf := fun _ _ => .nil
  startsOf := fun _ _ => .nil

/-- What every state of a client keeps. -/
structure Kept (s : Client) : Prop where
  waits : s.Waits
  failed : s.Failed
  answers : s.Answers

theorem kept_of_reachable (reached : client.Reachable s) : s.Kept := by
  refine reached.invariant ?_ ?_
  · rintro s rfl
    exact ⟨initial_waits, ⟨nofun, nofun, nofun, nofun⟩, initial_answers⟩
  · intro s event s' kept stepped
    have told := goes_step kept.waits kept.failed stepped
    exact ⟨told.waits, told.failed, kept.answers.step stepped⟩

end Client

section Main

variable {s : Client}

/-- **Requests and callbacks are answered once.**  In every run a request is completed at most once: by
the response that carries its id and command, by the first failure, or by a close without any; and the
first failure stays, and reaches every request, ready wait and prompt that is outstanding as it is recorded.
A callback's frame is written at most once, behind its handler, and never where it was cancelled or the
client was closing as the handler returned.  Behind an accepted stop of a prompt no other tool of it is
answered and none of its callbacks starts; nor, until the next prompt begins, any other. -/
theorem exchanges (reached : client.Reachable s) :
    (s.completions.map Prod.fst).Nodup ∧
    (∀ r completion, (r, completion) ∈ s.completions ↔
      ∃ request, s.requests r = some request ∧ request.result = some completion) ∧
    (∀ event s', s.step event = some s' →
      (∃ more, s'.completions = s.completions ++ more ∧ ∀ p ∈ more, Client.CompletedBy s s' event p) ∧
      (∀ message, s.failure = some message → s'.failure = some message) ∧
      (s.failure = none → ∀ message, s'.failure = some message → Client.FailsWith message s s')) ∧
    s.Failed ∧
    (s.log.filterMap Note.replies).Nodup ∧
    (∀ k, .replied k ∈ s.log → ∃ callback, s.callbacks k = some callback ∧ callback.call.number = k ∧
      [.returned callback.call true, .replied k].Sublist s.log) ∧
    (∀ call : Call, Guarded (fun note => note = .cancelled call.number ∨ note = .closing) (fun _ => False)
      (· = .returned call true) s.log) ∧
    (∀ t id, Guarded (· = .stopped t id) (fun _ => False) (fun note => ∃ call,
      note = .returned call true ∧ call.kind = .tool ∧ call.turn = t ∧ call.requestId ≠ id) s.log) ∧
    (∀ t id, Guarded (· = .stopped t id) (fun _ => False) (fun note => ∃ call,
      (note = .accepted call ∨ note = .started call) ∧ call.turn = t) s.log) ∧
    (∀ t id, Guarded (· = .stopped t id) (fun note => ∃ next, note = .prompted next) (fun note => ∃ call,
      note = .returned call true ∧ call.kind = .tool ∧ ¬ (call.turn = t ∧ call.requestId = id)) s.log) ∧
    (∀ t id, Guarded (· = .stopped t id) (fun note => ∃ next, note = .prompted next)
      (fun note => ∃ call, note = .accepted call ∨ note = .started call) s.log) := by
  obtain ⟨waits, failed, answers⟩ := Client.kept_of_reachable reached
  refine ⟨waits.once, waits.results, ?_, failed, answers.once, ?_, answers.active, answers.othersOf,
    answers.startsOf, answers.others, answers.starts⟩
  · intro event s' stepped
    have told := Client.goes_step waits failed stepped
    exact ⟨told.completions, told.first, told.fails⟩
  · intro k mem
    obtain ⟨callback, found, order⟩ := answers.replied k mem
    exact ⟨callback, found, answers.named k callback found, order⟩

/-- A tool's answer is written, and the request for its prompt is answered. -/
theorem exchanges_answered : ∃ s, client.Reachable s ∧ (0, Completion.response "band-1" "get_state" true) ∈
    s.completions ∧ .replied 3 ∈ s.log ∧ (s.completions.map Prod.fst).Nodup := by
  have ran : (client.run {} [.request "get_state", .frame (.response (some "band-1") "get_state" true),
      .prompt, .submit, .frame (.hostToolCall "call"), .callback 3 .returned, .callback 3 .returned,
      .written 3 true none]).map (fun s => decide ((0, Completion.response "band-1" "get_state" true) ∈
        s.completions ∧ .replied 3 ∈ s.log)) = some true := by
    decide +kernel
  obtain ⟨s, run, found⟩ := map_eq_some_iff.1 ran
  have reached : client.Reachable s := ⟨_, rfl, _, run⟩
  obtain ⟨completed, replied⟩ := of_decide_eq_true found
  exact ⟨s, reached, completed, replied, (exchanges reached).1⟩

/-- A client that is closed with no failure completes a request by an error of its own. -/
theorem closed_without_failure : ∃ s, client.Reachable s ∧ (0, Completion.error .closed) ∈ s.completions ∧
    s.failure = none := by
  have ran : (client.run {} [.request "get_state", .close, .closeRuns]).map
      (fun s => decide ((0, Completion.error .closed) ∈ s.completions ∧ s.failure = none)) = some true := by
    decide +kernel
  obtain ⟨s, run, found⟩ := map_eq_some_iff.1 ran
  exact ⟨s, ⟨_, rfl, _, run⟩, of_decide_eq_true found⟩

/-- **Callbacks belong to the last prompt.**  A host tool call or an approval under way is one of the
client's latest prompt, which did not stop; between two prompts none is under way, unless the client failed. -/
theorem callbacks_of_last_prompt (reached : client.Reachable s) :
    (∀ k callback, s.callbacks k = some callback → callback.phase.isOver = false →
      s.lastTurn = some callback.call.turn ∧ callback.stop = none) ∧
    (s.prompting = none → s.failure = none →
      ∀ k callback, s.callbacks k = some callback → callback.phase.isOver = true) := by
  have answers := (Client.kept_of_reachable reached).answers
  refine ⟨fun k callback found live => ⟨answers.alone k callback found live, answers.unstopped k callback found live⟩, ?_⟩
  intro none_ fine
  exact (answers.idle none_).resolve_left (by simp [fine])

theorem callbacks_of_last_prompt_calling : ∃ s callback, client.Reachable s ∧ s.callbacks 2 = some callback ∧
    callback.phase.isOver = false ∧ s.lastTurn = some callback.call.turn := by
  have reached : client.Reachable _ := ⟨_, rfl, [.prompt, .submit, .frame (.hostToolCall "call")], rfl⟩
  exact ⟨_, _, reached, rfl, rfl, ((callbacks_of_last_prompt reached).1 2 _ rfl rfl).1⟩

end Main

end BandSdk.OmpRpc

/-
# OmpRpc.Answers -- what callbacks are answered

A callback's answer is written once, by its own task or by the stop behind it, and only if
it was active when its handler returned.  Behind a stop nothing starts and no other tool is
answered, until the next prompt.
-/
import BandSdk.OmpRpc.Completions

namespace BandSdk.OmpRpc

open BandSdk.Theory List Function

/-- The answer may still be written. -/
def Callback.MayReply (callback : Callback) : Prop :=
  callback.phase.isOver = false ∨ callback.stop = some .scheduled ∨ callback.stop = some .writing

/-- The answer is to be written. -/
def Callback.WillReply (callback : Callback) : Prop :=
  callback.phase = .writing ∨ callback.stop = some .scheduled ∨ callback.stop = some .writing

/-- A stop of the prompt, until the next prompt begins. -/
def Stopping (t : Nat) (id : String) (log : List Note) : Prop :=
  Open (· = .stopped t id) (fun note => ∃ next, note = .prompted next) log

theorem Stopping.mem {t : Nat} {id : String} {log : List Note} (stopping : Stopping t id log) :
    .stopped t id ∈ log := by
  obtain ⟨before, note, after, rfl, rfl, -⟩ := stopping
  simp

namespace Client

variable {s s' : Client} {t k : Nat} {turn : PromptRun} {callback moved : Callback} {id : String}

structure Answers (s : Client) : Prop where
  fresh : ∀ n, s.made ≤ n → s.callbacks n = none
  freshTurn : ∀ n, s.made ≤ n → s.turns n = none
  now : ∀ t, s.turn = some t → s.prompting = some t
  last : ∀ t, s.prompting = some t → s.lastTurn = some t
  alone : ∀ k callback, s.callbacks k = some callback → callback.phase.isOver = false →
    s.lastTurn = some callback.call.turn
  idle : s.prompting = none → s.failure.isSome ∨
    ∀ k callback, s.callbacks k = some callback → callback.phase.isOver = true
  named : ∀ k callback, s.callbacks k = some callback → callback.call.number = k
  slots : ∀ t turn key k, s.turns t = some turn → Keyed.get key turn.callbacks = some k →
    (∃ callback, s.callbacks k = some callback ∧ callback.call.turn = t ∧ callback.call.key = key) ∧
      .cancelled k ∉ s.log
  gone : ∀ k, .cancelled k ∈ s.log → ∃ callback, s.callbacks k = some callback
  closes : .closing ∈ s.log → s.closing = true
  stops : ∀ t id, .stopped t id ∈ s.log → ∃ turn, s.turns t = some turn ∧ turn.stopAfterToolId = some id
  stopping : ∀ t id, Stopping t id s.log → s.lastTurn = some t
  unstopped : ∀ k callback, s.callbacks k = some callback → callback.phase.isOver = false → callback.stop = none
  unreplied : ∀ k callback, s.callbacks k = some callback → callback.MayReply → .replied k ∉ s.log
  willReply : ∀ k callback, s.callbacks k = some callback → callback.WillReply →
    .returned callback.call true ∈ s.log
  replied : ∀ k, .replied k ∈ s.log → ∃ callback, s.callbacks k = some callback ∧
    [.returned callback.call true, .replied k].Sublist s.log
  once : (s.log.filterMap Note.replies).Nodup
  active : ∀ call : Call, Guarded (fun note => note = .cancelled call.number ∨ note = .closing)
    (fun _ => False) (· = .returned call true) s.log
  others : ∀ t id, Guarded (· = .stopped t id) (fun note => ∃ next, note = .prompted next)
    (fun note => ∃ call, note = .returned call true ∧ call.kind = .tool ∧
      ¬ (call.turn = t ∧ call.requestId = id)) s.log
  starts : ∀ t id, Guarded (· = .stopped t id) (fun note => ∃ next, note = .prompted next)
    (fun note => ∃ call, note = .accepted call ∨ note = .started call) s.log
  othersOf : ∀ t id, Guarded (· = .stopped t id) (fun _ => False) (fun note => ∃ call,
    note = .returned call true ∧ call.kind = .tool ∧ call.turn = t ∧ call.requestId ≠ id) s.log
  startsOf : ∀ t id, Guarded (· = .stopped t id) (fun _ => False) (fun note => ∃ call,
    (note = .accepted call ∨ note = .started call) ∧ call.turn = t) s.log

/-! ### Notes -/

theorem open_or {log : List Note} {opens : Note → Prop} (is : Open opens (fun _ => False) log) :
    ∃ note ∈ log, opens note := by
  obtain ⟨before, note, after, rfl, opened, -⟩ := is
  exact ⟨note, by simp, opened⟩

section

variable (answers : s.Answers)
include answers

/-- A note that has its reasons. -/
theorem Answers.note {new : Note} (closing : new = .closing → s.closing = true)
    (cancelled : ∀ k, new = .cancelled k → (∃ callback, s.callbacks k = some callback) ∧
      ∀ t turn key, s.turns t = some turn → Keyed.get key turn.callbacks ≠ some k)
    (stopped : ∀ t id, new = .stopped t id → (∃ turn, s.turns t = some turn ∧ turn.stopAfterToolId = some id) ∧
      s.lastTurn = some t)
    (replied : ∀ k, new = .replied k → ∃ callback, s.callbacks k = some callback ∧ ¬ callback.MayReply ∧
      .returned callback.call true ∈ s.log ∧ .replied k ∉ s.log)
    (active : ∀ call, new = .returned call true → .cancelled call.number ∉ s.log ∧ .closing ∉ s.log)
    (others : ∀ call t id, new = .returned call true → call.kind = .tool →
      ¬ (call.turn = t ∧ call.requestId = id) → ¬ Stopping t id s.log)
    (starts : ∀ call t id, new = .accepted call ∨ new = .started call → ¬ Stopping t id s.log)
    (othersOf : ∀ call id, new = .returned call true → call.kind = .tool → call.requestId ≠ id →
      .stopped call.turn id ∉ s.log)
    (startsOf : ∀ call id, new = .accepted call ∨ new = .started call → .stopped call.turn id ∉ s.log) :
    (s.note new).Answers := by
  have longer : (s.note new).log = s.log ++ [new] := rfl
  refine { answers with
    slots := ?_, gone := ?_, closes := ?_, stops := ?_, stopping := ?_, unreplied := ?_, willReply := ?_
    replied := ?_, once := ?_, active := ?_, others := ?_, starts := ?_, othersOf := ?_, startsOf := ?_ }
  · intro t turn key k found slot
    obtain ⟨known, clear⟩ := answers.slots t turn key k found slot
    refine ⟨known, ?_⟩
    rw [longer, mem_append, mem_singleton]
    rintro (old | now)
    · exact clear old
    · exact (cancelled k now.symm).2 t turn key found slot
  · intro k
    rw [longer, mem_append, mem_singleton]
    rintro (old | now)
    · exact answers.gone k old
    · exact (cancelled k now.symm).1
  · rw [longer, mem_append, mem_singleton]
    rintro (old | now)
    · exact answers.closes old
    · exact closing now.symm
  · intro t id
    rw [longer, mem_append, mem_singleton]
    rintro (old | now)
    · exact answers.stops t id old
    · exact (stopped t id now.symm).1
  · intro t id is
    rw [Stopping, longer, Open.snoc] at is
    rcases is with now | ⟨old, -⟩
    · exact (stopped t id now).2
    · exact answers.stopping t id old
  · intro k callback found may
    rw [longer, mem_append, mem_singleton]
    rintro (old | now)
    · exact answers.unreplied k callback found may old
    obtain ⟨callback', found', never, -⟩ := replied k now.symm
    cases found.symm.trans found'
    exact never may
  · exact fun k callback found will => mem_append_left _ (answers.willReply k callback found will)
  · intro k
    rw [longer, mem_append, mem_singleton]
    rintro (old | rfl)
    · obtain ⟨callback, found, order⟩ := answers.replied k old
      exact ⟨callback, found, order.trans (sublist_append_left ..)⟩
    · obtain ⟨callback, found, -, returned, -⟩ := replied k rfl
      exact ⟨callback, found, (singleton_sublist.2 returned).append (List.Sublist.refl _)⟩
  · rw [longer, filterMap_append]
    cases its : new.replies with
    | none => simpa [its] using answers.once
    | some k =>
      have now : new = .replied k := by
        cases new <;> simp_all [Note.replies]
      obtain ⟨-, -, -, -, before⟩ := replied k now
      have absent : k ∉ s.log.filterMap Note.replies := by
        intro mem
        obtain ⟨note, inside, is⟩ := mem_filterMap.1 mem
        cases note with
        | replied j =>
          cases is
          exact before inside
        | closing | accepted call | started call | returned call replies | cancelled j
        | stopped t id | prompted t => cases is
      simp only [filterMap_cons, its, filterMap_nil]
      refine nodup_append.2 ⟨answers.once, by simp, ?_⟩
      rintro j old j' new' rfl
      exact absent (mem_singleton.1 new' ▸ old)
  · intro call
    rw [longer]
    refine (answers.active call).snoc ?_
    rintro now is
    obtain ⟨note, mem, rfl | rfl⟩ := open_or is
    · exact (active call now).1 mem
    · exact (active call now).2 mem
  · intro t id
    rw [longer]
    refine (answers.others t id).snoc ?_
    rintro ⟨call, now, tool, other⟩
    exact others call t id now tool other
  · intro t id
    rw [longer]
    refine (answers.starts t id).snoc ?_
    rintro ⟨call, now⟩
    exact starts call t id now
  · intro t id
    rw [longer]
    refine (answers.othersOf t id).snoc ?_
    rintro ⟨call, now, tool, rfl, other⟩ is
    obtain ⟨note, mem, rfl⟩ := open_or is
    exact othersOf call id now tool other mem
  · intro t id
    rw [longer]
    refine (answers.startsOf t id).snoc ?_
    rintro ⟨call, now, rfl⟩ is
    obtain ⟨note, mem, rfl⟩ := open_or is
    exact startsOf call id now mem

/-- A note no invariant speaks of. -/
theorem Answers.aside (call : Call) : (s.note (.returned call false)).Answers :=
  answers.note nofun nofun nofun nofun nofun nofun nofun nofun nofun

/-! ### The state -/

theorem Answers.turnsOf {turns : Nat → Option PromptRun}
    (before : ∀ x after, turns x = some after → ∃ turn, s.turns x = some turn ∧
      after.callbacks = turn.callbacks)
    (later : ∀ x turn, s.turns x = some turn → ∃ after, turns x = some after ∧
      after.stopAfterToolId = turn.stopAfterToolId) : Answers { s with turns := turns } := by
  refine { answers with freshTurn := ?_, slots := ?_, stops := ?_ }
  · intro n late
    refine Option.eq_none_iff_forall_ne_some.2 fun after held => ?_
    obtain ⟨turn, found, -⟩ := before n after held
    rw [answers.freshTurn n late] at found
    cases found
  · intro x after key j held slot
    obtain ⟨turn, found, same⟩ := before x after held
    exact answers.slots x turn key j found (same ▸ slot)
  · intro x id mem
    obtain ⟨turn, found, stop⟩ := answers.stops x id mem
    obtain ⟨after, held, same⟩ := later x turn found
    exact ⟨after, held, same.trans stop⟩

theorem Answers.failTurns (error : PromptError) (which : Nat → Prop) [DecidablePred which] :
    Answers { s with
      turns := fun x => if which x then (s.turns x).map (PromptRun.fail error) else s.turns x } := by
  refine answers.turnsOf ?_ ?_
  · intro x after held
    split at held
    · obtain ⟨turn, found, rfl⟩ := Option.map_eq_some_iff.1 held
      exact ⟨turn, found, rfl⟩
    · exact ⟨after, held, rfl⟩
  · intro x turn found
    split
    · exact ⟨turn.fail error, by rw [found, Option.map_some], rfl⟩
    · exact ⟨turn, found, rfl⟩

theorem Answers.failTurn (t : Nat) (error : PromptError) : (s.failTurn t error).Answers := by
  rw [failTurn_eq]
  exact answers.failTurns error (· = t)

theorem Answers.setTurn (found : s.turns t = some turn) {after : PromptRun}
    (callbacks : after.callbacks = turn.callbacks) (stop : after.stopAfterToolId = turn.stopAfterToolId) :
    (s.setTurn t after).Answers := by
  refine answers.turnsOf ?_ ?_
  · intro x other held
    rcases update_cases held with ⟨rfl, ⟨⟩⟩ | ⟨-, held⟩
    · exact ⟨turn, found, callbacks⟩
    · exact ⟨other, held, rfl⟩
  · intro x other held
    by_cases same : x = t
    · subst same
      cases found.symm.trans held
      exact ⟨after, update_self .., stop⟩
    · exact ⟨other, (update_of_ne same ..).trans held, rfl⟩

/-- A slot is given up. -/
theorem Answers.popSlot (found : s.turns t = some turn) (key : OmpCallbackKind × String) :
    (s.setTurn t { turn with callbacks := Keyed.erase key turn.callbacks }).Answers ∧
      ∀ k, Keyed.get key turn.callbacks = some k → ∀ u other key',
        (s.setTurn t { turn with callbacks := Keyed.erase key turn.callbacks }).turns u = some other →
          Keyed.get key' other.callbacks ≠ some k := by
  have kept : ∀ u other key' j, (s.setTurn t { turn with
      callbacks := Keyed.erase key turn.callbacks }).turns u = some other →
      Keyed.get key' other.callbacks = some j → ∃ before, s.turns u = some before ∧
        Keyed.get key' before.callbacks = some j ∧ (u = t → key ≠ key') := by
    intro u other key' j held slot
    by_cases same : u = t
    · subst same
      have its : some { turn with callbacks := Keyed.erase key turn.callbacks } = some other := by
        simpa [Client.setTurn] using held
      cases its
      rw [Keyed.get_erase] at slot
      obtain ⟨apart, slot⟩ := of_barred slot
      exact ⟨turn, found, slot, fun _ => apart⟩
    · exact ⟨other, by simpa [Client.setTurn, same] using held, slot, fun here => absurd here same⟩
  refine ⟨{ answers with freshTurn := ?_, slots := ?_, stops := ?_ }, ?_⟩
  · intro n late
    have other : n ≠ t := by
      rintro rfl
      rw [answers.freshTurn n late] at found
      cases found
    simpa [Client.setTurn, other] using answers.freshTurn n late
  · intro u other key' j held slot
    obtain ⟨before, found', slot', -⟩ := kept u other key' j held slot
    exact answers.slots u before key' j found' slot'
  · intro u id mem
    obtain ⟨before, found', stop⟩ := answers.stops u id mem
    by_cases same : u = t
    · subst same
      cases found.symm.trans found'
      exact ⟨{ turn with callbacks := Keyed.erase key turn.callbacks }, update_self .., stop⟩
    · exact ⟨before, by simpa [Client.setTurn, same] using found', stop⟩
  · intro k first u other key' held slot
    obtain ⟨before, found', slot', apart⟩ := kept u other key' k held slot
    -- one number has one slot
    obtain ⟨⟨callback, known, inTurn, itsKey⟩, -⟩ := answers.slots t turn key k found first
    obtain ⟨⟨callback', known', inTurn', itsKey'⟩, -⟩ := answers.slots u before key' k found' slot'
    cases known.symm.trans known'
    exact apart (inTurn'.symm.trans inTurn) (itsKey.symm.trans itsKey')

/-- A callback goes on. -/
theorem Answers.move (found : s.callbacks k = some callback) (call : moved.call = callback.call)
    (going : moved.phase.isOver = false → callback.phase.isOver = false)
    (unstopped : moved.phase.isOver = false → moved.stop = none) (may : moved.MayReply → .replied k ∉ s.log)
    (will : moved.WillReply → .returned callback.call true ∈ s.log) : (s.setCallback k moved).Answers := by
  have each : ∀ {P : Nat → Callback → Prop}, P k moved →
      (∀ x callback, s.callbacks x = some callback → P x callback) →
      ∀ x callback, (s.setCallback k moved).callbacks x = some callback → P x callback := by
    intro P first rest x other held
    rcases update_cases held with ⟨rfl, ⟨⟩⟩ | ⟨-, held⟩
    · exact first
    · exact rest x other held
  have later : ∀ x before, s.callbacks x = some before → ∃ after,
      (s.setCallback k moved).callbacks x = some after ∧ after.call = before.call := by
    intro x before held
    by_cases same : x = k
    · subst same
      cases found.symm.trans held
      exact ⟨moved, by simp [Client.setCallback], call⟩
    · exact ⟨before, by simpa [Client.setCallback, same] using held, rfl⟩
  refine { answers with
    fresh := ?_, alone := ?_, idle := ?_, named := ?_, slots := ?_, gone := ?_, unstopped := ?_
    unreplied := ?_, willReply := ?_, replied := ?_ }
  · intro n late
    have other : n ≠ k := by
      rintro rfl
      rw [answers.fresh n late] at found
      cases found
    simpa [Client.setCallback, other] using answers.fresh n late
  · refine each ?_ answers.alone
    rw [call]
    exact fun open_ => answers.alone k callback found (going open_)
  · intro none_
    refine (answers.idle none_).imp_right fun all => each ?_ all
    by_contra open_
    have over_ := all k callback found
    rw [going (Bool.eq_false_iff.2 open_)] at over_
    cases over_
  · refine each ?_ answers.named
    rw [call]
    exact answers.named k callback found
  · intro t turn key j held slot
    obtain ⟨⟨before, known, inTurn, itsKey⟩, clear⟩ := answers.slots t turn key j held slot
    obtain ⟨after, known', same⟩ := later j before known
    exact ⟨⟨after, known', by rwa [same], by rwa [same]⟩, clear⟩
  · intro j mem
    obtain ⟨before, known⟩ := answers.gone j mem
    obtain ⟨after, known', -⟩ := later j before known
    exact ⟨after, known'⟩
  · exact each unstopped answers.unstopped
  · exact each may answers.unreplied
  · refine each ?_ answers.willReply
    rw [call]
    exact will
  · intro j mem
    obtain ⟨before, known, order⟩ := answers.replied j mem
    obtain ⟨after, known', same⟩ := later j before known
    exact ⟨after, known', by rwa [same]⟩

/-- A callback's task is over, and no stop task has its answer. -/
theorem Answers.finish (found : s.callbacks k = some callback)
    (open_ : callback.phase.isOver = false) {phase : CallbackPhase} (over_ : phase.isOver = true) :
    (s.setCallback k { callback with phase := phase }).Answers := by
  have unstopped := answers.unstopped k callback found open_
  have never : ¬ Callback.MayReply { callback with phase := phase } := by
    simp [Callback.MayReply, over_, unstopped]
  refine answers.move found rfl ?_ ?_ (fun may => absurd may never) ?_
  · exact fun its => absurd its (by simp [over_])
  · exact fun _ => unstopped
  rintro (writing | stops)
  · subst writing
    cases over_
  · exact absurd (.inr stops) never

/-- The transport fails, or is closed. -/
theorem Answers.close : Answers { s with
    closing := true, log := if s.closing then s.log else s.log ++ [.closing] } := by
  cases closing : s.closing with
  | true => exact { answers with closes := fun _ => rfl }
  | false =>
    have closed : Answers { s with closing := true } := { answers with closes := fun _ => rfl }
    exact closed.note (fun _ => rfl) nofun nofun nofun nofun nofun nofun nofun nofun

theorem Answers.recordFailure (message : String) : (s.recordFailure message).Answers := by
  obtain ⟨C, T, same, -⟩ := @recordFailure_eq s message
  rw [same]
  have closed := answers.close
  have failed := closed.failTurns (.process (.failure (s.failure.getD message))) (s.turn = some ·)
  exact { failed with idle := fun _ => .inl rfl }

theorem Answers.beginClose : s.beginClose.Answers := by
  obtain ⟨phase, same⟩ := @beginClose_eq s
  rw [same]
  exact { answers.close with }

theorem Answers.failPending (error : ProcessError) : (s.failPending error).Answers := by
  obtain ⟨C, same, -⟩ := @failPending_eq s error
  rw [same]
  exact { answers.failTurns (.process error) (s.turn = some ·) with }

theorem Answers.complete (r : Nat) (completion : Completion) : (s.complete r completion).Answers := by
  obtain ⟨C, same, -⟩ := @complete_eq s r completion
  rw [same]
  exact { answers with }

end

end Client

end BandSdk.OmpRpc

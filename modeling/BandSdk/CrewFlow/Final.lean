/-
# CrewFlow.Final -- the final answer of a run

The final answer is reserved under `final_side_effect_key`, a field it shares with
the sub-Crew sends.  As long as no sub-Crew event is written over its reservation
(`calm`), the record is sealed from the reservation on and a later turn does not
post again: `final_at_most_once`.

`final_posted_twice` is the other case.  A turn crashes after it posted the
answer; the next one makes a sub-Crew send, whose events take the field over, and
crashes too; the third finds no reservation and posts the answer again.
-/
import BandSdk.CrewFlow.Delegations

namespace BandSdk.CrewFlow

open BandSdk.Theory List Turn World

/-! ## The condition -/

namespace World

/-- The run's final answer is reserved, and no event has closed the run. -/
def finalReserved (w : World) (run : RunId) : Bool :=
  w.log.any (fun e => e.run = run && e.content = .reserve .final) &&
    !w.log.any fun e => e.run = run && e.content.closes

/-- No sub-Crew reservation or confirmation is written while the final answer is
reserved. -/
def calm (w : World) : RoomEvent → Bool
  | .writeSend i ok => match w.turn with
      | none => true
      | some t => match t.sends[i]? with
          | some ⟨_, _, .leg _⟩ => !(ok && w.finalReserved t.run)
          | _ => true
  | _ => true

end World

/-! ## The invariant -/

/-- The run is closed, or its record shows the final answer reserved. -/
def Sealed (log : List TaskEvent) (run : RunId) : Prop :=
  ∃ m, recordOf log run = some m ∧ (m.isTerminal = true ∨ m.finalSideEffectKey = some .final)

/-- What keeps the turn from posting the final answer again. -/
def Turn.FinalGuard (w : World) (t : Turn) : Prop :=
  match t.phase with
  | .final _ .reserve => ¬ w.Posted t.run .final
  | .final _ .post => ¬ w.Posted t.run .final ∧ Sealed w.log t.run
  | .final _ (.confirm _) | .marking _ | .recording _ _ _ | .finished _ => True
  | _ => w.Posted t.run .final → ∃ m, t.record = some m ∧ m.finalSideEffectKey = some .final

structure FinalOnce (w : World) : Prop where
  formed : WellFormed w
  once : ∀ run, w.postCount run .final ≤ 1
  posted : ∀ run, w.Posted run .final → Sealed w.log run
  guard : ∀ t, w.turn = some t → t.FinalGuard w

section Sealed

variable {log : List TaskEvent} {run : RunId} {event : TaskEvent}

/-- An event leaves a seal alone unless it writes another key into an open run. -/
theorem Sealed.append (before : Sealed log run) (formed : Formed event.content event.payload)
    (kept : event.run = run → event.content.closes = true ∨ event.content.finalKey = none ∨
      event.content.finalKey = some .final ∨
      ∀ m, recordOf log run = some m → m.isTerminal = true) :
    Sealed (log ++ [event]) run := by
  by_cases own : event.run = run
  · obtain ⟨m, found, closed⟩ := before
    refine ⟨absorb (some m) event.payload, ?_, ?_⟩
    · rw [recordOf_append, if_pos own, found]
    cases terminal : m.isTerminal with
    | true =>
      rw [absorb_terminal terminal]
      exact .inl terminal
    | false =>
      have key : m.finalSideEffectKey = some .final := closed.resolve_left (by simp [terminal])
      have shape : absorb (some m) event.payload = merge m event.payload := by
        simp [absorb, terminal]
      have merged : (merge m event.payload).finalSideEffectKey =
          event.payload.finalSideEffectKey.or m.finalSideEffectKey := rfl
      rw [shape, merged, merge_isTerminal, formed.closes, formed.finalKey, key]
      rcases kept own with closes | none | final | shut
      · exact .inl closes
      · exact .inr (by rw [none]; rfl)
      · exact .inr (by rw [final]; rfl)
      · rw [shut m found] at terminal
        cases terminal
  · obtain ⟨m, found, closed⟩ := before
    exact ⟨m, by rw [recordOf_append_other own, found], closed⟩

theorem Sealed.of_reserve (own : event.run = run)
    (key : event.payload.finalSideEffectKey = some .final) : Sealed (log ++ [event]) run := by
  refine ⟨absorb (recordOf log run) event.payload, ?_, ?_⟩
  · rw [recordOf_append, if_pos own]
  cases before : recordOf log run with
  | none => exact .inr key
  | some m =>
    cases terminal : m.isTerminal with
    | true =>
      rw [absorb_terminal terminal]
      exact .inl terminal
    | false =>
      have shape : absorb (some m) event.payload = merge m event.payload := by
        simp [absorb, terminal]
      have merged : (merge m event.payload).finalSideEffectKey =
          event.payload.finalSideEffectKey.or m.finalSideEffectKey := rfl
      rw [shape, merged, key]
      exact .inr rfl

theorem WellFormed.closed {w : World} {m : Metadata} (inv : WellFormed w) (found : recordOf w.log run = some m)
    (closed : m.isTerminal = true ∨ m.finalSideEffectKey = some .final)
    (unreserved : w.finalReserved run = false) : m.isTerminal = true := by
  cases active : m.isTerminal with
  | true => rfl
  | false =>
    have key := closed.resolve_left (by simp [active])
    rw [finalKey_recordOf inv.log found active] at key
    obtain ⟨e, inside, own, final⟩ := mem_finalKeys.1 (mem_of_getLast? key)
    have content : e.content = .reserve .final := by
      refine content_of_finalKey final (closes_of_open inv.log found active inside own) ?_
      rintro key sent rfl
      obtain ⟨n, other⟩ := (inv.log e inside).subcrew _ sent
      cases other
    have reserved : w.finalReserved run = true := by
      simp only [finalReserved, Bool.and_eq_true, any_eq_true, decide_eq_true_eq,
        Bool.not_eq_true', any_eq_false]
      refine ⟨⟨e, inside, own, content⟩, ?_⟩
      rintro e' inside' ⟨own', closes⟩
      rw [closes_of_open inv.log found active inside' own'] at closes
      cases closes
    rw [reserved] at unreserved
    cases unreserved

end Sealed

/-! ## Steps that post no final answer -/

section Frame

variable {c : FlowConfig} {w w' : World} {t t' : Turn}

/-- Before its own final answer the turn knows of an earlier one. -/
def Turn.KnowsFinal (w : World) (t : Turn) : Prop :=
  w.Posted t.run .final → ∃ m, t.record = some m ∧ m.finalSideEffectKey = some .final

/-- The guard of a phase other than the final answer's own. -/
def Phase.isFinal : Phase → Bool
  | .final _ _ => true
  | _ => false

theorem finalGuard_of (knows : t.KnowsFinal w) (other : t.phase.isFinal = false) : t.FinalGuard w := by
  unfold Turn.FinalGuard
  split
  next at_ => rw [at_] at other; cases other
  next at_ => rw [at_] at other; cases other
  next => trivial
  next => trivial
  next => trivial
  next => trivial
  next => exact knows

/-- Phases after which the turn posts no final answer. -/
def Phase.silent : Phase → Bool
  | .final _ (.confirm _) | .marking _ | .recording _ _ _ | .finished _ => true
  | _ => false

theorem finalGuard_of_silent (silent : t.phase.silent = true) : t.FinalGuard w := by
  unfold Turn.FinalGuard
  split
  next at_ => rw [at_] at silent; cases silent
  next at_ => rw [at_] at silent; cases silent
  next => trivial
  next => trivial
  next => trivial
  next => trivial
  next one two three four five six =>
    cases at_ : t.phase with
    | recording content payload safe => exact absurd at_ (five content payload safe)
    | finished raised => exact absurd at_ (six raised)
    | marking key => exact absurd at_ (four key)
    | final text leg =>
      cases leg with
      | reserve => exact absurd at_ (one text)
      | post => exact absurd at_ (two text)
      | confirm messageId => exact absurd at_ (three text messageId)
    | _ => rw [at_] at silent; cases silent

theorem Turn.FinalGuard.knows (guard : t.FinalGuard w) (early : t.phase.isFinal = false)
    (heard : t.phase.silent = false) : t.KnowsFinal w := by
  unfold Turn.FinalGuard at guard
  cases at_ : t.phase with
  | final text leg => rw [at_] at early; cases early
  | marking key | recording content payload safe | finished raised => rw [at_] at heard; cases heard
  | _ => rw [at_] at guard; exact guard

/-- No final answer is posted. -/
def KeepsFinals (w w' : World) : Prop :=
  w'.posts = w.posts ∨ ∃ p, w'.posts = w.posts ++ [p] ∧ p.key ≠ .final

theorem KeepsFinals.posted (keeps : KeepsFinals w w') (run : RunId) :
    w'.Posted run .final ↔ w.Posted run .final := by
  rcases keeps with same | ⟨p, added, other⟩
  · simp [World.Posted, same]
  · simp [World.Posted, added, or_and_right, exists_or, other]

theorem KeepsFinals.postCount (keeps : KeepsFinals w w') (run : RunId) :
    w'.postCount run .final = w.postCount run .final := by
  rcases keeps with same | ⟨p, added, other⟩
  · simp [World.postCount, same]
  · simp [World.postCount, added, countP_append, other]

theorem Turn.KnowsFinal.keeps (knows : t.KnowsFinal w) (keeps : KeepsFinals w w') (run : t'.run = t.run)
    (record : t'.record.map Metadata.finalSideEffectKey = t.record.map Metadata.finalSideEffectKey) :
    t'.KnowsFinal w' := by
  intro posted
  rw [run, keeps.posted] at posted
  obtain ⟨m, found, key⟩ := knows posted
  rw [found, Option.map_some, key, Option.map_eq_some_iff] at record
  exact record

/-- The guard of a turn whose line stays where it is. -/
theorem Turn.FinalGuard.keeps (guard : t.FinalGuard w) (keeps : KeepsFinals w w')
    (sealed' : ∀ run, Sealed w.log run → Sealed w'.log run) (phase : t'.phase = t.phase)
    (run : t'.run = t.run) (record : t'.record = t.record) : t'.FinalGuard w' := by
  cases silent : t.phase.silent with
  | true => exact finalGuard_of_silent (phase ▸ silent)
  | false =>
    cases final : t.phase.isFinal with
    | false =>
      refine finalGuard_of ?_ (phase ▸ final)
      exact (guard.knows final silent).keeps keeps run (by rw [record])
    | true =>
      unfold Turn.FinalGuard at guard ⊢
      rw [phase]
      cases at_ : t.phase with
      | final text leg =>
        rw [at_] at guard silent
        cases leg with
        | reserve => exact fun posted => guard ((keeps.posted _).1 (run ▸ posted))
        | post =>
          rw [run]
          exact ⟨fun posted => guard.1 ((keeps.posted _).1 posted), sealed' _ guard.2⟩
        | confirm messageId => cases silent
      | _ => rw [at_] at final; cases final

end Frame

/-! ## The turn's line -/

section Line

variable {c : FlowConfig} {w w' : World} {t t' : Turn}

theorem Turn.FinalGuard.line (guard : t.FinalGuard w) (line : t.Line c t') : t'.FinalGuard w := by
  cases line with
  | finish | record | mark => exact finalGuard_of_silent rfl
  | finalize text at_ | delegate items at_ | next item rest accumulated at_
  | reserve item target rest accumulated at_ =>
    have knows := guard.knows (by rw [at_]; rfl) (by rw [at_]; rfl)
    exact finalGuard_of (knows.keeps (.inl rfl) rfl rfl) rfl
  | reserveFinal text at_ unreserved =>
    have knows := guard.knows (by rw [at_]; rfl) (by rw [at_]; rfl)
    intro posted
    obtain ⟨m, found, key⟩ := knows posted
    exact unreserved m found key

theorem Turn.FinalGuard.afterWrite {event : TaskEvent} {ok : Bool} (guard : t.FinalGuard w')
    (pending : t.pending = some event) (grown : ok = true → ∃ log, w'.log = log ++ [event]) :
    (t.afterWrite ok).FinalGuard w' := by
  have line := written pending ok
  generalize t.afterWrite ok = t' at line ⊢
  cases line with
  | stop | mark => exact finalGuard_of_silent rfl
  | reply at_ =>
    have knows := guard.knows (by rw [at_]; rfl) (by rw [at_]; rfl)
    refine finalGuard_of (knows.keeps (.inl rfl) rfl ?_) rfl
    cases record : t.record <;> simp [withReply, record]
  | final at_ =>
    obtain ⟨log, grown⟩ := grown rfl
    unfold Turn.FinalGuard at guard
    rw [at_] at guard
    simp only [Turn.pending, at_] at pending
    cases pending
    refine ⟨guard, ?_⟩
    rw [grown]
    exact Sealed.of_reserve rfl rfl
  | delegation at_ | next at_ =>
    have knows := guard.knows (by rw [at_]; rfl) (by rw [at_]; rfl)
    exact finalGuard_of (knows.keeps (.inl rfl) rfl rfl) rfl

end Line

/-! ## Every step -/

section Steps

variable {c : FlowConfig} {w w' : World} {t : Turn}

section

variable (inv : FinalOnce w)
include inv

theorem FinalOnce.keeps (formed : WellFormed w') (keeps : KeepsFinals w w')
    (sealed' : ∀ run, Sealed w.log run → Sealed w'.log run)
    (guard : ∀ t, w'.turn = some t → t.FinalGuard w') : FinalOnce w' where
  formed := formed
  once run := by
    rw [keeps.postCount]
    exact inv.once run
  posted run posted := sealed' run (inv.posted run ((keeps.posted run).1 posted))
  guard := guard

theorem FinalOnce.fresh (fresh : Fresh w t) : t.FinalGuard (w.begin t) := by
  rcases fresh.start with ⟨-, content, payload, safe, phase, -⟩ | ⟨record, active, phase⟩
  · exact finalGuard_of_silent (by rw [phase]; rfl)
  have knows : t.KnowsFinal (w.begin t) := by
    intro posted
    obtain ⟨m, found, closed⟩ := inv.posted t.run posted
    have loaded : t.record = some m := record.trans found
    exact ⟨m, loaded, closed.resolve_left (by simp [active m loaded])⟩
  refine finalGuard_of knows ?_
  rcases phase with ⟨flow, -⟩ | ⟨id, replying, -⟩
  · rw [flow]
    rfl
  · rw [replying]
    rfl

theorem FinalOnce.answer {text : String} (formed : WellFormed w')
    (unposted : ¬ w.Posted t.run .final) (reserved : Sealed w.log t.run) (log : w'.log = w.log)
    (added : w'.posts = w.posts ++ [⟨t.run, .final, text, w.turns⟩])
    (guard : ∀ t', w'.turn = some t' → t'.FinalGuard w') : FinalOnce w' where
  formed := formed
  once run := by
    have before := inv.once run
    rw [postCount, added, countP_append, countP_singleton]
    split
    next same =>
      have zero := postCount_eq_zero unposted
      obtain rfl : t.run = run := by simpa using same
      rw [postCount] at zero
      omega
    next => exact before
  posted run posted := by
    rw [log]
    obtain ⟨p, inside, own, key⟩ := posted
    rw [added] at inside
    rcases mem_concat inside with old | rfl
    · exact inv.posted run ⟨p, old, own, key⟩
    · cases own
      exact reserved
  guard := guard

theorem FinalOnce.post {key : SideEffectKey} {text : String}
    {outcome : PostOutcome} (busy : w.turn = some t) (pending : t.pendingPost c = some (key, text))
    (formed : WellFormed { w with
      posts := w.record t key text outcome, turn := some (t.afterPost outcome) }) :
    FinalOnce { w with
      posts := w.record t key text outcome, turn := some (t.afterPost outcome) } := by
  have guard := inv.guard t busy
  have moved := afterPost_moved (t := t) outcome
  unfold pendingPost at pending
  split at pending
  next text' at_ =>
    cases pending
    have silent : (t.afterPost outcome).phase.silent = true := by
      unfold afterPost
      rw [at_]
      cases outcome <;> rfl
    unfold Turn.FinalGuard at guard
    rw [at_] at guard
    cases landed : outcome.landed with
    | false =>
      refine inv.keeps formed (.inl (by simp [World.record, landed])) (fun _ same => same) ?_
      rintro t' ⟨⟩
      exact finalGuard_of_silent silent
    | true =>
      refine inv.answer formed guard.1 guard.2 rfl (by simp [World.record, landed]; rfl) ?_
      rintro t' ⟨⟩
      exact finalGuard_of_silent silent
  next item target rest accumulated at_ =>
    cases pending
    have keeps : KeepsFinals w { w with
        posts := w.record t (.delegate item.delegationId) (t.delegationText c item target) outcome
        turn := some (t.afterPost outcome) } := by
      unfold KeepsFinals World.record
      cases outcome.landed with
      | false => exact .inl rfl
      | true => exact .inr ⟨_, rfl, by simp⟩
    refine inv.keeps formed keeps (fun _ same => same) ?_
    rintro t' ⟨⟩
    have knows := guard.knows (by rw [at_]; rfl) (by rw [at_]; rfl)
    refine finalGuard_of (knows.keeps keeps moved.run (by rw [moved.record])) ?_
    unfold afterPost
    rw [at_]
    cases outcome <;> rfl
  next => cases pending

/-- A calm step leaves every seal alone. -/
theorem FinalOnce.sealed_step {event : World.RoomEvent} (calm : w.calm event = true) (stepped : w.step c event = some w') (run : RunId)
    (before : Sealed w.log run) : Sealed w'.log run := by
  cases step_act stepped with
  | write t event ok busy pending =>
    obtain ⟨formed, kept⟩ := pending_formed (inv.formed.turn t busy) pending
    cases ok with
    | false => exact before
    | true =>
      refine before.append formed fun _ => ?_
      rcases kept with closes | none | final
      · exact .inl closes
      · exact .inr (.inl none)
      · exact .inr (.inr (.inl final))
  | writeSend t i send event ok busy found pending =>
    cases ok with
    | false => exact before
    | true =>
      refine before.append (sendPending_formed pending) fun own => ?_
      obtain ⟨n, text, phase⟩ := send
      cases phase with
      | leg leg =>
        -- the one write that could take the key over meets a closed run
        refine .inr (.inr (.inr fun m known => ?_))
        have target : event.run = t.run := by
          cases leg <;> cases pending <;> rfl
        have unreserved : w.finalReserved run = false := by
          rw [← own, target]
          simpa [World.calm, busy, found] using calm
        obtain ⟨m', known', closed⟩ := before
        cases known.symm.trans known'
        exact inv.formed.closed known closed unreserved
      | marking =>
        cases pending
        exact .inl rfl
      | swallowed | returned | raised => cases pending
  | _ => exact before

theorem FinalOnce.step {event : World.RoomEvent} (calm : w.calm event = true)
    (stepped : w.step c event = some w') : FinalOnce w' := by
  have formed := inv.formed.step stepped
  have sealed' := inv.sealed_step calm stepped
  cases step_act stepped with
  | pass m idle =>
    refine inv.keeps formed (.inl rfl) sealed' ?_
    intro t busy
    cases busy.symm.trans idle
  | begin t idle fresh =>
    refine inv.keeps formed (.inl rfl) sealed' ?_
    rintro t' ⟨⟩
    exact inv.fresh fresh
  | line t t' busy inner =>
    have here : t.FinalGuard { w with turn := some t' } :=
      (inv.guard t busy).keeps (.inl rfl) sealed' rfl rfl rfl
    refine inv.keeps formed (.inl rfl) sealed' ?_
    rintro _ ⟨⟩
    exact here.line (line_cases inner)
  | write t event ok busy pending =>
    have here : t.FinalGuard { w with
        log := if ok then w.log ++ [event] else w.log, turn := some (t.afterWrite ok) } :=
      (inv.guard t busy).keeps (.inl rfl) sealed' rfl rfl rfl
    refine inv.keeps formed (.inl rfl) sealed' ?_
    rintro _ ⟨⟩
    refine here.afterWrite pending ?_
    rintro rfl
    exact ⟨w.log, rfl⟩
  | post t key text outcome busy pending => exact inv.post busy pending formed
  | callSend t t' text busy inner =>
    have aside := callSend_aside inner
    refine inv.keeps formed (.inl rfl) sealed' ?_
    rintro _ ⟨⟩
    exact (inv.guard t busy).keeps (.inl rfl) sealed' aside.phase aside.run aside.record
  | writeSend t i send event ok busy found pending | dropSend t i send busy found running =>
    refine inv.keeps formed (.inl rfl) sealed' ?_
    rintro _ ⟨⟩
    exact (inv.guard t busy).keeps (.inl rfl) sealed' rfl rfl rfl
  | postSend t i send outcome busy found posting =>
    have keeps : KeepsFinals w { w with
        posts := w.record t (.subcrew send.n) send.text outcome
        turn := some (t.setSend i send (sendAfterPost send.phase outcome)) } := by
      unfold KeepsFinals World.record
      cases outcome.landed with
      | false => exact .inl rfl
      | true => exact .inr ⟨_, rfl, by simp⟩
    refine inv.keeps formed keeps sealed' ?_
    rintro _ ⟨⟩
    exact (inv.guard t busy).keeps keeps sealed' rfl rfl rfl
  | ends t normal busy =>
    refine inv.keeps formed (.inl rfl) sealed' ?_
    rintro t' ⟨⟩

end

end Steps

theorem finalOnce_of_reachable {c : FlowConfig} {w : World}
    (reached : ((room c).restrict World.calm).Reachable w) : FinalOnce w := by
  refine reached.invariant ?_ fun w event w' inv stepped => ?_
  · rintro w rfl
    refine ⟨⟨by simp, ?_⟩, ?_, ?_, ?_⟩ <;> simp [postCount, World.Posted]
  · obtain ⟨calm, stepped⟩ := Machine.restrict_step stepped
    exact inv.step calm stepped

/-- **The final answer goes out once.**  In every run of a room in which no sub-Crew
event is written over the reservation of the final answer. -/
theorem final_at_most_once {c : FlowConfig} {w : World}
    (reached : ((room c).restrict World.calm).Reachable w) (run : RunId) :
    w.postCount run .final ≤ 1 :=
  (finalOnce_of_reachable reached).once run

/-- A turn posts its answer and crashes; the next one finds the reservation and
closes the run. -/
def answeredOnce : List World.RoomEvent :=
  [delivered request, .flowReturns (.directResponse "done"), .proceed, .write true,
    .post (.posted (some 2)), .crash, delivered request, .flowReturns (.directResponse "done"),
    .proceed, .write true, .close]

theorem final_at_most_once_crashed : ∃ w, ((room smallConfig).restrict World.calm).Reachable w ∧
    w.log.map TaskEvent.content = [.reserve .final, .indeterminate .final] ∧
    w.Posted 1 .final ∧ w.postCount 1 .final ≤ 1 := by
  have ran : (((room smallConfig).restrict calm).run emptyRoom answeredOnce).map
      (fun w => (w.log.map TaskEvent.content, w.posts)) =
        some ([.reserve .final, .indeterminate .final], [⟨1, .final, "done", 1⟩]) := by
    decide +kernel
  obtain ⟨w, path, facts⟩ := Option.map_eq_some_iff.1 ran
  have reached : ((room smallConfig).restrict calm).Reachable w :=
    ⟨_, rfl, answeredOnce, path⟩
  obtain ⟨log, posts⟩ := Prod.mk.inj facts
  refine ⟨w, reached, log, ⟨⟨1, .final, "done", 1⟩, ?_, rfl, rfl⟩, final_at_most_once reached 1⟩
  rw [posts]
  exact mem_singleton_self _

/-- The turn after the crash makes a sub-Crew send before it crashes as well. -/
def answeredTwice : List World.RoomEvent :=
  [delivered request, .flowReturns (.directResponse "done"), .proceed, .write true,
    .post (.posted (some 2)), .crash, delivered request, .callSend "note", .writeSend 0 true, .crash,
    delivered request, .flowReturns (.directResponse "done"), .proceed, .write true,
    .post (.posted (some 3))]

theorem final_posted_twice : ∃ w, (room smallConfig).Reachable w ∧ w.postCount 1 .final = 2 := by
  have ran : ((room smallConfig).run emptyRoom answeredTwice).map (fun w => w.postCount 1 .final) =
      some 2 := by decide +kernel
  obtain ⟨w, path, count⟩ := Option.map_eq_some_iff.1 ran
  exact ⟨w, ⟨_, rfl, answeredTwice, path⟩, count⟩

end BandSdk.CrewFlow

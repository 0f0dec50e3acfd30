/-
# CrewFlow.Unconfirmed -- a reservation without its confirmation

Before a visible write the executor looks for the side effect in the loaded
record: reserved and confirmed, it is suppressed; reserved and not confirmed, the
run is recorded INDETERMINATE.  For a delegation and a sub-Crew send the record
answers from their own entries.  The final answer has no entry of its own: its
reservation is read off `final_side_effect_key`, which a later sub-Crew event
overwrites, and its confirmation off `final_message_id`, which a confirmed
sub-Crew send sets.  `unconfirmed_fails_closed` says that these two are exactly
the ways out.
-/
import BandSdk.CrewFlow.Loaded

namespace BandSdk.CrewFlow

open BandSdk.Theory List

/-! ## Attempts -/

/-- The turn's line is at the idempotency check of `key`; a delegation comes to it
when its target is in the room. -/
def Turn.tries (t : Turn) (key : SideEffectKey) : Bool :=
  match t.phase, key with
  | .finalizing _, .final => true
  | .delegating (item :: _) _, .delegate id => item.delegationId = id &&
      (t.view.participants.find? fun p => t.view.normalize item.target = some p.normalizedKey).isSome
  | _, _ => false

/-- The turn is in `_record_indeterminate` for `key`, the last call of an attempt. -/
def Turn.marks (t : Turn) : SideEffectKey → Bool
  | .subcrew n => t.sends.any fun send => send.n = n && send.phase = .marking
  | key => t.phase = .marking key

namespace World

variable (w : World)

/-- The step is the next attempt at `key`. -/
def attempts (key : SideEffectKey) : RoomEvent → Bool
  | .proceed => w.turn.any (·.tries key)
  | .callSend _ => w.turn.any fun t => key = .subcrew (t.subcrewCounter + 1)
  | _ => false

def reserved (run : RunId) (key : SideEffectKey) : Bool :=
  w.log.any fun e => e.run = run && e.content = .reserve key

/-- The log has a confirmation that carries the message id of `key`. -/
def confirmed (run : RunId) (key : SideEffectKey) : Bool :=
  w.log.any fun e => e.run = run && e.carries key

end World

def Content.isSubcrewSent : Content → Bool
  | .subcrewSent _ => true
  | _ => false

/-- The reservation of the final answer is the last of the run's events that write
a final key, and no sub-Crew send of the run was confirmed with a message id. -/
def undisturbed (log : List TaskEvent) (run : RunId) : Bool :=
  (finalKeys log run).getLast? = some .final &&
    !log.any fun e => e.run = run && e.content.isSubcrewSent && e.payload.finalMessageId.isSome

/-! ## What the record says of a side effect -/

section Record

variable {log : List TaskEvent} {run : RunId} {m : Metadata} {n : Nat}

theorem Formed.short {content : Content} {payload : Metadata} (formed : Formed content payload) :
    payload.sideEffects.length ≤ 1 := by
  rw [formed.effects]
  cases content.effect <;> simp

/-- Only a confirmation writes a sub-Crew send with its message id. -/
theorem carries_of_effect {event : TaskEvent} {x : SideEffect}
    (formed : Formed event.content event.payload) (inside : x ∈ event.payload.sideEffects)
    (key : x.key = .subcrew n) (sent : x.messageId.isSome = true) :
    event.carries (.subcrew n) = true := by
  rw [formed.effects] at inside
  cases effect : event.content.effect with
  | none => rw [effect] at inside; cases inside
  | some key' =>
    rw [effect] at inside
    obtain rfl := mem_singleton.1 inside
    cases key
    obtain ⟨confirms, same⟩ := formed.message sent
    cases content : event.content with
    | reserve k => rw [content] at confirms; cases confirms
    | subcrewSent k =>
      rw [content] at effect
      cases effect
      simpa [TaskEvent.carries, content, Content.confirms] using sent
    | _ => rw [content] at effect; cases effect

theorem effect_of_carries {event : TaskEvent} (formed : Formed event.content event.payload)
    (carries : event.carries (.subcrew n) = true) :
    ∃ x ∈ event.payload.sideEffects, x.key = .subcrew n ∧ x.messageId.isSome = true := by
  simp only [TaskEvent.carries, Bool.and_eq_true, decide_eq_true_eq] at carries
  obtain ⟨confirms, sent⟩ := carries
  rw [formed.effects]
  cases content : event.content with
  | subcrewSent k =>
    rw [content] at confirms
    cases confirms
    exact ⟨⟨.subcrew n, event.payload.finalMessageId⟩, by simp [Content.effect], rfl, sent⟩
  | finalized k =>
    rw [content] at confirms
    cases confirms
    cases formed.finalized _ content
  | delegated k =>
    have known := (formed.message sent).2
    rw [confirms, content] at known
    cases known
  | _ => rw [content] at confirms; cases confirms

section

variable (formed : ∀ e ∈ log, Formed e.content e.payload) (found : recordOf log run = some m) (active : m.isTerminal = false)
include formed found active

theorem subcrew_recordOf {x : SideEffect}
    (inside : x ∈ m.sideEffects) (key : x.key = .subcrew n) : x.messageId.isSome = true ↔
      ∃ e ∈ log, e.run = run ∧ e.carries (.subcrew n) = true := by
  have remembers := remembers_of_open (fun e within => (formed e within).short) found active
  rw [remembers.carried x inside, key]
  constructor
  · rintro ⟨e, within, own, y, listed, same, sent⟩
    exact ⟨e, within, own, carries_of_effect (formed e within) listed same sent⟩
  · rintro ⟨e, within, own, carries⟩
    exact ⟨e, within, own, effect_of_carries (formed e within) carries⟩

theorem subcrew_listed {e : TaskEvent}
    (inside : e ∈ log) (own : e.run = run) (effect : e.content.effect = some (.subcrew n)) :
    ∃ x ∈ m.sideEffects, x.key = .subcrew n := by
  have remembers := remembers_of_open (fun e within => (formed e within).short) found active
  refine (remembers.touched (.subcrew n)).2 ⟨e, inside, own, ?_⟩
  rw [(formed e inside).effects, effect]
  exact ⟨⟨.subcrew n, e.payload.finalMessageId⟩, mem_singleton_self _, rfl⟩

theorem finalMessage_recordOf :
    m.finalMessageId.isSome = true ↔ ∃ e ∈ log, e.run = run ∧
      e.content.isSubcrewSent = true ∧ e.payload.finalMessageId.isSome = true := by
  have remembers := remembers_of_open (fun e within => (formed e within).short) found active
  rw [remembers.message]
  constructor
  · rintro ⟨e, inside, own, sent⟩
    refine ⟨e, inside, own, ?_, sent⟩
    obtain ⟨confirms, same⟩ := (formed e inside).message sent
    have open' := closes_of_open formed found active inside own
    cases content : e.content with
    | subcrewSent k => rfl
    | finalized k => rw [content] at open'; cases open'
    | delegated k => rw [content] at same; cases same
    | _ => rw [content] at confirms; cases confirms
  · rintro ⟨e, inside, own, -, sent⟩
    exact ⟨e, inside, own, sent⟩

end

end Record

/-! ## One attempt -/

section Attempt

variable {c : FlowConfig} {w w' : World} {t : Turn} {key : SideEffectKey}

theorem ahead_of_tries (tries : t.tries key = true) : t.phase.ahead key = true := by
  unfold Turn.tries at tries
  split at tries
  next at_ => rw [at_]; rfl
  next item rest accumulated id at_ =>
    simp only [Bool.and_eq_true, decide_eq_true_eq] at tries
    rw [at_]
    simp [Phase.ahead, tries.1]
  next => cases tries

theorem reserved_before (grew : t.Grew w) (reserved : w.reserved t.run key = true)
    (ahead : t.phase.ahead key = true ∨ key = .subcrew (t.subcrewCounter + 1)) :
    ∃ e ∈ t.history, e.run = t.run ∧ e.content = .reserve key := by
  obtain ⟨new, grown, own⟩ := grew.log
  simp only [World.reserved, any_eq_true, Bool.and_eq_true, decide_eq_true_eq] at reserved
  obtain ⟨e, inside, run, content⟩ := reserved
  rw [grown] at inside
  rcases mem_append.1 inside with old | since
  · exact ⟨e, old, run, content⟩
  obtain ⟨behind, counted⟩ := (own e since).2.2 key content
  rcases ahead with ahead | rfl
  · rw [ahead] at behind
    cases behind
  · have := counted _ rfl
    omega

theorem Turn.Working.record (working : t.Working w) {e : TaskEvent} (inside : e ∈ t.history)
    (own : e.run = t.run) : ∃ m m', recordOf t.history t.run = some m ∧ m.isTerminal = false ∧
      t.record = some m' ∧ Alike m m' := by
  have loaded := working.loaded
  unfold Turn.Loaded at loaded
  cases found : recordOf t.history t.run with
  | none => exact absurd own (recordOf_eq_none.1 found e inside)
  | some m =>
    rw [found] at loaded
    obtain ⟨active, m', record, alike⟩ := loaded
    exact ⟨m, m', rfl, active, record, alike⟩

/-- The final answer's check sees the record's shared fields. -/
theorem final_marks (text : String) (formed : ∀ e ∈ t.history, Formed e.content e.payload)
    (working : t.Working w) {e : TaskEvent} (inside : e ∈ t.history) (own : e.run = t.run) :
    (t.executeDirectResponse text).phase = .marking .final ↔ undisturbed t.history t.run = true := by
  obtain ⟨m, m', found, active, record, alike⟩ := working.record inside own
  have unfinished : m'.status ≠ .finalized := by
    intro ended
    have closed := alike.active
    rw [Metadata.isTerminal, ended] at closed
    cases closed
  have last : m'.finalSideEffectKey = (finalKeys t.history t.run).getLast? :=
    alike.key.trans (finalKey_recordOf formed found active)
  have message : m'.finalMessageId.isSome = t.history.any fun e => e.run = t.run &&
      e.content.isSubcrewSent && e.payload.finalMessageId.isSome := by
    rw [Bool.eq_iff_iff, alike.message, finalMessage_recordOf formed found active]
    simp [and_assoc]
  unfold undisturbed Turn.executeDirectResponse
  simp only [record, unfinished, if_false, last, ← message, Bool.and_eq_true, decide_eq_true_eq,
    Bool.not_eq_true']
  split
  next reserved => cases m'.finalMessageId <;> simp [Turn.mark, reserved]
  next unreserved => simp [unreserved]

/-- A delegation whose entry has no message id is marked. -/
theorem delegation_marks {items : List DelegateItem} {accumulated : List Delegation}
    (grounded : Grounded w) (grew : t.Grew w) (working : t.Working w)
    (at_ : t.phase = .delegating items accumulated) {id : DelegationId}
    (tries : t.tries (.delegate id) = true) {e : TaskEvent} (inside : e ∈ t.history)
    (own : e.run = t.run) (content : e.content = .reserve (.delegate id))
    (unconfirmed : w.confirmed t.run (.delegate id) = false) :
    (t.nextDelegation items accumulated).phase = .marking (.delegate id) := by
  obtain ⟨new, grown, -⟩ := grew.log
  have formed := grounded.formed.log e (grown ▸ mem_append_left _ inside)
  obtain ⟨m, m', found, active, record, alike⟩ := working.record inside own
  obtain ⟨d, listed, same⟩ := formed.entry id content
  obtain ⟨kept, within, known⟩ := delegations_kept found active inside own listed
  have held : ∃ d' ∈ t.delegations, d'.delegationId = id := by
    have ids : kept.ids ∈ m'.delegations.map Delegation.ids :=
      alike.delegations ▸ mem_map_of_mem within
    obtain ⟨d', inside', equal⟩ := mem_map.1 ids
    refine ⟨d', by simpa [Turn.delegations, record] using inside', ?_⟩
    exact (Prod.mk.inj equal).1.trans (known.trans same)
  unfold Turn.tries at tries
  rw [at_] at tries
  cases items with
  | nil => cases tries
  | cons item rest =>
    simp only [Bool.and_eq_true, decide_eq_true_eq] at tries
    obtain ⟨rfl, resolved⟩ := tries
    obtain ⟨target, resolved⟩ := Option.isSome_iff_exists.1 resolved
    obtain ⟨d', entry⟩ : ∃ d', t.delegations.find? (·.delegationId = item.delegationId) = some d' := by
      rw [← Option.isSome_iff_exists, List.find?_isSome]
      obtain ⟨d', inside', equal⟩ := held
      exact ⟨d', inside', by simpa using equal⟩
    have unsent : d'.delegationMessageId.isSome = false := by
      cases sent : d'.delegationMessageId.isSome with
      | false => rfl
      | true =>
        obtain ⟨e', logged, run, carries⟩ :=
          working.known d' (mem_of_find?_eq_some entry) sent
        have equal : d'.delegationId = item.delegationId := by simpa using List.find?_some entry
        rw [equal] at carries
        simp only [World.confirmed, any_eq_false, Bool.and_eq_true, decide_eq_true_eq,
          not_and, Bool.not_eq_true] at unconfirmed
        rw [unconfirmed e' logged run] at carries
        cases carries
    unfold Turn.nextDelegation
    simp only [resolved, entry, unsent]
    rfl

/-- A sub-Crew send whose entry has no message id is marked. -/
theorem subcrew_marks {text : String} {t' : Turn} (formed : ∀ e ∈ t.history, Formed e.content e.payload)
    (working : t.Working w) {e : TaskEvent} (inside : e ∈ t.history) (own : e.run = t.run)
    (content : e.content = .reserve (.subcrew (t.subcrewCounter + 1)))
    (unconfirmed : ∀ e ∈ t.history, e.run = t.run → e.carries (.subcrew (t.subcrewCounter + 1)) = false)
    (called : t.callSend text = some t') : t'.marks (.subcrew (t.subcrewCounter + 1)) = true := by
  obtain ⟨m, m', found, active, record, alike⟩ := working.record inside own
  obtain ⟨y, listed, same⟩ := subcrew_listed formed found active inside own (by rw [content]; rfl)
  obtain ⟨x, entry⟩ : ∃ x, m'.sideEffects.find? (·.key = .subcrew (t.subcrewCounter + 1)) = some x := by
    rw [← Option.isSome_iff_exists, List.find?_isSome, alike.effects]
    exact ⟨y, listed, by simpa using same⟩
  have unsent : x.messageId.isSome = false := by
    have held : x ∈ m.sideEffects := alike.effects ▸ mem_of_find?_eq_some entry
    have equal : x.key = .subcrew (t.subcrewCounter + 1) := by simpa using List.find?_some entry
    cases sent : x.messageId.isSome with
    | false => rfl
    | true =>
      obtain ⟨e', logged, run, carries⟩ := (subcrew_recordOf formed found active held equal).1 sent
      rw [unconfirmed e' logged run] at carries
      cases carries
  have existing : t.existingSideEffect (.subcrew (t.subcrewCounter + 1)) = some x := by
    simp [Turn.existingSideEffect, record, entry]
  obtain ⟨-, called⟩ := of_passed called
  have shape : { t with subcrewCounter := t.subcrewCounter + 1 }.existingSideEffect
      (.subcrew (t.subcrewCounter + 1)) = some x := existing
  simp only [shape, unsent] at called
  cases called
  simp [Turn.marks]

end Attempt

/-- **An unconfirmed side effect fails closed.**  When the log has a reservation of
`key` and no confirmation that carries its message id, the next attempt posts
nothing and records the run INDETERMINATE; for the final answer, exactly when no
sub-Crew event of the loaded log stands in for its own. -/
theorem unconfirmed_fails_closed {c : FlowConfig} {w w' : World} {t : Turn} {key : SideEffectKey}
    {event : World.RoomEvent} (reached : (room c).Reachable w) (busy : w.turn = some t)
    (attempt : w.attempts key event = true) (reserved : w.reserved t.run key = true)
    (unconfirmed : w.confirmed t.run key = false) (stepped : w.step c event = some w') :
    (w'.posts = w.posts ∧ ∃ t', w'.turn = some t' ∧ t'.marks key = true) ↔
      (key = .final → undisturbed t.history t.run = true) := by
  have grounded := grounded_of_reachable reached
  have grew := grew_of_reachable reached busy
  obtain ⟨new, grown, -⟩ := grew.log
  have formed : ∀ e ∈ t.history, Formed e.content e.payload := fun e inside =>
    grounded.formed.log e (grown ▸ mem_append_left _ inside)
  cases event with
  | proceed =>
    have tries : t.tries key = true := by simpa [World.attempts, busy] using attempt
    obtain ⟨e, inside, own, content⟩ :=
      reserved_before grew reserved (.inl (ahead_of_tries tries))
    simp only [World.step, World.turnStep, busy, Option.map_eq_some_iff] at stepped
    obtain ⟨t', proceeded, rfl⟩ := stepped
    have working : t.Working w := by
      rcases grounded.turn t busy with working | bystander
      · exact working
      · rw [(bystander.idle (c := c)).2.2.1] at proceeded
        cases proceeded
    unfold Turn.proceed at proceeded
    split at proceeded
    next text at_ =>
      cases proceeded
      have final : key = .final := by
        unfold Turn.tries at tries
        rw [at_] at tries
        cases key <;> first | rfl | cases tries
      subst final
      have marks := final_marks text formed working inside own
      simpa [Turn.marks] using marks
    next items accumulated at_ =>
      cases proceeded
      obtain ⟨id, rfl⟩ : ∃ id, key = .delegate id := by
        unfold Turn.tries at tries
        rw [at_] at tries
        cases key with
        | delegate id => exact ⟨id, rfl⟩
        | _ => cases items <;> cases tries
      have marks := delegation_marks grounded grew working at_ tries inside own content unconfirmed
      simp [Turn.marks, marks]
    next => cases proceeded
  | callSend text =>
    obtain rfl : key = .subcrew (t.subcrewCounter + 1) := by
      simpa [World.attempts, busy] using attempt
    obtain ⟨e, inside, own, content⟩ := reserved_before grew reserved (.inr rfl)
    simp only [World.step, World.turnStep, busy, Option.map_eq_some_iff] at stepped
    obtain ⟨t', called, rfl⟩ := stepped
    have working : t.Working w := by
      rcases grounded.turn t busy with working | bystander
      · exact working
      · have idle : t.takesTools = false := by
          unfold Turn.takesTools
          split
          · rfl
          · exact bystander.1
        simp [Turn.callSend, idle] at called
    have silent : ∀ e ∈ t.history, e.run = t.run → e.carries (.subcrew (t.subcrewCounter + 1)) = false := by
      intro e' inside' own'
      simp only [World.confirmed, any_eq_false, Bool.and_eq_true, decide_eq_true_eq,
        not_and, Bool.not_eq_true] at unconfirmed
      exact unconfirmed e' (grown ▸ mem_append_left _ inside') own'
    simp [subcrew_marks formed working inside own content silent called]
  | _ => cases attempt

/-- The turn crashed after it reserved its answer; the Flow decides the same again. -/
def reservedAgain : List World.RoomEvent :=
  [delivered request, .flowReturns (.directResponse "done"), .proceed, .write true, .crash,
    delivered request, .flowReturns (.directResponse "done")]

theorem unconfirmed_fails_closed_final : ∃ w w', (room smallConfig).Reachable w ∧
    w.step smallConfig .proceed = some w' ∧ w'.posts = w.posts ∧
    ∃ t', w'.turn = some t' ∧ t'.marks .final = true := by
  have ran : ((room smallConfig).run emptyRoom reservedAgain).map
      (fun w => (w.attempts .final .proceed, w.turn.map fun t =>
        (w.reserved t.run .final, w.confirmed t.run .final, undisturbed t.history t.run,
          (w.step smallConfig .proceed).isSome))) =
        some (true, some (true, false, true, true)) := by decide +kernel
  obtain ⟨w, path, facts⟩ := Option.map_eq_some_iff.1 ran
  have reached : (room smallConfig).Reachable w := ⟨_, rfl, reservedAgain, path⟩
  obtain ⟨attempt, inner⟩ := Prod.mk.inj facts
  obtain ⟨t, busy, inner⟩ := Option.map_eq_some_iff.1 inner
  obtain ⟨reserved, inner⟩ := Prod.mk.inj inner
  obtain ⟨unconfirmed, inner⟩ := Prod.mk.inj inner
  obtain ⟨calm, enabled⟩ := Prod.mk.inj inner
  obtain ⟨w', stepped⟩ := Option.isSome_iff_exists.1 enabled
  exact ⟨w, w', reached, stepped,
    (unconfirmed_fails_closed reached busy attempt reserved unconfirmed stepped).2 fun _ => calm⟩

/-- Before the answer, a sub-Crew send was confirmed with message 2. -/
def reservedAfterSend : List World.RoomEvent :=
  [delivered request, .callSend "note", .writeSend 0 true, .postSend 0 (.posted (some 2)),
    .writeSend 0 true, .flowReturns (.directResponse "done"), .proceed, .write true, .crash,
    delivered request, .flowReturns (.directResponse "done")]

/-- The unconfirmed answer counts as sent: nothing was posted, and the turn ends
without a task event. -/
theorem unconfirmed_taken_as_sent : ∃ w t w' t', (room smallConfig).Reachable w ∧
    w.turn = some t ∧ w.attempts .final .proceed = true ∧ w.reserved t.run .final = true ∧
    w.confirmed t.run .final = false ∧ w.step smallConfig .proceed = some w' ∧
    w'.turn = some t' ∧ t'.phase = .finished false ∧ w'.postCount 1 .final = 0 ∧
    t'.marks .final = false := by
  have ran : (((room smallConfig).run emptyRoom reservedAfterSend).bind fun w => w.turn.bind fun t =>
      (w.step smallConfig .proceed).bind fun w' => w'.turn.map fun t' =>
        ((w.attempts .final .proceed, w.reserved t.run .final, w.confirmed t.run .final),
          (decide (t'.phase = .finished false), w'.postCount 1 .final, t'.marks .final))) =
        some ((true, true, false), (true, 0, false)) := by decide +kernel
  obtain ⟨w, path, inner⟩ := Option.bind_eq_some_iff.1 ran
  have reached : (room smallConfig).Reachable w := ⟨_, rfl, reservedAfterSend, path⟩
  obtain ⟨t, busy, inner⟩ := Option.bind_eq_some_iff.1 inner
  obtain ⟨w', stepped, inner⟩ := Option.bind_eq_some_iff.1 inner
  obtain ⟨t', after, facts⟩ := Option.map_eq_some_iff.1 inner
  simp only [Prod.mk.injEq, decide_eq_true_eq] at facts
  obtain ⟨⟨attempt, reserved, unconfirmed⟩, phase, posts, unmarked⟩ := facts
  exact ⟨w, t, w', t', reached, busy, attempt, reserved, unconfirmed, stepped, after, phase, posts, unmarked⟩

/-- **No delegation is invented.**  What a later turn reads of a run shows a delegation as sent only if its
sending was confirmed in the log, for that run. -/
theorem sent_delegations_confirmed {c : FlowConfig} {w : World} (reached : (room c).Reachable w) {run : RunId}
    {m : Metadata} {d : Delegation} (found : recordOf w.log run = some m) (listed : d ∈ m.delegations)
    (sent : d.delegationMessageId.isSome = true) :
    ∃ event ∈ w.log, event.run = run ∧ event.carries (.delegate d.delegationId) = true := by
  obtain ⟨event, inside, rfl, its⟩ := mem_delegations_recordOf found listed
  exact (grounded_of_reachable reached).backed event inside d its sent

theorem sent_delegations_confirmed_asked : ∃ w m, (room smallConfig).Reachable w ∧ recordOf w.log 1 = some m ∧
    ∃ event ∈ w.log, event.run = 1 ∧ event.carries (.delegate 7) = true := by
  have ran : (((room smallConfig).run emptyRoom [delivered request, .flowReturns ask, .proceed, .write true,
      .post (.posted (some 2)), .write true]).bind fun w => (recordOf w.log 1).map fun m => (w, m)).map
      (fun p => p.2.delegations.map fun d => (d.delegationId, d.delegationMessageId)) = some [(7, some 2)] := by
    decide +kernel
  obtain ⟨⟨w, m⟩, ends, shown⟩ := Option.map_eq_some_iff.1 ran
  obtain ⟨w', path, loaded⟩ := Option.bind_eq_some_iff.1 ends
  obtain ⟨m', found, same⟩ := Option.map_eq_some_iff.1 loaded
  cases same
  obtain ⟨d, single, shape⟩ := List.map_eq_singleton_iff.1 shown
  obtain ⟨named, sent⟩ := Prod.mk.inj shape
  have reached : (room smallConfig).Reachable w := ⟨_, rfl, _, path⟩
  exact ⟨w, m, reached, found, named ▸ sent_delegations_confirmed reached found (by rw [single]; simp) (by rw [sent]; rfl)⟩

end BandSdk.CrewFlow

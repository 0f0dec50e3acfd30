/-
# CrewFlow.Subcrew -- a sub-Crew send is posted, raises, or repeats one

The key of a sub-Crew send is the number of the call in its turn, while the log
of used keys is that of the whole run.  `sends_answered` holds as long as no call
comes under a number that the turn of another message confirmed a send under
(`unused`): a settled send raised, was posted, or repeats a send that an
interrupted attempt of the same turn confirmed.

`send_swallowed` is the other case: the first turn of a run sends and completes,
a reply continues the run, and the first call of the second turn is taken for the
first call of the first one.
-/
import BandSdk.CrewFlow.Unconfirmed

namespace BandSdk.CrewFlow

open BandSdk.Theory List Turn

/-! ## The conditions -/

namespace World

/-- A message whose turn completed normally starts no other turn. -/
def distinct (w : World) : RoomEvent → Bool
  | .deliver m _ _ _ => !w.ended.any fun x => x.message = m.id && x.normal
  | _ => true

/-- No turn of another message confirmed a send under the number of the call. -/
def unused (w : World) : RoomEvent → Bool
  | .callSend _ => w.turn.all fun t => !t.history.any fun e =>
    e.run = t.run && e.carries (.subcrew (t.subcrewCounter + 1)) && e.author ≠ t.message.id
  | _ => true

end World

/-! ## The invariant -/

/-- The send's message is posted in this turn. -/
def Turn.Spoken (w : World) (t : Turn) (send : Send) : Prop :=
  (⟨t.run, .subcrew send.n, send.text, w.turns⟩ : Post) ∈ w.posts

/-- An earlier attempt of this turn confirmed a send under the same number. -/
def Turn.Repeats (t : Turn) (send : Send) : Prop :=
  ∃ e ∈ t.history, e.run = t.run ∧ e.carries (.subcrew send.n) = true ∧ e.author = t.message.id

def Turn.Answered (w : World) (t : Turn) (send : Send) : Prop :=
  match send.phase with
  | .leg (.confirm _) | .returned => t.Spoken w send
  | .swallowed => t.Repeats send
  | _ => True

structure Heard (w : World) : Prop where
  authors : ∀ e ∈ w.log, (∃ x ∈ w.ended, x.message = e.author) ∨ ∃ t, w.turn = some t ∧ e.author = t.message.id
  past : ∀ t, w.turn = some t → ∀ e ∈ t.history, ∃ x ∈ w.ended, x.message = e.author
  unended : ∀ t, w.turn = some t → ∀ x ∈ w.ended, x.message = t.message.id → x.normal = false
  sends : ∀ t, w.turn = some t → ∀ send ∈ t.sends, t.Answered w send

/-! ## A call -/

section Call

variable {c : FlowConfig} {w w' : World} {t t' : Turn} {text : String}

theorem callSend_spec (called : t.callSend text = some t') : t.takesTools = true ∧
    ∃ phase, t'.sends = t.sends ++ [⟨t.subcrewCounter + 1, text, phase⟩] ∧
      (phase = .leg .reserve ∨ phase = .marking ∨ phase = .swallowed ∧
        ∃ x, t.existingSideEffect (.subcrew (t.subcrewCounter + 1)) = some x ∧ x.messageId.isSome = true) := by
  unfold callSend at called
  dsimp only at called
  obtain ⟨takes, called⟩ := of_passed called
  refine ⟨takes, ?_⟩
  split at called
  next x existing =>
    split at called
    next sent =>
      cases called
      exact ⟨.swallowed, rfl, .inr (.inr ⟨rfl, x, existing, sent⟩)⟩
    next =>
      cases called
      exact ⟨.marking, rfl, .inr (.inl rfl)⟩
  next =>
    cases called
    exact ⟨.leg .reserve, rfl, .inl rfl⟩

theorem carried_of_existing {n : Nat} {x : SideEffect}
    (formed : ∀ e ∈ t.history, Formed e.content e.payload) (loaded : t.Loaded)
    (existing : t.existingSideEffect (.subcrew n) = some x) (sent : x.messageId.isSome = true) :
    ∃ e ∈ t.history, e.run = t.run ∧ e.carries (.subcrew n) = true := by
  unfold Turn.Loaded at loaded
  unfold existingSideEffect at existing
  cases found : recordOf t.history t.run with
  | none =>
    rw [found] at loaded
    simp [loaded] at existing
  | some m =>
    rw [found] at loaded
    obtain ⟨active, m', record, alike⟩ := loaded
    simp only [record, alike.effects, alike.key] at existing
    split at existing
    next effect entry =>
      cases existing
      have key : x.key = .subcrew n := by simpa using List.find?_some entry
      exact (subcrew_recordOf formed found active (mem_of_find?_eq_some entry) key).1 sent
    next absent =>
      -- the key alone does not stand: the event that wrote it wrote the entry too
      obtain ⟨last, existing⟩ := of_passed existing
      rw [finalKey_recordOf formed found active] at last
      obtain ⟨e, inside, own, key⟩ := mem_finalKeys.1 (mem_of_getLast? last)
      have open' := closes_of_open formed found active inside own
      have effect : e.content.effect = some (.subcrew n) := by
        cases content : e.content with
        | reserve k => rw [content] at key; cases k <;> cases key; rfl
        | subcrewSent k => rw [content] at key; exact key
        | finalized k | indeterminate k => rw [content] at open'; cases open'
        | _ => rw [content] at key; cases key
      obtain ⟨y, listed, same⟩ := subcrew_listed formed found active inside own effect
      exact absurd (List.find?_eq_none.1 absent y listed) (by simpa using same)

end Call

/-! ## Every step -/

section Steps

variable {c : FlowConfig} {w w' : World} {t t' : Turn} {send : Send}

/-- The same turn, later. -/
structure Turn.Follows (t t' : Turn) : Prop where
  message : t'.message = t.message
  history : t'.history = t.history
  run : t'.run = t.run

theorem Turn.Steady.follows (steady : t.Steady t') : t.Follows t' :=
  ⟨steady.message, steady.history, steady.run⟩

theorem Turn.Aside.follows (aside : Turn.Aside t t') : t.Follows t' :=
  ⟨aside.message, aside.history, aside.run⟩

theorem Turn.Answered.later (answered : t.Answered w send) (follows : t.Follows t')
    (posts : ∀ p ∈ w.posts, p ∈ w'.posts) (turns : w'.turns = w.turns) : t'.Answered w' send := by
  unfold Turn.Answered Turn.Spoken Turn.Repeats at answered ⊢
  rw [follows.history, follows.run, follows.message, turns]
  split at answered
  next => exact posts _ answered
  next => exact posts _ answered
  next => exact answered
  next => trivial

theorem Heard.goes (inv : Heard w) (busy : w.turn = some t) (after : w'.turn = some t')
    (follows : t.Follows t') (ended : w'.ended = w.ended)
    (log : ∀ e ∈ w'.log, e ∈ w.log ∨ e.author = t.message.id)
    (sends : ∀ send ∈ t'.sends, t'.Answered w' send) : Heard w' := by
  refine ⟨?_, ?_, ?_, ?_⟩
  · intro e inside
    rw [ended]
    rcases log e inside with old | own
    · rcases inv.authors e old with past | ⟨t₀, now, own⟩
      · exact .inl past
      · cases now.symm.trans busy
        exact .inr ⟨t', after, by rw [follows.message, own]⟩
    · exact .inr ⟨t', after, by rw [follows.message, own]⟩
  · intro t₀ now
    cases now.symm.trans after
    rw [ended, follows.history]
    exact inv.past t busy
  · intro t₀ now
    cases now.symm.trans after
    rw [ended, follows.message]
    exact inv.unended t busy
  · intro t₀ now
    cases now.symm.trans after
    exact sends

theorem Heard.idle (authors : ∀ e ∈ w'.log, ∃ x ∈ w'.ended, x.message = e.author)
    (idle : w'.turn = none) : Heard w' := by
  refine ⟨fun e inside => .inl (authors e inside), ?_, ?_, ?_⟩ <;>
    exact fun t busy => by cases busy.symm.trans idle

theorem Heard.endedAuthor (inv : Heard w) (idle : w.turn = none) {e : TaskEvent} (inside : e ∈ w.log) :
    ∃ x ∈ w.ended, x.message = e.author := by
  rcases inv.authors e inside with past | ⟨t, busy, -⟩
  · exact past
  · cases busy.symm.trans idle

theorem answered_setSend (inv : Heard w) (busy : w.turn = some t) {i : Nat} {phase : SendPhase}
    (posts : ∀ p ∈ w.posts, p ∈ w'.posts) (turns : w'.turns = w.turns)
    (moved : (t.setSend i send phase).Answered w' { send with phase := phase }) :
    ∀ s ∈ (t.setSend i send phase).sends, (t.setSend i send phase).Answered w' s := by
  intro s inside
  rcases mem_or_eq_of_mem_set inside with old | rfl
  · exact (inv.sends t busy s old).later (setSend_aside i send phase).follows posts turns
  · exact moved

theorem log_grown {event : TaskEvent} {ok : Bool} {author : MessageId} (own : event.author = author) :
    ∀ e ∈ (if ok then w.log ++ [event] else w.log), e ∈ w.log ∨ e.author = author := by
  intro e inside
  cases ok with
  | false => exact .inl inside
  | true =>
    rcases mem_concat inside with old | rfl
    · exact .inl old
    · exact .inr own

theorem mem_record {key : SideEffectKey} {text : String} {outcome : PostOutcome} :
    ∀ p ∈ w.posts, p ∈ w.record t key text outcome := by
  intro p inside
  unfold World.record
  split
  · exact mem_append_left _ inside
  · exact inside

theorem Heard.call {text : String} (inv : Heard w) (reached : (room c).Reachable w)
    (busy : w.turn = some t) (unused : w.unused (.callSend text) = true) (called : t.callSend text = some t') :
    ∀ s ∈ t'.sends, t'.Answered { w with turn := some t' } s := by
  have follows := (callSend_aside called).follows
  obtain ⟨takes, phase, sends, kind⟩ := callSend_spec called
  intro s inside
  rw [sends] at inside
  rcases mem_append.1 inside with old | new
  · exact (inv.sends t busy s old).later follows (fun _ same => same) rfl
  obtain rfl := mem_singleton.1 new
  rcases kind with rfl | rfl | ⟨rfl, x, existing, sent⟩
  · trivial
  · trivial
  have grounded := grounded_of_reachable reached
  obtain ⟨log, grown, -⟩ := (grew_of_reachable reached busy).log
  have formed : ∀ e ∈ t.history, Formed e.content e.payload := fun e inside =>
    grounded.formed.log e (grown ▸ mem_append_left _ inside)
  have working : t.Working w := by
    rcases grounded.turn t busy with working | bystander
    · exact working
    unfold takesTools at takes
    split at takes
    · cases takes
    · rw [bystander.1] at takes
      cases takes
  obtain ⟨e, inside, own, carries⟩ := carried_of_existing formed working.loaded existing sent
  refine ⟨e, by rw [follows.history]; exact inside, by rw [follows.run]; exact own, carries, ?_⟩
  rw [follows.message]
  by_contra other
  simp only [World.unused, busy, Option.all_some, Bool.not_eq_true', any_eq_false,
    Bool.and_eq_true, decide_eq_true_eq, not_and] at unused
  exact unused e inside ⟨own, carries⟩ other

theorem Heard.step {event : World.RoomEvent} (inv : Heard w) (reached : (room c).Reachable w)
    (distinct : w.distinct event = true) (unused : w.unused event = true)
    (stepped : w.step c event = some w') : Heard w' := by
  cases step_act stepped with
  | pass m idle =>
    refine Heard.idle (fun e inside => ?_) idle
    obtain ⟨x, listed, same⟩ := inv.endedAuthor idle inside
    exact ⟨x, mem_append_left _ listed, same⟩
  | begin t idle fresh own =>
    subst own
    refine ⟨fun e inside => .inl (inv.endedAuthor idle inside), ?_, ?_, ?_⟩
    · rintro _ ⟨⟩ e inside
      exact inv.endedAuthor idle (fresh.history ▸ inside)
    · rintro _ ⟨⟩ x inside same
      simp only [World.distinct, Bool.not_eq_true', any_eq_false, Bool.and_eq_true,
        decide_eq_true_eq, not_and, Bool.not_eq_true] at distinct
      exact distinct x inside same
    · rintro _ ⟨⟩
      rw [fresh.sends]
      simp
  | line t t' busy inner =>
    have moved := (line_cases inner).moved
    have follows := moved.steady.follows
    refine inv.goes busy rfl follows rfl (fun e inside => .inl inside) ?_
    rw [moved.sends]
    exact fun s inside => (inv.sends t busy s inside).later follows (fun _ same => same) rfl
  | write t event ok busy pending =>
    have steady := (written pending ok).steady
    refine inv.goes busy rfl steady.follows rfl (log_grown (pending_event pending).2) ?_
    rw [steady.sends]
    exact fun s inside => (inv.sends t busy s inside).later steady.follows (fun _ same => same) rfl
  | post t key text outcome busy pending =>
    have moved := afterPost_moved (t := t) outcome
    refine inv.goes busy rfl moved.steady.follows rfl (fun e inside => .inl inside) ?_
    rw [moved.sends]
    exact fun s inside => (inv.sends t busy s inside).later moved.steady.follows mem_record rfl
  | callSend t t' text busy inner =>
    exact inv.goes busy rfl (callSend_aside inner).follows rfl (fun e inside => .inl inside)
      (inv.call reached busy unused inner)
  | writeSend t i send event ok busy found pending =>
    have before := inv.sends t busy send (mem_of_getElem? found)
    refine inv.goes busy rfl (setSend_aside i send _).follows rfl
      (log_grown (sendPending_event pending).2.1) ?_
    refine answered_setSend inv busy (fun _ same => same) rfl ?_
    obtain ⟨n, text, phase⟩ := send
    cases phase with
    | leg leg =>
      cases leg with
      | reserve => cases ok <;> trivial
      | post => cases pending
      | confirm messageId =>
        cases ok with
        | false => trivial
        | true => exact before
    | marking => trivial
    | swallowed | returned | raised => cases pending
  | postSend t i send outcome busy found posting =>
    refine inv.goes busy rfl (setSend_aside i send _).follows rfl
      (fun e inside => .inl inside) ?_
    refine answered_setSend inv busy mem_record rfl ?_
    rw [posting]
    cases outcome with
    | raised landed => trivial
    | posted messageId =>
      show _ ∈ w.record t (.subcrew send.n) send.text (.posted messageId)
      exact mem_append_right _ (mem_singleton_self _)
  | dropSend t i send busy found running =>
    refine inv.goes busy rfl (setSend_aside i send _).follows rfl
      (fun e inside => .inl inside) ?_
    exact answered_setSend inv busy (fun _ same => same) rfl trivial
  | ends t normal busy =>
    refine Heard.idle (fun e inside => ?_) rfl
    rcases inv.authors e inside with ⟨x, listed, same⟩ | ⟨t₀, now, own⟩
    · exact ⟨x, mem_append_left _ listed, same⟩
    · cases now.symm.trans busy
      exact ⟨_, mem_append_right _ (mem_singleton_self _), own.symm⟩

end Steps

theorem heard_of_reachable {c : FlowConfig} {w : World}
    (reached : (((room c).restrict World.distinct).restrict World.unused).Reachable w) : Heard w := by
  refine reached.invariant_reachable ?_ fun w event w' before inv stepped => ?_
  · rintro w rfl
    exact Heard.idle (by simp) rfl
  · obtain ⟨unused, stepped⟩ := Machine.restrict_step stepped
    obtain ⟨distinct, stepped⟩ := Machine.restrict_step stepped
    exact inv.step before.of_restrict.of_restrict distinct unused stepped

/-- **A sub-Crew send is not lost.**  In every run in which no call comes under a
number that the turn of another message confirmed a send under: a send that has
settled raised, or posted its message, or repeats a send that an interrupted
attempt of the same turn confirmed. -/
theorem sends_answered {c : FlowConfig} {w : World} {t : Turn} {send : Send}
    (reached : (((room c).restrict World.distinct).restrict World.unused).Reachable w)
    (busy : w.turn = some t) (made : send ∈ t.sends) (settled : send.phase.settled = true) :
    send.phase = .raised ∨ t.Spoken w send ∨ t.Repeats send ∧ ⟨t.message.id, false⟩ ∈ w.ended := by
  have heard := heard_of_reachable reached
  have answered := heard.sends t busy send made
  unfold Turn.Answered at answered
  cases at_ : send.phase with
  | raised => exact .inl rfl
  | returned =>
    rw [at_] at answered
    exact .inr (.inl answered)
  | swallowed =>
    rw [at_] at answered
    refine .inr (.inr ⟨answered, ?_⟩)
    obtain ⟨e, inside, -, -, author⟩ := answered
    obtain ⟨⟨message, normal⟩, listed, same⟩ := heard.past t busy e inside
    obtain rfl : normal = false := heard.unended t busy _ listed (same.trans author)
    obtain rfl : message = t.message.id := same.trans author
    exact listed
  | leg leg | marking => rw [at_] at settled; cases settled

/-- A send is confirmed, the turn crashes, and the Flow sends again. -/
def sentTwice : List World.RoomEvent :=
  [delivered request, .callSend "note", .writeSend 0 true, .postSend 0 (.posted (some 2)),
    .writeSend 0 true, .crash, delivered request, .callSend "note"]

theorem sends_answered_repeated : ∃ w t send,
    (((room smallConfig).restrict World.distinct).restrict World.unused).Reachable w ∧
    w.turn = some t ∧ send ∈ t.sends ∧ send.phase = .swallowed ∧
    (send.phase = .raised ∨ t.Spoken w send ∨ t.Repeats send ∧ ⟨t.message.id, false⟩ ∈ w.ended) := by
  have ran : ((((room smallConfig).restrict World.distinct).restrict World.unused).run emptyRoom
      sentTwice).bind (fun w => w.turn.map sends) = some [⟨1, "note", .swallowed⟩] := by
    decide +kernel
  obtain ⟨w, path, inner⟩ := Option.bind_eq_some_iff.1 ran
  have reached : (((room smallConfig).restrict World.distinct).restrict World.unused).Reachable w :=
    ⟨_, rfl, sentTwice, path⟩
  obtain ⟨t, busy, sends⟩ := Option.map_eq_some_iff.1 inner
  have made : (⟨1, "note", .swallowed⟩ : Send) ∈ t.sends := by
    rw [sends]
    exact mem_singleton_self _
  exact ⟨w, t, _, reached, busy, made, rfl, sends_answered reached busy made rfl⟩

/-- The first turn sends, delegates and completes; the reply's turn sends. -/
def sentInTwoTurns : List World.RoomEvent :=
  [delivered request, .callSend "first", .writeSend 0 true, .postSend 0 (.posted (some 2)),
    .writeSend 0 true, .flowReturns ask, .proceed, .write true, .post (.posted (some 3)),
    .write true, .proceed, .close, delivered reply, .write true, .callSend "second"]

theorem send_swallowed : ∃ w t, ((room smallConfig).restrict World.distinct).Reachable w ∧
    w.turn = some t ∧ t.message.id = 9 ∧ w.ended = [⟨1, true⟩] ∧
    ⟨1, "second", .swallowed⟩ ∈ t.sends ∧
    ¬ ((⟨1, "second", .swallowed⟩ : Send).phase = .raised ∨ t.Spoken w ⟨1, "second", .swallowed⟩ ∨
      t.Repeats ⟨1, "second", .swallowed⟩ ∧ ⟨t.message.id, false⟩ ∈ w.ended) := by
  have ran : (((room smallConfig).restrict World.distinct).run emptyRoom sentInTwoTurns).bind
      (fun w => w.turn.map fun t => (t.message.id, w.ended, t.sends, w.posts.all fun p => p.text ≠ "second")) =
      some (9, [⟨1, true⟩], [⟨1, "second", .swallowed⟩], true) := by decide +kernel
  obtain ⟨w, path, inner⟩ := Option.bind_eq_some_iff.1 ran
  obtain ⟨t, busy, facts⟩ := Option.map_eq_some_iff.1 inner
  simp only [Prod.mk.injEq] at facts
  obtain ⟨message, ended, sends, unposted⟩ := facts
  refine ⟨w, t, ⟨_, rfl, sentInTwoTurns, path⟩, busy, message, ended, ?_, ?_⟩
  · rw [sends]
    exact mem_singleton_self _
  · rintro (raised | spoken | ⟨-, interrupted⟩)
    · cases raised
    · have other := all_eq_true.1 unposted _ spoken
      simp at other
    · rw [message, ended] at interrupted
      simp at interrupted

end BandSdk.CrewFlow

/-
# CrewFlow.Loaded -- what a turn knows is what the log said when it began

A turn decides from the record it loaded.  It is the folded record of the log at
that time, up to the reply the turn itself recorded (`Turn.Loaded`); every
delegation in it that has a message id is backed by a confirmation in the log
(`Backed`); and what the turn has written since then reserves nothing that it may
still come to (`Turn.Grew`).
-/
import BandSdk.CrewFlow.Final

namespace BandSdk.CrewFlow

open BandSdk.Theory List Turn

/-! ## Records a turn may hold -/

/-- What the idempotency check of a delegation reads. -/
def Delegation.ids (d : Delegation) : DelegationId × Option MessageId :=
  (d.delegationId, d.delegationMessageId)

/-- An open record, up to where the run stands and to recorded replies. -/
structure Alike (m m' : Metadata) : Prop where
  effects : m'.sideEffects = m.sideEffects
  key : m'.finalSideEffectKey = m.finalSideEffectKey
  message : m'.finalMessageId = m.finalMessageId
  delegations : m'.delegations.map Delegation.ids = m.delegations.map Delegation.ids
  active : m'.isTerminal = false

/-- The turn's record is that of the log it loaded, and was open there. -/
def Turn.Loaded (t : Turn) : Prop :=
  match recordOf t.history t.run with
  | none => t.record = none
  | some m => m.isTerminal = false ∧ ∃ m', t.record = some m' ∧ Alike m m'

/-- The event confirms side effect `key` and carries its message id. -/
def TaskEvent.carries (event : TaskEvent) (key : SideEffectKey) : Bool :=
  event.content.confirms = some key && match key with
    | .delegate id => event.payload.delegations.any fun d =>
      d.delegationId = id && d.delegationMessageId.isSome
    | _ => event.payload.finalMessageId.isSome

/-- Every message id in these entries was confirmed in the log. -/
def Backed (log : List TaskEvent) (run : RunId) (ds : List Delegation) : Prop :=
  ∀ d ∈ ds, d.delegationMessageId.isSome = true →
    ∃ e ∈ log, e.run = run ∧ e.carries (.delegate d.delegationId) = true

def Phase.accumulated : Phase → List Delegation
  | .delegating _ accumulated => accumulated
  | .delegation _ _ _ accumulated _ => accumulated
  | _ => []

/-- A turn that can only record and end. -/
def Turn.Bystander (t : Turn) : Prop :=
  t.tools = false ∧ (t.phase.isRecording = true ∨ ∃ raised, t.phase = .finished raised)

structure Turn.Working (w : World) (t : Turn) : Prop where
  loaded : t.Loaded
  known : Backed w.log t.run t.delegations
  gathered : Backed w.log t.run t.phase.accumulated

structure Grounded (w : World) : Prop where
  formed : WellFormed w
  backed : ∀ e ∈ w.log, Backed w.log e.run e.payload.delegations
  turn : ∀ t, w.turn = some t → t.Working w ∨ t.Bystander

section Backed

variable {log : List TaskEvent} {run : RunId} {ds ds' : List Delegation} {event : TaskEvent}

theorem Backed.mono {log' : List TaskEvent} (backed : Backed log run ds)
    (more : ∀ e ∈ log, e ∈ log') : Backed log' run ds := by
  intro d inside sent
  obtain ⟨e, within, rest⟩ := backed d inside sent
  exact ⟨e, more e within, rest⟩

theorem Backed.ids (backed : Backed log run ds)
    (same : ds'.map Delegation.ids = ds.map Delegation.ids) : Backed log run ds' := by
  intro d inside sent
  have listed : d.ids ∈ ds.map Delegation.ids := same ▸ mem_map_of_mem inside
  obtain ⟨d', inside', equal⟩ := mem_map.1 listed
  obtain ⟨id, message⟩ := Prod.mk.inj equal
  rw [← id]
  exact backed d' inside' (message ▸ sent)

theorem Backed.append (first : Backed log run ds) (second : Backed log run ds') :
    Backed log run (ds ++ ds') := by
  intro d inside
  rcases mem_append.1 inside with old | new
  · exact first d old
  · exact second d new

theorem backed_nil : Backed log run [] := by
  intro d inside
  cases inside

theorem backed_unsent {d : Delegation} (unsent : d.delegationMessageId = none) : Backed log run [d] := by
  intro d' inside sent
  obtain rfl := mem_singleton.1 inside
  rw [unsent] at sent
  cases sent

/-- The record's entries are those of the events it was folded from. -/
theorem backed_recordOf {m : Metadata} (backed : ∀ e ∈ log, Backed log e.run e.payload.delegations)
    (found : recordOf log run = some m) : Backed log run m.delegations := by
  intro d inside sent
  obtain ⟨e, within, rfl, listed⟩ := mem_delegations_recordOf found inside
  exact backed e within d listed sent

theorem repliedDelegations_ids (t : Turn) (id : DelegationId) :
    (t.repliedDelegations id).map Delegation.ids = t.delegations.map Delegation.ids := by
  unfold repliedDelegations
  rw [map_map]
  refine map_congr_left fun d _ => ?_
  simp only [Function.comp_apply]
  split <;> rfl

end Backed

/-! ## The turn's line -/

section Line

variable {c : FlowConfig} {w w' : World} {t t' : Turn} {event : TaskEvent}

theorem pending_event (pending : t.pending = some event) : event.run = t.run ∧ event.author = t.message.id := by
  unfold Turn.pending at pending
  split at pending <;> cases pending <;> exact ⟨rfl, rfl⟩

theorem sendPending_event {send : Send} (pending : t.sendPending send = some event) :
    event.run = t.run ∧ event.author = t.message.id ∧ event.payload.delegations = [] := by
  unfold sendPending at pending
  split at pending <;> cases pending <;> exact ⟨rfl, rfl, rfl⟩

theorem Turn.Loaded.same (loaded : t.Loaded) (history : t'.history = t.history)
    (run : t'.run = t.run) (record : t'.record = t.record) : t'.Loaded := by
  unfold Turn.Loaded at loaded ⊢
  rw [history, run, record]
  exact loaded

theorem Turn.Working.moved (working : t.Working w) (moved : Turn.Moved t t')
    (log : ∀ e ∈ w.log, e ∈ w'.log) (gathered : Backed w'.log t.run t'.phase.accumulated) :
    t'.Working w' := by
  refine ⟨working.loaded.same moved.history moved.run moved.record, ?_, ?_⟩
  · have known : t'.delegations = t.delegations := by simp [delegations, moved.record]
    rw [moved.run, known]
    exact working.known.mono log
  · rw [moved.run]
    exact gathered

theorem Turn.Loaded.replied (loaded : t.Loaded) (id : DelegationId) : (t.withReply id).Loaded := by
  unfold Turn.Loaded at loaded
  unfold Turn.withReply Turn.Loaded
  dsimp only
  cases found : recordOf t.history t.run with
  | none =>
    rw [found] at loaded
    simp [loaded]
  | some m =>
    rw [found] at loaded
    obtain ⟨active, m', record, alike⟩ := loaded
    refine ⟨active, { m' with
      status := .replyRecorded, stage := .waitingForReplies
      delegations := t.repliedDelegations id }, by rw [record]; rfl, ?_⟩
    refine ⟨alike.effects, alike.key, alike.message, ?_, rfl⟩
    have known : t.delegations = m'.delegations := by simp [delegations, record]
    exact (repliedDelegations_ids t id).trans (known ▸ alike.delegations)

theorem pending_backed (sound : t.Working w ∨ t.Bystander) (plain : t.RecordsPlain)
    (pending : t.pending = some event) :
    Backed (w.log ++ [event]) t.run event.payload.delegations := by
  have older : ∀ e ∈ w.log, e ∈ w.log ++ [event] := fun e => mem_append_left _
  have working : t.phase.isRecording = false → t.Working w := by
    intro other
    rcases sound with working | ⟨-, recording | ⟨raised, ended⟩⟩
    · exact working
    · rw [recording] at other
      cases other
    · unfold Turn.pending at pending
      rw [ended] at pending
      cases pending
  unfold Turn.pending at pending
  split at pending
  next id at_ =>
    cases pending
    exact ((working (by rw [at_]; rfl)).known.mono older).ids (repliedDelegations_ids t id)
  next at_ =>
    cases pending
    rw [show (t.event _ _).payload.delegations = [] from (plain _ _ _ at_).delegations]
    exact backed_nil
  next => cases pending; exact backed_nil
  next => cases pending; exact backed_nil
  next at_ =>
    cases pending
    have gathered := (working (by rw [at_]; rfl)).gathered
    rw [at_] at gathered
    exact (gathered.mono older).append (backed_unsent rfl)
  next item target rest accumulated messageId at_ =>
    have gathered := (working (by rw [at_]; rfl)).gathered
    rw [at_] at gathered
    have entries : event.payload.delegations =
        accumulated ++ [delegationEntry item target .pending messageId] := by cases pending; rfl
    rw [entries]
    refine (gathered.mono older).append ?_
    intro d inside sent
    obtain rfl := mem_singleton.1 inside
    refine ⟨event, by simp, by cases pending; rfl, ?_⟩
    cases pending
    simp only [TaskEvent.carries, event, delegationEntry, Content.confirms, decide_true,
      Bool.true_and, any_append, Bool.or_eq_true]
    exact .inr (by simpa [delegationEntry] using sent)
  next => cases pending; exact backed_nil
  next => cases pending

/-- Where the turn's line can go without a call. -/
theorem Turn.Working.line (working : t.Working w) (line : t.Line c t') : t'.Working w := by
  have gathered := working.gathered
  refine working.moved line.moved (fun _ same => same) ?_
  cases line with
  | delegate => exact working.known
  | next item rest accumulated at_ | reserve item target rest accumulated at_ =>
    rw [at_] at gathered
    exact gathered
  | _ => exact backed_nil

theorem Turn.Working.write {ok : Bool} (working : t.Working w) (pending : t.pending = some event)
    (log : ∀ e ∈ w.log, e ∈ w'.log) (sent : ok = true → Backed w'.log t.run event.payload.delegations) :
    (t.afterWrite ok).Working w' := by
  have gathered := working.gathered.mono log
  have line := written pending ok
  generalize t.afterWrite ok = t' at line ⊢
  cases line with
  | @reply id at_ =>
    refine ⟨working.loaded.replied id, (working.known.mono log).ids ?_, backed_nil⟩
    cases record : t.record with
    | none => simp [delegations, withReply, record]
    | some m =>
      have known : (t.withReply id).delegations = t.repliedDelegations id := by
        simp [delegations, withReply, record]
      rw [known]
      exact repliedDelegations_ids t id
  | delegation at_ =>
    rw [at_] at gathered
    exact working.moved (phase_moved _) log gathered
  | next at_ =>
    simp only [Turn.pending, at_] at pending
    cases pending
    exact working.moved (phase_moved _) log (sent rfl)
  | mark key => exact working.moved (mark_moved key) log backed_nil
  | _ => exact working.moved (phase_moved _) log backed_nil

theorem Turn.Working.post (working : t.Working w) (outcome : PostOutcome) (log : w'.log = w.log) :
    (t.afterPost outcome).Working w' := by
  refine working.moved (afterPost_moved outcome) (by rw [log]; exact fun _ same => same) ?_
  have gathered := working.gathered
  rw [log]
  unfold afterPost
  split
  next => exact backed_nil
  next => exact backed_nil
  next at_ => rw [at_] at gathered; exact gathered
  next => exact backed_nil
  next => exact gathered

end Line

/-! ## Every step -/

section Steps

variable {c : FlowConfig} {w w' : World} {t t' : Turn} {event : TaskEvent}

theorem Turn.Working.aside (working : t.Working w) (aside : Turn.Aside t t')
    (log : ∀ e ∈ w.log, e ∈ w'.log) : t'.Working w' := by
  refine ⟨working.loaded.same aside.history aside.run aside.record, ?_, ?_⟩
  · have known : t'.delegations = t.delegations := by simp [delegations, aside.record]
    rw [aside.run, known]
    exact working.known.mono log
  · rw [aside.run, aside.phase]
    exact working.gathered.mono log

section

variable (bystander : t.Bystander)
include bystander

theorem Turn.Bystander.aside (aside : Turn.Aside t t') : t'.Bystander := by
  unfold Turn.Bystander
  rw [aside.tools, aside.phase]
  exact bystander

/-- A bystander has nothing to decide and nothing to post. -/
theorem Turn.Bystander.phase :
    (∃ content payload safe, t.phase = .recording content payload safe) ∨
      ∃ raised, t.phase = .finished raised := by
  rcases bystander.2 with recording | ended
  · cases at_ : t.phase with
    | recording content payload safe => exact .inl ⟨content, payload, safe, rfl⟩
    | _ => rw [at_] at recording; cases recording
  · exact .inr ended

theorem Turn.Bystander.idle : t.flowFails = (fun _ => none) ∧
    (∀ result, t.flowReturns c result = none) ∧ t.proceed = none ∧ t.pendingPost c = none := by
  rcases bystander.phase with ⟨content, payload, safe, at_⟩ | ⟨raised, at_⟩ <;>
    exact ⟨by funext code; simp [flowFails, at_], by simp [flowReturns, at_],
      by simp [proceed, at_], by simp [pendingPost, at_]⟩

/-- Such a turn has no line to go on with. -/
theorem Turn.Bystander.no_line (stepped : (∃ result, t.flowReturns c result = some t') ∨
    (∃ code, t.flowFails code = some t') ∨ t.proceed = some t') : False := by
  obtain ⟨fails, returns, proceeds, -⟩ := bystander.idle (c := c)
  simp [fails, returns, proceeds] at stepped

theorem Turn.Bystander.write (ok : Bool) : (t.afterWrite ok).Bystander := by
  rcases bystander.phase with ⟨content, payload, safe, at_⟩ | ⟨raised, at_⟩
  · refine ⟨?_, .inr ⟨!ok && !safe, ?_⟩⟩
    · simpa [afterWrite, at_] using bystander.1
    · simp [afterWrite, at_]
  · refine ⟨?_, .inr ⟨raised, ?_⟩⟩
    · simpa [afterWrite, at_] using bystander.1
    · simp [afterWrite, at_]

end

theorem Grounded.fresh (inv : Grounded w) (fresh : Fresh w t) : t.Working (w.begin t) ∨ t.Bystander := by
  rcases fresh.start with ⟨tools, content, payload, safe, phase, -⟩ | ⟨record, active, phase⟩
  · exact .inr ⟨tools, .inl (by rw [phase]; rfl)⟩
  refine .inl ⟨?_, ?_, ?_⟩
  · unfold Turn.Loaded
    rw [fresh.history]
    cases found : recordOf w.log t.run with
    | none => exact record.trans found
    | some m =>
      have loaded := record.trans found
      exact ⟨active m loaded, m, loaded, rfl, rfl, rfl, rfl, active m loaded⟩
  · cases found : recordOf w.log t.run with
    | none =>
      have known : t.delegations = [] := by simp [delegations, record, found]
      rw [known]
      exact backed_nil
    | some m =>
      have known : t.delegations = m.delegations := by simp [delegations, record, found]
      rw [known]
      exact backed_recordOf inv.backed found
  · rcases phase with ⟨flow, -⟩ | ⟨id, replying, -⟩
    · rw [flow]
      exact backed_nil
    · rw [replying]
      exact backed_nil

theorem backed_append (backed : ∀ e ∈ w.log, Backed w.log e.run e.payload.delegations) {ok : Bool}
    (own : Backed (w.log ++ [event]) event.run event.payload.delegations) :
    ∀ e ∈ (if ok then w.log ++ [event] else w.log),
      Backed (if ok then w.log ++ [event] else w.log) e.run e.payload.delegations := by
  intro e inside
  cases ok with
  | false => exact backed e inside
  | true =>
    rcases mem_concat inside with old | rfl
    · exact (backed e old).mono fun e => mem_append_left _
    · exact own

theorem mem_grown {ok : Bool} : ∀ e ∈ w.log, e ∈ (if ok then w.log ++ [event] else w.log) := by
  intro e inside
  cases ok with
  | false => exact inside
  | true => exact mem_append_left _ inside

theorem Grounded.step {event : World.RoomEvent} (inv : Grounded w)
    (stepped : w.step c event = some w') : Grounded w' := by
  have formed := inv.formed.step stepped
  cases step_act stepped with
  | pass m idle => exact ⟨formed, inv.backed, fun t busy => by cases busy.symm.trans idle⟩
  | begin t idle fresh =>
    refine ⟨formed, inv.backed, ?_⟩
    rintro _ ⟨⟩
    exact inv.fresh fresh
  | line t t' busy inner =>
    refine ⟨formed, inv.backed, ?_⟩
    rintro _ ⟨⟩
    rcases inv.turn t busy with working | bystander
    · have moved := working.line (line_cases inner)
      exact .inl ⟨moved.loaded, moved.known, moved.gathered⟩
    · exact (bystander.no_line inner).elim
  | write t event ok busy pending =>
    obtain ⟨run, -⟩ := pending_event pending
    have own := pending_backed (inv.turn t busy) (inv.formed.turn t busy) pending
    refine ⟨formed, backed_append inv.backed (run ▸ own), ?_⟩
    rintro _ ⟨⟩
    rcases inv.turn t busy with working | bystander
    · refine .inl (working.write pending mem_grown ?_)
      rintro rfl
      exact own
    · exact .inr (bystander.write ok)
  | post t key text outcome busy pending =>
    refine ⟨formed, inv.backed, ?_⟩
    rintro _ ⟨⟩
    rcases inv.turn t busy with working | bystander
    · exact .inl (working.post outcome rfl)
    · cases pending.symm.trans (bystander.idle (c := c)).2.2.2
  | callSend t t' text busy inner =>
    refine ⟨formed, inv.backed, ?_⟩
    rintro _ ⟨⟩
    have aside := callSend_aside inner
    rcases inv.turn t busy with working | bystander
    · exact .inl (working.aside aside fun _ same => same)
    · exact .inr (bystander.aside aside)
  | writeSend t i send event ok busy found pending =>
    obtain ⟨run, -, none⟩ := sendPending_event pending
    refine ⟨formed, backed_append inv.backed (none ▸ backed_nil), ?_⟩
    rintro _ ⟨⟩
    rcases inv.turn t busy with working | bystander
    · exact .inl (working.aside (setSend_aside i send _) mem_grown)
    · exact .inr (bystander.aside (setSend_aside i send _))
  | postSend t i send outcome busy found posting | dropSend t i send busy found running =>
    refine ⟨formed, inv.backed, ?_⟩
    rintro _ ⟨⟩
    rcases inv.turn t busy with working | bystander
    · exact .inl (working.aside (setSend_aside i send _) fun _ same => same)
    · exact .inr (bystander.aside (setSend_aside i send _))
  | ends t normal busy =>
    refine ⟨formed, inv.backed, ?_⟩
    rintro _ ⟨⟩

end Steps

theorem grounded_of_reachable {c : FlowConfig} {w : World} (reached : (room c).Reachable w) : Grounded w := by
  refine reached.invariant ?_ fun w event w' inv stepped => inv.step stepped
  rintro w rfl
  refine ⟨⟨by simp, ?_⟩, by simp, ?_⟩ <;> rintro _ ⟨⟩

/-! ## What the turn wrote -/

/-- The turn's line may still come to side effect `key`. -/
def Phase.ahead : Phase → SideEffectKey → Bool
  | .flow, .subcrew _ | .replying _, .subcrew _ => false
  | .flow, _ | .replying _, _ => true
  | .finalizing _, .final | .final _ .reserve, .final => true
  | .delegating items _, .delegate id => id ∈ items.map DelegateItem.delegationId
  | .delegation item _ rest _ .reserve, .delegate id =>
    id ∈ (item :: rest).map DelegateItem.delegationId
  | .delegation _ _ rest _ _, .delegate id => id ∈ rest.map DelegateItem.delegationId
  | _, _ => false

/-- The turn will not come to side effect `key` any more. -/
def Turn.Past (t : Turn) (key : SideEffectKey) : Prop :=
  t.phase.ahead key = false ∧ ∀ n, key = .subcrew n → n ≤ t.subcrewCounter

/-- The log is the one the turn loaded and what the turn wrote since. -/
structure Turn.Grew (w : World) (t : Turn) : Prop where
  log : ∃ new, w.log = t.history ++ new ∧ ∀ e ∈ new, e.run = t.run ∧ e.author = t.message.id ∧
    ∀ key, e.content = .reserve key → t.Past key
  numbered : ∀ send ∈ t.sends, send.n ≤ t.subcrewCounter

section Ahead

variable {c : FlowConfig} {w : World} {t t' : Turn} {key : SideEffectKey}

/-- Only the tools come to sub-Crew sends. -/
theorem ahead_subcrew (phase : Phase) (n : Nat) : phase.ahead (.subcrew n) = false := by
  cases phase with
  | final text leg | delegation item target rest accumulated leg => cases leg <;> rfl
  | _ => rfl

theorem ahead_flow {phase : Phase} (ahead : phase.ahead key = true) : Phase.flow.ahead key = true := by
  cases key with
  | subcrew n => rw [ahead_subcrew] at ahead; cases ahead
  | _ => rfl

theorem Turn.Line.ahead (line : t.Line c t') (ahead : t'.phase.ahead key = true) :
    t.phase.ahead key = true := by
  cases line with
  | finish | record | mark => cases ahead
  | finalize text flow | delegate items flow =>
    rw [flow]
    exact ahead_flow ahead
  | reserveFinal text at_ =>
    rw [at_]
    cases key <;> first | rfl | cases ahead
  | reserve item target rest accumulated at_ =>
    rw [at_]
    cases key <;> exact ahead
  | next item rest accumulated at_ =>
    rw [at_]
    cases key with
    | delegate id =>
      simp only [Phase.ahead, decide_eq_true_eq, map_cons] at ahead ⊢
      exact mem_cons_of_mem _ ahead
    | _ => cases ahead

theorem ahead_written {ok : Bool} (line : t.Written ok t') (ahead : t'.phase.ahead key = true) :
    t.phase.ahead key = true := by
  cases line with
  | stop | mark => cases ahead
  | reply at_ =>
    rw [at_]
    cases key <;> exact ahead
  | final at_ => cases ahead
  | next at_ =>
    rw [at_]
    cases key <;> exact ahead
  | delegation at_ =>
    rw [at_]
    cases key with
    | delegate id =>
      simp only [Phase.ahead, decide_eq_true_eq, map_cons] at ahead ⊢
      exact mem_cons_of_mem _ ahead
    | _ => cases ahead

theorem ahead_afterPost {outcome : PostOutcome}
    (ahead : (t.afterPost outcome).phase.ahead key = true) : t.phase.ahead key = true := by
  unfold afterPost at ahead
  split at ahead
  next => cases ahead
  next => cases ahead
  next at_ =>
    rw [at_]
    cases key <;> exact ahead
  next => cases ahead
  next => exact ahead

/-- Once its reservation is written, a side effect is behind. -/
theorem ahead_reserved {event : TaskEvent} (guard : t.Guard c w)
    (pending : t.pending = some event) (content : event.content = .reserve key) :
    (t.afterWrite true).phase.ahead key = false := by
  have line := written pending true
  generalize t.afterWrite true = t' at line ⊢
  cases line with
  | stop | final => cases key <;> rfl
  | reply at_ =>
    simp only [Turn.pending, at_] at pending
    cases pending
    cases content
  | delegation at_ =>
    simp only [Turn.pending, at_] at pending
    cases pending
    cases content
    unfold Turn.Guard at guard
    rw [at_] at guard
    simpa [Phase.ahead] using (nodup_cons.1 guard.1).1
  | next at_ =>
    simp only [Turn.pending, at_] at pending
    cases pending
    cases content

/-- The turn is still the same one, on the same log, and called no tool. -/
structure Turn.Steady (t t' : Turn) : Prop where
  message : t'.message = t.message
  history : t'.history = t.history
  run : t'.run = t.run
  sends : t'.sends = t.sends
  counter : t'.subcrewCounter = t.subcrewCounter

theorem Turn.Moved.steady (moved : Turn.Moved t t') : t.Steady t' :=
  ⟨moved.message, moved.history, moved.run, moved.sends, moved.counter⟩

theorem Turn.Written.steady {ok : Bool} (line : t.Written ok t') : t.Steady t' := by
  cases line <;> exact ⟨rfl, rfl, rfl, rfl, rfl⟩

section

variable (grew : t.Grew w)
include grew

/-- The turn moved on and wrote nothing. -/
theorem Turn.Grew.moved {w' : World} (steady : t.Steady t') (log : w'.log = w.log)
    (ahead : ∀ key, t'.phase.ahead key = true → t.phase.ahead key = true) : t'.Grew w' := by
  obtain ⟨⟨new, grown, own⟩, numbered⟩ := grew
  refine ⟨⟨new, by rw [log, steady.history, grown], fun e inside => ?_⟩, ?_⟩
  · obtain ⟨run, author, past⟩ := own e inside
    refine ⟨by rw [steady.run, run], by rw [steady.message, author], fun key content => ⟨?_, ?_⟩⟩
    · have behind := (past key content).1
      cases at_ : t'.phase.ahead key with
      | false => rfl
      | true => rw [ahead key at_] at behind; cases behind
    · rw [steady.counter]
      exact (past key content).2
  · rw [steady.sends, steady.counter]
    exact numbered

theorem Turn.Grew.append {w' : World} {event : TaskEvent} (log : w'.log = w.log ++ [event]) (run : event.run = t.run)
    (author : event.author = t.message.id) (past : ∀ key, event.content = .reserve key → t.Past key) :
    t.Grew w' := by
  obtain ⟨⟨new, grown, own⟩, numbered⟩ := grew
  refine ⟨⟨new ++ [event], by rw [log, grown, append_assoc], fun e inside => ?_⟩, numbered⟩
  rcases mem_concat inside with old | rfl
  · exact own e old
  · exact ⟨run, author, past⟩

/-- A tool moved. -/
theorem Turn.Grew.aside {w' : World} (aside : Turn.Aside t t')
    (log : w'.log = w.log) (counter : t.subcrewCounter ≤ t'.subcrewCounter)
    (numbered : ∀ send ∈ t'.sends, send.n ≤ t'.subcrewCounter) : t'.Grew w' := by
  obtain ⟨⟨new, grown, own⟩, -⟩ := grew
  refine ⟨⟨new, by rw [log, aside.history, grown], fun e inside => ?_⟩, numbered⟩
  obtain ⟨run, author, past⟩ := own e inside
  refine ⟨by rw [aside.run, run], by rw [aside.message, author], fun key content => ⟨?_, ?_⟩⟩
  · rw [aside.phase]
    exact (past key content).1
  · exact fun n same => le_trans ((past key content).2 n same) counter

theorem numbered_setSend {i : Nat} {send : Send} (found : t.sends[i]? = some send)
    (phase : SendPhase) : ∀ s ∈ (t.setSend i send phase).sends,
      s.n ≤ (t.setSend i send phase).subcrewCounter := by
  intro s inside
  rcases mem_or_eq_of_mem_set inside with old | rfl
  · exact grew.numbered s old
  · exact grew.numbered send (mem_of_getElem? found)

theorem numbered_callSend {text : String} (called : t.callSend text = some t') :
    t'.subcrewCounter = t.subcrewCounter + 1 ∧ ∀ s ∈ t'.sends, s.n ≤ t'.subcrewCounter := by
  have later : ∀ {s : Send} {phase : SendPhase},
      s ∈ t.sends ++ [⟨t.subcrewCounter + 1, text, phase⟩] → s.n ≤ t.subcrewCounter + 1 := by
    intro s phase inside
    rcases mem_concat inside with old | rfl
    · exact le_trans (grew.numbered s old) (Nat.le_succ _)
    · exact le_refl _
  unfold callSend at called
  dsimp only at called
  obtain ⟨-, called⟩ := of_passed called
  split at called
  · split at called <;> cases called <;> exact ⟨rfl, fun s => later⟩
  · cases called
    exact ⟨rfl, fun s => later⟩

end

end Ahead

theorem grew_step {c : FlowConfig} {w w' : World} {event : World.RoomEvent}
    (reached : (room c).Reachable w) (inv : ∀ t, w.turn = some t → t.Grew w)
    (stepped : w.step c event = some w') : ∀ t, w'.turn = some t → t.Grew w' := by
  cases step_act stepped with
  | pass m idle =>
    intro t busy
    cases busy.symm.trans idle
  | begin t idle fresh =>
    rintro _ ⟨⟩
    refine ⟨⟨[], by simp [World.begin, fresh.history], by simp⟩, ?_⟩
    rw [fresh.sends]
    simp
  | line t t' busy inner =>
    rintro _ ⟨⟩
    have line := line_cases inner
    exact (inv t busy).moved line.moved.steady rfl fun key => line.ahead
  | write t event ok busy pending =>
    rintro _ ⟨⟩
    have line := written pending ok
    have steady := line.steady
    have moved : (t.afterWrite ok).Grew w := (inv t busy).moved steady rfl fun key => ahead_written line
    cases ok with
    | false => exact ⟨moved.log, moved.numbered⟩
    | true =>
      obtain ⟨run, author⟩ := pending_event pending
      refine moved.append rfl (run.trans steady.run.symm)
        (author.trans (by rw [steady.message])) fun key content => ⟨?_, ?_⟩
      · exact ahead_reserved ((delegated_of_reachable reached).guard t busy) pending content
      rintro n rfl
      have plain := (wellFormed_of_reachable reached).turn t busy
      have kept := (pending_formed plain pending).2
      rw [content] at kept
      simp [Content.closes, Content.finalKey] at kept
  | post t key text outcome busy pending =>
    rintro _ ⟨⟩
    exact (inv t busy).moved (afterPost_moved outcome).steady rfl fun key => ahead_afterPost
  | callSend t t' text busy inner =>
    rintro _ ⟨⟩
    obtain ⟨counter, numbered⟩ := numbered_callSend (inv t busy) inner
    exact (inv t busy).aside (callSend_aside inner) rfl (by omega) numbered
  | writeSend t i send event ok busy found pending =>
    rintro _ ⟨⟩
    have moved : (t.setSend i send (sendAfterWrite send.phase ok)).Grew w :=
      (inv t busy).aside (setSend_aside i send _) rfl (le_refl _)
        (numbered_setSend (inv t busy) found _)
    cases ok with
    | false => exact ⟨moved.log, moved.numbered⟩
    | true =>
      obtain ⟨run, author, -⟩ := sendPending_event pending
      refine moved.append rfl run author fun key content => ?_
      have reserved : key = .subcrew send.n := by
        unfold sendPending at pending
        split at pending <;> cases pending <;> cases content
        rfl
      rw [reserved]
      refine ⟨ahead_subcrew _ _, ?_⟩
      rintro n ⟨⟩
      exact (inv t busy).numbered send (mem_of_getElem? found)
  | postSend t i send outcome busy found posting | dropSend t i send busy found running =>
    rintro _ ⟨⟩
    exact (inv t busy).aside (setSend_aside i send _) rfl (le_refl _)
      (numbered_setSend (inv t busy) found _)
  | ends t normal busy =>
    rintro _ ⟨⟩

theorem grew_of_reachable {c : FlowConfig} {w : World} (reached : (room c).Reachable w) {t : Turn}
    (busy : w.turn = some t) : t.Grew w := by
  refine Machine.Reachable.invariant_reachable (P := fun w => ∀ t, w.turn = some t → t.Grew w)
    reached ?_ (fun w event w' reached inv stepped => grew_step reached inv stepped) t busy
  rintro w rfl t ⟨⟩

end BandSdk.CrewFlow

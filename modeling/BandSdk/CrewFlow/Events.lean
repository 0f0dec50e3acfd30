/-
# CrewFlow.Events -- the task events a room can hold

Which fields of a payload an event sets is fixed by what the event is (`Formed`),
and a turn works on one run, from one loaded log (`Loaded`).  Both hold in every
reachable room; the results about side effects start from them.
-/
import BandSdk.CrewFlow.Record

namespace BandSdk.CrewFlow

open BandSdk.Theory List Option Turn World

/-! ## What a step leaves alone -/

namespace Turn

/-- The turn's line moved; its run, its log and its tools are what they were. -/
structure Moved (t t' : Turn) : Prop where
  message : t'.message = t.message
  history : t'.history = t.history
  run : t'.run = t.run
  record : t'.record = t.record
  tools : t'.tools = t.tools
  sends : t'.sends = t.sends
  counter : t'.subcrewCounter = t.subcrewCounter

/-- A tool moved; the turn's line is where it was. -/
structure Aside (t t' : Turn) : Prop where
  message : t'.message = t.message
  history : t'.history = t.history
  run : t'.run = t.run
  record : t'.record = t.record
  tools : t'.tools = t.tools
  phase : t'.phase = t.phase
  rounds : t'.delegationRounds = t.delegationRounds

variable {c : FlowConfig} {t t' : Turn}

theorem mark_moved (key : SideEffectKey) : Moved t (t.mark key) :=
  ⟨rfl, rfl, rfl, rfl, rfl, rfl, rfl⟩

theorem phase_moved (phase : Phase) : Moved t { t with phase := phase } :=
  ⟨rfl, rfl, rfl, rfl, rfl, rfl, rfl⟩

theorem afterPost_moved (outcome : PostOutcome) : Moved t (t.afterPost outcome) := by
  unfold afterPost
  split
  next => exact phase_moved _
  next => exact mark_moved _
  next => exact phase_moved _
  next => exact mark_moved _
  next => exact phase_moved t.phase

theorem callSend_aside {text : String} (stepped : t.callSend text = some t') : Aside t t' := by
  unfold callSend at stepped
  dsimp only at stepped
  obtain ⟨-, stepped⟩ := of_passed stepped
  split at stepped
  · split at stepped <;> cases stepped <;> exact ⟨rfl, rfl, rfl, rfl, rfl, rfl, rfl⟩
  · cases stepped; exact ⟨rfl, rfl, rfl, rfl, rfl, rfl, rfl⟩

theorem setSend_aside (i : Nat) (send : Send) (phase : SendPhase) :
    Aside t (t.setSend i send phase) :=
  ⟨rfl, rfl, rfl, rfl, rfl, rfl, rfl⟩

end Turn

/-! ## The form of an event -/

/-- The final key an event writes. -/
def Content.finalKey : Content → Option SideEffectKey
  | .reserve .final => some .final
  | .reserve (.subcrew n) => some (.subcrew n)
  | .finalized key | .indeterminate key | .subcrewSent key => some key
  | _ => none

/-- The side effect an event writes into `side_effects`. -/
def Content.effect : Content → Option SideEffectKey
  | .reserve (.subcrew n) => some (.subcrew n)
  | .subcrewSent key => some key
  | _ => none

def Content.closes : Content → Bool
  | .failed _ | .finalized _ | .indeterminate _ => true
  | _ => false

/-- The events that may carry the id of a posted message. -/
def Content.confirms : Content → Option SideEffectKey
  | .finalized key | .delegated key | .subcrewSent key => some key
  | _ => none

/-- What an event is fixes the fields its payload sets. -/
structure Formed (content : Content) (payload : Metadata) : Prop where
  closes : payload.isTerminal = content.closes
  finalKey : payload.finalSideEffectKey = content.finalKey
  effects : payload.sideEffects =
    (content.effect.map fun key => SideEffect.mk key payload.finalMessageId).toList
  message : payload.finalMessageId.isSome = true →
    content.confirms.isSome = true ∧ content.confirms = content.finalKey
  entry : ∀ id, content = .reserve (.delegate id) → ∃ d ∈ payload.delegations, d.delegationId = id
  subcrew : ∀ key, content = .subcrewSent key → ∃ n, key = .subcrew n
  finalized : ∀ key, content = .finalized key → key = .final

/-- A task event that only records where the run stands. -/
structure Plain (content : Content) (payload : Metadata) : Prop where
  formed : Formed content payload
  finalKey : content.finalKey = none
  delegations : payload.delegations = []

section Forms

variable {t : Turn}

theorem failure_plain (code : String) :
    Plain (.failed code) { t.envelope .failed .failed with error := some code } := by
  refine ⟨⟨rfl, rfl, rfl, ?_, ?_, ?_, ?_⟩, rfl, rfl⟩ <;> simp [envelope]

theorem waiting_plain : Plain .waiting (t.envelope .waiting .waitingForReplies) := by
  refine ⟨⟨rfl, rfl, rfl, ?_, ?_, ?_, ?_⟩, rfl, rfl⟩ <;> simp [envelope]

theorem ambiguous_plain : Plain .replyAmbiguous (t.envelope .replyAmbiguous .waitingForReplies) := by
  refine ⟨⟨rfl, rfl, rfl, ?_, ?_, ?_, ?_⟩, rfl, rfl⟩ <;> simp [envelope]

theorem buffered_plain (source : MessageId) (syntheses : List BufferedSynthesis) :
    Plain (.buffered source)
      { t.envelope .waiting .waitingForReplies with bufferedSyntheses := syntheses } := by
  refine ⟨⟨rfl, rfl, rfl, ?_, ?_, ?_, ?_⟩, rfl, rfl⟩ <;> simp [envelope]

end Forms

/-! ## The turn's line -/

namespace Turn

/-- Where the turn's line goes without a call. -/
inductive Line (c : FlowConfig) (t : Turn) : Turn → Prop
  | finish (raised : Bool) : Line c t { t with phase := .finished raised }
  | record (rounds : Nat) (batch : List DelegateItem) {content : Content} {payload : Metadata} (safe : Bool)
      (plain : Plain content payload) (other : ∀ id, content ≠ .replyRecorded id) :
      Line c t { t with
        delegationRounds := rounds, batch := batch, phase := .recording content payload safe }
  | finalize (text : String) (flow : t.phase = .flow) : Line c t { t with phase := .finalizing text }
  | delegate (items : List DelegateItem) (flow : t.phase = .flow)
      (apart : (items.map DelegateItem.delegationId).Nodup)
      (within : (t.record.map Metadata.delegationRounds).getD 0 < c.maxDelegationRounds) :
      Line c t { t with
        delegationRounds := (t.record.map Metadata.delegationRounds).getD 0 + 1
        batch := items, phase := .delegating items t.delegations }
  | reserveFinal (text : String) (at_ : t.phase = .finalizing text)
      (unreserved : ∀ m, t.record = some m → m.finalSideEffectKey ≠ some .final) :
      Line c t { t with phase := .final text .reserve }
  | mark (key : SideEffectKey) : Line c t (t.mark key)
  | next (item : DelegateItem) (rest : List DelegateItem) (accumulated : List Delegation)
      (at_ : t.phase = .delegating (item :: rest) accumulated) :
      Line c t { t with phase := .delegating rest accumulated }
  | reserve (item : DelegateItem) (target : Participant) (rest : List DelegateItem)
      (accumulated : List Delegation) (at_ : t.phase = .delegating (item :: rest) accumulated)
      (unknown : ∀ d ∈ t.delegations, d.delegationId ≠ item.delegationId) :
      Line c t { t with phase := .delegation item target rest accumulated .reserve }

variable {c : FlowConfig} {t t' : Turn}

theorem failure_line (code : String) (safe : Bool) : Line c t (t.failure code safe) :=
  .record t.delegationRounds t.batch safe (failure_plain code) fun _ => Content.noConfusion

theorem handleMalformed_line (flow : t.phase = .flow) (text : Option String) :
    Line c t (t.handleMalformed c text) := by
  unfold handleMalformed
  split
  · split
    · exact .finalize _ flow
    · exact failure_line _ _
  · exact failure_line _ _

theorem handleResult_line (flow : t.phase = .flow) (result : FlowResult) :
    Line c t (t.handleResult c result) := by
  cases result with
  | streaming | failed code => exact failure_line _ _
  | malformed text => exact handleMalformed_line flow text
  | directResponse content => exact .finalize content flow
  | waiting => exact .record _ _ _ waiting_plain fun _ => Content.noConfusion
  | synthesize content =>
    dsimp only [handleResult]
    unfold handleSynthesize
    split
    · exact .finish true
    dsimp only
    split
    · exact .record _ _ _ (buffered_plain _ _) fun _ => Content.noConfusion
    · exact .finalize _ flow
  | delegate items =>
    dsimp only [handleResult]
    split
    next valid =>
      simp only [validItems, Bool.and_eq_true, decide_eq_true_eq] at valid
      unfold handleDelegate
      dsimp only
      split
      next => exact failure_line _ _
      next within =>
        split
        · exact .delegate items flow valid.2 (Nat.lt_of_not_le within)
        · exact .record _ items false (failure_plain _) fun _ => Content.noConfusion
    next => exact handleMalformed_line flow none

theorem proceed_line (proceeded : t.proceed = some t') : Line c t t' := by
  unfold proceed at proceeded
  split at proceeded
  next text at_ =>
    cases proceeded
    unfold executeDirectResponse
    split
    next none_ => exact .reserveFinal text at_ (by simp [none_])
    next existing found =>
      split
      · exact .finish false
      split
      · split
        · exact .finish false
        · exact .mark .final
      next unreserved => exact .reserveFinal text at_ (by simp [found, unreserved])
  next items accumulated at_ =>
    cases proceeded
    unfold nextDelegation
    split
    · exact .finish false
    rename_i item rest
    split
    · exact failure_line _ _
    split
    · split
      · exact .next item rest accumulated at_
      · exact .mark _
    next unknown =>
      exact .reserve item _ rest accumulated at_ (by simpa using List.find?_eq_none.1 unknown)
  next => cases proceeded

theorem line_cases (stepped : (∃ result, t.flowReturns c result = some t') ∨
    (∃ code, t.flowFails code = some t') ∨ t.proceed = some t') : Line c t t' := by
  rcases stepped with ⟨result, returned⟩ | ⟨code, failed⟩ | proceeded
  · unfold flowReturns at returned
    split at returned
    next flow =>
      cases returned
      split
      · exact .finish false
      · exact handleResult_line flow result
    next => cases returned
  · unfold flowFails at failed
    split at failed <;> cases failed
    exact failure_line _ _
  · exact proceed_line proceeded

theorem Line.moved (line : Line c t t') : Moved t t' := by
  cases line <;> exact ⟨rfl, rfl, rfl, rfl, rfl, rfl, rfl⟩

/-- The turn with its reply recorded. -/
def withReply (t : Turn) (id : DelegationId) : Turn :=
  { t with
    phase := .flow, tools := true
    record := t.record.map fun m => { m with
      status := .replyRecorded, stage := .waitingForReplies, delegations := t.repliedDelegations id } }

/-- Where the turn's line goes after its task event, written or not. -/
inductive Written (t : Turn) : Bool → Turn → Prop
  | stop (ok raised : Bool) : Written t ok { t with phase := .finished raised }
  | mark (key : SideEffectKey) : Written t false (t.mark key)
  | reply {id : DelegationId} (at_ : t.phase = .replying id) : Written t true (t.withReply id)
  | final {text : String} (at_ : t.phase = .final text .reserve) :
      Written t true { t with phase := .final text .post }
  | delegation {item : DelegateItem} {target : Participant} {rest : List DelegateItem}
      {accumulated : List Delegation} (at_ : t.phase = .delegation item target rest accumulated .reserve) :
      Written t true { t with phase := .delegation item target rest accumulated .post }
  | next {item : DelegateItem} {target : Participant} {rest : List DelegateItem}
      {accumulated : List Delegation} {messageId : Option MessageId}
      (at_ : t.phase = .delegation item target rest accumulated (.confirm messageId)) :
      Written t true { t with
        phase := .delegating rest (accumulated ++ [delegationEntry item target .pending messageId]) }

theorem written {event : TaskEvent} (pending : t.pending = some event) (ok : Bool) :
    Written t ok (t.afterWrite ok) := by
  unfold Turn.pending at pending
  unfold afterWrite
  split at pending
  next at_ => cases ok; exacts [.stop false true, .reply at_]
  next at_ => exact .stop ok _
  next at_ => cases ok; exacts [.stop false true, .final at_]
  next at_ => cases ok; exacts [.mark _, .stop true false]
  next at_ => cases ok; exacts [.stop false true, .delegation at_]
  next at_ => cases ok; exacts [.mark _, .next at_]
  next at_ => exact .stop ok false
  next => cases pending

end Turn

/-! ## A formed log -/

/-- The final keys the events of the run wrote, in order. -/
def finalKeys (log : List TaskEvent) (run : RunId) : List SideEffectKey :=
  log.filterMap fun event => if event.run = run then event.content.finalKey else none

section Logs

variable {log : List TaskEvent} {run : RunId} {m : Metadata} {event : TaskEvent}

theorem mem_finalKeys {key : SideEffectKey} :
    key ∈ finalKeys log run ↔ ∃ e ∈ log, e.run = run ∧ e.content.finalKey = some key := by
  simp [finalKeys, mem_filterMap]

theorem finalKeys_append (own : event.run = run) :
    finalKeys (log ++ [event]) run = finalKeys log run ++ event.content.finalKey.toList := by
  simp only [finalKeys, filterMap_append]
  cases key : event.content.finalKey <;> simp [own, key]

theorem finalKeys_append_other (other : event.run ≠ run) :
    finalKeys (log ++ [event]) run = finalKeys log run := by
  simp [finalKeys, other]

section

variable (formed : ∀ e ∈ log, Formed e.content e.payload) (found : recordOf log run = some m)
  (active : m.isTerminal = false)
include formed found active

theorem finalKey_recordOf : m.finalSideEffectKey = (finalKeys log run).getLast? := by
  revert formed
  refine open_induction (P := fun log m => (∀ e ∈ log, Formed e.content e.payload) →
    m.finalSideEffectKey = (finalKeys log run).getLast?) ?_ ?_ ?_ found active
  · intro log event absent own formed
    have before : finalKeys log run = [] := by
      refine eq_nil_iff_forall_not_mem.2 fun key inside => ?_
      obtain ⟨e, within, same, -⟩ := mem_finalKeys.1 inside
      exact recordOf_eq_none.1 absent e within same
    rw [finalKeys_append own, before, (formed event (by simp)).finalKey]
    cases event.content.finalKey <;> rfl
  · intro log event m _ ih own formed
    have before := ih fun e inside => formed e (mem_append_left _ inside)
    have shape : (merge m event.payload).finalSideEffectKey =
        event.payload.finalSideEffectKey.or m.finalSideEffectKey := rfl
    rw [finalKeys_append own, shape, (formed event (by simp)).finalKey, before, getLast?_append]
    cases event.content.finalKey <;> rfl
  · intro log event m ih other formed
    rw [finalKeys_append_other other]
    exact ih fun e inside => formed e (mem_append_left _ inside)

theorem closes_of_open (inside : event ∈ log) (own : event.run = run) : event.content.closes = false := by
  rw [← (formed event inside).closes]
  clear formed
  induction log using reverseRecOn generalizing m with
  | nil => cases inside
  | append_singleton log last ih =>
    by_cases same : last.run = run
    · rw [recordOf_append, if_pos same] at found
      cases found
      rcases mem_concat inside with old | rfl
      · rcases of_absorb_open active with ⟨absent, -⟩ | ⟨m, before, active', -⟩
        · exact absurd own (recordOf_eq_none.1 absent event old)
        · exact ih before active' old
      · cases closes : event.payload.isTerminal with
        | false => rfl
        | true => rw [absorb_isTerminal closes] at active; cases active
    · rw [recordOf_append_other same] at found
      rcases mem_concat inside with old | rfl
      · exact ih found active old
      · exact absurd own same

end

/-- Only its reservation writes the final key and leaves the run open. -/
theorem content_of_finalKey {content : Content} (key : content.finalKey = some .final)
    (open' : content.closes = false) (subcrew : ∀ key, content = .subcrewSent key → key ≠ .final) :
    content = .reserve .final := by
  cases content with
  | reserve k => cases k <;> cases key; rfl
  | finalized k | indeterminate k => cases open'
  | subcrewSent k =>
    cases key
    exact absurd rfl (subcrew _ rfl)
  | _ => cases key

end Logs

/-! ## What a step can do -/

/-- A turn that has just begun on the log of `w`. -/
structure Fresh (w : World) (t : Turn) : Prop where
  history : t.history = w.log
  sends : t.sends = []
  counter : t.subcrewCounter = 0
  start : (t.tools = false ∧ ∃ content payload safe, t.phase = .recording content payload safe ∧
      Plain content payload) ∨
    (t.record = recordOf w.log t.run ∧ (∀ m, t.record = some m → m.isTerminal = false) ∧
      (t.phase = .flow ∧ t.tools = true ∨ ∃ id, t.phase = .replying id ∧ t.tools = false))

section Steps

variable {c : FlowConfig} {w w' : World}

/-- One step of a room, by what it does to the log, the posts and the turn. -/
inductive Act (c : FlowConfig) (w : World) : World.RoomEvent → World → Prop
  | pass {step : World.RoomEvent} (m : Message) (idle : w.turn = none) : Act c w step (w.pass m)
  | begin {m : Message} {view : RoomView} {loaded : Bool} {aged : RunId → Bool} (t : Turn)
      (idle : w.turn = none) (fresh : Fresh w t) (own : t.message = m) :
      Act c w (.deliver m view loaded aged) (w.begin t)
  | line {step : World.RoomEvent} (t t' : Turn) (busy : w.turn = some t)
      (stepped : (∃ result, t.flowReturns c result = some t') ∨
        (∃ code, t.flowFails code = some t') ∨ t.proceed = some t') :
      Act c w step { w with turn := some t' }
  | write (t : Turn) (event : TaskEvent) (ok : Bool) (busy : w.turn = some t)
      (pending : t.pending = some event) :
      Act c w (.write ok) { w with
        log := if ok then w.log ++ [event] else w.log, turn := some (t.afterWrite ok) }
  | post (t : Turn) (key : SideEffectKey) (text : String) (outcome : PostOutcome)
      (busy : w.turn = some t) (pending : t.pendingPost c = some (key, text)) :
      Act c w (.post outcome) { w with
        posts := w.record t key text outcome, turn := some (t.afterPost outcome) }
  | callSend (t t' : Turn) (text : String) (busy : w.turn = some t)
      (stepped : t.callSend text = some t') : Act c w (.callSend text) { w with turn := some t' }
  | writeSend (t : Turn) (i : Nat) (send : Send) (event : TaskEvent) (ok : Bool)
      (busy : w.turn = some t) (found : t.sends[i]? = some send)
      (pending : t.sendPending send = some event) :
      Act c w (.writeSend i ok) { w with
        log := if ok then w.log ++ [event] else w.log
        turn := some (t.setSend i send (Turn.sendAfterWrite send.phase ok)) }
  | postSend (t : Turn) (i : Nat) (send : Send) (outcome : PostOutcome) (busy : w.turn = some t)
      (found : t.sends[i]? = some send) (posting : send.phase = .leg .post) :
      Act c w (.postSend i outcome) { w with
        posts := w.record t (.subcrew send.n) send.text outcome
        turn := some (t.setSend i send (Turn.sendAfterPost send.phase outcome)) }
  | dropSend (t : Turn) (i : Nat) (send : Send) (busy : w.turn = some t)
      (found : t.sends[i]? = some send) (running : send.phase.settled = false) :
      Act c w (.dropSend i) { w with turn := some (t.setSend i send .raised) }
  | ends {step : World.RoomEvent} (t : Turn) (normal : Bool) (busy : w.turn = some t) :
      Act c w step { w with turn := none, ended := w.ended ++ [⟨t.message.id, normal⟩] }

theorem route_act {loaded : Bool} (m : Message) (view : RoomView) (aged : RunId → Bool) (idle : w.turn = none) :
    Act c w (.deliver m view loaded aged) (w.route c m view (convert aged w.log)) := by
  unfold route
  split
  · exact .pass m idle
  rename_i active
  have active : (convert aged w.log).isTerminal m.id = false := by simpa using active
  split
  next run matched =>
    split
    next other found =>
      exact .begin _ idle ⟨rfl, rfl, rfl, .inl ⟨rfl, _, _, _, rfl, ambiguous_plain⟩⟩ rfl
    next => exact .pass m idle
  next run id other matched =>
    obtain ⟨inside, open'⟩ := matchReply_active matched
    refine .begin _ idle ⟨rfl, rfl, rfl, .inr ⟨?_, ?_, .inr ⟨id, rfl, rfl⟩⟩⟩ rfl
    · exact (recordOf_of_mem inside open').symm
    · rintro m ⟨⟩
      exact open'
  next =>
    split
    · exact .pass m idle
    refine .begin _ idle ⟨rfl, rfl, rfl, .inr ⟨get_convert active, ?_, .inl ⟨rfl, rfl⟩⟩⟩ rfl
    intro record found
    replace found : (convert aged w.log).get m.id = some record := found
    simpa [Runs.isTerminal, found] using active

theorem step_act {event : World.RoomEvent} (stepped : w.step c event = some w') : Act c w event w' := by
  cases event with
  | deliver m view loaded aged =>
    simp only [step, deliver] at stepped
    split at stepped
    · cases stepped
    rename_i idle
    split at stepped
    · cases stepped
      exact route_act m view aged idle
    · cases stepped
      exact .begin _ idle ⟨rfl, rfl, rfl, .inl ⟨rfl, _, _, _, rfl, failure_plain _⟩⟩ rfl
  | flowReturns result =>
    simp only [step, turnStep] at stepped
    split at stepped
    · cases stepped
    rename_i t busy
    obtain ⟨t', inner, rfl⟩ := map_eq_some_iff.1 stepped
    exact .line t t' busy (.inl ⟨result, inner⟩)
  | flowFails code =>
    simp only [step, turnStep] at stepped
    split at stepped
    · cases stepped
    rename_i t busy
    obtain ⟨t', inner, rfl⟩ := map_eq_some_iff.1 stepped
    exact .line t t' busy (.inr (.inl ⟨code, inner⟩))
  | proceed =>
    simp only [step, turnStep] at stepped
    split at stepped
    · cases stepped
    rename_i t busy
    obtain ⟨t', inner, rfl⟩ := map_eq_some_iff.1 stepped
    exact .line t t' busy (.inr (.inr inner))
  | callSend text =>
    simp only [step, turnStep] at stepped
    split at stepped
    · cases stepped
    rename_i t busy
    obtain ⟨t', inner, rfl⟩ := map_eq_some_iff.1 stepped
    exact .callSend t t' text busy inner
  | write ok =>
    simp only [step, write] at stepped
    split at stepped
    · cases stepped
    rename_i t busy
    obtain ⟨event, inner, rfl⟩ := map_eq_some_iff.1 stepped
    exact .write t event ok busy inner
  | post outcome =>
    simp only [step, post] at stepped
    split at stepped
    · cases stepped
    rename_i t busy
    obtain ⟨⟨key, text⟩, inner, rfl⟩ := map_eq_some_iff.1 stepped
    exact .post t key text outcome busy inner
  | writeSend i ok =>
    simp only [step, writeSend] at stepped
    split at stepped
    · cases stepped
    rename_i t busy
    split at stepped
    · cases stepped
    rename_i send found
    obtain ⟨event, inner, rfl⟩ := map_eq_some_iff.1 stepped
    exact .writeSend t i send event ok busy found inner
  | postSend i outcome =>
    simp only [step, postSend] at stepped
    split at stepped
    · cases stepped
    rename_i t busy
    split at stepped
    next n text found =>
      cases stepped
      exact .postSend t i ⟨n, text, .leg .post⟩ outcome busy found rfl
    · cases stepped
  | dropSend i =>
    simp only [step, dropSend] at stepped
    split at stepped
    · cases stepped
    rename_i t busy
    split at stepped
    · cases stepped
    rename_i send found
    split at stepped
    · cases stepped
    rename_i running
    cases stepped
    exact .dropSend t i send busy found (by simpa using running)
  | close =>
    simp only [step, close] at stepped
    split at stepped
    · cases stepped
    rename_i t busy
    split at stepped
    next raised _ =>
      split at stepped
      · cases stepped
        exact .ends t (!raised) busy
      · cases stepped
    · cases stepped
  | crash =>
    simp only [step, crash] at stepped
    split at stepped
    · cases stepped
    rename_i t busy
    cases stepped
    exact .ends t false busy

end Steps

/-! ## Every event is formed -/

def Phase.isRecording : Phase → Bool
  | .recording _ _ _ => true
  | _ => false

/-- A last task event of a turn's line is a plain one. -/
def Turn.RecordsPlain (t : Turn) : Prop :=
  ∀ content payload safe, t.phase = .recording content payload safe → Plain content payload

section WellFormed

variable {c : FlowConfig} {w w' : World} {t t' : Turn}

theorem recordsPlain_of (other : t.phase.isRecording = false) : t.RecordsPlain := by
  intro content payload safe recording
  rw [recording] at other
  cases other

theorem Turn.Line.recordsPlain (line : t.Line c t') : t'.RecordsPlain := by
  cases line with
  | record rounds batch safe plain other =>
    rintro _ _ _ ⟨⟩
    exact plain
  | _ => exact recordsPlain_of rfl

theorem Turn.Written.recordsPlain {ok : Bool} (line : t.Written ok t') : t'.RecordsPlain := by
  cases line <;> exact recordsPlain_of rfl

theorem afterPost_recordsPlain {message : SideEffectKey × String}
    (pending : t.pendingPost c = some message) (outcome : PostOutcome) :
    (t.afterPost outcome).RecordsPlain := by
  unfold pendingPost at pending
  refine recordsPlain_of ?_
  unfold afterPost
  split at pending
  next at_ => rw [at_]; cases outcome <;> rfl
  next at_ => rw [at_]; cases outcome <;> rfl
  next => cases pending

/-- An event of the turn's line is formed, and touches the final key only to reserve
or close it. -/
theorem pending_formed {event : TaskEvent} (plain : t.RecordsPlain)
    (pending : t.pending = some event) : Formed event.content event.payload ∧
      (event.content.closes = true ∨ event.content.finalKey = none ∨ event.content.finalKey = some .final) := by
  unfold Turn.pending at pending
  split at pending
  next => cases pending; exact ⟨⟨rfl, rfl, rfl, by simp [Turn.event, Turn.envelope],
    by simp [event], by simp [event], by simp [event]⟩, .inr (.inl rfl)⟩
  next at_ =>
    cases pending
    have recorded := plain _ _ _ at_
    exact ⟨recorded.formed, .inr (.inl recorded.finalKey)⟩
  next => cases pending; exact ⟨⟨rfl, rfl, rfl, by simp [event, envelope],
    by simp [event], by simp [event], by simp [event]⟩, .inr (.inr rfl)⟩
  next => cases pending; exact ⟨⟨rfl, rfl, rfl, fun _ => ⟨rfl, rfl⟩,
    by simp [event], by simp [event], by simp [event]⟩, .inl rfl⟩
  next => cases pending; exact ⟨⟨rfl, rfl, rfl, by simp [event, envelope],
    by simp [event, delegationEntry], by simp [event], by simp [event]⟩, .inr (.inl rfl)⟩
  next => cases pending; exact ⟨⟨rfl, rfl, rfl, by simp [event, envelope],
    by simp [event], by simp [event], by simp [event]⟩, .inr (.inl rfl)⟩
  next => cases pending; exact ⟨⟨rfl, rfl, rfl, by simp [event, envelope],
    by simp [event], by simp [event], by simp [event]⟩, .inl rfl⟩
  next => cases pending

theorem sendPending_formed {send : Send} {event : TaskEvent}
    (pending : t.sendPending send = some event) : Formed event.content event.payload := by
  unfold sendPending at pending
  split at pending
  next => cases pending; exact ⟨rfl, rfl, rfl, by simp [event, subcrewEnvelope],
    by simp [event], by simp [event], by simp [event]⟩
  next => cases pending; exact ⟨rfl, rfl, rfl, fun _ => ⟨rfl, rfl⟩,
    by simp [event], by simp [event], by simp [event]⟩
  next => cases pending; exact ⟨rfl, rfl, rfl, by simp [event, envelope],
    by simp [event], by simp [event], by simp [event]⟩
  next => cases pending

structure WellFormed (w : World) : Prop where
  log : ∀ event ∈ w.log, Formed event.content event.payload
  turn : ∀ t, w.turn = some t → t.RecordsPlain

theorem formed_append {event : TaskEvent} {ok : Bool}
    (log : ∀ event ∈ w.log, Formed event.content event.payload) (formed : Formed event.content event.payload) :
    ∀ e ∈ (if ok then w.log ++ [event] else w.log), Formed e.content e.payload := by
  intro e inside
  cases ok with
  | false => exact log e inside
  | true =>
    rcases mem_concat inside with old | rfl
    · exact log e old
    · exact formed

theorem Turn.RecordsPlain.aside (plain : t.RecordsPlain) (aside : t.Aside t') : t'.RecordsPlain := by
  intro content payload safe at_
  exact plain content payload safe (aside.phase ▸ at_)

theorem WellFormed.step {event : World.RoomEvent} (inv : WellFormed w)
    (stepped : w.step c event = some w') : WellFormed w' := by
  cases step_act stepped with
  | pass m idle => exact ⟨inv.log, fun t busy => by cases busy.symm.trans idle⟩
  | begin t idle fresh =>
    refine ⟨inv.log, ?_⟩
    rintro _ ⟨⟩
    rcases fresh.start with ⟨-, content, payload, safe, phase, plain⟩ | ⟨-, -, phase⟩
    · intro content' payload' safe' at_
      cases phase.symm.trans at_
      exact plain
    · rcases phase with ⟨flow, -⟩ | ⟨id, replying, -⟩
      · exact recordsPlain_of (by rw [flow]; rfl)
      · exact recordsPlain_of (by rw [replying]; rfl)
  | line t t' busy inner =>
    refine ⟨inv.log, ?_⟩
    rintro _ ⟨⟩
    exact (line_cases inner).recordsPlain
  | write t event ok busy pending =>
    refine ⟨formed_append inv.log (pending_formed (inv.turn t busy) pending).1, ?_⟩
    rintro _ ⟨⟩
    exact (written pending ok).recordsPlain
  | post t key text outcome busy pending =>
    refine ⟨inv.log, ?_⟩
    rintro _ ⟨⟩
    exact afterPost_recordsPlain pending outcome
  | callSend t t' text busy inner =>
    refine ⟨inv.log, ?_⟩
    rintro _ ⟨⟩
    exact (inv.turn t busy).aside (callSend_aside inner)
  | writeSend t i send event ok busy found pending =>
    refine ⟨formed_append inv.log (sendPending_formed pending), ?_⟩
    rintro _ ⟨⟩
    exact (inv.turn t busy).aside (setSend_aside i send _)
  | postSend t i send outcome busy found posting | dropSend t i send busy found running =>
    refine ⟨inv.log, ?_⟩
    rintro _ ⟨⟩
    exact (inv.turn t busy).aside (setSend_aside i send _)
  | ends t normal busy =>
    refine ⟨inv.log, ?_⟩
    rintro _ ⟨⟩

theorem wellFormed_of_reachable (reached : (room c).Reachable w) : WellFormed w := by
  refine reached.invariant ?_ fun w event w' inv stepped => inv.step stepped
  rintro w rfl
  refine ⟨by simp, ?_⟩
  rintro _ ⟨⟩

end WellFormed

/-! ## A small room -/

def smallConfig : FlowConfig where
  joinPolicy := .all
  maxDelegationRounds := 4
  fallbackSend := false
  requireTaggedPeers := true
  sequentialChains := []
  acceptAgentInitiated := false
  refToken _ _ := "00000000"
  rounds_pos := by decide
  rounds_le := by decide

def peerView : RoomView where
  participants := [⟨"peer-id", "peer"⟩]
  normalize := some

/-- The user's request, message 1. -/
def request : Message := ⟨1, some "user", false, none, []⟩

/-- A peer's reply, message 9. -/
def reply : Message := ⟨9, some "peer", true, none, []⟩

def emptyRoom : World := ⟨[], [], none, 0, []⟩

def delivered (m : Message) : World.RoomEvent := .deliver m peerView true fun _ => false

def ask : FlowResult := .delegate [⟨7, "peer", "please look"⟩]

end BandSdk.CrewFlow

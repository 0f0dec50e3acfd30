/-
# CrewFlow.Turn -- one inbound message, from the log to the visible writes

`_process_one_turn` loads the log, picks the run the message belongs to, lets the
Flow run, and acts on what it returns.  Every visible write is reserved in the
log, posted and confirmed in the log (`SideEffectExecutor`), each of these a call
that may fail; a crash may come after any of them.

The turn's own line is `phase`; the Flow's sub-Crew tools run beside it, one
`Send` each, because a tool the Flow submitted may outlast the Flow.  What a turn
may do next is said by functions of the turn alone: `pending` is the task event
its line writes next and `afterWrite` what follows, `pendingPost` and `afterPost`
the same for a message, `proceed` the code between two calls.  The room's lock
makes the turns of a room follow one another.

A write is `_send_event` with its retries: it is in the log once when an attempt
succeeds and not at all otherwise.  `posts` and `ended` record what was posted and
how turns ended; no code reads them.

Left out: mentions, activity reports, and the failure notices `record_failed`
sends beside its task event.
-/
import BandSdk.CrewFlow.State
import BandSdk.Theory.Machine
import BandSdk.Theory.Text

namespace BandSdk.CrewFlow

open BandSdk.Theory

/-! ## What a turn is given -/

/-- The room as the turn sees it; `normalize` is `normalize_participant_key`, with
nothing for an identity two participants share. -/
structure RoomView where
  participants : List Participant
  normalize : String → Option PeerKey

/-- The adapter's configuration; `refToken` is the token of a side-effect key. -/
structure FlowConfig where
  joinPolicy : JoinPolicy
  maxDelegationRounds : Nat
  fallbackSend : Bool
  requireTaggedPeers : Bool
  sequentialChains : List (String × String)
  acceptAgentInitiated : Bool
  refToken : RunId → DelegationId → String
  rounds_pos : 1 ≤ maxDelegationRounds
  rounds_le : maxDelegationRounds ≤ 20

structure DelegateItem where
  delegationId : DelegationId
  target : String
  content : String
  deriving DecidableEq

/-- What the Flow returned, as `_handle_result` tells it apart. -/
inductive FlowResult where
  | streaming
  | malformed (text : Option String)
  | directResponse (content : String)
  | delegate (items : List DelegateItem)
  | waiting
  | synthesize (content : String)
  | failed (code : String)

/-! ## A turn -/

/-- Reserve, post, confirm. -/
inductive Leg where
  | reserve
  | post
  | confirm (messageId : Option MessageId)
  deriving DecidableEq

/-- Where the turn's own line is. -/
inductive Phase where
  /-- `record_reply`. -/
  | replying (id : DelegationId)
  /-- A last task event; `safe` when its failure is swallowed. -/
  | recording (content : Content) (payload : Metadata) (safe : Bool)
  | flow
  /-- `execute_direct_response`, before its idempotency check. -/
  | finalizing (text : String)
  | final (text : String) (leg : Leg)
  /-- The head of the loop of `execute_delegations`. -/
  | delegating (items : List DelegateItem) (accumulated : List Delegation)
  | delegation (item : DelegateItem) (target : Participant) (rest : List DelegateItem)
      (accumulated : List Delegation) (leg : Leg)
  /-- `_record_indeterminate`. -/
  | marking (key : SideEffectKey)
  | finished (raised : Bool)
  deriving DecidableEq

/-- A sub-Crew `send_message`; `swallowed` returned without posting. -/
inductive SendPhase where
  | leg (leg : Leg)
  | marking
  | swallowed
  | returned
  | raised
  deriving DecidableEq

structure Send where
  n : Nat
  text : String
  phase : SendPhase
  deriving DecidableEq

/-- A turn with its executor; `record` is the run's record in the loaded state and
`batch` the delegations the Flow decided on. -/
structure Turn where
  message : Message
  view : RoomView
  history : List TaskEvent
  run : RunId
  record : Option Metadata
  parentMessageId : MessageId
  joinPolicy : JoinPolicy
  taggedPeerKeys : List PeerKey
  delegationRounds : Nat
  subcrewCounter : Nat
  aborted : Bool
  /-- The Flow, with its tools, was started. -/
  tools : Bool
  batch : List DelegateItem
  phase : Phase
  sends : List Send

structure Post where
  run : RunId
  key : SideEffectKey
  text : String
  turn : Nat
  deriving DecidableEq

/-- `send_message` returns, with an id or without, or raises; it may raise although
the message was posted. -/
inductive PostOutcome where
  | posted (messageId : Option MessageId)
  | raised (landed : Bool)

def PostOutcome.landed : PostOutcome → Bool
  | .posted _ => true
  | .raised landed => landed

namespace Turn

variable (c : FlowConfig) (t : Turn)

/-! ## Task events -/

/-- `_envelope`. -/
def envelope (status : RunStatus) (stage : Stage) : Metadata where
  parentMessageId := t.parentMessageId
  status := status
  stage := stage
  joinPolicy := t.joinPolicy
  delegations := []
  bufferedSyntheses := []
  sideEffects := []
  taggedPeerKeys := t.taggedPeerKeys
  delegationRounds := t.delegationRounds
  finalSideEffectKey := none
  finalMessageId := none
  error := none

def event (content : Content) (payload : Metadata) : TaskEvent :=
  ⟨t.run, content, payload, t.message.id⟩

def delegations : List Delegation := (t.record.map Metadata.delegations).getD []

/-- The delegations with the reply recorded. -/
def repliedDelegations (id : DelegationId) : List Delegation :=
  t.delegations.map fun d =>
    if d.delegationId = id then { d with status := .replied, replyMessageId := some t.message.id }
    else d

def delegationEntry (item : DelegateItem) (target : Participant) (status : DelegationStatus)
    (messageId : Option MessageId) : Delegation :=
  ⟨item.delegationId, target, status, messageId, none⟩

/-- `record_failed`'s task event. -/
def failure (code : String) (safe : Bool) : Turn :=
  let payload := { t.envelope .failed .failed with error := some code }
  { t with phase := .recording (.failed code) payload safe }

def mark (key : SideEffectKey) : Turn := { t with aborted := true, phase := .marking key }

/-- The task event the turn's line writes next. -/
def pending : Option TaskEvent :=
  match t.phase with
  | .replying id => some (t.event (.replyRecorded id)
      { t.envelope .replyRecorded .waitingForReplies with delegations := t.repliedDelegations id })
  | .recording content payload _ => some (t.event content payload)
  | .final _ .reserve => some (t.event (.reserve .final)
      { t.envelope .sideEffectReserved .synthesizing with finalSideEffectKey := some .final })
  | .final _ (.confirm messageId) => some (t.event (.finalized .final)
      { t.envelope .finalized .done with
        finalSideEffectKey := some .final, finalMessageId := messageId })
  | .delegation item target _ accumulated .reserve =>
    some (t.event (.reserve (.delegate item.delegationId))
      { t.envelope .sideEffectReserved .delegated with
        delegations := accumulated ++ [delegationEntry item target .reserved none] })
  | .delegation item target _ accumulated (.confirm messageId) =>
    some (t.event (.delegated (.delegate item.delegationId))
      { t.envelope .delegatedPending .delegated with
        delegations := accumulated ++ [delegationEntry item target .pending messageId] })
  | .marking key => some (t.event (.indeterminate key)
      { t.envelope .indeterminate .indeterminate with finalSideEffectKey := some key })
  | _ => none

/-- The turn's line after that write succeeded, or failed for good. -/
def afterWrite (ok : Bool) : Turn :=
  match t.phase with
  | .replying id =>
    if ok then
      let update (m : Metadata) : Metadata :=
        { m with
          status := .replyRecorded, stage := .waitingForReplies
          delegations := t.repliedDelegations id }
      { t with phase := .flow, tools := true, record := t.record.map update }
    else { t with phase := .finished true }
  | .recording _ _ safe => { t with phase := .finished (!ok && !safe) }
  | .final text .reserve => { t with phase := if ok then .final text .post else .finished true }
  | .final _ (.confirm _) => if ok then { t with phase := .finished false } else t.mark .final
  | .delegation item target rest accumulated .reserve =>
    { t with
      phase := if ok then .delegation item target rest accumulated .post else .finished true }
  | .delegation item target rest accumulated (.confirm messageId) =>
    if ok then
      let sent := delegationEntry item target .pending messageId
      { t with phase := .delegating rest (accumulated ++ [sent]) }
    else t.mark (.delegate item.delegationId)
  | .marking _ => { t with phase := .finished false }
  | _ => t

/-! ## Messages -/

/-- Delegations already to this target, and to it in this batch. -/
def targetCount (key : PeerKey) : Nat :=
  t.delegations.countP (·.target.normalizedKey = key) + t.batch.countP (t.view.normalize ·.target = some key)

/-- The delegation's text, with a correlation token where its target has several. -/
def delegationText (item : DelegateItem) (target : Participant) : String :=
  if 1 < t.targetCount target.normalizedKey then
    "[ref:" ++ c.refToken t.run item.delegationId ++ "] " ++ item.content
  else item.content

/-- The message the turn's line posts next. -/
def pendingPost : Option (SideEffectKey × String) :=
  match t.phase with
  | .final text .post => some (.final, text)
  | .delegation item target _ _ .post =>
    some (.delegate item.delegationId, t.delegationText c item target)
  | _ => none

def afterPost (outcome : PostOutcome) : Turn :=
  match t.phase, outcome with
  | .final text .post, .posted messageId => { t with phase := .final text (.confirm messageId) }
  | .final _ .post, .raised _ => t.mark .final
  | .delegation item target rest accumulated .post, .posted messageId =>
    { t with phase := .delegation item target rest accumulated (.confirm messageId) }
  | .delegation item _ _ _ .post, .raised _ => t.mark (.delegate item.delegationId)
  | _, _ => t

/-! ## Between two calls -/

/-- `execute_direct_response`, up to its reservation. -/
def executeDirectResponse (text : String) : Turn :=
  match t.record with
  | none => { t with phase := .final text .reserve }
  | some existing =>
    if existing.status = .finalized then { t with phase := .finished false }
    else if existing.finalSideEffectKey = some .final then
      if existing.finalMessageId.isSome then { t with phase := .finished false }
      else t.mark .final
    else { t with phase := .final text .reserve }

/-- The loop of `execute_delegations`, for its next item, up to its reservation. -/
def nextDelegation (items : List DelegateItem) (accumulated : List Delegation) : Turn :=
  match items with
  | [] => { t with phase := .finished false }
  | item :: rest =>
    match t.view.participants.find? fun p => t.view.normalize item.target = some p.normalizedKey with
    | none => t.failure "unknown_participant" false
    | some target =>
      match t.delegations.find? (·.delegationId = item.delegationId) with
      | some already =>
        if already.delegationMessageId.isSome then
          { t with phase := .delegating rest accumulated }
        else t.mark (.delegate item.delegationId)
      | none => { t with phase := .delegation item target rest accumulated .reserve }

/-- The code of the turn's line between two calls. -/
def proceed : Option Turn :=
  match t.phase with
  | .finalizing text => some (t.executeDirectResponse text)
  | .delegating items accumulated => some (t.nextDelegation items accumulated)
  | _ => none

/-! ## What the Flow returned -/

/-- Delegated peers a final answer still waits for, by the sequential chains;
nothing when a configured name is ambiguous. -/
def sequentialBlocked : Option (List PeerKey) :=
  match t.record with
  | none => some []
  | some run =>
    let replied := (run.delegations.filter (·.status = .replied)).map (·.target.normalizedKey)
    let delegated := run.delegations.map (·.target.normalizedKey)
    (c.sequentialChains.mapM fun (chain : String × String) => do
      let upstream ← t.view.normalize chain.1
      let downstream ← t.view.normalize chain.2
      return if upstream ∈ replied ∧ downstream ∉ delegated then [downstream] else []).map
        List.flatten

/-- Tagged peers that have no delegation. -/
def taggedBlocked : List PeerKey :=
  if c.requireTaggedPeers then
    let tagged := (t.record.map Metadata.taggedPeerKeys).getD t.taggedPeerKeys
    tagged.filter fun key => key ∉ t.delegations.map (·.target.normalizedKey)
  else []

def joinSatisfied : Bool :=
  match t.record with
  | none => true
  | some run => match run.joinPolicy with
      | .first => run.delegations.any (·.status = .replied)
      | .all => !run.delegations.any (·.status = .pending)

/-- `_handle_synthesize`. -/
def handleSynthesize (content : String) : Turn :=
  match t.sequentialBlocked c with
  | none => { t with phase := .finished true }
  | some blocked =>
    if !t.joinSatisfied || t.taggedBlocked c ≠ [] || blocked ≠ [] then
      let payload := { t.envelope .waiting .waitingForReplies with
        bufferedSyntheses := [⟨t.message.id, content⟩] }
      { t with phase := .recording (.buffered t.message.id) payload false }
    else
      let buffered := "\n\n".intercalate
        (((t.record.map Metadata.bufferedSyntheses).getD []).map (·.content))
      let text := if buffered = "" then content else Text.strip (buffered ++ "\n\n" ++ content)
      { t with phase := .finalizing text }

/-- `_handle_malformed`. -/
def handleMalformed (text : Option String) : Turn :=
  match text with
  | some raw =>
    if c.fallbackSend && !t.delegations.any Delegation.isOpen then
      { t with phase := .finalizing raw }
    else t.failure "malformed_flow_output" true
  | none => t.failure "malformed_flow_output" true

/-- The delegate branch of `_handle_result`, up to the loop of
`execute_delegations`. -/
def handleDelegate (items : List DelegateItem) : Turn :=
  let rounds := (t.record.map Metadata.delegationRounds).getD 0
  if c.maxDelegationRounds ≤ rounds then t.failure "max_delegation_rounds_exceeded" false
  else
    let t := { t with delegationRounds := rounds + 1, batch := items }
    if items.all fun item => (t.view.normalize item.target).isSome then
      { t with phase := .delegating items t.delegations }
    else t.failure "ambiguous_participant" false

/-- `_validate_decision` of a delegate decision. -/
def validItems (items : List DelegateItem) : Bool :=
  items ≠ [] && decide (items.map DelegateItem.delegationId).Nodup

/-- `_handle_result`, after a Flow that no side effect aborted. -/
def handleResult (result : FlowResult) : Turn :=
  match result with
  | .streaming => t.failure "streaming_output_unsupported" true
  | .malformed text => t.handleMalformed c text
  | .directResponse content => { t with phase := .finalizing content }
  | .waiting => { t with phase := .recording .waiting (t.envelope .waiting .waitingForReplies) false }
  | .failed code => t.failure code false
  | .delegate items =>
    if validItems items then t.handleDelegate c items else t.handleMalformed c none
  | .synthesize content => t.handleSynthesize c content

/-- The Flow returns. -/
def flowReturns (result : FlowResult) : Option Turn :=
  match t.phase with
  | .flow => some (if t.aborted then { t with phase := .finished false } else t.handleResult c result)
  | _ => none

/-- The Flow cannot be built, or raises. -/
def flowFails (code : String) : Option Turn :=
  match t.phase with
  | .flow => some (t.failure code true)
  | _ => none

/-! ## Sub-Crew sends -/

/-- `_existing_side_effect`. -/
def existingSideEffect (key : SideEffectKey) : Option SideEffect :=
  match t.record with
  | none => none
  | some run =>
    match run.sideEffects.find? (·.key = key) with
    | some effect => some effect
    | none => if run.finalSideEffectKey = some key then some ⟨key, run.finalMessageId⟩ else none

/-- A tool may be called once the Flow runs, until the turn is over. -/
def takesTools : Bool :=
  match t.phase with
  | .finished _ => false
  | _ => t.tools

/-- `execute_send_message`, up to its first call. -/
def callSend (text : String) : Option Turn :=
  if t.takesTools then
    let n := t.subcrewCounter + 1
    let t := { t with subcrewCounter := n }
    match t.existingSideEffect (.subcrew n) with
    | some existing =>
      if existing.messageId.isSome then
        some { t with sends := t.sends ++ [⟨n, text, .swallowed⟩] }
      else some { t with aborted := true, sends := t.sends ++ [⟨n, text, .marking⟩] }
    | none => some { t with sends := t.sends ++ [⟨n, text, .leg .reserve⟩] }
  else none

/-- `_subcrew_envelope`. -/
def subcrewEnvelope (status : RunStatus) (stage : Stage) (key : SideEffectKey)
    (messageId : Option MessageId) : Metadata :=
  { t.envelope status stage with
    finalSideEffectKey := some key, sideEffects := [⟨key, messageId⟩], finalMessageId := messageId }

/-- The task event a send writes next. -/
def sendPending (send : Send) : Option TaskEvent :=
  match send.phase with
  | .leg .reserve => some (t.event (.reserve (.subcrew send.n))
      (t.subcrewEnvelope .sideEffectReserved .delegated (.subcrew send.n) none))
  | .leg (.confirm messageId) => some (t.event (.subcrewSent (.subcrew send.n))
      (t.subcrewEnvelope .waiting .waitingForReplies (.subcrew send.n) messageId))
  | .marking => some (t.event (.indeterminate (.subcrew send.n))
      { t.envelope .indeterminate .indeterminate with
        finalSideEffectKey := some (.subcrew send.n) })
  | _ => none

def sendAfterWrite (phase : SendPhase) (ok : Bool) : SendPhase :=
  match phase with
  | .leg .reserve => if ok then .leg .post else .raised
  | .leg (.confirm _) => if ok then .returned else .marking
  | .marking => .raised
  | phase => phase

def sendAfterPost (phase : SendPhase) (outcome : PostOutcome) : SendPhase :=
  match phase, outcome with
  | .leg .post, .posted messageId => .leg (.confirm messageId)
  | .leg .post, .raised _ => .marking
  | phase, _ => phase

/-- A send moves on; the turn is aborted when it turns to `_record_indeterminate`. -/
def setSend (i : Nat) (send : Send) (phase : SendPhase) : Turn :=
  { t with
    aborted := t.aborted || decide (phase = .marking)
    sends := t.sends.set i { send with phase := phase } }

end Turn

def SendPhase.settled : SendPhase → Bool
  | .swallowed | .returned | .raised => true
  | _ => false

/-! ## A room -/

/-- How a turn ended: `normal` when it neither raised nor crashed. -/
structure Ended where
  message : MessageId
  normal : Bool
  deriving DecidableEq

/-- A room: its log, its posts, and the turn that holds its lock. -/
structure World where
  log : List TaskEvent
  posts : List Post
  turn : Option Turn
  turns : Nat
  ended : List Ended

namespace World

variable (c : FlowConfig) (w : World)

/-- A turn that has not looked at the log yet. -/
def newTurn (m : Message) (view : RoomView) : Turn where
  message := m
  view := view
  history := w.log
  run := m.id
  record := none
  parentMessageId := m.id
  joinPolicy := c.joinPolicy
  taggedPeerKeys := []
  delegationRounds := 0
  subcrewCounter := 0
  aborted := false
  tools := false
  batch := []
  phase := .finished false
  sends := []

/-- The executor of another run, on that run's record. -/
def executorOf (t : Turn) (run : RunId) (record : Metadata) : Turn :=
  { t with
    run := run
    record := some record
    parentMessageId := record.parentMessageId
    joinPolicy := record.joinPolicy
    taggedPeerKeys := record.taggedPeerKeys
    delegationRounds := record.delegationRounds }

def begin (t : Turn) : World := { w with turn := some t, turns := w.turns + 1 }

/-- The turn ends without a call. -/
def pass (m : Message) : World :=
  { w with turns := w.turns + 1, ended := w.ended ++ [⟨m.id, true⟩] }

/-- `_process_one_turn`, up to its first call after the log was loaded. -/
def route (m : Message) (view : RoomView) (runs : Runs) : World :=
  if runs.isTerminal m.id then w.pass m
  else
    let record := runs.get m.id
    let own := { w.newTurn c m view with
      record := record
      taggedPeerKeys := (record.map Metadata.taggedPeerKeys).getD m.tagged
      delegationRounds := (record.map Metadata.delegationRounds).getD 0 }
    match matchReply c.refToken m runs with
    | .ambiguous run =>
      match runs.get run with
      | some other =>
        let t := executorOf (w.newTurn c m view) run other
        let payload := t.envelope .replyAmbiguous .waitingForReplies
        w.begin { t with phase := .recording .replyAmbiguous payload false }
      | none => w.pass m
    | .delegation run id other =>
      w.begin { executorOf (w.newTurn c m view) run other with phase := .replying id }
    | .nothing =>
      if m.fromAgent && !c.acceptAgentInitiated then w.pass m
      else w.begin { own with phase := .flow, tools := true }

/-- A message is delivered; `loaded` is whether its log could be read. -/
def deliver (m : Message) (view : RoomView) (loaded : Bool) (aged : RunId → Bool) : Option World :=
  match w.turn with
  | some _ => none
  | none =>
    if loaded then some (w.route c m view (convert aged w.log))
    else some (w.begin ((w.newTurn c m view).failure "state_source_unavailable" true))

/-- A step of the turn that makes no call. -/
def turnStep (step : Turn → Option Turn) : Option World :=
  match w.turn with
  | none => none
  | some t => (step t).map fun t' => { w with turn := some t' }

/-- The pending task event of the turn's line is written, or is not. -/
def write (ok : Bool) : Option World :=
  match w.turn with
  | none => none
  | some t => t.pending.map fun event =>
    { w with log := if ok then w.log ++ [event] else w.log, turn := some (t.afterWrite ok) }

def record (t : Turn) (key : SideEffectKey) (text : String) (outcome : PostOutcome) : List Post :=
  if outcome.landed then w.posts ++ [⟨t.run, key, text, w.turns⟩] else w.posts

/-- The pending message of the turn's line is posted, or is not. -/
def post (outcome : PostOutcome) : Option World :=
  match w.turn with
  | none => none
  | some t => (t.pendingPost c).map fun message =>
    { w with
      posts := w.record t message.1 message.2 outcome
      turn := some (t.afterPost outcome) }

def writeSend (i : Nat) (ok : Bool) : Option World :=
  match w.turn with
  | none => none
  | some t => match t.sends[i]? with
      | none => none
      | some send => (t.sendPending send).map fun event =>
        { w with
          log := if ok then w.log ++ [event] else w.log
          turn := some (t.setSend i send (Turn.sendAfterWrite send.phase ok)) }

def postSend (i : Nat) (outcome : PostOutcome) : Option World :=
  match w.turn with
  | none => none
  | some t => match t.sends[i]? with
      | some ⟨n, text, .leg .post⟩ => some
          { w with
            posts := w.record t (.subcrew n) text outcome
            turn := some (t.setSend i ⟨n, text, .leg .post⟩
              (Turn.sendAfterPost (.leg .post) outcome)) }
      | _ => none

/-- A tool is cancelled in its call. -/
def dropSend (i : Nat) : Option World :=
  match w.turn with
  | none => none
  | some t => match t.sends[i]? with
      | none => none
      | some send =>
        if send.phase.settled then none
        else some { w with turn := some (t.setSend i send .raised) }

/-- The turn's line is over and its tools have settled. -/
def close : Option World :=
  match w.turn with
  | none => none
  | some t => match t.phase with
      | .finished raised =>
        if t.sends.all (·.phase.settled) then
          some { w with turn := none, ended := w.ended ++ [⟨t.message.id, !raised⟩] }
        else none
      | _ => none

/-- The process dies, or the turn is cancelled in a call. -/
def crash : Option World :=
  match w.turn with
  | none => none
  | some t => some { w with turn := none, ended := w.ended ++ [⟨t.message.id, false⟩] }

inductive RoomEvent where
  | deliver (m : Message) (view : RoomView) (loaded : Bool) (aged : RunId → Bool)
  | flowReturns (result : FlowResult)
  | flowFails (code : String)
  | proceed
  | write (ok : Bool)
  | post (outcome : PostOutcome)
  | callSend (text : String)
  | writeSend (i : Nat) (ok : Bool)
  | postSend (i : Nat) (outcome : PostOutcome)
  | dropSend (i : Nat)
  | close
  | crash

def step (w : World) : RoomEvent → Option World
  | .deliver m view loaded aged => w.deliver c m view loaded aged
  | .flowReturns result => w.turnStep (·.flowReturns c result)
  | .flowFails code => w.turnStep (·.flowFails code)
  | .proceed => w.turnStep Turn.proceed
  | .write ok => w.write ok
  | .post outcome => w.post c outcome
  | .callSend text => w.turnStep (·.callSend text)
  | .writeSend i ok => w.writeSend i ok
  | .postSend i outcome => w.postSend i outcome
  | .dropSend i => w.dropSend i
  | .close => w.close
  | .crash => w.crash

end World

/-- A room whose log holds nothing of the adapter yet. -/
def room (c : FlowConfig) : Machine World World.RoomEvent where
  init w := w = ⟨[], [], none, 0, []⟩
  step := World.step c

end BandSdk.CrewFlow

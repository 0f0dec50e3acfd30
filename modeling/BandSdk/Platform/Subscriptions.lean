/-
# Platform.Subscriptions -- joins, leaves and the reconciliation block

`SubscriptionManager` runs the joins and leaves of one link.  The core tracker
hands out a ticket for each of them and is a parameter, `Tracker`; `Documented`
says which of its answers the manager relies on.

A call runs to its next await and is then a task, resumed when the awaited join
or leave returns, raises, or the task is cancelled.  `currentWs` is what
`_current_ws()` returns: the link may swap it at any point, and every call keeps
the client it was made with.  Two histories are written beside the state:
`tickets`, what became of each ticket, and `log`, the joins begun, the outcomes
left ambiguous, and what a drain saw.
-/
import BandSdk.Theory.Histories
import BandSdk.Theory.Machine

namespace BandSdk.Platform

open BandSdk.Theory

/-! ## The core tracker -/

/-- Only `rollbackFailed` is told apart by the manager. -/
inductive RoomSubscribeResult where
  | rollbackFailed
  | other
  deriving DecidableEq

inductive LeaveOutcome where
  | left
  | failed
  | unknown
  deriving DecidableEq

inductive AgentTopicKind where
  | rooms
  | contacts
  | control

/-- The topic names of `band_sdk_core`. -/
structure Topics where
  chatRoomTopic : String → String
  roomParticipantsTopic : String → String
  topic : AgentTopicKind → String → String
  fromWireName : String → Option AgentTopicKind

/-- The calls of `band_sdk_core.SubscriptionTracker`. -/
structure Tracker (σ τ : Type) where
  new : σ
  beginRoomSubscribe : σ → String → Option τ × σ
  recordChatRoomJoinFailed : σ → String → τ → σ
  recordRoomParticipantsJoinFailed : σ → String → τ → Bool → RoomSubscribeResult × σ
  recordBothRoomTopicsJoined : σ → String → τ → σ
  beginAgentTopicJoin : σ → String → Option τ × σ
  recordAgentTopicJoin : σ → String → τ → Bool → σ
  recordAgentTopicJoinAmbiguous : σ → String → τ → Bool × σ
  unsubscribeRoom : σ → String → Option τ × σ
  markRoomLeaveComplete : σ → String → τ → LeaveOutcome → σ
  leaveAgentTopic : σ → String → Option τ × σ
  markAgentTopicLeaveComplete : σ → String → τ → LeaveOutcome → σ
  roomRejoinCandidates : σ → List (String × τ)
  markRoomRejoinFailed : σ → String → τ → Bool × σ
  agentTopicRejoinCandidates : σ → List (String × τ)
  markAgentTopicRejoinFailed : σ → String → τ → Bool × σ
  onReconnected : σ → σ
  acknowledgeRoomReconciled : σ → String → σ
  acknowledgeAgentTopicReconciled : σ → String → σ
  endSession : σ → σ

/-- What is joined and left: a room, with its two topics, or an agent topic. -/
inductive Subject where
  | room (roomId : String)
  | agentTopic (topic : String)
  deriving DecidableEq

/-- A report of an ambiguous outcome takes effect while its ticket is the one the tracker holds
as `current`; a stale ticket was resolved another way. -/
structure Documented {σ τ : Type} (tracker : Tracker σ τ) (current : σ → Subject → τ → Bool) :
    Prop where
  roomAmbiguous : ∀ {t roomId ticket}, current t (.room roomId) ticket = true →
    (tracker.recordRoomParticipantsJoinFailed t roomId ticket false).1 = .rollbackFailed
  topicAmbiguous : ∀ {t topic ticket}, current t (.agentTopic topic) ticket = true →
    (tracker.recordAgentTopicJoinAmbiguous t topic ticket).1 = true
  roomRejoin : ∀ {t roomId ticket}, current t (.room roomId) ticket = true →
    (tracker.markRoomRejoinFailed t roomId ticket).1 = true
  topicRejoin : ∀ {t topic ticket}, current t (.agentTopic topic) ticket = true →
    (tracker.markAgentTopicRejoinFailed t topic ticket).1 = true

/-! ## The manager -/

/-- A ticket obtained for a join or a leave, one listed with a rejoin candidate, and the report
that resolves either. -/
inductive TicketNote where
  | obtained (call : Nat) (subject : Subject)
  | listed (call : Nat) (subject : Subject) (retained : Bool)
  | resolved (call : Nat)
  deriving DecidableEq

inductive Note where
  | joining (subject : Subject)
  | ambiguous (subject : Subject)
  | observedAbsent (subject : Subject)
  | sessionEnded
  deriving DecidableEq

/-- `calls` numbers the tickets and the drains. -/
structure Manager (σ : Type) where
  subscriptions : σ
  roomsNeedingReconciliation : List String := []
  agentTopicsNeedingReconciliation : List String := []
  currentWs : Option Nat := none
  calls : Nat := 0
  tickets : List TicketNote := []
  log : List Note := []

/-- Where a call awaits. -/
inductive Awaiting (τ : Type) where
  | joinChatRoom (roomId : String) (ticket : τ)
  | joinRoomParticipants (roomId : String) (ticket : τ)
  | rollBackChatRoom (roomId : String) (ticket : τ)
  | joinAgentTopic (topic : String) (ticket : τ)
  | leaveChatRoom (roomId : String) (ticket : τ)
  | leaveRoomParticipants (roomId : String) (ticket : τ) (chatRoomLeft : Bool)
  | leaveAgentTopic (topic : String) (ticket : τ)
  | drainChatRoom (roomId : String) (rest : List String)
  | drainRoomParticipants (roomId : String) (rest : List String)
  | drainAgentTopic (kind : AgentTopicKind) (agentId topic : String) (rest : List String)

/-- How an awaited join or leave ends. -/
inductive Outcome where
  | returned
  | raised
  | cancelled

namespace Manager

variable {σ τ : Type} (tracker : Tracker σ τ) (current : σ → Subject → τ → Bool) (names : Topics)

/-- Membership in the set the subject is kept in. -/
def needs (m : Manager σ) : Subject → Bool
  | .room roomId => roomId ∈ m.roomsNeedingReconciliation
  | .agentTopic topic => topic ∈ m.agentTopicsNeedingReconciliation

def blockedByReconciliation (m : Manager σ) (subject : Subject) : Bool := m.needs subject

def isCurrentSession (m : Manager σ) (ws : Nat) : Bool := m.currentWs = some ws

/-- `pending.add(key)`. -/
def add (m : Manager σ) : Subject → Manager σ
  | .room roomId =>
    { m with roomsNeedingReconciliation := m.roomsNeedingReconciliation.insert roomId }
  | .agentTopic topic =>
    { m with agentTopicsNeedingReconciliation := m.agentTopicsNeedingReconciliation.insert topic }

/-- `pending.discard(key)`. -/
def discard (m : Manager σ) : Subject → Manager σ
  | .room roomId =>
    { m with
      roomsNeedingReconciliation := m.roomsNeedingReconciliation.filter (· ≠ roomId) }
  | .agentTopic topic =>
    { m with
      agentTopicsNeedingReconciliation := m.agentTopicsNeedingReconciliation.filter (· ≠ topic) }

def markNeedingReconciliation (subject : Subject) (ws : Nat) (m : Manager σ) : Manager σ :=
  if m.isCurrentSession ws then m.add subject else m

/-- A call takes a ticket for `subject`. -/
def takeTicket (subject : Subject) (m : Manager σ) : Manager σ :=
  { m with tickets := m.tickets ++ [.obtained m.calls subject], calls := m.calls + 1 }

def note (entry : Note) (m : Manager σ) : Manager σ := { m with log := m.log ++ [entry] }

/-- The report that resolves `call`'s ticket.  The outcome is ambiguous if `unclear`, and is of
the current session if `ws` is. -/
def resolve (call : Nat) (subject : Subject) (ws : Nat) (unclear : Bool) (m : Manager σ) : Manager σ :=
  let m := { m with tickets := m.tickets ++ [.resolved call] }
  if unclear && m.isCurrentSession ws then m.note (.ambiguous subject) else m

/-! ### `subscribe_room` -/

def subscribeRoom (roomId : String) (m : Manager σ) : Manager σ × Option (Awaiting τ) :=
  if m.blockedByReconciliation (.room roomId) then (m, none)
  else
    let (ticket, t) := tracker.beginRoomSubscribe m.subscriptions roomId
    let m := { m with subscriptions := t }
    match ticket with
    | none => (m, none)
    | some ticket =>
      ((m.takeTicket (.room roomId)).note (.joining (.room roomId)), some (.joinChatRoom roomId ticket))

/-- The report of a failed participants join, after a rollback or in the `finally`. -/
def participantsJoinFailed (call ws : Nat) (roomId : String) (ticket : τ) (chatRoomLeft : Bool)
    (m : Manager σ) : Manager σ :=
  let unclear := !chatRoomLeft && current m.subscriptions (.room roomId) ticket
  let (result, t) := tracker.recordRoomParticipantsJoinFailed m.subscriptions roomId ticket chatRoomLeft
  let m := { m with subscriptions := t }.resolve call (.room roomId) ws unclear
  if result = .rollbackFailed then m.markNeedingReconciliation (.room roomId) ws else m

def chatRoomJoinFailed (call ws : Nat) (roomId : String) (ticket : τ) (m : Manager σ) : Manager σ :=
  { m with subscriptions := tracker.recordChatRoomJoinFailed m.subscriptions roomId ticket }.resolve
    call (.room roomId) ws false

def bothRoomTopicsJoined (call ws : Nat) (roomId : String) (ticket : τ) (m : Manager σ) : Manager σ :=
  { m with subscriptions := tracker.recordBothRoomTopicsJoined m.subscriptions roomId ticket }.resolve
    call (.room roomId) ws false

/-! ### The agent topics -/

def subscribeAgentTopic (topic : String) (m : Manager σ) : Manager σ × Option (Awaiting τ) :=
  if m.blockedByReconciliation (.agentTopic topic) then (m, none)
  else
    let (ticket, t) := tracker.beginAgentTopicJoin m.subscriptions topic
    let m := { m with subscriptions := t }
    match ticket with
    | none => (m, none)
    | some ticket =>
      ((m.takeTicket (.agentTopic topic)).note (.joining (.agentTopic topic)),
        some (.joinAgentTopic topic ticket))

def subscribeAgentRooms (agentId : String) (m : Manager σ) : Manager σ × Option (Awaiting τ) :=
  m.subscribeAgentTopic tracker (names.topic .rooms agentId)

def subscribeAgentContacts (agentId : String) (m : Manager σ) : Manager σ × Option (Awaiting τ) :=
  m.subscribeAgentTopic tracker (names.topic .contacts agentId)

def agentTopicJoined (call ws : Nat) (topic : String) (ticket : τ) (joined : Bool)
    (m : Manager σ) : Manager σ :=
  { m with subscriptions := tracker.recordAgentTopicJoin m.subscriptions topic ticket joined }.resolve
    call (.agentTopic topic) ws false

/-- The `finally` of a join whose ticket is unresolved. -/
def agentTopicJoinAmbiguous (call ws : Nat) (topic : String) (ticket : τ) (m : Manager σ) : Manager σ :=
  let unclear := current m.subscriptions (.agentTopic topic) ticket
  let (applied, t) := tracker.recordAgentTopicJoinAmbiguous m.subscriptions topic ticket
  let m := { m with subscriptions := t }.resolve call (.agentTopic topic) ws unclear
  if applied then m.markNeedingReconciliation (.agentTopic topic) ws else m

/-! ### Leaves -/

def unsubscribeRoom (roomId : String) (m : Manager σ) : Manager σ × Option (Awaiting τ) :=
  let (ticket, t) := tracker.unsubscribeRoom m.subscriptions roomId
  let m := { m with subscriptions := t }
  match ticket with
  | none => (m, none)
  | some ticket => (m.takeTicket (.room roomId), some (.leaveChatRoom roomId ticket))

/-- The `finally` of `unsubscribe_room`. -/
def roomLeaveComplete (call ws : Nat) (roomId : String) (ticket : τ) (outcome : LeaveOutcome)
    (m : Manager σ) : Manager σ :=
  let t := tracker.markRoomLeaveComplete m.subscriptions roomId ticket outcome
  let m := { m with subscriptions := t }.resolve call (.room roomId) ws (outcome ≠ LeaveOutcome.left)
  if outcome ≠ .left then m.markNeedingReconciliation (.room roomId) ws else m

def leaveAgentTopic (topic : String) (m : Manager σ) : Manager σ × Option (Awaiting τ) :=
  let (ticket, t) := tracker.leaveAgentTopic m.subscriptions topic
  let m := { m with subscriptions := t }
  match ticket with
  | none => (m, none)
  | some ticket => (m.takeTicket (.agentTopic topic), some (.leaveAgentTopic topic ticket))

def unsubscribeAgentContacts (agentId : String) (m : Manager σ) : Manager σ × Option (Awaiting τ) :=
  m.leaveAgentTopic tracker (names.topic .contacts agentId)

/-- The `finally` of `_leave_agent_topic`. -/
def agentTopicLeaveComplete (call ws : Nat) (topic : String) (ticket : τ) (outcome : LeaveOutcome)
    (m : Manager σ) : Manager σ :=
  let t := tracker.markAgentTopicLeaveComplete m.subscriptions topic ticket outcome
  let m := { m with subscriptions := t }.resolve call (.agentTopic topic) ws (outcome ≠ LeaveOutcome.left)
  if outcome ≠ .left then m.markNeedingReconciliation (.agentTopic topic) ws else m

/-! ### Rejoin failures -/

def roomRetained (joined : List String) (roomId : String) : Bool :=
  names.chatRoomTopic roomId ∈ joined && names.roomParticipantsTopic roomId ∈ joined

/-- The candidates' tickets are obtained in one call; the ones dropped are reported one by one. -/
def listCandidates (subject : String → Subject) (retained : String → Bool) (candidates : List (String × τ))
    (m : Manager σ) : Manager σ :=
  { m with
    calls := m.calls + candidates.length
    tickets := m.tickets ++
      (candidates.zipIdx m.calls).map fun (c, call) => .listed call (subject c.1) (retained c.1) }

def rejoinFailed (mark : σ → String → τ → Bool × σ) (subject : String → Subject) (ws : Nat)
    (m : Manager σ) (candidate : (String × τ) × Nat) : Manager σ :=
  let ((key, ticket), call) := candidate
  let unclear := current m.subscriptions (subject key) ticket
  let (applied, t) := mark m.subscriptions key ticket
  let m := { m with subscriptions := t }.resolve call (subject key) ws unclear
  if applied then m.markNeedingReconciliation (subject key) ws else m

def detect (mark : σ → String → τ → Bool × σ) (subject : String → Subject)
    (retained : String → Bool) (ws : Nat) (candidates : List (String × τ)) (m : Manager σ) :
    Manager σ :=
  let dropped := (candidates.zipIdx m.calls).filter fun candidate => !retained candidate.1.1
  dropped.foldl (rejoinFailed current mark subject ws) (m.listCandidates subject retained candidates)

def detectRoomRejoinFailures (ws : Nat) (joined : List String) (m : Manager σ) : Manager σ :=
  m.detect current tracker.markRoomRejoinFailed .room (roomRetained names joined) ws
    (tracker.roomRejoinCandidates m.subscriptions)

def detectAgentTopicRejoinFailures (ws : Nat) (joined : List String) (m : Manager σ) : Manager σ :=
  m.detect current tracker.markAgentTopicRejoinFailed .agentTopic (· ∈ joined) ws
    (tracker.agentTopicRejoinCandidates m.subscriptions)

def detectRejoinFailures (ws : Nat) (joined : List String) (m : Manager σ) : Manager σ :=
  (m.detectRoomRejoinFailures tracker current names ws joined).detectAgentTopicRejoinFailures
    tracker current ws joined

def markReconnected (m : Manager σ) : Manager σ :=
  { m with subscriptions := tracker.onReconnected m.subscriptions }

/-! ### The drain -/

/-- `topic.partition(":")`, without the separator. -/
def partition (topic : String) : String × String :=
  let (kind, rest) := topic.toList.span (· ≠ ':')
  (String.ofList kind, String.ofList (rest.drop 1))

/-- The agent-topic loop, up to its next await; an unrecognized kind raises. -/
def drainAgentTopics (ws : Nat) (topics : List String) (m : Manager σ) : Option (Awaiting τ) :=
  match topics with
  | [] => none
  | topic :: rest =>
    if m.isCurrentSession ws then
      let (kind, agentId) := partition topic
      (names.fromWireName kind).map fun kind => .drainAgentTopic kind agentId topic rest
    else none

/-- The room loop, up to its next await; `topics` is the snapshot the agent-topic loop takes if
the room loop ends here. -/
def drainRooms (ws : Nat) (rooms topics : List String) (m : Manager σ) : Option (Awaiting τ) :=
  match rooms with
  | [] => m.drainAgentTopics names ws topics
  | roomId :: rest =>
    if m.isCurrentSession ws then some (.drainChatRoom roomId rest)
    else m.drainAgentTopics names ws topics

def drainReconciliation (ws : Nat) (rooms topics : List String) (m : Manager σ) :
    Manager σ × Option (Awaiting τ) :=
  ({ m with calls := m.calls + 1 }, m.drainRooms names ws rooms topics)

def acknowledgeReconciled (subject : Subject) (m : Manager σ) : Manager σ :=
  let t := match subject with
    | .room roomId => tracker.acknowledgeRoomReconciled m.subscriptions roomId
    | .agentTopic topic => tracker.acknowledgeAgentTopicReconciled m.subscriptions topic
  ({ m with subscriptions := t }.note (.observedAbsent subject)).discard subject

/-- The room loop after both leaves of `roomId`; `joined` is what `ws.joined_topics()` returns. -/
def drainedRoom (ws : Nat) (roomId : String) (rest joined topics : List String) (m : Manager σ) :
    Manager σ × Option (Awaiting τ) :=
  if m.isCurrentSession ws then
    if names.chatRoomTopic roomId ∈ joined || names.roomParticipantsTopic roomId ∈ joined then
      (m, m.drainRooms names ws rest topics)
    else
      let m := m.acknowledgeReconciled tracker (.room roomId)
      (m, m.drainRooms names ws rest topics)
  else (m, m.drainAgentTopics names ws topics)

def drainedAgentTopic (ws : Nat) (topic : String) (rest joined : List String) (m : Manager σ) :
    Manager σ × Option (Awaiting τ) :=
  if m.isCurrentSession ws then
    if topic ∈ joined then (m, m.drainAgentTopics names ws rest)
    else
      let m := m.acknowledgeReconciled tracker (.agentTopic topic)
      (m, m.drainAgentTopics names ws rest)
  else (m, none)

def endSession (m : Manager σ) : Manager σ :=
  { m with
    subscriptions := tracker.endSession m.subscriptions
    roomsNeedingReconciliation := []
    agentTopicsNeedingReconciliation := [] }.note .sessionEnded

/-! ### Resuming a call -/

/-- `_leave_channel` reports whether the leave succeeded; a cancellation passes through it. -/
def leaveChannel : Outcome → Option Bool
  | .returned => some true
  | .raised => some false
  | .cancelled => none

/-- A call from the end of its await to its next one, or to its end. -/
def resume (call ws : Nat) (outcome : Outcome) (joined topics : List String) (m : Manager σ) :
    Awaiting τ → Manager σ × Option (Awaiting τ)
  | .joinChatRoom roomId ticket =>
    match outcome with
    | .returned => (m, some (.joinRoomParticipants roomId ticket))
    | .raised => (m.chatRoomJoinFailed tracker call ws roomId ticket, none)
    | .cancelled => (m.participantsJoinFailed tracker current call ws roomId ticket false, none)
  | .joinRoomParticipants roomId ticket =>
    match outcome with
    | .returned => (m.bothRoomTopicsJoined tracker call ws roomId ticket, none)
    | .raised => (m, some (.rollBackChatRoom roomId ticket))
    | .cancelled => (m.participantsJoinFailed tracker current call ws roomId ticket false, none)
  | .rollBackChatRoom roomId ticket =>
    match leaveChannel outcome with
    | some chatRoomLeft =>
      (m.participantsJoinFailed tracker current call ws roomId ticket chatRoomLeft, none)
    | none => (m.participantsJoinFailed tracker current call ws roomId ticket false, none)
  | .joinAgentTopic topic ticket =>
    match outcome with
    | .returned => (m.agentTopicJoined tracker call ws topic ticket true, none)
    | .raised => (m.agentTopicJoined tracker call ws topic ticket false, none)
    | .cancelled => (m.agentTopicJoinAmbiguous tracker current call ws topic ticket, none)
  | .leaveChatRoom roomId ticket =>
    match leaveChannel outcome with
    | some chatRoomLeft => (m, some (.leaveRoomParticipants roomId ticket chatRoomLeft))
    | none => (m.roomLeaveComplete tracker call ws roomId ticket .unknown, none)
  | .leaveRoomParticipants roomId ticket chatRoomLeft =>
    match leaveChannel outcome with
    | some participantsLeft =>
      let outcome := if chatRoomLeft && participantsLeft then LeaveOutcome.left else .failed
      (m.roomLeaveComplete tracker call ws roomId ticket outcome, none)
    | none => (m.roomLeaveComplete tracker call ws roomId ticket .unknown, none)
  | .leaveAgentTopic topic ticket =>
    match leaveChannel outcome with
    | some left =>
      let outcome := if left then LeaveOutcome.left else .failed
      (m.agentTopicLeaveComplete tracker call ws topic ticket outcome, none)
    | none => (m.agentTopicLeaveComplete tracker call ws topic ticket .unknown, none)
  | .drainChatRoom roomId rest =>
    match leaveChannel outcome with
    | some _ => (m, some (.drainRoomParticipants roomId rest))
    | none => (m, none)
  | .drainRoomParticipants roomId rest =>
    match leaveChannel outcome with
    | some _ => m.drainedRoom tracker names ws roomId rest joined topics
    | none => (m, none)
  | .drainAgentTopic _ _ topic rest =>
    match leaveChannel outcome with
    | some _ => m.drainedAgentTopic tracker names ws topic rest joined
    | none => (m, none)

end Manager

/-! ## The machine -/

structure Task (τ : Type) where
  ws : Nat
  awaiting : Awaiting τ

/-- The manager and its calls in flight, by number. -/
structure State (σ τ : Type) where
  manager : Manager σ
  tasks : Nat → Option (Task τ) := fun _ => none

/-- `rooms` and `topics` are the orders in which a set was listed, `joined` what
`joined_topics()` returned. -/
inductive Event where
  | subscribeRoom (ws : Nat) (roomId : String)
  | subscribeAgentRooms (ws : Nat) (agentId : String)
  | subscribeAgentContacts (ws : Nat) (agentId : String)
  | unsubscribeRoom (ws : Nat) (roomId : String)
  | unsubscribeAgentContacts (ws : Nat) (agentId : String)
  | drainReconciliation (ws : Nat) (rooms topics : List String)
  | detectRejoinFailures (ws : Nat) (joined : List String)
  | markReconnected
  | resume (call : Nat) (outcome : Outcome) (joined topics : List String)
  | swap (ws : Option Nat)
  | endSession

namespace State

variable {σ τ : Type}

/-- The call numbered `call` goes on, or is over. -/
def park (s : State σ τ) (call ws : Nat) (next : Manager σ × Option (Awaiting τ)) : State σ τ :=
  { manager := next.1, tasks := Function.update s.tasks call (next.2.map (Task.mk ws)) }

/-- The client an event acts through. -/
def actsThrough (s : State σ τ) : Event → Option Nat
  | .subscribeRoom ws _ | .subscribeAgentRooms ws _ | .subscribeAgentContacts ws _
  | .unsubscribeRoom ws _ | .unsubscribeAgentContacts ws _ | .drainReconciliation ws _ _
  | .detectRejoinFailures ws _ => some ws
  | .resume call .. => (s.tasks call).map Task.ws
  | .markReconnected | .swap _ | .endSession => none

end State

variable {σ τ : Type} (tracker : Tracker σ τ) (current : σ → Subject → τ → Bool) (names : Topics)

def step (s : State σ τ) : Event → Option (State σ τ)
  | .subscribeRoom ws roomId =>
    some (s.park s.manager.calls ws (s.manager.subscribeRoom tracker roomId))
  | .subscribeAgentRooms ws agentId =>
    some (s.park s.manager.calls ws (s.manager.subscribeAgentRooms tracker names agentId))
  | .subscribeAgentContacts ws agentId =>
    some (s.park s.manager.calls ws (s.manager.subscribeAgentContacts tracker names agentId))
  | .unsubscribeRoom ws roomId =>
    some (s.park s.manager.calls ws (s.manager.unsubscribeRoom tracker roomId))
  | .unsubscribeAgentContacts ws agentId =>
    some (s.park s.manager.calls ws (s.manager.unsubscribeAgentContacts tracker names agentId))
  | .drainReconciliation ws rooms topics =>
    if rooms.isPerm s.manager.roomsNeedingReconciliation &&
        topics.isPerm s.manager.agentTopicsNeedingReconciliation then
      some (s.park s.manager.calls ws (s.manager.drainReconciliation names ws rooms topics))
    else none
  | .detectRejoinFailures ws joined =>
    some { s with manager := s.manager.detectRejoinFailures tracker current names ws joined }
  | .markReconnected => some { s with manager := s.manager.markReconnected tracker }
  | .resume call outcome joined topics =>
    match s.tasks call with
    | none => none
    | some ⟨ws, awaiting⟩ =>
      if topics.isPerm s.manager.agentTopicsNeedingReconciliation then
        some (s.park call ws
          (s.manager.resume tracker current names call ws outcome joined topics awaiting))
      else none
  | .swap ws => some { s with manager := { s.manager with currentWs := ws } }
  | .endSession => some { s with manager := s.manager.endSession tracker }

def machine : Machine (State σ τ) Event where
  init s := s = { manager := { subscriptions := tracker.new } }
  step := step tracker current names

end BandSdk.Platform

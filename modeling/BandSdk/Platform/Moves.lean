/-
# Platform.Moves -- what the code between two awaits does

`Move` says what one piece of the manager's code does to the sets and the log:
nothing, a join of a subject outside its set, a block of a subject through the
current client, or the release a drain grants.  `Started`, `Resumed` and
`Drained` say what it does to the tickets.
-/
import BandSdk.Platform.Subscriptions
import Mathlib.Logic.Relation

namespace BandSdk.Platform

open BandSdk.Theory

variable {σ τ : Type} {tracker : Tracker σ τ} {current : σ → Subject → τ → Bool} {names : Topics}

/-- A join or a leave in flight; a drain holds no ticket. -/
def Awaiting.holdsTicket : Awaiting τ → Bool
  | .drainChatRoom .. | .drainRoomParticipants .. | .drainAgentTopic .. => false
  | _ => true

namespace Manager

/-! ## Fields -/

variable (m : Manager σ) (subject : Subject) (call ws : Nat)

@[simp] theorem needs_add (subject other : Subject) :
    (m.add subject).needs other = (decide (other = subject) || m.needs other) := by
  cases subject <;> cases other <;> first | rfl | simp [add, needs]

@[simp] theorem needs_discard (subject other : Subject) :
    (m.discard subject).needs other = (decide (other ≠ subject) && m.needs other) := by
  cases subject <;> cases other <;> first | rfl | simp [discard, needs, Bool.and_comm]

@[simp] theorem add_kept :
    (m.add subject).log = m.log ∧ (m.add subject).tickets = m.tickets ∧
      (m.add subject).calls = m.calls ∧ (m.add subject).currentWs = m.currentWs := by
  cases subject <;> exact ⟨rfl, rfl, rfl, rfl⟩

@[simp] theorem discard_kept :
    (m.discard subject).log = m.log ∧ (m.discard subject).tickets = m.tickets ∧
      (m.discard subject).calls = m.calls ∧ (m.discard subject).currentWs = m.currentWs := by
  cases subject <;> exact ⟨rfl, rfl, rfl, rfl⟩

/-! ## What one call does -/

/-- The change one piece of code makes to the sets and the log, acting through `ws`. -/
inductive Move (ws : Nat) (m m' : Manager σ) : Prop where
  | quiet (sets : m'.needs = m.needs) (log : m'.log = m.log) (same : m'.currentWs = m.currentWs)
  | joins (subject : Subject) (free : m.needs subject = false) (sets : m'.needs = m.needs)
      (log : m'.log = m.log ++ [.joining subject]) (same : m'.currentWs = m.currentWs)
  | blocks (subject : Subject) (inSession : m.currentWs = some ws)
      (sets : ∀ other, m'.needs other = (decide (other = subject) || m.needs other))
      (log : m'.log = m.log ∨ m'.log = m.log ++ [.ambiguous subject])
      (same : m'.currentWs = m.currentWs)
  | releases (subject : Subject)
      (sets : ∀ other, m'.needs other = (decide (other ≠ subject) && m.needs other))
      (log : m'.log = m.log ++ [.observedAbsent subject]) (same : m'.currentWs = m.currentWs)

/-- A report that resolves a ticket and then blocks the subject if it took effect. -/
def report (call ws : Nat) (subject : Subject) (unclear applied : Bool) (m : Manager σ) : Manager σ :=
  let m := m.resolve call subject ws unclear
  if applied then m.markNeedingReconciliation subject ws else m

theorem report_move {m : Manager σ} {call ws : Nat} {subject : Subject} {unclear applied : Bool}
    (takes : unclear = true → applied = true) :
    Move ws m (m.report call ws subject unclear applied) := by
  by_cases inSession : m.currentWs = some ws
  · cases applied with
    | true =>
      refine .blocks subject inSession ?_ ?_ ?_
      · intro other
        cases unclear <;>
          simp [report, resolve, isCurrentSession, inSession, markNeedingReconciliation, note] <;> rfl
      · cases unclear <;>
          simp [report, resolve, isCurrentSession, inSession, markNeedingReconciliation, note]
      · cases unclear <;>
          simp [report, resolve, isCurrentSession, inSession, markNeedingReconciliation, note]
    | false =>
      cases unclear with
      | true => cases takes rfl
      | false => exact .quiet rfl rfl rfl
  · refine .quiet ?_ ?_ ?_ <;> cases unclear <;> cases applied <;>
      simp [report, resolve, isCurrentSession, inSession, markNeedingReconciliation] <;> rfl

@[simp] theorem resolve_tickets (subject : Subject) (unclear : Bool) :
    (m.resolve call subject ws unclear).tickets = m.tickets ++ [.resolved call] ∧
      (m.resolve call subject ws unclear).calls = m.calls := by
  simp only [resolve]
  split <;> exact ⟨rfl, rfl⟩

@[simp] theorem mark_tickets (ws : Nat) :
    (m.markNeedingReconciliation subject ws).tickets = m.tickets ∧
      (m.markNeedingReconciliation subject ws).calls = m.calls := by
  simp only [markNeedingReconciliation]
  split <;> simp

@[simp] theorem report_tickets (subject : Subject) (unclear applied : Bool) :
    (m.report call ws subject unclear applied).tickets = m.tickets ++ [.resolved call] ∧
      (m.report call ws subject unclear applied).calls = m.calls := by
  simp only [report]
  split <;> simp

/-- The tracker's own state is not read by a `Move`. -/
theorem Move.tracked {ws : Nat} {m m' : Manager σ} (t : σ)
    (moved : Move ws { m with subscriptions := t } m') : Move ws m m' := by
  cases moved with
  | quiet sets log same => exact .quiet sets log same
  | joins subject free sets log same => exact .joins subject free sets log same
  | blocks subject inSession sets log same => exact .blocks subject inSession sets log same
  | releases subject sets log same => exact .releases subject sets log same

theorem participantsJoinFailed_eq (roomId : String) (ticket : τ) (chatRoomLeft : Bool) :
    m.participantsJoinFailed tracker current call ws roomId ticket chatRoomLeft =
      { m with
        subscriptions :=
          (tracker.recordRoomParticipantsJoinFailed m.subscriptions roomId ticket chatRoomLeft).2
        }.report call ws (.room roomId)
        (!chatRoomLeft && current m.subscriptions (.room roomId) ticket)
        (decide ((tracker.recordRoomParticipantsJoinFailed m.subscriptions roomId ticket
          chatRoomLeft).1 = RoomSubscribeResult.rollbackFailed)) := by
  simp [participantsJoinFailed, report]

theorem agentTopicJoinAmbiguous_eq (topic : String) (ticket : τ) :
    m.agentTopicJoinAmbiguous tracker current call ws topic ticket =
      { m with
        subscriptions := (tracker.recordAgentTopicJoinAmbiguous m.subscriptions topic ticket).2
        }.report call ws (.agentTopic topic) (current m.subscriptions (.agentTopic topic) ticket)
        (tracker.recordAgentTopicJoinAmbiguous m.subscriptions topic ticket).1 :=
  rfl

theorem roomLeaveComplete_eq (roomId : String) (ticket : τ) (outcome : LeaveOutcome) :
    m.roomLeaveComplete tracker call ws roomId ticket outcome =
      { m with
        subscriptions := tracker.markRoomLeaveComplete m.subscriptions roomId ticket outcome
        }.report call ws (.room roomId) (outcome ≠ LeaveOutcome.left)
        (outcome ≠ LeaveOutcome.left) := by
  simp [roomLeaveComplete, report]

theorem agentTopicLeaveComplete_eq (topic : String) (ticket : τ) (outcome : LeaveOutcome) :
    m.agentTopicLeaveComplete tracker call ws topic ticket outcome =
      { m with
        subscriptions := tracker.markAgentTopicLeaveComplete m.subscriptions topic ticket outcome
        }.report call ws (.agentTopic topic) (outcome ≠ LeaveOutcome.left)
        (outcome ≠ LeaveOutcome.left) := by
  simp [agentTopicLeaveComplete, report]

theorem acknowledgeReconciled_move (tracker : Tracker σ τ) (m : Manager σ) (ws : Nat) (subject : Subject) :
    Move ws m (m.acknowledgeReconciled tracker subject) := by
  refine .releases subject ?_ ?_ ?_
  · intro other
    simp only [acknowledgeReconciled, needs_discard]
    rfl
  · simp [acknowledgeReconciled, note]
  · simp [acknowledgeReconciled, note]

/-! ## The code between two awaits -/

/-- A call that was made: without a ticket it is over at once. -/
inductive Started (m : Manager σ) (next : Manager σ × Option (Awaiting τ)) : Prop where
  | refused (ended : next.2 = none) (tickets : next.1.tickets = m.tickets)
      (calls : next.1.calls = m.calls)
  | began (subject : Subject) (awaiting : Awaiting τ) (waits : next.2 = some awaiting)
      (holds : awaiting.holdsTicket = true)
      (tickets : next.1.tickets = m.tickets ++ [.obtained m.calls subject])
      (calls : next.1.calls = m.calls + 1)

section

variable (tracker)

theorem subscribeRoom_spec (roomId : String) :
    Move ws m (m.subscribeRoom tracker roomId).1 ∧ Started m (m.subscribeRoom tracker roomId) := by
  cases blocked : m.needs (.room roomId) with
  | true =>
    simp only [subscribeRoom, blockedByReconciliation, blocked, if_true]
    exact ⟨.quiet rfl rfl rfl, .refused rfl rfl rfl⟩
  | false =>
    rcases begun : tracker.beginRoomSubscribe m.subscriptions roomId with ⟨_ | ticket, t⟩ <;>
      simp only [subscribeRoom, blockedByReconciliation, blocked, begun, Bool.false_eq_true, if_false]
    · exact ⟨.quiet rfl rfl rfl, .refused rfl rfl rfl⟩
    · exact ⟨.joins (.room roomId) blocked rfl rfl rfl, .began _ _ rfl rfl rfl rfl⟩

theorem subscribeAgentTopic_spec (topic : String) :
    Move ws m (m.subscribeAgentTopic tracker topic).1 ∧ Started m (m.subscribeAgentTopic tracker topic) := by
  cases blocked : m.needs (.agentTopic topic) with
  | true =>
    simp only [subscribeAgentTopic, blockedByReconciliation, blocked, if_true]
    exact ⟨.quiet rfl rfl rfl, .refused rfl rfl rfl⟩
  | false =>
    rcases begun : tracker.beginAgentTopicJoin m.subscriptions topic with ⟨_ | ticket, t⟩ <;>
      simp only [subscribeAgentTopic, blockedByReconciliation, blocked, begun, Bool.false_eq_true, if_false]
    · exact ⟨.quiet rfl rfl rfl, .refused rfl rfl rfl⟩
    · exact ⟨.joins (.agentTopic topic) blocked rfl rfl rfl, .began _ _ rfl rfl rfl rfl⟩

theorem unsubscribeRoom_spec (roomId : String) :
    Move ws m (m.unsubscribeRoom tracker roomId).1 ∧ Started m (m.unsubscribeRoom tracker roomId) := by
  rcases left : tracker.unsubscribeRoom m.subscriptions roomId with ⟨_ | ticket, t⟩ <;>
    simp only [unsubscribeRoom, left]
  · exact ⟨.quiet rfl rfl rfl, .refused rfl rfl rfl⟩
  · exact ⟨.quiet rfl rfl rfl, .began _ _ rfl rfl rfl rfl⟩

theorem leaveAgentTopic_spec (topic : String) :
    Move ws m (m.leaveAgentTopic tracker topic).1 ∧ Started m (m.leaveAgentTopic tracker topic) := by
  rcases left : tracker.leaveAgentTopic m.subscriptions topic with ⟨_ | ticket, t⟩ <;>
    simp only [leaveAgentTopic, left]
  · exact ⟨.quiet rfl rfl rfl, .refused rfl rfl rfl⟩
  · exact ⟨.quiet rfl rfl rfl, .began _ _ rfl rfl rfl rfl⟩

end

theorem drainAgentTopics_holdsNone (ws : Nat) (topics : List String) :
    ∀ awaiting ∈ m.drainAgentTopics (τ := τ) names ws topics, awaiting.holdsTicket = false := by
  intro awaiting waits
  cases topics with
  | nil => cases waits
  | cons topic rest =>
    obtain ⟨-, waits⟩ := of_passed waits
    obtain ⟨kind, -, rfl⟩ := Option.map_eq_some_iff.1 waits
    rfl

theorem drainRooms_holdsNone (ws : Nat) (rooms topics : List String) :
    ∀ awaiting ∈ m.drainRooms (τ := τ) names ws rooms topics, awaiting.holdsTicket = false := by
  intro awaiting waits
  cases rooms with
  | nil => exact m.drainAgentTopics_holdsNone ws topics awaiting waits
  | cons roomId rest =>
    simp only [drainRooms] at waits
    split at waits
    · cases waits
      rfl
    · exact m.drainAgentTopics_holdsNone ws topics awaiting waits

/-- A drain between two awaits holds no ticket and resolves none. -/
structure Drained (m : Manager σ) (next : Manager σ × Option (Awaiting τ)) : Prop where
  tickets : next.1.tickets = m.tickets
  calls : next.1.calls = m.calls
  holdsNone : ∀ awaiting ∈ next.2, awaiting.holdsTicket = false

theorem acknowledgeReconciled_tickets (tracker : Tracker σ τ) (m : Manager σ) (subject : Subject) :
    (m.acknowledgeReconciled tracker subject).tickets = m.tickets ∧
      (m.acknowledgeReconciled tracker subject).calls = m.calls := by
  simp [acknowledgeReconciled, note]

theorem drainedRoom_spec (ws : Nat) (roomId : String) (rest joined topics : List String) :
    Move ws m (m.drainedRoom (τ := τ) tracker names ws roomId rest joined topics).1 ∧
      Drained m (m.drainedRoom (τ := τ) tracker names ws roomId rest joined topics) := by
  simp only [drainedRoom]
  split
  · split
    · exact ⟨.quiet rfl rfl rfl, rfl, rfl, drainRooms_holdsNone m ws rest topics⟩
    · have kept := acknowledgeReconciled_tickets tracker m (.room roomId)
      exact ⟨acknowledgeReconciled_move tracker m ws (.room roomId), kept.1, kept.2, drainRooms_holdsNone _ ws rest topics⟩
  · exact ⟨.quiet rfl rfl rfl, rfl, rfl, drainAgentTopics_holdsNone m ws topics⟩

theorem drainedAgentTopic_spec (ws : Nat) (topic : String) (rest joined : List String) :
    Move ws m (m.drainedAgentTopic (τ := τ) tracker names ws topic rest joined).1 ∧
      Drained m (m.drainedAgentTopic (τ := τ) tracker names ws topic rest joined) := by
  simp only [drainedAgentTopic]
  split
  · split
    · exact ⟨.quiet rfl rfl rfl, rfl, rfl, drainAgentTopics_holdsNone m ws rest⟩
    · have kept := acknowledgeReconciled_tickets tracker m (.agentTopic topic)
      exact ⟨acknowledgeReconciled_move tracker m ws (.agentTopic topic), kept.1, kept.2, drainAgentTopics_holdsNone _ ws rest⟩
  · exact ⟨.quiet rfl rfl rfl, rfl, rfl, nofun⟩

/-- A call that held a ticket either awaits again with it or has resolved it. -/
inductive Resumed (call : Nat) (m : Manager σ) (next : Manager σ × Option (Awaiting τ)) : Prop where
  | awaits (awaiting : Awaiting τ) (waits : next.2 = some awaiting)
      (holds : awaiting.holdsTicket = true) (tickets : next.1.tickets = m.tickets)
      (calls : next.1.calls = m.calls)
  | ends (ended : next.2 = none) (tickets : next.1.tickets = m.tickets ++ [.resolved call])
      (calls : next.1.calls = m.calls)

theorem report_spec {m : Manager σ} {t : σ} {subject : Subject} {unclear applied : Bool}
    (takes : unclear = true → applied = true) :
    Move ws m ({ m with subscriptions := t }.report call ws subject unclear applied) ∧ Resumed (τ := τ) call m
        ({ m with subscriptions := t }.report call ws subject unclear applied, none) :=
  ⟨Move.tracked t (report_move takes), .ends rfl (report_tickets ..).1 (report_tickets ..).2⟩

theorem participantsJoinFailed_spec (documented : Documented tracker current) (m : Manager σ)
    (roomId : String) (ticket : τ) (chatRoomLeft : Bool) :
    Move ws m (m.participantsJoinFailed tracker current call ws roomId ticket chatRoomLeft) ∧
      Resumed (τ := τ) call m
        (m.participantsJoinFailed tracker current call ws roomId ticket chatRoomLeft, none) := by
  rw [participantsJoinFailed_eq]
  refine report_spec call ws fun unclear => ?_
  cases chatRoomLeft with
  | true => cases unclear
  | false => simpa using documented.roomAmbiguous (by simpa using unclear)

theorem resume_ticket (names : Topics) (documented : Documented tracker current) (m : Manager σ)
    (call ws : Nat) (outcome : Outcome) (joined topics : List String) (awaiting : Awaiting τ)
    (holds : awaiting.holdsTicket = true) :
    let next := m.resume tracker current names call ws outcome joined topics awaiting
    Move ws m next.1 ∧ Resumed call m next := by
  have participants := participantsJoinFailed_spec call ws documented m
  have roomLeft : ∀ roomId ticket outcome,
      Move ws m (m.roomLeaveComplete tracker call ws roomId ticket outcome) ∧ Resumed (τ := τ) call m
        (m.roomLeaveComplete tracker call ws roomId ticket outcome, none) := by
    intro roomId ticket outcome
    rw [roomLeaveComplete_eq]
    exact report_spec call ws id
  have topicLeft : ∀ topic ticket outcome,
      Move ws m (m.agentTopicLeaveComplete tracker call ws topic ticket outcome) ∧ Resumed (τ := τ) call m
          (m.agentTopicLeaveComplete tracker call ws topic ticket outcome, none) := by
    intro topic ticket outcome
    rw [agentTopicLeaveComplete_eq]
    exact report_spec call ws id
  cases awaiting with
  | joinChatRoom roomId ticket =>
    cases outcome with
    | returned => exact ⟨.quiet rfl rfl rfl, .awaits _ rfl rfl rfl rfl⟩
    | raised => exact ⟨.quiet rfl rfl rfl, .ends rfl rfl rfl⟩
    | cancelled => exact participants _ _ _
  | joinRoomParticipants roomId ticket =>
    cases outcome with
    | returned => exact ⟨.quiet rfl rfl rfl, .ends rfl rfl rfl⟩
    | raised => exact ⟨.quiet rfl rfl rfl, .awaits _ rfl rfl rfl rfl⟩
    | cancelled => exact participants _ _ _
  | rollBackChatRoom roomId ticket =>
    cases outcome <;> exact participants _ _ _
  | joinAgentTopic topic ticket =>
    cases outcome with
    | returned | raised => exact ⟨.quiet rfl rfl rfl, .ends rfl rfl rfl⟩
    | cancelled => 
      rw [resume, agentTopicJoinAmbiguous_eq]
      exact report_spec call ws documented.topicAmbiguous
  | leaveChatRoom roomId ticket =>
    cases outcome with
    | returned | raised => exact ⟨.quiet rfl rfl rfl, .awaits _ rfl rfl rfl rfl⟩
    | cancelled => exact roomLeft roomId ticket .unknown
  | leaveRoomParticipants roomId ticket chatRoomLeft =>
    cases outcome <;> simp only [resume, leaveChannel] <;>
      exact roomLeft _ _ _
  | leaveAgentTopic topic ticket =>
    cases outcome <;> simp only [resume, leaveChannel] <;>
      exact topicLeft _ _ _
  | drainChatRoom roomId rest | drainRoomParticipants roomId rest
  | drainAgentTopic kind agentId topic rest => cases holds

theorem resume_drain (tracker : Tracker σ τ) (current : σ → Subject → τ → Bool) (names : Topics)
    (m : Manager σ) (call ws : Nat) (outcome : Outcome) (joined topics : List String) (awaiting : Awaiting τ) (drains : awaiting.holdsTicket = false) :
    let next := m.resume tracker current names call ws outcome joined topics awaiting
    Move ws m next.1 ∧ Drained m next := by
  cases awaiting with
  | drainChatRoom roomId rest =>
    cases outcome with
    | returned | raised => exact ⟨.quiet rfl rfl rfl, rfl, rfl, fun _ waits => by cases waits; rfl⟩
    | cancelled => exact ⟨.quiet rfl rfl rfl, rfl, rfl, nofun⟩
  | drainRoomParticipants roomId rest =>
    cases outcome with
    | returned | raised => exact m.drainedRoom_spec ws roomId rest joined topics
    | cancelled => exact ⟨.quiet rfl rfl rfl, rfl, rfl, nofun⟩
  | drainAgentTopic kind agentId topic rest =>
    cases outcome with
    | returned | raised => exact m.drainedAgentTopic_spec ws topic rest joined
    | cancelled => exact ⟨.quiet rfl rfl rfl, rfl, rfl, nofun⟩
  | _ => cases drains

theorem resume_move (documented : Documented tracker current) (m : Manager σ) (call ws : Nat)
    (outcome : Outcome) (joined topics : List String) (awaiting : Awaiting τ) :
    Move ws m (m.resume tracker current names call ws outcome joined topics awaiting).1 := by
  cases holds : awaiting.holdsTicket with
  | true => exact (m.resume_ticket names documented call ws outcome joined topics awaiting holds).1
  | false => exact (m.resume_drain tracker current names call ws outcome joined topics awaiting holds).1

/-- Several moves through one client. -/
abbrev Moves (ws : Nat) : Manager σ → Manager σ → Prop := Relation.ReflTransGen (Move ws)

theorem rejoinFailed_eq (mark : σ → String → τ → Bool × σ) (subject : String → Subject) (ws : Nat)
    (m : Manager σ) (candidate : (String × τ) × Nat) :
    rejoinFailed current mark subject ws m candidate =
      { m with
        subscriptions := (mark m.subscriptions candidate.1.1 candidate.1.2).2
        }.report candidate.2 ws (subject candidate.1.1)
        (current m.subscriptions (subject candidate.1.1) candidate.1.2)
        (mark m.subscriptions candidate.1.1 candidate.1.2).1 :=
  rfl

theorem rejoinFailed_fold_moves {mark : σ → String → τ → Bool × σ} {subject : String → Subject}
    (takes : ∀ t key ticket, current t (subject key) ticket = true → (mark t key ticket).1 = true)
    (ws : Nat) (dropped : List ((String × τ) × Nat)) (m : Manager σ) :
    Moves ws m (dropped.foldl (rejoinFailed current mark subject ws) m) := by
  induction dropped generalizing m with
  | nil => exact .refl
  | cons candidate rest ih =>
    refine .head ?_ (ih _)
    rw [rejoinFailed_eq]
    exact Move.tracked _ (report_move (takes _ _ _))

theorem detect_moves {mark : σ → String → τ → Bool × σ} {subject : String → Subject}
    (takes : ∀ t key ticket, current t (subject key) ticket = true → (mark t key ticket).1 = true)
    (retained : String → Bool) (ws : Nat) (candidates : List (String × τ)) (m : Manager σ) :
    Moves ws m (m.detect current mark subject retained ws candidates) := by
  have listed : Move ws m (m.listCandidates subject retained candidates) := .quiet rfl rfl rfl
  exact .head listed (rejoinFailed_fold_moves takes ws _ _)

theorem detectRejoinFailures_moves (documented : Documented tracker current) (ws : Nat)
    (joined : List String) (m : Manager σ) :
    Moves ws m (m.detectRejoinFailures tracker current names ws joined) :=
  (detect_moves (fun _ _ _ => documented.roomRejoin) _ ws _ m).trans
    (detect_moves (fun _ _ _ => documented.topicRejoin) _ ws _ _)

end Manager

end BandSdk.Platform

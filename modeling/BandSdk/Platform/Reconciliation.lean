/-
# Platform.Reconciliation -- every ticket resolved, every ambiguity blocked

A join is noted only for a subject outside its set, where an ambiguity the log
still owes would have put it (`Blocks`); a call through a client that is no
longer current adds to no set.  With the account of the tickets this is what
every run of the manager keeps.
-/
import BandSdk.Platform.Tickets

namespace BandSdk.Platform

open BandSdk.Theory Option

section Runs

variable {σ τ : Type} {tracker : Tracker σ τ} {current : σ → Subject → τ → Bool} {names : Topics}

/-! ## The block -/

/-- The log owes a drain for `subject`: an outcome was ambiguous, and since then no drain saw the
subject's topics absent and the session did not end. -/
def Unreconciled (log : List Note) (subject : Subject) : Prop :=
  Open (· = .ambiguous subject) (fun note => note = .observedAbsent subject ∨ note = .sessionEnded) log

/-- No join of `subject` began while the log owed a drain for it. -/
def JoinsWait (log : List Note) (subject : Subject) : Prop :=
  Guarded (· = .ambiguous subject) (fun note => note = .observedAbsent subject ∨ note = .sessionEnded)
    (· = .joining subject) log

theorem Unreconciled.snoc {log : List Note} {note : Note} {subject : Subject} :
    Unreconciled (log ++ [note]) subject ↔ note = .ambiguous subject ∨
      Unreconciled log subject ∧ ¬ (note = .observedAbsent subject ∨ note = .sessionEnded) :=
  Open.snoc

theorem JoinsWait.snoc {log : List Note} {note : Note} {subject : Subject}
    (waits : JoinsWait log subject) (allowed : note = .joining subject → ¬ Unreconciled log subject) :
    JoinsWait (log ++ [note]) subject :=
  Guarded.snoc waits allowed

structure Blocks (m : Manager σ) : Prop where
  held : ∀ subject, Unreconciled m.log subject → m.needs subject = true
  joins : ∀ subject, JoinsWait m.log subject

variable {m m' : Manager σ} {ws : Nat}

theorem Blocks.same (blocks : Blocks m) (sets : m'.needs = m.needs) (log : m'.log = m.log) : Blocks m' := by
  refine ⟨fun subject owed => ?_, fun subject => ?_⟩
  · rw [log] at owed
    rw [sets]
    exact blocks.held subject owed
  · rw [log]
    exact blocks.joins subject

theorem Blocks.move (blocks : Blocks m) (moved : m.Move ws m') : Blocks m' := by
  cases moved with
  | quiet sets log => exact blocks.same sets log
  | joins joined free sets log =>
    refine ⟨fun subject owed => ?_, fun subject => ?_⟩
    · rw [log, Unreconciled.snoc] at owed
      rw [sets]
      rcases owed with new | ⟨old, -⟩
      · cases new
      · exact blocks.held subject old
    · rw [log]
      refine (blocks.joins subject).snoc ?_
      intro same owed
      cases same
      rw [blocks.held joined owed] at free
      cases free
  | blocks blocked _ sets log =>
    have kept : ∀ subject, Unreconciled m.log subject → m'.needs subject = true := by
      intro subject owed
      rw [sets, blocks.held subject owed, Bool.or_true]
    rcases log with log | log
    · refine ⟨fun subject owed => ?_, fun subject => ?_⟩
      · rw [log] at owed
        exact kept subject owed
      · rw [log]
        exact blocks.joins subject
    · refine ⟨fun subject owed => ?_, fun subject => ?_⟩
      · rw [log, Unreconciled.snoc] at owed
        rcases owed with new | ⟨old, -⟩
        · cases new
          simp [sets]
        · exact kept subject old
      · rw [log]
        exact (blocks.joins subject).snoc nofun
  | releases released sets log =>
    refine ⟨fun subject owed => ?_, fun subject => ?_⟩
    · rw [log, Unreconciled.snoc] at owed
      rcases owed with new | ⟨old, unseen⟩
      · cases new
      have other : subject ≠ released := fun same => unseen (.inl (by rw [same]))
      rw [sets, blocks.held subject old]
      simp [other]
    · rw [log]
      exact (blocks.joins subject).snoc nofun

theorem Blocks.moves (blocks : Blocks m) (moved : Manager.Moves ws m m') : Blocks m' := by
  induction moved with
  | refl => exact blocks
  | tail _ last ih => exact ih.move last

theorem Manager.Move.foreign (moved : m.Move ws m') (replaced : m.currentWs ≠ some ws) :
    m'.currentWs = m.currentWs ∧ ∀ subject, m'.needs subject = true → m.needs subject = true := by
  cases moved with
  | quiet sets _ same
  | joins _ _ sets _ same => exact ⟨same, fun subject needed => by rwa [sets] at needed⟩
  | blocks _ inSession => exact absurd inSession replaced
  | releases _ sets _ same =>
    refine ⟨same, fun subject needed => ?_⟩
    rw [sets, Bool.and_eq_true] at needed
    exact needed.2

theorem Manager.Moves.foreign (moved : Manager.Moves ws m m') (replaced : m.currentWs ≠ some ws) :
    m'.currentWs = m.currentWs ∧ ∀ subject, m'.needs subject = true → m.needs subject = true := by
  induction moved with
  | refl => exact ⟨rfl, fun _ => id⟩
  | tail _ last ih =>
    obtain ⟨same, fewer⟩ := ih
    obtain ⟨same', fewer'⟩ := last.foreign (by rwa [same])
    exact ⟨same'.trans same, fun subject needed => fewer subject (fewer' subject needed)⟩

/-! ## Runs -/

/-- What a step does to the sets and the log. -/
inductive Effect (m m' : Manager σ) (acting : Option Nat) : Prop where
  | acts (ws : Nat) (through : acting = some ws) (moved : Manager.Moves ws m m')
  | outside (sets : m'.needs = m.needs) (log : m'.log = m.log)
  | ended (sets : ∀ subject, m'.needs subject = false) (log : m'.log = m.log ++ [.sessionEnded])

theorem step_spec (documented : Documented tracker current) {s s' : State σ τ} {e : Event}
    (stepped : step tracker current names s e = some s') :
    Effect s.manager s'.manager (s.actsThrough e) ∧ (Ledger s → Ledger s') := by
  -- a call that was made is parked under a new number
  have begins : ∀ (ws : Nat) (next : Manager σ × Option (Awaiting τ)),
      s.park s.manager.calls ws next = s' → s.actsThrough e = some ws →
      s.manager.Move ws next.1 ∧ Manager.Started s.manager next →
      Effect s.manager s'.manager (s.actsThrough e) ∧ (Ledger s → Ledger s') := by
    rintro ws next rfl through ⟨moved, started⟩
    exact ⟨.acts ws through (.single moved), fun ledger => ledger.started started⟩
  cases e with
  | subscribeRoom ws roomId =>
    exact begins ws _ (some.inj stepped) rfl (s.manager.subscribeRoom_spec tracker ws roomId)
  | subscribeAgentRooms ws agentId =>
    exact begins ws _ (some.inj stepped) rfl
      (s.manager.subscribeAgentTopic_spec tracker ws (names.topic .rooms agentId))
  | subscribeAgentContacts ws agentId =>
    exact begins ws _ (some.inj stepped) rfl
      (s.manager.subscribeAgentTopic_spec tracker ws (names.topic .contacts agentId))
  | unsubscribeRoom ws roomId =>
    exact begins ws _ (some.inj stepped) rfl (s.manager.unsubscribeRoom_spec tracker ws roomId)
  | unsubscribeAgentContacts ws agentId =>
    exact begins ws _ (some.inj stepped) rfl
      (s.manager.leaveAgentTopic_spec tracker ws (names.topic .contacts agentId))
  | drainReconciliation ws rooms topics =>
    obtain ⟨-, stepped⟩ := of_passed stepped
    have ended := some.inj stepped
    subst ended
    refine ⟨.acts ws rfl (.single (.quiet rfl rfl rfl)), fun ledger => ?_⟩
    refine ledger.carry rfl (Nat.le_succ _) (.inr (Nat.lt_succ_self _)) ?_
    rw [ledger.unheld, Option.any_eq_false]
    intro awaiting waits
    simpa using s.manager.drainRooms_holdsNone ws rooms topics awaiting waits
  | detectRejoinFailures ws joined =>
    have ended : { s with
        manager := s.manager.detectRejoinFailures tracker current names ws joined } = s' :=
      some.inj stepped
    subst ended
    refine ⟨.acts ws rfl (Manager.detectRejoinFailures_moves documented ws joined _), ?_⟩
    exact fun ledger => (ledger.detect _).detect _
  | markReconnected | swap ws =>
    have ended := some.inj stepped
    subst ended
    refine ⟨.outside rfl rfl, fun ledger => ?_⟩
    exact ⟨ledger.numbered, ledger.parked, ledger.distinct, ledger.held, ledger.balance⟩
  | resume call outcome joined topics =>
    simp only [step] at stepped
    split at stepped
    · cases stepped
    rename_i ws awaiting running
    obtain ⟨-, stepped⟩ := of_passed stepped
    have ended := some.inj stepped
    subst ended
    refine ⟨.acts ws (by simp [State.actsThrough, running]) (.single ?_), fun ledger => ?_⟩
    · exact s.manager.resume_move documented call ws outcome joined topics awaiting
    · exact ledger.resumed documented running outcome joined topics
  | endSession =>
    have ended := some.inj stepped
    subst ended
    refine ⟨.ended ?_ rfl, fun ledger => ?_⟩
    · intro subject
      cases subject <;> rfl
    · exact ⟨ledger.numbered, ledger.parked, ledger.distinct, ledger.held, ledger.balance⟩

theorem Blocks.effect {acting : Option Nat} (blocks : Blocks m) (effect : Effect m m' acting) : Blocks m' := by
  cases effect with
  | acts ws _ moved => exact blocks.moves moved
  | outside sets log => exact blocks.same sets log
  | ended sets log =>
    refine ⟨fun subject owed => ?_, fun subject => ?_⟩
    · rw [log, Unreconciled.snoc] at owed
      rcases owed with new | ⟨-, unended⟩
      · cases new
      · exact absurd (.inr rfl) unended
    · rw [log]
      exact (blocks.joins subject).snoc nofun

/-- How many more awaits a call has at most. -/
def Awaiting.stages : Awaiting τ → Nat
  | .joinChatRoom .. => 3
  | .joinRoomParticipants .. | .leaveChatRoom .. => 2
  | _ => 1

theorem resume_stages (m : Manager σ) (call ws : Nat) (outcome : Outcome)
    (joined topics : List String) (awaiting next : Awaiting τ) (holds : awaiting.holdsTicket = true)
    (waits : (m.resume tracker current names call ws outcome joined topics awaiting).2 = some next) :
    next.stages < awaiting.stages := by
  cases awaiting with
  | joinChatRoom roomId ticket | joinRoomParticipants roomId ticket =>
    cases outcome <;> simp only [Manager.resume, reduceCtorEq, some.injEq] at waits
    subst waits
    exact Nat.lt_succ_self _
  | leaveChatRoom roomId ticket =>
    cases outcome <;>
      simp only [Manager.resume, Manager.leaveChannel, reduceCtorEq, some.injEq] at waits
    all_goals
      subst waits
      exact Nat.lt_succ_self _
  | rollBackChatRoom | joinAgentTopic | leaveRoomParticipants | leaveAgentTopic =>
    cases outcome <;> cases waits
  | drainChatRoom | drainRoomParticipants | drainAgentTopic => cases holds

theorem Ledger.reachable (documented : Documented tracker current) {s : State σ τ}
    (reached : (machine tracker current names).Reachable s) : Ledger s := by
  refine reached.invariant ?_ fun _ _ _ ledger stepped => (step_spec documented stepped).2 ledger
  rintro s rfl
  exact ⟨nofun, fun _ _ => rfl, List.nodup_nil, nofun, fun _ => rfl⟩

theorem Blocks.reachable (documented : Documented tracker current) {s : State σ τ}
    (reached : (machine tracker current names).Reachable s) : Blocks s.manager := by
  refine reached.invariant (P := fun s => Blocks s.manager) ?_ fun _ _ _ blocks stepped =>
    blocks.effect (step_spec documented stepped).1
  rintro s rfl
  exact ⟨fun _ owed => absurd owed Open.nil, fun _ => Guarded.nil⟩

/-- **Tickets and blocks.**  In every state of every run:

* a join or a leave holds its ticket unresolved while it is in flight and has resolved it once when
  it is over, and each await that ends brings it nearer its end;
* a rejoin candidate's ticket is resolved once if the transport dropped a topic of it, else not;
* a subject whose outcome was ambiguous in the session of its client is blocked, and no join of it
  began, until a drain saw its topics absent or the session ended;
* a subject becomes blocked only by a call through the current client. -/
theorem tickets_resolved_ambiguity_blocked (documented : Documented tracker current) {s : State σ τ}
    (reached : (machine tracker current names).Reachable s) :
    (∀ call subject, .obtained call subject ∈ s.manager.tickets →
      s.manager.tickets.count (.resolved call) = if s.holds call then 0 else 1) ∧
    (∀ call task outcome joined, s.tasks call = some task → task.awaiting.holdsTicket = true →
      ∃ s', step tracker current names s
          (.resume call outcome joined s.manager.agentTopicsNeedingReconciliation) = some s' ∧
        (s'.holds call = false ∨ ∃ task', s'.tasks call = some task' ∧
          task'.awaiting.stages < task.awaiting.stages)) ∧
    (∀ call subject retained, .listed call subject retained ∈ s.manager.tickets →
      s.manager.tickets.count (.resolved call) = if retained then 0 else 1) ∧
    (∀ subject, Unreconciled s.manager.log subject → s.manager.blockedByReconciliation subject = true) ∧
    (∀ subject, JoinsWait s.manager.log subject) ∧
    (∀ e s' subject, step tracker current names s e = some s' → s'.manager.needs subject = true →
      s.manager.needs subject = true ∨ ∃ ws, s.actsThrough e = some ws ∧ s.manager.currentWs = some ws) := by
  have ledger := Ledger.reachable documented reached
  have blocks := Blocks.reachable documented reached
  refine ⟨?_, ?_, ?_, blocks.held, blocks.joins, ?_⟩
  · intro call subject mem
    have owed := ledger.owed_once mem rfl
    have balance := ledger.balance call
    rw [owed] at balance
    cases held : s.holds call <;> simp_all [TicketNote.owes]
  · intro call task outcome joined running holds
    have listed : s.manager.agentTopicsNeedingReconciliation.isPerm
        s.manager.agentTopicsNeedingReconciliation = true := List.isPerm_iff.2 (.refl _)
    refine ⟨s.park call task.ws (s.manager.resume tracker current names call task.ws outcome joined
      s.manager.agentTopicsNeedingReconciliation task.awaiting), ?_, ?_⟩
    · simp only [step, running, listed, if_true]
    cases waits : (s.manager.resume tracker current names call task.ws outcome joined
        s.manager.agentTopicsNeedingReconciliation task.awaiting).2 with
    | none =>
      left
      rw [State.park_holds, if_pos rfl, waits]
      rfl
    | some next =>
      right
      refine ⟨⟨task.ws, next⟩, ?_, resume_stages _ _ _ _ _ _ _ next holds waits⟩
      simp [State.park, waits]
  · intro call subject retained mem
    have owed := ledger.owed_once mem rfl
    have balance := ledger.balance call
    have idle : s.holds call = false := by
      by_contra holds
      obtain ⟨subject', mem'⟩ := ledger.held call (by simpa using holds)
      cases eq_of_nodup_filterMap ledger.distinct mem mem' rfl rfl
    rw [owed, idle] at balance
    cases retained <;> simp_all [TicketNote.owes]
  · intro e s' subject stepped needed
    cases (step_spec documented stepped).1 with
    | acts ws through moved =>
      by_cases inSession : s.manager.currentWs = some ws
      · exact .inr ⟨ws, through, inSession⟩
      · exact .inl ((moved.foreign inSession).2 subject needed)
    | outside sets =>
      rw [sets] at needed
      exact .inl needed
    | ended sets =>
      rw [sets] at needed
      cases needed

end Runs

/-! ## A tracker that keeps a table -/

namespace Table

inductive Status where
  | claimed
  | joined
  | leaving
  | needsReconciliation
  deriving DecidableEq

structure Entry where
  subject : Subject
  ticket : Nat
  status : Status

end Table

/-- The subjects that are not absent, each with its current ticket. -/
structure Table where
  next : Nat := 0
  entries : List Table.Entry := []

namespace Table

variable (t : Table)

def current (subject : Subject) (ticket : Nat) : Bool :=
  t.entries.any fun entry => entry.subject = subject && entry.ticket = ticket

def forget (subject : Subject) : Table :=
  { t with entries := t.entries.filter (·.subject ≠ subject) }

def put (subject : Subject) (ticket : Nat) (status : Status) : Table :=
  { t.forget subject with entries := ⟨subject, ticket, status⟩ :: (t.forget subject).entries }

/-- A report of a stale ticket changes nothing. -/
def settle (subject : Subject) (ticket : Nat) (status : Option Status) : Table :=
  if t.current subject ticket then
    match status with
    | none => t.forget subject
    | some status => t.put subject ticket status
  else t

def begin_ (subject : Subject) : Option Nat × Table :=
  if t.entries.any (·.subject = subject) then (none, t)
  else (some t.next, { t.put subject t.next .claimed with next := t.next + 1 })

def leave (subject : Subject) : Option Nat × Table :=
  if t.entries.any fun entry => entry.subject = subject && entry.status = .joined then
    (some t.next, { t.put subject t.next .leaving with next := t.next + 1 })
  else (none, t)

def left (subject : Subject) (ticket : Nat) : LeaveOutcome → Table
  | .left => t.settle subject ticket none
  | _ => t.settle subject ticket (some .needsReconciliation)

def ambiguous (subject : Subject) (ticket : Nat) : Bool × Table :=
  (t.current subject ticket, t.settle subject ticket (some .needsReconciliation))

def joinedRooms : List (String × Nat) :=
  t.entries.filterMap fun entry =>
    match entry.subject, entry.status with
    | .room roomId, .joined => some (roomId, entry.ticket)
    | _, _ => none

def joinedTopics : List (String × Nat) :=
  t.entries.filterMap fun entry =>
    match entry.subject, entry.status with
    | .agentTopic topic, .joined => some (topic, entry.ticket)
    | _, _ => none

def tracker : Tracker Table Nat where
  new := {}
  beginRoomSubscribe t roomId := t.begin_ (.room roomId)
  recordChatRoomJoinFailed t roomId ticket := t.settle (.room roomId) ticket none
  recordRoomParticipantsJoinFailed t roomId ticket chatRoomLeft :=
    if chatRoomLeft || !t.current (.room roomId) ticket then
      (.other, t.settle (.room roomId) ticket none)
    else (.rollbackFailed, t.settle (.room roomId) ticket (some .needsReconciliation))
  recordBothRoomTopicsJoined t roomId ticket := t.settle (.room roomId) ticket (some .joined)
  beginAgentTopicJoin t topic := t.begin_ (.agentTopic topic)
  recordAgentTopicJoin t topic ticket joined :=
    t.settle (.agentTopic topic) ticket (if joined then some .joined else none)
  recordAgentTopicJoinAmbiguous t topic ticket := t.ambiguous (.agentTopic topic) ticket
  unsubscribeRoom t roomId := t.leave (.room roomId)
  markRoomLeaveComplete t roomId ticket outcome := t.left (.room roomId) ticket outcome
  leaveAgentTopic t topic := t.leave (.agentTopic topic)
  markAgentTopicLeaveComplete t topic ticket outcome := t.left (.agentTopic topic) ticket outcome
  roomRejoinCandidates := joinedRooms
  markRoomRejoinFailed t roomId ticket := t.ambiguous (.room roomId) ticket
  agentTopicRejoinCandidates := joinedTopics
  markAgentTopicRejoinFailed t topic ticket := t.ambiguous (.agentTopic topic) ticket
  onReconnected t := t
  acknowledgeRoomReconciled t roomId := t.forget (.room roomId)
  acknowledgeAgentTopicReconciled t topic := t.forget (.agentTopic topic)
  endSession t := { t with entries := [] }

theorem documented : Documented tracker current where
  roomAmbiguous held := by simp [tracker, held]
  topicAmbiguous held := held
  roomRejoin held := held
  topicRejoin held := held

def names : Topics where
  chatRoomTopic roomId := "chat_room:" ++ roomId
  roomParticipantsTopic roomId := "room_participants:" ++ roomId
  topic
    | .rooms, agentId => "agent_rooms:" ++ agentId
    | .contacts, agentId => "agent_contacts:" ++ agentId
    | .control, agentId => "agent_control:" ++ agentId
  fromWireName
    | "agent_rooms" => some .rooms
    | "agent_contacts" => some .contacts
    | "agent_control" => some .control
    | _ => none

abbrev link : Machine (State Table Nat) Event := machine tracker current names

theorem reaches {events : List Event} {tickets : List TicketNote} {log : List Note}
    (ran : (link.run { manager := { subscriptions := {} } } events).map
      (fun s => (s.manager.tickets, s.manager.log)) = some (tickets, log)) :
    ∃ s, link.Reachable s ∧ s.manager.tickets = tickets ∧ s.manager.log = log := by
  obtain ⟨s, ends, same⟩ := Option.map_eq_some_iff.1 ran
  obtain ⟨hTickets, hLog⟩ := Prod.mk.inj same
  exact ⟨s, ⟨_, rfl, events, ends⟩, hTickets, hLog⟩

end Table

/-- A cancelled join, its drain, a second join, and a rejoin that failed. -/
theorem tickets_resolved_rejoin_failed :
    ∃ s, Table.link.Reachable s ∧ s.manager.tickets.count (.resolved 3) = 1 ∧
      s.manager.blockedByReconciliation (.room "r") = true := by
  have ran : (Table.link.run { manager := { subscriptions := {} } }
      [.swap (some 0), .subscribeRoom 0 "r", .resume 0 .cancelled [] [], .subscribeRoom 0 "r",
        .drainReconciliation 0 ["r"] [], .resume 1 .returned [] [], .resume 1 .raised [] [],
        .subscribeRoom 0 "r", .resume 2 .returned [] [], .resume 2 .returned [] [],
        .markReconnected, .detectRejoinFailures 0 ["chat_room:r"]]).map
      (fun s => (s.manager.tickets, s.manager.log)) = some
        ([.obtained 0 (.room "r"), .resolved 0, .obtained 2 (.room "r"), .resolved 2,
            .listed 3 (.room "r") false, .resolved 3],
          [.joining (.room "r"), .ambiguous (.room "r"), .observedAbsent (.room "r"),
            .joining (.room "r"), .ambiguous (.room "r")]) := by
    decide +kernel
  obtain ⟨s, reached, tickets, log⟩ := Table.reaches ran
  obtain ⟨-, -, listed, blocked, -⟩ := tickets_resolved_ambiguity_blocked Table.documented reached
  refine ⟨s, reached, listed 3 (.room "r") false (by rw [tickets]; simp), blocked (.room "r") ?_⟩
  rw [log]
  have last : Unreconciled (s.manager.log.dropLast ++ [.ambiguous (.room "r")]) (.room "r") :=
    Unreconciled.snoc.2 (.inl rfl)
  simpa [log] using last

/-- A rejoin candidate the transport retains: its ticket is obtained and never resolved. -/
theorem retained_candidate_unresolved :
    ∃ s, Table.link.Reachable s ∧ Documented Table.tracker Table.current ∧
      .listed 1 (.room "r") true ∈ s.manager.tickets ∧
      s.manager.tickets.count (.resolved 1) = 0 := by
  have ran : (Table.link.run { manager := { subscriptions := {} } }
      [.swap (some 0), .subscribeRoom 0 "r", .resume 0 .returned [] [], .resume 0 .returned [] [],
        .markReconnected, .detectRejoinFailures 0 ["chat_room:r", "room_participants:r"]]).map
      (fun s => (s.manager.tickets, s.manager.log)) = some
        ([.obtained 0 (.room "r"), .resolved 0, .listed 1 (.room "r") true], [.joining (.room "r")]) := by
    decide +kernel
  obtain ⟨s, reached, tickets, -⟩ := Table.reaches ran
  exact ⟨s, reached, Table.documented, by rw [tickets]; simp, by rw [tickets]; simp⟩

end BandSdk.Platform

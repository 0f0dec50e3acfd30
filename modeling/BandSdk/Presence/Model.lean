/-
# Presence.Model -- rooms joined and left on one event loop

`RoomPresence` admits rooms from four places -- the fan-out of `start()`, the
event consumer, its reconnect fan-out and the retry tasks -- and leaves them from
the consumer and from `stop()`.  Each is a task that runs from one await to the
next; a resumption names the task and how its await ended.  A cancellation is one
of the ways an await may end, whoever asked for it.

The core roster is a parameter: `Roster` lists the calls made of it, and
`Documented` says what they do to each room's membership.  `log` holds the
callbacks invoked, beside what each completed admission was told.
-/
import BandSdk.Theory.Keyed
import BandSdk.Theory.Machine

namespace BandSdk.Presence

open BandSdk.Theory

/-! ## The core roster -/

inductive RoomMembership where
  | unadmitted
  | admitting (ticket : Nat)
  | admitted
  deriving DecidableEq

structure Reconciliation where
  removed : List String
  admitting : List (String × Nat)
  resync : List String

/-- The calls of `band_sdk_core.RoomRoster`. -/
structure Roster (R : Type) where
  new : R
  roomMembership : R → String → RoomMembership
  beginRoomAdmission : R → String → Option Nat × R
  recordRoomAdmission : R → String → Nat → Bool → Bool × R
  recordRoomRemoved : R → String → Bool × R
  reconcile : R → List String → Reconciliation × R
  trackedRoomIds : R → List String
  clear : R → R

/-- A room has at most one current ticket, and a stale one admits nothing. -/
structure Documented {R : Type} (core : Roster R) : Prop where
  new : ∀ room, core.roomMembership core.new room = .unadmitted
  begin_none : ∀ {c c' room}, core.beginRoomAdmission c room = (none, c') →
    core.roomMembership c' = core.roomMembership c
  begin_some : ∀ {c c' room ticket}, core.beginRoomAdmission c room = (some ticket, c') →
    core.roomMembership c room = .unadmitted ∧
      core.roomMembership c' = Function.update (core.roomMembership c) room (.admitting ticket)
  record_current : ∀ {c room ticket} ok, core.roomMembership c room = .admitting ticket →
    (core.recordRoomAdmission c room ticket ok).1 = ok ∧
      core.roomMembership (core.recordRoomAdmission c room ticket ok).2 =
        Function.update (core.roomMembership c) room (if ok then .admitted else .unadmitted)
  record_stale : ∀ {c room ticket} ok, core.roomMembership c room ≠ .admitting ticket →
    (core.recordRoomAdmission c room ticket ok).1 = false ∧
      core.roomMembership (core.recordRoomAdmission c room ticket ok).2 = core.roomMembership c
  removed : ∀ c room, (core.recordRoomRemoved c room).1 = decide (core.roomMembership c room = .admitted) ∧
      core.roomMembership (core.recordRoomRemoved c room).2 room ≠ .admitted ∧
      ∀ other, other ≠ room → core.roomMembership (core.recordRoomRemoved c room).2 other =
        core.roomMembership c other
  reconcile : ∀ c targets, (core.reconcile c targets).1.removed.Nodup ∧
      (∀ room, room ∈ (core.reconcile c targets).1.removed ↔
        core.roomMembership c room = .admitted ∧ room ∉ targets) ∧
      ∀ room, core.roomMembership (core.reconcile c targets).2 room = .admitted ↔
        core.roomMembership c room = .admitted ∧ room ∈ targets
  tracked : ∀ c, (core.trackedRoomIds c).Nodup ∧
    ∀ room, room ∈ core.trackedRoomIds c ↔ core.roomMembership c room = .admitted
  clear : ∀ c room, core.roomMembership (core.clear c) room = .unadmitted

/-! ## Tasks -/

/-- A claimed room. -/
structure Admission (P : Type) where
  roomId : String
  ticket : Nat
  payload : P

/-- Where `_complete_room_admission` awaits: the subscribe, the unsubscribe after its cancellation,
the unsubscribe of a stale ticket, and the callback. -/
inductive AdmissionPhase where
  | fresh
  | subscribing
  | undoing
  | dropping
  | announcing

/-- Where `_leave_one_room` awaits; a child of a gather has not run at first. -/
inductive LeavePhase where
  | fresh
  | unsubscribing
  | announcing

inductive RetryPhase (P : Type) where
  | fresh
  | sleeping
  | admitting (admission : Admission P) (phase : AdmissionPhase)

inductive StartPhase where
  | locking
  | connecting
  | subscribing
  | listing
  | joining (children : List Nat)

inductive StopPhase where
  | locking
  | consumer (task : Nat)
  | retries (tasks : List Nat)
  | leaving (children : List Nat)

/-- The consumer: waiting for an event, or inside one of its handlers. -/
inductive ConsumePhase (P : Type) where
  | waiting
  | adding (admission : Admission P) (phase : AdmissionPhase)
  | cancelling (roomId : String) (tasks : List Nat)
  | unsubscribing (roomId : String)
  | announcingLeft
  | listing
  | leaving (children : List Nat) (admitting : List (Admission P)) (resync : List String)
  | admitting (children : List Nat) (resync : List String)
  | resyncing (rest : List String)
  | reconnected (ends : Bool)
  | notifying

inductive Body (P : Type) where
  | start (phase : StartPhase)
  | consume (phase : ConsumePhase P)
  | retry (roomId : String) (payload : P) (delays : Nat) (phase : RetryPhase P)
  | join (roomId : String) (payload : P)
  | completing (admission : Admission P) (phase : AdmissionPhase)
  | leave (roomId : String) (phase : LeavePhase)
  | stop (phase : StopPhase)

/-- `room_removed` and `room_deleted` are one; `other` is every event only forwarded. -/
inductive PlatformEvent (P : Type) where
  | roomAdded (roomId : String) (payload : Option P)
  | roomLeft (roomId : String)
  | reconnected
  | other (roomId : Option String)

/-- How an await ended; a subscribe that returned is asked whether it took. -/
inductive Input (P : Type) where
  | returned
  | raised
  | cancelled
  | subscribed (taken : Bool)
  | event (event : PlatformEvent P)
  | rooms (listing : List (String × P))

/-- The callbacks invoked.  `subscribed` is a subscribe that took, with the roster's answer for its
ticket; `unsubscribing` is the unsubscribe of a stale one. -/
inductive Note where
  | subscribed (roomId : String) (ticket : Nat) (admitted : Bool)
  | joined (roomId : String) (ticket : Nat)
  | unsubscribing (roomId : String) (ticket : Nat)
  | left (roomId : String)

structure RoomPresence (R P : Type) where
  roster : R
  starting : Bool := false
  eventTask : Option Nat := none
  joinRetries : List (String × Nat) := []
  lifecycleLock : Bool := false
  tasks : Nat → Option (Body P) := fun _ => none
  made : Nat := 0
  log : List Note := []

/-- The constructor's arguments; without a filter every room passes. -/
structure Config (P : Type) where
  roomFilter : P → Bool
  autoSubscribeExisting : Bool

/-- `len(JOIN_RETRY_DELAYS_S)`. -/
def joinRetryDelays : Nat := 5

namespace RoomPresence

variable {R P : Type} (core : Roster R) (config : Config P)

def isOver (p : RoomPresence R P) (task : Nat) : Bool := (p.tasks task).isNone

def running (p : RoomPresence R P) : Bool := p.starting || p.eventTask.any fun task => !p.isOver task

def admits (p : RoomPresence R P) (roomId : String) : Bool :=
  core.roomMembership p.roster roomId = .admitted

def note (entry : Note) (p : RoomPresence R P) : RoomPresence R P := { p with log := p.log ++ [entry] }

def setTask (task : Nat) (body : Option (Body P)) (p : RoomPresence R P) : RoomPresence R P :=
  { p with tasks := Function.update p.tasks task body }

/-- `asyncio.create_task`. -/
def spawn (body : Body P) (p : RoomPresence R P) : RoomPresence R P :=
  { p.setTask p.made (some body) with made := p.made + 1 }

/-- The children of a gather, in order. -/
def spawnAll (bodies : List (Body P)) (p : RoomPresence R P) : RoomPresence R P :=
  bodies.foldl (fun p body => p.spawn body) p

/-- The numbers `spawnAll` gives its children. -/
def children (p : RoomPresence R P) (bodies : List (Body P)) : List Nat := List.range' p.made bodies.length

/-! ### Admissions -/

def retryJoinLater (roomId : String) (payload : P) (p : RoomPresence R P) : RoomPresence R P :=
  if p.running && !(p.joinRetries.map Prod.fst).contains roomId then
    { p.spawn (.retry roomId payload joinRetryDelays .fresh) with
      joinRetries := p.joinRetries ++ [(roomId, p.made)] }
  else p

def recordFailed (admission : Admission P) (p : RoomPresence R P) : RoomPresence R P :=
  { p with roster := (core.recordRoomAdmission p.roster admission.roomId admission.ticket false).2 }

/-- How far an admission came: it awaits again, returned, or is being unwound. -/
inductive Progress where
  | awaits (phase : AdmissionPhase)
  | ended (joined : Bool)
  | unwound

def completeRoomAdmission (admission : Admission P) (phase : AdmissionPhase) (input : Input P)
    (p : RoomPresence R P) : Option (RoomPresence R P × Progress) :=
  match phase, input with
  | .fresh, .returned => some (p, .awaits .subscribing)
  | .fresh, .cancelled => some (p, .unwound)
  | .subscribing, .subscribed true =>
    let (admitted, roster) :=
      core.recordRoomAdmission p.roster admission.roomId admission.ticket true
    let p := { p with roster := roster }.note
      (.subscribed admission.roomId admission.ticket admitted)
    if admitted then
      some (p.note (.joined admission.roomId admission.ticket), .awaits .announcing)
    else some (p.note (.unsubscribing admission.roomId admission.ticket), .awaits .dropping)
  | .subscribing, .subscribed false | .subscribing, .raised =>
    some ((p.recordFailed core admission).retryJoinLater admission.roomId admission.payload, .ended false)
  | .subscribing, .cancelled => some (p, .awaits .undoing)
  | .undoing, .returned | .undoing, .raised | .undoing, .cancelled =>
    some (p.recordFailed core admission, .unwound)
  | .dropping, .returned | .dropping, .raised => some (p, .ended false)
  | .dropping, .cancelled => some (p, .unwound)
  | .announcing, .returned | .announcing, .raised => some (p, .ended true)
  | .announcing, .cancelled => some (p, .unwound)
  | _, _ => none

/-- The claim of `_join_room` and `_retry_join`. -/
def beginAdmission (roomId : String) (payload : P) (p : RoomPresence R P) :
    RoomPresence R P × Option (Admission P) :=
  let (ticket, roster) := core.beginRoomAdmission p.roster roomId
  ({ p with roster := roster }, ticket.map fun ticket => ⟨roomId, ticket, payload⟩)

/-! ### The retry task -/

def popRetry (roomId : String) (p : RoomPresence R P) : RoomPresence R P :=
  { p with joinRetries := p.joinRetries.filter (·.1 ≠ roomId) }

/-- A task cancelled before it first ran leaves its entry. -/
def retryJoin (roomId : String) (payload : P) (delays : Nat) (phase : RetryPhase P)
    (input : Input P) (p : RoomPresence R P) : Option (RoomPresence R P × Option (Body P)) :=
  match phase, input with
  | .fresh, .returned => some (p, some (.retry roomId payload delays .sleeping))
  | .fresh, .cancelled => some (p, none)
  | .sleeping, .returned =>
    match p.beginAdmission core roomId payload with
    | (p, none) => some (p.popRetry roomId, none)
    | (p, some admission) =>
      some (p, some (.retry roomId payload delays (.admitting admission .subscribing)))
  | .sleeping, .cancelled => some (p.popRetry roomId, none)
  | .admitting admission phase, input =>
    (p.completeRoomAdmission core admission phase input).map fun
      | (p, .awaits phase) =>
        (p, some (.retry roomId payload delays (.admitting admission phase)))
      | (p, .ended true) | (p, .unwound) => (p.popRetry roomId, none)
      | (p, .ended false) =>
        if delays ≤ 1 then (p.popRetry roomId, none)
        else (p, some (.retry roomId payload (delays - 1) .sleeping))
  | _, _ => none

/-! ### Leaves -/

def leaveOneRoom (roomId : String) (phase : LeavePhase) (input : Input P) (p : RoomPresence R P) :
    Option (RoomPresence R P × Option (Body P)) :=
  match phase, input with
  | .fresh, .returned => some (p, some (.leave roomId .unsubscribing))
  | .unsubscribing, .returned | .unsubscribing, .raised =>
    some (p.note (.left roomId), some (.leave roomId .announcing))
  | .fresh, .cancelled | .unsubscribing, .cancelled => some (p, none)
  | .announcing, .returned | .announcing, .raised | .announcing, .cancelled => some (p, none)
  | _, _ => none

def leaves (rooms : List String) : List (Body P) := rooms.map fun room => .leave room .fresh

/-! ### The consumer -/

/-- The rooms of the API the filter accepts, by id. -/
def existingRooms (listing : List (String × P)) : List (String × P) :=
  (listing.filter fun room => config.roomFilter room.2).foldl
    (fun rooms room => Keyed.setItem room.1 room.2 rooms) []

def reconcileTargetRoomIds (rooms : List (String × P)) (p : RoomPresence R P) : List String :=
  if config.autoSubscribeExisting then rooms.map Prod.fst
  else (rooms.map Prod.fst).filter fun room => room ∈ core.trackedRoomIds p.roster

def notifyResync : List String → ConsumePhase P
  | [] => .reconnected false
  | _ :: rest => .resyncing rest

def admitReconciledRooms (admitting : List (Admission P)) (resync : List String)
    (p : RoomPresence R P) : RoomPresence R P × ConsumePhase P :=
  if admitting.isEmpty then (p, notifyResync resync)
  else
    let bodies := admitting.map fun admission => Body.completing admission .fresh
    (p.spawnAll bodies, .admitting (p.children bodies) resync)

def leaveRemovedRooms (removed : List String) (admitting : List (Admission P))
    (resync : List String) (p : RoomPresence R P) : RoomPresence R P × ConsumePhase P :=
  if removed.isEmpty then p.admitReconciledRooms admitting resync
  else (p.spawnAll (leaves removed), .leaving (p.children (leaves (P := P) removed)) admitting resync)

/-- The reconnect handler once the listing is there. -/
def reconcile (listing : List (String × P)) (p : RoomPresence R P) : RoomPresence R P × ConsumePhase P :=
  let rooms := existingRooms config listing
  let (reconciliation, roster) := core.reconcile p.roster (p.reconcileTargetRoomIds core config rooms)
  let admitting := reconciliation.admitting.filterMap fun (room, ticket) =>
    (Keyed.get room rooms).map fun payload => Admission.mk room ticket payload
  leaveRemovedRooms reconciliation.removed admitting reconciliation.resync { p with roster := roster }

def handleRoomAdded (roomId : String) (payload : Option P) (p : RoomPresence R P) :
    RoomPresence R P × ConsumePhase P :=
  match payload with
  | none => (p, .waiting)
  | some payload =>
    if roomId = "" || !config.roomFilter payload then (p, .waiting)
    else
      match p.beginAdmission core roomId payload with
      | (p, none) => (p, .waiting)
      | (p, some admission) => (p, .adding admission .subscribing)

/-- The retries of `_cancel_join_retries`. -/
def retriesOf (p : RoomPresence R P) (roomId : String) : List Nat :=
  (Keyed.get roomId p.joinRetries).toList

def onPlatformEvent (event : PlatformEvent P) (p : RoomPresence R P) : RoomPresence R P × ConsumePhase P :=
  match event with
  | .roomAdded roomId payload => p.handleRoomAdded core config roomId payload
  | .roomLeft roomId =>
    (p, if roomId = "" then .waiting else .cancelling roomId (p.retriesOf roomId))
  | .reconnected => (p, .listing)
  | .other (some roomId) => (p, if p.admits core roomId then .notifying else .waiting)
  | .other none => (p, .notifying)

/-- `_handle_room_left` after its unsubscribe. -/
def roomRemoved (roomId : String) (p : RoomPresence R P) : RoomPresence R P × ConsumePhase P :=
  let (removed, roster) := core.recordRoomRemoved p.roster roomId
  let p := { p with roster := roster }
  if removed then (p.note (.left roomId), .announcingLeft) else (p, .waiting)

def consumeEvents (phase : ConsumePhase P) (input : Input P) (p : RoomPresence R P) :
    Option (RoomPresence R P × Option (ConsumePhase P)) :=
  match phase, input with
  | .waiting, .event event => some ((p.onPlatformEvent core config event).map id some)
  | .waiting, .raised | .waiting, .cancelled => some (p, none)
  | .adding admission phase, input =>
    (p.completeRoomAdmission core admission phase input).map fun
      | (p, .awaits phase) => (p, some (.adding admission phase))
      | (p, .ended _) => (p, some .waiting)
      | (p, .unwound) => (p, none)
  | .cancelling roomId tasks, .returned =>
    if tasks.all p.isOver then some (p, some (.unsubscribing roomId)) else none
  | .cancelling .., .cancelled => some (p, none)
  | .unsubscribing roomId, .returned => some ((p.roomRemoved core roomId).map id some)
  | .unsubscribing _, .raised | .unsubscribing _, .cancelled => some (p, none)
  | .announcingLeft, .returned | .announcingLeft, .raised => some (p, some .waiting)
  | .announcingLeft, .cancelled => some (p, none)
  | .listing, .rooms listing => some ((p.reconcile core config listing).map id some)
  | .listing, .raised => some (p, some (.reconnected false))
  | .listing, .cancelled => some (p, some (.reconnected true))
  | .leaving children admitting resync, .returned =>
    if children.all p.isOver then some ((p.admitReconciledRooms admitting resync).map id some)
    else none
  | .leaving .., .cancelled => some (p, some (.reconnected true))
  | .admitting children resync, .returned =>
    if children.all p.isOver then some (p, some (notifyResync resync)) else none
  | .admitting .., .cancelled => some (p, some (.reconnected true))
  | .resyncing rest, .returned | .resyncing rest, .raised => some (p, some (notifyResync rest))
  | .resyncing _, .cancelled => some (p, some (.reconnected true))
  | .reconnected ends, .returned | .reconnected ends, .raised =>
    some (p, if ends then none else some .waiting)
  | .reconnected _, .cancelled => some (p, none)
  | .notifying, .returned | .notifying, .raised => some (p, some .waiting)
  | .notifying, .cancelled => some (p, none)
  | _, _ => none

/-! ### `start()` and `stop()` -/

/-- `start()` left by an exception. -/
def startFailed (p : RoomPresence R P) : RoomPresence R P :=
  { p with lifecycleLock := false, starting := false }

def started (p : RoomPresence R P) : RoomPresence R P :=
  { p.spawn (.consume .waiting) with
    eventTask := some p.made, lifecycleLock := false, starting := false }

/-- The fan-out over the rooms of the listing that are not admitted yet. -/
def subscribeRooms (rooms : List (String × P)) (p : RoomPresence R P) : RoomPresence R P × Option StartPhase :=
  let newRooms := rooms.filter fun room => !p.admits core room.1
  if newRooms.isEmpty then (p.started, none)
  else
    let bodies := newRooms.map fun room => Body.join room.1 room.2
    (p.spawnAll bodies, some (.joining (p.children bodies)))

/-- A link that is connected already returns from `connecting` at once. -/
def start (phase : StartPhase) (input : Input P) (p : RoomPresence R P) :
    Option (RoomPresence R P × Option StartPhase) :=
  match phase, input with
  | .locking, .returned =>
    if p.lifecycleLock then none else some ({ p with lifecycleLock := true }, some .connecting)
  | .locking, .cancelled => some ({ p with starting := false }, none)
  | .connecting, .returned => some (p, some .subscribing)
  | .subscribing, .returned =>
    some (if config.autoSubscribeExisting then (p, some .listing) else (p.started, none))
  | .connecting, .raised | .connecting, .cancelled | .subscribing, .raised
  | .subscribing, .cancelled | .listing, .cancelled | .joining _, .cancelled =>
    some (p.startFailed, none)
  | .listing, .rooms listing => some (p.subscribeRooms core (existingRooms config listing))
  | .listing, .raised => some (p.started, none)
  | .joining children, .returned => if children.all p.isOver then some (p.started, none) else none
  | _, _ => none

def unlocked (p : RoomPresence R P) : RoomPresence R P := { p with lifecycleLock := false }

def cancelJoinRetries (p : RoomPresence R P) : RoomPresence R P × Option StopPhase :=
  (p, some (.retries (p.joinRetries.map Prod.snd)))

/-- The roster is cleared, and the rooms it had admitted are left. -/
def leaveAll (p : RoomPresence R P) : RoomPresence R P × Option StopPhase :=
  let admitted := core.trackedRoomIds p.roster
  let p := { p with roster := core.clear p.roster }
  if admitted.isEmpty then (p.unlocked, none)
  else (p.spawnAll (leaves admitted), some (.leaving (p.children (leaves (P := P) admitted))))

/-- `stop()` swallows a cancellation while it awaits the consumer. -/
def stop (phase : StopPhase) (input : Input P) (p : RoomPresence R P) :
    Option (RoomPresence R P × Option StopPhase) :=
  match phase, input with
  | .locking, .returned =>
    if p.lifecycleLock then none
    else
      let p := { p with lifecycleLock := true }
      match p.eventTask with
      | none => some p.cancelJoinRetries
      | some task => some (if p.isOver task then p.cancelJoinRetries else (p, some (.consumer task)))
  | .locking, .cancelled => some (p, none)
  | .consumer task, .returned =>
    if p.isOver task then some { p with eventTask := none }.cancelJoinRetries else none
  | .consumer _, .cancelled => some { p with eventTask := none }.cancelJoinRetries
  | .retries tasks, .returned => if tasks.all p.isOver then some (p.leaveAll core) else none
  | .leaving children, .returned => if children.all p.isOver then some (p.unlocked, none) else none
  | .retries _, .cancelled | .leaving _, .cancelled => some (p.unlocked, none)
  | _, _ => none

/-! ### One resumption -/

def resume (body : Body P) (input : Input P) (p : RoomPresence R P) :
    Option (RoomPresence R P × Option (Body P)) :=
  match body with
  | .start phase => (p.start core config phase input).map fun (p, next) => (p, next.map .start)
  | .consume phase =>
    (p.consumeEvents core config phase input).map fun (p, next) => (p, next.map .consume)
  | .retry roomId payload delays phase => p.retryJoin core roomId payload delays phase input
  | .join roomId payload =>
    match input with
    | .returned =>
      let (p, admission) := p.beginAdmission core roomId payload
      some (p, admission.map fun admission => .completing admission .subscribing)
    | .cancelled => some (p, none)
    | _ => none
  | .completing admission phase =>
    (p.completeRoomAdmission core admission phase input).map fun
      | (p, .awaits phase) => (p, some (.completing admission phase))
      | (p, _) => (p, none)
  | .leave roomId phase => p.leaveOneRoom roomId phase input
  | .stop phase => (p.stop core phase input).map fun (p, next) => (p, next.map .stop)

end RoomPresence

/-! ## The machine -/

inductive Event (P : Type) where
  | start
  | stop
  | resume (task : Nat) (input : Input P)

variable {R P : Type} (core : Roster R) (config : Config P)

/-- A second `start()` raises. -/
def step (p : RoomPresence R P) : Event P → Option (RoomPresence R P)
  | .start => some (if p.running then p else { p.spawn (.start .locking) with starting := true })
  | .stop => some (p.spawn (.stop .locking))
  | .resume task input =>
    match p.tasks task with
    | none => none
    | some body =>
      (p.resume core config body input).map fun (p, next) => p.setTask task next

def machine : Machine (RoomPresence R P) (Event P) where
  init p := p = { roster := core.new }
  step := step core config

end BandSdk.Presence

/-
# ClaudeSdk.Streams -- one reader of the CLI, and the turns that listen to it

A room's session keeps one CLI for each residency of its `RetainedRoom`, and one reader for
each CLI, from connect to disconnect.  The reader outlives the turns: it hands each message
to the stream that listens when it arrives, if its residency may still finish work.  A turn
leases the room, opens its stream, sends its query and reads up to its `ResultMessage`; every
other way out of `_converse` goes through one of its except clauses, or through the drain of
a turn that ran out of time.

The room is the one of `Retention.Owner`, at index `room` of the retention, and every step of
the retention may fall between two steps of the turn, recoveries asked for by other code
among them.  A turn runs from one await to the next; `resume` says how the await ended.  A
message carries the query the CLI emitted it for, and `queries`, `yielded`, `completions` and
`ended` record what happened; no code reads them.

Left out: session ids and what becomes of them after a crash, the seeding of a conversation
(`unseeded` is `session.seed.replay_due` as the turn leaves), activity reports and approvals.
-/
import BandSdk.Retention.Owner

namespace BandSdk.ClaudeSdk

open BandSdk.Theory BandSdk.Retention

/-! ## The CLI and its reader -/

inductive MessageKind where
  | plain
  | result (isError : Bool)
  deriving DecidableEq

/-- A message of the CLI's output, and the query it answers. -/
structure Message where
  query : Nat
  kind : MessageKind
  deriving DecidableEq

def MessageKind.isResult : MessageKind → Bool
  | .plain => false
  | .result _ => true

def Message.isResult (message : Message) : Bool := message.kind.isResult

/-- An exception by the clause of `_converse` that takes it: a failure already reported
(`TurnResultAlreadyReported`, `TerminalProviderFailure`), a failed delivery
(`DeliveryFailedError`), a dead CLI (`CLIConnectionError`), anything else. -/
inductive TurnError where
  | reported
  | delivery
  | connection (text : String)
  | other (text : String)

namespace TurnError

def text : TurnError → String
  | .connection text | .other text => text
  | _ => ""

/-- What the SDK, the CLI and a message's own dispatch raise: reports and deliveries are made
only once the turn's result was read. -/
def foreign : TurnError → Bool
  | .connection _ | .other _ => true
  | _ => false

end TurnError

/-- The CLI's only reader: awaiting the next message, reporting one to the session's activity,
or done. -/
inductive Reader where
  | receiving
  | observing (message : Message)
  | ended
  deriving DecidableEq

/-- The CLI of one residency: the queries it has still to answer, in the order they were
sent, and what it emitted that its reader has not received. -/
structure Cli where
  owed : List Nat := []
  output : List Message := []
  reader : Reader := .receiving

namespace Cli

variable (cli : Cli)

/-- Emit one message for the oldest query; a `ResultMessage` is the last of its answer. -/
def emit (kind : MessageKind) : Option Cli :=
  match cli.owed with
  | [] => none
  | query :: rest => some { cli with
      output := cli.output ++ [⟨query, kind⟩]
      owed := if kind.isResult then rest else query :: rest }

def receive : Option Cli :=
  match cli.reader, cli.output with
  | .receiving, message :: rest => some { cli with output := rest, reader := .observing message }
  | _, _ => none

end Cli

/-! ## Turns -/

inductive StreamItem where
  | message (message : Message)
  | streamEnd (error : Option TurnError)

/-- One turn's share of its room's single CLI reader. -/
structure TurnStream where
  messages : List StreamItem := []
  completed : Bool := false

namespace TurnStream

variable (stream : TurnStream)

def deliver (message : Message) : TurnStream :=
  { messages := stream.messages ++ [.message message]
    completed := stream.completed || message.isResult }

/-- `TurnStream.end`. -/
def finish (error : Option TurnError) : TurnStream :=
  { stream with messages := stream.messages ++ [.streamEnd error] }

end TurnStream

/-- The await a turn is suspended at: `_turn_lease`, `_seeded_prompt`, `client.query`, the
stream's next item, a message's narration, `_on_turn_complete`, `client.interrupt`, the drain,
the timeout's report, `_fail_turn`'s report, and the way out of the lease. -/
inductive TurnPoint where
  | entering
  | seeding
  | querying
  | reading
  | dispatching
  | completing
  | interrupting
  | draining
  | reporting
  | failing
  | leaving
  deriving DecidableEq

structure Turn where
  id : Nat
  /-- Its `use()` of the room. -/
  use : Nat
  point : TurnPoint := .entering
  /-- The residency whose client it leased. -/
  client : Option Nat := none
  opened : Bool := false
  queried : Bool := false
  resulted : Bool := false

/-- How a turn's await ended; `expired` is its own time limit, or its drain's. -/
inductive AwaitEnd where
  | returned
  | raised (error : TurnError)
  | expired
  | cancelled

structure ClaudeRoomSession where
  world : RoomRetention
  clis : Nat → Cli := fun _ => {}
  /-- `_turn`: the stream that listens. -/
  stream : Option TurnStream := none
  turn : Option Turn := none
  admitted : Nat := 0
  ended : List Turn := []
  yielded : List (Nat × Message) := []
  completions : List (Nat × Message) := []

inductive SessionEvent where
  | retention (event : RetentionEvent)
  | admitTurn (holder : TaskId)
  | emit (generation : Nat) (kind : MessageKind)
  | receive (generation : Nat)
  | observed (generation : Nat)
  | readEnded (generation : Nat) (error : Option TurnError)
  | written
  | refuse
  | resume (ended : AwaitEnd) (unseeded complete : Bool)
  | leave (outcome : Outcome)

namespace ClaudeRoomSession

variable (room : Nat) (s : ClaudeRoomSession)

def setCli (generation : Nat) (cli : Cli) : ClaudeRoomSession :=
  { s with clis := Function.update s.clis generation cli }

@[simp] theorem clis_setCli_self (generation : Nat) (cli : Cli) :
    (s.setCli generation cli).clis generation = cli :=
  Function.update_self ..

theorem clis_setCli_of_ne {generation other : Nat} (cli : Cli) (ne : other ≠ generation) :
    (s.setCli generation cli).clis other = s.clis other :=
  Function.update_of_ne ne ..

/-! ## The room underneath -/

def mayFinish (generation : Nat) : Bool :=
  s.world.rooms[room]?.any (·.mayFinish s.world.view generation)

/-- `_listener`. -/
def listener (generation : Nat) : Option TurnStream :=
  s.stream.filter fun stream => !stream.completed && s.mayFinish room generation

/-- The turn's task is past its lease. -/
def depart (turn : Turn) : ClaudeRoomSession :=
  { s with turn := none, ended := s.ended ++ [turn] }

/-- A turn waiting in `_turn_lease` goes on in the step that starts or ends its `use()`. -/
def arrive : ClaudeRoomSession :=
  match s.turn, s.world.rooms[room]? with
  | some turn, some r =>
    if turn.point = .entering then
      match (r.uses[turn.use]?).map Use.phase with
      | some .body =>
        { s with turn := some { turn with point := .seeding, client := some r.generation } }
      | some (.ended _) => s.depart turn
      | _ => s
    else s
  | _, _ => s

def moved (world : RoomRetention) : ClaudeRoomSession :=
  arrive room { s with world := world }

/-- `_retire`. -/
def retire (generation : Nat) (reason : String) : ClaudeRoomSession :=
  match s.world.step (.room room (.recover generation reason)) with
  | some world => s.moved room world
  | none => s

/-- Retire the resident CLI through the room's owner. -/
def recover (reason : String) : ClaudeRoomSession :=
  match s.world.rooms[room]? with
  | some r => s.retire room r.generation reason
  | none => s

/-! ## The reader -/

/-- `_read` goes on once the message was observed: deliver it, or drop it. -/
def observed (generation : Nat) : Option ClaudeRoomSession :=
  match (s.clis generation).reader with
  | .observing message =>
    let s := s.setCli generation { s.clis generation with reader := .receiving }
    some (match s.listener room generation with
      | some stream => { s with stream := some (stream.deliver message) }
      | none => s)
  | _ => none

/-- The CLI's output ended, or reading it failed, in the SDK or in the session's activity. -/
def readEnded (generation : Nat) (error : Option TurnError) : Option ClaudeRoomSession :=
  if (s.clis generation).reader = .ended ∨ error.any (!·.foreign) then none
  else
    let s := s.setCli generation { s.clis generation with reader := .ended }
    some (match s.listener room generation with
      | some stream => { s with stream := some (stream.finish error) }
      | none => s.retire room generation ("CLI output ended outside a turn" ++
          (error.map fun error => ": " ++ error.text).getD ""))

/-! ## `_converse` -/

def go (turn : Turn) (point : TurnPoint) : ClaudeRoomSession :=
  { s with turn := some { turn with point := point } }

def close : ClaudeRoomSession := { s with stream := none }

/-- Out of `_converse`: a conversation still owed its seed is retired. -/
def leaveConverse (turn : Turn) (unseeded : Bool) : ClaudeRoomSession :=
  (if unseeded then s.recover room "Turn left its session unseeded" else s).go turn .leaving

/-- `_fail_turn`, up to its report. -/
def failTurn (turn : Turn) (reason : String) : ClaudeRoomSession :=
  (s.recover room reason).go turn .failing

/-- An exception leaves the stream's `with` and meets the clauses of `_converse`. -/
def raised (turn : Turn) (unseeded : Bool) : TurnError → ClaudeRoomSession
  | .reported | .delivery => s.close.leaveConverse room turn unseeded
  | .connection text => s.close.failTurn room turn ("CLI process terminated: " ++ text)
  | .other _ => s.close.failTurn room turn "Turn failed before its result"

def cancelled (turn : Turn) (unseeded : Bool) : ClaudeRoomSession :=
  (s.close.recover room "Turn cancelled before its result").leaveConverse room turn unseeded

/-- `with session.listening()`, then `client.query`. -/
def listen (turn : Turn) : ClaudeRoomSession :=
  match s.stream with
  | some _ => s.failTurn room turn "Turn failed before its result"
  | none => { s with
      stream := some {}
      turn := some { turn with point := .querying, opened := true } }

def streamEndedWithoutResultError : String :=
  "Claude SDK turn ended without a result: the CLI process exited or its output stream " ++
    "closed before this turn completed."

/-- One item of `until_result`, as `_process_response` handles it. -/
def readNext (turn : Turn) (unseeded complete : Bool) (stream : TurnStream) : Option ClaudeRoomSession :=
  match stream.messages with
  | [] => none
  | .message message :: rest =>
    let s := { s with
      stream := some { stream with messages := rest }
      yielded := s.yielded ++ [(turn.id, message)] }
    some (if message.isResult then { s with
        completions := s.completions ++ [(turn.id, message)]
        turn := some { turn with point := .completing, resulted := true } }
      else s.go turn .dispatching)
  | .streamEnd (some error) :: _ => some (s.raised room turn unseeded error)
  | .streamEnd none :: _ =>
    -- a turn that already answered is done; only its session is dropped
    some (if complete then
        (s.close.recover room "CLI stream ended after the turn").leaveConverse room turn unseeded
      else s.raised room turn unseeded (.connection streamEndedWithoutResultError))

/-- The except clauses of `_abandon_timed_out_turn`. -/
def undrained (turn : Turn) : TurnError → ClaudeRoomSession
  | .connection _ => (s.recover room "Timed-out turn's CLI is gone").go turn .reporting
  | _ => (s.recover room "Timed-out turn did not stop").go turn .reporting

/-- The drain ran to the end of `until_result`. -/
def drained (turn : Turn) (stream : TurnStream) : ClaudeRoomSession :=
  if stream.completed then s.go turn .reporting
  else s.undrained room turn (.connection streamEndedWithoutResultError)

/-- One item of `until_result`, as the drain passes over it. -/
def drainNext (turn : Turn) (stream : TurnStream) : Option ClaudeRoomSession :=
  match stream.messages with
  | [] => none
  | .message message :: rest =>
    let s := { s with
      stream := some { stream with messages := rest }
      yielded := s.yielded ++ [(turn.id, message)] }
    some (if message.isResult then s.drained room { turn with resulted := true } stream
      else s.go turn .draining)
  | .streamEnd error :: rest =>
    let s := { s with stream := some { stream with messages := rest ++ [StreamItem.streamEnd error] } }
    some (match error with
      | some error => s.undrained room turn error
      | none => s.drained room turn stream)

/-- One loop step of the turn, from the await it is at. -/
def resumeTurn (turn : Turn) (ended : AwaitEnd) (unseeded complete : Bool) : Option ClaudeRoomSession :=
  match turn.point, ended with
  | .entering, _ | .leaving, _ | .seeding, .expired | .reporting, .expired | .failing, .expired =>
    none
  -- before `_converse` nothing was sent, and nothing is retired
  | .seeding, .raised _ | .seeding, .cancelled => some (s.go turn .leaving)
  | .seeding, .returned => some (s.listen room turn)
  | .querying, .returned | .dispatching, .returned => some (s.go turn .reading)
  | .reading, .returned => s.stream.bind (s.readNext room turn unseeded complete)
  | .completing, .returned => some (s.close.leaveConverse room turn unseeded)
  -- a provider failure that revokes the turn is raised at whatever it awaits
  | .querying, .raised error | .reading, .raised error | .dispatching, .raised error =>
    if error.foreign then some (s.raised room turn unseeded error) else none
  | .completing, .raised error | .reporting, .raised error =>
    some (s.raised room turn unseeded error)
  | .querying, .expired | .reading, .expired | .dispatching, .expired | .completing, .expired =>
    some (s.go turn .interrupting)
  | .interrupting, .returned => some (s.go turn .draining)
  | .interrupting, .raised error | .draining, .raised error => some (s.undrained room turn error)
  | .interrupting, .expired | .draining, .expired =>
    some (s.undrained room turn (.other "TimeoutError"))
  | .draining, .returned => s.stream.bind (s.drainNext room turn)
  | .reporting, .returned => some (s.raised room turn unseeded .reported)
  | .failing, _ => some (s.leaveConverse room turn unseeded)
  | .querying, .cancelled | .reading, .cancelled | .dispatching, .cancelled
  | .completing, .cancelled | .interrupting, .cancelled | .draining, .cancelled
  | .reporting, .cancelled => some (s.cancelled room turn unseeded)

/-! ## Steps -/

/-- The turn ends its own lease, and only as it leaves. -/
def endsLease : RetentionEvent → Bool
  | .room i (.bodyEnded u _) => i == room && s.turn.any (·.use == u)
  | _ => false

/-- `_admit_turn` lets one turn of the room run at a time. -/
def admitTurn (holder : TaskId) : Option ClaudeRoomSession :=
  match s.turn, s.world.rooms[room]? with
  | none, some r =>
    (s.world.step (.room room (.use holder true))).map fun world =>
      moved room { s with
        turn := some { id := s.admitted, use := r.uses.length }
        admitted := s.admitted + 1 } world
  | _, _ => none

/-- The CLI is sent the turn's query. -/
def written (turn : Turn) : Option ClaudeRoomSession :=
  match turn.point, turn.queried, turn.client with
  | .querying, false, some generation =>
    let cli := s.clis generation
    some { s.setCli generation { cli with owed := cli.owed ++ [turn.id] } with
      turn := some { turn with queried := true } }
  | _, _, _ => none

def step : SessionEvent → Option ClaudeRoomSession
  | .retention event =>
    if s.endsLease room event then none else (s.world.step event).map (s.moved room)
  | .admitTurn holder => s.admitTurn room holder
  | .emit generation kind => ((s.clis generation).emit kind).map (s.setCli generation)
  | .receive generation => (s.clis generation).receive.map (s.setCli generation)
  | .observed generation => s.observed room generation
  | .readEnded generation error => s.readEnded room generation error
  | .written => s.turn.bind s.written
  | .refuse =>
    -- no activity owner, or another foreground query: refused inside `_converse`
    s.turn.bind fun turn => if turn.point = .seeding
      then some (s.failTurn room turn "Turn failed before its result") else none
  | .resume ended unseeded complete =>
    s.turn.bind fun turn => s.resumeTurn room turn ended unseeded complete
  | .leave outcome =>
    s.turn.bind fun turn => if turn.point = .leaving
      then (s.world.step (.room room (.bodyEnded turn.use outcome))).map fun world =>
        depart { s with world := world } turn
      else none

end ClaudeRoomSession

/-- The session of the room at index `room` of a retention, before any turn. -/
def session (room : Nat) : Machine ClaudeRoomSession SessionEvent where
  init s := ∃ world, retention.init world ∧ s = { world := world }
  step := ClaudeRoomSession.step room

end BandSdk.ClaudeSdk

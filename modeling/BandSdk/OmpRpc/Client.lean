/-
# OmpRpc.Client -- requests, prompts and callbacks over one process

A request waits under its id for the response that carries it.  A host-tool call or UI
request of the process starts a callback of the active prompt, whose handler's answer is
written back.  `stop_after_tool` ends the prompt behind one tool's answer.  The first
failure of the transport is recorded; it completes all that waits, and closes the client.

The model is of one process, from the start of its reader to the end.  A task runs from
one await to the next.  `completions` and `log` are the model's own: how each request was
completed, and what became of the callbacks.

Left out: the frames' other fields, the evidence a prompt's completion is judged by, the
process handles, and the answer to a UI request that comes without a prompt.
-/
import BandSdk.Theory.Asyncio
import BandSdk.Theory.Histories
import BandSdk.Theory.Keyed
import BandSdk.Theory.Machine

namespace BandSdk.OmpRpc

open BandSdk.Theory

/-! ## Failures and completions -/

/-- An `OmpProcessError`: one that is recorded, the one of a close without any, and the one of a client
that is closing. -/
inductive ProcessError where
  | failure (message : String)
  | closed
  | notRunning
  deriving DecidableEq

inductive PromptError where
  | process (error : ProcessError)
  | rpc (command : String)
  | raised (error : PyError)
  deriving DecidableEq

inductive Completion where
  | response (id command : String) (success : Bool)
  | error (error : ProcessError)
  deriving DecidableEq

inductive Readiness where
  | ready
  | failed (error : ProcessError)

/-! ## Requests, prompts and callbacks -/

/-- `result` is its future's; `left` tells that its caller has gone. -/
structure Request where
  id : String
  command : String
  result : Option Completion := none
  left : Bool := false

inductive OmpCallbackKind where
  | tool
  | ui
  deriving DecidableEq

structure PromptRun where
  id : String
  submitted : Bool := false
  failure : Option PromptError := none
  rejected : Bool := false
  callbacks : List ((OmpCallbackKind × String) × Nat) := []
  stopAfterToolId : Option String := none
  stopped : Bool := false

/-- A callback's task: before its handler, in it, in its write, and done. -/
inductive CallbackPhase where
  | scheduled
  | handling
  | writing
  | done (error : Option PromptError)
  | finished
  deriving DecidableEq

/-- The task of `_stop_after_result`: before its request, in its write, behind it, and done. -/
inductive StopPhase where
  | scheduled
  | writing
  | aborting
  | over
  deriving DecidableEq

/-- An accepted request; `number` is its identity. -/
structure Call where
  number : Nat
  turn : Nat
  kind : OmpCallbackKind
  requestId : String
  deriving DecidableEq

def Call.key (call : Call) : OmpCallbackKind × String := (call.kind, call.requestId)

structure Callback where
  call : Call
  phase : CallbackPhase := .scheduled
  stop : Option StopPhase := none

def CallbackPhase.isOver : CallbackPhase → Bool
  | .done _ | .finished => true
  | _ => false

/-- The close task: made, run, with its abort sent, and ended. -/
inductive ClosePhase where
  | made
  | running
  | aborting
  | failed
  | closed
  deriving DecidableEq

inductive Note where
  | closing
  | accepted (call : Call)
  /-- The handler is called, and returns; `replies` tells that its answer is to be written. -/
  | started (call : Call)
  | returned (call : Call) (replies : Bool)
  | cancelled (callback : Nat)
  | replied (callback : Nat)
  | stopped (turn : Nat) (id : String)
  | prompted (turn : Nat)
  deriving DecidableEq

def Note.replies : Note → Option Nat
  | .replied k => some k
  | _ => none

/-- `lastTurn` is the prompt that began last, for the record. -/
structure Client where
  failure : Option String := none
  closing : Bool := false
  closeTask : Option ClosePhase := none
  exited : Bool := false
  reading : Bool := true
  requestId : Nat := 0
  pending : List (String × Nat) := []
  requests : Nat → Option Request := fun _ => none
  ready : Option Readiness := none
  turn : Option Nat := none
  /-- The prompt that has `_prompt_lock`. -/
  prompting : Option Nat := none
  lastTurn : Option Nat := none
  turns : Nat → Option PromptRun := fun _ => none
  callbacks : Nat → Option Callback := fun _ => none
  made : Nat := 0
  completions : List (Nat × Completion) := []
  log : List Note := []

inductive Frame where
  | ready
  | frameError (error : String)
  | response (id : Option String) (command : String) (success : Bool)
  | hostToolCall (id : String)
  | hostToolCancel (targetId : String)
  | uiRequest (id : String)
  | uiCancel (targetId : Option String)
  /-- `overflow` tells that the backlog was full. -/
  | event (overflow : Bool)
  | other

inductive CallbackInput where
  | returned
  | raised (error : PromptError)
  | cancelled
  deriving DecidableEq

inductive Event where
  | frame (frame : Frame)
  /-- The reader ends, on an error of its own or without one. -/
  | readerEnds (failure : Option String)
  /-- `_record_failure`, by a write, a check of a response's data or a completion. -/
  | fails (message : String)
  | exits
  | request (command : String)
  /-- A request's caller leaves it: with its result, its time limit or a cancellation. -/
  | leave (request : Nat)
  | prompt
  | submit
  /-- `_execute_prompt` leaves its `try`; then its tasks are cancelled and waited for. -/
  | endPrompt
  | promptOver (workerSurvives : Bool)
  | callback (callback : Nat) (input : CallbackInput)
  /-- A write that ends, or is cancelled: whether the frame was written, and the error it ends with. -/
  | written (callback : Nat) (wrote : Bool) (error : Option PromptError)
  | callbackFinished (callback : Nat)
  | stopTask (callback : Nat) (wrote : Bool) (input : CallbackInput)
  | stopAfterTool (id : String)
  | close
  | closeRuns
  | closeAborts
  | closeEnds (ok : Bool)

namespace Client

variable (s : Client)

def setRequest (r : Nat) (request : Request) : Client :=
  { s with requests := Function.update s.requests r (some request) }

def setTurn (t : Nat) (turn : PromptRun) : Client :=
  { s with turns := Function.update s.turns t (some turn) }

def setCallback (k : Nat) (callback : Callback) : Client :=
  { s with callbacks := Function.update s.callbacks k (some callback) }

def note (new : Note) : Client := { s with log := s.log ++ [new] }

/-! ### Failures -/

/-- `future.set_result`, if it is not done. -/
def complete (r : Nat) (completion : Completion) : Client :=
  match s.requests r with
  | none => s
  | some request =>
    match request.result with
    | some _ => s
    | none =>
      { s.setRequest r { request with result := some completion } with
        completions := s.completions ++ [(r, completion)] }

/-- `turn.fail`. -/
def failTurn (t : Nat) (error : PromptError) : Client :=
  match s.turns t with
  | none => s
  | some turn =>
    match turn.failure with
    | some _ => s
    | none => s.setTurn t { turn with failure := some error }

def failPending (error : ProcessError) : Client :=
  let s := (s.pending.map Prod.snd).foldl (fun s r => s.complete r (.error error)) s
  let s := { s with ready := s.ready <|> some (Readiness.failed error) }
  match s.turn with
  | none => s
  | some t => s.failTurn t (.process error)

def beginClose : Client :=
  let s := if s.closing then s else { s with closing := true }.note .closing
  match s.closeTask with
  | none | some .failed => { s with closeTask := some .made }
  | _ => s

def recordFailure (message : String) : Client :=
  let first := s.failure.getD message
  let s := { s with failure := some first }.failPending (.failure first)
  if s.closing then s else s.beginClose

/-- `_ensure_running`, with the error it raises; a process that has exited is a failure. -/
def ensureRunning : Client × Option ProcessError :=
  match s.failure with
  | some message => (s, some (.failure message))
  | none =>
    if s.closing then (s, some .notRunning)
    else if s.exited then
      (s.recordFailure "OMP RPC process exited", some (.failure "OMP RPC process exited"))
    else (s, none)

/-! ### Requests -/

def nextId : String × Client := ("band-" ++ toString (s.requestId + 1), { s with requestId := s.requestId + 1 })

def register (id command : String) : Client :=
  { s.setRequest s.made { id := id, command := command } with
    pending := Keyed.setItem id s.made s.pending
    made := s.made + 1 }

/-- `_request_frame`, up to its write. -/
def requestFrame (command : String) : Client :=
  match s.ensureRunning with
  | (s, some _) => s
  | (s, none) =>
    let (id, s) := s.nextId
    s.register id command

/-- The `finally` of `_request_frame`. -/
def leave (r : Nat) : Option Client :=
  (s.requests r).map fun request =>
    { s.setRequest r { request with left := true } with pending := Keyed.erase request.id s.pending }

/-! ### Prompts -/

def prompt : Option Client :=
  if s.prompting.isSome then none
  else
    match s.ensureRunning with
    | (s, some _) => some s
    | (s, none) =>
      let (id, s) := s.nextId
      let t := s.made
      some ({ s.setTurn t { id := id } with
        turn := some t
        prompting := some t
        lastTurn := some t
        made := t + 1 }.note (.prompted t))

/-- `_complete_prompt` registers its request; a client that fails the check fails the prompt there. -/
def submit : Option Client :=
  s.turn.bind fun t =>
    (s.turns t).bind fun turn =>
      if turn.submitted then none
      else
        match (s.setTurn t { turn with submitted := true }).ensureRunning with
        | (s, some _) => some s
        | (s, none) => some (s.register turn.id "prompt")

def endPrompt : Option Client := s.turn.map fun _ => { s with turn := none }

/-- The callbacks of a prompt whose tasks have not ended. -/
def survivors (t : Nat) : List Nat :=
  (List.range s.made).filter fun k =>
    (s.callbacks k).any fun callback => callback.call.turn = t ∧ callback.phase.isOver = false

/-- Tasks that outlive their cancellation are a failure. -/
def retireSurvivors (pending : Nat) : Client :=
  if pending = 0 then s
  else s.recordFailure ("OMP callbacks survived cancellation: " ++ toString pending ++
    " task(s) still pending; retirement is unproven")

/-- The end of `_execute_prompt`; `survives` tells of the task that delivers events. -/
def promptOver (survives : Bool) : Option Client :=
  if s.turn.isSome then none
  else
    s.prompting.map fun t =>
      { s with prompting := none }.retireSurvivors ((s.survivors t).length + if survives then 1 else 0)

/-! ### Responses -/

def activeTurn : Option (Nat × PromptRun) := s.turn.bind fun t => (s.turns t).map fun turn => (t, turn)

def pendingRequest (id : String) : Option (Nat × Request) :=
  (Keyed.get id s.pending).bind fun r => (s.requests r).map fun request => (r, request)

/-- A request's own command, or the prompt's behind its request. -/
def expectedCommand (id : String) : Option String :=
  match s.pendingRequest id with
  | some (_, request) => some request.command
  | none => (s.activeTurn.filter (·.2.id = id)).map fun _ => "prompt"

/-- An error response with the prompt's id that no request waits for. -/
def rejectPrompt (id command : String) (success : Bool) : Client :=
  match s.activeTurn with
  | none => s
  | some (t, turn) =>
    if turn.id = id ∧ success = false then
      (s.setTurn t { turn with rejected := true }).failTurn t (.rpc command)
    else s

/-- A response without an id, or with another command than its request's, raises. -/
def dispatchResponse (id : Option String) (command : String) (success : Bool) : Except String Client :=
  match id with
  | none => .error "OMP response is missing its command id"
  | some id =>
    if (s.expectedCommand id).any (· ≠ command) then
      .error "OMP response command does not match its request"
    else
      match s.pendingRequest id with
      | none => .ok (s.rejectPrompt id command success)
      | some (r, request) =>
        if request.result.isSome then .ok (s.rejectPrompt id command success)
        else .ok (s.complete r (.response id command success))

/-! ### Callbacks -/

/-- A request that is refused without a word, or whose id is in use. -/
def startCallback (t : Nat) (turn : PromptRun) (kind : OmpCallbackKind) (id : String) : Except String Client :=
  if s.closing || turn.failure.isSome || turn.stopAfterToolId.isSome then .ok s
  else
    match Keyed.get (kind, id) turn.callbacks with
    | some _ => .error "OMP callback request id was reused"
    | none =>
      let call : Call := ⟨s.made, t, kind, id⟩
      let s := s.setTurn t { turn with callbacks := Keyed.setItem (kind, id) s.made turn.callbacks }
      .ok ({ s.setCallback s.made { call := call } with made := s.made + 1 }.note (.accepted call))

def cancelCallback (t : Nat) (turn : PromptRun) (kind : OmpCallbackKind) (id : String) : Client :=
  match Keyed.get (kind, id) turn.callbacks with
  | none => s
  | some k =>
    (s.setTurn t { turn with callbacks := Keyed.erase (kind, id) turn.callbacks }).note (.cancelled k)

def callbackStillActive (call : Call) (turn : PromptRun) : Bool :=
  !s.closing && Keyed.get call.key turn.callbacks = some call.number

/-- Behind the handler: whether its answer is written, and by the stop task. -/
def answer (k : Nat) (callback : Callback) (turn : PromptRun) : Client :=
  let call := callback.call
  if (call.kind = .tool ∧ turn.stopAfterToolId.any (· ≠ call.requestId) = true) ∨
      s.callbackStillActive call turn = false then
    (s.setCallback k { callback with phase := .done none }).note (.returned call false)
  else if call.kind = .tool ∧ turn.stopAfterToolId = some call.requestId then
    (s.setCallback k { callback with phase := .done none, stop := some .scheduled }).note (.returned call true)
  else (s.setCallback k { callback with phase := .writing }).note (.returned call true)

/-- `_handle_tool` and `_handle_ui`, up to the write. -/
def resumeCallback (k : Nat) (input : CallbackInput) : Option Client :=
  (s.callbacks k).bind fun callback =>
    (s.turns callback.call.turn).bind fun turn =>
      match callback.phase, input with
      | .scheduled, .returned =>
        if turn.stopAfterToolId.isSome then some (s.setCallback k { callback with phase := .done none })
        else some ((s.setCallback k { callback with phase := .handling }).note (.started callback.call))
      | .handling, .returned => some (s.answer k callback turn)
      | .scheduled, .raised error | .handling, .raised error =>
        some (s.setCallback k { callback with phase := .done (some error) })
      | .scheduled, .cancelled | .handling, .cancelled =>
        some (s.setCallback k { callback with phase := .done none })
      | _, _ => none

/-- A broken transport is recorded by the write itself. -/
def recordWrite (error : Option PromptError) : Client :=
  match error with
  | some (.process (.failure message)) => s.recordFailure message
  | _ => s

def written (k : Nat) (wrote : Bool) (error : Option PromptError) : Option Client :=
  (s.callbacks k).bind fun callback =>
    if callback.phase = .writing then
      let s := s.setCallback k { callback with phase := .done error }
      let s := if wrote then s.note (.replied k) else s
      some (s.recordWrite error)
    else none

/-- The done callback of the task. -/
def callbackFinished (k : Nat) : Option Client :=
  (s.callbacks k).bind fun callback =>
    (s.turns callback.call.turn).bind fun turn =>
      match callback.phase with
      | .done error =>
        let call := callback.call
        let s := if Keyed.get call.key turn.callbacks = some k then
            s.setTurn call.turn { turn with callbacks := Keyed.erase call.key turn.callbacks }
          else s
        let s := s.setCallback k { callback with phase := .finished }
        some (match error with
          | some error => s.failTurn call.turn error
          | none => s)
      | _ => none

/-- `_stop_after_result`: the process's own prompt is stopped by an abort right behind the answer. -/
def stopTask (k : Nat) (wrote : Bool) (input : CallbackInput) : Option Client :=
  (s.callbacks k).bind fun callback =>
    (s.turns callback.call.turn).bind fun turn =>
      match callback.stop, input with
      | some .scheduled, .returned =>
        match s.ensureRunning with
        | (s, some error) =>
          some ((s.setCallback k { callback with stop := some .over }).failTurn callback.call.turn
            (.process error))
        | (s, none) =>
          let (id, s) := s.nextId
          some ((s.register id "abort").setCallback k { callback with stop := some .writing })
      | some .writing, .returned =>
        let s := s.setCallback k { callback with stop := some .aborting }
        some (if wrote then s.note (.replied k) else s)
      | some .writing, .raised error =>
        let s := s.setCallback k { callback with stop := some .over }
        let s := if wrote then s.note (.replied k) else s
        some ((s.recordWrite (some error)).failTurn callback.call.turn error)
      | some .writing, .cancelled =>
        let s := s.setCallback k { callback with stop := some .over }
        some (if wrote then s.note (.replied k) else s)
      | some .aborting, .returned =>
        some ((s.setCallback k { callback with stop := some .over }).setTurn callback.call.turn
          { turn with stopped := true })
      | some .aborting, .raised error =>
        some ((s.setCallback k { callback with stop := some .over }).failTurn callback.call.turn error)
      | some .scheduled, .cancelled | some .aborting, .cancelled =>
        some (s.setCallback k { callback with stop := some .over })
      | _, _ => none

/-- A stop that names no active host tool is an error. -/
def stopAfterTool (id : String) : Client :=
  match s.turn with
  | none => s
  | some t =>
    match s.turns t with
    | none => s
    | some turn =>
      if (Keyed.get (OmpCallbackKind.tool, id) turn.callbacks).isNone then s
      else if turn.stopAfterToolId.isSome then s
      else (s.setTurn t { turn with stopAfterToolId := some id }).note (.stopped t id)

/-! ### Frames -/

def dispatchPayload (frame : Frame) : Except String Client :=
  match frame with
  | .ready => .ok { s with ready := s.ready <|> some .ready }
  | .frameError error => .error ("OMP RPC protocol frame overflow: " ++ error)
  | .response id command success => s.dispatchResponse id command success
  | .hostToolCall id =>
    match s.activeTurn with
    | none => .error "OMP host tool arrived without an active prompt"
    | some (t, turn) => s.startCallback t turn .tool id
  | .hostToolCancel target =>
    match s.activeTurn with
    | none => .ok s
    | some (t, turn) => .ok (s.cancelCallback t turn .tool target)
  | .uiRequest id =>
    match s.activeTurn with
    -- answered as cancelled, by a task of its own
    | none => .ok s
    | some (t, turn) => s.startCallback t turn .ui id
  | .uiCancel none => .error "OMP UI cancellation is missing targetId"
  | .uiCancel (some target) =>
    match s.activeTurn with
    | none => .ok s
    | some (t, turn) => .ok (s.cancelCallback t turn .ui target)
  | .event overflow =>
    match s.activeTurn with
    | none => .ok s
    | some (t, turn) =>
      if turn.failure.isNone && overflow then
        .ok ((s.failTurn t (.process (.failure "OMP event callback backlog exceeded"))).recordFailure
          "OMP event callback backlog exceeded")
      else .ok s
  | .other => .ok s

/-- A frame that raises ends the reader. -/
def readFrame (frame : Frame) : Option Client :=
  if s.reading then
    match s.dispatchPayload frame with
    | .ok s => some s
    | .error message => some ({ s with reading := false }.recordFailure message)
  else none

/-! ### Closing -/

def closeRuns : Option Client :=
  if s.closeTask = some .made then
    some ({ s with closeTask := some .running }.failPending
      (s.failure.elim ProcessError.closed ProcessError.failure))
  else none

/-- The graceful abort of `_close_process`. -/
def closeAborts : Option Client :=
  if s.closeTask = some .running ∧ s.failure = none ∧ s.exited = false ∧ s.reading = true then
    let (id, s) := { s with closeTask := some .aborting }.nextId
    some (s.register id "abort")
  else none

def step : Event → Option Client
  | .frame frame => s.readFrame frame
  | .readerEnds failure =>
    some (match failure with
      | none => { s with reading := false }
      | some message => { s with reading := false }.recordFailure message)
  | .fails message => some (s.recordFailure message)
  | .exits => some { s with exited := true }
  | .request command => some (s.requestFrame command)
  | .leave r => s.leave r
  | .prompt => s.prompt
  | .submit => s.submit
  | .endPrompt => s.endPrompt
  | .promptOver survives => s.promptOver survives
  | .callback k input => s.resumeCallback k input
  | .written k wrote error => s.written k wrote error
  | .callbackFinished k => s.callbackFinished k
  | .stopTask k wrote input => s.stopTask k wrote input
  | .stopAfterTool id => some (s.stopAfterTool id)
  | .close => some s.beginClose
  | .closeRuns => s.closeRuns
  | .closeAborts => s.closeAborts
  | .closeEnds ok =>
    if s.closeTask = some .running ∨ s.closeTask = some .aborting then
      some { s with closeTask := some (if ok then .closed else .failed) }
    else none

end Client

def client : Machine Client Event where
  init s := s = {}
  step := Client.step

end BandSdk.OmpRpc

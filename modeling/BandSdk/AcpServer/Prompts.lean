/-
# AcpServer.Prompts -- editor prompts, answered by a Band room

`handle_prompt` registers its prompt as the one its room has pending, posts it with a
task of its own, and returns the outcome the prompt is settled with.  Room messages go
to the editor as session updates.  A text reply starts a grace timer, which later
messages start again; it ends the prompt as END_TURN.  An error event, the end of the
send, the time limit, `cancel_prompt` and a cleanup settle the prompt too.

A call runs from one await to the next.  `_state_lock` is never held across an await, so
acquiring it is none.  `log` is the model's own: what was posted, attributed to a prompt,
handed to the editor, settled and returned, in order.

Left out: what a prompt's post says, a failure's code and detail and the redaction of its
text, session modes and contexts, and the pushes of messages no prompt owns.
-/
import BandSdk.Theory.Asyncio
import BandSdk.Theory.Histories
import BandSdk.Theory.Keyed
import BandSdk.Theory.Machine
import BandSdk.Theory.Text

namespace BandSdk.AcpServer

open BandSdk.Theory

/-! ## Outcomes -/

structure AgentFailure where
  provider : String
  message : String
  deriving DecidableEq

inductive PromptOutcome where
  | endTurn
  | cancelled
  | failure (failure : AgentFailure)
  deriving DecidableEq

def promptExceptionFailure (error : PyError) : AgentFailure :=
  let message := Text.strip error.message
  ⟨"band", if message = "" then error.kind else message⟩

def promptTimeoutFailure : AgentFailure :=
  ⟨"band", "Prompt timed out after 300s waiting for a Band peer reply."⟩

def roomClosed : AgentFailure := ⟨"band", "Band room closed before prompt completed."⟩

def agentStopped : AgentFailure := ⟨"band", "Band agent stopped before prompt completed."⟩

def blankContentError : PyError :=
  ⟨"ValueError", "can't be blank"⟩

/-! ## Prompts -/

inductive Kind where
  | text
  /-- With what `decode_failure` makes of it. -/
  | error (failure : AgentFailure)
  | other
  deriving DecidableEq

/-- `mapped` tells that an editor is connected and the event converts to an update. -/
structure RoomEvent where
  kind : Kind
  mapped : Bool
  deriving DecidableEq

/-- Where `_send_prompt` awaits: the participants, or its post. -/
inductive Send where
  | fetching
  | posting
  | over (outcome : Outcome)
  deriving DecidableEq

def Send.isOver : Send → Bool
  | .over _ => true
  | _ => false

/-- Where `handle_prompt` awaits: its send or `done_event`, the end of that wait's task, `done_event`
alone, or its children. -/
inductive Phase where
  | waiting
  | joining (why : Wake)
  | awaiting
  | closing (raising : Bool)
  | ended

/-- `done` is `done_event`; `send`, `sendCancelled` and `phase` are `handle_prompt`'s. -/
structure PendingACPPrompt where
  sessionId : String
  room : String
  done : Bool := false
  outcome : Option PromptOutcome := none
  completionTask : Option Nat := none
  posted : Bool := false
  replyStarted : Bool := false
  send : Send := .fetching
  sendCancelled : Bool := false
  phase : Phase := .waiting

structure Timer where
  room : String
  prompt : Nat

/-- Where `on_message` awaits: the session update, or the timer it replaced. -/
inductive MessagePhase where
  | forwarding
  | rescheduling
  deriving DecidableEq

structure MessageCall where
  room : String
  prompt : Nat
  event : RoomEvent
  phase : MessagePhase

inductive Note where
  | posted (prompt : Nat)
  | attributed (message prompt : Nat) (event : RoomEvent)
  /-- `session_update` is called. -/
  | updating (message : Nat)
  | forwarded (message : Nat)
  | settled (prompt : Nat) (outcome : Option PromptOutcome)
  | returned (prompt : Nat) (outcome : PromptOutcome)
  /-- "ACP prompt completed without a terminal outcome". -/
  | incomplete (prompt : Nat)
  deriving DecidableEq

def Note.settles : Note → Option Nat
  | .settled prompt _ => some prompt
  | _ => none

structure Adapter where
  sessionToRoom : List (String × String) := []
  roomToSession : List (String × String) := []
  pendingPrompts : List (String × Nat) := []
  prompts : Nat → Option PendingACPPrompt := fun _ => none
  /-- The timers that sleep. -/
  timers : Nat → Option Timer := fun _ => none
  messages : Nat → Option MessageCall := fun _ => none
  made : Nat := 0
  log : List Note := []

inductive Event where
  /-- `create_session` maps a new room, or undoes that. -/
  | openSession (session room : String)
  | rollBack (session room : String)
  | prompt (session : String)
  | handler (prompt : Nat) (wake : Wake)
  /-- `accepted` tells that the post was not refused as blank. -/
  | send (prompt : Nat) (outcome : Outcome) (accepted : Bool)
  /-- With the sessions of the history it bootstraps from. -/
  | message (room : String) (event : RoomEvent) (history : List (String × String))
  | resume (message : Nat) (ended : Ended)
  | expire (timer : Nat)
  | cancelPrompt (session : String)
  | cleanup (room : String)
  | cleanupAll

namespace Adapter

variable (s : Adapter)

def slot (room : String) : Option Nat := Keyed.get room s.pendingPrompts

def setPrompt (p : Nat) (pending : PendingACPPrompt) : Adapter :=
  { s with prompts := Function.update s.prompts p (some pending) }

def setTimer (t : Nat) (timer : Option Timer) : Adapter :=
  { s with timers := Function.update s.timers t timer }

def setMessage (c : Nat) (call : Option MessageCall) : Adapter :=
  { s with messages := Function.update s.messages c call }

def note (new : Note) : Adapter := { s with log := s.log ++ [new] }

/-! ### Settling -/

def cancelTimer (timer : Option Nat) : Adapter :=
  match timer with
  | none => s
  | some t => s.setTimer t none

/-- A timer that is the current task is over in any case. -/
def finish (p : Nat) (pending : PendingACPPrompt) (outcome : Option PromptOutcome) : Adapter :=
  ((s.cancelTimer pending.completionTask).setPrompt p
    { pending with done := true, outcome := outcome <|> pending.outcome }).note (.settled p outcome)

def settlePromptLocked (room : String) (expected : Option Nat) (outcome : Option PromptOutcome) : Adapter :=
  match s.slot room with
  | none => s
  | some p =>
    if expected.all (· = p) then
      match s.prompts p with
      | none => s
      | some pending =>
        { s.finish p pending outcome with pendingPrompts := Keyed.erase room s.pendingPrompts }
    else s

/-! ### `handle_prompt` -/

/-- An unknown session and a room that has a prompt raise. -/
def handlePrompt (session : String) : Adapter :=
  match Keyed.get session s.sessionToRoom with
  | none => s
  | some room =>
    match s.slot room with
    | some _ => s
    | none =>
      { s.setPrompt s.made { sessionId := session, room := room } with
        pendingPrompts := Keyed.setItem room s.made s.pendingPrompts
        made := s.made + 1 }

/-- Into its `finally`, up to the wait for its children. -/
def leaveTry (p : Nat) (room : String) (raising : Bool) : Adapter :=
  let s := s.settlePromptLocked room (some p) none
  match s.prompts p with
  | none => s
  | some pending => s.setPrompt p { pending with sendCancelled := true, phase := .closing raising }

/-- What an await that was left for `why` goes on with once a second one in its way has ended: a
cancellation wins over the time limit. -/
def unwind : Wake → Wake → Wake
  | .cancelled, _ => .cancelled
  | _, .cancelled => .cancelled
  | .timeout, _ => .timeout
  | .ready, wake => wake

/-- The wait of `_await_prompt_settled` is over. -/
def afterWait (p : Nat) (pending : PendingACPPrompt) : Wake → Option Adapter
  | .ready =>
    if pending.done then some (s.leaveTry p pending.room false)
    else
      match pending.send with
      | .over .returned => some (s.setPrompt p { pending with phase := .awaiting })
      | .over (.raised error) =>
        some ((s.settlePromptLocked pending.room (some p)
          (some (.failure (promptExceptionFailure error)))).leaveTry p pending.room false)
      | .over (.cancelled _) => some (s.leaveTry p pending.room true)
      | _ => none
  | .timeout =>
    some ((s.settlePromptLocked pending.room (some p)
      (some (.failure promptTimeoutFailure))).leaveTry p pending.room false)
  | .cancelled => some (s.leaveTry p pending.room true)

def childrenOver (pending : PendingACPPrompt) : Bool :=
  pending.send.isOver && pending.completionTask.all fun t => (s.timers t).isNone

def resumePrompt (p : Nat) (wake : Wake) : Option Adapter :=
  (s.prompts p).bind fun pending =>
    match pending.phase, wake with
    | .waiting, .ready =>
      if pending.done || pending.send.isOver then
        some (s.setPrompt p { pending with phase := .joining .ready })
      else none
    | .waiting, wake => some (s.setPrompt p { pending with phase := .joining wake })
    | .joining why, wake => s.afterWait p pending (unwind why wake)
    | .awaiting, .ready => if pending.done then some (s.leaveTry p pending.room false) else none
    | .awaiting, wake => s.afterWait p pending wake
    | .closing raising, .ready =>
      if s.childrenOver pending then
        let s := s.setPrompt p { pending with phase := .ended }
        if raising then some s
        else
          match pending.outcome with
          | some outcome => some (s.note (.returned p outcome))
          | none => some (s.note (.incomplete p))
      else none
    | .closing _, .cancelled => some (s.setPrompt p { pending with phase := .ended })
    | .closing _, .timeout => none
    | .ended, _ => none

/-- `_send_prompt`; once cancelled, it raises that at its await. -/
def resumeSend (p : Nat) (outcome : Outcome) (accepted : Bool) : Option Adapter :=
  (s.prompts p).bind fun pending =>
    match pending.send, outcome with
    | .over _, _ => none
    | _, .cancelled message => some (s.setPrompt p { pending with send := .over (.cancelled message) })
    | send, outcome =>
      if pending.sendCancelled then none
      else
        match send, outcome with
        | .fetching, .returned =>
          let next : Send := if s.slot pending.room = some p then .posting else .over .returned
          some (s.setPrompt p { pending with send := next })
        | .posting, .returned =>
          if accepted then
            some ((s.setPrompt p { pending with send := .over .returned, posted := true }).note (.posted p))
          else some (s.setPrompt p { pending with send := .over (.raised blankContentError) })
        | _, outcome => some (s.setPrompt p { pending with send := .over outcome })

/-! ### `on_message` -/

/-- `_schedule_prompt_completion`. -/
def schedule (c : Nat) (room : String) (p : Nat) (pending : PendingACPPrompt) (event : RoomEvent) : Adapter :=
  if s.slot room = some p then
    let s' := ((s.cancelTimer pending.completionTask).setTimer s.made (some ⟨room, p⟩)).setPrompt p
      { pending with completionTask := some s.made }
    { s' with made := s.made + 1 }.setMessage c
      (pending.completionTask.map fun _ => ⟨room, p, event, .rescheduling⟩)
  else s.setMessage c none

/-- Behind `_forward_to_session`. -/
def afterForward (c : Nat) (room : String) (p : Nat) (event : RoomEvent) : Adapter :=
  let s := s.note (.forwarded c)
  match event.kind, s.prompts p with
  | .text, some pending =>
    let pending := { pending with replyStarted := true }
    (s.setPrompt p pending).schedule c room p pending event
  | .other, some pending =>
    if pending.replyStarted then s.schedule c room p pending event else s.setMessage c none
  | _, _ => s.setMessage c none

def rehydrate (history : List (String × String)) : Adapter :=
  history.foldl (fun s (session, room) =>
    if (Keyed.get session s.sessionToRoom).isSome then s
    else { s with
      sessionToRoom := Keyed.setItem session room s.sessionToRoom
      roomToSession := Keyed.setItem room session s.roomToSession }) s

/-- The prompt a room's event belongs to: the pending one, once its post was accepted. -/
def attributable (room : String) : Option Nat :=
  (s.slot room).filter fun p => (s.prompts p).any PendingACPPrompt.posted

/-- An error event settles its prompt. -/
def settleFailed (room : String) (p : Nat) : Kind → Adapter
  | .error failure => s.settlePromptLocked room (some p) (some (.failure failure))
  | _ => s

def onMessage (room : String) (event : RoomEvent) (history : List (String × String)) : Adapter :=
  let s := s.rehydrate history
  match s.attributable room with
  | none => s
  | some p =>
    let c := s.made
    let s := ({ s with made := c + 1 }.note (.attributed c p event)).settleFailed room p event.kind
    if event.mapped then
      (s.setMessage c (some ⟨room, p, event, .forwarding⟩)).note (.updating c)
    else s.afterForward c room p event

def resumeMessage (c : Nat) (ended : Ended) : Option Adapter :=
  (s.messages c).map fun call =>
    match call.phase, ended with
    -- a failed update is logged
    | .forwarding, .returned | .forwarding, .raised => s.afterForward c call.room call.prompt call.event
    | _, _ => s.setMessage c none

/-! ### The rest -/

/-- `_complete_prompt_after_grace`, behind its sleep. -/
def expire (t : Nat) : Option Adapter :=
  (s.timers t).map fun timer =>
    (s.setTimer t none).settlePromptLocked timer.room (some timer.prompt) (some .endTurn)

def cancelPrompt (session : String) : Adapter :=
  match Keyed.get session s.sessionToRoom with
  | none => s
  | some room => if room = "" then s else s.settlePromptLocked room none (some .cancelled)

def onCleanup (room : String) : Adapter :=
  let s := s.settlePromptLocked room none (some (.failure roomClosed))
  let session := Keyed.get room s.roomToSession
  let s := { s with roomToSession := Keyed.erase room s.roomToSession }
  match session with
  | none => s
  | some session =>
    if session = "" then s else { s with sessionToRoom := Keyed.erase session s.sessionToRoom }

def cleanupAll : Adapter :=
  (s.pendingPrompts.map Prod.fst).foldl
    (fun s room => s.settlePromptLocked room none (some (.failure agentStopped))) s

def openSession (session room : String) : Adapter :=
  { s with
    sessionToRoom := Keyed.setItem session room s.sessionToRoom
    roomToSession := Keyed.setItem room session s.roomToSession }

def rollBack (session room : String) : Adapter :=
  { s with
    sessionToRoom := Keyed.erase session s.sessionToRoom
    roomToSession := Keyed.erase room s.roomToSession }

def step : Event → Option Adapter
  | .openSession session room => some (s.openSession session room)
  | .rollBack session room => some (s.rollBack session room)
  | .prompt session => some (s.handlePrompt session)
  | .handler p wake => s.resumePrompt p wake
  | .send p outcome accepted => s.resumeSend p outcome accepted
  | .message room event history => some (s.onMessage room event history)
  | .resume c ended => s.resumeMessage c ended
  | .expire t => s.expire t
  | .cancelPrompt session => some (s.cancelPrompt session)
  | .cleanup room => some (s.onCleanup room)
  | .cleanupAll => some s.cleanupAll

/-- The prompts an event may settle: a timer, a request and a send their own, a message, a cancel and
a cleanup the one that is pending when they come. -/
def Settles (event : Event) (p : Nat) : Prop :=
  match event with
  | .expire t => ∃ timer, s.timers t = some timer ∧ timer.prompt = p
  | .handler q _ => q = p
  | .message room event _ => (∃ failure, event.kind = .error failure) ∧ s.attributable room = some p
  | .cancelPrompt session => ∃ room, Keyed.get session s.sessionToRoom = some room ∧ s.slot room = some p
  | .cleanup room => s.slot room = some p
  | .cleanupAll => ∃ room, s.slot room = some p
  | _ => False

end Adapter

def adapter : Machine Adapter Event where
  init s := s = {}
  step := Adapter.step

end BandSdk.AcpServer

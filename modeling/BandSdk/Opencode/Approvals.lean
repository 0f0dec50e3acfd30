/-
# Opencode.Approvals -- one room's permissions and questions

`RoomApprovals` keeps what OpenCode asked the room in two decision registries and answers
each ask by the configured mode, by a room message, by its expiry, or with a rejection when
the ask could not be put to the room.  The registries are those of `Decisions`, and what is
done to them are the calls listed there.

A call runs from one await to the next; `resume` names the call, how its await ended and
what the room's ports say then.  A claimed ask is answered by a task of its own
(`delivering`), which begins later; every other answer is sent at once.  `sent` records
what was sent to OpenCode and why; no code reads it.

Left out: the texts of the notices to the room, the clock of the human wait, and the end of
a timeout task.
-/
import BandSdk.Decisions.Answers
import BandSdk.Opencode.Commands
import BandSdk.Theory.Asyncio

namespace BandSdk.Opencode

open BandSdk.Theory BandSdk.Runtime BandSdk.Decisions

inductive ApprovalMode where
  | manual
  | autoAccept
  | autoDecline

inductive QuestionMode where
  | manual
  | autoReject
  deriving DecidableEq

structure Config where
  approvalMode : ApprovalMode
  approvalTimeoutReply : ApprovalReply
  questionMode : QuestionMode
  isOwnBandTool : String → Bool

inductive AskKind where
  | permission
  | question
  deriving DecidableEq

structure PendingPermission where
  requestId : String
  permission : String
  patterns : List String
  deriving DecidableEq

structure PendingQuestion where
  requestId : String
  questions : List String
  deriving DecidableEq

/-- What is asked, and what answers it. -/
def Pending : AskKind → Type
  | .permission => PendingPermission
  | .question => PendingQuestion

def Answer : AskKind → Type
  | .permission => ApprovalReply
  | .question => List (List String)

instance : ∀ kind, DecidableEq (Pending kind)
  | .permission => inferInstanceAs (DecidableEq PendingPermission)
  | .question => inferInstanceAs (DecidableEq PendingQuestion)

def Pending.requestId : {kind : AskKind} → Pending kind → String
  | .permission, pending => PendingPermission.requestId pending
  | .question, pending => PendingQuestion.requestId pending

def declinedQuestionAnswer : String :=
  "This question was declined. Do not ask it again; continue and reply to the user without it."

/-- The answer that rejects an ask: for a question, one decline a question. -/
def rejection : (kind : AskKind) → Pending kind → Answer kind
  | .permission, _ => ApprovalReply.reject
  | .question, pending => (PendingQuestion.questions pending).map fun _ => [declinedQuestionAnswer]

/-- Why an answer was sent; for a message, with the permissions that awaited an answer. -/
inductive Cause where
  | mode
  | undeliverable
  | expired
  | message (content : String) (awaiting : List String)

inductive Sent where
  /-- `always`, for a tool of the adapter's own. -/
  | ownBandTool (requestId : String) (permission : String)
  | answer (kind : AskKind) (entry : DecisionEntry (Pending kind)) (answer : Answer kind) (cause : Cause)

inductive Call where
  | owning
  /-- Awaiting the mentions of an ask's prompt, or its post. -/
  | prompting (kind : AskKind) (entry : DecisionEntry (Pending kind)) (posting : Bool)
  | delivering (kind : AskKind) (entry : DecisionEntry (Pending kind)) (answer : Answer kind) (cause : Cause)
  /-- Awaiting OpenCode; `prompt` is the ask whose prompt is still being tried. -/
  | sending (kind : AskKind) (entry : DecisionEntry (Pending kind))
      (prompt : Option (DecisionEntry (Pending kind)))
  | aborting (kind : AskKind) (prompt : Option (DecisionEntry (Pending kind)))

/-- The core's views of what awaits an answer. -/
structure Views (C : Type) where
  unclaimed : C → List String
  unclaimedCount : C → Nat
  oldestUnclaimed : C → Option String

structure Views.Documented {C : Type} (views : Views C) (slots : C → List Slot) : Prop where
  unclaimed : ∀ c, views.unclaimed c = ((slots c).filter (!·.claimed)).map Slot.token
  unclaimedCount : ∀ c, views.unclaimedCount c = ((slots c).filter (!·.claimed)).length
  oldestUnclaimed : ∀ c, views.oldestUnclaimed c = (((slots c).filter (!·.claimed)).map Slot.token).head?

/-- One room.  The registries come with the record of what became of their asks. -/
structure RoomApprovals (C : Type) where
  asks : (kind : AskKind) → State C (Pending kind)
  known : AskKind → List String
  idle : Bool := true
  calls : Nat → Option Call := fun _ => none
  made : Nat := 0
  sent : List Sent := []

/-- How an await ended, and what the ports say: whether there is a client, whether the open turn's
tools are those of the prompt, whether an answer's task has its authority, whether anyone is there
to be mentioned. -/
structure Input where
  ended : Ended
  client : Bool := true
  sameTools : Bool := true
  authoritative : Bool := true
  mentioned : Bool := true

inductive Event where
  | permissionAsked (requestId permission : String) (patterns : List String) (tools client : Bool)
  | questionAsked (requestId : String) (questions : List String) (tools client : Bool)
  | message (content : String)
  | expire (kind : AskKind) (task : Nat)
  /-- `cancel` and `abandon`. -/
  | cancel
  | resume (call : Nat) (input : Input)

namespace RoomApprovals

section Asks

variable {C : Type} (core : Core C) (views : Views C) (s : RoomApprovals C)

/-! ### The registries -/

def registry (kind : AskKind) : Registry C (Pending kind) := (s.asks kind).registry

/-- A call of the registry of `kind`. -/
def tell (kind : AskKind) (event : Decisions.Event (Pending kind)) : RoomApprovals C :=
  { s with asks := Function.update s.asks kind ((Decisions.step core (s.asks kind) event).getD (s.asks kind)) }

/-- Entries still awaiting an answer; the core's tokens are all held. -/
def unclaimed (kind : AskKind) : List (DecisionEntry (Pending kind)) :=
  (views.unclaimed (s.registry kind).core).filterMap (s.registry kind).get

def oldestUnclaimed (kind : AskKind) : Option (DecisionEntry (Pending kind)) :=
  (views.oldestUnclaimed (s.registry kind).core).bind (s.registry kind).get

def hasUnclaimed (kind : AskKind) : Bool := 0 < views.unclaimedCount (s.registry kind).core

def isUnclaimed (kind : AskKind) (token : String) : Bool := token ∈ views.unclaimed (s.registry kind).core

def parkedOnHuman : Bool := s.hasUnclaimed views .permission || s.hasUnclaimed views .question

/-- The permissions that await an answer, for the record. -/
def awaiting : List String :=
  ((s.registry .permission).entries.filter (· ∉ (s.asks .permission).ledger.claims)).map DecisionEntry.token

def releaseIfIdle : RoomApprovals C := if s.parkedOnHuman views then s else { s with idle := true }

def claim (kind : AskKind) (requestId : String) : Option (DecisionEntry (Pending kind)) × RoomApprovals C :=
  let claimed := ((s.registry kind).tryClaim core requestId).1
  let s := s.tell core kind (.tryClaim requestId)
  (claimed, if claimed.isSome then s.releaseIfIdle views else s)

def forget (kind : AskKind) (entry : DecisionEntry (Pending kind)) : RoomApprovals C :=
  (s.tell core kind (.forget entry)).releaseIfIdle views

def cancel : RoomApprovals C :=
  { (s.tell core .permission .cancelAll).tell core .question .cancelAll with idle := true }

/-! ### Answers -/

def setCall (call : Nat) (next : Option Call) : RoomApprovals C :=
  { s with calls := Function.update s.calls call next }

def spawn (next : Call) : RoomApprovals C := { s.setCall s.made (some next) with made := s.made + 1 }

/-- The call that is being made gets a number. -/
def enter : RoomApprovals C := { s with made := s.made + 1 }

/-- `_send_permission_reply`, `_send_question_reply` and `_send_question_reject`, up to their await. -/
def send (call : Nat) (client : Bool) {kind : AskKind} (entry : DecisionEntry (Pending kind))
    (answer : Answer kind) (cause : Cause) (prompt : Option (DecisionEntry (Pending kind))) :
    RoomApprovals C :=
  if client then
    { s.setCall call (some (.sending kind entry prompt)) with
      sent := s.sent ++ [.answer kind entry answer cause] }
  else (s.cancel core).setCall call (some (.aborting kind prompt))

/-- `_reply_permission` and `_reject_question`: whatever registration the id has now is answered. -/
def replyNow (call : Nat) (client : Bool) {kind : AskKind} (pending : Pending kind)
    (answer : DecisionEntry (Pending kind) → Answer kind) (cause : Cause)
    (prompt : Option (DecisionEntry (Pending kind))) : RoomApprovals C :=
  match s.claim core views kind pending.requestId with
  | (none, s) => s.setCall call none
  | (some entry, s) => s.send core call client entry (answer entry) cause prompt

def rejectUndeliverable (call : Nat) (client : Bool) {kind : AskKind} (entry : DecisionEntry (Pending kind))
    (prompt : Option (DecisionEntry (Pending kind))) : RoomApprovals C :=
  s.replyNow core views call client entry.payload (fun entry => rejection _ entry.payload) .undeliverable
    prompt

/-- `_answer`: a claim, and a task that answers. -/
def answer (kind : AskKind) (requestId : String) (answer : DecisionEntry (Pending kind) → Answer kind)
    (cause : Cause) : RoomApprovals C :=
  match s.claim core views kind requestId with
  | (none, s) => s
  | (some entry, s) => s.spawn (.delivering kind entry (answer entry) cause)

/-! ### Asks -/

/-- A registered ask, with the entry it got. -/
def register (kind : AskKind) (pending : Pending kind) :
    Option (DecisionEntry (Pending kind)) × RoomApprovals C :=
  let registered := ((s.registry kind).registerKeyed core pending pending.requestId).1.toOption.join
  let s := s.tell core kind (.registerKeyed pending pending.requestId)
  match registered with
  | none => (none, s)
  | some registration =>
    (some registration.entry,
      { s with known := Function.update s.known kind (pending.requestId :: s.known kind) })

/-- An ask is put to the room. -/
def ask {kind : AskKind} (entry : DecisionEntry (Pending kind)) (tools : Bool) : RoomApprovals C :=
  let s := { s.tell core kind (.startTimeout entry) with idle := false }
  if tools then s.spawn (.prompting kind entry false) else s

def onPermissionAsked (config : Config) (pending : PendingPermission) (tools client : Bool) : RoomApprovals C :=
  if pending.requestId = "" then s
  else if config.isOwnBandTool pending.permission then
    if client then
      { s.spawn .owning with sent := s.sent ++ [.ownBandTool pending.requestId pending.permission] }
    else (s.cancel core).spawn (.aborting .permission none)
  else
    match s.register core .permission pending with
    | (none, s) => s
    | (some entry, s) =>
      match config.approvalMode with
      | .manual => s.ask core entry tools
      | .autoAccept =>
        s.enter.replyNow core views s.made client entry.payload (fun _ => ApprovalReply.once) .mode none
      | .autoDecline =>
        s.enter.replyNow core views s.made client entry.payload (fun _ => ApprovalReply.reject) .mode none

def onQuestionAsked (config : Config) (pending : PendingQuestion) (tools client : Bool) : RoomApprovals C :=
  if pending.requestId = "" then s
  else
    match s.register core .question pending with
    | (none, s) => s
    | (some entry, s) =>
      if pending.questions = [] ∨ config.questionMode = .autoReject then
        s.enter.replyNow core views s.made client entry.payload (fun entry => rejection _ entry.payload)
          .mode none
      else s.ask core entry tools

/-! ### Routing a room message -/

inductive AskState where
  | waiting
  | inFlight
  | resolved
  deriving DecidableEq

def heldAsk (kind : AskKind) (requestId : String) : Option (AskKind × AskState) :=
  if ((s.registry kind).get requestId).isSome then
    some (kind, if s.isUnclaimed views kind requestId then .waiting else .inFlight)
  else none

def resolvedAsk (kind : AskKind) (requestId : String) : Option (AskKind × AskState) :=
  if requestId ∈ s.known kind then some (kind, .resolved) else none

/-- The ask an id names; of two kinds, `prefer`. -/
def namedAsk (requestId : String) (prefer : AskKind) : Option (AskKind × AskState) :=
  let other := if prefer = .permission then AskKind.question else .permission
  (s.heldAsk views prefer requestId <|> s.heldAsk views other requestId) <|>
    (s.resolvedAsk prefer requestId <|> s.resolvedAsk other requestId)

inductive ReplyRoute where
  | permissionReply (command : PermissionCommand)
  | questionRejection (question : PendingQuestion)
  | questionAnswer (question : PendingQuestion) (text : String)
  | namedQuestionGone (requestId : String)
  | namedQuestionGrant (requestId : String)

def routeNamed (command : PermissionCommand) (requestId : String) :
    AskKind × AskState → Option ReplyRoute
  | (.permission, _) => some (.permissionReply command)
  | (.question, .resolved) => some (.namedQuestionGone requestId)
  | (.question, state) =>
    if command.rejects then
      ((s.registry .question).get requestId).map fun entry => .questionRejection entry.payload
    else if state = .waiting then some (.namedQuestionGrant requestId)
    else some (.namedQuestionGone requestId)

/-- Whether a bare or unrecognized command is for a permission. -/
def permissionCommandApplies (command : PermissionCommand) : Bool :=
  if command.grants then
    if command.requestId.isSome && s.hasUnclaimed views .question then false else s.parkedOnHuman views
  else s.hasUnclaimed views .permission

/-- A text that no permission takes: it rejects or answers the oldest question. -/
def routeQuestion (raw : String) (command : Option PermissionCommand) : Option ReplyRoute :=
  (s.oldestUnclaimed views .question).map fun oldest =>
    if command.any PermissionCommand.rejects then .questionRejection oldest.payload
    else .questionAnswer oldest.payload (Text.strip (stripLeadingMentions raw true))

def routeReply (content : String) : Option ReplyRoute :=
  let raw := Text.strip content
  if raw = "" then none
  else
    match commandOf content with
    | none => s.routeQuestion views raw none
    | some command =>
      let prefer := if command.rejects then AskKind.question else .permission
      match command.requestId, command.requestId.bind (s.namedAsk views · prefer) with
      | some requestId, some named => s.routeNamed command requestId named
      | _, _ =>
        if s.permissionCommandApplies views command then some (.permissionReply command)
        else
          match command.rejects, command.requestId with
          | true, some requestId =>
            if (s.registry .question).entries = [] then none
            else some (.namedQuestionGone requestId)
          | _, _ => s.routeQuestion views raw (some command)

/-! ### Handling it -/

def resolvePermission (requestId : Option String) : Option PendingPermission :=
  match requestId with
  | some requestId => ((s.registry .permission).get requestId).map DecisionEntry.payload
  | none =>
    match s.unclaimed views .permission with
    | [only] => some only.payload
    | _ => none

def handlePermissionReply (command : PermissionCommand) (cause : Cause) : RoomApprovals C :=
  if command.requestId = none ∧ command.rejects ∧ s.hasUnclaimed views .permission ∧
      s.hasUnclaimed views .question then s
  else
    match s.resolvePermission views command.requestId with
    | none => s
    | some pending => s.answer core views .permission pending.requestId (fun _ => command.reply) cause

/-- `try_handle_reply`; a message that is not handled goes to OpenCode. -/
def tryHandleReply (content : String) : RoomApprovals C :=
  let cause := Cause.message content s.awaiting
  match s.routeReply views content with
  | none | some (.namedQuestionGone _) | some (.namedQuestionGrant _) => s
  | some (.permissionReply command) => s.handlePermissionReply core views command cause
  | some (.questionRejection question) =>
    s.answer core views .question question.requestId (fun entry => rejection _ entry.payload) cause
  | some (.questionAnswer question text) =>
    match parseQuestionAnswers text question.questions.length with
    | none => s
    | some answers => s.answer core views .question question.requestId (fun _ => answers) cause

/-! ### Expiry, and what calls go on with -/

/-- The answer of an ask nobody answered in time. -/
def timeoutAnswer (config : Config) : (kind : AskKind) → Pending kind → Answer kind
  | .permission, _ => config.approvalTimeoutReply
  | .question, pending => rejection .question pending

/-- A timeout task wakes; the ask it claims is answered by a task. -/
def expire (config : Config) (kind : AskKind) (task : Nat) : Option (RoomApprovals C) := do
  let timeout ← (s.registry kind).tasks[task]?
  let (outcome, _) ← (s.registry kind).expire core task
  let s := s.tell core kind (.expire task)
  return if outcome = .claimed then
    s.spawn (.delivering kind timeout.entry (timeoutAnswer config kind timeout.entry.payload) .expired)
  else s

/-- The `except` of `_notify_originators`. -/
def promptFailed (call : Nat) {kind : AskKind} (entry : DecisionEntry (Pending kind)) (input : Input) :
    RoomApprovals C :=
  if input.sameTools then s.rejectUndeliverable core views call input.client entry none
  else s.setCall call none

def resume (call : Nat) (input : Input) : Option (RoomApprovals C) :=
  match s.calls call, input.ended with
  | none, _ => none
  | some (.prompting _ entry _), .raised => some (s.promptFailed core views call entry input)
  | some (.prompting kind entry false), .returned =>
    if input.sameTools = false ∨ entry ∉ s.unclaimed views kind then some (s.setCall call none)
    else if input.mentioned = false then
      some (s.rejectUndeliverable core views call input.client entry (some entry))
    else some (s.setCall call (some (.prompting kind entry true)))
  | some (.delivering _ entry answer cause), .returned =>
    if input.authoritative then some (s.send core call input.client entry answer cause none)
    else some (s.setCall call none)
  | some (.delivering ..), .raised => none
  | some (.sending kind entry _), .returned => some ((s.forget core views kind entry).setCall call none)
  | some (.sending kind _ prompt), .raised => some ((s.cancel core).setCall call (some (.aborting kind prompt)))
  | some .owning, .raised => some ((s.cancel core).setCall call (some (.aborting .permission none)))
  | some (.aborting _ (some entry)), .raised => some (s.promptFailed core views call entry input)
  | some _, _ => some (s.setCall call none)

def step (config : Config) (s : RoomApprovals C) : Event → Option (RoomApprovals C)
  | .permissionAsked requestId permission patterns tools client =>
    some (s.onPermissionAsked core views config ⟨requestId, permission, patterns⟩ tools client)
  | .questionAsked requestId questions tools client =>
    some (s.onQuestionAsked core views config ⟨requestId, questions⟩ tools client)
  | .message content => some (s.tryHandleReply core views content)
  | .expire kind task => s.expire core config kind task
  | .cancel => some (s.cancel core)
  | .resume call input => s.resume core views call input

end Asks

end RoomApprovals

/-- A room starts with no asks; the ids asked before it are known to it. -/
def approvals {C : Type} (core : Core C) (views : Views C) (config : Config) :
    Machine (RoomApprovals C) Event where
  init s := ∃ known, s = { asks := fun _ => { registry := { core := core.new } }, known := known }
  step := RoomApprovals.step core views config

end BandSdk.Opencode

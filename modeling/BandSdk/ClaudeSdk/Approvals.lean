/-
# ClaudeSdk.Approvals -- tool permissions the room decides

Claude asks for each native tool call through `can_use_tool`.  In manual mode the request
is registered under a token of its room, put to the room, and waits for `/approve` or
`/decline`, its time limit, an eviction or the room's cleanup.  What the callback returns
is checked once more against the residency that asked and the turn it came from.

A request runs from one await to the next; `resume` names the request and how its await
ended.  A room's registry is an object of its own: the room drops it when it is empty or
cleaned up, and requests made before go on with the one they have.  `settled`, `delivered`,
`answered` and `results` record the futures that were given a result, the decline notices
that reached a room, the turns a decline answered and what the callbacks returned; no code
reads them.

Left out: the texts of the notices, the ages `/approvals` lists, and `/status`.
-/
import BandSdk.Decisions.Answers
import BandSdk.Runtime.Mentions
import BandSdk.Theory.Asyncio

namespace BandSdk.ClaudeSdk

open BandSdk.Theory BandSdk.Runtime BandSdk.Decisions

/-! ## Commands -/

inductive ClaudeSDKCommand where
  | approve
  | decline
  | approvals
  | status

/-- `_LOCAL_CMDS`. -/
def localCmds (word : String) : Option ClaudeSDKCommand :=
  if word = "approve" then some .approve
  else if word = "decline" then some .decline
  else if word = "approvals" then some .approvals
  else if word = "status" then some .status
  else none

/-- The first word, if it is a command, and the rest. -/
def extractCommand (content : String) : Option (ClaudeSDKCommand × String) :=
  match (stripLeadingMentions content false).toList.dropWhile Text.isSpace with
  | '/' :: stripped =>
    let word := Text.lower (String.ofList (stripped.takeWhile (· ≠ ' ')))
    let rest := String.ofList ((stripped.dropWhile (· ≠ ' ')).drop 1)
    (localCmds word).map fun command => (command, Text.strip rest)
  | _ => none

/-! ## Requests -/

inductive ApprovalMode where
  | manual
  | autoAccept
  | autoDecline
  deriving DecidableEq

/-- `authorized` is `is_authorized_sender` for the configured senders; `didWork` says of a tool that
its call would have done the turn's work. -/
structure Options where
  mode : ApprovalMode
  textNotifications : Bool
  timeoutAccepts : Bool
  authorized : String → Bool
  didWork : String → Bool

/-- A reply, with the message it came in and the tokens that awaited one then, for the record. -/
structure ApprovalReply where
  accepts : Bool
  senderId : String
  content : String
  awaiting : List String
  deriving DecidableEq

/-- `future` is the number of the request that waits for it. -/
structure PendingApproval where
  toolName : String
  summary : String
  future : Nat
  deriving DecidableEq

/-- Where a callback awaits: the notice of its mode's decision, the prompt (its mentions, then its
post), the answer (with its time limit, or without once a claim beat the limit), or the notice of a
reply or of a timeout. -/
inductive Phase where
  | announcing
  | prompting (posting : Bool)
  | waiting (limited : Bool)
  | replying (reply : ApprovalReply)
  | timingOut
  | ended
  deriving DecidableEq

structure Request where
  room : String
  /-- The session and generation the callback is bound to. -/
  residency : Nat
  /-- The turn whose tools it has. -/
  turn : Nat
  toolUseId : String
  registry : Nat := 0
  entry : Option (DecisionEntry PendingApproval) := none
  phase : Phase

inductive Cause where
  | mode
  | undelivered
  | forced
  | replied (reply : ApprovalReply)
  | timedOut

structure Result where
  request : Nat
  allowed : Bool
  cause : Cause

/-- An entry of `permission_denials`. -/
structure Denial where
  toolName : Option String
  toolUseId : Option String

/-- The core's view of what awaits an answer. -/
structure Views (C : Type) where
  unclaimed : C → List String

structure Views.Documented {C : Type} (views : Views C) (slots : C → List Slot) : Prop where
  unclaimed : ∀ c, views.unclaimed c = ((slots c).filter (!·.claimed)).map Slot.token

structure Adapter (C : Type) where
  registries : Nat → State C PendingApproval
  pendingApprovals : List (String × Nat) := []
  objects : Nat := 0
  approvalSeq : List (String × Nat) := []
  requests : Nat → Option Request := fun _ => none
  made : Nat := 0
  futures : Nat → Option (Option ApprovalReply) := fun _ => none
  notifiedDeclines : List (String × String) := []
  /-- Residencies and turns that still hold authority. -/
  speaks : Nat → Bool := fun _ => true
  authoritative : Nat → Bool := fun _ => true
  settled : List Nat := []
  delivered : List (String × String) := []
  answered : List (String × List Denial) := []
  results : List Result := []

/-- How an await ended; `ok` tells that a notice was delivered, or that the prompt has someone to
mention and a session that still speaks. -/
inductive Input where
  | ended (ended : Ended) (ok : Bool)
  | timeout

inductive Event where
  /-- `origin` is the turn the tool call belongs to; `retained` tells that the wait could be kept. -/
  | request (room : String) (residency : Nat) (origin : Option Nat) (toolName summary toolUseId : String)
      (retained : Bool)
  | resume (request : Nat) (input : Input)
  | message (room content senderId : String)
  | turnComplete (room : String) (isError : Bool) (denials : List Denial)
  /-- `_clear_pending_approvals_for_room`, first in `on_cleanup`; then `_forget_room`. -/
  | cleanup (room : String)
  | forgetRoom (room : String)
  | cleanupAll
  | residency (residency : Nat) (speaks : Bool)
  | turn (turn : Nat) (authoritative : Bool)

namespace Adapter

section Steps

variable {C : Type} (core : Core C) (views : Views C) (options : Options) (s : Adapter C)

/-! ### Registries and futures -/

def registry (object : Nat) : Registry C PendingApproval := (s.registries object).registry

/-- A call of a registry. -/
def tell (object : Nat) (event : Decisions.Event PendingApproval) : Adapter C :=
  let after := (Decisions.step core (s.registries object) event).getD (s.registries object)
  { s with registries := Function.update s.registries object after }

/-- Entries still awaiting an answer; the core's tokens are all held. -/
def unclaimed (object : Nat) : List (DecisionEntry PendingApproval) :=
  (views.unclaimed (s.registry object).core).filterMap (s.registry object).get

/-- The tokens that await an answer, for the record. -/
def awaiting (object : Nat) : List String :=
  ((s.registry object).entries.filter (· ∉ (s.registries object).ledger.claims)).map DecisionEntry.token

/-- `future.set_result`. -/
def setResult (future : Nat) (reply : Option ApprovalReply) : Adapter C :=
  { s with
    futures := Function.update s.futures future (some reply)
    settled := s.settled ++ [future] }

/-- Asks that were removed are settled without a reply. -/
def force (removed : List (DecisionEntry PendingApproval)) : Adapter C :=
  removed.foldl (fun s entry => s.setResult entry.payload.future none) s

def setPhase (n : Nat) (request : Request) (phase : Phase) : Adapter C :=
  { s with requests := Function.update s.requests n (some { request with phase := phase }) }

/-! ### The end of a callback -/

def clearPendingApproval (room : String) (entry : DecisionEntry PendingApproval) : Adapter C :=
  match Keyed.get room s.pendingApprovals with
  | none => s
  | some object =>
    let s := s.tell core object (.forget entry)
    if (s.registry object).entries = [] then
      { s with pendingApprovals := Keyed.erase room s.pendingApprovals }
    else s

/-- Out of `answering` and of the callback's `finally`. -/
def leave (request : Request) : Adapter C :=
  match request.entry with
  | none => s
  | some entry => (s.tell core request.registry (.waitOver entry)).clearPendingApproval core request.room entry

/-- The callback returns; an allowance needs the authority of its residency and of its turn. -/
def finish (n : Nat) (request : Request) (allowed : Bool) (cause : Cause) : Adapter C :=
  let s := s.setPhase n request .ended
  let allowed := allowed && s.speaks request.residency && s.authoritative request.turn
  { s with results := s.results ++ [⟨n, allowed, cause⟩] }

/-- A decline was posted. -/
def recordNotifiedDecline (request : Request) : Adapter C :=
  { s with
    notifiedDeclines :=
      if request.toolUseId = "" then s.notifiedDeclines
      else s.notifiedDeclines ++ [(request.room, request.toolUseId)]
    delivered := s.delivered ++ [(request.room, request.toolUseId)] }

/-- A callback goes with a decision; a delivered notice of a decline is recorded. -/
def conclude (n : Nat) (request : Request) (allowed notified : Bool) (cause : Cause) : Adapter C :=
  let s := if notified && !allowed then s.recordNotifiedDecline request else s
  (s.leave core request).finish n request allowed cause

/-! ### A request -/

def nextApprovalToken (room : String) : String × Adapter C :=
  let seq := (Keyed.get room s.approvalSeq).getD 0 + 1
  ("a-" ++ toString seq, { s with approvalSeq := Keyed.setItem room seq s.approvalSeq })

/-- The room's registry, a new one if it has none. -/
def openRegistry (room : String) : Nat × Adapter C :=
  match Keyed.get room s.pendingApprovals with
  | some object => (object, s)
  | none =>
    (s.objects, { s with
      pendingApprovals := Keyed.setItem room s.objects s.pendingApprovals
      objects := s.objects + 1 })

/-- A registration that comes to nothing raises, and so does a wait that cannot be kept. -/
def register (request : Request) (pending : PendingApproval) (token : String) (retained : Bool) : Adapter C :=
  let n := s.made
  let registered := ((s.registry request.registry).registerKeyed core pending token).1.toOption.join
  let s := { s.tell core request.registry (.registerKeyed pending token) with made := n + 1 }
  match registered with
  | none => s.setPhase n request .ended
  | some registration =>
    (s.force registration.removed).setPhase n { request with entry := some registration.entry }
      (if retained then .prompting false else .ended)

def requestManual (request : Request) (toolName summary : String) (retained : Bool) : Adapter C :=
  let (token, s) := s.nextApprovalToken request.room
  let (object, s) := s.openRegistry request.room
  s.register core { request with registry := object } ⟨toolName, summary, s.made⟩ token retained

/-- `can_use_tool`, up to its first await. -/
def canUseTool (request : Request) (origin : Option Nat) (toolName summary : String) (retained : Bool) :
    Adapter C :=
  let n := s.made
  match origin with
  | some turn =>
    let request := { request with turn := turn }
    if s.speaks request.residency = false ∨ s.authoritative turn = false then
      { s with made := n + 1 }.finish n request false .mode
    else
      match options.mode with
      | .manual => s.requestManual core request toolName summary retained
      | _ =>
        if options.textNotifications then { s with made := n + 1 }.setPhase n request .announcing
        else { s with made := n + 1 }.finish n request (options.mode = ApprovalMode.autoAccept) .mode
  | none => { s with made := n + 1 }.finish n request false .mode

/-- A prompt that did not reach the room is declined, unless a reply claimed it. -/
def unnotified (n : Nat) (request : Request) (entry : DecisionEntry PendingApproval) : Adapter C :=
  let withdrawn := ((s.registry request.registry).withdraw core entry).1.toOption = some true
  let s := s.tell core request.registry (.withdraw entry)
  if withdrawn then
    (s.clearPendingApproval core request.room entry).finish n request false .undelivered
  else s.setPhase n request (.waiting true)

/-- What a future's result is followed by. -/
def proceed (n : Nat) (request : Request) : Option ApprovalReply → Adapter C
  | none => s.conclude core n request false false .forced
  | some reply => s.setPhase n request (.replying reply)

/-- `_wait_for_answer` at its time limit. -/
def timeLimit (n : Nat) (request : Request) (entry : DecisionEntry PendingApproval) : Adapter C :=
  match s.futures n with
  | some reply => s.proceed core n request reply
  | none =>
    let (outcome, _) := (s.registry request.registry).claim core none entry
    let s := s.tell core request.registry (.waitTimedOut entry)
    if outcome = .alreadyClaimed then s.setPhase n request (.waiting false)
    else s.setPhase n request .timingOut

def resume (n : Nat) (input : Input) : Option (Adapter C) :=
  (s.requests n).bind fun request =>
    match request.phase, request.entry, input with
    | .ended, _, _ => none
    | .announcing, _, .ended .returned delivered =>
      some (s.conclude core n request (options.mode = .autoAccept) delivered .mode)
    | .prompting false, some entry, .ended .returned ok =>
      if ok && entry ∈ s.unclaimed views request.registry then some (s.setPhase n request (.prompting true))
      else some (s.unnotified core n request entry)
    | .prompting true, _, .ended .returned _ => some (s.setPhase n request (.waiting true))
    | .prompting _, some entry, .ended .raised _ => some (s.unnotified core n request entry)
    | .prompting _, some entry, .ended .cancelled _ =>
      some ((s.clearPendingApproval core request.room entry).setPhase n request .ended)
    | .waiting _, _, .ended .returned _ => (s.futures n).map (s.proceed core n request)
    | .waiting _, _, .ended .raised _ => none
    | .waiting true, some entry, .timeout => some (s.timeLimit core n request entry)
    | .replying reply, _, .ended .returned delivered =>
      some (s.conclude core n request reply.accepts delivered (.replied reply))
    | .timingOut, _, .ended .returned delivered =>
      some (s.conclude core n request options.timeoutAccepts delivered .timedOut)
    | _, _, .timeout => none
    | _, _, .ended _ _ => some ((s.leave core request).setPhase n request .ended)

/-! ### The room -/

/-- `/approve` and `/decline`. -/
def handleApprovalCommand (room : String) (accepts : Bool) (args content senderId : String) : Adapter C :=
  if options.authorized senderId = false then s
  else
    match Keyed.get room s.pendingApprovals with
    | none => s
    | some object =>
      let named := Text.strip args
      let token := if named = "" then
          match s.unclaimed views object with
          | [only] => some only.token
          | _ => none
        else some named
      match token with
      | none => s
      | some token =>
        let claimed := ((s.registry object).tryClaim core token).1
        let reply : ApprovalReply := ⟨accepts, senderId, content, s.awaiting object⟩
        let s := s.tell core object (.tryClaim token)
        match claimed with
        | none => s
        | some entry => s.setResult entry.payload.future (some reply)

def tryHandleControl (room content senderId : String) : Adapter C :=
  match extractCommand content with
  | some (.approve, args) => s.handleApprovalCommand core views options room true args content senderId
  | some (.decline, args) => s.handleApprovalCommand core views options room false args content senderId
  | _ => s

/-- `removeprefix` of Band's own server. -/
def semanticToolName (name : String) : String :=
  let own := "mcp__band__".toList
  if own.isPrefixOf name.toList then String.ofList (name.toList.drop own.length) else name

local instance lawfulPair : LawfulBEq (String × String) := inferInstance

def declinedTheReply (room : String) (denials : List Denial) : Bool :=
  denials.any fun denial =>
    match denial.toolUseId, denial.toolName with
    | some id, some name => (room, id) ∈ s.notifiedDeclines ∧ options.didWork (semanticToolName name)
    | _, _ => false

def onTurnComplete (room : String) (isError : Bool) (denials : List Denial) : Adapter C :=
  let declined := s.declinedTheReply options room denials
  let s := { s with notifiedDeclines := s.notifiedDeclines.filter (·.1 ≠ room) }
  if !isError && declined then { s with answered := s.answered ++ [(room, denials)] } else s

def clearPendingApprovalsForRoom (room : String) : Adapter C :=
  match Keyed.get room s.pendingApprovals with
  | none => s
  | some object =>
    let cancelled := ((s.registry object).cancelAll core).1.toOption.getD []
    { s.tell core object .cancelAll with
      pendingApprovals := Keyed.erase room s.pendingApprovals }.force cancelled

def step : Event → Option (Adapter C)
  | .request room residency origin toolName summary toolUseId retained =>
    some (s.canUseTool core options
      { room := room, residency := residency, turn := 0, toolUseId := toolUseId, phase := .ended } origin
      (semanticToolName toolName) summary retained)
  | .resume n input => s.resume core views options n input
  | .message room content senderId => some (s.tryHandleControl core views options room content senderId)
  | .turnComplete room isError denials => some (s.onTurnComplete options room isError denials)
  | .cleanup room => some (s.clearPendingApprovalsForRoom core room)
  | .forgetRoom room =>
    some { s with notifiedDeclines := s.notifiedDeclines.filter (·.1 ≠ room) }
  | .cleanupAll =>
    some ((s.pendingApprovals.map Prod.fst).foldl (fun s room => s.clearPendingApprovalsForRoom core room) s)
  | .residency residency speaks => some { s with speaks := Function.update s.speaks residency speaks }
  | .turn turn authoritative =>
    some { s with authoritative := Function.update s.authoritative turn authoritative }

end Steps

end Adapter

def adapter {C : Type} (core : Core C) (views : Views C) (options : Options) : Machine (Adapter C) Event where
  init s := s = { registries := fun _ => { registry := { core := core.new } } }
  step s e := s.step core views options e

end BandSdk.ClaudeSdk

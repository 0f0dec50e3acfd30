/-
# CrewFlow.State -- run records and the log they are folded from

A run of a CrewAI Flow has no memory between turns but the task events of its
room.  Every event carries a `CrewAIFlowMetadata` payload of one run;
`CrewAIFlowStateConverter.convert` folds them, in log order, into one record a
run: `_merge` lets the last write win on scalars, merges the lists by their keys,
and a terminal status closes the record for good.

Identifiers are numbers: they are compared for equality only.  A run is named by
the message that started it.  A side-effect key is the text after `<run>:` in the
source (`final`, `delegate:<id>`, `subcrew:<n>`) and is only ever compared within
one run.

Left out, because no modelled function reads them: the ids of the reservation and
confirmation events, `sequential_chains` (the adapter never writes one), the
room id, the text-only behaviour and the error's message; and malformed payloads,
which the adapter does not write.  The log is in the converter's sort order.
-/
import BandSdk.Theory.Keyed

namespace BandSdk.CrewFlow

open BandSdk.Theory

abbrev MessageId := Nat
abbrev RunId := MessageId
abbrev DelegationId := Nat
/-- A normalised participant key. -/
abbrev PeerKey := String

/-! ## The wire schema -/

inductive RunStatus where
  | observed
  | sideEffectReserved
  | delegatedPending
  | waiting
  | replyRecorded
  | replyAmbiguous
  | finalized
  | failed
  | indeterminate
  deriving DecidableEq

inductive Stage where
  | initial
  | delegated
  | waitingForReplies
  | downstreamRequired
  | synthesizing
  | done
  | failed
  | indeterminate
  deriving DecidableEq

inductive DelegationStatus where
  | reserved
  | pending
  | replied
  | ambiguous
  | failed
  | indeterminate
  deriving DecidableEq

inductive JoinPolicy where
  | all
  | first
  deriving DecidableEq

/-- `_TERMINAL_RUN_STATUSES`. -/
def RunStatus.isTerminal : RunStatus → Bool
  | .finalized | .failed | .indeterminate => true
  | _ => false

inductive SideEffectKey where
  | final
  | delegate (id : DelegationId)
  | subcrew (n : Nat)
  deriving DecidableEq

structure Participant where
  participantId : String
  normalizedKey : PeerKey
  deriving DecidableEq

structure Delegation where
  delegationId : DelegationId
  target : Participant
  status : DelegationStatus
  delegationMessageId : Option MessageId
  replyMessageId : Option MessageId
  deriving DecidableEq

structure BufferedSynthesis where
  sourceMessageId : MessageId
  content : String
  deriving DecidableEq

structure SideEffect where
  key : SideEffectKey
  messageId : Option MessageId
  deriving DecidableEq

/-- `CrewAIFlowMetadata`. -/
structure Metadata where
  parentMessageId : MessageId
  status : RunStatus
  stage : Stage
  joinPolicy : JoinPolicy
  delegations : List Delegation
  bufferedSyntheses : List BufferedSynthesis
  sideEffects : List SideEffect
  taggedPeerKeys : List PeerKey
  delegationRounds : Nat
  finalSideEffectKey : Option SideEffectKey
  finalMessageId : Option MessageId
  error : Option String
  deriving DecidableEq

def Metadata.isTerminal (m : Metadata) : Bool := m.status.isTerminal

/-! ## The converter -/

/-- A side effect seen again keeps what the new event does not carry. -/
def SideEffect.combine (current new : SideEffect) : SideEffect :=
  { current with messageId := new.messageId.or current.messageId }

/-- A list merged by key: `{x.key: x for x in existing}`, then the new ones. -/
def mergeDelegations (existing incoming : List Delegation) : List Delegation :=
  Keyed.putAll Delegation.delegationId Keyed.replace incoming
    (Keyed.putAll Delegation.delegationId Keyed.replace existing [])

def mergeSideEffects (existing incoming : List SideEffect) : List SideEffect :=
  Keyed.putAll SideEffect.key SideEffect.combine incoming
    (Keyed.putAll SideEffect.key Keyed.replace existing [])

/-- Buffered syntheses keep the first of each source message. -/
def mergeBuffered (existing incoming : List BufferedSynthesis) : List BufferedSynthesis :=
  incoming.foldl (fun merged b =>
    if merged.any (·.sourceMessageId = b.sourceMessageId) then merged else merged ++ [b]) existing

/-- `_merge`. -/
def merge (existing incoming : Metadata) : Metadata :=
  { existing with
    status := incoming.status
    stage := incoming.stage
    joinPolicy := incoming.joinPolicy
    delegations := mergeDelegations existing.delegations incoming.delegations
    bufferedSyntheses := mergeBuffered existing.bufferedSyntheses incoming.bufferedSyntheses
    sideEffects := mergeSideEffects existing.sideEffects incoming.sideEffects
    taggedPeerKeys :=
      if incoming.taggedPeerKeys = [] then existing.taggedPeerKeys else incoming.taggedPeerKeys
    delegationRounds := max existing.delegationRounds incoming.delegationRounds
    finalSideEffectKey := incoming.finalSideEffectKey.or existing.finalSideEffectKey
    finalMessageId := incoming.finalMessageId.or existing.finalMessageId
    error := incoming.error.or existing.error }

/-- A run's record meets its next event. -/
def absorb (existing : Option Metadata) (incoming : Metadata) : Metadata :=
  match existing with
  | none => incoming
  | some m => if m.isTerminal then m else merge m incoming

/-- What an event says it is, in its `content`. -/
inductive Content where
  | waiting
  | failed (code : String)
  | reserve (key : SideEffectKey)
  | finalized (key : SideEffectKey)
  | indeterminate (key : SideEffectKey)
  | delegated (key : SideEffectKey)
  | subcrewSent (key : SideEffectKey)
  | replyRecorded (id : DelegationId)
  | replyAmbiguous
  | buffered (source : MessageId)
  deriving DecidableEq

/-- A task event of the adapter's namespace.  `author` is the message whose turn
wrote it; no code reads it. -/
structure TaskEvent where
  run : RunId
  content : Content
  payload : Metadata
  author : MessageId

/-- `CrewAIFlowSessionState.runs`. -/
abbrev Runs := List (RunId × Metadata)

def Runs.get (runs : Runs) (run : RunId) : Option Metadata := Keyed.get run runs

/-- `is_terminal`. -/
def Runs.isTerminal (runs : Runs) (run : RunId) : Bool := (runs.get run).any Metadata.isTerminal

def foldEvent (runs : Runs) (event : TaskEvent) : Runs :=
  Keyed.setItem event.run (absorb (runs.get event.run) event.payload) runs

/-- An unfinished run past `max_run_age` is closed. -/
def ageOut (aged : RunId → Bool) (pair : RunId × Metadata) : RunId × Metadata :=
  if aged pair.1 && !pair.2.isTerminal then
    (pair.1, { pair.2 with status := .failed, stage := .failed, error := some "run_aged_out" })
  else pair

/-- `convert`; `aged` says which runs began longer ago than `max_run_age`. -/
def convert (aged : RunId → Bool) (log : List TaskEvent) : Runs :=
  (log.foldl foldEvent []).map (ageOut aged)

/-! ## Reply matching -/

/-- An inbound message.  `sender` is its normalised sender, or nothing when two
participants share it; `token` is the correlation token in its text and `tagged`
the participants it tags. -/
structure Message where
  id : MessageId
  sender : Option PeerKey
  fromAgent : Bool
  token : Option String
  tagged : List PeerKey

/-- What `_match_reply_to_delegation` returns. -/
inductive Matched where
  | nothing
  | ambiguous (run : RunId)
  | delegation (run : RunId) (id : DelegationId) (record : Metadata)

def Delegation.isOpen (d : Delegation) : Bool := d.status = .pending || d.status = .reserved

/-- Rules 2 and 3: the router's own message, and a reply recorded before. -/
def Delegation.knows (d : Delegation) (m : Message) : Bool :=
  d.delegationMessageId = some m.id || d.replyMessageId = some m.id

def activeRuns (runs : Runs) : Runs := runs.filter fun pair => !pair.2.isTerminal

/-- The open delegations to `sender`, with their runs. -/
def candidates (runs : Runs) (sender : PeerKey) : List (RunId × Delegation × Metadata) :=
  (activeRuns runs).flatMap fun pair =>
    (pair.2.delegations.filter fun d =>
      d.isOpen && d.target.normalizedKey ≠ "" && d.target.normalizedKey = sender).map
        fun d => (pair.1, d, pair.2)

/-- The first of several candidates stands for the ambiguity. -/
def ambiguity : List (RunId × Delegation × Metadata) → Matched
  | [] => .nothing
  | (run, _, _) :: _ => .ambiguous run

def matchReply (refToken : RunId → DelegationId → String) (m : Message) (runs : Runs) : Matched :=
  match m.sender with
  | none =>
    match (activeRuns runs).find? fun pair => pair.2.delegations.any Delegation.isOpen with
    | some pair => .ambiguous pair.1
    | none => .nothing
  | some sender =>
    if (activeRuns runs).any fun pair => pair.2.delegations.any (·.knows m) then .nothing
    else
      let found := candidates runs sender
      let hits := match m.token with
        | some token => found.filter fun (c : RunId × Delegation × Metadata) =>
          refToken c.1 c.2.1.delegationId = token
        | none => found
      match hits with
      | [(run, d, record)] => .delegation run d.delegationId record
      | _ => ambiguity found

end BandSdk.CrewFlow

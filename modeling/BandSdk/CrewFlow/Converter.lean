/-
# CrewFlow.Converter -- the room's state from its task events, as delivered

`CrewFlow.State` folds a log in which every event is well formed and in order.
This is the converter in front of it: events arrive in any order and any number
of times, of any namespace, and a payload may be malformed.  Those of the
namespace are sorted by time and id and folded into one record a run; a payload
that does not validate closes its run with a record of its own.

Validation and the parsing of times are parameters, as is the hex that names the
run of an event without an id.  `convert_of_same_events` says that the state is a
function of the set of events delivered.
-/
import BandSdk.CrewFlow.State
import BandSdk.Theory.Folding
import BandSdk.Theory.Json

namespace BandSdk.CrewFlow.Wire

open BandSdk.Theory List Option Keyed

/-! ## The wire schema -/

inductive TextOnlyBehavior where
  | errorEvent
  | fallbackSend
  deriving DecidableEq

inductive ChainStatus where
  | notStarted
  | upstreamReplied
  | downstreamDelegated
  | complete
  deriving DecidableEq

structure CrewAIFlowParticipantSnapshot where
  participantId : String
  handle : Option String
  normalizedKey : String
  deriving DecidableEq

structure CrewAIFlowDelegationState where
  delegationId : String
  target : CrewAIFlowParticipantSnapshot
  status : DelegationStatus
  sideEffectKey : String
  reservedEventId : Option String
  delegationMessageId : Option String
  sentEventId : Option String
  replyMessageId : Option String
  deriving DecidableEq

structure CrewAIFlowSequentialChainState where
  upstreamKey : String
  downstreamKey : String
  status : ChainStatus
  deriving DecidableEq

def CrewAIFlowSequentialChainState.key (c : CrewAIFlowSequentialChainState) : String × String :=
  (c.upstreamKey, c.downstreamKey)

structure CrewAIFlowBufferedSynthesis where
  sourceMessageId : String
  content : String
  deriving DecidableEq

structure CrewAIFlowSideEffectState where
  sideEffectKey : String
  reservedEventId : Option String
  messageId : Option String
  sentEventId : Option String
  deriving DecidableEq

structure CrewAIFlowError where
  code : String
  message : String
  deriving DecidableEq

structure CrewAIFlowMetadata where
  roomId : String
  runId : String
  parentMessageId : String
  status : RunStatus
  stage : Stage
  joinPolicy : JoinPolicy := .all
  textOnlyBehavior : TextOnlyBehavior := .errorEvent
  delegations : List CrewAIFlowDelegationState := []
  sequentialChains : List CrewAIFlowSequentialChainState := []
  bufferedSyntheses : List CrewAIFlowBufferedSynthesis := []
  sideEffects : List CrewAIFlowSideEffectState := []
  taggedPeerKeys : List String := []
  delegationRounds : Int := 0
  finalSideEffectKey : Option String := none
  finalReservedEventId : Option String := none
  finalMessageId : Option String := none
  finalSentEventId : Option String := none
  error : Option CrewAIFlowError := none
  deriving DecidableEq

def CrewAIFlowMetadata.isTerminal (m : CrewAIFlowMetadata) : Bool := m.status.isTerminal

/-! ## Merging -/

/-- `a or b`, of optional texts. -/
def orText (a b : Option String) : Option String := if a.getD "" = "" then b else a

/-- A side effect seen again keeps what the new event does not carry. -/
def CrewAIFlowSideEffectState.combine (current s : CrewAIFlowSideEffectState) : CrewAIFlowSideEffectState :=
  { current with
    reservedEventId := orText s.reservedEventId current.reservedEventId
    messageId := orText s.messageId current.messageId
    sentEventId := orText s.sentEventId current.sentEventId }

/-- `_merge`. -/
def merge (existing incoming : CrewAIFlowMetadata) : CrewAIFlowMetadata :=
  { existing with
    status := incoming.status
    stage := incoming.stage
    joinPolicy := incoming.joinPolicy
    textOnlyBehavior := incoming.textOnlyBehavior
    delegations := Keyed.putAll CrewAIFlowDelegationState.delegationId Keyed.replace incoming.delegations
      (Keyed.putAll CrewAIFlowDelegationState.delegationId Keyed.replace existing.delegations [])
    sequentialChains := Keyed.putAll CrewAIFlowSequentialChainState.key Keyed.replace incoming.sequentialChains
      (Keyed.putAll CrewAIFlowSequentialChainState.key Keyed.replace existing.sequentialChains [])
    bufferedSyntheses := Keyed.appendNew CrewAIFlowBufferedSynthesis.sourceMessageId
      existing.bufferedSyntheses incoming.bufferedSyntheses
    sideEffects := Keyed.putAll CrewAIFlowSideEffectState.sideEffectKey CrewAIFlowSideEffectState.combine
      incoming.sideEffects
      (Keyed.putAll CrewAIFlowSideEffectState.sideEffectKey Keyed.replace existing.sideEffects [])
    taggedPeerKeys :=
      if incoming.taggedPeerKeys = [] then existing.taggedPeerKeys else incoming.taggedPeerKeys
    delegationRounds := max existing.delegationRounds incoming.delegationRounds
    finalSideEffectKey := orText incoming.finalSideEffectKey existing.finalSideEffectKey
    finalReservedEventId := orText incoming.finalReservedEventId existing.finalReservedEventId
    finalMessageId := orText incoming.finalMessageId existing.finalMessageId
    finalSentEventId := orText incoming.finalSentEventId existing.finalSentEventId
    error := incoming.error.or existing.error }

/-! ## Events as delivered -/

/-- A moment in microseconds, and its offset from UTC unless it is naive. -/
structure DateTime where
  wall : Int
  utcOffset : Option Int
  deriving DecidableEq

/-- `assume_utc`, as the instant it compares by. -/
def DateTime.instant (moment : DateTime) : Int := moment.wall - moment.utcOffset.getD 0

/-- What an event may have under `inserted_at`. -/
inductive InsertedAt where
  | absent
  | datetime (moment : DateTime)
  | str (text : String)
  /-- A value of another type. -/
  | other
  deriving DecidableEq

structure RawEvent where
  id : Option String
  messageId : Option String
  insertedAt : InsertedAt
  /-- `metadata` as a plain dict. -/
  metadata : List (String × Json)

/-- What the converter is given from outside. -/
structure Reader where
  fromIsoFormat : String → Option DateTime
  /-- `CrewAIFlowMetadata.model_validate`, or the text of its error. -/
  validate : Json → Except String CrewAIFlowMetadata
  str : Json → String
  /-- The `uuid4().hex` drawn `n` draws into the conversion. -/
  hex : Nat → String
  /-- How a `max_run_age` is printed. -/
  strAge : Int → String

structure Settings where
  metadataNamespace : String := "crewai_flow"
  maxRunAge : Option Int := none

variable (reader : Reader) (settings : Settings)

def coerceInsertedAt : InsertedAt → Option Int
  | .datetime moment => some moment.instant
  | .str text => (reader.fromIsoFormat text).map DateTime.instant
  | .absent | .other => none

/-- `_sort_key`: the instant, then the id. -/
def sortKey (event : RawEvent) : Lex (Int × String) :=
  toLex ((coerceInsertedAt reader event.insertedAt).getD 0, (orText event.id event.messageId).getD "")

/-- An event of the namespace, with what the fold reads of it. -/
structure Candidate where
  inserted : Int
  msgId : String
  event : RawEvent
  payload : Json

def Candidate.key (c : Candidate) : Lex (Int × String) := toLex (c.inserted, c.msgId)

def payloadOf (event : RawEvent) : Option Json :=
  match event.metadata.lookup settings.metadataNamespace with
  | none | some .null => none
  | some payload => some payload

def candidate (event : RawEvent) : Option Candidate :=
  (payloadOf settings event).map fun payload =>
    { inserted := (ofLex (sortKey reader event)).1
      msgId := (ofLex (sortKey reader event)).2
      event := event
      payload := payload }

/-! ## The fold -/

structure Fold where
  runs : List (String × CrewAIFlowMetadata) := []
  runFirstSeenInsertedAt : List (String × Int) := []
  draws : Nat := 0

def payloadField (payload : Json) (key : String) : Option Json :=
  match payload with
  | .obj fields => fields.lookup key
  | _ => none

/-- `_best_effort_run_id`, where the payload names a run or the event has an id. -/
def namedRunId (payload : Json) (event : RawEvent) : Option String :=
  match (payloadField payload "run_id").bind Json.asStr with
  | some runId => if runId = "" then (event.id.filter (· ≠ "")).map ("unknown:" ++ ·) else some runId
  | none => (event.id.filter (· ≠ "")).map ("unknown:" ++ ·)

def bestEffortRunId (draws : Nat) (payload : Json) (event : RawEvent) : String :=
  (namedRunId payload event).getD ("unknown:" ++ reader.hex draws)

/-- `str(payload.get(key) or "")`. -/
def payloadText (payload : Json) (key : String) : String :=
  match payloadField payload key with
  | some value => if value.truthy then reader.str value else ""
  | none => ""

/-- The record of a run with a malformed event. -/
def malformedRecord (runId : String) (payload : Json) (error : String) : CrewAIFlowMetadata where
  roomId := payloadText reader payload "room_id"
  runId := runId
  parentMessageId :=
    if payloadText reader payload "parent_message_id" = "" then runId
    else payloadText reader payload "parent_message_id"
  status := .failed
  stage := .failed
  error := some { code := "malformed_metadata", message := String.ofList (error.toList.take 500) }

/-- A run's record meets its next valid event. -/
def absorb (existing : Option CrewAIFlowMetadata) (incoming : CrewAIFlowMetadata) : CrewAIFlowMetadata :=
  match existing with
  | none => incoming
  | some m => if m.isTerminal then m else merge m incoming

/-- A run's record meets a malformed event. -/
def fail (existing : Option CrewAIFlowMetadata) (record : CrewAIFlowMetadata) : CrewAIFlowMetadata :=
  match existing with
  | none => record
  | some m => if m.isTerminal then m else record

def setdefault (key : String) (value : Int) (l : List (String × Int)) : List (String × Int) :=
  if (Keyed.get key l).isSome then l else Keyed.setItem key value l

def foldEvent (s : Fold) (c : Candidate) : Fold :=
  match reader.validate c.payload with
  | .error error =>
    let runId := bestEffortRunId reader s.draws c.payload c.event
    { s with
      runs := Keyed.setItem runId
        (fail (Keyed.get runId s.runs) (malformedRecord reader runId c.payload error)) s.runs
      draws := if (namedRunId c.payload c.event).isSome then s.draws else s.draws + 1 }
  | .ok incoming =>
    { s with
      runs := Keyed.setItem incoming.runId (absorb (Keyed.get incoming.runId s.runs) incoming) s.runs
      runFirstSeenInsertedAt := setdefault incoming.runId c.inserted s.runFirstSeenInsertedAt }

/-- An unfinished run past `max_run_age` is closed. -/
def ageOut (now maxRunAge : Int) (firstSeen : List (String × Int)) (pair : String × CrewAIFlowMetadata) :
    String × CrewAIFlowMetadata :=
  match Keyed.get pair.1 firstSeen with
  | some seen =>
    if now - seen > maxRunAge ∧ pair.2.isTerminal = false then
      (pair.1, { pair.2 with
        status := .failed
        stage := .failed
        error := some {
          code := "run_aged_out"
          message := "Run exceeded max_run_age (" ++ reader.strAge maxRunAge ++ "); proactively closed." } })
    else pair
  | none => pair

/-- The events of the namespace, in the order they are folded in. -/
def candidates (raw : List RawEvent) : List Candidate :=
  sortOn Candidate.key (raw.filterMap (candidate reader settings))

/-- `convert`, as of `now`. -/
def convert (now : Int) (raw : List RawEvent) : List (String × CrewAIFlowMetadata) :=
  let s := (candidates reader settings raw).foldl (foldEvent reader) {}
  match settings.maxRunAge with
  | none => s.runs
  | some maxRunAge => s.runs.map (ageOut reader now maxRunAge s.runFirstSeenInsertedAt)

/-! ## Once is as good as twice -/

/-- No key stands twice in a list of the payload. -/
structure UniqueKeys (m : CrewAIFlowMetadata) : Prop where
  delegations : (m.delegations.map CrewAIFlowDelegationState.delegationId).Nodup
  chains : (m.sequentialChains.map CrewAIFlowSequentialChainState.key).Nodup
  sideEffects : (m.sideEffects.map CrewAIFlowSideEffectState.sideEffectKey).Nodup

@[simp] theorem orText_self (a : Option String) : orText a a = a := by
  unfold orText
  split <;> rfl

@[simp] theorem orText_orText (a b : Option String) : orText a (orText a b) = orText a b := by
  unfold orText
  split <;> rfl

namespace CrewAIFlowSideEffectState

theorem key_combine (a b : CrewAIFlowSideEffectState) (same : a.sideEffectKey = b.sideEffectKey) :
    (a.combine b).sideEffectKey = b.sideEffectKey := same

theorem combine_settles (a b : CrewAIFlowSideEffectState) (_ : a.sideEffectKey = b.sideEffectKey) :
    (a.combine b).combine b = a.combine b := by
  simp [combine]

theorem combine_self (a : CrewAIFlowSideEffectState) : a.combine a = a := by
  simp [combine]

end CrewAIFlowSideEffectState

open CrewAIFlowSideEffectState (key_combine combine_settles combine_self)

theorem merge_self {m : CrewAIFlowMetadata} (unique : UniqueKeys m) : merge m m = m := by
  have delegations := putAll_self key_replace replace_settles replace_same
    unique.delegations
  have chains := putAll_self key_replace replace_settles replace_same unique.chains
  have sideEffects := putAll_self key_combine combine_settles combine_self unique.sideEffects
  simp only [merge, putAll_nil unique.delegations, putAll_nil unique.chains,
    putAll_nil unique.sideEffects, delegations, chains, sideEffects, appendNew_self, ite_self,
    max_self, orText_self, Option.or_self]

theorem merge_merge (m : CrewAIFlowMetadata) {e : CrewAIFlowMetadata} (unique : UniqueKeys e) :
    merge (merge m e) e = merge m e := by
  have fresh {α κ : Type} [DecidableEq κ] (key : α → κ) (values : List α) :
      ((putAll key replace values []).map key).Nodup :=
    nodup_putAll key_replace nodup_nil
  have delegations := putAll_putAll key_replace replace_settles replace_same
    unique.delegations (putAll CrewAIFlowDelegationState.delegationId replace m.delegations [])
  have chains := putAll_putAll key_replace replace_settles replace_same
    unique.chains (putAll CrewAIFlowSequentialChainState.key replace m.sequentialChains [])
  have sideEffects := putAll_putAll key_combine combine_settles combine_self unique.sideEffects
    (putAll CrewAIFlowSideEffectState.sideEffectKey replace m.sideEffects [])
  have tagged : (if e.taggedPeerKeys = [] then
      (if e.taggedPeerKeys = [] then m.taggedPeerKeys else e.taggedPeerKeys) else e.taggedPeerKeys) =
      if e.taggedPeerKeys = [] then m.taggedPeerKeys else e.taggedPeerKeys := by
    split <;> rfl
  simp only [merge, putAll_nil (nodup_putAll key_replace (fresh _ _)),
    putAll_nil (nodup_putAll key_combine (fresh _ _)), delegations, chains, sideEffects,
    appendNew_appendNew, tagged, orText_orText, max_assoc, max_self]
  cases e.error <;> rfl

theorem absorb_absorb (existing : Option CrewAIFlowMetadata) {e : CrewAIFlowMetadata} (unique : UniqueKeys e) :
    absorb (some (absorb existing e)) e = absorb existing e := by
  cases existing with
  | none =>
    by_cases closed : e.isTerminal = true
    · simp [absorb, closed]
    · simp [absorb, closed, merge_self unique]
  | some m =>
    by_cases closed : m.isTerminal = true
    · simp [absorb, closed]
    by_cases closes : (merge m e).isTerminal = true
    · simp [absorb, closed, closes]
    · simp [absorb, closed, closes, merge_merge m unique]

theorem fail_fail (existing : Option CrewAIFlowMetadata) {record : CrewAIFlowMetadata}
    (closed : record.isTerminal = true) : fail (some (fail existing record)) record = fail existing record := by
  have terminal : (fail existing record).isTerminal = true := by
    cases existing with
    | none => exact closed
    | some m =>
      simp only [fail]
      split
      · assumption
      · exact closed
  rw [fail, if_pos terminal]

theorem setItem_setItem {α : Type} (key : String) (value : α) (l : List (String × α)) :
    Keyed.setItem key value (Keyed.setItem key value l) = Keyed.setItem key value l :=
  put_put key_replace replace_settles replace_same (key, value) l

theorem setdefault_setdefault (key : String) (value : Int) (l : List (String × Int)) :
    setdefault key value (setdefault key value l) = setdefault key value l := by
  by_cases seen : (get key l).isSome
  · simp [setdefault, seen]
  · simp [setdefault, seen, get_setItem]

/-- Folding an event in twice is folding it in once. -/
theorem foldEvent_foldEvent (s : Fold) (c : Candidate) (named : (namedRunId c.payload c.event).isSome)
    (unique : ∀ m, reader.validate c.payload = .ok m → UniqueKeys m) :
    foldEvent reader (foldEvent reader s c) c = foldEvent reader s c := by
  cases read : reader.validate c.payload with
  | error error =>
    obtain ⟨runId, named⟩ := isSome_iff_exists.1 named
    simp only [foldEvent, read, bestEffortRunId, named, getD_some, isSome_some, if_true, get_setItem]
    have closed : (malformedRecord reader runId c.payload error).isTerminal = true := rfl
    rw [fail_fail _ closed, setItem_setItem]
  | ok incoming =>
    simp only [foldEvent, read, get_setItem, if_true]
    rw [absorb_absorb _ (unique incoming read), setItem_setItem, setdefault_setdefault]

/-! ## Any order, any number of times -/

theorem candidate_eq_some {event : RawEvent} {c : Candidate} (found : candidate reader settings event = some c) :
    c.event = event ∧ c.key = sortKey reader event ∧ payloadOf settings event = some c.payload := by
  obtain ⟨payload, here, rfl⟩ := map_eq_some_iff.1 found
  exact ⟨rfl, rfl, here⟩

theorem mem_candidates {raw : List RawEvent} {c : Candidate} :
    c ∈ candidates reader settings raw ↔ ∃ event ∈ raw, candidate reader settings event = some c := by
  rw [candidates, mem_sortOn, mem_filterMap]

theorem map_key_sublist (raw : List RawEvent) :
    ((raw.filterMap (candidate reader settings)).map Candidate.key).Sublist (raw.map (sortKey reader)) := by
  induction raw with
  | nil => exact List.Sublist.refl _
  | cons event raw ih =>
    rw [map_cons]
    cases found : candidate reader settings event with
    | none =>
      rw [filterMap_cons_none found]
      exact ih.cons _
    | some c =>
      rw [filterMap_cons_some found, map_cons, (candidate_eq_some reader settings found).2.1]
      exact ih.cons_cons _

theorem named_of_id {payload : Json} {event : RawEvent} {id : String} (identified : event.id = some id)
    (nonempty : id ≠ "") : (namedRunId payload event).isSome := by
  unfold namedRunId
  split
  · split
    · simp [identified, nonempty]
    · rfl
  · simp [identified, nonempty]

/-- **Order and repetition do not matter.**  Over events with ids, no two of one time and
id, whose payloads have no key twice in a list, and without an age limit, the state is
the same for every list of the same events, in any order and with any of them repeated. -/
theorem convert_of_same_events (now now' : Int) (ageless : settings.maxRunAge = none)
    {raw raw' : List RawEvent} (identified : ∀ event ∈ raw, ∃ id, event.id = some id ∧ id ≠ "")
    (apart : (raw.map (sortKey reader)).Nodup)
    (unique : ∀ event ∈ raw, ∀ payload, payloadOf settings event = some payload →
      ∀ m, reader.validate payload = .ok m → UniqueKeys m)
    (same : ∀ event, event ∈ raw' ↔ event ∈ raw) :
    convert reader settings now' raw' = convert reader settings now raw := by
  have keys : ∀ c ∈ candidates reader settings raw, ∀ c' ∈ candidates reader settings raw,
      c.key = c'.key → c = c' := by
    intro c inside c' inside' eq
    obtain ⟨event, member, found⟩ := (mem_candidates reader settings).1 inside
    obtain ⟨event', member', found'⟩ := (mem_candidates reader settings).1 inside'
    rw [(candidate_eq_some reader settings found).2.1, (candidate_eq_some reader settings found').2.1] at eq
    obtain rfl := inj_on_of_nodup_map apart member member' eq
    exact some.inj (found.symm.trans found')
  have sorted : (candidates reader settings raw).Pairwise fun a b => a.key < b.key := by
    have distinct : (candidates reader settings raw).Nodup := by
      refine sortOn_perm.nodup_iff.2 (List.Nodup.of_map Candidate.key ?_)
      exact apart.sublist (map_key_sublist reader settings raw)
    refine (List.Pairwise.and sortOn_sorted distinct).imp_of_mem ?_
    intro a b first second both
    exact lt_of_le_of_ne both.1 fun eq => both.2 (keys a first b second eq)
  have members (c : Candidate) : c ∈ candidates reader settings raw' ↔ c ∈ candidates reader settings raw := by
    simp only [mem_candidates, same]
  have idempotent (s : Fold) (c : Candidate) (inside : c ∈ candidates reader settings raw) :
      foldEvent reader (foldEvent reader s c) c = foldEvent reader s c := by
    obtain ⟨event, member, found⟩ := (mem_candidates reader settings).1 inside
    obtain ⟨own, -, payload⟩ := candidate_eq_some reader settings found
    obtain ⟨id, here, nonempty⟩ := identified event member
    exact foldEvent_foldEvent reader s c (named_of_id (own ▸ here) nonempty)
      (unique event member c.payload payload)
  have sorted' : (candidates reader settings raw').Pairwise fun a b => a.key ≤ b.key := sortOn_sorted
  simp only [convert, ageless]
  rw [foldl_eq_of_same_members idempotent sorted sorted' members]

/-! ### Two events, the later one delivered first and twice -/

/-- A reader that knows one valid payload, which delegates to no one, and dates nothing. -/
def sampleReader : Reader where
  fromIsoFormat _ := none
  validate
    | .str runId => .ok { roomId := "room", runId := runId, parentMessageId := runId, status := .waiting, stage := .initial }
    | _ => .error "not a text"
  str _ := ""
  hex _ := ""
  strAge _ := ""

/-- An event of the namespace, `at_` microseconds into the epoch. -/
def sampleEvent (id : String) (at_ : Int) (payload : Json) : RawEvent where
  id := some id
  messageId := none
  insertedAt := .datetime { wall := at_, utcOffset := some 0 }
  metadata := [("crewai_flow", payload)]

theorem convert_of_same_events_sample :
    convert sampleReader {} 0 [sampleEvent "e2" 2 (.bool true), sampleEvent "e1" 1 (.str "r"), sampleEvent "e2" 2 (.bool true)] =
      convert sampleReader {} 0 [sampleEvent "e1" 1 (.str "r"), sampleEvent "e2" 2 (.bool true)] := by
  refine convert_of_same_events sampleReader {} 0 0 rfl ?_ ?_ ?_ ?_
  · intro event inside
    rcases mem_pair.1 inside with rfl | rfl
    · exact ⟨"e1", rfl, by decide⟩
    · exact ⟨"e2", rfl, by decide⟩
  · simp [sampleEvent, sortKey, coerceInsertedAt, DateTime.instant]
  · rintro event - payload - m valid
    cases payload with
    | str runId =>
      obtain rfl := Except.ok.inj valid
      exact ⟨nodup_nil, nodup_nil, nodup_nil⟩
    | null | bool _ | int _ | float _ | arr _ | obj _ => cases valid
  · intro event
    simp only [mem_cons, not_mem_nil, or_false]
    tauto

end BandSdk.CrewFlow.Wire

/-
# CrewFlow.Replies -- which delegation a message answers

`matchReplyToDelegation` looks through the open runs of the room for the
delegation an inbound message replies to, and `route` is what the turn does with
the answer: record the reply, record an ambiguity, drop the message, or let the
Flow run for it.

A match is always the one open delegation to the sender, or the one the message's
correlation token selects (`match_sound`).  A message that was seen before is
another matter.  It is recognised in open runs only, and being recognised means no
match, which sends it on to the Flow like a new message unless an agent wrote it.
`redelivery_iff` says in which states a redelivery is handled as such.

SHA-256 and the lower-casing of keys are parameters.
-/
import BandSdk.CrewFlow.Converter
import BandSdk.CrewFlow.Keys

namespace BandSdk.CrewFlow.Wire

open BandSdk.Theory List

/-! ## An inbound message -/

structure PlatformMessage where
  id : String
  content : String
  senderId : String
  senderType : String := "User"

def isLowerHex (c : Char) : Bool := c.isDigit || ('a' ≤ c && c ≤ 'f')

/-- `\[ref:([0-9a-f]{8})\]` at the start of a text. -/
def refAt : List Char → Option (List Char)
  | '[' :: 'r' :: 'e' :: 'f' :: ':' :: rest =>
    let token := rest.take 8
    if token.length = 8 ∧ token.all isLowerHex = true ∧ (rest.drop 8).head? = some ']' then some token
    else none
  | _ => none

/-- The token of the first such reference in a message. -/
def correlationToken (content : String) : Option (List Char) := content.toList.tails.findSome? refAt

/-! ## Matching -/

/-- `CrewAIFlowSessionState.runs`. -/
abbrev SessionState := List (String × CrewAIFlowMetadata)

structure AmbiguousReply where
  runId : String
  parentMessageId : String
  reason : String
  deriving DecidableEq

/-- A delegation of a run, by its id. -/
structure ReplyMatch where
  runId : String
  delegationId : String
  run : CrewAIFlowMetadata
  deriving DecidableEq

inductive Matched where
  | nothing
  | ambiguous (reply : AmbiguousReply)
  | delegation (found : ReplyMatch)

namespace CrewAIFlowDelegationState

variable (d : CrewAIFlowDelegationState)

def isOpen : Bool := d.status = .pending || d.status = .reserved

/-- Rules 2 and 3: the router's own message, or a reply recorded before. -/
def knows (messageId : String) : Bool :=
  d.delegationMessageId = some messageId || d.replyMessageId = some messageId

def isTo (key : List Char) : Bool := d.target.normalizedKey ≠ "" && d.target.normalizedKey.toList = key

end CrewAIFlowDelegationState

/-- What the adapter is given: its casing, and `hashlib.sha256(key.encode()).hexdigest()`. -/
structure Matcher where
  casing : Keys.Lowering
  sha256 : String → List Char

variable (matcher : Matcher) (state : SessionState) (m : PlatformMessage)
  (participants : List Keys.CrewAIFlowParticipantSnapshot)

def activeRuns : SessionState := state.filter fun pair => !pair.2.isTerminal

def senderKey : Except Keys.CrewAIFlowAmbiguousIdentityError (List Char) :=
  Keys.normalizeParticipantKey matcher.casing m.senderId.toList (some (Keys.participantDicts participants))

/-- The open delegations to `key`, over all runs that are not terminal. -/
def replyCandidates (key : List Char) : List ReplyMatch :=
  (activeRuns state).flatMap fun pair =>
    (pair.2.delegations.filter fun d => d.isOpen && d.isTo key).map fun d =>
      ⟨pair.1, d.delegationId, pair.2⟩

/-- Whether a delegation entry has the candidate's id and the token. -/
def hasToken (token : List Char) (c : ReplyMatch) (d : CrewAIFlowDelegationState) : Bool :=
  d.delegationId = c.delegationId && (matcher.sha256 d.sideEffectKey).take 8 = token

/-- `_candidates_matching_token`, of a message with a token. -/
def candidatesMatchingToken (token : List Char) (candidates : List ReplyMatch) : List ReplyMatch :=
  candidates.flatMap fun c => (c.run.delegations.filter (hasToken matcher token c)).map fun _ => c

/-- The candidates a message leaves. -/
def fitting (key : List Char) : List ReplyMatch :=
  match correlationToken m.content with
  | some token => candidatesMatchingToken matcher token (replyCandidates state key)
  | none => replyCandidates state key

/-- The first of several candidates stands for the ambiguity. -/
def ambiguity (reason : String) : List ReplyMatch → Matched
  | [] => .nothing
  | first :: _ => .ambiguous ⟨first.runId, first.run.parentMessageId, reason⟩

/-- A run that is not terminal knows the message. -/
def knownInActive : Bool := (activeRuns state).any fun pair => pair.2.delegations.any (·.knows m.id)

/-- `_match_reply_to_delegation`.  The scan returns nothing at the first delegation that
knows the message, whatever it has collected by then. -/
def matchReplyToDelegation : Matched :=
  match senderKey matcher m participants with
  | .error _ =>
    match (activeRuns state).find? fun pair => pair.2.delegations.any (·.isOpen) with
    | some (runId, run) => .ambiguous ⟨runId, run.parentMessageId, "ambiguous_sender_identity"⟩
    | none => .nothing
  | .ok key =>
    if knownInActive state m then .nothing
    else
      let candidates := replyCandidates state key
      match fitting matcher state m key with
      | [only] => .delegation only
      | _ =>
        ambiguity (if (correlationToken m.content).isSome then "correlation_token_mismatch"
          else "multiple_pending_delegations") candidates

/-! ## What becomes of the message -/

inductive Routed where
  /-- The message's own run is terminal. -/
  | skipped
  | replyAmbiguous (reply : AmbiguousReply)
  | reply (found : ReplyMatch)
  | discarded
  /-- The Flow runs, for the run named by the message. -/
  | flow
  deriving DecidableEq

/-- `is_terminal`. -/
def isTerminalRun (runId : String) : Bool := (Keyed.get runId state).any CrewAIFlowMetadata.isTerminal

/-- `_process_one_turn`, from the loaded state to the Flow. -/
def route (acceptAgentInitiated : Bool) : Routed :=
  if isTerminalRun state m.id then .skipped
  else
    match matchReplyToDelegation matcher state m participants with
    | .ambiguous reply => .replyAmbiguous reply
    | .delegation found => .reply found
    | .nothing => if m.senderType = "Agent" && !acceptAgentInitiated then .discarded else .flow

/-! ## A match is the one delegation -/

/-- The delegation is open, of a run that is not terminal, and its target is the sender; and
it is the only such delegation, or the only one with an entry that has the message's token. -/
structure Justified (found : ReplyMatch) : Prop where
  run : (found.runId, found.run) ∈ state
  active : found.run.isTerminal = false
  delegation : ∃ d ∈ found.run.delegations, d.delegationId = found.delegationId ∧
    (d.status = .pending ∨ d.status = .reserved) ∧
    senderKey matcher m participants = .ok d.target.normalizedKey.toList
  unique : ∃ key, senderKey matcher m participants = .ok key ∧
    (replyCandidates state key = [found] ∨ ∃ token, correlationToken m.content = some token ∧
      (replyCandidates state key).filter (fun c => c.run.delegations.any (hasToken matcher token c)) = [found])

section Candidates

variable {matcher state m participants} {key : List Char} {c : ReplyMatch}

theorem mem_replyCandidates : c ∈ replyCandidates state key ↔ (c.runId, c.run) ∈ state ∧
    c.run.isTerminal = false ∧
    ∃ d ∈ c.run.delegations, d.delegationId = c.delegationId ∧ d.isOpen = true ∧ d.isTo key = true := by
  unfold replyCandidates activeRuns
  simp only [mem_flatMap, mem_filter, mem_map, Bool.not_eq_true', Bool.and_eq_true]
  constructor
  · rintro ⟨pair, ⟨inside, active⟩, d, ⟨listed, opened, addressed⟩, rfl⟩
    exact ⟨inside, active, d, listed, rfl, opened, addressed⟩
  · rintro ⟨inside, active, d, listed, same, opened, addressed⟩
    exact ⟨(c.runId, c.run), ⟨inside, active⟩, d, ⟨listed, opened, addressed⟩, by rw [same]⟩

/-- One candidate with a hit means that no other candidate has one. -/
theorem filter_of_hits {token : List Char} {candidates : List ReplyMatch}
    (only : candidatesMatchingToken matcher token candidates = [c]) :
    candidates.filter (fun c => c.run.delegations.any (hasToken matcher token c)) = [c] := by
  induction candidates with
  | nil => cases only
  | cons a rest ih =>
    rw [candidatesMatchingToken, flatMap_cons] at only
    cases hits : a.run.delegations.filter (hasToken matcher token a) with
    | nil =>
      have none_ : a.run.delegations.any (hasToken matcher token a) = false := by
        rw [any_eq_false]
        exact fun d inside => filter_eq_nil_iff.1 hits d inside
      rw [hits, map_nil, nil_append] at only
      rw [filter_cons, if_neg (by simp [none_])]
      exact ih only
    | cons d more =>
      have some_ : a.run.delegations.any (hasToken matcher token a) = true := by
        have hit := mem_filter.1 (hits ▸ mem_cons_self : d ∈ a.run.delegations.filter _)
        exact any_eq_true.2 ⟨d, hit.1, hit.2⟩
      rw [hits, map_cons, cons_append] at only
      obtain ⟨rfl, empty⟩ := List.cons.inj only
      have others : candidatesMatchingToken matcher token rest = [] := (append_eq_nil_iff.1 empty).2
      rw [filter_cons, if_pos some_]
      congr
      rw [filter_eq_nil_iff]
      intro b inside
      rw [Bool.not_eq_true, any_eq_false]
      intro d' listed hit
      have there : b ∈ candidatesMatchingToken matcher token rest :=
        mem_flatMap.2 ⟨b, inside, mem_map.2 ⟨d', mem_filter.2 ⟨listed, hit⟩, rfl⟩⟩
      rw [others] at there
      cases there

theorem matched_iff {found : ReplyMatch} :
    matchReplyToDelegation matcher state m participants = .delegation found ↔
      ∃ key, senderKey matcher m participants = .ok key ∧ knownInActive state m = false ∧
        fitting matcher state m key = [found] := by
  unfold matchReplyToDelegation
  cases senderKey matcher m participants with
  | error error =>
    dsimp only
    constructor
    · intro matched
      split at matched <;> cases matched
    · rintro ⟨key, same, -⟩
      cases same
  | ok key =>
    dsimp only
    constructor
    · intro matched
      split at matched
      · cases matched
      rename_i unknown
      refine ⟨key, rfl, by simpa using unknown, ?_⟩
      split at matched
      · rename_i only single
        cases matched
        exact single
      · unfold ambiguity at matched
        split at matched <;> cases matched
    · rintro ⟨key', same, unknown, single⟩
      cases same
      rw [if_neg (by simp [unknown]), single]

theorem match_sound {found : ReplyMatch}
    (matched : matchReplyToDelegation matcher state m participants = .delegation found) :
    Justified matcher state m participants found := by
  obtain ⟨key, sender, -, single⟩ := matched_iff.1 matched
  have unique : replyCandidates state key = [found] ∨ ∃ token, correlationToken m.content = some token ∧
      (replyCandidates state key).filter (fun c => c.run.delegations.any (hasToken matcher token c)) = [found] := by
    unfold fitting at single
    cases here : correlationToken m.content with
    | none =>
      rw [here] at single
      exact .inl single
    | some token =>
      rw [here] at single
      exact .inr ⟨token, rfl, filter_of_hits single⟩
  have inside : found ∈ replyCandidates state key := by
    rcases unique with alone | ⟨token, -, selected⟩
    · rw [alone]
      exact mem_singleton_self _
    · exact (mem_filter.1 (selected ▸ mem_singleton_self found)).1
  obtain ⟨run, active, d, listed, same, opened, addressed⟩ := mem_replyCandidates.1 inside
  refine ⟨run, active, ⟨d, listed, same, ?_, ?_⟩, key, sender, unique⟩
  · simpa [CrewAIFlowDelegationState.isOpen] using opened
  have target : d.target.normalizedKey.toList = key := by
    simp only [CrewAIFlowDelegationState.isTo, Bool.and_eq_true, decide_eq_true_eq] at addressed
    exact addressed.2
  rw [sender, target]

end Candidates

/-! ## A message delivered again -/

/-- A delegation of some run, terminal or not, has the message as its reply. -/
def RepliedWith : Prop := ∃ pair ∈ state, ∃ d ∈ pair.2.delegations, d.replyMessageId = some m.id

/-- What is said of one delivery: a match is justified, a reply is recorded once, and a message an
open run knows starts no run. -/
structure DeliveryKept (acceptAgentInitiated : Bool) : Prop where
  sound : ∀ found, matchReplyToDelegation matcher state m participants = .delegation found →
    Justified matcher state m participants found
  once : RepliedWith state m → ∀ found, route matcher state m participants acceptAgentInitiated ≠ .reply found
  starts : knownInActive state m = true →
    ¬ (route matcher state m participants acceptAgentInitiated = .flow ∧ Keyed.get m.id state = none)

/-- Where that is so. -/
structure DeliveryHandled (acceptAgentInitiated : Bool) : Prop where
  /-- A reply that only terminal runs know fits no single open delegation. -/
  replies : RepliedWith state m → isTerminalRun state m.id = true ∨ knownInActive state m = true ∨
    ∀ key, senderKey matcher m participants = .ok key → (fitting matcher state m key).length ≠ 1
  /-- A message an open run knows has a run already, or is an agent's that may start none, or its
  sender is ambiguous while a delegation is open. -/
  starts : knownInActive state m = true → (Keyed.get m.id state).isSome = true ∨
    (m.senderType = "Agent" ∧ acceptAgentInitiated = false) ∨
    ((∀ key, senderKey matcher m participants ≠ .ok key) ∧
      ∃ pair ∈ activeRuns state, ∃ d ∈ pair.2.delegations, d.isOpen = true)

section Delivery

variable {matcher state m participants} {acceptAgentInitiated : Bool}

theorem route_reply_iff {found : ReplyMatch} :
    route matcher state m participants acceptAgentInitiated = .reply found ↔ isTerminalRun state m.id = false ∧
        matchReplyToDelegation matcher state m participants = .delegation found := by
  unfold route
  split
  · rename_i closed
    simp [closed]
  · rename_i active
    rw [Bool.not_eq_true] at active
    cases matchReplyToDelegation matcher state m participants with
    | nothing =>
      dsimp only
      split <;> simp
    | ambiguous reply => simp
    | delegation other => simp [active]

theorem route_flow_iff : route matcher state m participants acceptAgentInitiated = .flow ↔
    isTerminalRun state m.id = false ∧ matchReplyToDelegation matcher state m participants = .nothing ∧
      ¬ (m.senderType = "Agent" ∧ acceptAgentInitiated = false) := by
  unfold route
  split
  · rename_i closed
    simp [closed]
  · rename_i active
    rw [Bool.not_eq_true] at active
    cases matchReplyToDelegation matcher state m participants with
    | nothing =>
      dsimp only
      split
      · rename_i dropped
        simp only [Bool.and_eq_true, decide_eq_true_eq, Bool.not_eq_true'] at dropped
        simp [dropped]
      · rename_i kept
        simp only [Bool.and_eq_true, decide_eq_true_eq, Bool.not_eq_true'] at kept
        simp only [active, true_and, true_iff]
        exact kept
    | ambiguous reply | delegation other => simp

/-- A message an open run knows has no match, unless its sender is ambiguous. -/
theorem nothing_of_known (known : knownInActive state m = true) :
    matchReplyToDelegation matcher state m participants = .nothing ↔
      ¬ ((∀ key, senderKey matcher m participants ≠ .ok key) ∧
        ∃ pair ∈ activeRuns state, ∃ d ∈ pair.2.delegations, d.isOpen = true) := by
  unfold matchReplyToDelegation
  cases senderKey matcher m participants with
  | ok key =>
    dsimp only
    rw [if_pos known]
    simp
  | error error =>
    cases search : (activeRuns state).find? fun pair => pair.2.delegations.any (·.isOpen) with
    | none =>
      have closed := List.find?_eq_none.1 search
      simp only [any_eq_true] at closed
      simp only [true_iff, not_and]
      rintro - ⟨pair, inside, d, listed, opened⟩
      exact closed pair inside ⟨d, listed, opened⟩
    | some pair =>
      have inside := mem_of_find?_eq_some search
      have opened : pair.2.delegations.any (·.isOpen) = true := by simpa using List.find?_some search
      obtain ⟨d, listed, holds⟩ := any_eq_true.1 opened
      simp only [reduceCtorEq, false_iff, not_not]
      refine ⟨fun key same => ?_, pair, inside, d, listed, holds⟩
      cases same

theorem once_iff : (RepliedWith state m → ∀ found,
      route matcher state m participants acceptAgentInitiated ≠ .reply found) ↔
    (RepliedWith state m → isTerminalRun state m.id = true ∨ knownInActive state m = true ∨
      ∀ key, senderKey matcher m participants = .ok key → (fitting matcher state m key).length ≠ 1) := by
  refine forall_congr' fun _ => ?_
  simp only [Ne, route_reply_iff, matched_iff]
  constructor
  · intro never
    by_contra loose
    push Not at loose
    obtain ⟨active, unknown, key, sender, single⟩ := loose
    obtain ⟨found, only⟩ := length_eq_one_iff.1 single
    exact never found ⟨by simpa using active, key, sender, by simpa using unknown, only⟩
  · rintro handled found ⟨active, key, sender, unknown, only⟩
    rcases handled with closed | known | several
    · rw [active] at closed
      cases closed
    · rw [unknown] at known
      cases known
    · exact several key sender (by rw [only]; rfl)

/-- **Redelivery.**  A match is the one open delegation to the sender or the one its token
selects, in every state.  That a reply is recorded once and that a message an open run
knows starts no run is so exactly in the states of `DeliveryHandled`. -/
theorem redelivery_iff : DeliveryKept matcher state m participants acceptAgentInitiated ↔
    DeliveryHandled matcher state m participants acceptAgentInitiated := by
  constructor
  · intro kept
    refine ⟨once_iff.1 kept.once, fun known => ?_⟩
    by_contra loose
    push Not at loose
    obtain ⟨fresh, agent, sender⟩ := loose
    have none_ : Keyed.get m.id state = none := by simpa using fresh
    have active : isTerminalRun state m.id = false := by simp [isTerminalRun, none_]
    refine kept.starts known ⟨route_flow_iff.2 ⟨active, (nothing_of_known known).2 ?_, ?_⟩, none_⟩
    · rintro ⟨ambiguous, pair, inside, d, listed, opened⟩
      exact sender ambiguous pair inside d listed opened
    · rintro ⟨byAgent, refused⟩
      exact agent byAgent refused
  · intro handled
    refine ⟨fun found matched => match_sound matched, once_iff.2 handled.replies, ?_⟩
    rintro known ⟨flow, fresh⟩
    obtain ⟨-, nothing, agent⟩ := route_flow_iff.1 flow
    rcases handled.starts known with has | dropped | ambiguous
    · rw [fresh] at has
      cases has
    · exact agent dropped
    · exact (nothing_of_known known).1 nothing ambiguous

end Delivery

end BandSdk.CrewFlow.Wire

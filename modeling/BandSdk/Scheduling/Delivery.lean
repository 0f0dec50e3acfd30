/-
# Scheduling.Delivery -- eligibility, and one turn over its batch

`Core` is what the room uses of the shared claim registry and retry tracker: each
answers from what it recorded of one delivery (`ρ`), and that record is the only
thing it changes.  `run` is one turn over that registry, from the screening of
its members to the release of their claims.

An answer (`Round`, `Write`, ...) says how an await returned and, in `Meanwhile`,
what the other tasks did until then; a list of answers that ends early says that
the await raised.
-/
import BandSdk.Scheduling.Selection

namespace BandSdk.Scheduling

open BandSdk.Turns

variable {I ρ : Type}

/-- The core's answer; `other` stands for those the room only skips. -/
inductive Eligibility where
  | runnable
  | pending
  | inflight
  | completed
  | failed
  | other
  deriving DecidableEq

/-- What the room knows about a delivery, for the core eligibility rule. -/
structure DeliveryFacts where
  selfEcho : Bool
  durablyProcessed : Bool
  durablyFailed : Bool
  allowFailedRetry : Bool

/-- A terminal write the platform has not confirmed. -/
structure PendingSettlement where
  status : DeliveryStatus
  token : Nat
  parked : Bool := false
  /-- Its continuation is a retry. -/
  retry : Bool := false
  deriving DecidableEq

structure Core (ρ : Type) where
  deliveryEligibility : ρ → DeliveryFacts → Eligibility
  guardedClaim : ρ → DeliveryFacts → Eligibility × ρ
  release : ρ → ρ
  rememberCompleted : ρ → ρ
  /-- The new record, and whether the retry budget is exceeded. -/
  recordAttempt : ρ → ρ × Bool
  discardAttempt : ρ → ρ
  recordProcessedSettlement : ρ → ρ
  recordFailedSettlement : Bool → ρ → ρ
  pendingSettlement : ρ → Option PendingSettlement
  confirmSettlement : Nat → ρ → ρ
  parkSettlement : Nat → SettlementResult → ρ → ρ
  unparkAck : ρ → ρ
  recordAckRetry : ρ → ρ
  retryableSettlement : ρ → Bool

/-- The records of one room, with the deliveries recorded, in order. -/
structure Registry (I ρ : Type) where
  ids : List I
  record : I → ρ

/-- What the scheduler and its turns read of their room. -/
structure Host (I : Type) where
  controlRevision : Nat := 0
  stopped : Bool := false
  closing : Bool := false
  contextHydrated : Bool := true
  handlesControl : Bool := false
  recognizes : Message I → Bool := fun _ => false
  /-- The delivery status the hydrated context shows, for a message it holds. -/
  metadata : I → Option (Option DeliveryStatus) := fun _ => none

structure World (I ρ : Type) where
  registry : Registry I ρ
  host : Host I
  queue : List (Event I) := []

/-- What the other tasks did while the scheduler awaited. -/
structure Meanwhile (I ρ : Type) where
  host : Host I
  arrivals : List (Event I) := []
  /-- A reconnection unparks every refused write. -/
  reconnected : Bool := false
  /-- What other owners of the registry recorded. -/
  others : List (I × ρ) := []

section World

variable [DecidableEq I]

def Registry.set (registry : Registry I ρ) (i : I) (r : ρ) : Registry I ρ where
  ids := if i ∈ registry.ids then registry.ids else registry.ids ++ [i]
  record := fun j => if j = i then r else registry.record j

def World.record (w : World I ρ) (i : I) : ρ := w.registry.record i

def World.set (w : World I ρ) (i : I) (r : ρ) : World I ρ :=
  { w with registry := w.registry.set i r }

def World.update (w : World I ρ) (i : I) (f : ρ → ρ) : World I ρ := w.set i (f (w.record i))

/-- An await in a turn over `batch`, whose members no other owner settles. -/
def World.await (core : Core ρ) (batch : List I) (w : World I ρ) (m : Meanwhile I ρ) : World I ρ :=
  let registry := if m.reconnected then
    { w.registry with record := fun i => core.unparkAck (w.registry.record i) } else w.registry
  { registry := m.others.foldl (fun registry entry =>
      if entry.1 ∈ batch then registry else registry.set entry.1 entry.2) registry
    host := m.host
    queue := w.queue ++ m.arrivals }

end World

/-- The room's lifecycle: the core it shares and `consume_all_queued`. -/
structure Lifecycle (ρ : Type) where
  core : Core ρ
  batching : Bool

namespace Lifecycle

variable (life : Lifecycle ρ)

/-- One model attempt answers for a whole batch, so a failed one is final. -/
def replaysFailures : Bool := !life.batching

/-- `_facts`. -/
def facts (host : Host I) (c : Candidate I) : DeliveryFacts :=
  let status := c.observed.getD c.event.status
  let cached := if c.observed.isNone then (host.metadata c.messageId).join else none
  { selfEcho := c.event.selfEcho
    durablyProcessed := status = some .processed || cached = some .processed
    durablyFailed := status = some .failed || (status = none && cached = some .failed)
    allowFailedRetry := life.replaysFailures }

variable [DecidableEq I]

def eligibility (w : World I ρ) (c : Candidate I) : Eligibility :=
  life.core.deliveryEligibility (w.record c.messageId) (life.facts w.host c)

/-- `eligibility` as a turn asks: a completion is remembered. -/
def judge (w : World I ρ) (c : Candidate I) : Eligibility × World I ρ :=
  (life.eligibility w c,
    if life.eligibility w c = .completed then w.update c.messageId life.core.rememberCompleted else w)

/-- Whether a terminal write the platform has neither accepted nor refused remains. -/
def owesWrite (w : World I ρ) (i : I) : Bool :=
  (life.core.pendingSettlement (w.record i)).any fun pending => !pending.parked

/-- Whether the original must outlive its write, for the retry it permits. -/
def keepsOriginal (w : World I ρ) (i : I) : Bool :=
  (life.core.pendingSettlement (w.record i)).any (·.retry)

/-! ## Terminal writes -/

structure Write (I ρ : Type) where
  meanwhile : Meanwhile I ρ
  /-- Asked again before its backoff passed. -/
  paced : Bool := false
  /-- The room is stopped, and the write raised. -/
  raised : Bool := false
  result : SettlementResult := .accepted
  /-- The room is readable after a 404. -/
  gone : Bool := false

/-- Send the pending write; `none` when the room is stopped. -/
def writeSettlement (batch : List I) (i : I) (answer : Write I ρ) (w : World I ρ) :
    Option SettlementResult × World I ρ :=
  match life.core.pendingSettlement (w.record i) with
  | none => (none, w)
  | some pending =>
    let w := w.await life.core batch answer.meanwhile
    if answer.raised then (none, w)
    else
      (some answer.result,
        match answer.result with
        | .accepted => w.update i (life.core.confirmSettlement pending.token)
        | .unconfirmed => w
        | .notFound =>
          if answer.gone then w.update i life.core.rememberCompleted
          else w.update i (life.core.parkSettlement pending.token .notFound)
        | .rejected => w.update i (life.core.parkSettlement pending.token .rejected))

/-- Whether nothing is owed any more; `none` when the write raised. -/
def retrySettlement (batch : List I) (i : I) (answers : List (Write I ρ)) (w : World I ρ) :
    Option Bool × List (Write I ρ) × World I ρ :=
  if life.owesWrite w i = false then (some true, answers, w)
  else
    match answers with
    | [] => (none, [], w)
    | answer :: rest =>
      if w.host.stopped || answer.paced then (some false, rest, w)
      else
        match life.writeSettlement batch i answer w with
        | (none, w) => (some false, rest, w)
        | (some .unconfirmed, w) => (some false, rest, w.update i life.core.recordAckRetry)
        | (some _, w) => (some true, rest, w)

/-! ## One attempt -/

/-- How the platform answered one processing write. -/
structure Confirmation (I ρ : Type) where
  meanwhile : Meanwhile I ρ
  raised : Bool := false
  result : SettlementResult := .accepted
  gone : Bool := false
  /-- The scope was terminated. -/
  terminating : Bool := false

/-- How an admitted attempt ended. -/
inductive Course where
  /-- A control probe left its original unconsumed. -/
  | declined
  | refused
  | roomStopped
  | cancelled
  | settled (intent : Option DeliveryStatus) (interrupted stopObserved failing : Bool)
  deriving DecidableEq

/-- The answers of one attempt, in the order its phases ask. -/
structure Round (I ρ : Type) where
  screening : List (Write I ρ) := []
  /-- `begin_delivery`, and whether it began. -/
  beginning : Option (Meanwhile I ρ × Bool) := none
  /-- The hydration, and whether it refreshed the context. -/
  hydration : Option (Meanwhile I ρ × Bool) := none
  terminating : Bool := false
  confirmations : List (Confirmation I ρ) := []
  recognized : Bool := true
  preparation : Option (Meanwhile I ρ) := none
  /-- The scope has a control's kind once its context is prepared. -/
  controlled : Bool := false
  execution : Option (Meanwhile I ρ × Course) := none
  writes : List (Write I ρ) := []

/-- An attempt's members, its room, and the attempts it charged. -/
structure Turn (I ρ : Type) where
  members : List (Candidate I)
  world : World I ρ
  charged : List I := []
  deferred : Option I := none

/-- A phase ends the attempt with an outcome, or by raising, or goes on. -/
abbrev PhaseEnd (α : Type) := Except (Option TurnOutcome) α

def unadmittedOutcome (host : Host I) : TurnOutcome := if host.stopped then .paused else .retryLater

/-- The members hydration did not show durably completed or failed. -/
def owedTurn (w : World I ρ) : List (Candidate I) → List (Candidate I) × World I ρ
  | [] => ([], w)
  | c :: rest =>
    let (answer, w) := life.judge w c
    let (originals, w) := owedTurn w rest
    (if answer = .completed ∨ answer = .failed then originals else c :: originals, w)

/-- `_charge_attempts`: the originals the retry budget still allows. -/
def chargeAttempts (w : World I ρ) : List (Candidate I) → List (Candidate I) × World I ρ
  | [] => ([], w)
  | c :: rest =>
    let (r, exceeded) := life.core.recordAttempt (w.record c.messageId)
    let (originals, w) := chargeAttempts (w.set c.messageId r) rest
    (if exceeded then originals else c :: originals, w)

def discardAttempts (w : World I ρ) (charged : List I) : World I ρ :=
  charged.foldl (fun w i => w.update i life.core.discardAttempt) w

/-- `_hydrated`. -/
def hydrated (host : Host I) (c : Candidate I) : Candidate I :=
  match host.metadata c.messageId with
  | none => c
  | some status => { c with observed := some status }

/-- The originals still owed a turn; a control's are not charged yet. -/
def fixOriginals (control : Bool) (turn : Turn I ρ) : List (Candidate I) × Turn I ρ :=
  let (owed, world) := life.owedTurn turn.world turn.members
  if control then (owed, { turn with world := world, charged := [] })
  else
    let (originals, world) := life.chargeAttempts world owed
    (originals, { turn with world := world, charged := originals.map Candidate.messageId })

/-- Fix the originals still owed a turn and charge them, or end the attempt. -/
def prepare (batch : List I) (revision : Nat) (control : Bool) (round : Round I ρ)
    (turn : Turn I ρ) : PhaseEnd (List (Candidate I)) × Turn I ρ :=
  if revision ≠ turn.world.host.controlRevision then
    (.error (some (unadmittedOutcome turn.world.host)), turn)
  else
    let begun : Option (Turn I ρ) :=
      if control || turn.world.host.contextHydrated then some turn
      else round.hydration.map fun (m, refreshed) =>
        let world := turn.world.await life.core batch m
        { turn with
          world := world
          members := if refreshed then turn.members.map (hydrated world.host) else turn.members }
    match begun with
    | none => (.error none, turn)
    | some turn =>
      let (originals, turn) := life.fixOriginals control turn
      if originals = [] then (.error (some .advanced), turn) else (.ok originals, turn)

def ownsDelivery (revision : Nat) (terminating : Bool) (w : World I ρ) : Bool :=
  !w.host.closing && revision == w.host.controlRevision && !terminating

/-- The loop of `confirm_processing`: the originals the platform still has. -/
def confirmProcessing (batch : List I) (revision : Nat) (w : World I ρ) :
    List (Candidate I) → List (Confirmation I ρ) → PhaseEnd (List (Candidate I)) × World I ρ
  | [], _ => (.ok [], w)
  | _ :: _, [] => (.error none, w)
  | c :: rest, answer :: answers =>
    let w := w.await life.core batch answer.meanwhile
    let refused : PhaseEnd (List (Candidate I)) × World I ρ :=
      (.error (some (unadmittedOutcome w.host)), w)
    if answer.raised then refused
    else if answer.result = .notFound then
      if life.batching then refused
      else if answer.gone then confirmProcessing batch revision w rest answers
      else refused
    else if answer.result ≠ .accepted ∨ ownsDelivery revision answer.terminating w = false then
      refused
    else
      let (present, w) := confirmProcessing batch revision w rest answers
      (present.map (c :: ·), w)

/-- `_admit`: admit once every original is confirmed, or end the attempt. -/
def admitOriginals (batch : List I) (revision : Nat) (control : Bool) (round : Round I ρ)
    (originals : List (Candidate I)) (turn : Turn I ρ) :
    PhaseEnd (List (Candidate I)) × Turn I ρ :=
  if ownsDelivery revision round.terminating turn.world = false then
    (.error (some (unadmittedOutcome turn.world.host)), turn)
  else
    let (confirmed, world) :=
      life.confirmProcessing batch revision turn.world originals round.confirmations
    let turn := { turn with world := world }
    match confirmed with
    | .error outcome => (.error outcome, turn)
    | .ok present =>
      if present = [] then (.error (some .absent), turn)
      else if control = true ∧ round.recognized = false then (.error (some .declined), turn)
      else
        match round.preparation with
        | none => (.error none, turn)
        | some m =>
          let turn := { turn with world := turn.world.await life.core batch m }
          if revision ≠ turn.world.host.controlRevision ∧ round.controlled = false then
            (.error (some (unadmittedOutcome turn.world.host)), turn)
          else (.ok present, turn)

/-- `store_intent`, for one original. -/
def recordSettlement (intent : Option DeliveryStatus) (r : ρ) : ρ :=
  match intent with
  | some .processed => life.core.recordProcessedSettlement r
  | some .failed => life.core.recordFailedSettlement life.replaysFailures r
  | _ => r

/-- `settle`: each pending write once; a stopped room leaves the rest owed. -/
def sendWrites (batch : List I) (w : World I ρ) : List I → List (Write I ρ) → Bool × World I ρ
  | [], _ => (true, w)
  | i :: rest, answers =>
    if life.core.pendingSettlement (w.record i) = none then sendWrites batch w rest answers
    else
      match answers with
      | [] => (false, w)
      | answer :: answers =>
        match life.writeSettlement batch i answer w with
        | (none, w) => (true, w)
        | (some _, w) => sendWrites batch w rest answers

/-- What an admitted attempt leaves behind, from its intent and its writes alone. -/
def settledOutcome (intent : Option DeliveryStatus) (stopObserved : Bool) (originals : List I)
    (w : World I ρ) : TurnOutcome :=
  if intent = none then if stopObserved then .retryLater else .paused
  else if originals.any (life.owesWrite w) then .retryLater
  else .advanced

/-- `_execute`, or `_fail` when the execution raised; the last value says whether
the attempts it charged are discarded. -/
def execute (batch : List I) (control : Bool) (round : Round I ρ) (originals : List (Candidate I))
    (turn : Turn I ρ) : Option TurnOutcome × Turn I ρ × Bool :=
  match round.execution with
  | none => (none, turn, true)
  | some (m, course) =>
    let turn := { turn with world := turn.world.await life.core batch m }
    match course with
    | .declined => (some .declined, turn, true)
    | .refused =>
      (some .notAccepted, { turn with deferred := originals.head?.map Candidate.messageId }, true)
    | .roomStopped => (some .retryLater, turn, true)
    | .cancelled => (none, turn, true)
    | .settled intent interrupted stopObserved failing =>
      let ids := originals.map Candidate.messageId
      let world :=
        if control = true ∧ (intent = some .failed ∨ (failing = true ∧ intent = none)) then
          ids.foldl (fun w i => w.update i fun r => (life.core.recordAttempt r).1) turn.world
        else turn.world
      let world := ids.foldl (fun w i => w.update i (life.recordSettlement intent)) world
      let (returned, world) := life.sendWrites batch world ids round.writes
      (if returned then some (life.settledOutcome intent stopObserved ids world) else none,
        { turn with world := world }, intent = none || interrupted)

/-- `_run_claimed`. -/
def runClaimed (batch : List I) (revision : Nat) (control : Bool) (round : Round I ρ)
    (turn : Turn I ρ) : Option TurnOutcome × Turn I ρ :=
  match round.beginning with
  | none => (none, turn)
  | some (m, begun) =>
    let turn := { turn with world := turn.world.await life.core batch m }
    if begun = false then (some (unadmittedOutcome turn.world.host), turn)
    else
      let abandoned : Option TurnOutcome → Turn I ρ → Option TurnOutcome × Turn I ρ :=
        fun outcome turn =>
          (outcome, { turn with world := life.discardAttempts turn.world turn.charged })
      match life.prepare batch revision control round turn with
      | (.error outcome, turn) => abandoned outcome turn
      | (.ok originals, turn) =>
        match life.admitOriginals batch revision control round originals turn with
        | (.error outcome, turn) => abandoned outcome turn
        | (.ok originals, turn) =>
          let (outcome, turn, discards) := life.execute batch control round originals turn
          if discards then abandoned outcome turn else (outcome, turn)

/-! ## One turn -/

/-- `claim`: all of the members, or the first that is not runnable any more. -/
def claim (w : World I ρ) : List (Candidate I) → Bool × List I × World I ρ
  | [] => (true, [], w)
  | c :: rest =>
    let (answer, r) := life.core.guardedClaim (w.record c.messageId) (life.facts w.host c)
    let w := w.set c.messageId r
    if answer ≠ .runnable then (false, [], w)
    else
      let (acquired, held, w) := claim w rest
      (acquired, c.messageId :: held, w)

def releaseClaims (w : World I ρ) (held : List I) : World I ρ :=
  held.foldl (fun w i => w.update i life.core.release) w

def screened : Eligibility → PhaseEnd Bool
  | .inflight => .error (some .retryLater)
  | answer => .ok (answer = .runnable)

/-- Whether a member can run now, once its owed write is retried. -/
def screenMember (batch : List I) (w : World I ρ) (c : Candidate I) (answers : List (Write I ρ)) :
    PhaseEnd Bool × List (Write I ρ) × World I ρ :=
  let (answer, w) := life.judge w c
  if answer = .pending then
    match life.retrySettlement batch c.messageId answers w with
    | (none, answers, w) => (.error none, answers, w)
    | (some false, answers, w) => (.error (some .retryLater), answers, w)
    | (some true, answers, w) =>
      let (answer, w) := life.judge w c
      (screened answer, answers, w)
  else (screened answer, answers, w)

/-- The screening loop of `_run_once`: the members that can run now. -/
def screen (batch : List I) (w : World I ρ) :
    List (Candidate I) → List (Write I ρ) → PhaseEnd (List (Candidate I)) × World I ρ
  | [], _ => (.ok [], w)
  | c :: rest, answers =>
    match life.screenMember batch w c answers with
    | (.error outcome, _, w) => (.error outcome, w)
    | (.ok runs, answers, w) =>
      let (runnable, w) := screen batch w rest answers
      (runnable.map (if runs then (c :: ·) else id), w)

/-- `_run_once`: the outcome, the members left in the turn, and those it dropped. -/
def runOnce (batch : List I) (revision : Nat) (control : Bool) (round : Round I ρ)
    (members : List (Candidate I)) (w : World I ρ) :
    Option TurnOutcome × Turn I ρ × List (Candidate I) :=
  match life.screen batch w members round.screening with
  | (.error outcome, w) => (outcome, { members := members, world := w }, [])
  | (.ok runnable, w) =>
    if runnable = [] then (some .advanced, { members := members, world := w }, [])
    else
      let dropped := members.filter (· ∉ runnable)
      let (acquired, held, w) := life.claim w runnable
      let (outcome, turn) :=
        if acquired then life.runClaimed batch revision control round
          { members := runnable, world := w }
        else (some .retryLater, { members := runnable, world := w })
      (outcome, { turn with world := life.releaseClaims turn.world held }, dropped)

/-- `any(self.eligibility(candidate) == "runnable" ...)`. -/
def anyRunnable (w : World I ρ) : List (Candidate I) → Bool × World I ρ
  | [] => (false, w)
  | c :: rest =>
    let (answer, w) := life.judge w c
    if answer = .runnable then (true, w) else anyRunnable w rest

/-- A turn that returned, or raised.  `forms` are the batch's members as the turn
last saw them, those it dropped included. -/
structure RunResult (I ρ : Type) where
  outcome : Option TurnOutcome
  world : World I ρ
  forms : List (Candidate I)
  deferred : Option I := none

/-- `DeliveryLifecycle.run`, from where `current` is left of the batch. -/
def runFrom (batch : List I) (revision : Nat) (control : Bool) :
    List (Round I ρ) → List (Candidate I) → List (Candidate I) → World I ρ → RunResult I ρ
  | [], current, left, w => { outcome := none, world := w, forms := current ++ left }
  | round :: rounds, current, left, w =>
    let (outcome, turn, dropped) := life.runOnce batch revision control round current w
    let ended : RunResult I ρ :=
      { outcome := outcome, world := turn.world, forms := turn.members ++ (dropped ++ left)
        deferred := turn.deferred }
    if outcome ≠ some .advanced then ended
    else
      let (again, w) := life.anyRunnable turn.world turn.members
      if again then runFrom batch revision control rounds turn.members (dropped ++ left) w
      else { ended with world := w }

def run (members : List (Candidate I)) (revision : Nat) (control : Bool) (rounds : List (Round I ρ))
    (w : World I ρ) : RunResult I ρ :=
  life.runFrom (members.map Candidate.messageId) revision control rounds members [] w

end Lifecycle

end BandSdk.Scheduling

/-
# Contacts.Handler -- contact events by strategy, each once

`ContactEventHandler.handle` routes one contact event by the configured strategy
and keeps the keys of the events it has settled, so that a redelivery is skipped.

* A key says what kind of event it is and whose (`_get_dedup_key`), not which
  occurrence: a contact added, removed and added again has one key for both
  additions.
* The broadcast is queued before the strategy runs, hence before it is known
  whether the event will be marked; under `DISABLED` it is never marked.
-/
import Mathlib.Tactic.Common

namespace BandSdk.Contacts

open List

/-! ## Events and configuration -/

structure ContactRequestReceivedPayload where
  id : String

structure ContactRequestUpdatedPayload where
  id : String
  status : String

structure ContactAddedPayload where
  id : String
  handle : Option String
  name : Option String

structure ContactRemovedPayload where
  id : String

/-- The four contact events; a payload may be missing. -/
inductive ContactEvent where
  | requestReceived (payload : Option ContactRequestReceivedPayload)
  | requestUpdated (payload : Option ContactRequestUpdatedPayload)
  | added (payload : Option ContactAddedPayload)
  | removed (payload : Option ContactRemovedPayload)

inductive ContactEventStrategy where
  | disabled
  | callback
  | hubRoom
deriving DecidableEq

/-- `onEvent` says whether a callback is configured. -/
structure ContactEventConfig where
  strategy : ContactEventStrategy
  onEvent : Bool
  broadcastChanges : Bool

/-- What the code outside does when an event reaches it: the application's
callback, or the hub room's REST calls and injection.  `escapes` is what no
`except Exception` of the handler catches: a cancellation, or a hub room that
cannot be created, which is awaited outside the `try`. -/
inductive Conduct where
  | completes
  | fails
  | escapes

/-- What became of one delivery.  `ignored` is the `DISABLED` strategy's return,
`answered` the Boolean the strategy's handler returned. -/
inductive Verdict where
  | duplicate
  | ignored
  | answered (success : Bool)
  | raised
deriving DecidableEq

namespace Verdict

/-- The strategy's handler ran. -/
def handled : Verdict → Bool
  | .answered _ | .raised => true
  | .duplicate | .ignored => false

def failed : Verdict → Bool
  | .answered false | .raised => true
  | _ => false

theorem failed_of_handled {verdict : Verdict} (handled : verdict.handled = true)
    (unsuccessful : verdict ≠ .answered true) : verdict.failed = true := by
  cases verdict with
  | duplicate | ignored => cases handled
  | answered success => cases success with
    | false => rfl
    | true => exact absurd rfl unsuccessful
  | raised => rfl

end Verdict

/-! ## The handler -/

def maxDedupCacheSize : Nat := 1000

/-- `onBroadcast` and `onHubEvent` say whether those callbacks were given;
`processedEvents` are the cache's keys, oldest first. -/
structure ContactEventHandler where
  config : ContactEventConfig
  onBroadcast : Bool
  onHubEvent : Bool
  processedEvents : List String

def ContactEventHandler.create (config : ContactEventConfig) (onBroadcast onHubEvent : Bool) :
    ContactEventHandler :=
  { config := config, onBroadcast := onBroadcast, onHubEvent := onHubEvent, processedEvents := [] }

def normalizeHandle : Option String → Option String
  | none => none
  | some handle =>
    if handle = "" then none
    else some (if handle.startsWith "@" then handle else "@" ++ handle)

def ContactEvent.getDedupKey : ContactEvent → Option String
  | .requestReceived payload => payload.map fun p => "request_received:" ++ p.id
  | .requestUpdated payload => payload.map fun p => "request_updated:" ++ p.id ++ ":" ++ p.status
  | .added payload => payload.map fun p => "contact_added:" ++ p.id
  | .removed payload => payload.map fun p => "contact_removed:" ++ p.id

namespace ContactEventHandler

variable (handler : ContactEventHandler)

/-- The broadcast messages the event queues, at most one. -/
def maybeBroadcast (event : ContactEvent) : List String :=
  if handler.onBroadcast then
    match event with
    | .added (some p) =>
      let handle := (normalizeHandle p.handle).getD "no handle"
      let name := (p.name.filter (· ≠ "")).getD "Unknown contact"
      [handle ++ " (" ++ name ++ ") is now a contact"]
    | .removed (some p) => ["Contact " ++ p.id ++ " was removed"]
    | _ => []
  else []

def shouldSkipDuplicate (event : ContactEvent) : Bool :=
  match event.getDedupKey with
  | none => false
  | some key => key ∈ handler.processedEvents

/-- A key already there keeps its place; beyond the bound the oldest go. -/
def markProcessed (event : ContactEvent) : ContactEventHandler :=
  match event.getDedupKey with
  | none => handler
  | some key =>
    let keys := if key ∈ handler.processedEvents then handler.processedEvents
      else handler.processedEvents ++ [key]
    { handler with processedEvents := keys.drop (keys.length - maxDedupCacheSize) }

def handleCallback (conduct : Conduct) : Verdict :=
  if handler.config.onEvent then
    match conduct with
    | .completes => .answered true
    | .fails => .answered false
    | .escapes => .raised
  else .answered true

def handleHubRoom : Conduct → Verdict
  | .escapes => .raised
  | .fails => .answered false
  | .completes => .answered handler.onHubEvent

/-- The `match` on the strategy. -/
def route (conduct : Conduct) : Verdict :=
  match handler.config.strategy with
  | .disabled => .ignored
  | .callback => handler.handleCallback conduct
  | .hubRoom => handler.handleHubRoom conduct

/-- What a broadcasting configuration queues for the event. -/
def broadcast (event : ContactEvent) : List String :=
  if handler.config.broadcastChanges then handler.maybeBroadcast event else []

structure Handling where
  handler : ContactEventHandler
  queued : List String
  verdict : Verdict

/-- One call of `handle`.  The broadcast is queued before the strategy runs, and
the key is kept only after an answer of success. -/
def handle (handler : ContactEventHandler) (event : ContactEvent) (conduct : Conduct) : Handling :=
  if handler.shouldSkipDuplicate event then
    { handler := handler, queued := [], verdict := .duplicate }
  else
    let queued := handler.broadcast event
    let verdict := handler.route conduct
    { handler := if verdict = .answered true then handler.markProcessed event else handler
      queued := queued
      verdict := verdict }

/-! ### What a call does -/

variable {handler : ContactEventHandler} {event : ContactEvent} {conduct : Conduct}

theorem shouldSkipDuplicate_iff : handler.shouldSkipDuplicate event = true ↔
    ∃ key, event.getDedupKey = some key ∧ key ∈ handler.processedEvents := by
  cases given : event.getDedupKey with
  | none | some key => simp [shouldSkipDuplicate, given]

/-- Below the bound, marking adds the event's key and drops none. -/
theorem mem_markProcessed {key : String} (room : handler.processedEvents.length < maxDedupCacheSize) :
    key ∈ (handler.markProcessed event).processedEvents ↔
      key ∈ handler.processedEvents ∨ event.getDedupKey = some key := by
  cases given : event.getDedupKey with
  | none => simp [markProcessed, given]
  | some own =>
    by_cases known : own ∈ handler.processedEvents
    · have fits : handler.processedEvents.length - maxDedupCacheSize = 0 := by omega
      have back : own = key → key ∈ handler.processedEvents := fun same => same ▸ known
      simpa [markProcessed, given, known, fits] using back
    · have fits : handler.processedEvents.length + 1 - maxDedupCacheSize = 0 := by omega
      simp [markProcessed, given, known, fits, eq_comm]

/-- At any length, marking adds no other key. -/
theorem of_mem_markProcessed {key : String} (member : key ∈ (handler.markProcessed event).processedEvents) :
    key ∈ handler.processedEvents ∨ event.getDedupKey = some key := by
  cases given : event.getDedupKey with
  | none => exact .inl (by simpa [markProcessed, given] using member)
  | some own =>
    simp only [markProcessed, given] at member
    have inside := mem_of_mem_drop member
    split at inside
    · exact .inl inside
    · simpa [eq_comm] using inside

theorem length_markProcessed_le :
    (handler.markProcessed event).processedEvents.length ≤ handler.processedEvents.length + 1 := by
  cases given : event.getDedupKey with
  | none => simp [markProcessed, given]
  | some own =>
    simp only [markProcessed, given, length_drop]
    split
    · omega
    · simp only [length_append, length_singleton]
      omega

/-- A call changes nothing of the handler but its cache. -/
theorem markProcessed_eq : handler.markProcessed event =
    { handler with processedEvents := (handler.markProcessed event).processedEvents } := by
  cases given : event.getDedupKey <;> simp [markProcessed, given]

theorem handle_handler : (handler.handle event conduct).handler = handler ∨
    (handler.handle event conduct).handler = handler.markProcessed event := by
  by_cases skipped : handler.shouldSkipDuplicate event
  · simp [handle, skipped]
  · by_cases settles : handler.route conduct = .answered true <;> simp [handle, skipped, settles]

theorem handle_queued : (handler.handle event conduct).queued =
    if handler.shouldSkipDuplicate event then [] else handler.broadcast event := by
  by_cases skipped : handler.shouldSkipDuplicate event <;> simp [handle, skipped]

theorem route_ne_duplicate : handler.route conduct ≠ .duplicate := by
  rcases handler with ⟨⟨strategy, onEvent, -⟩, -, -, -⟩
  cases strategy <;> cases onEvent <;> cases conduct <;> simp [route, handleCallback, handleHubRoom]

/-- Where one conduct settles the event, the strategy is not `DISABLED`, and every
conduct has the handler run. -/
theorem route_handled (other : Conduct) (settles : handler.route conduct = .answered true) :
    (handler.route other).handled = true := by
  cases strategy : handler.config.strategy with
  | disabled => simp [route, strategy] at settles
  | callback =>
    simp only [route, strategy, handleCallback]
    split
    · cases other <;> rfl
    · rfl
  | hubRoom =>
    simp only [route, strategy]
    cases other <;> rfl

theorem length_broadcast_le : (handler.broadcast event).length ≤ 1 := by
  simp only [broadcast, maybeBroadcast]
  split
  · split
    · split <;> simp
    · simp
  · simp

end ContactEventHandler

/-! ## Opposite events -/

/-- One event adds the contact the other removes. -/
def Opposite : ContactEvent → ContactEvent → Prop
  | .added (some p), .removed (some q) => p.id = q.id
  | .removed (some p), .added (some q) => p.id = q.id
  | _, _ => False

theorem added_of_getDedupKey {event : ContactEvent} {p : ContactAddedPayload}
    (same : event.getDedupKey = (ContactEvent.added (some p)).getDedupKey) :
    ∃ q : ContactAddedPayload, event = .added (some q) ∧ q.id = p.id := by
  rcases event with q | q | q | q <;> cases q <;>
    simp [ContactEvent.getDedupKey, String.ext_iff] at same
  case added.some q => exact ⟨q, rfl, String.ext same⟩

theorem removed_of_getDedupKey {event : ContactEvent} {p : ContactRemovedPayload}
    (same : event.getDedupKey = (ContactEvent.removed (some p)).getDedupKey) :
    ∃ q : ContactRemovedPayload, event = .removed (some q) ∧ q.id = p.id := by
  rcases event with q | q | q | q <;> cases q <;>
    simp [ContactEvent.getDedupKey, String.ext_iff] at same
  case removed.some q => exact ⟨q, rfl, String.ext same⟩

/-- What is opposite to an event is so by its key: an event with the key of an
addition is an addition of the same contact, and likewise a removal. -/
theorem Opposite.of_getDedupKey {first other event : ContactEvent} (opposite : Opposite first event)
    (same : other.getDedupKey = first.getDedupKey) : Opposite other event := by
  unfold Opposite at opposite
  split at opposite
  · obtain ⟨q, rfl, id⟩ := added_of_getDedupKey same
    exact id.trans opposite
  · obtain ⟨q, rfl, id⟩ := removed_of_getDedupKey same
    exact id.trans opposite
  · exact opposite.elim

end BandSdk.Contacts

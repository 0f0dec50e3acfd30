/-
# Contacts.Broadcasts -- queued by the handler, drained by the runtime

With `broadcast_changes` the runtime gives its contact handler `_queue_broadcast`,
which appends to `_pending_broadcasts`, and `_process_broadcasts` hands what is
pending to every active session.  `_on_contact_event` is where the two meet.
`_on_contact_event` calls it only in the branch without a handler.  Where
broadcasts are enabled there is one, so nothing that is queued is ever drained:
`broadcasts_delivered_iff`.
-/
import Mathlib
import BandSdk.Theory.Histories
import BandSdk.Contacts.Handler

namespace BandSdk.Contacts

open BandSdk.Theory List ContactEventHandler

/-! ## The runtime -/

/-- An execution context; `refuses` says of which messages its
`inject_system_message` raises. -/
structure Session where
  roomId : String
  refuses : String → Bool

/-- One call of `inject_system_message`. -/
structure Injection where
  roomId : String
  message : String
  landed : Bool

/-- `started` says that `_runtime` is set. -/
structure PlatformRuntime where
  contactHandler : Option ContactEventHandler
  pendingBroadcasts : List String
  started : Bool

namespace PlatformRuntime

/-- The runtime's callbacks are given to the handler by what the configuration
enables; without a strategy and without broadcasts there is no handler. -/
def setupContactHandling (runtime : PlatformRuntime) (config : ContactEventConfig) : PlatformRuntime :=
  if config.strategy = .disabled ∧ config.broadcastChanges = false then runtime
  else
    { runtime with
      contactHandler := some (.create config config.broadcastChanges (config.strategy = .hubRoom)) }

def queueBroadcast (runtime : PlatformRuntime) (messages : List String) : PlatformRuntime :=
  { runtime with pendingBroadcasts := runtime.pendingBroadcasts ++ messages }

def inject (session : Session) (message : String) : Injection :=
  { roomId := session.roomId
    message := "[Contacts]: " ++ message
    landed := !session.refuses ("[Contacts]: " ++ message) }

/-- A refused injection is logged, and the loops go on. -/
def processBroadcasts (runtime : PlatformRuntime) (sessions : List Session) :
    PlatformRuntime × List Injection :=
  if runtime.pendingBroadcasts.isEmpty || !runtime.started then (runtime, [])
  else
    ({ runtime with pendingBroadcasts := [] },
      sessions.flatMap fun session => runtime.pendingBroadcasts.map (inject session))

/-- What one call of `_on_contact_event` did. -/
structure Report where
  sessions : List Session
  queued : List String
  injections : List Injection
  pending : List String

/-- `_on_contact_event`: the drain stands in the branch without a handler. -/
def onContactEvent (runtime : PlatformRuntime) (event : ContactEvent) (conduct : Conduct)
    (sessions : List Session) : PlatformRuntime × Report :=
  match runtime.contactHandler with
  | some handler =>
    let handling := handler.handle event conduct
    let after := { runtime with contactHandler := some handling.handler }.queueBroadcast handling.queued
    (after, ⟨sessions, handling.queued, [], after.pendingBroadcasts⟩)
  | none =>
    let drained := runtime.processBroadcasts sessions
    (drained.1, ⟨sessions, [], drained.2, drained.1.pendingBroadcasts⟩)

end PlatformRuntime

structure ContactCall where
  event : ContactEvent
  conduct : Conduct
  sessions : List Session

open PlatformRuntime in
/-- The calls one after another, each with its report. -/
def runCalls (runtime : PlatformRuntime) (calls : List ContactCall) : PlatformRuntime × List Report :=
  calls.foldl (fun state call =>
    let done := state.1.onContactEvent call.event call.conduct call.sessions
    (done.1, state.2 ++ [done.2])) (runtime, [])

theorem runCalls_snoc (runtime : PlatformRuntime) (calls : List ContactCall) (call : ContactCall) :
    runCalls runtime (calls ++ [call]) =
      let done := (runCalls runtime calls).1.onContactEvent call.event call.conduct call.sessions
      (done.1, (runCalls runtime calls).2 ++ [done.2]) := by
  simp [runCalls]

/-! ## What broadcasts are for -/

/-- The messages injected into a room, in order. -/
def injectedInto (roomId : String) (injections : List Injection) : List String :=
  (injections.filter (·.roomId = roomId)).map (·.message)

/-- **What the call owes.**  Each session active at the time gets every message the
call queued exactly once and in queue order, and nothing stays pending. -/
def Delivered (report : PlatformRuntime.Report) : Prop :=
  (∀ session ∈ report.sessions, injectedInto session.roomId report.injections =
      report.queued.map fun message => "[Contacts]: " ++ message) ∧
    report.pending = []

/-! ## When the code does -/

/-- The event is one that broadcasts are about. -/
def Announced : ContactEvent → Prop
  | .added (some _) | .removed (some _) => True
  | _ => False

theorem Announced.of_getDedupKey {event other : ContactEvent} (announced : Announced event)
    (same : other.getDedupKey = event.getDedupKey) : Announced other := by
  unfold Announced at announced
  split at announced
  · obtain ⟨q, rfl, -⟩ := added_of_getDedupKey same
    trivial
  · obtain ⟨q, rfl, -⟩ := removed_of_getDedupKey same
    trivial
  · exact announced.elim

/-- The handler is one that a broadcasting configuration sets up. -/
structure Broadcasting (handler : ContactEventHandler) : Prop where
  enabled : handler.config.broadcastChanges = true
  given : handler.onBroadcast = true

theorem Broadcasting.broadcast_iff {handler : ContactEventHandler} (broadcasting : Broadcasting handler)
    (event : ContactEvent) : handler.broadcast event ≠ [] ↔ Announced event := by
  rcases event with p | p | p | p <;> cases p <;>
    simp [broadcast, maybeBroadcast, broadcasting.enabled, broadcasting.given, Announced]

/-- What holds of the runtime as long as no announced event has come. -/
structure Quiet (runtime : PlatformRuntime) (handler : ContactEventHandler) : Prop where
  handled : runtime.contactHandler = some handler
  broadcasting : Broadcasting handler
  fresh : ∀ event, Announced event → handler.shouldSkipDuplicate event = false
  pending : runtime.pendingBroadcasts = []

section Calls

variable {runtime : PlatformRuntime} {handler : ContactEventHandler} {event : ContactEvent}

open PlatformRuntime

theorem quiet_setup (strategy : ContactEventStrategy) (onEvent started : Bool) :
    Quiet (PlatformRuntime.setupContactHandling ⟨none, [], started⟩ ⟨strategy, onEvent, true⟩)
      (.create ⟨strategy, onEvent, true⟩ true (strategy = .hubRoom)) := by
  refine ⟨by simp [setupContactHandling], ⟨rfl, rfl⟩, fun event _ => ?_, by simp [setupContactHandling]⟩
  rw [Bool.eq_false_iff]
  intro skipped
  obtain ⟨key, -, member⟩ := shouldSkipDuplicate_iff.1 skipped
  cases member

section

variable (quiet : Quiet runtime handler)
include quiet

/-- An event that is not announced leaves the cache without an announced key. -/
theorem Quiet.handle (silent : ¬ Announced event) (conduct : Conduct) :
    Broadcasting (handler.handle event conduct).handler ∧ (handler.handle event conduct).queued = [] ∧
      ∀ other, Announced other → (handler.handle event conduct).handler.shouldSkipDuplicate other = false := by
  have none_ : handler.broadcast event = [] := by
    by_contra queues
    exact silent ((quiet.broadcasting.broadcast_iff event).1 queues)
  have marked : ∀ other, Announced other → (handler.markProcessed event).shouldSkipDuplicate other = false := by
    intro other announced
    rw [Bool.eq_false_iff]
    intro skipped
    obtain ⟨key, own, member⟩ := shouldSkipDuplicate_iff.1 skipped
    rcases of_mem_markProcessed member with old | same
    · have known := shouldSkipDuplicate_iff.2 ⟨key, own, old⟩
      rw [quiet.fresh other announced] at known
      cases known
    · exact silent (announced.of_getDedupKey (same.trans own.symm))
  have handled := @ContactEventHandler.handle_handler handler event conduct
  have queued : (handler.handle event conduct).queued = [] := by
    rw [handle_queued, none_]
    exact ite_self []
  rcases handled with same | same
  · rw [same]
    exact ⟨quiet.broadcasting, queued, quiet.fresh⟩
  · rw [same]
    refine ⟨?_, queued, marked⟩
    rw [markProcessed_eq]
    exact ⟨quiet.broadcasting.enabled, quiet.broadcasting.given⟩

theorem Quiet.silent (silent : ¬ Announced event) (conduct : Conduct) (sessions : List Session) :
    Quiet (runtime.onContactEvent event conduct sessions).1 (handler.handle event conduct).handler ∧
      Delivered (runtime.onContactEvent event conduct sessions).2 := by
  obtain ⟨broadcasting, none_, fresh⟩ := quiet.handle silent conduct
  simp only [onContactEvent, quiet.handled, queueBroadcast, quiet.pending, none_]
  exact ⟨⟨rfl, broadcasting, fresh, rfl⟩, fun session _ => rfl, rfl⟩

theorem Quiet.announced (announced : Announced event) (conduct : Conduct)
    (sessions : List Session) : ¬ Delivered (runtime.onContactEvent event conduct sessions).2 := by
  rintro ⟨-, drained⟩
  simp only [onContactEvent, quiet.handled, queueBroadcast, quiet.pending,
    handle_queued, quiet.fresh event announced, nil_append] at drained
  exact (quiet.broadcasting.broadcast_iff event).2 announced drained

end

end Calls

theorem quiet_run {runtime : PlatformRuntime} {handler : ContactEventHandler} {calls : List ContactCall}
    (quiet : Quiet runtime handler) (silent : ∀ call ∈ calls, ¬ Announced call.event) :
    ∃ later, Quiet (runCalls runtime calls).1 later ∧
      ∀ report ∈ (runCalls runtime calls).2, Delivered report := by
  induction calls using reverseRecOn with
  | nil => exact ⟨handler, quiet, by simp [runCalls]⟩
  | append_singleton calls call ih =>
    obtain ⟨later, still, delivered⟩ := ih fun one member => silent one (by simp [member])
    obtain ⟨quiet', report⟩ := still.silent (silent call (by simp)) call.conduct call.sessions
    rw [runCalls_snoc]
    refine ⟨_, quiet', fun one member => ?_⟩
    rcases mem_append.1 member with old | new
    · exact delivered one old
    · rw [mem_singleton.1 new]
      exact report

theorem reports_mono (runtime : PlatformRuntime) (first second : List ContactCall) :
    ∀ report ∈ (runCalls runtime first).2, report ∈ (runCalls runtime (first ++ second)).2 := by
  induction second using reverseRecOn with
  | nil => simp
  | append_singleton second call ih =>
    intro report member
    rw [← append_assoc, runCalls_snoc]
    exact mem_append_left _ (ih report member)

/-- **Broadcasts and their delivery.**  With `broadcast_changes`, the calls all
deliver what they queue exactly when none of them brings a contact added or
removed: the first one that does is queued and never drained. -/
theorem broadcasts_delivered_iff (strategy : ContactEventStrategy) (onEvent started : Bool)
    (calls : List ContactCall) :
    (∀ report ∈ (runCalls (PlatformRuntime.setupContactHandling ⟨none, [], started⟩
        ⟨strategy, onEvent, true⟩) calls).2, Delivered report) ↔
      ∀ call ∈ calls, ¬ Announced call.event := by
  have quiet := quiet_setup strategy onEvent started
  constructor
  · intro delivered call member announced
    have some_ : ∃ call ∈ calls, Announced call.event := ⟨call, member, announced⟩
    obtain ⟨before, first, after, rfl, speaks, silent⟩ := exists_first some_
    obtain ⟨later, still, -⟩ := quiet_run quiet silent
    refine still.announced speaks first.conduct first.sessions (delivered _ ?_)
    rw [append_cons]
    refine reports_mono _ (before ++ [first]) after _ ?_
    rw [runCalls_snoc]
    exact mem_append_right _ (mem_singleton_self _)
  · intro silent
    obtain ⟨later, -, delivered⟩ := quiet_run quiet silent
    exact delivered

/-- A contact is added while one room is active: nothing is injected, and the
message stays pending. -/
theorem added_contact_not_injected :
    let runtime := PlatformRuntime.setupContactHandling ⟨none, [], true⟩ ⟨.callback, true, true⟩
    let event := ContactEvent.added (some ⟨"contact-1", some "peer-a", some "Peer A"⟩)
    let report := (runtime.onContactEvent event .completes [⟨"room-1", fun _ => false⟩]).2
    report.injections = [] ∧ report.pending = ["@peer-a (Peer A) is now a contact"] ∧ ¬ Delivered report := by
  intro runtime event report
  have stays : report.pending = ["@peer-a (Peer A) is now a contact"] := by decide +kernel
  refine ⟨by decide +kernel, stays, fun delivered => ?_⟩
  rw [delivered.2] at stays
  cases stays

end BandSdk.Contacts

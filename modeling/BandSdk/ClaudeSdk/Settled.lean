/-
# ClaudeSdk.Settled -- one settlement a request

`Kept` holds between any two awaits.  An entry that is held and not claimed has a future
without a result, so whoever removes it or claims it settles it first; and a future's
reply is that of a command that named the entry, or named none while it was alone.
-/
import BandSdk.ClaudeSdk.Approvals
import BandSdk.Decisions.Calls

namespace BandSdk.ClaudeSdk

open BandSdk.Theory BandSdk.Runtime BandSdk.Decisions List

/-- A reply is a command of an authorized sender that names `token`, or names none while `token` alone
awaits an answer. -/
def Names (options : Options) (token : String) (reply : ApprovalReply) : Prop :=
  options.authorized reply.senderId = true ∧ ∃ args,
    extractCommand reply.content = some (if reply.accepts then .approve else .decline, args) ∧
      (Text.strip args = token ∨ Text.strip args = "" ∧ reply.awaiting = [token])

/-- Why a request may be allowed. -/
def Justified (options : Options) (request : Request) : Cause → Prop
  | .replied reply => reply.accepts = true ∧ ∃ entry, request.entry = some entry ∧ Names options entry.token reply
  | .timedOut => options.timeoutAccepts = true
  | _ => options.mode ≠ .manual

namespace Adapter

variable {C : Type} {core : Core C} {views : Views C} {slots : C → List Slot} {options : Options}
  {s s' : Adapter C} {n object : Nat} {request : Request} {entry : DecisionEntry PendingApproval}

structure Kept (core : Core C) (options : Options) (s : Adapter C) : Prop where
  runs : ∀ object, (machine core).Reachable (s.registries object)
  fresh : ∀ n, s.made ≤ n → s.requests n = none
  placed : ∀ object, ∀ entry ∈ (s.registry object).entries, ∃ request,
    s.requests entry.payload.future = some request ∧ request.registry = object ∧ request.entry = some entry
  used : ∀ n request entry, s.requests n = some request → request.entry = some entry →
    request.registry < s.objects ∧ entry.payload.future = n
  rooms : ∀ room object, Keyed.get room s.pendingApprovals = some object → object < s.objects ∧
    ∀ n request entry, s.requests n = some request → request.entry = some entry →
      request.registry = object → request.room = room
  apart : ∀ room room' object, Keyed.get room s.pendingApprovals = some object →
    Keyed.get room' s.pendingApprovals = some object → room = room'
  waiting : ∀ object, ∀ entry ∈ (s.registry object).entries,
    entry ∉ (s.registries object).ledger.claims → s.futures entry.payload.future = none
  replied : ∀ n reply, s.futures n = some (some reply) → ∃ request entry, s.requests n = some request ∧
    request.entry = some entry ∧ Names options entry.token reply
  replying : ∀ n request reply, s.requests n = some request → request.phase = .replying reply →
    s.futures n = some (some reply)
  announcing : ∀ n request, s.requests n = some request → request.phase = .announcing → options.mode ≠ .manual
  settled : ∀ n ∈ s.settled, s.futures n ≠ none ∧ ∃ request, s.requests n = some request
  unsettled : ∀ n, s.futures n ≠ none → n ∈ s.settled
  once : s.settled.Nodup
  ended : ∀ result ∈ s.results, ∃ request, s.requests result.request = some request ∧
    request.phase = .ended ∧ (result.allowed = true → Justified options request result.cause)
  returned : (s.results.map Result.request).Nodup
  notified : ∀ pair ∈ s.notifiedDeclines, pair ∈ s.delivered
  answered : ∀ pair ∈ s.answered, ∃ denial ∈ pair.2, ∃ id name, denial.toolUseId = some id ∧
    (pair.1, id) ∈ s.delivered ∧ denial.toolName = some name ∧ options.didWork (semanticToolName name) = true

theorem Kept.sound (documented : Documented core slots) (kept : s.Kept core options) (object : Nat) :
    Sound slots (s.registries object) := sound_of_reachable documented (kept.runs object)

/-! ### Calls of a registry -/

section Tell

variable {event : Decisions.Event PendingApproval} {after : State C PendingApproval}

theorem tell_same (stepped : Decisions.step core (s.registries object) event = some after) :
    (s.tell core object event).registries object = after := by
  simp [tell, stepped]

theorem tell_other {other : Nat} (differs : other ≠ object) :
    (s.tell core object event).registries other = s.registries other := by
  simp [tell, differs]

/-- The request of an entry that is about to be held waits for its future. -/
def Due (s : Adapter C) (object : Nat) (entry : DecisionEntry PendingApproval) : Prop :=
  s.futures entry.payload.future = none ∧ ∃ request, s.requests entry.payload.future = some request ∧
    request.registry = object ∧ request.entry = some entry

/-- A call that makes no entry, but one that is due. -/
theorem Kept.tell (kept : s.Kept core options)
    (stepped : Decisions.step core (s.registries object) event = some after)
    (fewer : ∀ entry ∈ after.registry.entries, entry ∈ (s.registry object).entries ∨ s.Due object entry) :
    (s.tell core object event).Kept core options := by
  have held : ∀ other, ∀ entry ∈ ((s.tell core object event).registry other).entries,
      entry ∈ (s.registry other).entries ∨ s.Due other entry := by
    intro other entry mem
    by_cases same : other = object
    · subst same
      rw [registry, tell_same stepped] at mem
      exact fewer entry mem
    · rw [registry, tell_other same] at mem
      exact .inl mem
  refine { kept with runs := ?_, placed := ?_, waiting := ?_ }
  · intro other
    by_cases same : other = object
    · subst same
      rw [tell_same stepped]
      exact (kept.runs other).step stepped
    · rw [tell_other same]
      exact kept.runs other
  · intro other entry mem
    rcases held other entry mem with before | due
    · exact kept.placed other entry before
    · exact due.2
  · intro other entry mem unclaimed
    rcases held other entry mem with before | due
    swap
    · exact due.1
    refine kept.waiting other entry before ?_
    intro claimed
    refine unclaimed ?_
    by_cases same : other = object
    · subst same
      rw [tell_same stepped]
      exact step_claims stepped entry claimed
    · rwa [tell_other same]

end Tell

section

variable (kept : s.Kept core options)
include kept

theorem Kept.tellForget (object : Nat) (entry : DecisionEntry PendingApproval) :
    (s.tell core object (.forget entry)).Kept core options ∧
      (s.tell core object (.waitOver entry)).Kept core options := by
  have fewer : ∀ other ∈ ((s.registries object).forget core entry).registry.entries,
      other ∈ (s.registry object).entries := by
    intro other mem
    have still : other ∈ ((s.registry object).forget core entry).2.entries := by
      simp only [State.forget] at mem
      split at mem
      · exact mem
      · exact mem
    exact forget_entries.subset still
  exact ⟨kept.tell rfl fun other mem => .inl (fewer other mem), kept.tell rfl fun other mem => .inl (fewer other mem)⟩

/-! ### Requests -/

section

variable (known : s.requests n = some request)
include known

theorem Kept.below : n < s.made := by
  by_contra late
  rw [kept.fresh n (Nat.not_lt.1 late)] at known
  cases known

theorem Kept.setPhase {phase : Phase} {results : List Result} (going : request.phase ≠ .ended)
    (replies : ∀ reply, phase = .replying reply → s.futures n = some (some reply))
    (announces : phase = .announcing → options.mode ≠ .manual)
    (returns : results = [] ∨ phase = .ended ∧ ∃ allowed cause, results = [⟨n, allowed, cause⟩] ∧
      (allowed = true → Justified options request cause)) :
    Kept core options { s.setPhase n request phase with results := s.results ++ results } := by
  let moved : Request := { request with phase := phase }
  have here : (s.setPhase n request phase).requests n = some moved := by simp [Adapter.setPhase, moved]
  have others : ∀ m, m ≠ n → (s.setPhase n request phase).requests m = s.requests m := by
    intro m other
    simp [Adapter.setPhase, other]
  have earlier : ∀ m request', (s.setPhase n request phase).requests m = some request' →
      ∃ before, s.requests m = some before ∧ request'.room = before.room ∧
        request'.registry = before.registry ∧ request'.entry = before.entry := by
    intro m request' found
    by_cases same : m = n
    · subst same
      cases here.symm.trans found
      exact ⟨request, known, rfl, rfl, rfl⟩
    · exact ⟨request', (others m same).symm.trans found, rfl, rfl, rfl⟩
  have later : ∀ m request', s.requests m = some request' → ∃ after,
      (s.setPhase n request phase).requests m = some after ∧ after.registry = request'.registry ∧
        after.entry = request'.entry := by
    intro m request' found
    by_cases same : m = n
    · subst same
      cases known.symm.trans found
      exact ⟨moved, here, rfl, rfl⟩
    · exact ⟨request', (others m same).trans found, rfl, rfl⟩
  have silent : ∀ result ∈ s.results, result.request ≠ n := by
    rintro result mem rfl
    obtain ⟨request', found, over_, -⟩ := kept.ended result mem
    cases known.symm.trans found
    exact going over_
  refine { kept with
    fresh := ?_, placed := ?_, used := ?_, rooms := ?_, replied := ?_, replying := ?_, announcing := ?_,
    settled := ?_, ended := ?_, returned := ?_ }
  · intro m late
    have other : m ≠ n := fun same => absurd (kept.below known) (Nat.not_lt.2 (same ▸ late))
    exact (others m other).trans (kept.fresh m late)
  · intro object entry mem
    obtain ⟨before, found, registry, its⟩ := kept.placed object entry mem
    obtain ⟨after, found', registry', entry'⟩ := later _ before found
    exact ⟨after, found', registry'.trans registry, entry'.trans its⟩
  · intro m request' entry found its
    obtain ⟨before, found', -, registry, entry'⟩ := earlier m request' found
    rw [registry]
    exact kept.used m before entry found' (entry'.symm.trans its)
  · intro room object opened
    refine ⟨(kept.rooms room object opened).1, ?_⟩
    intro m request' entry found its registry
    obtain ⟨before, found', room', registry', entry'⟩ := earlier m request' found
    rw [room']
    exact (kept.rooms room object opened).2 m before entry found' (entry'.symm.trans its)
      (registry'.symm.trans registry)
  · intro m reply set
    obtain ⟨request', entry, found, its, names⟩ := kept.replied m reply set
    obtain ⟨after, found', -, entry'⟩ := later m request' found
    exact ⟨after, entry, found', entry'.trans its, names⟩
  · intro m request' reply found at_
    rcases set_cases here others found with ⟨rfl, ⟨⟩⟩ | ⟨-, found⟩
    · exact replies reply at_
    · exact kept.replying m request' reply found at_
  · intro m request' found at_
    rcases set_cases here others found with ⟨rfl, ⟨⟩⟩ | ⟨-, found⟩
    · exact announces at_
    · exact kept.announcing m request' found at_
  · intro m mem
    obtain ⟨set, request', found⟩ := kept.settled m mem
    obtain ⟨after, found', -⟩ := later m request' found
    exact ⟨set, after, found'⟩
  · intro result mem
    rcases mem_append.1 mem with before | new
    · obtain ⟨request', found, over_, justified⟩ := kept.ended result before
      exact ⟨request', (others _ (silent result before)).trans found, over_, justified⟩
    · rcases returns with none_ | ⟨over_, allowed, cause, only, justified⟩
      · rw [none_] at new
        cases new
      · rw [only, mem_singleton] at new
        subst new
        refine ⟨moved, here, over_, ?_⟩
        intro allowed
        have given := justified allowed
        cases cause with
        | replied reply | timedOut | mode | undelivered | forced => exact given
  · rw [map_append, nodup_append]
    refine ⟨kept.returned, ?_, ?_⟩
    · rcases returns with none_ | ⟨-, allowed, cause, only, -⟩
      · simp [none_]
      · simp [only]
    · rintro m old m' new rfl
      obtain ⟨result, mem, rfl⟩ := mem_map.1 old
      rcases returns with none_ | ⟨-, allowed, cause, only, -⟩
      · simp [none_] at new
      rw [only] at new
      simp only [map_cons, map_nil, mem_singleton] at new
      exact silent result mem new

theorem Kept.goOn {phase : Phase} (going : request.phase ≠ .ended)
    (replies : ∀ reply, phase = .replying reply → s.futures n = some (some reply))
    (announces : phase = .announcing → options.mode ≠ .manual) :
    (s.setPhase n request phase).Kept core options := by
  have moved := kept.setPhase known going replies announces (.inl rfl)
  rw [append_nil] at moved
  exact moved

theorem Kept.finish {allowed : Bool} {cause : Cause} (going : request.phase ≠ .ended)
    (justified : allowed = true → Justified options request cause) :
    (s.finish n request allowed cause).Kept core options := by
  refine kept.setPhase known going nofun nofun (.inr ⟨rfl, _, cause, rfl, ?_⟩)
  intro given
  rw [Bool.and_eq_true, Bool.and_eq_true] at given
  exact justified given.1.1

end

theorem Kept.unset (late : s.made ≤ n) : s.futures n = none := by
  by_contra set
  obtain ⟨-, request, known⟩ := kept.settled n (kept.unsettled n set)
  rw [kept.fresh n late] at known
  cases known

end

/-- A new request, which goes on from here. -/
def enroll (s : Adapter C) (request : Request) : Adapter C :=
  { s with
    made := s.made + 1
    requests := Function.update s.requests s.made (some { request with phase := .waiting true }) }

theorem enroll_setPhase (request : Request) (phase : Phase) :
    (s.enroll request).setPhase s.made request phase =
      { s with made := s.made + 1 }.setPhase s.made request phase := by
  simp [enroll, Adapter.setPhase]

theorem Kept.enroll (kept : s.Kept core options)
    (entered : ∀ entry, request.entry = some entry → request.registry < s.objects ∧
      entry.payload.future = s.made ∧
      ∀ room, Keyed.get room s.pendingApprovals = some request.registry → request.room = room) :
    (s.enroll request).Kept core options ∧
      (s.enroll request).requests s.made = some { request with phase := .waiting true } := by
  have here : (s.enroll request).requests s.made = some { request with phase := .waiting true } := by
    simp [Adapter.enroll]
  have others : ∀ m, m ≠ s.made → (s.enroll request).requests m = s.requests m := by
    intro m other
    simp [Adapter.enroll, other]
  have older : ∀ m request', s.requests m = some request' → (s.enroll request).requests m = some request' := by
    intro m request' found
    exact (others m (Nat.ne_of_lt (kept.below found))).trans found
  refine ⟨{ kept with
    fresh := ?_, placed := ?_, used := ?_, rooms := ?_, replied := ?_, replying := ?_, announcing := ?_,
    settled := ?_, ended := ?_ }, here⟩
  · intro m late
    have late : s.made + 1 ≤ m := late
    exact (others m (by omega)).trans (kept.fresh m (by omega))
  · intro object entry mem
    obtain ⟨request', found, its⟩ := kept.placed object entry mem
    exact ⟨request', older _ _ found, its⟩
  · intro m request' entry found its
    rcases set_cases here others found with ⟨rfl, ⟨⟩⟩ | ⟨-, found⟩
    · exact ⟨(entered entry its).1, (entered entry its).2.1⟩
    · exact kept.used m request' entry found its
  · intro room object opened
    refine ⟨(kept.rooms room object opened).1, ?_⟩
    intro m request' entry found its registry
    rcases set_cases here others found with ⟨rfl, ⟨⟩⟩ | ⟨-, found⟩
    · exact (entered entry its).2.2 room (registry ▸ opened)
    · exact (kept.rooms room object opened).2 m request' entry found its registry
  · intro m reply set
    obtain ⟨request', entry, found, its⟩ := kept.replied m reply set
    exact ⟨request', entry, older _ _ found, its⟩
  · intro m request' reply found at_
    rcases set_cases here others found with ⟨rfl, ⟨⟩⟩ | ⟨-, found⟩
    · cases at_
    · exact kept.replying m request' reply found at_
  · intro m request' found at_
    rcases set_cases here others found with ⟨rfl, ⟨⟩⟩ | ⟨-, found⟩
    · cases at_
    · exact kept.announcing m request' found at_
  · intro m mem
    obtain ⟨set, request', found⟩ := kept.settled m mem
    exact ⟨set, request', older _ _ found⟩
  · intro result mem
    obtain ⟨request', found, over_⟩ := kept.ended result mem
    exact ⟨request', older _ _ found, over_⟩

/-! ### Futures -/

/-- An entry that waits and that no registry offers any more. -/
structure Loose (s : Adapter C) (entry : DecisionEntry PendingApproval) : Prop where
  unset : s.futures entry.payload.future = none
  known : ∃ request, s.requests entry.payload.future = some request ∧ request.entry = some entry
  free : ∀ object, ∀ held ∈ (s.registry object).entries,
    held ∉ (s.registries object).ledger.claims → held.payload.future ≠ entry.payload.future

section

variable (kept : s.Kept core options)
include kept

theorem Kept.loose (kept' : s'.Kept core options) (held : entry ∈ (s.registry object).entries)
    (unclaimed : entry ∉ (s.registries object).ledger.claims)
    (requests : s'.requests = s.requests) (futures : s'.futures = s.futures)
    (gone : entry ∈ (s'.registry object).entries → entry ∈ (s'.registries object).ledger.claims) :
    s'.Loose entry := by
  obtain ⟨request, known, registry, its⟩ := kept.placed object entry held
  refine ⟨?_, ⟨request, requests ▸ known, its⟩, ?_⟩
  · rw [futures]
    exact kept.waiting object entry held unclaimed
  · intro other held' mem open_ same
    obtain ⟨request', known', registry', its'⟩ := kept'.placed other held' mem
    rw [same, requests, known] at known'
    cases known'
    cases its.symm.trans its'
    cases registry.symm.trans registry'
    exact open_ (gone mem)

theorem Kept.setResult {reply : Option ApprovalReply} (loose : s.Loose entry)
    (names : ∀ given, reply = some given → Names options entry.token given) :
    (s.setResult entry.payload.future reply).Kept core options := by
  obtain ⟨request, known, its⟩ := loose.known
  have here : (s.setResult entry.payload.future reply).futures entry.payload.future = some reply := by
    simp [Adapter.setResult]
  have others : ∀ m, m ≠ entry.payload.future →
      (s.setResult entry.payload.future reply).futures m = s.futures m := by
    intro m other
    simp [Adapter.setResult, other]
  refine { kept with
    waiting := ?_, replied := ?_, replying := ?_, settled := ?_, unsettled := ?_, once := ?_ }
  · intro object held mem unclaimed
    exact (others _ (loose.free object held mem unclaimed)).trans (kept.waiting object held mem unclaimed)
  · intro m given set
    rcases set_cases here others set with ⟨rfl, ⟨⟩⟩ | ⟨-, set⟩
    · exact ⟨request, entry, known, its, names given rfl⟩
    · exact kept.replied m given set
  · intro m request' given found at_
    have before := kept.replying m request' given found at_
    by_cases same : m = entry.payload.future
    · subst same
      rw [loose.unset] at before
      cases before
    · exact (others m same).trans before
  · intro m mem
    rcases mem_concat mem with before | rfl
    · obtain ⟨set, found⟩ := kept.settled m before
      have other : m ≠ entry.payload.future := by
        rintro rfl
        exact set loose.unset
      exact ⟨by rwa [others m other], found⟩
    · exact ⟨by rw [here]; nofun, request, known⟩
  · intro m set
    by_cases same : m = entry.payload.future
    · exact mem_append_right _ (by simp [same])
    · rw [others m same] at set
      exact mem_append_left _ (kept.unsettled m set)
  · refine nodup_append.2 ⟨kept.once, nodup_singleton _, ?_⟩
    intro m old m' new same
    rw [mem_singleton] at new
    exact (kept.settled m old).1 (by rw [same, new, loose.unset])

/-- Loose entries are settled without a reply, each once. -/
theorem Kept.force {removed : List (DecisionEntry PendingApproval)}
    (once : removed.Nodup) (loose : ∀ entry ∈ removed, s.Loose entry) :
    (s.force removed).Kept core options := by
  induction removed generalizing s with
  | nil => exact kept
  | cons first rest ih =>
    rw [nodup_cons] at once
    have settled : (s.setResult first.payload.future none).Kept core options :=
      kept.setResult (loose first (by simp)) nofun
    refine ih settled once.2 ?_
    intro entry mem
    have its := loose entry (mem_cons_of_mem _ mem)
    refine ⟨?_, its.known, its.free⟩
    obtain ⟨request, known, entry'⟩ := its.known
    obtain ⟨request', known', entry''⟩ := (loose first (by simp)).known
    have other : entry.payload.future ≠ first.payload.future := by
      intro same
      rw [same, known'] at known
      cases known
      cases entry''.symm.trans entry'
      exact once.1 mem
    have unset := its.unset
    simpa [Adapter.setResult, other] using unset

end

end Adapter

end BandSdk.ClaudeSdk

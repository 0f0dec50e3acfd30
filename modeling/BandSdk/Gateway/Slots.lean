/-
# Gateway.Slots -- whose slot a room's slot is

`pending_task` pops the room's slot when its request leaves, whoever the slot names by
then.  A request whose slot `on_cleanup` took may leave after its successor registered,
and takes the successor's slot with it (`successor_loses_slot`); `cleanup_all` looks
first.  `_cancel_a2a` publishes for a request without its lock or its updater.

`orderly` leaves both out: there a slot names its request as long as it should, and a
request publishes at most one terminal status and nothing after it.
-/
import Mathlib
import BandSdk.Gateway.Model

namespace BandSdk.Gateway

open BandSdk.Theory List Function Option ExecutionPhase Keyed

set_option linter.dupNamespace false

/-- Inside the block of `pending_task`. -/
def ExecutionPhase.inside : ExecutionPhase → Bool
  | .failing _ => false
  | _ => true

/-- This resumption leaves the block. -/
def ExecutionPhase.exits (pending : PendingA2ATask) : ExecutionPhase → Input → Bool
  | .announcing, .ended ended | .sending, .ended ended => ended ≠ .returned
  | .waiting, .ended _ => true
  | .timingOut .locking, .ended .returned => pending.done || pending.terminalReached
  | .timingOut .locking, .ended .cancelled | .timingOut .updating, .ended _ => true
  | _, _ => false

/-- The request a call is about to publish to. -/
def Call.publishesTo (call : Nat) : Call → Option Nat
  | .execution (.timingOut .locking) | .execution (.failing .locking) => some call
  | .message request _ _ .locking | .cleanup request .locking
  | .cleanupAll _ request _ .locking => some request
  | _ => none

/-- This resumption hands an update to the updater of the request it is for. -/
def PendingA2ATask.accepts (input : Input) (pending : PendingA2ATask) : Bool :=
  input = .ended .returned && !pending.done && !pending.terminalReached

/-- A request leaves its block while the slot is its own or empty; nothing is published to a
cancelled request, and only a request without a terminal status is cancelled, once. -/
def orderly (g : Gateway) : Event → Bool
  | .resume call input =>
    (match g.calls call, g.requests call with
      | some (.execution phase), some pending =>
        !phase.exits pending input || (g.slot pending.room).all (· = call)
      | _, _ => true) &&
    (((g.calls call).bind (Call.publishesTo call)).bind g.requests).all fun pending =>
      !(pending.accepts input && pending.cancelled)
  | .cancel request => (g.requests request).all fun pending => !pending.terminalReached && !pending.cancelled
  | _ => true

namespace Gateway

variable {g g' : Gateway}

/-- What holds between any two awaits. -/
structure Kept (g : Gateway) : Prop where
  fresh : ∀ n, g.made ≤ n → g.requests n = none ∧ g.calls n = none
  apart : (g.pendingTasks.map Prod.fst).Nodup
  executions : ∀ request phase, g.calls request = some (.execution phase) → (g.requests request).isSome
  slots : ∀ room request, g.slot room = some request →
    ∃ pending, g.requests request = some pending ∧ pending.room = room
  held : ∀ request phase pending, g.calls request = some (.execution phase) → phase.inside →
    g.requests request = some pending → pending.done = false → pending.cleaned = false →
    g.slot pending.room = some request
  messages : ∀ call request update registered publishing,
    g.calls call = some (.message request update registered publishing) → registered = some request
  ended : ∀ note ∈ g.log, note.update.terminal → ∃ pending, g.requests note.request = some pending ∧
    (pending.terminalReached ∨ pending.cancelled)
  once : g.log.Pairwise fun earlier later => earlier.update.terminal → later.request ≠ earlier.request
  told : ∀ note ∈ g.log, ∀ slot, note.registered = some slot → slot = some note.request

/-! ### One change at a time -/

variable {registered : Option (Option Nat)} {request : Nat} {update : Update} {publishing : Publishing}
    {ended : Ended} {call : Nat}

section

variable (kept : g.Kept)
include kept

theorem Kept.setCall {next : Option Call} (below : call < g.made)
    (execution : ∀ phase, next = some (.execution phase) → (g.requests call).isSome ∧
      (phase.inside → ∀ pending, g.requests call = some pending → pending.done = false →
        pending.cleaned = false → g.slot pending.room = some call))
    (message : ∀ request update registered publishing,
      next = some (.message request update registered publishing) → registered = some request) :
    (g.setCall call next).Kept := by
  refine { kept with fresh := ?_, executions := ?_, held := ?_, messages := ?_ }
  · intro n late
    refine ⟨(kept.fresh n late).1, ?_⟩
    have other : n ≠ call := fun same => absurd late (by simpa [Gateway.setCall, same] using below)
    simpa [Gateway.setCall, other] using (kept.fresh n late).2
  · intro request phase found
    rcases update_cases found with ⟨rfl, its⟩ | ⟨-, found⟩
    · exact (execution phase its).1
    · exact kept.executions request phase found
  · intro request phase pending found inside
    rcases update_cases found with ⟨rfl, its⟩ | ⟨-, found⟩
    · exact (execution phase its).2 inside pending
    · exact kept.held request phase pending found inside
  · intro other request update registered publishing found
    rcases update_cases found with ⟨rfl, its⟩ | ⟨-, found⟩
    · exact message request update registered publishing its
    · exact kept.messages other request update registered publishing
        found

/-- A call ends, or goes on as something that is neither an execution nor a message. -/
theorem Kept.setOther {next : Option Call} (below : call < g.made)
    (execution : ∀ phase, next ≠ some (.execution phase))
    (message : ∀ request update registered publishing,
      next ≠ some (.message request update registered publishing)) : (g.setCall call next).Kept := by
  refine kept.setCall below ?_ ?_
  · exact fun phase is => absurd is (execution phase)
  · exact fun request update registered publishing is =>
      absurd is (message request update registered publishing)

theorem Kept.below {running : Call} (was : g.calls call = some running) : call < g.made := by
  by_contra late
  simp [(kept.fresh call (Nat.not_lt.1 late)).2] at was

/-- An execution goes on; it is inside its block only if it was. -/
theorem Kept.setPhase {before phase : ExecutionPhase}
    (was : g.calls request = some (.execution before)) (stays : phase.inside → before.inside) :
    (g.setCall request (some (.execution phase))).Kept := by
  refine kept.setCall (kept.below was) ?_ ?_
  · intro phase' is
    cases is
    refine ⟨kept.executions request before was, ?_⟩
    exact fun inside pending => kept.held request before pending was (stays inside)
  · nofun

theorem Kept.grow : { g with made := g.made + 1 }.Kept where
  fresh n late := kept.fresh n (Nat.le_of_succ_le late)
  apart := kept.apart
  executions := kept.executions
  slots := kept.slots
  held := kept.held
  messages := kept.messages
  ended := kept.ended
  once := kept.once
  told := kept.told

/-- A slot goes whose request nobody is owed. -/
theorem Kept.erase {room : String}
    (free : ∀ request phase pending, g.calls request = some (.execution phase) → phase.inside →
      g.requests request = some pending → pending.room = room → g.slot room = some request →
      pending.done = true ∨ pending.cleaned = true) :
    { g with pendingTasks := erase room g.pendingTasks }.Kept := by
  refine { kept with apart := nodup_erase kept.apart, slots := ?_, held := ?_ }
  · intro other request found
    have was : g.slot other = some request := by
      simp only [slot, get_erase] at found ⊢
      obtain ⟨-, found⟩ := of_barred found
      exact found
    exact kept.slots other request was
  · intro request phase pending found inside known undone unclean
    have slot := kept.held request phase pending found inside known undone unclean
    have other : room ≠ pending.room := by
      rintro rfl
      have gone := free request phase pending found inside known rfl slot
      simp [undone, unclean] at gone
    simpa [Gateway.slot, get_erase, other] using slot

end

/-- What a publication did to its request. -/
structure Publishes (g : Gateway) (request : Nat) (update : Update) (registered : Option (Option Nat))
    (g' : Gateway) : Prop where
  same : g'.pendingTasks = g.pendingTasks ∧ g'.calls = g.calls ∧ g'.made = g.made
  requests : ∃ pending pending', g.requests request = some pending ∧
    g'.requests = Function.update g.requests request (some pending') ∧ pending'.room = pending.room ∧
    pending'.cleaned = pending.cleaned ∧ pending'.cancelled = pending.cancelled ∧
    (pending.done → pending'.done) ∧ (pending.terminalReached → pending'.terminalReached) ∧
    (g'.log = g.log ∨ g'.log = g.log ++ [⟨request, update, registered⟩] ∧
      pending.terminalReached = false ∧ (update.terminal → pending'.terminalReached))

theorem Publishes.unchanged {pending : PendingA2ATask} (known : g.requests request = some pending) :
    g.Publishes request update registered g where
  same := ⟨rfl, rfl, rfl⟩
  requests := by
    refine ⟨pending, pending, known, ?_, rfl, rfl, rfl, id, id, .inl rfl⟩
    rw [← known, update_eq_self]

theorem publish_publishes {progress : Progress}
    (ran : g.publish request update registered publishing ended = some (g', progress)) :
    g.Publishes request update registered g' := by
  unfold publish at ran
  split at ran
  · cases ran
  rename_i pending known
  split at ran
  · -- The lock is there: the updater is asked unless the request is done or had its terminal update.
    split_ifs at ran with locked done reached
    · obtain ⟨rfl, -⟩ := ran
      exact .unchanged known
    · obtain ⟨rfl, -⟩ := ran
      exact .unchanged known
    · obtain ⟨rfl, -⟩ := ran
      refine ⟨⟨rfl, rfl, rfl⟩, pending, _, known, rfl, rfl, rfl, rfl, id, ?_, .inr ⟨rfl, ?_, id⟩⟩
      · exact fun already => absurd already reached
      · simpa using reached
  · cases ran
  · obtain ⟨rfl, -⟩ := ran
    exact .unchanged known
  · obtain ⟨rfl, -⟩ := ran
    refine ⟨⟨rfl, rfl, rfl⟩, pending, _, known, rfl, rfl, rfl, rfl, ?_, id, .inl rfl⟩
    intro done
    simp [done]
  · obtain ⟨rfl, -⟩ := ran
    exact ⟨⟨rfl, rfl, rfl⟩, pending, _, known, rfl, rfl, rfl, rfl, id, id, .inl rfl⟩

/-- A terminal update that went through leaves its request done. -/
theorem publish_done (terminal : update.terminal)
    (ran : g.publish request update registered publishing ended = some (g', .ended .returned)) :
    ∃ pending, g'.requests request = some pending ∧ pending.done = true := by
  unfold publish at ran
  split at ran
  · cases ran
  rename_i pending known
  split at ran
  · split_ifs at ran with locked done reached
    · obtain ⟨rfl, -⟩ := ran
      exact ⟨pending, known, done⟩
    · simp at ran
    · simp at ran
  · cases ran
  · simp at ran
  · obtain ⟨rfl, -⟩ := ran
    exact ⟨_, by simp [setRequest]; rfl, by simp [terminal]⟩
  · rename_i other
    simp only [some.injEq, Prod.mk.injEq, Progress.ended.injEq] at ran
    exact absurd ran.2 other

theorem Kept.publish (kept : g.Kept) (did : g.Publishes request update registered g')
    (alive : g'.log = g.log ∨ ∀ pending, g.requests request = some pending → pending.cancelled = false)
    (named : ∀ slot, registered = some slot → slot = some request) : g'.Kept := by
  obtain ⟨⟨tasks, calls, made⟩, pending, pending', known, requests, room, cleaned, cancelled, done,
    reached, log⟩ := did
  have slots : ∀ r, g'.slot r = g.slot r := by
    intro r
    simp only [slot, tasks]
  have elsewhere : ∀ n, n ≠ request → g'.requests n = g.requests n := by
    intro n other
    rw [requests, update_of_ne other]
  have here : g'.requests request = some pending' := by
    rw [requests, update_self]
  have old : ∀ note ∈ g.log, note.update.terminal → ∃ pending, g'.requests note.request = some pending ∧
      (pending.terminalReached ∨ pending.cancelled) := by
    intro note inside terminal
    obtain ⟨before, was, how⟩ := kept.ended note inside terminal
    by_cases same : note.request = request
    · rw [same] at was ⊢
      cases known.symm.trans was
      refine ⟨pending', here, ?_⟩
      rw [cancelled]
      exact how.imp_left reached
    · exact ⟨before, (elsewhere _ same).trans was, how⟩
  refine ⟨?_, tasks ▸ kept.apart, ?_, ?_, ?_, ?_, ?_, ?_, ?_⟩
  · intro n late
    rw [made] at late
    have other : n ≠ request := by
      rintro rfl
      rw [(kept.fresh n late).1] at known
      cases known
    rw [elsewhere n other, calls]
    exact kept.fresh n late
  · intro n phase found
    rw [calls] at found
    by_cases same : n = request
    · simp [same, here]
    · simpa [elsewhere n same] using kept.executions n phase found
  · intro r n found
    rw [slots] at found
    obtain ⟨before, was, its⟩ := kept.slots r n found
    by_cases same : n = request
    · subst same
      cases known.symm.trans was
      exact ⟨pending', here, room.trans its⟩
    · exact ⟨before, (elsewhere n same).trans was, its⟩
  · intro n phase p found inside is undone unclean
    rw [calls] at found
    rw [slots]
    rcases set_cases here elsewhere is with ⟨rfl, ⟨⟩⟩ | ⟨-, is⟩
    · rw [room]
      refine kept.held n phase pending found inside known ?_ (cleaned ▸ unclean)
      exact Bool.eq_false_iff.2 fun already => by simp [done already] at undone
    · exact kept.held n phase p found inside is undone unclean
  · intro call n u r publishing found
    rw [calls] at found
    exact kept.messages call n u r publishing found
  · intro note inside terminal
    rcases log with unchanged | ⟨longer, -, becomes⟩
    · exact old note (unchanged ▸ inside) terminal
    rw [longer, mem_append, mem_singleton] at inside
    rcases inside with before | rfl
    · exact old note before terminal
    · exact ⟨pending', here, .inl (becomes terminal)⟩
  · rcases log with unchanged | ⟨longer, fresh, -⟩
    · rw [unchanged]
      exact kept.once
    · rw [longer, pairwise_append]
      refine ⟨kept.once, pairwise_singleton .., ?_⟩
      intro note inside last new terminal same
      rw [mem_singleton] at new
      subst new
      obtain ⟨before, was, how⟩ := kept.ended note inside terminal
      rw [← same] at was
      cases known.symm.trans was
      have spared : pending.cancelled = false := by
        rcases alive with shorter | spared
        · rw [longer] at shorter
          simp at shorter
        · exact spared pending known
      simp [fresh, spared] at how
  · intro note inside slot said
    rcases log with unchanged | ⟨longer, -, -⟩
    · exact kept.told note (unchanged ▸ inside) slot said
    rw [longer, mem_append, mem_singleton] at inside
    rcases inside with before | rfl
    · exact kept.told note before slot said
    · exact named slot said

/-- Only a lock that was got is followed by an update. -/
theorem publish_log {progress : Progress}
    (ran : g.publish request update registered publishing ended = some (g', progress))
    (alive : publishing = .locking → ∀ pending, g.requests request = some pending →
      pending.accepts (.ended ended) = true → pending.cancelled = false) :
    g'.log = g.log ∨ ∀ pending, g.requests request = some pending → pending.cancelled = false := by
  unfold publish at ran
  split at ran
  · cases ran
  rename_i pending known
  split at ran
  · split_ifs at ran with locked done reached
    · obtain ⟨rfl, -⟩ := ran
      exact .inl rfl
    · obtain ⟨rfl, -⟩ := ran
      exact .inl rfl
    · refine .inr fun found is => alive rfl found is ?_
      cases known.symm.trans is
      simp [PendingA2ATask.accepts, done, reached]
  · cases ran
  · obtain ⟨rfl, -⟩ := ran
    exact .inl rfl
  · obtain ⟨rfl, -⟩ := ran
    exact .inl rfl
  · obtain ⟨rfl, -⟩ := ran
    exact .inl rfl

/-! ### The block -/

/-- A request that is not inside its block takes a slot that is its own, or none. -/
theorem Kept.leave (kept : g.Kept)
    (outside : ∀ phase, g.calls request = some (.execution phase) → ¬ phase.inside)
    (own : ∀ pending, g.requests request = some pending → (g.slot pending.room).all (· = request)) :
    (g.leave request).Kept := by
  unfold Gateway.leave
  split
  · exact kept
  rename_i pending known
  refine kept.erase ?_
  intro other phase pending' found inside _ _ named
  have same := own pending known
  rw [named] at same
  simp only [Option.all_some, decide_eq_true_eq] at same
  subst same
  exact absurd inside (outside phase found)

theorem leave_setCall (request : Nat) (next : Option Call) :
    (g.leave request).setCall request next = (g.setCall request next).leave request := by
  simp only [Gateway.leave, setCall]
  cases g.requests request with
  | none | some pending => rfl

theorem Kept.leaveRaising (kept : g.Kept) {phase : ExecutionPhase}
    (was : g.calls request = some (.execution phase))
    (own : ∀ pending, g.requests request = some pending → (g.slot pending.room).all (· = request)) :
    (g.leaveRaising request ended).Kept := by
  unfold Gateway.leaveRaising
  split
  · have out : (failing .locking).inside = false := rfl
    have moved : (g.setCall request (some (.execution (.failing .locking)))).Kept :=
      kept.setPhase was fun inside => by simp [out] at inside
    rw [leave_setCall]
    refine moved.leave ?_ own
    intro phase' found
    simp only [Gateway.setCall, update_self] at found
    cases found
    simp [out]
  · have ended : (g.setCall request none).Kept := kept.setOther (kept.below was) nofun nofun
    rw [leave_setCall]
    refine ended.leave ?_ own
    intro phase' found
    simp [Gateway.setCall] at found

/-! ### What orderly steps are told -/

section Orderly

variable {call request : Nat} {running : Call} {input : Input} {ended : Ended} {pending : PendingA2ATask}

theorem orderly_alive (fine : orderly g (.resume call input)) (was : g.calls call = some running)
    (target : running.publishesTo call = some request) (known : g.requests request = some pending)
    (accepts : pending.accepts input = true) : pending.cancelled = false := by
  simp only [orderly, Bool.and_eq_true] at fine
  have spared := fine.2
  simpa [was, target, known, accepts] using spared

theorem orderly_own {phase : ExecutionPhase} (fine : orderly g (.resume request input))
    (was : g.calls request = some (.execution phase)) (known : g.requests request = some pending)
    (exits : phase.exits pending input = true) : (g.slot pending.room).all (· = request) := by
  simp only [orderly, Bool.and_eq_true, was, known] at fine
  simpa [exits] using fine.1

theorem Kept.published (kept : g.Kept) {update : Update} {registered : Option (Option Nat)}
    {publishing : Publishing} {progress : Progress} (fine : orderly g (.resume call (.ended ended)))
    (was : g.calls call = some running)
    (ran : g.publish request update registered publishing ended = some (g', progress))
    (target : publishing = .locking → running.publishesTo call = some request)
    (named : ∀ slot, registered = some slot → slot = some request) : g'.Kept := by
  refine kept.publish (publish_publishes ran) (publish_log ran ?_) named
  intro locking pending known accepts
  exact orderly_alive fine was (target locking) known accepts

/-- A publication that ends inside the block leaves it. -/
theorem publish_exits {update : Update} {registered : Option (Option Nat)} {publishing : Publishing}
    {ended' : Ended} (known : g.requests request = some pending)
    (ran : g.publish request update registered publishing ended = some (g', .ended ended')) :
    (ExecutionPhase.timingOut publishing).exits pending (.ended ended) = true := by
  unfold publish at ran
  simp only [known] at ran
  split at ran
  · split_ifs at ran with locked done reached
    · simp [exits, done]
    · simp [exits, reached]
    · simp at ran
  · cases ran
  · rfl
  · rfl
  · rfl

end Orderly

variable {request : Nat} (room : String)

theorem Kept.resumeExecution (kept : g.Kept) {phase : ExecutionPhase} {input : Input}
    (was : g.calls request = some (.execution phase)) (fine : orderly g (.resume request input))
    (ran : g.resumeExecution request phase input = some g') : g'.Kept := by
  unfold Gateway.resumeExecution at ran
  split at ran
  · cases ran
    exact kept.setPhase was fun _ => rfl
  · cases ran
    exact kept.setPhase was fun _ => rfl
  · split_ifs at ran with done
    cases ran
    exact kept.leaveRaising was fun pending known => orderly_own fine was known rfl
  · cases ran
    exact kept.setPhase was fun _ => rfl
  · cases ran
  · rename_i ended other
    cases ran
    refine kept.leaveRaising was fun pending known => orderly_own fine was known ?_
    simpa [exits] using other
  · rename_i ended other
    cases ran
    refine kept.leaveRaising was fun pending known => orderly_own fine was known ?_
    simpa [exits] using other
  · cases ran
    exact kept.leaveRaising was fun pending known => orderly_own fine was known rfl
  · rename_i publishing ended
    obtain ⟨⟨g₁, progress⟩, published, rfl⟩ := map_eq_some_iff.1 ran
    have kept₁ : g₁.Kept := by
      refine kept.published fine was published ?_ (by simp)
      rintro rfl
      rfl
    have did := publish_publishes published
    have was₁ : g₁.calls request = some (.execution (.timingOut publishing)) := by
      rw [did.same.2.1, was]
    cases progress with
    | still publishing' => exact kept₁.setPhase was₁ fun _ => rfl
    | ended ended' =>
      refine kept₁.leaveRaising was₁ ?_
      intro pending' known'
      obtain ⟨pending, pending'', known, requests, room, -⟩ := did.requests
      rw [requests, update_self] at known'
      cases known'
      have own := orderly_own fine was known (publish_exits known published)
      simpa only [slot, did.same.1, room] using own
  · rename_i publishing ended
    obtain ⟨⟨g₁, progress⟩, published, rfl⟩ := map_eq_some_iff.1 ran
    have kept₁ : g₁.Kept := by
      refine kept.published fine was published ?_ (by simp)
      rintro rfl
      rfl
    have was₁ : g₁.calls request = some (.execution (.failing publishing)) := by
      rw [(publish_publishes published).same.2.1, was]
    cases progress with
    | still publishing' => exact kept₁.setPhase was₁ (by rintro ⟨⟩)
    | ended ended' => exact kept₁.setOther (kept₁.below was₁) (by simp) (by simp)
  · cases ran

/-! ### Registration and cleanup -/

/-- A request of the room is made. -/
def enroll (g : Gateway) (room : String) : Gateway :=
  { g.setRequest g.made { room := room } with made := g.made + 1 }

theorem Kept.enroll (kept : g.Kept) (room : String) : (g.enroll room).Kept := by
  have absent := (kept.fresh g.made (Nat.le_refl _)).1
  have silent := (kept.fresh g.made (Nat.le_refl _)).2
  have elsewhere : ∀ n pending, g.requests n = some pending → n ≠ g.made := by
    rintro n pending known rfl
    rw [absent] at known
    cases known
  refine { kept.grow with fresh := ?_, executions := ?_, slots := ?_, held := ?_, ended := ?_ }
  · intro n late
    have other : n ≠ g.made := Nat.ne_of_gt late
    simpa [Gateway.enroll, setRequest, other] using kept.fresh n (Nat.le_of_succ_le late)
  · intro n phase found
    by_cases same : n = g.made
    · simp [Gateway.enroll, setRequest, same]
    · simpa [Gateway.enroll, setRequest, same] using kept.executions n phase found
  · intro r n found
    obtain ⟨pending, known, its⟩ := kept.slots r n found
    exact ⟨pending, by simpa [Gateway.enroll, setRequest, elsewhere n pending known] using known, its⟩
  · intro n phase pending found inside known
    have other : n ≠ g.made := by
      rintro rfl
      exact absurd (silent.symm.trans found) nofun
    exact kept.held n phase pending found inside (by simpa [Gateway.enroll, setRequest, other] using known)
  · intro note inside terminal
    obtain ⟨pending, known, how⟩ := kept.ended note inside terminal
    exact ⟨pending, by simpa [Gateway.enroll, setRequest, elsewhere _ pending known] using known, how⟩

theorem Kept.setItem (kept : g.Kept) {room : String} {pending : PendingA2ATask}
    (known : g.requests request = some pending) (its : pending.room = room) (free : g.slot room = none) :
    { g with pendingTasks := setItem room request g.pendingTasks }.Kept := by
  refine { kept with apart := nodup_setItem kept.apart, slots := ?_, held := ?_ }
  · intro r n found
    simp only [slot, get_setItem] at found
    split at found
    next same =>
      cases found
      exact ⟨pending, known, its.trans same⟩
    next => exact kept.slots r n found
  · intro n phase pending' found inside known' undone unclean
    have slot := kept.held n phase pending' found inside known' undone unclean
    have other : room ≠ pending'.room := by
      rintro rfl
      rw [free] at slot
      cases slot
    simpa [Gateway.slot, get_setItem, other] using slot

theorem enroll_requests : (g.enroll room).requests g.made = some { room := room } := by
  simp [enroll, setRequest]

theorem execute_eq : g.execute room =
    match g.slot room with
    | some _ => (g.enroll room).setCall g.made (some (.execution (.failing .locking)))
    | none =>
      { g.enroll room with pendingTasks := setItem room g.made g.pendingTasks }.setCall g.made
        (some (.execution .announcing)) := by
  have same : (g.setRequest g.made { room := room }).slot room = g.slot room := rfl
  simp only [Gateway.execute, same]
  cases g.slot room with
  | some other | none => rfl

theorem Kept.execute (kept : g.Kept) (room : String) : (g.execute room).Kept := by
  have enrolled := kept.enroll room
  have below : g.made < (g.enroll room).made := Nat.lt_succ_self _
  have present : ((g.enroll room).requests g.made).isSome := by
    rw [enroll_requests]
    rfl
  rw [execute_eq]
  cases free : g.slot room with
  | some other =>
    refine enrolled.setCall below ?_ nofun
    intro phase is
    cases is
    exact ⟨present, nofun⟩
  | none =>
    have placed := enrolled.setItem (enroll_requests room) rfl free
    refine placed.setCall below ?_ nofun
    intro phase is
    cases is
    refine ⟨present, ?_⟩
    intro inside pending known undone unclean
    cases (enroll_requests room).symm.trans known
    simp [slot, get_setItem]

/-- What a cleanup of `room` notes of a request. -/
def noteCleaned (room : String) (pending : PendingA2ATask) : PendingA2ATask :=
  if pending.room = room then { pending with cleaned := true } else pending

theorem noteCleaned_room (pending : PendingA2ATask) : (noteCleaned room pending).room = pending.room := by
  unfold noteCleaned
  split <;> rfl

theorem noteCleaned_done (pending : PendingA2ATask) : (noteCleaned room pending).done = pending.done := by
  unfold noteCleaned
  split <;> rfl

theorem Kept.clean (kept : g.Kept) (room : String) :
    { g with
      pendingTasks := Keyed.erase room g.pendingTasks
      requests := fun request => (g.requests request).map (noteCleaned room) }.Kept := by
  refine { kept with
    fresh := ?_, apart := nodup_erase kept.apart, executions := ?_, slots := ?_, held := ?_, ended := ?_ }
  · intro n late
    simp [kept.fresh n late]
  · intro n phase found
    simpa using kept.executions n phase found
  · intro r n found
    simp only [slot, get_erase] at found
    obtain ⟨-, found⟩ := of_barred found
    obtain ⟨pending, known, its⟩ := kept.slots r n found
    exact ⟨noteCleaned room pending, by simp [known], (noteCleaned_room room pending).trans its⟩
  · intro n phase pending' found inside known undone unclean
    obtain ⟨pending, was, rfl⟩ := map_eq_some_iff.1 known
    rw [noteCleaned_done] at undone
    have other : room ≠ pending.room := by
      rintro rfl
      simp [noteCleaned] at unclean
    have unchanged : noteCleaned room pending = pending := by
      rw [noteCleaned, if_neg other.symm]
    rw [unchanged] at unclean ⊢
    simpa [Gateway.slot, get_erase, other] using
      kept.held n phase pending found inside was undone unclean
  · intro note inside terminal
    obtain ⟨pending, known, how⟩ := kept.ended note inside terminal
    refine ⟨noteCleaned room pending, by simp [known], ?_⟩
    unfold noteCleaned
    split <;> exact how

theorem Kept.onCleanup (kept : g.Kept) (room : String) : (g.onCleanup room).Kept := by
  have cleaned := kept.clean room
  simp only [Gateway.onCleanup]
  cases g.slot room with
  | none => exact cleaned
  | some request => exact cleaned.grow.setOther (Nat.lt_succ_self _) nofun nofun

theorem failNext_grow (call : Nat) (rest : List (String × Nat)) :
    { g with made := g.made + 1 }.failNext call rest = { g.failNext call rest with made := g.made + 1 } := by
  cases rest with
  | nil | cons first rest => rfl

section

variable (kept : g.Kept)
include kept

theorem Kept.failNext {call : Nat} (below : call < g.made) (rest : List (String × Nat)) :
    (g.failNext call rest).Kept := by
  cases rest with
  | nil | cons first rest => exact kept.setOther below nofun nofun

/-- `cleanup_all` takes the slot of a request it failed. -/
theorem Kept.releaseFailed {room : String} {pending : PendingA2ATask}
    (known : g.requests request = some pending) (done : pending.done = true) :
    (g.releaseFailed room request).Kept := by
  unfold Gateway.releaseFailed
  split
  next named =>
    refine kept.erase ?_
    intro other phase pending' _ _ known' _ named'
    cases named.symm.trans named'
    cases known.symm.trans known'
    exact .inl done
  next => exact kept

theorem Kept.cancel {pending pending' : PendingA2ATask}
    (known : g.requests request = some pending) (going : pending.terminalReached = false)
    (alive : pending.cancelled = false) (marked : pending' = { pending with cancelled := true }) :
    Kept { g.setRequest request pending' with log := g.log ++ [⟨request, .cancel, none⟩] } := by
  have elsewhere : ∀ n, n ≠ request → (g.setRequest request pending').requests n = g.requests n := by
    intro n other
    simp [setRequest, other]
  have here : (g.setRequest request pending').requests request = some pending' := by
    simp [setRequest]
  have ends : pending'.cancelled = true := by rw [marked]
  refine { kept with
    fresh := ?_, executions := ?_, slots := ?_, held := ?_, ended := ?_, once := ?_, told := ?_ }
  · intro n late
    have other : n ≠ request := by
      rintro rfl
      rw [(kept.fresh n late).1] at known
      cases known
    exact ⟨(elsewhere n other).trans (kept.fresh n late).1, (kept.fresh n late).2⟩
  · intro n phase found
    by_cases same : n = request
    · simp only [same, here, isSome_some]
    · simpa only [elsewhere n same] using kept.executions n phase found
  · intro r n found
    obtain ⟨before, was, its⟩ := kept.slots r n found
    by_cases same : n = request
    · subst same
      cases known.symm.trans was
      exact ⟨pending', here, by rw [marked, its]⟩
    · exact ⟨before, (elsewhere n same).trans was, its⟩
  · intro n phase after found inside is undone unclean
    rcases set_cases here elsewhere is with ⟨rfl, ⟨⟩⟩ | ⟨-, is⟩
    · rw [marked] at undone unclean ⊢
      exact kept.held n phase pending found inside known undone unclean
    · exact kept.held n phase after found inside is undone unclean
  · intro note inside terminal
    rw [mem_append, mem_singleton] at inside
    rcases inside with before | rfl
    · obtain ⟨earlier, was, how⟩ := kept.ended note before terminal
      by_cases same : note.request = request
      · exact ⟨pending', same ▸ here, .inr ends⟩
      · exact ⟨earlier, (elsewhere _ same).trans was, how⟩
    · exact ⟨pending', here, .inr ends⟩
  · rw [pairwise_append]
    refine ⟨kept.once, pairwise_singleton .., ?_⟩
    intro note inside last new terminal same
    rw [mem_singleton] at new
    subst new
    obtain ⟨before, was, how⟩ := kept.ended note inside terminal
    rw [← same, known] at was
    cases was
    simp [going, alive] at how
  · intro note inside slot said
    rw [mem_append, mem_singleton] at inside
    rcases inside with before | rfl
    · exact kept.told note before slot said
    · cases said

/-! ### Every step -/

theorem Kept.resume {call : Nat} {input : Input} (fine : orderly g (.resume call input))
    (ran : g.resume call input = some g') : g'.Kept := by
  unfold Gateway.resume at ran
  split at ran
  · rename_i phase was
    exact kept.resumeExecution was fine ran
  · rename_i request update registered publishing ended was
    obtain ⟨⟨g₁, progress⟩, published, rfl⟩ := map_eq_some_iff.1 ran
    have named := kept.messages call request update registered publishing was
    have kept₁ : g₁.Kept := by
      refine kept.published fine was published ?_ ?_
      · rintro rfl
        rfl
      · rintro slot ⟨⟩
        exact named
    have below : call < g₁.made := by
      rw [(publish_publishes published).same.2.2]
      exact kept.below was
    cases progress with
    | still publishing' =>
      refine kept₁.setCall below nofun ?_
      rintro _ _ _ _ ⟨⟩
      exact named
    | ended ended' => exact kept₁.setOther below nofun nofun
  · rename_i request publishing ended was
    obtain ⟨⟨g₁, progress⟩, published, rfl⟩ := map_eq_some_iff.1 ran
    have kept₁ : g₁.Kept := by
      refine kept.published fine was published ?_ nofun
      rintro rfl
      rfl
    have below : call < g₁.made := by
      rw [(publish_publishes published).same.2.2]
      exact kept.below was
    cases progress with
    | still publishing' | ended ended' => exact kept₁.setOther below nofun nofun
  · rename_i room request rest publishing ended was
    obtain ⟨⟨g₁, progress⟩, published, rfl⟩ := map_eq_some_iff.1 ran
    have kept₁ : g₁.Kept := by
      refine kept.published fine was published ?_ nofun
      rintro rfl
      rfl
    have below : call < g₁.made := by
      rw [(publish_publishes published).same.2.2]
      exact kept.below was
    cases progress with
    | still publishing' => exact kept₁.setOther below nofun nofun
    | ended ended' =>
      cases ended' with
      | returned =>
        obtain ⟨pending, known, done⟩ := publish_done rfl published
        refine (kept₁.releaseFailed known done).failNext ?_ rest
        unfold Gateway.releaseFailed
        split <;> exact below
      | raised => exact kept₁.failNext below rest
      | cancelled => exact kept₁.setOther below nofun nofun
  · cases ran

theorem Kept.step {e : Event} (fine : orderly g e) (stepped : g.step e = some g') : g'.Kept := by
  cases e with
  | execute room =>
    cases stepped
    exact kept.execute room
  | message room update =>
    obtain ⟨-, stepped⟩ := of_barred stepped
    split at stepped
    · cases stepped
      exact kept
    · cases stepped
      refine kept.grow.setCall (Nat.lt_succ_self _) nofun ?_
      rintro _ _ _ _ ⟨⟩
      rfl
  | cleanup room =>
    cases stepped
    exact kept.onCleanup room
  | cleanupAll =>
    cases stepped
    have started := kept.grow.failNext (Nat.lt_succ_self _) g.pendingTasks
    rw [failNext_grow] at started
    exact started
  | cancel request =>
    obtain ⟨pending, known, rfl⟩ := map_eq_some_iff.1 stepped
    simp only [orderly, known, Option.all_some, Bool.and_eq_true, Bool.not_eq_true'] at fine
    exact kept.cancel known fine.1 fine.2 rfl
  | resume call input => exact kept.resume fine stepped

end

theorem kept_init : ({} : Gateway).Kept where
  fresh := fun _ _ => ⟨rfl, rfl⟩
  apart := nodup_nil
  executions := nofun
  slots := nofun
  held := nofun
  messages := nofun
  ended := nofun
  once := List.Pairwise.nil
  told := nofun

theorem kept_of_reachable (reached : (gateway.restrict orderly).Reachable g) : g.Kept := by
  refine reached.invariant ?_ ?_
  · rintro _ rfl
    exact kept_init
  · intro g e g' kept stepped
    have allowed := Machine.restrict_step stepped
    exact kept.step allowed.1 allowed.2

end Gateway

/-- **A slot is its request's.**  In every run of orderly steps a request that is inside its block,
not done and in a room that was not cleaned up has its room's slot; a room has one slot; a Band
message is published to the request that was registered when it came; and nothing is published for a
request after its terminal status. -/
theorem slots_kept {g : Gateway} (reached : (gateway.restrict orderly).Reachable g) :
    (∀ request phase pending, g.calls request = some (.execution phase) → phase.inside →
      g.requests request = some pending → pending.done = false → pending.cleaned = false →
      g.slot pending.room = some request) ∧
    (g.pendingTasks.map Prod.fst).Nodup ∧
    (∀ note ∈ g.log, ∀ slot, note.registered = some slot → slot = some note.request) ∧
    g.log.Pairwise fun earlier later => earlier.update.terminal → later.request ≠ earlier.request := by
  have kept := Gateway.kept_of_reachable reached
  exact ⟨kept.held, kept.apart, kept.told, kept.once⟩

/-- A request is told of progress and waits on. -/
theorem slots_kept_waiting : ∃ g, (gateway.restrict orderly).Reachable g ∧
    g.log = [⟨0, .progress, some (some 0)⟩] ∧ g.slot "room" = some 0 := by
  have ran : ((gateway.restrict orderly).run {}
      [.execute "room", .resume 0 (.ended .returned), .resume 0 (.ended .returned),
        .message "room" .progress, .resume 1 (.ended .returned), .resume 1 (.ended .returned)]).map
      (fun g => (g.log, g.calls 0, g.requests 0)) =
      some ([⟨0, .progress, some (some 0)⟩], some (.execution .waiting), some { room := "room" }) := by
    decide +kernel
  obtain ⟨g, run, seen⟩ := map_eq_some_iff.1 ran
  simp only [Prod.mk.injEq] at seen
  obtain ⟨log, running, known⟩ := seen
  have reached : (gateway.restrict orderly).Reachable g := ⟨{}, rfl, _, run⟩
  exact ⟨g, reached, log, (slots_kept reached).1 0 .waiting { room := "room" } running rfl known rfl rfl⟩

/-- Request `0` is cleaned up and request `2` registers; then request `0` leaves its block, and the
slot of request `2` is gone. -/
theorem successor_loses_slot : ∃ g, gateway.Reachable g ∧ g.calls 2 = some (.execution .announcing) ∧
    g.requests 2 = some { room := "room" } ∧ g.slot "room" = none := by
  have ran : (gateway.run {}
      [.execute "room", .resume 0 (.ended .returned), .resume 0 (.ended .returned), .cleanup "room",
        .resume 1 (.ended .returned), .resume 1 (.ended .returned), .execute "room",
        .resume 0 (.ended .returned)]).map (fun g => (g.calls 2, g.requests 2, g.slot "room")) =
      some (some (.execution .announcing), some { room := "room" }, none) := by
    decide +kernel
  obtain ⟨g, run, seen⟩ := map_eq_some_iff.1 ran
  simp only [Prod.mk.injEq] at seen
  exact ⟨g, ⟨{}, rfl, _, run⟩, seen.1, seen.2.1, seen.2.2⟩

end BandSdk.Gateway

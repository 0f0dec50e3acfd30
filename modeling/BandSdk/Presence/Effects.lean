/-
# Presence.Effects -- what one resumption can do

`Effect` lists what the code between two awaits does to the rooms admitted, the
callbacks invoked and the leaves spawned.  Everything else -- claims, retries,
phases, the lock -- is `Calm`.
-/
import BandSdk.Presence.Model

namespace BandSdk.Presence

open BandSdk.Theory List Option RoomPresence

variable {R P : Type} {core : Roster R} {config : Config P} {due : String → Prop}

def Body.isLeave : Body P → Bool
  | .leave .. => true
  | _ => false

/-- The admission a task is in, wherever it runs. -/
def Body.admission : Body P → Option (Admission P × AdmissionPhase)
  | .consume (.adding admission phase) => some (admission, phase)
  | .retry _ _ _ (.admitting admission phase) => some (admission, phase)
  | .completing admission phase => some (admission, phase)
  | _ => none

namespace RoomPresence

/-- No task has a number that was not given yet. -/
def Bounded (p : RoomPresence R P) : Prop := ∀ task, p.made ≤ task → p.tasks task = none

/-- The older tasks are untouched, and the newer ones are `bodies`, in order. -/
structure Grown (bodies : List (Body P)) (p p' : RoomPresence R P) : Prop where
  made : p'.made = p.made + bodies.length
  older : ∀ task, task < p.made → p'.tasks task = p.tasks task
  newer : ∀ task, p.made ≤ task → p'.tasks task = bodies[task - p.made]?

variable {p p' : RoomPresence R P}

theorem Grown.bounded {bodies : List (Body P)} (grown : Grown bodies p p') : Bounded p' := by
  intro task beyond
  rw [grown.made] at beyond
  rw [grown.newer task (by omega)]
  exact getElem?_eq_none (by omega)

theorem Bounded.grown (bounded : Bounded p) (made : p'.made = p.made)
    (tasks : p'.tasks = p.tasks) : Grown [] p p' where
  made := made
  older := by simp [tasks]
  newer task beyond := by
    rw [tasks, bounded task beyond]
    rfl

theorem spawn_tasks (p : RoomPresence R P) (body : Body P) (task : Nat) :
    (p.spawn body).tasks task = if task = p.made then some body else p.tasks task := by
  by_cases same : task = p.made
  · simp [spawn, setTask, same]
  · simp [spawn, setTask, same]

theorem Bounded.spawn {p : RoomPresence R P} (bounded : Bounded p) (body : Body P) :
    Grown [body] p (p.spawn body) where
  made := rfl
  older task older := by
    rw [spawn_tasks, if_neg (by omega)]
  newer task beyond := by
    rw [spawn_tasks]
    by_cases same : task = p.made
    · simp [same]
    rw [if_neg same, bounded task beyond, getElem?_eq_none]
    simp only [length_singleton]
    omega

theorem Grown.trans {first second : List (Body P)} {p p' p'' : RoomPresence R P}
    (one : Grown first p p') (two : Grown second p' p'') : Grown (first ++ second) p p'' where
  made := by rw [two.made, one.made, length_append, Nat.add_assoc]
  older task older := by
    rw [two.older task (by rw [one.made]; omega), one.older task older]
  newer task beyond := by
    by_cases early : task < p'.made
    · rw [two.older task early, one.newer task beyond, getElem?_append_left]
      have made := one.made
      omega
    · have made := one.made
      rw [two.newer task (by omega), getElem?_append_right (by omega)]
      congr 1
      omega

theorem Bounded.spawnAll {p : RoomPresence R P} (bounded : Bounded p) (bodies : List (Body P)) :
    Grown bodies p (p.spawnAll bodies) := by
  induction bodies generalizing p with
  | nil => exact bounded.grown rfl rfl
  | cons body rest ih => exact (bounded.spawn body).trans (ih (bounded.spawn body).bounded)

@[simp] theorem spawnAll_roster (p : RoomPresence R P) (bodies : List (Body P)) :
    (p.spawnAll bodies).roster = p.roster := by
  induction bodies generalizing p with
  | nil => rfl
  | cons body rest ih => exact ih (p.spawn body)

@[simp] theorem spawnAll_log (p : RoomPresence R P) (bodies : List (Body P)) :
    (p.spawnAll bodies).log = p.log := by
  induction bodies generalizing p with
  | nil => rfl
  | cons body rest ih => exact ih (p.spawn body)

/-- The rooms admitted stay, nothing is told, and no leave is spawned. -/
structure Calm (core : Roster R) (p p' : RoomPresence R P) : Prop where
  admits : ∀ room, p'.admits core room = p.admits core room
  log : p'.log = p.log
  grown : ∃ bodies, Grown bodies p p' ∧ ∀ body ∈ bodies, body.isLeave = false

theorem Calm.trans {p p' p'' : RoomPresence R P} (one : Calm core p p') (two : Calm core p' p'') :
    Calm core p p'' := by
  obtain ⟨first, grownFirst, plainFirst⟩ := one.grown
  obtain ⟨second, grownSecond, plainSecond⟩ := two.grown
  refine ⟨fun room => (two.admits room).trans (one.admits room), two.log.trans one.log,
    first ++ second, grownFirst.trans grownSecond, ?_⟩
  intro body mem
  rcases mem_append.1 mem with old | new
  · exact plainFirst body old
  · exact plainSecond body new

/-- A change to fields the effects do not read. -/
theorem Bounded.calm (bounded : Bounded p)
    (admits : ∀ room, p'.admits core room = p.admits core room) (log : p'.log = p.log)
    (made : p'.made = p.made) (tasks : p'.tasks = p.tasks) : Calm core p p' :=
  ⟨admits, log, [], bounded.grown made tasks, nofun⟩

theorem Bounded.same (bounded : Bounded p) (roster : p'.roster = p.roster)
    (log : p'.log = p.log) (made : p'.made = p.made) (tasks : p'.tasks = p.tasks) : Calm core p p' :=
  bounded.calm (fun room => by rw [admits, admits, roster]) log made tasks

theorem Bounded.refl {p : RoomPresence R P} (bounded : Bounded p) : Calm core p p :=
  bounded.same rfl rfl rfl rfl

/-- A task that is no leave is spawned, and fields the effects do not read change. -/
theorem Bounded.spawns (bounded : Bounded p) (body : Body P)
    (plain : body.isLeave = false) (roster : p'.roster = p.roster) (log : p'.log = p.log)
    (made : p'.made = p.made + 1) (tasks : p'.tasks = (p.spawn body).tasks) : Calm core p p' := by
  refine ⟨fun room => by rw [admits, admits, roster], log, [body], ⟨made, ?_, ?_⟩, by simpa using plain⟩
  · rw [tasks]
    exact (bounded.spawn body).older
  · rw [tasks]
    exact (bounded.spawn body).newer

theorem Bounded.spawnsAll {p : RoomPresence R P} (bounded : Bounded p) {bodies : List (Body P)}
    (plain : ∀ body ∈ bodies, body.isLeave = false) : Calm core p (p.spawnAll bodies) :=
  ⟨fun room => by simp [admits], by simp, bodies, bounded.spawnAll bodies, plain⟩

/-- What the code between two awaits does; it announces a room joined only where that is `due`. -/
inductive Effect (core : Roster R) (due : String → Prop) (p p' : RoomPresence R P) : Prop where
  | calm (calm : Calm core p p')
  | joins (room : String) (ticket : Nat) (isDue : due room) (before : p.admits core room = false)
      (admits : ∀ other, p'.admits core other = (decide (other = room) || p.admits core other))
      (log : p'.log = p.log ++ [.subscribed room ticket true, .joined room ticket])
      (grown : Grown [] p p')
  | drops (room : String) (ticket : Nat) (admits : ∀ other, p'.admits core other = p.admits core other)
      (log : p'.log = p.log ++ [.subscribed room ticket false, .unsubscribing room ticket])
      (grown : Grown [] p p')
  | removes (room : String) (before : p.admits core room = true)
      (admits : ∀ other, p'.admits core other = (decide (other ≠ room) && p.admits core other))
      (log : p'.log = p.log ++ [.left room]) (grown : Grown [] p p')
  | departs (rooms : List String) (distinct : rooms.Nodup)
      (before : ∀ room ∈ rooms, p.admits core room = true)
      (admits : ∀ other, p'.admits core other = (decide (other ∉ rooms) && p.admits core other))
      (log : p'.log = p.log) (grown : Grown (leaves rooms) p p')

theorem Effect.grown (effect : Effect core due p p') : ∃ bodies, Grown bodies p p' := by
  cases effect with
  | calm calm =>
    obtain ⟨bodies, grown, -⟩ := calm.grown
    exact ⟨bodies, grown⟩
  | joins _ _ _ _ _ _ grown | drops _ _ _ _ grown | removes _ _ _ _ grown
  | departs _ _ _ _ _ grown => exact ⟨_, grown⟩

/-- Fields the effects do not read may change after one. -/
theorem Effect.after {p p' p'' : RoomPresence R P} (effect : Effect core due p p')
    (roster : p''.roster = p'.roster) (log : p''.log = p'.log) (made : p''.made = p'.made)
    (tasks : p''.tasks = p'.tasks) : Effect core due p p'' := by
  have grows : ∀ bodies, Grown bodies p p' → Grown bodies p p'' := by
    intro bodies grown
    exact ⟨made.trans grown.made, by rw [tasks]; exact grown.older, by rw [tasks]; exact grown.newer⟩
  have same : ∀ room, p''.admits core room = p'.admits core room := by
    intro room
    rw [admits, admits, roster]
  cases effect with
  | calm calm =>
    obtain ⟨bodies, grown, plain⟩ := calm.grown
    exact .calm ⟨fun room => (same room).trans (calm.admits room), log.trans calm.log, bodies,
      grows _ grown, plain⟩
  | joins room ticket isDue before admits told grown =>
    exact .joins room ticket isDue before (fun other => (same other).trans (admits other))
      (log.trans told) (grows _ grown)
  | drops room ticket admits told grown =>
    exact .drops room ticket (fun other => (same other).trans (admits other)) (log.trans told)
      (grows _ grown)
  | removes room before admits told grown =>
    exact .removes room before (fun other => (same other).trans (admits other)) (log.trans told)
      (grows _ grown)
  | departs rooms distinct before admits told grown =>
    exact .departs rooms distinct before (fun other => (same other).trans (admits other))
      (log.trans told) (grows _ grown)

theorem Effect.mono {due' : String → Prop} (effect : Effect core due p p')
    (weaker : ∀ room, due room → due' room) : Effect core due' p p' := by
  cases effect with
  | calm calm => exact .calm calm
  | joins room ticket isDue before admits told grown =>
    exact .joins room ticket (weaker room isDue) before admits told grown
  | drops room ticket admits told grown => exact .drops room ticket admits told grown
  | removes room before admits told grown => exact .removes room before admits told grown
  | departs rooms distinct before admits told grown =>
    exact .departs rooms distinct before admits told grown

theorem Effect.popRetry (effect : Effect core due p p') (roomId : String) :
    Effect core due p (p'.popRetry roomId) :=
  effect.after rfl rfl rfl rfl

/-! ## Admissions -/

section Calls

variable {p p' : RoomPresence R P}

theorem recordFailed_calm (documented : Documented core) (bounded : Bounded p)
    (admission : Admission P) : Calm core p (p.recordFailed core admission) := by
  refine bounded.calm (fun room => ?_) rfl rfl rfl
  by_cases current : core.roomMembership p.roster admission.roomId = .admitting admission.ticket
  · have recorded := (documented.record_current false current).2
    by_cases same : room = admission.roomId
    · subst same
      simp [admits, recordFailed, recorded, current]
    · simp [admits, recordFailed, recorded, same]
  · simp [admits, recordFailed, (documented.record_stale false current).2]

theorem beginAdmission_calm (documented : Documented core) (bounded : Bounded p) (roomId : String)
    (payload : P) : Calm core p (p.beginAdmission core roomId payload).1 := by
  refine bounded.calm (fun room => ?_) rfl rfl rfl
  rcases begun : core.beginRoomAdmission p.roster roomId with ⟨_ | ticket, roster⟩
  · simp [admits, beginAdmission, begun, documented.begin_none begun]
  obtain ⟨free, claimed⟩ := documented.begin_some begun
  by_cases same : room = roomId
  · subst same
    simp [admits, beginAdmission, begun, claimed, free]
  · simp [admits, beginAdmission, begun, claimed, same]

theorem retryJoinLater_calm (bounded : Bounded p) (roomId : String) (payload : P) :
    Calm core p (p.retryJoinLater roomId payload) := by
  simp only [retryJoinLater]
  split
  · exact bounded.spawns (.retry roomId payload joinRetryDelays .fresh) rfl rfl rfl rfl rfl
  · exact bounded.refl

theorem Calm.bounded (calm : Calm core p p') : Bounded p' := by
  obtain ⟨bodies, grown, -⟩ := calm.grown
  exact grown.bounded

theorem popRetry_calm (bounded : Bounded p) (roomId : String) : Calm core p (p.popRetry roomId) :=
  bounded.same rfl rfl rfl rfl

/-- A subscribe that took and whose ticket is current. -/
def AdmitsRoom (core : Roster R) (p : RoomPresence R P) (admission : Admission P)
    (phase : AdmissionPhase) (input : Input P) (room : String) : Prop :=
  phase = .subscribing ∧ input = .subscribed true ∧ admission.roomId = room ∧
    (core.recordRoomAdmission p.roster admission.roomId admission.ticket true).1 = true

variable {input : Input P} {admission : Admission P}

/-- A subscribe that took: the roster's answer decides between the callback and the unsubscribe. -/
theorem subscribed_effect (documented : Documented core) (bounded : Bounded p) {progress : Progress}
    (ran : p.completeRoomAdmission core admission .subscribing (.subscribed true) = some (p', progress)) :
    Effect core (p.AdmitsRoom core admission .subscribing (.subscribed true)) p p' := by
  by_cases current : core.roomMembership p.roster admission.roomId = .admitting admission.ticket
  · obtain ⟨taken, recorded⟩ := documented.record_current true current
    rcases answered : core.recordRoomAdmission p.roster admission.roomId admission.ticket true with
      ⟨answer, roster⟩
    rw [answered] at taken recorded
    simp only at taken recorded
    subst taken
    simp only [completeRoomAdmission, answered, if_true, some.injEq, Prod.mk.injEq] at ran
    obtain ⟨rfl, -⟩ := ran
    refine .joins admission.roomId admission.ticket ⟨rfl, rfl, rfl, by rw [answered]⟩ ?_
      (fun other => ?_) (by simp [note]) (bounded.grown rfl rfl)
    · simp [admits, current]
    by_cases same : other = admission.roomId
    · simp [admits, note, recorded, same]
    · simp [admits, note, recorded, same]
  · obtain ⟨refused, recorded⟩ := documented.record_stale true current
    rcases answered : core.recordRoomAdmission p.roster admission.roomId admission.ticket true with
      ⟨answer, roster⟩
    rw [answered] at refused recorded
    simp only at refused recorded
    subst refused
    simp only [completeRoomAdmission, answered, Bool.false_eq_true, if_false, some.injEq, Prod.mk.injEq] at ran
    obtain ⟨rfl, -⟩ := ran
    refine .drops admission.roomId admission.ticket (fun other => ?_) (by simp [note])
      (bounded.grown rfl rfl)
    simp [admits, note, recorded]

theorem completeRoomAdmission_effect (documented : Documented core) (bounded : Bounded p)
    {phase : AdmissionPhase} {progress : Progress}
    (ran : p.completeRoomAdmission core admission phase input = some (p', progress)) :
    Effect core (p.AdmitsRoom core admission phase input) p p' := by
  have failed := recordFailed_calm documented bounded admission
  have retried : Calm core p ((p.recordFailed core admission).retryJoinLater admission.roomId
      admission.payload) :=
    failed.trans (retryJoinLater_calm failed.bounded _ _)
  match phase, input with
  | .subscribing, .subscribed true => exact subscribed_effect documented bounded ran
  | .subscribing, .subscribed false | .subscribing, .raised =>
    cases ran
    exact .calm retried
  | .undoing, .returned | .undoing, .raised | .undoing, .cancelled =>
    cases ran
    exact .calm failed
  | .fresh, .returned | .fresh, .cancelled | .subscribing, .cancelled
  | .dropping, .returned | .dropping, .raised | .dropping, .cancelled
  | .announcing, .returned | .announcing, .raised | .announcing, .cancelled =>
    cases ran
    exact .calm bounded.refl

/-! ## The handlers -/

/-- The room a resumption announces as joined: its subscribe took, and the roster admits it. -/
def joinsRoom (core : Roster R) (p : RoomPresence R P) (body : Body P) (input : Input P) : Option String :=
  match body.admission, input with
  | some (admission, .subscribing), .subscribed true =>
    if (core.recordRoomAdmission p.roster admission.roomId admission.ticket true).1 then
      some admission.roomId
    else none
  | _, _ => none

theorem joinsRoom_of (p : RoomPresence R P) (body : Body P) {phase : AdmissionPhase} {room : String}
    (admits : body.admission = some (admission, phase))
    (admitted : p.AdmitsRoom core admission phase input room) :
    p.joinsRoom core body input = some room := by
  obtain ⟨rfl, rfl, rfl, taken⟩ := admitted
  simp [joinsRoom, admits, taken]

theorem retryJoin_effect (documented : Documented core) (bounded : Bounded p) {roomId : String}
    {payload : P} {delays : Nat} {phase : RetryPhase P} {next : Option (Body P)}
    (ran : p.retryJoin core roomId payload delays phase input = some (p', next)) :
    Effect core (p.joinsRoom core (.retry roomId payload delays phase) input = some ·) p p' ∧ ∀ body ∈ next, body.isLeave = false := by
  match phase, input with
  | .fresh, .returned =>
    cases ran
    exact ⟨.calm bounded.refl, by simp [Body.isLeave]⟩
  | .fresh, .cancelled =>
    cases ran
    exact ⟨.calm bounded.refl, nofun⟩
  | .sleeping, .returned =>
    have begun := beginAdmission_calm documented bounded roomId payload
    simp only [retryJoin] at ran
    split at ran
    · next p₁ claimed =>
        rw [claimed] at begun
        cases ran
        exact ⟨.calm (begun.trans (popRetry_calm begun.bounded roomId)), nofun⟩
    · next p₁ admission claimed =>
        rw [claimed] at begun
        cases ran
        exact ⟨.calm begun, by simp [Body.isLeave]⟩
  | .sleeping, .cancelled =>
    cases ran
    exact ⟨.calm (popRetry_calm bounded roomId), nofun⟩
  | .admitting admission phase, input =>
    obtain ⟨⟨p₁, progress⟩, completed, after⟩ := map_eq_some_iff.1 ran
    have effect := (completeRoomAdmission_effect documented bounded completed).mono
      fun _ => p.joinsRoom_of (.retry roomId payload delays (.admitting admission phase)) rfl
    cases progress with
    | awaits phase =>
      obtain ⟨rfl, rfl⟩ := Prod.mk.inj after
      exact ⟨effect, by simp [Body.isLeave]⟩
    | unwound =>
      obtain ⟨rfl, rfl⟩ := Prod.mk.inj after
      exact ⟨effect.popRetry roomId, nofun⟩
    | ended joined =>
      cases joined with
      | true =>
        obtain ⟨rfl, rfl⟩ := Prod.mk.inj after
        exact ⟨effect.popRetry roomId, nofun⟩
      | false =>
        simp only at after
        split at after
        · obtain ⟨rfl, rfl⟩ := Prod.mk.inj after
          exact ⟨effect.popRetry roomId, nofun⟩
        · obtain ⟨rfl, rfl⟩ := Prod.mk.inj after
          exact ⟨effect, by simp [Body.isLeave]⟩

theorem admitReconciledRooms_calm (bounded : Bounded p) (admitting : List (Admission P))
    (resync : List String) : Calm core p (p.admitReconciledRooms admitting resync).1 := by
  simp only [admitReconciledRooms]
  split
  · exact bounded.refl
  refine bounded.spawnsAll fun body mem => ?_
  obtain ⟨admission, -, rfl⟩ := mem_map.1 mem
  rfl

/-- Rooms go out of the roster and each gets a leave of its own. -/
theorem departs_of {roster : R} (bounded : Bounded p) {rooms : List String} (distinct : rooms.Nodup)
    (before : ∀ room ∈ rooms, p.admits core room = true)
    (admits : ∀ other, ({ p with roster := roster } : RoomPresence R P).admits core other =
      (decide (other ∉ rooms) && p.admits core other)) :
    Effect core due p (({ p with roster := roster } : RoomPresence R P).spawnAll (leaves rooms)) := by
  have bounded' : Bounded ({ p with roster := roster } : RoomPresence R P) := bounded
  have grown := bounded'.spawnAll (leaves rooms)
  refine .departs rooms distinct before (fun other => ?_) (by simp) ⟨grown.made, grown.older, grown.newer⟩
  rw [← admits, RoomPresence.admits, RoomPresence.admits, spawnAll_roster]

section

variable (documented : Documented core) (bounded : Bounded p)
include documented bounded

theorem reconcile_effect (listing : List (String × P)) :
    Effect core due p (p.reconcile core config listing).1 := by
  obtain ⟨distinct, gone, stays⟩ := documented.reconcile p.roster
    (p.reconcileTargetRoomIds core config (existingRooms config listing))
  rcases answered : core.reconcile p.roster
    (p.reconcileTargetRoomIds core config (existingRooms config listing)) with ⟨reconciliation, roster⟩
  rw [answered] at distinct gone stays
  simp only at distinct gone stays
  have admits : ∀ other, ({ p with roster := roster } : RoomPresence R P).admits core other =
      (decide (other ∉ reconciliation.removed) && p.admits core other) := by
    intro other
    have here := gone other
    have there := stays other
    by_cases admitted : core.roomMembership p.roster other = .admitted
    · by_cases target : other ∈ p.reconcileTargetRoomIds core config (existingRooms config listing)
      · simp [admits, here, there, admitted, target]
      · simp [admits, here, there, admitted, target]
    · simp [admits, here, there, admitted]
  simp only [reconcile, answered, leaveRemovedRooms]
  split
  · next empty =>
      have bounded' : Bounded ({ p with roster := roster } : RoomPresence R P) := bounded
      have removed : Calm core p ({ p with roster := roster } : RoomPresence R P) := by
        refine bounded.calm (fun other => ?_) rfl rfl rfl
        rw [admits, isEmpty_iff.1 empty]
        simp
      exact .calm (removed.trans (admitReconciledRooms_calm bounded' _ _))
  · refine departs_of bounded distinct (fun room mem => ?_) admits
    simpa [RoomPresence.admits] using ((gone room).1 mem).1

theorem handleRoomAdded_calm (roomId : String)
    (payload : Option P) : Calm core p (p.handleRoomAdded core config roomId payload).1 := by
  cases payload with
  | none => exact bounded.refl
  | some payload =>
    have begun := beginAdmission_calm documented bounded roomId payload
    simp only [handleRoomAdded]
    split
    · exact bounded.refl
    split
    · next p₁ claimed =>
        rw [claimed] at begun
        exact begun
    · next p₁ admission claimed =>
        rw [claimed] at begun
        exact begun

theorem onPlatformEvent_calm (event : PlatformEvent P) :
    Calm core p (p.onPlatformEvent core config event).1 := by
  cases event with
  | roomAdded roomId payload => exact handleRoomAdded_calm documented bounded roomId payload
  | roomLeft roomId | reconnected => exact bounded.refl
  | other roomId => cases roomId <;> exact bounded.refl

theorem roomRemoved_effect (roomId : String) : Effect core due p (p.roomRemoved core roomId).1 := by
  obtain ⟨answer, out, others⟩ := documented.removed p.roster roomId
  rcases answered : core.recordRoomRemoved p.roster roomId with ⟨removed, roster⟩
  rw [answered] at answer out others
  simp only at answer out others
  have admits : ∀ other, ({ p with roster := roster } : RoomPresence R P).admits core other =
      (decide (other ≠ roomId) && p.admits core other) := by
    intro other
    by_cases same : other = roomId
    · subst same
      simp [admits, out]
    · simp [admits, others other same, same]
  simp only [roomRemoved, answered]
  split
  · next taken =>
      rw [taken] at answer
      exact .removes roomId answer.symm admits rfl (bounded.grown rfl rfl)
  · next untracked =>
      refine .calm (bounded.calm (fun other => ?_) rfl rfl rfl)
      rw [admits]
      by_cases same : other = roomId
      · subst same
        simpa [RoomPresence.admits, untracked] using answer
      · simp [same]

theorem consumeEvents_effect {phase : ConsumePhase P} {next : Option (ConsumePhase P)}
    (ran : p.consumeEvents core config phase input = some (p', next)) :
    Effect core (p.joinsRoom core (.consume phase) input = some ·) p p' := by
  match phase, input with
  | .waiting, .event event =>
    cases ran
    exact .calm (onPlatformEvent_calm documented bounded event)
  | .adding admission phase, input =>
    obtain ⟨⟨p₁, progress⟩, completed, after⟩ := map_eq_some_iff.1 ran
    have effect := (completeRoomAdmission_effect documented bounded completed).mono
      fun _ => p.joinsRoom_of (.consume (.adding admission phase)) rfl
    cases progress <;> obtain ⟨rfl, -⟩ := Prod.mk.inj after <;> exact effect
  | .unsubscribing roomId, .returned =>
    cases ran
    exact roomRemoved_effect documented bounded roomId
  | .listing, .rooms listing =>
    cases ran
    exact reconcile_effect documented bounded listing
  | .leaving children admitting resync, .returned =>
    obtain ⟨-, ⟨⟩⟩ := of_passed ran
    exact .calm (admitReconciledRooms_calm bounded admitting resync)
  | .cancelling roomId tasks, .returned =>
    obtain ⟨-, ⟨⟩⟩ := of_passed ran
    exact .calm bounded.refl
  | .admitting children resync, .returned =>
    obtain ⟨-, ⟨⟩⟩ := of_passed ran
    exact .calm bounded.refl
  | .waiting, .raised | .waiting, .cancelled | .cancelling .., .cancelled | .unsubscribing _, .raised
  | .unsubscribing _, .cancelled | .announcingLeft, .returned | .announcingLeft, .raised
  | .announcingLeft, .cancelled | .listing, .raised | .listing, .cancelled | .leaving .., .cancelled
  | .admitting .., .cancelled | .resyncing _, .returned | .resyncing _, .raised
  | .resyncing _, .cancelled | .reconnected _, .returned | .reconnected _, .raised
  | .reconnected _, .cancelled | .notifying, .returned | .notifying, .raised
  | .notifying, .cancelled =>
    cases ran
    exact .calm bounded.refl

/-! ## `start()` and `stop()` -/

omit documented in
theorem started_calm : Calm core p p.started :=
  bounded.spawns (.consume .waiting) rfl rfl rfl rfl rfl

omit documented in
theorem start_effect {phase : StartPhase} {next : Option StartPhase}
    (ran : p.start core config phase input = some (p', next)) :
    Effect core due p p' := by
  match phase, input with
  | .locking, .returned =>
    obtain ⟨-, ⟨⟩⟩ := of_barred ran
    exact .calm (bounded.same rfl rfl rfl rfl)
  | .subscribing, .returned =>
    simp only [start] at ran
    split at ran
    · cases ran
      exact .calm bounded.refl
    · cases ran
      exact .calm (started_calm bounded)
  | .listing, .rooms listing =>
    simp only [start, subscribeRooms] at ran
    split at ran
    · cases ran
      exact .calm (started_calm bounded)
    · cases ran
      refine .calm (bounded.spawnsAll fun body mem => ?_)
      obtain ⟨room, -, rfl⟩ := mem_map.1 mem
      rfl
  | .joining children, .returned =>
    obtain ⟨-, ⟨⟩⟩ := of_passed ran
    exact .calm (started_calm bounded)
  | .listing, .raised =>
    cases ran
    exact .calm (started_calm bounded)
  | .locking, .cancelled | .connecting, .returned | .connecting, .raised | .connecting, .cancelled
  | .subscribing, .raised | .subscribing, .cancelled | .listing, .cancelled
  | .joining _, .cancelled =>
    cases ran
    exact .calm (bounded.same rfl rfl rfl rfl)

theorem leaveAll_effect : Effect core due p (p.leaveAll core).1 := by
  obtain ⟨distinct, tracked⟩ := documented.tracked p.roster
  have admits : ∀ other, ({ p with roster := core.clear p.roster } : RoomPresence R P).admits core
      other = (decide (other ∉ core.trackedRoomIds p.roster) && p.admits core other) := by
    intro other
    have here := tracked other
    have there := documented.clear p.roster other
    by_cases admitted : core.roomMembership p.roster other = .admitted
    · simp [admits, here, there, admitted]
    · simp [admits, there, admitted]
  simp only [leaveAll]
  split
  · next empty =>
      refine .calm (bounded.calm (fun other => ?_) rfl rfl rfl)
      have cleared := admits other
      rw [isEmpty_iff.1 empty] at cleared
      exact cleared.trans (by simp)
  · refine departs_of bounded distinct (fun room mem => ?_) admits
    simpa [RoomPresence.admits] using (tracked room).1 mem

theorem stop_effect {phase : StopPhase} {next : Option StopPhase}
    (ran : p.stop core phase input = some (p', next)) : Effect core due p p' := by
  match phase, input with
  | .retries tasks, .returned =>
    obtain ⟨-, ran⟩ := of_passed ran
    have ended := (Prod.ext_iff.1 (some.inj ran)).1
    simp only at ended
    subst ended
    exact leaveAll_effect documented bounded
  | .locking, .returned =>
    obtain ⟨-, ran⟩ := of_barred ran
    split at ran
    · cases ran
      exact .calm (bounded.same rfl rfl rfl rfl)
    · split at ran
      · cases ran
        exact .calm (bounded.same rfl rfl rfl rfl)
      · cases ran
        exact .calm (bounded.same rfl rfl rfl rfl)
  | .consumer task, .returned =>
    obtain ⟨-, ⟨⟩⟩ := of_passed ran
    exact .calm (bounded.same rfl rfl rfl rfl)
  | .leaving children, .returned =>
    obtain ⟨-, ⟨⟩⟩ := of_passed ran
    exact .calm (bounded.same rfl rfl rfl rfl)
  | .locking, .cancelled | .consumer _, .cancelled | .retries _, .cancelled
  | .leaving _, .cancelled =>
    cases ran
    exact .calm (bounded.same rfl rfl rfl rfl)

/-- A task that is no leave stays none. -/
theorem resume_effect {body : Body P} {next : Option (Body P)} (plain : body.isLeave = false)
    (ran : p.resume core config body input = some (p', next)) :
    Effect core (p.joinsRoom core body input = some ·) p p' ∧ ∀ body ∈ next, body.isLeave = false := by
  cases body with
  | start phase =>
    obtain ⟨⟨p₁, phase'⟩, started, after⟩ := map_eq_some_iff.1 ran
    obtain ⟨rfl, rfl⟩ := Prod.mk.inj after
    refine ⟨start_effect bounded started, fun body mem => ?_⟩
    obtain ⟨phase, -, rfl⟩ := map_eq_some_iff.1 mem
    rfl
  | consume phase =>
    obtain ⟨⟨p₁, phase'⟩, consumed, after⟩ := map_eq_some_iff.1 ran
    obtain ⟨rfl, rfl⟩ := Prod.mk.inj after
    refine ⟨consumeEvents_effect documented bounded consumed, fun body mem => ?_⟩
    obtain ⟨phase, -, rfl⟩ := map_eq_some_iff.1 mem
    rfl
  | retry roomId payload delays phase => exact retryJoin_effect documented bounded ran
  | join roomId payload =>
    match input with
    | .returned =>
      cases ran
      refine ⟨.calm (beginAdmission_calm documented bounded roomId payload), fun body mem => ?_⟩
      obtain ⟨admission, -, rfl⟩ := map_eq_some_iff.1 mem
      rfl
    | .cancelled =>
      cases ran
      exact ⟨.calm bounded.refl, nofun⟩
  | completing admission phase =>
    obtain ⟨⟨p₁, progress⟩, completed, after⟩ := map_eq_some_iff.1 ran
    have effect := (completeRoomAdmission_effect documented bounded completed).mono
      fun _ => p.joinsRoom_of (.completing admission phase) rfl
    cases progress <;> obtain ⟨rfl, rfl⟩ := Prod.mk.inj after
    · exact ⟨effect, by simp [Body.isLeave]⟩
    · exact ⟨effect, nofun⟩
    · exact ⟨effect, nofun⟩
  | leave roomId phase => cases plain
  | stop phase =>
    obtain ⟨⟨p₁, phase'⟩, stopped, after⟩ := map_eq_some_iff.1 ran
    obtain ⟨rfl, rfl⟩ := Prod.mk.inj after
    refine ⟨stop_effect documented bounded stopped, fun body mem => ?_⟩
    obtain ⟨phase, -, rfl⟩ := map_eq_some_iff.1 mem
    rfl

end

end Calls

end RoomPresence

end BandSdk.Presence

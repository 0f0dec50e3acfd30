/-
# Presence.Announcements -- joins and leaves take turns

A room was last announced as joined exactly while the roster admits it or one of
its leaves has still to invoke `on_room_left` (`Announced`).  Two kinds of step
break that, and `keepsTurns` rules them out: a leave cancelled before its
callback, and a room admitted again while its leave is pending.
-/
import BandSdk.Presence.Effects
import Mathlib.Data.List.Dedup

namespace BandSdk.Presence

open BandSdk.Theory List Function RoomPresence

/-! ## What was announced -/

/-- `true` for a call of `on_room_joined` with `room`, `false` for one of `on_room_left`. -/
def Note.announces (room : String) : Note → Option Bool
  | .joined roomId _ => if roomId = room then some true else none
  | .left roomId => if roomId = room then some false else none
  | _ => none

def announcements (room : String) (log : List Note) : List Bool := log.filterMap (Note.announces room)

/-- The calls take turns, beginning with a join. -/
def Alternates (calls : List Bool) : Prop :=
  ∀ i call, calls[i]? = some call → (call = true ↔ i % 2 = 0)

theorem Alternates.snoc {calls : List Bool} {call : Bool} (alternates : Alternates calls)
    (turn : call = true ↔ calls.length % 2 = 0) : Alternates (calls ++ [call]) := by
  intro i next found
  by_cases old : i < calls.length
  · rw [getElem?_append_left old] at found
    exact alternates i next found
  · rw [getElem?_append_right (by omega)] at found
    have last : i = calls.length := by
      by_contra beyond
      rw [getElem?_eq_none] at found
      · cases found
      · simp only [length_singleton]
        omega
    subst last
    have same : call = next := by simpa using found
    rw [← same]
    exact turn

section Runs

variable {R P : Type} {core : Roster R} {config : Config P} {due : String → Prop}
  {p p' : RoomPresence R P}

/-- A leave of `room` that has not invoked its callback. -/
def Pending (p : RoomPresence R P) (room : String) (task : Nat) : Prop :=
  ∃ phase, p.tasks task = some (.leave room phase) ∧ phase ≠ .announcing

structure Announced (core : Roster R) (p : RoomPresence R P) : Prop where
  bounded : p.Bounded
  alternates : ∀ room, Alternates (announcements room p.log)
  present : ∀ room, (announcements room p.log).length % 2 = 1 ↔
    p.admits core room = true ∨ ∃ task, Pending p room task
  apart : ∀ room task, Pending p room task → p.admits core room = false
  single : ∀ room task task', Pending p room task → Pending p room task' → task = task'

variable {room : String} {task : Nat} {next : Option (Body P)} {input : Input P} {phase : LeavePhase}
    {body : Body P}

theorem Pending.older (bounded : p.Bounded) (pending : Pending p room task) : task < p.made := by
  obtain ⟨phase, leaving, -⟩ := pending
  by_contra beyond
  rw [bounded task (by omega)] at leaving
  cases leaving

/-- The tasks spawned that are no leaves leave the pending ones as they are. -/
theorem pending_plain {bodies : List (Body P)} (bounded : p.Bounded)
    (grown : RoomPresence.Grown bodies p p') (plain : ∀ body ∈ bodies, body.isLeave = false)
    (room : String) (task : Nat) : Pending p' room task ↔ Pending p room task := by
  by_cases older : task < p.made
  · simp only [Pending, grown.older task older]
  constructor
  · rintro ⟨phase, leaving, -⟩
    rw [grown.newer task (by omega)] at leaving
    have isPlain := plain _ (mem_of_getElem? leaving)
    cases isPlain
  · intro pending
    exact absurd (pending.older bounded) older

theorem pending_leaves {rooms : List String} (bounded : p.Bounded)
    (grown : RoomPresence.Grown (RoomPresence.leaves rooms) p p') (room : String) (task : Nat) :
    Pending p' room task ↔ Pending p room task ∨ p.made ≤ task ∧ rooms[task - p.made]? = some room := by
  by_cases older : task < p.made
  · have notNewer : ¬ p.made ≤ task := by omega
    simp only [Pending, grown.older task older, notNewer, false_and, or_false]
  · have newer : p.made ≤ task := by omega
    have notBefore : ¬ Pending p room task := fun pending => older (pending.older bounded)
    simp only [notBefore, newer, false_or, true_and]
    constructor
    · rintro ⟨phase, leaving, -⟩
      rw [grown.newer task newer, leaves, getElem?_map, Option.map_eq_some_iff] at leaving
      obtain ⟨other, found, same⟩ := leaving
      cases same
      exact found
    · intro found
      refine ⟨.fresh, ?_, nofun⟩
      rw [grown.newer task newer, leaves, getElem?_map, found]
      rfl

/-- Nothing the account reads has changed. -/
theorem Announced.same (announced : Announced core p) (bounded : p'.Bounded)
    (admits : ∀ room, p'.admits core room = p.admits core room)
    (told : ∀ room, announcements room p'.log = announcements room p.log)
    (pending : ∀ room task, Pending p' room task ↔ Pending p room task) : Announced core p' where
  bounded := bounded
  alternates room := by
    rw [told]
    exact announced.alternates room
  present room := by
    rw [told, admits]
    simp only [pending]
    exact announced.present room
  apart room task leaving := by
    rw [admits]
    exact announced.apart room task ((pending room task).1 leaving)
  single room task task' first second :=
    announced.single room task task' ((pending room task).1 first) ((pending room task').1 second)

theorem announcements_append (room : String) (log more : List Note) :
    announcements room (log ++ more) = announcements room log ++ announcements room more :=
  filterMap_append

/-- A callback in its turn: after it, `room` is admitted exactly if it was a join, and no leave of it
is pending. -/
theorem Announced.tells (announced : Announced core p) (bounded : p'.Bounded) {call : Bool}
    (told : ∀ other, announcements other p'.log =
      announcements other p.log ++ if room = other then [call] else [])
    (turn : call = true ↔ ¬ (p.admits core room = true ∨ ∃ task, Pending p room task))
    (here : p'.admits core room = call ∧ ∀ task, ¬ Pending p' room task)
    (admits : ∀ other, other ≠ room → p'.admits core other = p.admits core other)
    (pending : ∀ other task, other ≠ room → (Pending p' other task ↔ Pending p other task)) :
    Announced core p' where
  bounded := bounded
  alternates other := by
    rw [told]
    split
    · next same =>
        subst same
        refine (announced.alternates room).snoc ?_
        rw [turn, ← announced.present room]
        omega
    · rw [append_nil]
      exact announced.alternates other
  present other := by
    rw [told]
    by_cases same : room = other
    · subst same
      have before := announced.present room
      simp only [if_true, length_append, length_singleton, here.1, here.2, exists_false, or_false]
      rw [turn, ← before]
      omega
    · have apart : other ≠ room := fun equal => same equal.symm
      simp only [same, if_false, append_nil, admits other apart, pending other _ apart]
      exact announced.present other
  apart other task leaving := by
    by_cases same : other = room
    · subst same
      exact absurd leaving (here.2 task)
    · rw [admits other same]
      exact announced.apart other task ((pending other task same).1 leaving)
  single other task task' first second := by
    by_cases same : other = room
    · subst same
      exact absurd first (here.2 task)
    · exact announced.single other task task' ((pending other task same).1 first)
        ((pending other task' same).1 second)

theorem told_joined {ticket : Nat} {log log' : List Note}
    (grew : log' = log ++ [.subscribed room ticket true, .joined room ticket]) (other : String) :
    announcements other log' = announcements other log ++ if room = other then [true] else [] := by
  rw [grew, announcements_append]
  by_cases same : room = other <;> simp [announcements, Note.announces, filterMap_cons, same]

theorem told_left {log log' : List Note} (grew : log' = log ++ [.left room]) (other : String) :
    announcements other log' = announcements other log ++ if room = other then [false] else [] := by
  rw [grew, announcements_append]
  by_cases same : room = other <;> simp [announcements, Note.announces, same]

theorem Announced.departs (announced : Announced core p) {rooms : List String}
    (distinct : rooms.Nodup) (before : ∀ room ∈ rooms, p.admits core room = true)
    (admits : ∀ other, p'.admits core other = (decide (other ∉ rooms) && p.admits core other))
    (log : p'.log = p.log) (grown : RoomPresence.Grown (RoomPresence.leaves rooms) p p') :
    Announced core p' := by
  have pending := pending_leaves announced.bounded grown
  have idle : ∀ room ∈ rooms, ∀ task, ¬ Pending p room task := by
    intro room mem task leaving
    have out := announced.apart room task leaving
    rw [before room mem] at out
    cases out
  constructor
  · exact grown.bounded
  · intro room
    rw [log]
    exact announced.alternates room
  · intro room
    rw [log, announced.present room, admits]
    by_cases gone : room ∈ rooms
    · obtain ⟨i, found⟩ := mem_iff_getElem?.1 gone
      have leaving : Pending p' room (p.made + i) := by
        rw [pending]
        exact .inr ⟨by omega, by rwa [Nat.add_sub_cancel_left]⟩
      exact iff_of_true (.inl (before room gone)) (.inr ⟨_, leaving⟩)
    · have none_ : ∀ task, rooms[task]? ≠ some room := fun task found =>
        gone (mem_of_getElem? found)
      simp only [gone, not_false_eq_true, decide_true, Bool.true_and, pending, none_, and_false, or_false]
  · intro room task leaving
    rw [admits]
    rcases (pending room task).1 leaving with old | ⟨-, found⟩
    · rw [announced.apart room task old, Bool.and_false]
    · simp [mem_of_getElem? found]
  · intro room task task' first second
    rcases (pending room task).1 first with old | ⟨newer, found⟩
    · rcases (pending room task').1 second with old' | ⟨-, found'⟩
      · exact announced.single room task task' old old'
      · exact absurd old (idle room (mem_of_getElem? found') task)
    · rcases (pending room task').1 second with old' | ⟨newer', found'⟩
      · exact absurd old' (idle room (mem_of_getElem? found) task')
      have bound : task - p.made < rooms.length := by
        by_contra beyond
        rw [getElem?_eq_none (by omega)] at found
        cases found
      have same := (getElem?_inj bound distinct).1 (found.trans found'.symm)
      omega

theorem Announced.effect (announced : Announced core p) (effect : p.Effect core due p')
    (free : ∀ room, due room → ∀ task, ¬ Pending p room task) : Announced core p' := by
  cases effect with
  | calm calm =>
    obtain ⟨bodies, grown, plain⟩ := calm.grown
    exact announced.same grown.bounded calm.admits (fun room => by rw [calm.log])
      (pending_plain announced.bounded grown plain)
  | joins room ticket isDue before admits log grown =>
    have pending := pending_plain announced.bounded grown nofun
    have idle := free room isDue
    refine announced.tells grown.bounded (told_joined log) ?_ ⟨?_, ?_⟩ ?_ ?_
    · simp [before, idle]
    · simp [admits]
    · exact fun task leaving => idle task ((pending room task).1 leaving)
    · intro other apart
      simp [admits, apart]
    · exact fun other task _ => pending other task
  | drops room ticket admits log grown =>
    refine announced.same grown.bounded admits (fun other => ?_)
      (pending_plain announced.bounded grown nofun)
    rw [log, announcements_append]
    simp [announcements, Note.announces, filterMap_cons]
  | removes room before admits log grown =>
    have pending := pending_plain announced.bounded grown nofun
    refine announced.tells grown.bounded (told_left log) ?_ ⟨?_, ?_⟩ ?_ ?_
    · simp [before]
    · simp [admits]
    · intro task leaving
      have out := announced.apart room task ((pending room task).1 leaving)
      rw [before] at out
      cases out
    · intro other apart
      simp [admits, apart]
    · exact fun other task _ => pending other task
  | departs rooms distinct before admits log grown =>
    exact announced.departs distinct before admits log grown

/-! ## Steps -/

theorem RoomPresence.Bounded.setTask (bounded : p.Bounded)
    (below : task < p.made) : (p.setTask task next).Bounded := by
  intro other beyond
  have beyond : p.made ≤ other := beyond
  simp only [RoomPresence.setTask, update_of_ne (show other ≠ task by omega)]
  exact bounded other beyond

/-- A task's own body is replaced, and neither the old nor the new one is a pending leave. -/
theorem Announced.setTask (announced : Announced core p) (below : task < p.made)
    (before : ∀ room, ¬ Pending p room task)
    (after : ∀ room phase, next = some (.leave room phase) → phase = .announcing) :
    Announced core (p.setTask task next) := by
  refine announced.same (announced.bounded.setTask below) (fun _ => rfl) (fun _ => rfl) ?_
  · intro room other
    by_cases same : other = task
    · subst same
      refine iff_of_false ?_ (before room)
      rintro ⟨phase, leaving, open_⟩
      simp only [RoomPresence.setTask, update_self] at leaving
      exact open_ (after room phase leaving)
    · simp only [Pending, RoomPresence.setTask, update_of_ne same]

theorem Announced.below (announced : Announced core p) (running : p.tasks task = some body) :
    task < p.made := by
  by_contra beyond
  rw [announced.bounded task (by omega)] at running
  cases running

theorem not_pending_plain (running : p.tasks task = some body)
    (plain : body.isLeave = false) (room : String) : ¬ Pending p room task := by
  rintro ⟨phase, leaving, -⟩
  rw [running] at leaving
  cases leaving
  cases plain

theorem Announced.leaveDone (announced : Announced core p) (leaving : Pending p room task) :
    Announced core ((p.note (.left room)).setTask task (some (.leave room .announcing))) := by
  have below := leaving.older announced.bounded
  have others : ∀ other task', other ≠ room →
      (Pending ((p.note (.left room)).setTask task (some (.leave room .announcing))) other task' ↔
        Pending p other task') := by
    intro other task' apart
    by_cases same : task' = task
    · subst same
      refine iff_of_false ?_ ?_
      · rintro ⟨phase, found, -⟩
        simp only [RoomPresence.setTask, update_self] at found
        cases found
        exact apart rfl
      · rintro ⟨phase, found, -⟩
        obtain ⟨phase', found', -⟩ := leaving
        rw [found] at found'
        cases found'
        exact apart rfl
    · simp only [Pending, RoomPresence.setTask, RoomPresence.note, update_of_ne same]
  have bounded : (p.note (.left room)).Bounded := announced.bounded
  refine announced.tells (bounded.setTask below) (told_left rfl) ?_ ⟨?_, ?_⟩ (fun _ _ => rfl) others
  · exact iff_of_false (by simp) (fun idle => idle (.inr ⟨task, leaving⟩))
  · exact announced.apart room task leaving
  rintro task' ⟨phase, found, open_⟩
  rcases update_cases found with ⟨rfl, ⟨⟩⟩ | ⟨same, found⟩
  · exact open_ rfl
  · exact same (announced.single room task' task ⟨phase, found, open_⟩ leaving)

/-- A leave of `room` has not invoked `on_room_left` yet. -/
def leavePending (p : RoomPresence R P) (room : String) : Bool :=
  (List.range p.made).any fun task =>
    match p.tasks task with
    | some (.leave roomId .fresh) | some (.leave roomId .unsubscribing) => roomId = room
    | _ => false

/-- The step neither cancels a leave before its callback nor admits a room whose leave is pending. -/
def keepsTurns (core : Roster R) (p : RoomPresence R P) : Event P → Bool
  | .resume task input =>
    match p.tasks task, input with
    | some (.leave _ .fresh), .cancelled | some (.leave _ .unsubscribing), .cancelled => false
    | some body, input => (p.joinsRoom core body input).all fun room => !leavePending p room
    | none, _ => true
  | _ => true

theorem leavePending_of (bounded : p.Bounded) (leaving : Pending p room task) : leavePending p room = true := by
  have below := leaving.older bounded
  obtain ⟨phase, found, open_⟩ := leaving
  rw [leavePending, any_eq_true]
  refine ⟨task, mem_range.2 below, ?_⟩
  rw [found]
  cases phase with
  | fresh | unsubscribing => simp
  | announcing => exact absurd rfl open_

theorem keepsTurns_plain (running : p.tasks task = some body) (plain : body.isLeave = false) :
    keepsTurns core p (.resume task input) =
      (p.joinsRoom core body input).all fun room => !leavePending p room := by
  cases body with
  | leave room phase => cases plain
  | _ => simp [keepsTurns, running]

/-- A leave runs for the first time and is still pending. -/
theorem Announced.leaveRuns (announced : Announced core p)
    (running : p.tasks task = some (.leave room .fresh)) :
    Announced core (p.setTask task (some (.leave room .unsubscribing))) := by
  have below := announced.below running
  refine announced.same (announced.bounded.setTask below) (fun _ => rfl) (fun _ => rfl) ?_
  · intro other task'
    by_cases same : task' = task
    · subst same
      constructor
      · rintro ⟨phase, found, open_⟩
        simp only [RoomPresence.setTask, update_self] at found
        cases found
        exact ⟨.fresh, running, by simp⟩
      · rintro ⟨phase, found, -⟩
        rw [running] at found
        cases found
        exact ⟨.unsubscribing, by simp [RoomPresence.setTask], by simp⟩
    · simp only [Pending, RoomPresence.setTask, update_of_ne same]

theorem Announced.leaveOneRoom (announced : Announced core p)
    (running : p.tasks task = some (.leave room phase))
    (allowed : keepsTurns core p (.resume task input) = true)
    (ran : p.leaveOneRoom room phase input = some (p', next)) :
    Announced core (p'.setTask task next) := by
  have below := announced.below running
  match phase, input with
  | .fresh, .cancelled | .unsubscribing, .cancelled => simp [keepsTurns, running] at allowed
  | .fresh, .returned =>
    cases ran
    exact announced.leaveRuns running
  | .unsubscribing, .returned | .unsubscribing, .raised =>
    cases ran
    exact announced.leaveDone ⟨_, running, nofun⟩
  | .announcing, .returned | .announcing, .raised | .announcing, .cancelled =>
    cases ran
    refine announced.setTask below ?_ nofun
    rintro other ⟨phase, found, open_⟩
    rw [running] at found
    cases found
    exact open_ rfl

theorem Announced.step (documented : Documented core) (announced : Announced core p) {e : Event P}
    (allowed : keepsTurns core p e = true) (stepped : step core config p e = some p') :
    Announced core p' := by
  cases e with
  | start =>
    have ended := Option.some.inj stepped
    subst ended
    split
    · exact announced
    have spawned : p.Effect core (fun _ => False)
        { p.spawn (.start .locking) with starting := true } :=
      .calm (announced.bounded.spawns (.start .locking) rfl rfl rfl rfl rfl)
    exact announced.effect spawned nofun
  | stop =>
    have ended := Option.some.inj stepped
    subst ended
    have spawned : p.Effect core (fun _ => False) (p.spawn (.stop .locking)) :=
      .calm (announced.bounded.spawns (.stop .locking) rfl rfl rfl rfl rfl)
    exact announced.effect spawned nofun
  | resume task input =>
    simp only [Presence.step] at stepped
    split at stepped
    · cases stepped
    rename_i body running
    obtain ⟨⟨p₁, next⟩, ran, rfl⟩ := Option.map_eq_some_iff.1 stepped
    have below := announced.below running
    cases leaves : body.isLeave with
    | false =>
      obtain ⟨effect, plain⟩ :=
        resume_effect documented announced.bounded leaves ran
      have after : Announced core p₁ := by
        refine announced.effect effect fun room joins task' leaving => ?_
        rw [keepsTurns_plain running leaves, joins] at allowed
        simp [leavePending_of announced.bounded leaving] at allowed
      obtain ⟨bodies, grown⟩ := effect.grown
      have kept : p₁.tasks task = some body := (grown.older task below).trans running
      refine after.setTask (after.below kept) (not_pending_plain kept leaves) ?_
      rintro room phase rfl
      cases plain _ rfl
    | true =>
      cases body with
      | leave room phase => exact announced.leaveOneRoom running allowed ran
      | _ => cases leaves

/-! ## What each subscribe was followed by -/

/-- A subscribe that took is followed at once by the callback if its ticket admitted the room, and by
an unsubscribe if it was stale. -/
def AnsweredNext (log : List Note) : Prop :=
  ∀ before room ticket admitted after, log = before ++ .subscribed room ticket admitted :: after →
    ∃ rest, after = (if admitted then .joined room ticket else .unsubscribing room ticket) :: rest

/-- `on_room_joined` is invoked right after the subscribe that took for the ticket that admitted it. -/
def JoinedAfterSubscribed (log : List Note) : Prop :=
  ∀ before room ticket after, log = before ++ .joined room ticket :: after →
    ∃ earlier, before = earlier ++ [.subscribed room ticket true]

/-- A log in the pieces in which it is written. -/
inductive Told : List Note → Prop where
  | nil : Told []
  | left {room : String} {log : List Note} : Told log → Told (.left room :: log)
  | joined {room : String} {ticket : Nat} {log : List Note} : Told log →
      Told (.subscribed room ticket true :: .joined room ticket :: log)
  | dropped {room : String} {ticket : Nat} {log : List Note} : Told log →
      Told (.subscribed room ticket false :: .unsubscribing room ticket :: log)

theorem Told.append {log more : List Note} (told : Told log) (further : Told more) : Told (log ++ more) := by
  induction told with
  | nil => exact further
  | left _ ih => exact .left ih
  | joined _ ih => exact .joined ih
  | dropped _ ih => exact .dropped ih

theorem Told.answeredNext {log : List Note} (told : Told log) : AnsweredNext log := by
  induction told with
  | nil =>
    intro before room ticket admitted after split
    simp at split
  | left _ ih =>
    intro before room ticket admitted after split
    cases before with
    | nil => cases split
    | cons first before => exact ih before room ticket admitted after (List.cons.inj split).2
  | joined _ ih | dropped _ ih =>
    intro before room ticket admitted after split
    rcases before with _ | ⟨first, _ | ⟨second, before⟩⟩
    · cases split
      exact ⟨_, rfl⟩
    · cases split
    · exact ih before room ticket admitted after (List.cons.inj (List.cons.inj split).2).2

theorem Told.joinedAfterSubscribed {log : List Note} (told : Told log) : JoinedAfterSubscribed log := by
  induction told with
  | nil =>
    intro before room ticket after split
    simp at split
  | left _ ih =>
    intro before room ticket after split
    cases before with
    | nil => cases split
    | cons first before =>
      obtain ⟨earlier, rfl⟩ := ih before room ticket after (List.cons.inj split).2
      exact ⟨first :: earlier, rfl⟩
  | joined _ ih | dropped _ ih =>
    intro before room ticket after split
    rcases before with _ | ⟨first, _ | ⟨second, before⟩⟩
    · cases split
    · cases split
      all_goals exact ⟨[], rfl⟩
    · obtain ⟨earlier, rfl⟩ :=
        ih before room ticket after (List.cons.inj (List.cons.inj split).2).2
      exact ⟨first :: second :: earlier, rfl⟩

theorem Told.effect (told : Told p.log) (effect : p.Effect core due p') : Told p'.log := by
  cases effect with
  | calm calm =>
    rw [calm.log]
    exact told
  | joins room ticket _ _ _ log =>
    rw [log]
    exact told.append (.joined .nil)
  | drops room ticket _ log =>
    rw [log]
    exact told.append (.dropped .nil)
  | removes room _ _ log =>
    rw [log]
    exact told.append (.left .nil)
  | departs rooms _ _ _ log =>
    rw [log]
    exact told

theorem Told.leaveOneRoom (told : Told p.log)
    (ran : p.leaveOneRoom room phase input = some (p', next)) : Told p'.log := by
  match phase, input with
  | .unsubscribing, .returned | .unsubscribing, .raised =>
    cases ran
    exact told.append (.left .nil)
  | .fresh, .returned | .fresh, .cancelled | .unsubscribing, .cancelled | .announcing, .returned
  | .announcing, .raised | .announcing, .cancelled =>
    cases ran
    exact told

theorem leaveOneRoom_bounded (bounded : p.Bounded)
    (ran : p.leaveOneRoom room phase input = some (p', next)) : p'.Bounded ∧ p'.made = p.made := by
  match phase, input with
  | .fresh, .returned | .fresh, .cancelled | .unsubscribing, .returned | .unsubscribing, .raised
  | .unsubscribing, .cancelled | .announcing, .returned | .announcing, .raised
  | .announcing, .cancelled =>
    cases ran
    exact ⟨bounded, rfl⟩

theorem Told.step (documented : Documented core) {e : Event P} (bounded : p.Bounded)
    (told : Told p.log) (stepped : step core config p e = some p') : p'.Bounded ∧ Told p'.log := by
  cases e with
  | start =>
    have ended := Option.some.inj stepped
    subst ended
    split
    · exact ⟨bounded, told⟩
    · exact ⟨(bounded.spawn (.start .locking)).bounded, told⟩
  | stop =>
    have ended := Option.some.inj stepped
    subst ended
    exact ⟨(bounded.spawn (.stop .locking)).bounded, told⟩
  | resume task input =>
    simp only [Presence.step] at stepped
    split at stepped
    · cases stepped
    rename_i body running
    obtain ⟨⟨p₁, next⟩, ran, rfl⟩ := Option.map_eq_some_iff.1 stepped
    have below : task < p.made := by
      by_contra beyond
      rw [bounded task (by omega)] at running
      cases running
    cases leaves : body.isLeave with
    | false =>
      obtain ⟨effect, -⟩ := resume_effect documented bounded leaves ran
      obtain ⟨bodies, grown⟩ := effect.grown
      have made := grown.made
      have told' : Told p₁.log := told.effect effect
      exact ⟨grown.bounded.setTask (by omega), told'⟩
    | true =>
      cases body with
      | leave room phase =>
        obtain ⟨bounded', made⟩ := leaveOneRoom_bounded bounded ran
        have told' : Told p₁.log := told.leaveOneRoom ran
        exact ⟨bounded'.setTask (by omega), told'⟩
      | _ => cases leaves

/-- **Joins and leaves take turns.**  In every run a room is announced as joined right after the
subscribe that took for the ticket that admitted it, and a subscribe whose ticket went stale is
followed by an unsubscribe instead.  In every run that cancels no leave before its callback and
admits no room whose leave is pending, the two callbacks take turns for each room, beginning with a
join. -/
theorem announcements_take_turns (documented : Documented core) :
    (∀ p, (machine core config).Reachable p → AnsweredNext p.log ∧ JoinedAfterSubscribed p.log) ∧
      ∀ p, ((machine core config).restrict (keepsTurns core)).Reachable p →
        ∀ room, Alternates (announcements room p.log) := by
  constructor
  · intro p reached
    have told : p.Bounded ∧ Told p.log := by
      refine reached.invariant (P := fun p => p.Bounded ∧ Told p.log) ?_ ?_
      · rintro p rfl
        exact ⟨fun _ _ => rfl, .nil⟩
      · exact fun p e p' before stepped => Told.step documented before.1 before.2 stepped
    exact ⟨told.2.answeredNext, told.2.joinedAfterSubscribed⟩
  · intro p reached
    have announced : Announced core p := by
      refine reached.invariant ?_ ?_
      · rintro p rfl
        refine ⟨fun _ _ => rfl, nofun, fun room => ?_, ?_, ?_⟩
        · refine iff_of_false nofun ?_
          rintro (admitted | ⟨task, phase, found, -⟩)
          · simp [admits, documented.new] at admitted
          · cases found
        · rintro room task ⟨phase, found, -⟩
          cases found
        · rintro room task task' ⟨phase, found, -⟩
          cases found
      · intro p e p' announced stepped
        obtain ⟨allowed, stepped⟩ := Machine.restrict_step stepped
        exact announced.step documented allowed stepped
    exact announced.alternates

end Runs

/-! ## A roster that keeps two lists -/

structure Lists where
  next : Nat := 0
  claims : List (String × Nat) := []
  admitted : List String := []

namespace Lists

def membership (c : Lists) (room : String) : RoomMembership :=
  if room ∈ c.admitted then .admitted
  else
    match Keyed.get room c.claims with
    | some ticket => .admitting ticket
    | none => .unadmitted

def begin_ (c : Lists) (room : String) : Option Nat × Lists :=
  if c.membership room = .unadmitted then
    (some c.next, { c with next := c.next + 1, claims := (room, c.next) :: c.claims })
  else (none, c)

def record (c : Lists) (room : String) (ticket : Nat) (ok : Bool) : Bool × Lists :=
  if c.membership room = .admitting ticket then
    (ok, { c with
      claims := c.claims.filter (·.1 ≠ room)
      admitted := if ok then room :: c.admitted else c.admitted })
  else (false, c)

def remove (c : Lists) (room : String) : Bool × Lists :=
  (c.membership room = .admitted, { c with admitted := c.admitted.filter (· ≠ room) })

def reconcile (c : Lists) (targets : List String) : Reconciliation × Lists :=
  let found := targets.dedup.filter fun room => c.membership room = .unadmitted
  let claims := found.zipIdx c.next
  ({ removed := c.admitted.dedup.filter (· ∉ targets)
     admitting := claims
     resync := c.admitted.dedup.filter (· ∈ targets) },
    { next := c.next + found.length
      claims := claims ++ c.claims
      admitted := c.admitted.filter (· ∈ targets) })

def roster : Roster Lists where
  new := {}
  roomMembership := membership
  beginRoomAdmission := begin_
  recordRoomAdmission := record
  recordRoomRemoved := remove
  reconcile := reconcile
  trackedRoomIds c := c.admitted.dedup
  clear c := { next := c.next }

variable {room : String}

theorem membership_admitted {c : Lists} : c.membership room = .admitted ↔ room ∈ c.admitted := by
  simp only [membership]
  split
  · next inside => simp [inside]
  · next outside => cases Keyed.get room c.claims <;> simp [outside]

theorem begin_membership {c : Lists} (free : c.membership room = .unadmitted) :
    ({ c with next := c.next + 1, claims := (room, c.next) :: c.claims } : Lists).membership =
      update c.membership room (.admitting c.next) := by
  have outside : room ∉ c.admitted := by
    rw [← membership_admitted, free]
    nofun
  funext other
  by_cases same : other = room
  · subst same
    simp [membership, outside, Keyed.get_cons]
  · have apart : ¬ room = other := fun equal => same equal.symm
    simp [membership, Keyed.get_cons, same, apart]

theorem get_filter {claims : List (String × Nat)} {room other : String} :
    Keyed.get other (claims.filter (·.1 ≠ room)) =
      if other = room then none else Keyed.get other claims := by
  induction claims with
  | nil => simp [Keyed.get]
  | cons claim claims ih =>
    by_cases same : claim.1 = room
    · rw [filter_cons_of_neg (by simp [same]), ih, Keyed.get_cons]
      split
      · rfl
      · next apart => rw [if_neg (by rw [same]; exact fun equal => apart equal.symm)]
    · rw [filter_cons_of_pos (by simp [same]), Keyed.get_cons, Keyed.get_cons, ih]
      by_cases found : claim.1 = other
      · have apart : ¬ other = room := by rwa [← found]
        simp [found, apart]
      · simp [found]

theorem record_membership {c : Lists} {ticket : Nat} (ok : Bool)
    (current : c.membership room = .admitting ticket) :
    (c.record room ticket ok).2.membership =
      Function.update c.membership room (if ok then .admitted else .unadmitted) := by
  have outside : room ∉ c.admitted := by
    rw [← membership_admitted, current]
    nofun
  have recorded : (c.record room ticket ok).2 = { c with
      claims := c.claims.filter (·.1 ≠ room)
      admitted := if ok then room :: c.admitted else c.admitted } := by
    simp [record, current]
  funext other
  rw [recorded]
  simp only [membership, get_filter]
  by_cases same : other = room
  · subst same
    cases ok <;> simp [outside]
  · cases ok <;> simp [same, membership]

theorem documented : Documented roster where
  new room := by simp [roster, membership, Keyed.get]
  begin_none {c c' room} begun := by
    simp only [roster, begin_] at begun
    split at begun
    · simp at begun
    · obtain ⟨-, rfl⟩ := Prod.mk.inj begun
      rfl
  begin_some {c c' room ticket} begun := by
    simp only [roster, begin_] at begun
    split at begun
    · next free =>
        obtain ⟨same, rfl⟩ := Prod.mk.inj begun
        cases same
        exact ⟨free, begin_membership free⟩
    · simp at begun
  record_current {c room ticket} ok current := by
    have current : c.membership room = .admitting ticket := current
    exact ⟨by simp [roster, record, current], record_membership ok current⟩
  record_stale {c room ticket} ok stale := by
    have stale : ¬ c.membership room = .admitting ticket := stale
    simp [roster, record, stale]
  removed c room := by
    refine ⟨rfl, ?_, fun other apart => ?_⟩
    · show ¬ (c.remove room).2.membership room = .admitted
      simp [membership_admitted, remove]
    · simp [roster, membership, remove, apart]
  reconcile c targets := by
    refine ⟨(nodup_dedup _).filter _, fun room => ?_, fun room => ?_⟩
    · simp [roster, reconcile, membership_admitted]
    · simp [roster, reconcile, membership_admitted]
  tracked c := ⟨nodup_dedup _, fun room => by simp [roster, membership_admitted]⟩
  clear c room := by simp [roster, membership, Keyed.get]

/-- Every room passes the filter, and the rooms that exist are joined. -/
def config : Config Unit := { roomFilter := fun _ => true, autoSubscribeExisting := true }

abbrev presence : Machine (RoomPresence Lists Unit) (Event Unit) := machine roster config

def initial : RoomPresence Lists Unit := { roster := {} }

end Lists

/-- A room added, left by a reconnect that finds it gone, and joined again by the next `start()`. -/
theorem announcements_take_turns_rejoined :
    ∃ p, (Lists.presence.restrict (keepsTurns Lists.roster)).Reachable p ∧
      announcements "r" p.log = [true, false, true] ∧ Alternates (announcements "r" p.log) := by
  have ran : ((Lists.presence.restrict (keepsTurns Lists.roster)).run Lists.initial
      [.start, .resume 0 .returned, .resume 0 .returned, .resume 0 .returned, .resume 0 (.rooms []),
        .resume 1 (.event (.roomAdded "r" (some ()))), .resume 1 (.subscribed true),
        .resume 1 .returned, .resume 1 (.event .reconnected), .resume 1 (.rooms []),
        .resume 2 .returned, .resume 2 .raised, .resume 2 .returned, .resume 1 .returned,
        .resume 1 .returned, .stop, .resume 3 .returned, .resume 1 .cancelled, .resume 3 .returned,
        .resume 3 .returned, .start, .resume 4 .returned, .resume 4 .returned, .resume 4 .returned,
        .resume 4 (.rooms [("r", ())]), .resume 5 .returned, .resume 5 (.subscribed true)]).map
      (fun p => announcements "r" p.log) = some [true, false, true] := by
    decide +kernel
  obtain ⟨p, ends, told⟩ := Option.map_eq_some_iff.1 ran
  have reached : (Lists.presence.restrict (keepsTurns Lists.roster)).Reachable p := ⟨_, rfl, _, ends⟩
  exact ⟨p, reached, told, (announcements_take_turns Lists.documented).2 p reached "r"⟩

/-- Two joins in a row: a `stop()` that cancels a reconnect's leave before its callback, and a retry
that wakes between a reconnect's removal of its room and the leave. -/
theorem joined_twice_in_a_row :
    (∃ p, Lists.presence.Reachable p ∧ announcements "r" p.log = [true, true]) ∧
      (∃ p, Lists.presence.Reachable p ∧ announcements "r" p.log = [true, true, false]) ∧
      ¬ Alternates [true, true] ∧ ¬ Alternates [true, true, false] := by
  have cancelled : (Lists.presence.run Lists.initial
      [.start, .resume 0 .returned, .resume 0 .returned, .resume 0 .returned, .resume 0 (.rooms []),
        .resume 1 (.event (.roomAdded "r" (some ()))), .resume 1 (.subscribed true),
        .resume 1 .returned, .resume 1 (.event .reconnected), .resume 1 (.rooms []),
        .resume 2 .returned, .stop, .resume 3 .returned, .resume 2 .cancelled, .resume 1 .cancelled,
        .resume 1 .returned, .resume 3 .returned, .resume 3 .returned, .start, .resume 4 .returned,
        .resume 4 .returned, .resume 4 .returned, .resume 4 (.rooms [("r", ())]),
        .resume 5 .returned, .resume 5 (.subscribed true)]).map
      (fun p => announcements "r" p.log) = some [true, true] := by
    decide +kernel
  have retried : (Lists.presence.run Lists.initial
      [.start, .resume 0 .returned, .resume 0 .returned, .resume 0 .returned,
        .resume 0 (.rooms [("r", ())]), .resume 1 .returned, .resume 1 (.subscribed false),
        .resume 0 .returned, .resume 2 .returned, .resume 3 (.event (.roomAdded "r" (some ()))),
        .resume 3 (.subscribed true), .resume 3 .returned, .resume 3 (.event .reconnected),
        .resume 3 (.rooms []), .resume 2 .returned, .resume 2 (.subscribed true),
        .resume 4 .returned, .resume 4 .returned]).map
      (fun p => announcements "r" p.log) = some [true, true, false] := by
    decide +kernel
  obtain ⟨p, ends, told⟩ := Option.map_eq_some_iff.1 cancelled
  obtain ⟨q, ends', told'⟩ := Option.map_eq_some_iff.1 retried
  refine ⟨⟨p, ⟨_, rfl, _, ends⟩, told⟩, ⟨q, ⟨_, rfl, _, ends'⟩, told'⟩, ?_, ?_⟩
  · intro alternates
    simpa using alternates 1 true rfl
  · intro alternates
    simpa using alternates 1 true rfl

end BandSdk.Presence

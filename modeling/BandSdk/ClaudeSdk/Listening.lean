/-
# ClaudeSdk.Listening -- what a listening turn may hear

`Kept` is the session's invariant.  Whatever is still unread was sent for by the turn that is
running, or its residency is `Retired`: it lost its authority, and the turn that leases the
room now, if any, leases a later one.  A residency that is behind the room's generation is
never heard again, so a turn hears its own answer only.
-/
import BandSdk.ClaudeSdk.Answers

namespace BandSdk.ClaudeSdk

open BandSdk.Theory BandSdk.Retention RetainedRoom RoomRetention

namespace TurnPoint

/-- Whether the turn's stream is open here. -/
def listens : TurnPoint → Bool
  | .querying | .reading | .dispatching | .completing | .interrupting | .draining | .reporting =>
    true
  | _ => false

/-- Whether the turn is past its result, or past its recovery. -/
def done : TurnPoint → Bool
  | .reporting | .failing | .leaving => true
  | _ => false

end TurnPoint

namespace ClaudeRoomSession

variable {room : Nat} {s s' : ClaudeRoomSession} {turn : Turn}

/-! ## The invariant -/

/-- The running turn sent query `query` to the CLI of residency `g`. -/
def Own (s : ClaudeRoomSession) (g query : Nat) : Prop :=
  ∃ turn, s.turn = some turn ∧ turn.id = query ∧ turn.client = some g ∧ turn.queried = true

/-- The turn that is running, if it has leased the room, leases a residency after `g`. -/
def Behind (s : ClaudeRoomSession) (g : Nat) : Prop :=
  ∀ turn c, s.turn = some turn → turn.client = some c → g < c

def Retired (room : Nat) (s : ClaudeRoomSession) (g : Nat) : Prop :=
  Gone room s.world g ∧ s.Behind g

/-- A turn that opened its stream and has not read its result has lost its residency. -/
def Settles (room : Nat) (world : RoomRetention) (turn : Turn) : Prop :=
  turn.opened = true → turn.resulted = false → ∃ c, turn.client = some c ∧ Gone room world c

structure StreamKept (room : Nat) (s : ClaudeRoomSession) (turn : Turn) (stream : TurnStream) :
    Prop where
  mine : ∀ message, .message message ∈ stream.messages → message.query = turn.id ∧
    turn.queried = true ∧ (message.isResult = true → stream.completed = true)
  completed : stream.completed = true → turn.queried = true ∧ ∀ g, turn.id ∉ (s.clis g).tags
  ending : ∀ error, .streamEnd error ∈ stream.messages → stream.completed = false ∧
    ∀ c, turn.client = some c → (s.clis c).reader = .ended ∨
      ∃ r, s.world.rooms[room]? = some r ∧ c < r.generation
  foreign : ∀ error, .streamEnd (some error) ∈ stream.messages → error.foreign = true

structure TurnKept (room : Nat) (s : ClaudeRoomSession) (turn : Turn) : Prop where
  id : turn.id < s.admitted
  client : turn.client = none ↔ turn.point = .entering
  residency : ∃ r, s.world.rooms[room]? = some r ∧ ∀ c, turn.client = some c → c ≤ r.generation
  early : turn.point = .entering ∨ turn.point = .seeding → turn.opened = false
  unopened : turn.opened = false → turn.queried = false
  unqueried : turn.queried = false → turn.resulted = false ∧ ∀ g, turn.id ∉ (s.clis g).tags
  resulted : turn.resulted = true → ∀ g, turn.id ∉ (s.clis g).tags
  completing : turn.point = .completing → turn.resulted = true
  listens : turn.point.listens = true → turn.opened = true ∧ s.stream ≠ none
  silent : turn.point.listens = false → s.stream = none
  done : turn.point.done = true → Settles room s.world turn
  stream : ∀ stream, s.stream = some stream → StreamKept room s turn stream

structure Kept (room : Nat) (s : ClaudeRoomSession) : Prop where
  sound : s.world.Sound
  ordered : ∀ g, (s.clis g).Ordered
  issued : ∀ g query, query ∈ (s.clis g).tags → query < s.admitted
  known : ∀ g query, query ∈ (s.clis g).tags →
    s.Own g query ∨ s.Retired room g ∧ ∀ turn, s.turn = some turn → turn.id ≠ query
  ended : ∀ turn ∈ s.ended, (turn.opened = false → turn.queried = false) ∧
    (turn.opened = true → turn.resulted = false → ∃ c, turn.client = some c ∧ s.Retired room c)
  yielded : ∀ entry ∈ s.yielded, entry.2.query = entry.1
  completions : ∀ entry ∈ s.completions, entry.2.query = entry.1 ∧ entry.2.isResult = true
  idle : s.turn = none → s.stream = none
  turn : ∀ turn, s.turn = some turn → TurnKept room s turn

/-- A turn still in `_turn_lease` has not got its client. -/
def Waits (room : Nat) (s : ClaudeRoomSession) : Prop :=
  ∀ turn r, s.turn = some turn → turn.point = .entering → s.world.rooms[room]? = some r → ¬ r.BodyAt turn.use

theorem waits_of_point (past : ∀ turn, s.turn = some turn → turn.point ≠ .entering) :
    Waits room s :=
  fun turn _ running entering => absurd entering (past turn running)

theorem Retired.mono {g : Nat} (retired : s.Retired room g) (gone : Gone room s'.world g)
    (behind : ∀ turn' c, s'.turn = some turn' → turn'.client = some c →
      ∃ turn, s.turn = some turn ∧ turn.client = some c) : s'.Retired room g := by
  refine ⟨gone, fun turn' c running leased => ?_⟩
  obtain ⟨turn, was, same⟩ := behind turn' c running leased
  exact retired.2 turn c was same

/-! ## The retention moves on -/

theorem StreamKept.world {stream : TurnStream} (kept : StreamKept room s turn stream)
    (sound : s.world.Sound) {world : RoomRetention} (path : retention.Reaches s.world world) :
    StreamKept room { s with world := world } turn stream where
  mine := kept.mine
  completed := kept.completed
  ending error member := by
    obtain ⟨open_, gone⟩ := kept.ending error member
    refine ⟨open_, fun c leased => (gone c leased).imp id fun ⟨r, found, older⟩ => ?_⟩
    obtain ⟨-, r', found', le⟩ := generation_reaches sound path found
    exact ⟨r', found', Nat.lt_of_lt_of_le older le⟩
  foreign := kept.foreign

theorem TurnKept.world (kept : TurnKept room s turn) (sound : s.world.Sound)
    {world : RoomRetention} (path : retention.Reaches s.world world) :
    TurnKept room { s with world := world } turn where
  id := kept.id
  client := kept.client
  residency := by
    obtain ⟨r, found, le⟩ := kept.residency
    obtain ⟨-, r', found', le'⟩ := generation_reaches sound path found
    exact ⟨r', found', fun c leased => (le c leased).trans le'⟩
  early := kept.early
  unopened := kept.unopened
  unqueried := kept.unqueried
  resulted := kept.resulted
  completing := kept.completing
  listens := kept.listens
  silent := kept.silent
  done at_ opened unread :=
    have ⟨c, leased, gone⟩ := kept.done at_ opened unread
    ⟨c, leased, gone.reaches sound path⟩
  stream st open_ := (kept.stream st open_).world sound path

section

variable (kept : s.Kept room)
include kept

theorem Kept.world {world : RoomRetention}
    (path : retention.Reaches s.world world) : Kept room { s with world := world } where
  sound := sound_reaches kept.sound path
  ordered := kept.ordered
  issued := kept.issued
  known g query member := (kept.known g query member).imp id fun ⟨retired, other⟩ =>
    ⟨⟨retired.1.reaches kept.sound path, retired.2⟩, other⟩
  ended turn member := ⟨(kept.ended turn member).1, fun opened unread =>
    have ⟨c, leased, retired⟩ := (kept.ended turn member).2 opened unread
    ⟨c, leased, retired.1.reaches kept.sound path, retired.2⟩⟩
  yielded := kept.yielded
  completions := kept.completions
  idle := kept.idle
  turn turn running := (kept.turn turn running).world kept.sound path

/-! ## The turn moves on -/

section

variable (running : s.turn = some turn)
include running

/-- The turn is replaced by itself at another await, its stream and the records with it. -/
theorem Kept.turnTo {turn' : Turn} {stream : Option TurnStream} {yielded completions : List (Nat × Message)}
    (id : turn'.id = turn.id) (client : turn'.client = turn.client)
    (queried : turn'.queried = turn.queried) (told : ∀ entry ∈ yielded, entry.2.query = entry.1)
    (closed : ∀ entry ∈ completions, entry.2.query = entry.1 ∧ entry.2.isResult = true)
    (next : TurnKept room { s with
      turn := some turn', stream := stream, yielded := yielded, completions := completions } turn') :
    Kept room { s with
      turn := some turn', stream := stream, yielded := yielded, completions := completions } := by
  have behind : ∀ {g : Nat}, s.Retired room g → Retired room { s with
      turn := some turn', stream := stream, yielded := yielded, completions := completions } g := by
    intro g retired
    refine Retired.mono retired retired.1 fun other c now leased => ⟨turn, running, ?_⟩
    cases now
    rw [← client, leased]
  refine { kept with
    known := fun g query member => ?_, ended := fun past member => ?_, yielded := told,
    completions := closed, idle := nofun, turn := fun other now => ?_ }
  · rcases kept.known g query member with ⟨turn₀, was, same, leased, sent⟩ | ⟨retired, other⟩
    · rw [running] at was
      cases was
      exact .inl ⟨turn', rfl, id.trans same, client.trans leased, queried.trans sent⟩
    · refine .inr ⟨behind retired, fun turn₀ now => ?_⟩
      cases now
      rw [id]
      exact other turn running
  · refine ⟨(kept.ended past member).1, fun opened unread => ?_⟩
    obtain ⟨c, leased, retired⟩ := (kept.ended past member).2 opened unread
    exact ⟨c, leased, behind retired⟩
  · cases now
    exact next

/-- The turn is gone; if it stopped before its result, its residency went first. -/
theorem Kept.depart (silent : s.stream = none) (settles : Settles room s.world turn) :
    Kept room (s.depart turn) := by
  have own := kept.turn turn running
  have retired : ∀ {g : Nat}, Gone room s.world g → Retired room (s.depart turn) g :=
    fun gone => ⟨gone, nofun⟩
  refine { kept with
    known := fun g query member => .inr ⟨?_, nofun⟩, ended := fun past member => ?_,
    idle := fun _ => silent, turn := nofun }
  · rcases kept.known g query member with ⟨turn₀, was, same, leased, sent⟩ | ⟨gone, -⟩
    · rw [running] at was
      cases was
      have opened : turn.opened = true := by
        by_contra unopened
        rw [own.unopened (by simpa using unopened)] at sent
        cases sent
      have unread : turn.resulted = false := by
        by_contra read
        exact own.resulted (by simpa using read) g (same ▸ member)
      obtain ⟨c, leased', gone⟩ := settles opened unread
      rw [leased] at leased'
      cases leased'
      exact retired gone
    · exact retired gone.1
  · rcases mem_concat member with old | new
    · refine ⟨(kept.ended past old).1, fun opened unread => ?_⟩
      obtain ⟨c, leased, gone⟩ := (kept.ended past old).2 opened unread
      exact ⟨c, leased, retired gone.1⟩
    · rw [new]
      refine ⟨own.unopened, fun opened unread => ?_⟩
      obtain ⟨c, leased, gone⟩ := settles opened unread
      exact ⟨c, leased, retired gone⟩

/-! ## Into the lease -/

theorem Kept.lease (entering : turn.point = .entering) {r : RetainedRoom}
    (found : s.world.rooms[room]? = some r) (ready : r.Ready s.world.view) :
    Kept room { s with
      turn := some { turn with point := .seeding, client := some r.generation } } := by
  have own := kept.turn turn running
  have unleased := own.client.2 entering
  have silent := own.silent (by rw [entering]; rfl)
  have unopened := own.early (.inl entering)
  have behind : ∀ {g : Nat}, Gone room s.world g → Retired room { s with
      turn := some { turn with point := .seeding, client := some r.generation } } g := by
    intro g gone
    refine ⟨gone, fun other c now leased => ?_⟩
    cases now
    cases leased
    exact gone.lt_of_ready found ready
  refine { kept with
    known := fun g query member => .inr ?_, ended := fun past member => ?_, idle := nofun,
    turn := fun other now => ?_ }
  · rcases kept.known g query member with ⟨turn₀, was, -, leased, -⟩ | ⟨retired, other⟩
    · rw [running] at was
      cases was
      rw [unleased] at leased
      cases leased
    · refine ⟨behind retired.1, fun turn₀ now => ?_⟩
      cases now
      exact other turn running
  · refine ⟨(kept.ended past member).1, fun opened unread => ?_⟩
    obtain ⟨c, leased, retired⟩ := (kept.ended past member).2 opened unread
    exact ⟨c, leased, behind retired.1⟩
  · cases now
    exact { own with
      client := ⟨nofun, nofun⟩
      residency := ⟨r, found, fun c leased => by cases leased; exact Nat.le_refl _⟩
      early := fun _ => unopened
      completing := nofun
      listens := nofun
      silent := fun _ => silent
      done := nofun
      stream := fun st open_ => by rw [show s.stream = some st from open_] at silent; cases silent }

end

theorem Kept.arrive (ready : ∀ turn r, s.turn = some turn →
    turn.point = .entering → s.world.rooms[room]? = some r → r.BodyAt turn.use →
      r.Ready s.world.view) : Kept room (s.arrive room) ∧ Waits room (s.arrive room) := by
  unfold ClaudeRoomSession.arrive
  split
  · rename_i turn r running found
    split
    · rename_i entering
      split
      · rename_i body
        obtain ⟨use, at_, phase⟩ := Option.map_eq_some_iff.1 body
        refine ⟨kept.lease running entering found
          (ready turn r running entering found ⟨use, at_, phase⟩), waits_of_point fun other now => ?_⟩
        cases now
        exact nofun
      · have own := kept.turn turn running
        have unopened := own.early (.inl entering)
        have settles : Settles room s.world turn := fun opened => by
          rw [unopened] at opened
          cases opened
        exact ⟨kept.depart running (own.silent (by rw [entering]; rfl)) settles,
          waits_of_point fun other now => by cases now⟩
      · rename_i nobody _
        refine ⟨kept, fun other q now _ at_ ⟨use, found', phase⟩ => ?_⟩
        rw [running] at now
        cases now
        rw [found] at at_
        cases at_
        exact nobody (by rw [found', Option.map_some, phase])
    · rename_i elsewhere
      refine ⟨kept, waits_of_point fun other now => ?_⟩
      rw [running] at now
      cases now
      exact elsewhere
  · rename_i absent
    exact ⟨kept, fun turn r running _ found => (absent turn r running found).elim⟩

/-- **One step of the retention**, with the turn it may let into its lease. -/
theorem Kept.moved (waits : s.Waits room) {event : RetentionEvent}
    {world : RoomRetention} (stepped : s.world.step event = some world) :
    Kept room (s.moved room world) ∧ Waits room (s.moved room world) := by
  refine (kept.world (Machine.Reaches.step stepped)).arrive fun turn r running entering found body => ?_
  obtain ⟨q, was, -⟩ := (kept.turn turn running).residency
  obtain ⟨r', found', moves⟩ := (kept.sound.step stepped).2 room q was
  have found : world.rooms[room]? = some r := found
  rw [found] at found'
  cases found'
  rcases moves.bodies turn.use body with old | ready
  · exact absurd old (waits turn q running entering was)
  · exact ready

end

end ClaudeRoomSession

end BandSdk.ClaudeSdk

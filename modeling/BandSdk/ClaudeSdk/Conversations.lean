/-
# ClaudeSdk.Conversations -- every way out of a turn, and what its stream yields

The reader hands a message to a stream only from the room's current residency, and what is
unread there is the running turn's own.  A turn leaves `_converse` with its result read, or
with its residency out of authority: `Exits` says so of every except clause, and the drain of
a turn that ran out of time ends the same way.
-/
import BandSdk.ClaudeSdk.Listening

namespace BandSdk.ClaudeSdk

open BandSdk.Theory BandSdk.Retention RetainedRoom RoomRetention List ClaudeRoomSession

namespace ClaudeRoomSession

variable {room : Nat} {s s' : ClaudeRoomSession} {turn : Turn}

/-! ## The CLI and its reader -/

section Reading

variable {g : Nat} {next : Cli}

theorem tags_setCli (shrinks : (s.clis g).Shrinks next) {g' query : Nat}
    (member : query ∈ ((s.setCli g next).clis g').tags) : query ∈ (s.clis g').tags := by
  by_cases same : g' = g
  · subst same
    rw [clis_setCli_self] at member
    exact shrinks.tags query member
  · rwa [clis_setCli_of_ne s next same] at member

theorem ended_setCli (shrinks : (s.clis g).Shrinks next) {c : Nat}
    (ended : (s.clis c).reader = .ended) : ((s.setCli g next).clis c).reader = .ended := by
  by_cases same : c = g
  · subst same
    rw [clis_setCli_self]
    exact shrinks.ended ended
  · rwa [clis_setCli_of_ne s next same]

/-- What a CLI or its reader does by itself reaches no turn. -/
theorem Kept.cli (kept : s.Kept room) (shrinks : (s.clis g).Shrinks next) : Kept room (s.setCli g next) := by
  have fewer : ∀ {g' query : Nat}, query ∉ (s.clis g').tags →
      query ∉ ((s.setCli g next).clis g').tags := fun absent member =>
    absent (tags_setCli shrinks member)
  refine { kept with
    ordered := fun g' => ?_
    issued := fun g' query member => kept.issued g' query (tags_setCli shrinks member)
    known := fun g' query member => kept.known g' query (tags_setCli shrinks member)
    turn := fun turn running => ?_ }
  · by_cases same : g' = g
    · subst same
      rw [clis_setCli_self]
      exact shrinks.ordered
    · rw [clis_setCli_of_ne s next same]
      exact kept.ordered g'
  · have own := kept.turn turn running
    exact { own with
      unqueried := fun unsent => ⟨(own.unqueried unsent).1, fun g' => fewer ((own.unqueried unsent).2 g')⟩
      resulted := fun read g' => fewer (own.resulted read g')
      stream := fun st open_ =>
        have heard := own.stream st open_
        { heard with
          completed := fun completed =>
            ⟨(heard.completed completed).1, fun g' => fewer ((heard.completed completed).2 g')⟩
          ending := fun error member => ⟨(heard.ending error member).1, fun c leased =>
            ((heard.ending error member).2 c leased).imp (ended_setCli shrinks) id⟩ } }

/-- A stream that hears residency `g` is open, and `g` is the room's current residency. -/
theorem listener_spec {stream : TurnStream} (hears : s.listener room g = some stream) :
    s.stream = some stream ∧ stream.completed = false ∧
      ∃ r, s.world.rooms[room]? = some r ∧ r.generation = g := by
  obtain ⟨open_, may⟩ := Option.filter_eq_some_iff.1 hears
  rw [Bool.and_eq_true, Bool.not_eq_true'] at may
  obtain ⟨unfinished, may⟩ := may
  refine ⟨open_, unfinished, ?_⟩
  obtain ⟨r, found, may⟩ := (Option.any_eq_true _ _).1 may
  refine ⟨r, found, ?_⟩
  simp only [RetainedRoom.mayFinish, Bool.or_eq_true, Bool.and_eq_true, beq_iff_eq] at may
  rcases may with authority | ⟨⟨-, same⟩, -⟩
  · exact ((authority_eq g).1 authority).1.symm
  · exact same.symm

section

variable (kept : s.Kept room)
include kept

theorem Kept.listening {stream : TurnStream}
    (open_ : s.stream = some stream) : ∃ turn c, s.turn = some turn ∧ turn.client = some c ∧
      turn.point.listens = true := by
  cases running : s.turn with
  | none =>
    rw [kept.idle running] at open_
    cases open_
  | some turn =>
    have own := kept.turn turn running
    have listens : turn.point.listens = true := by
      by_contra silent
      rw [own.silent (by simpa using silent)] at open_
      cases open_
    cases leased : turn.client with
    | none =>
      rw [own.client.1 leased] at listens
      cases listens
    | some c => exact ⟨turn, c, rfl, leased, listens⟩

/-- The stream is replaced, the turn stays where it is. -/
theorem Kept.streamTo (running : s.turn = some turn) (listens : turn.point.listens = true) {stream : TurnStream}
    (next : StreamKept room { s with stream := some stream } turn stream) :
    Kept room { s with stream := some stream } := by
  have own := kept.turn turn running
  have heard : TurnKept room { s with turn := some turn, stream := some stream } turn := { own with
    listens := fun _ => ⟨(own.listens listens).1, nofun⟩
    silent := fun silent => by rw [listens] at silent; cases silent
    stream := fun st now => by cases now; exact ⟨next.mine, next.completed, next.ending, next.foreign⟩ }
  have turned : Kept room { s with turn := some turn, stream := some stream } :=
    kept.turnTo running rfl rfl rfl kept.yielded kept.completions heard
  obtain ⟨_, _, _, found, _, _, _, _⟩ := s
  subst running
  exact turned

/-- **Delivery.**  The message the reader of the current residency holds is the running turn's. -/
theorem Kept.deliver {message : Message} {stream : TurnStream}
    (reader : (s.clis g).reader = .observing message) (hears : s.listener room g = some stream) :
    Kept room { s.setCli g { s.clis g with reader := .receiving } with
      stream := some (stream.deliver message) } := by
  obtain ⟨open_, unfinished, r, found, current⟩ := listener_spec hears
  obtain ⟨turn, c, running, leased, listens⟩ := kept.listening open_
  have own := kept.turn turn running
  have heard := own.stream stream open_
  have shrinks := (kept.ordered g).release .receiving rfl (by rw [reader]; exact nofun)
  have held : message.query ∈ (s.clis g).tags :=
    Cli.mem_tags.2 (.inl ⟨message, by simp [Cli.unread, reader, Reader.held], rfl⟩)
  obtain ⟨mine, here, sent⟩ : turn.id = message.query ∧ turn.client = some g ∧ turn.queried = true := by
    rcases kept.known g _ held with ⟨turn₀, was, rest⟩ | ⟨retired, -⟩
    · rw [running] at was
      cases was
      exact rest
    · -- a retired residency is behind the one this turn leases
      obtain ⟨r', found', le⟩ := own.residency
      rw [found] at found'
      cases found'
      have older := retired.2 turn c running leased
      have := le c leased
      omega
  rw [leased] at here
  cases here
  -- the stream has not ended: this reader is alive, and its residency is the current one
  have unended : ∀ error, .streamEnd error ∉ stream.messages := by
    intro error member
    rcases (heard.ending error member).2 g leased with ended | ⟨r', found', older⟩
    · rw [reader] at ended
      cases ended
    · rw [found] at found'
      cases found'
      omega
  have finished : message.isResult = true →
      ∀ g', turn.id ∉ ((s.setCli g { s.clis g with reader := .receiving }).clis g').tags := by
    intro result g' member
    by_cases same : g' = g
    · subst same
      rw [clis_setCli_self, mine] at member
      exact (kept.ordered g').read reader result member
    · rcases kept.known g' _ (tags_setCli shrinks member) with ⟨turn₀, was, -, other, -⟩ | ⟨-, other⟩
      · rw [running] at was
        cases was
        rw [leased] at other
        cases other
        exact same rfl
      · exact other turn running rfl
  refine (kept.cli shrinks).streamTo running listens ⟨?_, ?_, ?_, ?_⟩
  · intro m member
    rcases mem_append.1 member with old | new
    · obtain ⟨owned, queried, completes⟩ := heard.mine m old
      refine ⟨owned, queried, fun result => ?_⟩
      rw [completes result] at unfinished
      cases unfinished
    · cases mem_singleton.1 new
      exact ⟨mine.symm, sent, fun result => by simp [TurnStream.deliver, result]⟩
  · intro completed
    have result : message.isResult = true := by
      simpa [TurnStream.deliver, unfinished] using completed
    exact ⟨sent, finished result⟩
  · intro error member
    rcases mem_append.1 member with old | new
    · exact absurd old (unended error)
    · cases mem_singleton.1 new
  · intro error member
    rcases mem_append.1 member with old | new
    · exact heard.foreign error old
    · cases mem_singleton.1 new

theorem Kept.observed (waits : s.Waits room)
    (observed : s.observed room g = some s') : Kept room s' ∧ Waits room s' := by
  unfold ClaudeRoomSession.observed at observed
  split at observed
  · rename_i message reader
    have shrinks := (kept.ordered g).release .receiving rfl (by rw [reader]; exact nofun)
    simp only [Option.some.injEq] at observed
    split at observed
    · rename_i stream hears
      subst observed
      exact ⟨kept.deliver reader hears, waits⟩
    · subst observed
      exact ⟨kept.cli shrinks, waits⟩
  · cases observed

theorem Kept.readEnded (waits : s.Waits room) {error : Option TurnError}
    (ended : s.readEnded room g error = some s') : Kept room s' ∧ Waits room s' := by
  obtain ⟨reading, ended⟩ := of_barred ended
  have shrinks := (kept.ordered g).release .ended rfl fun _ => rfl
  have still := kept.cli shrinks
  simp only [Option.some.injEq] at ended
  split at ended
  · rename_i stream hears
    subst ended
    obtain ⟨open_, unfinished, r, found, current⟩ := listener_spec hears
    obtain ⟨turn, c, running, leased, listens⟩ := still.listening open_
    have own := still.turn turn running
    have heard := own.stream stream open_
    refine ⟨still.streamTo running listens ⟨?_, heard.completed, ?_, ?_⟩, waits⟩
    · intro message member
      rcases mem_append.1 member with old | new
      · exact heard.mine message old
      · cases mem_singleton.1 new
    · intro error' member
      rcases mem_append.1 member with old | new
      · exact heard.ending error' old
      refine ⟨unfinished, fun c' leased' => ?_⟩
      obtain ⟨r', found', le⟩ := own.residency
      rw [found] at found'
      cases found'
      rcases Nat.lt_or_eq_of_le (le c' leased') with older | same
      · exact .inr ⟨r, found, older⟩
      left
      rw [same, current]
      exact congrArg Cli.reader (clis_setCli_self s g _)
    · intro error' member
      rcases mem_append.1 member with old | new
      · exact heard.foreign error' old
      cases mem_singleton.1 new
      have known := (not_or.1 reading).2
      simpa using known
  · subst ended
    unfold retire
    split
    · rename_i world stepped
      exact still.moved waits stepped
    · exact ⟨still, waits⟩

end

end Reading

/-! ## Out of `_converse` -/

/-- The turn stops listening and waits at `point`; meanwhile the retention only moved on. -/
def Exits (room : Nat) (s : ClaudeRoomSession) (turn : Turn) (point : TurnPoint)
    (s' : ClaudeRoomSession) : Prop :=
  ∃ world, s' = { s with
      world := world, stream := none, turn := some { turn with point := point } } ∧
    retention.Reaches s.world world ∧ Settles room world turn

theorem arrive_of_ne (running : s.turn = some turn) (elsewhere : turn.point ≠ .entering) :
    s.arrive room = s := by
  unfold arrive
  split
  · rename_i other r now found
    rw [running] at now
    cases now
    rw [if_neg elsewhere]
  · rfl

/-- A recovery the turn asks for leaves the residency it leased without authority. -/
theorem recover_shape (running : s.turn = some turn) (elsewhere : turn.point ≠ .entering)
    {r : RetainedRoom} (found : s.world.rooms[room]? = some r)
    (le : ∀ c, turn.client = some c → c ≤ r.generation) (reason : String) :
    ∃ world, s.recover room reason = { s with world := world } ∧
      retention.Reaches s.world world ∧ ∀ c, turn.client = some c → Gone room world c := by
  have stepped : s.world.step (.room room (.recover r.generation reason)) =
      some (s.world.putRoom room (r.recover s.world.view r.generation reason)) := by
    simp only [RoomRetention.step, found, RetainedRoom.step, Option.map_some]
  have path : retention.Reaches s.world
      (s.world.putRoom room (r.recover s.world.view r.generation reason)) :=
    ⟨[.room room (.recover r.generation reason)], Machine.run_cons_eq_some.2 ⟨_, stepped, rfl⟩⟩
  refine ⟨_, ?_, path, fun c leased => ?_⟩
  · simp only [recover, found, retire, stepped]
    exact arrive_of_ne running elsewhere
  · obtain ⟨timer, eq⟩ := putRoom_shape s.world room (r.recover s.world.view r.generation reason)
    rw [eq]
    refine ⟨{ r.recover s.world.view r.generation reason with ownerCalls := [] }, ?_, ?_, ?_⟩
    · show (s.world.rooms.set room _)[room]? = _
      rw [getElem?_set_self', found]
      rfl
    · exact (le c leased).trans (Nat.le_of_eq (generation_recover s.world.view r _ reason).symm)
    · exact recover_lost s.world.view r reason (le c leased)

section Exits

variable (kept : s.Kept room) (running : s.turn = some turn) (elsewhere : turn.point ≠ .entering)

include kept running elsewhere

/-- The same of a turn that closed its stream and saw the retention move on before. -/
theorem recover_from {world : RoomRetention} (path : retention.Reaches s.world world)
    (reason : String) : ∃ world', recover room { s with world := world, stream := none } reason =
        { s with world := world', stream := none } ∧
      retention.Reaches s.world world' ∧ ∀ c, turn.client = some c → Gone room world' c := by
  obtain ⟨r, found, le⟩ := (kept.turn turn running).residency
  obtain ⟨-, r', found', later⟩ := generation_reaches kept.sound path found
  obtain ⟨world', eq, more, gone⟩ := @recover_shape room
    { s with world := world, stream := none } turn running elsewhere r' found'
    (fun c leased => (le c leased).trans later) reason
  exact ⟨world', eq, path.trans more, gone⟩

theorem settles_of_gone {world : RoomRetention}
    (gone : ∀ c, turn.client = some c → Gone room world c) : Settles room world turn := by
  intro _ _
  cases leased : turn.client with
  | none => exact absurd ((kept.turn turn running).client.1 leased) elsewhere
  | some c => exact ⟨c, rfl, gone c leased⟩

theorem leaveConverse_exits {world : RoomRetention} (path : retention.Reaches s.world world)
    (settles : Settles room world turn) (unseeded : Bool) :
    Exits room s turn .leaving
      (leaveConverse room { s with world := world, stream := none } turn unseeded) := by
  unfold leaveConverse
  cases unseeded with
  | true =>
    obtain ⟨world', eq, path', gone⟩ :=
      recover_from kept running elsewhere path "Turn left its session unseeded"
    rw [if_pos rfl, eq]
    exact ⟨world', rfl, path', settles_of_gone kept running elsewhere gone⟩
  | false => exact ⟨world, rfl, path, settles⟩

theorem failTurn_exits (reason : String) : Exits room s turn .failing (s.close.failTurn room turn reason) := by
  obtain ⟨world, eq, path, gone⟩ :=
    recover_from kept running elsewhere (Machine.Reaches.refl s.world) reason
  refine ⟨world, ?_, path, settles_of_gone kept running elsewhere gone⟩
  exact congrArg (fun s : ClaudeRoomSession => s.go turn .failing) eq

/-- Recovered, then out of `_converse`. -/
theorem recovered_exits (reason : String) (unseeded : Bool) :
    Exits room s turn .leaving
      ((s.close.recover room reason).leaveConverse room turn unseeded) := by
  obtain ⟨world, eq, path, gone⟩ :=
    recover_from kept running elsewhere (Machine.Reaches.refl s.world) reason
  have settles := settles_of_gone kept running elsewhere gone
  rw [show s.close.recover room reason = { s with world := world, stream := none } from eq]
  exact leaveConverse_exits kept running elsewhere path settles unseeded

/-- **The except clauses of `_converse`.**  Two of them do not recover: they are met only by a
turn that read its result, or has recovered. -/
theorem raised_exits {error : TurnError}
    (ends : error.foreign = true ∨ Settles room s.world turn) (unseeded : Bool) :
    ∃ point, (point = .failing ∨ point = .leaving) ∧
      Exits room s turn point (s.raised room turn unseeded error) := by
  have left : Settles room s.world turn → Exits room s turn .leaving
      (s.close.leaveConverse room turn unseeded) := fun settles =>
    leaveConverse_exits kept running elsewhere (Machine.Reaches.refl s.world) settles unseeded
  cases error with
  | reported | delivery =>
    rcases ends with impossible | settles
    · cases impossible
    · exact ⟨.leaving, .inr rfl, left settles⟩
  | connection text => exact ⟨.failing, .inl rfl, failTurn_exits kept running elsewhere _⟩
  | other text => exact ⟨.failing, .inl rfl, failTurn_exits kept running elsewhere _⟩

theorem Kept.exits {point : TurnPoint} (out : point = .failing ∨ point = .leaving)
    (exits : Exits room s turn point s') : Kept room s' ∧ Waits room s' := by
  obtain ⟨world, rfl, path, settles⟩ := exits
  have moved := kept.world path
  have own := moved.turn turn running
  have leased : turn.client ≠ none := fun unleased => elsewhere (own.client.1 unleased)
  refine ⟨moved.turnTo running rfl rfl rfl moved.yielded moved.completions { own with
    client := ⟨fun unleased => absurd unleased leased, fun entering => ?_⟩
    early := fun early => ?_
    completing := fun completing => ?_
    listens := fun listens => ?_
    silent := fun _ => rfl
    done := fun _ => settles
    stream := nofun }, waits_of_point fun other now => ?_⟩
  · rcases out with rfl | rfl <;> cases entering
  · rcases out with rfl | rfl <;> rcases early with h | h <;> cases h
  · rcases out with rfl | rfl <;> cases completing
  · rcases out with rfl | rfl <;> cases listens
  · cases now
    rcases out with rfl | rfl <;> exact nofun

end Exits

end ClaudeRoomSession

end BandSdk.ClaudeSdk

/-
# ClaudeSdk.Heard -- the steps of a turn, and what holds of every sequence of turns

Each step keeps the session's invariant; `turns_hear_their_own` reads the result off it, over
every run.  A turn stopped before `_converse`, with its history not fetched or its task
cancelled meanwhile, has sent nothing and leaves its residency to the next turn:
`unqueried_turn_keeps_its_residency` is a run that does.
-/
import BandSdk.ClaudeSdk.Conversations

namespace BandSdk.ClaudeSdk

open BandSdk.Theory BandSdk.Retention RetainedRoom RoomRetention List Option ClaudeRoomSession

namespace ClaudeRoomSession

variable {room : Nat} {s s' : ClaudeRoomSession} {turn : Turn}

/-! ## While the stream is open -/

theorem StreamKept.sub {stream stream' : TurnStream} (heard : StreamKept room s turn stream)
    (completed : stream'.completed = stream.completed)
    (sub : ∀ item ∈ stream'.messages, item ∈ stream.messages) :
    StreamKept room s turn stream' where
  mine message member := by
    rw [completed]
    exact heard.mine message (sub _ member)
  completed done := heard.completed (completed ▸ done)
  ending error member := by
    rw [completed]
    exact heard.ending error (sub _ member)
  foreign error member := heard.foreign error (sub _ member)

theorem TurnKept.read (own : TurnKept room s turn) (read : turn.resulted = true) :
    turn.queried = true ∧ ∀ g, turn.id ∉ (s.clis g).tags := by
  refine ⟨?_, own.resulted read⟩
  by_contra unsent
  rw [(own.unqueried (by simpa using unsent)).1] at read
  cases read

section

variable (kept : s.Kept room) (running : s.turn = some turn) (listens : turn.point.listens = true)
include kept running listens

/-- The turn goes on listening, at another await or with its result read. -/
theorem Kept.hears {point : TurnPoint} {read : Bool} {stream : TurnStream}
    {yielded completions : List (Nat × Message)} (on : point.listens = true)
    (heard : StreamKept room s turn stream) (told : ∀ entry ∈ yielded, entry.2.query = entry.1)
    (closed : ∀ entry ∈ completions, entry.2.query = entry.1 ∧ entry.2.isResult = true)
    (resulted : read = true → turn.queried = true ∧ ∀ g, turn.id ∉ (s.clis g).tags)
    (completing : point = .completing → read = true)
    (done : point.done = true → Settles room s.world { turn with resulted := read }) :
    Kept room { s with
      turn := some { turn with point := point, resulted := read }
      stream := some stream, yielded := yielded, completions := completions } ∧
    Waits room { s with
      turn := some { turn with point := point, resulted := read }
      stream := some stream, yielded := yielded, completions := completions } := by
  have own := kept.turn turn running
  have leased : turn.client ≠ none := fun unleased => by
    rw [own.client.1 unleased] at listens
    cases listens
  have away : point ≠ .entering ∧ point ≠ .seeding :=
    ⟨fun h => (by rw [h] at on; cases on), fun h => (by rw [h] at on; cases on)⟩
  refine ⟨kept.turnTo running rfl rfl rfl told closed { own with
    client := ⟨fun unleased => absurd unleased leased, fun entering => absurd entering away.1⟩
    early := fun early => (early.elim away.1 away.2).elim
    unqueried := fun unsent => ⟨?_, (own.unqueried unsent).2⟩
    resulted := fun done => (resulted done).2
    completing := completing
    listens := fun _ => ⟨(own.listens listens).1, nofun⟩
    silent := fun silent => by rw [on] at silent; cases silent
    done := done
    stream := fun st now => by cases now; exact ⟨heard.mine, heard.completed, heard.ending, heard.foreign⟩ },
    waits_of_point fun other now => ?_⟩
  · cases isRead : read with
    | false => rfl
    | true =>
      have sent := (resulted isRead).1
      rw [show turn.queried = false from unsent] at sent
      cases sent
  · cases now
    exact away.1

theorem Kept.go_listening {point : TurnPoint} (on : point.listens = true)
    (short : point ≠ .completing) (done : point.done = true → Settles room s.world turn) :
    Kept room (s.go turn point) ∧ Waits room (s.go turn point) := by
  have own := kept.turn turn running
  obtain ⟨stream, open_⟩ := Option.ne_none_iff_exists'.1 (own.listens listens).2
  have went := kept.hears running listens on (own.stream stream open_) kept.yielded
    kept.completions own.read (fun completing => absurd completing short) done
  rw [← open_] at went
  exact went

/-- A drain that failed: the residency is retired, and the time limit reported. -/
theorem Kept.recovers (reason : String) :
    Kept room ((s.recover room reason).go turn .reporting) ∧
      Waits room ((s.recover room reason).go turn .reporting) := by
  have elsewhere : turn.point ≠ .entering := fun h => by rw [h] at listens; cases listens
  obtain ⟨r, found, le⟩ := (kept.turn turn running).residency
  obtain ⟨world, eq, path, gone⟩ := recover_shape running elsewhere found le reason
  rw [eq]
  exact (kept.world path).go_listening running listens rfl nofun fun _ =>
    settles_of_gone kept running elsewhere gone

theorem Kept.undrained (error : TurnError) :
    Kept room (s.undrained room turn error) ∧ Waits room (s.undrained room turn error) := by
  cases error with
  | connection text => exact kept.recovers running listens _
  | reported | delivery => exact kept.recovers running listens _
  | other text => exact kept.recovers running listens _

end

section Items

variable (kept : s.Kept room) (running : s.turn = some turn) (listens : turn.point.listens = true)
  {stream : TurnStream} (open_ : s.stream = some stream)

include kept running listens open_

omit listens in
/-- A message taken off the stream is the turn's own, and a result ends its answer. -/
theorem Kept.take {message : Message} {rest : List StreamItem}
    (messages : stream.messages = .message message :: rest) :
    StreamKept room s turn { stream with messages := rest } ∧
      (∀ entry ∈ s.yielded ++ [(turn.id, message)], entry.2.query = entry.1) ∧
      (message.isResult = true → stream.completed = true ∧ turn.queried = true ∧
        ∀ g, turn.id ∉ (s.clis g).tags) ∧ message.query = turn.id := by
  have heard := (kept.turn turn running).stream stream open_
  obtain ⟨mine, -, completes⟩ := heard.mine message (by rw [messages]; exact mem_cons_self)
  refine ⟨heard.sub rfl fun item member => by rw [messages]; exact mem_cons_of_mem _ member,
    fun entry member => ?_, fun result => ⟨completes result, heard.completed (completes result)⟩, mine⟩
  rcases mem_concat member with old | new
  · exact kept.yielded entry old
  · rw [new]
    exact mine

theorem Kept.readNext {unseeded complete : Bool}
    (next : s.readNext room turn unseeded complete stream = some s') :
    Kept room s' ∧ Waits room s' := by
  have elsewhere : turn.point ≠ .entering := fun h => by rw [h] at listens; cases listens
  unfold ClaudeRoomSession.readNext at next
  split at next
  · cases next
  · rename_i message rest messages
    cases next
    obtain ⟨heard, told, ends, mine⟩ := kept.take running open_ messages
    split
    · rename_i result
      refine kept.hears running listens rfl heard told (fun entry member => ?_)
        (fun _ => (ends result).2) (fun _ => rfl) nofun
      rcases mem_concat member with old | new
      · exact kept.completions entry old
      · rw [new]
        exact ⟨mine, result⟩
    · exact kept.hears running listens rfl heard told kept.completions
        (kept.turn turn running).read nofun nofun
  · rename_i error rest messages
    cases next
    have known := ((kept.turn turn running).stream stream open_).foreign error
      (by rw [messages]; exact mem_cons_self)
    obtain ⟨point, out, exits⟩ := raised_exits kept running elsewhere (.inl known) unseeded
    exact kept.exits running elsewhere out exits
  · rename_i rest messages
    cases next
    split
    · exact kept.exits running elsewhere (.inr rfl)
        (recovered_exits kept running elsewhere "CLI stream ended after the turn" unseeded)
    · have dead : (TurnError.connection streamEndedWithoutResultError).foreign = true := rfl
      obtain ⟨point, out, exits⟩ := raised_exits kept running elsewhere (.inl dead) unseeded
      exact kept.exits running elsewhere out exits

theorem Kept.drainNext (next : s.drainNext room turn stream = some s') : Kept room s' ∧ Waits room s' := by
  unfold ClaudeRoomSession.drainNext at next
  split at next
  · cases next
  · rename_i message rest messages
    cases next
    obtain ⟨heard, told, ends, -⟩ := kept.take running open_ messages
    split
    · rename_i result
      unfold drained
      rw [if_pos (ends result).1]
      exact kept.hears running listens rfl heard told kept.completions (fun _ => (ends result).2)
        nofun fun _ _ unread => by cases unread
    · exact kept.hears running listens rfl heard told kept.completions
        (kept.turn turn running).read nofun nofun
  · rename_i error rest messages
    cases next
    have heard := (kept.turn turn running).stream stream open_
    have ended : .streamEnd error ∈ stream.messages := by
      rw [messages]
      exact mem_cons_self
    have put : StreamKept room s turn
        { stream with messages := rest ++ [StreamItem.streamEnd error] } := by
      refine heard.sub rfl fun item member => ?_
      rcases mem_concat member with old | new
      · rw [messages]
        exact mem_cons_of_mem _ old
      · rw [new]
        exact ended
    have still := kept.streamTo running listens
      ⟨put.mine, put.completed, put.ending, put.foreign⟩
    split
    · exact still.undrained running listens _
    -- the output ended, so no result was delivered
    unfold drained
    rw [if_neg (by simp [(heard.ending _ ended).1])]
    exact still.undrained running listens _

end Items

/-! ## Into the conversation, and out of the lease -/

section

variable (kept : s.Kept room)
include kept

section

variable (running : s.turn = some turn)
include running

section

variable (seeding : turn.point = .seeding)
include seeding

theorem Kept.go_leaving : Kept room (s.go turn .leaving) ∧ Waits room (s.go turn .leaving) := by
  have own := kept.turn turn running
  have unopened := own.early (.inr seeding)
  have silent := own.silent (by rw [seeding]; rfl)
  have exits : Exits room s turn .leaving (s.go turn .leaving) := by
    refine ⟨s.world, ?_, Machine.Reaches.refl _, fun opened => ?_⟩
    · rw [← silent]
      rfl
    · rw [unopened] at opened
      cases opened
  exact kept.exits running (by rw [seeding]; exact nofun) (.inr rfl) exits

theorem Kept.failTurn (reason : String) :
    Kept room (s.failTurn room turn reason) ∧ Waits room (s.failTurn room turn reason) := by
  have silent := (kept.turn turn running).silent (by rw [seeding]; rfl)
  have elsewhere : turn.point ≠ .entering := by rw [seeding]; exact nofun
  have closed : s.close = s := by
    unfold close
    rw [← silent]
  have exits := failTurn_exits kept running elsewhere reason
  rw [closed] at exits
  exact kept.exits running elsewhere (.inl rfl) exits

theorem Kept.listen : Kept room (s.listen room turn) ∧ Waits room (s.listen room turn) := by
  have own := kept.turn turn running
  have unopened := own.early (.inr seeding)
  have silent := own.silent (by rw [seeding]; rfl)
  have unsent := own.unopened unopened
  have leased : turn.client ≠ none := fun unleased => by
    have := own.client.1 unleased
    rw [seeding] at this
    cases this
  unfold ClaudeRoomSession.listen
  rw [silent]
  refine ⟨kept.turnTo running rfl rfl rfl kept.yielded kept.completions { own with
    client := ⟨fun unleased => absurd unleased leased, nofun⟩
    early := fun early => by rcases early with h | h <;> cases h
    unopened := nofun
    completing := nofun
    listens := fun _ => ⟨rfl, nofun⟩
    silent := nofun
    done := nofun
    stream := fun st now => ?_ }, waits_of_point fun other now => ?_⟩
  · cases now
    exact ⟨fun _ => nofun, nofun, fun _ => nofun, fun _ => nofun⟩
  · cases now
    exact nofun

end

/-- The query is sent, the first of this turn: nothing unread answers it yet. -/
theorem Kept.written (sent : s.written turn = some s') : Kept room s' ∧ Waits room s' := by
  unfold ClaudeRoomSession.written at sent
  split at sent
  · rename_i g at_ unqueried leased
    cases sent
    have own := kept.turn turn running
    obtain ⟨unread, fresh⟩ := own.unqueried unqueried
    have listens : turn.point.listens = true := by rw [at_]; rfl
    have member_cases : ∀ {g' query : Nat}, query ∈ ((s.setCli g { s.clis g with
        owed := (s.clis g).owed ++ [turn.id] }).clis g').tags →
        query ∈ (s.clis g').tags ∨ query = turn.id ∧ g' = g := by
      intro g' query member
      by_cases same : g' = g
      · subst same
        rw [clis_setCli_self] at member
        exact (Cli.mem_tags_send member).imp id fun now => ⟨now, rfl⟩
      · rw [clis_setCli_of_ne _ _ same] at member
        exact .inl member
    have unsent : ∀ {g' : Nat}, ¬ s.Own g' turn.id := by
      rintro g' ⟨turn₀, was, -, -, queried⟩
      rw [running] at was
      cases was
      rw [unqueried] at queried
      cases queried
    refine ⟨{ kept with
      ordered := fun g' => ?_, issued := fun g' query member => ?_
      known := fun g' query member => ?_, ended := fun past member => ?_, idle := nofun
      turn := fun other now => ?_ }, waits_of_point fun other now => ?_⟩
    · by_cases same : g' = g
      · subst same
        show Cli.Ordered ((s.setCli g' _).clis g')
        rw [clis_setCli_self]
        exact (kept.ordered g').send (fresh g')
      · show Cli.Ordered ((s.setCli g _).clis g')
        rw [clis_setCli_of_ne _ _ same]
        exact kept.ordered g'
    · rcases member_cases member with old | ⟨rfl, -⟩
      · exact kept.issued g' query old
      · exact own.id
    · rcases member_cases member with old | ⟨rfl, rfl⟩
      · rcases kept.known g' query old with ⟨turn₀, was, -, -, queried⟩ | ⟨retired, other⟩
        · rw [running] at was
          cases was
          rw [unqueried] at queried
          cases queried
        · refine .inr ⟨retired.mono retired.1 fun turn' c now at_c => ⟨turn, running, ?_⟩, ?_⟩
          · cases now
            exact at_c
          · intro turn' now
            cases now
            exact other turn running
      · exact .inl ⟨_, rfl, rfl, leased, rfl⟩
    · refine ⟨(kept.ended past member).1, fun opened stopped => ?_⟩
      obtain ⟨c, at_c, retired⟩ := (kept.ended past member).2 opened stopped
      refine ⟨c, at_c, retired.mono retired.1 fun turn' c' now at_c' => ⟨turn, running, ?_⟩⟩
      cases now
      exact at_c'
    · cases now
      exact { own with
        unopened := fun unopened => by rw [(own.listens listens).1] at unopened; cases unopened
        unqueried := nofun
        resulted := fun read => by rw [show turn.resulted = true from read] at unread; cases unread
        stream := fun st open_ =>
          have heard := own.stream st open_
          have unfinished : st.completed = false := by
            by_contra finished
            have := (heard.completed (by simpa using finished)).1
            rw [unqueried] at this
            cases this
          { mine := fun message member => by
              have := (heard.mine message member).2.1
              rw [unqueried] at this
              cases this
            completed := fun finished => by rw [unfinished] at finished; cases finished
            ending := fun error member => ⟨unfinished, fun c at_c => by
              rcases (heard.ending error member).2 c at_c with ended | older
              · left
                show ((s.setCli g _).clis c).reader = .ended
                by_cases same : c = g
                · subst same
                  rw [clis_setCli_self]
                  exact ended
                · rw [clis_setCli_of_ne _ _ same]
                  exact ended
              · exact .inr older⟩
            foreign := heard.foreign } }
    · cases now
      show turn.point ≠ .entering
      rw [at_]
      exact nofun
  · cases sent

/-! ## One loop step -/

theorem Kept.resumeListening (listens : turn.point.listens = true) {ended : AwaitEnd} {unseeded complete : Bool}
    (resumed : s.resumeTurn room turn ended unseeded complete = some s') :
    Kept room s' ∧ Waits room s' := by
  have own := kept.turn turn running
  have elsewhere : turn.point ≠ .entering := fun h => by rw [h] at listens; cases listens
  obtain ⟨stream, open_⟩ := Option.ne_none_iff_exists'.1 (own.listens listens).2
  have raises : ∀ error : TurnError, error.foreign = true ∨ Settles room s.world turn →
      Kept room (s.raised room turn unseeded error) ∧
        Waits room (s.raised room turn unseeded error) := fun error ends => by
    obtain ⟨point, out, exits⟩ := raised_exits kept running elsewhere ends unseeded
    exact kept.exits running elsewhere out exits
  have cancels : Kept room (s.cancelled room turn unseeded) ∧ Waits room (s.cancelled room turn unseeded) :=
    kept.exits running elsewhere (.inr rfl)
      (recovered_exits kept running elsewhere "Turn cancelled before its result" unseeded)
  have goes : ∀ point : TurnPoint, point.listens = true → point ≠ .completing →
      point.done = false → Kept room (s.go turn point) ∧ Waits room (s.go turn point) :=
    fun point on short before => kept.go_listening running listens on short fun done => by
      rw [before] at done
      cases done
  have reads : turn.resulted = true → Settles room s.world turn := fun read _ unread => by
    rw [read] at unread
    cases unread
  unfold resumeTurn at resumed
  cases at_ : turn.point with
  | entering | seeding | failing | leaving =>
    rw [at_] at listens
    cases listens
  | querying | dispatching =>
    rw [at_] at resumed
    cases ended with
    | returned =>
      cases resumed
      exact goes .reading rfl nofun rfl
    | raised error =>
      obtain ⟨foreign, ⟨⟩⟩ := of_passed resumed
      exact raises error (.inl foreign)
    | expired =>
      cases resumed
      exact goes .interrupting rfl nofun rfl
    | cancelled =>
      cases resumed
      exact cancels
  | reading =>
    rw [at_] at resumed
    cases ended with
    | returned =>
      rw [open_] at resumed
      exact kept.readNext running listens open_ resumed
    | raised error =>
      obtain ⟨foreign, ⟨⟩⟩ := of_passed resumed
      exact raises error (.inl foreign)
    | expired =>
      cases resumed
      exact goes .interrupting rfl nofun rfl
    | cancelled =>
      cases resumed
      exact cancels
  | completing =>
    rw [at_] at resumed
    have settles := reads (own.completing at_)
    cases ended with
    | returned =>
      cases resumed
      exact kept.exits running elsewhere (.inr rfl)
        (leaveConverse_exits kept running elsewhere (Machine.Reaches.refl _) settles unseeded)
    | raised error =>
      cases resumed
      exact raises error (.inr settles)
    | expired =>
      cases resumed
      exact goes .interrupting rfl nofun rfl
    | cancelled =>
      cases resumed
      exact cancels
  | interrupting =>
    rw [at_] at resumed
    cases ended with
    | returned =>
      cases resumed
      exact goes .draining rfl nofun rfl
    | raised error =>
      cases resumed
      exact kept.undrained running listens error
    | expired =>
      cases resumed
      exact kept.undrained running listens _
    | cancelled =>
      cases resumed
      exact cancels
  | draining =>
    rw [at_] at resumed
    cases ended with
    | returned =>
      rw [open_] at resumed
      exact kept.drainNext running listens open_ resumed
    | raised error =>
      cases resumed
      exact kept.undrained running listens error
    | expired =>
      cases resumed
      exact kept.undrained running listens _
    | cancelled =>
      cases resumed
      exact cancels
  | reporting =>
    rw [at_] at resumed
    have settles := own.done (by rw [at_]; rfl)
    cases ended with
    | returned =>
      cases resumed
      exact raises .reported (.inr settles)
    | raised error =>
      cases resumed
      exact raises error (.inr settles)
    | expired => cases resumed
    | cancelled =>
      cases resumed
      exact cancels

theorem Kept.resumeTurn {ended : AwaitEnd} {unseeded complete : Bool}
    (resumed : s.resumeTurn room turn ended unseeded complete = some s') :
    Kept room s' ∧ Waits room s' := by
  by_cases listens : turn.point.listens = true
  · exact kept.resumeListening running listens resumed
  have own := kept.turn turn running
  unfold ClaudeRoomSession.resumeTurn at resumed
  cases at_ : turn.point with
  | querying | reading | dispatching | completing | interrupting | draining | reporting =>
    rw [at_] at listens
    exact absurd rfl listens
  | entering | leaving =>
    rw [at_] at resumed
    cases resumed
  | seeding =>
    rw [at_] at resumed
    cases ended with
    | returned =>
      cases resumed
      exact kept.listen running at_
    | expired => cases resumed
    | raised error | cancelled =>
      cases resumed
      exact kept.go_leaving running at_
  | failing =>
    rw [at_] at resumed
    have left : some (s.leaveConverse room turn unseeded) = some s' := by
      cases ended with
      | expired => cases resumed
      | returned | raised error | cancelled => exact resumed
    cases left
    have elsewhere : turn.point ≠ .entering := by rw [at_]; exact nofun
    have silent := own.silent (by rw [at_]; rfl)
    have closed : { s with stream := none } = s := by rw [← silent]
    have exits := leaveConverse_exits kept running elsewhere (Machine.Reaches.refl s.world)
      (own.done (by rw [at_]; rfl)) unseeded
    rw [show { s with world := s.world, stream := none } = s from closed] at exits
    exact kept.exits running elsewhere (.inr rfl) exits

theorem Kept.leave (leaving : turn.point = .leaving) {event : RetentionEvent} {world : RoomRetention}
    (stepped : s.world.step event = some world) :
    Kept room (({ s with world := world } : ClaudeRoomSession).depart turn) ∧
      Waits room (({ s with world := world } : ClaudeRoomSession).depart turn) := by
  have path : retention.Reaches s.world world :=
    ⟨[event], Machine.run_cons_eq_some.2 ⟨_, stepped, rfl⟩⟩
  have moved := kept.world path
  have own := moved.turn turn running
  have silent := own.silent (by rw [leaving]; rfl)
  have settles := own.done (by rw [leaving]; rfl)
  exact ⟨moved.depart running silent settles, waits_of_point fun other now => by cases now⟩

end

theorem Kept.admitTurn {holder : TaskId}
    (admitted : s.admitTurn room holder = some s') : Kept room s' ∧ Waits room s' := by
  unfold ClaudeRoomSession.admitTurn at admitted
  split at admitted
  · rename_i r idle found
    obtain ⟨world, stepped, rfl⟩ := map_eq_some_iff.1 admitted
    have silent := kept.idle idle
    have retired : ∀ {g : Nat}, Gone room s.world g → Retired room { s with
        turn := some { id := s.admitted, use := r.uses.length }
        admitted := s.admitted + 1 } g := by
      refine fun gone => ⟨gone, fun turn c now leased => ?_⟩
      cases now
      cases leased
    have begun : Kept room { s with
        turn := some { id := s.admitted, use := r.uses.length }
        admitted := s.admitted + 1 } := by
      refine { kept with
        issued := fun g query member => Nat.lt_succ_of_lt (kept.issued g query member)
        known := fun g query member => .inr ?_, ended := fun past member => ?_
        idle := nofun, turn := fun turn now => ?_ }
      · rcases kept.known g query member with ⟨turn, was, -⟩ | ⟨gone, -⟩
        · rw [idle] at was
          cases was
        · refine ⟨retired gone.1, fun turn now => ?_⟩
          cases now
          have issued := kept.issued g query member
          show s.admitted ≠ query
          omega
      · refine ⟨(kept.ended past member).1, fun opened stopped => ?_⟩
        obtain ⟨c, leased, gone⟩ := (kept.ended past member).2 opened stopped
        exact ⟨c, leased, retired gone.1⟩
      · cases now
        exact {
          id := Nat.lt_succ_self _
          client := ⟨fun _ => rfl, fun _ => rfl⟩
          residency := ⟨r, found, nofun⟩
          early := fun _ => rfl
          unopened := fun _ => rfl
          unqueried := fun _ => ⟨rfl, fun g member => by
            have issued : s.admitted < s.admitted := kept.issued g s.admitted member
            omega⟩
          resulted := nofun
          completing := nofun
          listens := nofun
          silent := fun _ => silent
          done := nofun
          stream := fun st open_ => by
            rw [show s.stream = some st from open_] at silent
            cases silent }
    have waits : Waits room { s with
        turn := some { id := s.admitted, use := r.uses.length }
        admitted := s.admitted + 1 } := by
      rintro turn q now - at_ ⟨use, present, -⟩
      cases now
      rw [show s.world.rooms[room]? = some q from at_] at found
      cases found
      rw [getElem?_eq_none (Nat.le_refl _)] at present
      cases present
    exact begun.moved waits stepped
  · cases admitted

/-- **One step of the session.** -/
theorem Kept.step (waits : s.Waits room) {event : SessionEvent}
    (stepped : s.step room event = some s') : Kept room s' ∧ Waits room s' := by
  cases event with
  | retention event =>
    obtain ⟨-, stepped⟩ := of_barred stepped
    obtain ⟨world, ran, rfl⟩ := map_eq_some_iff.1 stepped
    exact kept.moved waits ran
  | admitTurn holder => exact kept.admitTurn stepped
  | emit g kind =>
    obtain ⟨next, emitted, rfl⟩ := map_eq_some_iff.1 stepped
    exact ⟨kept.cli ((kept.ordered g).emit emitted), waits⟩
  | receive g =>
    obtain ⟨next, received, rfl⟩ := map_eq_some_iff.1 stepped
    exact ⟨kept.cli ((kept.ordered g).receive received), waits⟩
  | observed g => exact kept.observed waits stepped
  | readEnded g error => exact kept.readEnded waits stepped
  | written =>
    obtain ⟨turn, running, sent⟩ := bind_eq_some_iff.1 stepped
    exact kept.written running sent
  | refuse =>
    obtain ⟨turn, running, refused⟩ := bind_eq_some_iff.1 stepped
    obtain ⟨seeding, ⟨⟩⟩ := of_passed refused
    exact kept.failTurn running seeding _
  | resume ended unseeded complete =>
    obtain ⟨turn, running, resumed⟩ := bind_eq_some_iff.1 stepped
    exact kept.resumeTurn running resumed
  | leave outcome =>
    obtain ⟨turn, running, left⟩ := bind_eq_some_iff.1 stepped
    obtain ⟨leaving, left⟩ := of_passed left
    obtain ⟨world, ran, rfl⟩ := map_eq_some_iff.1 left
    exact kept.leave running leaving ran

end

theorem Kept.reachable (reached : (session room).Reachable s) : s.Kept room ∧ s.Waits room := by
  refine reached.invariant (P := fun s => s.Kept room ∧ s.Waits room) ?_ ?_
  · rintro s ⟨world, start, rfl⟩
    refine ⟨{
      sound := Sound.initial start
      ordered := fun _ => Cli.ordered_new
      issued := fun _ _ member => by cases member
      known := fun _ _ member => by cases member
      ended := fun _ member => by cases member
      yielded := fun _ member => by cases member
      completions := fun _ member => by cases member
      idle := fun _ => rfl
      turn := nofun }, waits_of_point fun turn now => by cases now⟩
  · exact fun s event s' before stepped => before.1.step before.2 stepped

end ClaudeRoomSession

/-- The start of the CLI that use `u` waits for, as transition `t`. -/
def started (t u : Nat) : List SessionEvent :=
  [.retention (.room 0 (.runTransition t)), .retention (.room 0 (.acquireReturned t .returned)),
    .retention (.room 0 (.transitionDone t)), .retention (.room 0 (.resumeUse u .ready))]

end BandSdk.ClaudeSdk

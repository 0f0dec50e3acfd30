/-
# Retention.Runs -- rooms under their owner, and whole runs

`Moves` is one room across one step of the retention, with the owner's view
before and after.  `Sound` is the invariant of the whole owner: every room keeps
its own, a room is registered exactly until it is closed, and a shutdown task
waits for every registered room.  `Sound.step` is the one case analysis over the
owner's events; what holds along runs follows from it by induction.
-/
import BandSdk.Retention.Steps
import BandSdk.Retention.Owner

namespace BandSdk.Retention

open BandSdk.Theory List Option

namespace RetainedRoom

variable {o o' : OwnerView} {r r' : RetainedRoom}

structure Moves (o o' : OwnerView) (r r' : RetainedRoom) : Prop where
  inv : r'.Inv o'
  kept : ∀ t, r.inFlight = some t → r'.transition = some t
  generation : r.generation ≤ r'.generation
  retired : ∀ g ≤ r.generation, r.hasAuthority o g = false → r'.hasAuthority o' g = false
  cause : strength r.cause ≤ strength r'.cause ∨ r.Cleared r'
  bodies : ∀ u, r'.BodyAt u → r.BodyAt u ∨ r'.Ready o'
  ledger : r.Ledger o → r'.Ledger o'
  closed : r.state = .closed → r'.state = .closed

theorem Advance.moves (advance : r.Advance o r') : r.Moves o o r' :=
  ⟨advance.inv, advance.kept, advance.generation, advance.retired, advance.cause, advance.bodies,
    advance.ledger, advance.closed⟩

theorem Moves.answered (moves : r.Moves o o' r') : r.Moves o o' { r' with ownerCalls := [] } :=
  { moves with
    inv := ⟨{ moves.inv.1 with }, moves.inv.2.1, moves.inv.2.2⟩
    ledger := fun ledger =>
      ⟨(moves.ledger ledger).vacant, (moves.ledger ledger).ordered, (moves.ledger ledger).disposed⟩ }

section View

variable (later : o.stopping = true → o'.stopping = true)

include later

theorem isClosing_later (closing : r.isClosing o = true) : r.isClosing o' = true := by
  simp only [isClosing, Bool.or_eq_true] at closing ⊢
  exact closing.imp id later

/-- The invariant reads the owner only through `stopping`, and only to excuse. -/
theorem Core.mono_view (core : r.Core o) : r.Core o' where
  live := core.live
  transition_lt := core.transition_lt
  disposal := core.disposal
  disposal_closing := core.disposal_closing
  closing_final := core.closing_final
  resident_cause := core.resident_cause
  suspended_cause h := (core.suspended_cause h).imp id (isClosing_later later)
  owed_cause := core.owed_cause
  closed := core.closed
  leases_count := core.leases_count
  holders_count := core.holders_count
  initiator use member left t residing := by
    rcases core.initiator use member left t residing with h | h | h | h
    · exact .inl h
    · exact .inr (.inl h)
    · exact .inr (.inr (.inl h))
    · exact .inr (.inr (.inr ⟨h.1, isClosing_later later h.2⟩))
  enrolled := core.enrolled
  generation_count := core.generation_count
  cancelled := core.cancelled

theorem hasAuthority_later (g : Nat) (lost : r.hasAuthority o g = false) : r.hasAuthority o' g = false := by
  by_contra regained
  obtain ⟨current, admitting, rest⟩ := (authority_eq g).1 (by simpa using regained)
  have before : r.isClosing o = false := by
    by_contra closing
    have := isClosing_later later (by simpa using closing)
    rw [admitting] at this
    cases this
  have kept := (authority_eq (o := o) g).2 ⟨current, before, rest⟩
  rw [lost] at kept
  cases kept

theorem Good.moves (good : r.Good o r') (uses : r'.uses = r.uses) : r.Moves o o' r' where
  inv := ⟨good.1.1.mono_view later, good.1.2⟩
  kept := good.2.kept good.1
  generation := good.2.generation
  retired g le lost := hasAuthority_later later g (good.2.retired g le lost)
  cause := .inl good.2.cause
  bodies u body := .inl (bodyAt_of_uses uses u body)
  ledger ledger :=
    have kept := good.2.ledger ledger
    ⟨fun h => (kept.vacant h).imp (isClosing_later later) id, kept.ordered, kept.disposed⟩
  closed := good.2.closed.2

end View

end RetainedRoom

open RetainedRoom

namespace RoomRetention

variable {w w' : RoomRetention}

structure Sound (w : RoomRetention) : Prop where
  room : ∀ (i : Nat) (r : RetainedRoom), w.rooms[i]? = some r →
    r.Inv w.view ∧ r.Ledger w.view ∧ r.ownerCalls = []
  registered : ∀ (i : Nat) (r : RetainedRoom), w.rooms[i]? = some r →
    ((∃ name, (name, i) ∈ w.registry) ↔ r.state ≠ .closed)
  indexed : ∀ entry ∈ w.registry, entry.2 < w.rooms.length
  stopping : w.shutdowns ≠ [] → w.stopping = true
  waiting : ∀ (s : Nat) (pending : List (Nat × Nat)), w.shutdowns[s]? = some (.waiting pending) →
    ∀ entry ∈ w.registry, ∃ d, (entry.2, d) ∈ pending
  finished : ∀ s : Nat, w.shutdowns[s]? = some (.finished .returned) → w.registry = []
  stopped : ∀ k : Nat, w.stops[k]? = some (.ended .returned) → w.registry = [] ∧ w.stopping = true

/-- Every room of `w` is still there in `w'`, moved by one step. -/
def Moved (w w' : RoomRetention) : Prop :=
  ∀ (i : Nat) (r : RetainedRoom), w.rooms[i]? = some r →
    ∃ r', w'.rooms[i]? = some r' ∧ r.Moves w.view w'.view r'

theorem Sound.closed_of_empty (sound : w.Sound) (empty : w.registry = []) :
    ∀ r ∈ w.rooms, r.state = .closed := by
  intro r member
  obtain ⟨i, found⟩ := mem_iff_getElem?.1 member
  by_contra open_
  obtain ⟨name, entry⟩ := (sound.registered i r found).2 open_
  rw [empty] at entry
  cases entry

theorem Sound.still (sound : w.Sound) {i : Nat} {r : RetainedRoom} (found : w.rooms[i]? = some r)
    {o' : OwnerView} (later : w.view.stopping = true → o'.stopping = true) :
    r.Moves w.view o' r :=
  Good.moves later (Good.refl (sound.room i r found).1) rfl

/-! ## A room's step, seen by the owner -/

theorem answer_foldl (i : Nat) (calls : List OwnerCall) (w : RoomRetention) :
    ∃ timer, calls.foldl (answer i) w = { w with
      registry := if .forget ∈ calls then w.registry.filter (·.2 != i) else w.registry
      timer := timer } := by
  induction calls generalizing w with
  | nil => exact ⟨w.timer, rfl⟩
  | cons call calls ih =>
    obtain ⟨timer, eq⟩ := ih (answer i w call)
    refine ⟨timer, ?_⟩
    rw [foldl_cons, eq]
    cases call with
    | reschedule => simp [answer, reschedule]
    | forget => simp [answer, forget, reschedule]

theorem putRoom_shape (w : RoomRetention) (i : Nat) (r : RetainedRoom) :
    ∃ timer, w.putRoom i r = { w with
      rooms := w.rooms.set i { r with ownerCalls := [] }
      registry := if .forget ∈ r.ownerCalls then w.registry.filter (·.2 != i) else w.registry
      timer := timer } :=
  answer_foldl i r.ownerCalls _

/-- The rooms of `w'` are those of `w`, one replaced by a room that advanced,
and the registry forgets it exactly when it closed. -/
theorem Sound.putRoom (sound : w.Sound) {i : Nat} {r r' : RetainedRoom}
    (found : w.rooms[i]? = some r) (advance : r.Advance w.view r') :
    (w.putRoom i r').Sound ∧ w.Moved (w.putRoom i r') := by
  obtain ⟨timer, eq⟩ := putRoom_shape w i r'
  obtain ⟨inv, ledger, uncalled⟩ := sound.room i r found
  have forgets : .forget ∈ r'.ownerCalls ↔ (r.state ≠ .closed ∧ r'.state = .closed) := by
    rw [advance.forgets, uncalled]
    simp
  have sub : ∀ entry ∈ (if .forget ∈ r'.ownerCalls then w.registry.filter (·.2 != i)
      else w.registry), entry ∈ w.registry := by
    intro entry member
    split at member
    · exact (mem_filter.1 member).1
    · exact member
  have empty : w.registry = [] → (if .forget ∈ r'.ownerCalls then w.registry.filter (·.2 != i)
      else w.registry) = [] := by
    intro none_
    rw [none_]
    simp
  have moves := advance.moves.answered
  have lookup : ∀ (j : Nat) (q : RetainedRoom), (w.rooms.set i { r' with ownerCalls := [] })[j]? = some q →
        (j = i ∧ q = { r' with ownerCalls := [] }) ∨ (j ≠ i ∧ w.rooms[j]? = some q) := by
    intro j q at_
    by_cases same : i = j
    · subst same
      rw [getElem?_set_self', found] at at_
      cases at_
      exact .inl ⟨rfl, rfl⟩
    · rw [getElem?_set_ne same] at at_
      exact .inr ⟨fun h => same h.symm, at_⟩
  rw [eq]
  refine ⟨⟨?_, ?_, ?_, sound.stopping, ?_, ?_, ?_⟩, ?_⟩
  · intro j q at_
    rcases lookup j q at_ with ⟨rfl, rfl⟩ | ⟨-, kept⟩
    · exact ⟨moves.inv, moves.ledger ledger, rfl⟩
    · exact sound.room j q kept
  · intro j q at_
    rcases lookup j q at_ with ⟨rfl, rfl⟩ | ⟨other, kept⟩
    · show (∃ name, (name, j) ∈ (if .forget ∈ r'.ownerCalls then w.registry.filter (·.2 != j)
        else w.registry)) ↔ r'.state ≠ .closed
      by_cases forgot : .forget ∈ r'.ownerCalls
      · rw [if_pos forgot]
        have closed := (forgets.1 forgot).2
        simp [closed]
      · rw [if_neg forgot, sound.registered j r found]
        have same : r'.state = .closed ↔ r.state = .closed := by
          refine ⟨fun closed => ?_, advance.closed⟩
          by_contra open_
          exact forgot (forgets.2 ⟨open_, closed⟩)
        rw [ne_eq, ne_eq, same]
    · rw [← sound.registered j q kept]
      refine exists_congr fun name => ?_
      show (name, j) ∈ (if .forget ∈ r'.ownerCalls then w.registry.filter (·.2 != i)
        else w.registry) ↔ _
      split
      · simp [mem_filter, other]
      · rfl
  · intro entry member
    rw [length_set]
    exact sound.indexed entry (sub entry member)
  · exact fun s pending at_ entry member => sound.waiting s pending at_ entry (sub entry member)
  · exact fun s at_ => empty (sound.finished s at_)
  · exact fun k at_ => ⟨empty (sound.stopped k at_).1, (sound.stopped k at_).2⟩
  intro j q at_
  by_cases same : i = j
  · subst same
    rw [found] at at_
    cases at_
    refine ⟨{ r' with ownerCalls := [] }, ?_, moves⟩
    show (w.rooms.set i _)[i]? = _
    rw [getElem?_set_self', found]
    rfl
  · refine ⟨q, ?_, sound.still at_ id⟩
    show (w.rooms.set i _)[j]? = _
    rw [getElem?_set_ne same, at_]

/-! ## The owner's own steps -/

/-- The owner moved rooms of its own accord: each grew, none was forgotten. -/
structure Tended (w w' : RoomRetention) : Prop where
  registry : w'.registry = w.registry
  later : w.view.stopping = true → w'.view.stopping = true
  length : w'.rooms.length = w.rooms.length
  room : ∀ (i : Nat) (r : RetainedRoom), w.rooms[i]? = some r →
    ∃ r', w'.rooms[i]? = some r' ∧ r.Good w.view r' ∧ r'.uses = r.uses ∧ r'.ownerCalls = []

theorem Tended.moved (tended : w.Tended w') : w.Moved w' := by
  intro i r found
  obtain ⟨r', found', good, uses, -⟩ := tended.room i r found
  exact ⟨r', found', good.moves tended.later uses⟩

theorem Tended.back (tended : w.Tended w') {i : Nat} {r' : RetainedRoom}
    (found' : w'.rooms[i]? = some r') : ∃ r, w.rooms[i]? = some r ∧ r.Good w.view r' ∧
      r'.uses = r.uses ∧ r'.ownerCalls = [] := by
  have lt : i < w.rooms.length := by
    rw [← tended.length]
    exact (List.getElem?_eq_some_iff.1 found').1
  obtain ⟨r'', found'', rest⟩ := tended.room i w.rooms[i] (List.getElem?_eq_getElem lt)
  rw [found'] at found''
  cases found''
  exact ⟨w.rooms[i], getElem?_eq_getElem lt, rest⟩

/-- Tending keeps the rooms' half of the invariant; the shutdown's half is the
caller's. -/
theorem Sound.tended (sound : w.Sound) (tended : w.Tended w')
    (stopping : w'.shutdowns ≠ [] → w'.stopping = true)
    (waiting : ∀ (s : Nat) (pending : List (Nat × Nat)), w'.shutdowns[s]? = some (.waiting pending) →
        ∀ entry ∈ w'.registry, ∃ d, (entry.2, d) ∈ pending)
    (finished : ∀ s : Nat, w'.shutdowns[s]? = some (.finished .returned) → w'.registry = [])
    (stopped : ∀ k : Nat, w'.stops[k]? = some (.ended .returned) →
      w'.registry = [] ∧ w'.stopping = true) : w'.Sound := by
  refine ⟨?_, ?_, ?_, stopping, waiting, finished, stopped⟩
  · intro i r' found'
    obtain ⟨r, found, good, uses, uncalled⟩ := tended.back found'
    obtain ⟨-, ledger, -⟩ := sound.room i r found
    have moves := good.moves tended.later uses
    exact ⟨moves.inv, moves.ledger ledger, uncalled⟩
  · intro i r' found'
    obtain ⟨r, found, good, -, -⟩ := tended.back found'
    rw [tended.registry, sound.registered i r found, ne_eq, ne_eq, good.2.closed]
  · intro entry member
    rw [tended.registry] at member
    rw [tended.length]
    exact sound.indexed entry member

theorem Tended.refl (sound : w.Sound) (later : w.view.stopping = true → w'.view.stopping = true)
    (rooms : w'.rooms = w.rooms) (registry : w'.registry = w.registry) : w.Tended w' := by
  refine ⟨registry, later, by rw [rooms], fun i r found => ⟨r, by rw [rooms, found], ?_, rfl, ?_⟩⟩
  · exact Good.refl (sound.room i r found).1
  · exact (sound.room i r found).2.2

/-- A room whose deadline is armed is quiet, admits work and has nothing in
flight, so its idle release may start. -/
theorem startIdleRelease_good {o : OwnerView} {r : RetainedRoom} (inv : r.Inv o)
    (armed : r.deadline ≠ none) : r.Good o r.startIdleRelease := by
  obtain ⟨state, open_, quiet⟩ := inv.2.deadline armed
  have noLive : r.NoLive := by
    intro t kind phase found
    by_contra unfinished
    have running := (inv.1.live t kind phase found (by simpa using unfinished)).2
    cases kind with
    | acquire =>
      rcases state with h | h <;> rw [Running, h] at running <;> cases running
    | release cause previous automatic =>
      rcases state with h | h <;> rw [Running, h] at running <;> cases running.1
  show r.Good o (r.startRelease .idle true)
  refine inv.startRelease noLive (inv.1.leases_zero quiet.2) ?_ ?_ (fun h => ?_)
    (inv.1.early_of_open open_) true
  · rcases state with h | h <;> rw [h] <;> simp
  · rcases state with h | h <;> rw [h] <;> simp
  · cases h

theorem ownerCalls_startRelease (r : RetainedRoom) (cause : ReleaseCause) (automatic : Bool) :
    (r.startRelease cause automatic).ownerCalls = r.ownerCalls := by
  obtain ⟨_, eq⟩ := startRelease_shape r cause automatic
  rw [eq]

theorem Sound.releaseDueRooms (sound : w.Sound) (due : Nat) : w.Tended (w.releaseDueRooms due) := by
  refine ⟨rfl, id, length_mapIdx, fun i r found => ?_⟩
  obtain ⟨inv, -, uncalled⟩ := sound.room i r found
  have lookup : (w.releaseDueRooms due).rooms[i]? = some (if w.registry.any (·.2 == i) &&
      (r.deadline.map (fun at_ => decide (at_ ≤ due))).getD false then r.startIdleRelease
      else r) := by
    show (w.rooms.mapIdx _)[i]? = _
    rw [getElem?_mapIdx, found]
    rfl
  refine ⟨_, lookup, ?_⟩
  split
  · rename_i fires
    have armed : r.deadline ≠ none := by
      intro none_
      rw [none_] at fires
      simp at fires
    exact ⟨startIdleRelease_good inv armed, uses_startRelease _ _,
      (ownerCalls_startRelease r _ _).trans uncalled⟩
  · exact ⟨Good.refl inv, rfl, uncalled⟩

/-! ## Shutdown -/

theorem ownerCalls_spareRequester (r : RetainedRoom) (caller : TaskId) :
    (r.spareRequester caller).ownerCalls = r.ownerCalls := by
  unfold spareRequester
  split <;> rfl

theorem Sound.spare (sound : w.Sound) (caller : TaskId) (registry : w'.registry = w.registry)
    (rooms : w'.rooms = w.rooms.mapIdx fun i r =>
      if w.registry.any (·.2 == i) then r.spareRequester caller else r)
    (stopping : w'.stopping = true) : w.Tended w' := by
  refine ⟨registry, fun _ => stopping, by rw [rooms, length_mapIdx], fun i r found => ?_⟩
  obtain ⟨inv, -, uncalled⟩ := sound.room i r found
  have lookup : w'.rooms[i]? = some (if w.registry.any (·.2 == i) then r.spareRequester caller else r) := by
    rw [rooms, getElem?_mapIdx, found]
    rfl
  refine ⟨_, lookup, ?_⟩
  split
  · obtain ⟨good, uses⟩ := inv.spareRequester caller
    exact ⟨good, uses, (ownerCalls_spareRequester r caller).trans uncalled⟩
  · exact ⟨Good.refl inv, rfl, uncalled⟩

/-- Everything `stop` writes besides sparing its caller. -/
theorem stop_shape (w : RoomRetention) (caller : TaskId) : ∃ phase : StopPhase,
    (w.stop caller).stops = w.stops ++ [phase] ∧ phase ≠ .ended .returned ∧
      (w.stop caller).stopping = true ∧ (w.stop caller).registry = w.registry ∧
      (w.stop caller).rooms = (w.rooms.mapIdx fun i r =>
        if w.registry.any (·.2 == i) then r.spareRequester caller else r) ∧
      ((w.stop caller).shutdowns = w.shutdowns ∨ (w.stop caller).shutdowns = w.shutdowns ++ [.created]) := by
  unfold RoomRetention.stop
  dsimp only
  split <;> split
  · exact ⟨_, rfl, nofun, rfl, rfl, rfl, .inl rfl⟩
  · exact ⟨_, rfl, nofun, rfl, rfl, rfl, .inl rfl⟩
  · exact ⟨_, rfl, nofun, rfl, rfl, rfl, .inr rfl⟩
  · exact ⟨_, rfl, nofun, rfl, rfl, rfl, .inr rfl⟩

theorem Sound.stop (sound : w.Sound) (caller : TaskId) : (w.stop caller).Sound ∧ w.Moved (w.stop caller) := by
  obtain ⟨phase, stops, unreturned, stopping, registry, rooms, shutdowns⟩ := stop_shape w caller
  have tended := sound.spare caller registry rooms stopping
  have known : ∀ (s : Nat) (at_ : ShutdownPhase), (w.stop caller).shutdowns[s]? = some at_ →
      w.shutdowns[s]? = some at_ ∨ at_ = .created := by
    intro s at_ found
    rcases shutdowns with same | more
    · rw [same] at found
      exact .inl found
    · rw [more] at found
      exact (getElem?_append_singleton found).imp id And.right
  refine ⟨sound.tended tended (fun _ => stopping) ?_ ?_ ?_, tended.moved⟩
  · intro s pending found
    rw [registry]
    rcases known s _ found with old | new
    · exact sound.waiting s pending old
    · cases new
  · intro s found
    rw [registry]
    rcases known s _ found with old | new
    · exact sound.finished s old
    · cases new
  · intro k found
    rw [stops] at found
    rw [registry]
    rcases getElem?_append_singleton found with old | ⟨-, new⟩
    · exact ⟨(sound.stopped k old).1, stopping⟩
    · exact absurd new.symm unreturned

theorem forget_beginDisposal {o : OwnerView} {r : RetainedRoom} (inv : r.Inv o)
    (uncalled : r.ownerCalls = []) : .forget ∉ (r.beginDisposal o).ownerCalls := by
  rw [inv.beginDisposal.2.forgets, uncalled]
  exact not_mem_nil

/-- The fold of `_run_stop`: what it does to the owner, and that every room it
met which is not closed has its disposal task in the list to await. -/
structure Begun (w : RoomRetention) (seen : List (String × Nat))
    (state : RoomRetention × List (Nat × Nat)) : Prop where
  tended : w.Tended state.1
  view : state.1.view = w.view
  shutdowns : state.1.shutdowns = w.shutdowns
  stops : state.1.stops = w.stops
  pending : ∀ entry ∈ seen, ∀ r, w.rooms[entry.2]? = some r → r.state ≠ .closed → ∃ d, (entry.2, d) ∈ state.2

theorem Begun.next {seen : List (String × Nat)}
    {state : RoomRetention × List (Nat × Nat)} (begun : w.Begun seen state)
    (entry : String × Nat) : w.Begun (seen ++ [entry]) (beginRoom state entry) := by
  unfold beginRoom
  cases found : state.1.rooms[entry.2]? with
  | none =>
    refine { begun with pending := ?_ }
    intro other member r at_ open_
    rcases mem_concat member with old | new
    · exact begun.pending other old r at_ open_
    rw [new] at at_
    obtain ⟨r', found', -⟩ := begun.tended.room entry.2 r at_
    rw [found] at found'
    cases found'
  | some r₁ =>
    obtain ⟨r, at_, good, uses, uncalled⟩ := begun.tended.back found
    have inv := good.1
    rw [← begun.view] at inv
    have disposed := inv.beginDisposal
    have unforgotten := forget_beginDisposal inv uncalled
    obtain ⟨timer, eq⟩ := putRoom_shape state.1 entry.2 (r₁.beginDisposal state.1.view)
    rw [if_neg unforgotten] at eq
    dsimp only
    rw [eq]
    refine ⟨⟨begun.tended.registry, begun.tended.later, ?_, ?_⟩, begun.view, begun.shutdowns, begun.stops, ?_⟩
    · rw [length_set]
      exact begun.tended.length
    · intro i q present
      by_cases same : entry.2 = i
      · subst same
        rw [at_] at present
        cases present
        refine ⟨{ r₁.beginDisposal state.1.view with ownerCalls := [] }, ?_, ?_, ?_, rfl⟩
        · show (state.1.rooms.set entry.2 _)[entry.2]? = _
          rw [getElem?_set_self', found]
          rfl
        · rw [begun.view] at disposed unforgotten ⊢
          refine ⟨⟨{ disposed.1.1 with }, disposed.1.2.1, disposed.1.2.2⟩, ?_⟩
          refine (good.2.trans disposed.2).trans
            { Grows.frame rfl rfl rfl rfl rfl rfl rfl with forgets := ?_ }
          exact ⟨fun h => absurd h not_mem_nil, fun h => absurd h unforgotten⟩
        · exact uses_beginDisposal.trans uses
      · obtain ⟨q', present', rest⟩ := begun.tended.room i q present
        refine ⟨q', ?_, rest⟩
        show (state.1.rooms.set entry.2 _)[i]? = _
        rw [getElem?_set_ne same, present']
    · intro other member q present open_
      rcases mem_concat member with old | new
      · obtain ⟨d, known⟩ := begun.pending other old q present open_
        refine ⟨d, ?_⟩
        split
        · exact known
        · exact mem_append_left _ known
      · rw [new] at present ⊢
        rw [at_] at present
        cases present
        have open' : (r₁.beginDisposal state.1.view).state ≠ .closed := by
          rw [ne_eq, disposed.2.closed, good.2.closed]
          exact open_
        rw [if_neg open']
        exact ⟨_, mem_append_right _ (mem_singleton_self _)⟩

theorem Begun.all (entries seen : List (String × Nat))
    (state : RoomRetention × List (Nat × Nat)) (begun : w.Begun seen state) :
    w.Begun (seen ++ entries) (entries.foldl beginRoom state) := by
  induction entries generalizing seen state with
  | nil => simpa using begun
  | cons entry entries ih =>
    have more := ih (seen ++ [entry]) (beginRoom state entry) (begun.next entry)
    simpa using more

theorem getElem?_setShutdown {s s' : Nat} {phase at_ : ShutdownPhase}
    (found : (w.setShutdown s phase).shutdowns[s']? = some at_) :
    (s' = s ∧ at_ = phase) ∨ w.shutdowns[s']? = some at_ := by
  have found : (w.shutdowns.set s phase)[s']? = some at_ := found
  by_cases same : s = s'
  · subst same
    rw [getElem?_set_self'] at found
    cases present : w.shutdowns[s]? with
    | none => rw [present] at found; cases found
    | some old => rw [present] at found; cases found; exact .inl ⟨rfl, rfl⟩
  · rw [getElem?_set_ne same] at found
    exact .inr found

/-- The shutdown task moves to a phase whose facts hold. -/
theorem Sound.setShutdown (sound : w.Sound) {s : Nat} {old phase : ShutdownPhase}
    (found : w.shutdowns[s]? = some old) (waiting : ∀ pending, phase = .waiting pending →
      ∀ entry ∈ w.registry, ∃ d, (entry.2, d) ∈ pending)
    (finished : phase = .finished .returned → w.registry = []) :
    (w.setShutdown s phase).Sound where
  room := sound.room
  registered := sound.registered
  indexed := sound.indexed
  stopping _ := sound.stopping fun none_ => by rw [none_] at found; cases found
  waiting s' pending at_ := by
    rcases getElem?_setShutdown at_ with ⟨-, new⟩ | kept
    · exact waiting pending new.symm
    · exact sound.waiting s' pending kept
  finished s' at_ := by
    rcases getElem?_setShutdown at_ with ⟨-, new⟩ | kept
    · exact finished new.symm
    · exact sound.finished s' kept
  stopped := sound.stopped

theorem Sound.closed_of_returned (sound : w.Sound) {task : Nat × Nat}
    (returned : w.disposalOutcome task = some .returned) :
    ∃ r, w.rooms[task.1]? = some r ∧ r.state = .closed := by
  unfold disposalOutcome at returned
  split at returned
  · rename_i outcome finished
    cases returned
    obtain ⟨r, found, disposal⟩ := bind_eq_some_iff.1 finished
    exact ⟨r, found, ((sound.room task.1 r found).1.1.disposal task.2 _ disposal).2 rfl⟩
  · cases returned

theorem returned_of_taskFailure {outcome : Outcome} (fine : taskFailure outcome = none) :
    outcome = .returned := by
  cases outcome <;> first | rfl | cases fine

theorem Sound.runShutdown (sound : w.Sound) {s : Nat} (ran : w.runShutdown s = some w') :
    w'.Sound ∧ w.Moved w' := by
  unfold RoomRetention.runShutdown at ran
  split at ran
  · rename_i found
    cases ran
    have begun : w.Begun w.registry (w.registry.foldl beginRoom (w, [])) := by
      have start : w.Begun [] (w, []) :=
        ⟨Tended.refl sound id rfl rfl, rfl, rfl, rfl, fun entry member => by cases member⟩
      simpa using start.all w.registry [] (w, [])
    revert begun
    generalize w.registry.foldl beginRoom (w, []) = state
    intro begun
    have covered : ∀ entry ∈ state.1.registry, ∃ d, (entry.2, d) ∈ state.2 := by
      intro entry member
      rw [begun.tended.registry] at member
      have lt := sound.indexed entry member
      have at_ := getElem?_eq_getElem lt
      refine begun.pending entry member _ at_ ?_
      exact (sound.registered entry.2 _ at_).1 ⟨entry.1, member⟩
    have tendedSound : state.1.Sound := by
      have stopping : state.1.stopping = w.stopping := congrArg OwnerView.stopping begun.view
      refine sound.tended begun.tended ?_ ?_ ?_ ?_
      · rw [begun.shutdowns, stopping]
        exact sound.stopping
      · rw [begun.shutdowns, begun.tended.registry]
        exact sound.waiting
      · rw [begun.shutdowns, begun.tended.registry]
        exact sound.finished
      · rw [begun.stops, begun.tended.registry, stopping]
        exact sound.stopped
    refine ⟨tendedSound.setShutdown (by rw [begun.shutdowns, found]) ?_ ?_, begun.tended.moved⟩
    · intro pending phase entry member
      split at phase
      · cases phase
      · cases phase
        exact covered entry member
    · intro phase
      split at phase
      · rename_i none_
        rw [eq_nil_iff_forall_not_mem]
        intro entry member
        obtain ⟨d, known⟩ := covered entry member
        rw [none_] at known
        cases known
      · cases phase
  · rename_i pending found
    obtain ⟨all, ⟨⟩⟩ := of_passed ran
    refine ⟨sound.setShutdown found ?_ ?_, (Tended.refl sound id rfl rfl).moved⟩
    · intro pending' phase
      cases phase
    · intro phase
      -- no awaited disposal failed, so every registered room is closed: there is none
      have fine : (pending.any fun task =>
          ((w.disposalOutcome task).bind taskFailure).isSome) = false := by
        by_contra failed
        rw [if_pos ((Bool.not_eq_false _).mp failed)] at phase
        cases phase
      rw [eq_nil_iff_forall_not_mem]
      intro entry member
      obtain ⟨d, known⟩ := sound.waiting s pending found entry member
      obtain ⟨outcome, ended⟩ := isSome_iff_exists.1 (all_eq_true.1 all _ known)
      have unfailed := any_eq_false.1 fine _ known
      rw [ended] at unfailed
      have returned : outcome = .returned :=
        returned_of_taskFailure (by simpa using unfailed)
      rw [returned] at ended
      obtain ⟨r, at_, closed⟩ := sound.closed_of_returned ended
      exact (sound.registered entry.2 r at_).1 ⟨entry.1, member⟩ closed
  · cases ran

theorem Sound.cancelShutdown (sound : w.Sound) {s : Nat} {message : String}
    (cancelled : w.cancelShutdown s message = some w') : w'.Sound ∧ w.Moved w' := by
  unfold RoomRetention.cancelShutdown at cancelled
  split at cancelled
  · rename_i found
    cases cancelled
    exact ⟨sound.setShutdown found nofun nofun, (Tended.refl sound id rfl rfl).moved⟩
  · rename_i pending found
    cases cancelled
    exact ⟨sound.setShutdown found nofun nofun, (Tended.refl sound id rfl rfl).moved⟩
  · cases cancelled

theorem Sound.endStop (sound : w.Sound) (k : Nat) {outcome : Outcome}
    (finished : outcome = .returned → w.registry = [] ∧ w.stopping = true) :
    (w.endStop k outcome).Sound ∧ w.Moved (w.endStop k outcome) := by
  refine ⟨{ sound with stopped := ?_ }, (Tended.refl sound id rfl rfl).moved⟩
  intro k' at_
  have at_ : (w.stops.set k (.ended outcome))[k']? = some (.ended .returned) := at_
  by_cases same : k = k'
  · subst same
    rw [getElem?_set_self'] at at_
    cases present : w.stops[k]? with
    | none => rw [present] at at_; cases at_
    | some old => rw [present] at at_; cases at_; exact finished rfl
  · rw [getElem?_set_ne same] at at_
    exact sound.stopped k' at_

theorem Sound.resumeStop (sound : w.Sound) {k : Nat} {wake : Wake}
    (resumed : w.resumeStop k wake = some w') : w'.Sound ∧ w.Moved w' := by
  unfold RoomRetention.resumeStop at resumed
  split at resumed
  · rename_i s waits
    split at resumed
    · cases resumed
      exact sound.endStop k nofun
    · rename_i outcome _ found
      cases resumed
      refine sound.endStop k fun returned => ?_
      cases outcome with
      | returned =>
        exact ⟨sound.finished s found, sound.stopping fun none_ => by rw [none_] at found; cases found⟩
      | raised error | cancelled message => cases returned
    · cases resumed
      exact sound.endStop k nofun
    · cases resumed
  · cases resumed

/-! ## Registration -/

theorem fresh_inv (o : OwnerView) (roomId : String) :
    Inv o { roomId := roomId } ∧ Ledger o { roomId := roomId } := by
  refine ⟨⟨⟨?_, ?_, ?_, ?_, ?_, ?_, ?_, ?_, ?_, rfl, ?_, ?_, ?_, rfl, ?_⟩, ?_, ?_⟩, ?_, ?_, ?_⟩
  · intro t kind phase found; cases found
  · intro t current; cases current
  · intro d phase found; cases found
  · exact fun some_ => absurd rfl some_
  · exact ⟨nofun, nofun⟩
  · exact nofun
  · exact fun _ => .inl rfl
  · rintro (impossible | impossible) <;> cases impossible
  · exact nofun
  · exact fun holder => rfl
  · intro use member; cases member
  · intro task member; cases member
  · intro t tr found; cases found
  · exact fun armed => absurd rfl armed
  · exact ⟨fun _ => ⟨rfl, rfl⟩, fun _ => rfl⟩
  · exact fun _ => .inr rfl
  · intro before between after generation resume generation' resume' split
    cases before <;> cases split
  · rfl

theorem Sound.register (sound : w.Sound) (roomId : String) :
    (w.register roomId).Sound ∧ w.Moved (w.register roomId) := by
  unfold RoomRetention.register
  split
  · exact ⟨sound, (Tended.refl sound id rfl rfl).moved⟩
  rename_i admitted
  have running : w.stopping = false := by
    simpa using (not_or.1 admitted).1
  have unstopped : ∀ {P : Prop}, w.stopping = true → P := fun h => by
    rw [running] at h; cases h
  refine ⟨⟨?_, ?_, ?_, sound.stopping, ?_, ?_, ?_⟩, ?_⟩
  · intro i r found
    rcases getElem?_append_singleton found with old | ⟨-, rfl⟩
    · exact sound.room i r old
    · exact ⟨(fresh_inv w.view roomId).1, (fresh_inv w.view roomId).2, rfl⟩
  · intro i r found
    rcases getElem?_append_singleton found with old | ⟨rfl, rfl⟩
    · have lt := (List.getElem?_eq_some_iff.1 old).1
      rw [← sound.registered i r old]
      refine exists_congr fun name => ?_
      show (name, i) ∈ w.registry ++ [(roomId, w.rooms.length)] ↔ _
      simp only [mem_append, mem_singleton, Prod.mk.injEq]
      exact ⟨fun h => h.elim id fun h => by omega, .inl⟩
    · refine ⟨fun _ => nofun, fun _ => ⟨roomId, ?_⟩⟩
      exact mem_append_right _ (mem_singleton_self _)
  · intro entry member
    have member : entry ∈ w.registry ++ [(roomId, w.rooms.length)] := member
    show entry.2 < (w.rooms ++ [_]).length
    rw [length_append, length_singleton]
    rcases mem_concat member with old | new
    · have := sound.indexed entry old
      omega
    · rw [new]
      exact Nat.lt_succ_self _
  · intro s pending at_
    exact unstopped (sound.stopping fun none_ => by rw [show w.shutdowns = [] from none_] at at_; cases at_)
  · intro s at_
    exact unstopped (sound.stopping fun none_ => by rw [show w.shutdowns = [] from none_] at at_; cases at_)
  · exact fun k at_ => unstopped (sound.stopped k at_).2
  intro i r found
  refine ⟨r, ?_, sound.still found id⟩
  show (w.rooms ++ [_])[i]? = _
  rw [List.getElem?_append_left (List.getElem?_eq_some_iff.1 found).1, found]

/-- **One step of the retention.**  It keeps the invariant and moves each room. -/
theorem Sound.step (sound : w.Sound) {event : RetentionEvent} (stepped : w.step event = some w') :
    w'.Sound ∧ w.Moved w' := by
  cases event with
  | room i event =>
    simp only [RoomRetention.step] at stepped
    split at stepped
    · cases stepped
    rename_i r found
    obtain ⟨r', ran, rfl⟩ := map_eq_some_iff.1 stepped
    exact sound.putRoom found ((sound.room i r found).1.step ran)
  | register roomId => cases stepped; exact sound.register roomId
  | tick elapsed =>
    cases stepped
    have tended : w.Tended { w with now := w.now + elapsed } := Tended.refl sound id rfl rfl
    exact ⟨sound.tended tended sound.stopping sound.waiting sound.finished sound.stopped, tended.moved⟩
  | timer =>
    simp only [RoomRetention.step] at stepped
    split at stepped
    · rename_i due armed
      cases stepped
      have tended := sound.releaseDueRooms due
      exact ⟨sound.tended tended sound.stopping sound.waiting sound.finished sound.stopped, tended.moved⟩
    · cases stepped
  | stop caller => cases stepped; exact sound.stop caller
  | runShutdown s => exact sound.runShutdown stepped
  | cancelShutdown s message => exact sound.cancelShutdown stepped
  | resumeStop k wake => exact sound.resumeStop stepped

theorem Sound.initial (start : retention.init w) : w.Sound := by
  obtain ⟨idleTimeout, transitionTimeout, settleGrace, now, rfl⟩ := start
  refine ⟨?_, ?_, ?_, ?_, ?_, ?_, ?_⟩
  · intro i r found; cases found
  · intro i r found; cases found
  · intro entry member; cases member
  · exact fun some_ => absurd rfl some_
  · intro s pending found; cases found
  · intro s found; cases found
  · intro k found; cases found

theorem Sound.reachable (reached : retention.Reachable w) : w.Sound :=
  reached.invariant (P := Sound) (fun _ => Sound.initial) fun _ _ _ sound stepped =>
    (sound.step stepped).1

end RoomRetention

end BandSdk.Retention

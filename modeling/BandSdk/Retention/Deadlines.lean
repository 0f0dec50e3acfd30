/-
# Retention.Deadlines -- the idle timer under its owner, over whole runs

`Scheduled` is the owner's side of `Retention.Pacing`: every room is timed, every
wait is owed a release, and the timer is the earliest deadline of a registered
room.  A room that is told nothing new during its step keeps its deadline, so
the timer needs no report of it.
-/
import BandSdk.Retention.Pacing

namespace BandSdk.Retention

open BandSdk.Theory RetainedRoom List Option RoomRetention

namespace RoomRetention

variable {w w' : RoomRetention}

/-- The earliest idle deadline of a registered room. -/
def earliest (w : RoomRetention) : Option Nat := (w.registered.filterMap (·.deadline)).min?

structure Scheduled (w : RoomRetention) : Prop where
  room : ∀ (i : Nat) (r : RetainedRoom), w.rooms[i]? = some r → r.Timed w.view ∧ r.Owed w.view
  timer : w.timer = w.earliest

/-- Once a shutdown began its disposals, no registered room admits work. -/
def Shuts (w : RoomRetention) : Prop :=
  ∀ (s : Nat) (pending : List (Nat × Nat)), w.shutdowns[s]? = some (.waiting pending) →
    ∀ entry ∈ w.registry, ∀ r, w.rooms[entry.2]? = some r → r.closing = true

/-! ## One room's step -/

theorem timer_answers (i : Nat) (calls : List OwnerCall) (some_ : calls ≠ []) (w : RoomRetention) :
    (calls.foldl (answer i) w).timer = (calls.foldl (answer i) w).earliest := by
  induction calls using reverseRecOn with
  | nil => exact absurd rfl some_
  | append_singleton calls call _ =>
    rw [foldl_append]
    cases call with
    | reschedule | forget => rfl

theorem earliest_set {i : Nat} {r r' : RetainedRoom} (found : w.rooms[i]? = some r)
    (same : r'.deadline = r.deadline) :
    earliest { w with rooms := w.rooms.set i r' } = w.earliest := by
  unfold earliest registered
  rw [filterMap_filterMap, filterMap_filterMap]
  congr 2
  funext entry
  show ((w.rooms.set i r')[entry.2]?).bind _ = (w.rooms[entry.2]?).bind _
  by_cases at_ : i = entry.2
  · rw [← at_, getElem?_set_self', found]
    exact same
  · rw [getElem?_set_ne at_]

theorem Scheduled.putRoom (scheduled : w.Scheduled) {i : Nat} {r r' : RetainedRoom}
    (found : w.rooms[i]? = some r) (uncalled : r.ownerCalls = []) (paces : r.Paces w.view r') :
    (w.putRoom i r').Scheduled := by
  obtain ⟨timer, eq⟩ := putRoom_shape w i r'
  refine ⟨?_, ?_⟩
  · intro j q at_
    rw [eq] at at_ ⊢
    have at_ : (w.rooms.set i { r' with ownerCalls := [] })[j]? = some q := at_
    by_cases same : i = j
    · subst same
      rw [getElem?_set_self', found] at at_
      cases at_
      exact ⟨paces.timed.frame rfl rfl rfl rfl rfl rfl rfl rfl, paces.owed⟩
    · rw [getElem?_set_ne same] at at_
      exact scheduled.room j q at_
  · by_cases quiet : r'.ownerCalls = []
    · have deadline : r'.deadline = r.deadline := by
        rcases paces.told with ⟨deadline, -⟩ | ⟨r₁, reset, -, calls⟩
        · exact deadline
        obtain ⟨_, _, _, _, shape, -⟩ := schedule_shape w.view r₁ reset
        rw [quiet, shape] at calls
        simp at calls
      have kept := @earliest_set w i r { r' with ownerCalls := [] } found deadline
      unfold RoomRetention.putRoom
      rw [quiet]
      exact scheduled.timer.trans kept.symm
    · exact timer_answers i r'.ownerCalls quiet _

theorem Shuts.putRoom (shuts : w.Shuts) {i : Nat} {r r' : RetainedRoom}
    (found : w.rooms[i]? = some r) (closing : r.closing = true → r'.closing = true) :
    (w.putRoom i r').Shuts := by
  obtain ⟨timer, eq⟩ := putRoom_shape w i r'
  rw [eq]
  intro s pending waits entry member q at_
  have member : entry ∈ w.registry := by
    have member : entry ∈ (if .forget ∈ r'.ownerCalls then w.registry.filter (·.2 != i)
      else w.registry) := member
    split at member
    · exact (mem_filter.1 member).1
    · exact member
  have at_ : (w.rooms.set i { r' with ownerCalls := [] })[entry.2]? = some q := at_
  by_cases same : i = entry.2
  · rw [← same, getElem?_set_self', found] at at_
    cases at_
    exact closing (shuts s pending waits entry member r (same ▸ found))
  · rw [getElem?_set_ne same] at at_
    exact shuts s pending waits entry member q at_

/-! ## The owner's own steps -/

/-- A view that only stops keeps every room timed and every wait owed. -/
theorem timed_later {o o' : OwnerView} {r : RetainedRoom} (timed : r.Timed o)
    (timeout : o'.idleTimeout = o.idleTimeout) (later : o.stopping = true → o'.stopping = true) :
    r.Timed o' := by
  refine ⟨timed.armed, fun configured eligible => timed.due (timeout ▸ configured) ?_⟩
  rw [idleEligible_eq, Bool.and_eq_true, Bool.not_eq_true'] at eligible ⊢
  refine ⟨eligible.1, ?_⟩
  by_contra stopped
  have := later (by simpa using stopped)
  rw [eligible.2] at this
  cases this

theorem owed_later {o o' : OwnerView} {r : RetainedRoom} (owed : r.Owed o)
    (later : o.stopping = true → o'.stopping = true) : r.Owed o' :=
  owed.mono (fun wait member live => ⟨wait, member, rfl, live⟩) le_rfl
    fun g _ lost => hasAuthority_later later g lost

theorem Scheduled.releaseDueRooms (sound : w.Sound) (scheduled : w.Scheduled) (due : Nat) :
    (w.releaseDueRooms due).Scheduled := by
  refine ⟨?_, rfl⟩
  intro i q at_
  have at_ : (w.rooms.mapIdx fun i r => if w.registry.any (·.2 == i) &&
      (r.deadline.map (fun at_ => decide (at_ ≤ due))).getD false then r.startIdleRelease
      else r)[i]? = some q := at_
  rw [getElem?_mapIdx] at at_
  obtain ⟨r, found, rfl⟩ := map_eq_some_iff.1 at_
  obtain ⟨timed, owed⟩ := scheduled.room i r found
  split
  · rename_i fires
    have armed : r.deadline ≠ none := by
      intro none_
      rw [none_] at fires
      simp at fires
    have good := startIdleRelease_good (sound.room i r found).1 armed
    obtain ⟨flag, eq⟩ := startRelease_shape r .idle true
    refine ⟨?_, owed.mono ?_ good.2.generation good.2.retired⟩
    · show (r.startRelease .idle true).Timed _
      rw [eq]
      exact Timed.restless rfl (rests_of_state nofun nofun)
    · intro wait member live
      have member : wait ∈ (r.startRelease .idle true).releaseWaits := member
      rw [eq] at member
      exact ⟨wait, member, rfl, live⟩
  · exact ⟨timed, owed⟩

theorem closing_startIdleRelease (r : RetainedRoom) : r.startIdleRelease.closing = r.closing := by
  obtain ⟨flag, eq⟩ := startRelease_shape r .idle true
  show (r.startRelease .idle true).closing = r.closing
  rw [eq]

theorem spareRequester_frame (o : OwnerView) (r : RetainedRoom) (caller : TaskId) :
    (r.Timed o → (r.spareRequester caller).Timed o) ∧ (r.Owed o → (r.spareRequester caller).Owed o) ∧
      (r.spareRequester caller).closing = r.closing := by
  unfold spareRequester
  split
  · exact ⟨fun timed => timed.frame rfl rfl rfl rfl rfl rfl rfl rfl, id, rfl⟩
  · exact ⟨id, id, rfl⟩

theorem Scheduled.stop (scheduled : w.Scheduled) (caller : TaskId) : (w.stop caller).Scheduled := by
  obtain ⟨phase, -, -, stopping, registry, rooms, -⟩ := stop_shape w caller
  refine ⟨?_, ?_⟩
  · intro i q at_
    rw [rooms, getElem?_mapIdx] at at_
    obtain ⟨r, found, rfl⟩ := map_eq_some_iff.1 at_
    obtain ⟨timed, owed⟩ := scheduled.room i r found
    have timeout : (w.stop caller).view.idleTimeout = w.view.idleTimeout := by
      unfold RoomRetention.stop
      dsimp only
      split <;> split <;> rfl
    have timed := timed_later timed timeout fun _ => stopping
    have owed : r.Owed (w.stop caller).view := owed_later owed fun _ => stopping
    obtain ⟨spared, kept, -⟩ := spareRequester_frame (w.stop caller).view r caller
    split
    · exact ⟨spared timed, kept owed⟩
    · exact ⟨timed, owed⟩
  · unfold RoomRetention.stop
    dsimp only
    split <;> split <;> rfl

theorem Scheduled.register (scheduled : w.Scheduled) (roomId : String) : (w.register roomId).Scheduled := by
  unfold RoomRetention.register
  split
  · exact scheduled
  refine ⟨?_, rfl⟩
  intro i r found
  rcases getElem?_append_singleton found with old | ⟨-, rfl⟩
  · exact scheduled.room i r old
  · exact ⟨Timed.restless rfl (rests_of_state nofun nofun), nofun⟩

/-! ## Shutdown -/

theorem closing_beginDisposal (o : OwnerView) (r : RetainedRoom) : (r.beginDisposal o).closing = true := by
  obtain ⟨_, _, _, _, eq, -⟩ := schedule_shape o { r.request .final with closing := true } false
  unfold RetainedRoom.beginDisposal
  dsimp only
  split <;> rw [eq]

theorem paces_beginDisposal {o : OwnerView} {r : RetainedRoom} (inv : r.Inv o) (owed : r.Owed o) :
    r.Paces o (r.beginDisposal o) := by
  have stride := Stride.beginDisposal o r
  have grows := inv.beginDisposal.2
  exact ⟨stride.timed, stride.told, owed.mono stride.keeps.waits grows.generation grows.retired,
    fun _ => closing_beginDisposal o r⟩

/-- The rooms `_run_stop` has met so far no longer admit work. -/
theorem begun_scheduled (sound : w.Sound) (entries seen : List (String × Nat))
    (state : RoomRetention × List (Nat × Nat)) (begun : w.Begun seen state) (scheduled : state.1.Scheduled)
    (closing : ∀ entry ∈ seen, ∀ r, state.1.rooms[entry.2]? = some r → r.closing = true) :
    (entries.foldl beginRoom state).1.Scheduled ∧
      ∀ entry ∈ seen ++ entries, ∀ r, (entries.foldl beginRoom state).1.rooms[entry.2]? = some r →
        r.closing = true := by
  induction entries generalizing seen state with
  | nil =>
    rw [append_nil]
    exact ⟨scheduled, closing⟩
  | cons entry entries ih =>
    have next := begun.next entry
    suffices both : (beginRoom state entry).1.Scheduled ∧ ∀ other ∈ seen ++ [entry], ∀ r,
        (beginRoom state entry).1.rooms[other.2]? = some r → r.closing = true by
      have rest := ih (seen ++ [entry]) (beginRoom state entry) next both.1 both.2
      simpa using rest
    unfold beginRoom
    cases found : state.1.rooms[entry.2]? with
    | none =>
      refine ⟨scheduled, fun other member r at_ => ?_⟩
      rcases mem_concat member with old | new
      · exact closing other old r at_
      rw [new] at at_
      rw [found] at at_
      cases at_
    | some r₁ =>
      obtain ⟨r, at_, good, -, uncalled⟩ := begun.tended.back found
      have inv := good.1
      rw [← begun.view] at inv
      obtain ⟨timer, eq⟩ := putRoom_shape state.1 entry.2 (r₁.beginDisposal state.1.view)
      have paces := paces_beginDisposal inv (scheduled.room entry.2 r₁ found).2
      refine ⟨scheduled.putRoom found uncalled paces, fun other member q present => ?_⟩
      dsimp only at present
      rw [eq] at present
      have present : (state.1.rooms.set entry.2 { r₁.beginDisposal state.1.view with
          ownerCalls := [] })[other.2]? = some q := present
      by_cases same : entry.2 = other.2
      · rw [← same, getElem?_set_self', found] at present
        cases present
        exact closing_beginDisposal state.1.view r₁
      · rw [getElem?_set_ne same] at present
        rcases mem_concat member with old | new
        · exact closing other old q present
        · exact absurd (congrArg Prod.snd new).symm same

theorem Scheduled.runShutdown (sound : w.Sound) (scheduled : w.Scheduled) (shuts : w.Shuts) {s : Nat}
    (ran : w.runShutdown s = some w') : w'.Scheduled ∧ w'.Shuts := by
  unfold RoomRetention.runShutdown at ran
  split at ran
  · rename_i found
    cases ran
    have start : w.Begun [] (w, []) :=
      ⟨Tended.refl sound id rfl rfl, rfl, rfl, rfl, fun entry member => by cases member⟩
    have begun := start.all w.registry [] (w, [])
    obtain ⟨kept, closing⟩ := begun_scheduled sound w.registry [] (w, []) start scheduled
      fun entry member => by cases member
    refine ⟨⟨kept.room, kept.timer⟩, fun s' pending waits entry member r at_ => ?_⟩
    refine closing entry ?_ r at_
    have member : entry ∈ (w.registry.foldl beginRoom (w, [])).1.registry := member
    rw [begun.tended.registry] at member
    simpa using member
  · rename_i pending found
    obtain ⟨-, ⟨⟩⟩ := of_passed ran
    refine ⟨⟨scheduled.room, scheduled.timer⟩, fun s' pending' waits entry member r at_ => ?_⟩
    exact shuts s pending found entry member r at_
  · cases ran

/-! ## Runs -/

structure Timely (w : RoomRetention) : Prop where
  sound : w.Sound
  scheduled : w.Scheduled
  shuts : w.Shuts

theorem Timely.step (timely : w.Timely) {event : RetentionEvent} (stepped : w.step event = some w') :
    w'.Timely := by
  obtain ⟨sound, scheduled, shuts⟩ := timely
  suffices both : w'.Scheduled ∧ w'.Shuts from ⟨(sound.step stepped).1, both.1, both.2⟩
  cases event with
  | room i event =>
    simp only [RoomRetention.step] at stepped
    split at stepped
    · cases stepped
    rename_i r found
    obtain ⟨r', ran, rfl⟩ := map_eq_some_iff.1 stepped
    obtain ⟨inv, -, uncalled⟩ := sound.room i r found
    obtain ⟨timed, owed⟩ := scheduled.room i r found
    have paces := (paces_step inv timed owed ran).1
    exact ⟨scheduled.putRoom found uncalled paces, shuts.putRoom found paces.closing⟩
  | register roomId =>
    cases stepped
    refine ⟨scheduled.register roomId, ?_⟩
    unfold register
    split
    · exact shuts
    rename_i admitted
    intro s pending waits
    have stopped := sound.stopping fun none_ => by
      rw [show w.shutdowns = [] from none_] at waits
      cases waits
    exact absurd stopped (not_or.1 admitted).1
  | tick elapsed =>
    cases stepped
    refine ⟨⟨fun i r found => ?_, scheduled.timer⟩, shuts⟩
    obtain ⟨timed, owed⟩ := scheduled.room i r found
    exact ⟨timed_later timed rfl id, owed_later owed id⟩
  | timer =>
    simp only [RoomRetention.step] at stepped
    split at stepped
    · rename_i due _
      cases stepped
      refine ⟨scheduled.releaseDueRooms sound due, fun s pending waits entry member q at_ => ?_⟩
      have at_ : (w.rooms.mapIdx fun i r => if w.registry.any (·.2 == i) &&
          (r.deadline.map (fun at_ => decide (at_ ≤ due))).getD false then r.startIdleRelease
          else r)[entry.2]? = some q := at_
      rw [getElem?_mapIdx] at at_
      obtain ⟨r, found, rfl⟩ := map_eq_some_iff.1 at_
      have closing := shuts s pending waits entry member r found
      split
      · exact (closing_startIdleRelease r).trans closing
      · exact closing
    · cases stepped
  | stop caller =>
    cases stepped
    refine ⟨scheduled.stop caller, fun s pending waits entry member q at_ => ?_⟩
    obtain ⟨phase, -, -, -, registry, rooms, shutdowns⟩ := stop_shape w caller
    rw [registry] at member
    rw [rooms, getElem?_mapIdx] at at_
    obtain ⟨r, found, rfl⟩ := map_eq_some_iff.1 at_
    have old : w.shutdowns[s]? = some (.waiting pending) := by
      rcases shutdowns with same | more
      · rw [same] at waits
        exact waits
      · rw [more] at waits
        exact (getElem?_append_singleton waits).resolve_right fun h => by simp at h
    have closing := shuts s pending old entry member r found
    split
    · exact (spareRequester_frame w.view r caller).2.2.trans closing
    · exact closing
  | runShutdown s => exact scheduled.runShutdown sound shuts stepped
  | cancelShutdown s message =>
    simp only [RoomRetention.step, RoomRetention.cancelShutdown] at stepped
    have kept : ∀ phase, (w.setShutdown s (.finished phase)).Shuts :=
      fun phase s' pending waits entry member r at_ => by
        rcases getElem?_setShutdown waits with ⟨-, impossible⟩ | old
        · cases impossible
        · exact shuts s' pending old entry member r at_
    split at stepped
    · cases stepped; exact ⟨⟨scheduled.room, scheduled.timer⟩, kept _⟩
    · cases stepped; exact ⟨⟨scheduled.room, scheduled.timer⟩, kept _⟩
    · cases stepped
  | resumeStop k wake =>
    simp only [RoomRetention.step, RoomRetention.resumeStop] at stepped
    split at stepped
    · split at stepped
      · cases stepped; exact ⟨⟨scheduled.room, scheduled.timer⟩, shuts⟩
      · cases stepped; exact ⟨⟨scheduled.room, scheduled.timer⟩, shuts⟩
      · cases stepped; exact ⟨⟨scheduled.room, scheduled.timer⟩, shuts⟩
      · cases stepped
    · cases stepped

theorem timely_of_reachable (reached : retention.Reachable w) : w.Timely := by
  refine reached.invariant ?_ fun _ _ _ timely stepped => timely.step stepped
  intro w start
  have sound := Sound.reachable ⟨w, start, Machine.Reaches.refl w⟩
  obtain ⟨idleTimeout, transitionTimeout, settleGrace, now, rfl⟩ := start
  refine ⟨sound, ⟨?_, rfl⟩, ?_⟩
  · intro i r found
    cases found
  · intro s pending waits
    cases waits

theorem step_room {i : Nat} {event : RoomEvent} (stepped : w.step (.room i event) = some w') :
    ∃ r r', w.rooms[i]? = some r ∧ r.step w.view event = some r' ∧ w' = w.putRoom i r' := by
  simp only [step] at stepped
  split at stepped
  · cases stepped
  rename_i r found
  obtain ⟨r', ran, rfl⟩ := map_eq_some_iff.1 stepped
  exact ⟨r, r', found, ran, rfl⟩

end RoomRetention

/-! ## The release callback -/

/-- Whether an entry of the record is a transition callback's result. -/
def ProviderEvent.ends : ProviderEvent → Bool
  | .acquired | .acquireFailed | .released _ | .busy | .releaseFailed _ => true
  | _ => false

namespace RetainedRoom

variable {o : OwnerView} {r r' : RetainedRoom}

/-- How often the provider was asked for an idle release. -/
def idleCalls (r : RetainedRoom) : Nat := r.history.count (.release .idle)

theorem idleCalls_of_record (record : r'.history.filter ProviderEvent.ofTransition =
    r.history.filter ProviderEvent.ofTransition) : r'.idleCalls = r.idleCalls := by
  have filtered : ∀ events : List ProviderEvent, (events.filter ProviderEvent.ofTransition).count
      (.release .idle) = events.count (.release .idle) := fun events => count_filter rfl
  unfold idleCalls
  rw [← filtered, record, filtered]

theorem history_landed (o : OwnerView) (r₁ : RetainedRoom) (reset : Bool) (t : Nat)
    (outcome : Outcome) : ((r₁.schedule o reset).finish t outcome).history = r₁.history := by
  obtain ⟨_, _, _, _, eq, -⟩ := schedule_shape o r₁ reset
  rw [eq]
  rfl

theorem history_refused (o : OwnerView) (r₁ : RetainedRoom) (intact : Bool) :
    (r₁.refuseIdleRelease o intact).history = r₁.history := by
  unfold refuseIdleRelease
  split
  · obtain ⟨_, _, _, _, eq, -⟩ := schedule_shape o { r₁ with cause := none, state := .resident } false
    rw [eq]
  · obtain ⟨_, _, _, _, eq, -⟩ := schedule_shape o { r₁ with state := .cleanupPending } false
    rw [eq]

theorem idleCalls_snoc (event : ProviderEvent) (history : r'.history = r.history ++ [event])
    (other : event ≠ .release .idle) : r'.idleCalls = r.idleCalls := by
  unfold idleCalls
  rw [history, count_append, count_singleton]
  simpa using other

theorem history_acquireReturned {t : Nat} {outcome : Outcome}
    (returned : r.acquireReturned o t outcome = some r') :
    ∃ event, r'.history = r.history ++ [event] ∧ event.ends = true := by
  unfold acquireReturned at returned
  split at returned
  · cases returned
    cases failed : outcome.error? with
    | some error =>
      refine ⟨.acquireFailed, ?_, rfl⟩
      unfold acquireEnded
      rw [failed, history_landed]
    | none =>
      refine ⟨.acquired, ?_, rfl⟩
      unfold acquireEnded
      rw [failed, history_landed]
      dsimp only
      split <;> rfl
  · cases returned

theorem history_releaseReturned {t : Nat} {result : ReleaseResult}
    (returned : r.releaseReturned o t result = some r') :
    ∃ event, r'.history = r.history ++ [event] ∧ event.ends = true := by
  unfold releaseReturned at returned
  split at returned
  · rename_i cause previous automatic cancels reported found
    cases returned
    have failed : ∀ error outcome, ∃ event,
        (r.releaseFailed o t cause error outcome).history = r.history ++ [event] ∧ event.ends = true :=
      fun error outcome => ⟨.releaseFailed cause, history_landed o _ true t _, rfl⟩
    cases result with
    | value outcome =>
      cases outcome with
      | released => exact ⟨.released cause, history_landed o _ true t _, rfl⟩
      | busy =>
        unfold releaseEnded
        dsimp only
        split
        · refine ⟨.busy, ?_, rfl⟩
          rw [history_landed, history_refused]
        · exact failed _ _
    | raised error | cancelled message => exact failed _ _
  · cases returned

/-- **Asking for an idle release.**  Only the first run of its task does, and it
looks at the room as it is then. -/
theorem idle_release_called (inv : r.Inv o) (timed : r.Timed o) (owed : r.Owed o)
    {event : RoomEvent} (stepped : r.step o event = some r') (called : r'.idleCalls ≠ r.idleCalls) :
    ∃ t previous automatic, event = .runTransition t ∧
      r.tasks[t]? = some (.release .idle previous automatic, .created) ∧
      r.idleReleaseAllowed o automatic = true := by
  have quiet := (paces_step inv timed owed stepped).2
  cases event with
  | runTransition t =>
    have ran : r.runTransition o t = some r' := stepped
    unfold runTransition at ran
    split at ran
    · cases ran
      refine absurd ?_ called
      unfold runAcquire
      split
      · exact congrArg (List.count _) (history_landed o _ false t _)
      · exact idleCalls_snoc (.acquire r.generation r.resume) rfl nofun
    · rename_i cause previous automatic reported found
      cases ran
      unfold runRelease at called
      split at called
      · refine absurd ?_ called
        exact congrArg (List.count _) (history_refused o r _)
      · rename_i allowed
        cases cause with
        | idle =>
          refine ⟨t, previous, automatic, rfl, found_task found, ?_⟩
          simpa using allowed
        | recovery =>
          exact absurd (idleCalls_snoc (.release .recovery) rfl (by decide)) called
        | final => exact absurd (idleCalls_snoc (.release .final) rfl (by decide)) called
    · cases ran
  | acquireReturned t outcome =>
    obtain ⟨event, history, ends⟩ := history_acquireReturned stepped
    exact absurd (idleCalls_snoc event history fun h => by rw [h] at ends; cases ends) called
  | releaseReturned t result =>
    obtain ⟨event, history, ends⟩ := history_releaseReturned stepped
    exact absurd (idleCalls_snoc event history fun h => by rw [h] at ends; cases ends) called
  | _ => exact absurd (idleCalls_of_record (quiet rfl).2) called

end RetainedRoom

/-! ## The idle deadline -/

namespace RoomRetention

variable {w w' : RoomRetention}

/-- The owner itself asks no provider for anything. -/
theorem history_owner (sound : w.Sound) {event : RetentionEvent} (stepped : w.step event = some w')
    (own : ∀ i roomEvent, event ≠ .room i roomEvent) {i : Nat} {r r' : RetainedRoom}
    (found : w.rooms[i]? = some r) (found' : w'.rooms[i]? = some r') : r'.history = r.history := by
  have still : w'.rooms = w.rooms → r'.history = r.history := by
    intro same
    rw [same, found] at found'
    cases found'
    rfl
  have tended : w.Tended w' → r'.history = r.history := by
    intro tended
    obtain ⟨q, at_, good, -⟩ := tended.room i r found
    rw [found'] at at_
    cases at_
    exact good.2.history
  cases event with
  | room j roomEvent => exact absurd rfl (own j roomEvent)
  | register roomId =>
    cases stepped
    unfold register at found'
    split at found'
    · rw [found] at found'
      cases found'
      rfl
    · have found' : (w.rooms ++ [{ roomId := roomId }])[i]? = some r' := found'
      rw [List.getElem?_append_left (List.getElem?_eq_some_iff.1 found).1, found] at found'
      cases found'
      rfl
  | tick elapsed => cases stepped; exact still rfl
  | timer =>
    simp only [step] at stepped
    split at stepped
    · cases stepped; exact tended (sound.releaseDueRooms _)
    · cases stepped
  | stop caller =>
    cases stepped
    obtain ⟨phase, -, -, stopping, registry, rooms, -⟩ := stop_shape w caller
    exact tended (sound.spare caller registry rooms stopping)
  | runShutdown s =>
    simp only [step, runShutdown] at stepped
    split at stepped
    · cases stepped
      have start : w.Begun [] (w, []) :=
        ⟨Tended.refl sound id rfl rfl, rfl, rfl, rfl, fun entry member => by cases member⟩
      obtain ⟨q, at_, good, -⟩ := (start.all w.registry [] (w, [])).tended.room i r found
      have found' : (w.registry.foldl beginRoom (w, [])).1.rooms[i]? = some r' := found'
      rw [found'] at at_
      cases at_
      exact good.2.history
    · obtain ⟨-, stepped⟩ := of_passed stepped
      cases stepped; exact still rfl
    · cases stepped
  | cancelShutdown s message =>
    simp only [step, cancelShutdown] at stepped
    split at stepped
    · cases stepped; exact still rfl
    · cases stepped; exact still rfl
    · cases stepped
  | resumeStop k wake =>
    simp only [step, resumeStop] at stepped
    split at stepped
    · split at stepped
      · cases stepped; exact still rfl
      · cases stepped; exact still rfl
      · cases stepped; exact still rfl
      · cases stepped
    · cases stepped

theorem idleCandidate_iff (r : RetainedRoom) : r.idleCandidate = true ↔
    (r.state = .resident ∧ r.cause = none) ∨ (r.state = .cleanupPending ∧ r.cause = some .idle) := by
  unfold idleCandidate
  split
  · rename_i state cause
    simp [state, cause]
  · rename_i state cause
    simp [state, cause]
  · rename_i neither pending
    refine ⟨nofun, fun h => ?_⟩
    rcases h with ⟨state, cause⟩ | ⟨state, cause⟩
    · exact (neither state cause).elim
    · exact (pending state cause).elim

theorem Timely.registered (timely : w.Timely) {i : Nat} {r : RetainedRoom}
    (found : w.rooms[i]? = some r) (armed : r.deadline ≠ none) : r ∈ w.registered := by
  have rests := (timely.scheduled.room i r found).1.armed armed
  have open_ : r.state ≠ .closed := by
    intro closed
    have restless : r.rests = false := by
      refine rests_of_state ?_ ?_ <;> rw [closed] <;> exact nofun
    rw [rests] at restless
    cases restless
  obtain ⟨name, member⟩ := (timely.sound.registered i r found).2 open_
  exact mem_filterMap.2 ⟨(name, i), member, found⟩

/-- **The idle deadline.**  A room has one exactly while it may be released for
being idle; a stopping owner settles it when the room's disposal begins, which is
the shutdown's first step.  The timer is the earliest deadline, and an idle
release is asked for only by its task's first run, over a quiescent provider and,
started by the timer, with nothing accepted. -/
theorem idle_deadlines (reached : retention.Reachable w) (configured : w.idleTimeout ≠ none) :
    (∀ (i : Nat) (r : RetainedRoom), w.rooms[i]? = some r → (w.stopping = true → r.closing = true) →
      (r.deadline ≠ none ↔
        ((r.state = .resident ∧ r.cause = none) ∨ (r.state = .cleanupPending ∧ r.cause = some .idle)) ∧
        r.leases = 0 ∧ r.accepted = 0 ∧ r.activity = .quiescent ∧ r.isClosing w.view = false)) ∧
    w.Shuts ∧
    (w.timer = (w.registered.filterMap (·.deadline)).min? ∧
      ∀ r ∈ w.rooms, r.deadline ≠ none → r ∈ w.registered) ∧
    (∀ (i : Nat) (r r' : RetainedRoom) (event : RetentionEvent) (w' : RoomRetention),
      w.rooms[i]? = some r → w.step event = some w' → w'.rooms[i]? = some r' →
        r'.idleCalls ≠ r.idleCalls → ∃ t previous automatic, event = .room i (.runTransition t) ∧
          r.tasks[t]? = some (.release .idle previous automatic, .created) ∧
          (automatic = true → r.accepted = 0) ∧ r.activity = .quiescent) := by
  have timely := timely_of_reachable reached
  refine ⟨?_, timely.shuts, ⟨timely.scheduled.timer, ?_⟩, ?_⟩
  · intro i r found settled
    obtain ⟨timed, -⟩ := timely.scheduled.room i r found
    have eligible : r.idleEligible w.view = true ↔ ((r.state = .resident ∧ r.cause = none) ∨
        (r.state = .cleanupPending ∧ r.cause = some .idle)) ∧ r.leases = 0 ∧ r.accepted = 0 ∧
        r.activity = .quiescent ∧ r.isClosing w.view = false := by
      rw [← idleCandidate_iff]
      simp only [idleEligible, Bool.and_eq_true, Bool.not_eq_true', beq_iff_eq]
      tauto
    rw [← eligible]
    refine ⟨fun armed => ?_, timed.due configured⟩
    have rests := timed.armed armed
    rw [idleEligible_eq, rests, Bool.true_and, Bool.not_eq_true']
    by_contra stopping
    have closing := settled (eq_true_of_ne_false stopping)
    rw [rests_of_closing closing] at rests
    cases rests
  · intro r member armed
    obtain ⟨i, found⟩ := mem_iff_getElem?.1 member
    exact timely.registered found armed
  · intro i r r' event w' found stepped found' called
    by_cases own : ∃ j roomEvent, event = .room j roomEvent
    · obtain ⟨j, roomEvent, rfl⟩ := own
      obtain ⟨q, q', at_, ran, rfl⟩ := step_room stepped
      obtain ⟨timer, eq⟩ := putRoom_shape w j q'
      rw [eq] at found'
      have found' : (w.rooms.set j { q' with ownerCalls := [] })[i]? = some r' := found'
      by_cases same : j = i
      · subst same
        rw [at_] at found
        cases found
        rw [getElem?_set_self', at_] at found'
        cases found'
        obtain ⟨timed, owed⟩ := timely.scheduled.room j r at_
        obtain ⟨t, previous, automatic, rfl, created, allowed⟩ :=
          idle_release_called (timely.sound.room j r at_).1 timed owed ran called
        simp only [idleReleaseAllowed, Bool.and_eq_true, Bool.not_eq_true', beq_iff_eq] at allowed
        refine ⟨t, previous, automatic, rfl, created, fun timer => ?_, allowed.2⟩
        simpa [timer] using allowed.1.2
      · rw [getElem?_set_ne same, found] at found'
        cases found'
        exact absurd rfl called
    · have same := history_owner timely.sound stepped
        (fun j roomEvent h => own ⟨j, roomEvent, h⟩) found found'
      exact absurd (congrArg (List.count _) same) called

/-- A room that was used once and reported quiet. -/
def quietEvents : List RetentionEvent :=
  [.register "room", .room 0 (.use 1 false), .room 0 (.runTransition 0),
    .room 0 (.acquireReturned 0 .returned), .room 0 (.resumeUse 0 .ready),
    .room 0 (.bodyEnded 0 .returned), .room 0 (.observe .quiescent 1 "")]

theorem idle_deadlines_quiet : ∃ w r, retention.Reachable w ∧ w.rooms[0]? = some r ∧
    r.deadline = some 5 ∧ w.timer = some 5 ∧ r.accepted = 0 ∧ r.activity = .quiescent := by
  have ran : (retention.run { idleTimeout := some 5 } quietEvents).map (fun w =>
      decide (w.idleTimeout = some 5 ∧ w.stopping = false ∧ w.timer = some 5 ∧
        w.rooms.map (·.deadline) = [some 5])) = some true := by
    decide +kernel
  obtain ⟨w, run, found⟩ := map_eq_some_iff.1 ran
  obtain ⟨timeout, running, timer, deadlines⟩ := of_decide_eq_true found
  have reached : retention.Reachable w := ⟨_, ⟨some 5, 10, 0, 0, rfl⟩, _, run⟩
  obtain ⟨r, rest, rooms, deadline, -⟩ := map_eq_cons_iff.1 deadlines
  have at_ : w.rooms[0]? = some r := by rw [rooms]; rfl
  have armed := (idle_deadlines reached (by rw [timeout]; exact some_ne_none _)).1 0 r at_
    (fun stopping => absurd (running.symm.trans stopping) nofun)
  obtain ⟨-, -, accepted, activity, -⟩ := armed.1 (by rw [deadline]; exact some_ne_none _)
  exact ⟨w, r, reached, at_, deadline, timer, accepted, activity⟩

/-- The provider turns active and quiet again before the timer's release runs:
the release callback is called all the same. -/
theorem idle_release_after_activity :
    (retention.run { idleTimeout := some 5 } (quietEvents ++
        [.timer, .room 0 (.observe .active 1 "")])).map (fun w =>
      w.rooms.map fun r => (r.activity, r.tasks[1]?)) =
        some [(.active, some (.release .idle .resident true, .created))] ∧
    (retention.run { idleTimeout := some 5 } (quietEvents ++
        [.timer, .room 0 (.observe .active 1 ""), .room 0 (.observe .quiescent 1 ""),
          .room 0 (.runTransition 1)])).map (fun w => w.rooms.map (·.history)) =
        some [[.acquire 1 false, .acquired, .release .idle]] := by
  constructor
  · decide +kernel
  · decide +kernel

end RoomRetention

end BandSdk.Retention

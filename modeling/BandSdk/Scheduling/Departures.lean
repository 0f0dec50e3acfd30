/-
# Scheduling.Departures -- a retained original leaves only when no turn will run it

Four places release originals: the end of a turn, the pruning of a page's
candidates in a step and in a priority step, and a local event.  `Keeps` says
what each of them and everything between them keeps: an ordinary original stays
on the room's line, or its departure is recorded and justified by what the
registry said of it at that moment.
-/
import BandSdk.Scheduling.Candidates

namespace BandSdk.Scheduling

open BandSdk.Theory BandSdk.Turns List Option
open Lifecycle (Round Write RunResult Batch)

variable {I ρ C : Type} [LinearOrder I] {room : Settings ρ} {s t u : Scheduler I ρ C}

/-- Why an original may leave the room. -/
structure Departure.Justified (life : Lifecycle ρ) (d : Departure I ρ) : Prop where
  /-- No turn will run it: the platform has it no more, or its eligibility at that
  moment is not `runnable`. -/
  unrunnable : d.cause = .turn .absent ∨
    life.core.deliveryEligibility d.record (life.facts d.host d.candidate) ≠ .runnable
  /-- Its pending settlement does not permit a retry. -/
  unkept : (life.core.pendingSettlement d.record).any (·.retry) = false
  /-- A pruning read listed it or reached its position. -/
  reached : ∀ reaches exhausted, d.cause = .pruned reaches exhausted →
    Scheduler.covered reaches exhausted d.candidate = true
  own : d.event.deliveryId = some d.candidate.messageId

/-- From `s` to `t` every ordinary original is still retained, or departed; and
every ordinary departure is justified. -/
def Keeps (room : Settings ρ) (s t : Scheduler I ρ C) : Prop :=
  ∃ departed, t.departures = s.departures ++ departed ∧
    (∀ d ∈ departed, d.event.isOrdinary = true → d.Justified room.life) ∧
    ∀ event ∈ s.pending.events, event.isOrdinary = true →
      event ∈ t.pending.events ∨ ∃ d ∈ departed, d.event = event

namespace Keeps

theorem of_grown (departures : t.departures = s.departures)
    (pending : ∀ event ∈ s.pending.events, event.isOrdinary = true → event ∈ t.pending.events) :
    Keeps room s t :=
  ⟨[], by rw [departures, append_nil], by simp, fun event mem ordinary =>
    .inl (pending event mem ordinary)⟩

/-- A step that leaves the line alone. -/
theorem of_same (pending : t.pending = s.pending) (departures : t.departures = s.departures) :
    Keeps room s t :=
  of_grown departures fun _ mem _ => pending ▸ mem

theorem refl (s : Scheduler I ρ C) : Keeps room s s := of_same rfl rfl

theorem trans (first : Keeps room s t) (second : Keeps room t u) : Keeps room s u := by
  obtain ⟨departed, grows, justified, kept⟩ := first
  obtain ⟨later, grows', justified', kept'⟩ := second
  refine ⟨departed ++ later, by rw [grows', grows, append_assoc], ?_, ?_⟩
  · intro d mem
    rcases mem_append.1 mem with mem | mem
    · exact justified d mem
    · exact justified' d mem
  · intro event mem ordinary
    rcases kept event mem ordinary with mem | ⟨d, mem, eq⟩
    · rcases kept' event mem ordinary with mem | ⟨d, mem, eq⟩
      · exact .inl mem
      · exact .inr ⟨d, mem_append_right _ mem, eq⟩
    · exact .inr ⟨d, mem_append_left _ mem, eq⟩

end Keeps

namespace Scheduler

/-! ## The line itself -/

theorem defer_frame (message : Option I) :
    (s.defer message).pending = s.pending ∧ (s.defer message).departures = s.departures ∧
      (s.defer message).world = s.world ∧ (s.defer message).active = s.active := by
  unfold defer
  split <;> exact ⟨rfl, rfl, rfl, rfl⟩

theorem keeps_defer (message : Option I) : Keeps room s (s.defer message) :=
  .of_same (defer_frame message).1 (defer_frame message).2.1

theorem keeps_await (m : Meanwhile I ρ) : Keeps room s (s.await room m) := .of_same rfl rfl

variable {members : List (Candidate I)} {cs : List (Candidate I)} {event : Event I} {identities : List I}

theorem add_mem {line : RetainedEvents I} (mem : event ∈ line.events)
    (added : Event I) : event ∈ (line.add added).events := by
  unfold RetainedEvents.add
  split
  · exact mem
  · exact mem_append_left _ mem

theorem keeps_absorb : Keeps room s s.absorb := by
  have received : ∀ (queue : List (Event I)) (t : Scheduler I ρ C), Keeps room t (queue.foldl receive t) := by
    intro queue
    induction queue with
    | nil => exact Keeps.refl
    | cons event rest ih =>
      intro t
      have added : Keeps room t (t.receive event) := .of_grown rfl fun e mem _ => add_mem mem event
      exact added.trans (ih (t.receive event))
  exact (received s.world.queue s).trans (.of_same rfl rfl)

/-- A local event is dropped alone. -/
theorem keeps_drop (local_ : event.isOrdinary = false) (scanCursor : Option C) :
    Keeps room s { s with pending := s.pending.drop event, scanCursor := scanCursor } := by
  refine .of_grown rfl fun e mem ordinary => ?_
  refine (mem_erase_of_ne ?_).2 mem
  rintro rfl
  rw [local_] at ordinary
  cases ordinary

/-- **Releasing** keeps the originals it does not record. -/
theorem keeps_release {forms : List (Candidate I)} {cause : Cause I}
    (found : ∀ event ∈ s.pending.events, event.isOrdinary = true →
      ∀ i ∈ identities, event.deliveryId = some i → i ∈ forms.map Candidate.messageId)
    (idle : ∀ c ∈ forms, cause = .turn .absent ∨ room.life.eligibility s.world c ≠ .runnable)
    (reached : ∀ c ∈ forms, ∀ reaches exhausted, cause = .pruned reaches exhausted →
      covered reaches exhausted c = true) :
    Keeps room s (s.release room identities forms cause) := by
  refine ⟨_, rfl, ?_, ?_⟩
  · intro d mem ordinary
    obtain ⟨event, doomed, built⟩ := mem_filterMap.1 mem
    obtain ⟨i, id, built⟩ := bind_eq_some_iff.1 built
    obtain ⟨c, form, rfl⟩ := map_eq_some_iff.1 built
    have same : c.messageId = i := by simpa using List.find?_some form
    have member := mem_of_find?_eq_some form
    have free : s.holdsRetry room event = false := by
      simpa using ((Bool.and_eq_true _ _).mp (mem_filter.1 doomed).2).2
    refine ⟨?_, ?_, fun reaches exhausted eq => reached c member reaches exhausted eq, ?_⟩
    · rcases idle c member with absent | idle
      · exact .inl absent
      right
      rw [← same]
      exact idle
    · cases event with
      | message payload synthetic =>
        cases synthetic with
        | true => cases ordinary
        | false =>
          cases id
          exact free
      | bare | roster serial => cases ordinary
    · exact id.trans (congrArg some same.symm)
  · intro event mem ordinary
    by_cases doomed : (event.deliveryId.any (· ∈ identities) && !s.holdsRetry room event) = true
    · right
      obtain ⟨i, id, mem_ids⟩ : ∃ i, event.deliveryId = some i ∧ i ∈ identities := by
        have := ((Bool.and_eq_true _ _).mp doomed).1
        cases id : event.deliveryId with
        | none => rw [id] at this; cases this
        | some i => exact ⟨i, rfl, by simpa [id] using this⟩
      obtain ⟨form, form_mem, same⟩ := mem_map.1 (found event mem ordinary i mem_ids id)
      have exists_ : (forms.find? (·.messageId = i)).isSome = true := by
        rw [List.find?_isSome]
        exact ⟨form, form_mem, by simpa using same⟩
      obtain ⟨c, found⟩ := isSome_iff_exists.1 exists_
      refine ⟨{ event := event, candidate := c, record := s.world.record i, host := s.world.host
                cause := cause }, ?_, rfl⟩
      refine mem_filterMap.2 ⟨event, mem_filter.2 ⟨mem, doomed⟩, ?_⟩
      simp [id, found]
    · exact .inl (mem_filter.2 ⟨mem, by dsimp only; rw [Bool.eq_false_iff.2 doomed]; rfl⟩)

theorem keeps_release_of_none {cause : Cause I}
    (none_ : ∀ event ∈ s.pending.events, event.isOrdinary = true →
      ∀ i ∈ identities, event.deliveryId ≠ some i) :
    Keeps room s (s.release room identities [] cause) :=
  keeps_release (fun event mem ordinary i mem_ids id => absurd id (none_ event mem ordinary i mem_ids))
    (by simp) (by simp)

/-! ## Pruning -/

theorem skippable_record (room : Settings ρ) (reaches : Option (MessageKey I)) (exhausted : Bool) {i : I}
    (outside : i ∉ cs.map Candidate.messageId) (w : World I ρ) :
    (skippable room reaches exhausted w cs).2.record i = w.record i ∧
      (skippable room reaches exhausted w cs).2.host = w.host := by
  induction cs generalizing w with
  | nil => exact ⟨rfl, rfl⟩
  | cons c rest ih =>
    rw [map_cons, mem_cons, not_or] at outside
    unfold skippable
    split
    · exact ih outside.2 w
    obtain ⟨record, host⟩ := ih outside.2 (room.life.judge w c).2
    refine ⟨record.trans ?_, host.trans (room.life.judge_host w c)⟩
    unfold Lifecycle.judge
    split
    · exact World.record_update_of_ne outside.1 _
    · rfl

/-- What pruning skips is covered by the read and not runnable. -/
theorem skippable_spec (lawful : room.life.core.Lawful) (reaches : Option (MessageKey I))
    (exhausted : Bool) (distinct : (cs.map Candidate.messageId).Nodup) (w : World I ρ) :
    (skippable room reaches exhausted w cs).1.Sublist cs ∧
      ∀ c ∈ (skippable room reaches exhausted w cs).1, covered reaches exhausted c = true ∧
        room.life.eligibility (skippable room reaches exhausted w cs).2 c ≠ .runnable := by
  induction cs generalizing w with
  | nil => exact ⟨.slnil, by simp [skippable]⟩
  | cons c rest ih =>
    rw [map_cons, nodup_cons] at distinct
    unfold skippable
    split
    · obtain ⟨sub, spec⟩ := ih distinct.2 w
      exact ⟨sub.cons c, spec⟩
    · rename_i skip
      obtain ⟨sub, spec⟩ := ih distinct.2 (room.life.judge w c).2
      dsimp only
      split
      · rename_i idle
        refine ⟨sub.cons_cons c, fun d mem => ?_⟩
        rcases mem_cons.1 mem with rfl | mem
        · refine ⟨by simpa using fun uncovered => skip (.inr uncovered), ?_⟩
          obtain ⟨record, host⟩ := skippable_record room reaches exhausted distinct.1
            (room.life.judge w d).2
          unfold Lifecycle.eligibility
          rw [record, host]
          exact Lifecycle.judge_not_runnable lawful idle
        · exact spec d mem
      · exact ⟨sub.cons c, spec⟩

theorem keeps_pruneSkipped (lawful : room.life.core.Lawful) (distinct : (cs.map Candidate.messageId).Nodup)
    (reaches : Option (MessageKey I))
    (exhausted : Bool) : Keeps room s (s.pruneSkipped room cs reaches exhausted).2 := by
  obtain ⟨-, spec⟩ := skippable_spec lawful reaches exhausted distinct s.world
  refine Keeps.trans (.of_same rfl rfl) (keeps_release (fun _ _ _ i mem _ => mem) ?_ ?_)
  · exact fun c mem => .inr (spec c mem).2
  intro c mem reaches' exhausted' eq
  cases eq
  exact (spec c mem).1

/-! ## Dispatch -/

theorem keeps_afterDelivery {outcome : TurnOutcome} {forms : List (Candidate I)} (revision : Nat)
    (priority control : Bool) (releases : outcome = .advanced ∨ outcome = .absent →
      Keeps room s (s.release room identities forms (.turn outcome))) :
    Keeps room s (s.afterDelivery room outcome identities forms revision priority control).2 := by
  have deferred : ∀ t : Scheduler I ρ C, Keeps room t
      (if priority then t else if identities = [] then t else t.defer identities.head?) := by
    intro t
    split
    · exact .refl t
    split
    · exact .refl t
    · exact keeps_defer _
  have released : outcome = .advanced ∨ outcome = .absent →
      let t := s.release room identities forms (.turn outcome)
      Keeps room s (if t.deferredId.any (· ∈ identities) then t.defer none else t) := by
    intro done t
    split
    · exact (releases done).trans (keeps_defer none)
    · exact releases done
  have invalidated : Keeps room s { s with active := { s.active with invalidated := true } } :=
    .of_same rfl rfl
  cases outcome with
  | advanced => exact released (.inl rfl)
  | absent => exact released (.inr rfl)
  | paused | declined =>
    unfold afterDelivery
    dsimp only
    split
    · exact .refl s
    split
    · split
      · exact invalidated
      · exact invalidated.trans (deferred _)
    · exact .refl s
  | retryLater | notAccepted =>
    unfold afterDelivery
    dsimp only
    split
    · exact .refl s
    split
    · split
      · exact invalidated
      · exact invalidated.trans (deferred _)
    · exact deferred s

omit [LinearOrder I] in
theorem executeLocal_ne_absent (event : Event I) (ended : LocalEnd) : executeLocal event ended ≠ .absent := by
  cases ended <;> simp only [executeLocal] <;> (try split) <;> nofun

theorem keeps_dispatchLocal (held : event ∈ s.pending.events)
    (local_ : event.isOrdinary = false) (answers : Answers I ρ C) :
    Keeps room s (s.dispatchLocal room event answers).2 := by
  unfold dispatchLocal
  split
  · exact .refl s
  split
  · exact .refl s
  rename_i m ended _
  have awaited : Keeps room s (s.await room m) := keeps_await m
  dsimp only
  split
  · -- the event is gone, and with it the only one of its delivery
    refine (awaited.trans (keeps_drop local_ none)).trans (keeps_afterDelivery _ _ _ fun _ => ?_)
    refine keeps_release_of_none fun other mem ordinary i mem_ids id => ?_
    have kept : other ∈ s.pending.events := mem_of_mem_erase mem
    split at mem_ids
    · have same : event.deliveryId = some i := by
        cases id' : event.deliveryId with
        | none => simp [id'] at mem_ids
        | some j => simpa [id', eq_comm] using mem_ids
      have := s.pending.eq_of_deliveryId kept held id same
      rw [this, local_] at ordinary
      cases ordinary
    · cases mem_ids
  · rename_i unfinished
    split
    · exact awaited
    refine awaited.trans (keeps_afterDelivery _ _ _ fun released => ?_)
    rcases released with advanced | absent
    · exact absurd advanced unfinished
    · exact absurd absent (executeLocal_ne_absent event ended)

theorem runTurn_frame (room : Settings ρ) (s : Scheduler I ρ C) (members : List (Candidate I))
    (revision : Nat) (control : Bool) (rounds : List (Round I ρ)) :
    (s.runTurn room members revision control rounds).1 = room.life.run members revision control rounds s.world ∧
      (s.runTurn room members revision control rounds).2.world =
        (room.life.run members revision control rounds s.world).world ∧
      Keeps room s (s.runTurn room members revision control rounds).2 := by
  unfold runTurn
  refine ⟨rfl, ?_, ?_⟩
  · dsimp only
    split
    · exact (defer_frame _).2.2.1
    · rfl
  · dsimp only
    split
    · exact Keeps.trans (t := { s with world := _ }) (.of_same rfl rfl) (keeps_defer _)
    · exact .of_same rfl rfl

section

variable (lawful : room.life.core.Lawful) (batch : Batch members)
include lawful batch

/-- **The end of a turn** releases its batch only when no member is runnable, or
the platform has none of it. -/
theorem keeps_released {revision : Nat} {control : Bool} {rounds : List (Round I ρ)} {outcome : TurnOutcome}
    (ended : (room.life.run members revision control rounds s.world).outcome = some outcome)
    (world : t.world = (room.life.run members revision control rounds s.world).world)
    (done : outcome = .advanced ∨ outcome = .absent) :
    Keeps room t (t.release room (members.map Candidate.messageId)
      (room.life.run members revision control rounds s.world).forms (.turn outcome)) := by
  refine keeps_release (fun _ _ _ i mem _ => ?_) (fun c mem => ?_) (by simp)
  · exact (Lifecycle.run_forms batch s.world).mem_iff.2 mem
  rcases done with rfl | rfl
  · right
    rw [world]
    exact Lifecycle.run_advanced lawful batch ended c mem
  · exact .inl rfl

theorem keeps_dispatchOrdinary (revision : Nat) (priority : Bool) (rounds : List (Round I ρ)) :
    Keeps room s (s.dispatchOrdinary room members revision priority rounds).2 := by
  obtain ⟨result, world, keeps⟩ := runTurn_frame room s members revision false rounds
  unfold dispatchOrdinary
  dsimp only
  rw [result]
  split
  · exact keeps
  · rename_i outcome ended
    exact keeps.trans (keeps_afterDelivery _ _ _ (keeps_released lawful batch ended world))

theorem keeps_dispatch (priority : Bool) (answers : Answers I ρ C) :
    Keeps room s (s.dispatch room members priority answers).2 := by
  unfold dispatch
  dsimp only
  split
  · exact .refl s
  split
  · exact .refl s
  split
  · exact .refl s
  have selected : Keeps room s { s with active := { s.active with
    selections := s.active.selections ++ [s.dispatchKey members priority] } } :=
    .of_same rfl rfl
  refine selected.trans ?_
  split
  · obtain ⟨result, world, keeps⟩ := runTurn_frame room
      { s with active := { s.active with
        selections := s.active.selections ++ [s.dispatchKey members priority] } }
      members s.world.host.controlRevision true answers.controlTurn
    rw [result]
    refine keeps.trans ?_
    split
    · exact .refl _
    · -- a declined probe runs as ordinary input
      have declined : ∀ t : Scheduler I ρ C, Keeps room t
          (members.head?.elim t fun c =>
            t.recordDecline s.world.host.controlRevision c.messageId) := by
        intro t
        cases members.head? with
        | none => exact .refl t
        | some c =>
          simp only [Option.elim_some, recordDecline]
          split
          · exact .of_same rfl rfl
          · exact .refl t
      split
      · exact declined _
      · exact (declined _).trans (keeps_dispatchOrdinary lawful batch _ _ _)
    · rename_i outcome _ ended
      exact keeps_afterDelivery _ _ _ (keeps_released lawful batch ended world)
  · exact keeps_dispatchOrdinary lawful batch _ _ _

theorem keeps_dispatchSelection (answers : Answers I ρ C) :
    Keeps room s (s.dispatchSelection room members answers).2 := by
  have dispatched := keeps_dispatch (s := s) lawful batch false answers
  unfold dispatchSelection
  dsimp only
  split
  · split
    · exact dispatched.trans (.of_same rfl rfl)
    · exact dispatched.trans (.of_same rfl rfl)
  · exact dispatched

end

/-! ## One step -/

theorem keeps_advanceScan (read : PageRead I C) (skipped : List I) (segment : List (Message I)) :
    Keeps room s (s.advanceScan room read skipped segment).2 := by
  unfold advanceScan
  dsimp only
  split
  · exact .of_same rfl rfl
  split
  · exact .of_same rfl rfl
  · split <;> exact .of_same rfl rfl

theorem keeps_classify (c : Candidate I) : Keeps room s (s.classify room c).2 := by
  obtain ⟨-, -, boundaries, eq⟩ := classify_spec room s c
  rw [eq]
  exact .of_same rfl rfl

theorem Selectable.keeps {rows : List (Message I)} (spec : Selectable room s rows cs t) : Keeps room s t := by
  obtain ⟨boundaries, eq⟩ := spec.frame
  rw [eq]
  exact .of_same rfl rfl

theorem keeps_readPage (room : Settings ρ) (s : Scheduler I ρ C) (recovery : Bool) (answers : Answers I ρ C) :
    Keeps room s (s.readPage room recovery answers).2 := by
  unfold readPage
  dsimp only
  split
  · exact .refl s
  split
  · split
    · exact .refl s
    rename_i read _
    have awaited : Keeps room s (s.await room read.meanwhile).absorb :=
      (keeps_await read.meanwhile).trans keeps_absorb
    split <;> exact awaited
  · split
    · exact .refl s
    rename_i row t answered
    have asked : Keeps room s t := by
      split at answered
      · cases answered; exact .refl s
      obtain ⟨read, -, eq⟩ := map_eq_some_iff.1 answered
      cases eq
      exact keeps_await _
    have absorbed : Keeps room s
        { t with active := { t.active with gateMessage := none } }.absorb :=
      (asked.trans (.of_same rfl rfl)).trans keeps_absorb
    split
    · exact absorbed
    split
    · exact absorbed.trans (.of_same rfl rfl)
    rename_i row
    have classified := absorbed.trans (keeps_classify (.listed row))
    split
    · exact classified.trans (.of_same rfl rfl)
    · exact classified

omit [LinearOrder I] in
theorem batch_single (c : Candidate I) : Batch [c] := ⟨by simp, .inr (by simp)⟩

theorem localPredecessor_mem {identity : I} (found : s.localPredecessor room identity = some event) :
    event ∈ s.pending.events := by
  have searched : ∀ (events : List (Event I)) (head : Option (Event I)) (boundary : Bool),
      localPredecessor.search room s identity events head boundary = some event →
        event ∈ events ∨ head = some event := by
    intro events
    induction events with
    | nil => exact nofun
    | cons first rest ih =>
      intro head boundary found
      unfold localPredecessor.search at found
      split at found
      · exact (ih head boundary found).imp_left (mem_cons_of_mem _)
      split at found
      · obtain ⟨-, found⟩ := of_passed found
        exact .inr found
      · rcases ih _ _ found with mem | eq
        · exact .inl (mem_cons_of_mem _ mem)
        cases head with
        | none => cases eq; exact .inl mem_cons_self
        | some h => exact .inr eq
  rcases searched _ _ _ found with mem | none_
  · exact mem
  · cases none_

theorem keeps_runSelected (lawful : room.life.core.Lawful) {selection : Selection I}
    (batch : Batch selection.members) (read : PageRead I C) (cs : List (Candidate I))
    (skipped : List I) (segment : List (Message I)) (answers : Answers I ρ C) :
    Keeps room s (s.runSelected room read cs selection skipped segment answers).2 := by
  unfold runSelected
  dsimp only
  split
  · rename_i event prior
    split
    · rename_i local_
      refine keeps_dispatchLocal ?_ local_ answers
      obtain ⟨-, prior⟩ := of_barred prior
      obtain ⟨c, -, found⟩ := bind_eq_some_iff.1 prior
      exact localPredecessor_mem found
    · split
      · exact .refl s
      · exact keeps_dispatchSelection lawful (batch_single _) answers
  · split
    · exact keeps_dispatchSelection lawful batch answers
    split
    · exact keeps_defer _
    · exact keeps_advanceScan read skipped segment

theorem keeps_runSelection (lawful : room.life.core.Lawful) (read : PageRead I C)
    (answers : Answers I ρ C) : Keeps room s (s.runSelection room read answers).2 := by
  have spec := selectable_spec room s read
  unfold runSelection
  refine (spec.keeps.trans (keeps_pruneSkipped lawful spec.distinct (MessageKey.lastOf read.rows)
    read.exhausted)).trans ?_
  exact keeps_runSelected lawful (selection_batch spec rfl _).1 _ _ _ _ _

omit [LinearOrder I] in
theorem nextLocal_spec (found : s.nextLocal room = some event) :
    event ∈ s.pending.events ∧ event.isOrdinary = false := by
  obtain ⟨found, local_⟩ := filter_eq_some_iff.1 found
  exact ⟨mem_of_find?_eq_some found, by simpa using local_⟩

section

variable (lawful : room.life.core.Lawful)
include lawful

theorem keeps_step (answers : Answers I ρ C) : Keeps room s (s.step room answers).2 := by
  refine keeps_absorb.trans (t := s.absorb) ?_
  unfold step
  dsimp only
  split
  · exact .refl _
  split
  · rename_i event ready
    obtain ⟨held, local_⟩ := nextLocal_spec (filter_eq_some_iff.1 ready).1
    exact keeps_dispatchLocal held local_ answers
  · have read := keeps_readPage room s.absorb
      (s.absorb.active.recovery || !s.absorb.syncComplete) answers
    split
    · rename_i outcome t ended
      rw [ended] at read
      exact read
    · rename_i page t paged
      rw [paged] at read
      refine read.trans ?_
      split
      · exact .refl t
      split
      · rename_i event queued
        obtain ⟨-, queued⟩ := of_passed queued
        obtain ⟨held, local_⟩ := nextLocal_spec queued
        exact keeps_dispatchLocal held local_ answers
      · exact keeps_runSelection lawful page answers

theorem keeps_priorityLoop (page : Page I C)
    (answers : Answers I ρ C) (cs : List (Candidate I)) (s : Scheduler I ρ C) :
    Keeps room s (priorityLoop room page answers cs s).2 := by
  induction cs generalizing s with
  | nil => exact .refl s
  | cons c rest ih =>
    unfold priorityLoop
    dsimp only
    split
    · have pruned := keeps_pruneSkipped (s := s) lawful (batch_single c).distinct
        (MessageKey.lastOf page.messages) page.nextCursor.isNone
      refine pruned.trans (Keeps.trans ?_ (ih _))
      split
      · exact keeps_defer none
      · exact .refl _
    · split
      · refine (keeps_dispatch lawful (batch_single c) true answers).trans ?_
        split <;> exact .of_same rfl rfl
      · exact ih s

theorem keeps_priorityStep (answers : Answers I ρ C) : Keeps room s (s.priorityStep room answers).2 := by
  unfold priorityStep
  split
  · exact .refl s
  dsimp only
  split
  · rename_i outcome t ended
    split at ended
    · cases ended
    split at ended
    · cases ended; exact .refl s
    rename_i read _
    have awaited : Keeps room s (s.await room read.meanwhile).absorb :=
      (keeps_await read.meanwhile).trans keeps_absorb
    split at ended
    · cases ended; exact awaited
    · split at ended <;> cases ended
      exact awaited
  · rename_i page t paged
    have read : Keeps room s t := by
      split at paged
      · cases paged; exact .refl s
      split at paged
      · cases paged
      rename_i read _
      have awaited : Keeps room s (s.await room read.meanwhile).absorb :=
        (keeps_await read.meanwhile).trans keeps_absorb
      split at paged
      · cases paged
      · split at paged <;> cases paged
        exact awaited.trans (.of_same rfl rfl)
    have spec := candidates_spec room t page.messages
    exact (read.trans spec.keeps).trans (keeps_priorityLoop lawful _ _ _ _)

theorem keeps_takeStep (answers : Answers I ρ C) : Keeps room s (s.takeStep room answers).2 := by
  unfold takeStep
  dsimp only
  split
  · rename_i event housekept
    have found : s.housekeeping = some event := by
      obtain ⟨-, housekept⟩ := of_passed housekept
      exact housekept
    refine keeps_dispatchLocal (mem_of_find?_eq_some found) ?_ answers
    have roster := List.find?_some found
    cases event with
    | message payload synthetic | bare => cases roster
    | roster serial => rfl
  · split
    · exact .refl s
    split
    · exact keeps_priorityStep lawful answers
    split
    · exact (keeps_step lawful answers).trans (.of_same rfl rfl)
    · exact keeps_step lawful answers

theorem keeps_advance (answers : Answers I ρ C) : Keeps room s (s.advance room answers).2 := by
  have taken := keeps_takeStep (s := s) lawful answers
  unfold advance
  dsimp only
  split
  · exact taken
  split
  · exact taken
  · split <;> exact taken

end

/-! ## Passes -/

theorem keeps_resumeFromGate (gate : Option (Read I ρ C)) : Keeps room s (s.resumeFromGate room gate).2 := by
  unfold resumeFromGate
  split
  · exact .refl s
  rename_i read
  have awaited : Keeps room s (s.await room read.meanwhile).absorb :=
    (keeps_await read.meanwhile).trans keeps_absorb
  dsimp only
  split
  · exact awaited
  split
  · exact awaited
  · split <;> exact awaited.trans (.of_same rfl rfl)

theorem keeps_retrySettlements (room : Settings ρ) (ids : List I) (answers : List (Write I ρ)) (s : Scheduler I ρ C) :
    Keeps room s (retrySettlements room ids answers s).2 := by
  induction ids generalizing answers s with
  | nil => exact .refl s
  | cons i rest ih =>
    unfold retrySettlements
    dsimp only
    split
    · exact .of_same rfl rfl
    · exact Keeps.trans (.of_same rfl rfl) (ih _ _)

theorem keeps_passGate (room : Settings ρ) (recovery : Bool) (gate : Option (Read I ρ C)) :
    Keeps room s (s.passGate room recovery gate).2 := by
  unfold passGate
  split
  · exact keeps_resumeFromGate gate
  · exact .refl s

theorem keeps_enterLoop (recovery : Bool) (writes : List (Write I ρ)) :
    Keeps room s (s.enterLoop room recovery writes) := by
  have retried := keeps_retrySettlements room (s.pendingAckIds room) writes s
  unfold enterLoop
  dsimp only
  split
  · exact retried
  · exact retried.trans (.of_same rfl rfl)

theorem keeps_beginPass (recovery : Bool) (gate : Option (Read I ρ C)) (writes : List (Write I ρ)) :
    Keeps room s (s.beginPass room recovery gate writes) := by
  have opened : Keeps room s (s.openPass recovery) := Keeps.trans (.of_same rfl rfl) keeps_absorb
  have gated := opened.trans (keeps_passGate room recovery gate)
  unfold beginPass
  dsimp only
  split
  · exact gated
  · exact gated.trans (keeps_enterLoop recovery writes)

theorem keeps_iterate (lawful : room.life.core.Lawful) (answers : Answers I ρ C) :
    Keeps room s (s.iterate room answers) := by
  have advanced := keeps_advance (s := s) lawful answers
  unfold iterate
  dsimp only
  split
  · exact advanced.trans (keeps_await _)
  refine Keeps.trans (advanced.trans (t := (s.advance room answers).2) ?_) (.of_same rfl rfl)
  split
  · exact keeps_defer none
  · exact .refl _

theorem keeps_react (lawful : room.life.core.Lawful) {event : SchedulerEvent I ρ C}
    (reacted : s.react room event = some t) : Keeps room s t := by
  cases event with
  | «meanwhile» m =>
    simp only [react] at reacted
    split at reacted <;> cases reacted
    exact keeps_await m
  | scheduleStarted =>
    simp only [react] at reacted
    split at reacted <;> cases reacted
    exact .of_same rfl rfl
  | begin recovery gate writes =>
    simp only [react] at reacted
    split at reacted <;> cases reacted
    exact keeps_beginPass recovery gate writes
  | iterate answers =>
    simp only [react] at reacted
    split at reacted <;> cases reacted
    exact keeps_iterate lawful answers
  | yielded =>
    simp only [react] at reacted
    split at reacted <;> cases reacted
    exact .of_same rfl rfl

end Scheduler

/-- **The scheduler never loses a retained original.**  In every run, from any
state, an ordinary original stays on the room's line until a departure that its
eligibility at that moment, or an absent turn, justifies; never while its pending
settlement permits a retry, and never for a read that has not reached it. -/
theorem retained_originals_kept (room : Settings ρ) (lawful : room.life.core.Lawful)
    (path : (scheduling room).Reaches s t) : Keeps room s t :=
  path.rel (P := fun _ => True) (R := Keeps room) trivial (fun _ _ _ _ _ => trivial) Keeps.refl
    (fun _ _ _ => Keeps.trans) fun _ _ _ _ reacted => Scheduler.keeps_react lawful reacted

/-! ### An original served and released -/

/-- A room that runs its messages one at a time. -/
def singletonRoom : Settings LedgerEntry :=
  { life := { core := ledgerCore, batching := false }, maxQueuedMessages := 20 }

def quietly : Meanwhile Nat LedgerEntry := { host := {} }

/-- A fresh scheduler with one message queued. -/
def freshScheduler : Scheduler Nat LedgerEntry Nat :=
  { world :=
      { registry := { ids := [], record := fun _ => {} }, host := {}
        queue := [.message { id := 1, insertedAt := 5 } false] } }

/-- A turn that runs to its acknowledged settlement. -/
def wholeTurn : Round Nat LedgerEntry where
  beginning := some (quietly, true)
  confirmations := [{ meanwhile := quietly }]
  preparation := some quietly
  execution := some (quietly, .settled (some .processed) false false false)
  writes := [{ meanwhile := quietly }]

/-- A recovery pass whose first step finds the message at the head of the backlog. -/
def servedRun : List (SchedulerEvent Nat LedgerEntry Nat) :=
  [.begin true none [], .iterate
      { read := some
          { meanwhile := quietly, page := fun _ => { messages := [], nextCursor := none }
            next := some { id := 1, insertedAt := 5 } }
        turn := [wholeTurn]
        sleep := quietly }]

theorem retained_originals_kept_served :
    ∃ t, (scheduling singletonRoom).run freshScheduler servedRun = some t ∧ t.pending.events = [] ∧
      t.departures.map Departure.event = [.message { id := 1, insertedAt := 5 } false] ∧
      Keeps singletonRoom freshScheduler t :=
  ⟨_, rfl, rfl, rfl, retained_originals_kept singletonRoom ledgerCore_lawful ⟨servedRun, rfl⟩⟩

end BandSdk.Scheduling

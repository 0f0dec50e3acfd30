/-
# Scheduling.Candidates -- what a step selects from

The candidates of a step are the rows it read and the originals the room
retains, each once, classified by the eligibility the registry gives it then.
Classifying changes nothing but the pass's control boundaries, and a candidate
the read listed carries what that read observed.
-/
import BandSdk.Scheduling.Scheduler
import BandSdk.Scheduling.Batches

namespace BandSdk.Scheduling

open BandSdk.Turns List

variable {I ρ C : Type} {room : Settings ρ} {s : Scheduler I ρ C}

namespace Scheduler

theorem listed_ids (rows : List (Message I)) :
    (rows.map Candidate.listed).map Candidate.messageId = rows.map Message.id := by
  rw [map_map]
  rfl

theorem retained_ids (segment : List (Message I)) :
    (segment.map Candidate.ofRetained).map Candidate.messageId = segment.map Message.id := by
  rw [map_map]
  rfl

theorem segment_mem {payload : Message I} (mem : payload ∈ s.localSegment.1) : payload ∈ s.originals := by
  obtain ⟨event, mem, eq⟩ := mem_filterMap.1 mem
  exact mem_filterMap.2 ⟨event, (takeWhile_sublist _).subset mem, eq⟩

theorem originals_ids_nodup : (s.originals.map Message.id).Nodup := by
  have ids : s.originals.map Message.id =
      s.pending.events.filterMap fun event => event.original.map Message.id := by
    rw [originals, map_filterMap]
  rw [ids]
  have sub : (s.pending.events.filterMap fun event => event.original.map Message.id).Sublist
      (s.pending.events.filterMap Event.deliveryId) := by
    induction s.pending.events with
    | nil => exact .slnil
    | cons event rest ih =>
      cases event with
      | message payload synthetic =>
        cases synthetic
        · exact ih.cons_cons _
        · exact ih.cons _
      | bare | roster serial => exact ih
  exact s.pending.distinct.sublist sub

theorem segment_sublist : s.localSegment.1.Sublist s.originals :=
  (takeWhile_sublist _).filterMap _

end Scheduler

variable [LinearOrder I]

/-- A disposition says what the registry answered. -/
structure Classified (life : Lifecycle ρ) (w : World I ρ) (c : Candidate I) : Prop where
  skip : c.disposition = .skip → life.eligibility w c ≠ .runnable ∧ life.eligibility w c ≠ .inflight
  held : c.disposition = .held → life.eligibility w c = .inflight
  runs : c.disposition ≠ .skip → c.disposition ≠ .held → life.eligibility w c = .runnable

namespace Scheduler

theorem classify_spec (room : Settings ρ) (s : Scheduler I ρ C) (c : Candidate I) :
    (∃ disposition, (s.classify room c).1 = { c with disposition := disposition }) ∧
      Classified room.life s.world (s.classify room c).1 ∧
      ∃ boundaries, (s.classify room c).2 =
        { s with active := { s.active with controlBoundaries := boundaries } } := by
  -- the eligibility of a candidate does not depend on its disposition
  have same : ∀ disposition, room.life.eligibility s.world { c with disposition := disposition } =
      room.life.eligibility s.world c := fun _ => rfl
  unfold classify
  cases answer : room.life.eligibility s.world c with
  | runnable =>
    dsimp only
    split
    · exact ⟨⟨_, rfl⟩, ⟨nofun, nofun, fun _ _ => (same _).trans answer⟩, _, rfl⟩
    split
    · exact ⟨⟨_, rfl⟩, ⟨nofun, nofun, fun _ _ => (same _).trans answer⟩, _, rfl⟩
    · exact ⟨⟨_, rfl⟩, ⟨nofun, nofun, fun _ _ => (same _).trans answer⟩, _, rfl⟩
  | inflight =>
    exact ⟨⟨_, rfl⟩, ⟨nofun, fun _ => (same _).trans answer, fun _ other => absurd rfl other⟩, _, rfl⟩
  | pending | completed | failed | other =>
    refine ⟨⟨_, rfl⟩, ⟨fun _ => ?_, nofun, fun other _ => absurd rfl other⟩, _, rfl⟩
    rw [same, answer]
    exact ⟨nofun, nofun⟩

theorem classifyAll_frame (room : Settings ρ) (cs : List (Candidate I)) (s : Scheduler I ρ C) :
    ∃ boundaries, (classifyAll room cs s).2 =
      { s with active := { s.active with controlBoundaries := boundaries } } := by
  induction cs generalizing s with
  | nil => exact ⟨_, rfl⟩
  | cons c rest ih =>
    obtain ⟨-, -, boundaries, eq⟩ := classify_spec room s c
    obtain ⟨boundaries', eq'⟩ := ih (s.classify room c).2
    refine ⟨boundaries', ?_⟩
    unfold classifyAll
    rw [eq', eq]

theorem classifyAll_world (cs : List (Candidate I)) (s : Scheduler I ρ C) :
    (classifyAll room cs s).2.world = s.world := by
  obtain ⟨boundaries, eq⟩ := classifyAll_frame room cs s
  rw [eq]

theorem map_messageId_classifyAll (cs : List (Candidate I)) (s : Scheduler I ρ C) :
    (classifyAll room cs s).1.map Candidate.messageId = cs.map Candidate.messageId := by
  induction cs generalizing s with
  | nil => rfl
  | cons c rest ih =>
    obtain ⟨⟨disposition, eq⟩, -⟩ := classify_spec room s c
    unfold classifyAll
    rw [map_cons, ih, eq]
    rfl

theorem mem_classifyAll {cs : List (Candidate I)} {s : Scheduler I ρ C} {c : Candidate I}
    (mem : c ∈ (classifyAll room cs s).1) :
    (∃ d ∈ cs, c = { d with disposition := c.disposition }) ∧ Classified room.life s.world c := by
  induction cs generalizing s with
  | nil => cases mem
  | cons d rest ih =>
    obtain ⟨⟨disposition, eq⟩, classified, boundaries, frame⟩ := classify_spec room s d
    unfold classifyAll at mem
    rcases mem_cons.1 mem with rfl | mem
    · refine ⟨⟨d, mem_cons_self, ?_⟩, classified⟩
      rw [eq]
    · obtain ⟨⟨e, mem, same⟩, classified⟩ := ih mem
      rw [frame] at classified
      exact ⟨⟨e, mem_cons_of_mem _ mem, same⟩, classified⟩

/-- What a step selects from, given the rows it read. -/
structure Selectable (room : Settings ρ) (s : Scheduler I ρ C) (rows : List (Message I))
    (cs : List (Candidate I)) (s' : Scheduler I ρ C) : Prop where
  distinct : (cs.map Candidate.messageId).Nodup
  /-- A listed candidate carries what the read observed. -/
  observed : ∀ c ∈ cs, c.messageId ∈ rows.map Message.id → c.observed.isSome = true
  known : ∀ c ∈ cs, c.messageId ∈ rows.map Message.id ∨ c.messageId ∈ s.originals.map Message.id
  classified : ∀ c ∈ cs, Classified room.life s.world c
  frame : ∃ boundaries, s' = { s with active := { s.active with controlBoundaries := boundaries } }

theorem selectable_merge {rows rest segment : List (Message I)} (sub : ∀ row ∈ rest, row ∈ rows)
    (own : ∀ payload ∈ segment, payload ∈ s.originals)
    (lists : ∀ payload ∈ segment, payload.id ∈ rows.map Message.id → payload.id ∈ rest.map Message.id) :
    Selectable room s rows
      (classifyAll room (merge (rest.map Candidate.listed) (segment.map Candidate.ofRetained)) s).1
      (classifyAll room (merge (rest.map Candidate.listed) (segment.map Candidate.ofRetained)) s).2 := by
  have known : ∀ c ∈ merge (rest.map Candidate.listed) (segment.map Candidate.ofRetained),
      c.messageId ∈ rest.map Message.id ∨ c.messageId ∈ segment.map Message.id := by
    intro c mem
    have := mem_ids_merge.1 (mem_map_of_mem (f := Candidate.messageId) mem)
    rwa [listed_ids, retained_ids] at this
  refine ⟨?_, ?_, ?_, fun c mem => (mem_classifyAll mem).2, classifyAll_frame room _ s⟩
  · rw [map_messageId_classifyAll]
    exact nodup_merge _ _
  · intro c mem listed
    obtain ⟨⟨d, member, same⟩, -⟩ := mem_classifyAll mem
    have id : c.messageId = d.messageId := by rw [same]; rfl
    have observed : c.observed = d.observed := by rw [same]
    have listed_rest : d.messageId ∈ rest.map Message.id := by
      rcases known d member with mem | mem
      · exact mem
      obtain ⟨payload, mem, eq⟩ := mem_map.1 mem
      rw [← eq]
      exact lists payload mem (by rw [eq, ← id]; exact listed)
    obtain ⟨row, mem, -, -, eq⟩ := takenFrom_merge member (by rwa [listed_ids])
    obtain ⟨payload, -, rfl⟩ := mem_map.1 mem
    rw [observed, eq]
    rfl
  · intro c mem
    obtain ⟨⟨d, member, same⟩, -⟩ := mem_classifyAll mem
    have id : c.messageId = d.messageId := by rw [same]; rfl
    rw [id]
    rcases known d member with mem | mem
    · obtain ⟨row, mem, eq⟩ := mem_map.1 mem
      exact .inl (mem_map.2 ⟨row, sub row mem, eq⟩)
    · obtain ⟨payload, mem, eq⟩ := mem_map.1 mem
      exact .inr (mem_map.2 ⟨payload, own payload mem, eq⟩)

theorem candidates_spec (room : Settings ρ) (s : Scheduler I ρ C) (rows : List (Message I)) :
    Selectable room s rows (s.candidates room rows).1 (s.candidates room rows).2 :=
  selectable_merge (fun _ mem => mem) (fun _ mem => mem) fun _ _ mem => mem

theorem batchCandidates_spec (rows : List (Message I)) (bounded : Bool) :
    Selectable room s rows (s.batchCandidates room rows s.localSegment.1 bounded).1
      (s.batchCandidates room rows s.localSegment.1 bounded).2 := by
  refine selectable_merge (fun row mem => (mem_filter.1 mem).1) (fun _ mem => segment_mem mem) ?_
  intro payload mem listed
  obtain ⟨row, row_mem, eq⟩ := mem_map.1 listed
  refine mem_map.2 ⟨row, mem_filter.2 ⟨row_mem, ?_⟩, eq⟩
  have retained : row.id ∈ s.localSegment.1.map Message.id := eq ▸ mem_map_of_mem mem
  have not_later : row.id ∉ (s.originals.map Message.id).filter
      (· ∉ s.localSegment.1.map Message.id) := by
    intro later
    simpa [retained] using (mem_filter.1 later).2
  exact decide_eq_true ⟨not_later, .inl retained⟩

theorem resumedFirst_perm (cs : List (Candidate I)) : (s.resumedFirst cs).Perm cs := by
  simpa [resumedFirst] using
    filter_append_perm (fun c : Candidate I => decide (c.messageId ∈ s.active.resumedRetries)) cs

theorem selectable_spec (room : Settings ρ) (s : Scheduler I ρ C) (read : PageRead I C) :
    Selectable room s read.rows (s.selectable room read).1 (s.selectable room read).2 := by
  unfold selectable
  dsimp only
  split
  · exact batchCandidates_spec read.rows _
  split
  · rename_i empty
    refine ⟨?_, ?_, ?_, fun c mem => (mem_classifyAll mem).2, classifyAll_frame room _ s⟩
    · rw [map_messageId_classifyAll, retained_ids]
      exact originals_ids_nodup.sublist (segment_sublist.map _)
    · intro c _ listed
      rw [empty.1] at listed
      cases listed
    · intro c mem
      obtain ⟨⟨d, member, same⟩, -⟩ := mem_classifyAll mem
      obtain ⟨payload, held, rfl⟩ := mem_map.1 member
      right
      rw [same]
      exact mem_map.2 ⟨payload, segment_mem held, rfl⟩
  · obtain ⟨distinct, observed, known, classified, frame⟩ :=
      candidates_spec room s read.rows
    have perm := resumedFirst_perm (s := (s.candidates room read.rows).2)
      (s.candidates room read.rows).1
    exact ⟨(perm.map _).nodup_iff.2 distinct, fun c mem => observed c (perm.mem_iff.1 mem),
      fun c mem => known c (perm.mem_iff.1 mem), fun c mem => classified c (perm.mem_iff.1 mem),
      frame⟩

/-- What a step dispatches is a batch a turn can narrow. -/
theorem selection_batch {rows : List (Message I)} {cs : List (Candidate I)} {s' : Scheduler I ρ C}
    (spec : Selectable room s rows cs s') {read : Frontier I}
    (listed : read.listed = rows.map Message.id) (cap : Nat) :
    Lifecycle.Batch (selectPrefix read cap cs []).members ∧
      ∀ c ∈ (selectPrefix read cap cs []).members, c ∈ cs := by
  obtain ⟨taken, sub, eq, several⟩ := selectPrefix_members read cap cs
    (fun c (mem : c ∈ []) => absurd mem not_mem_nil)
  rw [nil_append] at eq several
  rw [eq]
  refine ⟨⟨spec.distinct.sublist (sub.map _), ?_⟩, fun c mem => sub.subset mem⟩
  rcases several with all | single
  · exact .inl fun c mem => spec.observed c (sub.subset mem) (listed ▸ all c mem)
  · exact .inr single

end Scheduler

end BandSdk.Scheduling

/-
# Scheduling.Prefixes -- what a merge and a prefix are

`merge` is a set of candidates in the order of their keys: a retained original wins its
row's payload, a row its original's key.  `selectPrefix` takes the first runnable
candidates before the one that stops it, or that one alone.
-/
import BandSdk.Scheduling.Selection
import Mathlib.Data.List.TakeWhile

namespace BandSdk.Scheduling

open List Candidate Frontier

variable {I : Type} [LinearOrder I]

/-! ## Prefixes -/

namespace Frontier

variable (read : Frontier I) (c : Candidate I)

/-- The position of a candidate is known: a row of the read, a retry, or one the read has passed. -/
def places : Bool :=
  c.messageId ∈ read.listed || c.messageId ∈ read.resumed || readReaches c read.pageReaches read.exhausted

/-- The walk does not go past the candidate. -/
def stops : Bool :=
  !read.places c || (c.disposition ≠ .skip && (c.disposition = .held || c.messageId ∉ read.listed ||
    c.disposition = .control || c.disposition = .boundary))

/-- A candidate that stops the walk and may run, on its own. -/
def runsAlone : Bool := read.places c && c.disposition ≠ .held

theorem passes {c : Candidate I} (passed : read.stops c = false) :
    c.disposition = .skip ∨ (c.disposition = .runnable ∧ c.messageId ∈ read.listed) := by
  simp only [stops, Bool.or_eq_false_iff, Bool.and_eq_false_iff, Bool.not_eq_false', decide_eq_false_iff_not,
    not_not] at passed
  rcases passed.2 with skipped | ⟨⟨⟨held, listed⟩, control⟩, boundary⟩
  · exact .inl skipped
  cases its : c.disposition with
  | runnable => exact .inr ⟨rfl, listed⟩
  | skip => exact .inl rfl
  | held => exact absurd its held
  | boundary => exact absurd its boundary
  | control => exact absurd its control

/-- The runnable rows before the candidate that stops the walk. -/
def runnable (cs : List (Candidate I)) : List (Candidate I) :=
  (cs.takeWhile (!read.stops ·)).filter fun c => c.disposition = .runnable && c.messageId ∈ read.listed

/-- The candidate that stops the walk, if it may run. -/
def alone (cs : List (Candidate I)) : List (Candidate I) :=
  ((cs.find? read.stops).filter read.runsAlone).toList

/-- What one turn consumes. -/
def consumes (cap : Nat) (cs : List (Candidate I)) : List (Candidate I) :=
  if read.runnable cs = [] then read.alone cs else (read.runnable cs).take cap

variable {read c} {cs : List (Candidate I)}

theorem runnable_cons_stops (stopped : read.stops c = true) : read.runnable (c :: cs) = [] := by
  simp [runnable, stopped]

theorem runnable_cons_skip (passed : read.stops c = false) (skipped : c.disposition = .skip) :
    read.runnable (c :: cs) = read.runnable cs := by
  simp [runnable, passed, skipped]

theorem runnable_cons_runnable (passed : read.stops c = false) (its : c.disposition = .runnable)
    (listed : c.messageId ∈ read.listed) : read.runnable (c :: cs) = c :: read.runnable cs := by
  simp [runnable, passed, its, listed]

theorem alone_cons_stops (stopped : read.stops c = true) :
    read.alone (c :: cs) = if read.runsAlone c then [c] else [] := by
  cases runs : read.runsAlone c <;> simp [alone, stopped, runs, Option.filter]

theorem alone_cons_passes (passed : read.stops c = false) : read.alone (c :: cs) = read.alone cs := by
  simp [alone, passed]

end Frontier

/-- The walk, with `members` taken already: what is runnable fills the cap, and where nothing is, the
candidate that stops it may run alone. -/
theorem members_selectPrefix (read : Frontier I) {cap : Nat} (cs : List (Candidate I))
    {members : List (Candidate I)} (room : members.length < cap) :
    (selectPrefix read cap cs members).members =
      if members ++ read.runnable cs = [] then read.alone cs
      else (members ++ read.runnable cs).take cap := by
  have kept : members.take cap = members := take_of_length_le (Nat.le_of_lt room)
  induction cs generalizing members with
  | nil =>
    have none_ : read.runnable [] = [] := rfl
    simp only [selectPrefix, none_, append_nil, kept]
    split
    · rename_i empty
      rw [empty]
      rfl
    · rfl
  | cons c rest ih =>
    cases stopped : read.stops c with
    | true =>
      -- the walk ends here, with what it has or with this one
      have ends : (selectPrefix read cap (c :: rest) members).members =
          if members = [] then (if read.runsAlone c then [c] else []) else members := by
        unfold selectPrefix
        dsimp only
        split
        · rename_i unplaced
          have unplaced : read.places c = false := by
            simp [places, unplaced.1, unplaced.2.1, unplaced.2.2]
          have runs : read.runsAlone c = false := by simp [runsAlone, unplaced]
          rw [runs]
          split
          · rename_i empty
            exact empty
          · rfl
        · rename_i reached
          have placed : read.places c = true := by
            by_contra other
            refine reached ?_
            simpa [places, not_or, and_assoc] using other
          have live : c.disposition ≠ .skip := by
            rintro skipped
            simp [stops, placed, skipped] at stopped
          rw [if_neg live]
          split
          · rename_i held
            have runs : read.runsAlone c = false := by simp [runsAlone, held]
            rw [runs]
            split
            · rename_i empty
              exact empty
            · rfl
          · rename_i free
            have runs : read.runsAlone c = true := by simp [runsAlone, placed, free]
            have single : c.messageId ∉ read.listed ∨ c.disposition = .control ∨ c.disposition = .boundary := by
              simpa [stops, placed, live, free, or_assoc] using stopped
            rw [if_pos single, runs]
            rfl
      rw [ends, runnable_cons_stops stopped, append_nil, alone_cons_stops stopped, kept]
    | false =>
      have placed : read.places c = true := by
        by_contra other
        simp [stops, other] at stopped
      have reached : ¬ (c.messageId ∉ read.listed ∧ c.messageId ∉ read.resumed ∧
          readReaches c read.pageReaches read.exhausted = false) := by
        rintro ⟨unmatched, unresumed, unreached⟩
        simp [places, unmatched, unresumed, unreached] at placed
      rw [alone_cons_passes stopped]
      rcases read.passes stopped with skipped | ⟨runs, listed⟩
      · have goes : selectPrefix read cap (c :: rest) members = selectPrefix read cap rest members := by
          rw [selectPrefix, if_neg reached, if_pos skipped]
        rw [goes, ih room kept, runnable_cons_skip stopped skipped]
      · have single : ¬ (c.messageId ∉ read.listed ∨ c.disposition = .control ∨ c.disposition = .boundary) := by
          simp [listed, runs]
        have goes : selectPrefix read cap (c :: rest) members =
            if (members ++ [c]).length = cap then { members := members ++ [c], stop := .cap }
            else selectPrefix read cap rest (members ++ [c]) := by
          rw [selectPrefix, if_neg reached, if_neg (by simp [runs]), if_neg (by simp [runs]), if_neg single]
        have split_ : members ++ read.runnable (c :: rest) = (members ++ [c]) ++ read.runnable rest := by
          rw [runnable_cons_runnable stopped runs listed, append_cons]
        have some_ : members ++ read.runnable (c :: rest) ≠ [] := by
          simp [runnable_cons_runnable stopped runs listed]
        rw [goes, if_neg some_, split_]
        split
        · rename_i full
          exact (take_left' full).symm
        · rename_i open_
          have room' : (members ++ [c]).length < cap := by
            rw [length_append, length_singleton] at open_ ⊢
            omega
          have some' : (members ++ [c]) ++ read.runnable rest ≠ [] := by simp
          rw [ih room' (take_of_length_le (Nat.le_of_lt room')), if_neg some']

namespace Frontier

variable {read : Frontier I} {c : Candidate I} {cs : List (Candidate I)}

/-- What the walk passes and does not skip is what it takes. -/
theorem runnable_eq : read.runnable cs = (cs.takeWhile (!read.stops ·)).filter (·.disposition ≠ .skip) := by
  refine filter_congr ?_
  intro c mem
  have passed : read.stops c = false := by simpa using mem_takeWhile_imp mem
  rcases read.passes passed with skipped | ⟨runs, listed⟩
  · simp [skipped]
  · simp [runs, listed]

/-- Behind a candidate that stops the walk and may not run, nothing counts. -/
theorem consumes_append (stopped : read.stops c = true) (waits : read.runsAlone c = false) (cap : Nat)
    (earlier later : List (Candidate I)) :
    read.consumes cap (earlier ++ c :: later) = read.consumes cap earlier := by
  have same : read.runnable (earlier ++ c :: later) = read.runnable earlier ∧
      read.alone (earlier ++ c :: later) = read.alone earlier := by
    induction earlier with
    | nil =>
      refine ⟨runnable_cons_stops stopped, ?_⟩
      rw [nil_append, alone_cons_stops stopped, waits]
      rfl
    | cons d rest ih =>
      cases first : read.stops d with
      | true =>
        rw [cons_append, runnable_cons_stops first, runnable_cons_stops first,
          alone_cons_stops first, alone_cons_stops first]
        exact ⟨rfl, rfl⟩
      | false =>
        rw [cons_append, alone_cons_passes first, alone_cons_passes first]
        refine ⟨?_, ih.2⟩
        rcases read.passes first with skipped | ⟨runs, listed⟩
        · rw [runnable_cons_skip first skipped, runnable_cons_skip first skipped, ih.1]
        · rw [runnable_cons_runnable first runs listed, runnable_cons_runnable first runs listed, ih.1]
  rw [consumes, consumes, same.1, same.2]

theorem alone_eq_some {m : Candidate I} (mem : m ∈ read.alone cs) :
    read.alone cs = [m] ∧ cs.find? read.stops = some m ∧ read.runsAlone m = true := by
  obtain ⟨found, runs⟩ := Option.filter_eq_some_iff.1 (Option.mem_toList.1 mem)
  refine ⟨?_, found, runs⟩
  rw [alone, Option.mem_toList.1 mem]
  rfl

/-- Nothing is taken past a candidate that is not skipped. -/
theorem consumes_isPrefix (cap : Nat) (cs : List (Candidate I)) :
    read.consumes cap cs <+: cs.filter (·.disposition ≠ .skip) := by
  unfold consumes
  split
  · rename_i none_
    cases its : read.alone cs with
    | nil => exact nil_prefix
    | cons m rest =>
      obtain ⟨single, found, runs⟩ := alone_eq_some (its ▸ mem_cons_self : m ∈ read.alone cs)
      obtain ⟨stopped, earlier, later, rfl, passed⟩ := List.find?_eq_some_iff_append.1 found
      have live : m.disposition ≠ .skip := by
        intro skipped
        have placed : read.places m = true := by simp_all [runsAlone]
        simp [stops, placed, skipped] at stopped
      have skips : earlier.filter (·.disposition ≠ .skip) = [] := by
        rw [runnable_eq, takeWhile_append_of_pos passed] at none_
        simpa [stopped] using none_
      rw [← its, single, filter_append, skips, nil_append, filter_cons_of_pos (by simpa using live)]
      exact ⟨_, rfl⟩
  · refine (List.take_prefix ..).trans ?_
    rw [runnable_eq]
    exact (List.takeWhile_prefix _).filter _

end Frontier

/-- **The prefix one turn consumes.**  It is the first runnable rows before the candidate that stops the
walk, or that one alone.  So nothing overtakes a candidate that is not skipped, nothing lies at or behind one
whose position is unknown or whose claim another holds, and a control or an unmatched original is alone. -/
theorem selectPrefix_consumes (read : Frontier I) {cap : Nat} (positive : 1 ≤ cap) (cs : List (Candidate I)) :
    (selectPrefix read cap cs []).members = read.consumes cap cs ∧
    (selectPrefix read cap cs []).members <+: cs.filter (·.disposition ≠ .skip) ∧
    (∀ earlier c later, cs = earlier ++ c :: later → read.places c = false ∨ c.disposition = .held →
      (selectPrefix read cap cs []).members <+: earlier.filter (·.disposition ≠ .skip)) ∧
    (∀ m ∈ (selectPrefix read cap cs []).members, m.messageId ∉ read.listed ∨ m.disposition = .control ∨
      m.disposition = .boundary → (selectPrefix read cap cs []).members = [m]) := by
  have spec : (selectPrefix read cap cs []).members = read.consumes cap cs := by
    have walked := @members_selectPrefix I _ read cap cs [] positive
    rwa [nil_append] at walked
  rw [spec]
  refine ⟨rfl, consumes_isPrefix cap cs, ?_, ?_⟩
  · rintro earlier c later rfl why
    have waits : read.runsAlone c = false := by
      rcases why with unplaced | held
      · simp [runsAlone, unplaced]
      · simp [runsAlone, held]
    have stopped : read.stops c = true := by
      rcases why with unplaced | held
      · simp [stops, unplaced]
      · simp [stops, held]
    rw [consumes_append stopped waits]
    exact consumes_isPrefix cap earlier
  · intro m mem single
    unfold consumes at mem ⊢
    split
    · rename_i none_
      rw [if_pos none_] at mem
      exact (alone_eq_some mem).1
    · rename_i some_
      rw [if_neg some_] at mem
      have runs := (mem_filter.1 (mem_of_mem_take mem)).2
      simp only [Bool.and_eq_true, decide_eq_true_eq] at runs
      rcases single with unmatched | control | boundary
      · exact absurd runs.2 unmatched
      · simp [runs.1] at control
      · simp [runs.1] at boundary

/-- Two rows are taken, and the retained original behind them waits for a turn of its own. -/
theorem selectPrefix_consumes_two : 1 ≤ 5 ∧
    (selectPrefix (I := Nat) ⟨[1, 2], none, true, []⟩ 5 [.listed ⟨1, 1, false, none⟩, .listed ⟨2, 2, false, none⟩,
      .ofRetained ⟨3, 3, false, none⟩] []).members =
        [.listed ⟨1, 1, false, none⟩, .listed ⟨2, 2, false, none⟩] := by
  refine ⟨by decide, ?_⟩
  rw [(selectPrefix_consumes ⟨[1, 2], none, true, []⟩ (by decide) _).1]
  decide

/-- A held original that the read has passed does not run alone, and a resumed one does that the read has
not reached. -/
theorem held_never_alone :
    (selectPrefix (I := Nat) ⟨[], none, true, []⟩ 1
      [{ ofRetained ⟨1, 1, false, none⟩ with disposition := .held }] []).members = [] ∧
    (selectPrefix (I := Nat) ⟨[], none, false, [1]⟩ 1 [.ofRetained ⟨1, 1, false, none⟩] []).members =
      [.ofRetained ⟨1, 1, false, none⟩] := by
  decide

/-! ## Merges -/

section Merge

variable {merged rest retained : List (Candidate I)} {c d : Candidate I}

section

variable (distinct : (merged.map Candidate.messageId).Nodup)
include distinct

theorem mem_assign_iff : d ∈ assign merged c ↔ d = c ∨ (d ∈ merged ∧ d.messageId ≠ c.messageId) := by
  unfold assign
  split
  · rename_i held
    obtain ⟨seen, inside, same⟩ := any_eq_true.1 held
    have same : seen.messageId = c.messageId := of_decide_eq_true same
    constructor
    · intro mem
      obtain ⟨e, old, rfl⟩ := mem_map.1 mem
      split
      · exact .inl rfl
      · rename_i apart
        exact .inr ⟨old, apart⟩
    · rintro (rfl | ⟨old, apart⟩)
      · exact mem_map.2 ⟨seen, inside, by rw [if_pos same]⟩
      · exact mem_map.2 ⟨d, old, by rw [if_neg apart]⟩
  · rename_i absent
    rw [mem_append, mem_singleton, or_comm]
    refine or_congr_right ⟨fun old => ⟨old, fun same => absent ?_⟩, And.left⟩
    exact any_eq_true.2 ⟨d, old, decide_eq_true same⟩

theorem find?_eq_some_iff {i : I} : merged.find? (·.messageId = i) = some d ↔ d ∈ merged ∧ d.messageId = i := by
  constructor
  · intro found
    exact ⟨mem_of_find?_eq_some found, by simpa using List.find?_some found⟩
  · rintro ⟨inside, rfl⟩
    cases found : merged.find? (·.messageId = d.messageId) with
    | none => exact absurd (decide_eq_true rfl) (List.find?_eq_none.1 found d inside)
    | some e =>
      have same : e.messageId = d.messageId := by simpa using List.find?_some found
      rw [inj_on_of_nodup_map distinct (mem_of_find?_eq_some found) inside same]

/-- What an original becomes depends on the entry of its id alone. -/
theorem resolve_congr (apart : (rest.map Candidate.messageId).Nodup)
    (same : ∀ e, e.messageId = c.messageId → (e ∈ merged ↔ e ∈ rest)) : resolve merged c = resolve rest c := by
  have found : merged.find? (·.messageId = c.messageId) = rest.find? (·.messageId = c.messageId) := by
    refine Option.ext fun e => ?_
    rw [find?_eq_some_iff distinct, find?_eq_some_iff apart]
    exact and_congr_left fun its => same e its
  rw [resolve, resolve, found]

end

theorem mem_rows (apart : (rest.map Candidate.messageId).Nodup) : d ∈ rest.foldl assign [] ↔ d ∈ rest := by
  have grown : ∀ merged : List (Candidate I), ((merged ++ rest).map messageId).Nodup →
      rest.foldl assign merged = merged ++ rest := by
    clear apart
    induction rest with
    | nil => simp
    | cons c rest ih =>
      intro merged distinct
      have new : assign merged c = merged ++ [c] := by
        refine if_neg ?_
        rintro held
        obtain ⟨e, inside, same⟩ := any_eq_true.1 held
        rw [map_append, nodup_append] at distinct
        exact distinct.2.2 _ (mem_map_of_mem inside) c.messageId (by simp) (of_decide_eq_true same)
      rw [foldl_cons, new, ih _ (by rwa [← append_cons]), ← append_cons]
  rw [grown [] apart, nil_append]

/-- The originals, each with what its row says of it, and the rows no original is of. -/
theorem mem_unite_iff (apart : (rest.map Candidate.messageId).Nodup)
    (apart' : (retained.map Candidate.messageId).Nodup) :
    d ∈ unite rest retained ↔ (d ∈ rest ∧ d.messageId ∉ retained.map Candidate.messageId) ∨
      ∃ c ∈ retained, d = resolve rest c := by
  -- of the ids that are still to come, the entries are the rows
  have folded : ∀ merged : List (Candidate I), (merged.map messageId).Nodup →
      (∀ e, e.messageId ∈ retained.map messageId → (e ∈ merged ↔ e ∈ rest)) →
      (d ∈ retained.foldl (fun merged c => assign merged (resolve merged c)) merged ↔
        (d ∈ merged ∧ d.messageId ∉ retained.map messageId) ∨ ∃ c ∈ retained, d = resolve rest c) := by
    induction retained with
    | nil => simp
    | cons c retained ih =>
      intro merged distinct same
      have resolved : resolve merged c = resolve rest c :=
        resolve_congr distinct apart fun e its => same e (by simp [its])
      have named : (resolve rest c).messageId = c.messageId := messageId_resolve rest c
      rw [map_cons, nodup_cons] at apart'
      have later : ∀ e, e.messageId ∈ retained.map messageId →
          (e ∈ assign merged (resolve merged c) ↔ e ∈ rest) := by
        intro e mem
        have other : e.messageId ≠ c.messageId := fun its => apart'.1 (its ▸ mem)
        rw [mem_assign_iff distinct, resolved, named]
        constructor
        · rintro (rfl | ⟨old, -⟩)
          · exact absurd named other
          · exact (same e (mem_cons_of_mem _ mem)).1 old
        · exact fun row => .inr ⟨(same e (mem_cons_of_mem _ mem)).2 row, other⟩
      rw [foldl_cons, ih apart'.2 _ (nodup_assign distinct _) later, mem_assign_iff distinct, resolved,
        named, map_cons]
      simp only [mem_cons, not_or, exists_eq_or_imp]
      constructor
      · rintro (⟨rfl | ⟨old, other⟩, absent⟩ | its)
        · exact .inr (.inl rfl)
        · exact .inl ⟨old, other, absent⟩
        · exact .inr (.inr its)
      · rintro (⟨old, other, absent⟩ | rfl | its)
        · exact .inl ⟨.inr ⟨old, other⟩, absent⟩
        · exact .inl ⟨.inl rfl, by rw [named]; exact apart'.1⟩
        · exact .inr its
  have rows : ((rest.foldl assign []).map messageId).Nodup :=
    foldlRecOn (motive := fun merged : List (Candidate I) => (merged.map messageId).Nodup) rest _
      nodup_nil fun merged distinct c _ => nodup_assign distinct c
  rw [unite, folded _ rows fun e _ => mem_rows apart, mem_rows apart]

/-- Distinct ids have distinct keys. -/
theorem merge_strict (rest retained : List (Candidate I)) : (merge rest retained).Pairwise (·.key < ·.key) := by
  have apart : (merge rest retained).Pairwise (·.messageId ≠ ·.messageId) :=
    pairwise_map.1 (nodup_merge rest retained)
  refine ((merge_sorted rest retained).and apart).imp ?_
  rintro a b ⟨below, other⟩
  exact lt_of_le_of_ne below fun same => other (by rw [messageId, same, messageId])

theorem mem_merge_iff (apart : (rest.map Candidate.messageId).Nodup)
    (apart' : (retained.map Candidate.messageId).Nodup) :
    d ∈ merge rest retained ↔ (d ∈ rest ∧ d.messageId ∉ retained.map Candidate.messageId) ∨
      ∃ c ∈ retained, d = resolve rest c :=
  (merge_perm rest retained).mem_iff.trans (mem_unite_iff apart apart')

/-- Lists in the order of their keys that hold the same candidates are one list. -/
theorem eq_of_mem_iff {first second : List (Candidate I)} (sorted : first.Pairwise (·.key < ·.key))
    (sorted' : second.Pairwise (·.key < ·.key)) (same : ∀ d, d ∈ first ↔ d ∈ second) : first = second := by
  have distinct : ∀ {l : List (Candidate I)}, l.Pairwise (·.key < ·.key) → l.Nodup := fun sorted =>
    sorted.imp fun below same => absurd (same ▸ below) (lt_irrefl _)
  have perm : first.Perm second := (perm_ext_iff_of_nodup (distinct sorted) (distinct sorted')).2 same
  exact perm.eq_of_pairwise (fun a b _ _ below above => absurd below (lt_asymm above)) sorted sorted'

/-- **A merge is its candidates, in the order of their keys.**  Each id of either list is there once, with
the original's event where one is retained and the row's key, disposition and metadata where one is listed;
and the order of the lists does not matter. -/
theorem merge_spec (apart : (rest.map Candidate.messageId).Nodup)
    (apart' : (retained.map Candidate.messageId).Nodup) :
    ((merge rest retained).map Candidate.messageId).Nodup ∧
    (∀ i, i ∈ (merge rest retained).map Candidate.messageId ↔
      i ∈ rest.map Candidate.messageId ∨ i ∈ retained.map Candidate.messageId) ∧
    (merge rest retained).Pairwise (·.key < ·.key) ∧
    (∀ d ∈ merge rest retained, ∀ c ∈ retained, c.messageId = d.messageId →
      d.event = c.event ∧ d.retained = c.retained) ∧
    (∀ d ∈ merge rest retained, ∀ row ∈ rest, row.messageId = d.messageId →
      d.key = row.key ∧ d.disposition = row.disposition ∧ d.observed = row.observed) ∧
    (∀ d ∈ merge rest retained, d.messageId ∉ retained.map Candidate.messageId → d ∈ rest) ∧
    (∀ d ∈ merge rest retained, d.messageId ∉ rest.map Candidate.messageId → d ∈ retained) ∧
    (∀ rest' retained', rest.Perm rest' → retained.Perm retained' →
      merge rest' retained' = merge rest retained) := by
  refine ⟨nodup_merge rest retained, fun i => mem_ids_merge, merge_strict rest retained, ?_, ?_, ?_, ?_, ?_⟩
  · intro d mem c held same
    rcases (mem_merge_iff apart apart').1 mem with ⟨-, absent⟩ | ⟨c', held', rfl⟩
    · exact absurd (same ▸ mem_map_of_mem held) absent
    · rw [messageId_resolve] at same
      rw [inj_on_of_nodup_map apart' held held' same]
      unfold resolve
      split
      · exact ⟨rfl, rfl⟩
      · exact ⟨rfl, rfl⟩
  · intro d mem row listed same
    rcases (mem_merge_iff apart apart').1 mem with ⟨inside, -⟩ | ⟨c, held, rfl⟩
    · rw [inj_on_of_nodup_map apart listed inside same]
      exact ⟨rfl, rfl, rfl⟩
    · rw [messageId_resolve] at same
      rw [resolve, (find?_eq_some_iff apart).2 ⟨listed, same⟩]
      exact ⟨rfl, rfl, rfl⟩
  · intro d mem absent
    rcases (mem_merge_iff apart apart').1 mem with ⟨inside, -⟩ | ⟨c, held, rfl⟩
    · exact inside
    · rw [messageId_resolve] at absent
      exact absurd (mem_map_of_mem held) absent
  · intro d mem absent
    rcases (mem_merge_iff apart apart').1 mem with ⟨inside, -⟩ | ⟨c, held, rfl⟩
    · exact absurd (mem_map_of_mem inside) absent
    · rw [messageId_resolve] at absent
      have none_ : rest.find? (·.messageId = c.messageId) = none := by
        refine List.find?_eq_none.2 fun e inside its => absent ?_
        exact of_decide_eq_true its ▸ mem_map_of_mem inside
      rw [resolve, none_]
      exact held
  · intro rest' retained' rows originals
    have apart₁ : (rest'.map messageId).Nodup := (rows.map _).nodup_iff.1 apart
    have apart₂ : (retained'.map messageId).Nodup := (originals.map _).nodup_iff.1 apart'
    refine eq_of_mem_iff (merge_strict ..) (merge_strict ..) fun d => ?_
    rw [mem_merge_iff apart apart', mem_merge_iff apart₁ apart₂]
    have resolves : ∀ c, resolve rest' c = resolve rest c := fun c =>
      resolve_congr apart₁ apart fun e _ => rows.mem_iff.symm
    simp only [rows.mem_iff, originals.mem_iff, (originals.map messageId).mem_iff, resolves]

/-- A retained original keeps its event and takes the key of its row. -/
theorem merge_spec_both : (([.listed ⟨1, 7, false, none⟩] : List (Candidate Nat)).map Candidate.messageId).Nodup ∧
    (([.ofRetained ⟨1, 3, false, none⟩] : List (Candidate Nat)).map Candidate.messageId).Nodup ∧
    ((merge [.listed ⟨1, 7, false, none⟩] [.ofRetained ⟨1, 3, false, none⟩] : List (Candidate Nat)).map
      Candidate.messageId).Nodup ∧
    (merge [.listed ⟨1, 7, false, none⟩] [.ofRetained ⟨1, 3, false, none⟩] : List (Candidate Nat)).map
      (fun d => (d.key, d.event.insertedAt, d.retained)) = [(toLex (7, 1), 3, true)] :=
  ⟨by decide, by decide, (merge_spec (by decide) (by decide)).1, by decide⟩

/-- **One turn's members.**  From any rows and retained originals, a turn takes at most `cap` messages in
the order of their positions, and nothing it could not skip is before one of them. -/
theorem members_in_order (read : Frontier I) {cap : Nat} (positive : 1 ≤ cap) (rest retained : List (Candidate I)) :
    let members := (selectPrefix read cap (merge rest retained) []).members
    members.length ≤ cap ∧ members.Pairwise (·.key < ·.key) ∧
      ∀ m ∈ members, ∀ c ∈ merge rest retained, c.key < m.key → c.disposition ≠ .skip → c ∈ members := by
  have walked := @members_selectPrefix I _ read cap (merge rest retained) [] positive
  rw [nil_append] at walked
  obtain ⟨left, cut⟩ : read.consumes cap (merge rest retained) <+: _ := consumes_isPrefix cap _
  have sorted := (merge_strict rest retained).filter (fun c => decide (c.disposition ≠ .skip))
  rw [← cut, pairwise_append] at sorted
  simp only [walked]
  refine ⟨?_, sorted.1, fun m member c merged before unskipped => ?_⟩
  · split
    · exact (Option.length_toList_le ..).trans positive
    · exact length_take_le ..
  · have listed : c ∈ read.consumes cap (merge rest retained) ++ left := by
      rw [cut]
      simpa using ⟨merged, unskipped⟩
    refine (mem_append.1 listed).resolve_right fun later => ?_
    exact absurd before (sorted.2.2 m member c later).not_gt

theorem members_in_order_two : ((selectPrefix (I := Nat) ⟨[1, 2], none, true, []⟩ 5
      (merge [.listed ⟨2, 2, false, none⟩, .listed ⟨1, 1, false, none⟩] []) []).members.map Candidate.messageId) = [1, 2] ∧
    (selectPrefix (I := Nat) ⟨[1, 2], none, true, []⟩ 5
      (merge [.listed ⟨2, 2, false, none⟩, .listed ⟨1, 1, false, none⟩] []) []).members.Pairwise (·.key < ·.key) :=
  ⟨by decide, (members_in_order _ (by decide) _ _).2.1⟩

end Merge

end BandSdk.Scheduling

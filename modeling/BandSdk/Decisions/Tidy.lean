/-
# Decisions.Tidy -- the three structures of a registry, in step

`Tidy` ties the core, the entries and the timers together: the core holds exactly the
entries, in their order, with the claims made on them; and a timeout task that is still
asleep is the one its entry's token has in the timer map.  Each operation has one lemma
that says what it does to a tidy registry.
-/
import BandSdk.Decisions.Registry
import Mathlib.Data.List.Nodup

namespace BandSdk.Decisions

open BandSdk.Theory List DecisionEntry Keyed Registry

/-! ## A tidy registry -/

section Tidy

variable {C T : Type} [DecidableEq T] {core : Core C} {slots : C → List Slot}

set_option linter.unusedSectionVars false

/-- The core's view of an entry. -/
def slotOf (claims : List (DecisionEntry T)) (entry : DecisionEntry T) : Slot :=
  ⟨entry.token, entry.ticket, decide (entry ∈ claims)⟩

structure Mirrors (slots : C → List Slot) (claims : List (DecisionEntry T)) (r : Registry C T) :
    Prop where
  mirror : slots r.core = r.entries.map (slotOf claims)
  tokens : (r.entries.map DecisionEntry.token).Nodup

/-- The timer map: one task for a token, that of the entry held, and no other one asleep. -/
structure Timers (claims : List (DecisionEntry T)) (late : List Nat) (r : Registry C T) : Prop where
  keys : (r.timeouts.map Prod.fst).Nodup
  held : ∀ pair ∈ r.timeouts, ∃ task, r.tasks[pair.2]? = some task ∧ task.entry.token = pair.1 ∧
    task.entry ∈ r.entries
  asleep : ∀ i task, r.tasks[i]? = some task → task.status = .sleeping → (task.entry.token, i) ∈ r.timeouts
  early : ∀ i task, r.tasks[i]? = some task → task.status = .sleeping → task.entry ∈ claims → i ∈ late

structure Tidy (slots : C → List Slot) (claims : List (DecisionEntry T)) (late : List Nat)
    (r : Registry C T) : Prop extends Mirrors slots claims r, Timers claims late r

variable {claims : List (DecisionEntry T)} {late : List Nat} {r r' : Registry C T}
  {entry : DecisionEntry T} {older newer : List (DecisionEntry T)} {token : String} {current : Option Nat}

@[simp] theorem cancelTimeout_core : (r.cancelTimeout current token).core = r.core := by
  unfold cancelTimeout
  split <;> rfl

@[simp] theorem cancelTimeout_entries : (r.cancelTimeout current token).entries = r.entries := by
  unfold cancelTimeout
  split <;> rfl

@[simp] theorem cancelTimeout_made : (r.cancelTimeout current token).made = r.made := by
  unfold cancelTimeout
  split <;> rfl

@[simp] theorem cancelTimeout_tasks_length : (r.cancelTimeout current token).tasks.length = r.tasks.length := by
  unfold cancelTimeout
  split
  · rfl
  · dsimp only
    split <;> simp

theorem get_some (known : r.get token = some entry) : entry ∈ r.entries ∧ entry.token = token :=
  ⟨mem_of_find?_eq_some known, by simpa using List.find?_some known⟩

section

variable (mirrors : Mirrors slots claims r)
include mirrors

theorem Mirrors.get_of_mem (mem : entry ∈ r.entries) : r.get entry.token = some entry := by
  obtain ⟨older, newer, split⟩ := append_of_mem mem
  have apart := mirrors.tokens
  rw [Registry.get, split]
  exact find_split (split ▸ apart)

theorem Mirrors.holds_iff : r.holds entry = true ↔ entry ∈ r.entries := by
  rw [holds, decide_eq_true_eq]
  exact ⟨fun known => (get_some known).1, mirrors.get_of_mem⟩

/-- Where the core has a registration, the wrapper has its entry. -/
theorem Mirrors.split {before after : List Slot} {ticket : Nat} {claimed : Bool}
    (found : slots r.core = before ++ ⟨token, ticket, claimed⟩ :: after) :
    ∃ older entry newer, r.entries = older ++ entry :: newer ∧ entry.token = token ∧
      entry.ticket = ticket ∧ decide (entry ∈ claims) = claimed ∧
      before = older.map (slotOf claims) ∧ after = newer.map (slotOf claims) := by
  rw [mirrors.mirror, map_eq_append_iff] at found
  obtain ⟨older, rest, split, first, second⟩ := found
  obtain ⟨entry, newer, rfl, same, last⟩ := map_eq_cons_iff.1 second
  obtain ⟨named, numbered, open_⟩ := Slot.mk.inj same
  exact ⟨older, entry, newer, split, named, numbered, open_, first.symm, last.symm⟩

/-- Where the wrapper has an entry, the core has its registration. -/
theorem Mirrors.slots_split (split : r.entries = older ++ entry :: newer) :
    slots r.core = older.map (slotOf claims) ++
      ⟨entry.token, entry.ticket, decide (entry ∈ claims)⟩ :: newer.map (slotOf claims) := by
  rw [mirrors.mirror, split]
  simp [slotOf]

theorem Mirrors.get_none (absent : r.get token = none) : ∀ slot ∈ slots r.core, slot.token ≠ token := by
  intro slot mem
  rw [mirrors.mirror] at mem
  obtain ⟨entry, held, rfl⟩ := mem_map.1 mem
  simpa [slotOf] using List.find?_eq_none.1 absent entry held

end

/-! ### Timers -/

section

variable (timers : Timers claims late r)
include timers

/-- After `_cancel_timeout`, the token has no timer; the current task is not asleep. -/
theorem Timers.cancelTimeout (awake : ∀ i task, current = some i → r.tasks[i]? = some task → task.status ≠ .sleeping) :
    Timers claims late (r.cancelTimeout current token) ∧
      ∀ pair ∈ (r.cancelTimeout current token).timeouts, pair.1 ≠ token := by
  unfold Registry.cancelTimeout
  split
  next absent =>
    refine ⟨timers, ?_⟩
    intro pair mem same
    have found := get_of_mem timers.keys mem
    rw [same, absent] at found
    cases found
  next i known =>
    have only : ∀ j, (token, j) ∈ r.timeouts → j = i := by
      intro j mem
      have found := get_of_mem timers.keys mem
      exact Option.some.inj (found.symm.trans known)
    -- a task after the call is one from before, with its status changed at most at `i`
    have before : ∀ (j : Nat) (task : TimeoutTask T),
        (if current = some i then r.tasks else r.tasks.modify i TimeoutTask.cancel)[j]? = some task →
        ∃ old, r.tasks[j]? = some old ∧ old.entry = task.entry ∧
          (task.status = .sleeping → old.status = .sleeping ∧ j ≠ i) := by
      intro j task found
      split at found
      next self =>
        refine ⟨task, found, rfl, fun asleep => ⟨asleep, ?_⟩⟩
        rintro rfl
        exact awake j task self found asleep
      · rw [getElem?_modify] at found
        obtain ⟨old, was, rfl⟩ := Option.map_eq_some_iff.1 found
        refine ⟨old, was, ?_, ?_⟩
        · split <;> rfl
        split
        · rcases old with ⟨entry, status⟩
          cases status <;> simp [TimeoutTask.cancel, TaskStatus.cancel]
        next other => exact fun asleep => ⟨asleep, fun same => other same.symm⟩
    have after : ∀ (j : Nat) (old : TimeoutTask T), r.tasks[j]? = some old → ∃ task : TimeoutTask T,
        (if current = some i then r.tasks else r.tasks.modify i TimeoutTask.cancel)[j]? = some task ∧
        task.entry = old.entry := by
      intro j old was
      split
      · exact ⟨old, was, rfl⟩
      rw [getElem?_modify, was]
      refine ⟨_, rfl, ?_⟩
      split <;> rfl
    refine ⟨⟨?_, ?_, ?_, ?_⟩, ?_⟩
    · exact timers.keys.sublist (filter_sublist.map _)
    · intro pair mem
      obtain ⟨task, found, named, held⟩ := timers.held pair (mem_filter.1 mem).1
      obtain ⟨task', found', same⟩ := after pair.2 task found
      exact ⟨task', found', by rw [same, named], by rwa [same]⟩
    · intro j task found asleep
      obtain ⟨old, was, same, slept⟩ := before j task found
      obtain ⟨sleeping, other⟩ := slept asleep
      refine mem_filter.2 ⟨same ▸ timers.asleep j old was sleeping, ?_⟩
      simp only [decide_eq_true_eq]
      intro named
      exact other (only j (named ▸ same ▸ timers.asleep j old was sleeping))
    · intro j task found asleep claimed
      obtain ⟨old, was, same, slept⟩ := before j task found
      exact timers.early j old was (slept asleep).1 (same ▸ claimed)
    · intro pair mem
      simpa using (mem_filter.1 mem).2

theorem Timers.cancelled (token : String) :
    Timers claims late (r.cancelTimeout none token) ∧
      ∀ pair ∈ (r.cancelTimeout none token).timeouts, pair.1 ≠ token :=
  timers.cancelTimeout nofun

theorem Timers.change (cleared : ∀ pair ∈ r.timeouts, pair.1 ≠ token)
    (kept : ∀ other ∈ r.entries, other.token ≠ token → other ∈ r'.entries)
    (sameTimeouts : r'.timeouts = r.timeouts) (sameTasks : r'.tasks = r.tasks) :
    Timers claims late r' := by
  refine ⟨?_, ?_, ?_, ?_⟩
  · rw [sameTimeouts]
    exact timers.keys
  · rw [sameTimeouts, sameTasks]
    intro pair mem
    obtain ⟨task, found, named, held⟩ := timers.held pair mem
    exact ⟨task, found, named, kept _ held (named ▸ cleared pair mem)⟩
  · rw [sameTimeouts, sameTasks]
    exact timers.asleep
  · rw [sameTasks]
    exact timers.early

theorem Timers.withCore (c : C) : Timers claims late { r with core := c } :=
  ⟨timers.keys, timers.held, timers.asleep, timers.early⟩

/-! ### Operations -/

theorem Timers.discard (apart : (r.entries.map DecisionEntry.token).Nodup)
    (split : r.entries = older ++ entry :: newer) :
    ∃ r', r.discard entry.token = (.ok entry, r') ∧ Timers claims late r' ∧
      r'.entries = older ++ newer ∧ r'.core = r.core ∧ r'.made = r.made := by
  rw [split] at apart
  obtain ⟨cancelled, cleared⟩ := timers.cancelled entry.token
  have found : (r.cancelTimeout none entry.token).get entry.token = some entry := by
    rw [Registry.get, cancelTimeout_entries, split]
    exact find_split apart
  have erased : r.entries.eraseP (·.token = entry.token) = older ++ newer := by
    rw [split, eraseP_split apart]
  refine ⟨{ r.cancelTimeout none entry.token with entries := older ++ newer }, ?_, ?_, rfl, by simp, by simp⟩
  · simp only [Registry.discard, found, cancelTimeout_entries, erased]
  refine cancelled.change cleared ?_ rfl rfl
  intro other held differs
  rw [cancelTimeout_entries, split] at held
  simp only [mem_append, mem_cons] at held ⊢
  rcases held with before | rfl | after
  · exact .inl before
  · exact absurd rfl differs
  · exact .inr after

end

/-- The core gave up a registration, and the wrapper its entry. -/
theorem Tidy.discard (tidy : Tidy slots claims late r) (split : r.entries = older ++ entry :: newer)
    {c : C} (given : slots c = older.map (slotOf claims) ++ newer.map (slotOf claims)) :
    ∃ r', { r with core := c }.discard entry.token = (.ok entry, r') ∧ Tidy slots claims late r' ∧
      r'.entries = older ++ newer ∧ r'.made = r.made := by
  obtain ⟨r', discarded, timers, entries, sameCore, made⟩ :=
    (tidy.toTimers.withCore c).discard tidy.tokens split
  refine ⟨r', discarded, ⟨⟨?_, ?_⟩, timers⟩, entries, made⟩
  · rw [sameCore, entries, given, map_append]
  have apart := tidy.tokens
  rw [split] at apart
  rw [entries]
  refine apart.sublist (List.Sublist.map _ ?_)
  exact List.Sublist.append_left (sublist_cons_self entry newer) older

/-- A write to the map, once the core has registered it. -/
theorem Tidy.store {entries : List (DecisionEntry T)} {c : C} {payload : T} {ticket : Nat}
    (tidy : Tidy slots claims late r)
    (written : Keyed.put DecisionEntry.token Keyed.replace ⟨r.made, token, ticket, payload⟩ r.entries =
      entries) (given : slots c = entries.map (slotOf claims))
    (kept : ∀ other ∈ r.entries, other.token ≠ token → other ∈ entries) :
    ∃ r', { r with core := c }.store payload token ticket = (⟨r.made, token, ticket, payload⟩, r') ∧
      Tidy slots claims late r' ∧ r'.entries = entries ∧ r'.made = r.made + 1 := by
  obtain ⟨timers, cleared⟩ := (tidy.toTimers.withCore c).cancelled token
  let base := { r with core := c }.cancelTimeout none token
  refine ⟨{ base with entries := entries, made := r.made + 1 }, ?_, ⟨⟨?_, ?_⟩, ?_⟩, rfl, rfl⟩
  · simp only [Registry.store, cancelTimeout_entries, cancelTimeout_made, written, base]
  · simp [base, given]
  · rw [← written]
    exact nodup_put key_replace tidy.tokens
  · refine timers.change cleared ?_ rfl rfl
    intro other held differs
    rw [cancelTimeout_entries] at held
    exact kept other held differs

theorem slotOf_new {payload : T} {ticket : Nat} (fresh : ∀ other ∈ claims, other.id < r.made) :
    slotOf claims ⟨r.made, token, ticket, payload⟩ = ⟨token, ticket, false⟩ := by
  have unclaimed : (⟨r.made, token, ticket, payload⟩ : DecisionEntry T) ∉ claims := by
    intro mem
    exact absurd (fresh _ mem) (Nat.lt_irrefl r.made)
  simp [slotOf, unclaimed]

section

variable (tidy : Tidy slots claims late r) (payload : T) (fresh : ∀ other ∈ claims, other.id < r.made)
include tidy payload fresh

/-- A registration under a token the core had none for. -/
theorem Tidy.store_new {c : C} {ticket : Nat} (absent : ∀ slot ∈ slots r.core, slot.token ≠ token)
    (given : slots c = slots r.core ++ [⟨token, ticket, false⟩]) :
    ∃ r', { r with core := c }.store payload token ticket = (⟨r.made, token, ticket, payload⟩, r') ∧
      Tidy slots claims late r' ∧ r'.entries = r.entries ++ [⟨r.made, token, ticket, payload⟩] ∧
      r'.made = r.made + 1 := by
  apply tidy.store
  · apply put_absent
    intro other held
    exact absent (slotOf claims other) (by rw [tidy.mirror]; exact mem_map_of_mem held)
  · rw [given, tidy.mirror, map_append, map_singleton, slotOf_new fresh]
  · intro other held _
    exact mem_append_left _ held

/-- A registration in the place of an open one. -/
theorem Tidy.store_over {c : C} {ticket : Nat} (split : r.entries = older ++ entry :: newer)
    (given : slots c = older.map (slotOf claims) ++ ⟨entry.token, ticket, false⟩ ::
      newer.map (slotOf claims)) :
    ∃ r', { r with core := c }.store payload entry.token ticket = (⟨r.made, entry.token, ticket, payload⟩, r') ∧
      Tidy slots claims late r' ∧ r'.entries = older ++ ⟨r.made, entry.token, ticket, payload⟩ :: newer ∧
      r'.made = r.made + 1 := by
  have apart := tidy.tokens
  rw [split] at apart
  apply tidy.store
  · rw [split]
    exact put_split apart rfl
  · rw [given, map_append, map_cons, slotOf_new fresh]
  intro other held differs
  rw [split] at held
  simp only [mem_append, mem_cons] at held ⊢
  rcases held with before | rfl | after
  · exact .inl before
  · exact absurd rfl differs
  · exact .inr (.inr after)

end

/-- An eviction takes an open entry out of the registry, or none. -/
theorem Tidy.evictOldest (documented : Documented core slots) (tidy : Tidy slots claims late r) :
    ∃ evicted r', r.evictOldest core = (.ok evicted, r') ∧ Tidy slots claims late r' ∧
      r'.made = r.made ∧ r.entries.Perm (evicted.toList ++ r'.entries) := by
  rcases called : core.evictOldest r.core with ⟨_ | token, c⟩
  · refine ⟨none, { r with core := c }, ?_, ⟨⟨?_, tidy.tokens⟩, tidy.toTimers.withCore c⟩, rfl, .refl _⟩
    · simp only [Registry.evictOldest, called]
    · exact (documented.evict_none called).trans tidy.mirror
  · obtain ⟨before, ticket, after, found, given⟩ := documented.evict_some called
    obtain ⟨older, entry, newer, split, rfl, -, open_, rfl, rfl⟩ := tidy.split found
    obtain ⟨r', discarded, kept, entries, made⟩ := tidy.discard split given
    refine ⟨some entry, r', ?_, kept, made, ?_⟩
    · simp only [Registry.evictOldest, called, discarded]
      rfl
    · rw [split, entries]
      exact perm_middle

/-- What a registration does: it adds a new entry and hands over what it removed, or it comes to
nothing and may have evicted an entry all the same. -/
structure Registers (slots : C → List Slot) (claims : List (DecisionEntry T)) (late : List Nat)
    (r : Registry C T) (result : Option (Registration T)) (r' : Registry C T) : Prop where
  tidy : Tidy slots claims late r'
  done : ∀ registration, result = some registration → registration.entry.id = r.made ∧
    r'.made = r.made + 1 ∧ (registration.removed ++ r'.entries).Perm (r.entries ++ [registration.entry])
  failed : result = none → r'.made = r.made ∧ ∃ lost, r.entries.Perm (lost ++ r'.entries)

/-- The core answers a registration with nothing, and holds what it held. -/
theorem Tidy.unchanged (tidy : Tidy slots claims late r) {c : C} (same : slots c = slots r.core) :
    Tidy slots claims late { r with core := c } :=
  ⟨⟨same.trans tidy.mirror, tidy.tokens⟩, tidy.toTimers.withCore c⟩

theorem Registers.new {r₁ : Registry C T} {evicted : Option (DecisionEntry T)}
    (tidy : Tidy slots claims late r') (made : r₁.made = r.made)
    (moved : r.entries.Perm (evicted.toList ++ r₁.entries)) (numbered : entry.id = r₁.made)
    (entries : r'.entries = r₁.entries ++ [entry]) (made' : r'.made = r₁.made + 1) :
    Registers slots claims late r (some { entry := entry, evicted := evicted }) r' := by
  refine ⟨tidy, ?_, nofun⟩
  intro registration same
  cases same
  refine ⟨numbered.trans made, by rw [made', made], ?_⟩
  simp only [Registration.removed, Option.toList_none, append_nil, entries]
  rw [← append_assoc]
  exact moved.symm.append_right _

section

variable (documented : Documented core slots) (tidy : Tidy slots claims late r)
  (fresh : ∀ other ∈ claims, other.id < r.made) (payload : T)
include documented tidy fresh payload

theorem Tidy.registerMinted :
    Registers slots claims late r (r.registerMinted core payload).1.toOption
      (r.registerMinted core payload).2 := by
  obtain ⟨evicted, r₁, evicting, tidy₁, made, moved⟩ := tidy.evictOldest documented
  rcases called : core.registerMinted r₁.core with ⟨_ | ⟨token, ticket⟩, c⟩
  · simp only [Registry.registerMinted, evicting, called]
    refine ⟨tidy₁.unchanged (documented.minted_none called), nofun, ?_⟩
    exact fun _ => ⟨made, evicted.toList, moved⟩
  · obtain ⟨absent, given⟩ := documented.minted_some called
    obtain ⟨r', stored, tidy', entries, made'⟩ :=
      tidy₁.store_new payload (made ▸ fresh) absent given
    simp only [Registry.registerMinted, evicting, called, stored]
    exact .new tidy' made moved rfl entries made'

theorem Tidy.registerKeyed (key : String) :
    Registers slots claims late r (r.registerKeyed core payload key).1.toOption.join
      (r.registerKeyed core payload key).2 := by
  rcases known : r.get key with _ | entry
  · obtain ⟨evicted, r₁, evicting, tidy₁, made, moved⟩ := tidy.evictOldest documented
    rcases called : core.registerKeyed r₁.core key with ⟨_ | ⟨token, ticket⟩, c⟩
    · simp only [Registry.registerKeyed, known, evicting, called, Option.isSome_none, Bool.false_eq_true,
        if_false]
      refine ⟨tidy₁.unchanged (documented.keyed_none called), nofun, ?_⟩
      exact fun _ => ⟨made, evicted.toList, moved⟩
    · have absent : ∀ slot ∈ slots r₁.core, slot.token ≠ key := by
        intro slot mem
        rw [tidy₁.mirror] at mem
        obtain ⟨other, held, rfl⟩ := mem_map.1 mem
        refine tidy.get_none known (slotOf claims other) ?_
        rw [tidy.mirror]
        exact mem_map_of_mem (moved.symm.subset (mem_append_right _ held))
      obtain ⟨rfl, given⟩ := documented.keyed_new absent called
      obtain ⟨r', stored, tidy', entries, made'⟩ :=
        tidy₁.store_new payload (made ▸ fresh) absent given
      simp only [Registry.registerKeyed, known, evicting, called, Option.isSome_none, Bool.false_eq_true,
        if_false, stored]
      exact .new tidy' made moved rfl entries made'
  · obtain ⟨held, rfl⟩ := get_some known
    obtain ⟨older, newer, split⟩ := append_of_mem held
    have found := tidy.slots_split split
    rcases called : core.registerKeyed r.core entry.token with ⟨_ | ⟨token, ticket⟩, c⟩
    · simp only [Registry.registerKeyed, known, called, Option.isSome_some, if_true]
      refine ⟨tidy.unchanged (documented.keyed_none called), nofun, ?_⟩
      exact fun _ => ⟨rfl, [], .refl _⟩
    · have open_ : decide (entry ∈ claims) = false := by
        rcases claimed : decide (entry ∈ claims) with _ | _
        · rfl
        have none_ := @documented.keyed_claimed r.core entry.token entry.ticket
          (by rw [found, claimed]; simp)
        rw [called] at none_
        cases none_
      rw [open_] at found
      obtain ⟨rfl, given⟩ := documented.keyed_open found called
      obtain ⟨r', stored, tidy', entries, made'⟩ := tidy.store_over payload fresh split given
      simp only [Registry.registerKeyed, known, called, Option.isSome_some, if_true, stored]
      refine ⟨tidy', ?_, nofun⟩
      intro registration same
      cases same
      refine ⟨rfl, made', ?_⟩
      simp only [Registration.removed, Option.toList_none, Option.toList_some, nil_append, entries, split]
      grind -linarith

end

/-- A claim of an entry whose timer was taken down. -/
theorem Timers.claim (timers : Timers claims late r) (cleared : ∀ pair ∈ r.timeouts, pair.1 ≠ entry.token) :
    Timers (claims ++ [entry]) late r := by
  refine ⟨timers.keys, timers.held, timers.asleep, ?_⟩
  intro i task found asleep claimed
  rcases mem_append.1 claimed with before | last
  · exact timers.early i task found asleep before
  · rw [mem_singleton] at last
    exact absurd (congrArg token last) (cleared _ (timers.asleep i task found asleep))

theorem Mirrors.claimed (mirrors : Mirrors slots claims r) {c : C} (split : r.entries = older ++ entry :: newer)
    (given : slots c = older.map (slotOf claims) ++ ⟨entry.token, entry.ticket, true⟩ ::
      newer.map (slotOf claims)) :
    slots c = r.entries.map (slotOf (claims ++ [entry])) := by
  have apart := mirrors.tokens
  rw [split] at apart
  have others : ∀ other ∈ older ++ newer, slotOf claims other = slotOf (claims ++ [entry]) other := by
    intro other mem
    have differs : other ≠ entry := fun same => key_ne_of_split apart other mem (same ▸ rfl)
    simp [slotOf, differs]
  rw [given, split, map_append, map_cons]
  rw [map_congr_left fun other mem => others other (mem_append_left newer mem),
    map_congr_left fun other mem => others other (mem_append_right older mem)]
  simp [slotOf]

/-- What a claim comes to: it is the first one, it comes too late, or its entry is not held. -/
theorem Tidy.claim (documented : Documented core slots) (tidy : Tidy slots claims late r)
    (awake : ∀ i task, current = some i → r.tasks[i]? = some task → task.status ≠ .sleeping) :
    (entry ∉ r.entries ∧ r.claim core current entry = (.stale, r)) ∨
    (entry ∈ r.entries ∧ entry ∈ claims ∧ ∃ c, slots c = slots r.core ∧
      r.claim core current entry = (.alreadyClaimed, { r with core := c })) ∨
    (entry ∈ r.entries ∧ entry ∉ claims ∧ ∃ c,
      r.claim core current entry = (.claimed, { r with core := c }.cancelTimeout current entry.token) ∧
      Tidy slots (claims ++ [entry]) late ({ r with core := c }.cancelTimeout current entry.token)) := by
  by_cases held : entry ∈ r.entries
  · have holds := tidy.holds_iff.2 held
    obtain ⟨older, newer, split⟩ := append_of_mem held
    have found := tidy.slots_split split
    by_cases claimed : entry ∈ claims
    · right
      left
      obtain ⟨answer, same⟩ := @Documented.claim_claimed _ _ _ documented r.core entry.token entry.ticket
        (by rw [found]; simp [claimed])
      refine ⟨held, claimed, _, same, ?_⟩
      simp [Registry.claim, holds, answer]
    · right
      right
      simp only [claimed, decide_false] at found
      obtain ⟨answer, given⟩ := documented.claim_open found
      refine ⟨held, claimed, (core.tryClaim r.core entry.token entry.ticket).2, ?_, ?_⟩
      · simp [Registry.claim, holds, answer]
      obtain ⟨timers, cleared⟩ := (tidy.toTimers.withCore
        (core.tryClaim r.core entry.token entry.ticket).2).cancelTimeout awake
      refine ⟨⟨?_, ?_⟩, timers.claim cleared⟩
      · simp only [cancelTimeout_core, cancelTimeout_entries]
        exact tidy.claimed split given
      · simpa using tidy.tokens
  · left
    refine ⟨held, ?_⟩
    rw [Registry.claim, if_neg (mt tidy.holds_iff.1 held)]

theorem Timers.setStatus (timers : Timers claims late r) {i : Nat} {status old : TaskStatus}
    (found : r.tasks[i]? = some ⟨entry, old⟩) (awake : status ≠ .sleeping) :
    Timers claims late { r with tasks := r.tasks.set i ⟨entry, status⟩ } := by
  have inside : i < r.tasks.length := (List.getElem?_eq_some_iff.1 found).1
  have other : ∀ (j : Nat) (task : TimeoutTask T), (r.tasks.set i ⟨entry, status⟩)[j]? = some task → task.status = .sleeping →
      r.tasks[j]? = some task := by
    intro j task known asleep
    by_cases same : i = j
    · subst same
      rw [getElem?_set_self inside] at known
      cases known
      exact absurd asleep awake
    · rwa [getElem?_set_ne same] at known
  refine ⟨timers.keys, ?_, ?_, ?_⟩
  · intro pair mem
    obtain ⟨task, known, named, held⟩ := timers.held pair mem
    by_cases same : i = pair.2
    · have self : task = ⟨entry, old⟩ := Option.some.inj (known.symm.trans (same ▸ found))
      subst self
      refine ⟨⟨entry, status⟩, ?_, named, held⟩
      rw [← same]
      exact getElem?_set_self inside
    · exact ⟨task, (getElem?_set_ne same).trans known, named, held⟩
  · exact fun j task known asleep => timers.asleep j task (other j task known asleep) asleep
  · exact fun j task known asleep => timers.early j task (other j task known asleep) asleep

section

variable (tidy : Tidy slots claims late r)
include tidy

theorem Tidy.setStatus {i : Nat} {status old : TaskStatus}
    (found : r.tasks[i]? = some ⟨entry, old⟩) (awake : status ≠ .sleeping) :
    Tidy slots claims late { r with tasks := r.tasks.set i ⟨entry, status⟩ } :=
  ⟨⟨tidy.mirror, tidy.tokens⟩, tidy.toTimers.setStatus found awake⟩

theorem Tidy.startTimeout (held : entry ∈ r.entries) :
    Tidy slots claims (late ++ if entry ∈ claims then [r.tasks.length] else []) (r.startTimeout entry) := by
  obtain ⟨timers, cleared⟩ := tidy.toTimers.cancelled entry.token
  have appended : setItem entry.token r.tasks.length (r.cancelTimeout none entry.token).timeouts =
      (r.cancelTimeout none entry.token).timeouts ++ [(entry.token, r.tasks.length)] :=
    put_absent cleared
  -- a task that is asleep is one from before, or the new one
  have before : ∀ (i : Nat) (task : TimeoutTask T),
      ((r.cancelTimeout none entry.token).tasks ++ [{ entry := entry }])[i]? = some task →
      (r.cancelTimeout none entry.token).tasks[i]? = some task ∨
        i = r.tasks.length ∧ task = { entry := entry } := by
    intro i task known
    rw [getElem?_append] at known
    split at known
    · exact .inl known
    rename_i after
    rw [cancelTimeout_tasks_length] at known after
    rw [getElem?_singleton] at known
    split at known
    next last => exact .inr ⟨by omega, (Option.some.inj known).symm⟩
    · cases known
  rw [Registry.startTimeout, if_pos (tidy.holds_iff.2 held)]
  simp only [cancelTimeout_tasks_length, appended]
  refine ⟨⟨?_, ?_⟩, ?_, ?_, ?_, ?_⟩
  · simpa using tidy.mirror
  · simpa using tidy.tokens
  · rw [← appended]
    exact nodup_setItem timers.keys
  · intro pair mem
    rcases mem_append.1 mem with old | new
    · obtain ⟨task, known, named, kept⟩ := timers.held pair old
      refine ⟨task, ?_, named, kept⟩
      rwa [List.getElem?_append_left (List.getElem?_eq_some_iff.1 known).1]
    · rw [List.mem_singleton] at new
      subst new
      refine ⟨{ entry := entry }, ?_, rfl, by simpa using held⟩
      simp
  · intro i task known asleep
    rcases before i task known with old | ⟨rfl, rfl⟩
    · exact mem_append_left _ (timers.asleep i task old asleep)
    · simp
  · intro i task known asleep claimed
    rcases before i task known with old | ⟨rfl, rfl⟩
    · exact mem_append_left _ (timers.early i task old asleep claimed)
    · simp [claimed]

theorem Tidy.more_late (more : List Nat) : Tidy slots claims (late ++ more) r := by
  refine ⟨tidy.toMirrors, tidy.keys, tidy.held, tidy.asleep, ?_⟩
  exact fun i task found asleep claimed => mem_append_left _ (tidy.early i task found asleep claimed)

end

theorem Tidy.withdraw (documented : Documented core slots) (tidy : Tidy slots claims late r) :
    (entry ∉ r.entries ∧ r.withdraw core entry = (.ok false, r)) ∨
    (∃ c, slots c = slots r.core ∧ r.withdraw core entry = (.ok false, { r with core := c })) ∨
    (∃ r', r.withdraw core entry = (.ok true, r') ∧ Tidy slots claims late r' ∧ r'.made = r.made ∧
      r.entries.Perm (entry :: r'.entries)) := by
  by_cases held : entry ∈ r.entries
  · have holds := tidy.holds_iff.2 held
    obtain ⟨older, newer, split⟩ := append_of_mem held
    have found := tidy.slots_split split
    right
    by_cases claimed : entry ∈ claims
    · left
      obtain ⟨answer, same⟩ := @Documented.withdraw_claimed _ _ _ documented r.core entry.token
        entry.ticket (by rw [found]; simp [claimed])
      refine ⟨_, same, ?_⟩
      simp [Registry.withdraw, holds, answer]
    · right
      simp only [claimed, decide_false] at found
      obtain ⟨answer, given⟩ := documented.withdraw_open found
      obtain ⟨r', discarded, kept, entries, made⟩ := tidy.discard split given
      refine ⟨r', ?_, kept, made, ?_⟩
      · simp only [Registry.withdraw, holds, answer, discarded, if_true]
        rfl
      · rw [split, entries]
        exact perm_middle
  · left
    refine ⟨held, ?_⟩
    rw [Registry.withdraw, if_neg (mt tidy.holds_iff.1 held)]

theorem Tidy.forget (documented : Documented core slots) (tidy : Tidy slots claims late r) :
    (entry ∉ r.entries ∧ r.forget core entry = (.ok false, r)) ∨
    (∃ r', r.forget core entry = (.ok true, r') ∧ Tidy slots claims late r' ∧ r'.made = r.made ∧
      r.entries.Perm (entry :: r'.entries)) := by
  by_cases held : entry ∈ r.entries
  · right
    have holds := tidy.holds_iff.2 held
    obtain ⟨older, newer, split⟩ := append_of_mem held
    obtain ⟨answer, given⟩ := documented.forget (tidy.slots_split split)
    obtain ⟨r', discarded, kept, entries, made⟩ := tidy.discard split given
    refine ⟨r', ?_, kept, made, ?_⟩
    · simp only [Registry.forget, holds, answer, discarded, if_true]
      rfl
    · rw [split, entries]
      exact perm_middle
  · left
    refine ⟨held, ?_⟩
    rw [Registry.forget, if_neg (mt tidy.holds_iff.1 held)]

/-- All tokens are discarded, in whatever order. -/
theorem Timers.discardAll {tokens : List String} (timers : Timers claims late r)
    (apart : (r.entries.map DecisionEntry.token).Nodup)
    (all : tokens.Perm (r.entries.map DecisionEntry.token)) :
    ∃ r', r.discardAll tokens = (.ok (), r') ∧ Timers claims late r' ∧ r'.entries = [] ∧
      r'.core = r.core ∧ r'.made = r.made := by
  induction tokens generalizing r with
  | nil =>
    have none_ : r.entries = [] := map_eq_nil_iff.1 all.symm.eq_nil
    exact ⟨r, rfl, timers, none_, rfl, rfl⟩
  | cons token rest ih =>
    obtain ⟨entry, held, rfl⟩ := mem_map.1 (all.subset mem_cons_self)
    obtain ⟨older, newer, split⟩ := append_of_mem held
    obtain ⟨r₁, discarded, timers₁, entries, sameCore, made⟩ := timers.discard apart split
    rw [split] at apart all
    have fewer : (older ++ newer).Sublist (older ++ entry :: newer) :=
      List.Sublist.append_left (sublist_cons_self entry newer) older
    have remaining : rest.Perm (r₁.entries.map token) := by
      have moved : ((older ++ entry :: newer).map token).Perm
          (entry.token :: (older ++ newer).map token) := perm_middle.map _
      rw [entries]
      exact (perm_cons entry.token).1 (all.trans moved)
    obtain ⟨r', emptied, timers', none_, sameCore', made'⟩ :=
      ih timers₁ (entries ▸ apart.sublist (fewer.map _)) remaining
    refine ⟨r', ?_, timers', none_, sameCore'.trans sameCore, made'.trans made⟩
    simp only [discardAll, discarded, emptied]

theorem Mirrors.mapM_get (mirrors : Mirrors slots claims r) {sub : List (DecisionEntry T)}
    (inside : ∀ entry ∈ sub, entry ∈ r.entries) :
    (sub.map DecisionEntry.token).mapM r.get = some sub := by
  induction sub with
  | nil => rfl
  | cons entry rest ih =>
    have first := mirrors.get_of_mem (inside entry (by simp))
    have others := ih fun other mem => inside other (mem_cons_of_mem entry mem)
    simp [mapM_cons, first, others]

/-- `cancel_all` empties the registry and returns what nobody claimed. -/
theorem Tidy.cancelAll (documented : Documented core slots) (tidy : Tidy slots claims late r) :
    ∃ r', r.cancelAll core = (.ok (r.entries.filter (· ∉ claims)), r') ∧ Tidy slots claims late r' ∧
      r'.entries = [] ∧ r'.made = r.made := by
  obtain ⟨unclaimed, claimed, empty⟩ := documented.cancelAll r.core
  have open_ : (core.cancelAll r.core).1.unclaimed = (r.entries.filter (· ∉ claims)).map token := by
    rw [unclaimed, tidy.mirror, filter_map, map_map]
    congr 1
    apply filter_congr
    simp [slotOf]
  have closed : (core.cancelAll r.core).1.claimed = (r.entries.filter (· ∈ claims)).map token := by
    rw [claimed, tidy.mirror, filter_map, map_map]
    congr 1
  have all : ((core.cancelAll r.core).1.unclaimed ++ (core.cancelAll r.core).1.claimed).Perm
      (r.entries.map token) := by
    rw [open_, closed, ← map_append]
    refine List.Perm.map _ (perm_append_comm.trans ?_)
    simpa using filter_append_perm (· ∈ claims) r.entries
  obtain ⟨r', emptied, timers, none_, sameCore, made⟩ :=
    (tidy.toTimers.withCore (core.cancelAll r.core).2).discardAll tidy.tokens all
  have looked : (core.cancelAll r.core).1.unclaimed.mapM
      (fun token => { r with core := (core.cancelAll r.core).2 }.get token) =
      some (r.entries.filter (· ∉ claims)) := by
    rw [open_]
    exact tidy.mapM_get fun entry mem => (mem_filter.1 mem).1
  refine ⟨r', ?_, ⟨⟨?_, ?_⟩, timers⟩, none_, made⟩
  · simp only [Registry.cancelAll, Registry.dropCancelled, looked, emptied]
    rfl
  · rw [sameCore, none_, empty, map_nil]
  · simp [none_]

end Tidy

end BandSdk.Decisions

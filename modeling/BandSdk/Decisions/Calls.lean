/-
# Decisions.Calls -- what one call leaves

What a user of a registry knows after a call: which entry it claimed or made, and which
entries are still held.
-/
import BandSdk.Decisions.Answers

namespace BandSdk.Decisions

open BandSdk.Theory List Registry

section Calls

variable {C T : Type} [DecidableEq T] {core : Core C} {slots : C → List Slot} {s : State C T}
  {r : Registry C T} {entry : DecisionEntry T} {token : String}

set_option linter.unusedSectionVars false

theorem claim_entries (current : Option Nat) : (r.claim core current entry).2.entries = r.entries := by
  unfold claim
  split
  · dsimp only
    split
    · simp
    · rfl
  · rfl

theorem tryClaim_entries : (r.tryClaim core token).2.entries = r.entries := by
  unfold tryClaim
  split
  · rfl
  · exact claim_entries none

section

variable (documented : Documented core slots)
include documented

theorem Tidy.claim_first {claims : List (DecisionEntry T)} {late : List Nat} {current : Option Nat}
    (tidy : Tidy slots claims late r) (claimed : (r.claim core current entry).1 = .claimed)
    (awake : ∀ i task, current = some i → r.tasks[i]? = some task → task.status ≠ .sleeping) :
    entry ∈ r.entries ∧ entry ∉ claims := by
  rcases @Tidy.claim _ _ _ _ _ _ _ _ entry _ documented tidy awake with
    ⟨-, called⟩ | ⟨-, -, c, -, called⟩ | ⟨held, first, -⟩
  · rw [called] at claimed
    cases claimed
  · rw [called] at claimed
    cases claimed
  · exact ⟨held, first⟩

theorem Sound.tryClaim_first (sound : Sound slots s)
    (claimed : (s.registry.tryClaim core token).1 = some entry) :
    s.registry.get token = some entry ∧ entry ∉ s.ledger.claims := by
  unfold tryClaim at claimed
  split at claimed
  · cases claimed
  rename_i found known
  simp only at claimed
  split at claimed
  · rename_i won
    cases claimed
    exact ⟨known, (sound.tidy.claim_first documented won nofun).2⟩
  · cases claimed

/-- What a timeout task that wakes finds. -/
theorem Sound.expire_first (sound : Sound slots s) {task : Nat}
    {timeout : TimeoutTask T} {outcome : ClaimOutcome} (found : s.registry.tasks[task]? = some timeout)
    (woke : s.registry.expire core task = some (outcome, r)) :
    r.entries = s.registry.entries ∧
      (outcome = .claimed → timeout.entry ∈ s.registry.entries ∧ timeout.entry ∉ s.ledger.claims) := by
  unfold Registry.expire at woke
  rw [found] at woke
  split at woke
  · rename_i entry asleep
    cases asleep
    obtain ⟨rfl, rfl⟩ := woke
    refine ⟨claim_entries _, ?_⟩
    intro claimed
    have woken : Tidy slots s.ledger.claims s.ledger.late
        { s.registry with tasks := s.registry.tasks.set task ⟨entry, .running⟩ } :=
      sound.tidy.setStatus found (by decide)
    have first := woken.claim_first documented claimed (by
      rintro i again same known asleep
      cases same
      rw [List.getElem?_set_self (List.getElem?_eq_some_iff.1 found).1] at known
      cases known
      cases asleep)
    exact first
  · cases woke

end

theorem startTimeout_entries : (r.startTimeout entry).entries = r.entries := by
  unfold startTimeout
  split
  · simp
  · rfl

theorem discard_entries : (r.discard token).2.entries.Sublist r.entries := by
  simp only [Registry.discard]
  split
  · simp
  · simpa using eraseP_sublist

theorem forget_entries : (r.forget core entry).2.entries.Sublist r.entries := by
  unfold forget
  split
  · dsimp only
    split
    · exact discard_entries
    · exact .refl _
  · exact .refl _

theorem withdraw_entries : (r.withdraw core entry).2.entries.Sublist r.entries := by
  unfold withdraw
  split
  · dsimp only
    split
    · exact discard_entries
    · exact .refl _
  · exact .refl _

theorem Tidy.registerKeyed_token {claims : List (DecisionEntry T)} {late : List Nat} {key : String}
    {ticket : Nat} {c : C} (documented : Documented core slots) (tidy : Tidy slots claims late r)
    (called : core.registerKeyed r.core key = (some (token, ticket), c)) : token = key := by
  rcases known : r.get key with _ | entry
  · exact (documented.keyed_new (tidy.get_none known) called).1
  obtain ⟨held, rfl⟩ := get_some known
  obtain ⟨older, newer, split⟩ := append_of_mem held
  have found := tidy.slots_split split
  by_cases claimed : entry ∈ claims
  · have refused := @documented.keyed_claimed r.core entry.token entry.ticket
      (by rw [found]; simp [claimed])
    rw [called] at refused
    cases refused
  · simp only [claimed, decide_false] at found
    exact (documented.keyed_open found called).1

/-- What is held after `entry` was written. -/
def Wrote (r r' : Registry C T) (entry : DecisionEntry T) : Prop :=
  entry ∈ r'.entries ∧ ∀ other ∈ r'.entries, other ∈ r.entries ∨ other = entry

theorem store_wrote {payload : T} {ticket : Nat} :
    Wrote r (r.store payload token ticket).2 (r.store payload token ticket).1 := by
  refine ⟨Keyed.self_mem_put_replace, ?_⟩
  intro other mem
  simp only [store, cancelTimeout_entries] at mem ⊢
  exact (Keyed.mem_put_replace mem).symm

/-- A registry that never evicts makes the entry it is asked to make, or nothing changes. -/
theorem Sound.registerKeyed_wrote (documented : Documented core slots)
    (unbounded : ∀ c, (core.evictOldest c).1 = none) (sound : Sound slots s) {payload : T} {key : String}
    {result : Option (Registration T)}
    (called : (s.registry.registerKeyed core payload key).1.toOption.join = result)
    (left : (s.registry.registerKeyed core payload key).2 = r) :
    (result = none → r.entries = s.registry.entries) ∧
    ∀ registration, result = some registration →
      registration.entry.payload = payload ∧ registration.entry.token = key ∧
        Wrote s.registry r registration.entry := by
  -- the core before it registers: nothing was evicted from it
  obtain ⟨c, tidy, before⟩ : ∃ c, Tidy slots s.ledger.claims s.ledger.late { s.registry with core := c } ∧
      (if (s.registry.get key).isSome then (.ok none, s.registry) else s.registry.evictOldest core) =
        ((.ok none, { s.registry with core := c }) :
          Except Raised (Option (DecisionEntry T)) × Registry C T) := by
    split
    · exact ⟨s.registry.core, sound.tidy, rfl⟩
    refine ⟨(core.evictOldest s.registry.core).2, ?_, ?_⟩
    · refine sound.tidy.unchanged (documented.evict_none ?_)
      rw [← unbounded s.registry.core]
    · simp only [evictOldest, unbounded]
  simp only [registerKeyed, before] at called left
  rcases asked : core.registerKeyed c key with ⟨_ | ⟨token, ticket⟩, c'⟩
  · simp only [asked] at called left
    subst called left
    exact ⟨fun _ => rfl, by intros; contradiction⟩
  · simp only [asked] at called left
    obtain rfl := tidy.registerKeyed_token documented asked
    subst called left
    refine ⟨by rintro ⟨⟩, ?_⟩
    intro registration same
    cases same
    exact ⟨rfl, rfl, store_wrote⟩

theorem Tidy.evicted_unclaimed {claims : List (DecisionEntry T)} {late : List Nat}
    (documented : Documented core slots) (tidy : Tidy slots claims late r) {evicted : DecisionEntry T}
    {r' : Registry C T} (called : r.evictOldest core = (.ok (some evicted), r')) :
    evicted ∈ r.entries ∧ evicted ∉ claims := by
  rcases asked : core.evictOldest r.core with ⟨_ | token, c⟩
  · simp only [Registry.evictOldest, asked] at called
    cases called
  · obtain ⟨older, ticket, newer, found, -⟩ := documented.evict_some asked
    obtain ⟨older', entry, newer', split, rfl, -, unclaimed, -⟩ := tidy.split found
    have held : entry ∈ r.entries := by simp [split]
    have known : ({ r with core := c }.cancelTimeout none entry.token).get entry.token = some entry := by
      simpa [Registry.get] using tidy.get_of_mem held
    simp only [Registry.evictOldest, asked, Registry.discard, known] at called
    cases called
    exact ⟨held, by simpa using unclaimed⟩

theorem recordRegistration_registry {result : Option (Registration T)} :
    (s.recordRegistration result r).registry = r := by
  cases result with
  | none | some registration => rfl

/-- What a registration removed was held and not claimed; what it made is new. -/
theorem Sound.registerKeyed_removed (documented : Documented core slots) (sound : Sound slots s)
    {payload : T} {key : String} {registration : Registration T}
    (called : (s.registry.registerKeyed core payload key).1.toOption.join = some registration) :
    registration.entry.payload = payload ∧
      ∀ removed ∈ registration.removed, removed ∈ s.registry.entries ∧ removed ∉ s.ledger.claims := by
  rcases known : s.registry.get key with _ | old
  · obtain ⟨evicted, r₁, evicting, -⟩ := sound.tidy.evictOldest documented
    rcases asked : core.registerKeyed r₁.core key with ⟨_ | ⟨token, ticket⟩, c⟩
    · simp [registerKeyed, known, evicting, asked, Except.toOption] at called
    simp only [registerKeyed, known, evicting, asked, Option.isSome_none, Bool.false_eq_true,
      if_false, Except.toOption, Option.join_some, Option.some.injEq] at called
    subst called
    refine ⟨rfl, ?_⟩
    intro removed mem
    simp only [Registration.removed, Option.toList_none, append_nil, Option.mem_toList] at mem
    subst mem
    exact sound.tidy.evicted_unclaimed documented evicting
  · obtain ⟨held, rfl⟩ := get_some known
    rcases asked : core.registerKeyed s.registry.core old.token with ⟨_ | ⟨token, ticket⟩, c⟩
    · simp [registerKeyed, known, asked, Except.toOption] at called
    simp only [registerKeyed, known, asked, Option.isSome_some, if_true, Except.toOption,
      Option.join_some, Option.some.injEq] at called
    subst called
    refine ⟨rfl, ?_⟩
    intro removed mem
    simp only [Registration.removed, Option.toList_none, nil_append, Option.toList_some, mem_singleton] at mem
    subst mem
    refine ⟨held, ?_⟩
    intro claimed
    obtain ⟨older, newer, split⟩ := append_of_mem held
    have refused := @documented.keyed_claimed s.registry.core removed.token removed.ticket
      (by rw [sound.tidy.slots_split split]; simp [claimed])
    rw [asked] at refused
    cases refused

/-- What a registration leaves: what was held and not removed, and the new entry. -/
theorem Sound.registerKeyed_left (documented : Documented core slots) (sound : Sound slots s)
    {payload : T} {key : String} :
    (∀ registration, (s.registry.registerKeyed core payload key).1.toOption.join = some registration →
      registration.removed.Nodup ∧ registration.entry ∉ s.registry.entries ∧
      ∀ other ∈ (s.registry.registerKeyed core payload key).2.entries,
        other ∉ registration.removed ∧ (other ∈ s.registry.entries ∨ other = registration.entry)) ∧
    ((s.registry.registerKeyed core payload key).1.toOption.join = none →
      ∀ other ∈ (s.registry.registerKeyed core payload key).2.entries, other ∈ s.registry.entries) := by
  have registers := sound.tidy.registerKeyed documented sound.fresh payload key
  constructor
  · intro registration called
    obtain ⟨numbered, -, moved⟩ := registers.done registration called
    have new : registration.entry ∉ s.registry.entries := by
      intro held
      have below := mem_map_of_mem (sound.held_registered held) (f := DecisionEntry.id)
      rw [sound.numbered, numbered, mem_range] at below
      exact Nat.lt_irrefl _ below
    have apart : (registration.removed ++ (s.registry.registerKeyed core payload key).2.entries).Nodup := by
      rw [moved.nodup_iff]
      refine nodup_append.2 ⟨List.Nodup.of_map _ sound.tidy.tokens, nodup_singleton _, ?_⟩
      intro other held last same
      rw [mem_singleton] at same
      rintro rfl
      exact new (same ▸ held)
    obtain ⟨once, -, across⟩ := nodup_append.1 apart
    refine ⟨once, new, ?_⟩
    intro other held
    refine ⟨fun removed => across other removed other held rfl, ?_⟩
    have mem := moved.subset (mem_append_right _ held)
    simpa using mem
  · intro called other held
    obtain ⟨-, lost, moved⟩ := registers.failed called
    exact moved.symm.subset (mem_append_right lost held)

/-- The entries of the tokens that await an answer are those held and not claimed. -/
theorem Sound.unclaimed_eq (sound : Sound slots s) {tokens : List String}
    (viewed : tokens = ((slots s.registry.core).filter (!·.claimed)).map Slot.token) :
    tokens.filterMap s.registry.get = s.registry.entries.filter (· ∉ s.ledger.claims) := by
  have named : tokens = (s.registry.entries.filter (· ∉ s.ledger.claims)).map DecisionEntry.token := by
    rw [viewed, sound.tidy.mirror, filter_map, map_map]
    congr 1
    apply filter_congr
    simp [slotOf]
  rw [named, filterMap_map]
  have found : ∀ entry ∈ s.registry.entries.filter (· ∉ s.ledger.claims),
      (s.registry.get ∘ DecisionEntry.token) entry = some entry :=
    fun entry mem => sound.tidy.get_of_mem (mem_filter.1 mem).1
  rw [filterMap_congr found]
  exact filterMap_some

/-- A claim that was made stays made. -/
theorem step_claims {s' : State C T} {event : Event T} (stepped : step core s event = some s') :
    ∀ claimed ∈ s.ledger.claims, claimed ∈ s'.ledger.claims := by
  intro claimed mem
  have recorded : ∀ {entry outcome r}, claimed ∈ (s.recordClaim entry outcome r).ledger.claims := by
    intro entry outcome r
    unfold State.recordClaim
    split
    · exact mem_append_left _ mem
    · exact mem
  have registered : ∀ {result r}, claimed ∈ (s.recordRegistration result r).ledger.claims := by
    intro result r
    cases result with
    | none | some registration => exact mem
  have forgot : ∀ {entry}, claimed ∈ (s.forget core entry).ledger.claims := by
    intro entry
    unfold State.forget
    split
    split
    · exact mem
    · exact mem
  cases event with
  | registerMinted payload | registerKeyed payload key =>
    cases stepped
    exact registered
  | startTimeout entry | cancelAll =>
    cases stepped
    exact mem
  | expire task =>
    simp only [step, Option.bind_eq_bind, Option.bind_eq_some_iff] at stepped
    obtain ⟨timeout, -, woke, -, same⟩ := stepped
    cases same
    exact recorded
  | timedOut task =>
    simp only [step, Option.bind_eq_bind, Option.bind_eq_some_iff] at stepped
    obtain ⟨r, -, same⟩ := stepped
    cases same
    exact mem
  | tryClaim token =>
    cases stepped
    exact mem_append_left _ mem
  | withdraw entry =>
    simp only [step] at stepped
    split at stepped
    · cases stepped
      exact mem
    · cases stepped
      exact mem
  | forget entry | waitOver entry =>
    cases stepped
    exact forgot
  | waitTimedOut entry =>
    cases stepped
    exact recorded

end Calls

end BandSdk.Decisions

/-
# Decisions.Answers -- every ask is answered once

`machine` lets the calls come in any order, through any handle, with timeout tasks
waking whenever they like; `Ledger` records what became of each registration.  `Sound`
counts the entries by where they went, over a registry that is `Tidy`.
-/
import BandSdk.Decisions.Tidy
import BandSdk.Theory.Machine

namespace BandSdk.Decisions

open BandSdk.Theory List

/-! ## The calls of any number of parties -/

/-- What became of the registrations. -/
structure Ledger (T : Type) where
  registered : List (DecisionEntry T) := []
  claims : List (DecisionEntry T) := []
  withdrawn : List (DecisionEntry T) := []
  forgotten : List (DecisionEntry T) := []
  /-- Handed to a caller as evicted, replaced or cancelled. -/
  returned : List (DecisionEntry T) := []
  /-- Cancelled, but not handed to the caller. -/
  dropped : List (DecisionEntry T) := []
  /-- Gone with a registration that came to nothing. -/
  refused : List (DecisionEntry T) := []
  /-- The timeout tasks started for an entry that was claimed. -/
  late : List Nat := []

structure State (C T : Type) where
  registry : Registry C T
  ledger : Ledger T := {}

inductive Event (T : Type) where
  | registerMinted (payload : T)
  | registerKeyed (payload : T) (key : String)
  | startTimeout (entry : DecisionEntry T)
  | expire (task : Nat)
  | timedOut (task : Nat)
  | tryClaim (token : String)
  | withdraw (entry : DecisionEntry T)
  | forget (entry : DecisionEntry T)
  | cancelAll
  /-- The deadline of `wait` with the future still open. -/
  | waitTimedOut (entry : DecisionEntry T)
  /-- The end of `answering`, however it came. -/
  | waitOver (entry : DecisionEntry T)

section Machine

variable {C T : Type} [DecidableEq T] (core : Core C)

local instance lawfulEntry : LawfulBEq (DecisionEntry T) := inferInstance

namespace State

variable (s : State C T)

/-- The entries of `s` that `r` has no more. -/
def left (r : Registry C T) : List (DecisionEntry T) := s.registry.entries.filter (· ∉ r.entries)

/-- A registration, or what was lost on the way to none. -/
def recordRegistration (result : Option (Registration T)) (r : Registry C T) : State C T :=
  match result with
  | some registration =>
    { registry := r
      ledger :=
        { s.ledger with
          registered := s.ledger.registered ++ [registration.entry]
          returned := s.ledger.returned ++ registration.removed } }
  | none => { registry := r, ledger := { s.ledger with refused := s.ledger.refused ++ s.left r } }

def recordClaim (entry : DecisionEntry T) (outcome : ClaimOutcome) (r : Registry C T) : State C T :=
  if outcome = .claimed then
    { registry := r, ledger := { s.ledger with claims := s.ledger.claims ++ [entry] } }
  else { s with registry := r }

def forget (entry : DecisionEntry T) : State C T :=
  let (result, r) := s.registry.forget core entry
  match result with
  | .ok true => { registry := r, ledger := { s.ledger with forgotten := s.ledger.forgotten ++ [entry] } }
  | _ => { s with registry := r }

end State

def step (s : State C T) : Event T → Option (State C T)
  | .registerMinted payload =>
    let (result, r) := s.registry.registerMinted core payload
    some (s.recordRegistration result.toOption r)
  | .registerKeyed payload key =>
    let (result, r) := s.registry.registerKeyed core payload key
    some (s.recordRegistration result.toOption.join r)
  | .startTimeout entry =>
    let started := s.registry.startTimeout entry
    let late := if entry ∈ s.ledger.claims then [s.registry.tasks.length] else []
    some { registry := started, ledger := { s.ledger with late := s.ledger.late ++ late } }
  | .expire task => do
      let timeout ← s.registry.tasks[task]?
      let (outcome, r) ← s.registry.expire core task
      return s.recordClaim timeout.entry outcome r
  | .timedOut task => do
      let r ← s.registry.timedOut task
      return { s with registry := r }
  | .tryClaim token =>
    let (claimed, r) := s.registry.tryClaim core token
    some
      { registry := r
        ledger := { s.ledger with claims := s.ledger.claims ++ claimed.toList } }
  | .withdraw entry =>
    let (result, r) := s.registry.withdraw core entry
    match result with
    | .ok true =>
      some
        { registry := r
          ledger := { s.ledger with withdrawn := s.ledger.withdrawn ++ [entry] } }
    | _ => some { s with registry := r }
  | .forget entry => some (s.forget core entry)
  | .cancelAll =>
    let (result, r) := s.registry.cancelAll core
    let cancelled := result.toOption.getD []
    some
      { registry := r
        ledger :=
          { s.ledger with
            returned := s.ledger.returned ++ cancelled
            dropped := s.ledger.dropped ++ (s.left r).filter (· ∉ cancelled) } }
  | .waitTimedOut entry =>
    let (outcome, r) := s.registry.claim core none entry
    some (s.recordClaim entry outcome r)
  | .waitOver entry => some (s.forget core entry)

def machine : Machine (State C T) (Event T) where
  init s := s = { registry := { core := core.new } }
  step := step core

end Machine

/-! ## Every registration is accounted for -/

section Runs

variable {C T : Type} [DecidableEq T] {core : Core C} {slots : C → List Slot} {s s' : State C T}
  {entry : DecisionEntry T}

set_option linter.unusedSectionVars false

structure Sound (slots : C → List Slot) (s : State C T) : Prop where
  tidy : Tidy slots s.ledger.claims s.ledger.late s.registry
  numbered : s.ledger.registered.map DecisionEntry.id = List.range s.registry.made
  conserved : ∀ entry, s.ledger.registered.count entry = s.registry.entries.count entry +
    s.ledger.withdrawn.count entry + s.ledger.forgotten.count entry + s.ledger.returned.count entry +
    s.ledger.dropped.count entry + s.ledger.refused.count entry
  once : s.ledger.claims.Nodup
  known : ∀ entry ∈ s.ledger.claims, entry ∈ s.ledger.registered
  dropped : ∀ entry ∈ s.ledger.dropped, entry ∈ s.ledger.claims

theorem Sound.registered_once (sound : Sound slots s) : s.ledger.registered.Nodup := by
  apply List.Nodup.of_map DecisionEntry.id
  rw [sound.numbered]
  exact nodup_range

theorem Sound.held_registered (sound : Sound slots s) (held : entry ∈ s.registry.entries) :
    entry ∈ s.ledger.registered := by
  have counted := sound.conserved entry
  have present := count_pos_iff.2 held
  exact count_pos_iff.1 (by omega)

theorem Sound.fresh (sound : Sound slots s) : ∀ other ∈ s.ledger.claims, other.id < s.registry.made := by
  intro other claimed
  have numbered : other.id ∈ s.ledger.registered.map DecisionEntry.id :=
    mem_map_of_mem (sound.known other claimed)
  rw [sound.numbered] at numbered
  exact mem_range.1 numbered

theorem count_left {entries kept lost : List (DecisionEntry T)} (apart : entries.Nodup)
    (moved : entries.Perm (lost ++ kept)) (entry : DecisionEntry T) :
    (entries.filter (· ∉ kept)).count entry + kept.count entry = entries.count entry := by
  by_cases stayed : entry ∈ kept
  · have gone : (entries.filter (· ∉ kept)).count entry = 0 := by
      apply count_eq_zero_of_not_mem
      simp [stayed]
    have atMost := nodup_iff_count_le_one.1 apart entry
    have present := count_pos_iff.2 stayed
    have total := moved.count_eq entry
    rw [count_append] at total
    omega
  · rw [count_filter (by simpa using stayed), count_eq_zero_of_not_mem stayed, Nat.add_zero]

open State

theorem Sound.recordRegistration {result : Option (Registration T)} {r : Registry C T} (sound : Sound slots s)
    (registers : Registers slots s.ledger.claims s.ledger.late s.registry result r) :
    Sound slots (s.recordRegistration result r) := by
  cases result with
  | none =>
    obtain ⟨made, lost, moved⟩ := registers.failed rfl
    refine ⟨registers.tidy, ?_, ?_, sound.once, sound.known, sound.dropped⟩
    · exact sound.numbered.trans (by rw [← made]; rfl)
    intro entry
    have before := sound.conserved entry
    have left := count_left (List.Nodup.of_map _ sound.tidy.tokens) moved entry
    simp only [State.recordRegistration, State.left, count_append]
    omega
  | some registration =>
    obtain ⟨numbered, made, moved⟩ := registers.done registration rfl
    refine ⟨registers.tidy, ?_, ?_, sound.once, ?_, sound.dropped⟩
    · simp only [State.recordRegistration, map_append, map_singleton, numbered, sound.numbered, made]
      exact range_succ.symm
    · intro entry
      have before := sound.conserved entry
      have total := moved.count_eq entry
      simp only [State.recordRegistration, count_append] at total ⊢
      omega
    · exact fun entry claimed => mem_append_left _ (sound.known entry claimed)

theorem Sound.claimed {r : Registry C T} (sound : Sound slots s) (held : entry ∈ s.registry.entries)
    (first : entry ∉ s.ledger.claims) (tidy : Tidy slots (s.ledger.claims ++ [entry]) s.ledger.late r)
    (entries : r.entries = s.registry.entries) (made : r.made = s.registry.made) :
    Sound slots { registry := r, ledger := { s.ledger with claims := s.ledger.claims ++ [entry] } } := by
  refine ⟨tidy, ?_, ?_, ?_, ?_, ?_⟩
  · exact sound.numbered.trans (by rw [made])
  · intro other
    rw [sound.conserved other, entries]
  · refine nodup_append.2 ⟨sound.once, nodup_singleton entry, ?_⟩
    intro other before last same same'
    rw [mem_singleton] at same
    exact first (same ▸ same' ▸ before)
  · intro other claimed
    rcases mem_concat claimed with before | last
    · exact sound.known other before
    · rw [last]
      exact sound.held_registered held
  · exact fun other gone => mem_append_left _ (sound.dropped other gone)

/-- A call that leaves the entries and the claims as they are. -/
theorem Sound.untouched {r : Registry C T} (sound : Sound slots s) {late : List Nat}
    (tidy : Tidy slots s.ledger.claims late r) (entries : r.entries = s.registry.entries)
    (made : r.made = s.registry.made) :
    Sound slots { registry := r, ledger := { s.ledger with late := late } } := by
  refine ⟨tidy, ?_, ?_, sound.once, sound.known, sound.dropped⟩
  · exact sound.numbered.trans (by rw [made])
  · intro other
    rw [sound.conserved other, entries]

/-- A claim by any party; the claiming task, if it is one of the timeouts, is awake. -/
theorem Sound.claim (documented : Documented core slots) (sound : Sound slots s) {current : Option Nat}
    {r : Registry C T}
    (tidy : Tidy slots s.ledger.claims s.ledger.late r) (entries : r.entries = s.registry.entries)
    (made : r.made = s.registry.made)
    (awake : ∀ i task, current = some i → r.tasks[i]? = some task → task.status ≠ .sleeping) :
    Sound slots (s.recordClaim entry (r.claim core current entry).1 (r.claim core current entry).2) := by
  rcases tidy.claim documented awake with ⟨-, called⟩ | ⟨-, -, c, same, called⟩ |
      ⟨held, first, c, called, tidy'⟩
  · rw [called, recordClaim, if_neg (by simp)]
    exact sound.untouched tidy entries made
  · rw [called, recordClaim, if_neg (by simp)]
    exact sound.untouched (tidy.unchanged same) entries made
  · rw [called, recordClaim, if_pos rfl]
    exact sound.claimed (entries ▸ held) first tidy' (by simpa using entries) (by simpa using made)

theorem Sound.setStatus (sound : Sound slots s) {i : Nat} {status old : TaskStatus}
    (found : s.registry.tasks[i]? = some ⟨entry, old⟩) (awake : status ≠ .sleeping) :
    Sound slots
      { s with registry := { s.registry with tasks := s.registry.tasks.set i ⟨entry, status⟩ } } :=
  sound.untouched (sound.tidy.setStatus found awake) rfl rfl

@[simp] theorem recordClaim_registry {outcome : ClaimOutcome} {r : Registry C T} :
    (s.recordClaim entry outcome r).registry = r := by
  unfold recordClaim
  split <;> rfl

theorem recordClaim_tasks {outcome : ClaimOutcome} {r : Registry C T} {tasks : List (TimeoutTask T)} :
    s.recordClaim entry outcome { r with tasks := tasks } =
      { s.recordClaim entry outcome r with
        registry := { (s.recordClaim entry outcome r).registry with tasks := tasks } } := by
  unfold recordClaim
  split <;> rfl

theorem cancelTimeout_task {r : Registry C T} {current : Option Nat} {token : String} {i : Nat}
    {task : TimeoutTask T} (found : r.tasks[i]? = some task) :
    ∃ status, (r.cancelTimeout current token).tasks[i]? = some ⟨task.entry, status⟩ := by
  unfold Registry.cancelTimeout
  split
  · exact ⟨task.status, found⟩
  rename_i j known
  split
  · exact ⟨task.status, found⟩
  by_cases same : j = i
  · exact ⟨task.status.cancel, by simp [found, same, TimeoutTask.cancel]⟩
  · exact ⟨task.status, by simp [found, same]⟩

theorem claim_task {r : Registry C T} {current : Option Nat} {i : Nat} {task : TimeoutTask T}
    (found : r.tasks[i]? = some task) :
    ∃ status, (r.claim core current entry).2.tasks[i]? = some ⟨task.entry, status⟩ := by
  unfold Registry.claim
  split
  · dsimp only
    split
    · exact cancelTimeout_task found
    · exact ⟨task.status, found⟩
  · exact ⟨task.status, found⟩

section

variable (documented : Documented core slots)
include documented

section

variable (sound : Sound slots s)
include sound

/-- A timeout task wakes, claims, and goes on to its callback or ends. -/
theorem Sound.expire {i : Nat} (stepped : step core s (.expire i) = some s') : Sound slots s' := by
  simp only [step, Registry.expire] at stepped
  rcases found : s.registry.tasks[i]? with _ | ⟨entry, _ | _ | _ | _⟩ <;> simp only [found] at stepped
  case some.sleeping =>
    let awake : Registry C T :=
      { s.registry with tasks := s.registry.tasks.set i ⟨entry, .running⟩ }
    have woken : awake.tasks[i]? = some ⟨entry, .running⟩ :=
      List.getElem?_set_self (List.getElem?_eq_some_iff.1 found).1
    have claimed : Sound slots (s.recordClaim entry (awake.claim core (some i) entry).1
        (awake.claim core (some i) entry).2) := by
      refine sound.claim documented (sound.tidy.setStatus found (by decide)) rfl rfl ?_
      rintro j task same known asleep
      cases same
      rw [Option.some.inj (known.symm.trans woken)] at asleep
      cases asleep
    obtain ⟨status, kept⟩ := @claim_task _ _ _ core entry awake (some i) i _ woken
    let answer := awake.claim core (some i) entry
    let after : TaskStatus := if answer.1 = .claimed then .running else .done
    have ended : s' = s.recordClaim entry answer.1
        { answer.2 with tasks := answer.2.tasks.set i ⟨entry, after⟩ } := (Option.some.inj stepped).symm
    have settled : after ≠ .sleeping := by
      dsimp only [after]
      split <;> decide
    rw [ended, recordClaim_tasks]
    have done := claimed.setStatus (by rw [recordClaim_registry]; exact kept) settled
    simp only [recordClaim_registry] at done ⊢
    exact done
  all_goals cases stepped

theorem Sound.forget : Sound slots (s.forget core entry) := by
  unfold State.forget
  rcases sound.tidy.forget documented with ⟨-, called⟩ | ⟨r, called, tidy, made, moved⟩
  · rw [called]
    exact sound
  · rw [called]
    refine ⟨tidy, ?_, ?_, sound.once, sound.known, sound.dropped⟩
    · exact sound.numbered.trans (by rw [← made])
    intro other
    have before := sound.conserved other
    have total := moved.count_eq other
    rw [count_cons] at total
    simp only [count_append, count_singleton]
    omega

theorem Sound.withdraw (stepped : step core s (.withdraw entry) = some s') : Sound slots s' := by
  simp only [step] at stepped
  rcases sound.tidy.withdraw documented with ⟨-, called⟩ | ⟨c, same, called⟩ |
      ⟨r, called, tidy, made, moved⟩
  · rw [called] at stepped
    cases stepped
    exact sound
  · rw [called] at stepped
    cases stepped
    exact sound.untouched (sound.tidy.unchanged same) rfl rfl
  · rw [called] at stepped
    cases stepped
    refine ⟨tidy, ?_, ?_, sound.once, sound.known, sound.dropped⟩
    · exact sound.numbered.trans (by rw [← made])
    intro other
    have before := sound.conserved other
    have total := moved.count_eq other
    rw [count_cons] at total
    simp only [count_append, count_singleton]
    omega

theorem Sound.cancelAll (stepped : step core s .cancelAll = some s') : Sound slots s' := by
  obtain ⟨r, called, tidy, none_, made⟩ := sound.tidy.cancelAll documented
  have cancelled : (s.registry.cancelAll core).1.toOption.getD [] =
      s.registry.entries.filter (· ∉ s.ledger.claims) := by rw [called]; rfl
  have after : (s.registry.cancelAll core).2 = r := by rw [called]
  simp only [step] at stepped
  generalize (s.registry.cancelAll core).1.toOption.getD [] = list at stepped cancelled
  generalize (s.registry.cancelAll core).2 = r' at stepped after
  subst cancelled after
  cases stepped
  refine ⟨tidy, ?_, ?_, sound.once, sound.known, ?_⟩
  · exact sound.numbered.trans (by rw [← made])
  · intro other
    have before := sound.conserved other
    have all : s.left r' = s.registry.entries := by simp [left, none_]
    have moved : s.registry.entries.Perm (s.registry.entries.filter (· ∈ s.ledger.claims) ++
        s.registry.entries.filter (· ∉ s.ledger.claims)) := by
      simpa using (filter_append_perm (· ∈ s.ledger.claims) s.registry.entries).symm
    have parted := count_left (List.Nodup.of_map _ sound.tidy.tokens) moved other
    simp only [all, none_, count_append, count_nil] at before ⊢
    omega
  · intro other gone
    rcases mem_append.1 gone with before | now
    · exact sound.dropped other before
    simp only [mem_filter, decide_eq_true_eq, left] at now
    by_contra unclaimed
    exact now.2 ⟨now.1.1, unclaimed⟩

end

/-- **What holds in every run.** -/
theorem sound_of_reachable (reached : (machine core).Reachable s) : Sound slots s := by
  refine reached.invariant ?_ ?_
  · rintro s rfl
    refine ⟨⟨⟨?_, ?_⟩, ?_, ?_, ?_, ?_⟩, rfl, ?_, ?_, ?_, ?_⟩
    · exact documented.new
    all_goals simp
  · intro s event s' sound stepped
    cases event with
    | registerMinted payload =>
      cases stepped
      exact sound.recordRegistration (sound.tidy.registerMinted documented sound.fresh payload)
    | registerKeyed payload key =>
      cases stepped
      exact sound.recordRegistration (sound.tidy.registerKeyed documented sound.fresh payload key)
    | startTimeout entry =>
      cases stepped
      by_cases held : entry ∈ s.registry.entries
      · refine sound.untouched (sound.tidy.startTimeout held) ?_ ?_
        all_goals simp [Registry.startTimeout, sound.tidy.holds_iff.2 held]
      · simp only [Registry.startTimeout, if_neg (mt sound.tidy.holds_iff.1 held)]
        exact sound.untouched (sound.tidy.more_late _) rfl rfl
    | expire i => exact sound.expire documented stepped
    | timedOut i =>
      simp only [machine, step, Registry.timedOut] at stepped
      rcases found : s.registry.tasks[i]? with _ | ⟨entry, _ | _ | _ | _⟩ <;>
        simp only [found] at stepped <;> cases stepped
      exact sound.setStatus found (by decide)
    | tryClaim token =>
      simp only [machine, step, Registry.tryClaim] at stepped
      rcases known : s.registry.get token with _ | entry
      · simp only [known] at stepped
        cases stepped
        simpa using sound
      · have claimed : Sound slots (s.recordClaim entry (s.registry.claim core none entry).1
            (s.registry.claim core none entry).2) := sound.claim documented sound.tidy rfl rfl (by simp)
        simp only [known] at stepped
        cases stepped
        unfold recordClaim at claimed
        split at claimed
        next first => simpa [first] using claimed
        next refused => simpa [refused] using claimed
    | withdraw entry => exact sound.withdraw documented stepped
    | forget entry | waitOver entry =>
      cases stepped
      exact sound.forget documented
    | cancelAll => exact sound.cancelAll documented stepped
    | waitTimedOut entry =>
      cases stepped
      exact sound.claim documented sound.tidy rfl rfl (by simp)

end

/-- The handle an operation acts through. -/
def Event.through : Event T → Option (DecisionEntry T)
  | .startTimeout entry => some entry
  | .withdraw entry => some entry
  | .forget entry => some entry
  | .waitTimedOut entry => some entry
  | .waitOver entry => some entry
  | _ => none

theorem Sound.stale_unchanged (sound : Sound slots s)
    {event : Event T} (through : event.through = some entry) (stale : entry ∉ s.registry.entries)
    (stepped : step core s event = some s') : s'.registry = s.registry := by
  have refused : s.registry.holds entry = false := by
    rw [← Bool.not_eq_true, sound.tidy.holds_iff]
    exact stale
  cases event with
  | startTimeout other =>
    cases through
    cases stepped
    simp [Registry.startTimeout, refused]
  | withdraw other =>
    cases through
    simp only [step, Registry.withdraw, refused] at stepped
    cases stepped
    rfl
  | forget other | waitOver other =>
    cases through
    cases stepped
    simp [State.forget, Registry.forget, refused]
  | waitTimedOut other =>
    obtain rfl := Option.some.inj through
    have ended : s.recordClaim other (s.registry.claim core none other).1
        (s.registry.claim core none other).2 = s' := Option.some.inj stepped
    rw [← ended, recordClaim_registry]
    simp [Registry.claim, refused]
  | _ => cases through

/-- **Every ask is answered once.**  In every run the wrapper's entries are the core's
registrations; an entry that left unclaimed was withdrawn or forgotten by its holder or handed to
one caller once, unless it was evicted for a registration that came to nothing; nothing is claimed
twice; a handle that is not held changes nothing; and a timeout task that is asleep is that of an
entry that is held, and of a claimed one only if it was started after the claim. -/
theorem asks_answered_once (documented : Documented core slots) (reached : (machine core).Reachable s) :
    s.registry.entries.map (fun entry => (entry.token, entry.ticket)) =
        (slots s.registry.core).map (fun slot => (slot.token, slot.ticket)) ∧
    (∀ entry ∈ s.ledger.registered, entry ∉ s.registry.entries → entry ∉ s.ledger.claims →
      entry ∉ s.ledger.refused →
      entry ∈ s.ledger.withdrawn ∨ entry ∈ s.ledger.forgotten ∨ s.ledger.returned.count entry = 1) ∧
    (∀ entry, s.ledger.claims.count entry ≤ 1) ∧
    (∀ event entry s', event.through = some entry → entry ∉ s.registry.entries →
      step core s event = some s' → s'.registry = s.registry) ∧
    (∀ i task, s.registry.tasks[i]? = some task → task.status = .sleeping →
      task.entry ∈ s.registry.entries ∧ (task.entry ∈ s.ledger.claims → i ∈ s.ledger.late)) := by
  have sound := sound_of_reachable documented reached
  refine ⟨?_, ?_, ?_, ?_, ?_⟩
  · rw [sound.tidy.mirror, map_map]
    rfl
  · intro entry registered gone unclaimed kept
    have counted := sound.conserved entry
    have one := count_eq_one_of_mem sound.registered_once registered
    have notDropped := count_eq_zero_of_not_mem (mt (sound.dropped entry) unclaimed)
    rw [count_eq_zero_of_not_mem gone, count_eq_zero_of_not_mem kept, notDropped, one] at counted
    rw [← count_pos_iff, ← count_pos_iff]
    omega
  · exact nodup_iff_count_le_one.1 sound.once
  · exact fun event entry s' through stale stepped => sound.stale_unchanged through stale stepped
  · intro i task found asleep
    obtain ⟨task', found', -, held⟩ := sound.tidy.held _ (sound.tidy.asleep i task found asleep)
    obtain rfl := Option.some.inj (found.symm.trans found')
    exact ⟨held, sound.tidy.early i task found asleep⟩

end Runs

/-! ## A core that never evicts -/

/-- Registrations, one for a token. -/
abbrev Slots := { list : List Slot // (list.map Slot.token).Nodup }

namespace Slots

def find (token : String) (slots : Slots) : Option Slot := slots.1.find? (·.token = token)

def remove (token : String) (slots : Slots) : Slots :=
  ⟨slots.1.eraseP (·.token = token), slots.2.sublist (List.eraseP_sublist.map _)⟩

/-- Write a registration where its token stands, or at the end. -/
def put (slot : Slot) (slots : Slots) : Slots :=
  ⟨Keyed.put Slot.token Keyed.replace slot slots.1, Keyed.nodup_put Keyed.key_replace slots.2⟩

end Slots

/-- A core registry without a bound; its tickets count up from zero. -/
def unboundedCore : Core (Slots × Nat) where
  new := (⟨[], List.nodup_nil⟩, 0)
  evictOldest c := (none, c)
  registerMinted c :=
    let token := toString c.2
    if (c.1.find token).isSome then (none, c)
    else (some (token, c.2), (c.1.put ⟨token, c.2, false⟩, c.2 + 1))
  registerKeyed c key :=
    if (c.1.find key).any (·.claimed) then (none, c)
    else (some (key, c.2), (c.1.put ⟨key, c.2, false⟩, c.2 + 1))
  tryClaim c token ticket :=
    match c.1.find token with
    | some slot =>
      if slot.ticket ≠ ticket then (.stale, c)
      else if slot.claimed then (.alreadyClaimed, c)
      else (.claimed, (c.1.put ⟨token, ticket, true⟩, c.2))
    | none => (.stale, c)
  withdraw c token ticket :=
    if (c.1.find token).any (fun slot => slot.ticket = ticket ∧ slot.claimed = false) then
      (true, (c.1.remove token, c.2))
    else (false, c)
  forget c token ticket :=
    if (c.1.find token).any (fun slot => slot.ticket = ticket) then (true, (c.1.remove token, c.2))
    else (false, c)
  cancelAll c :=
    (⟨(c.1.1.filter (!·.claimed)).map Slot.token, (c.1.1.filter (·.claimed)).map Slot.token⟩,
      (⟨[], List.nodup_nil⟩, c.2))

namespace Slots

variable {slots : Slots} {slot : Slot} {older newer : List Slot}

section

variable (split : slots.1 = older ++ slot :: newer)
include split

theorem find_split : slots.find slot.token = some slot := by
  have apart := slots.2
  rw [Slots.find, split]
  exact Keyed.find_split (split ▸ apart)

theorem remove_split : (slots.remove slot.token).1 = older ++ newer := by
  have apart := slots.2
  dsimp only [Slots.remove]
  rw [split] at apart ⊢
  exact Keyed.eraseP_split apart

theorem put_split {slot' : Slot} (same : slot'.token = slot.token) : (slots.put slot').1 = older ++ slot' :: newer := by
  have apart := slots.2
  dsimp only [Slots.put]
  rw [split] at apart ⊢
  exact Keyed.put_split apart same

end

theorem put_absent (absent : ∀ other ∈ slots.1, other.token ≠ slot.token) :
    (slots.put slot).1 = slots.1 ++ [slot] := Keyed.put_absent absent

theorem find_of_mem (mem : slot ∈ slots.1) : slots.find slot.token = some slot := by
  obtain ⟨older, newer, split⟩ := append_of_mem mem
  exact find_split split

end Slots

theorem unboundedCore_documented : Documented unboundedCore (fun c => c.1.1) where
  new := rfl
  evict_none called := by cases called; rfl
  evict_some called := by cases called
  minted_none := by
    intro c c' called
    simp only [unboundedCore] at called
    split at called
    · cases called
      rfl
    · cases called
  minted_some := by
    intro c c' token ticket called
    simp only [unboundedCore] at called
    split at called
    · cases called
    rename_i free
    cases called
    have absent : ∀ slot ∈ c.1.1, slot.token ≠ toString c.2 := by
      intro slot mem same
      rw [← same, Slots.find_of_mem mem] at free
      exact free rfl
    exact ⟨absent, Slots.put_absent absent⟩
  keyed_none := by
    intro c c' key called
    simp only [unboundedCore] at called
    split at called
    · cases called
      rfl
    · cases called
  keyed_claimed := by
    intro c key ticket held
    have found := Slots.find_of_mem held
    simp [unboundedCore, found]
  keyed_open := by
    intro c c' key token ticket old older newer split called
    simp only [unboundedCore] at called
    split at called
    · cases called
    · cases called
      exact ⟨rfl, Slots.put_split split rfl⟩
  keyed_new := by
    intro c c' key token ticket absent called
    simp only [unboundedCore] at called
    split at called
    · cases called
    · cases called
      exact ⟨rfl, Slots.put_absent absent⟩
  claim_open := by
    intro c token ticket older newer split
    have found := Slots.find_split split
    simp only at found
    simp only [unboundedCore, found, ne_eq, not_true_eq_false, if_false, Bool.false_eq_true]
    exact ⟨trivial, Slots.put_split split rfl⟩
  claim_claimed := by
    intro c token ticket held
    have found := Slots.find_of_mem held
    simp [unboundedCore, found]
  withdraw_open := by
    intro c token ticket older newer split
    have found := Slots.find_split split
    simp only at found
    simp only [unboundedCore, found, Option.any_some, and_self, decide_true, if_true]
    exact ⟨trivial, Slots.remove_split split⟩
  withdraw_claimed := by
    intro c token ticket held
    have found := Slots.find_of_mem held
    simp [unboundedCore, found]
  forget := by
    intro c token ticket claimed older newer split
    have found := Slots.find_split split
    simp only at found
    simp only [unboundedCore, found, Option.any_some, decide_true, if_true]
    exact ⟨trivial, Slots.remove_split split⟩
  cancelAll c := ⟨rfl, rfl, rfl⟩

/-- An ask, and the one that is delivered in its place. -/
def firstAsk : DecisionEntry Nat := ⟨0, "ask-1", 0, 10⟩

def secondAsk : DecisionEntry Nat := ⟨1, "ask-1", 1, 20⟩

theorem asks_answered_once_redelivered :
    ∃ s, (machine unboundedCore).Reachable s ∧ firstAsk ∈ s.ledger.registered ∧
      firstAsk ∉ s.registry.entries ∧ firstAsk ∉ s.ledger.claims ∧ s.ledger.returned.count firstAsk = 1 := by
  let events : List (Event Nat) :=
    [.registerKeyed 10 "ask-1", .startTimeout firstAsk, .registerKeyed 20 "ask-1",
      .startTimeout secondAsk, .forget firstAsk, .expire 1, .waitTimedOut secondAsk]
  have ran : ((machine unboundedCore).run { registry := { core := unboundedCore.new } } events).map
      (fun s => (s.ledger.registered, s.registry.entries, s.ledger.claims,
        s.ledger.withdrawn ++ s.ledger.forgotten ++ s.ledger.refused)) =
      some ([firstAsk, secondAsk], [secondAsk], [secondAsk], []) := by
    decide +kernel
  obtain ⟨s, path, values⟩ := Option.map_eq_some_iff.1 ran
  obtain ⟨registered, rest⟩ := Prod.mk.inj values
  obtain ⟨entries, rest⟩ := Prod.mk.inj rest
  obtain ⟨claims, others⟩ := Prod.mk.inj rest
  simp only [append_eq_nil_iff] at others
  obtain ⟨⟨withdrawn, forgotten⟩, refused⟩ := others
  have reached : (machine unboundedCore).Reachable s := ⟨_, rfl, events, path⟩
  have known : firstAsk ∈ s.ledger.registered := by rw [registered]; decide
  have gone : firstAsk ∉ s.registry.entries := by rw [entries]; decide
  have unclaimed : firstAsk ∉ s.ledger.claims := by rw [claims]; decide
  have kept : firstAsk ∉ s.ledger.refused := by rw [refused]; decide
  refine ⟨s, reached, known, gone, unclaimed, ?_⟩
  rcases (asks_answered_once unboundedCore_documented reached).2.1 firstAsk known gone unclaimed kept with
    inside | inside | once
  · rw [withdrawn] at inside
    cases inside
  · rw [forgotten] at inside
    cases inside
  · exact once

/-- A timeout started between a claim and its resolution is pending for a claimed entry. -/
theorem claimed_ask_awaits_timeout :
    ¬∀ s, (machine (T := Nat) unboundedCore).Reachable s → ∀ task ∈ s.registry.tasks,
      task.status = .sleeping → task.entry ∈ s.registry.entries ∧ task.entry ∉ s.ledger.claims := by
  intro always
  let events : List (Event Nat) :=
    [.registerKeyed 10 "ask-1", .tryClaim "ask-1", .startTimeout firstAsk]
  have ran : ((machine unboundedCore).run { registry := { core := unboundedCore.new } } events).map
      (fun s => (s.registry.tasks.map fun task => (task.entry, task.status), s.ledger.claims)) =
      some ([(firstAsk, .sleeping)], [firstAsk]) := by
    decide +kernel
  obtain ⟨s, path, values⟩ := Option.map_eq_some_iff.1 ran
  obtain ⟨tasks, claims⟩ := Prod.mk.inj values
  obtain ⟨task, made, shape⟩ := map_eq_singleton_iff.1 tasks
  obtain ⟨entry, asleep⟩ := Prod.mk.inj shape
  have unclaimed := (always s ⟨_, rfl, events, path⟩ task (by rw [made]; simp) asleep).2
  rw [entry, claims] at unclaimed
  exact unclaimed (by decide)

/-- **One timer for an ask.**  No token is held twice, and no two timeouts of one token are asleep. -/
theorem timers_apart {C T : Type} [DecidableEq T] {core : Core C} {slots : C → List Slot} {s : State C T}
    (documented : Documented core slots) (reached : (machine core).Reachable s) :
    (s.registry.entries.map DecisionEntry.token).Nodup ∧
      ∀ (i j : Nat) (first second : TimeoutTask T), s.registry.tasks[i]? = some first → s.registry.tasks[j]? = some second →
        first.status = .sleeping → second.status = .sleeping → first.entry.token = second.entry.token → i = j := by
  have tidy := (sound_of_reachable documented reached).tidy
  refine ⟨tidy.tokens, fun i j first second found found' asleep asleep' same => ?_⟩
  have timed := tidy.asleep i first found asleep
  have timed' := tidy.asleep j second found' asleep'
  exact (Prod.mk.inj (inj_on_of_nodup_map tidy.keys timed timed' same)).2

theorem timers_apart_replaced : ∃ s, (machine unboundedCore).Reachable s ∧
    s.registry.tasks.map (fun task => (task.entry, task.status)) = [(firstAsk, .cancelled), (secondAsk, .sleeping)] ∧
    (s.registry.entries.map DecisionEntry.token).Nodup := by
  have ran : ((machine unboundedCore).run { registry := { core := unboundedCore.new } }
      [.registerKeyed 10 "ask-1", .startTimeout firstAsk, .registerKeyed 20 "ask-1", .startTimeout secondAsk]).map
      (fun s => s.registry.tasks.map fun task => (task.entry, task.status)) =
      some [(firstAsk, .cancelled), (secondAsk, .sleeping)] := by
    decide +kernel
  obtain ⟨s, path, tasks⟩ := Option.map_eq_some_iff.1 ran
  have reached : (machine unboundedCore).Reachable s := ⟨_, rfl, _, path⟩
  exact ⟨s, reached, tasks, (timers_apart unboundedCore_documented reached).1⟩

end BandSdk.Decisions

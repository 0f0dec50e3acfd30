/-
# Theory.Machine -- event machines, their runs, and the invariant rules

A concurrent program on one event loop is a deterministic step function: the
scheduler, the peers and the outcomes of foreign calls are all in the *event*
that fires next, so one state and one event give at most one next state, and
"every interleaving" is "every list of events".  `none` means the event is not
enabled there.

* `Machine.run` executes a list of events; `Reaches` and `Reachable` quantify
  over them.
* `Reachable.invariant` is the induction every safety result uses;
  `Reaches.rel` is its two-state form, for facts that only accumulate.
* `family` runs independent copies side by side, and `Reachable.component`
  gives each copy back as a run of its own.
* `Trace` is an infinite run, and `Trace.leaves` is the one liveness rule: a
  rank that nothing raises and every helpful event lowers.
-/
import Mathlib.Logic.Relation
import Mathlib.Logic.Function.Basic

namespace BandSdk.Theory

open Function

universe u v

section Points

variable {ι : Type u} {α : Type v} {f g : ι → α} {k x : ι} {y z : α}

/-- A function set at one point: what it holds is the new value there, or what was held before. -/
theorem set_cases (here : g k = y) (others : ∀ j, j ≠ k → g j = f j) (held : g x = z) :
    x = k ∧ y = z ∨ x ≠ k ∧ f x = z := by
  by_cases same : x = k
  · subst same
    exact .inl ⟨rfl, here.symm.trans held⟩
  · exact .inr ⟨same, (others x same).symm.trans held⟩

theorem update_cases [DecidableEq ι] (held : Function.update f k y x = z) :
    x = k ∧ y = z ∨ x ≠ k ∧ f x = z :=
  set_cases (update_self ..) (fun _ other => update_of_ne other ..) held

/-- What a log that grew by one entry holds. -/
theorem mem_concat {log : List α} (inside : z ∈ log ++ [y]) : z ∈ log ∨ z = y := by
  simpa using inside

end Points

section Guards

variable {α : Type u} {guard : Prop} [Decidable guard] {next : Option α} {result : α}

/-- A step behind a guard ran: the guard held. -/
theorem of_passed (ran : (if guard then next else none) = some result) : guard ∧ next = some result :=
  Option.ite_none_right_eq_some.1 ran

theorem of_barred (ran : (if guard then none else next) = some result) : ¬ guard ∧ next = some result :=
  Option.ite_none_left_eq_some.1 ran

end Guards

/-- A deterministic machine over events; `init` may be any set of start states. -/
structure Machine (σ : Type u) (ε : Type v) where
  init : σ → Prop
  step : σ → ε → Option σ

namespace Machine

variable {σ : Type u} {ε : Type v} (M : Machine σ ε)

/-- Execute a list of events, refusing the whole list at the first event that
is not enabled. -/
def run : σ → List ε → Option σ
  | s, [] => some s
  | s, e :: rest => (M.step s e).bind fun s' => run s' rest

/-- `t` is reached from `s` by some list of events. -/
def Reaches (s t : σ) : Prop := ∃ events, M.run s events = some t

def Reachable (t : σ) : Prop := ∃ s, M.init s ∧ M.Reaches s t

/-- The runs of `M` whose steps are all allowed. -/
def restrict (allowed : σ → ε → Bool) : Machine σ ε where
  init := M.init
  step s e := if allowed s e then M.step s e else none

variable {M}

theorem run_cons_eq_some {s t : σ} {e : ε} {rest : List ε} :
    M.run s (e :: rest) = some t ↔ ∃ s', M.step s e = some s' ∧ M.run s' rest = some t := by
  simp [run, Option.bind_eq_some_iff]

theorem run_append (s : σ) (first second : List ε) :
    M.run s (first ++ second) = (M.run s first).bind fun t => M.run t second := by
  induction first generalizing s with
  | nil => rfl
  | cons e rest ih =>
    simp only [List.cons_append, run]
    cases M.step s e with
    | none => rfl
    | some s' => simpa using ih s'

theorem Reaches.refl (s : σ) : M.Reaches s s := ⟨[], rfl⟩

theorem Reaches.step {s t : σ} {e : ε} (stepped : M.step s e = some t) : M.Reaches s t :=
  ⟨[e], by simp [run, stepped]⟩

theorem Reaches.trans {s t w : σ} (first : M.Reaches s t) (second : M.Reaches t w) : M.Reaches s w := by
  obtain ⟨before, hb⟩ := first
  obtain ⟨after, ha⟩ := second
  exact ⟨before ++ after, by simp [run_append, hb, ha]⟩

theorem Reachable.trans {s t : σ} (reached : M.Reachable s) (more : M.Reaches s t) : M.Reachable t := by
  obtain ⟨s₀, start, path⟩ := reached
  exact ⟨s₀, start, path.trans more⟩

theorem Reachable.step {s t : σ} {e : ε} (reached : M.Reachable s)
    (stepped : M.step s e = some t) : M.Reachable t :=
  reached.trans (Reaches.step stepped)

theorem Reaches.invariant {P : σ → Prop} {s t : σ} (path : M.Reaches s t) (holds : P s)
    (preserved : ∀ s e t, P s → M.step s e = some t → P t) : P t := by
  obtain ⟨events, ran⟩ := path
  induction events generalizing s with
  | nil => cases ran; exact holds
  | cons e rest ih =>
    obtain ⟨s', stepped, ran'⟩ := run_cons_eq_some.1 ran
    exact ih (preserved s e s' holds stepped) ran'

/-- **The invariant rule.** -/
theorem Reachable.invariant {P : σ → Prop} {t : σ} (reached : M.Reachable t) (initial : ∀ s, M.init s → P s)
    (preserved : ∀ s e t, P s → M.step s e = some t → P t) : P t := by
  obtain ⟨s₀, start, path⟩ := reached
  exact path.invariant (initial s₀ start) preserved

/-- The invariant rule, with what is known of every reachable state at hand. -/
theorem Reachable.invariant_reachable {P : σ → Prop} {t : σ} (reached : M.Reachable t)
    (initial : ∀ s, M.init s → P s)
    (preserved : ∀ s e t, M.Reachable s → P s → M.step s e = some t → P t) : P t := by
  have both : M.Reachable t ∧ P t := by
    refine reached.invariant (P := fun s => M.Reachable s ∧ P s) ?_ ?_
    · exact fun s start => ⟨⟨s, start, Reaches.refl s⟩, initial s start⟩
    · exact fun s e t before stepped =>
        ⟨before.1.step stepped, preserved s e t before.1 before.2 stepped⟩
  exact both.2

/-- **The two-state rule.**  A reflexive, transitive relation that every event
respects from an invariant state relates both ends of every run. -/
theorem Reaches.rel {P : σ → Prop} {R : σ → σ → Prop} {s t : σ} (path : M.Reaches s t)
    (holds : P s) (preserved : ∀ s e t, P s → M.step s e = some t → P t)
    (refl : ∀ s, R s s) (trans : ∀ s t w, R s t → R t w → R s w)
    (respects : ∀ s e t, P s → M.step s e = some t → R s t) : R s t := by
  obtain ⟨events, ran⟩ := path
  induction events generalizing s with
  | nil => cases ran; exact refl _
  | cons e rest ih =>
    obtain ⟨s', stepped, ran'⟩ := run_cons_eq_some.1 ran
    exact trans s s' t (respects s e s' holds stepped)
      (ih (preserved s e s' holds stepped) ran')

theorem restrict_step {allowed : σ → ε → Bool} {s t : σ} {e : ε}
    (stepped : (M.restrict allowed).step s e = some t) : allowed s e = true ∧ M.step s e = some t := by
  by_cases ok : allowed s e = true
  · exact ⟨ok, by simpa [restrict, ok] using stepped⟩
  · simp [restrict, ok] at stepped

theorem Reachable.of_restrict {allowed : σ → ε → Bool} {t : σ}
    (reached : (M.restrict allowed).Reachable t) : M.Reachable t := by
  obtain ⟨s, start, path⟩ := reached
  refine ⟨s, start, ?_⟩
  exact path.invariant (Reaches.refl s) fun s' e t' more stepped =>
    more.trans (Reaches.step (restrict_step stepped).2)

/-! ## Independent copies -/

/-- One copy of `M` for each index; an event names the copy it fires in. -/
def family (M : Machine σ ε) (ι : Type*) [DecidableEq ι] : Machine (ι → σ) (ι × ε) where
  init s := ∀ i, M.init (s i)
  step s e := (M.step (s e.1) e.2).map (Function.update s e.1)

variable {ι : Type*} [DecidableEq ι]

theorem family_step {s t : ι → σ} {i : ι} {e : ε} (stepped : (M.family ι).step s (i, e) = some t) :
    ∃ next, M.step (s i) e = some next ∧ t = Function.update s i next := by
  simpa [family, Option.map_eq_some_iff, eq_comm] using stepped

/-- An event of another copy changes nothing here. -/
theorem family_step_or {s t : ι → σ} {e : ι × ε} (stepped : (M.family ι).step s e = some t) (i : ι) :
    e.1 = i ∧ M.step (s i) e.2 = some (t i) ∨ e.1 ≠ i ∧ t i = s i := by
  obtain ⟨j, e⟩ := e
  obtain ⟨next, inside, rfl⟩ := family_step stepped
  by_cases same : j = i
  · subst same
    exact .inl ⟨rfl, by simpa using inside⟩
  · exact .inr ⟨same, update_of_ne (Ne.symm same) ..⟩

theorem Reaches.component {s t : ι → σ} (path : (M.family ι).Reaches s t) (i : ι) : M.Reaches (s i) (t i) := by
  refine path.invariant (P := fun w => M.Reaches (s i) (w i)) (Reaches.refl _) ?_
  intro w e w' before stepped
  rcases family_step_or stepped i with ⟨-, inside⟩ | ⟨-, same⟩
  · exact before.trans (Reaches.step inside)
  · rw [same]
    exact before

theorem Reachable.component {t : ι → σ} (reached : (M.family ι).Reachable t) (i : ι) : M.Reachable (t i) := by
  obtain ⟨s, start, path⟩ := reached
  exact ⟨s i, start i, path.component i⟩

/-! ## Infinite runs -/

/-- An infinite run from a start state. -/
structure Trace (M : Machine σ ε) where
  state : Nat → σ
  event : Nat → ε
  start : M.init (state 0)
  steps : ∀ n, M.step (state n) (event n) = some (state (n + 1))

theorem Trace.reachable (trace : M.Trace) (n : Nat) : M.Reachable (trace.state n) := by
  induction n with
  | zero => exact ⟨_, trace.start, Reaches.refl _⟩
  | succ n ih => exact ih.step (trace.steps n)

theorem Trace.reaches (trace : M.Trace) {n m : Nat} (later : n ≤ m) :
    M.Reaches (trace.state n) (trace.state m) := by
  induction later with
  | refl => exact Reaches.refl _
  | step _ ih => exact ih.trans (Reaches.step (trace.steps _))

/-- **The rank rule.**  While `waits` holds no event raises the rank and every
helpful event lowers it; helpful events keep coming while `waits` holds; so
`waits` ends. -/
theorem Trace.leaves (trace : M.Trace) {waits : σ → Prop} (rank : σ → Nat) (helpful : ε → Prop)
    (falls : ∀ s e t, M.Reachable s → waits s → M.step s e = some t →
      ¬ waits t ∨ rank t ≤ rank s ∧ (helpful e → rank t < rank s))
    (keeps : ∀ n, waits (trace.state n) → ∃ m, n ≤ m ∧ helpful (trace.event m)) (n : Nat) :
    ∃ m, n ≤ m ∧ ¬ waits (trace.state m) := by
  by_contra never
  have stays : ∀ m, n ≤ m → waits (trace.state m) := by
    intro m later
    by_contra ended
    exact never ⟨m, later, ended⟩
  have step : ∀ m, n ≤ m → rank (trace.state (m + 1)) ≤ rank (trace.state m) ∧
      (helpful (trace.event m) → rank (trace.state (m + 1)) < rank (trace.state m)) := by
    intro m later
    rcases falls _ _ _ (trace.reachable m) (stays m later) (trace.steps m) with ended | lower
    · exact absurd (stays (m + 1) (by omega)) ended
    · exact lower
  have descends : ∀ gap m, n ≤ m → rank (trace.state (m + gap)) ≤ rank (trace.state m) := by
    intro gap m later
    induction gap with
    | zero => exact Nat.le_refl _
    | succ gap ih => exact Nat.le_trans (step (m + gap) (by omega)).1 ih
  -- each helpful event lowers the rank, and it never comes back up
  have bounded : ∀ bound m, n ≤ m → rank (trace.state m) < bound → False := by
    intro bound
    induction bound with
    | zero => exact fun m _ low => Nat.not_lt_zero _ low
    | succ bound ih =>
      intro m later low
      obtain ⟨p, after, helps⟩ := keeps m (stays m later)
      have fell := (step p (by omega)).2 helps
      have below := descends (p - m) m later
      rw [Nat.add_sub_cancel' after] at below
      exact ih (p + 1) (by omega) (by omega)
  exact bounded _ n (Nat.le_refl n) (Nat.lt_succ_self _)

end Machine

end BandSdk.Theory

/-
# Theory.Histories -- what a history still owes

A history is a list of notes, oldest first.  `Along` says of every note how it
stands to those before it.  An obligation is *open* at the end of a history when
some note opened it and none after that closed it; `Guarded` says that no note of
a kind was ever written while the obligation stood open.  `recent` are the latest
entries of a history, each once: what a bounded first-in-first-out set of them
holds.
-/
import Mathlib.Data.List.Basic
import Mathlib.Data.List.Dedup
import Mathlib.Tactic.Common

namespace BandSdk.Theory

variable {ν : Type*} {opens closes : ν → Prop} {history : List ν} {note : ν}

/-- Every note of the history stands in `P` to the notes before it. -/
def Along (P : List ν → ν → Prop) (history : List ν) : Prop :=
  ∀ before note after, history = before ++ note :: after → P before note

theorem Along.nil {P : List ν → ν → Prop} : Along P [] := by
  intro before note after split
  simp at split

theorem along_snoc {P : List ν → ν → Prop} :
    Along P (history ++ [note]) ↔ Along P history ∧ P history note := by
  constructor
  · intro along
    refine ⟨fun before first after split => ?_, along history note [] rfl⟩
    exact along before first (after ++ [note]) (by rw [split]; simp)
  · rintro ⟨along, last⟩ before first after split
    rcases List.eq_nil_or_concat after with rfl | ⟨after, latest, rfl⟩
    · obtain ⟨rfl, rfl⟩ := List.append_singleton_inj.1 split
      exact last
    · rw [List.concat_eq_append, ← List.cons_append, ← List.append_assoc] at split
      obtain ⟨rfl, -⟩ := List.append_singleton_inj.1 split
      exact along before first after rfl

/-- Two places in one history: the first is before, at or after the second. -/
theorem split_cases {before after earlier later : List ν} {first second : ν}
    (splits : before ++ first :: after = earlier ++ second :: later) :
    (∃ between, earlier = before ++ first :: between) ∨ (before = earlier ∧ first = second) ∨
      ∃ between, before = earlier ++ second :: between := by
  rcases List.append_eq_append_iff.1 splits with ⟨gap, rfl, rest⟩ | ⟨gap, rfl, rest⟩
  · cases gap with
    | nil =>
      obtain ⟨rfl, -⟩ := List.cons.inj rest
      exact .inr (.inl ⟨by simp, rfl⟩)
    | cons head gap =>
      obtain ⟨rfl, -⟩ := List.cons.inj rest
      exact .inl ⟨gap, rfl⟩
  · cases gap with
    | nil =>
      obtain ⟨rfl, -⟩ := List.cons.inj rest
      exact .inr (.inl ⟨by simp, rfl⟩)
    | cons head gap =>
      obtain ⟨rfl, -⟩ := List.cons.inj rest
      exact .inr (.inr ⟨gap, rfl⟩)

/-- What some note has, a first note has. -/
theorem exists_first {has : ν → Prop} (some_ : ∃ note ∈ history, has note) :
    ∃ before note after, history = before ++ note :: after ∧ has note ∧ ∀ earlier ∈ before, ¬ has earlier := by
  classical
  obtain ⟨note, member, holds⟩ := some_
  have found : (history.find? has).isSome := List.find?_isSome.2 ⟨note, member, decide_eq_true holds⟩
  obtain ⟨first, found⟩ := Option.isSome_iff_exists.1 found
  obtain ⟨is, before, after, split, none_⟩ := List.find?_eq_some_iff_append.1 found
  exact ⟨before, first, after, split, of_decide_eq_true is, fun earlier mem => by simpa using none_ earlier mem⟩

/-- A note of the history opens, and none after it closes. -/
def Open (opens closes : ν → Prop) (history : List ν) : Prop :=
  ∃ before note after, history = before ++ note :: after ∧ opens note ∧ ∀ later ∈ after, ¬ closes later

/-- Every note that `needs` was written while nothing stood open. -/
def Guarded (opens closes needs : ν → Prop) (history : List ν) : Prop :=
  ∀ before note after, history = before ++ note :: after → needs note → ¬ Open opens closes before

theorem Open.nil : ¬ Open opens closes [] := by
  rintro ⟨before, note, after, split, -⟩
  simp at split

theorem Open.snoc :
    Open opens closes (history ++ [note]) ↔ opens note ∨ Open opens closes history ∧ ¬ closes note := by
  constructor
  · rintro ⟨before, first, after, split, opened, stays⟩
    rcases List.eq_nil_or_concat after with rfl | ⟨after, last, rfl⟩
    · obtain ⟨-, rfl⟩ := List.append_singleton_inj.1 split
      exact .inl opened
    · rw [List.concat_eq_append, ← List.cons_append, ← List.append_assoc] at split
      obtain ⟨rfl, rfl⟩ := List.append_singleton_inj.1 split
      rw [List.concat_eq_append] at stays
      refine .inr ⟨⟨before, first, after, rfl, opened, ?_⟩, stays note (by simp)⟩
      exact fun later mem => stays later (by simp [mem])
  · rintro (opened | ⟨⟨before, first, after, rfl, opened, stays⟩, kept⟩)
    · exact ⟨history, note, [], rfl, opened, by simp⟩
    refine ⟨before, first, after ++ [note], by simp, opened, ?_⟩
    intro later mem
    rcases List.mem_append.1 mem with old | new
    · exact stays later old
    · rw [List.mem_singleton.1 new]
      exact kept

/-- Notes that open nothing leave nothing open that was not. -/
theorem Open.append_none {more : List ν} (closed : ¬ Open opens closes history)
    (none_ : ∀ note ∈ more, ¬ opens note) : ¬ Open opens closes (history ++ more) := by
  induction more generalizing history with
  | nil => rwa [List.append_nil]
  | cons note rest ih =>
    rw [List.append_cons]
    refine ih ?_ fun later mem => none_ later (List.mem_cons_of_mem _ mem)
    rw [Open.snoc]
    rintro (opened | ⟨open_, -⟩)
    · exact none_ note (by simp) opened
    · exact closed open_

theorem Guarded.nil {needs : ν → Prop} : Guarded opens closes needs [] := Along.nil

theorem Guarded.snoc {needs : ν → Prop} (guarded : Guarded opens closes needs history)
    (allowed : needs note → ¬ Open opens closes history) :
    Guarded opens closes needs (history ++ [note]) := along_snoc.2 ⟨guarded, allowed⟩

/-- Notes that need nothing keep what is guarded. -/
theorem Guarded.append_none {needs : ν → Prop} {more : List ν} (guarded : Guarded opens closes needs history)
    (none_ : ∀ note ∈ more, ¬ needs note) : Guarded opens closes needs (history ++ more) := by
  induction more generalizing history with
  | nil => rwa [List.append_nil]
  | cons note rest ih =>
    rw [List.append_cons]
    refine ih (guarded.snoc ?_) fun later mem => none_ later (List.mem_cons_of_mem _ mem)
    exact fun needed => absurd needed (none_ note (by simp))

/-! ## The latest entries -/

section Recent

variable {α : Type*} [DecidableEq α] {bound : ℕ} {entries : List α} {a : α}

/-- The last `bound` distinct entries, oldest first. -/
def recent (bound : ℕ) (entries : List α) : List α :=
  entries.dedup.drop (entries.dedup.length - bound)

theorem mem_of_mem_recent (member : a ∈ recent bound entries) : a ∈ entries :=
  List.mem_dedup.1 (List.mem_of_mem_drop member)

/-- The latest entry counts once, as the latest. -/
theorem dedup_snoc : (entries ++ [a]).dedup = entries.dedup.filter (· ≠ a) ++ [a] := by
  induction entries with
  | nil => simp
  | cons b entries ih =>
    by_cases later : b ∈ entries
    · rw [List.cons_append, List.dedup_cons_of_mem (List.mem_append_left _ later), ih,
        List.dedup_cons_of_mem later]
    · rw [List.cons_append, List.dedup_cons_of_notMem later]
      by_cases same : b = a
      · subst same
        rw [List.dedup_cons_of_mem (by simp), ih, List.filter_cons_of_neg (by simp)]
      · rw [List.dedup_cons_of_notMem (by simp [later, same]), ih,
          List.filter_cons_of_pos (by simpa using same), List.cons_append]

/-- An entry not among the latest joins them at the end, and beyond the bound the
oldest leaves: the step of a first-in-first-out set. -/
theorem recent_snoc (absent : a ∉ recent bound entries) :
    recent bound (entries ++ [a]) =
      if bound < (recent bound entries ++ [a]).length then (recent bound entries ++ [a]).tail
      else recent bound entries ++ [a] := by
  obtain ⟨old, split⟩ : ∃ old, entries.dedup = old ++ recent bound entries :=
    ⟨_, (List.take_append_drop _ _).symm⟩
  have length : (recent bound entries).length = entries.dedup.length - (entries.dedup.length - bound) := by
    rw [recent, List.length_drop]
  have kept : (recent bound entries).filter (· ≠ a) = recent bound entries := by
    rw [List.filter_eq_self]
    intro b member
    exact decide_eq_true fun same => absent (same ▸ member)
  have count : entries.dedup.length = old.length + (recent bound entries).length := by
    rw [← List.length_append, ← split]
  have fewer : (old.filter (· ≠ a)).length ≤ old.length := List.length_filter_le _ _
  have whole : (entries ++ [a]).dedup = old.filter (· ≠ a) ++ (recent bound entries ++ [a]) := by
    rw [dedup_snoc, split, List.filter_append, kept, List.append_assoc]
  rw [recent, whole, List.length_append, List.length_append, List.length_singleton]
  split
  next full =>
    have place : (old.filter (· ≠ a)).length + ((recent bound entries).length + 1) - bound =
        (old.filter (· ≠ a)).length + 1 := by omega
    rw [place, List.drop_append, List.drop_of_length_le (by omega), List.nil_append,
      Nat.add_sub_cancel_left, List.drop_one]
  next room =>
    have none_ : old = [] := List.length_eq_zero_iff.1 (by omega)
    subst none_
    have place : ([].filter (· ≠ a)).length + ((recent bound entries).length + 1) - bound = 0 := by
      omega
    rw [place]
    rfl

end Recent

end BandSdk.Theory

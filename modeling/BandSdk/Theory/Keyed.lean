/-
# Theory.Keyed -- lists of values under a key

A dictionary that keeps insertion order is a list of values whose key is a
function of the value.  `put` writes a value where its key stands, combined with
the value it finds there, or at the end; `putAll` writes several in turn.
-/
import Mathlib.Data.List.Basic
import Mathlib.Tactic.Common

namespace BandSdk.Theory.Keyed

section Put

variable {κ α : Type*} [DecidableEq κ] (key : α → κ) (combine : α → α → α)

set_option linter.unusedSectionVars false

def put (value : α) : List α → List α
  | [] => [value]
  | a :: rest => if key a = key value then combine a value :: rest else a :: put value rest

def putAll (values l : List α) : List α := values.foldl (fun l value => put key combine value l) l

/-- `d[key] = value`, whatever stood there. -/
def replace : α → α → α := fun _ value => value

variable {key combine} {k : κ} {value a : α} {values l : List α}

section

variable (keeps : ∀ a b, key a = key b → key (combine a b) = key b)
include keeps

theorem map_key_put :
    (put key combine value l).map key =
      if key value ∈ l.map key then l.map key else l.map key ++ [key value] := by
  induction l with
  | nil => simp [put]
  | cons a rest ih =>
    simp only [put]
    split
    next same => simp [keeps a value same, same]
    next other =>
      simp only [List.map_cons, ih, List.mem_cons, Ne.symm other, false_or]
      split <;> rfl

theorem nodup_put (apart : (l.map key).Nodup) : ((put key combine value l).map key).Nodup := by
  rw [map_key_put keeps]
  split
  next => exact apart
  next absent =>
    refine List.nodup_append.2 ⟨apart, by simp, ?_⟩
    intro a inside b last same
    rw [List.mem_singleton] at last
    exact absent (last ▸ same ▸ inside)

theorem nodup_putAll (apart : (l.map key).Nodup) : ((putAll key combine values l).map key).Nodup := by
  induction values generalizing l with
  | nil => exact apart
  | cons value rest ih => exact ih (nodup_put keeps apart)

omit keeps in
/-- What a write leaves: the other values, and the written one or what became of it. -/
theorem mem_put (apart : (l.map key).Nodup) (inside : a ∈ put key combine value l) :
    (a ∈ l ∧ key a ≠ key value) ∨ (a = value ∧ ∀ b ∈ l, key b ≠ key value) ∨
      ∃ b ∈ l, key b = key value ∧ a = combine b value := by
  induction l with
  | nil =>
    simp only [put, List.mem_singleton] at inside
    exact .inr (.inl ⟨inside, by simp⟩)
  | cons b rest ih =>
    rw [List.map_cons, List.nodup_cons] at apart
    unfold put at inside
    split at inside
    next same =>
      rcases List.mem_cons.1 inside with rfl | later
      · exact .inr (.inr ⟨b, by simp, same, rfl⟩)
      refine .inl ⟨List.mem_cons_of_mem _ later, ?_⟩
      intro again
      exact apart.1 (List.mem_map.2 ⟨a, later, again.trans same.symm⟩)
    next other =>
      rcases List.mem_cons.1 inside with rfl | later
      · exact .inl ⟨by simp, other⟩
      rcases ih apart.2 later with ⟨old, differs⟩ | ⟨rfl, absent⟩ | ⟨c, within, same, rfl⟩
      · exact .inl ⟨List.mem_cons_of_mem _ old, differs⟩
      · refine .inr (.inl ⟨rfl, ?_⟩)
        simpa [other] using absent
      · exact .inr (.inr ⟨c, List.mem_cons_of_mem _ within, same, rfl⟩)

/-- The keys of a dictionary only grow. -/
theorem key_mem_put : (∃ a ∈ put key combine value l, key a = k) ↔ key value = k ∨ ∃ a ∈ l, key a = k := by
  induction l with
  | nil => simp [put]
  | cons b rest ih =>
    unfold put
    split
    next same =>
      simp only [List.exists_mem_cons_iff, keeps b value same, same]
      exact (or_self_left ..).symm
    next =>
      simp only [List.exists_mem_cons_iff, ih]
      exact or_left_comm

theorem key_mem_putAll :
    (∃ a ∈ putAll key combine values l, key a = k) ↔ (∃ a ∈ values, key a = k) ∨ ∃ a ∈ l, key a = k := by
  induction values generalizing l with
  | nil => simp [putAll]
  | cons value rest ih =>
    have step := ih (l := put key combine value l)
    rw [key_mem_put keeps] at step
    simp only [List.exists_mem_cons_iff]
    exact step.trans (or_left_comm.trans (or_assoc ..).symm)

end

theorem key_replace (a b : α) (_ : key a = key b) : key (replace a b) = key b := rfl

theorem mem_put_replace (inside : a ∈ put key replace value l) : a = value ∨ a ∈ l := by
  induction l with
  | nil => exact .inl (List.mem_singleton.1 inside)
  | cons b rest ih =>
    unfold put at inside
    split at inside
    · rcases List.mem_cons.1 inside with rfl | later
      · exact .inl rfl
      · exact .inr (List.mem_cons_of_mem _ later)
    · rcases List.mem_cons.1 inside with rfl | later
      · exact .inr (by simp)
      · exact (ih later).imp_right (List.mem_cons_of_mem _)

theorem self_mem_put_replace : value ∈ put key replace value l := by
  induction l with
  | nil => simp [put]
  | cons b rest ih =>
    unfold put
    split
    · simp [replace]
    · exact List.mem_cons_of_mem b ih

/-- A value under a new key goes to the end. -/
theorem put_absent (absent : ∀ a ∈ l, key a ≠ key value) : put key combine value l = l ++ [value] := by
  induction l with
  | nil => rfl
  | cons b rest ih =>
    simp only [put, if_neg (absent b (by simp)), List.cons_append]
    rw [ih fun a mem => absent a (List.mem_cons_of_mem b mem)]

theorem mem_putAll_replace (inside : a ∈ putAll key replace values l) : a ∈ values ∨ a ∈ l := by
  induction values generalizing l with
  | nil => exact .inr inside
  | cons value rest ih =>
    rcases ih inside with later | before
    · exact .inl (List.mem_cons_of_mem _ later)
    rcases mem_put_replace before with rfl | old
    · exact .inl (by simp)
    · exact .inr old

/-! ### One value per key -/

variable {older newer : List α}

section

variable (apart : ((older ++ a :: newer).map key).Nodup)
include apart

theorem key_ne_of_split : ∀ b ∈ older ++ newer, key b ≠ key a := by
  intro b mem
  simp only [List.map_append, List.map_cons, List.nodup_append, List.nodup_cons, List.mem_map,
    List.mem_cons] at apart
  obtain ⟨-, ⟨later, -⟩, across⟩ := apart
  rcases List.mem_append.1 mem with before | after
  · exact across _ ⟨b, before, rfl⟩ _ (.inl rfl)
  · intro same
    exact later ⟨b, after, same⟩

theorem find_split : (older ++ a :: newer).find? (fun b => key b = key a) = some a := by
  have others := key_ne_of_split apart
  rw [List.find?_append, List.find?_eq_none.2]
  · simp
  · intro b mem
    simpa using others b (List.mem_append_left newer mem)

theorem eraseP_split : (older ++ a :: newer).eraseP (fun b => key b = key a) = older ++ newer := by
  have others := key_ne_of_split apart
  rw [List.eraseP_append_right]
  · simp
  · intro b mem
    simpa using others b (List.mem_append_left newer mem)

/-- A write under a key that is there takes the place of the value. -/
theorem put_split (same : key value = key a) :
    put key replace value (older ++ a :: newer) = older ++ value :: newer := by
  induction older with
  | nil => simp [put, replace, same]
  | cons first older ih =>
    have other : key first ≠ key value := by
      rw [same]
      exact key_ne_of_split apart first (by simp)
    simp only [List.cons_append, put, if_neg other]
    rw [ih (by simpa using (List.nodup_cons.1 apart).2)]

end

end Put

/-! ## Dictionaries of pairs -/

section Dictionary

variable {κ α : Type*} [DecidableEq κ] {k k' : κ} {value : α} {l : List (κ × α)}

/-- `d.get(key)`. -/
def get (k : κ) (l : List (κ × α)) : Option α := (l.find? (·.1 = k)).map Prod.snd

/-- `d[key] = value`. -/
def setItem (k : κ) (value : α) (l : List (κ × α)) : List (κ × α) := put Prod.fst replace (k, value) l

@[simp] theorem get_nil : get k ([] : List (κ × α)) = none := rfl

theorem get_cons (pair : κ × α) : get k (pair :: l) = if pair.1 = k then some pair.2 else get k l := by
  unfold get
  by_cases same : pair.1 = k
  · simp [same]
  · simp [same]

theorem get_eq_none : get k l = none ↔ k ∉ l.map Prod.fst := by
  simp only [get, Option.map_eq_none_iff, List.find?_eq_none, decide_eq_true_eq, List.mem_map, not_exists,
    not_and]

theorem mem_keys_setItem : k ∈ (setItem k' value l).map Prod.fst ↔ k = k' ∨ k ∈ l.map Prod.fst := by
  rw [setItem, map_key_put key_replace]
  split
  next inside =>
    constructor
    · exact .inr
    rintro (rfl | old)
    · exact inside
    · exact old
  next => simp [or_comm]

theorem get_setItem : get k (setItem k' value l) = if k' = k then some value else get k l := by
  induction l with
  | nil => simp [setItem, put, get_cons]
  | cons pair rest ih =>
    simp only [setItem, put, get_cons] at ih ⊢
    split
    next same =>
      simp only [get_cons, replace]
      grind -linarith
    next other =>
      simp only [get_cons, ih]
      grind -linarith

/-- `d.pop(key, None)`. -/
def erase (k : κ) (l : List (κ × α)) : List (κ × α) := l.filter (·.1 ≠ k)

theorem get_erase : get k (erase k' l) = if k' = k then none else get k l := by
  induction l with
  | nil => simp [erase]
  | cons pair rest ih =>
    simp only [erase] at ih
    by_cases gone : pair.1 = k'
    · simp only [erase, List.filter_cons, gone, ne_eq, not_true_eq_false, decide_false,
        Bool.false_eq_true, ↓reduceIte, ih, get_cons]
      split <;> rfl
    · simp only [erase, List.filter_cons, gone, ne_eq, not_false_eq_true, decide_true, ↓reduceIte, get_cons, ih]
      grind -linarith

section

variable (apart : (l.map Prod.fst).Nodup)
include apart

theorem nodup_erase : ((erase k l).map Prod.fst).Nodup :=
  apart.sublist (List.filter_sublist.map _)

theorem nodup_setItem : ((setItem k value l).map Prod.fst).Nodup :=
  nodup_put key_replace apart

theorem get_of_mem {pair : κ × α} (inside : pair ∈ l) : get pair.1 l = some pair.2 := by
  induction l with
  | nil => cases inside
  | cons first rest ih =>
    rw [List.map_cons, List.nodup_cons] at apart
    rw [get_cons]
    rcases List.mem_cons.1 inside with rfl | later
    · simp
    have other : first.1 ≠ pair.1 := by
      intro same
      exact apart.1 (same ▸ List.mem_map_of_mem later)
    rw [if_neg other, ih apart.2 later]

end

end Dictionary

end BandSdk.Theory.Keyed

/-
# Theory.Lists -- indexed tables that only grow

A table of tasks is a list in which an entry keeps its index for good: entries
are appended at the end and rewritten in place.  These lemmas say what such a
write does to a lookup, to membership, and to a count over the entries.
-/
import Mathlib.Data.List.Nodup
import Mathlib.Data.List.Perm.Subperm
import Mathlib.Tactic.Common

namespace BandSdk.Theory

variable {α : Type*} {l : List α} {i : Nat} {β : Type*}

theorem getElem?_append_singleton {a b : α} (found : (l ++ [a])[i]? = some b) :
    l[i]? = some b ∨ (i = l.length ∧ b = a) := by
  rcases Nat.lt_trichotomy i l.length with lt | eq | gt
  · left; rwa [List.getElem?_append_left lt] at found
  · right; subst eq; simp at found; exact ⟨rfl, found.symm⟩
  · rw [List.getElem?_eq_none (by simp; omega)] at found; cases found

theorem getElem?_modify_cases {f : α → α} {i j : Nat} {b : α} (found : (l.modify i f)[j]? = some b) :
    (j = i ∧ ∃ a, l[i]? = some a ∧ b = f a) ∨ (j ≠ i ∧ l[j]? = some b) := by
  by_cases same : i = j
  · subst same
    rw [List.getElem?_modify_eq, Option.map_eq_map, Option.map_eq_some_iff] at found
    obtain ⟨a, at_, rfl⟩ := found
    exact .inl ⟨rfl, a, at_, rfl⟩
  · rw [List.getElem?_modify_ne _ _ same] at found
    exact .inr ⟨fun h => same h.symm, found⟩

theorem mem_modify {f : α → α} {b : α} (member : b ∈ l.modify i f) : b ∈ l ∨ ∃ a, l[i]? = some a ∧ b = f a := by
  obtain ⟨j, found⟩ := List.mem_iff_getElem?.1 member
  rcases getElem?_modify_cases found with ⟨-, changed⟩ | ⟨-, kept⟩
  · exact .inr changed
  · exact .inl (List.mem_of_getElem? kept)

/-- A projection of the table follows a write when it commutes with it. -/
theorem map_modify {f : α → α} {g : α → β} {h : β → β}
    (commutes : ∀ a, g (f a) = h (g a)) : (l.modify i f).map g = (l.map g).modify i h := by
  induction l generalizing i with
  | nil => simp
  | cons a l ih =>
    cases i with
    | zero => simp [commutes]
    | succ i => simpa using ih

theorem map_modify_of_eq {f : α → α} {g : α → β}
    (same : ∀ a, g (f a) = g a) : (l.modify i f).map g = l.map g := by
  rw [map_modify (h := id) same, List.modify_id]

/-- Nor does a write that keeps what the projection reads of the entry. -/
theorem map_modify_of_found {f : α → α} {a : α} {g : α → β}
    (found : l[i]? = some a) (same : g (f a) = g a) : (l.modify i f).map g = l.map g := by
  refine List.ext_getElem? fun j => ?_
  rw [List.getElem?_map, List.getElem?_map]
  by_cases here : i = j
  · subst here
    rw [List.getElem?_modify_eq, found]
    exact congrArg some same
  · rw [List.getElem?_modify_ne _ _ here]

/-- When only one entry contributes, its contribution is the whole. -/
theorem flatMap_eq_of_unique {g : α → List β} {a : α} (found : l[i]? = some a)
    (others : ∀ (j : Nat) (b : α), j ≠ i → l[j]? = some b → g b = []) : l.flatMap g = g a := by
  induction l generalizing i with
  | nil => cases found
  | cons b l ih =>
    rw [List.flatMap_cons]
    cases i with
    | zero =>
      simp only [List.getElem?_cons_zero, Option.some.injEq] at found
      subst found
      have rest : l.flatMap g = [] := by
        rw [List.flatMap_eq_nil_iff]
        intro c member
        obtain ⟨j, at_⟩ := List.mem_iff_getElem?.1 member
        exact others (j + 1) c (by omega) (by simpa using at_)
      rw [rest, List.append_nil]
    | succ i =>
      have first : g b = [] := others 0 b (by omega) rfl
      rw [first, List.nil_append]
      exact ih (by simpa using found) fun j c other at_ =>
        others (j + 1) c (by omega) (by simpa using at_)

/-- Rewriting one entry changes a count by what that entry contributes. -/
theorem countP_modify {f : α → α} {a : α} (p : α → Bool) (found : l[i]? = some a) :
    (l.modify i f).countP p + (p a).toNat = l.countP p + (p (f a)).toNat := by
  induction l generalizing i with
  | nil => cases found
  | cons b l ih =>
    cases i with
    | zero =>
      simp only [List.getElem?_cons_zero, Option.some.injEq] at found
      subst found
      simp only [List.modify_zero_cons, List.countP_cons]
      cases p b <;> cases p (f b) <;> simp
    | succ i =>
      have := ih (by simpa using found)
      simp only [List.modify_succ_cons, List.countP_cons]
      omega

theorem countP_modify_same {f : α → α} {a : α} {p : α → Bool}
    (found : l[i]? = some a) (same : p (f a) = p a) : (l.modify i f).countP p = l.countP p := by
  have count := countP_modify (f := f) p found
  rw [same] at count
  exact Nat.add_right_cancel count

theorem countP_modify_false {f : α → α} {a : α} {p : α → Bool}
    (found : l[i]? = some a) (gone : p (f a) = false) :
    (l.modify i f).countP p = l.countP p - (p a).toNat := by
  have count := countP_modify (f := f) p found
  rw [gone] at count
  exact Nat.eq_sub_of_add_eq count

/-- A property at most one index has is counted at most once. -/
theorem countP_le_one {p : α → Bool}
    (unique : ∀ (i j : Nat) (a b : α), l[i]? = some a → p a = true → l[j]? = some b → p b = true →
      i = j) : l.countP p ≤ 1 := by
  induction l with
  | nil => simp
  | cons a l ih =>
    have tail : l.countP p ≤ 1 := by
      refine ih fun i j b c hb pb hc pc => ?_
      have := unique (i + 1) (j + 1) b c (by simpa using hb) pb (by simpa using hc) pc
      omega
    cases pa : p a with
    | false => simpa [List.countP_cons, pa] using tail
    | true =>
      have none_ : l.countP p = 0 := by
        rw [List.countP_eq_zero]
        intro b member pb
        obtain ⟨j, found⟩ := List.mem_iff_getElem?.1 member
        have := unique 0 (j + 1) a b rfl pa (by simpa using found) pb
        omega
      simp [pa, none_]

/-- Where a partial projection has no repeats, it determines the entry. -/
theorem eq_of_nodup_filterMap {f : α → Option β} {a b : α} {y : β}
    (distinct : (l.filterMap f).Nodup) (mem : a ∈ l) (mem' : b ∈ l) (here : f a = some y)
    (there : f b = some y) : a = b := by
  induction l with
  | nil => cases mem
  | cons c l ih =>
    rw [List.filterMap_cons] at distinct
    have tail : (l.filterMap f).Nodup := by
      cases fc : f c <;> rw [fc] at distinct
      · exact distinct
      · exact (List.nodup_cons.1 distinct).2
    have head : ∀ {d}, d ∈ l → f d = some y → f c ≠ some y := by
      intro d mem_d fd fc
      rw [fc] at distinct
      exact (List.nodup_cons.1 distinct).1 (List.mem_filterMap.2 ⟨d, mem_d, fd⟩)
    rcases List.mem_cons.1 mem with rfl | before
    · rcases List.mem_cons.1 mem' with rfl | later
      · rfl
      · exact absurd here (head later there)
    · rcases List.mem_cons.1 mem' with rfl | later
      · exact absurd there (head before here)
      · exact ih tail before later

/-- There a property of the entries with one projection is counted at that entry only. -/
theorem countP_of_nodup_filterMap {f : α → Option β} {p : α → Bool} {a : α}
    {y : β} (distinct : (l.filterMap f).Nodup) (mem : a ∈ l) (here : f a = some y)
    (only : ∀ b, p b = true → f b = some y) : l.countP p = (p a).toNat := by
  obtain ⟨before, after, rfl⟩ := List.append_of_mem mem
  rw [List.filterMap_append, List.filterMap_cons_some here, List.nodup_append, List.nodup_cons] at distinct
  obtain ⟨-, ⟨notAfter, -⟩, apart⟩ := distinct
  have first : before.countP p = 0 := by
    refine List.countP_eq_zero.2 fun b other holds => ?_
    exact apart y (List.mem_filterMap.2 ⟨b, other, only b holds⟩) y List.mem_cons_self rfl
  have last : after.countP p = 0 := by
    refine List.countP_eq_zero.2 fun b other holds => ?_
    exact notAfter (List.mem_filterMap.2 ⟨b, other, only b holds⟩)
  rw [List.countP_append, List.countP_cons, first, last]
  cases p a <;> rfl

/-! ## A name that is not taken -/

section Fresh

variable {κ : Type*} [DecidableEq κ] (name : ℕ → κ) (taken : List κ)

/-- The first number from `n` on whose name is free, with so many tries. -/
def firstFree : ℕ → ℕ → ℕ
  | 0, n => n
  | tries + 1, n => if name n ∈ taken then firstFree tries (n + 1) else n

variable {name taken}

/-- A search that ends at a taken name has met taken names only. -/
theorem taken_of_firstFree {tries n : ℕ} (met : name (firstFree name taken tries n) ∈ taken) :
    ∀ i ≤ tries, name (n + i) ∈ taken := by
  induction tries generalizing n with
  | zero =>
    intro i bound
    obtain rfl : i = 0 := Nat.le_zero.1 bound
    exact met
  | succ tries ih =>
    by_cases first : name n ∈ taken
    · rw [firstFree, if_pos first] at met
      intro i bound
      cases i with
      | zero => exact first
      | succ i =>
        rw [Nat.add_succ, ← Nat.succ_add]
        exact ih met i (Nat.le_of_succ_le_succ bound)
    · rw [firstFree, if_neg first] at met
      exact absurd met first

/-- As many tries as there are taken names are enough. -/
theorem firstFree_free (distinct : Function.Injective name) (n : ℕ) :
    name (firstFree name taken taken.length n) ∉ taken := by
  intro met
  have all := taken_of_firstFree met
  have names : ((List.range (taken.length + 1)).map fun i => name (n + i)).Nodup :=
    List.Nodup.map (fun i j same => Nat.add_left_cancel (distinct same)) List.nodup_range
  have inside : ((List.range (taken.length + 1)).map fun i => name (n + i)) ⊆ taken := by
    intro key member
    obtain ⟨i, bound, rfl⟩ := List.mem_map.1 member
    exact all i (Nat.lt_succ_iff.1 (List.mem_range.1 bound))
  have few := (List.subperm_of_subset names inside).length_le
  rw [List.length_map, List.length_range] at few
  omega

end Fresh

end BandSdk.Theory

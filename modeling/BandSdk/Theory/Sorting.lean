/-
# Theory.Sorting -- sorting by a key

`sortOn key` is a stable sort by `key`.  Where no two members share a key the
result depends on the members only, so it can be compared across ways of
collecting them.
-/
import Mathlib.Data.List.Sort
import Mathlib.Data.Prod.Lex

namespace BandSdk.Theory

variable {α β : Type*} [LinearOrder β]

def sortOn (key : α → β) (l : List α) : List α := l.mergeSort fun a b => decide (key a ≤ key b)

variable {key : α → β} {l l' : List α}

theorem sortOn_perm : (sortOn key l).Perm l := List.mergeSort_perm ..

@[simp] theorem mem_sortOn {a : α} : a ∈ sortOn key l ↔ a ∈ l := sortOn_perm.mem_iff

theorem sortOn_sorted : (sortOn key l).Pairwise fun a b => key a ≤ key b := by
  have sorted : (sortOn key l).Pairwise fun a b => decide (key a ≤ key b) = true := by
    refine List.pairwise_mergeSort ?_ ?_ l
    · intro a b c first second
      simp only [decide_eq_true_eq] at first second ⊢
      exact le_trans first second
    · intro a b
      simp only [Bool.or_eq_true, decide_eq_true_eq]
      exact le_total (key a) (key b)
  exact sorted.imp fun ordered => by simpa using ordered

/-- Lists with the same members sort alike by keys that agree on the members and
tell them apart. -/
theorem sortOn_eq_of_perm {key' : α → β} (same : ∀ a ∈ l, key' a = key a)
    (apart : ∀ a ∈ l, ∀ b ∈ l, key a = key b → a = b) (perm : l'.Perm l) :
    sortOn key' l' = sortOn key l := by
  have inside : ∀ a ∈ sortOn key' l', a ∈ l := fun a member => perm.mem_iff.1 (mem_sortOn.1 member)
  have sorted : (sortOn key' l').Pairwise fun a b => key a ≤ key b := by
    refine sortOn_sorted.imp_of_mem ?_
    intro a b left right ordered
    rwa [same a (inside a left), same b (inside b right)] at ordered
  refine List.Perm.eq_of_pairwise ?_ sorted sortOn_sorted ?_
  · intro a b left right le ge
    exact apart a (inside a left) b (mem_sortOn.1 right) (le_antisymm le ge)
  · exact (sortOn_perm.trans perm).trans sortOn_perm.symm

end BandSdk.Theory

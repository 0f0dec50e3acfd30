/-
# Theory.Queue -- a numbered queue in which every arrival is accounted for

Arrivals are numbered from zero.  A number is in the queue, or it left: handed
to a consumer, or dropped.  `Accounted` says that each number is in exactly one
place, once, and that what was handed came in arrival order and before whatever
still waits.  The three lemmas are the three things that happen to a queue.
-/
import Mathlib.Data.List.Basic
import Mathlib.Data.List.Count
import Mathlib.Tactic.Common

namespace BandSdk.Theory

/-- `gone` are the numbers that left, in order; `handed` those of them that were
handed to a consumer. -/
structure Accounted (handed gone queue : List Nat) (arrivals : Nat) : Prop where
  once : ∀ n, gone.count n + queue.count n = if n < arrivals then 1 else 0
  ordered : (handed ++ queue).Pairwise (· < ·)
  handed_gone : ∀ n ∈ handed, n ∈ gone

namespace Accounted

variable {handed gone queue before dropped after : List Nat} {arrivals : Nat}

theorem empty : Accounted [] [] [] 0 :=
  ⟨fun n => by simp, List.Pairwise.nil, nofun⟩

theorem lt_of_gone (accounts : Accounted handed gone queue arrivals) {n : Nat} (left : n ∈ gone) :
    n < arrivals := by
  have once := accounts.once n
  have := List.count_pos_iff.2 left
  by_contra new
  rw [if_neg new] at once
  omega

theorem lt_of_queued (accounts : Accounted handed gone queue arrivals) {n : Nat}
    (waits : n ∈ queue) : n < arrivals := by
  have once := accounts.once n
  have := List.count_pos_iff.2 waits
  by_contra new
  rw [if_neg new] at once
  omega

/-- A part of the queue leaves without being handed. -/
theorem drop (accounts : Accounted handed gone (before ++ dropped ++ after) arrivals) :
    Accounted handed (gone ++ dropped) (before ++ after) arrivals where
  once n := by
    have := accounts.once n
    simp only [List.count_append] at this ⊢
    omega
  ordered := by
    refine accounts.ordered.sublist (List.Sublist.append_left ?_ handed)
    exact (List.sublist_append_left before dropped).append_right after
  handed_gone n member := List.mem_append_left _ (accounts.handed_gone n member)

/-- The head of the queue is handed over. -/
theorem hand {n : Nat} (accounts : Accounted handed gone (n :: queue) arrivals) :
    Accounted (handed ++ [n]) (gone ++ [n]) queue arrivals where
  once m := by
    have := accounts.once m
    simp only [List.count_append, List.count_cons, List.count_nil] at this ⊢
    omega
  ordered := by
    rw [List.append_assoc, List.singleton_append]
    exact accounts.ordered
  handed_gone m member := by
    rcases List.mem_append.1 member with old | new
    · exact List.mem_append_left _ (accounts.handed_gone m old)
    · exact List.mem_append_right _ new

/-- The next number arrives. -/
theorem arrive (accounts : Accounted handed gone queue arrivals) :
    Accounted handed gone (queue ++ [arrivals]) (arrivals + 1) where
  once n := by
    have := accounts.once n
    simp only [List.count_append, List.count_singleton, beq_iff_eq]
    rcases Nat.lt_trichotomy n arrivals with lt | rfl | gt
    · rw [if_pos lt] at this
      rw [if_neg (by omega), if_pos (by omega)]
      omega
    · rw [if_neg (by omega)] at this
      rw [if_pos rfl, if_pos (by omega)]
      omega
    · rw [if_neg (by omega)] at this
      rw [if_neg (by omega), if_neg (by omega)]
      omega
  ordered := by
    rw [← List.append_assoc, List.pairwise_append]
    refine ⟨accounts.ordered, List.pairwise_singleton .., ?_⟩
    intro n earlier m last
    rw [List.mem_singleton.1 last]
    rcases List.mem_append.1 earlier with done | waits
    · exact accounts.lt_of_gone (accounts.handed_gone n done)
    · exact accounts.lt_of_queued waits
  handed_gone := accounts.handed_gone

end Accounted

end BandSdk.Theory

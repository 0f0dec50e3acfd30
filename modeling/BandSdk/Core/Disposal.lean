/-
# Core.Disposal -- releasing an adapter, one attempt after another

A host disposes of its adapter in phases: the framework teardown, the finalizer,
then the registered callbacks, newest first.  An attempt that fails leaves in
`AdapterDisposal` what is still to do, and the next one resumes there.

* `runCallbacks_*`: one pass over the callbacks, whatever they answer.
* `Kept`: the flags and the shrinking map are a function of what has run so far.
* `disposal_resumes`: over every sequence of attempts, by induction on the latest.

The teardown is owed only once startup armed it: an adapter that was accepted but
never started has none to run.
-/
import Mathlib
import BandSdk.Theory.Histories

namespace BandSdk.Core.Disposal

open BandSdk.Theory List

/-- How an awaited cleanup ended: it returned, raised an `Exception`, or was cancelled. -/
inductive Reply
  | completes
  | raises
  | cancelled
deriving DecidableEq

/-- What an attempt ran. -/
inductive Note
  | framework (reply : Reply)
  | finalizer (reply : Reply)
  | callback (position : Nat) (reply : Reply)
deriving DecidableEq

/-- `callbacks` are the positions of the map, in its order. -/
structure AdapterDisposal where
  callbacks : List Nat := []
  owner : Option Nat := none
  sealed_ : Bool := false
  builtinStarted : Bool := false
  builtinDone : Bool := false
  disposing : Bool := false
  finished : Bool := false

/-- One call of `dispose_adapter`: what it is told, and how what it awaits ends. -/
structure Attempt where
  workSettled : Bool
  framework : Reply
  finalizer : Reply
  callback : Nat → Reply

/-- `ok` when the call returned, not raised. -/
structure Outcome where
  disposal : AdapterDisposal
  notes : List Note
  ok : Bool

namespace AdapterDisposal

variable (disposal : AdapterDisposal)

/-- A sealed one raises. -/
def register : Option AdapterDisposal :=
  if disposal.sealed_ then none
  else some { disposal with callbacks := disposal.callbacks ++ [disposal.callbacks.foldl max 0 + 1] }

def accept (owner : Nat) (exclusive : Bool) : AdapterDisposal :=
  let fresh :=
    if disposal.finished then
      { disposal with builtinStarted := false, builtinDone := false, disposing := false, finished := false }
    else disposal
  { fresh with owner := if exclusive then some owner else fresh.owner, sealed_ := true }

def armFramework : AdapterDisposal :=
  { disposal with builtinStarted := true, builtinDone := false }

def finishFramework (cleanup : Reply) : Outcome :=
  if disposal.builtinDone then ⟨disposal, [], true⟩
  else if disposal.builtinStarted || !disposal.sealed_ then
    if cleanup = .completes then ⟨{ disposal with builtinDone := true }, [.framework cleanup], true⟩
    else ⟨disposal, [.framework cleanup], false⟩
  else ⟨{ disposal with builtinDone := true }, [], true⟩

/-- The loop of `run_callbacks` over what is left of its snapshot.  An exception is
kept and the loop goes on; a cancellation leaves it. -/
def runCallbacks (callback : Nat → Reply) : List Nat → AdapterDisposal → Outcome
  | [], disposal => ⟨disposal, [], true⟩
  | position :: rest, disposal =>
    match callback position with
    | .completes =>
      let done := runCallbacks callback rest
        { disposal with callbacks := disposal.callbacks.erase position }
      ⟨done.disposal, .callback position .completes :: done.notes, done.ok⟩
    | .raises =>
      let done := runCallbacks callback rest disposal
      ⟨done.disposal, .callback position .raises :: done.notes, false⟩
    | .cancelled => ⟨disposal, [.callback position .cancelled], false⟩

def finishResources (finalize : Reply) (callback : Nat → Reply) : Outcome :=
  if disposal.finished then ⟨disposal, [], true⟩
  else if finalize = .completes then
    let done := runCallbacks callback disposal.callbacks.reverse disposal
    ⟨{ done.disposal with finished := done.ok }, .finalizer finalize :: done.notes, done.ok⟩
  else ⟨disposal, [.finalizer finalize], false⟩

def requiresOwnership : Bool :=
  !disposal.callbacks.isEmpty || disposal.owner.isSome

end AdapterDisposal

open AdapterDisposal

/-- One attempt on an adapter that is a `SimpleAdapter`. -/
def disposeAdapter (disposal : AdapterDisposal) (attempt : Attempt) : Outcome :=
  if disposal.requiresOwnership && disposal.owner.isNone then ⟨disposal, [], false⟩
  else
    let framed := { disposal with disposing := true }.finishFramework attempt.framework
    if framed.ok && attempt.workSettled then
      let done := framed.disposal.finishResources attempt.finalizer attempt.callback
      ⟨done.disposal, framed.notes ++ done.notes, done.ok⟩
    else framed

/-- `count` cleanups registered on a new adapter. -/
def registered : Nat → AdapterDisposal
  | 0 => {}
  | count + 1 => (registered count).register.getD (registered count)

/-- An adapter one host owns; `armed` when its startup was attempted. -/
def owned (count owner : Nat) (armed : Bool) : AdapterDisposal :=
  let accepted := (registered count).accept owner true
  if armed then accepted.armFramework else accepted

/-- An attempt and what it ran. -/
structure Report where
  attempt : Attempt
  notes : List Note

def run (start : AdapterDisposal) (attempts : List Attempt) : AdapterDisposal × List Report :=
  attempts.foldl (fun state attempt =>
    let done := disposeAdapter state.1 attempt
    (done.disposal, state.2 ++ [⟨attempt, done.notes⟩])) (start, [])

theorem run_snoc (start : AdapterDisposal) (attempts : List Attempt) (attempt : Attempt) :
    run start (attempts ++ [attempt]) =
      let done := disposeAdapter (run start attempts).1 attempt
      (done.disposal, (run start attempts).2 ++ [⟨attempt, done.notes⟩]) := by
  simp [run]

/-! ## What disposal owes -/

/-- The registrations a history has not seen complete, in registration order. -/
def pending (count : Nat) (history : List Note) : List Nat :=
  (List.range' 1 count).filter fun position => .callback position .completes ∉ history

/-- What a pass over `positions` runs: all of them, up to one that is cancelled. -/
def ran (callback : Nat → Reply) : List Nat → List Note
  | [] => []
  | position :: rest =>
    .callback position (callback position) :: if callback position = .cancelled then [] else ran callback rest

/-- What may run after `earlier`: a completed phase does not run again, and where the
teardown was armed no callback runs before it completed. -/
def Admissible (armed : Bool) (earlier : List Note) : Note → Prop
  | .framework _ => .framework .completes ∉ earlier
  | .finalizer _ => armed → .framework .completes ∈ earlier
  | .callback position _ =>
    .callback position .completes ∉ earlier ∧ (armed → .framework .completes ∈ earlier)

/-- An attempt that ran callbacks had the host's work settled, and ran what was
pending newest first, a raising one notwithstanding. -/
def InOrder (count : Nat) (earlier : List Report) (report : Report) : Prop :=
  let callbacks := report.notes.filter fun note => note matches .callback _ _
  callbacks = [] ∨ report.attempt.workSettled ∧
    callbacks = ran report.attempt.callback (pending count (earlier.flatMap (·.notes))).reverse

/-- Every phase has completed. -/
def Succeeded (count : Nat) (armed : Bool) (history : List Note) : Prop :=
  (armed → .framework .completes ∈ history) ∧ .finalizer .completes ∈ history ∧
    ∀ position, 1 ≤ position → position ≤ count → .callback position .completes ∈ history

/-! ## One pass over the callbacks -/

theorem mem_ran {callback : Nat → Reply} {positions : List Nat} {position : Nat} {reply : Reply}
    (member : .callback position reply ∈ ran callback positions) :
    position ∈ positions ∧ callback position = reply := by
  induction positions with
  | nil => simp [ran] at member
  | cons first rest ih =>
    simp only [ran, mem_cons, Note.callback.injEq] at member
    rcases member with ⟨rfl, rfl⟩ | later
    · exact ⟨by simp, rfl⟩
    split at later
    · simp at later
    · exact (ih later).imp (mem_cons_of_mem _) id

theorem ran_callbacks (callback : Nat → Reply) (positions : List Nat) :
    ∀ note ∈ ran callback positions, ∃ position reply, note = .callback position reply := by
  induction positions with
  | nil => simp [ran]
  | cons first rest ih =>
    intro note member
    rcases mem_cons.1 member with rfl | later
    · exact ⟨_, _, rfl⟩
    split at later
    · simp at later
    · exact ih note later

/-- The loop shrinks the map it took its snapshot of, and ends well exactly when
everything in the snapshot completed. -/
theorem runCallbacks_spec (callback : Nat → Reply) (positions : List Nat) (disposal : AdapterDisposal)
    (distinct : positions.Nodup) (nodup : disposal.callbacks.Nodup) :
    runCallbacks callback positions disposal =
      ⟨{ disposal with
          callbacks := disposal.callbacks.filter fun position =>
            .callback position .completes ∉ ran callback positions },
        ran callback positions,
        decide (∀ position ∈ positions, .callback position .completes ∈ ran callback positions)⟩ := by
  induction positions generalizing disposal with
  | nil => simp [runCallbacks, ran]
  | cons position rest ih =>
    obtain ⟨fresh, distinct⟩ := nodup_cons.1 distinct
    have absent : ∀ reply, .callback position reply ∉ ran callback rest :=
      fun reply member => fresh (mem_ran member).1
    simp only [runCallbacks]
    cases answer : callback position with
    | completes =>
      rw [ih _ distinct (nodup.erase position)]
      simp only [ran, answer, reduceCtorEq, if_false, Outcome.mk.injEq, AdapterDisposal.mk.injEq, and_true,
        true_and, nodup.erase_eq_filter, filter_filter]
      constructor
      · refine filter_congr fun other _ => ?_
        by_cases same : other = position <;> simp [same, absent]
      · simp
        grind
    | raises =>
      rw [ih disposal distinct nodup]
      simp [ran, answer, absent]
    | cancelled =>
      simp [ran, answer]
      exact decide_eq_false fun all => by simpa [answer] using all position (by simp)

theorem along_ran {armed : Bool} {callback : Nat → Reply} {positions : List Nat} {history : List Note}
    (along : Along (Admissible armed) history) (distinct : positions.Nodup)
    (torn : armed → .framework .completes ∈ history)
    (fresh : ∀ position ∈ positions, .callback position .completes ∉ history) :
    Along (Admissible armed) (history ++ ran callback positions) := by
  induction positions generalizing history with
  | nil => simpa [ran] using along
  | cons position rest ih =>
    obtain ⟨once, distinct⟩ := nodup_cons.1 distinct
    have next : Along (Admissible armed) (history ++ [.callback position (callback position)]) :=
      along_snoc.2 ⟨along, fresh position (by simp), torn⟩
    rw [ran, append_cons]
    split
    · simpa using next
    refine ih next distinct (fun isArmed => by simp [torn isArmed]) fun other member => ?_
    have apart : other ≠ position := fun same => once (same ▸ member)
    simp [fresh other (mem_cons_of_mem _ member), apart]

/-! ## What the progress keeps -/

theorem pending_append (count : Nat) (history more : List Note) :
    pending count (history ++ more) =
      (pending count history).filter fun position => .callback position .completes ∉ more := by
  simp only [pending, filter_filter]
  refine filter_congr fun position _ => ?_
  by_cases later : Note.callback position .completes ∈ more <;> simp [later]

theorem pending_nodup (count : Nat) (history : List Note) : (pending count history).Nodup :=
  List.Nodup.filter _ nodup_range'

theorem mem_pending {count position : Nat} {history : List Note} :
    position ∈ pending count history ↔
      (1 ≤ position ∧ position ≤ count) ∧ .callback position .completes ∉ history := by
  simp only [pending, mem_filter, mem_range'_1, decide_eq_true_eq, Nat.add_comm 1, Nat.lt_succ_iff]

/-- Notes that are no callback's leave every registration pending. -/
theorem pending_same {count : Nat} {history more : List Note}
    (others : ∀ position, .callback position .completes ∉ more) :
    pending count (history ++ more) = pending count history := by
  simp [pending_append, others]

theorem succeeded_iff {count : Nat} {armed : Bool} {history : List Note} :
    Succeeded count armed history ↔
      (armed → .framework .completes ∈ history) ∧ .finalizer .completes ∈ history ∧ pending count history = [] := by
  simp only [Succeeded, eq_nil_iff_forall_not_mem, mem_pending, not_and, not_not, and_imp]

/-- The fields as what has run so far determines them. -/
structure Kept (count owner : Nat) (armed : Bool) (history : List Note) (disposal : AdapterDisposal) : Prop where
  callbacks : disposal.callbacks = pending count history
  owner : disposal.owner = some owner
  sealed_ : disposal.sealed_ = true
  started : disposal.builtinStarted = armed
  done : disposal.builtinDone = true → armed → .framework .completes ∈ history
  again : .framework .completes ∈ history → disposal.builtinDone = true
  finalized : .finalizer .completes ∈ history → disposal.builtinDone = true
  finished : disposal.finished = true ↔ Succeeded count armed history
  along : Along (Admissible armed) history

section Kept

variable {count owner : Nat} {armed : Bool} {history : List Note} {disposal : AdapterDisposal}

section

variable (kept : Kept count owner armed history disposal)
include kept

theorem finishFramework_kept (cleanup : Reply) :
    let framed := { disposal with disposing := true }.finishFramework cleanup
    Kept count owner armed (history ++ framed.notes) framed.disposal ∧
      (framed.ok → framed.disposal.builtinDone) ∧ ∀ position reply, .callback position reply ∉ framed.notes := by
  have ⟨callbacks, isOwner, isSealed, started, done, again, finalized, finished, along⟩ := kept
  rw [finishFramework]
  dsimp only
  split
  case isTrue isDone =>
    rw [append_nil]
    exact ⟨⟨callbacks, isOwner, isSealed, started, done, again, finalized, finished, along⟩, fun _ => isDone, by simp⟩
  case isFalse undone =>
    have never : Note.framework .completes ∉ history := fun member => undone (again member)
    have noFinal : Note.finalizer .completes ∉ history := fun member => undone (finalized member)
    have unfinished : ∀ note, note ≠ Note.finalizer .completes → ¬ Succeeded count armed (history ++ [note]) := by
      rintro note other ⟨-, final, -⟩
      simp [noFinal, other.symm] at final
    have stays : disposal.finished = false := by
      by_contra isFinished
      exact noFinal (finished.1 (by simpa using isFinished)).2.1
    split
    case isTrue isArmed =>
      split
      case isTrue completes =>
        subst completes
        refine ⟨⟨?_, isOwner, isSealed, started, by simp, by simp, by simp, ?_, ?_⟩, by simp, by simp⟩
        · rw [pending_same (by simp)]
          exact callbacks
        · simp [stays, unfinished]
        · exact along_snoc.2 ⟨along, never⟩
      case isFalse fails =>
        refine ⟨⟨?_, isOwner, isSealed, started, ?_, ?_, ?_, ?_, ?_⟩, by simp, by simp⟩
        · rw [pending_same (by simp)]
          exact callbacks
        · exact fun isDone => absurd isDone undone
        · simp [never, Ne.symm fails]
        · simp [noFinal]
        · simp [stays, unfinished]
        · exact along_snoc.2 ⟨along, never⟩
    case isFalse unarmed =>
      rw [append_nil]
      refine ⟨⟨callbacks, isOwner, isSealed, started, ?_, fun _ => rfl, fun _ => rfl, finished, along⟩, fun _ => rfl, by simp⟩
      intro _ isArmed
      simp [started, isArmed] at unarmed

theorem finishResources_kept (isDone : disposal.builtinDone = true)
    (finalize : Reply) (callback : Nat → Reply) :
    let done := disposal.finishResources finalize callback
    Kept count owner armed (history ++ done.notes) done.disposal ∧
      let callbacks := done.notes.filter fun note => note matches .callback _ _
      callbacks = [] ∨ callbacks = ran callback (pending count history).reverse := by
  have ⟨callbacks, isOwner, isSealed, started, done, again, finalized, finished, along⟩ := kept
  simp only [finishResources]
  split
  · simpa using kept
  case isFalse unfinished =>
    have next : Along (Admissible armed) (history ++ [.finalizer finalize]) := along_snoc.2 ⟨along, done isDone⟩
    split
    case isTrue completes =>
      have nodup := nodup_reverse.2 (pending_nodup count history)
      have notes := ran_callbacks callback (pending count history).reverse
      have left : pending count (history ++ .finalizer finalize :: ran callback (pending count history).reverse) =
          (pending count history).filter fun position =>
            .callback position .completes ∉ ran callback (pending count history).reverse := by
        rw [pending_append]
        simp
      rw [runCallbacks_spec _ _ _ (by rwa [callbacks]) (by rw [callbacks]; exact pending_nodup ..), callbacks]
      subst completes
      refine ⟨⟨left.symm, isOwner, isSealed, started, ?_, fun _ => isDone, fun _ => isDone, ?_, ?_⟩, .inr ?_⟩
      · exact fun _ isArmed => by simp [done isDone isArmed]
      · rw [succeeded_iff, left]
        simp only [decide_eq_true_eq, mem_append, mem_cons, filter_eq_nil_iff, mem_reverse]
        constructor
        · exact fun all => ⟨fun isArmed => .inl (done isDone isArmed), .inr (.inl trivial), by simpa using all⟩
        · exact fun all => by simpa using all.2.2
      · rw [append_cons]
        refine along_ran next nodup (fun isArmed => by simp [done isDone isArmed]) fun position member => ?_
        simp [(mem_pending.1 (mem_reverse.1 member)).2]
      · rw [filter_cons_of_neg (by simp), filter_eq_self]
        intro note member
        obtain ⟨position, reply, rfl⟩ := notes note member
        rfl
    case isFalse fails =>
      refine ⟨⟨?_, isOwner, isSealed, started, ?_, ?_, ?_, ?_, next⟩, .inl (by simp)⟩
      · rw [pending_same (by simp)]
        exact callbacks
      · exact fun _ isArmed => by simp [done isDone isArmed]
      · exact fun _ => isDone
      · exact fun _ => isDone
      · rw [finished]
        simp [Succeeded, Ne.symm fails]

/-- **One attempt.** -/
theorem disposeAdapter_kept (attempt : Attempt) :
    let done := disposeAdapter disposal attempt
    Kept count owner armed (history ++ done.notes) done.disposal ∧
      let callbacks := done.notes.filter fun note => note matches .callback _ _
      callbacks = [] ∨ attempt.workSettled ∧ callbacks = ran attempt.callback (pending count history).reverse := by
  obtain ⟨framed, isDone, others⟩ := finishFramework_kept kept attempt.framework
  have none_ : ({ disposal with disposing := true }.finishFramework attempt.framework).notes.filter
      (fun note => note matches Note.callback _ _) = [] := by
    rw [filter_eq_nil_iff]
    intro note member
    cases note with
    | callback position reply => exact absurd member (others position reply)
    | framework reply => exact Bool.false_ne_true
    | finalizer reply => exact Bool.false_ne_true
  rw [disposeAdapter, if_neg (by simp [kept.owner])]
  dsimp only
  split
  case isTrue both =>
    obtain ⟨ok, settled⟩ := Bool.and_eq_true_iff.1 both
    obtain ⟨after, order⟩ := finishResources_kept framed (isDone ok) attempt.finalizer attempt.callback
    rw [pending_same fun position => others position .completes] at order
    rw [← append_assoc, filter_append, none_, nil_append]
    exact ⟨after, order.imp id fun all => ⟨settled, all⟩⟩
  · exact ⟨framed, .inl none_⟩

end

end Kept

theorem foldl_max_range' (count : Nat) : (List.range' 1 count).foldl max 0 = count := by
  induction count with
  | zero => rfl
  | succ count ih =>
    rw [List.range'_concat, foldl_append, ih]
    simp
    omega

theorem registered_callbacks (count : Nat) : registered count = { callbacks := List.range' 1 count } := by
  induction count with
  | zero => rfl
  | succ count ih =>
    simp [registered, ih, register, foldl_max_range', List.range'_concat, Nat.add_comm]

theorem owned_kept (count owner : Nat) (armed : Bool) : Kept count owner armed [] (owned count owner armed) := by
  cases armed <;>
    refine ⟨?_, ?_, ?_, ?_, ?_, ?_, ?_, ?_, Along.nil⟩ <;>
      simp [owned, accept, armFramework, registered_callbacks, pending, Succeeded]

/-- **Disposal resumes where it stopped.**  For every sequence of attempts of an owned
adapter: nothing that completed runs again; the callbacks of an attempt are those still
pending, newest first, with the host's work settled and, where it was armed, the
teardown done; and the adapter is finished exactly when every phase has completed. -/
theorem disposal_resumes (count owner : Nat) (armed : Bool) (attempts : List Attempt) :
    let done := run (owned count owner armed) attempts
    let history := done.2.flatMap (·.notes)
    Along (Admissible armed) history ∧ Along (InOrder count) done.2 ∧
      (done.1.finished ↔ Succeeded count armed history) := by
  suffices both : Kept count owner armed ((run (owned count owner armed) attempts).2.flatMap (·.notes))
      (run (owned count owner armed) attempts).1 ∧ Along (InOrder count) (run (owned count owner armed) attempts).2 from
    ⟨both.1.along, both.2, both.1.finished⟩
  induction attempts using reverseRecOn with
  | nil => exact ⟨owned_kept count owner armed, Along.nil⟩
  | append_singleton attempts attempt ih =>
    obtain ⟨kept, order⟩ := ih
    obtain ⟨after, now⟩ := disposeAdapter_kept kept attempt
    rw [run_snoc]
    simp only [flatMap_append, flatMap_cons, flatMap_nil, append_nil]
    exact ⟨after, along_snoc.2 ⟨order, now⟩⟩

/-- An owned adapter that was never started: its callback runs, and disposal
finishes, without any teardown. -/
theorem unarmed_callback_runs :
    ¬ Along (Admissible true)
        ((run (owned 1 7 false) [⟨true, .completes, .completes, fun _ => .completes⟩]).2.flatMap (·.notes)) := by
  intro along
  have callback := along [.finalizer .completes] (.callback 1 .completes) [] (by decide)
  exact absurd (callback.2 rfl) (by decide)

end BandSdk.Core.Disposal

/-
# Runtime.Replay -- the stored history a turn may replay

A turn replays what the room said before its earliest original.  `messagesBefore`
finds that boundary in one of two ways: at the first stored original when the earliest
one is stored, and by position, `(inserted_at, id)`, as well when it is not.
`messages_before_boundary` says the two agree: whichever originals are stored, what is
left is what stands strictly before the earliest.

A stored row is read as the platform returns it: its id may be missing and its time
may be a date, a text or neither.
-/
import Mathlib.Data.Prod.Lex
import BandSdk.Runtime.Formatters

namespace BandSdk.Runtime

open List

/-! ## Positions -/

/-- A moment in microseconds, and its offset from UTC unless it is naive. -/
structure DateTime where
  wall : Int
  utcOffset : Option Int

/-- `assume_utc`, as the instant by which it compares. -/
def DateTime.assumeUtc (moment : DateTime) : Int := moment.wall - moment.utcOffset.getD 0

/-- What a stored row may have under `inserted_at`. -/
inductive InsertedAt where
  | datetime (moment : DateTime)
  | str (text : String)
  /-- Nothing, or a value of another type. -/
  | other

/-- A stored row; `id` is `none` unless it is a text.  The rest is handed through. -/
structure StoredMessage (ρ : Type) where
  id : Option String
  insertedAt : InsertedAt
  rest : ρ

/-- A delivery's chronological position: server insertion time, then id. -/
abbrev MessageKey := Int ×ₗ String

namespace MessageKey

def ofMessage (message : PlatformMessage DateTime) : MessageKey :=
  toLex (message.createdAt.assumeUtc, message.id)

variable {ρ : Type} (fromIsoFormat : String → Option DateTime)

def moment : InsertedAt → Option DateTime
  | .datetime moment => some moment
  | .str text => fromIsoFormat text
  | .other => none

def ofStored (message : StoredMessage ρ) : Except String MessageKey :=
  match moment fromIsoFormat message.insertedAt, message.id.filter (· ≠ "") with
  | some moment, some messageId => .ok (toLex (moment.assumeUtc, messageId))
  | _, _ => .error "Cannot order room history without an insertion time and id"

end MessageKey

/-! ## The boundary -/

section Before

variable {ρ : Type} (fromIsoFormat : String → Option DateTime)

/-- The rows in front of the first one that is an original or, where the earliest
original is not stored, stands at its position or behind it. -/
def cutAt (messageIds : List String) (earliest : MessageKey) (earliestIsStored : Bool) :
    List (StoredMessage ρ) → Except String (List (StoredMessage ρ))
  | [] => .ok []
  | message :: rest => do
      if message.id.any (· ∈ messageIds) then return []
      if !earliestIsStored then
        if earliest ≤ (← MessageKey.ofStored fromIsoFormat message) then return []
      return message :: (← cutAt messageIds earliest earliestIsStored rest)

def messagesBefore (messages : List (StoredMessage ρ)) (originals : List (PlatformMessage DateTime)) :
    Except String (List (StoredMessage ρ)) :=
  match (originals.map MessageKey.ofMessage).min? with
  | none => .ok messages
  | some earliest =>
    let earliestIsStored := messages.any fun message => message.id = some (ofLex earliest).2
    cutAt fromIsoFormat (originals.map (·.id)) earliest earliestIsStored messages

/-- What a boundary leaves: a prefix strictly before it without an original, and
behind it nothing that comes before it. -/
def CutBefore (earliest : MessageKey) (originals : List (PlatformMessage DateTime))
    (key : StoredMessage ρ → MessageKey) (messages : List (StoredMessage ρ))
    (result : Except String (List (StoredMessage ρ))) : Prop :=
  ∃ kept later : List (StoredMessage ρ), messages = kept ++ later ∧ result = .ok kept ∧
    (∀ m ∈ kept, key m < earliest ∧ ∀ original ∈ originals, m.id ≠ some original.id) ∧
    ∀ m ∈ later, earliest ≤ key m

/-- A history whose rows can be ordered, with every stored copy of an original at its
position. -/
structure Placed (originals : List (PlatformMessage DateTime)) (key : StoredMessage ρ → MessageKey)
    (messages : List (StoredMessage ρ)) : Prop where
  orderable : ∀ m ∈ messages, MessageKey.ofStored fromIsoFormat m = .ok (key m)
  sorted : messages.Pairwise (key · ≤ key ·)
  copies : ∀ original ∈ originals, ∀ m ∈ messages, m.id = some original.id →
    key m = MessageKey.ofMessage original

variable {fromIsoFormat} {earliest : MessageKey} {originals : List (PlatformMessage DateTime)}
  {key : StoredMessage ρ → MessageKey} {messages : List (StoredMessage ρ)} {m : StoredMessage ρ}

theorem Placed.tail (placed : Placed fromIsoFormat originals key (m :: messages)) :
    Placed fromIsoFormat originals key messages where
  orderable := fun n inside => placed.orderable n (mem_cons_of_mem m inside)
  sorted := placed.sorted.of_cons
  copies := fun original member n inside =>
    placed.copies original member n (mem_cons_of_mem m inside)

open MessageKey

theorem id_of_ofStored {position : MessageKey}
    (read : MessageKey.ofStored fromIsoFormat m = .ok position) : m.id = some (ofLex position).2 := by
  unfold ofStored at read
  split at read
  · next moment messageId _ known =>
      obtain rfl := Except.ok.inj read
      exact (Option.filter_eq_some_iff.1 known).1
  · exact absurd read (by simp)

theorem isOriginal_iff : m.id.any (· ∈ originals.map (·.id)) = true ↔
    ∃ original ∈ originals, m.id = some original.id := by
  cases m.id with
  | none => simp
  | some messageId => simp [eq_comm]

/-- A row that is an original starts what is not replayed. -/
theorem Placed.cut_original (placed : Placed fromIsoFormat originals key (m :: messages))
    (least : ∀ original ∈ originals, earliest ≤ MessageKey.ofMessage original)
    (found : ∃ original ∈ originals, m.id = some original.id) :
    ∀ n ∈ m :: messages, earliest ≤ key n := by
  obtain ⟨original, member, same⟩ := found
  have first : earliest ≤ key m := by
    rw [placed.copies original member m mem_cons_self same]
    exact least original member
  intro n inside
  rcases mem_cons.1 inside with rfl | inside
  · exact first
  · exact first.trans (rel_of_pairwise_cons placed.sorted inside)

theorem CutBefore.none_ (behind : ∀ n ∈ messages, earliest ≤ key n) :
    CutBefore earliest originals key messages (.ok []) :=
  ⟨[], messages, rfl, rfl, by simp, behind⟩

theorem CutBefore.keep {result : Except String (List (StoredMessage ρ))}
    (cut : CutBefore earliest originals key messages result) (before : key m < earliest)
    (other : ∀ original ∈ originals, m.id ≠ some original.id) :
    CutBefore earliest originals key (m :: messages) (result.map (m :: ·)) := by
  obtain ⟨kept, later, rfl, rfl, inside, behind⟩ := cut
  refine ⟨m :: kept, later, rfl, rfl, ?_, behind⟩
  intro n member
  rcases mem_cons.1 member with rfl | member
  · exact ⟨before, other⟩
  · exact inside n member

/-- The three ways a row is read. -/
theorem cutAt_original (found : ∃ original ∈ originals, m.id = some original.id) (isStored : Bool) :
    cutAt fromIsoFormat (originals.map (·.id)) earliest isStored (m :: messages) = .ok [] := by
  rw [cutAt, if_pos (isOriginal_iff.2 found)]
  rfl

section

variable (other : ¬ ∃ original ∈ originals, m.id = some original.id) (read : MessageKey.ofStored fromIsoFormat m = .ok (key m))
include other read

theorem cutAt_behind (behind : earliest ≤ key m) :
    cutAt fromIsoFormat (originals.map (·.id)) earliest false (m :: messages) = .ok [] := by
  rw [cutAt, if_neg (isOriginal_iff.not.2 other), read]
  exact if_pos behind

theorem cutAt_kept {isStored : Bool} (before : isStored = false → key m < earliest) :
    cutAt fromIsoFormat (originals.map (·.id)) earliest isStored (m :: messages) =
      (cutAt fromIsoFormat (originals.map (·.id)) earliest isStored messages).map (m :: ·) := by
  rw [cutAt, if_neg (isOriginal_iff.not.2 other), read]
  cases isStored with
  | true => rfl
  | false =>
    have ahead : ¬ earliest ≤ key m := not_le.2 (before rfl)
    change (if earliest ≤ key m then _ else _) = _
    rw [if_neg ahead]
    rfl

end

section

variable (placed : Placed fromIsoFormat originals key messages)
  (least : ∀ original ∈ originals, earliest ≤ MessageKey.ofMessage original)
include placed least

/-- Where the earliest original is stored, the first stored original is at its position. -/
theorem cutAt_stored {first : PlatformMessage DateTime} (member : first ∈ originals)
    (position : MessageKey.ofMessage first = earliest) (stored : ∃ m ∈ messages, m.id = some first.id) :
    CutBefore earliest originals key messages
      (cutAt fromIsoFormat (originals.map (·.id)) earliest true messages) := by
  induction messages with
  | nil => simp at stored
  | cons m rest ih =>
    by_cases found : ∃ original ∈ originals, m.id = some original.id
    · rw [cutAt_original found]
      exact .none_ (placed.cut_original least found)
    · have other : ∀ original ∈ originals, m.id ≠ some original.id :=
        fun original inside same => found ⟨original, inside, same⟩
      have read := placed.orderable m mem_cons_self
      obtain ⟨copy, inside, same⟩ := stored
      rcases mem_cons.1 inside with rfl | inside
      · exact absurd same (other first member)
      -- the copy is still to come, and only the earliest original has its position
      have before : key m < earliest := by
        have ordered : key m ≤ key copy := rel_of_pairwise_cons placed.sorted inside
        rw [placed.copies first member copy (mem_cons_of_mem m inside) same, position] at ordered
        refine lt_of_le_of_ne ordered fun equal => other first member ?_
        rw [id_of_ofStored read, equal, ← position]
        rfl
      rw [cutAt_kept found read fun omitted => absurd omitted (by decide)]
      exact (ih placed.tail ⟨copy, inside, same⟩).keep before other

/-- Where it is not stored, positions decide. -/
theorem cutAt_omitted :
    CutBefore earliest originals key messages
      (cutAt fromIsoFormat (originals.map (·.id)) earliest false messages) := by
  induction messages with
  | nil => exact .none_ (by simp)
  | cons m rest ih =>
    have read := placed.orderable m mem_cons_self
    by_cases found : ∃ original ∈ originals, m.id = some original.id
    · rw [cutAt_original found]
      exact .none_ (placed.cut_original least found)
    · have other : ∀ original ∈ originals, m.id ≠ some original.id :=
        fun original inside same => found ⟨original, inside, same⟩
      by_cases behind : earliest ≤ key m
      · rw [cutAt_behind found read behind]
        refine .none_ fun n inside => ?_
        rcases mem_cons.1 inside with rfl | inside
        · exact behind
        · exact behind.trans (rel_of_pairwise_cons placed.sorted inside)
      · have before : key m < earliest := not_le.1 behind
        rw [cutAt_kept found read fun _ => before]
        exact (ih placed.tail).keep before other

end

/-- **The boundary of a replay.**  For a history in order whose stored originals are at
their own positions, what is replayed is exactly the prefix strictly before the
earliest original, whether that one is stored, only later ones are, or none: no
original of the turn is in it, and nothing behind the earliest. -/
theorem messages_before_boundary (placed : Placed fromIsoFormat originals key messages)
    (some_ : originals ≠ []) :
    ∃ first ∈ originals, (∀ original ∈ originals, MessageKey.ofMessage first ≤ MessageKey.ofMessage original) ∧
      CutBefore (MessageKey.ofMessage first) originals key messages
        (messagesBefore fromIsoFormat messages originals) := by
  have keys : originals.map ofMessage ≠ [] := by simpa using some_
  obtain ⟨earliest, found⟩ := Option.isSome_iff_exists.1 (isSome_min?_of_ne_nil keys)
  obtain ⟨inside, least⟩ := min?_eq_some_iff.1 found
  obtain ⟨first, member, rfl⟩ := mem_map.1 inside
  have least : ∀ original ∈ originals, ofMessage first ≤ ofMessage original :=
    fun original known => least _ (mem_map_of_mem known)
  refine ⟨first, member, least, ?_⟩
  have named : (ofLex (ofMessage first)).2 = first.id := rfl
  unfold messagesBefore
  rw [found]
  by_cases stored : ∃ m ∈ messages, m.id = some first.id
  · have flag : (messages.any fun m => m.id = some (ofLex (ofMessage first)).2) = true := by
      simpa [named] using stored
    simp only [flag]
    exact cutAt_stored placed least member rfl stored
  · have flag : (messages.any fun m => m.id = some (ofLex (ofMessage first)).2) = false := by
      simpa [any_eq_false, named] using stored
    simp only [flag]
    exact cutAt_omitted placed least

end Before

/-! A turn of two originals of which only the later one is stored. -/

def storedAt (id : String) (wall : Int) : StoredMessage Unit where
  id := some id
  insertedAt := .datetime { wall := wall, utcOffset := some 0 }
  rest := ()

def originalAt (id : String) (wall : Int) : PlatformMessage DateTime where
  id := id
  senderId := "u1"
  senderName := none
  senderType := "User"
  content := ""
  createdAt := { wall := wall, utcOffset := none }

def sampleHistory : List (StoredMessage Unit) :=
  [storedAt "m1" 10, storedAt "between" 25, storedAt "m3" 30]

def sampleOriginals : List (PlatformMessage DateTime) := [originalAt "m3" 30, originalAt "m2" 20]

def sampleKey (m : StoredMessage Unit) : MessageKey :=
  match MessageKey.ofStored (fun _ => none) m with
  | .ok position => position
  | .error _ => toLex (0, "")

theorem sample_placed : Placed (fun _ => none) sampleOriginals sampleKey sampleHistory where
  orderable := by
    simp only [sampleHistory, forall_mem_cons]
    exact ⟨rfl, rfl, rfl, by simp⟩
  sorted := by
    decide +kernel
  copies := by
    intro original known m inside same
    simp only [sampleOriginals, sampleHistory, mem_cons, not_mem_nil, or_false] at known inside
    rcases known with rfl | rfl <;> rcases inside with rfl | rfl | rfl <;>
      first
      | rfl
      | exact absurd same (by decide)

/-- Only what came before the omitted original is replayed. -/
theorem omitted_original_bounds : ∃ first ∈ sampleOriginals,
    CutBefore (MessageKey.ofMessage first) sampleOriginals sampleKey sampleHistory
      (messagesBefore (fun _ => none) sampleHistory sampleOriginals) := by
  obtain ⟨first, member, -, cut⟩ := messages_before_boundary sample_placed (cons_ne_nil _ _)
  exact ⟨first, member, cut⟩

end BandSdk.Runtime

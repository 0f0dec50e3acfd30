/-
# Scheduling.Selection -- retained originals and the prefix one turn consumes

The room's event line (`RetainedEvents`) holds at most one event for each
delivery, a field of the type.  `merge` and `selectPrefix` are the pure part of
discovery: they order the rows of a read with the retained originals and walk
them up to the first one that has to wait.
-/
import Mathlib
import BandSdk.Theory.Lists
import BandSdk.Turns.Attempt

namespace BandSdk.Scheduling

open BandSdk.Theory BandSdk.Turns List

variable {I : Type}

/-- A platform message, as a read listed it or as the WebSocket delivered it. -/
structure Message (I : Type) where
  id : I
  insertedAt : Nat
  /-- The agent wrote it itself. -/
  selfEcho : Bool := false
  /-- What its metadata says of this agent's delivery. -/
  status : Option DeliveryStatus := none
  deriving DecidableEq

inductive Event (I : Type) where
  /-- A message; a synthetic one is a contact-hub turn that owes no delivery. -/
  | message (payload : Message I) (synthetic : Bool)
  /-- A message event without a payload. -/
  | bare
  /-- Housekeeping, such as a roster change. -/
  | roster (serial : Nat)
  deriving DecidableEq

namespace Event

def deliveryId : Event I → Option I
  | .message payload _ => some payload.id
  | _ => none

def isOrdinary : Event I → Bool
  | .message _ synthetic => !synthetic
  | _ => false

def isSynthetic : Event I → Bool
  | .message _ synthetic => synthetic
  | _ => false

/-- `isinstance(event, MessageEvent)`. -/
def isMessage : Event I → Bool
  | .roster _ => false
  | _ => true

/-- The payload of an ordinary event. -/
def original : Event I → Option (Message I)
  | .message payload false => some payload
  | _ => none

theorem original_eq_some {event : Event I} {payload : Message I} :
    event.original = some payload ↔ event = .message payload false := by
  cases event with
  | message payload' synthetic => cases synthetic <;> simp [original]
  | bare | roster serial => simp [original]

end Event

/-- The originals a room keeps, in receive order; each delivery is held once. -/
structure RetainedEvents (I : Type) where
  events : List (Event I)
  distinct : (events.filterMap Event.deliveryId).Nodup

namespace RetainedEvents

def empty : RetainedEvents I := ⟨[], List.nodup_nil⟩

def deliveryIds (line : RetainedEvents I) : List I := line.events.filterMap Event.deliveryId

/-- Drop every event the predicate selects. -/
def remove (line : RetainedEvents I) (doomed : Event I → Bool) : RetainedEvents I where
  events := line.events.filter (!doomed ·)
  distinct := line.distinct.sublist (List.filter_sublist.filterMap _)

theorem eq_of_deliveryId (line : RetainedEvents I) {event event' : Event I} {i : I}
    (mem : event ∈ line.events) (mem' : event' ∈ line.events) (id : event.deliveryId = some i)
    (id' : event'.deliveryId = some i) : event = event' := by
  exact eq_of_nodup_filterMap line.distinct mem mem' id id'

variable [DecidableEq I]

/-- Append the event unless a delivery with the same id is already held. -/
def add (line : RetainedEvents I) (event : Event I) : RetainedEvents I :=
  if held : ∃ i ∈ line.deliveryIds, event.deliveryId = some i then line
  else
    { events := line.events ++ [event]
      distinct := by
        rw [List.filterMap_append, List.nodup_append]
        refine ⟨line.distinct, ?_, ?_⟩
        · cases event <;> simp [Event.deliveryId, List.filterMap]
        intro i mem j mem' same
        refine held ⟨i, mem, ?_⟩
        subst same
        simpa using mem' }

/-- Drop this event, and no other. -/
def drop (line : RetainedEvents I) (event : Event I) : RetainedEvents I where
  events := line.events.erase event
  distinct := line.distinct.sublist (List.erase_sublist.filterMap _)

end RetainedEvents

/-! ## Candidates -/

/-- A delivery's chronological position: server insertion time, then id. -/
abbrev MessageKey (I : Type) := Nat ×ₗ I

def MessageKey.ofMessage (message : Message I) : MessageKey I := toLex (message.insertedAt, message.id)

/-- The position a page of rows reaches, or `none` for an empty page. -/
def MessageKey.lastOf (messages : List (Message I)) : Option (MessageKey I) :=
  messages.getLast?.map MessageKey.ofMessage

/-- What the room may do with a candidate right now. -/
inductive Disposition where
  | runnable
  /-- Settled, failed, self-authored or otherwise not this turn's. -/
  | skip
  /-- Another owner holds its claim. -/
  | held
  /-- A control reclassified during this pass stays separate. -/
  | boundary
  /-- The adapter handles it individually, never in a batch. -/
  | control
  deriving DecidableEq

/-- An original and its selection facts. -/
structure Candidate (I : Type) where
  key : MessageKey I
  event : Message I
  /-- Its event is the one the room retains. -/
  retained : Bool
  disposition : Disposition
  /-- The delivery status a read observed, when one listed it. -/
  observed : Option (Option DeliveryStatus)
  deriving DecidableEq

namespace Candidate

def messageId (c : Candidate I) : I := (ofLex c.key).2

/-- A row the REST list returned, with the metadata that read observed. -/
def listed (row : Message I) : Candidate I :=
  { key := .ofMessage row, event := row, retained := false, disposition := .runnable
    observed := some row.status }

/-- An original the WebSocket delivered and the room kept. -/
def ofRetained (event : Message I) : Candidate I :=
  { key := .ofMessage event, event := event, retained := true, disposition := .runnable
    observed := none }

end Candidate

section Merge

variable [DecidableEq I]

/-- `merged[candidate.message_id] = candidate`; a present entry keeps its place. -/
def assign (merged : List (Candidate I)) (c : Candidate I) : List (Candidate I) :=
  if merged.any (·.messageId = c.messageId) then
    merged.map fun d => if d.messageId = c.messageId then c else d
  else merged ++ [c]

/-- The retained payload wins; the key, the disposition and the metadata of a row
that lists it stay. -/
def resolve (merged : List (Candidate I)) (c : Candidate I) : Candidate I :=
  match merged.find? (·.messageId = c.messageId) with
  | none => c
  | some seen => { c with key := seen.key, disposition := seen.disposition, observed := seen.observed }

def unite (rest retained : List (Candidate I)) : List (Candidate I) :=
  retained.foldl (fun merged c => assign merged (resolve merged c)) (rest.foldl assign [])

/-! ### What a merge holds -/

open Candidate

theorem map_messageId_assign (merged : List (Candidate I)) (c : Candidate I) :
    (assign merged c).map Candidate.messageId =
      if c.messageId ∈ merged.map Candidate.messageId then merged.map Candidate.messageId
      else merged.map Candidate.messageId ++ [c.messageId] := by
  have present : merged.any (·.messageId = c.messageId) = true ↔ c.messageId ∈ merged.map messageId := by
    simp [any_eq_true]
  unfold assign
  by_cases held : merged.any (·.messageId = c.messageId) = true
  · rw [if_pos held, if_pos (present.1 held), map_map]
    refine map_congr_left fun d _ => ?_
    dsimp only [Function.comp]
    split
    · rename_i same; exact same.symm
    · rfl
  · rw [if_neg held, if_neg (fun mem => held (present.2 mem)), map_append]
    rfl

variable {merged : List (Candidate I)}

theorem nodup_assign (distinct : (merged.map Candidate.messageId).Nodup)
    (c : Candidate I) : ((assign merged c).map Candidate.messageId).Nodup := by
  rw [map_messageId_assign]
  split
  · exact distinct
  · rename_i fresh
    exact nodup_append.2 ⟨distinct, by simp, by simpa using fresh⟩

theorem mem_ids_assign {c : Candidate I} {i : I} :
    i ∈ (assign merged c).map Candidate.messageId ↔ i ∈ merged.map Candidate.messageId ∨ i = c.messageId := by
  rw [map_messageId_assign]
  split
  · rename_i held
    exact ⟨.inl, fun mem => mem.elim id fun same => same ▸ held⟩
  · rw [mem_append, mem_singleton]

theorem mem_assign {c d : Candidate I} (mem : d ∈ assign merged c) : d = c ∨ d ∈ merged := by
  unfold assign at mem
  split at mem
  · obtain ⟨e, held, rfl⟩ := mem_map.1 mem
    split
    · exact .inl rfl
    · exact .inr held
  · simpa [or_comm] using mem

theorem messageId_resolve (merged : List (Candidate I)) (c : Candidate I) :
    (resolve merged c).messageId = c.messageId := by
  unfold resolve
  cases found : merged.find? (·.messageId = c.messageId) with
  | none => rfl
  | some seen =>
    have same := List.find?_some found
    exact of_decide_eq_true same

theorem nodup_unite (rest retained : List (Candidate I)) :
    ((unite rest retained).map Candidate.messageId).Nodup := by
  refine foldlRecOn (motive := fun merged : List (Candidate I) => (merged.map messageId).Nodup) retained _
    ?_ fun merged distinct c _ => nodup_assign distinct _
  exact foldlRecOn (motive := fun merged : List (Candidate I) => (merged.map messageId).Nodup) rest _
    nodup_nil fun merged distinct c _ => nodup_assign distinct c

theorem mem_ids_foldl_assign {rest merged : List (Candidate I)} {i : I} :
    i ∈ (rest.foldl assign merged).map Candidate.messageId ↔
      i ∈ merged.map Candidate.messageId ∨ i ∈ rest.map Candidate.messageId := by
  induction rest generalizing merged with
  | nil => simp
  | cons c rest ih =>
    rw [foldl_cons, ih, mem_ids_assign, map_cons, mem_cons, or_assoc]

theorem mem_ids_unite {rest retained : List (Candidate I)} {i : I} :
    i ∈ (unite rest retained).map Candidate.messageId ↔
      i ∈ rest.map Candidate.messageId ∨ i ∈ retained.map Candidate.messageId := by
  have retained_fold : ∀ merged : List (Candidate I),
      i ∈ (retained.foldl (fun merged c => assign merged (resolve merged c)) merged).map
          messageId ↔
        i ∈ merged.map messageId ∨ i ∈ retained.map messageId := by
    induction retained with
    | nil => simp
    | cons c retained ih =>
      intro merged
      rw [foldl_cons, ih, mem_ids_assign, messageId_resolve, map_cons, mem_cons, or_assoc]
  rw [unite, retained_fold, mem_ids_foldl_assign]
  simp

/-- What an entry of a merge takes from a row that lists it. -/
def TakenFrom (rest : List (Candidate I)) (d : Candidate I) : Prop :=
  d.messageId ∈ rest.map Candidate.messageId →
    ∃ row ∈ rest, row.messageId = d.messageId ∧ d.key = row.key ∧ d.observed = row.observed

theorem takenFrom_unite {rest retained : List (Candidate I)} {d : Candidate I}
    (mem : d ∈ unite rest retained) : TakenFrom rest d := by
  have listed : ∀ e ∈ rest.foldl assign [], e ∈ rest := by
    intro e mem
    -- each entry is one of the rows assigned so far
    have grown : ∀ (rows merged : List (Candidate I)), (∀ e ∈ merged, e ∈ rest) →
        (∀ e ∈ rows, e ∈ rest) → ∀ e ∈ rows.foldl assign merged, e ∈ rest := by
      intro rows
      induction rows with
      | nil => exact fun merged held _ => held
      | cons c rows ih =>
        intro merged held rows_mem
        refine ih (assign merged c) (fun e mem => ?_) fun e mem =>
          rows_mem e (mem_cons_of_mem _ mem)
        rcases mem_assign mem with rfl | mem
        · exact rows_mem e (mem_cons_self)
        · exact held e mem
    exact grown rest [] (by simp) (fun _ mem => mem) e mem
  have resolved : ∀ (originals merged : List (Candidate I)),
      (∀ i ∈ rest.map messageId, i ∈ merged.map messageId) →
      (∀ e ∈ merged, TakenFrom rest e) →
      ∀ e ∈ originals.foldl (fun merged c => assign merged (resolve merged c)) merged, TakenFrom rest e := by
    intro originals
    induction originals with
    | nil => exact fun merged _ taken => taken
    | cons c originals ih =>
      intro merged covers taken
      refine ih _ (fun i mem => mem_ids_assign.2 (.inl (covers i mem))) fun e mem => ?_
      rcases mem_assign mem with rfl | mem
      · intro row_listed
        rw [messageId_resolve] at row_listed ⊢
        cases found : merged.find? (·.messageId = c.messageId) with
        | none =>
          obtain ⟨f, mem, same⟩ := mem_map.1 (covers _ row_listed)
          exact absurd (by simpa using same) (List.find?_eq_none.1 found f mem)
        | some seen =>
          have same : seen.messageId = c.messageId := by simpa using List.find?_some found
          obtain ⟨row, mem, id, key, observed⟩ :=
            taken seen (mem_of_find?_eq_some found) (same ▸ row_listed)
          exact ⟨row, mem, id.trans same, by simp [resolve, found, key], by simp [resolve, found, observed]⟩
      · exact taken e mem
  refine resolved retained _ (fun i mem => ?_) (fun e mem _ => ⟨e, listed e mem, rfl, rfl, rfl⟩) d mem
  exact mem_ids_foldl_assign.2 (.inr mem)

end Merge

variable [LinearOrder I]

scoped instance lawfulId : LawfulBEq I := inferInstance

/-- Resolve identities and order them by position; an original in both appears once. -/
def merge (rest retained : List (Candidate I)) : List (Candidate I) :=
  (unite rest retained).insertionSort (·.key ≤ ·.key)

variable (rest retained : List (Candidate I))

theorem merge_perm :
    (merge rest retained).Perm (unite rest retained) := perm_insertionSort _ _

theorem merge_sorted : (merge rest retained).Pairwise (·.key ≤ ·.key) := by
  have total : Std.Total (α := Candidate I) (·.key ≤ ·.key) := ⟨fun a b => le_total a.key b.key⟩
  have trans : IsTrans (Candidate I) (·.key ≤ ·.key) := ⟨fun _ _ _ => le_trans⟩
  exact pairwise_insertionSort _ _

theorem nodup_merge :
    ((merge rest retained).map Candidate.messageId).Nodup :=
  ((merge_perm rest retained).map _).nodup_iff.2 (nodup_unite rest retained)

theorem mem_ids_merge {rest retained : List (Candidate I)} {i : I} :
    i ∈ (merge rest retained).map Candidate.messageId ↔
      i ∈ rest.map Candidate.messageId ∨ i ∈ retained.map Candidate.messageId :=
  ((merge_perm rest retained).map _).mem_iff.trans mem_ids_unite

theorem takenFrom_merge {rest retained : List (Candidate I)} {d : Candidate I}
    (mem : d ∈ merge rest retained) : TakenFrom rest d :=
  takenFrom_unite ((merge_perm rest retained).mem_iff.1 mem)

/-- Why the prefix ended. -/
inductive Stop where
  | cap
  | held
  /-- An unmatched retained original runs on its own. -/
  | boundary
  /-- A recognized control runs on its own. -/
  | control
  /-- A retained original lies beyond the page read. -/
  | frontier
  | end_
  deriving DecidableEq

/-- The prefix to run, why it ended, and the candidate that ended it. -/
structure Selection (I : Type) where
  members : List (Candidate I)
  stop : Stop
  at_ : Option (Candidate I) := none

/-- Whether the REST read has reached or passed the candidate's position. -/
def readReaches (c : Candidate I) (pageReaches : Option (MessageKey I)) (exhausted : Bool) : Bool :=
  exhausted || pageReaches.any fun reached => c.key ≤ reached

/-- What a read listed, how far it reached, and the retries it resumes. -/
structure Frontier (I : Type) where
  listed : List I
  pageReaches : Option (MessageKey I)
  exhausted : Bool
  resumed : List I

/-- The bounded ordinary prefix of the caller's explicitly ordered input. -/
def selectPrefix (read : Frontier I) (cap : Nat) :
    List (Candidate I) → List (Candidate I) → Selection I
  | [], members => { members := members, stop := .end_ }
  | c :: rest, members =>
    let unmatched := c.messageId ∉ read.listed
    if unmatched ∧ c.messageId ∉ read.resumed ∧ readReaches c read.pageReaches read.exhausted = false then
      { members := members, stop := .frontier, at_ := some c }
    else if c.disposition = .skip then selectPrefix read cap rest members
    else if c.disposition = .held then { members := members, stop := .held, at_ := some c }
    else if unmatched ∨ c.disposition = .control ∨ c.disposition = .boundary then
      { members := if members = [] then [c] else members
        stop := if ¬ unmatched ∧ c.disposition = .control then .control else .boundary
        at_ := some c }
    else if (members ++ [c]).length = cap then { members := members ++ [c], stop := .cap }
    else selectPrefix read cap rest (members ++ [c])

theorem selectPrefix_members (read : Frontier I) (cap : Nat) (cs : List (Candidate I))
    {members : List (Candidate I)} (listed : ∀ c ∈ members, c.messageId ∈ read.listed) :
    ∃ taken, taken.Sublist cs ∧ (selectPrefix read cap cs members).members = members ++ taken ∧
      ((∀ c ∈ members ++ taken, c.messageId ∈ read.listed) ∨ (members ++ taken).length ≤ 1) := by
  induction cs generalizing members with
  | nil => exact ⟨[], .slnil, by simp [selectPrefix], .inl (by simpa using listed)⟩
  | cons c rest ih =>
    have here : ∃ taken, taken.Sublist (c :: rest) ∧ members = members ++ taken ∧
        ((∀ d ∈ members ++ taken, d.messageId ∈ read.listed) ∨ (members ++ taken).length ≤ 1) :=
      ⟨[], nil_sublist _, by simp, .inl (by simpa using listed)⟩
    unfold selectPrefix
    dsimp only
    split
    · exact here
    split
    · obtain ⟨taken, sub, eq, spec⟩ := ih listed
      exact ⟨taken, sub.cons c, eq, spec⟩
    · split
      · exact here
      split
      · split
        · rename_i empty
          subst empty
          exact ⟨[c], (nil_sublist rest).cons_cons c, by simp, .inr (by simp)⟩
        · exact here
      · rename_i matched
        have matched : c.messageId ∈ read.listed := by
          by_contra unmatched
          exact matched (.inl unmatched)
        have more : ∀ d ∈ members ++ [c], d.messageId ∈ read.listed := by
          intro d mem
          rcases mem_concat mem with mem | mem
          · exact listed d mem
          · rw [mem]
            exact matched
        split
        · exact ⟨[c], (nil_sublist rest).cons_cons c, rfl, .inl more⟩
        · obtain ⟨taken, sub, eq, spec⟩ := ih more
          exact ⟨c :: taken, sub.cons_cons c, by simpa using eq, by simpa using spec⟩

end BandSdk.Scheduling

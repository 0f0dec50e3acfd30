/-
# Omp.Chunks -- one logical frame from a sequence of chunk frames

A frame too long for one line of the native protocol arrives as a sequence of
`rpc_chunk` frames, each with a part of its JSON text in base64.  `decode` takes
one frame at a time: it passes a plain one through, holds a chunk back until the
sequence is complete, and raises at the first frame that does not continue it.

`validateJson` is the strict JSON parser, a parameter: nothing here depends on what
it answers.  `Gathered` says which frames a pending sequence was gathered from; a
frame that comes out of one came out of exactly such frames (`Chunking`).
-/
import BandSdk.Theory.Base64
import BandSdk.Theory.Json

namespace BandSdk.Omp

open BandSdk.Theory List

/-! ## Frames -/

def ompFrameBytes : Nat := 1024 * 1024

def ompReassembledBytes : Nat := 64 * 1024 * 1024

def ompChunkBytes : Nat := 256 * 1024

abbrev Payload := List (String × Json)

/-- `OmpFrameType.CHUNK`. -/
def chunkType : String := "rpc_chunk"

/-- `OmpFrame.model_validate(payload).type`. -/
def frameType (payload : Payload) : Option String := Json.strField payload "type"

structure OmpChunk where
  chunkId : String
  index : Nat
  count : Nat
  byteLength : Nat
  data : String
  named : 1 ≤ chunkId.length ∧ chunkId.length ≤ 128
  counted : 2 ≤ count ∧ count ≤ ompReassembledBytes / ompChunkBytes
  sized : ompFrameBytes ≤ byteLength ∧ byteLength ≤ ompReassembledBytes
  filled : 1 ≤ data.length
  indexed : index < count

/-- `OmpChunk.model_validate(payload)`, of fields of the right types. -/
def OmpChunk.ofFields (chunkId : String) (index count byteLength : Int) (data : String) : Option OmpChunk :=
  if valid : 0 ≤ index ∧ (1 ≤ chunkId.length ∧ chunkId.length ≤ 128) ∧
      (2 ≤ count.toNat ∧ count.toNat ≤ ompReassembledBytes / ompChunkBytes) ∧
      (ompFrameBytes ≤ byteLength.toNat ∧ byteLength.toNat ≤ ompReassembledBytes) ∧
      1 ≤ data.length ∧ index.toNat < count.toNat then
    some
      { chunkId := chunkId
        index := index.toNat
        count := count.toNat
        byteLength := byteLength.toNat
        data := data
        named := valid.2.1
        counted := valid.2.2.1
        sized := valid.2.2.2.1
        filled := valid.2.2.2.2.1
        indexed := valid.2.2.2.2.2 }
  else none

def OmpChunk.modelValidate (payload : Payload) : Option OmpChunk := do
  let chunkId ← Json.strField payload "chunkId"
  let index ← Json.intField payload "index"
  let count ← Json.intField payload "count"
  let byteLength ← Json.intField payload "byteLength"
  let data ← Json.strField payload "data"
  OmpChunk.ofFields chunkId index count byteLength data

/-! ## The assembler -/

structure PendingChunks where
  chunkId : String
  count : Nat
  byteLength : Nat
  nextIndex : Nat := 0
  receivedBytes : Nat := 0
  parts : List (List UInt8) := []

def PendingChunks.push (pending : PendingChunks) (data : List UInt8) : PendingChunks :=
  { pending with
    parts := pending.parts ++ [data]
    receivedBytes := pending.receivedBytes + data.length
    nextIndex := pending.nextIndex + 1 }

structure ChunkAssembler where
  maxReassembledBytes : Nat := ompReassembledBytes
  chunks : Option PendingChunks := none

/-- Why `decode` raises. -/
inductive DecodeError where
  /-- A frame or its text does not validate. -/
  | invalid
  | interrupted
  | exceedsLimit
  | notBase64
  | invalidData
  | notAtZero
  | mismatch
  | exceedsDeclared
  | lengthMismatch
  | nested

variable (validateJson : List UInt8 → Option Payload)

/-- The bytes of a chunk, if they are its canonical encoding. -/
def OmpChunk.bytes (chunk : OmpChunk) : Except DecodeError (List UInt8) :=
  match Base64.decode chunk.data.toList with
  | none => .error .notBase64
  | some data =>
    if data = [] ∨ data.length > ompChunkBytes ∨ String.ofList (Base64.encode data) ≠ chunk.data then
      .error .invalidData
    else .ok data

namespace ChunkAssembler

variable (a : ChunkAssembler)

/-- The sequence a chunk continues: the pending one, or a new one. -/
def sequenceOf (chunk : OmpChunk) : Except DecodeError PendingChunks :=
  match a.chunks with
  | some pending => .ok pending
  | none =>
    if chunk.index ≠ 0 then .error .notAtZero
    else .ok { chunkId := chunk.chunkId, count := chunk.count, byteLength := chunk.byteLength }

/-- A sequence whose last chunk has come. -/
def completed (pending : PendingChunks) : Except DecodeError (Option Payload) :=
  match validateJson pending.parts.flatten with
  | none => .error .invalid
  | some decoded =>
    match frameType decoded with
    | none => .error .invalid
    | some type => if type = chunkType then .error .nested else .ok (some decoded)

/-- A sequence with one more chunk: too long, still open, or complete. -/
def joined (pending : PendingChunks) : Except DecodeError (Option Payload) × ChunkAssembler :=
  if pending.receivedBytes > pending.byteLength then
    (.error .exceedsDeclared, { a with chunks := some pending })
  else if pending.nextIndex < pending.count then (.ok none, { a with chunks := some pending })
  else if pending.receivedBytes ≠ pending.byteLength then
    (.error .lengthMismatch, { a with chunks := some pending })
  else (completed validateJson pending, { a with chunks := none })

/-- The chunk joins its sequence. -/
def accept (chunk : OmpChunk) (data : List UInt8) (pending : PendingChunks) :
    Except DecodeError (Option Payload) × ChunkAssembler :=
  if pending.chunkId ≠ chunk.chunkId ∨ pending.count ≠ chunk.count ∨
      pending.byteLength ≠ chunk.byteLength ∨ pending.nextIndex ≠ chunk.index then
    (.error .mismatch, { a with chunks := some pending })
  else a.joined validateJson (pending.push data)

def decodeChunk (payload : Payload) : Except DecodeError (Option Payload) × ChunkAssembler :=
  match OmpChunk.modelValidate payload with
  | none => (.error .invalid, a)
  | some chunk =>
    if chunk.byteLength > a.maxReassembledBytes then (.error .exceedsLimit, a)
    else
      match chunk.bytes with
      | .error error => (.error error, a)
      | .ok data =>
        match a.sequenceOf chunk with
        | .error error => (.error error, a)
        | .ok pending => a.accept validateJson chunk data pending

def decode (payload : Payload) : Except DecodeError (Option Payload) × ChunkAssembler :=
  match frameType payload with
  | none => (.error .invalid, a)
  | some type =>
    if type = chunkType then a.decodeChunk validateJson payload
    else if a.chunks.isSome then (.error .interrupted, a)
    else (.ok (some payload), a)

/-- One call after the other. -/
def decodeAll : List Payload → ChunkAssembler → List (Except DecodeError (Option Payload)) × ChunkAssembler
  | [], a => ([], a)
  | payload :: rest, a =>
    let (result, a) := a.decode validateJson payload
    let (results, a) := decodeAll rest a
    (result :: results, a)

end ChunkAssembler

/-! ## Sequences -/

/-- The fields of chunk `index` of a sequence, with the bytes `part` in canonical base64. -/
structure IsChunk (chunkId : String) (count byteLength index : Nat) (part : List UInt8)
    (payload : Payload) : Prop where
  type : frameType payload = some chunkType
  chunkId : Json.strField payload "chunkId" = some chunkId
  index : Json.intField payload "index" = some (index : Int)
  count : Json.intField payload "count" = some (count : Int)
  byteLength : Json.intField payload "byteLength" = some (byteLength : Int)
  data : Json.strField payload "data" = some (String.ofList (Base64.encode part))

/-- The frames are the chunks of the parts, from `index` on. -/
def ChunksFrom (chunkId : String) (count byteLength : Nat) :
    Nat → List (List UInt8) → List Payload → Prop
  | _, [], [] => True
  | index, part :: parts, payload :: frames =>
    IsChunk chunkId count byteLength index part payload ∧
      ChunksFrom chunkId count byteLength (index + 1) parts frames
  | _, _, _ => False

/-- What a sequence may declare. -/
structure Header (limit : Nat) (chunkId : String) (count byteLength : Nat) : Prop where
  named : 1 ≤ chunkId.length ∧ chunkId.length ≤ 128
  counted : 2 ≤ count ∧ count ≤ ompReassembledBytes / ompChunkBytes
  sized : ompFrameBytes ≤ byteLength ∧ byteLength ≤ ompReassembledBytes
  limited : byteLength ≤ limit

/-- A part a chunk may carry. -/
def Fits (part : List UInt8) : Prop := part ≠ [] ∧ part.length ≤ ompChunkBytes

/-- The frames are the chunks of `text`, in order, and nothing else. -/
def Chunking (limit : Nat) (frames : List Payload) (text : List UInt8) : Prop :=
  ∃ chunkId parts, Header limit chunkId frames.length text.length ∧
    ChunksFrom chunkId frames.length text.length 0 parts frames ∧
    parts.flatten = text ∧ ∀ part ∈ parts, Fits part

/-- The frames open a sequence: they are its first chunks, and more are to come. -/
def Opening (limit : Nat) (frames : List Payload) : Prop :=
  ∃ chunkId count byteLength parts, Header limit chunkId count byteLength ∧
    ChunksFrom chunkId count byteLength 0 parts frames ∧ frames.length < count ∧
    (∀ part ∈ parts, Fits part) ∧ parts.flatten.length ≤ byteLength

/-- A text of a frame that is no chunk. -/
def TextOf (text : List UInt8) (frame : Payload) : Prop :=
  validateJson text = some frame ∧ ∃ type, frameType frame = some type ∧ type ≠ chunkType

section Sequences

variable {validateJson} {limit : Nat} {chunkId : String} {count byteLength index : Nat}
  {part : List UInt8} {parts : List (List UInt8)} {payload : Payload} {frames : List Payload}
  {chunk : OmpChunk}

section

variable (chunks : ChunksFrom chunkId count byteLength index parts frames)
include chunks

theorem ChunksFrom.length : parts.length = frames.length := by
  induction parts generalizing index frames with
  | nil =>
    cases frames with
    | nil => rfl
    | cons payload frames => exact chunks.elim
  | cons part parts ih =>
    cases frames with
    | nil => exact chunks.elim
    | cons payload frames => simp [ih chunks.2]

theorem ChunksFrom.push (next : IsChunk chunkId count byteLength (index + frames.length) part payload) :
    ChunksFrom chunkId count byteLength index (parts ++ [part]) (frames ++ [payload]) := by
  induction parts generalizing index frames with
  | nil =>
    cases frames with
    | nil => exact ⟨next, trivial⟩
    | cons payload frames => exact chunks.elim
  | cons first parts ih =>
    cases frames with
    | nil => exact chunks.elim
    | cons payload frames =>
      refine ⟨chunks.1, ih chunks.2 ?_⟩
      rwa [show index + 1 + frames.length = index + (frames.length + 1) by omega]

end

/-! ### One chunk -/

/-- A chunk of a declared sequence validates. -/
theorem IsChunk.modelValidate (chunks : IsChunk chunkId count byteLength index part payload)
    (header : Header limit chunkId count byteLength) (early : index < count) (fits : Fits part) :
    ∃ chunk, OmpChunk.modelValidate payload = some chunk ∧ chunk.chunkId = chunkId ∧
      chunk.count = count ∧ chunk.byteLength = byteLength ∧ chunk.index = index ∧
      chunk.data = String.ofList (Base64.encode part) := by
  have filled : 1 ≤ (String.ofList (Base64.encode part)).length := by
    rw [String.length_ofList]
    exact length_pos_iff.2 (Base64.encode_ne_nil fits.1)
  have valid : 0 ≤ (index : Int) ∧ (1 ≤ chunkId.length ∧ chunkId.length ≤ 128) ∧
      (2 ≤ (count : Int).toNat ∧ (count : Int).toNat ≤ ompReassembledBytes / ompChunkBytes) ∧
      (ompFrameBytes ≤ (byteLength : Int).toNat ∧ (byteLength : Int).toNat ≤ ompReassembledBytes) ∧
      1 ≤ (String.ofList (Base64.encode part)).length ∧ (index : Int).toNat < (count : Int).toNat := by
    exact ⟨Int.natCast_nonneg index, header.named, header.counted, header.sized, filled, early⟩
  simp only [OmpChunk.modelValidate, chunks.chunkId, chunks.index, chunks.count, chunks.byteLength,
    chunks.data, Option.bind_eq_bind, Option.bind_some, OmpChunk.ofFields]
  rw [dif_pos valid]
  exact ⟨_, rfl, rfl, Int.toNat_natCast count, Int.toNat_natCast byteLength, Int.toNat_natCast index, rfl⟩

theorem isChunk_of_modelValidate (type : frameType payload = some chunkType)
    (valid : OmpChunk.modelValidate payload = some chunk)
    (canonical : chunk.data = String.ofList (Base64.encode part)) :
    IsChunk chunk.chunkId chunk.count chunk.byteLength chunk.index part payload := by
  simp only [OmpChunk.modelValidate, Option.bind_eq_bind, Option.bind_eq_some_iff] at valid
  obtain ⟨chunkId, named, index, indexed, count, counted, byteLength, sized, data, filled, made⟩ :=
    valid
  unfold OmpChunk.ofFields at made
  split at made
  next fine =>
    cases made
    have whole : (count.toNat : Int) = count := Int.toNat_of_nonneg (by omega)
    have long : (byteLength.toNat : Int) = byteLength := by
      apply Int.toNat_of_nonneg
      have := fine.2.2.2.1.1
      unfold ompFrameBytes at this
      omega
    exact
      { type := type
        chunkId := named
        index := by rw [indexed, Int.toNat_of_nonneg fine.1]
        count := by rw [counted, whole]
        byteLength := by rw [sized, long]
        data := by rw [filled, ← canonical] }
  · cases made

theorem bytes_eq_ok : chunk.bytes = .ok part ↔ chunk.data = String.ofList (Base64.encode part) ∧ Fits part := by
  unfold OmpChunk.bytes
  constructor
  · intro read
    split at read
    · cases read
    rename_i data known
    split at read
    · cases read
    rename_i fine
    cases read
    simp only [not_or, not_not, Nat.not_lt] at fine
    exact ⟨fine.2.2.symm, fine.1, fine.2.1⟩
  · rintro ⟨canonical, some_, short⟩
    have known : Base64.decode chunk.data.toList = some part := by
      rw [canonical, String.toList_ofList, Base64.decode_encode]
    rw [known]
    simp [some_, Nat.not_lt.2 short, canonical]

/-! ### One call -/

variable {a a' : ChunkAssembler} {pending : PendingChunks} {frame : Payload}
  {result : Option Payload}

/-- The sequence a chunk with these fields joins. -/
def Joins (a : ChunkAssembler) (pending : PendingChunks) : Prop :=
  a.chunks = some pending ∨ a.chunks = none ∧
    pending = { chunkId := pending.chunkId, count := pending.count, byteLength := pending.byteLength }

open ChunkAssembler

theorem completed_of_textOf (text : TextOf validateJson pending.parts.flatten frame) :
    ChunkAssembler.completed validateJson pending = .ok (some frame) := by
  obtain ⟨parsed, type, known, plain⟩ := text
  simp [completed, parsed, known, plain]

theorem textOf_of_completed (done : ChunkAssembler.completed validateJson pending = .ok result) :
    ∃ frame, result = some frame ∧ TextOf validateJson pending.parts.flatten frame := by
  unfold completed at done
  split at done
  · cases done
  rename_i decoded parsed
  split at done
  · cases done
  rename_i type known
  split at done
  · cases done
  rename_i plain
  cases done
  exact ⟨decoded, rfl, parsed, type, known, plain⟩

theorem decode_isChunk (joins : Joins a pending)
    (header : Header a.maxReassembledBytes pending.chunkId pending.count pending.byteLength)
    (early : pending.nextIndex < pending.count) (fits : Fits part)
    (next : IsChunk pending.chunkId pending.count pending.byteLength pending.nextIndex part payload) :
    a.decode validateJson payload = a.joined validateJson (pending.push part) := by
  obtain ⟨chunk, valid, named, counted, sized, indexed, canonical⟩ :=
    next.modelValidate header early fits
  have short : ¬chunk.byteLength > a.maxReassembledBytes := by
    have := header.limited
    omega
  have continued : a.sequenceOf chunk = .ok pending := by
    rcases joins with open_ | ⟨none_, fresh⟩
    · simp [sequenceOf, open_]
    have first : chunk.index = 0 := by rw [indexed, fresh]
    simp only [sequenceOf, none_, first, named, counted, sized, ne_eq, not_true_eq_false, if_false]
    rw [← fresh]
  simp only [decode, next.type, if_true, decodeChunk, valid, if_neg short,
    bytes_eq_ok.2 ⟨canonical, fits⟩, continued, accept]
  rw [if_neg (by simp [named, counted, sized, indexed])]

/-- A call that does not raise passes a plain frame through, or adds a chunk. -/
theorem decode_ok (done : a.decode validateJson payload = (.ok result, a')) :
    (∃ type, frameType payload = some type ∧ type ≠ chunkType ∧ a.chunks = none ∧
      result = some payload ∧ a' = a) ∨
    ∃ part pending, Joins a pending ∧
      Header a.maxReassembledBytes pending.chunkId pending.count pending.byteLength ∧
      pending.nextIndex < pending.count ∧ Fits part ∧
      IsChunk pending.chunkId pending.count pending.byteLength pending.nextIndex part payload ∧
      a.joined validateJson (pending.push part) = (.ok result, a') := by
  unfold decode at done
  split at done
  · cases done
  rename_i type known
  split at done
  next chunked =>
    right
    subst chunked
    unfold decodeChunk at done
    split at done
    · cases done
    rename_i chunk valid
    split at done
    · cases done
    rename_i short
    split at done
    · cases done
    rename_i part read
    obtain ⟨canonical, fits⟩ := bytes_eq_ok.1 read
    have fields := isChunk_of_modelValidate known valid canonical
    split at done
    · cases done
    rename_i pending continued
    unfold accept at done
    split at done
    · cases done
    rename_i same
    simp only [ne_eq, not_or, not_not] at same
    obtain ⟨named, counted, sized, indexed⟩ := same
    refine ⟨part, pending, ?_, ?_, ?_, fits, ?_, done⟩
    · unfold sequenceOf at continued
      split at continued
      next held open_ =>
        cases continued
        exact .inl open_
      next none_ =>
        split at continued
        · cases continued
        · cases continued
          exact .inr ⟨none_, rfl⟩
    · rw [named, counted, sized]
      exact ⟨chunk.named, chunk.counted, chunk.sized, Nat.le_of_not_lt short⟩
    · rw [indexed, counted]
      exact chunk.indexed
    · rw [named, counted, sized, indexed]
      exact fields
  next plain =>
    split at done
    · cases done
    rename_i none_
    cases done
    exact .inl ⟨type, known, plain, by simpa using none_, rfl, rfl⟩

/-- A sequence with one more chunk is still open, or its text is the frame returned. -/
theorem joined_ok (done : a.joined validateJson pending = (.ok result, a')) :
    pending.receivedBytes ≤ pending.byteLength ∧
    ((pending.nextIndex < pending.count ∧ result = none ∧ a' = { a with chunks := some pending }) ∨
      (pending.count ≤ pending.nextIndex ∧ pending.receivedBytes = pending.byteLength ∧
        a' = { a with chunks := none } ∧
        ∃ frame, result = some frame ∧ TextOf validateJson pending.parts.flatten frame)) := by
  unfold joined at done
  split at done
  · cases done
  rename_i within
  refine ⟨Nat.le_of_not_lt within, ?_⟩
  split at done
  next more =>
    cases done
    exact .inl ⟨more, rfl, rfl⟩
  next last =>
    split at done
    · cases done
    rename_i exact_
    obtain ⟨read, rfl⟩ := Prod.mk.inj done
    exact .inr ⟨Nat.le_of_not_lt last, not_not.1 exact_, rfl, textOf_of_completed read⟩

/-! ### Runs -/

/-- The pending sequence was gathered from exactly these frames. -/
structure Gathered (limit : Nat) (pending : PendingChunks) (frames : List Payload) : Prop where
  header : Header limit pending.chunkId pending.count pending.byteLength
  chunks : ChunksFrom pending.chunkId pending.count pending.byteLength 0 pending.parts frames
  fits : ∀ part ∈ pending.parts, Fits part
  next : pending.nextIndex = frames.length
  received : pending.receivedBytes = pending.parts.flatten.length

/-- No call raised since the assembler was empty, and these are the frames it took. -/
structure Gathering (limit : Nat) (a : ChunkAssembler) (frames : List Payload) : Prop where
  negotiated : a.maxReassembledBytes = limit
  idle : a.chunks = none → frames = []
  pending : ∀ pending, a.chunks = some pending → Gathered limit pending frames ∧
    pending.receivedBytes ≤ pending.byteLength ∧ pending.nextIndex < pending.count

open PendingChunks

theorem Gathered.push (gathered : Gathered limit pending frames)
    (next : IsChunk pending.chunkId pending.count pending.byteLength pending.nextIndex part payload)
    (fits : Fits part) : Gathered limit (pending.push part) (frames ++ [payload]) where
  header := gathered.header
  chunks := by
    apply gathered.chunks.push
    rwa [Nat.zero_add, ← gathered.next]
  fits := by
    simp only [PendingChunks.push, mem_append, mem_singleton]
    rintro other (held | rfl)
    · exact gathered.fits other held
    · exact fits
  next := by simp [PendingChunks.push, gathered.next]
  received := by simp [PendingChunks.push, gathered.received]

theorem Gathering.joins (gathering : Gathering limit a frames) (joins : Joins a pending)
    (header : Header limit pending.chunkId pending.count pending.byteLength) :
    Gathered limit pending frames := by
  rcases joins with open_ | ⟨none_, fresh⟩
  · exact (gathering.pending pending open_).1
  · rw [gathering.idle none_, fresh]
    exact ⟨header, trivial, by simp, rfl, rfl⟩

/-- A complete sequence whose length is the declared one is a chunking of its text. -/
theorem Gathered.chunking (gathered : Gathered limit pending frames) (last : pending.nextIndex = pending.count)
    (sized : pending.receivedBytes = pending.byteLength) :
    Chunking limit frames pending.parts.flatten := by
  have counted : frames.length = pending.count := gathered.next.symm.trans last
  have long : pending.parts.flatten.length = pending.byteLength := gathered.received.symm.trans sized
  refine ⟨pending.chunkId, pending.parts, ?_, ?_, rfl, gathered.fits⟩
  · rw [counted, long]
    exact gathered.header
  · rw [counted, long]
    exact gathered.chunks

theorem Gathered.opening (gathered : Gathered limit pending frames)
    (within : pending.receivedBytes ≤ pending.byteLength)
    (more : pending.nextIndex < pending.count) : Opening limit frames := by
  refine ⟨_, _, _, pending.parts, gathered.header, gathered.chunks, ?_, gathered.fits, ?_⟩
  · rwa [← gathered.next]
  · rwa [← gathered.received]

theorem joined_open (within : pending.receivedBytes ≤ pending.byteLength)
    (more : pending.nextIndex < pending.count) :
    a.joined validateJson pending = (.ok none, { a with chunks := some pending }) := by
  rw [joined, if_neg (Nat.not_lt.2 within), if_pos more]

theorem joined_last (sized : pending.receivedBytes = pending.byteLength)
    (last : pending.count ≤ pending.nextIndex) (text : TextOf validateJson pending.parts.flatten frame) :
    a.joined validateJson pending = (.ok (some frame), { a with chunks := none }) := by
  rw [joined, if_neg (Nat.not_lt.2 sized.le), if_neg (Nat.not_lt.2 last),
    if_neg (not_not.2 sized), completed_of_textOf text]

/-- A call that does not raise adds its frame to a sequence that stays open, or completes it. -/
theorem Gathering.decode (gathering : Gathering limit a frames)
    (starts : frames = [] → ∀ type, frameType payload = some type → type = chunkType)
    (done : a.decode validateJson payload = (.ok result, a')) :
    (result = none ∧ a'.chunks ≠ none ∧ Gathering limit a' (frames ++ [payload])) ∨
      ∃ frame text, result = some frame ∧ Chunking limit (frames ++ [payload]) text ∧
        TextOf validateJson text frame := by
  rcases decode_ok done with ⟨type, known, plain, none_, -⟩ |
      ⟨part, pending, joins, header, early, fits, next, joined⟩
  · exact absurd (starts (gathering.idle none_) type known) plain
  rw [gathering.negotiated] at header
  have grown := (gathering.joins joins header).push next fits
  obtain ⟨within, ⟨more, rfl, rfl⟩ | ⟨last, sized, rfl, frame, rfl, text⟩⟩ := joined_ok joined
  · refine .inl ⟨rfl, by simp, gathering.negotiated, by simp, ?_⟩
    intro held same
    cases same
    exact ⟨grown, within, more⟩
  · refine .inr ⟨frame, _, rfl, grown.chunking ?_ sized, text⟩
    simp only [push] at last ⊢
    omega

/-- The chunks of a sequence, one after the other. -/
theorem decodeAll_chunks (joins : Joins a pending)
    (header : Header a.maxReassembledBytes pending.chunkId pending.count pending.byteLength)
    (chunks : ChunksFrom pending.chunkId pending.count pending.byteLength pending.nextIndex parts frames)
    (fits : ∀ part ∈ parts, Fits part) (some_ : parts ≠ [])
    (counted : pending.nextIndex + parts.length = pending.count)
    (sized : pending.receivedBytes + parts.flatten.length = pending.byteLength)
    (text : TextOf validateJson (pending.parts ++ parts).flatten frame) :
    ChunkAssembler.decodeAll validateJson frames a =
      (List.replicate (parts.length - 1) (.ok none) ++ [.ok (some frame)], { a with chunks := none }) := by
  induction parts generalizing a pending frames with
  | nil => exact absurd rfl some_
  | cons part parts ih =>
    cases frames with
    | nil => exact chunks.elim
    | cons payload frames =>
      obtain ⟨next, later⟩ := chunks
      simp only [length_cons] at counted
      simp only [flatten_cons, length_append] at sized
      have step : a.decode validateJson payload = a.joined validateJson (pending.push part) :=
        decode_isChunk joins header (by omega) (fits part (by simp)) next
      rw [decodeAll, step]
      rw [append_cons] at text
      by_cases last : parts = []
      · subst last
        have none_ : frames = [] := length_eq_zero_iff.1 later.length.symm
        subst none_
        rw [joined_last (by simpa [push] using sized)
          (by simpa [push] using counted.ge) (by simpa [push] using text)]
        rfl
      · have more := length_pos_iff.2 last
        rw [joined_open (by simp only [push]; omega)
          (by simp only [push]; omega)]
        dsimp only
        have held : Joins { a with chunks := some (pending.push part) } (pending.push part) :=
          .inl rfl
        rw [ih held header later (fun other mem => fits other (mem_cons_of_mem part mem)) last
          (by simp only [push]; omega) (by simp only [push]; omega) text]
        obtain ⟨n, long⟩ : ∃ n, parts.length = n + 1 := ⟨parts.length - 1, by omega⟩
        simp [long, replicate_succ]

/-- What the calls of a run that starts with a chunk come to: a frame, an error, or nothing yet. -/
theorem Gathering.decodeAll {rest : List Payload} (gathering : Gathering limit a frames)
    (starts : frames = [] → ∀ first ∈ rest.head?, ∀ type, frameType first = some type → type = chunkType) :
    (∃ n frame text, Chunking limit (frames ++ rest.take n) text ∧ TextOf validateJson text frame) ∨
      (∃ k error later, (ChunkAssembler.decodeAll validateJson rest a).1 =
        List.replicate k (.ok none) ++ .error error :: later) ∨
      Gathering limit (ChunkAssembler.decodeAll validateJson rest a).2 (frames ++ rest) := by
  induction rest generalizing a frames with
  | nil =>
    right
    right
    simpa [decodeAll] using gathering
  | cons payload rest ih =>
    rw [decodeAll]
    rcases step : a.decode validateJson payload with ⟨error | result, a'⟩
    · exact .inr (.inl ⟨0, error, _, rfl⟩)
    rcases gathering.decode (fun none_ => starts none_ payload rfl) step with
        ⟨rfl, -, grown⟩ | ⟨frame, text, rfl, chunking, parsed⟩
    · rcases ih grown (by simp) with
          ⟨n, frame, text, chunking, parsed⟩ | ⟨k, error, later, raised⟩ | all
      · left
        exact ⟨n + 1, frame, text, by simpa using chunking, parsed⟩
      · right
        left
        refine ⟨k + 1, error, later, ?_⟩
        simp only [raised, replicate_succ, cons_append]
      · right
        right
        simpa using all
    · left
      exact ⟨1, frame, text, by simpa using chunking, parsed⟩

/-- What a pending sequence keeps to, whichever calls raised. -/
structure Bounded (limit : Nat) (pending : PendingChunks) : Prop where
  limited : pending.byteLength ≤ limit
  received : pending.receivedBytes = pending.parts.flatten.length

/-- An assembler with this limit and a sequence within it. -/
def Holds (limit : Nat) (a : ChunkAssembler) : Prop :=
  a.maxReassembledBytes = limit ∧ ∀ pending, a.chunks = some pending → Bounded limit pending

section

variable (holds : Holds limit a)
include holds

theorem holds_some (bounded : Bounded limit pending) : Holds limit { a with chunks := some pending } := by
  refine ⟨holds.1, ?_⟩
  intro held same
  cases same
  exact bounded

omit holds in
theorem Bounded.push (bounded : Bounded limit pending) : Bounded limit (pending.push part) :=
  ⟨bounded.limited, by simp [PendingChunks.push, bounded.received]⟩

theorem Holds.joined (bounded : Bounded limit pending) : Holds limit (a.joined validateJson pending).2 := by
  unfold ChunkAssembler.joined
  split
  · exact holds_some holds bounded
  split
  · exact holds_some holds bounded
  split
  · exact holds_some holds bounded
  · exact ⟨holds.1, by simp⟩

theorem Holds.sequenceOf (short : chunk.byteLength ≤ limit)
    (continued : a.sequenceOf chunk = .ok pending) : Bounded limit pending := by
  unfold ChunkAssembler.sequenceOf at continued
  split at continued
  next held open_ =>
    cases continued
    exact holds.2 pending open_
  · split at continued
    · cases continued
    · cases continued
      exact ⟨short, rfl⟩

/-- Also a call that raises leaves the assembler within its limit. -/
theorem Holds.decode : Holds limit (a.decode validateJson payload).2 := by
  unfold ChunkAssembler.decode
  split
  · exact holds
  split
  · unfold decodeChunk
    split
    · exact holds
    rename_i chunk valid
    split
    · exact holds
    rename_i short
    rw [holds.1, Nat.not_lt] at short
    split
    · exact holds
    split
    · exact holds
    rename_i pending continued
    have bounded := holds.sequenceOf short continued
    unfold accept
    split
    · exact holds_some holds bounded
    · exact holds.joined bounded.push
  · split
    · exact holds
    · exact holds

theorem Holds.decodeAll : Holds limit (ChunkAssembler.decodeAll validateJson frames a).2 := by
  induction frames generalizing a with
  | nil => exact holds
  | cons payload frames ih => exact ih holds.decode

/-- After a call that does not raise, what is buffered is within the declared length. -/
theorem Holds.buffered (done : a.decode validateJson payload = (.ok result, a'))
    (open_ : a'.chunks = some pending) :
    pending.parts.flatten.length ≤ pending.byteLength ∧ pending.byteLength ≤ limit := by
  have after : Holds limit a' := by
    have kept : Holds limit (a.decode validateJson payload).2 := holds.decode
    rwa [done] at kept
  have bounded := after.2 pending open_
  refine ⟨?_, bounded.limited⟩
  rw [← bounded.received]
  rcases decode_ok done with ⟨type, known, plain, none_, -, rfl⟩ |
      ⟨part, held, joins, header, early, fits, next, joined⟩
  · rw [none_] at open_
    cases open_
  · obtain ⟨within, ⟨more, -, rfl⟩ | ⟨-, -, rfl, -⟩⟩ := joined_ok joined
    · cases open_
      exact within
    · cases open_

end

end Sequences

/-! ## Reassembly -/

/-- Parts of full size, the last one of what is left. -/
def FullSize (parts : List (List UInt8)) : Prop :=
  ∃ full last, parts = full ++ [last] ∧ (∀ part ∈ full, part.length = ompChunkBytes) ∧ Fits last

theorem flatten_length_full {full : List (List UInt8)} (sized : ∀ part ∈ full, part.length = ompChunkBytes) :
    full.flatten.length = full.length * ompChunkBytes := by
  induction full with
  | nil => simp
  | cons part full ih =>
    have first := sized part (by simp)
    have rest := ih (fun other mem => sized other (mem_cons_of_mem part mem))
    rw [flatten_cons, length_append, length_cons, first, rest, Nat.succ_mul, Nat.add_comm]

/-- A text of the lengths that are sent in chunks makes a valid number of full-size parts. -/
theorem fullSize_counted {parts : List (List UInt8)} (full : FullSize parts)
    (long : ompFrameBytes ≤ parts.flatten.length) (short : parts.flatten.length ≤ ompReassembledBytes) :
    2 ≤ parts.length ∧ parts.length ≤ ompReassembledBytes / ompChunkBytes := by
  obtain ⟨full, last, rfl, sized, some_, fits⟩ := full
  have nonempty := length_pos_iff.2 some_
  rw [flatten_append, length_append, flatten_length_full sized] at long short
  simp only [flatten_cons, flatten_nil, append_nil] at long short
  rw [length_append, length_singleton]
  unfold ompFrameBytes at long
  unfold ompReassembledBytes at short ⊢
  unfold ompChunkBytes at *
  omega

/-- **Reassembly inverts chunking, and gives nothing back for anything else.**  The chunks of
any split of a frame's text return nothing but the frame, and leave the assembler empty; parts of
full size are never too many or too few.  Frames that start with a chunk, are not its first ones
only and hold no chunking of a frame's text raise before a frame is returned.  After a call that
does not raise, what is buffered is within the declared length and that within the limit. -/
theorem reassembly_inverts_chunking (limit : Nat) (negotiated : limit ≤ ompReassembledBytes) :
    (∀ frame text chunkId parts frames,
      TextOf validateJson text frame → ompFrameBytes ≤ text.length → text.length ≤ limit →
      parts.flatten = text → (∀ part ∈ parts, Fits part) →
      2 ≤ parts.length ∧ parts.length ≤ ompReassembledBytes / ompChunkBytes →
      1 ≤ chunkId.length ∧ chunkId.length ≤ 128 →
      ChunksFrom chunkId parts.length text.length 0 parts frames →
      ChunkAssembler.decodeAll validateJson frames { maxReassembledBytes := limit } =
        (List.replicate (parts.length - 1) (.ok none) ++ [.ok (some frame)],
          { maxReassembledBytes := limit })) ∧
    (∀ parts, FullSize parts → ompFrameBytes ≤ parts.flatten.length → parts.flatten.length ≤ limit →
      2 ≤ parts.length ∧ parts.length ≤ ompReassembledBytes / ompChunkBytes) ∧
    (∀ first rest, (∀ type, frameType first = some type → type = chunkType) → ¬Opening limit (first :: rest) →
      (∀ n text frame, Chunking limit ((first :: rest).take n) text → ¬TextOf validateJson text frame) →
      ∃ k error later,
        (ChunkAssembler.decodeAll validateJson (first :: rest) { maxReassembledBytes := limit }).1 =
          List.replicate k (.ok none) ++ .error error :: later) ∧
    (∀ frames payload result a',
      (ChunkAssembler.decodeAll validateJson frames { maxReassembledBytes := limit }).2.decode
        validateJson payload = (.ok result, a') →
      ∀ pending, a'.chunks = some pending →
        pending.parts.flatten.length ≤ pending.byteLength ∧ pending.byteLength ≤ limit) := by
  refine ⟨?_, ?_, ?_, ?_⟩
  · intro frame text chunkId parts frames parsed long short split fits counted named chunks
    have some_ : parts ≠ [] := length_pos_iff.1 (by omega)
    have header : Header limit chunkId parts.length text.length :=
      ⟨named, counted, ⟨long, short.trans negotiated⟩, short⟩
    let fresh : PendingChunks :=
      { chunkId := chunkId, count := parts.length, byteLength := text.length }
    have joins : Joins { maxReassembledBytes := limit } fresh := .inr ⟨rfl, rfl⟩
    apply decodeAll_chunks joins header chunks fits some_
    · exact Nat.zero_add parts.length
    · rw [split]
      exact Nat.zero_add text.length
    · rwa [show fresh.parts ++ parts = parts from rfl, split]
  · intro parts full long short
    exact fullSize_counted full long (short.trans negotiated)
  · intro first rest chunked unfinished deviates
    have start : Gathering limit { maxReassembledBytes := limit } [] := ⟨rfl, fun _ => rfl, nofun⟩
    have outcome := @Gathering.decodeAll validateJson limit [] { maxReassembledBytes := limit }
      (first :: rest) start (by simpa using chunked)
    rcases outcome with ⟨n, frame, text, chunking, parsed⟩ | raised | gathering
    · exact absurd parsed (deviates n text frame (by simpa using chunking))
    · exact raised
    · rcases open_ : (ChunkAssembler.decodeAll validateJson (first :: rest)
          { maxReassembledBytes := limit }).2.chunks with _ | pending
      · cases gathering.idle open_
      · obtain ⟨gathered, within, more⟩ := gathering.pending pending open_
        exact absurd (gathered.opening within more) unfinished
  · intro frames payload result a' done pending open_
    have start : Holds limit { maxReassembledBytes := limit } := ⟨rfl, nofun⟩
    exact start.decodeAll.buffered done open_

/-- A chunk frame as the native runtime writes it. -/
def chunkPayload (chunkId : String) (count byteLength index : Nat) (part : List UInt8) : Payload :=
  [("type", .str chunkType), ("chunkId", .str chunkId), ("index", .int index), ("count", .int count),
    ("byteLength", .int byteLength), ("data", .str (String.ofList (Base64.encode part)))]

def chunkPayloads (chunkId : String) (count byteLength : Nat) : Nat → List (List UInt8) → List Payload
  | _, [] => []
  | index, part :: parts =>
    chunkPayload chunkId count byteLength index part :: chunkPayloads chunkId count byteLength (index + 1) parts

theorem chunksFrom_chunkPayloads (chunkId : String) (count byteLength index : Nat) (parts : List (List UInt8)) :
    ChunksFrom chunkId count byteLength index parts
      (chunkPayloads chunkId count byteLength index parts) := by
  induction parts generalizing index with
  | nil => trivial
  | cons part parts ih => exact ⟨⟨rfl, rfl, rfl, rfl, rfl, rfl⟩, ih (index + 1)⟩

/-- The text of a short frame with white space after it, in parts of full size. -/
def paddedParts : List (List UInt8) :=
  let text := "\x7b\"type\": \"ready\"\x7d".toUTF8.toList
  let space := 32
  [text ++ List.replicate (ompChunkBytes - text.length) space, List.replicate ompChunkBytes space,
    List.replicate ompChunkBytes space, List.replicate ompChunkBytes space]

theorem paddedParts_length : ∀ part ∈ paddedParts, part.length = ompChunkBytes := by
  have short : "\x7b\"type\": \"ready\"\x7d".toUTF8.toList.length ≤ ompChunkBytes := by decide +kernel
  simp only [paddedParts, mem_cons, not_mem_nil, or_false]
  rintro part (rfl | rfl | rfl | rfl)
  · rw [length_append, length_replicate]
    omega
  all_goals exact length_replicate

theorem reassembly_inverts_chunking_padded :
    ChunkAssembler.decodeAll
      (fun text => if text = paddedParts.flatten then some [("type", .str "ready")] else none)
      (chunkPayloads "c1" 4 paddedParts.flatten.length 0 paddedParts) {} =
        ([.ok none, .ok none, .ok none, .ok (some [("type", .str "ready")])], {}) := by
  have sized : paddedParts.flatten.length = 4 * ompChunkBytes := flatten_length_full paddedParts_length
  have fits : ∀ part ∈ paddedParts, Fits part := by
    intro part mem
    have full := paddedParts_length part mem
    exact ⟨length_pos_iff.1 (by rw [full]; decide), full.le⟩
  exact (reassembly_inverts_chunking _ ompReassembledBytes le_rfl).1 [("type", .str "ready")]
    paddedParts.flatten "c1" paddedParts _ ⟨if_pos rfl, "ready", rfl, by decide⟩
    (by rw [sized]; decide) (by rw [sized]; decide) rfl fits (by decide) (by decide)
    (chunksFrom_chunkPayloads "c1" 4 paddedParts.flatten.length 0 paddedParts)

end BandSdk.Omp

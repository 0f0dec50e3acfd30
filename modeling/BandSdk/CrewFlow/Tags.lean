/-
# CrewFlow.Tags -- the participants a message tags

`extractTaggedPeerKeys` cuts every `@` and what follows it in the alphabet of
handles into a token, and takes the participants whose key is the token's last
segment.  The namespace in front of that segment is not compared.

`tags_found` says whom it finds: who is tagged by a full or bare handle, in any
letter case, and whom it returns.
-/
import Mathlib
import BandSdk.CrewFlow.Keys

namespace BandSdk.CrewFlow.Keys

open BandSdk.Theory (Casing)
open BandSdk.Theory.Text List

/-! ## The tokens of a message -/

/-- `[A-Za-z0-9_-]`, what a segment of a handle is made of. -/
def isHandleChar (c : Char) : Bool := c.isAlphanum || c = '_' || c = '-'

/-- What a token is made of: handles, and periods. -/
def isTokenChar (c : Char) : Bool := isHandleChar c || c = '.' || c = '/'

/-- `re.findall` of an `@` and one or more of these.  No token has an `@` inside, so the
search may as well go on right behind the one it found. -/
def findTokens : List Char → List (List Char)
  | [] => []
  | c :: rest =>
    if c = '@' ∧ rest.takeWhile isTokenChar ≠ [] then rest.takeWhile isTokenChar :: findTokens rest
    else findTokens rest

variable (casing : Lowering)

/-- What of a token is compared with the keys. -/
def tokenKey (raw : List Char) : List Char := lastSegment '/' (casing.lower (trim raw))

/-- `_extract_tagged_peer_keys`. -/
def extractTaggedPeerKeys (content : List Char) (participants : List CrewAIFlowParticipantSnapshot) :
    List (List Char) :=
  (findTokens content).foldl (fun out raw =>
    if participants.any (fun p => p.normalizedKey = tokenKey casing raw) ∧ tokenKey casing raw ∉ out then
      out ++ [tokenKey casing raw]
    else out) []

/-! ## What a tag is -/

/-- A handle of segments over `[A-Za-z0-9_-]`, without its `@`. -/
def IsHandle (handle : List Char) : Prop := ∀ c ∈ handle, isHandleChar c = true ∨ c = '/'

instance (handle : List Char) : Decidable (IsHandle handle) :=
  List.decidableBAll (fun c => isHandleChar c = true ∨ c = '/') handle

/-- The participant goes by this handle, stored with an `@` or without. -/
def GoesBy (p : ParticipantDict) (handle : List Char) : Prop :=
  IsHandle handle ∧ (p.label = handle ∨ p.label = '@' :: handle)

/-- The handle in full or its last segment, in any letter case. -/
def Names (word handle : List Char) : Prop :=
  word ≠ [] ∧ IsHandle word ∧
    (casing.lower word = casing.lower handle ∨ casing.lower word = casing.lower (lastSegment '/' handle))

/-- A comma, a colon, a question or exclamation mark, or a closing bracket. -/
def isStop (c : Char) : Bool := c ∈ [',', ':', '?', '!', ')', ']', '}', '>']

/-- The handle stands in the message behind an `@`, and `ends` holds of what follows. -/
def Tagged (ends : List Char → Prop) (content handle : List Char) : Prop :=
  ∃ before word after, content = before ++ '@' :: (word ++ after) ∧ Names casing word handle ∧ ends after

/-- The text ends here, or goes on with a blank or punctuation other than a period. -/
def EndsHere (after : List Char) : Prop := ∀ c ∈ after.head?, isSpace c = true ∨ isStop c = true

/-- The same, or it goes on with a period. -/
def EndsOrStops (after : List Char) : Prop := EndsHere after ∨ after.head? = some '.'

/-! ## Tokens found -/

variable {casing} {content : List Char} {participants : List CrewAIFlowParticipantSnapshot}

theorem takeWhile_token {token after : List Char} (inside : ∀ c ∈ token, isTokenChar c = true)
    (stops : ∀ c ∈ after.head?, isTokenChar c = false) : (token ++ after).takeWhile isTokenChar = token := by
  have none_ : after.takeWhile isTokenChar = [] := by
    cases after with
    | nil => rfl
    | cons c rest => exact takeWhile_cons_of_neg (by simp [stops c rfl])
  rw [takeWhile_append_of_pos inside, none_, append_nil]

/-- The tokens are what stands behind an `@`, as far as the alphabet goes. -/
theorem mem_findTokens {token : List Char} : token ∈ findTokens content ↔
    ∃ before after, content = before ++ '@' :: (token ++ after) ∧ token ≠ [] ∧
      (∀ c ∈ token, isTokenChar c = true) ∧ ∀ c ∈ after.head?, isTokenChar c = false := by
  induction content with
  | nil => simp [findTokens]
  | cons c rest ih =>
    constructor
    · intro found
      have later : token ∈ findTokens rest → ∃ before after, c :: rest = before ++ '@' :: (token ++ after) ∧
          token ≠ [] ∧ (∀ c ∈ token, isTokenChar c = true) ∧ ∀ c ∈ after.head?, isTokenChar c = false := by
        intro inside
        obtain ⟨before, after, rfl, whole⟩ := ih.1 inside
        exact ⟨c :: before, after, rfl, whole⟩
      rw [findTokens] at found
      split at found
      · rename_i here
        obtain ⟨rfl, some_⟩ := here
        rcases mem_cons.1 found with rfl | inside
        · refine ⟨[], rest.dropWhile isTokenChar, ?_, some_, fun c => mem_takeWhile_imp, ?_⟩
          · rw [nil_append, takeWhile_append_dropWhile]
          intro c first
          have stopped := List.head?_dropWhile_not isTokenChar rest
          rwa [first] at stopped
        · exact later inside
      · exact later found
    · rintro ⟨before, after, split, some_, inside, stops⟩
      cases before with
      | nil =>
        obtain ⟨rfl, rfl⟩ := List.cons.inj split
        rw [findTokens, if_pos ⟨rfl, by rwa [takeWhile_token inside stops]⟩, takeWhile_token inside stops]
        exact mem_cons_self
      | cons x before =>
        have later : token ∈ findTokens rest :=
          ih.2 ⟨before, after, (List.cons.inj split).2, some_, inside, stops⟩
        rw [findTokens]
        split
        · exact mem_cons_of_mem _ later
        · exact later

section Collect

variable {α β : Type*} [BEq β] [LawfulBEq β] (f : α → β) (keep : β → Bool)

/-- Collecting values with a property, each at its first occurrence. -/
theorem mem_collect {key : β} (l : List α) (out : List β) :
    key ∈ l.foldl (fun out a => if keep (f a) = true ∧ f a ∉ out then out ++ [f a] else out) out ↔
      key ∈ out ∨ (keep key = true ∧ ∃ a ∈ l, f a = key) := by
  induction l generalizing out with
  | nil => simp
  | cons a l ih =>
    rw [foldl_cons, ih]
    simp only [exists_mem_cons_iff]
    split
    · rename_i added
      constructor
      · rintro (inside | ⟨kept, later⟩)
        · rcases mem_append.1 inside with before | here
          · exact .inl before
          · obtain rfl := mem_singleton.1 here
            exact .inr ⟨added.1, .inl rfl⟩
        · exact .inr ⟨kept, .inr later⟩
      · rintro (before | ⟨kept, rfl | later⟩)
        · exact .inl (mem_append_left _ before)
        · exact .inl (by simp)
        · exact .inr ⟨kept, later⟩
    · rename_i skipped
      constructor
      · rintro (inside | ⟨kept, later⟩)
        · exact .inl inside
        · exact .inr ⟨kept, .inr later⟩
      · rintro (before | ⟨kept, rfl | later⟩)
        · exact .inl before
        · by_contra neither
          exact skipped ⟨kept, fun inside => neither (.inl inside)⟩
        · exact .inr ⟨kept, later⟩

theorem nodup_collect (l : List α) {out : List β} (distinct : out.Nodup) :
    (l.foldl (fun out a => if keep (f a) = true ∧ f a ∉ out then out ++ [f a] else out) out).Nodup := by
  induction l generalizing out with
  | nil => exact distinct
  | cons a l ih =>
    rw [foldl_cons]
    apply ih
    split
    · rename_i added
      refine nodup_append.2 ⟨distinct, by simp, ?_⟩
      rintro b inside _ last rfl
      exact added.2 (mem_singleton.1 last ▸ inside)
    · exact distinct

end Collect

theorem mem_extract {key : List Char} :
    key ∈ extractTaggedPeerKeys casing content participants ↔
      (∃ p ∈ participants, p.normalizedKey = key) ∧ ∃ token ∈ findTokens content, tokenKey casing token = key := by
  rw [extractTaggedPeerKeys, mem_collect (tokenKey casing)
    (fun key => participants.any fun p => p.normalizedKey = key)]
  simp

theorem nodup_extract : (extractTaggedPeerKeys casing content participants).Nodup :=
  nodup_collect (tokenKey casing) (fun key => participants.any fun p => p.normalizedKey = key) _ nodup_nil

/-! ## Tags and keys -/

theorem isTokenChar_of_isHandle {word : List Char} (handle : IsHandle word) :
    ∀ c ∈ word, isTokenChar c = true := by
  intro c inside
  rcases handle c inside with letter | rfl
  · simp [isTokenChar, letter]
  · rfl

theorem code_of_isTokenChar {c : Char} (token : isTokenChar c = true) :
    (45 ≤ c.toNat ∧ c.toNat ≤ 57) ∨ (65 ≤ c.toNat ∧ c.toNat ≤ 90) ∨ (95 ≤ c.toNat ∧ c.toNat ≤ 122) := by
  have code : c.toNat = c.val.toNat := rfl
  simp only [isTokenChar, isHandleChar, Char.isAlphanum, Char.isAlpha, Char.isUpper, Char.isLower, Char.isDigit,
    Bool.or_eq_true, Bool.and_eq_true, decide_eq_true_eq, ge_iff_le, UInt32.le_iff_toNat_le] at token
  rcases token with (((alphanum | rfl) | rfl) | rfl) | rfl
  · simp at alphanum
    omega
  · decide
  · decide
  · decide
  · decide

theorem not_isSpace_of_isTokenChar {c : Char} (token : isTokenChar c = true) : isSpace c = false := by
  have code := code_of_isTokenChar token
  by_contra blank
  simp only [isSpace, Bool.not_eq_false, Bool.or_eq_true, Bool.and_eq_true, decide_eq_true_eq] at blank
  omega

theorem trim_token {token : List Char} (inside : ∀ c ∈ token, isTokenChar c = true) : trim token = token :=
  trim_eq_self (fun c first => not_isSpace_of_isTokenChar (inside c (mem_of_head? first)))
    fun c last => not_isSpace_of_isTokenChar (inside c (mem_of_getLast? last))

theorem tokenKey_eq {token : List Char} (inside : ∀ c ∈ token, isTokenChar c = true) :
    tokenKey casing token = lastSegment '/' (casing.lower token) := by
  rw [tokenKey, trim_token inside]

theorem GoesBy.key {p : ParticipantDict} {handle : List Char} (goes : GoesBy p handle) :
    snapshotKey casing p.label = lastSegment '/' (casing.lower handle) := by
  obtain ⟨isHandle, label⟩ := goes
  have inside := isTokenChar_of_isHandle isHandle
  have stays : handle.dropWhile (· = '@') = handle := by
    cases handle with
    | nil => rfl
    | cons c rest =>
      refine dropWhile_cons_of_neg fun at_ => ?_
      obtain rfl : c = '@' := by simpa using at_
      have letter := inside '@' mem_cons_self
      revert letter
      decide
  rw [snapshotKey_eq, casing.lower_lastSegment boundary_slash]
  rcases label with same | front
  · rw [same, trim_token inside, stays]
  have trimmed : trim ('@' :: handle) = '@' :: handle := by
    refine trim_eq_self (fun c first => ?_) fun c last => ?_
    · cases first
      decide
    · rcases mem_cons.1 (mem_of_getLast? last) with rfl | member
      · decide
      · exact not_isSpace_of_isTokenChar (inside c member)
  rw [front, trimmed, dropWhile_cons_of_pos (by simp), stays]

theorem Names.key {word handle : List Char} (names : Names casing word handle) :
    tokenKey casing word = lastSegment '/' (casing.lower handle) := by
  obtain ⟨-, isHandle, whole⟩ := names
  rw [tokenKey_eq (isTokenChar_of_isHandle isHandle)]
  rcases whole with full | bare
  · rw [full]
  · rw [bare, casing.lower_lastSegment boundary_slash, lastSegment_of_not_mem (not_mem_lastSegment _ _)]

theorem not_isTokenChar_of_endsHere {after : List Char} (ends : EndsHere after) :
    ∀ c ∈ after.head?, isTokenChar c = false := by
  intro c first
  rcases ends c first with blank | stop
  · by_contra token
    rw [not_isSpace_of_isTokenChar (by simpa using token)] at blank
    cases blank
  · simp only [isStop, decide_eq_true_eq, mem_cons, not_mem_nil, or_false] at stop
    rcases stop with rfl | rfl | rfl | rfl | rfl | rfl | rfl | rfl <;> decide

/-- **Tags found.**  Every participant of the room whose handle, in full or its last
segment, in any letter case, stands behind an `@` in the message and is followed by its
end, a blank or punctuation other than a period, has its key in the result; every key
is there once; and a key in the result is a participant's and the last segment, in
lower case, of what stands behind an `@` of the message as far as the alphabet goes. -/
theorem tags_found (casing : Lowering) (raw : List ParticipantDict) (content : List Char) :
    (∀ p ∈ raw, p.participantId ≠ [] → ∀ handle, GoesBy p handle → Tagged casing EndsHere content handle →
      (p.snapshot casing).normalizedKey ∈
        extractTaggedPeerKeys casing content (snapshotParticipants casing (some raw))) ∧
    (extractTaggedPeerKeys casing content (snapshotParticipants casing (some raw))).Nodup ∧
    ∀ key ∈ extractTaggedPeerKeys casing content (snapshotParticipants casing (some raw)),
      (∃ p ∈ snapshotParticipants casing (some raw), p.normalizedKey = key) ∧
      ∃ before token after, content = before ++ '@' :: (token ++ after) ∧
        (∀ c ∈ token, isTokenChar c = true) ∧ (∀ c ∈ after.head?, isTokenChar c = false) ∧
        lastSegment '/' (casing.lower token) = key := by
  refine ⟨fun p inside identified handle goes tagged => ?_, nodup_extract, fun key found => ?_⟩
  · obtain ⟨before, word, after, split, names, ends⟩ := tagged
    have stored : p.snapshot casing ∈ snapshotParticipants casing (some raw) :=
      mem_map_of_mem (mem_filter.2 ⟨inside, by simpa using identified⟩)
    refine mem_extract.2 ⟨⟨_, stored, rfl⟩, word, mem_findTokens.2 ?_, ?_⟩
    · exact ⟨before, after, split, names.1, isTokenChar_of_isHandle names.2.1, not_isTokenChar_of_endsHere ends⟩
    · exact names.key.trans goes.key.symm
  · obtain ⟨owned, token, found, same⟩ := mem_extract.1 found
    obtain ⟨before, after, split, -, inside, stops⟩ := mem_findTokens.1 found
    exact ⟨owned, before, token, after, split, inside, stops, by rw [← tokenKey_eq inside, same]⟩

/-! ### A period behind the handle, and another namespace in front of it -/

def peer : ParticipantDict := { id := some "p-1".toList, handle := some "example/peer-a".toList }

theorem peer_goesBy : GoesBy peer "example/peer-a".toList :=
  ⟨by decide +kernel, .inl rfl⟩

theorem tags_found_sample :
    (peer.snapshot asciiCasing).normalizedKey ∈
      extractTaggedPeerKeys asciiCasing "ask @Example/PEER-A, please".toList
        (snapshotParticipants asciiCasing (some [peer])) := by
  refine (tags_found asciiCasing [peer] _).1 peer (by simp) (by decide) "example/peer-a".toList peer_goesBy ?_
  refine ⟨"ask ".toList, "Example/PEER-A".toList, ", please".toList, rfl, ⟨by decide, by decide +kernel, ?_⟩, ?_⟩
  · exact .inl (by decide +kernel)
  · intro c first
    obtain rfl : ',' = c := by simpa using first
    decide

theorem other_not_tagged : ¬ Tagged asciiCasing (fun _ => True) "@other/peer-a".toList "example/peer-a".toList := by
  rintro ⟨before, word, after, split, ⟨some_, -, named⟩, -⟩
  cases before with
  | nil =>
    have rest : "other/peer-a".toList = word ++ after := (List.cons.inj split).2
    cases word with
    | nil => exact some_ rfl
    | cons c word =>
      obtain rfl : 'o' = c := (List.cons.inj rest).1
      rcases named with full | bare
      · have first : some 'o' = some 'e' := congrArg List.head? full
        revert first
        decide
      · have segment : lastSegment '/' "example/peer-a".toList = "peer-a".toList := by decide +kernel
        rw [segment] at bare
        have first : some 'o' = some 'p' := congrArg List.head? bare
        revert first
        decide
  | cons c before =>
    have inside : '@' ∈ "other/peer-a".toList := by
      rw [show "other/peer-a".toList = before ++ '@' :: (word ++ after) from (List.cons.inj split).2]
      simp
    revert inside
    decide

/-- At the end of a sentence the tag is missed; behind another namespace it is found. -/
theorem period_missed_and_namespace_ignored :
    (GoesBy peer "example/peer-a".toList ∧ Tagged asciiCasing EndsOrStops "ask @peer-a.".toList "example/peer-a".toList ∧
      extractTaggedPeerKeys asciiCasing "ask @peer-a.".toList (snapshotParticipants asciiCasing (some [peer])) = []) ∧
    (¬ Tagged asciiCasing (fun _ => True) "@other/peer-a".toList "example/peer-a".toList ∧
      extractTaggedPeerKeys asciiCasing "@other/peer-a".toList (snapshotParticipants asciiCasing (some [peer])) =
        [(peer.snapshot asciiCasing).normalizedKey]) := by
  refine ⟨⟨peer_goesBy, ?_, by decide +kernel⟩, other_not_tagged, by decide +kernel⟩
  refine ⟨"ask ".toList, "peer-a".toList, ".".toList, rfl, ⟨by decide, by decide +kernel, ?_⟩, .inr rfl⟩
  exact .inr (by decide +kernel)

end BandSdk.CrewFlow.Keys

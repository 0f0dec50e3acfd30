/-
# CrewFlow.Keys -- the keys participants go by

A participant is known to the router by a key made of its handle.  Two places make
it: `normalizeParticipantKey` for what a decision names, and the snapshot of the
room, which stores a key with each participant.  The first drops one `@`, cuts at
the last `/` and trims once more; the second drops every `@` and trims no more
after the cut.

`keys_agree_iff` says for which participants the two are the same key, and that a
delegation to one of these finds a participant.
-/
import Mathlib.Data.List.Nodup
import BandSdk.Theory.Casing

namespace BandSdk.CrewFlow

open BandSdk.Theory (Casing)
open BandSdk.Theory.Text List

namespace Keys

/-! ## Keys from text -/

/-- What lower-casing does not look past: blanks, and what handles are cut at. -/
def Boundary (c : Char) : Prop := isSpace c = true ∨ c = '/' ∨ c = '@'

instance (c : Char) : Decidable (Boundary c) := inferInstanceAs (Decidable (_ ∨ _ ∨ _))

/-- `str.lower`. -/
abbrev Lowering := Casing Boundary

variable (casing : Lowering)

/-- `_basic_normalize`. -/
def basicNormalize (raw : List Char) : List Char :=
  casing.lower (trim (lastSegment '/' (removePrefix '@' (trim raw))))

/-- The `normalized_key` the snapshot stores. -/
def snapshotKey (handle : List Char) : List Char :=
  lastSegment '/' ((casing.lower (trim handle)).dropWhile (· = '@'))

/-! ## Participants -/

/-- A participant as the room's tools list it. -/
structure ParticipantDict where
  id : Option (List Char) := none
  handle : Option (List Char) := none
  name : Option (List Char) := none

structure CrewAIFlowParticipantSnapshot where
  participantId : List Char
  handle : Option (List Char)
  normalizedKey : List Char
  deriving DecidableEq

def truthy (value : Option (List Char)) : Option (List Char) := value.filter (· ≠ [])

namespace ParticipantDict

variable (p : ParticipantDict)

/-- `str(p.get("id") or "")`. -/
def participantId : List Char := p.id.getD []

/-- `p.get("handle") or p.get("name") or ""`. -/
def label : List Char := (truthy p.handle <|> truthy p.name).getD []

def snapshot : CrewAIFlowParticipantSnapshot where
  participantId := p.participantId
  handle := truthy (some p.label)
  normalizedKey := snapshotKey casing p.label

end ParticipantDict

/-- `_snapshot_participants`, of the tools' list if that is one. -/
def snapshotParticipants (raw : Option (List ParticipantDict)) : List CrewAIFlowParticipantSnapshot :=
  ((raw.getD []).filter fun p => p.participantId ≠ []).map fun p => p.snapshot casing

/-- `_refresh_participant_snapshot`: it keeps the participants it has where there is no list. -/
def refreshParticipantSnapshot (participants : List CrewAIFlowParticipantSnapshot)
    (raw : Option (List ParticipantDict)) : List CrewAIFlowParticipantSnapshot :=
  match raw with
  | none => participants
  | some raw => snapshotParticipants casing (some raw)

/-- The dicts the adapter makes of its participants. -/
def participantDicts (participants : List CrewAIFlowParticipantSnapshot) : List ParticipantDict :=
  participants.map fun p => { id := some p.participantId, handle := p.handle, name := p.handle }

/-! ## Looking a participant up -/

structure CrewAIFlowAmbiguousIdentityError where
  key : List Char
  participantIds : List (List Char)
  deriving DecidableEq

/-- Whether the participant's handle or name has this key. -/
def answersTo (key : List Char) (p : ParticipantDict) : Bool :=
  [p.handle, p.name].any fun candidate => (truthy candidate).any fun text => basicNormalize casing text = key

/-- `str(p.get("id") or p.get("handle") or p.get("name"))`. -/
def identity (p : ParticipantDict) : List Char :=
  (truthy p.id <|> truthy p.handle <|> truthy p.name).getD []

def checkCollisions (key : List Char) (participants : List ParticipantDict) :
    Except CrewAIFlowAmbiguousIdentityError (List Char) :=
  let found := ((participants.filter (answersTo casing key)).map identity).eraseDups
  if found.length > 1 then .error { key := key, participantIds := found } else .ok key

def isHexDigit (c : Char) : Bool := c.isDigit || ('a' ≤ c && c ≤ 'f') || ('A' ≤ c && c ≤ 'F')

/-- `_UUID_RE.match`, of a text without a line break at its end. -/
def isUuid (text : List Char) : Bool :=
  text.length = 36 && text.zipIdx.all fun entry =>
    if entry.2 = 8 ∨ entry.2 = 13 ∨ entry.2 = 18 ∨ entry.2 = 23 then entry.1 = '-' else isHexDigit entry.1

/-- The key of the handle of the participant with this id, unless it is empty. -/
def keyOfId (id : List Char) (participants : List ParticipantDict) : Option (List Char) :=
  match participants.find? fun p => casing.lower p.participantId = casing.lower id with
  | some p => truthy (some (basicNormalize casing p.label))
  | none => none

/-- The handle of the first participant of this name that has one. -/
def handleOfName (name : List Char) (participants : List ParticipantDict) : Option (List Char) :=
  participants.findSome? fun p =>
    let own := casing.lower (trim (p.name.getD []))
    if own ≠ [] ∧ own = casing.lower (trim name) then truthy p.handle else none

def normalizeParticipantKey (raw : List Char) (participants : Option (List ParticipantDict)) :
    Except CrewAIFlowAmbiguousIdentityError (List Char) :=
  let rawStr := trim raw
  if rawStr = [] then .ok []
  else
    match participants with
    | none => .ok (basicNormalize casing rawStr)
    | some participants =>
      match if isUuid rawStr then keyOfId casing rawStr participants else none with
      | some resolved => checkCollisions casing resolved participants
      | none =>
        match handleOfName casing rawStr participants with
        | some handle => checkCollisions casing (basicNormalize casing handle) participants
        | none => checkCollisions casing (basicNormalize casing rawStr) participants

/-- Why a delegation has no target. -/
inductive TargetError where
  | ambiguousParticipant (error : CrewAIFlowAmbiguousIdentityError)
  | unknownParticipant (target : List Char)
  deriving DecidableEq

/-- The participant a delegation of `execute_delegations` goes to. -/
def resolveTarget (target : List Char) (participants : List CrewAIFlowParticipantSnapshot) :
    Except TargetError CrewAIFlowParticipantSnapshot :=
  match normalizeParticipantKey casing target (some (participantDicts participants)) with
  | .error error => .error (.ambiguousParticipant error)
  | .ok normalized =>
    match participants.find? fun p => p.normalizedKey = normalized with
    | some p => if p.participantId = [] then .error (.unknownParticipant target) else .ok p
    | none => .error (.unknownParticipant target)

/-! ## When the two keys agree -/

/-- Nothing but the key is left of the handle once it is cut: its last segment has no
blank around it, and a handle of one segment has one `@` in front at most. -/
def Plain (handle : List Char) : Prop :=
  let text := trim handle
  if '/' ∈ text then trim (lastSegment '/' text) = lastSegment '/' text
  else ∀ rest, text = '@' :: rest → trim rest = rest ∧ rest.head? ≠ some '@'

/-- A handle with an empty key. -/
def Blank (handle : List Char) : Prop :=
  trim handle = [] ∨ trim handle = ['@'] ∨ (trim handle).getLast? = some '/'

variable (casing : Lowering)

theorem boundary_space : ∀ c, isSpace c = true → Boundary c := fun _ blank => .inl blank

theorem boundary_slash : Boundary '/' := .inr (.inl rfl)

theorem boundary_at : Boundary '@' := .inr (.inr rfl)

/-- The key depends on the lower case of the trimmed text only. -/
theorem basicNormalize_eq (raw : List Char) :
    basicNormalize casing raw = trim (lastSegment '/' (removePrefix '@' (casing.lower (trim raw)))) := by
  rw [basicNormalize, casing.lower_trim boundary_space, casing.lower_lastSegment boundary_slash,
    casing.lower_removePrefix boundary_at]

theorem snapshotKey_eq (handle : List Char) :
    snapshotKey casing handle = casing.lower (lastSegment '/' ((trim handle).dropWhile (· = '@'))) := by
  rw [snapshotKey, casing.lower_lastSegment boundary_slash, casing.lower_dropWhile]
  rintro c at_
  obtain rfl : c = '@' := by simpa using at_
  exact boundary_at

theorem basicNormalize_trim (raw : List Char) : basicNormalize casing (trim raw) = basicNormalize casing raw := by
  rw [basicNormalize, trim_trim, basicNormalize]

theorem removePrefix_decomposition (text : List Char) :
    removePrefix '@' text = text ∨ text = '@' :: removePrefix '@' text := by
  cases text with
  | nil => exact .inl rfl
  | cons c rest =>
    by_cases at_ : c = '@'
    · subst at_
      exact .inr (by simp [removePrefix])
    · exact .inl (by simp [removePrefix, at_])

variable {text : List Char} {p : ParticipantDict} {handle : List Char}

theorem lastSegment_removePrefix (cut : '/' ∈ text) :
    lastSegment '/' (removePrefix '@' text) = lastSegment '/' text := by
  rcases removePrefix_decomposition text with same | front
  · rw [same]
  have inside : '/' ∈ removePrefix '@' text := by
    rw [front] at cut
    simpa using cut
  conv_rhs => rw [front]
  exact (lastSegment_append ['@'] inside).symm

theorem lastSegment_dropWhile (cut : '/' ∈ text) :
    lastSegment '/' (text.dropWhile (· = '@')) = lastSegment '/' text := by
  have split : text.takeWhile (· = '@') ++ text.dropWhile (· = '@') = text := takeWhile_append_dropWhile
  have inside : '/' ∈ text.dropWhile (· = '@') := by
    rw [← split, mem_append] at cut
    refine cut.resolve_left fun early => ?_
    simpa using mem_takeWhile_imp early
  conv_rhs => rw [← split]
  exact (lastSegment_append _ inside).symm

/-- **The two keys of a handle** are the same for plain handles only. -/
theorem basicNormalize_eq_snapshotKey (handle : List Char) :
    basicNormalize casing handle = snapshotKey casing handle ↔ Plain handle := by
  have trimmed := trim_trim handle
  rw [snapshotKey_eq, basicNormalize, Plain]
  generalize trim handle = text at trimmed
  have shows (segment : List Char) :
      casing.lower (trim segment) = casing.lower segment ↔ trim segment = segment :=
    ⟨casing.trim_eq_self_of_lower boundary_space, fun same => by rw [same]⟩
  by_cases cut : '/' ∈ text
  · simp only [cut, if_true]
    rw [lastSegment_removePrefix cut, lastSegment_dropWhile cut]
    exact shows _
  · simp only [cut, if_false]
    cases text with
    | nil => simp [removePrefix, lastSegment, trim]
    | cons c rest =>
      rw [mem_cons, not_or] at cut
      by_cases at_ : c = '@'
      · subst at_
        simp only [removePrefix, if_true, List.cons.injEq, true_and, forall_eq']
        rw [lastSegment_of_not_mem cut.2, dropWhile_cons_of_pos (by simp)]
        by_cases again : rest.head? = some '@'
        · -- one more `@` stays in the first key, and in the second none does
          have first := (casing.head_lower boundary_at _).2 (head_trim again (by decide))
          refine iff_of_false (fun same => ?_) fun plain => plain.2 again
          have whole : '/' ∉ rest.dropWhile (· = '@') :=
            fun inside => cut.2 ((dropWhile_sublist _).subset inside)
          rw [same, lastSegment_of_not_mem whole, casing.head_lower boundary_at] at first
          have stopped := List.head?_dropWhile_not (fun c => decide (c = '@')) rest
          rw [first] at stopped
          simp at stopped
        · have stays : rest.dropWhile (· = '@') = rest := by
            cases rest with
            | nil => rfl
            | cons x rest => exact dropWhile_cons_of_neg (by simpa using again)
          rw [stays, lastSegment_of_not_mem cut.2, shows]
          simp [again]
      · refine iff_of_true ?_ fun rest' split => absurd (List.cons.inj split).1 at_
        have whole : '/' ∉ c :: rest := not_mem_cons_of_ne_of_not_mem cut.1 cut.2
        rw [removePrefix, if_neg at_, dropWhile_cons_of_neg (by simpa using at_),
          lastSegment_of_not_mem whole, trimmed]

theorem removePrefix_eq_nil : removePrefix '@' text = [] ↔ text = [] ∨ text = ['@'] := by
  cases text with
  | nil => simp [removePrefix]
  | cons c rest =>
    by_cases at_ : c = '@'
    · simp [removePrefix, at_]
    · simp [removePrefix, at_]

theorem lastSegment_removePrefix_eq_nil :
    lastSegment '/' (removePrefix '@' text) = [] ↔ text = [] ∨ text = ['@'] ∨ text.getLast? = some '/' := by
  by_cases cut : '/' ∈ text
  · rw [lastSegment_removePrefix cut]
    obtain ⟨front, split⟩ := exists_lastSegment cut
    have other : text ≠ [] ∧ text ≠ ['@'] := by
      constructor <;> rintro rfl <;> simp at cut
    simp only [other, false_or]
    constructor
    · intro none_
      rw [split, none_]
      simp
    · intro last
      by_contra some_
      rw [split, getLast?_append_cons, getLast?_cons_of_ne_nil some_] at last
      exact not_mem_lastSegment '/' text (mem_of_getLast? last)
  · have whole : '/' ∉ removePrefix '@' text := by
      rcases removePrefix_decomposition text with same | front
      · rwa [same]
      · exact fun inside => cut (front ▸ mem_cons_of_mem _ inside)
    have last : text.getLast? ≠ some '/' := fun last => cut (mem_of_getLast? last)
    rw [lastSegment_of_not_mem whole, removePrefix_eq_nil]
    simp [last]

theorem basicNormalize_eq_nil : basicNormalize casing handle = [] ↔ Blank handle := by
  have last (c : Char) (at_ : (trim handle).getLast? = some c) : isSpace c = false :=
    not_space_of_getLast_trim at_
  rw [basicNormalize, casing.eq_nil, Blank, ← lastSegment_removePrefix_eq_nil]
  generalize trim handle = text at last
  refine ⟨fun blank => ?_, fun none_ => by rw [none_]; rfl⟩
  -- the last segment ends as the text does, so it is blank only if it is empty
  by_contra some_
  have suffix : lastSegment '/' (removePrefix '@' text) <:+ text := by
    refine (rtakeWhile_suffix _ _).trans ?_
    rcases removePrefix_decomposition text with same | front
    · exact ⟨[], same⟩
    · exact ⟨['@'], front.symm⟩
  obtain ⟨front, split⟩ := suffix
  obtain ⟨early, late, blanks, whole⟩ := trim_decomposition (lastSegment '/' (removePrefix '@' text))
  rw [blank, append_nil] at whole
  have final := getLast?_eq_some_getLast some_
  have letter : isSpace ((lastSegment '/' (removePrefix '@' text)).getLast some_) = false := by
    refine last _ ?_
    rw [← final]
    conv_lhs => rw [← split]
    exact getLast?_append_of_ne_nil _ some_
  have all (c : Char) (inside : c ∈ lastSegment '/' (removePrefix '@' text)) : isSpace c = true := by
    rw [whole] at inside
    exact blanks c inside
  rw [all _ (getLast_mem some_)] at letter
  cases letter

theorem snapshotKey_of_blank (blank : Blank handle) : snapshotKey casing handle = [] := by
  rw [snapshotKey_eq, casing.eq_nil]
  rcases blank with none_ | only | last
  · rw [none_]
    rfl
  · rw [only]
    rfl
  · have cut : '/' ∈ trim handle := mem_of_getLast? last
    rw [lastSegment_dropWhile cut, ← lastSegment_removePrefix cut, lastSegment_removePrefix_eq_nil]
    exact .inr (.inr last)

/-! ## Ids -/

theorem isUuid_chars (uuid : isUuid text = true) : text ≠ [] ∧ ∀ c ∈ text, c = '-' ∨ isHexDigit c = true := by
  simp only [isUuid, Bool.and_eq_true, decide_eq_true_eq, all_eq_true] at uuid
  obtain ⟨length, digits⟩ := uuid
  refine ⟨by rintro rfl; simp at length, fun c inside => ?_⟩
  obtain ⟨i, at_⟩ := mem_iff_getElem?.1 inside
  have digit := digits (c, i) (mem_zipIdx_iff_getElem?.2 at_)
  split at digit
  · exact .inl (by simpa using digit)
  · exact .inr digit

theorem code_of_isHexDigit {c : Char} (digit : isHexDigit c = true) :
    (48 ≤ c.toNat ∧ c.toNat ≤ 57) ∨ (97 ≤ c.toNat ∧ c.toNat ≤ 102) ∨ (65 ≤ c.toNat ∧ c.toNat ≤ 70) := by
  have code : c.toNat = c.val.toNat := rfl
  simp [isHexDigit, Char.isDigit, Char.le_def, UInt32.le_iff_toNat_le] at digit
  omega

theorem not_boundary_of_isUuid (uuid : isUuid text = true) : ∀ c ∈ text, ¬ Boundary c := by
  intro c inside
  rcases (isUuid_chars uuid).2 c inside with rfl | digit
  · decide
  have code := code_of_isHexDigit digit
  rintro (blank | rfl | rfl)
  · simp only [isSpace, Bool.or_eq_true, Bool.and_eq_true, decide_eq_true_eq] at blank
    omega
  · revert code
    decide
  · revert code
    decide

theorem trim_of_isUuid (uuid : isUuid text = true) : trim text = text := by
  have letter (c : Char) (inside : c ∈ text) : isSpace c = false := by
    by_contra blank
    exact not_boundary_of_isUuid uuid c inside (.inl (by simpa using blank))
  exact trim_eq_self (fun c first => letter c (mem_of_head? first))
    fun c last => letter c (mem_of_getLast? last)

/-- An id as a handle is plain, and has a key. -/
theorem plain_of_isUuid (uuid : isUuid (trim handle) = true) : Plain handle ∧ ¬ Blank handle := by
  have free := not_boundary_of_isUuid uuid
  have cut : '/' ∉ trim handle := fun inside => free '/' inside boundary_slash
  constructor
  · rw [Plain, if_neg cut]
    intro rest split
    exact absurd boundary_at (free '@' (by rw [split]; simp))
  · rintro (none_ | only | last)
    · exact (isUuid_chars uuid).1 none_
    · exact absurd boundary_at (free '@' (by rw [only]; simp))
    · exact cut (mem_of_getLast? last)

/-! ## A room's participants -/

/-- Participants with an id and a handle or name, no two of one id or one key. -/
structure Distinct (raw : List ParticipantDict) : Prop where
  named : ∀ p ∈ raw, p.participantId ≠ [] ∧ p.label ≠ []
  ids : (raw.map fun p => casing.lower p.participantId).Nodup
  keys : (raw.map fun p => basicNormalize casing p.label).Nodup

/-- The handle is the id of another participant, who has a key. -/
def Shadowed (raw : List ParticipantDict) (p : ParticipantDict) : Prop :=
  isUuid (trim p.label) = true ∧ ∃ q ∈ raw, q ≠ p ∧ ¬ Blank q.label ∧
    casing.lower q.participantId = casing.lower (trim p.label)

/-- The dicts the adapter makes of the room's participants. -/
def listed (raw : List ParticipantDict) : List ParticipantDict :=
  participantDicts (snapshotParticipants casing (some raw))

/-- The handle of the participant, and its id if that is a UUID, have the key the snapshot stores. -/
def Agrees (raw : List ParticipantDict) (p : ParticipantDict) : Prop :=
  normalizeParticipantKey casing p.label (some (listed casing raw)) = .ok (p.snapshot casing).normalizedKey ∧
    (isUuid p.participantId = true → normalizeParticipantKey casing p.participantId (some (listed casing raw)) =
        .ok (p.snapshot casing).normalizedKey)

/-- A participant as the adapter lists it: its label is both handle and name. -/
def relisted (p : ParticipantDict) : ParticipantDict where
  id := some p.participantId
  handle := some p.label
  name := some p.label

variable {casing} {raw : List ParticipantDict}

theorem Distinct.listed_eq (distinct : Distinct casing raw) : listed casing raw = raw.map relisted := by
  have all : raw.filter (fun p => decide (p.participantId ≠ [])) = raw :=
    filter_eq_self.2 fun p inside => by simpa using (distinct.named p inside).1
  rw [listed, participantDicts, snapshotParticipants, Option.getD_some, all, map_map]
  refine map_congr_left fun p inside => ?_
  have label := (distinct.named p inside).2
  simp [relisted, ParticipantDict.snapshot, truthy, label]

theorem answersTo_relisted (label : p.label ≠ []) (key : List Char) :
    answersTo casing key (relisted p) = decide (basicNormalize casing p.label = key) := by
  simp [answersTo, relisted, truthy, label]

theorem label_relisted (label : p.label ≠ []) : (relisted p).label = p.label := by
  have kept : truthy (some p.label) = some p.label := by simp [truthy, label]
  show (truthy (some p.label) <|> truthy (some p.label)).getD [] = p.label
  rw [kept]
  rfl

theorem eraseDups_const {α : Type*} [BEq α] [LawfulBEq α] {a : α} {l : List α} (const : ∀ b ∈ l, b = a) :
    l.eraseDups.length ≤ 1 := by
  cases l with
  | nil => simp
  | cons b rest =>
    have none_ : rest.filter (fun c => !c == b) = [] :=
      filter_eq_nil_iff.2 fun c inside => by
        simp [const c (mem_cons_of_mem _ inside), const b mem_cons_self]
    simp [eraseDups_cons, none_]

/-- The key of a participant is no other participant's. -/
theorem Distinct.checkCollisions_eq (distinct : Distinct casing raw) (inside : p ∈ raw) :
    checkCollisions casing (basicNormalize casing p.label) (raw.map relisted) =
      .ok (basicNormalize casing p.label) := by
  have one : ((((raw.map relisted).filter
      (answersTo casing (basicNormalize casing p.label))).map identity).eraseDups).length ≤ 1 := by
    refine eraseDups_const (a := identity (relisted p)) fun b found => ?_
    obtain ⟨_, member, rfl⟩ := mem_map.1 found
    obtain ⟨listed_, answers⟩ := mem_filter.1 member
    obtain ⟨q, inside', rfl⟩ := mem_map.1 listed_
    rw [answersTo_relisted (distinct.named q inside').2] at answers
    rw [inj_on_of_nodup_map distinct.keys inside' inside (of_decide_eq_true answers)]
  rw [checkCollisions, if_neg (by omega)]

theorem find_relisted (id : List Char) :
    ((raw.map relisted).find? fun p => casing.lower p.participantId = casing.lower id) =
      (raw.find? fun p => casing.lower p.participantId = casing.lower id).map relisted := by
  rw [List.find?_map]
  rfl

theorem basicNormalize_of_handleOfName {name handle : List Char}
    (found : handleOfName casing name (raw.map relisted) = some handle) :
    basicNormalize casing handle = basicNormalize casing name := by
  obtain ⟨_, member, known⟩ := exists_of_findSome?_eq_some found
  obtain ⟨p, -, rfl⟩ := mem_map.1 member
  have chosen : (if casing.lower (trim p.label) ≠ [] ∧ casing.lower (trim p.label) = casing.lower (trim name)
      then truthy (some p.label) else none) = some handle := known
  split at chosen
  · rename_i same
    obtain rfl : p.label = handle := Option.some.inj (Option.filter_eq_some_iff.1 chosen).1
    rw [basicNormalize_eq, basicNormalize_eq, same.2]
  · cases chosen

theorem normalize_of_not_id (some_ : trim text ≠ [])
    (other : isUuid (trim text) = true → keyOfId casing (trim text) (raw.map relisted) = none) :
    normalizeParticipantKey casing text (some (raw.map relisted)) =
      checkCollisions casing (basicNormalize casing text) (raw.map relisted) := by
  have none_ : (if isUuid (trim text) then keyOfId casing (trim text) (raw.map relisted) else none) = none := by
    split
    · exact other ‹_›
    · rfl
  simp only [normalizeParticipantKey, some_, if_false, none_]
  cases found : handleOfName casing (trim text) (raw.map relisted) with
  | none =>
    show checkCollisions casing (basicNormalize casing (trim text)) _ = _
    rw [basicNormalize_trim]
  | some handle =>
    show checkCollisions casing (basicNormalize casing handle) _ = _
    rw [basicNormalize_of_handleOfName found, basicNormalize_trim]

theorem normalize_of_id {text key : List Char} (uuid : isUuid (trim text) = true)
    (found : keyOfId casing (trim text) (raw.map relisted) = some key) :
    normalizeParticipantKey casing text (some (raw.map relisted)) =
      checkCollisions casing key (raw.map relisted) := by
  simp only [normalizeParticipantKey, (isUuid_chars uuid).1, if_false, uuid, if_true, found]

/-- Looking an id up finds the participant that has it, unless its key is empty. -/
theorem Distinct.keyOfId_eq (distinct : Distinct casing raw) {q : ParticipantDict} (inside : q ∈ raw)
    {id : List Char} (own : casing.lower q.participantId = casing.lower id) :
    keyOfId casing id (raw.map relisted) =
      if basicNormalize casing q.label = [] then none else some (basicNormalize casing q.label) := by
  have found : (raw.find? fun p => casing.lower p.participantId = casing.lower id) = some q := by
    cases search : raw.find? fun p => casing.lower p.participantId = casing.lower id with
    | none =>
      have absent := List.find?_eq_none.1 search q inside
      exact absurd own (by simpa using absent)
    | some r =>
      have same : casing.lower r.participantId = casing.lower id := by simpa using List.find?_some search
      rw [inj_on_of_nodup_map distinct.ids (mem_of_find?_eq_some search) inside (same.trans own.symm)]
  rw [keyOfId, find_relisted, found]
  simp only [Option.map_some, label_relisted (distinct.named q inside).2, truthy, Option.filter_some,
    decide_not, Bool.not_eq_eq_eq_not, Bool.not_true, decide_eq_false_iff_not]
  split <;> simp_all

theorem keyOfId_eq_none {id : List Char} (absent : ∀ q ∈ raw, casing.lower q.participantId ≠ casing.lower id) :
    keyOfId casing id (raw.map relisted) = none := by
  have none_ : (raw.find? fun p => casing.lower p.participantId = casing.lower id) = none :=
    List.find?_eq_none.2 fun q inside => by simpa using absent q inside
  rw [keyOfId, find_relisted, none_, Option.map_none]

/-- A handle has its own key, unless it is the id of another participant. -/
theorem Distinct.handle_agrees_iff (distinct : Distinct casing raw) (inside : p ∈ raw) :
    normalizeParticipantKey casing p.label (some (listed casing raw)) = .ok (p.snapshot casing).normalizedKey ↔
      Plain p.label ∧ ¬ Shadowed casing raw p := by
  rw [distinct.listed_eq]
  show _ = Except.ok (snapshotKey casing p.label) ↔ _
  have own : checkCollisions casing (basicNormalize casing p.label) (raw.map relisted) =
      .ok (snapshotKey casing p.label) ↔ Plain p.label := by
    rw [distinct.checkCollisions_eq inside, Except.ok.injEq, basicNormalize_eq_snapshotKey]
  by_cases some_ : trim p.label = []
  · -- a handle of blanks has the empty key in both
    have blank : Blank p.label := .inl some_
    have plain : Plain p.label := by
      rw [← basicNormalize_eq_snapshotKey casing, (basicNormalize_eq_nil casing).2 blank,
        snapshotKey_of_blank casing blank]
    have free : ¬ Shadowed casing raw p := fun shadowed => (isUuid_chars shadowed.1).1 some_
    simp [normalizeParticipantKey, some_, snapshotKey_of_blank casing blank, plain, free]
  · by_cases uuid : isUuid (trim p.label) = true
    · by_cases taken : ∃ q ∈ raw, casing.lower q.participantId = casing.lower (trim p.label)
      · obtain ⟨q, member, same⟩ := taken
        have key := distinct.keyOfId_eq member same
        by_cases empty : basicNormalize casing q.label = []
        · -- the participant of this id has no key, so the handle is read as a handle
          rw [normalize_of_not_id some_ fun _ => by rw [key, if_pos empty], own]
          refine (and_iff_left ?_).symm
          rintro ⟨-, r, there, -, named, same'⟩
          obtain rfl := inj_on_of_nodup_map distinct.ids there member (same'.trans same.symm)
          exact named ((basicNormalize_eq_nil casing).1 empty)
        · rw [normalize_of_id uuid (by rw [key, if_neg empty]), distinct.checkCollisions_eq member,
            Except.ok.injEq, ← (basicNormalize_eq_snapshotKey casing _).2 (plain_of_isUuid uuid).1]
          constructor
          · intro keys
            obtain rfl := inj_on_of_nodup_map distinct.keys member inside keys
            refine ⟨(plain_of_isUuid uuid).1, ?_⟩
            rintro ⟨-, r, there, other, -, same'⟩
            exact other (inj_on_of_nodup_map distinct.ids there member (same'.trans same.symm))
          · rintro ⟨-, free⟩
            by_contra keys
            refine free ⟨uuid, q, member, fun q_ => keys (by rw [q_]), ?_, same⟩
            rwa [← basicNormalize_eq_nil casing]
      · rw [normalize_of_not_id some_ fun _ => keyOfId_eq_none fun q member same => taken ⟨q, member, same⟩, own]
        refine (and_iff_left ?_).symm
        rintro ⟨-, q, member, -, -, same⟩
        exact taken ⟨q, member, same⟩
    · rw [normalize_of_not_id some_ fun yes => absurd yes uuid, own]
      exact (and_iff_left fun shadowed => uuid shadowed.1).symm

theorem Distinct.id_agrees_iff (distinct : Distinct casing raw) (inside : p ∈ raw)
    (uuid : isUuid p.participantId = true) :
    normalizeParticipantKey casing p.participantId (some (listed casing raw)) =
        .ok (p.snapshot casing).normalizedKey ↔
      Plain p.label ∧ ¬ Blank p.label := by
  rw [distinct.listed_eq]
  show _ = Except.ok (snapshotKey casing p.label) ↔ _
  have trimmed := trim_of_isUuid uuid
  have key : keyOfId casing (trim p.participantId) (raw.map relisted) =
      if basicNormalize casing p.label = [] then none else some (basicNormalize casing p.label) :=
    distinct.keyOfId_eq inside (by rw [trimmed])
  by_cases blank : Blank p.label
  · rw [(basicNormalize_eq_nil casing).2 blank, if_pos rfl] at key
    refine iff_of_false (fun agrees => ?_) fun both => both.2 blank
    rw [normalize_of_not_id (by rw [trimmed]; exact (isUuid_chars uuid).1) fun _ => key,
      snapshotKey_of_blank casing blank, checkCollisions] at agrees
    split at agrees
    · cases agrees
    -- the id itself is not the empty key
    have none_ : Blank p.participantId := (basicNormalize_eq_nil casing).1 (Except.ok.inj agrees)
    exact (plain_of_isUuid (by rwa [trimmed])).2 none_
  · rw [if_neg ((basicNormalize_eq_nil casing).not.2 blank)] at key
    rw [normalize_of_id (by rwa [trimmed]) key, distinct.checkCollisions_eq inside, Except.ok.injEq,
      basicNormalize_eq_snapshotKey]
    exact (and_iff_left blank).symm

/-- **When the keys agree.**  Over participants no two of which have one id or one key,
normalising a participant's handle, and its id if that is a UUID, gives the key the
snapshot stores with it exactly if the handle is plain, is not another participant's
id, and has a key in case the id is a UUID.  A delegation to such a handle then finds
a participant. -/
theorem keys_agree_iff (distinct : Distinct casing raw) {p : ParticipantDict} (inside : p ∈ raw) :
    (Agrees casing raw p ↔ Plain p.label ∧ ¬ Shadowed casing raw p ∧
      (isUuid p.participantId = true → ¬ Blank p.label)) ∧
    (Agrees casing raw p → ∃ q ∈ snapshotParticipants casing (some raw),
        resolveTarget casing p.label (snapshotParticipants casing (some raw)) = .ok q ∧
          q.normalizedKey = (p.snapshot casing).normalizedKey) := by
  constructor
  · rw [Agrees, distinct.handle_agrees_iff inside]
    constructor
    · rintro ⟨⟨plain, free⟩, ids⟩
      exact ⟨plain, free, fun uuid => ((distinct.id_agrees_iff inside uuid).1 (ids uuid)).2⟩
    · rintro ⟨plain, free, keyed⟩
      exact ⟨⟨plain, free⟩, fun uuid => (distinct.id_agrees_iff inside uuid).2 ⟨plain, keyed uuid⟩⟩
  · rintro ⟨agrees, -⟩
    have stored : p.snapshot casing ∈ snapshotParticipants casing (some raw) :=
      mem_map_of_mem (mem_filter.2 ⟨inside, by simpa using (distinct.named p inside).1⟩)
    cases search : (snapshotParticipants casing (some raw)).find? fun q =>
        q.normalizedKey = (p.snapshot casing).normalizedKey with
    | none =>
      have absent := List.find?_eq_none.1 search _ stored
      simp at absent
    | some q =>
      have member := mem_of_find?_eq_some search
      have same : q.normalizedKey = (p.snapshot casing).normalizedKey := by
        simpa using List.find?_some search
      obtain ⟨r, listed_, rfl⟩ := mem_map.1 member
      have identified : r.participantId ≠ [] := by simpa using (mem_filter.1 listed_).2
      refine ⟨_, member, ?_, same⟩
      rw [listed] at agrees
      simp only [resolveTarget, agrees, search]
      exact if_neg identified

/-! ### A display name with a blank after its slash -/

theorem toLower_cases (c : Char) :
    c.toLower = c ∨ (65 ≤ c.toNat ∧ c.toNat ≤ 90 ∧ c.toLower.toNat = c.toNat + 32) := by
  unfold Char.toLower
  split
  · rename_i upper
    have bounds : 65 ≤ c.val.toNat ∧ c.val.toNat ≤ 90 := by
      simpa [UInt32.le_iff_toNat_le] using upper
    refine .inr ⟨bounds.1, bounds.2, ?_⟩
    show (c.val + ('a'.val - 'A'.val)).toNat = c.val.toNat + 32
    rw [UInt32.toNat_add]
    have step : ('a'.val - 'A'.val).toNat = 32 := rfl
    omega
  · exact .inl rfl

theorem code_of_boundary {c : Char} (cut : Boundary c) :
    ¬ (65 ≤ c.toNat ∧ c.toNat ≤ 90) ∧ ¬ (97 ≤ c.toNat ∧ c.toNat ≤ 122) := by
  rcases cut with blank | rfl | rfl
  · simp only [isSpace, Bool.or_eq_true, Bool.and_eq_true, decide_eq_true_eq] at blank
    omega
  · decide
  · decide

/-- Lower case of ASCII letters. -/
def asciiCasing : Lowering where
  lower text := text.map Char.toLower
  apart front c back cut := by
    have stays : c.toLower = c := by
      rcases toLower_cases c with same | ⟨low, high, -⟩
      · exact same
      · exact absurd ⟨low, high⟩ (code_of_boundary cut).1
    rw [List.map_append, List.map_cons, stays]
  within word plain c inside := by
    obtain ⟨x, member, rfl⟩ := List.mem_map.1 inside
    rcases toLower_cases x with same | ⟨low, high, shifted⟩
    · rw [same]
      exact plain x member
    · exact fun cut => (code_of_boundary cut).2 (by omega)
  eq_nil text := List.map_eq_nil_iff

/-- A participant without a handle. -/
def sampleRoom : List ParticipantDict := [{ id := some "p-1".toList, name := some "Research / Ops".toList }]

theorem sample_distinct : Distinct asciiCasing sampleRoom where
  named := by decide +kernel
  ids := by decide +kernel
  keys := by decide +kernel

theorem keys_agree_iff_sample :
    ¬ Agrees asciiCasing sampleRoom { id := some "p-1".toList, name := some "Research / Ops".toList } := by
  rw [(keys_agree_iff sample_distinct (mem_singleton_self _)).1]
  rintro ⟨plain, -⟩
  revert plain
  rw [Plain, if_pos (by decide +kernel)]
  decide +kernel

/-- The delegation to the only participant of the room is rejected as unknown. -/
theorem spaced_name_unknown :
    Distinct asciiCasing sampleRoom ∧
      normalizeParticipantKey asciiCasing "Research / Ops".toList (some (listed asciiCasing sampleRoom)) =
        .ok "ops".toList ∧
      (snapshotParticipants asciiCasing (some sampleRoom)).map CrewAIFlowParticipantSnapshot.normalizedKey =
        [" ops".toList] ∧
      resolveTarget asciiCasing "Research / Ops".toList (snapshotParticipants asciiCasing (some sampleRoom)) =
        .error (.unknownParticipant "Research / Ops".toList) := by
  refine ⟨sample_distinct, ?_, ?_, ?_⟩ <;> decide +kernel

end Keys

end BandSdk.CrewFlow

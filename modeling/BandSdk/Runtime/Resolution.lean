/-
# Runtime.Resolution -- from a mention back to the participant

`_resolve_mentions` looks a mention up by handle, then by name, then by id.  A
participant without a handle is filed under the empty handle, and the label a model
is shown for it is filed nowhere.

* `sound_iff`: only in a roster where everyone has a handle and no name is empty does
  a mention resolve to nothing but what it names.
* `resolves_back_iff`: whose label, passed back, resolves to its owner.
-/
import BandSdk.Runtime.Labels
import Mathlib.Data.List.Nodup

namespace BandSdk.Runtime.Mentions

open BandSdk.Theory List Option

/-- A mention as a model passes it: a text, or a dict of some of its keys. -/
inductive Mention
  | text (mention : String)
  | entry (id handle name : Option String)

structure Resolved where
  id : String
  handle : Option String
deriving DecidableEq

inductive MentionError
  | unknownParticipant (identifier : String)
  | missingMentions
deriving DecidableEq

def stripAt (text : String) : String := Text.lstrip '@' text

namespace Participant

def resolved (participant : Participant) : Resolved := ⟨participant.id, participant.handle⟩

/-- The key of the handle table; a participant without a handle is under `""`. -/
def handleKey (participant : Participant) : String := stripAt (participant.handle.getD "")

end Participant

open Participant (handleKey resolved)

/-- A table built over the roster: of two entries with one key the later stays. -/
def tableGet (key : Participant → Option String) (participants : List Participant) (identifier : String) :
    Option Participant :=
  participants.reverse.find? fun participant => key participant = some identifier

variable (participants : List Participant)

def findParticipant (identifier : String) : Option Participant :=
  (tableGet (some ∘ handleKey) participants identifier).or
    ((tableGet Participant.name participants identifier).or
      (tableGet (some ∘ Participant.id) participants identifier))

def resolveIdentifier (identifier : String) : Except MentionError Resolved :=
  match findParticipant participants identifier with
  | none => .error (.unknownParticipant identifier)
  | some participant => .ok participant.resolved

def resolveMention : Mention → Except MentionError Resolved
  | .text mention => resolveIdentifier participants (stripAt mention)
  | .entry id handle name =>
    if id.getD "" ≠ "" then .ok ⟨id.getD "", some (handle.getD "")⟩
    else
      let raw := if handle.getD "" ≠ "" then handle.getD "" else name.getD ""
      resolveIdentifier participants (stripAt raw)

def resolveMentions (participants : List Participant) : List Mention → Except MentionError (List Resolved)
  | [] => .ok []
  | mention :: rest =>
    match resolveMention participants mention, resolveMentions participants rest with
    | .error error, _ => .error error
    | .ok _, .error error => .error error
    | .ok first, .ok others => .ok (first :: others)

/-- The API requires a mention. -/
def resolveRequiredMentions (mentions : Option (List Mention)) : Except MentionError (List Resolved) :=
  match resolveMentions participants (mentions.getD []) with
  | .ok [] => .error .missingMentions
  | outcome => outcome

/-! ## What resolution is for -/

/-- The participant the identifier names: by handle before name before id. -/
def Names (identifier : String) (participant : Participant) : Prop :=
  identifier ≠ "" ∧ participant ∈ participants ∧
    (participant.handleKey = identifier ∨ (∀ other ∈ participants, other.handleKey ≠ identifier) ∧
      (participant.name = some identifier ∨ (∀ other ∈ participants, other.name ≠ some identifier) ∧
        participant.id = identifier))

/-- A text resolves only to a participant it names. -/
def Sound : Prop :=
  ∀ mention found, resolveMention participants (.text mention) = .ok found →
    ∃ participant, Names participants (stripAt mention) participant ∧ found = participant.resolved

/-- The label is no other participant's handle, name or id, leading `@`s apart. -/
def Clear (participant : Participant) (label : String) : Prop :=
  ∀ other ∈ participants, other.id ≠ participant.id →
    other.handleKey ≠ stripAt label ∧ other.name ≠ some (stripAt label) ∧ other.id ≠ stripAt label

/-- The label is filed under its owner: it is the handle, or without one the name as
it stands or the id. -/
def Filed (participant : Participant) (label : String) : Prop :=
  participant.handle.getD "" ≠ "" ∨ stripAt label = "" ∨ participant.name = some (stripAt label) ∨
    participant.id = stripAt label

/-! ## The tables -/

section Tables

variable {key : Participant → Option String} {participants : List Participant} {participant : Participant}
  {identifier : String}

theorem tableGet_some (found : tableGet key participants identifier = some participant) :
    participant ∈ participants ∧ key participant = some identifier := by
  have member := mem_of_find?_eq_some found
  have same := List.find?_some found
  exact ⟨mem_reverse.1 member, of_decide_eq_true same⟩

theorem tableGet_none :
    tableGet key participants identifier = none ↔ ∀ other ∈ participants, key other ≠ some identifier := by
  simp [tableGet]

/-- What only one participant may be filed under leads to it. -/
theorem tableGet_own (member : participant ∈ participants) (own : key participant = some identifier)
    (only : ∀ other ∈ participants, key other = some identifier → other = participant) :
    tableGet key participants identifier = some participant := by
  cases found : tableGet key participants identifier with
  | none => exact absurd own (tableGet_none.1 found participant member)
  | some other =>
    obtain ⟨inside, its⟩ := tableGet_some found
    rw [only other inside its]

theorem findParticipant_names (found : findParticipant participants identifier = some participant)
    (some_ : identifier ≠ "") : Names participants identifier participant := by
  rw [findParticipant, or_eq_some_iff, or_eq_some_iff, tableGet_none, tableGet_none] at found
  rcases found with byHandle | ⟨noHandle, byName | ⟨noName, byId⟩⟩
  · obtain ⟨inside, its⟩ := tableGet_some byHandle
    exact ⟨some_, inside, .inl (some.inj its)⟩
  · obtain ⟨inside, its⟩ := tableGet_some byName
    exact ⟨some_, inside, .inr ⟨fun other mem same => noHandle other mem (congrArg some same), .inl its⟩⟩
  · obtain ⟨inside, its⟩ := tableGet_some byId
    exact ⟨some_, inside, .inr ⟨fun other mem same => noHandle other mem (congrArg some same),
      .inr ⟨noName, some.inj its⟩⟩⟩

theorem resolveIdentifier_ok {found : Resolved} :
    resolveIdentifier participants identifier = .ok found ↔
      ∃ participant, findParticipant participants identifier = some participant ∧ found = participant.resolved := by
  rw [resolveIdentifier]
  cases its : findParticipant participants identifier <;> simp [eq_comm]

end Tables

theorem resolveMentions_ok {participants : List Participant} {mentions : List Mention} {entries : List Resolved}
    (resolves : resolveMentions participants mentions = .ok entries) :
    List.Forall₂ (fun mention entry => resolveMention participants mention = .ok entry) mentions entries := by
  induction mentions generalizing entries with
  | nil =>
    cases resolves
    exact .nil
  | cons mention rest ih =>
    rw [resolveMentions] at resolves
    split at resolves
    · cases resolves
    · cases resolves
    case h_3 first others here later =>
      cases resolves
      exact .cons here (ih later)

/-! ## Where it is met -/

theorem sound_iff {participants : List Participant} (present : ∀ participant ∈ participants, participant.id ≠ "") :
    Sound participants ↔
      ∀ participant ∈ participants, participant.handleKey ≠ "" ∧ participant.name ≠ some "" := by
  constructor
  · intro sound
    -- were something filed under the empty text, `@` would resolve to it
    have unfiled : findParticipant participants "" = none := by
      cases found : findParticipant participants "" with
      | none => rfl
      | some participant =>
        obtain ⟨_, names, -⟩ := sound "@" _ (resolveIdentifier_ok.2 ⟨participant, found, rfl⟩)
        exact absurd rfl names.1
    rw [findParticipant, Option.or_eq_none_iff, Option.or_eq_none_iff, tableGet_none, tableGet_none] at unfiled
    exact fun participant member =>
      ⟨fun same => unfiled.1 participant member (congrArg some same), unfiled.2.1 participant member⟩
  · intro filed mention found resolves
    obtain ⟨participant, its, rfl⟩ := resolveIdentifier_ok.1 resolves
    refine ⟨participant, findParticipant_names its ?_, rfl⟩
    intro empty
    rw [empty, findParticipant, or_eq_some_iff, or_eq_some_iff] at its
    rcases its with byHandle | ⟨-, byName | ⟨-, byId⟩⟩
    · exact (filed _ (tableGet_some byHandle).1).1 (some.inj (tableGet_some byHandle).2)
    · exact (filed _ (tableGet_some byName).1).2 (tableGet_some byName).2
    · exact present _ (tableGet_some byId).1 (some.inj (tableGet_some byId).2)

theorem stripAt_mentionText (label : String) : stripAt (mentionText label) = stripAt label := by
  simp [stripAt, mentionText, Text.lstrip]

theorem resolves_back_iff {participants : List Participant} (distinct : (participants.map Participant.id).Nodup)
    {participant : Participant} (member : participant ∈ participants) {label : String}
    (labelled : participant.label = some label) (clear : Clear participants participant label) :
    resolveMention participants (.text (mentionText label)) = .ok participant.resolved ↔ Filed participant label := by
  have own : ∀ other ∈ participants, other.id = participant.id → other = participant :=
    fun other inside same => inj_on_of_nodup_map distinct inside member same
  have apart : ∀ other ∈ participants, other ≠ participant → other.handleKey ≠ stripAt label ∧
      other.name ≠ some (stripAt label) ∧ other.id ≠ stripAt label :=
    fun other inside differs => clear other inside fun same => differs (own other inside same)
  -- a handle is filed under itself, and what has none under the empty text
  have handle : participant.handleKey = stripAt label ↔ participant.handle.getD "" ≠ "" ∨ stripAt label = "" := by
    by_cases has : participant.handle.getD "" = ""
    · have key : participant.handleKey = "" := by simp [handleKey, has, stripAt, Text.lstrip]
      rw [key]
      exact ⟨fun same => .inr same.symm, fun either => (either.resolve_left fun some_ => some_ has).symm⟩
    · rw [Participant.label, mentionLabel, if_pos has] at labelled
      have key : participant.handleKey = stripAt label := by rw [handleKey, labelled, getD_some]
      exact iff_of_true key (.inl has)
  rw [resolveMention, stripAt_mentionText, resolveIdentifier_ok]
  constructor
  · rintro ⟨other, found, same⟩
    obtain rfl := own other (by
      rw [findParticipant, or_eq_some_iff, or_eq_some_iff] at found
      rcases found with found | ⟨-, found | ⟨-, found⟩⟩ <;> exact (tableGet_some found).1) (congrArg Resolved.id same).symm
    rw [findParticipant, or_eq_some_iff, or_eq_some_iff] at found
    rcases found with found | ⟨-, found | ⟨-, found⟩⟩
    · exact (handle.1 (some.inj (tableGet_some found).2)).imp id .inl
    · exact .inr (.inr (.inl (tableGet_some found).2))
    · exact .inr (.inr (.inr (some.inj (tableGet_some found).2)))
  · intro filed
    refine ⟨participant, ?_, rfl⟩
    have byHandle : participant.handleKey = stripAt label →
        tableGet (some ∘ handleKey) participants (stripAt label) = some participant := fun its =>
      tableGet_own member (congrArg some its) fun other inside same =>
        by_contra fun differs => (apart other inside differs).1 (some.inj same)
    by_cases first : participant.handleKey = stripAt label
    · rw [findParticipant, byHandle first, some_or]
    have noHandle : tableGet (some ∘ handleKey) participants (stripAt label) = none := tableGet_none.2
      fun other inside same => by
        by_cases its : other = participant
        · exact first (its ▸ some.inj same)
        · exact (apart other inside its).1 (some.inj same)
    rw [findParticipant, noHandle, none_or]
    by_cases second : participant.name = some (stripAt label)
    · rw [tableGet_own member second fun other inside same =>
        by_contra fun differs => (apart other inside differs).2.1 same, some_or]
    have noName : tableGet Participant.name participants (stripAt label) = none := tableGet_none.2
      fun other inside same => by
        by_cases its : other = participant
        · exact second (its ▸ same)
        · exact (apart other inside its).2.1 same
    have third : participant.id = stripAt label := by
      rcases filed with has | empty | named | its
      · exact absurd (handle.2 (.inl has)) first
      · exact absurd (handle.2 (.inr empty)) first
      · exact absurd named second
      · exact its
    rw [noName, none_or]
    exact tableGet_own member (congrArg some third) fun other inside same =>
      by_contra fun differs => (apart other inside differs).2.2 (some.inj same)

/-- **Resolution against rendering.**  One entry comes back for each mention, in order.
A text resolves to nothing but what it names exactly in a roster where everyone has a
handle and no name is empty; and a label nobody else is filed under resolves to its
owner exactly where it is filed under its owner. -/
theorem resolution_iff (participants : List Participant) (distinct : (participants.map Participant.id).Nodup)
    (present : ∀ participant ∈ participants, participant.id ≠ "") :
    (∀ mentions entries, resolveMentions participants mentions = .ok entries →
      List.Forall₂ (fun mention entry => resolveMention participants mention = .ok entry) mentions entries) ∧
    (Sound participants ↔
      ∀ participant ∈ participants, participant.handleKey ≠ "" ∧ participant.name ≠ some "") ∧
    ∀ participant ∈ participants, ∀ label, participant.label = some label →
      Clear participants participant label →
        (resolveMention participants (.text (mentionText label)) = .ok participant.resolved ↔
          Filed participant label) :=
  ⟨fun _ _ => resolveMentions_ok, sound_iff present, fun _ member _ => resolves_back_iff distinct member⟩

theorem resolution_handleless :
    let roster : List Participant := [⟨"u1", none, some "Jane Doe"⟩]
    resolveMention roster (.text "@Jane-Doe") = .error (.unknownParticipant "Jane-Doe") ∧ ¬ Sound roster := by
  have both := (resolution_iff [⟨"u1", none, some "Jane Doe"⟩] (by simp) (by simp)).2
  refine ⟨by decide, fun sound => ?_⟩
  exact absurd (both.1.1 sound _ mem_cons_self).1 (by decide)

/-- A lone `@` resolves to whoever has no handle. -/
theorem lone_at_resolves : ¬ Sound [⟨"u1", none, some "Jane Doe"⟩] := by
  intro sound
  obtain ⟨_, names, -⟩ := sound "@" ⟨"u1", none⟩ (by decide)
  exact absurd (by decide) names.1

end BandSdk.Runtime.Mentions

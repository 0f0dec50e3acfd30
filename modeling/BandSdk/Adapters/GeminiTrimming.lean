/-
# Adapters.GeminiTrimming -- what a Gemini room remembers of its earlier turns

`_trim_history` cuts the history down to its last entries and realigns it to a user entry.
Of the entry it then opens on it drops the leading responses only, so the tail is valid
exactly when no response there stands behind another part (`trimmed_iff`).
-/
import BandSdk.Adapters.GeminiTurns

namespace BandSdk.Adapters.Gemini

open List

variable {contents after : List Content} {c c' entry : Content}

/-- Each response answers a call of the model entry right before its user entry. -/
def Answered (contents : List Content) : Prop :=
  ∀ before c after, contents = before ++ c :: after → ∀ response ∈ c.responses, c.role = .user ∧
    ∃ earlier asks, before = earlier ++ [asks] ∧ asks.role = .model ∧
      ∃ call ∈ asks.calls, call.AnsweredBy response

/-- `c'` is `c`, less some of its responses. -/
structure Content.Lighter (c' c : Content) : Prop where
  role : c'.role = c.role
  order : c'.parts.Sublist c.parts
  others : c'.parts.filter (·.response?.isNone) = c.parts.filter (·.response?.isNone)

/-- `kept` is a valid tail of `history` with at most `limit` entries. -/
structure Trimmed (limit : Nat) (history kept : List Content) : Prop where
  bounded : kept.length ≤ limit
  tail : kept = [] ∨ ∃ dropped first first' rest, history = dropped ++ first :: rest ∧
    kept = first' :: rest ∧ first'.Lighter first
  user : ∀ c ∈ kept.head?, c.role = .user
  answered : Answered kept
  /-- A turn's own input stays while it is within the limit. -/
  input : ∀ before (turn : Turn) after, history = before ++ turn.entry :: after → after.length < limit →
    ∃ earlier, kept = earlier ++ turn.entry :: after

/-- Where the history is cut, the responses of the first entry that opens it are in front of its
other parts; where it is not cut, it opens on a user entry. -/
def Aligned (limit : Nat) (history : List Content) : Prop :=
  if history.length ≤ limit then ∀ c ∈ history.head?, c.role = .user
  else ∀ c ∈ (history.drop (history.length - limit)).find? opens,
    ∀ part ∈ c.parts.dropWhile (·.response?.isSome), part.response? = none

theorem dropLeading_parts (kept : dropLeadingToolResponseParts c = some c') :
    c'.parts = c.parts.dropWhile (·.response?.isSome) := by
  simp only [dropLeadingToolResponseParts] at kept
  split at kept
  · rename_i same
    cases kept
    exact ((dropWhile_suffix _).eq_of_length same).symm
  · split at kept
    · cases kept
    · cases kept
      rfl

theorem dropLeading_lighter (kept : dropLeadingToolResponseParts c = some c') : c'.Lighter c where
  role := dropLeading_role kept
  order := dropLeading_parts kept ▸ dropWhile_sublist _
  others := by
    rw [dropLeading_parts kept]
    induction c.parts with
    | nil => rfl
    | cons part parts ih => cases its : part.response? <;> simp [its, ih]

theorem responses_eq_nil : c.responses = [] ↔ ∀ part ∈ c.parts, part.response? = none :=
  filterMap_eq_nil_iff

/-- An entry without responses stays, with all that follows it. -/
theorem realign_keeps (user : entry.role = .user) (kept : dropLeadingToolResponseParts entry = some entry)
    (before : List Content) : ∃ earlier, realign (before ++ entry :: after) = earlier ++ entry :: after := by
  induction before with
  | nil => exact ⟨[], by simp [realign, user, kept]⟩
  | cons c before ih =>
    rw [cons_append, realign]
    split
    · exact ih
    split
    · exact ih
    · exact ⟨_ :: before, rfl⟩

theorem entry_kept (turn : Turn) : dropLeadingToolResponseParts turn.entry = some turn.entry := by
  have texts : ∀ part ∈ turn.entry.parts, part.response? = none := by
    intro part mem
    unfold Turn.entry at mem
    grind [Part.response?]
  cases parts : turn.entry.parts with
  | nil => simp [Turn.entry] at parts
  | cons part rest =>
    have first := texts part (by simp [parts])
    simp [dropLeadingToolResponseParts, parts, first]

/-- **What is left of a history is a valid tail of it exactly when it is aligned.** -/
theorem trimmed_iff (config : Config) (r : Room) (answered : Answered r.history) :
    Trimmed config.maxHistoryMessages r.history (r.trimHistory config).history ↔
      Aligned config.maxHistoryMessages r.history := by
  unfold Aligned Room.trimHistory
  split
  · refine ⟨(·.user), fun user => ⟨‹_›, ?_, user, answered, fun before _ _ split _ => ⟨before, split⟩⟩⟩
    cases r.history with
    | nil => exact .inl rfl
    | cons c rest => exact .inr ⟨[], c, c, rest, rfl, rfl, rfl, .refl _, rfl⟩
  · rename_i long
    have long := Nat.lt_of_not_le long
    generalize r.history = history at answered long
    change Trimmed _ _ (realign _) ↔ _
    generalize cut : history.length - config.maxHistoryMessages = n
    have short : (history.drop n).length ≤ config.maxHistoryMessages := by
      rw [length_drop]
      omega
    have input : ∀ before (turn : Turn) after, history = before ++ turn.entry :: after →
        after.length < config.maxHistoryMessages →
        ∃ earlier, realign (history.drop n) = earlier ++ turn.entry :: after := by
      rintro before turn after rfl within
      rw [drop_append_of_le_length (by
        simp only [length_append, length_cons] at cut
        omega)]
      exact realign_keeps rfl (entry_kept turn) _
    rcases realign_cases (history.drop n) with ⟨none_, found⟩ | ⟨dropped, first, first', rest, split_, same,
      user, kept, found⟩
    · rw [none_] at input ⊢
      rw [found]
      exact iff_of_true ⟨Nat.zero_le _, .inl rfl, nofun, by simp [Answered], input⟩ nofun
    · have lighter := dropLeading_lighter kept
      have whole : history = (history.take n ++ dropped) ++ first :: rest := by
        rw [append_assoc, ← split_, take_append_drop]
      rw [same] at input ⊢
      rw [found]
      constructor
      · intro trimmed c its part mem
        cases its
        rw [← dropLeading_parts kept] at mem
        refine responses_eq_nil.1 (eq_nil_iff_forall_not_mem.2 fun response mem => ?_) part mem
        obtain ⟨-, _, _, none_, -⟩ := trimmed.answered [] first' rest rfl response mem
        simp at none_
      · intro leading
        refine ⟨?_, .inr ⟨_, first, first', rest, whole, rfl, lighter⟩, ?_, ?_, input⟩
        · rw [split_, length_append] at short
          exact Nat.le_trans (Nat.le_add_left ..) short
        · rintro _ ⟨⟩
          exact lighter.role.trans user
        · intro before c after parts response mem
          cases before with
          | nil =>
            cases parts
            rw [responses_eq_nil.2 (dropLeading_parts kept ▸ leading first rfl)] at mem
            cases mem
          | cons head before =>
            obtain ⟨rfl, rfl⟩ := List.cons.inj parts
            obtain ⟨asked, earlier, asks, ends, model, its⟩ := answered
              (history.take n ++ dropped ++ first :: before) c after
              (whole.trans (by simp)) response mem
            refine ⟨asked, ?_⟩
            rcases eq_nil_or_concat' before with rfl | ⟨between, last, rfl⟩
            · -- the entry in front would be `first`, which is a user's
              have same := (append_inj' ends rfl).2
              cases same
              cases model.symm.trans user
            · rw [← cons_append, ← append_assoc] at ends
              have same := (append_inj' ends rfl).2
              cases same
              exact ⟨first' :: between, asks, rfl, model, its⟩

/-! ## A message between a call and its result -/

def lookup : FunctionCall := ⟨some "1", some "lookup", .null⟩

/-- A user wrote while the tool ran, so the response stands behind that text. -/
def interrupted : Room where
  messageHistory := some [⟨.model, [.functionCall lookup]⟩,
    ⟨.user, [.text "[Ann]: well?", .functionResponse ⟨"1", "lookup", .null⟩]⟩,
    ⟨.user, [.text "[Ann]: hello"]⟩, ⟨.model, [.text "hello"]⟩]

theorem interrupted_answered : Answered interrupted.history := by
  intro before c after same response mem
  rcases before with _ | ⟨asks, _ | ⟨_, before⟩⟩
  · cases same
    cases mem
  · cases same
    cases mem_singleton.1 mem
    exact ⟨rfl, [], _, rfl, rfl, lookup, by simp [Content.calls, Part.call?], rfl,
      fun _ its _ => Option.some.inj its⟩
  · have rest := (List.cons.inj (List.cons.inj same).2).2
    have mem' : c ∈ [(⟨.user, [.text "[Ann]: hello"]⟩ : Content), ⟨.model, [.text "hello"]⟩] := by
      simp [rest]
    rcases mem_pair.1 mem' with rfl | rfl <;> cases mem

theorem trimmed_iff_interrupted :
    Trimmed 200 interrupted.history (interrupted.trimHistory plainConfig).history ↔
      Aligned 200 interrupted.history :=
  trimmed_iff plainConfig interrupted interrupted_answered

/-- Three entries are kept, with a response whose call is gone. -/
theorem interrupted_orphan : Answered interrupted.history ∧ ¬ Trimmed 3 interrupted.history
    (interrupted.trimHistory { plainConfig with maxHistoryMessages := 3, someHistory := by decide }).history := by
  refine ⟨interrupted_answered, fun trimmed => ?_⟩
  obtain ⟨-, _, _, none_, -⟩ := trimmed.answered [] _ _ rfl ⟨"1", "lookup", .null⟩ (.head _)
  simp at none_

end BandSdk.Adapters.Gemini

/-
# Acp.Results -- one tool result out of many frames

A frame's content is its readable text, without the JSON echo that repeats it, or else
its raw output.  `foldResult` keeps one of the frames' contents.

* `unwrap_duplicate`: only a proven duplicate is cut off.
* `Keeps`: what one more frame does to the fold; `frames_fold` by the latest frame.
-/
import BandSdk.Acp.Buffer
import Mathlib.Data.List.Induction

namespace BandSdk.Acp

open BandSdk.Theory List

/-- Equality of JSON values that keeps the types apart. -/
inductive Same : Json → Json → Prop
  | null : Same .null .null
  | bool (value : Bool) : Same (.bool value) (.bool value)
  | int (value : Int) : Same (.int value) (.int value)
  | float {a b : UInt64} (equal : floatEqual a b = true) : Same (.float a) (.float b)
  | str (value : String) : Same (.str value) (.str value)
  | arr {as bs : List Json} (items : List.Forall₂ Same as bs) : Same (.arr as) (.arr bs)
  | obj {as bs : List (String × Json)} (size : as.length = bs.length)
      (other : String × Json → Json) (found : ∀ field ∈ as, bs.lookup field.1 = some (other field))
      (fields : ∀ field ∈ as, Same field.2 (other field)) : Same (.obj as) (.obj bs)

mutual

theorem same_of_strict : ∀ {a b : Json}, strictJsonEqual a b = true → Same a b
  | .null, b, equal => by cases b <;> simp [strictJsonEqual] at equal; exact .null
  | .bool x, b, equal => by cases b <;> simp [strictJsonEqual] at equal; exact equal ▸ .bool x
  | .int x, b, equal => by cases b <;> simp [strictJsonEqual] at equal; exact equal ▸ .int x
  | .float x, b, equal => by cases b <;> simp [strictJsonEqual] at equal; exact .float equal
  | .str x, b, equal => by cases b <;> simp [strictJsonEqual] at equal; exact equal ▸ .str x
  | .arr xs, b, equal => by cases b <;> simp [strictJsonEqual] at equal; exact .arr (same_items equal)
  | .obj xs, b, equal => by
    cases b <;> simp [strictJsonEqual] at equal
    rename_i ys
    have each := same_fields equal.2
    refine .obj equal.1 (fun field => (ys.lookup field.1).getD .null) (fun field member => ?_) fun field member => ?_
    all_goals
      obtain ⟨other, found, same⟩ := each field member
      simp [found, same]

theorem same_items : ∀ {as bs : List Json}, strictItemsEqual as bs = true → List.Forall₂ Same as bs
  | [], [], _ => .nil
  | [], _ :: _, equal => by simp [strictItemsEqual] at equal
  | _ :: _, [], equal => by simp [strictItemsEqual] at equal
  | a :: as, b :: bs, equal => by
    rw [strictItemsEqual, Bool.and_eq_true] at equal
    exact .cons (same_of_strict equal.1) (same_items equal.2)

theorem same_fields : ∀ {as bs : List (String × Json)}, strictFieldsEqual as bs = true →
    ∀ field ∈ as, ∃ other, bs.lookup field.1 = some other ∧ Same field.2 other
  | [], _, _, _, member => by cases member
  | (first, held) :: rest, bs, equal, field, member => by
    rw [strictFieldsEqual, Bool.and_eq_true] at equal
    rcases mem_cons.1 member with rfl | later
    · cases found : bs.lookup first with
      | none => simp [found] at equal
      | some other =>
        rw [found] at equal
        exact ⟨other, rfl, same_of_strict equal.1⟩
    · exact same_fields equal.2 field later

end

/-! ## Frames -/

/-- What a result frame reports: `text` is that of its content blocks. -/
structure ResultUpdate where
  toolCallId : Option String
  status : Option String
  text : String
  rawOutput : Option Json
  revision : Option ACPToolCall := none
  activity : Option ACPToolActivity := none

section Frames

/- `loads` decodes a text without the white space around it, `rawDecode` the value a
text starts with, and where it ends; `str` renders a raw output. -/
variable (loads : String → Option Json) (rawDecode : String → Option (Json × Nat)) (str : Json → String)

/-- The text of an object whose one field is `result`. -/
def soleResult : List (String × Json) → Option String
  | [(key, .str result)] => if key = "result" then some result else none
  | _ => none

def readableRendering (content : String) (structured : List (String × Json)) : Option String :=
  match soleResult structured with
  | some result => if result ≠ "" ∧ result.toList.isPrefixOf content.toList then some result else none
  | none =>
    match rawDecode content with
    | none => none
    | some (value, end_) =>
      if strictJsonEqual value (.obj structured) then some (String.ofList (content.toList.take end_)) else none

def unwrapStructuredResult (content : String) (rawOutput : Option Json) :
    Option (String × List (String × Json)) :=
  match rawOutput with
  | some (.obj fields) =>
    match fields.lookup "structuredContent" with
    | some (.obj structured) =>
      match readableRendering rawDecode content structured with
      | some readable => if isEchoOf loads content readable structured then some (readable, structured) else none
      | none => none
    | _ => none
  | _ => none

/-- A non-empty text that renders the structured content: its sole result, or the value
the content starts with. -/
def Renders (content readable : String) (structured : List (String × Json)) : Prop :=
  readable ≠ "" ∧ (structured = [("result", .str readable)] ∨
    ∃ value, rawDecode content = some (value, readable.length) ∧ Same value (.obj structured))

/-- The content is the readable text and a JSON text of the structured content itself. -/
def Duplicate (content : String) (rawOutput : Option Json) (readable : String)
    (structured : List (String × Json)) : Prop :=
  (∃ fields, rawOutput = some (.obj fields) ∧ fields.lookup "structuredContent" = some (.obj structured)) ∧
    Renders rawDecode content readable structured ∧
    ∃ rest value, content.toList = readable.toList ++ rest ∧ loads (String.ofList rest) = some value ∧
      Same value (.obj structured)

/-- Readable blocks take precedence over raw output. -/
def toolResultChunk (update : ResultUpdate) : CollectedChunk :=
  let raw := ((update.rawOutput.filter Json.truthy).map str).getD ""
  let unwrapped := unwrapStructuredResult loads rawDecode update.text update.rawOutput
  { chunkType := .toolResult
    content := if update.text = "" then raw else (unwrapped.map Prod.fst).getD update.text
    metadata := { toolCallId := some update.toolCallId, status := update.status }
    fromRaw := update.text = ""
    echo := if update.text = "" then none else unwrapped.map Prod.snd
    tool := update.revision.map .call
    activity := update.activity }

/-- A frame as `_ingest_tool_result` folds it, with the session it comes to. -/
def frameChunk (frame : Session × ResultUpdate) : CollectedChunk :=
  frame.1.resultOf (toolResultChunk loads rawDecode str frame.2)

/-- The result kept for a call after these frames. -/
def foldedResult (first : Session × ResultUpdate) (rest : List (Session × ResultUpdate)) : CollectedChunk :=
  rest.foldl (fun canonical frame => foldResult loads canonical (frameChunk loads rawDecode str frame))
    (frameChunk loads rawDecode str first)

/-! ## What the fold is for -/

/-- The last readable frame that did not repeat, with an echo, the one accepted before. -/
def accepted (chunks : List CollectedChunk) : Option CollectedChunk :=
  chunks.foldl (fun last chunk =>
    if (chunk.content ≠ "" ∧ chunk.fromRaw = false) ∧
        (last.any fun last => last.echo.any (isEchoOf loads chunk.content last.content)) = false then some chunk
    else last) none

/-- The first of the longest texts. -/
def FirstLongest (texts : List String) (text : String) : Prop :=
  ∃ before after, texts = before ++ text :: after ∧ (∀ earlier ∈ before, earlier.length < text.length) ∧
    ∀ later ∈ after, later.length ≤ text.length

/-- The content kept of these frames, and what the next one is compared with. -/
def Keeps (chunks : List CollectedChunk) (canonical : CollectedChunk) : Prop :=
  match accepted loads chunks with
  | some last => canonical.content = last.content ∧ canonical.echo = last.echo ∧
      canonical.content ≠ "" ∧ canonical.fromRaw = false
  | none => FirstLongest (chunks.map (·.content)) canonical.content ∧ canonical.echo = none ∧
      canonical.fromRaw = true

end Frames

section Laws

variable {loads : String → Option Json} {rawDecode : String → Option (Json × Nat)} {str : Json → String}

/-- What `raw_decode` gives ends inside the text, and is not empty. -/
def Documented (rawDecode : String → Option (Json × Nat)) : Prop :=
  ∀ content value end_, rawDecode content = some (value, end_) → 0 < end_ ∧ end_ ≤ content.length

variable (documented : Documented rawDecode)
include documented

theorem readableRendering_some {content : String} {structured : List (String × Json)} {readable : String}
    (renders : readableRendering rawDecode content structured = some readable) :
    Renders rawDecode content readable structured := by
  unfold readableRendering at renders
  split at renders
  case h_1 result sole =>
    split at renders <;> cases renders
    case isTrue both =>
      refine ⟨both.1, .inl ?_⟩
      unfold soleResult at sole
      split at sole <;> try cases sole
      split at sole <;> cases sole
      rename_i named
      rw [named]
  case h_2 =>
    split at renders <;> try cases renders
    case h_2 value end_ decoded =>
      obtain ⟨positive, inside⟩ := documented _ _ _ decoded
      split at renders <;> cases renders
      case isTrue equal =>
        have size : (String.ofList (content.toList.take end_)).length = end_ := by
          rw [String.length_ofList, length_take, String.length_toList]
          omega
        refine ⟨fun empty => ?_, .inr ⟨value, size.symm ▸ decoded, same_of_strict equal⟩⟩
        rw [empty] at size
        exact absurd size (Nat.ne_of_lt positive)

/-- **Unwrapping.**  Nothing but a repetition of the structured content is cut off. -/
theorem unwrap_duplicate {content : String} {rawOutput : Option Json} {readable : String}
    {structured : List (String × Json)}
    (unwraps : unwrapStructuredResult loads rawDecode content rawOutput = some (readable, structured)) :
    Duplicate loads rawDecode content rawOutput readable structured := by
  unfold unwrapStructuredResult at unwraps
  split at unwraps <;> try cases unwraps
  rename_i fields
  split at unwraps <;> try cases unwraps
  rename_i held found
  split at unwraps <;> try cases unwraps
  rename_i rendered renders
  split at unwraps <;> cases unwraps
  rename_i echoes
  refine ⟨⟨fields, rfl, found⟩, readableRendering_some documented renders, ?_⟩
  unfold isEchoOf at echoes
  split at echoes
  · rename_i starts
    obtain ⟨rest, whole⟩ := isPrefixOf_iff_prefix.1 starts
    cases decoded : loads (String.ofList (content.toList.drop readable.length)) with
    | none => simp [decoded] at echoes
    | some value =>
      rw [decoded] at echoes
      refine ⟨rest, value, whole.symm, ?_, same_of_strict echoes⟩
      rw [← decoded, ← whole, ← String.length_toList, drop_left]
  · cases echoes

/-- A readable frame has a content, and one that is not readable has no echo. -/
theorem toolResultChunk_fromRaw (update : ResultUpdate) :
    let chunk := toolResultChunk loads rawDecode str update
    (chunk.fromRaw = false → chunk.content ≠ "") ∧ (chunk.fromRaw = true → chunk.echo = none) := by
  dsimp only [toolResultChunk]
  by_cases empty : update.text = ""
  · simp [empty]
  refine ⟨fun _ => ?_, fun raw => absurd (of_decide_eq_true raw) empty⟩
  rw [if_neg empty]
  cases unwraps : unwrapStructuredResult loads rawDecode update.text update.rawOutput with
  | none => exact empty
  | some pair => exact (unwrap_duplicate documented unwraps).2.1.1

omit documented in
theorem FirstLongest.snoc {texts : List String} {text : String} (longest : FirstLongest texts text) (next : String) :
    FirstLongest (texts ++ [next]) (if text.length < next.length then next else text) := by
  obtain ⟨before, after, rfl, shorter, most⟩ := longest
  split
  case isTrue longer =>
    refine ⟨before ++ text :: after, [], by simp, fun earlier member => ?_, by simp⟩
    rcases mem_append.1 member with early | here
    · exact (shorter earlier early).trans longer
    rcases mem_cons.1 here with rfl | late
    · exact longer
    · exact (most earlier late).trans_lt longer
  case isFalse stays =>
    refine ⟨before, after ++ [next], by simp, shorter, fun later member => ?_⟩
    rcases mem_append.1 member with late | new
    · exact most later late
    · rw [mem_singleton.1 new]
      exact Nat.le_of_not_lt stays

omit documented in
/-- Of two frames that are not readable the longer one wins, of equal ones the first. -/
theorem resultKeyLt_raw {canonical chunk : CollectedChunk} (raw : canonical.fromRaw = true)
    (raw' : chunk.fromRaw = true) :
    resultKeyLt canonical chunk = decide (canonical.content.length < chunk.content.length) := by
  have positive : ∀ text : String, text ≠ "" → 0 < text.length := fun text some_ =>
    Nat.pos_of_ne_zero fun zero => some_ (String.length_eq_zero_iff.1 zero)
  by_cases one : canonical.content = "" <;> by_cases two : chunk.content = "" <;>
    simp [resultKeyLt, raw, raw', one, two, positive]

omit documented in
theorem accepted_snoc (chunks : List CollectedChunk) (chunk : CollectedChunk) :
    accepted loads (chunks ++ [chunk]) =
      if (chunk.content ≠ "" ∧ chunk.fromRaw = false) ∧ ((accepted loads chunks).any fun last =>
          last.echo.any (isEchoOf loads chunk.content last.content)) = false then some chunk
      else accepted loads chunks := by
  rw [accepted, foldl_concat]
  rfl

theorem Keeps.fold {chunks : List CollectedChunk} {canonical : CollectedChunk} (keeps : Keeps loads chunks canonical)
    (frame : Session × ResultUpdate) :
    Keeps loads (chunks ++ [frameChunk loads rawDecode str frame])
      (foldResult loads canonical (frameChunk loads rawDecode str frame)) := by
  obtain ⟨whole, silent⟩ := @toolResultChunk_fromRaw loads rawDecode str documented frame.2
  generalize its : frameChunk loads rawDecode str frame = chunk
  replace whole : chunk.fromRaw = false → chunk.content ≠ "" := its ▸ whole
  replace silent : chunk.fromRaw = true → chunk.echo = none := its ▸ silent
  unfold Keeps at keeps ⊢
  rw [accepted_snoc]
  cases held : accepted loads chunks with
  | none =>
    rw [held] at keeps
    obtain ⟨longest, quiet, raw⟩ := keeps
    cases readable : chunk.fromRaw with
    | false => simp [foldResult, quiet, readable, whole readable]
    | true =>
      simp only [foldResult, quiet, readable, raw, resultKeyLt_raw raw readable, Option.any_none]
      have next := longest.snoc chunk.content
      by_cases longer : canonical.content.length < chunk.content.length
      · rw [if_pos longer] at next
        simpa [longer, readable, silent readable] using next
      · rw [if_neg longer] at next
        simpa [longer, raw, quiet] using next
  | some last =>
    rw [held] at keeps
    obtain ⟨content, echo, some_, readable'⟩ := keeps
    by_cases again : last.echo.any (isEchoOf loads chunk.content last.content) = true
    · simp [foldResult, content, echo, again, readable', content ▸ some_]
    cases readable : chunk.fromRaw with
    | false => simp [foldResult, content, echo, again, readable, whole readable]
    | true => simp [foldResult, content, echo, again, readable, readable', content ▸ some_]

/-- **Folding.**  After any frames of a call, its result has the content of the last
readable frame that did not repeat the one accepted before, or where none was readable
the first longest raw content; its status is the last reported; and the tool result
says both.  Unwrapping drops nothing but a duplicate. -/
theorem frames_fold (first : Session × ResultUpdate) (rest : List (Session × ResultUpdate)) :
    (let canonical := foldedResult loads rawDecode str first rest
     Keeps loads ((first :: rest).map (frameChunk loads rawDecode str)) canonical ∧
      canonical.metadata.status = ((first :: rest).filterMap (·.2.status)).getLast? ∧
      ∃ call, canonical.tool = some (.result ⟨call, canonical.content, canonical.metadata.status⟩)) ∧
    ∀ content rawOutput readable structured,
      unwrapStructuredResult loads rawDecode content rawOutput = some (readable, structured) →
      Duplicate loads rawDecode content rawOutput readable structured := by
  refine ⟨?_, fun _ _ _ _ => unwrap_duplicate documented⟩
  induction rest using reverseRecOn with
  | nil =>
    obtain ⟨whole, silent⟩ := @toolResultChunk_fromRaw loads rawDecode str documented first.2
    refine ⟨?_, ?_, _, rfl⟩
    · cases raw : (toolResultChunk loads rawDecode str first.2).fromRaw with
      | false => simp [Keeps, accepted, foldedResult, frameChunk, Session.resultOf, raw, whole raw]
      | true =>
        simp [Keeps, accepted, foldedResult, frameChunk, Session.resultOf, raw, silent raw]
        exact ⟨[], [], by simp⟩
    · cases status : first.2.status <;> simp [foldedResult, frameChunk, Session.resultOf, toolResultChunk, status]
  | append_singleton rest frame ih =>
    obtain ⟨keeps, status, call, tool⟩ := ih
    refine ⟨?_, ?_, call, ?_⟩
    · simpa [foldedResult] using keeps.fold documented frame
    · have last : ((first :: (rest ++ [frame])).filterMap (·.2.status)).getLast? =
          (frame.2.status <|> ((first :: rest).filterMap (·.2.status)).getLast?) := by
        rw [← cons_append, filterMap_append]
        cases reported : frame.2.status <;> simp [reported]
      rw [last, ← status]
      simp [foldedResult, foldResult, frameChunk, Session.resultOf, toolResultChunk]
    · simp only [foldedResult, foldl_concat, foldResult] at tool ⊢
      rw [tool]

omit documented in
/-- A readable frame, then one with a raw output: the first content and the last status stay. -/
theorem frames_fold_readable_kept :
    let canonical := foldedResult (fun _ => none) (fun _ => none) (fun _ => "17")
      ({}, ⟨some "t1", some "in_progress", "found", none, none, none⟩)
      [({}, ⟨some "t1", some "completed", "", some (.int 17), none, none⟩)]
    canonical.content = "found" ∧ canonical.metadata.status = some "completed" := by
  have folds := (@frames_fold (fun _ => none) (fun _ => none) (fun _ => "17") (fun _ _ _ found => by cases found)
    ({}, ⟨some "t1", some "in_progress", "found", none, none, none⟩)
      [({}, ⟨some "t1", some "completed", "", some (.int 17), none, none⟩)]).1
  exact ⟨folds.1.1, folds.2.1⟩

end Laws

end BandSdk.Acp

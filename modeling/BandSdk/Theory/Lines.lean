/-
# Theory.Lines -- a text as its lines

`lines` takes a text apart at its newlines and `unlines` puts lines together.  Parts
that are one line each come back as they are (`lines_unlines`); a part with a newline
in it comes back as more than one, so that the number of lines tells
(`length_lines_unlines`).
-/
import Mathlib
import BandSdk.Theory.Text

namespace BandSdk.Theory.Lines

/-- `text.split("\n")`. -/
def lines (text : String) : List String := (text.toList.splitOn '\n').map String.ofList

/-- `"\n".join(parts)`. -/
def unlines (parts : List String) : String := "\n".intercalate parts

/-- No newline. -/
def OneLine (text : String) : Prop := '\n' ∉ text.toList

instance (text : String) : Decidable (OneLine text) := inferInstanceAs (Decidable ('\n' ∉ text.toList))

/-- For a literal: its characters are read off without running a decoder. -/
theorem oneLine_ofList {text : List Char} (one : '\n' ∉ text) : OneLine (String.ofList text) := by
  rwa [OneLine, String.toList_ofList]

theorem OneLine.append {l r : String} : OneLine (l ++ r) ↔ OneLine l ∧ OneLine r := by
  simp [OneLine]

theorem oneLine_join {parts : List String} : OneLine (String.join parts) ↔ ∀ part ∈ parts, OneLine part := by
  simp [OneLine]

theorem lines_of_oneLine {text : String} (one : OneLine text) : lines text = [text] := by
  simp [lines, List.splitOn_eq_singleton one]

theorem lines_cons {first : String} (one : OneLine first) {parts : List String} (more : parts ≠ []) :
    lines (unlines (first :: parts)) = first :: lines (unlines parts) := by
  have shape : (unlines (first :: parts)).toList = first.toList ++ '\n' :: (unlines parts).toList := by
    rw [unlines, String.intercalate_cons_of_ne_nil more]
    simp [unlines]
  rw [lines, shape, List.splitOn_append_cons_self_of_not_mem one]
  simp [lines]

/-- Lines that were put together come apart as they were. -/
theorem lines_unlines {parts : List String} (some_ : parts ≠ []) (one : ∀ part ∈ parts, OneLine part) :
    lines (unlines parts) = parts := by
  induction parts with
  | nil => exact absurd rfl some_
  | cons first parts ih =>
    rcases eq_or_ne parts [] with rfl | more
    · simpa [unlines] using lines_of_oneLine (one first List.mem_cons_self)
    · rw [lines_cons (one first List.mem_cons_self) more,
        ih more fun part inside => one part (List.mem_cons_of_mem first inside)]

theorem length_lines_pos (text : String) : 0 < (lines text).length := by
  rw [lines, List.length_map]
  exact List.length_pos_iff.2 (List.splitOn_ne_nil '\n' _)

/-- Whatever the parts are, their lines are counted one part after the other. -/
theorem length_lines_unlines {parts : List String} (some_ : parts ≠ []) :
    (lines (unlines parts)).length = (parts.map fun part => (lines part).length).sum := by
  induction parts with
  | nil => exact absurd rfl some_
  | cons first parts ih =>
    rcases eq_or_ne parts [] with rfl | more
    · simp [unlines]
    have shape : (unlines (first :: parts)).toList = first.toList ++ '\n' :: (unlines parts).toList := by
      rw [unlines, String.intercalate_cons_of_ne_nil more]
      simp [unlines]
    rw [List.map_cons, List.sum_cons, ← ih more]
    simp [lines, shape, List.splitOn_append_cons_self]

theorem oneLine_iff {text : String} : OneLine text ↔ (lines text).length = 1 := by
  constructor
  · intro one
    rw [lines_of_oneLine one]
    rfl
  · intro single inside
    obtain ⟨before, after, split⟩ := List.append_of_mem inside
    have parts : (lines text).length = (before.splitOn '\n').length + (after.splitOn '\n').length := by
      simp [lines, split, List.splitOn_append_cons_self]
    have left := List.length_pos_iff.2 (List.splitOn_ne_nil '\n' before)
    have right := List.length_pos_iff.2 (List.splitOn_ne_nil '\n' after)
    omega

theorem oneLine_of_length {parts : List String} (some_ : parts ≠ [])
    (same : (lines (unlines parts)).length = parts.length) : ∀ part ∈ parts, OneLine part := by
  rw [length_lines_unlines some_] at same
  clear some_
  induction parts with
  | nil => simp
  | cons first parts ih =>
    have least : parts.length ≤ (parts.map fun part => (lines part).length).sum := by
      have bound := List.length_le_sum_of_one_le (parts.map fun part => (lines part).length) (by
        intro n inside
        obtain ⟨part, -, rfl⟩ := List.mem_map.1 inside
        exact length_lines_pos part)
      simpa using bound
    have some_ := length_lines_pos first
    rw [List.map_cons, List.sum_cons, List.length_cons] at same
    intro part inside
    rcases List.mem_cons.1 inside with rfl | inside
    · exact oneLine_iff.2 (by omega)
    · exact ih (by omega) part inside

/-! ## Words -/

/-- `text.rstrip()`. -/
def rstrip (text : String) : String := String.ofList (text.toList.rdropWhile Text.isSpace)

theorem splitFrom_visible {word : List Char} (visible : ∀ x ∈ word, Text.isSpace x = false)
    (text : List Char) : ∀ w ∈ Text.splitFrom word text, ∀ x ∈ w.toList, Text.isSpace x = false := by
  induction text generalizing word with
  | nil =>
    intro w inside
    by_cases empty : word = []
    · simp [Text.splitFrom, empty] at inside
    · obtain rfl : w = String.ofList word := by simpa [Text.splitFrom, empty] using inside
      simpa using visible
  | cons y text ih =>
    intro w inside
    by_cases space : Text.isSpace y = true
    · by_cases empty : word = []
      · exact ih (List.forall_mem_nil _) w (by simpa [Text.splitFrom, space, empty] using inside)
      rcases (by simpa [Text.splitFrom, space, empty] using inside :
        w = String.ofList word ∨ w ∈ Text.splitFrom [] text) with rfl | inside
      · simpa using visible
      · exact ih (List.forall_mem_nil _) w inside
    · have longer : ∀ x ∈ word ++ [y], Text.isSpace x = false := by
        intro x inside
        rcases List.mem_append.1 inside with inside | inside
        · exact visible x inside
        · rw [List.mem_singleton.1 inside]
          simpa using space
      exact ih longer w (by simpa [Text.splitFrom, space] using inside)

/-- A word has no white space in it. -/
theorem split_visible {text w : String} (inside : w ∈ Text.split text) :
    ∀ x ∈ w.toList, Text.isSpace x = false :=
  splitFrom_visible (by simp) text.toList w inside

/-- Words joined by spaces are one line. -/
theorem oneLine_words (text : String) : OneLine (" ".intercalate (Text.split text)) := by
  have words : ∀ w ∈ Text.split text, OneLine w := fun w inside newline =>
    absurd (split_visible inside '\n' newline) (by decide)
  generalize Text.split text = listed at words
  induction listed with
  | nil => decide
  | cons w others ih =>
    have first : OneLine w := words w List.mem_cons_self
    have rest := ih fun v inside => words v (List.mem_cons_of_mem w inside)
    rcases eq_or_ne others [] with rfl | more
    · simpa using first
    · rw [String.intercalate_cons_of_ne_nil more, OneLine.append, OneLine.append]
      exact ⟨⟨first, by decide⟩, rest⟩

theorem oneLine_rstrip {text : String} (one : OneLine text) : OneLine (rstrip text) := by
  apply oneLine_ofList
  exact fun newline => one ((List.rdropWhile_prefix _ _).subset newline)

end BandSdk.Theory.Lines

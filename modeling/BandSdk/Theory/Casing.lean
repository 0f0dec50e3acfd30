/-
# Theory.Casing -- lower case between boundaries

Python's `str.lower` maps whole words: what a letter becomes can depend on the
letters around it.  It never looks past a character that is neither a letter nor
transparent to case, such as a blank or a slash.  `Casing` is a lower-casing with
such boundaries: they stay, and each side is lowered by itself.

So it commutes with whatever cuts a text at boundaries: trimming, dropping a
prefix of them, and taking the segment after the last one.
-/
import Mathlib.Data.List.DropRight
import Mathlib.Data.List.Induction
import BandSdk.Theory.Text

namespace BandSdk.Theory

open Option

/-- A lower-casing that treats the text on each side of a boundary by itself. -/
structure Casing (boundary : Char → Prop) where
  lower : List Char → List Char
  apart : ∀ (front : List Char) (c : Char) (back : List Char), boundary c →
    lower (front ++ c :: back) = lower front ++ c :: lower back
  /-- No letter becomes a boundary. -/
  within : ∀ word : List Char, (∀ c ∈ word, ¬ boundary c) → ∀ c ∈ lower word, ¬ boundary c
  eq_nil : ∀ text : List Char, lower text = [] ↔ text = []

namespace Casing

variable {boundary : Char → Prop} (casing : Casing boundary)

@[simp] theorem lower_nil : casing.lower [] = [] := (casing.eq_nil []).2 rfl

variable {c : Char}

theorem lower_cons (cut : boundary c) (text : List Char) :
    casing.lower (c :: text) = c :: casing.lower text := by
  simpa using casing.apart [] c text cut

/-- Texts from the words and boundaries they are made of. -/
theorem words_induction (boundary : Char → Prop) {motive : List Char → Prop}
    (word : ∀ w, (∀ c ∈ w, ¬ boundary c) → motive w)
    (cut : ∀ w c rest, (∀ x ∈ w, ¬ boundary x) → boundary c → motive rest → motive (w ++ c :: rest))
    (text : List Char) : motive text := by
  have all : ∀ w, (∀ c ∈ w, ¬ boundary c) → motive (w ++ text) := by
    induction text with
    | nil => exact fun w plain => by simpa using word w plain
    | cons c text ih =>
      intro w plain
      by_cases here : boundary c
      · exact cut w c text plain here (by simpa using ih [] (by simp))
      rw [List.append_cons]
      refine ih (w ++ [c]) fun x inside => ?_
      rcases List.mem_append.1 inside with earlier | last
      · exact plain x earlier
      · exact List.mem_singleton.1 last ▸ here
  exact all [] (by simp)

theorem mem_lower (cut : boundary c) (text : List Char) : c ∈ casing.lower text ↔ c ∈ text := by
  induction text using words_induction boundary with
  | word w plain =>
    exact iff_of_false (fun inside => casing.within w plain c inside cut) fun inside => plain c inside cut
  | cut w x rest plain here ih =>
    rw [casing.apart w x rest here]
    have outside : c ∉ w := fun inside => plain c inside cut
    have outside' : c ∉ casing.lower w := fun inside => casing.within w plain c inside cut
    simp [outside, outside', ih]

/-- A text that starts inside a word has its lower case start with that word's. -/
theorem lower_word_first (text : List Char) (first : text.head? = some c) (letter : ¬ boundary c) :
    ∃ w back, w ≠ [] ∧ (∀ x ∈ w, ¬ boundary x) ∧ casing.lower text = casing.lower w ++ back := by
  induction text using words_induction boundary with
  | word w plain => exact ⟨w, [], by rintro rfl; simp at first, plain, by simp⟩
  | cut w x rest plain here _ =>
    refine ⟨w, x :: casing.lower rest, ?_, plain, casing.apart w x rest here⟩
    rintro rfl
    exact letter (some.inj first ▸ here)

theorem head_lower (cut : boundary c) (text : List Char) :
    (casing.lower text).head? = some c ↔ text.head? = some c := by
  cases text with
  | nil => simp
  | cons x rest =>
    by_cases here : boundary x
    · simp [casing.lower_cons here]
    have other : (x :: rest).head? ≠ some c := by
      rintro same
      exact here (some.inj same ▸ cut)
    refine iff_of_false (fun lowered => ?_) other
    obtain ⟨w, back, some_, plain, split⟩ := casing.lower_word_first (x :: rest) rfl here
    have nonempty : casing.lower w ≠ [] := fun none_ => some_ ((casing.eq_nil w).1 none_)
    rw [split, List.head?_append_of_ne_nil _ nonempty] at lowered
    exact casing.within w plain c (List.mem_of_head? lowered) cut

theorem lower_boundaries_append {front : List Char} (cuts : ∀ c ∈ front, boundary c) (text : List Char) :
    casing.lower (front ++ text) = front ++ casing.lower text := by
  induction front with
  | nil => rfl
  | cons c front ih =>
    rw [List.cons_append, casing.lower_cons (cuts c List.mem_cons_self),
      ih fun x inside => cuts x (List.mem_cons_of_mem _ inside), List.cons_append]

theorem lower_append_boundaries {back : List Char} (cuts : ∀ c ∈ back, boundary c) (text : List Char) :
    casing.lower (text ++ back) = casing.lower text ++ back := by
  cases back with
  | nil => simp
  | cons c back =>
    have rest := casing.lower_boundaries_append (fun x inside => cuts x (List.mem_cons_of_mem c inside)) []
    rw [List.append_nil] at rest
    rw [casing.apart text c back (cuts c List.mem_cons_self), rest, lower_nil, List.append_nil]

variable {p : Char → Bool}

theorem lower_dropWhile (cuts : ∀ c, p c = true → boundary c) (text : List Char) :
    casing.lower (text.dropWhile p) = (casing.lower text).dropWhile p := by
  induction text with
  | nil => simp
  | cons c text ih =>
    by_cases drops : p c = true
    · rw [List.dropWhile_cons_of_pos drops, ih, casing.lower_cons (cuts c drops),
        List.dropWhile_cons_of_pos drops]
    · rw [List.dropWhile_cons_of_neg drops]
      cases lowered : casing.lower (c :: text) with
      | nil => rfl
      | cons x rest =>
        rw [List.dropWhile_cons_of_neg]
        intro dropsX
        -- the first character would be the same boundary before
        have first := (casing.head_lower (cuts x dropsX) (c :: text)).1 (by rw [lowered]; rfl)
        exact drops (some.inj first ▸ dropsX)

/-- The casing read from right to left. -/
def mirror : Casing boundary where
  lower text := (casing.lower text.reverse).reverse
  apart front c back cut := by
    simp [casing.apart back.reverse c front.reverse cut]
  within word plain c inside := by
    rw [List.mem_reverse] at inside
    exact casing.within word.reverse (fun x member => plain x (List.mem_reverse.1 member)) c inside
  eq_nil text := by simp [casing.eq_nil]

theorem lower_rdropWhile (cuts : ∀ c, p c = true → boundary c) (text : List Char) :
    casing.lower (text.rdropWhile p) = (casing.lower text).rdropWhile p := by
  have mirrored := casing.mirror.lower_dropWhile cuts text.reverse
  simp only [mirror, List.reverse_reverse] at mirrored
  rw [List.rdropWhile, List.rdropWhile, ← mirrored, List.reverse_reverse]

end Casing

/-! ## Cutting a text -/

namespace Text

/-- `str.strip`, over characters. -/
def trim (text : List Char) : List Char := (text.dropWhile isSpace).rdropWhile isSpace

/-- `str.removeprefix` of one character. -/
def removePrefix (c : Char) : List Char → List Char
  | [] => []
  | x :: rest => if x = c then rest else x :: rest

/-- `text.rsplit(sep, 1)[-1]`. -/
def lastSegment (sep : Char) (text : List Char) : List Char := text.rtakeWhile (· ≠ sep)

theorem trim_decomposition (text : List Char) :
    ∃ front back, (∀ c ∈ front ++ back, isSpace c = true) ∧ text = front ++ trim text ++ back := by
  refine ⟨text.takeWhile isSpace, (text.dropWhile isSpace).rtakeWhile isSpace, fun c inside => ?_, ?_⟩
  · rcases List.mem_append.1 inside with early | late
    · exact List.mem_takeWhile_imp early
    · exact List.mem_rtakeWhile_imp late
  · rw [trim, List.append_assoc, List.rdropWhile_append_rtakeWhile, List.takeWhile_append_dropWhile]

variable {text : List Char} {sep : Char} {c : Char}

theorem not_space_of_head_trim (first : (trim text).head? = some c) : isSpace c = false := by
  obtain ⟨rest, front⟩ : ∃ rest, trim text ++ rest = text.dropWhile isSpace := List.rdropWhile_prefix _ _
  have nonempty : trim text ≠ [] := by
    rintro none_
    simp [none_] at first
  have same : (text.dropWhile isSpace).head? = some c := by
    rw [← front, List.head?_append_of_ne_nil _ nonempty, first]
  have stopped := List.head?_dropWhile_not isSpace text
  rwa [same] at stopped

theorem not_space_of_getLast_trim (last : (trim text).getLast? = some c) : isSpace c = false := by
  have nonempty : trim text ≠ [] := by
    rintro none_
    simp [none_] at last
  rw [List.getLast?_eq_some_getLast nonempty, some.injEq] at last
  simpa [← last, trim] using List.rdropWhile_last_not _ _ nonempty

/-- A text without a blank at either end is trimmed. -/
theorem trim_eq_self (front : ∀ c ∈ text.head?, isSpace c = false)
    (back : ∀ c ∈ text.getLast?, isSpace c = false) : trim text = text := by
  have starts : text.dropWhile isSpace = text := by
    cases text with
    | nil => rfl
    | cons c rest => rw [List.dropWhile_cons_of_neg (by simp [front c rfl])]
  rw [trim, starts]
  refine List.rdropWhile_eq_self_iff.2 fun nonempty => ?_
  simp [back _ (List.getLast?_eq_some_getLast nonempty)]

@[simp] theorem trim_trim (text : List Char) : trim (trim text) = trim text :=
  trim_eq_self (fun _ first => not_space_of_head_trim first) fun _ last => not_space_of_getLast_trim last

theorem head_trim (first : text.head? = some c) (letter : isSpace c = false) : (trim text).head? = some c := by
  obtain ⟨front, back, blank, split⟩ := trim_decomposition text
  cases front with
  | cons x front =>
    rw [split] at first
    obtain rfl : x = c := by simpa using first
    rw [blank x (by simp)] at letter
    cases letter
  | nil =>
    cases middle : trim text with
    | cons x rest =>
      rw [split, middle] at first
      simpa using first
    | nil =>
      rw [split, middle] at first
      rw [blank c (List.mem_append_right _ (List.mem_of_head? (by simpa using first)))] at letter
      cases letter

theorem lastSegment_of_not_mem (whole : sep ∉ text) : lastSegment sep text = text := by
  refine List.rtakeWhile_eq_self_iff.2 fun c inside => ?_
  have other : c ≠ sep := fun same => whole (same ▸ inside)
  simpa using other

theorem not_mem_lastSegment (sep : Char) (text : List Char) : sep ∉ lastSegment sep text :=
  fun inside => by simpa using List.mem_rtakeWhile_imp inside

theorem lastSegment_append_cons (front : List Char) {back : List Char} (last : sep ∉ back) :
    lastSegment sep (front ++ sep :: back) = back := by
  have keeps : ∀ c ∈ back.reverse, decide (c ≠ sep) = true := fun c inside => by
    have other : c ≠ sep := fun same => last (same ▸ List.mem_reverse.1 inside)
    simpa using other
  rw [lastSegment, List.rtakeWhile, List.reverse_append, List.reverse_cons, List.append_assoc,
    List.takeWhile_append_of_pos keeps, List.singleton_append,
    List.takeWhile_cons_of_neg (by simp), List.append_nil, List.reverse_reverse]

/-- The separator stands right in front of the last segment. -/
theorem exists_lastSegment (inside : sep ∈ text) : ∃ front, text = front ++ sep :: lastSegment sep text := by
  obtain ⟨back, front, split, last⟩ := List.eq_append_cons_of_mem (List.mem_reverse.2 inside)
  have cut : text = front.reverse ++ sep :: back.reverse := by
    have flipped := congrArg List.reverse split
    simpa using flipped
  refine ⟨front.reverse, ?_⟩
  rw [cut, lastSegment_append_cons _ (by simpa using last)]

theorem lastSegment_append (front : List Char) {back : List Char} (inside : sep ∈ back) :
    lastSegment sep (front ++ back) = lastSegment sep back := by
  obtain ⟨middle, split⟩ := exists_lastSegment inside
  conv_lhs => rw [split, ← List.append_assoc]
  exact lastSegment_append_cons _ (not_mem_lastSegment sep back)

end Text

namespace Casing

open Text (isSpace trim removePrefix lastSegment)

variable {boundary : Char → Prop} (casing : Casing boundary)

theorem lower_trim (spaces : ∀ c, isSpace c = true → boundary c) (text : List Char) :
    casing.lower (trim text) = trim (casing.lower text) := by
  rw [trim, trim, casing.lower_rdropWhile spaces, casing.lower_dropWhile spaces]

/-- Trimming that does not show in lower case does nothing. -/
theorem trim_eq_self_of_lower (spaces : ∀ c, isSpace c = true → boundary c) {text : List Char}
    (same : casing.lower (trim text) = casing.lower text) : trim text = text := by
  obtain ⟨front, back, blank, split⟩ := Text.trim_decomposition text
  have cuts : ∀ c ∈ front ++ back, boundary c := fun c inside => spaces c (blank c inside)
  have whole : casing.lower text = front ++ casing.lower (trim text) ++ back := by
    conv_lhs => rw [split]
    rw [casing.lower_append_boundaries fun c inside => cuts c (List.mem_append_right _ inside),
      casing.lower_boundaries_append fun c inside => cuts c (List.mem_append_left _ inside)]
  have lengths := congrArg List.length whole
  rw [← same] at lengths
  simp only [List.length_append] at lengths
  have none_ : front = [] ∧ back = [] :=
    ⟨List.length_eq_zero_iff.1 (by omega), List.length_eq_zero_iff.1 (by omega)⟩
  conv_rhs => rw [split, none_.1, none_.2]
  simp

theorem lower_removePrefix {c : Char} (cut : boundary c) (text : List Char) :
    casing.lower (removePrefix c text) = removePrefix c (casing.lower text) := by
  cases text with
  | nil => simp [removePrefix]
  | cons x rest =>
    by_cases same : x = c
    · subst same
      simp [removePrefix, casing.lower_cons cut]
    · have other : (casing.lower (x :: rest)).head? ≠ some c := by
        rw [Ne, casing.head_lower cut]
        exact fun first => same (some.inj first)
      rw [removePrefix, if_neg same]
      cases lowered : casing.lower (x :: rest) with
      | nil => rfl
      | cons y back =>
        rw [lowered] at other
        rw [removePrefix, if_neg fun first => other (by rw [first]; rfl)]

theorem lower_lastSegment {sep : Char} (cut : boundary sep) (text : List Char) :
    casing.lower (lastSegment sep text) = lastSegment sep (casing.lower text) := by
  by_cases whole : sep ∉ text
  · rw [Text.lastSegment_of_not_mem whole, Text.lastSegment_of_not_mem ((casing.mem_lower cut text).not.2 whole)]
  obtain ⟨front, split⟩ := Text.exists_lastSegment (not_not.1 whole)
  have last : sep ∉ casing.lower (lastSegment sep text) :=
    (casing.mem_lower cut _).not.2 (Text.not_mem_lastSegment sep text)
  conv_rhs => rw [split, casing.apart _ sep _ cut]
  rw [Text.lastSegment_append_cons _ last]

end Casing

end BandSdk.Theory

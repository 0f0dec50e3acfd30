/-
# Theory.Text -- Python's text methods

The methods of `str` that split and trim, over lists of characters where that is where
they are used.
-/
import Mathlib.Data.List.DropRight

namespace BandSdk.Theory.Text

/-- Text characters `str.strip` removes. -/
def isSpace (x : Char) : Bool :=
  let code := x.toNat
  (9 ≤ code && code ≤ 13) || (28 ≤ code && code ≤ 32) || code = 0x85 || code = 0xA0 ||
    code = 0x1680 || (0x2000 ≤ code && code ≤ 0x200A) || code = 0x2028 || code = 0x2029 ||
    code = 0x202F || code = 0x205F || code = 0x3000

def strip (text : String) : String :=
  String.ofList ((text.toList.dropWhile isSpace).reverse.dropWhile isSpace).reverse

/-- The characters that stay under `strip`. -/
def stripChars (text : List Char) : List Char := (text.dropWhile isSpace).rdropWhile isSpace

theorem strip_toList (text : String) : (strip text).toList = stripChars text.toList := by
  rw [strip, String.toList_ofList]
  rfl

theorem stripChars_stripChars (text : List Char) : stripChars (stripChars text) = stripChars text := by
  have leading : (stripChars text).dropWhile isSpace = stripChars text := by
    unfold stripChars
    cases kept : text.dropWhile isSpace with
    | nil => rfl
    | cons x rest =>
      have visible : isSpace x = false := by
        have head := List.head?_dropWhile_not isSpace text
        simpa [kept] using head
      -- the first character stays, so there is nothing to drop in front
      obtain ⟨tail, shape⟩ : ∃ tail, (x :: rest).rdropWhile isSpace = x :: tail := by
        cases shape : (x :: rest).rdropWhile isSpace with
        | nil =>
          have spaces := List.rdropWhile_eq_nil_iff.1 shape x List.mem_cons_self
          simp [visible] at spaces
        | cons y tail =>
          obtain ⟨more, whole⟩ : (y :: tail) <+: (x :: rest) := shape ▸ List.rdropWhile_prefix isSpace _
          obtain ⟨rfl, -⟩ := List.cons.inj whole
          exact ⟨tail, rfl⟩
      rw [shape, List.dropWhile_cons_of_neg (by simp [visible])]
  rw [stripChars, leading, stripChars, List.rdropWhile_idempotent]

@[simp] theorem strip_strip (text : String) : strip (strip text) = strip text := by
  apply String.toList_injective
  rw [strip_toList, strip_toList, stripChars_stripChars]

/-- Spaces in front make no difference. -/
theorem strip_append_left {spaces : String} (blank : ∀ x ∈ spaces.toList, isSpace x = true) (text : String) :
    strip (spaces ++ text) = strip text := by
  apply String.toList_injective
  rw [strip_toList, strip_toList, String.toList_append, stripChars, List.dropWhile_append_of_pos blank]
  rfl

def splitFrom (word : List Char) : List Char → List String
  | [] => if word = [] then [] else [String.ofList word]
  | x :: rest =>
    if isSpace x then
      if word = [] then splitFrom [] rest else String.ofList word :: splitFrom [] rest
    else splitFrom (word ++ [x]) rest

/-- `str.split()`. -/
def split (text : String) : List String := splitFrom [] text.toList

/-- Where `str.splitlines` breaks, besides between `\r` and `\n`. -/
def isLineBreak (x : Char) : Bool :=
  let code := x.toNat
  (10 ≤ code && code ≤ 13) || (28 ≤ code && code ≤ 30) || code = 0x85 || code = 0x2028 || code = 0x2029

def splitlinesFrom (line : List Char) : List Char → List String
  | [] => if line = [] then [] else [String.ofList line]
  | '\r' :: '\n' :: rest => String.ofList line :: splitlinesFrom [] rest
  | x :: rest =>
    if isLineBreak x then String.ofList line :: splitlinesFrom [] rest
    else splitlinesFrom (line ++ [x]) rest

def splitlines (text : String) : List String := splitlinesFrom [] text.toList

/-- `text.lstrip(x)` for one character. -/
def lstrip (x : Char) (text : String) : String := String.ofList (text.toList.dropWhile (· = x))

/-- `str.lower` on ASCII letters.  No character outside ASCII becomes an ASCII letter but `k` and,
with a combining dot, `i`: a comparison with a word without these two is exact. -/
def lower (text : String) : String := String.ofList (text.toList.map Char.toLower)

end BandSdk.Theory.Text

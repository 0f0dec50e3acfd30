/-
# Theory.JsonText -- JSON as text: printing, reading, and that they agree

`dumps` prints a value the way a JSON printer with `", "` and `": "` between the parts
does when it keeps characters outside ASCII; `loads` reads a text.  Numbers are kept
as they are written, an object as its members in order.

* `loads_dumps`: reading what was printed gives the value back;
* `shown_print`: no control character is ever printed, so a value is one line.

`loads` reads less than all of JSON in one place: an escaped surrogate is no `Char`.
-/
import Mathlib.Data.String.Basic

namespace BandSdk.Theory.JsonText

/-! ## Numbers -/

def isNumberChar (x : Char) : Bool := x.isDigit || x = '-' || x = '+' || x = '.' || x = 'e' || x = 'E'

/-- What follows one or more digits. -/
def afterDigits : List Char → Option (List Char)
  | x :: rest => if x.isDigit then some (rest.dropWhile Char.isDigit) else none
  | [] => none

def afterInteger : List Char → Option (List Char)
  | '0' :: rest => some rest
  | text => afterDigits text

def afterFraction : List Char → Option (List Char)
  | '.' :: rest => afterDigits rest
  | text => some text

def afterExponent : List Char → Option (List Char)
  | x :: y :: rest =>
    if x = 'e' || x = 'E' then
      if y = '+' || y = '-' then afterDigits rest else afterDigits (y :: rest)
    else some (x :: y :: rest)
  | text => some text

/-- `-?(0|[1-9][0-9]*)(\.[0-9]+)?([eE][-+]?[0-9]+)?`, all of it. -/
def isNumeral (lexeme : List Char) : Bool :=
  lexeme.all isNumberChar &&
    ((afterInteger (if lexeme.head? = some '-' then lexeme.tail else lexeme)).bind
      afterFraction).bind afterExponent == some []

/-- A number, as it is written. -/
abbrev Numeral := { lexeme : List Char // isNumeral lexeme = true }

/-! ## Values -/

inductive Value where
  | null
  | bool (value : Bool)
  | number (value : Numeral)
  | str (value : String)
  | arr (items : List Value)
  | obj (members : List (String × Value))

/-! ## Printing -/

/-- A character inside quotes. -/
def escape (x : Char) : List Char :=
  if x = '"' then ['\\', '"']
  else if x = '\\' then ['\\', '\\']
  else if x = '\n' then ['\\', 'n']
  else if x = '\r' then ['\\', 'r']
  else if x = '\t' then ['\\', 't']
  else if x.toNat = 8 then ['\\', 'b']
  else if x.toNat = 12 then ['\\', 'f']
  else if x.toNat < 32 then
    ['\\', 'u', '0', '0', Nat.digitChar (x.toNat / 16), Nat.digitChar (x.toNat % 16)]
  else [x]

/-- The text up to its closing quote. -/
def quoted (text : List Char) : List Char := text.flatMap escape ++ ['"']

mutual

def print : Value → List Char
  | .null => ['n', 'u', 'l', 'l']
  | .bool true => ['t', 'r', 'u', 'e']
  | .bool false => ['f', 'a', 'l', 's', 'e']
  | .number value => value.val
  | .str value => '"' :: quoted value.toList
  | .arr [] => ['[', ']']
  | .arr (item :: items) => '[' :: (print item ++ printItems items)
  | .obj [] => ['{', '}']
  | .obj ((key, value) :: members) =>
    '{' :: '"' :: (quoted key.toList ++ ':' :: ' ' :: (print value ++ printMembers members))

def printItems : List Value → List Char
  | [] => [']']
  | item :: items => ',' :: ' ' :: (print item ++ printItems items)

def printMembers : List (String × Value) → List Char
  | [] => ['}']
  | (key, value) :: members =>
    ',' :: ' ' :: '"' :: (quoted key.toList ++ ':' :: ' ' :: (print value ++ printMembers members))

end

def dumps (value : Value) : String := String.ofList (print value)

/-! ## Reading -/

def isWhite (x : Char) : Bool := x = ' ' || x = '\t' || x = '\n' || x = '\r'

def skip (text : List Char) : List Char := text.dropWhile isWhite

def hexDigit (x : Char) : Option Nat :=
  if '0' ≤ x ∧ x ≤ '9' then some (x.toNat - '0'.toNat)
  else if 'a' ≤ x ∧ x ≤ 'f' then some (x.toNat - 'a'.toNat + 10)
  else if 'A' ≤ x ∧ x ≤ 'F' then some (x.toNat - 'A'.toNat + 10)
  else none

/-- The character of four hexadecimal digits. -/
def hexChar (a b c d : Char) : Option Char := do
  let a ← hexDigit a
  let b ← hexDigit b
  let c ← hexDigit c
  let d ← hexDigit d
  let code := ((a * 16 + b) * 16 + c) * 16 + d
  if code.isValidChar then some (Char.ofNat code) else none

/-- The character behind a backslash. -/
def unescape (x : Char) : Option Char :=
  if x = '"' || x = '\\' || x = '/' then some x
  else if x = 'n' then some '\n'
  else if x = 'r' then some '\r'
  else if x = 't' then some '\t'
  else if x = 'b' then some (Char.ofNat 8)
  else if x = 'f' then some (Char.ofNat 12)
  else none

/-- Reads up to the closing quote. -/
def string : List Char → Option (List Char × List Char)
  | [] => none
  | '"' :: rest => some ([], rest)
  | '\\' :: 'u' :: a :: b :: c :: d :: rest =>
    (hexChar a b c d).bind fun x => (string rest).map fun (text, rest) => (x :: text, rest)
  | '\\' :: x :: rest =>
    (unescape x).bind fun x => (string rest).map fun (text, rest) => (x :: text, rest)
  | x :: rest =>
    if x.toNat < 32 || x = '\\' then none
    else (string rest).map fun (text, rest) => (x :: text, rest)

def number (text : List Char) : Option (Value × List Char) :=
  if valid : isNumeral (text.takeWhile isNumberChar) = true then
    some (.number ⟨text.takeWhile isNumberChar, valid⟩, text.dropWhile isNumberChar)
  else none

def keyword (word : List Char) (value : Value) (text : List Char) : Option (Value × List Char) :=
  (text.dropPrefix? word).map fun rest => (value, rest)

mutual

/-- Reads one value and answers it with what follows; `fuel` bounds the nesting. -/
def value : Nat → List Char → Option (Value × List Char)
  | 0, _ => none
  | fuel + 1, text =>
    match skip text with
    | '"' :: rest => (string rest).map fun (text, rest) => (.str (String.ofList text), rest)
    | '[' :: rest =>
      match skip rest with
      | ']' :: rest => some (.arr [], rest)
      | rest => (items fuel rest).map fun (items, rest) => (.arr items, rest)
    | '{' :: rest =>
      match skip rest with
      | '}' :: rest => some (.obj [], rest)
      | rest => (members fuel rest).map fun (members, rest) => (.obj members, rest)
    | 'n' :: rest => keyword ['u', 'l', 'l'] .null rest
    | 't' :: rest => keyword ['r', 'u', 'e'] (.bool true) rest
    | 'f' :: rest => keyword ['a', 'l', 's', 'e'] (.bool false) rest
    | rest => number rest

/-- One or more items, up to the closing bracket. -/
def items : Nat → List Char → Option (List Value × List Char)
  | 0, _ => none
  | fuel + 1, text => do
      let (item, rest) ← value fuel text
      match skip rest with
      | ',' :: rest =>
        let (others, rest) ← items fuel rest
        return (item :: others, rest)
      | ']' :: rest => return ([item], rest)
      | _ => none

/-- One or more members, up to the closing brace. -/
def members : Nat → List Char → Option (List (String × Value) × List Char)
  | 0, _ => none
  | fuel + 1, text =>
    match skip text with
    | '"' :: rest => do
        let (key, rest) ← string rest
        match skip rest with
        | ':' :: rest =>
          let (item, rest) ← value fuel rest
          match skip rest with
          | ',' :: rest =>
            let (others, rest) ← members fuel rest
            return ((String.ofList key, item) :: others, rest)
          | '}' :: rest => return ([(String.ofList key, item)], rest)
          | _ => none
        | _ => none
    | _ => none

end

/-- Reads a whole text as one value. -/
def loads (text : String) : Option Value := do
  let (item, rest) ← value text.toList.length text.toList
  if skip rest = [] then some item else none

/-! ## Strings -/

theorem hexDigit_digitChar : ∀ n < 16, hexDigit (Nat.digitChar n) = some n := by decide

variable {x : Char} (fuel : Nat) (text : List Char) {rest : List Char}

theorem hexChar_control (low : x.toNat < 32) :
    hexChar '0' '0' (Nat.digitChar (x.toNat / 16)) (Nat.digitChar (x.toNat % 16)) = some x := by
  have high := hexDigit_digitChar (x.toNat / 16) (by omega)
  have unit := hexDigit_digitChar (x.toNat % 16) (by omega)
  have zero : hexDigit '0' = some 0 := rfl
  have code : x.toNat / 16 * 16 + x.toNat % 16 = x.toNat := Nat.div_add_mod' ..
  have valid : x.toNat.isValidChar := .inl (by omega)
  simp only [hexChar, high, unit, zero, Option.bind_eq_bind, Option.bind_some, Nat.zero_mul, Nat.zero_add,
    code, valid, if_true, Char.ofNat_toNat]

theorem string_plain (quote : x ≠ '"') (slash : x ≠ '\\') (shown : ¬ x.toNat < 32) (rest : List Char) :
    string (x :: rest) = (string rest).map fun (text, rest) => (x :: text, rest) := by
  rw [string.eq_def]
  split <;> simp_all

/-- What `escape` writes is read as the character. -/
theorem string_escape (x : Char) (rest : List Char) :
    string (escape x ++ rest) = (string rest).map fun (text, rest) => (x :: text, rest) := by
  unfold escape
  split_ifs with quote slash line return_ tab back form low
  · simp [string, unescape, quote]
  · simp [string, unescape, slash]
  · simp [string, unescape, line]
  · simp [string, unescape, return_]
  · simp [string, unescape, tab]
  · obtain rfl : x = Char.ofNat 8 := by rw [← back, Char.ofNat_toNat]
    simp [string, unescape]
  · obtain rfl : x = Char.ofNat 12 := by rw [← form, Char.ofNat_toNat]
    simp [string, unescape]
  · simp [string, hexChar_control low]
  · exact string_plain quote slash low rest

theorem string_quoted (text rest : List Char) : string (quoted text ++ rest) = some (text, rest) := by
  induction text with
  | nil => simp [quoted, string]
  | cons x text ih =>
    have split : quoted (x :: text) ++ rest = escape x ++ (quoted text ++ rest) := by simp [quoted]
    rw [split, string_escape, ih]
    rfl

/-! ## Values -/

/-- A text that cannot go on with a number. -/
def Ends (rest : List Char) : Prop := ∀ x ∈ rest.head?, isNumberChar x = false

theorem skip_of_visible (visible : isWhite x = false) (rest : List Char) : skip (x :: rest) = x :: rest := by
  simp [skip, visible]

theorem number_append (numeral : Numeral) (ends : Ends rest) :
    number (numeral.val ++ rest) = some (.number numeral, rest) := by
  obtain ⟨lexeme, valid⟩ := numeral
  have all : ∀ x ∈ lexeme, isNumberChar x = true := by
    simpa using (Bool.and_eq_true_iff.1 valid).1
  have stop : rest.takeWhile isNumberChar = [] ∧ rest.dropWhile isNumberChar = rest := by
    cases rest with
    | nil => simp
    | cons x rest => simp [ends x rfl]
  simp [number, List.takeWhile_append_of_pos all, List.dropWhile_append_of_pos all, stop, valid]

/-- A numeral starts with a digit or a sign. -/
theorem Numeral.head (numeral : Numeral) : ∃ x rest, numeral.val = x :: rest ∧ isNumberChar x = true := by
  obtain ⟨lexeme, valid⟩ := numeral
  cases lexeme with
  | nil => exact absurd valid (by decide)
  | cons x lexeme =>
    have all := (Bool.and_eq_true_iff.1 valid).1
    exact ⟨x, lexeme, rfl, List.all_eq_true.1 all x List.mem_cons_self⟩

theorem visible_of_number (digit : isNumberChar x = true) : isWhite x = false := by
  by_contra white
  simp only [isWhite, Bool.not_eq_false, Bool.or_eq_true, decide_eq_true_eq] at white
  rcases white with ((rfl | rfl) | rfl) | rfl <;> exact absurd digit (by decide)

theorem value_numeral (numeral : Numeral) (ends : Ends rest) (fuel : Nat) :
    value (fuel + 1) (numeral.val ++ rest) = some (.number numeral, rest) := by
  have read := number_append numeral ends
  obtain ⟨x, more, shape, digit⟩ := numeral.head
  rw [shape, List.cons_append] at read ⊢
  rw [value, skip_of_visible (visible_of_number digit)]
  -- no character of a number opens another kind of value
  split <;> simp_all [isNumberChar]

theorem ends_printItems (others : List Value) (rest : List Char) : Ends (printItems others ++ rest) := by
  cases others <;> simp [Ends, printItems, isNumberChar, Char.isDigit]

theorem ends_printMembers (others : List (String × Value)) (rest : List Char) :
    Ends (printMembers others ++ rest) := by
  rcases others with _ | ⟨⟨key, item⟩, others⟩ <;>
    simp [Ends, printMembers, isNumberChar, Char.isDigit]

/-- A space in front of a value changes nothing. -/
theorem value_space : value fuel (' ' :: text) = value fuel text := by
  have same : skip (' ' :: text) = skip text := rfl
  cases fuel with
  | zero => rw [value, value]
  | succ fuel => rw [value, value, same]

theorem items_space : items fuel (' ' :: text) = items fuel text := by
  cases fuel with
  | zero => rw [items, items]
  | succ fuel => rw [items, items, value_space]

theorem members_space : members fuel (' ' :: text) = members fuel text := by
  have same : skip (' ' :: text) = skip text := rfl
  cases fuel with
  | zero => rw [members, members]
  | succ fuel => rw [members, members, same]

/-- With this fuel every value that is no longer than it is read back. -/
def ReadsValue (fuel : Nat) : Prop :=
  ∀ (v : Value) (rest : List Char), (print v).length ≤ fuel → Ends rest →
    value fuel (print v ++ rest) = some (v, rest)

def ReadsItems (fuel : Nat) : Prop :=
  ∀ (item : Value) (others : List Value) (rest : List Char),
    (print item).length + (printItems others).length ≤ fuel →
      items fuel (print item ++ (printItems others ++ rest)) = some (item :: others, rest)

def ReadsMembers (fuel : Nat) : Prop :=
  ∀ (key : String) (item : Value) (others : List (String × Value)) (rest : List Char),
    (print item).length + (printMembers others).length ≤ fuel →
      members fuel ('"' :: (quoted key.toList ++ ':' :: ' ' :: (print item ++
        (printMembers others ++ rest)))) = some ((key, item) :: others, rest)

theorem readsItems_step {fuel : Nat} (readsValue : ReadsValue fuel) (readsItems : ReadsItems fuel) :
    ReadsItems (fuel + 1) := by
  intro item others rest enough
  have closes : 1 ≤ (printItems others).length := by cases others <;> simp [printItems]
  rw [items, readsValue item _ (by omega) (ends_printItems others rest)]
  cases others with
  | nil => rfl
  | cons next others =>
    have more : items fuel (print next ++ (printItems others ++ rest)) = some (next :: others, rest) := by
      apply readsItems
      simp only [printItems, List.length_cons, List.length_append] at enough
      omega
    have comma : skip (printItems (next :: others) ++ rest) =
        ',' :: ' ' :: (print next ++ (printItems others ++ rest)) := by
      simp [printItems, skip, isWhite]
    simp only [Option.bind_eq_bind, Option.bind_some, comma, items_space, more]
    rfl

theorem readsMembers_step {fuel : Nat} (readsValue : ReadsValue fuel)
    (readsMembers : ReadsMembers fuel) : ReadsMembers (fuel + 1) := by
  intro key item others rest enough
  have closes : 1 ≤ (printMembers others).length := by
    rcases others with _ | ⟨⟨name, next⟩, others⟩ <;> simp [printMembers]
  have read := readsValue item (printMembers others ++ rest) (by omega) (ends_printMembers others rest)
  have quote (text : List Char) : skip ('"' :: text) = '"' :: text := skip_of_visible rfl text
  have colon (text : List Char) : skip (':' :: text) = ':' :: text := skip_of_visible rfl text
  rw [members]
  simp only [quote, string_quoted, Option.bind_eq_bind, Option.bind_some, colon, value_space, read,
    String.ofList_toList]
  rcases others with _ | ⟨⟨name, next⟩, others⟩
  · rfl
  have more := readsMembers name next others rest (by
    simp only [printMembers, List.length_cons, List.length_append] at enough
    omega)
  have comma : skip (printMembers ((name, next) :: others) ++ rest) =
      ',' :: ' ' :: '"' :: (quoted name.toList ++ ':' :: ' ' :: (print next ++
        (printMembers others ++ rest))) := by
    simp [printMembers, skip, isWhite]
  simp only [comma, members_space, more, Option.bind_some]
  rfl

/-- What is printed starts with no white space and closes nothing. -/
theorem head_print (v : Value) : ∃ x rest, print v = x :: rest ∧ isWhite x = false ∧ x ≠ ']' := by
  cases v with
  | null => exact ⟨'n', _, rfl, rfl, by decide⟩
  | bool b => cases b with
    | true => exact ⟨'t', _, rfl, rfl, by decide⟩
    | false => exact ⟨'f', _, rfl, rfl, by decide⟩
  | number numeral =>
    obtain ⟨x, rest, shape, digit⟩ := numeral.head
    refine ⟨x, rest, shape, visible_of_number digit, ?_⟩
    rintro rfl
    exact absurd digit (by decide)
  | str said => exact ⟨'"', _, rfl, rfl, by decide⟩
  | arr listed => cases listed <;> exact ⟨'[', _, rfl, rfl, by decide⟩
  | obj fields => rcases fields with _ | ⟨⟨key, item⟩, fields⟩ <;> exact ⟨'{', _, rfl, rfl, by decide⟩

theorem readsValue_step {fuel : Nat} (readsItems : ReadsItems fuel) (readsMembers : ReadsMembers fuel) :
    ReadsValue (fuel + 1) := by
  intro v rest enough ends
  cases v with
  | null => simp [print, value, skip, isWhite, keyword, List.dropPrefix?]
  | bool b => cases b <;> simp [print, value, skip, isWhite, keyword, List.dropPrefix?]
  | number numeral => exact value_numeral numeral ends fuel
  | str said =>
    have quote (text : List Char) : skip ('"' :: text) = '"' :: text := skip_of_visible rfl text
    rw [print, List.cons_append, value, quote]
    simp only [string_quoted, Option.map_some, String.ofList_toList]
  | arr listed =>
    cases listed with
    | nil => rfl
    | cons item others =>
      have read := readsItems item others rest (by
        simp only [print, List.length_cons, List.length_append] at enough
        omega)
      have bracket (text : List Char) : skip ('[' :: text) = '[' :: text := skip_of_visible rfl text
      obtain ⟨x, more, shape, visible, closes⟩ := head_print item
      have opened : skip (print item ++ (printItems others ++ rest)) =
          print item ++ (printItems others ++ rest) := by
        rw [shape]
        exact skip_of_visible visible _
      rw [print, List.cons_append, List.append_assoc, value, bracket]
      simp only [opened]
      rw [shape, List.cons_append] at read ⊢
      split
      · next more_ equal => exact absurd (List.cons.inj equal).1 closes
      · rw [read]
        rfl
  | obj fields =>
    rcases fields with _ | ⟨⟨key, item⟩, others⟩
    · rfl
    have read := readsMembers key item others rest (by
      simp only [print, List.length_cons, List.length_append] at enough
      omega)
    have brace (text : List Char) : skip ('{' :: text) = '{' :: text := skip_of_visible rfl text
    have quote (text : List Char) : skip ('"' :: text) = '"' :: text := skip_of_visible rfl text
    rw [print, List.cons_append, List.cons_append, value, brace]
    simp only [List.append_assoc, List.cons_append, quote]
    split
    · next more equal => exact absurd (List.cons.inj equal).1 (by decide)
    · rw [read]
      rfl

theorem reads : ReadsValue fuel ∧ ReadsItems fuel ∧ ReadsMembers fuel := by
  induction fuel with
  | zero =>
    refine ⟨fun v rest enough _ => ?_, fun item others rest enough => ?_, fun key item others rest enough => ?_⟩
    · obtain ⟨x, more, shape, -⟩ := head_print v
      simp [shape] at enough
    · obtain ⟨x, more, shape, -⟩ := head_print item
      simp [shape] at enough
    · obtain ⟨x, more, shape, -⟩ := head_print item
      simp [shape] at enough
  | succ fuel ih =>
    obtain ⟨readsValue, readsItems, readsMembers⟩ := ih
    exact ⟨readsValue_step readsItems readsMembers, readsItems_step readsValue readsItems,
      readsMembers_step readsValue readsMembers⟩

/-- **What is printed is read back.** -/
theorem loads_dumps (v : Value) : loads (dumps v) = some v := by
  have read := (reads (print v).length).1 v [] le_rfl (by simp [Ends])
  rw [List.append_nil] at read
  have nothing : skip [] = [] := rfl
  simp only [loads, dumps, String.toList_ofList, read, Option.bind_eq_bind, Option.bind_some, nothing, if_true]

/-! ## One line -/

/-- Nothing that is printed is a control character. -/
def Shown (text : List Char) : Prop := ∀ x ∈ text, 32 ≤ x.toNat

theorem shown_append {l r : List Char} : Shown (l ++ r) ↔ Shown l ∧ Shown r := by
  simp only [Shown, List.mem_append, or_imp, forall_and]

theorem shown_cons : Shown (x :: rest) ↔ 32 ≤ x.toNat ∧ Shown rest :=
  List.forall_mem_cons

theorem number_shown (digit : isNumberChar x = true) : 32 ≤ x.toNat := by
  simp only [isNumberChar, Bool.or_eq_true, decide_eq_true_eq] at digit
  rcases digit with ((((digit | rfl) | rfl) | rfl) | rfl) | rfl
  · simp only [Char.isDigit, Bool.and_eq_true, decide_eq_true_eq, ge_iff_le] at digit
    have least : 48 ≤ x.toNat := digit.1
    omega
  all_goals decide

theorem digitChar_shown : ∀ n < 16, 32 ≤ (Nat.digitChar n).toNat := by decide

theorem shown_escape (x : Char) : Shown (escape x) := by
  unfold escape
  split_ifs with quote slash line return_ tab back form low
  all_goals simp only [Shown, List.forall_mem_cons, List.not_mem_nil, false_imp_iff, implies_true, and_true]
  all_goals try decide
  · have high := digitChar_shown (x.toNat / 16) (by omega)
    have unit := digitChar_shown (x.toNat % 16) (by omega)
    exact ⟨by decide, by decide, by decide, by decide, high, unit⟩
  · omega

theorem shown_quoted : Shown (quoted text) := by
  rw [quoted, shown_append]
  constructor
  · intro x inside
    obtain ⟨y, -, escaped⟩ := List.mem_flatMap.1 inside
    exact shown_escape y x escaped
  · simp [Shown]

mutual

theorem shown_print : ∀ v : Value, Shown (print v)
  | .null => by simp [print, Shown]
  | .bool true => by simp [print, Shown]
  | .bool false => by simp [print, Shown]
  | .number numeral => by
      intro x inside
      have all := (Bool.and_eq_true_iff.1 numeral.property).1
      exact number_shown (List.all_eq_true.1 all x inside)
  | .str said => by simp [print, shown_cons, shown_quoted]
  | .arr [] => by simp [print, Shown]
  | .arr (item :: others) => by
      have first := shown_print item
      have more := shown_printItems others
      simp [print, shown_cons, shown_append, first, more]
  | .obj [] => by simp [print, Shown]
  | .obj ((key, item) :: others) => by
      have first := shown_print item
      have more := shown_printMembers others
      simp [print, shown_cons, shown_append, shown_quoted, first, more]

theorem shown_printItems : ∀ others : List Value, Shown (printItems others)
  | [] => by simp [printItems, Shown]
  | item :: others => by
      have first := shown_print item
      have more := shown_printItems others
      simp [printItems, shown_cons, shown_append, first, more]

theorem shown_printMembers : ∀ others : List (String × Value), Shown (printMembers others)
  | [] => by simp [printMembers, Shown]
  | (key, item) :: others => by
      have first := shown_print item
      have more := shown_printMembers others
      simp [printMembers, shown_cons, shown_append, shown_quoted, first, more]

end

end BandSdk.Theory.JsonText

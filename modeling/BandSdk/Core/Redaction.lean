/-
# Core.Redaction -- credentials hidden in failure data

`redactCredentialsDeep` walks a nested value.  A string, dict or list under a key that
names a credential is hidden whole; every other string is redacted as text, the keys
too.  Two keys may become one by that: `assignRedacted` then stores the later entry
under a key with a number.

How a text is redacted (`redact_credentials`) is a parameter: nothing here depends on
it.  `Alike` are the values that differ only in what is hidden whole; `Keeps` is what
redaction leaves of a value, entry by entry.
-/
import BandSdk.Theory.Lists
import BandSdk.Theory.Text

namespace BandSdk.Core

open BandSdk.Theory List

/-! ## Credential fields -/

/-- A dict's key: a string, or a key of another type. -/
inductive Key (κ : Type) where
  | str (text : String)
  | other (key : κ)
  deriving DecidableEq

/-- A nested value; `other` is any other scalar. -/
inductive Value (κ σ : Type) where
  | str (text : String)
  | dict (entries : List (Key κ × Value κ σ))
  | list (items : List (Value κ σ))
  | other (scalar : σ)

def redactedText : String := "[REDACTED]"

/-- The letters `re.IGNORECASE` takes for one another. -/
def ignoreCase (x : Char) : Char :=
  if x.toNat = 0x130 || x.toNat = 0x131 then 'i'
  else if x.toNat = 0x17F then 's'
  else if x.toNat = 0x212A then 'k'
  else x.toLower

/-- `_SEPARATOR`: white space within a line, an underscore or a dash. -/
def isSeparator (x : Char) : Bool :=
  (Text.isSpace x && x != '\r' && x != '\n') || x = '_' || x = '-'

/-- `_CREDENTIAL_FIELD_NAMES`, without separators. -/
def credentialFieldNames : List String :=
  ["token", "authorization", "apikey", "accesskey", "secret", "secretkey", "password", "passwd",
    "privatekey", "sessionkey", "auth", "credential", "cookie"]

/-- `(?:names)s?(?:value)?$`, searched in the key without its separators; `$` also
stands before a newline at the end. -/
def isCredentialText (text : String) : Bool :=
  let letters := (text.toList.filter (!isSeparator ·)).map ignoreCase
  credentialFieldNames.any fun name =>
    ["", "s"].any fun plural => ["", "value"].any fun value => ["", "\n"].any fun end_ =>
      (name.toList ++ plural.toList ++ value.toList ++ end_.toList).isSuffixOf letters

section Redact

variable {κ σ : Type} [DecidableEq κ] (redactCredentials : String → String) (str : κ → String)

def isCredentialField : Key κ → Bool
  | .str text => isCredentialText text
  | .other _ => false

/-- `isinstance(item, str | dict | list)`. -/
def Value.isContainer : Value κ σ → Bool
  | .str _ | .dict _ | .list _ => true
  | .other _ => false

/-- An entry whose value is hidden whole. -/
def isHidden (key : Key κ) (item : Value κ σ) : Bool := isCredentialField key && item.isContainer

/-! ## Redaction -/

/-- `f"{key}"`. -/
def Key.text : Key κ → String
  | .str text => text
  | .other key => str key

def suffixed (key : Key κ) (suffix : Nat) : Key κ := .str (key.text str ++ "#" ++ Nat.repr suffix)

/-- Store one entry, under a distinct key when it collides. -/
def assignRedacted (redacted : List (Key κ × Value κ σ)) (key : Key κ) (item : Value κ σ) :
    List (Key κ × Value κ σ) :=
  let taken := redacted.map Prod.fst
  if key ∉ taken then redacted ++ [(key, item)]
  else redacted ++ [(suffixed str key (firstFree (suffixed str key) taken taken.length 2), item)]

def redactKey : Key κ → Key κ
  | .str text => .str (redactCredentials text)
  | .other key => .other key

/-- A credential field's value is hidden; flags and counts keep their type.  `deep` is
what the walk makes of the value. -/
def redactFieldValue (key : Key κ) (item deep : Value κ σ) : Value κ σ :=
  if isHidden key item then .str redactedText else deep

mutual

def redactCredentialsDeep : Value κ σ → Value κ σ
  | .str text => .str (redactCredentials text)
  | .dict entries => .dict (redactEntries [] entries)
  | .list items => .list (redactItems items)
  | .other scalar => .other scalar

/-- The loop over a dict's entries. -/
def redactEntries (redacted : List (Key κ × Value κ σ)) :
    List (Key κ × Value κ σ) → List (Key κ × Value κ σ)
  | [] => redacted
  | (key, item) :: rest =>
    redactEntries
      (assignRedacted str redacted (redactKey redactCredentials key)
        (redactFieldValue key item (redactCredentialsDeep item)))
      rest

def redactItems : List (Value κ σ) → List (Value κ σ)
  | [] => []
  | item :: rest => redactCredentialsDeep item :: redactItems rest

end

variable {redactCredentials str}

/-! ## Values alike outside the credential fields -/

mutual

/-- Two values that differ at most in what is hidden whole. -/
def Alike : Value κ σ → Value κ σ → Prop
  | .str l, .str r => l = r
  | .dict l, .dict r => AlikeEntries l r
  | .list l, .list r => AlikeItems l r
  | .other l, .other r => l = r
  | _, _ => False

/-- The same keys in the same order; under each, both values are hidden or they are alike. -/
def AlikeEntries : List (Key κ × Value κ σ) → List (Key κ × Value κ σ) → Prop
  | [], [] => True
  | (key, l) :: others, (key', r) :: others' =>
    key = key' ∧ (isHidden key l = true ∧ isHidden key r = true ∨ Alike l r) ∧ AlikeEntries others others'
  | _, _ => False

def AlikeItems : List (Value κ σ) → List (Value κ σ) → Prop
  | [], [] => True
  | l :: others, r :: others' => Alike l r ∧ AlikeItems others others'
  | _, _ => False

end

omit [DecidableEq κ] in
/-- A value alike is of the same kind, so it is hidden under the same keys. -/
theorem Alike.isHidden_eq {l r : Value κ σ} (alike : Alike l r) (key : Key κ) :
    isHidden key l = isHidden key r := by
  cases l <;> cases r <;> first | rfl | exact absurd alike (by simp [Alike])

mutual

theorem redact_alike : ∀ {l r : Value κ σ}, Alike l r →
    redactCredentialsDeep redactCredentials str l = redactCredentialsDeep redactCredentials str r
  | .str l, .str r, alike => by rw [show l = r by simpa [Alike] using alike]
  | .dict l, .dict r, alike => by
      rw [redactCredentialsDeep, redactCredentialsDeep,
        redactEntries_alike [] (show AlikeEntries l r by simpa [Alike] using alike)]
  | .list l, .list r, alike => by
      rw [redactCredentialsDeep, redactCredentialsDeep,
        redactItems_alike (show AlikeItems l r by simpa [Alike] using alike)]
  | .other l, .other r, alike => by rw [show l = r by simpa [Alike] using alike]

theorem redactEntries_alike : ∀ {l r : List (Key κ × Value κ σ)}
    (redacted : List (Key κ × Value κ σ)), AlikeEntries l r →
      redactEntries redactCredentials str redacted l = redactEntries redactCredentials str redacted r
  | [], [], _, _ => rfl
  | (key, l) :: others, (key', r) :: others', redacted, alike => by
      obtain ⟨rfl, values, rest⟩ := alike
      have stored : redactFieldValue key l (redactCredentialsDeep redactCredentials str l) =
          redactFieldValue key r (redactCredentialsDeep redactCredentials str r) := by
        rcases values with ⟨left, right⟩ | alike
        · rw [redactFieldValue, redactFieldValue, if_pos left, if_pos right]
        · rw [redactFieldValue, redactFieldValue, alike.isHidden_eq key, redact_alike alike]
      rw [redactEntries, redactEntries, stored, redactEntries_alike _ rest]

theorem redactItems_alike : ∀ {l r : List (Value κ σ)}, AlikeItems l r →
    redactItems redactCredentials str l = redactItems redactCredentials str r
  | [], [], _ => rfl
  | l :: others, r :: others', alike => by
      rw [redactItems, redactItems, redact_alike alike.1, redactItems_alike alike.2]

end

/-! ## What redaction keeps of a dict -/

mutual

/-- What is left of a value: of a dict one entry for each of its entries, in order,
under keys that are still distinct; a value that is not hidden whole is kept likewise. -/
def Keeps : Value κ σ → Value κ σ → Prop
  | .str _, .str _ => True
  | .dict old, .dict new => (new.map Prod.fst).Nodup ∧ KeepsEntries old new
  | .list old, .list new => KeepsItems old new
  | .other old, .other new => old = new
  | _, _ => False

def KeepsEntries : List (Key κ × Value κ σ) → List (Key κ × Value κ σ) → Prop
  | [], [] => True
  | (key, old) :: others, (_, new) :: others' =>
    (if isHidden key old then new = .str redactedText else Keeps old new) ∧ KeepsEntries others others'
  | _, _ => False

def KeepsItems : List (Value κ σ) → List (Value κ σ) → Prop
  | [], [] => True
  | old :: others, new :: others' => Keeps old new ∧ KeepsItems others others'
  | _, _ => False

end

omit [DecidableEq κ] in
theorem KeepsEntries.length_eq : ∀ {old new : List (Key κ × Value κ σ)}, KeepsEntries old new →
    new.length = old.length
  | [], [], _ => rfl
  | (_, _) :: others, (_, _) :: others', kept => by
      rw [length_cons, length_cons, KeepsEntries.length_eq kept.2]

omit [DecidableEq κ] in
theorem suffixed_injective (key : Key κ) : Function.Injective (suffixed str key) := by
  intro m n same
  have texts : (key.text str ++ "#") ++ Nat.repr m = (key.text str ++ "#") ++ Nat.repr n := by
    simpa [suffixed] using same
  have digits : Nat.toDigits 10 m = Nat.toDigits 10 n := by
    have reprs : Nat.repr m = Nat.repr n := by simpa using texts
    simpa [Nat.repr] using congrArg String.toList reprs
  have back := congrArg (fun l => Nat.ofDigitChars 10 l 0) digits
  simpa only [Nat.ofDigitChars_ten_toDigits] using back

/-- Storing an entry adds one at the end, and the keys stay distinct. -/
theorem assignRedacted_spec {redacted : List (Key κ × Value κ σ)}
    (distinct : (redacted.map Prod.fst).Nodup) (key : Key κ) (item : Value κ σ) :
    ∃ stored, assignRedacted str redacted key item = redacted ++ [(stored, item)] ∧
      ((redacted ++ [(stored, item)]).map Prod.fst).Nodup := by
  have longer (stored : Key κ) (free : stored ∉ redacted.map Prod.fst) :
      ((redacted ++ [(stored, item)]).map Prod.fst).Nodup := by
    rw [map_append]
    exact distinct.append (nodup_singleton stored) (by simpa using free)
  by_cases taken : key ∈ redacted.map Prod.fst
  · refine ⟨_, if_neg (not_not.2 taken), longer _ ?_⟩
    exact firstFree_free (suffixed_injective key) 2
  · exact ⟨key, if_pos taken, longer key taken⟩

mutual

theorem keeps_redact : ∀ v : Value κ σ, Keeps v (redactCredentialsDeep redactCredentials str v)
  | .str _ => by simp [redactCredentialsDeep, Keeps]
  | .dict entries => by
      obtain ⟨new, whole, distinct, kept⟩ := keeps_redactEntries entries [] nodup_nil
      rw [redactCredentialsDeep, whole, Keeps]
      exact ⟨distinct, kept⟩
  | .list items => by
      rw [redactCredentialsDeep, Keeps]
      exact keeps_redactItems items
  | .other _ => by simp [redactCredentialsDeep, Keeps]

theorem keeps_redactEntries : ∀ (entries redacted : List (Key κ × Value κ σ)),
    (redacted.map Prod.fst).Nodup → ∃ new,
      redactEntries redactCredentials str redacted entries = redacted ++ new ∧
        ((redacted ++ new).map Prod.fst).Nodup ∧ KeepsEntries entries new
  | [], redacted, distinct => ⟨[], by simp [redactEntries], by simpa using distinct, trivial⟩
  | (key, item) :: rest, redacted, distinct => by
      obtain ⟨stored, assigned, longer⟩ := assignRedacted_spec distinct
        (redactKey redactCredentials key)
        (redactFieldValue key item (redactCredentialsDeep redactCredentials str item))
      obtain ⟨new, whole, kept, others⟩ := keeps_redactEntries rest _ longer
      rw [redactEntries, assigned, whole]
      refine ⟨_, append_assoc .., by simpa using kept, ?_, others⟩
      have deep := keeps_redact item
      by_cases hidden : isHidden key item = true
      · simp [hidden, redactFieldValue]
      · simpa [hidden, redactFieldValue] using deep

theorem keeps_redactItems : ∀ items : List (Value κ σ),
    KeepsItems items (redactItems redactCredentials str items)
  | [] => trivial
  | item :: rest => ⟨keeps_redact item, keeps_redactItems rest⟩

end

variable (redactCredentials str)

/-- **Redaction is blind to credentials and loses no entry.**  Values that differ only in
the strings, dicts and lists under credential names redact to the same.  And of every
value redaction leaves each dict outside such names with as many entries as it had,
in order and under distinct keys, a dict at the top among them. -/
theorem redaction_noninterference :
    (∀ l r : Value κ σ, Alike l r → redactCredentialsDeep redactCredentials str l =
      redactCredentialsDeep redactCredentials str r) ∧
    (∀ v : Value κ σ, Keeps v (redactCredentialsDeep redactCredentials str v)) ∧
    ∀ entries : List (Key κ × Value κ σ), ∃ new,
      redactCredentialsDeep redactCredentials str (.dict entries) = .dict new ∧
        new.length = entries.length := by
  refine ⟨fun _ _ alike => redact_alike alike, keeps_redact, fun entries => ?_⟩
  obtain ⟨new, whole, -, kept⟩ := keeps_redactEntries entries [] nodup_nil
  exact ⟨new, by rw [redactCredentialsDeep, whole, nil_append], kept.length_eq⟩

/-- Two credential texts become one key, and both entries stay. -/
example : redactCredentialsDeep (fun _ => "token=[REDACTED]") (fun _ : Unit => "")
    (.dict [(.str "token=a", .other (1 : Int)), (.str "token=b", .str "x"), (.str "apiKey", .list [])]) =
      .dict [(.str "token=[REDACTED]", .other 1), (.str "token=[REDACTED]#2", .str "token=[REDACTED]"),
        (.str "token=[REDACTED]#3", .str "[REDACTED]")] := by
  rfl

end Redact

end BandSdk.Core

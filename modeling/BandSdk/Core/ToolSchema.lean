/-
# Core.ToolSchema -- keywords taken out of a tool's JSON Schema

`sanitize` is the walk of the source.  It reads every dict it meets as a schema, but
for the dicts under five keywords, whose keys are names.  A schema also holds data,
under `default`, `examples`, `enum` and every keyword that takes no schema, and the
walk goes into it.

* `Cleaned` is what the walk is for: at schema positions, and only there, the dropped
  keywords are gone and `const` is an `enum` that accepts the same; all names and data
  are as they were.
* `Untouched` are the values that the walk leaves alone, and `Tame` the schemas whose
  data is like that.  `sanitize_meets_iff` says that on these, and only on these, the
  walk does what it is for.

The schema positions are those of the 2020-12 vocabularies, with `definitions`.  A number
is its value.
-/
import BandSdk.Theory.Keyed

namespace BandSdk.Core.ToolSchema

open BandSdk.Theory.Keyed List

/-! ## JSON -/

/-- A JSON value with numbers in `ν`; a dict is its entries in order. -/
inductive Node (ν : Type) where
  | null
  | bool (value : Bool)
  | num (value : ν)
  | str (value : String)
  | arr (items : List (Node ν))
  | obj (fields : List (String × Node ν))

namespace Node

variable {ν : Type}

def isAtom : Node ν → Bool
  | .arr _ | .obj _ => false
  | _ => true

def members : Node ν → List (Node ν)
  | .arr items => items
  | _ => []

mutual

/-- Induction with what is known of every item and every field. -/
@[elab_as_elim]
theorem nested {motive : Node ν → Prop} (atom : ∀ v : Node ν, v.isAtom = true → motive v)
    (arr : ∀ items : List (Node ν), (∀ item ∈ items, motive item) → motive (.arr items))
    (obj : ∀ fields : List (String × Node ν), (∀ field ∈ fields, motive field.2) →
      motive (.obj fields)) : ∀ v : Node ν, motive v
  | .null => atom .null rfl
  | .bool value => atom (.bool value) rfl
  | .num value => atom (.num value) rfl
  | .str value => atom (.str value) rfl
  | .arr items => arr items (nestedItems atom arr obj items)
  | .obj fields => obj fields (nestedFields atom arr obj fields)

theorem nestedItems {motive : Node ν → Prop} (atom : ∀ v : Node ν, v.isAtom = true → motive v)
    (arr : ∀ items : List (Node ν), (∀ item ∈ items, motive item) → motive (.arr items))
    (obj : ∀ fields : List (String × Node ν), (∀ field ∈ fields, motive field.2) →
      motive (.obj fields)) : ∀ (items : List (Node ν)) (item : Node ν), item ∈ items → motive item
  | first :: rest, item, inside => by
      rcases mem_cons.1 inside with same | later
      · exact same ▸ nested atom arr obj first
      · exact nestedItems atom arr obj rest item later

theorem nestedFields {motive : Node ν → Prop} (atom : ∀ v : Node ν, v.isAtom = true → motive v)
    (arr : ∀ items : List (Node ν), (∀ item ∈ items, motive item) → motive (.arr items))
    (obj : ∀ fields : List (String × Node ν), (∀ field ∈ fields, motive field.2) →
      motive (.obj fields)) : ∀ (fields : List (String × Node ν)) (field : String × Node ν),
        field ∈ fields → motive field.2
  | (key, value) :: rest, field, inside => by
      rcases mem_cons.1 inside with same | later
      · exact same ▸ nested atom arr obj value
      · exact nestedFields atom arr obj rest field later

end

end Node

/-! ## The walk -/

def numericBoundKeywords : List String :=
  ["minimum", "maximum", "exclusiveMinimum", "exclusiveMaximum", "multipleOf"]

/-- Keywords whose value maps names to schemas. -/
def nameMapKeywords : List String :=
  ["properties", "patternProperties", "$defs", "definitions", "dependentSchemas"]

/-- The two flags of `sanitize_tool_schema`. -/
structure Flags where
  dropNumericBounds : Bool := false
  dropAdditionalProperties : Bool := false
  deriving DecidableEq

def Flags.drop (flags : Flags) : List String :=
  (if flags.dropNumericBounds then numericBoundKeywords else []) ++
    if flags.dropAdditionalProperties then ["additionalProperties"] else []

variable {ν : Type} (flags : Flags)

mutual

/-- `_sanitize`, of a value that stands under a name map's keyword or not. -/
def sanitizeValue (asMap : Bool) : Node ν → Node ν
  | .arr items => .arr (sanitizeItems items)
  | .obj fields => if asMap then .obj (sanitizeMembers fields) else .obj (sanitizeFields [] fields)
  | .null => .null
  | .bool value => .bool value
  | .num value => .num value
  | .str value => .str value

def sanitizeItems : List (Node ν) → List (Node ν)
  | [] => []
  | item :: rest => sanitizeValue false item :: sanitizeItems rest

/-- Names stay, the schema under each is cleaned. -/
def sanitizeMembers : List (String × Node ν) → List (String × Node ν)
  | [] => []
  | (name, subschema) :: rest => (name, sanitizeValue false subschema) :: sanitizeMembers rest

/-- The loop over a dict's entries, which fills `cleaned`. -/
def sanitizeFields (cleaned : List (String × Node ν)) :
    List (String × Node ν) → List (String × Node ν)
  | [] => cleaned
  | (key, value) :: rest =>
    if key ∈ flags.drop then sanitizeFields cleaned rest
    else if key = "const" then sanitizeFields (setItem "enum" (.arr [value]) cleaned) rest
    else
      sanitizeFields (setItem key (sanitizeValue (decide (key ∈ nameMapKeywords)) value) cleaned) rest

end

/-- `sanitize_tool_schema`. -/
def sanitize (schema : Node ν) : Node ν := sanitizeValue flags false schema

/-! ## What the walk is for -/

/-- What stands under a keyword: one schema or a list of them, schemas by name, or data. -/
inductive Position where
  | schema
  | names
  | data
  deriving DecidableEq

def schemaKeywords : List String :=
  ["additionalProperties", "items", "prefixItems", "contains", "propertyNames", "unevaluatedItems",
    "unevaluatedProperties", "not", "if", "then", "else", "allOf", "anyOf", "oneOf", "contentSchema"]

def position (key : String) : Position :=
  if key ∈ nameMapKeywords then .names else if key ∈ schemaKeywords then .schema else .data

/-- A keyword that is kept under its own name; `const` and `enum` are settled together. -/
def Stays (key : String) : Prop := key ∉ flags.drop ∧ key ≠ "const" ∧ key ≠ "enum"

/-- The `enum` a schema ends up with: its own as it was, or its `const` as one; where it
had both, one of these two that accepts what both accepted. -/
def EnumKept (fields cleaned : List (String × Node ν)) : Prop :=
  match get "const" fields, get "enum" fields with
  | none, none => True
  | none, some listed => get "enum" cleaned = some listed
  | some only, none => get "enum" cleaned = some (.arr [only])
  | some only, some listed => ∃ accepted : List (Node ν), get "enum" cleaned = some (.arr accepted) ∧
      (accepted = [only] ∨ listed = .arr accepted) ∧
      ∀ v, v ∈ accepted ↔ v = only ∧ v ∈ listed.members

/-- What is to become of a schema, of a list of schemas, or, under `asMap`, of a map of
names to schemas. -/
inductive Cleaned : Bool → Node ν → Node ν → Prop
  | atom {asMap : Bool} {v : Node ν} (atom : v.isAtom = true) : Cleaned asMap v v
  | arr {asMap : Bool} {old new : List (Node ν)} (length : new.length = old.length)
      (each : ∀ (i : Nat) v w, old[i]? = some v → new[i]? = some w → Cleaned false v w) :
      Cleaned asMap (.arr old) (.arr new)
  | names {old new : List (String × Node ν)} (names : new.map Prod.fst = old.map Prod.fst)
      (each : ∀ (i : Nat) v w, old[i]? = some v → new[i]? = some w → Cleaned false v.2 w.2) :
      Cleaned true (.obj old) (.obj new)
  | schema {fields cleaned : List (String × Node ν)}
      (keys : ∀ key, key ∈ cleaned.map Prod.fst ↔ key ∈ fields.map Prod.fst ∧ key ∉ flags.drop ∧ key ≠ "const" ∨
          key = "enum" ∧ "const" ∈ fields.map Prod.fst)
      (data : ∀ field ∈ fields, Stays flags field.1 → position field.1 = .data →
        get field.1 cleaned = some field.2)
      (schemas : ∀ field ∈ fields, Stays flags field.1 → position field.1 ≠ .data →
        ∀ new, get field.1 cleaned = some new → Cleaned (decide (field.1 ∈ nameMapKeywords)) field.2 new)
      (enum_ : EnumKept fields cleaned) : Cleaned false (.obj fields) (.obj cleaned)

/-! ## Where it does so -/

/-- A value in which the walk, taking it for a schema or for a map of names, finds no
keyword to take out or to rename. -/
inductive Untouched : Bool → Node ν → Prop
  | atom {asMap : Bool} {v : Node ν} (atom : v.isAtom = true) : Untouched asMap v
  | arr {asMap : Bool} {items : List (Node ν)} (each : ∀ item ∈ items, Untouched false item) :
      Untouched asMap (.arr items)
  | names {members : List (String × Node ν)} (each : ∀ member ∈ members, Untouched false member.2) :
      Untouched true (.obj members)
  | schema {fields : List (String × Node ν)}
      (keys : ∀ field ∈ fields, field.1 ∉ flags.drop ∧ field.1 ≠ "const")
      (each : ∀ field ∈ fields, Untouched (decide (field.1 ∈ nameMapKeywords)) field.2) :
      Untouched false (.obj fields)

/-- Whether `const` comes before `enum`. -/
def constFirst : List (String × Node ν) → Bool
  | [] => false
  | (key, _) :: rest =>
    if key = "const" then true else if key = "enum" then false else constFirst rest

/-- The data of `const` and `enum` is untouched; where both are there, the later one is
written last, and it must accept what both accept. -/
def EnumTame (fields : List (String × Node ν)) : Prop :=
  match get "const" fields, get "enum" fields with
  | none, none => True
  | none, some listed => Untouched flags false listed
  | some only, none => Untouched flags false only
  | some only, some listed =>
    if constFirst fields then
      Untouched flags false listed ∧ ∃ items, listed = .arr items ∧ ∀ v ∈ items, v = only
    else Untouched flags false only ∧ only ∈ listed.members

/-- A schema whose data is untouched, at every schema position. -/
inductive Tame : Bool → Node ν → Prop
  | atom {asMap : Bool} {v : Node ν} (atom : v.isAtom = true) : Tame asMap v
  | arr {asMap : Bool} {items : List (Node ν)} (each : ∀ item ∈ items, Tame false item) :
      Tame asMap (.arr items)
  | names {members : List (String × Node ν)} (each : ∀ member ∈ members, Tame false member.2) :
      Tame true (.obj members)
  | schema {fields : List (String × Node ν)}
      (data : ∀ field ∈ fields, Stays flags field.1 → position field.1 = .data → Untouched flags false field.2)
      (schemas : ∀ field ∈ fields, Stays flags field.1 → position field.1 ≠ .data →
        Tame (decide (field.1 ∈ nameMapKeywords)) field.2)
      (enum_ : EnumTame flags fields) : Tame false (.obj fields)

/-- Every dict has each key once. -/
inductive Distinct : Node ν → Prop
  | atom {v : Node ν} (atom : v.isAtom = true) : Distinct v
  | arr {items : List (Node ν)} (each : ∀ item ∈ items, Distinct item) : Distinct (.arr items)
  | obj {fields : List (String × Node ν)} (keys : (fields.map Prod.fst).Nodup)
      (each : ∀ field ∈ fields, Distinct field.2) : Distinct (.obj fields)

/-! ## What the walk leaves of a dict -/

variable {flags}

theorem enum_stays (flags : Flags) : "enum" ∉ flags.drop ∧ "const" ∉ flags.drop := by
  obtain ⟨bounds, additional⟩ := flags
  cases bounds <;> cases additional <;> decide

theorem sanitizeItems_eq (items : List (Node ν)) :
    sanitizeItems flags items = items.map (sanitizeValue flags false) := by
  induction items with
  | nil => rfl
  | cons item rest ih => rw [sanitizeItems, ih, map_cons]

theorem sanitizeMembers_eq (members : List (String × Node ν)) :
    sanitizeMembers flags members = members.map fun member => (member.1, sanitizeValue flags false member.2) := by
  induction members with
  | nil => rfl
  | cons member rest ih => rw [sanitizeMembers, ih, map_cons]

variable {fields : List (String × Node ν)} {items : List (Node ν)} {asMap : Bool} {v : Node ν}

theorem sanitizeValue_atom (atom : v.isAtom = true) : sanitizeValue flags asMap v = v := by
  cases v with
  | arr items | obj fields => exact absurd atom (by simp [Node.isAtom])
  | null | bool | num | str => rw [sanitizeValue]

theorem mem_keys_sanitizeFields {key : String} (cleaned fields : List (String × Node ν)) :
    key ∈ (sanitizeFields flags cleaned fields).map Prod.fst ↔
      key ∈ cleaned.map Prod.fst ∨ key ∈ fields.map Prod.fst ∧ key ∉ flags.drop ∧ key ≠ "const" ∨
        key = "enum" ∧ "const" ∈ fields.map Prod.fst := by
  induction fields generalizing cleaned with
  | nil => simp [sanitizeFields]
  | cons field rest ih =>
    obtain ⟨name, value⟩ := field
    have consts : "const" ∉ flags.drop := (enum_stays flags).2
    rw [sanitizeFields, map_cons, mem_cons, mem_cons]
    split_ifs with dropped const
    · rw [ih]
      grind -linarith
    · rw [ih, mem_keys_setItem]
      grind -linarith
    · rw [ih, mem_keys_setItem]
      grind -linarith

theorem nodup_sanitizeFields {cleaned : List (String × Node ν)} (distinct : (cleaned.map Prod.fst).Nodup)
    (fields : List (String × Node ν)) : ((sanitizeFields flags cleaned fields).map Prod.fst).Nodup := by
  induction fields generalizing cleaned with
  | nil => exact distinct
  | cons field rest ih =>
    rw [sanitizeFields]
    split_ifs with dropped const
    · exact ih distinct
    · exact ih (nodup_setItem distinct)
    · exact ih (nodup_setItem distinct)

theorem nodup_written (fields : List (String × Node ν)) :
    ((sanitizeFields flags [] fields).map Prod.fst).Nodup := by
  have nothing : (([] : List (String × Node ν)).map Prod.fst).Nodup := nodup_nil
  exact nodup_sanitizeFields nothing fields

/-- What stands under a keyword that stays. -/
theorem get_sanitizeFields {key : String} (stays : Stays flags key) {cleaned fields : List (String × Node ν)}
    (distinct : (fields.map Prod.fst).Nodup) :
    get key (sanitizeFields flags cleaned fields) =
      ((get key fields).map (sanitizeValue flags (decide (key ∈ nameMapKeywords)))).or (get key cleaned) := by
  obtain ⟨kept, notConst, notEnum⟩ := stays
  induction fields generalizing cleaned with
  | nil => rfl
  | cons field rest ih =>
    obtain ⟨name, value⟩ := field
    rw [map_cons, nodup_cons] at distinct
    rw [sanitizeFields, get_cons]
    by_cases same : name = key
    · subst same
      rw [if_neg kept, if_neg notConst, ih distinct.2, get_setItem, get_eq_none.2 distinct.1]
      simp
    · rw [if_neg same]
      split_ifs with dropped const
      · exact ih distinct.2
      · rw [ih distinct.2, get_setItem, if_neg (Ne.symm notEnum)]
      · rw [ih distinct.2, get_setItem, if_neg same]

/-- The last of `const` and `enum`, as it is written. -/
def lastEnum (flags : Flags) : List (String × Node ν) → Option (Node ν)
  | [] => none
  | (key, value) :: rest =>
    (lastEnum flags rest).or
      (if key = "const" then some (.arr [value])
        else if key = "enum" then some (sanitizeValue flags false value) else none)

theorem get_enum_sanitizeFields (cleaned fields : List (String × Node ν)) :
    get "enum" (sanitizeFields flags cleaned fields) = (lastEnum flags fields).or (get "enum" cleaned) := by
  induction fields generalizing cleaned with
  | nil => rfl
  | cons field rest ih =>
    obtain ⟨name, value⟩ := field
    obtain ⟨enums, consts⟩ := enum_stays flags
    have plain : decide ("enum" ∈ nameMapKeywords) = false := by decide
    rw [sanitizeFields, lastEnum]
    by_cases const : name = "const"
    · subst const
      rw [if_neg consts, if_pos rfl, if_pos rfl, ih, get_setItem, if_pos rfl]
      cases lastEnum flags rest <;> rfl
    · by_cases enum_ : name = "enum"
      · subst enum_
        rw [if_neg enums, if_neg const, if_neg const, if_pos rfl, ih, plain, get_setItem, if_pos rfl]
        cases lastEnum flags rest <;> rfl
      · rw [if_neg const, if_neg const, if_neg enum_, Option.or_none]
        split_ifs with dropped
        · exact ih cleaned
        · rw [ih, get_setItem, if_neg enum_]

theorem lastEnum_eq (distinct : (fields.map Prod.fst).Nodup) :
    lastEnum flags fields = match get "const" fields, get "enum" fields with
      | none, none => none
      | none, some listed => some (sanitizeValue flags false listed)
      | some only, none => some (.arr [only])
      | some only, some listed =>
        if constFirst fields then some (sanitizeValue flags false listed) else some (.arr [only]) := by
  induction fields with
  | nil => rfl
  | cons field rest ih =>
    obtain ⟨name, value⟩ := field
    rw [map_cons, nodup_cons] at distinct
    rw [lastEnum, ih distinct.2, get_cons, get_cons, constFirst]
    by_cases const : name = "const"
    · subst const
      have later : get "const" rest = none := get_eq_none.2 distinct.1
      rw [later]
      cases get "enum" rest <;> rfl
    · by_cases enum_ : name = "enum"
      · subst enum_
        have later : get "enum" rest = none := get_eq_none.2 distinct.1
        rw [later]
        cases get "const" rest <;> rfl
      · simp only [const, enum_, if_false, Option.or_none]

/-! ## Values the walk leaves alone -/

theorem map_eq_self {α : Type*} {f : α → α} {l : List α} : l.map f = l ↔ ∀ a ∈ l, f a = a := by
  constructor
  · intro same a inside
    have each : l.map f = l.map id := by rw [same, map_id]
    exact map_inj_left.1 each a inside
  · intro each
    rw [map_congr_left each, map_id']

/-- Entries without such a keyword are written as they are. -/
theorem sanitizeFields_untouched {cleaned fields : List (String × Node ν)}
    (distinct : ((cleaned ++ fields).map Prod.fst).Nodup)
    (keys : ∀ field ∈ fields, field.1 ∉ flags.drop ∧ field.1 ≠ "const")
    (each : ∀ field ∈ fields, sanitizeValue flags (decide (field.1 ∈ nameMapKeywords)) field.2 = field.2) :
    sanitizeFields flags cleaned fields = cleaned ++ fields := by
  induction fields generalizing cleaned with
  | nil => rw [sanitizeFields, append_nil]
  | cons field rest ih =>
    obtain ⟨name, value⟩ := field
    obtain ⟨kept, notConst⟩ := keys _ mem_cons_self
    have value_ : sanitizeValue flags (decide (name ∈ nameMapKeywords)) value = value :=
      each _ mem_cons_self
    have added : setItem name value cleaned = cleaned ++ [(name, value)] := by
      apply put_absent
      intro other inside same
      rw [map_append, nodup_append] at distinct
      exact distinct.2.2 other.1 (mem_map_of_mem inside) name mem_cons_self same
    rw [sanitizeFields, if_neg kept, if_neg notConst, value_, added]
    have joined : cleaned ++ (name, value) :: rest = (cleaned ++ [(name, value)]) ++ rest := by simp
    rw [joined] at distinct ⊢
    exact ih distinct (fun other inside => keys other (mem_cons_of_mem _ inside))
      fun other inside => each other (mem_cons_of_mem _ inside)

theorem Distinct.arr_iff : Distinct (.arr items) ↔ ∀ item ∈ items, Distinct item := by
  refine ⟨fun distinct => ?_, .arr⟩
  cases distinct with
  | atom atom => exact absurd atom Bool.false_ne_true
  | arr each => exact each

theorem Distinct.obj_iff :
    Distinct (.obj fields) ↔ (fields.map Prod.fst).Nodup ∧ ∀ field ∈ fields, Distinct field.2 := by
  refine ⟨fun distinct => ?_, fun parts => .obj parts.1 parts.2⟩
  cases distinct with
  | atom atom => exact absurd atom Bool.false_ne_true
  | obj keys each => exact ⟨keys, each⟩

theorem Untouched.arr_iff :
    Untouched flags asMap (.arr items) ↔ ∀ item ∈ items, Untouched flags false item := by
  refine ⟨fun untouched => ?_, .arr⟩
  cases untouched with
  | atom atom => exact absurd atom Bool.false_ne_true
  | arr each => exact each

theorem Untouched.names_iff {members : List (String × Node ν)} :
    Untouched flags true (.obj members) ↔ ∀ member ∈ members, Untouched flags false member.2 := by
  refine ⟨fun untouched => ?_, .names⟩
  cases untouched with
  | atom atom => exact absurd atom Bool.false_ne_true
  | names each => exact each

theorem Untouched.schema_iff :
    Untouched flags false (.obj fields) ↔ (∀ field ∈ fields, field.1 ∉ flags.drop ∧ field.1 ≠ "const") ∧
        ∀ field ∈ fields, Untouched flags (decide (field.1 ∈ nameMapKeywords)) field.2 := by
  refine ⟨fun untouched => ?_, fun parts => .schema parts.1 parts.2⟩
  cases untouched with
  | atom atom => exact absurd atom Bool.false_ne_true
  | schema keys each => exact ⟨keys, each⟩

/-- A dict the walk gives back has none of its keywords, and each value is given back. -/
theorem sanitizeFields_eq_self (distinct : (fields.map Prod.fst).Nodup) :
    sanitizeFields flags [] fields = fields ↔ (∀ field ∈ fields, field.1 ∉ flags.drop ∧ field.1 ≠ "const") ∧
        ∀ field ∈ fields, sanitizeValue flags (decide (field.1 ∈ nameMapKeywords)) field.2 = field.2 := by
  constructor
  · intro same
    have keys : ∀ field ∈ fields, field.1 ∉ flags.drop ∧ field.1 ≠ "const" := by
      intro field inside
      have written : field.1 ∈ (sanitizeFields flags [] fields).map Prod.fst := by
        rw [same]
        exact mem_map_of_mem inside
      rcases (mem_keys_sanitizeFields [] fields).1 written with none_ | ⟨-, kept⟩ | ⟨named, -⟩
      · exact absurd none_ not_mem_nil
      · exact kept
      · rw [named]
        exact ⟨(enum_stays flags).1, by decide⟩
    refine ⟨keys, fun field inside => ?_⟩
    have found := get_of_mem distinct inside
    by_cases enum_ : field.1 = "enum"
    · -- without a const the enum is written once
      have noConst : get "const" fields = none := by
        rw [get_eq_none, mem_map]
        rintro ⟨other, member, named⟩
        exact (keys other member).2 named
      have written : get "enum" (sanitizeFields flags [] fields) = _ := get_enum_sanitizeFields [] fields
      have plain : decide ("enum" ∈ nameMapKeywords) = false := by decide
      rw [enum_] at found
      rw [same, lastEnum_eq distinct, noConst, found] at written
      rw [enum_, plain]
      exact (Option.some.inj written).symm
    · have stays : Stays flags field.1 := ⟨(keys field inside).1, (keys field inside).2, enum_⟩
      have written : get field.1 (sanitizeFields flags [] fields) = _ := get_sanitizeFields stays distinct
      rw [same, found] at written
      exact (Option.some.inj written).symm
  · rintro ⟨keys, each⟩
    have nothing : (([] ++ fields).map Prod.fst).Nodup := distinct
    exact sanitizeFields_untouched nothing keys each

open Distinct

/-- The walk leaves exactly the untouched values alone. -/
theorem sanitizeValue_eq_self (distinct : Distinct v) (asMap : Bool) :
    sanitizeValue flags asMap v = v ↔ Untouched flags asMap v := by
  induction v using Node.nested generalizing asMap with
  | atom v atom => exact ⟨fun _ => .atom atom, fun _ => sanitizeValue_atom atom⟩
  | arr items ih =>
    rw [arr_iff] at distinct
    rw [sanitizeValue, sanitizeItems_eq, Node.arr.injEq, map_eq_self, Untouched.arr_iff]
    exact forall₂_congr fun item inside => ih item inside (distinct item inside) false
  | obj fields ih =>
    obtain ⟨keys, inner⟩ := obj_iff.1 distinct
    cases asMap with
    | true =>
      rw [sanitizeValue, if_pos rfl, sanitizeMembers_eq, Node.obj.injEq, map_eq_self, Untouched.names_iff]
      refine forall₂_congr fun member inside => ?_
      rw [Prod.ext_iff, ← ih member inside (inner member inside) false]
      exact ⟨And.right, fun same => ⟨rfl, same⟩⟩
    | false =>
      rw [sanitizeValue, if_neg Bool.false_ne_true, Node.obj.injEq, sanitizeFields_eq_self keys,
        Untouched.schema_iff]
      refine and_congr_right fun _ => forall₂_congr fun field inside => ?_
      exact ih field inside (inner field inside) _

/-! ## What the walk writes is a value again -/

theorem mem_sanitizeFields {cleaned fields : List (String × Node ν)} {field : String × Node ν}
    (inside : field ∈ sanitizeFields flags cleaned fields) :
    field ∈ cleaned ∨ (∃ only, ("const", only) ∈ fields ∧ field.2 = .arr [only]) ∨
      ∃ old, (field.1, old) ∈ fields ∧
        field.2 = sanitizeValue flags (decide (field.1 ∈ nameMapKeywords)) old := by
  induction fields generalizing cleaned with
  | nil => exact .inl inside
  | cons first rest ih =>
    obtain ⟨name, value⟩ := first
    have weaken (found : (∃ only, ("const", only) ∈ rest ∧ field.2 = .arr [only]) ∨
        ∃ old, (field.1, old) ∈ rest ∧ field.2 = sanitizeValue flags (decide (field.1 ∈ nameMapKeywords)) old) :
        (∃ only, ("const", only) ∈ (name, value) :: rest ∧ field.2 = .arr [only]) ∨
          ∃ old, (field.1, old) ∈ (name, value) :: rest ∧
            field.2 = sanitizeValue flags (decide (field.1 ∈ nameMapKeywords)) old := by
      rcases found with ⟨only, member, same⟩ | ⟨old, member, same⟩
      · exact .inl ⟨only, mem_cons_of_mem _ member, same⟩
      · exact .inr ⟨old, mem_cons_of_mem _ member, same⟩
    rw [sanitizeFields] at inside
    split_ifs at inside with dropped const
    · exact (ih inside).imp_right weaken
    · rcases ih inside with written | found
      · rcases mem_put_replace written with rfl | old
        · exact .inr (.inl ⟨value, const ▸ mem_cons_self, rfl⟩)
        · exact .inl old
      · exact .inr (weaken found)
    · rcases ih inside with written | found
      · rcases mem_put_replace written with rfl | old
        · exact .inr (.inr ⟨value, mem_cons_self, rfl⟩)
        · exact .inl old
      · exact .inr (weaken found)

theorem distinct_sanitizeValue (distinct : Distinct v) (asMap : Bool) :
    Distinct (sanitizeValue flags asMap v) := by
  induction v using Node.nested generalizing asMap with
  | atom v atom => rwa [sanitizeValue_atom atom]
  | arr items ih =>
    rw [arr_iff] at distinct
    rw [sanitizeValue, sanitizeItems_eq, arr_iff, forall_mem_map]
    exact fun item inside => ih item inside (distinct item inside) false
  | obj fields ih =>
    obtain ⟨keys, inner⟩ := obj_iff.1 distinct
    cases asMap with
    | true =>
      rw [sanitizeValue, if_pos rfl, sanitizeMembers_eq, obj_iff, map_map, forall_mem_map]
      exact ⟨keys, fun member inside => ih member inside (inner member inside) false⟩
    | false =>
      rw [sanitizeValue, if_neg Bool.false_ne_true]
      refine .obj (nodup_written fields) fun field inside => ?_
      rcases mem_sanitizeFields inside with none_ | ⟨only, member, same⟩ | ⟨old, member, same⟩
      · exact absurd none_ not_mem_nil
      · rw [same, arr_iff]
        intro item one
        rw [mem_singleton.1 one]
        exact inner _ member
      · rw [same]
        exact ih _ member (inner _ member) _

/-! ## When the walk meets its purpose -/

theorem Cleaned.arr_iff {old new : List (Node ν)} :
    Cleaned flags asMap (.arr old) (.arr new) ↔ new.length = old.length ∧
      ∀ (i : Nat) v w, old[i]? = some v → new[i]? = some w → Cleaned flags false v w := by
  refine ⟨fun cleaned => ?_, fun parts => .arr parts.1 parts.2⟩
  cases cleaned with
  | atom atom => exact absurd atom Bool.false_ne_true
  | arr length each => exact ⟨length, each⟩

theorem Cleaned.names_iff {old new : List (String × Node ν)} :
    Cleaned flags true (.obj old) (.obj new) ↔ new.map Prod.fst = old.map Prod.fst ∧
      ∀ (i : Nat) v w, old[i]? = some v → new[i]? = some w → Cleaned flags false v.2 w.2 := by
  refine ⟨fun cleaned => ?_, fun parts => .names parts.1 parts.2⟩
  cases cleaned with
  | atom atom => exact absurd atom Bool.false_ne_true
  | names names each => exact ⟨names, each⟩

theorem Tame.arr_iff : Tame flags asMap (.arr items) ↔ ∀ item ∈ items, Tame flags false item := by
  refine ⟨fun tame => ?_, .arr⟩
  cases tame with
  | atom atom => exact absurd atom Bool.false_ne_true
  | arr each => exact each

theorem Tame.names_iff {members : List (String × Node ν)} :
    Tame flags true (.obj members) ↔ ∀ member ∈ members, Tame flags false member.2 := by
  refine ⟨fun tame => ?_, .names⟩
  cases tame with
  | atom atom => exact absurd atom Bool.false_ne_true
  | names each => exact each

theorem Tame.schema_iff :
    Tame flags false (.obj fields) ↔
      (∀ field ∈ fields, Stays flags field.1 → position field.1 = .data → Untouched flags false field.2) ∧
      (∀ field ∈ fields, Stays flags field.1 → position field.1 ≠ .data →
        Tame flags (decide (field.1 ∈ nameMapKeywords)) field.2) ∧ EnumTame flags fields := by
  refine ⟨fun tame => ?_, fun parts => .schema parts.1 parts.2.1 parts.2.2⟩
  cases tame with
  | atom atom => exact absurd atom Bool.false_ne_true
  | schema data schemas enum_ => exact ⟨data, schemas, enum_⟩

section Dict

variable {fields : List (String × Node ν)}

/-- The value the walk writes under a field's own key. -/
theorem get_sanitized (distinct : (fields.map Prod.fst).Nodup) {field : String × Node ν}
    (inside : field ∈ fields) (stays : Stays flags field.1) :
    get field.1 (sanitizeFields flags [] fields) =
      some (sanitizeValue flags (decide (field.1 ∈ nameMapKeywords)) field.2) := by
  rw [get_sanitizeFields stays distinct, get_of_mem distinct inside]
  rfl

theorem Cleaned.schema_parts {cleaned : List (String × Node ν)}
    (done : Cleaned flags false (.obj fields) (.obj cleaned)) :
    (∀ field ∈ fields, Stays flags field.1 → position field.1 = .data → get field.1 cleaned = some field.2) ∧
    (∀ field ∈ fields, Stays flags field.1 → position field.1 ≠ .data → ∀ new, get field.1 cleaned = some new →
        Cleaned flags (decide (field.1 ∈ nameMapKeywords)) field.2 new) ∧
    EnumKept fields cleaned := by
  cases done with
  | atom atom => exact absurd atom Bool.false_ne_true
  | schema keys data schemas enum_ => exact ⟨data, schemas, enum_⟩

theorem Cleaned.schema_iff (distinct : (fields.map Prod.fst).Nodup) :
    Cleaned flags false (.obj fields) (.obj (sanitizeFields flags [] fields)) ↔
      (∀ field ∈ fields, Stays flags field.1 → position field.1 = .data →
        sanitizeValue flags (decide (field.1 ∈ nameMapKeywords)) field.2 = field.2) ∧
      (∀ field ∈ fields, Stays flags field.1 → position field.1 ≠ .data →
        Cleaned flags (decide (field.1 ∈ nameMapKeywords)) field.2
          (sanitizeValue flags (decide (field.1 ∈ nameMapKeywords)) field.2)) ∧
      EnumKept fields (sanitizeFields flags [] fields) := by
  constructor
  · intro cleaned
    obtain ⟨data, schemas, enum_⟩ := cleaned.schema_parts
    refine ⟨fun field inside stays at_ => ?_, fun field inside stays at_ => ?_, enum_⟩
    · have kept := data field inside stays at_
      rw [get_sanitized distinct inside stays] at kept
      exact Option.some.inj kept
    · exact schemas field inside stays at_ _ (get_sanitized distinct inside stays)
  · rintro ⟨data, schemas, enum_⟩
    refine .schema (fun key => ?_) (fun field inside stays at_ => ?_)
      (fun field inside stays at_ new found => ?_) enum_
    · rw [mem_keys_sanitizeFields]
      simp
    · rw [get_sanitized distinct inside stays, data field inside stays at_]
    · rw [get_sanitized distinct inside stays] at found
      exact Option.some.inj found ▸ schemas field inside stays at_

theorem untouched_sanitizeFields (distinct : (fields.map Prod.fst).Nodup) :
    Untouched flags false (.obj (sanitizeFields flags [] fields)) ↔
      (∀ field ∈ fields, Stays flags field.1 → Untouched flags (decide (field.1 ∈ nameMapKeywords))
          (sanitizeValue flags (decide (field.1 ∈ nameMapKeywords)) field.2)) ∧
      ∀ written, lastEnum flags fields = some written → Untouched flags false written := by
  have apart : ((sanitizeFields flags [] fields).map Prod.fst).Nodup := nodup_written fields
  have plain : decide ("enum" ∈ nameMapKeywords) = false := by decide
  have enums : get "enum" (sanitizeFields flags [] fields) = lastEnum flags fields := by
    rw [get_enum_sanitizeFields, get_nil, Option.or_none]
  rw [Untouched.schema_iff]
  constructor
  · rintro ⟨-, each⟩
    have read {key : String} {written : Node ν}
        (found : get key (sanitizeFields flags [] fields) = some written) :
        Untouched flags (decide (key ∈ nameMapKeywords)) written := by
      obtain ⟨pair, first, rfl⟩ := Option.map_eq_some_iff.1 found
      have named : pair.1 = key := by simpa using List.find?_some first
      exact named ▸ each pair (mem_of_find?_eq_some first)
    refine ⟨fun field inside stays => read (get_sanitized distinct inside stays), fun written found => ?_⟩
    rw [← plain]
    exact read (enums.trans found)
  · rintro ⟨values, listed⟩
    have keys : ∀ field ∈ sanitizeFields flags [] fields, field.1 ∉ flags.drop ∧ field.1 ≠ "const" := by
      intro field inside
      rcases (mem_keys_sanitizeFields [] fields).1 (mem_map_of_mem inside) with
        none_ | ⟨-, kept⟩ | ⟨named, -⟩
      · exact absurd none_ not_mem_nil
      · exact kept
      · rw [named]
        exact ⟨(enum_stays flags).1, by decide⟩
    refine ⟨keys, fun field inside => ?_⟩
    have found := get_of_mem apart inside
    by_cases enum_ : field.1 = "enum"
    · rw [enum_, enums] at found
      rw [enum_, plain]
      exact listed _ found
    · have stays : Stays flags field.1 := ⟨(keys field inside).1, (keys field inside).2, enum_⟩
      rw [get_sanitizeFields stays distinct, get_nil, Option.or_none] at found
      obtain ⟨old, first, same⟩ := Option.map_eq_some_iff.1 found
      obtain ⟨pair, there, rfl⟩ := Option.map_eq_some_iff.1 first
      have named : pair.1 = field.1 := by simpa using List.find?_some there
      rw [← same, ← named]
      exact values pair (mem_of_find?_eq_some there) (named ▸ stays)

/-- The later of the two is an `enum` whose data came through. -/
theorem enumLast_iff {only listed : Node ν} (distinct : Distinct listed) :
    (∃ accepted : List (Node ν), sanitizeValue flags false listed = .arr accepted ∧
        (accepted = [only] ∨ listed = .arr accepted) ∧
        ∀ v, v ∈ accepted ↔ v = only ∧ v ∈ listed.members) ∧
      Untouched flags false (sanitizeValue flags false listed) ↔
    Untouched flags false listed ∧ ∃ items, listed = .arr items ∧ ∀ v ∈ items, v = only := by
  have self : sanitizeValue flags false listed = listed ↔ Untouched flags false listed :=
    sanitizeValue_eq_self distinct false
  constructor
  · rintro ⟨⟨accepted, written, shape, accepts⟩, untouched⟩
    -- an enum that came out as the const alone was the const alone
    have same : listed = .arr accepted := by
      rcases shape with rfl | same
      · cases listed with
        | arr items =>
          rw [sanitizeValue, sanitizeItems_eq, Node.arr.injEq] at written
          obtain ⟨x, rfl, -⟩ := map_eq_singleton_iff.1 written
          have inside : only ∈ [x] := ((accepts only).1 mem_cons_self).2
          rw [mem_singleton.1 inside]
        | null | bool | num | str => rw [sanitizeValue] at written; cases written
        | obj fields => rw [sanitizeValue, if_neg Bool.false_ne_true] at written; cases written
      · exact same
    rw [written, ← same] at untouched
    exact ⟨untouched, accepted, same, fun v inside => ((accepts v).1 inside).1⟩
  · rintro ⟨untouched, items, rfl, all⟩
    have written := self.2 untouched
    refine ⟨⟨items, written, .inr rfl, fun v => ?_⟩, written.symm ▸ untouched⟩
    exact ⟨fun inside => ⟨all v inside, inside⟩, And.right⟩

/-- The `enum` a schema ends up with is right, and data, exactly when its parts are tame. -/
theorem enumKept_iff (distinct : Distinct (.obj fields)) :
    EnumKept fields (sanitizeFields flags [] fields) ∧
      (∀ written, lastEnum flags fields = some written → Untouched flags false written) ↔
    EnumTame flags fields := by
  obtain ⟨keys, inner⟩ := obj_iff.1 distinct
  have enums : get "enum" (sanitizeFields flags [] fields) = lastEnum flags fields := by
    rw [get_enum_sanitizeFields, get_nil, Option.or_none]
  have value {key : String} {v : Node ν} (found : get key fields = some v) : Distinct v := by
    obtain ⟨pair, there, rfl⟩ := Option.map_eq_some_iff.1 found
    exact inner pair (mem_of_find?_eq_some there)
  have alone (only : Node ν) : Untouched flags false (.arr [only]) ↔ Untouched flags false only := by
    rw [Untouched.arr_iff, forall_mem_singleton]
  unfold EnumKept EnumTame
  rw [enums, lastEnum_eq keys]
  cases const : get "const" fields with
  | none =>
    cases listed : get "enum" fields with
    | none => simp
    | some e =>
      have self : sanitizeValue flags false e = e ↔ Untouched flags false e :=
        sanitizeValue_eq_self (value listed) false
      simp only [Option.some.injEq, self, forall_eq']
      exact ⟨And.left, fun untouched => ⟨untouched, (self.2 untouched).symm ▸ untouched⟩⟩
  | some c =>
    cases listed : get "enum" fields with
    | none => simp only [Option.some.injEq, forall_eq', alone, true_and]
    | some e =>
      by_cases first : constFirst fields = true
      · simp only [first, if_true, Option.some.injEq, forall_eq']
        exact enumLast_iff (value listed)
      · simp only [first, if_false, Option.some.injEq, forall_eq', alone, Bool.false_eq_true]
        constructor
        · rintro ⟨⟨accepted, same, -, accepts⟩, untouched⟩
          obtain rfl : [c] = accepted := Node.arr.inj same
          exact ⟨untouched, ((accepts c).1 mem_cons_self).2⟩
        · rintro ⟨untouched, inside⟩
          refine ⟨⟨[c], rfl, .inl rfl, fun v => ?_⟩, untouched⟩
          rw [mem_singleton]
          exact ⟨fun same => ⟨same, same ▸ inside⟩, And.left⟩

end Dict

theorem data_not_names {key : String} (at_ : position key = .data) :
    decide (key ∈ nameMapKeywords) = false := by
  by_cases named : key ∈ nameMapKeywords
  · rw [position, if_pos named] at at_
    cases at_
  · simpa using named

/-- The walk does what it is for, and a second walk nothing more, exactly on tame values. -/
theorem cleaned_iff {v : Node ν} (distinct : Distinct v) (asMap : Bool) :
    Cleaned flags asMap v (sanitizeValue flags asMap v) ∧
        Untouched flags asMap (sanitizeValue flags asMap v) ↔ Tame flags asMap v := by
  induction v using Node.nested generalizing asMap with
  | atom v atom =>
    rw [sanitizeValue_atom atom]
    exact ⟨fun _ => .atom atom, fun _ => ⟨.atom atom, .atom atom⟩⟩
  | arr items ih =>
    rw [arr_iff] at distinct
    rw [sanitizeValue, sanitizeItems_eq, Cleaned.arr_iff, Untouched.arr_iff, Tame.arr_iff, forall_mem_map]
    constructor
    · rintro ⟨⟨-, each⟩, untouched⟩ item inside
      obtain ⟨i, found⟩ := mem_iff_getElem?.1 inside
      have written : (items.map (sanitizeValue flags false))[i]? = some (sanitizeValue flags false item) := by
        rw [getElem?_map, found, Option.map_some]
      exact (ih item inside (distinct item inside) false).1
        ⟨each i item _ found written, untouched item inside⟩
    · intro tame
      have done (item : Node ν) (inside : item ∈ items) :=
        (ih item inside (distinct item inside) false).2 (tame item inside)
      refine ⟨⟨length_map _, fun i v w old new => ?_⟩, fun item inside => (done item inside).2⟩
      rw [getElem?_map, old, Option.map_some] at new
      exact Option.some.inj new ▸ (done v (mem_of_getElem? old)).1
  | obj fields ih =>
    obtain ⟨keys, inner⟩ := obj_iff.1 distinct
    cases asMap with
    | true =>
      rw [sanitizeValue, if_pos rfl, sanitizeMembers_eq, Cleaned.names_iff, Untouched.names_iff,
        Tame.names_iff, forall_mem_map]
      constructor
      · rintro ⟨⟨-, each⟩, untouched⟩ member inside
        obtain ⟨i, found⟩ := mem_iff_getElem?.1 inside
        refine (ih member inside (inner member inside) false).1 ⟨?_, untouched member inside⟩
        exact each i member _ found (by rw [getElem?_map, found, Option.map_some])
      · intro tame
        have done (member : String × Node ν) (inside : member ∈ fields) :=
          (ih member inside (inner member inside) false).2 (tame member inside)
        refine ⟨⟨by rw [map_map]; rfl, fun i v w old new => ?_⟩, fun member inside => (done member inside).2⟩
        rw [getElem?_map, old, Option.map_some] at new
        exact Option.some.inj new ▸ (done v (mem_of_getElem? old)).1
    | false =>
      rw [sanitizeValue, if_neg Bool.false_ne_true, Cleaned.schema_iff keys,
        untouched_sanitizeFields keys, Tame.schema_iff, ← enumKept_iff distinct]
      constructor
      · rintro ⟨⟨data, schemas, enum_⟩, untouched, listed⟩
        refine ⟨fun field inside stays at_ => ?_, fun field inside stays at_ => ?_, enum_, listed⟩
        · have same := data field inside stays at_
          rw [data_not_names at_] at same
          exact (sanitizeValue_eq_self (inner field inside) false).1 same
        · exact (ih field inside (inner field inside) _).1
            ⟨schemas field inside stays at_, untouched field inside stays⟩
      · rintro ⟨data, schemas, enum_, listed⟩
        have self (field : String × Node ν) (inside : field ∈ fields) (stays : Stays flags field.1)
            (at_ : position field.1 = .data) : sanitizeValue flags false field.2 = field.2 :=
          (sanitizeValue_eq_self (inner field inside) false).2 (data field inside stays at_)
        refine ⟨⟨fun field inside stays at_ => ?_, fun field inside stays at_ => ?_, enum_⟩,
          fun field inside stays => ?_, listed⟩
        · rw [data_not_names at_]
          exact self field inside stays at_
        · exact ((ih field inside (inner field inside) _).2 (schemas field inside stays at_)).1
        by_cases at_ : position field.1 = .data
        · rw [data_not_names at_, self field inside stays at_]
          exact data field inside stays at_
        · exact ((ih field inside (inner field inside) _).2 (schemas field inside stays at_)).2

/-- **When a schema is only stripped.**  For a schema whose dicts have distinct keys, the
result is the schema with the dropped keywords taken out and `const` made an equivalent
`enum` at schema positions, every name and all data as they were, and the function
idempotent on it, if and only if no data of the schema looks like a schema with such a
keyword and a `const` beside an `enum` is settled by the later one. -/
theorem sanitize_meets_iff (flags : Flags) (schema : Node ν) (distinct : Distinct schema) :
    Cleaned flags false schema (sanitize flags schema) ∧
        sanitize flags (sanitize flags schema) = sanitize flags schema ↔
      Tame flags false schema := by
  rw [← cleaned_iff distinct false]
  exact and_congr_right fun _ => sanitizeValue_eq_self (distinct_sanitizeValue distinct false) false

/-! ### A property named like a keyword -/

def numericFlags : Flags where
  dropNumericBounds := true

/-- A parameter named `maximum`, with a bound and a constant of its own. -/
def namedMaximum : Node Int :=
  .obj [("properties", .obj [("maximum", .obj [("maximum", .num 9), ("const", .num 5)])])]

theorem namedMaximum_distinct : Distinct namedMaximum := by
  refine .obj (by decide) ?_
  rw [forall_mem_singleton]
  refine .obj (by decide) ?_
  rw [forall_mem_singleton]
  refine .obj (by decide) ?_
  rw [forall_mem_cons, forall_mem_singleton]
  exact ⟨.atom rfl, .atom rfl⟩

theorem namedMaximum_tame : Tame numericFlags false namedMaximum := by
  have inside : Tame numericFlags false (.obj [("maximum", .num (9 : Int)), ("const", .num 5)]) := by
    refine .schema ?_ ?_ (Untouched.atom rfl)
    · rw [forall_mem_cons, forall_mem_singleton]
      exact ⟨fun stays => absurd stays.1 (by decide), fun stays => absurd rfl stays.2.1⟩
    · rw [forall_mem_cons, forall_mem_singleton]
      exact ⟨fun stays => absurd stays.1 (by decide), fun stays => absurd rfl stays.2.1⟩
  refine .schema ?_ ?_ trivial
  · rw [forall_mem_singleton]
    exact fun _ at_ => absurd at_ (by decide)
  · rw [forall_mem_singleton]
    exact fun _ _ => .names (by rwa [forall_mem_singleton])

theorem namedMaximum_stripped :
    Cleaned numericFlags false namedMaximum (sanitize numericFlags namedMaximum) ∧
      sanitize numericFlags (sanitize numericFlags namedMaximum) = sanitize numericFlags namedMaximum :=
  (sanitize_meets_iff numericFlags namedMaximum namedMaximum_distinct).2 namedMaximum_tame

/-- One property that needs another, by name. -/
def dependentMaximum : Node Int :=
  .obj [("dependentRequired", .obj [("maximum", .arr [.str "minimum"])])]

theorem dependentMaximum_loses_name :
    sanitize numericFlags dependentMaximum = .obj [("dependentRequired", .obj [])] ∧
      ¬ Cleaned numericFlags false dependentMaximum (sanitize numericFlags dependentMaximum) := by
  have written : sanitize numericFlags dependentMaximum = .obj [("dependentRequired", .obj [])] := rfl
  refine ⟨written, fun cleaned => ?_⟩
  rw [written] at cleaned
  have kept := cleaned.schema_parts.1 _ mem_cons_self ⟨by decide, by decide, by decide⟩ (by decide)
  simp [get_cons] at kept

end BandSdk.Core.ToolSchema

/-
# Converters.AnthropicResults -- which results stand where they belong

The converter answers a call twice when the call's real result does not land in
the message right after it: the patching pass makes a result up there, and the
real one stays behind, stray.  This happens when something comes between the
call and its result: a text of someone else, a new call once the round was asked,
or anything that ends the round once a result of it arrived.

`Undisturbed` is that condition on the rows in between.  `PlacedFrom` says of the
collected messages that every result answers the message before it, and `Track`
is what of a draft decides it: the calls pending, what the last message asked,
and the results pending.
-/
import BandSdk.Converters.Anthropic

namespace BandSdk.Converters.Anthropic

open List Option Block Draft Message

open BandSdk.Theory (Json)

/-! ## Rows -/

/-- What a row is to the converter. -/
inductive Mark where
  | call (id : String)
  /-- A call that does not parse. -/
  | badCall
  | result (id : String)
  | badResult
  /-- A text of this agent. -/
  | own
  /-- A text of someone else. -/
  | peer
  | other
  deriving DecidableEq

def mark (codec : Codec) (agentName : String) (row : Row) : Mark :=
  match row.type with
  | .toolCall => (parseToolCall codec row.body).elim .badCall fun call => .call call.toolCallId
  | .toolResult =>
    (parseToolResult codec row.body).elim .badResult fun result => .result result.toolCallId
  | .text => if isOwn agentName row then .own else .peer
  | .thought | .error | .task | .usage | .unknown => .other

def callIds (marks : List Mark) : List String :=
  marks.filterMap fun
    | .call id => some id
    | _ => none

def resultIds (marks : List Mark) : List String :=
  marks.filterMap fun
    | .result id => some id
    | _ => none

/-- Ids are unique, and every result has its call before it. -/
structure Correlated (marks : List Mark) : Prop where
  calls : (callIds marks).Nodup
  results : (resultIds marks).Nodup
  earlier : ∀ before id after, marks = before ++ .result id :: after → id ∈ callIds before

/-- Whether the later row ends the round that the earlier one is in. -/
def Mark.breaks : Mark → Mark → Bool
  | .result _, .call _ | .badResult, .call _ | .own, .call _ => true
  | .result _, .own | .result _, .badCall => true
  | _, _ => false

/-- Nothing in these rows, between a call and its result, separates the two. -/
def Undisturbed (between : List Mark) : Prop :=
  .peer ∉ between ∧ between.Pairwise fun earlier later => earlier.breaks later = false

instance (between : List Mark) : Decidable (Undisturbed between) :=
  inferInstanceAs (Decidable (_ ∧ _))

/-- Every call is undisturbed until its result. -/
def Timely (marks : List Mark) : Prop :=
  ∀ before id between after, marks = before ++ .call id :: between ++ .result id :: after → Undisturbed between

/-! ## Results in place -/

/-- Every result answers the message right before it; `asked` is what the message
before the first one asked. -/
def PlacedFrom : List String → List Message → Prop
  | _, [] => True
  | asked, m :: rest => (∀ i ∈ m.answers, i ∈ asked) ∧ PlacedFrom m.uses rest

/-- No result is stray, and no call is answered twice. -/
structure NoStray (messages : List Message) : Prop where
  follows : ∀ before m after, messages = before ++ m :: after → ∀ i ∈ m.answers,
    ∃ front last, before = front ++ [last] ∧ last.role = .assistant ∧ i ∈ last.uses
  once : (messages.flatMap Message.answers).Nodup

/-- Calls are the assistant's, results the user's. -/
def Sided (m : Message) : Prop :=
  match m.role with
  | .assistant => m.answers = []
  | .user => m.uses = []

/-! ## What the pass adds -/

/-- The results the pass makes up, from the first message to the last. -/
def allOrphaned : List Message → List String
  | [] => []
  | m :: rest => orphanedIds m rest.head? ++ allOrphaned rest

theorem answers_synthetic (ids : List String) :
    (Message.mk .user (.list (syntheticResults ids))).answers = ids := answers_syntheticResults ids

theorem uses_synthetic (ids : List String) : (Message.mk .user (.list (syntheticResults ids))).uses = [] := by
  simp [uses, blocks, syntheticResults, filterMap_map, Function.comp_def, useId]

theorem uses_prepend (ids : List String) (next : Message) : (prepend ids next).uses = next.uses := by
  simp [uses, prepend, blocks, syntheticResults, filterMap_map, Function.comp_def, useId]

theorem uses_patch (messages : List Message) :
    (patchOrphanedToolUses messages).flatMap Message.uses = messages.flatMap Message.uses := by
  fun_induction patchOrphanedToolUses messages with
  | case1 | case2 m none_ => rfl
  | case3 m some_ => simp [uses_synthetic]
  | case4 m next rest orphaned none_ ih => simp [ih]
  | case5 m next rest orphaned some_ user ih => simp [ih, uses_prepend]
  | case6 m next rest orphaned some_ other ih => simp [ih, uses_synthetic]

/-- The results after the pass are those before it and those it made up. -/
theorem count_answers_patch (messages : List Message) (i : String) :
    ((patchOrphanedToolUses messages).flatMap Message.answers).count i =
      (allOrphaned messages).count i + (messages.flatMap Message.answers).count i := by
  fun_induction patchOrphanedToolUses messages with
  | case1 => rfl
  | case2 m none_ => simp [allOrphaned, none_]
  | case3 m some_ =>
    simp [allOrphaned, answers_synthetic]
    omega
  | case4 m next rest orphaned none_ ih =>
    have nothing : orphanedIds m (some next) = [] := none_
    simp only [allOrphaned, List.head?_cons, nothing, nil_append, flatMap_cons, count_append] at ih ⊢
    omega
  | case5 m next rest orphaned some_ user ih =>
    simp only [allOrphaned, List.head?_cons, orphanedIds_user user, nil_append, flatMap_cons,
      count_append, answers_prepend, orphaned] at ih ⊢
    omega
  | case6 m next rest orphaned some_ other ih =>
    simp only [allOrphaned, List.head?_cons, flatMap_cons, count_append, answers_synthetic, orphaned] at ih ⊢
    omega

/-! ## Placed results are not stray -/

theorem nodup_orphanedIds (m : Message) (next : Option Message) : (orphanedIds m next).Nodup :=
  (perm_insertionSort _ _).nodup_iff.2 ((nodup_dedup _).filter _)

theorem mem_uses_of_toolUseIds {m : Message} {i : String} (asked : i ∈ toolUseIds m) : i ∈ m.uses := by
  unfold toolUseIds at asked
  split at asked
  · cases asked
  · exact asked

theorem PlacedFrom.of_silent {asked asked' : List String} {m : Message} {rest : List Message}
    (silent : m.answers = []) (placed : PlacedFrom asked (m :: rest)) : PlacedFrom asked' (m :: rest) :=
  ⟨by simp [silent], placed.2⟩

theorem silent_of_assistant {m : Message} (sided : Sided m) (other : m.role ≠ .user) : m.answers = [] := by
  cases role : m.role with
  | assistant => simpa [Sided, role] using sided
  | user => exact absurd role other

/-- The pass leaves what is in place there, and puts what it adds in place. -/
theorem placed_patch {messages : List Message} (sided : ∀ m ∈ messages, Sided m) {asked : List String}
    (placed : PlacedFrom asked messages) : PlacedFrom asked (patchOrphanedToolUses messages) := by
  fun_induction patchOrphanedToolUses messages generalizing asked with
  | case1 => trivial
  | case2 m none_ => exact placed
  | case3 m some_ =>
    refine ⟨placed.1, ?_, trivial⟩
    rw [answers_synthetic]
    exact fun i orphaned => mem_uses_of_toolUseIds (mem_orphanedIds.1 orphaned).1
  | case4 m next rest orphaned none_ ih =>
    exact ⟨placed.1, ih (fun m inside => sided m (mem_cons_of_mem _ inside)) placed.2⟩
  | case5 m next rest orphaned some_ user ih =>
    refine ⟨placed.1, ?_, ?_⟩
    · rw [answers_prepend]
      intro i inside
      rcases mem_append.1 inside with made | real
      · exact mem_uses_of_toolUseIds (mem_orphanedIds.1 made).1
      · exact placed.2.1 i real
    · rw [uses_prepend]
      exact ih (fun m inside => sided m (by simp [inside])) placed.2.2
  | case6 m next rest orphaned some_ other ih =>
    have silent := silent_of_assistant (sided next (by simp)) other
    refine ⟨placed.1, ?_, ?_⟩
    · rw [answers_synthetic]
      exact fun i made => mem_uses_of_toolUseIds (mem_orphanedIds.1 made).1
    · rw [uses_synthetic]
      exact ih (fun m inside => sided m (mem_cons_of_mem _ inside)) (placed.2.of_silent silent)

theorem PlacedFrom.within {messages : List Message} {asked : List String} (placed : PlacedFrom asked messages) :
    ∀ i ∈ messages.flatMap Message.answers, i ∈ asked ++ messages.flatMap Message.uses := by
  induction messages generalizing asked with
  | nil => simp
  | cons m rest ih =>
    intro i inside
    rw [flatMap_cons, mem_append] at inside
    rcases inside with here | later
    · exact mem_append_left _ (placed.1 i here)
    · exact mem_append_right _ (by simpa using ih placed.2 i later)

/-- Results in place after calls of distinct ids answer distinct calls. -/
theorem PlacedFrom.nodup {messages : List Message} {asked : List String}
    (placed : PlacedFrom asked messages) (calls : (asked ++ messages.flatMap Message.uses).Nodup)
    (each : ∀ m ∈ messages, m.answers.Nodup) : (messages.flatMap Message.answers).Nodup := by
  induction messages generalizing asked with
  | nil => exact nodup_nil
  | cons m rest ih =>
    rw [flatMap_cons] at calls ⊢
    obtain ⟨-, onward, apart⟩ := nodup_append.1 calls
    refine nodup_append.2 ⟨each m mem_cons_self,
      ih placed.2 onward (fun m inside => each m (mem_cons_of_mem _ inside)), ?_⟩
    intro i here j later same
    exact apart i (placed.1 i here) j (placed.2.within j later) same

theorem each_patch {messages : List Message} (each : ∀ m ∈ messages, m.answers.Nodup) :
    ∀ m ∈ patchOrphanedToolUses messages, m.answers.Nodup := by
  fun_induction patchOrphanedToolUses messages with
  | case1 | case2 m none_ => exact each
  | case3 m some_ => simpa [answers_synthetic, nodup_orphanedIds] using each
  | case4 m next rest orphaned none_ ih =>
    simp only [forall_mem_cons] at each ⊢
    exact ⟨each.1, ih (by simpa using each.2)⟩
  | case5 m next rest orphaned some_ user ih =>
    simp only [forall_mem_cons] at each ⊢
    refine ⟨each.1, ?_, ih each.2.2⟩
    rw [answers_prepend]
    refine nodup_append.2 ⟨nodup_orphanedIds _ _, each.2.1, ?_⟩
    rintro i made j real rfl
    refine (mem_orphanedIds.1 made).2 ?_
    simpa [matchedIds, user] using real
  | case6 m next rest orphaned some_ other ih =>
    simp only [forall_mem_cons] at each ⊢
    exact ⟨each.1, by simpa [answers_synthetic] using nodup_orphanedIds m (some next),
      ih (by simpa using each.2)⟩

theorem sided_patch {messages : List Message} (sided : ∀ m ∈ messages, Sided m) :
    ∀ m ∈ patchOrphanedToolUses messages, Sided m := by
  have made : ∀ ids, Sided ⟨.user, .list (syntheticResults ids)⟩ := uses_synthetic
  fun_induction patchOrphanedToolUses messages with
  | case1 | case2 m none_ => exact sided
  | case3 m some_ => simpa [made] using sided
  | case4 m next rest orphaned none_ ih =>
    simp only [forall_mem_cons] at sided ⊢
    exact ⟨sided.1, ih (by simpa using sided.2)⟩
  | case5 m next rest orphaned some_ user ih =>
    simp only [forall_mem_cons] at sided ⊢
    refine ⟨sided.1, ?_, ih sided.2.2⟩
    have kept : next.uses = [] := by simpa [Sided, user] using sided.2.1
    have role : (prepend orphaned next).role = .user := user
    simpa [Sided, role, uses_prepend] using kept
  | case6 m next rest orphaned some_ other ih =>
    simp only [forall_mem_cons] at sided ⊢
    exact ⟨sided.1, made _, ih (by simpa using sided.2)⟩

theorem PlacedFrom.follows {messages before after : List Message} {m : Message} {asked : List String}
    (placed : PlacedFrom asked messages) (split : messages = before ++ m :: after) {i : String}
    (inside : i ∈ m.answers) :
    (before = [] ∧ i ∈ asked) ∨ ∃ front last, before = front ++ [last] ∧ i ∈ last.uses := by
  induction before generalizing messages asked with
  | nil =>
    subst split
    exact .inl ⟨rfl, placed.1 i inside⟩
  | cons first before ih =>
    subst split
    rcases ih placed.2 rfl with ⟨rfl, known⟩ | ⟨front, last, rfl, known⟩
    · exact .inr ⟨[], first, rfl, known⟩
    · exact .inr ⟨first :: front, last, rfl, known⟩

/-- Where every result is in place, the pass leaves none stray. -/
theorem noStray_patch {messages : List Message} (sided : ∀ m ∈ messages, Sided m)
    (calls : (messages.flatMap Message.uses).Nodup) (each : ∀ m ∈ messages, m.answers.Nodup)
    (placed : PlacedFrom [] messages) : NoStray (patchOrphanedToolUses messages) where
  follows := by
    intro before m after split i inside
    rcases (placed_patch sided placed).follows split inside with ⟨-, none_⟩ | ⟨front, last, eq, asked⟩
    · cases none_
    refine ⟨front, last, eq, ?_, asked⟩
    have kept := sided_patch sided last (by simp [split, eq])
    cases role : last.role with
    | assistant => rfl
    | user =>
      simp only [Sided, role] at kept
      rw [kept] at asked
      cases asked
  once := by
    refine (placed_patch sided placed).nodup ?_ (each_patch each)
    rwa [nil_append, uses_patch]

/-! ## Stray results are answered twice -/

/-- A call that is not orphaned is answered by the message after it. -/
theorem next_of_not_orphaned {messages before after : List Message} {m : Message} {i : String}
    (split : messages = before ++ m :: after) (asked : i ∈ toolUseIds m)
    (kept : i ∉ allOrphaned messages) : i ∈ matchedIds after.head? := by
  induction before generalizing messages with
  | nil =>
    subst split
    by_contra unmatched
    exact kept (mem_append_left _ (mem_orphanedIds.2 ⟨asked, unmatched⟩))
  | cons first before ih =>
    subst split
    exact ih rfl fun orphaned => kept (mem_append_right _ orphaned)

theorem toolUseIds_of_uses {m : Message} (sided : Sided m) {i : String} (asked : i ∈ m.uses) :
    i ∈ toolUseIds m := by
  cases role : m.role with
  | assistant => simpa [toolUseIds, role] using asked
  | user =>
    simp only [Sided, role] at sided
    rw [sided] at asked
    cases asked

theorem answers_of_matched {messages : List Message} {i : String}
    (matched : i ∈ matchedIds messages.head?) : i ∈ messages.flatMap Message.answers := by
  cases messages with
  | nil => cases matched
  | cons m rest =>
    simp only [List.head?_cons, matchedIds] at matched
    split at matched
    · cases matched
    · simp [matched]

theorem suffix_of_split {m a : Message} {rest before after : List Message}
    (split : m :: rest = before ++ a :: after) : after <:+ rest := by
  cases before with
  | nil =>
    obtain ⟨-, rfl⟩ := List.cons.inj split
    exact suffix_refl _
  | cons first before =>
    obtain ⟨-, rfl⟩ := List.cons.inj split
    exact (suffix_cons a after).trans (suffix_append before (a :: after))

/-- Results that no made-up result repeats are in place. -/
theorem placed_of_apart {messages : List Message} (sided : ∀ m ∈ messages, Sided m)
    (results : (messages.flatMap Message.answers).Nodup)
    (apart : ∀ i ∈ allOrphaned messages, i ∉ messages.flatMap Message.answers) {asked : List String}
    (known : ∀ i ∈ messages.flatMap Message.answers, i ∈ asked ∨ i ∈ messages.flatMap Message.uses)
    (first : ∀ i ∈ asked, i ∈ messages.flatMap Message.answers → i ∈ matchedIds messages.head?) :
    PlacedFrom asked messages := by
  induction messages generalizing asked with
  | nil => trivial
  | cons m rest ih =>
    have kept : ∀ i ∈ (m :: rest).flatMap answers, i ∉ allOrphaned (m :: rest) :=
      fun i real made => apart i made real
    have more : ∀ i ∈ rest.flatMap answers, i ∈ (m :: rest).flatMap answers := by
      intro i real
      rw [flatMap_cons]
      exact mem_append_right _ real
    rw [flatMap_cons] at results
    obtain ⟨-, later, disjoint⟩ := nodup_append.1 results
    refine ⟨fun i here => ?_, ih (fun m inside => sided m (mem_cons_of_mem _ inside)) later ?_ ?_ ?_⟩
    · have real : i ∈ (m :: rest).flatMap answers := by simp [here]
      rcases known i real with mine | called
      · exact mine
      -- a call from here on is answered behind this message, and only once
      obtain ⟨a, inside, uses⟩ := mem_flatMap.1 called
      obtain ⟨before, after, split⟩ := append_of_mem inside
      have matched := next_of_not_orphaned split (toolUseIds_of_uses (sided a inside) uses) (kept i real)
      obtain ⟨u, member, again⟩ := mem_flatMap.1 (answers_of_matched matched)
      have behind : i ∈ rest.flatMap answers :=
        mem_flatMap.2 ⟨u, (suffix_of_split split).subset member, again⟩
      exact absurd rfl (disjoint i here i behind)
    · intro i made real
      exact apart i (mem_append_right _ made) (more i real)
    · intro i real
      have here := more i real
      rcases known i here with mine | called
      · have matched : i ∈ m.answers := by
          have matched := first i mine here
          simp only [List.head?_cons, matchedIds] at matched
          split at matched
          · cases matched
          · exact matched
        exact absurd rfl (disjoint i matched i real)
      · rw [flatMap_cons] at called
        exact mem_append.1 called
    · intro i mine real
      exact next_of_not_orphaned (nil_append (m :: rest)).symm
        (toolUseIds_of_uses (sided m mem_cons_self) mine) (kept i (more i real))

/-- Over calls and results with distinct ids, every result answering a call, the
pass leaves no result stray exactly where every result was in place. -/
theorem noStray_patch_iff {messages : List Message} (sided : ∀ m ∈ messages, Sided m)
    (calls : (messages.flatMap Message.uses).Nodup) (results : (messages.flatMap Message.answers).Nodup)
    (known : ∀ i ∈ messages.flatMap Message.answers, i ∈ messages.flatMap Message.uses) :
    NoStray (patchOrphanedToolUses messages) ↔ PlacedFrom [] messages := by
  constructor
  · intro noStray
    refine placed_of_apart sided results ?_ (fun i real => .inr (known i real)) (by simp)
    intro i made real
    have once := nodup_iff_count_le_one.1 noStray.once i
    rw [count_answers_patch] at once
    have one := count_pos_iff.2 made
    have two := count_pos_iff.2 real
    omega
  · intro placed
    refine noStray_patch sided calls (fun m inside => ?_) placed
    exact (nodup_flatMap.1 results).1 m inside

/-! ## What of a draft decides it -/

/-- The calls pending, what the last message asked, and the results pending. -/
structure Track where
  calls : List String := []
  asked : List String := []
  results : List String := []

namespace Track

variable (t : Track)

def flushCalls : Track :=
  if t.calls = [] then t else { t with calls := [], asked := t.calls }

def flushResults : Track :=
  if t.results = [] then t else { t with asked := [], results := [] }

def step : Mark → Track
  | .call id => { t.flushResults with calls := t.flushResults.calls ++ [id] }
  | .badCall => t.flushResults
  | .result id => { t.flushCalls with results := t.flushCalls.results ++ [id] }
  | .badResult => t.flushCalls
  | .own => t.flushCalls.flushResults
  | .peer => { t.flushCalls.flushResults with asked := [] }
  | .other => t

/-- A result that came now would answer the message before it. -/
def Fits (id : String) : Prop := id ∈ t.flushCalls.asked

variable {t} {id : String}

/-- A call whose round is past is not asked again. -/
theorem missed {marks : List Mark} (unique : .call id ∉ marks) (gone : id ∉ t.calls)
    (past : t.calls = [] → id ∉ t.asked) : ¬ (marks.foldl step t).Fits id := by
  induction marks generalizing t with
  | nil =>
    by_cases none_ : t.calls = []
    · simpa [Fits, flushCalls, none_] using past none_
    · simpa [Fits, flushCalls, none_] using gone
  | cons m rest ih =>
    rw [mem_cons, not_or] at unique
    refine ih unique.2 ?_ ?_
    · cases m with
      | call other =>
        have apart : id ≠ other := fun same => unique.1 (congrArg Mark.call same)
        by_cases none_ : t.results = [] <;> simp [step, flushResults, none_, gone, apart]
      | badCall => by_cases none_ : t.results = [] <;> simp [step, flushResults, none_, gone]
      | result other | badResult =>
        by_cases none_ : t.calls = [] <;> simp [step, flushCalls, none_]
      | own | peer =>
        by_cases none_ : t.calls = [] <;> by_cases empty : t.results = [] <;>
          simp [step, flushCalls, flushResults, none_, empty]
      | other => exact gone
    · cases m with
      | call other => simp [step]
      | badCall =>
        by_cases none_ : t.results = []
        · simpa [step, flushResults, none_] using past
        · simp [step, flushResults, none_]
      | result other | badResult =>
        by_cases none_ : t.calls = []
        · simpa [step, flushCalls, none_] using past none_
        · simpa [step, flushCalls, none_] using gone
      | own =>
        by_cases none_ : t.calls = [] <;> by_cases empty : t.results = [] <;>
          simp_all [step, flushCalls, flushResults]
      | peer => simp [step]
      | other => exact past

end Track

theorem undisturbed_cons {m : Mark} {rest : List Mark} : Undisturbed (m :: rest) ↔
    m ≠ .peer ∧ (∀ later ∈ rest, m.breaks later = false) ∧ Undisturbed rest := by
  simp only [Undisturbed, mem_cons, not_or, pairwise_cons]
  tauto

/-- Whether a row ends a round that has a result. -/
def Mark.ends : Mark → Bool
  | .call _ | .own | .badCall | .peer => true
  | _ => false

namespace Track

variable {t : Track} {id : String} {marks : List Mark}

/-- Once a result of the round arrived, any row that ends it comes too early. -/
theorem fits_answering (unique : .call id ∉ marks) (none_ : t.calls = []) (some_ : t.results ≠ [])
    (asked : id ∈ t.asked) :
    (marks.foldl step t).Fits id ↔ ∀ m ∈ marks, m.ends = false := by
  induction marks generalizing t with
  | nil => simpa [Fits, flushCalls, none_] using asked
  | cons m rest ih =>
    rw [mem_cons, not_or] at unique
    rw [foldl_cons, forall_mem_cons]
    cases m with
    | call other =>
      have apart : id ≠ other := fun same => unique.1 (congrArg Mark.call same)
      refine iff_of_false (missed unique.2 ?_ ?_) (by simp [Mark.ends])
      · simp [step, flushResults, some_, none_, apart]
      · simp [step]
    | badCall | own | peer =>
      refine iff_of_false (missed unique.2 ?_ ?_) (by simp [Mark.ends]) <;>
        simp [step, flushCalls, flushResults, some_, none_]
    | result other =>
      rw [ih unique.2 (by simp [step, flushCalls, none_]) (by simp [step, flushCalls, none_])
        (by simpa [step, flushCalls, none_] using asked)]
      simp [Mark.ends]
    | badResult =>
      rw [ih unique.2 (by simp [step, flushCalls, none_]) (by simpa [step, flushCalls, none_] using some_)
        (by simpa [step, flushCalls, none_] using asked)]
      simp [Mark.ends]
    | other =>
      rw [show step t .other = t from rfl, ih unique.2 none_ some_ asked]
      simp [Mark.ends]

/-- After a result, what does not end the round disturbs nothing. -/
theorem undisturbed_result {other : String} :
    Undisturbed (.result other :: marks) ↔ ∀ m ∈ marks, m.ends = false := by
  rw [undisturbed_cons]
  constructor
  · rintro ⟨-, fine, quiet⟩ m inside
    have kept := fine m inside
    cases m with
    | peer => exact absurd inside quiet.1
    | call _ | own | badCall => simp [Mark.breaks] at kept
    | result _ | badResult | other => rfl
  · intro quiet
    have never : ∀ earlier, ∀ later ∈ marks, Mark.breaks earlier later = false := by
      intro earlier later inside
      have calm := quiet later inside
      cases later <;> cases earlier <;> simp_all [Mark.ends, Mark.breaks]
    refine ⟨by simp, never _, fun peer => by simpa [Mark.ends] using quiet .peer peer, ?_⟩
    exact pairwise_of_forall_mem_list fun earlier _ later inside => never earlier later inside

/-- A round that was asked without a result yet is ended by a new call only. -/
theorem breaks_iff {m : Mark} (asks : m = .badResult ∨ m = .own) :
    (∀ later ∈ marks, m.breaks later = false) ↔ ∀ other, .call other ∉ marks := by
  constructor
  · intro fine other inside
    rcases asks with rfl | rfl <;> simpa [Mark.breaks] using fine _ inside
  · intro none_ later inside
    cases later with
    | call other => exact absurd inside (none_ other)
    | badCall | result _ | badResult | own | peer | other => rcases asks with rfl | rfl <;> rfl

theorem breaks_never {m : Mark} (idle : m = .badCall ∨ m = .other) (later : Mark) : m.breaks later = false := by
  rcases idle with rfl | rfl <;> rfl

/-- Once the round is asked, a new call comes too early. -/
theorem fits_asked (unique : .call id ∉ marks) (none_ : t.calls = []) (empty : t.results = [])
    (asked : id ∈ t.asked) :
    (marks.foldl step t).Fits id ↔ Undisturbed marks ∧ ∀ other, .call other ∉ marks := by
  induction marks with
  | nil => simpa [Fits, flushCalls, none_, Undisturbed] using asked
  | cons m rest ih =>
    rw [mem_cons, not_or] at unique
    have ih := ih unique.2
    rw [foldl_cons]
    cases m with
    | call other =>
      have apart : id ≠ other := fun same => unique.1 (congrArg Mark.call same)
      refine iff_of_false (missed unique.2 ?_ ?_) ?_
      · simp [step, flushResults, empty, none_, apart]
      · simp [step]
      · exact fun ⟨_, none_⟩ => none_ other mem_cons_self
    | peer =>
      refine iff_of_false (missed unique.2 ?_ ?_) ?_
      · simp [step, flushCalls, flushResults, none_, empty]
      · simp [step]
      · exact fun ⟨quiet, _⟩ => quiet.1 mem_cons_self
    | result other =>
      rw [fits_answering unique.2 (by simp [step, flushCalls, none_]) (by simp [step, flushCalls, none_])
        (by simpa [step, flushCalls, none_] using asked), undisturbed_result]
      refine ⟨fun quiet => ⟨quiet, fun called inside => ?_⟩, And.left⟩
      simp only [mem_cons, reduceCtorEq, false_or] at inside
      simpa [Mark.ends] using quiet _ inside
    | badCall | other =>
      have same : ∀ m, m = .badCall ∨ m = .other → step t m = t := by
        rintro m (rfl | rfl) <;> simp [step, flushResults, empty]
      rw [same _ (by simp), ih, undisturbed_cons]
      simp [breaks_never]
    | badResult | own =>
      have same : ∀ m, m = .badResult ∨ m = .own → step t m = t := by
        rintro m (rfl | rfl) <;> simp [step, flushCalls, flushResults, none_, empty]
      rw [same _ (by simp), ih, undisturbed_cons, breaks_iff (by simp)]
      simp only [ne_eq, reduceCtorEq, not_false_eq_true, true_and, mem_cons, false_or]
      exact ⟨fun ⟨quiet, calls⟩ => ⟨⟨calls, quiet⟩, calls⟩, fun ⟨⟨_, quiet⟩, calls⟩ => ⟨quiet, calls⟩⟩

/-- While its round gathers calls, a call fits its result if the rows between disturb neither. -/
theorem fits_gathering (unique : .call id ∉ marks) (empty : t.results = []) (called : id ∈ t.calls) :
    (marks.foldl step t).Fits id ↔ Undisturbed marks := by
  have some_ : ∀ {t : Track}, id ∈ t.calls → t.calls ≠ [] := by
    intro t called none_
    rw [none_] at called
    cases called
  induction marks generalizing t with
  | nil => simpa [Fits, flushCalls, some_ called, Undisturbed] using called
  | cons m rest ih =>
    rw [mem_cons, not_or] at unique
    rw [foldl_cons, undisturbed_cons]
    cases m with
    | call other =>
      refine (ih unique.2 ?_ ?_).trans ?_
      · simp [step, flushResults, empty]
      · simp [step, flushResults, empty, called]
      · simp [Mark.breaks]
    | badCall | other =>
      have same : ∀ m, m = .badCall ∨ m = .other → step t m = t := by
        rintro m (rfl | rfl) <;> simp [step, flushResults, empty]
      rw [same _ (by simp)]
      refine (ih unique.2 empty called).trans ?_
      simp [breaks_never]
    | result other =>
      rw [← undisturbed_cons, undisturbed_result]
      apply fits_answering unique.2
      · simp [step, flushCalls, some_ called]
      · simp [step, flushCalls, some_ called, empty]
      · simpa [step, flushCalls, some_ called] using called
    | badResult | own =>
      rw [fits_asked unique.2 (by simp [step, flushCalls, flushResults, some_ called, empty])
        (by simp [step, flushCalls, flushResults, some_ called, empty])
        (by simpa [step, flushCalls, flushResults, some_ called, empty] using called),
        breaks_iff (by simp)]
      simp only [ne_eq, reduceCtorEq, not_false_eq_true, true_and]
      exact And.comm
    | peer =>
      refine iff_of_false (missed unique.2 ?_ ?_) (by simp)
      · simp [step, flushCalls, flushResults, some_ called, empty]
      · simp [step]

end Track

/-! ## The draft and its track -/

namespace Draft

variable (d : Draft)

def track : Track where
  calls := d.pendingToolCalls.filterMap Block.useId
  asked := (d.messages.getLast?.map Message.uses).getD []
  results := d.pendingToolResults.filterMap Block.resultId

/-- What a draft keeps: its blocks are where they belong, and calls and results
are never pending together. -/
structure Neat : Prop where
  calls : ∀ block ∈ d.pendingToolCalls, block.useId.isSome = true
  results : ∀ block ∈ d.pendingToolResults, block.resultId.isSome = true
  sided : ∀ m ∈ d.messages, Sided m
  turns : d.pendingToolResults ≠ [] → d.pendingToolCalls = []

/-- The calls and results of a draft, in the order they came. -/
def calls : List String := d.messages.flatMap Message.uses ++ d.track.calls

def results : List String := d.messages.flatMap Message.answers ++ d.track.results

/-- Every result so far answers the message before it. -/
def Placed : Prop := PlacedFrom [] d.messages ∧ ∀ i ∈ d.track.results, i ∈ d.track.asked

end Draft

theorem placedFrom_append_singleton {asked : List String} {messages : List Message} {m : Message} :
    PlacedFrom asked (messages ++ [m]) ↔ PlacedFrom asked messages ∧
      ∀ i ∈ m.answers, i ∈ (messages.getLast?.map Message.uses).getD asked := by
  induction messages generalizing asked with
  | nil => simp [PlacedFrom]
  | cons first rest ih =>
    rw [cons_append, PlacedFrom, PlacedFrom, ih, and_assoc]
    cases rest with
    | nil => simp
    | cons second rest =>
      have last := getLast?_eq_some_getLast (cons_ne_nil second rest)
      rw [getLast?_cons_cons, last]
      exact Iff.rfl

section Kinds

variable {kind other : Block → Option String} {blocks : List Block}

theorem filterMap_eq_nil (all : ∀ block ∈ blocks, (kind block).isSome = true) :
    blocks.filterMap kind = [] ↔ blocks = [] := by
  constructor
  · intro none_
    cases blocks with
    | nil => rfl
    | cons block rest =>
      obtain ⟨i, known⟩ := isSome_iff_exists.1 (all block mem_cons_self)
      simp [known] at none_
  · rintro rfl
    rfl

theorem answers_of_calls (all : ∀ block ∈ blocks, block.useId.isSome = true) :
    blocks.filterMap Block.resultId = [] := by
  rw [filterMap_eq_nil_iff]
  intro block inside
  have known := all block inside
  cases block <;> simp_all [useId, resultId]

theorem uses_of_results (all : ∀ block ∈ blocks, block.resultId.isSome = true) :
    blocks.filterMap Block.useId = [] := by
  rw [filterMap_eq_nil_iff]
  intro block inside
  have known := all block inside
  cases block <;> simp_all [useId, resultId]

end Kinds

namespace Draft.Neat

variable {d : Draft} (neat : d.Neat)

include neat

theorem flushCalls_spec : d.flushPendingToolCalls.Neat ∧ d.flushPendingToolCalls.track = d.track.flushCalls ∧
    d.flushPendingToolCalls.calls = d.calls ∧ d.flushPendingToolCalls.results = d.results ∧
    (d.flushPendingToolCalls.Placed ↔ d.Placed) := by
  by_cases none_ : d.pendingToolCalls = []
  · simp [flushPendingToolCalls, Track.flushCalls, track, none_, neat]
  have some_ : d.track.calls ≠ [] := fun empty => none_ ((filterMap_eq_nil neat.calls).1 empty)
  have quiet : d.pendingToolResults = [] := by
    by_contra pending
    exact none_ (neat.turns pending)
  have silent : answers ⟨.assistant, .list d.pendingToolCalls⟩ = [] := answers_of_calls neat.calls
  rw [flushPendingToolCalls, if_neg none_]
  refine ⟨⟨by simp, neat.results, ?_, by simp⟩, ?_, ?_, ?_, ?_⟩
  · intro m inside
    rcases mem_append.1 inside with inside | inside
    · exact neat.sided m inside
    · rw [mem_singleton.1 inside]
      exact silent
  · rw [Track.flushCalls, if_neg some_]
    simp [track, uses, blocks]
  · simp [Draft.calls, track, uses, blocks]
  · simp [Draft.results, track, silent]
  · simp [Placed, placedFrom_append_singleton, silent, track, quiet]

theorem flushResults_spec : d.flushPendingToolResults.Neat ∧
    d.flushPendingToolResults.track = d.track.flushResults ∧
    d.flushPendingToolResults.calls = d.calls ∧ d.flushPendingToolResults.results = d.results ∧
    (d.flushPendingToolResults.Placed ↔ d.Placed) := by
  by_cases none_ : d.pendingToolResults = []
  · simp [flushPendingToolResults, Track.flushResults, track, none_, neat]
  have some_ : d.track.results ≠ [] := fun empty => none_ ((filterMap_eq_nil neat.results).1 empty)
  have idle : uses ⟨.user, .list d.pendingToolResults⟩ = [] := uses_of_results neat.results
  rw [flushPendingToolResults, if_neg none_]
  refine ⟨⟨neat.calls, by simp, ?_, by simp⟩, ?_, ?_, ?_, ?_⟩
  · intro m inside
    rcases mem_append.1 inside with inside | inside
    · exact neat.sided m inside
    · rw [mem_singleton.1 inside]
      exact idle
  · rw [Track.flushResults, if_neg some_]
    simp [track, idle]
  · simp [Draft.calls, track, idle]
  · simp [Draft.results, track, answers, blocks]
  · simp [Placed, placedFrom_append_singleton, track, answers, blocks]

end Draft.Neat

namespace Draft

theorem no_results (d : Draft) : d.flushPendingToolResults.pendingToolResults = [] := by
  by_cases none_ : d.pendingToolResults = [] <;> simp [flushPendingToolResults, none_]

theorem no_calls (d : Draft) : d.flushPendingToolCalls.pendingToolCalls = [] := by
  by_cases none_ : d.pendingToolCalls = [] <;> simp [flushPendingToolCalls, none_]

theorem flushResults_calls (d : Draft) : d.flushPendingToolResults.pendingToolCalls = d.pendingToolCalls := by
  by_cases none_ : d.pendingToolResults = [] <;> simp [flushPendingToolResults, none_]

variable {d : Draft}

theorem addCall_spec (neat : d.Neat) (empty : d.pendingToolResults = []) (id name : String)
    (input : List (String × Json)) :
    let d' := { d with pendingToolCalls := d.pendingToolCalls ++ [toolUse id name input] }
    d'.Neat ∧ d'.track = { d.track with calls := d.track.calls ++ [id] } ∧
      d'.calls = d.calls ++ [id] ∧ d'.results = d.results ∧ (d'.Placed ↔ d.Placed) := by
  refine ⟨⟨?_, neat.results, neat.sided, by simp [empty]⟩, ?_, ?_, rfl, Iff.rfl⟩
  · intro block inside
    rcases mem_append.1 inside with inside | inside
    · exact neat.calls block inside
    · rw [mem_singleton.1 inside]
      rfl
  · simp [track, useId]
  · simp [calls, track, useId]

theorem addResult_spec (neat : d.Neat) (none_ : d.pendingToolCalls = []) (id output : String) (isError : Bool) :
    let d' := { d with pendingToolResults := d.pendingToolResults ++ [toolResult id output isError] }
    d'.Neat ∧ d'.track = { d.track with results := d.track.results ++ [id] } ∧
      d'.calls = d.calls ∧ d'.results = d.results ++ [id] ∧
      (d'.Placed ↔ d.Placed ∧ id ∈ d.track.asked) := by
  refine ⟨⟨neat.calls, ?_, neat.sided, fun _ => none_⟩, ?_, rfl, ?_, ?_⟩
  · intro block inside
    rcases mem_append.1 inside with inside | inside
    · exact neat.results block inside
    · rw [mem_singleton.1 inside]
      rfl
  · simp [track, resultId]
  · simp [results, track, resultId]
  · simp only [Placed, track, filterMap_append, forall_mem_append, and_assoc]
    simp [resultId]

/-- A text of someone else ends the messages. -/
theorem addText_spec (neat : d.Neat) (none_ : d.pendingToolCalls = []) (empty : d.pendingToolResults = [])
    (said : String) :
    let d' := { d with messages := d.messages ++ [Message.mk .user (.str said)] }
    d'.Neat ∧ d'.track = { d.track with asked := [] } ∧
      d'.calls = d.calls ∧ d'.results = d.results ∧ (d'.Placed ↔ d.Placed) := by
  have silent : answers ⟨.user, .str said⟩ = [] := rfl
  have idle : uses ⟨.user, .str said⟩ = [] := rfl
  refine ⟨⟨neat.calls, neat.results, ?_, neat.turns⟩, ?_, ?_, ?_, ?_⟩
  · intro m inside
    rcases mem_append.1 inside with inside | inside
    · exact neat.sided m inside
    · rw [mem_singleton.1 inside]
      exact idle
  · simp [track, idle]
  · simp [calls, track, idle, none_]
  · simp [results, track, silent, empty]
  · simp [Placed, placedFrom_append_singleton, silent, track, empty]

end Draft

variable (codec : Codec) (agentName : String)

/-- One row: the track follows its mark, the ids are collected in order, and what
was in place stays so, a result being in place if it fits. -/
theorem handle_spec {d : Draft} (neat : d.Neat) (row : Row) :
    (handle codec agentName d row).Neat ∧
    (handle codec agentName d row).track = d.track.step (mark codec agentName row) ∧
    (handle codec agentName d row).calls = d.calls ++ callIds [mark codec agentName row] ∧
    (handle codec agentName d row).results = d.results ++ resultIds [mark codec agentName row] ∧
    ((handle codec agentName d row).Placed ↔
      d.Placed ∧ ∀ id, mark codec agentName row = .result id → d.track.Fits id) := by
  obtain ⟨neatC, trackC, callsC, resultsC, placedC⟩ := neat.flushCalls_spec
  obtain ⟨neatR, trackR, callsR, resultsR, placedR⟩ := neat.flushResults_spec
  obtain ⟨neatB, trackB, callsB, resultsB, placedB⟩ := neatC.flushResults_spec
  unfold handle mark
  cases type : row.type with
  | toolCall =>
    cases parseToolCall codec row.body with
    | none => simp [neatR, trackR, callsR, resultsR, placedR, Track.step, callIds, resultIds]
    | some call =>
      obtain ⟨neat', track', calls', results', placed'⟩ :=
        addCall_spec neatR d.no_results call.toolCallId call.name call.args
      simp [neat', track', calls', results', placed', trackR, callsR, resultsR, placedR, Track.step,
        callIds, resultIds]
  | toolResult =>
    cases parseToolResult codec row.body with
    | none => simp [neatC, trackC, callsC, resultsC, placedC, Track.step, callIds, resultIds]
    | some result =>
      obtain ⟨neat', track', calls', results', placed'⟩ :=
        addResult_spec neatC d.no_calls result.toolCallId result.output result.isError
      simp [neat', track', calls', results', placed', trackC, callsC, resultsC, placedC, Track.step,
        callIds, resultIds, Track.Fits]
  | text =>
    cases isOwn agentName row with
    | true =>
      simp [neatB, trackB, trackC, callsB, callsC, resultsB, resultsC, placedB, placedC, Track.step,
        callIds, resultIds]
    | false =>
      obtain ⟨neat', track', calls', results', placed'⟩ := addText_spec neatB
        (by rw [flushResults_calls, no_calls]) (no_results _) row.quoted
      simp [neat', track', calls', results', placed', trackB, trackC, callsB, callsC, resultsB,
        resultsC, placedB, placedC, Track.step, callIds, resultIds]
  | thought | error | task | usage | unknown =>
    simp [neat, Track.step, callIds, resultIds]

/-- What a whole history leaves: what one row does, row after row. -/
theorem foldl_spec (raw : List Row) {d : Draft} (neat : d.Neat) :
    (raw.foldl (handle codec agentName) d).Neat ∧
    (raw.foldl (handle codec agentName) d).calls = d.calls ++ callIds (raw.map (mark codec agentName)) ∧
    (raw.foldl (handle codec agentName) d).results = d.results ++ resultIds (raw.map (mark codec agentName)) ∧
    ((raw.foldl (handle codec agentName) d).Placed ↔ d.Placed ∧
      ∀ before id after, raw.map (mark codec agentName) = before ++ .result id :: after →
        (before.foldl Track.step d.track).Fits id) := by
  induction raw generalizing d with
  | nil => simp [neat, callIds, resultIds]
  | cons row raw ih =>
    obtain ⟨neat', track', calls', results', placed'⟩ := handle_spec codec agentName neat row
    obtain ⟨done, calls, results, placed⟩ := ih neat'
    refine ⟨done, ?_, ?_, ?_⟩
    · rw [foldl_cons, calls, calls', append_assoc, map_cons]
      simp only [callIds, ← filterMap_append, singleton_append]
    · rw [foldl_cons, results, results', append_assoc, map_cons]
      simp only [resultIds, ← filterMap_append, singleton_append]
    · rw [foldl_cons, placed, placed', and_assoc, map_cons, track']
      refine and_congr_right fun _ => ?_
      constructor
      · rintro ⟨here, later⟩ before id after split
        cases before with
        | nil => exact here id (List.cons.inj split).1
        | cons first before =>
          obtain ⟨rfl, rest⟩ := List.cons.inj split
          exact later before id after rest
      · intro all
        refine ⟨fun id marked => ?_, fun before id after split => ?_⟩
        · exact all [] id (raw.map (mark codec agentName)) (by rw [marked]; rfl)
        · exact all (mark codec agentName row :: before) id after (by rw [split]; rfl)

theorem callIds_append (l r : List Mark) : callIds (l ++ r) = callIds l ++ callIds r :=
  filterMap_append

theorem mem_callIds {marks : List Mark} {id : String} : id ∈ callIds marks ↔ .call id ∈ marks := by
  simp only [callIds, mem_filterMap]
  constructor
  · rintro ⟨m, inside, known⟩
    cases m with
    | call other => rwa [← some.inj known]
    | badCall | result _ | badResult | own | peer | other => cases known
  · exact fun inside => ⟨_, inside, rfl⟩

/-- Over unique calls, a result fits if the rows since its call disturb neither. -/
theorem fits_iff {before between : List Mark} {id : String}
    (unique : (callIds (before ++ .call id :: between)).Nodup) :
    ((before ++ .call id :: between).foldl Track.step {}).Fits id ↔ Undisturbed between := by
  have once : .call id ∉ between := by
    intro again
    rw [callIds_append, nodup_append] at unique
    have distinct := unique.2.1
    rw [show callIds (.call id :: between) = id :: callIds between from rfl, nodup_cons] at distinct
    exact distinct.1 (mem_callIds.2 again)
  rw [foldl_append, foldl_cons]
  apply Track.fits_gathering once
  · by_cases none_ : (before.foldl Track.step {}).results = [] <;> simp [Track.step, Track.flushResults, none_]
  · simp [Track.step]

theorem timely_iff {marks : List Mark} (correlated : Correlated marks) :
    (∀ before id after, marks = before ++ .result id :: after → (before.foldl Track.step {}).Fits id) ↔
      Timely marks := by
  have unique : ∀ {before after : List Mark}, marks = before ++ after → (callIds before).Nodup := by
    intro before after split
    have calls := correlated.calls
    rw [split, callIds_append] at calls
    exact (nodup_append.1 calls).1
  constructor
  · intro fits before id between after split
    refine (fits_iff (unique split)).1 (fits _ id after ?_)
    rw [split]
  · intro timely before id after split
    have earlier := mem_callIds.1 (correlated.earlier before id after split)
    obtain ⟨front, between, rfl⟩ := append_of_mem earlier
    refine (fits_iff (unique split)).2 (timely front id between after ?_)
    rw [split]

theorem known_of_correlated {marks : List Mark} (correlated : Correlated marks) :
    ∀ i ∈ resultIds marks, i ∈ callIds marks := by
  intro i inside
  simp only [resultIds, mem_filterMap] at inside
  obtain ⟨m, member, known⟩ := inside
  cases m with
  | result other =>
    obtain rfl := some.inj known
    obtain ⟨before, after, split⟩ := append_of_mem member
    rw [split, callIds_append]
    exact mem_append_left _ (correlated.earlier before other after split)
  | call _ | badCall | badResult | own | peer | other => cases known

/-- **When no result is stray.**  Over a history whose ids are unique and whose
results all have an earlier call, the converted messages leave no result stray and
answer no call twice exactly where nothing separates a call from its result: no
text of another participant, no call once the round was asked, and nothing that
ends the round once it has a result. -/
theorem no_stray_iff_timely (raw : List Row) (correlated : Correlated (raw.map (mark codec agentName))) :
    NoStray (convert codec agentName raw) ↔ Timely (raw.map (mark codec agentName)) := by
  have fresh : ({} : Draft).Neat := ⟨by simp, by simp, by simp, by simp⟩
  obtain ⟨neat, calls, results, placed⟩ := foldl_spec codec agentName raw fresh
  generalize last : raw.foldl (handle codec agentName) {} = d at neat calls results placed
  obtain ⟨neatC, -, callsC, resultsC, placedC⟩ := neat.flushCalls_spec
  obtain ⟨neatB, trackB, callsB, resultsB, placedB⟩ := neatC.flushResults_spec
  -- nothing is pending at the end, so the messages have every call and every result
  have collect : collected codec agentName raw =
      d.flushPendingToolCalls.flushPendingToolResults.messages := by rw [collected, last]
  have none_ : d.flushPendingToolCalls.flushPendingToolResults.track.calls = [] := by
    simp [track, flushResults_calls, no_calls]
  have empty : d.flushPendingToolCalls.flushPendingToolResults.track.results = [] := by
    simp [track, no_results]
  have uses : (collected codec agentName raw).flatMap uses = callIds (raw.map (mark codec agentName)) := by
    have all := callsB.trans (callsC.trans calls)
    rw [Draft.calls, none_, append_nil] at all
    rw [collect, all]
    rfl
  have answers : (collected codec agentName raw).flatMap answers =
      resultIds (raw.map (mark codec agentName)) := by
    have all := resultsB.trans (resultsC.trans results)
    rw [Draft.results, empty, append_nil] at all
    rw [collect, all]
    rfl
  have inPlace : PlacedFrom [] (collected codec agentName raw) ↔ Timely (raw.map (mark codec agentName)) := by
    have whole := placedB.trans (placedC.trans placed)
    rw [Draft.Placed, empty, ← collect] at whole
    rw [← timely_iff correlated]
    simpa [Draft.Placed, PlacedFrom, track] using whole
  rw [convert, noStray_patch_iff ?_ ?_ ?_ ?_, inPlace]
  · rw [collect]
    exact neatB.sided
  · rw [uses]
    exact correlated.calls
  · rw [answers]
    exact correlated.results
  · rw [answers, uses]
    exact known_of_correlated correlated

/-! ### A peer who speaks while a tool runs -/

/-- The tool events of the histories below, as `json.loads` reads them. -/
def sampleCodec : Codec where
  loads content :=
    if content = "\x7b\"name\": \"search\", \"args\": \x7b\x7d, \"tool_call_id\": \"t1\"\x7d" then
      some (.obj [("name", .str "search"), ("args", .obj []), ("tool_call_id", .str "t1")])
    else if content = "\x7b\"name\": \"search\", \"output\": \"found\", \"tool_call_id\": \"t1\"\x7d" then
      some (.obj [("name", .str "search"), ("output", .str "found"), ("tool_call_id", .str "t1")])
    else none
  str
    | .str value => value
    | _ => ""

def sampleCall : Row where
  messageType := some .toolCall
  content := some "\x7b\"name\": \"search\", \"args\": \x7b\x7d, \"tool_call_id\": \"t1\"\x7d"
  role := some .assistant
  senderName := some "helper"

def sampleResult : Row where
  messageType := some .toolResult
  content := some "\x7b\"name\": \"search\", \"output\": \"found\", \"tool_call_id\": \"t1\"\x7d"
  role := some .assistant
  senderName := some "helper"

def samplePeer : Row where
  messageType := some .text
  content := some "any news?"
  role := some .user
  senderName := some "ana"

theorem sample_marks : [sampleCall, samplePeer, sampleResult].map (mark sampleCodec "helper") =
    [.call "t1", .peer, .result "t1"] := by
  decide +kernel

theorem sample_correlated :
    Correlated ([sampleCall, samplePeer, sampleResult].map (mark sampleCodec "helper")) := by
  rw [sample_marks]
  refine ⟨by decide, by decide, ?_⟩
  intro before id after split
  rcases before with _ | ⟨first, _ | ⟨second, _ | ⟨third, before⟩⟩⟩ <;> simp at split
  obtain ⟨rfl, rfl, rfl, -⟩ := split
  decide

theorem no_stray_iff_timely_interrupted :
    ¬ Timely ([sampleCall, samplePeer, sampleResult].map (mark sampleCodec "helper")) ∧
      ¬ NoStray (convert sampleCodec "helper" [sampleCall, samplePeer, sampleResult]) := by
  have late : ¬ Timely ([sampleCall, samplePeer, sampleResult].map (mark sampleCodec "helper")) := by
    rw [sample_marks]
    intro timely
    have quiet := timely [] "t1" [.peer] [] rfl
    revert quiet
    decide
  exact ⟨late, fun noStray => late ((no_stray_iff_timely _ _ _ sample_correlated).1 noStray)⟩

/-- The call is answered by the result made up for it and by its own. -/
theorem interrupted_call_answered_twice :
    ∃ raw, Correlated (raw.map (mark sampleCodec "helper")) ∧
      (convert sampleCodec "helper" raw).flatMap Message.answers = ["t1", "t1"] ∧
      ¬ NoStray (convert sampleCodec "helper" raw) := by
  have twice : (convert sampleCodec "helper" [sampleCall, samplePeer, sampleResult]).flatMap
      answers = ["t1", "t1"] := by
    decide +kernel
  refine ⟨[sampleCall, samplePeer, sampleResult], sample_correlated, twice, fun noStray => ?_⟩
  have once := noStray.once
  rw [twice] at once
  revert once
  decide

end BandSdk.Converters.Anthropic

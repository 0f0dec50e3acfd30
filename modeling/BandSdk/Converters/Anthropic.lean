/-
# Converters.Anthropic -- Anthropic messages from a room's history

`convert` batches the calls and the results of a history into messages, and
`patchOrphanedToolUses` then answers every `tool_use` that the next message does
not.  The pass writes into the list it walks: it puts the results it makes up in
front of the user message that follows, or inserts one.

`Answered` is what the pass establishes, whatever the messages were; where it
holds already the pass changes nothing.
-/
import Mathlib.Data.List.Dedup
import Mathlib.Data.List.Forall2
import Mathlib.Data.List.Sort
import BandSdk.Converters.Parsing

namespace BandSdk.Converters.Anthropic

open List

open BandSdk.Theory (Json)

/-! ## Messages -/

inductive Block where
  | text (text : String)
  | toolUse (id name : String) (input : List (String × Json))
  | toolResult (toolUseId content : String) (isError : Bool)

namespace Block

def useId : Block → Option String
  | .toolUse id _ _ => some id
  | _ => none

def resultId : Block → Option String
  | .toolResult toolUseId _ _ => some toolUseId
  | _ => none

end Block

inductive Content where
  | str (text : String)
  | list (blocks : List Block)

structure Message where
  role : Role
  content : Content

namespace Message

variable (m : Message)

/-- The content as blocks; a string is one text. -/
def blocks : List Block :=
  match m.content with
  | .str text => [.text text]
  | .list blocks => blocks

def uses : List String := m.blocks.filterMap Block.useId

def answers : List String := m.blocks.filterMap Block.resultId

end Message

/-! ## The patching pass -/

/-- The `tool_use` ids of an assistant message. -/
def toolUseIds (m : Message) : List String := if m.role ≠ .assistant then [] else m.uses

/-- The ids a message answers as the follower of a call. -/
def matchedIds : Option Message → List String
  | none => []
  | some m => if m.role ≠ .user then [] else m.answers

/-- `sorted(tool_use_ids - matched_ids)`. -/
def orphanedIds (m : Message) (next : Option Message) : List String :=
  ((toolUseIds m).dedup.filter (· ∉ matchedIds next)).insertionSort (· ≤ ·)

def syntheticResults (ids : List String) : List Block :=
  ids.map fun id => .toolResult id interruptedToolText true

/-- The results made up for a call, in front of the message that follows it. -/
def prepend (ids : List String) (next : Message) : Message :=
  { next with content := .list (syntheticResults ids ++ next.blocks) }

/-- `_patch_orphaned_tool_uses`; the walk steps over the user message it wrote. -/
def patchOrphanedToolUses : List Message → List Message
  | [] => []
  | [m] =>
    if orphanedIds m none = [] then [m]
    else [m, { role := .user, content := .list (syntheticResults (orphanedIds m none)) }]
  | m :: next :: rest =>
    let orphaned := orphanedIds m (some next)
    if orphaned = [] then m :: patchOrphanedToolUses (next :: rest)
    else if next.role = .user then m :: prepend orphaned next :: patchOrphanedToolUses rest
    else
      m :: { role := .user, content := .list (syntheticResults orphaned) } ::
        patchOrphanedToolUses (next :: rest)

/-! ## The converter -/

/-- The messages so far, and the calls and results not yet in one. -/
structure Draft where
  messages : List Message := []
  pendingToolCalls : List Block := []
  pendingToolResults : List Block := []

namespace Draft

variable (d : Draft)

def flushPendingToolCalls : Draft :=
  if d.pendingToolCalls = [] then d
  else
    { d with
      messages := d.messages ++ [{ role := .assistant, content := .list d.pendingToolCalls }]
      pendingToolCalls := [] }

def flushPendingToolResults : Draft :=
  if d.pendingToolResults = [] then d
  else
    { d with
      messages := d.messages ++ [{ role := .user, content := .list d.pendingToolResults }]
      pendingToolResults := [] }

end Draft

/-- A text row of this agent. -/
def isOwn (agentName : String) (row : Row) : Bool :=
  row.role.getD .user = .assistant && row.sender = agentName

def handle (codec : Codec) (agentName : String) (d : Draft) (row : Row) : Draft :=
  match row.type with
  | .toolCall =>
    let d := d.flushPendingToolResults
    match parseToolCall codec row.body with
    | some call =>
      { d with pendingToolCalls :=
        d.pendingToolCalls ++ [.toolUse call.toolCallId call.name call.args] }
    | none => d
  | .toolResult =>
    let d := d.flushPendingToolCalls
    match parseToolResult codec row.body with
    | some result =>
      { d with pendingToolResults :=
        d.pendingToolResults ++ [.toolResult result.toolCallId result.output result.isError] }
    | none => d
  | .text =>
    let d := d.flushPendingToolCalls.flushPendingToolResults
    if isOwn agentName row then d
    else { d with messages := d.messages ++ [{ role := .user, content := .str row.quoted }] }
  | .thought | .error | .task | .usage | .unknown => d

/-- The messages before the pass. -/
def collected (codec : Codec) (agentName : String) (raw : List Row) : List Message :=
  (raw.foldl (handle codec agentName) {}).flushPendingToolCalls.flushPendingToolResults.messages

def convert (codec : Codec) (agentName : String) (raw : List Row) : List Message :=
  patchOrphanedToolUses (collected codec agentName raw)

/-! ## Answered calls -/

/-- Every call of an assistant message is answered in the message after it. -/
def Answered : List Message → Prop
  | [] => True
  | m :: rest => (∀ i ∈ toolUseIds m, i ∈ matchedIds rest.head?) ∧ Answered rest

variable {m : Message} (messages : List Message) (ids : List String)

@[simp] theorem mem_orphanedIds {next : Option Message} {i : String} :
    i ∈ orphanedIds m next ↔ i ∈ toolUseIds m ∧ i ∉ matchedIds next := by
  simp [orphanedIds, mem_insertionSort]

theorem orphanedIds_eq_nil {next : Option Message} :
    orphanedIds m next = [] ↔ ∀ i ∈ toolUseIds m, i ∈ matchedIds next := by
  simp [eq_nil_iff_forall_not_mem]

theorem orphanedIds_user (user : m.role = .user) (next : Option Message) : orphanedIds m next = [] := by
  simp [orphanedIds_eq_nil, toolUseIds, user]

@[simp] theorem answers_syntheticResults : (syntheticResults ids).filterMap Block.resultId = ids := by
  simp [syntheticResults, filterMap_map, Function.comp_def, Block.resultId]

@[simp] theorem answers_prepend (next : Message) : (prepend ids next).answers = ids ++ next.answers := by
  simp [Message.answers, prepend, Message.blocks]

theorem toolUseIds_user (user : m.role = .user) : toolUseIds m = [] := by
  simp [toolUseIds, user]

theorem head_patch : (patchOrphanedToolUses messages).head? = messages.head? := by
  fun_cases patchOrphanedToolUses messages <;> simp_all

/-- A message the pass wrote asks nothing. -/
theorem answered_user (user : m.role = .user) {rest : List Message}
    (answered : Answered rest) : Answered (m :: rest) :=
  ⟨by simp [toolUseIds_user user], answered⟩

theorem answered_patch : Answered (patchOrphanedToolUses messages) := by
  fun_induction patchOrphanedToolUses messages with
  | case1 => trivial
  | case2 m none_ => exact ⟨orphanedIds_eq_nil.1 none_, trivial⟩
  | case3 m some_ =>
    refine ⟨fun i asked => ?_, answered_user rfl trivial⟩
    simpa [matchedIds, Message.answers, Message.blocks] using asked
  | case4 m next rest orphaned none_ ih =>
    refine ⟨?_, ih⟩
    rw [head_patch]
    exact orphanedIds_eq_nil.1 none_
  | case5 m next rest orphaned some_ user ih =>
    have role : (prepend orphaned next).role = .user := user
    refine ⟨fun i asked => ?_, answered_user role ih⟩
    -- a call the follower answered is answered still, the others now are
    simp only [List.head?_cons, matchedIds, role, ne_eq, not_true_eq_false, if_false, answers_prepend,
      mem_append]
    by_cases matched : i ∈ matchedIds (some next)
    · simp only [matchedIds, user, ne_eq, not_true_eq_false, if_false] at matched
      exact .inr matched
    · exact .inl (mem_orphanedIds.2 ⟨asked, matched⟩)
  | case6 m next rest orphaned some_ other ih =>
    refine ⟨fun i asked => ?_, answered_user rfl ih⟩
    have unmatched : i ∉ matchedIds (some next) := by simp [matchedIds, other]
    have left : i ∈ orphaned := mem_orphanedIds.2 ⟨asked, unmatched⟩
    simpa [matchedIds, Message.answers, Message.blocks] using left

/-- Where every call is answered, the pass changes nothing. -/
theorem patch_of_answered {messages : List Message} (answered : Answered messages) :
    patchOrphanedToolUses messages = messages := by
  fun_induction patchOrphanedToolUses messages with
  | case1 | case2 m none_ => rfl
  | case3 m some_
  | case5 m next rest orphaned some_ user ih
  | case6 m next rest orphaned some_ other ih => exact absurd (orphanedIds_eq_nil.2 answered.1) some_
  | case4 m next rest orphaned none_ ih => rw [ih answered.2]

/-! ## What the pass keeps -/

/-- A message as the pass may leave it: its blocks are all there, in order. -/
def Extends (old new : Message) : Prop := old.role = new.role ∧ old.blocks.Sublist new.blocks

theorem Extends.refl (m : Message) : Extends m m := ⟨rfl, List.Sublist.refl _⟩

theorem extends_prepend (next : Message) : Extends next (prepend ids next) :=
  ⟨rfl, sublist_append_right _ _⟩

/-- The pass neither drops nor moves a message or a block. -/
theorem patch_extends : List.SublistForall₂ Extends messages (patchOrphanedToolUses messages) := by
  fun_induction patchOrphanedToolUses messages with
  | case1 => exact .nil
  | case2 m none_ | case3 m some_ => exact .cons (.refl m) .nil
  | case4 m next rest orphaned none_ ih => exact .cons (.refl m) ih
  | case5 m next rest orphaned some_ user ih =>
    exact .cons (.refl m) (.cons (extends_prepend orphaned next) ih)
  | case6 m next rest orphaned some_ other ih => exact .cons (.refl m) (.cons_right ih)

theorem Answered.next {messages before after : List Message} (answered : Answered messages)
    (split : messages = before ++ m :: after) (asks : toolUseIds m ≠ []) :
    ∃ next rest, after = next :: rest ∧ next.role = .user ∧ ∀ i ∈ toolUseIds m, i ∈ next.answers := by
  induction before generalizing messages with
  | nil =>
    subst split
    obtain ⟨i, inside⟩ := exists_mem_of_ne_nil _ asks
    cases after with
    | nil => exact absurd (answered.1 i inside) not_mem_nil
    | cons next rest =>
      have matched := answered.1
      simp only [List.head?_cons, matchedIds] at matched
      by_cases user : next.role = .user
      · simp only [user, ne_eq, not_true_eq_false, if_false] at matched
        exact ⟨next, rest, rfl, user, matched⟩
      · simp only [ne_eq, user, not_false_eq_true, if_true] at matched
        exact absurd (matched i inside) not_mem_nil
  | cons first before ih =>
    subst split
    exact ih answered.2 rfl

/-- **Every call is answered next.**  In the messages any history converts to, an
assistant message with calls is followed at once by a user message that answers
each of them; and the pass that sees to it is idempotent and keeps every message
and every block it was given, in order, whatever the messages. -/
theorem calls_answered_next (codec : Codec) (agentName : String) :
    (∀ raw before m after, convert codec agentName raw = before ++ m :: after → m.role = .assistant →
      m.uses ≠ [] → ∃ next rest, after = next :: rest ∧ next.role = .user ∧ ∀ i ∈ m.uses, i ∈ next.answers) ∧
    ∀ messages, patchOrphanedToolUses (patchOrphanedToolUses messages) = patchOrphanedToolUses messages ∧
      List.SublistForall₂ Extends messages (patchOrphanedToolUses messages) := by
  constructor
  · intro raw before m after split assistant asks
    have ids : toolUseIds m = m.uses := by simp [toolUseIds, assistant]
    rw [← ids] at asks ⊢
    exact (answered_patch _).next split asks
  · intro messages
    exact ⟨patch_of_answered (answered_patch messages), patch_extends messages⟩

end BandSdk.Converters.Anthropic

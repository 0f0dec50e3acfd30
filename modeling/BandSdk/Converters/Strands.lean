/-
# Converters.Strands -- a Converse transcript from a room's history

Converse pairs an assistant's `toolUse` blocks with the `toolResult` blocks of the
user message right after it, and wants the two roles to alternate.  Room history
interleaves freely, so `ConverseTranscript` buffers an exchange until all its calls
are answered; what the end of the history leaves open is answered by
`patchOrphanedToolUses`, and `mergeConsecutiveRoles` joins the neighbours of one
role.

`Paired` is the shape of the messages between the last two: turns, and exchanges
whose calls and results name the same ids.  Building keeps it, patching restores
it for the exchange still open, and `Sound` is what merging makes of it.
-/
import Mathlib.Data.Finset.Basic
import BandSdk.Converters.Parsing

namespace BandSdk.Converters.Strands

open List

open BandSdk.Theory (Json)

/-! ## Messages -/

inductive ContentBlock where
  | text (text : String)
  | toolUse (toolUseId name : String) (input : List (String × Json))
  | toolResult (toolUseId : String) (isError : Bool) (text : String)

namespace ContentBlock

def useId : ContentBlock → Option String
  | .toolUse toolUseId _ _ => some toolUseId
  | _ => none

def resultId : ContentBlock → Option String
  | .toolResult toolUseId _ _ => some toolUseId
  | _ => none

def textOf : ContentBlock → Option String
  | .text said => some said
  | _ => none

end ContentBlock

structure Message where
  role : Role
  content : List ContentBlock

namespace Message

variable (m : Message)

def uses : List String := m.content.filterMap ContentBlock.useId

def answers : List String := m.content.filterMap ContentBlock.resultId

def texts : List String := m.content.filterMap ContentBlock.textOf

end Message

/-- The ids an assistant message asks to be answered. -/
def toolUseIds (m : Message) : List String := if m.role ≠ .assistant then [] else m.uses

/-- The ids a user message answers. -/
def answeredIds : Option Message → List String
  | none => []
  | some m => if m.role ≠ .user then [] else m.answers

def syntheticResults (ids : List String) : List ContentBlock :=
  ids.map fun toolUseId => .toolResult toolUseId true interruptedToolText

/-- One visit of `patchOrphanedToolUses`: `rest` is what follows, already patched. -/
def repair (m : Message) (rest : List Message) : List Message :=
  let answered := answeredIds rest.head?
  let orphaned := (toolUseIds m).filter (· ∉ answered)
  if orphaned = [] then m :: rest
  else
    match rest with
    | follower :: others =>
      if answered ≠ [] then
        m :: { follower with content := syntheticResults orphaned ++ follower.content } :: others
      else m :: { role := .user, content := syntheticResults orphaned } :: rest
    | [] => [m, { role := .user, content := syntheticResults orphaned }]

/-- Answer every unanswered `toolUse`, from the last message to the first. -/
def patchOrphanedToolUses (messages : List Message) : List Message := messages.foldr repair []

/-- One round of `mergeConsecutiveRoles`. -/
def join (merged : List Message) (m : Message) : List Message :=
  match merged.getLast? with
  | some last =>
    if last.role = m.role then
      merged.dropLast ++ [{ last with content := last.content ++ m.content }]
    else merged ++ [m]
  | none => merged ++ [m]

def mergeConsecutiveRoles (messages : List Message) : List Message := messages.foldl join []

/-! ## The transcript -/

structure ConverseTranscript where
  messages : List Message := []
  toolUses : List ContentBlock := []
  toolResults : List ContentBlock := []
  heldTurns : List Message := []
  unanswered : Finset String := ∅

namespace ConverseTranscript

variable (t : ConverseTranscript)

def inToolExchange : Bool := t.unanswered ≠ ∅

def addToolUse (toolUseId name : String) (args : List (String × Json)) : ConverseTranscript :=
  { t with
    toolUses := t.toolUses ++ [.toolUse toolUseId name args]
    unanswered := insert toolUseId t.unanswered }

/-- The messages an exchange's calls and results become. -/
def emitted (role : Role) (blocks : List ContentBlock) : List Message :=
  if blocks = [] then [] else [{ role := role, content := blocks }]

/-- Emit the exchange's calls, then its results, then the turns it held. -/
def closeToolExchange : ConverseTranscript where
  messages := t.messages ++ emitted .assistant t.toolUses ++ emitted .user t.toolResults ++ t.heldTurns

def addToolResult (toolUseId name output : String) (isError : Bool) : ConverseTranscript :=
  -- a result whose call never reached history is given a call to answer
  let t := if toolUseId ∈ t.unanswered then t else t.addToolUse toolUseId name []
  let t := { t with
    toolResults := t.toolResults ++ [.toolResult toolUseId isError output]
    unanswered := t.unanswered.erase toolUseId }
  if t.inToolExchange then t else t.closeToolExchange

def addTurn (role : Role) (text : String) : ConverseTranscript :=
  let turn := { role := role, content := [.text text] }
  if t.inToolExchange then { t with heldTurns := t.heldTurns ++ [turn] }
  else { t with messages := t.messages ++ [turn] }

def build : List Message :=
  mergeConsecutiveRoles (patchOrphanedToolUses t.closeToolExchange.messages)

end ConverseTranscript

/-! ## The converter -/

/-- A text row of this agent, once the converter knows its name. -/
def isOwn (agentName : String) (row : Row) : Bool :=
  row.role.getD .user = .assistant && agentName ≠ "" && row.sender = agentName

def handleText (agentName : String) (t : ConverseTranscript) (row : Row) : ConverseTranscript :=
  if isOwn agentName row && t.inToolExchange then t
  else if isOwn agentName row then t.addTurn .assistant row.body
  else t.addTurn .user row.quoted

def handle (codec : Codec) (agentName : String) (t : ConverseTranscript) (row : Row) : ConverseTranscript :=
  match row.type with
  | .toolCall =>
    match parseToolCall codec row.body with
    | some call => t.addToolUse call.toolCallId call.name call.args
    | none => t
  | .toolResult =>
    match parseToolResult codec row.body with
    | some result => t.addToolResult result.toolCallId result.name result.output result.isError
    | none => t
  | .text => handleText agentName t row
  | .thought | .error | .task | .usage | .unknown => t

def convert (codec : Codec) (agentName : String) (raw : List Row) : List Message :=
  (raw.foldl (handle codec agentName) {}).build

/-! ## What a transcript has to be -/

/-- A message of one role: results answer calls in a user's message, before its
texts, and an assistant's message has none. -/
def Shaped (m : Message) : Prop :=
  match m.role with
  | .assistant => m.answers = []
  | .user => ∃ results texts, m.content = results ++ texts ∧
      (∀ block ∈ results, block.resultId.isSome = true) ∧ ∀ block ∈ texts, block.textOf.isSome = true

/-- What Converse asks of a transcript. -/
structure Converse (messages : List Message) : Prop where
  alternates : messages.IsChain (·.role ≠ ·.role)
  answered : ∀ before m after, messages = before ++ m :: after → m.uses ≠ [] →
    m.role = .assistant ∧ ∃ next rest, after = next :: rest ∧ next.role = .user ∧ ∀ i ∈ m.uses, i ∈ next.answers
  asked : ∀ before m after, messages = before ++ m :: after → m.answers ≠ [] →
    m.role = .user ∧ ∃ front last, before = front ++ [last] ∧ last.role = .assistant ∧
      ∀ i ∈ m.answers, i ∈ last.uses
  resultsFirst : ∀ m ∈ messages, m.role = .user → ∃ results texts, m.content = results ++ texts ∧
    (∀ block ∈ results, block.resultId.isSome = true) ∧ ∀ block ∈ texts, block.textOf.isSome = true

/-- The texts the user messages show, in order. -/
def userTexts (messages : List Message) : List String :=
  messages.flatMap fun m => if m.role = .user then m.texts else []

/-- The texts of others in a history, in order. -/
def othersTexts (agentName : String) (raw : List Row) : List String :=
  (raw.filter fun row => row.type = .text && !isOwn agentName row).map Row.quoted

@[simp] theorem userTexts_nil : userTexts [] = [] := rfl

@[simp] theorem userTexts_cons (m : Message) (rest : List Message) :
    userTexts (m :: rest) = (if m.role = .user then m.texts else []) ++ userTexts rest := rfl

@[simp] theorem userTexts_append (l r : List Message) :
    userTexts (l ++ r) = userTexts l ++ userTexts r := flatMap_append

/-! ## Blocks of one kind -/

section Kinds

variable {kind other : ContentBlock → Option String} {blocks : List ContentBlock}

section

variable (all : ∀ block ∈ blocks, (kind block).isSome = true)
include all

theorem filterMap_ne_nil (some_ : blocks ≠ []) : blocks.filterMap kind ≠ [] := by
  obtain ⟨block, rest, rfl⟩ := exists_cons_of_ne_nil some_
  obtain ⟨i, known⟩ := Option.isSome_iff_exists.1 (all block mem_cons_self)
  simp [known]

theorem filterMap_other (apart : ∀ block, (kind block).isSome = true → other block = none) : blocks.filterMap other = [] := by
  rw [filterMap_eq_nil_iff]
  exact fun block inside => apart block (all block inside)

end

open ContentBlock

theorem uses_of_results (all : ∀ block ∈ blocks, block.resultId.isSome = true) :
    blocks.filterMap ContentBlock.useId = [] ∧ blocks.filterMap ContentBlock.textOf = [] := by
  constructor <;> apply filterMap_other all <;> rintro (_ | _ | _) <;>
    simp [resultId, useId, textOf]

theorem answers_of_uses (all : ∀ block ∈ blocks, block.useId.isSome = true) :
    blocks.filterMap ContentBlock.resultId = [] := by
  apply filterMap_other all
  rintro (_ | _ | _) <;> simp [resultId, useId]

theorem ids_of_texts (all : ∀ block ∈ blocks, block.textOf.isSome = true) :
    blocks.filterMap ContentBlock.useId = [] := by
  apply filterMap_other all
  rintro (_ | _ | _) <;> simp [useId, textOf]

end Kinds

@[simp] theorem answers_syntheticResults (ids : List String) :
    (syntheticResults ids).filterMap ContentBlock.resultId = ids := by
  simp [syntheticResults, filterMap_map, Function.comp_def, ContentBlock.resultId]

theorem resultId_syntheticResults {ids : List String} :
    ∀ block ∈ syntheticResults ids, block.resultId.isSome = true := by
  simp [syntheticResults, ContentBlock.resultId]

variable {l : List Message} {m : Message}

theorem Shaped.uses_user (shaped : Shaped m) (user : m.role = .user) : m.uses = [] := by
  obtain ⟨role, content⟩ := m
  cases user
  obtain ⟨results, texts, rfl, all, rest⟩ := shaped
  simp [Message.uses, uses_of_results all, ids_of_texts rest]

/-- A text at the end of a message changes neither its calls nor its results. -/
theorem Shaped.text (shaped : Shaped m) (said : String) :
    Shaped { m with content := m.content ++ [.text said] } := by
  obtain ⟨role, content⟩ := m
  cases role with
  | assistant => simpa [Shaped, Message.answers, ContentBlock.resultId] using shaped
  | user =>
    obtain ⟨results, texts, split, all, rest⟩ := shaped
    refine ⟨results, texts ++ [.text said], by simp_all, all, ?_⟩
    intro block inside
    rcases mem_append.1 inside with inside | inside
    · exact rest block inside
    · rw [mem_singleton.1 inside]
      rfl

/-! ## Turns and exchanges -/

/-- A line of text turns and of exchanges whose calls and results match. -/
inductive Paired : List Message → Prop
  | nil : Paired []
  | turn (role : Role) (said : String) {rest : List Message} (paired : Paired rest) :
      Paired ({ role := role, content := [.text said] } :: rest)
  | exchange {uses results : List ContentBlock} {rest : List Message}
      (calls : ∀ block ∈ uses, block.useId.isSome = true)
      (answers : ∀ block ∈ results, block.resultId.isSome = true)
      (same : ∀ i, i ∈ uses.filterMap ContentBlock.useId ↔ i ∈ results.filterMap ContentBlock.resultId)
      (paired : Paired rest) :
      Paired ({ role := .assistant, content := uses } :: { role := .user, content := results } :: rest)

theorem Paired.append {l r : List Message} (left : Paired l) (right : Paired r) : Paired (l ++ r) := by
  induction left with
  | nil => exact right
  | turn role said _ ih => exact ih.turn role said
  | exchange calls answers same _ ih => exact ih.exchange calls answers same

theorem Paired.turns (all : ∀ m ∈ l, ∃ role said, m = ⟨role, [.text said]⟩) : Paired l := by
  induction l with
  | nil => exact .nil
  | cons m rest ih =>
    obtain ⟨role, said, rfl⟩ := all m mem_cons_self
    exact (ih fun m inside => all m (mem_cons_of_mem _ inside)).turn role said

/-! ## Patching -/

theorem repair_of_answered {rest : List Message}
    (answered : ∀ i ∈ toolUseIds m, i ∈ answeredIds rest.head?) : repair m rest = m :: rest := by
  have none_ : (toolUseIds m).filter (· ∉ answeredIds rest.head?) = [] := by
    rw [filter_eq_nil_iff]
    intro i inside
    simpa using answered i inside
  unfold repair
  rw [if_pos none_]

theorem toolUseIds_turn (role : Role) (said : String) : toolUseIds ⟨role, [.text said]⟩ = [] := by
  cases role <;> rfl

theorem repair_turn (role : Role) (said : String) (rest : List Message) :
    repair ⟨role, [.text said]⟩ rest = ⟨role, [.text said]⟩ :: rest := by
  apply repair_of_answered
  simp [toolUseIds_turn]

theorem repair_user (results : List ContentBlock) (rest : List Message) :
    repair ⟨.user, results⟩ rest = ⟨.user, results⟩ :: rest := by
  apply repair_of_answered
  simp [toolUseIds]

theorem patch_append (paired : Paired l) (tail : List Message) :
    patchOrphanedToolUses (l ++ tail) = l ++ patchOrphanedToolUses tail := by
  unfold patchOrphanedToolUses
  induction paired with
  | nil => rfl
  | turn role said _ ih => simp [ih, repair_turn]
  | @exchange uses results rest calls answers same _ ih =>
    simp only [cons_append, foldr_cons, ih, repair_user]
    apply repair_of_answered
    simpa [toolUseIds, answeredIds, Message.uses, Message.answers] using fun i => (same i).1

theorem patch_cons (m : Message) (rest : List Message) :
    patchOrphanedToolUses (m :: rest) = repair m (patchOrphanedToolUses rest) := rfl

theorem patch_of_paired (paired : Paired l) : patchOrphanedToolUses l = l := by
  simpa [patchOrphanedToolUses] using patch_append paired []

theorem userTexts_exchange {uses results : List ContentBlock} (rest : List Message)
    (answers : ∀ block ∈ results, block.resultId.isSome = true) :
    userTexts (⟨.assistant, uses⟩ :: ⟨.user, results⟩ :: rest) = userTexts rest := by
  simp [Message.texts, (uses_of_results answers).2]

section Open

variable {uses results : List ContentBlock} {held : List Message}
  (calls : ∀ block ∈ uses, block.useId.isSome = true)
  (answers : ∀ block ∈ results, block.resultId.isSome = true)
  (turns : ∀ m ∈ held, ∃ role said, m = ⟨role, [.text said]⟩)

include calls turns

/-- Calls that nothing answers are answered ahead of the turns held. -/
theorem repair_unanswered (asks : uses ≠ []) :
    Paired (repair ⟨.assistant, uses⟩ held) ∧ userTexts (repair ⟨.assistant, uses⟩ held) = userTexts held := by
  have silent : answeredIds held.head? = [] := by
    cases held with
    | nil => rfl
    | cons m rest =>
      obtain ⟨role, said, rfl⟩ := turns m mem_cons_self
      cases role <;> rfl
  have eq : repair ⟨.assistant, uses⟩ held = ⟨.assistant, uses⟩ ::
      ⟨.user, syntheticResults (uses.filterMap ContentBlock.useId)⟩ :: held := by
    have orphaned : (toolUseIds ⟨.assistant, uses⟩).filter (· ∉ answeredIds held.head?) =
        uses.filterMap ContentBlock.useId := by
      simp [silent, toolUseIds, Message.uses]
    unfold repair
    dsimp only
    rw [orphaned, if_neg (filterMap_ne_nil calls asks), silent]
    cases held <;> simp
  rw [eq]
  refine ⟨(Paired.turns turns).exchange calls resultId_syntheticResults ?_,
    userTexts_exchange held resultId_syntheticResults⟩
  simp

include answers

/-- The calls left open among answered ones are answered with them. -/
theorem repair_partial
    (known : ∀ i ∈ results.filterMap ContentBlock.resultId, i ∈ uses.filterMap ContentBlock.useId)
    (some_ : results.filterMap ContentBlock.resultId ≠ []) :
    Paired (repair ⟨.assistant, uses⟩ (⟨.user, results⟩ :: held)) ∧
      userTexts (repair ⟨.assistant, uses⟩ (⟨.user, results⟩ :: held)) = userTexts held := by
  by_cases all : ∀ i ∈ uses.filterMap ContentBlock.useId, i ∈ results.filterMap ContentBlock.resultId
  · rw [repair_of_answered (by simpa [toolUseIds, answeredIds, Message.uses, Message.answers] using all)]
    exact ⟨(Paired.turns turns).exchange calls answers fun i => ⟨all i, known i⟩,
      userTexts_exchange held answers⟩
  · let orphaned := (uses.filterMap ContentBlock.useId).filter
      (· ∉ results.filterMap ContentBlock.resultId)
    have left : orphaned ≠ [] := by
      simpa [orphaned, filter_eq_nil_iff] using all
    have eq : repair ⟨.assistant, uses⟩ (⟨.user, results⟩ :: held) =
        ⟨.assistant, uses⟩ :: ⟨.user, syntheticResults orphaned ++ results⟩ :: held := by
      have same : (toolUseIds ⟨.assistant, uses⟩).filter
          (· ∉ answeredIds (List.head? (⟨.user, results⟩ :: held))) = orphaned := rfl
      have answered : answeredIds (List.head? (⟨.user, results⟩ :: held)) ≠ [] := some_
      unfold repair
      dsimp only
      rw [same, if_neg left]
      rw [if_pos answered]
    have joined : ∀ block ∈ syntheticResults orphaned ++ results, block.resultId.isSome = true := by
      intro block inside
      rcases mem_append.1 inside with inside | inside
      · exact resultId_syntheticResults block inside
      · exact answers block inside
    rw [eq]
    refine ⟨(Paired.turns turns).exchange calls joined fun i => ?_, userTexts_exchange held joined⟩
    rw [filterMap_append, answers_syntheticResults, mem_append, mem_filter]
    constructor
    · intro asked
      by_cases done : i ∈ results.filterMap ContentBlock.resultId
      · exact .inr done
      · exact .inl ⟨asked, decide_eq_true done⟩
    · rintro (⟨asked, -⟩ | done)
      · exact asked
      · exact known i done

end Open

/-! ## Merging -/

/-- `mergeConsecutiveRoles` from the message it is extending. -/
def glue (last : Message) : List Message → List Message
  | [] => [last]
  | m :: rest =>
    if last.role = m.role then glue { last with content := last.content ++ m.content } rest
    else last :: glue m rest

theorem foldl_join (front : List Message) (last : Message) (rest : List Message) :
    rest.foldl join (front ++ [last]) = front ++ glue last rest := by
  induction rest generalizing front last with
  | nil => rfl
  | cons m rest ih =>
    by_cases same : last.role = m.role
    · simp [join, glue, same, ih]
    · simpa [join, glue, same] using ih (front ++ [last]) m

theorem merge_cons (m : Message) (rest : List Message) : mergeConsecutiveRoles (m :: rest) = glue m rest := by
  simpa [mergeConsecutiveRoles, join] using foldl_join [] m rest

theorem userTexts_glue (last : Message) (rest : List Message) :
    userTexts (glue last rest) = userTexts (last :: rest) := by
  induction rest generalizing last with
  | nil => rfl
  | cons m rest ih =>
    by_cases same : last.role = m.role
    · cases user : m.role <;> simp [glue, same, ih, user, Message.texts]
    · simp [glue, same, ih]

/-- A transcript of which the message before it asked `asked` in the role `before`. -/
inductive Sound : List String → Option Role → List Message → Prop
  | nil (before : Option Role) : Sound [] before []
  | cons {asked : List String} {before : Option Role} {m : Message} {rest : List Message}
      (answers : ∀ i, i ∈ m.answers ↔ i ∈ asked) (shaped : Shaped m) (turned : before ≠ some m.role)
      (sound : Sound m.uses (some m.role) rest) : Sound asked before (m :: rest)

theorem shaped_uses {uses : List ContentBlock} (calls : ∀ block ∈ uses, block.useId.isSome = true) :
    Shaped ⟨.assistant, uses⟩ := answers_of_uses calls

theorem shaped_results {results : List ContentBlock}
    (answers : ∀ block ∈ results, block.resultId.isSome = true) : Shaped ⟨.user, results⟩ :=
  ⟨results, [], by simp, answers, by simp⟩

theorem shaped_turn (role : Role) (said : String) : Shaped ⟨role, [.text said]⟩ := by
  cases role with
  | assistant => rfl
  | user => exact ⟨[], [.text said], rfl, by simp, by simp [ContentBlock.textOf]⟩

/-- What merging makes of turns and exchanges. -/
theorem sound_glue {rest : List Message} (paired : Paired rest) {last : Message} (shaped : Shaped last)
    (idle : last.uses = []) {asked : List String} {before : Option Role}
    (answers : ∀ i, i ∈ last.answers ↔ i ∈ asked) (turned : before ≠ some last.role) :
    Sound asked before (glue last rest) := by
  induction paired generalizing last asked before with
  | nil =>
    refine .cons answers shaped turned ?_
    rw [idle]
    exact .nil _
  | turn role said _ ih =>
    by_cases same : last.role = role
    · simp only [glue, same, if_true]
      refine ih (same ▸ shaped.text said) ?_ ?_ (same ▸ turned)
      · simpa [Message.uses, ContentBlock.useId] using idle
      · simpa [Message.answers, ContentBlock.resultId] using answers
    · simp only [glue, same, if_false]
      refine .cons answers shaped turned ?_
      rw [idle]
      refine ih (shaped_turn role said) rfl ?_ ?_
      · simp [Message.answers, ContentBlock.resultId]
      · simpa using same
  | @exchange uses results rest calls results_ same _ ih =>
    -- the calls join the assistant's own text, and their results answer both
    have onward : ∀ m : Message, m.role = .assistant → m.uses = uses.filterMap ContentBlock.useId →
        Sound m.uses (some m.role) (glue ⟨.user, results⟩ rest) := by
      intro m role asks
      refine ih (shaped_results results_) ((shaped_results results_).uses_user rfl) ?_ ?_
      · intro i
        rw [asks]
        exact (same i).symm
      · simp [role]
    cases role : last.role with
    | assistant =>
      simp only [glue, role, if_true, reduceCtorEq, if_false]
      refine .cons ?_ ?_ (role ▸ turned) (onward _ rfl ?_)
      · simpa [Message.answers, answers_of_uses calls] using answers
      · have none_ : last.answers = [] := by simpa [Shaped, role] using shaped
        simpa [Shaped, Message.answers, answers_of_uses calls] using none_
      · simpa [Message.uses] using idle
    | user =>
      simp only [glue, role, if_true, reduceCtorEq, if_false]
      refine .cons answers shaped turned ?_
      rw [idle, role]
      refine .cons ?_ (shaped_uses calls) (by simp) (onward _ rfl rfl)
      simp [Message.answers, answers_of_uses calls]

theorem sound_merge {messages : List Message} (paired : Paired messages) :
    Sound [] none (mergeConsecutiveRoles messages) := by
  cases paired with
  | nil => exact .nil _
  | turn role said paired =>
    rw [merge_cons]
    exact sound_glue paired (shaped_turn role said) rfl (by simp [Message.answers, ContentBlock.resultId])
      (by simp)
  | exchange calls results_ same paired =>
    rw [merge_cons]
    refine .cons (by simp [Message.answers, answers_of_uses calls]) (shaped_uses calls) (by simp) ?_
    refine sound_glue paired (shaped_results results_) ((shaped_results results_).uses_user rfl) ?_ ?_
    · exact fun i => (same i).symm
    · simp

theorem userTexts_merge (messages : List Message) :
    userTexts (mergeConsecutiveRoles messages) = userTexts messages := by
  cases messages with
  | nil => rfl
  | cons m rest => rw [merge_cons, userTexts_glue]

/-! ## From soundness to the rules of Converse -/

namespace Sound

variable {asked : List String} {before : Option Role} {messages : List Message}

theorem asked_nil (sound : Sound asked before []) : asked = [] := by
  cases sound
  rfl

theorem uncons {m : Message} {rest : List Message} (sound : Sound asked before (m :: rest)) :
    (∀ i, i ∈ m.answers ↔ i ∈ asked) ∧ before ≠ some m.role ∧ Sound m.uses (some m.role) rest := by
  cases sound with
  | cons answers _ turned sound => exact ⟨answers, turned, sound⟩

section

variable (sound : Sound asked before messages)
include sound

theorem chain : messages.IsChain (·.role ≠ ·.role) := by
  induction sound with
  | nil => exact .nil
  | @cons asked before m rest answers shaped turned sound ih =>
    cases rest with
    | nil => exact .singleton _
    | cons next rest => exact .cons_cons (fun same => sound.uncons.2.1 (congrArg some same)) ih

theorem shaped : ∀ m ∈ messages, Shaped m := by
  induction sound with
  | nil => simp
  | cons answers shaped turned sound ih =>
    intro m inside
    rcases mem_cons.1 inside with rfl | inside
    · exact shaped
    · exact ih m inside

theorem suffix {front rest : List Message} {last m : Message}
    (split : messages = front ++ last :: m :: rest) : Sound last.uses (some last.role) (m :: rest) := by
  induction front generalizing asked before messages with
  | nil => exact (split ▸ sound).uncons.2.2
  | cons first front ih => exact ih (split ▸ sound).uncons.2.2 rfl

theorem last_idle {front : List Message} {last : Message} (split : messages = front ++ [last]) :
    last.uses = [] := by
  induction front generalizing asked before messages with
  | nil => exact (split ▸ sound).uncons.2.2.asked_nil
  | cons first front ih => exact ih (split ▸ sound).uncons.2.2 rfl

end

theorem converse (sound : Sound [] none messages) : Converse messages where
  alternates := sound.chain
  answered := by
    intro front m after split asks
    have assistant : m.role = .assistant := by
      cases role : m.role with
      | assistant => rfl
      | user => exact absurd ((sound.shaped m (by simp [split])).uses_user role) asks
    cases after with
    | nil => exact absurd (sound.last_idle split) asks
    | cons next rest =>
      obtain ⟨answers, turned, -⟩ := (sound.suffix split).uncons
      refine ⟨assistant, next, rest, rfl, ?_, fun i => (answers i).2⟩
      cases role : next.role with
      | user => rfl
      | assistant => exact absurd (by rw [assistant, role]) turned
  asked := by
    intro front m after split answering
    have user : m.role = .user := by
      cases role : m.role with
      | user => rfl
      | assistant =>
        have none_ := sound.shaped m (by simp [split])
        simp only [Shaped, role] at none_
        exact absurd none_ answering
    rcases front.eq_nil_or_concat with rfl | ⟨front, last, rfl⟩
    · -- nothing was asked before the first message
      refine absurd (eq_nil_iff_forall_not_mem.2 fun i inside => ?_) answering
      exact not_mem_nil (((split ▸ sound).uncons.1 i).1 inside)
    · rw [concat_eq_append] at split ⊢
      rw [append_assoc, singleton_append] at split
      obtain ⟨answers, turned, -⟩ := (sound.suffix split).uncons
      refine ⟨user, front, last, rfl, ?_, fun i => (answers i).1⟩
      cases role : last.role with
      | assistant => rfl
      | user => exact absurd (by rw [user, role]) turned
  resultsFirst := by
    intro m inside user
    have shaped := sound.shaped m inside
    simpa only [Shaped, user] using shaped

end Sound

/-! ## The transcript while it is built -/

/-- What a transcript keeps: its messages are paired, and the exchange it buffers
has a call for every result and for every id it waits for. -/
structure Buffered (t : ConverseTranscript) : Prop where
  paired : Paired t.messages
  calls : ∀ block ∈ t.toolUses, block.useId.isSome = true
  answers : ∀ block ∈ t.toolResults, block.resultId.isSome = true
  known : ∀ i, i ∈ t.toolUses.filterMap ContentBlock.useId ↔
    i ∈ t.unanswered ∨ i ∈ t.toolResults.filterMap ContentBlock.resultId
  turns : ∀ m ∈ t.heldTurns, ∃ role said, m = ⟨role, [.text said]⟩

/-- Nothing is buffered outside an exchange. -/
def ConverseTranscript.Rests (t : ConverseTranscript) : Prop :=
  t.unanswered = ∅ → t.toolUses = [] ∧ t.toolResults = [] ∧ t.heldTurns = []

/-- The texts of others a transcript has, in order. -/
def ConverseTranscript.shown (t : ConverseTranscript) : List String :=
  userTexts t.messages ++ userTexts t.heldTurns

namespace Buffered

variable {t : ConverseTranscript}

theorem fresh : Buffered {} where
  paired := .nil
  calls := by simp
  answers := by simp
  known := by simp
  turns := by simp

theorem inToolExchange_iff : t.inToolExchange = true ↔ t.unanswered ≠ ∅ := by
  simp [ConverseTranscript.inToolExchange]

theorem addToolUse (buffered : Buffered t) (toolUseId name : String) (args : List (String × Json)) :
    Buffered (t.addToolUse toolUseId name args) where
  paired := buffered.paired
  calls := by
    intro block inside
    rcases mem_append.1 inside with inside | inside
    · exact buffered.calls block inside
    · rw [mem_singleton.1 inside]
      rfl
  answers := buffered.answers
  known := by
    intro i
    have known := buffered.known i
    simp only [ConverseTranscript.addToolUse, filterMap_append, mem_append, known, Finset.mem_insert]
    simp [ContentBlock.useId, or_comm, or_assoc]
  turns := buffered.turns

/-- An exchange with every call answered becomes a pair. -/
theorem closeToolExchange (buffered : Buffered t) (done : t.unanswered = ∅)
    (asks : t.toolUses ≠ []) (answered : t.toolResults ≠ []) : Buffered t.closeToolExchange where
  paired := by
    have exchange := (Paired.turns buffered.turns).exchange buffered.calls buffered.answers
      (by simpa [done] using buffered.known)
    simpa [ConverseTranscript.closeToolExchange, ConverseTranscript.emitted, asks, answered] using
      buffered.paired.append exchange
  calls := by simp [ConverseTranscript.closeToolExchange]
  answers := by simp [ConverseTranscript.closeToolExchange]
  known := by simp [ConverseTranscript.closeToolExchange]
  turns := by simp [ConverseTranscript.closeToolExchange]

theorem shown_closeToolExchange (buffered : Buffered t) : t.closeToolExchange.shown = t.shown := by
  have silent : userTexts (ConverseTranscript.emitted .user t.toolResults) = [] := by
    by_cases empty : t.toolResults = []
    · simp [ConverseTranscript.emitted, empty]
    · simp [ConverseTranscript.emitted, empty, Message.texts, (uses_of_results buffered.answers).2]
  have calls : userTexts (ConverseTranscript.emitted .assistant t.toolUses) = [] := by
    by_cases empty : t.toolUses = [] <;> simp [ConverseTranscript.emitted, empty]
  simp [ConverseTranscript.shown, ConverseTranscript.closeToolExchange, silent, calls]

variable {toolUseId : String}

section

variable (buffered : Buffered t)
include buffered

section

variable (asked : toolUseId ∈ t.unanswered)
include asked

/-- A result joins the exchange that waits for it. -/
theorem answer (isError : Bool) (output : String) :
    Buffered { t with
      toolResults := t.toolResults ++ [.toolResult toolUseId isError output]
      unanswered := t.unanswered.erase toolUseId } where
  paired := buffered.paired
  calls := buffered.calls
  answers := by
    intro block inside
    rcases mem_append.1 inside with inside | inside
    · exact buffered.answers block inside
    · rw [mem_singleton.1 inside]
      rfl
  known := by
    intro i
    have before := buffered.known i
    simp only [before, filterMap_append, mem_append, Finset.mem_erase]
    by_cases same : i = toolUseId
    · simp [same, asked, ContentBlock.resultId]
    · simp [same, ContentBlock.resultId]
  turns := buffered.turns

theorem asks : t.toolUses ≠ [] := by
  intro none_
  have called := (buffered.known toolUseId).2 (.inl asked)
  rw [none_] at called
  exact not_mem_nil called

theorem answerAsked (name output : String) (isError : Bool) :
    Buffered (t.addToolResult toolUseId name output isError) ∧
      (t.addToolResult toolUseId name output isError).Rests ∧
      (t.addToolResult toolUseId name output isError).shown = t.shown := by
  have answered := buffered.answer asked isError output
  simp only [ConverseTranscript.addToolResult, asked, if_true]
  split
  next waiting => exact ⟨answered, fun done => absurd done (inToolExchange_iff.1 waiting), rfl⟩
  next done =>
    have empty : t.unanswered.erase toolUseId = ∅ := by
      simpa [ConverseTranscript.inToolExchange] using done
    refine ⟨answered.closeToolExchange empty (buffered.asks asked) (by simp), ?_, ?_⟩
    · exact fun _ => ⟨rfl, rfl, rfl⟩
    · exact answered.shown_closeToolExchange

end

theorem addToolResult (toolUseId name output : String) (isError : Bool) :
    Buffered (t.addToolResult toolUseId name output isError) ∧
      (t.addToolResult toolUseId name output isError).Rests ∧
      (t.addToolResult toolUseId name output isError).shown = t.shown := by
  by_cases asked : toolUseId ∈ t.unanswered
  · exact buffered.answerAsked asked name output isError
  -- the call it is given makes it a result that was waited for
  have waits : toolUseId ∈ (t.addToolUse toolUseId name []).unanswered := Finset.mem_insert_self _ _
  have same : t.addToolResult toolUseId name output isError =
      (t.addToolUse toolUseId name []).addToolResult toolUseId name output isError := by
    simp [ConverseTranscript.addToolResult, asked, waits]
  rw [same]
  exact (buffered.addToolUse toolUseId name []).answerAsked waits name output isError

theorem addTurn (rests : t.Rests) (role : Role) (said : String)
    (held : t.inToolExchange = true → role = .user) :
    Buffered (t.addTurn role said) ∧ (t.addTurn role said).Rests ∧
      (t.addTurn role said).shown = t.shown ++ if role = .user then [said] else [] := by
  simp only [ConverseTranscript.addTurn]
  split
  next waiting =>
    refine ⟨⟨buffered.paired, buffered.calls, buffered.answers, buffered.known, ?_⟩, ?_, ?_⟩
    · intro m inside
      rcases mem_append.1 inside with inside | inside
      · exact buffered.turns m inside
      · exact ⟨role, said, mem_singleton.1 inside⟩
    · exact fun done => absurd done (inToolExchange_iff.1 waiting)
    · simp [ConverseTranscript.shown, held waiting, Message.texts, ContentBlock.textOf]
  next done =>
    have empty : t.heldTurns = [] := (rests (by simpa [ConverseTranscript.inToolExchange] using done)).2.2
    refine ⟨⟨?_, buffered.calls, buffered.answers, buffered.known, buffered.turns⟩, rests, ?_⟩
    · exact buffered.paired.append (Paired.nil.turn role said)
    · simp [ConverseTranscript.shown, empty, Message.texts, ContentBlock.textOf]

end

end Buffered

variable {t : ConverseTranscript}

/-- One row keeps the transcript buffered and shows the text of another. -/
theorem handle_buffered (codec : Codec) (agentName : String) (buffered : Buffered t) (rests : t.Rests)
    (row : Row) :
    Buffered (handle codec agentName t row) ∧ (handle codec agentName t row).Rests ∧
      (handle codec agentName t row).shown = t.shown ++ othersTexts agentName [row] := by
  have kept : row.type ≠ .text → othersTexts agentName [row] = [] := by
    intro other
    simp [othersTexts, other]
  unfold handle
  cases type : row.type with
  | toolCall =>
    rw [kept (by simp [type]), append_nil]
    cases parseToolCall codec row.body with
    | none => exact ⟨buffered, rests, rfl⟩
    | some call =>
      refine ⟨buffered.addToolUse _ _ _, fun done => ?_, rfl⟩
      exact absurd done (Finset.insert_ne_empty _ _)
  | toolResult =>
    rw [kept (by simp [type]), append_nil]
    cases parseToolResult codec row.body with
    | none => exact ⟨buffered, rests, rfl⟩
    | some result => exact buffered.addToolResult _ _ _ _
  | text =>
    unfold handleText
    cases own : isOwn agentName row with
    | true =>
      have others : othersTexts agentName [row] = [] := by simp [othersTexts, own]
      rw [others, append_nil]
      cases waiting : t.inToolExchange with
      | true => exact ⟨buffered, rests, rfl⟩
      | false => simpa using buffered.addTurn rests .assistant row.body (by simp [waiting])
    | false =>
      have others : othersTexts agentName [row] = [row.quoted] := by simp [othersTexts, own, type]
      rw [others]
      simpa using buffered.addTurn rests .user row.quoted (fun _ => rfl)
  | thought | error | task | usage | unknown =>
    rw [kept (by simp [type]), append_nil]
    exact ⟨buffered, rests, rfl⟩

theorem foldl_buffered (codec : Codec) (agentName : String) (raw : List Row) (buffered : Buffered t)
    (rests : t.Rests) :
    Buffered (raw.foldl (handle codec agentName) t) ∧ (raw.foldl (handle codec agentName) t).Rests ∧
      (raw.foldl (handle codec agentName) t).shown = t.shown ++ othersTexts agentName raw := by
  induction raw generalizing t with
  | nil => exact ⟨buffered, rests, by simp [othersTexts]⟩
  | cons row raw ih =>
    obtain ⟨buffered', rests', shown⟩ := handle_buffered codec agentName buffered rests row
    obtain ⟨done, rested, more⟩ := ih buffered' rests'
    refine ⟨done, rested, ?_⟩
    rw [foldl_cons, more, shown, append_assoc]
    simp only [othersTexts, ← map_append, ← filter_append, singleton_append]

theorem patch_buffered (buffered : Buffered t) (rests : t.Rests) :
    Paired (patchOrphanedToolUses t.closeToolExchange.messages) ∧
      userTexts (patchOrphanedToolUses t.closeToolExchange.messages) = t.shown := by
  have held := patch_of_paired (Paired.turns buffered.turns)
  unfold ConverseTranscript.shown
  simp only [ConverseTranscript.closeToolExchange, append_assoc]
  rw [patch_append buffered.paired, userTexts_append]
  by_cases asks : t.toolUses = []
  · have quiet : t.unanswered = ∅ := by
      rw [Finset.eq_empty_iff_forall_notMem]
      intro i waiting
      exact buffered.asks waiting asks
    obtain ⟨-, results, turns⟩ := rests quiet
    simp [asks, results, turns, ConverseTranscript.emitted, patchOrphanedToolUses, buffered.paired]
  · suffices open_ : Paired (patchOrphanedToolUses (ConverseTranscript.emitted .assistant t.toolUses ++
        (ConverseTranscript.emitted .user t.toolResults ++ t.heldTurns))) ∧
        userTexts (patchOrphanedToolUses (ConverseTranscript.emitted .assistant t.toolUses ++
          (ConverseTranscript.emitted .user t.toolResults ++ t.heldTurns))) = userTexts t.heldTurns by
      exact ⟨buffered.paired.append open_.1, by rw [open_.2]⟩
    have calls : ConverseTranscript.emitted .assistant t.toolUses = [⟨.assistant, t.toolUses⟩] :=
      if_neg asks
    rw [calls, singleton_append, patch_cons]
    by_cases answered : t.toolResults = []
    · have results : ConverseTranscript.emitted .user t.toolResults = [] := if_pos answered
      rw [results, nil_append, held]
      exact repair_unanswered buffered.calls buffered.turns asks
    · have results : ConverseTranscript.emitted .user t.toolResults = [⟨.user, t.toolResults⟩] :=
        if_neg answered
      rw [results, singleton_append, patch_cons, held, repair_user]
      refine repair_partial buffered.calls buffered.answers buffered.turns
        (fun i done => (buffered.known i).2 (.inr done)) ?_
      exact filterMap_ne_nil buffered.answers answered

/-! ## Every history -/

/-- **Every history converts to a transcript Converse accepts.**  Whatever rows the
room kept, in whatever order, the roles alternate, every call is answered in the
message right after it, every result answers the message right before it, results
stand before texts, and what others said is shown once each, in order. -/
theorem convert_converse (codec : Codec) (agentName : String) (raw : List Row) :
    Converse (convert codec agentName raw) ∧
      userTexts (convert codec agentName raw) = othersTexts agentName raw := by
  obtain ⟨buffered, rests, shown⟩ := foldl_buffered codec agentName raw Buffered.fresh
    (fun _ => ⟨rfl, rfl, rfl⟩)
  obtain ⟨paired, texts⟩ := patch_buffered buffered rests
  refine ⟨(sound_merge paired).converse, ?_⟩
  rw [convert, ConverseTranscript.build, userTexts_merge, texts, shown]
  rfl

end BandSdk.Converters.Strands

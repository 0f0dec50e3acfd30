/-
# Converters.Google -- the contents Google's two SDKs read, from a room's history

Both converters batch the calls and the results of a history and put what is
pending into a message when the kind of row changes.  They part over the rest:

* `Adk.convert` leaves the messages as they come and then answers every call that
  the next message does not, under the call's own name;
* `Gemini.convert` answers nothing, drops what the agent itself said while calls or
  results are pending, and joins neighbours of one role.

`Adk.Repaired` is what the patching pass may do to a list of messages;
`Gemini.Exchange` is what is pending, told from the rows alone.
-/
import Mathlib
import BandSdk.Converters.Parsing

namespace BandSdk.Converters.Google

open List

open BandSdk.Theory (Json)

/-- Whose turn a message is. -/
inductive ContentRole where
  | user
  | model
  deriving DecidableEq

namespace Adk

/-! ## Messages of the agent kit -/

inductive Block where
  | text (text : String)
  | functionCall (id name : String) (args : List (String × Json))
  | functionResponse (toolCallId name output : String) (isError : Bool)

namespace Block

def callId : Block → Option String
  | .functionCall id _ _ => some id
  | _ => none

/-- The id and the name of a call. -/
def called : Block → Option (String × String)
  | .functionCall id name _ => some (id, name)
  | _ => none

def responseId : Block → Option String
  | .functionResponse toolCallId _ _ _ => some toolCallId
  | _ => none

end Block

inductive Content where
  | str (text : String)
  | list (blocks : List Block)

structure Message where
  role : ContentRole
  content : Content

namespace Message

variable (m : Message)

/-- The content as blocks; a string is one text. -/
def blocks : List Block :=
  match m.content with
  | .str text => [.text text]
  | .list blocks => blocks

def calls : List String := m.blocks.filterMap Block.callId

def answers : List String := m.blocks.filterMap Block.responseId

end Message

/-! ## The patching pass -/

/-- The ids of a model message's calls. -/
def callIds (m : Message) : List String := if m.role ≠ .model then [] else m.calls

/-- `call_names.get(uid, "")`: of two calls with one id the later one names it. -/
def callName (m : Message) (uid : String) : String :=
  ((m.blocks.filterMap Block.called).reverse.lookup uid).getD ""

/-- The ids a message answers as the follower of a call. -/
def matchedIds : Option Message → List String
  | none => []
  | some m => if m.role ≠ .user then [] else m.answers

/-- `sorted(call_ids - matched_ids)`. -/
def orphanedIds (m : Message) (next : Option Message) : List String :=
  ((callIds m).dedup.filter (· ∉ matchedIds next)).insertionSort (· ≤ ·)

def syntheticResults (m : Message) (ids : List String) : List Block :=
  ids.map fun uid => .functionResponse uid (callName m uid) interruptedToolText true

/-- The responses made up for a call, in front of the message that follows it. -/
def prepend (made : List Block) (next : Message) : Message :=
  { next with content := .list (made ++ next.blocks) }

/-- `_patch_orphaned_tool_calls`; the walk steps over the user message it wrote. -/
def patchOrphanedToolCalls : List Message → List Message
  | [] => []
  | [m] =>
    if orphanedIds m none = [] then [m]
    else [m, { role := .user, content := .list (syntheticResults m (orphanedIds m none)) }]
  | m :: next :: rest =>
    let orphaned := orphanedIds m (some next)
    if orphaned = [] then m :: patchOrphanedToolCalls (next :: rest)
    else if next.role = .user then
      m :: prepend (syntheticResults m orphaned) next :: patchOrphanedToolCalls rest
    else
      m :: { role := .user, content := .list (syntheticResults m orphaned) } ::
        patchOrphanedToolCalls (next :: rest)

/-! ## The converter -/

/-- The messages so far, and the calls and results not yet in one. -/
structure Draft where
  messages : List Message := []
  pendingToolCalls : List Block := []
  pendingToolResults : List Block := []

namespace Draft

variable (d : Draft)

def flushPendingToolCalls : Draft :=
  if d.pendingToolCalls = [] then d
  else
    { d with
      messages := d.messages ++ [{ role := .model, content := .list d.pendingToolCalls }]
      pendingToolCalls := [] }

def flushPendingToolResults : Draft :=
  if d.pendingToolResults = [] then d
  else
    { d with
      messages := d.messages ++ [{ role := .user, content := .list d.pendingToolResults }]
      pendingToolResults := [] }

end Draft

/-- A text row of this agent, once the converter knows its name. -/
def isOwn (agentName : String) (row : Row) : Bool :=
  row.role.getD .user = .assistant && agentName ≠ "" && row.sender = agentName

def handle (codec : Codec) (agentName : String) (d : Draft) (row : Row) : Draft :=
  match row.type with
  | .toolCall =>
    let d := d.flushPendingToolResults
    match parseToolCall codec row.body with
    | some call =>
      { d with pendingToolCalls :=
        d.pendingToolCalls ++ [Block.functionCall call.toolCallId call.name call.args] }
    | none => d
  | .toolResult =>
    let d := d.flushPendingToolCalls
    match parseToolResult codec row.body with
    | some result =>
      { d with pendingToolResults := d.pendingToolResults ++
        [Block.functionResponse result.toolCallId result.name result.output result.isError] }
    | none => d
  | .text =>
    let d := d.flushPendingToolCalls.flushPendingToolResults
    if isOwn agentName row then
      { d with messages := d.messages ++ [{ role := .model, content := .str row.body }] }
    else { d with messages := d.messages ++ [{ role := .user, content := .str row.quoted }] }
  | .thought | .error | .task | .usage | .unknown => d

/-- The messages before the pass. -/
def collected (codec : Codec) (agentName : String) (raw : List Row) : List Message :=
  (raw.foldl (handle codec agentName) {}).flushPendingToolCalls.flushPendingToolResults.messages

def convert (codec : Codec) (agentName : String) (raw : List Row) : List Message :=
  patchOrphanedToolCalls (collected codec agentName raw)

/-! ## Answered calls -/

/-- Every call of a model message is answered in the message after it. -/
def Answered : List Message → Prop
  | [] => True
  | m :: rest => (∀ uid ∈ callIds m, uid ∈ matchedIds rest.head?) ∧ Answered rest

variable {m : Message} (messages : List Message)

@[simp] theorem mem_orphanedIds {next : Option Message} {uid : String} :
    uid ∈ orphanedIds m next ↔ uid ∈ callIds m ∧ uid ∉ matchedIds next := by
  simp [orphanedIds, mem_insertionSort]

theorem orphanedIds_eq_nil {next : Option Message} :
    orphanedIds m next = [] ↔ ∀ uid ∈ callIds m, uid ∈ matchedIds next := by
  simp [eq_nil_iff_forall_not_mem]

@[simp] theorem answers_syntheticResults (m : Message) (ids : List String) :
    (syntheticResults m ids).filterMap Block.responseId = ids := by
  simp [syntheticResults, filterMap_map, Function.comp_def, Block.responseId]

@[simp] theorem matchedIds_made (m : Message) (ids : List String) :
    matchedIds (some { role := .user, content := .list (syntheticResults m ids) }) = ids := by
  simp [matchedIds, Message.answers, Message.blocks]

theorem matchedIds_prepend {m next : Message} (ids : List String) (user : next.role = .user) :
    matchedIds (some (prepend (syntheticResults m ids) next)) = ids ++ matchedIds (some next) := by
  simp [matchedIds, prepend, user, Message.answers, Message.blocks]

theorem head_patch : (patchOrphanedToolCalls messages).head? = messages.head? := by
  fun_cases patchOrphanedToolCalls messages <;> simp_all

/-- A user message asks nothing. -/
theorem answered_user (user : m.role = .user) {rest : List Message}
    (answered : Answered rest) : Answered (m :: rest) :=
  ⟨by simp [callIds, user], answered⟩

theorem answered_patch : Answered (patchOrphanedToolCalls messages) := by
  fun_induction patchOrphanedToolCalls messages with
  | case1 => trivial
  | case2 m none_ => exact ⟨orphanedIds_eq_nil.1 none_, trivial⟩
  | case3 m some_ =>
    refine ⟨fun uid asked => ?_, answered_user rfl trivial⟩
    rw [List.head?_cons, matchedIds_made]
    exact mem_orphanedIds.2 ⟨asked, not_mem_nil⟩
  | case4 m next rest orphaned none_ ih =>
    refine ⟨?_, ih⟩
    rw [head_patch]
    exact orphanedIds_eq_nil.1 none_
  | case5 m next rest orphaned some_ user ih =>
    have role : (prepend (syntheticResults m orphaned) next).role = .user := user
    refine ⟨fun uid asked => ?_, answered_user role ih⟩
    -- a call the follower answered is answered still, the others now are
    rw [List.head?_cons, matchedIds_prepend orphaned user, mem_append]
    by_cases matched : uid ∈ matchedIds (some next)
    · exact .inr matched
    · exact .inl (mem_orphanedIds.2 ⟨asked, matched⟩)
  | case6 m next rest orphaned some_ other ih =>
    refine ⟨fun uid asked => ?_, answered_user rfl ih⟩
    have unmatched : uid ∉ matchedIds (some next) := by simp [matchedIds, other]
    rw [List.head?_cons, matchedIds_made]
    exact mem_orphanedIds.2 ⟨asked, unmatched⟩

/-- Where every call is answered, the pass changes nothing. -/
theorem patch_of_answered {messages : List Message} (answered : Answered messages) :
    patchOrphanedToolCalls messages = messages := by
  fun_induction patchOrphanedToolCalls messages with
  | case1 | case2 m none_ => rfl
  | case3 m some_
  | case5 m next rest orphaned some_ user ih
  | case6 m next rest orphaned some_ other ih => exact absurd (orphanedIds_eq_nil.2 answered.1) some_
  | case4 m next rest orphaned none_ ih => rw [ih answered.2]

theorem Answered.next {messages before after : List Message} (answered : Answered messages)
    (split : messages = before ++ m :: after) (asks : callIds m ≠ []) :
    ∃ next rest, after = next :: rest ∧ next.role = .user ∧ ∀ uid ∈ callIds m, uid ∈ next.answers := by
  induction before generalizing messages with
  | nil =>
    subst split
    obtain ⟨uid, inside⟩ := exists_mem_of_ne_nil _ asks
    have matched := answered.1
    cases after with
    | nil => exact absurd (matched uid inside) not_mem_nil
    | cons next rest =>
      cases role : next.role with
      | user =>
        refine ⟨next, rest, rfl, role, ?_⟩
        simpa [matchedIds, role] using matched
      | model =>
        have unmatched : uid ∉ matchedIds (some next) := by simp [matchedIds, role]
        exact absurd (matched uid inside) unmatched
  | cons first before ih =>
    subst split
    exact ih answered.2 rfl

/-! ## What the pass may do -/

/-- A response made up for the last call of `m` with its id, under that call's name. -/
def MadeFor (m : Message) (block : Block) : Prop :=
  ∃ uid name args before after, m.blocks = before ++ .functionCall uid name args :: after ∧
    uid ∉ after.filterMap Block.callId ∧
    block = .functionResponse uid name interruptedToolText true

/-- Messages to which only made-up responses came: a message stays, with all its
blocks in order, behind responses for the calls right before it, or such responses
are a message of their own. -/
inductive Repaired : List Message → List Message → Prop
  | nil : Repaired [] []
  | kept (m : Message) {old new : List Message} (rest : Repaired old new) : Repaired (m :: old) (m :: new)
  | answered (m next : Message) (made : List Block) {old new : List Message}
      (user : next.role = .user) (known : ∀ block ∈ made, MadeFor m block) (rest : Repaired old new) :
      Repaired (m :: next :: old) (m :: prepend made next :: new)
  | inserted (m : Message) (made : List Block) {old new : List Message}
      (known : ∀ block ∈ made, MadeFor m block) (rest : Repaired old new) :
      Repaired (m :: old) (m :: { role := .user, content := .list made } :: new)

/-- The dictionary of names answers with the last call of an id. -/
theorem lookup_called {blocks : List Block} {uid : String} (asked : uid ∈ blocks.filterMap Block.callId) :
    ∃ name args before after, blocks = before ++ .functionCall uid name args :: after ∧
      uid ∉ after.filterMap Block.callId ∧
      (blocks.filterMap Block.called).reverse.lookup uid = some name := by
  induction blocks using reverseRecOn with
  | nil => exact absurd asked not_mem_nil
  | append_singleton blocks last ih =>
    by_cases same : last.callId = some uid
    · -- the last block is that call
      cases last with
      | functionCall id name args =>
        obtain rfl : id = uid := by simpa [Block.callId] using same
        exact ⟨name, args, blocks, [], rfl, not_mem_nil, by simp [Block.called]⟩
      | text said | functionResponse id name output isError => simp [Block.callId] at same
    · have earlier : uid ∈ blocks.filterMap Block.callId := by
        simpa [filterMap_append, same] using asked
      obtain ⟨name, args, before, after, split, later, found⟩ := ih earlier
      refine ⟨name, args, before, after ++ [last], by simp [split], ?_, ?_⟩
      · simpa [filterMap_append, same] using later
      cases last with
      | functionCall id other_ args_ =>
        have apart : (uid == id) = false :=
          beq_eq_false_iff_ne.2 fun equal => same (by simp [Block.callId, equal])
        simpa [filterMap_append, Block.called, lookup_cons, apart] using found
      | text said => simpa [filterMap_append, Block.called, filterMap_cons] using found
      | functionResponse id other_ output isError =>
        simpa [filterMap_append, Block.called, filterMap_cons] using found

theorem madeFor_synthetic {ids : List String} (asked : ∀ uid ∈ ids, uid ∈ callIds m) :
    ∀ block ∈ syntheticResults m ids, MadeFor m block := by
  intro block inside
  obtain ⟨uid, known, rfl⟩ := mem_map.1 inside
  have called : uid ∈ m.blocks.filterMap Block.callId := by
    have from_ := asked uid known
    by_cases role : m.role = .model
    · simpa [callIds, role, Message.calls] using from_
    · simp [callIds, role] at from_
  obtain ⟨name, args, before, after, split, later, found⟩ := lookup_called called
  exact ⟨uid, name, args, before, after, split, later, by simp [callName, found]⟩

theorem repaired_patch : Repaired messages (patchOrphanedToolCalls messages) := by
  have asked (m : Message) (next : Option Message) : ∀ uid ∈ orphanedIds m next, uid ∈ callIds m :=
    fun uid inside => (mem_orphanedIds.1 inside).1
  fun_induction patchOrphanedToolCalls messages with
  | case1 => exact .nil
  | case2 m none_ => exact .kept m .nil
  | case3 m some_ => exact .inserted m _ (madeFor_synthetic (asked m none)) .nil
  | case4 m next rest orphaned none_ ih => exact .kept m ih
  | case5 m next rest orphaned some_ user ih =>
    exact .answered m next _ user (madeFor_synthetic (asked m (some next))) ih
  | case6 m next rest orphaned some_ other ih =>
    exact .inserted m _ (madeFor_synthetic (asked m (some next))) ih

/-- A message as the pass may leave it: its blocks are all there, in order. -/
def Extends (old new : Message) : Prop := old.role = new.role ∧ old.blocks.Sublist new.blocks

theorem Extends.refl (m : Message) : Extends m m := ⟨rfl, List.Sublist.refl _⟩

/-- Repairing neither drops nor moves a message or a block. -/
theorem Repaired.extends {old new : List Message} (repaired : Repaired old new) :
    List.SublistForall₂ Extends old new := by
  induction repaired with
  | nil => exact .nil
  | kept m _ ih => exact .cons (.refl m) ih
  | answered m next made user known _ ih =>
    exact .cons (.refl m) (.cons ⟨rfl, sublist_append_right _ _⟩ ih)
  | inserted m made known _ ih => exact .cons (.refl m) (.cons_right ih)

end Adk

namespace Gemini

/-! ## Contents of the Gemini API -/

inductive Part where
  | text (text : String)
  | functionCall (id name : String) (args : List (String × Json))
  | functionResponse (id name : String) (response : List (String × Json))

structure Content where
  role : ContentRole
  parts : List Part

/-- One round of `mergeConsecutiveRoles`. -/
def join (merged : List Content) (msg : Content) : List Content :=
  match merged.getLast? with
  | some last =>
    if msg.role = last.role then
      merged.dropLast ++ [{ role := msg.role, parts := last.parts ++ msg.parts }]
    else merged ++ [msg]
  | none => merged ++ [msg]

def mergeConsecutiveRoles (messages : List Content) : List Content := messages.foldl join []

/-! ## The converter -/

def callPart (call : ParsedToolCall) : Part := .functionCall call.toolCallId call.name call.args

def resultPart (result : ParsedToolResult) : Part :=
  .functionResponse result.toolCallId result.name
    (if result.isError then [("error", .str result.output)] else [("output", .str result.output)])

/-- A text row of this agent; an unnamed agent owns the unnamed ones. -/
def isOwn (agentName : String) (row : Row) : Bool :=
  row.role.getD .user = .assistant && row.sender = agentName

/-- The messages so far, and the calls and results not yet in one. -/
structure Draft where
  messages : List Content := []
  pendingToolCalls : List Part := []
  pendingToolResults : List Part := []

namespace Draft

variable (d : Draft)

def flushPendingToolCalls : Draft :=
  if d.pendingToolCalls.isEmpty then d
  else
    { d with
      messages := d.messages ++ [{ role := .model, parts := d.pendingToolCalls }]
      pendingToolCalls := [] }

def flushPendingToolResults : Draft :=
  if d.pendingToolResults.isEmpty then d
  else
    { d with
      messages := d.messages ++ [{ role := .user, parts := d.pendingToolResults }]
      pendingToolResults := [] }

def say (role : ContentRole) (text : String) : Draft :=
  { d with messages := d.messages ++ [{ role := role, parts := [Part.text text] }] }

end Draft

def handle (codec : Codec) (agentName : String) (d : Draft) (row : Row) : Draft :=
  match row.type with
  | .toolCall =>
    let d := d.flushPendingToolResults
    match parseToolCall codec row.body with
    | some call => { d with pendingToolCalls := d.pendingToolCalls ++ [callPart call] }
    | none => d
  | .toolResult =>
    let d := d.flushPendingToolCalls
    match parseToolResult codec row.body with
    | some result => { d with pendingToolResults := d.pendingToolResults ++ [resultPart result] }
    | none => d
  | .text =>
    if isOwn agentName row then
      if !d.pendingToolCalls.isEmpty || !d.pendingToolResults.isEmpty then d
      else d.flushPendingToolCalls.flushPendingToolResults.say .model row.body
    else d.flushPendingToolCalls.flushPendingToolResults.say .user row.quoted
  | .thought | .error | .task | .usage | .unknown => d

def convert (codec : Codec) (agentName : String) (raw : List Row) : List Content :=
  let d := raw.foldl (handle codec agentName) {}
  mergeConsecutiveRoles d.flushPendingToolCalls.flushPendingToolResults.messages

/-! ## Merging -/

/-- The parts of all messages, in order. -/
def partsOf (messages : List Content) : List Part := messages.flatMap Content.parts

@[simp] theorem partsOf_nil : partsOf [] = [] := rfl

@[simp] theorem partsOf_append (l r : List Content) : partsOf (l ++ r) = partsOf l ++ partsOf r :=
  flatMap_append

@[simp] theorem partsOf_singleton (m : Content) : partsOf [m] = m.parts := by simp [partsOf]

/-- Neighbours differ in their role. -/
def Alternates (messages : List Content) : Prop := messages.IsChain fun m next => m.role ≠ next.role

theorem alternates_concat {front : List Content} {last : Content} :
    Alternates (front ++ [last]) ↔ Alternates front ∧ ∀ m ∈ front.getLast?, m.role ≠ last.role := by
  simp [Alternates, isChain_append]

/-- One round: nothing is lost, and the roles still alternate. -/
theorem join_keeps (merged : List Content) (msg : Content) :
    partsOf (join merged msg) = partsOf merged ++ msg.parts ∧
      (Alternates merged → Alternates (join merged msg)) := by
  rcases merged.eq_nil_or_concat with rfl | ⟨front, last, rfl⟩
  · exact ⟨by simp [join, partsOf], fun _ => isChain_singleton _⟩
  rw [concat_eq_append]
  by_cases same : msg.role = last.role
  · constructor
    · simp [join, same]
    · intro alternates
      simpa [join, same, alternates_concat] using alternates
  · have apart : ¬ last.role = msg.role := fun equal => same equal.symm
    constructor
    · simp [join, same, partsOf]
    intro alternates
    have joined : join (front ++ [last]) msg = (front ++ [last]) ++ [msg] := by simp [join, same]
    rw [joined, alternates_concat]
    exact ⟨alternates, by simpa using apart⟩

theorem foldl_join_keeps (messages merged : List Content) (alternates : Alternates merged) :
    partsOf (messages.foldl join merged) = partsOf merged ++ partsOf messages ∧
      Alternates (messages.foldl join merged) := by
  induction messages generalizing merged with
  | nil => exact ⟨by simp [partsOf], alternates⟩
  | cons msg messages ih =>
    obtain ⟨parts, kept⟩ := join_keeps merged msg
    obtain ⟨all, done⟩ := ih (join merged msg) (kept alternates)
    refine ⟨?_, done⟩
    rw [foldl_cons, all, parts, append_assoc]
    simp [partsOf]

/-! ## What is pending, told from the rows -/

section Rows

variable (codec : Codec) (agentName : String)

/-- The part of a parseable call or result. -/
def eventPart (row : Row) : Option Part :=
  match row.type with
  | .toolCall => (parseToolCall codec row.body).map callPart
  | .toolResult => (parseToolResult codec row.body).map resultPart
  | _ => none

/-- A row that ends no exchange of `kind`: a tool row of that kind, an own text, or a
row no history shows. -/
def Continues (kind : MessageType) (row : Row) : Prop :=
  match row.type with
  | .toolCall | .toolResult => row.type = kind
  | .text => isOwn agentName row = true
  | .thought | .error | .task | .usage | .unknown => True

/-- These rows leave an event of `kind` open: it parses, and every row since
continues its exchange. -/
def Pending (kind : MessageType) (earlier : List Row) : Prop :=
  ∃ before event since, earlier = before ++ event :: since ∧ event.type = kind ∧
    (eventPart codec event).isSome = true ∧ ∀ row ∈ since, Continues agentName kind row

def InToolExchange (earlier : List Row) : Prop :=
  Pending codec agentName .toolCall earlier ∨ Pending codec agentName .toolResult earlier

open Classical in
/-- The part a row becomes, if it is kept: a parseable call or result, what someone
else said, and what the agent said outside an open exchange. -/
noncomputable def keptPart (earlier : List Row) (row : Row) : List Part :=
  match row.type with
  | .toolCall | .toolResult => (eventPart codec row).toList
  | .text =>
    if !isOwn agentName row then [.text row.quoted]
    else if InToolExchange codec agentName earlier then []
    else [.text row.body]
  | .thought | .error | .task | .usage | .unknown => []

/-- The parts of the kept rows, in order. -/
noncomputable def keptParts (earlier : List Row) : List Row → List Part
  | [] => []
  | row :: rest => keptPart codec agentName earlier row ++ keptParts (earlier ++ [row]) rest

end Rows

variable {codec : Codec} {agentName : String}

theorem not_pending_nil (kind : MessageType) : ¬ Pending codec agentName kind [] := by
  rintro ⟨before, event, since, split, -⟩
  simp at split

/-- One more row: it opens an exchange of its kind, or continues the one that is open. -/
theorem pending_concat {kind : MessageType} {earlier : List Row} {row : Row} :
    Pending codec agentName kind (earlier ++ [row]) ↔ row.type = kind ∧ (eventPart codec row).isSome = true ∨
        Pending codec agentName kind earlier ∧ Continues agentName kind row := by
  constructor
  · rintro ⟨before, event, since, split, type, parses, continues⟩
    rcases since.eq_nil_or_concat with rfl | ⟨since, last, rfl⟩
    · obtain ⟨-, rfl⟩ : earlier = before ∧ row = event := by simpa using append_inj' split rfl
      exact .inl ⟨type, parses⟩
    · rw [concat_eq_append] at split continues
      rw [← cons_append, ← append_assoc] at split
      obtain ⟨rfl, rfl⟩ : earlier = before ++ event :: since ∧ row = last := by
        simpa using append_inj' split rfl
      refine .inr ⟨⟨before, event, since, rfl, type, parses, fun other inside => ?_⟩, ?_⟩
      · exact continues other (mem_append_left _ inside)
      · exact continues row (mem_append_right _ mem_cons_self)
  · rintro (⟨type, parses⟩ | ⟨⟨before, event, since, rfl, type, parses, continues⟩, last⟩)
    · exact ⟨earlier, row, [], rfl, type, parses, by simp⟩
    refine ⟨before, event, since ++ [row], by simp, type, parses, fun other inside => ?_⟩
    rcases mem_append.1 inside with inside | inside
    · exact continues other inside
    · exact mem_singleton.1 inside ▸ last

/-- The pending lists of a draft against the rows it has read. -/
structure Tracks (codec : Codec) (agentName : String) (earlier : List Row) (d : Draft) : Prop where
  calls : d.pendingToolCalls ≠ [] ↔ Pending codec agentName .toolCall earlier
  results : d.pendingToolResults ≠ [] ↔ Pending codec agentName .toolResult earlier
  apart : d.pendingToolCalls = [] ∨ d.pendingToolResults = []

namespace Draft

variable (d : Draft)

/-- The parts a draft has once it is flushed. -/
def parts : List Part := partsOf d.messages ++ d.pendingToolCalls ++ d.pendingToolResults

@[simp] theorem calls_flushPendingToolCalls : d.flushPendingToolCalls.pendingToolCalls = [] := by
  by_cases none_ : d.pendingToolCalls = [] <;> simp [flushPendingToolCalls, none_]

@[simp] theorem results_flushPendingToolCalls :
    d.flushPendingToolCalls.pendingToolResults = d.pendingToolResults := by
  by_cases none_ : d.pendingToolCalls = [] <;> simp [flushPendingToolCalls, none_]

@[simp] theorem messages_flushPendingToolCalls :
    partsOf d.flushPendingToolCalls.messages = partsOf d.messages ++ d.pendingToolCalls := by
  by_cases none_ : d.pendingToolCalls = [] <;> simp [flushPendingToolCalls, none_]

@[simp] theorem calls_flushPendingToolResults :
    d.flushPendingToolResults.pendingToolCalls = d.pendingToolCalls := by
  by_cases none_ : d.pendingToolResults = [] <;> simp [flushPendingToolResults, none_]

@[simp] theorem results_flushPendingToolResults : d.flushPendingToolResults.pendingToolResults = [] := by
  by_cases none_ : d.pendingToolResults = [] <;> simp [flushPendingToolResults, none_]

@[simp] theorem messages_flushPendingToolResults :
    partsOf d.flushPendingToolResults.messages = partsOf d.messages ++ d.pendingToolResults := by
  by_cases none_ : d.pendingToolResults = [] <;> simp [flushPendingToolResults, none_]

end Draft

variable {earlier : List Row} {d : Draft} {row : Row}

section

variable (tracks : Tracks codec agentName earlier d)
include tracks

open Draft

/-- The parts do not care which of the two lists comes first: one is empty. -/
theorem Tracks.parts_eq : d.parts = partsOf d.messages ++ d.pendingToolResults ++ d.pendingToolCalls := by
  rcases tracks.apart with none_ | none_ <;> simp [parts, none_]

/-- A row that says nothing to either list leaves both as they were. -/
theorem Tracks.continued (silent : eventPart codec row = none)
    (continues : ∀ kind, Continues agentName kind row) : Tracks codec agentName (earlier ++ [row]) d where
  calls := by simp [pending_concat, silent, continues, tracks.calls]
  results := by simp [pending_concat, silent, continues, tracks.results]
  apart := tracks.apart

theorem handle_toolCall (type : row.type = .toolCall) :
    Tracks codec agentName (earlier ++ [row]) (handle codec agentName d row) ∧
      (handle codec agentName d row).parts = d.parts ++ keptPart codec agentName earlier row := by
  have other : ¬ Pending codec agentName .toolResult (earlier ++ [row]) := by
    simp [pending_concat, type, Continues]
  cases parsed : parseToolCall codec row.body with
  | none =>
    refine ⟨⟨?_, ?_, ?_⟩, ?_⟩
    · simp [handle, type, parsed, pending_concat, eventPart, Continues, tracks.calls]
    · simp [handle, type, parsed, other]
    · simp [handle, type, parsed]
    · rw [tracks.parts_eq]
      simp [handle, type, parsed, keptPart, eventPart, parts]
  | some call =>
    refine ⟨⟨?_, ?_, ?_⟩, ?_⟩
    · simp [handle, type, parsed, pending_concat, eventPart]
    · simp [handle, type, parsed, other]
    · simp [handle, type, parsed]
    · rw [tracks.parts_eq]
      simp [handle, type, parsed, keptPart, eventPart, parts]

theorem handle_toolResult (type : row.type = .toolResult) :
    Tracks codec agentName (earlier ++ [row]) (handle codec agentName d row) ∧
      (handle codec agentName d row).parts = d.parts ++ keptPart codec agentName earlier row := by
  have other : ¬ Pending codec agentName .toolCall (earlier ++ [row]) := by
    simp [pending_concat, type, Continues]
  cases parsed : parseToolResult codec row.body with
  | none =>
    refine ⟨⟨?_, ?_, ?_⟩, ?_⟩
    · simp [handle, type, parsed, other]
    · simp [handle, type, parsed, pending_concat, eventPart, Continues, tracks.results]
    · simp [handle, type, parsed]
    · simp [handle, type, parsed, keptPart, eventPart, parts]
  | some result =>
    refine ⟨⟨?_, ?_, ?_⟩, ?_⟩
    · simp [handle, type, parsed, other]
    · simp [handle, type, parsed, pending_concat, eventPart]
    · simp [handle, type, parsed]
    · simp [handle, type, parsed, keptPart, eventPart, parts]

/-- What the agent said: kept where nothing is pending, and it opens and ends nothing. -/
theorem handle_own (type : row.type = .text) (own : isOwn agentName row = true) :
    Tracks codec agentName (earlier ++ [row]) (handle codec agentName d row) ∧
      (handle codec agentName d row).parts = d.parts ++ keptPart codec agentName earlier row := by
  have continued : Tracks codec agentName (earlier ++ [row]) d :=
    tracks.continued (by simp [eventPart, type]) (fun kind => by simp [Continues, type, own])
  by_cases exchange : InToolExchange codec agentName earlier
  · have busy : d.pendingToolCalls = [] → d.pendingToolResults ≠ [] := by
      intro none_
      rcases exchange with calls | results
      · exact absurd none_ (tracks.calls.2 calls)
      · exact tracks.results.2 results
    have same : handle codec agentName d row = d := by
      simp only [handle, type, own, if_true]
      rw [if_pos]
      by_cases none_ : d.pendingToolCalls = [] <;> simp [none_, busy]
    rw [same]
    exact ⟨continued, by simp [keptPart, type, own, exchange]⟩
  · obtain ⟨noCalls, noResults⟩ := not_or.1 exchange
    rw [← tracks.calls, not_not] at noCalls
    rw [← tracks.results, not_not] at noResults
    refine ⟨⟨?_, ?_, ?_⟩, ?_⟩
    · rw [← continued.calls]
      simp [handle, type, own, noCalls, noResults, say]
    · rw [← continued.results]
      simp [handle, type, own, noCalls, noResults, say]
    · simp [handle, type, own, noCalls, noResults, say]
    · simp [handle, type, own, noCalls, noResults, say, keptPart, exchange, parts]

omit tracks in
theorem handle_others (d : Draft) (type : row.type = .text) (others : isOwn agentName row = false) :
    Tracks codec agentName (earlier ++ [row]) (handle codec agentName d row) ∧
      (handle codec agentName d row).parts = d.parts ++ keptPart codec agentName earlier row := by
  have ended (kind : MessageType) : ¬ Pending codec agentName kind (earlier ++ [row]) := by
    simp [pending_concat, type, others, Continues, eventPart]
  refine ⟨⟨?_, ?_, ?_⟩, ?_⟩
  · simp [handle, type, others, ended, say]
  · simp [handle, type, others, ended, say]
  · simp [handle, type, others, say]
  · simp [handle, type, others, say, keptPart, parts]

/-- One row keeps the pending lists tracked and adds its kept part at the end. -/
theorem handle_tracks (row : Row) :
    Tracks codec agentName (earlier ++ [row]) (handle codec agentName d row) ∧
      (handle codec agentName d row).parts = d.parts ++ keptPart codec agentName earlier row := by
  cases type : row.type with
  | toolCall => exact handle_toolCall tracks type
  | toolResult => exact handle_toolResult tracks type
  | text =>
    cases own : isOwn agentName row with
    | true => exact handle_own tracks type own
    | false => exact handle_others d type own
  | thought | error | task | usage | unknown =>
    have same : handle codec agentName d row = d := by simp [handle, type]
    rw [same]
    refine ⟨tracks.continued ?_ ?_, ?_⟩
    · simp [eventPart, type]
    · simp [Continues, type]
    · simp [keptPart, type]

end

theorem foldl_tracks (raw : List Row) (tracks : Tracks codec agentName earlier d) :
    (raw.foldl (handle codec agentName) d).parts = d.parts ++ keptParts codec agentName earlier raw := by
  induction raw generalizing earlier d with
  | nil => simp [keptParts]
  | cons row raw ih =>
    obtain ⟨next, parts⟩ := handle_tracks tracks row
    rw [foldl_cons, ih next, parts, keptParts, append_assoc]

theorem Tracks.fresh : Tracks codec agentName [] {} where
  calls := by simp [not_pending_nil]
  results := by simp [not_pending_nil]
  apart := .inl rfl

theorem convert_keeps (raw : List Row) :
    Alternates (convert codec agentName raw) ∧
      partsOf (convert codec agentName raw) = keptParts codec agentName [] raw := by
  obtain ⟨parts, alternates⟩ := foldl_join_keeps
    (raw.foldl (handle codec agentName) {}).flushPendingToolCalls.flushPendingToolResults.messages []
    isChain_nil
  refine ⟨alternates, ?_⟩
  have fresh : Tracks codec agentName [] {} := Tracks.fresh
  calc
    partsOf (convert codec agentName raw) = (raw.foldl (handle codec agentName) {}).parts := by
      rw [convert, mergeConsecutiveRoles, parts]
      simp [Draft.parts]
    _ = keptParts codec agentName [] raw := by
      rw [foldl_tracks raw fresh]
      simp [Draft.parts]

end Gemini

/-- **Both conversions of a history.**  For the agent kit every call of a model
message is answered in the user message right after it, and the pass that sees to it
adds nothing but responses under the name of the call they answer, drops or moves no
block, and changes nothing the second time.  For the Gemini API the roles alternate,
and the parts are those of the kept rows, each once and in order. -/
theorem google_conversions (codec : Codec) (agentName : String) :
    (∀ (raw : List Row) (before after : List Adk.Message) (m : Adk.Message),
      Adk.convert codec agentName raw = before ++ m :: after → m.role = .model → m.calls ≠ [] →
        ∃ next rest, after = next :: rest ∧ next.role = .user ∧ ∀ uid ∈ m.calls, uid ∈ next.answers) ∧
    (∀ messages : List Adk.Message, Adk.Repaired messages (Adk.patchOrphanedToolCalls messages) ∧
        List.SublistForall₂ Adk.Extends messages (Adk.patchOrphanedToolCalls messages) ∧
        Adk.patchOrphanedToolCalls (Adk.patchOrphanedToolCalls messages) =
          Adk.patchOrphanedToolCalls messages) ∧
    ∀ raw : List Row, Gemini.Alternates (Gemini.convert codec agentName raw) ∧
      Gemini.partsOf (Gemini.convert codec agentName raw) = Gemini.keptParts codec agentName [] raw := by
  refine ⟨?_, ?_, fun raw => Gemini.convert_keeps raw⟩
  · intro raw before after m split model asks
    have ids : Adk.callIds m = m.calls := by simp [Adk.callIds, model]
    rw [← ids] at asks ⊢
    exact (Adk.answered_patch _).next split asks
  · intro messages
    have repaired := Adk.repaired_patch messages
    exact ⟨repaired, repaired.extends, Adk.patch_of_answered (Adk.answered_patch messages)⟩

end BandSdk.Converters.Google

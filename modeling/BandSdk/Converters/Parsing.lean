/-
# Converters.Parsing -- the rows of a room's history, and the tool events in them

A history row is what the platform kept of one message.  A tool event carries
its call or its result as a JSON object in its content; `parseToolCall` and
`parseToolResult` read one, and a row that is no such object is dropped.

Decoding the text (`json.loads`) and printing a value (`str`) are parameters:
nothing here depends on what they answer.
-/
import BandSdk.Theory.Json

namespace BandSdk.Converters

open BandSdk.Theory (Json)

structure Codec where
  loads : String → Option Json
  str : Json → String

inductive MessageType where
  | text
  | toolCall
  | toolResult
  | thought
  | error
  | task
  | usage
  /-- A type this version does not know. -/
  | unknown
  deriving DecidableEq

inductive Role where
  | user
  | assistant
  deriving DecidableEq

/-- One row, with the keys it may lack. -/
structure Row where
  messageType : Option MessageType := none
  content : Option String := none
  role : Option Role := none
  senderName : Option String := none

namespace Row

variable (row : Row)

def type : MessageType := row.messageType.getD .text

def body : String := row.content.getD ""

def sender : String := row.senderName.getD ""

/-- A text row from someone else, under its sender's name. -/
def quoted : String :=
  if row.sender = "" then row.body else "[" ++ row.sender ++ "]: " ++ row.body

end Row

structure ParsedToolCall where
  name : String
  args : List (String × Json)
  toolCallId : String

structure ParsedToolResult where
  name : String
  output : String
  toolCallId : String
  isError : Bool

variable (codec : Codec)

/-- `isinstance(value, str) and value`, of a field. -/
def textField (event : List (String × Json)) (key : String) : Option String :=
  (Json.strField event key).filter (· ≠ "")

/-- The object in a tool event's content. -/
def toolEvent (content : String) : Option (List (String × Json)) :=
  match codec.loads content with
  | some (.obj fields) => some fields
  | _ => none

def parseToolCall (content : String) : Option ParsedToolCall := do
  let event ← toolEvent codec content
  let toolCallId ← textField event "tool_call_id"
  let name ← textField event "name"
  let args := match event.lookup "args" with
    | some (.obj args) => args
    | _ => []
  return { name := name, args := args, toolCallId := toolCallId }

def parseToolResult (content : String) : Option ParsedToolResult := do
  let event ← toolEvent codec content
  let toolCallId ← textField event "tool_call_id"
  let name ← textField event "name"
  return {
    name := name
    output := codec.str ((event.lookup "output").getD (.str ""))
    toolCallId := toolCallId
    isError := ((event.lookup "is_error").getD (.bool false)).truthy }

/-- `INTERRUPTED_TOOL_TEXT`. -/
def interruptedToolText : String := "Error: tool execution was interrupted"

end BandSdk.Converters

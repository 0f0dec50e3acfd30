/-
# Runtime.Mentions -- the mentions a room message starts with

A delivered reply starts with the mentions that brought it; what a command or an answer
says comes after them.
-/
import BandSdk.Theory.Text

namespace BandSdk.Runtime

open BandSdk.Theory

/-- `@\S+(?:\s+|$)`: the word runs to the next space, and the spaces go with it. -/
def dropMention : List Char → Option (List Char)
  | '@' :: first :: rest =>
    if Text.isSpace first then none
    else some ((rest.dropWhile fun x => !Text.isSpace x).dropWhile Text.isSpace)
  | _ => none

/-- At most `bound` mentions more. -/
def dropMentions : Nat → List Char → List Char
  | 0, text => text
  | bound + 1, text =>
    match dropMention text with
    | none => text
    | some rest => dropMentions bound rest

/-- A text that does not start with a mention is left as it is, spaces included. -/
def stripLeadingMentions (content : String) (onlyFirst : Bool) : String :=
  match dropMention (content.toList.dropWhile Text.isSpace) with
  | none => content
  | some rest => String.ofList (if onlyFirst then rest else dropMentions rest.length rest)

end BandSdk.Runtime

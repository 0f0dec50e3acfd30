/-
# Opencode.Commands -- the grammar of a room reply

A room message may start with mentions; what follows them may be a command to answer a
permission, or the answer to a question.
-/
import BandSdk.Runtime.Mentions
import Mathlib.Tactic.Common

namespace BandSdk.Opencode

open BandSdk.Theory BandSdk.Runtime

inductive ApprovalReply where
  | once
  | always
  | reject
  deriving DecidableEq

/-! ## Commands -/

/-- `PERMISSION_REPLIES`. -/
def permissionReplies (word : String) : Option ApprovalReply :=
  if word = "approve" then some .once
  else if word = "always" then some .always
  else if word = "reject" then some .reject
  else none

structure PermissionCommand where
  reply : ApprovalReply
  requestId : Option String

def PermissionCommand.grants (command : PermissionCommand) : Bool :=
  command.reply = .once || command.reply = .always

def PermissionCommand.rejects (command : PermissionCommand) : Bool := command.reply = .reject

def parsePermissionReply (content : String) : Option PermissionCommand :=
  match Text.split content with
  | [] => none
  | first :: trailing =>
    let command := Text.lower (Text.lstrip '/' first)
    let requestId :=
      if trailing.all (Text.lower · = "please") then none else trailing.head?
    (permissionReplies command).map fun reply => ⟨reply, requestId⟩

/-- The command of a room message, if it is one. -/
def commandOf (content : String) : Option PermissionCommand :=
  parsePermissionReply (Text.strip (stripLeadingMentions (Text.strip content) false))

/-! ## Answers -/

/-- One answer line for each question; nothing when too few came. -/
def parseQuestionAnswers (content : String) (questionCount : Nat) : Option (List (List String)) :=
  match questionCount with
  | 0 => none
  | 1 =>
    let answer := Text.strip content
    if answer = "" then none else some [[answer]]
  | count =>
    let lines := ((Text.splitlines content).map Text.strip).filter (· ≠ "")
    if lines.length < count then none else some ((lines.take count).map fun line => [line])

theorem parseQuestionAnswers_length {content : String} {count : Nat} {answers : List (List String)}
    (parsed : parseQuestionAnswers content count = some answers) : answers.length = count := by
  unfold parseQuestionAnswers at parsed
  split at parsed
  · cases parsed
  · simp only at parsed
    split at parsed
    · cases parsed
    · cases parsed
      rfl
  · simp only at parsed
    split at parsed
    · cases parsed
    rename_i enough
    cases parsed
    simp only [List.length_map, List.length_take]
    omega

end BandSdk.Opencode

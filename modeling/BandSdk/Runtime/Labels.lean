/-
# Runtime.Labels -- how a participant is written in the text a model reads

A stored message names a participant as `@[[id]]`; before a model sees it each such
token becomes `@` and the participant's label.
-/
import BandSdk.Theory.Text

namespace BandSdk.Runtime.Mentions

open BandSdk.Theory

/-- What of a roster entry mentions are made of. -/
structure Participant where
  id : String
  handle : Option String
  name : Option String
deriving DecidableEq

/-- A handle wins; without one the whitespace of the display name collapses. -/
def mentionLabel (handle name : Option String) : Option String :=
  if handle.getD "" ≠ "" then handle
  else if name.getD "" = "" then none
  else
    let collapsed := "-".intercalate (Text.split (name.getD ""))
    if collapsed = "" then none else some collapsed

def Participant.label (participant : Participant) : Option String :=
  mentionLabel participant.handle participant.name

/-- The text that stands for a participant in what a model reads. -/
def mentionText (label : String) : String := "@" ++ label

end BandSdk.Runtime.Mentions

/-
# CrewFlow.Absorption -- what later events do to a run's record

Over events in order the record of a run changes with the run's own events only.
A terminal record never changes again.  A valid event only adds to one that is
not: keys stay, rounds do not go down, and a side effect keeps its message.  A
malformed event of the run closes it with a fresh record instead, and what the
run had is gone.
-/
import Mathlib.Data.List.Induction
import BandSdk.CrewFlow.Converter

namespace BandSdk.CrewFlow.Wire

open BandSdk.Theory List Keyed

variable (reader : Reader) (settings : Settings)

/-! ## Events in order -/

/-- `sorted` by the converter's key already. -/
def InOrder (raw : List RawEvent) : Prop := raw.Pairwise fun a b => sortKey reader a ≤ sortKey reader b

/-- One event, skipped where it is of another namespace. -/
def foldRaw (s : Fold) (event : RawEvent) : Fold :=
  match candidate reader settings event with
  | some c => foldEvent reader s c
  | none => s

def foldAll (raw : List RawEvent) : Fold := raw.foldl (foldRaw reader settings) {}

/-- The record of a run after these events. -/
def record (raw : List RawEvent) (run : String) : Option CrewAIFlowMetadata :=
  Keyed.get run (convert reader settings 0 raw)

/-- The run an event is of, if it is of the namespace, when its turn comes after `draws` draws. -/
def runOf (draws : Nat) (event : RawEvent) : Option String :=
  (payloadOf settings event).map fun payload =>
    match reader.validate payload with
    | .ok m => m.runId
    | .error _ => bestEffortRunId reader draws payload event

/-- Whether the event is of the namespace and its payload does not validate. -/
def malformed (event : RawEvent) : Bool :=
  (payloadOf settings event).any fun payload => (reader.validate payload).toOption.isNone

/-! ## What a record keeps -/

/-- The message of a side effect; of several entries of one key the last counts. -/
def CrewAIFlowMetadata.messageIdOf (m : CrewAIFlowMetadata) (key : String) : Option String :=
  (m.sideEffects.reverse.find? fun s => s.sideEffectKey = key).bind CrewAIFlowSideEffectState.messageId

/-- Nothing the first record has is missing in the second. -/
structure Grows (m m' : CrewAIFlowMetadata) : Prop where
  rounds : m.delegationRounds ≤ m'.delegationRounds
  delegations : ∀ d ∈ m.delegations, ∃ d' ∈ m'.delegations, d'.delegationId = d.delegationId
  chains : ∀ c ∈ m.sequentialChains, ∃ c' ∈ m'.sequentialChains, c'.key = c.key
  syntheses : ∀ b ∈ m.bufferedSyntheses, ∃ b' ∈ m'.bufferedSyntheses, b'.sourceMessageId = b.sourceMessageId
  sideEffects : ∀ s ∈ m.sideEffects, ∃ s' ∈ m'.sideEffects, s'.sideEffectKey = s.sideEffectKey
  messages : ∀ key, (m.messageIdOf key).isSome → (m'.messageIdOf key).isSome

theorem Grows.refl (m : CrewAIFlowMetadata) : Grows m m :=
  ⟨le_refl _, fun d inside => ⟨d, inside, rfl⟩, fun c inside => ⟨c, inside, rfl⟩, fun b inside => ⟨b, inside, rfl⟩,
    fun s inside => ⟨s, inside, rfl⟩, fun _ => id⟩

theorem Grows.trans {a b c : CrewAIFlowMetadata} (first : Grows a b) (second : Grows b c) : Grows a c := by
  constructor
  · exact le_trans first.rounds second.rounds
  · intro d inside
    obtain ⟨d', inside', same⟩ := first.delegations d inside
    obtain ⟨d'', inside'', same'⟩ := second.delegations d' inside'
    exact ⟨d'', inside'', same'.trans same⟩
  · intro d inside
    obtain ⟨d', inside', same⟩ := first.chains d inside
    obtain ⟨d'', inside'', same'⟩ := second.chains d' inside'
    exact ⟨d'', inside'', same'.trans same⟩
  · intro d inside
    obtain ⟨d', inside', same⟩ := first.syntheses d inside
    obtain ⟨d'', inside'', same'⟩ := second.syntheses d' inside'
    exact ⟨d'', inside'', same'.trans same⟩
  · intro d inside
    obtain ⟨d', inside', same⟩ := first.sideEffects d inside
    obtain ⟨d'', inside'', same'⟩ := second.sideEffects d' inside'
    exact ⟨d'', inside'', same'.trans same⟩
  · exact fun key present => second.messages key (first.messages key present)

/-! ## Merging keeps -/

open CrewAIFlowSideEffectState (key_combine)

section Step

variable (run : String) (s : Fold)

variable {run s} {event : RawEvent} {m : CrewAIFlowMetadata}

end Step

/-! ## Longer and longer prefixes -/

/-- Among the events that come after `raw`, one of the run that meets `bad`. -/
def Meets (bad : RawEvent → Bool) (run : String) (raw more : List RawEvent) : Prop :=
  ∃ before event after, more = before ++ event :: after ∧ bad event = true ∧
    runOf reader settings (foldAll reader settings (raw ++ before)).draws event = some run

theorem Meets.longer {bad : RawEvent → Bool} {run : String} {raw more : List RawEvent}
    (met : Meets reader settings bad run raw more) (event : RawEvent) :
    Meets reader settings bad run raw (more ++ [event]) := by
  obtain ⟨before, e, after, rfl, holds, own⟩ := met
  exact ⟨before, e, after ++ [event], by simp, holds, own⟩

theorem Meets.last {bad : RawEvent → Bool} {run : String} {raw more : List RawEvent} {event : RawEvent}
    (holds : bad event = true)
    (own : runOf reader settings (foldAll reader settings (raw ++ more)).draws event = some run) :
    Meets reader settings bad run raw (more ++ [event]) :=
  ⟨more, event, [], rfl, holds, own⟩

section Runs

variable (run : String) (raw more : List RawEvent)

end Runs

end BandSdk.CrewFlow.Wire

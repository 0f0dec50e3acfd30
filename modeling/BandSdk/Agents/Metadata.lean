/-
# Agents.Metadata -- what a runtime knows of its agent when it is initialized

`PlatformRuntime.initialize` makes the link, asks the platform who the agent is,
and returns.  It is called from three places: by a host, by `PlatformRuntime.start`
and by `Agent.start`, which then starts its adapter under the name, description
and feature flags the runtime has.

A second call returns at once where there is a link, and the link is there before
the platform answered: a call that finds one after a fetch failed, or while one is
under way, returns without metadata.  `Settled` is the condition under which none does.

`answers`, `returns` and `adapters` are the model's own record of what the platform
said, of what each call returned on, and of what each adapter was started with.
-/
import BandSdk.Theory.Machine

namespace BandSdk.Agents

open BandSdk.Theory List Option

/-- What the platform says of an agent. -/
structure AgentMe where
  name : String
  description : String
  featureFlags : Option (List (String × Bool))
  deriving DecidableEq

/-- How one request of `get_agent_me` ended. -/
inductive MeAnswer where
  | response (data : Option AgentMe)
  | apiError (statusCode : Nat)
  /-- Any other exception, or a cancellation; also of the wait before a retry. -/
  | raised

inductive Caller where
  | host
  | runtimeStart
  | agentStart
  deriving DecidableEq

structure RuntimeMetadata where
  /-- `_link` is set. -/
  link : Bool := false
  agentName : String := ""
  agentDescription : String := ""
  featureFlags : Option (List (String × Bool)) := none
  /-- The call that fetches, and its attempt. -/
  fetching : Option (Caller × Nat) := none
  /-- A fetch raised. -/
  failed : Bool := false
  answers : List AgentMe := []
  returns : List (Caller × AgentMe) := []
  adapters : List AgentMe := []

/-- `len(_METADATA_RETRY_DELAYS_SECONDS) + 1`. -/
def metadataAttempts : Nat := 6

namespace RuntimeMetadata

variable (s : RuntimeMetadata)

/-- The runtime's fields, as `start_adapter` is given them. -/
def known : AgentMe where
  name := s.agentName
  description := s.agentDescription
  featureFlags := s.featureFlags

/-- `initialize` returns to its caller; an agent then starts its adapter. -/
def returned (caller : Caller) : RuntimeMetadata :=
  { s with
    returns := s.returns ++ [(caller, s.known)]
    adapters := if caller = .agentStart then s.adapters ++ [s.known] else s.adapters }

/-- `initialize`. -/
def initializeLink (caller : Caller) : RuntimeMetadata :=
  if s.link then s.returned caller else { s with link := true, fetching := some (caller, 1) }

def raise : RuntimeMetadata := { s with fetching := none, failed := true }

def learned (agent : AgentMe) : RuntimeMetadata :=
  { s with
    agentName := agent.name
    agentDescription := agent.description
    featureFlags := agent.featureFlags
    fetching := none
    answers := s.answers ++ [agent] }

/-- One answer in the loop of `_fetch_agent_metadata`. -/
def fetched (caller : Caller) (attempt : Nat) : MeAnswer → RuntimeMetadata
  | .response none => s.raise
  | .response (some agent) =>
    if agent.description = "" then s.raise else (s.learned agent).returned caller
  | .apiError statusCode =>
    if statusCode ≠ 429 ∨ attempt = metadataAttempts then s.raise
    else { s with fetching := some (caller, attempt + 1) }
  | .raised => s.raise

end RuntimeMetadata

inductive MetadataEvent where
  | call (caller : Caller)
  | answer (answer : MeAnswer)

/-- Calls of `initialize` and the platform's answers, in any order. -/
def initializing : Machine RuntimeMetadata MetadataEvent where
  init s := s = {}
  step s
    | .call caller => some (s.initializeLink caller)
    | .answer answer => s.fetching.map fun fetch => s.fetched fetch.1 fetch.2 answer

/-- What the platform said, with a description. -/
def RuntimeMetadata.Said (s : RuntimeMetadata) (agent : AgentMe) : Prop :=
  agent ∈ s.answers ∧ agent.description ≠ ""

/-- Every call returned on, and every adapter was started with, what the platform said. -/
structure OnlyFetched (s : RuntimeMetadata) : Prop where
  returns : ∀ entry ∈ s.returns, s.Said entry.2
  adapters : ∀ agent ∈ s.adapters, s.Said agent

/-- No call finds a link whose fetch failed or is under way. -/
def Settled (s : RuntimeMetadata) : MetadataEvent → Bool
  | .call _ => s.fetching = none && !s.failed
  | .answer _ => true

/-- What such runs keep: a link at rest has its metadata. -/
structure Grounded (s : RuntimeMetadata) : Prop where
  only : OnlyFetched s
  linked : s.link = true → s.fetching = none → s.failed = false → s.Said s.known

open RuntimeMetadata

theorem OnlyFetched.returned {s : RuntimeMetadata} (only : OnlyFetched s) (said : s.Said s.known)
    (caller : Caller) : OnlyFetched (s.returned caller) where
  returns := by
    intro entry inside
    rcases mem_concat inside with inside | inside
    · exact only.returns entry inside
    · rw [inside]
      exact said
  adapters := by
    intro agent inside
    simp only [RuntimeMetadata.returned] at inside
    split at inside
    · rcases mem_concat inside with inside | inside
      · exact only.adapters agent inside
      · rw [inside]
        exact said
    · exact only.adapters agent inside

/-- More answers keep what was said. -/
theorem OnlyFetched.mono {s t : RuntimeMetadata} (only : OnlyFetched s)
    (more : ∀ agent, s.Said agent → t.Said agent) (returns : t.returns = s.returns)
    (adapters : t.adapters = s.adapters) : OnlyFetched t where
  returns entry inside := more _ (only.returns entry (returns ▸ inside))
  adapters agent inside := more _ (only.adapters agent (adapters ▸ inside))

theorem grounded_raise {s : RuntimeMetadata} (grounded : Grounded s) : Grounded s.raise where
  only := grounded.only.mono (fun _ said => said) rfl rfl
  linked _ _ fine := by cases fine

theorem grounded_call {s : RuntimeMetadata} (grounded : Grounded s) (caller : Caller)
    (idle : s.fetching = none) (fine : s.failed = false) : Grounded (s.initializeLink caller) := by
  unfold initializeLink
  split
  next linked =>
    have said := grounded.linked linked idle fine
    exact ⟨grounded.only.returned said caller, fun _ _ _ => said⟩
  next =>
    refine ⟨grounded.only.mono (fun _ said => said) rfl rfl, ?_⟩
    simp

theorem grounded_answer {s : RuntimeMetadata} (grounded : Grounded s) (caller : Caller)
    (attempt : Nat) (answer : MeAnswer) : Grounded (s.fetched caller attempt answer) := by
  cases answer with
  | raised => exact grounded_raise grounded
  | apiError statusCode =>
    simp only [fetched]
    split
    · exact grounded_raise grounded
    · exact ⟨grounded.only.mono (fun _ said => said) rfl rfl, by simp⟩
  | response data =>
    cases data with
    | none => exact grounded_raise grounded
    | some agent =>
      simp only [fetched]
      split
      · exact grounded_raise grounded
      rename_i described
      have said : (s.learned agent).Said (s.learned agent).known :=
        ⟨mem_append_right _ mem_cons_self, described⟩
      refine ⟨OnlyFetched.returned ?_ said caller, fun _ _ _ => said⟩
      refine grounded.only.mono (fun other known => ⟨?_, known.2⟩) rfl rfl
      exact mem_append_left _ known.1

/-- **An initialized runtime knows its agent.**  In every run in which no call of
`initialize` finds a link whose metadata fetch failed or is still under way, every
call that returned, from whichever layer, returned on metadata the platform sent
with a description, and so every adapter was started with it. -/
theorem adapters_start_on_fetched_metadata {s : RuntimeMetadata}
    (reached : (initializing.restrict Settled).Reachable s) : OnlyFetched s := by
  suffices grounded : Grounded s from grounded.only
  refine reached.invariant ?_ ?_
  · rintro s rfl
    exact ⟨⟨by simp, by simp⟩, by simp⟩
  · intro s event t grounded stepped
    obtain ⟨allowed, stepped⟩ := of_passed stepped
    cases event with
    | call caller =>
      simp only [Settled, Bool.and_eq_true, decide_eq_true_eq, Bool.not_eq_true'] at allowed
      cases stepped
      exact grounded_call grounded caller allowed.1 allowed.2
    | answer answer =>
      obtain ⟨fetch, -, rfl⟩ := map_eq_some_iff.1 stepped
      exact grounded_answer grounded fetch.1 fetch.2 answer

/-- An agent that is rate limited once, then started, then started by its runtime. -/
def fetchedRun : List MetadataEvent :=
  [.call .agentStart, .answer (.apiError 429),
    .answer (.response (some ⟨"helper", "Answers questions", some [("tools", true)]⟩)),
    .call .runtimeStart]

theorem adapters_start_on_fetched_metadata_retried :
    ∃ s, (initializing.restrict Settled).run {} fetchedRun = some s ∧
      s.adapters = [⟨"helper", "Answers questions", some [("tools", true)]⟩] ∧ OnlyFetched s := by
  have ran : ((initializing.restrict Settled).run {} fetchedRun).map adapters =
      some [⟨"helper", "Answers questions", some [("tools", true)]⟩] := by
    decide +kernel
  obtain ⟨s, ran, started⟩ := map_eq_some_iff.1 ran
  exact ⟨s, ran, started, adapters_start_on_fetched_metadata ⟨_, rfl, fetchedRun, ran⟩⟩

/-- A start whose fetch fails, and its retry: the adapter starts without a name. -/
theorem retried_start_without_metadata :
    ∃ s, initializing.run {} [.call .agentStart, .answer (.apiError 503), .call .agentStart] = some s ∧
      s.adapters = [⟨"", "", none⟩] ∧ ¬ OnlyFetched s := by
  have ran : (initializing.run {} [.call .agentStart, .answer (.apiError 503), .call .agentStart]).map
      adapters = some [⟨"", "", none⟩] := by
    decide +kernel
  obtain ⟨s, ran, started⟩ := map_eq_some_iff.1 ran
  refine ⟨s, ran, started, fun only => ?_⟩
  have said := (only.adapters ⟨"", "", none⟩ (by rw [started]; exact mem_cons_self)).2
  exact said rfl

end BandSdk.Agents

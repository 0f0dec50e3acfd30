/-
# ClaudeSdk.Answers -- what of the CLI's answers is still unread

A CLI answers its queries in order.  `unread` is what it emitted and no stream was handed
yet, `tags` the queries these messages answer and the queries still owed one.  Once the
`ResultMessage` of a query is taken off the output, nothing of its answer is left.  Whatever
retires a residency takes its authority for good (`Gone`), along every further run.
-/
import BandSdk.ClaudeSdk.Streams
import BandSdk.Retention.Runs

namespace BandSdk.ClaudeSdk

open BandSdk.Theory BandSdk.Retention RetainedRoom RoomRetention List

/-! ## One CLI -/

def Reader.held : Reader → List Message
  | .observing message => [message]
  | _ => []

namespace Cli

variable {cli next : Cli} {kind : MessageKind} {message : Message}

def unread (cli : Cli) : List Message := cli.reader.held ++ cli.output

def tags (cli : Cli) : List Nat := cli.unread.map Message.query ++ cli.owed

theorem mem_tags {query : Nat} :
    query ∈ cli.tags ↔ (∃ message ∈ cli.unread, message.query = query) ∨ query ∈ cli.owed := by
  simp [tags]

/-- No query is owed two answers, and a `ResultMessage` ends its answer. -/
structure Ordered (cli : Cli) : Prop where
  owed : cli.owed.Nodup
  last : cli.unread.Pairwise fun m m' => m.isResult = true → m'.query ≠ m.query
  results : ∀ m ∈ cli.unread, m.isResult = true → m.query ∉ cli.owed

theorem ordered_new : Ordered {} :=
  ⟨nodup_nil, List.Pairwise.nil, fun _ member => by cases member⟩

/-- One step of the CLI or of its reader adds nothing to what is unread, and a reader that
ended stays so. -/
structure Shrinks (cli next : Cli) : Prop where
  ordered : next.Ordered
  tags : ∀ query, query ∈ next.tags → query ∈ cli.tags
  ended : cli.reader = .ended → next.reader = .ended

section

variable (ordered : cli.Ordered)
include ordered

theorem Ordered.emit (emitted : cli.emit kind = some next) : cli.Shrinks next := by
  unfold Cli.emit at emitted
  split at emitted
  · cases emitted
  rename_i query rest owed
  cases emitted
  have nodup := ordered.owed
  rw [owed, nodup_cons] at nodup
  have unread : unread { cli with
      output := cli.output ++ [⟨query, kind⟩]
      owed := if kind.isResult = true then rest else query :: rest } =
      cli.unread ++ [⟨query, kind⟩] := by
    simp [Cli.unread]
  have fewer : ∀ q ∈ (if kind.isResult = true then rest else query :: rest), q ∈ cli.owed := by
    intro q member
    rw [owed]
    split at member
    · exact mem_cons_of_mem _ member
    · exact member
  refine ⟨⟨?_, ?_, ?_⟩, ?_, id⟩
  · show List.Nodup (if kind.isResult = true then rest else query :: rest)
    split
    · exact nodup.2
    · exact nodup_cons.2 nodup
  · rw [unread, pairwise_append]
    refine ⟨ordered.last, pairwise_singleton _ _, fun m member m' new result => ?_⟩
    rw [mem_singleton.1 new]
    have unowed := ordered.results m member result
    rw [owed] at unowed
    exact fun same => unowed (mem_cons.2 (.inl same.symm))
  · intro m member result
    rw [unread] at member
    rcases mem_concat member with old | new
    · exact fun owes => ordered.results m old result (fewer _ owes)
    rw [new] at result ⊢
    have ends : kind.isResult = true := result
    show query ∉ (if kind.isResult = true then rest else query :: rest)
    rw [if_pos ends]
    exact nodup.1
  · intro q member
    rw [mem_tags, unread] at member
    rw [mem_tags]
    rcases member with ⟨m, emitted, same⟩ | owes
    · rcases mem_concat emitted with old | new
      · exact .inl ⟨m, old, same⟩
      · rw [new] at same
        exact .inr (by rw [owed, ← same]; exact mem_cons_self)
    · exact .inr (fewer q owes)

theorem Ordered.receive (received : cli.receive = some next) : cli.Shrinks next := by
  unfold Cli.receive at received
  split at received
  · rename_i message rest reader output
    cases received
    have unread : unread { cli with output := rest, reader := .observing message } = cli.unread := by
      simp [Cli.unread, reader, output, Reader.held]
    refine ⟨⟨ordered.owed, ?_, ?_⟩, ?_, ?_⟩
    · rw [unread]; exact ordered.last
    · rw [unread]; exact ordered.results
    · intro query member
      rw [mem_tags] at member ⊢
      rwa [unread] at member
    · rw [reader]; exact nofun
  · cases received

/-- The reader lets go of what it holds; nothing else of a finished answer is left. -/
theorem Ordered.release (reader : Reader) (free : reader.held = [])
    (ended : cli.reader = .ended → reader = .ended) :
    cli.Shrinks { cli with reader := reader } := by
  have unread : unread { cli with reader := reader } = cli.output := by
    simp [Cli.unread, free]
  have fewer : ∀ m ∈ cli.output, m ∈ cli.unread := fun m member => mem_append_right _ member
  refine ⟨⟨ordered.owed, ?_, ?_⟩, ?_, ended⟩
  · rw [unread]
    exact (pairwise_append.1 ordered.last).2.1
  · rw [unread]
    exact fun m member => ordered.results m (fewer m member)
  · intro query member
    rw [mem_tags, unread] at member
    rw [mem_tags]
    exact member.imp (fun ⟨m, old, same⟩ => ⟨m, fewer m old, same⟩) id

theorem Ordered.read (reader : cli.reader = .observing message) (result : message.isResult = true) :
    message.query ∉ tags { cli with reader := .receiving } := by
  have unread : cli.unread = message :: cli.output := by
    simp [Cli.unread, reader, Reader.held]
  rw [mem_tags]
  rintro (⟨m, member, same⟩ | owes)
  · have last := ordered.last
    rw [unread] at last
    exact (pairwise_cons.1 last).1 m member result same
  · exact ordered.results message (by rw [unread]; exact mem_cons_self) result owes

theorem Ordered.send {query : Nat} (fresh : query ∉ cli.tags) :
    Ordered { cli with owed := cli.owed ++ [query] } := by
  rw [mem_tags, not_or] at fresh
  obtain ⟨unanswered, unowed⟩ := fresh
  refine ⟨?_, ordered.last, fun m member result => ?_⟩
  · exact nodup_append.2 ⟨ordered.owed, nodup_singleton _,
      fun q owed q' new same => unowed (by rw [← mem_singleton.1 new, ← same]; exact owed)⟩
  · show m.query ∉ cli.owed ++ [query]
    rw [mem_append, mem_singleton, not_or]
    exact ⟨ordered.results m member result, fun same => unanswered ⟨m, member, same⟩⟩

end

theorem mem_tags_send {query q : Nat} (member : q ∈ tags { cli with owed := cli.owed ++ [query] }) :
    q ∈ cli.tags ∨ q = query := by
  rw [mem_tags] at member ⊢
  rcases member with emitted | owed
  · exact .inl (.inl emitted)
  · exact (mem_append.1 owed).imp .inr mem_singleton.1

end Cli

/-! ## The residency underneath -/

section Residency

variable {room g : Nat} {w w' : RoomRetention}

/-- Residency `g` of the room has lost its authority. -/
def Gone (room : Nat) (w : RoomRetention) (g : Nat) : Prop :=
  ∃ r, w.rooms[room]? = some r ∧ g ≤ r.generation ∧ r.hasAuthority w.view g = false

theorem Gone.moved (gone : Gone room w g) (moved : w.Moved w') : Gone room w' g := by
  obtain ⟨r, found, le, lost⟩ := gone
  obtain ⟨r', found', moves⟩ := moved room r found
  exact ⟨r', found', le.trans moves.generation, moves.retired g le lost⟩

theorem Gone.reaches (gone : Gone room w g) (sound : w.Sound)
    (path : retention.Reaches w w') : Gone room w' g := by
  have both : w'.Sound ∧ Gone room w' g := path.invariant (P := fun w => w.Sound ∧ Gone room w g)
    ⟨sound, gone⟩ fun v e v' before stepped =>
      have step := before.1.step stepped
      ⟨step.1, before.2.moved step.2⟩
  exact both.2

theorem generation_reaches (sound : w.Sound)
    (path : retention.Reaches w w') {r : RetainedRoom} (found : w.rooms[room]? = some r) :
    w'.Sound ∧ ∃ r', w'.rooms[room]? = some r' ∧ r.generation ≤ r'.generation := by
  refine path.invariant (P := fun v => v.Sound ∧ ∃ q, v.rooms[room]? = some q ∧
    r.generation ≤ q.generation) ⟨sound, r, found, Nat.le_refl _⟩ fun v e v' before stepped => ?_
  have step := before.1.step stepped
  obtain ⟨q, at_, le⟩ := before.2
  obtain ⟨q', at', moves⟩ := step.2 room q at_
  exact ⟨step.1, q', at', le.trans moves.generation⟩

theorem sound_reaches (sound : w.Sound) (path : retention.Reaches w w') : w'.Sound :=
  path.invariant (P := Sound) sound fun _ _ _ before stepped => (before.step stepped).1

/-- A body starts over an admitting residency, so whatever lost its authority is older. -/
theorem Gone.lt_of_ready {r : RetainedRoom} (gone : Gone room w g)
    (found : w.rooms[room]? = some r) (ready : r.Ready w.view) : g < r.generation := by
  obtain ⟨r', found', le, lost⟩ := gone
  rw [found] at found'
  cases found'
  obtain ⟨resident, -, uncaused, open_⟩ := ready
  refine lt_of_le_of_ne le fun same => ?_
  have authority : r.hasAuthority w.view g = true :=
    (authority_eq g).2 ⟨same, open_, .inl uncaused, by simp [resident], by simp [resident]⟩
  rw [lost] at authority
  cases authority

/-- Asking for recovery leaves the room without authority, whoever asked first. -/
theorem recover_lost (o : OwnerView) (r : RetainedRoom) (reason : String) {g : Nat}
    (le : g ≤ r.generation) : (r.recover o r.generation reason).hasAuthority o g = false := by
  unfold RetainedRoom.recover
  split
  · -- the cause is now recovery or final, and a release that starts keeps it so
    have caused : ∀ q : RetainedRoom, (∃ cause, q.cause = some (strongerCause cause .recovery)) →
        q.startRequestedRecovery.hasAuthority o g = false := by
      intro q known
      unfold startRequestedRecovery
      split
      · obtain ⟨_, eq⟩ := startRelease_shape q .recovery false
        rw [eq]
        exact hasAuthority_of_recovery g rfl
      · obtain ⟨cause, eq⟩ := known
        exact hasAuthority_of_recovery g eq
    refine caused _ ⟨r.cause, ?_⟩
    obtain ⟨_, _, _, _, eq, -⟩ := schedule_shape o (if ({ r.request .recovery with
      recoverWhenUnleased := true
      activity := .unknown
      reason := reason
      error := some reason } : RetainedRoom).state = .resident then { ({ r.request .recovery with
        recoverWhenUnleased := true
        activity := .unknown
        reason := reason
        error := some reason } : RetainedRoom) with state := .cleanupPending }
      else { r.request .recovery with
        recoverWhenUnleased := true
        activity := .unknown
        reason := reason
        error := some reason }) false
    rw [eq]
    split <;> rfl
  · rename_i lost
    rcases Nat.lt_or_eq_of_le le with older | rfl
    · simp [RetainedRoom.hasAuthority, Nat.ne_of_lt older]
    · simpa using lost

theorem generation_recover (o : OwnerView) (r : RetainedRoom) (g : Nat) (reason : String) :
    (r.recover o g reason).generation = r.generation := by
  have started : ∀ q : RetainedRoom, q.startRequestedRecovery.generation = q.generation := by
    intro q
    unfold startRequestedRecovery
    split
    · obtain ⟨_, eq⟩ := startRelease_shape q .recovery false
      rw [eq]
    · rfl
  unfold RetainedRoom.recover
  split
  · dsimp only
    rw [started]
    split
    all_goals
      obtain ⟨_, _, _, _, eq, -⟩ := schedule_shape o _ false
      rw [eq]
      rfl
  · rfl

end Residency

end BandSdk.ClaudeSdk

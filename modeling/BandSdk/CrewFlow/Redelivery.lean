/-
# CrewFlow.Redelivery -- a reply is recorded once

Over the whole life of a room a message may be delivered any number of times.
Its reply is recorded at most once if every delivery of a message that some run
has as a reply is one the match recognises or that fits no single open delegation
(`World.handled`).  The carrier is that a recorded reply stays in its run's record
(`AnsweredBy`): whoever writes delegations of the run afterwards writes the reply
along with them (`Turn.Faithful`).
-/
import BandSdk.CrewFlow.Loaded
import BandSdk.CrewFlow.Replies

namespace BandSdk.CrewFlow

open BandSdk.Theory List Turn

/-! ## Replies in the log -/

/-- The event records the message as a reply. -/
def TaskEvent.isReplyOf (event : TaskEvent) (message : MessageId) : Bool :=
  event.author = message && match event.content with
    | .replyRecorded _ => true
    | _ => false

def World.repliesRecorded (w : World) (message : MessageId) : Nat := w.log.countP (·.isReplyOf message)

/-- The open delegations to the sender that the message's token leaves. -/
def fittingDelegations (refToken : RunId → DelegationId → String) (m : Message) (runs : Runs)
    (sender : PeerKey) : List (RunId × Delegation × Metadata) :=
  match m.token with
  | some token => (candidates runs sender).filter fun (c : RunId × Delegation × Metadata) =>
    refToken c.1 c.2.1.delegationId = token
  | none => candidates runs sender

/-- A delivery of a message that is a reply already: its run is over, an open run knows it, or it
fits no single open delegation. -/
def World.handled (c : FlowConfig) (w : World) : World.RoomEvent → Bool
  | .deliver m _ true aged =>
    let runs := convert aged w.log
    !(runs.any fun pair => pair.2.delegations.any (·.replyMessageId = some m.id)) ||
      (runs.isTerminal m.id || ((activeRuns runs).any fun pair => pair.2.delegations.any (·.knows m)) ||
        m.sender.all fun sender => (fittingDelegations c.refToken m runs sender).length ≠ 1)
  | _ => true

/-- The record of the run has the message as the reply to a delegation. -/
def AnsweredBy (log : List TaskEvent) (run : RunId) (id : DelegationId) (message : MessageId) : Prop :=
  ∃ m, recordOf log run = some m ∧ ∃ d ∈ m.delegations, d.delegationId = id ∧ d.replyMessageId = some message

/-- No two entries of one delegation. -/
def Distinct (ds : List Delegation) : Prop := (ds.map Delegation.delegationId).Nodup

/-- No open delegation has a reply. -/
def Vacant (ds : List Delegation) : Prop := ∀ d ∈ ds, d.isOpen = true → d.replyMessageId = none

section Entries

variable {log : List TaskEvent} {run : RunId} {event : TaskEvent} {id : DelegationId} {message : MessageId}

theorem Distinct.eq {ds : List Delegation} (distinct : Distinct ds) {d d' : Delegation} (inside : d ∈ ds)
    (inside' : d' ∈ ds) (same : d.delegationId = d'.delegationId) : d = d' :=
  inj_on_of_nodup_map distinct inside inside' same

theorem distinct_mergeDelegations (existing incoming : List Delegation) :
    Distinct (mergeDelegations existing incoming) :=
  Keyed.nodup_putAll Keyed.key_replace (Keyed.nodup_putAll Keyed.key_replace nodup_nil)

theorem mem_mergeDelegations_new {existing incoming : List Delegation} (distinct : Distinct incoming)
    {d : Delegation} (inside : d ∈ incoming) : d ∈ mergeDelegations existing incoming :=
  Keyed.mem_putAll_self distinct inside

theorem mem_mergeDelegations_old {existing incoming : List Delegation} (distinct : Distinct existing)
    {d : Delegation} (inside : d ∈ existing) (others : ∀ d' ∈ incoming, d.delegationId ≠ d'.delegationId) :
    d ∈ mergeDelegations existing incoming :=
  Keyed.mem_putAll_of_ne (Keyed.mem_putAll_self distinct inside) others

theorem distinct_recordOf {m : Metadata} (distinct : ∀ e ∈ log, Distinct e.payload.delegations)
    (found : recordOf log run = some m) : Distinct m.delegations := by
  induction log using reverseRecOn generalizing m with
  | nil => cases found
  | append_singleton log event ih =>
    have earlier := fun e inside => distinct e (mem_append_left [event] inside)
    rw [recordOf_append] at found
    split at found
    · cases found
      cases before : recordOf log run with
      | none => exact distinct event (by simp)
      | some m =>
        unfold absorb
        dsimp only
        split
        · exact ih earlier before
        · exact distinct_mergeDelegations _ _
    · exact ih earlier found

theorem vacant_recordOf {m : Metadata} (vacant : ∀ e ∈ log, Vacant e.payload.delegations)
    (found : recordOf log run = some m) : Vacant m.delegations := by
  intro d inside
  obtain ⟨e, within, -, listed⟩ := mem_delegations_recordOf found inside
  exact vacant e within d listed

/-- A recorded reply survives an event that lists its delegation with the reply or not at all. -/
theorem AnsweredBy.append (answered : AnsweredBy log run id message)
    (distinct : ∀ e ∈ log, Distinct e.payload.delegations) (own : Distinct event.payload.delegations)
    (agrees : event.run = run → ∀ d ∈ event.payload.delegations, d.delegationId = id →
      d.replyMessageId = some message) :
    AnsweredBy (log ++ [event]) run id message := by
  obtain ⟨m, found, d, inside, same, replied⟩ := answered
  unfold AnsweredBy
  rw [recordOf_append]
  split
  · rename_i here
    refine ⟨_, rfl, ?_⟩
    rw [found, absorb]
    split
    · exact ⟨d, inside, same, replied⟩
    by_cases listed : ∃ d' ∈ event.payload.delegations, d'.delegationId = id
    · obtain ⟨d', inside', same'⟩ := listed
      exact ⟨d', mem_mergeDelegations_new own inside', same', agrees here d' inside' same'⟩
    · refine ⟨d, mem_mergeDelegations_old (distinct_recordOf distinct found) inside ?_, same, replied⟩
      exact fun d' inside' eq => listed ⟨d', inside', eq.symm.trans same⟩
  · exact ⟨m, found, d, inside, same, replied⟩

theorem answeredBy_of_append (answered : AnsweredBy (log ++ [event]) run id message) :
    AnsweredBy log run id message ∨ event.run = run ∧
      ∃ d ∈ event.payload.delegations, d.delegationId = id ∧ d.replyMessageId = some message := by
  obtain ⟨m, found, d, inside, same, replied⟩ := answered
  rw [recordOf_append] at found
  split at found
  · rename_i here
    cases found
    cases before : recordOf log run with
    | none =>
      rw [before] at inside
      exact .inr ⟨here, d, inside, same, replied⟩
    | some m =>
      rw [before, absorb] at inside
      split at inside
      · exact .inl ⟨m, before, d, inside, same, replied⟩
      rcases mem_mergeDelegations inside with old | new
      · exact .inl ⟨m, before, d, old, same, replied⟩
      · exact .inr ⟨here, d, new, same, replied⟩
  · exact .inl ⟨m, found, d, inside, same, replied⟩

end Entries

/-! ## What a turn writes of delegations -/

/-- What the loop has gathered: what the turn knew, and entries without a reply for new
delegations, none of which is one of `ids`. -/
def Turn.Gathers (t : Turn) (accumulated : List Delegation) (ids : List DelegationId) : Prop :=
  ∃ sent, accumulated = t.delegations ++ sent ∧
    (∀ d ∈ sent, d.replyMessageId = none ∧ d.delegationId ∉ t.knownIds) ∧
    (sent.map Delegation.delegationId ++ ids).Nodup

/-- Where the turn's line is, it writes no delegation it should not. -/
def Turn.Placed (w : World) (t : Turn) : Prop :=
  match t.phase with
  | .replying id =>
    (∃ d ∈ t.delegations, d.delegationId = id ∧ d.isOpen = true) ∧
      (∃ m, recordOf w.log t.run = some m ∧ m.isTerminal = false) ∧ t.tools = false ∧ t.sends = [] ∧
      w.repliesRecorded t.message.id = 0
  | .recording content _ _ => ∀ id, content ≠ .replyRecorded id
  | .delegating items accumulated => t.Gathers accumulated (items.map DelegateItem.delegationId)
  | .delegation item _ rest accumulated _ =>
    t.Gathers accumulated ((item :: rest).map DelegateItem.delegationId) ∧ item.delegationId ∉ t.knownIds
  | _ => True

/-- The turn knows of every recorded reply of its run. -/
structure Turn.Faithful (w : World) (t : Turn) : Prop where
  distinct : Distinct t.delegations
  vacant : Vacant t.delegations
  answered : ∀ id message, AnsweredBy w.log t.run id message →
    ∃ d ∈ t.delegations, d.delegationId = id ∧ d.replyMessageId = some message

structure Recorded (w : World) : Prop where
  distinct : ∀ e ∈ w.log, Distinct e.payload.delegations
  vacant : ∀ e ∈ w.log, Vacant e.payload.delegations
  kept : ∀ e ∈ w.log, ∀ id, e.content = .replyRecorded id → AnsweredBy w.log e.run id e.author
  once : ∀ message, w.repliesRecorded message ≤ 1
  placed : ∀ t, w.turn = some t → t.Placed w
  turn : ∀ t, w.turn = some t → t.Faithful w ∨ t.Bystander

/-! ## Where the line goes -/

section Line

variable {c : FlowConfig} {w w' : World} {t t' : Turn} {event : TaskEvent}
variable {accumulated : List Delegation} {ids : List DelegationId} {d : Delegation}

theorem Turn.Gathers.none_ (t : Turn) (distinct : ids.Nodup) :
    t.Gathers t.delegations ids :=
  ⟨[], (append_nil _).symm, by simp, by simpa using distinct⟩

theorem Turn.Gathers.tail {id : DelegationId} (gathers : t.Gathers accumulated (id :: ids)) :
    t.Gathers accumulated ids := by
  obtain ⟨sent, shape, fresh, distinct⟩ := gathers
  refine ⟨sent, shape, fresh, distinct.sublist ?_⟩
  exact (List.Sublist.refl _).append (sublist_cons_self id ids)

/-- The next entry joins what was gathered. -/
theorem Turn.Gathers.sent (gathers : t.Gathers accumulated (d.delegationId :: ids))
    (silent : d.replyMessageId = none)
    (new : d.delegationId ∉ t.knownIds) : t.Gathers (accumulated ++ [d]) ids := by
  obtain ⟨sent, rfl, fresh, distinct⟩ := gathers
  refine ⟨sent ++ [d], append_assoc .., ?_, by simpa using distinct⟩
  intro d' inside
  rcases mem_concat inside with old | rfl
  · exact fresh d' old
  · exact ⟨silent, new⟩

theorem Turn.Gathers.same (gathers : t.Gathers accumulated ids) (known : t'.delegations = t.delegations) :
    t'.Gathers accumulated ids := by
  unfold Turn.Gathers knownIds at gathers ⊢
  rw [known]
  exact gathers

theorem Turn.Line.placed (line : t.Line c t') (placed : t.Placed w) : t'.Placed w := by
  unfold Turn.Placed at placed
  cases line with
  | record rounds batch safe plain other => exact other
  | delegate items flow apart => exact (Turn.Gathers.none_ t apart).same rfl
  | next item rest accumulated at_ =>
    rw [at_] at placed
    exact (Turn.Gathers.tail placed).same rfl
  | reserve item target rest accumulated at_ unknown =>
    rw [at_] at placed
    refine ⟨placed.same rfl, fun known => ?_⟩
    obtain ⟨d, inside, same⟩ := mem_map.1 known
    exact unknown d inside same
  | _ => trivial

theorem post_placed {key : SideEffectKey} {text : String} (placed : t.Placed w)
    (pending : t.pendingPost c = some (key, text)) (outcome : PostOutcome) : (t.afterPost outcome).Placed w := by
  unfold pendingPost at pending
  unfold Turn.Placed at placed
  split at pending
  next at_ => cases outcome <;> simp [afterPost, at_, mark, Turn.Placed]
  next item target rest accumulated at_ =>
    rw [at_] at placed
    cases outcome with
    | posted messageId =>
      have shape : t.afterPost (.posted messageId) =
          { t with phase := .delegation item target rest accumulated (.confirm messageId) } := by
        simp [afterPost, at_]
      rw [shape]
      exact ⟨placed.1.same rfl, placed.2⟩
    | raised landed => simp [afterPost, at_, mark, Turn.Placed]
  next => cases pending

/-- What an event of the line lists: the delegations with the reply, what was gathered with
one entry more, or nothing. -/
inductive Lists (t : Turn) (event : TaskEvent) : Prop
  | reply (id : DelegationId) (at_ : t.phase = .replying id) (content : event.content = .replyRecorded id)
      (entries : event.payload.delegations = t.repliedDelegations id)
  | entry (item : DelegateItem) (target : Participant) (rest : List DelegateItem) (accumulated : List Delegation)
      (leg : Leg) (d : Delegation) (at_ : t.phase = .delegation item target rest accumulated leg)
      (content : ∀ id, event.content ≠ .replyRecorded id)
      (entries : event.payload.delegations = accumulated ++ [d]) (named : d.delegationId = item.delegationId)
      (silent : d.replyMessageId = none)
  | nothing (other : ∀ id, t.phase ≠ .replying id) (content : ∀ id, event.content ≠ .replyRecorded id)
      (entries : event.payload.delegations = [])

theorem pending_lists (placed : t.Placed w) (plain : t.RecordsPlain) (pending : t.pending = some event) :
    Lists t event := by
  unfold Turn.pending at pending
  split at pending
  next id at_ => cases pending; exact .reply id at_ rfl rfl
  next content payload safe at_ =>
    cases pending
    unfold Turn.Placed at placed
    rw [at_] at placed
    exact .nothing (by simp [at_]) placed (plain _ _ _ at_).delegations
  next at_ => cases pending; exact .nothing (by simp [at_]) (fun _ => Content.noConfusion) rfl
  next at_ => cases pending; exact .nothing (by simp [at_]) (fun _ => Content.noConfusion) rfl
  next at_ => cases pending; exact .entry _ _ _ _ _ _ at_ (fun _ => Content.noConfusion) rfl rfl rfl
  next at_ => cases pending; exact .entry _ _ _ _ _ _ at_ (fun _ => Content.noConfusion) rfl rfl rfl
  next at_ => cases pending; exact .nothing (by simp [at_]) (fun _ => Content.noConfusion) rfl
  next => cases pending

/-- What was gathered lists a delegation once, and a replied one with its reply. -/
theorem Turn.Gathers.entries (gathers : t.Gathers accumulated (d.delegationId :: ids))
    (distinct : Distinct t.delegations)
    (new : d.delegationId ∉ t.knownIds) : Distinct (accumulated ++ [d]) := by
  obtain ⟨sent, rfl, fresh, nodup⟩ := gathers
  unfold Distinct
  rw [append_assoc, map_append, nodup_append]
  refine ⟨distinct, ?_, ?_⟩
  · rw [map_append, map_singleton]
    exact nodup.sublist ((List.Sublist.refl _).append (singleton_sublist.2 mem_cons_self))
  · intro a known b added same
    subst same
    obtain ⟨d', inside, rfl⟩ := mem_map.1 added
    rcases mem_concat inside with old | rfl
    · exact (fresh d' old).2 known
    · exact new known

/-- The events of a turn that knows what was recorded list no delegation twice, none that is open
with a reply, and every replied one with its reply. -/
structure Sound (w : World) (t : Turn) (ds : List Delegation) : Prop where
  distinct : Distinct ds
  vacant : Vacant ds
  agrees : ∀ id message, AnsweredBy w.log t.run id message → ∀ d ∈ ds, d.delegationId = id →
    d.replyMessageId = some message

theorem sound_nil : Sound w t [] :=
  ⟨nodup_nil, by simp [Vacant], by simp⟩

/-- An entry of the turn's own list with a recorded reply is the one that has it. -/
theorem Turn.Faithful.reply (faithful : t.Faithful w) {id : DelegationId} {message : MessageId}
    (answered : AnsweredBy w.log t.run id message) (inside : d ∈ t.delegations)
    (same : d.delegationId = id) : d.replyMessageId = some message := by
  obtain ⟨d', inside', same', replied⟩ := faithful.answered id message answered
  rw [faithful.distinct.eq inside inside' (same.trans same'.symm)]
  exact replied

theorem sound_entry {item : DelegateItem} {rest : List DelegateItem} (faithful : t.Faithful w)
    (gathers : t.Gathers accumulated ((item :: rest).map DelegateItem.delegationId))
    (new : item.delegationId ∉ t.knownIds) (named : d.delegationId = item.delegationId)
    (silent : d.replyMessageId = none) : Sound w t (accumulated ++ [d]) := by
  rw [map_cons, ← named] at gathers
  rw [← named] at new
  refine ⟨gathers.entries faithful.distinct new, ?_, ?_⟩
  · obtain ⟨sent, rfl, fresh, -⟩ := gathers
    intro d' inside opened
    rcases mem_concat inside with earlier | rfl
    · rcases mem_append.1 earlier with known | added
      · exact faithful.vacant d' known opened
      · exact (fresh d' added).1
    · exact silent
  · intro id message answered d' inside same
    obtain ⟨sent, rfl, fresh, -⟩ := gathers
    have listed : id ∈ t.knownIds := by
      obtain ⟨d'', inside'', same'', -⟩ := faithful.answered id message answered
      exact mem_map.2 ⟨d'', inside'', same''⟩
    rcases mem_concat inside with earlier | rfl
    · rcases mem_append.1 earlier with known | added
      · exact faithful.reply answered known same
      · exact absurd (same ▸ listed) (fresh d' added).2
    · exact absurd (same ▸ listed) new

theorem mem_repliedDelegations {id : DelegationId} (inside : d ∈ t.repliedDelegations id) :
    ∃ d₀ ∈ t.delegations, d₀.delegationId = d.delegationId ∧
      (d₀.delegationId = id ∧ d.status = .replied ∧ d.replyMessageId = some t.message.id ∨
        d₀.delegationId ≠ id ∧ d = d₀) := by
  obtain ⟨d₀, listed, rfl⟩ := mem_map.1 inside
  refine ⟨d₀, listed, ?_⟩
  by_cases here : d₀.delegationId = id
  · simp [here]
  · simp [here]

theorem map_id_repliedDelegations (id : DelegationId) :
    (t.repliedDelegations id).map Delegation.delegationId = t.delegations.map Delegation.delegationId := by
  have whole := congrArg (List.map Prod.fst) (repliedDelegations_ids t id)
  simpa [map_map, Function.comp_def, Delegation.ids] using whole

theorem sound_reply {id : DelegationId} (faithful : t.Faithful w)
    (opened : ∃ d ∈ t.delegations, d.delegationId = id ∧ d.isOpen = true) :
    Sound w t (t.repliedDelegations id) := by
  refine ⟨?_, ?_, ?_⟩
  · rw [Distinct, map_id_repliedDelegations]
    exact faithful.distinct
  · intro d inside open_
    obtain ⟨d₀, listed, -, ⟨-, status, -⟩ | ⟨-, rfl⟩⟩ := mem_repliedDelegations inside
    · simp [Delegation.isOpen, status] at open_
    · exact faithful.vacant d listed open_
  · intro id' message answered d inside same
    obtain ⟨d₀, listed, named, ⟨here, -, -⟩ | ⟨-, rfl⟩⟩ := mem_repliedDelegations inside
    · -- the matched delegation is open, so nothing is recorded for it yet
      obtain ⟨d', inside', same', open'⟩ := opened
      have replied := faithful.reply answered inside' (same'.trans (here.symm.trans (named.trans same)))
      rw [faithful.vacant d' inside' open'] at replied
      cases replied
    · exact faithful.reply answered listed same

/-- A turn that writes knows what was recorded, or writes no delegation. -/
theorem pending_sound (inv : Recorded w) (plain : t.RecordsPlain) (busy : w.turn = some t)
    (pending : t.pending = some event) : Sound w t event.payload.delegations := by
  have placed := inv.placed t busy
  have writing : t.Bystander → t.phase.isRecording = true := by
    rintro ⟨-, recording | ⟨raised, ended⟩⟩
    · exact recording
    unfold Turn.pending at pending
    rw [ended] at pending
    cases pending
  cases pending_lists placed plain pending with
  | reply id at_ content entries =>
    rw [entries]
    unfold Turn.Placed at placed
    rw [at_] at placed
    rcases inv.turn t busy with faithful | bystander
    · exact sound_reply faithful placed.1
    have recording := writing bystander
    rw [at_] at recording
    cases recording
  | entry item target rest accumulated leg d at_ content entries named silent =>
    rw [entries]
    unfold Turn.Placed at placed
    rw [at_] at placed
    rcases inv.turn t busy with faithful | bystander
    · exact sound_entry faithful placed.1 placed.2 named silent
    have recording := writing bystander
    rw [at_] at recording
    cases recording
  | nothing other content entries =>
    rw [entries]
    exact sound_nil

end Line

/-! ## One step of a room -/

section Steps

variable {c : FlowConfig} {w w' : World} {t t' : Turn} {event : TaskEvent}

theorem Turn.Faithful.same (faithful : t.Faithful w) (log : w'.log = w.log) (run : t'.run = t.run)
    (record : t'.record = t.record) : t'.Faithful w' := by
  have known : t'.delegations = t.delegations := by rw [delegations, delegations, record]
  refine ⟨known ▸ faithful.distinct, known ▸ faithful.vacant, ?_⟩
  rw [log, run, known]
  exact faithful.answered

/-- What the turn knows is still all there is, if the event adds nothing to it. -/
theorem faithful_append (log : w'.log = w.log ++ [event]) (run : t'.run = t.run)
    (distinct : Distinct t'.delegations) (vacant : Vacant t'.delegations)
    (kept : ∀ id message, AnsweredBy w.log t.run id message →
      ∃ d ∈ t'.delegations, d.delegationId = id ∧ d.replyMessageId = some message)
    (adds : ∀ d ∈ event.payload.delegations, ∀ message, d.replyMessageId = some message →
      ∃ d' ∈ t'.delegations, d'.delegationId = d.delegationId ∧ d'.replyMessageId = some message) :
    t'.Faithful w' := by
  refine ⟨distinct, vacant, fun id message answered => ?_⟩
  rw [log, run] at answered
  rcases answeredBy_of_append answered with old | ⟨-, d, inside, rfl, replied⟩
  · exact kept id message old
  · exact adds d inside message replied

/-- Off the reply, a place does not depend on the log. -/
theorem Turn.Placed.other (placed : t.Placed w) (settled : ∀ id, t.phase ≠ .replying id)
    (phase : t'.phase = t.phase) (known : t'.delegations = t.delegations) : t'.Placed w' := by
  have ids : t'.knownIds = t.knownIds := by rw [knownIds, knownIds, known]
  unfold Turn.Placed at placed ⊢
  rw [phase, ids]
  cases at_ : t.phase with
  | replying id => exact absurd at_ (settled id)
  | recording content payload safe =>
    rw [at_] at placed
    exact placed
  | delegating items accumulated =>
    rw [at_] at placed
    exact Turn.Gathers.same placed known
  | delegation item target rest accumulated leg =>
    rw [at_] at placed
    exact ⟨placed.1.same known, placed.2⟩
  | _ => trivial

theorem Turn.Placed.log (placed : t.Placed w) (log : w'.log = w.log) : t.Placed w' := by
  unfold Turn.Placed World.repliesRecorded at placed ⊢
  rw [log]
  exact placed

theorem Recorded.quiet (inv : Recorded w) (log : w'.log = w.log) (placed : ∀ t, w'.turn = some t → t.Placed w')
    (turn : ∀ t, w'.turn = some t → t.Faithful w' ∨ t.Bystander) : Recorded w' := by
  constructor
  · rw [log]
    exact inv.distinct
  · rw [log]
    exact inv.vacant
  · rw [log]
    exact inv.kept
  · unfold World.repliesRecorded
    rw [log]
    exact inv.once
  · exact placed
  · exact turn

theorem isReplyOf_iff {message : MessageId} :
    event.isReplyOf message = true ↔ event.author = message ∧ ∃ id, event.content = .replyRecorded id := by
  unfold TaskEvent.isReplyOf
  rw [Bool.and_eq_true, decide_eq_true_eq]
  cases event.content <;> simp

theorem Recorded.append (inv : Recorded w) (distinct : Distinct event.payload.delegations)
    (vacant : Vacant event.payload.delegations)
    (agrees : ∀ id message, AnsweredBy w.log event.run id message → ∀ d ∈ event.payload.delegations,
      d.delegationId = id → d.replyMessageId = some message)
    (own : ∀ id, event.content = .replyRecorded id →
      AnsweredBy (w.log ++ [event]) event.run id event.author ∧ w.repliesRecorded event.author = 0)
    (log : w'.log = w.log ++ [event]) (placed : ∀ t, w'.turn = some t → t.Placed w')
    (turn : ∀ t, w'.turn = some t → t.Faithful w' ∨ t.Bystander) : Recorded w' := by
  constructor
  · rw [log]
    intro e inside
    rcases mem_concat inside with old | new
    · exact inv.distinct e old
    · exact new ▸ distinct
  · rw [log]
    intro e inside
    rcases mem_concat inside with old | new
    · exact inv.vacant e old
    · exact new ▸ vacant
  · rw [log]
    intro e inside id content
    rcases mem_concat inside with old | rfl
    · refine (inv.kept e old id content).append inv.distinct distinct fun here => ?_
      exact agrees id e.author (here ▸ inv.kept e old id content)
    · exact (own id content).1
  · intro message
    unfold World.repliesRecorded
    rw [log, countP_append, countP_singleton]
    split
    · rename_i reply
      obtain ⟨rfl, id, content⟩ := isReplyOf_iff.1 reply
      have none_ := (own id content).2
      unfold World.repliesRecorded at none_
      omega
    · exact inv.once message
  · exact placed
  · exact turn

theorem answered_reply {id : DelegationId} (inv : Recorded w) (busy : w.turn = some t)
    (at_ : t.phase = .replying id) (own : event.run = t.run)
    (entries : event.payload.delegations = t.repliedDelegations id) (distinct : Distinct event.payload.delegations) :
    AnsweredBy (w.log ++ [event]) event.run id t.message.id := by
  have placed := inv.placed t busy
  unfold Turn.Placed at placed
  rw [at_] at placed
  obtain ⟨⟨d, inside, same, -⟩, ⟨m, found, active⟩, -⟩ := placed
  refine ⟨merge m event.payload, ?_, { d with status := .replied, replyMessageId := some t.message.id }, ?_, same, rfl⟩
  · rw [recordOf_append, if_pos rfl, own, found, absorb, active]
    rfl
  · refine mem_mergeDelegations_new distinct ?_
    rw [entries]
    refine mem_map.2 ⟨d, inside, ?_⟩
    rw [if_pos same]

theorem Turn.Written.placed {ok : Bool} (line : t.Written ok t') (placed : t.Placed w) : t'.Placed w' := by
  unfold Turn.Placed at placed
  cases line with
  | delegation at_ =>
    rw [at_] at placed
    exact ⟨placed.1.same rfl, placed.2⟩
  | @next item target rest accumulated messageId at_ =>
    rw [at_] at placed
    have entry : t.Gathers (accumulated ++ [delegationEntry item target .pending messageId])
        (rest.map DelegateItem.delegationId) := placed.1.sent rfl placed.2
    exact entry.same rfl
  | _ => trivial

theorem written_other {ok : Bool} (line : t.Written ok t') (other : ok = true → ∀ id, t.phase ≠ .replying id) :
    t'.run = t.run ∧ t'.record = t.record := by
  cases line with
  | reply at_ => exact absurd at_ (other rfl _)
  | _ => exact ⟨rfl, rfl⟩

/-- The recorded reply is in what the turn knows from then on. -/
theorem afterWrite_reply {id : DelegationId} (at_ : t.phase = .replying id) (some_ : t.delegations ≠ []) :
    (t.afterWrite true).run = t.run ∧ (t.afterWrite true).delegations = t.repliedDelegations id := by
  refine ⟨by simp [afterWrite, at_], ?_⟩
  cases record : t.record with
  | none => exact absurd (by simp [delegations, record]) some_
  | some m => simp [delegations, afterWrite, at_, record]

theorem faithful_write (inv : Recorded w) (plain : t.RecordsPlain) (busy : w.turn = some t)
    (faithful : t.Faithful w) (pending : t.pending = some event) (log : w'.log = w.log ++ [event]) :
    (t.afterWrite true).Faithful w' := by
  have placed := inv.placed t busy
  -- off the reply the turn knows what it knew, and has to know of all the event lists
  have others (settled : ∀ id, t.phase ≠ .replying id)
      (adds : ∀ d ∈ event.payload.delegations, ∀ message, d.replyMessageId = some message → d ∈ t.delegations) :
      (t.afterWrite true).Faithful w' := by
    have moved := written_other (written pending true) fun _ => settled
    have known : (t.afterWrite true).delegations = t.delegations := by
      rw [delegations, delegations, moved.2]
    refine faithful_append log moved.1 (known ▸ faithful.distinct) (known ▸ faithful.vacant)
      (known ▸ faithful.answered) fun d inside message replied => ?_
    rw [known]
    exact ⟨d, adds d inside message replied, rfl, replied⟩
  cases pending_lists placed plain pending with
  | reply id at_ content entries =>
    have sound := pending_sound inv plain busy pending
    rw [entries] at sound
    unfold Turn.Placed at placed
    rw [at_] at placed
    obtain ⟨⟨d₀, listed, -⟩, -⟩ := placed
    obtain ⟨run, known⟩ := afterWrite_reply at_ (ne_nil_of_mem listed)
    refine faithful_append log run (known ▸ sound.distinct) (known ▸ sound.vacant) ?_ ?_
    · intro id' message answered
      obtain ⟨d, inside, same, -⟩ := faithful.answered id' message answered
      have ids : id' ∈ (t.repliedDelegations id).map Delegation.delegationId := by
        rw [map_id_repliedDelegations]
        exact mem_map.2 ⟨d, inside, same⟩
      obtain ⟨d', inside', same'⟩ := mem_map.1 ids
      rw [known]
      exact ⟨d', inside', same', sound.agrees id' message answered d' inside' same'⟩
    · intro d inside message replied
      rw [entries] at inside
      rw [known]
      exact ⟨d, inside, rfl, replied⟩
  | entry item target rest accumulated leg d' at_ content entries named silent =>
    refine others (by simp [at_]) fun d inside message replied => ?_
    unfold Turn.Placed at placed
    rw [at_] at placed
    obtain ⟨sent, rfl, fresh, -⟩ := placed.1
    rw [entries] at inside
    rcases mem_concat inside with earlier | rfl
    · rcases mem_append.1 earlier with old | added
      · exact old
      · rw [(fresh d added).1] at replied
        cases replied
    · rw [silent] at replied
      cases replied
  | nothing other content entries =>
    refine others other fun d inside => ?_
    rw [entries] at inside
    cases inside

theorem Recorded.write {ok : Bool} (inv : Recorded w) (plain : t.RecordsPlain) (busy : w.turn = some t)
    (pending : t.pending = some event) :
    Recorded { w with
      log := if ok then w.log ++ [event] else w.log, turn := some (t.afterWrite ok) } := by
  have placed := inv.placed t busy
  obtain ⟨run, author⟩ := pending_event pending
  have moved (w' : World) : (t.afterWrite ok).Placed w' := (written pending ok).placed placed
  cases ok with
  | false =>
    refine inv.quiet rfl ?_ ?_
    · rintro _ ⟨⟩
      exact moved _
    · rintro _ ⟨⟩
      rcases inv.turn t busy with faithful | bystander
      · obtain ⟨run, record⟩ := written_other (written pending false) (by simp)
        exact .inl (faithful.same rfl run record)
      · exact .inr (bystander.write false)
  | true =>
    have sound := pending_sound inv plain busy pending
    refine inv.append sound.distinct sound.vacant (run ▸ sound.agrees) ?_ rfl ?_ ?_
    · intro id content
      cases pending_lists placed plain pending with
      | reply id' at_ content' entries =>
        obtain rfl : id' = id := by simpa [content'] using content
        rw [author]
        refine ⟨answered_reply inv busy at_ run entries sound.distinct, ?_⟩
        unfold Turn.Placed at placed
        rw [at_] at placed
        exact placed.2.2.2.2
      | entry item target rest accumulated leg d at_ other
      | nothing _ other => exact absurd content (other id)
    · rintro _ ⟨⟩
      exact moved _
    · rintro _ ⟨⟩
      rcases inv.turn t busy with faithful | bystander
      · exact .inl (faithful_write inv plain busy faithful pending rfl)
      · exact .inr (bystander.write true)

/-! ## A delivery -/

variable {m : Message}

/-- What a match says: the sender is one, no open run knows the message, and one open
delegation fits. -/
theorem matchReply_spec {refToken : RunId → DelegationId → String} {runs : Runs} {run : RunId}
    {id : DelegationId} {record : Metadata} (matched : matchReply refToken m runs = .delegation run id record) :
    ∃ sender d, m.sender = some sender ∧
      ((activeRuns runs).any fun pair => pair.2.delegations.any (·.knows m)) = false ∧
      fittingDelegations refToken m runs sender = [(run, d, record)] ∧ d.delegationId = id ∧
      d ∈ record.delegations ∧ d.isOpen = true := by
  unfold matchReply at matched
  split at matched
  · split at matched <;> cases matched
  rename_i sender here
  split at matched
  · cases matched
  rename_i unknown
  dsimp only at matched
  split at matched
  · rename_i run' d record' single
    cases matched
    have fitting : fittingDelegations refToken m runs sender = [(run, d, record)] := single
    have inside : (run, d, record) ∈ candidates runs sender := by
      have member : (run, d, record) ∈ fittingDelegations refToken m runs sender := by
        rw [fitting]
        exact mem_singleton_self _
      unfold fittingDelegations at member
      split at member
      · exact (mem_filter.1 member).1
      · exact member
    obtain ⟨pair, -, mapped⟩ := mem_flatMap.1 inside
    obtain ⟨d', listed, same⟩ := mem_map.1 mapped
    obtain ⟨listed, open_⟩ := mem_filter.1 listed
    cases same
    simp only [Bool.and_eq_true] at open_
    exact ⟨sender, d, here, by simpa using unknown, fitting, rfl, listed, open_.1.1⟩
  · unfold ambiguity at matched
    split at matched <;> cases matched

/-- Ageing a run leaves its delegations. -/
theorem mem_convert {aged : RunId → Bool} {log : List TaskEvent} {run : RunId} {m : Metadata}
    (found : recordOf log run = some m) : ∃ m', (run, m') ∈ convert aged log ∧ m'.delegations = m.delegations := by
  have inside : (run, m) ∈ log.foldl foldEvent [] := mem_of_get found
  refine ⟨(ageOut aged (run, m)).2, mem_map.2 ⟨(run, m), inside, ?_⟩, ?_⟩
  · exact Prod.ext (ageOut_fst aged (run, m)) rfl
  · unfold ageOut
    split <;> rfl

theorem unrecorded_of_matched {view : RoomView} {aged : RunId → Bool} {run : RunId}
    {id : DelegationId} {record : Metadata} (inv : Recorded w)
    (handled : w.handled c (.deliver m view true aged) = true)
    (active : (convert aged w.log).isTerminal m.id = false)
    (matched : matchReply c.refToken m (convert aged w.log) = .delegation run id record) :
    w.repliesRecorded m.id = 0 := by
  obtain ⟨sender, d, here, unknown, fitting, -⟩ := matchReply_spec matched
  by_contra some_
  obtain ⟨e, inside, reply⟩ := countP_pos_iff.1 (Nat.pos_of_ne_zero some_)
  obtain ⟨author, id', content⟩ := isReplyOf_iff.1 reply
  obtain ⟨r, found, d', listed, -, replied⟩ := inv.kept e inside id' content
  obtain ⟨r', member, same⟩ : ∃ m', (e.run, m') ∈ convert aged w.log ∧ m'.delegations = r.delegations :=
    mem_convert found
  have recorded : ((convert aged w.log).any fun pair =>
      pair.2.delegations.any (·.replyMessageId = some m.id)) = true := by
    refine any_eq_true.2 ⟨(e.run, r'), member, any_eq_true.2 ⟨d', same ▸ listed, ?_⟩⟩
    rw [replied, author]
    exact decide_eq_true rfl
  simp [World.handled, recorded, active, unknown, here, fitting] at handled

theorem deliver_placed {view : RoomView} {loaded : Bool} {aged : RunId → Bool} (inv : Recorded w)
    (handled : w.handled c (.deliver m view loaded aged) = true)
    (stepped : w.deliver c m view loaded aged = some w') (busy : w'.turn = some t) : t.Placed w := by
  unfold World.deliver at stepped
  split at stepped
  · cases stepped
  rename_i idle
  split at stepped
  · rename_i read
    subst read
    cases stepped
    unfold World.route at busy
    split at busy
    · exact absurd (busy.symm.trans idle) (by simp)
    rename_i active
    rw [Bool.not_eq_true] at active
    split at busy
    · split at busy
      · cases busy
        exact fun _ => Content.noConfusion
      · exact absurd (busy.symm.trans idle) (by simp)
    · rename_i run id other matched
      cases busy
      obtain ⟨inside, open_⟩ := matchReply_active matched
      obtain ⟨sender, d, -, -, -, same, listed, opened⟩ := matchReply_spec matched
      exact ⟨⟨d, listed, same, opened⟩, ⟨other, recordOf_of_mem inside open_, open_⟩, rfl, rfl,
        unrecorded_of_matched inv handled active matched⟩
    · split at busy
      · exact absurd (busy.symm.trans idle) (by simp)
      · cases busy
        trivial
  · cases stepped
    cases busy
    exact fun _ => Content.noConfusion

/-- A turn that loaded the log knows what was recorded there. -/
theorem fresh_faithful (inv : Recorded w) (fresh : Fresh w t) : t.Faithful w ∨ t.Bystander := by
  rcases fresh.start with ⟨tools, content, payload, safe, phase, -⟩ | ⟨record, -, -⟩
  · exact .inr ⟨tools, .inl (by rw [phase]; rfl)⟩
  left
  cases found : recordOf w.log t.run with
  | none =>
    have known : t.delegations = [] := by simp [delegations, record, found]
    refine ⟨known ▸ nodup_nil, by simp [Vacant, known], ?_⟩
    rintro id message ⟨m, here, -⟩
    rw [found] at here
    cases here
  | some m =>
    have known : t.delegations = m.delegations := by simp [delegations, record, found]
    refine ⟨known ▸ distinct_recordOf inv.distinct found, known ▸ vacant_recordOf inv.vacant found, ?_⟩
    rintro id message ⟨m', here, d, inside, facts⟩
    rw [found, Option.some.injEq] at here
    subst here
    exact ⟨d, known ▸ inside, facts⟩

/-! ## Every step -/

/-- A tool that moves leaves the turn's line where it is. -/
theorem aside_placed {i : Nat} {send : Send} {phase : SendPhase} (placed : t.Placed w)
    (found : t.sends[i]? = some send) : (t.setSend i send phase).Placed w' := by
  refine placed.other ?_ rfl rfl
  intro id at_
  unfold Turn.Placed at placed
  rw [at_] at placed
  rw [placed.2.2.2.1] at found
  cases found

theorem aside_turn (inv : Recorded w) (busy : w.turn = some t) (log : w'.log = w.log)
    (aside : Turn.Aside t t') : t'.Faithful w' ∨ t'.Bystander :=
  (inv.turn t busy).imp (·.same log aside.run aside.record) (·.aside aside)

theorem Recorded.step {event : World.RoomEvent} (inv : Recorded w) (formed : WellFormed w)
    (handled : w.handled c event = true) (stepped : w.step c event = some w') : Recorded w' := by
  cases step_act stepped with
  | pass m idle => exact inv.quiet rfl (fun t busy => by cases busy.symm.trans idle) fun t busy => by cases busy.symm.trans idle
  | begin t idle fresh own =>
    refine inv.quiet rfl ?_ ?_
    · intro t' busy
      exact (deliver_placed inv handled stepped busy).log rfl
    · rintro _ ⟨⟩
      exact (fresh_faithful inv fresh).imp (·.same rfl rfl rfl) id
  | line t t' busy inner =>
    refine inv.quiet rfl ?_ ?_
    · rintro _ ⟨⟩
      exact ((line_cases inner).placed (inv.placed t busy)).log rfl
    · rintro _ ⟨⟩
      rcases inv.turn t busy with faithful | bystander
      · have moved := (line_cases inner).moved
        exact .inl (faithful.same rfl moved.run moved.record)
      · exact (bystander.no_line inner).elim
  | write t event ok busy pending => exact inv.write (formed.turn t busy) busy pending
  | post t key text outcome busy pending =>
    refine inv.quiet rfl ?_ ?_
    · rintro _ ⟨⟩
      exact (post_placed (inv.placed t busy) pending outcome).log rfl
    · rintro _ ⟨⟩
      rcases inv.turn t busy with faithful | bystander
      · have moved := afterPost_moved (t := t) outcome
        exact .inl (faithful.same rfl moved.run moved.record)
      · cases pending.symm.trans (bystander.idle (c := c)).2.2.2
  | callSend t t' text busy inner =>
    have aside := callSend_aside inner
    refine inv.quiet rfl ?_ ?_
    · rintro _ ⟨⟩
      refine (inv.placed t busy).other ?_ aside.phase (by rw [delegations, delegations, aside.record])
      intro id at_
      have placed := inv.placed t busy
      unfold Turn.Placed at placed
      rw [at_] at placed
      unfold callSend takesTools at inner
      simp [at_, placed.2.2.1] at inner
    · rintro _ ⟨⟩
      exact aside_turn inv busy rfl aside
  | writeSend t i send event ok busy found pending =>
    obtain ⟨run, -, none_⟩ := sendPending_event pending
    have aside := setSend_aside (t := t) i send (sendAfterWrite send.phase ok)
    cases ok with
    | false =>
      refine inv.quiet rfl ?_ ?_
      · rintro _ ⟨⟩
        exact aside_placed (inv.placed t busy) found
      · rintro _ ⟨⟩
        exact aside_turn inv busy rfl aside
    | true =>
      refine inv.append ?_ ?_ ?_ ?_ rfl ?_ ?_
      · rw [none_]
        exact nodup_nil
      · simp [Vacant, none_]
      · simp [none_]
      · intro id content
        unfold sendPending at pending
        split at pending <;> cases pending <;> cases content
      · rintro _ ⟨⟩
        exact aside_placed (inv.placed t busy) found
      · rintro _ ⟨⟩
        rcases inv.turn t busy with faithful | bystander
        · left
          exact faithful_append rfl rfl faithful.distinct faithful.vacant faithful.answered (by simp [none_])
        · exact .inr (bystander.aside aside)
  | postSend t i send outcome busy found posting | dropSend t i send busy found running =>
    refine inv.quiet rfl ?_ ?_
    · rintro _ ⟨⟩
      exact aside_placed (inv.placed t busy) found
    · rintro _ ⟨⟩
      exact aside_turn inv busy rfl (setSend_aside i send _)
  | ends t normal busy => exact inv.quiet rfl (by rintro _ ⟨⟩) (by rintro _ ⟨⟩)

end Steps

theorem recorded_of_reachable {c : FlowConfig} {w : World}
    (reached : ((room c).restrict (World.handled c)).Reachable w) : Recorded w := by
  refine reached.invariant_reachable ?_ fun w event w' before inv stepped => ?_
  · rintro w rfl
    refine ⟨by simp, by simp, by simp, by simp [World.repliesRecorded], ?_, ?_⟩ <;> rintro _ ⟨⟩
  · obtain ⟨handled, stepped⟩ := Machine.restrict_step stepped
    exact inv.step (wellFormed_of_reachable before.of_restrict) handled stepped

/-- **Replies and redeliveries.**  In every state a match is the one open delegation to the
sender or the one the message's token selects, and a redelivery is handled as one exactly in
the states of `DeliveryHandled`.  In every run whose redelivered replies are handled, no
message is recorded as a reply twice. -/
theorem replies_recorded_once {c : FlowConfig} {w : World}
    (reached : ((room c).restrict (World.handled c)).Reachable w) :
    (∀ (matcher : Wire.Matcher) (state : Wire.SessionState) (m : Wire.PlatformMessage)
        (participants : List Keys.CrewAIFlowParticipantSnapshot) (acceptAgentInitiated : Bool),
      Wire.DeliveryKept matcher state m participants acceptAgentInitiated ↔
        Wire.DeliveryHandled matcher state m participants acceptAgentInitiated) ∧
    ∀ message, w.repliesRecorded message ≤ 1 :=
  ⟨fun _ _ _ _ _ => Wire.redelivery_iff, (recorded_of_reachable reached).once⟩

/-- A peer's reply is delivered again while its run waits. -/
def repliedTwice : List World.RoomEvent :=
  [delivered request, .flowReturns ask, .proceed, .write true, .post (.posted (some 2)), .write true, .proceed,
    .close, delivered reply, .write true, .flowReturns .waiting, .write true, .close, delivered reply]

theorem replies_recorded_once_redelivered : ∃ w, ((room smallConfig).restrict (World.handled smallConfig)).Reachable w ∧
    w.ended.map Ended.message = [1, 9, 9] ∧ w.repliesRecorded 9 = 1 ∧ w.repliesRecorded 9 ≤ 1 := by
  have ran : (((room smallConfig).restrict (World.handled smallConfig)).run emptyRoom repliedTwice).map
      (fun w => (w.ended.map Ended.message, w.repliesRecorded 9)) = some ([1, 9, 9], 1) := by
    decide +kernel
  obtain ⟨w, path, facts⟩ := Option.map_eq_some_iff.1 ran
  have reached : ((room smallConfig).restrict (World.handled smallConfig)).Reachable w :=
    ⟨_, rfl, repliedTwice, path⟩
  obtain ⟨ended, count⟩ := Prod.mk.inj facts
  exact ⟨w, reached, ended, count, (replies_recorded_once reached).2 9⟩

/-- The user's next request, message 3. -/
def nextRequest : Message := ⟨3, some "user", false, none, []⟩

/-- The run of a reply ends, the next one asks the same peer, and the reply is delivered again. -/
def repliedInTwoRuns : List World.RoomEvent :=
  [delivered request, .flowReturns ask, .proceed, .write true, .post (.posted (some 2)), .write true, .proceed,
    .close, delivered reply, .write true, .flowReturns (.directResponse "done"), .proceed, .write true,
    .post (.posted (some 10)), .write true, .close,
    delivered nextRequest, .flowReturns ask, .proceed, .write true, .post (.posted (some 4)), .write true, .proceed,
    .close, delivered reply, .write true]

/-- A run with a delegation that message `m9` is the reply to. -/
def sampleReplied : Wire.CrewAIFlowMetadata where
  roomId := "room"
  runId := "m1"
  parentMessageId := "m1"
  status := .waiting
  stage := .waitingForReplies
  delegations := [{
    delegationId := "d", target := { participantId := "p-1", handle := some "peer-a", normalizedKey := "peer-a" },
    status := .replied, sideEffectKey := "m1:delegate:d", reservedEventId := none, delegationMessageId := some "m2",
    sentEventId := none, replyMessageId := some "m9" }]

/-- One message is recorded as the reply to two delegations; and a reply that a user wrote
starts a run of its own when it is delivered again. -/
theorem reply_recorded_twice :
    (∃ w, (room smallConfig).Reachable w ∧ w.repliesRecorded 9 = 2) ∧
    Wire.knownInActive [("m1", sampleReplied)] ⟨"m9", "here it is", "peer-a", "User"⟩ = true ∧
    Wire.route ⟨Keys.asciiCasing, fun _ => []⟩ [("m1", sampleReplied)] ⟨"m9", "here it is", "peer-a", "User"⟩
      [⟨"p-1".toList, some "peer-a".toList, "peer-a".toList⟩] false = .flow ∧
    Keyed.get "m9" [("m1", sampleReplied)] = none := by
  refine ⟨?_, by decide +kernel, by decide +kernel, by decide +kernel⟩
  have ran : ((room smallConfig).run emptyRoom repliedInTwoRuns).map (fun w => w.repliesRecorded 9) = some 2 := by
    decide +kernel
  obtain ⟨w, path, count⟩ := Option.map_eq_some_iff.1 ran
  exact ⟨w, ⟨_, rfl, repliedInTwoRuns, path⟩, count⟩

end BandSdk.CrewFlow

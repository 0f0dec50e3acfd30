/-
# CrewFlow.Synthesis -- when a synthesis becomes the final answer

A Flow that synthesises is held back by three gates: the join policy, the tagged
peers and the sequential chains.  Behind a closed gate its content is recorded as
buffered; behind open ones it is the final answer, with what was buffered before
in front of it.

The join gate of policy `all` counts pending delegations only, so a delegation
that is reserved, ambiguous, failed or indeterminate does not hold the answer
back, and a run without a record passes policy `first`.  `kept_iff` says exactly
when the gates do what they are for.  The buffered contents are a fact about the
log: those of the run, in the order of their events, one a message
(`buffers_of_record`).
-/
import BandSdk.CrewFlow.Loaded
import BandSdk.Theory.Folding

namespace BandSdk.CrewFlow

open BandSdk.Theory List Turn

/-! ## The gates, as they are meant -/

namespace Turn

variable (c : FlowConfig) (t : Turn)

def replied (key : PeerKey) : Prop :=
  ∃ d ∈ t.delegations, d.status = .replied ∧ d.target.normalizedKey = key

def delegated (key : PeerKey) : Prop := ∃ d ∈ t.delegations, d.target.normalizedKey = key

/-- The join policy of the run, or of the configuration where the run has no record. -/
def policy : JoinPolicy := (t.record.map Metadata.joinPolicy).getD c.joinPolicy

def taggedKeys : List PeerKey := (t.record.map Metadata.taggedPeerKeys).getD t.taggedPeerKeys

/-- Every delegation has a reply, or one has. -/
def JoinMet : Prop :=
  match t.policy c with
  | .all => ∀ d ∈ t.delegations, d.status = .replied
  | .first => ∃ d ∈ t.delegations, d.status = .replied

def TaggedMet : Prop := c.requireTaggedPeers = true → ∀ key ∈ t.taggedKeys, t.delegated key

def ChainsMet : Prop :=
  ∀ chain ∈ c.sequentialChains, ∀ upstream downstream, t.view.normalize chain.1 = some upstream →
    t.view.normalize chain.2 = some downstream → t.replied upstream → t.delegated downstream

structure GatesMet : Prop where
  join : t.JoinMet c
  tagged : t.TaggedMet c
  chains : t.ChainsMet c

/-- No configured name is one that two participants share. -/
def Resolves : Prop :=
  t.record = none ∨ ∀ chain ∈ c.sequentialChains,
    (t.view.normalize chain.1).isSome ∧ (t.view.normalize chain.2).isSome

/-- The join gate lets nothing through that it is to hold back. -/
def JoinExact : Prop :=
  match t.record with
  | none => c.joinPolicy = .all
  | some run => run.joinPolicy = .all → (∀ d ∈ run.delegations, d.status ≠ .pending) →
      ∀ d ∈ run.delegations, d.status = .replied

/-! ## The gates, as they are computed -/

theorem taggedBlocked_eq_nil : t.taggedBlocked c = [] ↔ t.TaggedMet c := by
  unfold taggedBlocked TaggedMet
  by_cases required : c.requireTaggedPeers = true
  · simp [required, filter_eq_nil_iff, taggedKeys, delegated]
  · simp [required]

end Turn

section Chains

variable {α β : Type} {f : α → Option (List β)}

/-- Every part of a fallible concatenation is there. -/
theorem mapM_flatten_isSome {l : List α} : ((l.mapM f).map List.flatten).isSome ↔ ∀ a ∈ l, (f a).isSome := by
  induction l with
  | nil => simp
  | cons a l ih =>
    rw [Option.isSome_map] at ih ⊢
    cases first : f a with
    | none => simp [mapM_cons, first]
    | some b =>
      cases rest : l.mapM f with
      | none | some bs => simpa [mapM_cons, first, rest] using ih

theorem mapM_flatten_nil {l : List α} : (l.mapM f).map List.flatten = some [] ↔ ∀ a ∈ l, f a = some [] := by
  induction l with
  | nil => simp
  | cons a l ih =>
    cases first : f a with
    | none => simp [mapM_cons, first]
    | some b =>
      cases rest : l.mapM f with
      | none => simpa [mapM_cons, first, rest] using fun _ => ih
      | some bs =>
        rw [rest] at ih
        simp [mapM_cons, first, rest] at ih ⊢
        exact fun _ => ih

end Chains

namespace Turn

variable (c : FlowConfig) (t : Turn)

theorem sequentialBlocked_isSome : (t.sequentialBlocked c).isSome ↔ t.Resolves c := by
  unfold sequentialBlocked Resolves
  cases t.record with
  | none => simp
  | some run =>
    rw [mapM_flatten_isSome]
    rw [or_iff_right (by simp)]
    refine forall₂_congr fun chain _ => ?_
    cases t.view.normalize chain.1 <;> cases t.view.normalize chain.2 <;> simp

theorem sequentialBlocked_nil (resolves : t.Resolves c) : t.sequentialBlocked c = some [] ↔ t.ChainsMet c := by
  unfold sequentialBlocked
  cases record : t.record with
  | none => simp [ChainsMet, replied, delegations, record]
  | some run =>
    rw [mapM_flatten_nil]
    have names := resolves.resolve_left (by simp [record])
    refine forall₂_congr fun chain inside => ?_
    obtain ⟨upstream, up⟩ := Option.isSome_iff_exists.1 (names chain inside).1
    obtain ⟨downstream, down⟩ := Option.isSome_iff_exists.1 (names chain inside).2
    simp [up, down, replied, delegated, delegations, record]

theorem joinSatisfied_iff (exact_ : t.JoinExact c) : t.joinSatisfied = true ↔ t.JoinMet c := by
  unfold joinSatisfied JoinMet policy
  unfold JoinExact at exact_
  cases record : t.record with
  | none =>
    rw [record] at exact_
    simp [delegations, record, exact_]
  | some run =>
    rw [record] at exact_
    cases policy : run.joinPolicy with
    | first => simp [delegations, record, policy]
    | all =>
      simp only [Option.map_some, Option.getD_some, delegations, record, policy] at exact_ ⊢
      rw [Bool.not_eq_true', any_eq_false]
      constructor
      · intro quiet
        exact exact_ trivial fun d inside => by simpa using quiet d inside
      · intro replied d inside
        simp [replied d inside]

/-- What the join gate lets through although it is to hold it back. -/
theorem joinSatisfied_of_not_exact (loose : ¬ t.JoinExact c) : t.joinSatisfied = true ∧ ¬ t.JoinMet c := by
  unfold joinSatisfied JoinMet policy
  unfold JoinExact at loose
  cases record : t.record with
  | none =>
    rw [record] at loose
    cases policy : c.joinPolicy with
    | all => exact absurd policy loose
    | first => simp [delegations, record]
  | some run =>
    rw [record] at loose
    cases policy : run.joinPolicy with
    | first => simp [policy] at loose
    | all =>
      simp only [policy, true_imp_iff, Classical.not_imp] at loose
      obtain ⟨quiet, open_⟩ := loose
      simp only [Option.map_some, Option.getD_some, delegations, record, policy]
      refine ⟨?_, open_⟩
      rw [Bool.not_eq_true', any_eq_false]
      exact fun d inside => by simpa using quiet d inside

/-! ## What becomes of a synthesis -/

/-- The text of the final answer. -/
def finalText (buffered : List BufferedSynthesis) (content : String) : String :=
  let joined := "\n\n".intercalate (buffered.map (·.content))
  if joined = "" then content else Text.strip (joined ++ "\n\n" ++ content)

def buffered : List BufferedSynthesis := (t.record.map Metadata.bufferedSyntheses).getD []

/-- The content is recorded as buffered, and the turn ends with that. -/
def Buffers (t' : Turn) (content : String) : Prop :=
  ∃ payload, t'.phase = .recording (.buffered t.message.id) payload false ∧
    payload.bufferedSyntheses = [⟨t.message.id, content⟩]

variable {c t} (content : String)

theorem handleSynthesize_unresolved (lost : ¬ t.Resolves c) :
    (t.handleSynthesize c content).phase = .finished true := by
  rw [← sequentialBlocked_isSome, Option.not_isSome_iff_eq_none] at lost
  rw [handleSynthesize, lost]

theorem handleSynthesize_open (resolves : t.Resolves c) (join : t.joinSatisfied = true)
    (tagged : t.TaggedMet c) (chains : t.ChainsMet c) :
    (t.handleSynthesize c content).phase = .finalizing (finalText t.buffered content) := by
  have pass : (!t.joinSatisfied || t.taggedBlocked c ≠ [] || ([] : List PeerKey) ≠ []) = false := by
    simp [join, (taggedBlocked_eq_nil c t).2 tagged]
  rw [handleSynthesize, (sequentialBlocked_nil c t resolves).2 chains]
  dsimp only
  rw [if_neg (by rw [pass]; exact Bool.false_ne_true)]
  rfl

theorem handleSynthesize_closed (resolves : t.Resolves c)
    (closed : ¬ (t.joinSatisfied = true ∧ t.TaggedMet c ∧ t.ChainsMet c)) :
    t.Buffers (t.handleSynthesize c content) content := by
  obtain ⟨blocked, found⟩ := Option.isSome_iff_exists.1 ((sequentialBlocked_isSome c t).2 resolves)
  have held : (!t.joinSatisfied || t.taggedBlocked c ≠ [] || blocked ≠ []) = true := by
    by_contra open_
    simp only [Bool.not_eq_true, Bool.or_eq_false_iff, Bool.not_eq_false', decide_eq_false_iff_not,
      not_not] at open_
    obtain ⟨⟨join, tagged⟩, chains⟩ := open_
    rw [chains] at found
    exact closed ⟨join, (taggedBlocked_eq_nil c t).1 tagged, (sequentialBlocked_nil c t resolves).1 found⟩
  refine ⟨{ t.envelope .waiting .waitingForReplies with bufferedSyntheses := [⟨t.message.id, content⟩] }, ?_, rfl⟩
  rw [handleSynthesize, found]
  dsimp only
  rw [if_pos held]

end Turn

/-! ## What was buffered -/

/-- The syntheses the events of a run carry, in the order of the log. -/
def bufferedIn (log : List TaskEvent) (run : RunId) : List BufferedSynthesis :=
  (log.filter (·.run = run)).flatMap (·.payload.bufferedSyntheses)

/-- Of what the run buffered, `l` has one synthesis a message, in order. -/
structure BufferedOnce (log : List TaskEvent) (run : RunId) (l : List BufferedSynthesis) : Prop where
  ordered : l.Sublist (bufferedIn log run)
  all : ∀ b ∈ bufferedIn log run, b.sourceMessageId ∈ l.map BufferedSynthesis.sourceMessageId
  once : (∀ e ∈ log, (e.payload.bufferedSyntheses.map BufferedSynthesis.sourceMessageId).Nodup) →
    (l.map BufferedSynthesis.sourceMessageId).Nodup

section Buffered

variable {log : List TaskEvent} {run : RunId} {event : TaskEvent} {l : List BufferedSynthesis}

theorem mergeBuffered_eq (existing incoming : List BufferedSynthesis) :
    mergeBuffered existing incoming = Keyed.appendNew BufferedSynthesis.sourceMessageId existing incoming := by
  unfold mergeBuffered Keyed.appendNew
  congr
  funext merged b
  simp [any_eq_true]

theorem bufferedIn_append (own : event.run = run) :
    bufferedIn (log ++ [event]) run = bufferedIn log run ++ event.payload.bufferedSyntheses := by
  simp [bufferedIn, own]

theorem bufferedIn_append_other (other : event.run ≠ run) :
    bufferedIn (log ++ [event]) run = bufferedIn log run := by
  simp [bufferedIn, other]

theorem bufferedIn_of_absent (absent : recordOf log run = none) : bufferedIn log run = [] := by
  have others : log.filter (·.run = run) = [] :=
    filter_eq_nil_iff.2 fun e inside => by simpa using recordOf_eq_none.1 absent e inside
  rw [bufferedIn, others, flatMap_nil]

theorem BufferedOnce.next (before : BufferedOnce log run l) (own : event.run = run) :
    BufferedOnce (log ++ [event]) run (mergeBuffered l event.payload.bufferedSyntheses) := by
  rw [mergeBuffered_eq]
  constructor
  · rw [bufferedIn_append own]
    exact Keyed.sublist_appendNew before.ordered
  · intro b inside
    rw [bufferedIn_append own, mem_append] at inside
    rw [Keyed.key_mem_appendNew]
    rcases inside with old | new
    · exact .inl (before.all b old)
    · exact .inr (mem_map_of_mem new)
  · intro distinct
    exact Keyed.nodup_appendNew (before.once fun e inside => distinct e (mem_append_left _ inside))

theorem buffers_of_record {m : Metadata} (found : recordOf log run = some m)
    (active : m.isTerminal = false) : BufferedOnce log run m.bufferedSyntheses := by
  refine open_induction (P := fun log m => BufferedOnce log run m.bufferedSyntheses) ?_ ?_ ?_ found active
  · intro log event absent own
    constructor
    · rw [bufferedIn_append own]
      exact sublist_append_right _ _
    · intro b inside
      rw [bufferedIn_append own, bufferedIn_of_absent absent, nil_append] at inside
      exact mem_map_of_mem inside
    · exact fun distinct => distinct event (by simp)
  · intro log event m _ before own
    exact before.next own
  · intro log event m before other
    constructor
    · rw [bufferedIn_append_other other]
      exact before.ordered
    · rw [bufferedIn_append_other other]
      exact before.all
    · exact fun distinct => before.once fun e inside => distinct e (mem_append_left _ inside)

/-- What the turn's record has buffered is what the record of the log has. -/
def Turn.LoadedBuffers (t : Turn) (runs : Runs) : Prop :=
  t.record.map Metadata.bufferedSyntheses = (runs.get t.run).map Metadata.bufferedSyntheses

theorem Turn.buffered_once {t : Turn} {aged : RunId → Bool} (live : (convert aged log).isTerminal t.run = false)
    (loaded : t.LoadedBuffers (convert aged log)) : BufferedOnce log t.run t.buffered := by
  have shape : t.buffered = ((recordOf log t.run).map Metadata.bufferedSyntheses).getD [] := by
    rw [buffered, loaded, get_convert live]
  rw [shape]
  cases found : recordOf log t.run with
  | none =>
    rw [Option.map_none, Option.getD_none]
    refine ⟨nil_sublist _, ?_, fun _ => nodup_nil⟩
    simp [bufferedIn_of_absent found]
  | some m =>
    have active : m.isTerminal = false := by
      simpa [Runs.isTerminal, get_convert live, found] using live
    exact buffers_of_record found active

end Buffered

/-! ## The texts -/

theorem intercalate_concat (separator text : String) {l : List String} (some_ : l ≠ []) :
    separator.intercalate (l ++ [text]) = separator.intercalate l ++ separator ++ text := by
  induction l with
  | nil => exact absurd rfl some_
  | cons a l ih =>
    cases l with
    | nil => simp
    | cons b l =>
      rw [cons_append, cons_append, String.intercalate_cons_cons, ← cons_append,
        ih (cons_ne_nil b l), String.intercalate_cons_cons]
      simp only [String.append_assoc]

/-- But for spaces around it, the final answer is what was buffered and then the content. -/
theorem Turn.strip_finalText (l : List BufferedSynthesis) (content : String) :
    Text.strip (Turn.finalText l content) =
      Text.strip ("\n\n".intercalate (l.map (·.content) ++ [content])) := by
  unfold finalText
  dsimp only
  split
  · rename_i empty
    by_cases none_ : l.map (·.content) = []
    · simp [none_]
    · rw [intercalate_concat _ _ none_, empty, String.empty_append]
      exact (Text.strip_append_left (all_eq_true.1 rfl) content).symm
  · rename_i full
    have some_ : l.map (·.content) ≠ [] := by
      intro none_
      rw [none_] at full
      exact full rfl
    rw [Text.strip_strip, intercalate_concat _ _ some_]

/-! ## The gate -/

/-- What the gates are for: the final answer goes out only where they are all met, and
then with everything the run buffered in front of it; else the content is buffered. -/
structure SynthesisKept (c : FlowConfig) (log : List TaskEvent) (t : Turn) (content : String) : Prop where
  posts : ∀ text, (t.handleSynthesize c content).phase = .finalizing text → t.GatesMet c
  text : ∀ text, (t.handleSynthesize c content).phase = .finalizing text → ∃ l, BufferedOnce log t.run l ∧
    Text.strip text = Text.strip ("\n\n".intercalate (l.map (·.content) ++ [content]))
  buffers : ¬ t.GatesMet c → t.Buffers (t.handleSynthesize c content) content

/-- Where the gates as computed are the gates as meant. -/
structure GatesExact (c : FlowConfig) (t : Turn) : Prop where
  /-- A configured name that two participants share ends the turn with an error, which is no matter
  behind open gates only. -/
  names : t.Resolves c ∨ t.GatesMet c
  join : t.Resolves c → t.TaggedMet c → t.ChainsMet c → t.JoinExact c

/-- **The gates hold back what they should** exactly where, with the other gates met, a
run under policy `all` that waits for no pending delegation has a reply to each, a run
without a record is under policy `all`, and no configured name is ambiguous. -/
theorem synthesis_kept_iff (c : FlowConfig) {log : List TaskEvent} {aged : RunId → Bool} {t : Turn}
    (live : (convert aged log).isTerminal t.run = false) (loaded : t.LoadedBuffers (convert aged log))
    (content : String) : SynthesisKept c log t content ↔ GatesExact c t := by
  constructor
  · intro kept
    constructor
    · by_contra neither
      obtain ⟨lost, closed⟩ := not_or.1 neither
      obtain ⟨payload, buffers, -⟩ := kept.buffers closed
      rw [handleSynthesize_unresolved content lost] at buffers
      cases buffers
    · intro resolves tagged chains
      by_contra loose
      obtain ⟨join, unmet⟩ := joinSatisfied_of_not_exact c t loose
      exact unmet (kept.posts _ (handleSynthesize_open content resolves join tagged chains)).join
  · intro exact_
    by_cases resolves : t.Resolves c
    · by_cases open_ : t.joinSatisfied = true ∧ t.TaggedMet c ∧ t.ChainsMet c
      · obtain ⟨join, tagged, chains⟩ := open_
        have met : t.GatesMet c :=
          ⟨(t.joinSatisfied_iff c (exact_.join resolves tagged chains)).1 join, tagged, chains⟩
        have phase := handleSynthesize_open content resolves join tagged chains
        refine ⟨fun _ _ => met, fun text posted => ?_, fun unmet => absurd met unmet⟩
        rw [phase, Phase.finalizing.injEq] at posted
        subst posted
        exact ⟨t.buffered, buffered_once live loaded, strip_finalText _ _⟩
      · have buffers := handleSynthesize_closed content resolves open_
        have quiet (text : String) : (t.handleSynthesize c content).phase ≠ .finalizing text := by
          obtain ⟨payload, recording, -⟩ := buffers
          rw [recording]
          exact Phase.noConfusion
        exact ⟨fun text posted => absurd posted (quiet text), fun text posted => absurd posted (quiet text),
          fun _ => buffers⟩
    · have met := exact_.names.resolve_left resolves
      have phase := handleSynthesize_unresolved content resolves
      refine ⟨fun _ _ => met, fun text posted => ?_, fun unmet => absurd met unmet⟩
      rw [phase] at posted
      cases posted

/-! ## In a room -/

section Room

variable {c : FlowConfig} {w w' : World} {t t' : Turn}

/-- What a turn knows to be buffered is what the log it loaded says. -/
def Turn.KnowsBuffers (t : Turn) : Prop :=
  t.record.map Metadata.bufferedSyntheses = (recordOf t.history t.run).map Metadata.bufferedSyntheses

section

variable (knows : t.KnowsBuffers)
include knows

theorem Turn.KnowsBuffers.same (history : t'.history = t.history)
    (run : t'.run = t.run) (record : t'.record = t.record) : t'.KnowsBuffers := by
  rw [KnowsBuffers, history, run, record]
  exact knows

theorem Turn.KnowsBuffers.moved (moved : Turn.Moved t t') : t'.KnowsBuffers :=
  knows.same moved.history moved.run moved.record

theorem Turn.KnowsBuffers.aside (aside : Turn.Aside t t') : t'.KnowsBuffers :=
  knows.same aside.history aside.run aside.record

/-- A recorded reply leaves what is buffered alone. -/
theorem Turn.KnowsBuffers.write {ok : Bool} (line : t.Written ok t') : t'.KnowsBuffers := by
  cases line with
  | reply at_ => simpa [KnowsBuffers, withReply, Function.comp_def] using knows
  | mark key => exact knows.moved (mark_moved key)
  | _ => exact knows.moved (phase_moved _)

end

def World.BuffersKnown (w : World) : Prop := ∀ t, w.turn = some t → t.KnowsBuffers ∨ t.Bystander

theorem World.BuffersKnown.step {event : World.RoomEvent} (inv : w.BuffersKnown)
    (stepped : w.step c event = some w') : w'.BuffersKnown := by
  cases step_act stepped with
  | pass m idle => exact fun t busy => by cases busy.symm.trans idle
  | begin t idle fresh =>
    rintro _ ⟨⟩
    rcases fresh.start with ⟨tools, content, payload, safe, phase, -⟩ | ⟨record, -, -⟩
    · exact .inr ⟨tools, .inl (by rw [phase]; rfl)⟩
    · left
      rw [Turn.KnowsBuffers, record, fresh.history]
  | line t t' busy inner =>
    rintro _ ⟨⟩
    rcases inv t busy with knows | bystander
    · exact .inl (knows.moved (line_cases inner).moved)
    · exact (bystander.no_line inner).elim
  | write t event ok busy pending =>
    rintro _ ⟨⟩
    exact (inv t busy).imp (·.write (written pending ok)) (·.write ok)
  | post t key text outcome busy pending =>
    rintro _ ⟨⟩
    rcases inv t busy with knows | bystander
    · exact .inl (knows.moved (afterPost_moved outcome))
    · cases pending.symm.trans (bystander.idle (c := c)).2.2.2
  | callSend t t' text busy inner =>
    rintro _ ⟨⟩
    exact (inv t busy).imp (·.aside (callSend_aside inner)) (·.aside (callSend_aside inner))
  | writeSend t i send event ok busy found pending | postSend t i send outcome busy found posting
  | dropSend t i send busy found running =>
    rintro _ ⟨⟩
    exact (inv t busy).imp (·.aside (setSend_aside i send _)) (·.aside (setSend_aside i send _))
  | ends t normal busy => rintro _ ⟨⟩

theorem get_convert_ageless (log : List TaskEvent) (run : RunId) :
    (convert (fun _ => false) log).get run = recordOf log run := by
  have whole : ageOut (fun _ => false) = id := by
    funext pair
    rfl
  rw [convert, whole, map_id, recordOf]

/-- Wherever the Flow of a turn returns, its run was open in the log the turn loaded, and
the turn knows what was buffered there. -/
theorem flow_loaded (reached : (room c).Reachable w) (busy : w.turn = some t) (flow : t.phase = .flow) :
    (convert (fun _ => false) t.history).isTerminal t.run = false ∧
      t.LoadedBuffers (convert (fun _ => false) t.history) := by
  have known : w.BuffersKnown := by
    refine reached.invariant ?_ fun w event w' inv stepped => inv.step stepped
    rintro w rfl _ ⟨⟩
  have loaded : t.Loaded := by
    rcases (grounded_of_reachable reached).turn t busy with working | bystander
    · exact working.loaded
    · simp [Turn.Bystander, flow, Phase.isRecording] at bystander
  have knows : t.KnowsBuffers := by
    rcases known t busy with knows | bystander
    · exact knows
    · simp [Turn.Bystander, flow, Phase.isRecording] at bystander
  rw [Runs.isTerminal, Turn.LoadedBuffers, get_convert_ageless]
  refine ⟨?_, knows⟩
  unfold Turn.Loaded at loaded
  cases found : recordOf t.history t.run with
  | none => rfl
  | some m =>
    rw [found] at loaded
    exact loaded.1

end Room

/-- The first synthesis comes too early and is buffered; then the peer replies. -/
def synthesisedTwice : List World.RoomEvent :=
  [delivered request, .flowReturns ask, .proceed, .write true, .post (.posted (some 2)), .write true,
    .proceed, .close, delivered request, .flowReturns (.synthesize "part"), .write true, .close,
    delivered reply, .write true]

theorem synthesis_kept_iff_buffered : ∃ w t, (room smallConfig).Reachable w ∧ w.turn = some t ∧
    t.buffered = [⟨1, "part"⟩] ∧ SynthesisKept smallConfig t.history t "whole" := by
  have ran : ((room smallConfig).run emptyRoom synthesisedTwice).bind (fun w => w.turn.map fun t =>
      (t.phase, t.buffered, t.record.isSome, t.delegations.all (·.status = .replied))) =
        some (.flow, [⟨1, "part"⟩], true, true) := by
    decide +kernel
  obtain ⟨w, path, inner⟩ := Option.bind_eq_some_iff.1 ran
  obtain ⟨t, busy, facts⟩ := Option.map_eq_some_iff.1 inner
  simp only [Prod.mk.injEq] at facts
  obtain ⟨flow, buffered, record, replied⟩ := facts
  have reached : (room smallConfig).Reachable w := ⟨_, rfl, synthesisedTwice, path⟩
  obtain ⟨live, loaded⟩ := flow_loaded reached busy flow
  refine ⟨w, t, reached, busy, buffered, (synthesis_kept_iff smallConfig live loaded "whole").2 ⟨.inl (.inr ?_), ?_⟩⟩
  · intro chain inside
    cases inside
  · intro _ _ _
    obtain ⟨run, here⟩ := Option.isSome_iff_exists.1 record
    rw [Turn.JoinExact, here]
    intro _ _ d inside
    have listed : d ∈ t.delegations := by rwa [delegations, here]
    simpa using all_eq_true.1 replied d listed

/-- A turn crashes between a delegation's reservation and its message, and the next one
synthesises. -/
def reservedThenSynthesised : List World.RoomEvent :=
  [delivered request, .flowReturns ask, .proceed, .write true, .crash, delivered request]

/-- Under policy `all` the answer is posted although the one delegation has no reply. -/
theorem reserved_not_awaited : ∃ w t, (room smallConfig).Reachable w ∧ w.turn = some t ∧ t.phase = .flow ∧
    t.policy smallConfig = .all ∧ (t.delegations.map Delegation.status) = [.reserved] ∧
    (t.handleSynthesize smallConfig "done").phase = .finalizing "done" ∧ ¬ t.GatesMet smallConfig := by
  have ran : ((room smallConfig).run emptyRoom reservedThenSynthesised).bind (fun w => w.turn.map fun t =>
      (t.phase, t.policy smallConfig, t.delegations.map Delegation.status,
        (t.handleSynthesize smallConfig "done").phase)) =
        some (.flow, .all, [.reserved], .finalizing "done") := by
    decide +kernel
  obtain ⟨w, path, inner⟩ := Option.bind_eq_some_iff.1 ran
  obtain ⟨t, busy, facts⟩ := Option.map_eq_some_iff.1 inner
  simp only [Prod.mk.injEq] at facts
  obtain ⟨flow, policy, statuses, phase⟩ := facts
  refine ⟨w, t, ⟨_, rfl, reservedThenSynthesised, path⟩, busy, flow, policy, statuses, phase, ?_⟩
  intro met
  have replied := met.join
  rw [Turn.JoinMet, policy] at replied
  obtain ⟨d, inside, status⟩ : ∃ d ∈ t.delegations, d.status = .reserved := by
    rw [← mem_map, statuses]
    exact mem_singleton_self _
  rw [replied d inside] at status
  cases status

end BandSdk.CrewFlow

/-
# Opencode.Answered -- one answer an ask, and what it says

`Kept` holds between any two awaits: each registry is a run of the decision registry's
machine, an answer that is on its way is that of an entry claimed once and not yet
answered, and every answer sent is `Proper`.  `Rested` is about the human wait alone,
because a call releases it after it changed a registry.
-/
import BandSdk.Decisions.Calls
import BandSdk.Opencode.Approvals

namespace BandSdk.Opencode

open BandSdk.Theory BandSdk.Decisions List RoomApprovals

/-- What may grant a permission in manual mode: its expiry, or a command that names it, or one that
names none while it is the only permission to await an answer. -/
def Granted (config : Config) (token : String) (reply : ApprovalReply) : Cause → Prop
  | .expired => reply = config.approvalTimeoutReply
  | .message content awaiting =>
    commandOf content = some ⟨reply, some token⟩ ∨ commandOf content = some ⟨reply, none⟩ ∧ awaiting = [token]
  | _ => False

def Proper (config : Config) :
    (kind : AskKind) → DecisionEntry (Pending kind) → Answer kind → Cause → Prop
  | .permission, entry, reply, cause =>
    config.approvalMode = .manual → reply ≠ ApprovalReply.reject → Granted config entry.token reply cause
  | .question, entry, answers, _ =>
    List.length answers = (PendingQuestion.questions entry.payload).length

/-- What was sent answers `entry`. -/
def Sent.Answers (kind : AskKind) (entry : DecisionEntry (Pending kind)) (sent : Sent) : Prop :=
  ∃ answer cause, sent = .answer kind entry answer cause

namespace RoomApprovals

section Answered

variable {C : Type} {core : Core C} {views : Views C} {slots : C → List Slot} {config : Config}
  {s s' : RoomApprovals C} {kind : AskKind} {entry : DecisionEntry (Pending kind)} {call : Nat}

structure Kept (core : Core C) (config : Config) (s : RoomApprovals C) : Prop where
  runs : ∀ kind, (machine core).Reachable (s.asks kind)
  named : ∀ kind, ∀ entry ∈ (s.registry kind).entries, entry.payload.requestId = entry.token
  fresh : ∀ n, s.made ≤ n → s.calls n = none
  delivering : ∀ n kind entry answer cause, s.calls n = some (.delivering kind entry answer cause) →
    entry ∈ (s.asks kind).ledger.claims ∧ (∀ sent ∈ s.sent, ¬ sent.Answers kind entry) ∧
      Proper config kind entry answer cause
  apart : ∀ n m kind entry answer cause answer' cause', s.calls n = some (.delivering kind entry answer cause) →
    s.calls m = some (.delivering kind entry answer' cause') → n = m
  sent : ∀ kind entry answer cause, .answer kind entry answer cause ∈ s.sent →
    entry ∈ (s.asks kind).ledger.claims ∧ Proper config kind entry answer cause
  once : s.sent.Pairwise fun earlier later =>
    ∀ kind entry, earlier.Answers kind entry → ¬ later.Answers kind entry
  own : ∀ requestId permission, .ownBandTool requestId permission ∈ s.sent →
    config.isOwnBandTool permission = true

/-- The human wait is over, or an ask is held that awaits its answer or is being answered. -/
def Rested (s : RoomApprovals C) : Prop := s.idle = true ∨ ∃ kind, (s.registry kind).entries ≠ []

/-- An entry that was claimed and that nothing answers yet, but `call` perhaps. -/
structure Unanswered (s : RoomApprovals C) (kind : AskKind) (entry : DecisionEntry (Pending kind))
    (call : Nat) : Prop where
  claimed : entry ∈ (s.asks kind).ledger.claims
  unsent : ∀ sent ∈ s.sent, ¬ sent.Answers kind entry
  alone : ∀ n answer cause, s.calls n = some (.delivering kind entry answer cause) → n = call

theorem Kept.sound (documented : Documented core slots) (kept : s.Kept core config) (kind : AskKind) :
    Sound slots (s.asks kind) := sound_of_reachable documented (kept.runs kind)

/-! ### Calls of a registry -/

section Tell

variable {event : Decisions.Event (Pending kind)} {after : State C (Pending kind)}

theorem tell_asks (stepped : Decisions.step core (s.asks kind) event = some after) :
    (s.tell core kind event).asks kind = after := by
  simp [tell, stepped]

theorem tell_other {other : AskKind} (differs : other ≠ kind) :
    (s.tell core kind event).asks other = s.asks other := by
  simp [tell, differs]

theorem Kept.tell (kept : s.Kept core config) (stepped : Decisions.step core (s.asks kind) event = some after)
    (named : ∀ entry ∈ after.registry.entries, entry.payload.requestId = entry.token) :
    (s.tell core kind event).Kept core config := by
  have claims : ∀ other, ∀ entry ∈ (s.asks other).ledger.claims,
      entry ∈ ((s.tell core kind event).asks other).ledger.claims := by
    intro other entry mem
    by_cases same : other = kind
    · subst same
      rw [tell_asks stepped]
      exact step_claims stepped entry mem
    · rwa [tell_other same]
  refine { kept with runs := ?_, named := ?_, delivering := ?_, sent := ?_ }
  · intro other
    by_cases same : other = kind
    · subst same
      rw [tell_asks stepped]
      exact (kept.runs other).step stepped
    · rw [tell_other same]
      exact kept.runs other
  · intro other
    by_cases same : other = kind
    · subst same
      rw [registry, tell_asks stepped]
      exact named
    · rw [registry, tell_other same]
      exact kept.named other
  · intro n other entry answer cause found
    have before := kept.delivering n other entry answer cause found
    exact ⟨claims other entry before.1, before.2⟩
  · intro other entry answer cause mem
    have before := kept.sent other entry answer cause mem
    exact ⟨claims other entry before.1, before.2⟩

end Tell

theorem Kept.idle (kept : s.Kept core config) (idle : Bool) : Kept core config { s with idle := idle } :=
  { kept with }

theorem Kept.releaseIfIdle (kept : s.Kept core config) : (s.releaseIfIdle views).Kept core config := by
  unfold RoomApprovals.releaseIfIdle
  split
  · exact kept
  · exact kept.idle true

theorem releaseIfIdle_asks : (s.releaseIfIdle views).asks = s.asks := by
  unfold releaseIfIdle
  split <;> rfl

theorem releaseIfIdle_calls : (s.releaseIfIdle views).calls = s.calls := by
  unfold releaseIfIdle
  split <;> rfl

theorem releaseIfIdle_sent : (s.releaseIfIdle views).sent = s.sent := by
  unfold releaseIfIdle
  split <;> rfl

theorem releaseIfIdle_made : (s.releaseIfIdle views).made = s.made := by
  unfold releaseIfIdle
  split <;> rfl

section

variable (documented : Documented core slots) (viewed : views.Documented slots)
  (kept : s.Kept core config)
include documented viewed kept

/-- An ask that awaits an answer is held. -/
theorem hasUnclaimed_held (waiting : s.hasUnclaimed views kind = true) : (s.registry kind).entries ≠ [] := by
  intro empty
  have none_ : slots (s.registry kind).core = [] := by
    rw [registry, (kept.sound documented kind).tidy.mirror, ← registry, empty, map_nil]
  simp [hasUnclaimed, viewed.unclaimedCount, none_] at waiting

theorem rested_releaseIfIdle : (s.releaseIfIdle views).Rested := by
  unfold releaseIfIdle
  split
  · rename_i parked
    rw [parkedOnHuman, Bool.or_eq_true] at parked
    rcases parked with waiting | waiting
    · exact .inr ⟨.permission, hasUnclaimed_held documented viewed kept waiting⟩
    · exact .inr ⟨.question, hasUnclaimed_held documented viewed kept waiting⟩
  · exact .inl rfl

end

/-! ### Claims -/

/-- What a claim leaves: the same entries, and one more claim if it got one. -/
theorem claim_asks (kind : AskKind) (requestId : String) :
    ((s.claim core views kind requestId).2.registry kind).entries = (s.registry kind).entries ∧
    ((s.claim core views kind requestId).2.asks kind).ledger.claims =
      (s.asks kind).ledger.claims ++ (s.claim core views kind requestId).1.toList ∧
    ∀ other, other ≠ kind → (s.claim core views kind requestId).2.asks other = s.asks other := by
  have same : (s.claim core views kind requestId).2.asks = (s.tell core kind (.tryClaim requestId)).asks := by
    simp only [claim]
    split
    · exact releaseIfIdle_asks
    · rfl
  simp only [registry, same]
  rw [tell_asks rfl]
  exact ⟨tryClaim_entries, rfl, fun other differs => tell_other differs⟩

theorem claim_calls (kind : AskKind) (requestId : String) :
    (s.claim core views kind requestId).2.calls = s.calls ∧
    (s.claim core views kind requestId).2.sent = s.sent ∧
    (s.claim core views kind requestId).2.made = s.made := by
  simp only [claim]
  split
  · exact ⟨releaseIfIdle_calls, releaseIfIdle_sent, releaseIfIdle_made⟩
  · exact ⟨rfl, rfl, rfl⟩

theorem Kept.tellClaim (kept : s.Kept core config) (kind : AskKind) (requestId : String) :
    (s.tell core kind (.tryClaim requestId)).Kept core config := by
  refine kept.tell rfl ?_
  intro entry mem
  have held : entry ∈ ((s.registry kind).tryClaim core requestId).2.entries := mem
  rw [tryClaim_entries] at held
  exact kept.named kind entry held

theorem Kept.claim (kept : s.Kept core config) (kind : AskKind) (requestId : String) :
    (s.claim core views kind requestId).2.Kept core config := by
  have told := kept.tellClaim kind requestId
  simp only [RoomApprovals.claim]
  split
  · exact told.releaseIfIdle
  · exact told

theorem Rested.claim (documented : Documented core slots) (viewed : views.Documented slots)
    (kept : s.Kept core config) (rested : s.Rested) (kind : AskKind) (requestId : String) :
    (s.claim core views kind requestId).2.Rested := by
  have told := kept.tellClaim kind requestId
  by_cases got : (s.claim core views kind requestId).1.isSome
  · have released := rested_releaseIfIdle documented viewed told
    have same : (s.claim core views kind requestId).2 =
        (s.tell core kind (.tryClaim requestId)).releaseIfIdle views := if_pos got
    rwa [same]
  · have idle : (s.claim core views kind requestId).2.idle = s.idle := by
      simp only [RoomApprovals.claim] at got ⊢
      rw [if_neg got]
      rfl
    rcases rested with over_ | ⟨other, held⟩
    · exact .inl (idle.trans over_)
    refine .inr ⟨other, ?_⟩
    obtain ⟨entries, -, others⟩ := @claim_asks C core views s kind requestId
    by_cases same : other = kind
    · subst same
      rwa [entries]
    · rwa [registry, others other same]

/-- A claim gets an entry that nothing answers. -/
theorem Kept.claim_first (documented : Documented core slots) (kept : s.Kept core config)
    {requestId : String} (call : Nat) (got : (s.claim core views kind requestId).1 = some entry) :
    (s.registry kind).get requestId = some entry ∧
      (s.claim core views kind requestId).2.Unanswered kind entry call := by
  have first := (kept.sound documented kind).tryClaim_first documented got
  obtain ⟨-, claims, -⟩ := @claim_asks C core views s kind requestId
  obtain ⟨calls, sent, -⟩ := @claim_calls C core views s kind requestId
  refine ⟨first.1, ?_, ?_, ?_⟩
  · rw [claims, got]
    simp
  · rw [sent]
    rintro _ mem ⟨answer, cause, rfl⟩
    exact first.2 (kept.sent kind entry answer cause mem).1
  · intro n answer cause found
    rw [calls] at found
    exact absurd (kept.delivering n kind entry answer cause found).1 first.2

/-! ### Answers -/

section

variable (kept : s.Kept core config)
include kept

theorem Kept.setCall {next : Option Call} (below : call < s.made)
    (silent : ∀ kind entry answer cause, next ≠ some (.delivering kind entry answer cause)) :
    (s.setCall call next).Kept core config := by
  have calls : ∀ n kind entry answer cause,
      (s.setCall call next).calls n = some (.delivering kind entry answer cause) →
      s.calls n = some (.delivering kind entry answer cause) := by
    intro n kind entry answer cause found
    rcases update_cases found with ⟨rfl, its⟩ | ⟨-, found⟩
    · exact absurd its (silent kind entry answer cause)
    · exact found
  refine { kept with fresh := ?_, delivering := ?_, apart := ?_ }
  · intro n late
    have other : n ≠ call := by
      rintro rfl
      exact absurd below (Nat.not_lt.2 late)
    simpa [RoomApprovals.setCall, other] using kept.fresh n late
  · exact fun n kind entry answer cause found =>
      kept.delivering n kind entry answer cause (calls n kind entry answer cause found)
  · exact fun n m kind entry answer cause answer' cause' found found' =>
      kept.apart n m kind entry answer cause answer' cause' (calls _ _ _ _ _ found) (calls _ _ _ _ _ found')

theorem Kept.enter : s.enter.Kept core config :=
  { kept with fresh := fun n late => kept.fresh n (Nat.le_of_succ_le late) }

theorem Kept.spawn {next : Call}
    (silent : ∀ kind entry answer cause, next ≠ .delivering kind entry answer cause) :
    (s.spawn next).Kept core config := by
  have entered : (s.enter.setCall s.made (some next)).Kept core config := by
    refine kept.enter.setCall (Nat.lt_succ_self _) ?_
    intro kind entry answer cause same
    exact silent kind entry answer cause (Option.some.inj same)
  exact entered

/-- An answer is handed to a task of its own. -/
theorem Kept.spawnDelivering {answer : Answer kind} {cause : Cause}
    (unanswered : s.Unanswered kind entry s.made) (proper : Proper config kind entry answer cause) :
    (s.spawn (.delivering kind entry answer cause)).Kept core config := by
  have calls : ∀ n, n ≠ s.made → (s.spawn (.delivering kind entry answer cause)).calls n = s.calls n := by
    intro n other
    simp [RoomApprovals.spawn, RoomApprovals.setCall, other]
  have here : (s.spawn (.delivering kind entry answer cause)).calls s.made =
      some (.delivering kind entry answer cause) := by
    simp [RoomApprovals.spawn, RoomApprovals.setCall]
  have none_ := kept.fresh s.made (Nat.le_refl _)
  refine { kept with fresh := ?_, delivering := ?_, apart := ?_ }
  · intro n late
    have late : s.made + 1 ≤ n := late
    rw [calls n (by omega)]
    exact kept.fresh n (by omega)
  · intro n kind' entry' answer' cause' found
    rcases set_cases here calls found with ⟨rfl, ⟨⟩⟩ | ⟨-, found⟩
    · exact ⟨unanswered.claimed, unanswered.unsent, proper⟩
    · exact kept.delivering n kind' entry' answer' cause' found
  · intro n m kind' entry' answer₁ cause₁ answer₂ cause₂ first second
    by_cases new : n = s.made
    · by_cases new' : m = s.made
      · rw [new, new']
      subst new
      rw [calls m new'] at second
      cases here.symm.trans first
      exact (unanswered.alone m answer₂ cause₂ second).symm
    · by_cases new' : m = s.made
      · subst new'
        rw [calls n new] at first
        cases here.symm.trans second
        exact unanswered.alone n answer₁ cause₁ first
      · rw [calls n new] at first
        rw [calls m new'] at second
        exact kept.apart n m kind' entry' answer₁ cause₁ answer₂ cause₂ first second

/-- An answer is sent; a call that was on its way to send it is so no more. -/
theorem Kept.log {answer : Answer kind} {cause : Cause} {next : Option Call}
    (below : call < s.made) (unanswered : s.Unanswered kind entry call)
    (proper : Proper config kind entry answer cause)
    (silent : ∀ kind entry answer cause, next ≠ some (.delivering kind entry answer cause)) :
    Kept core config
      { s.setCall call next with sent := s.sent ++ [.answer kind entry answer cause] } := by
  have moved := kept.setCall below silent
  refine { moved with delivering := ?_, sent := ?_, once := ?_, own := ?_ }
  · intro n kind' entry' answer' cause' found
    obtain ⟨claimed, unsent, fine⟩ := moved.delivering n kind' entry' answer' cause' found
    refine ⟨claimed, ?_, fine⟩
    intro sent mem
    rw [mem_append, mem_singleton] at mem
    rcases mem with before | rfl
    · exact unsent sent before
    rintro ⟨answer, cause, same⟩
    cases same
    by_cases other : n = call
    · subst other
      exact silent _ _ _ _ (by simpa [RoomApprovals.setCall] using found)
    · have old : s.calls n = some (.delivering kind entry answer' cause') := by
        simpa [RoomApprovals.setCall, other] using found
      exact other (unanswered.alone n answer' cause' old)
  · intro kind' entry' answer' cause' mem
    rw [mem_append, mem_singleton] at mem
    rcases mem with before | new
    · exact moved.sent kind' entry' answer' cause' before
    · cases new
      exact ⟨unanswered.claimed, proper⟩
  · rw [pairwise_append]
    refine ⟨moved.once, pairwise_singleton .., ?_⟩
    rintro earlier mem last new kind' entry' answered ⟨answer', cause', same⟩
    rw [mem_singleton] at new
    subst new
    cases same
    exact unanswered.unsent earlier mem answered
  · intro requestId permission mem
    rw [mem_append, mem_singleton] at mem
    rcases mem with before | new
    · exact moved.own requestId permission before
    · cases new

end

section

variable (documented : Documented core slots)
include documented

theorem Kept.cancel (kept : s.Kept core config) : (s.cancel core).Kept core config := by
  have emptied : ∀ {s : RoomApprovals C} {kind : AskKind}, s.Kept core config →
      (s.tell core kind .cancelAll).Kept core config := by
    intro s kind kept
    obtain ⟨r, cancelled, -, none_, -⟩ := (kept.sound documented kind).tidy.cancelAll documented
    refine kept.tell rfl ?_
    intro entry mem
    have held : entry ∈ ((s.registry kind).cancelAll core).2.entries := mem
    rw [registry, cancelled, none_] at held
    cases held
  exact (emptied (emptied kept)).idle true

theorem Kept.send (kept : s.Kept core config) {client : Bool}
    {answer : Answer kind} {cause : Cause} {prompt : Option (DecisionEntry (Pending kind))}
    (below : call < s.made) (unanswered : s.Unanswered kind entry call)
    (proper : Proper config kind entry answer cause) :
    (s.send core call client entry answer cause prompt).Kept core config := by
  unfold RoomApprovals.send
  split
  · exact kept.log below unanswered proper nofun
  · exact (kept.cancel documented).setCall below nofun

theorem Kept.replyNow (kept : s.Kept core config) {client : Bool}
    {pending : Pending kind} {answer : DecisionEntry (Pending kind) → Answer kind} {cause : Cause}
    {prompt : Option (DecisionEntry (Pending kind))} (below : call < s.made)
    (proper : ∀ entry, Proper config kind entry (answer entry) cause) :
    (s.replyNow core views call client pending answer cause prompt).Kept core config := by
  have claimed := @Kept.claim C core views config s kept kind pending.requestId
  obtain ⟨-, -, made⟩ := @claim_calls C core views s kind pending.requestId
  have first := fun entry got =>
    (@Kept.claim_first C core views slots config s kind entry documented kept pending.requestId call got).2
  unfold RoomApprovals.replyNow
  generalize s.claim core views kind pending.requestId = result at claimed made first
  obtain ⟨_ | entry, after⟩ := result
  · exact claimed.setCall (made ▸ below) nofun
  · exact claimed.send documented (made ▸ below) (first entry rfl) (proper entry)

end

theorem proper_rejection (entry : DecisionEntry (Pending kind)) (cause : Cause) :
    Proper config kind entry (rejection kind entry.payload) cause := by
  cases kind with
  | permission => exact fun _ granted => absurd rfl granted
  | question => exact length_map ..

/-- A room message's answer to the ask that `requestId` names. -/
theorem Kept.answer (documented : Documented core slots) (kept : s.Kept core config) {requestId : String}
    {answer : DecisionEntry (Pending kind) → Answer kind} {cause : Cause}
    (proper : ∀ entry, (s.registry kind).get requestId = some entry →
      Proper config kind entry (answer entry) cause) :
    (s.answer core views kind requestId answer cause).Kept core config := by
  have claimed := @Kept.claim C core views config s kept kind requestId
  have first := fun entry got => @Kept.claim_first C core views slots config s kind entry documented kept
    requestId (s.claim core views kind requestId).2.made got
  unfold RoomApprovals.answer
  generalize s.claim core views kind requestId = result at claimed first
  obtain ⟨_ | entry, after⟩ := result
  · exact claimed
  · obtain ⟨known, unanswered⟩ := first entry rfl
    exact claimed.spawnDelivering unanswered (proper entry known)

end Answered

end RoomApprovals

end BandSdk.Opencode

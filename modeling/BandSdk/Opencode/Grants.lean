/-
# Opencode.Grants -- approvals grant nothing unasked

Every step keeps `Kept` and `Rested`; a room message answers the ask its command names, or
the only one there is.
-/
import BandSdk.Opencode.Answered

namespace BandSdk.Opencode

open BandSdk.Theory BandSdk.Decisions List Option RoomApprovals

namespace RoomApprovals

section Grants

variable {C : Type} {core : Core C} {views : Views C} {slots : C → List Slot} {config : Config}
  {s s' : RoomApprovals C} {kind : AskKind} {entry : DecisionEntry (Pending kind)} {call : Nat}

/-! ### The human wait -/

theorem Rested.cancel : (s.cancel core).Rested := .inl rfl

theorem Rested.send (rested : s.Rested) {client : Bool} {answer : Answer kind} {cause : Cause}
    {prompt : Option (DecisionEntry (Pending kind))} :
    (s.send core call client entry answer cause prompt).Rested := by
  unfold RoomApprovals.send
  split
  · exact rested
  · exact Rested.cancel

section

variable (documented : Documented core slots)
include documented

section

variable (viewed : views.Documented slots) (kept : s.Kept core config) (rested : s.Rested)
include viewed kept rested

theorem Rested.replyNow {client : Bool} {pending : Pending kind}
    {answer : DecisionEntry (Pending kind) → Answer kind} {cause : Cause}
    {prompt : Option (DecisionEntry (Pending kind))} :
    (s.replyNow core views call client pending answer cause prompt).Rested := by
  have claimed := Rested.claim documented viewed kept rested kind pending.requestId
  unfold RoomApprovals.replyNow
  generalize s.claim core views kind pending.requestId = result at claimed
  obtain ⟨_ | entry, after⟩ := result
  · exact claimed
  · exact claimed.send

theorem Rested.answer {requestId : String}
    {answer : DecisionEntry (Pending kind) → Answer kind} {cause : Cause} :
    (s.answer core views kind requestId answer cause).Rested := by
  have claimed := Rested.claim documented viewed kept rested kind requestId
  unfold RoomApprovals.answer
  generalize s.claim core views kind requestId = result at claimed
  obtain ⟨_ | entry, after⟩ := result
  · exact claimed
  · exact claimed

end

/-! ### Asks -/

/-- A registered ask is held; a refused one changes nothing. -/
theorem register_spec (unbounded : ∀ c, (core.evictOldest c).1 = none)
    (kept : s.Kept core config) (rested : s.Rested) (pending : Pending kind) :
    (s.register core kind pending).2.Kept core config ∧ (s.register core kind pending).2.Rested ∧
    ∀ entry, (s.register core kind pending).1 = some entry →
      entry ∈ ((s.register core kind pending).2.registry kind).entries := by
  let key := pending.requestId
  have stepped : Decisions.step core (s.asks kind) (.registerKeyed pending key) =
      some ((s.asks kind).recordRegistration
        ((s.asks kind).registry.registerKeyed core pending key).1.toOption.join
        ((s.asks kind).registry.registerKeyed core pending key).2) := rfl
  have after : ((s.tell core kind (.registerKeyed pending key)).registry kind) =
      ((s.asks kind).registry.registerKeyed core pending key).2 := by
    rw [registry, tell_asks stepped]
    exact recordRegistration_registry
  have others : ∀ other, other ≠ kind →
      (s.tell core kind (.registerKeyed pending key)).asks other = s.asks other :=
    fun other differs => tell_other differs
  rcases result : ((s.asks kind).registry.registerKeyed core pending key).1.toOption.join with _ | registration
  · obtain ⟨refused, -⟩ := (kept.sound documented kind).registerKeyed_wrote documented unbounded result rfl
    have told : (s.tell core kind (.registerKeyed pending key)).Kept core config := by
      refine kept.tell stepped ?_
      intro entry mem
      rw [recordRegistration_registry, refused rfl] at mem
      exact kept.named kind entry mem
    have same : s.register core kind pending = (none, s.tell core kind (.registerKeyed pending key)) := by
      simp only [register, registry, key] at result ⊢
      rw [result]
    rw [same]
    refine ⟨told, ?_, by simp⟩
    rcases rested with over_ | ⟨other, held⟩
    · exact .inl over_
    refine .inr ⟨other, ?_⟩
    by_cases its : other = kind
    · subst its
      rw [after]
      exact (refused rfl).symm ▸ held
    · rwa [registry, others other its]
  · obtain ⟨-, made⟩ := (kept.sound documented kind).registerKeyed_wrote documented unbounded result rfl
    obtain ⟨payload, token, held, old⟩ := made registration rfl
    have told : (s.tell core kind (.registerKeyed pending key)).Kept core config := by
      refine kept.tell stepped ?_
      intro entry mem
      rw [recordRegistration_registry] at mem
      rcases old entry mem with before | rfl
      · exact kept.named kind entry before
      · rw [payload, token]
    have same : s.register core kind pending = (some registration.entry,
        { s.tell core kind (.registerKeyed pending key) with
          known := Function.update s.known kind (key :: s.known kind) }) := by
      simp only [register, registry, key] at result ⊢
      rw [result]
      rfl
    rw [same]
    have held' : registration.entry ∈ ((s.tell core kind (.registerKeyed pending key)).registry kind).entries := by
      rw [after]
      exact held
    refine ⟨{ told with }, .inr ⟨kind, ne_nil_of_mem held'⟩, ?_⟩
    intro entry got
    cases got
    exact held'

end

/-- An ask that is held is put to the room. -/
theorem ask_spec (kept : s.Kept core config) (held : entry ∈ (s.registry kind).entries) (tools : Bool) :
    (s.ask core entry tools).Kept core config ∧ (s.ask core entry tools).Rested := by
  have entries : ((s.tell core kind (.startTimeout entry)).registry kind).entries =
      (s.registry kind).entries := by
    rw [registry, tell_asks rfl]
    exact startTimeout_entries
  have told : Kept core config { s.tell core kind (.startTimeout entry) with idle := false } := by
    refine (kept.tell rfl ?_).idle false
    intro other mem
    have still : other ∈ ((s.registry kind).startTimeout entry).entries := mem
    rw [startTimeout_entries] at still
    exact kept.named kind other still
  have rested : Rested { s.tell core kind (.startTimeout entry) with idle := false } :=
    .inr ⟨kind, by simpa only [registry] using entries ▸ ne_nil_of_mem held⟩
  simp only [ask]
  split
  · exact ⟨told.spawn (by simp), rested⟩
  · exact ⟨told, rested⟩

theorem Kept.spawnOwning (kept : s.Kept core config) {requestId permission : String}
    (ours : config.isOwnBandTool permission = true) :
    Kept core config { s.spawn .owning with sent := s.sent ++ [.ownBandTool requestId permission] } := by
  have spawned : (s.spawn .owning).Kept core config := kept.spawn nofun
  refine { spawned with delivering := ?_, sent := ?_, once := ?_, own := ?_ }
  · intro n kind entry answer cause found
    obtain ⟨claimed, unsent, proper⟩ := spawned.delivering n kind entry answer cause found
    refine ⟨claimed, ?_, proper⟩
    intro sent mem
    rw [mem_append, mem_singleton] at mem
    rcases mem with before | rfl
    · exact unsent sent before
    · rintro ⟨answer, cause, same⟩
      cases same
  · intro kind entry answer cause mem
    rw [mem_append, mem_singleton] at mem
    rcases mem with before | new
    · exact spawned.sent kind entry answer cause before
    · cases new
  · rw [pairwise_append]
    refine ⟨spawned.once, pairwise_singleton .., ?_⟩
    rintro earlier - last new kind entry - ⟨answer, cause, same⟩
    rw [mem_singleton] at new
    subst new
    cases same
  · intro requestId' permission' mem
    rw [mem_append, mem_singleton] at mem
    rcases mem with before | new
    · exact spawned.own requestId' permission' before
    · cases new
      exact ours

/-- What every step keeps. -/
structure Fair (core : Core C) (config : Config) (s : RoomApprovals C) : Prop where
  kept : s.Kept core config
  rested : s.Rested

theorem Fair.cancel (documented : Documented core slots) (fair : s.Fair core config) :
    (s.cancel core).Fair core config := ⟨fair.kept.cancel documented, .inl rfl⟩

section Fair

variable (documented : Documented core slots) (viewed : views.Documented slots)
  (unbounded : ∀ c, (core.evictOldest c).1 = none) (fair : s.Fair core config)

include documented viewed fair

theorem Fair.replyNow {client : Bool} {pending : Pending kind}
    {answer : DecisionEntry (Pending kind) → Answer kind} {cause : Cause}
    {prompt : Option (DecisionEntry (Pending kind))} (below : call < s.made)
    (proper : ∀ entry, Proper config kind entry (answer entry) cause) :
    (s.replyNow core views call client pending answer cause prompt).Fair core config :=
  ⟨fair.kept.replyNow documented below proper, fair.rested.replyNow documented viewed fair.kept⟩

theorem Fair.answer {requestId : String} {answer : DecisionEntry (Pending kind) → Answer kind} {cause : Cause}
    (proper : ∀ entry, (s.registry kind).get requestId = some entry →
      Proper config kind entry (answer entry) cause) :
    (s.answer core views kind requestId answer cause).Fair core config :=
  ⟨fair.kept.answer documented proper, fair.rested.answer documented viewed fair.kept⟩

theorem Fair.mode {client : Bool} {answer : DecisionEntry (Pending kind) → Answer kind}
    {pending : Pending kind} (proper : ∀ entry, Proper config kind entry (answer entry) .mode) :
    (s.enter.replyNow core views s.made client pending answer .mode none).Fair core config := by
  have entered : s.enter.Fair core config := ⟨fair.kept.enter, fair.rested⟩
  exact entered.replyNow documented viewed (Nat.lt_succ_self _) proper

include unbounded

theorem Fair.onPermissionAsked (pending : PendingPermission) (tools client : Bool) :
    (s.onPermissionAsked core views config pending tools client).Fair core config := by
  unfold RoomApprovals.onPermissionAsked
  split
  · exact fair
  split
  next ours =>
    split
    · exact ⟨fair.kept.spawnOwning ours, fair.rested⟩
    · exact ⟨(fair.kept.cancel documented).spawn nofun, .inl rfl⟩
  · have registered := @register_spec C core slots config s .permission documented unbounded fair.kept
      fair.rested pending
    generalize s.register core .permission pending = result at registered
    obtain ⟨_ | entry, after⟩ := result
    · exact ⟨registered.1, registered.2.1⟩
    have fair' : after.Fair core config := ⟨registered.1, registered.2.1⟩
    cases mode : config.approvalMode with
    | manual =>
      have asked := ask_spec registered.1 (registered.2.2 entry rfl) tools
      exact ⟨asked.1, asked.2⟩
    | autoAccept =>
      refine fair'.mode documented viewed ?_
      intro entry manual
      rw [mode] at manual
      cases manual
    | autoDecline =>
      refine fair'.mode documented viewed ?_
      exact fun entry _ granted => absurd rfl granted

theorem Fair.onQuestionAsked (pending : PendingQuestion) (tools client : Bool) :
    (s.onQuestionAsked core views config pending tools client).Fair core config := by
  unfold RoomApprovals.onQuestionAsked
  split
  · exact fair
  have registered := @register_spec C core slots config s .question documented unbounded fair.kept
    fair.rested pending
  generalize s.register core .question pending = result at registered
  obtain ⟨_ | entry, after⟩ := result
  · exact ⟨registered.1, registered.2.1⟩
  have fair' : after.Fair core config := ⟨registered.1, registered.2.1⟩
  dsimp only
  split
  · exact fair'.mode documented viewed fun entry => proper_rejection entry _
  · have asked := ask_spec registered.1 (registered.2.2 entry rfl) tools
    exact ⟨asked.1, asked.2⟩

end Fair

/-! ### Room messages -/

/-- The view of what awaits an answer is what is held and not claimed. -/
theorem unclaimed_eq (documented : Documented core slots) (viewed : views.Documented slots)
    (kept : s.Kept core config) (kind : AskKind) :
    s.unclaimed views kind = (s.registry kind).entries.filter (· ∉ (s.asks kind).ledger.claims) :=
  (kept.sound documented kind).unclaimed_eq (viewed.unclaimed _)

theorem routeQuestion_route {raw : String} {command : Option PermissionCommand} {route : ReplyRoute}
    (routed : s.routeQuestion views raw command = some route) :
    ∃ oldest, (s.registry .question).get oldest.token = some oldest ∧
      (route = .questionRejection oldest.payload ∨ ∃ text, route = .questionAnswer oldest.payload text) := by
  obtain ⟨oldest, known, rfl⟩ := map_eq_some_iff.1 routed
  obtain ⟨token, -, got⟩ := bind_eq_some_iff.1 known
  obtain ⟨-, rfl⟩ := get_some got
  refine ⟨oldest, got, ?_⟩
  split
  · exact .inl rfl
  · exact .inr ⟨_, rfl⟩

theorem routeNamed_route {command : PermissionCommand} {requestId : String} {named : AskKind × AskState}
    {route : ReplyRoute} (routed : s.routeNamed command requestId named = some route) :
    (∀ other, route = .permissionReply other → other = command) ∧ ∀ question text,
      route ≠ .questionAnswer question text := by
  unfold routeNamed at routed
  split at routed
  · cases routed
    exact ⟨by rintro _ ⟨⟩; rfl, nofun⟩
  · cases routed
    exact ⟨nofun, nofun⟩
  · split_ifs at routed
    · obtain ⟨entry, -, rfl⟩ := map_eq_some_iff.1 routed
      exact ⟨nofun, nofun⟩
    · cases routed
      exact ⟨nofun, nofun⟩
    · cases routed
      exact ⟨nofun, nofun⟩

/-- A message is taken for a permission only as the command it is, and for an answer only to a question
that is held. -/
theorem routeReply_route {content : String} {route : ReplyRoute}
    (routed : s.routeReply views content = some route) :
    (∀ command, route = .permissionReply command → commandOf content = some command) ∧
    ∀ question text, route = .questionAnswer question text →
      ∃ oldest, (s.registry .question).get oldest.token = some oldest ∧ question = oldest.payload := by
  have answers : ∀ {raw command}, s.routeQuestion views raw command = some route →
      (∀ command, route = .permissionReply command → commandOf content = some command) ∧
      ∀ question text, route = .questionAnswer question text →
        ∃ oldest, (s.registry .question).get oldest.token = some oldest ∧ question = oldest.payload := by
    intro raw command routed
    obtain ⟨oldest, got, rfl | ⟨text, rfl⟩⟩ := routeQuestion_route routed
    · exact ⟨nofun, nofun⟩
    refine ⟨nofun, ?_⟩
    rintro question text' ⟨⟩
    exact ⟨oldest, got, rfl⟩
  simp only [routeReply] at routed
  obtain ⟨-, routed⟩ := of_barred routed
  split at routed
  · exact answers routed
  rename_i command is
  split at routed
  · obtain ⟨replies, other⟩ := routeNamed_route routed
    refine ⟨?_, fun question text same => absurd same (other question text)⟩
    intro command' same
    rw [replies command' same]
    exact is
  · split at routed
    · cases routed
      refine ⟨?_, nofun⟩
      rintro command' ⟨⟩
      exact is
    · split at routed
      · obtain ⟨-, ⟨⟩⟩ := of_barred routed
        exact ⟨nofun, nofun⟩
      · exact answers routed

theorem resolvePermission_names (documented : Documented core slots) (viewed : views.Documented slots)
    (kept : s.Kept core config) {requestId : Option String} {pending : PendingPermission}
    (resolved : s.resolvePermission views requestId = some pending) :
    requestId = some pending.requestId ∨ requestId = none ∧ s.awaiting = [pending.requestId] := by
  unfold resolvePermission at resolved
  split at resolved
  · rename_i named
    obtain ⟨entry, got, rfl⟩ := map_eq_some_iff.1 resolved
    obtain ⟨held, rfl⟩ := get_some got
    exact .inl (congrArg some (kept.named .permission entry held).symm)
  · split at resolved
    · rename_i only unclaimed
      cases resolved
      rw [unclaimed_eq documented viewed kept] at unclaimed
      have held : only ∈ (s.registry .permission).entries := by
        have mem : only ∈ [only] := mem_singleton_self only
        rw [← unclaimed] at mem
        exact (mem_filter.1 mem).1
      refine .inr ⟨rfl, ?_⟩
      rw [awaiting, unclaimed, map_singleton]
      exact congrArg (fun token => [token]) (kept.named .permission only held).symm
    · cases resolved

theorem Fair.tryHandleReply (documented : Documented core slots) (viewed : views.Documented slots)
    (fair : s.Fair core config) (content : String) :
    (s.tryHandleReply core views content).Fair core config := by
  simp only [RoomApprovals.tryHandleReply]
  split
  · exact fair
  · exact fair
  · exact fair
  · rename_i command routed
    have is := (routeReply_route routed).1 command rfl
    unfold handlePermissionReply
    split
    · exact fair
    split
    · exact fair
    rename_i pending resolved
    refine fair.answer documented viewed ?_
    intro entry got manual granted
    have token := (get_some got).2
    rcases resolvePermission_names documented viewed fair.kept resolved with names | ⟨bare, only⟩
    · refine .inl (is.trans ?_)
      rw [token, ← names]
    · refine .inr ⟨is.trans ?_, ?_⟩
      · rw [← bare]
      · rw [only, token]
  · exact fair.answer documented viewed fun entry _ => proper_rejection entry _
  rename_i question text routed
  split
  · exact fair
  rename_i answers parsed
  refine fair.answer documented viewed ?_
  intro entry got
  obtain ⟨oldest, known, rfl⟩ := (routeReply_route routed).2 question text rfl
  have token := fair.kept.named .question oldest (get_some known).1
  have same : entry = oldest := by
    have got' : (s.registry .question).get oldest.token = some entry := token ▸ got
    exact some.inj (got'.symm.trans known)
  rw [same]
  exact parseQuestionAnswers_length parsed

/-- An ask is held as before, claimed or not. -/
def Spared (s s' : RoomApprovals C) (entry : DecisionEntry (Pending kind)) : Prop :=
  entry ∈ (s'.registry kind).entries ∧
    (entry ∈ (s'.asks kind).ledger.claims ↔ entry ∈ (s.asks kind).ledger.claims)

section

variable (documented : Documented core slots)
include documented

theorem Fair.expire (fair : s.Fair core config) {task : Nat}
    (stepped : s.expire core config kind task = some s') : s'.Fair core config := by
  simp only [RoomApprovals.expire, Option.bind_eq_bind, bind_eq_some_iff, Option.pure_def,
    some.injEq] at stepped
  obtain ⟨timeout, found, ⟨outcome, r⟩, woke, rfl⟩ := stepped
  obtain ⟨entries, first⟩ := (fair.kept.sound documented kind).expire_first documented found woke
  have recorded : Decisions.step core (s.asks kind) (.expire task) =
      some ((s.asks kind).recordClaim timeout.entry outcome r) := by
    simp only [registry] at found woke
    simp [Decisions.step, found, woke]
  have told : (s.tell core kind (.expire task)).Kept core config := by
    refine fair.kept.tell recorded ?_
    intro entry mem
    rw [recordClaim_registry, entries] at mem
    exact fair.kept.named kind entry mem
  have rested : (s.tell core kind (.expire task)).Rested := by
    rcases fair.rested with over_ | ⟨other, held⟩
    · exact .inl over_
    refine .inr ⟨other, ?_⟩
    by_cases same : other = kind
    · subst same
      rw [registry, tell_asks recorded, recordClaim_registry, entries]
      exact held
    · rwa [registry, tell_other same]
  split
  · rename_i won
    refine ⟨told.spawnDelivering ⟨?_, ?_, ?_⟩ ?_, rested⟩
    · rw [tell_asks recorded, State.recordClaim, if_pos won]
      simp
    · rintro _ mem ⟨answer, cause, rfl⟩
      exact (first won).2 (fair.kept.sent kind timeout.entry answer cause mem).1
    · intro n answer cause found
      exact absurd (fair.kept.delivering n kind timeout.entry answer cause found).1 (first won).2
    · cases kind with
      | permission => exact fun _ _ => rfl
      | question => exact length_map ..
  · exact ⟨told, rested⟩

theorem Fair.forget (viewed : views.Documented slots)
    (fair : s.Fair core config) (entry : DecisionEntry (Pending kind)) :
    (s.forget core views kind entry).Fair core config := by
  have told : (s.tell core kind (.forget entry)).Kept core config := by
    refine fair.kept.tell rfl ?_
    intro other mem
    have still : other ∈ ((s.registry kind).forget core entry).2.entries := by
      simp only [State.forget] at mem
      split at mem
      · exact mem
      · exact mem
    exact fair.kept.named kind other (forget_entries.subset still)
  exact ⟨told.releaseIfIdle, rested_releaseIfIdle documented viewed told⟩

omit documented in
theorem forget_made : (s.forget core views kind entry).made = s.made := releaseIfIdle_made

omit documented in
theorem Fair.setCall (fair : s.Fair core config) {next : Option Call} (below : call < s.made)
    (silent : ∀ kind entry answer cause, next ≠ some (.delivering kind entry answer cause)) :
    (s.setCall call next).Fair core config := ⟨fair.kept.setCall below silent, fair.rested⟩

section

variable (viewed : views.Documented slots)
include viewed

theorem Fair.promptFailed (fair : s.Fair core config) (below : call < s.made) (input : Input) :
    (s.promptFailed core views call entry input).Fair core config := by
  unfold RoomApprovals.promptFailed
  split
  · exact fair.replyNow documented viewed below fun entry => proper_rejection entry _
  · exact fair.setCall below nofun

theorem Fair.resume (fair : s.Fair core config) {input : Input} (ran : s.resume core views call input = some s') :
    s'.Fair core config := by
  have below : ∀ {running}, s.calls call = some running → call < s.made := by
    intro running found
    by_contra late
    rw [fair.kept.fresh call (Nat.not_lt.1 late)] at found
    cases found
  unfold RoomApprovals.resume at ran
  split at ran
  · cases ran
  · rename_i found _
    cases ran
    exact fair.promptFailed documented viewed (below found) input
  · rename_i kind entry found _
    split_ifs at ran
    · cases ran
      exact fair.setCall (below found) nofun
    · cases ran
      exact fair.replyNow documented viewed (below found) fun entry => proper_rejection entry _
    · cases ran
      exact fair.setCall (below found) nofun
  · rename_i kind entry answer cause found _
    obtain ⟨claimed, unsent, proper⟩ := fair.kept.delivering call kind entry answer cause found
    split_ifs at ran
    · cases ran
      have unanswered : s.Unanswered kind entry call := by
        refine ⟨claimed, unsent, ?_⟩
        intro n answer' cause' found'
        exact fair.kept.apart n call kind entry answer' cause' answer cause found' found
      exact ⟨fair.kept.send documented (below found) unanswered proper, fair.rested.send⟩
    · cases ran
      exact fair.setCall (below found) nofun
  · cases ran
  · rename_i kind entry _ found _
    cases ran
    exact (fair.forget documented viewed entry).setCall (by rw [forget_made]; exact below found) nofun
  · rename_i found _
    cases ran
    exact (fair.cancel documented).setCall (below found) nofun
  · rename_i found _
    cases ran
    exact (fair.cancel documented).setCall (below found) nofun
  · rename_i entry found _
    cases ran
    exact fair.promptFailed documented viewed (below found) input
  · rename_i found _ _ _ _ _ _ _ _
    cases ran
    exact fair.setCall (below found) nofun

theorem Fair.step (unbounded : ∀ c, (core.evictOldest c).1 = none) (fair : s.Fair core config) {event : Event}
    (stepped : s.step core views config event = some s') : s'.Fair core config := by
  cases event with
  | permissionAsked requestId permission patterns tools client =>
    cases stepped
    exact fair.onPermissionAsked documented viewed unbounded _ tools client
  | questionAsked requestId questions tools client =>
    cases stepped
    exact fair.onQuestionAsked documented viewed unbounded _ tools client
  | message content =>
    cases stepped
    exact fair.tryHandleReply documented viewed content
  | expire kind task => exact fair.expire documented stepped
  | cancel =>
    cases stepped
    exact fair.cancel documented
  | resume call input => exact fair.resume documented viewed stepped

end

end

end Grants

end RoomApprovals

section Main

variable {C : Type} {core : Core C} {views : Views C} {slots : C → List Slot} {config : Config}
  {s : RoomApprovals C}

end Main

/-! ## A room over the unbounded core -/

def unboundedViews : Views (Slots × Nat) where
  unclaimed c := (c.1.1.filter (!·.claimed)).map Slot.token
  unclaimedCount c := (c.1.1.filter (!·.claimed)).length
  oldestUnclaimed c := ((c.1.1.filter (!·.claimed)).map Slot.token).head?

theorem unboundedViews_documented : unboundedViews.Documented (fun c => c.1.1) where
  unclaimed _ := rfl
  unclaimedCount _ := rfl
  oldestUnclaimed _ := rfl

end BandSdk.Opencode

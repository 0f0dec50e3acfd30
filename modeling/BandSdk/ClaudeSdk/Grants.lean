/-
# ClaudeSdk.Grants -- approvals grant nothing unasked

Every step keeps `Kept`, and a callback that returns an allowance has its residency and
its turn there and then.
-/
import BandSdk.ClaudeSdk.Settled

namespace BandSdk.ClaudeSdk

open BandSdk.Theory BandSdk.Runtime BandSdk.Decisions List Adapter Keyed

namespace Adapter

variable {C : Type} {core : Core C} {views : Views C} {slots : C → List Slot} {options : Options}
  {s s' : Adapter C} {n object : Nat} {request : Request} {entry : DecisionEntry PendingApproval}

/-! ### The end of a callback -/

theorem Kept.erase (kept : s.Kept core options) (room : String) :
    Kept core options { s with pendingApprovals := Keyed.erase room s.pendingApprovals } := by
  have before : ∀ other object, Keyed.get other (Keyed.erase room s.pendingApprovals) = some object →
      Keyed.get other s.pendingApprovals = some object := by
    intro other object opened
    rw [get_erase] at opened
    obtain ⟨-, opened⟩ := of_barred opened
    exact opened
  refine { kept with rooms := ?_, apart := ?_ }
  · exact fun other object opened => kept.rooms other object (before other object opened)
  · exact fun other other' object opened opened' =>
      kept.apart other other' object (before _ _ opened) (before _ _ opened')

theorem Kept.clearPendingApproval (kept : s.Kept core options) (room : String)
    (entry : DecisionEntry PendingApproval) : (s.clearPendingApproval core room entry).Kept core options := by
  unfold Adapter.clearPendingApproval
  split
  · exact kept
  rename_i object _
  have told := (kept.tellForget object entry).1
  dsimp only
  split
  · exact told.erase room
  · exact told

theorem clearPendingApproval_requests (room : String) (entry : DecisionEntry PendingApproval) :
    (s.clearPendingApproval core room entry).requests = s.requests := by
  unfold clearPendingApproval
  split
  · rfl
  · dsimp only
    split <;> rfl

section

variable (kept : s.Kept core options)
include kept

theorem Kept.leave (request : Request) :
    (s.leave core request).Kept core options ∧ (s.leave core request).requests = s.requests := by
  unfold Adapter.leave
  split
  · exact ⟨kept, rfl⟩
  rename_i entry _
  exact ⟨(kept.tellForget request.registry entry).2.clearPendingApproval request.room entry,
    clearPendingApproval_requests request.room entry⟩

theorem Kept.recordNotifiedDecline (request : Request) :
    (s.recordNotifiedDecline request).Kept core options := by
  have delivered : ∀ pair ∈ s.delivered, pair ∈ (s.recordNotifiedDecline request).delivered :=
    fun pair mem => mem_append_left _ mem
  refine { kept with notified := ?_, answered := ?_ }
  · intro pair mem
    simp only [Adapter.recordNotifiedDecline] at mem ⊢
    split at mem
    · exact delivered pair (kept.notified pair mem)
    rcases mem_append.1 mem with before | new
    · exact delivered pair (kept.notified pair before)
    · exact mem_append_right _ new
  · intro pair mem
    obtain ⟨denial, inside, id, name, its, reached, rest⟩ := kept.answered pair mem
    exact ⟨denial, inside, id, name, its, delivered _ reached, rest⟩

theorem Kept.conclude {allowed notified : Bool} {cause : Cause}
    (known : s.requests n = some request) (going : request.phase ≠ .ended)
    (justified : allowed = true → Justified options request cause) :
    (s.conclude core n request allowed notified cause).Kept core options := by
  have recorded : ∃ s₁ : Adapter C, s₁ = (if notified && !allowed then s.recordNotifiedDecline request else s) ∧
      s₁.Kept core options ∧ s₁.requests = s.requests := by
    refine ⟨_, rfl, ?_⟩
    split
    · exact ⟨kept.recordNotifiedDecline request, rfl⟩
    · exact ⟨kept, rfl⟩
  obtain ⟨s₁, same, kept₁, requests₁⟩ := recorded
  obtain ⟨kept₂, requests₂⟩ := kept₁.leave request
  unfold Adapter.conclude
  rw [← same]
  exact kept₂.finish (by rw [requests₂, requests₁, known]) going justified

end

/-! ### A request -/

theorem justified_phase (phase : Phase) (cause : Cause) :
    Justified options { request with phase := phase } cause ↔ Justified options request cause := by
  cases cause <;> exact .rfl

section

variable (kept : s.Kept core options)
include kept

/-- A request that returns at once. -/
theorem Kept.finishNew (none_ : request.entry = none) {allowed : Bool}
    {cause : Cause} (justified : allowed = true → Justified options request cause) :
    ({ s with made := s.made + 1 }.finish s.made request allowed cause).Kept core options := by
  obtain ⟨enrolled, here⟩ := @Kept.enroll C core options s request kept (by simp [none_])
  have finished : ((s.enroll request).finish s.made { request with phase := .waiting true } allowed
      cause).Kept core options :=
    enrolled.finish here (by simp) fun given => (justified_phase ..).2 (justified given)
  have same : (s.enroll request).finish s.made { request with phase := .waiting true } allowed cause =
      { s with made := s.made + 1 }.finish s.made request allowed cause := by
    simp [Adapter.enroll, Adapter.finish, Adapter.setPhase]
  rwa [same] at finished

/-- A request whose mode decides, with a notice. -/
theorem Kept.announceNew (none_ : request.entry = none) (auto : options.mode ≠ .manual) :
    ({ s with made := s.made + 1 }.setPhase s.made request .announcing).Kept core options := by
  obtain ⟨enrolled, here⟩ := @Kept.enroll C core options s request kept (by simp [none_])
  have moved := @Kept.goOn C core options _ _ _ enrolled here .announcing (by simp) (by simp) fun _ => auto
  rw [← enroll_setPhase]
  exact moved

theorem Kept.nextApprovalToken (room : String) :
    (s.nextApprovalToken room).2.Kept core options := { kept with }

theorem Kept.openRegistry (room : String) :
    (s.openRegistry room).2.Kept core options ∧
      Keyed.get room (s.openRegistry room).2.pendingApprovals = some (s.openRegistry room).1 := by
  unfold Adapter.openRegistry
  split
  · rename_i object opened
    exact ⟨kept, opened⟩
  · have either : ∀ other object, get other (setItem room s.objects s.pendingApprovals) =
        some object → other = room ∧ object = s.objects ∨
          object ≠ s.objects ∧ get other s.pendingApprovals = some object := by
      intro other object opened
      rw [get_setItem] at opened
      split at opened
      next same => exact .inl ⟨same.symm, (Option.some.inj opened).symm⟩
      next => exact .inr ⟨Nat.ne_of_lt (kept.rooms other object opened).1, opened⟩
    refine ⟨{ kept with used := ?_, rooms := ?_, apart := ?_ }, ?_⟩
    · intro m request entry found its
      obtain ⟨below, future⟩ := kept.used m request entry found its
      exact ⟨Nat.lt_succ_of_lt below, future⟩
    · intro other object opened
      rcases either other object opened with ⟨-, rfl⟩ | ⟨-, before⟩
      · refine ⟨Nat.lt_succ_self _, ?_⟩
        intro m request entry found its registry
        exact absurd registry (Nat.ne_of_lt (kept.used m request entry found its).1)
      · obtain ⟨below, rooms⟩ := kept.rooms other object before
        exact ⟨Nat.lt_succ_of_lt below, rooms⟩
    · intro other other' object opened opened'
      rcases either other object opened with ⟨rfl, new⟩ | ⟨old, before⟩
      · rcases either other' object opened' with ⟨rfl, -⟩ | ⟨old, -⟩
        · rfl
        · exact absurd new old
      · rcases either other' object opened' with ⟨-, new⟩ | ⟨-, before'⟩
        · exact absurd new old
        · exact kept.apart other other' object before before'
    · simp [get_setItem]

end

theorem force_setPhase (removed : List (DecisionEntry PendingApproval)) (phase : Phase) :
    (s.force removed).setPhase n request phase = (s.setPhase n request phase).force removed := by
  induction removed generalizing s with
  | nil => rfl
  | cons first rest ih => exact ih

theorem force_requests (removed : List (DecisionEntry PendingApproval)) :
    (s.force removed).requests = s.requests := by
  induction removed generalizing s with
  | nil => rfl
  | cons first rest ih => exact ih

theorem Kept.register (documented : Documented core slots) (kept : s.Kept core options)
    {pending : PendingApproval} (none_ : request.entry = none) (future : pending.future = s.made)
    (opened : Keyed.get request.room s.pendingApprovals = some request.registry) (token : String)
    (retained : Bool) : (s.register core request pending token retained).Kept core options := by
  have sound := kept.sound documented request.registry
  obtain ⟨made, lost⟩ := @Sound.registerKeyed_left C PendingApproval _ core slots _ documented sound pending token
  have stepped : Decisions.step core (s.registries request.registry) (.registerKeyed pending token) =
      some ((s.registries request.registry).recordRegistration
        ((s.registries request.registry).registry.registerKeyed core pending token).1.toOption.join
        ((s.registries request.registry).registry.registerKeyed core pending token).2) := rfl
  rcases result : ((s.registries request.registry).registry.registerKeyed core pending token).1.toOption.join
    with _ | registration
  · obtain ⟨enrolled, here⟩ := @Kept.enroll C core options s request kept (by simp [none_])
    have told : ((s.enroll request).tell core request.registry (.registerKeyed pending token)).Kept core
        options := by
      refine enrolled.tell stepped ?_
      intro entry mem
      rw [recordRegistration_registry] at mem
      exact .inl (lost result entry mem)
    have ended : (((s.enroll request).tell core request.registry (.registerKeyed pending token)).setPhase
        s.made { request with phase := .waiting true } .ended).Kept core options :=
      told.goOn here (by simp) (by simp) (by simp)
    have same : s.register core request pending token retained =
        ((s.enroll request).tell core request.registry (.registerKeyed pending token)).setPhase s.made
          { request with phase := .waiting true } .ended := by
      simp only [Adapter.register, registry, result]
      simp [Adapter.enroll, Adapter.tell, Adapter.setPhase]
    rwa [same]
  · obtain ⟨once, new, after⟩ := made registration result
    obtain ⟨payload, removed⟩ := sound.registerKeyed_removed documented result
    have its : registration.entry.payload.future = s.made := by rw [payload, future]
    let entered : Request := { request with entry := some registration.entry }
    obtain ⟨enrolled, here⟩ := @Kept.enroll C core options s entered kept (by
      rintro entry ⟨⟩
      refine ⟨(kept.rooms _ _ opened).1, its, ?_⟩
      exact fun room opened' => kept.apart _ _ _ opened opened')
    have told : ((s.enroll entered).tell core request.registry (.registerKeyed pending token)).Kept core
        options := by
      refine enrolled.tell stepped ?_
      intro entry mem
      rw [recordRegistration_registry] at mem
      rcases (after entry mem).2 with before | rfl
      · exact .inl before
      refine .inr ⟨?_, { entered with phase := .waiting true }, ?_, rfl, rfl⟩
      · rw [its]
        exact kept.unset (Nat.le_refl _)
      · rw [its]
        exact here
    have enrolled_tell := @tell_same C core (s.enroll entered) request.registry _ _ stepped
    have loose : ∀ entry ∈ registration.removed,
        ((s.enroll entered).tell core request.registry (.registerKeyed pending token)).Loose entry := by
      intro entry mem
      obtain ⟨held, unclaimed⟩ := removed entry mem
      refine enrolled.loose told held unclaimed rfl rfl ?_
      intro still
      rw [registry, enrolled_tell, recordRegistration_registry] at still
      exact absurd mem (after entry still).1
    have forced := told.force once loose
    have here' : (((s.enroll entered).tell core request.registry (.registerKeyed pending token)).force
        registration.removed).requests s.made = some { entered with phase := .waiting true } := by
      rw [force_requests]
      exact here
    have same : ∀ phase, ((({ s.tell core request.registry (.registerKeyed pending token) with
        made := s.made + 1 }).force registration.removed).setPhase s.made entered phase) =
        (((s.enroll entered).tell core request.registry (.registerKeyed pending token)).force
          registration.removed).setPhase s.made { entered with phase := .waiting true } phase := by
      intro phase
      rw [force_setPhase, force_setPhase]
      congr 1
      simp [Adapter.enroll, Adapter.tell, Adapter.setPhase]
    simp only [Adapter.register, registry, result]
    rw [same]
    refine forced.goOn here' (by simp) ?_ ?_
    · intro reply at_
      split at at_ <;> cases at_
    · intro at_
      split at at_ <;> cases at_

section

variable (documented : Documented core slots) (kept : s.Kept core options) (none_ : request.entry = none)
include documented kept none_

theorem Kept.requestManual (toolName summary : String) (retained : Bool) :
    (s.requestManual core request toolName summary retained).Kept core options := by
  obtain ⟨kept₀, opened⟩ := (kept.nextApprovalToken request.room).openRegistry request.room
  let entered : Request :=
    { request with registry := ((s.nextApprovalToken request.room).2.openRegistry request.room).1 }
  exact @Kept.register C core slots options _ entered documented kept₀ _ none_ rfl opened _ retained

theorem Kept.canUseTool (origin : Option Nat) (toolName summary : String) (retained : Bool) :
    (s.canUseTool core options request origin toolName summary retained).Kept core options := by
  have refused : ∀ request : Request, request.entry = none →
      ({ s with made := s.made + 1 }.finish s.made request false .mode).Kept core options :=
    fun request none_ => kept.finishNew none_ nofun
  unfold Adapter.canUseTool
  split
  · rename_i turn
    have none' : ({ request with turn := turn } : Request).entry = none := none_
    dsimp only
    split
    · exact refused { request with turn := turn } none'
    split
    · exact kept.requestManual documented none' toolName summary retained
    rename_i auto
    split
    · exact kept.announceNew none' auto
    · exact kept.finishNew none' fun _ => auto
  · exact refused request none_

end

/-! ### Awaits -/

section

variable (kept : s.Kept core options)
include kept

section

variable (known : s.requests n = some request)
include known

section

variable (going : request.phase ≠ .ended)
include going

theorem Kept.unnotified (entry : DecisionEntry PendingApproval) :
    (s.unnotified core n request entry).Kept core options := by
  have told : (s.tell core request.registry (.withdraw entry)).Kept core options := by
    obtain ⟨after, stepped, same⟩ : ∃ after, Decisions.step core (s.registries request.registry)
        (.withdraw entry) = some after ∧
        after.registry = ((s.registry request.registry).withdraw core entry).2 := by
      simp only [Decisions.step, registry]
      split
      next => exact ⟨_, rfl, rfl⟩
      next => exact ⟨_, rfl, rfl⟩
    refine kept.tell stepped ?_
    intro other mem
    rw [same] at mem
    exact .inl (withdraw_entries.subset mem)
  simp only [Adapter.unnotified]
  split
  · refine (told.clearPendingApproval request.room entry).finish ?_ going (by simp)
    rw [clearPendingApproval_requests]
    exact known
  · exact told.goOn known going (by simp) (by simp)

theorem Kept.proceed {reply : Option ApprovalReply} (set : s.futures n = some reply) :
    (s.proceed core n request reply).Kept core options := by
  unfold Adapter.proceed
  split
  · exact kept.conclude known going nofun
  refine kept.goOn known going ?_ nofun
  rintro given ⟨⟩
  exact set

theorem Kept.timeLimit (entry : DecisionEntry PendingApproval) :
    (s.timeLimit core n request entry).Kept core options := by
  unfold Adapter.timeLimit
  split
  · rename_i reply set
    exact kept.proceed known going set
  · have told : (s.tell core request.registry (.waitTimedOut entry)).Kept core options := by
      have stepped : Decisions.step core (s.registries request.registry) (.waitTimedOut entry) =
          some ((s.registries request.registry).recordClaim entry
            ((s.registries request.registry).registry.claim core none entry).1
            ((s.registries request.registry).registry.claim core none entry).2) := rfl
      refine kept.tell stepped ?_
      intro other mem
      rw [recordClaim_registry, claim_entries] at mem
      exact .inl mem
    dsimp only
    split
    · exact told.goOn known going nofun nofun
    · exact told.goOn known going nofun nofun

end

end

theorem Kept.resume {input : Input}
    (ran : s.resume core views options n input = some s') : s'.Kept core options := by
  obtain ⟨request, known, went⟩ := Option.bind_eq_some_iff.1 ran
  have going : request.phase ≠ .ended := by
    intro over_
    rw [over_] at went
    cases went
  clear ran
  split at went
  · cases went
  · rename_i phase
    cases went
    exact kept.conclude known going fun _ => kept.announcing n request known phase
  · split at went
    · cases went
      exact kept.goOn known going nofun nofun
    · rename_i entry _ _ _ _
      cases went
      exact kept.unnotified known going entry
  · cases went
    exact kept.goOn known going nofun nofun
  · rename_i entry _ _ _
    cases went
    exact kept.unnotified known going entry
  · rename_i entry _ _ _
    cases went
    refine (kept.clearPendingApproval request.room entry).goOn ?_ going nofun nofun
    rw [clearPendingApproval_requests]
    exact known
  · obtain ⟨reply, set, rfl⟩ := Option.map_eq_some_iff.1 went
    exact kept.proceed known going set
  · cases went
  · rename_i entry _ _
    cases went
    exact kept.timeLimit known going entry
  · rename_i reply _ phase
    cases went
    refine kept.conclude known going ?_
    intro accepts
    obtain ⟨request', entry, found, its, names⟩ := kept.replied n reply (kept.replying n request reply known phase)
    cases known.symm.trans found
    exact ⟨accepts, entry, its, names⟩
  · cases went
    exact kept.conclude known going fun accepts => accepts
  · cases went
  cases went
  obtain ⟨left, requests⟩ := kept.leave request
  exact left.goOn (by rw [requests, known]) going nofun nofun

end

/-! ### The room -/

/-- What a command comes to: nothing, a claim that fails, or the settlement of the entry it claims. -/
theorem handleApprovalCommand_cases (documented : Documented core slots) (viewed : views.Documented slots)
    (kept : s.Kept core options) (room : String) (accepts : Bool) (args content senderId : String) :
    s.handleApprovalCommand core views options room accepts args content senderId = s ∨
    ∃ object token, Keyed.get room s.pendingApprovals = some object ∧ options.authorized senderId = true ∧
      (Text.strip args = token ∨ Text.strip args = "" ∧ s.awaiting object = [token]) ∧
      s.handleApprovalCommand core views options room accepts args content senderId =
        match ((s.registry object).tryClaim core token).1 with
        | none => s.tell core object (.tryClaim token)
        | some entry => (s.tell core object (.tryClaim token)).setResult entry.payload.future
            (some ⟨accepts, senderId, content, s.awaiting object⟩) := by
  unfold handleApprovalCommand
  split
  · exact .inl rfl
  rename_i authorized
  split
  · exact .inl rfl
  rename_i object opened
  dsimp only
  split
  · exact .inl rfl
  rename_i token named
  refine .inr ⟨object, token, opened, by simpa using authorized, ?_, rfl⟩
  split at named
  next bare =>
    split at named
    · rename_i only alone
      cases named
      have view := (kept.sound documented object).unclaimed_eq (viewed.unclaimed _)
      have alone' : (s.registry object).entries.filter
          (· ∉ (s.registries object).ledger.claims) = [only] := view.symm.trans alone
      exact .inr ⟨bare, by rw [awaiting, alone', map_singleton]⟩
    · cases named
  next => exact .inl (Option.some.inj named)

theorem Kept.tellClaim (kept : s.Kept core options) (object : Nat) (token : String) :
    (s.tell core object (.tryClaim token)).Kept core options := by
  refine kept.tell rfl ?_
  intro other mem
  have still : other ∈ ((s.registry object).tryClaim core token).2.entries := mem
  rw [tryClaim_entries] at still
  exact .inl still

section

variable (documented : Documented core slots) (viewed : views.Documented slots)
  (kept : s.Kept core options)
include documented viewed kept

theorem Kept.handleApprovalCommand {room args content senderId : String} {accepts : Bool}
    (is : extractCommand content = some (if accepts then .approve else .decline, args)) :
    (s.handleApprovalCommand core views options room accepts args content senderId).Kept core options := by
  rcases handleApprovalCommand_cases documented viewed kept room accepts args content senderId with
    same | ⟨object, token, opened, authorized, names, same⟩
  · rw [same]
    exact kept
  · have told := kept.tellClaim object token
    rw [same]
    split
    · exact told
    rename_i entry claimed
    obtain ⟨known, first⟩ := (kept.sound documented object).tryClaim_first documented claimed
    obtain ⟨held, its⟩ := get_some known
    have loose : (s.tell core object (.tryClaim token)).Loose entry := by
      refine kept.loose told held first rfl rfl ?_
      intro _
      have stepped : Decisions.step core (s.registries object) (.tryClaim token) =
          some { registry := ((s.registry object).tryClaim core token).2
                 ledger := { (s.registries object).ledger with claims :=
                    (s.registries object).ledger.claims ++ ((s.registry object).tryClaim core token).1.toList } } :=
        rfl
      rw [tell_same stepped, claimed]
      exact mem_append_right _ (mem_singleton_self entry)
    refine told.setResult loose ?_
    rintro given ⟨⟩
    refine ⟨authorized, args, is, ?_⟩
    rwa [its]

theorem Kept.tryHandleControl (room content senderId : String) :
    (s.tryHandleControl core views options room content senderId).Kept core options := by
  unfold Adapter.tryHandleControl
  split
  · rename_i args is
    exact kept.handleApprovalCommand documented viewed is
  · rename_i args is
    exact kept.handleApprovalCommand documented viewed is
  · exact kept

theorem tryHandleControl_settles {room content senderId : String}
    (changed : (s.tryHandleControl core views options room content senderId).futures n ≠ s.futures n) :
    ∃ request, s.requests n = some request ∧ request.room = room := by
  have settles : ∀ accepts args,
      (s.handleApprovalCommand core views options room accepts args content senderId).futures n ≠ s.futures n →
      ∃ request, s.requests n = some request ∧ request.room = room := by
    intro accepts args changed
    rcases handleApprovalCommand_cases documented viewed kept room accepts args content senderId with
      same | ⟨object, token, opened, -, -, same⟩
    · rw [same] at changed
      exact absurd rfl changed
    · rw [same] at changed
      split at changed
      · exact absurd rfl changed
      rename_i entry claimed
      obtain ⟨known, -⟩ := (kept.sound documented object).tryClaim_first documented claimed
      obtain ⟨request, found, registry, its⟩ := kept.placed object entry (get_some known).1
      by_cases other : n = entry.payload.future
      · subst other
        exact ⟨request, found, (kept.rooms room object opened).2 _ request entry found its registry⟩
      · exact absurd (by simp [setResult, other, tell]) changed
  unfold tryHandleControl at changed
  split at changed
  · exact settles _ _ changed
  · exact settles _ _ changed
  · exact absurd rfl changed

end

theorem Kept.onTurnComplete (kept : s.Kept core options) (room : String) (isError : Bool)
    (denials : List Denial) : (s.onTurnComplete options room isError denials).Kept core options := by
  have popped : Kept core options { s with notifiedDeclines := s.notifiedDeclines.filter (·.1 ≠ room) } :=
    { kept with notified := fun pair mem => kept.notified pair (mem_filter.1 mem).1 }
  unfold Adapter.onTurnComplete
  dsimp only
  split
  · rename_i declined
    refine { popped with answered := ?_ }
    intro pair mem
    rcases mem_concat mem with before | rfl
    · exact kept.answered pair before
    rw [Bool.and_eq_true, declinedTheReply, any_eq_true] at declined
    obtain ⟨-, denial, inside, explains⟩ := declined
    split at explains
    · rename_i id name its called
      rw [decide_eq_true_eq] at explains
      exact ⟨denial, inside, id, name, its, kept.notified _ explains.1, called, explains.2⟩
    · cases explains
  · exact popped

section

variable (documented : Documented core slots)
include documented

theorem Kept.clearPendingApprovalsForRoom (kept : s.Kept core options)
    (room : String) : (s.clearPendingApprovalsForRoom core room).Kept core options := by
  unfold Adapter.clearPendingApprovalsForRoom
  split
  · exact kept
  rename_i object opened
  obtain ⟨r, cancelled, -, none_, -⟩ := (kept.sound documented object).tidy.cancelAll documented
  have stepped : ∃ after, Decisions.step core (s.registries object) .cancelAll = some after ∧
      after.registry = r := ⟨_, rfl, congrArg Prod.snd cancelled⟩
  obtain ⟨after, stepped, its⟩ := stepped
  have told : (s.tell core object .cancelAll).Kept core options := by
    refine kept.tell stepped ?_
    intro other mem
    rw [its, none_] at mem
    cases mem
  have waited : ((s.registry object).cancelAll core).1.toOption.getD [] =
      (s.registries object).registry.entries.filter (· ∉ (s.registries object).ledger.claims) := by
    rw [registry, cancelled]
    rfl
  have erased := told.erase room
  rw [waited]
  refine erased.force ?_ ?_
  · exact (List.Nodup.of_map _ (kept.sound documented object).tidy.tokens).filter _
  intro entry mem
  obtain ⟨held, unclaimed⟩ := mem_filter.1 mem
  refine kept.loose erased held (by simpa using unclaimed) rfl rfl ?_
  intro still
  have empty : ((s.tell core object .cancelAll).registry object).entries = [] := by
    rw [registry, tell_same stepped, its, none_]
  have still' : entry ∈ ((s.tell core object .cancelAll).registry object).entries := still
  rw [empty] at still'
  cases still'

/-! ### Every step -/

theorem Kept.step (viewed : views.Documented slots)
    (kept : s.Kept core options) {event : Event} (stepped : s.step core views options event = some s') :
    s'.Kept core options := by
  cases event with
  | request room residency origin toolName summary toolUseId retained =>
    cases stepped
    exact kept.canUseTool documented rfl origin _ summary retained
  | resume n input => exact kept.resume stepped
  | message room content senderId =>
    cases stepped
    exact kept.tryHandleControl documented viewed room content senderId
  | turnComplete room isError denials =>
    cases stepped
    exact kept.onTurnComplete room isError denials
  | cleanup room =>
    cases stepped
    exact kept.clearPendingApprovalsForRoom documented room
  | forgetRoom room =>
    cases stepped
    exact { kept with notified := fun pair mem => kept.notified pair (mem_filter.1 mem).1 }
  | cleanupAll =>
    obtain rfl := Option.some.inj stepped
    generalize s.pendingApprovals.map Prod.fst = rooms
    induction rooms generalizing s with
    | nil => exact kept
    | cons room rest ih => exact ih (kept.clearPendingApprovalsForRoom documented room) rfl
  | residency residency speaks | turn turn authoritative =>
    cases stepped
    exact { kept with }

theorem kept_of_reachable (viewed : views.Documented slots)
    (reached : (adapter core views options).Reachable s) : s.Kept core options := by
  refine reached.invariant ?_ ?_
  · rintro _ rfl
    exact {
      runs := fun _ => ⟨_, rfl, Machine.Reaches.refl _⟩
      fresh := fun _ _ => rfl
      placed := nofun
      used := nofun
      rooms := nofun
      apart := nofun
      waiting := nofun
      replied := nofun
      replying := nofun
      announcing := nofun
      settled := nofun
      unsettled := fun _ set => absurd rfl set
      once := nodup_nil
      ended := nofun
      returned := nodup_nil
      notified := nofun
      answered := nofun }
  · exact fun s event s' kept stepped => kept.step documented viewed stepped

end

/-! ### What a step returns -/

/-- Nothing is returned, and authority is as it was. -/
structure Quiet (s s' : Adapter C) : Prop where
  results : s'.results = s.results
  speaks : s'.speaks = s.speaks
  authoritative : s'.authoritative = s.authoritative

/-- At most one callback returns, with the authority there is. -/
def Returns (s s' : Adapter C) : Prop :=
  s'.results = s.results ∨ ∃ n request allowed cause, s'.requests n = some request ∧ s'.results =
    s.results ++ [⟨n, allowed && s.speaks request.residency && s.authoritative request.turn, cause⟩]

theorem Quiet.refl (s : Adapter C) : Quiet s s := ⟨rfl, rfl, rfl⟩

theorem Quiet.trans {t : Adapter C} (first : Quiet s s') (second : Quiet s' t) : Quiet s t :=
  ⟨second.results.trans first.results, second.speaks.trans first.speaks,
    second.authoritative.trans first.authoritative⟩

theorem Quiet.returns (quiet : Quiet s s') : Returns s s' := .inl quiet.results

theorem quiet_tell {event : Decisions.Event PendingApproval} : Quiet s (s.tell core object event) :=
  ⟨rfl, rfl, rfl⟩

theorem quiet_setPhase {phase : Phase} : Quiet s (s.setPhase n request phase) := ⟨rfl, rfl, rfl⟩

theorem Quiet.finish (quiet : Quiet s s') {allowed : Bool} {cause : Cause} :
    Returns s (s'.finish n request allowed cause) := by
  refine .inr ⟨n, { request with phase := .ended }, allowed, cause, ?_, ?_⟩
  · simp [Adapter.finish, setPhase]
  · rw [← quiet.results, ← quiet.speaks, ← quiet.authoritative]
    rfl

theorem quiet_clearPendingApproval (room : String) (entry : DecisionEntry PendingApproval) :
    Quiet s (s.clearPendingApproval core room entry) := by
  unfold clearPendingApproval
  split
  · exact .refl s
  dsimp only
  split
  · exact ⟨rfl, rfl, rfl⟩
  · exact quiet_tell

theorem quiet_leave (request : Request) : Quiet s (s.leave core request) := by
  unfold leave
  split
  · exact .refl s
  · exact quiet_tell.trans (quiet_clearPendingApproval ..)

theorem quiet_force (removed : List (DecisionEntry PendingApproval)) : Quiet s (s.force removed) := by
  induction removed generalizing s with
  | nil => exact .refl s
  | cons first rest ih =>
    have settled : Quiet s (s.setResult first.payload.future none) := ⟨rfl, rfl, rfl⟩
    exact settled.trans ih

theorem returns_conclude {allowed notified : Bool} {cause : Cause} :
    Returns s (s.conclude core n request allowed notified cause) := by
  refine Quiet.finish (Quiet.trans ?_ (quiet_leave request))
  split
  · exact ⟨rfl, rfl, rfl⟩
  · exact .refl s

theorem returns_proceed {reply : Option ApprovalReply} : Returns s (s.proceed core n request reply) := by
  unfold proceed
  split
  · exact returns_conclude
  · exact quiet_setPhase.returns

theorem returns_unnotified : Returns s (s.unnotified core n request entry) := by
  simp only [unnotified]
  split
  · exact (quiet_tell.trans (quiet_clearPendingApproval ..)).finish
  · exact (quiet_tell.trans quiet_setPhase).returns

theorem returns_timeLimit : Returns s (s.timeLimit core n request entry) := by
  unfold timeLimit
  split
  · exact returns_proceed
  dsimp only
  split
  · exact (quiet_tell.trans quiet_setPhase).returns
  · exact (quiet_tell.trans quiet_setPhase).returns

theorem returns_resume {input : Input} (ran : s.resume core views options n input = some s') :
    Returns s s' := by
  obtain ⟨request, -, went⟩ := Option.bind_eq_some_iff.1 ran
  clear ran
  split at went
  · cases went
  · cases went
    exact returns_conclude
  · split at went
    · cases went
      exact quiet_setPhase.returns
    · cases went
      exact returns_unnotified
  · cases went
    exact quiet_setPhase.returns
  · cases went
    exact returns_unnotified
  · cases went
    exact ((quiet_clearPendingApproval ..).trans quiet_setPhase).returns
  · obtain ⟨reply, -, rfl⟩ := Option.map_eq_some_iff.1 went
    exact returns_proceed
  · cases went
  · cases went
    exact returns_timeLimit
  · cases went
    exact returns_conclude
  · cases went
    exact returns_conclude
  · cases went
  · cases went
    exact ((quiet_leave request).trans quiet_setPhase).returns

theorem quiet_requestManual {toolName summary : String} {retained : Bool} :
    Quiet s (s.requestManual core request toolName summary retained) := by
  have opened : ∀ t : Adapter C, Quiet t (t.openRegistry request.room).2 := by
    intro t
    unfold openRegistry
    split
    · exact .refl t
    · exact ⟨rfl, rfl, rfl⟩
  have registered : ∀ (t : Adapter C) request pending token, Quiet t
      (t.register core request pending token retained) := by
    intro t request pending token
    simp only [register]
    split
    · exact ⟨rfl, rfl, rfl⟩
    have told : Quiet t { t.tell core request.registry (.registerKeyed pending token) with
        made := t.made + 1 } := ⟨rfl, rfl, rfl⟩
    exact (told.trans (quiet_force _)).trans quiet_setPhase
  have token : Quiet s (s.nextApprovalToken request.room).2 := ⟨rfl, rfl, rfl⟩
  exact (token.trans (opened _)).trans (registered ..)

theorem returns_canUseTool {origin : Option Nat} {toolName summary : String} {retained : Bool} :
    Returns s (s.canUseTool core options request origin toolName summary retained) := by
  have entered : Quiet s { s with made := s.made + 1 } := ⟨rfl, rfl, rfl⟩
  unfold canUseTool
  split
  · dsimp only
    split
    · exact entered.finish
    split
    · exact quiet_requestManual.returns
    split
    · exact (entered.trans quiet_setPhase).returns
    · exact entered.finish
  · exact entered.finish

theorem quiet_clearPendingApprovalsForRoom (room : String) :
    Quiet s (s.clearPendingApprovalsForRoom core room) := by
  unfold clearPendingApprovalsForRoom
  split
  · exact .refl s
  rename_i object _
  have dropped : Quiet s { s.tell core object .cancelAll with
      pendingApprovals := erase room s.pendingApprovals } := ⟨rfl, rfl, rfl⟩
  exact dropped.trans (quiet_force _)

theorem quiet_tryHandleControl (room content senderId : String) :
    Quiet s (s.tryHandleControl core views options room content senderId) := by
  have handled : ∀ accepts args,
      Quiet s (s.handleApprovalCommand core views options room accepts args content senderId) := by
    intro accepts args
    unfold handleApprovalCommand
    split
    · exact .refl s
    split
    · exact .refl s
    dsimp only
    split
    · exact .refl s
    split
    · exact quiet_tell
    · exact ⟨rfl, rfl, rfl⟩
  unfold tryHandleControl
  split
  · exact handled _ _
  · exact handled _ _
  · exact .refl s

/-- A step returns with the authority it finds. -/
theorem returns_step {event : Event} (stepped : s.step core views options event = some s') : Returns s s' := by
  cases event with
  | request room residency origin toolName summary toolUseId retained =>
    cases stepped
    exact returns_canUseTool
  | resume n input => exact returns_resume stepped
  | message room content senderId =>
    cases stepped
    exact (quiet_tryHandleControl room content senderId).returns
  | turnComplete room isError denials =>
    cases stepped
    refine .inl ?_
    unfold onTurnComplete
    dsimp only
    split <;> rfl
  | cleanup room =>
    cases stepped
    exact (quiet_clearPendingApprovalsForRoom room).returns
  | forgetRoom room | residency residency speaks | turn turn authoritative =>
    cases stepped
    exact .inl rfl
  | cleanupAll =>
    obtain rfl := Option.some.inj stepped
    refine Quiet.returns ?_
    generalize s.pendingApprovals.map Prod.fst = rooms
    induction rooms generalizing s with
    | nil => exact .refl s
    | cons room rest ih => exact (quiet_clearPendingApprovalsForRoom room).trans (ih rfl)

end Adapter

section Main

variable {C : Type} {core : Core C} {views : Views C} {slots : C → List Slot} {options : Options} {s : Adapter C}

/-- **Nothing is allowed unasked.**  In every run of a manual adapter an allowed request was claimed by
an `/approve` of an authorized sender that named its token, or named none while it was the room's only
one that awaited an answer, or its wait timed out and timeouts accept.  In every mode an allowance is
returned with the residency and the turn in authority; a request is settled and returns at most once; a
room message settles requests of its own room only, that are there when it comes; and a turn counts as
answered by a decline only if a decline notice of one of its own denied calls reached the room. -/
theorem allows_asked (documented : Documented core slots) (viewed : views.Documented slots)
    (reached : (adapter core views options).Reachable s) :
    (options.mode = .manual → ∀ result ∈ s.results, result.allowed = true → ∃ request,
      s.requests result.request = some request ∧
        ((∃ reply entry, result.cause = .replied reply ∧ reply.accepts = true ∧
          request.entry = some entry ∧ Names options entry.token reply) ∨
        result.cause = .timedOut ∧ options.timeoutAccepts = true)) ∧
    (∀ event s', s.step core views options event = some s' →
      ∀ result ∈ s'.results, result ∉ s.results → result.allowed = true → ∃ request,
        s'.requests result.request = some request ∧ s.speaks request.residency = true ∧
          s.authoritative request.turn = true) ∧
    s.settled.Nodup ∧ (s.results.map Result.request).Nodup ∧
    (∀ room content senderId s', s.step core views options (.message room content senderId) = some s' →
      ∀ n, s'.futures n ≠ s.futures n → ∃ request, s.requests n = some request ∧ request.room = room) ∧
    (∀ pair ∈ s.answered, ∃ denial ∈ pair.2, ∃ id name, denial.toolUseId = some id ∧
      (pair.1, id) ∈ s.delivered ∧ denial.toolName = some name ∧
        options.didWork (Adapter.semanticToolName name) = true) := by
  have kept := kept_of_reachable documented viewed reached
  refine ⟨?_, ?_, kept.once, kept.returned, ?_, kept.answered⟩
  · intro manual result mem allowed
    obtain ⟨request, known, -, justified⟩ := kept.ended result mem
    refine ⟨request, known, ?_⟩
    have given := justified allowed
    cases why : result.cause with
    | replied reply =>
      rw [why] at given
      obtain ⟨accepts, entry, its, names⟩ := given
      exact .inl ⟨reply, entry, rfl, accepts, its, names⟩
    | timedOut =>
      rw [why] at given
      exact .inr ⟨rfl, given⟩
    | mode | undelivered | forced =>
      rw [why] at given
      exact absurd manual given
  · intro event s' stepped result mem new allowed
    rcases returns_step stepped with same | ⟨n, request, decided, cause, known, longer⟩
    · exact absurd (same ▸ mem) new
    · rw [longer, mem_append, mem_singleton] at mem
      rcases mem with before | rfl
      · exact absurd before new
      · rw [Bool.and_eq_true, Bool.and_eq_true] at allowed
        exact ⟨request, known, allowed.1.2, allowed.2⟩
  · intro room content senderId s' stepped n changed
    cases stepped
    exact tryHandleControl_settles documented viewed kept changed

end Main

/-! ## A room over the unbounded core -/

def unboundedViews : Views (Slots × Nat) where
  unclaimed c := (c.1.1.filter (!·.claimed)).map Slot.token

theorem unboundedViews_documented : unboundedViews.Documented (fun c => c.1.1) where
  unclaimed _ := rfl

def manualOptions : Options where
  mode := .manual
  textNotifications := true
  timeoutAccepts := false
  authorized sender := sender = "ann"
  didWork name := name = "Write"

/-- A request is approved by name. -/
theorem allows_asked_approved : ∃ s, (adapter unboundedCore unboundedViews manualOptions).Reachable s ∧
    ∃ request, s.requests 0 = some request ∧ ∃ reply entry, reply.accepts = true ∧
      request.entry = some entry ∧ Names manualOptions entry.token reply := by
  let reply : ApprovalReply := ⟨true, "ann", "@claude /approve a-1", ["a-1"]⟩
  have ran : ((adapter unboundedCore unboundedViews manualOptions).run
      { registries := fun _ => { registry := { core := unboundedCore.new } } }
      [.request "room" 0 (some 0) "Bash" "Bash: ls" "call-1" true, .resume 0 (.ended .returned true),
        .resume 0 (.ended .returned true), .message "room" "@claude /approve a-1" "ann",
        .resume 0 (.ended .returned true), .resume 0 (.ended .returned true)]).map
      (fun s => s.results) = some [⟨0, true, .replied reply⟩] := by
    rfl
  obtain ⟨s, run, results⟩ := Option.map_eq_some_iff.1 ran
  have reached : (adapter unboundedCore unboundedViews manualOptions).Reachable s := ⟨_, rfl, _, run⟩
  obtain ⟨request, known, ⟨reply', entry, -, rest⟩ | ⟨cause, -⟩⟩ :=
    (allows_asked unboundedCore_documented unboundedViews_documented reached).1 rfl
      ⟨0, true, .replied reply⟩ (by rw [results]; exact mem_singleton_self _) rfl
  · exact ⟨s, reached, request, known, reply', entry, rest⟩
  · cases cause

/-- **Rooms keep their approvals apart.**  No two rooms share a registry, and what a room's registry holds
is an approval of that room, whose future is open until it is claimed. -/
theorem rooms_apart (documented : Documented core slots) (viewed : views.Documented slots)
    (reached : (adapter core views options).Reachable s) {room : String} {object : Nat}
    (its : Keyed.get room s.pendingApprovals = some object) :
    (∀ room', Keyed.get room' s.pendingApprovals = some object → room' = room) ∧
      ∀ entry ∈ (s.registry object).entries, ∃ request, s.requests entry.payload.future = some request ∧
        request.room = room ∧
        (entry ∉ (s.registries object).ledger.claims → s.futures entry.payload.future = none) := by
  have kept := Adapter.kept_of_reachable documented viewed reached
  refine ⟨fun room' its' => kept.apart room' room object its' its, fun entry inside => ?_⟩
  obtain ⟨request, known, place, names⟩ := kept.placed object entry inside
  exact ⟨request, known, (kept.rooms room object its).2 _ request entry known names place, kept.waiting object entry inside⟩

theorem rooms_apart_pending : ∃ s, (adapter unboundedCore unboundedViews manualOptions).Reachable s ∧
    Keyed.get "room" s.pendingApprovals = some 0 ∧
    ∀ room', Keyed.get room' s.pendingApprovals = some 0 → room' = "room" := by
  have ran : ((adapter unboundedCore unboundedViews manualOptions).run
      { registries := fun _ => { registry := { core := unboundedCore.new } } }
      [.request "room" 0 (some 0) "Bash" "Bash: ls" "call-1" true]).map
      (fun s => Keyed.get "room" s.pendingApprovals) = some (some 0) := by
    decide +kernel
  obtain ⟨s, run, its⟩ := Option.map_eq_some_iff.1 ran
  have reached : (adapter unboundedCore unboundedViews manualOptions).Reachable s := ⟨_, rfl, _, run⟩
  exact ⟨s, reached, its, (rooms_apart unboundedCore_documented unboundedViews_documented reached its).1⟩

end BandSdk.ClaudeSdk

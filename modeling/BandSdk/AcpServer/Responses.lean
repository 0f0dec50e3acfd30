/-
# AcpServer.Responses -- every step of the prompts keeps their account

One lemma for each method: the settlement, the request up to its response, the send, the
room's messages and the cleanups.
-/
import BandSdk.AcpServer.Settled

namespace BandSdk.AcpServer

open BandSdk.Theory List Option

namespace Adapter

variable {s s' : Adapter} {p c t : Nat} {pending : PendingACPPrompt} {room : String}

/-! ### Settling -/

section

variable (kept : s.Kept)
include kept

/-- Nothing is pending there but another prompt, or the pending prompt is settled. -/
theorem settlePromptLocked_cases (room : String) (expected : Option Nat) (outcome : Option PromptOutcome) :
    s.settlePromptLocked room expected outcome = s ∧
      (∀ p, s.slot room = some p → expected.all (· = p) = false) ∨
    ∃ p pending, s.slot room = some p ∧ expected.all (· = p) = true ∧ s.prompts p = some pending ∧
      pending.room = room ∧ pending.done = false ∧ s.settlePromptLocked room expected outcome =
        s.settleInto p pending { pending with done := true, outcome := outcome <|> pending.outcome } outcome := by
  unfold settlePromptLocked
  split
  · rename_i none_
    refine .inl ⟨rfl, ?_⟩
    intro p its
    rw [none_] at its
    cases its
  · rename_i p its
    obtain ⟨pending, found, rfl, waits⟩ := kept.known room p its
    split
    · rename_i expects
      refine .inr ⟨p, pending, its, expects, found, rfl, waits, ?_⟩
      rw [found]
      rfl
    · rename_i unexpected
      refine .inl ⟨rfl, ?_⟩
      intro q its'
      obtain rfl := some.inj (its.symm.trans its')
      exact Bool.eq_false_iff.2 unexpected

theorem Kept.settle (room : String) (expected : Option Nat) {outcome : PromptOutcome}
    (ends : outcome = .endTurn → ∀ p, s.slot room = some p → expected.all (· = p) = true → s.Replied p) :
    (s.settlePromptLocked room expected (some outcome)).Kept := by
  rcases settlePromptLocked_cases kept room expected (some outcome) with
    ⟨same, -⟩ | ⟨p, pending, its, expects, found, -, waits, same⟩
  · rw [same]
    exact kept
  · rw [same]
    refine kept.settleInto found waits rfl (fun o its => .inl its) rfl rfl nofun ?_
    exact fun its' => ends (some.inj its') p its expects

theorem settle_expected (found : s.prompts p = some pending) (outcome : Option PromptOutcome) :
    ∃ after, (s.settlePromptLocked pending.room (some p) outcome).prompts p = some after ∧
      after.room = pending.room ∧ after.phase = pending.phase ∧ after.done = true := by
  rcases settlePromptLocked_cases kept pending.room (some p) outcome with
    ⟨same, other⟩ | ⟨q, held, -, expects, found', -, -, same⟩
  · rw [same]
    refine ⟨pending, found, rfl, rfl, ?_⟩
    by_contra waits
    have its := other p (kept.unsettled p pending found (Bool.eq_false_iff.2 waits))
    simp at its
  · obtain rfl : p = q := by simpa using expects
    cases found.symm.trans found'
    rw [same]
    exact ⟨_, settleInto_prompts, rfl, rfl, rfl⟩

omit kept in
theorem settleInto_setPrompt {first second : PendingACPPrompt} {outcome : Option PromptOutcome} :
    (s.settleInto p pending first outcome).setPrompt p second = s.settleInto p pending second outcome := by
  simp [settleInto, setPrompt, note]

/-! ### `handle_prompt` -/

theorem Kept.leaveTry (found : s.prompts p = some pending) (inRoom : pending.room = room)
    (going : pending.phase ≠ .ended) (closing : ∀ raising, pending.phase ≠ .closing raising) {raising : Bool}
    (settled : raising = false → pending.done = true) : (s.leaveTry p room raising).Kept := by
  subst inRoom
  unfold Adapter.leaveTry
  rcases settlePromptLocked_cases kept pending.room (some p) none with
    ⟨same, other⟩ | ⟨q, held, -, expects, found', -, waits, same⟩
  · have over_ : pending.done = true := by
      by_contra waits
      have its := other p (kept.unsettled p pending found (Bool.eq_false_iff.2 waits))
      simp at its
    simp only [same, found]
    refine kept.move found rfl rfl rfl (kept.posted p pending found) (kept.replied p pending found)
      (fun _ => over_) ?_ (fun ended => absurd ended going)
    intro _ none_
    rcases kept.raising p pending found over_ none_ with its | its
    · exact absurd its (closing true)
    · exact absurd its going
  · obtain rfl : p = q := by simpa using expects
    cases found.symm.trans found'
    have raises : raising = true := by
      by_contra quiet
      rw [settled (Bool.eq_false_iff.2 quiet)] at waits
      cases waits
    subst raises
    simp only [same, settleInto_prompts, settleInto_setPrompt]
    exact kept.settleInto found waits rfl (fun o its => .inr its) rfl rfl (fun _ => .inl rfl) nofun

/-- A settlement of its own, and out. -/
theorem Kept.settleLeave (found : s.prompts p = some pending)
    (going : pending.phase ≠ .ended) (closing : ∀ raising, pending.phase ≠ .closing raising)
    (failure : AgentFailure) :
    ((s.settlePromptLocked pending.room (some p) (some (.failure failure))).leaveTry p pending.room
      false).Kept := by
  obtain ⟨after, found', inRoom, phase, over_⟩ :=
    settle_expected kept found (some (.failure failure))
  have settled := @Kept.settle s kept pending.room (some p) (.failure failure) nofun
  refine settled.leaveTry found' inRoom ?_ ?_ fun _ => over_
  · rwa [phase]
  · rwa [phase]

theorem Kept.handlePrompt (session : String) : (s.handlePrompt session).Kept := by
  unfold Adapter.handlePrompt
  split
  · exact kept
  rename_i room _
  split
  · exact kept
  rename_i empty
  have fresh := kept.fresh s.made (Nat.le_refl _)
  let pending : PendingACPPrompt := { sessionId := session, room := room }
  have elsewhere : ∀ q other, s.prompts q = some other → q ≠ s.made := by
    rintro q other held rfl
    rw [fresh] at held
    cases held
  have slots : ∀ other, Keyed.get other (Keyed.setItem room s.made s.pendingPrompts) =
      if room = other then some s.made else s.slot other := fun other => Keyed.get_setItem
  have each := @each_prompt s (s.setPrompt s.made pending) s.made pending setPrompt_same fun _ =>
    setPrompt_other
  have stays : ∀ q other, s.prompts q = some other →
      (s.setPrompt s.made pending).prompts q = some other := by
    intro q other held
    exact (setPrompt_other (elsewhere q other held)).trans held
  refine { kept with
    fresh := ?_, known := ?_, unsettled := ?_, settled := ?_, outcome := ?_, closed := ?_, raising := ?_
    posted := ?_, replied := ?_, returned := ?_ }
  · intro n late
    have late : s.made + 1 ≤ n := late
    exact (setPrompt_other (by omega)).trans (kept.fresh n (by omega))
  · intro other q its
    have its := (slots other).symm.trans its
    split at its
    · rename_i same
      cases its
      exact ⟨pending, setPrompt_same, same, rfl⟩
    · obtain ⟨before, held, rest⟩ := kept.known other q its
      exact ⟨before, stays q before held, rest⟩
  · refine each ?_ fun q other held waits => ?_
    · exact fun _ => (slots room).trans (if_pos rfl)
    have its := kept.unsettled q other held waits
    refine (slots other.room).trans ?_
    rw [if_neg]
    · exact its
    rintro rfl
    rw [empty] at its
    cases its
  · intro q
    refine (kept.settled q).trans ⟨?_, ?_⟩
    · rintro ⟨before, held, over_⟩
      exact ⟨before, stays q before held, over_⟩
    · rintro ⟨after, held, over_⟩
      by_cases same : q = s.made
      · subst same
        cases setPrompt_same.symm.trans held
        cases over_
      · exact ⟨after, (setPrompt_other same).symm.trans held, over_⟩
  · intro q other outcome held its
    refine each (P := fun q other => ∀ outcome, other.outcome = some outcome →
      .settled q (some outcome) ∈ s.log) nofun ?_ q other held outcome its
    exact fun q other held outcome its => kept.outcome q other outcome held its
  · refine each ?_ kept.closed
    rintro (ended | ⟨raising, closing⟩)
    · cases ended
    · cases closing
  · exact each nofun kept.raising
  · exact each nofun kept.posted
  · exact each nofun kept.replied
  intro q outcome mem
  obtain ⟨⟨before, held, ended⟩, order⟩ := kept.returned q outcome mem
  exact ⟨⟨before, stays q before held, ended⟩, order⟩

section

variable (found : s.prompts p = some pending)
include found

theorem Kept.afterWait (going : pending.phase ≠ .ended)
    (closing : ∀ raising, pending.phase ≠ .closing raising) {wake : Wake}
    (went : s.afterWait p pending wake = some s') : s'.Kept := by
  cases wake with
  | ready =>
    simp only [Adapter.afterWait] at went
    split at went
    · rename_i over_
      cases went
      exact kept.leaveTry found rfl going closing fun _ => over_
    · split at went
      · cases went
        exact kept.goOn found going closing nofun nofun
      · cases went
        exact kept.settleLeave found going closing _
      · cases went
        exact kept.leaveTry found rfl going closing nofun
      · cases went
  | timeout =>
    cases went
    exact kept.settleLeave found going closing _
  | cancelled =>
    cases went
    exact kept.leaveTry found rfl going closing nofun

/-- The request is over, with a response or without. -/
theorem Kept.ended (closing : ∃ raising, pending.phase = .closing raising) :
    (s.setPrompt p { pending with phase := .ended }).Kept := by
  have over_ := kept.closed p pending found (.inr closing)
  exact kept.move found rfl rfl rfl (kept.posted p pending found) (kept.replied p pending found)
    (fun _ => over_) (fun _ _ => .inr rfl) (fun _ => rfl)

/-- The response repeats the settlement. -/
theorem Kept.respond {outcome : PromptOutcome} (ended : pending.phase = .ended) (its : pending.outcome = some outcome) :
    (s.note (.returned p outcome)).Kept := by
  refine kept.grow rfl ?_ nofun
  rintro q o same
  obtain ⟨rfl, rfl⟩ := Note.returned.inj same
  exact ⟨kept.outcome p pending outcome found its, pending, found, ended⟩

end

theorem Kept.resumePrompt {wake : Wake} (ran : s.resumePrompt p wake = some s') : s'.Kept := by
  obtain ⟨pending, found, went⟩ := bind_eq_some_iff.1 ran
  clear ran
  split at went
  · rename_i phase
    obtain ⟨-, ⟨⟩⟩ := of_passed went
    exact kept.goOn found (by simp [phase]) (by simp [phase]) nofun nofun
  · rename_i phase _
    cases went
    exact kept.goOn found (by simp [phase]) (by simp [phase]) nofun nofun
  · rename_i phase
    exact kept.afterWait found (by simp [phase]) (by simp [phase]) went
  · rename_i phase
    obtain ⟨over_, ⟨⟩⟩ := of_passed went
    exact kept.leaveTry found rfl (by simp [phase]) (by simp [phase]) fun _ => over_
  · rename_i phase _
    exact kept.afterWait found (by simp [phase]) (by simp [phase]) went
  · rename_i raising phase
    have ended := kept.ended found ⟨raising, phase⟩
    obtain ⟨-, went⟩ := of_passed went
    dsimp only at went
    split at went
    · cases went
      exact ended
    · rename_i quiet
      split at went
      · rename_i outcome its
        cases went
        exact ended.respond setPrompt_same rfl its
      · rename_i none_
        have over_ := kept.closed p pending found (.inr ⟨raising, phase⟩)
        rcases kept.raising p pending found over_ none_ with its | its
        · rw [phase] at its
          cases its
          exact absurd rfl quiet
        · rw [phase] at its
          cases its
  · rename_i raising phase
    cases went
    exact kept.ended found ⟨raising, phase⟩
  · cases went
  · cases went

/-! ### The send -/

/-- A change of what only the send reads. -/
theorem Kept.setSend (found : s.prompts p = some pending) (send : Send) :
    (s.setPrompt p { pending with send := send }).Kept :=
  kept.move found rfl rfl rfl (kept.posted p pending found) (kept.replied p pending found)
    (kept.closed p pending found) (kept.raising p pending found) id

theorem Kept.resumeSend {outcome : Outcome} {accepted : Bool}
    (ran : s.resumeSend p outcome accepted = some s') : s'.Kept := by
  obtain ⟨pending, found, went⟩ := bind_eq_some_iff.1 ran
  clear ran
  split at went
  · cases went
  · cases went
    exact kept.setSend found _
  · obtain ⟨-, went⟩ := of_barred went
    split at went
    · cases went
      exact kept.setSend found _
    · split at went
      · cases went
        -- the note is there before the flag that stands for it
        have noted : (s.note (.posted p)).Kept := kept.grow rfl nofun nofun
        have moved := @Kept.move _ p pending { pending with send := .over .returned, posted := true } noted
          found rfl rfl rfl (fun _ => mem_append_right _ (mem_singleton_self _))
          (noted.replied p pending found) (noted.closed p pending found) (noted.raising p pending found) id
        exact moved
      · cases went
        exact kept.setSend found _
    · cases went
      exact kept.setSend found _

/-! ### `on_message` -/

omit kept in
theorem rehydrate_cases (history : List (String × String)) :
    ∃ sessions rooms, s.rehydrate history = { s with sessionToRoom := sessions, roomToSession := rooms } := by
  unfold rehydrate
  induction history generalizing s with
  | nil => exact ⟨_, _, rfl⟩
  | cons pair rest ih =>
    obtain ⟨session, room⟩ := pair
    rw [foldl_cons]
    dsimp only
    split
    · exact ih
    · exact ih

theorem Kept.sessions (sessions rooms : List (String × String)) :
    Kept { s with sessionToRoom := sessions, roomToSession := rooms } := { kept with }

theorem Kept.schedule (found : s.prompts p = some pending) (replied : s.Replied p)
    {event : RoomEvent} (came : [.posted p, .attributed c p event].Sublist s.log) :
    (s.schedule c room p pending event).Kept := by
  unfold Adapter.schedule
  split
  · have started : ((s.cancelTimer pending.completionTask).setTimer s.made (some ⟨room, p⟩)).Kept := by
      refine (kept.cancelTimer _).setTimer ?_
      rintro its ⟨⟩
      exact replied.grow ((cancelTimer_log _).trans (append_nil _).symm)
    have moved := @Kept.move _ p pending { pending with completionTask := some s.made } started
      ((congrFun (cancelTimer_prompts _) p).trans found) rfl rfl rfl
      (started.posted p pending ((congrFun (cancelTimer_prompts _) p).trans found))
      (started.replied p pending ((congrFun (cancelTimer_prompts _) p).trans found))
      (kept.closed p pending found) (kept.raising p pending found) id
    have counted := moved.count
    have made : (((s.cancelTimer pending.completionTask).setTimer s.made (some ⟨room, p⟩)).setPrompt p
        { pending with completionTask := some s.made }).made = s.made := cancelTimer_made _
    rw [made] at counted
    refine counted.setMessage ?_
    intro its same
    obtain ⟨u, -, rfl⟩ := map_eq_some_iff.1 same
    rwa [← cancelTimer_log pending.completionTask] at came
  · exact kept.setMessage nofun

theorem Kept.afterForward {event : RoomEvent}
    (came : [.posted p, .attributed c p event].Sublist s.log) : (s.afterForward c room p event).Kept := by
  have noted : (s.note (.forwarded c)).Kept := kept.grow rfl nofun nofun
  have came' : [.posted p, .attributed c p event].Sublist (s.note (.forwarded c)).log :=
    came.trans (sublist_append_left ..)
  unfold Adapter.afterForward
  dsimp only
  split
  · rename_i pending text found
    have replied : (s.note (.forwarded c)).Replied p := ⟨c, event, text, sublist_snoc came⟩
    have moved := @Kept.move _ p pending { pending with replyStarted := true } noted found rfl rfl rfl
      (noted.posted p pending found) (fun _ => replied) (noted.closed p pending found)
      (noted.raising p pending found) id
    exact moved.schedule setPrompt_same replied came'
  · rename_i pending _ found
    split
    · rename_i started
      exact noted.schedule found (noted.replied p pending found started) came'
    · exact noted.setMessage nofun
  · exact noted.setMessage nofun

theorem Kept.forwarding {event : RoomEvent} (came : [.posted p, .attributed c p event].Sublist s.log) :
    (s.setMessage c (some ⟨room, p, event, .forwarding⟩)).Kept := by
  refine kept.setMessage ?_
  rintro call ⟨⟩
  exact came

theorem Kept.settleFailed (room : String) (kind : Kind) {event : RoomEvent}
    (came : [.posted p, .attributed c p event].Sublist s.log) :
    (s.settleFailed room p kind).Kept ∧
      [.posted p, .attributed c p event].Sublist (s.settleFailed room p kind).log := by
  cases kind with
  | error failure =>
    refine ⟨@Kept.settle s kept room (some p) (.failure failure) nofun, ?_⟩
    simp only [Adapter.settleFailed]
    rcases settlePromptLocked_cases kept room (some p) (some (.failure failure)) with
      ⟨same, -⟩ | ⟨q, pending, -, -, -, -, -, same⟩
    · rw [same]
      exact came
    · rw [same, settleInto_log]
      exact came.trans (sublist_append_left ..)
  | text | other => exact ⟨kept, came⟩

/-- What is attributed goes to the pending prompt of the room, whose post was accepted. -/
theorem attributable_eq (its : s.attributable room = some p) : s.slot room = some p ∧ .posted p ∈ s.log := by
  obtain ⟨slot, posted⟩ := filter_eq_some_iff.1 its
  obtain ⟨pending, found, -, -⟩ := kept.known room p slot
  refine ⟨slot, kept.posted p pending found ?_⟩
  simpa [found] using posted

theorem Kept.onMessage (room : String) (event : RoomEvent) (history : List (String × String)) :
    (s.onMessage room event history).Kept := by
  obtain ⟨sessions, rooms, same⟩ := @rehydrate_cases s history
  unfold Adapter.onMessage
  rw [same]
  have kept := kept.sessions sessions rooms
  generalize ({ s with sessionToRoom := sessions, roomToSession := rooms } : Adapter) = s at kept
  dsimp only
  split
  · exact kept
  rename_i p its
  obtain ⟨-, posted⟩ := attributable_eq kept its
  have noted : ({ s with made := s.made + 1 }.note (.attributed s.made p event)).Kept :=
    kept.count.grow rfl nofun nofun
  have came : [.posted p, .attributed s.made p event].Sublist
      ({ s with made := s.made + 1 }.note (.attributed s.made p event)).log :=
    sublist_snoc (singleton_sublist.2 posted)
  obtain ⟨settled, came'⟩ := noted.settleFailed room event.kind came
  split
  · exact (settled.forwarding came').grow rfl nofun nofun
  · exact settled.afterForward came'

theorem Kept.resumeMessage {ended : Ended} (ran : s.resumeMessage c ended = some s') : s'.Kept := by
  obtain ⟨call, found, rfl⟩ := map_eq_some_iff.1 ran
  have came := kept.calls c call found
  split
  · exact kept.afterForward came
  · exact kept.afterForward came
  · exact kept.setMessage nofun

/-! ### Every step -/

theorem Kept.step {event : Event} (stepped : s.step event = some s') : s'.Kept := by
  cases event with
  | openSession session room | rollBack session room =>
    cases stepped
    exact kept.sessions _ _
  | prompt session =>
    cases stepped
    exact kept.handlePrompt session
  | handler p wake => exact kept.resumePrompt stepped
  | send p outcome accepted => exact kept.resumeSend stepped
  | message room event history =>
    cases stepped
    exact kept.onMessage room event history
  | resume c ended => exact kept.resumeMessage stepped
  | expire t =>
    obtain ⟨timer, found, rfl⟩ := map_eq_some_iff.1 stepped
    have over_ : (s.setTimer t none).Kept := kept.setTimer nofun
    refine over_.settle _ _ ?_
    intro _ p _ expects
    obtain rfl : timer.prompt = p := by simpa using expects
    exact kept.timed t timer found
  | cancelPrompt session =>
    cases stepped
    unfold Adapter.cancelPrompt
    split
    · exact kept
    split
    · exact kept
    · exact kept.settle _ _ nofun
  | cleanup room =>
    cases stepped
    have settled := @Kept.settle s kept room none (.failure roomClosed) nofun
    unfold Adapter.onCleanup
    dsimp only
    split
    · exact settled.sessions _ _
    split
    · exact settled.sessions _ _
    · exact settled.sessions _ _
  | cleanupAll =>
    obtain rfl := some.inj stepped
    unfold Adapter.cleanupAll
    generalize s.pendingPrompts.map Prod.fst = rooms
    induction rooms generalizing s with
    | nil => exact kept
    | cons room rest ih => exact ih (kept.settle room none nofun) rfl

end

theorem kept_initial : Kept {} := by
  have unknown : ∀ {p pending}, ({} : Adapter).prompts p = some pending → False := fun found => by cases found
  have empty : ∀ {note}, note ∈ ({} : Adapter).log → False := fun mem => by cases mem
  exact {
    fresh := fun _ _ => rfl
    known := fun _ _ its => by cases its
    unsettled := fun _ _ found => (unknown found).elim
    settled := fun _ => ⟨(by rintro ⟨⟩), fun its => (unknown its.choose_spec.1).elim⟩
    once := nodup_nil
    outcome := fun _ _ _ found => (unknown found).elim
    closed := fun _ _ found => (unknown found).elim
    raising := fun _ _ found => (unknown found).elim
    posted := fun _ _ found => (unknown found).elim
    replied := fun _ _ found => (unknown found).elim
    timed := fun _ _ found => by cases found
    calls := fun _ _ found => by cases found
    endTurn := fun _ mem => (empty mem).elim
    returned := fun _ _ mem => (empty mem).elim
    complete := fun _ mem => empty mem }

theorem kept_of_reachable (reached : adapter.Reachable s) : s.Kept := by
  refine reached.invariant ?_ fun s event s' kept stepped => kept.step stepped
  rintro _ rfl
  exact kept_initial

end Adapter

end BandSdk.AcpServer

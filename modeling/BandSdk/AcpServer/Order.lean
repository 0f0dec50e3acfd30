/-
# AcpServer.Order -- what an editor is answered, and when

What a step writes to the log is known from its event.  The order of responses and of the
events they follow comes from the steps that write them.
-/
import BandSdk.AcpServer.Responses

namespace BandSdk.AcpServer

open BandSdk.Theory List Option

namespace Adapter

variable {s s' : Adapter} {p c : Nat} {pending : PendingACPPrompt} {room : String}

/-! ### What a step writes -/

/-- `more` goes to the log, of notes that are all `P`. -/
def Writes (P : Note → Prop) (s s' : Adapter) : Prop := ∃ more, s'.log = s.log ++ more ∧ ∀ note ∈ more, P note

section Writes

variable {P Q : Note → Prop}

theorem Writes.of_eq (same : s'.log = s.log) : Writes P s s' := ⟨[], by simpa using same, nofun⟩

theorem Writes.trans {s'' : Adapter} (first : Writes P s s') (second : Writes P s' s'') : Writes P s s'' := by
  obtain ⟨more, longer, each⟩ := first
  obtain ⟨more', longer', each'⟩ := second
  refine ⟨more ++ more', by rw [longer', longer, append_assoc], ?_⟩
  exact fun note mem => (mem_append.1 mem).elim (each note) (each' note)

theorem Writes.mono (writes : Writes P s s') (weaker : ∀ note, P note → Q note) : Writes Q s s' := by
  obtain ⟨more, longer, each⟩ := writes
  exact ⟨more, longer, fun note mem => weaker note (each note mem)⟩

end Writes

/-- A note of `event` that is no response and attributes nothing. -/
def Quiet (s : Adapter) (event : Event) : Note → Prop
  | .settled p _ => s.Settles event p
  | .returned .. | .attributed .. => False
  | _ => True

/-- A settlement of one of `prompts`. -/
def Settlement (prompts : Nat → Prop) : Note → Prop
  | .settled p _ => prompts p
  | _ => False

theorem Settlement.quiet {prompts : Nat → Prop} {event : Event} {note : Note}
    (settlement : Settlement prompts note) (settles : ∀ p, prompts p → s.Settles event p) :
    s.Quiet event note := by
  cases note with
  | settled p outcome => exact settles p settlement
  | posted p | attributed d p event | updating d | forwarded d
  | returned p outcome | incomplete p => exact settlement.elim

theorem Settlement.mono {first second : Nat → Prop} {note : Note} (is : Settlement first note)
    (weaker : ∀ p, first p → second p) : Settlement second note := by
  cases note with
  | settled p outcome => exact weaker p is
  | posted p | attributed d p event | updating d | forwarded d | returned p outcome
  | incomplete p => exact is

theorem writes_settle (room : String) (expected : Option Nat) (outcome : Option PromptOutcome) :
    Writes (Settlement fun p => s.slot room = some p ∧ expected.all (· = p) = true) s
        (s.settlePromptLocked room expected outcome) ∧
      ∀ other p, (s.settlePromptLocked room expected outcome).slot other = some p → s.slot other = some p := by
  unfold settlePromptLocked
  split
  · exact ⟨.of_eq rfl, fun _ _ its => its⟩
  rename_i p its
  split
  · rename_i expects
    split
    · exact ⟨.of_eq rfl, fun _ _ its => its⟩
    rename_i pending _
    refine ⟨⟨[.settled p outcome], by simp [finish, note, setPrompt], ?_⟩, ?_⟩
    · rintro note mem
      obtain rfl := mem_singleton.1 mem
      exact ⟨its, expects⟩
    · intro other q its'
      have its' := Keyed.get_erase.symm.trans its'
      split at its'
      · cases its'
      · exact its'
  · exact ⟨.of_eq rfl, fun _ _ its => its⟩

theorem writes_own {outcome : Option PromptOutcome} :
    Writes (Settlement (p = ·)) s (s.settlePromptLocked room (some p) outcome) := by
  refine (writes_settle room (some p) outcome).1.mono fun note is => is.mono ?_
  intro q settled
  simpa using settled.2

theorem writes_leaveTry {raising : Bool} : Writes (Settlement (p = ·)) s (s.leaveTry p room raising) := by
  unfold leaveTry
  dsimp only
  split
  · exact writes_own
  · exact writes_own.trans (.of_eq rfl)

theorem writes_afterWait {wake : Wake} (went : s.afterWait p pending wake = some s') :
    Writes (Settlement (p = ·)) s s' := by
  cases wake with
  | ready =>
    simp only [afterWait] at went
    split at went
    · cases went
      exact writes_leaveTry
    · split at went
      · cases went
        exact .of_eq rfl
      · cases went
        exact writes_own.trans writes_leaveTry
      · cases went
        exact writes_leaveTry
      · cases went
  | timeout =>
    cases went
    exact writes_own.trans writes_leaveTry
  | cancelled =>
    cases went
    exact writes_leaveTry

theorem writes_resumePrompt {wake : Wake} (ran : s.resumePrompt p wake = some s') :
    Writes (s.Quiet (.handler p wake)) s s' ∨ ∃ outcome, s'.log = s.log ++ [.returned p outcome] := by
  obtain ⟨pending, found, went⟩ := bind_eq_some_iff.1 ran
  clear ran
  have own : Writes (Settlement (p = ·)) s s' → Writes (s.Quiet (.handler p wake)) s s' :=
    fun writes => writes.mono fun note is => is.quiet fun q same => same
  split at went
  · obtain ⟨-, ⟨⟩⟩ := of_passed went
    exact .inl (.of_eq rfl)
  · cases went
    exact .inl (.of_eq rfl)
  · exact .inl (own (writes_afterWait went))
  · obtain ⟨-, ⟨⟩⟩ := of_passed went
    exact .inl (own writes_leaveTry)
  · exact .inl (own (writes_afterWait went))
  · obtain ⟨-, went⟩ := of_passed went
    dsimp only at went
    split at went
    · cases went
      exact .inl (.of_eq rfl)
    · split at went
      · rename_i outcome _
        cases went
        exact .inr ⟨outcome, rfl⟩
      · cases went
        exact .inl ⟨[.incomplete p], rfl, by simp [Quiet]⟩
  · cases went
    exact .inl (.of_eq rfl)
  · cases went
  · cases went

theorem writes_resumeSend {outcome : Outcome} {accepted : Bool} {event : Event}
    (ran : s.resumeSend p outcome accepted = some s') : Writes (s.Quiet event) s s' := by
  obtain ⟨pending, found, went⟩ := bind_eq_some_iff.1 ran
  clear ran
  split at went
  · cases went
  · cases went
    exact .of_eq rfl
  · obtain ⟨-, went⟩ := of_barred went
    split at went
    · cases went
      exact .of_eq rfl
    · split at went
      · cases went
        exact ⟨[.posted p], rfl, by simp [Quiet]⟩
      · cases went
        exact .of_eq rfl
    · cases went
      exact .of_eq rfl

theorem schedule_log {event : RoomEvent} : (s.schedule c room p pending event).log = s.log := by
  unfold schedule
  split
  · exact cancelTimer_log _
  · rfl

theorem afterForward_log {event : RoomEvent} : (s.afterForward c room p event).log = s.log ++ [.forwarded c] := by
  unfold afterForward
  dsimp only
  split
  · exact schedule_log
  · split
    · exact schedule_log
    · rfl
  · rfl

/-- A message is attributed to the room's pending prompt, and what maps is handed over at once. -/
theorem writes_onMessage (room : String) (event : RoomEvent) (history : List (String × String)) :
    (s.onMessage room event history).log = s.log ∨ ∃ p more, s.attributable room = some p ∧
      (s.onMessage room event history).log = s.log ++ .attributed s.made p event :: more ∧
      (∀ note ∈ more, s.Quiet (.message room event history) note) ∧
      (event.mapped = true → ∃ between, more = between ++ [.updating s.made]) := by
  obtain ⟨sessions, rooms, same⟩ := @rehydrate_cases s history
  unfold onMessage
  rw [same]
  dsimp only
  split
  · exact .inl rfl
  rename_i p its
  have its : s.attributable room = some p := its
  refine .inr ⟨p, ?_⟩
  have settled : Writes (s.Quiet (.message room event history))
      ({ s with sessionToRoom := sessions, roomToSession := rooms, made := s.made + 1 }.note
        (.attributed s.made p event))
      (({ s with sessionToRoom := sessions, roomToSession := rooms, made := s.made + 1 }.note
        (.attributed s.made p event)).settleFailed room p event.kind) := by
    cases kind : event.kind with
    | error failure =>
      refine writes_own.mono fun note is => is.quiet ?_
      rintro q rfl
      exact ⟨⟨failure, kind⟩, its⟩
    | text | other => exact .of_eq rfl
  obtain ⟨between, longer, quiet⟩ := settled
  have longer : (({ s with sessionToRoom := sessions, roomToSession := rooms, made := s.made + 1 }.note
      (.attributed s.made p event)).settleFailed room p event.kind).log =
        s.log ++ .attributed s.made p event :: between := by
    rw [longer, note, append_assoc]
    rfl
  have each : ∀ last, s.Quiet (.message room event history) last →
      ∀ note ∈ between ++ [last], s.Quiet (.message room event history) note := by
    intro last is note mem
    rcases mem_concat mem with before | now
    · exact quiet note before
    · rwa [now]
  split
  · refine ⟨between ++ [.updating s.made], its, ?_, each (.updating s.made) trivial, fun _ => ⟨between, rfl⟩⟩
    rw [← cons_append, ← append_assoc, ← longer]
    rfl
  · rename_i unmapped
    refine ⟨between ++ [.forwarded s.made], its, ?_, each (.forwarded s.made) trivial, fun mapped => absurd mapped unmapped⟩
    rw [afterForward_log, longer, append_assoc]
    rfl

theorem writes_resumeMessage {ended : Ended} {event : Event} (ran : s.resumeMessage c ended = some s') :
    Writes (s.Quiet event) s s' := by
  obtain ⟨call, found, rfl⟩ := map_eq_some_iff.1 ran
  split
  · exact ⟨[.forwarded c], afterForward_log, by simp [Quiet]⟩
  · exact ⟨[.forwarded c], afterForward_log, by simp [Quiet]⟩
  · exact .of_eq rfl

theorem writes_cleanupAll : Writes (Settlement fun p => ∃ room, s.slot room = some p) s s.cleanupAll := by
  have each : ∀ (rooms : List String) (t : Adapter), (∀ room p, t.slot room = some p → s.slot room = some p) →
      Writes (Settlement fun p => ∃ room, s.slot room = some p) t
        (rooms.foldl (fun s room => s.settlePromptLocked room none (some (.failure agentStopped))) t) := by
    intro rooms
    induction rooms with
    | nil => exact fun t _ => .of_eq rfl
    | cons room rest ih =>
      intro t within
      obtain ⟨first, fewer⟩ := @writes_settle t room none (some (.failure agentStopped))
      refine Writes.trans (first.mono ?_) (ih _ fun other p its => within other p (fewer other p its))
      exact fun note is => is.mono fun p settled => ⟨room, within room p settled.1⟩
  exact each _ s fun _ _ its => its

/-! ### The order of the log -/

/-- A step writes quiet notes, one response, or an attribution with what it comes to. -/
theorem writes_step (kept : s.Kept) {event : Event} (stepped : s.step event = some s') :
    Writes (s.Quiet event) s s' ∨ (∃ p outcome, s'.log = s.log ++ [.returned p outcome]) ∨
    ∃ room p its more, s.slot room = some p ∧
      s'.log = s.log ++ .attributed s.made p its :: more ∧ (∀ note ∈ more, s.Quiet event note) ∧
      (its.mapped = true → ∃ between, more = between ++ [.updating s.made]) := by
  cases event with
  | openSession session room | rollBack session room =>
    cases stepped
    exact .inl (.of_eq rfl)
  | prompt session =>
    cases stepped
    refine .inl (.of_eq ?_)
    unfold handlePrompt
    split
    · rfl
    split
    · rfl
    · rfl
  | handler p wake =>
    rcases writes_resumePrompt stepped with quiet | ⟨outcome, longer⟩
    · exact .inl quiet
    · exact .inr (.inl ⟨p, outcome, longer⟩)
  | send p outcome accepted => exact .inl (writes_resumeSend stepped)
  | message room its history =>
    cases stepped
    rcases writes_onMessage room its history with same | ⟨p, more, attributed, rest⟩
    · exact .inl (.of_eq same)
    · exact .inr (.inr ⟨room, p, its, more, (attributable_eq kept attributed).1, rest⟩)
  | resume c ended => exact .inl (writes_resumeMessage stepped)
  | expire t =>
    obtain ⟨timer, found, rfl⟩ := map_eq_some_iff.1 stepped
    have own : Writes (Settlement (timer.prompt = ·)) s _ := @writes_own (s.setTimer t none) timer.prompt timer.room (some .endTurn)
    exact .inl (own.mono fun note is => is.quiet fun p same => ⟨timer, found, same⟩)
  | cancelPrompt session =>
    cases stepped
    refine .inl ?_
    unfold cancelPrompt
    split
    · exact .of_eq rfl
    rename_i room mapped
    split
    · exact .of_eq rfl
    · exact (writes_settle room none _).1.mono fun note is => is.quiet fun p settled =>
        ⟨room, mapped, settled.1⟩
  | cleanup room =>
    cases stepped
    have settled : Writes (s.Quiet (.cleanup room)) s
        (s.settlePromptLocked room none (some (.failure roomClosed))) :=
      (writes_settle room none _).1.mono fun note is => is.quiet fun p settled => settled.1
    refine .inl (settled.trans (.of_eq ?_))
    unfold onCleanup
    dsimp only
    split
    · rfl
    split
    · rfl
    · rfl
  | cleanupAll =>
    cases stepped
    exact .inl (writes_cleanupAll.mono fun note is => is.quiet fun p settled => settled)

/-- Nothing is attributed to a prompt that has returned, and what was attributed to it before was
handed to the editor. -/
structure Ordered (s : Adapter) : Prop where
  after : ∀ p, Guarded (fun note => ∃ outcome, note = .returned p outcome) (fun _ => False)
    (fun note => ∃ c event, note = .attributed c p event) s.log
  handed : ∀ c p event, event.mapped = true → ¬ Open (· = .attributed c p event) (· = Note.updating c) s.log
  before : ∀ c p event, event.mapped = true → Guarded (· = .attributed c p event) (· = .updating c)
    (fun note => ∃ outcome, note = .returned p outcome) s.log

theorem Ordered.step (ordered : s.Ordered) (kept : s.Kept) {event : Event}
    (stepped : s.step event = some s') : s'.Ordered := by
  have quiet : ∀ {more : List Note}, (∀ note ∈ more, s.Quiet event note) →
      (∀ note ∈ more, ∀ p outcome, note ≠ .returned p outcome) ∧
        ∀ note ∈ more, ∀ c p its, note ≠ .attributed c p its := by
    intro more each
    constructor
    · rintro note mem p outcome rfl
      exact each _ mem
    · rintro note mem c p its rfl
      exact each _ mem
  rcases writes_step kept stepped with ⟨more, longer, each⟩ | ⟨p, outcome, longer⟩ |
    ⟨room, p, its, more, slot, longer, each, handed⟩
  · obtain ⟨silent, none_⟩ := quiet each
    refine ⟨?_, ?_, ?_⟩
    · intro p
      rw [longer]
      exact (ordered.after p).append_none fun note mem ⟨c, its, same⟩ => none_ note mem c p its same
    · intro c p its mapped
      rw [longer]
      exact Open.append_none (ordered.handed c p its mapped) fun note mem same => none_ note mem c p its same
    · intro c p its mapped
      rw [longer]
      exact (ordered.before c p its mapped).append_none fun note mem ⟨outcome, same⟩ =>
        silent note mem p outcome same
  · refine ⟨?_, ?_, ?_⟩
    · intro q
      rw [longer]
      exact (ordered.after q).snoc nofun
    · intro c q its mapped
      rw [longer]
      exact Open.append_none (ordered.handed c q its mapped) (by simp)
    · intro c q its mapped
      rw [longer]
      exact (ordered.before c q its mapped).snoc fun _ => ordered.handed c q its mapped
  · obtain ⟨silent, none_⟩ := quiet each
    obtain ⟨pending, found, -, waits⟩ := kept.known room p slot
    rw [append_cons] at longer
    refine ⟨?_, ?_, ?_⟩
    · intro q
      rw [longer]
      refine ((ordered.after q).snoc ?_).append_none fun note mem ⟨c, its, same⟩ => none_ note mem c q its same
      -- the prompt still pends, and has not returned
      rintro ⟨c, its', same⟩ ⟨older, first, later, split, ⟨outcome, rfl⟩, -⟩
      obtain ⟨-, rfl, -⟩ := Note.attributed.inj same
      have mem : .returned p outcome ∈ s.log := by simp [split]
      obtain ⟨⟨pending', found', ended⟩, -⟩ := kept.returned p outcome mem
      cases found.symm.trans found'
      rw [kept.closed p pending found (.inl ended)] at waits
      cases waits
    · intro c q other mapped
      rw [longer]
      by_cases same : Note.attributed s.made p its = .attributed c q other
      · obtain ⟨rfl, rfl, rfl⟩ := Note.attributed.inj same
        obtain ⟨between, rfl⟩ := handed mapped
        rw [← append_assoc, Open.snoc]
        rintro (opened | ⟨-, open_⟩)
        · cases opened
        · exact open_ rfl
      · refine Open.append_none (Open.append_none (ordered.handed c q other mapped) ?_)
          fun note mem same => none_ note mem c q other same
        simpa using same
    · intro c q other mapped
      rw [longer]
      refine ((ordered.before c q other mapped).snoc ?_).append_none fun note mem ⟨outcome, same⟩ =>
        silent note mem q outcome same
      rintro ⟨outcome, same⟩
      cases same

theorem ordered_of_reachable (reached : adapter.Reachable s) : s.Ordered := by
  refine reached.invariant_reachable ?_ fun s event s' before ordered stepped =>
    ordered.step (kept_of_reachable before) stepped
  rintro _ rfl
  refine ⟨fun _ => .nil, fun _ _ _ _ => Open.nil, fun _ _ _ _ => .nil⟩

end Adapter

section Main

variable {s : Adapter}

/-- **The slot is the unsettled prompt.** -/
theorem slot_names_unsettled (reached : adapter.Reachable s) (room : String) (p : Nat) :
    s.slot room = some p ↔ ∃ pending, s.prompts p = some pending ∧ pending.room = room ∧
      p ∉ s.log.filterMap Note.settles := by
  have kept := Adapter.kept_of_reachable reached
  constructor
  · intro held
    obtain ⟨pending, known, here, open_⟩ := kept.known room p held
    refine ⟨pending, known, here, fun settled => ?_⟩
    obtain ⟨pending', known', done⟩ := (kept.settled p).1 settled
    cases known.symm.trans known'
    simp [open_] at done
  · rintro ⟨pending, known, rfl, unsettled⟩
    refine kept.unsettled p pending known ?_
    by_contra done
    exact unsettled ((kept.settled p).2 ⟨pending, known, by simpa using done⟩)

theorem slot_names_unsettled_open : ∃ s, adapter.Reachable s ∧ s.slot "room" = some 0 ∧
    0 ∉ s.log.filterMap Note.settles := by
  have reached : adapter.Reachable _ := ⟨{}, rfl, [.openSession "session" "room", .prompt "session"], rfl⟩
  obtain ⟨-, -, -, unsettled⟩ := (slot_names_unsettled reached "room" 0).1 rfl
  exact ⟨_, reached, rfl, unsettled⟩

end Main

end BandSdk.AcpServer

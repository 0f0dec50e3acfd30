/-
# AcpServer.Settled -- every prompt ends once

`Kept` ties the prompts to the log: a prompt is its room's pending one until the note
that settles it, an END_TURN has its reply behind it, and a response the settlement it
repeats.  Each change of the state keeps it; the steps are put together from these.
-/
import BandSdk.AcpServer.Prompts
import Mathlib.Data.List.Nodup

namespace BandSdk.AcpServer.Adapter

open BandSdk.Theory List

variable {s s' : Adapter} {p c t : Nat} {pending moved : PendingACPPrompt} {room : String}

/-- A text that came once the prompt's post was accepted, and was forwarded. -/
def Replied (s : Adapter) (p : Nat) : Prop :=
  ∃ c event, event.kind = .text ∧ [.posted p, .attributed c p event, .forwarded c].Sublist s.log

structure Kept (s : Adapter) : Prop where
  fresh : ∀ n, s.made ≤ n → s.prompts n = none
  known : ∀ room p, s.slot room = some p →
    ∃ pending, s.prompts p = some pending ∧ pending.room = room ∧ pending.done = false
  unsettled : ∀ p pending, s.prompts p = some pending → pending.done = false → s.slot pending.room = some p
  settled : ∀ p, p ∈ s.log.filterMap Note.settles ↔ ∃ pending, s.prompts p = some pending ∧ pending.done = true
  once : (s.log.filterMap Note.settles).Nodup
  outcome : ∀ p pending outcome, s.prompts p = some pending → pending.outcome = some outcome →
    .settled p (some outcome) ∈ s.log
  closed : ∀ p pending, s.prompts p = some pending → pending.phase = .ended ∨
    (∃ raising, pending.phase = .closing raising) → pending.done = true
  /-- Only a request that raises settles its prompt without an outcome. -/
  raising : ∀ p pending, s.prompts p = some pending → pending.done = true → pending.outcome = none →
    pending.phase = .closing true ∨ pending.phase = .ended
  posted : ∀ p pending, s.prompts p = some pending → pending.posted = true → .posted p ∈ s.log
  replied : ∀ p pending, s.prompts p = some pending → pending.replyStarted = true → s.Replied p
  timed : ∀ t timer, s.timers t = some timer → s.Replied timer.prompt
  calls : ∀ c call, s.messages c = some call →
    [.posted call.prompt, .attributed c call.prompt call.event].Sublist s.log
  endTurn : ∀ p, .settled p (some .endTurn) ∈ s.log → ∃ c event, event.kind = .text ∧
    [.posted p, .attributed c p event, .forwarded c, .settled p (some .endTurn)].Sublist s.log
  returned : ∀ p outcome, .returned p outcome ∈ s.log →
    (∃ pending, s.prompts p = some pending ∧ pending.phase = .ended) ∧
      [.settled p (some outcome), .returned p outcome].Sublist s.log
  complete : ∀ p, .incomplete p ∉ s.log

/-! ### The log -/

theorem Replied.grow {more : List Note} (replied : s.Replied p) (longer : s'.log = s.log ++ more) :
    s'.Replied p := by
  obtain ⟨c, event, text, before⟩ := replied
  refine ⟨c, event, text, ?_⟩
  rw [longer]
  exact before.trans (sublist_append_left ..)

theorem sublist_snoc {before log : List Note} {last : Note} (sub : before.Sublist log) :
    (before ++ [last]).Sublist (log ++ [last]) := sub.append (List.Sublist.refl _)

theorem Kept.grow (kept : s.Kept) {new : Note} (plain : new.settles = none)
    (response : ∀ p outcome, new = .returned p outcome → .settled p (some outcome) ∈ s.log ∧
      ∃ pending, s.prompts p = some pending ∧ pending.phase = .ended)
    (whole : ∀ p, new ≠ .incomplete p) : (s.note new).Kept := by
  have longer : (s.note new).log = s.log ++ [new] := rfl
  have same : (s.note new).log.filterMap Note.settles = s.log.filterMap Note.settles := by
    simp [longer, plain]
  refine { kept with
    settled := by rw [same]; exact kept.settled
    once := by rw [same]; exact kept.once
    outcome := ?_, posted := ?_, replied := ?_, timed := ?_, calls := ?_, endTurn := ?_, returned := ?_
    complete := ?_ }
  · exact fun p pending outcome found its => mem_append_left _ (kept.outcome p pending outcome found its)
  · exact fun p pending found its => mem_append_left _ (kept.posted p pending found its)
  · exact fun p pending found its => (kept.replied p pending found its).grow longer
  · exact fun t timer found => (kept.timed t timer found).grow longer
  · exact fun c call found => (kept.calls c call found).trans (sublist_append_left ..)
  · intro p mem
    rcases mem_concat mem with old | rfl
    · obtain ⟨c, event, text, before⟩ := kept.endTurn p old
      exact ⟨c, event, text, before.trans (sublist_append_left ..)⟩
    · cases plain
  · intro p outcome mem
    rcases mem_concat mem with old | now
    · obtain ⟨ended, before⟩ := kept.returned p outcome old
      exact ⟨ended, before.trans (sublist_append_left ..)⟩
    · obtain ⟨settled, ended⟩ := response p outcome now.symm
      rw [longer, ← now]
      exact ⟨ended, sublist_snoc (singleton_sublist.2 settled)⟩
  · intro p mem
    rcases mem_concat mem with old | now
    · exact kept.complete p old
    · exact whole p now.symm

/-! ### Prompts -/

theorem Kept.below (kept : s.Kept) (known : s.prompts p = some pending) : p < s.made := by
  by_contra late
  rw [kept.fresh p (Nat.not_lt.1 late)] at known
  cases known

theorem setPrompt_same : (s.setPrompt p pending).prompts p = some pending := by simp [setPrompt]

theorem setPrompt_other {q : Nat} (other : q ≠ p) : (s.setPrompt p pending).prompts q = s.prompts q := by
  simp [setPrompt, other]

/-- A fact of the prompt that changed, and of those that did not. -/
theorem each_prompt (here : s'.prompts p = some moved) (elsewhere : ∀ q, q ≠ p → s'.prompts q = s.prompts q)
    {P : Nat → PendingACPPrompt → Prop} (first : P p moved) (rest : ∀ q other, s.prompts q = some other → P q other)
    (q : Nat) (other : PendingACPPrompt) (its : s'.prompts q = some other) : P q other := by
  rcases set_cases here elsewhere its with ⟨rfl, ⟨⟩⟩ | ⟨-, its⟩
  · exact first
  · exact rest q other its

/-- A prompt goes on, settled or not as it was. -/
theorem Kept.move (kept : s.Kept) (found : s.prompts p = some pending) (sameRoom : moved.room = pending.room)
    (sameDone : moved.done = pending.done) (sameOutcome : moved.outcome = pending.outcome)
    (posted : moved.posted = true → .posted p ∈ s.log) (replied : moved.replyStarted = true → s.Replied p)
    (closed : moved.phase = .ended ∨ (∃ raising, moved.phase = .closing raising) → pending.done = true)
    (raising : pending.done = true → pending.outcome = none →
      moved.phase = .closing true ∨ moved.phase = .ended)
    (stays : pending.phase = .ended → moved.phase = .ended) : (s.setPrompt p moved).Kept := by
  have each := @each_prompt s (s.setPrompt p moved) p moved setPrompt_same fun _ => setPrompt_other
  have still : ∀ q other, s.prompts q = some other → ∃ after, (s.setPrompt p moved).prompts q = some after ∧
      after.room = other.room ∧ after.done = other.done ∧ (other.phase = .ended → after.phase = .ended) := by
    intro q other its
    by_cases same : q = p
    · subst same
      cases found.symm.trans its
      exact ⟨moved, setPrompt_same, sameRoom, sameDone, stays⟩
    · exact ⟨other, (setPrompt_other same).trans its, rfl, rfl, id⟩
  refine { kept with
    fresh := ?_, known := ?_, unsettled := ?_, settled := ?_, outcome := ?_, closed := ?_, raising := ?_
    posted := ?_, replied := ?_, returned := ?_ }
  · intro n late
    have other : n ≠ p := fun same => absurd (kept.below found) (Nat.not_lt.2 (same ▸ late))
    exact (setPrompt_other other).trans (kept.fresh n late)
  · intro room q its
    obtain ⟨before, held, inRoom, waits⟩ := kept.known room q its
    obtain ⟨after, held', room', done', -⟩ := still q before held
    exact ⟨after, held', room'.trans inRoom, done'.trans waits⟩
  · refine each ?_ kept.unsettled
    intro waits
    have its := kept.unsettled p pending found (sameDone.symm.trans waits)
    rwa [← sameRoom] at its
  · intro q
    refine (kept.settled q).trans ⟨?_, ?_⟩
    · rintro ⟨before, held, over_⟩
      obtain ⟨after, held', -, done', -⟩ := still q before held
      exact ⟨after, held', done'.trans over_⟩
    · rintro ⟨after, held, over_⟩
      by_cases same : q = p
      · subst same
        cases setPrompt_same.symm.trans held
        exact ⟨pending, found, sameDone.symm.trans over_⟩
      · exact ⟨after, (setPrompt_other same).symm.trans held, over_⟩
  · intro q other outcome held its
    refine each (P := fun q other => ∀ outcome, other.outcome = some outcome →
      .settled q (some outcome) ∈ s.log) ?_ ?_ q other held outcome its
    · exact fun outcome its => kept.outcome p pending outcome found (sameOutcome.symm.trans its)
    · exact fun q other held outcome its => kept.outcome q other outcome held its
  · refine each ?_ kept.closed
    exact fun over_ => sameDone.trans (closed over_)
  · refine each ?_ kept.raising
    exact fun over_ none_ => raising (sameDone.symm.trans over_) (sameOutcome.symm.trans none_)
  · exact each posted kept.posted
  · exact each replied kept.replied
  intro q outcome mem
  obtain ⟨⟨before, held, over_⟩, order⟩ := kept.returned q outcome mem
  obtain ⟨after, held', -, -, ended⟩ := still q before held
  exact ⟨⟨after, held', ended over_⟩, order⟩

/-- A move to another phase that is not one of its last. -/
theorem Kept.goOn (kept : s.Kept) (found : s.prompts p = some pending) {phase : Phase}
    (going : pending.phase ≠ .ended) (closing : ∀ raising, pending.phase ≠ .closing raising)
    (next : phase ≠ .ended) (next' : ∀ raising, phase ≠ .closing raising) :
    (s.setPrompt p { pending with phase := phase }).Kept := by
  refine kept.move found rfl rfl rfl (kept.posted p pending found) (kept.replied p pending found) ?_ ?_ ?_
  · rintro (over_ | ⟨raising, over_⟩)
    · exact absurd over_ next
    · exact absurd over_ (next' raising)
  · intro over_ none_
    rcases kept.raising p pending found over_ none_ with closing' | ended
    · exact absurd closing' (closing true)
    · exact absurd ended going
  · exact fun ended => absurd ended going

/-! ### Timers and calls -/

theorem Kept.setTimer (kept : s.Kept) {timer : Option Timer}
    (replied : ∀ its, timer = some its → s.Replied its.prompt) : (s.setTimer t timer).Kept := by
  refine { kept with timed := ?_ }
  intro u its held
  by_cases same : u = t
  · subst same
    exact replied its (by simpa [Adapter.setTimer] using held)
  · exact kept.timed u its (by simpa [Adapter.setTimer, same] using held)

theorem Kept.cancelTimer (kept : s.Kept) (timer : Option Nat) : (s.cancelTimer timer).Kept := by
  cases timer with
  | none => exact kept
  | some t => exact kept.setTimer nofun

@[simp] theorem cancelTimer_prompts (timer : Option Nat) : (s.cancelTimer timer).prompts = s.prompts := by
  cases timer <;> rfl

@[simp] theorem cancelTimer_log (timer : Option Nat) : (s.cancelTimer timer).log = s.log := by
  cases timer <;> rfl

@[simp] theorem cancelTimer_made (timer : Option Nat) : (s.cancelTimer timer).made = s.made := by
  cases timer <;> rfl

theorem Kept.setMessage (kept : s.Kept) {call : Option MessageCall}
    (came : ∀ its, call = some its → [.posted its.prompt, .attributed c its.prompt its.event].Sublist s.log) :
    (s.setMessage c call).Kept := by
  refine { kept with calls := ?_ }
  intro d its held
  by_cases same : d = c
  · subst same
    exact came its (by simpa [Adapter.setMessage] using held)
  · exact kept.calls d its (by simpa [Adapter.setMessage, same] using held)

theorem Kept.count (kept : s.Kept) : Kept { s with made := s.made + 1 } :=
  { kept with fresh := fun n late => kept.fresh n (Nat.le_of_succ_le late) }

/-! ### Settling -/

/-- A pending prompt, settled into its next record. -/
def settleInto (s : Adapter) (p : Nat) (pending moved : PendingACPPrompt) (outcome : Option PromptOutcome) :
    Adapter :=
  { ((s.cancelTimer pending.completionTask).setPrompt p moved).note (.settled p outcome) with
    pendingPrompts := Keyed.erase pending.room s.pendingPrompts }

@[simp] theorem settleInto_prompts {outcome : Option PromptOutcome} :
    (s.settleInto p pending moved outcome).prompts p = some moved := by
  simp [settleInto, note, setPrompt]

@[simp] theorem settleInto_log {outcome : Option PromptOutcome} :
    (s.settleInto p pending moved outcome).log = s.log ++ [.settled p outcome] := by
  simp [settleInto, note, setPrompt]

theorem Kept.settleInto (kept : s.Kept) {outcome : Option PromptOutcome} (found : s.prompts p = some pending)
    (waits : pending.done = false) (settled : moved.done = true)
    (outcomes : ∀ o, moved.outcome = some o → outcome = some o ∨ pending.outcome = some o)
    (posted : moved.posted = pending.posted) (replied : moved.replyStarted = pending.replyStarted)
    (raising : moved.outcome = none → moved.phase = .closing true ∨ moved.phase = .ended)
    (ends : outcome = some .endTurn → s.Replied p) : (s.settleInto p pending moved outcome).Kept := by
  have longer : (s.settleInto p pending moved outcome).log = s.log ++ [.settled p outcome] := settleInto_log
  have here : (s.settleInto p pending moved outcome).prompts p = some moved := settleInto_prompts
  have elsewhere : ∀ q, q ≠ p → (s.settleInto p pending moved outcome).prompts q = s.prompts q := by
    intro q other
    simp [Adapter.settleInto, note, setPrompt, other]
  have timers : ∀ u timer, (s.settleInto p pending moved outcome).timers u = some timer →
      (s.cancelTimer pending.completionTask).timers u = some timer := fun u timer held => held
  have slots : ∀ room, (s.settleInto p pending moved outcome).slot room =
      if pending.room = room then none else s.slot room := fun room => Keyed.get_erase
  have notes : (s.settleInto p pending moved outcome).log.filterMap Note.settles =
      s.log.filterMap Note.settles ++ [p] := by
    simp [Note.settles]
  have unsettled : p ∉ s.log.filterMap Note.settles := by
    intro mem
    obtain ⟨before, held, over_⟩ := (kept.settled p).1 mem
    cases found.symm.trans held
    rw [waits] at over_
    cases over_
  have each := @each_prompt s (s.settleInto p pending moved outcome) p moved here elsewhere
  refine { kept with
    fresh := ?_, known := ?_, unsettled := ?_, settled := ?_, once := ?_, outcome := ?_, closed := ?_
    raising := ?_, posted := ?_, replied := ?_, timed := ?_, calls := ?_, endTurn := ?_, returned := ?_
    complete := ?_ }
  · intro n late
    have late : s.made ≤ n := by simpa [Adapter.settleInto, note, setPrompt] using late
    have other : n ≠ p := fun same => absurd (kept.below found) (Nat.not_lt.2 (same ▸ late))
    exact (elsewhere n other).trans (kept.fresh n late)
  · intro room q its
    rw [slots] at its
    obtain ⟨apart, its⟩ := of_barred its
    obtain ⟨before, held, inRoom, open_⟩ := kept.known room q its
    have other : q ≠ p := by
      rintro rfl
      cases found.symm.trans held
      exact apart inRoom
    exact ⟨before, (elsewhere q other).trans held, inRoom, open_⟩
  · intro q other held open_
    rcases set_cases here elsewhere held with ⟨rfl, ⟨⟩⟩ | ⟨same, held⟩
    · rw [settled] at open_
      cases open_
    · have its := kept.unsettled q other held open_
      rw [slots, if_neg]
      · exact its
      intro sameRoom
      rw [← sameRoom, kept.unsettled p pending found waits] at its
      exact same (Option.some.inj its).symm
  · intro q
    rw [notes, mem_append, mem_singleton, kept.settled q]
    constructor
    · rintro (⟨before, held, over_⟩ | rfl)
      · have other : q ≠ p := by
          rintro rfl
          exact unsettled ((kept.settled q).2 ⟨before, held, over_⟩)
        exact ⟨before, (elsewhere q other).trans held, over_⟩
      · exact ⟨moved, here, settled⟩
    · rintro ⟨after, held, over_⟩
      by_cases same : q = p
      · exact .inr same
      · exact .inl ⟨after, (elsewhere q same).symm.trans held, over_⟩
  · rw [notes]
    refine nodup_append.2 ⟨kept.once, nodup_singleton p, ?_⟩
    intro q old q' new same
    rw [mem_singleton] at new
    exact unsettled (new ▸ same ▸ old)
  · intro q other o held its
    rw [longer]
    rcases set_cases here elsewhere held with ⟨rfl, ⟨⟩⟩ | ⟨-, held⟩
    · rcases outcomes o its with rfl | before
      · exact mem_append_right _ (mem_singleton_self _)
      · exact mem_append_left _ (kept.outcome q pending o found before)
    · exact mem_append_left _ (kept.outcome q other o held its)
  · exact each (fun _ => settled) kept.closed
  · exact each (fun _ => raising) kept.raising
  · refine each ?_ fun q other held its => ?_
    · intro its
      rw [longer]
      exact mem_append_left _ (kept.posted p pending found (posted ▸ its))
    · rw [longer]
      exact mem_append_left _ (kept.posted q other held its)
  · refine each ?_ fun q other held its => (kept.replied q other held its).grow longer
    exact fun its => (kept.replied p pending found (replied ▸ its)).grow longer
  · intro u timer held
    exact ((kept.cancelTimer _).timed u timer (timers u timer held)).grow (longer.trans (by rw [cancelTimer_log]))
  · intro d call held
    have held : s.messages d = some call := by
      cases its : pending.completionTask <;>
        simpa [Adapter.settleInto, note, setPrompt, Adapter.cancelTimer, Adapter.setTimer, its] using held
    rw [longer]
    exact (kept.calls d call held).trans (sublist_append_left ..)
  · intro q mem
    rw [longer] at mem ⊢
    rcases mem_concat mem with old | now
    · obtain ⟨c, event, text, before⟩ := kept.endTurn q old
      exact ⟨c, event, text, before.trans (sublist_append_left ..)⟩
    · obtain ⟨rfl, rfl⟩ := Note.settled.inj now
      obtain ⟨c, event, text, before⟩ := ends rfl
      exact ⟨c, event, text, sublist_snoc before⟩
  · intro q o mem
    rw [longer] at mem
    rcases mem_concat mem with old | now
    · obtain ⟨⟨before, held, over_⟩, order⟩ := kept.returned q o old
      have other : q ≠ p := by
        rintro rfl
        cases found.symm.trans held
        rw [kept.closed q pending found (.inl over_)] at waits
        cases waits
      rw [longer]
      exact ⟨⟨before, (elsewhere q other).trans held, over_⟩, order.trans (sublist_append_left ..)⟩
    · cases now
  · intro q mem
    rw [longer] at mem
    rcases mem_concat mem with old | now
    · exact kept.complete q old
    · cases now

end BandSdk.AcpServer.Adapter

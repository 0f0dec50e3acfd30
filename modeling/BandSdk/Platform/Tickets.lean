/-
# Platform.Tickets -- the account of the tickets

Each ticket is obtained under a number of its own.  `Ledger` is the account: the
reports of a number, and one more while its call is in flight, are the tickets
that number owes.
-/
import BandSdk.Platform.Moves
import BandSdk.Theory.Lists
import Mathlib.Data.List.Nodup

namespace BandSdk.Platform

open BandSdk.Theory List State

variable {σ τ : Type} {tracker : Tracker σ τ} {current : σ → Subject → τ → Bool} {names : Topics}

/-! ## The account of the tickets -/

namespace TicketNote

def call : TicketNote → Nat
  | .obtained call _ | .listed call _ _ | .resolved call => call

/-- The call a ticket was obtained for. -/
def issues : TicketNote → Option Nat
  | .obtained call _ | .listed call _ _ => some call
  | .resolved _ => none

/-- A ticket that `call` has to resolve. -/
def owes (call : Nat) : TicketNote → Bool
  | .obtained c _ => c = call
  | .listed c _ retained => c = call && !retained
  | .resolved _ => false

theorem call_of_issues {entry : TicketNote} {call : Nat} (issued : entry.issues = some call) :
    entry.call = call := by
  cases entry with
  | obtained | listed => exact Option.some.inj issued
  | resolved => cases issued

end TicketNote

/-- The call is in flight with its ticket. -/
def State.holds (s : State σ τ) (call : Nat) : Bool := (s.tasks call).any (·.awaiting.holdsTicket)

structure Ledger (s : State σ τ) : Prop where
  numbered : ∀ entry ∈ s.manager.tickets, entry.call < s.manager.calls
  parked : ∀ call, s.manager.calls ≤ call → s.tasks call = none
  distinct : (s.manager.tickets.filterMap TicketNote.issues).Nodup
  held : ∀ call, s.holds call = true → ∃ subject, .obtained call subject ∈ s.manager.tickets
  balance : ∀ call, s.manager.tickets.count (.resolved call) + (s.holds call).toNat =
    s.manager.tickets.countP (TicketNote.owes call)

variable {next : Manager σ × Option (Awaiting τ)} {s : State σ τ} {call ws : Nat}

theorem Ledger.unheld (ledger : Ledger s) : s.holds s.manager.calls = false := by
  simp [holds, ledger.parked _ (Nat.le_refl _)]

theorem State.park_holds (s : State σ τ) (call ws : Nat) (next : Manager σ × Option (Awaiting τ))
    (other : Nat) :
    (s.park call ws next).holds other =
      if other = call then next.2.any Awaiting.holdsTicket else s.holds other := by
  by_cases same : other = call
  · subst same
    cases waits : next.2 <;> simp [holds, park, waits]
  · simp [holds, park, same]

theorem State.park_unparked (parked : ∀ call, s.manager.calls ≤ call → s.tasks call = none)
    (calls : s.manager.calls ≤ next.1.calls) (below : next.2 = none ∨ call < next.1.calls) :
    ∀ other, (s.park call ws next).manager.calls ≤ other → (s.park call ws next).tasks other = none := by
  intro other beyond
  have beyond : next.1.calls ≤ other := beyond
  by_cases same : other = call
  · subst same
    rcases below with ended | below
    · simp [park, ended]
    · omega
  · simp only [park, Function.update_of_ne same]
    exact parked other (Nat.le_trans calls beyond)

/-- A call goes on without a word on its ticket. -/
theorem Ledger.carry (ledger : Ledger s) (tickets : next.1.tickets = s.manager.tickets)
    (calls : s.manager.calls ≤ next.1.calls) (below : next.2 = none ∨ call < next.1.calls)
    (same : next.2.any Awaiting.holdsTicket = s.holds call) : Ledger (s.park call ws next) where
  numbered entry mem := by
    have mem : entry ∈ next.1.tickets := mem
    rw [tickets] at mem
    exact Nat.lt_of_lt_of_le (ledger.numbered entry mem) calls
  parked := park_unparked ledger.parked calls below
  distinct := by
    show (next.1.tickets.filterMap _).Nodup
    rw [tickets]
    exact ledger.distinct
  held other holds := by
    show ∃ subject, _ ∈ next.1.tickets
    rw [tickets]
    rw [park_holds, same] at holds
    by_cases here : other = call
    · rw [if_pos here, ← here] at holds
      exact ledger.held other holds
    · rw [if_neg here] at holds
      exact ledger.held other holds
  balance other := by
    show next.1.tickets.count _ + _ = next.1.tickets.countP _
    rw [tickets, park_holds, same]
    by_cases here : other = call
    · rw [if_pos here, ← here]
      exact ledger.balance other
    · rw [if_neg here]
      exact ledger.balance other

theorem Ledger.take (ledger : Ledger s) {ws : Nat} {subject : Subject} {awaiting : Awaiting τ}
    (waits : next.2 = some awaiting) (holds : awaiting.holdsTicket = true)
    (tickets : next.1.tickets = s.manager.tickets ++ [.obtained s.manager.calls subject])
    (calls : next.1.calls = s.manager.calls + 1) : Ledger (s.park s.manager.calls ws next) where
  numbered entry mem := by
    have mem : entry ∈ next.1.tickets := mem
    show entry.call < next.1.calls
    rw [tickets, mem_append, mem_singleton] at mem
    rw [calls]
    rcases mem with old | rfl
    · exact Nat.lt_succ_of_lt (ledger.numbered entry old)
    · exact Nat.lt_succ_self _
  parked := park_unparked ledger.parked (by omega) (.inr (by omega))
  distinct := by
    show (next.1.tickets.filterMap _).Nodup
    rw [tickets, filterMap_append, nodup_append]
    refine ⟨ledger.distinct, by simp [TicketNote.issues], ?_⟩
    intro call mem call' mem' same
    obtain ⟨entry, inLedger, issued⟩ := mem_filterMap.1 mem
    have bound := ledger.numbered entry inLedger
    rw [TicketNote.call_of_issues issued] at bound
    have fresh : call' = s.manager.calls := by simpa [TicketNote.issues] using mem'
    omega
  held other holds' := by
    show ∃ subject, _ ∈ next.1.tickets
    rw [tickets]
    by_cases here : other = s.manager.calls
    · exact ⟨subject, by simp [here]⟩
    rw [park_holds, if_neg here] at holds'
    obtain ⟨subject, mem⟩ := ledger.held other holds'
    exact ⟨subject, mem_append_left _ mem⟩
  balance other := by
    show next.1.tickets.count _ + _ = next.1.tickets.countP _
    have before := ledger.balance other
    have unheld := ledger.unheld
    rw [tickets, park_holds, waits]
    by_cases here : other = s.manager.calls
    · subst here
      rw [unheld] at before
      simp [holds, TicketNote.owes, countP_append] at before ⊢
      omega
    · have elsewhere : ¬ s.manager.calls = other := fun same => here same.symm
      simpa [here, elsewhere, TicketNote.owes, countP_append] using before

theorem Ledger.close (ledger : Ledger s) (held : s.holds call = true) (ended : next.2 = none)
    (tickets : next.1.tickets = s.manager.tickets ++ [.resolved call])
    (calls : next.1.calls = s.manager.calls) : Ledger (s.park call ws next) where
  numbered entry mem := by
    have mem : entry ∈ next.1.tickets := mem
    show entry.call < next.1.calls
    rw [tickets, mem_append, mem_singleton] at mem
    rw [calls]
    rcases mem with old | rfl
    · exact ledger.numbered entry old
    by_contra beyond
    have unparked := ledger.parked call (by simpa [TicketNote.call] using beyond)
    simp [holds, unparked] at held
  parked := park_unparked ledger.parked (by omega) (.inl ended)
  distinct := by
    show (next.1.tickets.filterMap _).Nodup
    have silent : [TicketNote.resolved call].filterMap TicketNote.issues = [] := rfl
    rw [tickets, filterMap_append, silent, append_nil]
    exact ledger.distinct
  held other holds := by
    show ∃ subject, _ ∈ next.1.tickets
    rw [tickets]
    rw [park_holds, ended] at holds
    by_cases here : other = call
    · simp [here] at holds
    rw [if_neg here] at holds
    obtain ⟨subject, mem⟩ := ledger.held other holds
    exact ⟨subject, mem_append_left _ mem⟩
  balance other := by
    show next.1.tickets.count _ + _ = next.1.tickets.countP _
    have before := ledger.balance other
    rw [tickets, park_holds, ended]
    by_cases here : other = call
    · subst here
      rw [held] at before
      simpa [TicketNote.owes, countP_append] using before
    · have elsewhere : ¬ call = other := fun same => here same.symm
      simpa [here, elsewhere, TicketNote.owes, countP_append, count_singleton] using before

section Detection

variable {mark : σ → String → τ → Bool × σ} {subject : String → Subject} {retained : String → Bool}
  {ws : Nat}

theorem rejoinFailed_fold_tickets (dropped : List ((String × τ) × Nat)) (m : Manager σ) :
    (dropped.foldl (Manager.rejoinFailed current mark subject ws) m).tickets =
        m.tickets ++ dropped.map (fun candidate => .resolved candidate.2) ∧
      (dropped.foldl (Manager.rejoinFailed current mark subject ws) m).calls = m.calls := by
  induction dropped generalizing m with
  | nil => simp
  | cons candidate rest ih =>
    obtain ⟨tickets, calls⟩ := ih (Manager.rejoinFailed current mark subject ws m candidate)
    rw [foldl_cons, tickets, calls, Manager.rejoinFailed_eq]
    simp

/-- What detection writes: a listing for each candidate, then a report for each one dropped. -/
def listings (subject : String → Subject) (retained : String → Bool)
    (numbered : List ((String × τ) × Nat)) : List TicketNote :=
  numbered.map fun (candidate, call) => .listed call (subject candidate.1) (retained candidate.1)

def reports (retained : String → Bool) (numbered : List ((String × τ) × Nat)) : List TicketNote :=
  (numbered.filter fun candidate => !retained candidate.1.1).map fun candidate => .resolved candidate.2

theorem detect_tickets (candidates : List (String × τ)) (m : Manager σ) :
    (m.detect current mark subject retained ws candidates).tickets =
        m.tickets ++ (listings subject retained (candidates.zipIdx m.calls) ++
          reports retained (candidates.zipIdx m.calls)) ∧
      (m.detect current mark subject retained ws candidates).calls = m.calls + candidates.length := by
  rw [Manager.detect]
  refine ⟨?_, rejoinFailed_fold_tickets _ _ |>.2⟩
  rw [(rejoinFailed_fold_tickets _ _).1, ← append_assoc]
  rfl

theorem reports_balance (subject : String → Subject) (retained : String → Bool)
    (numbered : List ((String × τ) × Nat)) (call : Nat) :
    (reports retained numbered).count (.resolved call) =
      (listings subject retained numbered).countP (TicketNote.owes call) := by
  rw [reports, listings, count_eq_countP, countP_map, countP_map, countP_filter]
  refine countP_congr fun candidate _ => ?_
  simp [TicketNote.owes]

theorem listings_call {numbered : List ((String × τ) × Nat)} {entry : TicketNote}
    (mem : entry ∈ listings subject retained numbered ++ reports retained numbered) :
    ∃ candidate ∈ numbered, entry.call = candidate.2 := by
  rcases mem_append.1 mem with listed | reported
  · obtain ⟨candidate, found, rfl⟩ := mem_map.1 listed
    exact ⟨candidate, found, rfl⟩
  · obtain ⟨candidate, found, rfl⟩ := mem_map.1 reported
    exact ⟨candidate, mem_of_mem_filter found, rfl⟩

theorem listings_issues (numbered : List ((String × τ) × Nat)) :
    (listings subject retained numbered ++ reports retained numbered).filterMap TicketNote.issues =
      numbered.map Prod.snd := by
  have silent : (reports retained numbered).filterMap TicketNote.issues = [] := by
    rw [filterMap_eq_nil_iff]
    intro entry mem
    obtain ⟨candidate, -, rfl⟩ := mem_map.1 mem
    rfl
  rw [filterMap_append, silent, append_nil, listings, filterMap_map]
  exact congrFun filterMap_eq_map' numbered

theorem listings_resolve_none (subject : String → Subject) (retained : String → Bool)
    (numbered : List ((String × τ) × Nat)) (call : Nat) :
    (listings subject retained numbered).count (.resolved call) = 0 ∧
      (reports retained numbered).countP (TicketNote.owes call) = 0 := by
  constructor
  · rw [count_eq_zero]
    intro mem
    obtain ⟨candidate, -, same⟩ := mem_map.1 mem
    cases same
  · rw [countP_eq_zero]
    intro entry mem
    obtain ⟨candidate, -, rfl⟩ := mem_map.1 mem
    simp [TicketNote.owes]

theorem Ledger.list {s : State σ τ} (ledger : Ledger s) {m : Manager σ}
    {candidates : List (String × τ)} (tickets : m.tickets = s.manager.tickets ++
      (listings subject retained (candidates.zipIdx s.manager.calls) ++
        reports retained (candidates.zipIdx s.manager.calls)))
    (calls : m.calls = s.manager.calls + candidates.length) : Ledger { s with manager := m } where
  numbered entry mem := by
    have mem : entry ∈ m.tickets := mem
    show entry.call < m.calls
    rw [tickets] at mem
    rw [calls]
    rcases mem_append.1 mem with old | new
    · exact Nat.lt_add_right _ (ledger.numbered entry old)
    obtain ⟨candidate, found, same⟩ := listings_call new
    rw [same, Nat.add_comm]
    exact snd_lt_of_mem_zipIdx found
  parked call beyond := by
    have beyond : m.calls ≤ call := beyond
    exact ledger.parked call (by omega)
  distinct := by
    show (m.tickets.filterMap _).Nodup
    rw [tickets, filterMap_append, listings_issues, zipIdx_map_snd, nodup_append]
    refine ⟨ledger.distinct, nodup_range', ?_⟩
    intro call old call' new same
    obtain ⟨entry, inLedger, issued⟩ := mem_filterMap.1 old
    have bound := ledger.numbered entry inLedger
    rw [TicketNote.call_of_issues issued] at bound
    have beyond := (mem_range'_1.1 new).1
    omega
  held call holds := by
    obtain ⟨subject, mem⟩ := ledger.held call holds
    show ∃ subject, _ ∈ m.tickets
    rw [tickets]
    exact ⟨subject, mem_append_left _ mem⟩
  balance call := by
    show m.tickets.count _ + (s.holds call).toNat = m.tickets.countP _
    have before := ledger.balance call
    have none_ := listings_resolve_none subject retained
      (candidates.zipIdx s.manager.calls) call
    have both := reports_balance subject retained
      (candidates.zipIdx s.manager.calls) call
    rw [tickets, count_append, count_append, countP_append, countP_append, none_.1, none_.2, both]
    omega

theorem Ledger.detect {s : State σ τ} (ledger : Ledger s) (candidates : List (String × τ)) :
    Ledger { s with manager := s.manager.detect current mark subject retained ws candidates } :=
  ledger.list (detect_tickets _ _).1 (detect_tickets _ _).2

end Detection

variable {s : State σ τ}

theorem Ledger.started (ledger : Ledger s) {ws : Nat}
    {next : Manager σ × Option (Awaiting τ)} (started : s.manager.Started next) :
    Ledger (s.park s.manager.calls ws next) := by
  cases started with
  | refused ended tickets calls =>
    refine ledger.carry tickets (by omega) (.inl ended) ?_
    rw [ended, ledger.unheld]
    rfl
  | began subject awaiting waits holds tickets calls => exact ledger.take waits holds tickets calls

theorem Ledger.resumed (documented : Documented tracker current) (ledger : Ledger s)
    {call : Nat} {task : Task τ} (running : s.tasks call = some task) (outcome : Outcome)
    (joined topics : List String) :
    Ledger (s.park call task.ws
      (s.manager.resume tracker current names call task.ws outcome joined topics task.awaiting)) := by
  have below : call < s.manager.calls := by
    by_contra beyond
    rw [ledger.parked call (by omega)] at running
    cases running
  have held : s.holds call = task.awaiting.holdsTicket := by simp [holds, running]
  cases holds : task.awaiting.holdsTicket with
  | true =>
    have resumed := (s.manager.resume_ticket names documented call task.ws outcome joined topics
      task.awaiting holds).2
    cases resumed with
    | awaits awaiting waits holds' tickets calls =>
      refine ledger.carry tickets (by omega) (.inr (by omega)) ?_
      rw [held, holds, waits]
      exact holds'
    | ends ended tickets calls => exact ledger.close (held.trans holds) ended tickets calls
  | false =>
    have drained := (s.manager.resume_drain tracker current names call task.ws outcome joined topics
      task.awaiting holds).2
    refine ledger.carry drained.tickets (Nat.le_of_eq drained.calls.symm) (.inr ?_) ?_
    · rw [drained.calls]
      exact below
    · rw [held, holds, Option.any_eq_false]
      intro awaiting waits
      simpa using drained.holdsNone awaiting waits

theorem Ledger.owed_once (ledger : Ledger s) {entry : TicketNote} {call : Nat}
    (mem : entry ∈ s.manager.tickets) (issued : entry.issues = some call) :
    s.manager.tickets.countP (TicketNote.owes call) = (entry.owes call).toNat := by
  refine countP_of_nodup_filterMap ledger.distinct mem issued ?_
  intro other owes
  cases other <;> simp_all [TicketNote.owes, TicketNote.issues]

end BandSdk.Platform

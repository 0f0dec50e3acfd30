/-
# Retention.Callers -- `use()` keeps the invariant, and when its body starts

Each coroutine segment of `use()` is composed of the primitives of
`Retention.Invariant`.  `Entered` adds what a caller is promised: a body that is
running afterwards and was not before starts over a resident, admitting room
with nothing in flight and nothing pending (`Ready`).
-/
import BandSdk.Retention.Invariant

namespace BandSdk.Retention

open BandSdk.Theory List

namespace RetainedRoom

variable {o : OwnerView} {r : RetainedRoom}

def BodyAt (r : RetainedRoom) (u : Nat) : Prop :=
  ∃ use : Use, r.uses[u]? = some use ∧ use.phase = .body

def Ready (o : OwnerView) (r : RetainedRoom) : Prop :=
  r.state = .resident ∧ r.inFlight = none ∧ r.cause = none ∧ r.isClosing o = false

/-- The invariant and growth, with the promise on bodies that start. -/
def Entered (o : OwnerView) (r r' : RetainedRoom) : Prop :=
  r.Good o r' ∧ ∀ u, r'.BodyAt u → r.BodyAt u ∨ r'.Ready o

variable {u : Nat} {r' : RetainedRoom} {use : Use}

theorem Entered.of_good (good : r.Good o r') (bodies : ∀ u, r'.BodyAt u → r.BodyAt u) : r.Entered o r' :=
  ⟨good, fun u body => .inl (bodies u body)⟩

theorem bodyAt_of_uses (same : r'.uses = r.uses) (u : Nat) (body : r'.BodyAt u) : r.BodyAt u := by
  obtain ⟨use, found, phase⟩ := body
  exact ⟨use, same ▸ found, phase⟩

theorem Entered.trans {r₁ r₂ r₃ : RetainedRoom} (first : r₁.Good o r₂) (same : r₂.uses = r₁.uses)
    (second : r₂.Entered o r₃) : r₁.Entered o r₃ :=
  ⟨Good.trans first.2 second.1, fun u body =>
    (second.2 u body).imp (bodyAt_of_uses same u) id⟩

/-! ## What the primitives leave alone -/

theorem uses_schedule (reset : Bool) : (r.schedule o reset).uses = r.uses := by
  obtain ⟨_, _, _, _, eq, -⟩ := schedule_shape o r reset
  rw [eq]

theorem uses_startRelease (cause : ReleaseCause) (automatic : Bool) :
    (r.startRelease cause automatic).uses = r.uses := by
  obtain ⟨_, eq⟩ := startRelease_shape r cause automatic
  rw [eq]

theorem uses_startRequestedRecovery : r.startRequestedRecovery.uses = r.uses := by
  unfold startRequestedRecovery
  split
  · exact uses_startRelease _ _
  · rfl

theorem uses_cancelAcquisition (t : Nat) : (r.cancelAcquisition t).uses = r.uses := by
  unfold cancelAcquisition
  split <;> rfl

theorem uses_abandonAcquisition (t : Nat) : (r.abandonAcquisition t).uses = r.uses := by
  have abandoned : r.abandon.uses = r.uses := by rw [abandon_shape]
  simp only [abandonAcquisition]
  split
  · rw [uses_cancelAcquisition, abandoned]
  · exact abandoned

/-! ## Moving a call -/

theorem bodyAt_setUse {u v : Nat} {phase : UsePhase} (body : (r.setUse u phase).BodyAt v) :
    r.BodyAt v ∨ phase = .body := by
  obtain ⟨use, found, at_⟩ := body
  rcases getElem?_modify_cases found with ⟨rfl, old, -, rfl⟩ | ⟨-, kept⟩
  · exact .inr at_
  · exact .inl ⟨use, kept, at_⟩

section

variable (inv : r.Inv o)
include inv

/-- A suspended call moves to a phase that is leased alike. -/
theorem Inv.setUse {phase : UsePhase} (found : r.uses[u]? = some use) (leased : phase.leased = use.phase.leased)
    (active : phase.active = use.phase.active) (held : ∀ left t, phase = .residing left t true → r.Held o) :
    r.Good o (r.setUse u phase) := by
  obtain ⟨core, idle⟩ := inv
  refine ⟨⟨{ core with leases_count := ?_, holders_count := ?_, initiator := ?_ },
    idle.1, idle.2⟩, Grows.frame rfl rfl rfl rfl rfl rfl rfl⟩
  · show r.leases = (r.uses.modify u _).countP _
    rw [countP_modify_same found leased, core.leases_count]
  · intro holder
    show r.holders.count holder = (r.uses.modify u _).countP _
    rw [countP_modify_same found (by rw [active]), core.holders_count]
  · intro other member left t residing
    rcases mem_modify member with old | ⟨old, -, rfl⟩
    · exact core.initiator other old left t residing
    · exact held left t residing

/-- Taking the lease: nothing is in flight, so no release runs under it. -/
theorem Inv.lease (found : r.uses[u]? = some use)
    (unleased : use.phase.leased = false) (active : use.phase.active = true) (quiet : r.NoLive) :
    r.Good o (({ r with leases := r.leases + 1 } : RetainedRoom).setUse u .preparing) := by
  obtain ⟨core, idle⟩ := inv
  refine ⟨⟨{ core with live := ?_, leases_count := ?_, holders_count := ?_, initiator := ?_ },
    idle.1, idle.2⟩, Grows.frame rfl rfl rfl rfl rfl rfl rfl⟩
  · intro t kind phase present pending
    rw [quiet t kind phase present] at pending
    cases pending
  · have count := countP_modify (f := fun use => { use with phase := .preparing })
      (fun use : Use => use.phase.leased) found
    rw [unleased] at count
    show r.leases + 1 = _
    rw [core.leases_count]
    exact count.symm
  · intro holder
    show r.holders.count holder = (r.uses.modify u _).countP _
    rw [countP_modify_same found (by rw [active]; rfl), core.holders_count]
  · intro other member left t residing
    rcases mem_modify member with old | ⟨old, -, rfl⟩
    · exact core.initiator other old left t residing
    · cases residing

omit inv in
theorem Core.leave (core : r.Core o) (found : r.uses[u]? = some use)
    (active : use.phase.active = true) (outcome : Outcome) :
    (({ r with
      leases := if use.phase.leased then r.leases - 1 else r.leases
      holders := r.holders.erase use.holder } : RetainedRoom).setUse u (.ended outcome)).Core o := by
  have quiet : r.Quiet → r.owned = [] ∧ r.holders.erase use.holder = [] := by
    rintro ⟨owned, holders⟩
    exact ⟨owned, by rw [holders]; rfl⟩
  refine { core with
    live := ?_, disposal := ?_, closed := ?_, leases_count := ?_, holders_count := ?_,
    initiator := ?_ }
  · intro t kind phase present pending
    have old := core.live t kind phase present pending
    refine ⟨old.1, ?_⟩
    cases kind with
    | acquire => exact old.2
    | release cause previous automatic =>
      obtain ⟨state, unleased, stronger, final⟩ := old.2
      refine ⟨state, ?_, stronger, fun h => ⟨quiet (final h).1, (final h).2⟩⟩
      show (if use.phase.leased then r.leases - 1 else r.leases) = 0
      rw [unleased]
      split <;> rfl
  · intro d phase present
    have old := core.disposal d phase present
    exact ⟨old.1, old.2.mono rfl quiet rfl rfl rfl⟩
  · intro closed
    obtain ⟨closing, idle, rest⟩ := core.closed closed
    exact ⟨closing, quiet idle, rest⟩
  · show (if use.phase.leased then r.leases - 1 else r.leases) = (r.uses.modify u _).countP _
    rw [countP_modify_false found rfl, ← core.leases_count]
    cases use.phase.leased <;> rfl
  · intro holder
    show (r.holders.erase use.holder).count holder = (r.uses.modify u _).countP _
    rw [countP_modify_false found rfl, ← core.holders_count, count_erase, active]
    cases use.holder == holder <;> rfl
  · intro other member left t residing
    rcases mem_modify member with old | ⟨old, -, rfl⟩
    · exact core.initiator other old left t residing
    · cases residing

open Entered

/-- Leaving `use()`: the lease, then the holder, then a recovery that waited
for it. -/
theorem Inv.exitUse (found : r.uses[u]? = some use)
    (active : use.phase.active = true) {leased : Bool} (same : use.phase.leased = leased)
    (outcome : Outcome) : r.Entered o (r.exitUse o u leased outcome) := by
  subst same
  simp only [RetainedRoom.exitUse, found]
  have left := (inv.1.leave found active outcome).good_schedule (o := o) false
  refine of_good ⟨?_, ?_⟩ ?_
  · exact left.1.startRequestedRecovery.1
  · refine Grows.trans ?_ (Good.trans left.2 left.1.startRequestedRecovery).2
    exact Grows.frame rfl rfl rfl rfl rfl rfl rfl
  · intro v body
    have body := bodyAt_of_uses (uses_startRequestedRecovery.trans (uses_schedule false)) v body
    rcases bodyAt_setUse body with old | impossible
    · exact old
    · cases impossible

/-! ## Settling, acquiring, joining -/

theorem settleFrom_spec (n : Nat) :
    r.Good o (settleFrom o n r).1 ∧ (settleFrom o n r).1.uses = r.uses ∧
      ((settleFrom o n r).2 = .settled → (settleFrom o n r).1 = r ∧ r.isClosing o = false ∧
        r.inFlight = none ∧ r.cause = none) := by
  have still : r.Good o r := ⟨inv, Grows.refl o r⟩
  induction n with
  | zero => exact ⟨still, rfl, nofun⟩
  | succ n ih =>
    simp only [settleFrom]
    split
    · exact ⟨still, rfl, nofun⟩
    rename_i admitting
    have open_ : r.isClosing o = false := by simpa using admitting
    split
    · exact ⟨still, rfl, nofun⟩
    · rename_i flight uncaused
      exact ⟨still, rfl, fun _ => ⟨rfl, open_, flight, uncaused⟩⟩
    · rename_i cause flight caused unleased
      exact ⟨inv.startPending open_ flight unleased caused, uses_startRelease cause false, nofun⟩
    · split
      · exact ih
      · exact ⟨still, rfl, nofun⟩

theorem ensureResidentFrom_spec (busy : r.holders ≠ []) (n : Nat) :
    r.Good o (r.ensureResidentFrom o n).1 ∧ (r.ensureResidentFrom o n).1.uses = r.uses ∧
      ((r.ensureResidentFrom o n).2 = .resident → (r.ensureResidentFrom o n).1 = r ∧ r.Ready o) ∧
      (∀ left t, (r.ensureResidentFrom o n).2 = .waits left t true → (r.ensureResidentFrom o n).1.Held o) := by
  have still : r.Good o r := ⟨inv, Grows.refl o r⟩
  cases n with
  | zero => exact ⟨still, rfl, nofun, nofun⟩
  | succ n =>
    simp only [ensureResidentFrom]
    split
    · exact ⟨still, rfl, nofun, nofun⟩
    rename_i admitting
    have open_ : r.isClosing o = false := by simpa using admitting
    split
    · exact ⟨still, rfl, nofun, nofun⟩
    · rename_i flight resident
      refine ⟨still, rfl, fun _ => ⟨rfl, resident, flight, ?_, open_⟩, nofun⟩
      rcases inv.1.resident_cause resident with h | h
      · exact h
      · rw [isClosing_of_closing h] at open_; cases open_
    · rename_i flight suspended uncaused
      exact ⟨inv.startAcquire (inv.1.noLive flight) suspended open_ busy, rfl, nofun, fun _ _ _ => .inl rfl⟩
    · exact ⟨still, rfl, nofun, nofun⟩

theorem joined_spec (t : Nat) (initiator : Bool) (wake : Wake)
    (held : initiator = true → r.Held o) (busy : r.holders ≠ []) :
    r.Good o (r.joined o t initiator wake).1 ∧ (r.joined o t initiator wake).1.uses = r.uses := by
  have still : r.Good o r ∧ r.uses = r.uses := ⟨⟨inv, Grows.refl o r⟩, rfl⟩
  have give : r.Good o (if initiator then r.abandonAcquisition t else r) ∧
      (if initiator then r.abandonAcquisition t else r).uses = r.uses := by
    cases initiator with
    | true => exact ⟨inv.abandonAcquisition (held rfl) busy t, uses_abandonAcquisition t⟩
    | false => exact still
  unfold joined
  cases wake with
  | cancelled => exact give
  | ready | timeout =>
    cases r.transitions[t]?.bind (·.outcome?) with
    | none => exact give
    | some outcome => cases outcome <;> exact still

/-! ## The segments of `use()` -/

section

variable (found : r.uses[u]? = some use)
include found

theorem Inv.resideUse (leased : use.phase.leased = true) (active : use.phase.active = true) (left : Nat) :
    r.Entered o (r.resideUse o u left) := by
  have busy := inv.1.holders_ne_nil found active
  obtain ⟨good, same, resident, held⟩ := ensureResidentFrom_spec inv busy left
  unfold RetainedRoom.resideUse
  split
  · rename_i r' eq
    rw [eq] at resident
    obtain ⟨still, ready⟩ := resident rfl
    change r' = r at still
    subst still
    refine ⟨inv.setUse found ?_ ?_ ?_, fun v body => ?_⟩
    · rw [leased]; rfl
    · rw [active]; rfl
    · intro left t h; cases h
    · exact .inr ready
  · rename_i r' error eq
    rw [eq] at good same
    have found' : r'.uses[u]? = some use := by rw [same]; exact found
    exact trans good same (good.1.exitUse found' active leased _)
  · rename_i r' left' t initiator eq
    rw [eq] at good same held
    have found' : r'.uses[u]? = some use := by rw [same]; exact found
    refine trans good same (of_good (good.1.setUse found' ?_ ?_ ?_) fun v body => ?_)
    · rw [leased]; rfl
    · rw [active]; rfl
    · intro _ _ h
      cases h
      exact held left' t rfl
    · rcases bodyAt_setUse body with old | impossible
      · exact old
      · cases impossible

section

variable (unleased : use.phase.leased = false) (active : use.phase.active = true)
include unleased active

theorem Inv.leaseUse (quiet : r.NoLive)
    (prepares : Bool) : r.Entered o (r.leaseUse o u prepares) := by
  unfold RetainedRoom.leaseUse
  split
  · exact inv.exitUse found active unleased _
  have good := inv.lease found unleased active quiet
  have bodies : ∀ v, (({ r with leases := r.leases + 1 } : RetainedRoom).setUse u
      .preparing).BodyAt v → r.BodyAt v := fun v body => by
    rcases bodyAt_setUse body with old | impossible
    · exact old
    · cases impossible
  have found' : (({ r with leases := r.leases + 1 } : RetainedRoom).setUse u
      .preparing).uses[u]? = some { use with phase := .preparing } := by
    show (r.uses.modify u _)[u]? = _
    rw [getElem?_modify_eq, found]
    rfl
  split
  · exact of_good good bodies
  · have resided := good.1.resideUse found' rfl rfl maxResidencySteps
    exact ⟨Good.trans good.2 resided.1, fun v body => (resided.2 v body).imp (bodies v) id⟩

theorem Inv.settleUse (prepares : Bool)
    (left : Nat) : r.Entered o (r.settleUse o u prepares left) := by
  obtain ⟨good, same, settled⟩ := settleFrom_spec inv left
  unfold RetainedRoom.settleUse
  split
  · rename_i r' eq
    rw [eq] at settled
    obtain ⟨still, -, flight, -⟩ := settled rfl
    change r' = r at still
    subst still
    exact inv.leaseUse found unleased active (inv.1.noLive flight) prepares
  · rename_i r' error eq
    rw [eq] at good same
    have found' : r'.uses[u]? = some use := by rw [same]; exact found
    exact trans good same (good.1.exitUse found' active unleased _)
  · rename_i r' left' on eq
    rw [eq] at good same
    have found' : r'.uses[u]? = some use := by rw [same]; exact found
    refine trans good same (of_good (good.1.setUse found' ?_ ?_ ?_) fun v body => ?_)
    · rw [unleased]; rfl
    · rw [active]; rfl
    · intro _ _ h; cases h
    rcases bodyAt_setUse body with old | impossible
    · exact old
    · cases impossible

end

end

omit inv in
theorem Core.enter (core : r.Core o) (open_ : r.isClosing o = false) (holder : TaskId)
    (prepares : Bool) (left : Nat) (on : SettleWait) :
    Core o { r with
      holders := holder :: r.holders
      uses := r.uses ++ [⟨holder, prepares, .settling left on⟩] } := by
  have unclosing := closing_false_of_isClosing open_
  refine { core with
    live := ?_, disposal := ?_, closed := ?_, leases_count := ?_, holders_count := ?_,
    initiator := ?_ }
  · intro t kind phase present pending
    have old := core.live t kind phase present pending
    refine ⟨old.1, ?_⟩
    cases kind with
    | acquire => exact old.2
    | release cause previous automatic =>
      obtain ⟨state, unleased, stronger, final⟩ := old.2
      refine ⟨state, unleased, stronger, fun h => ?_⟩
      rw [(final h).2] at unclosing
      cases unclosing
  · intro d phase present
    have none_ : r.disposals = [] := core.no_disposals unclosing
    rw [show ({ r with
      holders := holder :: r.holders
      uses := r.uses ++ [⟨holder, prepares, .settling left on⟩] } : RetainedRoom).disposals = []
      from none_] at present
    cases present
  · intro closed
    have := (core.closed closed).1
    rw [unclosing] at this
    cases this
  · show r.leases = (r.uses ++ [_]).countP _
    rw [countP_append, core.leases_count]
    rfl
  · intro other
    show (holder :: r.holders).count other = (r.uses ++ [_]).countP _
    rw [countP_append, count_cons, core.holders_count]
    cases same : holder == other <;> simp [UsePhase.active, same]
  · intro use member left' t residing
    rcases mem_append.1 member with old | new
    · exact core.initiator use old left' t residing
    · rw [mem_singleton.1 new] at residing
      cases residing

theorem Inv.enterUse (holder : TaskId) (prepares : Bool) : r.Entered o (r.enterUse o holder prepares) := by
  unfold RetainedRoom.enterUse
  split
  · -- admission is closed: the refused call holds nothing
    obtain ⟨core, idle⟩ := inv
    refine of_good ⟨⟨{ core with leases_count := ?_, holders_count := ?_, initiator := ?_ },
      idle.1, idle.2⟩, Grows.frame rfl rfl rfl rfl rfl rfl rfl⟩ ?_
    · show r.leases = (r.uses ++ [_]).countP _
      rw [countP_append, core.leases_count]
      rfl
    · intro other
      show r.holders.count other = (r.uses ++ [_]).countP _
      rw [countP_append, core.holders_count]
      rfl
    · intro use member left t residing
      rcases mem_append.1 member with old | new
      · exact core.initiator use old left t residing
      · rw [mem_singleton.1 new] at residing
        cases residing
    · rintro v ⟨use, found, body⟩
      rcases getElem?_append_singleton found with old | ⟨-, rfl⟩
      · exact ⟨use, old, body⟩
      · cases body
  · rename_i admitting
    have open_ : r.isClosing o = false := by simpa using admitting
    have entered := (inv.1.enter open_ holder prepares maxSettleSteps
      (.settleable r.settleable.sets)).good_schedule (o := o) false
    have found : (RetainedRoom.schedule o { r with
        holders := holder :: r.holders
        uses := r.uses ++ [⟨holder, prepares, .settling maxSettleSteps
          (.settleable r.settleable.sets)⟩] } false).uses[r.uses.length]? =
        some ⟨holder, prepares, .settling maxSettleSteps (.settleable r.settleable.sets)⟩ := by
      rw [uses_schedule]
      simp
    have settled := entered.1.settleUse found rfl rfl prepares maxSettleSteps
    refine ⟨⟨settled.1.1, Grows.trans ?_ (entered.2.trans settled.1.2)⟩, fun v body => ?_⟩
    · exact Grows.frame rfl rfl rfl rfl rfl rfl rfl
    refine (settled.2 v body).imp (fun old => ?_) id
    obtain ⟨use, found, at_⟩ := bodyAt_of_uses (uses_schedule false) v old
    rcases getElem?_append_singleton found with old | ⟨-, rfl⟩
    · exact ⟨use, old, at_⟩
    · cases at_

theorem Inv.resumeUse {wake : Wake} (resumed : r.resumeUse o u wake = some r') : r.Entered o r' := by
  unfold RetainedRoom.resumeUse at resumed
  split at resumed
  · rename_i holder prepares left t found
    have busy := inv.1.holders_ne_nil found rfl
    obtain ⟨good, same⟩ := joined_spec inv t false wake nofun busy
    split at resumed
    · cases resumed
      split
      · rename_i r₁ eq
        rw [eq] at good same
        have found' : r₁.uses[u]? = _ := (congrArg (·[u]?) same).trans found
        exact trans good same (good.1.settleUse found' rfl rfl prepares left)
      · rename_i r₁ outcome eq
        rw [eq] at good same
        have found' : r₁.uses[u]? = _ := (congrArg (·[u]?) same).trans found
        exact trans good same (good.1.exitUse found' rfl rfl outcome)
    · cases resumed
  · rename_i holder prepares left seen found
    split at resumed
    · split at resumed
      · cases resumed
        exact inv.settleUse found rfl rfl prepares left
      · cases resumed
    · cases resumed
      exact inv.exitUse found rfl rfl _
    · cases resumed
  · rename_i holder prepares left t initiator found
    have busy := inv.1.holders_ne_nil found rfl
    obtain ⟨good, same⟩ := joined_spec inv t initiator wake
      (fun own => inv.1.initiator _ (mem_of_getElem? found) left t (by rw [own])) busy
    split at resumed
    · cases resumed
      split
      · rename_i r₁ eq
        rw [eq] at good same
        have found' : r₁.uses[u]? = _ := (congrArg (·[u]?) same).trans found
        exact trans good same (good.1.resideUse found' rfl rfl left)
      · rename_i r₁ outcome eq
        rw [eq] at good same
        have found' : r₁.uses[u]? = _ := (congrArg (·[u]?) same).trans found
        exact trans good same (good.1.exitUse found' rfl rfl outcome)
    · cases resumed
  · cases resumed

theorem Inv.prepared {outcome : Outcome} (ended : r.prepared o u outcome = some r') : r.Entered o r' := by
  unfold RetainedRoom.prepared at ended
  split at ended
  · rename_i holder prepares found
    cases ended
    split
    · exact inv.resideUse found rfl rfl maxResidencySteps
    · exact inv.exitUse found rfl rfl outcome
  · cases ended

theorem Inv.bodyEnded {outcome : Outcome} (ended : r.bodyEnded o u outcome = some r') : r.Entered o r' := by
  unfold RetainedRoom.bodyEnded at ended
  split at ended
  · rename_i holder prepares found
    cases ended
    exact inv.exitUse found rfl rfl outcome
  · cases ended

end

end RetainedRoom

end BandSdk.Retention

/-
# Rooms.Delivery -- the step tasks keep the ledger

A start hands over the head of the queue, gives up a part of it, or ends.  The
delivery loop's exits all end in the same last segment (`finishStart`), which
overwrites the phase, so each exit is split in two: first what left the queue,
with the step parked at a phase the ledger does not read, then the routing.
-/
import BandSdk.Rooms.Ledger

namespace BandSdk.Rooms

open BandSdk.Theory List Function Slot

variable {E : Type}

namespace StepPhase

theorem busy_of_delivers {p : StepPhase E} (delivers : p.delivers = true) : p.busy = true := by
  cases p <;> first | rfl | cases delivers

theorem tail_of_idle {p : StepPhase E} (idle : p.delivers = false) : p.tail = [] := by
  cases p <;> first | rfl | cases idle

end StepPhase

namespace Slot

variable {a : Admission} {s s' : Slot E} {t k : Nat} {x : ExecId} {p p' : StepPhase E}
  {generation : Nat}

/-- Only step `t` may be delivering. -/
def Sole (s : Slot E) (t : Nat) : Prop :=
  ∀ (t' : Nat) (step : Step E), t' ≠ t → s.steps[t']? = some step → step.phase.delivers = false

theorem Inv.sole (inv : s.Inv a) (found : s.steps[t]? = some ⟨k, p⟩) (busy : p.busy = true) : s.Sole t := by
  intro t' step other found'
  cases delivers : step.phase.delivers with
  | false => rfl
  | true =>
    have last := inv.busy_last t _ found busy
    have last' := inv.busy_last t' step found' (StepPhase.busy_of_delivers delivers)
    omega

theorem Sole.batch (sole : s.Sole t) (found : s.steps[t]? = some ⟨k, p⟩) : s.batch = p.tail :=
  flatMap_eq_of_unique found fun t' step other found' =>
    StepPhase.tail_of_idle (sole t' step other found')

theorem Sole.moved (sole : s.Sole t)
    (steps : s'.steps = s.steps.modify t fun step => { step with phase := p' }) : s'.Sole t := by
  intro t' step other found'
  rw [steps] at found'
  rcases getElem?_modify_cases found' with ⟨same, -⟩ | ⟨-, kept⟩
  · exact absurd same other
  · exact sole t' step other kept

section

variable (found : s.steps[t]? = some ⟨k, p⟩)
  (steps : s'.steps = s.steps.modify t fun step => { step with phase := p' })
include found steps

theorem found_moved : s'.steps[t]? = some ⟨k, p'⟩ := by
  rw [steps, getElem?_modify_eq, found]
  rfl

theorem moved_cases {t' : Nat} {step : Step E} (found' : s'.steps[t']? = some step) :
    (t' = t ∧ step = ⟨k, p'⟩) ∨ (t' ≠ t ∧ s.steps[t']? = some step) := by
  rw [steps] at found'
  rcases getElem?_modify_cases found' with ⟨rfl, old, present, rfl⟩ | ⟨other, kept⟩
  · rw [found] at present
    cases present
    exact .inl ⟨rfl, rfl⟩
  · exact .inr ⟨other, kept⟩

end

theorem delivers_of_idle (idle : p.delivers = false) : s.Delivers k p := by
  cases p <;> trivial

theorem batch_moved (found : s.steps[t]? = some ⟨k, p⟩) (tail : p'.tail = p.tail)
    (steps : s'.steps = s.steps.modify t fun step => { step with phase := p' }) :
    s'.batch = s.batch := by
  rw [batch, batch, steps, flatMap_def, flatMap_def, map_modify_of_found found tail]

section

variable (ledger : s.Ledger a)
include ledger

section

variable (found : s.steps[t]? = some ⟨k, p⟩) (empty : p.tail = []) (idle : p'.delivers = false)
include found empty idle

/-- A step with nothing to deliver moves to where it delivers nothing. -/
theorem Ledger.moved (steps : s'.steps = s.steps.modify t fun step => { step with phase := p' }) {room : Room E}
    (records : s'.records = update s.records k room) (keeps : Keeps (s.records k) room)
    (log : s'.log = s.log) (arrivals : s'.arrivals = s.arrivals) (born : s'.born = s.born)
    (current : s'.current = s.current) (continues : s.Continues s')
    (routed : s'.routed = s.routed ∨ s'.routed = none) : s'.Ledger a := by
  refine ledger.write records keeps log arrivals born current ?_ continues routed ?_
  · exact batch_moved found (by rw [empty, StepPhase.tail_of_idle idle]) steps
  intro t' step found'
  rcases moved_cases found steps found' with ⟨-, rfl⟩ | ⟨-, kept⟩
  · exact .inr idle
  · exact .inl kept

theorem Ledger.setPhase : (s.setPhase t p').Ledger a := by
  have same : (s.setPhase t p').records = update s.records k (s.records k) :=
    (update_eq_self ..).symm
  exact ledger.moved found empty idle rfl same (Keeps.refl _) rfl rfl rfl rfl
    (Continues.of_eq rfl) (.inl rfl)

end

/-! ## Giving up a part of the queue -/

section

variable (sole : s.Sole t) (found : s.steps[t]? = some ⟨k, p⟩)
include sole found

/-- The first events of the queue are dropped, and the start parks where it
delivers nothing. -/
theorem Ledger.undelivered (registered : s.current = some k)
    {lost rest : List (Held E)} {why : Drop E} (queue : s.queued = lost ++ rest)
    (kept : rest.Sublist (s.records k).held) (log : s'.log = s.log ++ lost.map (.dropped · why))
    (records : s'.records = Function.update s.records k { s.records k with held := rest })
    (idle : p'.delivers = false)
    (steps : s'.steps = s.steps.modify t fun step => { step with phase := p' })
    (arrivals : s'.arrivals = s.arrivals) (born : s'.born = s.born)
    (current : s'.current = s.current) (executions : s'.executions = s.executions)
    (routed : s'.routed = s.routed) (justified : ∀ item ∈ lost, s'.Justified a item why) :
    s'.Ledger a := by
  have here : s'.records k = { s.records k with held := rest } := by
    rw [records, update_self]
  have requeued : s.Requeued s' := by
    refine ledger.requeued records ⟨Nat.le_refl _, fun _ => id⟩ (fun _ => rfl)
      (fun item member => ledger.tagged k item (kept.subset member)) fun some_ => ?_
    exact ledger.wanted k fun none_ => some_ (sublist_nil.1 (none_ ▸ kept))
  have queue₀ : s.queued = [] ++ lost ++ rest := queue
  have queue' : s'.queued = [] ++ rest := by
    rw [queued, (sole.moved steps).batch (found_moved found steps), StepPhase.tail_of_idle idle,
      holding_of_current (current.trans registered), here]
  refine ledger.dropped queue₀ queue' log arrivals (Nat.le_of_eq born.symm)
    (Continues.of_eq executions) (.inl routed) requeued (fun t' step found' => ?_) justified
  rcases moved_cases found steps found' with ⟨-, rfl⟩ | ⟨other, old⟩
  · exact delivers_of_idle idle
  · exact delivers_of_idle (sole t' step other old)

/-! ## Handing over -/

/-- The head of the queue is handed to the starting execution. -/
theorem Ledger.handed_over (registered : s.current = some k)
    {item : Held E} {rest held : List (Held E)} {delivered : Nat}
    (fresh : s.Fresh k x generation delivered) (stands : s.stands a k generation = true)
    (queue : s.queued = item :: (rest ++ held)) (kept : held.Sublist (s.records k).held)
    (tags : ∀ other ∈ item :: rest, other.record = k ∧ other.generation = generation)
    (log : s'.log = s.log ++ [.handed item x])
    (records : s'.records = Function.update s.records k { s.records k with held := held })
    (steps : s'.steps = s.steps.modify t fun step =>
      { step with phase := .delivering x generation rest delivered })
    (arrivals : s'.arrivals = s.arrivals) (born : s'.born = s.born)
    (current : s'.current = s.current) (executions : s'.executions = s.executions)
    (routed : s'.routed = s.routed) : s'.Ledger a := by
  obtain ⟨⟨e, present, record, began, unrouted⟩, count, le⟩ := fresh
  have here : s'.records k = { s.records k with held := held } := by
    rw [records, update_self]
  have queue' : s'.queued = rest ++ held := by
    rw [queued, (sole.moved steps).batch (found_moved found steps),
      holding_of_current (current.trans registered), here]
    rfl
  have counts : ∀ y, s.handedCount y ≤ s'.handedCount y := fun y => by
    rw [handedCount, handedCount, log, countP_append]
    exact Nat.le_add_right ..
  have admitted : (s.records k).wanted = true ∧ (s.records k).generation = generation := by
    simp only [Slot.stands, admits, Bool.and_eq_true, beq_iff_eq] at stands
    exact ⟨stands.1.1, stands.2⟩
  have requeued : s.Requeued s' := ledger.requeued records ⟨Nat.le_refl _, fun _ => id⟩ (fun _ => rfl)
    (fun other member => ledger.tagged k other (kept.subset member)) fun _ => admitted.1
  refine {
    books := ?_, tagged := requeued.tagged, wanted := requeued.wanted, unborn := ?_, phases := ?_
    handed := ?_, live := ?_, before_live := ?_, why := ?_, routed := ?_ }
  · have books := ledger.books
    rw [queue, map_cons] at books
    rw [log, filterMap_append, filterMap_append, queue', arrivals]
    exact books.hand
  · intro j unborn
    exact (requeued.unborn j (born ▸ unborn)).trans (ledger.unborn j (born ▸ unborn))
  · intro t' step found'
    rcases moved_cases found steps found' with ⟨-, rfl⟩ | ⟨other, old⟩
    · refine ⟨⟨⟨e, by rw [executions]; exact present, record, began, unrouted⟩, ?_, ?_⟩, ?_, ?_⟩
      · rw [handedCount, log, countP_append]
        rw [handedCount] at count
        simp [count, LogEntry.handedTo]
      · exact Nat.le_trans le (requeued.outlasts k).1
      · exact fun other member => tags other (mem_cons_of_mem _ member)
      intro _ _
      rw [here]
      exact admitted.1
    · exact delivers_of_idle (sole t' step other old)
  · intro other y member
    rw [log] at member
    rw [executions]
    rcases mem_append.1 member with old | new
    · exact ledger.handed other y old
    cases mem_singleton.1 new
    obtain ⟨tag, tag'⟩ := tags item mem_cons_self
    exact ⟨e, present, record.trans tag.symm, began.trans tag'.symm⟩
  · intro event y member
    rw [log] at member
    rw [executions]
    rcases mem_append.1 member with old | new
    · exact ledger.live event y old
    · cases mem_singleton.1 new
  · rw [log, pairwise_append]
    refine ⟨ledger.before_live, pairwise_singleton .., ?_⟩
    intro earlier before later new event other y isLive isHanded
    -- an execution that receives live events is routed; a starting one is not
    rw [mem_singleton.1 new] at isHanded
    cases isHanded
    rw [isLive] at before
    obtain ⟨e', present', route⟩ := ledger.live event x before
    rw [present] at present'
    cases present'
    rw [unrouted] at route
    cases route
  · intro other why member
    rw [log] at member
    rcases mem_append.1 member with old | new
    · have was := ledger.why other why old
      cases why with
      | evicted full =>
        obtain ⟨length, first, sorted, later, lt, below⟩ := was
        exact ⟨length, first, sorted, later, by rw [arrivals]; exact lt, below⟩
      | flooded y => exact Nat.le_trans was (counts y)
      | discarded => exact was.imp (fun lt => Nat.lt_of_lt_of_le lt (requeued.outlasts other.record).1) id
      | lost => exact was
    · cases mem_singleton.1 new
  · intro y has
    rw [routed] at has
    have empty := (ledger.routed y has).1
    rw [queue] at empty
    cases empty

/-! ## Ending a start -/

/-- Routing an execution once nothing is queued. -/
theorem Ledger.route (idle : p.delivers = false) {e : Execution} (present : s.executions[x]? = some e)
    (drained : s.queued = []) :
    Ledger a (({ s with routed := some x } : Slot E).mark x fun e => { e with routed := true }) := by
  have marked : ∀ (y : Nat) (e : Execution), s.executions[y]? = some e →
      ∃ e', (s.executions.modify x fun e => { e with routed := true })[y]? = some e' ∧
        e'.record = e.record ∧ e'.generation = e.generation ∧
        (e.routed = true → e'.routed = true) ∧ (y = x → e'.routed = true) := by
    intro y e found
    by_cases same : x = y
    · subst same
      rw [getElem?_modify_eq, found]
      exact ⟨_, rfl, rfl, rfl, fun _ => rfl, fun _ => rfl⟩
    · rw [getElem?_modify_ne _ _ same]
      exact ⟨e, found, rfl, rfl, id, fun h => absurd h.symm same⟩
  refine { ledger with phases := ?_, handed := ?_, live := ?_, routed := ?_ }
  · intro t' step found'
    by_cases same : t' = t
    · subst same
      have eq := found.symm.trans found'
      cases eq
      exact delivers_of_idle idle
    · exact delivers_of_idle (sole t' step same found')
  · intro item y member
    obtain ⟨e, found, record, began⟩ := ledger.handed item y member
    obtain ⟨e', found', record', began', -⟩ := marked y e found
    exact ⟨e', found', record'.trans record, began'.trans began⟩
  · intro event y member
    obtain ⟨e, found, route⟩ := ledger.live event y member
    obtain ⟨e', found', -, -, route', -⟩ := marked y e found
    exact ⟨e', found', route' route⟩
  · intro y has
    cases has
    obtain ⟨e', found', -, -, -, route'⟩ := marked x e present
    exact ⟨drained, e', found', route' rfl⟩

end

theorem Ledger.endStart (found : s.steps[t]? = some ⟨k, p⟩) (empty : p.tail = []) : (s.endStart t k).Ledger a :=
  ledger.moved found empty rfl rfl rfl ⟨rfl, rfl, id⟩ rfl rfl rfl rfl (Continues.of_eq rfl)
    (.inl rfl)

/-- The last segment of a start whose step is parked. -/
theorem Ledger.finishStart (sole : s.Sole t)
    (found : s.steps[t]? = some ⟨k, p⟩) (idle : p.delivers = false) {e : Execution}
    (present : s.executions[x]? = some e)
    (drained : s.stands a k generation = true → s.queued = []) (resyncs : Bool) :
    (s.finishStart a t k x generation resyncs).Ledger a := by
  have empty := StepPhase.tail_of_idle idle
  unfold Slot.finishStart
  split
  · rename_i stands
    have routed := ledger.route sole found idle present (drained stands)
    split
    · exact routed.setPhase found empty rfl
    · exact routed.endStart found empty
  · exact ledger.endStart found empty

omit ledger in
theorem setPhase_setPhase (s : Slot E) (t : Nat) (p p' : StepPhase E) :
    (s.setPhase t p).setPhase t p' = s.setPhase t p' := by
  simp only [setPhase, modify_modify_eq]
  rfl

omit ledger in
/-- The last segment overwrites the phase, so a start may be parked before it. -/
theorem finishStart_setPhase (s : Slot E) (t k : Nat) (x : ExecId) (generation : Nat)
    (resyncs : Bool) (p : StepPhase E) :
    (s.setPhase t p).finishStart a t k x generation resyncs = s.finishStart a t k x generation resyncs := by
  have ends : ∀ r : Slot E, (r.setPhase t p).endStart t k = r.endStart t k := fun r =>
    setPhase_setPhase (r.setRoom k { r.records k with
      state := if r.serving then .serving else .idle }) t p _
  unfold finishStart
  rw [show (s.setPhase t p).stands a k generation = s.stands a k generation from rfl, ends]
  split
  · dsimp only
    split
    · exact setPhase_setPhase (({ s with routed := some x } : Slot E).mark x fun e =>
        { e with routed := true }) t p _
    · exact ends (({ s with routed := some x } : Slot E).mark x fun e => { e with routed := true })
  · rfl

section

variable (sole : s.Sole t) (found : s.steps[t]? = some ⟨k, p⟩)
include sole found

theorem Ledger.discard (registered : s.current = some k) {delivered : Nat} (fresh : s.Fresh k x generation delivered)
    (tags : ∀ item ∈ p.tail, item.record = k ∧ item.generation = generation)
    (wanted : (s.records k).generation = generation → (s.records k).wanted = true)
    (fallen : s.stands a k generation = false) (resyncs : Bool) :
    ((s.record (p.tail.map (.dropped · .discarded))).finishStart a t k x generation
      resyncs).Ledger a := by
  obtain ⟨⟨e, present, -⟩, -, le⟩ := fresh
  have queue : s.queued = p.tail ++ (s.records k).held := by
    rw [queued, sole.batch found, holding_of_current registered]
  have gone : generation < (s.records k).generation ∨ a.accepting = false := by
    cases accepting : a.accepting with
    | false => exact .inr rfl
    | true =>
      left
      refine Nat.lt_of_le_of_ne le fun same => ?_
      simp [stands, admits, accepting, wanted same.symm, same] at fallen
  have parked : ((s.record (p.tail.map (.dropped · .discarded))).setPhase t
      (.resyncing x)).Ledger a := by
    have same : s.records = update s.records k
      { s.records k with held := (s.records k).held } := (update_eq_self ..).symm
    refine ledger.undelivered sole found registered queue (List.Sublist.refl _) rfl same rfl rfl rfl
      rfl rfl rfl rfl fun item member => ?_
    obtain ⟨tag, tag'⟩ := tags item member
    simp only [Justified, tag, tag']
    exact gone
  rw [← finishStart_setPhase _ _ _ _ _ _ (.resyncing x)]
  refine parked.finishStart (sole.moved rfl) (found_moved found rfl) rfl present ?_ resyncs
  intro stands
  have stands : s.stands a k generation = true := stands
  rw [fallen] at stands
  cases stands

/-- A start that delivered as much as it may drops what is left. -/
theorem Ledger.flood (registered : s.current = some k) {delivered : Nat} (fresh : s.Fresh k x generation delivered)
    (capped : maxDeliverySteps ≤ delivered) (resyncs : Bool) :
    (((s.record ((p.tail ++ (s.records k).held).map (.dropped · (.flooded x)))).setRoom k
      { s.records k with held := [] }).finishStart a t k x generation resyncs).Ledger a := by
  obtain ⟨⟨e, present, -⟩, count, -⟩ := fresh
  have queue : s.queued = (p.tail ++ (s.records k).held) ++ [] := by
    rw [queued, sole.batch found, holding_of_current registered, append_nil]
  have parked : (((s.record ((p.tail ++ (s.records k).held).map (.dropped · (.flooded x)))).setRoom k
      { s.records k with held := [] }).setPhase t (.resyncing x)).Ledger a := by
    refine ledger.undelivered sole found registered queue (nil_sublist _) rfl rfl rfl rfl rfl
      rfl rfl rfl rfl fun item _ => ?_
    show maxDeliverySteps ≤ (s.log ++ _).countP _
    rw [countP_append, countP_dropped]
    rw [handedCount] at count
    omega
  rw [← finishStart_setPhase _ _ _ _ _ _ (.resyncing x)]
  refine parked.finishStart (sole.moved rfl) (found_moved found rfl) rfl present ?_ resyncs
  intro _
  rw [queued, Sole.batch (sole.moved rfl) (found_moved found rfl)]
  exact holding_setRoom (s := s.record _) registered _

/-- A start with nothing left to hand over ends. -/
theorem Ledger.delivered {e : Execution} (present : s.executions[x]? = some e)
    (empty : p.tail = []) (drained : s.stands a k generation = true → s.queued = [])
    (resyncs : Bool) : (s.finishStart a t k x generation resyncs).Ledger a := by
  rw [← finishStart_setPhase _ _ _ _ _ _ (.resyncing x)]
  have parked : (s.setPhase t (.resyncing x)).Ledger a := ledger.setPhase found empty rfl
  refine parked.finishStart (sole.moved rfl) (found_moved found rfl) rfl present (fun stands => ?_)
    resyncs
  have old := drained stands
  rw [queued, sole.batch found, empty] at old
  rw [queued, Sole.batch (sole.moved rfl) (found_moved found rfl)]
  exact old

/-- **The delivery loop**, from any of its awaits to the next. -/
theorem Ledger.deliver (registered : s.current = some k) {delivered : Nat} (fresh : s.Fresh k x generation delivered)
    (tags : ∀ item ∈ p.tail, item.record = k ∧ item.generation = generation)
    (wanted : p.tail ≠ [] → (s.records k).generation = generation → (s.records k).wanted = true)
    (resyncs : Bool) : (s.deliver a t k x generation p.tail delivered resyncs).Ledger a := by
  obtain ⟨e, present, -⟩ := fresh.1
  have queue : s.queued = p.tail ++ (s.records k).held := by
    rw [queued, sole.batch found, holding_of_current registered]
  cases tail : p.tail with
  | cons item rest =>
    simp only [Slot.deliver]
    rw [← tail]
    split
    · rename_i fallen
      exact ledger.discard sole found registered fresh tags
        (wanted (by rw [tail]; simp)) fallen resyncs
    · rename_i stands
      split
      · rename_i capped
        exact ledger.flood sole found registered fresh capped resyncs
      · have same : s.records = update s.records k
            { s.records k with held := (s.records k).held } := (update_eq_self ..).symm
        rw [tail] at queue tags
        exact ledger.handed_over sole found registered fresh (by simpa using stands) queue
          (List.Sublist.refl _) tags rfl same rfl rfl rfl rfl rfl rfl
  | nil =>
    rw [tail, nil_append] at queue
    cases held : (s.records k).held with
    | nil =>
      simp only [Slot.deliver, held]
      exact ledger.delivered sole found present tail (fun _ => queue.trans held) resyncs
    | cons item rest =>
      simp only [Slot.deliver, held]
      split
      · rename_i fallen
        refine ledger.delivered sole found present tail (fun stands => ?_) resyncs
        rw [fallen] at stands
        cases stands
      · rename_i stands
        split
        · rename_i capped
          have flood := ledger.flood sole found registered fresh capped resyncs
          rw [tail, nil_append, held] at flood
          exact flood
        · have stands : s.stands a k generation = true := by simpa using stands
          have same_generation : (s.records k).generation = generation := by
            simp only [Slot.stands, Bool.and_eq_true, beq_iff_eq] at stands
            exact stands.2
          have queue' : s.queued = item :: (rest ++ []) := by
            rw [append_nil]
            exact queue.trans held
          refine ledger.handed_over sole found registered fresh stands queue'
            (nil_sublist _) ?_ rfl rfl rfl rfl rfl rfl rfl rfl
          intro other member
          rw [← same_generation]
          exact ledger.tagged k other (by rw [held]; exact member)

end

/-! ## Every event -/

omit ledger in
theorem continues_mark (s : Slot E) {f : Execution → Execution}
    (record : ∀ e, (f e).record = e.record) (generation : ∀ e, (f e).generation = e.generation)
    (routed : ∀ e, (f e).routed = e.routed) : s.Continues (s.mark x f) := by
  intro y e found
  show ∃ e', (s.executions.modify x f)[y]? = some e' ∧ _
  by_cases same : x = y
  · subst same
    rw [getElem?_modify_eq, found]
    exact ⟨f e, rfl, record e, generation e, routed e⟩
  · rw [getElem?_modify_ne _ _ same]
    exact ⟨e, found, rfl, rfl, rfl⟩

theorem Ledger.began (found : s.steps[t]? = some ⟨k, p⟩)
    (tail : p'.tail = p.tail) (delivers : s.Delivers k p') : (s.setPhase t p').Ledger a := by
  have queue : (s.setPhase t p').queued = s.queued := by
    rw [queued, batch_moved found tail rfl]
    rfl
  refine { ledger with books := ?_, phases := ?_, routed := ?_ }
  · rw [queue]
    exact ledger.books
  · intro t' step found'
    rcases moved_cases found rfl found' with ⟨-, rfl⟩ | ⟨-, kept⟩
    · cases p' <;> exact delivers
    · have old := ledger.phases t' step kept
      cases phase : step.phase <;> rw [phase] at old <;> exact old
  · rw [queue]
    exact ledger.routed

theorem Ledger.build (found : s.steps[t]? = some ⟨k, .startCreated⟩) :
    Ledger a (({ s.setRoom k { s.records k with execution := some s.executions.length } with
      executions := s.executions ++ [{ record := k, generation := (s.records k).generation }] } :
        Slot E).setPhase t (.starting s.executions.length (s.records k).generation)) := by
  have new : (s.executions ++ [({ record := k, generation := (s.records k).generation } :
      Execution)])[s.executions.length]? =
        some { record := k, generation := (s.records k).generation } := by simp
  have uncounted : s.handedCount s.executions.length = 0 := by
    rw [handedCount, countP_eq_zero]
    intro entry member handed
    cases entry with
    | handed item y =>
      have same : y = s.executions.length := by simpa [LogEntry.handedTo] using handed
      obtain ⟨e, present, -⟩ := ledger.handed item y member
      have lt := (List.getElem?_eq_some_iff.1 present).1
      rw [same] at lt
      exact Nat.lt_irrefl _ lt
    | dropped item why | live event y => cases handed
  have built : Ledger a { s.setRoom k { s.records k with execution := some s.executions.length } with
      executions := s.executions ++ [{ record := k, generation := (s.records k).generation }] } := by
    refine ledger.write rfl ⟨rfl, rfl, id⟩ rfl rfl rfl rfl rfl ?_ (.inl rfl) fun _ _ => .inl
    intro y e present
    refine ⟨e, ?_, rfl, rfl, rfl⟩
    rw [List.getElem?_append_left (List.getElem?_eq_some_iff.1 present).1]
    exact present
  refine built.began found rfl ⟨⟨_, new, rfl, rfl, rfl⟩, uncounted, ?_⟩
  simp only [records_setRoom]
  exact Nat.le_refl _

theorem Ledger.runStep {build : Outcome} (ran : s.runStep a t build = some s') : s'.Ledger a := by
  obtain ⟨-, ran⟩ := of_barred ran
  split at ran
  · rename_i k found
    split at ran
    · cases ran
      exact ledger.build found
    · cases ran
      exact ledger.setPhase found rfl rfl
  · rename_i k x found
    cases ran
    have same : (s.mark x fun e => { e with stopBegan := true }).records =
      update s.records k (s.records k) := (update_eq_self ..).symm
    exact ledger.moved found rfl rfl rfl same (Keeps.refl _) rfl rfl rfl rfl
      (continues_mark s (fun _ => rfl) (fun _ => rfl) fun _ => rfl) (.inl rfl)
  · cases ran

theorem Ledger.cancelStep {message : String} (ran : s.cancelStep t message = some s') : s'.Ledger a := by
  obtain ⟨-, ran⟩ := of_barred ran
  split at ran
  · rename_i k found
    cases ran
    exact ledger.setPhase found rfl rfl
  · rename_i k x found
    cases ran
    exact ledger.setPhase found rfl rfl
  · cases ran

theorem Ledger.startEnded (inv : s.Inv a) {resyncs : Bool}
    (ended : s.startEnded a t .returned resyncs = some s') : s'.Ledger a := by
  unfold Slot.startEnded at ended
  split at ended
  · rename_i k x generation found
    cases ended
    rw [if_pos rfl]
    exact ledger.deliver (inv.sole found rfl) found (inv.busy_current t _ found rfl)
      (ledger.phases t _ found) nofun (fun some_ => absurd rfl some_) resyncs
  · cases ended

theorem Ledger.eventEnded (inv : s.Inv a) {resyncs : Bool}
    (ended : s.eventEnded a t .returned resyncs = some s') : s'.Ledger a := by
  unfold Slot.eventEnded at ended
  split at ended
  · rename_i k x generation tail delivered found
    obtain ⟨fresh, tags, wanted⟩ := ledger.phases t _ found
    cases ended
    rw [if_pos rfl]
    exact ledger.deliver (inv.sole found rfl) found (inv.busy_current t _ found rfl) fresh tags
      wanted resyncs
  · cases ended

theorem Ledger.resyncEnded {outcome : Outcome} (ended : s.resyncEnded t outcome = some s') : s'.Ledger a := by
  unfold Slot.resyncEnded at ended
  split at ended
  · rename_i k x message found
    cases ended
    exact ledger.setPhase found rfl rfl
  · rename_i k x found uncancelled
    cases ended
    exact ledger.endStart found rfl
  · cases ended

theorem Ledger.stopEnded {outcome : Outcome} {graceful : Bool}
    (ended : s.stopEnded t outcome graceful = some s') : s'.Ledger a := by
  unfold Slot.stopEnded at ended
  split at ended
  · rename_i k x timeout found
    cases ended
    split
    · have same : (s.mark x fun e => { e with stopped := true }).records =
        update s.records k (s.records k) := (update_eq_self ..).symm
      exact ledger.moved found rfl rfl rfl same (Keeps.refl _) rfl rfl rfl rfl
        (continues_mark s (fun _ => rfl) (fun _ => rfl) fun _ => rfl) (.inl rfl)
    · exact ledger.setPhase found rfl rfl
  · cases ended

theorem Ledger.releaseEnded {outcome : Outcome} (ended : s.releaseEnded t outcome = some s') : s'.Ledger a := by
  unfold Slot.releaseEnded at ended
  split at ended
  · rename_i k x graceful found
    cases ended
    split
    · exact ledger.moved found rfl rfl rfl rfl ⟨rfl, rfl, id⟩ rfl rfl rfl rfl
        (continues_mark s (fun _ => rfl) (fun _ => rfl) fun _ => rfl) (.inl rfl)
    · exact ledger.setPhase found rfl rfl
  · cases ended

theorem Ledger.stepDone (inv : s.Inv a) (done : s.stepDone a t = some s') : s'.Ledger a := by
  unfold Slot.stepDone at done
  split at done
  · rename_i k outcome found
    have reported : (s.setPhase t .reported).Ledger a := ledger.setPhase found rfl rfl
    cases failure : Retention.taskFailure outcome with
    | none =>
      simp only [failure] at done
      cases done
      exact reported.advance (inv.current_lt k)
    | some error =>
      simp only [failure] at done
      cases done
      have idle : ((s.setPhase t .reported).setRoom k
          { s.records k with state := .idle }).Ledger a := reported.setRoom ⟨rfl, rfl, id⟩
      split
      · exact idle.advance (inv.current_lt k)
      · exact idle.fail k _
  · cases done

end

/-! ## Progress -/

theorem finishStart_routed (stands : s.stands a k generation = true) (resyncs : Bool) :
    (s.finishStart a t k x generation resyncs).routed = some x := by
  unfold finishStart
  rw [if_pos stands]
  split <;> rfl

/-- Under a standing admission the loop routes its execution or hands over one
more event. -/
theorem deliver_progress (found : s.steps[t]? = some ⟨k, p⟩)
    (stands : s.stands a k generation = true) (tail : List (Held E)) (delivered : Nat) (resyncs : Bool) :
    (s.deliver a t k x generation tail delivered resyncs).routed = some x ∨
      ∃ rest n, (s.deliver a t k x generation tail delivered resyncs).steps[t]? =
          some ⟨k, .delivering x generation rest n⟩ ∧
        (s.deliver a t k x generation tail delivered resyncs).stands a k generation = true ∧
        rest.length + ((s.deliver a t k x generation tail delivered resyncs).records k).held.length <
          tail.length + (s.records k).held.length := by
  have emptied : ∀ entries, ((s.record entries).setRoom k { s.records k with held := [] }).stands
      a k generation = true := fun entries => by
    simpa [Slot.stands, admits, records_setRoom] using stands
  have up : ¬ s.stands a k generation = false := by simp [stands]
  cases tail with
  | cons item rest =>
    simp only [deliver]
    rw [if_neg up]
    split
    · exact .inl (finishStart_routed (emptied _) resyncs)
    refine .inr ⟨rest, delivered, found_moved found rfl, stands, ?_⟩
    show rest.length + (s.records k).held.length < _
    simp only [length_cons]
    omega
  | nil =>
    cases held : (s.records k).held with
    | nil =>
      simp only [deliver, held]
      exact .inl (finishStart_routed stands resyncs)
    | cons item rest =>
      simp only [deliver, held]
      rw [if_neg up]
      split
      · exact .inl (finishStart_routed (emptied _) resyncs)
      refine .inr ⟨rest, delivered, found_moved found rfl, emptied [], ?_⟩
      show rest.length + ((s.setRoom k _).records k).held.length < _
      rw [records_setRoom]
      simp

end Slot

end BandSdk.Rooms

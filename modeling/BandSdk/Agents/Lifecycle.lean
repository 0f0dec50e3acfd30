/-
# Agents.Lifecycle -- one owner for one agent

At most one call is past the stop lock or inside a start body that has not come up:
the *busy* one.  All that the flags owe to a call under way they owe to it; a call that
waits for the lock is owed nothing, which is why several may.

An overlapping start() that no check refuses breaks this at once: `overlap_not_refused`
has a run with it, and the results leave it out.
-/
import BandSdk.Agents.Holdings

namespace BandSdk.Agents

open BandSdk.Theory List Option Call Host

namespace Call

def isStart : Call → Bool
  | .start .. => true
  | .stop _ => false

/-- A start body that has not come up. -/
def coming : Call → Bool
  | .start (.stopping _) _ => false
  | .start .. => true
  | .stop _ => false

/-- Past the stop lock, or coming up. -/
def busy : Call → Bool
  | .start (.stopping .locking) _ => false
  | .stop .locking => false
  | _ => true

/-- What the flags owe to a busy call. -/
def Owes (setup : Setup) (stops task : Nat) (h : Host) : Call → Prop
  | .start (.stopping phase) _ => h.stopLock ∧ phase.Owes h
  | .start phase since => phase.Owes setup h ∧ h.holder = some task ∧ (since < stops → h.stopRequested)
  | .stop phase => h.stopLock ∧ phase.Owes h

/-- Nothing is owed of the lock's queue, and a request only stays. -/
theorem Owes.aside {setup : Setup} {stops stops' task : Nat} {h : Host} {c : Call}
    {waiters : List Nat} {request starting : Bool} (owes : c.Owes setup stops task h)
    (asked : h.stopRequested ∨ stops < stops' → request) :
    c.Owes setup stops' task
      { h with waiters := waiters, stopRequested := request, starting := starting } := by
  have stop : ∀ phase : StopPhase, phase.Owes h → phase.Owes
      { h with waiters := waiters, stopRequested := request, starting := starting } := by
    intro phase due
    cases phase <;> exact due
  cases c with
  | stop phase => exact ⟨owes.1, stop phase owes.2⟩
  | start phase since =>
    cases phase with
    | stopping phase => exact ⟨owes.1, stop phase owes.2⟩
    | _ =>
      refine ⟨owes.1, owes.2.1, fun counted => asked ?_⟩
      rcases Nat.lt_or_ge since stops with before | after
      · exact .inl (owes.2.2 before)
      · exact .inr (Nat.lt_of_le_of_lt after counted)

theorem Owes.of_start {setup : Setup} {stops task since : Nat} {h : Host} {phase : StartPhase}
    (owes : phase.Owes setup h) (holder : h.holder = some task) (asked : since < stops → h.stopRequested) :
    (Call.start phase since).Owes setup stops task h ∧ (Call.start phase since).coming := by
  cases phase with
  | stopping phase => exact owes.elim
  | _ => exact ⟨⟨owes, holder, asked⟩, rfl⟩

theorem coming_start {c : Call} (coming : c.coming) : c.isStart ∧ c.busy := by
  cases c with
  | start phase since => cases phase <;> simp_all [Call.coming, isStart, busy]
  | stop phase => simp [Call.coming] at coming

end Call

/-- A stop leaves cleanup pending only to a start it left its request with; a start that was asked
to stop does not leave the agent running. -/
def Returned.Honest : Returned → Prop
  | .stop _ recorded pending => pending → recorded
  | .start _ asked running => asked → running = false

namespace Agent

variable {setup : Setup} {a a' : Agent}

structure Owned (setup : Setup) (a : Agent) : Prop where
  sound : a.host.Sound setup
  fresh : ∀ call, a.made ≤ call → a.calls call = none
  stopped : ∀ call c, a.calls call = some c → c.busy → a.host.started = false
  owes : ∀ call c, a.calls call = some c → c.busy → c.Owes setup a.stops call a.host
  oneBusy : ∀ t u c d, a.calls t = some c → a.calls u = some d → c.busy → d.busy → t = u
  starting : a.host.starting ↔ ∃ call c, a.calls call = some c ∧ c.isStart
  oneStart : ∀ t u c d, a.calls t = some c → a.calls u = some d → c.isStart → d.isStart → t = u
  kept : a.host.Kept ∨ ∃ call c, a.calls call = some c ∧ c.coming
  holder : ∀ call c, a.calls call = some c → c.isStart → ∀ held, a.host.holder = some held → held = call
  honest : ∀ note ∈ a.log, note.Honest

/-- **One call moves on.**  What the others are owed has to survive, and a busy next needs them
all to wait. -/
theorem Owned.move (owned : a.Owned setup) (task : Nat) (next : Option Call)
    (calls : a'.calls = Function.update a.calls task next)
    (made : a.made ≤ a'.made) (below : task < a'.made) (sound : a'.host.Sound setup)
    (owes : ∀ c, next = some c → c.busy → a'.host.started = false ∧
      c.Owes setup a'.stops task a'.host ∧ ∀ u d, u ≠ task → a.calls u = some d → d.busy = false)
    (others : ∀ u c, u ≠ task → a.calls u = some c → c.busy →
      a'.host.started = false ∧ c.Owes setup a'.stops u a'.host)
    (starting : a'.host.starting ↔ (∃ c, next = some c ∧ c.isStart) ∨
      ∃ u c, u ≠ task ∧ a.calls u = some c ∧ c.isStart)
    (oneStart : ∀ c, next = some c → c.isStart → ∀ u d, u ≠ task → a.calls u = some d → d.isStart = false)
    (kept : a'.host.Kept ∨ (∃ c, next = some c ∧ c.coming) ∨ ∃ u c, u ≠ task ∧ a.calls u = some c ∧ c.coming)
    (holder : ∀ held, a'.host.holder = some held → (∀ c, next = some c → c.isStart → held = task) ∧
      ∀ u c, u ≠ task → a.calls u = some c → c.isStart → held = u)
    (honest : ∀ note ∈ a'.log, note.Honest) : a'.Owned setup := by
  have here : a'.calls task = next := by simp [calls]
  have there : ∀ u, u ≠ task → a'.calls u = a.calls u := by
    intro u other
    simp [calls, other]
  constructor
  case sound => exact sound
  case fresh =>
    intro call late
    rw [there call (by omega)]
    exact owned.fresh call (by omega)
  case stopped => grind -linarith
  case owes => grind -linarith
  case oneBusy => grind -linarith [Owned]
  case starting => grind -linarith
  case oneStart => grind -linarith [Owned]
  case kept => grind -linarith
  case holder => grind -linarith
  case honest => exact honest

/-! ### What a call finds -/

variable {result : Host × Progress StopPhase} {task : Nat} {c : Call}

section

variable (owned : a.Owned setup)
include owned

section

variable (found : a.calls task = some c)
include found

theorem Owned.waiting (busy : c.busy) : ∀ u d, u ≠ task → a.calls u = some d → d.busy = false := by
  intro u d other live
  by_contra also
  exact other (owned.oneBusy u task d c live found (by simpa using also) busy)

theorem Owned.onlyStart (start : c.isStart) : ∀ u d, u ≠ task → a.calls u = some d → d.isStart = false := by
  intro u d other live
  by_contra also
  exact other (owned.oneStart u task d c live found (by simpa using also) start)

theorem Owned.cleaning (busy : c.busy) (past : c.coming = false) : a.host.stopLock ∧ a.host.cleanupPending := by
  have owes := owned.owes task c found busy
  have pends : ∀ phase : StopPhase, phase.Owes a.host → a.host.cleanupPending := by
    intro phase due
    cases phase <;> grind -linarith [StopPhase.Owes, cleanupPending]
  rcases c with ⟨phase, _⟩ | _
  · cases phase with
    | stopping phase => exact ⟨owes.1, pends phase owes.2⟩
    | _ => cases past
  · exact ⟨owes.1, pends _ owes.2⟩

theorem Owned.coming_starting (coming : c.coming) : a.host.starting ∧ a.host.started = false := by
  obtain ⟨start, busy⟩ := coming_start coming
  exact ⟨owned.starting.2 ⟨task, c, found, start⟩, owned.stopped task c found busy⟩

end

theorem Owned.all_waiting (free : a.host.stopLock = false) (come : a.host.starting → a.host.started) :
    ∀ u d, a.calls u = some d → d.busy = false := by
  intro u d live
  by_contra busy
  by_cases coming : d.coming = true
  · obtain ⟨starting, stopped⟩ := owned.coming_starting live coming
    simp [come starting] at stopped
  · have held := (owned.cleaning live (by simpa using busy) (by simpa using coming)).1
    simp [free] at held

theorem Owned.kept_of_come (come : a.host.starting → a.host.started) : a.host.Kept := by
  rcases owned.kept with kept | ⟨u, d, live, coming⟩
  · exact kept
  · obtain ⟨starting, stopped⟩ := owned.coming_starting live coming
    simp [come starting] at stopped

/-! ### A stop runs -/

/-- A stop past the lock, whatever it is next. -/
theorem Owned.stop_moves (next : Option Call) (cleans : a.host.Cleans setup result)
    (waiting : ∀ u d, u ≠ task → a.calls u = some d → d.busy = false)
    (stop : ∀ c, a.calls task = some c → c.isStart = false)
    (host : a'.host = result.1) (calls : a'.calls = Function.update a.calls task next)
    (made : a.made ≤ a'.made) (below : task < a'.made)
    (owes : ∀ c, next = some c → c.isStart = false ∧ c.Owes setup a'.stops task a'.host)
    (honest : ∀ note ∈ a'.log, note.Honest) : a'.Owned setup := by
  have starts : ∀ call c, a.calls call = some c → c.isStart → call ≠ task := by
    rintro call c found start rfl
    simp [stop c found] at start
  refine owned.move task next calls made below (host ▸ cleans.sound) ?_ ?_ ?_ ?_ ?_ ?_ honest
  · exact fun c is _ => ⟨host ▸ cleans.stopped, (owes c is).2, waiting⟩
  · intro u c other found busy
    simp [waiting u c other found] at busy
  · rw [host, cleans.starting, owned.starting]
    constructor
    · rintro ⟨call, c, found, start⟩
      exact .inr ⟨call, c, starts call c found start, found, start⟩
    · rintro (⟨c, is, start⟩ | ⟨call, c, -, found, start⟩)
      · simp [(owes c is).1] at start
      · exact ⟨call, c, found, start⟩
  · intro c is start
    simp [(owes c is).1] at start
  · exact .inl (host ▸ cleans.kept)
  intro held is
  refine ⟨fun c will start => ?_, fun u c other found start => ?_⟩
  · simp [(owes c will).1] at start
  rw [host] at is
  rcases cleans.holder with same | gone
  · exact owned.holder u c found start held (same ▸ is)
  · simp [gone] at is

theorem Owned.stop_cleans {task made : Nat} (cleans : a.host.Cleans setup result)
    (waiting : ∀ u d, u ≠ task → a.calls u = some d → d.busy = false)
    (stop : ∀ c, a.calls task = some c → c.isStart = false) (later : a.made ≤ made)
    (below : task < made) : { a.stopNext task result with made := made }.Owned setup := by
  obtain ⟨h, next⟩ := result
  cases next with
  | awaits phase =>
    refine owned.stop_moves (some (.stop phase)) cleans waiting stop rfl rfl later below ?_ owned.honest
    rintro c ⟨rfl⟩
    exact ⟨rfl, cleans.awaits phase rfl⟩
  | returned =>
    refine owned.stop_moves none cleans waiting stop rfl rfl later below (by simp) ?_
    have settled := cleans.returned rfl
    refine forall_mem_append.2 ⟨owned.honest, forall_mem_singleton.2 ?_⟩
    exact fun pending => by simp [settled] at pending
  | recorded => exact (cleans.unrecorded rfl).elim
  | raised =>
    exact owned.stop_moves none cleans waiting stop rfl rfl later below (by simp) owned.honest

/-- **A call leaves the lock's queue or joins it.**  It touches the waiters and the request only, so
what the busy one is owed stays. -/
theorem Owned.aside (next : Option Call) {waiters : List Nat} {request starting : Bool}
    (idle : ∀ c, a.calls task = some c → c.busy = false)
    (waits : ∀ c, next = some c → c.busy = false ∧ c.isStart = false)
    (host : a'.host = { a.host with waiters := waiters, stopRequested := request, starting := starting })
    (inFlight : starting ↔ ∃ u c, u ≠ task ∧ a.calls u = some c ∧ c.isStart)
    (asked : a.host.stopRequested ∨ a.stops < a'.stops → request)
    (calls : a'.calls = Function.update a.calls task next)
    (made : a.made ≤ a'.made) (below : task < a'.made)
    (honest : ∀ note ∈ a'.log, note.Honest) : a'.Owned setup := by
  have sound : a'.host.Sound setup := by
    rw [host]
    exact { owned.sound with }
  refine owned.move task next calls made below sound ?_ ?_ ?_ ?_ ?_ ?_ honest
  · intro c is busy
    simp [(waits c is).1] at busy
  · intro u c other found busy
    rw [host]
    exact ⟨owned.stopped u c found busy, (owned.owes u c found busy).aside asked⟩
  · rw [host]
    grind -linarith
  · intro c is start
    simp [(waits c is).2] at start
  · rcases owned.kept with kept | ⟨u, c, found, coming⟩
    · rw [host]
      exact .inl kept
    · refine .inr (.inr ⟨u, c, ?_, found, coming⟩)
      rintro rfl
      have busy := (coming_start coming).2
      simp [idle c found] at busy
  · intro held is
    refine ⟨fun c will start => ?_, fun u c other found start => ?_⟩
    · simp [(waits c will).2] at start
    · exact owned.holder u c found start held (by rw [← is, host])

theorem Owned.starting_elsewhere (stop : ∀ c, a.calls task = some c → c.isStart = false) :
    a.host.starting ↔ ∃ u c, u ≠ task ∧ a.calls u = some c ∧ c.isStart := by
  rw [owned.starting]
  constructor
  · rintro ⟨u, c, found, start⟩
    refine ⟨u, c, ?_, found, start⟩
    rintro rfl
    simp [stop c found] at start
  · rintro ⟨u, c, -, found, start⟩
    exact ⟨u, c, found, start⟩

theorem Owned.stop_enters {task made : Nat} (waiters : List Nat)
    (free : a.host.stopLock = false) (idle : ∀ c, a.calls task = some c → c.busy = false)
    (stop : ∀ c, a.calls task = some c → c.isStart = false) (later : a.made ≤ made) (below : task < made) :
    { a.stopNext task { a.host with waiters := waiters }.enterStop with made := made }.Owned setup := by
  have sound : { a.host with waiters := waiters }.Sound setup := { owned.sound with }
  by_cases coming : a.host.starting = true ∧ a.host.started = false
  · rw [enterStop_recorded (h := { a.host with waiters := waiters }) coming.1 coming.2]
    refine owned.aside none idle (by simp) rfl (owned.starting_elsewhere stop) (by simp) rfl later
      below ?_
    exact forall_mem_append.2 ⟨owned.honest, forall_mem_singleton.2 fun _ => rfl⟩
  · have come : a.host.starting → a.host.started := by grind -linarith
    have cleans := enterStop_cleans sound come fun _ => owned.kept_of_come come
    exact owned.stop_cleans (cleans.of_eq rfl rfl) (fun u d _ => owned.all_waiting free come u d) stop
      later below

theorem Owned.call_stop :
    { a.stopNext a.made (a.host.callStop a.made) with made := a.made + 1 }.Owned setup := by
  have new : ∀ c, a.calls a.made = some c → False := by
    intro c found
    simp [owned.fresh a.made (Nat.le_refl _)] at found
  unfold callStop
  split
  · rename_i free
    simp only [Bool.and_eq_true, Bool.not_eq_true'] at free
    exact owned.stop_enters a.host.waiters free.1 (fun c found => (new c found).elim)
      (fun c found => (new c found).elim) (Nat.le_succ _) (Nat.lt_succ_self _)
  · refine owned.aside (some (.stop .locking)) (fun c found => (new c found).elim) ?_ rfl
      (owned.starting_elsewhere fun c found => (new c found).elim) ?_ rfl (Nat.le_succ _)
      (Nat.lt_succ_self _) owned.honest
    · rintro c ⟨rfl⟩
      exact ⟨rfl, rfl⟩
    · exact fun asked => asked.resolve_right (Nat.lt_irrefl _)

omit owned in
theorem stopNext_made : { a.stopNext task result with made := a.made } = a.stopNext task result := by
  obtain ⟨h, next⟩ := result
  cases next <;> rfl

theorem Owned.below (found : a.calls task = some c) : task < a.made := by
  by_contra late
  simp [owned.fresh task (by omega)] at found

theorem Owned.resume_stop {phase : StopPhase} {ended : Ended} (found : a.calls task = some (.stop phase))
    (ran : a.host.resumeStop setup task phase ended = some result) :
    (a.stopNext task result).Owned setup := by
  have stop : ∀ c, a.calls task = some c → c.isStart = false := by
    intro c same
    rw [found] at same
    cases same
    rfl
  have below := owned.below found
  rw [← stopNext_made]
  by_cases waits : phase = .locking
  · subst waits
    have idle : ∀ c, a.calls task = some c → c.busy = false := by
      intro c same
      rw [found] at same
      cases same
      rfl
    cases ended with
    | returned =>
      obtain ⟨free, ⟨⟩⟩ := of_barred ran
      exact owned.stop_enters _ (by grind -linarith) idle stop (Nat.le_refl _) below
    | raised => cases ran
    | cancelled =>
      cases ran
      exact owned.aside none idle (by simp) rfl (owned.starting_elsewhere stop)
        (fun asked => asked.resolve_right (Nat.lt_irrefl _)) rfl (Nat.le_refl _) below owned.honest
  · have busy : (Call.stop phase).busy := by
      cases phase <;> first | rfl | exact absurd rfl waits
    have owes := owned.owes task _ found busy
    exact owned.stop_cleans
      (resumeStop_cleans owned.sound (owned.stopped task _ found busy) owes.1 owes.2 ran)
      (owned.waiting found busy) stop (Nat.le_refl _) below

/-! ### A start runs -/

/-- **A start moves on.**  It is the only one, and nobody else is busy. -/
theorem Owned.start_moves (next : Option Call) (waiting : ∀ u d, u ≠ task → a.calls u = some d → d.busy = false)
    (only : ∀ u d, u ≠ task → a.calls u = some d → d.isStart = false)
    (calls : a'.calls = Function.update a.calls task next) (made : a.made ≤ a'.made)
    (below : task < a'.made) (sound : a'.host.Sound setup) (start : ∀ c, next = some c → c.isStart)
    (owes : ∀ c, next = some c → c.busy → a'.host.started = false ∧ c.Owes setup a'.stops task a'.host)
    (starting : a'.host.starting = next.isSome) (kept : a'.host.Kept ∨ ∃ c, next = some c ∧ c.coming)
    (holder : ∀ held, a'.host.holder = some held → next.isSome → held = task)
    (honest : ∀ note ∈ a'.log, note.Honest) : a'.Owned setup := by
  have alone : ∀ u c, u ≠ task → a.calls u = some c → c.isStart → False := by
    intro u c other found also
    simp [only u c other found] at also
  refine owned.move task next calls made below sound ?_ ?_ ?_ (fun _ _ _ => only) ?_ ?_ honest
  · exact fun c is busy => ⟨(owes c is busy).1, (owes c is busy).2, waiting⟩
  · intro u c other found busy
    simp [waiting u c other found] at busy
  · rw [starting, isSome_iff_exists]
    constructor
    · rintro ⟨c, is⟩
      exact .inl ⟨c, is, start c is⟩
    · rintro (⟨c, is, -⟩ | ⟨u, c, other, found, also⟩)
      · exact ⟨c, is⟩
      · exact (alone u c other found also).elim
  · rcases kept with kept | coming
    · exact .inl kept
    · exact .inr (.inl coming)
  · intro held is
    refine ⟨fun c will _ => holder held is (by simp [will]), fun u c other found also => ?_⟩
    exact (alone u c other found also).elim

theorem Owned.start_climbs {task made since : Nat}
    {result : Host × Progress StartPhase} (climbs : a.host.Climbs setup task result)
    (waiting : ∀ u d, u ≠ task → a.calls u = some d → d.busy = false)
    (only : ∀ u d, u ≠ task → a.calls u = some d → d.isStart = false)
    (asked : since < a.stops → a.host.stopRequested) (later : a.made ≤ made) (below : task < made) :
    { a.startNext task since result with made := made }.Owned setup := by
  obtain ⟨h, next⟩ := result
  cases next with
  | awaits phase =>
    obtain ⟨owes, starting, holder, kept⟩ := climbs.awaits phase rfl
    obtain ⟨due, coming⟩ := Call.Owes.of_start owes holder fun counted => kept (asked counted)
    refine owned.start_moves (some (.start phase since)) waiting only rfl later below climbs.sound
      ?_ ?_ starting (.inr ⟨_, rfl, coming⟩) ?_ owned.honest
    · rintro c ⟨rfl⟩
      rfl
    · rintro c ⟨rfl⟩ -
      exact ⟨climbs.stopped, due⟩
    · exact fun held is _ => some.inj (is.symm.trans holder)
  | returned => exact (climbs.unreturned.1 rfl).elim
  | recorded => exact (climbs.unreturned.2 rfl).elim
  | raised =>
    obtain ⟨ended, kept⟩ := climbs.raised rfl
    exact owned.start_moves none waiting only rfl later below climbs.sound (by simp) (by simp)
      ended (.inl kept) (by simp) owned.honest

/-- A start goes on with the stop it was asked for. -/
theorem Owned.start_stops {task since : Nat} {h : Host} (cleans : h.Cleans setup result) (below : task < a.made)
    (waiting : ∀ u d, u ≠ task → a.calls u = some d → d.busy = false)
    (only : ∀ u d, u ≠ task → a.calls u = some d → d.isStart = false)
    (starting : h.starting) (holder : ∀ held, h.holder = some held → held = task) :
    (a.startNext task since (Host.afterStop result)).Owned setup := by
  obtain ⟨h', next⟩ := result
  have ended : { h' with starting := false }.Sound setup := { cleans.sound with }
  cases next with
  | awaits phase =>
    refine owned.start_moves (some (.start (.stopping phase) since)) waiting only rfl (Nat.le_refl _)
      below cleans.sound ?_ ?_ (cleans.starting.trans starting) (.inl cleans.kept) ?_ owned.honest
    · rintro c ⟨rfl⟩
      rfl
    · rintro c ⟨rfl⟩ -
      exact ⟨cleans.stopped, cleans.awaits phase rfl⟩
    · intro held is _
      rcases cleans.holder with same | gone
      · exact holder held (same.symm.trans is)
      · exact absurd (gone.symm.trans is) (by simp)
  | recorded => exact (cleans.unrecorded rfl).elim
  | returned =>
    refine owned.start_moves none waiting only rfl (Nat.le_refl _) below ended (by simp) (by simp)
      rfl (.inl cleans.kept) (by simp) ?_
    exact forall_mem_append.2
      ⟨owned.honest, forall_mem_singleton.2 fun _ => cleans.stopped⟩
  | raised =>
    exact owned.start_moves none waiting only rfl (Nat.le_refl _) below ended (by simp) (by simp)
      rfl (.inl cleans.kept) (by simp) owned.honest

theorem Owned.call_start {answer : Host.Answer} (alone : unrivalled setup a (.start answer)) :
    { a.startNext a.made a.stops (a.host.callStart setup a.made answer) with
      made := a.made + 1 }.Owned setup := by
  have unrefused : a.host.starting → setup.ownsResources = false → a.host.cleanupPending := by
    simp only [unrivalled] at alone
    grind -linarith
  have new : ∀ {P : Prop} {c}, a.calls a.made = some c → P := by
    intro P c found
    simp [owned.fresh a.made (Nat.le_refl _)] at found
  rcases callStart_cases a.made answer owned.sound unrefused with
    ⟨same, ended⟩ | ⟨stopped, free, settled, climbs⟩
  · have unchanged : ∀ a' : Agent, a'.host = a.host → a'.calls = Function.update a.calls a.made none →
        a'.made = a.made + 1 → a'.stops = a.stops → (∀ note ∈ a'.log, note.Honest) → a'.Owned setup := by
      intro a' host calls made stops honest
      refine owned.aside none (fun _ => new) (by simp) host (owned.starting_elsewhere fun _ => new) ?_
        calls (by omega) (by omega) honest
      exact fun asked => asked.resolve_right (by omega)
    generalize a.host.callStart setup a.made answer = result at same ended
    obtain ⟨h, next⟩ := result
    rcases ended with rfl | rfl
    · refine unchanged _ same rfl rfl rfl ?_
      refine forall_mem_append.2 ⟨owned.honest, forall_mem_singleton.2 ?_⟩
      exact fun asked => by simp at asked
    · exact unchanged _ same rfl rfl rfl owned.honest
  · have only : ∀ u d, u ≠ a.made → a.calls u = some d → d.isStart = false := by
      intro u d _ found
      by_contra start
      have flying := owned.starting.2 ⟨u, d, found, by simpa using start⟩
      simp [free] at flying
    refine owned.start_climbs climbs ?_ only (fun never => (Nat.lt_irrefl _ never).elim) (Nat.le_succ _)
      (Nat.lt_succ_self _)
    intro u d other found
    by_contra busy
    -- whoever is past the lock has its phase pending, and this start found none
    have past : d.coming = false := by
      by_contra coming
      have start := (coming_start (c := d) (by simpa using coming)).1
      simp [only u d other found] at start
    have pending := (owned.cleaning found (by simpa using busy) past).2
    simp [settled] at pending

omit owned in
theorem startNext_made {task since : Nat} {result : Host × Progress StartPhase} :
    { a.startNext task since result with made := a.made } = a.startNext task since result := by
  obtain ⟨h, next⟩ := result
  cases next <;> rfl

/-- The start that comes up: it is asked to stop by now, or nobody is past the lock to stop it. -/
theorem Owned.brought_up {task since : Nat} (found : a.calls task = some (.start .settingUpContacts since)) :
    (a.startNext task since (a.host.broughtUp task)).Owned setup := by
  have below := owned.below found
  have waiting := owned.waiting found rfl
  have only := owned.onlyStart found rfl
  obtain ⟨⟨adapter, runtime⟩, holder, asked⟩ := owned.owes task _ found rfl
  have stopped := owned.stopped task _ found rfl
  have starting := owned.starting.2 ⟨task, _, found, rfl⟩
  have sound : { a.host with running := true, started := true }.Sound setup :=
    { owned.sound with running := fun _ => rfl, started := fun _ => ⟨runtime, adapter⟩ }
  have pending : a.host.cleanupPending := by simp [cleanupPending, adapter]
  unfold broughtUp
  simp only
  split
  · unfold callStop
    split
    · have cleans := enterStop_cleans sound (fun _ => rfl)
        fun down => absurd (starting.symm.trans down) (by simp)
      exact owned.start_stops cleans below waiting only starting
        fun held is => some.inj (is.symm.trans holder)
    · have queued : { a.host with running := true, started := true, waiters := a.host.waiters ++ [task] }.Sound
          setup := { sound with }
      refine owned.start_moves (some (.start (.stopping .locking) since)) waiting only rfl (Nat.le_refl _)
        below queued ?_ ?_ starting (.inl fun _ => pending) ?_ owned.honest
      · rintro c ⟨rfl⟩
        rfl
      · rintro c ⟨rfl⟩ busy
        simp [Call.busy] at busy
      · exact fun held is _ => some.inj (is.symm.trans holder)
  · rename_i unasked
    have up : { a.host with running := true, started := true, starting := false }.Sound setup :=
      { sound with }
    refine owned.start_moves none waiting only rfl (Nat.le_refl _) below up (by simp) (by simp) rfl
      (.inl fun _ => pending) (by simp) ?_
    refine forall_mem_append.2 ⟨owned.honest, forall_mem_singleton.2 fun was => ?_⟩
    exact absurd (asked (by simpa using was)) unasked

/-- A start that waits for the lock may have been stopped by the one before it. -/
theorem Owned.start_at_lock {task since : Nat} {ended : Ended}
    (found : a.calls task = some (.start (.stopping .locking) since))
    (ran : a.host.resumeStop setup task .locking ended = some result) :
    (a.startNext task since (Host.afterStop result)).Owned setup := by
  have below := owned.below found
  have only := owned.onlyStart found rfl
  have starting := owned.starting.2 ⟨task, _, found, rfl⟩
  have idle : ∀ c, a.calls task = some c → c.busy = false := by
    intro c same
    rw [found] at same
    cases same
    rfl
  have landed : false = true ↔ ∃ u c, u ≠ task ∧ a.calls u = some c ∧ c.isStart := by
    refine ⟨nofun, ?_⟩
    rintro ⟨u, c, other, live, start⟩
    simp [only u c other live] at start
  cases ended with
  | returned =>
    simp only [resumeStop] at ran
    split at ran
    · cases ran
    rename_i unlocked
    have free : a.host.stopLock = false := by grind -linarith
    cases ran
    have sound : { a.host with waiters := a.host.waiters.tail }.Sound setup := { owned.sound with }
    by_cases up : a.host.started = true
    · have come : a.host.starting → a.host.started := fun _ => up
      have cleans := enterStop_cleans sound come fun _ => owned.kept_of_come come
      exact owned.start_stops cleans below (fun u d _ => owned.all_waiting free come u d) only
        starting (owned.holder task _ found rfl)
    · have down : a.host.started = false := by simpa using up
      rw [enterStop_recorded (h := { a.host with waiters := a.host.waiters.tail }) starting down]
      refine owned.aside none idle (by simp) rfl landed (fun _ => rfl) rfl (Nat.le_refl _) below ?_
      exact forall_mem_append.2 ⟨owned.honest, forall_mem_singleton.2 fun _ => down⟩
  | raised => cases ran
  | cancelled =>
    cases ran
    exact owned.aside none idle (by simp) rfl landed
      (fun asked => asked.resolve_right (Nat.lt_irrefl _)) rfl (Nat.le_refl _) below owned.honest

theorem Owned.resume_start {task since : Nat} {phase : StartPhase}
    {answer : Host.Answer} {result : Host × Progress StartPhase}
    (found : a.calls task = some (.start phase since))
    (ran : a.host.resumeStart setup task phase answer = some result) :
    (a.startNext task since result).Owned setup := by
  have below := owned.below found
  have only := owned.onlyStart found rfl
  have starting := owned.starting.2 ⟨task, _, found, rfl⟩
  have holder := owned.holder task _ found rfl
  by_cases coming : (start phase since).coming = true
  · obtain ⟨-, busy⟩ := coming_start coming
    have waiting := owned.waiting found busy
    have stopped := owned.stopped task _ found busy
    have owes := owned.owes task _ found busy
    obtain ⟨due, held, asked⟩ : phase.Owes setup a.host ∧ a.host.holder = some task ∧
        (since < a.stops → a.host.stopRequested) := by
      cases phase with
      | stopping => simp [Call.coming] at coming
      | _ => exact owes
    by_cases rises : phase = .settingUpContacts ∧ answer.ended = .returned
    · obtain ⟨rfl, returned⟩ := rises
      simp only [resumeStart, returned] at ran
      cases ran
      exact owned.brought_up found
    · rw [← startNext_made]
      refine owned.start_climbs ?_ waiting only asked (Nat.le_refl _) below
      exact resumeStart_climbs owned.sound stopped starting held due
        (fun phase returned => rises ⟨phase, returned⟩) ran
  · obtain ⟨stopping, rfl⟩ : ∃ stopping, phase = .stopping stopping := by
      cases phase <;> simp_all [Call.coming]
    obtain ⟨outcome, inner, rfl⟩ := map_eq_some_iff.1 ran
    by_cases waits : stopping = .locking
    · subst waits
      exact owned.start_at_lock found inner
    · have busy : (start (.stopping stopping) since).busy := by
        cases stopping <;> first | rfl | exact absurd rfl waits
      have owes := owned.owes task _ found busy
      exact owned.start_stops
        (resumeStop_cleans owned.sound (owned.stopped task _ found busy) owes.1 owes.2 inner)
        below (owned.waiting found busy) only starting holder

/-- **Every event.** -/
theorem Owned.step {e : Event} (alone : unrivalled setup a e)
    (stepped : a.step setup e = some a') : a'.Owned setup := by
  cases e with
  | start answer =>
    cases stepped
    exact owned.call_start alone
  | stop inCleanup =>
    simp only [Agent.step] at stepped
    split at stepped
    · cases stepped
      exact { owned with fresh := fun call late => owned.fresh call (Nat.le_of_succ_le late) }
    · cases stepped
      exact owned.call_stop
  | resume task answer =>
    simp only [Agent.step] at stepped
    split at stepped
    · cases stepped
    · rename_i phase since found
      obtain ⟨result, ran, rfl⟩ := map_eq_some_iff.1 stepped
      exact owned.resume_start found ran
    · rename_i phase found
      obtain ⟨result, ran, rfl⟩ := map_eq_some_iff.1 stepped
      exact owned.resume_stop found ran

end

theorem Owned.initial : ({} : Agent).Owned setup where
  sound := by constructor <;> simp
  fresh _ _ := rfl
  stopped _ _ found := by cases found
  owes _ _ found := by cases found
  oneBusy _ _ _ _ found := by cases found
  starting := by simp
  oneStart _ _ _ _ found := by cases found
  kept := .inl fun some => by simp at some
  holder _ _ found := by cases found
  honest := by simp

end Agent

/-- The runs of one agent that the checks of `start()` keep apart. -/
def oneStart (setup : Setup) : Machine Agent Event := (lifecycle setup).restrict (unrivalled setup)

theorem oneStart_owned {setup : Setup} {a : Agent} (reached : (oneStart setup).Reachable a) :
    a.Owned setup := by
  refine reached.invariant ?_ ?_
  · rintro s rfl
    exact Agent.Owned.initial
  · intro s e t owned stepped
    obtain ⟨alone, ran⟩ := Machine.restrict_step stepped
    exact owned.step alone ran

/-! ## What follows for an agent -/

/-- The start() an event runs. -/
def Event.startOf (a : Agent) : Event → Option Nat
  | .start _ => some a.made
  | .stop _ => none
  | .resume call _ => if (a.calls call).any Call.isStart then some call else none

/-- The same guard, adapter and pending cleanup. -/
def Host.SameHoldings (h h' : Host) : Prop :=
  h'.instanceGuard = h.instanceGuard ∧ h'.adapterUp = h.adapterUp ∧
    h'.runtimePending = h.runtimePending ∧ h'.adapterPending = h.adapterPending

theorem other_start_harmless {setup : Setup} {a a' : Agent} {e : Event} {holder other : Nat}
    (owned : a.Owned setup) (held : a.host.holder = some holder)
    (stepped : (oneStart setup).step a e = some a') (runs : e.startOf a = some other)
    (differs : other ≠ holder) : a.host.SameHoldings a'.host := by
  obtain ⟨alone, ran⟩ := Machine.restrict_step stepped
  have come : ∀ call c, a.calls call = some c → c.isStart → call = holder :=
    fun call c found start => (owned.holder call c found start holder held).symm
  cases e with
  | start answer =>
    have unrefused : a.host.starting → setup.ownsResources = false → a.host.cleanupPending := by
      simp only [unrivalled] at alone
      grind -linarith
    cases ran
    rcases callStart_cases a.made answer owned.sound unrefused with
      ⟨same, ended⟩ | ⟨-, free, settled, -⟩
    · generalize a.host.callStart setup a.made answer = result at same ended
      obtain ⟨h, next⟩ := result
      simp only at same
      subst same
      rcases ended with rfl | rfl <;> exact ⟨rfl, rfl, rfl, rfl⟩
    · have kept := owned.kept_of_come fun starting => by simp [free] at starting
      have pending := kept (by simp [held])
      simp [settled] at pending
  | stop inCleanup => simp [Event.startOf] at runs
  | resume call answer =>
    simp only [Event.startOf, Option.ite_none_right_eq_some] at runs
    obtain ⟨start, same⟩ := runs
    cases same
    obtain ⟨c, found, isStart⟩ := (Option.any_eq_true ..).1 start
    exact absurd (come _ c found isStart) differs

/-- **One owner.**  In every run without the overlap that no check refuses: at most one start body is
in flight; the guard is held while the adapter or the runtime may be up; a start that fails or is
refused takes nothing from the agent of another; a stop returns with cleanup pending only when it
left its request with the start in flight; a start that a stop returned to does not leave the agent
running, and a stop that is still under way when an agent runs waits for the lock. -/
theorem lifecycle_owned (setup : Setup) {a : Agent} (reached : (oneStart setup).Reachable a) :
    (∀ t u c d, a.calls t = some c → a.calls u = some d → c.isStart → d.isStart → t = u) ∧
    (setup.singleInstance → a.host.adapterUp ∨ a.host.runtimePending ∨ a.host.runtimeHeld →
      a.host.instanceGuard) ∧
    (∀ holder e a' other, a.host.holder = some holder → (oneStart setup).step a e = some a' →
      e.startOf a = some other → other ≠ holder → a.host.SameHoldings a'.host) ∧
    (∀ call recorded pending, Returned.stop call recorded pending ∈ a.log → pending → recorded) ∧
    (∀ call asked running, Returned.start call asked running ∈ a.log → asked → running = false) ∧
    (a.host.started → ∀ call phase, a.calls call = some (.stop phase) → phase = .locking) := by
  have owned := oneStart_owned reached
  refine ⟨owned.oneStart, ?_, ?_, ?_, ?_, ?_⟩
  · rintro single (up | pending | held)
    · exact owned.sound.guarded single (.inl up)
    · exact owned.sound.guarded single (.inr pending)
    · exact owned.sound.guarded single (.inr (owned.sound.held held))
  · exact fun holder e a' other held stepped runs differs =>
      other_start_harmless owned held stepped runs differs
  · exact fun call recorded pending mem => owned.honest _ mem
  · exact fun call asked running mem => owned.honest _ mem
  · intro up call phase found
    by_contra past
    have busy : (stop phase).busy := by
      cases phase <;> first | rfl | exact absurd rfl past
    have down := owned.stopped call _ found busy
    simp [up] at down

/-- A start body takes its five awaits. -/
def climb (call : Nat) : List Event := List.replicate 5 (.resume call {})

/-- A stop is asked for while the adapter starts; the start comes up, and is stopped before it
returns. -/
theorem lifecycle_owned_asked : ∃ a, (oneStart ⟨true, true, true⟩).Reachable a ∧
    a.log = [.stop 1 true true, .start 0 true false] ∧ a.host.instanceGuard = false ∧
    (∀ call recorded pending, Returned.stop call recorded pending ∈ a.log → pending → recorded) ∧
    (∀ call asked running, Returned.start call asked running ∈ a.log → asked → running = false) := by
  have ran : ((oneStart ⟨true, true, true⟩).run {} ([.start {}, .resume 0 {}, .stop false] ++
      List.replicate 8 (.resume 0 {}))).map (fun a => (a.log, a.host.instanceGuard)) =
      some ([.stop 1 true true, .start 0 true false], false) := by decide +kernel
  obtain ⟨a, run, final⟩ := map_eq_some_iff.1 ran
  obtain ⟨log, guard⟩ := Prod.mk.inj final
  have reached : (oneStart ⟨true, true, true⟩).Reachable a := ⟨{}, rfl, _, run⟩
  have owned := lifecycle_owned ⟨true, true, true⟩ reached
  exact ⟨a, reached, log, guard, owned.2.2.2.1, owned.2.2.2.2.1⟩

/-- Without registered cleanup a second start() is admitted while the first one initializes: two
bodies are in flight, and the failure of the second takes the guard and the adapter from the agent
the first brought up.  With any adapter a stop() returns while cleanup is pending, when a start is in
flight; and one that queued for the lock behind a stop() that was then cancelled may run only after
the start it was made in has returned. -/
theorem overlap_not_refused :
    (∃ a, (lifecycle ⟨true, true, false⟩).Reachable a ∧
      a.calls 0 = some (.start .initializing 0) ∧ a.calls 1 = some (.start .initializing 0)) ∧
    (∃ a, (lifecycle ⟨true, true, false⟩).Reachable a ∧ Returned.start 0 false true ∈ a.log ∧
      a.host.started ∧ a.host.instanceGuard = false ∧ a.host.adapterUp = false ∧
      a.host.cleanupPending = false) ∧
    (∃ a, (lifecycle ⟨true, true, true⟩).Reachable a ∧ Returned.stop 1 true true ∈ a.log) ∧
    (∃ a b later, (lifecycle ⟨true, true, false⟩).Reachable a ∧ a.made = 4 ∧ (a.calls 3).any Call.isStart ∧
      (lifecycle ⟨true, true, false⟩).run a (.stop false :: later) = some b ∧
      Returned.start 3 false true ∈ b.log ∧ b.host.started ∧ b.calls 4 = some (.stop .locking)) := by
  refine ⟨?_, ?_, ?_, ?_⟩
  · have ran : ((lifecycle ⟨true, true, false⟩).run {} [.start {}, .start {}]).map
        (fun a => (a.calls 0, a.calls 1)) =
        some (some (.start .initializing 0), some (.start .initializing 0)) := by decide +kernel
    obtain ⟨a, run, final⟩ := map_eq_some_iff.1 ran
    obtain ⟨first, second⟩ := Prod.mk.inj final
    exact ⟨a, ⟨{}, rfl, _, run⟩, first, second⟩
  · have ran : ((lifecycle ⟨true, true, false⟩).run {} ([.start {}, .start {}] ++ climb 0 ++
        [.resume 1 { ended := .raised }, .resume 1 {}])).map
        (fun a => (a.log, a.host.started, a.host.instanceGuard, a.host.adapterUp, a.host.cleanupPending)) =
        some ([.start 0 false true], true, false, false, false) := by decide +kernel
    obtain ⟨a, run, final⟩ := map_eq_some_iff.1 ran
    simp only [Prod.mk.injEq] at final
    obtain ⟨log, started, guard, up, pending⟩ := final
    exact ⟨a, ⟨{}, rfl, _, run⟩, by simp [log], started, guard, up, pending⟩
  · have ran : ((lifecycle ⟨true, true, true⟩).run {} [.start {}, .resume 0 {}, .stop false]).map
        Agent.log = some [.stop 1 true true] := by decide +kernel
    obtain ⟨a, run, log⟩ := map_eq_some_iff.1 ran
    exact ⟨a, ⟨{}, rfl, _, run⟩, by simp [log]⟩
  · let before : List Event := .start {} :: climb 0 ++ [.stop false, .stop false] ++
      List.replicate 4 (.resume 1 {}) ++ [.start {}]
    let later : List Event := .resume 2 { ended := .cancelled } :: climb 3
    have ran : (((lifecycle ⟨true, true, false⟩).run {} before).bind fun a =>
        ((lifecycle ⟨true, true, false⟩).run a (.stop false :: later)).map fun b =>
          (a.made, (a.calls 3).any isStart, b.log, b.host.started, b.calls 4)) =
        some (4, true, [.start 0 false true, .stop 1 false false, .start 3 false true], true,
          some (.stop .locking)) := by decide +kernel
    obtain ⟨a, run, rest⟩ := bind_eq_some_iff.1 ran
    obtain ⟨b, more, final⟩ := map_eq_some_iff.1 rest
    simp only [Prod.mk.injEq] at final
    obtain ⟨made, inFlight, log, started, waits⟩ := final
    exact ⟨a, b, later, ⟨{}, rfl, _, run⟩, made, inFlight, more, by simp [log], started, waits⟩

end BandSdk.Agents

import TokenPriceAgg.Core.Limits
import TokenPriceAgg.Lib.Runs

/-!
# Limiter accounting

Runs of one `WeightedLimiter` under any interleaving of `try_acquire` and `release` calls.  An event runs one task
from a suspension point to its next one.  A task suspends at the lock of the condition or in `condition.wait()`; the
wait gives the lock back and takes it again however it ends.  A wait may end by a wake-up at any moment, so that the
runs contain those of `notify_all`.
-/

namespace TokenPriceAgg

open PyLib

/-- A `try_acquire` past its first checks. -/
structure AcquireCall where
  units : Nat
  timeoutMs : Int
  deadline : ℚ

/-- How a call ends. -/
inductive CallOutcome
  | reserved (i : Nat)
  | refused
  | raised (e : Raised)
  | released
deriving DecidableEq

/-- Where a call stands: at the lock, in the wait, at the lock that the wait takes back, at the lock of `_release`, or
at its end. -/
inductive LimiterTask
  | entering (call : AcquireCall)
  | waiting (call : AcquireCall)
  | resuming (call : AcquireCall) (wakeUp : WakeUp)
  | releasing (units : Nat)
  | finished (outcome : CallOutcome)

/-- The call waits or has ended. -/
def LimiterTask.OffLock : LimiterTask → Prop
  | waiting _ | finished _ => True
  | _ => False

/-- What happens next; `id` is the call it happens to, `now` what its clock reads at the next turn of the loop. -/
inductive LimiterEvent
  | tryAcquire (id : Nat) (units timeoutMs : Int) (started now : ℚ)
  | lockFreed (id : Nat) (now : ℚ)
  | waitEnds (id : Nat) (wakeUp : WakeUp) (now : ℚ)
  | cancelled (id : Nat)
  | release (id i : Nat)

def LimiterEvent.id : LimiterEvent → Nat
  | tryAcquire id _ _ _ _ => id
  | lockFreed id _ => id
  | waitEnds id _ _ => id
  | cancelled id => id
  | release id _ => id

/-- The limiter, its lock, the calls made and the reservations handed out. -/
structure LimiterState where
  limiter : WeightedLimiter
  locked : Bool
  tasks : Dict Nat LimiterTask
  reservations : List LimitReservation

namespace LimiterState

def new (capacity : Nat) (h : 0 < capacity) : LimiterState :=
  { limiter := .new capacity h, locked := false, tasks := .empty, reservations := [] }

def goTo (s : LimiterState) (id : Nat) (task : LimiterTask) : LimiterState := { s with tasks := s.tasks.set id task }

def finish (s : LimiterState) (id : Nat) (outcome : CallOutcome) : LimiterState := s.goTo id (.finished outcome)

/-- `return LimitReservation(...)`. -/
def handOut (s : LimiterState) (id : Nat) (r : LimitReservation) : LimiterState :=
  { s with reservations := s.reservations ++ [r] }.finish id (.reserved s.reservations.length)

/-- `async with self._condition`: a task that finds the lock taken stays at it; the body ends at its next suspension
or its return, and both give the lock back. -/
def withLock (s : LimiterState) (id : Nat) (task : LimiterTask) (body : LimiterState → LimiterState) : LimiterState :=
  if s.locked then s.goTo id task else { body { s with locked := true } with locked := false }

def site : Limiter.Site WeightedLimiter := ⟨fun l => l, WeightedLimiter.take, WeightedLimiter.give⟩

/-- The loop under the lock, up to its return or its wait. -/
def takeTurn (s : LimiterState) (id : Nat) (call : AcquireCall) (now : ℚ) : LimiterState :=
  match Limiter.turn site (pure now) call.units call.timeoutMs call.deadline s.limiter with
  | (.ok (some (some r)), limiter) => { s with limiter }.handOut id r
  | (.ok (some none), limiter) => { s with limiter }.finish id .refused
  | (.ok none, limiter) => { s with limiter }.goTo id (.waiting call)
  | (.error e, limiter) => { s with limiter }.finish id (.raised e)

/-- `self._used = max(0, self._used - units)`. -/
def giveBack (s : LimiterState) (id units : Nat) : LimiterState :=
  { s with limiter := s.limiter.give units }.finish id .released

/-- What a task does once it has the lock. -/
def resume (s : LimiterState) (id : Nat) (now : ℚ) : LimiterTask → LimiterState
  | .entering call => s.takeTurn id call now
  | .resuming call .notified => s.takeTurn id call now
  | .resuming _ .timedOut => s.finish id .refused
  | .resuming _ .cancelled => s.finish id (.raised .cancelled)
  | .releasing units => s.giveBack id units
  | task => s.goTo id task

def atLock (s : LimiterState) (id : Nat) (task : LimiterTask) (now : ℚ) : LimiterState :=
  s.withLock id task fun s => s.resume id now task

/-- `try_acquire(units=..., timeout_ms=...)`, up to its first suspension. -/
def tryAcquire (s : LimiterState) (id : Nat) (units timeoutMs : Int) (started now : ℚ) : LimiterState :=
  if units ≤ 0 then s.handOut id { units := 0 }
  else if (s.limiter.capacity : Int) < units then s.finish id .refused
  else
    match divide (max timeoutMs 0) 1000 with
    | .error e => s.finish id (.raised (.exception e))
    | .ok timeoutS => s.atLock id (.entering ⟨units.toNat, timeoutMs, started + timeoutS⟩) now

/-- `release()` of the `i`-th reservation, up to its first suspension. -/
def release (s : LimiterState) (id i : Nat) (r : LimitReservation) : LimiterState :=
  if r.released then s.finish id .released
  else
    let s := { s with reservations := s.reservations.set i { r with released := true } }
    if r.units = 0 then s.finish id .released else s.atLock id (.releasing r.units) 0

def step (s : LimiterState) : LimiterEvent → Option LimiterState
  | .tryAcquire id units timeoutMs started now =>
    match s.tasks.get? id with
    | some _ => none
    | none => some (s.tryAcquire id units timeoutMs started now)
  | .release id i =>
    match s.tasks.get? id, s.reservations[i]? with
    | none, some r => some (s.release id i r)
    | _, _ => none
  | .lockFreed id now =>
    match s.tasks.get? id with
    | none | some (.waiting _) | some (.finished _) => none
    | some task => if s.locked then none else some (s.atLock id task now)
  | .waitEnds id wakeUp now =>
    match s.tasks.get? id with
    | some (.waiting call) => some (s.atLock id (.resuming call wakeUp) now)
    | _ => none
  -- a task cancelled at the lock that a wait takes back remembers it until it has the lock
  | .cancelled id =>
    match s.tasks.get? id with
    | some (.entering _) | some (.releasing _) => some (s.finish id (.raised .cancelled))
    | some (.resuming call _) => some (s.goTo id (.resuming call .cancelled))
    | _ => none

/-! ### The account -/

/-- The units of the reservations handed out and not yet released. -/
def outstanding (rs : List LimitReservation) : Nat := ((rs.filter fun r => !r.released).map fun r => r.units).sum

private theorem outstanding_append (rs : List LimitReservation) (n : Nat) :
    outstanding (rs ++ [{ units := n }]) = outstanding rs + n := by
  simp [outstanding]

private theorem outstanding_set {rs : List LimitReservation} {i : Nat} {r : LimitReservation} (hr : rs[i]? = some r)
    (hlive : r.released = false) : outstanding rs = outstanding (rs.set i { r with released := true }) + r.units := by
  induction rs generalizing i with
  | nil => simp at hr
  | cons q rs ih =>
    cases i with
    | zero =>
      obtain rfl : q = r := by simpa using hr
      simp only [outstanding, List.set_cons_zero, List.filter_cons, hlive]
      simp only [Bool.not_false, Bool.not_true, Bool.false_eq_true, if_true, if_false, List.map_cons, List.sum_cons]
      omega
    | succ i =>
      have ih' := ih (by simpa using hr)
      simp only [outstanding, List.set_cons_succ, List.filter_cons] at ih' ⊢
      split
      · simp only [List.map_cons, List.sum_cons]
        omega
      · exact ih'

/-- What holds between two events. -/
structure Accounted (s : LimiterState) : Prop where
  used_eq : s.limiter.used = outstanding s.reservations
  used_le : s.limiter.used ≤ s.limiter.capacity
  lock_free : s.locked = false
  off_lock : ∀ id task, s.tasks.get? id = some task → task.OffLock

private theorem accounted_new {capacity : Nat} (h : 0 < capacity) : (new capacity h).Accounted := by
  refine ⟨rfl, Nat.zero_le _, rfl, fun id task ht => ?_⟩
  simp [new] at ht

/-- Nothing is taken, handed out or given back. -/
def SameAccount (s s' : LimiterState) : Prop := s'.limiter = s.limiter ∧ s'.reservations = s.reservations

/-! ### What one event does -/

/-- What an event does, with the place of its call afterwards. -/
inductive Effect (e : LimiterEvent) (s s' : LimiterState) : LimiterTask → Prop
  | quiet {task : LimiterTask} (same : SameAccount s s') (off : task.OffLock) : Effect e s s' task
  | granted {n : Nat} (fits : s.limiter.used + n ≤ s.limiter.capacity) (limiter : s'.limiter = s.limiter.take n)
      (reservations : s'.reservations = s.reservations ++ [{ units := n }]) :
      Effect e s s' (.finished (.reserved s.reservations.length))
  | gaveBack {id i : Nat} {r : LimitReservation} (event : e = .release id i) (live : s.reservations[i]? = some r)
      (unreleased : r.released = false) (limiter : s'.limiter = s.limiter.give r.units)
      (reservations : s'.reservations = s.reservations.set i { r with released := true }) :
      Effect e s s' (.finished .released)

/-- An event moves its own call only, and leaves the lock free. -/
structure Moves (e : LimiterEvent) (s s' : LimiterState) (task : LimiterTask) : Prop where
  tasks : s'.tasks = s.tasks.set e.id task
  locked : s'.locked = false
  effect : Effect e s s' task

variable {s s' : LimiterState} {e : LimiterEvent}

private theorem finish_moves {outcome : CallOutcome} (h : s.locked = false) :
    Moves e s (s.finish e.id outcome) (.finished outcome) :=
  ⟨rfl, h, .quiet ⟨rfl, rfl⟩ trivial⟩

/-- The loop's turn refuses, waits or takes the units, and takes them only where they fit. -/
private theorem turn_cases (l : WeightedLimiter) (call : AcquireCall) (now : ℚ) :
    let result := Limiter.turn site (pure now) call.units call.timeoutMs call.deadline l
    result = (.ok (some none), l) ∨ result = (.ok none, l) ∨
      (l.used + call.units ≤ l.capacity ∧ result = (.ok (some (some { units := call.units })), l.take call.units)) := by
  intro result
  have hresult : result = (if l.capacity < l.used + call.units then
      if call.timeoutMs ≤ 0 then pure (some none)
      else if call.deadline - now ≤ 0 then pure (some none) else pure none
    else do
      Eff.modify (WeightedLimiter.take call.units)
      pure (some (some { units := call.units })) :
        Eff WeightedLimiter Raised (Option (Option LimitReservation))) l := rfl
  by_cases hfull : l.capacity < l.used + call.units
  · rw [if_pos hfull] at hresult
    by_cases ht : call.timeoutMs ≤ 0
    · rw [if_pos ht] at hresult
      exact .inl hresult
    rw [if_neg ht] at hresult
    by_cases hd : call.deadline - now ≤ 0
    · rw [if_pos hd] at hresult
      exact .inl hresult
    · rw [if_neg hd] at hresult
      exact .inr (.inl hresult)
  · rw [if_neg hfull] at hresult
    exact .inr (.inr ⟨by omega, hresult⟩)

private theorem takeTurn_moves (s : LimiterState) (e : LimiterEvent) (call : AcquireCall) (now : ℚ) :
    ∃ task, Moves e s { { s with locked := true }.takeTurn e.id call now with locked := false } task := by
  unfold takeTurn
  obtain h | h | ⟨hfit, h⟩ := turn_cases s.limiter call now
  · simp only [h]
    exact ⟨_, rfl, rfl, .quiet ⟨rfl, rfl⟩ trivial⟩
  · simp only [h]
    exact ⟨_, rfl, rfl, .quiet ⟨rfl, rfl⟩ trivial⟩
  · simp only [h]
    exact ⟨_, rfl, rfl, .granted hfit rfl rfl⟩

private theorem tryAcquire_moves {id : Nat} {units timeoutMs : Int} {started now : ℚ} (h : s.Accounted) :
    ∃ task, Moves (.tryAcquire id units timeoutMs started now) s (s.tryAcquire id units timeoutMs started now)
      task := by
  have hfree := h.lock_free
  unfold tryAcquire
  by_cases hu : units ≤ 0
  · rw [if_pos hu]
    exact ⟨_, rfl, hfree, .granted (n := 0) h.used_le rfl rfl⟩
  rw [if_neg hu]
  by_cases hc : (s.limiter.capacity : Int) < units
  · rw [if_pos hc]
    exact ⟨_, finish_moves hfree⟩
  rw [if_neg hc]
  cases divide (max timeoutMs 0) 1000 with
  | error x => exact ⟨_, finish_moves hfree⟩
  | ok timeoutS =>
    simp only [atLock, withLock, hfree, Bool.false_eq_true, if_false, resume]
    exact takeTurn_moves s (.tryAcquire id units timeoutMs started now) _ now

private theorem waitEnds_moves {id : Nat} {call : AcquireCall} {wakeUp : WakeUp} {now : ℚ} (h : s.Accounted) :
    ∃ task, Moves (.waitEnds id wakeUp now) s (s.atLock id (.resuming call wakeUp) now) task := by
  simp only [atLock, withLock, h.lock_free, Bool.false_eq_true, if_false]
  cases wakeUp with
  | notified => exact takeTurn_moves s (.waitEnds id .notified now) call now
  | timedOut => exact ⟨_, rfl, rfl, .quiet ⟨rfl, rfl⟩ trivial⟩
  | cancelled => exact ⟨_, rfl, rfl, .quiet ⟨rfl, rfl⟩ trivial⟩

private theorem release_moves {id i : Nat} {r : LimitReservation} (h : s.Accounted) (hr : s.reservations[i]? = some r) :
    ∃ task, Moves (.release id i) s (s.release id i r) task := by
  have hfree := h.lock_free
  unfold release
  by_cases hreleased : r.released = true
  · rw [if_pos hreleased]
    exact ⟨_, finish_moves hfree⟩
  rw [if_neg hreleased]
  have hlive := Bool.eq_false_of_not_eq_true hreleased
  by_cases hu : r.units = 0
  · simp only [if_pos hu]
    have hgive : s.limiter = s.limiter.give r.units := by rw [hu]; rfl
    exact ⟨_, rfl, hfree, .gaveBack rfl hr hlive hgive rfl⟩
  · simp only [if_neg hu, atLock, withLock, hfree, Bool.false_eq_true, if_false, resume]
    exact ⟨_, rfl, rfl, .gaveBack rfl hr hlive rfl rfl⟩

/-- Every event of an accounted state moves its own call, which had not ended. -/
private theorem step_moves (h : s.Accounted) (hs : s.step e = some s') :
    (∀ outcome, s.tasks.get? e.id ≠ some (.finished outcome)) ∧ ∃ task, Moves e s s' task := by
  cases e with
  | tryAcquire id units timeoutMs started now =>
    simp only [step] at hs
    split at hs
    · cases hs
    · rename_i hid
      cases hs
      refine ⟨?_, tryAcquire_moves h⟩
      intro o ho
      cases hid.symm.trans ho
  | release id i =>
    simp only [step] at hs
    split at hs
    · rename_i r hid hr
      cases hs
      refine ⟨?_, release_moves h hr⟩
      intro o ho
      cases hid.symm.trans ho
    · cases hs
  | waitEnds id wakeUp now =>
    simp only [step] at hs
    split at hs
    · rename_i call hid
      cases hs
      refine ⟨?_, waitEnds_moves h⟩
      intro o ho
      cases hid.symm.trans ho
    · cases hs
  | lockFreed id now =>
    -- nobody is at the lock
    simp only [step] at hs
    split at hs
    · cases hs
    · cases hs
    · cases hs
    · rename_i task hwait hend hid
      have hoff := h.off_lock id task hid
      cases task with
      | waiting call => exact absurd rfl (hwait call)
      | finished o => exact absurd rfl (hend o)
      | entering call => exact hoff.elim
      | resuming call wakeUp => exact hoff.elim
      | releasing units => exact hoff.elim
  | cancelled id =>
    simp only [step] at hs
    split at hs
    · rename_i call hid
      exact (h.off_lock id _ hid).elim
    · rename_i units hid
      exact (h.off_lock id _ hid).elim
    · rename_i call wakeUp hid
      exact (h.off_lock id _ hid).elim
    · cases hs

private theorem Moves.get?_of_ne {task : LimiterTask} (hm : Moves e s s' task) {id : Nat} (h : id ≠ e.id) :
    s'.tasks.get? id = s.tasks.get? id := by
  rw [hm.tasks, Dict.get?_set, if_neg h]

private theorem Moves.get?_self {task : LimiterTask} (hm : Moves e s s' task) : s'.tasks.get? e.id = some task := by
  rw [hm.tasks, Dict.get?_set, if_pos rfl]

private theorem Effect.off_lock {task : LimiterTask} (h : Effect e s s' task) : task.OffLock := by
  cases h with
  | quiet _ off => exact off
  | granted => trivial
  | gaveBack => trivial

private theorem Effect.capacity_eq {task : LimiterTask} (h : Effect e s s' task) :
    s'.limiter.capacity = s.limiter.capacity := by
  cases h with
  | quiet same => rw [same.1]
  | granted _ limiter => rw [limiter]; rfl
  | gaveBack _ _ _ limiter => rw [limiter]; rfl

/-- The units of a live reservation are in use, so that giving them back is not clamped. -/
private theorem give_used {i : Nat} {r : LimitReservation} (h : s.Accounted) (hr : s.reservations[i]? = some r)
    (hlive : r.released = false) :
    s.limiter.used = (s.limiter.give r.units).used + r.units ∧
      (s.limiter.give r.units).used = outstanding (s.reservations.set i { r with released := true }) := by
  have hset := outstanding_set hr hlive
  have hused := h.used_eq
  show s.limiter.used = s.limiter.used - r.units + r.units ∧ s.limiter.used - r.units = _
  omega

private theorem Moves.accounted {task : LimiterTask} (hm : Moves e s s' task) (h : s.Accounted) : s'.Accounted := by
  have hcap := hm.effect.capacity_eq
  have hle := h.used_le
  have hbooks : s'.limiter.used = outstanding s'.reservations ∧ s'.limiter.used ≤ s'.limiter.capacity := by
    cases hm.effect with
    | quiet same => exact same.1 ▸ same.2 ▸ ⟨h.used_eq, h.used_le⟩
    | @granted n fits limiter reservations =>
      rw [reservations, outstanding_append, hcap, limiter, ← h.used_eq]
      exact ⟨rfl, fits⟩
    | gaveBack _ live unreleased limiter reservations =>
      have hgive := give_used h live unreleased
      rw [reservations, hcap, limiter]
      exact ⟨hgive.2, by omega⟩
  refine ⟨hbooks.1, hbooks.2, hm.locked, fun id t ht => ?_⟩
  by_cases hid : id = e.id
  · rw [hid, hm.get?_self] at ht
    obtain rfl := Option.some.inj ht
    exact hm.effect.off_lock
  · rw [hm.get?_of_ne hid] at ht
    exact h.off_lock id t ht

private theorem step_accounted (h : s.Accounted) (hs : s.step e = some s') : s'.Accounted := by
  obtain ⟨_, task, hm⟩ := step_moves h hs
  exact hm.accounted h

private theorem step_capacity (h : s.Accounted) (hs : s.step e = some s') :
    s'.limiter.capacity = s.limiter.capacity := by
  obtain ⟨_, task, hm⟩ := step_moves h hs
  exact hm.effect.capacity_eq

/-- A call that has ended stays as it is. -/
private theorem step_finished {id : Nat} {o : CallOutcome} (h : s.Accounted) (hs : s.step e = some s')
    (ho : s.tasks.get? id = some (.finished o)) : s'.tasks.get? id = some (.finished o) := by
  obtain ⟨hnew, task, hm⟩ := step_moves h hs
  have hid : id ≠ e.id := by
    rintro rfl
    exact hnew o ho
  rw [hm.get?_of_ne hid, ho]

/-- A released reservation stays released. -/
private theorem step_released {i : Nat} {r : LimitReservation} (h : s.Accounted) (hs : s.step e = some s')
    (hr : s.reservations[i]? = some r) (hreleased : r.released = true) : s'.reservations[i]? = some r := by
  obtain ⟨_, task, hm⟩ := step_moves h hs
  cases hm.effect with
  | quiet same => rw [same.2, hr]
  | granted _ _ reservations =>
    obtain ⟨hlt, _⟩ := List.getElem?_eq_some_iff.1 hr
    rw [reservations, List.getElem?_append_left hlt, hr]
  | @gaveBack _ j q _ live unreleased _ reservations =>
    have hne : j ≠ i := by
      rintro rfl
      obtain rfl := Option.some.inj (live.symm.trans hr)
      exact Bool.false_ne_true (unreleased.symm.trans hreleased)
    rw [reservations, List.getElem?_set_ne hne, hr]

/-- A second release changes nothing. -/
private theorem release_again {id i : Nat} {r : LimitReservation} (hr : s.reservations[i]? = some r)
    (hreleased : r.released = true) (hs : s.step (.release id i) = some s') : SameAccount s s' := by
  simp only [step, hr] at hs
  split at hs
  · rename_i q _ hq
    obtain rfl := Option.some.inj hq
    rw [release, if_pos hreleased] at hs
    cases hs
    exact ⟨rfl, rfl⟩
  · cases hs

/-- An event lowers `used` only as the release of a live reservation, by its units. -/
private theorem step_lowers (h : s.Accounted) (hs : s.step e = some s') (hlt : s'.limiter.used < s.limiter.used) :
    ∃ id i r, e = .release id i ∧ s.reservations[i]? = some r ∧ r.released = false ∧
      s'.reservations[i]? = some { r with released := true } ∧ s.limiter.used = s'.limiter.used + r.units := by
  obtain ⟨_, task, hm⟩ := step_moves h hs
  cases hm.effect with
  | quiet same =>
    rw [same.1] at hlt
    exact absurd hlt (Nat.lt_irrefl _)
  | @granted n _ limiter =>
    rw [limiter] at hlt
    exact absurd hlt (by simp [WeightedLimiter.take])
  | @gaveBack id i r event live unreleased limiter reservations =>
    obtain ⟨hi, _⟩ := List.getElem?_eq_some_iff.1 live
    refine ⟨id, i, r, event, live, unreleased, ?_, ?_⟩
    · rw [reservations, List.getElem?_set_self hi]
    · rw [limiter]
      exact (give_used h live unreleased).1

/-! ### Runs -/

private theorem run_finished {id : Nat} {o : CallOutcome} {es : List LimiterEvent} (h : s.Accounted)
    (ho : s.tasks.get? id = some (.finished o)) (hr : run step s es = some s') :
    s'.tasks.get? id = some (.finished o) := by
  have hstep : ∀ t e t', Accounted t ∧ t.tasks.get? id = some (.finished o) → t.step e = some t' →
      Accounted t' ∧ t'.tasks.get? id = some (.finished o) :=
    fun t e t' ht hs => ⟨step_accounted ht.1 hs, step_finished ht.1 hs ht.2⟩
  exact (run_invariant hstep ⟨h, ho⟩ hr).2

private theorem run_released {i : Nat} {r : LimitReservation} {es : List LimiterEvent} (h : s.Accounted)
    (hi : s.reservations[i]? = some r) (hreleased : r.released = true) (hr : run step s es = some s') :
    s'.reservations[i]? = some r := by
  have hstep : ∀ t e t', Accounted t ∧ t.reservations[i]? = some r → t.step e = some t' →
      Accounted t' ∧ t'.reservations[i]? = some r :=
    fun t e t' ht hs => ⟨step_accounted ht.1 hs, step_released ht.1 hs ht.2 hreleased⟩
  exact (run_invariant hstep ⟨h, hi⟩ hr).2

/-- The events of a call that is refused or raises change nothing. -/
private theorem run_fruitless {id : Nat} {o : CallOutcome} {es : List LimiterEvent} (h : s.Accounted)
    (hr : run step s es = some s') (ho : s'.tasks.get? id = some (.finished o))
    (hfail : o = .refused ∨ ∃ e, o = .raised e) :
    Along step (fun t e => e.id = id → ∀ t', t.step e = some t' → SameAccount t t') s es := by
  induction es generalizing s with
  | nil => trivial
  | cons e es ih =>
    obtain ⟨s₁, hs, hr⟩ := run_cons.1 hr
    have h₁ := step_accounted h hs
    refine ⟨?_, ?_⟩
    · rintro rfl t' ht'
      obtain rfl := Option.some.inj (hs.symm.trans ht')
      obtain ⟨_, task, hm⟩ := step_moves h hs
      -- any other effect ends the call with a reservation or a release, for good
      cases hm.effect with
      | quiet same => exact same
      | granted =>
        have hend := run_finished h₁ hm.get?_self hr
        obtain rfl | ⟨x, rfl⟩ := hfail
        · cases hend.symm.trans ho
        · cases hend.symm.trans ho
      | gaveBack =>
        have hend := run_finished h₁ hm.get?_self hr
        obtain rfl | ⟨x, rfl⟩ := hfail
        · cases hend.symm.trans ho
        · cases hend.symm.trans ho
    · intro t ht
      obtain rfl := Option.some.inj (hs.symm.trans ht)
      exact ih h₁ hr

end LimiterState

/-- Whatever the interleaving, what is used is the sum of the live reservations and fits the capacity; an event lowers
it only as the first release of a reservation; a released reservation is never released again; and a call that is
refused, cancelled or raises has changed nothing. -/
theorem limiter_accounting (capacity : Nat) (h : 0 < capacity) (es : List LimiterEvent) (s : LimiterState)
    (hr : run LimiterState.step (.new capacity h) es = some s) :
    (s.limiter.used = LimiterState.outstanding s.reservations ∧ s.limiter.used ≤ capacity) ∧
    (∀ e s', s.step e = some s' → s'.limiter.used < s.limiter.used →
      ∃ id i r, e = .release id i ∧ s.reservations[i]? = some r ∧ r.released = false ∧
        s'.reservations[i]? = some { r with released := true } ∧ s.limiter.used = s'.limiter.used + r.units) ∧
    (∀ i r es' s', s.reservations[i]? = some r → r.released = true → run LimiterState.step s es' = some s' →
      s'.reservations[i]? = some r ∧ ∀ id s'', s'.step (.release id i) = some s'' → s'.SameAccount s'') ∧
    ∀ id o, s.tasks.get? id = some (.finished o) → (o = .refused ∨ ∃ e, o = .raised e) →
      Along LimiterState.step (fun t e => e.id = id → ∀ t', t.step e = some t' → t.SameAccount t') (.new capacity h)
        es := by
  have hnew := LimiterState.accounted_new h
  have hstep : ∀ t e t', LimiterState.Accounted t ∧ t.limiter.capacity = capacity → t.step e = some t' →
      LimiterState.Accounted t' ∧ t'.limiter.capacity = capacity := by
    intro t e t' ht hs
    exact ⟨LimiterState.step_accounted ht.1 hs, (LimiterState.step_capacity ht.1 hs).trans ht.2⟩
  obtain ⟨hs, hcap⟩ := run_invariant hstep ⟨hnew, rfl⟩ hr
  refine ⟨⟨hs.used_eq, hcap ▸ hs.used_le⟩, ?_, ?_, ?_⟩
  · intro e s' he hlt
    exact LimiterState.step_lowers hs he hlt
  · intro i r es' s' hi hreleased hr'
    have hi' := LimiterState.run_released hs hi hreleased hr'
    exact ⟨hi', fun id s'' he => LimiterState.release_again hi' hreleased he⟩
  · intro id o ho hfail
    exact LimiterState.run_fruitless hnew hr ho hfail

namespace Example

/-- Two calls have to wait: one is woken by a release, the other times out. -/
def contention : List LimiterEvent :=
  [.tryAcquire 0 2 0 0 0, .tryAcquire 1 1 1000 0 0, .tryAcquire 2 2 1000 0 0, .release 3 0, .waitEnds 1 .notified 0,
    .waitEnds 2 .timedOut 1, .release 4 0]

end Example

theorem limiter_accounting_contention : ∃ s, run LimiterState.step (.new 2 (by decide)) Example.contention = some s ∧
    s.limiter.used = LimiterState.outstanding s.reservations ∧ s.limiter.used ≤ 2 := by
  have hsome : (run LimiterState.step (.new 2 (by decide)) Example.contention).isSome := by decide +kernel
  obtain ⟨s, hs⟩ := Option.isSome_iff_exists.1 hsome
  exact ⟨s, hs, (limiter_accounting 2 (by decide) Example.contention s hs).1⟩

end TokenPriceAgg

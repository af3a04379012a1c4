import TokenPriceAgg.Core.Errors
import TokenPriceAgg.Lib.Dict

/-!
# Weighted limiters

`WeightedLimiter.tryAcquire` waits on a condition until the units fit or its deadline passes.  A limiter is part of
a larger state, where a `Limiter.Site` finds it; a wait hands the state to the rest of the program, and a
`Suspension` says what the others did and how the wait ended.  The condition's lock is never held across a
suspension, so taking it does not suspend.
-/

namespace TokenPriceAgg

open PyLib

structure WeightedLimiter where
  capacity : Nat
  used : Nat
  capacity_pos : 0 < capacity

def WeightedLimiter.new (capacity : Nat) (h : 0 < capacity) : WeightedLimiter := ⟨capacity, 0, h⟩

structure LimitReservation where
  units : Nat
  released : Bool := false
deriving DecidableEq, Repr

/-- How `wait_for(condition.wait(), ...)` ends. -/
inductive WakeUp
  | notified
  | timedOut
  | cancelled
deriving DecidableEq, Repr

/-- A wait: what the rest of the program did to the state meanwhile, and how it ended. -/
structure Suspension (σ : Type) where
  others : σ → σ
  wakeUp : WakeUp

/-- A limiter inside the state `σ`: how to read it, and what `used += n` and `used = max(0, used - n)` do. -/
structure Limiter.Site (σ : Type) where
  get : σ → WeightedLimiter
  take : Nat → σ → σ
  give : Nat → σ → σ

def WeightedLimiter.take (n : Nat) (l : WeightedLimiter) : WeightedLimiter := { l with used := l.used + n }

def WeightedLimiter.give (n : Nat) (l : WeightedLimiter) : WeightedLimiter := { l with used := l.used - n }

namespace Limiter

variable {σ : Type}

/-- One turn of the loop: the answer, or `none` when the task has to wait. -/
def turn (site : Site σ) (monotonic : Eff σ Raised ℚ) (units : Nat) (timeoutMs : Int) (deadline : ℚ) :
    Eff σ Raised (Option (Option LimitReservation)) := do
  let s ← Eff.get
  let limiter := site.get s
  if limiter.capacity < limiter.used + units then
    if timeoutMs ≤ 0 then pure (some none)
    else
      let now ← monotonic
      if deadline - now ≤ 0 then pure (some none) else pure none
  else
    Eff.modify (site.take units)
    pure (some (some { units }))

/-- The loop; a wait that is not listed ends by its timeout. -/
def loop (site : Site σ) (monotonic : Eff σ Raised ℚ) (units : Nat) (timeoutMs : Int) (deadline : ℚ) :
    List (Suspension σ) → Eff σ Raised (Option LimitReservation)
  | [] => do
    match ← turn site monotonic units timeoutMs deadline with
    | some answer => pure answer
    | none => pure none
  | s :: rest => do
    match ← turn site monotonic units timeoutMs deadline with
    | some answer => pure answer
    | none =>
      Eff.modify s.others
      match s.wakeUp with
      | .notified => loop site monotonic units timeoutMs deadline rest
      | .timedOut => pure none
      | .cancelled => Eff.raise .cancelled

/-- `try_acquire(units=..., timeout_ms=...)`. -/
def tryAcquire (site : Site σ) (monotonic : Eff σ Raised ℚ) (units : Int) (timeoutMs : Int)
    (suspensions : List (Suspension σ)) : Eff σ Raised (Option LimitReservation) :=
  if units ≤ 0 then pure (some { units := 0 })
  else do
    let s ← Eff.get
    if ((site.get s).capacity : Int) < units then pure none
    else
      let timeoutS ← Eff.ofExcept ((divide (max timeoutMs 0) 1000).mapError Raised.exception)
      let now ← monotonic
      loop site monotonic units.toNat timeoutMs (now + timeoutS) suspensions

/-- `release()`; the reservation is marked, and a second release does nothing. -/
def release (site : Site σ) (r : LimitReservation) : Eff σ Raised LimitReservation := do
  if r.released then pure r
  else
    if 0 < r.units then Eff.modify (site.give r.units)
    pure { r with released := true }

/-! ### What an acquisition does -/

variable {site : Site σ} {monotonic : Eff σ Raised ℚ} {units : Nat} {timeoutMs : Int} {P Q : σ → Prop}

/-- Either nothing that matters has happened, or the units were taken in the last step. -/
def Acquired (P Q : σ → Prop) (units : Nat) : Option LimitReservation → σ → Prop
  | none => P
  | some r => fun s => r = { units } ∧ Q s

private theorem turn_triple {deadline : ℚ} {E : Raised → σ → Prop} (hclock : Eff.Triple P monotonic (fun _ => P) E)
    (htake : ∀ s, P s → Q (site.take units s)) :
    Eff.Triple P (turn site monotonic units timeoutMs deadline)
      (fun answer s => match answer with
        | some r => Acquired P Q units r s
        | none => P s) E := by
  unfold turn
  refine Eff.Triple.bind (Eff.Triple.get fun s hs => hs) fun s => ?_
  refine Eff.Triple.ite (fun _ => ?_) fun _ => ?_
  · refine Eff.Triple.ite (fun _ => Eff.Triple.pure fun s hs => hs) fun _ => ?_
    refine Eff.Triple.bind hclock fun now => ?_
    refine Eff.Triple.ite (fun _ => Eff.Triple.pure fun s hs => hs) fun _ => Eff.Triple.pure fun s hs => hs
  · have hmodify : Eff.Triple P (Eff.modify (site.take units)) (fun _ => Q) E := Eff.Triple.modify htake
    exact Eff.Triple.bind hmodify fun _ => Eff.Triple.pure fun s hs => ⟨rfl, hs⟩

/-- How an acquisition can raise: it is cancelled in a wait, or its timeout has no float. -/
def AcquireRaises (timeoutMs : Int) (suspensions : List (Suspension σ)) : Raised → Prop
  | .cancelled => ∃ s ∈ suspensions, s.wakeUp = .cancelled
  | .exception e => e = .overflowError ∧ ¬ FitsFloat (max timeoutMs 0) 1000

private theorem loop_triple {deadline : ℚ} {suspensions : List (Suspension σ)}
    (hclock : ∀ E, Eff.Triple P monotonic (fun _ => P) E) (hothers : ∀ s ∈ suspensions, ∀ x, P x → P (s.others x))
    (htake : ∀ s, P s → Q (site.take units s)) :
    Eff.Triple P (loop site monotonic units timeoutMs deadline suspensions) (Acquired P Q units)
      (fun e s => P s ∧ AcquireRaises timeoutMs suspensions e) := by
  induction suspensions with
  | nil =>
    unfold loop
    refine Eff.Triple.bind (turn_triple (hclock _) htake) fun answer => ?_
    cases answer with
    | none => exact Eff.Triple.pure fun s hs => hs
    | some r => exact Eff.Triple.pure fun s hs => hs
  | cons w rest ih =>
    unfold loop
    refine Eff.Triple.bind (turn_triple (hclock _) htake) fun answer => ?_
    cases answer with
    | some r => exact Eff.Triple.pure fun s hs => hs
    | none =>
      have hw : Eff.Triple P (Eff.modify w.others) (fun _ => P) (fun e s => P s ∧ AcquireRaises timeoutMs (w :: rest) e) :=
        Eff.Triple.modify fun s hs => hothers w (List.mem_cons_self ..) s hs
      refine Eff.Triple.bind hw fun _ => ?_
      have ih' := ih fun s hs => hothers s (List.mem_cons_of_mem _ hs)
      cases h : w.wakeUp with
      | notified =>
        refine Eff.Triple.weaken ih' (fun s hs => hs) (fun a s hs => hs) fun e s hs => ⟨hs.1, ?_⟩
        cases e with
        | exception e => exact hs.2
        | cancelled =>
          obtain ⟨s', hs', hc⟩ := hs.2
          exact ⟨s', List.mem_cons_of_mem _ hs', hc⟩
      | timedOut => exact Eff.Triple.pure fun s hs => hs
      | cancelled => exact Eff.Triple.raise fun s hs => ⟨hs, w, List.mem_cons_self .., h⟩

/-- An acquisition of at least one unit: what the clock and the others leave alone holds until the units are
taken, and they are taken exactly when a reservation is returned. -/
theorem tryAcquire_triple {n : Int} {suspensions : List (Suspension σ)} (hn : 0 < n)
    (hclock : ∀ E, Eff.Triple P monotonic (fun _ => P) E) (hothers : ∀ s ∈ suspensions, ∀ x, P x → P (s.others x))
    (htake : ∀ s, P s → Q (site.take n.toNat s)) :
    Eff.Triple P (tryAcquire site monotonic n timeoutMs suspensions) (Acquired P Q n.toNat)
      (fun e s => P s ∧ AcquireRaises timeoutMs suspensions e) := by
  unfold tryAcquire
  rw [if_neg (not_le.2 hn)]
  refine Eff.Triple.bind (Eff.Triple.get fun s hs => hs) fun s => ?_
  refine Eff.Triple.ite (fun _ => Eff.Triple.pure fun s hs => hs) fun _ => ?_
  have hdivide : Eff.Triple P (Eff.ofExcept ((divide (max timeoutMs 0) 1000).mapError Raised.exception)) (fun _ => P)
      (fun e s => P s ∧ AcquireRaises timeoutMs suspensions e) := by
    refine Eff.Triple.ofExcept (fun q s _ hs => hs) fun e s he hs => ⟨hs, ?_⟩
    by_cases hf : FitsFloat (max timeoutMs 0) 1000
    · rw [divide_thousand_of_fits hf] at he
      cases he
    · rw [divide_thousand_of_not_fits hf] at he
      cases he
      exact ⟨rfl, hf⟩
  refine Eff.Triple.bind hdivide fun timeoutS => ?_
  exact Eff.Triple.bind (hclock _) fun now => loop_triple hclock hothers htake

end Limiter

end TokenPriceAgg

import TokenPriceAgg.Core.ProviderRunner
import Mathlib.Data.List.Induction

/-!
# Rules for the steps of the runner

What this call does is visible in its local variables and its log, and nobody else touches these.  `On p` is a
condition on the two; there is one rule for each step of `_run_operation`, and the clock and the other requests
never get in the way.
-/

namespace TokenPriceAgg

open PyLib Eff

namespace Runner

section Rules

variable {Req A R : Type} {settings : Settings} {env : Schedule Req A} {p q : Frame R → List Event → Prop}
  {E : Raised → World R → Prop}

/-- A condition on the local variables and the log. -/
def On (p : Frame R → List Event → Prop) (w : World R) : Prop := p w.frame w.log

private theorem monotonic_triple : Triple (On p) (monotonic env : Run R ℚ) (fun _ => On p) E :=
  Triple.step fun _ hw => hw

theorem onFrame_triple {g : Frame R → Frame R} (h : ∀ f l, p f l → q (g f) l) :
    Triple (On p) (Eff.modify (World.onFrame g)) (fun _ => On q) E :=
  Triple.modify fun w hw => h w.frame w.log hw

theorem onShared_triple {g : Shared → Shared} : Triple (On p) (Eff.modify (World.onShared g)) (fun _ => On p) E :=
  Triple.modify fun _ hw => hw

/-- A pure expression returns, or it raises an `Exception`. -/
theorem ofExcept_triple {α : Type} {x : Except Exn α} :
    Triple (On p) (ofExcept x : Run R α) (fun a w => x = .ok a ∧ On p w)
      (fun e w => (∃ exc, e = .exception exc ∧ x = .error exc) ∧ On p w) := by
  intro w hw
  cases x with
  | ok a => exact ⟨rfl, hw⟩
  | error exc => exact ⟨⟨exc, rfl, rfl⟩, hw⟩

theorem allow_triple {scope : CircuitScope} (h : ∀ f l, p f l → q f (l ++ [.admitted scope])) :
    Triple (On p) (allow settings env scope : Run R Bool) (fun answer w => if answer then On q w else On p w) E := by
  unfold allow
  refine Triple.bind monotonic_triple fun now => ?_
  refine Triple.step fun w hw => ?_
  dsimp only
  cases (w.shared.circuit.allow settings.circuit scope now).1 with
  | true => exact h w.frame w.log hw
  | false => exact hw

section

variable [ProviderResult R]

/-- `record_result` raises exactly when the delay of a rate limit has no float. -/
theorem recordResult_triple {scope : CircuitScope} {result : R} (h : ∀ f l, p f l → q f (l ++ [.recorded scope])) :
    Triple (On p) (recordResult settings env scope result)
      (fun _ w => (∀ e ∈ rateLimited result, ∀ exc, rateLimitDelay settings.circuit e ≠ .error exc) ∧ On q w)
      (fun r w => (∃ exc, r = .exception exc ∧
        ∃ e ∈ rateLimited result, rateLimitDelay settings.circuit e = .error exc) ∧ On p w) := by
  unfold recordResult
  refine Triple.bind monotonic_triple fun t₁ => ?_
  refine Triple.bind monotonic_triple fun t₂ => ?_
  intro w hw
  rw [bind_run, get_run]
  dsimp only
  cases hr : w.shared.circuit.recordResult settings.circuit scope result t₁ t₂ with
  | error exc =>
    have hx : (ofExcept (.error exc) : Run R CircuitBreaker) w = (.error (.exception exc), w) := rfl
    rw [bind_error hx]
    exact ⟨⟨exc, rfl, CircuitBreaker.recordResult_error.1 hr⟩, hw⟩
  | ok circuit =>
    have hx : (ofExcept (.ok circuit) : Run R CircuitBreaker) w = (.ok circuit, w) := rfl
    rw [bind_ok hx]
    refine ⟨fun e he exc hd => ?_, h w.frame w.log hw⟩
    have hraise : w.shared.circuit.recordResult settings.circuit scope result t₁ t₂ = .error exc :=
      CircuitBreaker.recordResult_error.2 ⟨e, he, hd⟩
    rw [hr] at hraise
    cases hraise

end

theorem releaseProbe_triple {scope : CircuitScope} (h : ∀ f l, p f l → q f (l ++ [.probeReleased scope])) :
    Triple (On p) (releaseProbe scope : Run R Unit) (fun _ => On q) E :=
  Triple.modify fun w hw => h w.frame w.log hw

/-- Some wait of the list ends by a cancellation. -/
def Cancels (waits : List (Suspension Shared)) : Prop := ∃ s ∈ waits, s.wakeUp = .cancelled

/-- Units are taken exactly when a reservation is returned; only a cancellation can raise. -/
theorem tryAcquire_triple {lane : Lane} {n : Int} {waits : List (Suspension Shared)} (hn : 0 < n)
    (h : ∀ f l, p f l → q f (l ++ [.acquired lane n.toNat])) :
    Triple (On p) (tryAcquire settings env lane n waits)
      (Limiter.Acquired (On p) (On q) n.toNat) (fun e w => (e = .cancelled ∧ Cancels waits) ∧ On p w) := by
  have hothers : ∀ s ∈ waits.map fun s => (⟨World.onShared s.others, s.wakeUp⟩ : Suspension (World R)),
      ∀ w, On p w → On p (s.others w) := by
    intro s hs w hw
    obtain ⟨s', -, rfl⟩ := List.mem_map.1 hs
    exact hw
  have htake : ∀ w : World R, On p w → On q ((World.site lane).take n.toNat w) := fun w hw => h w.frame w.log hw
  unfold tryAcquire
  refine Triple.weaken (Limiter.tryAcquire_triple hn (fun _ => monotonic_triple) hothers htake) (fun w hw => hw)
    (fun r w hw => hw) fun e w hw => ⟨?_, hw.1⟩
  cases e with
  | exception exc =>
    obtain ⟨-, hf⟩ := hw.2
    exact absurd (by simpa using settings.admissionAcquireTimeoutMs_fits) hf
  | cancelled =>
    obtain ⟨s, hs, hc⟩ := hw.2
    obtain ⟨s', hs', rfl⟩ := List.mem_map.1 hs
    exact ⟨rfl, s', hs', hc⟩

theorem gather_triple {g : Gather} (hok : ∀ f l, p f l → q (finish (fun _ => true) f) l)
    (hcancel : g.cancelled = true → ∀ f l, p f l → q (finish g.finished f) l) :
    Triple (On p) (gather g : Run R Unit) (fun _ w => g.cancelled = false ∧ On q w)
      (fun e w => (e = .cancelled ∧ g.cancelled = true) ∧ On q w) := by
  unfold gather
  refine Triple.bind onShared_triple fun _ => ?_
  cases hc : g.cancelled with
  | true =>
    refine Triple.bind (onFrame_triple (hcancel hc)) fun _ => ?_
    exact Triple.raise fun w hw => ⟨⟨rfl, rfl⟩, hw⟩
  | false => exact Triple.modify fun w hw => ⟨rfl, hok w.frame w.log hw⟩

/-- `release` of a reservation that holds units gives them back. -/
theorem release_triple {lane : Lane} {r : LimitReservation} (hr : r.released = false) (hu : 0 < r.units)
    (h : ∀ f l, p f l → q f (l ++ [.released lane r.units])) :
    Triple (On p) (do let _ ← Limiter.release (World.site lane) r : Run R Unit) (fun _ => On q) E := by
  have hgive : Triple (On p) (Eff.modify ((World.site lane).give r.units) : Run R Unit) (fun _ => On q) E :=
    Triple.modify fun w hw => h w.frame w.log hw
  refine Triple.bind (Q := fun _ => On q) ?_ fun _ => Triple.pure fun w hw => hw
  unfold Limiter.release
  rw [hr]
  simp only [Bool.false_eq_true, if_false, hu, if_true]
  exact Triple.bind hgive fun _ => Triple.pure fun w hw => hw

end Rules

/-! ### The results of the tasks -/

section Collect

variable {Req A R : Type} [ProviderResult R] {op : Operation Req A R} {env : Schedule Req A} {req : Req}
  {deadlineMs : Int} {tasks : List ProviderTask} {places : List Nat} {results : List R}

private theorem taskResult_provider {plugin : ProviderPlugin} {run : Option (PluginRun A)} {r : R}
    (h : taskResult op req deadlineMs plugin run = .ok r) : ProviderResult.provider r = plugin.id := by
  unfold taskResult at h
  split at h
  · exact op.deadline_provider h
  · split at h
    · rename_i hr
      cases h
      exact op.run_provider hr
    · exact op.deadline_provider h
    · exact op.internal_provider h

theorem collect_cons {i : Nat} {task : ProviderTask} (ht : tasks[i]? = some task) :
    collect op env req deadlineMs tasks (i :: places) = (do
      let result ← taskResult op req deadlineMs task.plugin (env.task i req)
      let results ← collect op env req deadlineMs tasks places
      pure (result :: results)) := by
  simp only [collect, ht]

/-- One result for each task that is visited, from the provider of the task. -/
theorem collect_providers (h : collect op env req deadlineMs tasks places = .ok results) :
    results.map ProviderResult.provider = places.filterMap fun i => tasks[i]?.map fun task => task.plugin.id := by
  induction places generalizing results with
  | nil =>
    cases h
    rfl
  | cons i places ih =>
    cases ht : tasks[i]? with
    | none =>
      simp only [collect, ht] at h
      simp [ht, ih h]
    | some task =>
      rw [collect_cons ht] at h
      cases hr : taskResult op req deadlineMs task.plugin (env.task i req) with
      | error exc => rw [hr] at h; cases h
      | ok r =>
        cases hc : collect op env req deadlineMs tasks places with
        | error exc => rw [hr, hc] at h; cases h
        | ok rs =>
          rw [hr, hc] at h
          cases h
          simp [ht, ih hc, taskResult_provider hr]

/-- The places `0, …, n - 1` in any order visit every task once. -/
theorem filterMap_range_perm {order : List Nat} (h : order.Perm (List.range tasks.length)) :
    (order.filterMap fun i => tasks[i]?.map fun task => task.plugin.id).Perm (tasks.map fun task => task.plugin.id) := by
  refine (h.filterMap _).trans (List.Perm.of_eq ?_)
  clear h
  induction tasks using List.reverseRecOn with
  | nil => rfl
  | append_singleton ts t ih =>
    rw [List.length_append, List.length_singleton, List.range_succ, List.filterMap_append, List.map_append]
    congr 1
    · refine Eq.trans (List.filterMap_congr fun i hi => ?_) ih
      rw [List.getElem?_append_left (List.mem_range.1 hi)]
    · simp

end Collect

end Runner

end TokenPriceAgg

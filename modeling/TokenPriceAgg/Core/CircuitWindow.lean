import TokenPriceAgg.Core.CircuitRuns
import Mathlib.Data.List.Induction

/-!
# The sliding window of the circuit breaker

When the recorded failures of a scope open its circuit.  `recordTraced` is the scope machine's `recordResult` with the
transition it makes, and `failureLog` the failures recorded for a scope since its last transition: a history of the run
that no part of the breaker stores.

The deque of the scope is the part of that history in the window, because what was dropped off it is older than every
later window (`Pruned`).  So the circuit opens exactly if the whole history has enough failures in the window
(`recordResult_opens_iff`).
-/

namespace TokenPriceAgg

open PyLib

/-- The call of `_open` or `_close` that a recorded result makes. -/
inductive Transition
  | opened
  | closed
deriving DecidableEq

section Trace

variable {R : Type} [ProviderResult R]

namespace ScopeState

/-- `recordResult` with the transition it makes. -/
def recordTraced (cfg : CircuitConfig) (x : ScopeState) (result : R) (t₁ t₂ : ℚ) :
    Except Exn (ScopeState × Option Transition) :=
  match rateLimited result with
  | some e =>
    match rateLimitDelay cfg e with
    | .error exc => .error exc
    | .ok delayS =>
      .ok ({ x.openFor t₁ delayS with rateLimitUntil := some (max (x.openUntil.getD 0) (t₁ + delayS)) }, some .opened)
  | none =>
    if t₁ < x.rateLimitUntil.getD 0 then .ok (x, none)
    else if x.state = some .halfOpen then
      if isCircuitFailure result then .ok (x.releaseProbe.openFor t₂ cfg.openDurationS, some .opened)
      else
        match ProviderResult.status result with
        | .ok | .noRoute | .badRequest => .ok (x.releaseProbe.close, some .closed)
        | .error => .ok (x.releaseProbe, none)
    else if ProviderResult.status result = .ok then .ok (x.close, some .closed)
    else if isCircuitFailure result = false then .ok (x, none)
    else
      let failures := (x.failures ++ [t₂]).dropWhile (· < t₂ - cfg.failureWindowS)
      if cfg.failureThreshold ≤ failures.length then
        .ok ({ x with failures := failures }.openFor t₂ cfg.openDurationS, some .opened)
      else .ok ({ x with failures := failures }, none)

variable {cfg : CircuitConfig} {x x' : ScopeState} {result : R} {t₁ t₂ : ℚ}

/-- The trace is a trace of `recordResult`. -/
private theorem recordTraced_fst :
    (x.recordTraced cfg result t₁ t₂).map Prod.fst = x.recordResult cfg result t₁ t₂ := by
  unfold recordTraced recordResult
  cases rateLimited result with
  | some e =>
    dsimp only
    cases rateLimitDelay cfg e <;> rfl
  | none =>
    dsimp only
    split
    · rfl
    split
    · split
      · rfl
      · cases ProviderResult.status result <;> rfl
    split
    · rfl
    split
    · rfl
    · split <;> rfl

/-- The transition of a recorded result, if it makes one. -/
def transition (cfg : CircuitConfig) (x : ScopeState) (result : R) (t₁ t₂ : ℚ) : Option Transition :=
  match x.recordTraced cfg result t₁ t₂ with
  | .ok (_, transition) => transition
  | .error _ => none

private theorem recordTraced_of_ok (h : x.recordResult cfg result t₁ t₂ = .ok x') :
    x.recordTraced cfg result t₁ t₂ = .ok (x', x.transition cfg result t₁ t₂) := by
  have hfst : (x.recordTraced cfg result t₁ t₂).map Prod.fst = x.recordResult cfg result t₁ t₂ := recordTraced_fst
  rw [h] at hfst
  unfold transition
  cases htrace : x.recordTraced cfg result t₁ t₂ with
  | error exc =>
    rw [htrace] at hfst
    cases hfst
  | ok traced =>
    rw [htrace] at hfst
    obtain rfl : traced.1 = x' := Except.ok.inj hfst
    rfl

/-- The result reaches the log of failures: it is a failure, and the scope is not cooling. -/
def Logs (x : ScopeState) (result : R) (t₁ : ℚ) : Prop :=
  isCircuitFailure result = true ∧ ¬ t₁ < x.rateLimitUntil.getD 0

instance (x : ScopeState) (result : R) (t₁ : ℚ) : Decidable (x.Logs result t₁) := inferInstanceAs (Decidable (_ ∧ _))

/-- A rate limit is no circuit failure. -/
private theorem isCircuitFailure_of_rateLimited {e : ErrorInfo} (h : rateLimited result = some e) :
    isCircuitFailure result = false := by
  unfold rateLimited at h
  obtain ⟨herror, htype⟩ := Option.filter_eq_some_iff.1 h
  have htype : e.type = .rateLimited := by simpa using htype
  unfold isCircuitFailure
  cases ProviderResult.status result <;> simp [herror, htype, isRetriable]

/-- A transition empties the deque; otherwise it takes what reaches the log and drops what has left the window. -/
private theorem failures_traced {tr : Option Transition} (h : x.recordTraced cfg result t₁ t₂ = .ok (x', tr)) :
    x'.failures =
      if tr.isSome then []
      else if x.Logs result t₁ then (x.failures ++ [t₂]).dropWhile (· < t₂ - cfg.failureWindowS) else x.failures := by
  unfold recordTraced at h
  cases hr : rateLimited result with
  | some e =>
    rw [hr] at h
    dsimp only at h
    split at h
    · cases h
    · cases h
      rfl
  | none =>
    rw [hr] at h
    dsimp only at h
    by_cases hc : t₁ < x.rateLimitUntil.getD 0
    · rw [if_pos hc] at h
      cases h
      -- in a cooldown the call returns before the deque
      have hlogs : ¬ x.Logs result t₁ := fun hl => hl.2 hc
      rw [if_neg nofun, if_neg hlogs]
    rw [if_neg hc] at h
    by_cases hs : x.state = some .halfOpen
    · rw [if_pos hs] at h
      by_cases hf : isCircuitFailure result = true
      · rw [if_pos hf] at h
        cases h
        rfl
      · rw [if_neg hf] at h
        have hlogs : ¬ x.Logs result t₁ := fun hl => hf hl.1
        split at h
        · cases h
          rfl
        · cases h
          rfl
        · cases h
          rfl
        · cases h
          rw [if_neg nofun, if_neg hlogs, releaseProbe_of_eq hs]
    · rw [if_neg hs] at h
      by_cases hok : ProviderResult.status result = .ok
      · rw [if_pos hok] at h
        cases h
        rfl
      rw [if_neg hok] at h
      by_cases hf : isCircuitFailure result = false
      · rw [if_pos hf] at h
        cases h
        have hlogs : ¬ x.Logs result t₁ := fun hl => by rw [hl.1] at hf; cases hf
        rw [if_neg nofun, if_neg hlogs]
      · rw [if_neg hf] at h
        have hlogs : x.Logs result t₁ := ⟨by simpa using hf, hc⟩
        split at h
        · cases h
          rfl
        · cases h
          rw [if_neg nofun, if_pos hlogs]

/-- A result with which the call raises makes no transition. -/
private theorem transition_of_raise {e : ErrorInfo} {exc : Exn} (he : rateLimited result = some e)
    (hd : rateLimitDelay cfg e = .error exc) : x.transition cfg result t₁ t₂ = none := by
  unfold transition recordTraced
  rw [he]
  dsimp only
  rw [hd]

/-- Outside the half-open phase and a cooldown, a result that is no rate limit opens the circuit exactly if it is a
failure with which the deque reaches the threshold. -/
private theorem transition_eq_opened (hr : rateLimited result = none) (hc : ¬ t₁ < x.rateLimitUntil.getD 0)
    (hs : x.state ≠ some .halfOpen) (hok : ProviderResult.status result = .ok → isCircuitFailure result = false) :
    x.transition cfg result t₁ t₂ = some .opened ↔
      isCircuitFailure result = true ∧
        cfg.failureThreshold ≤ ((x.failures ++ [t₂]).dropWhile (· < t₂ - cfg.failureWindowS)).length := by
  unfold transition recordTraced
  rw [hr]
  dsimp only
  rw [if_neg hc, if_neg hs]
  by_cases hstatus : ProviderResult.status result = .ok
  · rw [if_pos hstatus, hok hstatus]
    simp
  rw [if_neg hstatus]
  by_cases hf : isCircuitFailure result = false
  · rw [if_pos hf, hf]
    simp
  have hf' : isCircuitFailure result = true := by simpa using hf
  rw [if_neg hf]
  by_cases hk : cfg.failureThreshold ≤ ((x.failures ++ [t₂]).dropWhile (· < t₂ - cfg.failureWindowS)).length
  · rw [if_pos hk]
    simp only [hf', hk, and_self]
  · rw [if_neg hk]
    simp only [hf', hk, and_false, reduceCtorEq]

/-- A result that is neither a success nor a circuit failure nor a rate limit. -/
def Neutral (result : R) : Prop :=
  rateLimited result = none ∧ isCircuitFailure result = false ∧ ProviderResult.status result ≠ .ok

/-- Outside the half-open phase a neutral result changes nothing. -/
private theorem recordResult_neutral (h : Neutral result) (hs : x.state ≠ some .halfOpen) :
    x.recordResult cfg result t₁ t₂ = .ok x := by
  obtain ⟨hr, hf, hok⟩ := h
  unfold recordResult
  rw [hr]
  dsimp only
  by_cases hc : t₁ < x.rateLimitUntil.getD 0
  · rw [if_pos hc]
  · rw [if_neg hc, if_neg hs, if_neg hok, if_pos hf]

end ScopeState

/-- Results of other scopes and neutral results leave the scope as it is. -/
private theorem Clocked.step_unaffected {cfg : CircuitConfig} {s s' : Clocked} {a scope : CircuitScope} {result : R}
    {t₁ t₂ : ℚ} (h : s.step cfg (.record a result t₁ t₂) = some s') (hs : (s.view scope).state ≠ some .halfOpen)
    (hother : a ≠ scope ∨ ScopeState.Neutral result) : s'.view scope = s.view scope := by
  simp only [Clocked.step] at h
  split at h
  · cases hr : s.circuit.recordResult cfg a result t₁ t₂ with
    | error exc =>
      rw [hr] at h
      obtain rfl := Option.some.inj h
      rfl
    | ok c =>
      rw [hr] at h
      obtain rfl := Option.some.inj h
      by_cases ha : a = scope
      · subst ha
        have hneutral := hother.resolve_left (fun hne => hne rfl)
        have hview := CircuitBreaker.recordResult_ok hr
        have hsame : (s.view a).recordResult cfg result t₁ t₂ = .ok (s.view a) :=
          ScopeState.recordResult_neutral hneutral hs
        exact (Except.ok.inj (hsame.symm.trans hview)).symm
      · exact CircuitBreaker.recordResult_frame hr (Ne.symm ha)
  · cases h

/-! ### The history of the failures -/

/-- The failures recorded for a scope since its last transition, after one more call.  `Recorded` says which failures
are recorded in the state of the scope at the time of the call. -/
def failureLogAfter (Recorded : ScopeState → R → ℚ → Bool) (cfg : CircuitConfig) (scope : CircuitScope) (s : Clocked)
    (log : List ℚ) : Call R → List ℚ
  | .record a result t₁ t₂ =>
    if a = scope then
      if ((s.view scope).transition cfg result t₁ t₂).isSome then []
      else if Recorded (s.view scope) result t₁ then log ++ [t₂] else log
    else log
  | .allow .. => log
  | .release _ => log

/-- The breaker with the history of one scope. -/
def loggedStep (Recorded : ScopeState → R → ℚ → Bool) (cfg : CircuitConfig) (scope : CircuitScope)
    (s : Clocked × List ℚ) (call : Call R) : Option (Clocked × List ℚ) :=
  (s.1.step cfg call).map fun s' => (s', failureLogAfter Recorded cfg scope s.1 s.2 call)

/-- The failures of the log that are in the window at a time. -/
def inFailureWindow (cfg : CircuitConfig) (log : List ℚ) (now : ℚ) : List ℚ :=
  log.filter fun t => now - cfg.failureWindowS ≤ t

/-- The deque is the part of the history from some cutoff on, before which no window will reach. -/
structure Pruned (cfg : CircuitConfig) (clock : ℚ) (failures log : List ℚ) : Prop where
  sorted : log.Pairwise (· ≤ ·)
  past : ∀ t ∈ log, t ≤ clock
  cutoff : ∃ cutoff ≤ clock - cfg.failureWindowS, failures = log.filter fun t => cutoff ≤ t

private theorem dropWhile_eq_filter {log : List ℚ} (h : log.Pairwise (· ≤ ·)) (cutoff : ℚ) :
    log.dropWhile (· < cutoff) = log.filter fun t => cutoff ≤ t := by
  induction log with
  | nil => rfl
  | cons t log ih =>
    obtain ⟨hle, hlog⟩ := List.pairwise_cons.1 h
    by_cases ht : t < cutoff
    · rw [List.dropWhile_cons_of_pos (by simpa using ht), List.filter_cons_of_neg (by simpa using ht), ih hlog]
    · have hall : ∀ u ∈ t :: log, decide (cutoff ≤ u) = true := by
        intro u hu
        rcases List.mem_cons.1 hu with rfl | hu
        · simpa using ht
        · simpa using (not_lt.1 ht).trans (hle u hu)
      rw [List.dropWhile_cons_of_neg (by simpa using ht), List.filter_eq_self.2 hall]

variable {cfg : CircuitConfig}

namespace Pruned

variable {clock now : ℚ} {failures log : List ℚ}

private theorem nil (clock : ℚ) : Pruned cfg clock [] [] :=
  ⟨.nil, nofun, clock - cfg.failureWindowS, le_rfl, rfl⟩

theorem later (h : Pruned cfg clock failures log) (hle : clock ≤ now) : Pruned cfg now failures log := by
  obtain ⟨cutoff, hcutoff, hfailures⟩ := h.cutoff
  refine ⟨h.sorted, fun t ht => (h.past t ht).trans hle, cutoff, ?_, hfailures⟩
  linarith

private theorem sorted_append (h : Pruned cfg clock failures log) (hle : clock ≤ now) :
    (log ++ [now]).Pairwise (· ≤ ·) := by
  rw [List.pairwise_append]
  refine ⟨h.sorted, List.pairwise_singleton _ _, ?_⟩
  intro t ht u hu
  rw [List.mem_singleton.1 hu]
  exact (h.past t ht).trans hle

/-- What the deque keeps of the history with one more failure is what is in the window then. -/
private theorem dropWhile_append (h : Pruned cfg clock failures log) (hle : clock ≤ now) :
    (failures ++ [now]).dropWhile (· < now - cfg.failureWindowS) = inFailureWindow cfg (log ++ [now]) now := by
  obtain ⟨cutoff, hcutoff, hfailures⟩ := h.cutoff
  have hsorted : (failures ++ [now]).Pairwise (· ≤ ·) := by
    rw [hfailures]
    exact (h.sorted_append hle).sublist (List.Sublist.append List.filter_sublist (List.Sublist.refl _))
  have hsub : ∀ t : ℚ, now - cfg.failureWindowS ≤ t → cutoff ≤ t := by
    intro t ht
    linarith
  unfold inFailureWindow
  rw [dropWhile_eq_filter hsorted, List.filter_append, List.filter_append, hfailures, List.filter_filter]
  congr 1
  apply List.filter_congr
  intro t _
  rw [Bool.eq_iff_iff, Bool.and_eq_true, decide_eq_true_eq, decide_eq_true_eq]
  exact and_iff_left_of_imp (hsub t)

/-- With one more failure the deque is again a part of the history. -/
private theorem append (h : Pruned cfg clock failures log) (hle : clock ≤ now) :
    Pruned cfg now ((failures ++ [now]).dropWhile (· < now - cfg.failureWindowS)) (log ++ [now]) := by
  refine ⟨h.sorted_append hle, ?_, now - cfg.failureWindowS, le_rfl, h.dropWhile_append hle⟩
  intro t ht
  rcases List.mem_append.1 ht with ht | ht
  · exact (h.past t ht).trans hle
  · exact (List.mem_singleton.1 ht).le

end Pruned

private theorem ScopeState.allow_failures (x : ScopeState) (now : ℚ) : (x.allow cfg now).2.failures = x.failures := by
  have h : AllowStep cfg x now _ _ := x.allow_cases now
  generalize (x.allow cfg now).1 = b, (x.allow cfg now).2 = x' at h
  cases h <;> rfl

private theorem ScopeState.releaseProbe_failures (x : ScopeState) : x.releaseProbe.failures = x.failures := by
  unfold ScopeState.releaseProbe
  split <;> rfl

/-- The failures that reach the log of a scope. -/
def outsideCooldown (x : ScopeState) (result : R) (t₁ : ℚ) : Bool := x.Logs result t₁

/-- One recorded result keeps the deque a part of the history. -/
private theorem ScopeState.pruned_record {x x' : ScopeState} {result : R} {clock t₁ t₂ : ℚ} {log : List ℚ}
    (h : x.recordResult cfg result t₁ t₂ = .ok x') (hp : Pruned cfg clock x.failures log) (hle : clock ≤ t₂) :
    Pruned cfg t₂ x'.failures
      (if (x.transition cfg result t₁ t₂).isSome then []
        else if outsideCooldown x result t₁ then log ++ [t₂] else log) := by
  rw [failures_traced (recordTraced_of_ok h)]
  split
  · exact .nil t₂
  · unfold outsideCooldown
    by_cases hlogs : x.Logs result t₁
    · rw [if_pos hlogs, if_pos (decide_eq_true hlogs)]
      exact hp.append hle
    · rw [if_neg hlogs, if_neg (by simpa using hlogs)]
      exact hp.later hle

/-- One call keeps the deque of the scope a part of the history. -/
private theorem pruned_step {scope : CircuitScope} {s s' : Clocked} {log log' : List ℚ} {call : Call R}
    (h : loggedStep outsideCooldown cfg scope (s, log) call = some (s', log'))
    (hp : Pruned cfg s.clock (s.view scope).failures log) : Pruned cfg s'.clock (s'.view scope).failures log' := by
  obtain ⟨s₁, hstep, heq⟩ := Option.map_eq_some_iff.1 h
  obtain ⟨rfl, rfl⟩ := Prod.mk.inj heq
  have hclock := Clocked.step_clock hstep
  cases call with
  | allow a now =>
    cases Clocked.step_effect hstep scope with
    | frame hv => exact hv ▸ hp.later hclock
    | allow hv =>
      rw [hv, ScopeState.allow_failures]
      exact hp.later hclock
  | release a =>
    cases Clocked.step_effect hstep scope with
    | frame hv => exact hv ▸ hp.later hclock
    | release hv =>
      rw [hv, ScopeState.releaseProbe_failures]
      exact hp.later hclock
  | record a result t₁ t₂ =>
    simp only [Clocked.step] at hstep
    split at hstep
    · rename_i ht
      have hle : s.clock ≤ t₂ := ht.1.trans ht.2
      unfold failureLogAfter
      dsimp only
      cases hr : s.circuit.recordResult cfg a result t₁ t₂ with
      | error exc =>
        rw [hr] at hstep
        obtain rfl := Option.some.inj hstep
        obtain ⟨e, he, hd⟩ := CircuitBreaker.recordResult_error.1 hr
        have hlogs : ¬ outsideCooldown (s.view scope) result t₁ = true := by
          unfold outsideCooldown
          intro hl
          have hf := (of_decide_eq_true hl).1
          rw [ScopeState.isCircuitFailure_of_rateLimited he] at hf
          cases hf
        rw [ScopeState.transition_of_raise he hd, Option.isSome_none]
        simp only [Bool.false_eq_true, hlogs, if_false, ite_self]
        exact hp.later hle
      | ok c =>
        rw [hr] at hstep
        obtain rfl := Option.some.inj hstep
        by_cases ha : a = scope
        · subst ha
          rw [if_pos rfl]
          exact ScopeState.pruned_record (CircuitBreaker.recordResult_ok hr) hp hle
        · rw [if_neg ha]
          have hframe := CircuitBreaker.recordResult_frame hr (Ne.symm ha)
          exact (show Pruned cfg t₂ (c.view scope).failures log from hframe ▸ hp.later hle)
    · cases hstep

/-- After every history the deque of the scope is a part of the history of its failures. -/
private theorem pruned_run
    {scope : CircuitScope} {now : ℚ} {h₀ : 0 ≤ now} {calls : List (Call R)} {s : Clocked} {log : List ℚ}
    (h : run (loggedStep outsideCooldown cfg scope) (.start now h₀, []) calls = some (s, log)) :
    Pruned cfg s.clock (s.view scope).failures log := by
  let I (x : Clocked × List ℚ) := Pruned cfg x.1.clock (x.1.view scope).failures x.2
  have hI : I (s, log) := by
    refine run_invariant (I := I) (fun x call x' hx hstep => ?_) (Pruned.nil now) h
    exact pruned_step hstep hx
  exact hI

end Trace

/-- A successful result has no error. -/
private theorem AnyResult.ok_not_failure {result : AnyResult} (h : ProviderResult.status result = .ok) :
    isCircuitFailure result = false := by
  have herror : ProviderResult.error result = none := by
    cases result with
    | inl r => exact r.property.ok_error h
    | inr r => exact r.property.ok_error h
  unfold isCircuitFailure
  rw [h, herror]

/-- Recording the result opens the circuit of the scope. -/
def OpensCircuit (cfg : CircuitConfig) (scope : CircuitScope) (s : Clocked) (result : AnyResult) (t₁ t₂ : ℚ) : Prop :=
  ∃ c, s.circuit.recordResult cfg scope result t₁ t₂ = .ok c ∧
    (s.view scope).recordTraced cfg result t₁ t₂ = .ok (c.view scope, some .opened)

/-- The result opens the circuit exactly if it is a failure that makes enough failures in the window with those of the
log. -/
def TripsOnWindow (cfg : CircuitConfig) (scope : CircuitScope) (s : Clocked) (log : List ℚ) (result : AnyResult)
    (t₁ t₂ : ℚ) : Prop :=
  OpensCircuit cfg scope s result t₁ t₂ ↔
    isCircuitFailure result = true ∧ cfg.failureThreshold ≤ (inFailureWindow cfg (log ++ [t₂]) t₂).length

private theorem opensCircuit_iff
    {cfg : CircuitConfig} {scope : CircuitScope} {s : Clocked} {result : AnyResult} {t₁ t₂ : ℚ}
    (hr : rateLimited result = none) :
    OpensCircuit cfg scope s result t₁ t₂ ↔ (s.view scope).transition cfg result t₁ t₂ = some .opened := by
  cases hc : s.circuit.recordResult cfg scope result t₁ t₂ with
  | error exc =>
    obtain ⟨e, he, -⟩ := CircuitBreaker.recordResult_error.1 hc
    rw [hr] at he
    cases he
  | ok c =>
    have htrace := ScopeState.recordTraced_of_ok (CircuitBreaker.recordResult_ok hc)
    constructor
    · rintro ⟨c', hc', hopened⟩
      rw [hc] at hc'
      obtain rfl := Except.ok.inj hc'
      exact (Prod.mk.inj (Except.ok.inj (htrace.symm.trans hopened))).2
    · intro htransition
      refine ⟨c, hc, ?_⟩
      rw [← htransition]
      exact htrace

/-- After every history of calls on any scopes, a result that is no rate limit, recorded outside the half-open phase
and a cooldown, opens the circuit exactly if it is a failure and the failures recorded for the scope outside its
cooldowns since it was last opened or closed reach the threshold in the window.  Neutral results and results of other
scopes change nothing of the scope. -/
theorem recordResult_opens_iff (cfg : CircuitConfig) (scope : CircuitScope) {now : ℚ} {h₀ : 0 ≤ now}
    {calls : List (Call AnyResult)} {s : Clocked} {log : List ℚ}
    (hrun : run (loggedStep outsideCooldown cfg scope) (.start now h₀, []) calls = some (s, log))
    {result : AnyResult} {t₁ t₂ : ℚ} (h₁ : s.clock ≤ t₁) (h₂ : t₁ ≤ t₂) (hr : rateLimited result = none)
    (hs : (s.view scope).state ≠ some .halfOpen) (hc : ¬ t₁ < (s.view scope).rateLimitUntil.getD 0) :
    TripsOnWindow cfg scope s log result t₁ t₂ ∧
      ∀ (a : CircuitScope) (other : AnyResult) (u₁ u₂ : ℚ) (s' : Clocked),
        s.step cfg (.record a other u₁ u₂) = some s' → a ≠ scope ∨ ScopeState.Neutral other →
        s'.view scope = s.view scope := by
  have hpruned := pruned_run hrun
  refine ⟨?_, fun a other u₁ u₂ s' hstep hother => Clocked.step_unaffected hstep hs hother⟩
  unfold TripsOnWindow
  rw [opensCircuit_iff hr, ScopeState.transition_eq_opened hr hc hs AnyResult.ok_not_failure,
    hpruned.dropWhile_append (h₁.trans h₂)]

/-! A scope with a threshold of two: two failures in the window, and two of which the first came in a cooldown. -/

private def thresholdTwo : CircuitConfig :=
  { CircuitConfig.default with failureThreshold := 2, failureThreshold_pos := Nat.zero_lt_two }

private def curveQuotes : CircuitScope := ⟨"curve", 1, "quote"⟩

private def timedOut : AnyResult :=
  .inr ⟨{ provider := "curve", status := .error, latencyMs := 0, error := some { type := .timeout, message := "" } },
    by decide⟩

private def throttledQuote : AnyResult :=
  .inr ⟨{ provider := "curve", status := .error, latencyMs := 0,
          error := some { type := .rateLimited, message := "Rate limited", retryAfterMs := some 1000 } }, by decide⟩

theorem recordResult_opens_second :
    ∃ s log, run (loggedStep outsideCooldown thresholdTwo curveQuotes) (.start 0 le_rfl, [])
        [.record curveQuotes timedOut 0 0] = some (s, log) ∧ OpensCircuit thresholdTwo curveQuotes s timedOut 5 6 := by
  have hrun : (run (loggedStep outsideCooldown thresholdTwo curveQuotes) (.start 0 le_rfl, [])
      [.record curveQuotes timedOut 0 0]).map (fun x => (x.1.clock, x.1.view curveQuotes, x.2)) =
        some (0, ⟨[0], none, none, 0, none⟩, [0]) := by decide +kernel
  obtain ⟨⟨s, log⟩, hs, h⟩ := Option.map_eq_some_iff.1 hrun
  obtain ⟨hclock, hrest⟩ := Prod.mk.inj h
  obtain ⟨hview, hlog⟩ := Prod.mk.inj hrest
  dsimp only at hclock hview hlog
  refine ⟨s, log, hs, (recordResult_opens_iff thresholdTwo curveQuotes hs ?_ ?_ rfl ?_ ?_).1.2 ⟨rfl, ?_⟩⟩
  · rw [hclock]
    norm_num
  · norm_num
  · rw [hview]
    exact nofun
  · rw [hview]
    norm_num
  · rw [hlog]
    decide +kernel

theorem recordResult_cooldown_failure :
    ∃ s log, run (loggedStep (fun _ result _ => isCircuitFailure result) thresholdTwo curveQuotes) (.start 0 le_rfl, [])
        [.record curveQuotes throttledQuote 0 0, .record curveQuotes timedOut (1 / 2) (1 / 2)] = some (s, log) ∧
      s.clock ≤ 2 ∧ rateLimited timedOut = none ∧ (s.view curveQuotes).state ≠ some .halfOpen ∧
      ¬ 2 < (s.view curveQuotes).rateLimitUntil.getD 0 ∧
      ¬ TripsOnWindow thresholdTwo curveQuotes s log timedOut 2 2 := by
  have hrun : (run (loggedStep (fun _ result _ => isCircuitFailure result) thresholdTwo curveQuotes)
      (.start 0 le_rfl, []) [.record curveQuotes throttledQuote 0 0, .record curveQuotes timedOut (1 / 2) (1 / 2)]).map
        (fun x => (x.1.clock, x.1.view curveQuotes, x.2)) =
        some (1 / 2, ⟨[], some 1, some 1, 0, some .open⟩, [1 / 2]) := by decide +kernel
  obtain ⟨⟨s, log⟩, hs, h⟩ := Option.map_eq_some_iff.1 hrun
  obtain ⟨hclock, hrest⟩ := Prod.mk.inj h
  obtain ⟨hview, hlog⟩ := Prod.mk.inj hrest
  dsimp only at hclock hview hlog
  refine ⟨s, log, hs, ?_, rfl, ?_, ?_, ?_⟩
  · rw [hclock]
    norm_num
  · rw [hview]
    decide
  · rw [hview]
    norm_num
  · intro htrips
    have hcount : isCircuitFailure timedOut = true ∧
        thresholdTwo.failureThreshold ≤ (inFailureWindow thresholdTwo (log ++ [2]) 2).length := by
      rw [hlog]
      decide +kernel
    have hopened := (opensCircuit_iff rfl).1 (htrips.2 hcount)
    rw [hview] at hopened
    exact absurd hopened (by decide +kernel)

end TokenPriceAgg

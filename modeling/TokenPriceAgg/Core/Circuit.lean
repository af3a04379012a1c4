import TokenPriceAgg.Core.Models
import TokenPriceAgg.Lib.Dict
import Mathlib.Order.MinMax

/-!
# The circuit breaker

`CircuitBreaker` keeps five dictionaries keyed by scope (provider, chain, operation), as the source does.
`ScopeState` is the same machine for a single scope.  The two are connected by `view`: an operation of the breaker
on `scope` acts on the view of `scope` as the scope machine does and leaves every other view unchanged
(`allow_view`, `recordResult_view`, `releaseProbe_view`).

Times are readings of `time.monotonic()`, kept as exact rationals.  `recordResult` reads the clock up to twice, so
it takes the two readings.
-/

namespace TokenPriceAgg

open PyLib

structure CircuitScope where
  provider : String
  chainId : Int
  operation : String
deriving DecidableEq, Repr

inductive CircuitState
  | closed
  | open
  | halfOpen
deriving DecidableEq, Repr

/-- The arguments of the breaker, as the settings validation admits them; the open duration is in float range. -/
structure CircuitConfig where
  failureWindowS : Nat
  failureThreshold : Nat
  openDurationS : Nat
  halfOpenProbeCount : Nat
  failureWindowS_pos : 0 < failureWindowS
  failureThreshold_pos : 0 < failureThreshold
  openDurationS_pos : 0 < openDurationS
  halfOpenProbeCount_pos : 0 < halfOpenProbeCount
  openDurationS_fits : FitsFloat (openDurationS * 1000) 1000

/-- The defaults of the settings. -/
def CircuitConfig.default : CircuitConfig where
  failureWindowS := 30
  failureThreshold := 10
  openDurationS := 15
  halfOpenProbeCount := 2
  failureWindowS_pos := by decide
  failureThreshold_pos := by decide
  openDurationS_pos := by decide
  halfOpenProbeCount_pos := by decide
  openDurationS_fits := by decide +kernel

def maxRateLimitBackoffS : ℚ := 300

structure CircuitBreaker where
  failures : Dict CircuitScope (List ℚ)
  openUntil : Dict CircuitScope ℚ
  rateLimitUntil : Dict CircuitScope ℚ
  halfOpenInflight : Dict CircuitScope Nat
  state : Dict CircuitScope CircuitState

section Result

variable {R : Type} [ProviderResult R]

/-- The result is an error of type `RATE_LIMITED`. -/
def rateLimited (result : R) : Option ErrorInfo :=
  (ProviderResult.error result).filter (·.type = .rateLimited)

def isRetriable : ErrorType → Bool
  | .timeout | .upstreamHttp | .internalTransportTimeout => true
  | _ => false

def isCircuitFailure (result : R) : Bool :=
  match ProviderResult.status result with
  | .badRequest | .noRoute => false
  | _ =>
    match ProviderResult.error result with
    | none => false
    | some e => isRetriable e.type

end Result

/-- `retry_after_ms or open_duration_s * 1000`. -/
def retryAfterOrOpen (cfg : CircuitConfig) (e : ErrorInfo) : Int :=
  match e.retryAfterMs with
  | none => cfg.openDurationS * 1000
  | some n => if n = 0 then cfg.openDurationS * 1000 else n

/-- The back-off of a rate limit in seconds, cut at five minutes or the open duration. -/
def rateLimitDelay (cfg : CircuitConfig) (e : ErrorInfo) : Except Exn ℚ :=
  match divide (retryAfterOrOpen cfg e) 1000 with
  | .ok retryAfterS => .ok (min retryAfterS (max cfg.openDurationS maxRateLimitBackoffS))
  | .error exc => .error exc

private theorem retryAfterOrOpen_fits {cfg : CircuitConfig} {e : ErrorInfo} :
    FitsFloat (retryAfterOrOpen cfg e) 1000 ↔ ∀ ms ∈ e.retryAfterMs, FitsFloat ms 1000 := by
  unfold retryAfterOrOpen
  cases e.retryAfterMs with
  | none => exact iff_of_true cfg.openDurationS_fits (by simp)
  | some n =>
    by_cases hn : n = 0
    · have hzero : FitsFloat n 1000 := hn ▸ fitsFloat_zero (by decide)
      simp only [hn, if_true]
      exact iff_of_true cfg.openDurationS_fits (by simpa [hn] using hzero)
    · simp [hn]

/-- A delay has no float exactly when the number of milliseconds it comes from has none. -/
theorem rateLimitDelay_error {cfg : CircuitConfig} {e : ErrorInfo} {exc : Exn} :
    rateLimitDelay cfg e = .error exc ↔ exc = .overflowError ∧ ∃ ms ∈ e.retryAfterMs, ¬ FitsFloat ms 1000 := by
  by_cases hf : FitsFloat (retryAfterOrOpen cfg e) 1000
  · have hall := retryAfterOrOpen_fits.1 hf
    have hok : rateLimitDelay cfg e ≠ .error exc := by
      unfold rateLimitDelay
      rw [divide_thousand_of_fits hf]
      simp
    refine iff_of_false hok ?_
    rintro ⟨-, ms, hms, hnot⟩
    exact hnot (hall ms hms)
  · have hsome : ∃ ms ∈ e.retryAfterMs, ¬ FitsFloat ms 1000 := by
      by_contra hnone
      push Not at hnone
      exact hf (retryAfterOrOpen_fits.2 hnone)
    unfold rateLimitDelay
    rw [divide_thousand_of_not_fits hf]
    constructor
    · intro h
      exact ⟨(Except.error.inj h).symm, hsome⟩
    · rintro ⟨rfl, -⟩
      rfl

namespace CircuitBreaker

def empty : CircuitBreaker := ⟨.empty, .empty, .empty, .empty, .empty⟩

def setState (c : CircuitBreaker) (scope : CircuitScope) (state : CircuitState) : CircuitBreaker :=
  if c.state.get? scope = some state then c else { c with state := c.state.set scope state }

def allow (cfg : CircuitConfig) (c : CircuitBreaker) (scope : CircuitScope) (now : ℚ) : Bool × CircuitBreaker :=
  match c.openUntil.get? scope with
  | none => (true, c.setState scope .closed)
  | some openUntil =>
    if now < openUntil then (false, c.setState scope .open)
    else
      let c := c.setState scope .halfOpen
      let inflight := c.halfOpenInflight.getD scope 0
      if cfg.halfOpenProbeCount ≤ inflight then (false, c)
      else (true, { c with halfOpenInflight := c.halfOpenInflight.set scope (inflight + 1) })

def close (c : CircuitBreaker) (scope : CircuitScope) : CircuitBreaker :=
  { c with
    failures := c.failures.pop scope
    openUntil := c.openUntil.pop scope
    rateLimitUntil := c.rateLimitUntil.pop scope
    halfOpenInflight := c.halfOpenInflight.pop scope }.setState scope .closed

/-- `_open`; the delay is the open duration unless one is given. -/
def openFor (c : CircuitBreaker) (scope : CircuitScope) (now delayS : ℚ) : CircuitBreaker :=
  { c with
    failures := c.failures.pop scope
    halfOpenInflight := c.halfOpenInflight.pop scope
    openUntil := c.openUntil.set scope (max (c.openUntil.getD scope 0) (now + delayS)) }.setState scope .open

def releaseProbe (c : CircuitBreaker) (scope : CircuitScope) : CircuitBreaker :=
  if c.state.get? scope ≠ some .halfOpen then c
  else { c with halfOpenInflight := c.halfOpenInflight.set scope (c.halfOpenInflight.getD scope 1 - 1) }

variable {R : Type} [ProviderResult R]

/-- `t₁` is the first reading of the clock, `t₂` the one made after the cooldown check. -/
def recordResult (cfg : CircuitConfig) (c : CircuitBreaker) (scope : CircuitScope) (result : R) (t₁ t₂ : ℚ) :
    Except Exn CircuitBreaker :=
  match rateLimited result with
  | some e =>
    match rateLimitDelay cfg e with
    | .error exc => .error exc
    | .ok delayS =>
      let c := c.openFor scope t₁ delayS
      .ok { c with rateLimitUntil := c.rateLimitUntil.set scope (c.openUntil.getD scope 0) }
  | none =>
    if t₁ < c.rateLimitUntil.getD scope 0 then .ok c
    else if c.state.get? scope = some .halfOpen then
      let c := c.releaseProbe scope
      if isCircuitFailure result then .ok (c.openFor scope t₂ cfg.openDurationS)
      else
        match ProviderResult.status result with
        | .ok | .noRoute | .badRequest => .ok (c.close scope)
        | .error => .ok c
    else if ProviderResult.status result = .ok then .ok (c.close scope)
    else if isCircuitFailure result = false then .ok c
    else
      -- the deque drops its entries from before the window off the front
      let failures := (c.failures.getD scope [] ++ [t₂]).dropWhile (· < t₂ - cfg.failureWindowS)
      let c := { c with failures := c.failures.set scope failures }
      if cfg.failureThreshold ≤ failures.length then .ok (c.openFor scope t₂ cfg.openDurationS)
      else .ok c

end CircuitBreaker

/-! ### One scope -/

/-- The breaker's record of one scope. -/
@[ext] structure ScopeState where
  failures : List ℚ
  openUntil : Option ℚ
  rateLimitUntil : Option ℚ
  inflight : Nat
  state : Option CircuitState
deriving DecidableEq

namespace ScopeState

def empty : ScopeState := ⟨[], none, none, 0, none⟩

def allow (cfg : CircuitConfig) (x : ScopeState) (now : ℚ) : Bool × ScopeState :=
  match x.openUntil with
  | none => (true, { x with state := some .closed })
  | some openUntil =>
    if now < openUntil then (false, { x with state := some .open })
    else if cfg.halfOpenProbeCount ≤ x.inflight then (false, { x with state := some .halfOpen })
    else (true, { x with state := some .halfOpen, inflight := x.inflight + 1 })

section Allow

variable {cfg : CircuitConfig} {x : ScopeState} {now u : ℚ}

theorem allow_of_none (h : x.openUntil = none) :
    x.allow cfg now = (true, { x with state := some .closed }) := by
  cases x; cases h; rfl

theorem allow_of_lt (h : x.openUntil = some u) (hu : now < u) :
    x.allow cfg now = (false, { x with state := some .open }) := by
  cases x; cases h; simp [allow, hu]

theorem allow_of_full (h : x.openUntil = some u) (hu : ¬ now < u) (hi : cfg.halfOpenProbeCount ≤ x.inflight) :
    x.allow cfg now = (false, { x with state := some .halfOpen }) := by
  cases x; cases h
  simp only [allow]
  rw [if_neg hu, if_pos hi]

theorem allow_of_probe (h : x.openUntil = some u) (hu : ¬ now < u) (hi : ¬ cfg.halfOpenProbeCount ≤ x.inflight) :
    x.allow cfg now = (true, { x with state := some .halfOpen, inflight := x.inflight + 1 }) := by
  cases x; cases h
  simp only [allow]
  rw [if_neg hu, if_neg hi]

end Allow

def close (_ : ScopeState) : ScopeState := ⟨[], none, none, 0, some .closed⟩

def openFor (x : ScopeState) (now delayS : ℚ) : ScopeState :=
  { x with failures := [], openUntil := some (max (x.openUntil.getD 0) (now + delayS)), inflight := 0,
           state := some .open }

def releaseProbe (x : ScopeState) : ScopeState :=
  if x.state ≠ some .halfOpen then x else { x with inflight := x.inflight - 1 }

variable {R : Type} [ProviderResult R]

def recordResult (cfg : CircuitConfig) (x : ScopeState) (result : R) (t₁ t₂ : ℚ) : Except Exn ScopeState :=
  match rateLimited result with
  | some e =>
    match rateLimitDelay cfg e with
    | .error exc => .error exc
    | .ok delayS =>
      .ok { x.openFor t₁ delayS with rateLimitUntil := some (max (x.openUntil.getD 0) (t₁ + delayS)) }
  | none =>
    if t₁ < x.rateLimitUntil.getD 0 then .ok x
    else if x.state = some .halfOpen then
      if isCircuitFailure result then .ok (x.releaseProbe.openFor t₂ cfg.openDurationS)
      else
        match ProviderResult.status result with
        | .ok | .noRoute | .badRequest => .ok x.releaseProbe.close
        | .error => .ok x.releaseProbe
    else if ProviderResult.status result = .ok then .ok x.close
    else if isCircuitFailure result = false then .ok x
    else
      let failures := (x.failures ++ [t₂]).dropWhile (· < t₂ - cfg.failureWindowS)
      if cfg.failureThreshold ≤ failures.length then
        .ok ({ x with failures := failures }.openFor t₂ cfg.openDurationS)
      else .ok { x with failures := failures }

end ScopeState

namespace CircuitBreaker

/-- What the breaker keeps about one scope; a missing entry reads as the default the source gives it. -/
def view (c : CircuitBreaker) (scope : CircuitScope) : ScopeState :=
  ⟨c.failures.getD scope [], c.openUntil.get? scope, c.rateLimitUntil.get? scope,
    c.halfOpenInflight.getD scope 0, c.state.get? scope⟩

@[simp] theorem view_empty (scope : CircuitScope) : empty.view scope = ScopeState.empty := rfl

private theorem setState_view (c : CircuitBreaker) (scope s : CircuitScope) (state : CircuitState) :
    (c.setState scope state).view s =
      if s = scope then { c.view scope with state := some state } else c.view s := by
  unfold setState view
  split
  · rename_i h
    split
    · subst_vars; simp [h]
    · rfl
  · split
    · subst_vars; simp
    · rename_i h; simp [Dict.get?_set_of_ne _ h]

private theorem close_view (c : CircuitBreaker) (scope s : CircuitScope) :
    (c.close scope).view s = if s = scope then (c.view scope).close else c.view s := by
  unfold close
  rw [setState_view]
  split
  · subst_vars; simp [view, ScopeState.close, Dict.getD_pop]
  · rename_i h; simp [view, Dict.getD_pop, Dict.get?_pop, h]

private theorem openFor_view (c : CircuitBreaker) (scope s : CircuitScope) (now delayS : ℚ) :
    (c.openFor scope now delayS).view s =
      if s = scope then (c.view scope).openFor now delayS else c.view s := by
  unfold openFor
  rw [setState_view]
  split
  · subst_vars; simp [view, ScopeState.openFor, Dict.getD]
  · rename_i h; simp [view, Dict.getD_pop, Dict.get?_set, h]

/-- `releaseProbe` acts on one scope. -/
theorem releaseProbe_view (c : CircuitBreaker) (scope s : CircuitScope) :
    (c.releaseProbe scope).view s = if s = scope then (c.view scope).releaseProbe else c.view s := by
  unfold releaseProbe
  by_cases hs : c.state.get? scope = some .halfOpen
  · rw [if_neg (by simp [hs])]
    have hd : c.halfOpenInflight.getD scope 1 - 1 = c.halfOpenInflight.getD scope 0 - 1 := by
      unfold Dict.getD
      cases c.halfOpenInflight.get? scope <;> simp
    split
    · rename_i h
      subst h
      simp [view, ScopeState.releaseProbe, hs, Dict.getD_set, hd]
    · rename_i h; simp [view, Dict.getD_set, h]
  · rw [if_pos hs]
    split
    · subst_vars; simp [view, ScopeState.releaseProbe, hs]
    · rfl

/-- `allow` acts on one scope. -/
theorem allow_view (cfg : CircuitConfig) (c : CircuitBreaker) (scope s : CircuitScope) (now : ℚ) :
    (c.allow cfg scope now).1 = ((c.view scope).allow cfg now).1 ∧
      (c.allow cfg scope now).2.view s =
        if s = scope then ((c.view scope).allow cfg now).2 else c.view s := by
  cases ho : c.openUntil.get? scope with
  | none =>
    have hv : (c.view scope).openUntil = none := ho
    have e : c.allow cfg scope now = (true, c.setState scope .closed) := by
      unfold allow; rw [ho]
    have e' : (c.view scope).allow cfg now = _ := ScopeState.allow_of_none hv
    rw [e, e']
    exact ⟨rfl, setState_view ..⟩
  | some openUntil =>
    have hv : (c.view scope).openUntil = some openUntil := ho
    by_cases h₁ : now < openUntil
    · have e : c.allow cfg scope now = (false, c.setState scope .open) := by
        unfold allow; rw [ho]; simp only [h₁, if_true]
      have e' : (c.view scope).allow cfg now = _ := ScopeState.allow_of_lt hv h₁
      rw [e, e']
      exact ⟨rfl, setState_view ..⟩
    · have hi : (c.setState scope .halfOpen).halfOpenInflight = c.halfOpenInflight := by
        unfold setState; split <;> rfl
      have hi' : c.halfOpenInflight.getD scope 0 = (c.view scope).inflight := rfl
      by_cases h₂ : cfg.halfOpenProbeCount ≤ (c.view scope).inflight
      · have e : c.allow cfg scope now = (false, c.setState scope .halfOpen) := by
          unfold allow; rw [ho]; simp only [h₁, if_false, hi, hi', h₂, if_true]
        have e' := ScopeState.allow_of_full hv h₁ h₂
        rw [e, e']
        exact ⟨rfl, setState_view ..⟩
      · have e : c.allow cfg scope now = (true, { c.setState scope .halfOpen with
            halfOpenInflight := c.halfOpenInflight.set scope ((c.view scope).inflight + 1) }) := by
          unfold allow; rw [ho]; simp only [h₁, if_false, hi, hi', h₂]
        have e' := ScopeState.allow_of_probe hv h₁ h₂
        rw [e, e']
        refine ⟨rfl, ?_⟩
        have hs := setState_view c scope s .halfOpen
        unfold view at hs ⊢
        split
        · rename_i h
          subst h
          rw [if_pos rfl] at hs
          simp only [ScopeState.mk.injEq] at hs ⊢
          simp [hs, Dict.getD_set]
        · rename_i h
          rw [if_neg h] at hs
          simp only [ScopeState.mk.injEq] at hs ⊢
          simp [hs, Dict.getD_set, h]

section Record

variable {R : Type} [ProviderResult R] {cfg : CircuitConfig} {c c' : CircuitBreaker} {scope s : CircuitScope}
  {result : R} {t₁ t₂ : ℚ}

private theorem setFailures_view (c : CircuitBreaker) (scope s : CircuitScope) (l : List ℚ) :
    ({ c with failures := c.failures.set scope l } : CircuitBreaker).view s =
      if s = scope then { c.view scope with failures := l } else c.view s := by
  split
  · subst_vars; simp [view, Dict.getD_set]
  · rename_i h; simp [view, Dict.getD_set, h]

private theorem rateLimit_view (c : CircuitBreaker) (scope s : CircuitScope) (now delayS : ℚ) :
    ({ c.openFor scope now delayS with
        rateLimitUntil := (c.openFor scope now delayS).rateLimitUntil.set scope
          ((c.openFor scope now delayS).openUntil.getD scope 0) } : CircuitBreaker).view s =
      if s = scope then { (c.view scope).openFor now delayS with
        rateLimitUntil := some (max ((c.view scope).openUntil.getD 0) (now + delayS)) } else c.view s := by
  have h := openFor_view c scope s now delayS
  have hu := congrArg ScopeState.openUntil (openFor_view c scope scope now delayS)
  rw [if_pos rfl] at hu
  simp only [view] at hu
  split
  · subst_vars
    rw [if_pos rfl] at h
    simp only [view, ScopeState.openFor, ScopeState.mk.injEq] at h hu ⊢
    refine ⟨h.1, h.2.1, ?_, h.2.2.2⟩
    rw [Dict.get?_set_self, Dict.getD, hu, Option.getD_some]
  · rename_i hs
    rw [if_neg hs] at h
    simp only [view, ScopeState.mk.injEq] at h ⊢
    simp [h, Dict.get?_set, hs]

/-- The scope machine and the breaker raise alike, or the breaker's new view of `scope` is the scope machine's new
state and its other views are the old ones. -/
private inductive Simulates (c : CircuitBreaker) (scope : CircuitScope) :
    Except Exn ScopeState → Except Exn CircuitBreaker → Prop
  | raise (exc : Exn) : Simulates c scope (.error exc) (.error exc)
  | step (c' : CircuitBreaker) (x : ScopeState) (h : c'.view scope = x)
      (frame : ∀ s, s ≠ scope → c'.view s = c.view s) : Simulates c scope (.ok x) (.ok c')

private theorem Simulates.close (c : CircuitBreaker) (scope : CircuitScope) :
    Simulates c scope (.ok (c.view scope).close) (.ok (c.close scope)) :=
  .step _ _ (by rw [close_view, if_pos rfl]) fun s hs => by rw [close_view, if_neg hs]

/-- `recordResult` acts on one scope, and raises exactly when the scope machine does. -/
private theorem recordResult_view (cfg : CircuitConfig) (c : CircuitBreaker) (scope : CircuitScope) (result : R)
    (t₁ t₂ : ℚ) :
    Simulates c scope ((c.view scope).recordResult cfg result t₁ t₂) (c.recordResult cfg scope result t₁ t₂) := by
  have hl : (c.view scope).rateLimitUntil.getD 0 = c.rateLimitUntil.getD scope 0 := rfl
  have hst : (c.view scope).state = c.state.get? scope := rfl
  have hf : (c.view scope).failures = c.failures.getD scope [] := rfl
  have hr : (c.releaseProbe scope).view scope = (c.view scope).releaseProbe := by
    rw [releaseProbe_view, if_pos rfl]
  have hr' : ∀ s, s ≠ scope → (c.releaseProbe scope).view s = c.view s := fun s hs => by
    rw [releaseProbe_view, if_neg hs]
  unfold recordResult ScopeState.recordResult
  cases rateLimited result with
  | some e =>
    dsimp only
    cases rateLimitDelay cfg e with
    | error exc => exact .raise exc
    | ok delayS =>
      refine .step _ _ ?_ fun s hs => ?_
      · rw [rateLimit_view, if_pos rfl]
      · rw [rateLimit_view, if_neg hs]
  | none =>
    simp only [hl, hst, hf]
    by_cases h₁ : t₁ < c.rateLimitUntil.getD scope 0
    · simp only [h₁, if_true]
      exact .step c _ rfl fun _ _ => rfl
    · by_cases h₂ : c.state.get? scope = some .halfOpen
      · simp only [h₁, h₂, if_false, if_true]
        by_cases h₃ : isCircuitFailure result = true
        · simp only [h₃, if_true]
          refine .step _ _ ?_ fun s hs => ?_
          · rw [openFor_view, if_pos rfl, hr]
          · rw [openFor_view, if_neg hs, hr' s hs]
        · simp only [h₃, Bool.false_eq_true, if_false]
          have hclose : Simulates c scope (.ok (c.view scope).releaseProbe.close)
              (.ok ((c.releaseProbe scope).close scope)) := by
            refine .step _ _ ?_ fun s hs => ?_
            · rw [close_view, if_pos rfl, hr]
            · rw [close_view, if_neg hs, hr' s hs]
          cases ProviderResult.status result with
          | error => exact .step _ _ hr hr'
          | ok => exact hclose
          | noRoute => exact hclose
          | badRequest => exact hclose
      · simp only [h₁, h₂, if_false]
        by_cases h₃ : ProviderResult.status result = .ok
        · simp only [h₃, if_true]
          exact .close c scope
        · by_cases h₄ : isCircuitFailure result = false
          · simp only [h₃, h₄, if_false, if_true]
            exact .step c _ rfl fun _ _ => rfl
          · have h₄' : isCircuitFailure result = true := by simpa using h₄
            simp only [h₃, h₄', Bool.true_eq_false, if_false]
            split
            · refine .step _ _ ?_ fun s hs => ?_
              · rw [openFor_view, if_pos rfl, setFailures_view, if_pos rfl]
                rfl
              · rw [openFor_view, if_neg hs, setFailures_view, if_neg hs]
            · refine .step _ _ ?_ fun s hs => ?_
              · rw [setFailures_view, if_pos rfl]
                rfl
              · rw [setFailures_view, if_neg hs]

theorem recordResult_ok (h : c.recordResult cfg scope result t₁ t₂ = .ok c') :
    (c.view scope).recordResult cfg result t₁ t₂ = .ok (c'.view scope) := by
  have hsim := recordResult_view cfg c scope result t₁ t₂
  rw [h] at hsim
  generalize (c.view scope).recordResult cfg result t₁ t₂ = r at hsim
  cases hsim with
  | step _ x hx _ => rw [hx]

theorem recordResult_frame (h : c.recordResult cfg scope result t₁ t₂ = .ok c') (hs : s ≠ scope) :
    c'.view s = c.view s := by
  have hsim := recordResult_view cfg c scope result t₁ t₂
  rw [h] at hsim
  generalize (c.view scope).recordResult cfg result t₁ t₂ = r at hsim
  cases hsim with
  | step _ _ _ frame => exact frame s hs

/-- Only the division of a rate limit's delay can raise. -/
theorem recordResult_error {exc : Exn} :
    c.recordResult cfg scope result t₁ t₂ = .error exc ↔
      ∃ e ∈ rateLimited result, rateLimitDelay cfg e = .error exc := by
  unfold recordResult
  cases rateLimited result with
  | some e => cases h : rateLimitDelay cfg e <;> simp [h]
  | none =>
    simp only [Option.not_mem_none, false_and, exists_false, iff_false]
    repeat' split
    all_goals simp

end Record

end CircuitBreaker

end TokenPriceAgg

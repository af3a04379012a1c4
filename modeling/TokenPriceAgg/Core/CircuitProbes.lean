import TokenPriceAgg.Core.CircuitRuns

/-!
# Requests under the circuit breaker

`Protocol` adds the runner's discipline to the histories: a request that `allow` admits is outstanding until one
`record` or one `release` ends it, and it is remembered with the half-open phase it was admitted in.  A `record`
that raises ends nothing, since the runner then releases the request on its way out.

The slot counter of the breaker never exceeds the outstanding requests (`Protocol.Inv`), so a circuit without
requests always admits one once its wait is over.  It is the number of probes of the current phase (`Protocol.Exact`)
only as long as no request of another phase gives a slot back.
-/

namespace TokenPriceAgg

open PyLib

/-- The breaker with its clock, and for every scope the half-open phases it has begun and its outstanding requests,
each by the phase it was admitted in. -/
structure Protocol where
  base : Clocked
  phases : CircuitScope → Nat
  requests : CircuitScope → List (Option Nat)

inductive Move (R : Type)
  | allow (scope : CircuitScope) (now : ℚ)
  | record (scope : CircuitScope) (phase : Option Nat) (result : R) (t₁ t₂ : ℚ)
  | release (scope : CircuitScope) (phase : Option Nat)

namespace Protocol

variable {R : Type} [ProviderResult R]

def start (now : ℚ) (h : 0 ≤ now) : Protocol := ⟨.start now h, fun _ => 0, fun _ => []⟩

def view (s : Protocol) (scope : CircuitScope) : ScopeState := s.base.view scope

/-- The outstanding requests of the current half-open phase. -/
def live (s : Protocol) (scope : CircuitScope) : Nat := (s.requests scope).count (some (s.phases scope))

/-- The phases of a scope after a step of the breaker: one more when the label became `halfOpen`. -/
def phasesAfter (s : Protocol) (base : Clocked) (scope : CircuitScope) : Nat :=
  if (base.view scope).state = some .halfOpen ∧ (s.view scope).state ≠ some .halfOpen then s.phases scope + 1
  else s.phases scope

/-- The phase a request is admitted in. -/
def currentPhase (s : Protocol) (base : Clocked) (scope : CircuitScope) : Option Nat :=
  if (base.view scope).state = some .halfOpen then some (s.phasesAfter base scope) else none

def allowed (s : Protocol) (scope : CircuitScope) (answer : Bool) (base : Clocked) : Protocol where
  base := base
  phases := Function.update s.phases scope (s.phasesAfter base scope)
  requests := if answer then
      Function.update s.requests scope (s.currentPhase base scope :: s.requests scope)
    else s.requests

def ended (s : Protocol) (scope : CircuitScope) (phase : Option Nat) (base : Clocked) : Protocol :=
  { s with base, requests := Function.update s.requests scope ((s.requests scope).erase phase) }

def step (cfg : CircuitConfig) (s : Protocol) : Move R → Option Protocol
  | .allow scope now =>
    (s.base.step cfg (.allow scope now : Call R)).map (s.allowed scope (s.base.circuit.allow cfg scope now).1)
  | .record scope phase result t₁ t₂ =>
    if phase ∈ s.requests scope then
      (s.base.step cfg (.record scope result t₁ t₂)).map fun base =>
        match s.base.circuit.recordResult cfg scope result t₁ t₂ with
        | .ok _ => s.ended scope phase base
        | .error _ => { s with base }
    else none
  | .release scope phase =>
    if phase ∈ s.requests scope then
      (s.base.step cfg (.release scope : Call R)).map (s.ended scope phase)
    else none

variable {cfg : CircuitConfig} {s s' : Protocol} {move : Move R}

/-- A move seen from one scope. -/
inductive Effect (cfg : CircuitConfig) (scope : CircuitScope) (s s' : Protocol) : Move R → Prop
  | frame {move : Move R} (hv : s'.view scope = s.view scope) (hp : s'.phases scope = s.phases scope)
    (hr : s'.requests scope = s.requests scope) : Effect cfg scope s s' move
  | allow (answer : Bool) (hc : s.base.clock ≤ s'.base.clock)
    (h : AllowStep cfg (s.view scope) s'.base.clock answer (s'.view scope))
    (hp : s'.phases scope = s.phasesAfter s'.base scope)
    (hr : s'.requests scope =
      if answer then s.currentPhase s'.base scope :: s.requests scope else s.requests scope) :
    Effect cfg scope s s' (.allow scope s'.base.clock)
  | record (phase : Option Nat) (result : R) (t₁ t₂ : ℚ) (hc : s.base.clock ≤ t₁) (hm : phase ∈ s.requests scope)
    (h : RecordStep cfg (s.view scope) result t₁ t₂ (s'.view scope)) (hp : s'.phases scope = s.phases scope)
    (hr : s'.requests scope = (s.requests scope).erase phase) :
    Effect cfg scope s s' (.record scope phase result t₁ t₂)
  | release (phase : Option Nat) (hm : phase ∈ s.requests scope) (h : s'.view scope = (s.view scope).releaseProbe)
    (hp : s'.phases scope = s.phases scope) (hr : s'.requests scope = (s.requests scope).erase phase) :
    Effect cfg scope s s' (.release scope phase)

private theorem step_effect (h : s.step cfg move = some s') (scope : CircuitScope) : Effect cfg scope s s' move := by
  cases move with
  | allow a now =>
    simp only [step, Option.map_eq_some_iff] at h
    obtain ⟨base, hb, rfl⟩ := h
    simp only [Clocked.step] at hb
    split at hb
    · rename_i hc
      cases hb
      have hv := s.base.circuit.allow_view cfg a scope now
      by_cases ha : scope = a
      · subst ha
        rw [if_pos rfl] at hv
        refine .allow (s.base.circuit.allow cfg scope now).1 hc ?_ (Function.update_self ..) ?_
        · have hstep : AllowStep cfg (s.view scope) now _ _ := (s.view scope).allow_cases now
          unfold view Clocked.view at hstep ⊢
          rw [← hv.1, ← hv.2] at hstep
          exact hstep
        · unfold allowed
          dsimp only
          split
          · rw [Function.update_self]
          · rfl
      · rw [if_neg ha] at hv
        refine .frame hv.2 (Function.update_of_ne ha ..) ?_
        unfold allowed
        dsimp only
        split
        · rw [Function.update_of_ne ha]
        · rfl
    · cases hb
  | record a phase result t₁ t₂ =>
    simp only [step] at h
    split at h
    · rename_i hm
      obtain ⟨base, hb, hs⟩ := Option.map_eq_some_iff.1 h
      simp only [Clocked.step] at hb
      split at hb
      · rename_i hc
        cases hr : s.base.circuit.recordResult cfg a result t₁ t₂ with
        | error exc =>
          simp only [hr, Option.some.injEq] at hb hs
          subst hb hs
          exact .frame rfl rfl rfl
        | ok c =>
          simp only [hr, Option.some.injEq] at hb hs
          subst hb hs
          by_cases ha : scope = a
          · subst ha
            refine .record phase result t₁ t₂ hc.1 hm ?_ rfl (Function.update_self ..)
            exact ScopeState.recordResult_cases (CircuitBreaker.recordResult_ok hr)
          · exact .frame (CircuitBreaker.recordResult_frame hr ha) rfl (Function.update_of_ne ha ..)
      · cases hb
    · cases h
  | release a phase =>
    simp only [step] at h
    split at h
    · rename_i hm
      obtain ⟨base, hb, rfl⟩ := Option.map_eq_some_iff.1 h
      simp only [Clocked.step, Option.some.injEq] at hb
      subst hb
      have hv := s.base.circuit.releaseProbe_view a scope
      by_cases ha : scope = a
      · subst ha
        rw [if_pos rfl] at hv
        exact .release phase hm hv rfl (Function.update_self ..)
      · rw [if_neg ha] at hv
        exact .frame hv rfl (Function.update_of_ne ha ..)
    · cases h

private theorem step_base (h : s.step cfg move = some s') : ∃ call : Call R, s.base.step cfg call = some s'.base := by
  cases move with
  | allow a now =>
    simp only [step, Option.map_eq_some_iff] at h
    obtain ⟨base, hb, rfl⟩ := h
    exact ⟨_, hb⟩
  | record a phase result t₁ t₂ =>
    simp only [step] at h
    split at h
    · obtain ⟨base, hb, hs⟩ := Option.map_eq_some_iff.1 h
      have : s'.base = base := by
        subst hs
        split <;> rfl
      exact ⟨_, this ▸ hb⟩
    · cases h
  | release a phase =>
    simp only [step] at h
    split at h
    · obtain ⟨base, hb, rfl⟩ := Option.map_eq_some_iff.1 h
      exact ⟨_, hb⟩
    · cases h

/-! ### The circuit never wedges -/

/-- The breaker is in order, and its slot counter never exceeds the outstanding requests. -/
structure Inv (cfg : CircuitConfig) (s : Protocol) : Prop where
  ok : ∀ scope, (s.view scope).Ok cfg s.base.clock
  inflight_le : ∀ scope, (s.view scope).inflight ≤ (s.requests scope).length

private theorem start_ok {now : ℚ} (h : 0 ≤ now) (scope : CircuitScope) :
    ((start now h).view scope).Ok cfg (start now h).base.clock := by
  have he : (start now h).view scope = .empty := CircuitBreaker.view_empty scope
  rw [he]
  exact ScopeState.empty_ok h

private theorem start_inv {now : ℚ} (h : 0 ≤ now) : (start now h).Inv cfg :=
  ⟨start_ok h, fun _ => Nat.zero_le _⟩

private theorem step_ok (h : s.step cfg move = some s') (ok : ∀ scope, (s.view scope).Ok cfg s.base.clock)
    (scope : CircuitScope) : (s'.view scope).Ok cfg s'.base.clock := by
  obtain ⟨call, hb⟩ := step_base h
  exact Clocked.step_ok hb ok scope

end Protocol

private theorem ScopeState.inflight_releaseProbe {x : ScopeState} {cfg : CircuitConfig} {now : ℚ} (ok : x.Ok cfg now) :
    x.releaseProbe.inflight = x.inflight - 1 := by
  by_cases hs : x.state = some .halfOpen
  · rw [releaseProbe_of_eq hs]
  · rw [releaseProbe_of_ne hs, ok.idle hs]

/-- A recorded result gives its slot back whatever it is. -/
private theorem RecordStep.inflight_le {R : Type} [ProviderResult R] {cfg : CircuitConfig} {x x' : ScopeState} {now : ℚ}
    {result : R} {t₁ t₂ : ℚ} (ok : x.Ok cfg now) (hc : now ≤ t₁) (h : RecordStep cfg x result t₁ t₂ x') :
    x'.inflight ≤ x.inflight - 1 := by
  cases h with
  | rateLimit e delayS he hd => exact Nat.zero_le _
  | cooling hn hlt =>
    have hs : x.state ≠ some .halfOpen := fun hs => ok.not_cooling hs hc hlt
    rw [ok.idle hs]
  | probeFailed hn hlt hs hf => exact Nat.zero_le _
  | probeNeutral hn hs hf he => rw [ScopeState.inflight_releaseProbe ok]
  | close hn hlt he => exact Nat.zero_le _
  | neutral hn hs hf => rw [ok.idle hs]
  | count failures hn hs hf hk =>
    dsimp only
    rw [ok.idle hs]
  | trip failures hn hlt hf hk => exact Nat.zero_le _

namespace Protocol

variable {R : Type} [ProviderResult R] {cfg : CircuitConfig} {s s' : Protocol} {move : Move R}

private theorem step_inv (inv : s.Inv cfg) (h : s.step cfg move = some s') : s'.Inv cfg := by
  refine ⟨step_ok h inv.ok, fun scope => ?_⟩
  have hle := inv.inflight_le scope
  have ok := inv.ok scope
  cases step_effect h scope with
  | frame hv hp hr => rw [hv, hr]; exact hle
  | allow answer hc hstep hp hr =>
    rw [hr]
    generalize s'.view scope = x' at hstep
    cases hstep with
    | closed ho => simp only [if_true, List.length_cons]; omega
    | refused u ho hu => simpa using hle
    | full u ho hu hi => simpa using hle
    | probe u ho hu hi => simp only [if_true, List.length_cons]; omega
  | record phase result t₁ t₂ hc hm hstep hp hr =>
    rw [hr, List.length_erase_of_mem hm]
    have := hstep.inflight_le ok hc
    omega
  | release phase hm hv hp hr =>
    rw [hr, hv, List.length_erase_of_mem hm, ScopeState.inflight_releaseProbe ok]
    omega

private theorem run_inv
    {now : ℚ} {h₀ : 0 ≤ now} {moves : List (Move R)} (h : run (step cfg) (start now h₀) moves = some s) :
    s.Inv cfg :=
  run_invariant (fun _ _ _ inv hs => step_inv inv hs) (start_inv h₀) h

end Protocol

/-- In every run, a scope without outstanding requests whose wait is over admits the next request. -/
theorem circuit_never_wedges {R : Type} [ProviderResult R] (cfg : CircuitConfig) {now₀ : ℚ} {h₀ : 0 ≤ now₀}
    {moves : List (Move R)} {s : Protocol} (hrun : run (Protocol.step cfg) (.start now₀ h₀) moves = some s)
    (scope : CircuitScope) (hnone : s.requests scope = []) (now : ℚ)
    (hwait : ∀ u, s.base.circuit.openUntil.get? scope = some u → u ≤ now) :
    (s.base.circuit.allow cfg scope now).1 = true := by
  have inv := Protocol.run_inv hrun
  have hzero : (s.view scope).inflight = 0 := by
    have h := inv.inflight_le scope
    rw [hnone] at h
    exact Nat.le_zero.1 h
  rw [(s.base.circuit.allow_view cfg scope scope now).1]
  have hstep : AllowStep cfg (s.view scope) now _ _ := (s.view scope).allow_cases now
  unfold Protocol.view Clocked.view at hstep hzero
  generalize ((s.base.circuit.view scope).allow cfg now).1 = answer,
    ((s.base.circuit.view scope).allow cfg now).2 = x' at hstep ⊢
  cases hstep with
  | closed ho => rfl
  | refused u ho hu => exact absurd hu (not_lt.2 (hwait u ho))
  | full u ho hu hi =>
    have := cfg.halfOpenProbeCount_pos
    omega
  | probe u ho hu hi => rfl

private def curvePrices : CircuitScope := ⟨"curve", 1, "price"⟩

private def throttledPrice : AnyResult :=
  .inl ⟨{ provider := "curve", status := .error, latencyMs := 0,
          error := some { type := .rateLimited, message := "Rate limited" } },
    PriceResult.valid_failure (by simp) rfl le_rfl⟩

/-- A rate limit opens the circuit for fifteen seconds, a probe is admitted and released without a result, and the
next request is admitted. -/
theorem circuit_never_wedges_released_probe :
    ∃ s, run (Protocol.step .default) (.start 0 le_rfl) [.allow curvePrices 0, .record curvePrices none throttledPrice 0 0,
        .allow curvePrices 15, .release curvePrices (some 1)] = some s ∧
      (s.base.circuit.allow .default curvePrices 15).1 = true := by
  have hrun : (run (Protocol.step .default) (.start 0 le_rfl) [.allow curvePrices 0,
      .record curvePrices none throttledPrice 0 0, .allow curvePrices 15, .release curvePrices (some 1)]).map
        (fun s => (s.requests curvePrices, s.base.circuit.openUntil.get? curvePrices)) = some ([], some 15) := by
    decide +kernel
  obtain ⟨s, hs, h⟩ := Option.map_eq_some_iff.1 hrun
  obtain ⟨hnone, hopen⟩ := Prod.mk.inj h
  refine ⟨s, hs, circuit_never_wedges .default hs curvePrices hnone 15 fun u hu => ?_⟩
  rw [hopen] at hu
  exact (Option.some.inj hu).ge

/-! ### The bound on the probes of a phase -/

namespace Protocol

variable {R : Type} [ProviderResult R] {cfg : CircuitConfig} {s s' : Protocol} {move : Move R}

/-- The request that ends was not admitted in the current half-open phase, and the counter is not zero. -/
def Foreign (s : Protocol) (scope : CircuitScope) (phase : Option Nat) : Prop :=
  phase ∈ s.requests scope ∧ (s.view scope).state = some .halfOpen ∧ phase ≠ some (s.phases scope) ∧
    0 < (s.view scope).inflight

/-- The move gives a slot of the current half-open phase back for a request of another phase: it releases it or
records a result that neither opens nor closes the circuit. -/
def Undercounts (s : Protocol) : Move R → Prop
  | .allow .. => False
  | .record scope phase result _ _ =>
    s.Foreign scope phase ∧ rateLimited result = none ∧ isCircuitFailure result = false ∧
      ProviderResult.status result = .error
  | .release scope phase => s.Foreign scope phase

/-- While a scope is probed its slot counter is the number of its live probes. -/
structure Exact (cfg : CircuitConfig) (s : Protocol) : Prop where
  ok : ∀ scope, (s.view scope).Ok cfg s.base.clock
  known : ∀ scope n, some n ∈ s.requests scope → n ≤ s.phases scope
  counted : ∀ scope, (s.view scope).state = some .halfOpen → (s.view scope).inflight = s.live scope
  bounded : ∀ scope, s.live scope ≤ cfg.halfOpenProbeCount

private theorem start_exact {now : ℚ} (h : 0 ≤ now) : (start now h).Exact cfg where
  ok := start_ok h
  known := fun _ _ hm => absurd hm (by simp [start])
  counted := fun _ _ => rfl
  bounded := fun _ => Nat.zero_le _

/-- A request admitted in the phase that begins is the first of its phase. -/
private theorem Exact.count_next (ex : s.Exact cfg) (scope : CircuitScope) :
    (s.requests scope).count (some (s.phases scope + 1)) = 0 := by
  rw [List.count_eq_zero]
  intro hm
  have := ex.known scope _ hm
  omega

private theorem count_erase {scope : CircuitScope} {phase : Option Nat} :
    ((s.requests scope).erase phase).count (some (s.phases scope)) =
      if phase = some (s.phases scope) then s.live scope - 1 else s.live scope := by
  split
  · subst_vars
    rw [List.count_erase_self]
    rfl
  · rename_i hne
    exact List.count_erase_of_ne (Ne.symm hne)

/-- Ending a request that is not foreign gives back a slot that was counted. -/
private theorem Exact.inflight_pred (ex : s.Exact cfg) {scope : CircuitScope} {phase : Option Nat}
    (hm : phase ∈ s.requests scope) (hs : (s.view scope).state = some .halfOpen) (hf : ¬ s.Foreign scope phase) :
    (s.view scope).inflight - 1 = ((s.requests scope).erase phase).count (some (s.phases scope)) := by
  have hc := ex.counted scope hs
  rw [count_erase]
  split
  · rw [hc]
  · rename_i hne
    have hzero : (s.view scope).inflight = 0 := by
      by_contra hpos
      exact hf ⟨hm, hs, hne, Nat.pos_of_ne_zero hpos⟩
    omega

private theorem count_erase_le {scope : CircuitScope} {phase : Option Nat} :
    ((s.requests scope).erase phase).count (some (s.phases scope)) ≤ s.live scope := by
  rw [count_erase]
  split <;> omega

/-- A scope after `allow`. -/
private theorem Exact.allowed (ex : s.Exact cfg) {scope : CircuitScope} {base : Clocked} {answer : Bool}
    (hc : s.base.clock ≤ base.clock)
    (h : AllowStep cfg (s.view scope) base.clock answer (base.view scope)) :
    let requests := if answer then s.currentPhase base scope :: s.requests scope else s.requests scope
    (∀ n, some n ∈ requests → n ≤ s.phasesAfter base scope) ∧
      ((base.view scope).state = some .halfOpen →
        (base.view scope).inflight = requests.count (some (s.phasesAfter base scope))) ∧
      requests.count (some (s.phasesAfter base scope)) ≤ cfg.halfOpenProbeCount := by
  have hk := ex.known scope
  have hb := ex.bounded scope
  have hcount := ex.counted scope
  have ok := (ex.ok scope).later hc
  unfold live at hb hcount
  unfold currentPhase phasesAfter
  generalize base.view scope = x' at h ⊢
  cases h with
  | closed ho =>
    refine ⟨?_, by simp, ?_⟩
    · simpa using hk
    · simpa using hb
  | refused u ho hu => exact ⟨by simpa using hk, by simp, by simpa using hb⟩
  | full u ho hu hi =>
    -- the slots are taken, so the scope was being probed before
    have hs : (s.view scope).state = some .halfOpen := by
      by_contra hs
      have h₀ := ok.idle hs
      have h₁ := cfg.halfOpenProbeCount_pos
      omega
    simp only [hs, ne_eq, not_true, and_false, if_false, Bool.false_eq_true]
    exact ⟨hk, fun _ => hcount hs, hb⟩
  | probe u ho hu hi =>
    by_cases hs : (s.view scope).state = some .halfOpen
    · simp only [hs, ne_eq, not_true, and_false, if_false, if_true, List.count_cons_self, List.mem_cons]
      refine ⟨?_, fun _ => ?_, ?_⟩
      · rintro n (hn | hn)
        · exact (Option.some.inj hn).le
        · exact hk n hn
      · rw [hcount hs]
      · have := hcount hs
        omega
    · have hi' := ok.idle hs
      have hp := cfg.halfOpenProbeCount_pos
      have hnext := ex.count_next scope
      simp only [hs, ne_eq, not_false_eq_true, and_self, if_true, List.count_cons_self, List.mem_cons, hnext]
      refine ⟨?_, fun _ => by omega, by omega⟩
      rintro n (hn | hn)
      · exact (Option.some.inj hn).le
      · exact (hk n hn).trans (Nat.le_succ _)

private theorem step_exact (ex : s.Exact cfg) (hu : ¬ s.Undercounts move) (h : s.step cfg move = some s') :
    s'.Exact cfg := by
  have hscope : ∀ scope, (∀ n, some n ∈ s'.requests scope → n ≤ s'.phases scope) ∧
      ((s'.view scope).state = some .halfOpen → (s'.view scope).inflight = s'.live scope) ∧
      s'.live scope ≤ cfg.halfOpenProbeCount := by
    intro scope
    have hk := ex.known scope
    have hb := ex.bounded scope
    have ok := ex.ok scope
    unfold live
    cases step_effect h scope with
    | frame hv hp hr => rw [hv, hr, hp]; exact ⟨hk, ex.counted scope, hb⟩
    | allow answer hc hstep hp hr => rw [hr, hp]; exact ex.allowed hc hstep
    | record phase result t₁ t₂ hc hm hstep hp hr =>
      rw [hr, hp]
      refine ⟨fun n hn => hk n (List.mem_of_mem_erase hn), ?_, count_erase_le.trans hb⟩
      generalize s'.view scope = x' at hstep
      cases hstep with
      | rateLimit e delayS he hd => simp [ScopeState.openFor]
      | cooling hn hlt => exact fun hs => absurd hlt (ok.not_cooling hs hc)
      | probeFailed hn hlt hs hf => simp [ScopeState.openFor]
      | probeNeutral hn hs hf he =>
        intro _
        rw [ScopeState.inflight_releaseProbe ok]
        exact ex.inflight_pred hm hs fun hforeign => hu ⟨hforeign, hn, hf, he⟩
      | close hn hlt he => simp [ScopeState.close]
      | neutral hn hs hf => exact fun h => absurd h hs
      | count failures hn hs hf hk => exact fun h => absurd h hs
      | trip failures hn hlt hf hk => simp [ScopeState.openFor]
    | release phase hm hv hp hr =>
      rw [hr, hp, hv]
      refine ⟨fun n hn => hk n (List.mem_of_mem_erase hn), ?_, count_erase_le.trans hb⟩
      by_cases hs : (s.view scope).state = some .halfOpen
      · intro _
        rw [ScopeState.inflight_releaseProbe ok]
        exact ex.inflight_pred hm hs hu
      · rw [ScopeState.releaseProbe_of_ne hs]
        exact fun h => absurd h hs
  exact ⟨step_ok h ex.ok, fun scope => (hscope scope).1, fun scope => (hscope scope).2.1,
    fun scope => (hscope scope).2.2⟩

end Protocol

/-! ### A foreign request that gives a slot back lets one probe too many through -/

namespace Protocol

variable {R : Type} [ProviderResult R] {cfg : CircuitConfig} {s s' : Protocol} {move : Move R}

/-- A free slot of a scope that is being probed is given to the next request. -/
private theorem step_probe {scope : CircuitScope} (ok : (s.view scope).Ok cfg s.base.clock)
    (hs : (s.view scope).state = some .halfOpen) (hi : (s.view scope).inflight < cfg.halfOpenProbeCount) :
    ∃ s', s.step cfg (.allow scope s.base.clock : Move R) = some s' ∧ s'.base.clock = s.base.clock ∧
      s'.view scope = { s.view scope with inflight := (s.view scope).inflight + 1 } ∧
      s'.live scope = s.live scope + 1 := by
  obtain ⟨u, ho, hu⟩ := ok.probing hs
  have hv := s.base.circuit.allow_view cfg scope scope s.base.clock
  have hallow := ScopeState.allow_of_probe ho (not_lt.2 hu) (not_le.2 hi)
  unfold view Clocked.view at hallow
  rw [hallow, if_pos rfl] at hv
  let base : Clocked := ⟨s.base.clock, (s.base.circuit.allow cfg scope s.base.clock).2, s.base.nonneg⟩
  have hbase : base.view scope = { s.view scope with inflight := (s.view scope).inflight + 1 } := by
    have : (s.view scope).state = some .halfOpen := hs
    unfold view Clocked.view at this ⊢
    rw [show base.circuit = (s.base.circuit.allow cfg scope s.base.clock).2 from rfl, hv.2, ← this]
  have hph : s.phasesAfter base scope = s.phases scope := by
    unfold phasesAfter
    simp [hs]
  have hcur : s.currentPhase base scope = some (s.phases scope) := by
    unfold currentPhase
    rw [hbase, hph]
    simp [hs]
  refine ⟨s.allowed scope true base, ?_, rfl, hbase, ?_⟩
  · simp only [step, Clocked.step, le_refl, dite_true, Option.map_some, hv.1]
    rfl
  · unfold live allowed
    simp only [if_true, Function.update_self, hph, hcur, List.count_cons_self]

private theorem fill_probes {scope : CircuitScope} : ∀ {k : Nat} {s : Protocol}, (s.view scope).Ok cfg s.base.clock →
    (s.view scope).state = some .halfOpen → (s.view scope).inflight + k = cfg.halfOpenProbeCount →
    (s.view scope).inflight < s.live scope →
    ∃ s', run (step cfg) s (List.replicate k (.allow scope s.base.clock : Move R)) = some s' ∧
      cfg.halfOpenProbeCount < s'.live scope := by
  intro k
  induction k with
  | zero =>
    intro s ok hs hk hlt
    exact ⟨s, rfl, by omega⟩
  | succ k ih =>
    intro s ok hs hk hlt
    obtain ⟨s₁, h₁, hclock, hview, hlive⟩ : ∃ s₁, s.step cfg (.allow scope s.base.clock : Move R) = some s₁ ∧ _ :=
      step_probe ok hs (by omega)
    have ok₁ : (s₁.view scope).Ok cfg s₁.base.clock := by
      rw [hview, hclock]
      exact ⟨ok.probing, fun h => absurd hs h, ok.cooldown, ok.bounded, by dsimp only; omega⟩
    obtain ⟨s', hrun, hlt'⟩ := ih ok₁ (by rw [hview]; exact hs) (by rw [hview]; dsimp only; omega)
      (by rw [hview, hlive]; dsimp only; omega)
    rw [hclock] at hrun
    exact ⟨s', run_cons.2 ⟨s₁, h₁, hrun⟩, hlt'⟩

/-- The view of the scope after a foreign request gave a slot back. -/
private theorem foreign_view {scope : CircuitScope} {phase : Option Nat} (hf : s.Foreign scope phase)
    (hv : s'.view scope = (s.view scope).releaseProbe) (hp : s'.phases scope = s.phases scope)
    (hr : s'.requests scope = (s.requests scope).erase phase) :
    (s'.view scope).state = some .halfOpen ∧ (s'.view scope).inflight = (s.view scope).inflight - 1 ∧
      s'.live scope = s.live scope := by
  obtain ⟨hm, hs, hne, hpos⟩ := hf
  have hlive : s'.live scope = s.live scope := by
    unfold live
    rw [hr, hp, count_erase, if_neg hne]
    rfl
  rw [hv, ScopeState.releaseProbe_of_eq hs]
  exact ⟨hs, rfl, hlive⟩

/-- A neutral result of a scope that is being probed only gives the slot back. -/
private theorem recordResult_neutral {x : ScopeState} {result : R} {t₁ t₂ : ℚ} (hs : x.state = some .halfOpen)
    (hc : ¬ t₁ < x.rateLimitUntil.getD 0) (hn : rateLimited result = none) (hf : isCircuitFailure result = false)
    (he : ProviderResult.status result = .error) : x.recordResult cfg result t₁ t₂ = .ok x.releaseProbe := by
  unfold ScopeState.recordResult
  simp only [hn, hc, hs, hf, he, if_true, if_false, Bool.false_eq_true]

/-- What an undercounting move does: the counter of some scope falls below its live probes. -/
private theorem step_undercount (ok : ∀ scope, (s.view scope).Ok cfg s.base.clock) (hu : s.Undercounts move)
    (h : s.step cfg move = some s') : ∃ scope phase, s.Foreign scope phase ∧
      s'.view scope = (s.view scope).releaseProbe ∧ s'.phases scope = s.phases scope ∧
      s'.requests scope = (s.requests scope).erase phase := by
  cases move with
  | allow scope now => exact hu.elim
  | record scope phase result t₁ t₂ =>
    obtain ⟨hforeign, hn, hf, he⟩ := hu
    refine ⟨scope, phase, hforeign, ?_⟩
    simp only [step, hforeign.1, if_true] at h
    obtain ⟨base, hb, hs⟩ := Option.map_eq_some_iff.1 h
    simp only [Clocked.step] at hb
    split at hb
    · rename_i hc
      cases hr : s.base.circuit.recordResult cfg scope result t₁ t₂ with
      | error exc =>
        obtain ⟨e, hl, -⟩ := CircuitBreaker.recordResult_error.1 hr
        rw [hn] at hl
        cases hl
      | ok c =>
        simp only [hr, Option.some.injEq] at hb hs
        subst hb hs
        have hcool := (ok scope).not_cooling hforeign.2.1 hc.1
        have hneutral : (s.view scope).recordResult cfg result t₁ t₂ = .ok (s.view scope).releaseProbe :=
          recordResult_neutral hforeign.2.1 hcool hn hf he
        have hv := CircuitBreaker.recordResult_ok hr
        unfold view Clocked.view at hneutral ⊢
        rw [hneutral] at hv
        exact ⟨(Except.ok.inj hv).symm, rfl, Function.update_self ..⟩
    · cases hb
  | release scope phase =>
    refine ⟨scope, phase, hu, ?_⟩
    have hm : phase ∈ s.requests scope := hu.1
    simp only [step, hm, if_true, Clocked.step, Option.map_some, Option.some.injEq] at h
    subst h
    have hv := s.base.circuit.releaseProbe_view scope scope
    rw [if_pos rfl] at hv
    exact ⟨hv, rfl, Function.update_self ..⟩

end Protocol

/-- An undercounting move breaks the bound: from a state where the counter was right, `allow` alone leads to more
live probes than there are slots. -/
theorem undercount_exceeds {R : Type} [ProviderResult R] {cfg : CircuitConfig} {s s' : Protocol} {move : Move R}
    (ex : s.Exact cfg) (hu : s.Undercounts move) (h : s.step cfg move = some s') :
    ∃ (scope : CircuitScope) (k : Nat) (s'' : Protocol),
      run (Protocol.step cfg) s' (List.replicate k (.allow scope s'.base.clock : Move R)) = some s'' ∧
      cfg.halfOpenProbeCount < s''.live scope := by
  obtain ⟨scope, phase, hf, hv, hp, hr⟩ := Protocol.step_undercount ex.ok hu h
  obtain ⟨hs, hi, hl⟩ := Protocol.foreign_view hf hv hp hr
  have ok := Protocol.step_ok h ex.ok scope
  have hle := ok.inflight_le
  have hcount := ex.counted scope hf.2.1
  have hpos := hf.2.2.2
  obtain ⟨s'', hrun, hlt⟩ : ∃ s'', run (Protocol.step cfg) s' (List.replicate
      (cfg.halfOpenProbeCount - (s'.view scope).inflight) (.allow scope s'.base.clock : Move R)) = some s'' ∧ _ :=
    Protocol.fill_probes ok hs (by omega) (by omega)
  exact ⟨scope, _, s'', hrun, hlt⟩

/-- In every run in which no request of another phase gives a slot back, at most `halfOpenProbeCount` requests of
the current half-open phase are outstanding. -/
theorem half_open_probes_bounded {R : Type} [ProviderResult R] (cfg : CircuitConfig) {now₀ : ℚ} {h₀ : 0 ≤ now₀}
    {moves : List (Move R)} {s : Protocol}
    (hgood : Along (Protocol.step cfg) (fun s move => ¬ s.Undercounts move) (.start now₀ h₀) moves)
    (hrun : run (Protocol.step cfg) (.start now₀ h₀) moves = some s) (scope : CircuitScope) :
    s.live scope ≤ cfg.halfOpenProbeCount := by
  have ex : s.Exact cfg := run_invariant_along (fun _ _ _ ex hu hs => Protocol.step_exact ex hu hs)
    (Protocol.start_exact h₀) hgood hrun
  exact ex.bounded scope

/-- Two probes of a rate-limited circuit fill its two slots, and a third request is refused. -/
theorem half_open_probes_bounded_full :
    ∃ s, run (Protocol.step .default) (.start 0 le_rfl) ([.allow curvePrices 0, .record curvePrices none throttledPrice 0 0,
        .allow curvePrices 15, .allow curvePrices 15, .allow curvePrices 15] : List (Move AnyResult)) = some s ∧
      s.requests curvePrices = [some 1, some 1] ∧ s.live curvePrices ≤ 2 := by
  have hrun : (run (Protocol.step .default) (.start 0 le_rfl) ([.allow curvePrices 0,
      .record curvePrices none throttledPrice 0 0, .allow curvePrices 15, .allow curvePrices 15,
      .allow curvePrices 15] : List (Move AnyResult))).map (fun s => s.requests curvePrices) =
        some [some 1, some 1] := by decide +kernel
  obtain ⟨s, hs, hr⟩ := Option.map_eq_some_iff.1 hrun
  refine ⟨s, hs, hr, half_open_probes_bounded .default ?_ hs curvePrices⟩
  -- before the record the circuit is closed, and the other moves end no request
  refine ⟨id, fun s₁ h₁ => ⟨?_, fun s₂ _ => ⟨id, fun s₃ _ => ⟨id, fun s₄ _ => ⟨id, fun _ _ => trivial⟩⟩⟩⟩⟩
  rintro ⟨-, hl, -⟩
  exact absurd hl (by decide)

/-- Two requests are admitted while the circuit is closed.  One is rate limited and opens it; when it is half open
two probes take both slots; the other request is released and gives back a slot it never had, so a third probe is
admitted. -/
theorem half_open_probes_exceeded :
    (run (Protocol.step .default) (.start 0 le_rfl) ([.allow curvePrices 0, .allow curvePrices 0,
      .record curvePrices none throttledPrice 0 0, .allow curvePrices 15, .allow curvePrices 15,
      .release curvePrices none, .allow curvePrices 15] : List (Move AnyResult))).map
        (fun s => (s.live curvePrices, (s.view curvePrices).state)) = some (3, some .halfOpen) ∧
      CircuitConfig.default.halfOpenProbeCount = 2 := by
  decide +kernel

end TokenPriceAgg

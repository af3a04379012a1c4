import TokenPriceAgg.Core.Circuit
import TokenPriceAgg.Lib.Runs
import Mathlib.Data.List.Count
import Mathlib.Algebra.Order.Ring.Star
import Mathlib.Data.Rat.Star
import Mathlib.Logic.Function.Basic
import Mathlib.Tactic.Linarith

/-!
# Histories of the circuit breaker

`Clocked` is the breaker with the last reading of a clock that never goes back; its calls come in any order and on
any scopes.  `ScopeState.Ok` is what every history keeps of every scope.

`Protocol` adds the discipline of the runner: a request that was admitted is outstanding until one `record` or one
`release` ends it, and it remembers the half-open phase it was admitted in.
-/

namespace TokenPriceAgg

open PyLib

/-- A call of the breaker with the readings of the clock it makes. -/
inductive Call (R : Type)
  | allow (scope : CircuitScope) (now : ℚ)
  | record (scope : CircuitScope) (result : R) (t₁ t₂ : ℚ)
  | release (scope : CircuitScope)

/-- The breaker and the last reading of `time.monotonic()`. -/
structure Clocked where
  clock : ℚ
  circuit : CircuitBreaker
  nonneg : 0 ≤ clock

section Steps

variable {R : Type} [ProviderResult R]

namespace Clocked

def start (now : ℚ) (h : 0 ≤ now) : Clocked := ⟨now, .empty, h⟩

def view (s : Clocked) (scope : CircuitScope) : ScopeState := s.circuit.view scope

def step (cfg : CircuitConfig) (s : Clocked) : Call R → Option Clocked
  | .allow scope now =>
    if h : s.clock ≤ now then some ⟨now, (s.circuit.allow cfg scope now).2, s.nonneg.trans h⟩ else none
  | .record scope result t₁ t₂ =>
    if h : s.clock ≤ t₁ ∧ t₁ ≤ t₂ then
      match s.circuit.recordResult cfg scope result t₁ t₂ with
      | .ok c => some ⟨t₂, c, s.nonneg.trans (h.1.trans h.2)⟩
      -- the call raises before it changes anything
      | .error _ => some ⟨t₂, s.circuit, s.nonneg.trans (h.1.trans h.2)⟩
    else none
  | .release scope => some { s with circuit := s.circuit.releaseProbe scope }

end Clocked

/-! ### What a call does to one scope -/

/-- The ways `allow` answers. -/
inductive AllowStep (cfg : CircuitConfig) (x : ScopeState) (now : ℚ) : Bool → ScopeState → Prop
  | closed (ho : x.openUntil = none) : AllowStep cfg x now true { x with state := some .closed }
  | refused (u : ℚ) (ho : x.openUntil = some u) (hu : now < u) :
    AllowStep cfg x now false { x with state := some .open }
  | full (u : ℚ) (ho : x.openUntil = some u) (hu : u ≤ now) (hi : cfg.halfOpenProbeCount ≤ x.inflight) :
    AllowStep cfg x now false { x with state := some .halfOpen }
  | probe (u : ℚ) (ho : x.openUntil = some u) (hu : u ≤ now) (hi : x.inflight < cfg.halfOpenProbeCount) :
    AllowStep cfg x now true { x with state := some .halfOpen, inflight := x.inflight + 1 }

/-- The ways `recordResult` returns. -/
inductive RecordStep (cfg : CircuitConfig) (x : ScopeState) (result : R) (t₁ t₂ : ℚ) : ScopeState → Prop
  | rateLimit (e : ErrorInfo) (delayS : ℚ) (he : rateLimited result = some e) (hd : rateLimitDelay cfg e = .ok delayS) :
    RecordStep cfg x result t₁ t₂
      { x.openFor t₁ delayS with rateLimitUntil := some (max (x.openUntil.getD 0) (t₁ + delayS)) }
  | cooling (hn : rateLimited result = none) (hc : t₁ < x.rateLimitUntil.getD 0) : RecordStep cfg x result t₁ t₂ x
  | probeFailed (hn : rateLimited result = none) (hc : ¬ t₁ < x.rateLimitUntil.getD 0) (hs : x.state = some .halfOpen)
    (hf : isCircuitFailure result = true) :
    RecordStep cfg x result t₁ t₂ (x.releaseProbe.openFor t₂ cfg.openDurationS)
  | probeNeutral (hn : rateLimited result = none) (hs : x.state = some .halfOpen) (hf : isCircuitFailure result = false)
    (he : ProviderResult.status result = .error) : RecordStep cfg x result t₁ t₂ x.releaseProbe
  | close (hn : rateLimited result = none) (hc : ¬ t₁ < x.rateLimitUntil.getD 0)
    (he : ProviderResult.status result ≠ .error) : RecordStep cfg x result t₁ t₂ x.close
  | neutral (hn : rateLimited result = none) (hs : x.state ≠ some .halfOpen) (hf : isCircuitFailure result = false) :
    RecordStep cfg x result t₁ t₂ x
  | count (failures : List ℚ) (hn : rateLimited result = none) (hs : x.state ≠ some .halfOpen)
    (hf : isCircuitFailure result = true) (hk : failures.length < cfg.failureThreshold) :
    RecordStep cfg x result t₁ t₂ { x with failures := failures }
  | trip (failures : List ℚ) (hn : rateLimited result = none) (hc : ¬ t₁ < x.rateLimitUntil.getD 0)
    (hf : isCircuitFailure result = true) (hk : cfg.failureThreshold ≤ failures.length) :
    RecordStep cfg x result t₁ t₂ ({ x with failures := failures }.openFor t₂ cfg.openDurationS)

variable {cfg : CircuitConfig}

theorem ScopeState.allow_cases (x : ScopeState) (now : ℚ) :
    AllowStep cfg x now (x.allow cfg now).1 (x.allow cfg now).2 := by
  cases ho : x.openUntil with
  | none => rw [allow_of_none ho]; exact .closed ho
  | some u =>
    by_cases hu : now < u
    · rw [allow_of_lt ho hu]; exact .refused u ho hu
    · by_cases hi : cfg.halfOpenProbeCount ≤ x.inflight
      · rw [allow_of_full ho hu hi]; exact .full u ho (not_lt.1 hu) hi
      · rw [allow_of_probe ho hu hi]; exact .probe u ho (not_lt.1 hu) (not_le.1 hi)

@[simp] theorem ScopeState.releaseProbe_close (x : ScopeState) : x.releaseProbe.close = x.close := rfl

theorem ScopeState.recordResult_cases {x x' : ScopeState} {result : R} {t₁ t₂ : ℚ}
    (h : x.recordResult cfg result t₁ t₂ = .ok x') : RecordStep cfg x result t₁ t₂ x' := by
  unfold ScopeState.recordResult at h
  cases hr : rateLimited result with
  | some e =>
    simp only [hr] at h
    cases hd : rateLimitDelay cfg e with
    | error exc => simp [hd] at h
    | ok delayS =>
      simp only [hd, Except.ok.injEq] at h
      exact h ▸ .rateLimit e delayS hr hd
  | none =>
    simp only [hr] at h
    split at h
    · cases h; exact .cooling hr ‹_›
    rename_i hc
    split at h
    · rename_i hs
      split at h
      · cases h; exact .probeFailed hr hc hs ‹_›
      · rename_i hf
        cases hst : ProviderResult.status result with
        | error => rw [hst] at h; cases h; exact .probeNeutral hr hs (by simpa using hf) hst
        | ok => rw [hst] at h; cases h; exact .close hr hc (by simp [hst])
        | noRoute => rw [hst] at h; cases h; exact .close hr hc (by simp [hst])
        | badRequest => rw [hst] at h; cases h; exact .close hr hc (by simp [hst])
    · rename_i hs
      split at h
      · rename_i hst
        cases h
        exact .close hr hc (by simp [hst])
      split at h
      · cases h; exact .neutral hr hs ‹_›
      rename_i hf
      have hf' : isCircuitFailure result = true := by simpa using hf
      split at h
      · cases h; exact .trip _ hr hc hf' ‹_›
      · cases h; exact .count _ hr hs hf' (not_le.1 ‹_›)

/-- A call seen from one scope: it leaves the scope alone, or it is one operation of the scope machine. -/
inductive Effect (cfg : CircuitConfig) (scope : CircuitScope) (s s' : Clocked) : Call R → Prop
  | frame {call : Call R} (h : s'.view scope = s.view scope) (hc : s.clock ≤ s'.clock) : Effect cfg scope s s' call
  | allow (h : s'.view scope = ((s.view scope).allow cfg s'.clock).2) (hc : s.clock ≤ s'.clock) :
    Effect cfg scope s s' (.allow scope s'.clock)
  | record (result : R) (t₁ : ℚ) (h₁ : s.clock ≤ t₁) (h₂ : t₁ ≤ s'.clock)
    (h : RecordStep cfg (s.view scope) result t₁ s'.clock (s'.view scope)) :
    Effect cfg scope s s' (.record scope result t₁ s'.clock)
  | release (h : s'.view scope = (s.view scope).releaseProbe) (hc : s'.clock = s.clock) :
    Effect cfg scope s s' (.release scope)

theorem Clocked.step_effect {s s' : Clocked} {call : Call R} (h : s.step cfg call = some s') (scope : CircuitScope) :
    Effect cfg scope s s' call := by
  cases call with
  | allow a now =>
    simp only [Clocked.step] at h
    split at h
    · rename_i hc
      cases h
      have hv := (s.circuit.allow_view cfg a scope now).2
      by_cases ha : scope = a
      · subst ha
        rw [if_pos rfl] at hv
        exact .allow hv hc
      · rw [if_neg ha] at hv
        exact .frame hv hc
    · cases h
  | record a result t₁ t₂ =>
    simp only [Clocked.step] at h
    split at h
    · rename_i hc
      cases hr : s.circuit.recordResult cfg a result t₁ t₂ with
      | error exc =>
        simp only [hr, Option.some.injEq] at h
        subst h
        exact .frame rfl (hc.1.trans hc.2)
      | ok c =>
        simp only [hr, Option.some.injEq] at h
        subst h
        by_cases ha : scope = a
        · subst ha
          exact .record result t₁ hc.1 hc.2 (ScopeState.recordResult_cases (CircuitBreaker.recordResult_ok hr))
        · exact .frame (CircuitBreaker.recordResult_frame hr ha) (hc.1.trans hc.2)
    · cases h
  | release a =>
    simp only [Clocked.step, Option.some.injEq] at h
    subst h
    have hv := s.circuit.releaseProbe_view a scope
    by_cases ha : scope = a
    · subst ha
      rw [if_pos rfl] at hv
      exact .release hv rfl
    · rw [if_neg ha] at hv
      exact .frame hv le_rfl

theorem Clocked.step_clock {s s' : Clocked} {call : Call R} (h : s.step cfg call = some s') : s.clock ≤ s'.clock := by
  cases Clocked.step_effect h ⟨"", 0, ""⟩ with
  | frame _ hc => exact hc
  | allow _ hc => exact hc
  | record _ _ h₁ h₂ _ => exact h₁.trans h₂
  | release _ hc => exact hc.ge

/-! ### What every history keeps of a scope -/

/-- The longest a scope is kept open. -/
def CircuitConfig.maxOpenS (cfg : CircuitConfig) : ℚ := max cfg.openDurationS maxRateLimitBackoffS

theorem CircuitConfig.openDurationS_le (cfg : CircuitConfig) : (cfg.openDurationS : ℚ) ≤ cfg.maxOpenS :=
  le_max_left ..

private theorem CircuitConfig.maxOpenS_nonneg (cfg : CircuitConfig) : 0 ≤ cfg.maxOpenS :=
  (Nat.cast_nonneg _).trans cfg.openDurationS_le

private theorem rateLimitDelay_le {e : ErrorInfo} {delayS : ℚ} (h : rateLimitDelay cfg e = .ok delayS) :
    delayS ≤ cfg.maxOpenS := by
  unfold rateLimitDelay at h
  cases hd : divide (retryAfterOrOpen cfg e) 1000 with
  | error exc => simp [hd] at h
  | ok q =>
    simp only [hd, Except.ok.injEq] at h
    exact h ▸ min_le_right ..

/-- The invariant of one scope at the clock reading `now`. -/
structure ScopeState.Ok (cfg : CircuitConfig) (now : ℚ) (x : ScopeState) : Prop where
  probing : x.state = some .halfOpen → ∃ u, x.openUntil = some u ∧ u ≤ now
  idle : x.state ≠ some .halfOpen → x.inflight = 0
  cooldown : x.rateLimitUntil.getD 0 ≤ x.openUntil.getD 0
  bounded : x.openUntil.getD 0 ≤ now + cfg.maxOpenS
  inflight_le : x.inflight ≤ cfg.halfOpenProbeCount

namespace ScopeState

variable {x x' : ScopeState} {now now' : ℚ}

theorem empty_ok (h : 0 ≤ now) : ScopeState.empty.Ok cfg now where
  probing := by simp [empty]
  idle := fun _ => rfl
  cooldown := le_rfl
  bounded := add_nonneg h cfg.maxOpenS_nonneg
  inflight_le := Nat.zero_le _

theorem Ok.later (ok : x.Ok cfg now) (h : now ≤ now') : x.Ok cfg now' where
  probing := fun hs => by
    obtain ⟨u, hu, hle⟩ := ok.probing hs
    exact ⟨u, hu, hle.trans h⟩
  idle := ok.idle
  cooldown := ok.cooldown
  bounded := ok.bounded.trans (by linarith)
  inflight_le := ok.inflight_le

/-- A scope that is being probed is past its cooldown. -/
theorem Ok.not_cooling (ok : x.Ok cfg now) (hs : x.state = some .halfOpen) (h : now ≤ now') :
    ¬ now' < x.rateLimitUntil.getD 0 := by
  obtain ⟨u, hu, hle⟩ := ok.probing hs
  have hc := ok.cooldown
  rw [hu, Option.getD_some] at hc
  exact not_lt.2 (hc.trans (hle.trans h))

private theorem Ok.openFor (ok : x.Ok cfg now) {delayS : ℚ} (hd : delayS ≤ cfg.maxOpenS) :
    (x.openFor now delayS).Ok cfg now where
  probing := by simp [ScopeState.openFor]
  idle := fun _ => rfl
  cooldown := ok.cooldown.trans (le_max_left ..)
  bounded := by
    have hb := ok.bounded
    simp only [ScopeState.openFor, Option.getD_some]
    exact max_le hb (by linarith)
  inflight_le := Nat.zero_le _

theorem Ok.close (hn : 0 ≤ now) : x.close.Ok cfg now where
  probing := by simp [ScopeState.close]
  idle := fun _ => rfl
  cooldown := le_rfl
  bounded := add_nonneg hn cfg.maxOpenS_nonneg
  inflight_le := Nat.zero_le _

private theorem Ok.setFailures (ok : x.Ok cfg now) (failures : List ℚ) : ({ x with failures := failures }).Ok cfg now :=
  ⟨ok.probing, ok.idle, ok.cooldown, ok.bounded, ok.inflight_le⟩

theorem releaseProbe_of_ne (h : x.state ≠ some .halfOpen) : x.releaseProbe = x := if_pos h

theorem releaseProbe_of_eq (h : x.state = some .halfOpen) :
    x.releaseProbe = { x with inflight := x.inflight - 1 } := if_neg (not_not.2 h)

private theorem Ok.releaseProbe (ok : x.Ok cfg now) : x.releaseProbe.Ok cfg now := by
  by_cases hs : x.state = some .halfOpen
  · rw [releaseProbe_of_eq hs]
    refine ⟨ok.probing, fun h => absurd hs h, ok.cooldown, ok.bounded, ?_⟩
    have := ok.inflight_le
    dsimp only
    omega
  · rw [releaseProbe_of_ne hs]
    exact ok

/-- A scope in order whose wait is not over has no probe out. -/
private theorem Ok.inflight_of_lt (ok : x.Ok cfg now) {u : ℚ} (ho : x.openUntil = some u) (hu : now < u) :
    x.inflight = 0 := by
  refine ok.idle fun hs => ?_
  obtain ⟨u', hu', hle⟩ := ok.probing hs
  rw [ho] at hu'
  cases hu'
  exact absurd hu (not_lt.2 hle)

private theorem Ok.inflight_of_none (ok : x.Ok cfg now) (ho : x.openUntil = none) : x.inflight = 0 := by
  refine ok.idle fun hs => ?_
  obtain ⟨u, hu, -⟩ := ok.probing hs
  rw [ho] at hu
  cases hu

theorem Ok.allowed (ok : x.Ok cfg now) {b : Bool} (h : AllowStep cfg x now b x') : x'.Ok cfg now := by
  cases h with
  | closed ho => exact ⟨by simp, fun _ => ok.inflight_of_none ho, ok.cooldown, ok.bounded, ok.inflight_le⟩
  | refused u ho hu => exact ⟨by simp, fun _ => ok.inflight_of_lt ho hu, ok.cooldown, ok.bounded, ok.inflight_le⟩
  | full u ho hu hi => exact ⟨fun _ => ⟨u, ho, hu⟩, fun h => absurd rfl h, ok.cooldown, ok.bounded, ok.inflight_le⟩
  | probe u ho hu hi => exact ⟨fun _ => ⟨u, ho, hu⟩, fun h => absurd rfl h, ok.cooldown, ok.bounded, hi⟩

private theorem Ok.record (ok : x.Ok cfg now) (hn : 0 ≤ now) {result : R} {t₁ t₂ : ℚ} (h₁ : now ≤ t₁) (h₂ : t₁ ≤ t₂)
    (h : RecordStep cfg x result t₁ t₂ x') : x'.Ok cfg t₂ := by
  have ok₁ := ok.later h₁
  have ok₂ := ok₁.later h₂
  have hn₂ := hn.trans (h₁.trans h₂)
  cases h with
  | rateLimit e delayS he hd =>
    have ok' := ok₁.openFor (rateLimitDelay_le hd)
    refine Ok.later ?_ h₂
    exact ⟨ok'.probing, ok'.idle, le_rfl, ok'.bounded, ok'.inflight_le⟩
  | cooling hn hc => exact ok₂
  | probeFailed hn hc hs hf => exact ok₂.releaseProbe.openFor cfg.openDurationS_le
  | probeNeutral hn hs hf he => exact ok₂.releaseProbe
  | close hn hc he => exact Ok.close hn₂
  | neutral hn hs hf => exact ok₂
  | count failures hn hs hf hk => exact ok₂.setFailures failures
  | trip failures hn hc hf hk => exact (ok₂.setFailures failures).openFor cfg.openDurationS_le

end ScopeState

/-- One call keeps every scope in order. -/
theorem Clocked.step_ok {s s' : Clocked} {call : Call R} (h : s.step cfg call = some s')
    (ok : ∀ scope, (s.view scope).Ok cfg s.clock) (scope : CircuitScope) : (s'.view scope).Ok cfg s'.clock := by
  cases Clocked.step_effect h scope with
  | frame hv hc => exact hv ▸ (ok scope).later hc
  | allow hv hc => exact hv ▸ ((ok scope).later hc).allowed (ScopeState.allow_cases ..)
  | record result t₁ h₁ h₂ hv => exact (ok scope).record s.nonneg h₁ h₂ hv
  | release hv hc => exact hc ▸ hv ▸ (ok scope).releaseProbe

/-- Every history keeps every scope in order. -/
private theorem Clocked.run_ok {now : ℚ} {h₀ : 0 ≤ now} {calls : List (Call R)} {s : Clocked}
    (h : run (Clocked.step cfg) (.start now h₀) calls = some s) (scope : CircuitScope) :
    (s.view scope).Ok cfg s.clock := by
  have hstart : ∀ scope, ((start now h₀).view scope).Ok cfg (start now h₀).clock := fun scope => by
    rw [view, start, CircuitBreaker.view_empty]
    exact ScopeState.empty_ok h₀
  exact run_invariant (fun s call s' ok hs => Clocked.step_ok hs ok) hstart h scope

/-! ### The cooldown of a rate limit -/

/-- Whatever is recorded, the scope is refused before the time `u`. -/
def ScopeState.CoolingUntil (x : ScopeState) (u : ℚ) : Prop := u ≤ x.rateLimitUntil.getD 0

theorem ScopeState.CoolingUntil.allow {x : ScopeState} {u now : ℚ} (hc : x.CoolingUntil u) :
    (x.allow cfg now).2.CoolingUntil u := by
  have h : AllowStep cfg x now _ _ := x.allow_cases now
  generalize (x.allow cfg now).1 = b, (x.allow cfg now).2 = x' at h
  cases h <;> exact hc

private theorem ScopeState.CoolingUntil.releaseProbe {x : ScopeState} {u : ℚ} (hc : x.CoolingUntil u) :
    x.releaseProbe.CoolingUntil u := by
  by_cases hs : x.state = some .halfOpen
  · rw [releaseProbe_of_eq hs]; exact hc
  · rw [releaseProbe_of_ne hs]; exact hc

/-- Before `u` a recorded result cannot shorten the cooldown: the paths that would close or reopen the scope are
behind the check of the cooldown, and another rate limit only extends it. -/
private theorem ScopeState.CoolingUntil.record
    {x x' : ScopeState} {u now : ℚ} (hc : x.CoolingUntil u) (ok : x.Ok cfg now)
    {result : R} {t₁ t₂ : ℚ} (hu : t₁ < u) (h : RecordStep cfg x result t₁ t₂ x') : x'.CoolingUntil u := by
  have hlt : t₁ < x.rateLimitUntil.getD 0 := hu.trans_le hc
  cases h with
  | rateLimit e delayS he hd => exact hc.trans (ok.cooldown.trans (le_max_left ..))
  | cooling hn h => exact hc
  | probeFailed hn h hs hf => exact absurd hlt h
  | probeNeutral hn hs hf he => exact hc.releaseProbe
  | close hn h he => exact absurd hlt h
  | neutral hn hs hf => exact hc
  | count failures hn hs hf hk => exact hc
  | trip failures hn h hf hk => exact absurd hlt h

theorem ScopeState.CoolingUntil.refused {x : ScopeState} {u now clock : ℚ} (hc : x.CoolingUntil u)
    (ok : x.Ok cfg clock) (hn : 0 ≤ now) (hu : now < u) : (x.allow cfg now).1 = false := by
  have hlt : now < x.openUntil.getD 0 := hu.trans_le (hc.trans ok.cooldown)
  cases ho : x.openUntil with
  | none => rw [ho] at hlt; exact absurd hlt (not_lt.2 hn)
  | some v => rw [ho] at hlt; rw [allow_of_lt ho hlt]

private theorem Clocked.step_cooling {s s' : Clocked} {call : Call R} {scope : CircuitScope} {u : ℚ}
    (h : s.step cfg call = some s') (ok : (s.view scope).Ok cfg s.clock)
    (hc : u ≤ s.clock ∨ (s.view scope).CoolingUntil u) : u ≤ s'.clock ∨ (s'.view scope).CoolingUntil u := by
  rcases hc with hc | hc
  · exact .inl (hc.trans (Clocked.step_clock h))
  · by_cases hu : u ≤ s'.clock
    · exact .inl hu
    · refine .inr ?_
      cases Clocked.step_effect h scope with
      | frame hv _ => exact hv ▸ hc
      | allow hv _ => exact hv ▸ hc.allow
      | record result t₁ h₁ h₂ hv => exact hc.record ok (h₂.trans_lt (not_le.1 hu)) hv
      | release hv _ => exact hv ▸ hc.releaseProbe

/-- A scope that cools until `u` is refused at every time before `u`, after any further calls. -/
private theorem Clocked.refused_until {s s' : Clocked} {calls : List (Call R)} {scope : CircuitScope} {u now : ℚ}
    (ok : ∀ scope, (s.view scope).Ok cfg s.clock) (hc : (s.view scope).CoolingUntil u)
    (h : run (Clocked.step cfg) s calls = some s') (hn : s'.clock ≤ now) (hu : now < u) :
    (s'.circuit.allow cfg scope now).1 = false := by
  let I (s : Clocked) := (∀ scope, (s.view scope).Ok cfg s.clock) ∧ (u ≤ s.clock ∨ (s.view scope).CoolingUntil u)
  have hI : I s' := by
    refine run_invariant (I := I) (fun s call s' hI hs => ?_) ⟨ok, .inr hc⟩ h
    exact ⟨Clocked.step_ok hs hI.1, Clocked.step_cooling hs (hI.1 scope) hI.2⟩
  obtain ⟨ok', hc' | hc'⟩ := hI
  · exact absurd (hc'.trans hn) (not_le.2 hu)
  · rw [(s'.circuit.allow_view cfg scope scope now).1]
    exact hc'.refused (ok' scope) (s'.nonneg.trans hn) hu

end Steps

/-- The delay of a rate limit as it is documented: the given one when it is positive, the open duration otherwise,
and at most five minutes or the open duration. -/
def documentedDelay (cfg : CircuitConfig) (e : ErrorInfo) : ℚ :=
  min (match e.retryAfterMs with
    | some n => if 0 < n then n / 1000 else cfg.openDurationS
    | none => cfg.openDurationS) cfg.maxOpenS

/-- The delay is not given, or it is a non-negative number in float range; any other delay does no harm when the
scope is closed off until `deadline` anyway. -/
def HonoursRetryAfter (e : ErrorInfo) (x : ScopeState) (deadline : ℚ) : Prop :=
  ∀ n, e.retryAfterMs = some n →
    (FitsFloat n 1000 ∧ (0 ≤ n ∨ deadline ≤ x.openUntil.getD 0)) ∨
      (¬ FitsFloat n 1000 ∧ deadline ≤ x.rateLimitUntil.getD 0)

section RateLimit

variable {cfg : CircuitConfig}

private theorem honoursRetryAfter_of_fits
    {e : ErrorInfo} {n : Int} {x : ScopeState} {u : ℚ} (he : e.retryAfterMs = some n)
    (hf : FitsFloat n 1000) (hn : 0 ≤ n) : HonoursRetryAfter e x u := by
  intro m hm
  rw [he] at hm
  cases hm
  exact .inl ⟨hf, .inl hn⟩

private theorem documentedDelay_pos (cfg : CircuitConfig) (e : ErrorInfo) : 0 < documentedDelay cfg e := by
  have ho : (0 : ℚ) < cfg.openDurationS := Nat.cast_pos.2 cfg.openDurationS_pos
  refine lt_min ?_ (ho.trans_le cfg.openDurationS_le)
  cases e.retryAfterMs with
  | none => exact ho
  | some n =>
    dsimp only
    split
    · have : (0 : ℚ) < n := Int.cast_pos.2 ‹_›
      linarith
    · exact ho

theorem rateLimitDelay_of_open {e : ErrorInfo} (h : retryAfterOrOpen cfg e = cfg.openDurationS * 1000) :
    rateLimitDelay cfg e = .ok (min cfg.openDurationS cfg.maxOpenS) := by
  have hd : divide (retryAfterOrOpen cfg e) 1000 = .ok (cfg.openDurationS : ℚ) := by
    rw [h, divide_thousand_of_fits cfg.openDurationS_fits]
    simp
  unfold rateLimitDelay
  simp only [hd]
  rfl

private theorem retryAfterOrOpen_of_ne {e : ErrorInfo} {n : Int} (he : e.retryAfterMs = some n) (hn : n ≠ 0) :
    retryAfterOrOpen cfg e = n := by
  simp only [retryAfterOrOpen, he, hn, if_false]

theorem rateLimitDelay_of_fits {e : ErrorInfo} {n : Int} (he : e.retryAfterMs = some n) (hn : n ≠ 0)
    (hf : FitsFloat n 1000) : rateLimitDelay cfg e = .ok (min (n / 1000) cfg.maxOpenS) := by
  have hd : divide (retryAfterOrOpen cfg e) 1000 = .ok ((n : ℚ) / 1000) := by
    rw [retryAfterOrOpen_of_ne he hn, divide_thousand_of_fits hf]
  unfold rateLimitDelay
  simp only [hd]
  rfl

theorem rateLimitDelay_of_not_fits {e : ErrorInfo} {n : Int} (he : e.retryAfterMs = some n) (hf : ¬ FitsFloat n 1000) :
    rateLimitDelay cfg e = .error .overflowError :=
  rateLimitDelay_error.2 ⟨rfl, n, he, hf⟩

/-! ### Recording a rate limit -/

variable {R : Type} [ProviderResult R] {x : ScopeState} {result : R} {e : ErrorInfo} {t : ℚ}

theorem ScopeState.recordResult_rateLimit {delayS : ℚ} (he : rateLimited result = some e)
    (hd : rateLimitDelay cfg e = .ok delayS) (t₂ : ℚ) :
    x.recordResult cfg result t t₂ =
      .ok { x.openFor t delayS with rateLimitUntil := some (max (x.openUntil.getD 0) (t + delayS)) } := by
  unfold recordResult
  simp only [he, hd]

/-- A step that records a rate limit, at the scope machine: its new state, or the old one when the call raises. -/
private theorem Clocked.step_rateLimit {s s' : Clocked} {scope : CircuitScope} (he : rateLimited result = some e)
    (h : s.step cfg (.record scope result t t) = some s') :
    s'.clock = t ∧ s.clock ≤ t ∧
      ((∃ delayS, rateLimitDelay cfg e = .ok delayS ∧
        (s'.view scope).rateLimitUntil = some (max ((s.view scope).openUntil.getD 0) (t + delayS))) ∨
      (∃ exc, rateLimitDelay cfg e = .error exc ∧ s'.view scope = s.view scope)) := by
  simp only [Clocked.step] at h
  split at h
  · rename_i hc
    cases hd : rateLimitDelay cfg e with
    | error exc =>
      have hr : s.circuit.recordResult cfg scope result t t = .error exc :=
        CircuitBreaker.recordResult_error.2 ⟨e, he, hd⟩
      simp only [hr, Option.some.injEq] at h
      subst h
      exact ⟨rfl, hc.1, .inr ⟨exc, rfl, rfl⟩⟩
    | ok delayS =>
      cases hr : s.circuit.recordResult cfg scope result t t with
      | error exc =>
        obtain ⟨e', he', hd'⟩ := CircuitBreaker.recordResult_error.1 hr
        rw [he] at he'
        cases he'
        rw [hd] at hd'
        cases hd'
      | ok c =>
        simp only [hr, Option.some.injEq] at h
        subst h
        have hv := CircuitBreaker.recordResult_ok hr
        rw [ScopeState.recordResult_rateLimit he hd] at hv
        refine ⟨rfl, hc.1, .inl ⟨delayS, rfl, ?_⟩⟩
        exact (congrArg ScopeState.rateLimitUntil (Except.ok.inj hv)).symm
  · cases h

/-- After a rate limit recorded at `t` the scope cools for the documented delay exactly when the delay is honoured. -/
private theorem coolingUntil_iff {s s' : Clocked} {scope : CircuitScope} (he : rateLimited result = some e)
    (h : s.step cfg (.record scope result t t) = some s') :
    (s'.view scope).CoolingUntil (t + documentedDelay cfg e) ↔
      HonoursRetryAfter e (s.view scope) (t + documentedDelay cfg e) := by
  have hpos := documentedDelay_pos cfg e
  have hdelay : documentedDelay cfg e = min (match e.retryAfterMs with
    | some n => if 0 < n then n / 1000 else cfg.openDurationS
    | none => cfg.openDurationS) cfg.maxOpenS := rfl
  unfold ScopeState.CoolingUntil HonoursRetryAfter
  obtain ⟨-, -, hstep⟩ := Clocked.step_rateLimit he h
  -- the delay that is used is the documented one
  have honoured (hd : rateLimitDelay cfg e = .ok (documentedDelay cfg e)) :
      t + documentedDelay cfg e ≤ (s'.view scope).rateLimitUntil.getD 0 := by
    rcases hstep with ⟨delayS, hd', hv⟩ | ⟨exc, hd', -⟩
    · rw [hd] at hd'
      cases hd'
      rw [hv]
      exact le_max_right ..
    · rw [hd] at hd'
      cases hd'
  cases hr : e.retryAfterMs with
  | none =>
    simp only [reduceCtorEq, false_implies, implies_true, iff_true]
    apply honoured
    rw [rateLimitDelay_of_open (by simp [retryAfterOrOpen, hr]), hdelay, hr]
  | some n =>
    simp only [Option.some.injEq, forall_eq']
    by_cases hf : FitsFloat n 1000
    · simp only [hf, true_and, not_true, false_and, or_false]
      rcases lt_trichotomy n 0 with hn | rfl | hn
      · rw [rateLimitDelay_of_fits hr hn.ne hf] at hstep
        rcases hstep with ⟨delayS, hd, hv⟩ | ⟨exc, hd, -⟩
        · cases hd
          have hneg : ((n : ℚ) / 1000) < 0 := by
            have : (n : ℚ) < 0 := Int.cast_lt_zero.2 hn
            linarith
          have hmin := min_le_left ((n : ℚ) / 1000) cfg.maxOpenS
          rw [hv, Option.getD_some, le_max_iff]
          constructor
          · rintro (h | h)
            · exact .inr h
            · linarith
          · rintro (h | h)
            · omega
            · exact .inl h
        · cases hd
      · simp only [le_refl, true_or, iff_true]
        apply honoured
        rw [rateLimitDelay_of_open (by simp [retryAfterOrOpen, hr]), hdelay, hr]
        simp
      · simp only [hn.le, true_or, iff_true]
        apply honoured
        rw [rateLimitDelay_of_fits hr hn.ne' hf, hdelay, hr]
        simp only [hn, if_true]
    · simp only [hf, false_and, not_false_eq_true, true_and, false_or]
      rw [rateLimitDelay_of_not_fits hr hf] at hstep
      rcases hstep with ⟨delayS, hd, -⟩ | ⟨exc, -, hv⟩
      · cases hd
      · rw [hv]

/-- A success outside the cooldown closes the scope, whatever its state. -/
private theorem ScopeState.recordResult_success (hs : ProviderResult.status result = .ok)
    (he : ProviderResult.error result = none) (hc : ¬ t < x.rateLimitUntil.getD 0) (t₂ : ℚ) :
    x.recordResult cfg result t t₂ = .ok x.close := by
  have hr : rateLimited result = none := by simp [rateLimited, he]
  have hf : isCircuitFailure result = false := by simp [isCircuitFailure, hs, he]
  unfold recordResult
  simp only [hr, hc, if_false, hf, hs, Bool.false_eq_true, if_true, releaseProbe_close, ite_self]

private theorem Clocked.step_success {s : Clocked} {scope : CircuitScope} (hs : ProviderResult.status result = .ok)
    (he : ProviderResult.error result = none) (ht : s.clock ≤ t) (hc : (s.view scope).rateLimitUntil.getD 0 ≤ t) :
    ∃ s', s.step cfg (.record scope result t t) = some s' ∧ s'.clock = t ∧ (s'.view scope).openUntil = none := by
  have hx : (s.view scope).recordResult cfg result t t = .ok (s.view scope).close :=
    ScopeState.recordResult_success hs he (not_lt.2 hc) t
  cases hr : s.circuit.recordResult cfg scope result t t with
  | error exc =>
    obtain ⟨e, hl, -⟩ := CircuitBreaker.recordResult_error.1 hr
    simp [rateLimited, he] at hl
  | ok c =>
    refine ⟨⟨t, c, s.nonneg.trans ht⟩, ?_, rfl, ?_⟩
    · simp only [Clocked.step, hr, ht, le_refl, and_self, dite_true]
    · have hv := CircuitBreaker.recordResult_ok hr
      unfold Clocked.view at hx ⊢
      rw [hx] at hv
      rw [← Except.ok.inj hv]
      rfl

end RateLimit

private def successfulPrice : AnyResult :=
  .inl ⟨{ provider := "", status := .ok, priceUsd := some ⟨false, 1, 0⟩, latencyMs := 0 }, by decide⟩

private def throttled (retryAfterMs : Option Int) : AnyResult :=
  .inl ⟨{ provider := "curve", status := .error, latencyMs := 0,
          error := some { type := .rateLimited, message := "Rate limited", retryAfterMs } },
    PriceResult.valid_failure (by simp) rfl le_rfl⟩

private def curvePrice : CircuitScope := ⟨"curve", 1, "price"⟩

/-- In every history, a rate limit recorded at `t` keeps its scope refused for the documented delay, whatever is
called afterwards, exactly when its delay is honoured; and no scope is ever held open for longer than
`maxOpenS`. -/
theorem rate_limit_cooldown (cfg : CircuitConfig) {now₀ : ℚ} {h₀ : 0 ≤ now₀} {calls : List (Call AnyResult)}
    {s : Clocked} (hrun : run (Clocked.step cfg) (.start now₀ h₀) calls = some s) (scope : CircuitScope) :
    (∀ now, s.clock ≤ now → ∀ u, s.circuit.openUntil.get? scope = some u → u ≤ now + cfg.maxOpenS) ∧
    ∀ (result : AnyResult) (e : ErrorInfo) (t : ℚ) (s₁ : Clocked), rateLimited result = some e →
      s.step cfg (.record scope result t t) = some s₁ →
      ((∀ (calls' : List (Call AnyResult)) (s₂ : Clocked) (now : ℚ), run (Clocked.step cfg) s₁ calls' = some s₂ →
          s₂.clock ≤ now → now < t + documentedDelay cfg e → (s₂.circuit.allow cfg scope now).1 = false) ↔
        HonoursRetryAfter e (s.circuit.view scope) (t + documentedDelay cfg e)) := by
  have ok := Clocked.run_ok hrun
  constructor
  · intro now hn u hu
    have hb := (ok scope).bounded
    have hv : (s.view scope).openUntil = some u := hu
    rw [hv, Option.getD_some] at hb
    linarith
  · intro result e t s₁ he hstep
    have hiff := coolingUntil_iff he hstep
    unfold Clocked.view at hiff
    rw [← hiff]
    constructor
    · intro hall
      by_contra hc
      have hlt : (s₁.view scope).rateLimitUntil.getD 0 < t + documentedDelay cfg e := not_le.1 hc
      -- a success recorded as soon as the cooldown that was set is over reopens the scope too early
      have hclock := (Clocked.step_rateLimit he hstep).1
      let now := max t ((s₁.view scope).rateLimitUntil.getD 0)
      have hnow : now < t + documentedDelay cfg e := max_lt (lt_add_of_pos_right t (documentedDelay_pos cfg e)) hlt
      obtain ⟨s₂, h₂, hc₂, ho⟩ : ∃ s₂, s₁.step cfg (.record scope successfulPrice now now) = some s₂ ∧
          s₂.clock = now ∧ (s₂.view scope).openUntil = none :=
        Clocked.step_success rfl rfl (hclock ▸ le_max_left ..) (le_max_right ..)
      have hallow := hall [.record scope successfulPrice now now] s₂ now
        (run_cons.2 ⟨s₂, h₂, rfl⟩) hc₂.le hnow
      have hopen : (s₂.circuit.view scope).openUntil = none := ho
      rw [(s₂.circuit.allow_view cfg scope scope now).1, ScopeState.allow_of_none hopen] at hallow
      cases hallow
    · intro hc calls' s₂ now hr hn hu
      exact Clocked.refused_until (Clocked.step_ok hstep ok) hc hr hn hu

/-- A success of a request in flight does not end the cooldown of a rate limit. -/
theorem rate_limit_cooldown_in_flight :
    ∃ s₁ s₂, (Clocked.start 100 (by norm_num)).step .default (.record curvePrice (throttled (some 60000)) 100 100) =
        some s₁ ∧
      run (Clocked.step .default) s₁ [.record curvePrice successfulPrice 110 111] = some s₂ ∧
      (s₂.circuit.allow .default curvePrice 112).1 = false := by
  have hrun : (run (Clocked.step .default) (Clocked.start 100 (by norm_num))
      [.record curvePrice (throttled (some 60000)) 100 100, .record curvePrice successfulPrice 110 111]).map
        Clocked.clock = some 111 := by decide +kernel
  obtain ⟨s₂, hs₂, hclock⟩ := Option.map_eq_some_iff.1 hrun
  obtain ⟨s₁, h₁, h₂⟩ := run_cons.1 hs₂
  have hd : documentedDelay .default { type := .rateLimited, message := "Rate limited", retryAfterMs := some 60000 } =
      60 := by decide +kernel
  have hcool := ((rate_limit_cooldown .default (run_nil _) curvePrice).2 _ _ 100 s₁ rfl h₁).2
    (honoursRetryAfter_of_fits rfl (by decide +kernel) (by norm_num))
  exact ⟨s₁, s₂, h₁, h₂, hcool _ s₂ 112 h₂ (by rw [hclock]; norm_num) (by rw [hd]; norm_num)⟩

/-- A negative delay lets the scope through at once, and a delay outside the float range raises and sets no
cooldown at all; the documented delay of both is the open duration or more. -/
theorem rate_limit_cooldown_cut_short :
    (run (Clocked.step .default) (.start 100 (by norm_num)) [.record curvePrice (throttled (some (-5000))) 100 100]).map
        (fun s => (s.circuit.allow .default curvePrice 101).1) = some true ∧
      (101 : ℚ) < 100 + documentedDelay .default { type := .rateLimited, message := "", retryAfterMs := some (-5000) } ∧
      (run (Clocked.step .default) (.start 100 (by norm_num))
        [.record curvePrice (throttled (some (10 ^ 400))) 100 100]).map
        (fun s => (s.circuit.allow .default curvePrice 101).1) = some true ∧
      (101 : ℚ) <
        100 + documentedDelay .default { type := .rateLimited, message := "", retryAfterMs := some (10 ^ 400) } := by
  refine ⟨?_, ?_, ?_, ?_⟩ <;> decide +kernel

end TokenPriceAgg

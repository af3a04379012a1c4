import TokenPriceAgg.Core.AddressForms
import TokenPriceAgg.Core.Aggregator

/-!
# Vault handling fails closed

A call that asks for the underlying token does one of three things, by what the vault limiter and the resolver did.
With a usable answer the plugins run on the resolver's request alone; when the resolver says that there is no vault
they run on the request as it was given; otherwise no plugin runs, and every selected plugin gets one error.
-/

namespace TokenPriceAgg

open PyLib Eff

namespace Aggregator

section Cases

variable {V Req A R P C S : Type} [ProviderResult R]

/-- No plugin hands over a result that already carries a vault context; none of the adapters does. -/
def LeaveContextUnset (contextOf : A → Option VaultContext) (env : Schedule Req A) : Prop :=
  ∀ place req run a, env.task place req = some run → run.call = .returned a → contextOf a = none

/-- The plugins run on the request as it was given, and what they return is what the call returns. -/
structure AsGiven (settings : Settings) (agg : Aggregation Req R C S) (op : Operation Req A R)
    (env : AggregatorEnv V Req A) (selected : List ProviderPlugin) (timeoutMs : Option Int) (req : Req)
    (given : A → Option VaultContext) (returned : R → Option VaultContext) (w : AggregatorWorld V Req R)
    (outcome : Except Raised (List R × S × Bool)) (w' : AggregatorWorld V Req R) : Prop where
  dispatched : w'.dispatched = w.dispatched ++ [agg.withTimeout timeoutMs req]
  results : ∀ x, outcome = .ok x → ∃ raw, RunReturns settings agg op env selected timeoutMs w req raw ∧ x.1.Perm raw
  no_context : LeaveContextUnset given env.schedule → ∀ x, outcome = .ok x → ∀ r ∈ x.1, returned r = none

/-- No plugin runs, and every selected plugin has one error result. -/
structure Closed (selected : List ProviderPlugin) (w : AggregatorWorld V Req R)
    (outcome : Except Raised (List R × S × Bool)) (w' : AggregatorWorld V Req R) : Prop where
  dispatched : w'.dispatched = w.dispatched
  log : w'.runner.log = w.runner.log
  results : ∃ ordered summary, outcome = .ok (ordered, summary, true) ∧
    (ordered.map ProviderResult.provider).Perm (selected.map ProviderPlugin.id) ∧
    ∀ r ∈ ordered, ProviderResult.status r = .error ∧
      ∃ info ∈ ProviderResult.error r, info.type = .vaultResolutionFailed

/-- What an operation promises for a request whose resolution is not usable. -/
structure Aggregation.Closes (agg : Aggregation Req R C S) (req : Req) : Prop where
  failure : ∀ (plugin : ProviderPlugin) failure, ∃ r, agg.failure plugin req failure = .ok r ∧
    ProviderResult.provider r = plugin.id ∧ ProviderResult.status r = .error ∧
    ∃ info ∈ ProviderResult.error r, info.type = .vaultResolutionFailed
  unchanged : ∀ results, agg.applyContext req results none = .ok results
  summary : ∀ results : List R, results ≠ [] → (∀ r ∈ results, ProviderResult.status r = .error) →
    ∃ summary, agg.summary results = .ok summary ∧ 0 < agg.failedProviders summary

variable {settings : Settings} {agg : Aggregation Req R C S} {op : Operation Req A R} {env : AggregatorEnv V Req A}
  {selected : List ProviderPlugin} {timeoutMs : Option Int} {req : Req} {failure : VaultResolutionFailure}
  {w w' : AggregatorWorld V Req R} {outcome : Except Raised (List R × S × Bool)}

/-- One failure for each plugin. -/
private theorem vaultResolutionFailures_ok (hagg : Aggregation.Closes agg req) (failure : VaultResolutionFailure)
    (plugins : List ProviderPlugin) :
    ∃ results, vaultResolutionFailures agg plugins req failure = .ok results ∧
      results.map ProviderResult.provider = plugins.map ProviderPlugin.id ∧
      ∀ r ∈ results, ProviderResult.status r = .error ∧
        ∃ info ∈ ProviderResult.error r, info.type = .vaultResolutionFailed := by
  unfold vaultResolutionFailures
  suffices h : ∃ results, Eff.mapEach (fun plugin => Eff.ofExcept (agg.failure plugin req failure)) plugins () =
      (.ok results, ()) ∧ results.map ProviderResult.provider = plugins.map ProviderPlugin.id ∧
      ∀ r ∈ results, ProviderResult.status r = .error ∧
        ∃ info ∈ ProviderResult.error r, info.type = .vaultResolutionFailed by
    obtain ⟨results, hresults, h⟩ := h
    exact ⟨results, by rw [hresults], h⟩
  induction plugins with
  | nil => exact ⟨[], rfl, rfl, by simp⟩
  | cons plugin plugins ih =>
    obtain ⟨results, hresults, hproviders, herrors⟩ := ih
    obtain ⟨r, hr, hprovider, herror⟩ := hagg.failure plugin failure
    refine ⟨r :: results, ?_, by rw [List.map_cons, List.map_cons, hprovider, hproviders], ?_⟩
    · have hhead : (Eff.ofExcept (agg.failure plugin req failure) : Eff Unit Exn R) () = (.ok r, ()) := by
        rw [ofExcept_run, hr]
      unfold Eff.mapEach
      rw [bind_ok hhead, bind_ok hresults]
      rfl
    · intro x hx
      rcases List.mem_cons.1 hx with rfl | hx
      · exact herror
      · exact herrors x hx

theorem closed_of_failed (hagg : Aggregation.Closes agg req) (hselected : selected ≠ [])
    {resolve : Eff V Raised (ResolvedRequest Req C)} {request : Req} {v' : V}
    (h : resolve w.vault = (.ok ⟨request, .failed failure⟩, v'))
    (hrun : aggregate settings agg op env resolve selected req timeoutMs w = (outcome, w')) :
    Closed selected w outcome w' := by
  obtain ⟨hresolved, rfl⟩ := aggregate_failed hselected h hrun
  obtain ⟨results, hresults, hproviders, herrors⟩ := vaultResolutionFailures_ok hagg failure selected
  have hne : sortResults results ≠ [] := by
    intro hnil
    have hperm := sortResults_perm results
    rw [hnil] at hperm
    rw [hperm.symm.eq_nil] at hproviders
    exact hselected (List.map_eq_nil_iff.1 hproviders.symm)
  have herrors' : ∀ r ∈ sortResults results, ProviderResult.status r = .error ∧
      ∃ info ∈ ProviderResult.error r, info.type = .vaultResolutionFailed :=
    fun r hr => herrors r ((sortResults_perm results).mem_iff.1 hr)
  obtain ⟨summary, hsummary, hpos⟩ := hagg.summary _ hne fun r hr => (herrors' r hr).1
  have hlog : w'.runner.log = w.runner.log := by
    rw [hresolved.runner]
    rfl
  refine ⟨hresolved.dispatched, hlog, sortResults results, summary, ?_, ?_, herrors'⟩
  · have hfinish : finish agg req ⟨request, .failed failure⟩ results = .ok (sortResults results, summary, true) := by
      unfold finish
      change (agg.applyContext req results none >>= _) = _
      rw [hagg.unchanged]
      change (agg.summary (sortResults results) >>= _) = _
      rw [hsummary]
      simp [bind, Except.bind, hpos]
      rfl
    rw [hresults]
    change (finish agg req ⟨request, .failed failure⟩ results).mapError Raised.exception = _
    rw [hfinish]
    rfl
  · exact hproviders ▸ (sortResults_perm results).map _

/-- The resolver, asked under the limiter, says that there is no vault. -/
def NotVault (settings : Settings) (side : VaultSide V) (units : Int) (resolver : Req → Eff V Raised (Req × P))
    (req : Req) (v : V) : Prop :=
  ∃ message, Answers settings side units resolver req v (.error (.exception (.invalidRequest "INVALID_VAULT" message)))

/-- The resolver, asked under the limiter, gives the request `request` and the usable context `context`. -/
def Usable (settings : Settings) (side : VaultSide V) (units : Int) (resolver : Req → Eff V Raised (Req × P))
    (judge : P → Except String C) (req : Req) (v : V) (request : Req) (context : C) : Prop :=
  ∃ payload, Answers settings side units resolver req v (.ok (request, payload)) ∧ judge payload = .ok context

variable {units : Int} {resolver : Req → Eff V Raised (Req × P)} {judge : P → Except String C}

/-- What a resolution that returns has come to. -/
theorem resolveUnderlying_cases {side : VaultSide V} {v v' : V} {resolved : ResolvedRequest Req C}
    (h : resolveUnderlying settings side units resolver judge req true v = (.ok resolved, v')) :
    (∃ request context, Usable settings side units resolver judge req v request context ∧
      resolved = ⟨request, .resolved context⟩) ∨
    (NotVault settings side units resolver req v ∧ resolved = ⟨req, .notVault⟩) ∨
    ((¬ ∃ request context, Usable settings side units resolver judge req v request context) ∧
      ¬ NotVault settings side units resolver req v ∧ ∃ failure, resolved = ⟨req, .failed failure⟩) := by
  rcases hacquire : acquireVault settings side units v with ⟨e | reservation, v₁⟩
  · unfold resolveUnderlying at h
    rw [if_pos rfl, bind_error hacquire] at h
    cases h
  · cases reservation with
    | none =>
      have hnever : ∀ answer, ¬ Answers settings side units resolver req v answer := by
        rintro answer ⟨r, v₂, hr, -⟩
        rw [hacquire] at hr
        cases hr
      rw [resolveUnderlying_of_capacity hacquire] at h
      cases h
      refine .inr (.inr ⟨?_, fun ⟨_, hanswers⟩ => hnever _ hanswers, _, rfl⟩)
      rintro ⟨request, context, payload, hanswers, -⟩
      exact hnever _ hanswers
    | some reservation =>
      have hanswers : Answers settings side units resolver req v (resolver req v₁).1 := ⟨reservation, v₁, hacquire, rfl⟩
      obtain ⟨u, hresolve⟩ := resolveUnderlying_of_answers judge hanswers
      have hsettle : settle side judge req (resolver req v₁).1 = .ok resolved := by
        have heq : (settle side judge req (resolver req v₁).1, u) = (.ok resolved, v') := hresolve.symm.trans h
        exact congrArg Prod.fst heq
      rcases hanswer : (resolver req v₁).1 with e | ⟨request, payload⟩
      · rw [hanswer] at hanswers hsettle
        cases e with
        | cancelled => cases hsettle
        | exception exc =>
          change handleException side req (.exception exc) = .ok resolved at hsettle
          rcases handleException_exception (C := C) side req exc with ⟨⟨message, rfl⟩, hh⟩ | ⟨hother, failure, hh⟩
          · rw [hh] at hsettle
            cases hsettle
            exact .inr (.inl ⟨⟨message, hanswers⟩, rfl⟩)
          · rw [hh] at hsettle
            cases hsettle
            refine .inr (.inr ⟨?_, ?_, failure, rfl⟩)
            · rintro ⟨request, context, payload, hanswers', -⟩
              cases hanswers.unique hanswers'
            · rintro ⟨message, hanswers'⟩
              cases hanswers.unique hanswers'
              exact hother ⟨message, rfl⟩
      · rw [hanswer] at hanswers hsettle
        cases hjudge : judge payload with
        | ok context =>
          simp only [settle, judgeAnswer, hjudge] at hsettle
          cases hsettle
          exact .inl ⟨request, context, ⟨payload, hanswers, hjudge⟩, rfl⟩
        | error reason =>
          simp only [settle, judgeAnswer, hjudge] at hsettle
          cases hsettle
          refine .inr (.inr ⟨?_, ?_, _, rfl⟩)
          · rintro ⟨request', context, payload', hanswers', hok⟩
            cases hanswers.unique hanswers'
            rw [hjudge] at hok
            cases hok
          · rintro ⟨message, hanswers'⟩
            cases hanswers.unique hanswers'

/-- A resolution that nobody cancels returns. -/
private theorem resolveUnderlying_returns
    {side : VaultSide V} (judge : P → Except String C) (req : Req) (hunits : 0 < units)
    (hwaits : ∀ s ∈ side.waits, s.wakeUp ≠ .cancelled) (hresolver : ∀ req v, (resolver req v).1 ≠ .error .cancelled)
    (v : V) : ∃ resolved v', resolveUnderlying settings side units resolver judge req true v = (.ok resolved, v') := by
  obtain ⟨reservation, v₁, hacquire⟩ := acquireVault_returns settings hunits hwaits v
  cases reservation with
  | none => exact ⟨_, _, resolveUnderlying_of_capacity hacquire⟩
  | some reservation =>
    obtain ⟨v', hresolve⟩ := resolveUnderlying_of_answers judge ⟨reservation, v₁, hacquire, rfl⟩
    suffices h : ∃ resolved, settle side judge req (resolver req v₁).1 = .ok resolved by
      obtain ⟨resolved, hresolved⟩ := h
      exact ⟨resolved, v', by rw [hresolve, hresolved]⟩
    cases hanswer : (resolver req v₁).1 with
    | ok answer => exact ⟨_, rfl⟩
    | error e =>
      cases e with
      | cancelled => exact absurd hanswer (hresolver req v₁)
      | exception exc =>
        rcases handleException_exception (C := C) side req exc with ⟨-, hh⟩ | ⟨-, failure, hh⟩
        · exact ⟨_, hh⟩
        · exact ⟨_, hh⟩

/-- The three cases exclude each other, and there is no fourth unless the caller is cancelled. -/
private theorem fail_closed (hagg : Aggregation.Closes agg req) (hselected : selected ≠ []) (hunits : 0 < units)
    (hwaits : ∀ s ∈ env.vaultSide.waits, s.wakeUp ≠ .cancelled)
    (hresolver : ∀ req v, (resolver req v).1 ≠ .error .cancelled)
    (hrun : aggregate settings agg op env (resolveUnderlying settings env.vaultSide units resolver judge req true)
      selected req timeoutMs w = (outcome, w')) :
    (∃ request context, Usable settings env.vaultSide units resolver judge req w.vault request context ∧
      w'.dispatched = w.dispatched ++ [agg.withTimeout timeoutMs request] ∧
      ∀ x, outcome = .ok x → ∃ raw applied, RunReturns settings agg op env selected timeoutMs w request raw ∧
        agg.applyContext req raw (some context) = .ok applied ∧ x.1.Perm applied) ∨
    (NotVault settings env.vaultSide units resolver req w.vault ∧
      w'.dispatched = w.dispatched ++ [agg.withTimeout timeoutMs req] ∧
      ∀ x, outcome = .ok x → ∃ raw, RunReturns settings agg op env selected timeoutMs w req raw ∧ x.1.Perm raw) ∨
    ((¬ ∃ request context, Usable settings env.vaultSide units resolver judge req w.vault request context) ∧
      ¬ NotVault settings env.vaultSide units resolver req w.vault ∧ Closed selected w outcome w') := by
  obtain ⟨resolved, v', hresolve⟩ := resolveUnderlying_returns judge req hunits hwaits hresolver w.vault
  rcases resolveUnderlying_cases hresolve with ⟨request, context, husable, rfl⟩ | ⟨hnotVault, rfl⟩ |
    ⟨hunusable, hnotVault, failure, rfl⟩
  · obtain ⟨hdispatched, hreturns⟩ := aggregate_run hselected hresolve (by simp) hrun
    refine .inl ⟨request, context, husable, hdispatched, fun x hx => ?_⟩
    obtain ⟨raw, hraw, hfinish⟩ := hreturns x hx
    obtain ⟨applied, happlied, hperm⟩ := finish_ok hfinish
    exact ⟨raw, applied, hraw, happlied, hperm⟩
  · obtain ⟨hdispatched, hreturns⟩ := aggregate_run hselected hresolve (by simp) hrun
    refine .inr (.inl ⟨hnotVault, hdispatched, fun x hx => ?_⟩)
    obtain ⟨raw, hraw, hfinish⟩ := hreturns x hx
    obtain ⟨applied, happlied, hperm⟩ := finish_ok hfinish
    have heq : applied = raw := by
      have h := hagg.unchanged raw
      rw [show agg.applyContext req raw none = .ok applied from happlied] at h
      exact Except.ok.inj h
    exact ⟨raw, hraw, heq ▸ hperm⟩
  · exact .inr (.inr ⟨hunusable, hnotVault, closed_of_failed hagg hselected hresolve hrun⟩)

end Cases

/-! ### The two operations -/

theorem priceAggregation_closes (req : ProviderPriceRequest) : Aggregation.Closes priceAggregation req where
  failure := fun plugin failure => by
    have hvalid : PriceResult.Valid { provider := plugin.id, status := .error, token := some req.token
                                      latencyMs := failure.latencyMs, error := some failure.errorInfo } :=
      PriceResult.valid_failure (by simp) rfl (Int.natCast_nonneg _)
    exact ⟨_, PriceResult.new_of_valid hvalid, rfl, rfl, failure.errorInfo, rfl, rfl⟩
  unchanged := fun results => rfl
  summary := fun results hne herror => by
    have hfilter : results.filter (fun result => result.status = .ok) = [] := by
      refine List.filter_eq_nil_iff.2 fun r hr => ?_
      have hstatus : r.status = .error := herror r hr
      simp [hstatus]
    let summary : AggregatePriceSummary :=
      { requestedProviders := results.length, successfulProviders := 0, failedProviders := results.length
        highPrice := none, lowPrice := none, medianPrice := none, deviationBps := none }
    refine ⟨summary, ?_, List.length_pos_iff.2 hne⟩
    show buildPriceSummary results = .ok summary
    simp [buildPriceSummary, hfilter, summary]

theorem quoteAggregation_closes (eth : EthUtils) {req : ProviderQuoteRequest} (hreq : IsUint256 req.amountIn) :
    Aggregation.Closes (quoteAggregation eth) req where
  failure := fun plugin failure => by
    have hvalid : QuoteResult.Valid { provider := plugin.id, status := .error, tokenIn := some req.tokenIn
                                      tokenOut := some req.tokenOut, amountIn := some req.amountIn
                                      latencyMs := failure.latencyMs, error := some failure.errorInfo } :=
      (QuoteResult.valid_failure (by simp) rfl rfl rfl).2 ⟨Int.natCast_nonneg _, by simpa using hreq⟩
    exact ⟨_, QuoteResult.new_of_valid hvalid, rfl, rfl, failure.errorInfo, rfl, rfl⟩
  unchanged := fun results => rfl
  summary := fun results hne herror => by
    have hfilter : results.filter (fun result => result.status = .ok) = [] := by
      refine List.filter_eq_nil_iff.2 fun r hr => ?_
      have hstatus : r.status = .error := herror r hr
      simp [hstatus]
    refine ⟨_, rfl, ?_⟩
    simp only [quoteAggregation, buildQuoteSummary, hfilter]
    exact List.length_pos_iff.2 hne

private theorem usablePriceContext_ok {payload context : VaultContext} :
    usablePriceContext payload = .ok context ↔ payload = context ∧ ∃ rate, context.pricePerShare = some rate := by
  unfold usablePriceContext
  cases hrate : payload.pricePerShare with
  | none =>
    refine iff_of_false (by simp) ?_
    rintro ⟨rfl, rate, h⟩
    rw [hrate] at h
    cases h
  | some rate =>
    simp only [Option.isNone_some, Bool.false_eq_true, if_false, Except.ok.injEq]
    constructor
    · rintro rfl
      exact ⟨rfl, rate, hrate⟩
    · exact fun h => h.1

/-- A resolution of a quote that can be used: there is a context, the contexts have rates, and an output context comes
with its converter. -/
@[mk_iff] structure UsableQuote (resolution : QuoteVaultResolution) : Prop where
  context : resolution.inputVaultContext.isSome ∨ resolution.outputVaultContext.isSome
  inputRate : ∀ context ∈ resolution.inputVaultContext, context.pricePerShare.isSome
  outputRate : ∀ context ∈ resolution.outputVaultContext, context.pricePerShare.isSome
  converter : resolution.outputVaultContext.isSome → resolution.outputAssetsToShares.isSome

private theorem invalidQuoteResolutionReason_eq_none {resolution : QuoteVaultResolution} :
    invalidQuoteResolutionReason (some resolution) = none ↔ UsableQuote resolution := by
  obtain ⟨input, output, converter⟩ := resolution
  rw [usableQuote_iff]
  cases input with
  | none =>
    cases output with
    | none => simp [invalidQuoteResolutionReason]
    | some o => cases hr : o.pricePerShare <;> cases converter <;> simp [invalidQuoteResolutionReason, hr]
  | some i =>
    cases output with
    | none => cases hr : i.pricePerShare <;> simp [invalidQuoteResolutionReason, hr]
    | some o =>
      cases hi : i.pricePerShare <;> cases ho : o.pricePerShare <;> cases converter <;>
        simp [invalidQuoteResolutionReason, hi, ho]

theorem usableQuoteResolution_ok {payload : Option QuoteVaultResolution} {resolution : QuoteVaultResolution} :
    usableQuoteResolution payload = .ok resolution ↔ payload = some resolution ∧ UsableQuote resolution := by
  unfold usableQuoteResolution
  cases payload with
  | none => simp [invalidQuoteResolutionReason]
  | some r =>
    cases hr : invalidQuoteResolutionReason (some r) with
    | some reason =>
      refine iff_of_false (by simp) ?_
      rintro ⟨heq, husable⟩
      cases heq
      rw [invalidQuoteResolutionReason_eq_none.2 husable] at hr
      cases hr
    | none =>
      simp only [Except.ok.injEq, Option.some.injEq]
      constructor
      · rintro rfl
        exact ⟨rfl, invalidQuoteResolutionReason_eq_none.1 hr⟩
      · exact fun h => h.1

/-- An OK result with its price multiplied by the rate, once, and with the context; any other result as it was. -/
def Repriced (context : VaultContext) (rate : Rate) (r r' : PriceResult) : Prop :=
  if r.status = .ok then
    ∃ price priceUsd, r.priceUsd = some price ∧ price.mul rate.val = .ok priceUsd ∧
      r' = { r with priceUsd := some priceUsd, vaultContext := some context }
  else r' = r

private theorem applyPriceToResult_repriced
    {context : VaultContext} {rate : Rate} {r r' : PriceResult} (hvalid : r.Valid)
    (h : applyPriceToResult context rate.val r = .ok r') : Repriced context rate r r' := by
  unfold applyPriceToResult at h
  unfold Repriced
  by_cases hok : r.status = .ok
  · rw [if_pos hok] at h ⊢
    obtain ⟨price, hprice⟩ := Option.isSome_iff_exists.1 (hvalid.ok_price hok)
    simp only [hprice] at h
    cases hmul : price.mul rate.val with
    | error e => rw [hmul] at h; cases h
    | ok priceUsd =>
      rw [hmul] at h
      cases h
      exact ⟨price, priceUsd, hprice, hmul, rfl⟩
  · rw [if_neg hok] at h ⊢
    exact (Except.ok.inj h).symm

private theorem applyPriceContext_repriced {context : VaultContext} {rate : Rate} {raw applied : List PriceResult}
    (hrate : context.pricePerShare = some rate) (hvalid : ∀ r ∈ raw, r.Valid)
    (h : applyPriceContext raw (some context) = .ok applied) : List.Forall₂ (Repriced context rate) raw applied := by
  simp only [applyPriceContext, hrate, vaultShareToAssetMultiplier] at h
  let turn (r : PriceResult) : Eff Unit Exn PriceResult := Eff.ofExcept (applyPriceToResult context rate.val r)
  have hmap : Eff.mapEach turn raw () = (.ok applied, ()) := Prod.ext h rfl
  refine List.forall₂_iff_zip.2 ⟨(Eff.mapEach_ok hmap).length_eq, fun hz => ?_⟩
  obtain ⟨t, t', hturn⟩ := (List.forall₂_iff_zip.1 (Eff.mapEach_ok hmap)).2 hz
  exact applyPriceToResult_repriced (hvalid _ (List.of_mem_zip hz).1) (congrArg Prod.fst hturn)

/-- The plugins run on the resolver's request, and the call returns what they return with the prices of the OK results
multiplied by the rate. -/
structure PricesConverted {V : Type} (settings : Settings)
    (env : AggregatorEnv V ProviderPriceRequest AcceptedPriceResult) (selected : List ProviderPlugin)
    (timeoutMs : Option Int) (request : ProviderPriceRequest) (context : VaultContext) (rate : Rate)
    (w : AggregatorWorld V ProviderPriceRequest PriceResult)
    (outcome : Except Raised (List PriceResult × AggregatePriceSummary × Bool))
    (w' : AggregatorWorld V ProviderPriceRequest PriceResult) : Prop where
  dispatched : w'.dispatched = w.dispatched ++ [priceAggregation.withTimeout timeoutMs request]
  results : ∀ x, outcome = .ok x → ∃ raw applied,
    RunReturns settings priceAggregation priceOperation env selected timeoutMs w request raw ∧
    List.Forall₂ (Repriced context rate) raw applied ∧ x.1.Perm applied

/-- The plugins run on the resolver's request, and the call returns what they return, translated back. -/
structure QuotesConverted {V : Type} (settings : Settings) (eth : EthUtils)
    (env : AggregatorEnv V ProviderQuoteRequest AcceptedQuoteResult) (selected : List ProviderPlugin)
    (timeoutMs : Option Int) (req request : ProviderQuoteRequest) (resolution : QuoteVaultResolution)
    (w : AggregatorWorld V ProviderQuoteRequest QuoteResult)
    (outcome : Except Raised (List QuoteResult × AggregateQuoteSummary × Bool))
    (w' : AggregatorWorld V ProviderQuoteRequest QuoteResult) : Prop where
  dispatched : w'.dispatched = w.dispatched ++ [(quoteAggregation eth).withTimeout timeoutMs request]
  results : ∀ x, outcome = .ok x → ∃ raw applied,
    RunReturns settings (quoteAggregation eth) quoteOperation env selected timeoutMs w request raw ∧
    applyQuoteResolution eth req raw (some resolution) = .ok applied ∧ x.1.Perm applied

/-- Neither the wait for the vault limiter nor the resolver is cancelled. -/
structure UncancelledResolution {V Req P : Type} (side : VaultSide V) (resolver : Req → Eff V Raised (Req × P)) :
    Prop where
  waits : ∀ s ∈ side.waits, s.wakeUp ≠ .cancelled
  resolver : ∀ req v, (resolver req v).1 ≠ .error .cancelled

end Aggregator

open Aggregator

section

variable {V : Type} {settings : Settings} {timeoutMs : Option Int} {selected : List ProviderPlugin}

private theorem prices_fail_closed {env : AggregatorEnv V ProviderPriceRequest AcceptedPriceResult}
    {resolver : ProviderPriceRequest → Eff V Raised (ProviderPriceRequest × VaultContext)} {req : ProviderPriceRequest}
    {w w' : AggregatorWorld V ProviderPriceRequest PriceResult}
    {outcome : Except Raised (List PriceResult × AggregatePriceSummary × Bool)}
    (hselected : selected ≠ []) (huncancelled : UncancelledResolution env.vaultSide resolver)
    (hrun : aggregatePrices settings env resolver selected req true timeoutMs w = (outcome, w')) :
    (∃ request context rate,
      Answers settings env.vaultSide 1 resolver req w.vault (.ok (request, context)) ∧
      context.pricePerShare = some rate ∧
      PricesConverted settings env selected timeoutMs request context rate w outcome w') ∨
    (NotVault settings env.vaultSide 1 resolver req w.vault ∧
      AsGiven settings priceAggregation priceOperation env selected timeoutMs req (·.val.vaultContext)
        (·.vaultContext) w outcome w') ∨
    ((∀ request context rate, Answers settings env.vaultSide 1 resolver req w.vault (.ok (request, context)) →
        context.pricePerShare ≠ some rate) ∧
      ¬ NotVault settings env.vaultSide 1 resolver req w.vault ∧ Closed selected w outcome w') := by
  have hcases := fail_closed (priceAggregation_closes req) hselected Int.one_pos huncancelled.waits
    huncancelled.resolver hrun
  rcases hcases with ⟨request, context, ⟨payload, hanswers, hjudge⟩, hdispatched, hresults⟩ |
    ⟨hnotVault, hdispatched, hresults⟩ | ⟨hunusable, hnotVault, hclosed⟩
  · obtain ⟨rfl, rate, hrate⟩ := usablePriceContext_ok.1 hjudge
    refine .inl ⟨request, payload, rate, hanswers, hrate, hdispatched, fun x hx => ?_⟩
    obtain ⟨raw, applied, hraw, happlied, hperm⟩ := hresults x hx
    obtain ⟨r', hrunner⟩ := hraw
    have hvalid := (Runner.establishes_valid_price env.schedule _).of_returned hrunner
    exact ⟨raw, applied, ⟨r', hrunner⟩, applyPriceContext_repriced hrate hvalid happlied, hperm⟩
  · refine .inr (.inl ⟨hnotVault, hdispatched, hresults, fun hunset x hx r hr => ?_⟩)
    obtain ⟨raw, ⟨r', hrunner⟩, hperm⟩ := hresults x hx
    have hestablishes : Runner.Establishes priceOperation env.schedule (priceAggregation.withTimeout timeoutMs req)
        fun r => r.vaultContext = none :=
      Runner.establishes_price (fun _ _ _ _ _ h => by rw [priceFailure_ok h]) fun i run a => hunset i _ run a
    exact hestablishes.of_returned hrunner r (hperm.mem_iff.1 hr)
  · refine .inr (.inr ⟨fun request context rate hanswers hrate => hunusable ?_, hnotVault, hclosed⟩)
    exact ⟨request, context, context, hanswers, usablePriceContext_ok.2 ⟨rfl, rate, hrate⟩⟩

theorem quotes_fail_closed {eth : EthUtils} {env : AggregatorEnv V ProviderQuoteRequest AcceptedQuoteResult}
    {resolver : ProviderQuoteRequest → Eff V Raised (ProviderQuoteRequest × Option QuoteVaultResolution)}
    {req : ProviderQuoteRequest} {w w' : AggregatorWorld V ProviderQuoteRequest QuoteResult}
    {outcome : Except Raised (List QuoteResult × AggregateQuoteSummary × Bool)} (hselected : selected ≠ [])
    (huncancelled : UncancelledResolution env.vaultSide resolver) (hreq : IsUint256 req.amountIn)
    (hrun : aggregateQuotes settings eth env resolver selected req true timeoutMs w = (outcome, w')) :
    (∃ request resolution,
      Answers settings env.vaultSide 2 resolver req w.vault (.ok (request, some resolution)) ∧ UsableQuote resolution ∧
      QuotesConverted settings eth env selected timeoutMs req request resolution w outcome w') ∨
    (NotVault settings env.vaultSide 2 resolver req w.vault ∧
      AsGiven settings (quoteAggregation eth) quoteOperation env selected timeoutMs req (·.val.vaultContext)
        (·.vaultContext) w outcome w') ∨
    ((∀ request resolution, Answers settings env.vaultSide 2 resolver req w.vault (.ok (request, some resolution)) →
        ¬ UsableQuote resolution) ∧
      ¬ NotVault settings env.vaultSide 2 resolver req w.vault ∧ Closed selected w outcome w') := by
  have hcases := fail_closed (quoteAggregation_closes eth hreq) hselected (by decide) huncancelled.waits
    huncancelled.resolver hrun
  rcases hcases with ⟨request, resolution, ⟨payload, hanswers, hjudge⟩, hdispatched, hresults⟩ |
    ⟨hnotVault, hdispatched, hresults⟩ | ⟨hunusable, hnotVault, hclosed⟩
  · obtain ⟨rfl, husable⟩ := usableQuoteResolution_ok.1 hjudge
    exact .inl ⟨request, resolution, hanswers, husable, hdispatched, hresults⟩
  · refine .inr (.inl ⟨hnotVault, hdispatched, hresults, fun hunset x hx r hr => ?_⟩)
    obtain ⟨raw, ⟨r', hrunner⟩, hperm⟩ := hresults x hx
    have hestablishes : Runner.Establishes quoteOperation env.schedule
        ((quoteAggregation eth).withTimeout timeoutMs req) fun r => r.vaultContext = none :=
      Runner.establishes_quote (fun _ _ _ _ _ h => by rw [quoteFailure_ok h]) fun i run a => hunset i _ run a
    exact hestablishes.of_returned hrunner r (hperm.mem_iff.1 hr)
  · refine .inr (.inr ⟨fun request resolution hanswers husable => hunusable ?_, hnotVault, hclosed⟩)
    exact ⟨request, resolution, some resolution, hanswers, usableQuoteResolution_ok.2 ⟨rfl, husable⟩⟩

end

/-- A call with `use_underlying`, for prices or for quotes of a 256-bit amount, runs the plugins on the request of a
usable resolution, or on the request as given when there is no vault, or runs no plugin at all and returns an error
for each. -/
theorem vault_handling_fails_closed (settings : Settings) (eth : EthUtils) (V : Type) :
    (∀ (env : AggregatorEnv V ProviderPriceRequest AcceptedPriceResult)
      (resolver : ProviderPriceRequest → Eff V Raised (ProviderPriceRequest × VaultContext))
      (selected : List ProviderPlugin) (req : ProviderPriceRequest) (timeoutMs : Option Int)
      (w w' : AggregatorWorld V ProviderPriceRequest PriceResult)
      (outcome : Except Raised (List PriceResult × AggregatePriceSummary × Bool)),
      selected ≠ [] → UncancelledResolution env.vaultSide resolver →
      aggregatePrices settings env resolver selected req true timeoutMs w = (outcome, w') →
      (∃ request context rate,
        Answers settings env.vaultSide 1 resolver req w.vault (.ok (request, context)) ∧
        context.pricePerShare = some rate ∧
        PricesConverted settings env selected timeoutMs request context rate w outcome w') ∨
      (NotVault settings env.vaultSide 1 resolver req w.vault ∧
        AsGiven settings priceAggregation priceOperation env selected timeoutMs req (·.val.vaultContext)
          (·.vaultContext) w outcome w') ∨
      ((∀ request context rate, Answers settings env.vaultSide 1 resolver req w.vault (.ok (request, context)) →
          context.pricePerShare ≠ some rate) ∧
        ¬ NotVault settings env.vaultSide 1 resolver req w.vault ∧ Closed selected w outcome w')) ∧
    ∀ (env : AggregatorEnv V ProviderQuoteRequest AcceptedQuoteResult)
      (resolver : ProviderQuoteRequest → Eff V Raised (ProviderQuoteRequest × Option QuoteVaultResolution))
      (selected : List ProviderPlugin) (req : ProviderQuoteRequest) (timeoutMs : Option Int)
      (w w' : AggregatorWorld V ProviderQuoteRequest QuoteResult)
      (outcome : Except Raised (List QuoteResult × AggregateQuoteSummary × Bool)),
      selected ≠ [] → UncancelledResolution env.vaultSide resolver → IsUint256 req.amountIn →
      aggregateQuotes settings eth env resolver selected req true timeoutMs w = (outcome, w') →
      (∃ request resolution,
        Answers settings env.vaultSide 2 resolver req w.vault (.ok (request, some resolution)) ∧
        UsableQuote resolution ∧
        QuotesConverted settings eth env selected timeoutMs req request resolution w outcome w') ∨
      (NotVault settings env.vaultSide 2 resolver req w.vault ∧
        AsGiven settings (quoteAggregation eth) quoteOperation env selected timeoutMs req (·.val.vaultContext)
          (·.vaultContext) w outcome w') ∨
      ((∀ request resolution,
          Answers settings env.vaultSide 2 resolver req w.vault (.ok (request, some resolution)) →
          ¬ UsableQuote resolution) ∧
        ¬ NotVault settings env.vaultSide 2 resolver req w.vault ∧ Closed selected w outcome w') :=
  ⟨fun _ _ _ _ _ _ _ _ hselected huncancelled hrun => prices_fail_closed hselected huncancelled hrun,
    fun _ _ _ _ _ _ _ _ hselected huncancelled hreq hrun => quotes_fail_closed hselected huncancelled hreq hrun⟩

/-- A vault side that is the limiter alone, at rest. -/
def Example.vaultSide : VaultSide WeightedLimiter where
  limiter := ⟨id, WeightedLimiter.take, WeightedLimiter.give⟩
  clock limiter := (0, limiter)
  waits := []
  elapsedMs := 0

def Example.aggregatorEnv {Req A : Type} (task : Nat → Req → Option (PluginRun A)) :
    AggregatorEnv WeightedLimiter Req A where
  vaultSide := Example.vaultSide
  schedule := Schedule.quiet task
  runnerMeanwhile := id
  vaultMeanwhile := id

def Example.vaultLimiter : WeightedLimiter :=
  .new Settings.default.vaultGlobalUnits Settings.default.vaultGlobalUnits_pos

def Example.aggregatorWorld {Req R : Type} : AggregatorWorld WeightedLimiter Req R where
  vault := Example.vaultLimiter
  runner := .new .default
  dispatched := []

def Example.priceRequest : ProviderPriceRequest := { chainId := 1, token := { chainId := 1, address := savingsDai } }

def Example.quoteRequest (amountIn : Int) : ProviderQuoteRequest where
  chainId := 1
  tokenIn := { chainId := 1, address := savingsDai }
  tokenOut := { chainId := 1, address := usdc }
  amountIn := amountIn

/-- A resolver that raises `InvalidRequestError(type, "")`. -/
private def failing {Req P : Type} (type : String) (_ : Req) : Eff WeightedLimiter Raised (Req × P) :=
  Eff.raise (.exception (.invalidRequest type ""))

private theorem failing_uncancelled {Req P : Type} (type : String) :
    UncancelledResolution Example.vaultSide (failing type : Req → Eff WeightedLimiter Raised (Req × P)) where
  waits := by simp [Example.vaultSide]
  resolver := by simp [failing]

private theorem failing_answers {Req P : Type} {type : String} {units : Int} {req : Req} {v : WeightedLimiter}
    {answer : Except Raised (Req × P)}
    (h : Answers .default Example.vaultSide units (failing type) req v answer) :
    answer = .error (.exception (.invalidRequest type "")) := by
  obtain ⟨reservation, v₁, -, rfl⟩ := h
  rfl

/-- The limiter at rest has capacity for a quote. -/
theorem Example.acquires :
    ∃ r v, acquireVault .default Example.vaultSide 2 Example.vaultLimiter = (.ok (some r), v) := by
  have hsome : ((acquireVault .default Example.vaultSide 2 Example.vaultLimiter).1.toOption.bind id).isSome := by
    decide +kernel
  rcases h : acquireVault .default Example.vaultSide 2 Example.vaultLimiter with ⟨_ | _ | r, v⟩
  · rw [h] at hsome
    cases hsome
  · rw [h] at hsome
    cases hsome
  · exact ⟨r, v, rfl⟩

private def unconfigured :=
  aggregatePrices .default (Example.aggregatorEnv fun _ _ => none) (failing "RPC_NOT_CONFIGURED") Example.plugins
    Example.priceRequest true none Example.aggregatorWorld

private def noVault :=
  aggregateQuotes .default Example.eth (Example.aggregatorEnv fun _ _ => none) (failing "INVALID_VAULT")
    Example.plugins (Example.quoteRequest 5) true none Example.aggregatorWorld

/-- Without RPC no plugin is asked for a price, and a quote of tokens that are no vaults is asked for as it was
given. -/
theorem vault_handling_fails_closed_cases :
    Closed Example.plugins Example.aggregatorWorld unconfigured.1 unconfigured.2 ∧
      AsGiven .default (quoteAggregation Example.eth) quoteOperation (Example.aggregatorEnv fun _ _ => none)
        Example.plugins none (Example.quoteRequest 5) (·.val.vaultContext) (·.vaultContext) Example.aggregatorWorld
        noVault.1 noVault.2 := by
  constructor
  · rcases (vault_handling_fails_closed .default Example.eth WeightedLimiter).1
      (Example.aggregatorEnv fun _ _ => none) (failing "RPC_NOT_CONFIGURED") Example.plugins Example.priceRequest none
      Example.aggregatorWorld unconfigured.2 unconfigured.1 (by simp [Example.plugins])
      (failing_uncancelled _) rfl with ⟨request, context, rate, h, -⟩ | ⟨⟨message, h⟩, -⟩ | ⟨-, -, h⟩
    · cases failing_answers h
    · simpa using failing_answers h
    · exact h
  · rcases (vault_handling_fails_closed .default Example.eth WeightedLimiter).2
      (Example.aggregatorEnv fun _ _ => none) (failing "INVALID_VAULT") Example.plugins (Example.quoteRequest 5) none
      Example.aggregatorWorld noVault.2 noVault.1 (by simp [Example.plugins]) (failing_uncancelled _) (by decide) rfl
      with ⟨request, resolution, h, -⟩ | ⟨-, h⟩ | ⟨-, hnotVault, -⟩
    · cases failing_answers h
    · exact h
    · obtain ⟨r, v, hacquire⟩ := Example.acquires
      exact absurd ⟨"", r, v, hacquire, rfl⟩ hnotVault

end TokenPriceAgg

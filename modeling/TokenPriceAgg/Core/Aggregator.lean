import TokenPriceAgg.Core.RunnerOutputs
import TokenPriceAgg.Core.VaultUnderlying

/-!
# The aggregator service

`aggregatePrices` and `aggregateQuotes`: the request is resolved to its underlying token when that is asked for, the
selected plugins run on what came of it, unless the resolution failed, and the results are translated back, sorted
and summarised.

The vault side (its limiter and its resolver) is a state of its own, `V`; the runner has its `World`.  While a call
waits for one of the two, the other requests may change the other one, too.
-/

namespace TokenPriceAgg

open PyLib Eff

structure AggregatorWorld (V Req R : Type) where
  vault : V
  runner : World R
  /-- the requests this call has handed to the runner -/
  dispatched : List Req

structure AggregatorEnv (V Req A : Type) where
  vaultSide : VaultSide V
  schedule : Schedule Req A
  /-- what the others do to the runner during the resolution, and to the vault side during the run -/
  runnerMeanwhile : Shared → Shared
  vaultMeanwhile : V → V

/-- What the two operations do with a request, besides running the plugins. -/
structure Aggregation (Req R C S : Type) where
  setTimeout : Int → Req → Req
  /-- what the runner may take longer than a provider -/
  graceMs : Int
  failure : ProviderPlugin → Req → VaultResolutionFailure → Except Exn R
  applyContext : Req → List R → Option C → Except Exn (List R)
  summary : List R → Except Exn S
  failedProviders : S → Nat

/-- `resolved.vault_context`, `resolved.vault_resolution`. -/
def VaultResolution.context? {C : Type} : VaultResolution C → Option C
  | .resolved context => some context
  | _ => none

/-- `model_copy(update={"timeout_ms": timeout_ms})` when there is a timeout. -/
def Aggregation.withTimeout {Req R C S : Type} (agg : Aggregation Req R C S) (timeoutMs : Option Int) (req : Req) : Req :=
  match timeoutMs with
  | none => req
  | some timeoutMs => agg.setTimeout timeoutMs req

def vaultResolutionPriceFailure (plugin : ProviderPlugin) (req : ProviderPriceRequest)
    (failure : VaultResolutionFailure) : Except Exn PriceResult :=
  PriceResult.new { provider := plugin.id, status := .error, token := some req.token
                    latencyMs := failure.latencyMs, error := some failure.errorInfo }

def vaultResolutionQuoteFailure (plugin : ProviderPlugin) (req : ProviderQuoteRequest)
    (failure : VaultResolutionFailure) : Except Exn QuoteResult :=
  QuoteResult.new { provider := plugin.id, status := .error, tokenIn := some req.tokenIn, tokenOut := some req.tokenOut
                    amountIn := some req.amountIn, latencyMs := failure.latencyMs, error := some failure.errorInfo }

def priceAggregation : Aggregation ProviderPriceRequest PriceResult VaultContext AggregatePriceSummary where
  setTimeout timeoutMs req := { req with timeoutMs := some timeoutMs }
  graceMs := 100
  failure := vaultResolutionPriceFailure
  applyContext _ := applyPriceContext
  summary := buildPriceSummary
  failedProviders := AggregatePriceSummary.failedProviders

def quoteAggregation (eth : EthUtils) :
    Aggregation ProviderQuoteRequest QuoteResult QuoteVaultResolution AggregateQuoteSummary where
  setTimeout timeoutMs req := { req with timeoutMs := some timeoutMs }
  graceMs := 300
  failure := vaultResolutionQuoteFailure
  applyContext := applyQuoteResolution eth
  summary results := .ok (buildQuoteSummary results)
  failedProviders := AggregateQuoteSummary.failedProviders

namespace Aggregator

section Aggregate

variable {V Req A R C S : Type} [ProviderResult R] (settings : Settings) (agg : Aggregation Req R C S)
  (op : Operation Req A R) (env : AggregatorEnv V Req A)

abbrev Call (V Req R α : Type) : Type := Eff (AggregatorWorld V Req R) Raised α

def ofExcept {α : Type} (x : Except Exn α) : Call V Req R α := Eff.ofExcept (x.mapError Raised.exception)

/-- A computation on the vault side. -/
def onVault {α : Type} (m : Eff V Raised α) : Call V Req R α := do
  let result ← Eff.zoom AggregatorWorld.vault (fun vault w => { w with vault }) m
  Eff.modify fun w => { w with runner := w.runner.onShared env.runnerMeanwhile }
  pure result

/-- A computation of the runner on a request. -/
def onRunner {α : Type} (req : Req) (m : Run R α) : Call V Req R α := do
  Eff.modify fun w => { w with dispatched := w.dispatched ++ [req] }
  let result ← Eff.zoom AggregatorWorld.runner (fun runner w => { w with runner }) m
  Eff.modify fun w => { w with vault := env.vaultMeanwhile w.vault }
  pure result

def deadlineMs (timeoutMs : Option Int) : Int := timeoutMs.getD settings.providerRequestTimeoutMs + agg.graceMs

def vaultResolutionFailures (plugins : List ProviderPlugin) (req : Req) (failure : VaultResolutionFailure) :
    Except Exn (List R) :=
  (Eff.mapEach (fun plugin => Eff.ofExcept (agg.failure plugin req failure)) plugins ()).1

/-- The results before they are translated back. -/
def rawResults (selected : List ProviderPlugin) (req : Req) (timeoutMs : Option Int) (resolved : ResolvedRequest Req C) :
    Call V Req R (List R) :=
  match resolved.status with
  | .failed failure => ofExcept (vaultResolutionFailures agg selected req failure)
  | _ =>
    let resolvedReq := agg.withTimeout timeoutMs resolved.request
    onRunner env resolvedReq
      (Runner.runOperation settings op env.schedule resolvedReq selected (deadlineMs settings agg timeoutMs))

/-- Translate back, sort and summarise. -/
def finish (req : Req) (resolved : ResolvedRequest Req C) (results : List R) : Except Exn (List R × S × Bool) := do
  let results ← agg.applyContext req results resolved.status.context?
  let ordered := sortResults results
  let summary ← agg.summary ordered
  pure (ordered, summary, decide (0 < agg.failedProviders summary))

/-- The body that `aggregate_prices` and `aggregate_quotes` share; `selected` is the registry's answer. -/
def aggregate (resolve : Eff V Raised (ResolvedRequest Req C)) (selected : List ProviderPlugin) (req : Req)
    (timeoutMs : Option Int) : Call V Req R (List R × S × Bool) := do
  if selected = [] then
    Eff.raise (.exception (.invalidRequest "NO_PROVIDERS" "No providers available for this request"))
  else
    let resolved ← onVault env resolve
    let results ← rawResults settings agg op env selected req timeoutMs resolved
    ofExcept (finish agg req resolved results)

/-! What a call comes to, once its request is resolved. -/

variable {settings agg op env} {resolve : Eff V Raised (ResolvedRequest Req C)} {selected : List ProviderPlugin}
  {req : Req} {timeoutMs : Option Int} {resolved : ResolvedRequest Req C} {failure : VaultResolutionFailure}
  {v' : V} {w w' : AggregatorWorld V Req R}

/-- During the resolution only the others change the runner. -/
structure Resolved (env : AggregatorEnv V Req A) (w w₁ : AggregatorWorld V Req R) : Prop where
  dispatched : w₁.dispatched = w.dispatched
  runner : w₁.runner = w.runner.onShared env.runnerMeanwhile

theorem aggregate_resolved (hselected : selected ≠ []) (h : resolve w.vault = (.ok resolved, v')) :
    ∃ w₁, Resolved env w w₁ ∧ aggregate settings agg op env resolve selected req timeoutMs w =
      (do
        let results ← rawResults settings agg op env selected req timeoutMs resolved
        ofExcept (finish agg req resolved results) : Call V Req R (List R × S × Bool)) w₁ := by
  refine ⟨{ w with vault := v', runner := w.runner.onShared env.runnerMeanwhile }, ⟨rfl, rfl⟩, ?_⟩
  unfold aggregate
  rw [if_neg hselected]
  have hvault : onVault env resolve w =
      (.ok resolved, { w with vault := v', runner := w.runner.onShared env.runnerMeanwhile }) := by
    have hzoom : Eff.zoom AggregatorWorld.vault (fun vault (w : AggregatorWorld V Req R) => { w with vault }) resolve w =
        (.ok resolved, { w with vault := v' }) := by
      unfold Eff.zoom
      rw [h]
    unfold onVault
    rw [bind_ok hzoom]
    rfl
  rw [bind_ok hvault]

/-- A call that returns has selected plugins, and its resolution has returned. -/
theorem resolve_of_aggregate {returned : List R × S × Bool}
    (h : aggregate settings agg op env resolve selected req timeoutMs w = (.ok returned, w')) :
    selected ≠ [] ∧ ∃ resolved v', resolve w.vault = (.ok resolved, v') := by
  have hselected : selected ≠ [] := by
    rintro rfl
    cases h
  refine ⟨hselected, ?_⟩
  rcases hresolve : resolve w.vault with ⟨e | resolved, v'⟩
  · have hzoom : Eff.zoom AggregatorWorld.vault (fun vault (w : AggregatorWorld V Req R) => { w with vault }) resolve w =
        (.error e, { w with vault := v' }) := by
      unfold Eff.zoom
      rw [hresolve]
    have hvault : onVault env resolve w = (.error e, { w with vault := v' }) := bind_error hzoom _
    unfold aggregate at h
    rw [if_neg hselected, bind_error hvault] at h
    cases h
  · exact ⟨resolved, v', rfl⟩

/-- Nothing is handed to the runner, and the outcome is that of the failures. -/
theorem aggregate_failed (hselected : selected ≠ []) {request : Req} {outcome : Except Raised (List R × S × Bool)}
    (h : resolve w.vault = (.ok ⟨request, .failed failure⟩, v'))
    (hrun : aggregate settings agg op env resolve selected req timeoutMs w = (outcome, w')) :
    Resolved env w w' ∧ outcome = (vaultResolutionFailures agg selected req failure >>=
      finish agg req ⟨request, .failed failure⟩).mapError Raised.exception := by
  obtain ⟨w₁, hresolved, hrun'⟩ := aggregate_resolved hselected h
  rw [hrun'] at hrun
  change (ofExcept (vaultResolutionFailures agg selected req failure) >>= fun results =>
    ofExcept (finish agg req ⟨request, .failed failure⟩ results)) w₁ = _ at hrun
  rw [bind_run] at hrun
  cases hf : vaultResolutionFailures agg selected req failure with
  | error exc =>
    rw [hf] at hrun
    cases hrun
    exact ⟨hresolved, rfl⟩
  | ok results =>
    rw [hf] at hrun
    cases hrun
    exact ⟨hresolved, rfl⟩

/-- Started when the resolution is over, the runner returns `given` for `req'`. -/
def RunReturns (settings : Settings) (agg : Aggregation Req R C S) (op : Operation Req A R) (env : AggregatorEnv V Req A)
    (selected : List ProviderPlugin) (timeoutMs : Option Int) (w : AggregatorWorld V Req R) (req' : Req)
    (given : List R) : Prop :=
  ∃ r', Runner.runOperation settings op env.schedule (agg.withTimeout timeoutMs req') selected
    (deadlineMs settings agg timeoutMs) (w.runner.onShared env.runnerMeanwhile) = (.ok given, r')

/-- The resolved request, and nothing else, is handed to the runner; a call that returns has translated back what the
runner returned for it. -/
theorem aggregate_run (hselected : selected ≠ []) (h : resolve w.vault = (.ok resolved, v'))
    (hstatus : ∀ failure, resolved.status ≠ .failed failure) {outcome : Except Raised (List R × S × Bool)}
    (hrun : aggregate settings agg op env resolve selected req timeoutMs w = (outcome, w')) :
    w'.dispatched = w.dispatched ++ [agg.withTimeout timeoutMs resolved.request] ∧
      ∀ returned, outcome = .ok returned → ∃ given,
        RunReturns settings agg op env selected timeoutMs w resolved.request given ∧
        finish agg req resolved given = .ok returned := by
  obtain ⟨w₁, hresolved, hrun'⟩ := aggregate_resolved hselected h
  rw [hrun'] at hrun
  let req' := agg.withTimeout timeoutMs resolved.request
  let m : Run R (List R) := Runner.runOperation settings op env.schedule req' selected (deadlineMs settings agg timeoutMs)
  have hraw : rawResults settings agg op env selected req timeoutMs resolved = onRunner env req' m := by
    unfold rawResults
    cases hs : resolved.status with
    | failed failure => exact absurd hs (hstatus failure)
    | notRequested => rfl
    | notVault => rfl
    | resolved context => rfl
  have hdispatched : w.dispatched ++ [req'] = w₁.dispatched ++ [req'] := by rw [hresolved.dispatched]
  let w₂ : AggregatorWorld V Req R := { w₁ with dispatched := w₁.dispatched ++ [req'] }
  rcases hm : m w₂.runner with ⟨e | given, r'⟩
  · have herror : onRunner env req' m w₁ = (.error e, { w₂ with runner := r' }) := by
      have hzoom : Eff.zoom AggregatorWorld.runner (fun runner (w : AggregatorWorld V Req R) => { w with runner }) m w₂ =
          (.error e, { w₂ with runner := r' }) := by
        unfold Eff.zoom
        rw [hm]
      exact bind_error hzoom _
    rw [hraw, bind_error herror] at hrun
    cases hrun
    exact ⟨hdispatched.symm, fun _ h => by cases h⟩
  · have hok : onRunner env req' m w₁ = (.ok given, { w₂ with runner := r', vault := env.vaultMeanwhile w₁.vault }) := by
      have hzoom : Eff.zoom AggregatorWorld.runner (fun runner (w : AggregatorWorld V Req R) => { w with runner }) m w₂ =
          (.ok given, { w₂ with runner := r' }) := by
        unfold Eff.zoom
        rw [hm]
      exact bind_ok hzoom _
    rw [hraw, bind_ok hok] at hrun
    cases hrun
    refine ⟨hdispatched.symm, fun returned hreturned => ⟨given, ⟨r', hresolved.runner ▸ hm⟩, ?_⟩⟩
    cases hf : finish agg req resolved given with
    | error exc => rw [hf] at hreturned; cases hreturned
    | ok x => rw [hf] at hreturned; exact congrArg Except.ok (Except.ok.inj hreturned)

/-- The response lists the translated results in the order of the response. -/
theorem finish_ok {given : List R} {returned : List R × S × Bool} (h : finish agg req resolved given = .ok returned) :
    ∃ applied, agg.applyContext req given resolved.status.context? = .ok applied ∧ returned.1.Perm applied := by
  unfold finish at h
  cases ha : agg.applyContext req given resolved.status.context? with
  | error exc => rw [ha] at h; cases h
  | ok applied =>
    rw [ha] at h
    cases hs : agg.summary (sortResults applied) with
    | error exc => simp only [bind, Except.bind, hs] at h; cases h
    | ok summary =>
      simp only [bind, Except.bind, hs] at h
      cases h
      exact ⟨applied, rfl, sortResults_perm applied⟩

end Aggregate

end Aggregator

section Service

variable {V : Type} (settings : Settings)

def aggregatePrices (env : AggregatorEnv V ProviderPriceRequest AcceptedPriceResult)
    (resolver : ProviderPriceRequest → Eff V Raised (ProviderPriceRequest × VaultContext))
    (selected : List ProviderPlugin) (req : ProviderPriceRequest) (useUnderlying : Bool) (timeoutMs : Option Int) :
    Aggregator.Call V ProviderPriceRequest PriceResult (List PriceResult × AggregatePriceSummary × Bool) :=
  Aggregator.aggregate settings priceAggregation priceOperation env
    (resolvePrice settings env.vaultSide resolver req useUnderlying) selected req timeoutMs

def aggregateQuotes (eth : EthUtils) (env : AggregatorEnv V ProviderQuoteRequest AcceptedQuoteResult)
    (resolver : ProviderQuoteRequest → Eff V Raised (ProviderQuoteRequest × Option QuoteVaultResolution))
    (selected : List ProviderPlugin) (req : ProviderQuoteRequest) (useUnderlying : Bool) (timeoutMs : Option Int) :
    Aggregator.Call V ProviderQuoteRequest QuoteResult (List QuoteResult × AggregateQuoteSummary × Bool) :=
  Aggregator.aggregate settings (quoteAggregation eth) quoteOperation env
    (resolveQuote settings env.vaultSide resolver req useUnderlying) selected req timeoutMs

end Service

end TokenPriceAgg

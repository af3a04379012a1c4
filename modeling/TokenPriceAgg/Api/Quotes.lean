import TokenPriceAgg.Api.Aggregates
import TokenPriceAgg.Core.MirroredAmounts
import TokenPriceAgg.Core.QuoteConversions
import TokenPriceAgg.Core.Summaries

/-!
# The quote route

`quote_response_consistent`: a response of `/v1/quote` agrees with itself and with the request.  It has the structure
of the price route, for two tokens, and its amounts are decimal numerals: the one of the request in every success,
and between the low and the high amount of the summary what the successes pay out.

`quote_request_answered`: without a vault resolution every request is refused, turned away or answered.
-/

namespace TokenPriceAgg

open PyLib Eff

structure QuoteProviderEntry where
  status : ProviderStatus
  success : Bool
  amountIn : Option String
  amountOut : Option String
  amountOutMin : Option String
  priceImpactBps : Option Int
  estimatedGas : Option Int
  latencyMs : Int
  asOf : Option Int
  error : Option ErrorInfo

structure QuoteVaultContext where
  vaultType : Option VaultType
  underlyingTokenIn : Option String
  underlyingTokenOut : Option String
  pricePerShareTokenIn : Option Rate
  pricePerShareTokenOut : Option Rate
  blockNumber : Nat

structure SelectedQuote where
  provider : String
  amountIn : Option String
  amountOut : Option String
  amountOutMin : Option String
  priceImpactBps : Option Int
  estimatedGas : Option Int
  latencyMs : Int
  asOf : Option Int
  vaultContext : Option QuoteVaultContext

structure AggregateQuoteSummaryResponse where
  requestedProviders : Nat
  successfulProviders : Nat
  failedProviders : Nat
  highAmountOut : Option String
  lowAmountOut : Option String
  medianAmountOut : Option String

structure QuoteAggregateResponse where
  chainId : Int
  tokenIn : TokenMetadataResponse
  tokenOut : TokenMetadataResponse
  providerOrder : List String
  quote : Option SelectedQuote
  providers : Dict String QuoteProviderEntry
  summary : AggregateQuoteSummaryResponse

/-- `_base_unit_string`. -/
def baseUnitString (value : Option Int) : Option String := value.map toString

def quoteProviderEntry (result : QuoteResult) : QuoteProviderEntry where
  status := result.status
  success := decide (result.status = .ok)
  amountIn := baseUnitString result.amountIn
  amountOut := baseUnitString result.amountOut
  amountOutMin := baseUnitString result.amountOutMin
  priceImpactBps := result.priceImpactBps
  estimatedGas := result.estimatedGas
  latencyMs := result.latencyMs
  asOf := result.asOf
  error := result.error

/-- `_to_quote_vault_context`. -/
def toQuoteVaultContext (vaultContext : Option VaultContext) : Option QuoteVaultContext :=
  vaultContext.map fun context =>
    { vaultType := context.vaultType
      underlyingTokenIn := context.underlyingTokenIn, underlyingTokenOut := context.underlyingTokenOut
      pricePerShareTokenIn := context.pricePerShareTokenIn, pricePerShareTokenOut := context.pricePerShareTokenOut
      blockNumber := context.blockNumber }

def selectedQuote (selected : QuoteResult) : SelectedQuote where
  provider := selected.provider
  amountIn := baseUnitString selected.amountIn
  amountOut := baseUnitString selected.amountOut
  amountOutMin := baseUnitString selected.amountOutMin
  priceImpactBps := selected.priceImpactBps
  estimatedGas := selected.estimatedGas
  latencyMs := selected.latencyMs
  asOf := selected.asOf
  vaultContext := toQuoteVaultContext selected.vaultContext

def quoteSummaryResponse (summary : AggregateQuoteSummary) : AggregateQuoteSummaryResponse where
  requestedProviders := summary.requestedProviders
  successfulProviders := summary.successfulProviders
  failedProviders := summary.failedProviders
  highAmountOut := baseUnitString summary.highAmountOut
  lowAmountOut := baseUnitString summary.lowAmountOut
  medianAmountOut := baseUnitString summary.medianAmountOut

/-- The response made of the results. -/
def quoteResponse (chainId : Int) (aggregated : Aggregated QuoteResult AggregateQuoteSummary)
    (tokenIn tokenOut : TokenMetadataResponse) : QuoteAggregateResponse where
  chainId := chainId
  tokenIn := tokenIn
  tokenOut := tokenOut
  providerOrder := aggregated.providerOrder
  quote := (selectQuoteResult aggregated.providerOrder aggregated.byProvider).map selectedQuote
  providers := providersPayload quoteProviderEntry aggregated
  summary := quoteSummaryResponse aggregated.summary

/-- `result.token_in` and `result.token_out`, where there are such. -/
def QuoteResult.tokens (result : QuoteResult) : List TokenRef := result.tokenIn.toList ++ result.tokenOut.toList

/-- The underlying tokens of `result.vault_context`. -/
def QuoteResult.underlyings (result : QuoteResult) : List String :=
  match result.vaultContext with
  | none => []
  | some context =>
    context.underlyingToken.toList ++ context.underlyingTokenIn.toList ++ context.underlyingTokenOut.toList

/-- What the handler of `/v1/quote` depends on. -/
structure QuoteService (V : Type) where
  settings : Settings
  registry : ProviderRegistry
  quoteProviderPriority : List String
  eth : EthUtils
  lower : String → String
  env : AggregatorEnv V ProviderQuoteRequest AcceptedQuoteResult
  resolver : ProviderQuoteRequest → Eff V Raised (ProviderQuoteRequest × Option QuoteVaultResolution)
  metadata : MetadataSide

namespace QuoteService

variable {V : Type} (service : QuoteService V)

/-- The aggregate call of `_handle_quote_request`. -/
def call (payload : QuoteRequest) (timeoutMs : Option Int) (req : ProviderQuoteRequest) :
    Route V ProviderQuoteRequest QuoteResult (Aggregated QuoteResult AggregateQuoteSummary) :=
  aggregateWithProviderOrder
    (aggregateSelected service.registry .quote payload.providers payload.chainId fun selected =>
      aggregateQuotes service.settings service.eth service.env service.resolver selected req payload.useUnderlying
        timeoutMs)
    payload.providers service.quoteProviderPriority

/-- `_handle_quote_request`. -/
def handle (payload : QuoteRequest) (timeoutMs : Option Int) :
    Route V ProviderQuoteRequest QuoteResult QuoteAggregateResponse := do
  let (req, tokenIn, tokenOut) ← raises
    (normalizeQuoteRequest service.eth payload.chainId payload.tokenIn payload.tokenOut payload.amountIn)
  let aggregated ← service.call payload timeoutMs req
  let metadata ← responseMetadata service.eth service.registry.chainIds service.metadata payload.chainId
    QuoteResult.tokens QuoteResult.underlyings [tokenIn, tokenOut] aggregated.results
  let shownIn ← raises (metadataForAddress service.eth metadata tokenIn.named)
  let shownOut ← raises (metadataForAddress service.eth metadata tokenOut.named)
  pure (quoteResponse payload.chainId aggregated shownIn shownOut)

/-- The handler of `/v1/quote`, from the validated query on. -/
def quote (chainId : Int) (tokenIn tokenOut amountIn : String) (providers : Option (List String))
    (useUnderlying : Bool) (timeoutMs : Option Int) : Route V ProviderQuoteRequest QuoteResult QuoteAggregateResponse :=
  Eff.mapError HttpFailure.handled do
    let payload ← raises
      (QuoteRequest.new service.lower chainId tokenIn tokenOut amountIn providers useUnderlying)
    service.handle payload timeoutMs

end QuoteService

/-! ### The results of a call -/

/-- A success pays out an amount of at most 256 bits, and has no error. -/
structure QuoteResult.Quoted (r : QuoteResult) : Prop where
  amountOut : r.status = .ok → ∃ n ∈ r.amountOut, 0 < n ∧ n ≤ maxUint256
  amountOutMin : r.status = .ok → ∀ m ∈ r.amountOutMin, ∀ n ∈ r.amountOut, 0 ≤ m ∧ m ≤ n
  error : r.status = .ok → r.error = none

theorem QuoteResult.Valid.quoted {r : QuoteResult} (h : r.Valid) : r.Quoted where
  amountOut hok := by
    obtain ⟨n, hn, hpos⟩ := h.ok_amount hok
    exact ⟨n, hn, hpos, (h.amountOut n hn).2⟩
  amountOutMin _ m hm n hn := ⟨(h.amountOutMin m hm).1, h.min_le m hm n hn⟩
  error := h.ok_error

private theorem QuoteResult.quoted_of_failed {r : QuoteResult} (h : r.status ≠ .ok) : r.Quoted where
  amountOut hok := absurd hok h
  amountOutMin hok := absurd hok h
  error hok := absurd hok h

/-- The translation of vault shares makes no success, and keeps the amounts of a success legal. -/
structure QuoteTranslated (r r' : QuoteResult) : Prop where
  provider : r'.provider = r.provider
  status : r'.status = .ok → r.status = .ok
  quoted : r.Quoted → r'.Quoted

private theorem QuoteTranslated.refl (r : QuoteResult) : QuoteTranslated r r := ⟨rfl, id, id⟩

private theorem markQuoteConversionFailure_translated {r r' : QuoteResult} (h : r'.provider = r.provider) :
    QuoteTranslated r (markQuoteConversionFailure r') := by
  have hfailed : (markQuoteConversionFailure r').status ≠ .ok := by
    show ProviderStatus.error ≠ .ok
    decide
  exact ⟨h, fun hok => absurd hok hfailed, fun _ => QuoteResult.quoted_of_failed hfailed⟩

private theorem applyQuoteToResult_translated
    {eth : EthUtils} {req : ProviderQuoteRequest} {resolution : QuoteVaultResolution}
    {r r' : QuoteResult} {calls calls' : List Int}
    (h : applyQuoteToResult eth req resolution r calls = (.ok r', calls')) : QuoteTranslated r r' := by
  unfold applyQuoteToResult at h
  by_cases hok : r.status = .ok
  · rw [if_pos hok] at h
    cases hout : resolution.outputVaultContext with
    | none =>
      simp only [hout] at h
      obtain ⟨context, t, -, hpure⟩ := bind_eq_ok.1 h
      cases hpure
      exact ⟨rfl, id, fun hq => ⟨hq.amountOut, hq.amountOutMin, hq.error⟩⟩
    | some output =>
      cases hconverter : resolution.outputAssetsToShares with
      | none =>
        simp only [hout, hconverter] at h
        cases h
        exact markQuoteConversionFailure_translated rfl
      | some assetsToShares =>
        simp only [hout, hconverter] at h
        obtain ⟨converted, t, htry, h⟩ := bind_eq_ok.1 h
        cases converted with
        | none =>
          cases h
          exact markQuoteConversionFailure_translated rfl
        | some amounts =>
          obtain ⟨amountOut, amountOutMin⟩ := amounts
          obtain ⟨context, t', -, hpure⟩ := bind_eq_ok.1 h
          cases hpure
          -- the converter answered, and its answers were checked
          have hlegal : LegalShares amountOut amountOutMin := by
            unfold Eff.tryExcept at htry
            rcases hconvert : convertQuoteOutputAmounts r.amountOut r.amountOutMin assetsToShares calls with
              ⟨e | amounts, s⟩
            · rw [bind_error hconvert] at htry
              cases htry
            · rw [bind_ok hconvert] at htry
              cases htry
              exact (convertQuoteOutputAmounts_ok hconvert).1
          refine ⟨rfl, id, fun hq => ⟨fun _ => ⟨amountOut, rfl, hlegal.1⟩, ?_, hq.error⟩⟩
          intro _ m hm n hn
          obtain rfl := Option.some.inj hn
          exact hlegal.2 m hm
  · rw [if_neg hok] at h
    cases h
    exact .refl r

private theorem applyQuoteResolution_translated
    {eth : EthUtils} {req : ProviderQuoteRequest} {raw applied : List QuoteResult}
    {context : Option QuoteVaultResolution} (h : applyQuoteResolution eth req raw context = .ok applied) :
    List.Forall₂ QuoteTranslated raw applied := by
  cases context with
  | none =>
    obtain rfl := Except.ok.inj h
    exact List.forall₂_same.2 fun r _ => .refl r
  | some resolution =>
    obtain ⟨calls, hrun⟩ : ∃ calls, Eff.mapEach (applyQuoteToResult eth req resolution) raw [] = (.ok applied, calls) :=
      ⟨_, Prod.ext h rfl⟩
    refine List.Forall₂.imp (fun r r' hr => ?_) (Eff.mapEach_ok hrun)
    obtain ⟨t, t', hturn⟩ := hr
    exact applyQuoteToResult_translated hturn

private theorem vaultResolutionQuoteFailure_ok {plugin : ProviderPlugin} {req : ProviderQuoteRequest}
    {failure : VaultResolutionFailure} {r : QuoteResult} (h : vaultResolutionQuoteFailure plugin req failure = .ok r) :
    r.provider = plugin.id ∧ r.status = .error := by
  unfold vaultResolutionQuoteFailure QuoteResult.new at h
  split at h
  · obtain rfl := Except.ok.inj h
    exact ⟨rfl, rfl⟩
  · cases h

private theorem quoteAggregation_keeps (eth : EthUtils) : KeepsProviders (quoteAggregation eth) where
  failure _ _ _ _ h := (vaultResolutionQuoteFailure_ok h).1
  apply _ _ _ _ h := map_providers (applyQuoteResolution_translated h) fun _ _ hr => hr.provider

private theorem quoted_carries
    {V : Type} (eth : EthUtils) (env : AggregatorEnv V ProviderQuoteRequest AcceptedQuoteResult) :
    Carries (quoteAggregation eth) quoteOperation env QuoteResult.Quoted where
  run req := Runner.establishes_quote (fun _ _ _ _ _ h => (QuoteResult.valid_of_new h).quoted)
    fun _ _ a _ _ => a.property.quoted
  failure _ _ _ r h := by
    apply QuoteResult.quoted_of_failed
    rw [(vaultResolutionQuoteFailure_ok h).2]
    decide
  apply _ _ _ _ h := forall_mem_of_forall₂ (applyQuoteResolution_translated h) fun _ _ hr => hr.quoted

/-! The amount of the request. -/

section Echo

variable {V : Type} {settings : Settings} {eth : EthUtils}
  {resolver : ProviderQuoteRequest → Eff V Raised (ProviderQuoteRequest × Option QuoteVaultResolution)}
  {env : AggregatorEnv V ProviderQuoteRequest AcceptedQuoteResult} {selected : List ProviderPlugin}
  {req : ProviderQuoteRequest} {useUnderlying : Bool} {timeoutMs : Option Int}
  {w w' : AggregatorWorld V ProviderQuoteRequest QuoteResult}

/-- A success of a translation is about the amount of the request. -/
private theorem applyQuoteResolution_echoes {raw applied : List QuoteResult} {resolution : QuoteVaultResolution}
    (h : applyQuoteResolution eth req raw (some resolution) = .ok applied) :
    ∀ r ∈ applied, r.status = .ok → r.amountIn = some req.amountIn := by
  obtain ⟨calls, hrun⟩ : ∃ calls, Eff.mapEach (applyQuoteToResult eth req resolution) raw [] = (.ok applied, calls) :=
    ⟨_, Prod.ext h rfl⟩
  have hforall := Eff.mapEach_ok hrun
  have hraw : ∀ r ∈ raw, True := fun _ _ => trivial
  refine forall_mem_of_forall₂ hforall (fun r r' hr _ hok => ?_) hraw
  obtain ⟨t, t', hturn⟩ := hr
  have hamount := applyQuoteToResult_amountIn hturn
  unfold restoredAmount at hamount
  rwa [if_pos ((applyQuoteToResult_translated hturn).status hok), eq_comm] at hamount

/-- Every success is about the amount of the request. -/
private theorem aggregateQuotes_echoes {x : List QuoteResult × AggregateQuoteSummary × Bool}
    (h : aggregateQuotes settings eth env resolver selected req useUnderlying timeoutMs w = (.ok x, w')) :
    ∀ r ∈ x.1, r.status = .ok → r.amountIn = some req.amountIn := by
  obtain ⟨hselected, resolved, v', hresolve⟩ := Aggregator.resolve_of_aggregate h
  obtain ⟨applied, hsorted, hamounts⟩ : ∃ applied, x.1 = sortResults applied ∧
      ∀ r ∈ applied, r.status = .ok → r.amountIn = some req.amountIn := by
    rcases resolveQuote_cases hresolve with ⟨failure, rfl, -⟩ | ⟨hstatus, hrequest, -⟩
    · obtain ⟨-, houtcome⟩ := Aggregator.aggregate_failed hselected hresolve h
      obtain ⟨raw, hfailures, hfinish⟩ := Eff.except_bind_eq_ok.1 (Eff.except_mapError_eq_ok houtcome.symm)
      obtain ⟨applied, happlied, hsorted, -⟩ := finish_spec hfinish
      obtain rfl := Except.ok.inj happlied
      exact ⟨raw, hsorted, fun r hr _ => vaultResolutionFailures_amountIn hfailures r hr⟩
    · obtain ⟨-, hreturned⟩ := Aggregator.aggregate_run hselected hresolve hstatus h
      obtain ⟨raw, ⟨r', hrun⟩, hfinish⟩ := hreturned x rfl
      obtain ⟨applied, happlied, hsorted, -⟩ := finish_spec hfinish
      refine ⟨applied, hsorted, ?_⟩
      change applyQuoteResolution eth req raw resolved.status.context? = .ok applied at happlied
      cases hcontext : resolved.status.context? with
      | some resolution =>
        rw [hcontext] at happlied
        exact applyQuoteResolution_echoes happlied
      | none =>
        -- the request of the run is that of the caller
        rw [hcontext] at happlied
        obtain rfl := Except.ok.inj happlied
        intro r hr hok
        have hechoes := (Runner.establishes_echoes env.schedule _).of_returned hrun r hr hok
        rw [hechoes.2.2, withTimeout_amountIn, hrequest hcontext]
  intro r hr
  rw [hsorted] at hr
  exact hamounts r ((sortResults_perm applied).mem_iff.1 hr)

end Echo

/-! ### The response -/

/-- What a response says about the request and about itself. -/
structure QuoteAggregateResponse.Consistent {V : Type} (service : QuoteService V) (chainId : Int)
    (tokenIn tokenOut amountIn : String) (providers : Option (List String)) (useUnderlying : Bool)
    (timeoutMs : Option Int) (w w' : AggregatorWorld V ProviderQuoteRequest QuoteResult)
    (response : QuoteAggregateResponse) : Prop where
  chain : response.chainId = chainId
  /-- the entries are those of the results, and the tokens are shown as they are known when the tokens of the results
  are looked up with those that the call was about -/
  shown : ∃ amount askedIn askedOut aggregated refs, parsePositiveInt amountIn "amount_in" = .ok amount ∧
    AskedAbout service.eth chainId tokenIn askedIn ∧ AskedAbout service.eth chainId tokenOut askedOut ∧
    service.call
      { chainId, tokenIn, tokenOut, amountIn, useUnderlying, providers := requestedProviders service.lower providers }
      timeoutMs
      { chainId, tokenIn := { chainId, address := askedIn }, tokenOut := { chainId, address := askedOut }
        amountIn := amount } w = (.ok aggregated, w') ∧
    (∀ id entry, response.providers.get? id = some entry ↔
      ∃ r ∈ aggregated.results, r.provider = id ∧ quoteProviderEntry r = entry) ∧
    responseRefs service.eth chainId QuoteResult.tokens QuoteResult.underlyings
      [{ chainId, address := askedIn }, { chainId, address := askedOut }] aggregated.results = .ok refs ∧
    ShownToken service.eth service.registry.chainIds service.metadata chainId tokenIn refs "provider" response.tokenIn ∧
    ShownToken service.eth service.registry.chainIds service.metadata chainId tokenOut refs "provider" response.tokenOut
  /-- the providers are asked once, about the amount, and about the tokens, those they were migrated to or the
  underlying ones; if they are not asked, every entry says that a vault was not resolved -/
  asked : ∃ amount askedIn askedOut requests, parsePositiveInt amountIn "amount_in" = .ok amount ∧
    AskedAbout service.eth chainId tokenIn askedIn ∧ AskedAbout service.eth chainId tokenOut askedOut ∧
    Asks service.settings service.env.vaultSide 2 service.resolver usableQuoteResolution
      { chainId, tokenIn := { chainId, address := askedIn }, tokenOut := { chainId, address := askedOut }
        amountIn := amount } w.vault useUnderlying requests ∧
    w'.dispatched = w.dispatched ++ requests.map ((quoteAggregation service.eth).withTimeout timeoutMs) ∧
    (requests = [] → ∀ id entry, response.providers.get? id = some entry →
      entry.status = .error ∧ ∃ info ∈ entry.error, info.type = .vaultResolutionFailed)
  /-- the providers are those that the registry picks for the request -/
  order : ∃ selected, service.registry.Resolves (requestedProviders service.lower providers) .quote chainId selected ∧
    ResponseOrder (selected.map ProviderPlugin.id)
      ((requestedProviders service.lower providers).getD service.quoteProviderPriority) response.providerOrder
  requested : ∀ ids, requestedProviders service.lower providers = some ids → response.providerOrder = ids
  entries : response.providers.items.map Prod.fst = response.providerOrder
  entry : ∀ id entry, response.providers.get? id = some entry → (entry.success ↔ entry.status = .ok)
  /-- a success shows the amount of the request -/
  echoed : ∀ id entry, response.providers.get? id = some entry → entry.status = .ok →
    ∃ amount, parsePositiveInt amountIn "amount_in" = .ok amount ∧ entry.amountIn = some (toString amount) ∧
      entry.error = none
  requestedCount : response.summary.requestedProviders = response.providers.size
  successfulCount : response.summary.successfulProviders = response.providers.items.countP fun p => p.2.success
  failedCount : response.summary.failedProviders = response.providers.items.countP fun p => !p.2.success
  /-- the selected quote is that of the first success -/
  absent : response.quote = none ↔ ∀ id entry, response.providers.get? id = some entry → entry.status ≠ .ok
  first : ∀ selected, response.quote = some selected → ∃ entry,
    FirstSuccess QuoteProviderEntry.status response.providerOrder response.providers selected.provider entry ∧
    entry.amountIn = selected.amountIn ∧ entry.amountOut = selected.amountOut ∧
    entry.amountOutMin = selected.amountOutMin ∧ entry.latencyMs = selected.latencyMs ∧ entry.asOf = selected.asOf
  /-- what a success pays out, and at least pays out, is in the bounds of the summary -/
  bounds : ∀ id entry, response.providers.get? id = some entry → entry.status = .ok →
    ∃ amount low high : Int, entry.amountOut = some (toString amount) ∧ 0 < amount ∧ amount ≤ maxUint256 ∧
      response.summary.lowAmountOut = some (toString low) ∧ response.summary.highAmountOut = some (toString high) ∧
      low ≤ amount ∧ amount ≤ high ∧
      ∀ text ∈ entry.amountOutMin, ∃ least : Int, text = toString least ∧ 0 ≤ least ∧ least ≤ amount
  attained : ∀ text, text ∈ response.summary.lowAmountOut ∨ text ∈ response.summary.highAmountOut →
    ∃ id entry, response.providers.get? id = some entry ∧ entry.status = .ok ∧ entry.amountOut = some text
  /-- the median is there with the extremes, and between them -/
  median : ∀ text ∈ response.summary.medianAmountOut, ∃ median low high : Int, text = toString median ∧
    response.summary.lowAmountOut = some (toString low) ∧ response.summary.highAmountOut = some (toString high) ∧
    low ≤ median ∧ median ≤ high

section Response

variable {V : Type} {service : QuoteService V} {chainId : Int} {tokenIn tokenOut amountIn : String}
  {providers : Option (List String)} {useUnderlying : Bool} {timeoutMs : Option Int}
  {w w' : AggregatorWorld V ProviderQuoteRequest QuoteResult} {response : QuoteAggregateResponse}

/-- The steps of a request that is answered. -/
structure QuoteAnswered (service : QuoteService V) (chainId : Int) (tokenIn tokenOut amountIn : String)
    (providers : Option (List String)) (useUnderlying : Bool) (timeoutMs : Option Int)
    (w w' : AggregatorWorld V ProviderQuoteRequest QuoteResult) (req : ProviderQuoteRequest)
    (remappedIn remappedOut : RemappedToken) (aggregated : Aggregated QuoteResult AggregateQuoteSummary)
    (shownIn shownOut : TokenMetadataResponse) : Prop where
  longIn : LongEnough tokenIn
  longOut : LongEnough tokenOut
  normalized : normalizeQuoteRequest service.eth chainId tokenIn tokenOut amountIn = .ok (req, remappedIn, remappedOut)
  call : service.call
    { chainId, tokenIn, tokenOut, amountIn, useUnderlying, providers := requestedProviders service.lower providers }
    timeoutMs req w = (.ok aggregated, w')
  shown : ∃ metadata, responseMetadata service.eth service.registry.chainIds service.metadata chainId
    QuoteResult.tokens QuoteResult.underlyings [remappedIn, remappedOut] aggregated.results w' = (.ok metadata, w') ∧
    metadataForAddress service.eth metadata remappedIn.named = .ok shownIn ∧
    metadataForAddress service.eth metadata remappedOut.named = .ok shownOut

private theorem quote_answered
    (h : service.quote chainId tokenIn tokenOut amountIn providers useUnderlying timeoutMs w = (.ok response, w')) :
    ∃ req remappedIn remappedOut aggregated shownIn shownOut,
      QuoteAnswered service chainId tokenIn tokenOut amountIn providers useUnderlying timeoutMs w w' req remappedIn
        remappedOut aggregated shownIn shownOut ∧
      response = quoteResponse chainId aggregated shownIn shownOut := by
  obtain ⟨payload, w₁, hpayload, h₁⟩ := bind_eq_ok.1 (Eff.mapError_eq_ok h)
  obtain ⟨hnew, rfl⟩ := Eff.ofExcept_eq_ok hpayload
  obtain ⟨hlongIn, hlongOut, rfl⟩ : LongEnough tokenIn ∧ LongEnough tokenOut ∧ payload =
      { chainId, tokenIn, tokenOut, amountIn, useUnderlying
        providers := requestedProviders service.lower providers } := by
    unfold QuoteRequest.new at hnew
    split at hnew
    · rename_i hvalid
      exact ⟨hvalid.2.1, hvalid.2.2, (Except.ok.inj hnew).symm⟩
    · cases hnew
  obtain ⟨⟨req, remappedIn, remappedOut⟩, w₂, hraised, h₂⟩ := bind_eq_ok.1 h₁
  obtain ⟨hnormalized, rfl⟩ := Eff.ofExcept_eq_ok hraised
  obtain ⟨aggregated, w₃, hcall, h₃⟩ := bind_eq_ok.1 h₂
  obtain ⟨metadata, w₄, hmetadata, h₄⟩ := bind_eq_ok.1 h₃
  obtain ⟨shownIn, w₅, hshownIn, h₅⟩ := bind_eq_ok.1 h₄
  obtain ⟨hin, rfl⟩ := Eff.ofExcept_eq_ok hshownIn
  obtain ⟨shownOut, w₆, hshownOut, hpure⟩ := bind_eq_ok.1 h₅
  obtain ⟨hout, rfl⟩ := Eff.ofExcept_eq_ok hshownOut
  cases hpure
  obtain ⟨rfl, -⟩ := responseMetadata_ok hmetadata
  exact ⟨req, remappedIn, remappedOut, aggregated, shownIn, shownOut,
    ⟨hlongIn, hlongOut, hnormalized, hcall, metadata, hmetadata, hin, hout⟩, rfl⟩

private theorem mem_okAmounts {results : List QuoteResult} {amount : Int} :
    amount ∈ okAmounts results ↔ ∃ r ∈ results, r.status = .ok ∧ r.amountOut = some amount := by
  unfold okAmounts
  rw [List.mem_filterMap]
  constructor
  · rintro ⟨r, hr, hamount⟩
    obtain ⟨hmem, hok⟩ := List.mem_filter.1 hr
    exact ⟨r, hmem, of_decide_eq_true hok, hamount⟩
  · rintro ⟨r, hr, hok, hamount⟩
    exact ⟨r, List.mem_filter.2 ⟨hr, decide_eq_true hok⟩, hamount⟩

/-- An amount that a request may name. -/
private theorem isUint256_of_parse {text field : String} {amount : Int}
    (h : parsePositiveInt text field = .ok amount) : IsUint256 amount := by
  obtain ⟨n, rfl, -, hmax, -⟩ := parsePositiveInt_eq_ok.1 h
  exact ⟨by omega, hmax⟩

/-- The extremes of the summary, if there is a success. -/
theorem QuoteSummaryConsistent.extremes {results : List QuoteResult} {summary : AggregateQuoteSummary}
    (h : QuoteSummaryConsistent results summary) (hne : okAmounts results ≠ []) :
    ∃ low high, summary.lowAmountOut = some low ∧ summary.highAmountOut = some high ∧
      IsLeast {a | a ∈ okAmounts results} low ∧ IsGreatest {a | a ∈ okAmounts results} high := by
  obtain ⟨low, hlow⟩ := Option.isSome_iff_exists.1 (h.low.2 hne)
  obtain ⟨high, hhigh⟩ := Option.isSome_iff_exists.1 (h.high.2 hne)
  exact ⟨low, high, hlow, hhigh, h.least low hlow, h.greatest high hhigh⟩

/-- Every response is consistent. -/
theorem quote_response_consistent {V : Type} (service : QuoteService V) {eip55 : List Char → List Char}
    (hdoc : service.eth.Documented eip55) (hlaw : service.eth.Lawful) (chainId : Int)
    (tokenIn tokenOut amountIn : String) (providers : Option (List String)) (useUnderlying : Bool)
    (timeoutMs : Option Int) (w w' : AggregatorWorld V ProviderQuoteRequest QuoteResult)
    (response : QuoteAggregateResponse)
    (h : service.quote chainId tokenIn tokenOut amountIn providers useUnderlying timeoutMs w = (.ok response, w')) :
    response.Consistent service chainId tokenIn tokenOut amountIn providers useUnderlying timeoutMs w w' := by
  obtain ⟨req, remappedIn, remappedOut, aggregated, shownIn, shownOut, hanswered, rfl⟩ := quote_answered h
  obtain ⟨selected, hresolve, ⟨failed, hrun⟩, hserved⟩ :=
    aggregate_served (quoteAggregation_keeps service.eth) hanswered.call
  obtain ⟨amount, hamount, rfl, hofIn, hofOut⟩ :=
    normalizeQuoteRequest_ok hdoc hlaw hanswered.longIn hanswered.longOut hanswered.normalized
  have hresolves := ProviderRegistry.resolve_ok hresolve
  have hids : (selected.map ProviderPlugin.id).Nodup :=
    hresolves.nodup fun ids hids => requestedProviders_nodup hids
  have hentries := hserved.entries hids quoteProviderEntry
  have hquoted := hserved.carried _ (quoted_carries service.eth service.env)
  have hechoes := aggregateQuotes_echoes hrun
  have hsummary : QuoteSummaryConsistent aggregated.results aggregated.summary := by
    rw [← Except.ok.inj hserved.summary]
    exact buildQuoteSummary_consistent aggregated.results
  obtain ⟨habsent, hfirst⟩ := hentries.first_success QuoteProviderEntry.status (fun _ => rfl) (hserved.selection hids)
  obtain ⟨hsuccessful, hfailed⟩ := hentries.count_success QuoteProviderEntry.success fun _ => rfl
  have horder := hserved.response_order hids
  have hfailures : aggregated.summary.failedProviders = aggregated.results.length -
      (aggregated.results.filter fun r => ProviderResult.status r = .ok).length := by
    have hcounted := hsummary.counted
    rw [hsummary.requested, hsummary.successful] at hcounted
    change aggregated.results.length =
      (aggregated.results.filter fun r => ProviderResult.status r = .ok).length + _ at hcounted
    omega
  refine
    { chain := rfl, shown := ?_, asked := ?_, order := ⟨selected, hresolves, horder⟩, requested := ?_
      entries := hentries.keys, entry := ?_, echoed := ?_
      requestedCount := hsummary.requested.trans hentries.size.symm
      successfulCount := hsummary.successful.trans hsuccessful.symm
      failedCount := hfailures.trans hfailed.symm, absent := ?_, first := ?_, bounds := ?_, attained := ?_
      median := ?_ }
  · obtain ⟨metadata, hmetadata, hshownIn, hshownOut⟩ := hanswered.shown
    have hofs : ∀ token ∈ [remappedIn, remappedOut], ∃ text, token.Of service.eth chainId text := by
      intro token htoken
      rcases List.mem_pair.1 htoken with rfl | rfl
      · exact ⟨tokenIn, hofIn⟩
      · exact ⟨tokenOut, hofOut⟩
    obtain ⟨refs, merged, hrefs, hmerged, hknown⟩ := responseMetadata_known hofs hmetadata
    obtain ⟨askedIn, -, haskedIn, htokenIn⟩ := hofIn.asked
    obtain ⟨askedOut, -, haskedOut, htokenOut⟩ := hofOut.asked
    rw [List.map_cons, List.map_singleton, htokenIn, htokenOut] at hrefs
    refine ⟨amount, askedIn, askedOut, aggregated, refs, hamount, haskedIn, haskedOut, ?_, hentries.get?_iff, hrefs,
      shown_token hofIn hmerged (hknown remappedIn (by simp)) hshownIn,
      shown_token hofOut hmerged (hknown remappedOut (by simp)) hshownOut⟩
    rw [← htokenIn, ← htokenOut]
    exact hanswered.call
  · obtain ⟨askedIn, -, haskedIn, htokenIn⟩ := hofIn.asked
    obtain ⟨askedOut, -, haskedOut, htokenOut⟩ := hofOut.asked
    have hlegal : IsUint256 amount := isUint256_of_parse hamount
    obtain ⟨requests, hasks, hdispatched, hnothing⟩ :=
      aggregate_asks (Aggregator.quoteAggregation_closes service.eth hlegal) hrun
    rw [htokenIn, htokenOut] at hasks
    refine ⟨amount, askedIn, askedOut, requests, hamount, haskedIn, haskedOut, hasks, hdispatched,
      fun hempty id entry hget => ?_⟩
    obtain ⟨r, hr, -, rfl⟩ := (hentries.get?_iff id entry).1 hget
    exact hnothing hempty r hr
  · intro ids hrequested
    rw [hrequested] at horder
    exact horder.eq_of_all (hresolves.requested ids hrequested) (requestedProviders_nodup hrequested)
  · intro id entry hget
    obtain ⟨r, hr, -, rfl⟩ := (hentries.get?_iff id entry).1 hget
    exact decide_eq_true_iff
  · intro id entry hget hok
    obtain ⟨r, hr, -, rfl⟩ := (hentries.get?_iff id entry).1 hget
    refine ⟨amount, hamount, ?_, (hquoted r hr).error hok⟩
    show baseUnitString r.amountIn = some (toString amount)
    rw [hechoes r hr hok]
    rfl
  · exact Option.map_eq_none_iff.trans habsent
  · intro chosen hchosen
    obtain ⟨r, hr, rfl⟩ := Option.map_eq_some_iff.1 hchosen
    exact ⟨quoteProviderEntry r, hfirst r hr, rfl, rfl, rfl, rfl, rfl⟩
  · intro id entry hget hok
    obtain ⟨r, hr, -, rfl⟩ := (hentries.get?_iff id entry).1 hget
    obtain ⟨paid, hpaid, hpos, hmax⟩ := (hquoted r hr).amountOut hok
    have hmem : paid ∈ okAmounts aggregated.results := mem_okAmounts.2 ⟨r, hr, hok, hpaid⟩
    obtain ⟨low, high, hlow, hhigh, hleast, hgreatest⟩ := hsummary.extremes (List.ne_nil_of_mem hmem)
    refine ⟨paid, low, high, congrArg baseUnitString hpaid, hpos, hmax, congrArg baseUnitString hlow,
      congrArg baseUnitString hhigh, hleast.2 hmem, hgreatest.2 hmem, ?_⟩
    intro text htext
    obtain ⟨least, hmin, rfl⟩ := Option.map_eq_some_iff.1 htext
    exact ⟨least, rfl, (hquoted r hr).amountOutMin hok least hmin paid hpaid⟩
  · intro text htext
    obtain ⟨n, hn, rfl⟩ : ∃ n, n ∈ okAmounts aggregated.results ∧ toString n = text := by
      rcases htext with hlow | hhigh
      · obtain ⟨n, hn, rfl⟩ := Option.map_eq_some_iff.1 hlow
        exact ⟨n, (hsummary.least n hn).1, rfl⟩
      · obtain ⟨n, hn, rfl⟩ := Option.map_eq_some_iff.1 hhigh
        exact ⟨n, (hsummary.greatest n hn).1, rfl⟩
    obtain ⟨r, hr, hok, hpaid⟩ := mem_okAmounts.1 hn
    exact ⟨r.provider, quoteProviderEntry r, (hentries.get?_iff _ _).2 ⟨r, hr, rfl, rfl⟩, hok,
      congrArg baseUnitString hpaid⟩
  · intro text htext
    obtain ⟨median, hmedian, rfl⟩ := Option.map_eq_some_iff.1 htext
    have hne : okAmounts aggregated.results ≠ [] := hsummary.median.1 (Option.isSome_of_mem hmedian)
    obtain ⟨low, high, hlow, hhigh, -, -⟩ := hsummary.extremes hne
    exact ⟨median, low, high, rfl, congrArg baseUnitString hlow, congrArg baseUnitString hhigh,
      hsummary.between median hmedian low hlow high hhigh⟩

end Response

/-! ### A request -/

def Example.quoteService : QuoteService WeightedLimiter where
  settings := .default
  registry := .new Example.registrySettings
  quoteProviderPriority := ["lifi", "curve"]
  eth := Example.eth
  lower := id
  env := Example.aggregatorEnv Example.answering
  resolver := VaultResolver.resolveQuoteRequest Example.eth (fun _ => true) (Example.detectInput Example.ordinaryVault)
    Example.lastBlock
  metadata := Example.metadataSide

/-- The request is for a migrated token, and names two providers. -/
def Example.askedQuote (tokenIn : String) (useUnderlying : Bool) :=
  Example.quoteService.quote 1 tokenIn Example.migrated "1000000" (some ["curve,lifi"]) useUnderlying none
    Example.aggregatorWorld

/-- The token that a response shows as the one that is bought, and what the providers were asked about. -/
def Example.boughtAndAsked
    (run : Except HttpFailure QuoteAggregateResponse ×
      AggregatorWorld WeightedLimiter ProviderQuoteRequest QuoteResult) :
    Option (String × List (String × String × Int)) :=
  run.1.toOption.map fun response =>
    (response.tokenOut.address,
      run.2.dispatched.map fun req => (req.tokenIn.address, req.tokenOut.address, req.amountIn))

private theorem boughtAndAsked_vault :
    Example.boughtAndAsked (Example.askedQuote Example.savingsDai true) =
      some ("0xa3CC91589fEEDbBeE0CFdC7404041E19CB00f110",
        [(Example.dai, "0x4e3FBD56CD56c3e72c1403e103b45Db9da5B9D2B", 2000000)]) := by
  decide +kernel

private theorem of_boughtAndAsked
    {run : Except HttpFailure QuoteAggregateResponse × AggregatorWorld WeightedLimiter ProviderQuoteRequest QuoteResult}
    {bought : String} {asked : List (String × String × Int)} (h : Example.boughtAndAsked run = some (bought, asked)) :
    ∃ response w', run = (.ok response, w') ∧ response.tokenOut.address = bought ∧
      (w'.dispatched.map fun req => (req.tokenIn.address, req.tokenOut.address, req.amountIn)) = asked := by
  rcases run with ⟨e | response, w'⟩
  · cases h
  · obtain ⟨hbought, hasked⟩ := Prod.mk.inj (Option.some.inj h)
    exact ⟨response, w', rfl, hbought, hasked⟩

/-- LI.FI has no key, and the quote is that of Curve.  The shares of the vault are sold as the DAI that they are worth,
for what the migrated token was migrated to. -/
theorem quote_response_consistent_curve :
    ∃ response w', Example.askedQuote Example.savingsDai true = (.ok response, w') ∧
      response.Consistent Example.quoteService 1 Example.savingsDai Example.migrated "1000000" (some ["curve,lifi"])
        true none Example.aggregatorWorld w' ∧
      response.tokenOut.address = "0xa3CC91589fEEDbBeE0CFdC7404041E19CB00f110" ∧
      (w'.dispatched.map fun req => (req.tokenIn.address, req.tokenOut.address, req.amountIn)) =
        [(Example.dai, "0x4e3FBD56CD56c3e72c1403e103b45Db9da5B9D2B", 2000000)] := by
  obtain ⟨response, w', hasked, hbought, hdispatched⟩ := of_boughtAndAsked boughtAndAsked_vault
  exact ⟨response, w', hasked, quote_response_consistent Example.quoteService Example.documented Example.lawful 1
    Example.savingsDai Example.migrated "1000000" (some ["curve,lifi"]) true none Example.aggregatorWorld w' response
    hasked, hbought, hdispatched⟩

/-! ### Every request is answered -/

section Answered

variable {V : Type} {service : QuoteService V} {chainId : Int} {tokenIn tokenOut amountIn : String}
  {providers : Option (List String)} {timeoutMs : Option Int}
  {w w' : AggregatorWorld V ProviderQuoteRequest QuoteResult}

/-- The tokens of a result went through the validators of the models. -/
def QuoteResult.TokensValidated (eth : EthUtils) (r : QuoteResult) : Prop :=
  (∀ token ∈ r.tokens, Validated eth token.address) ∧ ∀ underlying ∈ r.underlyings, Validated eth underlying

/-- The request is refused before a plugin runs. -/
def QuoteService.Refuses (service : QuoteService V) (chainId : Int) (tokenIn tokenOut amountIn : String)
    (providers : Option (List String)) (type message : String) : Prop :=
  normalizeQuoteRequest service.eth chainId tokenIn tokenOut amountIn = .error (.invalidRequest type message) ∨
    ((∃ accepted, normalizeQuoteRequest service.eth chainId tokenIn tokenOut amountIn = .ok accepted) ∧
      PickRefused service.registry .quote (requestedProviders service.lower providers) chainId type message)

/-- The global units of the plugins that run are not to be had. -/
def QuoteService.Overloaded (service : QuoteService V) (chainId : Int) (tokenIn tokenOut amountIn : String)
    (providers : Option (List String)) (timeoutMs : Option Int)
    (w : AggregatorWorld V ProviderQuoteRequest QuoteResult) : Prop :=
  ∃ req remapped selected, normalizeQuoteRequest service.eth chainId tokenIn tokenOut amountIn = .ok (req, remapped) ∧
    service.registry.resolve (requestedProviders service.lower providers) .quote chainId = .ok selected ∧
    Runner.GlobalReservationFails service.settings quoteOperation service.env.schedule
      ((quoteAggregation service.eth).withTimeout timeoutMs req) selected
      (w.runner.onShared service.env.runnerMeanwhile)

/-- What a request needs to be answered: nobody cancels it, the database answers, and what the plugins hand over is
harmless to the runner and went through the validators. -/
structure QuoteService.Answers (service : QuoteService V) (chainId : Int) (tokenIn tokenOut amountIn : String)
    (providers : Option (List String)) (timeoutMs : Option Int)
    (w : AggregatorWorld V ProviderQuoteRequest QuoteResult) : Prop where
  uncancelled : Runner.Uncancelled service.env.schedule
  writes : service.metadata.writes = .ok ()
  observes : service.metadata.observes = .ok ()
  validated : ∀ place req run a, Validated service.eth req.tokenIn.address →
    Validated service.eth req.tokenOut.address → service.env.schedule.task place req = some run →
    run.call = .returned a → a.val.TokensValidated service.eth
  harmless : ∀ req remapped selected,
    normalizeQuoteRequest service.eth chainId tokenIn tokenOut amountIn = .ok (req, remapped) →
    service.registry.resolve (requestedProviders service.lower providers) .quote chainId = .ok selected →
    Runner.AdmitsHarmless service.settings quoteOperation acceptedQuote service.env.schedule
      ((quoteAggregation service.eth).withTimeout timeoutMs req) selected
      (Aggregator.deadlineMs service.settings (quoteAggregation service.eth) timeoutMs)
      (w.runner.onShared service.env.runnerMeanwhile)

private theorem QuoteService.handle_error {payload : QuoteRequest} {req : ProviderQuoteRequest}
    {remapped : RemappedToken × RemappedToken} {failure : HttpFailure}
    (hnormalized : normalizeQuoteRequest service.eth payload.chainId payload.tokenIn payload.tokenOut payload.amountIn =
      .ok (req, remapped))
    (hcall : service.call payload timeoutMs req w = (.error failure, w')) :
    service.handle payload timeoutMs w = (.error failure, w') := by
  unfold QuoteService.handle
  rw [hnormalized]
  exact bind_error hcall _

/-- After the call nothing goes wrong, if the database answers. -/
private theorem QuoteService.handle_returns
    (hlaw : service.eth.Lawful) (payload : QuoteRequest) (hpos : 0 < payload.chainId)
    (henabled : payload.chainId ∈ service.registry.chainIds) (hwrites : service.metadata.writes = .ok ())
    (hobserves : service.metadata.observes = .ok ()) {req : ProviderQuoteRequest}
    {remappedIn remappedOut : RemappedToken}
    (hnormalized : normalizeQuoteRequest service.eth payload.chainId payload.tokenIn payload.tokenOut payload.amountIn =
      .ok (req, remappedIn, remappedOut))
    (hofIn : remappedIn.Of service.eth payload.chainId payload.tokenIn)
    (hofOut : remappedOut.Of service.eth payload.chainId payload.tokenOut)
    {aggregated : Aggregated QuoteResult AggregateQuoteSummary}
    (hcall : service.call payload timeoutMs req w = (.ok aggregated, w'))
    (hresults : ∀ r ∈ aggregated.results, r.TokensValidated service.eth) :
    ∃ response, service.handle payload timeoutMs w = (.ok response, w') := by
  have hofs : ∀ token ∈ [remappedIn, remappedOut], ∃ text, token.Of service.eth payload.chainId text := by
    intro token htoken
    rcases List.mem_pair.1 htoken with rfl | rfl
    · exact ⟨payload.tokenIn, hofIn⟩
    · exact ⟨payload.tokenOut, hofOut⟩
  obtain ⟨metadata, hmetadata⟩ := responseMetadata_returns hlaw hpos henabled hwrites hobserves hofs hresults w'
  obtain ⟨refs, merged, -, -, hknown⟩ := responseMetadata_known hofs hmetadata
  obtain ⟨shownIn, hshownIn⟩ := metadataForAddress_returns hpos hofIn (hknown remappedIn (by simp))
  obtain ⟨shownOut, hshownOut⟩ := metadataForAddress_returns hpos hofOut (hknown remappedOut (by simp))
  refine ⟨quoteResponse payload.chainId aggregated shownIn shownOut, ?_⟩
  unfold QuoteService.handle
  rw [hnormalized]
  refine bind_eq_ok.2 ⟨(req, remappedIn, remappedOut), w, rfl, bind_eq_ok.2 ⟨aggregated, w', hcall, ?_⟩⟩
  refine bind_eq_ok.2 ⟨metadata, w', hmetadata, ?_⟩
  rw [hshownIn]
  refine bind_eq_ok.2 ⟨shownIn, w', rfl, ?_⟩
  rw [hshownOut]
  rfl

/-- `quote` is the handler behind the checks of the query. -/
private theorem quote_of_handle {useUnderlying : Bool} (hpos : 0 < chainId) (hlongIn : LongEnough tokenIn)
    (hlongOut : LongEnough tokenOut) {outcome : Except HttpFailure QuoteAggregateResponse}
    (h : service.handle
      { chainId, tokenIn, tokenOut, amountIn, useUnderlying, providers := requestedProviders service.lower providers }
      timeoutMs w = (outcome, w')) :
    service.quote chainId tokenIn tokenOut amountIn providers useUnderlying timeoutMs w =
      (outcome.mapError HttpFailure.handled, w') := by
  have hnew : QuoteRequest.new service.lower chainId tokenIn tokenOut amountIn providers useUnderlying =
      .ok { chainId, tokenIn, tokenOut, amountIn, useUnderlying
            providers := requestedProviders service.lower providers } :=
    if_pos ⟨hpos, hlongIn, hlongOut⟩
  unfold QuoteService.quote
  rw [hnew]
  exact mapError_run h _

/-- The results of the call went through the validators: the runner's own failures name the tokens of the request. -/
private theorem establishes_validated_quotes
    {eth : EthUtils} {schedule : Schedule ProviderQuoteRequest AcceptedQuoteResult}
    (hvalidated : ∀ place req run a, Validated eth req.tokenIn.address → Validated eth req.tokenOut.address →
      schedule.task place req = some run → run.call = .returned a → a.val.TokensValidated eth)
    {req : ProviderQuoteRequest} (hin : Validated eth req.tokenIn.address) (hout : Validated eth req.tokenOut.address) :
    Runner.Establishes quoteOperation schedule req (QuoteResult.TokensValidated eth) := by
  refine Runner.establishes_quote ?_ fun place run a => hvalidated place req run a hin hout
  intro provider status latencyMs error r h
  rw [quoteFailure_ok h]
  refine ⟨?_, by simp [QuoteResult.underlyings]⟩
  intro token htoken
  rcases List.mem_pair.1 htoken with rfl | rfl
  · exact hin
  · exact hout

/-- A quote request about two tokens is refused with the reason before a plugin runs, is turned away for lack of global
units, or gets its response, whatever the plugins and the database answer. -/
theorem quote_request_answered {V : Type} (service : QuoteService V) {eip55 : List Char → List Char}
    (hdoc : service.eth.Documented eip55) (hlaw : service.eth.Lawful) {chainId : Int} (hpos : 0 < chainId)
    {tokenIn tokenOut : String} (hlongIn : LongEnough tokenIn) (hlongOut : LongEnough tokenOut) (amountIn : String)
    (providers : Option (List String)) (timeoutMs : Option Int)
    (w : AggregatorWorld V ProviderQuoteRequest QuoteResult)
    (hanswers : service.Answers chainId tokenIn tokenOut amountIn providers timeoutMs w) :
    (∃ type message, service.Refuses chainId tokenIn tokenOut amountIn providers type message ∧
      service.quote chainId tokenIn tokenOut amountIn providers false timeoutMs w =
        (.error (.httpException 400 type message none), w)) ∨
    (∃ w', service.Overloaded chainId tokenIn tokenOut amountIn providers timeoutMs w ∧
      service.quote chainId tokenIn tokenOut amountIn providers false timeoutMs w = (.error overloaded, w')) ∨
    ∃ response w',
      service.quote chainId tokenIn tokenOut amountIn providers false timeoutMs w = (.ok response, w') := by
  cases hnormalized : normalizeQuoteRequest service.eth chainId tokenIn tokenOut amountIn with
  | error e =>
    left
    obtain ⟨type, message, rfl, -⟩ := normalizeQuoteRequest_error hdoc hnormalized
    have hhandle : service.handle
        { chainId, tokenIn, tokenOut, amountIn, useUnderlying := false
          providers := requestedProviders service.lower providers } timeoutMs w =
        (.error (.raised (.exception (.invalidRequest type message))), w) := by
      unfold QuoteService.handle
      rw [hnormalized]
      rfl
    exact ⟨type, message, .inl hnormalized, quote_of_handle hpos hlongIn hlongOut hhandle⟩
  | ok accepted =>
    obtain ⟨req, remappedIn, remappedOut⟩ := accepted
    obtain ⟨amount, hamount, rfl, hofIn, hofOut⟩ := normalizeQuoteRequest_ok hdoc hlaw hlongIn hlongOut hnormalized
    obtain ⟨askedIn, hnormalIn, -, htokenIn⟩ := hofIn.asked
    obtain ⟨askedOut, hnormalOut, -, htokenOut⟩ := hofOut.asked
    have hlegal : IsUint256 amount := isUint256_of_parse hamount
    let req : ProviderQuoteRequest :=
      { chainId, tokenIn := remappedIn.token, tokenOut := remappedOut.token, amountIn := amount }
    have hvalid : IsUint256 ((quoteAggregation service.eth).withTimeout timeoutMs req).amountIn := by
      rw [withTimeout_amountIn]
      exact hlegal
    rcases aggregate_answers service.settings service.env req timeoutMs w 2 service.resolver usableQuoteResolution
        service.registry .quote chainId quoteOperation_sound hvalid
        (fun ids hids => requestedProviders_nodup hids) hanswers.uncancelled
        (fun selected hresolve => hanswers.harmless req _ selected hnormalized hresolve) (fun _ => rfl)
        (fun _ _ _ _ => ⟨_, rfl⟩) service.quoteProviderPriority with
      ⟨type, message, hrefused, hcall⟩ | ⟨selected, w', hresolve, hfails, hcall⟩ |
      ⟨selected, raw, r', aggregated, w', hresolve, hrun, hresults, hcall⟩
    · left
      refine ⟨type, message, .inr ⟨⟨_, hnormalized⟩, hrefused⟩, ?_⟩
      exact quote_of_handle hpos hlongIn hlongOut (QuoteService.handle_error hnormalized hcall)
    · right
      left
      refine ⟨w', ⟨req, _, selected, hnormalized, hresolve, hfails⟩, ?_⟩
      exact quote_of_handle hpos hlongIn hlongOut (QuoteService.handle_error hnormalized hcall)
    · right
      right
      have hin : Validated service.eth ((quoteAggregation service.eth).withTimeout timeoutMs req).tokenIn.address := by
        have htoken : ((quoteAggregation service.eth).withTimeout timeoutMs req).tokenIn = remappedIn.token := by
          cases timeoutMs <;> rfl
        rw [htoken, htokenIn]
        exact ⟨askedIn, hnormalIn⟩
      have hout :
          Validated service.eth ((quoteAggregation service.eth).withTimeout timeoutMs req).tokenOut.address := by
        have htoken : ((quoteAggregation service.eth).withTimeout timeoutMs req).tokenOut = remappedOut.token := by
          cases timeoutMs <;> rfl
        rw [htoken, htokenOut]
        exact ⟨askedOut, hnormalOut⟩
      have hvalidated := (establishes_validated_quotes hanswers.validated hin hout).of_returned hrun
      have hchain := (ProviderRegistry.resolve_ok hresolve).chain
      obtain ⟨response, hhandle⟩ := QuoteService.handle_returns hlaw
        { chainId, tokenIn, tokenOut, amountIn, useUnderlying := false
          providers := requestedProviders service.lower providers } hpos hchain hanswers.writes hanswers.observes
        hnormalized hofIn hofOut hcall fun r hr =>
          hvalidated r ((sortResults_perm raw).mem_iff.1 (hresults ▸ hr))
      exact ⟨response, w', quote_of_handle hpos hlongIn hlongOut hhandle⟩

end Answered

private theorem answering_returns {i : Nat} {req : ProviderQuoteRequest} {run : PluginRun AcceptedQuoteResult}
    {a : AcceptedQuoteResult} (h : Example.answering i req = some run) (hcall : run.call = .returned a) :
    a.val.tokens = [req.tokenIn, req.tokenOut] ∧ a.val.underlyings = [] ∧ a.val.error = none := by
  unfold Example.answering at h
  simp only [Option.dite_none_right_eq_some] at h
  obtain ⟨hvalid, hrun⟩ := h
  obtain rfl := Option.some.inj hrun
  obtain rfl := PluginCall.returned.inj hcall
  exact ⟨rfl, rfl, rfl⟩

private theorem askedQuote_answers :
    Example.quoteService.Answers 1 "0xa0b86991c6218b36c1d19d4a2e9eb0ce3606eb48" Example.migrated "1000000"
      (some ["curve,lifi"]) none Example.aggregatorWorld where
  uncancelled := .quiet _
  writes := rfl
  observes := rfl
  validated := by
    intro place req run a hin hout hrun hcall
    obtain ⟨htokens, hunderlyings, -⟩ := answering_returns hrun hcall
    unfold QuoteResult.TokensValidated
    rw [htokens, hunderlyings]
    refine ⟨fun token hmem => ?_, by simp⟩
    rcases List.mem_pair.1 hmem with rfl | rfl
    · exact hin
    · exact hout
  harmless := by
    intro req remapped selected _ _ w' _
    refine ⟨by decide +kernel, ?_, ?_⟩
    · intro hneg
      exact absurd hneg (by decide)
    · intro i plugin run r _ hrun haccepted info hinfo
      have hnone := rateLimited_handedOver haccepted fun a hcall => (answering_returns hrun hcall).2.2
      rw [hnone] at hinfo
      cases hinfo

theorem quote_request_answered_curve :
    (∃ type message, Example.quoteService.Refuses 1 "0xa0b86991c6218b36c1d19d4a2e9eb0ce3606eb48" Example.migrated
        "1000000" (some ["curve,lifi"]) type message ∧
      Example.askedQuote "0xa0b86991c6218b36c1d19d4a2e9eb0ce3606eb48" false =
        (.error (.httpException 400 type message none), Example.aggregatorWorld)) ∨
    (∃ w', Example.quoteService.Overloaded 1 "0xa0b86991c6218b36c1d19d4a2e9eb0ce3606eb48" Example.migrated "1000000"
        (some ["curve,lifi"]) none Example.aggregatorWorld ∧
      Example.askedQuote "0xa0b86991c6218b36c1d19d4a2e9eb0ce3606eb48" false = (.error overloaded, w')) ∨
    ∃ response w', Example.askedQuote "0xa0b86991c6218b36c1d19d4a2e9eb0ce3606eb48" false = (.ok response, w') :=
  quote_request_answered Example.quoteService Example.documented Example.lawful (by decide)
    (by decide +kernel) (by decide +kernel) "1000000" (some ["curve,lifi"]) none Example.aggregatorWorld
    askedQuote_answers

end TokenPriceAgg

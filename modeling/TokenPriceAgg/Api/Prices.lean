import TokenPriceAgg.Api.Aggregates
import TokenPriceAgg.Core.ConvertedAmounts
import TokenPriceAgg.Core.Summaries

/-!
# The price route

`price_response_consistent`: a response of `/v1/price` agrees with itself and with the request.  Its order is that of
the providers the request names, or of all that can price on the chain; its entries are in that order, and the summary
counts them; the selected price is the first success, and lies between the low and the high price of the summary.  A
migrated token is asked about under its new address and shown under its own, with what is known of the new one; a share
of a vault is asked about as its underlying token.

`price_request_answered`: without a vault resolution a request is refused with its reason before a plugin runs, is
turned away for lack of global units, or gets its response.
-/

namespace TokenPriceAgg

open PyLib Eff

structure PriceProviderEntry where
  status : ProviderStatus
  success : Bool
  price : Option Decimal
  latencyMs : Int
  asOf : Option Int
  error : Option ErrorInfo

structure PriceVaultContext where
  vaultType : Option VaultType
  underlyingToken : Option String
  pricePerShare : Rate
  blockNumber : Nat

structure SelectedPrice where
  provider : String
  price : Option Decimal
  latencyMs : Int
  asOf : Option Int
  vaultContext : Option PriceVaultContext

structure PriceAggregateResponse where
  chainId : Int
  token : TokenMetadataResponse
  providerOrder : List String
  priceData : Option SelectedPrice
  providers : Dict String PriceProviderEntry
  summary : AggregatePriceSummary

def priceProviderEntry (result : PriceResult) : PriceProviderEntry where
  status := result.status
  success := decide (result.status = .ok)
  price := result.priceUsd
  latencyMs := result.latencyMs
  asOf := result.asOf
  error := result.error

/-- `_to_price_vault_context`. -/
def toPriceVaultContext (vaultContext : Option VaultContext) : Option PriceVaultContext :=
  vaultContext.bind fun context => context.pricePerShare.map fun pricePerShare =>
    { vaultType := context.vaultType, underlyingToken := context.underlyingToken, pricePerShare
      blockNumber := context.blockNumber }

def selectedPrice (selected : PriceResult) : SelectedPrice where
  provider := selected.provider
  price := selected.priceUsd
  latencyMs := selected.latencyMs
  asOf := selected.asOf
  vaultContext := toPriceVaultContext selected.vaultContext

/-- The response made of the results. -/
def priceResponse (chainId : Int) (aggregated : Aggregated PriceResult AggregatePriceSummary)
    (token : TokenMetadataResponse) : PriceAggregateResponse where
  chainId := chainId
  token := token
  providerOrder := aggregated.providerOrder
  priceData := (selectPriceResult aggregated.providerOrder aggregated.byProvider).map selectedPrice
  providers := providersPayload priceProviderEntry aggregated
  summary := aggregated.summary

/-- `result.token`, where there is one. -/
def PriceResult.tokens (result : PriceResult) : List TokenRef := result.token.toList

/-- `result.vault_context.underlying_token`, where there is one. -/
def PriceResult.underlyings (result : PriceResult) : List String :=
  (result.vaultContext.bind (·.underlyingToken)).toList

/-- What the handler of `/v1/price` depends on. -/
structure PriceService (V : Type) where
  settings : Settings
  registry : ProviderRegistry
  priceProviderPriority : List String
  eth : EthUtils
  lower : String → String
  env : AggregatorEnv V ProviderPriceRequest AcceptedPriceResult
  resolver : ProviderPriceRequest → Eff V Raised (ProviderPriceRequest × VaultContext)
  metadata : MetadataSide

namespace PriceService

variable {V : Type} (service : PriceService V)

/-- The aggregate call of `_handle_price_request`. -/
def call (payload : PriceRequest) (timeoutMs : Option Int) (req : ProviderPriceRequest) :
    Route V ProviderPriceRequest PriceResult (Aggregated PriceResult AggregatePriceSummary) :=
  aggregateWithProviderOrder
    (aggregateSelected service.registry .price payload.providers payload.chainId fun selected =>
      aggregatePrices service.settings service.env service.resolver selected req payload.useUnderlying timeoutMs)
    payload.providers service.priceProviderPriority

/-- `_handle_price_request`. -/
def handle (payload : PriceRequest) (timeoutMs : Option Int) :
    Route V ProviderPriceRequest PriceResult PriceAggregateResponse := do
  let (req, token) ← raises (normalizePriceRequest service.eth payload.chainId payload.token)
  let aggregated ← service.call payload timeoutMs req
  let metadata ← responseMetadata service.eth service.registry.chainIds service.metadata payload.chainId
    PriceResult.tokens PriceResult.underlyings [token] aggregated.results
  let shown ← raises (metadataForAddress service.eth metadata token.named)
  pure (priceResponse payload.chainId aggregated shown)

/-- The handler of `/v1/price`, from the validated query on. -/
def price (chainId : Int) (token : String) (providers : Option (List String)) (useUnderlying : Bool)
    (timeoutMs : Option Int) : Route V ProviderPriceRequest PriceResult PriceAggregateResponse :=
  Eff.mapError HttpFailure.handled do
    let payload ← raises (PriceRequest.new service.lower chainId token providers useUnderlying)
    service.handle payload timeoutMs

end PriceService

/-! ### The results of a call -/

/-- A success has a price and no error. -/
def PriceResult.Priced (r : PriceResult) : Prop := r.status = .ok → r.priceUsd.isSome ∧ r.error = none

/-- The translation of vault shares changes the price of a success, and nothing else but the vault context. -/
structure PriceTranslated (r r' : PriceResult) : Prop where
  provider : r'.provider = r.provider
  status : r'.status = r.status
  price : r.priceUsd.isSome → r'.priceUsd.isSome
  error : r'.error = r.error

private theorem PriceTranslated.refl (r : PriceResult) : PriceTranslated r r := ⟨rfl, rfl, id, rfl⟩

private theorem applyPriceToResult_translated {context : VaultContext} {multiplier : Decimal} {r r' : PriceResult}
    (h : applyPriceToResult context multiplier r = .ok r') : PriceTranslated r r' := by
  unfold applyPriceToResult at h
  by_cases hok : r.status = .ok
  · rw [if_pos hok] at h
    cases hprice : r.priceUsd with
    | none =>
      rw [hprice] at h
      obtain rfl := Except.ok.inj h
      exact ⟨rfl, rfl, by simp [hprice], rfl⟩
    | some price =>
      rw [hprice] at h
      obtain ⟨priceUsd, -, rfl⟩ := Eff.except_map_eq_ok.1 h
      exact ⟨rfl, rfl, fun _ => rfl, rfl⟩
  · rw [if_neg hok] at h
    obtain rfl := Except.ok.inj h
    exact .refl r

private theorem applyPriceContext_translated {raw applied : List PriceResult} {context : Option VaultContext}
    (h : applyPriceContext raw context = .ok applied) : List.Forall₂ PriceTranslated raw applied := by
  have hrefl : List.Forall₂ PriceTranslated raw raw := List.forall₂_same.2 fun r _ => .refl r
  unfold applyPriceContext at h
  cases context with
  | none =>
    obtain rfl := Except.ok.inj h
    exact hrefl
  | some context =>
    dsimp only at h
    split at h
    · rename_i multiplier _
      obtain ⟨s, hrun⟩ : ∃ s, Eff.mapEach (fun r => Eff.ofExcept (applyPriceToResult context multiplier r)) raw () =
          (.ok applied, s) := ⟨_, Prod.ext h rfl⟩
      refine List.Forall₂.imp (fun r r' hr => ?_) (Eff.mapEach_ok hrun)
      obtain ⟨t, t', hturn⟩ := hr
      exact applyPriceToResult_translated (Prod.mk.inj hturn).1
    · obtain rfl := Except.ok.inj h
      exact hrefl
    · cases h

private theorem vaultResolutionPriceFailure_ok {plugin : ProviderPlugin} {req : ProviderPriceRequest}
    {failure : VaultResolutionFailure} {r : PriceResult} (h : vaultResolutionPriceFailure plugin req failure = .ok r) :
    r.provider = plugin.id ∧ r.status = .error := by
  unfold vaultResolutionPriceFailure PriceResult.new at h
  split at h
  · obtain rfl := Except.ok.inj h
    exact ⟨rfl, rfl⟩
  · cases h

private theorem priceAggregation_keeps : KeepsProviders priceAggregation where
  failure _ _ _ _ h := (vaultResolutionPriceFailure_ok h).1
  apply _ _ _ _ h := map_providers (applyPriceContext_translated h) fun _ _ hr => hr.provider

private theorem priced_carries {V : Type} (env : AggregatorEnv V ProviderPriceRequest AcceptedPriceResult) :
    Carries priceAggregation priceOperation env PriceResult.Priced where
  run req := Runner.establishes_price
    (fun _ _ _ _ r h hok => by
      have hvalid := PriceResult.valid_of_new h
      exact ⟨hvalid.ok_price hok, hvalid.ok_error hok⟩)
    fun _ _ a _ _ hok => ⟨a.property.ok_price hok, a.property.ok_error hok⟩
  failure _ _ _ r h hok := by
    rw [(vaultResolutionPriceFailure_ok h).2] at hok
    cases hok
  apply _ _ _ _ h := forall_mem_of_forall₂ (applyPriceContext_translated h) fun r r' hr hpriced hok => by
    obtain ⟨hprice, herror⟩ := hpriced (hr.status ▸ hok)
    exact ⟨hr.price hprice, hr.error.trans herror⟩

/-! ### The summary -/

/-- What the summary of any results says, whatever their prices are. -/
structure PriceExtremes (results : List PriceResult) (summary : AggregatePriceSummary) : Prop where
  requested : summary.requestedProviders = results.length
  successful : summary.successfulProviders = (results.filter fun result => result.status = .ok).length
  failed : summary.failedProviders = results.length - (results.filter fun result => result.status = .ok).length
  high : summary.highPrice.isSome ↔ okPrices results ≠ []
  greatest : ∀ d ∈ summary.highPrice, d ∈ okPrices results ∧ ∀ p ∈ okPrices results, p.toRat ≤ d.toRat
  low : summary.lowPrice.isSome ↔ okPrices results ≠ []
  least : ∀ d ∈ summary.lowPrice, d ∈ okPrices results ∧ ∀ p ∈ okPrices results, d.toRat ≤ p.toRat

private theorem buildPriceSummary_ok {results : List PriceResult} {summary : AggregatePriceSummary}
    (h : buildPriceSummary results = .ok summary) : PriceExtremes results summary := by
  unfold buildPriceSummary at h
  dsimp only at h
  rw [show (results.filter fun result => result.status = .ok).filterMap (fun result => result.priceUsd) =
    okPrices results from rfl] at h
  cases hprices : okPrices results with
  | nil =>
    rw [hprices] at h
    obtain rfl := Except.ok.inj h
    exact ⟨rfl, rfl, rfl, by simp [hprices], by simp, by simp [hprices], by simp⟩
  | cons p prices =>
    rw [hprices] at h
    obtain ⟨median, -, h⟩ := Eff.except_bind_eq_ok.1 h
    obtain ⟨deviation, -, h⟩ := Eff.except_bind_eq_ok.1 h
    obtain rfl := Except.ok.inj h
    refine ⟨rfl, rfl, rfl, by simp [hprices], ?_, by simp [hprices], ?_⟩
    · intro d hd
      obtain rfl := Option.some.inj hd
      rw [hprices]
      exact maxPrice_spec p prices
    · intro d hd
      obtain rfl := Option.some.inj hd
      rw [hprices]
      exact minPrice_spec p prices

/-! ### The response -/

/-- What a response says about the request and about itself. -/
structure PriceAggregateResponse.Consistent {V : Type} (service : PriceService V) (chainId : Int) (token : String)
    (providers : Option (List String)) (useUnderlying : Bool) (timeoutMs : Option Int)
    (w w' : AggregatorWorld V ProviderPriceRequest PriceResult) (response : PriceAggregateResponse) : Prop where
  chain : response.chainId = chainId
  /-- the entries are those of the results, and the token is shown as it is known when the tokens of the results are
  looked up with the one that the call was about -/
  shown : ∃ address aggregated refs, AskedAbout service.eth chainId token address ∧
    service.call { chainId, token, useUnderlying, providers := requestedProviders service.lower providers } timeoutMs
      { chainId, token := { chainId, address } } w = (.ok aggregated, w') ∧
    (∀ id entry, response.providers.get? id = some entry ↔
      ∃ r ∈ aggregated.results, r.provider = id ∧ priceProviderEntry r = entry) ∧
    responseRefs service.eth chainId PriceResult.tokens PriceResult.underlyings [{ chainId, address }]
      aggregated.results = .ok refs ∧
    ShownToken service.eth service.registry.chainIds service.metadata chainId token refs "provider" response.token
  /-- the providers are asked once, about the token or the one it was migrated to, or about the underlying one of that;
  if they are not asked, every entry says that the vault was not resolved -/
  asked : ∃ address requests, AskedAbout service.eth chainId token address ∧
    Asks service.settings service.env.vaultSide 1 service.resolver usablePriceContext
      { chainId, token := { chainId, address } } w.vault useUnderlying requests ∧
    w'.dispatched = w.dispatched ++ requests.map (priceAggregation.withTimeout timeoutMs) ∧
    (requests = [] → ∀ id entry, response.providers.get? id = some entry →
      entry.status = .error ∧ ∃ info ∈ entry.error, info.type = .vaultResolutionFailed)
  /-- the providers are those that the registry picks for the request -/
  order : ∃ selected, service.registry.Resolves (requestedProviders service.lower providers) .price chainId selected ∧
    ResponseOrder (selected.map ProviderPlugin.id)
      ((requestedProviders service.lower providers).getD service.priceProviderPriority) response.providerOrder
  requested : ∀ ids, requestedProviders service.lower providers = some ids → response.providerOrder = ids
  entries : response.providers.items.map Prod.fst = response.providerOrder
  entry : ∀ id entry, response.providers.get? id = some entry →
    (entry.success ↔ entry.status = .ok) ∧ (entry.status = .ok → entry.price.isSome ∧ entry.error = none)
  requestedCount : response.summary.requestedProviders = response.providers.size
  successfulCount : response.summary.successfulProviders = response.providers.items.countP fun p => p.2.success
  failedCount : response.summary.failedProviders = response.providers.items.countP fun p => !p.2.success
  /-- the selected price is that of the first success -/
  absent : response.priceData = none ↔ ∀ id entry, response.providers.get? id = some entry → entry.status ≠ .ok
  first : ∀ selected, response.priceData = some selected → ∃ entry,
    FirstSuccess PriceProviderEntry.status response.providerOrder response.providers selected.provider entry ∧
    entry.price = selected.price ∧ entry.latencyMs = selected.latencyMs ∧ entry.asOf = selected.asOf
  /-- the extremes of the summary are those of the successful entries -/
  bounds : ∀ id entry price, response.providers.get? id = some entry → entry.status = .ok → entry.price = some price →
    ∃ low ∈ response.summary.lowPrice, ∃ high ∈ response.summary.highPrice,
      low.toRat ≤ price.toRat ∧ price.toRat ≤ high.toRat
  attained : ∀ price, price ∈ response.summary.lowPrice ∨ price ∈ response.summary.highPrice →
    ∃ id entry, response.providers.get? id = some entry ∧ entry.status = .ok ∧ entry.price = some price

section Response

variable {V : Type} {service : PriceService V} {chainId : Int} {token : String} {providers : Option (List String)}
  {useUnderlying : Bool} {timeoutMs : Option Int} {w w' : AggregatorWorld V ProviderPriceRequest PriceResult}
  {response : PriceAggregateResponse}

/-- The steps of a request that is answered. -/
structure PriceAnswered (service : PriceService V) (chainId : Int) (token : String) (providers : Option (List String))
    (useUnderlying : Bool) (timeoutMs : Option Int) (w w' : AggregatorWorld V ProviderPriceRequest PriceResult)
    (req : ProviderPriceRequest) (remapped : RemappedToken) (aggregated : Aggregated PriceResult AggregatePriceSummary)
    (shown : TokenMetadataResponse) : Prop where
  long : LongEnough token
  normalized : normalizePriceRequest service.eth chainId token = .ok (req, remapped)
  call : service.call { chainId, token, useUnderlying, providers := requestedProviders service.lower providers }
    timeoutMs req w = (.ok aggregated, w')
  shown : ∃ metadata, responseMetadata service.eth service.registry.chainIds service.metadata chainId
    PriceResult.tokens PriceResult.underlyings [remapped] aggregated.results w' = (.ok metadata, w') ∧
    metadataForAddress service.eth metadata remapped.named = .ok shown

private theorem price_answered
    (h : service.price chainId token providers useUnderlying timeoutMs w = (.ok response, w')) :
    ∃ req remapped aggregated shown,
      PriceAnswered service chainId token providers useUnderlying timeoutMs w w' req remapped aggregated shown ∧
      response = priceResponse chainId aggregated shown := by
  obtain ⟨payload, w₁, hpayload, h₁⟩ := bind_eq_ok.1 (Eff.mapError_eq_ok h)
  obtain ⟨hnew, rfl⟩ := Eff.ofExcept_eq_ok hpayload
  obtain ⟨hlong, rfl⟩ : LongEnough token ∧ payload =
      { chainId, token, useUnderlying, providers := requestedProviders service.lower providers } := by
    unfold PriceRequest.new at hnew
    split at hnew
    · rename_i hvalid
      exact ⟨hvalid.2, (Except.ok.inj hnew).symm⟩
    · cases hnew
  obtain ⟨⟨req, remapped⟩, w₂, hraised, h₂⟩ := bind_eq_ok.1 h₁
  obtain ⟨hnormalized, rfl⟩ := Eff.ofExcept_eq_ok hraised
  obtain ⟨aggregated, w₃, hcall, h₃⟩ := bind_eq_ok.1 h₂
  obtain ⟨metadata, w₄, hmetadata, h₄⟩ := bind_eq_ok.1 h₃
  obtain ⟨shown, w₅, hshownRun, hpure⟩ := bind_eq_ok.1 h₄
  obtain ⟨hshown, rfl⟩ := Eff.ofExcept_eq_ok hshownRun
  cases hpure
  obtain ⟨rfl, -⟩ := responseMetadata_ok hmetadata
  exact ⟨req, remapped, aggregated, shown, ⟨hlong, hnormalized, hcall, metadata, hmetadata, hshown⟩, rfl⟩

private theorem mem_okPrices {results : List PriceResult} {price : Decimal} :
    price ∈ okPrices results ↔ ∃ r ∈ results, r.status = .ok ∧ r.priceUsd = some price := by
  unfold okPrices
  rw [List.mem_filterMap]
  constructor
  · rintro ⟨r, hr, hprice⟩
    obtain ⟨hmem, hok⟩ := List.mem_filter.1 hr
    exact ⟨r, hmem, of_decide_eq_true hok, hprice⟩
  · rintro ⟨r, hr, hok, hprice⟩
    exact ⟨r, List.mem_filter.2 ⟨hr, decide_eq_true hok⟩, hprice⟩

/-- Every response is consistent. -/
theorem price_response_consistent {V : Type} (service : PriceService V) {eip55 : List Char → List Char}
    (hdoc : service.eth.Documented eip55) (hlaw : service.eth.Lawful) (chainId : Int) (token : String)
    (providers : Option (List String)) (useUnderlying : Bool) (timeoutMs : Option Int)
    (w w' : AggregatorWorld V ProviderPriceRequest PriceResult) (response : PriceAggregateResponse)
    (h : service.price chainId token providers useUnderlying timeoutMs w = (.ok response, w')) :
    response.Consistent service chainId token providers useUnderlying timeoutMs w w' := by
  obtain ⟨req, remapped, aggregated, shown, hanswered, rfl⟩ := price_answered h
  obtain ⟨selected, hresolve, ⟨failed, hrun⟩, hserved⟩ := aggregate_served priceAggregation_keeps hanswered.call
  obtain ⟨rfl, hof⟩ := normalizePriceRequest_ok hdoc hlaw hanswered.long hanswered.normalized
  have hresolves := ProviderRegistry.resolve_ok hresolve
  have hids : (selected.map ProviderPlugin.id).Nodup :=
    hresolves.nodup fun ids hids => requestedProviders_nodup hids
  have hentries := hserved.entries hids priceProviderEntry
  have hpriced := hserved.carried _ (priced_carries service.env)
  have hextremes := buildPriceSummary_ok hserved.summary
  obtain ⟨habsent, hfirst⟩ := hentries.first_success PriceProviderEntry.status (fun _ => rfl) (hserved.selection hids)
  obtain ⟨hsuccessful, hfailed⟩ := hentries.count_success PriceProviderEntry.success fun _ => rfl
  have horder := hserved.response_order hids
  refine
    { chain := rfl, shown := ?_, asked := ?_, order := ⟨selected, hresolves, horder⟩, requested := ?_
      entries := hentries.keys, entry := ?_, requestedCount := hextremes.requested.trans hentries.size.symm
      successfulCount := hextremes.successful.trans hsuccessful.symm
      failedCount := hextremes.failed.trans hfailed.symm, absent := ?_, first := ?_, bounds := ?_, attained := ?_ }
  · obtain ⟨metadata, hmetadata, hshown⟩ := hanswered.shown
    have hofs : ∀ token' ∈ [remapped], ∃ text, token'.Of service.eth chainId text := by
      intro token' htoken'
      rw [List.mem_singleton.1 htoken']
      exact ⟨token, hof⟩
    obtain ⟨refs, merged, hrefs, hmerged, hknown⟩ := responseMetadata_known hofs hmetadata
    obtain ⟨address, -, hasked, htoken⟩ := hof.asked
    rw [List.map_singleton, htoken] at hrefs
    refine ⟨address, aggregated, refs, hasked, ?_, hentries.get?_iff, hrefs,
      shown_token hof hmerged (hknown remapped (List.mem_singleton_self _)) hshown⟩
    rw [← htoken]
    exact hanswered.call
  · obtain ⟨address, -, hasked, htoken⟩ := hof.asked
    obtain ⟨requests, hasks, hdispatched, hnothing⟩ := aggregate_asks (Aggregator.priceAggregation_closes _) hrun
    rw [htoken] at hasks
    refine ⟨address, requests, hasked, hasks, hdispatched, fun hempty id entry hget => ?_⟩
    obtain ⟨r, hr, -, rfl⟩ := (hentries.get?_iff id entry).1 hget
    exact hnothing hempty r hr
  · intro ids hrequested
    rw [hrequested] at horder
    exact horder.eq_of_all (hresolves.requested ids hrequested) (requestedProviders_nodup hrequested)
  · intro id entry hget
    obtain ⟨r, hr, -, rfl⟩ := (hentries.get?_iff id entry).1 hget
    exact ⟨decide_eq_true_iff, hpriced r hr⟩
  · exact Option.map_eq_none_iff.trans habsent
  · intro chosen hchosen
    obtain ⟨r, hr, rfl⟩ := Option.map_eq_some_iff.1 hchosen
    exact ⟨priceProviderEntry r, hfirst r hr, rfl, rfl, rfl⟩
  · intro id entry price hget hok hprice
    obtain ⟨r, hr, -, rfl⟩ := (hentries.get?_iff id entry).1 hget
    have hmem : price ∈ okPrices aggregated.results := mem_okPrices.2 ⟨r, hr, hok, hprice⟩
    have hne := List.ne_nil_of_mem hmem
    obtain ⟨low, hlow⟩ := Option.isSome_iff_exists.1 (hextremes.low.2 hne)
    obtain ⟨high, hhigh⟩ := Option.isSome_iff_exists.1 (hextremes.high.2 hne)
    exact ⟨low, hlow, high, hhigh, (hextremes.least low hlow).2 price hmem,
      (hextremes.greatest high hhigh).2 price hmem⟩
  · intro price hprice
    have hmem : price ∈ okPrices aggregated.results := by
      rcases hprice with hlow | hhigh
      · exact (hextremes.least price hlow).1
      · exact (hextremes.greatest price hhigh).1
    obtain ⟨r, hr, hok, hpriceUsd⟩ := mem_okPrices.1 hmem
    exact ⟨r.provider, priceProviderEntry r, (hentries.get?_iff _ _).2 ⟨r, hr, rfl, rfl⟩, hok, hpriceUsd⟩

end Response

/-! ### A request -/

/-- Curve has a price, and the others are not done at the deadline. -/
def Example.curvePrices (i : Nat) (req : ProviderPriceRequest) : Option (PluginRun AcceptedPriceResult) :=
  let result : PriceResult :=
    { provider := "curve", status := .ok, token := some req.token, priceUsd := some ⟨false, 15, -1⟩, latencyMs := 3 }
  if h : i = 1 ∧ result.Valid then some ⟨.returned ⟨result, h.2⟩, .zero, .zero⟩ else none

def Example.priceService : PriceService WeightedLimiter where
  settings := .default
  registry := .new Example.registrySettings
  priceProviderPriority := ["lifi", "curve"]
  eth := Example.eth
  lower := id
  env := Example.aggregatorEnv Example.curvePrices
  resolver := VaultResolver.resolvePriceRequest Example.eth (fun _ => true) (Example.detectInput Example.ordinaryVault)
    Example.lastBlock
  metadata := Example.metadataSide

/-- The request names a provider twice. -/
def Example.askedPrice (token : String) (useUnderlying : Bool) :=
  Example.priceService.price 1 token (some ["defillama, curve", " curve,lifi "]) useUnderlying none
    Example.aggregatorWorld

/-- The token that a response shows, and what the providers were asked about. -/
def Example.shownAndAsked
    (run : Except HttpFailure PriceAggregateResponse ×
      AggregatorWorld WeightedLimiter ProviderPriceRequest PriceResult) : Option (String × List String) :=
  run.1.toOption.map fun response => (response.token.address, run.2.dispatched.map fun req => req.token.address)

private theorem shownAndAsked_migrated :
    Example.shownAndAsked (Example.askedPrice Example.migrated true) =
      some ("0xa3CC91589fEEDbBeE0CFdC7404041E19CB00f110", ["0x4e3FBD56CD56c3e72c1403e103b45Db9da5B9D2B"]) := by
  decide +kernel

private theorem of_shownAndAsked
    {run : Except HttpFailure PriceAggregateResponse × AggregatorWorld WeightedLimiter ProviderPriceRequest PriceResult}
    {shown : String} {asked : List String}
    (h : Example.shownAndAsked run = some (shown, asked)) :
    ∃ response w', run = (.ok response, w') ∧ response.token.address = shown ∧
      (w'.dispatched.map fun req => req.token.address) = asked := by
  rcases run with ⟨e | response, w'⟩
  · cases h
  · obtain ⟨hshown, hasked⟩ := Prod.mk.inj (Option.some.inj h)
    exact ⟨response, w', rfl, hshown, hasked⟩

/-- DefiLlama is not done, LI.FI has no key, and the price is that of Curve.  The migrated token is asked about under
its new address, which is that of no vault. -/
theorem price_response_consistent_curve :
    ∃ response w', Example.askedPrice Example.migrated true = (.ok response, w') ∧
      response.Consistent Example.priceService 1 Example.migrated (some ["defillama, curve", " curve,lifi "]) true none
        Example.aggregatorWorld w' ∧
      response.token.address = "0xa3CC91589fEEDbBeE0CFdC7404041E19CB00f110" ∧
      (w'.dispatched.map fun req => req.token.address) = ["0x4e3FBD56CD56c3e72c1403e103b45Db9da5B9D2B"] := by
  obtain ⟨response, w', hasked, hshown, hdispatched⟩ := of_shownAndAsked shownAndAsked_migrated
  exact ⟨response, w', hasked, price_response_consistent Example.priceService Example.documented Example.lawful 1
    Example.migrated (some ["defillama, curve", " curve,lifi "]) true none Example.aggregatorWorld w' response hasked,
    hshown, hdispatched⟩

/-! ### Every request is answered -/

section Answered

variable {V : Type} {service : PriceService V} {chainId : Int} {token : String} {providers : Option (List String)}
  {useUnderlying : Bool} {timeoutMs : Option Int} {w w' : AggregatorWorld V ProviderPriceRequest PriceResult}

/-- The tokens of a result went through the validators of the models. -/
def PriceResult.TokensValidated (eth : EthUtils) (r : PriceResult) : Prop :=
  (∀ token ∈ r.tokens, Validated eth token.address) ∧ ∀ underlying ∈ r.underlyings, Validated eth underlying

/-- The request is refused before a plugin runs. -/
def PriceService.Refuses (service : PriceService V) (chainId : Int) (token : String) (providers : Option (List String))
    (type message : String) : Prop :=
  normalizePriceRequest service.eth chainId token = .error (.invalidRequest type message) ∨
    ((∃ accepted, normalizePriceRequest service.eth chainId token = .ok accepted) ∧
      PickRefused service.registry .price (requestedProviders service.lower providers) chainId type message)

/-- The global units of the plugins that run are not to be had. -/
def PriceService.Overloaded (service : PriceService V) (chainId : Int) (token : String)
    (providers : Option (List String)) (timeoutMs : Option Int)
    (w : AggregatorWorld V ProviderPriceRequest PriceResult) : Prop :=
  ∃ req remapped selected, normalizePriceRequest service.eth chainId token = .ok (req, remapped) ∧
    service.registry.resolve (requestedProviders service.lower providers) .price chainId = .ok selected ∧
    Runner.GlobalReservationFails service.settings priceOperation service.env.schedule
      (priceAggregation.withTimeout timeoutMs req) selected (w.runner.onShared service.env.runnerMeanwhile)

/-- What a request needs to be answered: nobody cancels it, the database answers, and what the plugins hand over is
harmless to the runner and went through the validators. -/
structure PriceService.Answers (service : PriceService V) (chainId : Int) (token : String)
    (providers : Option (List String)) (timeoutMs : Option Int)
    (w : AggregatorWorld V ProviderPriceRequest PriceResult) : Prop where
  uncancelled : Runner.Uncancelled service.env.schedule
  writes : service.metadata.writes = .ok ()
  observes : service.metadata.observes = .ok ()
  validated : ∀ place req run a, Validated service.eth req.token.address →
    service.env.schedule.task place req = some run → run.call = .returned a → a.val.TokensValidated service.eth
  harmless : ∀ req remapped selected, normalizePriceRequest service.eth chainId token = .ok (req, remapped) →
    service.registry.resolve (requestedProviders service.lower providers) .price chainId = .ok selected →
    Runner.AdmitsHarmless service.settings priceOperation acceptedPrice service.env.schedule
      (priceAggregation.withTimeout timeoutMs req) selected
      (Aggregator.deadlineMs service.settings priceAggregation timeoutMs)
      (w.runner.onShared service.env.runnerMeanwhile)

private theorem PriceService.handle_error
    {payload : PriceRequest} {req : ProviderPriceRequest} {remapped : RemappedToken}
    {failure : HttpFailure}
    (hnormalized : normalizePriceRequest service.eth payload.chainId payload.token = .ok (req, remapped))
    (hcall : service.call payload timeoutMs req w = (.error failure, w')) :
    service.handle payload timeoutMs w = (.error failure, w') := by
  unfold PriceService.handle
  rw [hnormalized]
  exact bind_error hcall _

/-- After the call nothing goes wrong, if the database answers. -/
private theorem PriceService.handle_returns
    (hlaw : service.eth.Lawful) (payload : PriceRequest) (hpos : 0 < payload.chainId)
    (henabled : payload.chainId ∈ service.registry.chainIds) (hwrites : service.metadata.writes = .ok ())
    (hobserves : service.metadata.observes = .ok ()) {req : ProviderPriceRequest} {remapped : RemappedToken}
    (hnormalized : normalizePriceRequest service.eth payload.chainId payload.token = .ok (req, remapped))
    (hof : remapped.Of service.eth payload.chainId payload.token)
    {aggregated : Aggregated PriceResult AggregatePriceSummary}
    (hcall : service.call payload timeoutMs req w = (.ok aggregated, w'))
    (hresults : ∀ r ∈ aggregated.results, r.TokensValidated service.eth) :
    ∃ response, service.handle payload timeoutMs w = (.ok response, w') := by
  have hofs : ∀ token ∈ [remapped], ∃ text, token.Of service.eth payload.chainId text := by
    intro token htoken
    rw [List.mem_singleton.1 htoken]
    exact ⟨payload.token, hof⟩
  obtain ⟨metadata, hmetadata⟩ := responseMetadata_returns hlaw hpos henabled hwrites hobserves hofs hresults w'
  obtain ⟨refs, merged, -, -, hknown⟩ := responseMetadata_known hofs hmetadata
  obtain ⟨shown, hshown⟩ := metadataForAddress_returns hpos hof (hknown remapped (List.mem_singleton_self _))
  refine ⟨priceResponse payload.chainId aggregated shown, ?_⟩
  unfold PriceService.handle
  rw [hnormalized]
  refine bind_eq_ok.2 ⟨(req, remapped), w, rfl, bind_eq_ok.2 ⟨aggregated, w', hcall, ?_⟩⟩
  refine bind_eq_ok.2 ⟨metadata, w', hmetadata, ?_⟩
  rw [hshown]
  rfl

/-- `price` is the handler behind the checks of the query. -/
private theorem price_of_handle {useUnderlying : Bool} (hpos : 0 < chainId) (hlong : LongEnough token)
    {outcome : Except HttpFailure PriceAggregateResponse}
    (h : service.handle { chainId, token, useUnderlying, providers := requestedProviders service.lower providers }
      timeoutMs w = (outcome, w')) :
    service.price chainId token providers useUnderlying timeoutMs w = (outcome.mapError HttpFailure.handled, w') := by
  have hnew : PriceRequest.new service.lower chainId token providers useUnderlying =
      .ok { chainId, token, useUnderlying, providers := requestedProviders service.lower providers } :=
    if_pos ⟨hpos, hlong⟩
  unfold PriceService.price
  rw [hnew]
  exact mapError_run h _

/-- The results of the call went through the validators: the runner's own failures name the token of the request. -/
private theorem establishes_validated_prices
    {eth : EthUtils} {schedule : Schedule ProviderPriceRequest AcceptedPriceResult}
    (hvalidated : ∀ place req run a, Validated eth req.token.address → schedule.task place req = some run →
      run.call = .returned a → a.val.TokensValidated eth)
    {req : ProviderPriceRequest} (hreq : Validated eth req.token.address) :
    Runner.Establishes priceOperation schedule req (PriceResult.TokensValidated eth) := by
  refine Runner.establishes_price ?_ fun place run a => hvalidated place req run a hreq
  intro provider status latencyMs error r h
  rw [priceFailure_ok h]
  refine ⟨?_, by simp [PriceResult.underlyings]⟩
  intro token htoken
  rw [List.mem_singleton.1 htoken]
  exact hreq

/-- A price request about a token is refused with the reason before a plugin runs, is turned away for lack of global
units, or gets its response, whatever the plugins and the database answer. -/
theorem price_request_answered {V : Type} (service : PriceService V) {eip55 : List Char → List Char}
    (hdoc : service.eth.Documented eip55) (hlaw : service.eth.Lawful) {chainId : Int} (hpos : 0 < chainId)
    {token : String} (hlong : LongEnough token) (providers : Option (List String)) (timeoutMs : Option Int)
    (w : AggregatorWorld V ProviderPriceRequest PriceResult)
    (hanswers : service.Answers chainId token providers timeoutMs w) :
    (∃ type message, service.Refuses chainId token providers type message ∧
      service.price chainId token providers false timeoutMs w = (.error (.httpException 400 type message none), w)) ∨
    (∃ w', service.Overloaded chainId token providers timeoutMs w ∧
      service.price chainId token providers false timeoutMs w = (.error overloaded, w')) ∨
    ∃ response w', service.price chainId token providers false timeoutMs w = (.ok response, w') := by
  cases hnormalized : normalizePriceRequest service.eth chainId token with
  | error e =>
    left
    obtain ⟨message, rfl⟩ := normalizePriceRequest_error hdoc hnormalized
    have hhandle : service.handle
        { chainId, token, useUnderlying := false, providers := requestedProviders service.lower providers }
        timeoutMs w = (.error (.raised (.exception (.invalidRequest "INVALID_ADDRESS" message))), w) := by
      unfold PriceService.handle
      rw [hnormalized]
      rfl
    exact ⟨_, message, .inl hnormalized, price_of_handle hpos hlong hhandle⟩
  | ok accepted =>
    obtain ⟨req, remapped⟩ := accepted
    obtain ⟨rfl, hof⟩ := normalizePriceRequest_ok hdoc hlaw hlong hnormalized
    obtain ⟨asked, hasked, -, hrequest⟩ := hof.asked
    have hsummary (selected : List ProviderPlugin) (raw : List PriceResult) (r' : World PriceResult)
        (hrun : runSelected service.settings priceAggregation priceOperation service.env selected
          { chainId, token := remapped.token } timeoutMs w = (.ok raw, r')) :
        ∃ summary, buildPriceSummary (sortResults raw) = .ok summary := by
      have hvalid := (Runner.establishes_valid_price service.env.schedule _).of_returned hrun
      obtain ⟨summary, hsummary, -⟩ :=
        buildPriceSummary_spec fun r hr => hvalid r ((sortResults_perm raw).mem_iff.1 hr)
      exact ⟨summary, hsummary⟩
    rcases aggregate_answers service.settings service.env { chainId, token := remapped.token } timeoutMs w 1
        service.resolver usablePriceContext service.registry .price chainId priceOperation_sound trivial
        (fun ids hids => requestedProviders_nodup hids) hanswers.uncancelled
        (fun selected hresolve => hanswers.harmless _ remapped selected hnormalized hresolve) (fun _ => rfl) hsummary
        service.priceProviderPriority with
      ⟨type, message, hrefused, hcall⟩ | ⟨selected, w', hresolve, hfails, hcall⟩ |
      ⟨selected, raw, r', aggregated, w', hresolve, hrun, hresults, hcall⟩
    · left
      refine ⟨type, message, .inr ⟨⟨_, hnormalized⟩, hrefused⟩, ?_⟩
      exact price_of_handle hpos hlong (PriceService.handle_error hnormalized hcall)
    · right
      left
      refine ⟨w', ⟨_, remapped, selected, hnormalized, hresolve, hfails⟩, ?_⟩
      exact price_of_handle hpos hlong (PriceService.handle_error hnormalized hcall)
    · right
      right
      have hreq : Validated service.eth (priceAggregation.withTimeout timeoutMs
          { chainId, token := remapped.token }).token.address := by
        have htoken : (priceAggregation.withTimeout timeoutMs { chainId, token := remapped.token }).token =
            remapped.token := by
          cases timeoutMs <;> rfl
        rw [htoken, hrequest]
        exact ⟨asked, hasked⟩
      have hvalidated := (establishes_validated_prices hanswers.validated hreq).of_returned hrun
      have hchain := (ProviderRegistry.resolve_ok hresolve).chain
      obtain ⟨response, hhandle⟩ := PriceService.handle_returns hlaw
        { chainId, token, useUnderlying := false, providers := requestedProviders service.lower providers } hpos hchain
        hanswers.writes hanswers.observes hnormalized hof hcall fun r hr =>
          hvalidated r ((sortResults_perm raw).mem_iff.1 (hresults ▸ hr))
      exact ⟨response, w', price_of_handle hpos hlong hhandle⟩

end Answered

private theorem curvePrices_returns {i : Nat} {req : ProviderPriceRequest} {run : PluginRun AcceptedPriceResult}
    {a : AcceptedPriceResult} (h : Example.curvePrices i req = some run) (hcall : run.call = .returned a) :
    a.val.token = some req.token ∧ a.val.vaultContext = none ∧ a.val.error = none := by
  unfold Example.curvePrices at h
  dsimp only at h
  split at h
  · obtain rfl := Option.some.inj h
    obtain rfl := PluginCall.returned.inj hcall
    exact ⟨rfl, rfl, rfl⟩
  · cases h

private theorem askedPrice_answers :
    Example.priceService.Answers 1 Example.migrated (some ["defillama, curve", " curve,lifi "]) none
      Example.aggregatorWorld where
  uncancelled := .quiet _
  writes := rfl
  observes := rfl
  validated := by
    intro place req run a hreq hrun hcall
    obtain ⟨htoken, hcontext, -⟩ := curvePrices_returns hrun hcall
    unfold PriceResult.TokensValidated PriceResult.tokens PriceResult.underlyings
    rw [htoken, hcontext]
    refine ⟨fun token hmem => ?_, by simp⟩
    rw [List.mem_singleton.1 hmem]
    exact hreq
  harmless := by
    intro req remapped selected _ _ w' _
    refine ⟨by decide +kernel, ?_, ?_⟩
    · intro hneg
      exact absurd hneg (by decide)
    · intro i plugin run r _ hrun haccepted info hinfo
      have hnone := rateLimited_handedOver haccepted fun a hcall => (curvePrices_returns hrun hcall).2.2
      rw [hnone] at hinfo
      cases hinfo

theorem price_request_answered_curve :
    (∃ type message, Example.priceService.Refuses 1 Example.migrated (some ["defillama, curve", " curve,lifi "]) type
        message ∧
      Example.askedPrice Example.migrated false =
        (.error (.httpException 400 type message none), Example.aggregatorWorld)) ∨
    (∃ w', Example.priceService.Overloaded 1 Example.migrated (some ["defillama, curve", " curve,lifi "]) none
        Example.aggregatorWorld ∧
      Example.askedPrice Example.migrated false = (.error overloaded, w')) ∨
    ∃ response w', Example.askedPrice Example.migrated false = (.ok response, w') :=
  price_request_answered Example.priceService Example.documented Example.lawful (by decide)
    (by decide +kernel) (some ["defillama, curve", " curve,lifi "]) none Example.aggregatorWorld askedPrice_answers

end TokenPriceAgg

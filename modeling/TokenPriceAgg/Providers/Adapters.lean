import TokenPriceAgg.Providers.HttpHelpers

/-!
# The provider adapters

`get_price` and `get_quote` of the four providers.  The end of the HTTP call is a parameter, and so is what an adapter
makes of a payload of status 200; everything it does before the call and on any other end of it is here.
-/

namespace TokenPriceAgg

open PyLib

/-! ### `chains.py` -/

/-- An entry of `CHAINS`; `curve_name` is in a URL only. -/
structure Chain where
  defillamaName : String

def chains : List (Int × Chain) :=
  [(1, ⟨"ethereum"⟩), (10, ⟨"optimism"⟩), (100, ⟨"xdai"⟩), (137, ⟨"polygon"⟩), (42161, ⟨"arbitrum"⟩), (43114, ⟨"avax"⟩)]

/-- `CHAINS[chain_id]`. -/
def chainOf (chainId : Int) : Except Exn Chain :=
  match chains.lookup chainId with
  | none => .error (.other "KeyError")
  | some chain => .ok chain

private theorem chainOf_eq_ok {chainId : Int} {chain : Chain} :
    chainOf chainId = .ok chain ↔ chains.lookup chainId = some chain := by
  unfold chainOf
  cases chains.lookup chainId <;> simp

private theorem chainOf_none {chainId : Int} (h : ¬ (chains.lookup chainId).isSome) :
    chainOf chainId = .error (.other "KeyError") := by
  unfold chainOf
  rw [Option.not_isSome_iff_eq_none.1 h]

/-! ### The transport -/

/-- `PriceResult(...)` in an adapter. -/
def PriceResult.accept (r : PriceResult) : Except Exn AcceptedPriceResult :=
  if h : r.Valid then .ok ⟨r, h⟩ else .error .validationError

/-- `QuoteResult(...)` in an adapter. -/
def QuoteResult.accept (r : QuoteResult) : Except Exn AcceptedQuoteResult :=
  if h : r.Valid then .ok ⟨r, h⟩ else .error .validationError

section Adapters

variable {Obj Arr : Type} (dates : HttpDates) (latencyMs : Millis) (outcome : ClientOutcome Obj Arr)
  (onPrice : Obj → Millis → ProviderPriceRequest → Except Exn AcceptedPriceResult)
  (onCoin : String → Obj → Millis → ProviderPriceRequest → Except Exn AcceptedPriceResult)
  (onQuote : Obj → Millis → ProviderQuoteRequest → Except Exn AcceptedQuoteResult)

/-- A failed price result of an adapter. -/
def failedPrice (id : String) (req : ProviderPriceRequest) (status : ProviderStatus) (latencyMs : Millis)
    (error : ErrorInfo) : Except Exn AcceptedPriceResult :=
  PriceResult.accept
    { provider := id, status, token := some req.token, latencyMs := latencyMs.val, error := some error }

/-- A failed quote result of an adapter. -/
def failedQuote (id : String) (req : ProviderQuoteRequest) (status : ProviderStatus) (latencyMs : Millis)
    (error : ErrorInfo) : Except Exn AcceptedQuoteResult :=
  QuoteResult.accept
    { provider := id, status, tokenIn := some req.tokenIn, tokenOut := some req.tokenOut
      amountIn := some req.amountIn, latencyMs := latencyMs.val, error := some error }

/-- The `get_price` that the adapters share. -/
def transportPrice (id providerName invalidJsonMessage : String) (req : ProviderPriceRequest) :
    Except Exn AcceptedPriceResult := do
  let call ← timedGet latencyMs outcome
  let transport ← jsonTransportOutcome dates call providerName invalidJsonMessage
  match transport.result with
  | .error failure => failedPrice id req failure.status failure.latencyMs failure.toErrorInfo
  | .ok payload => onPrice payload transport.latencyMs req

/-- The `get_quote` that the adapters share. -/
def transportQuote (id providerName invalidJsonMessage : String) (req : ProviderQuoteRequest) :
    Except Exn AcceptedQuoteResult := do
  let call ← timedGet latencyMs outcome
  let transport ← jsonTransportOutcome dates call providerName invalidJsonMessage
  match transport.result with
  | .error failure => failedQuote id req failure.status failure.latencyMs failure.toErrorInfo
  | .ok payload => onQuote payload transport.latencyMs req

namespace DefiLlamaProvider

def id : String := "defillama"

/-- `get_price`; it makes the name of the coin before the call, and looks for it in the payload. -/
def getPrice (req : ProviderPriceRequest) : Except Exn AcceptedPriceResult := do
  let chain ← chainOf req.chainId
  let coin := chain.defillamaName ++ ":" ++ req.token.address
  transportPrice dates latencyMs outcome (onCoin coin) id "DefiLlama" "Invalid DefiLlama JSON response" req

end DefiLlamaProvider

namespace CurveProvider

def id : String := "curve"

/-- `get_price`; the URL of the call has the `curve_name` of the chain. -/
def getPrice (req : ProviderPriceRequest) : Except Exn AcceptedPriceResult := do
  let _chain ← chainOf req.chainId
  transportPrice dates latencyMs outcome onPrice id "Curve" "Invalid JSON response" req

/-- `get_quote`; it looks at the response itself, which may hold an array. -/
def getQuote (onResponse : HttpResponse Obj Arr → Millis → ProviderQuoteRequest → Except Exn AcceptedQuoteResult)
    (req : ProviderQuoteRequest) : Except Exn AcceptedQuoteResult := do
  let call ← timedGet latencyMs outcome
  if call.timeout then failedQuote id req .error call.latencyMs (timeoutErrorInfo call "Curve")
  else
    match call.httpError with
    | some message => failedQuote id req .error call.latencyMs { type := .upstreamHttp, message }
    | none =>
      match call.response with
      | none => failedQuote id req .error call.latencyMs { type := .upstreamHttp, message := "Curve response missing" }
      | some response =>
        match ← non200Status dates response "Curve" with
        | some statusFailure => failedQuote id req statusFailure.status call.latencyMs statusFailure.toErrorInfo
        | none => onResponse response call.latencyMs req

end CurveProvider

namespace LiFiProvider

def id : String := "lifi"

def getPrice (req : ProviderPriceRequest) : Except Exn AcceptedPriceResult :=
  transportPrice dates latencyMs outcome onPrice id "LI.FI" "Invalid JSON response" req

def getQuote (req : ProviderQuoteRequest) : Except Exn AcceptedQuoteResult :=
  transportQuote dates latencyMs outcome onQuote id "LI.FI" "Invalid JSON response" req

end LiFiProvider

namespace EnsoProvider

def id : String := "enso"

def getPrice (req : ProviderPriceRequest) : Except Exn AcceptedPriceResult :=
  transportPrice dates latencyMs outcome onPrice id "Enso" "Invalid JSON response" req

def getQuote (req : ProviderQuoteRequest) : Except Exn AcceptedQuoteResult :=
  transportQuote dates latencyMs outcome onQuote id "Enso" "Invalid JSON response" req

end EnsoProvider

/-! ### All of them -/

inductive PriceAdapter
  | defiLlama
  | curve
  | liFi
  | enso

inductive QuoteAdapter
  | curve
  | liFi
  | enso

/-- What the registry sets on a plugin. -/
structure Registration where
  enabledChains : List Int
  available : Bool
  unavailableReason : Option String

/-- What the price adapters do with a payload of status 200; DefiLlama looks for a coin in it. -/
structure PricePayloads (Obj : Type) where
  onPayload : Obj → Millis → ProviderPriceRequest → Except Exn AcceptedPriceResult
  onCoin : String → Obj → Millis → ProviderPriceRequest → Except Exn AcceptedPriceResult

/-- What the quote adapters do with a response of status 200. -/
structure QuotePayloads (Obj Arr : Type) where
  onPayload : Obj → Millis → ProviderQuoteRequest → Except Exn AcceptedQuoteResult
  onResponse : HttpResponse Obj Arr → Millis → ProviderQuoteRequest → Except Exn AcceptedQuoteResult

def PriceAdapter.plugin (registration : Registration) : PriceAdapter → ProviderPlugin :=
  let plugin (id : String) (supportsQuote : Bool) : ProviderPlugin :=
    { id, supportsPrice := true, supportsQuote, enabledChains := registration.enabledChains
      available := registration.available, unavailableReason := registration.unavailableReason }
  fun
  | .defiLlama => plugin DefiLlamaProvider.id false
  | .curve => plugin CurveProvider.id true
  | .liFi => plugin LiFiProvider.id true
  | .enso => plugin EnsoProvider.id true

def QuoteAdapter.plugin (registration : Registration) : QuoteAdapter → ProviderPlugin
  | .curve => PriceAdapter.plugin registration .curve
  | .liFi => PriceAdapter.plugin registration .liFi
  | .enso => PriceAdapter.plugin registration .enso

def PriceAdapter.getPrice (payloads : PricePayloads Obj) (req : ProviderPriceRequest) :
    PriceAdapter → Except Exn AcceptedPriceResult
  | .defiLlama => DefiLlamaProvider.getPrice dates latencyMs outcome payloads.onCoin req
  | .curve => CurveProvider.getPrice dates latencyMs outcome payloads.onPayload req
  | .liFi => LiFiProvider.getPrice dates latencyMs outcome payloads.onPayload req
  | .enso => EnsoProvider.getPrice dates latencyMs outcome payloads.onPayload req

/-- The adapter finds what it reads of `CHAINS`, and makes its call. -/
def PriceAdapter.MakesCall (req : ProviderPriceRequest) : PriceAdapter → Prop
  | .defiLlama | .curve => (chains.lookup req.chainId).isSome
  | .liFi | .enso => True

def QuoteAdapter.getQuote (payloads : QuotePayloads Obj Arr) (req : ProviderQuoteRequest) :
    QuoteAdapter → Except Exn AcceptedQuoteResult
  | .curve => CurveProvider.getQuote dates latencyMs outcome payloads.onResponse req
  | .liFi => LiFiProvider.getQuote dates latencyMs outcome payloads.onPayload req
  | .enso => EnsoProvider.getQuote dates latencyMs outcome payloads.onPayload req

end Adapters

/-! ### The end of a rate-limited call -/

/-- The name an adapter has in its error messages. -/
def PriceAdapter.providerName : PriceAdapter → String
  | .defiLlama => "DefiLlama"
  | .curve => "Curve"
  | .liFi => "LI.FI"
  | .enso => "Enso"

def QuoteAdapter.providerName : QuoteAdapter → String
  | .curve => PriceAdapter.curve.providerName
  | .liFi => PriceAdapter.liFi.providerName
  | .enso => PriceAdapter.enso.providerName

def rateLimitError (providerName : String) (retryAfterMs : Option Int) : ErrorInfo where
  type := .rateLimited
  message := providerName ++ " returned " ++ toString (429 : Int)
  code := some 429
  retryAfterMs := retryAfterMs

section TooManyRequests

variable {Obj Arr : Type} (dates : HttpDates) (latencyMs : Millis) (json : Option (JsonData Obj Arr))
  (headers : Dict String String) (registration : Registration)

/-- A response of status 429. -/
def tooManyRequests : HttpResponse Obj Arr := ⟨429, json, headers⟩

private theorem non200Status_tooManyRequests (providerName : String) :
    non200Status dates (tooManyRequests json headers) providerName =
      (parseRetryAfterMs dates (tooManyRequests json headers) none).map fun hint =>
        some { status := .error, errorType := .rateLimited
               message := providerName ++ " returned " ++ toString (429 : Int)
               httpStatusCode := 429, retryAfterMs := hint } := by
  have hstatus : ¬ (tooManyRequests json headers).statusCode = 200 := by
    change ¬ (429 : Int) = 200
    decide
  unfold non200Status
  rw [if_neg hstatus]
  cases parseRetryAfterMs dates (tooManyRequests json headers) none <;> rfl

private theorem jsonTransportOutcome_tooManyRequests (providerName invalidJsonMessage : String) :
    jsonTransportOutcome dates { latencyMs, response := some (tooManyRequests json headers) } providerName
        invalidJsonMessage =
      (parseRetryAfterMs dates (tooManyRequests json headers) none).map fun hint =>
        { latencyMs
          result := .error
            { reason := .non200, status := .error, errorType := .rateLimited
              message := providerName ++ " returned " ++ toString (429 : Int), latencyMs
              httpStatusCode := some 429, retryAfterMs := hint } } := by
  unfold jsonTransportOutcome
  dsimp only
  rw [if_neg Bool.false_ne_true, non200Status_tooManyRequests]
  cases parseRetryAfterMs dates (tooManyRequests json headers) none <;> rfl

private theorem timedGet_response (response : HttpResponse Obj Arr) :
    timedGet latencyMs (.response response) = .ok { latencyMs, response := some response } := rfl

/-- Without its call an adapter raises. -/
theorem PriceAdapter.getPrice_unknown {outcome : ClientOutcome Obj Arr} {adapter : PriceAdapter}
    {payloads : PricePayloads Obj} {req : ProviderPriceRequest} (h : ¬ adapter.MakesCall req) :
    adapter.getPrice dates latencyMs outcome payloads req = .error (.other "KeyError") := by
  cases adapter with
  | defiLlama =>
    show DefiLlamaProvider.getPrice _ _ _ _ _ = _
    unfold DefiLlamaProvider.getPrice
    rw [chainOf_none h]
    rfl
  | curve =>
    show CurveProvider.getPrice _ _ _ _ _ = _
    unfold CurveProvider.getPrice
    rw [chainOf_none h]
    rfl
  | liFi => exact absurd trivial h
  | enso => exact absurd trivial h

theorem PriceAdapter.getPrice_tooManyRequests {adapter : PriceAdapter} (payloads : PricePayloads Obj)
    {req : ProviderPriceRequest} (h : adapter.MakesCall req) :
    adapter.getPrice dates latencyMs (.response (tooManyRequests json headers)) payloads req =
      (parseRetryAfterMs dates (tooManyRequests json headers) none).bind fun hint =>
        failedPrice (adapter.plugin registration).id req .error latencyMs (rateLimitError adapter.providerName hint) := by
  have hshared (onPrice : Obj → Millis → ProviderPriceRequest → Except Exn AcceptedPriceResult)
      (id providerName invalidJsonMessage : String) :
      transportPrice dates latencyMs (.response (tooManyRequests json headers)) onPrice id providerName
        invalidJsonMessage req = (parseRetryAfterMs dates (tooManyRequests json headers) none).bind fun hint =>
        failedPrice id req .error latencyMs (rateLimitError providerName hint) := by
    unfold transportPrice
    simp only [timedGet_response, bind, Except.bind, jsonTransportOutcome_tooManyRequests]
    cases parseRetryAfterMs dates (tooManyRequests json headers) none <;> rfl
  cases adapter with
  | defiLlama =>
    obtain ⟨chain, hchain⟩ := Option.isSome_iff_exists.1 h
    show DefiLlamaProvider.getPrice _ _ _ _ _ = _
    unfold DefiLlamaProvider.getPrice
    rw [chainOf_eq_ok.2 hchain]
    exact hshared _ _ _ _
  | curve =>
    obtain ⟨chain, hchain⟩ := Option.isSome_iff_exists.1 h
    show CurveProvider.getPrice _ _ _ _ _ = _
    unfold CurveProvider.getPrice
    rw [chainOf_eq_ok.2 hchain]
    exact hshared _ _ _ _
  | liFi => exact hshared _ _ _ _
  | enso => exact hshared _ _ _ _

theorem QuoteAdapter.getQuote_tooManyRequests (adapter : QuoteAdapter) (payloads : QuotePayloads Obj Arr)
    (req : ProviderQuoteRequest) :
    adapter.getQuote dates latencyMs (.response (tooManyRequests json headers)) payloads req =
      (parseRetryAfterMs dates (tooManyRequests json headers) none).bind fun hint =>
        failedQuote (adapter.plugin registration).id req .error latencyMs (rateLimitError adapter.providerName hint) := by
  have hshared (id providerName invalidJsonMessage : String) :
      transportQuote dates latencyMs (.response (tooManyRequests json headers)) payloads.onPayload id providerName
        invalidJsonMessage req = (parseRetryAfterMs dates (tooManyRequests json headers) none).bind fun hint =>
        failedQuote id req .error latencyMs (rateLimitError providerName hint) := by
    unfold transportQuote
    simp only [timedGet_response, bind, Except.bind, jsonTransportOutcome_tooManyRequests]
    cases parseRetryAfterMs dates (tooManyRequests json headers) none <;> rfl
  cases adapter with
  | liFi => exact hshared _ _ _
  | enso => exact hshared _ _ _
  | curve =>
    change CurveProvider.getQuote _ _ _ _ _ = _
    unfold CurveProvider.getQuote
    simp only [timedGet_response, bind, Except.bind, Bool.false_eq_true, if_false, non200Status_tooManyRequests]
    cases parseRetryAfterMs dates (tooManyRequests json headers) none <;> rfl

end TooManyRequests

end TokenPriceAgg

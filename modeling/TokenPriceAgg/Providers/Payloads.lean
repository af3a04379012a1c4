import TokenPriceAgg.Providers.Adapters
import TokenPriceAgg.Providers.Parsing

/-!
# Payloads of the provider adapters

What `get_price` and `get_quote` of the four providers make of a payload of status 200.
-/

namespace TokenPriceAgg

open PyLib

/-- What `_to_http_response` keeps of the decoded body. -/
def jsonDataOf : Json → Option (JsonData JsonObject (List Json))
  | .dict payload => some (.dict payload)
  | .list items => some (.list items)
  | _ => none

/-! ### `providers/common.py` -/

def payloadDataOrRoot (payload : JsonObject) : JsonObject :=
  match payload.get "data" with
  | .dict data => data
  | _ => payload

/-- `first_nested_dict`, `None` if there is none. -/
def firstNestedDict (payload : JsonObject) : List (List String) → Json
  | [] => .null
  | path :: paths =>
    match getNested payload path with
    | .dict value => .dict value
    | _ => firstNestedDict payload paths

/-! ### Shared steps -/

/-- An amount that is there and positive. -/
def positiveAmount (amount : Option Int) : Option Int := amount.filter fun n => 0 < n

/-- The amount of one field, or of another one if that is missing or not positive. -/
def amountOrFallback (value fallback : Json) (decimals : Option Int) : Except Exn (Option Int) := do
  match positiveAmount (← parseBaseUnitAmount value decimals) with
  | some amount => pure (some amount)
  | none =>
    let amount ← parseBaseUnitAmount fallback decimals
    pure (positiveAmount amount)

section Handlers

variable (fromIsoFormat : List Char → Option DateTime)

namespace DefiLlamaProvider

/-- `coins[coin]` if it is an object. -/
def coinData (payload : JsonObject) (coin : String) : Option JsonObject :=
  match payload.get "coins" with
  | .dict coins =>
    match JsonObject.get coins coin with
    | .dict data => some data
    | _ => none
  | _ => none

def onCoin (coin : String) (payload : JsonObject) (latencyMs : Millis) (req : ProviderPriceRequest) :
    Except Exn AcceptedPriceResult :=
  match coinData payload coin with
  | none => failedPrice id req .noRoute latencyMs { type := .noRoute, message := "Token not found" }
  | some data => do
    let price := parsePositiveDecimal (data.get "price")
    -- the timestamp is read also if there is no price
    let asOf ← parseDatetime fromIsoFormat (data.get "timestamp")
    match price with
    | none =>
      failedPrice id req .error latencyMs { type := .upstreamParse, message := "Price missing from response" }
    | some price =>
      let token ← withTokenMetadata req.token (.dict data)
      PriceResult.accept
        { provider := id, status := .ok, token := some token, priceUsd := some price
          latencyMs := latencyMs.val, asOf }

/-- `ProviderPlugin.get_quote`; the provider has no quotes. -/
def getQuote (req : ProviderQuoteRequest) : Except Exn AcceptedQuoteResult :=
  failedQuote id req .badRequest .zero
    { type := .unsupportedOperation, message := "Quote not supported" }

end DefiLlamaProvider

namespace CurveProvider

def price (payload : JsonObject) : Option Decimal :=
  let priceValue := getFirst payload ["usdPrice", "usd_price", "price"]
  match priceValue, payload.get "data" with
  -- a price in `data` counts only if none is given beside it
  | .null, .dict data => parsePositiveDecimal (getFirst data ["usdPrice", "usd_price", "price"])
  | priceValue, _ => parsePositiveDecimal priceValue

def onPrice (payload : JsonObject) (latencyMs : Millis) (req : ProviderPriceRequest) :
    Except Exn AcceptedPriceResult :=
  match price payload with
  | none => failedPrice id req .noRoute latencyMs { type := .noRoute, message := "Token not supported" }
  | some price => do
    let asOf ← parseDatetime fromIsoFormat (getFirst payload ["timestamp", "asOf"])
    PriceResult.accept
      { provider := id, status := .ok, token := some req.token, priceUsd := some price
        latencyMs := latencyMs.val, asOf }

/-- `_extract_curve_quote_payload`. -/
def extractQuotePayload : Option (JsonData JsonObject (List Json)) → Option JsonObject
  | some (.dict payload) => some (payloadDataOrRoot payload)
  -- no routes are an answer; a list without an object is none
  | some (.list []) => some []
  | some (.list items) =>
    items.findSome? fun item =>
      match item with
      | .dict payload => some payload
      | _ => none
  | none => none

/-- The first positive amount of a list, in `_parse_curve_amount`. -/
def firstPositive : List Json → Except Exn (Option Int)
  | [] => .ok none
  | item :: items => do
    match positiveAmount (← parseInt item) with
    | some amount => pure (some amount)
    | none => firstPositive items

/-- `_parse_curve_amount`. -/
def parseAmount : Json → Except Exn (Option Int)
  | .list items => firstPositive items
  | value => (parseInt value).map positiveAmount

/-- The field of the output amount. -/
def amountOutValue (payload : JsonObject) : Json :=
  match getFirst payload ["amountOut", "output", "toAmount"] with
  | .null => getNested payload ["bestRoute", "output"]
  | value => value

/-- What `get_quote` makes of the extracted payload. -/
def onQuote (payload : JsonObject) (latencyMs : Millis) (req : ProviderQuoteRequest) :
    Except Exn AcceptedQuoteResult := do
  match ← parseAmount (amountOutValue payload) with
  | none => failedQuote id req .noRoute latencyMs { type := .noRoute, message := "No route found" }
  | some amountOut =>
    let gas ← parseInt (getFirst payload ["gas", "estimatedGas"])
    let priceImpactBps ← decimalToBps (parseDecimal (getFirst payload ["priceImpact", "price_impact"]))
    let amountOutMin ← parseAmount (getFirst payload ["amountOutMin", "toAmountMin"])
    let asOf ← parseDatetime fromIsoFormat (getFirst payload ["timestamp", "asOf", "createdAt"])
    QuoteResult.accept
      { provider := id, status := .ok, tokenIn := some req.tokenIn, tokenOut := some req.tokenOut
        amountIn := some req.amountIn, amountOut := some amountOut, amountOutMin, priceImpactBps
        estimatedGas := gas, latencyMs := latencyMs.val, asOf }

def onResponse (response : HttpResponse JsonObject (List Json)) (latencyMs : Millis) (req : ProviderQuoteRequest) :
    Except Exn AcceptedQuoteResult :=
  match extractQuotePayload response.jsonData with
  | none => failedQuote id req .error latencyMs { type := .upstreamParse, message := "Invalid JSON response" }
  | some payload => onQuote fromIsoFormat payload latencyMs req

end CurveProvider

namespace LiFiProvider

def priceKeys : List String := ["priceUSD", "priceUsd", "price"]

def price (payload : JsonObject) : Option Decimal :=
  match parsePositiveDecimal (getFirst payload priceKeys), payload.get "token" with
  | none, .dict token => parsePositiveDecimal (getFirst token priceKeys)
  | price, _ => price

def onPrice (payload : JsonObject) (latencyMs : Millis) (req : ProviderPriceRequest) :
    Except Exn AcceptedPriceResult :=
  match price payload with
  | none => failedPrice id req .noRoute latencyMs { type := .noRoute, message := "Token not supported" }
  | some price => do
    let asOf ← parseDatetime fromIsoFormat (getFirst payload ["timestamp", "updatedAt"])
    let token ← withTokenMetadata req.token (payload.get "token")
    PriceResult.accept
      { provider := id, status := .ok, token := some token, priceUsd := some price, latencyMs := latencyMs.val, asOf }

/-- The metadata of a token of the quote. -/
def tokenPayload (payload : JsonObject) (key : String) : Json :=
  firstNestedDict payload [["action", key], ["estimate", key], [key]]

def onQuote (payload : JsonObject) (latencyMs : Millis) (req : ProviderQuoteRequest) :
    Except Exn AcceptedQuoteResult := do
  let tokenIn ← withTokenMetadata req.tokenIn (tokenPayload payload "fromToken")
  let tokenOut ← withTokenMetadata req.tokenOut (tokenPayload payload "toToken")
  match ← amountOrFallback (getNested payload ["estimate", "toAmount"]) (getFirst payload ["toAmount", "amountOut"])
      tokenOut.decimals with
  | none => failedQuote id req .noRoute latencyMs { type := .noRoute, message := "No route found" }
  | some amountOut =>
    let minOut ← parseBaseUnitAmount (getNested payload ["estimate", "toAmountMin"]) tokenOut.decimals
    let gas ← parseInt (getNested payload ["estimate", "data", "estimatedGas"])
    let priceImpactBps ← decimalToBps (parseDecimal (getNested payload ["estimate", "priceImpact"]))
    let asOf ← parseDatetime fromIsoFormat (getFirst payload ["timestamp", "updatedAt"])
    QuoteResult.accept
      { provider := id, status := .ok, tokenIn := some tokenIn, tokenOut := some tokenOut
        amountIn := some req.amountIn, amountOut := some amountOut, amountOutMin := minOut, priceImpactBps
        estimatedGas := gas, latencyMs := latencyMs.val, asOf }

end LiFiProvider

namespace EnsoProvider

def onPrice (responsePayload : JsonObject) (latencyMs : Millis) (req : ProviderPriceRequest) :
    Except Exn AcceptedPriceResult :=
  let payload := payloadDataOrRoot responsePayload
  match parsePositiveDecimal (getFirst payload ["price", "usdPrice", "priceUsd"]) with
  | none => failedPrice id req .noRoute latencyMs { type := .noRoute, message := "Token not supported" }
  | some price => do
    let token ← withTokenMetadata req.token (.dict payload)
    let asOf ← parseDatetime fromIsoFormat (getFirst payload ["timestamp", "updatedAt"])
    PriceResult.accept
      { provider := id, status := .ok, token := some token, priceUsd := some price, latencyMs := latencyMs.val, asOf }

/-- `_parse_enso_price_impact_bps`; above one the value is in basis points. -/
def parsePriceImpactBps (value : Json) : Except Exn (Option Int) :=
  match parseDecimal value with
  | none => .ok none
  | some parsed =>
    if (Decimal.ofNat 1).lt parsed then .ok (some parsed.toIntegralValue.toInt) else decimalToBps (some parsed)

def onQuote (responsePayload : JsonObject) (latencyMs : Millis) (req : ProviderQuoteRequest) :
    Except Exn AcceptedQuoteResult := do
  let payload := payloadDataOrRoot responsePayload
  -- the decimals of the payload go before those of the request
  let tokenOut ← withTokenMetadata req.tokenOut (firstNestedDict payload [["tokenOut"], ["toToken"], ["outputToken"]])
  let tokenIn ← withTokenMetadata req.tokenIn (firstNestedDict payload [["tokenIn"], ["fromToken"], ["inputToken"]])
  match ← amountOrFallback (getFirst payload ["amountOut", "toAmount", "outputAmount"])
      (getNested payload ["route", "amountOut"]) tokenOut.decimals with
  | none => failedQuote id req .noRoute latencyMs { type := .noRoute, message := "No route found" }
  | some amountOut =>
    let priceImpactBps ← parsePriceImpactBps (getFirst payload ["priceImpact", "price_impact"])
    let amountOutMin ← parseBaseUnitAmount (getFirst payload ["minAmountOut", "amountOutMin", "toAmountMin"])
      tokenOut.decimals
    let gas ← parseInt (getFirst payload ["gas", "estimatedGas"])
    let asOf ← parseDatetime fromIsoFormat (getFirst payload ["timestamp", "updatedAt"])
    QuoteResult.accept
      { provider := id, status := .ok, tokenIn := some tokenIn, tokenOut := some tokenOut
        amountIn := some req.amountIn, amountOut := some amountOut, amountOutMin, estimatedGas := gas
        priceImpactBps, latencyMs := latencyMs.val, asOf }

end EnsoProvider

/-- The payload handlers of a price adapter; DefiLlama has one of its own. -/
def PriceAdapter.payloads (adapter : PriceAdapter) : PricePayloads JsonObject where
  onPayload :=
    match adapter with
    | .defiLlama | .curve => CurveProvider.onPrice fromIsoFormat
    | .liFi => LiFiProvider.onPrice fromIsoFormat
    | .enso => EnsoProvider.onPrice fromIsoFormat
  onCoin := DefiLlamaProvider.onCoin fromIsoFormat

/-- The payload handlers of a quote adapter; Curve looks at the response itself. -/
def QuoteAdapter.payloads (adapter : QuoteAdapter) : QuotePayloads JsonObject (List Json) where
  onPayload :=
    match adapter with
    | .curve => CurveProvider.onQuote fromIsoFormat
    | .liFi => LiFiProvider.onQuote fromIsoFormat
    | .enso => EnsoProvider.onQuote fromIsoFormat
  onResponse := CurveProvider.onResponse fromIsoFormat

end Handlers

end TokenPriceAgg

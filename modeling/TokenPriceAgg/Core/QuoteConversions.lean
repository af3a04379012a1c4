import TokenPriceAgg.Core.AddressForms
import TokenPriceAgg.Core.VaultUnderlying

/-!
# The conversion of quotes into vault shares

`apply_quote_resolution` goes through the results one by one and calls the converter of the output vault for the
amounts of each successful one.  Every turn returns, whatever the converter does, and its result is a function of the
result it is about and of what the converter answers for it.
-/

namespace TokenPriceAgg

open PyLib Eff

/-! ### Contexts -/

/-- The underlying token of the context has been through the validator of `VaultContext`. -/
def VaultContext.Accepted (eth : EthUtils) (context : VaultContext) : Prop :=
  ∀ token ∈ context.underlyingToken, ∃ raw, normalizeAddress eth raw = .ok token

/-- Both contexts of a resolution are values that `VaultContext` accepts. -/
structure QuoteVaultResolution.Accepted (eth : EthUtils) (resolution : QuoteVaultResolution) : Prop where
  input : ∀ context ∈ resolution.inputVaultContext, context.Accepted eth
  output : ∀ context ∈ resolution.outputVaultContext, context.Accepted eth

/-- The token of a leg, which with two legs is normalized once more. -/
def LegToken (eth : EthUtils) (token attached : Option String) : Prop :=
  attached = token ∨ attached.map Except.ok = token.map (normalizeAddress eth)

/-- The context of a converted quote: what the context of each leg says stands in the fields of that leg, and the
fields of a price are empty. -/
structure LegContext (eth : EthUtils) (resolution : QuoteVaultResolution) (context : VaultContext) : Prop where
  token : context.underlyingToken = none
  rate : context.pricePerShare = none
  tokenIn : LegToken eth (resolution.inputVaultContext.bind (·.underlyingToken)) context.underlyingTokenIn
  tokenOut : LegToken eth (resolution.outputVaultContext.bind (·.underlyingToken)) context.underlyingTokenOut
  rateIn : context.pricePerShareTokenIn = resolution.inputVaultContext.bind (·.pricePerShare)
  rateOut : context.pricePerShareTokenOut = resolution.outputVaultContext.bind (·.pricePerShare)

private theorem normalizeUnderlying_of_accepted {eth : EthUtils} (hlaw : eth.Lawful) {context : VaultContext}
    (h : context.Accepted eth) :
    ∃ token, quoteVaultContext.normalizeUnderlying eth context.underlyingToken = .ok token ∧
      LegToken eth context.underlyingToken token := by
  cases htoken : context.underlyingToken with
  | none => exact ⟨none, rfl, .inl rfl⟩
  | some token =>
    obtain ⟨raw, hraw⟩ := h token htoken
    obtain ⟨again, hagain⟩ := normalizeAddress_again hlaw hraw
    have hmap : (normalizeAddress eth token).map some = .ok (some again) := by
      rw [hagain]
      rfl
    exact ⟨some again, hmap, .inr (congrArg some hagain.symm)⟩

/-- The context of a quote is built from accepted contexts without an exception. -/
private theorem quoteVaultContext_of_accepted {eth : EthUtils} (hlaw : eth.Lawful) {resolution : QuoteVaultResolution}
    (h : resolution.Accepted eth) :
    ∃ attached, quoteVaultContext eth resolution.inputVaultContext resolution.outputVaultContext = .ok attached ∧
      (attached.isSome ↔ resolution.inputVaultContext.isSome ∨ resolution.outputVaultContext.isSome) ∧
      ∀ context ∈ attached, LegContext eth resolution context := by
  obtain ⟨inputContext, outputContext, assetsToShares⟩ := resolution
  cases inputContext with
  | none =>
    cases outputContext with
    | none => exact ⟨none, rfl, by simp, by simp⟩
    | some output =>
      refine ⟨_, rfl, by simp, ?_⟩
      rintro context ⟨⟩
      exact ⟨rfl, rfl, .inl rfl, .inl rfl, rfl, rfl⟩
  | some input =>
    cases outputContext with
    | none =>
      refine ⟨_, rfl, by simp, ?_⟩
      rintro context ⟨⟩
      exact ⟨rfl, rfl, .inl rfl, .inl rfl, rfl, rfl⟩
    | some output =>
      obtain ⟨tokenIn, hin, hlegIn⟩ := normalizeUnderlying_of_accepted hlaw (h.input input rfl)
      obtain ⟨tokenOut, hout, hlegOut⟩ := normalizeUnderlying_of_accepted hlaw (h.output output rfl)
      have hcontext : quoteVaultContext eth (some input) (some output) = .ok (some
          { vaultType := if input.vaultType = output.vaultType then input.vaultType else none
            underlyingTokenIn := tokenIn, underlyingTokenOut := tokenOut
            pricePerShareTokenIn := input.pricePerShare, pricePerShareTokenOut := output.pricePerShare
            blockNumber := input.blockNumber }) := by
        simp only [quoteVaultContext, hin, hout]
        rfl
      refine ⟨_, hcontext, by simp, ?_⟩
      rintro context ⟨⟩
      exact ⟨rfl, rfl, hlegIn, hlegOut, rfl, rfl⟩

/-! ### Amounts -/

/-- The amounts of a successful result in the tokens of the caller, from the calls of the converter before it on. -/
def sharesOf (resolution : QuoteVaultResolution) (result : QuoteResult) :
    Eff (List Int) Exn (Option Int × Option Int) :=
  match resolution.outputVaultContext, resolution.outputAssetsToShares with
  | none, _ => pure (result.amountOut, result.amountOutMin)
  | some _, none => Eff.raise (.other "MISSING_VAULT_CONVERTER")
  | some _, some assetsToShares => do
    let (amountOut, amountOutMin) ← convertQuoteOutputAmounts result.amountOut result.amountOutMin assetsToShares
    pure (some amountOut, amountOutMin)

/-- What the converter answers for a minimum: nothing, or the integer. -/
def minimumObject : Option Int → PyObj
  | none => .none
  | some n => .int n

/-- The converter is called for both amounts, and both answers are the amounts of the converted result. -/
structure ConvertedBy (assetsToShares : AssetsToShares) (calls : List Int) (result : QuoteResult) (shares : Int)
    (minShares : Option Int) : Prop where
  amountOut : ∃ assets ∈ result.amountOut, assetsToShares calls assets = .ok (.int shares)
  amountOutMin : ∀ assets ∈ result.amountOut, ∀ minAssets ∈ result.amountOutMin,
    assetsToShares (calls ++ [assets]) minAssets = .ok (minimumObject minShares)
  absent : result.amountOutMin = none → minShares = none

/-- The bounds of the amounts of a successful result. -/
def LegalShares (shares : Int) (minShares : Option Int) : Prop :=
  (0 < shares ∧ shares ≤ maxUint256) ∧ ∀ n ∈ minShares, 0 ≤ n ∧ n ≤ shares

private theorem validConvertedAmount_eq_some {allowZero : Bool} {obj : PyObj} {n : Int}
    (h : validConvertedAmount allowZero obj = some n) :
    obj = .int n ∧ n ≤ maxUint256 ∧ if allowZero then 0 ≤ n else 0 < n := by
  cases obj with
  | int m =>
    change (if (if allowZero then 0 ≤ m else 0 < m) ∧ m ≤ maxUint256 then some m else none) = some n at h
    by_cases hm : (if allowZero then 0 ≤ m else 0 < m) ∧ m ≤ maxUint256
    · rw [if_pos hm] at h
      cases h
      exact ⟨rfl, hm.2, hm.1⟩
    · rw [if_neg hm] at h
      cases h
  | _ => cases h

/-- What `_convert_quote_output_amounts` checks once the converter has been called. -/
private def checkAnswers (converted convertedMin : PyObj) : Eff (List Int) Exn (Int × Option Int) :=
  match validConvertedAmount false converted with
  | none => Eff.raise (.valueError "Converted amount_out is outside uint256 bounds")
  | some converted =>
    match convertedMin with
    | .none => pure (converted, none)
    | convertedMin =>
      match validConvertedAmount true convertedMin with
      | none => Eff.raise (.valueError "Converted amount_out_min is invalid")
      | some convertedMin =>
        if converted < convertedMin then Eff.raise (.valueError "Converted amount_out_min is invalid")
        else pure (converted, some convertedMin)

private theorem checkAnswers_ok {converted convertedMin : PyObj} {t t' : List Int} {shares : Int}
    {minShares : Option Int}
    (h : checkAnswers converted convertedMin t = (.ok (shares, minShares), t')) :
    converted = .int shares ∧ convertedMin = minimumObject minShares ∧ LegalShares shares minShares := by
  unfold checkAnswers at h
  cases hshares : validConvertedAmount false converted with
  | none => simp only [hshares] at h; cases h
  | some n =>
    obtain ⟨rfl, hmax, hpos⟩ := validConvertedAmount_eq_some hshares
    simp only [Bool.false_eq_true, if_false] at hpos
    simp only [hshares] at h
    -- the second answer stands for an absent minimum, or it is a minimum in bounds
    split at h
    · cases h
      exact ⟨rfl, rfl, ⟨hpos, hmax⟩, by simp⟩
    · cases hvalid : validConvertedAmount true convertedMin with
      | none => simp only [hvalid] at h; cases h
      | some m =>
        obtain ⟨rfl, -, hnonneg⟩ := validConvertedAmount_eq_some hvalid
        simp only [if_true] at hnonneg
        simp only [hvalid] at h
        split at h
        · cases h
        · rename_i hle
          cases h
          refine ⟨rfl, rfl, ⟨hpos, hmax⟩, ?_⟩
          rintro m' ⟨⟩
          exact ⟨hnonneg, not_lt.1 hle⟩

/-- Converted amounts are the answers of the converter, and legal. -/
theorem convertQuoteOutputAmounts_ok {amountOut amountOutMin : Option Int} {assetsToShares : AssetsToShares}
    {calls calls' : List Int} {shares : Int} {minShares : Option Int}
    (h : convertQuoteOutputAmounts amountOut amountOutMin assetsToShares calls = (.ok (shares, minShares), calls')) :
    LegalShares shares minShares ∧ ∃ assets, amountOut = some assets ∧
      assetsToShares calls assets = .ok (.int shares) ∧
      (∀ minAssets ∈ amountOutMin, assetsToShares (calls ++ [assets]) minAssets = .ok (minimumObject minShares)) ∧
      (amountOutMin = none → minShares = none) := by
  cases amountOut with
  | none => cases h
  | some assets =>
    obtain ⟨converted, t, hcall, h⟩ := bind_eq_ok.1 h
    obtain ⟨hfirst, rfl⟩ : assetsToShares calls assets = .ok converted ∧ calls ++ [assets] = t := Prod.ext_iff.1 hcall
    cases amountOutMin with
    | none =>
      change checkAnswers converted .none (calls ++ [assets]) = _ at h
      obtain ⟨rfl, hnone, hlegal⟩ := checkAnswers_ok h
      refine ⟨hlegal, assets, rfl, hfirst, by simp, fun _ => ?_⟩
      cases minShares with
      | none => rfl
      | some m => cases hnone
    | some minAssets =>
      obtain ⟨convertedMin, t', hmin, h⟩ := bind_eq_ok.1 h
      change checkAnswers converted convertedMin t' = _ at h
      obtain ⟨rfl, rfl, hlegal⟩ := checkAnswers_ok h
      refine ⟨hlegal, assets, rfl, hfirst, ?_, by simp⟩
      rintro minAssets' ⟨⟩
      exact (Prod.ext_iff.1 hmin).1

/-! ### One result -/

/-- A successful result with its converted amounts, or what is left of it without them. -/
def settleQuote (req : ProviderQuoteRequest) (attached : Option VaultContext) (result : QuoteResult) :
    Except Exn (Option Int × Option Int) → QuoteResult
  | .ok (amountOut, amountOutMin) =>
    { result with amountIn := some req.amountIn, amountOut, amountOutMin, vaultContext := attached }
  | .error _ => markQuoteConversionFailure { result with amountIn := some req.amountIn }

/-- A turn of the loop in terms of the converted amounts. -/
private theorem applyQuoteToResult_eq
    {eth : EthUtils} {resolution : QuoteVaultResolution} {attached : Option VaultContext}
    (hattached : quoteVaultContext eth resolution.inputVaultContext resolution.outputVaultContext = .ok attached)
    (req : ProviderQuoteRequest) (result : QuoteResult) (calls : List Int) :
    applyQuoteToResult eth req resolution result calls =
      if result.status = .ok then
        (.ok (settleQuote req attached result (sharesOf resolution result calls).1),
          (sharesOf resolution result calls).2)
      else (.ok result, calls) := by
  obtain ⟨inputContext, outputContext, assetsToShares⟩ := resolution
  unfold applyQuoteToResult
  by_cases hok : result.status = .ok
  · rw [if_pos hok, if_pos hok]
    dsimp only at hattached ⊢
    cases outputContext with
    | none =>
      simp only [hattached]
      rfl
    | some output =>
      cases assetsToShares with
      | none => rfl
      | some assetsToShares =>
        unfold sharesOf
        simp only [hattached, bind_run, Eff.tryExcept]
        rcases convertQuoteOutputAmounts result.amountOut result.amountOutMin assetsToShares calls with
          ⟨e | ⟨amountOut, amountOutMin⟩, calls'⟩ <;> rfl
  · rw [if_neg hok, if_neg hok]
    rfl

/-- A result that stays successful: its amounts are the converter's, within their bounds, and the context of its legs
is attached. -/
structure Converted (eth : EthUtils) (resolution : QuoteVaultResolution) (calls : List Int)
    (result converted : QuoteResult) : Prop where
  status : converted.status = .ok
  error : converted.error = none
  amounts : ∃ shares, converted.amountOut = some shares ∧ LegalShares shares converted.amountOutMin
  /-- without an output vault nothing is converted -/
  unconverted : resolution.outputVaultContext = none →
    converted.amountOut = result.amountOut ∧ converted.amountOutMin = result.amountOutMin
  byConverter : resolution.outputVaultContext.isSome → ∃ assetsToShares ∈ resolution.outputAssetsToShares,
    ∃ shares ∈ converted.amountOut, ConvertedBy assetsToShares calls result shares converted.amountOutMin
  attached : converted.vaultContext.isSome ↔ resolution.inputVaultContext.isSome ∨ resolution.outputVaultContext.isSome
  context : ∀ context ∈ converted.vaultContext, LegContext eth resolution context

/-- A result whose conversion failed. -/
structure ConversionFailed (resolution : QuoteVaultResolution) (calls : List Int) (result failed : QuoteResult) :
    Prop where
  cause : ∃ exc, (sharesOf resolution result calls).1 = .error exc
  output : resolution.outputVaultContext.isSome
  status : failed.status = .error
  error : failed.error.map ErrorInfo.type = some .invalidVaultConversion
  amountOut : failed.amountOut = none
  amountOutMin : failed.amountOutMin = none

/-- What becomes of one result. -/
structure SafelyApplied (eth : EthUtils) (resolution : QuoteVaultResolution) (calls : List Int)
    (result applied : QuoteResult) : Prop where
  untouched : result.status ≠ .ok → applied = result
  settled : result.status = .ok →
    Converted eth resolution calls result applied ∨ ConversionFailed resolution calls result applied

private theorem settleQuote_safe {eth : EthUtils} {resolution : QuoteVaultResolution} {attached : Option VaultContext}
    (hsome : attached.isSome ↔ resolution.inputVaultContext.isSome ∨ resolution.outputVaultContext.isSome)
    (hlegs : ∀ context ∈ attached, LegContext eth resolution context) (req : ProviderQuoteRequest)
    {result : QuoteResult} (hvalid : result.Valid) (hok : result.status = .ok) (calls : List Int) :
    Converted eth resolution calls result (settleQuote req attached result (sharesOf resolution result calls).1) ∨
      ConversionFailed resolution calls result
        (settleQuote req attached result (sharesOf resolution result calls).1) := by
  cases hout : resolution.outputVaultContext with
  | none =>
    have hshares : sharesOf resolution result calls = (.ok (result.amountOut, result.amountOutMin), calls) := by
      unfold sharesOf
      rw [hout]
      rfl
    rw [hshares]
    obtain ⟨shares, hsharesOut, hpos⟩ := hvalid.ok_amount hok
    refine .inl ⟨hok, hvalid.ok_error hok, ⟨shares, hsharesOut, ⟨hpos, (hvalid.amountOut shares hsharesOut).2⟩, ?_⟩,
      fun _ => ⟨rfl, rfl⟩, fun h => ?_, hsome, hlegs⟩
    · intro n hn
      exact ⟨(hvalid.amountOutMin n hn).1, hvalid.min_le n hn shares hsharesOut⟩
    · rw [hout] at h
      cases h
  | some output =>
    rcases hshares : sharesOf resolution result calls with ⟨exc | ⟨amountOut, amountOutMin⟩, calls'⟩
    · exact .inr ⟨⟨exc, by rw [hshares]⟩, by rw [hout]; rfl, rfl, rfl, rfl, rfl⟩
    · have hconverted := hshares
      unfold sharesOf at hconverted
      cases hconverter : resolution.outputAssetsToShares with
      | none => simp only [hout, hconverter] at hconverted; cases hconverted
      | some assetsToShares =>
        simp only [hout, hconverter] at hconverted
        obtain ⟨⟨shares, minShares⟩, t, hamounts, hpure⟩ := bind_eq_ok.1 hconverted
        cases hpure
        obtain ⟨hlegal, assets, hassets, hfirst, hmin, habsent⟩ := convertQuoteOutputAmounts_ok hamounts
        refine .inl ⟨hok, hvalid.ok_error hok, ⟨shares, rfl, hlegal⟩, fun h => ?_, fun _ => ?_, hsome, hlegs⟩
        · rw [hout] at h
          cases h
        · refine ⟨assetsToShares, hconverter, shares, rfl, ⟨assets, hassets, hfirst⟩, ?_, habsent⟩
          intro assets' hassets' minAssets hminAssets
          cases hassets.symm.trans hassets'
          exact hmin minAssets hminAssets

/-! ### All results -/

/-- The calls of the converter before the turn of the result at `j`. -/
def callsBefore (eth : EthUtils) (req : ProviderQuoteRequest) (resolution : QuoteVaultResolution)
    (results : List QuoteResult) (j : Nat) : List Int :=
  (Eff.mapEach (applyQuoteToResult eth req resolution) (results.take j) []).2

/-- What the conversion of the result at `j` comes to. -/
def conversionAt (eth : EthUtils) (req : ProviderQuoteRequest) (resolution : QuoteVaultResolution)
    (results : List QuoteResult) (j : Nat) : Option (Except Exn (Option Int × Option Int)) :=
  results[j]?.map fun result => (sharesOf resolution result (callsBefore eth req resolution results j)).1

section Results

variable {eth : EthUtils} {resolution : QuoteVaultResolution} {attached : Option VaultContext}
  (req : ProviderQuoteRequest)

/-- The result at `j` is settled by what its own conversion comes to. -/
private theorem applyQuoteResolution_at
    (hattached : quoteVaultContext eth resolution.inputVaultContext resolution.outputVaultContext = .ok attached)
    (results : List QuoteResult) :
    ∃ applied, applyQuoteResolution eth req results (some resolution) = .ok applied ∧ applied.length = results.length ∧
      ∀ j result, results[j]? = some result → applied[j]? = some
        (if result.status = .ok then
          settleQuote req attached result (sharesOf resolution result (callsBefore eth req resolution results j)).1
        else result) := by
  have hturn : ∀ result ∈ results, ∀ calls, (applyQuoteToResult eth req resolution result calls).1 =
      .ok (if result.status = .ok then settleQuote req attached result (sharesOf resolution result calls).1
        else result) := by
    intro result _ calls
    rw [applyQuoteToResult_eq hattached req result calls]
    split <;> rfl
  exact Eff.mapEach_total hturn []

/-- Converting the output of quotes is safe for each result, and no result depends on the conversion of another one:
where a list has the same result in one place, and the converter answers alike for it, the outcome is the same. -/
theorem quote_conversion_per_result_safe (hlaw : eth.Lawful) (hresolution : resolution.Accepted eth)
    {results : List QuoteResult} (hvalid : ∀ result ∈ results, result.Valid) :
    ∃ applied, applyQuoteResolution eth req results (some resolution) = .ok applied ∧
      applied.length = results.length ∧
      (∀ j result result', results[j]? = some result → applied[j]? = some result' →
        SafelyApplied eth resolution (callsBefore eth req resolution results j) result result') ∧
      ∀ others applied' j, others[j]? = results[j]? →
        conversionAt eth req resolution others j = conversionAt eth req resolution results j →
        applyQuoteResolution eth req others (some resolution) = .ok applied' → applied'[j]? = applied[j]? := by
  obtain ⟨attached, hattached, hsome, hlegs⟩ := quoteVaultContext_of_accepted hlaw hresolution
  obtain ⟨applied, happlied, hlength, hat⟩ := applyQuoteResolution_at req hattached results
  refine ⟨applied, happlied, hlength, ?_, ?_⟩
  · intro j result result' hj hj'
    have hresult := hat j result hj
    rw [hj', Option.some.injEq] at hresult
    constructor
    · intro hok
      rw [hresult, if_neg hok]
    · intro hok
      rw [hresult, if_pos hok]
      exact settleQuote_safe hsome hlegs req (hvalid result (List.mem_of_getElem? hj)) hok _
  · intro others applied' j hsame hconversion happlied'
    obtain ⟨applied'', heq, hlength', hat'⟩ := applyQuoteResolution_at req hattached others
    rw [happlied'] at heq
    obtain rfl := Except.ok.inj heq
    cases hj : results[j]? with
    | none =>
      have hnone := List.getElem?_eq_none_iff.1 hj
      have hnone' := List.getElem?_eq_none_iff.1 (hsame.trans hj)
      rw [List.getElem?_eq_none (by omega), List.getElem?_eq_none (by omega)]
    | some result =>
      have hj' : others[j]? = some result := hsame.trans hj
      unfold conversionAt at hconversion
      rw [hj, hj', Option.map_some, Option.map_some, Option.some.injEq] at hconversion
      rw [hat j result hj, hat' j result hj', hconversion]

end Results

/-! ### Two results of a vault whose share is worth two tokens -/

/-- The resolution of a quote whose output is the vault. -/
def Example.halving : QuoteVaultResolution where
  outputVaultContext := some
    { underlyingToken := some dai, pricePerShare := some ⟨⟨false, 2, 0⟩, by decide⟩, blockNumber := 7 }
  outputAssetsToShares := some fun _ assets => .ok (.int (assets / 2))

def Example.halvingRequest : ProviderQuoteRequest where
  chainId := 1
  tokenIn := { chainId := 1, address := dai }
  tokenOut := { chainId := 1, address := savingsDai }
  amountIn := 5

/-- A successful quote of the underlying token. -/
def Example.quoted (amountOut : Int) (amountOutMin : Option Int) : QuoteResult where
  provider := "curve"
  status := .ok
  amountOut := some amountOut
  amountOutMin := amountOutMin
  latencyMs := 3

/-- One token is no share, and the result fails; four tokens of which two are the minimum are two shares and one. -/
theorem quote_conversion_per_result_safe_halving :
    ∃ failed converted, applyQuoteResolution Example.eth Example.halvingRequest
        [Example.quoted 1 none, Example.quoted 4 (some 2)] (some Example.halving) = .ok [failed, converted] ∧
      SafelyApplied Example.eth Example.halving [] (Example.quoted 1 none) failed ∧
      SafelyApplied Example.eth Example.halving [1] (Example.quoted 4 (some 2)) converted ∧
      failed.status = .error ∧ converted.amountOut = some 2 ∧ converted.amountOutMin = some 1 := by
  have haccepted : Example.halving.Accepted Example.eth := by
    refine ⟨by simp [Example.halving], ?_⟩
    rintro context ⟨⟩ token ⟨⟩
    exact ⟨Example.dai, by decide +kernel⟩
  have hvalid : ∀ result ∈ [Example.quoted 1 none, Example.quoted 4 (some 2)], result.Valid := by decide +kernel
  obtain ⟨applied, happlied, -, hsafe, -⟩ :=
    quote_conversion_per_result_safe Example.halvingRequest Example.lawful haccepted hvalid
  obtain ⟨failed, converted, hrun, hstatus, hout, hmin⟩ : ∃ failed converted,
      applyQuoteResolution Example.eth Example.halvingRequest
        [Example.quoted 1 none, Example.quoted 4 (some 2)] (some Example.halving) = .ok [failed, converted] ∧
      failed.status = .error ∧ converted.amountOut = some 2 ∧ converted.amountOutMin = some 1 :=
    ⟨_, _, rfl, rfl, rfl, rfl⟩
  rw [hrun] at happlied
  obtain rfl := Except.ok.inj happlied
  exact ⟨failed, converted, hrun, hsafe 0 _ _ rfl rfl, hsafe 1 _ _ rfl rfl, hstatus, hout, hmin⟩

end TokenPriceAgg

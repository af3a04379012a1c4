import TokenPriceAgg.Core.Limits
import TokenPriceAgg.Core.Normalizer
import TokenPriceAgg.Vault.Resolver

/-!
# Vault shares as their underlying token

`resolvePrice` and `resolveQuote` ask the vault resolver, under the vault limiter, for the request about the
underlying token; `applyPriceContext` and `applyQuoteResolution` translate the results back.

The resolver is a parameter: any computation over whatever state it and the limiter live in.
-/

namespace TokenPriceAgg

open PyLib Eff

structure VaultResolutionFailure where
  reason : String
  latencyMs : Nat
deriving DecidableEq, Repr

def VaultResolutionFailure.errorInfo (_failure : VaultResolutionFailure) : ErrorInfo where
  type := .vaultResolutionFailed
  message := "Vault underlying resolution failed; provider request was not attempted"

/-- `VaultResolutionStatus` with what `__post_init__` wants to come with it. -/
inductive VaultResolution (C : Type)
  | notRequested
  | notVault
  | resolved (context : C)
  | failed (failure : VaultResolutionFailure)

structure ResolvedRequest (Req C : Type) where
  request : Req
  status : VaultResolution C

abbrev ResolvedPriceRequest := ResolvedRequest ProviderPriceRequest VaultContext

abbrev ResolvedQuoteRequest := ResolvedRequest ProviderQuoteRequest QuoteVaultResolution

/-! ### Resolution -/

/-- `_invalid_quote_resolution_reason`. -/
def invalidQuoteResolutionReason : Option QuoteVaultResolution → Option String
  | none => some "MISSING_VAULT_RESOLUTION"
  | some resolution =>
    let contexts := [resolution.inputVaultContext, resolution.outputVaultContext]
    if contexts.all Option.isNone then some "MISSING_VAULT_CONTEXT"
    else if contexts.any fun context => context.any fun context => context.pricePerShare.isNone then
      some "INVALID_VAULT_RATE"
    else if resolution.outputVaultContext.isSome ∧ resolution.outputAssetsToShares.isNone then
      some "MISSING_VAULT_CONVERTER"
    else none

/-- What a resolved price carries, or why the resolver's context cannot be used. -/
def usablePriceContext (context : VaultContext) : Except String VaultContext :=
  if context.pricePerShare.isNone then .error "INVALID_VAULT_RATE" else .ok context

/-- What a resolved quote carries, or why the resolver's answer cannot be used. -/
def usableQuoteResolution (resolution : Option QuoteVaultResolution) : Except String QuoteVaultResolution :=
  match invalidQuoteResolutionReason resolution, resolution with
  | some reason, _ => .error reason
  | none, some resolution => .ok resolution
  -- `__post_init__` raises, which is caught as any other exception
  | none, none => .error "INTERNAL"

/-- Where the limiter of the service lives, and what its environment does in a call: the clock, the waits for the
limiter and the time that has passed when a failure is built. -/
structure VaultSide (V : Type) where
  limiter : Limiter.Site V
  clock : V → ℚ × V
  waits : List (Suspension V)
  elapsedMs : Nat

section Resolve

variable {V Req P C : Type} (settings : Settings) (env : VaultSide V)

def failedResolution (req : Req) (reason : String) : ResolvedRequest Req C :=
  ⟨req, .failed ⟨reason, env.elapsedMs⟩⟩

def acquireVault (units : Int) : Eff V Raised (Option LimitReservation) :=
  Limiter.tryAcquire env.limiter (Eff.step env.clock) units settings.admissionAcquireTimeoutMs env.waits

/-- The `try` block: the resolver's answer, judged. -/
def judgeAnswer (judge : P → Except String C) (req : Req) (answer : Req × P) : ResolvedRequest Req C :=
  match judge answer.2 with
  | .ok context => ⟨answer.1, .resolved context⟩
  | .error reason => failedResolution env req reason

/-- The `except` clauses. -/
def handleException (req : Req) : Raised → Except Raised (ResolvedRequest Req C)
  | .cancelled => .error .cancelled
  | .exception (.invalidRequest type _) =>
    if type = "INVALID_VAULT" then .ok ⟨req, .notVault⟩ else .ok (failedResolution env req type)
  | .exception _ => .ok (failedResolution env req "INTERNAL")

/-- The body that `resolve_price` and `resolve_quote` share. -/
def resolveUnderlying (units : Int) (resolver : Req → Eff V Raised (Req × P)) (judge : P → Except String C)
    (req : Req) (useUnderlying : Bool) : Eff V Raised (ResolvedRequest Req C) :=
  if useUnderlying then do
    match ← acquireVault settings env units with
    | none => pure (failedResolution env req "VAULT_CAPACITY")
    | some reservation =>
      Eff.tryFinally
        (Eff.tryExcept (do pure (judgeAnswer env judge req (← resolver req)))
          fun exc => Eff.ofExcept (handleException env req exc))
        (do let _ ← Limiter.release env.limiter reservation)
  else pure ⟨req, .notRequested⟩

def resolvePrice (resolver : ProviderPriceRequest → Eff V Raised (ProviderPriceRequest × VaultContext))
    (req : ProviderPriceRequest) (useUnderlying : Bool) : Eff V Raised ResolvedPriceRequest :=
  resolveUnderlying settings env 1 resolver usablePriceContext req useUnderlying

def resolveQuote
    (resolver : ProviderQuoteRequest → Eff V Raised (ProviderQuoteRequest × Option QuoteVaultResolution))
    (req : ProviderQuoteRequest) (useUnderlying : Bool) : Eff V Raised ResolvedQuoteRequest :=
  resolveUnderlying settings env 2 resolver usableQuoteResolution req useUnderlying

/-! What a resolution comes to. -/

/-- What becomes of the resolver's outcome. -/
def settle (judge : P → Except String C) (req : Req) : Except Raised (Req × P) → Except Raised (ResolvedRequest Req C)
  | .ok answer => .ok (judgeAnswer env judge req answer)
  | .error exc => handleException env req exc

/-- The limiter gives the units, and the resolver is asked and answers. -/
def Answers (units : Int) (resolver : Req → Eff V Raised (Req × P)) (req : Req) (v : V)
    (answer : Except Raised (Req × P)) : Prop :=
  ∃ reservation v₁, acquireVault settings env units v = (.ok (some reservation), v₁) ∧ (resolver req v₁).1 = answer

variable {settings env} {units : Int} {resolver : Req → Eff V Raised (Req × P)} {judge : P → Except String C}
  {req : Req} {v : V} {answer : Except Raised (Req × P)}

theorem Answers.unique {answer' : Except Raised (Req × P)} (h : Answers settings env units resolver req v answer)
    (h' : Answers settings env units resolver req v answer') : answer = answer' := by
  obtain ⟨r, v₁, ha, rfl⟩ := h
  obtain ⟨r', v₁', ha', rfl⟩ := h'
  rw [ha] at ha'
  cases ha'
  rfl

/-- Only `INVALID_VAULT` lets the request through as it is; any other exception is a failure. -/
theorem handleException_exception (env : VaultSide V) (req : Req) (exc : Exn) :
    ((∃ message, exc = .invalidRequest "INVALID_VAULT" message) ∧
        handleException (C := C) env req (.exception exc) = .ok ⟨req, .notVault⟩) ∨
      ((¬ ∃ message, exc = .invalidRequest "INVALID_VAULT" message) ∧
        ∃ failure, handleException (C := C) env req (.exception exc) = .ok ⟨req, .failed failure⟩) := by
  unfold handleException
  cases exc with
  | invalidRequest type message =>
    by_cases htype : type = "INVALID_VAULT"
    · subst htype
      exact .inl ⟨⟨message, rfl⟩, rfl⟩
    · refine .inr ⟨?_, ⟨type, env.elapsedMs⟩, if_neg htype⟩
      rintro ⟨message', h⟩
      cases h
      exact htype rfl
  | _ => exact .inr ⟨by simp, ⟨"INTERNAL", env.elapsedMs⟩, rfl⟩

/-- Releasing a reservation always returns. -/
private theorem release_returns (env : VaultSide V) (r : LimitReservation) (v : V) :
    ∃ v', (do let _ ← Limiter.release env.limiter r : Eff V Raised Unit) v = (.ok (), v') := by
  unfold Limiter.release
  by_cases hr : r.released = true
  · rw [if_pos hr]
    exact ⟨v, rfl⟩
  · rw [if_neg hr]
    by_cases hu : 0 < r.units
    · rw [if_pos hu]
      exact ⟨env.limiter.give r.units v, rfl⟩
    · rw [if_neg hu]
      exact ⟨v, rfl⟩

theorem resolveUnderlying_of_answers (judge : P → Except String C)
    (h : Answers settings env units resolver req v answer) :
    ∃ v', resolveUnderlying settings env units resolver judge req true v = (settle env judge req answer, v') := by
  obtain ⟨reservation, v₁, hacquire, rfl⟩ := h
  obtain ⟨v', hv'⟩ := release_returns env reservation (resolver req v₁).2
  refine ⟨v', ?_⟩
  unfold resolveUnderlying
  rw [if_pos rfl, bind_ok hacquire]
  have hbody : Eff.tryExcept (do pure (judgeAnswer env judge req (← resolver req)))
      (fun exc => Eff.ofExcept (handleException env req exc)) v₁ =
      (settle env judge req (resolver req v₁).1, (resolver req v₁).2) := by
    unfold Eff.tryExcept
    rw [bind_run]
    rcases resolver req v₁ with ⟨e | a, v₂⟩ <;> rfl
  show Eff.tryFinally _ _ v₁ = _
  unfold Eff.tryFinally
  rw [hbody, hv']

theorem resolveUnderlying_of_capacity {v₁ : V} (h : acquireVault settings env units v = (.ok none, v₁)) :
    resolveUnderlying settings env units resolver judge req true v =
      (.ok (failedResolution env req "VAULT_CAPACITY"), v₁) := by
  unfold resolveUnderlying
  rw [if_pos rfl, bind_ok h]
  rfl

/-- Unless the caller is cancelled while it waits, the limiter gives the units or has no capacity. -/
theorem acquireVault_returns (settings : Settings) (hunits : 0 < units)
    (hwaits : ∀ s ∈ env.waits, s.wakeUp ≠ .cancelled) (v : V) :
    ∃ reservation v₁, acquireVault settings env units v = (.ok reservation, v₁) := by
  have h : Outcome (Limiter.Acquired (fun _ => True) (fun _ => True) units.toNat)
      (fun e s => True ∧ Limiter.AcquireRaises settings.admissionAcquireTimeoutMs env.waits e)
      (acquireVault settings env units v) :=
    Limiter.tryAcquire_triple hunits (fun _ => Triple.step fun _ _ => trivial) (fun _ _ _ _ => trivial)
      (fun _ _ => trivial) v trivial
  rcases ha : acquireVault settings env units v with ⟨e | reservation, v₁⟩
  · rw [ha] at h
    obtain ⟨-, hraises⟩ := h
    cases e with
    | cancelled =>
      obtain ⟨s, hs, hc⟩ := hraises
      exact absurd hc (hwaits s hs)
    | exception exc =>
      obtain ⟨-, hf⟩ := hraises
      exact absurd (by simpa using settings.admissionAcquireTimeoutMs_fits) hf
  · exact ⟨reservation, v₁, rfl⟩

end Resolve

/-! ### Prices of shares -/

/-- `_vault_share_to_asset_multiplier`; a rate is positive. -/
def vaultShareToAssetMultiplier : Option Rate → Except Exn Decimal
  | none => .error (.invalidRequest "INVALID_VAULT_RATE" "Invalid vault price_per_share")
  | some pricePerShare => .ok pricePerShare.val

/-- One turn of the loop of `apply_price_context`. -/
def applyPriceToResult (context : VaultContext) (multiplier : Decimal) (result : PriceResult) :
    Except Exn PriceResult :=
  if result.status = .ok then
    match result.priceUsd with
    | none => .ok { result with vaultContext := some context }
    | some price =>
      (decimalOp (price.mul multiplier)).map fun priceUsd =>
        { result with priceUsd := some priceUsd, vaultContext := some context }
  else .ok result

def applyPriceContext (results : List PriceResult) : Option VaultContext → Except Exn (List PriceResult)
  | none => .ok results
  | some context =>
    match vaultShareToAssetMultiplier context.pricePerShare with
    | .ok multiplier => (Eff.mapEach (fun r => Eff.ofExcept (applyPriceToResult context multiplier r)) results ()).1
    | .error (.invalidRequest ..) => .ok results
    | .error exc => .error exc

/-! ### Quotes between shares -/

/-- A value that is an amount of at most 256 bits: an integer that is no boolean. -/
def validConvertedAmount (allowZero : Bool) : PyObj → Option Int
  | .int n => if (if allowZero then 0 ≤ n else 0 < n) ∧ n ≤ maxUint256 then some n else none
  | _ => none

/-- A call of the converter; the state is the arguments of the calls so far. -/
def callConverter (assetsToShares : AssetsToShares) (assets : Int) : Eff (List Int) Exn PyObj := fun calls =>
  (assetsToShares calls assets, calls ++ [assets])

/-- `_convert_quote_output_amounts`. -/
def convertQuoteOutputAmounts (amountOut amountOutMin : Option Int) (assetsToShares : AssetsToShares) :
    Eff (List Int) Exn (Int × Option Int) := do
  match amountOut with
  | none => Eff.raise (.valueError "Successful quote result is missing amount_out")
  | some amountOut =>
    let converted ← callConverter assetsToShares amountOut
    let convertedMin ←
      match amountOutMin with
      | none => pure .none
      | some amountOutMin => callConverter assetsToShares amountOutMin
    match validConvertedAmount false converted with
    | none => Eff.raise (.valueError "Converted amount_out is outside uint256 bounds")
    | some converted =>
      match convertedMin with
      | .none => pure (converted, none)
      | convertedMin =>
        match validConvertedAmount true convertedMin with
        | none => Eff.raise (.valueError "Converted amount_out_min is invalid")
        | some convertedMin =>
          if converted < convertedMin then Eff.raise (.valueError "Converted amount_out_min is invalid")
          else pure (converted, some convertedMin)

/-- `_mark_quote_conversion_failure`. -/
def markQuoteConversionFailure (result : QuoteResult) : QuoteResult :=
  { result with
    status := .error
    amountOut := none
    amountOutMin := none
    error := some { type := .invalidVaultConversion
                    message := "Failed to convert output amount into vault share base units" } }

/-- `_quote_vault_context`; with two legs the context is validated anew. -/
def quoteVaultContext (eth : EthUtils) : Option VaultContext → Option VaultContext → Except Exn (Option VaultContext)
  | none, none => .ok none
  | some inputContext, none =>
    .ok (some { inputContext with
      underlyingToken := none, underlyingTokenIn := inputContext.underlyingToken, underlyingTokenOut := none
      pricePerShare := none, pricePerShareTokenIn := inputContext.pricePerShare, pricePerShareTokenOut := none })
  | none, some outputContext =>
    .ok (some { outputContext with
      underlyingToken := none, underlyingTokenIn := none, underlyingTokenOut := outputContext.underlyingToken
      pricePerShare := none, pricePerShareTokenIn := none, pricePerShareTokenOut := outputContext.pricePerShare })
  | some inputContext, some outputContext => do
    let underlyingTokenIn ← normalizeUnderlying inputContext.underlyingToken
    let underlyingTokenOut ← normalizeUnderlying outputContext.underlyingToken
    pure (some
      { vaultType := if inputContext.vaultType = outputContext.vaultType then inputContext.vaultType else none
        underlyingTokenIn, underlyingTokenOut
        pricePerShareTokenIn := inputContext.pricePerShare
        pricePerShareTokenOut := outputContext.pricePerShare
        blockNumber := inputContext.blockNumber })
where
  normalizeUnderlying : Option String → Except Exn (Option String)
    | none => .ok none
    | some token => (normalizeAddress eth token).map some

/-- One turn of the loop of `apply_quote_resolution`; a result that is not OK is left as it is. -/
def applyQuoteToResult (eth : EthUtils) (req : ProviderQuoteRequest) (resolution : QuoteVaultResolution)
    (result : QuoteResult) : Eff (List Int) Exn QuoteResult :=
  if result.status = .ok then
    let result := { result with amountIn := some req.amountIn }
    let withContext (result : QuoteResult) : Eff (List Int) Exn QuoteResult := do
      let context ← Eff.ofExcept (quoteVaultContext eth resolution.inputVaultContext resolution.outputVaultContext)
      pure { result with vaultContext := context }
    match resolution.outputVaultContext, resolution.outputAssetsToShares with
    | none, _ => withContext result
    | some _, none => pure (markQuoteConversionFailure result)
    | some _, some assetsToShares => do
      let converted ← Eff.tryExcept
        (do pure (some (← convertQuoteOutputAmounts result.amountOut result.amountOutMin assetsToShares)))
        fun _ => pure none
      match converted with
      | none => pure (markQuoteConversionFailure result)
      | some (amountOut, amountOutMin) => withContext { result with amountOut := some amountOut, amountOutMin }
  else pure result

def applyQuoteResolution (eth : EthUtils) (req : ProviderQuoteRequest) (results : List QuoteResult) :
    Option QuoteVaultResolution → Except Exn (List QuoteResult)
  | none => .ok results
  | some resolution => (Eff.mapEach (applyQuoteToResult eth req resolution) results []).1

end TokenPriceAgg

import TokenPriceAgg.Core.Errors

/-!
# Requests and results

The result models are mutable and are validated only when they are built, so `PriceResult` and `QuoteResult` are
plain records; `PriceResult.new` and `QuoteResult.new` are the validating constructors, `Valid` is what the
validators check, and `AcceptedPriceResult`, `AcceptedQuoteResult` are the results a provider can hand over.
-/

namespace TokenPriceAgg

open PyLib

abbrev Bytes := List UInt8

def maxUint256 : Int := 2 ^ 256 - 1

def maxNormalizedDecimalExponent : Int := 100

structure TokenRef where
  chainId : Int
  address : String
  symbol : Option String := none
  decimals : Option Int := none
  logoUrl : Option String := none
deriving DecidableEq, Repr

inductive VaultType
  | erc4626
  | yearnV2
deriving DecidableEq, Repr

/-- A positive rate; `VaultContext` rejects any other. -/
abbrev Rate := {d : Decimal // d.Positive}

structure VaultContext where
  vaultType : Option VaultType := none
  underlyingToken : Option String := none
  underlyingTokenIn : Option String := none
  underlyingTokenOut : Option String := none
  pricePerShare : Option Rate := none
  pricePerShareTokenIn : Option Rate := none
  pricePerShareTokenOut : Option Rate := none
  blockNumber : Nat
deriving DecidableEq

structure ProviderPriceRequest where
  chainId : Int
  token : TokenRef
  timeoutMs : Option Int := none
deriving DecidableEq, Repr

structure ProviderQuoteRequest where
  chainId : Int
  tokenIn : TokenRef
  tokenOut : TokenRef
  amountIn : Int
  timeoutMs : Option Int := none
deriving DecidableEq, Repr

structure PriceResult where
  provider : String
  status : ProviderStatus
  token : Option TokenRef := none
  priceUsd : Option Decimal := none
  latencyMs : Int
  /-- the instant in microseconds since the epoch -/
  asOf : Option Int := none
  error : Option ErrorInfo := none
  vaultContext : Option VaultContext := none
deriving DecidableEq

structure QuoteResult where
  provider : String
  status : ProviderStatus
  tokenIn : Option TokenRef := none
  tokenOut : Option TokenRef := none
  amountIn : Option Int := none
  amountOut : Option Int := none
  amountOutMin : Option Int := none
  priceImpactBps : Option Int := none
  estimatedGas : Option Int := none
  latencyMs : Int
  /-- the instant in microseconds since the epoch -/
  asOf : Option Int := none
  error : Option ErrorInfo := none
  vaultContext : Option VaultContext := none
deriving DecidableEq

/-- `PriceResult._validate_price`. -/
def ValidPrice (d : Decimal) : Prop := d.Positive ∧ |d.adjusted| ≤ maxNormalizedDecimalExponent

instance (d : Decimal) : Decidable (ValidPrice d) := inferInstanceAs (Decidable (_ ∧ _))

/-- `Field(ge=0, le=MAX_UINT256)`. -/
def IsUint256 (n : Int) : Prop := 0 ≤ n ∧ n ≤ maxUint256

instance (n : Int) : Decidable (IsUint256 n) := inferInstanceAs (Decidable (_ ∧ _))

/-- What the validators of `PriceResult` check. -/
structure PriceResult.Valid (r : PriceResult) : Prop where
  latency : 0 ≤ r.latencyMs
  price : ∀ d ∈ r.priceUsd, ValidPrice d
  ok_price : r.status = .ok → r.priceUsd.isSome
  ok_error : r.status = .ok → r.error = none

/-- What the validators of `QuoteResult` check. -/
structure QuoteResult.Valid (r : QuoteResult) : Prop where
  latency : 0 ≤ r.latencyMs
  amountIn : ∀ n ∈ r.amountIn, IsUint256 n
  amountOut : ∀ n ∈ r.amountOut, IsUint256 n
  amountOutMin : ∀ n ∈ r.amountOutMin, IsUint256 n
  estimatedGas : ∀ n ∈ r.estimatedGas, IsUint256 n
  ok_amount : r.status = .ok → ∃ n ∈ r.amountOut, 0 < n
  ok_error : r.status = .ok → r.error = none
  min_le : ∀ m ∈ r.amountOutMin, ∀ n ∈ r.amountOut, m ≤ n

instance (r : PriceResult) : Decidable r.Valid :=
  decidable_of_iff (0 ≤ r.latencyMs ∧ (∀ d ∈ r.priceUsd, ValidPrice d) ∧
      (r.status = .ok → r.priceUsd.isSome) ∧ (r.status = .ok → r.error = none))
    ⟨fun ⟨a, b, c, d⟩ => ⟨a, b, c, d⟩, fun ⟨a, b, c, d⟩ => ⟨a, b, c, d⟩⟩

instance (r : QuoteResult) : Decidable r.Valid :=
  decidable_of_iff (0 ≤ r.latencyMs ∧ (∀ n ∈ r.amountIn, IsUint256 n) ∧ (∀ n ∈ r.amountOut, IsUint256 n) ∧
      (∀ n ∈ r.amountOutMin, IsUint256 n) ∧ (∀ n ∈ r.estimatedGas, IsUint256 n) ∧
      (r.status = .ok → ∃ n ∈ r.amountOut, 0 < n) ∧ (r.status = .ok → r.error = none) ∧
      ∀ m ∈ r.amountOutMin, ∀ n ∈ r.amountOut, m ≤ n)
    ⟨fun ⟨a, b, c, d, e, f, g, h⟩ => ⟨a, b, c, d, e, f, g, h⟩,
      fun ⟨a, b, c, d, e, f, g, h⟩ => ⟨a, b, c, d, e, f, g, h⟩⟩

/-- `PriceResult(...)`: the record, or a `ValidationError`. -/
def PriceResult.new (r : PriceResult) : Except Exn PriceResult :=
  if r.Valid then .ok r else .error .validationError

/-- `QuoteResult(...)`: the record, or a `ValidationError`. -/
def QuoteResult.new (r : QuoteResult) : Except Exn QuoteResult :=
  if r.Valid then .ok r else .error .validationError

theorem PriceResult.new_of_valid {r : PriceResult} (h : r.Valid) : PriceResult.new r = .ok r := if_pos h

theorem QuoteResult.new_of_valid {r : QuoteResult} (h : r.Valid) : QuoteResult.new r = .ok r := if_pos h

theorem PriceResult.new_of_not_valid {r : PriceResult} (h : ¬ r.Valid) :
    PriceResult.new r = .error .validationError := if_neg h

theorem QuoteResult.new_of_not_valid {r : QuoteResult} (h : ¬ r.Valid) :
    QuoteResult.new r = .error .validationError := if_neg h

theorem PriceResult.valid_of_new {r r' : PriceResult} (h : PriceResult.new r = .ok r') : r'.Valid := by
  unfold PriceResult.new at h
  split at h
  · exact (Except.ok.inj h) ▸ ‹_›
  · cases h

theorem QuoteResult.valid_of_new {r r' : QuoteResult} (h : QuoteResult.new r = .ok r') : r'.Valid := by
  unfold QuoteResult.new at h
  split at h
  · exact (Except.ok.inj h) ▸ ‹_›
  · cases h

/-- A result the model accepts. -/
abbrev AcceptedPriceResult := {r : PriceResult // r.Valid}

/-- A result the model accepts. -/
abbrev AcceptedQuoteResult := {r : QuoteResult // r.Valid}

/-- A failure without price, token data apart, is valid as soon as its latency is. -/
theorem PriceResult.valid_failure {r : PriceResult} (hs : r.status ≠ .ok) (hp : r.priceUsd = none)
    (hl : 0 ≤ r.latencyMs) : r.Valid where
  latency := hl
  price := by simp [hp]
  ok_price := fun h => absurd h hs
  ok_error := fun h => absurd h hs

/-- A failure that echoes the input amount is valid exactly when its latency and the amount are. -/
theorem QuoteResult.valid_failure {r : QuoteResult} (hs : r.status ≠ .ok) (ho : r.amountOut = none)
    (hm : r.amountOutMin = none) (hg : r.estimatedGas = none) :
    r.Valid ↔ 0 ≤ r.latencyMs ∧ ∀ n ∈ r.amountIn, IsUint256 n := by
  constructor
  · exact fun h => ⟨h.latency, h.amountIn⟩
  · rintro ⟨hl, ha⟩
    exact ⟨hl, ha, by simp [ho], by simp [hm], by simp [hg], fun h => absurd h hs, fun h => absurd h hs,
      by simp [hm]⟩

/-- What the runner and the circuit read of a result. -/
class ProviderResult (R : Type) where
  provider : R → String
  status : R → ProviderStatus
  error : R → Option ErrorInfo
  latencyMs : R → Int

instance : ProviderResult PriceResult := ⟨(·.provider), (·.status), (·.error), (·.latencyMs)⟩

instance : ProviderResult QuoteResult := ⟨(·.provider), (·.status), (·.error), (·.latencyMs)⟩

instance {R : Type} [ProviderResult R] (p : R → Prop) : ProviderResult {r : R // p r} where
  provider r := ProviderResult.provider r.val
  status r := ProviderResult.status r.val
  error r := ProviderResult.error r.val
  latencyMs r := ProviderResult.latencyMs r.val

/-- `PriceResult | QuoteResult`. -/
abbrev AnyResult := AcceptedPriceResult ⊕ AcceptedQuoteResult

instance : ProviderResult AnyResult where
  provider := Sum.elim ProviderResult.provider ProviderResult.provider
  status := Sum.elim ProviderResult.status ProviderResult.status
  error := Sum.elim ProviderResult.error ProviderResult.error
  latencyMs := Sum.elim ProviderResult.latencyMs ProviderResult.latencyMs

end TokenPriceAgg

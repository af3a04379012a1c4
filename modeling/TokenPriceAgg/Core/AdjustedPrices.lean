import TokenPriceAgg.Core.AddressForms
import TokenPriceAgg.Core.VaultUnderlying
import TokenPriceAgg.Lib.Decimals

/-!
# The bounds of a vault-adjusted price

`apply_price_context` multiplies the price of each successful result by the rate of the vault and assigns the product
without validating it.  The product is always finite and positive.  Its adjusted exponent stays within the bound of
`PriceResult` exactly when the exact product rounds to at least `10 ^ -100` and to less than `10 ^ 101`.
-/

namespace TokenPriceAgg

open PyLib

/-- The exact value of a price whose rounding the validator of `PriceResult` accepts. -/
def RoundsWithinBounds (value : ℚ) : Prop := Decimal.roundingEdge (-100) ≤ value ∧ value < Decimal.roundingEdge 101

/-! ### The rate of a vault -/

private theorem numDigits_of_isUint256 {n : Nat} (h : IsUint256 n) : Decimal.numDigits n ≤ 78 := by
  refine Decimal.numDigits_le_of_lt (by norm_num) ?_
  have hmax : maxUint256 < 10 ^ 78 := by norm_num [maxUint256]
  have hle := h.2
  omega

/-- The rate of a vault with a rate of at most 256 bits is a positive decimal of moderate exponent. -/
private theorem VaultInfo.pricePerShare_moderate {vault : VaultInfo} (h : IsUint256 vault.assetsPerShareUnit) :
    ∃ rate, vault.pricePerShare = .ok rate ∧ rate.Positive ∧ |rate.adjusted| ≤ 1000 := by
  obtain ⟨decimals, hunit⟩ := vault.underlyingUnit_eq
  have hpos : 0 < vault.underlyingUnit := by
    rw [hunit]
    positivity
  have hdigits : Decimal.numDigits vault.underlyingUnit ≤ 200 := by
    have hd := decimals.property
    unfold maxSafeTokenDecimals at hd
    rw [hunit, Decimal.numDigits, Nat.log_pow (by norm_num)]
    omega
  obtain ⟨rate, hdiv, hrate⟩ := Decimal.div_ofNat_moderate vault.assetsPerShareUnit_pos hpos
    ((numDigits_of_isUint256 h).trans (by norm_num)) hdigits
  refine ⟨rate, ?_, hrate⟩
  unfold pricePerShare
  rw [if_neg hpos.ne', hdiv]
  rfl

/-! ### One result -/

/-- A valid price times a rate: the product is positive, and its exponent is in bounds exactly when the exact product
rounds into them. -/
private theorem mul_validPrice {price rate : Decimal} (hprice : ValidPrice price) (hpos : rate.Positive)
    (hrate : |rate.adjusted| ≤ 1000) :
    ∃ product, price.mul rate = .ok product ∧ product.Positive ∧
      (ValidPrice product ↔ RoundsWithinBounds (price.toRat * rate.toRat)) := by
  obtain ⟨hpositive, hadjusted⟩ := hprice
  have hmax : maxNormalizedDecimalExponent = 100 := rfl
  rw [hmax] at hadjusted
  have hp := abs_le.1 hadjusted
  have hr := abs_le.1 hrate
  have hemin : Decimal.emin = -999999 := rfl
  have hemax : Decimal.emax = 999999 := rfl
  obtain ⟨product, hmul, hproduct, hmag⟩ := Decimal.mul_magnitude hpositive hpos (by omega) (by omega)
  refine ⟨product, hmul, hproduct, ?_⟩
  unfold ValidPrice RoundsWithinBounds
  rw [hmax, abs_le, ← hmag, ← not_le, ← hmag]
  constructor
  · rintro ⟨-, hlow, hhigh⟩
    exact ⟨hlow, by omega⟩
  · rintro ⟨hlow, hhigh⟩
    exact ⟨hproduct, hlow, by omega⟩

/-- What `apply_price_context` makes of a valid result. -/
private theorem applyPriceToResult_valid (context : VaultContext) {rate : Decimal} (hpos : rate.Positive)
    (hrate : |rate.adjusted| ≤ 1000) {result : PriceResult} (hvalid : result.Valid) :
    ∃ adjusted, applyPriceToResult context rate result = .ok adjusted ∧ adjusted.status = result.status ∧
      (∀ price ∈ adjusted.priceUsd, price.Positive) ∧
      (adjusted.Valid ↔
        (result.status = .ok → ∀ price ∈ result.priceUsd, RoundsWithinBounds (price.toRat * rate.toRat))) := by
  unfold applyPriceToResult
  by_cases hok : result.status = .ok
  · rw [if_pos hok]
    obtain ⟨price, hprice⟩ := Option.isSome_iff_exists.1 (hvalid.ok_price hok)
    have hpriceValid : ValidPrice price := hvalid.price price hprice
    obtain ⟨product, hmul, hproduct, hbounds⟩ := mul_validPrice hpriceValid hpos hrate
    refine ⟨{ result with priceUsd := some product, vaultContext := some context }, ?_, rfl, ?_, ?_⟩
    · simp only [hprice, hmul]
      rfl
    · rintro p ⟨⟩
      exact hproduct
    · constructor
      · rintro hadjusted - p hp
        rw [hprice] at hp
        cases hp
        exact hbounds.1 (hadjusted.price product rfl)
      · intro h
        refine ⟨hvalid.latency, ?_, fun _ => rfl, hvalid.ok_error⟩
        rintro p ⟨⟩
        exact hbounds.2 (h hok price hprice)
  · rw [if_neg hok]
    refine ⟨result, rfl, rfl, fun price hp => (hvalid.price price hp).1, ?_⟩
    exact iff_of_true hvalid fun h => absurd h hok

/-! ### All results -/

/-- After the adjustment by the rate of a vault every successful result is valid exactly when the exact product of
each successful price and the rate rounds into the bounds. -/
theorem adjusted_prices_valid_iff {eth : EthUtils} {vault : VaultInfo} {blockNumber : Int} {context : VaultContext}
    (hunit : IsUint256 vault.assetsPerShareUnit)
    (hcontext : VaultResolver.vaultContext eth vault blockNumber = .ok context) {results : List PriceResult}
    (hresults : ∀ result ∈ results, result.Valid) :
    ∃ rate adjusted, vault.pricePerShare = .ok rate ∧ applyPriceContext results (some context) = .ok adjusted ∧
      (∀ result ∈ adjusted, ∀ price ∈ result.priceUsd, price.Positive) ∧
      ((∀ result ∈ adjusted, result.status = .ok → result.Valid) ↔
        ∀ result ∈ results, result.status = .ok →
          ∀ price ∈ result.priceUsd, RoundsWithinBounds (price.toRat * rate.toRat)) := by
  obtain ⟨rate, hrate, hpos, hmoderate⟩ := VaultInfo.pricePerShare_moderate hunit
  have hmultiplier : vaultShareToAssetMultiplier context.pricePerShare = .ok rate := by
    obtain ⟨pricePerShare, hsome, hval⟩ := VaultResolver.vaultContext_pricePerShare hcontext
    rw [hrate] at hval
    rw [hsome]
    exact congrArg _ (Except.ok.inj hval).symm
  obtain ⟨adjusted, hall⟩ := Eff.exists_forall₂ fun result hr =>
    applyPriceToResult_valid context hpos hmoderate (hresults result hr)
  refine ⟨rate, adjusted, hrate, ?_, ?_, ?_⟩
  · unfold applyPriceContext
    simp only [hmultiplier]
    rw [Eff.mapEach_ofExcept (hall.imp fun _ _ h => h.1)]
  · have hpositive := Eff.forall_mem_iff_of_forall₂ (p := fun _ => True)
      (q := fun result : PriceResult => ∀ price ∈ result.priceUsd, price.Positive)
      (hall.imp fun _ _ h => iff_of_true h.2.2.1 trivial)
    exact hpositive.2 fun _ _ => trivial
  · refine Eff.forall_mem_iff_of_forall₂ (hall.imp fun result result' h => ?_)
    obtain ⟨-, hstatus, -, hvalid⟩ := h
    rw [hvalid, hstatus]
    exact ⟨fun h hok => h hok hok, fun h hok _ => h hok⟩

/-! ### A vault whose share is worth ten tokens -/

private theorem tenfold_pos : 0 < 10 := by decide

/-- A vault without decimals whose share is worth ten tokens. -/
def Example.tenfoldVault : VaultInfo :=
  .fromErc4626 ⟨Example.savingsDai, Example.dai, ⟨0, Nat.zero_le _⟩, ⟨0, Nat.zero_le _⟩, ⟨10, tenfold_pos⟩⟩

/-- Its context in block seven. -/
def Example.tenfoldContext : VaultContext where
  vaultType := some .erc4626
  underlyingToken := some dai
  pricePerShare := some ⟨⟨false, 10, 0⟩, by decide⟩
  blockNumber := 7

/-- A quoted price of `5 * 10 ^ exponent`. -/
def Example.priced (exponent : Int) : PriceResult where
  provider := "curve"
  status := .ok
  priceUsd := some ⟨false, 5, exponent⟩
  latencyMs := 3

private theorem tenfold_context :
    VaultResolver.vaultContext Example.eth Example.tenfoldVault 7 = .ok Example.tenfoldContext := by
  decide +kernel

private theorem tenfold_rate {rate : Decimal} (h : Example.tenfoldVault.pricePerShare = .ok rate) :
    rate = ⟨false, 10, 0⟩ := by
  have hrate : Example.tenfoldVault.pricePerShare = .ok ⟨false, 10, 0⟩ := by decide +kernel
  rw [hrate] at h
  exact (Except.ok.inj h).symm

/-- At a price of `5` the adjusted price is in bounds. -/
theorem adjusted_prices_valid_five :
    ∃ adjusted, applyPriceContext [Example.priced 0] (some Example.tenfoldContext) = .ok adjusted ∧
      ∀ result ∈ adjusted, result.status = .ok → result.Valid := by
  have hunit : IsUint256 Example.tenfoldVault.assetsPerShareUnit := by decide
  have hresults : ∀ result ∈ [Example.priced 0], result.Valid := by decide +kernel
  obtain ⟨rate, adjusted, hrate, happly, -, hvalid⟩ := adjusted_prices_valid_iff hunit tenfold_context hresults
  refine ⟨adjusted, happly, hvalid.2 ?_⟩
  rw [tenfold_rate hrate]
  rintro result hr - price hp
  obtain rfl : result = Example.priced 0 := by simpa using hr
  obtain rfl : price = ⟨false, 5, 0⟩ := by simpa [Example.priced] using hp.symm
  norm_num [RoundsWithinBounds, Decimal.roundingEdge, Decimal.toRat]

/-- At a price of `5E+100`, which the model accepts, the adjusted price stays successful and is out of bounds. -/
theorem adjusted_price_out_of_bounds :
    (Example.priced 100).Valid ∧
      VaultResolver.vaultContext Example.eth Example.tenfoldVault 7 = .ok Example.tenfoldContext ∧
      ∃ adjusted, applyPriceContext [Example.priced 100] (some Example.tenfoldContext) = .ok [adjusted] ∧
        adjusted.status = .ok ∧ ¬ adjusted.Valid :=
  ⟨by decide +kernel, tenfold_context,
    { Example.priced 100 with
      priceUsd := some ⟨false, 50, 100⟩
      vaultContext := some Example.tenfoldContext },
    by decide +kernel, rfl, by decide +kernel⟩

end TokenPriceAgg

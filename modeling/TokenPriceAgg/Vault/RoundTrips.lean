import TokenPriceAgg.Lib.FloorRates
import TokenPriceAgg.Vault.Resolver

/-!
# Shares and assets, there and back

The two conversions of a vault are floors at opposite rates: shares to assets in the class of the vault's kind, assets
to shares in `_VaultInfo`.  A round trip never creates value.
-/

namespace TokenPriceAgg

open PyLib

namespace VaultInfo

variable {vault : VaultInfo}

private theorem shareUnit_pos (vault : VaultInfo) : 0 < vault.shareUnit := by
  obtain ⟨decimals, h⟩ := vault.shareUnit_eq
  rw [h]
  positivity

private theorem convertSharesToAssets_eq (vault : VaultInfo) (shares : Int) :
    vault.convertSharesToAssets shares = shares * vault.assetsPerShareUnit / vault.shareUnit :=
  vault.convert_eq shares

/-- A vault has a positive rate, so that its conversion of assets never raises. -/
private theorem convertAssetsToShares_eq (vault : VaultInfo) (assets : Int) :
    vault.convertAssetsToShares assets = .ok (assets * vault.shareUnit / vault.assetsPerShareUnit) :=
  if_neg vault.assetsPerShareUnit_pos.ne'

/-- No conversion of a vault creates value, where `a` assets are worth `u` shares. -/
structure CreatesNoValue (vault : VaultInfo) (a u : Nat) : Prop where
  assets_mono : ∀ shares shares', 0 ≤ shares → shares ≤ shares' →
    vault.convertSharesToAssets shares ≤ vault.convertSharesToAssets shares'
  shares_mono : ∀ assets assets', 0 ≤ assets → assets ≤ assets' →
    ∃ shares shares', vault.convertAssetsToShares assets = .ok shares ∧
      vault.convertAssetsToShares assets' = .ok shares' ∧ shares ≤ shares'
  shares_back : ∀ shares, 0 ≤ shares →
    ∃ back, vault.convertAssetsToShares (vault.convertSharesToAssets shares) = .ok back ∧
      back ≤ shares ∧ shares - back ≤ ⌈(u : ℚ) / a⌉
  assets_back : ∀ assets, 0 ≤ assets →
    ∃ shares, vault.convertAssetsToShares assets = .ok shares ∧
      vault.convertSharesToAssets shares ≤ assets ∧ assets - vault.convertSharesToAssets shares ≤ ⌈(a : ℚ) / u⌉
  shares_exact : ∀ shares, 0 ≤ shares → (u : Int) ∣ shares * a →
    vault.convertAssetsToShares (vault.convertSharesToAssets shares) = .ok shares

private theorem createsNoValue (vault : VaultInfo) : vault.CreatesNoValue vault.assetsPerShareUnit vault.shareUnit := by
  have ha : (0 : Int) < vault.assetsPerShareUnit := Int.natCast_pos.2 vault.assetsPerShareUnit_pos
  have hu : (0 : Int) < vault.shareUnit := Int.natCast_pos.2 vault.shareUnit_pos
  refine ⟨?_, ?_, ?_, ?_, ?_⟩
  · intro shares shares' _ hle
    rw [convertSharesToAssets_eq, convertSharesToAssets_eq]
    exact FloorRate.mono hu ha.le hle
  · intro assets assets' _ hle
    exact ⟨_, _, convertAssetsToShares_eq vault assets, convertAssetsToShares_eq vault assets',
      FloorRate.mono ha hu.le hle⟩
  · intro shares _
    rw [convertSharesToAssets_eq, convertAssetsToShares_eq]
    have hloss := FloorRate.round_trip_loss ha hu shares
    rw [Int.cast_natCast, Int.cast_natCast] at hloss
    exact ⟨_, rfl, FloorRate.round_trip_le ha hu shares, hloss⟩
  · intro assets _
    have hloss := FloorRate.round_trip_loss hu ha assets
    rw [Int.cast_natCast, Int.cast_natCast] at hloss
    refine ⟨_, convertAssetsToShares_eq vault assets, ?_, ?_⟩
    · rw [convertSharesToAssets_eq]
      exact FloorRate.round_trip_le hu ha assets
    · rw [convertSharesToAssets_eq]
      exact hloss
  · intro shares _ hdvd
    rw [convertSharesToAssets_eq, convertAssetsToShares_eq]
    exact congrArg _ (FloorRate.round_trip_eq ha hdvd)

end VaultInfo

/-- No vault of either kind creates value, for any decimals and any rate. -/
theorem vault_conversions_create_no_value :
    (∀ info : Erc4626VaultInfo,
      (VaultInfo.fromErc4626 info).CreatesNoValue info.assetsPerShareUnit.val (10 ^ info.shareDecimals.val)) ∧
    ∀ info : YearnV2VaultInfo,
      (VaultInfo.fromYearnV2 info).CreatesNoValue info.pricePerShare.val (10 ^ info.shareDecimals.val) :=
  ⟨fun info => VaultInfo.createsNoValue (.fromErc4626 info), fun info => VaultInfo.createsNoValue (.fromYearnV2 info)⟩

/-- A share of six decimals that is worth 1.098368 tokens: one base unit of it is worth one of the token, which buys
none back. -/
example :
    let vault := VaultInfo.fromErc4626 ⟨"0x1", "0x2", ⟨6, by decide⟩, ⟨6, by decide⟩, ⟨1098368, by decide⟩⟩
    vault.convertSharesToAssets 1 = 1 ∧ vault.convertAssetsToShares 1 = .ok 0 ∧
      vault.convertAssetsToShares 1098368 = .ok 1000000 := by decide +kernel

end TokenPriceAgg

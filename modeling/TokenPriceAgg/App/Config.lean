import TokenPriceAgg.Core.Circuit

/-!
# Settings

The settings the modelled code reads.  `_finalize_provider_settings` rejects a setting that is not positive, so the
structure carries the proofs; a duration is moreover in float range, as every clock reading is.
-/

namespace TokenPriceAgg

open PyLib

structure Settings where
  providerRequestTimeoutMs : Nat
  providerGlobalLimit : Nat
  providerGlobalUnits : Option Nat
  providerPerProviderUnits : Nat
  vaultGlobalUnits : Nat
  admissionAcquireTimeoutMs : Nat
  circuit : CircuitConfig
  vaultPositiveCacheTtlS : Nat
  vaultNegativeCacheTtlS : Nat
  vaultCacheMaxEntries : Nat
  providerRequestTimeoutMs_pos : 0 < providerRequestTimeoutMs
  providerGlobalLimit_pos : 0 < providerGlobalLimit
  providerGlobalUnits_pos : ∀ n ∈ providerGlobalUnits, 0 < n
  providerPerProviderUnits_pos : 0 < providerPerProviderUnits
  vaultGlobalUnits_pos : 0 < vaultGlobalUnits
  admissionAcquireTimeoutMs_pos : 0 < admissionAcquireTimeoutMs
  vaultPositiveCacheTtlS_pos : 0 < vaultPositiveCacheTtlS
  vaultNegativeCacheTtlS_pos : 0 < vaultNegativeCacheTtlS
  vaultCacheMaxEntries_pos : 0 < vaultCacheMaxEntries
  admissionAcquireTimeoutMs_fits : FitsFloat admissionAcquireTimeoutMs 1000

namespace Settings

private theorem defaultPositiveCacheTtlS_pos : 0 < 30 := by decide

/-- The defaults. -/
def default : Settings where
  providerRequestTimeoutMs := 800
  providerGlobalLimit := 200
  providerGlobalUnits := none
  providerPerProviderUnits := 20
  vaultGlobalUnits := 16
  admissionAcquireTimeoutMs := 25
  circuit := .default
  vaultPositiveCacheTtlS := 30
  vaultNegativeCacheTtlS := 300
  vaultCacheMaxEntries := 4096
  providerRequestTimeoutMs_pos := by decide
  providerGlobalLimit_pos := by decide
  providerGlobalUnits_pos := by simp
  providerPerProviderUnits_pos := by decide
  vaultGlobalUnits_pos := by decide
  admissionAcquireTimeoutMs_pos := by decide
  vaultPositiveCacheTtlS_pos := defaultPositiveCacheTtlS_pos
  vaultNegativeCacheTtlS_pos := by decide
  vaultCacheMaxEntries_pos := by decide
  admissionAcquireTimeoutMs_fits := by decide +kernel

/-- `provider_global_units or provider_global_limit`. -/
def effectiveProviderGlobalUnits (s : Settings) : Nat := s.providerGlobalUnits.getD s.providerGlobalLimit

theorem effectiveProviderGlobalUnits_pos (s : Settings) : 0 < s.effectiveProviderGlobalUnits := by
  unfold effectiveProviderGlobalUnits
  cases h : s.providerGlobalUnits with
  | none => exact s.providerGlobalLimit_pos
  | some n => exact s.providerGlobalUnits_pos n h

end Settings

end TokenPriceAgg

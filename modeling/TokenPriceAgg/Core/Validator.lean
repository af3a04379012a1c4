import TokenPriceAgg.Core.Models

/-!
# Validation of addresses

`AddressValidator`.  The two functions of the address library are a parameter.
-/

namespace TokenPriceAgg

/-- What the code uses of `eth_utils`. -/
structure EthUtils where
  isAddress : String → Bool
  toChecksumAddress : String → Except Exn String

def nativeTokenAlias : String := "0xEeeeeEeeeEeEeeEeEeEeeEEEeeeeEeeeeeeeEEeE"

def zeroAddress : String := "0x0000000000000000000000000000000000000000"

def isNativeAlias (address : String) : Bool :=
  address.toLower = nativeTokenAlias.toLower || address.toLower = zeroAddress.toLower

def normalizeAddress (eth : EthUtils) (address : String) : Except Exn String :=
  if isNativeAlias address then .ok nativeTokenAlias
  else if eth.isAddress address then eth.toChecksumAddress address
  else .error (.invalidRequest "INVALID_ADDRESS" ("Invalid EVM address: " ++ address))

/-- `TokenRef(...)` with a decimals field that was checked before. -/
def TokenRef.new (eth : EthUtils) (chainId : Int) (address : String) (symbol : Option String) (decimals : Option Int) :
    Except Exn TokenRef :=
  (normalizeAddress eth address).map fun address => { chainId, address, symbol, decimals }

/-- `VaultContext(...)` for one vault. -/
def VaultContext.new (eth : EthUtils) (vaultType : VaultType) (underlyingToken : String) (pricePerShare : PyLib.Decimal)
    (blockNumber : Int) : Except Exn VaultContext := do
  let underlyingToken ← normalizeAddress eth underlyingToken
  if h : pricePerShare.Positive then
    if 0 ≤ blockNumber then
      pure { vaultType := some vaultType, underlyingToken := some underlyingToken
             pricePerShare := some ⟨pricePerShare, h⟩, blockNumber := blockNumber.toNat }
    else .error .validationError
  else .error .validationError

/-! ### Normal forms -/

/-- What `eth_utils` promises of a checksum address. -/
structure EthUtils.Lawful (eth : EthUtils) : Prop where
  isAddress : ∀ address checksum, eth.toChecksumAddress address = .ok checksum → eth.isAddress checksum = true
  checksum : ∀ address checksum, eth.toChecksumAddress address = .ok checksum →
    eth.toChecksumAddress checksum = .ok checksum

/-- The address is its own normal form. -/
def Normalized (eth : EthUtils) (address : String) : Prop := normalizeAddress eth address = .ok address

theorem normalized_native (eth : EthUtils) : Normalized eth nativeTokenAlias := by
  have h : isNativeAlias nativeTokenAlias = true := by simp [isNativeAlias]
  unfold Normalized normalizeAddress
  rw [if_pos h]

/-- Apart from the two aliases of the native token, what is normalized once is normalized. -/
theorem normalized_of_once {eth : EthUtils} (hlaw : eth.Lawful) {a b : String} (h : normalizeAddress eth a = .ok b)
    (hb : ¬ isNativeAlias b) : Normalized eth b := by
  unfold normalizeAddress at h
  split at h
  · cases h
    exact normalized_native eth
  · split at h
    · unfold Normalized normalizeAddress
      rw [if_neg hb, if_pos (hlaw.isAddress a b h)]
      exact hlaw.checksum a b h
    · cases h

/-- Normalizing a normalized address never raises. -/
theorem normalizeAddress_again {eth : EthUtils} (hlaw : eth.Lawful) {a b : String}
    (h : normalizeAddress eth a = .ok b) :
    ∃ c, normalizeAddress eth b = .ok c := by
  by_cases hb : isNativeAlias b
  · exact ⟨nativeTokenAlias, if_pos hb⟩
  · exact ⟨b, normalized_of_once hlaw h hb⟩

/-- What is normalized twice is normalized.  Once is not enough: the forty zeros without their prefix become the zero
address first and the native alias next. -/
theorem normalized_of_twice {eth : EthUtils} (hlaw : eth.Lawful) {a b c : String} (hab : normalizeAddress eth a = .ok b)
    (hbc : normalizeAddress eth b = .ok c) : Normalized eth c := by
  by_cases hb : isNativeAlias b
  · unfold normalizeAddress at hbc
    rw [if_pos hb] at hbc
    cases hbc
    exact normalized_native eth
  · have hn : Normalized eth b := normalized_of_once hlaw hab hb
    unfold Normalized at hn
    rw [hn] at hbc
    cases hbc
    exact hn

end TokenPriceAgg

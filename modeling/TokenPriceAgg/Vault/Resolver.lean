import TokenPriceAgg.App.Config
import TokenPriceAgg.Vault.Adapters

/-!
# The vault resolver

`_VaultInfo` is what both kinds of vaults are reduced to.  `detectVault` answers from the two caches or probes the
two adapters in turn; `resolvePriceRequest` and `resolveQuoteRequest` replace vault tokens by their underlying
tokens.

The state of a call is the resolver's caches, how often the clock was read and the RPC exchanges so far.  The RPC
endpoint is an oracle over the exchanges before the call.
-/

namespace TokenPriceAgg

open PyLib Eff

/-- A `_VaultInfo` is made from what an adapter has accepted, which the proofs record. -/
structure VaultInfo where
  vaultType : VaultType
  underlyingToken : String
  assetsPerShareUnit : Nat
  shareUnit : Nat
  underlyingUnit : Nat
  convertFn : Int → Int
  assetsPerShareUnit_pos : 0 < assetsPerShareUnit
  shareUnit_eq : ∃ decimals : SafeDecimals, shareUnit = 10 ^ decimals.val
  underlyingUnit_eq : ∃ decimals : SafeDecimals, underlyingUnit = 10 ^ decimals.val
  convert_eq : ∀ shares, convertFn shares = shares * assetsPerShareUnit / shareUnit

namespace VaultInfo

def fromErc4626 (vault : Erc4626VaultInfo) : VaultInfo where
  vaultType := .erc4626
  underlyingToken := vault.underlyingToken
  assetsPerShareUnit := vault.assetsPerShareUnit.val
  shareUnit := 10 ^ vault.shareDecimals.val
  underlyingUnit := 10 ^ vault.underlyingDecimals.val
  convertFn := vault.convertSharesToAssets
  assetsPerShareUnit_pos := vault.assetsPerShareUnit.property
  shareUnit_eq := ⟨vault.shareDecimals, rfl⟩
  underlyingUnit_eq := ⟨vault.underlyingDecimals, rfl⟩
  convert_eq := fun shares => by simp [Erc4626VaultInfo.convertSharesToAssets]

def fromYearnV2 (vault : YearnV2VaultInfo) : VaultInfo where
  vaultType := .yearnV2
  underlyingToken := vault.underlyingToken
  assetsPerShareUnit := vault.pricePerShare.val
  shareUnit := 10 ^ vault.shareDecimals.val
  underlyingUnit := 10 ^ vault.underlyingDecimals.val
  convertFn := vault.convertSharesToAssets
  assetsPerShareUnit_pos := vault.pricePerShare.property
  shareUnit_eq := ⟨vault.shareDecimals, rfl⟩
  underlyingUnit_eq := ⟨vault.underlyingDecimals, rfl⟩
  convert_eq := fun shares => by simp [YearnV2VaultInfo.convertSharesToAssets]

def convertSharesToAssets (vault : VaultInfo) (shares : Int) : Int := vault.convertFn shares

def convertAssetsToShares (vault : VaultInfo) (assets : Int) : Except Exn Int :=
  if vault.assetsPerShareUnit = 0 then
    .error (.invalidRequest "INVALID_VAULT_RATE" "Invalid vault share_to_asset_rate")
  else .ok (assets * vault.shareUnit / vault.assetsPerShareUnit)

def pricePerShare (vault : VaultInfo) : Except Exn Decimal :=
  if vault.underlyingUnit = 0 then
    .error (.invalidRequest "INVALID_VAULT_RATE" "Invalid vault price_per_share")
  else (Decimal.div (.ofNat vault.assetsPerShareUnit) (.ofNat vault.underlyingUnit)).mapError Exn.decimalSignal

end VaultInfo

/-! ### Caches -/

abbrev CacheKey := Int × String

structure VaultCacheEntry where
  vault : VaultInfo
  expiresAt : ℚ

structure VaultCaches where
  positive : Dict CacheKey VaultCacheEntry
  negative : Dict CacheKey ℚ
  nextCachePruneAt : ℚ

def cachePruneIntervalS : ℚ := 1

namespace VaultCaches

def empty : VaultCaches := ⟨.empty, .empty, 0⟩

def pruneExpired (now : ℚ) (c : VaultCaches) : VaultCaches :=
  { c with positive := c.positive.filter fun p => now < p.2.expiresAt
           negative := c.negative.filter fun p => now < p.2 }

def pruneExpiredIfDue (now : ℚ) (c : VaultCaches) : VaultCaches :=
  if now < c.nextCachePruneAt then c
  else pruneExpired now { c with nextCachePruneAt := now + cachePruneIntervalS }

/-- `_cached_vault`: the answer of a hit, `none` on a miss. -/
def cachedVault (key : CacheKey) (now : ℚ) (c : VaultCaches) : Option (Option VaultInfo) × VaultCaches :=
  let c := c.pruneExpiredIfDue now
  match c.positive.get? key with
  | some cached =>
    if now < cached.expiresAt then (some (some cached.vault), { c with positive := c.positive.moveToEnd key })
    else cachedNegative key now { c with positive := c.positive.pop key }
  | none => cachedNegative key now c
where
  cachedNegative (key : CacheKey) (now : ℚ) (c : VaultCaches) : Option (Option VaultInfo) × VaultCaches :=
    match c.negative.get? key with
    | some negativeExpiresAt =>
      if now < negativeExpiresAt then (some none, { c with negative := c.negative.moveToEnd key })
      else (none, { c with negative := c.negative.pop key })
    | none => (none, c)

def storePositive (settings : Settings) (key : CacheKey) (entry : VaultCacheEntry) (c : VaultCaches) : VaultCaches :=
  { c with positive := ((c.positive.set key entry).moveToEnd key).trim settings.vaultCacheMaxEntries }

def storeNegative (settings : Settings) (key : CacheKey) (expiresAt : ℚ) (c : VaultCaches) : VaultCaches :=
  { c with negative := ((c.negative.set key expiresAt).moveToEnd key).trim settings.vaultCacheMaxEntries }

end VaultCaches

/-! ### Detection -/

structure RpcExchange where
  call : RpcCall
  answer : Except Raised PyObj

structure VaultWorld where
  caches : VaultCaches
  /-- how often this call has read the clock -/
  reads : Nat
  exchanges : List RpcExchange

structure VaultSchedule where
  /-- the successive readings of `time.monotonic()` -/
  clock : Nat → ℚ
  answer : List RpcExchange → RpcCall → Except Raised PyObj
  /-- the wait for the semaphore is cancelled -/
  semaphoreCancelled : Bool

namespace VaultResolver

variable (settings : Settings) (codec : Web3Codec) (env : VaultSchedule)

def monotonic : Eff VaultWorld Raised ℚ := Eff.step fun w => (env.clock w.reads, { w with reads := w.reads + 1 })

/-- `rpc_client.call`. -/
def call (c : RpcCall) : Eff VaultWorld Raised PyObj := fun w =>
  let answer := env.answer w.exchanges c
  (answer, { w with exchanges := w.exchanges ++ [⟨c, answer⟩] })

def onCaches (f : VaultCaches → VaultCaches) : Eff VaultWorld Raised Unit :=
  Eff.modify fun w => { w with caches := f w.caches }

def readCache (key : CacheKey) : Eff VaultWorld Raised (Option (Option VaultInfo)) := do
  let now ← monotonic env
  Eff.step fun w =>
    let (answer, caches) := w.caches.cachedVault key now
    (answer, { w with caches })

def foundVault (key : CacheKey) (vault : VaultInfo) : Eff VaultWorld Raised (Option VaultInfo) := do
  let now ← monotonic env
  onCaches (VaultCaches.storePositive settings key ⟨vault, now + settings.vaultPositiveCacheTtlS⟩)
  onCaches fun c => { c with negative := c.negative.pop key }
  pure (some vault)

/-- `_detect_vault`. -/
def detectVault (address : String) (chainId : Int) : Eff VaultWorld Raised (Option VaultInfo) := do
  let key : CacheKey := (chainId, address.toLower)
  match ← readCache env key with
  | some cached => pure cached
  | none =>
    if env.semaphoreCancelled then Eff.raise .cancelled
    else
      match ← readCache env key with
      | some cached => pure cached
      | none =>
        match ← Erc4626Adapter.detect codec (call env) address chainId with
        | some erc4626 => foundVault settings env key (.fromErc4626 erc4626)
        | none =>
          match ← YearnV2Adapter.detect codec (call env) address chainId with
          | some yearn => foundVault settings env key (.fromYearnV2 yearn)
          | none =>
            let now ← monotonic env
            onCaches (VaultCaches.storeNegative settings key (now + settings.vaultNegativeCacheTtlS))
            pure none

end VaultResolver

/-! ### Requests -/

/-- What `output_assets_to_shares` returns for an argument, given the arguments it was called on before. -/
abbrev AssetsToShares := List Int → Int → Except Exn PyObj

structure QuoteVaultResolution where
  inputVaultContext : Option VaultContext := none
  outputVaultContext : Option VaultContext := none
  outputAssetsToShares : Option AssetsToShares := none

namespace VaultResolver

section Requests

variable {σ : Type} (eth : EthUtils) (configured : Int → Bool)
  (detect : String → Int → Eff σ Raised (Option VaultInfo)) (blockNumber : Int → Eff σ Raised Int)

def liftExcept {α : Type} (x : Except Exn α) : Eff σ Raised α := Eff.ofExcept (x.mapError Raised.exception)

def invalidRequest {α : Type} (type message : String) : Eff σ Raised α :=
  Eff.raise (.exception (.invalidRequest type message))

def underlyingTokenRef (base : TokenRef) (underlyingAddress : String) : Except Exn TokenRef :=
  TokenRef.new eth base.chainId underlyingAddress base.symbol base.decimals

def vaultContext (vault : VaultInfo) (blockNumber : Int) : Except Exn VaultContext := do
  let pricePerShare ← vault.pricePerShare
  VaultContext.new eth vault.vaultType vault.underlyingToken pricePerShare blockNumber

variable {eth} in
/-- The context of a vault has its rate. -/
theorem vaultContext_pricePerShare {vault : VaultInfo} {blockNumber : Int} {context : VaultContext}
    (h : vaultContext eth vault blockNumber = .ok context) :
    ∃ rate, context.pricePerShare = some rate ∧ vault.pricePerShare = .ok rate.val := by
  unfold vaultContext at h
  cases hrate : vault.pricePerShare with
  | error exc => rw [hrate] at h; cases h
  | ok rate =>
    rw [hrate] at h
    change VaultContext.new eth vault.vaultType vault.underlyingToken rate blockNumber = .ok context at h
    unfold VaultContext.new at h
    cases haddress : normalizeAddress eth vault.underlyingToken with
    | error exc => rw [haddress] at h; cases h
    | ok address =>
      rw [haddress] at h
      simp only [bind, Except.bind] at h
      split at h
      · split at h
        · cases h
          exact ⟨_, rfl, rfl⟩
        · cases h
      · cases h

def resolvePriceRequest (req : ProviderPriceRequest) : Eff σ Raised (ProviderPriceRequest × VaultContext) :=
  if configured req.chainId then do
    match ← detect req.token.address req.chainId with
    | none => invalidRequest "INVALID_VAULT" "Token is not a supported vault"
    | some vault =>
      let underlying ← liftExcept (underlyingTokenRef eth req.token vault.underlyingToken)
      let context ← liftExcept (vaultContext eth vault (← blockNumber req.chainId))
      pure ({ chainId := req.chainId, token := underlying }, context)
  else invalidRequest "RPC_NOT_CONFIGURED" "Vault resolution requires the requested chain RPC"

/-- One leg of a quote request: the token, or its underlying token when it is a vault. -/
def resolveLeg (token : TokenRef) (chainId : Int) : Eff σ Raised (Option VaultInfo × TokenRef) := do
  match ← detect token.address chainId with
  | none => pure (none, token)
  | some vault => pure (some vault, ← liftExcept (underlyingTokenRef eth token vault.underlyingToken))

def convertInput (vaultIn : Option VaultInfo) (amountIn : Int) : Int :=
  match vaultIn with
  | none => amountIn
  | some vault => vault.convertSharesToAssets amountIn

def legContext (vault : Option VaultInfo) (blockNumber : Int) : Except Exn (Option VaultContext) :=
  match vault with
  | none => .ok none
  | some vault => (vaultContext eth vault blockNumber).map some

def resolveQuoteRequest (req : ProviderQuoteRequest) :
    Eff σ Raised (ProviderQuoteRequest × Option QuoteVaultResolution) :=
  if configured req.chainId then do
    let (vaultIn, tokenIn) ← resolveLeg eth detect req.tokenIn req.chainId
    let (vaultOut, tokenOut) ← resolveLeg eth detect req.tokenOut req.chainId
    if vaultIn.isNone ∧ vaultOut.isNone then
      invalidRequest "INVALID_VAULT"
        "use_underlying=true provided but neither token_in nor token_out is a supported vault"
    else
      let block ← blockNumber req.chainId
      let inputVaultContext ← liftExcept (legContext eth vaultIn block)
      let outputVaultContext ← liftExcept (legContext eth vaultOut block)
      pure
        ({ chainId := req.chainId, tokenIn, tokenOut, amountIn := convertInput vaultIn req.amountIn },
          some { inputVaultContext, outputVaultContext,
                 outputAssetsToShares := vaultOut.map fun vault _ assets =>
                   (vault.convertAssetsToShares assets).map PyObj.int })
  else invalidRequest "RPC_NOT_CONFIGURED" "Vault resolution requires the requested chain RPC"

end Requests

end VaultResolver

end TokenPriceAgg

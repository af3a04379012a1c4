import TokenPriceAgg.Vault.Rpc

/-!
# Vault adapters

`Erc4626Adapter` and `YearnV2Adapter`: each probes an address through the chain's Multicall3 contract and falls back
to direct calls.  The two classes share their control flow (`detectVia`), the reading of a multicall response and the
interface probe; the bodies of the two paths are their own.

An adapter is a computation over whatever state the RPC client's `call` acts on; an invariant of the calls is one of the
detection (`Erc4626Adapter.detect_preserves`, `YearnV2Adapter.detect_preserves`).
-/

namespace TokenPriceAgg

open PyLib Eff

def maxSafeTokenDecimals : Nat := 77

/-- Token decimals that the adapters accept. -/
abbrev SafeDecimals := {n : Nat // n ≤ maxSafeTokenDecimals}

theorem eighteen_safe : 18 ≤ maxSafeTokenDecimals := by decide

/-- A rate that the adapters accept, in base units of the underlying token for one share. -/
abbrev UnitRate := {n : Nat // 0 < n}

structure Erc4626VaultInfo where
  vaultAddress : String
  underlyingToken : String
  shareDecimals : SafeDecimals
  underlyingDecimals : SafeDecimals
  assetsPerShareUnit : UnitRate
deriving DecidableEq

structure YearnV2VaultInfo where
  vaultAddress : String
  underlyingToken : String
  shareDecimals : SafeDecimals
  underlyingDecimals : SafeDecimals
  pricePerShare : UnitRate
deriving DecidableEq

def Erc4626VaultInfo.convertSharesToAssets (info : Erc4626VaultInfo) (shares : Int) : Int :=
  shares * info.assetsPerShareUnit.val / 10 ^ info.shareDecimals.val

def YearnV2VaultInfo.convertSharesToAssets (info : YearnV2VaultInfo) (shares : Int) : Int :=
  shares * info.pricePerShare.val / 10 ^ info.shareDecimals.val

/-- What is raised inside an adapter: besides everything else its two private exceptions. -/
inductive DetectExn
  | raised (e : Raised)
  | multicallUnavailable
  | vaultInterfaceNotSupported
deriving DecidableEq, Repr

def DetectExn.toRaised : DetectExn → Raised
  | .raised e => e
  | .multicallUnavailable => .exception (.other "_MulticallUnavailable")
  | .vaultInterfaceNotSupported => .exception (.other "_VaultInterfaceNotSupported")

def invalidVaultData (message : String) : DetectExn :=
  .raised (.exception (.invalidRequest "INVALID_VAULT_DATA" message))

namespace VaultAdapter

/-! ### Words and responses -/

def decodeTokenDecimals (data : Bytes) : Option SafeDecimals :=
  if data.length ≠ 32 ∨ data.dropLast.any (· ≠ 0) then none
  else
    let value := (data.getLastD 0).toNat
    if h : value ≤ maxSafeTokenDecimals then some ⟨value, h⟩ else none

def validateTokenDecimals : PyObj → Option SafeDecimals
  | .int n => if h : 0 ≤ n ∧ n.toNat ≤ maxSafeTokenDecimals then some ⟨n.toNat, h.2⟩ else none
  | _ => none

/-- The return data of one call of a multicall. -/
def returnData : PyObj → Option Bytes
  | .str s =>
    match s.toList with
    | '0' :: 'x' :: digits => fromHex digits
    | digits => fromHex digits
  | .bytes b => some b
  | _ => none

/-- One usable entry of a multicall response; an unusable one is skipped. -/
def normalizeItem : PyObj → Except Exn (Option (Bool × Option Bytes))
  | .dict entries => (PyObj.get entries "success").truth.map fun success =>
      some (success, returnData (PyObj.get entries "returnData"))
  | .seq (success :: data :: _) => success.truth.map fun success => some (success, returnData data)
  | _ => .ok none

def normalizeItems : List PyObj → Except Exn (List (Bool × Option Bytes))
  | [] => .ok []
  | item :: rest => do
    let entry ← normalizeItem item
    let entries ← normalizeItems rest
    pure (entry.toList ++ entries)

def normalizeMulticallResult : PyObj → Except Exn (List (Bool × Option Bytes))
  | .seq items => normalizeItems items
  | _ => .ok []

section Codec

variable (codec : Web3Codec)

/-- `_normalize_address` of a text. -/
def normalizeAddressText (value : String) : Option String := (codec.toChecksumAddress value).toOption

/-- `_normalize_address`. -/
def normalizeAddress : PyObj → Option String
  | .str s => normalizeAddressText codec s
  | _ => none

/-- The underlying token, unless it is the vault itself. -/
def unlessVault (underlying : Option String) (vaultAddress : String) : Except Exn (Option String) :=
  match underlying with
  | none => .ok none
  | some underlying => do
    let vault ← codec.toChecksumAddress vaultAddress
    pure (if underlying = vault then none else some underlying)

/-- `_normalize_underlying_address`. -/
def normalizeUnderlyingAddress (value : PyObj) (vaultAddress : String) : Except Exn (Option String) :=
  unlessVault codec (normalizeAddress codec value) vaultAddress

/-- `_decode_address`. -/
def decodeAddress (data : Bytes) : Option String := (codec.decodeAddress data).bind (normalizeAddressText codec)

/-- `_decode_uint256`. -/
def decodeUint256 (data : Bytes) : Option Nat :=
  match codec.decodeUint256 data with
  | some value => if 0 ≤ value then some value.toNat else none
  | none => none

end Codec

/-! ### The control flow of `detect` -/

section Adapters

variable {σ I : Type} (codec : Web3Codec) (call : RpcCall → Eff σ Raised PyObj)

/-- A computation inside an adapter. -/
abbrev Detect (σ α : Type) : Type := Eff σ DetectExn α

def rpc (c : RpcCall) : Detect σ PyObj := Eff.mapError .raised (call c)

def liftExn {α : Type} (x : Except Exn α) : Detect σ α := Eff.ofExcept (x.mapError fun e => .raised (.exception e))

/-- `detect`: an error of the request itself is raised, every other one leads to the direct calls, and when these do
not find the interface the first error is raised again. -/
def detectVia (withMulticall withCalls : Detect σ (Option I)) : Eff σ Raised (Option I) :=
  Eff.tryExcept withMulticall fun multicallExc =>
    match multicallExc with
    | .raised .cancelled => Eff.raise .cancelled
    | .raised (.exception (.invalidRequest type message)) => Eff.raise (.exception (.invalidRequest type message))
    | .multicallUnavailable =>
      Eff.tryExcept withCalls fun exc =>
        match exc with
        | .vaultInterfaceNotSupported => pure none
        | exc => Eff.raise exc.toRaised
    | multicallExc =>
      Eff.tryExcept withCalls fun exc =>
        match exc with
        | .vaultInterfaceNotSupported => Eff.raise multicallExc.toRaised
        | exc => Eff.raise exc.toRaised

/-- The first direct call: any failure of it means that the interface is not supported. -/
def interfaceCall (c : RpcCall) : Detect σ PyObj :=
  Eff.tryExcept (rpc call c) fun exc =>
    match exc with
    | .raised .cancelled => Eff.raise exc
    | _ => Eff.raise .vaultInterfaceNotSupported

/-- The rest of the direct calls: any failure but an error of the request becomes invalid vault data. -/
def vaultData {α : Type} (message : String) (m : Detect σ α) : Detect σ α :=
  Eff.tryExcept m fun exc =>
    match exc with
    | .raised .cancelled => Eff.raise exc
    | .raised (.exception (.invalidRequest ..)) => Eff.raise exc
    | _ => Eff.raise (invalidVaultData message)

/-- `aggregate3` on the chain's Multicall3 contract. -/
def aggregate3Call (chainId : Int) (multicallAddress : String) (calls : List (String × Bool × Bytes)) : RpcCall :=
  ⟨chainId, multicallAddress, .multicall3, "aggregate3", [.calls calls]⟩

def aggregate3 (chainId : Int) (multicallAddress : String) (calls : List (String × Bool × Bytes)) :
    Detect σ (List (Bool × Option Bytes)) := do
  let raw ← rpc call (aggregate3Call chainId multicallAddress calls)
  liftExn (normalizeMulticallResult raw)

/-- `_decode_interface_address`. -/
def decodeInterfaceAddress (emptyMessage : String) (decoded : List (Bool × Option Bytes)) (vaultAddress : String) :
    Detect σ (Option String) :=
  match decoded with
  | [] => Eff.raise (invalidVaultData emptyMessage)
  | (true, some data) :: _ => liftExn (unlessVault codec ((decodeAddress codec data).bind (normalizeAddressText codec))
      vaultAddress)
  | _ :: _ => pure none

end Adapters

end VaultAdapter

open VaultAdapter

section Adapters

variable {σ : Type} (codec : Web3Codec) (call : RpcCall → Eff σ Raised PyObj)

/-! ### ERC-4626 -/

namespace Erc4626Adapter

def assetSelector : Bytes := [0x38, 0xd5, 0x2e, 0x0f]
def decimalsSelector : Bytes := [0x31, 0x3c, 0xe5, 0x67]
def convertToAssetsSelector : Bytes := [0x07, 0xa2, 0xd1, 0x3a]
def previewRedeemSelector : Bytes := [0x4c, 0xda, 0xd5, 0x06]

def detectWithCalls (vaultAddress : String) (chainId : Int) : Detect σ (Option Erc4626VaultInfo) := do
  let underlyingRaw ← interfaceCall call ⟨chainId, vaultAddress, .erc4626, "asset", []⟩
  match ← liftExn (normalizeUnderlyingAddress codec underlyingRaw vaultAddress) with
  | none => Eff.raise .vaultInterfaceNotSupported
  | some underlying =>
    vaultData "ERC-4626 vault data could not be resolved" do
      match validateTokenDecimals (← rpc call ⟨chainId, vaultAddress, .erc4626, "decimals", []⟩) with
      | none => Eff.raise (invalidVaultData "ERC-4626 vault returned invalid share decimals")
      | some shareDecimals =>
        let underlyingDecimalsRaw ← rpc call ⟨chainId, underlying, .erc20, "decimals", []⟩
        let oneShare := 10 ^ shareDecimals.val
        let assetsPerShare ← Eff.tryExcept
          (rpc call ⟨chainId, vaultAddress, .erc4626, "convertToAssets", [.uint oneShare]⟩) fun exc =>
            match exc with
            | .raised .cancelled => Eff.raise exc
            | _ => rpc call ⟨chainId, vaultAddress, .erc4626, "previewRedeem", [.uint oneShare]⟩
        let assets ← liftExn assetsPerShare.toInt
        match validateTokenDecimals underlyingDecimalsRaw with
        | none => Eff.raise (invalidVaultData "ERC-4626 vault returned invalid conversion data")
        | some underlyingDecimals =>
          if h : 0 < assets.toNat then
            pure (some ⟨vaultAddress, underlying, shareDecimals, underlyingDecimals, ⟨assets.toNat, h⟩⟩)
          else Eff.raise (invalidVaultData "ERC-4626 vault returned invalid conversion data")

/-- The calls of the interface probe. -/
def probeCalls (checksum : String) : List (String × Bool × Bytes) :=
  [(checksum, true, assetSelector), (checksum, true, decimalsSelector)]

/-- The first valid rate among the conversion results. -/
def firstRate : List (Bool × Option Bytes) → Option UnitRate
  | [] => none
  | (true, some data) :: rest =>
    match decodeUint256 codec data with
    | some n => if h : 0 < n then some ⟨n, h⟩ else firstRate rest
    | none => firstRate rest
  | _ :: rest => firstRate rest

def detectWithMulticall (vaultAddress : String) (chainId : Int) : Detect σ (Option Erc4626VaultInfo) := do
  match multicall3ByChain chainId with
  | none => Eff.raise .multicallUnavailable
  | some multicallAddress =>
    let checksum ← liftExn (codec.toChecksumAddress vaultAddress)
    let decoded ← aggregate3 call chainId multicallAddress (probeCalls checksum)
    match ← decodeInterfaceAddress codec "ERC-4626 detection returned an invalid multicall response" decoded checksum with
    | none => pure none
    | some underlying =>
      match decoded with
      | _ :: (true, some decimalsData) :: _ =>
        match decodeTokenDecimals decimalsData with
        | none => Eff.raise (invalidVaultData "ERC-4626 vault returned malformed metadata")
        | some shareDecimals =>
          let oneShare := toBytes32 (10 ^ shareDecimals.val)
          let conversion ← aggregate3 call chainId multicallAddress
            [(underlying, true, decimalsSelector), (checksum, true, convertToAssetsSelector ++ oneShare),
              (checksum, true, previewRedeemSelector ++ oneShare)]
          if conversion.length < 3 then
            Eff.raise (invalidVaultData "ERC-4626 conversion returned an invalid multicall response")
          else
            match conversion with
            | (true, some underlyingDecimalsData) :: rates =>
              match decodeTokenDecimals underlyingDecimalsData with
              | none => Eff.raise (invalidVaultData "ERC-4626 underlying token returned malformed decimals")
              | some underlyingDecimals =>
                match firstRate codec rates with
                | none => Eff.raise (invalidVaultData "ERC-4626 vault returned no valid share conversion")
                | some rate => pure (some ⟨vaultAddress, underlying, shareDecimals, underlyingDecimals, rate⟩)
            | _ => Eff.raise (invalidVaultData "ERC-4626 underlying token returned invalid decimals")
      | [_] => Eff.raise (invalidVaultData "ERC-4626 detection returned an invalid multicall response")
      | _ => Eff.raise (invalidVaultData "ERC-4626 vault returned incomplete metadata")

def detect (vaultAddress : String) (chainId : Int) : Eff σ Raised (Option Erc4626VaultInfo) :=
  detectVia (detectWithMulticall codec call vaultAddress chainId) (detectWithCalls codec call vaultAddress chainId)

end Erc4626Adapter

/-! ### Yearn v2 -/

namespace YearnV2Adapter

def tokenSelector : Bytes := [0xfc, 0x0c, 0x54, 0x6a]
def decimalsSelector : Bytes := [0x31, 0x3c, 0xe5, 0x67]
def pricePerShareSelector : Bytes := [0x99, 0x53, 0x0b, 0x06]

def detectWithCalls (vaultAddress : String) (chainId : Int) : Detect σ (Option YearnV2VaultInfo) := do
  let underlyingRaw ← interfaceCall call ⟨chainId, vaultAddress, .yearnV2, "token", []⟩
  match ← liftExn (normalizeUnderlyingAddress codec underlyingRaw vaultAddress) with
  | none => Eff.raise .vaultInterfaceNotSupported
  | some underlying =>
    vaultData "Yearn v2 vault data could not be resolved" do
      let shareDecimalsRaw ← rpc call ⟨chainId, vaultAddress, .yearnV2, "decimals", []⟩
      let underlyingDecimalsRaw ← rpc call ⟨chainId, underlying, .erc20, "decimals", []⟩
      let ppsRaw ← rpc call ⟨chainId, vaultAddress, .yearnV2, "pricePerShare", []⟩
      let pricePerShare ← liftExn ppsRaw.toInt
      match validateTokenDecimals shareDecimalsRaw, validateTokenDecimals underlyingDecimalsRaw with
      | some shareDecimals, some underlyingDecimals =>
        if h : 0 < pricePerShare.toNat then
          pure (some ⟨vaultAddress, underlying, shareDecimals, underlyingDecimals, ⟨pricePerShare.toNat, h⟩⟩)
        else Eff.raise (invalidVaultData "Yearn v2 vault returned invalid conversion data")
      | _, _ => Eff.raise (invalidVaultData "Yearn v2 vault returned invalid conversion data")

/-- The calls of the interface probe. -/
def probeCalls (checksum : String) : List (String × Bool × Bytes) :=
  [(checksum, true, tokenSelector), (checksum, true, decimalsSelector), (checksum, true, pricePerShareSelector)]

def detectWithMulticall (vaultAddress : String) (chainId : Int) : Detect σ (Option YearnV2VaultInfo) := do
  match multicall3ByChain chainId with
  | none => Eff.raise .multicallUnavailable
  | some multicallAddress =>
    let checksum ← liftExn (codec.toChecksumAddress vaultAddress)
    let decoded ← aggregate3 call chainId multicallAddress (probeCalls checksum)
    match ← decodeInterfaceAddress codec "Yearn v2 detection returned an invalid multicall response" decoded checksum with
    | none => pure none
    | some underlying =>
      match decoded with
      | _ :: (true, some decimalsData) :: (true, some ppsData) :: _ =>
        match decodeTokenDecimals decimalsData, decodeUint256 codec ppsData with
        | some shareDecimals, some pricePerShare =>
          if h : 0 < pricePerShare then
            let result ← aggregate3 call chainId multicallAddress [(underlying, true, decimalsSelector)]
            match result with
            | [] => Eff.raise (invalidVaultData "Yearn v2 underlying returned an invalid multicall response")
            | (true, some underlyingDecimalsData) :: _ =>
              match decodeTokenDecimals underlyingDecimalsData with
              | none => Eff.raise (invalidVaultData "Yearn v2 underlying token returned malformed decimals")
              | some underlyingDecimals =>
                pure (some ⟨vaultAddress, underlying, shareDecimals, underlyingDecimals, ⟨pricePerShare, h⟩⟩)
            | _ => Eff.raise (invalidVaultData "Yearn v2 underlying token returned invalid decimals")
          else Eff.raise (invalidVaultData "Yearn v2 vault returned malformed metadata")
        | _, _ => Eff.raise (invalidVaultData "Yearn v2 vault returned malformed metadata")
      | _ :: _ :: _ :: _ => Eff.raise (invalidVaultData "Yearn v2 vault returned incomplete metadata")
      | _ => Eff.raise (invalidVaultData "Yearn v2 detection returned an invalid multicall response")

def detect (vaultAddress : String) (chainId : Int) : Eff σ Raised (Option YearnV2VaultInfo) :=
  detectVia (detectWithMulticall codec call vaultAddress chainId) (detectWithCalls codec call vaultAddress chainId)

end YearnV2Adapter

end Adapters

/-! ### The state -/

namespace VaultAdapter

section Preserves

variable {σ I α : Type} {codec : Web3Codec} {call : RpcCall → Eff σ Raised PyObj} {Inv : σ → Prop}
  (hcall : ∀ c, Preserves Inv (call c))

private theorem liftExn_preserves (x : Except Exn α) : Preserves Inv (liftExn x : Detect σ α) := .ofExcept _

private theorem decodeInterfaceAddress_preserves (emptyMessage : String) (decoded : List (Bool × Option Bytes))
    (vaultAddress : String) :
    Preserves Inv (decodeInterfaceAddress codec emptyMessage decoded vaultAddress : Detect σ (Option String)) := by
  unfold decodeInterfaceAddress
  split
  · exact .raise _
  · exact liftExn_preserves _
  · exact .pure _

private theorem vaultData_preserves (message : String) {m : Detect σ α} (hm : Preserves Inv m) :
    Preserves Inv (vaultData message m) := by
  refine .tryExcept hm fun exc => ?_
  split <;> exact .raise _

private theorem detectVia_preserves
    {withMulticall withCalls : Detect σ (Option I)} (hmulticall : Preserves Inv withMulticall)
    (hcalls : Preserves Inv withCalls) : Preserves Inv (detectVia withMulticall withCalls) := by
  refine .tryExcept hmulticall fun exc => ?_
  split
  · exact .raise _
  · exact .raise _
  · refine .tryExcept hcalls fun exc => ?_
    split
    · exact .pure _
    · exact .raise _
  · refine .tryExcept hcalls fun exc => ?_
    split <;> exact .raise _

include hcall

private theorem rpc_preserves (c : RpcCall) : Preserves Inv (rpc call c) := .tryExcept (hcall c) fun _ => .raise _

private theorem interfaceCall_preserves (c : RpcCall) : Preserves Inv (interfaceCall call c) := by
  refine .tryExcept (rpc_preserves hcall c) fun exc => ?_
  split <;> exact .raise _

private theorem aggregate3_preserves
    (chainId : Int) (multicallAddress : String) (calls : List (String × Bool × Bytes)) :
    Preserves Inv (aggregate3 call chainId multicallAddress calls) :=
  .bind (rpc_preserves hcall _) fun _ => liftExn_preserves _

end Preserves

end VaultAdapter

section Preserves

variable {σ : Type} {codec : Web3Codec} {call : RpcCall → Eff σ Raised PyObj} {Inv : σ → Prop}
  (hcall : ∀ c, Preserves Inv (call c)) (vaultAddress : String) (chainId : Int)

include hcall

/-- The adapter acts on the state through the calls only. -/
theorem Erc4626Adapter.detect_preserves : Preserves Inv (detect codec call vaultAddress chainId) := by
  have hconvert (c c' : RpcCall) : Preserves Inv (Eff.tryExcept (rpc call c) fun exc =>
      match exc with
      | .raised .cancelled => Eff.raise exc
      | _ => rpc call c') := by
    refine .tryExcept (rpc_preserves hcall c) fun exc => ?_
    split
    · exact .raise _
    · exact rpc_preserves hcall c'
  refine detectVia_preserves ?_ ?_
  · unfold detectWithMulticall
    split
    · exact .raise _
    · refine .bind (liftExn_preserves _) fun checksum => ?_
      refine .bind (aggregate3_preserves hcall _ _ _) fun decoded => ?_
      refine .bind (decodeInterfaceAddress_preserves _ _ _) fun underlying => ?_
      split
      · exact .pure _
      · split
        · split
          · exact .raise _
          · refine .bind (aggregate3_preserves hcall _ _ _) fun conversion => ?_
            split
            · exact .raise _
            · split
              · split
                · exact .raise _
                · split
                  · exact .raise _
                  · exact .pure _
              · exact .raise _
        · exact .raise _
        · exact .raise _
  · unfold detectWithCalls
    refine .bind (interfaceCall_preserves hcall _) fun underlyingRaw => ?_
    refine .bind (liftExn_preserves _) fun underlying => ?_
    split
    · exact .raise _
    · refine vaultData_preserves _ (.bind (rpc_preserves hcall _) fun shareDecimalsRaw => ?_)
      split
      · exact .raise _
      · refine .bind (rpc_preserves hcall _) fun underlyingDecimalsRaw => ?_
        refine .bind (hconvert _ _) fun assetsPerShare => ?_
        refine .bind (liftExn_preserves _) fun assets => ?_
        split
        · exact .raise _
        · split
          · exact .pure _
          · exact .raise _

theorem YearnV2Adapter.detect_preserves : Preserves Inv (detect codec call vaultAddress chainId) := by
  refine detectVia_preserves ?_ ?_
  · unfold detectWithMulticall
    split
    · exact .raise _
    · refine .bind (liftExn_preserves _) fun checksum => ?_
      refine .bind (aggregate3_preserves hcall _ _ _) fun decoded => ?_
      refine .bind (decodeInterfaceAddress_preserves _ _ _) fun underlying => ?_
      split
      · exact .pure _
      · split
        · split
          · split
            · refine .bind (aggregate3_preserves hcall _ _ _) fun result => ?_
              split
              · exact .raise _
              · split
                · exact .raise _
                · exact .pure _
              · exact .raise _
            · exact .raise _
          · exact .raise _
        · exact .raise _
        · exact .raise _
  · unfold detectWithCalls
    refine .bind (interfaceCall_preserves hcall _) fun underlyingRaw => ?_
    refine .bind (liftExn_preserves _) fun underlying => ?_
    split
    · exact .raise _
    · refine vaultData_preserves _ (.bind (rpc_preserves hcall _) fun shareDecimalsRaw => ?_)
      refine .bind (rpc_preserves hcall _) fun underlyingDecimalsRaw => ?_
      refine .bind (rpc_preserves hcall _) fun ppsRaw => ?_
      refine .bind (liftExn_preserves _) fun pricePerShare => ?_
      split
      · split
        · exact .pure _
        · exact .raise _
      · exact .raise _

end Preserves

end TokenPriceAgg

import Mathlib.Data.List.Induction
import TokenPriceAgg.Vault.Adapters

/-!
# The two paths of the ERC-4626 adapter

On a fixed state of the chain `_detect_with_multicall` and `_detect_with_calls` read the same words.  They classify an
address alike unless `convertToAssets` answers zero and `previewRedeem` does not: the batch then takes the second rate,
and the direct calls, which ask for it only when the first call raises, report invalid vault data.
-/

namespace TokenPriceAgg

open PyLib Eff VaultAdapter

/-! ### Words -/

/-- One ABI word. -/
abbrev Word := {b : Bytes // b.length = 32}

def bigEndian (bytes : Bytes) : Nat := bytes.foldl (fun n b => 256 * n + b.toNat) 0

private theorem bigEndian_concat (bytes : Bytes) (b : UInt8) :
    bigEndian (bytes ++ [b]) = 256 * bigEndian bytes + b.toNat := by
  unfold bigEndian
  rw [List.foldl_append]
  rfl

private theorem bigEndian_eq_zero {bytes : Bytes} : bigEndian bytes = 0 ↔ ∀ b ∈ bytes, b = 0 := by
  induction bytes using List.reverseRecOn with
  | nil => simp [bigEndian]
  | append_singleton bytes b ih =>
    have hb : b.toNat = 0 ↔ b = 0 := by
      rw [← UInt8.toNat_zero, UInt8.toNat_inj]
    rw [bigEndian_concat]
    constructor
    · intro h
      have hinit : bigEndian bytes = 0 := by omega
      have hlast : b.toNat = 0 := by omega
      intro b' hb'
      rcases List.mem_append.1 hb' with hmem | hmem
      · exact ih.1 hinit b' hmem
      · rw [List.mem_singleton.1 hmem]
        exact hb.1 hlast
    · intro h
      have hinit := ih.2 fun b' hb' => h b' (List.mem_append_left _ hb')
      have hlast := hb.2 (h b (by simp))
      omega

/-- The canonical encoding of decimals is what the strict decoder of `uint8` accepts, up to the bound of both. -/
private theorem decodeTokenDecimals_word (w : Word) :
    decodeTokenDecimals w.val =
      if bigEndian w.val < 256 then validateTokenDecimals (.int (bigEndian w.val)) else none := by
  obtain ⟨bytes, hlength⟩ := w
  obtain ⟨init, b, rfl⟩ : ∃ init b, bytes = init ++ [b] := by
    rcases List.eq_nil_or_concat bytes with rfl | ⟨init, b, rfl⟩
    · cases hlength
    · exact ⟨init, b, List.concat_eq_append⟩
  have hb : b.toNat < 256 := b.toNat_lt
  unfold decodeTokenDecimals
  dsimp only
  rw [List.dropLast_concat, List.getLastD_concat, bigEndian_concat]
  by_cases hinit : bigEndian init = 0
  · have hany : ¬ init.any (· ≠ 0) = true := by simpa using bigEndian_eq_zero.1 hinit
    rw [if_neg (not_or.2 ⟨not_not.2 hlength, hany⟩), hinit, Nat.mul_zero, Nat.zero_add, if_pos hb]
    simp [validateTokenDecimals]
  · have hany : init.any (· ≠ 0) = true := by simpa using mt bigEndian_eq_zero.2 hinit
    rw [if_pos (.inr hany), if_neg (by omega)]

/-! ### The chain -/

/-- A fixed state of the chain: what a view call of an address answers, or its revert data. -/
structure OnChain where
  view : String → Bytes → Except Bytes Word

/-- What `web3` documents of its decoders. -/
structure Web3Codec.Lawful (codec : Web3Codec) : Prop extends codec.toEthUtils.Lawful where
  decodeUint256 : ∀ w : Word, codec.decodeUint256 w.val = some (bigEndian w.val : Int)

namespace OnChain

variable (codec : Web3Codec) (chain : OnChain)

/-- The call data of a direct call. -/
def callData (c : RpcCall) : Option Bytes :=
  match c.args with
  | [] =>
    if c.fnName = "asset" then some Erc4626Adapter.assetSelector
    else if c.fnName = "decimals" then some Erc4626Adapter.decimalsSelector
    else none
  | [.uint n] =>
    if c.fnName = "convertToAssets" then some (Erc4626Adapter.convertToAssetsSelector ++ toBytes32 n)
    else if c.fnName = "previewRedeem" then some (Erc4626Adapter.previewRedeemSelector ++ toBytes32 n)
    else none
  | _ => none

/-- The word as the output of the function: an `address`, a `uint8` or a `uint256`. -/
def decodeOutput (fnName : String) (w : Word) : Except Exn PyObj :=
  if fnName = "asset" then
    match codec.decodeAddress w.val with
    | some text => (codec.toChecksumAddress text).map .str
    | none => .error (.other "BadFunctionCallOutput")
  else if fnName = "decimals" then
    if bigEndian w.val < 256 then .ok (.int (bigEndian w.val)) else .error (.other "BadFunctionCallOutput")
  else
    match codec.decodeUint256 w.val with
    | some n => .ok (.int n)
    | none => .error (.other "BadFunctionCallOutput")

/-- The result of one call of a batch that may fail. -/
def batchedResult (c : String × Bool × Bytes) : Bool × Bytes :=
  match chain.view c.1 c.2.2 with
  | .ok word => (true, word.val)
  | .error revertData => (false, revertData)

/-- The tuple that stands for a result. -/
def resultTuple (result : Bool × Bytes) : PyObj := .seq [.bool result.1, .bytes result.2]

/-- What a client whose node serves the chain answers. -/
def answer (c : RpcCall) : Except Exn PyObj :=
  match c.abi, c.args with
  | .multicall3, [.calls calls] => .ok (.seq (calls.map fun c => resultTuple (chain.batchedResult c)))
  | _, _ => do
    let target ← codec.toChecksumAddress c.address
    match callData c with
    | none => .error (.other "ABIFunctionNotFound")
    | some data =>
      match chain.view target data with
      | .error _ => .error (.other "ContractLogicError")
      | .ok word => decodeOutput codec c.fnName word

/-- The client serves the chain. -/
def ServedBy {σ : Type} (chainId : Int) (call : RpcCall → Eff σ Raised PyObj) : Prop :=
  ∀ c, c.chainId = chainId → Yields (call c) ((chain.answer codec c).mapError .exception)

/-! ### What can be read of a vault -/

/-- The asset of the vault, unless the word is no address or the vault itself. -/
def underlying (vault : String) : Option String :=
  match chain.view vault Erc4626Adapter.assetSelector with
  | .ok word => (VaultAdapter.decodeAddress codec word.val).filter (· ≠ vault)
  | .error _ => none

def decimals (address : String) : Option SafeDecimals :=
  match chain.view address Erc4626Adapter.decimalsSelector with
  | .ok word => decodeTokenDecimals word.val
  | .error _ => none

/-- The assets of one share by a function of the vault. -/
def assets (selector : Bytes) (vault : String) (shareDecimals : SafeDecimals) : Option Nat :=
  match chain.view vault (selector ++ toBytes32 (10 ^ shareDecimals.val)) with
  | .ok word => some (bigEndian word.val)
  | .error _ => none

/-- `convertToAssets(10**decimals)`. -/
def convertToAssets (vault : String) (shareDecimals : SafeDecimals) : Option Nat :=
  chain.assets Erc4626Adapter.convertToAssetsSelector vault shareDecimals

/-- `previewRedeem(10**decimals)`. -/
def previewRedeem (vault : String) (shareDecimals : SafeDecimals) : Option Nat :=
  chain.assets Erc4626Adapter.previewRedeemSelector vault shareDecimals

/-- A vault whose `convertToAssets` answers zero and whose `previewRedeem` does not. -/
def OnlyPreviews (vault : String) : Prop :=
  ∃ underlying ∈ chain.underlying codec vault, ∃ shareDecimals ∈ chain.decimals vault,
    (chain.decimals underlying).isSome ∧ chain.convertToAssets vault shareDecimals = some 0 ∧
      ∃ rate ∈ chain.previewRedeem vault shareDecimals, 0 < rate

end OnChain

/-! ### Classifications -/

/-- What a path says about an address. -/
inductive Classification
  | notVault
  | vault (info : Erc4626VaultInfo)
  | invalidVaultData
  /-- any other exception -/
  | raised
deriving DecidableEq

/-- The outcome of a path, `_VaultInterfaceNotSupported` read as `None`. -/
def Classification.of : Except DetectExn (Option Erc4626VaultInfo) → Classification
  | .ok none => .notVault
  | .ok (some info) => .vault info
  | .error .vaultInterfaceNotSupported => .notVault
  | .error (.raised (.exception (.invalidRequest type _))) =>
    if type = "INVALID_VAULT_DATA" then .invalidVaultData else .raised
  | .error _ => .raised

/-- Both paths give one of the three documented classifications, and the same one. -/
def Classification.Agree (c d : Classification) : Prop := c = d ∧ c ≠ .raised

/-- The classification of a vault by the rate that is read of it. -/
def Classification.ofRate (info : UnitRate → Erc4626VaultInfo) : Option Nat → Classification
  | some n => if h : 0 < n then .vault (info ⟨n, h⟩) else .invalidVaultData
  | none => .invalidVaultData

private theorem Classification.ofRate_some (info : UnitRate → Erc4626VaultInfo) {rate : Option Nat} {r : UnitRate}
    (h : rate.filter (0 < ·) = some r.val) : ofRate info rate = .vault (info r) := by
  obtain ⟨rfl, -⟩ := Option.filter_eq_some_iff.1 h
  exact dif_pos r.property

private theorem Classification.ofRate_none (info : UnitRate → Erc4626VaultInfo) {rate : Option Nat}
    (h : rate.filter (0 < ·) = none) : ofRate info rate = .invalidVaultData := by
  cases rate with
  | none => rfl
  | some n =>
    have hn : ¬ 0 < n := by simpa using Option.filter_eq_none_iff.1 h n rfl
    exact dif_neg hn

namespace OnChain

variable (codec : Web3Codec) (chain : OnChain)

/-- The classification of an address by its readings, with a choice of the rate. -/
def classify (vaultAddress vault : String) (rate : SafeDecimals → Option Nat) : Classification :=
  match chain.underlying codec vault with
  | none => .notVault
  | some underlying =>
    match chain.decimals vault with
    | none => .invalidVaultData
    | some shareDecimals =>
      match chain.decimals underlying with
      | none => .invalidVaultData
      | some underlyingDecimals =>
        .ofRate (⟨vaultAddress, underlying, shareDecimals, underlyingDecimals, ·⟩) (rate shareDecimals)

/-- The batch takes the first positive rate. -/
def batchedRate (vault : String) (shareDecimals : SafeDecimals) : Option Nat :=
  ((chain.convertToAssets vault shareDecimals).filter (0 < ·)).or (chain.previewRedeem vault shareDecimals)

/-- The direct calls take the first rate that is returned. -/
def directRate (vault : String) (shareDecimals : SafeDecimals) : Option Nat :=
  (chain.convertToAssets vault shareDecimals).or (chain.previewRedeem vault shareDecimals)

end OnChain

/-! ### What the client returns -/

section Served

variable {σ : Type} {codec : Web3Codec} {chain : OnChain} {call : RpcCall → Eff σ Raised PyObj} {chainId : Int}

private theorem rpc_yields (hserved : chain.ServedBy codec chainId call) {c : RpcCall} (hc : c.chainId = chainId) :
    Yields (rpc call c) ((chain.answer codec c).mapError fun e => .raised (.exception e)) := by
  have hcall := hserved c hc
  unfold rpc Eff.mapError
  cases hanswer : chain.answer codec c with
  | ok obj =>
    rw [hanswer] at hcall
    exact hcall.tryExcept _
  | error exc =>
    rw [hanswer] at hcall
    exact hcall.tryExcept_error (.raise _)

private theorem normalizeItems_tuples (results : List (Bool × Bytes)) :
    normalizeItems (results.map OnChain.resultTuple) = .ok (results.map fun result => (result.1, some result.2)) := by
  induction results with
  | nil => rfl
  | cons result results ih =>
    rw [List.map_cons]
    unfold normalizeItems
    rw [ih]
    rfl

/-- The batch returns what the view calls of its entries return. -/
private theorem aggregate3_yields (hserved : chain.ServedBy codec chainId call) (multicallAddress : String)
    (calls : List (String × Bool × Bytes)) :
    Yields (aggregate3 call chainId multicallAddress calls)
      (.ok (calls.map fun c => ((chain.batchedResult c).1, some (chain.batchedResult c).2))) := by
  have hrpc := rpc_yields hserved (c := aggregate3Call chainId multicallAddress calls) rfl
  have hitems := normalizeItems_tuples (calls.map chain.batchedResult)
  rw [List.map_map, List.map_map] at hitems
  refine Yields.bind hrpc fun s => ?_
  show (normalizeItems (calls.map fun c => OnChain.resultTuple (chain.batchedResult c))).mapError _ = _
  exact congrArg _ hitems

/-! ### The batches -/

private theorem normalizeAddressText_eq_some {text address : String} :
    normalizeAddressText codec text = some address ↔ codec.toChecksumAddress text = .ok address := by
  unfold normalizeAddressText
  cases codec.toChecksumAddress text with
  | error exc => simp [Except.toOption]
  | ok checksum => simp [Except.toOption]

/-- An address that has been normalized is its own normal form. -/
private theorem normalizeAddressText_again (hlaw : codec.Lawful) {text address : String}
    (h : normalizeAddressText codec text = some address) : normalizeAddressText codec address = some address := by
  rw [normalizeAddressText_eq_some] at h ⊢
  exact hlaw.checksum text address h

private theorem decodeAddress_again (hlaw : codec.Lawful) (data : Bytes) :
    (decodeAddress codec data).bind (normalizeAddressText codec) = decodeAddress codec data := by
  cases haddress : decodeAddress codec data with
  | none => rfl
  | some address =>
    obtain ⟨text, -, htext⟩ := Option.bind_eq_some_iff.1 haddress
    exact normalizeAddressText_again hlaw htext

private theorem unlessVault_eq {vaultAddress vault : String} (hvault : codec.toChecksumAddress vaultAddress = .ok vault)
    (underlying : Option String) : unlessVault codec underlying vaultAddress = .ok (underlying.filter (· ≠ vault)) := by
  cases underlying with
  | none => rfl
  | some underlying =>
    unfold unlessVault
    simp only [hvault, bind, Except.bind, Option.filter]
    by_cases hself : underlying = vault
    · simp [hself, pure, Except.pure]
    · simp [hself, pure, Except.pure]

/-- The interface probe reads the underlying token. -/
private theorem decodeInterfaceAddress_yields (chain : OnChain) (hlaw : codec.Lawful) {vault : String}
    (hvault : codec.toChecksumAddress vault = .ok vault) (emptyMessage : String) (rest : List (Bool × Option Bytes)) :
    Yields (decodeInterfaceAddress codec emptyMessage
      (((chain.batchedResult (vault, true, Erc4626Adapter.assetSelector)).1,
        some (chain.batchedResult (vault, true, Erc4626Adapter.assetSelector)).2) :: rest) vault :
          Detect σ (Option String))
      (.ok (chain.underlying codec vault)) := by
  unfold OnChain.batchedResult OnChain.underlying
  cases hview : chain.view vault Erc4626Adapter.assetSelector with
  | error revertData => exact .pure none
  | ok word =>
    intro s
    show ((unlessVault codec _ vault).mapError _ : Except DetectExn (Option String)) = _
    rw [decodeAddress_again hlaw, unlessVault_eq hvault]
    rfl

private theorem decodeUint256_word (hlaw : codec.Lawful) (w : Word) :
    VaultAdapter.decodeUint256 codec w.val = some (bigEndian w.val) := by
  unfold VaultAdapter.decodeUint256
  rw [hlaw.decodeUint256 w]
  simp

/-- A rate of the batch is usable when its call returns a positive word. -/
private theorem firstRate_cons (hlaw : codec.Lawful) (selector : Bytes) (vault : String) (shareDecimals : SafeDecimals)
    (rest : List (Bool × Option Bytes)) :
    (Erc4626Adapter.firstRate codec
      (((chain.batchedResult (vault, true, selector ++ toBytes32 (10 ^ shareDecimals.val))).1,
        some (chain.batchedResult (vault, true, selector ++ toBytes32 (10 ^ shareDecimals.val))).2) :: rest)).map
          Subtype.val =
      ((chain.assets selector vault shareDecimals).filter (0 < ·)).or
        ((Erc4626Adapter.firstRate codec rest).map Subtype.val) := by
  unfold OnChain.batchedResult OnChain.assets
  cases hview : chain.view vault (selector ++ toBytes32 (10 ^ shareDecimals.val)) with
  | error revertData => rfl
  | ok word =>
    simp only [Erc4626Adapter.firstRate, decodeUint256_word hlaw]
    by_cases hpos : 0 < bigEndian word.val
    · simp [hpos, Option.filter]
    · simp [hpos, Option.filter]

/-- The first valid rate of a batch is the batched rate, when that is positive. -/
private theorem firstRate_batched
    (chain : OnChain) (hlaw : codec.Lawful) (vault : String) (shareDecimals : SafeDecimals) :
    (Erc4626Adapter.firstRate codec
      ([(vault, true, Erc4626Adapter.convertToAssetsSelector ++ toBytes32 (10 ^ shareDecimals.val)),
        (vault, true, Erc4626Adapter.previewRedeemSelector ++ toBytes32 (10 ^ shareDecimals.val))].map
        fun c => ((chain.batchedResult c).1, some (chain.batchedResult c).2))).map Subtype.val =
      (chain.batchedRate vault shareDecimals).filter (0 < ·) := by
  rw [List.map_cons, List.map_cons, firstRate_cons hlaw, firstRate_cons hlaw]
  unfold OnChain.batchedRate OnChain.convertToAssets OnChain.previewRedeem
  cases chain.assets Erc4626Adapter.convertToAssetsSelector vault shareDecimals with
  | none => simp [Erc4626Adapter.firstRate]
  | some n =>
    by_cases hn : 0 < n
    · simp [hn, Option.filter]
    · simp [hn, Option.filter, Erc4626Adapter.firstRate]

private theorem detectWithMulticall_yields (hlaw : codec.Lawful) (hserved : chain.ServedBy codec chainId call)
    (hchain : chainId ∈ chainIds) {vaultAddress vault : String}
    (hvault : codec.toChecksumAddress vaultAddress = .ok vault) :
    ∃ x, Yields (Erc4626Adapter.detectWithMulticall codec call vaultAddress chainId) x ∧
      Classification.of x = chain.classify codec vaultAddress vault (chain.batchedRate vault) := by
  have hself : codec.toChecksumAddress vault = .ok vault := hlaw.checksum vaultAddress vault hvault
  have hchecksum : Yields (liftExn (codec.toChecksumAddress vaultAddress) : Detect σ String) (.ok vault) := by
    rw [hvault]
    exact .ofExcept _
  obtain ⟨multicallAddress, hmulticall⟩ : ∃ address, multicall3ByChain chainId = some address := ⟨_, if_pos hchain⟩
  have hprobe := aggregate3_yields hserved multicallAddress (Erc4626Adapter.probeCalls vault)
  have hinterface := decodeInterfaceAddress_yields (σ := σ) chain hlaw hself
    "ERC-4626 detection returned an invalid multicall response"
  unfold Erc4626Adapter.detectWithMulticall OnChain.classify
  simp only [hmulticall]
  cases hunderlying : chain.underlying codec vault with
  | none =>
    rw [hunderlying] at hinterface
    exact ⟨.ok none, hchecksum.bind (hprobe.bind ((hinterface _).bind (.pure none))), rfl⟩
  | some underlying =>
    rw [hunderlying] at hinterface
    -- what follows the probe, as a computation of its own
    refine (?_ : ∃ x, Yields _ x ∧ _).imp fun x hx => ⟨hchecksum.bind (hprobe.bind ((hinterface _).bind hx.1)), hx.2⟩
    unfold OnChain.decimals OnChain.batchedResult
    cases hdecimals : chain.view vault Erc4626Adapter.decimalsSelector with
    | error revertData =>
      refine ⟨.error (invalidVaultData "ERC-4626 vault returned incomplete metadata"), ?_, rfl⟩
      simp only [Erc4626Adapter.probeCalls, List.map_cons, hdecimals]
      exact .raise _
    | ok word =>
      simp only [Erc4626Adapter.probeCalls, List.map_cons, hdecimals]
      cases hshare : decodeTokenDecimals word.val with
      | none => exact ⟨_, .raise _, rfl⟩
      | some shareDecimals =>
        have hconversion := aggregate3_yields hserved multicallAddress
          [(underlying, true, Erc4626Adapter.decimalsSelector),
            (vault, true, Erc4626Adapter.convertToAssetsSelector ++ toBytes32 (10 ^ shareDecimals.val)),
            (vault, true, Erc4626Adapter.previewRedeemSelector ++ toBytes32 (10 ^ shareDecimals.val))]
        have hrate := firstRate_batched chain hlaw vault shareDecimals
        refine (?_ : ∃ x, Yields _ x ∧ _).imp fun x hx => ⟨hconversion.bind hx.1, hx.2⟩
        rw [List.map_cons, if_neg (by simp)]
        generalize List.map _ _ = rates at hrate ⊢
        unfold OnChain.batchedResult
        dsimp only
        cases hunderlyingDecimals : chain.view underlying Erc4626Adapter.decimalsSelector with
        | error revertData => exact ⟨.error (invalidVaultData _), .raise _, rfl⟩
        | ok underlyingWord =>
          dsimp only
          cases hdecoded : decodeTokenDecimals underlyingWord.val with
          | none => exact ⟨.error (invalidVaultData _), .raise _, rfl⟩
          | some underlyingDecimals =>
            dsimp only
            cases hfirst : Erc4626Adapter.firstRate codec rates with
            | none =>
              rw [hfirst] at hrate
              exact ⟨.error (invalidVaultData _), .raise _, (Classification.ofRate_none _ hrate.symm).symm⟩
            | some rate =>
              rw [hfirst] at hrate
              exact ⟨.ok (some _), .pure _, (Classification.ofRate_some _ hrate.symm).symm⟩

/-! ### The direct calls -/

/-- The answer of a direct call. -/
private theorem answer_direct
    (chain : OnChain) {c : RpcCall} {target : String} {data : Bytes} (habi : c.abi ≠ .multicall3)
    (htarget : codec.toChecksumAddress c.address = .ok target) (hdata : OnChain.callData c = some data) :
    chain.answer codec c =
      match chain.view target data with
      | .error _ => .error (.other "ContractLogicError")
      | .ok word => OnChain.decodeOutput codec c.fnName word := by
  obtain ⟨_, address, abi, fnName, args⟩ := c
  cases abi with
  | multicall3 => exact absurd rfl habi
  | _ => simp only [OnChain.answer, htarget, hdata, bind, Except.bind]

/-- `asset()`: an address that is normalized, or an exception where there is no underlying token. -/
private theorem asset_answer (chain : OnChain) (chainId : Int) (hlaw : codec.Lawful) {vaultAddress vault : String}
    (hvault : codec.toChecksumAddress vaultAddress = .ok vault) :
    (∃ exc, chain.answer codec ⟨chainId, vaultAddress, .erc4626, "asset", []⟩ = .error exc ∧
        chain.underlying codec vault = none) ∨
      ∃ asset, chain.answer codec ⟨chainId, vaultAddress, .erc4626, "asset", []⟩ = .ok (.str asset) ∧
        normalizeAddressText codec asset = some asset ∧
        chain.underlying codec vault = (some asset).filter (· ≠ vault) := by
  have hanswer := answer_direct chain (c := ⟨chainId, vaultAddress, .erc4626, "asset", []⟩)
    (by simp) hvault rfl
  rw [hanswer]
  unfold OnChain.underlying
  cases hview : chain.view vault Erc4626Adapter.assetSelector with
  | error revertData => exact .inl ⟨_, rfl, rfl⟩
  | ok word =>
    unfold OnChain.decodeOutput VaultAdapter.decodeAddress
    dsimp only
    rw [if_pos rfl]
    cases hdecoded : codec.decodeAddress word.val with
    | none => exact .inl ⟨_, rfl, rfl⟩
    | some text =>
      cases hchecksum : codec.toChecksumAddress text with
      | error exc =>
        have hnone : normalizeAddressText codec text = none := by
          unfold normalizeAddressText
          rw [hchecksum]
          rfl
        exact .inl ⟨exc, by simp [hchecksum, Except.map], by simp [hnone]⟩
      | ok asset =>
        have hasset : normalizeAddressText codec text = some asset := normalizeAddressText_eq_some.2 hchecksum
        exact .inr ⟨asset, by simp [hchecksum, Except.map], normalizeAddressText_again hlaw hasset, by simp [hasset]⟩

/-- `decimals()`: an integer, which is validated as the word is decoded, or an exception. -/
private theorem decimals_answer (chain : OnChain) (chainId : Int) {address target : String} {abi : Abi}
    (habi : abi ≠ .multicall3) (htarget : codec.toChecksumAddress address = .ok target) :
    (∃ name, chain.answer codec ⟨chainId, address, abi, "decimals", []⟩ = .error (.other name) ∧
        chain.decimals target = none) ∨
      ∃ n, chain.answer codec ⟨chainId, address, abi, "decimals", []⟩ = .ok (.int n) ∧
        validateTokenDecimals (.int n) = chain.decimals target := by
  have hanswer := answer_direct chain (c := ⟨chainId, address, abi, "decimals", []⟩) habi htarget rfl
  rw [hanswer]
  unfold OnChain.decimals
  dsimp only
  cases hview : chain.view target Erc4626Adapter.decimalsSelector with
  | error revertData => exact .inl ⟨_, rfl, rfl⟩
  | ok word =>
    have hword := decodeTokenDecimals_word word
    unfold OnChain.decodeOutput
    dsimp only
    rw [if_neg (by decide), if_pos rfl]
    by_cases hsmall : bigEndian word.val < 256
    · rw [if_pos hsmall] at hword ⊢
      exact .inr ⟨_, rfl, hword.symm⟩
    · rw [if_neg hsmall] at hword ⊢
      exact .inl ⟨_, rfl, hword⟩

/-- A rate function: an integer, or an exception where the call reverts. -/
private theorem assets_answer (hlaw : codec.Lawful) {vaultAddress vault fnName : String} {selector : Bytes}
    (hvault : codec.toChecksumAddress vaultAddress = .ok vault) (shareDecimals : SafeDecimals)
    (hfn : (fnName, selector) = ("convertToAssets", Erc4626Adapter.convertToAssetsSelector) ∨
      (fnName, selector) = ("previewRedeem", Erc4626Adapter.previewRedeemSelector)) :
    chain.answer codec ⟨chainId, vaultAddress, .erc4626, fnName, [.uint (10 ^ shareDecimals.val)]⟩ =
      match chain.assets selector vault shareDecimals with
      | some n => .ok (.int n)
      | none => .error (.other "ContractLogicError") := by
  have hcallData : OnChain.callData ⟨chainId, vaultAddress, .erc4626, fnName, [.uint (10 ^ shareDecimals.val)]⟩ =
      some (selector ++ toBytes32 (10 ^ shareDecimals.val)) := by
    rcases hfn with h | h <;> cases h <;> rfl
  have houtput (word : Word) : OnChain.decodeOutput codec fnName word = .ok (.int (bigEndian word.val)) := by
    unfold OnChain.decodeOutput
    rw [hlaw.decodeUint256 word]
    rcases hfn with h | h <;> cases h <;> rfl
  rw [answer_direct chain (by simp) hvault hcallData]
  unfold OnChain.assets
  cases chain.view vault (selector ++ toBytes32 (10 ^ shareDecimals.val)) with
  | error revertData => rfl
  | ok word => exact houtput word

/-- The calls behind the interface find a vault, or raise what becomes invalid vault data. -/
def Settles (m : Detect σ (Option Erc4626VaultInfo)) (c : Classification) : Prop :=
  (∃ info, Yields m (.ok (some info)) ∧ c = .vault info) ∨
    c = .invalidVaultData ∧ ∃ exc, Yields m (.error exc) ∧
      ((∃ message, exc = invalidVaultData message) ∨ ∃ name, exc = .raised (.exception (.other name)))

private theorem Settles.invalid (message : String) :
    Settles (Eff.raise (invalidVaultData message) : Detect σ (Option Erc4626VaultInfo)) .invalidVaultData :=
  .inr ⟨rfl, _, .raise _, .inl ⟨message, rfl⟩⟩

theorem Settles.bind {α : Type} {m : Detect σ α} {f : α → Detect σ (Option Erc4626VaultInfo)} {a : α}
    {c : Classification} (hm : Yields m (.ok a)) (h : Settles (f a) c) : Settles (m >>= f) c := by
  rcases h with ⟨info, hinfo, hc⟩ | ⟨hc, exc, hexc, hkind⟩
  · exact .inl ⟨info, hm.bind hinfo, hc⟩
  · exact .inr ⟨hc, exc, hm.bind hexc, hkind⟩

private theorem Settles.bind_error {α : Type} {m : Detect σ α} {name : String}
    (hm : Yields m (.error (.raised (.exception (.other name))))) (f : α → Detect σ (Option Erc4626VaultInfo)) :
    Settles (m >>= f) .invalidVaultData :=
  .inr ⟨rfl, _, hm.bind_error f, .inr ⟨name, rfl⟩⟩

private theorem Settles.classified {m : Detect σ (Option Erc4626VaultInfo)} {c : Classification} (h : Settles m c)
    (message : String) : ∃ x, Yields (vaultData message m) x ∧ Classification.of x = c := by
  unfold vaultData
  rcases h with ⟨info, hinfo, rfl⟩ | ⟨rfl, exc, hexc, ⟨message', rfl⟩ | ⟨name, rfl⟩⟩
  · exact ⟨_, hinfo.tryExcept _, rfl⟩
  · exact ⟨_, hexc.tryExcept_error (.raise _), rfl⟩
  · exact ⟨_, hexc.tryExcept_error (.raise _), rfl⟩

/-- The direct calls of the rate: the second function is asked when the first call raises. -/
private theorem directRate_yields (hlaw : codec.Lawful) (hserved : chain.ServedBy codec chainId call)
    {vaultAddress vault : String} (hvault : codec.toChecksumAddress vaultAddress = .ok vault)
    (shareDecimals : SafeDecimals) :
    Yields
      (Eff.tryExcept
        (rpc call ⟨chainId, vaultAddress, .erc4626, "convertToAssets", [.uint (10 ^ shareDecimals.val)]⟩) fun exc =>
          match exc with
          | .raised .cancelled => Eff.raise exc
          | _ => rpc call ⟨chainId, vaultAddress, .erc4626, "previewRedeem", [.uint (10 ^ shareDecimals.val)]⟩)
      (match chain.directRate vault shareDecimals with
      | some n => .ok (.int n)
      | none => .error (.raised (.exception (.other "ContractLogicError")))) := by
  have hconvert := rpc_yields hserved
    (c := ⟨chainId, vaultAddress, .erc4626, "convertToAssets", [.uint (10 ^ shareDecimals.val)]⟩) rfl
  have hpreview := rpc_yields hserved
    (c := ⟨chainId, vaultAddress, .erc4626, "previewRedeem", [.uint (10 ^ shareDecimals.val)]⟩) rfl
  rw [assets_answer hlaw hvault shareDecimals (.inl rfl)] at hconvert
  rw [assets_answer hlaw hvault shareDecimals (.inr rfl)] at hpreview
  unfold OnChain.directRate OnChain.convertToAssets OnChain.previewRedeem
  cases hc : chain.assets Erc4626Adapter.convertToAssetsSelector vault shareDecimals with
  | some n =>
    rw [hc] at hconvert
    exact hconvert.tryExcept _
  | none =>
    rw [hc] at hconvert
    refine hconvert.tryExcept_error ?_
    cases hp : chain.assets Erc4626Adapter.previewRedeemSelector vault shareDecimals with
    | some n =>
      rw [hp] at hpreview
      exact hpreview
    | none =>
      rw [hp] at hpreview
      exact hpreview

private theorem detectWithCalls_yields (hlaw : codec.Lawful) (hserved : chain.ServedBy codec chainId call)
    {vaultAddress vault : String} (hvault : codec.toChecksumAddress vaultAddress = .ok vault) :
    ∃ x, Yields (Erc4626Adapter.detectWithCalls codec call vaultAddress chainId) x ∧
      Classification.of x = chain.classify codec vaultAddress vault (chain.directRate vault) := by
  have hasset := rpc_yields hserved (c := ⟨chainId, vaultAddress, .erc4626, "asset", []⟩) rfl
  unfold Erc4626Adapter.detectWithCalls OnChain.classify
  rcases asset_answer chain chainId hlaw hvault with
    ⟨exc, hanswer, hnone⟩ | ⟨asset, hanswer, hnormal, hunderlying⟩
  · rw [hanswer] at hasset
    rw [hnone]
    have hinterface : Yields (interfaceCall call ⟨chainId, vaultAddress, .erc4626, "asset", []⟩)
        (.error .vaultInterfaceNotSupported) := hasset.tryExcept_error (.raise _)
    exact ⟨_, hinterface.bind_error _, rfl⟩
  · rw [hanswer] at hasset
    have hinterface : Yields (interfaceCall call ⟨chainId, vaultAddress, .erc4626, "asset", []⟩) (.ok (.str asset)) :=
      hasset.tryExcept _
    have hnormalize : Yields (liftExn (normalizeUnderlyingAddress codec (.str asset) vaultAddress) :
        Detect σ (Option String)) (.ok (chain.underlying codec vault)) := by
      intro s
      show ((unlessVault codec (normalizeAddressText codec asset) vaultAddress).mapError _ :
        Except DetectExn (Option String)) = _
      rw [hnormal, unlessVault_eq hvault, hunderlying]
      rfl
    cases hsome : chain.underlying codec vault with
    | none =>
      rw [hsome] at hnormalize
      exact ⟨_, hinterface.bind (hnormalize.bind (.raise _)), rfl⟩
    | some underlying =>
      rw [hsome] at hnormalize
      have hself : codec.toChecksumAddress underlying = .ok underlying := by
        rw [hunderlying] at hsome
        obtain ⟨hasset, -⟩ := Option.filter_eq_some_iff.1 hsome
        cases hasset
        exact normalizeAddressText_eq_some.1 hnormal
      refine (?_ : ∃ x, Yields _ x ∧ _).imp fun x hx => ⟨hinterface.bind (hnormalize.bind hx.1), hx.2⟩
      refine Settles.classified ?_ _
      have hshare := rpc_yields hserved (c := ⟨chainId, vaultAddress, .erc4626, "decimals", []⟩) rfl
      have hdecimals := rpc_yields hserved (c := ⟨chainId, underlying, .erc20, "decimals", []⟩) rfl
      rcases decimals_answer chain chainId (by decide : Abi.erc4626 ≠ .multicall3) hvault with
        ⟨name, hanswer, hnone⟩ | ⟨n, hanswer, hvalid⟩
      · rw [hanswer] at hshare
        rw [hnone]
        exact Settles.bind_error hshare _
      rw [hanswer] at hshare
      refine Settles.bind hshare ?_
      rw [← hvalid]
      cases hshareDecimals : validateTokenDecimals (.int n) with
      | none => exact Settles.invalid _
      | some shareDecimals =>
        dsimp only
        rcases decimals_answer chain chainId (by decide : Abi.erc20 ≠ .multicall3) hself with
          ⟨name, hanswer', hnone'⟩ | ⟨n', hanswer', hvalid'⟩
        · rw [hanswer'] at hdecimals
          rw [hnone']
          exact Settles.bind_error hdecimals _
        rw [hanswer'] at hdecimals
        refine Settles.bind hdecimals ?_
        have hrate := directRate_yields hlaw hserved hvault shareDecimals
        rw [← hvalid']
        cases hdirect : chain.directRate vault shareDecimals with
        | none =>
          rw [hdirect] at hrate
          cases validateTokenDecimals (.int n') with
          | none => exact Settles.bind_error hrate _
          | some underlyingDecimals => exact Settles.bind_error hrate _
        | some rate =>
          rw [hdirect] at hrate
          refine Settles.bind hrate (Settles.bind (.ofExcept _) ?_)
          cases validateTokenDecimals (.int n') with
          | none => exact Settles.invalid _
          | some underlyingDecimals =>
            unfold Classification.ofRate
            dsimp only
            rw [Int.toNat_natCast]
            by_cases hpos : 0 < rate
            · rw [dif_pos hpos, dif_pos hpos]
              exact .inl ⟨_, .pure _, rfl⟩
            · rw [dif_neg hpos, dif_neg hpos]
              exact Settles.invalid _

/-! ### Agreement -/

/-- Two choices of the rate classify an address alike when they read the same usable rate of it. -/
private theorem ofRate_eq_iff
    (info : UnitRate → Erc4626VaultInfo) (hinfo : Function.Injective info) (a b : Option Nat) :
    Classification.ofRate info a = Classification.ofRate info b ↔ a.filter (0 < ·) = b.filter (0 < ·) := by
  have hcases (rate : Option Nat) : rate.filter (0 < ·) = none ∨ ∃ r : UnitRate, rate.filter (0 < ·) = some r.val := by
    cases hrate : rate.filter (0 < ·) with
    | none => exact .inl rfl
    | some n =>
      obtain ⟨-, hpos⟩ := Option.filter_eq_some_iff.1 hrate
      exact .inr ⟨⟨n, by simpa using hpos⟩, rfl⟩
  rcases hcases a with ha | ⟨r, ha⟩
  · rcases hcases b with hb | ⟨r', hb⟩
    · rw [Classification.ofRate_none info ha, Classification.ofRate_none info hb, ha, hb]
      simp
    · rw [Classification.ofRate_none info ha, Classification.ofRate_some info hb, ha, hb]
      simp
  · rcases hcases b with hb | ⟨r', hb⟩
    · rw [Classification.ofRate_some info ha, Classification.ofRate_none info hb, ha, hb]
      simp
    · rw [Classification.ofRate_some info ha, Classification.ofRate_some info hb, ha, hb]
      simp [hinfo.eq_iff, Subtype.ext_iff]

/-- The two rates of a vault are unusable both, or the same, unless it only previews. -/
private theorem rates_agree_iff (vault : String) (shareDecimals : SafeDecimals) :
    (chain.batchedRate vault shareDecimals).filter (0 < ·) = (chain.directRate vault shareDecimals).filter (0 < ·) ↔
      ¬ (chain.convertToAssets vault shareDecimals = some 0 ∧
        ∃ rate ∈ chain.previewRedeem vault shareDecimals, 0 < rate) := by
  unfold OnChain.batchedRate OnChain.directRate
  cases chain.convertToAssets vault shareDecimals with
  | none => simp
  | some n =>
    by_cases hn : 0 < n
    · simp [Option.filter, hn, hn.ne']
    · obtain rfl : n = 0 := by omega
      cases chain.previewRedeem vault shareDecimals with
      | none => simp [Option.filter]
      | some rate =>
        by_cases hrate : 0 < rate
        · simp [Option.filter, hrate]
        · simp [Option.filter, hrate]

private theorem classify_ne_raised (vaultAddress vault : String) (rate : SafeDecimals → Option Nat) :
    chain.classify codec vaultAddress vault rate ≠ .raised := by
  have hrate (info : UnitRate → Erc4626VaultInfo) (n : Option Nat) : Classification.ofRate info n ≠ .raised := by
    unfold Classification.ofRate
    split
    · split <;> simp
    · simp
  unfold OnChain.classify
  split
  · simp
  · split
    · simp
    · split
      · simp
      · exact hrate _ _

/-- On every fixed state of the chain the two paths classify an address alike unless it is a vault that only
previews. -/
theorem detection_paths_agree_iff (hlaw : codec.Lawful) (hserved : chain.ServedBy codec chainId call)
    (hchain : chainId ∈ chainIds) {vaultAddress vault : String}
    (hvault : codec.toChecksumAddress vaultAddress = .ok vault) (s s' : σ) :
    Classification.Agree
        (.of (Erc4626Adapter.detectWithMulticall codec call vaultAddress chainId s).1)
        (.of (Erc4626Adapter.detectWithCalls codec call vaultAddress chainId s').1) ↔
      ¬ chain.OnlyPreviews codec vault := by
  obtain ⟨x, hmulticall, hx⟩ := detectWithMulticall_yields hlaw hserved hchain hvault
  obtain ⟨y, hcalls, hy⟩ := detectWithCalls_yields hlaw hserved hvault
  rw [hmulticall s, hcalls s', hx, hy]
  unfold Classification.Agree
  rw [and_iff_left (classify_ne_raised vaultAddress vault _)]
  unfold OnChain.classify OnChain.OnlyPreviews
  cases chain.underlying codec vault with
  | none => simp
  | some underlying =>
    cases chain.decimals vault with
    | none => simp
    | some shareDecimals =>
      cases hdecimals : chain.decimals underlying with
      | none => simp [hdecimals]
      | some underlyingDecimals =>
        have hinfo : Function.Injective fun rate : UnitRate =>
            (⟨vaultAddress, underlying, shareDecimals, underlyingDecimals, rate⟩ : Erc4626VaultInfo) := by
          intro r r' h
          exact (Erc4626VaultInfo.mk.inj h).2.2.2.2
        simp only [hdecimals]
        rw [ofRate_eq_iff _ hinfo, rates_agree_iff]
        simp [hdecimals]

end Served

/-! ### A vault on a small chain -/

/-- The library on addresses without letters, whose checksum address they are themselves. -/
def Example.numeralCodec : Web3Codec where
  isAddress _ := true
  toChecksumAddress := .ok
  decodeAddress data :=
    if data.length = 32 ∧ (data.take 12).all (· = 0) then
      some ("0x" ++ String.ofList ((data.drop 12).flatMap fun b =>
        [Nat.digitChar (b.toNat / 16), Nat.digitChar (b.toNat % 16)]))
    else none
  decodeUint256 data := if data.length = 32 then some (bigEndian data) else none

def Example.chainVault : String := "0x1111111111111111111111111111111111111111"

def Example.chainToken : String := "0x2222222222222222222222222222222222222222"

def Example.word (n : Nat) : Word := ⟨toBytes32 n, by simp [toBytes32]⟩

/-- A vault of 18 decimals with the given answers of its two rate functions. -/
def Example.vaultChain (convert preview : Nat) : OnChain where
  view address data :=
    if address = Example.chainVault ∧ data = Erc4626Adapter.assetSelector then
      .ok (Example.word 0x2222222222222222222222222222222222222222)
    else if data = Erc4626Adapter.decimalsSelector then .ok (Example.word 18)
    else if address = Example.chainVault ∧ data = Erc4626Adapter.convertToAssetsSelector ++ toBytes32 (10 ^ 18) then
      .ok (Example.word convert)
    else if address = Example.chainVault ∧ data = Erc4626Adapter.previewRedeemSelector ++ toBytes32 (10 ^ 18) then
      .ok (Example.word preview)
    else .error []

/-- The client of a node that serves the chain. -/
def Example.serve (chain : OnChain) (c : RpcCall) : Eff Unit Raised PyObj :=
  Eff.ofExcept ((chain.answer Example.numeralCodec c).mapError .exception)

/-- What the batches say about the vault. -/
def Example.batched (chain : OnChain) : Classification :=
  .of (Erc4626Adapter.detectWithMulticall Example.numeralCodec (Example.serve chain) Example.chainVault 1 ()).1

/-- What the direct calls say about the vault. -/
def Example.direct (chain : OnChain) : Classification :=
  .of (Erc4626Adapter.detectWithCalls Example.numeralCodec (Example.serve chain) Example.chainVault 1 ()).1

private theorem numeralCodec_lawful : Example.numeralCodec.Lawful where
  isAddress _ _ _ := rfl
  checksum _ _ _ := rfl
  decodeUint256 w := if_pos w.property

private theorem serve_served (chain : OnChain) : chain.ServedBy Example.numeralCodec 1 (Example.serve chain) :=
  fun _ _ => .ofExcept _

/-- A share that both functions value alike is detected alike. -/
theorem detection_paths_agree_at_par :
    Classification.Agree (Example.batched (Example.vaultChain (10 ^ 18) (10 ^ 18)))
      (Example.direct (Example.vaultChain (10 ^ 18) (10 ^ 18))) := by
  refine (detection_paths_agree_iff numeralCodec_lawful (serve_served _) (by decide) rfl () ()).2 ?_
  rintro ⟨-, -, shareDecimals, hdecimals, -, hzero, -⟩
  have heighteen : (Example.vaultChain (10 ^ 18) (10 ^ 18)).decimals Example.chainVault = some ⟨18, by decide⟩ := by
    decide +kernel
  cases heighteen.symm.trans hdecimals
  revert hzero
  decide +kernel

/-- Where `convertToAssets` answers zero and `previewRedeem` one token, the batches find a vault and the direct calls
report invalid vault data. -/
theorem detection_paths_disagree :
    (Example.vaultChain 0 (10 ^ 18)).ServedBy Example.numeralCodec 1 (Example.serve (Example.vaultChain 0 (10 ^ 18))) ∧
      Example.batched (Example.vaultChain 0 (10 ^ 18)) =
        .vault ⟨Example.chainVault, Example.chainToken, ⟨18, by decide⟩, ⟨18, by decide⟩, ⟨10 ^ 18, by decide⟩⟩ ∧
      Example.direct (Example.vaultChain 0 (10 ^ 18)) = .invalidVaultData :=
  ⟨serve_served _, by decide +kernel, by decide +kernel⟩

end TokenPriceAgg

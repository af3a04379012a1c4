import TokenPriceAgg.Core.FailClosed

/-!
# The amount of a converted request

Shares of a vault on the input leg become `shares * assets_per_share_unit // share_unit` of the underlying token, and
nothing checks the outcome: it can be zero, or more than an unsigned 256-bit integer holds.  `Converts` says that
everything else the conversion needs is there.
-/

namespace TokenPriceAgg

open PyLib Eff Aggregator

section Legs

variable {V : Type} {eth : EthUtils} {configured : Int → Bool}
  {detect : String → Int → Eff V Raised (Option VaultInfo)} {blockNumber : Int → Eff V Raised Int}
  {req : ProviderQuoteRequest} {vaultIn vaultOut : Option VaultInfo} {v v' : V}

/-- The chain is configured, the detection answers for both legs with at least one vault, the block number is known,
and the tokens and the contexts of the vaults are accepted. -/
def LegsFound (eth : EthUtils) (configured : Int → Bool) (detect : String → Int → Eff V Raised (Option VaultInfo))
    (blockNumber : Int → Eff V Raised Int) (req : ProviderQuoteRequest) (vaultIn vaultOut : Option VaultInfo) (v : V) :
    Prop :=
  configured req.chainId = true ∧ (vaultIn.isSome ∨ vaultOut.isSome) ∧ ∃ tokenIn v₁ tokenOut v₂ block v₃,
    VaultResolver.resolveLeg eth detect req.tokenIn req.chainId v = (.ok (vaultIn, tokenIn), v₁) ∧
    VaultResolver.resolveLeg eth detect req.tokenOut req.chainId v₁ = (.ok (vaultOut, tokenOut), v₂) ∧
    blockNumber req.chainId v₂ = (.ok block, v₃) ∧
    (VaultResolver.legContext eth vaultIn block).isOk ∧ (VaultResolver.legContext eth vaultOut block).isOk

private theorem legContext_rate {vault : Option VaultInfo} {block : Int} {context : Option VaultContext}
    (h : VaultResolver.legContext eth vault block = .ok context) :
    (context.isSome ↔ vault.isSome) ∧ ∀ c ∈ context, c.pricePerShare.isSome := by
  cases vault with
  | none =>
    cases h
    simp
  | some vault =>
    cases hc : VaultResolver.vaultContext eth vault block with
    | error exc =>
      simp only [VaultResolver.legContext, hc] at h
      cases h
    | ok c =>
      simp only [VaultResolver.legContext, hc] at h
      cases h
      refine ⟨by simp, fun c' hc' => ?_⟩
      cases Option.mem_some.1 hc'
      obtain ⟨rate, hrate, -⟩ := VaultResolver.vaultContext_pricePerShare hc
      rw [hrate]
      rfl

/-- With both legs found the resolver gives a usable resolution, and the input amount is converted. -/
private theorem resolveQuoteRequest_of_legs (h : LegsFound eth configured detect blockNumber req vaultIn vaultOut v) :
    ∃ request resolution,
      (VaultResolver.resolveQuoteRequest eth configured detect blockNumber req v).1 = .ok (request, some resolution) ∧
      UsableQuote resolution ∧ request.amountIn = VaultResolver.convertInput vaultIn req.amountIn := by
  obtain ⟨hconfigured, hvault, tokenIn, v₁, tokenOut, v₂, block, v₃, hin, hout, hblock, hcin, hcout⟩ := h
  cases hi : VaultResolver.legContext eth vaultIn block with
  | error exc => rw [hi] at hcin; cases hcin
  | ok input =>
    cases ho : VaultResolver.legContext eth vaultOut block with
    | error exc => rw [ho] at hcout; cases hcout
    | ok output =>
      let resolution : QuoteVaultResolution :=
        { inputVaultContext := input, outputVaultContext := output
          outputAssetsToShares := vaultOut.map fun vault _ assets => (vault.convertAssetsToShares assets).map PyObj.int }
      obtain ⟨hinput, hinputRate⟩ := legContext_rate hi
      obtain ⟨houtput, houtputRate⟩ := legContext_rate ho
      refine ⟨{ chainId := req.chainId, tokenIn, tokenOut, amountIn := VaultResolver.convertInput vaultIn req.amountIn },
        resolution, ?_, ⟨?_, hinputRate, houtputRate, fun hsome => ?_⟩, rfl⟩
      · have hnone : ¬ (vaultIn.isNone ∧ vaultOut.isNone) := by
          rintro ⟨hnin, hnout⟩
          simp_all
        unfold VaultResolver.resolveQuoteRequest
        rw [if_pos hconfigured, bind_ok hin]
        dsimp only
        rw [bind_ok hout]
        dsimp only
        rw [if_neg hnone, bind_ok hblock]
        simp only [VaultResolver.liftExcept, hi, ho]
        rfl
      · rw [hinput, houtput]
        exact hvault
      · rw [Option.isSome_map]
        exact houtput.1 hsome

/-- A resolver that answers has found both legs. -/
private theorem legs_of_resolveQuoteRequest {request : ProviderQuoteRequest} {payload : Option QuoteVaultResolution}
    (h : (VaultResolver.resolveQuoteRequest eth configured detect blockNumber req v).1 = .ok (request, payload)) :
    ∃ vaultIn vaultOut, LegsFound eth configured detect blockNumber req vaultIn vaultOut v ∧
      request.amountIn = VaultResolver.convertInput vaultIn req.amountIn := by
  obtain ⟨v', hrun⟩ : ∃ v', VaultResolver.resolveQuoteRequest eth configured detect blockNumber req v =
      (.ok (request, payload), v') := ⟨_, Prod.ext h rfl⟩
  unfold VaultResolver.resolveQuoteRequest at hrun
  split at hrun
  · rename_i hconfigured
    obtain ⟨⟨vaultIn, tokenIn⟩, v₁, hin, hrun⟩ := bind_eq_ok.1 hrun
    obtain ⟨⟨vaultOut, tokenOut⟩, v₂, hout, hrun⟩ := bind_eq_ok.1 hrun
    dsimp only at hrun
    split at hrun
    · cases hrun
    · rename_i hnone
      obtain ⟨block, v₃, hblock, hrun⟩ := bind_eq_ok.1 hrun
      obtain ⟨input, v₄, hi, hrun⟩ := bind_eq_ok.1 hrun
      obtain ⟨output, v₅, ho, hrun⟩ := bind_eq_ok.1 hrun
      cases hrun
      have lifted {context : Option VaultContext} {x : Except Exn (Option VaultContext)} {u u' : V}
          (hx : VaultResolver.liftExcept x u = (.ok context, u')) : x.isOk := by
        cases x with
        | error exc => cases hx
        | ok c => rfl
      refine ⟨vaultIn, vaultOut, ⟨hconfigured, ?_, tokenIn, v₁, tokenOut, v₂, block, v₃, hin, hout, hblock,
        lifted hi, lifted ho⟩, rfl⟩
      cases vaultIn with
      | some vault => exact .inl rfl
      | none => cases vaultOut with
        | some vault => exact .inr rfl
        | none => exact absurd ⟨rfl, rfl⟩ hnone
  · cases hrun

/-- The vault of the input leg is determined. -/
theorem LegsFound.unique {vaultIn' vaultOut' : Option VaultInfo}
    (h : LegsFound eth configured detect blockNumber req vaultIn vaultOut v)
    (h' : LegsFound eth configured detect blockNumber req vaultIn' vaultOut' v) : vaultIn = vaultIn' := by
  obtain ⟨-, -, tokenIn, v₁, -, -, -, -, hin, -⟩ := h
  obtain ⟨-, -, tokenIn', v₁', -, -, -, -, hin', -⟩ := h'
  rw [hin] at hin'
  cases hin'
  rfl

/-- The resolver adds no cancellation to those of the detection and of the RPC client. -/
private theorem resolveQuoteRequest_uncancelled
    (hdetect : ∀ address chainId v, (detect address chainId v).1 ≠ .error .cancelled)
    (hblock : ∀ chainId v, (blockNumber chainId v).1 ≠ .error .cancelled) (req : ProviderQuoteRequest) (v : V) :
    (VaultResolver.resolveQuoteRequest eth configured detect blockNumber req v).1 ≠ .error .cancelled := by
  have hasked {α : Type} {m : Eff V Raised α} (hm : ∀ v, (m v).1 ≠ .error .cancelled) :
      Triple (fun _ => True) m (fun _ _ => True) (fun e _ => e ≠ .cancelled) := by
    intro v _
    rcases hr : m v with ⟨e | a, v'⟩
    · rintro rfl
      exact hm v (by rw [hr])
    · trivial
  have hlift {α : Type} (x : Except Exn α) :
      Triple (fun _ => True) (VaultResolver.liftExcept x : Eff V Raised α) (fun _ _ => True)
        (fun e _ => e ≠ .cancelled) := by
    refine Triple.ofExcept (fun _ _ _ _ => trivial) fun e _ he _ => ?_
    cases x with
    | error exc => cases he; simp
    | ok a => cases he
  have hleg (token : TokenRef) (chainId : Int) :
      Triple (fun _ => True) (VaultResolver.resolveLeg eth detect token chainId) (fun _ _ => True)
        (fun e _ => e ≠ .cancelled) := by
    refine Triple.bind (hasked (hdetect _ _)) fun vault => ?_
    cases vault with
    | none => exact Triple.pure fun _ _ => trivial
    | some vault => exact Triple.bind (hlift _) fun _ => Triple.pure fun _ _ => trivial
  have htriple : Triple (fun _ => True) (VaultResolver.resolveQuoteRequest eth configured detect blockNumber req)
      (fun _ _ => True) (fun e _ => e ≠ .cancelled) := by
    refine Triple.ite (fun _ => ?_) fun _ => Triple.raise fun _ _ => by simp
    refine Triple.bind (hleg _ _) fun x => Triple.bind (hleg _ _) fun y => ?_
    refine Triple.ite (fun _ => Triple.raise fun _ _ => by simp) fun _ => ?_
    refine Triple.bind (hasked (hblock _)) fun block => ?_
    exact Triple.bind (hlift _) fun _ => Triple.bind (hlift _) fun _ => Triple.pure fun _ _ => trivial
  have houtcome : Outcome _ _ (VaultResolver.resolveQuoteRequest eth configured detect blockNumber req v) :=
    htriple v trivial
  intro hcancelled
  rcases hr : VaultResolver.resolveQuoteRequest eth configured detect blockNumber req v with ⟨e | a, v'⟩
  · rw [hr] at houtcome hcancelled
    exact houtcome (Except.error.inj hcancelled)
  · rw [hr] at hcancelled
    cases hcancelled

end Legs

section Amounts

variable {V : Type} {settings : Settings} {eth : EthUtils} {configured : Int → Bool}
  {detect : String → Int → Eff V Raised (Option VaultInfo)} {blockNumber : Int → Eff V Raised Int}
  {env : AggregatorEnv V ProviderQuoteRequest AcceptedQuoteResult} {selected : List ProviderPlugin}
  {req : ProviderQuoteRequest} {timeoutMs : Option Int} {vault : VaultInfo}
  {w w' : AggregatorWorld V ProviderQuoteRequest QuoteResult}
  {outcome : Except Raised (List QuoteResult × AggregateQuoteSummary × Bool)}

/-- `token_in` is the vault `vault`, the vault limiter has capacity, and everything else the conversion needs is
there. -/
def Converts (settings : Settings) (side : VaultSide V) (eth : EthUtils) (configured : Int → Bool)
    (detect : String → Int → Eff V Raised (Option VaultInfo)) (blockNumber : Int → Eff V Raised Int)
    (req : ProviderQuoteRequest) (v : V) (vault : VaultInfo) : Prop :=
  ∃ reservation v₁ vaultOut, acquireVault settings side 2 v = (.ok (some reservation), v₁) ∧
    LegsFound eth configured detect blockNumber req (some vault) vaultOut v₁

/-- No wait of the resolution is cancelled. -/
structure UncancelledVault (side : VaultSide V) (detect : String → Int → Eff V Raised (Option VaultInfo))
    (blockNumber : Int → Eff V Raised Int) : Prop where
  waits : ∀ s ∈ side.waits, s.wakeUp ≠ .cancelled
  detect : ∀ address chainId v, (detect address chainId v).1 ≠ .error .cancelled
  blockNumber : ∀ chainId v, (blockNumber chainId v).1 ≠ .error .cancelled

theorem UncancelledVault.resolution {side : VaultSide V} (h : UncancelledVault side detect blockNumber)
    (eth : EthUtils) (configured : Int → Bool) :
    UncancelledResolution side (VaultResolver.resolveQuoteRequest eth configured detect blockNumber) :=
  ⟨h.waits, resolveQuoteRequest_uncancelled h.detect h.blockNumber⟩

/-- Either the resolution fails and no plugin runs, or the plugins get a positive 256-bit amount, which every result
can echo. -/
def AmountStaysLegal (selected : List ProviderPlugin) (w : AggregatorWorld V ProviderQuoteRequest QuoteResult)
    (outcome : Except Raised (List QuoteResult × AggregateQuoteSummary × Bool))
    (w' : AggregatorWorld V ProviderQuoteRequest QuoteResult) : Prop :=
  Closed selected w outcome w' ∨ ∃ request : ProviderQuoteRequest, w'.dispatched = w.dispatched ++ [request] ∧
    1 ≤ request.amountIn ∧ request.amountIn ≤ maxUint256 ∧
    ∀ r : QuoteResult, r.Valid → QuoteResult.Valid { r with amountIn := some request.amountIn }

private theorem QuoteResult.Valid.withAmountIn {r : QuoteResult} (h : r.Valid) {n : Int} (hn : IsUint256 n) :
    QuoteResult.Valid { r with amountIn := some n } :=
  { h with amountIn := fun m hm => by cases Option.mem_some.1 hm; exact hn }

/-- The timeout override does not touch the amount. -/
theorem withTimeout_amountIn (eth : EthUtils) (timeoutMs : Option Int) (request : ProviderQuoteRequest) :
    ((quoteAggregation eth).withTimeout timeoutMs request).amountIn = request.amountIn := by
  cases timeoutMs <;> rfl

private theorem amountStaysLegal_of_dispatched {request : ProviderQuoteRequest}
    (h : w'.dispatched = w.dispatched ++ [(quoteAggregation eth).withTimeout timeoutMs request]) :
    AmountStaysLegal selected w outcome w' ↔ 1 ≤ request.amountIn ∧ request.amountIn ≤ maxUint256 := by
  constructor
  · rintro (hclosed | ⟨request', hdispatched, hpos, hmax, -⟩)
    · have hnil := hclosed.dispatched
      rw [h] at hnil
      simp at hnil
    · rw [h] at hdispatched
      have heq : (quoteAggregation eth).withTimeout timeoutMs request = request' := by simpa using hdispatched
      rw [← withTimeout_amountIn eth timeoutMs, heq]
      exact ⟨hpos, hmax⟩
  · rintro ⟨hpos, hmax⟩
    refine .inr ⟨_, h, ?_⟩
    rw [withTimeout_amountIn]
    exact ⟨hpos, hmax, fun r hr => hr.withAmountIn ⟨by omega, hmax⟩⟩

/-- The amount of shares that are converted. -/
private theorem convertInput_some (vault : VaultInfo) (shares : Int) :
    VaultResolver.convertInput (some vault) shares = shares * vault.assetsPerShareUnit / vault.shareUnit :=
  vault.convert_eq shares

/-- A conversion that nothing stops is handed to the plugins, whatever it comes to. -/
private theorem dispatched_of_converts (hselected : selected ≠ [])
    (huncancelled : UncancelledVault env.vaultSide detect blockNumber)
    (hreq : IsUint256 req.amountIn)
    (hconverts : Converts settings env.vaultSide eth configured detect blockNumber req w.vault vault)
    (hrun : aggregateQuotes settings eth env (VaultResolver.resolveQuoteRequest eth configured detect blockNumber)
      selected req true timeoutMs w = (outcome, w')) :
    ∃ request : ProviderQuoteRequest,
      w'.dispatched = w.dispatched ++ [(quoteAggregation eth).withTimeout timeoutMs request] ∧
      request.amountIn = req.amountIn * vault.assetsPerShareUnit / vault.shareUnit := by
  obtain ⟨reservation, v₁, vaultOut, hacquire, hlegs⟩ := hconverts
  obtain ⟨request, resolution, hanswer, husable, hamount⟩ := resolveQuoteRequest_of_legs hlegs
  have hanswers : Answers settings env.vaultSide 2
      (VaultResolver.resolveQuoteRequest eth configured detect blockNumber) req w.vault
      (.ok (request, some resolution)) := ⟨reservation, v₁, hacquire, hanswer⟩
  rcases quotes_fail_closed hselected (huncancelled.resolution eth configured) hreq hrun with
    ⟨request', resolution', hanswers', -, hconverted⟩ |
    ⟨⟨message, hanswers'⟩, -⟩ | ⟨hunusable, -⟩
  · cases hanswers.unique hanswers'
    exact ⟨request, hconverted.dispatched, hamount.trans (convertInput_some vault _)⟩
  · cases hanswers.unique hanswers'
  · exact absurd husable (hunusable _ _ hanswers)

/-- For an amount of the front door, a call with `use_underlying` hands a legal amount to the plugins or fails closed
if and only if the shares of an input vault, when nothing else stops their conversion, come to a positive 256-bit
amount. -/
theorem converted_amount_legal_iff (hselected : selected ≠ [])
    (huncancelled : UncancelledVault env.vaultSide detect blockNumber)
    (hpos : 1 ≤ req.amountIn) (hmax : req.amountIn ≤ maxUint256)
    (hrun : aggregateQuotes settings eth env (VaultResolver.resolveQuoteRequest eth configured detect blockNumber)
      selected req true timeoutMs w = (outcome, w')) :
    AmountStaysLegal selected w outcome w' ↔
      ∀ vault, Converts settings env.vaultSide eth configured detect blockNumber req w.vault vault →
        1 ≤ req.amountIn * vault.assetsPerShareUnit / vault.shareUnit ∧
        req.amountIn * vault.assetsPerShareUnit / vault.shareUnit ≤ maxUint256 := by
  have hreq : IsUint256 req.amountIn := ⟨by omega, hmax⟩
  constructor
  · intro hlegal vault hconverts
    obtain ⟨request, hdispatched, hamount⟩ := dispatched_of_converts hselected huncancelled hreq hconverts hrun
    rw [← hamount]
    exact (amountStaysLegal_of_dispatched hdispatched).1 hlegal
  · intro h
    rcases quotes_fail_closed hselected (huncancelled.resolution eth configured) hreq hrun with
      ⟨request, resolution, ⟨reservation, v₁, hacquire, hanswer⟩, -, hconverted⟩ | ⟨-, hgiven⟩ | ⟨-, -, hclosed⟩
    · refine (amountStaysLegal_of_dispatched hconverted.dispatched).2 ?_
      obtain ⟨vaultIn, vaultOut, hlegs, hamount⟩ := legs_of_resolveQuoteRequest hanswer
      rw [hamount]
      cases vaultIn with
      | none => exact ⟨hpos, hmax⟩
      | some vault =>
        rw [convertInput_some]
        exact h vault ⟨reservation, v₁, vaultOut, hacquire, hlegs⟩
    · exact (amountStaysLegal_of_dispatched hgiven.dispatched).2 ⟨hpos, hmax⟩
    · exact .inl hclosed

end Amounts

/-! ### Three vaults -/

/-- A vault of 18 decimals whose share is worth one base unit. -/
def Example.worthlessVault : VaultInfo :=
  .fromErc4626 ⟨Example.savingsDai, Example.dai, ⟨18, eighteen_safe⟩, ⟨18, eighteen_safe⟩, ⟨1, by decide⟩⟩

/-- A vault without decimals with the largest rate there is. -/
def Example.enormousVault : VaultInfo :=
  .fromErc4626 ⟨Example.savingsDai, Example.dai, ⟨0, Nat.zero_le _⟩, ⟨18, eighteen_safe⟩, ⟨2 ^ 256 - 1, by decide⟩⟩

/-- A vault of 18 decimals whose share is worth two tokens. -/
def Example.ordinaryVault : VaultInfo :=
  .fromErc4626 ⟨Example.savingsDai, Example.dai, ⟨18, eighteen_safe⟩, ⟨18, eighteen_safe⟩, ⟨2 * 10 ^ 18, by decide⟩⟩

/-- `token_in` is the vault, and there is no other one. -/
def Example.detectInput (vault : VaultInfo) (address : String) (_ : Int) :
    Eff WeightedLimiter Raised (Option VaultInfo) :=
  pure (if address = savingsDai then some vault else none)

def Example.lastBlock (_ : Int) : Eff WeightedLimiter Raised Int := pure 7

def Example.convertedRun (vault : VaultInfo) (shares : Int) :=
  aggregateQuotes .default Example.eth (Example.aggregatorEnv fun _ _ => none)
    (VaultResolver.resolveQuoteRequest Example.eth (fun _ => true) (Example.detectInput vault) Example.lastBlock)
    Example.plugins
    (Example.quoteRequest shares) true none Example.aggregatorWorld

private theorem underlying_ok : (normalizeAddress Example.eth Example.dai).isOk := by decide +kernel

private theorem input_uncancelled (vault : VaultInfo) :
    UncancelledVault Example.vaultSide (Example.detectInput vault) Example.lastBlock where
  waits := by simp [Example.vaultSide]
  detect := by simp [Example.detectInput]
  blockNumber := by simp [Example.lastBlock]

private theorem input_legs {vault : VaultInfo} (shares : Int) (v : WeightedLimiter)
    (htoken : (normalizeAddress Example.eth vault.underlyingToken).isOk)
    (hcontext : (VaultResolver.legContext Example.eth (some vault) 7).isOk) :
    LegsFound Example.eth (fun _ => true) (Example.detectInput vault) Example.lastBlock (Example.quoteRequest shares)
      (some vault) none
      v := by
  cases haddress : normalizeAddress Example.eth vault.underlyingToken with
  | error exc => rw [haddress] at htoken; cases htoken
  | ok address =>
    refine ⟨rfl, .inl rfl, { chainId := 1, address }, v, { chainId := 1, address := Example.usdc }, v, 7, v, ?_, rfl,
      rfl, hcontext, rfl⟩
    show VaultResolver.resolveLeg Example.eth (Example.detectInput vault)
      { chainId := 1, address := Example.savingsDai } 1 v = _
    have hdetect : Example.detectInput vault Example.savingsDai 1 v = (.ok (some vault), v) := rfl
    unfold VaultResolver.resolveLeg
    rw [bind_ok hdetect]
    simp only [VaultResolver.underlyingTokenRef, TokenRef.new, haddress]
    rfl

private theorem input_converts {vault : VaultInfo} (shares : Int)
    (htoken : (normalizeAddress Example.eth vault.underlyingToken).isOk)
    (hcontext : (VaultResolver.legContext Example.eth (some vault) 7).isOk) :
    Converts .default Example.vaultSide Example.eth (fun _ => true) (Example.detectInput vault) Example.lastBlock
      (Example.quoteRequest shares) Example.vaultLimiter vault := by
  obtain ⟨r, v, hacquire⟩ := Example.acquires
  exact ⟨r, v, none, hacquire, input_legs shares v htoken hcontext⟩

/-- Five shares of a vault whose share is worth two tokens are ten tokens. -/
theorem converted_amount_legal_iff_ordinary :
    AmountStaysLegal Example.plugins Example.aggregatorWorld (Example.convertedRun Example.ordinaryVault 5).1
      (Example.convertedRun Example.ordinaryVault 5).2 := by
  have hrun := (Prod.mk.eta (p := Example.convertedRun Example.ordinaryVault 5)).symm
  have hlegal := fun hselected huncancelled hpos hmax =>
    converted_amount_legal_iff hselected huncancelled hpos hmax hrun
  refine (hlegal (by simp [Example.plugins]) (input_uncancelled Example.ordinaryVault) (by decide) (by decide)).2
    fun vault hconverts => ?_
  obtain ⟨r, v, vaultOut, hacquire, hlegs⟩ := hconverts
  have hvault := hlegs.unique (input_legs 5 v underlying_ok (by decide +kernel))
  cases hvault
  decide +kernel

/-- One base unit of the first vault is worth nothing, and `2 ^ 256 - 1` shares of the second one are worth more than
the providers can be asked for: both amounts are handed to the providers as they are. -/
theorem converted_amount_illegal :
    ¬ AmountStaysLegal Example.plugins Example.aggregatorWorld (Example.convertedRun Example.worthlessVault 1).1
        (Example.convertedRun Example.worthlessVault 1).2 ∧
      ¬ AmountStaysLegal Example.plugins Example.aggregatorWorld
        (Example.convertedRun Example.enormousVault (2 ^ 256 - 1)).1
        (Example.convertedRun Example.enormousVault (2 ^ 256 - 1)).2 := by
  have illegal (vault : VaultInfo) (shares : Int) (hshares : IsUint256 shares)
      (htoken : (normalizeAddress Example.eth vault.underlyingToken).isOk)
      (hcontext : (VaultResolver.legContext Example.eth (some vault) 7).isOk)
      (h : ¬ (1 ≤ shares * vault.assetsPerShareUnit / vault.shareUnit ∧
        shares * vault.assetsPerShareUnit / vault.shareUnit ≤ maxUint256)) :
      ¬ AmountStaysLegal Example.plugins Example.aggregatorWorld (Example.convertedRun vault shares).1
        (Example.convertedRun vault shares).2 := by
    intro hlegal
    have hrun := (Prod.mk.eta (p := Example.convertedRun vault shares)).symm
    have hconverted := fun hselected huncancelled hreq (hconverts : Converts _ _ _ _ _ _ _ _ vault) =>
      dispatched_of_converts hselected huncancelled hreq hconverts hrun
    obtain ⟨request, hdispatched, hamount⟩ := hconverted (by simp [Example.plugins]) (input_uncancelled vault) hshares
      (input_converts shares htoken hcontext)
    have hbounds := (amountStaysLegal_of_dispatched hdispatched).1 hlegal
    rw [hamount] at hbounds
    exact h hbounds
  constructor
  · exact illegal Example.worthlessVault 1 (by decide) underlying_ok (by decide +kernel) (by decide +kernel)
  · exact illegal Example.enormousVault (2 ^ 256 - 1) (by decide) underlying_ok (by decide +kernel) (by decide +kernel)

end TokenPriceAgg

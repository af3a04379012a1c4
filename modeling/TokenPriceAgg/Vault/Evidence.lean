import TokenPriceAgg.Vault.Resolver

/-!
# A token is a non-vault only on evidence

`detectVault` answers that a token is not a vault in two ways: from an unexpired entry of the negative cache, or after
both adapters have received a multicall response whose first usable entry refutes the interface.  A call that raises
leaves nothing new in the caches.

While the adapters run nothing but the list of exchanges changes.  `Seen q` is the condition in between: the caches
are those from before, and `q` holds of the new exchanges.
-/

namespace TokenPriceAgg

open PyLib Eff VaultAdapter

/-- The answer to the interface probe excludes a vault: the call failed, had no data, or its data is no address or
the address of the vault itself. -/
def RefutesInterface (codec : Web3Codec) (checksum : String) : Bool × Option Bytes → Prop
  | (true, some data) => ∀ underlying, (decodeAddress codec data).bind (normalizeAddressText codec) = some underlying →
      codec.toChecksumAddress checksum = .ok underlying
  | _ => True

/-- A response to the multicall `calls` was received, and its first usable entry excludes a vault. -/
def RefutedBy (codec : Web3Codec) (chainId : Int) (multicallAddress checksum : String)
    (calls : List (String × Bool × Bytes)) (x : RpcExchange) : Prop :=
  x.call = aggregate3Call chainId multicallAddress calls ∧ ∃ raw entry rest, x.answer = .ok raw ∧
    normalizeMulticallResult raw = .ok (entry :: rest) ∧ RefutesInterface codec checksum entry

/-- Both adapters have their evidence among the exchanges. -/
def DefinitiveEvidence (codec : Web3Codec) (chainId : Int) (address : String) (exchanges : List RpcExchange) : Prop :=
  ∃ multicallAddress checksum, multicall3ByChain chainId = some multicallAddress ∧
    codec.toChecksumAddress address = .ok checksum ∧
    (∃ x ∈ exchanges, RefutedBy codec chainId multicallAddress checksum (Erc4626Adapter.probeCalls checksum) x) ∧
    ∃ x ∈ exchanges, RefutedBy codec chainId multicallAddress checksum (YearnV2Adapter.probeCalls checksum) x

/-- Every entry of `c'` was in `c`. -/
structure VaultCaches.NothingNew (c c' : VaultCaches) : Prop where
  positive : ∀ key entry, c'.positive.get? key = some entry → c.positive.get? key = some entry
  negative : ∀ key expiresAt, c'.negative.get? key = some expiresAt → c.negative.get? key = some expiresAt

/-! ### The caches -/

namespace VaultCaches

variable {c : VaultCaches} {key : CacheKey} {now : ℚ}

theorem NothingNew.refl (c : VaultCaches) : NothingNew c c := ⟨fun _ _ h => h, fun _ _ h => h⟩

private theorem NothingNew.trans {c₁ c₂ c₃ : VaultCaches} (h : NothingNew c₁ c₂) (h' : NothingNew c₂ c₃) :
    NothingNew c₁ c₃ :=
  ⟨fun k e he => h.positive k e (h'.positive k e he), fun k e he => h.negative k e (h'.negative k e he)⟩

theorem pruneExpiredIfDue_nothingNew (now : ℚ) (c : VaultCaches) : NothingNew c (c.pruneExpiredIfDue now) := by
  unfold pruneExpiredIfDue
  split
  · exact .refl c
  · exact ⟨fun k e h => (Dict.get?_filter.1 h).1, fun k e h => (Dict.get?_filter.1 h).1⟩

private theorem cachedNegative_nothingNew (key : CacheKey) (now : ℚ) (c : VaultCaches) :
    NothingNew c (cachedVault.cachedNegative key now c).2 := by
  unfold cachedVault.cachedNegative
  split
  · split
    · exact ⟨fun k e h => h, fun k e h => by rwa [Dict.get?_moveToEnd] at h⟩
    · exact ⟨fun k e h => h, fun k e h => Dict.get?_pop_imp h⟩
  · exact .refl c

/-- Reading the caches only drops entries. -/
theorem cachedVault_nothingNew (key : CacheKey) (now : ℚ) (c : VaultCaches) :
    NothingNew c (c.cachedVault key now).2 := by
  have hprune := pruneExpiredIfDue_nothingNew now c
  unfold cachedVault
  generalize c.pruneExpiredIfDue now = d at hprune
  cases hd : d.positive.get? key with
  | none =>
    simp only [hd]
    exact hprune.trans (cachedNegative_nothingNew key now d)
  | some cached =>
    simp only [hd]
    by_cases hlive : now < cached.expiresAt
    · rw [if_pos hlive]
      exact hprune.trans ⟨fun k e h => by rwa [Dict.get?_moveToEnd] at h, fun k e h => h⟩
    · rw [if_neg hlive]
      have hpop : NothingNew d { d with positive := d.positive.pop key } :=
        ⟨fun k e h => Dict.get?_pop_imp h, fun k e h => h⟩
      exact hprune.trans (hpop.trans (cachedNegative_nothingNew key now _))

/-- A hit without a vault comes from an unexpired entry of the negative cache, which stays. -/
theorem cachedVault_none (h : (c.cachedVault key now).1 = some none) :
    ∃ expiresAt, now < expiresAt ∧ c.negative.get? key = some expiresAt ∧
      (c.cachedVault key now).2.negative.get? key = some expiresAt := by
  have negative {d : VaultCaches} (hd : (cachedVault.cachedNegative key now d).1 = some none) :
      ∃ expiresAt, now < expiresAt ∧ d.negative.get? key = some expiresAt ∧
        (cachedVault.cachedNegative key now d).2.negative.get? key = some expiresAt := by
    unfold cachedVault.cachedNegative at hd ⊢
    cases hn : d.negative.get? key with
    | none => simp [hn] at hd
    | some expiresAt =>
      by_cases hlt : now < expiresAt
      · exact ⟨expiresAt, hlt, rfl, by simp [hlt, hn]⟩
      · simp [hn, hlt] at hd
  have hprune := pruneExpiredIfDue_nothingNew now c
  unfold cachedVault at h ⊢
  generalize c.pruneExpiredIfDue now = d at hprune h ⊢
  cases hd : d.positive.get? key with
  | none =>
    simp only [hd] at h ⊢
    obtain ⟨expiresAt, hlt, hn, hn'⟩ := negative h
    exact ⟨expiresAt, hlt, hprune.negative _ _ hn, hn'⟩
  | some cached =>
    simp only [hd] at h ⊢
    by_cases hlive : now < cached.expiresAt
    · simp [hlive] at h
    · rw [if_neg hlive] at h ⊢
      obtain ⟨expiresAt, hlt, hn, hn'⟩ := negative h
      exact ⟨expiresAt, hlt, hprune.negative _ _ hn, hn'⟩

end VaultCaches

/-! ### The adapters -/

namespace VaultResolver

section Adapters

variable {codec : Web3Codec} {env : VaultSchedule} {caches : VaultCaches} {before : List RpcExchange}
  {q q' : List RpcExchange → Prop}

/-- The caches are as they were, and `q` holds of the exchanges since. -/
def Seen (caches : VaultCaches) (before : List RpcExchange) (q : List RpcExchange → Prop) (w : VaultWorld) : Prop :=
  w.caches = caches ∧ ∃ new, w.exchanges = before ++ new ∧ q new

/-- More exchanges do not invalidate `q`. -/
def Persistent (q : List RpcExchange → Prop) : Prop := ∀ new x, q new → q (new ++ [x])

/-- What holds when a step of an adapter raises: it is not for want of a Multicall3 contract. -/
def Fails (caches : VaultCaches) (before : List RpcExchange) (q : List RpcExchange → Prop) (e : DetectExn)
    (w : VaultWorld) : Prop :=
  e ≠ .multicallUnavailable ∧ Seen caches before q w

private theorem Seen.imp {w : VaultWorld} (h : Seen caches before q w) (hq : ∀ new, q new → q' new) :
    Seen caches before q' w := by
  obtain ⟨hc, new, hnew, hqn⟩ := h
  exact ⟨hc, new, hnew, hq new hqn⟩

private theorem persistent_mem (p : RpcExchange → Prop) : Persistent fun new => ∃ x ∈ new, p x := by
  rintro new x ⟨y, hy, hp⟩
  exact ⟨y, List.mem_append_left _ hy, hp⟩

private theorem rpc_triple (hq : Persistent q) (c : RpcCall) :
    Triple (Seen caches before q) (rpc (call env) c)
      (fun obj => Seen caches before fun new => q new ∧ ⟨c, .ok obj⟩ ∈ new) (Fails caches before q) := by
  intro w hw
  obtain ⟨hc, new, hnew, hqn⟩ := hw
  unfold rpc Eff.mapError Eff.tryExcept call
  cases ha : env.answer w.exchanges c with
  | ok obj =>
    refine ⟨hc, new ++ [⟨c, .ok obj⟩], ?_, hq new _ hqn, by simp⟩
    simp [hnew]
  | error e =>
    refine ⟨by simp, hc, new ++ [⟨c, .error e⟩], ?_, hq new _ hqn⟩
    simp [hnew]

/-- A call whose answer is of no further interest. -/
private theorem rpc_triple' (hq : Persistent q) (c : RpcCall) :
    Triple (Seen caches before q) (rpc (call env) c) (fun _ => Seen caches before q) (Fails caches before q) :=
  Triple.weaken (rpc_triple hq c) (fun _ h => h) (fun _ _ h => h.imp fun _ hn => hn.1) fun _ _ h => h

private theorem liftExn_triple {α : Type} (x : Except Exn α) :
    Triple (Seen caches before q) (liftExn x) (fun a w => x = .ok a ∧ Seen caches before q w)
      (Fails caches before q) := by
  intro w hw
  cases x with
  | ok a => exact ⟨rfl, hw⟩
  | error e => exact ⟨by simp, hw⟩

private theorem invalid_triple {α : Type} (message : String) {Q : α → VaultWorld → Prop} :
    Triple (Seen caches before q) (Eff.raise (invalidVaultData message)) Q (Fails caches before q) :=
  Triple.raise fun _ hw => ⟨by simp [invalidVaultData], hw⟩

private theorem aggregate3_triple (hq : Persistent q) (chainId : Int) (multicallAddress : String)
    (calls : List (String × Bool × Bytes)) :
    Triple (Seen caches before q) (aggregate3 (call env) chainId multicallAddress calls)
      (fun entries => Seen caches before fun new => q new ∧ ∃ raw, normalizeMulticallResult raw = .ok entries ∧
        ⟨aggregate3Call chainId multicallAddress calls, .ok raw⟩ ∈ new) (Fails caches before q) := by
  unfold aggregate3
  refine Triple.bind (rpc_triple hq _) fun raw => ?_
  refine Triple.weaken (liftExn_triple _) (fun w hw => hw) (fun entries w hw => ?_) fun e w hw =>
    ⟨hw.1, hw.2.imp fun _ h => h.1⟩
  exact hw.2.imp fun new h => ⟨h.1, raw, hw.1, h.2⟩

/-- A computation that finds a vault or raises. -/
def Finds {I : Type} (caches : VaultCaches) (before : List RpcExchange) (q : List RpcExchange → Prop)
    (m : Detect VaultWorld (Option I)) : Prop :=
  Triple (Seen caches before q) m (fun found w => found ≠ none ∧ Seen caches before q w) (Fails caches before q)

theorem Finds.found {I : Type} (info : I) : Finds caches before q (pure (some info)) :=
  Triple.pure fun _ hw => ⟨by simp, hw⟩

private theorem Finds.invalid {I : Type} (message : String) :
    Finds caches before q (Eff.raise (invalidVaultData message) : Detect VaultWorld (Option I)) :=
  invalid_triple message

private theorem Finds.rpc {I : Type} (hq : Persistent q) (c : RpcCall) {f : PyObj → Detect VaultWorld (Option I)}
    (hf : ∀ obj, Finds caches before q (f obj)) : Finds caches before q (VaultAdapter.rpc (call env) c >>= f) :=
  Triple.bind (rpc_triple' hq c) hf

private theorem Finds.liftExn {I α : Type} (x : Except Exn α) {f : α → Detect VaultWorld (Option I)}
    (hf : ∀ a, Finds caches before q (f a)) : Finds caches before q (VaultAdapter.liftExn x >>= f) :=
  Triple.bind (Triple.weaken (liftExn_triple x) (fun _ h => h) (fun _ _ h => h.2) fun _ _ h => h) hf

theorem Finds.aggregate3 {I : Type} (hq : Persistent q) (chainId : Int) (multicallAddress : String)
    (calls : List (String × Bool × Bytes)) {f : List (Bool × Option Bytes) → Detect VaultWorld (Option I)}
    (hf : ∀ entries, Finds caches before q (f entries)) :
    Finds caches before q (VaultAdapter.aggregate3 (call env) chainId multicallAddress calls >>= f) :=
  Triple.bind (Triple.weaken (aggregate3_triple hq chainId multicallAddress calls) (fun _ h => h)
    (fun _ _ h => h.imp fun _ hn => hn.1) fun _ _ h => h) hf

private theorem vaultData_finds {I : Type} {message : String} {m : Detect VaultWorld (Option I)}
    (hm : Finds caches before q m) : Finds caches before q (vaultData message m) := by
  refine Triple.tryExcept hm fun exc => ?_
  split
  · exact Triple.raise fun w hw => hw
  · exact Triple.raise fun w hw => hw
  · exact Triple.raise fun w hw => ⟨by simp [invalidVaultData], hw.2⟩

private theorem interfaceCall_triple (hq : Persistent q) (c : RpcCall) :
    Triple (Seen caches before q) (interfaceCall (call env) c) (fun _ => Seen caches before q)
      (Fails caches before q) := by
  refine Triple.tryExcept (rpc_triple' hq c) fun exc => ?_
  split
  · exact Triple.raise fun w hw => hw
  · exact Triple.raise fun w hw => ⟨by simp, hw.2⟩

/-- When the interface probe finds no underlying token, the response refutes the interface. -/
private theorem decodeInterfaceAddress_triple {chainId : Int} {multicallAddress checksum : String}
    {calls : List (String × Bool × Bytes)} (emptyMessage : String) (decoded : List (Bool × Option Bytes)) :
    Triple (Seen caches before fun new => q new ∧ ∃ raw, normalizeMulticallResult raw = .ok decoded ∧
        ⟨aggregate3Call chainId multicallAddress calls, .ok raw⟩ ∈ new)
      (decodeInterfaceAddress codec emptyMessage decoded checksum)
      (fun underlying => Seen caches before fun new => q new ∧ (underlying = none →
        ∃ x ∈ new, RefutedBy codec chainId multicallAddress checksum calls x))
      (Fails caches before q) := by
  have refuted {entry rest} (hd : decoded = entry :: rest) (hr : RefutesInterface codec checksum entry)
      {w : VaultWorld} (hw : Seen caches before (fun new => q new ∧ ∃ raw, normalizeMulticallResult raw = .ok decoded ∧
        ⟨aggregate3Call chainId multicallAddress calls, .ok raw⟩ ∈ new) w) :
      Seen caches before (fun new => q new ∧
        ∃ x ∈ new, RefutedBy codec chainId multicallAddress checksum calls x) w := by
    refine hw.imp fun new hn => ⟨hn.1, ?_⟩
    obtain ⟨-, raw, hraw, hmem⟩ := hn
    exact ⟨_, hmem, rfl, raw, entry, rest, rfl, hd ▸ hraw, hr⟩
  intro w hw
  unfold decodeInterfaceAddress
  split
  · exact ⟨by simp [invalidVaultData], hw.imp fun _ hn => hn.1⟩
  · rename_i data rest
    rcases hx : unlessVault codec ((decodeAddress codec data).bind (normalizeAddressText codec)) checksum with e | r
    · exact ⟨by simp, hw.imp fun _ hn => hn.1⟩
    · show Seen _ _ _ w
      cases r with
      | some underlying => exact hw.imp fun new hn => ⟨hn.1, fun h => by cases h⟩
      | none =>
        have hr : RefutesInterface codec checksum (true, some data) := by
          intro underlying hu
          rw [hu] at hx
          unfold unlessVault at hx
          cases hv : codec.toChecksumAddress checksum with
          | error e => rw [hv] at hx; cases hx
          | ok vault =>
            rw [hv] at hx
            have hsome : (if underlying = vault then none else some underlying) = (none : Option String) :=
              Except.ok.inj hx
            split at hsome
            · rename_i heq
              rw [heq]
            · cases hsome
        exact (refuted rfl hr hw).imp fun new hn => ⟨hn.1, fun _ => hn.2⟩
  · rename_i entry rest hnot
    have hr : RefutesInterface codec checksum entry := by
      obtain ⟨success, data⟩ := entry
      cases success with
      | false => trivial
      | true =>
        cases data with
        | none => trivial
        | some data => exact absurd rfl (hnot data)
    exact (refuted rfl hr hw).imp fun new hn => ⟨hn.1, fun _ => hn.2⟩

private theorem erc4626_calls_find (hq : Persistent q) (vaultAddress : String) (chainId : Int) :
    Finds caches before q (Erc4626Adapter.detectWithCalls codec (call env) vaultAddress chainId) := by
  unfold Erc4626Adapter.detectWithCalls
  refine Triple.bind (interfaceCall_triple hq _) fun underlyingRaw => ?_
  refine Finds.liftExn _ fun underlying => ?_
  cases underlying with
  | none => exact Triple.raise fun w hw => ⟨by simp, hw⟩
  | some underlying =>
    refine vaultData_finds (Finds.rpc hq _ fun shareDecimalsRaw => ?_)
    cases validateTokenDecimals shareDecimalsRaw with
    | none => exact Finds.invalid _
    | some shareDecimals =>
      refine Finds.rpc hq _ fun underlyingDecimalsRaw => ?_
      -- `convertToAssets`, and after its failure `previewRedeem`
      have hread {c : RpcCall} : Triple (Seen caches before q) (rpc (call env) c) (fun _ => Seen caches before q)
        (Fails caches before q) := rpc_triple' hq c
      refine Triple.bind (Triple.tryExcept hread fun exc => ?_) fun assetsPerShare => ?_
      · split
        · exact Triple.raise fun w hw => hw
        · exact Triple.weaken hread (fun w hw => hw.2) (fun _ _ h => h) fun _ _ h => h
      refine Finds.liftExn _ fun assets => ?_
      cases validateTokenDecimals underlyingDecimalsRaw with
      | none => exact Finds.invalid _
      | some underlyingDecimals =>
        dsimp only
        split
        · exact Finds.found _
        · exact Finds.invalid _

private theorem yearnV2_calls_find (hq : Persistent q) (vaultAddress : String) (chainId : Int) :
    Finds caches before q (YearnV2Adapter.detectWithCalls codec (call env) vaultAddress chainId) := by
  unfold YearnV2Adapter.detectWithCalls
  refine Triple.bind (interfaceCall_triple hq _) fun underlyingRaw => ?_
  refine Finds.liftExn _ fun underlying => ?_
  cases underlying with
  | none => exact Triple.raise fun w hw => ⟨by simp, hw⟩
  | some underlying =>
    refine vaultData_finds (Finds.rpc hq _ fun shareDecimalsRaw => ?_)
    refine Finds.rpc hq _ fun underlyingDecimalsRaw => ?_
    refine Finds.rpc hq _ fun ppsRaw => ?_
    refine Finds.liftExn _ fun pricePerShare => ?_
    split
    · split
      · exact Finds.found _
      · exact Finds.invalid _
    · exact Finds.invalid _

/-- The multicall path of an adapter: no vault means that the probe refutes the interface. -/
def Probes {I : Type} (codec : Web3Codec) (caches : VaultCaches) (before : List RpcExchange)
    (q : List RpcExchange → Prop) (chainId : Int) (multicallAddress checksum : String)
    (calls : List (String × Bool × Bytes)) (found : Option I) : VaultWorld → Prop :=
  Seen caches before fun new => q new ∧ (found = none →
    ∃ x ∈ new, RefutedBy codec chainId multicallAddress checksum calls x)

theorem Finds.probes {I : Type} {chainId : Int} {multicallAddress checksum : String}
    {calls : List (String × Bool × Bytes)} {m : Detect VaultWorld (Option I)} (hm : Finds caches before q m) :
    Triple (Seen caches before q) m (Probes codec caches before q chainId multicallAddress checksum calls)
      (Fails caches before q) :=
  Triple.weaken hm (fun _ h => h) (fun _ _ h => h.2.imp fun _ hn => ⟨hn, fun hnone => absurd hnone h.1⟩) fun _ _ h => h

private theorem erc4626_multicall_triple (hq : Persistent q) {vaultAddress : String} {chainId : Int}
    {multicallAddress : String} (hchain : multicall3ByChain chainId = some multicallAddress) :
    Triple (Seen caches before q) (Erc4626Adapter.detectWithMulticall codec (call env) vaultAddress chainId)
      (fun found w => ∃ checksum, codec.toChecksumAddress vaultAddress = .ok checksum ∧
        Probes codec caches before q chainId multicallAddress checksum (Erc4626Adapter.probeCalls checksum) found w)
      (Fails caches before q) := by
  unfold Erc4626Adapter.detectWithMulticall
  rw [hchain]
  refine Triple.bind (liftExn_triple _) fun checksum => Triple.assume fun hsum => ?_
  refine Triple.weaken (Q := Probes codec caches before q chainId multicallAddress checksum
    (Erc4626Adapter.probeCalls checksum)) ?_ (fun _ h => h) (fun _ _ h => ⟨checksum, hsum, h⟩) fun _ _ h => h
  refine Triple.bind (aggregate3_triple hq _ _ _) fun decoded => ?_
  refine Triple.bind (decodeInterfaceAddress_triple _ _) fun underlying => ?_
  cases underlying with
  | none => exact Triple.pure fun w hw => hw.imp fun new hn => ⟨hn.1, fun _ => hn.2 rfl⟩
  | some underlying =>
    have hrest : ∀ w, Seen caches before (fun new => q new ∧ (some underlying = none →
        ∃ x ∈ new, RefutedBy codec chainId multicallAddress checksum (Erc4626Adapter.probeCalls checksum) x)) w →
        Seen caches before q w := fun w hw => hw.imp fun _ hn => hn.1
    refine Triple.weaken (Finds.probes ?_) hrest (fun _ _ h => h) fun _ _ h => h
    dsimp only
    split
    · split
      · exact Finds.invalid _
      · refine Finds.aggregate3 hq _ _ _ fun conversion => ?_
        split
        · exact Finds.invalid _
        · split
          · split
            · exact Finds.invalid _
            · split
              · exact Finds.invalid _
              · exact Finds.found _
          · exact Finds.invalid _
    · exact Finds.invalid _
    · exact Finds.invalid _

private theorem yearnV2_multicall_triple (hq : Persistent q) {vaultAddress : String} {chainId : Int}
    {multicallAddress : String} (hchain : multicall3ByChain chainId = some multicallAddress) :
    Triple (Seen caches before q) (YearnV2Adapter.detectWithMulticall codec (call env) vaultAddress chainId)
      (fun found w => ∃ checksum, codec.toChecksumAddress vaultAddress = .ok checksum ∧
        Probes codec caches before q chainId multicallAddress checksum (YearnV2Adapter.probeCalls checksum) found w)
      (Fails caches before q) := by
  unfold YearnV2Adapter.detectWithMulticall
  rw [hchain]
  refine Triple.bind (liftExn_triple _) fun checksum => Triple.assume fun hsum => ?_
  refine Triple.weaken (Q := Probes codec caches before q chainId multicallAddress checksum
    (YearnV2Adapter.probeCalls checksum)) ?_ (fun _ h => h) (fun _ _ h => ⟨checksum, hsum, h⟩) fun _ _ h => h
  refine Triple.bind (aggregate3_triple hq _ _ _) fun decoded => ?_
  refine Triple.bind (decodeInterfaceAddress_triple _ _) fun underlying => ?_
  cases underlying with
  | none => exact Triple.pure fun w hw => hw.imp fun new hn => ⟨hn.1, fun _ => hn.2 rfl⟩
  | some underlying =>
    have hrest : ∀ w, Seen caches before (fun new => q new ∧ (some underlying = none →
        ∃ x ∈ new, RefutedBy codec chainId multicallAddress checksum (YearnV2Adapter.probeCalls checksum) x)) w →
        Seen caches before q w := fun w hw => hw.imp fun _ hn => hn.1
    refine Triple.weaken (Finds.probes ?_) hrest (fun _ _ h => h) fun _ _ h => h
    dsimp only
    split
    · split
      · split
        · refine Finds.aggregate3 hq _ _ _ fun result => ?_
          split
          · exact Finds.invalid _
          · split
            · exact Finds.invalid _
            · exact Finds.found _
          · exact Finds.invalid _
        · exact Finds.invalid _
      · exact Finds.invalid _
    · exact Finds.invalid _
    · exact Finds.invalid _

/-- The direct calls run only after the multicall path has raised, and they find a vault or raise. -/
private theorem detectVia_triple {I : Type} {withMulticall withCalls : Detect VaultWorld (Option I)}
    {Q : Option I → VaultWorld → Prop}
    (hmulticall : Triple (Seen caches before q) withMulticall Q (Fails caches before q))
    (hcalls : Finds caches before q withCalls) (hQ : ∀ info w, Seen caches before q w → Q (some info) w) :
    Triple (Seen caches before q) (detectVia withMulticall withCalls) Q (fun _ => Seen caches before q) := by
  refine Triple.tryExcept hmulticall fun exc => Triple.assume fun hne => ?_
  split
  · exact Triple.raise fun w hw => hw
  · exact Triple.raise fun w hw => hw
  · exact absurd rfl hne
  · refine Triple.tryExcept (Triple.weaken hcalls (fun _ h => h) (fun found w h => ?_) fun _ _ h => h) fun exc => ?_
    · cases found with
      | none => exact absurd rfl h.1
      | some info => exact hQ info w h.2
    · split
      · exact Triple.raise fun w hw => hw.2
      · exact Triple.raise fun w hw => hw.2

/-! ### `_detect_vault` -/

/-- What a call started in `w` may end in: a non-vault known from the negative cache or established by both adapters,
a vault that leaves no entry in the negative cache, or an exception that leaves nothing new in either cache. -/
def Detected (codec : Web3Codec) (env : VaultSchedule) (chainId : Int) (address : String) (w : VaultWorld) :
    Except Raised (Option VaultInfo) → VaultWorld → Prop
  | .ok none, w' =>
    (w'.exchanges = w.exchanges ∧ ∃ n expiresAt, env.clock n < expiresAt ∧
        w.caches.negative.get? (chainId, address.toLower) = some expiresAt ∧
        w'.caches.negative.get? (chainId, address.toLower) = some expiresAt) ∨
      ∃ new, w'.exchanges = w.exchanges ++ new ∧ DefinitiveEvidence codec chainId address new
  | .ok (some _), w' => ∀ key expiresAt, w'.caches.negative.get? key = some expiresAt →
      w.caches.negative.get? key = some expiresAt
  | .error _, w' => w.caches.NothingNew w'.caches

/-- Nothing has happened since `w` but that entries were dropped from the caches. -/
def Quiet (w w' : VaultWorld) : Prop := w.caches.NothingNew w'.caches ∧ w'.exchanges = w.exchanges

private theorem readCache_triple {w : VaultWorld} {key : CacheKey} {E : Raised → VaultWorld → Prop} :
    Triple (Quiet w) (readCache env key)
      (fun answer w' => (answer = some none → ∃ n expiresAt, env.clock n < expiresAt ∧
        w.caches.negative.get? key = some expiresAt ∧ w'.caches.negative.get? key = some expiresAt) ∧
        Quiet w w') E := by
  intro w₁ hw
  obtain ⟨hnew, hexchanges⟩ := hw
  show Outcome _ E (.ok (w₁.caches.cachedVault key (env.clock w₁.reads)).1, _)
  refine ⟨fun hhit => ?_, hnew.trans (VaultCaches.cachedVault_nothingNew _ _ _), hexchanges⟩
  obtain ⟨expiresAt, hlt, hbefore, hafter⟩ := VaultCaches.cachedVault_none hhit
  exact ⟨w₁.reads, expiresAt, hlt, hnew.negative _ _ hbefore, hafter⟩

private theorem erc4626_detect_triple (hq : Persistent q) {address : String} {chainId : Int} {multicallAddress : String}
    (hchain : multicall3ByChain chainId = some multicallAddress) :
    Triple (Seen caches before q) (Erc4626Adapter.detect codec (call env) address chainId)
      (fun found => Seen caches before fun new => q new ∧ (found = none → ∃ checksum,
        codec.toChecksumAddress address = .ok checksum ∧
        ∃ x ∈ new, RefutedBy codec chainId multicallAddress checksum (Erc4626Adapter.probeCalls checksum) x))
      (fun _ => Seen caches before q) := by
  refine detectVia_triple ?_ (erc4626_calls_find hq address chainId) fun info w hw => hw.imp fun new hn =>
    ⟨hn, fun h => by cases h⟩
  refine Triple.weaken (erc4626_multicall_triple hq hchain) (fun _ h => h) (fun found w hw => ?_) fun _ _ h => h
  obtain ⟨checksum, hsum, hprobes⟩ := hw
  exact hprobes.imp fun new hn => ⟨hn.1, fun hnone => ⟨checksum, hsum, hn.2 hnone⟩⟩

private theorem yearnV2_detect_triple (hq : Persistent q) {address : String} {chainId : Int} {multicallAddress : String}
    (hchain : multicall3ByChain chainId = some multicallAddress) :
    Triple (Seen caches before q) (YearnV2Adapter.detect codec (call env) address chainId)
      (fun found => Seen caches before fun new => q new ∧ (found = none → ∃ checksum,
        codec.toChecksumAddress address = .ok checksum ∧
        ∃ x ∈ new, RefutedBy codec chainId multicallAddress checksum (YearnV2Adapter.probeCalls checksum) x))
      (fun _ => Seen caches before q) := by
  refine detectVia_triple ?_ (yearnV2_calls_find hq address chainId) fun info w hw => hw.imp fun new hn =>
    ⟨hn, fun h => by cases h⟩
  refine Triple.weaken (yearnV2_multicall_triple hq hchain) (fun _ h => h) (fun found w hw => ?_) fun _ _ h => h
  obtain ⟨checksum, hsum, hprobes⟩ := hw
  exact hprobes.imp fun new hn => ⟨hn.1, fun hnone => ⟨checksum, hsum, hn.2 hnone⟩⟩

/-- A vault that was found is stored in the positive cache; the negative cache gets no entry. -/
private theorem foundVault_triple {settings : Settings} {w : VaultWorld} {key : CacheKey} {vault : VaultInfo}
    {E : Raised → VaultWorld → Prop} :
    Triple (fun w' => w.caches.NothingNew w'.caches) (foundVault settings env key vault)
      (fun found w' => found = some vault ∧ ∀ key expiresAt, w'.caches.negative.get? key = some expiresAt →
        w.caches.negative.get? key = some expiresAt) E := by
  refine Triple.bind (Triple.step fun w' hw => hw : Triple (fun w' => w.caches.NothingNew w'.caches) (monotonic env)
    (fun _ w' => w.caches.NothingNew w'.caches) E) fun now => ?_
  have hstore : Triple (fun w' => w.caches.NothingNew w'.caches)
      (onCaches (VaultCaches.storePositive settings key ⟨vault, now + settings.vaultPositiveCacheTtlS⟩))
      (fun _ w' => ∀ key expiresAt, w'.caches.negative.get? key = some expiresAt →
        w.caches.negative.get? key = some expiresAt) E :=
    Triple.modify fun w' hw => hw.negative
  refine Triple.bind hstore fun _ => ?_
  have hpop : Triple (fun w' : VaultWorld => ∀ key expiresAt, w'.caches.negative.get? key = some expiresAt →
      w.caches.negative.get? key = some expiresAt) (onCaches fun c => { c with negative := c.negative.pop key })
      (fun _ w' => ∀ key expiresAt, w'.caches.negative.get? key = some expiresAt →
        w.caches.negative.get? key = some expiresAt) E :=
    Triple.modify fun w' hw k t ht => hw k t (Dict.get?_pop_imp ht)
  exact Triple.bind hpop fun _ => Triple.pure fun w' hw => ⟨rfl, hw⟩

end Adapters

variable {settings : Settings} {codec : Web3Codec} {env : VaultSchedule}

/-- On a chain with a Multicall3 contract, whatever the RPC endpoint answers. -/
private theorem detectVault_triple {address : String} {chainId : Int} {multicallAddress : String}
    (hchain : multicall3ByChain chainId = some multicallAddress) (w : VaultWorld) :
    Triple (Quiet w) (detectVault settings codec env address chainId)
      (fun found => Detected codec env chainId address w (.ok found))
      (fun e => Detected codec env chainId address w (.error e)) := by
  have hhit : ∀ cached, Triple (fun w' => (some cached = some none → ∃ n expiresAt, env.clock n < expiresAt ∧
        w.caches.negative.get? (chainId, address.toLower) = some expiresAt ∧
        w'.caches.negative.get? (chainId, address.toLower) = some expiresAt) ∧ Quiet w w')
      (pure cached) (fun found => Detected codec env chainId address w (.ok found))
      (fun e => Detected codec env chainId address w (.error e)) := by
    intro cached
    refine Triple.pure fun w' hw => ?_
    obtain ⟨hnegative, hnew, hexchanges⟩ := hw
    cases cached with
    | none => exact .inl ⟨hexchanges, hnegative rfl⟩
    | some vault => exact hnew.negative
  unfold detectVault
  refine Triple.bind readCache_triple fun answer => ?_
  cases answer with
  | some cached => exact hhit cached
  | none =>
    refine Triple.ite (fun _ => Triple.raise fun w' hw => hw.2.1) fun _ => ?_
    refine Triple.bind (Triple.weaken readCache_triple (fun w' hw => hw.2) (fun _ _ h => h) fun _ _ h => h)
      fun answer => ?_
    cases answer with
    | some cached => exact hhit cached
    | none =>
      intro w₁ hw₁
      obtain ⟨-, hnew, hexchanges⟩ := hw₁
      have hseen : Seen w₁.caches w.exchanges (fun _ => True) w₁ := ⟨rfl, [], by simp [hexchanges], trivial⟩
      have hraised : ∀ q e w', Seen w₁.caches w.exchanges q w' →
          Detected codec env chainId address w (.error e) w' := by
        intro q e w' hw'
        show w.caches.NothingNew w'.caches
        rw [hw'.1]
        exact hnew
      -- the evidence of the first adapter, which persists while the second one runs
      let Refuted (new : List RpcExchange) : Prop := ∃ checksum, codec.toChecksumAddress address = .ok checksum ∧
        ∃ x ∈ new, RefutedBy codec chainId multicallAddress checksum (Erc4626Adapter.probeCalls checksum) x
      have hpersistent : Persistent Refuted := by
        rintro new x ⟨checksum, hsum, hx⟩
        exact ⟨checksum, hsum, persistent_mem _ new x hx⟩
      refine (?_ : Triple (Seen w₁.caches w.exchanges fun _ => True) _ _ _) w₁ hseen
      refine Triple.bind (Triple.weaken (erc4626_detect_triple (fun _ _ _ => trivial) hchain) (fun _ h => h)
        (fun _ _ h => h) fun e w' hw' => hraised _ e w' hw') fun erc4626 => ?_
      cases erc4626 with
      | some erc4626 =>
        refine Triple.weaken (foundVault_triple (w := w)) (fun w' hw' => ?_) (fun found w' hw' => ?_) fun _ _ h => h
        · rw [hw'.1]
          exact hnew
        · rw [hw'.1]
          exact hw'.2
      | none =>
        refine Triple.weaken (P := Seen w₁.caches w.exchanges Refuted) ?_
          (fun w' hw' => hw'.imp fun new hn => hn.2 rfl) (fun _ _ h => h) fun _ _ h => h
        refine Triple.bind (Triple.weaken (yearnV2_detect_triple hpersistent hchain) (fun _ h => h)
          (fun _ _ h => h) fun e w' hw' => hraised _ e w' hw') fun yearn => ?_
        cases yearn with
        | some yearn =>
          refine Triple.weaken (foundVault_triple (w := w)) (fun w' hw' => ?_) (fun found w' hw' => ?_) fun _ _ h => h
          · rw [hw'.1]
            exact hnew
          · rw [hw'.1]
            exact hw'.2
        | none =>
          intro w₂ hw₂
          obtain ⟨-, new, hexchanges', ⟨checksum, hsum, hfirst⟩, hsecond⟩ := hw₂
          obtain ⟨checksum', hsum', hsecond⟩ := hsecond rfl
          cases hsum.symm.trans hsum'
          exact .inr ⟨new, hexchanges', multicallAddress, checksum, hchain, hsum, hfirst, hsecond⟩

end VaultResolver

/-- On an enabled chain and for every behaviour of the RPC endpoint: `_detect_vault` answers that the token is not a
vault only from the negative cache or after both adapters received a response that refutes their interface, and
a call that raises leaves nothing new in the caches. -/
theorem non_vaults_have_evidence (settings : Settings) (codec : Web3Codec) (env : VaultSchedule) (chainId : Int)
    (hchain : chainId ∈ chainIds) (address : String) (w : VaultWorld) :
    VaultResolver.Detected codec env chainId address w
      (VaultResolver.detectVault settings codec env address chainId w).1
      (VaultResolver.detectVault settings codec env address chainId w).2 := by
  have hmulticall : multicall3ByChain chainId = some "0xcA11bde05977b3631167028862bE2a173976CA11" := if_pos hchain
  have h : Outcome _ _ (VaultResolver.detectVault settings codec env address chainId w) :=
    VaultResolver.detectVault_triple hmulticall w w ⟨.refl _, rfl⟩
  rcases hr : VaultResolver.detectVault settings codec env address chainId w with ⟨e | found, w'⟩ <;> rw [hr] at h <;>
    exact h

private def plainCodec : Web3Codec where
  isAddress _ := true
  toChecksumAddress address := .ok address
  decodeAddress _ := none
  decodeUint256 _ := none

/-- An endpoint on which every call of a multicall fails. -/
private def refutingRpc : VaultSchedule where
  clock n := n
  answer _ _ := .ok (.seq [.seq [.bool false, .bytes []]])
  semaphoreCancelled := false

theorem non_vaults_have_evidence_refuted :
    VaultResolver.Detected plainCodec refutingRpc 1 "0x1" ⟨.empty, 0, []⟩
      (VaultResolver.detectVault .default plainCodec refutingRpc "0x1" 1 ⟨.empty, 0, []⟩).1
      (VaultResolver.detectVault .default plainCodec refutingRpc "0x1" 1 ⟨.empty, 0, []⟩).2 :=
  non_vaults_have_evidence .default plainCodec refutingRpc 1 (by decide) "0x1" ⟨.empty, 0, []⟩

end TokenPriceAgg

import TokenPriceAgg.Core.AddressForms
import TokenPriceAgg.Core.AmountInput
import TokenPriceAgg.Core.Selection

/-!
# Requests for prices and quotes

The query parameters of `/v1/price` and `/v1/quote`, the validators of `PriceRequest` and `QuoteRequest`, and the
normalization of the tokens, which puts a canonical token in the place of two migrated ones.

The named providers become a list without duplicates (`normalizeProviders_spec`).  A token of at least 42 characters
is normalized once and for all (`normalized_of_long`): the forty zeros without a prefix, whose normal form is not
normal, are too short.

The lower case of a provider's name is a parameter.
-/

namespace TokenPriceAgg

open PyLib

/-! ### The named providers -/

def stripped (s : String) : String := String.ofList (strip s.toList)

/-- `item.split(",")`. -/
def splitCommas (s : String) : List String := (s.toList.splitOn ',').map String.ofList

def parseProviderQueryValues (values : Option (List String)) : Option (List String) :=
  let flattened := (values.getD []).flatMap fun item =>
    ((splitCommas item).map stripped).filter fun provider => provider ≠ ""
  if flattened = [] then none else some flattened

/-- `BaseAggregatorRequest._normalize_providers`; the set `seen` has what `normalized` has. -/
def normalizeProviders (lower : String → String) (providers : List String) : List String :=
  providers.foldl (fun normalized provider =>
    let providerId := lower (stripped provider)
    if providerId = "" ∨ providerId ∈ normalized then normalized else normalized ++ [providerId]) []

/-- The providers that a request names. -/
def requestedProviders (lower : String → String) (providers : Option (List String)) : Option (List String) :=
  (parseProviderQueryValues providers).map (normalizeProviders lower)

section Providers

variable {lower : String → String} {providers : List String}

/-- The first occurrences of the names, in lower case and without blanks around them. -/
private theorem normalizeProviders_eq :
    normalizeProviders lower providers =
      ((providers.map fun provider => lower (stripped provider)).filter
        fun providerId => providerId ≠ "").eraseDups := by
  have hfold (ordered : List String) :
      providers.foldl (fun normalized provider =>
        let providerId := lower (stripped provider)
        if providerId = "" ∨ providerId ∈ normalized then normalized else normalized ++ [providerId]) ordered =
      ((providers.map fun provider => lower (stripped provider)).filter fun providerId => providerId ≠ "").foldl
        appendUnseen ordered := by
    induction providers generalizing ordered with
    | nil => rfl
    | cons provider providers ih =>
      rw [List.foldl_cons, ih, List.map_cons]
      by_cases hempty : lower (stripped provider) = ""
      · rw [List.filter_cons_of_neg (by simpa using hempty)]
        simp [hempty]
      · rw [List.filter_cons_of_pos (by simpa using hempty), List.foldl_cons]
        simp [hempty, appendUnseen]
  unfold normalizeProviders
  rw [hfold, foldl_appendUnseen, List.nil_append]
  congr 1
  exact List.filter_eq_self.2 (by simp)

private theorem normalizeProviders_nodup : (normalizeProviders lower providers).Nodup := by
  rw [normalizeProviders_eq]
  exact nodup_eraseDups _

theorem requestedProviders_nodup {values : Option (List String)} {ids : List String}
    (h : requestedProviders lower values = some ids) : ids.Nodup := by
  obtain ⟨providers, -, rfl⟩ := Option.map_eq_some_iff.1 h
  exact normalizeProviders_nodup

end Providers

/-! ### The requests -/

structure PriceRequest where
  chainId : Int
  token : String
  providers : Option (List String)
  useUnderlying : Bool

structure QuoteRequest where
  chainId : Int
  tokenIn : String
  tokenOut : String
  amountIn : String
  providers : Option (List String)
  useUnderlying : Bool

/-- `Field(min_length=42)`. -/
def LongEnough (token : String) : Prop := 42 ≤ token.length

instance (token : String) : Decidable (LongEnough token) := inferInstanceAs (Decidable (_ ≤ _))

/-- `PriceRequest(...)` in the route. -/
def PriceRequest.new (lower : String → String) (chainId : Int) (token : String) (providers : Option (List String))
    (useUnderlying : Bool) : Except Exn PriceRequest :=
  if 0 < chainId ∧ LongEnough token then
    .ok { chainId, token, useUnderlying
          providers := requestedProviders lower providers }
  else .error .validationError

/-- `QuoteRequest(...)` in the route. -/
def QuoteRequest.new (lower : String → String) (chainId : Int) (tokenIn tokenOut amountIn : String)
    (providers : Option (List String)) (useUnderlying : Bool) : Except Exn QuoteRequest :=
  if 0 < chainId ∧ LongEnough tokenIn ∧ LongEnough tokenOut then
    .ok { chainId, tokenIn, tokenOut, amountIn, useUnderlying
          providers := requestedProviders lower providers }
  else .error .validationError

/-! ### Migrated tokens -/

/-- `_REMAP_TABLE`. -/
def remapTable : List ((Int × String) × String) :=
  [((1, "0xa3cc91589feedbbee0cfdc7404041e19cb00f110"), "0x4e3FBD56CD56c3e72c1403e103b45Db9da5B9D2B"),
    ((1, "0x857ecd3faeac083303858167662c734f085c8c95"), "0x6B175474E89094C44Da98b954EedeAC495271d0F")]

def resolveRemap (chainId : Int) (address : String) : Option String := remapTable.lookup (chainId, address.toLower)

/-- A token to ask about, and the token of the request when that is another one. -/
structure RemappedToken where
  token : TokenRef
  original : Option TokenRef

/-- `original_token if original_token is not None else normalized.token`. -/
def RemappedToken.named (remapped : RemappedToken) : TokenRef := remapped.original.getD remapped.token

section Normalize

variable (eth : EthUtils)

/-- `_apply_remap`. -/
def applyRemap (chainId : Int) (ref : TokenRef) : Except Exn RemappedToken :=
  match resolveRemap chainId ref.address with
  | none => .ok { token := ref, original := none }
  | some canonical => (TokenRef.new eth chainId canonical none none).map fun token => { token, original := some ref }

/-- `normalize_token_request`. -/
def normalizeTokenRequest (chainId : Int) (token : String) : Except Exn RemappedToken :=
  (TokenRef.new eth chainId token none none).bind (applyRemap eth chainId)

def normalizePriceRequest (chainId : Int) (token : String) : Except Exn (ProviderPriceRequest × RemappedToken) := do
  let remapped ← normalizeTokenRequest eth chainId token
  pure ({ chainId, token := remapped.token }, remapped)

def normalizeQuoteRequest (chainId : Int) (tokenIn tokenOut amountIn : String) :
    Except Exn (ProviderQuoteRequest × RemappedToken × RemappedToken) := do
  let parsedAmountIn ← parsePositiveInt amountIn "amount_in"
  let tokenInRef ← TokenRef.new eth chainId tokenIn none none
  let tokenOutRef ← TokenRef.new eth chainId tokenOut none none
  let tokenIn ← applyRemap eth chainId tokenInRef
  let tokenOut ← applyRemap eth chainId tokenOutRef
  pure ({ chainId, tokenIn := tokenIn.token, tokenOut := tokenOut.token, amountIn := parsedAmountIn }, tokenIn,
    tokenOut)

end Normalize

/-! ### Normal tokens -/

section Normal

variable {eth : EthUtils} {eip55 : List Char → List Char}

/-- The normal form of an address with a prefix differs from it in case only. -/
private theorem caseVariant_of_long (hdoc : eth.Documented eip55) {token address : String} (hlong : LongEnough token)
    (hnative : isNativeAlias token = false) (h : normalizeAddress eth token = .ok address) :
    CaseVariant token address := by
  have hchecked : eth.isAddress token = true ∧ eth.toChecksumAddress token = .ok address := by
    unfold normalizeAddress at h
    rw [if_neg (by simp [hnative])] at h
    by_cases haddress : eth.isAddress token = true
    · rw [if_pos haddress] at h
      exact ⟨haddress, h⟩
    · rw [if_neg haddress] at h
      cases h
  obtain ⟨pre, digits, hpre, hdigits, rfl⟩ := hdoc.shape token hchecked.1
  have hform := Except.ok.inj ((hdoc.checksum pre digits hpre hdigits).symm.trans hchecked.2)
  have hprefix : pre.map Char.toLower = ['0', 'x'] := by
    rcases hpre with rfl | rfl | rfl
    · unfold LongEnough at hlong
      rw [List.nil_append, String.length_ofList, hdigits.1] at hlong
      omega
    · decide
    · decide
  rw [caseVariant_iff, ← hform, toLower_checksum hdoc hdigits, String.toList_ofList, List.map_append, hprefix]

/-- What is normalized from an address with a prefix is normal: its casing does not make it an alias. -/
private theorem normalized_of_long (hdoc : eth.Documented eip55) (hlaw : eth.Lawful) {token address : String}
    (hlong : LongEnough token) (h : normalizeAddress eth token = .ok address) : Normalized eth address := by
  by_cases hnative : isNativeAlias token = true
  · have halias : normalizeAddress eth token = .ok nativeTokenAlias := if_pos hnative
    obtain rfl := Except.ok.inj (halias.symm.trans h)
    exact normalized_native eth
  · have hnot : isNativeAlias token = false := Bool.eq_false_iff.2 hnative
    refine normalized_of_once hlaw h ?_
    rw [← (caseVariant_of_long hdoc hlong hnot h).isNativeAlias]
    exact hnative

/-- What is not normalized is no address. -/
private theorem normalizeAddress_error (hdoc : eth.Documented eip55) {address : String} {e : Exn}
    (h : normalizeAddress eth address = .error e) : ∃ message, e = .invalidRequest "INVALID_ADDRESS" message := by
  unfold normalizeAddress at h
  by_cases hnative : isNativeAlias address = true
  · rw [if_pos hnative] at h
    cases h
  · rw [if_neg hnative] at h
    by_cases haddress : eth.isAddress address = true
    · rw [if_pos haddress] at h
      obtain ⟨pre, digits, hpre, hdigits, rfl⟩ := hdoc.shape address haddress
      rw [hdoc.checksum pre digits hpre hdigits] at h
      cases h
    · rw [if_neg haddress] at h
      exact ⟨_, (Except.error.inj h).symm⟩

private theorem tokenRef_error (hdoc : eth.Documented eip55) {chainId : Int} {address : String} {e : Exn}
    (h : TokenRef.new eth chainId address none none = .error e) :
    ∃ message, e = .invalidRequest "INVALID_ADDRESS" message := by
  unfold TokenRef.new at h
  cases hn : normalizeAddress eth address with
  | error e' =>
    rw [hn] at h
    obtain rfl := Except.error.inj h
    exact normalizeAddress_error hdoc hn
  | ok normal =>
    rw [hn] at h
    cases h

private theorem applyRemap_error (hdoc : eth.Documented eip55) {chainId : Int} {ref : TokenRef} {e : Exn}
    (h : applyRemap eth chainId ref = .error e) : ∃ message, e = .invalidRequest "INVALID_ADDRESS" message := by
  unfold applyRemap at h
  cases hremap : resolveRemap chainId ref.address with
  | none =>
    rw [hremap] at h
    cases h
  | some canonical =>
    rw [hremap] at h
    dsimp only at h
    cases hnew : TokenRef.new eth chainId canonical none none with
    | error e' =>
      rw [hnew] at h
      obtain rfl := Except.error.inj h
      exact tokenRef_error hdoc hnew
    | ok token =>
      rw [hnew] at h
      cases h

private theorem normalizeTokenRequest_error (hdoc : eth.Documented eip55) {chainId : Int} {token : String} {e : Exn}
    (h : normalizeTokenRequest eth chainId token = .error e) :
    ∃ message, e = .invalidRequest "INVALID_ADDRESS" message := by
  rcases Eff.except_bind_eq_error.1 h with hnew | ⟨ref, -, hremap⟩
  · exact tokenRef_error hdoc hnew
  · exact applyRemap_error hdoc hremap

private theorem mem_remapTable {chainId : Int} {address canonical : String}
    (h : resolveRemap chainId address = some canonical) : ((chainId, address.toLower), canonical) ∈ remapTable := by
  obtain ⟨before, after, htable, -⟩ := List.lookup_eq_some_iff.1 h
  rw [htable]
  exact List.mem_append_right _ List.mem_cons_self

private theorem longEnough_remap {chainId : Int} {address canonical : String}
    (h : resolveRemap chainId address = some canonical) : LongEnough canonical := by
  have hall : ∀ p ∈ remapTable, LongEnough p.2 := by decide +kernel
  exact hall _ (mem_remapTable h)

/-- The token that a migrated one was migrated to is not migrated itself, whatever its casing. -/
private theorem resolveRemap_canonical (hdoc : eth.Documented eip55) {chainId : Int} {address canonical target : String}
    (h : resolveRemap chainId address = some canonical) (htarget : normalizeAddress eth canonical = .ok target) :
    resolveRemap chainId target = none := by
  have hall : ∀ p ∈ remapTable, isNativeAlias p.2 = false ∧ resolveRemap p.1.1 p.2 = none := by decide +kernel
  obtain ⟨hnative, hnone⟩ := hall _ (mem_remapTable h)
  have hvariant := caseVariant_of_long hdoc (longEnough_remap h) hnative htarget
  unfold CaseVariant at hvariant
  unfold resolveRemap at hnone ⊢
  rwa [← hvariant]

/-- The address that the providers are asked about: that of the token, or of the token it was migrated to. -/
def AskedAbout (eth : EthUtils) (chainId : Int) (token asked : String) : Prop :=
  ∃ address, normalizeAddress eth token = .ok address ∧
    ((resolveRemap chainId address = none ∧ asked = address) ∨
      ∃ canonical, resolveRemap chainId address = some canonical ∧ normalizeAddress eth canonical = .ok asked)

theorem AskedAbout.unique {eth : EthUtils} {chainId : Int} {token token' asked asked' : String}
    (h : AskedAbout eth chainId token asked) (h' : AskedAbout eth chainId token' asked')
    (hsame : normalizeAddress eth token = normalizeAddress eth token') : asked = asked' := by
  obtain ⟨address, haddress, hasked⟩ := h
  obtain ⟨address', haddress', hasked'⟩ := h'
  obtain rfl : address = address' := Except.ok.inj (haddress.symm.trans (hsame.trans haddress'))
  rcases hasked with ⟨hnone, rfl⟩ | ⟨canonical, hsome, hnormal⟩ <;>
    rcases hasked' with ⟨hnone', rfl⟩ | ⟨canonical', hsome', hnormal'⟩
  · rfl
  · rw [hnone] at hsome'
    cases hsome'
  · rw [hnone'] at hsome
    cases hsome
  · rw [hsome] at hsome'
    obtain rfl := Option.some.inj hsome'
    exact Except.ok.inj (hnormal.symm.trans hnormal')

/-- What a normalized token request holds. -/
structure RemappedToken.Of (eth : EthUtils) (chainId : Int) (token : String) (remapped : RemappedToken) : Prop where
  named : ∃ address, normalizeAddress eth token = .ok address ∧ Normalized eth address ∧
    remapped.named = { chainId, address }
  asked : ∃ address, Normalized eth address ∧ AskedAbout eth chainId token address ∧
    remapped.token = { chainId, address }
  settled : resolveRemap chainId remapped.token.address = none
  migrated : ∀ original ∈ remapped.original, resolveRemap chainId original.address ≠ none

private theorem applyRemap_ok (hdoc : eth.Documented eip55) (hlaw : eth.Lawful) {chainId : Int} {token address : String}
    {remapped : RemappedToken} (hlong : LongEnough token) (haddress : normalizeAddress eth token = .ok address)
    (h : applyRemap eth chainId { chainId, address } = .ok remapped) : RemappedToken.Of eth chainId token remapped := by
  have hnormal := normalized_of_long hdoc hlaw hlong haddress
  unfold applyRemap at h
  cases hremap : resolveRemap chainId address with
  | none =>
    dsimp only at h
    rw [hremap] at h
    obtain rfl := Except.ok.inj h
    have hasked : AskedAbout eth chainId token address := ⟨address, haddress, .inl ⟨hremap, rfl⟩⟩
    exact ⟨⟨address, haddress, hnormal, rfl⟩, ⟨address, hnormal, hasked, rfl⟩, hremap, by simp⟩
  | some canonical =>
    dsimp only at h
    rw [hremap] at h
    obtain ⟨ref, href, rfl⟩ := Eff.except_map_eq_ok.1 h
    obtain ⟨target, htarget, rfl⟩ := Eff.except_map_eq_ok.1 href
    have hasked : AskedAbout eth chainId token target := ⟨address, haddress, .inr ⟨canonical, hremap, htarget⟩⟩
    have htarget' := normalized_of_long hdoc hlaw (longEnough_remap hremap) htarget
    refine ⟨⟨address, haddress, hnormal, rfl⟩, ⟨target, htarget', hasked, rfl⟩,
      resolveRemap_canonical hdoc hremap htarget, ?_⟩
    intro original horiginal
    obtain rfl := Option.some.inj horiginal
    simp [hremap]

private theorem normalizeTokenRequest_ok
    (hdoc : eth.Documented eip55) (hlaw : eth.Lawful) {chainId : Int} {token : String}
    {remapped : RemappedToken} (hlong : LongEnough token) (h : normalizeTokenRequest eth chainId token = .ok remapped) :
    RemappedToken.Of eth chainId token remapped := by
  obtain ⟨ref, href, hremap⟩ := Eff.except_bind_eq_ok.1 h
  obtain ⟨address, haddress, rfl⟩ := Eff.except_map_eq_ok.1 href
  exact applyRemap_ok hdoc hlaw hlong haddress hremap

theorem normalizePriceRequest_ok (hdoc : eth.Documented eip55) (hlaw : eth.Lawful) {chainId : Int} {token : String}
    {req : ProviderPriceRequest} {remapped : RemappedToken} (hlong : LongEnough token)
    (h : normalizePriceRequest eth chainId token = .ok (req, remapped)) :
    req = { chainId, token := remapped.token } ∧ remapped.Of eth chainId token := by
  obtain ⟨remapped', htoken, hpure⟩ := Eff.except_bind_eq_ok.1 h
  obtain ⟨rfl, rfl⟩ := Prod.mk.inj (Except.ok.inj hpure)
  exact ⟨rfl, normalizeTokenRequest_ok hdoc hlaw hlong htoken⟩

theorem normalizePriceRequest_error (hdoc : eth.Documented eip55) {chainId : Int} {token : String} {e : Exn}
    (h : normalizePriceRequest eth chainId token = .error e) :
    ∃ message, e = .invalidRequest "INVALID_ADDRESS" message := by
  unfold normalizePriceRequest at h
  rcases Eff.except_bind_eq_error.1 h with htoken | ⟨remapped, -, hpure⟩
  · exact normalizeTokenRequest_error hdoc htoken
  · cases hpure

theorem normalizeQuoteRequest_ok (hdoc : eth.Documented eip55) (hlaw : eth.Lawful) {chainId : Int}
    {tokenIn tokenOut amountIn : String} {req : ProviderQuoteRequest} {remappedIn remappedOut : RemappedToken}
    (hlongIn : LongEnough tokenIn) (hlongOut : LongEnough tokenOut)
    (h : normalizeQuoteRequest eth chainId tokenIn tokenOut amountIn = .ok (req, remappedIn, remappedOut)) :
    ∃ amount, parsePositiveInt amountIn "amount_in" = .ok amount ∧
      req = { chainId, tokenIn := remappedIn.token, tokenOut := remappedOut.token, amountIn := amount } ∧
      remappedIn.Of eth chainId tokenIn ∧ remappedOut.Of eth chainId tokenOut := by
  obtain ⟨amount, hamount, h⟩ := Eff.except_bind_eq_ok.1 h
  obtain ⟨refIn, hrefIn, h⟩ := Eff.except_bind_eq_ok.1 h
  obtain ⟨refOut, hrefOut, h⟩ := Eff.except_bind_eq_ok.1 h
  obtain ⟨remapped, hremapIn, h⟩ := Eff.except_bind_eq_ok.1 h
  obtain ⟨remapped', hremapOut, hpure⟩ := Eff.except_bind_eq_ok.1 h
  obtain ⟨rfl, hpair⟩ := Prod.mk.inj (Except.ok.inj hpure)
  obtain ⟨rfl, rfl⟩ := Prod.mk.inj hpair
  refine ⟨amount, hamount, rfl, ?_, ?_⟩
  · exact normalizeTokenRequest_ok hdoc hlaw hlongIn (Eff.except_bind_eq_ok.2 ⟨refIn, hrefIn, hremapIn⟩)
  · exact normalizeTokenRequest_ok hdoc hlaw hlongOut (Eff.except_bind_eq_ok.2 ⟨refOut, hrefOut, hremapOut⟩)

theorem normalizeQuoteRequest_error (hdoc : eth.Documented eip55) {chainId : Int} {tokenIn tokenOut amountIn : String}
    {e : Exn} (h : normalizeQuoteRequest eth chainId tokenIn tokenOut amountIn = .error e) :
    ∃ type message, e = .invalidRequest type message ∧ (type = "INVALID_AMOUNT" ∨ type = "INVALID_ADDRESS") := by
  have haddress (h : ∃ message, e = .invalidRequest "INVALID_ADDRESS" message) :
      ∃ type message, e = .invalidRequest type message ∧ (type = "INVALID_AMOUNT" ∨ type = "INVALID_ADDRESS") := by
    obtain ⟨message, he⟩ := h
    exact ⟨_, message, he, .inr rfl⟩
  rcases Eff.except_bind_eq_error.1 h with hamount | ⟨amount, -, h⟩
  · obtain ⟨message, he⟩ := parsePositiveInt_error hamount
    exact ⟨_, message, he, .inl rfl⟩
  rcases Eff.except_bind_eq_error.1 h with hrefIn | ⟨refIn, -, h⟩
  · exact haddress (tokenRef_error hdoc hrefIn)
  rcases Eff.except_bind_eq_error.1 h with hrefOut | ⟨refOut, -, h⟩
  · exact haddress (tokenRef_error hdoc hrefOut)
  rcases Eff.except_bind_eq_error.1 h with hremapIn | ⟨remappedIn, -, h⟩
  · exact haddress (applyRemap_error hdoc hremapIn)
  rcases Eff.except_bind_eq_error.1 h with hremapOut | ⟨remappedOut, -, hpure⟩
  · exact haddress (applyRemap_error hdoc hremapOut)
  · cases hpure

end Normal

end TokenPriceAgg

import TokenPriceAgg.Core.AddressForms
import TokenPriceAgg.Lib.FirstWins
import TokenPriceAgg.TokenMetadata.LogoAnswers
import TokenPriceAgg.TokenMetadata.LogoSources
import TokenPriceAgg.TokenMetadata.SourceLists

/-!
# The candidates for a logo

The reviewed sources and `TokenLogoSourceManager.get_candidates`, which lists the URLs that the acquirer asks for an
identity, first the fixed URL of a source and then the one that its list gave.

`getCandidates_spec` says which URLs are listed, in which order and for which source.  `acquirer_permits` connects the
manager with the acquirer: what is listed passes both of its checks.
-/

namespace TokenPriceAgg

open PyLib

/-! ### URLs -/

/-- What the code uses of `urllib.parse`: the split of a URL, and the query of one that is split. -/
structure UrlParser where
  urlsplit : UrlSplit
  query : String → String

/-- `_matches_exact_url`. -/
def matchesExactUrl (urls : UrlParser) (actual expected : String) : Bool :=
  (safeHttpsUrl urls.urlsplit actual).isSome && actual = expected && urls.query actual = ""

/-- A character that no URL takes for the end of its path. -/
def isPlainPathChar (c : Char) : Bool :=
  ('a' ≤ c && c ≤ 'z') || ('A' ≤ c && c ≤ 'Z') || ('0' ≤ c && c ≤ '9') || c = '.' || c = '/' || c = '-' || c = '@'

/-- A character of a host in lower case. -/
def isHostChar (c : Char) : Bool := ('a' ≤ c && c ≤ 'z') || c = '.'

/-- What `urlsplit` documents of a URL with a plain host and a plain path. -/
def UrlParser.Documented (urls : UrlParser) : Prop :=
  ∀ host path : List Char, host ≠ [] → (∀ c ∈ host, isHostChar c) → (∀ c ∈ path, isPlainPathChar c) →
    urls.urlsplit (String.ofList ("https://".toList ++ host ++ ['/'] ++ path)) =
        some { scheme := "https", hostname := some (String.ofList host), username := none, password := none
               port := some none, path := String.ofList ('/' :: path), fragment := "" } ∧
      urls.query (String.ofList ("https://".toList ++ host ++ ['/'] ++ path)) = ""

/-! ### Sources -/

/-- The protocol `LogoSource`. -/
structure LogoSource where
  id : String
  metadataUrl : Option String
  supportsChain : Int → Bool
  deterministicCandidate : Int → String → Except Exn (Option String)
  parseMetadata : Int → Json → Except Exn (List TokenLogoSourceEntry)
  allowsImageUrl : Int → String → String → Except Exn Bool

section Sources

variable (eth : EthUtils) (urls : UrlParser)

/-- A source without a list, which has one URL for an identity. -/
def fixedUrlSource (id : String) (supportsChain : Int → Bool) (imageUrl : Int → String → Except Exn (Option String)) :
    LogoSource where
  id := id
  metadataUrl := none
  supportsChain := supportsChain
  deterministicCandidate := imageUrl
  parseMetadata _ _ := .ok []
  allowsImageUrl chainId address url :=
    (imageUrl chainId address).map fun expected => expected.any (matchesExactUrl urls url)

/-- An image in a copy of the repository of assets. -/
def tokenAssetsImage (base : String) (chainId : Int) (normalized : String) : String :=
  base ++ ("tokens/" ++ toString chainId ++ "/" ++ normalized.toLower ++ "/logo-128.png")

def tokenAssetsUrl (base : String) (chainId : Int) (address : String) : Except Exn (Option String) :=
  (normalizeAddress eth address).map fun normalized => some (tokenAssetsImage base chainId normalized)

def yearnBase : String := "https://raw.githubusercontent.com/yearn/tokenAssets/main/"

def yearnTokenAssetsSource : LogoSource :=
  fixedUrlSource urls "yearn_tokenassets" (0 < ·) (tokenAssetsUrl eth yearnBase)

def trustWalletBase : String := "https://raw.githubusercontent.com/trustwallet/assets/master/"

def trustWalletImage (normalized : String) : String :=
  trustWalletBase ++ ("blockchains/ethereum/assets/" ++ normalized ++ "/logo.png")

def trustWalletUrl (chainId : Int) (address : String) : Except Exn (Option String) :=
  if chainId = 1 then (normalizeAddress eth address).map fun normalized => some (trustWalletImage normalized)
  else .ok none

def trustWalletSource : LogoSource := fixedUrlSource urls "trustwallet" (· = 1) (trustWalletUrl eth)

def coinGeckoSource : LogoSource where
  id := CoinGeckoSource.id
  metadataUrl := some "https://tokens.coingecko.com/ethereum/all.json"
  supportsChain := CoinGeckoSource.supportsChain
  deterministicCandidate _ _ := .ok none
  parseMetadata := CoinGeckoSource.parseMetadata eth urls.urlsplit
  allowsImageUrl chainId _ url := .ok (CoinGeckoSource.allowsImageUrl urls.urlsplit chainId url)

def smolDappBase : String := "https://cdn.jsdelivr.net/gh/SmolDapp/tokenAssets@main/"

def smolDappSource : LogoSource := fixedUrlSource urls "smoldapp" (0 < ·) (tokenAssetsUrl eth smolDappBase)

/-- `LOGO_SOURCES`, in their priority. -/
def logoSources : List LogoSource :=
  [yearnTokenAssetsSource eth urls, trustWalletSource eth urls, coinGeckoSource eth urls, smolDappSource eth urls]

theorem logoSources_ids : (logoSources eth urls).map (·.id) = logoSourceIds := rfl

end Sources

/-! ### The manager -/

structure TokenLogoSourceManager where
  sources : List LogoSource
  unique : (sources.map (·.id)).Nodup

def TokenLogoSourceManager.sourceForId (manager : TokenLogoSourceManager) (sourceId : String) : Option LogoSource :=
  manager.sources.find? (·.id = sourceId)

private theorem logoSources_unique (eth : EthUtils) (urls : UrlParser) : ((logoSources eth urls).map (·.id)).Nodup := by
  rw [logoSources_ids]
  decide

def logoSourceManager (eth : EthUtils) (urls : UrlParser) : TokenLogoSourceManager where
  sources := logoSources eth urls
  unique := logoSources_unique eth urls

/-- An entry with its row. -/
def entryOfRow (row : (String × Int × String) × String × Int) : TokenLogoSourceEntry :=
  ⟨row.1.1, row.1.2.1, row.1.2.2, row.2.1⟩

/-- `out.setdefault(entry.address, []).append(entry)`. -/
def addStored (out : Dict String (List TokenLogoSourceEntry)) (entry : TokenLogoSourceEntry) :
    Dict String (List TokenLogoSourceEntry) :=
  out.set entry.address (out.getD entry.address [] ++ [entry])

def getLogoSourceEntries (eth : EthUtils) (chainId : Int) (addresses : List String) (store : LogoStore) :
    Except Exn (Dict String (List TokenLogoSourceEntry)) := do
  let normalized ← normalizeAddresses eth addresses
  if normalized = [] then pure .empty
  else
    let chainId ← sql (bindInt chainId)
    let rows := store.entries.items.filter fun row => row.1.2.1 = chainId ∧ row.1.2.2 ∈ normalized
    pure ((rows.map entryOfRow).foldl addStored .empty)

/-- The candidates so far and the URLs seen. -/
structure Offered where
  candidates : List LogoCandidate
  seen : List String

/-- One turn of the inner loop. -/
def offer (source : LogoSource) (chainId : Int) (address : String) (offered : Offered) (url : Option String) :
    Except Exn Offered :=
  match url with
  | none => .ok offered
  | some url =>
    if url ∈ offered.seen then .ok offered
    else
      (source.allowsImageUrl chainId address url).map fun allowed =>
        if allowed then ⟨offered.candidates ++ [⟨source.id, url⟩], url :: offered.seen⟩ else offered

/-- One turn of the loop over the sources. -/
def offerSource (storedBySource : Dict String String) (chainId : Int) (address : String) (offered : Offered)
    (source : LogoSource) : Except Exn Offered :=
  if !source.supportsChain chainId then .ok offered
  else do
    let deterministic ← source.deterministicCandidate chainId address
    let offered ← offer source chainId address offered deterministic
    offer source chainId address offered (storedBySource.get? source.id)

def getCandidates (eth : EthUtils) (manager : TokenLogoSourceManager) (chainId : Int) (address : String)
    (store : LogoStore) : Except Exn (List LogoCandidate) := do
  let normalized ← normalizeAddress eth address
  let stored ← getLogoSourceEntries eth chainId [normalized] store
  let storedBySource := Dict.empty.setMany ((stored.getD normalized []).map fun entry => (entry.source, entry.logoUrl))
  let offered ← manager.sources.foldlM (offerSource storedBySource chainId normalized) ⟨[], []⟩
  pure offered.candidates

/-! ### Which URLs are listed -/

/-- The source allows the URL for the identity. -/
def LogoSource.permits (source : LogoSource) (chainId : Int) (address url : String) : Bool :=
  (source.allowsImageUrl chainId address url).toOption.getD false

/-- What a source has for an identity, with the URL that its list gave. -/
def LogoSource.offers (source : LogoSource) (chainId : Int) (address : String) (stored : Option String) :
    List LogoCandidate :=
  if source.supportsChain chainId then
    (((source.deterministicCandidate chainId address).toOption.join.toList ++ stored.toList).filter
      (source.permits chainId address)).map (LogoCandidate.mk source.id)
  else []

/-- The URL in the entries of a source. -/
def LogoStore.storedUrl (store : LogoStore) (source : String) (chainId : Int) (address : String) : Option String :=
  (store.entries.get? (source, chainId, address)).map Prod.fst

/-- The candidates with those of the list whose URLs were not seen. -/
def Offered.add (offered : Offered) (l : List LogoCandidate) : Offered :=
  ⟨offered.candidates ++ firstWins (·.url) offered.seen l, seenAfter (·.url) offered.seen l⟩

private theorem Offered.add_nil (offered : Offered) : offered.add [] = offered := by
  show (⟨offered.candidates ++ [], offered.seen⟩ : Offered) = offered
  rw [List.append_nil]

private theorem Offered.add_append (offered : Offered) (l l' : List LogoCandidate) :
    (offered.add l).add l' = offered.add (l ++ l') := by
  unfold add
  rw [firstWins_append, seenAfter_append, List.append_assoc]

section Listed

variable {eth : EthUtils} {manager : TokenLogoSourceManager} {source : LogoSource} {chainId : Int} {address : String}
  {store : LogoStore} {offered offered' : Offered}

private theorem offer_eq_ok {url : Option String} (h : offer source chainId address offered url = .ok offered') :
    offered' = offered.add ((url.toList.filter (source.permits chainId address)).map (LogoCandidate.mk source.id)) := by
  cases url with
  | none =>
    cases h
    exact (Offered.add_nil _).symm
  | some url =>
    simp only [offer] at h
    by_cases hseen : url ∈ offered.seen
    · rw [if_pos hseen] at h
      cases h
      by_cases hallowed : source.permits chainId address url = true
      · simp [Offered.add, firstWins, seenAfter, hallowed, hseen]
      · simp [Offered.add, firstWins, seenAfter, hallowed]
    · rw [if_neg hseen] at h
      obtain ⟨allowed, hallows, rfl⟩ := Eff.except_map_eq_ok.1 h
      have hpermits : source.permits chainId address url = allowed := by
        unfold LogoSource.permits
        rw [hallows]
        rfl
      cases allowed with
      | true => simp [Offered.add, firstWins, seenAfter, hpermits, hseen]
      | false => simp [Offered.add, firstWins, seenAfter, hpermits]

private theorem offerSource_eq_ok {storedBySource : Dict String String}
    (h : offerSource storedBySource chainId address offered source = .ok offered') :
    offered' = offered.add (source.offers chainId address (storedBySource.get? source.id)) := by
  unfold offerSource at h
  unfold LogoSource.offers
  by_cases hsupports : source.supportsChain chainId = true
  · rw [if_neg (by simp [hsupports])] at h
    rw [if_pos hsupports]
    obtain ⟨deterministic, hdeterministic, h⟩ := Eff.except_bind_eq_ok.1 h
    obtain ⟨offered₁, hfirst, hsecond⟩ := Eff.except_bind_eq_ok.1 h
    rw [hdeterministic, offer_eq_ok hsecond, offer_eq_ok hfirst, Offered.add_append, List.filter_append,
      List.map_append]
    rfl
  · rw [if_pos (by simpa using hsupports)] at h
    rw [if_neg hsupports]
    cases h
    exact (Offered.add_nil _).symm

private theorem offerSources_eq_ok {storedBySource : Dict String String} {sources : List LogoSource}
    (h : sources.foldlM (offerSource storedBySource chainId address) offered = .ok offered') :
    offered' = offered.add
      (sources.flatMap fun source => source.offers chainId address (storedBySource.get? source.id)) := by
  induction sources generalizing offered with
  | nil =>
    cases h
    exact (Offered.add_nil _).symm
  | cons source sources ih =>
    rw [List.foldlM_cons] at h
    obtain ⟨offered₁, hsource, hsources⟩ := Eff.except_bind_eq_ok.1 h
    rw [ih hsources, offerSource_eq_ok hsource, Offered.add_append, List.flatMap_cons]

/-- The entries of an address are collected under it. -/
private theorem getD_addStored (entries : List TokenLogoSourceEntry) (out : Dict String (List TokenLogoSourceEntry)) :
    (entries.foldl addStored out).getD address [] =
      out.getD address [] ++ entries.filter fun entry => entry.address = address := by
  induction entries generalizing out with
  | nil => exact (List.append_nil _).symm
  | cons entry entries ih =>
    rw [List.foldl_cons, ih]
    unfold addStored
    rw [Dict.getD_set]
    by_cases haddress : address = entry.address
    · subst haddress
      simp
    · simp [haddress, Ne.symm haddress]

/-- What the loop over the sources finds of their entries. -/
private theorem storedBySource_get?
    (haddress : Normalized eth address) {stored : Dict String (List TokenLogoSourceEntry)}
    (h : getLogoSourceEntries eth chainId [address] store = .ok stored) (id : String) :
    (Dict.empty.setMany ((stored.getD address []).map fun entry => (entry.source, entry.logoUrl))).get? id =
      store.storedUrl id chainId address := by
  unfold Normalized at haddress
  obtain ⟨normalized, hnormalized, h⟩ := Eff.except_bind_eq_ok.1 h
  obtain ⟨all, hall, rfl⟩ := Eff.except_map_eq_ok.1 hnormalized
  obtain rfl : [address] = all := by
    simpa [haddress, pure, Except.pure, bind, Except.bind] using hall
  have hone : fromKeys [address] = [address] := by simp [fromKeys, List.eraseDups_cons]
  rw [hone, if_neg (List.cons_ne_nil address [])] at h
  obtain ⟨chainId', hchain, hrows⟩ := Eff.except_bind_eq_ok.1 h
  clear h
  obtain ⟨rfl, -⟩ := bindInt_eq_ok (sql_eq_ok hchain)
  let rows := store.entries.items.filter fun row => row.1.2.1 = chainId' ∧ row.1.2.2 ∈ [address]
  obtain rfl : (rows.map entryOfRow).foldl addStored .empty = stored := Except.ok.inj hrows
  have hrows : ∀ row ∈ rows, row.1.2.1 = chainId' ∧ row.1.2.2 = address := by
    intro row hrow
    simpa using (List.mem_filter.1 hrow).2
  have hkept : ((rows.map entryOfRow).foldl addStored Dict.empty).getD address [] = rows.map entryOfRow := by
    rw [getD_addStored]
    show [] ++ _ = _
    rw [List.nil_append, List.filter_eq_self]
    intro entry hentry
    obtain ⟨row, hrow, rfl⟩ := List.mem_map.1 hentry
    exact decide_eq_true (hrows row hrow).2
  rw [hkept, List.map_map]
  have hpairs : rows.map ((fun entry : TokenLogoSourceEntry => (entry.source, entry.logoUrl)) ∘ entryOfRow) =
      rows.map fun row => (row.1.1, row.2.1) := rfl
  rw [hpairs]
  -- the rows have one chain and one address, so their sources differ
  have hnodup : ((rows.map fun row => (row.1.1, row.2.1)).map Prod.fst).Nodup := by
    have hkeys : (rows.map Prod.fst).Nodup := store.entries.nodup.sublist (List.filter_sublist.map _)
    rw [List.map_map]
    refine List.Nodup.map_on ?_ (List.Nodup.of_map _ hkeys)
    rintro row hrow row' hrow' (hsource : row.1.1 = row'.1.1)
    obtain ⟨hchain, haddr⟩ := hrows row hrow
    obtain ⟨hchain', haddr'⟩ := hrows row' hrow'
    refine List.inj_on_of_nodup_map hkeys hrow hrow' ?_
    exact Prod.ext hsource (Prod.ext (hchain.trans hchain'.symm) (haddr.trans haddr'.symm))
  unfold LogoStore.storedUrl
  cases hentry : store.entries.get? (id, chainId', address) with
  | none =>
    rcases Dict.get?_setMany_cases Dict.empty (rows.map fun row => (row.1.1, row.2.1)) id with
      ⟨-, hget⟩ | ⟨url, hmem, -⟩
    · exact hget
    · obtain ⟨row, hrow, hpair⟩ := List.mem_map.1 hmem
      obtain ⟨hchain, haddr⟩ := hrows row hrow
      have hsource : row.1.1 = id := congrArg Prod.fst hpair
      have hkey : row.1 = (id, chainId', address) := Prod.ext hsource (Prod.ext hchain haddr)
      have hsome : store.entries.get? (id, chainId', address) = some row.2 :=
        Dict.get?_eq_some.2 (hkey ▸ List.mem_of_mem_filter hrow)
      rw [hentry] at hsome
      cases hsome
  | some entry =>
    have hitem := Dict.get?_eq_some.1 hentry
    have hmem : (id, entry.1) ∈ rows.map fun row => (row.1.1, row.2.1) := by
      refine List.mem_map.2 ⟨_, List.mem_filter.2 ⟨hitem, ?_⟩, rfl⟩
      simp
    exact Dict.get?_setMany_of_mem hnodup hmem Dict.empty

/-- The candidates are what the sources have for the identity, in their order and without a URL that was listed
before. -/
theorem getCandidates_spec {candidates : List LogoCandidate} (haddress : Normalized eth address)
    (h : getCandidates eth manager chainId address store = .ok candidates) :
    candidates = firstWins (·.url) []
      (manager.sources.flatMap fun source =>
        source.offers chainId address (store.storedUrl source.id chainId address)) := by
  obtain ⟨normalized, hnormalized, hrest⟩ := Eff.except_bind_eq_ok.1 h
  clear h
  obtain rfl : address = normalized := Except.ok.inj (haddress.symm.trans hnormalized)
  obtain ⟨stored, hstored, hrest⟩ := Eff.except_bind_eq_ok.1 hrest
  obtain ⟨offered, hoffered, hrest⟩ := Eff.except_bind_eq_ok.1 hrest
  obtain rfl : offered.candidates = candidates := Except.ok.inj hrest
  rw [offerSources_eq_ok hoffered]
  show [] ++ _ = _
  rw [List.nil_append]
  simp only [storedBySource_get? haddress hstored]

end Listed

/-! ### The reviewed sources -/

section Reviewed

variable {eth : EthUtils} {urls : UrlParser} {chainId : Int} {address : String} {store : LogoStore}

/-- The source raises nothing for the identity. -/
def LogoSource.Total (source : LogoSource) (chainId : Int) (address : String) : Prop :=
  (∃ deterministic, source.deterministicCandidate chainId address = .ok deterministic) ∧
    ∀ url, ∃ allowed, source.allowsImageUrl chainId address url = .ok allowed

private theorem fixedUrlSource_total {id : String} {supportsChain : Int → Bool}
    {imageUrl : Int → String → Except Exn (Option String)} {expected : Option String}
    (h : imageUrl chainId address = .ok expected) :
    (fixedUrlSource urls id supportsChain imageUrl).Total chainId address := by
  refine ⟨⟨expected, h⟩, fun url => ⟨expected.any (matchesExactUrl urls url), ?_⟩⟩
  show (imageUrl chainId address).map _ = _
  rw [h]
  rfl

private theorem tokenAssetsUrl_normalized (haddress : Normalized eth address) (base : String) (chainId : Int) :
    tokenAssetsUrl eth base chainId address = .ok (some (tokenAssetsImage base chainId address)) := by
  unfold tokenAssetsUrl
  rw [haddress]
  rfl

private theorem trustWalletUrl_normalized (haddress : Normalized eth address) (chainId : Int) :
    trustWalletUrl eth chainId address = .ok (if chainId = 1 then some (trustWalletImage address) else none) := by
  unfold trustWalletUrl
  rw [haddress]
  by_cases hchain : chainId = 1
  · rw [if_pos hchain, if_pos hchain]
    rfl
  · rw [if_neg hchain, if_neg hchain]

/-- No reviewed source raises for an address that is its own normal form. -/
private theorem logoSources_total (haddress : Normalized eth address) :
    ∀ source ∈ logoSources eth urls, source.Total chainId address := by
  intro source hsource
  simp only [logoSources, List.mem_cons, List.not_mem_nil, or_false] at hsource
  obtain rfl | rfl | rfl | rfl := hsource
  · exact fixedUrlSource_total (tokenAssetsUrl_normalized haddress _ chainId)
  · exact fixedUrlSource_total (trustWalletUrl_normalized haddress chainId)
  · exact ⟨⟨none, rfl⟩, fun url => ⟨_, rfl⟩⟩
  · exact fixedUrlSource_total (tokenAssetsUrl_normalized haddress _ chainId)

private theorem offer_total {source : LogoSource} (h : source.Total chainId address) (offered : Offered)
    (url : Option String) : ∃ offered', offer source chainId address offered url = .ok offered' := by
  cases url with
  | none => exact ⟨offered, rfl⟩
  | some url =>
    simp only [offer]
    by_cases hseen : url ∈ offered.seen
    · rw [if_pos hseen]
      exact ⟨offered, rfl⟩
    · rw [if_neg hseen]
      obtain ⟨allowed, hallowed⟩ := h.2 url
      rw [hallowed]
      exact ⟨_, rfl⟩

private theorem offerSources_total {sources : List LogoSource} (h : ∀ source ∈ sources, source.Total chainId address)
    (storedBySource : Dict String String) (offered : Offered) :
    ∃ offered', sources.foldlM (offerSource storedBySource chainId address) offered = .ok offered' := by
  induction sources generalizing offered with
  | nil => exact ⟨offered, rfl⟩
  | cons source sources ih =>
    have htotal := h source List.mem_cons_self
    have hfirst : ∃ offered₁, offerSource storedBySource chainId address offered source = .ok offered₁ := by
      unfold offerSource
      by_cases hsupports : source.supportsChain chainId = true
      · rw [if_neg (by simp [hsupports])]
        obtain ⟨deterministic, hdeterministic⟩ := htotal.1
        obtain ⟨offered₁, hoffered₁⟩ := offer_total htotal offered deterministic
        obtain ⟨offered₂, hoffered₂⟩ := offer_total htotal offered₁ (storedBySource.get? source.id)
        refine ⟨offered₂, ?_⟩
        rw [hdeterministic]
        simp only [bind, Except.bind, hoffered₁, hoffered₂]
      · rw [if_pos (by simpa using hsupports)]
        exact ⟨offered, rfl⟩
    obtain ⟨offered₁, hoffered₁⟩ := hfirst
    obtain ⟨offered', hoffered'⟩ := ih (fun s hs => h s (List.mem_cons_of_mem source hs)) offered₁
    refine ⟨offered', ?_⟩
    rw [List.foldlM_cons, hoffered₁]
    exact hoffered'

/-- For an identity of the table the manager raises nothing. -/
private theorem getCandidates_total (haddress : Normalized eth address) (hchain : -2 ^ 63 ≤ chainId ∧ chainId < 2 ^ 63)
    (store : LogoStore) :
    ∃ candidates, getCandidates eth (logoSourceManager eth urls) chainId address store = .ok candidates := by
  have hstored : ∃ stored, getLogoSourceEntries eth chainId [address] store = .ok stored := by
    unfold getLogoSourceEntries normalizeAddresses
    have hall : [address].mapM (normalizeAddress eth) = .ok [address] := by
      unfold Normalized at haddress
      simp [haddress, pure, Except.pure, bind, Except.bind]
    rw [hall]
    simp only [Except.map, bind, Except.bind]
    by_cases hempty : fromKeys [address] = []
    · rw [if_pos hempty]
      exact ⟨_, rfl⟩
    · rw [if_neg hempty, sql_bindInt hchain]
      exact ⟨_, rfl⟩
  obtain ⟨stored, hstored⟩ := hstored
  obtain ⟨offered, hoffered⟩ := @offerSources_total chainId address (logoSources eth urls) (logoSources_total haddress)
    (Dict.empty.setMany ((stored.getD address []).map fun entry => (entry.source, entry.logoUrl))) ⟨[], []⟩
  exact ⟨offered.candidates, Eff.except_bind_eq_ok.2 ⟨address, haddress, Eff.except_bind_eq_ok.2 ⟨stored, hstored,
    Eff.except_bind_eq_ok.2 ⟨offered, hoffered, rfl⟩⟩⟩⟩

/-! ### The list for an identity -/

/-- The address consists of hexadecimal digits and an `x`. -/
private theorem normalized_text {eip55 : List Char → List Char} (hdoc : eth.Documented eip55)
    (haddress : Normalized eth address) :
    ∀ c ∈ address.toList, c = 'x' ∨ isHexDigit c := by
  unfold Normalized normalizeAddress at haddress
  split at haddress
  · cases haddress
    decide
  · split at haddress
    · rename_i hvalid
      obtain ⟨pre, digits, hpre, hdigits, htext⟩ := hdoc.shape address hvalid
      rw [htext, hdoc.checksum pre digits hpre hdigits] at haddress
      have hsame : address = String.ofList (['0', 'x'] ++ eip55 (digits.map Char.toLower)) := by
        rw [htext]
        exact (Except.ok.inj haddress).symm
      intro c hc
      rw [hsame, String.toList_ofList] at hc
      simp only [List.cons_append, List.nil_append, List.mem_cons] at hc
      obtain rfl | rfl | hc := hc
      · decide
      · exact .inl rfl
      · -- the casing of the checksum changes no digit
        have hlower : c.toLower ∈ digits.map Char.toLower := by
          rw [← hdoc.casing digits hdigits]
          exact List.mem_map_of_mem hc
        obtain ⟨d, hd, hcase⟩ := List.mem_map.1 hlower
        exact .inr (isHexDigit_of_toLower hcase.symm (hdigits.2 d hd))
    · cases haddress

private theorem plain_of_text {c : Char} (h : c = 'x' ∨ isHexDigit c) : isPlainPathChar c ∧
    isPlainPathChar c.toLower := by
  have hall : ∀ c ∈ 'x' :: (decimalDigits ++ lowerHexLetters ++ upperHexLetters),
      isPlainPathChar c = true ∧ isPlainPathChar c.toLower = true := by decide
  apply hall
  rw [List.mem_cons, ← isHexDigit_iff]
  exact h

/-- The digits of a chain. -/
private theorem plain_chainId (hchain : 0 < chainId) : ∀ c ∈ (toString chainId).toList, isPlainPathChar c := by
  obtain ⟨n, rfl⟩ := Int.eq_ofNat_of_zero_le hchain.le
  intro c hc
  have hc : c ∈ Nat.toDigits 10 n := by
    have htext : (toString (n : Int)).toList = Nat.toDigits 10 n := String.toList_ofList
    rwa [htext] at hc
  have hdigit : c.isDigit := Nat.isDigit_of_mem_toDigits (by decide) (by decide) hc
  unfold isPlainPathChar
  simp only [Char.isDigit, Bool.and_eq_true, decide_eq_true_eq] at hdigit
  have hrange : ('0' ≤ c && c ≤ '9') = true := by
    simp only [Bool.and_eq_true, decide_eq_true_eq]
    exact ⟨hdigit.1, hdigit.2⟩
  rw [hrange]
  simp

/-- A URL of a plain host and a plain path. -/
structure PlainUrl (url : String) (host path : List Char) : Prop where
  text : url = String.ofList ("https://".toList ++ host ++ ['/'] ++ path)
  host_ne : host ≠ []
  host : ∀ c ∈ host, isHostChar c
  path : ∀ c ∈ path, isPlainPathChar c

private theorem PlainUrl.split
    {url : String} {host path : List Char} (h : PlainUrl url host path) (hurls : urls.Documented) :
    urls.urlsplit url =
        some { scheme := "https", hostname := some (String.ofList host), username := none, password := none
               port := some none, path := String.ofList ('/' :: path), fragment := "" } ∧ urls.query url = "" := by
  rw [h.text]
  exact hurls host path h.host_ne h.host h.path

theorem PlainUrl.matches {url : String} {host path : List Char} (h : PlainUrl url host path)
    (hurls : urls.Documented) : matchesExactUrl urls url url = true := by
  obtain ⟨hsplit, hquery⟩ := h.split hurls
  unfold matchesExactUrl safeHttpsUrl
  rw [hsplit, hquery]
  simp

/-- A plain URL of another host is none of the list's. -/
private theorem PlainUrl.not_listed {url : String} {host path : List Char} (h : PlainUrl url host path)
    (hurls : urls.Documented) (hhost : String.ofList host ∉ CoinGeckoSource.imageHosts) :
    CoinGeckoSource.allowsImageUrl urls.urlsplit chainId url = false := by
  obtain ⟨hsplit, -⟩ := h.split hurls
  unfold CoinGeckoSource.allowsImageUrl safeHttpsUrl
  rw [hsplit]
  simp [hhost]

private theorem PlainUrl.append {base tail : String} {host path : List Char} (h : PlainUrl base host path)
    (htail : ∀ c ∈ tail.toList, isPlainPathChar c) : PlainUrl (base ++ tail) host (path ++ tail.toList) := by
  refine ⟨?_, h.host_ne, h.host, fun c hc => ?_⟩
  · rw [← String.toList_inj, h.text]
    simp only [String.toList_append, String.toList_ofList, List.append_assoc]
  · exact (List.mem_append.1 hc).elim (h.path c) (htail c)

private theorem plainUrl_yearn :
    PlainUrl yearnBase "raw.githubusercontent.com".toList "yearn/tokenAssets/main/".toList :=
  ⟨by decide, by decide, by decide, by decide⟩

private theorem plainUrl_trustWallet :
    PlainUrl trustWalletBase "raw.githubusercontent.com".toList "trustwallet/assets/master/".toList :=
  ⟨by decide, by decide, by decide, by decide⟩

private theorem plainUrl_smolDapp :
    PlainUrl smolDappBase "cdn.jsdelivr.net".toList "gh/SmolDapp/tokenAssets@main/".toList :=
  ⟨by decide, by decide, by decide, by decide⟩

section Text

variable (htext : ∀ c ∈ address.toList, c = 'x' ∨ isHexDigit c)

include htext

private theorem plainUrl_tokenAssetsImage {base : String} {host path : List Char} (hbase : PlainUrl base host path)
    (hchain : 0 < chainId) : ∃ path', PlainUrl (tokenAssetsImage base chainId address) host path' := by
  refine ⟨_, hbase.append fun c hc => ?_⟩
  simp only [String.toList_append, List.mem_append] at hc
  obtain (((hc | hc) | hc) | hc) | hc := hc
  · revert c
    decide
  · exact plain_chainId hchain c hc
  · revert c
    decide
  · rw [toList_toLower] at hc
    obtain ⟨d, hd, rfl⟩ := List.mem_map.1 hc
    exact (plain_of_text (htext d hd)).2
  · revert c
    decide

private theorem plainUrl_trustWalletImage :
    ∃ path, PlainUrl (trustWalletImage address) "raw.githubusercontent.com".toList path := by
  refine ⟨_, plainUrl_trustWallet.append fun c hc => ?_⟩
  simp only [String.toList_append, List.mem_append] at hc
  obtain (hc | hc) | hc := hc
  · revert c
    decide
  · exact (plain_of_text (htext c hc)).1
  · revert c
    decide

end Text

/-- Texts that begin with bases of which none begins with the other differ. -/
private theorem append_ne {a b c d : String} (n : Nat) (ha : n ≤ a.toList.length) (hb : n ≤ b.toList.length)
    (h : a.toList.take n ≠ b.toList.take n) : a ++ c ≠ b ++ d := by
  intro heq
  apply h
  have htake := congrArg (fun s : String => s.toList.take n) heq
  simp only [String.toList_append] at htake
  rwa [List.take_append_of_le_length ha, List.take_append_of_le_length hb] at htake

/-- The entries are those of a list that the rules of its source allow. -/
def LogoStore.Listed (urls : UrlParser) (store : LogoStore) : Prop :=
  ∀ source chainId address url syncedAt, store.entries.get? (source, chainId, address) = some (url, syncedAt) →
    source = CoinGeckoSource.id ∧ CoinGeckoSource.allowsImageUrl urls.urlsplit chainId url = true

/-- The candidates for an identity: the fixed URLs of the sources, and between them the one that the list gave. -/
def reviewedCandidates (chainId : Int) (address : String) (stored : Option String) : List LogoCandidate :=
  ⟨"yearn_tokenassets", tokenAssetsImage yearnBase chainId address⟩ ::
    ((if chainId = 1 then [⟨"trustwallet", trustWalletImage address⟩] else []) ++
      stored.toList.map (LogoCandidate.mk CoinGeckoSource.id) ++
        [⟨"smoldapp", tokenAssetsImage smolDappBase chainId address⟩])

/-- A source with a fixed URL that it allows. -/
private theorem fixedUrlSource_offers {id image : String} {supportsChain : Int → Bool}
    {imageUrl : Int → String → Except Exn (Option String)} (himage : imageUrl chainId address = .ok (some image))
    (hsupports : supportsChain chainId = true) (hmatches : matchesExactUrl urls image image = true) :
    (fixedUrlSource urls id supportsChain imageUrl).offers chainId address none = [⟨id, image⟩] := by
  have hpermits : (fixedUrlSource urls id supportsChain imageUrl).permits chainId address image = true := by
    show ((imageUrl chainId address).map fun expected =>
      expected.any (matchesExactUrl urls image)).toOption.getD false = true
    rw [himage]
    exact hmatches
  have hdeterministic : (fixedUrlSource urls id supportsChain imageUrl).deterministicCandidate chainId address =
      .ok (some image) := himage
  have hchain : (fixedUrlSource urls id supportsChain imageUrl).supportsChain chainId = true := hsupports
  unfold LogoSource.offers
  rw [if_pos hchain, hdeterministic]
  show ([image].filter _).map _ = _
  rw [List.filter_singleton, hpermits]
  rfl

/-- The list's source offers what is stored for it. -/
private theorem coinGeckoSource_offers {stored : Option String}
    (h : ∀ url ∈ stored, CoinGeckoSource.allowsImageUrl urls.urlsplit chainId url = true) :
    (coinGeckoSource eth urls).offers chainId address stored =
      stored.toList.map (LogoCandidate.mk CoinGeckoSource.id) := by
  unfold LogoSource.offers
  cases stored with
  | none =>
    by_cases hsupports : (coinGeckoSource eth urls).supportsChain chainId = true
    · rw [if_pos hsupports]
      rfl
    · rw [if_neg hsupports]
      rfl
  | some url =>
    have hallowed := h url rfl
    have hsupports : (coinGeckoSource eth urls).supportsChain chainId = true := by
      unfold CoinGeckoSource.allowsImageUrl at hallowed
      exact (Bool.and_eq_true_iff.1 hallowed).1
    have hpermits : (coinGeckoSource eth urls).permits chainId address url = true := hallowed
    rw [if_pos hsupports]
    show ([url].filter _).map _ = _
    rw [List.filter_singleton, hpermits]
    rfl

/-- For an identity the manager lists the reviewed candidates. -/
theorem getCandidates_eq {eip55 : List Char → List Char} (hdoc : eth.Documented eip55) (hurls : urls.Documented)
    (haddress : Normalized eth address) (hchain : 0 < chainId ∧ chainId < 2 ^ 63) (hlisted : store.Listed urls) :
    getCandidates eth (logoSourceManager eth urls) chainId address store =
      .ok (reviewedCandidates chainId address (store.storedUrl CoinGeckoSource.id chainId address)) := by
  obtain ⟨candidates, hcandidates⟩ := @getCandidates_total eth urls chainId address haddress (by omega) store
  rw [hcandidates, getCandidates_spec haddress hcandidates]
  have htext := normalized_text hdoc haddress
  obtain ⟨yearnPath, hyearn⟩ := plainUrl_tokenAssetsImage htext plainUrl_yearn hchain.1
  obtain ⟨trustPath, htrust⟩ := plainUrl_trustWalletImage htext
  obtain ⟨smolPath, hsmol⟩ := plainUrl_tokenAssetsImage htext plainUrl_smolDapp hchain.1
  have hnone (source : String) (hne : source ≠ CoinGeckoSource.id) : store.storedUrl source chainId address = none := by
    unfold LogoStore.storedUrl
    cases hentry : store.entries.get? (source, chainId, address) with
    | none => rfl
    | some entry => exact absurd (hlisted source chainId address entry.1 entry.2 hentry).1 hne
  have hstored : ∀ url ∈ store.storedUrl CoinGeckoSource.id chainId address,
      CoinGeckoSource.allowsImageUrl urls.urlsplit chainId url = true := by
    intro url hurl
    obtain ⟨entry, hentry, rfl⟩ := Option.map_eq_some_iff.1 hurl
    exact (hlisted CoinGeckoSource.id chainId address entry.1 entry.2 hentry).2
  have hoffers : ((logoSourceManager eth urls).sources.flatMap fun source =>
      source.offers chainId address (store.storedUrl source.id chainId address)) =
        reviewedCandidates chainId address (store.storedUrl CoinGeckoSource.id chainId address) := by
    show (yearnTokenAssetsSource eth urls).offers chainId address
        (store.storedUrl "yearn_tokenassets" chainId address) ++
      ((trustWalletSource eth urls).offers chainId address (store.storedUrl "trustwallet" chainId address) ++
        ((coinGeckoSource eth urls).offers chainId address (store.storedUrl CoinGeckoSource.id chainId address) ++
          ((smolDappSource eth urls).offers chainId address (store.storedUrl "smoldapp" chainId address) ++ []))) = _
    rw [hnone "yearn_tokenassets" (by decide), hnone "trustwallet" (by decide), hnone "smoldapp" (by decide),
      coinGeckoSource_offers hstored]
    have hfirst : (yearnTokenAssetsSource eth urls).offers chainId address none =
        [⟨"yearn_tokenassets", tokenAssetsImage yearnBase chainId address⟩] :=
      fixedUrlSource_offers (tokenAssetsUrl_normalized haddress _ chainId) (by simp [hchain.1]) (hyearn.matches hurls)
    have hlast : (smolDappSource eth urls).offers chainId address none =
        [⟨"smoldapp", tokenAssetsImage smolDappBase chainId address⟩] :=
      fixedUrlSource_offers (tokenAssetsUrl_normalized haddress _ chainId) (by simp [hchain.1]) (hsmol.matches hurls)
    have hsecond : (trustWalletSource eth urls).offers chainId address none =
        if chainId = 1 then [⟨"trustwallet", trustWalletImage address⟩] else [] := by
      by_cases hmain : chainId = 1
      · rw [if_pos hmain]
        refine fixedUrlSource_offers ?_ (by simp [hmain]) (htrust.matches hurls)
        rw [trustWalletUrl_normalized haddress, if_pos hmain]
      · rw [if_neg hmain]
        unfold LogoSource.offers
        rw [if_neg]
        show ¬ decide (chainId = 1) = true
        simpa using hmain
    rw [hfirst, hsecond, hlast]
    unfold reviewedCandidates
    simp only [List.append_nil, List.append_assoc, List.singleton_append]
  rw [hoffers]
  refine congrArg Except.ok (firstWins_of_nodup ?_)
  generalize store.storedUrl CoinGeckoSource.id chainId address = stored at hstored
  -- no two of the URLs are the same
  have hfirst : tokenAssetsImage yearnBase chainId address ≠ trustWalletImage address :=
    append_ne 40 (by decide) (by decide) (by decide)
  have hlast : tokenAssetsImage yearnBase chainId address ≠ tokenAssetsImage smolDappBase chainId address :=
    append_ne 10 (by decide) (by decide) (by decide)
  have hlast' : trustWalletImage address ≠ tokenAssetsImage smolDappBase chainId address :=
    append_ne 10 (by decide) (by decide) (by decide)
  have hother {image : String} (himage : CoinGeckoSource.allowsImageUrl urls.urlsplit chainId image = false) :
      ∀ url ∈ stored, image ≠ url := by
    rintro url hurl rfl
    rw [hstored image hurl] at himage
    cases himage
  have hyearn' := hother (hyearn.not_listed hurls (by decide))
  have htrust' := hother (htrust.not_listed hurls (by decide))
  have hsmol' := hother (hsmol.not_listed hurls (by decide))
  unfold reviewedCandidates
  cases stored with
  | none =>
    by_cases hmain : chainId = 1
    · simp [hmain, hmain ▸ hfirst, hmain ▸ hlast, hmain ▸ hlast']
    · simp [hmain, hlast]
  | some url =>
    have hyearn' := hyearn' url rfl
    have htrust' := htrust' url rfl
    have hsmol' := (hsmol' url rfl).symm
    by_cases hmain : chainId = 1
    · subst hmain
      simp [hfirst, hlast, hlast', hyearn', htrust', hsmol']
    · simp [hmain, hlast, hyearn', hsmol']

end Reviewed

end TokenPriceAgg

import TokenPriceAgg.Api.Requests
import TokenPriceAgg.Core.FailClosed
import TokenPriceAgg.Core.RunnerOutputs
import TokenPriceAgg.Providers.Registry
import TokenPriceAgg.TokenMetadata.Resolver

/-!
# What the two aggregate routes share

The registry picks the plugins of the request, the aggregator runs them, `aggregate_with_provider_order` puts their
results in the order of the response, and the resolver finds the metadata of the tokens.

`aggregate_served` is about all of it: the results are one for each plugin that was picked, and the index finds each of
them under its provider.  What holds of every result that the runner or the aggregator makes, and survives the
translation of vault shares, holds of every result of a response (`Carries`).
-/

namespace TokenPriceAgg

open PyLib Eff

/-! ### Exceptions of a handler -/

/-- What a handler raises: an `HTTPException` with its detail, or anything else. -/
inductive HttpFailure
  | httpException (statusCode : Nat) (type message : String) (retryAfterSeconds : Option Nat)
  | raised (e : Raised)
deriving DecidableEq, Repr

/-- The `except` clauses around the aggregate call. -/
def HttpFailure.ofCall : Raised → HttpFailure
  | .exception (.admissionRejected type message statusCode retryAfterSeconds) =>
    .httpException statusCode type message (some retryAfterSeconds)
  | .exception (.invalidRequest type message) => .httpException 400 type message none
  | e => .raised e

/-- `invalid_request_exception_handler` of the application. -/
def HttpFailure.handled : HttpFailure → HttpFailure
  | .raised (.exception (.invalidRequest type message)) => .httpException 400 type message none
  | failure => failure

/-- A handler, over the world of the aggregator. -/
abbrev Route (V Req R α : Type) : Type := Eff (AggregatorWorld V Req R) HttpFailure α

def raises {V Req R α : Type} (x : Except Exn α) : Route V Req R α :=
  Eff.ofExcept (x.mapError fun e => .raised (.exception e))

def awaits {V Req R α : Type} (x : Except Raised α) : Route V Req R α := Eff.ofExcept (x.mapError .raised)

/-! ### The metadata of the tokens -/

/-- What a request finds of the tokens: the rows it reads, what the chain answers, and how its writes end. -/
structure MetadataSide where
  table : MetadataTable
  answers : OnchainAnswers
  writes : Except Raised Unit
  observes : Except Raised Unit

structure TokenMetadataResponse where
  chainId : Int
  address : String
  symbol : Option String
  decimals : Option Int
  logoUrl : Option String
deriving DecidableEq

section Tokens

variable (eth : EthUtils) (enabled : List Int) (side : MetadataSide) (chainId : Int)

/-- `_resolve` up to its writes. -/
def mergeRefs (refs : List TokenRef) (source : String) : Except Exn (Dict String TokenMetadata) := do
  if chainId ∈ enabled then
    let addresses ← refs.mapM fun ref => normalizeAddress eth ref.address
    let req : ResolveRequest := { chainId, addresses := fromKeys addresses, refs, source }
    if req.addresses = [] then pure .empty
    else
      let cached ← getMany eth chainId req.addresses side.table
      let hinted ← hintsFromRefs eth chainId refs .empty
      let merged ← req.mergeCached eth cached hinted
      -- the chain is asked about the unresolved addresses only
      let answers := side.answers.filter fun p => p.1 ∈ unresolved merged
      let merged ← req.mergeOnchain eth answers merged
      pure (Dict.empty.setMany merged)
  else .error (.invalidRequest "UNSUPPORTED_CHAIN" ("Chain " ++ toString chainId ++ " is not enabled"))

/-- `_resolve`. -/
def resolveRefs (refs : List TokenRef) (source : String) : Except Raised (Dict String TokenMetadata) := do
  let merged ← (mergeRefs eth enabled side chainId refs source).mapError Raised.exception
  side.writes
  pure merged

/-- The token of the request gets the metadata of the token that was asked about. -/
def RemappedToken.share (remapped : RemappedToken) (metadata : Dict String TokenMetadata) : Dict String TokenMetadata :=
  match remapped.original with
  | none => metadata
  | some original =>
    match metadata.get? remapped.token.address with
    | none => metadata
    | some canonical => metadata.set original.address { canonical with address := original.address }

/-- The tokens of the request are observed, too, if others were asked about. -/
def MetadataSide.observe (remapped : List RemappedToken) : Except Raised Unit :=
  if remapped.any fun token => token.original.isSome then side.observes else .ok ()

/-- `metadata_for_address`. -/
def metadataForAddress (metadata : Dict String TokenMetadata) (token : TokenRef) :
    Except Exn TokenMetadataResponse := do
  let value ←
    match metadata.get? token.address with
    | some value => pure value
    | none => do
      let logoUrl ← tokenLogoUrl eth token.chainId token.address
      TokenMetadata.new eth token.chainId token.address token.symbol token.decimals (some logoUrl) (some "fallback")
  let logoUrl ← tokenLogoUrl eth value.chainId value.address
  pure { chainId := value.chainId, address := value.address, symbol := value.symbol, decimals := value.decimals
         logoUrl := some logoUrl }

end Tokens

section Metadata

variable {eth : EthUtils} {enabled : List Int} {side : MetadataSide} {chainId : Int} {refs : List TokenRef}
  {source : String}

private theorem mem_mergeCached {req : ResolveRequest} {cached hinted : Dict String TokenMetadata} {merged : Merged}
    (h : req.mergeCached eth cached hinted = .ok merged) :
    merged.map Prod.fst = req.addresses ∧
      ∀ p ∈ merged, Normalized eth p.1 → p.2.chainId = req.chainId ∧ p.2.address = p.1 := by
  have hturn (address : String) (p : String × TokenMetadata)
      (hp : (do
        let merged ← mergeMetadata eth req.chainId address (cached.get? address) (hinted.get? address) req.source
        pure (address, merged) : Except Exn (String × TokenMetadata)) = .ok p) :
      p.1 = address ∧ (Normalized eth address → p.2.chainId = req.chainId ∧ p.2.address = address) := by
    obtain ⟨m, hm, hpure⟩ := Eff.except_bind_eq_ok.1 hp
    obtain rfl := Except.ok.inj hpure
    refine ⟨rfl, fun hn => ?_⟩
    obtain ⟨hchain, haddress, -⟩ := mergeMetadata_spec hn hm
    exact ⟨hchain, haddress⟩
  constructor
  · have hmap := Eff.mapM_ok_map (g := Prod.fst) (k := id) h fun address _ p hp => (hturn address p hp).1
    rwa [List.map_id] at hmap
  · intro p hp hn
    obtain ⟨address, -, hf⟩ := Eff.mapM_ok_mem h hp
    obtain ⟨rfl, hspec⟩ := hturn address p hf
    exact hspec hn

private theorem mem_mergeOnchain {req : ResolveRequest} {answers : OnchainAnswers} {merged merged' : Merged}
    (h : req.mergeOnchain eth answers merged = .ok merged') :
    merged'.map Prod.fst = merged.map Prod.fst ∧
      ∀ p' ∈ merged', ∃ p ∈ merged, p'.1 = p.1 ∧
        (Normalized eth p.1 → p.2.chainId = req.chainId → p.2.address = p.1 →
          p'.2.chainId = req.chainId ∧ p'.2.address = p'.1) := by
  unfold ResolveRequest.mergeOnchain at h
  obtain ⟨turn, hrun, hturn⟩ : ∃ turn : String × TokenMetadata → Except Exn (String × TokenMetadata),
      merged.mapM turn = .ok merged' ∧ ∀ p p', turn p = .ok p' → p'.1 = p.1 ∧
        (Normalized eth p.1 → p.2.chainId = req.chainId → p.2.address = p.1 →
          p'.2.chainId = req.chainId ∧ p'.2.address = p'.1) := by
    refine ⟨_, h, fun p p' hp => ?_⟩
    cases hanswer : answers.get? p.1 with
    | none =>
      rw [hanswer] at hp
      obtain rfl := Except.ok.inj hp
      exact ⟨rfl, fun _ hchain haddress => ⟨hchain, haddress⟩⟩
    | some answer =>
      rw [hanswer] at hp
      obtain ⟨value, -, hp⟩ := Eff.except_bind_eq_ok.1 hp
      obtain ⟨m, hm, hpure⟩ := Eff.except_bind_eq_ok.1 hp
      obtain rfl := Except.ok.inj hpure
      refine ⟨rfl, fun hn _ _ => ?_⟩
      obtain ⟨hchain, haddress, -⟩ := mergeMetadata_spec hn hm
      exact ⟨hchain, haddress⟩
  constructor
  · exact Eff.mapM_ok_map hrun fun p _ p' hp => (hturn p p' hp).1
  · intro p' hp'
    obtain ⟨p, hp, hf⟩ := Eff.mapM_ok_mem hrun hp'
    exact ⟨p, hp, hturn p p' hf⟩

/-- A normal token of the request has its entry. -/
private theorem mergeRefs_get? {merged : Dict String TokenMetadata}
    (h : mergeRefs eth enabled side chainId refs source = .ok merged) {ref : TokenRef} (href : ref ∈ refs)
    (hn : Normalized eth ref.address) :
    ∃ m, merged.get? ref.address = some m ∧ m.chainId = chainId ∧ m.address = ref.address := by
  unfold mergeRefs at h
  by_cases hchain : chainId ∈ enabled
  · rw [if_pos hchain] at h
    obtain ⟨addresses, haddresses, h⟩ := Eff.except_bind_eq_ok.1 h
    have hmem : ref.address ∈ fromKeys addresses := by
      unfold fromKeys
      rw [List.mem_eraseDups]
      obtain ⟨address, haddress, heq⟩ := Eff.mapM_ok_of_mem haddresses href
      unfold Normalized at hn
      rw [hn] at heq
      rwa [Except.ok.inj heq]
    dsimp only at h
    rw [if_neg (List.ne_nil_of_mem hmem)] at h
    obtain ⟨cached, -, h⟩ := Eff.except_bind_eq_ok.1 h
    obtain ⟨hinted, -, h⟩ := Eff.except_bind_eq_ok.1 h
    obtain ⟨first, hfirst, h⟩ := Eff.except_bind_eq_ok.1 h
    obtain ⟨second, hsecond, h⟩ := Eff.except_bind_eq_ok.1 h
    obtain rfl := Except.ok.inj h
    obtain ⟨hkeys, hentries⟩ := mem_mergeCached hfirst
    obtain ⟨hkeys', hentries'⟩ := mem_mergeOnchain hsecond
    have hnodup : (second.map Prod.fst).Nodup := by
      rw [hkeys', hkeys]
      exact nodup_fromKeys addresses
    have hkey : ref.address ∈ second.map Prod.fst := by
      rw [hkeys', hkeys]
      exact hmem
    obtain ⟨⟨address, m⟩, hp, rfl⟩ := List.mem_map.1 hkey
    obtain ⟨p, hp₁, hsame, hspec⟩ := hentries' _ hp
    have hn₁ : Normalized eth p.1 := hsame ▸ hn
    obtain ⟨hchain₁, haddress₁⟩ := hentries p hp₁ hn₁
    obtain ⟨hchain₂, haddress₂⟩ := hspec hn₁ hchain₁ haddress₁
    exact ⟨m, Dict.get?_setMany_of_mem hnodup hp _, hchain₂, haddress₂⟩
  · rw [if_neg hchain] at h
    cases h

private theorem mergeRefs_of_resolveRefs {merged : Dict String TokenMetadata}
    (h : resolveRefs eth enabled side chainId refs source = .ok merged) :
    mergeRefs eth enabled side chainId refs source = .ok merged := by
  obtain ⟨merged', hmerged, h⟩ := Eff.except_bind_eq_ok.1 h
  obtain ⟨_, -, h⟩ := Eff.except_bind_eq_ok.1 h
  obtain rfl := Except.ok.inj h
  exact Eff.except_mapError_eq_ok hmerged

/-- The token that the response shows is the token that the request named; what is known of it is what is known of the
token that was asked about. -/
structure ShownToken (eth : EthUtils) (enabled : List Int) (side : MetadataSide) (chainId : Int) (token : String)
    (refs : List TokenRef) (source : String) (shown : TokenMetadataResponse) : Prop where
  chain : shown.chainId = chainId
  named : normalizeAddress eth token = .ok shown.address
  known : ∃ asked merged m, AskedAbout eth chainId token asked ∧
    mergeRefs eth enabled side chainId refs source = .ok merged ∧ merged.get? asked = some m ∧
    shown.symbol = m.symbol ∧ shown.decimals = m.decimals

/-- `metadata` has, under the address of the request, what `merged` has of the token that was asked about. -/
def RemappedToken.KnownIn (chainId : Int) (merged metadata : Dict String TokenMetadata) (remapped : RemappedToken) :
    Prop :=
  ∃ value m, metadata.get? remapped.named.address = some value ∧ merged.get? remapped.token.address = some m ∧
    value.chainId = chainId ∧ value.address = remapped.named.address ∧ value.symbol = m.symbol ∧
    value.decimals = m.decimals

/-- `merged` has the token that was asked about. -/
def RemappedToken.FoundIn (chainId : Int) (merged : Dict String TokenMetadata) (remapped : RemappedToken) : Prop :=
  ∃ m, merged.get? remapped.token.address = some m ∧ m.chainId = chainId ∧ m.address = remapped.token.address

section Share

variable {merged metadata : Dict String TokenMetadata} {token token' : String} {remapped remapped' : RemappedToken}

/-- A copy under a migrated address is no copy over a token that was asked about. -/
private theorem share_get?_token (hof : remapped.Of eth chainId token) (hof' : remapped'.Of eth chainId token')
    (metadata : Dict String TokenMetadata) :
    (remapped'.share metadata).get? remapped.token.address = metadata.get? remapped.token.address := by
  unfold RemappedToken.share
  cases horiginal : remapped'.original with
  | none => rfl
  | some original =>
    dsimp only
    cases metadata.get? remapped'.token.address with
    | none => rfl
    | some canonical =>
      refine Dict.get?_set_of_ne _ (fun hsame => ?_) _
      have hmigrated := hof'.migrated original horiginal
      rw [← hsame] at hmigrated
      exact hmigrated hof.settled

private theorem share_known (hfound : remapped.FoundIn chainId merged)
    (hsame : metadata.get? remapped.token.address = merged.get? remapped.token.address) :
    remapped.KnownIn chainId merged (remapped.share metadata) := by
  obtain ⟨m, hm, hchain, haddress⟩ := hfound
  rw [hm] at hsame
  unfold RemappedToken.KnownIn RemappedToken.share RemappedToken.named
  cases remapped.original with
  | none => exact ⟨m, m, hsame, hm, hchain, haddress, rfl, rfl⟩
  | some original =>
    dsimp only
    rw [hsame]
    exact ⟨_, m, Dict.get?_set_self _ _ _, hm, hchain, rfl, rfl, rfl⟩

/-- What is known stays known: another copy is under another address, or is the same one again. -/
theorem RemappedToken.KnownIn.share (hknown : remapped.KnownIn chainId merged metadata)
    (hof : remapped.Of eth chainId token) (hof' : remapped'.Of eth chainId token')
    (hfound' : remapped'.FoundIn chainId merged)
    (hsame : metadata.get? remapped'.token.address = merged.get? remapped'.token.address) :
    remapped.KnownIn chainId merged (remapped'.share metadata) := by
  by_cases haddress : remapped'.named.address = remapped.named.address
  · obtain ⟨named, hnamed, -, hshown⟩ := hof.named
    obtain ⟨named', hnamed', -, hshown'⟩ := hof'.named
    obtain ⟨asked, -, hasked, htoken⟩ := hof.asked
    obtain ⟨asked', -, hasked', htoken'⟩ := hof'.asked
    have hnormal : normalizeAddress eth token = normalizeAddress eth token' := by
      rw [hshown, hshown'] at haddress
      rw [hnamed, hnamed', show named' = named from haddress]
    obtain rfl := hasked.unique hasked' hnormal
    obtain ⟨value, m, hvalue, hm, hrest⟩ := share_known hfound' hsame
    rw [haddress] at hvalue hrest
    rw [htoken'] at hm
    exact ⟨value, m, hvalue, by rwa [htoken], hrest⟩
  · obtain ⟨value, m, hvalue, hm, hrest⟩ := hknown
    refine ⟨value, m, ?_, hm, hrest⟩
    rw [← hvalue]
    unfold RemappedToken.share
    cases horiginal : remapped'.original with
    | none => rfl
    | some original =>
      dsimp only
      cases metadata.get? remapped'.token.address with
      | none => rfl
      | some canonical =>
        refine Dict.get?_set_of_ne _ (fun heq => haddress ?_) _
        unfold RemappedToken.named at heq ⊢
        rw [horiginal]
        exact heq.symm

/-- After the copies all tokens of the request are known. -/
private theorem share_all {all remappeds : List RemappedToken} (hall : ∀ r ∈ all, (∃ token, r.Of eth chainId token) ∧
      r.FoundIn chainId merged) (hsub : ∀ r ∈ remappeds, r ∈ all)
    (hsame : ∀ r ∈ all, metadata.get? r.token.address = merged.get? r.token.address) :
    ∀ r ∈ all, r ∈ remappeds ∨ r.KnownIn chainId merged metadata →
      r.KnownIn chainId merged (remappeds.foldl (fun metadata token => token.share metadata) metadata) := by
  induction remappeds generalizing metadata with
  | nil =>
    intro r _ h
    exact h.resolve_left (by simp)
  | cons r' rest ih =>
    rw [List.forall_mem_cons] at hsub
    obtain ⟨⟨token', hof'⟩, hfound'⟩ := hall r' hsub.1
    intro r hr h
    refine ih hsub.2 (fun r hr => ?_) r hr ?_
    · obtain ⟨⟨token, hof⟩, -⟩ := hall r hr
      rw [share_get?_token hof hof', hsame r hr]
    · obtain ⟨⟨token, hof⟩, -⟩ := hall r hr
      rcases h with hmem | hknown
      · rcases List.mem_cons.1 hmem with rfl | hmem
        · exact .inr (share_known hfound' (hsame r hr))
        · exact .inl hmem
      · exact .inr (hknown.share hof hof' hfound' (hsame r' hsub.1))

end Share

theorem shown_token {merged metadata : Dict String TokenMetadata} {token : String} {remapped : RemappedToken}
    (hof : remapped.Of eth chainId token) (hmerged : mergeRefs eth enabled side chainId refs source = .ok merged)
    (hknown : remapped.KnownIn chainId merged metadata) {shown : TokenMetadataResponse}
    (h : metadataForAddress eth metadata remapped.named = .ok shown) :
    ShownToken eth enabled side chainId token refs source shown := by
  obtain ⟨address, haddress, -, hnamed⟩ := hof.named
  obtain ⟨asked, -, hasked, htoken⟩ := hof.asked
  obtain ⟨value, m, hvalue, hm, hchain, hkey, hsymbol, hdecimals⟩ := hknown
  rw [htoken] at hm
  unfold metadataForAddress at h
  rw [hvalue] at h
  obtain ⟨value', hvalue', h⟩ := Eff.except_bind_eq_ok.1 h
  obtain rfl := Except.ok.inj hvalue'
  obtain ⟨logoUrl, -, h⟩ := Eff.except_bind_eq_ok.1 h
  obtain rfl := Except.ok.inj h
  refine ⟨hchain, ?_, asked, merged, m, hasked, hmerged, hm, hsymbol, hdecimals⟩
  show normalizeAddress eth token = .ok value.address
  rw [haddress, hkey, hnamed]

/-! Nothing that a request finds of its tokens makes it fail. -/

/-- The address has been through the validator of a model. -/
def Validated (eth : EthUtils) (address : String) : Prop := ∃ raw, normalizeAddress eth raw = .ok address

private theorem tokenMetadata_new_returns (chainId : Int) {address : String} (hn : Normalized eth address)
    (symbol : Option String) (decimals : Option Int) (logoUrl source : Option String) :
    TokenMetadata.new eth chainId address symbol decimals logoUrl source =
      .ok { chainId, address, symbol, decimals, logoUrl, source } := by
  unfold Normalized at hn
  unfold TokenMetadata.new
  rw [hn]
  rfl

private theorem tokenLogoUrl_returns (hpos : 0 < chainId) {address : String} (hn : Normalized eth address) :
    ∃ url, tokenLogoUrl eth chainId address = .ok url := by
  unfold Normalized at hn
  unfold tokenLogoUrl
  rw [if_neg (by omega), hn]
  exact ⟨_, rfl⟩

private theorem mergeMetadata_returns (hpos : 0 < chainId) {address : String} (hn : Normalized eth address)
    (cached hint : Option TokenMetadata) (defaultSource : String) :
    ∃ merged, mergeMetadata eth chainId address cached hint defaultSource = .ok merged := by
  obtain ⟨url, hurl⟩ := tokenLogoUrl_returns hpos hn
  have hnew := tokenMetadata_new_returns chainId hn
  unfold Normalized at hn
  unfold mergeMetadata
  simp only [hn, hurl, hnew, bind, Except.bind]
  exact ⟨_, rfl⟩

private theorem hintsFromRefs_returns
    (hlaw : eth.Lawful) (hpos : 0 < chainId) (hrefs : ∀ ref ∈ refs, Validated eth ref.address)
    (out : Dict String TokenMetadata) : ∃ hinted, hintsFromRefs eth chainId refs out = .ok hinted := by
  induction refs generalizing out with
  | nil => exact ⟨out, rfl⟩
  | cons ref refs ih =>
    rw [List.forall_mem_cons] at hrefs
    obtain ⟨⟨raw, hraw⟩, hrest⟩ := hrefs
    obtain ⟨address, haddress⟩ := normalizeAddress_again hlaw hraw
    have hn := normalized_of_twice hlaw hraw haddress
    obtain ⟨merged, hmerged⟩ := mergeMetadata_returns hpos hn (out.get? address)
      (some { chainId, address, symbol := ref.symbol, decimals := ref.decimals, logoUrl := none
              source := some "provider" })
      "provider"
    obtain ⟨hinted, hhinted⟩ := ih hrest (out.set address merged)
    refine ⟨hinted, ?_⟩
    unfold hintsFromRefs
    simp only [haddress, tokenMetadata_new_returns chainId hn, hmerged, bind, Except.bind]
    exact hhinted

private theorem getMany_returns (chainId : Int) {addresses : List String} (hn : ∀ a ∈ addresses, Normalized eth a)
    (table : MetadataTable) :
    ∃ cached, getMany eth chainId addresses table = .ok cached := by
  have hself : addresses.mapM (normalizeAddress eth) = .ok addresses := Eff.mapM_eq_ok.2 (List.forall₂_same.2 hn)
  have hrows (normal : List String) (hnormal : ∀ a ∈ normal, Normalized eth a) (out : Dict String TokenMetadata) :
      ∃ rows, metadataOfRows eth chainId table normal out = .ok rows := by
    induction normal generalizing out with
    | nil => exact ⟨out, rfl⟩
    | cons a normal ih =>
      rw [List.forall_mem_cons] at hnormal
      unfold metadataOfRows
      cases hrow : table.get? (chainId, a) with
      | none => exact ih hnormal.2 out
      | some row =>
        simp only [tokenMetadata_new_returns chainId hnormal.1, bind, Except.bind]
        exact ih hnormal.2 _
  unfold getMany normalizeAddresses
  rw [hself]
  exact hrows (fromKeys addresses) (fun a ha => hn a (List.mem_eraseDups.1 ha)) .empty

/-- On an enabled chain every list of tokens that went through the validator is resolved. -/
private theorem mergeRefs_returns (side : MetadataSide) (source : String) (hlaw : eth.Lawful) (hpos : 0 < chainId)
    (henabled : chainId ∈ enabled) (hrefs : ∀ ref ∈ refs, Validated eth ref.address) :
    ∃ merged, mergeRefs eth enabled side chainId refs source = .ok merged := by
  obtain ⟨addresses, haddresses⟩ : ∃ addresses, refs.mapM (fun ref => normalizeAddress eth ref.address) =
      .ok addresses := by
    refine Eff.mapM_ok_iff.2 fun ref href => ?_
    obtain ⟨raw, hraw⟩ := hrefs ref href
    exact normalizeAddress_again hlaw hraw
  have hn : ∀ a ∈ fromKeys addresses, Normalized eth a := by
    intro a ha
    obtain ⟨ref, href, hnormal⟩ := Eff.mapM_ok_mem haddresses (List.mem_eraseDups.1 ha)
    obtain ⟨raw, hraw⟩ := hrefs ref href
    exact normalized_of_twice hlaw hraw hnormal
  let req : ResolveRequest := { chainId, addresses := fromKeys addresses, refs, source }
  obtain ⟨cached, hcached⟩ := getMany_returns chainId hn side.table
  obtain ⟨hinted, hhinted⟩ := hintsFromRefs_returns hlaw hpos hrefs .empty
  obtain ⟨first, hfirst⟩ : ∃ first, req.mergeCached eth cached hinted = .ok first := by
    refine Eff.mapM_ok_iff.2 fun a ha => ?_
    obtain ⟨m, hm⟩ := mergeMetadata_returns hpos (hn a ha) (cached.get? a) (hinted.get? a) source
    exact ⟨(a, m), Eff.except_bind_eq_ok.2 ⟨m, hm, rfl⟩⟩
  let answers := side.answers.filter fun p => p.1 ∈ unresolved first
  obtain ⟨second, hsecond⟩ : ∃ second, req.mergeOnchain eth answers first = .ok second := by
    refine Eff.mapM_ok_iff.2 fun p hp => ?_
    have hkey : p.1 ∈ fromKeys addresses := by
      have hkeys : first.map Prod.fst = fromKeys addresses := (mem_mergeCached hfirst).1
      rw [← hkeys]
      exact List.mem_map_of_mem hp
    cases hanswer : answers.get? p.1 with
    | none => exact ⟨p, rfl⟩
    | some answer =>
      obtain ⟨m, hm⟩ := mergeMetadata_returns hpos (hn p.1 hkey) (some p.2)
        (some { chainId, address := p.1, symbol := answer.1, decimals := answer.2, logoUrl := none
                source := some "onchain_multicall" }) "onchain_multicall"
      refine ⟨(p.1, m), Eff.except_bind_eq_ok.2 ⟨_, tokenMetadata_new_returns chainId (hn p.1 hkey) _ _ _ _, ?_⟩⟩
      exact Eff.except_bind_eq_ok.2 ⟨m, hm, rfl⟩
  unfold mergeRefs
  rw [if_pos henabled]
  by_cases hempty : fromKeys addresses = []
  · refine ⟨.empty, Eff.except_bind_eq_ok.2 ⟨addresses, haddresses, ?_⟩⟩
    rw [if_pos hempty]
    rfl
  · refine ⟨Dict.empty.setMany second, Eff.except_bind_eq_ok.2 ⟨addresses, haddresses, ?_⟩⟩
    rw [if_neg hempty]
    refine Eff.except_bind_eq_ok.2 ⟨cached, hcached, Eff.except_bind_eq_ok.2 ⟨hinted, hhinted, ?_⟩⟩
    exact Eff.except_bind_eq_ok.2 ⟨first, hfirst, Eff.except_bind_eq_ok.2 ⟨second, hsecond, rfl⟩⟩

/-- The token of the request is shown. -/
theorem metadataForAddress_returns (hpos : 0 < chainId) {merged metadata : Dict String TokenMetadata} {token : String}
    {remapped : RemappedToken} (hof : remapped.Of eth chainId token)
    (hknown : remapped.KnownIn chainId merged metadata) :
    ∃ shown, metadataForAddress eth metadata remapped.named = .ok shown := by
  obtain ⟨value, m, hget, -, hchain, haddress, -, -⟩ := hknown
  obtain ⟨named, -, hnormal, hnamed⟩ := hof.named
  have hn : Normalized eth value.address := by
    rw [haddress, hnamed]
    exact hnormal
  obtain ⟨url, hurl⟩ := tokenLogoUrl_returns hpos hn
  unfold metadataForAddress
  rw [hget]
  refine ⟨_, Eff.except_bind_eq_ok.2 ⟨value, rfl, Eff.except_bind_eq_ok.2 ⟨url, ?_, rfl⟩⟩⟩
  rw [hchain]
  exact hurl

end Metadata

/-! ### The references of a response -/

section References

variable {R : Type} (eth : EthUtils) (chainId : Int) (tokens : R → List TokenRef) (underlyings : R → List String)

/-- The tokens of a result, and those its vault context names. -/
def resultRefs (result : R) : Except Exn (List TokenRef) :=
  ((underlyings result).mapM fun underlying => TokenRef.new eth chainId underlying none none).map (tokens result ++ ·)

/-- The references of `resolve_from_price_results` and `resolve_from_quote_results`. -/
def responseRefs (requestTokens : List TokenRef) (results : List R) : Except Exn (List TokenRef) := do
  let refs ← results.mapM (resultRefs eth chainId tokens underlyings)
  pure (requestTokens ++ refs.flatten)

variable {eth chainId tokens underlyings} {requestTokens refs : List TokenRef} {results : List R}

private theorem mem_responseRefs (h : responseRefs eth chainId tokens underlyings requestTokens results = .ok refs)
    {ref : TokenRef} (href : ref ∈ requestTokens) : ref ∈ refs := by
  obtain ⟨rest, -, hpure⟩ := Eff.except_bind_eq_ok.1 h
  obtain rfl := Except.ok.inj hpure
  exact List.mem_append_left _ href

private theorem resultRefs_returns
    (hlaw : eth.Lawful) {r : R} (htokens : ∀ token ∈ tokens r, Validated eth token.address)
    (hunderlyings : ∀ underlying ∈ underlyings r, Validated eth underlying) :
    ∃ refs, resultRefs eth chainId tokens underlyings r = .ok refs ∧ ∀ ref ∈ refs, Validated eth ref.address := by
  obtain ⟨found, hfound⟩ : ∃ found,
      (underlyings r).mapM (fun underlying => TokenRef.new eth chainId underlying none none) = .ok found := by
    refine Eff.mapM_ok_iff.2 fun underlying hmem => ?_
    obtain ⟨raw, hraw⟩ := hunderlyings underlying hmem
    obtain ⟨address, haddress⟩ := normalizeAddress_again hlaw hraw
    exact ⟨_, Eff.except_map_eq_ok.2 ⟨address, haddress, rfl⟩⟩
  refine ⟨tokens r ++ found, Eff.except_map_eq_ok.2 ⟨found, hfound, rfl⟩, ?_⟩
  intro ref href
  rcases List.mem_append.1 href with href | href
  · exact htokens ref href
  · obtain ⟨underlying, -, hnew⟩ := Eff.mapM_ok_mem hfound href
    obtain ⟨address, haddress, rfl⟩ := Eff.except_map_eq_ok.1 hnew
    exact ⟨underlying, haddress⟩

private theorem responseRefs_returns (chainId : Int) (hlaw : eth.Lawful)
    (hrequest : ∀ ref ∈ requestTokens, Validated eth ref.address)
    (hresults : ∀ r ∈ results, (∀ token ∈ tokens r, Validated eth token.address) ∧
      ∀ underlying ∈ underlyings r, Validated eth underlying) :
    ∃ refs, responseRefs eth chainId tokens underlyings requestTokens results = .ok refs ∧
      ∀ ref ∈ refs, Validated eth ref.address := by
  obtain ⟨rest, hrest⟩ : ∃ rest, results.mapM (resultRefs eth chainId tokens underlyings) = .ok rest := by
    refine Eff.mapM_ok_iff.2 fun r hr => ?_
    obtain ⟨htokens, hunderlyings⟩ := hresults r hr
    obtain ⟨refs, hrefs, -⟩ := resultRefs_returns hlaw htokens hunderlyings
    exact ⟨refs, hrefs⟩
  refine ⟨requestTokens ++ rest.flatten, Eff.except_bind_eq_ok.2 ⟨rest, hrest, rfl⟩, ?_⟩
  intro ref href
  rcases List.mem_append.1 href with href | href
  · exact hrequest ref href
  · obtain ⟨refs, hrefs, hmem⟩ := List.mem_flatten.1 href
    obtain ⟨r, hr, heq⟩ := Eff.mapM_ok_mem hrest hrefs
    obtain ⟨htokens, hunderlyings⟩ := hresults r hr
    obtain ⟨found, hfound, hvalidated⟩ := resultRefs_returns hlaw htokens hunderlyings
    obtain rfl := Except.ok.inj (hfound.symm.trans heq)
    exact hvalidated ref hmem

/-! The metadata of a response. -/

/-- What the handlers do after the aggregate call, up to the tokens they show. -/
def responseMetadata {V Req R' : Type} (eth : EthUtils) (enabled : List Int) (side : MetadataSide) (chainId : Int)
    (tokens : R → List TokenRef) (underlyings : R → List String) (remapped : List RemappedToken) (results : List R) :
    Route V Req R' (Dict String TokenMetadata) := do
  let refs ← raises (responseRefs eth chainId tokens underlyings (remapped.map RemappedToken.token) results)
  let metadata ← awaits (resolveRefs eth enabled side chainId refs "provider")
  let _ ← awaits (side.observe remapped)
  pure (remapped.foldl (fun metadata token => token.share metadata) metadata)

variable {V Req R' : Type} {enabled : List Int} {side : MetadataSide} {remapped : List RemappedToken}
  {metadata : Dict String TokenMetadata} {w w' : AggregatorWorld V Req R'}

/-- A token of the request that was asked about is found. -/
private theorem found_token {merged : Dict String TokenMetadata} {source : String}
    (hmerged : mergeRefs eth enabled side chainId refs source = .ok merged) {token : RemappedToken} {text : String}
    (hof : token.Of eth chainId text) (hmem : token.token ∈ refs) : token.FoundIn chainId merged := by
  obtain ⟨asked, hnormal, -, htoken⟩ := hof.asked
  exact mergeRefs_get? hmerged hmem (by rwa [htoken])

theorem responseMetadata_ok
    (h : responseMetadata eth enabled side chainId tokens underlyings remapped results w = (.ok metadata, w')) :
    w' = w ∧ ∃ refs merged,
      responseRefs eth chainId tokens underlyings (remapped.map RemappedToken.token) results = .ok refs ∧
      mergeRefs eth enabled side chainId refs "provider" = .ok merged ∧
      metadata = remapped.foldl (fun metadata token => token.share metadata) merged := by
  obtain ⟨refs, w₁, hrefsRun, h₁⟩ := bind_eq_ok.1 h
  obtain ⟨hrefs, rfl⟩ := Eff.ofExcept_eq_ok hrefsRun
  obtain ⟨merged, w₂, hmergedRun, h₂⟩ := bind_eq_ok.1 h₁
  obtain ⟨hresolved, rfl⟩ := Eff.ofExcept_eq_ok hmergedRun
  obtain ⟨u, w₃, hobserved, hpure⟩ := bind_eq_ok.1 h₂
  obtain ⟨-, rfl⟩ := Eff.ofExcept_eq_ok hobserved
  cases hpure
  exact ⟨rfl, refs, merged, hrefs, mergeRefs_of_resolveRefs hresolved, rfl⟩

/-- The metadata has all the tokens of the request. -/
theorem responseMetadata_known (hof : ∀ token ∈ remapped, ∃ text, token.Of eth chainId text)
    (h : responseMetadata eth enabled side chainId tokens underlyings remapped results w = (.ok metadata, w')) :
    ∃ refs merged, responseRefs eth chainId tokens underlyings (remapped.map RemappedToken.token) results = .ok refs ∧
      mergeRefs eth enabled side chainId refs "provider" = .ok merged ∧
      ∀ token ∈ remapped, token.KnownIn chainId merged metadata := by
  obtain ⟨-, refs, merged, hrefs, hmerged, rfl⟩ := responseMetadata_ok h
  have hall : ∀ token ∈ remapped, (∃ text, token.Of eth chainId text) ∧ token.FoundIn chainId merged := by
    intro token htoken
    obtain ⟨text, htext⟩ := hof token htoken
    exact ⟨⟨text, htext⟩, found_token hmerged htext (mem_responseRefs hrefs (List.mem_map_of_mem htoken))⟩
  refine ⟨refs, merged, hrefs, hmerged, fun token htoken => ?_⟩
  exact share_all hall (fun _ h => h) (fun _ _ => rfl) token htoken (.inl htoken)

/-- On an enabled chain the metadata of the results is found, if the database answers. -/
theorem responseMetadata_returns (hlaw : eth.Lawful) (hpos : 0 < chainId) (henabled : chainId ∈ enabled)
    (hwrites : side.writes = .ok ()) (hobserves : side.observes = .ok ())
    (hof : ∀ token ∈ remapped, ∃ text, token.Of eth chainId text)
    (hresults : ∀ r ∈ results, (∀ token ∈ tokens r, Validated eth token.address) ∧
      ∀ underlying ∈ underlyings r, Validated eth underlying) (w : AggregatorWorld V Req R') :
    ∃ metadata,
      responseMetadata eth enabled side chainId tokens underlyings remapped results w = (.ok metadata, w) := by
  have hrequested : ∀ ref ∈ remapped.map RemappedToken.token, Validated eth ref.address := by
    intro ref href
    obtain ⟨token, htoken, rfl⟩ := List.mem_map.1 href
    obtain ⟨text, htext⟩ := hof token htoken
    obtain ⟨asked, hnormal, -, hrequest⟩ := htext.asked
    rw [hrequest]
    exact ⟨asked, hnormal⟩
  obtain ⟨refs, hrefs, hvalidated⟩ := responseRefs_returns chainId hlaw hrequested hresults
  obtain ⟨merged, hmerged⟩ := mergeRefs_returns side "provider" hlaw hpos henabled hvalidated
  have hresolved : resolveRefs eth enabled side chainId refs "provider" = .ok merged := by
    unfold resolveRefs
    rw [hmerged, hwrites]
    rfl
  have hobserved : side.observe remapped = .ok () := by
    unfold MetadataSide.observe
    rw [hobserves]
    split <;> rfl
  refine ⟨remapped.foldl (fun metadata token => token.share metadata) merged, ?_⟩
  unfold responseMetadata
  rw [hrefs]
  refine bind_eq_ok.2 ⟨refs, w, rfl, ?_⟩
  rw [hresolved]
  refine bind_eq_ok.2 ⟨merged, w, rfl, ?_⟩
  rw [hobserved]
  exact bind_eq_ok.2 ⟨(), w, rfl, rfl⟩

end References

/-! ### The aggregate call -/

/-- What `aggregate_with_provider_order` returns. -/
structure Aggregated (R S : Type) where
  results : List R
  summary : S
  providerOrder : List String
  byProvider : Dict String R

section Aggregate

variable {V Req A R C S E : Type} [ProviderResult R]

/-- The head of `aggregate_prices` and `aggregate_quotes`: the registry picks the plugins of the call. -/
def aggregateSelected (registry : ProviderRegistry) (operation : ProviderRegistry.Operation)
    (providerIds : Option (List String)) (chainId : Int)
    (call : List ProviderPlugin → Aggregator.Call V Req R (List R × S × Bool)) :
    Aggregator.Call V Req R (List R × S × Bool) := do
  let selected ← Aggregator.ofExcept (registry.resolve providerIds operation chainId)
  call selected

def aggregateWithProviderOrder (call : Aggregator.Call V Req R (List R × S × Bool)) (requested : Option (List String))
    (priority : List String) : Route V Req R (Aggregated R S) := do
  let (results, summary, _) ← Eff.mapError HttpFailure.ofCall call
  pure { results, summary, byProvider := indexResults results
         providerOrder := buildProviderOrder (results.map ProviderResult.provider) requested priority }

/-- The loop that fills `providers_payload`. -/
def providersPayload (entry : R → E) (aggregated : Aggregated R S) : Dict String E :=
  Dict.empty.setMany (aggregated.providerOrder.filterMap fun providerId =>
    (aggregated.byProvider.get? providerId).map fun result => (providerId, entry result))

/-! What a call that returns has returned. -/

variable {settings : Settings} {agg : Aggregation Req R C S} {op : Operation Req A R} {env : AggregatorEnv V Req A}
  {selected : List ProviderPlugin} {timeoutMs : Option Int} {req : Req} {resolved : ResolvedRequest Req C}
  {w w' : AggregatorWorld V Req R}

/-- `P` holds of what the runner and the aggregator make, and survives the translation of vault shares. -/
structure Carries (agg : Aggregation Req R C S) (op : Operation Req A R) (env : AggregatorEnv V Req A) (P : R → Prop) :
    Prop where
  run : ∀ req, Runner.Establishes op env.schedule req P
  failure : ∀ plugin req failure r, agg.failure plugin req failure = .ok r → P r
  apply : ∀ req raw context applied, agg.applyContext req raw context = .ok applied → (∀ r ∈ raw, P r) →
    ∀ r ∈ applied, P r

/-- A failure is that of its plugin, and the translation of vault shares leaves the providers as they are. -/
structure KeepsProviders (agg : Aggregation Req R C S) : Prop where
  failure : ∀ plugin req failure r, agg.failure plugin req failure = .ok r → ProviderResult.provider r = plugin.id
  apply : ∀ req raw context applied, agg.applyContext req raw context = .ok applied →
    applied.map ProviderResult.provider = raw.map ProviderResult.provider

theorem map_providers {Rel : R → R → Prop} {raw applied : List R} (h : List.Forall₂ Rel raw applied)
    (hRel : ∀ r r', Rel r r' → ProviderResult.provider r' = ProviderResult.provider r) :
    applied.map ProviderResult.provider = raw.map ProviderResult.provider := by
  induction h with
  | nil => rfl
  | cons hr _ ih => rw [List.map_cons, List.map_cons, hRel _ _ hr, ih]

omit [ProviderResult R] in
theorem forall_mem_of_forall₂ {Rel : R → R → Prop} {P Q : R → Prop} {raw applied : List R}
    (h : List.Forall₂ Rel raw applied) (hRel : ∀ r r', Rel r r' → P r → Q r') (hraw : ∀ r ∈ raw, P r) :
    ∀ r ∈ applied, Q r := by
  induction h with
  | nil => simp
  | cons hr _ ih =>
    rw [List.forall_mem_cons] at hraw ⊢
    exact ⟨hRel _ _ hr hraw.1, ih hraw.2⟩

private theorem runOperation_providers {deadlineMs : Int} {r r' : World R} {schedule : Schedule Req A} {given : List R}
    (h : Runner.runOperation settings op schedule req selected deadlineMs r = (.ok given, r')) :
    (given.map ProviderResult.provider).Perm (selected.map ProviderPlugin.id) := by
  obtain ⟨r₁, results, -, haccounted, htasks, rfl⟩ := Runner.runOperation_ok h
  rw [List.map_append]
  have htasked := Runner.taskResults_providers htasks
  exact ((htasked.append_right _).trans List.perm_append_comm).trans haccounted.providers

omit [ProviderResult R] in
private theorem vaultResolutionFailures_mem {failure : VaultResolutionFailure} {raw : List R}
    (h : Aggregator.vaultResolutionFailures agg selected req failure = .ok raw) :
    List.Forall₂ (fun plugin r => agg.failure plugin req failure = .ok r) selected raw := by
  obtain ⟨s, hrun⟩ : ∃ s, Eff.mapEach (fun plugin => Eff.ofExcept (agg.failure plugin req failure)) selected () =
      (.ok raw, s) := ⟨_, Prod.ext h rfl⟩
  refine List.Forall₂.imp (fun plugin r hr => ?_) (Eff.mapEach_ok hrun)
  obtain ⟨t, t', hturn⟩ := hr
  exact (Prod.mk.inj hturn).1

/-- One result for each plugin goes into the translation. -/
private theorem aggregate_raw (hkeeps : KeepsProviders agg) {resolve : Eff V Raised (ResolvedRequest Req C)}
    {returned : List R × S × Bool}
    (h : Aggregator.aggregate settings agg op env resolve selected req timeoutMs w = (.ok returned, w')) :
    ∃ resolved raw, Aggregator.finish agg req resolved raw = .ok returned ∧
      (raw.map ProviderResult.provider).Perm (selected.map ProviderPlugin.id) ∧
      ∀ P, Carries agg op env P → ∀ r ∈ raw, P r := by
  obtain ⟨hselected, resolved, v', hresolve⟩ := Aggregator.resolve_of_aggregate h
  by_cases hfailed : ∃ failure, resolved.status = .failed failure
  · obtain ⟨failure, hstatus⟩ := hfailed
    obtain ⟨request, status⟩ := resolved
    subst hstatus
    obtain ⟨-, houtcome⟩ := Aggregator.aggregate_failed hselected hresolve h
    obtain ⟨raw, hfailures, hfinish⟩ := Eff.except_bind_eq_ok.1 (Eff.except_mapError_eq_ok houtcome.symm)
    have hforall := vaultResolutionFailures_mem hfailures
    refine ⟨⟨request, .failed failure⟩, raw, hfinish, ?_, ?_⟩
    · have hids : selected.map ProviderPlugin.id = raw.map ProviderResult.provider := by
        rw [← List.forall₂_eq_eq_eq, List.forall₂_map_left_iff, List.forall₂_map_right_iff]
        exact hforall.imp fun plugin r hr => (hkeeps.failure plugin req failure r hr).symm
      rw [hids]
    · intro P hP r hr
      obtain ⟨plugin, -, hplugin⟩ := Eff.mapM_ok_mem (Eff.mapM_eq_ok.2 hforall) hr
      exact hP.failure plugin req failure r hplugin
  · have hstatus : ∀ failure, resolved.status ≠ .failed failure := fun failure hs => hfailed ⟨failure, hs⟩
    obtain ⟨-, hreturned⟩ := Aggregator.aggregate_run hselected hresolve hstatus h
    obtain ⟨raw, ⟨r', hrun⟩, hfinish⟩ := hreturned returned rfl
    exact ⟨resolved, raw, hfinish, runOperation_providers hrun, fun P hP => (hP.run _).of_returned hrun⟩

theorem finish_spec {raw : List R} {returned : List R × S × Bool}
    (h : Aggregator.finish agg req resolved raw = .ok returned) :
    ∃ applied, agg.applyContext req raw resolved.status.context? = .ok applied ∧ returned.1 = sortResults applied ∧
      agg.summary returned.1 = .ok returned.2.1 := by
  unfold Aggregator.finish at h
  obtain ⟨applied, happlied, h⟩ := Eff.except_bind_eq_ok.1 h
  obtain ⟨summary, hsummary, h⟩ := Eff.except_bind_eq_ok.1 h
  obtain rfl := Except.ok.inj h
  exact ⟨applied, happlied, rfl, hsummary⟩

/-- The results of a call: one for each plugin, of the kind the call carries, and what is made of them. -/
structure Served (agg : Aggregation Req R C S) (op : Operation Req A R) (env : AggregatorEnv V Req A)
    (selected : List ProviderPlugin) (requested : Option (List String)) (priority : List String)
    (aggregated : Aggregated R S) : Prop where
  providers : (aggregated.results.map ProviderResult.provider).Perm (selected.map ProviderPlugin.id)
  carried : ∀ P, Carries agg op env P → ∀ r ∈ aggregated.results, P r
  summary : agg.summary aggregated.results = .ok aggregated.summary
  order : aggregated.providerOrder =
    buildProviderOrder (aggregated.results.map ProviderResult.provider) requested priority
  index : aggregated.byProvider = indexResults aggregated.results

/-- The results that the route gets. -/
theorem aggregate_served (hkeeps : KeepsProviders agg) {registry : ProviderRegistry}
    {operation : ProviderRegistry.Operation} {requested : Option (List String)} {priority : List String} {chainId : Int}
    {resolve : Eff V Raised (ResolvedRequest Req C)} {aggregated : Aggregated R S}
    (h : aggregateWithProviderOrder
      (aggregateSelected registry operation requested chainId fun selected =>
        Aggregator.aggregate settings agg op env resolve selected req timeoutMs) requested priority w =
      (.ok aggregated, w')) :
    ∃ selected, registry.resolve requested operation chainId = .ok selected ∧
      (∃ failed, Aggregator.aggregate settings agg op env resolve selected req timeoutMs w =
        (.ok (aggregated.results, aggregated.summary, failed), w')) ∧
      Served agg op env selected requested priority aggregated := by
  obtain ⟨⟨results, summary, failed⟩, w₁, hmapped, hpure⟩ := bind_eq_ok.1 h
  cases hpure
  obtain ⟨selected, w₂, hselected, hcall⟩ := bind_eq_ok.1 (Eff.mapError_eq_ok hmapped)
  obtain ⟨hresolve, rfl⟩ := Eff.ofExcept_eq_ok hselected
  obtain ⟨resolved, raw, hfinish, hproviders, hcarries⟩ := aggregate_raw hkeeps hcall
  obtain ⟨applied, happlied, hsorted, hsummary⟩ := finish_spec hfinish
  have hperm : results.Perm applied := by
    rw [show results = sortResults applied from hsorted]
    exact sortResults_perm applied
  refine ⟨selected, hresolve, ⟨failed, hcall⟩, ?_, ?_, hsummary, rfl, rfl⟩
  · have hmap : (results.map ProviderResult.provider).Perm (applied.map ProviderResult.provider) := hperm.map _
    rw [hkeeps.apply _ _ _ _ happlied] at hmap
    exact hmap.trans hproviders
  · intro P hP r hr
    exact hP.apply _ _ _ _ happlied (hcarries P hP) r (hperm.mem_iff.1 hr)

/-- The payload of the providers: the order of the response, and the entry of each result under its provider. -/
private theorem Served.payload {requested : Option (List String)} {priority : List String} {aggregated : Aggregated R S}
    (h : Served agg op env selected requested priority aggregated) (hids : (selected.map ProviderPlugin.id).Nodup)
    (entry : R → E) :
    (providersPayload entry aggregated).items.map Prod.fst = aggregated.providerOrder ∧
      (providersPayload entry aggregated).items.Perm
        (aggregated.results.map fun r => (ProviderResult.provider r, entry r)) := by
  have hd : (aggregated.results.map ProviderResult.provider).Nodup := h.providers.nodup_iff.2 hids
  have horder := buildProviderOrder_spec hd requested priority
  rw [← h.order] at horder
  have hfound (providerId : String) (r : R) :
      aggregated.byProvider.get? providerId = some r ↔
        r ∈ aggregated.results ∧ ProviderResult.provider r = providerId := by
    rw [h.index]
    exact get?_indexResults hd
  let pairs := aggregated.providerOrder.filterMap fun providerId =>
    (aggregated.byProvider.get? providerId).map fun result => (providerId, entry result)
  -- every provider of the order has its result
  have hkeys : pairs.map Prod.fst = aggregated.providerOrder := by
    rw [List.map_filterMap]
    have hall : ∀ providerId ∈ aggregated.providerOrder,
        ((aggregated.byProvider.get? providerId).map fun result => (providerId, entry result)).map Prod.fst =
          some providerId := by
      intro providerId hmem
      obtain ⟨r, hr, hprovider⟩ := List.mem_map.1 (horder.perm.mem_iff.1 hmem)
      rw [(hfound providerId r).2 ⟨hr, hprovider⟩]
      rfl
    rw [List.filterMap_congr hall, List.filterMap_some]
  have hnodup : (pairs.map Prod.fst).Nodup := hkeys ▸ horder.nodup
  have hitems : (providersPayload entry aggregated).items = pairs := by
    unfold providersPayload
    rw [Dict.items_setMany hnodup (by simp)]
    rfl
  rw [hitems]
  refine ⟨hkeys, ?_⟩
  have hpairs : (aggregated.results.map fun r => (ProviderResult.provider r, entry r)).Nodup := by
    apply List.Nodup.of_map Prod.fst
    rwa [List.map_map]
  refine (List.perm_ext_iff_of_nodup hnodup.of_map hpairs).2 ?_
  rintro ⟨providerId, e⟩
  rw [List.mem_filterMap, List.mem_map]
  constructor
  · rintro ⟨id, -, hid⟩
    obtain ⟨r, hr, heq⟩ := Option.map_eq_some_iff.1 hid
    obtain ⟨rfl, rfl⟩ := Prod.mk.inj heq
    obtain ⟨hmem, hprovider⟩ := (hfound id r).1 hr
    exact ⟨r, hmem, by rw [hprovider]⟩
  · rintro ⟨r, hr, heq⟩
    obtain ⟨rfl, rfl⟩ := Prod.mk.inj heq
    refine ⟨ProviderResult.provider r, horder.perm.mem_iff.2 (List.mem_map_of_mem hr), ?_⟩
    rw [(hfound _ r).2 ⟨hr, rfl⟩]
    rfl

/-- The entries of a response: those of the results, in the order of the response. -/
structure EntriesOf (entry : R → E) (order : List String) (results : List R) (payload : Dict String E) : Prop where
  keys : payload.items.map Prod.fst = order
  get?_iff : ∀ id e, payload.get? id = some e ↔ ∃ r ∈ results, ProviderResult.provider r = id ∧ entry r = e
  size : payload.size = results.length
  count : ∀ p : E → Bool, payload.items.countP (fun e => p e.2) = results.countP fun r => p (entry r)

theorem Served.entries {requested : Option (List String)} {priority : List String} {aggregated : Aggregated R S}
    (h : Served agg op env selected requested priority aggregated) (hids : (selected.map ProviderPlugin.id).Nodup)
    (entry : R → E) :
    EntriesOf entry aggregated.providerOrder aggregated.results (providersPayload entry aggregated) := by
  obtain ⟨hkeys, hperm⟩ := h.payload hids entry
  refine ⟨hkeys, ?_, ?_, ?_⟩
  · intro id e
    rw [Dict.get?_eq_some, hperm.mem_iff, List.mem_map]
    constructor
    · rintro ⟨r, hr, heq⟩
      obtain ⟨hid, hentry⟩ := Prod.mk.inj heq
      exact ⟨r, hr, hid, hentry⟩
    · rintro ⟨r, hr, hid, hentry⟩
      exact ⟨r, hr, Prod.ext hid hentry⟩
  · exact hperm.length_eq.trans (List.length_map _)
  · intro p
    rw [hperm.countP_eq, List.countP_map]
    rfl

/-- Entries that show the status of their results are counted as the results are. -/
theorem EntriesOf.count_success {entry : R → E} {order : List String} {results : List R} {payload : Dict String E}
    (h : EntriesOf entry order results payload) (success : E → Bool)
    (hsuccess : ∀ r, success (entry r) = decide (ProviderResult.status r = .ok)) :
    payload.items.countP (fun e => success e.2) =
        (results.filter fun r => ProviderResult.status r = .ok).length ∧
      payload.items.countP (fun e => !success e.2) =
        results.length - (results.filter fun r => ProviderResult.status r = .ok).length := by
  have hsplit := List.length_eq_countP_add_countP (fun r : R => success (entry r)) (l := results)
  rw [h.count success, h.count fun e => !success e, ← List.countP_eq_length_filter]
  have hsame : results.countP (fun r => success (entry r)) =
      results.countP fun r => decide (ProviderResult.status r = .ok) := by
    congr 1
    funext r
    exact hsuccess r
  have hnot : results.countP (fun r => !success (entry r)) = results.countP fun r => ¬ success (entry r) = true := by
    congr 1
    funext r
    simp
  rw [hnot]
  omega

/-- The selected result, seen through the entries: the first success in the order. -/
structure FirstSuccess (status : E → ProviderStatus) (order : List String) (payload : Dict String E) (id : String)
    (entry : E) : Prop where
  success : status entry = .ok
  get? : payload.get? id = some entry
  first : ∃ before after, order = before ++ id :: after ∧
    ∀ other ∈ before, ∀ e, payload.get? other = some e → status e ≠ .ok

theorem EntriesOf.first_success {entry : R → E} {order : List String} {results : List R} {payload : Dict String E}
    (h : EntriesOf entry order results payload) (status : E → ProviderStatus)
    (hstatus : ∀ r, status (entry r) = ProviderResult.status r) {selected : Option R}
    (hselection : SelectsFirstOk results order selected) :
    (selected = none ↔ ∀ id e, payload.get? id = some e → status e ≠ .ok) ∧
      ∀ r, selected = some r → FirstSuccess status order payload (ProviderResult.provider r) (entry r) := by
  constructor
  · rw [hselection.absent]
    constructor
    · intro hnone id e hget
      obtain ⟨r, hr, -, rfl⟩ := (h.get?_iff id e).1 hget
      rw [hstatus]
      exact hnone r hr
    · intro hnone r hr
      rw [← hstatus]
      exact hnone _ _ ((h.get?_iff _ _).2 ⟨r, hr, rfl, rfl⟩)
  · intro r hr
    obtain ⟨hmem, hok, before, after, heq, hbefore⟩ := hselection.first r hr
    refine ⟨by rw [hstatus, hok], (h.get?_iff _ _).2 ⟨r, hmem, rfl, rfl⟩, before, after, heq, ?_⟩
    intro id hid e hget
    obtain ⟨r', hr', rfl, rfl⟩ := (h.get?_iff id e).1 hget
    rw [hstatus]
    exact hbefore r' hr' hid

/-- The selected result is the first success in the order of the response. -/
theorem Served.selection {requested : Option (List String)} {priority : List String} {aggregated : Aggregated R S}
    (h : Served agg op env selected requested priority aggregated) (hids : (selected.map ProviderPlugin.id).Nodup) :
    SelectsFirstOk aggregated.results aggregated.providerOrder
      (selectResult aggregated.byProvider aggregated.providerOrder) := by
  have hd : (aggregated.results.map ProviderResult.provider).Nodup := h.providers.nodup_iff.2 hids
  have horder := buildProviderOrder_spec hd requested priority
  rw [← h.order] at horder
  rw [h.index]
  refine selectResult_spec hd ?_
  intro r hr
  exact horder.perm.mem_iff.2 (List.mem_map_of_mem hr)

/-- The order of the response: the providers that the request names as it names them, or all the plugins that were
picked, by the priority of the settings and then by name. -/
theorem Served.response_order {requested : Option (List String)} {priority : List String}
    {aggregated : Aggregated R S} (h : Served agg op env selected requested priority aggregated)
    (hids : (selected.map ProviderPlugin.id).Nodup) :
    ResponseOrder (selected.map ProviderPlugin.id) (requested.getD priority) aggregated.providerOrder := by
  have hd : (aggregated.results.map ProviderResult.provider).Nodup := h.providers.nodup_iff.2 hids
  rw [h.order]
  exact (buildProviderOrder_spec hd requested priority).of_perm h.providers

/-! What the plugins are asked. -/

/-- The requests that the plugins are asked: the request itself, or what the resolver gives for it; none, if the
resolver neither gives an answer that can be used nor says that there is no vault. -/
inductive Asks {P : Type} (settings : Settings) (side : VaultSide V) (units : Int)
    (resolver : Req → Eff V Raised (Req × P)) (judge : P → Except String C) (req : Req) (v : V) :
    Bool → List Req → Prop
  | itself : Asks settings side units resolver judge req v false [req]
  | underlying {request : Req} {context : C}
      (husable : Aggregator.Usable settings side units resolver judge req v request context) :
      Asks settings side units resolver judge req v true [request]
  | notVault (hnot : Aggregator.NotVault settings side units resolver req v) :
      Asks settings side units resolver judge req v true [req]
  | nothing
      (hunusable : ¬ ∃ request context, Aggregator.Usable settings side units resolver judge req v request context)
      (hnot : ¬ Aggregator.NotVault settings side units resolver req v) :
      Asks settings side units resolver judge req v true []

/-- A call asks the plugins once, or not at all, and then every result says that the vault was not resolved. -/
theorem aggregate_asks {P : Type} {units : Int} {resolver : Req → Eff V Raised (Req × P)} {judge : P → Except String C}
    {useUnderlying : Bool} {returned : List R × S × Bool} (hagg : Aggregator.Aggregation.Closes agg req)
    (h : Aggregator.aggregate settings agg op env
      (resolveUnderlying settings env.vaultSide units resolver judge req useUnderlying) selected req timeoutMs w =
      (.ok returned, w')) :
    ∃ asked, Asks settings env.vaultSide units resolver judge req w.vault useUnderlying asked ∧
      w'.dispatched = w.dispatched ++ asked.map (agg.withTimeout timeoutMs) ∧
      (asked = [] → ∀ r ∈ returned.1, ProviderResult.status r = .error ∧
        ∃ info ∈ ProviderResult.error r, info.type = .vaultResolutionFailed) := by
  obtain ⟨hselected, resolved, v', hresolve⟩ := Aggregator.resolve_of_aggregate h
  cases useUnderlying with
  | false =>
    have hitself : resolveUnderlying settings env.vaultSide units resolver judge req false w.vault =
        (.ok ⟨req, .notRequested⟩, w.vault) := rfl
    obtain ⟨hdispatched, -⟩ := Aggregator.aggregate_run hselected hitself (by simp) h
    exact ⟨[req], .itself, hdispatched, by simp⟩
  | true =>
    rcases Aggregator.resolveUnderlying_cases hresolve with ⟨request, context, husable, rfl⟩ | ⟨hnot, rfl⟩ |
      ⟨hunusable, hnot, failure, rfl⟩
    · obtain ⟨hdispatched, -⟩ := Aggregator.aggregate_run hselected hresolve (by simp) h
      exact ⟨[request], .underlying husable, hdispatched, by simp⟩
    · obtain ⟨hdispatched, -⟩ := Aggregator.aggregate_run hselected hresolve (by simp) h
      exact ⟨[req], .notVault hnot, hdispatched, by simp⟩
    · have hclosed := Aggregator.closed_of_failed hagg hselected hresolve h
      obtain ⟨ordered, summary, houtcome, -, herrors⟩ := hclosed.results
      obtain rfl := Except.ok.inj houtcome
      refine ⟨[], .nothing hunusable hnot, ?_, fun _ => herrors⟩
      rw [List.map_nil, List.append_nil]
      exact hclosed.dispatched

/-! What becomes of a call without a resolution. -/

/-- What a plugin hands over it has returned. -/
private theorem handedOver_returned {val : A → R} {validate : R → Except Exn Unit} {run : PluginRun A} {r : R}
    (h : handedOver val validate run = some r) : ∃ a, run.call = .returned a ∧ val a = r := by
  unfold handedOver at h
  cases hcall : run.call with
  | returned a =>
    rw [hcall] at h
    dsimp only at h
    split at h
    · exact ⟨a, rfl, Option.some.inj h⟩
    · cases h
  | _ =>
    rw [hcall] at h
    cases h

/-- What is handed over without an error tells the runner of no rate limit. -/
theorem rateLimited_handedOver {val : A → R} {validate : R → Except Exn Unit} {run : PluginRun A} {r : R}
    (h : handedOver val validate run = some r)
    (herror : ∀ a, run.call = .returned a → ProviderResult.error (val a) = none) : rateLimited r = none := by
  obtain ⟨a, hcall, rfl⟩ := handedOver_returned h
  unfold rateLimited
  rw [herror a hcall]
  rfl

/-- The run of the plugins behind a call without a resolution. -/
def runSelected (settings : Settings) (agg : Aggregation Req R C S) (op : Operation Req A R)
    (env : AggregatorEnv V Req A) (selected : List ProviderPlugin) (req : Req) (timeoutMs : Option Int)
    (w : AggregatorWorld V Req R) : Except Raised (List R) × World R :=
  Runner.runOperation settings op env.schedule (agg.withTimeout timeoutMs req) selected
    (Aggregator.deadlineMs settings agg timeoutMs) (w.runner.onShared env.runnerMeanwhile)

omit [ProviderResult R] in
private theorem onRunner_run {α : Type} {m : Run R α} {r' : World R} {outcome : Except Raised α}
    (h : m w.runner = (outcome, r')) : ∃ w', Aggregator.onRunner env req m w = (outcome, w') := by
  have hzoom : Eff.zoom AggregatorWorld.runner (fun runner (w : AggregatorWorld V Req R) => { w with runner }) m
      { w with dispatched := w.dispatched ++ [req] } =
      (outcome, { w with dispatched := w.dispatched ++ [req], runner := r' }) := by
    unfold Eff.zoom
    rw [h]
  cases outcome with
  | error e => exact ⟨_, bind_error hzoom _⟩
  | ok a => exact ⟨_, bind_ok hzoom _⟩

private theorem aggregate_unresolved {P : Type} {units : Int} {resolver : Req → Eff V Raised (Req × P)}
    {judge : P → Except String C} (hselected : selected ≠ [])
    (hunchanged : ∀ raw, agg.applyContext req raw none = .ok raw) :
    (∀ e r', runSelected settings agg op env selected req timeoutMs w = (.error e, r') →
      ∃ w', Aggregator.aggregate settings agg op env
        (resolveUnderlying settings env.vaultSide units resolver judge req false) selected req timeoutMs w =
        (.error e, w')) ∧
    ∀ raw r' summary, runSelected settings agg op env selected req timeoutMs w = (.ok raw, r') →
      agg.summary (sortResults raw) = .ok summary →
      ∃ failed w', Aggregator.aggregate settings agg op env
        (resolveUnderlying settings env.vaultSide units resolver judge req false) selected req timeoutMs w =
        (.ok (sortResults raw, summary, failed), w') := by
  have hresolve : resolveUnderlying settings env.vaultSide units resolver judge req false w.vault =
      (.ok ⟨req, .notRequested⟩, w.vault) := rfl
  obtain ⟨w₁, hresolved, hrun⟩ := Aggregator.aggregate_resolved hselected hresolve
  have hstart {outcome : Except Raised (List R)} {r' : World R}
      (h : runSelected settings agg op env selected req timeoutMs w = (outcome, r')) :
      ∃ w₂, Aggregator.rawResults settings agg op env selected req timeoutMs ⟨req, .notRequested⟩ w₁ =
        (outcome, w₂) := by
    unfold runSelected at h
    rw [← hresolved.runner] at h
    exact onRunner_run h
  constructor
  · intro e r' h
    obtain ⟨w₂, hraw⟩ := hstart h
    exact ⟨w₂, by rw [hrun, bind_error hraw]⟩
  · intro raw r' summary h hsummary
    obtain ⟨w₂, hraw⟩ := hstart h
    have hfinish : Aggregator.finish agg req ⟨req, .notRequested⟩ raw =
        .ok (sortResults raw, summary, decide (0 < agg.failedProviders summary)) := by
      unfold Aggregator.finish
      refine Eff.except_bind_eq_ok.2 ⟨raw, hunchanged raw, ?_⟩
      exact Eff.except_bind_eq_ok.2 ⟨summary, hsummary, rfl⟩
    refine ⟨decide (0 < agg.failedProviders summary), w₂, ?_⟩
    rw [hrun, bind_ok hraw, hfinish]
    rfl

/-- How the registry or the aggregator refuses a request. -/
def PickRefused (registry : ProviderRegistry) (operation : ProviderRegistry.Operation)
    (requested : Option (List String)) (chainId : Int) (type message : String) : Prop :=
  registry.resolve requested operation chainId = .error (.invalidRequest type message) ∨
    (registry.resolve requested operation chainId = .ok [] ∧ type = "NO_PROVIDERS" ∧
      message = "No providers available for this request")

/-- The response to a call that did not get its global units. -/
def overloaded : HttpFailure := .httpException 503 "SERVICE_OVERLOADED" "Provider capacity exhausted" (some 1)

/-- A call without a resolution is refused before a plugin runs, is turned away for lack of global units, or returns
one result for each plugin. -/
theorem aggregate_answers (settings : Settings) (env : AggregatorEnv V Req A) (req : Req) (timeoutMs : Option Int)
    (w : AggregatorWorld V Req R) {P : Type} (units : Int) (resolver : Req → Eff V Raised (Req × P))
    (judge : P → Except String C) {valid : Req → Prop} {echoes : Req → R → Prop}
    {accepted : ProviderPlugin → Req → PluginRun A → Option R} (registry : ProviderRegistry)
    (operation : ProviderRegistry.Operation) {requested : Option (List String)} (chainId : Int)
    (hop : op.Sound valid echoes accepted) (hvalid : valid (agg.withTimeout timeoutMs req))
    (hn : ∀ ids, requested = some ids → ids.Nodup) (huncancelled : Runner.Uncancelled env.schedule)
    (hharmless : ∀ selected, registry.resolve requested operation chainId = .ok selected →
      Runner.AdmitsHarmless settings op accepted env.schedule (agg.withTimeout timeoutMs req) selected
        (Aggregator.deadlineMs settings agg timeoutMs) (w.runner.onShared env.runnerMeanwhile))
    (hunchanged : ∀ raw, agg.applyContext req raw none = .ok raw)
    (hsummary : ∀ selected raw r', runSelected settings agg op env selected req timeoutMs w = (.ok raw, r') →
      ∃ summary, agg.summary (sortResults raw) = .ok summary) (priority : List String) :
    let call := aggregateWithProviderOrder
      (aggregateSelected registry operation requested chainId fun selected =>
        Aggregator.aggregate settings agg op env
          (resolveUnderlying settings env.vaultSide units resolver judge req false) selected req timeoutMs)
      requested priority
    (∃ type message, PickRefused registry operation requested chainId type message ∧
      call w = (.error (.httpException 400 type message none), w)) ∨
    (∃ selected w', registry.resolve requested operation chainId = .ok selected ∧
      Runner.GlobalReservationFails settings op env.schedule (agg.withTimeout timeoutMs req) selected
        (w.runner.onShared env.runnerMeanwhile) ∧ call w = (.error overloaded, w')) ∨
    ∃ selected raw r' aggregated w', registry.resolve requested operation chainId = .ok selected ∧
      runSelected settings agg op env selected req timeoutMs w = (.ok raw, r') ∧
      aggregated.results = sortResults raw ∧ call w = (.ok aggregated, w') := by
  intro call
  -- what the call comes to, by what the aggregator does with the plugins that were picked
  have hcall {selected : List ProviderPlugin} (hresolve : registry.resolve requested operation chainId = .ok selected)
      {outcome : Except Raised (List R × S × Bool)} {w' : AggregatorWorld V Req R}
      (h : Aggregator.aggregate settings agg op env
        (resolveUnderlying settings env.vaultSide units resolver judge req false) selected req timeoutMs w =
        (outcome, w')) :
      Eff.mapError HttpFailure.ofCall (aggregateSelected registry operation requested chainId fun selected =>
        Aggregator.aggregate settings agg op env
          (resolveUnderlying settings env.vaultSide units resolver judge req false) selected req timeoutMs) w =
        (outcome.mapError HttpFailure.ofCall, w') := by
    have hselected : aggregateSelected registry operation requested chainId (fun selected =>
        Aggregator.aggregate settings agg op env
          (resolveUnderlying settings env.vaultSide units resolver judge req false) selected req timeoutMs) w =
        (outcome, w') := by
      unfold aggregateSelected
      rw [hresolve]
      exact h
    exact mapError_run hselected _
  cases hresolve : registry.resolve requested operation chainId with
  | error e =>
    left
    obtain ⟨type, message, rfl⟩ : ∃ type message, e = .invalidRequest type message := by
      rcases ProviderRegistry.resolve_error hresolve with ⟨-, he⟩ | ⟨-, before, id, after, -, -, -, he⟩
      · exact ⟨_, _, he⟩
      · exact ⟨_, _, he⟩
    refine ⟨type, message, .inl hresolve, ?_⟩
    have hselected : aggregateSelected registry operation requested chainId (fun selected =>
        Aggregator.aggregate settings agg op env
          (resolveUnderlying settings env.vaultSide units resolver judge req false) selected req timeoutMs) w =
        (.error (.exception (.invalidRequest type message)), w) := by
      unfold aggregateSelected
      rw [hresolve]
      rfl
    exact bind_error (mapError_run hselected _) _
  | ok selected =>
    by_cases hempty : selected = []
    · left
      subst hempty
      exact ⟨_, _, .inr ⟨hresolve, rfl, rfl⟩, bind_error (hcall hresolve rfl) _⟩
    · right
      have hids : (selected.map ProviderPlugin.id).Nodup := (ProviderRegistry.resolve_ok hresolve).nodup hn
      have hisolated := (Runner.isolated_iff hop hids hvalid huncancelled _).2 (hharmless selected hresolve)
      obtain ⟨herrors, hreturns⟩ :=
        @aggregate_unresolved V Req A R C S _ settings agg op env selected timeoutMs req w P units resolver judge hempty
          hunchanged
      rcases hrun : runSelected settings agg op env selected req timeoutMs w with ⟨e | raw, r'⟩
      · unfold runSelected at hrun
        rw [hrun] at hisolated
        obtain ⟨rfl, hfails⟩ := hisolated
        obtain ⟨w', h⟩ := herrors _ r' hrun
        exact .inl ⟨selected, w', rfl, hfails, bind_error (hcall hresolve h) _⟩
      · obtain ⟨summary, hs⟩ := hsummary selected raw r' hrun
        obtain ⟨failed, w', h⟩ := hreturns raw r' summary hrun hs
        exact .inr ⟨selected, raw, r', _, w', rfl, hrun, rfl, bind_ok (hcall hresolve h) _⟩

end Aggregate

/-- The named providers are the order. -/
theorem ResponseOrder.eq_of_all {available ids order : List String} (h : ResponseOrder available ids order)
    (hids : available = ids) (hn : ids.Nodup) : order = ids := by
  obtain ⟨rest, horder, -, hrest⟩ := h.split
  subst hids
  have hempty : rest = [] := by
    apply List.eq_nil_iff_forall_not_mem.2
    intro id hid
    obtain ⟨hin, hnot⟩ := (hrest id).1 hid
    exact hnot hin
  have hall : available.filter (· ∈ available) = available := List.filter_eq_self.2 (by simp)
  rw [horder, hempty, List.append_nil, hall, eraseDups_of_nodup hn]

/-! ### A small service -/

/-- Curve, DefiLlama and LI.FI are enabled, LI.FI without its key. -/
def Example.registrySettings : RegistrySettings where
  chainIds := [1]
  providersEnabled := ["lifi", "curve", "defillama"]
  lifiApiKey := none
  ensoApiKey := none

/-- A token of the remap table. -/
def Example.migrated : String := "0xa3cc91589feedbbee0cfdc7404041e19cb00f110"

/-- Nothing is known of any token. -/
def Example.metadataSide : MetadataSide where
  table := .empty
  answers := .empty
  writes := .ok ()
  observes := .ok ()

end TokenPriceAgg

import TokenPriceAgg.Lib.PyText
import TokenPriceAgg.Lib.Regex
import TokenPriceAgg.Providers.Parsing
import TokenPriceAgg.TokenMetadata.LogoStore

/-!
# The CoinGecko token list

`CoinGeckoSource.parse_metadata` over JSON values, with the parsers that it puts an element through.  `urlsplit` is a
parameter.

An element that contributes no entry is skipped, but for one kind: where the `chainId` of an object is a text that
`isdigit` accepts and `int` refuses, the whole list is lost.
-/

namespace TokenPriceAgg

open PyLib

/-- What is read of a `SplitResult`; reading the port may raise a `ValueError`. -/
structure SplitResult where
  scheme : String
  hostname : Option String
  username : Option String
  password : Option String
  port : Option (Option Nat)
  path : String
  fragment : String

/-- `urllib.parse.urlsplit`; `none` is a `ValueError`. -/
abbrev UrlSplit := String → Option SplitResult

/-- `_safe_https_url`. -/
def safeHttpsUrl (urlsplit : UrlSplit) (url : String) : Option SplitResult := do
  let parsed ← urlsplit url
  let port ← parsed.port
  if parsed.scheme ≠ "https" ∨ parsed.hostname = none ∨ parsed.username ≠ none ∨ parsed.password ≠ none ∨
      port ≠ none ∧ port ≠ some 443 ∨ parsed.fragment ≠ "" then none
  else some parsed

/-- What `int` raises on a text of digits that it refuses. -/
def refusedDigits (s : String) : Exn :=
  let digits := (s.toList.takeWhile fun c => (decimalValue c).isSome).length
  if maxStrDigits < digits then
    .valueError ("Exceeds the limit (4300 digits) for integer string conversion: value has " ++ toString digits ++
      " digits; use sys.set_int_max_str_digits() to increase the limit")
  else
    .valueError ("invalid literal for int() with base 10: " ++ String.ofList (("'" ++ s ++ "'").toList.take 200))

/-- `_parse_int` of a text. -/
def parseChainIdText (value : String) : Except Exn (Option Int) :=
  if isDigitText value.toList then
    match intOfText value.toList with
    | none => .error (refusedDigits value)
    | some n => .ok (some n)
  else .ok none

/-- `_parse_int`. -/
def parseChainId : Json → Except Exn (Option Int)
  | .int value => .ok (some value)
  | .str value => parseChainIdText value
  | _ => .ok none

namespace CoinGeckoSource

def id : String := "coingecko"

/-- The lower case that `re.I` compares; four letters beyond ASCII have one in ASCII. -/
def foldCase (c : Char) : Char :=
  if c.toNat = 0x130 ∨ c.toNat = 0x131 then 'i'
  else if c.toNat = 0x17f then 's'
  else if c.toNat = 0x212a then 'k'
  else c.toLower

/-- A literal under `re.I`. -/
def literal (text : String) : List RegexItem := text.toList.map fun x => .one fun c => foldCase c = x

/-- `[A-Za-z0-9_./%-]` under `re.I`. -/
def isImagePathChar (c : Char) : Bool :=
  let c := foldCase c
  ('a' ≤ c && c ≤ 'z') || ('0' ≤ c && c ≤ '9') || c = '_' || c = '.' || c = '/' || c = '%' || c = '-'

/-- `_IMAGE_PATH`, one pattern for each alternative of the extension. -/
def imagePath : List (List RegexItem) :=
  [".png", ".jpg", ".jpeg", ".webp"].map fun extension =>
    literal "/coins/images/" ++ [.one isImagePathChar, .many isImagePathChar] ++ literal extension ++ [.dollar]

/-- `_IMAGE_PATH.fullmatch(path) is not None`; a full match leaves no newline behind `$`. -/
def imagePathFullmatch (path : List Char) : Bool :=
  (imagePath.any fun pattern => matchesStart pattern path) && path.getLast? ≠ some '\n'

def imageHosts : List String := ["assets.coingecko.com", "coin-images.coingecko.com"]

def supportsChain (chainId : Int) : Bool := chainId = 1

def allowsImageUrl (urlsplit : UrlSplit) (chainId : Int) (url : String) : Bool :=
  supportsChain chainId &&
    match safeHttpsUrl urlsplit url with
    | none => false
    | some parsed =>
      (parsed.hostname.any (· ∈ imageHosts)) && imagePathFullmatch parsed.path.toList &&
        '%' ∉ parsed.path.toList && (parsed.path.toList.splitOn '/').all (· ∉ [['.'], ['.', '.']])

example : imagePathFullmatch "/coins/images/1/thumb/usdc.png".toList = true ∧
    imagePathFullmatch "/coins/images/.png".toList = false ∧ imagePathFullmatch "/COİNS/images/a.jpeg".toList = true ∧
    imagePathFullmatch "/coins/images/a.png\n".toList = false := by decide +kernel

/-- The entries so far and the addresses seen. -/
structure Parsed where
  entries : List TokenLogoSourceEntry
  seen : List String

section

variable (eth : EthUtils) (urlsplit : UrlSplit) (chainId : Int)

/-- What is left of the loop's turn once the chain is right. -/
def addEntry (parsed : Parsed) (rawAddress rawUrl : String) : Parsed :=
  match normalizeAddress eth rawAddress with
  | .error _ => parsed
  | .ok address =>
    if address ∈ parsed.seen ∨ ¬ allowsImageUrl urlsplit chainId rawUrl then parsed
    else
      { entries := parsed.entries ++ [{ source := id, chainId, address, logoUrl := rawUrl }]
        seen := address :: parsed.seen }

/-- One turn of the loop over the tokens, for an object. -/
def parseObject (parsed : Parsed) (rawToken : JsonObject) : Except Exn Parsed := do
  let rawChainId ← parseChainId (JsonObject.get rawToken "chainId")
  if rawChainId.any (· ≠ chainId) then pure parsed
  else
    match parseStr (JsonObject.get rawToken "address"), parseStr (JsonObject.get rawToken "logoURI") with
    | some rawAddress, some rawUrl => pure (addEntry eth urlsplit chainId parsed rawAddress rawUrl)
    | _, _ => pure parsed

/-- One turn of the loop over the tokens. -/
def parseToken (parsed : Parsed) : Json → Except Exn Parsed
  | .dict rawToken => parseObject eth urlsplit chainId parsed rawToken
  | _ => pure parsed

def parseMetadata (payload : Json) : Except Exn (List TokenLogoSourceEntry) :=
  let missing := Exn.valueError "CoinGecko token list payload is missing its tokens array"
  match payload with
  | .dict fields =>
    match JsonObject.get fields "tokens" with
    | .list tokens => (tokens.foldlM (parseToken eth urlsplit chainId) ⟨[], []⟩).map (·.entries)
    | _ => .error missing
  | _ => .error missing

/-- The payload with another list of tokens. -/
def withTokens (fields : JsonObject) (tokens : List Json) : Json :=
  .dict (fields.map fun field => if field.1 = "tokens" then (field.1, .list tokens) else field)

end

section Parse

variable {eth : EthUtils} {urlsplit : UrlSplit} {chainId : Int} {parsed parsed' : Parsed} {tokens : List Json}
  {fields : JsonObject}

/-! ### Which elements raise -/

/-- If `isdigit` accepts the text, its digits are decimal digits, and not more than `int` takes. -/
def ReadableText (value : String) : Prop :=
  isDigitText value.toList → (∀ c ∈ value.toList, (decimalValue c).isSome) ∧ value.toList.length ≤ maxStrDigits

def ReadableInt : Json → Prop
  | .str value => ReadableText value
  | _ => True

/-- The element is no object, or its `chainId` is read. -/
def ReadableToken : Json → Prop
  | .dict rawToken => ReadableInt (JsonObject.get rawToken "chainId")
  | _ => True

private theorem parseChainId_ok_iff {value : Json} : (∃ n, parseChainId value = .ok n) ↔ ReadableInt value := by
  cases value with
  | str value =>
    show (∃ n, parseChainIdText value = .ok n) ↔ ReadableText value
    unfold parseChainIdText ReadableText
    by_cases hdigits : isDigitText value.toList = true
    · rw [if_pos hdigits, ← intOfText_isSome_iff_decimal hdigits]
      cases intOfText value.toList with
      | none => simp [hdigits]
      | some n => simp
    · rw [if_neg hdigits]
      exact iff_of_true ⟨none, rfl⟩ fun h => absurd h hdigits
  | int n => exact iff_of_true ⟨some n, rfl⟩ trivial
  | null => exact iff_of_true ⟨none, rfl⟩ trivial
  | bool b => exact iff_of_true ⟨none, rfl⟩ trivial
  | float x => exact iff_of_true ⟨none, rfl⟩ trivial
  | list items => exact iff_of_true ⟨none, rfl⟩ trivial
  | dict fields => exact iff_of_true ⟨none, rfl⟩ trivial

private theorem parseToken_ok_iff {token : Json} :
    (∃ parsed', parseToken eth urlsplit chainId parsed token = .ok parsed') ↔ ReadableToken token := by
  cases token with
  | dict rawToken =>
    rw [ReadableToken, ← parseChainId_ok_iff]
    constructor
    · rintro ⟨parsed', h⟩
      obtain ⟨rawChainId, hchain, -⟩ := Eff.except_bind_eq_ok.1 h
      exact ⟨rawChainId, hchain⟩
    · rintro ⟨rawChainId, hchain⟩
      by_cases hother : rawChainId.any (· ≠ chainId) = true
      · exact ⟨parsed, Eff.except_bind_eq_ok.2 ⟨rawChainId, hchain, if_pos hother⟩⟩
      · have hrest : ∃ parsed', (match parseStr (JsonObject.get rawToken "address"),
            parseStr (JsonObject.get rawToken "logoURI") with
            | some rawAddress, some rawUrl => pure (addEntry eth urlsplit chainId parsed rawAddress rawUrl)
            | _, _ => pure parsed : Except Exn Parsed) = .ok parsed' := by
          split
          · exact ⟨_, rfl⟩
          · exact ⟨_, rfl⟩
        obtain ⟨parsed', hrest⟩ := hrest
        exact ⟨parsed', Eff.except_bind_eq_ok.2 ⟨rawChainId, hchain, (if_neg hother).trans hrest⟩⟩
  | str value => exact iff_of_true ⟨parsed, rfl⟩ trivial
  | int n => exact iff_of_true ⟨parsed, rfl⟩ trivial
  | null => exact iff_of_true ⟨parsed, rfl⟩ trivial
  | bool b => exact iff_of_true ⟨parsed, rfl⟩ trivial
  | float x => exact iff_of_true ⟨parsed, rfl⟩ trivial
  | list items => exact iff_of_true ⟨parsed, rfl⟩ trivial

/-- The loop ends without an exception exactly if every element is read. -/
private theorem parseTokens_ok_iff :
    (∃ parsed', tokens.foldlM (parseToken eth urlsplit chainId) parsed = .ok parsed') ↔
      ∀ token ∈ tokens, ReadableToken token := by
  induction tokens generalizing parsed with
  | nil => exact iff_of_true ⟨parsed, rfl⟩ (by simp)
  | cons token tokens ih =>
    rw [List.foldlM_cons, List.forall_mem_cons]
    constructor
    · rintro ⟨parsed', h⟩
      obtain ⟨parsed₁, hfirst, h⟩ := Eff.except_bind_eq_ok.1 h
      exact ⟨parseToken_ok_iff.1 ⟨parsed₁, hfirst⟩, ih.1 ⟨parsed', h⟩⟩
    · rintro ⟨hfirst, hrest⟩
      obtain ⟨parsed₁, hfirst⟩ := parseToken_ok_iff.2 hfirst
      obtain ⟨parsed', h⟩ : ∃ parsed', tokens.foldlM (parseToken eth urlsplit chainId) parsed₁ = .ok parsed' :=
        ih.2 hrest
      exact ⟨parsed', Eff.except_bind_eq_ok.2 ⟨parsed₁, hfirst, h⟩⟩

/-! ### What an element adds -/

/-- An entry that may be added to what is parsed. -/
structure Addable (eth : EthUtils) (urlsplit : UrlSplit) (chainId : Int) (parsed : Parsed)
    (entry : TokenLogoSourceEntry) : Prop where
  normalized : ∃ raw, normalizeAddress eth raw = .ok entry.address
  new : entry.address ∉ parsed.seen
  allowed : allowsImageUrl urlsplit chainId entry.logoUrl = true

/-- A turn of the loop changes nothing, or adds one entry. -/
private theorem parseToken_cases {token : Json} (h : parseToken eth urlsplit chainId parsed token = .ok parsed') :
    parsed' = parsed ∨ ∃ entry, Addable eth urlsplit chainId parsed entry ∧
      parsed' = ⟨parsed.entries ++ [entry], entry.address :: parsed.seen⟩ := by
  have hadd (rawAddress rawUrl : String) : addEntry eth urlsplit chainId parsed rawAddress rawUrl = parsed ∨
      ∃ entry, Addable eth urlsplit chainId parsed entry ∧
        addEntry eth urlsplit chainId parsed rawAddress rawUrl =
          ⟨parsed.entries ++ [entry], entry.address :: parsed.seen⟩ := by
    unfold addEntry
    cases haddress : normalizeAddress eth rawAddress with
    | error exc => exact .inl rfl
    | ok address =>
      dsimp only
      by_cases hskip : address ∈ parsed.seen ∨ ¬ allowsImageUrl urlsplit chainId rawUrl
      · exact .inl (if_pos hskip)
      · obtain ⟨hnew, hallowed⟩ := not_or.1 hskip
        exact .inr ⟨_, ⟨⟨rawAddress, haddress⟩, hnew, not_not.1 hallowed⟩, if_neg hskip⟩
  cases token with
  | dict rawToken =>
    obtain ⟨rawChainId, -, h⟩ := Eff.except_bind_eq_ok.1 h
    split at h
    · exact .inl (Except.ok.inj h).symm
    · split at h
      · rename_i rawAddress rawUrl _ _
        obtain rfl := Except.ok.inj h
        exact hadd rawAddress rawUrl
      · exact .inl (Except.ok.inj h).symm
  | str value => exact .inl (Except.ok.inj h).symm
  | int n => exact .inl (Except.ok.inj h).symm
  | null => exact .inl (Except.ok.inj h).symm
  | bool b => exact .inl (Except.ok.inj h).symm
  | float x => exact .inl (Except.ok.inj h).symm
  | list items => exact .inl (Except.ok.inj h).symm

/-- A turn that adds no entry changes nothing. -/
private theorem parseToken_same {token : Json} (h : parseToken eth urlsplit chainId parsed token = .ok parsed')
    (hsame : parsed'.entries = parsed.entries) : parsed' = parsed := by
  obtain hkept | ⟨entry, -, rfl⟩ := parseToken_cases h
  · exact hkept
  · simp at hsame

/-- What holds of the entries at every turn. -/
structure Parsed.Sound (eth : EthUtils) (urlsplit : UrlSplit) (chainId : Int) (parsed : Parsed) : Prop where
  seen : ∀ entry ∈ parsed.entries, entry.address ∈ parsed.seen
  nodup : (parsed.entries.map (·.address)).Nodup
  entries : ∀ entry ∈ parsed.entries, (∃ raw, normalizeAddress eth raw = .ok entry.address) ∧
    allowsImageUrl urlsplit chainId entry.logoUrl = true

private theorem parseToken_sound {token : Json} (hsound : parsed.Sound eth urlsplit chainId)
    (h : parseToken eth urlsplit chainId parsed token = .ok parsed') : parsed'.Sound eth urlsplit chainId := by
  obtain rfl | ⟨entry, hadd, rfl⟩ := parseToken_cases h
  · exact hsound
  · refine ⟨?_, ?_, ?_⟩
    · intro e he
      obtain he | he := List.mem_append.1 he
      · exact List.mem_cons_of_mem _ (hsound.seen e he)
      · rw [List.mem_singleton.1 he]
        exact List.mem_cons_self
    · have hnew : entry.address ∉ parsed.entries.map (·.address) := by
        intro hmem
        obtain ⟨e, he, heq⟩ := List.mem_map.1 hmem
        exact hadd.new (heq ▸ hsound.seen e he)
      show ((parsed.entries ++ [entry]).map (·.address)).Nodup
      rw [List.map_append, List.map_singleton, List.nodup_append_comm, List.singleton_append, List.nodup_cons]
      exact ⟨hnew, hsound.nodup⟩
    · intro e he
      obtain he | he := List.mem_append.1 he
      · exact hsound.entries e he
      · rw [List.mem_singleton.1 he]
        exact ⟨hadd.normalized, hadd.allowed⟩

theorem parseTokens_sound (hsound : parsed.Sound eth urlsplit chainId)
    (h : tokens.foldlM (parseToken eth urlsplit chainId) parsed = .ok parsed') : parsed'.Sound eth urlsplit chainId :=
  Eff.foldlM_rel
    (R := fun parsed parsed' : Parsed => parsed.Sound eth urlsplit chainId → parsed'.Sound eth urlsplit chainId)
    (fun _ h => h) (fun _ _ _ h h' hs => h' (h hs)) (fun _ _ _ _ h hs => parseToken_sound hs h) h hsound

/-! ### The list as a whole -/

private theorem parseMetadata_eq {tokens : List Json} (h : JsonObject.get fields "tokens" = .list tokens) :
    parseMetadata eth urlsplit chainId (.dict fields) =
      (tokens.foldlM (parseToken eth urlsplit chainId) ⟨[], []⟩).map (·.entries) := by
  unfold parseMetadata
  dsimp only
  rw [h]

private theorem get_withTokens {tokens tokens' : List Json} (h : JsonObject.get fields "tokens" = .list tokens) :
    JsonObject.get (fields.map fun field => if field.1 = "tokens" then (field.1, .list tokens') else field) "tokens" =
      .list tokens' := by
  induction fields with
  | nil => cases h
  | cons field fields ih =>
    obtain ⟨key, value⟩ := field
    by_cases hkey : key = "tokens"
    · subst hkey
      rfl
    · have hne : ("tokens" == key) = false := by
        rw [beq_eq_false_iff_ne]
        exact Ne.symm hkey
      unfold JsonObject.get at h ih ⊢
      rw [List.lookup_cons, hne] at h
      rw [List.map_cons, if_neg hkey, List.lookup_cons, hne]
      exact ih h

/-- The list is returned, its entries have distinct normalized addresses and allowed URLs, and an element that adds no
entry where it stands can be left out. -/
def BadTokensSkipped (eth : EthUtils) (urlsplit : UrlSplit) (chainId : Int) (fields : JsonObject) (tokens : List Json) :
    Prop :=
  ∃ entries, parseMetadata eth urlsplit chainId (.dict fields) = .ok entries ∧
    (entries.map (·.address)).Nodup ∧
    (∀ entry ∈ entries, (∃ raw, normalizeAddress eth raw = .ok entry.address) ∧
      allowsImageUrl urlsplit chainId entry.logoUrl = true) ∧
    ∀ before token after, tokens = before ++ token :: after →
      parseMetadata eth urlsplit chainId (withTokens fields (before ++ [token])) =
        parseMetadata eth urlsplit chainId (withTokens fields before) →
      parseMetadata eth urlsplit chainId (withTokens fields (before ++ after)) = .ok entries

/-- A list that is returned has readable elements only. -/
private theorem readable_of_ok {entries : List TokenLogoSourceEntry} (h : JsonObject.get fields "tokens" = .list tokens)
    (hentries : parseMetadata eth urlsplit chainId (.dict fields) = .ok entries) :
    ∀ token ∈ tokens, ReadableToken token := by
  rw [parseMetadata_eq h] at hentries
  obtain ⟨parsed, hparsed, -⟩ := Eff.except_map_eq_ok.1 hentries
  exact parseTokens_ok_iff.1 ⟨parsed, hparsed⟩

/-- An element in the middle of the list that adds nothing can be left out. -/
private theorem parseTokens_drop {before after : List Json} {token : Json} {parsed₁ parsed₂ : Parsed}
    (hbefore : before.foldlM (parseToken eth urlsplit chainId) ⟨[], []⟩ = .ok parsed₁)
    (hwith : (before ++ [token]).foldlM (parseToken eth urlsplit chainId) ⟨[], []⟩ = .ok parsed₂)
    (hsame : parsed₂.entries = parsed₁.entries)
    (h : (before ++ token :: after).foldlM (parseToken eth urlsplit chainId) ⟨[], []⟩ = .ok parsed) :
    (before ++ after).foldlM (parseToken eth urlsplit chainId) ⟨[], []⟩ = .ok parsed := by
  have htoken : parseToken eth urlsplit chainId parsed₁ token = .ok parsed₂ := by
    rw [List.foldlM_append] at hwith
    obtain ⟨parsed₁', hbefore', hwith⟩ := Eff.except_bind_eq_ok.1 hwith
    obtain rfl := Except.ok.inj (hbefore.symm.trans hbefore')
    rw [List.foldlM_cons] at hwith
    obtain ⟨parsed₂', htoken, hnil⟩ := Eff.except_bind_eq_ok.1 hwith
    obtain rfl := Except.ok.inj hnil
    exact htoken
  obtain rfl := parseToken_same htoken hsame
  rw [List.foldlM_append] at h ⊢
  obtain ⟨parsed₁', hbefore', h⟩ := Eff.except_bind_eq_ok.1 h
  obtain rfl := Except.ok.inj (hbefore.symm.trans hbefore')
  rw [List.foldlM_cons] at h
  obtain ⟨parsed₂', htoken', hafter⟩ := Eff.except_bind_eq_ok.1 h
  obtain rfl := Except.ok.inj (htoken.symm.trans htoken')
  exact Eff.except_bind_eq_ok.2 ⟨_, hbefore, hafter⟩

end Parse

end CoinGeckoSource

open CoinGeckoSource in
/-- The elements of a token list do not affect each other exactly if each object among them has a `chainId` that `int`
reads where `isdigit` accepts it. -/
theorem coingecko_bad_tokens_skipped_iff (eth : EthUtils) (urlsplit : UrlSplit) (chainId : Int) (fields : JsonObject)
    (tokens : List Json) (h : JsonObject.get fields "tokens" = .list tokens) :
    BadTokensSkipped eth urlsplit chainId fields tokens ↔ ∀ token ∈ tokens, ReadableToken token := by
  have hreplaced (tokens' : List Json) : parseMetadata eth urlsplit chainId (withTokens fields tokens') =
      (tokens'.foldlM (parseToken eth urlsplit chainId) ⟨[], []⟩).map (·.entries) := parseMetadata_eq (get_withTokens h)
  constructor
  · rintro ⟨entries, hentries, -⟩
    exact readable_of_ok h hentries
  · intro hreadable
    obtain ⟨parsed, hparsed⟩ := parseTokens_ok_iff.2 hreadable
    have hstart : Parsed.Sound eth urlsplit chainId ⟨[], []⟩ := ⟨by simp, by simp, by simp⟩
    have hsound := parseTokens_sound hstart hparsed
    refine ⟨parsed.entries, ?_, hsound.nodup, hsound.entries, ?_⟩
    · rw [parseMetadata_eq h, hparsed]
      rfl
    · rintro before token after rfl hsame
      have hreadableBefore : ∀ t ∈ before, ReadableToken t := fun t ht => hreadable t (List.mem_append_left _ ht)
      have hreadableToken : ∀ t ∈ before ++ [token], ReadableToken t := by
        intro t ht
        obtain ht | ht := List.mem_append.1 ht
        · exact hreadableBefore t ht
        · rw [List.mem_singleton.1 ht]
          exact hreadable token (by simp)
      obtain ⟨parsed₁, hbefore⟩ := parseTokens_ok_iff.2 hreadableBefore
      obtain ⟨parsed₂, hwith⟩ := parseTokens_ok_iff.2 hreadableToken
      rw [hreplaced, hreplaced, hwith, hbefore] at hsame
      rw [hreplaced, parseTokens_drop hbefore hwith (Except.ok.inj hsame) hparsed]
      rfl

namespace Example

def usdcAddress : String := "0xA0b86991c6218b36c1d19D4a2e9Eb0cE3606eB48"

def usdcUrl : String := "https://assets.coingecko.com/coins/images/1/thumb/usdc.png"

def usdcToken : Json := .dict [("chainId", .int 1), ("address", .str usdcAddress), ("logoURI", .str usdcUrl)]

/-- The address is a checksum address. -/
def usdcEth : EthUtils := ⟨fun address => address = usdcAddress, .ok⟩

def usdcSplit : UrlSplit := fun url =>
  if url = usdcUrl then
    some
      { scheme := "https", hostname := some "assets.coingecko.com", username := none, password := none
        port := some none, path := "/coins/images/1/thumb/usdc.png", fragment := "" }
  else none

end Example

/-- A list of one token and of what is no object. -/
theorem coingecko_bad_tokens_skipped_usdc :
    CoinGeckoSource.BadTokensSkipped Example.usdcEth Example.usdcSplit 1 [("tokens", .list [Example.usdcToken, .null])]
      [Example.usdcToken, .null] := by
  refine (coingecko_bad_tokens_skipped_iff Example.usdcEth Example.usdcSplit 1
    [("tokens", .list [Example.usdcToken, .null])] _ rfl).2 ?_
  exact List.forall_mem_cons.2 ⟨trivial, List.forall_mem_singleton.2 trivial⟩

/-- One superscript digit in the place of a chain loses the whole list. -/
theorem coingecko_bad_tokens_not_always_skipped :
    ¬ ∀ (eth : EthUtils) (urlsplit : UrlSplit) (chainId : Int) (fields : JsonObject) (tokens : List Json),
      JsonObject.get fields "tokens" = .list tokens →
        CoinGeckoSource.BadTokensSkipped eth urlsplit chainId fields tokens := by
  intro hall
  obtain ⟨entries, hentries, -⟩ := hall Example.usdcEth Example.usdcSplit 1
    [("tokens", .list [Example.usdcToken, .dict [("chainId", .str "²")]])]
    [Example.usdcToken, .dict [("chainId", .str "²")]] rfl
  have hreadable := CoinGeckoSource.readable_of_ok rfl hentries (.dict [("chainId", .str "²")]) (by simp)
  have hdigits : isDigitText "²".toList = true ∧ ¬ ∀ c ∈ "²".toList, (decimalValue c).isSome := by decide +kernel
  exact hdigits.2 (hreadable hdigits.1).1

end TokenPriceAgg

import TokenPriceAgg.Core.Validator
import TokenPriceAgg.Lib.Dict
import Mathlib.Data.List.Forall2

/-!
# The merge policy of token metadata

`mergeMetadata` takes each field from the first place that has it: the cache entry, the hint, the default of a native
token.  `mergeMetadata_spec` says so, and that nothing else of the inputs matters.

Addresses are normalized again and again on their way.  `Normalized` addresses are the ones that this leaves alone;
when the address library behaves as documented (`EthUtils.Lawful`), normalizing twice is enough to get one.
-/

namespace TokenPriceAgg

open PyLib

structure TokenMetadata where
  chainId : Int
  address : String
  symbol : Option String := none
  decimals : Option Int := none
  logoUrl : Option String := none
  source : Option String := none
deriving DecidableEq, Repr

/-- `TokenMetadata(...)`. -/
def TokenMetadata.new (eth : EthUtils) (chainId : Int) (address : String) (symbol : Option String)
    (decimals : Option Int) (logoUrl source : Option String) : Except Exn TokenMetadata :=
  (normalizeAddress eth address).map fun address => { chainId, address, symbol, decimals, logoUrl, source }

/-! ### Merging -/

/-- `_pick_first`. -/
def pickFirst {α : Type} : List (Option α) → Option α
  | [] => none
  | some a :: _ => some a
  | none :: rest => pickFirst rest

/-- `CHAINS[chain_id].native_symbol if chain_id in CHAINS else None`. -/
def chainNativeSymbol (chainId : Int) : Option String :=
  [(1, "ETH"), (10, "ETH"), (100, "XDAI"), (137, "POL"), (42161, "ETH"), (43114, "AVAX")].lookup chainId

def tokenLogoOrigin : String := "https://prices.wavey.info"

def tokenLogoUrl (eth : EthUtils) (chainId : Int) (address : String) : Except Exn String :=
  if chainId ≤ 0 then .error (.valueError "chain_id must be positive")
  else (normalizeAddress eth address).map fun normalized =>
    tokenLogoOrigin ++ "/token-logos/" ++ toString chainId ++ "/" ++ normalized.toLower

/-- `_is_native`. -/
def isNative (address : String) (cached hint : Option TokenMetadata) : Bool :=
  cached.any (fun m => isNativeAlias m.address) || hint.any (fun m => isNativeAlias m.address) || isNativeAlias address

def mergeMetadata (eth : EthUtils) (chainId : Int) (address : String) (cached hint : Option TokenMetadata)
    (defaultSource : String) : Except Exn TokenMetadata := do
  let normalized ← normalizeAddress eth address
  let native := isNative normalized cached hint
  let symbol := pickFirst
    [cached.bind (·.symbol), hint.bind (·.symbol), if native then chainNativeSymbol chainId else none]
  let decimals := pickFirst [cached.bind (·.decimals), hint.bind (·.decimals), if native then some 18 else none]
  let source := pickFirst [cached.bind (·.source), hint.bind (·.source), some defaultSource]
  let logoUrl ← tokenLogoUrl eth chainId normalized
  TokenMetadata.new eth chainId normalized symbol decimals (some logoUrl) source

/-- `hints_from_refs`. -/
def hintsFromRefs (eth : EthUtils) (chainId : Int) : List TokenRef → Dict String TokenMetadata →
    Except Exn (Dict String TokenMetadata)
  | [], out => .ok out
  | ref :: refs, out => do
    let address ← normalizeAddress eth ref.address
    let hint ← TokenMetadata.new eth chainId address ref.symbol ref.decimals none (some "provider")
    let merged ← mergeMetadata eth chainId address (out.get? address) (some hint) "provider"
    hintsFromRefs eth chainId refs (out.set address merged)

/-! ### What is known of a token -/

/-- The two fields that are looked up. -/
@[ext] structure Known where
  symbol : Option String
  decimals : Option Int
deriving DecidableEq

def Known.none : Known := ⟨Option.none, Option.none⟩

/-- Each field from the first place that has it. -/
def Known.or (k k' : Known) : Known := ⟨k.symbol.or k'.symbol, k.decimals.or k'.decimals⟩

/-- Whatever is known stays known as it is. -/
structure Known.Le (k k' : Known) : Prop where
  symbol : ∀ symbol, k.symbol = some symbol → k'.symbol = some symbol
  decimals : ∀ decimals, k.decimals = some decimals → k'.decimals = some decimals

theorem Known.Le.refl (k : Known) : k.Le k := ⟨fun _ h => h, fun _ h => h⟩

theorem Known.Le.trans {k₁ k₂ k₃ : Known} (h : k₁.Le k₂) (h' : k₂.Le k₃) : k₁.Le k₃ where
  symbol := fun x hx => h'.symbol x (h.symbol x hx)
  decimals := fun n hn => h'.decimals n (h.decimals n hn)

theorem Known.or_assoc (k₁ k₂ k₃ : Known) : (k₁.or k₂).or k₃ = k₁.or (k₂.or k₃) := by
  simp [Known.or, Option.or_assoc]

theorem Known.or_none (k : Known) : k.or .none = k := by
  simp [Known.or, Known.none]

/-- A default that was taken once adds nothing the second time. -/
theorem Known.or_or_self (k₁ k₂ k₃ : Known) : ((k₁.or k₂).or k₃).or k₂ = (k₁.or k₂).or k₃ := by
  obtain ⟨s₁, d₁⟩ := k₁
  obtain ⟨s₂, d₂⟩ := k₂
  obtain ⟨s₃, d₃⟩ := k₃
  cases s₁ <;> cases s₂ <;> cases s₃ <;> cases d₁ <;> cases d₂ <;> cases d₃ <;> rfl

private theorem option_le_or_iff {α : Type} {x read offered : Option α} :
    (∀ a, x = some a → read.or offered = some a) ↔
      x = none ∨ x = read ∨ (read = none ∧ x = offered) := by
  cases x with
  | none => simp
  | some a =>
    cases read with
    | none => simp [eq_comm]
    | some b => simp [eq_comm]

/-- Each field is null, is what was read, or was not read and is what is offered. -/
structure Known.FitsIn (k read offered : Known) : Prop where
  symbol : k.symbol = Option.none ∨ k.symbol = read.symbol ∨ (read.symbol = Option.none ∧ k.symbol = offered.symbol)
  decimals : k.decimals = Option.none ∨ k.decimals = read.decimals ∨
    (read.decimals = Option.none ∧ k.decimals = offered.decimals)

theorem Known.le_or_iff {k read offered : Known} : k.Le (read.or offered) ↔ k.FitsIn read offered := by
  constructor
  · rintro ⟨hs, hd⟩
    exact ⟨option_le_or_iff.1 hs, option_le_or_iff.1 hd⟩
  · rintro ⟨hs, hd⟩
    exact ⟨option_le_or_iff.2 hs, option_le_or_iff.2 hd⟩

def TokenMetadata.known (m : TokenMetadata) : Known := ⟨m.symbol, m.decimals⟩

/-- What is known of a token that may be missing. -/
def known (m : Option TokenMetadata) : Known := (m.map TokenMetadata.known).getD .none

@[simp] theorem known_some (m : TokenMetadata) : known (some m) = m.known := rfl

/-- The defaults of a native token. -/
def nativeKnown (chainId : Int) (native : Bool) : Known :=
  if native then ⟨chainNativeSymbol chainId, some 18⟩ else .none

private theorem pickFirst_cons {α : Type} (x : Option α) (rest : List (Option α)) :
    pickFirst (x :: rest) = x.or (pickFirst rest) := by
  cases x <;> rfl

/-- What is known of a merged entry: the cache entry first, then the hint, then the defaults. -/
theorem mergeMetadata_spec {eth : EthUtils} {chainId : Int} {address : String} {cached hint : Option TokenMetadata}
    {defaultSource : String} {merged : TokenMetadata} (hn : Normalized eth address)
    (h : mergeMetadata eth chainId address cached hint defaultSource = .ok merged) :
    merged.chainId = chainId ∧ merged.address = address ∧
    merged.known = ((known cached).or (known hint)).or (nativeKnown chainId (isNative address cached hint)) := by
  unfold Normalized at hn
  unfold mergeMetadata at h
  rw [hn] at h
  cases hurl : tokenLogoUrl eth chainId address with
  | error e => simp [hurl, bind, Except.bind] at h
  | ok logoUrl =>
    simp only [hurl, bind, Except.bind, TokenMetadata.new, hn, Except.map, Except.ok.injEq] at h
    subst h
    refine ⟨rfl, rfl, ?_⟩
    have hsymbol (m : Option TokenMetadata) : m.bind (·.symbol) = (known m).symbol := by cases m <;> rfl
    have hdecimals (m : Option TokenMetadata) : m.bind (·.decimals) = (known m).decimals := by cases m <;> rfl
    simp only [TokenMetadata.known, Known.or, pickFirst_cons, pickFirst, Option.or_none, hsymbol, hdecimals,
      Known.mk.injEq, nativeKnown, Known.none]
    split <;> simp [Option.or_assoc]

/-- Entries under their own address do not change whether the address is native. -/
theorem isNative_of_address {address : String} {cached hint : Option TokenMetadata}
    (hc : ∀ m, cached = some m → m.address = address) (hh : ∀ m, hint = some m → m.address = address) :
    isNative address cached hint = isNativeAlias address := by
  unfold isNative
  cases cached <;> cases hint <;> simp_all

/-- Every hint stands under its own address. -/
theorem hintsFromRefs_address {eth : EthUtils} (hlaw : eth.Lawful) {chainId : Int} {refs : List TokenRef}
    {out hinted : Dict String TokenMetadata} (h : hintsFromRefs eth chainId refs out = .ok hinted)
    (hrefs : ∀ ref ∈ refs, ∃ raw, normalizeAddress eth raw = .ok ref.address)
    (hout : ∀ address m, out.get? address = some m → m.address = address) :
    ∀ address m, hinted.get? address = some m → m.address = address := by
  induction refs generalizing out with
  | nil =>
    cases h
    exact hout
  | cons ref refs ih =>
    obtain ⟨raw, hraw⟩ := hrefs ref List.mem_cons_self
    unfold hintsFromRefs at h
    cases ha : normalizeAddress eth ref.address with
    | error e => simp [ha, bind, Except.bind] at h
    | ok address =>
      have hn : Normalized eth address := normalized_of_twice hlaw hraw ha
      have hn' : normalizeAddress eth address = .ok address := hn
      simp only [ha, bind, Except.bind, TokenMetadata.new, hn', Except.map] at h
      split at h
      · cases h
      · rename_i merged hm
        refine ih h (fun r hr => hrefs r (List.mem_cons_of_mem _ hr)) fun k m hk => ?_
        rw [Dict.get?_set] at hk
        split at hk
        · cases hk
          rw [(mergeMetadata_spec hn hm).2.1, ‹k = address›]
        · exact hout k m hk

end TokenPriceAgg

import TokenPriceAgg.Lib.Eff
import TokenPriceAgg.TokenMetadata.Policy

/-!
# The `token_metadata` table

`getMany` and `upsertMany` of `TokenMetadataCache`.  A table is a dictionary from primary keys to rows; the lock of the
cache makes each of the two one atomic step.
-/

namespace TokenPriceAgg

open PyLib

/-- `(chain_id, address)`. -/
abbrev TokenKey := Int × String

structure MetadataRow where
  symbol : Option String
  decimals : Option Int
  source : Option String
  updatedAt : Int
deriving DecidableEq, Repr

abbrev MetadataTable := Dict TokenKey MetadataRow

/-- `list(dict.fromkeys(xs))`. -/
def fromKeys (xs : List String) : List String := xs.eraseDups

/-- `_normalize_addresses`. -/
def normalizeAddresses (eth : EthUtils) (addresses : List String) : Except Exn (List String) :=
  (addresses.mapM (normalizeAddress eth)).map fromKeys

/-- The selected rows as metadata, by their addresses. -/
def metadataOfRows (eth : EthUtils) (chainId : Int) (table : MetadataTable) :
    List String → Dict String TokenMetadata → Except Exn (Dict String TokenMetadata)
  | [], out => .ok out
  | address :: addresses, out =>
    match table.get? (chainId, address) with
    | none => metadataOfRows eth chainId table addresses out
    | some row => do
      let metadata ← TokenMetadata.new eth chainId address row.symbol row.decimals none row.source
      metadataOfRows eth chainId table addresses (out.set metadata.address metadata)

def getMany (eth : EthUtils) (chainId : Int) (addresses : List String) (table : MetadataTable) :
    Except Exn (Dict String TokenMetadata) := do
  let normalized ← normalizeAddresses eth addresses
  metadataOfRows eth chainId table normalized .empty

/-- The parameters of one `INSERT ... ON CONFLICT DO UPDATE`. -/
def upsertParams (eth : EthUtils) (now : Int) (item : TokenMetadata) : Except Exn (TokenKey × MetadataRow) :=
  (normalizeAddress eth item.address).map fun address =>
    ((item.chainId, address), ⟨item.symbol, item.decimals, item.source, now⟩)

def upsertMany (eth : EthUtils) (now : Int) (items : List TokenMetadata) (table : MetadataTable) :
    Except Exn MetadataTable :=
  (items.mapM (upsertParams eth now)).map (table.setMany ·)

/-! ### What is read and what is written -/

variable {eth : EthUtils} {chainId : Int} {table : MetadataTable}

/-- The row of a key as metadata. -/
def rowMetadata (table : MetadataTable) (chainId : Int) (address : String) : Option TokenMetadata :=
  (table.get? (chainId, address)).map fun row => ⟨chainId, address, row.symbol, row.decimals, none, row.source⟩

private theorem metadataOfRows_get? {addresses : List String} {out d : Dict String TokenMetadata}
    (h : metadataOfRows eth chainId table addresses out = .ok d) (hn : ∀ a ∈ addresses, Normalized eth a)
    (address : String) :
    d.get? address =
      if address ∈ addresses then (rowMetadata table chainId address).or (out.get? address) else out.get? address := by
  induction addresses generalizing out with
  | nil =>
    cases h
    simp
  | cons a addresses ih =>
    have ha : Normalized eth a := hn a List.mem_cons_self
    have ih {out} (h : metadataOfRows eth chainId table addresses out = .ok d) :=
      ih h fun b hb => hn b (List.mem_cons_of_mem _ hb)
    unfold metadataOfRows at h
    split at h
    · rename_i hrow
      rw [ih h]
      by_cases hc : address = a
      · subst hc
        simp [rowMetadata, hrow]
      · simp [hc]
    · rename_i row hrow
      unfold Normalized at ha
      simp only [TokenMetadata.new, ha, Except.map, bind, Except.bind] at h
      rw [ih h]
      by_cases hc : address = a
      · subst hc
        simp [rowMetadata, hrow]
      · simp [hc, Dict.get?_set_of_ne]

/-- What `getMany` returns for normalized addresses. -/
theorem getMany_get? {addresses : List String} {d : Dict String TokenMetadata}
    (h : getMany eth chainId addresses table = .ok d) (hn : ∀ a ∈ addresses, Normalized eth a) {address : String}
    (hmem : address ∈ addresses) : d.get? address = rowMetadata table chainId address := by
  have hself : addresses.mapM (normalizeAddress eth) = .ok addresses :=
    Eff.mapM_eq_ok.2 (List.forall₂_same.2 hn)
  simp only [getMany, normalizeAddresses, hself, Except.map, bind, Except.bind] at h
  have hfrom (a : String) : a ∈ fromKeys addresses ↔ a ∈ addresses := List.mem_eraseDups
  rw [metadataOfRows_get? h (fun a ha => hn a ((hfrom a).1 ha)), if_pos ((hfrom address).2 hmem), Dict.get?_empty,
    Option.or_none]

/-- The row that an item becomes. -/
def TokenMetadata.row (item : TokenMetadata) (now : Int) : MetadataRow := ⟨item.symbol, item.decimals, item.source, now⟩

def TokenMetadata.key (item : TokenMetadata) : TokenKey := (item.chainId, item.address)

theorem upsertMany_of_normalized {now : Int} {items : List TokenMetadata}
    (hn : ∀ item ∈ items, Normalized eth item.address) :
    upsertMany eth now items table = .ok (table.setMany (items.map fun item => (item.key, item.row now))) := by
  have hparams : items.mapM (upsertParams eth now) = .ok (items.map fun item => (item.key, item.row now)) := by
    refine Eff.mapM_eq_ok.2 (List.forall₂_map_right_iff.2 (List.forall₂_same.2 fun item hi => ?_))
    have hi := hn item hi
    unfold Normalized at hi
    unfold upsertParams
    rw [hi]
    rfl
  unfold upsertMany
  rw [hparams]
  rfl

theorem nodup_fromKeys (xs : List String) : (fromKeys xs).Nodup := nodup_eraseDups xs

end TokenPriceAgg

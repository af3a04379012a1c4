import TokenPriceAgg.Lib.Runs
import TokenPriceAgg.TokenMetadata.Cache
import TokenPriceAgg.Vault.Rpc

/-!
# Concurrent resolutions of token metadata

Any number of calls of `_resolve` share the `token_metadata` table.  A call reads its rows, merges the hints of the
request into them, waits for the chain, merges its answers and writes whole rows back; other calls run in between.

The merge policy puts what was read first, but only what was read.  `Kept` says that no stored symbol and no stored
decimals change; a run keeps them exactly when every row is written over the fields that were read or that the call
itself has to offer (`stored_metadata_kept_iff`).
-/

namespace TokenPriceAgg

open PyLib

/-! ### One call -/

/-- The arguments of a `TokenRef` besides its chain. -/
structure RefArgs where
  address : String
  symbol : Option String := none
  decimals : Option Int := none
deriving DecidableEq, Repr

structure ResolveRequest where
  chainId : Int
  /-- `unique_addresses` -/
  addresses : List String
  refs : List TokenRef
  source : String

/-- The head of `_resolve`, with the references it is called on; `none` when there is nothing to resolve. -/
def ResolveRequest.new (eth : EthUtils) (enabled : List Int) (chainId : Int) (args : List RefArgs) (source : String) :
    Except Exn (Option ResolveRequest) := do
  let refs ← args.mapM fun arg => TokenRef.new eth chainId arg.address arg.symbol arg.decimals
  if chainId ∈ enabled then
    let addresses ← refs.mapM fun ref => normalizeAddress eth ref.address
    if addresses.isEmpty then pure none
    else pure (some { chainId, addresses := fromKeys addresses, refs, source })
  else .error (.invalidRequest "UNSUPPORTED_CHAIN" ("Chain " ++ toString chainId ++ " is not enabled"))

/-- What a call knows about its addresses, in their order. -/
abbrev Merged := List (String × TokenMetadata)

/-- What the chain answers for an address: its symbol and its decimals. -/
abbrev OnchainAnswers := Dict String (Option String × Option Int)

namespace ResolveRequest

variable (eth : EthUtils) (req : ResolveRequest)

def mergeCached (cached hinted : Dict String TokenMetadata) : Except Exn Merged :=
  req.addresses.mapM fun address => do
    let merged ← mergeMetadata eth req.chainId address (cached.get? address) (hinted.get? address) req.source
    pure (address, merged)

def onchainMetadata (address : String) (answer : Option String × Option Int) : Except Exn TokenMetadata :=
  TokenMetadata.new eth req.chainId address answer.1 answer.2 none (some "onchain_multicall")

def mergeOnchain (answers : OnchainAnswers) (merged : Merged) : Except Exn Merged :=
  merged.mapM fun p =>
    match answers.get? p.1 with
    | none => pure p
    | some answer => do
      let value ← req.onchainMetadata eth p.1 answer
      let merged ← mergeMetadata eth req.chainId p.1 (some p.2) (some value) "onchain_multicall"
      pure (p.1, merged)

end ResolveRequest

/-- The addresses the chain is asked about. -/
def unresolved (merged : Merged) : List String :=
  (merged.filter fun p => !isNativeAlias p.2.address && (p.2.symbol.isNone || p.2.decimals.isNone)).map Prod.fst

/-- `metadata.model_copy(update={"logo_url": None})`. -/
def TokenMetadata.stored (m : TokenMetadata) : TokenMetadata := { m with logoUrl := none }

def toPersist (cached : Dict String TokenMetadata) (merged : Merged) : List TokenMetadata :=
  (merged.map fun p => p.2.stored).filter fun stored => some stored ≠ cached.get? stored.address

/-! ### The calls in flight -/

/-- What a call waits for. -/
inductive ResolveStage
  | reading
  | fetching (cached hinted : Dict String TokenMetadata) (merged : Merged)
  | persisting (cached hinted : Dict String TokenMetadata) (answers : OnchainAnswers) (merged : Merged)

structure ResolveCall where
  req : ResolveRequest
  stage : ResolveStage

inductive ResolveEvent
  | call (id : Nat) (chainId : Int) (args : List RefArgs) (source : String)
  | read (id : Nat)
  /-- the answers of the chain; a failure of the fetch is an answer without entries -/
  | fetched (id : Nat) (answers : OnchainAnswers)
  | persist (id : Nat) (now : Int)
  /-- the call is cancelled, or a thread it waits for raises -/
  | abandon (id : Nat)

structure ResolveState where
  table : MetadataTable
  calls : Dict Nat ResolveCall

namespace ResolveState

/-- The call goes on, or raises. -/
def advance (s : ResolveState) (id : Nat) (req : ResolveRequest) (stage : Except Exn ResolveStage) : ResolveState :=
  match stage with
  | .ok stage => { s with calls := s.calls.set id ⟨req, stage⟩ }
  | .error _ => { s with calls := s.calls.pop id }

/-- `get_many` and the merge of the hints. -/
def readStage (eth : EthUtils) (req : ResolveRequest) (table : MetadataTable) : Except Exn ResolveStage := do
  let cached ← getMany eth req.chainId req.addresses table
  let hinted ← hintsFromRefs eth req.chainId req.refs .empty
  let merged ← req.mergeCached eth cached hinted
  pure (.fetching cached hinted merged)

def fetchedStage (eth : EthUtils) (req : ResolveRequest) (cached hinted : Dict String TokenMetadata)
    (answers : OnchainAnswers) (merged : Merged) : Except Exn ResolveStage := do
  let merged ← req.mergeOnchain eth answers merged
  pure (.persisting cached hinted answers merged)

def step (eth : EthUtils) (enabled : List Int) (s : ResolveState) : ResolveEvent → Option ResolveState
  | .call id chainId args source =>
    if s.calls.get? id = none then
      match ResolveRequest.new eth enabled chainId args source with
      | .ok (some req) => some { s with calls := s.calls.set id ⟨req, .reading⟩ }
      | _ => some s
    else none
  | .read id =>
    match s.calls.get? id with
    | some ⟨req, .reading⟩ => some (s.advance id req (readStage eth req s.table))
    | _ => none
  | .fetched id answers =>
    match s.calls.get? id with
    | some ⟨req, .fetching cached hinted merged⟩ =>
      if ∀ p ∈ answers.items, p.1 ∈ unresolved merged then
        some (s.advance id req (fetchedStage eth req cached hinted answers merged))
      else none
    | _ => none
  | .persist id now =>
    match s.calls.get? id with
    | some ⟨_, .persisting cached _ _ merged⟩ =>
      match upsertMany eth now (toPersist cached merged) s.table with
      | .ok table => some { table, calls := s.calls.pop id }
      | .error _ => some { s with calls := s.calls.pop id }
    | _ => none
  | .abandon id =>
    match s.calls.get? id with
    | some _ => some { s with calls := s.calls.pop id }
    | none => none

end ResolveState

/-! ### What a call has merged -/

section Merging

variable {eth : EthUtils} {req : ResolveRequest} {cached hinted : Dict String TokenMetadata} {answers : OnchainAnswers}

/-- What a call offers for an address before it asks the chain. -/
def hintedKnown (req : ResolveRequest) (hinted : Dict String TokenMetadata) (address : String) : Known :=
  (known (hinted.get? address)).or (nativeKnown req.chainId (isNativeAlias address))

def answeredKnown (answers : OnchainAnswers) (address : String) : Known :=
  ((answers.get? address).map fun answer => ⟨answer.1, answer.2⟩).getD .none

/-- What a call offers for an address: its hint, the defaults of a native token, then the answer of the chain. -/
def offeredKnown (req : ResolveRequest) (hinted : Dict String TokenMetadata) (answers : OnchainAnswers)
    (address : String) : Known :=
  (hintedKnown req hinted address).or (answeredKnown answers address)

/-- The entries are those of the addresses of the request, each with what was read and then what is offered. -/
structure MergedOf (req : ResolveRequest) (cached : Dict String TokenMetadata) (offered : String → Known)
    (merged : Merged) : Prop where
  addresses : merged.map Prod.fst = req.addresses
  entry : ∀ p ∈ merged, p.2.chainId = req.chainId ∧ p.2.address = p.1 ∧
    p.2.known = (known (cached.get? p.1)).or (offered p.1)

private theorem mergeCached_spec {merged : Merged} (hn : ∀ a ∈ req.addresses, Normalized eth a)
    (hc : ∀ a ∈ req.addresses, ∀ m, cached.get? a = some m → m.address = a)
    (hh : ∀ a m, hinted.get? a = some m → m.address = a) (h : req.mergeCached eth cached hinted = .ok merged) :
    MergedOf req cached (hintedKnown req hinted) merged where
  addresses := by
    have hfst := Eff.mapM_ok_map (g := Prod.fst) (k := id) h fun a _ p hp => by
      cases hm : mergeMetadata eth req.chainId a (cached.get? a) (hinted.get? a) req.source with
      | error e => simp [hm, bind, Except.bind] at hp
      | ok m =>
        simp only [hm, bind, Except.bind, pure, Except.pure, Except.ok.injEq] at hp
        rw [← hp, id]
    rw [hfst, List.map_id]
  entry := by
    intro p hp
    obtain ⟨a, ha, hf⟩ := Eff.mapM_ok_mem h hp
    cases hm : mergeMetadata eth req.chainId a (cached.get? a) (hinted.get? a) req.source with
    | error e => simp [hm, bind, Except.bind] at hf
    | ok m =>
      simp only [hm, bind, Except.bind, pure, Except.pure, Except.ok.injEq] at hf
      subst hf
      obtain ⟨hchain, haddress, hknown⟩ := mergeMetadata_spec (hn a ha) hm
      rw [isNative_of_address (hc a ha) (hh a), Known.or_assoc] at hknown
      exact ⟨hchain, haddress, hknown⟩

private theorem mergeOnchain_spec {merged merged' : Merged} (hn : ∀ a ∈ req.addresses, Normalized eth a)
    (hm : MergedOf req cached (hintedKnown req hinted) merged) (h : req.mergeOnchain eth answers merged = .ok merged') :
    MergedOf req cached (offeredKnown req hinted answers) merged' := by
  have hentry (p p' : String × TokenMetadata) (hp : p ∈ merged)
      (hf : (match answers.get? p.1 with
        | none => pure p
        | some answer => do
          let value ← req.onchainMetadata eth p.1 answer
          let merged ← mergeMetadata eth req.chainId p.1 (some p.2) (some value) "onchain_multicall"
          pure (p.1, merged) : Except Exn (String × TokenMetadata)) = .ok p') :
      p'.1 = p.1 ∧ p'.2.chainId = req.chainId ∧ p'.2.address = p'.1 ∧
        p'.2.known = (known (cached.get? p'.1)).or (offeredKnown req hinted answers p'.1) := by
    obtain ⟨a, m⟩ := p
    obtain ⟨hchain, haddress, hknown⟩ := hm.entry (a, m) hp
    have hna : Normalized eth a := by
      refine hn a ?_
      rw [← hm.addresses]
      exact List.mem_map_of_mem hp
    dsimp only at hf hchain haddress hknown
    split at hf
    · rename_i hans
      cases hf
      refine ⟨rfl, hchain, haddress, ?_⟩
      simp only [offeredKnown, answeredKnown, hans, Option.map_none, Option.getD_none, Known.or_none]
      exact hknown
    · rename_i answer hans
      have hna' : normalizeAddress eth a = .ok a := hna
      simp only [ResolveRequest.onchainMetadata, TokenMetadata.new, hna', Except.map, bind, Except.bind] at hf
      split at hf
      · cases hf
      · rename_i m' hm'
        cases hf
        obtain ⟨hchain', haddress', hknown'⟩ := mergeMetadata_spec hna hm'
        refine ⟨rfl, hchain', haddress', ?_⟩
        rw [isNative_of_address (by rintro _ ⟨⟩; exact haddress) (by rintro _ ⟨⟩; rfl)] at hknown'
        rw [hknown', known_some, hknown, known_some]
        simp only [offeredKnown, answeredKnown, hans, Option.map_some, Option.getD_some, hintedKnown]
        rw [← Known.or_assoc _ (known _), Known.or_or_self]
        simp only [Known.or_assoc]
        rfl
  constructor
  · rw [← hm.addresses]
    exact Eff.mapM_ok_map h fun p hp p' hf => (hentry p p' hp hf).1
  · intro p' hp'
    obtain ⟨p, hp, hf⟩ := Eff.mapM_ok_mem h hp'
    exact (hentry p p' hp hf).2

/-- No row is written twice. -/
private theorem toPersist_keys {offered : String → Known} {merged : Merged} (hm : MergedOf req cached offered merged)
    (hn : req.addresses.Nodup) : ((toPersist cached merged).map TokenMetadata.key).Nodup := by
  refine List.Nodup.sublist (List.filter_sublist.map TokenMetadata.key) ?_
  have hkeys : (merged.map fun p => p.2.stored).map TokenMetadata.key =
      req.addresses.map fun a => (req.chainId, a) := by
    rw [← hm.addresses, List.map_map, List.map_map]
    refine List.map_congr_left fun p hp => ?_
    obtain ⟨hchain, haddress, -⟩ := hm.entry p hp
    simp [TokenMetadata.key, TokenMetadata.stored, hchain, haddress]
  rw [hkeys]
  exact hn.map fun a b h => (Prod.mk.inj h).2

private theorem mem_toPersist {offered : String → Known} {merged : Merged} (hm : MergedOf req cached offered merged)
    {item : TokenMetadata} (hi : item ∈ toPersist cached merged) :
    item.chainId = req.chainId ∧ item.address ∈ req.addresses ∧
      item.known = (known (cached.get? item.address)).or (offered item.address) := by
  obtain ⟨p, hp, rfl⟩ := List.mem_map.1 (List.mem_of_mem_filter hi)
  obtain ⟨hchain, haddress, hknown⟩ := hm.entry p hp
  have hstored : p.2.stored.address = p.1 := haddress
  refine ⟨hchain, ?_, ?_⟩
  · rw [hstored, ← hm.addresses]
    exact List.mem_map_of_mem hp
  · rw [hstored]
    exact hknown

end Merging

/-! ### What the calls in flight hold -/

def MetadataRow.known (row : MetadataRow) : Known := ⟨row.symbol, row.decimals⟩

/-- No stored symbol and no stored decimals changes or is dropped. -/
def MetadataTable.Kept (t t' : MetadataTable) : Prop :=
  ∀ key row, t.get? key = some row → ∃ row', t'.get? key = some row' ∧ row.known.Le row'.known

private theorem MetadataTable.Kept.refl (t : MetadataTable) : MetadataTable.Kept t t :=
  fun _ row h => ⟨row, h, .refl _⟩

private theorem MetadataTable.Kept.trans {t₁ t₂ t₃ : MetadataTable} (h : MetadataTable.Kept t₁ t₂)
    (h' : MetadataTable.Kept t₂ t₃) : MetadataTable.Kept t₁ t₃ := by
  intro key row hrow
  obtain ⟨row', hrow', hle⟩ := h key row hrow
  obtain ⟨row'', hrow'', hle'⟩ := h' key row' hrow'
  exact ⟨row'', hrow'', hle.trans hle'⟩

/-- What a call in flight keeps of its request. -/
structure ResolveRequest.Ok (eth : EthUtils) (req : ResolveRequest) : Prop where
  normalized : ∀ a ∈ req.addresses, Normalized eth a
  nodup : req.addresses.Nodup
  refs : ∀ ref ∈ req.refs, ∃ raw, normalizeAddress eth raw = .ok ref.address

/-- What a call in flight has merged so far. -/
def ResolveStage.Ok (req : ResolveRequest) : ResolveStage → Prop
  | .reading => True
  | .fetching cached hinted merged => MergedOf req cached (hintedKnown req hinted) merged
  | .persisting cached hinted answers merged => MergedOf req cached (offeredKnown req hinted answers) merged

namespace ResolveState

variable {eth : EthUtils} {enabled : List Int} {s s' : ResolveState} {e : ResolveEvent}

def Ok (eth : EthUtils) (s : ResolveState) : Prop :=
  ∀ id call, s.calls.get? id = some call → call.req.Ok eth ∧ call.stage.Ok call.req

private theorem request_ok (hlaw : eth.Lawful) {chainId : Int} {args : List RefArgs} {source : String}
    {req : ResolveRequest} (h : ResolveRequest.new eth enabled chainId args source = .ok (some req)) : req.Ok eth := by
  unfold ResolveRequest.new at h
  cases hr : args.mapM fun arg => TokenRef.new eth chainId arg.address arg.symbol arg.decimals with
  | error e => simp [hr, bind, Except.bind] at h
  | ok refs =>
    have hrefs : ∀ ref ∈ refs, ∃ raw, normalizeAddress eth raw = .ok ref.address := by
      intro ref hmem
      obtain ⟨arg, -, hf⟩ := Eff.mapM_ok_mem hr hmem
      refine ⟨arg.address, ?_⟩
      unfold TokenRef.new at hf
      cases hn : normalizeAddress eth arg.address with
      | error e => simp [hn, Except.map] at hf
      | ok address =>
        simp only [hn, Except.map, Except.ok.injEq] at hf
        rw [← hf]
    simp only [hr, bind, Except.bind] at h
    split at h
    · cases ha : refs.mapM fun ref => normalizeAddress eth ref.address with
      | error e => simp [ha] at h
      | ok addresses =>
        simp only [ha, pure, Except.pure] at h
        split at h
        · cases h
        · simp only [Except.ok.injEq, Option.some.injEq] at h
          subst h
          refine ⟨fun a hmem => ?_, nodup_fromKeys addresses, hrefs⟩
          obtain ⟨ref, href, hf⟩ := Eff.mapM_ok_mem ha (List.mem_eraseDups.1 hmem)
          obtain ⟨raw, hraw⟩ := hrefs ref href
          exact normalized_of_twice hlaw hraw hf
    · cases h

private theorem readStage_ok {req : ResolveRequest} (hreq : req.Ok eth) (hlaw : eth.Lawful) {table : MetadataTable}
    {stage : ResolveStage} (h : readStage eth req table = .ok stage) : stage.Ok req := by
  unfold readStage at h
  cases hc : getMany eth req.chainId req.addresses table with
  | error e => simp [hc, bind, Except.bind] at h
  | ok cached =>
    cases hh : hintsFromRefs eth req.chainId req.refs .empty with
    | error e => simp [hc, hh, bind, Except.bind] at h
    | ok hinted =>
      cases hm : req.mergeCached eth cached hinted with
      | error e => simp [hc, hh, hm, bind, Except.bind] at h
      | ok merged =>
        simp only [hc, hh, hm, bind, Except.bind, pure, Except.pure, Except.ok.injEq] at h
        subst h
        refine mergeCached_spec hreq.normalized ?_ ?_ hm
        · intro a ha m hget
          rw [getMany_get? hc hreq.normalized ha] at hget
          obtain ⟨row, -, rfl⟩ := Option.map_eq_some_iff.1 hget
          rfl
        · exact hintsFromRefs_address hlaw hh hreq.refs fun _ _ h => nomatch h

private theorem fetchedStage_ok {req : ResolveRequest} (hreq : req.Ok eth) {cached hinted : Dict String TokenMetadata}
    {answers : OnchainAnswers} {merged : Merged} (hm : MergedOf req cached (hintedKnown req hinted) merged)
    {stage : ResolveStage} (h : fetchedStage eth req cached hinted answers merged = .ok stage) : stage.Ok req := by
  unfold fetchedStage at h
  cases ho : req.mergeOnchain eth answers merged with
  | error e => simp [ho, bind, Except.bind] at h
  | ok merged' =>
    simp only [ho, bind, Except.bind, pure, Except.pure, Except.ok.injEq] at h
    subst h
    exact mergeOnchain_spec hreq.normalized hm ho

theorem Ok.set {t : MetadataTable} (ok : s.Ok eth) {id : Nat} {call : ResolveCall}
    (h : call.req.Ok eth ∧ call.stage.Ok call.req) : Ok eth ⟨t, s.calls.set id call⟩ := by
  intro id' call' hget
  change (s.calls.set id call).get? id' = some call' at hget
  rw [Dict.get?_set] at hget
  split at hget
  · cases hget
    exact h
  · exact ok id' call' hget

theorem Ok.pop {t : MetadataTable} (ok : s.Ok eth) (id : Nat) : Ok eth ⟨t, s.calls.pop id⟩ :=
  fun id' call' hget => ok id' call' (Dict.get?_pop_imp hget)

private theorem Ok.advance (ok : s.Ok eth) {id : Nat} {req : ResolveRequest} (hreq : req.Ok eth)
    {stage : Except Exn ResolveStage} (h : ∀ stage', stage = .ok stage' → stage'.Ok req) :
    (s.advance id req stage).Ok eth := by
  cases stage with
  | ok stage => exact ok.set ⟨hreq, h stage rfl⟩
  | error e => exact ok.pop id

/-- Every step keeps what the calls in flight hold. -/
theorem Ok.step (hlaw : eth.Lawful) (ok : s.Ok eth) (h : s.step eth enabled e = some s') : s'.Ok eth := by
  cases e with
  | call id chainId args source =>
    simp only [ResolveState.step] at h
    split at h
    · split at h
      · cases h
        exact ok.set ⟨request_ok hlaw ‹_›, trivial⟩
      · cases h
        exact ok
    · cases h
  | read id =>
    simp only [ResolveState.step] at h
    split at h
    · rename_i req hcall
      cases h
      have hreq := (ok id _ hcall).1
      exact ok.advance hreq fun stage => readStage_ok hreq hlaw
    · cases h
  | fetched id answers =>
    simp only [ResolveState.step] at h
    split at h
    · rename_i req cached hinted merged hcall
      split at h
      · cases h
        obtain ⟨hreq, hm⟩ := ok id _ hcall
        exact ok.advance hreq fun stage => fetchedStage_ok hreq hm
      · cases h
    · cases h
  | persist id now =>
    simp only [ResolveState.step] at h
    split at h
    · split at h <;> cases h <;> exact ok.pop id
    · cases h
  | abandon id =>
    simp only [ResolveState.step] at h
    split at h
    · cases h
      exact ok.pop id
    · cases h

/-- Every row that the step writes held, in each of the two fields, nothing, what the call has read, or what the call
itself offers. -/
def WritesCurrent (s : ResolveState) (e : ResolveEvent) : Prop :=
  ∀ id now req cached hinted answers merged, e = .persist id now →
    s.calls.get? id = some ⟨req, .persisting cached hinted answers merged⟩ →
    ∀ item ∈ toPersist cached merged, ∀ row, s.table.get? (req.chainId, item.address) = some row →
      row.known.FitsIn (known (cached.get? item.address)) (offeredKnown req hinted answers item.address)

/-- What the upsert of a call in flight leaves in the table. -/
private theorem upsert_kept_iff
    {req : ResolveRequest} {cached hinted : Dict String TokenMetadata} {answers : OnchainAnswers}
    {merged : Merged} (hreq : req.Ok eth) (hm : MergedOf req cached (offeredKnown req hinted answers) merged)
    {now : Int} {t t' : MetadataTable} (h : upsertMany eth now (toPersist cached merged) t = .ok t') :
    t.Kept t' ↔ ∀ item ∈ toPersist cached merged, ∀ row, t.get? (req.chainId, item.address) = some row →
      row.known.FitsIn (known (cached.get? item.address)) (offeredKnown req hinted answers item.address) := by
  have hitems : ∀ item ∈ toPersist cached merged, Normalized eth item.address :=
    fun item hi => hreq.normalized _ (mem_toPersist hm hi).2.1
  rw [upsertMany_of_normalized hitems, Except.ok.injEq] at h
  subst h
  have hkeys : ((toPersist cached merged).map fun item => (item.key, item.row now)).map Prod.fst =
      (toPersist cached merged).map TokenMetadata.key := by
    rw [List.map_map]
    rfl
  constructor
  · intro hkept item hi row hrow
    obtain ⟨hchain, -, hknown⟩ := mem_toPersist hm hi
    obtain ⟨row', hrow', hle⟩ := hkept _ row hrow
    have hkey : item.key = (req.chainId, item.address) := by rw [TokenMetadata.key, hchain]
    have hnew := Dict.get?_setMany_of_mem (by rw [hkeys]; exact toPersist_keys hm hreq.nodup)
      (List.mem_map_of_mem (f := fun item => (TokenMetadata.key item, TokenMetadata.row item now)) hi) t
    rw [← hkey, hnew] at hrow'
    cases hrow'
    refine Known.le_or_iff.1 ?_
    rw [← hknown]
    exact hle
  · intro hfit key row hrow
    rcases t.get?_setMany_cases ((toPersist cached merged).map fun item => (item.key, item.row now)) key with
      ⟨-, he⟩ | ⟨v, hv, he⟩
    · exact ⟨row, he.trans hrow, .refl _⟩
    · obtain ⟨item, hi, hiv⟩ := List.mem_map.1 hv
      cases hiv
      obtain ⟨hchain, -, hknown⟩ := mem_toPersist hm hi
      refine ⟨_, he, ?_⟩
      have hrow' : t.get? (req.chainId, item.address) = some row := by
        rw [← hchain]
        exact hrow
      have hle := Known.le_or_iff.2 (hfit item hi row hrow')
      rw [← hknown] at hle
      exact hle

/-- Only an upsert changes the table. -/
private theorem step_table (h : s.step eth enabled e = some s') :
    s'.table = s.table ∨ ∃ id now req cached hinted answers merged, e = .persist id now ∧
      s.calls.get? id = some ⟨req, .persisting cached hinted answers merged⟩ ∧
      upsertMany eth now (toPersist cached merged) s.table = .ok s'.table := by
  cases e with
  | call id chainId args source =>
    simp only [ResolveState.step] at h
    split at h
    · split at h <;> cases h <;> exact .inl rfl
    · cases h
  | read id =>
    simp only [ResolveState.step] at h
    split at h
    · rename_i req hcall
      cases h
      refine .inl ?_
      unfold advance
      split <;> rfl
    · cases h
  | fetched id answers =>
    simp only [ResolveState.step] at h
    split at h
    · split at h
      · cases h
        refine .inl ?_
        unfold advance
        split <;> rfl
      · cases h
    · cases h
  | persist id now =>
    simp only [ResolveState.step] at h
    split at h
    · rename_i req cached hinted answers merged hcall
      split at h
      · rename_i table ht
        cases h
        exact .inr ⟨id, now, req, cached, hinted, answers, merged, rfl, hcall, ht⟩
      · cases h
        exact .inl rfl
    · cases h
  | abandon id =>
    simp only [ResolveState.step] at h
    split at h
    · cases h
      exact .inl rfl
    · cases h

/-- A step keeps what is stored exactly when it writes over current rows. -/
private theorem writesCurrent_iff (ok : s.Ok eth) :
    s.WritesCurrent e ↔ ∀ s', s.step eth enabled e = some s' → s.table.Kept s'.table := by
  constructor
  · intro hcur s' h
    rcases step_table h with ht | ⟨id, now, req, cached, hinted, answers, merged, rfl, hcall, ht⟩
    · rw [ht]
      exact .refl _
    · obtain ⟨hreq, hm⟩ := ok id _ hcall
      exact (upsert_kept_iff hreq hm ht).2 (hcur id now req cached hinted answers merged rfl hcall)
  · rintro h id now req cached hinted answers merged rfl hcall
    obtain ⟨hreq, hm⟩ := ok id _ hcall
    have hitems : ∀ item ∈ toPersist cached merged, Normalized eth item.address :=
      fun item hi => hreq.normalized _ (mem_toPersist hm hi).2.1
    obtain ⟨table, ht⟩ : ∃ table, upsertMany eth now (toPersist cached merged) s.table = .ok table :=
      ⟨_, upsertMany_of_normalized hitems⟩
    refine (upsert_kept_iff hreq hm ht).1 (h ⟨table, s.calls.pop id⟩ ?_)
    simp only [ResolveState.step, hcall, ht]

end ResolveState

/-! ### Whole runs -/

/-- In every run of concurrent resolutions the stored symbols and decimals are kept from every state to every later
one exactly when each upsert writes over current rows. -/
theorem stored_metadata_kept_iff {eth : EthUtils} (hlaw : eth.Lawful) (enabled : List Int) (table : MetadataTable)
    (events : List ResolveEvent) :
    Between (ResolveState.step eth enabled) (fun s s' => s.table.Kept s'.table) ⟨table, .empty⟩ events ↔
      Along (ResolveState.step eth enabled) ResolveState.WritesCurrent ⟨table, .empty⟩ events := by
  have hstart : ResolveState.Ok eth ⟨table, .empty⟩ := fun _ _ h => nomatch h
  rw [between_iff_steps (fun s => .refl s.table) (fun _ _ _ h h' => h.trans h')]
  exact (along_congr (I := ResolveState.Ok eth) (fun _ _ _ ok h => ok.step hlaw h)
    (fun _ _ ok => ResolveState.writesCurrent_iff ok) hstart).symm

private def usdc : String := "0xA0b86991c6218b36c1d19D4a2e9Eb0cE3606eB48"

/-- An address library for the example: every address is its own checksum address. -/
private def plainEth : EthUtils := ⟨fun _ => true, .ok⟩

private theorem plainEth_lawful : plainEth.Lawful where
  isAddress := fun _ _ _ => rfl
  checksum := fun _ _ _ => rfl

/-- Two requests for one token read an empty table.  One comes with its symbol, the other with its decimals. -/
private def complementaryHints : List ResolveEvent :=
  [.call 1 1 [{ address := usdc, symbol := some "USDC" }] "provider",
    .call 2 1 [{ address := usdc, decimals := some 6 }] "provider",
    .read 1, .read 2, .fetched 1 .empty, .fetched 2 .empty, .persist 1 1000]

private theorem complementaryHints_lost :
    ∃ s s', run (ResolveState.step plainEth [1]) ⟨.empty, .empty⟩ complementaryHints = some s ∧
      run (ResolveState.step plainEth [1]) s [.persist 2 1001] = some s' ∧
      (s.table.get? (1, usdc)).map MetadataRow.known = some ⟨some "USDC", none⟩ ∧
      (s'.table.get? (1, usdc)).map MetadataRow.known = some ⟨none, some 6⟩ := by
  have hrun : ((run (ResolveState.step plainEth [1]) ⟨.empty, .empty⟩ complementaryHints).bind fun s =>
      (run (ResolveState.step plainEth [1]) s [.persist 2 1001]).map fun s' =>
        ((s.table.get? (1, usdc)).map MetadataRow.known, (s'.table.get? (1, usdc)).map MetadataRow.known)) =
      some (some ⟨some "USDC", none⟩, some ⟨none, some 6⟩) := by decide +kernel
  obtain ⟨s, hs, h⟩ := Option.bind_eq_some_iff.1 hrun
  obtain ⟨s', hs', hknown⟩ := Option.map_eq_some_iff.1 h
  obtain ⟨h₁, h₂⟩ := Prod.mk.inj hknown
  exact ⟨s, s', hs, hs', h₁, h₂⟩

/-- The second upsert drops the stored symbol. -/
private theorem complementaryHints_not_kept :
    ¬ Between (ResolveState.step plainEth [1]) (fun s s' => s.table.Kept s'.table) ⟨.empty, .empty⟩
      (complementaryHints ++ [.persist 2 1001]) := by
  intro h
  obtain ⟨s, s', hs, hs', h₁, h₂⟩ := complementaryHints_lost
  obtain ⟨row, hrow, hrow'⟩ := Option.map_eq_some_iff.1 h₁
  obtain ⟨row', hget, hle⟩ := h complementaryHints [.persist 2 1001] (List.prefix_refl _) s s' hs hs' _ row hrow
  rw [hget, Option.map_some, Option.some.injEq] at h₂
  have hsymbol := hle.symbol "USDC" (congrArg Known.symbol hrow')
  rw [h₂] at hsymbol
  cases hsymbol

/-- The upsert that drops the symbol does not write over a current row. -/
theorem stored_metadata_kept_complementary :
    ¬ Along (ResolveState.step plainEth [1]) ResolveState.WritesCurrent ⟨.empty, .empty⟩
      (complementaryHints ++ [.persist 2 1001]) := by
  intro hcur
  exact complementaryHints_not_kept ((stored_metadata_kept_iff plainEth_lawful [1] .empty _).2 hcur)

/-- Not every run keeps what is stored. -/
theorem stored_metadata_not_always_kept :
    ¬ ∀ (eth : EthUtils) (enabled : List Int) (table : MetadataTable) (events : List ResolveEvent), eth.Lawful →
      Between (ResolveState.step eth enabled) (fun s s' => s.table.Kept s'.table) ⟨table, .empty⟩ events := by
  intro h
  exact complementaryHints_not_kept (h plainEth [1] .empty _ plainEth_lawful)

end TokenPriceAgg

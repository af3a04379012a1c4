import Mathlib.Data.String.Basic
import TokenPriceAgg.TokenMetadata.LogoStore

/-!
# Replacing a source list

`replaceLogoSourceEntries` skips the rewrite where the stored hash is that of the new revision.  The invariant of a run:
the entries of a source and chain are those of a revision with the stored hash, and there are none before the first
sync.  Where the hash tells the revisions of the run apart, skipping is right.
-/

namespace TokenPriceAgg

open PyLib

/-! ### Revisions -/

/-- The order of `sorted` on pairs of texts. -/
private theorem sortedSet_pairwise (xs : List (String × String)) :
    (sortedSet xs).Pairwise fun a b => a.1 < b.1 ∨ a.1 = b.1 ∧ a.2 ≤ b.2 := by
  have hsorted : (sortedSet xs).Pairwise fun a b =>
      (decide (a.1 < b.1) || decide (a.1 = b.1) && decide (a.2 ≤ b.2)) = true := by
    apply List.pairwise_mergeSort
    · intro a b c hab hbc
      simp only [Bool.or_eq_true, Bool.and_eq_true, decide_eq_true_eq] at hab hbc ⊢
      obtain hab | ⟨hab, hab'⟩ := hab
      · obtain hbc | ⟨hbc, -⟩ := hbc
        · exact .inl (lt_trans hab hbc)
        · exact .inl (hbc ▸ hab)
      · obtain hbc | ⟨hbc, hbc'⟩ := hbc
        · exact .inl (hab ▸ hbc)
        · exact .inr ⟨hab.trans hbc, le_trans hab' hbc'⟩
    · intro a b
      simp only [Bool.or_eq_true, Bool.and_eq_true, decide_eq_true_eq]
      obtain h | h | h := lt_trichotomy a.1 b.1
      · exact .inl (.inl h)
      · obtain h' | h' := le_total a.2 b.2
        · exact .inl (.inr ⟨h, h'⟩)
        · exact .inr (.inr ⟨h.symm, h'⟩)
      · exact .inr (.inl h)
  refine hsorted.imp fun {a b} h => ?_
  simpa using h

/-- A sorted set is determined by its members. -/
private theorem sortedSet_ext {xs ys : List (String × String)} (h : ∀ p, p ∈ sortedSet xs ↔ p ∈ sortedSet ys) :
    sortedSet xs = sortedSet ys := by
  apply List.Perm.eq_of_pairwise _ (sortedSet_pairwise xs) (sortedSet_pairwise ys)
  · exact (List.perm_ext_iff_of_nodup (nodup_sortedSet xs) (nodup_sortedSet ys)).2 h
  · intro a b _ _ hab hba
    obtain hab | ⟨hab, hab'⟩ := hab
    · obtain hba | ⟨hba, -⟩ := hba
      · exact absurd hab (lt_asymm hba)
      · exact absurd hab (hba ▸ lt_irrefl _)
    · obtain hba | ⟨-, hba'⟩ := hba
      · exact absurd hba (hab ▸ lt_irrefl _)
      · exact Prod.ext hab (le_antisymm hab' hba')

section Revisions

variable (eth : EthUtils)

/-- The rows of a revision, which the hash is taken of. -/
def revisionRows (source : String) (chainId : Int) (entries : List TokenLogoSourceEntry) :
    Except Exn (List (String × String)) :=
  ((entries.filter fun entry => entry.source = source ∧ entry.chainId = chainId).mapM fun entry =>
    (normalizeAddress eth entry.address).map fun address => (address, entry.logoUrl)).map sortedSet

/-- The normalized entries of a source and chain: address and URL. -/
def normalizedEntries (source : String) (chainId : Int) (entries : List TokenLogoSourceEntry) : Set (String × String) :=
  {p | ∃ entry ∈ entries, entry.source = source ∧ entry.chainId = chainId ∧
    normalizeAddress eth entry.address = .ok p.1 ∧ entry.logoUrl = p.2}

variable {eth} {source : String} {chainId : Int} {entries : List TokenLogoSourceEntry} {rows : List (String × String)}

theorem mem_revisionRows (h : revisionRows eth source chainId entries = .ok rows) {p : String × String} :
    p ∈ rows ↔ p ∈ normalizedEntries eth source chainId entries := by
  obtain ⟨all, hall, rfl⟩ := Eff.except_map_eq_ok.1 h
  rw [mem_sortedSet_iff]
  rw [Eff.mem_of_mapM hall]
  constructor
  · rintro ⟨entry, hentry, heq⟩
    obtain ⟨address, haddress, rfl⟩ := Eff.except_map_eq_ok.1 heq
    obtain ⟨hmem, hkept⟩ := List.mem_filter.1 hentry
    obtain ⟨hsource, hchain⟩ := of_decide_eq_true hkept
    exact ⟨entry, hmem, hsource, hchain, haddress, rfl⟩
  · rintro ⟨entry, hmem, hsource, hchain, haddress, hurl⟩
    refine ⟨entry, List.mem_filter.2 ⟨hmem, decide_eq_true ⟨hsource, hchain⟩⟩, ?_⟩
    exact Eff.except_map_eq_ok.2 ⟨p.1, haddress, Prod.ext rfl hurl⟩

/-- A revision has rows exactly if the addresses it keeps normalize. -/
private theorem revisionRows_ok_iff : (∃ rows, revisionRows eth source chainId entries = .ok rows) ↔
    ∀ entry ∈ entries, entry.source = source → entry.chainId = chainId →
      ∃ address, normalizeAddress eth entry.address = .ok address := by
  have hall : (∃ rows, revisionRows eth source chainId entries = .ok rows) ↔ ∃ all : List (String × String),
      ((entries.filter fun entry => entry.source = source ∧ entry.chainId = chainId).mapM fun entry =>
        (normalizeAddress eth entry.address).map fun address => (address, entry.logoUrl)) = .ok all := by
    constructor
    · rintro ⟨rows, h⟩
      obtain ⟨all, hall, -⟩ := Eff.except_map_eq_ok.1 h
      exact ⟨all, hall⟩
    · rintro ⟨all, hall⟩
      exact ⟨sortedSet all, Eff.except_map_eq_ok.2 ⟨all, hall, rfl⟩⟩
  rw [hall, Eff.mapM_ok_iff]
  constructor
  · intro h entry hmem hsource hchain
    obtain ⟨p, hp⟩ := h entry (List.mem_filter.2 ⟨hmem, decide_eq_true ⟨hsource, hchain⟩⟩)
    obtain ⟨address, haddress, -⟩ := Eff.except_map_eq_ok.1 hp
    exact ⟨address, haddress⟩
  · intro h entry hentry
    obtain ⟨hmem, hkept⟩ := List.mem_filter.1 hentry
    obtain ⟨hsource, hchain⟩ := of_decide_eq_true hkept
    obtain ⟨address, haddress⟩ := h entry hmem hsource hchain
    exact ⟨_, Eff.except_map_eq_ok.2 ⟨address, haddress, rfl⟩⟩

private theorem revisionRows_sorted (h : revisionRows eth source chainId entries = .ok rows) :
    ∃ all, rows = sortedSet all := by
  obtain ⟨all, -, rfl⟩ := Eff.except_map_eq_ok.1 h
  exact ⟨all, rfl⟩

variable (eth) in
/-- Two kept entries share an address and have different URLs. -/
def Conflicting (source : String) (chainId : Int) (entries : List TokenLogoSourceEntry) : Prop :=
  ∃ p ∈ normalizedEntries eth source chainId entries, ∃ q ∈ normalizedEntries eth source chainId entries,
    p.1 = q.1 ∧ p.2 ≠ q.2

/-- The addresses of a revision are distinct exactly if no two of its entries conflict. -/
private theorem nodup_addresses_iff (h : revisionRows eth source chainId entries = .ok rows) :
    (rows.map Prod.fst).Nodup ↔ ¬ Conflicting eth source chainId entries := by
  have hmem {p : String × String} := mem_revisionRows h (p := p)
  constructor
  · rintro hnodup ⟨p, hp, q, hq, hfst, hsnd⟩
    exact hsnd (congrArg Prod.snd (List.inj_on_of_nodup_map hnodup (hmem.2 hp) (hmem.2 hq) hfst))
  · intro hno
    obtain ⟨all, rfl⟩ := revisionRows_sorted h
    refine (nodup_sortedSet all).map_on fun p hp q hq hfst => ?_
    by_contra hne
    refine hno ⟨p, hmem.1 hp, q, hmem.1 hq, hfst, fun hsnd => hne (Prod.ext hfst hsnd)⟩

end Revisions

/-! ### The rewrite -/

section Rewrite

variable {source : String} {chainId syncedAt : Int} {rows : List (String × String)}

/-- The stored row of a row of the revision. -/
def storedEntry (source : String) (chainId syncedAt : Int) (row : String × String) :
    (String × Int × String) × (String × Int) :=
  ((source, chainId, row.1), (row.2, syncedAt))

/-- The rows are inserted exactly if their addresses are distinct and new. -/
private theorem insertEntries_eq_ok {entries entries' : Dict (String × Int × String) (String × Int)} :
    rows.foldlM (insertEntry (source, chainId) syncedAt) entries = .ok entries' ↔
      (rows.map Prod.fst).Nodup ∧ (∀ row ∈ rows, entries.get? (source, chainId, row.1) = none) ∧
        entries' = entries.setMany (rows.map (storedEntry source chainId syncedAt)) := by
  induction rows generalizing entries with
  | nil =>
    simp only [List.foldlM_nil, List.map_nil, List.nodup_nil, Dict.setMany, List.foldl_nil, true_and]
    constructor
    · intro h
      exact ⟨by simp, (Except.ok.inj h).symm⟩
    · rintro ⟨-, rfl⟩
      rfl
  | cons row rows ih =>
    rw [List.foldlM_cons]
    cases hget : entries.get? (source, chainId, row.1) with
    | some stored =>
      have hstep : insertEntry (source, chainId) syncedAt entries row = .error (.other "IntegrityError") := by
        simp only [insertEntry, hget]
      rw [hstep]
      constructor
      · intro h
        cases h
      · rintro ⟨-, hnew, -⟩
        cases hget.symm.trans (hnew row List.mem_cons_self)
    | none =>
      have hstep : insertEntry (source, chainId) syncedAt entries row =
          .ok (entries.set (source, chainId, row.1) (row.2, syncedAt)) := by
        simp only [insertEntry, hget]
      have hfresh (row' : String × String) :
          (entries.set (source, chainId, row.1) (row.2, syncedAt)).get? (source, chainId, row'.1) = none ↔
            row'.1 ≠ row.1 ∧ entries.get? (source, chainId, row'.1) = none := by
        rw [Dict.get?_set]
        by_cases he : row'.1 = row.1
        · simp [he]
        · have hkey : (source, chainId, row'.1) ≠ (source, chainId, row.1) := by simp [he]
          simp [hkey, he]
      rw [hstep]
      show rows.foldlM _ _ = Except.ok entries' ↔ _
      rw [ih, List.map_cons, List.nodup_cons, List.forall_mem_cons]
      simp only [hfresh, List.mem_map, not_exists, not_and]
      constructor
      · rintro ⟨hnodup, hnew, rfl⟩
        exact ⟨⟨fun row' hrow' => (hnew row' hrow').1, hnodup⟩, ⟨hget, fun row' hrow' => (hnew row' hrow').2⟩, rfl⟩
      · rintro ⟨⟨hne, hnodup⟩, ⟨-, hnew⟩, rfl⟩
        exact ⟨hnodup, fun row' hrow' => ⟨hne row' hrow', hnew row' hrow'⟩, rfl⟩

/-- What the entries of the other sources and chains are. -/
def otherEntries (source : String) (chainId : Int) (store : LogoStore) : Dict (String × Int × String) (String × Int) :=
  store.entries.filter fun entry => ¬ (entry.1.1 = source ∧ entry.1.2.1 = chainId)

private theorem replaceRevision_eq_ok {store store' : LogoStore} :
    replaceRevision source chainId rows syncedAt store = .ok store' ↔ (rows.map Prod.fst).Nodup ∧
      store' =
        { store with
          entries := (otherEntries source chainId store).setMany (rows.map (storedEntry source chainId syncedAt))
          logos := dueWithoutImage chainId store.logos } := by
  have hnew : ∀ row ∈ rows, (otherEntries source chainId store).get? (source, chainId, row.1) = none := by
    intro row _
    rw [Option.eq_none_iff_forall_ne_some]
    intro stored hstored
    have hkeep := (Dict.get?_filter.1 hstored).2
    simp at hkeep
  unfold replaceRevision
  rw [Eff.except_bind_eq_ok]
  constructor
  · rintro ⟨entries, hentries, h⟩
    obtain ⟨hnodup, -, rfl⟩ := insertEntries_eq_ok.1 hentries
    exact ⟨hnodup, (Except.ok.inj h).symm⟩
  · rintro ⟨hnodup, rfl⟩
    exact ⟨_, insertEntries_eq_ok.2 ⟨hnodup, hnew, rfl⟩, rfl⟩

private theorem get?_rewrite_other {store : LogoStore} {key : String × Int × String}
    (h : (key.1, key.2.1) ≠ (source, chainId)) :
    ((otherEntries source chainId store).setMany (rows.map (storedEntry source chainId syncedAt))).get? key =
      store.entries.get? key := by
  obtain ⟨-, hget⟩ | ⟨stored, hmem, -⟩ :=
    (otherEntries source chainId store).get?_setMany_cases (rows.map (storedEntry source chainId syncedAt)) key
  · rw [hget]
    apply Option.ext
    intro stored
    have hkeep : ¬ (key.1 = source ∧ key.2.1 = chainId) := fun hk => h (Prod.ext hk.1 hk.2)
    exact Dict.get?_filter.trans (and_iff_left (decide_eq_true hkeep))
  · obtain ⟨row, -, hrow⟩ := List.mem_map.1 hmem
    obtain ⟨rfl, -⟩ := Prod.mk.inj hrow
    exact absurd rfl h

private theorem get?_rewrite {store : LogoStore} (hnodup : (rows.map Prod.fst).Nodup) {row : String × String} :
    (∃ t, ((otherEntries source chainId store).setMany (rows.map (storedEntry source chainId syncedAt))).get?
      (source, chainId, row.1) = some (row.2, t)) ↔ row ∈ rows := by
  constructor
  · rintro ⟨t, ht⟩
    obtain ⟨-, hget⟩ | ⟨stored, hmem, hget⟩ := (otherEntries source chainId store).get?_setMany_cases
      (rows.map (storedEntry source chainId syncedAt)) (source, chainId, row.1)
    · have hkeep := (Dict.get?_filter.1 (hget.symm.trans ht)).2
      simp at hkeep
    · obtain ⟨row', hrow', heq⟩ := List.mem_map.1 hmem
      rw [hget, Option.some.injEq] at ht
      simp only [storedEntry, Prod.mk.injEq, true_and] at heq
      have hrow : row' = row := Prod.ext heq.1 (congrArg Prod.fst (heq.2.trans ht))
      exact hrow ▸ hrow'
  · intro hrow
    have hkeys : ((rows.map (storedEntry source chainId syncedAt)).map Prod.fst).Nodup := by
      have hmap : (rows.map (storedEntry source chainId syncedAt)).map Prod.fst =
          (rows.map Prod.fst).map fun address => (source, chainId, address) := by
        rw [List.map_map, List.map_map]
        rfl
      rw [hmap]
      refine hnodup.map fun a b hab => ?_
      simpa using hab
    have hmem : ((source, chainId, row.1), (row.2, syncedAt)) ∈ rows.map (storedEntry source chainId syncedAt) :=
      List.mem_map.2 ⟨row, hrow, rfl⟩
    exact ⟨syncedAt, Dict.get?_setMany_of_mem hkeys hmem _⟩

end Rewrite

/-! ### What a replacement does -/

/-- The stored entries of a source and chain: address and URL. -/
def LogoStore.pairs (store : LogoStore) (source : String) (chainId : Int) : Set (String × String) :=
  {p | ∃ t, store.entries.get? (source, chainId, p.1) = some (p.2, t)}

section Replacement

variable {eth : EthUtils} {revision : List (String × String) → String} {source : String} {chainId syncedAt : Int}
  {entries : List TokenLogoSourceEntry} {rows : List (String × String)} {store store' : LogoStore} {changed : Bool}

/-- What a replacement that returns has done. -/
structure Replaced (revision : List (String × String) → String) (source : String) (chainId syncedAt : Int)
    (rows : List (String × String)) (store store' : LogoStore) (changed : Bool) : Prop where
  changed_iff : changed = true ↔ (store.sync.row? (source, chainId)).map (·.revisionHash) ≠ some (revision rows)
  pairs : store'.pairs source chainId = if changed then {p | p ∈ rows} else store.pairs source chainId
  others : ∀ key : String × Int × String, (key.1, key.2.1) ≠ (source, chainId) →
    store'.entries.get? key = store.entries.get? key
  logos : store'.logos = if changed then dueWithoutImage chainId store.logos else store.logos
  sync : ∀ key, store'.sync.row? key =
    if key = (source, chainId) then some ⟨syncedAt, revision rows⟩ else store.sync.row? key

/-- The row of the sync table after the upsert. -/
private theorem sync_upsert {sync sync' : Table (String × Int) SourceSync fun row => sqlLength row.revisionHash = 64}
    {row : SourceSync} {key : String × Int} (h : sync.upsert key row (fun _ => row) = .ok sync') (key' : String × Int) :
    sync'.row? key' = if key' = key then some row else sync.row? key' := by
  rw [Table.row?_upsert h]
  cases sync.row? key <;> rfl

theorem replaceLogoSourceEntries_eq_ok
    (h : replaceLogoSourceEntries eth revision source chainId entries syncedAt store = .ok (store', changed)) :
    ∃ rows, revisionRows eth source chainId entries = .ok rows ∧ (-2 ^ 63 ≤ chainId ∧ chainId < 2 ^ 63) ∧
      (-2 ^ 63 ≤ syncedAt ∧ syncedAt < 2 ^ 63) ∧
      Replaced revision source chainId syncedAt rows store store' changed := by
  obtain ⟨all, hall, h⟩ := Eff.except_bind_eq_ok.1 h
  obtain ⟨chainId', hchain, h⟩ := Eff.except_bind_eq_ok.1 h
  obtain ⟨syncedAt', hsynced, h⟩ := Eff.except_bind_eq_ok.1 h
  obtain ⟨store₁, hstore, h⟩ := Eff.except_bind_eq_ok.1 h
  obtain ⟨sync, hsync, h⟩ := Eff.except_bind_eq_ok.1 h
  obtain ⟨rfl, rfl⟩ := Prod.mk.inj (Except.ok.inj h)
  obtain ⟨rfl, hchain⟩ := bindInt_eq_ok (sql_eq_ok hchain)
  obtain ⟨rfl, hsynced⟩ := bindInt_eq_ok (sql_eq_ok hsynced)
  refine ⟨sortedSet all, Eff.except_map_eq_ok.2 ⟨all, hall, rfl⟩, hchain, hsynced, ?_⟩
  have hrow := sync_upsert (sql_eq_ok hsync)
  by_cases hhash : (store.sync.row? (source, chainId')).map (·.revisionHash) = some (revision (sortedSet all))
  · simp only [ne_eq, hhash, not_true_eq_false, decide_false, Bool.false_eq_true, if_false] at hstore
    obtain rfl := Except.ok.inj hstore
    have hsame : decide ((store.sync.row? (source, chainId')).map (·.revisionHash) ≠ some (revision (sortedSet all))) =
        false := decide_eq_false (not_not.2 hhash)
    refine ⟨decide_eq_true_iff, ?_, fun key _ => rfl, ?_, hrow⟩
    · rw [hsame]
      rfl
    · rw [hsame]
      rfl
  · simp only [ne_eq, hhash, not_false_eq_true, decide_true, if_true] at hstore
    obtain ⟨hnodup, rfl⟩ := replaceRevision_eq_ok.1 hstore
    have hnew : decide ((store.sync.row? (source, chainId')).map (·.revisionHash) ≠ some (revision (sortedSet all))) =
        true := decide_eq_true hhash
    refine ⟨decide_eq_true_iff, ?_, fun key hkey => get?_rewrite_other hkey, ?_, hrow⟩
    · rw [hnew, if_pos rfl]
      exact Set.ext fun p => get?_rewrite hnodup
    · rw [hnew]
      rfl

/-- A replacement returns if the kept addresses normalize, the numbers fit a column, and the addresses of a new revision
are distinct. -/
private theorem replaceLogoSourceEntries_ok (hrows : revisionRows eth source chainId entries = .ok rows)
    (hlength : sqlLength (revision rows) = 64) (hchain : -2 ^ 63 ≤ chainId ∧ chainId < 2 ^ 63)
    (hsynced : -2 ^ 63 ≤ syncedAt ∧ syncedAt < 2 ^ 63)
    (hdistinct : (store.sync.row? (source, chainId)).map (·.revisionHash) ≠ some (revision rows) →
      (rows.map Prod.fst).Nodup) :
    ∃ result, replaceLogoSourceEntries eth revision source chainId entries syncedAt store = .ok result := by
  obtain ⟨all, hall, rfl⟩ := Eff.except_map_eq_ok.1 hrows
  have hstore : ∃ store₁, (if decide ((store.sync.row? (source, chainId)).map (·.revisionHash) ≠
      some (revision (sortedSet all))) then replaceRevision source chainId (sortedSet all) syncedAt store
      else .ok store) = .ok store₁ := by
    by_cases hhash : (store.sync.row? (source, chainId)).map (·.revisionHash) ≠ some (revision (sortedSet all))
    · rw [if_pos (decide_eq_true hhash)]
      exact ⟨_, replaceRevision_eq_ok.2 ⟨hdistinct hhash, rfl⟩⟩
    · rw [if_neg (by simpa using hhash)]
      exact ⟨store, rfl⟩
  obtain ⟨store₁, hstore⟩ := hstore
  have hrow : sqlLength (SourceSync.mk syncedAt (revision (sortedSet all))).revisionHash = 64 := hlength
  obtain ⟨sync, hsync, -⟩ := Table.upsert_replace store₁.sync (source, chainId) hrow
  refine ⟨({ store₁ with sync },
    decide ((store.sync.row? (source, chainId)).map (·.revisionHash) ≠ some (revision (sortedSet all)))), ?_⟩
  unfold replaceLogoSourceEntries
  rw [hall]
  simp only [bind, Except.bind, sql_bindInt hchain, sql_bindInt hsynced]
  rw [hstore]
  simp only [hsync]
  rfl

/-- The other operations leave the entries and the syncs as they are. -/
private theorem LogoStore.apply_lists {op : LogoOp} (h : store.apply eth revision op = .ok store') :
    (∃ source chainId entries syncedAt, op = .replaceSourceEntries source chainId entries syncedAt) ∨
      store'.entries = store.entries ∧ store'.sync = store.sync := by
  cases op with
  | enrollObserved chainId addresses =>
    obtain ⟨normalized, -, h⟩ := Eff.except_bind_eq_ok.1 h
    obtain ⟨logos, -, h⟩ := Eff.except_bind_eq_ok.1 h
    cases h
    exact .inr ⟨rfl, rfl⟩
  | enrollIdentities identities forceExisting now =>
    obtain ⟨⟨store₁, started⟩, hresult, rfl⟩ := Eff.except_map_eq_ok.1 h
    obtain ⟨normalized, -, hresult⟩ := Eff.except_bind_eq_ok.1 hresult
    dsimp only at hresult
    split at hresult
    · cases hresult
    · obtain ⟨logos, -, hresult⟩ := Eff.except_bind_eq_ok.1 hresult
      cases hresult
      exact .inr ⟨rfl, rfl⟩
  | recordSuccess chainId address imageBytes contentHash mimeType source attemptedAt httpStatus =>
    obtain ⟨normalized, -, h⟩ := Eff.except_bind_eq_ok.1 h
    obtain ⟨chainId', -, h⟩ := Eff.except_bind_eq_ok.1 h
    obtain ⟨attemptedAt', -, h⟩ := Eff.except_bind_eq_ok.1 h
    obtain ⟨httpStatus', -, h⟩ := Eff.except_bind_eq_ok.1 h
    dsimp only at h
    split at h
    · obtain ⟨logos, -, h⟩ := Eff.except_bind_eq_ok.1 h
      cases h
      exact .inr ⟨rfl, rfl⟩
    · obtain ⟨logos, -, h⟩ := Eff.except_bind_eq_ok.1 h
      cases h
      exact .inr ⟨rfl, rfl⟩
  | recordFailure chainId address outcome attemptedAt nextAttemptAt failureCount httpStatus errorCode =>
    replace h : recordLogoFailure eth chainId address outcome attemptedAt nextAttemptAt failureCount httpStatus
      errorCode store = .ok store' := h
    unfold recordLogoFailure at h
    split at h
    · cases h
    · obtain ⟨normalized, -, h⟩ := Eff.except_bind_eq_ok.1 h
      obtain ⟨chainId', -, h⟩ := Eff.except_bind_eq_ok.1 h
      obtain ⟨attemptedAt', -, h⟩ := Eff.except_bind_eq_ok.1 h
      obtain ⟨nextAttemptAt', -, h⟩ := Eff.except_bind_eq_ok.1 h
      obtain ⟨failureCount', -, h⟩ := Eff.except_bind_eq_ok.1 h
      obtain ⟨httpStatus', -, h⟩ := Eff.except_bind_eq_ok.1 h
      obtain ⟨logos, -, h⟩ := Eff.except_bind_eq_ok.1 h
      cases h
      exact .inr ⟨rfl, rfl⟩
  | replaceSourceEntries source chainId entries syncedAt => exact .inl ⟨_, _, _, _, rfl⟩

/-! ### Runs -/

/-- The call takes the hash of these rows. -/
def LogoOp.Hashes (eth : EthUtils) (op : LogoOp) (rows : List (String × String)) : Prop :=
  ∃ source chainId entries syncedAt, op = .replaceSourceEntries source chainId entries syncedAt ∧
    revisionRows eth source chainId entries = .ok rows

/-- The revisions that the calls take the hash of. -/
def hashedRows (eth : EthUtils) (ops : List LogoOp) : Set (List (String × String)) :=
  {rows | ∃ op ∈ ops, op.Hashes eth rows}

/-- Each stored hash is that of a revision whose rows are stored, and nothing is stored before a first sync. -/
structure LogoStore.InStep (revision : List (String × String) → String) (revisions : Set (List (String × String)))
    (store : LogoStore) : Prop where
  unsynced : ∀ source chainId, store.sync.row? (source, chainId) = none → store.pairs source chainId = ∅
  synced : ∀ source chainId row, store.sync.row? (source, chainId) = some row →
    ∃ rows ∈ revisions, row.revisionHash = revision rows ∧ store.pairs source chainId = {p | p ∈ rows}

variable {revisions : Set (List (String × String))}

private theorem LogoStore.inStep_empty : LogoStore.empty.InStep revision revisions := by
  refine ⟨fun source chainId _ => ?_, fun source chainId row hrow => ?_⟩
  · apply Set.eq_empty_iff_forall_notMem.2
    rintro p ⟨t, ht⟩
    cases ht
  · cases hrow

private theorem pairs_of_others {source' : String} {chainId' : Int} (hkey : (source', chainId') ≠ (source, chainId))
    (h : Replaced revision source chainId syncedAt rows store store' changed) :
    store'.pairs source' chainId' = store.pairs source' chainId' := by
  apply Set.ext
  intro p
  have hsame := h.others (source', chainId', p.1) hkey
  show (∃ t, store'.entries.get? (source', chainId', p.1) = some (p.2, t)) ↔ _
  rw [hsame]
  exact Iff.rfl

private theorem Replaced.inStep (h : Replaced revision source chainId syncedAt rows store store' changed)
    (hrows : rows ∈ revisions) (hstore : store.InStep revision revisions) : store'.InStep revision revisions := by
  refine ⟨fun source' chainId' hnone => ?_, fun source' chainId' row hrow => ?_⟩
  · rw [h.sync] at hnone
    by_cases hkey : (source', chainId') = (source, chainId)
    · rw [if_pos hkey] at hnone
      cases hnone
    · rw [if_neg hkey] at hnone
      rw [pairs_of_others hkey h]
      exact hstore.unsynced source' chainId' hnone
  · rw [h.sync] at hrow
    by_cases hkey : (source', chainId') = (source, chainId)
    · rw [if_pos hkey] at hrow
      cases hrow
      obtain ⟨rfl, rfl⟩ := Prod.mk.inj hkey
      cases hchanged : changed with
      | true => exact ⟨rows, hrows, rfl, by rw [h.pairs, hchanged, if_pos rfl]⟩
      | false =>
        -- the hash that is stored is the hash of the new revision
        have hhash := not_not.1 (mt h.changed_iff.2 (by rw [hchanged]; exact Bool.false_ne_true))
        obtain ⟨row, hrow, hrowHash⟩ := Option.map_eq_some_iff.1 hhash
        obtain ⟨rows', hrows', hrevision, hpairs⟩ := hstore.synced source' chainId' row hrow
        refine ⟨rows', hrows', hrowHash.symm.trans hrevision, ?_⟩
        rw [h.pairs, hchanged, if_neg Bool.false_ne_true, hpairs]
    · rw [if_neg hkey] at hrow
      rw [pairs_of_others hkey h]
      exact hstore.synced source' chainId' row hrow

private theorem LogoStore.step_inStep {op : LogoOp} (hop : ∀ rows, op.Hashes eth rows → rows ∈ revisions)
    (hstore : store.InStep revision revisions) (h : store.step eth revision op = some store') :
    store'.InStep revision revisions := by
  unfold step at h
  cases happly : store.apply eth revision op with
  | error exc =>
    rw [happly] at h
    cases h
    exact hstore
  | ok store₁ =>
    rw [happly] at h
    cases h
    obtain ⟨source, chainId, entries, syncedAt, rfl⟩ | ⟨hentries, hsync⟩ := LogoStore.apply_lists happly
    · obtain ⟨⟨store', changed⟩, hresult, rfl⟩ := Eff.except_map_eq_ok.1 happly
      obtain ⟨rows, hrows, -, -, hreplaced⟩ := replaceLogoSourceEntries_eq_ok hresult
      exact hreplaced.inStep (hop rows ⟨source, chainId, entries, syncedAt, rfl, hrows⟩) hstore
    · have hpairs (source : String) (chainId : Int) : store'.pairs source chainId = store.pairs source chainId := by
        unfold pairs
        rw [hentries]
      refine ⟨fun source chainId hnone => ?_, fun source chainId row hrow => ?_⟩
      · rw [hsync] at hnone
        rw [hpairs]
        exact hstore.unsynced source chainId hnone
      · rw [hsync] at hrow
        rw [hpairs]
        exact hstore.synced source chainId row hrow

private theorem LogoStore.run_inStep
    {ops : List LogoOp} (hops : ∀ op ∈ ops, ∀ rows, op.Hashes eth rows → rows ∈ revisions)
    (hrun : run (LogoStore.step eth revision) .empty ops = some store) : store.InStep revision revisions := by
  have halong : Along (LogoStore.step eth revision) (fun _ op => op ∈ ops) .empty ops :=
    along_of_mem (fun op hop _ => hop) _
  exact run_invariant_along (fun s op s' hs hop h => LogoStore.step_inStep (hops op hop) hs h)
    LogoStore.inStep_empty halong hrun

/-- Where the hash tells the new revision from the stored one, the hash changes exactly if the entries do. -/
private theorem Replaced.changed_iff_pairs (h : Replaced revision source chainId syncedAt rows store store' changed)
    (hrows : rows ∈ revisions) (hsorted : ∀ rows ∈ revisions, ∃ all, rows = sortedSet all)
    (hinj : Set.InjOn revision revisions) (hstore : store.InStep revision revisions) :
    changed = true ↔ store.pairs source chainId ≠ {p | p ∈ rows} ∨ store.sync.row? (source, chainId) = none := by
  rw [h.changed_iff]
  cases hsync : store.sync.row? (source, chainId) with
  | none => simp
  | some row =>
    obtain ⟨rows', hrows', hhash, hpairs⟩ := hstore.synced source chainId row hsync
    have hiff : row.revisionHash = revision rows ↔ store.pairs source chainId = {p | p ∈ rows} := by
      rw [hhash, hpairs]
      constructor
      · intro heq
        rw [hinj hrows' hrows heq]
      · intro heq
        obtain ⟨all, rfl⟩ := hsorted rows hrows
        obtain ⟨all', rfl⟩ := hsorted rows' hrows'
        exact congrArg revision (sortedSet_ext fun p => Set.ext_iff.1 heq p)
    simp [hiff]

/-- After a replacement the stored entries are those of the revision, also where the rewrite was skipped. -/
private theorem Replaced.pairs_eq (h : Replaced revision source chainId syncedAt rows store store' changed)
    (hrows : rows ∈ revisions) (hsorted : ∀ rows ∈ revisions, ∃ all, rows = sortedSet all)
    (hinj : Set.InjOn revision revisions) (hstore : store.InStep revision revisions) :
    store'.pairs source chainId = {p | p ∈ rows} := by
  rw [h.pairs]
  by_cases hchanged : changed = true
  · rw [if_pos hchanged]
  · rw [if_neg hchanged]
    have hsame := mt (h.changed_iff_pairs hrows hsorted hinj hstore).2 hchanged
    exact not_not.1 fun hne => hsame (.inl hne)

/-- The rows of the logo table after a replacement. -/
private theorem Replaced.row?
    (h : Replaced revision source chainId syncedAt rows store store' changed) (key : TokenKey) :
    store'.row? key = (store.row? key).map fun row =>
      if changed = true ∧ key.1 = chainId ∧ row.imageBytes = none then row.due else row := by
  unfold LogoStore.row?
  rw [h.logos]
  cases changed with
  | false =>
    simp
  | true =>
    simp only [if_true, true_and]
    unfold dueWithoutImage Table.row?
    rw [Dict.get?_mapValues]
    cases store.logos.get? key with
    | none => rfl
    | some row =>
      simp only [Option.map_some, Option.isNone_iff_eq_none]
      split <;> rfl

/-- The stored entries of a source and chain have distinct addresses. -/
private theorem nodup_of_pairs
    {all : List (String × String)} (h : store.pairs source chainId = {p | p ∈ sortedSet all}) :
    ((sortedSet all).map Prod.fst).Nodup := by
  refine (nodup_sortedSet all).map_on fun p hp q hq hfst => ?_
  obtain ⟨t, ht⟩ : p ∈ store.pairs source chainId := h ▸ hp
  obtain ⟨t', ht'⟩ : q ∈ store.pairs source chainId := h ▸ hq
  rw [hfst, ht', Option.some.injEq] at ht
  exact Prod.ext hfst (congrArg Prod.fst ht).symm

private theorem step_of_error {exc : Exn}
    (h : replaceLogoSourceEntries eth revision source chainId entries syncedAt store = .error exc) :
    store.step eth revision (.replaceSourceEntries source chainId entries syncedAt) = some store := by
  have happly : store.apply eth revision (.replaceSourceEntries source chainId entries syncedAt) = .error exc := by
    show (replaceLogoSourceEntries eth revision source chainId entries syncedAt store).map Prod.fst = .error exc
    rw [h]
    rfl
  unfold LogoStore.step
  rw [happly]

private theorem hashedRows_sorted {ops : List LogoOp} {rows : List (String × String)} (h : rows ∈ hashedRows eth ops) :
    ∃ all, rows = sortedSet all := by
  obtain ⟨op, -, _, _, _, _, -, hrows⟩ := h
  exact revisionRows_sorted hrows

private theorem mem_hashedRows (ops : List LogoOp) (syncedAt : Int)
    (hrows : revisionRows eth source chainId entries = .ok rows) :
    rows ∈ hashedRows eth (ops ++ [.replaceSourceEntries source chainId entries syncedAt]) :=
  ⟨_, List.mem_append_right _ (List.mem_singleton.2 rfl), source, chainId, entries, syncedAt, rfl, hrows⟩

/-- When a replacement returns, where the hash tells the revisions apart. -/
private theorem replaceLogoSourceEntries_returns_iff (syncedAt : Int) (hlength : ∀ rows, sqlLength (revision rows) = 64)
    (hrevisions : ∀ rows, revisionRows eth source chainId entries = .ok rows → rows ∈ revisions)
    (hsorted : ∀ rows ∈ revisions, ∃ all, rows = sortedSet all) (hinj : Set.InjOn revision revisions)
    (hstore : store.InStep revision revisions) :
    (∃ result, replaceLogoSourceEntries eth revision source chainId entries syncedAt store = .ok result) ↔
      (∀ entry ∈ entries, entry.source = source → entry.chainId = chainId →
        ∃ address, normalizeAddress eth entry.address = .ok address) ∧
      ¬ Conflicting eth source chainId entries ∧ (-2 ^ 63 ≤ chainId ∧ chainId < 2 ^ 63) ∧
      -2 ^ 63 ≤ syncedAt ∧ syncedAt < 2 ^ 63 := by
  constructor
  · rintro ⟨⟨store', changed⟩, h⟩
    obtain ⟨rows, hrows, hchain, hsynced, hreplaced⟩ := replaceLogoSourceEntries_eq_ok h
    have hpairs := hreplaced.pairs_eq (hrevisions rows hrows) hsorted hinj hstore
    refine ⟨revisionRows_ok_iff.1 ⟨rows, hrows⟩, ?_, hchain, hsynced⟩
    rw [← nodup_addresses_iff hrows]
    obtain ⟨all, rfl⟩ := revisionRows_sorted hrows
    exact nodup_of_pairs hpairs
  · rintro ⟨hnormal, hno, hchain, hsynced⟩
    obtain ⟨rows, hrows⟩ := revisionRows_ok_iff.2 hnormal
    have hnodup := (nodup_addresses_iff hrows).2 hno
    exact replaceLogoSourceEntries_ok hrows (hlength rows) hchain hsynced fun _ => hnodup

end Replacement

/-- Every replacement in a run: it returns exactly if the addresses normalize without conflict and the numbers fit; the
entries of the source and chain are then the given ones, the result and the rows that become due say whether that is a
change, and nothing else changes; a conflict raises and leaves the store as it is. -/
theorem source_list_replacement (eth : EthUtils) (revision : List (String × String) → String) (ops : List LogoOp)
    (source : String) (chainId : Int) (entries : List TokenLogoSourceEntry) (syncedAt : Int) (store : LogoStore)
    (hlength : ∀ rows, sqlLength (revision rows) = 64)
    (hinjective : Set.InjOn revision (hashedRows eth (ops ++ [.replaceSourceEntries source chainId entries syncedAt])))
    (hrun : run (LogoStore.step eth revision) .empty ops = some store) :
    ((∃ result, replaceLogoSourceEntries eth revision source chainId entries syncedAt store = .ok result) ↔
      (∀ entry ∈ entries, entry.source = source → entry.chainId = chainId →
        ∃ address, normalizeAddress eth entry.address = .ok address) ∧
      ¬ Conflicting eth source chainId entries ∧ (-2 ^ 63 ≤ chainId ∧ chainId < 2 ^ 63) ∧
      -2 ^ 63 ≤ syncedAt ∧ syncedAt < 2 ^ 63) ∧
    (∀ store' changed,
      replaceLogoSourceEntries eth revision source chainId entries syncedAt store = .ok (store', changed) →
      store'.pairs source chainId = normalizedEntries eth source chainId entries ∧
      (changed = true ↔ store.pairs source chainId ≠ normalizedEntries eth source chainId entries ∨
        store.sync.row? (source, chainId) = none) ∧
      (∀ key, store'.row? key = (store.row? key).map fun row =>
        if changed = true ∧ key.1 = chainId ∧ row.imageBytes = none then row.due else row) ∧
      ∀ key : String × Int × String, (key.1, key.2.1) ≠ (source, chainId) →
        store'.entries.get? key = store.entries.get? key) ∧
    (Conflicting eth source chainId entries →
      (∃ exc, replaceLogoSourceEntries eth revision source chainId entries syncedAt store = .error exc) ∧
      store.step eth revision (.replaceSourceEntries source chainId entries syncedAt) = some store) := by
  have hstore : store.InStep revision
      (hashedRows eth (ops ++ [.replaceSourceEntries source chainId entries syncedAt])) :=
    LogoStore.run_inStep (fun op hop rows hrows => ⟨op, List.mem_append_left _ hop, hrows⟩) hrun
  have hreturns := replaceLogoSourceEntries_returns_iff syncedAt hlength
    (fun _ hrows => mem_hashedRows ops syncedAt hrows) (fun _ hrows => hashedRows_sorted hrows) hinjective hstore
  refine ⟨hreturns, ?_, ?_⟩
  · intro store' changed h
    obtain ⟨rows, hrows, -, -, hreplaced⟩ := replaceLogoSourceEntries_eq_ok h
    have hentries : {p | p ∈ rows} = normalizedEntries eth source chainId entries :=
      Set.ext fun p => mem_revisionRows hrows
    have hcall := mem_hashedRows ops syncedAt hrows
    rw [← hentries]
    exact ⟨hreplaced.pairs_eq hcall (fun _ hrows => hashedRows_sorted hrows) hinjective hstore,
      hreplaced.changed_iff_pairs hcall (fun _ hrows => hashedRows_sorted hrows) hinjective hstore,
      hreplaced.row?, hreplaced.others⟩
  · intro hconflict
    cases h : replaceLogoSourceEntries eth revision source chainId entries syncedAt store with
    | ok result => exact absurd hconflict (hreturns.1 ⟨result, h⟩).2.1
    | error exc => exact ⟨⟨exc, rfl⟩, step_of_error h⟩

namespace Example

def listed : TokenLogoSourceEntry where
  source := "coingecko"
  chainId := 1
  address := "0xA0b86991c6218b36c1d19D4a2e9Eb0cE3606eB48"
  logoUrl := "https://assets.coingecko.com/coins/images/1/thumb/usdc.png"

/-- The address of the entry is a checksum address. -/
def listedEth : EthUtils := ⟨fun address => address = listed.address, .ok⟩

/-- The SHA-256 of the empty revision and of the entry. -/
def listedRevision (rows : List (String × String)) : String :=
  if rows = [] then "4f53cda18c2baa0c0354bb5f9a3ecbe5ed12ab4d8e11ba873c2f11161202b945"
  else "d930914f8774c473ea3368f0f9b8ea2477cddc82c95c4266934017698f03b3f7"

private theorem hashedRows_listed {rows : List (String × String)}
    (h : rows ∈ hashedRows listedEth
      ([.replaceSourceEntries "coingecko" 1 [listed] 1] ++ [.replaceSourceEntries "coingecko" 1 [] 2])) :
    rows = [(listed.address, listed.logoUrl)] ∨ rows = [] := by
  obtain ⟨op, hop, source, chainId, entries, syncedAt, rfl, hrows⟩ := h
  simp only [List.cons_append, List.nil_append, List.mem_cons, List.not_mem_nil, or_false,
    LogoOp.replaceSourceEntries.injEq] at hop
  obtain ⟨rfl, rfl, rfl, -⟩ | ⟨rfl, rfl, rfl, -⟩ := hop
  · have hlisted : revisionRows listedEth "coingecko" 1 [listed] = .ok [(listed.address, listed.logoUrl)] := by
      decide +kernel
    exact .inl (Except.ok.inj (hrows.symm.trans hlisted))
  · have hempty : revisionRows listedEth "coingecko" 1 [] = .ok [] := by decide +kernel
    exact .inr (Except.ok.inj (hrows.symm.trans hempty))

end Example

/-- A list of one entry is replaced by the empty list. -/
theorem source_list_replacement_emptied : ∃ store,
    run (LogoStore.step Example.listedEth Example.listedRevision) .empty
      [.replaceSourceEntries "coingecko" 1 [Example.listed] 1] = some store ∧
    ∃ result,
      replaceLogoSourceEntries Example.listedEth Example.listedRevision "coingecko" 1 [] 2 store = .ok result := by
  have hsome : (run (LogoStore.step Example.listedEth Example.listedRevision) .empty
      [.replaceSourceEntries "coingecko" 1 [Example.listed] 1]).isSome := by decide +kernel
  obtain ⟨store, hrun⟩ := Option.isSome_iff_exists.1 hsome
  have hlength (rows : List (String × String)) : sqlLength (Example.listedRevision rows) = 64 := by
    unfold Example.listedRevision
    split <;> decide +kernel
  have hinjective : Set.InjOn Example.listedRevision (hashedRows Example.listedEth
      ([.replaceSourceEntries "coingecko" 1 [Example.listed] 1] ++ [.replaceSourceEntries "coingecko" 1 [] 2])) := by
    intro rows hrows rows' hrows' heq
    obtain rfl | rfl := Example.hashedRows_listed hrows
    · obtain rfl | rfl := Example.hashedRows_listed hrows'
      · rfl
      · exact absurd heq (by decide +kernel)
    · obtain rfl | rfl := Example.hashedRows_listed hrows'
      · exact absurd heq (by decide +kernel)
      · rfl
  refine ⟨store, hrun, ?_⟩
  refine (source_list_replacement Example.listedEth Example.listedRevision _ "coingecko" 1 [] 2 store hlength hinjective
    hrun).1.2 ⟨nofun, ?_, by decide, by decide⟩
  rintro ⟨p, ⟨entry, hmem, -⟩, -⟩
  cases hmem

end TokenPriceAgg

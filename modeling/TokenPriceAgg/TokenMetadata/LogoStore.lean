import TokenPriceAgg.Lib.Sqlite
import TokenPriceAgg.Lib.Runs
import TokenPriceAgg.TokenMetadata.Cache

/-!
# The `token_logos` table

The operations of `TokenMetadataCache` that write logo rows and logo source entries.  Each is one transaction: it
returns the store that is committed, or raises and leaves the store as it is.

`LogoEffect` says once what an operation can do to a row; the invariants of whole runs are read off it.
-/

namespace TokenPriceAgg

open PyLib

/-! ### Rows -/

/-- A row of `token_logos`, with the defaults of the schema. -/
structure TokenLogo where
  imageBytes : Option Bytes := none
  contentHash : Option String := none
  mimeType : Option String := none
  source : Option String := none
  lastSuccessAt : Option Int := none
  lastAttemptAt : Option Int := none
  nextAttemptAt : Option Int := some 0
  lastOutcome : Option String := none
  failureCount : Int := 0
  lastHttpStatus : Option Int := none
  lastErrorCode : Option String := none
deriving DecidableEq

/-- The five columns of the last successful acquisition are all null or all not. -/
def TokenLogo.AllOrNothing (row : TokenLogo) : Prop :=
  (row.imageBytes.isNone ∧ row.contentHash.isNone ∧ row.mimeType.isNone ∧ row.source.isNone ∧
      row.lastSuccessAt.isNone) ∨
    (row.imageBytes.isSome ∧ row.contentHash.isSome ∧ row.mimeType.isSome ∧ row.source.isSome ∧
      row.lastSuccessAt.isSome)

/-- `MAX_IMAGE_BYTES`. -/
def maxImageBytes : Nat := 256 * 1024

/-- The `CHECK` constraints of the table. -/
structure TokenLogo.Checked (row : TokenLogo) : Prop where
  lastOutcome : ∀ outcome ∈ row.lastOutcome, outcome ∈ ["success", "unavailable", "transient"]
  allOrNothing : row.AllOrNothing
  imageBytes : ∀ bytes ∈ row.imageBytes, 1 ≤ bytes.length ∧ bytes.length ≤ 262144
  contentHash : ∀ hash ∈ row.contentHash, sqlLength hash = 64
  mimeType : ∀ mimeType ∈ row.mimeType, mimeType ∈ ["image/png", "image/jpeg", "image/webp"]
  source : ∀ source ∈ row.source, 1 ≤ sqlLength source ∧ sqlLength source ≤ 64
  failureCount : 0 ≤ row.failureCount
  lastHttpStatus : ∀ status ∈ row.lastHttpStatus, 100 ≤ status ∧ status ≤ 599
  lastErrorCode : ∀ code ∈ row.lastErrorCode, 1 ≤ sqlLength code ∧ sqlLength code ≤ 64

instance (row : TokenLogo) : Decidable row.AllOrNothing := inferInstanceAs (Decidable (_ ∨ _))

instance : DecidablePred TokenLogo.Checked := fun row =>
  decidable_of_iff ((∀ outcome ∈ row.lastOutcome, outcome ∈ ["success", "unavailable", "transient"]) ∧
      row.AllOrNothing ∧ (∀ bytes ∈ row.imageBytes, 1 ≤ bytes.length ∧ bytes.length ≤ 262144) ∧
      (∀ hash ∈ row.contentHash, sqlLength hash = 64) ∧
      (∀ mimeType ∈ row.mimeType, mimeType ∈ ["image/png", "image/jpeg", "image/webp"]) ∧
      (∀ source ∈ row.source, 1 ≤ sqlLength source ∧ sqlLength source ≤ 64) ∧ 0 ≤ row.failureCount ∧
      (∀ status ∈ row.lastHttpStatus, 100 ≤ status ∧ status ≤ 599) ∧
      ∀ code ∈ row.lastErrorCode, 1 ≤ sqlLength code ∧ sqlLength code ≤ 64)
    ⟨fun ⟨a, b, c, d, e, f, g, h, i⟩ => ⟨a, b, c, d, e, f, g, h, i⟩,
      fun ⟨a, b, c, d, e, f, g, h, i⟩ => ⟨a, b, c, d, e, f, g, h, i⟩⟩

/-- A row that is due at once. -/
def TokenLogo.due (row : TokenLogo) : TokenLogo := { row with nextAttemptAt := some 0 }

theorem TokenLogo.Checked.due {row : TokenLogo} (h : row.Checked) : row.due.Checked :=
  ⟨h.lastOutcome, h.allOrNothing, h.imageBytes, h.contentHash, h.mimeType, h.source, h.failureCount, h.lastHttpStatus,
    h.lastErrorCode⟩

/-! ### The store -/

abbrev LogoTable := Table TokenKey TokenLogo TokenLogo.Checked

/-- A row of `token_logo_source_sync`. -/
structure SourceSync where
  syncedAt : Int
  revisionHash : String
deriving DecidableEq

structure LogoStore where
  logos : LogoTable
  /-- `token_logo_source_entries`: the URL and the time by source, chain and address -/
  entries : Dict (String × Int × String) (String × Int)
  /-- `token_logo_source_sync` by source and chain -/
  sync : Table (String × Int) SourceSync fun row => sqlLength row.revisionHash = 64

/-- The store of a new schema. -/
def LogoStore.empty : LogoStore := ⟨.empty, .empty, .empty⟩

structure TokenLogoSourceEntry where
  source : String
  chainId : Int
  address : String
  logoUrl : String

/-- A statement inside an operation. -/
def sql {α : Type} (x : Except SqliteError α) : Except Exn α :=
  x.mapError fun e =>
    match e with
    | .integrityError => .other "IntegrityError"
    | .overflowError => .overflowError

/-- `sorted({...})` of pairs. -/
def sortedSet {α β : Type} [DecidableEq α] [DecidableEq β] [LT α] [LE β] [DecidableLT α] [DecidableLE β]
    (xs : List (α × β)) : List (α × β) :=
  xs.eraseDups.mergeSort fun a b => a.1 < b.1 || a.1 = b.1 && a.2 ≤ b.2

section SortedSet

variable {α β : Type} [DecidableEq α] [DecidableEq β] [LT α] [LE β] [DecidableLT α] [DecidableLE β] {xs : List (α × β)}
  {x : α × β}

private theorem sortedSet_perm (xs : List (α × β)) : (sortedSet xs).Perm xs.eraseDups := List.mergeSort_perm _ _

theorem mem_sortedSet_iff : x ∈ sortedSet xs ↔ x ∈ xs :=
  (sortedSet_perm xs).mem_iff.trans List.mem_eraseDups

theorem nodup_sortedSet (xs : List (α × β)) : (sortedSet xs).Nodup :=
  (sortedSet_perm xs).nodup_iff.2 (nodup_eraseDups xs)

end SortedSet

section Operations

variable (eth : EthUtils)

/-- One `INSERT INTO token_logos (chain_id, address, next_attempt_at)`. -/
def enroll (onConflict : TokenLogo → TokenLogo) (logos : LogoTable) (identity : TokenKey) : Except Exn LogoTable := do
  let chainId ← sql (bindInt identity.1)
  sql (logos.upsert (chainId, identity.2) {} onConflict)

/-- An observation leaves the rows that are there as they are. -/
def enrollObserved (chainId : Int) (addresses : List String) (store : LogoStore) : Except Exn LogoStore := do
  let normalized ← normalizeAddresses eth addresses
  let logos ← (normalized.map fun address => (chainId, address)).foldlM (enroll id) store.logos
  pure { store with logos }

/-- The conflict clause of an explicit enrolment. -/
def enrollConflict (forceExisting : Bool) (row : TokenLogo) : TokenLogo :=
  if forceExisting ∨ row.imageBytes.isNone then row.due else row

/-- Returns the checkpoint, the time at which the enrolment started. -/
def enrollIdentities (identities : List TokenKey) (forceExisting : Bool) (now : Int) (store : LogoStore) :
    Except Exn (LogoStore × Int) := do
  let normalized ← (identities.filter fun identity => 0 < identity.1).mapM fun identity =>
    (normalizeAddress eth identity.2).map fun address => (identity.1, address)
  let normalized := sortedSet normalized
  if normalized.length ≠ identities.length ∧ identities.any (fun identity => identity.1 ≤ 0) then
    .error (.valueError "chain_id must be positive")
  else
    let logos ← normalized.foldlM (enroll (enrollConflict forceExisting)) store.logos
    pure ({ store with logos }, now)

def recordLogoSuccess (chainId : Int) (address : String) (imageBytes : Bytes) (contentHash mimeType source : String)
    (attemptedAt : Int) (httpStatus : Option Int) (store : LogoStore) : Except Exn LogoStore := do
  let normalized ← normalizeAddress eth address
  let chainId ← sql (bindInt chainId)
  let attemptedAt ← sql (bindInt attemptedAt)
  let httpStatus ← sql (httpStatus.mapM bindInt)
  let refresh (row : TokenLogo) : TokenLogo :=
    { row with mimeType := some mimeType, source := some source, lastSuccessAt := some attemptedAt
               lastAttemptAt := some attemptedAt, nextAttemptAt := none, lastOutcome := some "success"
               failureCount := 0, lastHttpStatus := httpStatus, lastErrorCode := none }
  if ((store.logos.row? (chainId, normalized)).bind (·.contentHash)) = some contentHash then
    let logos ← sql (store.logos.update (chainId, normalized) refresh)
    pure { store with logos }
  else
    let row := refresh { imageBytes := some imageBytes, contentHash := some contentHash }
    let logos ← sql (store.logos.upsert (chainId, normalized) row fun _ => row)
    pure { store with logos }

def recordLogoFailure (chainId : Int) (address outcome : String) (attemptedAt nextAttemptAt failureCount : Int)
    (httpStatus : Option Int) (errorCode : String) (store : LogoStore) : Except Exn LogoStore :=
  if outcome ∉ ["unavailable", "transient"] then .error (.valueError "invalid logo acquisition failure outcome")
  else do
    let normalized ← normalizeAddress eth address
    let chainId ← sql (bindInt chainId)
    let attemptedAt ← sql (bindInt attemptedAt)
    let nextAttemptAt ← sql (bindInt nextAttemptAt)
    let failureCount ← sql (bindInt failureCount)
    let httpStatus ← sql (httpStatus.mapM bindInt)
    let fail (row : TokenLogo) : TokenLogo :=
      { row with lastAttemptAt := some attemptedAt, nextAttemptAt := some nextAttemptAt, lastOutcome := some outcome
                 failureCount, lastHttpStatus := httpStatus, lastErrorCode := some errorCode }
    let logos ← sql (store.logos.upsert (chainId, normalized) (fail {}) fail)
    pure { store with logos }

/-- One `INSERT INTO token_logo_source_entries`. -/
def insertEntry (key : String × Int) (syncedAt : Int) (entries : Dict (String × Int × String) (String × Int))
    (row : String × String) : Except Exn (Dict (String × Int × String) (String × Int)) :=
  match entries.get? (key.1, key.2, row.1) with
  | some _ => .error (.other "IntegrityError")
  | none => .ok (entries.set (key.1, key.2, row.1) (row.2, syncedAt))

/-- `UPDATE token_logos SET next_attempt_at = 0` for the rows of a chain without an image. -/
def dueWithoutImage (chainId : Int) (logos : LogoTable) : LogoTable :=
  logos.mapValues fun key row =>
    if key.1 = chainId ∧ row.val.imageBytes.isNone then ⟨row.val.due, row.property.due⟩ else row

/-- A new revision: the entries of the source are replaced, and what has no image is due. -/
def replaceRevision (source : String) (chainId : Int) (rows : List (String × String)) (syncedAt : Int)
    (store : LogoStore) : Except Exn LogoStore := do
  let kept := store.entries.filter fun entry => ¬ (entry.1.1 = source ∧ entry.1.2.1 = chainId)
  let entries ← rows.foldlM (insertEntry (source, chainId) syncedAt) kept
  pure { store with entries, logos := dueWithoutImage chainId store.logos }

/-- Returns whether the entries changed.  The hash of a revision is a parameter. -/
def replaceLogoSourceEntries (revision : List (String × String) → String) (source : String) (chainId : Int)
    (entries : List TokenLogoSourceEntry) (syncedAt : Int) (store : LogoStore) : Except Exn (LogoStore × Bool) := do
  let rows ← (entries.filter fun entry => entry.source = source ∧ entry.chainId = chainId).mapM fun entry =>
    (normalizeAddress eth entry.address).map fun address => (address, entry.logoUrl)
  let rows := sortedSet rows
  let chainId ← sql (bindInt chainId)
  let syncedAt ← sql (bindInt syncedAt)
  let changed : Bool := ((store.sync.row? (source, chainId)).map (·.revisionHash)) ≠ some (revision rows)
  let store ← (if changed then replaceRevision source chainId rows syncedAt store else .ok store)
  let sync ← sql (store.sync.upsert (source, chainId) ⟨syncedAt, revision rows⟩ fun _ => ⟨syncedAt, revision rows⟩)
  pure ({ store with sync }, changed)

end Operations

/-! ### Runs -/

inductive LogoOp
  | enrollObserved (chainId : Int) (addresses : List String)
  | enrollIdentities (identities : List TokenKey) (forceExisting : Bool) (now : Int)
  | recordSuccess (chainId : Int) (address : String) (imageBytes : Bytes) (contentHash mimeType source : String)
      (attemptedAt : Int) (httpStatus : Option Int)
  | recordFailure (chainId : Int) (address outcome : String) (attemptedAt nextAttemptAt failureCount : Int)
      (httpStatus : Option Int) (errorCode : String)
  | replaceSourceEntries (source : String) (chainId : Int) (entries : List TokenLogoSourceEntry) (syncedAt : Int)

namespace LogoStore

variable (eth : EthUtils) (revision : List (String × String) → String)

def apply (store : LogoStore) : LogoOp → Except Exn LogoStore
  | .enrollObserved chainId addresses => TokenPriceAgg.enrollObserved eth chainId addresses store
  | .enrollIdentities identities forceExisting now =>
    (TokenPriceAgg.enrollIdentities eth identities forceExisting now store).map Prod.fst
  | .recordSuccess chainId address imageBytes contentHash mimeType source attemptedAt httpStatus =>
    recordLogoSuccess eth chainId address imageBytes contentHash mimeType source attemptedAt httpStatus store
  | .recordFailure chainId address outcome attemptedAt nextAttemptAt failureCount httpStatus errorCode =>
    recordLogoFailure eth chainId address outcome attemptedAt nextAttemptAt failureCount httpStatus errorCode store
  | .replaceSourceEntries source chainId entries syncedAt =>
    (replaceLogoSourceEntries eth revision source chainId entries syncedAt store).map Prod.fst

/-- One call; a call that raises leaves the store as it is. -/
def step (store : LogoStore) (op : LogoOp) : Option LogoStore :=
  match store.apply eth revision op with
  | .ok store' => some store'
  | .error _ => some store

/-- The row of an identity. -/
def row? (store : LogoStore) (key : TokenKey) : Option TokenLogo := store.logos.row? key

end LogoStore

/-- What a call can do to the row of an identity. -/
inductive LogoEffect (eth : EthUtils) (op : LogoOp) (key : TokenKey) : Option TokenLogo → Option TokenLogo → Prop
  | kept (row : Option TokenLogo) : LogoEffect eth op key row row
  | enrolled : LogoEffect eth op key none (some {})
  | due (row : TokenLogo) : LogoEffect eth op key (some row) (some row.due)
  | failed (row : Option TokenLogo) (attemptedAt nextAttemptAt failureCount : Int) (outcome errorCode : String)
      (httpStatus : Option Int) :
      LogoEffect eth op key row (some
        { row.getD {} with
          lastAttemptAt := some attemptedAt, nextAttemptAt := some nextAttemptAt, lastOutcome := some outcome
          failureCount, lastHttpStatus := httpStatus, lastErrorCode := some errorCode })
  /-- a success with the content that is stored -/
  | refreshed (row row' : TokenLogo) (hash : row.contentHash.isSome) (same : row'.imageBytes = row.imageBytes) :
      LogoEffect eth op key (some row) (some row')
  /-- a success with other content -/
  | stored (row : Option TokenLogo) (row' : TokenLogo) (chainId : Int) (address : String) (imageBytes : Bytes)
      (contentHash mimeType source : String) (attemptedAt : Int) (httpStatus : Option Int)
      (call : op = .recordSuccess chainId address imageBytes contentHash mimeType source attemptedAt httpStatus)
      (identity : normalizeAddress eth address = .ok key.2 ∧ chainId = key.1)
      (other : row.bind (·.contentHash) ≠ some contentHash) (image : row'.imageBytes = some imageBytes) :
      LogoEffect eth op key row (some row')

/-! ### The effect of each operation -/

/-- What a list of enrolments does to a row. -/
def Enrolled (row row' : Option TokenLogo) : Prop :=
  row' = row ∨ row = none ∧ row' = some {} ∨ ∃ r, row = some r ∧ row' = some r.due

private theorem Enrolled.trans {row₁ row₂ row₃ : Option TokenLogo} (h : Enrolled row₁ row₂) (h' : Enrolled row₂ row₃) :
    Enrolled row₁ row₃ := by
  rcases h with rfl | ⟨rfl, rfl⟩ | ⟨r, rfl, rfl⟩
  · exact h'
  · rcases h' with rfl | ⟨hnone, -⟩ | ⟨r, hr, rfl⟩
    · exact .inr (.inl ⟨rfl, rfl⟩)
    · cases hnone
    · cases hr
      exact .inr (.inl ⟨rfl, rfl⟩)
  · rcases h' with rfl | ⟨hnone, -⟩ | ⟨r', hr, rfl⟩
    · exact .inr (.inr ⟨r, rfl, rfl⟩)
    · cases hnone
    · cases hr
      exact .inr (.inr ⟨r, rfl, rfl⟩)

theorem Enrolled.effect {eth : EthUtils} {op : LogoOp} {key : TokenKey} {row row' : Option TokenLogo}
    (h : Enrolled row row') : LogoEffect eth op key row row' := by
  rcases h with rfl | ⟨rfl, rfl⟩ | ⟨r, rfl, rfl⟩
  · exact .kept _
  · exact .enrolled
  · exact .due r

theorem sql_eq_ok {α : Type} {x : Except SqliteError α} {a : α} (h : sql x = .ok a) : x = .ok a := by
  cases x with
  | ok b =>
    cases h
    rfl
  | error e => cases h

/-- One enrolment with a conflict clause that at most makes the row due. -/
private theorem enroll_enrolled {onConflict : TokenLogo → TokenLogo}
    (hconflict : ∀ row, onConflict row = row ∨ onConflict row = row.due) {logos logos' : LogoTable}
    {identity : TokenKey} (h : enroll onConflict logos identity = .ok logos') (key : TokenKey) :
    Enrolled (logos.row? key) (logos'.row? key) := by
  obtain ⟨chainId, -, h⟩ := Eff.except_bind_eq_ok.1 h
  rw [Table.row?_upsert (sql_eq_ok h) key]
  by_cases hkey : key = (chainId, identity.2)
  · rw [if_pos hkey, ← hkey]
    cases hrow : logos.row? key with
    | none => exact .inr (.inl ⟨rfl, rfl⟩)
    | some row =>
      rcases hconflict row with hrow' | hrow'
      · exact .inl (congrArg some hrow')
      · exact .inr (.inr ⟨row, rfl, congrArg some hrow'⟩)
  · rw [if_neg hkey]
    exact .inl rfl

theorem enrollMany_enrolled {onConflict : TokenLogo → TokenLogo}
    (hconflict : ∀ row, onConflict row = row ∨ onConflict row = row.due) {logos logos' : LogoTable}
    {identities : List TokenKey} (h : identities.foldlM (enroll onConflict) logos = .ok logos') (key : TokenKey) :
    Enrolled (logos.row? key) (logos'.row? key) :=
  Eff.foldlM_rel (R := fun logos logos' : LogoTable => Enrolled (logos.row? key) (logos'.row? key))
    (fun _ => .inl rfl) (fun _ _ _ => Enrolled.trans) (fun _ _ _ _ h => enroll_enrolled hconflict h key) h

theorem enrollConflict_cases (forceExisting : Bool) (row : TokenLogo) :
    enrollConflict forceExisting row = row ∨ enrollConflict forceExisting row = row.due := by
  unfold enrollConflict
  by_cases h : forceExisting ∨ row.imageBytes.isNone
  · exact .inr (if_pos h)
  · exact .inl (if_neg h)

section Effects

variable {eth : EthUtils} {revision : List (String × String) → String} {store store' : LogoStore} {key : TokenKey}

private theorem enrollObserved_effect {chainId : Int} {addresses : List String} {op : LogoOp}
    (h : enrollObserved eth chainId addresses store = .ok store') :
    LogoEffect eth op key (store.row? key) (store'.row? key) := by
  obtain ⟨normalized, -, h⟩ := Eff.except_bind_eq_ok.1 h
  obtain ⟨logos, hlogos, h⟩ := Eff.except_bind_eq_ok.1 h
  cases h
  exact (enrollMany_enrolled (fun _ => .inl rfl) hlogos key).effect

private theorem enrollIdentities_effect
    {identities : List TokenKey} {forceExisting : Bool} {now started : Int} {op : LogoOp}
    (h : enrollIdentities eth identities forceExisting now store = .ok (store', started)) :
    LogoEffect eth op key (store.row? key) (store'.row? key) := by
  obtain ⟨normalized, -, h⟩ := Eff.except_bind_eq_ok.1 h
  dsimp only at h
  split at h
  · cases h
  · obtain ⟨logos, hlogos, h⟩ := Eff.except_bind_eq_ok.1 h
    cases h
    exact (enrollMany_enrolled (enrollConflict_cases forceExisting) hlogos key).effect

private theorem recordLogoSuccess_effect {chainId : Int} {address : String} {imageBytes : Bytes}
    {contentHash mimeType source : String} {attemptedAt : Int} {httpStatus : Option Int}
    (h : recordLogoSuccess eth chainId address imageBytes contentHash mimeType source attemptedAt httpStatus store =
      .ok store') :
    LogoEffect eth (.recordSuccess chainId address imageBytes contentHash mimeType source attemptedAt httpStatus) key
      (store.row? key) (store'.row? key) := by
  obtain ⟨normalized, hnormalized, h⟩ := Eff.except_bind_eq_ok.1 h
  obtain ⟨chainId', hchain, h⟩ := Eff.except_bind_eq_ok.1 h
  obtain ⟨attemptedAt', -, h⟩ := Eff.except_bind_eq_ok.1 h
  obtain ⟨httpStatus', -, h⟩ := Eff.except_bind_eq_ok.1 h
  have hid : chainId' = chainId := (bindInt_eq_ok (sql_eq_ok hchain)).1
  dsimp only at h
  split at h
  · rename_i hsame
    obtain ⟨logos, hlogos, h⟩ := Eff.except_bind_eq_ok.1 h
    cases h
    show LogoEffect _ _ _ (store.logos.row? key) (logos.row? key)
    rw [Table.row?_update (sql_eq_ok hlogos) key]
    by_cases hkey : key = (chainId', normalized)
    · rw [if_pos hkey, ← hkey]
      rw [← hkey] at hsame
      cases hrow : store.logos.row? key with
      | none => exact .kept none
      | some row =>
        rw [hrow] at hsame
        refine .refreshed row _ ?_ rfl
        exact Option.isSome_iff_exists.2 ⟨contentHash, hsame⟩
    · rw [if_neg hkey]
      exact .kept _
  · rename_i hother
    obtain ⟨logos, hlogos, h⟩ := Eff.except_bind_eq_ok.1 h
    cases h
    show LogoEffect _ _ _ (store.logos.row? key) (logos.row? key)
    rw [Table.row?_upsert (sql_eq_ok hlogos) key]
    by_cases hkey : key = (chainId', normalized)
    · rw [if_pos hkey, ← hkey]
      rw [← hkey] at hother
      have hidentity : normalizeAddress eth address = .ok key.2 ∧ chainId = key.1 := by
        rw [hkey]
        exact ⟨hnormalized, hid.symm⟩
      cases hrow : store.logos.row? key with
      | none =>
        exact .stored none _ _ _ _ _ _ _ _ _ rfl hidentity (by simp) rfl
      | some row =>
        rw [hrow] at hother
        exact .stored (some row) _ _ _ _ _ _ _ _ _ rfl hidentity hother rfl
    · rw [if_neg hkey]
      exact .kept _

private theorem recordLogoFailure_effect {chainId : Int} {address outcome : String}
    {attemptedAt nextAttemptAt failureCount : Int} {httpStatus : Option Int} {errorCode : String} {op : LogoOp}
    (h : recordLogoFailure eth chainId address outcome attemptedAt nextAttemptAt failureCount httpStatus errorCode
      store = .ok store') : LogoEffect eth op key (store.row? key) (store'.row? key) := by
  unfold recordLogoFailure at h
  split at h
  · cases h
  obtain ⟨normalized, -, h⟩ := Eff.except_bind_eq_ok.1 h
  obtain ⟨chainId', -, h⟩ := Eff.except_bind_eq_ok.1 h
  obtain ⟨attemptedAt', -, h⟩ := Eff.except_bind_eq_ok.1 h
  obtain ⟨nextAttemptAt', -, h⟩ := Eff.except_bind_eq_ok.1 h
  obtain ⟨failureCount', -, h⟩ := Eff.except_bind_eq_ok.1 h
  obtain ⟨httpStatus', -, h⟩ := Eff.except_bind_eq_ok.1 h
  obtain ⟨logos, hlogos, h⟩ := Eff.except_bind_eq_ok.1 h
  cases h
  show LogoEffect _ _ _ (store.logos.row? key) (logos.row? key)
  rw [Table.row?_upsert (sql_eq_ok hlogos) key]
  by_cases hkey : key = (chainId', normalized)
  · rw [if_pos hkey, ← hkey]
    cases hrow : store.logos.row? key with
    | none => exact .failed none _ _ _ _ _ _
    | some row => exact .failed (some row) _ _ _ _ _ _
  · rw [if_neg hkey]
    exact .kept _

private theorem replaceLogoSourceEntries_effect {source : String} {chainId : Int} {entries : List TokenLogoSourceEntry}
    {syncedAt : Int} {changed : Bool} {op : LogoOp}
    (h : replaceLogoSourceEntries eth revision source chainId entries syncedAt store = .ok (store', changed)) :
    LogoEffect eth op key (store.row? key) (store'.row? key) := by
  obtain ⟨rows, -, h⟩ := Eff.except_bind_eq_ok.1 h
  obtain ⟨chainId', -, h⟩ := Eff.except_bind_eq_ok.1 h
  obtain ⟨syncedAt', -, h⟩ := Eff.except_bind_eq_ok.1 h
  obtain ⟨store₁, hstore, h⟩ := Eff.except_bind_eq_ok.1 h
  obtain ⟨sync, -, h⟩ := Eff.except_bind_eq_ok.1 h
  cases h
  show LogoEffect _ _ _ (store.logos.row? key) (store₁.logos.row? key)
  split at hstore
  · unfold replaceRevision at hstore
    obtain ⟨entries', -, hstore⟩ := Eff.except_bind_eq_ok.1 hstore
    cases hstore
    show LogoEffect _ _ _ (store.logos.row? key) ((dueWithoutImage chainId' store.logos).row? key)
    unfold dueWithoutImage Table.row?
    rw [Dict.get?_mapValues]
    cases hrow : store.logos.get? key with
    | none => exact .kept none
    | some row =>
      by_cases hdue : key.1 = chainId' ∧ row.val.imageBytes.isNone
      · simp only [Option.map_some, if_pos hdue]
        exact .due row.val
      · simp only [Option.map_some, if_neg hdue]
        exact .kept _
  · cases hstore
    exact .kept _

/-- What one call does to the row of an identity. -/
private theorem LogoStore.step_effect {op : LogoOp} (h : store.step eth revision op = some store') (key : TokenKey) :
    LogoEffect eth op key (store.row? key) (store'.row? key) := by
  unfold step at h
  cases happly : store.apply eth revision op with
  | error exc =>
    rw [happly] at h
    cases h
    exact .kept _
  | ok store₁ =>
    rw [happly] at h
    cases h
    cases op with
    | enrollObserved chainId addresses => exact enrollObserved_effect happly
    | enrollIdentities identities forceExisting now =>
      obtain ⟨⟨s, started⟩, hresult, rfl⟩ := Eff.except_map_eq_ok.1 happly
      exact enrollIdentities_effect hresult
    | recordSuccess => exact recordLogoSuccess_effect happly
    | recordFailure => exact recordLogoFailure_effect happly
    | replaceSourceEntries source chainId entries syncedAt =>
      obtain ⟨⟨s, changed⟩, hresult, rfl⟩ := Eff.except_map_eq_ok.1 happly
      exact replaceLogoSourceEntries_effect hresult

/-! ### When a record goes through -/

section Records

variable {eth : EthUtils} {store store' : LogoStore} {chainId attemptedAt : Int} {address : String}

theorem sql_bindInt {n : Int} (h : -2 ^ 63 ≤ n ∧ n < 2 ^ 63) : sql (bindInt n) = .ok n := by
  rw [bindInt_of_fits h]
  rfl

private theorem sql_bindStatus {httpStatus : Option Int} (h : ∀ status ∈ httpStatus, 100 ≤ status ∧ status ≤ 599) :
    sql (httpStatus.mapM bindInt) = .ok httpStatus := by
  cases httpStatus with
  | none => rfl
  | some status =>
    obtain ⟨hlow, hhigh⟩ := h status rfl
    have hfits : -2 ^ 63 ≤ status ∧ status < 2 ^ 63 := by omega
    show sql ((bindInt status).map some) = .ok (some status)
    rw [bindInt_of_fits hfits]
    rfl

private theorem bindStatus_eq_ok {httpStatus bound : Option Int} (h : httpStatus.mapM bindInt = .ok bound) :
    bound = httpStatus := by
  cases httpStatus with
  | none =>
    cases h
    rfl
  | some status =>
    obtain ⟨n, hn, rfl⟩ := Eff.except_map_eq_ok.1 h
    exact congrArg some (bindInt_eq_ok hn).1

theorem TokenLogo.checked_default : ({} : TokenLogo).Checked := by decide

/-- The row after a failure satisfies the constraints if the row before does and the recorded values do. -/
theorem TokenLogo.Checked.failed {row : TokenLogo} (h : row.Checked) {nextAttemptAt failureCount : Int}
    {outcome errorCode : String} {httpStatus : Option Int} (houtcome : outcome ∈ ["unavailable", "transient"])
    (hcount : 0 ≤ failureCount) (hstatus : ∀ status ∈ httpStatus, 100 ≤ status ∧ status ≤ 599)
    (hcode : 1 ≤ sqlLength errorCode ∧ sqlLength errorCode ≤ 64) :
    TokenLogo.Checked
      { row with
        lastAttemptAt := some attemptedAt, nextAttemptAt := some nextAttemptAt, lastOutcome := some outcome
        failureCount, lastHttpStatus := httpStatus, lastErrorCode := some errorCode } := by
  refine ⟨?_, h.allOrNothing, h.imageBytes, h.contentHash, h.mimeType, h.source, hcount, hstatus, ?_⟩
  · intro o ho
    cases ho
    exact List.mem_cons_of_mem _ houtcome
  · intro code h
    cases h
    exact hcode

/-- A failure with a valid outcome and a valid code is recorded exactly if the status is one of the five classes of HTTP
and the count fits. -/
theorem recordLogoFailure_ok_iff (hnormalized : Normalized eth address) (hchain : -2 ^ 63 ≤ chainId ∧ chainId < 2 ^ 63)
    {outcome errorCode : String} (houtcome : outcome ∈ ["unavailable", "transient"]) {nextAttemptAt failureCount : Int}
    (hattempted : -2 ^ 63 ≤ attemptedAt ∧ attemptedAt < 2 ^ 63)
    (hnext : -2 ^ 63 ≤ nextAttemptAt ∧ nextAttemptAt < 2 ^ 63) (hcount : 0 ≤ failureCount) {httpStatus : Option Int}
    (hstatus : ∀ status ∈ httpStatus, 100 ≤ status) (hcode : 1 ≤ sqlLength errorCode ∧ sqlLength errorCode ≤ 64) :
    (∃ store', recordLogoFailure eth chainId address outcome attemptedAt nextAttemptAt failureCount httpStatus errorCode
        store = .ok store') ↔
      failureCount < 2 ^ 63 ∧ ∀ status ∈ httpStatus, status ≤ 599 := by
  constructor
  · rintro ⟨store', h⟩
    unfold recordLogoFailure at h
    rw [if_neg (not_not.2 houtcome)] at h
    obtain ⟨normalized, -, h⟩ := Eff.except_bind_eq_ok.1 h
    obtain ⟨chainId', -, h⟩ := Eff.except_bind_eq_ok.1 h
    obtain ⟨attemptedAt', -, h⟩ := Eff.except_bind_eq_ok.1 h
    obtain ⟨nextAttemptAt', -, h⟩ := Eff.except_bind_eq_ok.1 h
    obtain ⟨failureCount', hbound, h⟩ := Eff.except_bind_eq_ok.1 h
    obtain ⟨httpStatus', hstatus', h⟩ := Eff.except_bind_eq_ok.1 h
    obtain ⟨logos, hlogos, -⟩ := Eff.except_bind_eq_ok.1 h
    obtain rfl : httpStatus' = httpStatus := bindStatus_eq_ok (sql_eq_ok hstatus')
    refine ⟨(bindInt_eq_ok (sql_eq_ok hbound)).2.2, fun status hs => ?_⟩
    have hchecked := (Table.upsert_ok_iff.1 ⟨logos, sql_eq_ok hlogos⟩).1
    exact (hchecked.lastHttpStatus status hs).2
  · rintro ⟨hbound, hhigh⟩
    have hrange : ∀ status ∈ httpStatus, 100 ≤ status ∧ status ≤ 599 := fun status hs =>
      ⟨hstatus status hs, hhigh status hs⟩
    unfold Normalized at hnormalized
    unfold recordLogoFailure
    rw [if_neg (not_not.2 houtcome)]
    simp only [hnormalized, sql_bindInt hchain, sql_bindInt hattempted, sql_bindInt hnext,
      sql_bindInt (n := failureCount) (by omega), sql_bindStatus hrange, bind, Except.bind]
    have failed {row : TokenLogo} (h : row.Checked) : TokenLogo.Checked
        { row with
          lastAttemptAt := some attemptedAt, nextAttemptAt := some nextAttemptAt, lastOutcome := some outcome
          failureCount, lastHttpStatus := httpStatus, lastErrorCode := some errorCode } :=
      h.failed houtcome hcount hrange hcode
    have hexisting : ∃ logos, store.logos.upsert (chainId, address)
        { lastAttemptAt := some attemptedAt, nextAttemptAt := some nextAttemptAt, lastOutcome := some outcome
          failureCount, lastHttpStatus := httpStatus, lastErrorCode := some errorCode }
        (fun row =>
          { row with
            lastAttemptAt := some attemptedAt, nextAttemptAt := some nextAttemptAt, lastOutcome := some outcome
            failureCount, lastHttpStatus := httpStatus, lastErrorCode := some errorCode }) = .ok logos := by
      refine Table.upsert_ok_iff.2 ⟨failed TokenLogo.checked_default, ?_⟩
      cases hrow : store.logos.row? (chainId, address) with
      | none => exact failed TokenLogo.checked_default
      | some row => exact failed (Table.check_of_row? hrow)
    obtain ⟨logos, hlogos⟩ := hexisting
    refine ⟨{ store with logos }, ?_⟩
    rw [hlogos]
    rfl

/-- The row of the identity after a recorded failure. -/
theorem recordLogoFailure_row (hnormalized : Normalized eth address) {outcome errorCode : String}
    {nextAttemptAt failureCount : Int} {httpStatus : Option Int}
    (h : recordLogoFailure eth chainId address outcome attemptedAt nextAttemptAt failureCount httpStatus errorCode
      store = .ok store') :
    ∃ row, store'.row? (chainId, address) = some row ∧ row.lastAttemptAt = some attemptedAt ∧
      row.nextAttemptAt = some nextAttemptAt ∧ row.lastOutcome = some outcome := by
  unfold Normalized at hnormalized
  unfold recordLogoFailure at h
  split at h
  · cases h
  obtain ⟨normalized, haddress, h⟩ := Eff.except_bind_eq_ok.1 h
  obtain ⟨chainId', hchain, h⟩ := Eff.except_bind_eq_ok.1 h
  obtain ⟨attemptedAt', hattempted, h⟩ := Eff.except_bind_eq_ok.1 h
  obtain ⟨nextAttemptAt', hnext, h⟩ := Eff.except_bind_eq_ok.1 h
  obtain ⟨failureCount', -, h⟩ := Eff.except_bind_eq_ok.1 h
  obtain ⟨httpStatus', -, h⟩ := Eff.except_bind_eq_ok.1 h
  obtain ⟨logos, hlogos, h⟩ := Eff.except_bind_eq_ok.1 h
  rw [hnormalized] at haddress
  have haddress : address = normalized := Except.ok.inj haddress
  have hchain : chainId' = chainId := (bindInt_eq_ok (sql_eq_ok hchain)).1
  have hattempted : attemptedAt' = attemptedAt := (bindInt_eq_ok (sql_eq_ok hattempted)).1
  have hnext : nextAttemptAt' = nextAttemptAt := (bindInt_eq_ok (sql_eq_ok hnext)).1
  cases h
  subst haddress hchain hattempted hnext
  have hrow := Table.row?_upsert (sql_eq_ok hlogos) (chainId', address)
  rw [if_pos rfl] at hrow
  refine ⟨_, hrow, ?_, ?_, ?_⟩
  all_goals cases store.logos.row? (chainId', address) <;> rfl

/-- A success with a storable image is recorded. -/
theorem recordLogoSuccess_ok (hnormalized : Normalized eth address) (hchain : -2 ^ 63 ≤ chainId ∧ chainId < 2 ^ 63)
    (hattempted : -2 ^ 63 ≤ attemptedAt ∧ attemptedAt < 2 ^ 63) {imageBytes : Bytes}
    (hbytes : 1 ≤ imageBytes.length ∧ imageBytes.length ≤ 262144) {contentHash mimeType source : String}
    (hhash : sqlLength contentHash = 64) (hmime : mimeType ∈ ["image/png", "image/jpeg", "image/webp"])
    (hsource : 1 ≤ sqlLength source ∧ sqlLength source ≤ 64) {httpStatus : Option Int}
    (hstatus : ∀ status ∈ httpStatus, 100 ≤ status ∧ status ≤ 599) :
    ∃ store' row,
      recordLogoSuccess eth chainId address imageBytes contentHash mimeType source attemptedAt httpStatus store =
        .ok store' ∧ store'.row? (chainId, address) = some row ∧ row.lastAttemptAt = some attemptedAt ∧
      row.nextAttemptAt = none ∧ row.lastOutcome = some "success" := by
  unfold Normalized at hnormalized
  -- the columns that a success writes, over a row whose image is there
  have refreshed {row : TokenLogo} (himage : row.imageBytes.isSome ∧ row.contentHash.isSome)
      (hrow : ∀ bytes ∈ row.imageBytes, 1 ≤ bytes.length ∧ bytes.length ≤ 262144)
      (hrowHash : ∀ hash ∈ row.contentHash, sqlLength hash = 64) : TokenLogo.Checked
        { row with
          mimeType := some mimeType, source := some source, lastSuccessAt := some attemptedAt
          lastAttemptAt := some attemptedAt, nextAttemptAt := none, lastOutcome := some "success"
          failureCount := 0, lastHttpStatus := httpStatus, lastErrorCode := none } := by
    refine ⟨?_, .inr ⟨himage.1, himage.2, rfl, rfl, rfl⟩, hrow, hrowHash, ?_, ?_, le_refl 0, hstatus, nofun⟩
    · intro outcome h
      cases h
      decide
    · intro mime h
      cases h
      exact hmime
    · intro text h
      cases h
      exact hsource
  unfold recordLogoSuccess
  simp only [hnormalized, sql_bindInt hchain, sql_bindInt hattempted, sql_bindStatus hstatus, bind, Except.bind]
  split
  · rename_i hsame
    cases hrow : store.logos.row? (chainId, address) with
    | none =>
      rw [hrow] at hsame
      cases hsame
    | some row =>
      rw [hrow] at hsame
      have hhash : row.contentHash.isSome := Option.isSome_iff_exists.2 ⟨contentHash, hsame⟩
      have hchecked : row.Checked := Table.check_of_row? hrow
      have himage : row.imageBytes.isSome := by
        rcases hchecked.allOrNothing with ⟨-, hnohash, -⟩ | ⟨himage, -⟩
        · rw [Option.isNone_iff_eq_none.1 hnohash] at hhash
          cases hhash
        · exact himage
      obtain ⟨logos, hlogos, hresult⟩ := Table.update_of_row? (f := fun row : TokenLogo =>
        { row with
          mimeType := some mimeType, source := some source, lastSuccessAt := some attemptedAt
          lastAttemptAt := some attemptedAt, nextAttemptAt := none, lastOutcome := some "success"
          failureCount := 0, lastHttpStatus := httpStatus, lastErrorCode := none }) hrow
        (refreshed ⟨himage, hhash⟩ hchecked.imageBytes hchecked.contentHash)
      refine ⟨{ store with logos }, _, ?_, hresult, rfl, rfl, rfl⟩
      rw [hlogos]
      rfl
  · have hrow := @refreshed { imageBytes := some imageBytes, contentHash := some contentHash } ⟨rfl, rfl⟩
      (by rintro bytes ⟨⟩; exact hbytes) (by rintro hash ⟨⟩; exact hhash)
    obtain ⟨logos, hlogos, hresult⟩ := Table.upsert_replace store.logos (chainId, address) hrow
    refine ⟨{ store with logos }, _, ?_, hresult, rfl, rfl, rfl⟩
    rw [hlogos]
    rfl

end Records

/-! ### Invariants of runs -/

/-- Every row without an image has a next attempt. -/
def LogoStore.Scheduled (store : LogoStore) : Prop :=
  ∀ key row, store.row? key = some row → row.imageBytes = none → row.nextAttemptAt.isSome

/-- A row with an image keeps having one. -/
def LogoStore.KeepsImages (store store' : LogoStore) : Prop :=
  ∀ key row, store.row? key = some row → row.imageBytes.isSome →
    ∃ row', store'.row? key = some row' ∧ row'.imageBytes.isSome

/-- The call records a success for the identity, with a content that is not the stored one. -/
def RecordsOther (eth : EthUtils) (op : LogoOp) (key : TokenKey) (row : Option TokenLogo) (row' : TokenLogo) : Prop :=
  ∃ chainId address imageBytes contentHash mimeType source attemptedAt httpStatus,
    op = .recordSuccess chainId address imageBytes contentHash mimeType source attemptedAt httpStatus ∧
      normalizeAddress eth address = .ok key.2 ∧ chainId = key.1 ∧ row.bind (·.contentHash) ≠ some contentHash ∧
      row'.imageBytes = some imageBytes

/-- Where the image of a row is another one after the call, the call records another content for it. -/
def LogoStore.ChangesImages (store : LogoStore) (op : LogoOp) (store' : LogoStore) (eth : EthUtils) : Prop :=
  ∀ key row', store'.row? key = some row' → (store.row? key).bind (·.imageBytes) ≠ row'.imageBytes →
    RecordsOther eth op key (store.row? key) row'

private theorem LogoStore.step_scheduled {op : LogoOp} (hscheduled : store.Scheduled)
    (h : store.step eth revision op = some store') : store'.Scheduled := by
  intro key row' hrow' hnone
  have heffect := LogoStore.step_effect h key
  rw [hrow'] at heffect
  generalize hrow : store.row? key = row at heffect
  cases heffect with
  | kept => exact hscheduled key row' hrow hnone
  | enrolled => rfl
  | due => rfl
  | failed => rfl
  | refreshed row _ hash same =>
    -- a stored hash comes with an image, which the refresh leaves
    have hchecked : row.Checked := Table.check_of_row? hrow
    rcases hchecked.allOrNothing with ⟨-, hnohash, -⟩ | ⟨himage, -⟩
    · rw [Option.isNone_iff_eq_none.1 hnohash] at hash
      cases hash
    · rw [← same, hnone] at himage
      cases himage
  | stored _ _ _ _ _ _ _ _ _ _ _ _ _ image =>
    rw [image] at hnone
    cases hnone

private theorem LogoStore.step_keepsImages {op : LogoOp} (h : store.step eth revision op = some store') :
    store.KeepsImages store' := by
  intro key row hrow himage
  have heffect := LogoStore.step_effect h key
  rw [hrow] at heffect
  generalize hrow' : store'.row? key = row' at heffect
  cases heffect with
  | kept => exact ⟨row, rfl, himage⟩
  | due => exact ⟨row.due, rfl, himage⟩
  | failed => exact ⟨_, rfl, himage⟩
  | refreshed _ row' _ same => exact ⟨row', rfl, by rw [same]; exact himage⟩
  | stored _ row' _ _ _ _ _ _ _ _ _ _ _ image => exact ⟨row', rfl, by rw [image]; rfl⟩

private theorem LogoStore.step_changesImages {op : LogoOp} (h : store.step eth revision op = some store') :
    store.ChangesImages op store' eth := by
  intro key row' hrow' hchanged
  have heffect := LogoStore.step_effect h key
  rw [hrow'] at heffect
  generalize store.row? key = row at heffect hchanged ⊢
  cases heffect with
  | kept => exact absurd rfl hchanged
  | enrolled => exact absurd rfl hchanged
  | due => exact absurd rfl hchanged
  | failed =>
    cases row with
    | none => exact absurd rfl hchanged
    | some row => exact absurd rfl hchanged
  | refreshed row _ _ same => exact absurd same.symm hchanged
  | stored _ _ chainId address imageBytes contentHash mimeType source attemptedAt httpStatus call identity other
      image =>
    exact ⟨chainId, address, imageBytes, contentHash, mimeType, source, attemptedAt, httpStatus, call, identity.1,
      identity.2, other, image⟩

end Effects

/-- In every run from an empty schema images stay and change only by a success with another content, what has no image
stays scheduled, and the columns of the last success are all null or all not. -/
theorem logo_store_invariants (eth : EthUtils) (revision : List (String × String) → String) (ops : List LogoOp) :
    Between (LogoStore.step eth revision) LogoStore.KeepsImages .empty ops ∧
      Along (LogoStore.step eth revision)
        (fun store op => ∀ store', store.step eth revision op = some store' → store.ChangesImages op store' eth)
        .empty ops ∧
      Always (LogoStore.step eth revision)
        (fun store => store.Scheduled ∧ ∀ key row, store.row? key = some row → row.AllOrNothing) .empty ops := by
  refine ⟨?_, ?_, ?_⟩
  · refine (between_iff_steps (fun store key row hrow himage => ⟨row, hrow, himage⟩) ?_).2 ?_
    · intro store₁ store₂ store₃ h h' key row hrow himage
      obtain ⟨row', hrow', himage'⟩ := h key row hrow himage
      exact h' key row' hrow' himage'
    · exact along_of_forall (fun store op store' h => LogoStore.step_keepsImages h) LogoStore.empty ops
  · exact along_of_forall (fun store op store' h => LogoStore.step_changesImages h) LogoStore.empty ops
  · intro pre _ store hrun
    have hempty : LogoStore.empty.Scheduled := by
      intro key row hrow
      cases hrow
    refine ⟨run_invariant (fun store op store' hs h => LogoStore.step_scheduled hs h) hempty hrun, ?_⟩
    intro key row hrow
    exact (Table.check_of_row? hrow).allOrNothing

end TokenPriceAgg

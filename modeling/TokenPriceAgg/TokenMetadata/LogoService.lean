import TokenPriceAgg.Core.AddressForms
import TokenPriceAgg.TokenMetadata.LogoAnswers

/-!
# The token logo service

`processDue` acquires the logo of a due identity and persists the result.  `persistResult_records` says when a result
is recorded, and `due_attempt_recorded_iff` when the attempt of a due identity is, in terms of what the candidates
answer.
-/

namespace TokenPriceAgg

open PyLib

/-! ### Settings and delays -/

/-- What the retry delays use of `LogoMaintenanceSettings`; no delay is negative and all are short. -/
structure LogoMaintenanceSettings where
  unavailableRetryMs : Int := 48 * 60 * 60 * 1000
  unavailableJitterRatio : ℚ := 1 / 10
  transientBaseMs : Int := 5 * 60 * 1000
  transientCapMs : Int := 6 * 60 * 60 * 1000
  retryAfterCapMs : Int := 24 * 60 * 60 * 1000
  nonneg : 0 ≤ transientBaseMs ∧ 0 ≤ transientCapMs ∧ 0 ≤ retryAfterCapMs := by decide
  jitter : 0 ≤ truncate (toFloat (unavailableRetryMs * toFloat unavailableJitterRatio)) ∧
    truncate (toFloat (unavailableRetryMs * toFloat unavailableJitterRatio)) ≤ unavailableRetryMs := by decide +kernel
  bounded : transientCapMs ≤ 2 ^ 40 ∧ retryAfterCapMs ≤ 2 ^ 40 ∧ unavailableRetryMs ≤ 2 ^ 40 := by decide

/-- The random number generator. -/
structure Rng where
  randint : Int → Int → Int
  mem : ∀ a b, a ≤ b → a ≤ randint a b ∧ randint a b ≤ b

/-- `time.time_ns()`, a signed integer of 64 bits. -/
abbrev TimeNs := {n : Int // -2 ^ 63 ≤ n ∧ n < 2 ^ 63}

def nowMs (time : TimeNs) : Int := time.val / 1000000

section Delays

variable (settings : LogoMaintenanceSettings) (rng : Rng)

def transientRetryDelayMs (failureCount : Int) (retryAfterMs : Option Int) : Int :=
  let exponent := min (max (failureCount - 1) 0) 31
  let backoffCap := min (settings.transientBaseMs * 2 ^ exponent.toNat) settings.transientCapMs
  let jittered := rng.randint 0 backoffCap
  match retryAfterMs with
  | none => jittered
  | some retryAfterMs =>
    let boundedRetryAfter := min (max retryAfterMs 0) settings.retryAfterCapMs
    min (max jittered boundedRetryAfter) settings.retryAfterCapMs

def unavailableRetryDelayMs : Int :=
  let span := truncate (toFloat (settings.unavailableRetryMs * toFloat settings.unavailableJitterRatio))
  settings.unavailableRetryMs + rng.randint (-span) span

theorem transientRetryDelayMs_mem (failureCount : Int) (retryAfterMs : Option Int) :
    0 ≤ transientRetryDelayMs settings rng failureCount retryAfterMs ∧
      transientRetryDelayMs settings rng failureCount retryAfterMs ≤ 2 ^ 40 := by
  obtain ⟨hbase, hcap, hretry⟩ := settings.nonneg
  obtain ⟨hcap', hretry', -⟩ := settings.bounded
  have hbackoff : 0 ≤ settings.transientBaseMs * 2 ^ (min (max (failureCount - 1) 0) 31).toNat :=
    mul_nonneg hbase (by positivity)
  unfold transientRetryDelayMs
  dsimp only
  generalize settings.transientBaseMs * 2 ^ (min (max (failureCount - 1) 0) 31).toNat = backoff at hbackoff ⊢
  have hjitter := rng.mem 0 (min backoff settings.transientCapMs) (by omega)
  generalize rng.randint 0 (min backoff settings.transientCapMs) = jittered at hjitter ⊢
  cases retryAfterMs with
  | none =>
    dsimp only
    omega
  | some retryAfterMs =>
    dsimp only
    omega

theorem unavailableRetryDelayMs_mem :
    0 ≤ unavailableRetryDelayMs settings rng ∧ unavailableRetryDelayMs settings rng ≤ 2 ^ 41 := by
  obtain ⟨hspan, hle⟩ := settings.jitter
  obtain ⟨-, -, hbound⟩ := settings.bounded
  unfold unavailableRetryDelayMs
  dsimp only
  generalize truncate (toFloat (settings.unavailableRetryMs * toFloat settings.unavailableJitterRatio)) = span at *
  have hjitter := rng.mem (-span) span (by omega)
  omega

end Delays

/-! ### The queue of due identities -/

structure DueTokenLogo where
  chainId : Int
  address : String
  failureCount : Int
deriving DecidableEq

/-- The order of the rows: the next attempt, the chain, the address. -/
def dueBefore (a b : Int × TokenKey) : Bool :=
  a.1 < b.1 || a.1 = b.1 && (a.2.1 < b.2.1 || a.2.1 = b.2.1 && a.2.2 ≤ b.2.2)

def getDueLogos (store : LogoStore) (nowMs : Int) (limit : Nat) : List DueTokenLogo :=
  let rows := store.logos.items.filterMap fun (key, row) =>
    match row.val.nextAttemptAt with
    | some next => if next ≤ nowMs then some ((next, key), row.val.failureCount) else none
    | none => none
  ((rows.mergeSort fun a b => dueBefore a.1 b.1).take limit).map fun ((_, key), failureCount) =>
    { chainId := key.1, address := key.2, failureCount }

/-! ### Processing -/

section Process

variable (eth : EthUtils) (settings : LogoMaintenanceSettings) (rng : Rng)

def persistResult (item : DueTokenLogo) (result : AcquisitionResult) (attemptedAt : Int) (store : LogoStore) :
    Except Exn LogoStore :=
  match result.outcome with
  | .success =>
    match result.asset, result.source with
    | some asset, some source =>
      recordLogoSuccess eth item.chainId item.address asset.imageBytes asset.contentHash asset.mimeType source
        attemptedAt result.httpStatus store
    | _, _ => .error (.other "RuntimeError")
  | .transient =>
    let failureCount := item.failureCount + 1
    let delay := transientRetryDelayMs settings rng failureCount result.retryAfterMs
    recordLogoFailure eth item.chainId item.address "transient" attemptedAt (attemptedAt + delay) failureCount
      result.httpStatus (prefix64 result.errorCode) store
  | .unavailable =>
    let delay := unavailableRetryDelayMs settings rng
    recordLogoFailure eth item.chainId item.address "unavailable" attemptedAt (attemptedAt + delay) 0
      result.httpStatus (prefix64 result.errorCode) store

/-- The candidates answer as the attempts say; `time` is the clock after the last of them. -/
def processDue (acquirer : Acquirer) (item : DueTokenLogo) (attempts : List Attempt) (time : TimeNs)
    (store : LogoStore) : Except Exn LogoStore := do
  let result ← acquire eth acquirer item.chainId item.address attempts
  persistResult eth settings rng item result (nowMs time) store

end Process

/-! ### The identities of the table -/

def LogoOp.addresses : LogoOp → List String
  | .enrollObserved _ addresses => addresses
  | .enrollIdentities identities _ _ => identities.map Prod.snd
  | .recordSuccess _ address .. => [address]
  | .recordFailure _ address .. => [address]
  | .replaceSourceEntries .. => []

section Identities

variable (eth : EthUtils)

/-- All callers pass addresses that came out of `normalize_address`. -/
def LogoOp.Canonical (op : LogoOp) : Prop := ∀ address ∈ op.addresses, ∃ raw, normalizeAddress eth raw = .ok address

/-- An identity whose address is its own normal form and whose chain fits. -/
def NormalKey (key : TokenKey) : Prop := Normalized eth key.2 ∧ -2 ^ 63 ≤ key.1 ∧ key.1 < 2 ^ 63

def LogoTable.Normal (logos : LogoTable) : Prop := ∀ key row, logos.row? key = some row → NormalKey eth key

variable {eth}

/-- What a statement on one row leaves normal. -/
private theorem LogoTable.Normal.of_row? {logos logos' : LogoTable} (h : logos.Normal eth) {key : TokenKey}
    {row : Option TokenLogo} (hkey : NormalKey eth key)
    (hrow : ∀ k, logos'.row? k = if k = key then row else logos.row? k) : logos'.Normal eth := by
  intro k r hr
  rw [hrow k] at hr
  by_cases hk : k = key
  · rw [hk]
    exact hkey
  · rw [if_neg hk] at hr
    exact h k r hr

private theorem enroll_normal {onConflict : TokenLogo → TokenLogo} {logos logos' : LogoTable} {identity : TokenKey}
    (haddress : Normalized eth identity.2) (hlogos : logos.Normal eth)
    (h : enroll onConflict logos identity = .ok logos') : logos'.Normal eth := by
  obtain ⟨chainId, hchain, h⟩ := Eff.except_bind_eq_ok.1 h
  obtain ⟨rfl, hfits⟩ := bindInt_eq_ok (sql_eq_ok hchain)
  exact hlogos.of_row? ⟨haddress, hfits⟩ (Table.row?_upsert (sql_eq_ok h))

private theorem enrollMany_normal
    {onConflict : TokenLogo → TokenLogo} {logos logos' : LogoTable} {identities : List TokenKey}
    (haddress : ∀ identity ∈ identities, Normalized eth identity.2) (hlogos : logos.Normal eth)
    (h : identities.foldlM (enroll onConflict) logos = .ok logos') : logos'.Normal eth :=
  Eff.foldlM_rel (R := fun logos logos' : LogoTable => logos.Normal eth → logos'.Normal eth) (fun _ h => h)
    (fun _ _ _ h h' hlogos => h' (h hlogos))
    (fun identity hidentity _ _ h hlogos => enroll_normal (haddress identity hidentity) hlogos h) h hlogos

variable (hlaw : eth.Lawful) {revision : List (String × String) → String} {store store' : LogoStore}

include hlaw

private theorem enrollObserved_normal {chainId : Int} {addresses : List String}
    (hcanonical : (LogoOp.enrollObserved chainId addresses).Canonical eth) (hstore : store.logos.Normal eth)
    (h : enrollObserved eth chainId addresses store = .ok store') : store'.logos.Normal eth := by
  obtain ⟨normalized, hnormalized, h⟩ := Eff.except_bind_eq_ok.1 h
  obtain ⟨logos, hlogos, h⟩ := Eff.except_bind_eq_ok.1 h
  cases h
  obtain ⟨all, hall, rfl⟩ := Eff.except_map_eq_ok.1 hnormalized
  refine enrollMany_normal (fun identity hidentity => ?_) hstore hlogos
  obtain ⟨address, haddress, rfl⟩ := List.mem_map.1 hidentity
  obtain ⟨given, hgiven, hsecond⟩ := Eff.mapM_ok_mem hall (List.mem_eraseDups.1 haddress)
  obtain ⟨raw, hfirst⟩ := hcanonical given hgiven
  exact normalized_of_twice hlaw hfirst hsecond

private theorem enrollIdentities_normal {identities : List TokenKey} {forceExisting : Bool} {now started : Int}
    (hcanonical : (LogoOp.enrollIdentities identities forceExisting now).Canonical eth)
    (hstore : store.logos.Normal eth)
    (h : enrollIdentities eth identities forceExisting now store = .ok (store', started)) :
    store'.logos.Normal eth := by
  obtain ⟨all, hall, h⟩ := Eff.except_bind_eq_ok.1 h
  dsimp only at h
  split at h
  · cases h
  · obtain ⟨logos, hlogos, h⟩ := Eff.except_bind_eq_ok.1 h
    cases h
    refine enrollMany_normal (fun identity hidentity => ?_) hstore hlogos
    obtain ⟨given, hgiven, hsecond⟩ := Eff.mapM_ok_mem hall (mem_sortedSet_iff.1 hidentity)
    obtain ⟨address, haddress, rfl⟩ := Eff.except_map_eq_ok.1 hsecond
    obtain ⟨raw, hfirst⟩ := hcanonical given.2 (List.mem_map_of_mem (List.mem_of_mem_filter hgiven))
    exact normalized_of_twice hlaw hfirst haddress

private theorem recordLogoSuccess_normal {chainId : Int} {address : String} {imageBytes : Bytes}
    {contentHash mimeType source : String} {attemptedAt : Int} {httpStatus : Option Int}
    (hcanonical : ∃ raw, normalizeAddress eth raw = .ok address) (hstore : store.logos.Normal eth)
    (h : recordLogoSuccess eth chainId address imageBytes contentHash mimeType source attemptedAt httpStatus store =
      .ok store') : store'.logos.Normal eth := by
  obtain ⟨raw, hfirst⟩ := hcanonical
  obtain ⟨normalized, hsecond, h⟩ := Eff.except_bind_eq_ok.1 h
  obtain ⟨chainId', hchain, h⟩ := Eff.except_bind_eq_ok.1 h
  obtain ⟨attemptedAt', -, h⟩ := Eff.except_bind_eq_ok.1 h
  obtain ⟨httpStatus', -, h⟩ := Eff.except_bind_eq_ok.1 h
  obtain ⟨hid, hfits⟩ := bindInt_eq_ok (sql_eq_ok hchain)
  rw [← hid] at hfits
  have hkey : NormalKey eth (chainId', normalized) := ⟨normalized_of_twice hlaw hfirst hsecond, hfits⟩
  dsimp only at h
  split at h
  · obtain ⟨logos, hlogos, h⟩ := Eff.except_bind_eq_ok.1 h
    cases h
    exact hstore.of_row? hkey (Table.row?_update (sql_eq_ok hlogos))
  · obtain ⟨logos, hlogos, h⟩ := Eff.except_bind_eq_ok.1 h
    cases h
    exact hstore.of_row? hkey (Table.row?_upsert (sql_eq_ok hlogos))

private theorem recordLogoFailure_normal {chainId : Int} {address outcome : String}
    {attemptedAt nextAttemptAt failureCount : Int} {httpStatus : Option Int} {errorCode : String}
    (hcanonical : ∃ raw, normalizeAddress eth raw = .ok address) (hstore : store.logos.Normal eth)
    (h : recordLogoFailure eth chainId address outcome attemptedAt nextAttemptAt failureCount httpStatus errorCode
      store = .ok store') : store'.logos.Normal eth := by
  obtain ⟨raw, hfirst⟩ := hcanonical
  unfold recordLogoFailure at h
  split at h
  · cases h
  obtain ⟨normalized, hsecond, h⟩ := Eff.except_bind_eq_ok.1 h
  obtain ⟨chainId', hchain, h⟩ := Eff.except_bind_eq_ok.1 h
  obtain ⟨attemptedAt', -, h⟩ := Eff.except_bind_eq_ok.1 h
  obtain ⟨nextAttemptAt', -, h⟩ := Eff.except_bind_eq_ok.1 h
  obtain ⟨failureCount', -, h⟩ := Eff.except_bind_eq_ok.1 h
  obtain ⟨httpStatus', -, h⟩ := Eff.except_bind_eq_ok.1 h
  obtain ⟨logos, hlogos, h⟩ := Eff.except_bind_eq_ok.1 h
  obtain ⟨hid, hfits⟩ := bindInt_eq_ok (sql_eq_ok hchain)
  rw [← hid] at hfits
  cases h
  have hkey : NormalKey eth (chainId', normalized) := ⟨normalized_of_twice hlaw hfirst hsecond, hfits⟩
  exact hstore.of_row? hkey (Table.row?_upsert (sql_eq_ok hlogos))

omit hlaw in
/-- The entries of a source change no identity of the table. -/
theorem replaceLogoSourceEntries_normal {source : String} {chainId : Int} {entries : List TokenLogoSourceEntry}
    {syncedAt : Int} {changed : Bool} (hstore : store.logos.Normal eth)
    (h : replaceLogoSourceEntries eth revision source chainId entries syncedAt store = .ok (store', changed)) :
    store'.logos.Normal eth := by
  obtain ⟨rows, -, h⟩ := Eff.except_bind_eq_ok.1 h
  obtain ⟨chainId', -, h⟩ := Eff.except_bind_eq_ok.1 h
  obtain ⟨syncedAt', -, h⟩ := Eff.except_bind_eq_ok.1 h
  obtain ⟨store₁, hstore₁, h⟩ := Eff.except_bind_eq_ok.1 h
  obtain ⟨sync, -, h⟩ := Eff.except_bind_eq_ok.1 h
  cases h
  show store₁.logos.Normal eth
  split at hstore₁
  · obtain ⟨entries', -, hstore₁⟩ := Eff.except_bind_eq_ok.1 hstore₁
    cases hstore₁
    intro key row hrow
    obtain ⟨stored, hstored, -⟩ := Option.map_eq_some_iff.1 hrow
    unfold dueWithoutImage at hstored
    rw [Dict.get?_mapValues] at hstored
    obtain ⟨before, hbefore, -⟩ := Option.map_eq_some_iff.1 hstored
    exact hstore key before.val (Option.map_eq_some_iff.2 ⟨before, hbefore, rfl⟩)
  · cases hstore₁
    exact hstore

/-- One call keeps every identity of the table normal. -/
theorem LogoStore.step_normal {op : LogoOp} (hcanonical : op.Canonical eth) (hstore : store.logos.Normal eth)
    (h : store.step eth revision op = some store') : store'.logos.Normal eth := by
  unfold step at h
  cases happly : store.apply eth revision op with
  | error exc =>
    rw [happly] at h
    cases h
    exact hstore
  | ok store₁ =>
    rw [happly] at h
    cases h
    cases op with
    | enrollObserved => exact enrollObserved_normal hlaw hcanonical hstore happly
    | enrollIdentities =>
      obtain ⟨⟨s, started⟩, hresult, rfl⟩ := Eff.except_map_eq_ok.1 happly
      exact enrollIdentities_normal hlaw hcanonical hstore hresult
    | recordSuccess => exact recordLogoSuccess_normal hlaw (hcanonical _ List.mem_cons_self) hstore happly
    | recordFailure => exact recordLogoFailure_normal hlaw (hcanonical _ List.mem_cons_self) hstore happly
    | replaceSourceEntries =>
      obtain ⟨⟨s, changed⟩, hresult, rfl⟩ := Eff.except_map_eq_ok.1 happly
      exact replaceLogoSourceEntries_normal hstore hresult

/-- In every run from an empty schema the table holds normal identities. -/
private theorem run_normal {ops : List LogoOp} (hcanonical : ∀ op ∈ ops, op.Canonical eth)
    (h : run (LogoStore.step eth revision) .empty ops = some store) : store.logos.Normal eth := by
  have hempty : LogoStore.empty.logos.Normal eth := by
    intro key row hrow
    cases hrow
  refine run_invariant_along (fun s op s' hs hop hstep => LogoStore.step_normal hlaw hop hs hstep) hempty ?_ h
  exact along_of_mem (fun op hop _ => hcanonical op hop) LogoStore.empty

end Identities

/-- What the queue says of a due identity. -/
structure DueTokenLogo.Valid (eth : EthUtils) (item : DueTokenLogo) : Prop where
  address : Normalized eth item.address
  chainId : -2 ^ 63 ≤ item.chainId ∧ item.chainId < 2 ^ 63
  failureCount : 0 ≤ item.failureCount

theorem getDueLogos_valid {eth : EthUtils} {store : LogoStore} (hnormal : store.logos.Normal eth) {nowMs : Int}
    {limit : Nat} {item : DueTokenLogo} (h : item ∈ getDueLogos store nowMs limit) : item.Valid eth := by
  unfold getDueLogos at h
  obtain ⟨⟨⟨next, key⟩, failureCount⟩, hrow, rfl⟩ := List.mem_map.1 h
  have hrow := List.mem_of_mem_take hrow
  rw [List.mem_mergeSort] at hrow
  obtain ⟨⟨key', row⟩, hitem, hrow⟩ := List.mem_filterMap.1 hrow
  have hget : store.logos.row? key' = some row.val :=
    Option.map_eq_some_iff.2 ⟨row, Dict.get?_eq_some.2 hitem, rfl⟩
  dsimp only at hrow
  split at hrow
  · split at hrow
    · cases hrow
      obtain ⟨haddress, hchain⟩ := hnormal key row.val hget
      exact ⟨haddress, hchain, row.property.failureCount⟩
    · cases hrow
  · cases hrow

/-! ### Recorded attempts -/

/-- The row is that of an attempt at the given time: nothing is scheduled after a success, and the next attempt is not
before this one after a failure. -/
def TokenLogo.Attempted (row : TokenLogo) (attemptedAt : Int) : Prop :=
  row.lastAttemptAt = some attemptedAt ∧
    (row.lastOutcome = some "success" ∧ row.nextAttemptAt = none ∨
      ∃ next, row.nextAttemptAt = some next ∧ attemptedAt ≤ next)

/-- The processing of an identity ends without an exception, with the attempt in the row of the identity. -/
def Recorded (item : DueTokenLogo) (attemptedAt : Int) (processed : Except Exn LogoStore) : Prop :=
  ∃ store row, processed = .ok store ∧ store.row? (item.chainId, item.address) = some row ∧ row.Attempted attemptedAt

/-- Nothing raises, a failure that is transient can be counted, and the last status is not beyond the five classes of
HTTP where it is the one that is recorded. -/
structure Recordable (acquirer : Acquirer) (item : DueTokenLogo) (attempts : List Attempt) : Prop where
  calm : ¬ AcquisitionRaises acquirer item.chainId item.address attempts
  count : AcquisitionTransient acquirer item.chainId item.address attempts → item.failureCount + 1 < 2 ^ 63
  status : ¬ AcquisitionSucceeds acquirer item.chainId item.address attempts →
    ¬ AcquisitionTransient acquirer item.chainId item.address attempts →
      ¬ LastRefused acquirer item.chainId item.address attempts

private theorem nowMs_mem (time : TimeNs) : -2 ^ 62 ≤ nowMs time ∧ nowMs time < 2 ^ 62 := by
  obtain ⟨n, hlow, hhigh⟩ := time
  unfold nowMs
  dsimp only
  omega

private theorem source_length {source : String} (h : source ∈ "override" :: logoSourceIds) :
    1 ≤ sqlLength source ∧ sqlLength source ≤ 64 := by
  have hall : ∀ source ∈ "override" :: logoSourceIds, 1 ≤ sqlLength source ∧ sqlLength source ≤ 64 := by decide +kernel
  exact hall source h

section Persist

variable {eth : EthUtils} {settings : LogoMaintenanceSettings} {rng : Rng} {item : DueTokenLogo} {store : LogoStore}

/-- A failure with this delay is recorded exactly if its count and its status are ones that the table takes. -/
private theorem recordLogoFailure_recorded_iff (hitem : item.Valid eth) {outcome : String}
    (houtcome : outcome ∈ ["unavailable", "transient"]) {delay failureCount : Int} (hdelay : 0 ≤ delay ∧ delay ≤ 2 ^ 41)
    (hcount : 0 ≤ failureCount) {result : AcquisitionResult} (hsound : result.Sound) (time : TimeNs) :
    Recorded item (nowMs time) (recordLogoFailure eth item.chainId item.address outcome (nowMs time)
        (nowMs time + delay) failureCount result.httpStatus (prefix64 result.errorCode) store) ↔
      failureCount < 2 ^ 63 ∧ ¬ ∃ status ∈ result.httpStatus, 599 < status := by
  have htime := nowMs_mem time
  have hcode : 1 ≤ sqlLength (prefix64 result.errorCode) ∧ sqlLength (prefix64 result.errorCode) ≤ 64 :=
    ⟨sqlLength_prefix64_pos hsound.errorCode, sqlLength_prefix64_le result.errorCode⟩
  have hiff : (∃ store', recordLogoFailure eth item.chainId item.address outcome (nowMs time) (nowMs time + delay)
      failureCount result.httpStatus (prefix64 result.errorCode) store = .ok store') ↔
      failureCount < 2 ^ 63 ∧ ∀ status ∈ result.httpStatus, status ≤ 599 :=
    recordLogoFailure_ok_iff hitem.address hitem.chainId houtcome (by omega) (by omega) hcount hsound.httpStatus hcode
  have hstatus : (¬ ∃ status ∈ result.httpStatus, 599 < status) ↔ ∀ status ∈ result.httpStatus, status ≤ 599 := by
    simp only [not_exists, not_and, not_lt]
  rw [hstatus, ← hiff]
  constructor
  · rintro ⟨store', row, h, -⟩
    exact ⟨store', h⟩
  · rintro ⟨store', h⟩
    obtain ⟨row, hrow, hattempt, hnext, -⟩ := recordLogoFailure_row hitem.address h
    exact ⟨store', row, h, hrow, hattempt, .inr ⟨_, hnext, by omega⟩⟩

/-- When the result of an acquisition is recorded. -/
private theorem persistResult_recorded_iff (hitem : item.Valid eth) {result : AcquisitionResult} (hsound : result.Sound)
    (time : TimeNs) :
    Recorded item (nowMs time) (persistResult eth settings rng item result (nowMs time) store) ↔
      (result.outcome = .transient → item.failureCount + 1 < 2 ^ 63) ∧
        (result.outcome = .unavailable → ¬ ∃ status ∈ result.httpStatus, 599 < status) := by
  unfold persistResult
  cases houtcome : result.outcome with
  | success =>
    obtain ⟨asset, source, hasset, hsource, hstorable, hmem⟩ := hsound.asset houtcome
    have htime := nowMs_mem time
    have hstatus : ∀ status ∈ result.httpStatus, 100 ≤ status ∧ status ≤ 599 := fun status h =>
      ⟨hsound.httpStatus status h, hsound.bounded (by rw [houtcome]; decide) status h⟩
    simp only [hasset, hsource]
    obtain ⟨store', row, h, hrow, hattempt, hnext, hsuccess⟩ :
        ∃ store' row, recordLogoSuccess eth item.chainId item.address asset.imageBytes asset.contentHash
            asset.mimeType source (nowMs time) result.httpStatus store = .ok store' ∧
          store'.row? (item.chainId, item.address) = some row ∧ row.lastAttemptAt = some (nowMs time) ∧
          row.nextAttemptAt = none ∧ row.lastOutcome = some "success" :=
      recordLogoSuccess_ok hitem.address hitem.chainId (by omega) hstorable.imageBytes hstorable.contentHash
        hstorable.mimeType (source_length hmem) hstatus
    exact iff_of_true ⟨store', row, h, hrow, hattempt, .inl ⟨hsuccess, hnext⟩⟩ ⟨nofun, nofun⟩
  | transient =>
    have hdelay := transientRetryDelayMs_mem settings rng (item.failureCount + 1) result.retryAfterMs
    have hcount := hitem.failureCount
    have hstatus : ¬ ∃ status ∈ result.httpStatus, 599 < status := by
      rintro ⟨status, h, hlarge⟩
      have := hsound.bounded (by rw [houtcome]; decide) status h
      omega
    refine (recordLogoFailure_recorded_iff hitem (by decide) (by omega) (by omega) hsound time).trans ?_
    exact ⟨fun h => ⟨fun _ => h.1, nofun⟩, fun h => ⟨h.1 rfl, hstatus⟩⟩
  | unavailable =>
    have hdelay := unavailableRetryDelayMs_mem settings rng
    refine (recordLogoFailure_recorded_iff hitem (by decide) hdelay (le_refl 0) hsound time).trans ?_
    exact ⟨fun h => ⟨nofun, fun _ => h.2⟩, fun h => ⟨by norm_num, h.2 rfl⟩⟩

/-- The attempt of a valid identity is recorded exactly if it is recordable. -/
private theorem processDue_recorded_iff (hitem : item.Valid eth) (acquirer : Acquirer) (attempts : List Attempt)
    (time : TimeNs) :
    Recorded item (nowMs time) (processDue eth settings rng acquirer item attempts time store) ↔
      Recordable acquirer item attempts := by
  have hspec := @acquire_spec acquirer item.chainId item.address eth hitem.address attempts
  unfold processDue
  cases hresult : acquire eth acquirer item.chainId item.address attempts with
  | error exc =>
    rw [hresult] at hspec
    refine iff_of_false ?_ fun h => h.calm hspec
    rintro ⟨store', row, h, -⟩
    cases h
  | ok result =>
    rw [hresult] at hspec
    obtain ⟨hcalm, hconcluded⟩ := hspec
    refine (persistResult_recorded_iff hitem hconcluded.sound time).trans ?_
    constructor
    · rintro ⟨hcount, hstatus⟩
      refine ⟨hcalm, fun h => hcount (hconcluded.transient.2 h), fun hfails hlasting hrefused => ?_⟩
      have hunavailable : result.outcome = .unavailable := by
        cases houtcome : result.outcome with
        | success => exact absurd (hconcluded.success.1 houtcome) hfails
        | transient => exact absurd (hconcluded.transient.1 houtcome) hlasting
        | unavailable => rfl
      exact hstatus hunavailable ((hconcluded.refused hunavailable).2 hrefused)
    · intro h
      refine ⟨fun houtcome => h.count (hconcluded.transient.1 houtcome), fun houtcome hlarge => ?_⟩
      have hfails : ¬ AcquisitionSucceeds acquirer item.chainId item.address attempts := by
        intro hacquired
        have := hconcluded.success.2 hacquired
        rw [houtcome] at this
        cases this
      have hlasting : ¬ AcquisitionTransient acquirer item.chainId item.address attempts := by
        intro htransient
        have := hconcluded.transient.2 htransient
        rw [houtcome] at this
        cases this
      exact h.status hfails hlasting ((hconcluded.refused houtcome).1 hlarge)

end Persist

/-- Let an identity be read from the queue of a table that the callers filled.  Whatever its candidates answer and
whatever the table has become, its attempt is recorded exactly if it is recordable. -/
theorem due_attempt_recorded_iff {eth : EthUtils} (hlaw : eth.Lawful) {revision : List (String × String) → String}
    {ops : List LogoOp} (hcanonical : ∀ op ∈ ops, op.Canonical eth) {queued : LogoStore}
    (hqueued : run (LogoStore.step eth revision) .empty ops = some queued) {polledAt : Int} {limit : Nat}
    {item : DueTokenLogo} (hitem : item ∈ getDueLogos queued polledAt limit) (settings : LogoMaintenanceSettings)
    (rng : Rng) (acquirer : Acquirer) (attempts : List Attempt) (time : TimeNs) (store : LogoStore) :
    Recorded item (nowMs time) (processDue eth settings rng acquirer item attempts time store) ↔
      Recordable acquirer item attempts := by
  have hvalid : item.Valid eth := getDueLogos_valid (run_normal hlaw hcanonical hqueued) hitem
  exact processDue_recorded_iff hvalid acquirer attempts time

namespace LogoExample

/-- No override, and an image library that reads no image. -/
def acquirer : Acquirer where
  allowsImageUrl := fun _ _ _ _ => true
  overrides := .empty
  library :=
    { openImage := fun _ => .error .unidentifiedImageError, verify := fun _ => .ok (), reopen := fun _ => .ok 1
      load := fun _ => .ok () }
  sha256 := fun _ => ⟨String.ofList (List.replicate 64 '0'), by decide +kernel⟩

def rng : Rng := ⟨fun a _ => a, fun a _ h => ⟨le_refl a, h⟩⟩

/-- One candidate that answers with a status and maybe a `Retry-After`. -/
def attempt (status : Nat) (retryAfter : Option String) (final : 200 ≤ status ∧ status ≤ 999) : Attempt where
  candidate := ⟨"smoldapp", "https://assets.smold.app/token.png"⟩
  answer := .ok
    { statusCode := status, header := fun name => if name = "retry-after" then retryAfter else none, chunks := []
      final }
  dates := ⟨fun _ => none, ⟨0, none, inCalendar_zero, nofun⟩⟩

def revision (_ : List (String × String)) : String := String.ofList (List.replicate 64 '0')

def enrolment : LogoOp := .enrollObserved 1 [Example.usdc]

def item : DueTokenLogo := ⟨1, Example.usdc, 0⟩

def time : TimeNs := ⟨10 ^ 18, by decide⟩

theorem enrolled : (run (LogoStore.step Example.eth revision) .empty [enrolment]).isSome := by decide +kernel

/-- The table after the enrolment. -/
def queued : LogoStore := (run (LogoStore.step Example.eth revision) .empty [enrolment]).get enrolled

private theorem queued_run : run (LogoStore.step Example.eth revision) .empty [enrolment] = some queued :=
  (Option.some_get enrolled).symm

private theorem item_due : getDueLogos queued 0 32 = [item] := by decide +kernel

theorem canonical : ∀ op ∈ [enrolment], op.Canonical Example.eth := by
  intro op hop address haddress
  obtain rfl : op = enrolment := List.mem_singleton.1 hop
  obtain rfl : address = Example.usdc := List.mem_singleton.1 haddress
  have h : normalizeAddress Example.eth Example.usdc = .ok Example.usdc := by decide +kernel
  exact ⟨Example.usdc, h⟩

def raised : Except Exn LogoStore → Option Exn
  | .ok _ => none
  | .error exc => some exc

private theorem not_recorded {attemptedAt : Int} {processed : Except Exn LogoStore} {exc : Exn}
    (h : raised processed = some exc) : ¬ Recorded item attemptedAt processed := by
  rintro ⟨store, row, rfl, -⟩
  cases h

private theorem recordable_not_found : Recordable acquirer item [attempt 404 none (by decide)] := by
  refine ⟨?_, fun _ => by decide, fun _ _ => ?_⟩
  · rintro (⟨imageBytes, name, h, -⟩ | ⟨-, ⟨-, h⟩ | ⟨-, h⟩⟩)
    · cases h
    · rcases h with ⟨h, -⟩ | ⟨⟨h, -⟩, -⟩
      · rcases h with h | h <;> cases h
      · cases h
    · exact h
  · rintro ⟨last, h, -, hlarge⟩
    obtain rfl : attempt 404 none (by decide) = last := Option.some.inj h
    have h : 599 < 404 := hlarge
    omega

end LogoExample

open LogoExample in
/-- A due identity whose attempt raises and is not recorded: a candidate answers with status 600, or with status 429 and
a digit for `Retry-After` that `int` does not read. -/
theorem due_attempt_lost :
    (∀ op ∈ [enrolment], op.Canonical Example.eth) ∧
      run (LogoStore.step Example.eth revision) .empty [enrolment] = some queued ∧
      item ∈ getDueLogos queued 0 32 ∧
      ¬ Recorded item (nowMs time)
        (processDue Example.eth {} rng acquirer item [attempt 600 none (by decide)] time queued) ∧
      ¬ Recorded item (nowMs time)
        (processDue Example.eth {} rng acquirer item [attempt 429 (some "²") (by decide)] time queued) := by
  have hrefused : raised (processDue Example.eth {} rng acquirer item [attempt 600 none (by decide)] time queued) =
      some (.other "IntegrityError") := by decide +kernel
  have hunreadable :
      raised (processDue Example.eth {} rng acquirer item [attempt 429 (some "²") (by decide)] time queued) =
        some (.valueError "invalid literal for int() with base 10") := by decide +kernel
  refine ⟨canonical, queued_run, ?_, not_recorded hrefused, not_recorded hunreadable⟩
  rw [item_due]
  exact List.mem_singleton_self item

open LogoExample in
/-- An attempt that ends with status 404 is recorded. -/
theorem due_attempt_recorded_not_found :
    Recorded item (nowMs time)
      (processDue Example.eth {} rng acquirer item [attempt 404 none (by decide)] time queued) := by
  have hitem : item ∈ getDueLogos queued 0 32 := by
    rw [item_due]
    exact List.mem_singleton_self item
  exact (due_attempt_recorded_iff Example.lawful canonical queued_run hitem {} rng acquirer
    [attempt 404 none (by decide)] time queued).2 recordable_not_found

end TokenPriceAgg

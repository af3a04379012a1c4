import TokenPriceAgg.Lib.PyText
import TokenPriceAgg.TokenMetadata.LogoStore

/-!
# The store of API keys

The operations of `ApiKeyStore` on the two tables `api_keys` and `api_key_rate_windows`.  Each is one transaction: it
returns its result with the store that is committed, or raises and leaves the store as it is.  The hash of a secret is a
parameter, and the random texts of a new key are part of the input.

`parseKey_eq_some` says which keys are read, `authenticateKey_success` which of them are accepted.
-/

namespace TokenPriceAgg

open PyLib

/-! ### Data -/

/-- `int(time.time())`: the clock counts nanoseconds in 64 bits, so its seconds stay far from the bounds of an integer of
SQLite. -/
abbrev Timestamp := {n : Int // -2 ^ 62 ≤ n ∧ n < 2 ^ 62}

/-- `_hash_secret(public_id, secret)`; comparing digests is equality. -/
abbrev SecretHash := String → String → String

inductive AuthFailureReason
  | missingAuthorization
  | invalidAuthorization
  | invalidKey
  | revoked
  | expired
deriving DecidableEq

/-- `AuthResult`; it is authenticated exactly in the first case. -/
inductive AuthResult
  | success (publicId label : String) (rateLimitRpm : Option Int)
  | failure (reason : AuthFailureReason)
deriving DecidableEq

structure RateLimitResult where
  allowed : Bool
  limit : Int
  remaining : Int
  resetEpoch : Int
  retryAfterSeconds : Int
  requestCount : Int
deriving DecidableEq

inductive DeleteStatus
  | deleted
  | alreadyDeleted
  | notFound
deriving DecidableEq

structure DeleteResult where
  status : DeleteStatus
  publicId : String
  revokedAt : Option Int := none
  revokedReason : Option String := none
deriving DecidableEq

structure ApiKeyIssueResult where
  publicId : String
  label : String
  key : String
  keyPrefix : String
  createdAt : Int
deriving DecidableEq

/-- A row of `api_keys`. -/
structure ApiKeyRow where
  label : String
  secretHash : String
  keyPrefix : String
  createdAt : Int
  rateLimitRpm : Option Int := none
  lastUsedAt : Option Int := none
  revokedAt : Option Int := none
  revokedReason : Option String := none
  expiresAt : Option Int := none
deriving DecidableEq

/-- `ApiKeyRecord`. -/
structure ApiKeyRecord where
  publicId : String
  label : String
  keyPrefix : String
  createdAt : Int
  rateLimitRpm : Option Int
  lastUsedAt : Option Int
  revokedAt : Option Int
  revokedReason : Option String
  expiresAt : Option Int
deriving DecidableEq

structure ApiKeyStore where
  /-- `api_keys` by `public_id` -/
  keys : Dict String ApiKeyRow
  /-- `api_key_rate_windows`: the count by `public_id` and start -/
  windows : Dict (String × Int) Int
  nextRateWindowCleanupTs : Int

/-- The store of a new database. -/
def ApiKeyStore.empty : ApiKeyStore := ⟨.empty, .empty, 0⟩

/-! ### Keys -/

/-- `_KEY_PREFIX`. -/
def apiKeyPrefix : String := "tpa_live_"

/-- `_PUBLIC_ID_PATTERN`, on the whole text. -/
def isPublicId (text : List Char) : Bool :=
  text.length = 16 && text.all fun c => ('a' ≤ c && c ≤ 'f') || ('0' ≤ c && c ≤ '9')

/-- What `secrets` generates for a key: sixteen hexadecimal digits, and a text over the URL-safe alphabet. -/
structure KeyMaterial where
  publicId : String
  secret : String
  hex : isPublicId publicId.toList
  secret_ne : secret ≠ ""
  secret_urlsafe : ∀ c ∈ secret.toList, c.isAlphanum ∨ c = '_' ∨ c = '-'

def KeyMaterial.rawKey (material : KeyMaterial) : String :=
  apiKeyPrefix ++ material.publicId ++ "." ++ material.secret

/-- `_parse_key`: the identifier and the secret of a key. -/
def parseKey (key : String) : Option (String × String) :=
  if !apiKeyPrefix.toList.isPrefixOf key.toList then none
  else
    let raw := key.toList.drop apiKeyPrefix.length
    if '.' ∉ raw then none
    else
      let publicId := raw.takeWhile (· ≠ '.')
      let secret := (raw.dropWhile (· ≠ '.')).drop 1
      if publicId = [] ∨ secret = [] then none
      else if !isPublicId publicId then none
      else some (String.ofList publicId, String.ofList secret)

private theorem not_dot_of_isPublicId {publicId : List Char} (h : isPublicId publicId) : '.' ∉ publicId := by
  intro hdot
  unfold isPublicId at h
  rw [Bool.and_eq_true, List.all_eq_true] at h
  have := h.2 '.' hdot
  revert this
  decide

/-- A text with a dot is what stands before the first one, the dot, and the rest. -/
private theorem append_dot {raw : List Char} (h : '.' ∈ raw) :
    raw = raw.takeWhile (· ≠ '.') ++ '.' :: (raw.dropWhile (· ≠ '.')).drop 1 := by
  conv_lhs => rw [← List.takeWhile_append_dropWhile (p := (· ≠ '.')) (l := raw)]
  congr 1
  cases hdrop : raw.dropWhile (· ≠ '.') with
  | nil =>
    have hall : ∀ c ∈ raw, c ≠ '.' := by
      intro c hc
      rw [← List.takeWhile_append_dropWhile (p := (· ≠ '.')) (l := raw), hdrop, List.append_nil] at hc
      simpa using List.all_eq_true.1 List.all_takeWhile c hc
    exact absurd rfl (hall '.' h)
  | cons c rest =>
    have hnot := List.head?_dropWhile_not (· ≠ '.') raw
    rw [hdrop] at hnot
    have hc : c = '.' := by simpa using hnot
    rw [hc]
    rfl

private theorem takeWhile_dot {k rest : List Char} (h : '.' ∉ k) : (k ++ '.' :: rest).takeWhile (· ≠ '.') = k := by
  rw [List.takeWhile_append_of_pos fun c hc => by simpa using fun (e : c = '.') => h (e ▸ hc)]
  simp

private theorem dropWhile_dot {k rest : List Char} (h : '.' ∉ k) :
    (k ++ '.' :: rest).dropWhile (· ≠ '.') = '.' :: rest := by
  rw [List.dropWhile_append_of_pos fun c hc => by simpa using fun (e : c = '.') => h (e ▸ hc)]
  simp

/-- The keys that are read: the prefix, an identifier, a dot and a secret. -/
theorem parseKey_eq_some {key publicId secret : String} :
    parseKey key = some (publicId, secret) ↔
      key = apiKeyPrefix ++ publicId ++ "." ++ secret ∧ isPublicId publicId.toList ∧ secret ≠ "" := by
  have hprefix : apiKeyPrefix.length = apiKeyPrefix.toList.length := String.length_toList.symm
  have hdot : ".".toList = ['.'] := by decide
  constructor
  · intro h
    unfold parseKey at h
    split at h
    · cases h
    · rename_i hp
      have hp : apiKeyPrefix.toList <+: key.toList := by simpa using hp
      obtain ⟨raw, hraw⟩ := hp
      have hdrop : key.toList.drop apiKeyPrefix.length = raw := by
        rw [← hraw, hprefix, List.drop_left]
      rw [hdrop] at h
      dsimp only at h
      split at h
      · cases h
      · rename_i hmem
        split at h
        · cases h
        · rename_i hne
          split at h
          · cases h
          · rename_i hid
            obtain ⟨rfl, rfl⟩ := Prod.mk.inj (Option.some.inj h)
            have hsplit := append_dot (not_not.1 hmem)
            refine ⟨?_, ?_, ?_⟩
            · apply String.toList_inj.1
              simp only [String.toList_append, String.toList_ofList, hdot, List.append_assoc, List.singleton_append]
              rw [← hsplit, hraw]
            · rw [String.toList_ofList]
              simpa using hid
            · intro hempty
              apply hne
              right
              have := congrArg String.toList hempty
              rwa [String.toList_ofList] at this
  · rintro ⟨rfl, hid, hsecret⟩
    have hnodot := not_dot_of_isPublicId hid
    have htext : (apiKeyPrefix ++ publicId ++ "." ++ secret).toList =
        apiKeyPrefix.toList ++ (publicId.toList ++ '.' :: secret.toList) := by
      simp only [String.toList_append, hdot, List.append_assoc, List.singleton_append]
    have hpublic : publicId.toList ≠ [] := by
      intro hnil
      rw [hnil] at hid
      revert hid
      decide
    have hsecret : secret.toList ≠ [] := fun hnil => hsecret (String.toList_eq_nil_iff.1 hnil)
    unfold parseKey
    rw [htext, hprefix, List.drop_left]
    dsimp only
    rw [takeWhile_dot hnodot, dropWhile_dot hnodot]
    simp [hid, hpublic, hsecret, String.ofList_toList]

theorem parseKey_rawKey (material : KeyMaterial) :
    parseKey material.rawKey = some (material.publicId, material.secret) :=
  parseKey_eq_some.2 ⟨rfl, material.hex, material.secret_ne⟩

def normalizeLabel (label : String) : Except Exn String :=
  let normalized := strip label.toList
  if normalized = [] then .error (.valueError "label must be non-empty") else .ok (String.ofList normalized)

def normalizeReason (reason : Option String) : Option String :=
  (reason.map fun reason => strip reason.toList).bind fun stripped =>
    if stripped = [] then none else some (String.ofList stripped)

/-! ### Operations -/

section Operations

variable (hash : SecretHash)

def issueKey (material : KeyMaterial) (label : String) (now : Timestamp) (store : ApiKeyStore) :
    Except Exn (ApiKeyIssueResult × ApiKeyStore) := do
  let label ← normalizeLabel label
  let keyPrefix := apiKeyPrefix ++ material.publicId ++ "."
  match store.keys.get? material.publicId with
  | some _ => .error (.other "IntegrityError")
  | none =>
    let row : ApiKeyRow :=
      { label, secretHash := hash material.publicId material.secret, keyPrefix, createdAt := now.val }
    pure ({ publicId := material.publicId, label, key := material.rawKey, keyPrefix, createdAt := now.val },
      { store with keys := store.keys.set material.publicId row })

/-- `_auth_row_failure_reason`. -/
def authRowFailureReason (row : ApiKeyRow) (now : Int) (publicId secret : String) : Option AuthFailureReason :=
  if row.revokedAt.isSome then some .revoked
  else if row.expiresAt.any (· ≤ now) then some .expired
  else if row.secretHash ≠ hash publicId secret then some .invalidKey
  else none

def authenticateKey (key : String) (now : Timestamp) (store : ApiKeyStore) : AuthResult × ApiKeyStore :=
  match parseKey key with
  | none => (.failure .invalidKey, store)
  | some (publicId, secret) =>
    match store.keys.get? publicId with
    | none => (.failure .invalidKey, store)
    | some row =>
      match authRowFailureReason hash row now.val publicId secret with
      | some reason => (.failure reason, store)
      | none =>
        (.success publicId row.label row.rateLimitRpm,
          { store with keys := store.keys.set publicId { row with lastUsedAt := some now.val } })

def apiKeyRecordFromRow (publicId : String) (row : ApiKeyRow) : ApiKeyRecord :=
  { row with publicId, revokedReason := row.revokedReason.filter (· ≠ "") }

/-- The order of the listing: the newest first, then by identifier. -/
def listedBefore (a b : ApiKeyRecord) : Bool :=
  b.createdAt < a.createdAt || a.createdAt = b.createdAt && a.publicId ≤ b.publicId

def listKeys (includeRevoked : Bool) (store : ApiKeyStore) : List ApiKeyRecord :=
  let rows := store.keys.items.filter fun (_, row) => includeRevoked || row.revokedAt.isNone
  (rows.map fun (publicId, row) => apiKeyRecordFromRow publicId row).mergeSort listedBefore

def deleteKey (publicId : String) (reason : Option String) (now : Timestamp) (store : ApiKeyStore) :
    DeleteResult × ApiKeyStore :=
  let normalizedReason := normalizeReason reason
  match store.keys.get? publicId with
  | none => ({ status := .notFound, publicId }, store)
  | some row =>
    match row.revokedAt with
    | some revokedAt =>
      ({ status := .alreadyDeleted, publicId, revokedAt := some revokedAt
         revokedReason := row.revokedReason.filter (· ≠ "") }, store)
    | none =>
      ({ status := .deleted, publicId, revokedAt := some now.val, revokedReason := normalizedReason },
        { store with
          keys := store.keys.set publicId { row with revokedAt := some now.val, revokedReason := normalizedReason } })

/-- Returns whether there is a row with the identifier. -/
def setKeyRateLimit (publicId : String) (rateLimitRpm : Int) (store : ApiKeyStore) :
    Except Exn (Bool × ApiKeyStore) :=
  if rateLimitRpm ≤ 0 then .error (.valueError "rate_limit_rpm must be > 0")
  else do
    let rateLimitRpm ← sql (bindInt rateLimitRpm)
    match store.keys.get? publicId with
    | none => pure (false, store)
    | some row =>
      pure (true, { store with keys := store.keys.set publicId { row with rateLimitRpm := some rateLimitRpm } })

/-- `_DEFAULT_RATE_WINDOW_SECONDS`. -/
def rateWindowSeconds : Int := 60

/-- The time for which the windows are kept. -/
def rateLimitRetentionSeconds : Int := 120 * rateWindowSeconds

def rateLimitCleanupIntervalSeconds : Int := 30

/-- `_rate_window_for_now`: the start, the reset and the delay to it. -/
def rateWindowForNow (now : Int) : Int × Int × Int :=
  let windowStart := now - now % rateWindowSeconds
  let resetEpoch := windowStart + rateWindowSeconds
  (windowStart, resetEpoch, max (resetEpoch - now) 0)

/-- The windows and the time of the next clean-up. -/
def cleanupRateWindowsIfDue (windows : Dict (String × Int) Int) (now windowStart nextCleanupTs : Int) :
    Dict (String × Int) Int × Int :=
  if now < nextCleanupTs then (windows, nextCleanupTs)
  else
    let cutoff := windowStart - rateLimitRetentionSeconds
    (windows.filter fun window => ¬ window.1.2 < cutoff, now + rateLimitCleanupIntervalSeconds)

def consumeRateLimit (publicId : String) (limitRpm : Int) (now : Timestamp) (store : ApiKeyStore) :
    Except Exn (RateLimitResult × ApiKeyStore) :=
  if limitRpm ≤ 0 then .error (.valueError "limit_rpm must be > 0")
  else
    let (windowStart, resetEpoch, retryAfter) := rateWindowForNow now.val
    let requestCount := store.windows.getD (publicId, windowStart) 0 + 1
    let windows := store.windows.set (publicId, windowStart) requestCount
    let (windows, nextCleanupTs) :=
      cleanupRateWindowsIfDue windows now.val windowStart store.nextRateWindowCleanupTs
    .ok ({ allowed := requestCount ≤ limitRpm, limit := limitRpm, remaining := max (limitRpm - requestCount) 0
           resetEpoch, retryAfterSeconds := retryAfter, requestCount },
      { store with windows, nextRateWindowCleanupTs := nextCleanupTs })

/-! ### What is accepted -/

/-- The row lets a secret in at a time. -/
structure ApiKeyRow.Accepts (row : ApiKeyRow) (publicId secret : String) (now : Int) : Prop where
  notRevoked : row.revokedAt = none
  notExpired : ∀ expiresAt ∈ row.expiresAt, now < expiresAt
  secretHash : row.secretHash = hash publicId secret

variable {hash}

private theorem authRowFailureReason_eq_none {row : ApiKeyRow} {now : Int} {publicId secret : String} :
    authRowFailureReason hash row now publicId secret = none ↔ row.Accepts hash publicId secret now := by
  unfold authRowFailureReason
  by_cases hrevoked : row.revokedAt.isSome
  · rw [if_pos hrevoked]
    refine iff_of_false nofun fun h => ?_
    rw [h.notRevoked] at hrevoked
    cases hrevoked
  · rw [if_neg hrevoked]
    by_cases hexpired : row.expiresAt.any (· ≤ now)
    · rw [if_pos hexpired]
      refine iff_of_false nofun fun h => ?_
      obtain ⟨expiresAt, hmem, hle⟩ := (Option.any_eq_true _ _).1 hexpired
      have hlt := h.notExpired expiresAt hmem
      have hle : expiresAt ≤ now := by simpa using hle
      omega
    · rw [if_neg hexpired]
      by_cases hhash : row.secretHash ≠ hash publicId secret
      · rw [if_pos hhash]
        exact iff_of_false nofun fun h => hhash h.secretHash
      · rw [if_neg hhash]
        refine iff_of_true rfl ⟨by simpa using hrevoked, fun expiresAt hmem => ?_, not_not.1 hhash⟩
        by_contra hle
        exact hexpired ((Option.any_eq_true _ _).2 ⟨expiresAt, hmem, by simpa using hle⟩)

/-- The outcomes of an authentication. -/
theorem authenticateKey_cases (key : String) (now : Timestamp) (store : ApiKeyStore) :
    (∃ publicId secret row, parseKey key = some (publicId, secret) ∧ store.keys.get? publicId = some row ∧
        row.Accepts hash publicId secret now.val ∧
        authenticateKey hash key now store = (.success publicId row.label row.rateLimitRpm,
          { store with keys := store.keys.set publicId { row with lastUsedAt := some now.val } })) ∨
      (∃ reason, reason ≠ .missingAuthorization ∧ authenticateKey hash key now store = (.failure reason, store)) ∧
        ∀ publicId secret row, parseKey key = some (publicId, secret) → store.keys.get? publicId = some row →
          ¬ row.Accepts hash publicId secret now.val := by
  unfold authenticateKey
  cases hparse : parseKey key with
  | none =>
    refine .inr ⟨⟨.invalidKey, nofun, rfl⟩, ?_⟩
    intro publicId secret row hparse'
    cases hparse'
  | some parsed =>
    obtain ⟨publicId, secret⟩ := parsed
    dsimp only
    cases hrow : store.keys.get? publicId with
    | none =>
      refine .inr ⟨⟨.invalidKey, nofun, rfl⟩, ?_⟩
      rintro publicId' secret' row ⟨⟩ hrow'
      rw [hrow] at hrow'
      cases hrow'
    | some row =>
      dsimp only
      cases hreason : authRowFailureReason hash row now.val publicId secret with
      | none => exact .inl ⟨publicId, secret, row, rfl, hrow, authRowFailureReason_eq_none.1 hreason, rfl⟩
      | some reason =>
        refine .inr ⟨⟨reason, ?_, rfl⟩, ?_⟩
        · rintro rfl
          revert hreason
          unfold authRowFailureReason
          split
          · nofun
          · split
            · nofun
            · split <;> nofun
        · rintro publicId' secret' row' ⟨⟩ hrow' haccepts
          rw [hrow] at hrow'
          cases hrow'
          rw [authRowFailureReason_eq_none.2 haccepts] at hreason
          cases hreason

/-- A key is accepted for an identifier exactly if it names that identifier and its row lets its secret in. -/
theorem authenticateKey_success {key : String} {now : Timestamp} {store : ApiKeyStore} {publicId label : String}
    {limit : Option Int} :
    (authenticateKey hash key now store).1 = .success publicId label limit ↔
      ∃ secret row, parseKey key = some (publicId, secret) ∧ store.keys.get? publicId = some row ∧
        row.Accepts hash publicId secret now.val ∧ label = row.label ∧ limit = row.rateLimitRpm := by
  rcases @authenticateKey_cases hash key now store with
    ⟨k, secret, row, hparse, hrow, haccepts, h⟩ | ⟨⟨reason, -, h⟩, hnone⟩
  · rw [h]
    constructor
    · intro hsuccess
      cases hsuccess
      exact ⟨secret, row, hparse, hrow, haccepts, rfl, rfl⟩
    · rintro ⟨secret', row', hparse', hrow', -, rfl, rfl⟩
      rw [hparse] at hparse'
      cases hparse'
      rw [hrow] at hrow'
      cases hrow'
      rfl
  · rw [h]
    refine iff_of_false nofun ?_
    rintro ⟨secret, row, hparse, hrow, haccepts, -⟩
    exact hnone publicId secret row hparse hrow haccepts

theorem authenticateKey_ne_missing (key : String) (now : Timestamp) (store : ApiKeyStore) :
    (authenticateKey hash key now store).1 ≠ .failure .missingAuthorization := by
  rcases @authenticateKey_cases hash key now store with ⟨_, _, _, -, -, -, h⟩ | ⟨⟨reason, hreason, h⟩, -⟩
  · rw [h]
    nofun
  · rw [h]
    rintro ⟨⟩
    exact hreason rfl

end Operations

end TokenPriceAgg

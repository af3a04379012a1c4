import TokenPriceAgg.Lib.Runs
import TokenPriceAgg.Security.ApiKeyStore

/-!
# The life cycle of API keys

Runs of the operations of the key store.  A run is seen from outside: `history` is the list of its calls with their
replies, and `Deleted` and `latestLimit` are read off it.

`KeyEffect` says once what a call can do to the row of an identifier; `row_of_history` follows a row through a run.
-/

namespace TokenPriceAgg

open PyLib

/-! ### Calls and replies -/

inductive KeyOp
  | issueKey (material : KeyMaterial) (label : String) (now : Timestamp)
  | authenticateKey (key : String) (now : Timestamp)
  | deleteKey (publicId : String) (reason : Option String) (now : Timestamp)
  | setKeyRateLimit (publicId : String) (rateLimitRpm : Int)
  | consumeRateLimit (publicId : String) (limitRpm : Int) (now : Timestamp)
  | listKeys (includeRevoked : Bool)

inductive KeyReply
  | issued (result : ApiKeyIssueResult)
  | authenticated (result : AuthResult)
  | deleted (result : DeleteResult)
  | limitSet (updated : Bool)
  | consumed (result : RateLimitResult)
  | listed (records : List ApiKeyRecord)

/-- The identifier that a call is about. -/
def KeyOp.subject : KeyOp → Option String
  | .issueKey material _ _ => some material.publicId
  | .authenticateKey key _ => (parseKey key).map Prod.fst
  | .deleteKey publicId _ _ => some publicId
  | .setKeyRateLimit publicId _ => some publicId
  | .consumeRateLimit publicId _ _ => some publicId
  | .listKeys _ => none

namespace ApiKeyStore

variable (hash : SecretHash)

def call (store : ApiKeyStore) : KeyOp → Except Exn (KeyReply × ApiKeyStore)
  | .issueKey material label now =>
    (TokenPriceAgg.issueKey hash material label now store).map fun (result, store) => (.issued result, store)
  | .authenticateKey key now =>
    let (result, store) := TokenPriceAgg.authenticateKey hash key now store
    .ok (.authenticated result, store)
  | .deleteKey publicId reason now =>
    let (result, store) := TokenPriceAgg.deleteKey publicId reason now store
    .ok (.deleted result, store)
  | .setKeyRateLimit publicId rateLimitRpm =>
    (TokenPriceAgg.setKeyRateLimit publicId rateLimitRpm store).map fun (updated, store) => (.limitSet updated, store)
  | .consumeRateLimit publicId limitRpm now =>
    (TokenPriceAgg.consumeRateLimit publicId limitRpm now store).map fun (result, store) => (.consumed result, store)
  | .listKeys includeRevoked => .ok (.listed (TokenPriceAgg.listKeys includeRevoked store), store)

def reply (store : ApiKeyStore) (op : KeyOp) : Except Exn KeyReply := (store.call hash op).map Prod.fst

/-- The store after a call; a call that raises leaves it as it is. -/
def next (store : ApiKeyStore) (op : KeyOp) : ApiKeyStore :=
  match store.call hash op with
  | .ok (_, store') => store'
  | .error _ => store

def step (store : ApiKeyStore) (op : KeyOp) : Option ApiKeyStore := some (store.next hash op)

/-- The calls of a run with their replies. -/
def history : ApiKeyStore → List KeyOp → List (KeyOp × Except Exn KeyReply)
  | _, [] => []
  | store, op :: ops => (op, store.reply hash op) :: history (store.next hash op) ops

end ApiKeyStore

/-- The call returned `DELETED` for the identifier. -/
def deletes (publicId : String) : KeyOp × Except Exn KeyReply → Bool
  | (.deleteKey publicId' _ _, .ok (.deleted result)) => publicId' = publicId && result.status = .deleted
  | _ => false

/-- The limit that the call set for the identifier. -/
def limitSetBy (publicId : String) : KeyOp × Except Exn KeyReply → Option Int
  | (.setKeyRateLimit publicId' rateLimitRpm, .ok (.limitSet true)) =>
    if publicId' = publicId then some rateLimitRpm else none
  | _ => none

def Deleted (publicId : String) (history : List (KeyOp × Except Exn KeyReply)) : Prop :=
  ∃ event ∈ history, deletes publicId event

def latestLimit (publicId : String) (history : List (KeyOp × Except Exn KeyReply)) : Option Int :=
  (history.filterMap (limitSetBy publicId)).getLast?

/-! ### The effect of a call on a row -/

/-- What a call with its reply can do to the row of an identifier. -/
inductive KeyEffect (hash : SecretHash) (publicId : String) :
    KeyOp × Except Exn KeyReply → Option ApiKeyRow → Option ApiKeyRow → Prop
  | kept (event : KeyOp × Except Exn KeyReply) (row : Option ApiKeyRow) (undeleted : deletes publicId event = false)
      (unlimited : limitSetBy publicId event = none) : KeyEffect hash publicId event row row
  | issued (material : KeyMaterial) (label keyPrefix : String) (now : Timestamp) (reply : Except Exn KeyReply)
      (subject : material.publicId = publicId) :
      KeyEffect hash publicId (.issueKey material label now, reply) none
        (some { label := String.ofList (strip label.toList), secretHash := hash publicId material.secret
                keyPrefix, createdAt := now.val })
  | touched (key secret : String) (now : Timestamp) (row : ApiKeyRow) (reply : Except Exn KeyReply)
      (subject : parseKey key = some (publicId, secret)) :
      KeyEffect hash publicId (.authenticateKey key now, reply) (some row)
        (some { row with lastUsedAt := some now.val })
  | limited (rateLimitRpm : Int) (row : ApiKeyRow) :
      KeyEffect hash publicId (.setKeyRateLimit publicId rateLimitRpm, .ok (.limitSet true)) (some row)
        (some { row with rateLimitRpm := some rateLimitRpm })
  | revoked (reason : Option String) (now : Timestamp) (row : ApiKeyRow) (result : DeleteResult)
      (unrevoked : row.revokedAt = none) (status : result.status = .deleted) :
      KeyEffect hash publicId (.deleteKey publicId reason now, .ok (.deleted result)) (some row)
        (some { row with revokedAt := some now.val, revokedReason := normalizeReason reason })

section Effects

variable {hash : SecretHash} {store : ApiKeyStore}

private theorem normalizeLabel_eq_ok {label normalized : String} (h : normalizeLabel label = .ok normalized) :
    normalized = String.ofList (strip label.toList) := by
  unfold normalizeLabel at h
  dsimp only at h
  split at h
  · cases h
  · exact (Except.ok.inj h).symm

private theorem issueKey_effect {material : KeyMaterial} {label : String} {now : Timestamp} {result : ApiKeyIssueResult}
    {store' : ApiKeyStore} (h : issueKey hash material label now store = .ok (result, store')) (publicId : String)
    (reply : Except Exn KeyReply) :
    KeyEffect hash publicId (.issueKey material label now, reply) (store.keys.get? publicId)
      (store'.keys.get? publicId) := by
  obtain ⟨normalized, hlabel, h⟩ := Eff.except_bind_eq_ok.1 h
  dsimp only at h
  split at h
  · cases h
  · rename_i hnew
    cases h
    show KeyEffect hash publicId _ _ ((store.keys.set material.publicId _).get? publicId)
    rw [Dict.get?_set]
    by_cases hid : publicId = material.publicId
    · rw [if_pos hid, hid, hnew, normalizeLabel_eq_ok hlabel]
      exact .issued material label _ now reply rfl
    · rw [if_neg hid]
      exact .kept _ _ rfl rfl

private theorem authenticateKey_effect
    (key : String) (now : Timestamp) (publicId : String) (reply : Except Exn KeyReply) :
    KeyEffect hash publicId (.authenticateKey key now, reply) (store.keys.get? publicId)
      ((authenticateKey hash key now store).2.keys.get? publicId) := by
  rcases @authenticateKey_cases hash key now store with ⟨k, secret, row, hparse, hrow, -, h⟩ | ⟨⟨reason, -, h⟩, -⟩
  · rw [h]
    show KeyEffect hash publicId _ _ ((store.keys.set k _).get? publicId)
    rw [Dict.get?_set]
    by_cases hid : publicId = k
    · subst hid
      rw [if_pos rfl, hrow]
      exact .touched key secret now row reply hparse
    · rw [if_neg hid]
      exact .kept _ _ rfl rfl
  · rw [h]
    exact .kept _ _ rfl rfl

private theorem deleteKey_effect (k : String) (reason : Option String) (now : Timestamp) (publicId : String) :
    KeyEffect hash publicId (.deleteKey k reason now, .ok (.deleted (deleteKey k reason now store).1))
      (store.keys.get? publicId) ((deleteKey k reason now store).2.keys.get? publicId) := by
  unfold deleteKey
  cases hrow : store.keys.get? k with
  | none => exact .kept _ _ (by simp [deletes]) rfl
  | some row =>
    dsimp only
    cases hrevoked : row.revokedAt with
    | some revokedAt => exact .kept _ _ (by simp [deletes]) rfl
    | none =>
      show KeyEffect hash publicId _ _ ((store.keys.set k _).get? publicId)
      rw [Dict.get?_set]
      by_cases hid : publicId = k
      · subst hid
        rw [if_pos rfl, hrow]
        exact .revoked reason now row _ hrevoked rfl
      · rw [if_neg hid]
        refine .kept _ _ ?_ rfl
        simp [deletes, Ne.symm hid]

private theorem setKeyRateLimit_effect {k : String} {rateLimitRpm : Int} {updated : Bool} {store' : ApiKeyStore}
    (h : setKeyRateLimit k rateLimitRpm store = .ok (updated, store')) (publicId : String) :
    KeyEffect hash publicId (.setKeyRateLimit k rateLimitRpm, .ok (.limitSet updated)) (store.keys.get? publicId)
      (store'.keys.get? publicId) := by
  unfold setKeyRateLimit at h
  split at h
  · cases h
  · obtain ⟨bound, hbound, h⟩ := Eff.except_bind_eq_ok.1 h
    have hbound : bound = rateLimitRpm := (bindInt_eq_ok (sql_eq_ok hbound)).1
    cases hrow : store.keys.get? k with
    | none =>
      rw [hrow] at h
      cases h
      exact .kept _ _ rfl rfl
    | some row =>
      rw [hrow] at h
      cases h
      show KeyEffect hash publicId _ _ ((store.keys.set k _).get? publicId)
      rw [Dict.get?_set]
      by_cases hid : publicId = k
      · subst hid
        rw [if_pos rfl, hrow, hbound]
        exact .limited rateLimitRpm row
      · rw [if_neg hid]
        refine .kept _ _ rfl ?_
        simp [limitSetBy, Ne.symm hid]

private theorem consumeRateLimit_keys {k : String} {limitRpm : Int} {now : Timestamp} {result : RateLimitResult}
    {store' : ApiKeyStore} (h : consumeRateLimit k limitRpm now store = .ok (result, store')) :
    store'.keys = store.keys := by
  unfold consumeRateLimit at h
  split at h
  · cases h
  · cases h
    rfl

namespace ApiKeyStore

private theorem reply_of_ok {op : KeyOp} {reply : KeyReply} {store' : ApiKeyStore}
    (h : store.call hash op = .ok (reply, store')) : store.reply hash op = .ok reply := by
  unfold ApiKeyStore.reply
  rw [h]
  rfl

theorem next_of_ok {op : KeyOp} {reply : KeyReply} {store' : ApiKeyStore}
    (h : store.call hash op = .ok (reply, store')) : store.next hash op = store' := by
  unfold next
  rw [h]

theorem next_of_error {op : KeyOp} {exc : Exn} (h : store.call hash op = .error exc) : store.next hash op = store := by
  unfold next
  rw [h]

private theorem reply_of_error {op : KeyOp} {exc : Exn} (h : store.call hash op = .error exc) :
    store.reply hash op = .error exc := by
  unfold ApiKeyStore.reply
  rw [h]
  rfl

/-- What a call does to the row of an identifier. -/
theorem next_effect (store : ApiKeyStore) (op : KeyOp) (publicId : String) :
    KeyEffect hash publicId (op, store.reply hash op) (store.keys.get? publicId)
      ((store.next hash op).keys.get? publicId) := by
  cases hcall : store.call hash op with
  | error exc =>
    rw [next_of_error hcall, reply_of_error hcall]
    refine .kept _ _ ?_ ?_
    · cases op <;> rfl
    · cases op <;> rfl
  | ok pair =>
    obtain ⟨answer, store'⟩ := pair
    rw [next_of_ok hcall, reply_of_ok hcall]
    cases op with
    | issueKey material label now =>
      obtain ⟨⟨result, _⟩, h, hpair⟩ := Eff.except_map_eq_ok.1 hcall
      cases hpair
      exact issueKey_effect h publicId _
    | authenticateKey key now =>
      cases hcall
      exact authenticateKey_effect key now publicId _
    | deleteKey k reason now =>
      cases hcall
      exact deleteKey_effect k reason now publicId
    | setKeyRateLimit k rateLimitRpm =>
      obtain ⟨⟨updated, _⟩, h, hpair⟩ := Eff.except_map_eq_ok.1 hcall
      cases hpair
      exact setKeyRateLimit_effect h publicId
    | consumeRateLimit k limitRpm now =>
      obtain ⟨⟨result, _⟩, h, hpair⟩ := Eff.except_map_eq_ok.1 hcall
      cases hpair
      rw [consumeRateLimit_keys h]
      exact .kept _ _ rfl rfl
    | listKeys includeRevoked =>
      cases hcall
      exact .kept _ _ rfl rfl

end ApiKeyStore

end Effects

/-! ### Histories -/

section Histories

variable {publicId : String} {event : KeyOp × Except Exn KeyReply} {events : List (KeyOp × Except Exn KeyReply)}

theorem deleted_cons : Deleted publicId (event :: events) ↔ deletes publicId event ∨ Deleted publicId events := by
  unfold Deleted
  simp only [List.mem_cons, exists_eq_or_imp]

private theorem latestLimit_cons :
    latestLimit publicId (event :: events) = (latestLimit publicId events).or (limitSetBy publicId event) := by
  unfold latestLimit
  cases hlimit : limitSetBy publicId event with
  | none => rw [List.filterMap_cons_none hlimit, Option.or_none]
  | some limit =>
    rw [List.filterMap_cons_some hlimit, List.getLast?_cons]
    cases (events.filterMap (limitSetBy publicId)).getLast? <;> rfl

/-- How a row has changed with the calls of a history: it has the latest limit, it is revoked if it was or if it was
deleted, and a revocation stays as it is. -/
structure Follows (publicId : String) (events : List (KeyOp × Except Exn KeyReply)) (row row' : ApiKeyRow) : Prop where
  label : row'.label = row.label
  secretHash : row'.secretHash = row.secretHash
  expiresAt : row'.expiresAt = row.expiresAt
  limit : row'.rateLimitRpm = (latestLimit publicId events).or row.rateLimitRpm
  revoked : row'.revokedAt.isSome ↔ row.revokedAt.isSome ∨ Deleted publicId events
  frozen : row.revokedAt.isSome → row'.revokedAt = row.revokedAt ∧ row'.revokedReason = row.revokedReason

private theorem Follows.refl (publicId : String) (row : ApiKeyRow) : Follows publicId [] row row := by
  refine ⟨rfl, rfl, rfl, rfl, ?_, fun _ => ⟨rfl, rfl⟩⟩
  simp [Deleted]

private theorem Follows.cons {row row₁ row₂ : ApiKeyRow} (h : Follows publicId [event] row row₁)
    (h' : Follows publicId events row₁ row₂) : Follows publicId (event :: events) row row₂ := by
  refine ⟨h'.label.trans h.label, h'.secretHash.trans h.secretHash, h'.expiresAt.trans h.expiresAt, ?_, ?_, ?_⟩
  · have hlimit := h.limit
    have hnil : latestLimit publicId [] = none := rfl
    rw [latestLimit_cons, hnil, Option.none_or] at hlimit
    rw [h'.limit, hlimit, latestLimit_cons, Option.or_assoc]
  · have hrevoked := h.revoked
    rw [deleted_cons] at hrevoked ⊢
    rw [h'.revoked, hrevoked]
    simp only [Deleted, List.not_mem_nil, false_and, exists_false, or_false, or_assoc]
  · intro hsome
    obtain ⟨hat, hreason⟩ := h.frozen hsome
    obtain ⟨hat', hreason'⟩ := h'.frozen (by rw [hat]; exact hsome)
    exact ⟨hat'.trans hat, hreason'.trans hreason⟩

/-- A call on an existing row. -/
private theorem KeyEffect.follows {hash : SecretHash} {row : ApiKeyRow} {after : Option ApiKeyRow}
    (h : KeyEffect hash publicId event (some row) after) :
    ∃ row', after = some row' ∧ Follows publicId [event] row row' := by
  have quiet {row' : ApiKeyRow} (hdeletes : deletes publicId event = false) (hlimit : limitSetBy publicId event = none)
      (hlabel : row'.label = row.label) (hhash : row'.secretHash = row.secretHash)
      (hexpires : row'.expiresAt = row.expiresAt) (hrate : row'.rateLimitRpm = row.rateLimitRpm)
      (hrevoked : row'.revokedAt = row.revokedAt) (hreason : row'.revokedReason = row.revokedReason) :
      Follows publicId [event] row row' := by
    refine ⟨hlabel, hhash, hexpires, ?_, ?_, fun _ => ⟨hrevoked, hreason⟩⟩
    · rw [latestLimit_cons, hlimit, hrate]
      rfl
    · rw [deleted_cons, hdeletes, hrevoked]
      simp [Deleted]
  cases h with
  | kept _ _ undeleted unlimited => exact ⟨row, rfl, quiet undeleted unlimited rfl rfl rfl rfl rfl rfl⟩
  | touched => exact ⟨_, rfl, quiet rfl rfl rfl rfl rfl rfl rfl rfl⟩
  | limited rateLimitRpm =>
    refine ⟨_, rfl, rfl, rfl, rfl, ?_, ?_, fun _ => ⟨rfl, rfl⟩⟩
    · rw [latestLimit_cons]
      simp [limitSetBy, latestLimit]
    · rw [deleted_cons]
      simp [deletes, Deleted]
  | revoked reason now _ result unrevoked status =>
    refine ⟨_, rfl, rfl, rfl, rfl, rfl, ?_, fun hsome => ?_⟩
    · rw [deleted_cons]
      simp [deletes, status]
    · rw [unrevoked] at hsome
      cases hsome

end Histories

namespace ApiKeyStore

variable {hash : SecretHash} {store store' : ApiKeyStore} {publicId : String}

/-- A row through a run. -/
theorem row_of_history {row : ApiKeyRow} (hrow : store.keys.get? publicId = some row) {ops : List KeyOp}
    (hrun : run (step hash) store ops = some store') :
    ∃ row', store'.keys.get? publicId = some row' ∧ Follows publicId (store.history hash ops) row row' := by
  induction ops generalizing store row with
  | nil =>
    obtain rfl : store = store' := Option.some.inj hrun
    exact ⟨row, hrow, .refl publicId row⟩
  | cons op ops ih =>
    obtain ⟨store₁, hstep, hrun⟩ := run_cons.1 hrun
    obtain rfl : store.next hash op = store₁ := Option.some.inj hstep
    have heffect := @next_effect hash store op publicId
    rw [hrow] at heffect
    obtain ⟨row₁, hrow₁, hfirst⟩ := heffect.follows
    obtain ⟨row', hrow', hrest⟩ := ih hrow₁ hrun
    exact ⟨row', hrow', hfirst.cons hrest⟩

/-- What a new key brings. -/
private theorem issueKey_row {material : KeyMaterial} {label : String} {now : Timestamp} {result : ApiKeyIssueResult}
    (h : issueKey hash material label now store = .ok (result, store')) :
    result.publicId = material.publicId ∧ result.key = material.rawKey ∧
      ∃ row, store'.keys.get? material.publicId = some row ∧ row.label = result.label ∧
        row.secretHash = hash material.publicId material.secret ∧ row.rateLimitRpm = none ∧ row.revokedAt = none ∧
        row.expiresAt = none := by
  obtain ⟨normalized, -, h⟩ := Eff.except_bind_eq_ok.1 h
  dsimp only at h
  split at h
  · cases h
  · cases h
    exact ⟨rfl, rfl, _, Dict.get?_set_self _ _ _, rfl, rfl, rfl, rfl, rfl⟩

/-- A revoked row lets no secret in. -/
private theorem authenticateKey_revoked {key secret : String} {row : ApiKeyRow}
    (hparse : parseKey key = some (publicId, secret))
    (hrow : store.keys.get? publicId = some row) (hrevoked : row.revokedAt.isSome) (now : Timestamp) :
    (authenticateKey hash key now store).1 = .failure .revoked := by
  have hreason : authRowFailureReason hash row now.val publicId secret = some .revoked := if_pos hrevoked
  unfold authenticateKey
  rw [hparse]
  dsimp only
  rw [hrow]
  dsimp only
  rw [hreason]

/-- The authentication of a key looks at the row of its identifier only. -/
private theorem authenticateKey_congr {key secret : String} (hparse : parseKey key = some (publicId, secret))
    (hrow : store'.keys.get? publicId = store.keys.get? publicId) (now : Timestamp) :
    (authenticateKey hash key now store').1 = (authenticateKey hash key now store).1 := by
  unfold authenticateKey
  rw [hparse]
  dsimp only
  rw [hrow]
  cases store.keys.get? publicId with
  | none => rfl
  | some row =>
    dsimp only
    cases authRowFailureReason hash row now.val publicId secret <;> rfl

/-- A call about one identifier leaves the rows of the others as they are. -/
private theorem next_other {op : KeyOp} (h : op.subject ≠ some publicId) :
    (store.next hash op).keys.get? publicId = store.keys.get? publicId := by
  have heffect := @next_effect hash store op publicId
  generalize store.keys.get? publicId = row at heffect ⊢
  generalize (store.next hash op).keys.get? publicId = row' at heffect ⊢
  generalize store.reply hash op = reply at heffect
  cases heffect with
  | kept => rfl
  | issued material label keyPrefix now _ subject => exact absurd (congrArg some subject) h
  | touched key secret now row _ subject =>
    refine absurd ?_ h
    show (parseKey key).map Prod.fst = some publicId
    rw [subject]
    rfl
  | limited => exact absurd rfl h
  | revoked => exact absurd rfl h

/-- No revocation has an empty reason. -/
def ReasonsNamed (store : ApiKeyStore) : Prop :=
  ∀ publicId row, store.keys.get? publicId = some row → row.revokedReason ≠ some ""

private theorem normalizeReason_ne_empty (reason : Option String) : normalizeReason reason ≠ some "" := by
  intro h
  obtain ⟨stripped, -, h⟩ := Option.bind_eq_some_iff.1 h
  split at h
  · cases h
  · rename_i hne
    have htext := congrArg String.toList (Option.some.inj h)
    rw [String.toList_ofList] at htext
    exact hne htext

private theorem step_reasonsNamed {op : KeyOp} (hnamed : store.ReasonsNamed) (h : store.step hash op = some store') :
    store'.ReasonsNamed := by
  obtain rfl : store.next hash op = store' := Option.some.inj h
  intro publicId row' hrow'
  have heffect := @next_effect hash store op publicId
  rw [hrow'] at heffect
  generalize hrow : store.keys.get? publicId = row at heffect
  generalize store.reply hash op = reply at heffect
  cases heffect with
  | kept => exact hnamed publicId row' hrow
  | issued => nofun
  | touched _ _ _ row => exact hnamed publicId row hrow
  | limited _ row => exact hnamed publicId row hrow
  | revoked reason => exact normalizeReason_ne_empty reason

/-- A revocation stays as it is. -/
def KeepsRevocations (store store' : ApiKeyStore) : Prop :=
  ∀ publicId row, store.keys.get? publicId = some row → row.revokedAt.isSome →
    ∃ row', store'.keys.get? publicId = some row' ∧ row'.revokedAt = row.revokedAt ∧
      row'.revokedReason = row.revokedReason

/-- A delete of a revoked identifier returns what its row says. -/
def ReportsRevocations (store : ApiKeyStore) : Prop :=
  ∀ publicId row revokedAt reason now, store.keys.get? publicId = some row → row.revokedAt = some revokedAt →
    deleteKey publicId reason now store =
      ({ status := .alreadyDeleted, publicId, revokedAt := some revokedAt, revokedReason := row.revokedReason }, store)

private theorem ReasonsNamed.reports (h : store.ReasonsNamed) : store.ReportsRevocations := by
  intro publicId row revokedAt reason now hrow hrevoked
  have hkept : row.revokedReason.filter (· ≠ "") = row.revokedReason := by
    have hne := h publicId row hrow
    cases hreason : row.revokedReason with
    | none => rfl
    | some text =>
      rw [hreason] at hne
      have htext : text ≠ "" := fun he => hne (congrArg some he)
      simp [Option.filter, htext]
  unfold deleteKey
  rw [hrow]
  dsimp only
  rw [hrevoked]
  dsimp only
  rw [hkept]

/-- A key that was issued is accepted with the latest limit as long as its identifier has not been deleted, and is
rejected as revoked from then on.  Every limit that the database can hold is set, and the first delete deletes. -/
structure KeyLives (hash : SecretHash) (store : ApiKeyStore) (key publicId label : String)
    (events : List (KeyOp × Except Exn KeyReply)) : Prop where
  accepted : ¬ Deleted publicId events → ∀ now,
    (authenticateKey hash key now store).1 = .success publicId label (latestLimit publicId events)
  rejected : Deleted publicId events → ∀ now, (authenticateKey hash key now store).1 = .failure .revoked
  limited : ∀ rateLimitRpm, 0 < rateLimitRpm → rateLimitRpm < 2 ^ 63 →
    store.reply hash (.setKeyRateLimit publicId rateLimitRpm) = .ok (.limitSet true)
  deletable : ¬ Deleted publicId events → ∀ reason now, (deleteKey publicId reason now store).1.status = .deleted
  gone : Deleted publicId events → ∀ reason now, (deleteKey publicId reason now store).1.status = .alreadyDeleted

/-- A limit that the database can hold is set if there is a row. -/
private theorem reply_setKeyRateLimit
    {row : ApiKeyRow} (hrow : store.keys.get? publicId = some row) {rateLimitRpm : Int}
    (hpos : 0 < rateLimitRpm) (hfits : rateLimitRpm < 2 ^ 63) :
    store.reply hash (.setKeyRateLimit publicId rateLimitRpm) = .ok (.limitSet true) := by
  let limited : ApiKeyStore :=
    { store with keys := store.keys.set publicId { row with rateLimitRpm := some rateLimitRpm } }
  have hset : setKeyRateLimit publicId rateLimitRpm store = .ok (true, limited) := by
    unfold setKeyRateLimit
    rw [if_neg (by omega)]
    refine Eff.except_bind_eq_ok.2 ⟨rateLimitRpm, sql_bindInt ⟨by omega, hfits⟩, ?_⟩
    rw [hrow]
    rfl
  have hcall : store.call hash (.setKeyRateLimit publicId rateLimitRpm) = .ok (.limitSet true, limited) :=
    Eff.except_map_eq_ok.2 ⟨_, hset, rfl⟩
  exact reply_of_ok hcall

/-- A delete deletes a row that is not revoked. -/
private theorem deleteKey_status {row : ApiKeyRow} (hrow : store.keys.get? publicId = some row) (reason : Option String)
    (now : Timestamp) :
    (row.revokedAt = none → (deleteKey publicId reason now store).1.status = .deleted) ∧
      (row.revokedAt.isSome → (deleteKey publicId reason now store).1.status = .alreadyDeleted) := by
  unfold deleteKey
  rw [hrow]
  dsimp only
  cases hrevoked : row.revokedAt with
  | none => exact ⟨fun _ => rfl, nofun⟩
  | some revokedAt => exact ⟨nofun, fun _ => rfl⟩

private theorem issued_key_lives
    {material : KeyMaterial} {label : String} {now : Timestamp} {result : ApiKeyIssueResult}
    {store₁ : ApiKeyStore} (h : issueKey hash material label now store = .ok (result, store₁)) {ops : List KeyOp}
    (hrun : run (step hash) store₁ ops = some store') :
    store'.KeyLives hash result.key result.publicId result.label (store₁.history hash ops) := by
  obtain ⟨hid, hkey, row, hrow, hlabel, hhash, hlimit, hrevoked, hexpires⟩ := issueKey_row h
  obtain ⟨row', hrow', hfollows⟩ := row_of_history hrow hrun
  have hparse : parseKey result.key = some (material.publicId, material.secret) := by
    rw [hkey]
    exact parseKey_rawKey material
  have hiff : row'.revokedAt.isSome ↔ Deleted material.publicId (store₁.history hash ops) := by
    have := hfollows.revoked
    rw [hrevoked] at this
    simpa using this
  rw [hid]
  have hlive (h : ¬ Deleted material.publicId (store₁.history hash ops)) : row'.revokedAt = none := by
    simpa using fun hsome => h (hiff.1 hsome)
  refine ⟨fun h checkedAt => ?_, fun h checkedAt => ?_, fun limit hpos hfits => reply_setKeyRateLimit hrow' hpos hfits,
    fun h reason deletedAt => (deleteKey_status hrow' reason deletedAt).1 (hlive h),
    fun h reason deletedAt => (deleteKey_status hrow' reason deletedAt).2 (hiff.2 h)⟩
  · refine authenticateKey_success.2 ⟨material.secret, row', hparse, hrow', ⟨hlive h, ?_, ?_⟩, ?_, ?_⟩
    · rw [hfollows.expiresAt, hexpires]
      nofun
    · rw [hfollows.secretHash, hhash]
    · rw [hfollows.label, hlabel]
    · rw [hfollows.limit, hlimit, Option.or_none]
  · exact authenticateKey_revoked hparse hrow' (hiff.2 h) checkedAt

end ApiKeyStore

open ApiKeyStore in
/-- In every run of the key store: an issued key is accepted as its own identifier, with the latest limit set for it, up
to the first delete of that identifier and never after it; every legal limit is set, and the first delete deletes; a
revocation stays as it is, and a later delete returns it;
and a call about one identifier changes neither the row nor the authentication of another. -/
theorem key_life_cycle (hash : SecretHash) (ops : List KeyOp) :
    (∀ pre material label now mid, pre ++ .issueKey material label now :: mid <+: ops →
        ∀ store store₁ store' result, run (step hash) .empty pre = some store →
          issueKey hash material label now store = .ok (result, store₁) →
            run (step hash) store₁ mid = some store' →
              store'.KeyLives hash result.key result.publicId result.label (store₁.history hash mid)) ∧
      Between (step hash) KeepsRevocations .empty ops ∧
      Always (step hash) ReportsRevocations .empty ops ∧
      Along (step hash)
        (fun store op => ∀ publicId, op.subject ≠ some publicId →
          (store.next hash op).keys.get? publicId = store.keys.get? publicId ∧
            ∀ key secret now, parseKey key = some (publicId, secret) →
              (authenticateKey hash key now (store.next hash op)).1 = (authenticateKey hash key now store).1)
        .empty ops := by
  refine ⟨?_, ?_, ?_, ?_⟩
  · intro pre material label now mid _ store store₁ store' result _ hissue hrun
    exact issued_key_lives hissue hrun
  · refine (between_iff_steps (fun store publicId row hrow _ => ⟨row, hrow, rfl, rfl⟩) ?_).2 ?_
    · intro store₁ store₂ store₃ h h' publicId row hrow hsome
      obtain ⟨row₂, hrow₂, hat, hreason⟩ := h publicId row hrow hsome
      obtain ⟨row₃, hrow₃, hat', hreason'⟩ := h' publicId row₂ hrow₂ (by rw [hat]; exact hsome)
      exact ⟨row₃, hrow₃, hat'.trans hat, hreason'.trans hreason⟩
    · refine along_of_forall (fun store op store' hstep publicId row hrow hsome => ?_) ApiKeyStore.empty ops
      have hrun : run (step hash) store [op] = some store' := run_cons.2 ⟨store', hstep, rfl⟩
      obtain ⟨row', hrow', hfollows⟩ := row_of_history hrow hrun
      exact ⟨row', hrow', hfollows.frozen hsome⟩
  · intro pre _ store hrun
    have hempty : ApiKeyStore.empty.ReasonsNamed := by
      intro publicId row hrow
      cases hrow
    have hnamed : store.ReasonsNamed :=
      run_invariant (fun _ _ _ hs hstep => step_reasonsNamed hs hstep) hempty hrun
    exact hnamed.reports
  · refine along_of_forall (fun store op publicId hsubject => ?_) ApiKeyStore.empty ops
    have hrow := @next_other hash store publicId op hsubject
    exact ⟨hrow, fun key secret now hparse => authenticateKey_congr hparse hrow now⟩

/-! ### A key that is used and deleted -/

namespace Example

def material : KeyMaterial where
  publicId := "0123456789abcdef"
  secret := "s3cr3t_"
  hex := by decide +kernel
  secret_ne := by decide
  secret_urlsafe := by decide +kernel

/-- A hash that hides nothing. -/
def secretHash : SecretHash := fun publicId secret => publicId ++ "." ++ secret

def issueOps : KeyOp := .issueKey material "ops" ⟨10, by decide⟩

/-- The store with the key. -/
def issued : ApiKeyStore := ApiKeyStore.empty.next secretHash issueOps

/-- The key gets a limit and is used. -/
def keyUsed : List KeyOp := [.setKeyRateLimit material.publicId 5, .authenticateKey material.rawKey ⟨20, by decide⟩]

/-- Then it is deleted. -/
def keyDeleted : List KeyOp := keyUsed ++ [.deleteKey material.publicId none ⟨30, by decide⟩]

end Example

private theorem next_issueKey {hash : SecretHash} {material : KeyMaterial} {label : String} {now : Timestamp}
    {result : ApiKeyIssueResult} {store store' : ApiKeyStore}
    (h : issueKey hash material label now store = .ok (result, store')) :
    store.next hash (.issueKey material label now) = store' := by
  have hcall : store.call hash (.issueKey material label now) = .ok (.issued result, store') := by
    unfold ApiKeyStore.call
    dsimp only
    rw [h]
    rfl
  exact ApiKeyStore.next_of_ok hcall

private theorem issued_ok :
    ∃ result,
      issueKey Example.secretHash Example.material "ops" ⟨10, by decide⟩ .empty = .ok (result, Example.issued) := by
  have hissued : (issueKey Example.secretHash Example.material "ops" ⟨10, by decide⟩ .empty).isOk := by decide +kernel
  cases hissue : issueKey Example.secretHash Example.material "ops" ⟨10, by decide⟩ .empty with
  | error exc =>
    rw [hissue] at hissued
    cases hissued
  | ok answer => exact ⟨answer.1, congrArg (fun store => Except.ok (answer.1, store)) (next_issueKey hissue).symm⟩

open ApiKeyStore in
/-- Before the delete the key is accepted with its limit, and afterwards it is revoked. -/
theorem key_life_cycle_deleted :
    ∃ result used gone,
      issueKey Example.secretHash Example.material "ops" ⟨10, by decide⟩ .empty = .ok (result, Example.issued) ∧
      run (step Example.secretHash) Example.issued Example.keyUsed = some used ∧
      (authenticateKey Example.secretHash result.key ⟨40, by decide⟩ used).1 =
        .success result.publicId result.label (some 5) ∧
      (deleteKey result.publicId none ⟨40, by decide⟩ used).1.status = .deleted ∧
      run (step Example.secretHash) Example.issued Example.keyDeleted = some gone ∧
      (authenticateKey Example.secretHash result.key ⟨40, by decide⟩ gone).1 = .failure .revoked := by
  obtain ⟨result, hissue⟩ := issued_ok
  have hid : result.publicId = Example.material.publicId := (issueKey_row hissue).1
  have hlives := (key_life_cycle Example.secretHash (Example.issueOps :: Example.keyDeleted)).1 [] Example.material
    "ops" ⟨10, by decide⟩
  have hused := hlives Example.keyUsed (List.prefix_append _ _) .empty Example.issued _ result rfl hissue rfl
  have hgone := hlives Example.keyDeleted (List.prefix_refl _) .empty Example.issued _ result rfl hissue rfl
  rw [hid] at hused hgone
  have hlive : ¬ Deleted Example.material.publicId (Example.issued.history Example.secretHash Example.keyUsed) := by
    unfold Deleted
    decide +kernel
  have hlimit : latestLimit Example.material.publicId
      (Example.issued.history Example.secretHash Example.keyUsed) = some 5 := by
    unfold latestLimit
    decide +kernel
  have hdeleted : Deleted Example.material.publicId
      (Example.issued.history Example.secretHash Example.keyDeleted) := by
    unfold Deleted
    decide +kernel
  refine ⟨result, _, _, hissue, rfl, ?_, ?_, rfl, hgone.rejected hdeleted _⟩
  · rw [hused.accepted hlive, hid, hlimit]
  · rw [hid]
    exact hused.deletable hlive _ _

end TokenPriceAgg

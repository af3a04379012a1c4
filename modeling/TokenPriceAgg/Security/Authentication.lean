import TokenPriceAgg.Security.AnonLimiter

/-!
# The authentication of requests

`authenticateRequestHeaders` chooses a credential from two headers, and `authorizeAndRateLimit` decides with its result
whether a request goes through, with a key or as an anonymous one.

`BearerCredential` and `ChosenCredential` say on the text of the headers which credential that is;
`parseBearerCredential_eq_ok` and `authenticateRequestHeaders_cases` connect them with the code.
-/

namespace TokenPriceAgg

open PyLib

/-! ### The headers -/

/-- `_parse_bearer_credential`: the credential, or why there is none.  Only ASCII letters have the letters of `bearer`
for their lower case. -/
def parseBearerCredential (authorization : Option String) : Except AuthFailureReason String :=
  match authorization with
  | none => .error .missingAuthorization
  | some text =>
    if text = "" then .error .missingAuthorization
    else
      match splitOnce (strip text.toList) with
      | [scheme, credential] =>
        if (String.ofList scheme).toLower ≠ "bearer" then .error .invalidAuthorization
        else if credential = [] then .error .invalidAuthorization
        else .ok (String.ofList credential)
      | _ => .error .invalidAuthorization

def authenticateRequestHeaders (hash : SecretHash) (authorization xApiKey : Option String) (now : Timestamp)
    (store : ApiKeyStore) : AuthResult × ApiKeyStore :=
  match parseBearerCredential authorization with
  | .ok credential => authenticateKey hash credential now store
  | .error bearerFailure =>
    match xApiKey with
    | none => (.failure bearerFailure, store)
    | some text =>
      if strip text.toList ≠ [] then authenticateKey hash (String.ofList (strip text.toList)) now store
      else (.failure bearerFailure, store)

/-! ### The gate -/

/-- What the middleware uses of the settings; the limits are checked to be positive. -/
structure AuthSettings where
  apiKeyAuthEnabled : Bool := true
  apiKeyRateLimitRpm : Int := 300
  apiKeyUnauthAccessEnabled : Bool := true
  apiKeyUnauthMinIntervalSeconds : Int := 1
  limitsPositive : 0 < apiKeyRateLimitRpm ∧ 0 < apiKeyUnauthMinIntervalSeconds := by decide

inductive AuthStatus
  | unprotected
  | authenticated
  | anonymous
  | unauthorized
deriving DecidableEq

/-- The state that the middleware leaves in the request. -/
structure AuthState where
  authStatus : AuthStatus
  authReason : Option AuthFailureReason := none
  apiKeyId : Option String := none
deriving DecidableEq

structure ErrorResponse where
  statusCode : Nat
  type : String
  message : String
  headers : List (String × String)
deriving DecidableEq

def RateLimitResult.headers (result : RateLimitResult) : List (String × String) :=
  [("X-RateLimit-Limit", toString result.limit), ("X-RateLimit-Remaining", toString result.remaining),
    ("X-RateLimit-Reset", toString result.resetEpoch), ("Retry-After", toString result.retryAfterSeconds)]

def rateLimitedResponse (message requestId : String) (result : RateLimitResult) : ErrorResponse where
  statusCode := 429
  type := "RATE_LIMITED"
  message := message
  headers := result.headers ++ [("X-Request-ID", requestId)]

/-- `_AUTH_FAILURE_MESSAGES`, with its default. -/
def authFailureMessage : AuthFailureReason → String
  | .missingAuthorization => "Missing API key - provide via Authorization: Bearer <key> or x-api-key header"
  | .invalidAuthorization => "Invalid Authorization header"
  | .revoked => "API key revoked"
  | .expired => "API key expired"
  | .invalidKey => "Invalid API key"

def unauthorizedResponse (reason : AuthFailureReason) (requestId : String) : ErrorResponse where
  statusCode := 401
  type := "UNAUTHORIZED"
  message := authFailureMessage reason
  headers := [("WWW-Authenticate", "Bearer"), ("X-Request-ID", requestId)]

/-- What the gate reads of a request, and the two times at which it reads the clock. -/
structure GateRequest where
  path : String
  requestId : String
  authorization : Option String
  xApiKey : Option String
  clientHost : Option String
  authenticatedAt : Timestamp
  limitedAt : Timestamp

structure Gate where
  store : ApiKeyStore
  limiter : AnonymousRateLimiter

/-- The state of the request, the response or the exception that stops it, and the gate afterwards. -/
structure GateOutcome where
  state : AuthState
  answer : Except Exn (Option ErrorResponse × Option RateLimitResult)
  gate : Gate

def shouldAllowUnauthenticatedRequest (reason : AuthFailureReason) (settings : AuthSettings) : Bool :=
  settings.apiKeyUnauthAccessEnabled && reason = .missingAuthorization

/-- `_anonymous_client_id`. -/
def anonymousClientId (clientHost : Option String) : String :=
  match clientHost with
  | none => "unknown"
  | some host => if host = "" then "unknown" else host

/-- The answer to a request that was counted. -/
def limitedAnswer (message requestId : String) (result : RateLimitResult) :
    Option ErrorResponse × Option RateLimitResult :=
  if result.allowed then (none, some result) else (some (rateLimitedResponse message requestId result), none)

/-- `_authorize_and_rate_limit_if_needed`. -/
def authorizeAndRateLimit (hash : SecretHash) (settings : AuthSettings) (request : GateRequest) (gate : Gate) :
    GateOutcome :=
  if !settings.apiKeyAuthEnabled || !"/v1/".toList.isPrefixOf request.path.toList then
    { state := { authStatus := .unprotected }, answer := .ok (none, none), gate }
  else
    let (result, store) :=
      authenticateRequestHeaders hash request.authorization request.xApiKey request.authenticatedAt gate.store
    match result with
    | .success publicId _ rateLimitRpm =>
      let state : AuthState := { authStatus := .authenticated, apiKeyId := some publicId }
      match consumeRateLimit publicId (rateLimitRpm.getD settings.apiKeyRateLimitRpm) request.limitedAt store with
      | .error exc => { state, answer := .error exc, gate := { gate with store } }
      | .ok (rateLimit, store) =>
        { state, answer := .ok (limitedAnswer "API key rate limit exceeded" request.requestId rateLimit)
          gate := { gate with store } }
    | .failure reason =>
      if shouldAllowUnauthenticatedRequest reason settings then
        let state : AuthState := { authStatus := .anonymous, authReason := some reason }
        let anonymous : AnonymousRequest := ⟨anonymousClientId request.clientHost, request.limitedAt.val⟩
        match gate.limiter.consume settings.apiKeyUnauthMinIntervalSeconds anonymous with
        | .error exc => { state, answer := .error exc, gate := { gate with store } }
        | .ok (rateLimit, limiter) =>
          { state, answer := .ok (limitedAnswer "Anonymous rate limit exceeded" request.requestId rateLimit)
            gate := { store, limiter } }
      else
        { state := { authStatus := .unauthorized, authReason := some reason }
          answer := .ok (some (unauthorizedResponse reason request.requestId), none), gate := { gate with store } }

/-! ### The chosen credential -/

/-- The header is the scheme, in any case, and the credential, with whitespace between them and around. -/
def BearerCredential (authorization : Option String) (credential : String) : Prop :=
  ∃ text, authorization = some text ∧ ∃ p scheme gap q, Blank p ∧ Blank gap ∧ gap ≠ [] ∧ Blank q ∧
    text.toList = p ++ scheme ++ gap ++ credential.toList ++ q ∧ (String.ofList scheme).toLower = "bearer" ∧
      credential ≠ "" ∧ Trimmed credential.toList

/-- The credential of the `Authorization` header if it has one, or else the stripped `x-api-key` if it is not blank. -/
def ChosenCredential (authorization xApiKey : Option String) (credential : String) : Prop :=
  BearerCredential authorization credential ∨
    (¬ ∃ bearer, BearerCredential authorization bearer) ∧
      ∃ text, xApiKey = some text ∧ strip text.toList = credential.toList ∧ credential ≠ ""

/-- `Authorization` is absent or empty. -/
def NoAuthorization (authorization : Option String) : Prop := authorization = none ∨ authorization = some ""

/-- No credential is presented: `Authorization` is absent or empty and `x-api-key` is absent or blank. -/
def NothingPresented (authorization xApiKey : Option String) : Prop :=
  NoAuthorization authorization ∧ ∀ text, xApiKey = some text → Blank text.toList

/-- A scheme has letters, and no whitespace. -/
private theorem scheme_of_toLower {scheme : List Char} (h : (String.ofList scheme).toLower = "bearer") :
    scheme ≠ [] ∧ ∀ c ∈ scheme, ¬ isSpace c := by
  have hmap : scheme.map Char.toLower = "bearer".toList := by
    rw [← h, toList_toLower, String.toList_ofList]
  constructor
  · rintro rfl
    revert hmap
    decide
  · intro c hc hspace
    have hmem : c.toLower ∈ "bearer".toList := hmap ▸ List.mem_map_of_mem hc
    have hsame : c.toLower = c := by
      -- whitespace is no upper-case letter
      have hnot : ¬ (c.val ≥ 'A'.val ∧ c.val ≤ 'Z'.val) := by
        rintro ⟨hlow, hhigh⟩
        have hlow : 65 ≤ c.toNat := UInt32.le_iff_toNat_le.1 hlow
        have hhigh : c.toNat ≤ 90 := UInt32.le_iff_toNat_le.1 hhigh
        unfold isSpace at hspace
        simp only [Bool.or_eq_true, Bool.and_eq_true, decide_eq_true_eq] at hspace
        omega
      exact dif_neg hnot
    rw [hsame] at hmem
    have hall : "bearer".toList.any isSpace = false := by decide
    exact List.any_eq_false.1 hall c hmem hspace

private theorem parseBearerCredential_eq_ok {authorization : Option String} {credential : String} :
    parseBearerCredential authorization = .ok credential ↔ BearerCredential authorization credential := by
  constructor
  · intro h
    cases authorization with
    | none => cases h
    | some text =>
      unfold parseBearerCredential at h
      dsimp only at h
      split at h
      · cases h
      · split at h
        · rename_i scheme rest hsplit
          split at h
          · cases h
          · rename_i hscheme
            split at h
            · cases h
            · rename_i hrest
              cases h
              obtain ⟨p, q, hp, hq, htext, htrim⟩ := strip_eq_iff.1 (Eq.refl (strip text.toList))
              obtain ⟨p', gap, hp', hgap, hgapne, hwords, -, -, -, hhead⟩ := splitOnce_eq_pair.1 hsplit
              refine ⟨text, rfl, p ++ p', scheme, gap, q, ?_, hgap, hgapne, hq, ?_, not_not.1 hscheme, ?_, ?_⟩
              · intro c hc
                exact (List.mem_append.1 hc).elim (hp c) (hp' c)
              · rw [String.toList_ofList]
                conv_lhs => rw [htext, hwords]
                simp only [List.append_assoc]
              · intro hempty
                exact hrest (String.ofList_eq_empty_iff.1 hempty)
              · rw [String.toList_ofList]
                refine ⟨hhead, fun c hc => htrim.2 c ?_⟩
                rw [hwords, List.getLast?_append, hc]
                rfl
        · cases h
  · rintro ⟨text, rfl, p, scheme, gap, q, hp, hgap, hgapne, hq, htext, hscheme, hne, htrim⟩
    obtain ⟨hschemene, hword⟩ := scheme_of_toLower hscheme
    have hcredential : credential.toList ≠ [] := fun hnil => hne (String.toList_eq_nil_iff.1 hnil)
    have hstrip : strip text.toList = scheme ++ gap ++ credential.toList := by
      refine strip_eq_iff.2 ⟨p, q, hp, hq, by rw [htext]; simp only [List.append_assoc], ?_, ?_⟩
      · intro c hc
        cases scheme with
        | nil => exact absurd rfl hschemene
        | cons d scheme =>
          obtain rfl : d = c := Option.some.inj hc
          exact hword d List.mem_cons_self
      · intro c hc
        apply htrim.2 c
        cases hlast : credential.toList.getLast? with
        | none => exact absurd (List.getLast?_eq_none_iff.1 hlast) hcredential
        | some d =>
          rw [List.getLast?_append, hlast] at hc
          exact hc
    have hsplit : splitOnce (strip text.toList) = [scheme, credential.toList] :=
      splitOnce_eq_pair.2
        ⟨[], gap, nofun, hgap, hgapne, hstrip, hschemene, hword, hcredential, htrim.1⟩
    have htextne : text ≠ "" := by
      rintro rfl
      revert hstrip
      simp [strip, hschemene]
    unfold parseBearerCredential
    dsimp only
    rw [if_neg htextne, hsplit]
    dsimp only
    rw [if_neg (not_not.2 hscheme), if_neg hcredential, String.ofList_toList]

/-- Without a credential the header is missing exactly if it is absent or empty. -/
private theorem parseBearerCredential_eq_missing {authorization : Option String} :
    parseBearerCredential authorization = .error .missingAuthorization ↔ NoAuthorization authorization := by
  unfold NoAuthorization
  cases authorization with
  | none => exact iff_of_true rfl (.inl rfl)
  | some text =>
    unfold parseBearerCredential
    dsimp only
    by_cases htext : text = ""
    · rw [if_pos htext, htext]
      exact iff_of_true rfl (.inr rfl)
    · rw [if_neg htext]
      refine iff_of_false ?_ ?_
      · split
        · split
          · nofun
          · split <;> nofun
        · nofun
      · rintro (h | h)
        · cases h
        · exact htext (Option.some.inj h)

section Requests

variable {hash : SecretHash} {authorization xApiKey : Option String} {now : Timestamp} {store : ApiKeyStore}

/-- A request is authenticated with its chosen credential, or fails for the reason of its `Authorization` header. -/
theorem authenticateRequestHeaders_cases (hash : SecretHash) (authorization xApiKey : Option String) (now : Timestamp)
    (store : ApiKeyStore) :
    (∃ credential, ChosenCredential authorization xApiKey credential ∧
        authenticateRequestHeaders hash authorization xApiKey now store = authenticateKey hash credential now store) ∨
      ∃ reason, parseBearerCredential authorization = .error reason ∧
        (∀ text, xApiKey = some text → Blank text.toList) ∧
          authenticateRequestHeaders hash authorization xApiKey now store = (.failure reason, store) := by
  unfold authenticateRequestHeaders
  cases hparse : parseBearerCredential authorization with
  | ok credential => exact .inl ⟨credential, .inl (parseBearerCredential_eq_ok.1 hparse), rfl⟩
  | error reason =>
    have hnone : ¬ ∃ bearer, BearerCredential authorization bearer := by
      rintro ⟨bearer, h⟩
      rw [parseBearerCredential_eq_ok.2 h] at hparse
      cases hparse
    dsimp only
    cases xApiKey with
    | none => exact .inr ⟨reason, rfl, nofun, rfl⟩
    | some text =>
      dsimp only
      by_cases hblank : strip text.toList ≠ []
      · rw [if_pos hblank]
        refine .inl ⟨String.ofList (strip text.toList), .inr ⟨hnone, text, rfl, String.toList_ofList.symm, ?_⟩, rfl⟩
        exact fun hempty => hblank (String.ofList_eq_empty_iff.1 hempty)
      · rw [if_neg hblank]
        refine .inr ⟨reason, rfl, ?_, rfl⟩
        rintro text' ⟨⟩
        exact strip_eq_nil.1 (not_not.1 hblank)

/-- A request has at most one chosen credential. -/
private theorem chosenCredential_unique {a b : String} (ha : ChosenCredential authorization xApiKey a)
    (hb : ChosenCredential authorization xApiKey b) : a = b := by
  have bearer {a b : String} (ha : BearerCredential authorization a) (hb : BearerCredential authorization b) :
      a = b := by
    rw [← parseBearerCredential_eq_ok] at ha hb
    rw [ha] at hb
    exact Except.ok.inj hb
  rcases ha with ha | ⟨hnone, text, htext, hstrip, -⟩
  · rcases hb with hb | ⟨hnone, -⟩
    · exact bearer ha hb
    · exact absurd ⟨a, ha⟩ hnone
  · rcases hb with hb | ⟨-, text', htext', hstrip', -⟩
    · exact absurd ⟨b, hb⟩ hnone
    · rw [htext] at htext'
      cases htext'
      rw [hstrip] at hstrip'
      exact String.toList_inj.1 hstrip'

/-- Who presents nothing has no chosen credential. -/
private theorem not_chosen_of_nothing (h : NothingPresented authorization xApiKey) {credential : String} :
    ¬ ChosenCredential authorization xApiKey credential := by
  obtain ⟨hauthorization, hblank⟩ := h
  rintro (hbearer | ⟨-, text, htext, hstrip, hne⟩)
  · rw [← parseBearerCredential_eq_ok, parseBearerCredential_eq_missing.2 hauthorization] at hbearer
    cases hbearer
  · rw [strip_eq_nil.2 (hblank text htext)] at hstrip
    exact hne (String.toList_eq_nil_iff.1 hstrip.symm)

private theorem authenticateRequestHeaders_success {publicId : String} :
    (∃ label limit, (authenticateRequestHeaders hash authorization xApiKey now store).1 =
        .success publicId label limit) ↔
      ∃ credential secret row, ChosenCredential authorization xApiKey credential ∧
        credential = apiKeyPrefix ++ publicId ++ "." ++ secret ∧ isPublicId publicId.toList ∧ secret ≠ "" ∧
          store.keys.get? publicId = some row ∧ row.Accepts hash publicId secret now.val := by
  rcases authenticateRequestHeaders_cases hash authorization xApiKey now store with
    ⟨credential, hchosen, h⟩ | ⟨reason, hreason, hblank, h⟩
  · rw [h]
    constructor
    · rintro ⟨label, limit, hsuccess⟩
      obtain ⟨secret, row, hparse, hrow, haccepts, -, -⟩ := authenticateKey_success.1 hsuccess
      obtain ⟨hkey, hid, hsecret⟩ := parseKey_eq_some.1 hparse
      exact ⟨credential, secret, row, hchosen, hkey, hid, hsecret, hrow, haccepts⟩
    · rintro ⟨credential', secret, row, hchosen', hkey, hid, hsecret, hrow, haccepts⟩
      rw [chosenCredential_unique hchosen' hchosen] at hkey
      have hparse := parseKey_eq_some.2 ⟨hkey, hid, hsecret⟩
      exact ⟨row.label, row.rateLimitRpm, authenticateKey_success.2 ⟨secret, row, hparse, hrow, haccepts, rfl, rfl⟩⟩
  · rw [h]
    refine iff_of_false (fun ⟨_, _, h⟩ => by cases h) ?_
    rintro ⟨credential, secret, row, hbearer | ⟨-, text, htext, hstrip, hne⟩, -⟩
    · rw [← parseBearerCredential_eq_ok, hreason] at hbearer
      cases hbearer
    · rw [strip_eq_nil.2 (hblank text htext)] at hstrip
      exact hne (String.toList_eq_nil_iff.1 hstrip.symm)

theorem authenticateRequestHeaders_missing :
    (authenticateRequestHeaders hash authorization xApiKey now store).1 = .failure .missingAuthorization ↔
      NothingPresented authorization xApiKey := by
  rcases authenticateRequestHeaders_cases hash authorization xApiKey now store with
    ⟨credential, hchosen, h⟩ | ⟨reason, hreason, hblank, h⟩
  · rw [h]
    exact iff_of_false (authenticateKey_ne_missing credential now store) fun hnothing =>
      not_chosen_of_nothing hnothing hchosen
  · rw [h]
    constructor
    · intro hmissing
      obtain rfl : reason = .missingAuthorization := by
        cases hmissing
        rfl
      exact ⟨parseBearerCredential_eq_missing.1 hreason, hblank⟩
    · rintro ⟨hauthorization, -⟩
      rw [parseBearerCredential_eq_missing.2 hauthorization] at hreason
      cases hreason
      rfl

/-- The anonymous tier is open to a protected request exactly if nothing is presented, and the tier is enabled. -/
private theorem authorizeAndRateLimit_anonymous {settings : AuthSettings} {request : GateRequest} {gate : Gate} :
    (authorizeAndRateLimit hash settings request gate).state.authStatus = .anonymous ↔
      settings.apiKeyAuthEnabled ∧ "/v1/".toList.isPrefixOf request.path.toList ∧
        settings.apiKeyUnauthAccessEnabled ∧ NothingPresented request.authorization request.xApiKey := by
  have hmissing := @authenticateRequestHeaders_missing hash request.authorization request.xApiKey
    request.authenticatedAt gate.store
  unfold authorizeAndRateLimit
  by_cases hunprotected : !settings.apiKeyAuthEnabled || !"/v1/".toList.isPrefixOf request.path.toList
  · rw [if_pos hunprotected]
    refine iff_of_false nofun ?_
    rintro ⟨henabled, hpath, -⟩
    rw [henabled, hpath] at hunprotected
    cases hunprotected
  · rw [if_neg hunprotected]
    obtain ⟨henabled, hpath⟩ : settings.apiKeyAuthEnabled ∧ "/v1/".toList.isPrefixOf request.path.toList := by
      simpa using hunprotected
    generalize authenticateRequestHeaders hash request.authorization request.xApiKey request.authenticatedAt
      gate.store = outcome at hmissing ⊢
    obtain ⟨result, store⟩ := outcome
    dsimp only at hmissing ⊢
    cases result with
    | success publicId label limit =>
      dsimp only
      refine iff_of_false ?_ ?_
      · split <;> nofun
      · rintro ⟨-, -, -, hnothing⟩
        cases hmissing.2 hnothing
    | failure reason =>
      dsimp only
      by_cases hallowed : shouldAllowUnauthenticatedRequest reason settings
      · rw [if_pos hallowed]
        obtain ⟨haccess, hreason⟩ : settings.apiKeyUnauthAccessEnabled ∧ reason = .missingAuthorization := by
          simpa [shouldAllowUnauthenticatedRequest] using hallowed
        refine iff_of_true ?_ ⟨henabled, hpath, haccess, hmissing.1 (by rw [hreason])⟩
        split <;> rfl
      · rw [if_neg hallowed]
        refine iff_of_false nofun ?_
        rintro ⟨-, -, haccess, hnothing⟩
        apply hallowed
        have hreason := hmissing.2 hnothing
        cases hreason
        simp [shouldAllowUnauthenticatedRequest, haccess]

end Requests

/-- A request succeeds for an identifier exactly if its chosen credential is a key with this identifier whose row is
there, not revoked, not expired and has the hash of the secret.  It fails as missing exactly if nothing is presented,
and only then the anonymous tier is open to it. -/
theorem authentication_exact (hash : SecretHash) (authorization xApiKey : Option String) (now : Timestamp)
    (store : ApiKeyStore) :
    (∀ publicId,
        (∃ label limit, (authenticateRequestHeaders hash authorization xApiKey now store).1 =
            .success publicId label limit) ↔
          ∃ credential secret row, ChosenCredential authorization xApiKey credential ∧
            credential = apiKeyPrefix ++ publicId ++ "." ++ secret ∧ isPublicId publicId.toList ∧ secret ≠ "" ∧
              store.keys.get? publicId = some row ∧ row.Accepts hash publicId secret now.val) ∧
      ((authenticateRequestHeaders hash authorization xApiKey now store).1 = .failure .missingAuthorization ↔
        NothingPresented authorization xApiKey) ∧
      ∀ settings request limiter, request.authorization = authorization → request.xApiKey = xApiKey →
        ((authorizeAndRateLimit hash settings request ⟨store, limiter⟩).state.authStatus = .anonymous ↔
          settings.apiKeyAuthEnabled ∧ "/v1/".toList.isPrefixOf request.path.toList ∧
            settings.apiKeyUnauthAccessEnabled ∧ NothingPresented authorization xApiKey) := by
  refine ⟨fun publicId => authenticateRequestHeaders_success, authenticateRequestHeaders_missing, ?_⟩
  rintro settings request limiter rfl rfl
  exact authorizeAndRateLimit_anonymous

end TokenPriceAgg

import TokenPriceAgg.Security.Authentication
import TokenPriceAgg.Security.KeyLifeCycle
import TokenPriceAgg.Security.RateWindows

/-!
# The gate under concurrent requests

Any number of requests are at the gate beside each other, and beside the tool that issues, deletes and limits keys.  A
request gives up control to the thread that authenticates it and to the one that counts it, and a cancelled request
leaves its thread behind; what happens between two such points is one step, `GateEvent`.

* (decisions) every decision is that of the two calls which the request made: the authentication after some of the
  calls of the key store, the count after these and some more;
* (quotas) what passes with a key in a window is within its limit, what passes without one is one request of a client
  in a window, and nobody else is refused.

`authorizeAndRateLimit_tracks` connects the steps with `authorizeAndRateLimit`, where no other request comes between.
-/

namespace TokenPriceAgg

open PyLib

/-! ### Requests at the gate -/

/-- The request needs a credential. -/
def needsCredential (settings : AuthSettings) (request : GateRequest) : Bool :=
  settings.apiKeyAuthEnabled && "/v1/".toList.isPrefixOf request.path.toList

/-- The client of a request without a credential, at the time at which it is counted. -/
def GateRequest.anonymous (request : GateRequest) : AnonymousRequest :=
  ⟨anonymousClientId request.clientHost, request.limitedAt.val⟩

/-- What the authentication of a request calls of the key store. -/
def GateRequest.keyOps (request : GateRequest) : List KeyOp :=
  match parseBearerCredential request.authorization with
  | .ok credential => [.authenticateKey credential request.authenticatedAt]
  | .error _ =>
    match request.xApiKey with
    | none => []
    | some text =>
      if strip text.toList ≠ [] then [.authenticateKey (String.ofList (strip text.toList)) request.authenticatedAt]
      else []

/-- The call of the key store that counts the request. -/
def GateRequest.countOp (request : GateRequest) (publicId : String) (limitRpm : Int) : KeyOp :=
  .consumeRateLimit publicId limitRpm request.limitedAt

/-- The calls of the tool. -/
def KeyOp.isAdministrative : KeyOp → Bool
  | .issueKey .. | .deleteKey .. | .setKeyRateLimit .. | .listKeys .. => true
  | .authenticateKey .. | .consumeRateLimit .. => false

inductive GateStage
  | authenticating
  /-- the key is accepted; the calls of the key store before it was -/
  | counting (publicId : String) (limitRpm : Int) (before : List KeyOp)
  | limiting (before : List KeyOp)

structure GateCall where
  request : GateRequest
  stage : GateStage
  /-- only the thread is left -/
  cancelled : Bool := false

/-- What is decided about a request, and after which calls. -/
inductive Verdict
  | unprotected
  | unauthorized (reason : AuthFailureReason) (before : List KeyOp)
  | keyed (publicId : String) (limitRpm : Int) (before counted : List KeyOp) (allowed : Bool)
  | anonymous (before : List KeyOp) (seen : List AnonymousRequest) (allowed : Bool)
  /-- an exception answers the request -/
  | raised (exc : Exn)

/-- The request reaches its route. -/
def Verdict.passes : Verdict → Bool
  | .unprotected => true
  | .unauthorized .. => false
  | .keyed _ _ _ _ allowed => allowed
  | .anonymous _ _ allowed => allowed
  | .raised _ => false

structure Decision where
  id : Nat
  request : GateRequest
  verdict : Verdict

/-- The window in which the request is counted. -/
def GateRequest.window (request : GateRequest) : Int := request.limitedAt.val / rateWindowSeconds

namespace Decision

/-- The request passes with the key, counted in the window. -/
def passesWith (publicId : String) (window : Int) (d : Decision) : Bool :=
  match d.verdict with
  | .keyed publicId' _ _ _ allowed => allowed && publicId' = publicId && d.request.window = window
  | _ => false

def limitRpm (d : Decision) : Int :=
  match d.verdict with
  | .keyed _ limitRpm _ _ _ => limitRpm
  | _ => 0

/-- The request passes without a key, counted for the client in the window. -/
def passesAnonymously (interval : Int) (client : String) (start : Int) (d : Decision) : Bool :=
  match d.verdict with
  | .anonymous _ _ allowed =>
    allowed && d.request.anonymous.bucketKey = client && windowStart interval d.request.anonymous.now = start
  | _ => false

/-- The calls of the key store before the one that counted the request. -/
def counted (d : Decision) : Option (List KeyOp) :=
  match d.verdict with
  | .keyed _ _ _ counted _ => some counted
  | _ => none

/-- The anonymous requests that were counted before. -/
def seen (d : Decision) : Option (List AnonymousRequest) :=
  match d.verdict with
  | .anonymous _ seen _ => some seen
  | _ => none

/-- The later decision was counted later. -/
structure Later (later earlier : Decision) : Prop where
  counted : ∀ c ∈ later.counted, ∀ c' ∈ earlier.counted, c'.length < c.length
  seen : ∀ a ∈ later.seen, ∀ a' ∈ earlier.seen, a'.length < a.length

/-- A request that is not counted. -/
private theorem later_of_none {later : Decision} (hcounted : later.counted = none) (hseen : later.seen = none)
    (earlier : Decision) : later.Later earlier := by
  refine ⟨fun c hc => ?_, fun a ha => ?_⟩
  · rw [hcounted] at hc
    cases hc
  · rw [hseen] at ha
    cases ha

end Decision

structure GateState where
  gate : Gate
  calls : Dict Nat GateCall
  /-- the calls of the key store, in order -/
  keyOps : List KeyOp
  /-- the requests that the anonymous limiter has counted, in order -/
  seen : List AnonymousRequest
  /-- the newest first -/
  decided : List Decision

inductive GateEvent
  | arrive (id : Nat) (request : GateRequest)
  | authenticate (id : Nat)
  /-- the request is counted, with its key or as an anonymous one -/
  | count (id : Nat)
  | cancel (id : Nat)
  | administer (op : KeyOp)

def GateEvent.callId : GateEvent → Option Nat
  | .arrive id _ | .authenticate id | .count id | .cancel id => some id
  | .administer _ => none

namespace GateState

def new (store : ApiKeyStore) (limiter : AnonymousRateLimiter) : GateState := ⟨⟨store, limiter⟩, .empty, [], [], []⟩

/-- The request is answered, or reaches its route. -/
def settle (s : GateState) (id : Nat) (request : GateRequest) (verdict : Verdict) : GateState :=
  { s with calls := s.calls.pop id, decided := ⟨id, request, verdict⟩ :: s.decided }

/-- The thread of a cancelled request ends. -/
def drop (s : GateState) (id : Nat) : GateState := { s with calls := s.calls.pop id }

def await (s : GateState) (id : Nat) (request : GateRequest) (stage : GateStage) : GateState :=
  { s with calls := s.calls.set id { request, stage } }

/-- A call of the key store is done. -/
def withStore (s : GateState) (store : ApiKeyStore) (ops : List KeyOp) : GateState :=
  { s with gate := { s.gate with store }, keyOps := s.keyOps ++ ops }

variable (hash : SecretHash) (settings : AuthSettings)

/-- What the middleware does with the result of an authentication; `before` are the earlier calls of the key store. -/
def authenticated (s : GateState) (id : Nat) (request : GateRequest) (before : List KeyOp) : AuthResult → GateState
  | .success publicId _ rateLimitRpm =>
    s.await id request (.counting publicId (rateLimitRpm.getD settings.apiKeyRateLimitRpm) before)
  | .failure reason =>
    if shouldAllowUnauthenticatedRequest reason settings then s.await id request (.limiting before)
    else s.settle id request (.unauthorized reason before)

def authenticate (s : GateState) (id : Nat) (request : GateRequest) (cancelled : Bool) : GateState :=
  let (result, store) :=
    authenticateRequestHeaders hash request.authorization request.xApiKey request.authenticatedAt s.gate.store
  let s' := s.withStore store request.keyOps
  if cancelled then s'.drop id else s'.authenticated settings id request s.keyOps result

def countKey (s : GateState) (id : Nat) (request : GateRequest) (cancelled : Bool) (publicId : String) (limitRpm : Int)
    (before : List KeyOp) : GateState :=
  match consumeRateLimit publicId limitRpm request.limitedAt s.gate.store with
  | .error exc => if cancelled then s.drop id else s.settle id request (.raised exc)
  | .ok (rateLimit, store) =>
    let s' := s.withStore store [request.countOp publicId limitRpm]
    if cancelled then s'.drop id
    else s'.settle id request (.keyed publicId limitRpm before s.keyOps rateLimit.allowed)

def countAnonymous (s : GateState) (id : Nat) (request : GateRequest) (before : List KeyOp) : GateState :=
  match s.gate.limiter.consume settings.apiKeyUnauthMinIntervalSeconds request.anonymous with
  | .error exc => s.settle id request (.raised exc)
  | .ok (rateLimit, limiter) =>
    { s with gate := { s.gate with limiter }, seen := s.seen ++ [request.anonymous] }.settle id request
      (.anonymous before s.seen rateLimit.allowed)

def step (s : GateState) : GateEvent → Option GateState
  | .arrive id request =>
    if s.calls.get? id = none then
      if needsCredential settings request then some (s.await id request .authenticating)
      else some (s.settle id request .unprotected)
    else none
  | .authenticate id =>
    match s.calls.get? id with
    | some ⟨request, .authenticating, cancelled⟩ => some (s.authenticate hash settings id request cancelled)
    | _ => none
  | .count id =>
    match s.calls.get? id with
    | some ⟨request, .counting publicId limitRpm before, cancelled⟩ =>
      some (s.countKey id request cancelled publicId limitRpm before)
    -- the anonymous limiter is called in the event loop, where a cancelled request does not come
    | some ⟨request, .limiting before, false⟩ => some (s.countAnonymous settings id request before)
    | _ => none
  | .cancel id =>
    match s.calls.get? id with
    | some ⟨_, .limiting _, _⟩ => some (s.drop id)
    | some call => some { s with calls := s.calls.set id { call with cancelled := true } }
    | none => none
  | .administer op =>
    if op.isAdministrative then some (s.withStore (s.gate.store.next hash op) [op]) else none

end GateState

/-! ### Decisions and the calls they rest on -/

/-- The store accepts the credential of the request as this key, with this limit. -/
def AuthenticatedAs (hash : SecretHash) (settings : AuthSettings) (store : ApiKeyStore) (request : GateRequest)
    (publicId : String) (limitRpm : Int) : Prop :=
  ∃ credential secret row, ChosenCredential request.authorization request.xApiKey credential ∧
    credential = apiKeyPrefix ++ publicId ++ "." ++ secret ∧ store.keys.get? publicId = some row ∧
      row.Accepts hash publicId secret request.authenticatedAt.val ∧
        limitRpm = row.rateLimitRpm.getD settings.apiKeyRateLimitRpm

section Decided

variable (hash : SecretHash) (settings : AuthSettings) (store₀ : ApiKeyStore) (limiter₀ : AnonymousRateLimiter)

/-- A key is accepted after these calls of the key store, among which is no delete of it. -/
structure AcceptedAfter (request : GateRequest) (publicId : String) (limitRpm : Int) (before : List KeyOp) : Prop where
  needed : needsCredential settings request = true
  accepted : ∃ store, run (ApiKeyStore.step hash) store₀ before = some store ∧
    AuthenticatedAs hash settings store request publicId limitRpm
  undeleted : ¬ Deleted publicId (store₀.history hash before)

/-- The request presents nothing, and the anonymous tier is open. -/
structure AnonymousAfter (request : GateRequest) : Prop where
  needed : needsCredential settings request = true
  enabled : settings.apiKeyUnauthAccessEnabled = true
  nothing : NothingPresented request.authorization request.xApiKey

/-- What a decision rests on, in terms of the calls of the key store and of the anonymous limiter. -/
inductive Decided (keyOps : List KeyOp) (seen : List AnonymousRequest) (request : GateRequest) : Verdict → Prop
  | unprotected (needless : needsCredential settings request = false) : Decided keyOps seen request .unprotected
  | unauthorized (reason : AuthFailureReason) (before : List KeyOp) (store : ApiKeyStore)
      (needed : needsCredential settings request = true) (ran : run (ApiKeyStore.step hash) store₀ before = some store)
      (earlier : before <+: keyOps)
      (failed : (authenticateRequestHeaders hash request.authorization request.xApiKey request.authenticatedAt
        store).1 = .failure reason)
      (closed : shouldAllowUnauthenticatedRequest reason settings = false) :
      Decided keyOps seen request (.unauthorized reason before)
  | keyed (publicId : String) (limitRpm : Int) (before counted : List KeyOp) (store store' : ApiKeyStore)
      (result : RateLimitResult) (accepted : AcceptedAfter hash settings store₀ request publicId limitRpm before)
      (order : before ++ request.keyOps <+: counted)
      (earlier : counted ++ [request.countOp publicId limitRpm] <+: keyOps)
      (ran : run (ApiKeyStore.step hash) store₀ counted = some store)
      (consumed : consumeRateLimit publicId limitRpm request.limitedAt store = .ok (result, store')) :
      Decided keyOps seen request (.keyed publicId limitRpm before counted result.allowed)
  | anonymous (before : List KeyOp) (before' : List AnonymousRequest) (limiter limiter' : AnonymousRateLimiter)
      (result : RateLimitResult) (accepted : AnonymousAfter settings request) (earlier : before <+: keyOps)
      (earlier' : before' ++ [request.anonymous] <+: seen)
      (ran : run (AnonymousRateLimiter.step settings.apiKeyUnauthMinIntervalSeconds) limiter₀ before' = some limiter)
      (consumed : limiter.consume settings.apiKeyUnauthMinIntervalSeconds request.anonymous = .ok (result, limiter')) :
      Decided keyOps seen request (.anonymous before before' result.allowed)
  /-- a key whose stored limit is not positive -/
  | raised (publicId : String) (limitRpm : Int) (before : List KeyOp) (earlier : before <+: keyOps)
      (accepted : AcceptedAfter hash settings store₀ request publicId limitRpm before) (invalid : limitRpm ≤ 0) :
      Decided keyOps seen request (.raised (.valueError "limit_rpm must be > 0"))

/-- What a request that waits rests on. -/
inductive Waiting (keyOps : List KeyOp) : GateCall → Prop
  | authenticating (request : GateRequest) (cancelled : Bool) (needed : needsCredential settings request = true) :
      Waiting keyOps ⟨request, .authenticating, cancelled⟩
  | counting (request : GateRequest) (cancelled : Bool) (publicId : String) (limitRpm : Int) (before : List KeyOp)
      (accepted : AcceptedAfter hash settings store₀ request publicId limitRpm before)
      (earlier : before ++ request.keyOps <+: keyOps) :
      Waiting keyOps ⟨request, .counting publicId limitRpm before, cancelled⟩
  | limiting (request : GateRequest) (cancelled : Bool) (before : List KeyOp)
      (accepted : AnonymousAfter settings request)
      (earlier : before <+: keyOps) : Waiting keyOps ⟨request, .limiting before, cancelled⟩

/-- What every step keeps. -/
structure GateState.Sound (s : GateState) : Prop where
  store : run (ApiKeyStore.step hash) store₀ s.keyOps = some s.gate.store
  limiter : run (AnonymousRateLimiter.step settings.apiKeyUnauthMinIntervalSeconds) limiter₀ s.seen =
    some s.gate.limiter
  waiting : ∀ id call, s.calls.get? id = some call → Waiting hash settings store₀ s.keyOps call
  decided : ∀ d ∈ s.decided, Decided hash settings store₀ limiter₀ s.keyOps s.seen d.request d.verdict
  order : s.decided.Pairwise Decision.Later

end Decided

section Sound

variable {hash : SecretHash} {settings : AuthSettings} {store₀ store : ApiKeyStore} {limiter₀ : AnonymousRateLimiter}
  {s s' : GateState} {keyOps keyOps' : List KeyOp} {seen seen' : List AnonymousRequest} {request : GateRequest}

/-! ### What more calls keep -/

private theorem Decided.mono {verdict : Verdict} (h : Decided hash settings store₀ limiter₀ keyOps seen request verdict)
    (hops : keyOps <+: keyOps') (hseen : seen <+: seen') :
    Decided hash settings store₀ limiter₀ keyOps' seen' request verdict := by
  cases h with
  | unprotected needless => exact .unprotected needless
  | unauthorized reason before store needed ran earlier failed closed =>
    exact .unauthorized reason before store needed ran (earlier.trans hops) failed closed
  | keyed publicId limitRpm before counted store store' result accepted order earlier ran consumed =>
    exact .keyed publicId limitRpm before counted store store' result accepted order (earlier.trans hops) ran consumed
  | anonymous before before' limiter limiter' result accepted earlier earlier' ran consumed =>
    exact .anonymous before before' limiter limiter' result accepted (earlier.trans hops) (earlier'.trans hseen) ran
      consumed
  | raised publicId limitRpm before earlier accepted invalid =>
    exact .raised publicId limitRpm before (earlier.trans hops) accepted invalid

private theorem Waiting.mono
    {call : GateCall} (h : Waiting hash settings store₀ keyOps call) (hops : keyOps <+: keyOps') :
    Waiting hash settings store₀ keyOps' call := by
  cases h with
  | authenticating request cancelled needed => exact .authenticating request cancelled needed
  | counting request cancelled publicId limitRpm before accepted earlier =>
    exact .counting request cancelled publicId limitRpm before accepted (earlier.trans hops)
  | limiting request cancelled before accepted earlier =>
    exact .limiting request cancelled before accepted (earlier.trans hops)

/-! ### What the calls of a request do -/

/-- A delete of a key that was there leaves it revoked. -/
private theorem revoked_of_deleted {publicId : String} {ops : List KeyOp}
    (hrun : run (ApiKeyStore.step hash) store₀ ops = some store) (h : Deleted publicId (store₀.history hash ops)) :
    ∃ row, store.keys.get? publicId = some row ∧ row.revokedAt.isSome := by
  induction ops generalizing store₀ with
  | nil =>
    obtain ⟨event, hmem, -⟩ := h
    cases hmem
  | cons op ops ih =>
    obtain ⟨store₁, hstep, hrun⟩ := run_cons.1 hrun
    obtain rfl : store₀.next hash op = store₁ := Option.some.inj hstep
    obtain hdeletes | h := deleted_cons.1 h
    · have heffect := @ApiKeyStore.next_effect hash store₀ op publicId
      generalize store₀.keys.get? publicId = before at heffect
      generalize hafter : (store₀.next hash op).keys.get? publicId = after at heffect
      generalize store₀.reply hash op = reply at heffect hdeletes
      cases heffect with
      | kept _ _ undeleted _ =>
        rw [undeleted] at hdeletes
        cases hdeletes
      | issued => cases hdeletes
      | touched => cases hdeletes
      | limited => cases hdeletes
      | revoked reason now row result _ _ =>
        -- the row is revoked, and stays so
        obtain ⟨row', hrow', hfollows⟩ := ApiKeyStore.row_of_history hafter hrun
        exact ⟨row', hrow', hfollows.revoked.2 (.inl rfl)⟩
    · exact ih hrun h

/-- The calls of the key store that authenticate a request. -/
private theorem run_keyOps (request : GateRequest) (store : ApiKeyStore) :
    run (ApiKeyStore.step hash) store request.keyOps =
      some (authenticateRequestHeaders hash request.authorization request.xApiKey request.authenticatedAt store).2 := by
  unfold GateRequest.keyOps authenticateRequestHeaders
  cases parseBearerCredential request.authorization with
  | ok credential => rfl
  | error reason =>
    dsimp only
    cases request.xApiKey with
    | none => rfl
    | some text =>
      dsimp only
      by_cases hblank : strip text.toList ≠ []
      · rw [if_pos hblank, if_pos hblank]
        rfl
      · rw [if_neg hblank, if_neg hblank]
        rfl

private theorem authenticatedAs_of_success {publicId label : String} {limit : Option Int}
    (h : (authenticateRequestHeaders hash request.authorization request.xApiKey request.authenticatedAt store).1 =
      .success publicId label limit) :
    AuthenticatedAs hash settings store request publicId (limit.getD settings.apiKeyRateLimitRpm) := by
  obtain ⟨credential, hchosen, heq⟩ | ⟨reason, -, -, heq⟩ := authenticateRequestHeaders_cases hash
    request.authorization request.xApiKey request.authenticatedAt store
  · rw [heq] at h
    obtain ⟨secret, row, hparse, hrow, haccepts, -, hlimit⟩ := authenticateKey_success.1 h
    obtain ⟨hkey, -, -⟩ := parseKey_eq_some.1 hparse
    exact ⟨credential, secret, row, hchosen, hkey, hrow, haccepts, by rw [hlimit]⟩
  · rw [heq] at h
    cases h

/-- An accepted key was not deleted before. -/
private theorem acceptedAfter_of_success {publicId label : String} {limit : Option Int} {before : List KeyOp}
    (hneeded : needsCredential settings request = true) (hrun : run (ApiKeyStore.step hash) store₀ before = some store)
    (h : (authenticateRequestHeaders hash request.authorization request.xApiKey request.authenticatedAt store).1 =
      .success publicId label limit) :
    AcceptedAfter hash settings store₀ request publicId (limit.getD settings.apiKeyRateLimitRpm) before := by
  have haccepted := @authenticatedAs_of_success hash settings store request publicId label limit h
  refine ⟨hneeded, ⟨store, hrun, haccepted⟩, fun hdeleted => ?_⟩
  obtain ⟨credential, secret, row, -, -, hrow, haccepts, -⟩ := haccepted
  obtain ⟨row', hrow', hrevoked⟩ := revoked_of_deleted hrun hdeleted
  rw [hrow] at hrow'
  cases hrow'
  rw [haccepts.notRevoked] at hrevoked
  cases hrevoked

/-! ### What each part of a step keeps -/

private theorem GateState.Sound.withStore {ops : List KeyOp} (h : s.Sound hash settings store₀ limiter₀)
    (hrun : run (ApiKeyStore.step hash) s.gate.store ops = some store) :
    (s.withStore store ops).Sound hash settings store₀ limiter₀ where
  store := run_append.2 ⟨s.gate.store, h.store, hrun⟩
  limiter := h.limiter
  waiting id call hcall := (h.waiting id call hcall).mono (List.prefix_append _ _)
  decided d hd := (h.decided d hd).mono (List.prefix_append _ _) (List.prefix_refl _)
  order := h.order

private theorem GateState.Sound.drop (h : s.Sound hash settings store₀ limiter₀) (id : Nat) :
    (s.drop id).Sound hash settings store₀ limiter₀ where
  store := h.store
  limiter := h.limiter
  waiting k call hcall := h.waiting k call (Dict.get?_pop_imp hcall)
  decided := h.decided
  order := h.order

private theorem GateState.Sound.settle {verdict : Verdict} (h : s.Sound hash settings store₀ limiter₀) (id : Nat)
    (hverdict : Decided hash settings store₀ limiter₀ s.keyOps s.seen request verdict)
    (hlater : ∀ d ∈ s.decided, Decision.Later ⟨id, request, verdict⟩ d) :
    (s.settle id request verdict).Sound hash settings store₀ limiter₀ where
  store := h.store
  limiter := h.limiter
  waiting k call hcall := h.waiting k call (Dict.get?_pop_imp hcall)
  decided := List.forall_mem_cons.2 ⟨hverdict, h.decided⟩
  order := List.pairwise_cons.2 ⟨hlater, h.order⟩

/-- The calls before a decision were fewer than there are now. -/
private theorem GateState.Sound.counted_lt {d : Decision} {c : List KeyOp} (h : s.Sound hash settings store₀ limiter₀)
    (hd : d ∈ s.decided) (hc : c ∈ d.counted) : c.length < s.keyOps.length := by
  have hdecided := h.decided d hd
  obtain ⟨id, request, verdict⟩ := d
  cases hdecided with
  | keyed publicId limitRpm before counted store store' result accepted order earlier ran consumed =>
    cases hc
    have hlength := earlier.length_le
    rw [List.length_append, List.length_singleton] at hlength
    omega
  | unprotected => cases hc
  | unauthorized => cases hc
  | anonymous => cases hc
  | raised => cases hc

private theorem GateState.Sound.seen_lt {d : Decision} {a : List AnonymousRequest}
    (h : s.Sound hash settings store₀ limiter₀) (hd : d ∈ s.decided) (ha : a ∈ d.seen) : a.length < s.seen.length := by
  have hdecided := h.decided d hd
  obtain ⟨id, request, verdict⟩ := d
  cases hdecided with
  | anonymous before before' limiter limiter' result accepted earlier earlier' ran consumed =>
    cases ha
    have hlength := earlier'.length_le
    rw [List.length_append, List.length_singleton] at hlength
    omega
  | unprotected => cases ha
  | unauthorized => cases ha
  | keyed => cases ha
  | raised => cases ha

/-- Another stage, or another mark, of a call. -/
theorem GateState.Sound.set {call : GateCall} (h : s.Sound hash settings store₀ limiter₀) (id : Nat)
    (hcall : Waiting hash settings store₀ s.keyOps call) :
    ({ s with calls := s.calls.set id call } : GateState).Sound hash settings store₀ limiter₀ where
  store := h.store
  limiter := h.limiter
  waiting k call' hcall' := by
    have hcall' : (s.calls.set id call).get? k = some call' := hcall'
    rw [Dict.get?_set] at hcall'
    split at hcall'
    · cases hcall'
      exact hcall
    · exact h.waiting k call' hcall'
  decided := h.decided
  order := h.order

private theorem GateState.Sound.authenticated {id : Nat} {before : List KeyOp} {result : AuthResult}
    (h : s.Sound hash settings store₀ limiter₀) (hneeded : needsCredential settings request = true)
    (hrun : run (ApiKeyStore.step hash) store₀ before = some store) (hearlier : before ++ request.keyOps <+: s.keyOps)
    (hresult : (authenticateRequestHeaders hash request.authorization request.xApiKey request.authenticatedAt store).1 =
      result) : (s.authenticated settings id request before result).Sound hash settings store₀ limiter₀ := by
  have hbefore : before <+: s.keyOps := (List.prefix_append _ _).trans hearlier
  cases result with
  | success publicId label limit =>
    exact h.set id (.counting request false publicId _ before (acceptedAfter_of_success hneeded hrun hresult) hearlier)
  | failure reason =>
    simp only [GateState.authenticated]
    by_cases hallowed : shouldAllowUnauthenticatedRequest reason settings
    · rw [if_pos hallowed]
      obtain ⟨henabled, rfl⟩ : settings.apiKeyUnauthAccessEnabled ∧ reason = .missingAuthorization := by
        simpa [shouldAllowUnauthenticatedRequest] using hallowed
      exact h.set id (.limiting request false before
        ⟨hneeded, henabled, authenticateRequestHeaders_missing.1 hresult⟩ hbefore)
    · rw [if_neg hallowed]
      refine h.settle id (.unauthorized reason before store hneeded hrun hbefore hresult (by simpa using hallowed)) ?_
      exact fun d _ => Decision.later_of_none rfl rfl d

private theorem GateState.Sound.authenticate {id : Nat} {cancelled : Bool} (h : s.Sound hash settings store₀ limiter₀)
    (hneeded : needsCredential settings request = true) :
    (s.authenticate hash settings id request cancelled).Sound hash settings store₀ limiter₀ := by
  have hdone := h.withStore (run_keyOps request s.gate.store)
  unfold GateState.authenticate
  dsimp only
  by_cases hcancelled : cancelled = true
  · rw [if_pos hcancelled]
    exact hdone.drop id
  · rw [if_neg hcancelled]
    exact hdone.authenticated hneeded h.store (List.prefix_refl _) rfl

/-- A key is counted. -/
private theorem GateState.Sound.countKey {id : Nat} {cancelled : Bool} {publicId : String} {limitRpm : Int}
    {before : List KeyOp} (h : s.Sound hash settings store₀ limiter₀)
    (haccepted : AcceptedAfter hash settings store₀ request publicId limitRpm before)
    (hearlier : before ++ request.keyOps <+: s.keyOps) :
    (s.countKey id request cancelled publicId limitRpm before).Sound hash settings store₀ limiter₀ := by
  unfold GateState.countKey
  cases hconsume : consumeRateLimit publicId limitRpm request.limitedAt s.gate.store with
  | error exc =>
    dsimp only
    by_cases hcancelled : cancelled = true
    · rw [if_pos hcancelled]
      exact h.drop id
    · rw [if_neg hcancelled]
      have hinvalid : limitRpm ≤ 0 ∧ exc = .valueError "limit_rpm must be > 0" := by
        unfold consumeRateLimit at hconsume
        split at hconsume
        · rename_i hinvalid
          exact ⟨hinvalid, (Except.error.inj hconsume).symm⟩
        · cases hconsume
      obtain ⟨hinvalid, rfl⟩ := hinvalid
      have hbefore : before <+: s.keyOps := (List.prefix_append _ _).trans hearlier
      refine h.settle id (.raised publicId limitRpm before hbefore haccepted hinvalid) ?_
      exact fun d _ => Decision.later_of_none rfl rfl d
  | ok pair =>
    obtain ⟨result, store'⟩ := pair
    have hcall : s.gate.store.call hash (request.countOp publicId limitRpm) = .ok (.consumed result, store') := by
      show (consumeRateLimit publicId limitRpm request.limitedAt s.gate.store).map _ = _
      rw [hconsume]
      rfl
    have hrun : run (ApiKeyStore.step hash) s.gate.store [request.countOp publicId limitRpm] = some store' :=
      run_cons.2 ⟨_, rfl, congrArg some (ApiKeyStore.next_of_ok hcall)⟩
    have hdone := h.withStore hrun
    dsimp only
    by_cases hcancelled : cancelled = true
    · rw [if_pos hcancelled]
      exact hdone.drop id
    · rw [if_neg hcancelled]
      refine hdone.settle id (.keyed publicId limitRpm before s.keyOps s.gate.store store' result haccepted hearlier
        (List.prefix_refl _) h.store hconsume) fun d hd => ⟨fun c hc c' hc' => ?_, fun a ha => ?_⟩
      · cases hc
        exact h.counted_lt hd hc'
      · cases ha

/-- An anonymous request is counted. -/
private theorem GateState.Sound.countAnonymous
    {id : Nat} {before : List KeyOp} (h : s.Sound hash settings store₀ limiter₀)
    (haccepted : AnonymousAfter settings request) (hearlier : before <+: s.keyOps) :
    (s.countAnonymous settings id request before).Sound hash settings store₀ limiter₀ := by
  unfold GateState.countAnonymous
  cases hconsume : s.gate.limiter.consume settings.apiKeyUnauthMinIntervalSeconds request.anonymous with
  | error exc =>
    -- the interval of the settings is positive
    have hpos := settings.limitsPositive.2
    unfold AnonymousRateLimiter.consume at hconsume
    rw [if_neg (by omega)] at hconsume
    cases hconsume
  | ok pair =>
    obtain ⟨result, limiter'⟩ := pair
    have hstep : s.gate.limiter.step settings.apiKeyUnauthMinIntervalSeconds request.anonymous = some limiter' := by
      unfold AnonymousRateLimiter.step
      rw [hconsume]
    let counted : GateState :=
      { s with gate := { s.gate with limiter := limiter' }, seen := s.seen ++ [request.anonymous] }
    have hdone : counted.Sound hash settings store₀ limiter₀ := by
      refine ⟨h.store, run_append.2 ⟨s.gate.limiter, h.limiter, run_cons.2 ⟨limiter', hstep, rfl⟩⟩, h.waiting, ?_,
        h.order⟩
      exact fun d hd => (h.decided d hd).mono (List.prefix_refl _) (List.prefix_append _ _)
    refine hdone.settle id (.anonymous before s.seen s.gate.limiter limiter' result haccepted hearlier
      (List.prefix_refl _) h.limiter hconsume) fun d hd => ⟨fun c hc => ?_, fun a ha a' ha' => ?_⟩
    · cases hc
    · cases ha
      exact h.seen_lt hd ha'

theorem GateState.Sound.step {event : GateEvent} (h : s.Sound hash settings store₀ limiter₀)
    (hstep : s.step hash settings event = some s') : s'.Sound hash settings store₀ limiter₀ := by
  cases event with
  | arrive id request =>
    simp only [GateState.step] at hstep
    split at hstep
    · by_cases hneeded : needsCredential settings request = true
      · rw [if_pos hneeded] at hstep
        cases hstep
        exact h.set id (.authenticating request false hneeded)
      · rw [if_neg hneeded] at hstep
        cases hstep
        exact h.settle id (.unprotected (by simpa using hneeded)) fun d _ => Decision.later_of_none rfl rfl d
    · cases hstep
  | authenticate id =>
    simp only [GateState.step] at hstep
    split at hstep
    · rename_i request cancelled hcall
      cases hstep
      cases h.waiting id _ hcall with
      | authenticating _ _ needed => exact h.authenticate needed
    · cases hstep
  | count id =>
    simp only [GateState.step] at hstep
    split at hstep
    · rename_i request publicId limitRpm before cancelled hcall
      cases hstep
      cases h.waiting id _ hcall with
      | counting _ _ _ _ _ accepted earlier => exact h.countKey accepted earlier
    · rename_i request before hcall
      cases hstep
      cases h.waiting id _ hcall with
      | limiting _ _ _ accepted earlier => exact h.countAnonymous accepted earlier
    · cases hstep
  | cancel id =>
    simp only [GateState.step] at hstep
    split at hstep
    · cases hstep
      exact h.drop id
    · rename_i call _ hcall
      cases hstep
      refine h.set id ?_
      cases h.waiting id call hcall with
      | authenticating request _ needed => exact .authenticating request true needed
      | counting request _ publicId limitRpm before accepted earlier =>
        exact .counting request true publicId limitRpm before accepted earlier
      | limiting request _ before accepted earlier => exact .limiting request true before accepted earlier
    · cases hstep
  | administer op =>
    simp only [GateState.step] at hstep
    split at hstep
    · cases hstep
      exact h.withStore (run_cons.2 ⟨_, rfl, rfl⟩)
    · cases hstep

private theorem GateState.new_sound (hash : SecretHash) (settings : AuthSettings) (store₀ : ApiKeyStore)
    (limiter₀ : AnonymousRateLimiter) : (GateState.new store₀ limiter₀).Sound hash settings store₀ limiter₀ := by
  refine ⟨rfl, rfl, fun id call hcall => ?_, fun d hd => ?_, .nil⟩
  · cases hcall
  · cases hd

/-! ### Counts -/

/-- The calls that count a key. -/
def rateCalls (ops : List KeyOp) : List RateCall :=
  ops.filterMap fun op =>
    match op with
    | .consumeRateLimit publicId limitRpm now => some ⟨publicId, limitRpm, now⟩
    | _ => none

private theorem rateCalls_append (ops ops' : List KeyOp) : rateCalls (ops ++ ops') = rateCalls ops ++ rateCalls ops' :=
  List.filterMap_append

/-- The other calls of the key store leave the windows as they are. -/
private theorem next_windows {op : KeyOp} (h : rateCalls [op] = []) : (store.next hash op).windows = store.windows := by
  cases op with
  | issueKey material label now =>
    cases hcall : store.call hash (.issueKey material label now) with
    | error exc => rw [ApiKeyStore.next_of_error hcall]
    | ok pair =>
      obtain ⟨reply, store'⟩ := pair
      rw [ApiKeyStore.next_of_ok hcall]
      obtain ⟨⟨result, _⟩, hissue, hpair⟩ := Eff.except_map_eq_ok.1 hcall
      cases hpair
      obtain ⟨normalized, -, hissue⟩ := Eff.except_bind_eq_ok.1 hissue
      dsimp only at hissue
      split at hissue
      · cases hissue
      · cases hissue
        rfl
  | authenticateKey key now =>
    show (authenticateKey hash key now store).2.windows = store.windows
    obtain ⟨_, _, _, -, -, -, heq⟩ | ⟨⟨_, -, heq⟩, -⟩ := @authenticateKey_cases hash key now store
    · rw [heq]
    · rw [heq]
  | deleteKey publicId reason now =>
    show (deleteKey publicId reason now store).2.windows = store.windows
    unfold deleteKey
    cases store.keys.get? publicId with
    | none => rfl
    | some row =>
      dsimp only
      cases row.revokedAt <;> rfl
  | setKeyRateLimit publicId rateLimitRpm =>
    cases hcall : store.call hash (.setKeyRateLimit publicId rateLimitRpm) with
    | error exc => rw [ApiKeyStore.next_of_error hcall]
    | ok pair =>
      obtain ⟨reply, store'⟩ := pair
      rw [ApiKeyStore.next_of_ok hcall]
      obtain ⟨⟨updated, _⟩, hset, hpair⟩ := Eff.except_map_eq_ok.1 hcall
      cases hpair
      unfold setKeyRateLimit at hset
      split at hset
      · cases hset
      · obtain ⟨bound, -, hset⟩ := Eff.except_bind_eq_ok.1 hset
        cases hrow : store.keys.get? publicId with
        | none =>
          rw [hrow] at hset
          cases hset
          rfl
        | some row =>
          rw [hrow] at hset
          cases hset
          rfl
  | consumeRateLimit publicId limitRpm now => cases h
  | listKeys includeRevoked => rfl

private theorem callsIn_mono {ops ops' : List KeyOp} (h : ops <+: ops') (publicId : String) (window : Int) :
    (callsIn (rateCalls ops) publicId window).length ≤ (callsIn (rateCalls ops') publicId window).length :=
  ((h.filterMap _).filter _).length_le

private theorem NeverFarBehind.of_prefix
    {calls calls' : List RateCall} (h : NeverFarBehind calls') (hp : calls <+: calls') :
    NeverFarBehind calls :=
  List.Pairwise.sublist (hp.sublist.filter _) h

/-- The store counts the calls of a run, whatever else is called. -/
private theorem counts_of_run
    {store' : ApiKeyStore} {earlier : List RateCall} {ops : List KeyOp} (h : Counts store earlier)
    (hfar : NeverFarBehind (earlier ++ rateCalls ops)) (hrun : run (ApiKeyStore.step hash) store ops = some store') :
    Counts store' (earlier ++ rateCalls ops) := by
  induction ops generalizing store earlier with
  | nil =>
    obtain rfl : store = store' := Option.some.inj hrun
    rw [show rateCalls [] = [] from rfl, List.append_nil]
    exact h
  | cons op ops ih =>
    obtain ⟨store₁, hstep, hrun⟩ := run_cons.1 hrun
    obtain rfl : store.next hash op = store₁ := Option.some.inj hstep
    have hsplit : earlier ++ rateCalls (op :: ops) = earlier ++ rateCalls [op] ++ rateCalls ops := by
      rw [← List.singleton_append, rateCalls_append, List.append_assoc]
    rw [hsplit] at hfar ⊢
    refine ih ?_ hfar hrun
    cases hcalls : rateCalls [op] with
    | nil =>
      rw [List.append_nil]
      unfold Counts
      rw [next_windows hcalls]
      exact h
    | cons call rest =>
      cases op with
      | consumeRateLimit publicId limitRpm now =>
        cases hcalls
        have hnext : store.next hash (.consumeRateLimit publicId limitRpm now) =
            (⟨publicId, limitRpm, now⟩ : RateCall).apply store := by
          unfold ApiKeyStore.next ApiKeyStore.call RateCall.apply
          dsimp only
          cases consumeRateLimit publicId limitRpm now store <;> rfl
        rw [hnext]
        exact h.apply (NeverFarBehind.of_prefix hfar (List.prefix_append _ _)).last.2
      | issueKey => cases hcalls
      | authenticateKey => cases hcalls
      | deleteKey => cases hcalls
      | setKeyRateLimit => cases hcalls
      | listKeys => cases hcalls

/-! ### Quotas -/

/-- A decision with a key is positive exactly if the calls before have left room in its window. -/
private theorem allowed_iff_room
    {keys : Dict String ApiKeyRow} {nextCleanupTs : Int} {publicId : String} {limitRpm : Int}
    {counted : List KeyOp} {result : RateLimitResult} {store' : ApiKeyStore}
    (hfar : NeverFarBehind (rateCalls (counted ++ [request.countOp publicId limitRpm])))
    (hrun : run (ApiKeyStore.step hash) ⟨keys, .empty, nextCleanupTs⟩ counted = some store)
    (hconsume : consumeRateLimit publicId limitRpm request.limitedAt store = .ok (result, store')) :
    result.allowed = true ↔ ((callsIn (rateCalls counted) publicId request.window).length : Int) < limitRpm := by
  let call : RateCall := ⟨publicId, limitRpm, request.limitedAt⟩
  have hcounted : call.Counted := by
    unfold consumeRateLimit at hconsume
    split at hconsume
    · cases hconsume
    · rename_i hpos
      exact Int.not_le.1 hpos
  rw [rateCalls_append] at hfar
  obtain ⟨hbefore, hlast⟩ := @NeverFarBehind.last (rateCalls counted) call hfar
  have hempty : Counts ⟨keys, .empty, nextCleanupTs⟩ [] := fun _ _ _ => rfl
  have hcounts : Counts store (rateCalls counted) := counts_of_run hempty hbefore hrun
  obtain ⟨result', _, hconsume', hcount, hallowed, -⟩ := consumeRateLimit_counted store hcounted
  obtain rfl : result' = result := by
    rw [hconsume] at hconsume'
    cases hconsume'
    rfl
  rw [hallowed, hcount, hcounts publicId call.window (hlast hcounted)]
  exact Int.add_one_le_iff

/-- A decision without a key is positive exactly for the first request of a client in a window. -/
private theorem allowed_iff_first {interval nextCleanupTs : Int} {before : List AnonymousRequest} {r : AnonymousRequest}
    {limiter limiter' : AnonymousRateLimiter} {result : RateLimitResult} (hpos : 1 ≤ interval)
    (hsorted : NonDecreasing (before ++ [r]))
    (hrun : run (AnonymousRateLimiter.step interval) (.new nextCleanupTs) before = some limiter)
    (hconsume : limiter.consume interval r = .ok (result, limiter')) :
    result.allowed = true ↔ inWindow interval before r = [] := by
  obtain ⟨hbefore, -, hlast⟩ := List.pairwise_append.1 hsorted
  have hrepresents := represents_of_run_new hpos hbefore hrun
  obtain ⟨_, hconsume', -⟩ :=
    consume_of_represents hpos (fun a ha => hlast a ha r (List.mem_singleton_self r)) hrepresents
  rw [hconsume] at hconsume'
  cases hconsume'
  rw [← List.length_eq_zero_iff]
  simp only [anonymousResult, decide_eq_true_eq]
  omega

/-- A strictly decreasing list of numbers below a bound is no longer than the bound. -/
private theorem length_le_of_decreasing {α : Type} {f : α → Nat} {n : Nat} {l : List α}
    (hl : l.Pairwise fun a b => f b < f a) (hf : ∀ a ∈ l, f a < n) : l.length ≤ n := by
  induction l generalizing n with
  | nil => exact Nat.zero_le n
  | cons a l ih =>
    obtain ⟨hhead, hl⟩ := List.pairwise_cons.1 hl
    have hlength := ih hl hhead
    have hbound := hf a List.mem_cons_self
    rw [List.length_cons]
    omega

variable {d : Decision} {publicId : String} {window : Int}

/-- What a decision that lets a key through rests on. -/
private theorem passesWith_cases (h : s.Sound hash settings store₀ limiter₀) (hd : d ∈ s.decided)
    (hpasses : d.passesWith publicId window = true) :
    ∃ limitRpm counted, d.limitRpm = limitRpm ∧ d.counted = some counted ∧ d.request.window = window ∧
      counted ++ [d.request.countOp publicId limitRpm] <+: s.keyOps ∧
        ∃ store store' result, run (ApiKeyStore.step hash) store₀ counted = some store ∧ result.allowed = true ∧
          consumeRateLimit publicId limitRpm d.request.limitedAt store = .ok (result, store') := by
  have hdecided := h.decided d hd
  obtain ⟨id, request, verdict⟩ := d
  cases hdecided with
  | keyed publicId' limitRpm before counted store store' result accepted order earlier ran consumed =>
    obtain ⟨⟨hallowed, rfl⟩, hwindow⟩ : (result.allowed = true ∧ publicId' = publicId) ∧ request.window = window := by
      simpa [Decision.passesWith] using hpasses
    exact ⟨limitRpm, counted, rfl, rfl, hwindow, earlier, store, store', result, ran, hallowed, consumed⟩
  | unprotected => cases hpasses
  | unauthorized => cases hpasses
  | anonymous => cases hpasses
  | raised => cases hpasses

/-- What passes with a key in a window is within every bound of its limits. -/
private theorem keyed_quota {keys : Dict String ApiKeyRow} {nextCleanupTs : Int} {limit : Nat}
    (h : s.Sound hash settings ⟨keys, .empty, nextCleanupTs⟩ limiter₀) (hfar : NeverFarBehind (rateCalls s.keyOps))
    (hlimit : ∀ d ∈ s.decided, d.passesWith publicId window = true → d.limitRpm ≤ limit) :
    (s.decided.filter (·.passesWith publicId window)).length ≤ limit := by
  let place (d : Decision) : Nat := (callsIn (rateCalls (d.counted.getD [])) publicId window).length
  refine length_le_of_decreasing (f := place) ?_ fun d hmem => ?_
  · refine List.Pairwise.imp_of_mem (fun {newer older} hnewer holder hlater => ?_) (h.order.filter _)
    obtain ⟨hnewer, hpasses⟩ := List.mem_filter.1 hnewer
    obtain ⟨holder, hpasses'⟩ := List.mem_filter.1 holder
    obtain ⟨_, counted, -, hcounted, -, hbegins, -⟩ := passesWith_cases h hnewer hpasses
    obtain ⟨limitRpm', counted', -, hcounted', hwindow', hbegins', store', _, result', -, -, hconsume'⟩ :=
      passesWith_cases h holder hpasses'
    have hlength := hlater.counted counted hcounted counted' hcounted'
    -- the call that counted the older decision is among the calls before the newer one
    have hbetween : counted' ++ [older.request.countOp publicId limitRpm'] <+: counted := by
      refine List.prefix_of_prefix_length_le hbegins' ((List.prefix_append _ _).trans hbegins) ?_
      rw [List.length_append, List.length_singleton]
      omega
    have hpos : 0 < limitRpm' := by
      unfold consumeRateLimit at hconsume'
      split at hconsume'
      · cases hconsume'
      · rename_i hpos
        exact Int.not_le.1 hpos
    have hone : (callsIn (rateCalls (counted' ++ [older.request.countOp publicId limitRpm'])) publicId window).length =
        (callsIn (rateCalls counted') publicId window).length + 1 := by
      have hsame : (⟨publicId, limitRpm', older.request.limitedAt⟩ : RateCall).window = window := hwindow'
      rw [rateCalls_append]
      refine (callsIn_append _ ⟨publicId, limitRpm', older.request.limitedAt⟩ publicId window).trans ?_
      rw [if_pos ⟨hpos, rfl, hsame⟩]
    have hle := callsIn_mono hbetween publicId window
    show (callsIn (rateCalls (older.counted.getD [])) publicId window).length <
      (callsIn (rateCalls (newer.counted.getD [])) publicId window).length
    rw [hcounted, hcounted', Option.getD_some, Option.getD_some]
    omega
  · obtain ⟨hd, hpasses⟩ := List.mem_filter.1 hmem
    obtain ⟨limitRpm, counted, hlimitRpm, hcounted, hwindow, hbegins, store, store', result, hrun, hallowed,
        hconsume⟩ :=
      passesWith_cases h hd hpasses
    have hroom := (allowed_iff_room (hfar.of_prefix (hbegins.filterMap _)) hrun hconsume).1 hallowed
    have hbound := hlimit d hd hpasses
    show (callsIn (rateCalls (d.counted.getD [])) publicId window).length < limit
    rw [hcounted, ← hwindow]
    rw [hlimitRpm] at hbound
    exact Int.ofNat_lt.1 (hroom.trans_le hbound)

variable {client : String} {start : Int}

/-- What a decision that lets a request through without a key rests on. -/
private theorem passesAnonymously_cases {nextCleanupTs : Int} (h : s.Sound hash settings store₀ (.new nextCleanupTs))
    (hsorted : NonDecreasing s.seen) (hd : d ∈ s.decided)
    (hpasses : d.passesAnonymously settings.apiKeyUnauthMinIntervalSeconds client start = true) :
    ∃ before, d.seen = some before ∧ before ++ [d.request.anonymous] <+: s.seen ∧
      d.request.anonymous.bucketKey = client ∧
        windowStart settings.apiKeyUnauthMinIntervalSeconds d.request.anonymous.now = start ∧
          inWindow settings.apiKeyUnauthMinIntervalSeconds before d.request.anonymous = [] := by
  have hdecided := h.decided d hd
  obtain ⟨id, request, verdict⟩ := d
  cases hdecided with
  | anonymous before before' limiter limiter' result accepted earlier earlier' ran consumed =>
    obtain ⟨⟨hallowed, hclient⟩, hstart⟩ : (result.allowed = true ∧ request.anonymous.bucketKey = client) ∧
        windowStart settings.apiKeyUnauthMinIntervalSeconds request.anonymous.now = start := by
      simpa [Decision.passesAnonymously] using hpasses
    have hfirst := allowed_iff_first settings.limitsPositive.2 (hsorted.sublist earlier'.sublist) ran consumed
    exact ⟨before', rfl, earlier', hclient, hstart, hfirst.1 hallowed⟩
  | unprotected => cases hpasses
  | unauthorized => cases hpasses
  | keyed => cases hpasses
  | raised => cases hpasses

/-- A client passes once in a window. -/
private theorem anonymous_quota {nextCleanupTs : Int} (h : s.Sound hash settings store₀ (.new nextCleanupTs))
    (hsorted : NonDecreasing s.seen) :
    (s.decided.filter (·.passesAnonymously settings.apiKeyUnauthMinIntervalSeconds client start)).length ≤ 1 := by
  refine length_le_of_decreasing (f := fun _ => 0) ?_ fun d _ => Nat.zero_lt_one
  refine List.Pairwise.imp_of_mem (fun {newer older} hnewer holder hlater => ?_) (h.order.filter _)
  obtain ⟨hnewer, hpasses⟩ := List.mem_filter.1 hnewer
  obtain ⟨holder, hpasses'⟩ := List.mem_filter.1 holder
  obtain ⟨before, hseen, hbegins, hclient, hstart, hfirst⟩ := passesAnonymously_cases h hsorted hnewer hpasses
  obtain ⟨before', hseen', hbegins', hclient', hstart', -⟩ := passesAnonymously_cases h hsorted holder hpasses'
  have hlength := hlater.seen before hseen before' hseen'
  -- the older request is one of its client in the window
  have hbetween : before' ++ [older.request.anonymous] <+: before := by
    refine List.prefix_of_prefix_length_le hbegins' ((List.prefix_append _ _).trans hbegins) ?_
    rw [List.length_append, List.length_singleton]
    omega
  have hmem : older.request.anonymous ∈
      inWindow settings.apiKeyUnauthMinIntervalSeconds before newer.request.anonymous := by
    refine List.mem_filter.2 ⟨mem_ofClient.2 ⟨hbetween.subset (by simp), hclient'.trans hclient.symm⟩, ?_⟩
    rw [hstart, hstart', decide_eq_true_eq]
  rw [hfirst] at hmem
  cases hmem

end Sound

/-! ### A request alone -/

section Alone

variable {hash : SecretHash} {settings : AuthSettings} {s : GateState} {id : Nat} {request : GateRequest}

/-- The steps of one request lead to this outcome, with one more decision. -/
def GateState.LeadsTo (hash : SecretHash) (settings : AuthSettings) (s : GateState) (id : Nat) (request : GateRequest)
    (outcome : GateOutcome) : Prop :=
  ∃ events s' verdict, run (GateState.step hash settings) s events = some s' ∧
    (∀ event ∈ events, event.callId = some id) ∧ s'.gate = outcome.gate ∧
      s'.decided = ⟨id, request, verdict⟩ :: s.decided ∧
        (verdict.passes = true ↔ ∃ limit, outcome.answer = .ok (none, limit))

/-- The answer lets the request through exactly if the count does. -/
private theorem limitedAnswer_passes {message requestId : String} {result : RateLimitResult} :
    (∃ limit, (.ok (limitedAnswer message requestId result) : Except Exn (Option ErrorResponse × _)) =
      .ok (none, limit)) ↔ result.allowed = true := by
  unfold limitedAnswer
  by_cases hallowed : result.allowed = true
  · rw [if_pos hallowed]
    exact ⟨fun _ => hallowed, fun _ => ⟨some result, rfl⟩⟩
  · rw [if_neg hallowed]
    refine ⟨?_, fun h => absurd h hallowed⟩
    rintro ⟨limit, hanswer⟩
    cases hanswer

private theorem GateState.step_await_authenticate (s : GateState) :
    (s.await id request .authenticating).step hash settings (.authenticate id) =
      some ((s.await id request .authenticating).authenticate hash settings id request false) := by
  simp only [GateState.step, GateState.await, Dict.get?_set_self]

private theorem GateState.step_await_counting
    (s : GateState) {publicId : String} {limitRpm : Int} {before : List KeyOp} :
    (s.await id request (.counting publicId limitRpm before)).step hash settings (.count id) =
      some ((s.await id request (.counting publicId limitRpm before)).countKey id request false publicId limitRpm
        before) := by
  simp only [GateState.step, GateState.await, Dict.get?_set_self]

private theorem GateState.step_await_limiting (s : GateState) {before : List KeyOp} :
    (s.await id request (.limiting before)).step hash settings (.count id) =
      some ((s.await id request (.limiting before)).countAnonymous settings id request before) := by
  simp only [GateState.step, GateState.await, Dict.get?_set_self]

/-- A request whose key is counted. -/
private theorem GateState.step_count_keyed {publicId : String} {limitRpm : Int} {before : List KeyOp} (s : GateState) :
    ∃ s' verdict, (s.await id request (.counting publicId limitRpm before)).step hash settings (.count id) = some s' ∧
      s'.decided = ⟨id, request, verdict⟩ :: s.decided ∧
        match consumeRateLimit publicId limitRpm request.limitedAt s.gate.store with
        | .error exc => s'.gate = s.gate ∧ verdict = .raised exc
        | .ok (rateLimit, store) =>
          s'.gate = { s.gate with store } ∧
            verdict = .keyed publicId limitRpm before s.keyOps rateLimit.allowed := by
  have hcount := @GateState.step_await_counting hash settings id request s publicId limitRpm before
  unfold GateState.countKey at hcount
  have hgate : (s.await id request (.counting publicId limitRpm before)).gate = s.gate := rfl
  rw [hgate] at hcount
  cases hconsume : consumeRateLimit publicId limitRpm request.limitedAt s.gate.store with
  | error exc =>
    rw [hconsume] at hcount
    exact ⟨_, _, hcount, rfl, rfl, rfl⟩
  | ok pair =>
    obtain ⟨rateLimit, store⟩ := pair
    rw [hconsume] at hcount
    exact ⟨_, _, hcount, rfl, rfl, rfl⟩

/-- A request that is counted as an anonymous one. -/
private theorem GateState.step_count_anonymous {before : List KeyOp} (s : GateState) :
    ∃ s' verdict, (s.await id request (.limiting before)).step hash settings (.count id) = some s' ∧
      s'.decided = ⟨id, request, verdict⟩ :: s.decided ∧
        match s.gate.limiter.consume settings.apiKeyUnauthMinIntervalSeconds request.anonymous with
        | .error exc => s'.gate = s.gate ∧ verdict = .raised exc
        | .ok (rateLimit, limiter) =>
          s'.gate = { s.gate with limiter } ∧ verdict = .anonymous before s.seen rateLimit.allowed := by
  have hcount := @GateState.step_await_limiting hash settings id request s before
  unfold GateState.countAnonymous at hcount
  have hgate : (s.await id request (.limiting before)).gate = s.gate := rfl
  rw [hgate] at hcount
  cases hconsume : s.gate.limiter.consume settings.apiKeyUnauthMinIntervalSeconds request.anonymous with
  | error exc =>
    rw [hconsume] at hcount
    exact ⟨_, _, hcount, rfl, rfl, rfl⟩
  | ok pair =>
    obtain ⟨rateLimit, limiter⟩ := pair
    rw [hconsume] at hcount
    exact ⟨_, _, hcount, rfl, rfl, rfl⟩

/-- With no other event between its steps, a request gets from the gate what `_authorize_and_rate_limit_if_needed`
gives. -/
theorem authorizeAndRateLimit_tracks (hfree : s.calls.get? id = none) :
    s.LeadsTo hash settings id request (authorizeAndRateLimit hash settings request s.gate) := by
  unfold authorizeAndRateLimit
  by_cases hneeded : needsCredential settings request = true
  · have hguard : ¬ (!settings.apiKeyAuthEnabled || !"/v1/".toList.isPrefixOf request.path.toList) = true := by
      unfold needsCredential at hneeded
      simpa using hneeded
    rw [if_neg hguard]
    have harrive : s.step hash settings (.arrive id request) = some (s.await id request .authenticating) := by
      simp only [GateState.step]
      rw [if_pos hfree, if_pos hneeded]
    have hauth := @GateState.step_await_authenticate hash settings id request s
    unfold GateState.authenticate at hauth
    have hgate : (s.await id request .authenticating).gate = s.gate := rfl
    rw [hgate] at hauth
    generalize authenticateRequestHeaders hash request.authorization request.xApiKey request.authenticatedAt
      s.gate.store = pair at hauth ⊢
    obtain ⟨result, store⟩ := pair
    dsimp only at hauth ⊢
    rw [if_neg Bool.false_ne_true] at hauth
    let authenticated := (s.await id request .authenticating).withStore store request.keyOps
    have hown : ∀ event ∈ [GateEvent.arrive id request, .authenticate id, .count id], event.callId = some id := by
      simp [GateEvent.callId]
    cases result with
    | success publicId label rateLimitRpm =>
      dsimp only at hauth ⊢
      obtain ⟨s', verdict, hcount, hdecided, houtcome⟩ := @GateState.step_count_keyed hash settings id request publicId
        (rateLimitRpm.getD settings.apiKeyRateLimitRpm) s.keyOps authenticated
      have hrun := run_cons.2 ⟨_, harrive, run_cons.2 ⟨_, hauth, run_cons.2 ⟨s', hcount, run_nil _⟩⟩⟩
      refine ⟨_, s', verdict, hrun, hown, ?_⟩
      have hstore : authenticated.gate.store = store := rfl
      rw [hstore] at houtcome
      cases hconsume : consumeRateLimit publicId (rateLimitRpm.getD settings.apiKeyRateLimitRpm) request.limitedAt
          store with
      | error exc =>
        rw [hconsume] at houtcome
        obtain ⟨hgate', rfl⟩ := houtcome
        refine ⟨hgate', hdecided, ?_⟩
        simp [Verdict.passes]
      | ok pair =>
        obtain ⟨rateLimit, store'⟩ := pair
        rw [hconsume] at houtcome
        obtain ⟨hgate', rfl⟩ := houtcome
        exact ⟨hgate', hdecided, limitedAnswer_passes.symm⟩
    | failure reason =>
      dsimp only [GateState.authenticated] at hauth ⊢
      by_cases hallowed : shouldAllowUnauthenticatedRequest reason settings = true
      · rw [if_pos hallowed] at hauth ⊢
        obtain ⟨s', verdict, hcount, hdecided, houtcome⟩ := @GateState.step_count_anonymous hash settings id request
          s.keyOps authenticated
        have hrun := run_cons.2 ⟨_, harrive, run_cons.2 ⟨_, hauth, run_cons.2 ⟨s', hcount, run_nil _⟩⟩⟩
        refine ⟨_, s', verdict, hrun, hown, ?_⟩
        have hlimiter : authenticated.gate.limiter = s.gate.limiter := rfl
        rw [hlimiter] at houtcome
        unfold GateRequest.anonymous at houtcome
        cases hconsume : s.gate.limiter.consume settings.apiKeyUnauthMinIntervalSeconds
            ⟨anonymousClientId request.clientHost, request.limitedAt.val⟩ with
        | error exc =>
          rw [hconsume] at houtcome
          obtain ⟨hgate', rfl⟩ := houtcome
          refine ⟨hgate', hdecided, ?_⟩
          simp [Verdict.passes]
        | ok pair =>
          obtain ⟨rateLimit, limiter⟩ := pair
          rw [hconsume] at houtcome
          obtain ⟨hgate', rfl⟩ := houtcome
          exact ⟨hgate', hdecided, limitedAnswer_passes.symm⟩
      · rw [if_neg hallowed] at hauth ⊢
        refine ⟨_, _, _, run_cons.2 ⟨_, harrive, run_cons.2 ⟨_, hauth, run_nil _⟩⟩, ?_, rfl, rfl, ?_⟩
        · simp [GateEvent.callId]
        · simp [Verdict.passes]
  · have hguard : (!settings.apiKeyAuthEnabled || !"/v1/".toList.isPrefixOf request.path.toList) = true := by
      unfold needsCredential at hneeded
      rw [Bool.not_eq_true, Bool.and_eq_false_iff] at hneeded
      simpa [-List.isPrefixOf_iff_prefix] using hneeded
    rw [if_pos hguard]
    have harrive : s.step hash settings (.arrive id request) = some (s.settle id request .unprotected) := by
      simp only [GateState.step]
      rw [if_pos hfree, if_neg hneeded]
    refine ⟨_, _, _, run_cons.2 ⟨_, harrive, run_nil _⟩, ?_, rfl, rfl, ?_⟩
    · simp [GateEvent.callId]
    · simp [Verdict.passes]

end Alone

/-- The count on which the decision rests allows it exactly if there is room for the request. -/
def Decision.Exact (settings : AuthSettings) (d : Decision) : Prop :=
  match d.verdict with
  | .keyed publicId limitRpm _ counted allowed =>
    allowed = true ↔ ((callsIn (rateCalls counted) publicId d.request.window).length : Int) < limitRpm
  | .anonymous _ seen allowed =>
    allowed = true ↔ inWindow settings.apiKeyUnauthMinIntervalSeconds seen d.request.anonymous = []
  | _ => True

/-- In every interleaving of requests, cancellations and calls of the key tool, each decision is the one that the two
calls of the request make at their places in the order of all calls.  So nothing passes with a credential that the
store did not accept at its place, or after a delete of its key, and nothing without one unless nothing was
presented. -/
theorem gate_decisions (hash : SecretHash) (settings : AuthSettings) (store : ApiKeyStore)
    (limiter : AnonymousRateLimiter) (events : List GateEvent) :
    Always (GateState.step hash settings)
      (fun s => ∀ d ∈ s.decided, Decided hash settings store limiter s.keyOps s.seen d.request d.verdict)
      (.new store limiter) events := by
  intro pre _ s hrun
  have hsound : s.Sound hash settings store limiter :=
    run_invariant (fun _ _ _ hs hstep => hs.step hstep) (GateState.new_sound hash settings store limiter) hrun
  exact hsound.decided

/-- As long as no request is counted more than 120 windows late and the clock of the anonymous requests does not run
backwards: a request with an accepted key is let through exactly if the calls counted before leave room in its window,
so what passes with a key in a window is within the limits of the key; and an anonymous request is let through exactly
if it is the first of its client in its window. -/
theorem gate_quotas (hash : SecretHash) (settings : AuthSettings) (keys : Dict String ApiKeyRow)
    (nextWindowCleanup nextCleanup : Int) (events : List GateEvent) (s : GateState)
    (hrun : run (GateState.step hash settings) (.new ⟨keys, .empty, nextWindowCleanup⟩ (.new nextCleanup)) events =
      some s)
    (hfar : NeverFarBehind (rateCalls s.keyOps)) (hsorted : NonDecreasing s.seen) :
    (∀ d ∈ s.decided, d.Exact settings) ∧
      (∀ publicId window (limit : Nat),
        (∀ d ∈ s.decided, d.passesWith publicId window = true → d.limitRpm ≤ limit) →
          (s.decided.filter (·.passesWith publicId window)).length ≤ limit) ∧
      ∀ client start,
        (s.decided.filter (·.passesAnonymously settings.apiKeyUnauthMinIntervalSeconds client start)).length ≤ 1 := by
  have hsound : s.Sound hash settings ⟨keys, .empty, nextWindowCleanup⟩ (.new nextCleanup) :=
    run_invariant (fun _ _ _ hs hstep => hs.step hstep) (GateState.new_sound hash settings _ _) hrun
  refine ⟨fun d hd => ?_, fun publicId window limit hlimit => keyed_quota hsound hfar hlimit, fun client start => ?_⟩
  · have hdecided := hsound.decided d hd
    obtain ⟨id, request, verdict⟩ := d
    cases hdecided with
    | keyed publicId limitRpm before counted store store' result accepted order earlier ran consumed =>
      exact allowed_iff_room (hfar.of_prefix (earlier.filterMap _)) ran consumed
    | anonymous before before' limiter limiter' result accepted earlier earlier' ran consumed =>
      exact allowed_iff_first settings.limitsPositive.2 (hsorted.sublist earlier'.sublist) ran consumed
    | unprotected => trivial
    | unauthorized => trivial
    | raised => trivial
  · exact anonymous_quota hsound hsorted

namespace Example

/-- A key with a limit of one request a minute. -/
def meteredRow : ApiKeyRow where
  label := "metered"
  secretHash := "00000000000000aa:secret"
  keyPrefix := "tpa_live_00000000000000aa."
  createdAt := 0
  rateLimitRpm := some 1

/-- A request with a key or without one, counted in the second in which it is authenticated. -/
def pricing (xApiKey : Option String) (now : Timestamp) : GateRequest :=
  ⟨"/v1/price", "1f9a", none, xApiKey, some "203.0.113.7", now, now⟩

private theorem noon_legal : -2 ^ 62 ≤ (120 : Int) ∧ (120 : Int) < 2 ^ 62 := by decide

def noon : Timestamp := ⟨120, noon_legal⟩

def metered : Option String := some "tpa_live_00000000000000aa.secret"

/-- Two requests with the key and two without one, all at the gate before the first is counted. -/
def crowd : List GateEvent :=
  [.arrive 0 (pricing metered noon), .arrive 1 (pricing none noon),
    .arrive 2 (pricing metered noon), .arrive 3 (pricing none noon), .authenticate 2,
    .authenticate 0, .authenticate 1, .authenticate 3, .count 2, .count 3, .count 0, .count 1]

def joined : SecretHash := fun publicId secret => publicId ++ ":" ++ secret

def beforeCrowd : GateState := .new ⟨Dict.empty.set "00000000000000aa" meteredRow, .empty, 0⟩ (.new 0)

def afterCrowd : GateState := (run (GateState.step joined {}) beforeCrowd crowd).getD beforeCrowd

end Example

/-- Of two requests with a key and two without one, the first counted of each kind pass. -/
theorem gate_quotas_crowd :
    (Example.afterCrowd.decided.map fun d => (d.id, d.verdict.passes)) =
        [(1, false), (0, false), (3, true), (2, true)] ∧
      (Example.afterCrowd.decided.filter (·.passesWith "00000000000000aa" 2)).length ≤ 1 ∧
        (Example.afterCrowd.decided.filter (·.passesAnonymously 1 "203.0.113.7" 120)).length ≤ 1 := by
  have hrun : run (GateState.step Example.joined {}) Example.beforeCrowd Example.crowd = some Example.afterCrowd := by
    rfl
  have hfar : NeverFarBehind (rateCalls Example.afterCrowd.keyOps) := by
    unfold NeverFarBehind
    decide
  have hsorted : NonDecreasing Example.afterCrowd.seen := by
    unfold NonDecreasing
    decide
  obtain ⟨-, hkeyed, hanonymous⟩ := gate_quotas Example.joined {} _ 0 0 Example.crowd Example.afterCrowd hrun hfar
    hsorted
  refine ⟨by decide, hkeyed "00000000000000aa" 2 1 ?_, hanonymous "203.0.113.7" 120⟩
  decide

end TokenPriceAgg

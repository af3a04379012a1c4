import Mathlib.Algebra.Order.Field.Rat
import Mathlib.Data.List.Chain
import Mathlib.Tactic.Linarith
import TokenPriceAgg.Lib.Leases
import TokenPriceAgg.Lib.Runs

/-!
# The HTTP client of a provider

`HttpClient` replaces its httpx client when it is old or has served many requests, when requests wait too often for
its pool, and when the process has too many sockets in `CLOSE-WAIT`.  A request makes all its attempts on the client it
started on.  `_close_after_grace` closes a replaced client after a grace period, which it computes from the timeouts
of the `HttpClient`; a request has its own read timeout and several attempts.

`_recycle_lock` is not held across an `await`, so that the steps below are atomic.  A step carries its readings of the
monotonic clock.  The httpx clients are numbered in the order in which they are made.
-/

namespace TokenPriceAgg

open PyLib

inductive RecycleReason
  | ttl
  | maxRequests
  | poolTimeout
  | closeWait
deriving DecidableEq, Repr

/-- What the constructor of `HttpClient` sets for good. -/
structure HttpClientConfig where
  poolTimeoutMs : Int
  connectTimeoutMs : Int
  readTimeoutMs : Int
  writeTimeoutMs : Int
  attempts : Nat
  clientTtlS : Int
  clientMaxRequests : Int
  recyclePoolTimeoutThreshold : Int
  recycleWindowS : Int
  attempts_pos : 0 < attempts

/-- `httpx.Timeout`, in seconds. -/
structure HttpxTimeout where
  connect : ℚ
  read : ℚ
  write : ℚ
  pool : ℚ

namespace HttpClientConfig

/-- `HttpClient.__init__`. -/
def init (timeoutMs maxRetries : Int)
    (poolTimeoutMs connectTimeoutMs readTimeoutMs writeTimeoutMs : Option Int := none)
    (clientTtlS : Int := 300) (clientMaxRequests : Int := 5000) (recyclePoolTimeoutThreshold : Int := 10)
    (recycleWindowS : Int := 30) : HttpClientConfig where
  poolTimeoutMs := poolTimeoutMs.getD 25
  connectTimeoutMs := connectTimeoutMs.getD timeoutMs
  readTimeoutMs := readTimeoutMs.getD timeoutMs
  writeTimeoutMs := writeTimeoutMs.getD timeoutMs
  attempts := (max 1 (maxRetries + 1)).toNat
  clientTtlS
  clientMaxRequests
  recyclePoolTimeoutThreshold
  recycleWindowS
  attempts_pos := by omega

variable (cfg : HttpClientConfig)

/-- `_timeout`. -/
def timeout (readTimeoutMs poolTimeoutMs : Int) : HttpxTimeout where
  connect := cfg.connectTimeoutMs / 1000
  read := readTimeoutMs / 1000
  write := cfg.writeTimeoutMs / 1000
  pool := poolTimeoutMs / 1000

/-- `timeout_ms or self._read_timeout_ms`. -/
def effectiveReadTimeoutMs : Option Int → Int
  | none => cfg.readTimeoutMs
  | some ms => if ms = 0 then cfg.readTimeoutMs else ms

/-- The delay of `_close_after_grace`. -/
def graceS : ℚ := (max (max cfg.readTimeoutMs cfg.connectTimeoutMs) cfg.writeTimeoutMs : Int) / 1000 + 1 / 10

/-- When `_close_after_grace` closes a client replaced at `t` at the earliest; a delay that is not positive is none. -/
def closesAt (t : ℚ) : ℚ := t + max 0 cfg.graceS

/-- The time that the limits of a request allow it. -/
def budget (limits : HttpxTimeout) : ℚ :=
  cfg.attempts * (limits.pool + limits.connect + limits.write + limits.read)

end HttpClientConfig

/-- A task of `_close_after_grace`: its client, and the end of its sleep. -/
structure ClosingTask where
  client : Nat
  wakesAt : ℚ

structure HttpClient where
  client : Nat
  createdAt : ℚ
  requestCount : Int
  poolTimeoutEvents : List ℚ
  lastRecycleReason : Option RecycleReason
  lastRecycleAt : Option ℚ
  backgroundTasks : List ClosingTask

namespace HttpClient

/-- A new `HttpClient`. -/
def new (now : ℚ) : HttpClient where
  client := 0
  createdAt := now
  requestCount := 0
  poolTimeoutEvents := []
  lastRecycleReason := none
  lastRecycleAt := none
  backgroundTasks := []

section Methods

variable (cfg : HttpClientConfig) (h : HttpClient)

/-- `recently_recycled`, of a reason. -/
def RecentlyRecycled (reason : RecycleReason) (now : ℚ) : Prop :=
  ∃ at₀ ∈ h.lastRecycleAt, h.lastRecycleReason = some reason ∧ now - at₀ ≤ cfg.recycleWindowS

instance (reason : RecycleReason) (now : ℚ) : Decidable (h.RecentlyRecycled cfg reason now) :=
  inferInstanceAs (Decidable (∃ at₀ ∈ h.lastRecycleAt, _))

/-- `_replace_client_locked`. -/
def replaceClient (reason : RecycleReason) (now : ℚ) : HttpClient :=
  { h with
    client := h.client + 1
    createdAt := now
    requestCount := 0
    lastRecycleReason := some reason
    lastRecycleAt := some now
    backgroundTasks := h.backgroundTasks ++ [⟨h.client, cfg.closesAt now⟩] }

def Expired (now : ℚ) : Prop := cfg.clientTtlS ≤ now - h.createdAt

instance (now : ℚ) : Decidable (h.Expired cfg now) := inferInstanceAs (Decidable (_ ≤ _))

/-- `_recycle_if_needed`; the second reading is taken under the lock, the third one by `_replace_client_locked`. -/
def recycleIfNeeded (t₁ t₂ t₃ : ℚ) : HttpClient :=
  if h.Expired cfg t₁ then
    -- an expired client is not checked for its number of requests
    if h.Expired cfg t₂ then h.replaceClient cfg .ttl t₃ else h
  else if cfg.clientMaxRequests ≤ h.requestCount then h.replaceClient cfg .maxRequests t₃
  else h

/-- The pool timeouts that `record_pool_timeout` counts, the new one included. -/
def recentPoolTimeouts (now : ℚ) : List ℚ :=
  (h.poolTimeoutEvents ++ [now]).dropWhile fun eventAt => eventAt < now - cfg.recycleWindowS

def recordPoolTimeout (t₁ t₂ : ℚ) : HttpClient :=
  let events := h.recentPoolTimeouts cfg t₁
  if cfg.recyclePoolTimeoutThreshold ≤ events.length then
    { h with poolTimeoutEvents := [] }.replaceClient cfg .poolTimeout t₂
  else { h with poolTimeoutEvents := events }

/-- What `recycle_transports` of the registry does to one of its clients. -/
def recycleTransport (reason : RecycleReason) (t₁ t₂ : ℚ) : HttpClient :=
  if h.RecentlyRecycled cfg reason t₁ then h else h.replaceClient cfg reason t₂

end Methods

end HttpClient

/-- A call of `_retryable_request` that has not ended, with the time at which its first attempt starts. -/
structure RetryableRequest where
  client : Nat
  effectiveTimeout : HttpxTimeout
  attemptsLeft : Nat
  startedAt : ℚ

/-- How `await client.request(...)` ends. -/
inductive AttemptOutcome
  | response
  | readTimeout
  | connectTimeout
  | connectError
  /-- any other exception, `CancelledError` included -/
  | raised
deriving DecidableEq, Repr

namespace RetryableRequest

def start (cfg : HttpClientConfig) (client : Nat) (timeoutMs : Option Int) (now : ℚ) : RetryableRequest where
  client
  effectiveTimeout := cfg.timeout (cfg.effectiveReadTimeoutMs timeoutMs) cfg.poolTimeoutMs
  attemptsLeft := cfg.attempts
  startedAt := now

/-- The request after an attempt, none if it has ended. -/
def afterAttempt (r : RetryableRequest) : AttemptOutcome → Option RetryableRequest
  | .response | .raised => none
  | .readTimeout | .connectTimeout | .connectError =>
    if r.attemptsLeft ≤ 1 then none else some { r with attemptsLeft := r.attemptsLeft - 1 }

/-- The end of the time that its own limits allow the request. -/
def deadline (cfg : HttpClientConfig) (r : RetryableRequest) : ℚ := r.startedAt + cfg.budget r.effectiveTimeout

end RetryableRequest

/-- An `HttpClient` in use: the requests that have not ended, the httpx clients that are closed, and the last reading
of the clock. -/
structure Transport where
  http : HttpClient
  inFlight : List RetryableRequest
  closed : List Nat
  now : ℚ

inductive TransportEvent
  /-- a call of `get` or `post` -/
  | request (timeoutMs : Option Int) (t₁ t₂ t₃ : ℚ)
  /-- an attempt of the `i`-th request in flight ends -/
  | attemptEnds (i : Nat) (outcome : AttemptOutcome)
  | recordPoolTimeout (t₁ t₂ : ℚ)
  | recycleTransport (reason : RecycleReason) (t₁ t₂ : ℚ)
  /-- the sleep of the `i`-th background task is over -/
  | closeAfterGrace (i : Nat) (t : ℚ)

/-- The readings of the clock, in the order in which they are taken. -/
def TransportEvent.readings : TransportEvent → List ℚ
  | .request _ t₁ t₂ t₃ => [t₁, t₂, t₃]
  | .attemptEnds _ _ => []
  | .recordPoolTimeout t₁ t₂ => [t₁, t₂]
  | .recycleTransport _ t₁ t₂ => [t₁, t₂]
  | .closeAfterGrace _ t => [t]

namespace Transport

def new (now : ℚ) : Transport := ⟨.new now, [], [], now⟩

/-- The clock does not run backwards. -/
def InOrder (s : Transport) (e : TransportEvent) : Prop := (s.now :: e.readings).IsChain (· ≤ ·)

instance (s : Transport) (e : TransportEvent) : Decidable (s.InOrder e) :=
  inferInstanceAs (Decidable (List.IsChain _ _))

def perform (cfg : HttpClientConfig) (s : Transport) : TransportEvent → Option Transport
  | .request timeoutMs t₁ t₂ t₃ =>
    let http := s.http.recycleIfNeeded cfg t₁ t₂ t₃
    some
      { s with
        http := { http with requestCount := http.requestCount + 1 }
        inFlight := s.inFlight ++ [.start cfg http.client timeoutMs t₃]
        now := t₃ }
  | .attemptEnds i outcome =>
    s.inFlight[i]?.map fun r =>
      match r.afterAttempt outcome with
      | some r' => { s with inFlight := s.inFlight.set i r' }
      | none => { s with inFlight := s.inFlight.eraseIdx i }
  | .recordPoolTimeout t₁ t₂ => some { s with http := s.http.recordPoolTimeout cfg t₁ t₂, now := t₂ }
  | .recycleTransport reason t₁ t₂ => some { s with http := s.http.recycleTransport cfg reason t₁ t₂, now := t₂ }
  | .closeAfterGrace i t =>
    s.http.backgroundTasks[i]?.bind fun task =>
      if task.wakesAt ≤ t then
        some
          { s with
            http := { s.http with backgroundTasks := s.http.backgroundTasks.eraseIdx i }
            closed := s.closed ++ [task.client]
            now := t }
      else none

def step (cfg : HttpClientConfig) (s : Transport) (e : TransportEvent) : Option Transport :=
  if s.InOrder e then s.perform cfg e else none

/-- A request that has not ended and whose client is closed has used up the time that its limits allow. -/
def NoLiveRequestCut (cfg : HttpClientConfig) (s : Transport) : Prop :=
  ∀ r ∈ s.inFlight, r.client ∈ s.closed → r.deadline cfg < s.now

/-- The event replaces the httpx client. -/
def Replaces (cfg : HttpClientConfig) (s : Transport) : TransportEvent → Prop
  | .request _ t₁ _ _ => s.http.Expired cfg t₁ ∨ cfg.clientMaxRequests ≤ s.http.requestCount
  | .recordPoolTimeout t₁ _ => cfg.recyclePoolTimeoutThreshold ≤ (s.http.recentPoolTimeouts cfg t₁).length
  | .recycleTransport reason t₁ _ => ¬ s.http.RecentlyRecycled cfg reason t₁
  | .attemptEnds _ _ | .closeAfterGrace _ _ => False

/-- If the event replaces the client, the time of each request in flight on it ends before the grace period does. -/
def ReplacesInTime (cfg : HttpClientConfig) (s : Transport) (e : TransportEvent) : Prop :=
  s.InOrder e → s.Replaces cfg e → ∀ r ∈ s.inFlight, r.client = s.http.client →
    r.deadline cfg < cfg.closesAt (e.readings.getLastD s.now)

end Transport

/-! ### What the methods do to the clients -/

namespace HttpClient

variable {cfg : HttpClientConfig} {h h' : HttpClient} {t₁ t₂ t₃ : ℚ}

/-- `h'` has the next client, and a task for the client of `h`, which was replaced at `t`. -/
def Replaced (cfg : HttpClientConfig) (h h' : HttpClient) (t : ℚ) : Prop :=
  h'.client = h.client + 1 ∧ h'.backgroundTasks = h.backgroundTasks ++ [⟨h.client, cfg.closesAt t⟩]

def Kept (h h' : HttpClient) : Prop := h'.client = h.client ∧ h'.backgroundTasks = h.backgroundTasks

private theorem replaceClient_replaced (reason : RecycleReason) (t : ℚ) :
    Replaced cfg h (h.replaceClient cfg reason t) t := ⟨rfl, rfl⟩

private theorem recycleIfNeeded_replaced
    (ht : t₁ ≤ t₂) (hr : h.Expired cfg t₁ ∨ cfg.clientMaxRequests ≤ h.requestCount) :
    Replaced cfg h (h.recycleIfNeeded cfg t₁ t₂ t₃) t₃ := by
  unfold recycleIfNeeded
  by_cases he : h.Expired cfg t₁
  · have hlater : h.Expired cfg t₂ := le_trans he (by linarith)
    rw [if_pos he, if_pos hlater]
    exact replaceClient_replaced _ _
  · rw [if_neg he, if_pos (hr.resolve_left he)]
    exact replaceClient_replaced _ _

private theorem recycleIfNeeded_kept (hr : ¬ (h.Expired cfg t₁ ∨ cfg.clientMaxRequests ≤ h.requestCount)) :
    Kept h (h.recycleIfNeeded cfg t₁ t₂ t₃) := by
  rw [not_or] at hr
  unfold recycleIfNeeded
  rw [if_neg hr.1, if_neg hr.2]
  exact ⟨rfl, rfl⟩

private theorem recordPoolTimeout_replaced
    (hr : cfg.recyclePoolTimeoutThreshold ≤ (h.recentPoolTimeouts cfg t₁).length) :
    Replaced cfg h (h.recordPoolTimeout cfg t₁ t₂) t₂ := by
  unfold recordPoolTimeout
  rw [if_pos hr]
  exact ⟨rfl, rfl⟩

private theorem recordPoolTimeout_kept
    (hr : ¬ cfg.recyclePoolTimeoutThreshold ≤ (h.recentPoolTimeouts cfg t₁).length) :
    Kept h (h.recordPoolTimeout cfg t₁ t₂) := by
  unfold recordPoolTimeout
  rw [if_neg hr]
  exact ⟨rfl, rfl⟩

private theorem recycleTransport_replaced {reason : RecycleReason} (hr : ¬ h.RecentlyRecycled cfg reason t₁) :
    Replaced cfg h (h.recycleTransport cfg reason t₁ t₂) t₂ := by
  unfold recycleTransport
  rw [if_neg hr]
  exact replaceClient_replaced _ _

private theorem recycleTransport_kept {reason : RecycleReason} (hr : ¬ ¬ h.RecentlyRecycled cfg reason t₁) :
    Kept h (h.recycleTransport cfg reason t₁ t₂) := by
  unfold recycleTransport
  rw [if_pos (not_not.1 hr)]
  exact ⟨rfl, rfl⟩

end HttpClient

/-! ### The clients as resources -/

namespace Transport

variable {cfg : HttpClientConfig} {s s' : Transport} {e : TransportEvent} {t : ℚ}

def lease (cfg : HttpClientConfig) (r : RetryableRequest) : Lease ℚ := ⟨r.client, r.deadline cfg⟩

def retired (task : ClosingTask) : Retired ℚ := ⟨task.client, task.wakesAt⟩

/-- The requests hold the httpx clients until their deadlines. -/
def leases (cfg : HttpClientConfig) (s : Transport) : Leases ℚ where
  current := s.http.client
  held := s.inFlight.map (lease cfg)
  retired := s.http.backgroundTasks.map retired
  disposed := s.closed
  now := s.now

private theorem spared_leases : (s.leases cfg).Spared ↔ s.NoLiveRequestCut cfg := List.forall_mem_map

private theorem doneBefore_leases : (s.leases cfg).DoneBefore t ↔
    ∀ r ∈ s.inFlight, r.client = s.http.client → r.deadline cfg < t := List.forall_mem_map

private theorem leases_replaced {h : HttpClient} (hr : HttpClient.Replaced cfg s.http h t) :
    { s with http := h }.leases cfg = (s.leases cfg).replace (cfg.closesAt t) := by
  obtain ⟨hclient, htasks⟩ := hr
  simp only [leases, Leases.replace, hclient, htasks, List.map_append, List.map_cons, List.map_nil, retired]

private theorem leases_kept {h : HttpClient} (hk : HttpClient.Kept s.http h) :
    { s with http := h }.leases cfg = s.leases cfg := by
  obtain ⟨hclient, htasks⟩ := hk
  simp only [leases, hclient, htasks]

/-- After the http side of an event has replaced the client or kept it. -/
private theorem inv_http {h : HttpClient} {replaces : Prop} (hinv : (s.leases cfg).Inv)
    (hreplaced : replaces → HttpClient.Replaced cfg s.http h t) (hkept : ¬ replaces → HttpClient.Kept s.http h)
    (hdone : replaces → (s.leases cfg).DoneBefore (cfg.closesAt t)) : ({ s with http := h }.leases cfg).Inv := by
  by_cases hr : replaces
  · rw [leases_replaced (hreplaced hr)]
    exact hinv.replace (hdone hr)
  · rw [leases_kept (hkept hr)]
    exact hinv

/-- A request that starts holds the current client. -/
private theorem inv_start {r : RetryableRequest} (hinv : (s.leases cfg).Inv) (hr : r.client = s.http.client) :
    ({ s with inFlight := s.inFlight ++ [r] }.leases cfg).Inv := by
  have htake : { s with inFlight := s.inFlight ++ [r] }.leases cfg = (s.leases cfg).take (r.deadline cfg) := by
    simp only [leases, Leases.take, List.map_append, List.map_cons, List.map_nil, lease, hr]
  rw [htake]
  exact hinv.take _

/-- A retry changes neither the client nor the deadline of a request. -/
private theorem lease_afterAttempt
    {r r' : RetryableRequest} {outcome : AttemptOutcome} (h : r.afterAttempt outcome = some r') :
    lease cfg r' = lease cfg r := by
  have hretry : (if r.attemptsLeft ≤ 1 then none else some { r with attemptsLeft := r.attemptsLeft - 1 }) = some r' →
      lease cfg r' = lease cfg r := by
    intro h
    split at h
    · cases h
    · obtain rfl := Option.some.inj h
      rfl
  cases outcome with
  | response => cases h
  | raised => cases h
  | readTimeout => exact hretry h
  | connectTimeout => exact hretry h
  | connectError => exact hretry h

private theorem leases_retry {r r' : RetryableRequest} {i : Nat} (hi : s.inFlight[i]? = some r)
    (hsame : lease cfg r' = lease cfg r) : { s with inFlight := s.inFlight.set i r' }.leases cfg = s.leases cfg := by
  have hset : (s.inFlight.map (lease cfg)).set i (lease cfg r) = s.inFlight.map (lease cfg) := by
    obtain ⟨hlt, rfl⟩ := List.getElem?_eq_some_iff.1 hi
    rw [← List.map_set, List.set_getElem_self]
  simp only [leases, List.map_set, hsame, hset]

private theorem leases_end (i : Nat) :
    { s with inFlight := s.inFlight.eraseIdx i }.leases cfg = (s.leases cfg).drop i := by
  simp only [leases, Leases.drop, List.eraseIdx_map]

private theorem leases_close {task : ClosingTask} (i : Nat) :
    { s with
      http := { s.http with backgroundTasks := s.http.backgroundTasks.eraseIdx i }
      closed := s.closed ++ [task.client]
      now := t }.leases cfg = ((s.leases cfg).advance t).dispose i (retired task) := by
  simp only [leases, Leases.advance, Leases.dispose, List.eraseIdx_map, retired]

/-- The sleep of a task may end as soon as it is over. -/
private theorem step_close {i : Nat} {task : ClosingTask} (cfg : HttpClientConfig)
    (htask : s.http.backgroundTasks[i]? = some task) (hdue : task.wakesAt ≤ t) (ht : s.now ≤ t) :
    ∃ s', s.step cfg (.closeAfterGrace i t) = some s' ∧
      s'.leases cfg = ((s.leases cfg).advance t).dispose i (retired task) := by
  have horder : s.InOrder (.closeAfterGrace i t) := List.isChain_cons_cons.2 ⟨ht, List.isChain_singleton _⟩
  refine ⟨_, ?_, leases_close i⟩
  simp only [step, perform, horder, if_true, htask, Option.bind_some, hdue]

private theorem inOrder_le (h : s.InOrder e) : s.now ≤ e.readings.getLastD s.now := by
  have hsorted : List.Pairwise (· ≤ ·) (s.now :: e.readings) := List.IsChain.pairwise h
  have hmem : e.readings.getLastD s.now ∈ s.now :: e.readings := List.getLastD_mem_cons ..
  rcases List.mem_cons.1 hmem with hnow | hlast
  · exact hnow.ge
  · exact (List.pairwise_cons.1 hsorted).1 _ hlast

private theorem inOrder_request {timeoutMs : Option Int} {t₁ t₂ t₃ : ℚ} (h : s.InOrder (.request timeoutMs t₁ t₂ t₃)) :
    t₁ ≤ t₂ := by
  have hchain : List.IsChain (· ≤ ·) [s.now, t₁, t₂, t₃] := h
  simp only [List.isChain_cons_cons] at hchain
  exact hchain.2.1

private theorem step_eq_some : s.step cfg e = some s' ↔ s.InOrder e ∧ s.perform cfg e = some s' := by
  unfold step
  by_cases h : s.InOrder e
  · simp [h]
  · simp [h]

private theorem perform_now (h : s.perform cfg e = some s') : s'.now = e.readings.getLastD s.now := by
  cases e with
  | request timeoutMs t₁ t₂ t₃ =>
    obtain rfl := Option.some.inj h
    rfl
  | attemptEnds i outcome =>
    obtain ⟨r, -, rfl⟩ := Option.map_eq_some_iff.1 h
    cases r.afterAttempt outcome <;> rfl
  | recordPoolTimeout t₁ t₂ =>
    obtain rfl := Option.some.inj h
    rfl
  | recycleTransport reason t₁ t₂ =>
    obtain rfl := Option.some.inj h
    rfl
  | closeAfterGrace i t =>
    obtain ⟨task, -, h⟩ := Option.bind_eq_some_iff.1 h
    split at h
    · obtain rfl := Option.some.inj h
      rfl
    · cases h

/-- What an event does to the leases: it may replace the client, then it starts, ends or continues a request, or
closes a client that is due. -/
private theorem inv_step (hinv : (s.leases cfg).Inv) (hintime : s.ReplacesInTime cfg e) (h : s.step cfg e = some s') :
    (s'.leases cfg).Inv := by
  obtain ⟨horder, h⟩ := step_eq_some.1 h
  have hle : s.now ≤ e.readings.getLastD s.now := inOrder_le horder
  have hdone (hr : s.Replaces cfg e) : (s.leases cfg).DoneBefore (cfg.closesAt (e.readings.getLastD s.now)) :=
    doneBefore_leases.2 (hintime horder hr)
  cases e with
  | request timeoutMs t₁ t₂ t₃ =>
    obtain rfl := Option.some.inj h
    have ht : t₁ ≤ t₂ := inOrder_request horder
    have hhttp : ({ s with http := s.http.recycleIfNeeded cfg t₁ t₂ t₃ }.leases cfg).Inv :=
      inv_http hinv (HttpClient.recycleIfNeeded_replaced ht) HttpClient.recycleIfNeeded_kept hdone
    -- the request starts on the client that the check leaves, which is the current one
    exact (inv_start hhttp rfl).advance hle
  | attemptEnds i outcome =>
    obtain ⟨r, hi, rfl⟩ := Option.map_eq_some_iff.1 h
    cases hafter : r.afterAttempt outcome with
    | some r' =>
      dsimp only
      -- a retry stays on the client
      rw [leases_retry hi (lease_afterAttempt hafter)]
      exact hinv
    | none =>
      dsimp only
      rw [leases_end]
      exact hinv.drop i
  | recordPoolTimeout t₁ t₂ =>
    obtain rfl := Option.some.inj h
    have hhttp : ({ s with http := s.http.recordPoolTimeout cfg t₁ t₂ }.leases cfg).Inv :=
      inv_http hinv HttpClient.recordPoolTimeout_replaced HttpClient.recordPoolTimeout_kept hdone
    exact hhttp.advance hle
  | recycleTransport reason t₁ t₂ =>
    obtain rfl := Option.some.inj h
    have hhttp : ({ s with http := s.http.recycleTransport cfg reason t₁ t₂ }.leases cfg).Inv :=
      inv_http hinv HttpClient.recycleTransport_replaced HttpClient.recycleTransport_kept hdone
    exact hhttp.advance hle
  | closeAfterGrace i t =>
    obtain ⟨task, htask, h⟩ := Option.bind_eq_some_iff.1 h
    split at h
    case isFalse => cases h
    case isTrue hdue =>
      obtain rfl := Option.some.inj h
      have hretired : (s.leases cfg).retired[i]? = some (retired task) := by
        simp only [leases, List.getElem?_map, htask, Option.map_some]
      rw [leases_close]
      -- the task was due at its reading of the clock, which is now
      exact (hinv.advance hle).dispose hretired hdue

private theorem inv_new (now : ℚ) : ((new now).leases cfg).Inv where
  spared := nofun
  covered := nofun
  retired_lt := nofun
  disposed_lt := nofun

/-! ### Recycling and live requests -/

/-- No live request is cut, nor would one be if a client were closed next. -/
def Secure (cfg : HttpClientConfig) (s : Transport) : Prop :=
  s.NoLiveRequestCut cfg ∧ ∀ i t s', s.step cfg (.closeAfterGrace i t) = some s' → s'.NoLiveRequestCut cfg

private theorem secure_of_inv (h : (s.leases cfg).Inv) : s.Secure cfg := by
  refine ⟨spared_leases.1 h.spared, fun i t s' hs => spared_leases.1 ?_⟩
  have hnone : s.ReplacesInTime cfg (.closeAfterGrace i t) := fun _ hr => False.elim hr
  exact (inv_step h hnone hs).spared

/-- An event that replaces the client leaves a task for it, and the requests stay. -/
private theorem perform_replaces (horder : s.InOrder e) (hr : s.Replaces cfg e) :
    ∃ s', s.perform cfg e = some s' ∧ s.inFlight ⊆ s'.inFlight ∧
      s'.http.backgroundTasks = s.http.backgroundTasks ++ [⟨s.http.client, cfg.closesAt s'.now⟩] := by
  cases e with
  | request timeoutMs t₁ t₂ t₃ =>
    have ht : t₁ ≤ t₂ := inOrder_request horder
    have hreplaced : HttpClient.Replaced cfg s.http (s.http.recycleIfNeeded cfg t₁ t₂ t₃) t₃ :=
      HttpClient.recycleIfNeeded_replaced ht hr
    exact ⟨_, rfl, List.subset_append_left _ _, hreplaced.2⟩
  | attemptEnds i outcome => exact hr.elim
  | recordPoolTimeout t₁ t₂ =>
    have hreplaced : HttpClient.Replaced cfg s.http (s.http.recordPoolTimeout cfg t₁ t₂) t₂ :=
      HttpClient.recordPoolTimeout_replaced hr
    exact ⟨_, rfl, List.Subset.refl _, hreplaced.2⟩
  | recycleTransport reason t₁ t₂ =>
    have hreplaced : HttpClient.Replaced cfg s.http (s.http.recycleTransport cfg reason t₁ t₂) t₂ :=
      HttpClient.recycleTransport_replaced hr
    exact ⟨_, rfl, List.Subset.refl _, hreplaced.2⟩
  | closeAfterGrace i t => exact hr.elim

/-- A client that is replaced too late for one of its requests may be closed next, and cuts it. -/
private theorem not_secure_of_late
    {r : RetryableRequest} {client : Nat} {tasks : List ClosingTask} (hr : r ∈ s.inFlight)
    (hclient : r.client = client) (htasks : s.http.backgroundTasks = tasks ++ [⟨client, cfg.closesAt s.now⟩])
    (hlate : cfg.closesAt s.now ≤ r.deadline cfg) : ¬ s.Secure cfg := by
  rintro ⟨-, hnext⟩
  have hwait : s.now ≤ cfg.closesAt s.now := le_add_of_nonneg_right (le_max_left _ _)
  have htask : s.http.backgroundTasks[tasks.length]? = some ⟨client, cfg.closesAt s.now⟩ := by
    rw [htasks, List.getElem?_concat_length]
  -- the new task is the last one, and its sleep may end on time
  obtain ⟨s', hclose, hleases⟩ := step_close cfg htask le_rfl hwait
  have hspared : (s'.leases cfg).Spared := spared_leases.2 (hnext _ _ _ hclose)
  rw [hleases] at hspared
  exact Leases.not_spared_of_late (List.mem_map_of_mem hr) hclient hlate hspared

theorem replacesInTime_of_secure (h : ∀ s', s.step cfg e = some s' → s'.Secure cfg) : s.ReplacesInTime cfg e := by
  intro horder hr r hmem hclient
  by_contra hlate
  rw [not_lt] at hlate
  obtain ⟨s', hperform, hsub, htasks⟩ := perform_replaces horder hr
  -- the time of the replacement is the last reading of the event
  rw [← perform_now hperform] at hlate
  exact not_secure_of_late (hsub hmem) hclient htasks hlate (h s' (step_eq_some.2 ⟨horder, hperform⟩))

/-- A run is secure throughout exactly if it replaces every client in time. -/
theorem always_secure_iff (cfg : HttpClientConfig) (now : ℚ) (events : List TransportEvent) :
    Always (step cfg) (Secure cfg) (new now) events ↔ Along (step cfg) (ReplacesInTime cfg) (new now) events :=
  always_iff_along (fun _ h => secure_of_inv h) (fun _ _ _ h ht hs => inv_step h ht hs)
    (fun _ _ _ h => replacesInTime_of_secure h) (inv_new now)

/-! ### Requests with short budgets -/

/-- A request that the event starts is allowed less time than the grace period of a client. -/
def ShortBudget (cfg : HttpClientConfig) : TransportEvent → Prop
  | .request timeoutMs _ _ _ =>
    cfg.budget (cfg.timeout (cfg.effectiveReadTimeoutMs timeoutMs) cfg.poolTimeoutMs) < max 0 cfg.graceS
  | _ => True

/-- Every request in flight would be done before a client replaced now is closed. -/
def AllShort (cfg : HttpClientConfig) (s : Transport) : Prop := ∀ r ∈ s.inFlight, r.deadline cfg < cfg.closesAt s.now

private theorem closesAt_mono {t t' : ℚ} (h : t ≤ t') : cfg.closesAt t ≤ cfg.closesAt t' := by
  unfold HttpClientConfig.closesAt
  linarith

private theorem allShort_later (h : s.AllShort cfg) (ht : s.now ≤ t) {r : RetryableRequest} (hr : r ∈ s.inFlight) :
    r.deadline cfg < cfg.closesAt t := lt_of_lt_of_le (h r hr) (closesAt_mono ht)

private theorem allShort_step (h : s.AllShort cfg) (hshort : ShortBudget cfg e) (hs : s.step cfg e = some s') :
    s'.AllShort cfg := by
  obtain ⟨horder, hperform⟩ := step_eq_some.1 hs
  have hle : s.now ≤ s'.now := by
    rw [perform_now hperform]
    exact inOrder_le horder
  intro r hr
  cases e with
  | request timeoutMs t₁ t₂ t₃ =>
    obtain rfl := Option.some.inj hperform
    rcases List.mem_append.1 hr with hr | hr
    · exact allShort_later h hle hr
    · obtain rfl := List.mem_singleton.1 hr
      exact (add_lt_add_iff_left t₃).2 hshort
  | attemptEnds i outcome =>
    obtain ⟨r₀, hi, rfl⟩ := Option.map_eq_some_iff.1 hperform
    cases hafter : r₀.afterAttempt outcome with
    | some r' =>
      rw [hafter] at hr
      rcases List.mem_or_eq_of_mem_set hr with hr | rfl
      · exact allShort_later h le_rfl hr
      · have hdeadline : r.deadline cfg = r₀.deadline cfg := congrArg Lease.deadline (lease_afterAttempt hafter)
        rw [hdeadline]
        exact allShort_later h le_rfl (List.mem_of_getElem? hi)
    | none =>
      rw [hafter] at hr
      exact allShort_later h le_rfl (List.mem_of_mem_eraseIdx hr)
  | recordPoolTimeout t₁ t₂ =>
    obtain rfl := Option.some.inj hperform
    exact allShort_later h hle hr
  | recycleTransport reason t₁ t₂ =>
    obtain rfl := Option.some.inj hperform
    exact allShort_later h hle hr
  | closeAfterGrace i t =>
    obtain ⟨task, -, hclose⟩ := Option.bind_eq_some_iff.1 hperform
    split at hclose
    · obtain rfl := Option.some.inj hclose
      exact allShort_later h hle hr
    · cases hclose

/-- If every request is allowed less time than the grace period, every client is replaced in time. -/
theorem replacesInTime_of_shortBudgets {now : ℚ} {events : List TransportEvent}
    (h : ∀ e ∈ events, ShortBudget cfg e) : Along (step cfg) (ReplacesInTime cfg) (new now) events := by
  have hshort : Along (step cfg) (fun _ e => ShortBudget cfg e) (new now) events :=
    along_of_mem (fun e he _ => h e he) _
  refine along_of_invariant (fun _ _ _ hi hp hs => allShort_step hi hp hs) ?_ (fun _ hr => by cases hr) hshort
  intro s e hi hp horder hreplaces r hr hclient
  exact allShort_later hi (inOrder_le horder) hr

end Transport

/-! ### Whole runs -/

/-- If every client is replaced in time for the requests in flight on it, no closed client cuts a live request. -/
theorem no_live_request_cut {cfg : HttpClientConfig} {now : ℚ} {events : List TransportEvent}
    (h : Along (Transport.step cfg) (Transport.ReplacesInTime cfg) (.new now) events) :
    Always (Transport.step cfg) (Transport.NoLiveRequestCut cfg) (.new now) events := by
  intro pre hpre s hrun
  have hsecure : s.Secure cfg := (Transport.always_secure_iff cfg now events).2 h pre hpre s hrun
  exact hsecure.1

namespace Example

/-- The timeouts of `config/app.toml`, in the order of `HttpClient.__init__`. -/
def appHttpConfig : HttpClientConfig := .init 2000 0 (some 25) (some 500) (some 2000) (some 500)

/-- A request, a recycle a second later, and the end of the grace period. -/
def recycledRequest (timeoutMs : Int) : List TransportEvent :=
  [.request (some timeoutMs) 0 0 0, .recycleTransport .closeWait 1 1, .closeAfterGrace 0 (31 / 10)]

end Example

open Example in
theorem no_live_request_cut_short :
    Always (Transport.step appHttpConfig) (Transport.NoLiveRequestCut appHttpConfig) (.new 0) (recycledRequest 200) ∧
      ((run (Transport.step appHttpConfig) (.new 0) (recycledRequest 200)).map fun s =>
        (s.closed, s.inFlight.map RetryableRequest.client)) = some ([0], [0]) := by
  refine ⟨no_live_request_cut (Transport.replacesInTime_of_shortBudgets ?_), by decide +kernel⟩
  intro e he
  simp only [recycledRequest, List.mem_cons, List.not_mem_nil, or_false] at he
  rcases he with rfl | rfl | rfl
  · show appHttpConfig.budget _ < _
    decide +kernel
  · trivial
  · trivial

open Example in
/-- A request with a timeout of 10 s is cut after 3.1 s. -/
theorem live_request_cut : ∃ s, run (Transport.step appHttpConfig) (.new 0) (recycledRequest 10000) = some s ∧
    ¬ s.NoLiveRequestCut appHttpConfig := by
  have hcut : ((run (Transport.step appHttpConfig) (.new 0) (recycledRequest 10000)).map fun s =>
      s.inFlight.any fun r => decide (r.client ∈ s.closed) && decide (s.now ≤ r.deadline appHttpConfig)) =
        some true := by decide +kernel
  obtain ⟨s, hrun, hany⟩ := Option.map_eq_some_iff.1 hcut
  refine ⟨s, hrun, fun hspared => ?_⟩
  obtain ⟨r, hr, hboth⟩ := List.any_eq_true.1 hany
  rw [Bool.and_eq_true, decide_eq_true_iff, decide_eq_true_iff] at hboth
  exact absurd (hspared r hr hboth.1) (not_lt.2 hboth.2)

end TokenPriceAgg

import TokenPriceAgg.Lib.Runs
import TokenPriceAgg.Security.ApiKeyStore

/-!
# The limiter of anonymous requests

`AnonymousRateLimiter.consume` counts the requests of a client in windows of the minimum interval that are aligned to
multiples of it, and allows the first of each window.

`consume_of_represents` says that the count is that of the client's own requests in the window, whatever other clients
do and whenever the clean-up runs.  So two allowed requests are an interval apart except in adjacent windows, where
they are exactly if the later one is no earlier in its window (`min_interval_iff`).
-/

namespace TokenPriceAgg

open PyLib

/-! ### The limiter -/

structure AnonymousRateLimiter where
  /-- the start of the last window and the count in it by client -/
  windows : Dict String (Int × Int)
  nextCleanupTs : Int

/-- `_RETENTION_SECONDS`. -/
def retentionSeconds : Int := 3

/-- `_CLEANUP_INTERVAL_SECONDS`. -/
def cleanupIntervalSeconds : Int := 10

structure AnonymousRequest where
  clientId : String
  now : Int
deriving DecidableEq

/-- `client_id or "unknown"`. -/
def AnonymousRequest.bucketKey (request : AnonymousRequest) : String :=
  if request.clientId = "" then "unknown" else request.clientId

def windowStart (minIntervalSeconds now : Int) : Int := now / minIntervalSeconds * minIntervalSeconds

/-- `_cleanup`. -/
def cleanupWindows (windows : Dict String (Int × Int)) (now minIntervalSeconds : Int) : Dict String (Int × Int) :=
  let cutoff := now - max retentionSeconds (minIntervalSeconds * 3)
  windows.filter fun window => ¬ window.2.1 < cutoff

/-- The result for a request with this count. -/
def anonymousResult (minIntervalSeconds now requestCount : Int) : RateLimitResult :=
  let resetEpoch := windowStart minIntervalSeconds now + minIntervalSeconds
  { allowed := requestCount ≤ 1, limit := 1, remaining := max (1 - requestCount) 0, resetEpoch
    retryAfterSeconds := max (resetEpoch - now) 0, requestCount }

/-- The count of a request, after what is stored for its client. -/
def requestCount (existing : Option (Int × Int)) (windowStart : Int) : Int :=
  match existing with
  | some (start, count) => if start = windowStart then count + 1 else 1
  | none => 1

def AnonymousRateLimiter.consume (minIntervalSeconds : Int) (limiter : AnonymousRateLimiter)
    (request : AnonymousRequest) : Except Exn (RateLimitResult × AnonymousRateLimiter) :=
  if minIntervalSeconds ≤ 0 then .error (.valueError "min_interval_seconds must be > 0")
  else
    let start := windowStart minIntervalSeconds request.now
    let count := requestCount (limiter.windows.get? request.bucketKey) start
    let windows := limiter.windows.set request.bucketKey (start, count)
    let limiter : AnonymousRateLimiter :=
      if limiter.nextCleanupTs ≤ request.now then
        { windows := cleanupWindows windows request.now minIntervalSeconds
          nextCleanupTs := request.now + cleanupIntervalSeconds }
      else { limiter with windows }
    .ok (anonymousResult minIntervalSeconds request.now count, limiter)

/-! ### Runs -/

namespace AnonymousRateLimiter

variable (minIntervalSeconds : Int)

def step (limiter : AnonymousRateLimiter) (request : AnonymousRequest) : Option AnonymousRateLimiter :=
  match limiter.consume minIntervalSeconds request with
  | .ok (_, limiter') => some limiter'
  | .error _ => some limiter

/-- A new limiter; its clock starts with any time for the first clean-up. -/
def new (nextCleanupTs : Int) : AnonymousRateLimiter := ⟨.empty, nextCleanupTs⟩

/-- The request is answered with a permission. -/
def Allows (limiter : AnonymousRateLimiter) (request : AnonymousRequest) : Prop :=
  ∃ result limiter', limiter.consume minIntervalSeconds request = .ok (result, limiter') ∧ result.allowed

end AnonymousRateLimiter

/-- The times never decrease. -/
def NonDecreasing (requests : List AnonymousRequest) : Prop := requests.Pairwise fun a b => a.now ≤ b.now

/-- The requests of a client. -/
def ofClient (client : String) (requests : List AnonymousRequest) : List AnonymousRequest :=
  requests.filter fun request => request.bucketKey = client

/-- The requests of the same client in the same window. -/
def inWindow (minIntervalSeconds : Int) (requests : List AnonymousRequest) (request : AnonymousRequest) :
    List AnonymousRequest :=
  (ofClient request.bucketKey requests).filter fun r =>
    windowStart minIntervalSeconds r.now = windowStart minIntervalSeconds request.now

section Windows

variable {minIntervalSeconds : Int} (hpos : 1 ≤ minIntervalSeconds)

include hpos

private theorem windowStart_le (now : Int) : windowStart minIntervalSeconds now ≤ now :=
  Int.ediv_mul_le now (by omega)

private theorem lt_windowStart_add (now : Int) : now < windowStart minIntervalSeconds now + minIntervalSeconds := by
  have h := Int.lt_ediv_add_one_mul_self now (show 0 < minIntervalSeconds by omega)
  unfold windowStart
  rw [add_mul, one_mul] at h
  exact h

private theorem windowStart_mono {a b : Int} (h : a ≤ b) :
    windowStart minIntervalSeconds a ≤ windowStart minIntervalSeconds b :=
  mul_le_mul_of_nonneg_right (Int.ediv_le_ediv (by omega) h) (by omega)

/-! ### What the limiter remembers -/

/-- The entry of a client tells its requests: it has the last window and their number in it, and without an entry their
windows have passed. -/
def Remembers (minIntervalSeconds : Int) (own all : List AnonymousRequest) : Option (Int × Int) → Prop
  | some (start, count) =>
    (∃ r ∈ own, windowStart minIntervalSeconds r.now = start) ∧
      (∀ r ∈ own, windowStart minIntervalSeconds r.now ≤ start) ∧
      count = (own.filter fun r => windowStart minIntervalSeconds r.now = start).length
  | none => ∀ now, (∀ r ∈ all, r.now ≤ now) →
      ∀ r ∈ own, windowStart minIntervalSeconds r.now < windowStart minIntervalSeconds now

/-- The limiter remembers the requests of every client. -/
def AnonymousRateLimiter.Represents (minIntervalSeconds : Int) (limiter : AnonymousRateLimiter)
    (requests : List AnonymousRequest) : Prop :=
  ∀ client, Remembers minIntervalSeconds (ofClient client requests) requests (limiter.windows.get? client)

omit hpos in
theorem mem_ofClient {client : String} {requests : List AnonymousRequest} {r : AnonymousRequest} :
    r ∈ ofClient client requests ↔ r ∈ requests ∧ r.bucketKey = client := by
  unfold ofClient
  simp only [List.mem_filter, decide_eq_true_eq]

/-- The count of a request is one more than the number of the earlier ones of its client in its window. -/
private theorem requestCount_of_remembers {requests : List AnonymousRequest} {request : AnonymousRequest}
    (hlast : ∀ r ∈ requests, r.now ≤ request.now) {existing : Option (Int × Int)}
    (h : Remembers minIntervalSeconds (ofClient request.bucketKey requests) requests existing) :
    requestCount existing (windowStart minIntervalSeconds request.now) =
      (inWindow minIntervalSeconds requests request).length + 1 := by
  have passed (hpassed : ∀ r ∈ ofClient request.bucketKey requests,
      windowStart minIntervalSeconds r.now < windowStart minIntervalSeconds request.now) :
      inWindow minIntervalSeconds requests request = [] := by
    refine List.filter_eq_nil_iff.2 fun r hr => ?_
    have hlt := hpassed r hr
    simp only [decide_eq_true_eq]
    omega
  cases existing with
  | none =>
    rw [passed (h request.now hlast)]
    rfl
  | some entry =>
    obtain ⟨start, count⟩ := entry
    obtain ⟨⟨r, hr, hstart⟩, hle, hcount⟩ := h
    unfold requestCount
    dsimp only
    by_cases heq : start = windowStart minIntervalSeconds request.now
    · rw [if_pos heq, hcount, heq]
      rfl
    · -- the last window of the client is an earlier one
      rw [if_neg heq, passed]
      · rfl
      · intro r' hr'
        have hr'start := hle r' hr'
        have hmono := windowStart_mono hpos (hlast r (mem_ofClient.1 hr).1)
        omega

/-- The request is remembered as the last of its client. -/
private theorem remembers_request {requests : List AnonymousRequest} {request : AnonymousRequest}
    (hlast : ∀ r ∈ requests, r.now ≤ request.now) :
    Remembers minIntervalSeconds (ofClient request.bucketKey (requests ++ [request])) (requests ++ [request])
      (some (windowStart minIntervalSeconds request.now,
        (inWindow minIntervalSeconds requests request).length + 1)) := by
  have hown : ofClient request.bucketKey (requests ++ [request]) =
      ofClient request.bucketKey requests ++ [request] := by
    simp [ofClient]
  rw [hown]
  refine ⟨⟨request, List.mem_append_right _ (List.mem_singleton_self request), rfl⟩, ?_, ?_⟩
  · intro r hr
    rcases List.mem_append.1 hr with hr | hr
    · exact windowStart_mono hpos (hlast r (mem_ofClient.1 hr).1)
    · rw [List.mem_singleton.1 hr]
  · simp [inWindow]

omit hpos in
/-- The other clients have no new request. -/
private theorem Remembers.append_other {client : String} {requests : List AnonymousRequest} {request : AnonymousRequest}
    (hother : request.bucketKey ≠ client) {existing : Option (Int × Int)}
    (h : Remembers minIntervalSeconds (ofClient client requests) requests existing) :
    Remembers minIntervalSeconds (ofClient client (requests ++ [request])) (requests ++ [request]) existing := by
  have hown : ofClient client (requests ++ [request]) = ofClient client requests := by
    simp [ofClient, hother]
  rw [hown]
  cases existing with
  | none => exact fun now hnow r hr => h now (fun r' hr' => hnow r' (List.mem_append_left _ hr')) r hr
  | some entry => exact h

/-- A clean-up forgets only windows that have passed. -/
private theorem cleanupWindows_remembers
    {client : String} {requests : List AnonymousRequest} {request : AnonymousRequest}
    {windows : Dict String (Int × Int)} (hmem : request ∈ requests)
    (h : Remembers minIntervalSeconds (ofClient client requests) requests (windows.get? client)) :
    Remembers minIntervalSeconds (ofClient client requests) requests
      ((cleanupWindows windows request.now minIntervalSeconds).get? client) := by
  cases hafter : (cleanupWindows windows request.now minIntervalSeconds).get? client with
  | some entry =>
    rw [(Dict.get?_filter.1 hafter).1] at h
    exact h
  | none =>
    cases hbefore : windows.get? client with
    | none =>
      rw [hbefore] at h
      exact h
    | some entry =>
      obtain ⟨start, count⟩ := entry
      rw [hbefore] at h
      obtain ⟨-, hle, -⟩ := h
      have hcutoff : start < request.now - max retentionSeconds (minIntervalSeconds * 3) := by
        by_contra hkept
        have hget : (cleanupWindows windows request.now minIntervalSeconds).get? client = some (start, count) :=
          Dict.get?_filter.2 ⟨hbefore, by simpa using hkept⟩
        rw [hafter] at hget
        cases hget
      intro now hnow r hr
      have hstart := hle r hr
      have hlater := hnow request hmem
      have hwindow := lt_windowStart_add hpos now
      omega

/-- One request: the result is that of its count, and the limiter remembers it. -/
theorem consume_of_represents {limiter : AnonymousRateLimiter} {requests : List AnonymousRequest}
    {request : AnonymousRequest} (hlast : ∀ r ∈ requests, r.now ≤ request.now)
    (h : limiter.Represents minIntervalSeconds requests) :
    ∃ limiter', limiter.consume minIntervalSeconds request =
        .ok (anonymousResult minIntervalSeconds request.now
          ((inWindow minIntervalSeconds requests request).length + 1), limiter') ∧
      limiter'.Represents minIntervalSeconds (requests ++ [request]) := by
  have hcount := requestCount_of_remembers hpos hlast (h request.bucketKey)
  unfold AnonymousRateLimiter.consume
  rw [if_neg (by omega)]
  dsimp only
  rw [hcount]
  refine ⟨_, rfl, fun client => ?_⟩
  have hset : Remembers minIntervalSeconds (ofClient client (requests ++ [request])) (requests ++ [request])
      ((limiter.windows.set request.bucketKey (windowStart minIntervalSeconds request.now,
        ((inWindow minIntervalSeconds requests request).length : Int) + 1)).get? client) := by
    rw [Dict.get?_set]
    by_cases hclient : client = request.bucketKey
    · rw [if_pos hclient, hclient]
      exact remembers_request hpos hlast
    · rw [if_neg hclient]
      exact (h client).append_other (Ne.symm hclient)
  split
  · exact cleanupWindows_remembers hpos (List.mem_append_right _ (List.mem_singleton_self request)) hset
  · exact hset

/-- A run from a limiter that remembers earlier requests. -/
private theorem represents_of_run {limiter limiter' : AnonymousRateLimiter} {before requests : List AnonymousRequest}
    (hsorted : NonDecreasing (before ++ requests)) (h : limiter.Represents minIntervalSeconds before)
    (hrun : run (AnonymousRateLimiter.step minIntervalSeconds) limiter requests = some limiter') :
    limiter'.Represents minIntervalSeconds (before ++ requests) := by
  induction requests generalizing limiter before with
  | nil =>
    obtain rfl : limiter = limiter' := Option.some.inj hrun
    rw [List.append_nil]
    exact h
  | cons request requests ih =>
    have hlast : ∀ r ∈ before, r.now ≤ request.now := fun r hr =>
      (List.pairwise_append.1 hsorted).2.2 r hr request List.mem_cons_self
    obtain ⟨next, hconsume, hnext⟩ := consume_of_represents hpos hlast h
    obtain ⟨stepped, hstep, hrun⟩ := run_cons.1 hrun
    unfold AnonymousRateLimiter.step at hstep
    rw [hconsume] at hstep
    obtain rfl : next = stepped := Option.some.inj hstep
    have happend : before ++ request :: requests = before ++ [request] ++ requests := by simp
    rw [happend] at hsorted ⊢
    exact ih hsorted hnext hrun

/-- A run from a new limiter. -/
theorem represents_of_run_new {nextCleanupTs : Int} {limiter : AnonymousRateLimiter}
    {requests : List AnonymousRequest} (hsorted : NonDecreasing requests)
    (hrun : run (AnonymousRateLimiter.step minIntervalSeconds) (.new nextCleanupTs) requests = some limiter) :
    limiter.Represents minIntervalSeconds requests := by
  have hnew : (AnonymousRateLimiter.new nextCleanupTs).Represents minIntervalSeconds [] := by
    intro client now _ r hr
    cases hr
  exact represents_of_run (show 1 ≤ minIntervalSeconds from hpos) (by simpa using hsorted) hnew hrun

end Windows

private theorem AnonymousRateLimiter.run_total (minIntervalSeconds : Int) (limiter : AnonymousRateLimiter)
    (requests : List AnonymousRequest) :
    ∃ limiter', run (step minIntervalSeconds) limiter requests = some limiter' := by
  induction requests generalizing limiter with
  | nil => exact ⟨limiter, rfl⟩
  | cons request requests ih =>
    have hstep : ∃ next, limiter.step minIntervalSeconds request = some next := by
      unfold step
      cases limiter.consume minIntervalSeconds request with
      | ok pair => exact ⟨pair.2, rfl⟩
      | error exc => exact ⟨limiter, rfl⟩
    obtain ⟨next, hnext⟩ := hstep
    obtain ⟨limiter', hrun⟩ := ih next
    exact ⟨limiter', run_cons.2 ⟨next, hnext, hrun⟩⟩

/-! ### The minimum interval -/

section MinInterval

variable (minIntervalSeconds : Int)

/-- Two allowed requests of a client are at least the interval apart. -/
def Spaced (requests : List AnonymousRequest) : Prop :=
  ∀ pre r mid r' post limiter limiter', requests = pre ++ r :: (mid ++ r' :: post) → r'.bucketKey = r.bucketKey →
    run (AnonymousRateLimiter.step minIntervalSeconds) (.new 0) pre = some limiter →
      run (AnonymousRateLimiter.step minIntervalSeconds) (.new 0) (pre ++ r :: mid) = some limiter' →
        limiter.Allows minIntervalSeconds r → limiter'.Allows minIntervalSeconds r' →
          minIntervalSeconds ≤ r'.now - r.now

/-- A client gets the result that it would get without the other clients, whenever the clean-up runs. -/
def Independent (requests : List AnonymousRequest) : Prop :=
  ∀ pre r post nextCleanupTs nextCleanupTs' limiter limiter', requests = pre ++ r :: post →
    run (AnonymousRateLimiter.step minIntervalSeconds) (.new nextCleanupTs) pre = some limiter →
      run (AnonymousRateLimiter.step minIntervalSeconds) (.new nextCleanupTs') (ofClient r.bucketKey pre) =
          some limiter' →
        (limiter.consume minIntervalSeconds r).map Prod.fst = (limiter'.consume minIntervalSeconds r).map Prod.fst

/-- The first request of its client in its window. -/
def FirstInWindow (earlier : List AnonymousRequest) (request : AnonymousRequest) : Prop :=
  inWindow minIntervalSeconds earlier request = []

/-- The time since the beginning of the window. -/
def windowOffset (now : Int) : Int := now - windowStart minIntervalSeconds now

/-- Where a client makes a first request in each of two adjacent windows, the one in the later window is no earlier in
it than the other one was in its own. -/
def Steady (requests : List AnonymousRequest) : Prop :=
  ∀ pre r mid r' post, requests = pre ++ r :: (mid ++ r' :: post) → r'.bucketKey = r.bucketKey →
    FirstInWindow minIntervalSeconds pre r → FirstInWindow minIntervalSeconds (pre ++ r :: mid) r' →
      windowStart minIntervalSeconds r'.now = windowStart minIntervalSeconds r.now + minIntervalSeconds →
        windowOffset minIntervalSeconds r.now ≤ windowOffset minIntervalSeconds r'.now

variable {minIntervalSeconds}

private theorem NonDecreasing.of_append {xs ys : List AnonymousRequest} (h : NonDecreasing (xs ++ ys)) :
    NonDecreasing xs :=
  (List.pairwise_append.1 h).1

private theorem NonDecreasing.le_of_append {xs ys : List AnonymousRequest} {request : AnonymousRequest}
    (h : NonDecreasing (xs ++ request :: ys)) : ∀ r ∈ xs, r.now ≤ request.now := fun r hr =>
  (List.pairwise_append.1 h).2.2 r hr request List.mem_cons_self

private theorem allows_iff
    (hpos : 1 ≤ minIntervalSeconds) {limiter : AnonymousRateLimiter} {requests : List AnonymousRequest}
    {request : AnonymousRequest} (hlast : ∀ r ∈ requests, r.now ≤ request.now)
    (h : limiter.Represents minIntervalSeconds requests) :
    limiter.Allows minIntervalSeconds request ↔ FirstInWindow minIntervalSeconds requests request := by
  obtain ⟨limiter', hconsume, -⟩ := consume_of_represents hpos hlast h
  have hallowed : (anonymousResult minIntervalSeconds request.now
      ((inWindow minIntervalSeconds requests request).length + 1)).allowed ↔
      FirstInWindow minIntervalSeconds requests request := by
    unfold FirstInWindow anonymousResult
    rw [← List.length_eq_zero_iff]
    simp only [decide_eq_true_eq]
    omega
  rw [← hallowed]
  constructor
  · rintro ⟨result, next, hresult, h⟩
    rw [hconsume] at hresult
    cases hresult
    exact h
  · intro h
    exact ⟨_, limiter', hconsume, h⟩

/-- In windows that are no neighbours requests are an interval apart, in adjacent ones it depends on their offsets. -/
private theorem interval_le_iff (hpos : 1 ≤ minIntervalSeconds) {a b : Int}
    (h : windowStart minIntervalSeconds a < windowStart minIntervalSeconds b) :
    minIntervalSeconds ≤ b - a ↔
      (windowStart minIntervalSeconds b = windowStart minIntervalSeconds a + minIntervalSeconds →
        windowOffset minIntervalSeconds a ≤ windowOffset minIntervalSeconds b) := by
  have ha := windowStart_le hpos a
  have ha' := lt_windowStart_add hpos a
  have hb := windowStart_le hpos b
  have hb' := lt_windowStart_add hpos b
  -- the starts of two windows differ by a multiple of the interval
  have hgap : windowStart minIntervalSeconds b = windowStart minIntervalSeconds a + minIntervalSeconds ∨
      windowStart minIntervalSeconds a + 2 * minIntervalSeconds ≤ windowStart minIntervalSeconds b := by
    unfold windowStart at h ⊢
    have hlt : a / minIntervalSeconds < b / minIntervalSeconds := lt_of_mul_lt_mul_right h (by omega)
    rcases eq_or_lt_of_le (Int.add_one_le_iff.2 hlt) with heq | hlt2
    · left
      rw [← heq, add_mul, one_mul]
    · right
      have hmul : (a / minIntervalSeconds + 2) * minIntervalSeconds ≤ b / minIntervalSeconds * minIntervalSeconds :=
        mul_le_mul_of_nonneg_right (by omega) (by omega)
      rw [add_mul] at hmul
      exact hmul
  unfold windowOffset
  rcases hgap with heq | hfar
  · rw [heq]
    constructor
    · intro _ _
      omega
    · intro hoffset
      have := hoffset rfl
      omega
  · refine iff_of_true (by omega) fun heq => ?_
    omega

/-- Allowed requests of a client are the interval apart exactly if its requests are steady. -/
private theorem spaced_iff_steady (hpos : 1 ≤ minIntervalSeconds) {requests : List AnonymousRequest}
    (hsorted : NonDecreasing requests) : Spaced minIntervalSeconds requests ↔ Steady minIntervalSeconds requests := by
  -- two requests of a client, the first of their windows, in the two orders of the argument
  have apart {pre mid post : List AnonymousRequest} {r r' : AnonymousRequest}
      (hrequests : requests = pre ++ r :: (mid ++ r' :: post)) (hclient : r'.bucketKey = r.bucketKey)
      (hfirst : FirstInWindow minIntervalSeconds (pre ++ r :: mid) r') :
      windowStart minIntervalSeconds r.now < windowStart minIntervalSeconds r'.now := by
    have hsplit : requests = (pre ++ r :: mid) ++ r' :: post := by rw [hrequests]; simp
    have hmem : r ∈ pre ++ r :: mid := List.mem_append_right _ List.mem_cons_self
    have hle : r.now ≤ r'.now := (hsplit ▸ hsorted).le_of_append r hmem
    have hne : windowStart minIntervalSeconds r.now ≠ windowStart minIntervalSeconds r'.now := by
      intro heq
      have hin : r ∈ inWindow minIntervalSeconds (pre ++ r :: mid) r' := by
        unfold inWindow
        rw [List.mem_filter]
        exact ⟨mem_ofClient.2 ⟨hmem, hclient.symm⟩, by simpa using heq⟩
      rw [hfirst] at hin
      cases hin
    exact lt_of_le_of_ne (windowStart_mono hpos hle) hne
  have allows {pre post : List AnonymousRequest} {r : AnonymousRequest} {limiter : AnonymousRateLimiter}
      (hrequests : requests = pre ++ r :: post)
      (hrun : run (AnonymousRateLimiter.step minIntervalSeconds) (.new 0) pre = some limiter) :
      limiter.Allows minIntervalSeconds r ↔ FirstInWindow minIntervalSeconds pre r := by
    have hsorted' : NonDecreasing (pre ++ r :: post) := hrequests ▸ hsorted
    exact allows_iff hpos hsorted'.le_of_append (represents_of_run_new hpos hsorted'.of_append hrun)
  constructor
  · intro h pre r mid r' post hrequests hclient hr hr'
    obtain ⟨limiter, hrun⟩ := AnonymousRateLimiter.run_total minIntervalSeconds (.new 0) pre
    obtain ⟨limiter', hrun'⟩ := AnonymousRateLimiter.run_total minIntervalSeconds (.new 0) (pre ++ r :: mid)
    have hsplit : requests = (pre ++ r :: mid) ++ r' :: post := by rw [hrequests]; simp
    have hinterval := h pre r mid r' post limiter limiter' hrequests hclient hrun hrun'
      ((allows hrequests hrun).2 hr) ((allows hsplit hrun').2 hr')
    exact (interval_le_iff hpos (apart hrequests hclient hr')).1 hinterval
  · intro h pre r mid r' post limiter limiter' hrequests hclient hrun hrun' hallows hallows'
    have hsplit : requests = (pre ++ r :: mid) ++ r' :: post := by rw [hrequests]; simp
    have hr := (allows hrequests hrun).1 hallows
    have hr' := (allows hsplit hrun').1 hallows'
    exact (interval_le_iff hpos (apart hrequests hclient hr')).2 (h pre r mid r' post hrequests hclient hr hr')

/-- The result of a request depends on the earlier requests of its client only. -/
private theorem independent_of_sorted (hpos : 1 ≤ minIntervalSeconds) {requests : List AnonymousRequest}
    (hsorted : NonDecreasing requests) : Independent minIntervalSeconds requests := by
  intro pre r post nextCleanupTs nextCleanupTs' limiter limiter' hrequests hrun hrun'
  have hsorted' : NonDecreasing (pre ++ r :: post) := hrequests ▸ hsorted
  have hown : NonDecreasing (ofClient r.bucketKey pre) := hsorted'.of_append.filter _
  have hlast := hsorted'.le_of_append
  obtain ⟨next, hconsume, -⟩ :=
    consume_of_represents hpos hlast (represents_of_run_new hpos hsorted'.of_append hrun)
  obtain ⟨next', hconsume', -⟩ :=
    consume_of_represents hpos (fun r' hr' => hlast r' (mem_ofClient.1 hr').1) (represents_of_run_new hpos hown hrun')
  have hsame : inWindow minIntervalSeconds (ofClient r.bucketKey pre) r = inWindow minIntervalSeconds pre r := by
    simp [inWindow, ofClient, List.filter_filter]
  rw [hconsume, hconsume', hsame]
  rfl

/-- For non-decreasing times the limiter keeps the minimum interval, and every client its own results, exactly if no
client starts an adjacent window earlier in it than the one before. -/
theorem anonymous_min_interval_iff (hpos : 1 ≤ minIntervalSeconds) {requests : List AnonymousRequest}
    (hsorted : NonDecreasing requests) :
    Spaced minIntervalSeconds requests ∧ Independent minIntervalSeconds requests ↔
      Steady minIntervalSeconds requests := by
  rw [spaced_iff_steady hpos hsorted]
  exact and_iff_left (independent_of_sorted hpos hsorted)

/-- Windows of one second, the interval by default, have no places: all requests are steady. -/
private theorem steady_one (requests : List AnonymousRequest) : Steady 1 requests := by
  have hoffset (now : Int) : windowOffset 1 now = 0 := by
    unfold windowOffset windowStart
    omega
  intro _ r _ r' _ _ _ _ _ _
  rw [hoffset, hoffset]

theorem spaced_one {requests : List AnonymousRequest} (hsorted : NonDecreasing requests) : Spaced 1 requests :=
  (spaced_iff_steady le_rfl hsorted).2 (steady_one requests)

/-- Two requests of a client, one second apart on the two sides of a boundary between windows of five seconds. -/
theorem anonymous_interval_missed :
    NonDecreasing [⟨"203.0.113.7", 4⟩, ⟨"203.0.113.7", 5⟩] ∧
      ¬ (Spaced 5 [⟨"203.0.113.7", 4⟩, ⟨"203.0.113.7", 5⟩] ∧
        Independent 5 [⟨"203.0.113.7", 4⟩, ⟨"203.0.113.7", 5⟩]) := by
  have hsorted : NonDecreasing [⟨"203.0.113.7", 4⟩, ⟨"203.0.113.7", 5⟩] := by simp [NonDecreasing]
  refine ⟨hsorted, ?_⟩
  rintro ⟨hspaced, -⟩
  have hsteady := (spaced_iff_steady (by decide) hsorted).1 hspaced
  have hfirst : FirstInWindow 5 [⟨"203.0.113.7", 4⟩] ⟨"203.0.113.7", 5⟩ := by
    unfold FirstInWindow
    decide
  have hoffset := hsteady [] ⟨"203.0.113.7", 4⟩ [] ⟨"203.0.113.7", 5⟩ [] rfl rfl rfl hfirst (by decide)
  revert hoffset
  decide

/-- The same client at the same place of the next window. -/
theorem anonymous_interval_kept :
    Spaced 5 [⟨"203.0.113.7", 4⟩, ⟨"203.0.113.7", 9⟩] ∧ Independent 5 [⟨"203.0.113.7", 4⟩, ⟨"203.0.113.7", 9⟩] := by
  have hsorted : NonDecreasing [⟨"203.0.113.7", 4⟩, ⟨"203.0.113.7", 9⟩] := by simp [NonDecreasing]
  refine (anonymous_min_interval_iff (by decide) hsorted).2 ?_
  intro pre r mid r' post hrequests _ _ _ _
  have hlength := congrArg List.length hrequests
  simp only [List.length_append, List.length_cons, List.length_nil] at hlength
  obtain rfl : pre = [] := List.length_eq_zero_iff.1 (by omega)
  obtain rfl : mid = [] := List.length_eq_zero_iff.1 (by omega)
  cases hrequests
  decide

end MinInterval

end TokenPriceAgg

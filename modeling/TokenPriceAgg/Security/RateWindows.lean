import TokenPriceAgg.Security.ApiKeyStore
import Mathlib.Data.List.Induction

/-!
# The rate windows of keys

The count that `consume_rate_limit` returns.  Windows are deleted once they are 120 windows older than the call that
deletes them, and until then a window has the number of calls of its key in it (`counts_calls`).  So no clean-up
changes a count, as long as no call comes more than 120 windows late (`consumeRateLimit_counts`).
-/

namespace TokenPriceAgg

open PyLib

structure RateCall where
  publicId : String
  limitRpm : Int
  now : Timestamp

namespace RateCall

/-- The number of the window. -/
def window (call : RateCall) : Int := call.now.val / rateWindowSeconds

/-- The call is accepted; the other ones raise. -/
def Counted (call : RateCall) : Prop := 0 < call.limitRpm

instance (call : RateCall) : Decidable call.Counted := inferInstanceAs (Decidable (_ < _))

def reply (store : ApiKeyStore) (call : RateCall) : Except Exn RateLimitResult :=
  (consumeRateLimit call.publicId call.limitRpm call.now store).map Prod.fst

/-- The store after the call. -/
def apply (store : ApiKeyStore) (call : RateCall) : ApiKeyStore :=
  match consumeRateLimit call.publicId call.limitRpm call.now store with
  | .ok (_, store') => store'
  | .error _ => store

end RateCall

/-- The store after the calls. -/
def afterCalls (store : ApiKeyStore) (calls : List RateCall) : ApiKeyStore := calls.foldl RateCall.apply store

/-- The accepted calls of a key in a window. -/
def callsIn (calls : List RateCall) (publicId : String) (window : Int) : List RateCall :=
  calls.filter fun call => call.Counted ∧ call.publicId = publicId ∧ call.window = window

/-- No accepted call is more than 120 windows behind an earlier one. -/
def NeverFarBehind (calls : List RateCall) : Prop :=
  (calls.filter fun call => call.Counted).Pairwise fun earlier later => earlier.window - 120 ≤ later.window

/-! ### The stored counts -/

/-- Up to 120 windows behind the calls, each window has the number of calls in it. -/
def Counts (store : ApiKeyStore) (calls : List RateCall) : Prop :=
  ∀ publicId window, (∀ call ∈ calls, call.Counted → call.window - 120 ≤ window) →
    store.windows.getD (publicId, window * rateWindowSeconds) 0 = (callsIn calls publicId window).length

private theorem rateWindowForNow_fst (now : Int) :
    (rateWindowForNow now).1 = now / rateWindowSeconds * rateWindowSeconds := by
  have h := Int.emod_add_mul_ediv now rateWindowSeconds
  rw [Int.mul_comm] at h
  show now - now % rateWindowSeconds = _
  omega

/-- A clean-up keeps the counts of the last 120 windows. -/
private theorem getD_cleanup (windows : Dict (String × Int) Int) {now window nextCleanupTs : Int} (publicId : String)
    (h : now / rateWindowSeconds - 120 ≤ window) :
    (cleanupRateWindowsIfDue windows now (now / rateWindowSeconds * rateWindowSeconds) nextCleanupTs).1.getD
      (publicId, window * rateWindowSeconds) 0 = windows.getD (publicId, window * rateWindowSeconds) 0 := by
  unfold cleanupRateWindowsIfDue
  split
  · rfl
  · apply Dict.getD_filter_of_keep
    intro count
    unfold rateLimitRetentionSeconds rateWindowSeconds at *
    simp only [decide_eq_true_eq]
    omega

/-- What an accepted call returns, and the counts it leaves. -/
theorem consumeRateLimit_counted (store : ApiKeyStore) {call : RateCall} (h : call.Counted) :
    ∃ result store', consumeRateLimit call.publicId call.limitRpm call.now store = .ok (result, store') ∧
      result.requestCount = store.windows.getD (call.publicId, call.window * rateWindowSeconds) 0 + 1 ∧
      (result.allowed = true ↔ result.requestCount ≤ call.limitRpm) ∧
      ∀ publicId window, call.window - 120 ≤ window →
        store'.windows.getD (publicId, window * rateWindowSeconds) 0 =
          if publicId = call.publicId ∧ window = call.window then result.requestCount
          else store.windows.getD (publicId, window * rateWindowSeconds) 0 := by
  have hlimit : ¬ call.limitRpm ≤ 0 := Int.not_le.2 h
  have hstart := rateWindowForNow_fst call.now.val
  unfold consumeRateLimit
  rw [if_neg hlimit]
  -- only the start of the window matters, not when it ends
  generalize rateWindowForNow call.now.val = current at hstart
  obtain ⟨windowStart, resetEpoch, retryAfter⟩ := current
  dsimp only at hstart ⊢
  generalize hcount : store.windows.getD (call.publicId, windowStart) 0 + 1 = count
  generalize hcleaned : cleanupRateWindowsIfDue (store.windows.set (call.publicId, windowStart) count) call.now.val
    windowStart store.nextRateWindowCleanupTs = cleaned
  refine ⟨_, _, rfl, ?_, decide_eq_true_iff, ?_⟩
  · rw [← hcount, hstart]
    rfl
  · intro publicId window hwindow
    dsimp only
    rw [← hcleaned, hstart, getD_cleanup _ publicId hwindow, Dict.getD_set]
    have hkey : (publicId, window * rateWindowSeconds) =
        (call.publicId, call.now.val / rateWindowSeconds * rateWindowSeconds) ↔
          publicId = call.publicId ∧ window = call.window := by
      rw [Prod.mk.injEq]
      refine and_congr_right fun _ => ?_
      unfold RateCall.window rateWindowSeconds
      omega
    simp only [hkey]

private theorem consumeRateLimit_refused (store : ApiKeyStore) {call : RateCall} (h : ¬ call.Counted) :
    consumeRateLimit call.publicId call.limitRpm call.now store = .error (.valueError "limit_rpm must be > 0") := by
  unfold consumeRateLimit
  rw [if_pos (Int.not_lt.1 h)]

theorem callsIn_append (earlier : List RateCall) (call : RateCall) (publicId : String) (window : Int) :
    (callsIn (earlier ++ [call]) publicId window).length =
      (callsIn earlier publicId window).length +
        if call.Counted ∧ call.publicId = publicId ∧ call.window = window then 1 else 0 := by
  unfold callsIn
  rw [List.filter_append, List.length_append]
  congr 1
  by_cases h : call.Counted ∧ call.publicId = publicId ∧ call.window = window
  · rw [if_pos h, List.filter_cons_of_pos (by simpa using h)]
    rfl
  · rw [if_neg h, List.filter_cons_of_neg (by simpa using h)]
    rfl

/-- A call that is not far behind keeps the counts. -/
theorem Counts.apply {store : ApiKeyStore} {earlier : List RateCall} {call : RateCall} (h : Counts store earlier)
    (hfar : call.Counted → ∀ c ∈ earlier, c.Counted → c.window - 120 ≤ call.window) :
    Counts (call.apply store) (earlier ++ [call]) := by
  intro publicId window hwindow
  have hearlier : ∀ c ∈ earlier, c.Counted → c.window - 120 ≤ window :=
    fun c hc => hwindow c (List.mem_append_left _ hc)
  rw [callsIn_append]
  by_cases hcounted : call.Counted
  · obtain ⟨result, store', hconsume, hcount, -, hstore⟩ := consumeRateLimit_counted store hcounted
    have hcall := hwindow call (by simp) hcounted
    have happly : call.apply store = store' := by
      unfold RateCall.apply
      rw [hconsume]
    rw [happly, hstore publicId window hcall]
    -- the call adds one to its own count and leaves the others
    by_cases hsame : publicId = call.publicId ∧ window = call.window
    · obtain ⟨rfl, rfl⟩ := hsame
      rw [if_pos ⟨rfl, rfl⟩, if_pos ⟨hcounted, rfl, rfl⟩, hcount, h _ _ (hfar hcounted)]
      rfl
    · have hother : ¬ (call.Counted ∧ call.publicId = publicId ∧ call.window = window) :=
        fun ⟨_, hid, hw⟩ => hsame ⟨hid.symm, hw.symm⟩
      rw [if_neg hsame, if_neg hother, h publicId window hearlier]
      rfl
  · have happly : call.apply store = store := by
      unfold RateCall.apply
      rw [consumeRateLimit_refused store hcounted]
    rw [happly, if_neg (fun hother => hcounted hother.1), h publicId window hearlier]
    rfl

theorem NeverFarBehind.last {earlier : List RateCall} {call : RateCall} (h : NeverFarBehind (earlier ++ [call])) :
    NeverFarBehind earlier ∧ (call.Counted → ∀ c ∈ earlier, c.Counted → c.window - 120 ≤ call.window) := by
  unfold NeverFarBehind at h ⊢
  rw [List.filter_append, List.pairwise_append] at h
  refine ⟨h.1, ?_⟩
  intro hcounted c hc hc'
  refine h.2.2 c (List.mem_filter.2 ⟨hc, by simpa using hc'⟩) call ?_
  exact List.mem_filter.2 ⟨by simp, by simpa using hcounted⟩

/-- After calls of which none was far behind, the stored counts are those of the calls. -/
private theorem counts_calls (keys : Dict String ApiKeyRow) (nextCleanupTs : Int) {calls : List RateCall}
    (h : NeverFarBehind calls) : Counts (afterCalls ⟨keys, .empty, nextCleanupTs⟩ calls) calls := by
  induction calls using List.reverseRecOn with
  | nil =>
    intro publicId window _
    rfl
  | append_singleton earlier call ih =>
    obtain ⟨hearlier, hfar⟩ := h.last
    unfold afterCalls
    rw [List.foldl_append]
    exact (ih hearlier).apply hfar

/-- Every accepted call is counted with the earlier ones of its key in its window, and allowed up to its limit.  The
other calls raise and change nothing. -/
theorem consumeRateLimit_counts (keys : Dict String ApiKeyRow) (nextCleanupTs : Int) (calls : List RateCall)
    (hfar : NeverFarBehind calls) (earlier later : List RateCall) (call : RateCall)
    (hcalls : calls = earlier ++ call :: later) :
    let store := afterCalls ⟨keys, .empty, nextCleanupTs⟩ earlier
    (call.Counted → ∃ result, call.reply store = .ok result ∧
      result.requestCount = 1 + (callsIn earlier call.publicId call.window).length ∧
      (result.allowed = true ↔ result.requestCount ≤ call.limitRpm)) ∧
    (¬ call.Counted → call.reply store = .error (.valueError "limit_rpm must be > 0") ∧ call.apply store = store) := by
  intro store
  constructor
  · intro hcounted
    have hprefix : NeverFarBehind (earlier ++ [call]) := by
      rw [hcalls, ← List.singleton_append, ← List.append_assoc] at hfar
      unfold NeverFarBehind at hfar ⊢
      rw [List.filter_append] at hfar
      exact (List.pairwise_append.1 hfar).1
    obtain ⟨hearlier, hcall⟩ := hprefix.last
    obtain ⟨result, store', hconsume, hcount, hallowed, -⟩ := consumeRateLimit_counted store hcounted
    refine ⟨result, ?_, ?_, hallowed⟩
    · unfold RateCall.reply
      rw [hconsume]
      rfl
    · have hstored := counts_calls keys nextCleanupTs hearlier call.publicId call.window (hcall hcounted)
      rw [hcount, hstored]
      exact Int.add_comm _ _
  · intro hcounted
    have hrefused := consumeRateLimit_refused store hcounted
    constructor
    · unfold RateCall.reply
      rw [hrefused]
      rfl
    · unfold RateCall.apply
      rw [hrefused]

/-- A call that comes late, in the window of the first one although a later window has begun. -/
theorem consumeRateLimit_late :
    let first : RateCall := ⟨"00000000000000aa", 1, 119, by decide⟩
    let next : RateCall := ⟨"00000000000000aa", 1, 120, by decide⟩
    let late : RateCall := ⟨"00000000000000aa", 1, 60, by decide⟩
    ∃ result, late.reply (afterCalls .empty [first, next]) = .ok result ∧ result.requestCount = 2 ∧
      result.allowed = false := by
  intro first next late
  have hfar : NeverFarBehind [first, next, late] := by
    unfold NeverFarBehind
    decide
  obtain ⟨result, hreply, hcount, hallowed⟩ :=
    (consumeRateLimit_counts .empty 0 [first, next, late] hfar [first, next] [] late rfl).1
      (show (0 : Int) < 1 by decide)
  have htwo : result.requestCount = 2 := hcount
  refine ⟨result, hreply, htwo, ?_⟩
  rw [← Bool.not_eq_true, hallowed, htwo]
  decide

end TokenPriceAgg

import TokenPriceAgg.Core.ProviderRunner
import TokenPriceAgg.Lib.DateTime
import TokenPriceAgg.Lib.PyText

/-!
# The transport helpers

What a provider adapter makes of an HTTP call before it looks at the payload.  The payloads are left open: `Obj` and
`Arr` are the JSON objects and arrays.

`parseRetryAfterMs` reads a number of seconds or an HTTP date.  The date parser of the `email` package is a
parameter; it yields a datetime, naive or with an offset, or one of the exceptions that `_parse_http_date` catches.
-/

namespace TokenPriceAgg

open PyLib

inductive JsonData (Obj Arr : Type)
  | dict (payload : Obj)
  | list (items : Arr)

structure HttpResponse (Obj Arr : Type) where
  statusCode : Int
  jsonData : Option (JsonData Obj Arr)
  /-- the names are lower case -/
  headers : Dict String String

/-- How `await client.get(...)` ends. -/
inductive ClientOutcome (Obj Arr : Type)
  | response (response : HttpResponse Obj Arr)
  | poolTimeout
  | timeoutException
  /-- any other `httpx.HTTPError`, by its text -/
  | httpError (message : String)
  | raised (exc : Exn)

structure HttpCallResult (Obj Arr : Type) where
  latencyMs : Millis
  response : Option (HttpResponse Obj Arr) := none
  timeout : Bool := false
  timeoutErrorType : Option ErrorType := none
  httpError : Option String := none

/-- What the helpers ask the standard library for: `parsedate_to_datetime` and `datetime.now(tz=timezone.utc)`. -/
structure HttpDates where
  parsedateToDatetime : List Char → Option DateTime
  utcNow : DateTime

inductive FailureReason
  | timeout
  | httpError
  | non200
  | invalidJson
deriving DecidableEq, Repr

structure ProviderTransportFailure where
  reason : FailureReason
  status : ProviderStatus
  errorType : ErrorType
  message : String
  latencyMs : Millis
  httpStatusCode : Option Int := none
  retryAfterMs : Option Int := none

def ProviderTransportFailure.toErrorInfo (failure : ProviderTransportFailure) : ErrorInfo where
  type := failure.errorType
  message := failure.message
  code := failure.httpStatusCode
  retryAfterMs := failure.retryAfterMs

structure HttpStatusFailure where
  status : ProviderStatus
  errorType : ErrorType
  message : String
  httpStatusCode : Int
  retryAfterMs : Option Int

def HttpStatusFailure.toErrorInfo (failure : HttpStatusFailure) : ErrorInfo where
  type := failure.errorType
  message := failure.message
  code := some failure.httpStatusCode
  retryAfterMs := failure.retryAfterMs

/-- `JsonTransportOutcome`; it has a payload or a failure. -/
structure JsonTransportOutcome (Obj : Type) where
  latencyMs : Millis
  result : Except ProviderTransportFailure Obj

def statusFromHttpCode (statusCode : Int) : ProviderStatus × ErrorType :=
  if statusCode = 429 then (.error, .rateLimited)
  else if statusCode = 400 ∨ statusCode = 422 then (.badRequest, .upstreamHttp)
  else if statusCode = 404 then (.noRoute, .noRoute)
  else (.error, .upstreamHttp)

section Helpers

variable {Obj Arr : Type} (dates : HttpDates)

def timedGet (latencyMs : Millis) : ClientOutcome Obj Arr → Except Exn (HttpCallResult Obj Arr)
  | .response response => .ok { latencyMs, response := some response }
  | .poolTimeout => .ok { latencyMs, timeout := true, timeoutErrorType := some .internalTransportTimeout }
  | .timeoutException => .ok { latencyMs, timeout := true, timeoutErrorType := some .timeout }
  | .httpError message => .ok { latencyMs, httpError := some message }
  | .raised exc => .error exc

def timeoutErrorInfo (call : HttpCallResult Obj Arr) (providerName : String) : ErrorInfo :=
  let errorType := call.timeoutErrorType.getD .timeout
  if errorType = .internalTransportTimeout then
    { type := errorType
      message := providerName ++ " internal transport timed out before acquiring outbound capacity" }
  else { type := errorType, message := providerName ++ " request timed out" }

/-- `_parse_http_date`; the conversion to UTC is not in its `try` block. -/
def parseHttpDate (value : List Char) : Except Exn (Option DateTime) :=
  match dates.parsedateToDatetime value with
  | none => .ok none
  | some parsed =>
    match parsed.utcOffset with
    | none => .ok (some parsed.replaceUtc)
    | some offset =>
      match parsed.astimezoneUtc offset with
      | .ok retryAt => .ok (some retryAt)
      | .error _ => .error .overflowError

/-- The delay from now to a date, none if the date is not in the future. -/
def delayUntil (now : Option DateTime) (retryAt : DateTime) : Option Int :=
  let current := now.getD dates.utcNow
  let current := if current.utcOffset = none then current.replaceUtc else current
  let deltaMs := totalMillis (retryAt.sub current)
  if 0 < deltaMs then some deltaMs else none

def parseRetryAfterMs (response : HttpResponse Obj Arr) (now : Option DateTime) : Except Exn (Option Int) :=
  match response.headers.get? "retry-after" with
  | none => .ok none
  | some retryAfter =>
    let stripped := strip retryAfter.toList
    if stripped = [] then .ok none
    else
      match intOfText stripped with
      | none => (parseHttpDate dates stripped).map fun retryAt => retryAt.bind (delayUntil dates now)
      | some seconds => .ok (if seconds < 0 then none else some (seconds * 1000))

def non200Status (response : HttpResponse Obj Arr) (providerName : String) : Except Exn (Option HttpStatusFailure) :=
  if response.statusCode = 200 then .ok none
  else do
    let (status, errorType) := statusFromHttpCode response.statusCode
    let retryAfterMs ← parseRetryAfterMs dates response none
    pure (some
      { status, errorType, message := providerName ++ " returned " ++ toString response.statusCode
        httpStatusCode := response.statusCode, retryAfterMs })

def expectJsonDict (response : HttpResponse Obj Arr) (invalidJsonMessage : String) : Except String Obj :=
  match response.jsonData with
  | some (.dict payload) => .ok payload
  | _ => .error invalidJsonMessage

def jsonTransportOutcome (call : HttpCallResult Obj Arr) (providerName invalidJsonMessage : String) :
    Except Exn (JsonTransportOutcome Obj) :=
  let failed (reason : FailureReason) (errorType : ErrorType) (message : String) : JsonTransportOutcome Obj :=
    { latencyMs := call.latencyMs
      result := .error { reason, status := .error, errorType, message, latencyMs := call.latencyMs } }
  if call.timeout then
    let error := timeoutErrorInfo call providerName
    .ok (failed .timeout error.type error.message)
  else
    match call.httpError with
    | some message => .ok (failed .httpError .upstreamHttp message)
    | none =>
      match call.response with
      | none => .ok (failed .httpError .upstreamHttp (providerName ++ " response missing"))
      | some response => do
        match ← non200Status dates response providerName with
        | some failure =>
          pure { latencyMs := call.latencyMs
                 result := .error
                   { reason := .non200, status := failure.status, errorType := failure.errorType
                     message := failure.message, latencyMs := call.latencyMs
                     httpStatusCode := some failure.httpStatusCode, retryAfterMs := failure.retryAfterMs } }
        | none =>
          match expectJsonDict response invalidJsonMessage with
          | .ok payload => pure { latencyMs := call.latencyMs, result := .ok payload }
          | .error message => pure (failed .invalidJson .upstreamParse message)

end Helpers

/-! ### The retry hint -/

section RetryAfter

variable {Obj Arr : Type} {dates : HttpDates} {response : HttpResponse Obj Arr} {now : Option DateTime}
  {value : List Char}

/-- The header is a number of seconds, if it is one, below the largest float, and a date, if it is one, whose UTC
reading is within the years 1 to 9999. -/
def ReadableRetryAfter (dates : HttpDates) (response : HttpResponse Obj Arr) : Prop :=
  ∀ retryAfter ∈ response.headers.get? "retry-after", strip retryAfter.toList ≠ [] →
    (∀ seconds ∈ intOfText (strip retryAfter.toList), seconds < floatLimit) ∧
    (intOfText (strip retryAfter.toList) = none →
      ∀ parsed ∈ dates.parsedateToDatetime (strip retryAfter.toList), ∀ offset ∈ parsed.utcOffset,
        InCalendar (parsed.wall - offset))

/-- A hint that is not negative and whose number of seconds has a float. -/
def UsableHint (hint : Option Int) : Prop := ∀ ms ∈ hint, 0 ≤ ms ∧ FitsFloat ms 1000

private theorem parseHttpDate_error {exc : Exn} : parseHttpDate dates value = .error exc ↔ exc = .overflowError ∧
    ∃ parsed ∈ dates.parsedateToDatetime value, ∃ offset ∈ parsed.utcOffset, ¬ InCalendar (parsed.wall - offset) := by
  unfold parseHttpDate
  cases dates.parsedateToDatetime value with
  | none => simp
  | some parsed =>
    cases ho : parsed.utcOffset with
    | none => simp [ho]
    | some offset =>
      by_cases hc : InCalendar (parsed.wall - offset)
      · simp [DateTime.astimezoneUtc, hc, ho]
      · simp [DateTime.astimezoneUtc, hc, ho, eq_comm]

/-- A delay between two datetimes has a float. -/
private theorem totalMillis_sub_fits (a b : DateTime) : FitsFloat (totalMillis (a.sub b)) 1000 := by
  have hmillis : |(totalMillis (a.sub b) : ℚ)| ≤ |((a.sub b : Int) : ℚ)| := abs_totalMillis_le _
  have hint : |totalMillis (a.sub b)| ≤ |a.sub b| := by exact_mod_cast hmillis
  have hsub : |a.sub b| < 4 * wallLimit := a.abs_sub_lt b
  have hbound : FitsFloat (4 * wallLimit) 1000 := by decide +kernel
  refine hbound.of_le ?_
  have hlt : |totalMillis (a.sub b)| < 4 * wallLimit := lt_of_le_of_lt hint hsub
  rw [Int.abs_eq_natAbs] at hlt
  omega

private theorem delayUntil_usable (dates : HttpDates) (now : Option DateTime) (retryAt : DateTime) :
    UsableHint (delayUntil dates now retryAt) := by
  intro ms hms
  unfold delayUntil at hms
  by_cases hpos : 0 < totalMillis (retryAt.sub
      (if (now.getD dates.utcNow).utcOffset = none then (now.getD dates.utcNow).replaceUtc else now.getD dates.utcNow))
  · rw [if_pos hpos] at hms
    cases hms
    exact ⟨hpos.le, totalMillis_sub_fits _ _⟩
  · rw [if_neg hpos] at hms
    cases hms

private theorem fitsFloat_seconds {seconds : Int} (h : 0 ≤ seconds) :
    FitsFloat (seconds * 1000) 1000 ↔ seconds < floatLimit := by
  rw [fitsFloat_iff, Int.natAbs_mul]
  have hthousand : (1000 : Int).natAbs = 1000 := rfl
  rw [hthousand]
  omega

/-- A readable header gives a usable hint or none. -/
theorem parseRetryAfterMs_of_readable (h : ReadableRetryAfter dates response) (now : Option DateTime) :
    ∃ hint, parseRetryAfterMs dates response now = .ok hint ∧ UsableHint hint := by
  have hnone : UsableHint none := fun ms hms => by cases hms
  unfold parseRetryAfterMs
  cases hheader : response.headers.get? "retry-after" with
  | none => exact ⟨none, rfl, hnone⟩
  | some retryAfter =>
    dsimp only
    by_cases hblank : strip retryAfter.toList = []
    · rw [if_pos hblank]
      exact ⟨none, rfl, hnone⟩
    · rw [if_neg hblank]
      obtain ⟨hseconds, hdate⟩ := h retryAfter hheader hblank
      cases hint : intOfText (strip retryAfter.toList) with
      | some seconds =>
        by_cases hneg : seconds < 0
        · exact ⟨none, by simp [hneg], hnone⟩
        · have hnonneg : 0 ≤ seconds := not_lt.1 hneg
          refine ⟨some (seconds * 1000), by simp [hneg], ?_⟩
          intro ms hms
          cases hms
          exact ⟨by omega, (fitsFloat_seconds hnonneg).2 (hseconds seconds hint)⟩
      | none =>
        dsimp only
        cases hparse : parseHttpDate dates (strip retryAfter.toList) with
        | ok retryAt =>
          cases retryAt with
          | none => exact ⟨none, rfl, hnone⟩
          | some retryAt => exact ⟨_, rfl, delayUntil_usable dates now retryAt⟩
        | error exc =>
          obtain ⟨-, parsed, hparsed, offset, hoffset, hout⟩ := parseHttpDate_error.1 hparse
          exact absurd (hdate hint parsed hparsed offset hoffset) hout

/-- Any other header raises, or gives a hint whose number of seconds has no float. -/
theorem parseRetryAfterMs_of_not_readable (h : ¬ ReadableRetryAfter dates response) (now : Option DateTime) :
    parseRetryAfterMs dates response now = .error .overflowError ∨
      ∃ ms, parseRetryAfterMs dates response now = .ok (some ms) ∧ ¬ FitsFloat ms 1000 := by
  unfold ReadableRetryAfter at h
  push Not at h
  obtain ⟨retryAfter, hheader, hblank, hunreadable⟩ := h
  unfold parseRetryAfterMs
  rw [Option.mem_def.1 hheader]
  dsimp only
  rw [if_neg hblank]
  cases hint : intOfText (strip retryAfter.toList) with
  | some seconds =>
    have hlarge : (floatLimit : Int) ≤ seconds := by
      by_contra hsmall
      have hall : ∀ s ∈ intOfText (strip retryAfter.toList), s < floatLimit := by
        intro s hs
        rw [hint] at hs
        cases hs
        exact not_le.1 hsmall
      obtain ⟨hcontra, -⟩ := hunreadable hall
      rw [hint] at hcontra
      cases hcontra
    have hnonneg : ¬ seconds < 0 := by omega
    refine .inr ⟨seconds * 1000, by simp [hnonneg], ?_⟩
    rw [fitsFloat_seconds (not_lt.1 hnonneg)]
    omega
  | none =>
    have hall : ∀ s ∈ intOfText (strip retryAfter.toList), s < floatLimit := by
      intro s hs
      rw [hint] at hs
      cases hs
    obtain ⟨-, parsed, hparsed, offset, hoffset, hout⟩ := hunreadable hall
    have herror : parseHttpDate dates (strip retryAfter.toList) = .error .overflowError :=
      parseHttpDate_error.2 ⟨rfl, parsed, hparsed, offset, hoffset, hout⟩
    dsimp only
    rw [herror]
    exact .inl rfl

end RetryAfter

end TokenPriceAgg

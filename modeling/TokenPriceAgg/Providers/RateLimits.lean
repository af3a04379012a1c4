import TokenPriceAgg.Core.CircuitRuns
import TokenPriceAgg.Core.FailClosed
import TokenPriceAgg.Providers.Adapters

/-!
# From a response of status 429 to an open circuit

The response goes through the transport helpers and the adapter, the adapter's answer is the plugin call of the
runner's task, and the result of the task is recorded with the circuit breaker.
-/

namespace TokenPriceAgg

open PyLib

/-! ### The circuit -/

section Circuit

variable {R : Type} [ProviderResult R] {cfg : CircuitConfig} {c c' : CircuitBreaker} {result : R} {e : ErrorInfo}

private theorem rateLimitDelay_of_usable (cfg : CircuitConfig) (h : UsableHint e.retryAfterMs) :
    ∃ delayS, rateLimitDelay cfg e = .ok delayS ∧ 0 < delayS := by
  have ho : (0 : ℚ) < cfg.openDurationS := Nat.cast_pos.2 cfg.openDurationS_pos
  have hmax : 0 < cfg.maxOpenS := ho.trans_le cfg.openDurationS_le
  have hopen (h : retryAfterOrOpen cfg e = cfg.openDurationS * 1000) :
      ∃ delayS, rateLimitDelay cfg e = .ok delayS ∧ 0 < delayS :=
    ⟨_, rateLimitDelay_of_open h, lt_min ho hmax⟩
  cases he : e.retryAfterMs with
  | none => exact hopen (by simp [retryAfterOrOpen, he])
  | some ms =>
    by_cases hzero : ms = 0
    · exact hopen (by simp [retryAfterOrOpen, he, hzero])
    · obtain ⟨hnonneg, hfits⟩ := h ms he
      have hpos : (0 : ℚ) < ms := by exact_mod_cast lt_of_le_of_ne hnonneg (Ne.symm hzero)
      exact ⟨_, rateLimitDelay_of_fits he hzero hfits, lt_min (by linarith) hmax⟩

/-- The scope is refused for some time after `now`. -/
def RefusesAfter (cfg : CircuitConfig) (c : CircuitBreaker) (scope : CircuitScope) (now : ℚ) : Prop :=
  ∃ u, now < u ∧ ∀ later, later < u → (c.allow cfg scope later).1 = false

/-- Recording a rate limit with a usable hint refuses the scope. -/
private theorem recordResult_refuses
    (he : rateLimited result = some e) (h : UsableHint e.retryAfterMs) (c : CircuitBreaker)
    (scope : CircuitScope) (t₁ t₂ : ℚ) :
    ∃ c', c.recordResult cfg scope result t₁ t₂ = .ok c' ∧ RefusesAfter cfg c' scope t₁ := by
  obtain ⟨delayS, hdelay, hpos⟩ := rateLimitDelay_of_usable cfg h
  cases hrecord : c.recordResult cfg scope result t₁ t₂ with
  | error exc =>
    obtain ⟨e', he', herror⟩ := CircuitBreaker.recordResult_error.1 hrecord
    rw [he] at he'
    cases he'
    rw [hdelay] at herror
    cases herror
  | ok c' =>
    refine ⟨c', rfl, max ((c.view scope).openUntil.getD 0) (t₁ + delayS), lt_max_of_lt_right (by linarith), ?_⟩
    intro later hlater
    have hview := CircuitBreaker.recordResult_ok hrecord
    rw [ScopeState.recordResult_rateLimit he hdelay] at hview
    have hopen : (c'.view scope).openUntil = some (max ((c.view scope).openUntil.getD 0) (t₁ + delayS)) := by
      rw [← Except.ok.inj hview]
      rfl
    rw [(c'.allow_view cfg scope scope later).1, ScopeState.allow_of_lt hopen hlater]

private theorem recordResult_raises {ms : Int} (he : rateLimited result = some e) (hms : e.retryAfterMs = some ms)
    (hf : ¬ FitsFloat ms 1000) (c : CircuitBreaker) (scope : CircuitScope) (t₁ t₂ : ℚ) :
    c.recordResult cfg scope result t₁ t₂ = .error .overflowError :=
  CircuitBreaker.recordResult_error.2 ⟨e, he, rateLimitDelay_of_not_fits hms hf⟩

end Circuit

/-! ### The runner -/

section Path

variable {Req A R : Type} [ProviderResult R] (settings : Settings) (op : Operation Req A R) (env : Schedule Req A)
  (req : Req) (plugin : ProviderPlugin) (run : PluginRun A) (w : World R)

/-- The plugin's task returns an error of type `RATE_LIMITED`, that result is recorded without an exception, and the
circuit refuses the scope from then on. -/
def SeenAsRateLimit : Prop :=
  ∃ result, op.runSinglePlugin plugin req run = .ok result ∧
    ProviderResult.provider result = plugin.id ∧ ProviderResult.status result = .error ∧
    (∃ e ∈ ProviderResult.error result, e.type = .rateLimited) ∧
    ∃ w', Runner.recordResult settings env (Runner.scopeOf op req plugin.id) result w = (.ok (), w') ∧
      RefusesAfter settings.circuit w'.shared.circuit (Runner.scopeOf op req plugin.id) (env.clock w.reads)

variable {settings op env req plugin run w} {valid : Req → Prop} {echoes : Req → R → Prop}
  {accepted : ProviderPlugin → Req → PluginRun A → Option R} {result : R} {e : ErrorInfo} {scope : CircuitScope}

private theorem rateLimited_eq_some :
    rateLimited result = some e ↔ ProviderResult.error result = some e ∧ e.type = .rateLimited := by
  unfold rateLimited
  rw [Option.filter_eq_some_iff]
  simp

/-- The runner records a result with the shared circuit. -/
private theorem recordResult_of_ok {circuit : CircuitBreaker}
    (h : w.shared.circuit.recordResult settings.circuit scope result (env.clock w.reads) (env.clock (w.reads + 1)) =
      .ok circuit) :
    ∃ w', Runner.recordResult settings env scope result w = (.ok (), w') ∧ w'.shared.circuit = circuit := by
  let w₂ : World R := { w with reads := w.reads + 1 + 1 }
  have hcircuit : (Runner.ofExcept (w₂.shared.circuit.recordResult settings.circuit scope result (env.clock w.reads)
      (env.clock (w.reads + 1))) : Run R CircuitBreaker) w₂ = (.ok circuit, w₂) := by
    unfold Runner.ofExcept
    rw [h]
    rfl
  refine ⟨World.logEvent (.recorded scope) { w₂ with shared := { w₂.shared with circuit } }, ?_, rfl⟩
  exact Eff.bind_ok hcircuit _

private theorem recordResult_of_error {exc : Exn}
    (h : w.shared.circuit.recordResult settings.circuit scope result (env.clock w.reads) (env.clock (w.reads + 1)) =
      .error exc) :
    ∃ w', Runner.recordResult settings env scope result w = (.error (.exception exc), w') := by
  let w₂ : World R := { w with reads := w.reads + 1 + 1 }
  have hcircuit : (Runner.ofExcept (w₂.shared.circuit.recordResult settings.circuit scope result (env.clock w.reads)
      (env.clock (w.reads + 1))) : Run R CircuitBreaker) w₂ = (.error (.exception exc), w₂) := by
    unfold Runner.ofExcept
    rw [h]
    rfl
  exact ⟨w₂, Eff.bind_error hcircuit _⟩

private theorem seenAsRateLimit_of_accepted
    (hop : op.Sound valid echoes accepted) (ha : accepted plugin req run = some result)
    (hs : ProviderResult.status result = .error) (he : ProviderResult.error result = some e)
    (htype : e.type = .rateLimited) (h : UsableHint e.retryAfterMs) :
    SeenAsRateLimit settings op env req plugin run w := by
  have hrun := hop.run_of_accepted ha
  have hlimited : rateLimited result = some e := rateLimited_eq_some.2 ⟨he, htype⟩
  obtain ⟨circuit, hrecord, hrefuses⟩ := recordResult_refuses hlimited h w.shared.circuit
    (Runner.scopeOf op req plugin.id) (env.clock w.reads) (env.clock (w.reads + 1))
  obtain ⟨w', hw', hcircuit⟩ := recordResult_of_ok hrecord
  exact ⟨result, hrun, op.run_provider hrun, hs, ⟨e, he, htype⟩, w', hw', hcircuit ▸ hrefuses⟩

/-- A hint without a float is not recorded. -/
private theorem not_seenAsRateLimit_of_accepted {ms : Int} (hop : op.Sound valid echoes accepted)
    (ha : accepted plugin req run = some result) (he : ProviderResult.error result = some e)
    (htype : e.type = .rateLimited) (hms : e.retryAfterMs = some ms) (hf : ¬ FitsFloat ms 1000) :
    ¬ SeenAsRateLimit settings op env req plugin run w := by
  rintro ⟨result', hrun, -, -, -, w', hrecord, -⟩
  rw [hop.run_of_accepted ha] at hrun
  cases hrun
  have hlimited : rateLimited result = some e := rateLimited_eq_some.2 ⟨he, htype⟩
  obtain ⟨w'', herror⟩ := recordResult_of_error (recordResult_raises hlimited hms hf w.shared.circuit
    (Runner.scopeOf op req plugin.id) (env.clock w.reads) (env.clock (w.reads + 1)))
  rw [herror] at hrecord
  cases hrecord

/-- What a plugin does not hand over is no rate limit for the runner. -/
private theorem not_seenAsRateLimit_of_none
    (hop : op.Sound valid echoes accepted) (ha : accepted plugin req run = none) :
    ¬ SeenAsRateLimit settings op env req plugin run w := by
  rintro ⟨result, hrun, -, -, ⟨e, he, htype⟩, -⟩
  have hlimited : rateLimited result ≠ none := by
    rw [rateLimited_eq_some.2 ⟨he, htype⟩]
    simp
  rw [hop.accepted_of_run hrun hlimited] at ha
  cases ha

end Path

/-! ### The adapters -/

/-- How the runner sees the end of an adapter's function. -/
def PluginCall.ofExcept {A : Type} : Except Exn A → PluginCall A
  | .ok a => .returned a
  | .error exc => .raised exc

section Adapters

variable {latencyMs failedAfterMs elapsedMs : Millis}

/-- The larger of two latencies has a float. -/
private theorem recordProviderCall_max (a b : Millis) : recordProviderCall (max (a.val : Int) b.val) = .ok () := by
  rw [recordProviderCall_eq_ok]
  rcases le_total (a.val : Int) b.val with h | h
  · rw [max_eq_right h, max_eq_left (Int.natCast_nonneg _)]
    exact b.property
  · rw [max_eq_left h, max_eq_left (Int.natCast_nonneg _)]
    exact a.property

/-- A failure that an adapter returns is handed over. -/
private theorem acceptedPrice_failed {plugin : ProviderPlugin} {req : ProviderPriceRequest} {error : ErrorInfo} :
    ∃ result : PriceResult, result.status = .error ∧ result.error = some error ∧
      acceptedPrice plugin req
        ⟨.ofExcept (failedPrice plugin.id req .error latencyMs error), failedAfterMs, elapsedMs⟩ = some result := by
  let result : PriceResult :=
    { provider := plugin.id, status := .error, token := some req.token, latencyMs := latencyMs.val, error := some error }
  have hstatus : ProviderStatus.error ≠ .ok := by decide
  have hvalid : result.Valid := PriceResult.valid_failure hstatus rfl (Int.natCast_nonneg _)
  refine ⟨result, rfl, rfl, ?_⟩
  have hfailed : failedPrice plugin.id req .error latencyMs error = .ok ⟨result, hvalid⟩ := by
    unfold failedPrice PriceResult.accept
    exact dif_pos hvalid
  have hidentity : validatePriceResultIdentity result req plugin.id = .ok () := by
    unfold validatePriceResultIdentity
    rw [if_neg (not_not.2 rfl), if_pos hstatus]
  rw [hfailed]
  exact if_pos ⟨hidentity, recordProviderCall_max latencyMs elapsedMs⟩

private theorem acceptedQuote_failed {plugin : ProviderPlugin} {req : ProviderQuoteRequest} {error : ErrorInfo}
    (hamount : IsUint256 req.amountIn) :
    ∃ result : QuoteResult, result.status = .error ∧ result.error = some error ∧
      acceptedQuote plugin req
        ⟨.ofExcept (failedQuote plugin.id req .error latencyMs error), failedAfterMs, elapsedMs⟩ = some result := by
  let result : QuoteResult :=
    { provider := plugin.id, status := .error, tokenIn := some req.tokenIn, tokenOut := some req.tokenOut
      amountIn := some req.amountIn, latencyMs := latencyMs.val, error := some error }
  have hstatus : ProviderStatus.error ≠ .ok := by decide
  have hvalid : result.Valid := by
    refine (QuoteResult.valid_failure hstatus rfl rfl rfl).2 ⟨Int.natCast_nonneg _, ?_⟩
    intro n hn
    cases hn
    exact hamount
  refine ⟨result, rfl, rfl, ?_⟩
  have hfailed : failedQuote plugin.id req .error latencyMs error = .ok ⟨result, hvalid⟩ := by
    unfold failedQuote QuoteResult.accept
    exact dif_pos hvalid
  have hidentity : validateQuoteResultIdentity result req plugin.id = .ok () := by
    unfold validateQuoteResultIdentity
    rw [if_neg (not_not.2 rfl), if_pos hstatus]
  rw [hfailed]
  exact if_pos ⟨hidentity, recordProviderCall_max latencyMs elapsedMs⟩

/-- An adapter cannot return a failure that echoes an illegal amount. -/
private theorem acceptedQuote_illegal {plugin : ProviderPlugin} {req : ProviderQuoteRequest} {error : ErrorInfo}
    (hamount : ¬ IsUint256 req.amountIn) :
    acceptedQuote plugin req
      ⟨.ofExcept (failedQuote plugin.id req .error latencyMs error), failedAfterMs, elapsedMs⟩ = none := by
  have hfailed : failedQuote plugin.id req .error latencyMs error = .error .validationError := by
    unfold failedQuote QuoteResult.accept
    exact dif_neg fun hvalid => hamount (hvalid.amountIn _ rfl)
  rw [hfailed]
  rfl

variable {Obj Arr : Type} {settings : Settings} {dates : HttpDates} {json : Option (JsonData Obj Arr)}
  {headers : Dict String String} {registration : Registration}

private theorem price_seenAsRateLimit_iff
    (adapter : PriceAdapter) {payloads : PricePayloads Obj} {req : ProviderPriceRequest}
    {env : Schedule ProviderPriceRequest AcceptedPriceResult} {w : World PriceResult} :
    SeenAsRateLimit settings priceOperation env req (adapter.plugin registration)
        ⟨.ofExcept (adapter.getPrice dates latencyMs (.response (tooManyRequests json headers)) payloads req),
          failedAfterMs, elapsedMs⟩ w ↔
      ReadableRetryAfter dates (tooManyRequests json headers) ∧ adapter.MakesCall req := by
  by_cases hcall : adapter.MakesCall req
  swap
  · rw [PriceAdapter.getPrice_unknown dates latencyMs hcall]
    exact iff_of_false (not_seenAsRateLimit_of_none priceOperation_sound rfl) fun h => hcall h.2
  rw [PriceAdapter.getPrice_tooManyRequests dates latencyMs json headers registration payloads hcall]
  by_cases hreadable : ReadableRetryAfter dates (tooManyRequests json headers)
  · refine iff_of_true ?_ ⟨hreadable, hcall⟩
    obtain ⟨hint, hparse, husable⟩ := parseRetryAfterMs_of_readable hreadable none
    rw [hparse]
    obtain ⟨result, hstatus, herror, haccepted⟩ := acceptedPrice_failed 
    exact seenAsRateLimit_of_accepted priceOperation_sound haccepted hstatus herror rfl husable
  · refine iff_of_false ?_ fun h => hreadable h.1
    rcases parseRetryAfterMs_of_not_readable hreadable none with hparse | ⟨ms, hparse, hunfit⟩
    · rw [hparse]
      exact not_seenAsRateLimit_of_none priceOperation_sound rfl
    · rw [hparse]
      obtain ⟨result, -, herror, haccepted⟩ := acceptedPrice_failed 
      exact not_seenAsRateLimit_of_accepted priceOperation_sound haccepted herror rfl rfl hunfit

private theorem quote_seenAsRateLimit_iff (adapter : QuoteAdapter) {payloads : QuotePayloads Obj Arr}
    {req : ProviderQuoteRequest} {env : Schedule ProviderQuoteRequest AcceptedQuoteResult} {w : World QuoteResult} :
    SeenAsRateLimit settings quoteOperation env req (adapter.plugin registration)
        ⟨.ofExcept (adapter.getQuote dates latencyMs (.response (tooManyRequests json headers)) payloads req),
          failedAfterMs, elapsedMs⟩ w ↔
      ReadableRetryAfter dates (tooManyRequests json headers) ∧ IsUint256 req.amountIn := by
  rw [adapter.getQuote_tooManyRequests dates latencyMs json headers registration]
  by_cases hamount : IsUint256 req.amountIn
  · by_cases hreadable : ReadableRetryAfter dates (tooManyRequests json headers)
    · refine iff_of_true ?_ ⟨hreadable, hamount⟩
      obtain ⟨hint, hparse, husable⟩ := parseRetryAfterMs_of_readable hreadable none
      rw [hparse]
      obtain ⟨result, hstatus, herror, haccepted⟩ := acceptedQuote_failed  hamount
      exact seenAsRateLimit_of_accepted quoteOperation_sound haccepted hstatus herror rfl husable
    · refine iff_of_false ?_ fun h => hreadable h.1
      rcases parseRetryAfterMs_of_not_readable hreadable none with hparse | ⟨ms, hparse, hunfit⟩
      · rw [hparse]
        exact not_seenAsRateLimit_of_none quoteOperation_sound rfl
      · rw [hparse]
        obtain ⟨result, -, herror, haccepted⟩ := acceptedQuote_failed  hamount
        exact not_seenAsRateLimit_of_accepted quoteOperation_sound haccepted herror rfl rfl hunfit
  · refine iff_of_false ?_ fun h => hamount h.2
    cases parseRetryAfterMs dates (tooManyRequests json headers) none with
    | error exc => exact not_seenAsRateLimit_of_none quoteOperation_sound rfl
    | ok hint => exact not_seenAsRateLimit_of_none quoteOperation_sound (acceptedQuote_illegal hamount)

/-- Whatever the headers, the parsed body and the state of the runner are, the runner sees a response of status 429 as a
rate limit of the provider if and only if its `Retry-After` is readable, the adapter makes the call that is answered so
and, for a quote, the amount of the request is one that a result can echo. -/
theorem rate_limit_seen_iff (settings : Settings) (dates : HttpDates) (latencyMs failedAfterMs elapsedMs : Millis)
    (json : Option (JsonData Obj Arr)) (headers : Dict String String) (registration : Registration) :
    (∀ (adapter : PriceAdapter) (payloads : PricePayloads Obj) (req : ProviderPriceRequest)
        (env : Schedule ProviderPriceRequest AcceptedPriceResult) (w : World PriceResult),
      SeenAsRateLimit settings priceOperation env req (adapter.plugin registration)
          ⟨.ofExcept (adapter.getPrice dates latencyMs (.response (tooManyRequests json headers)) payloads req),
            failedAfterMs, elapsedMs⟩ w ↔
        ReadableRetryAfter dates (tooManyRequests json headers) ∧ adapter.MakesCall req) ∧
    (∀ (adapter : QuoteAdapter) (payloads : QuotePayloads Obj Arr) (req : ProviderQuoteRequest)
        (env : Schedule ProviderQuoteRequest AcceptedQuoteResult) (w : World QuoteResult),
      SeenAsRateLimit settings quoteOperation env req (adapter.plugin registration)
          ⟨.ofExcept (adapter.getQuote dates latencyMs (.response (tooManyRequests json headers)) payloads req),
            failedAfterMs, elapsedMs⟩ w ↔
        ReadableRetryAfter dates (tooManyRequests json headers) ∧ IsUint256 req.amountIn) :=
  ⟨fun adapter _ _ _ _ => price_seenAsRateLimit_iff adapter, fun adapter _ _ _ _ => quote_seenAsRateLimit_iff adapter⟩

end Adapters

/-! ### Two responses that are not seen -/

/-- A date library that knows the last second of year 9999, one hour west of Greenwich. -/
def Example.dates : HttpDates where
  parsedateToDatetime value :=
    if value = "Fri, 31 Dec 9999 23:59:59 -0100".toList then
      some { wall := wallLimit - 10 ^ 6, utcOffset := some (-3600 * 10 ^ 6), inCalendar := by decide
             offset_lt := by
               intro offset hoffset
               cases hoffset
               decide }
    else none
  utcNow := { wall := 0, utcOffset := some 0, inCalendar := inCalendar_zero, offset_lt := utc_offset_lt }

/-- A response of status 429 with nothing but this header. -/
def Example.throttled (retryAfter : String) : HttpResponse Unit Unit :=
  tooManyRequests none ⟨[("retry-after", retryAfter)], List.nodup_singleton _⟩

/-- A run of 310 digits. -/
def Example.manySeconds : String := String.ofList (List.replicate 310 '9')

def Example.registration : Registration := ⟨[1], true, none⟩

/-- Curve answers a price request with this response at once. -/
def Example.throttledRun (retryAfter : String) : PluginRun AcceptedPriceResult where
  call := .ofExcept (PriceAdapter.curve.getPrice Example.dates .zero
    (.response (Example.throttled retryAfter))
    ⟨fun _ _ _ => .error .validationError, fun _ _ _ _ => .error .validationError⟩ Example.priceRequest)
  failedAfterMs := .zero
  elapsedMs := .zero

/-- A number of seconds beyond the floats, and a date that is in year 10000 in UTC. -/
theorem rate_limit_not_seen :
    ¬ SeenAsRateLimit .default priceOperation (Schedule.quiet fun _ _ => none) Example.priceRequest
        (PriceAdapter.curve.plugin Example.registration) (Example.throttledRun Example.manySeconds) (.new .default) ∧
      ¬ SeenAsRateLimit .default priceOperation (Schedule.quiet fun _ _ => none) Example.priceRequest
        (PriceAdapter.curve.plugin Example.registration)
        (Example.throttledRun "Fri, 31 Dec 9999 23:59:59 -0100") (.new .default) := by
  have unseen {retryAfter : String} (h : ¬ ReadableRetryAfter Example.dates (Example.throttled retryAfter)) :
      ¬ SeenAsRateLimit .default priceOperation (Schedule.quiet fun _ _ => none) Example.priceRequest
        (PriceAdapter.curve.plugin Example.registration) (Example.throttledRun retryAfter) (.new .default) := by
    intro hseen
    exact h ((price_seenAsRateLimit_iff .curve).1 hseen).1
  constructor
  · refine unseen fun hreadable => ?_
    have hdigits : Example.manySeconds.toList = List.replicate 310 '9' := String.toList_ofList
    have hblank : strip (List.replicate 310 '9') ≠ [] := by decide +kernel
    have hlarge : ∃ seconds ∈ intOfText (strip (List.replicate 310 '9')), ¬ seconds < floatLimit := by decide +kernel
    rw [← hdigits] at hblank hlarge
    obtain ⟨hseconds, -⟩ := hreadable Example.manySeconds rfl hblank
    obtain ⟨seconds, hmem, hnot⟩ := hlarge
    exact hnot (hseconds seconds hmem)
  · refine unseen fun hreadable => ?_
    obtain ⟨-, hdate⟩ := hreadable "Fri, 31 Dec 9999 23:59:59 -0100" rfl (by decide +kernel)
    have hlate : ∃ parsed ∈ Example.dates.parsedateToDatetime (strip "Fri, 31 Dec 9999 23:59:59 -0100".toList),
        ∃ offset ∈ parsed.utcOffset, ¬ InCalendar (parsed.wall - offset) := by decide +kernel
    obtain ⟨parsed, hparsed, offset, hoffset, hnot⟩ := hlate
    exact hnot (hdate (by decide +kernel) parsed hparsed offset hoffset)

end TokenPriceAgg

import TokenPriceAgg.Core.RunnerLedger

/-!
# One result for every plugin

A call whose caller is not cancelled either fails to reserve the global units or returns one result for each plugin,
and a result that claims success is about the request.  Three values can still abort the call for every plugin: a
deadline without a float, a negative deadline (it is the latency of the deadline results), and the retry delay of a
rate limit without a float.  `Harmless` says that none of them occurs.
-/

namespace TokenPriceAgg

open PyLib Eff

/-! ### The task of one plugin -/

section Task

variable {A R : Type} [ProviderResult R] {val : A → R} {validate : R → Except Exn Unit} {notResult : String}
  {failure : Int → ErrorInfo → Except Exn R} {run : PluginRun A}

/-- What the plugin of a task hands over: the result it returned, if it passes the check and its latency has a
float. -/
def handedOver (val : A → R) (validate : R → Except Exn Unit) (run : PluginRun A) : Option R :=
  match run.call with
  | .returned result =>
    if validate (val result) = .ok () ∧
        recordProviderCall (max (ProviderResult.latencyMs (val result)) run.elapsedMs.val) = .ok () then
      some (val result)
    else none
  | _ => none

theorem recordProviderCall_eq_ok {latencyMs : Int} :
    recordProviderCall latencyMs = .ok () ↔ FitsFloat (max latencyMs 0) 1000 := by
  unfold recordProviderCall
  by_cases hf : FitsFloat (max latencyMs 0) 1000
  · rw [divide_thousand_of_fits hf]
    exact iff_of_true rfl hf
  · rw [divide_thousand_of_not_fits hf]
    exact iff_of_false (by intro h; cases h) hf

private theorem runPlugin_of_handedOver {r : R} (h : handedOver val validate run = some r) :
    runPlugin val validate notResult failure run = .ok r := by
  unfold handedOver at h
  unfold runPlugin
  cases hc : run.call with
  | returned a =>
    simp only [hc] at h
    split at h
    · rename_i hok
      cases h
      simp only [hok.1]
      change ((recordProviderCall (max (ProviderResult.latencyMs (val a)) run.elapsedMs.val)).mapError
        Raised.exception >>= fun _ => pure (val a)) = _
      rw [hok.2]
      rfl
    · cases h
  | returnedOther => simp [hc] at h
  | raised exc => simp [hc] at h
  | cancelled => simp [hc] at h

/-- What a task returns was handed over by its plugin, or the plugin has failed. -/
theorem handedOver_or_failure {r : R} (h : runPlugin val validate notResult failure run = .ok r) :
    handedOver val validate run = some r ∨
      ∃ (latencyMs : Int) (error : ErrorInfo), error.type = .internal ∧ failure latencyMs error = .ok r := by
  rcases runPlugin_ok h with ⟨a, hc, rfl, hv⟩ | hfailed
  · left
    have hrecord : recordProviderCall (max (ProviderResult.latencyMs (val a)) run.elapsedMs.val) = .ok () := by
      unfold runPlugin at h
      simp only [hc, hv] at h
      change ((recordProviderCall (max (ProviderResult.latencyMs (val a)) run.elapsedMs.val)).mapError
        Raised.exception >>= fun _ => pure (val a)) = _ at h
      cases hl : recordProviderCall (max (ProviderResult.latencyMs (val a)) run.elapsedMs.val) with
      | ok u => rfl
      | error exc => rw [hl] at h; cases h
    unfold handedOver
    simp only [hc]
    rw [if_pos ⟨hv, hrecord⟩]
  · exact .inr hfailed

/-- A rate limit that a task returns was handed over by its plugin. -/
private theorem handedOver_of_rateLimited {r : R} (h : runPlugin val validate notResult failure run = .ok r)
    (hfailure : ∀ latencyMs error, error.type = .internal → failure latencyMs error = .ok r → rateLimited r = none)
    (hr : rateLimited r ≠ none) : handedOver val validate run = some r := by
  rcases handedOver_or_failure h with hover | ⟨latencyMs, error, he, hf⟩
  · exact hover
  · exact absurd (hfailure latencyMs error he hf) hr

/-- Only the plugin's own cancellation cancels a task. -/
private theorem runPlugin_cancelled :
    runPlugin val validate notResult failure run = .error .cancelled ↔ run.call = .cancelled := by
  have record (x : R) : ((recordProviderCall (max (ProviderResult.latencyMs x) run.elapsedMs.val)).mapError
      Raised.exception >>= fun _ => pure x : Except Raised R) ≠ .error .cancelled := by
    cases recordProviderCall (max (ProviderResult.latencyMs x) run.elapsedMs.val) with
    | error exc => intro h; cases h
    | ok u => intro h; cases h
  have failed (exc : Exn) : ((failure run.failedAfterMs.val (executionFailedError exc)).mapError Raised.exception >>=
      fun result => (recordProviderCall (max (ProviderResult.latencyMs result) run.elapsedMs.val)).mapError
        Raised.exception >>= fun _ => pure result : Except Raised R) ≠ .error .cancelled := by
    cases hf : failure run.failedAfterMs.val (executionFailedError exc) with
    | error e => intro h; cases h
    | ok x => exact record x
  unfold runPlugin
  cases hc : run.call with
  | returned a =>
    refine iff_of_false ?_ (by simp)
    cases hv : validate (val a) with
    | ok u =>
      simp only [hv]
      exact record (val a)
    | error exc =>
      simp only [hv]
      exact failed exc
  | returnedOther => exact iff_of_false (failed _) (by simp)
  | raised exc => exact iff_of_false (failed _) (by simp)
  | cancelled => exact iff_of_true rfl rfl

end Task

/-! ### What the two operations promise -/

/-- What the runner's own results and the check of the plugins' results establish for a `valid` request. -/
structure Operation.Sound {Req A R : Type} [ProviderResult R] (op : Operation Req A R) (valid : Req → Prop)
    (echoes : Req → R → Prop) (accepted : ProviderPlugin → Req → PluginRun A → Option R) : Prop where
  static_ok : ∀ {p req reason}, valid req → ∃ r, op.staticResult p req reason = .ok r
  static_echoes : ∀ {p req reason r}, op.staticResult p req reason = .ok r → echoes req r
  deadline_ok : ∀ {id req d}, valid req → 0 ≤ d → FitsFloat (max d 1) 1000 → ∃ r, op.deadlineResult id req d = .ok r
  deadline_negative : ∀ {id req d}, d < 0 → op.deadlineResult id req d = .error .validationError
  deadline_echoes : ∀ {id req d r}, op.deadlineResult id req d = .ok r → echoes req r ∧ rateLimited r = none
  internal_ok : ∀ {id req exc}, valid req → ∃ r, op.internalTaskFailureResult id req exc = .ok r
  internal_echoes : ∀ {id req exc r}, op.internalTaskFailureResult id req exc = .ok r →
    echoes req r ∧ rateLimited r = none
  run_cancelled : ∀ {p req run}, op.runSinglePlugin p req run = .error .cancelled ↔ run.call = .cancelled
  run_echoes : ∀ {p req run r}, op.runSinglePlugin p req run = .ok r → echoes req r
  run_of_accepted : ∀ {p req run r}, accepted p req run = some r → op.runSinglePlugin p req run = .ok r
  accepted_of_run : ∀ {p req run r}, op.runSinglePlugin p req run = .ok r → rateLimited r ≠ none →
    accepted p req run = some r

/-- A successful price is about the token of the request. -/
def PriceEchoes (req : ProviderPriceRequest) (r : PriceResult) : Prop :=
  r.status = .ok → ∃ token ∈ r.token, token.chainId = req.chainId ∧ token.address = req.token.address

/-- A successful quote is about the tokens and the amount of the request. -/
def QuoteEchoes (req : ProviderQuoteRequest) (r : QuoteResult) : Prop :=
  r.status = .ok → (∃ token ∈ r.tokenIn, token.chainId = req.chainId ∧ token.address = req.tokenIn.address) ∧
    (∃ token ∈ r.tokenOut, token.chainId = req.chainId ∧ token.address = req.tokenOut.address) ∧
    r.amountIn = some req.amountIn

/-- What a plugin hands over in answer to a price request. -/
def acceptedPrice (plugin : ProviderPlugin) (req : ProviderPriceRequest) (run : PluginRun AcceptedPriceResult) :
    Option PriceResult :=
  handedOver Subtype.val (validatePriceResultIdentity · req plugin.id) run

/-- What a plugin hands over in answer to a quote request. -/
def acceptedQuote (plugin : ProviderPlugin) (req : ProviderQuoteRequest) (run : PluginRun AcceptedQuoteResult) :
    Option QuoteResult :=
  handedOver Subtype.val (validateQuoteResultIdentity · req plugin.id) run

private theorem validatePriceResultIdentity_echoes {r : PriceResult} {req : ProviderPriceRequest} {providerId : String}
    (h : validatePriceResultIdentity r req providerId = .ok ()) : PriceEchoes req r := by
  intro hs
  unfold validatePriceResultIdentity at h
  split at h
  · cases h
  · rw [if_neg (not_not.2 hs)] at h
    split at h
    · cases h
    · rename_i token ht
      split at h
      · cases h
      · rename_i hchain
        split at h
        · cases h
        · rename_i haddress
          exact ⟨token, ht, not_not.1 hchain, not_not.1 haddress⟩

private theorem validateQuoteResultIdentity_echoes {r : QuoteResult} {req : ProviderQuoteRequest} {providerId : String}
    (h : validateQuoteResultIdentity r req providerId = .ok ()) : QuoteEchoes req r := by
  intro hs
  unfold validateQuoteResultIdentity at h
  split at h
  · cases h
  · rw [if_neg (not_not.2 hs)] at h
    split at h
    · rename_i tokenIn tokenOut hin hout
      split at h
      · cases h
      · rename_i hchain
        push Not at hchain
        split at h
        · cases h
        · rename_i haddress
          push Not at haddress
          split at h
          · cases h
          · rename_i hamount
            exact ⟨⟨tokenIn, hin, hchain.1, haddress.1⟩, ⟨tokenOut, hout, hchain.2, haddress.2⟩, not_not.1 hamount⟩
    · cases h

/-- A latency that is not negative and has a float can be recorded. -/
private theorem recorded_of_ok {R : Type} {new : Except Exn R} {latencyMs : Int} {r : R} (h : new = .ok r)
    (hf : FitsFloat (max latencyMs 0) 1000) : recorded new latencyMs = .ok r := by
  subst h
  unfold recorded
  change (recordProviderCall latencyMs >>= fun _ => pure r) = .ok r
  rw [recordProviderCall_eq_ok.2 hf]
  rfl

private theorem fits_zero : FitsFloat (max 0 0) 1000 := by
  have hzero : FitsFloat 0 1000 := fitsFloat_zero (by decide)
  simpa using hzero

private theorem fits_of_deadline {d : Int} (hd : 0 ≤ d) (hf : FitsFloat (max d 1) 1000) : FitsFloat (max d 0) 1000 := by
  refine hf.of_le ?_
  omega

section Failures

variable {provider : String} {status : ProviderStatus} {latencyMs : Int} {error : ErrorInfo}

private theorem priceFailure_of_nonneg (req : ProviderPriceRequest) (provider : String) (error : ErrorInfo)
    (hs : status ≠ .ok) (hl : 0 ≤ latencyMs) : ∃ r, priceFailure req provider status latencyMs error = .ok r :=
  ⟨_, PriceResult.new_of_valid (PriceResult.valid_failure hs rfl hl)⟩

private theorem priceFailure_of_negative {req : ProviderPriceRequest} (hl : latencyMs < 0) :
    priceFailure req provider status latencyMs error = .error .validationError :=
  PriceResult.new_of_not_valid fun h => absurd h.latency (not_le.2 hl)

private theorem priceFailure_echoes {req : ProviderPriceRequest} {r : PriceResult}
    (h : priceFailure req provider status latencyMs error = .ok r) : PriceEchoes req r := by
  -- a result with an error is never a success
  intro hs
  have hv : r.Valid := PriceResult.valid_of_new h
  have hnone := hv.ok_error hs
  rw [priceFailure_ok h] at hnone
  cases hnone

private theorem priceFailure_rateLimited {req : ProviderPriceRequest} {r : PriceResult} (he : error.type ≠ .rateLimited)
    (h : priceFailure req provider status latencyMs error = .ok r) : rateLimited r = none := by
  rw [priceFailure_ok h]
  simp [rateLimited, ProviderResult.error, Option.filter, he]

private theorem quoteFailure_of_nonneg {req : ProviderQuoteRequest} (hreq : IsUint256 req.amountIn) (provider : String)
    (error : ErrorInfo) (hs : status ≠ .ok) (hl : 0 ≤ latencyMs) :
    ∃ r, quoteFailure req provider status latencyMs error = .ok r := by
  refine ⟨_, QuoteResult.new_of_valid ((QuoteResult.valid_failure hs rfl rfl rfl).2 ⟨hl, ?_⟩)⟩
  simpa using hreq

private theorem quoteFailure_of_negative {req : ProviderQuoteRequest} (hl : latencyMs < 0) :
    quoteFailure req provider status latencyMs error = .error .validationError :=
  QuoteResult.new_of_not_valid fun h => absurd h.latency (not_le.2 hl)

private theorem quoteFailure_echoes {req : ProviderQuoteRequest} {r : QuoteResult}
    (h : quoteFailure req provider status latencyMs error = .ok r) : QuoteEchoes req r := by
  intro hs
  have hv : r.Valid := QuoteResult.valid_of_new h
  have hnone := hv.ok_error hs
  rw [quoteFailure_ok h] at hnone
  cases hnone

private theorem quoteFailure_rateLimited {req : ProviderQuoteRequest} {r : QuoteResult} (he : error.type ≠ .rateLimited)
    (h : quoteFailure req provider status latencyMs error = .ok r) : rateLimited r = none := by
  rw [quoteFailure_ok h]
  simp [rateLimited, ProviderResult.error, Option.filter, he]

theorem staticError_status (plugin : ProviderPlugin) (reason : StaticReason) :
    (staticError plugin reason).1 ≠ .ok := by
  cases reason <;> simp [staticError]

end Failures

private theorem runPricePlugin_cancelled {plugin : ProviderPlugin} {req : ProviderPriceRequest}
    {run : PluginRun AcceptedPriceResult} :
    runPricePlugin plugin req run = .error .cancelled ↔ run.call = .cancelled := by
  unfold runPricePlugin
  exact runPlugin_cancelled

private theorem runPricePlugin_echoes {plugin : ProviderPlugin} {req : ProviderPriceRequest}
    {run : PluginRun AcceptedPriceResult} {r : PriceResult} (h : runPricePlugin plugin req run = .ok r) :
    PriceEchoes req r := by
  unfold runPricePlugin at h
  rcases runPlugin_ok h with ⟨a, -, -, hv⟩ | ⟨latencyMs, error, -, hf⟩
  · exact validatePriceResultIdentity_echoes hv
  · exact priceFailure_echoes hf

private theorem acceptedPrice_of_rateLimited {plugin : ProviderPlugin} {req : ProviderPriceRequest}
    {run : PluginRun AcceptedPriceResult} {r : PriceResult} (h : runPricePlugin plugin req run = .ok r)
    (hr : rateLimited r ≠ none) : acceptedPrice plugin req run = some r := by
  unfold runPricePlugin at h
  refine handedOver_of_rateLimited h (fun latencyMs error he hf => ?_) hr
  exact priceFailure_rateLimited (by simp [he]) hf

theorem priceOperation_sound : priceOperation.Sound (fun _ => True) PriceEchoes acceptedPrice where
  static_ok := fun {p req reason} _ => by
    obtain ⟨r, hr⟩ := priceFailure_of_nonneg req p.id (staticError p reason).2 (staticError_status p reason) le_rfl
    exact ⟨r, recorded_of_ok hr fits_zero⟩
  static_echoes h := priceFailure_echoes (recorded_ok h)
  deadline_ok := fun {id req d} _ hd hf => by
    have herror : ProviderStatus.error ≠ .ok := by decide
    obtain ⟨r, hr⟩ := priceFailure_of_nonneg req id deadlineError herror hd
    exact ⟨r, recorded_of_ok hr (fits_of_deadline hd hf)⟩
  deadline_negative hd := by
    change recorded (priceFailure _ _ _ _ _) _ = _
    rw [priceFailure_of_negative hd]
    rfl
  deadline_echoes h :=
    ⟨priceFailure_echoes (recorded_ok h), priceFailure_rateLimited (by decide) (recorded_ok h)⟩
  internal_ok := fun {id req exc} _ => by
    have herror : ProviderStatus.error ≠ .ok := by decide
    obtain ⟨r, hr⟩ := priceFailure_of_nonneg req id (internalTaskFailureError exc) herror le_rfl
    exact ⟨r, recorded_of_ok hr fits_zero⟩
  internal_echoes h :=
    ⟨priceFailure_echoes (recorded_ok h), priceFailure_rateLimited (by simp [internalTaskFailureError]) (recorded_ok h)⟩
  run_cancelled := runPricePlugin_cancelled
  run_echoes := runPricePlugin_echoes
  run_of_accepted h := runPlugin_of_handedOver h
  accepted_of_run := acceptedPrice_of_rateLimited

private theorem runQuotePlugin_cancelled {plugin : ProviderPlugin} {req : ProviderQuoteRequest}
    {run : PluginRun AcceptedQuoteResult} :
    runQuotePlugin plugin req run = .error .cancelled ↔ run.call = .cancelled := by
  unfold runQuotePlugin
  exact runPlugin_cancelled

private theorem runQuotePlugin_echoes {plugin : ProviderPlugin} {req : ProviderQuoteRequest}
    {run : PluginRun AcceptedQuoteResult} {r : QuoteResult} (h : runQuotePlugin plugin req run = .ok r) :
    QuoteEchoes req r := by
  unfold runQuotePlugin at h
  rcases runPlugin_ok h with ⟨a, -, -, hv⟩ | ⟨latencyMs, error, -, hf⟩
  · exact validateQuoteResultIdentity_echoes hv
  · exact quoteFailure_echoes hf

private theorem acceptedQuote_of_rateLimited {plugin : ProviderPlugin} {req : ProviderQuoteRequest}
    {run : PluginRun AcceptedQuoteResult} {r : QuoteResult} (h : runQuotePlugin plugin req run = .ok r)
    (hr : rateLimited r ≠ none) : acceptedQuote plugin req run = some r := by
  unfold runQuotePlugin at h
  refine handedOver_of_rateLimited h (fun latencyMs error he hf => ?_) hr
  exact quoteFailure_rateLimited (by simp [he]) hf

theorem quoteOperation_sound :
    quoteOperation.Sound (fun req => IsUint256 req.amountIn) QuoteEchoes acceptedQuote where
  static_ok := fun {p req reason} hreq => by
    obtain ⟨r, hr⟩ := quoteFailure_of_nonneg hreq p.id (staticError p reason).2 (staticError_status p reason) le_rfl
    exact ⟨r, recorded_of_ok hr fits_zero⟩
  static_echoes h := quoteFailure_echoes (recorded_ok h)
  deadline_ok := fun {id req d} hreq hd hf => by
    have herror : ProviderStatus.error ≠ .ok := by decide
    obtain ⟨r, hr⟩ := quoteFailure_of_nonneg hreq id deadlineError herror hd
    exact ⟨r, recorded_of_ok hr (fits_of_deadline hd hf)⟩
  deadline_negative hd := by
    change recorded (quoteFailure _ _ _ _ _) _ = _
    rw [quoteFailure_of_negative hd]
    rfl
  deadline_echoes h :=
    ⟨quoteFailure_echoes (recorded_ok h), quoteFailure_rateLimited (by decide) (recorded_ok h)⟩
  internal_ok := fun {id req exc} hreq => by
    have herror : ProviderStatus.error ≠ .ok := by decide
    obtain ⟨r, hr⟩ := quoteFailure_of_nonneg hreq id (internalTaskFailureError exc) herror le_rfl
    exact ⟨r, recorded_of_ok hr fits_zero⟩
  internal_echoes h :=
    ⟨quoteFailure_echoes (recorded_ok h), quoteFailure_rateLimited (by simp [internalTaskFailureError]) (recorded_ok h)⟩
  run_cancelled := runQuotePlugin_cancelled
  run_echoes := runQuotePlugin_echoes
  run_of_accepted h := runPlugin_of_handedOver h
  accepted_of_run := acceptedQuote_of_rateLimited

/-! ### A whole call -/

namespace Runner

section Whole

variable {Req A R : Type} [ProviderResult R] {settings : Settings} {op : Operation Req A R} {env : Schedule Req A}
  {req : Req} {plugins runnable : List ProviderPlugin} {deadlineMs : Int} {valid : Req → Prop}
  {echoes : Req → R → Prop} {accepted : ProviderPlugin → Req → PluginRun A → Option R}

/-- The schedule never cancels the caller. -/
structure Uncancelled (env : Schedule Req A) : Prop where
  lanes : ∀ place, ¬ Cancels (env.laneWaits place)
  reservation : ¬ Cancels env.globalWaits
  wait : env.waitCancelled = false
  deadline : env.deadlineGather.cancelled = false
  cleanup : env.cleanupGather.cancelled = false

omit [ProviderResult R] in
theorem Uncancelled.quiet (task : Nat → Req → Option (PluginRun A)) : Uncancelled (Schedule.quiet task) where
  lanes := by
    rintro place ⟨s, hs, -⟩
    cases hs
  reservation := by
    rintro ⟨s, hs, -⟩
    cases hs
  wait := rfl
  deadline := rfl
  cleanup := rfl

/-- Nothing of what the admitted plugins do aborts the call: the deadline has a float, only finished tasks meet a
negative one, and the retry delay of every rate limit that a plugin hands over has a float. -/
structure Harmless (accepted : ProviderPlugin → Req → PluginRun A → Option R) (env : Schedule Req A) (req : Req)
    (deadlineMs : Int) (runnable : List ProviderPlugin) : Prop where
  deadline : FitsFloat (max deadlineMs 1) 1000
  in_time : deadlineMs < 0 → ∀ i < runnable.length, ∃ run, env.task i req = some run ∧ run.call ≠ .cancelled
  delays : ∀ i plugin run r, runnable[i]? = some plugin → env.task i req = some run →
    accepted plugin req run = some r → ∀ info ∈ rateLimited r, ∀ ms ∈ info.retryAfterMs, FitsFloat ms 1000

/-- What the plugins do that the call started in `w` admits is harmless. -/
def AdmitsHarmless (settings : Settings) (op : Operation Req A R)
    (accepted : ProviderPlugin → Req → PluginRun A → Option R) (env : Schedule Req A) (req : Req)
    (plugins : List ProviderPlugin) (deadlineMs : Int) (w : World R) : Prop :=
  ∀ w', admission settings op env req plugins (enter w) = (.ok (), w') →
    Harmless accepted env req deadlineMs w'.frame.runnable

/-- `try_acquire` of the global units answered `None`. -/
def GlobalReservationFails (settings : Settings) (op : Operation Req A R) (env : Schedule Req A) (req : Req)
    (plugins : List ProviderPlugin) (w : World R) : Prop :=
  ∃ w₁ w₂, admitAll settings op env req plugins (enter w) = (.ok (), w₁) ∧ 0 < w₁.frame.runnable.length ∧
    tryAcquire settings env .global w₁.frame.runnable.length env.globalWaits w₁ = (.ok none, w₂)

/-- The outcome of an isolated fan-out: one result for each plugin, successes about the request, or the rejection of
a call that did not get its global units. -/
def Isolated (ids : List String) (echoes : R → Prop) (rejected : Prop) : Except Raised (List R) → Prop
  | .ok results => (results.map ProviderResult.provider).Perm ids ∧ ∀ r ∈ results, echoes r
  | .error e => e = .exception serviceOverloaded ∧ rejected

/-! The results of the tasks. -/

private theorem collect_ok {tasks : List ProviderTask} {places : List Nat} {results : List R}
    (h : collect op env req deadlineMs tasks places = .ok results) :
    (∀ r ∈ results, ∃ i task, tasks[i]? = some task ∧
      taskResult op req deadlineMs task.plugin (env.task i req) = .ok r) ∧
    ∀ i ∈ places, ∀ task, tasks[i]? = some task →
      ∃ r ∈ results, taskResult op req deadlineMs task.plugin (env.task i req) = .ok r := by
  induction places generalizing results with
  | nil =>
    cases h
    simp
  | cons i places ih =>
    cases ht : tasks[i]? with
    | none =>
      simp only [collect, ht] at h
      obtain ⟨hfrom, hto⟩ := ih h
      refine ⟨hfrom, fun j hj task hj' => ?_⟩
      rcases List.mem_cons.1 hj with rfl | hj
      · rw [ht] at hj'
        cases hj'
      · exact hto j hj task hj'
    | some task =>
      rw [collect_cons ht] at h
      cases hr : taskResult op req deadlineMs task.plugin (env.task i req) with
      | error exc => rw [hr] at h; cases h
      | ok r =>
        cases hc : collect op env req deadlineMs tasks places with
        | error exc => rw [hr, hc] at h; cases h
        | ok rs =>
          rw [hr, hc] at h
          cases h
          obtain ⟨hfrom, hto⟩ := ih hc
          constructor
          · intro x hx
            rcases List.mem_cons.1 hx with rfl | hx
            · exact ⟨i, task, ht, hr⟩
            · exact hfrom x hx
          · intro j hj task' hj'
            rcases List.mem_cons.1 hj with rfl | hj
            · rw [ht] at hj'
              cases hj'
              exact ⟨r, List.mem_cons_self .., hr⟩
            · obtain ⟨x, hx, hx'⟩ := hto j hj task' hj'
              exact ⟨x, List.mem_cons_of_mem _ hx, hx'⟩

private theorem collect_error {tasks : List ProviderTask} {places : List Nat} {exc : Exn}
    (h : collect op env req deadlineMs tasks places = .error exc) :
    ∃ i task, tasks[i]? = some task ∧ taskResult op req deadlineMs task.plugin (env.task i req) = .error exc := by
  induction places with
  | nil => cases h
  | cons i places ih =>
    cases ht : tasks[i]? with
    | none =>
      simp only [collect, ht] at h
      exact ih h
    | some task =>
      rw [collect_cons ht] at h
      cases hr : taskResult op req deadlineMs task.plugin (env.task i req) with
      | error exc' =>
        rw [hr] at h
        cases h
        exact ⟨i, task, ht, hr⟩
      | ok r =>
        cases hc : collect op env req deadlineMs tasks places with
        | error exc' =>
          rw [hr, hc] at h
          cases h
          exact ih hc
        | ok rs => rw [hr, hc] at h; cases h

private theorem getElem?_tasks {i : Nat} {task : ProviderTask}
    (h : (runnable.map fun plugin => ({ plugin, done := false } : ProviderTask))[i]? = some task) :
    runnable[i]? = some task.plugin := by
  rw [List.getElem?_map] at h
  cases hp : runnable[i]? with
  | none => rw [hp] at h; cases h
  | some plugin => rw [hp] at h; cases h; rfl

theorem taskResults_ok {results : List R} (h : taskResults op env req deadlineMs runnable = .ok results) :
    (∀ r ∈ results, ∃ i plugin, runnable[i]? = some plugin ∧
      taskResult op req deadlineMs plugin (env.task i req) = .ok r) ∧
    ∀ i plugin, runnable[i]? = some plugin →
      ∃ r ∈ results, taskResult op req deadlineMs plugin (env.task i req) = .ok r := by
  obtain ⟨hfrom, hto⟩ := collect_ok h
  constructor
  · intro r hr
    obtain ⟨i, task, ht, hr'⟩ := hfrom r hr
    exact ⟨i, task.plugin, getElem?_tasks ht, hr'⟩
  · intro i plugin hi
    have hlt : i < runnable.length := (List.getElem?_eq_some_iff.1 hi).1
    have hplace : i ∈ readingOrder env req runnable.length :=
      (readingOrder_perm env req _).mem_iff.2 (List.mem_range.2 hlt)
    refine hto i hplace { plugin, done := false } ?_
    rw [List.getElem?_map, hi]
    rfl

private theorem taskResults_error {exc : Exn} (h : taskResults op env req deadlineMs runnable = .error exc) :
    ∃ i plugin, runnable[i]? = some plugin ∧ taskResult op req deadlineMs plugin (env.task i req) = .error exc := by
  obtain ⟨i, task, ht, he⟩ := collect_error h
  exact ⟨i, task.plugin, getElem?_tasks ht, he⟩

/-- What a task result can be, by how its task went. -/
theorem taskResult_cases (hop : op.Sound valid echoes accepted) (req : Req) (deadlineMs : Int)
    (plugin : ProviderPlugin) (run : Option (PluginRun A)) :
    ((∃ x, run = some x ∧ x.call ≠ .cancelled) ∧
      ((∃ x r, run = some x ∧ op.runSinglePlugin plugin req x = .ok r ∧
          taskResult op req deadlineMs plugin run = .ok r) ∨
        ∃ exc, taskResult op req deadlineMs plugin run = op.internalTaskFailureResult plugin.id req exc)) ∨
      (¬ (∃ x, run = some x ∧ x.call ≠ .cancelled) ∧
        taskResult op req deadlineMs plugin run = op.deadlineResult plugin.id req deadlineMs) := by
  cases run with
  | none => exact .inr ⟨by simp, rfl⟩
  | some x =>
    cases hx : op.runSinglePlugin plugin req x with
    | ok r =>
      have hcall : x.call ≠ .cancelled := by
        intro hc
        rw [hop.run_cancelled.2 hc] at hx
        cases hx
      exact .inl ⟨⟨x, rfl, hcall⟩, .inl ⟨x, r, rfl, hx, by simp [taskResult, hx]⟩⟩
    | error e =>
      cases e with
      | cancelled =>
        refine .inr ⟨?_, by simp [taskResult, hx]⟩
        rintro ⟨y, hy, hcall⟩
        cases hy
        exact hcall (hop.run_cancelled.1 hx)
      | exception exc =>
        have hcall : x.call ≠ .cancelled := by
          intro hc
          rw [hop.run_cancelled.2 hc] at hx
          cases hx
        exact .inl ⟨⟨x, rfl, hcall⟩, .inr ⟨exc, by simp [taskResult, hx]⟩⟩

private theorem taskResult_echoes
    (hop : op.Sound valid echoes accepted) {plugin : ProviderPlugin} {run : Option (PluginRun A)}
    {r : R} (h : taskResult op req deadlineMs plugin run = .ok r) : echoes req r := by
  rcases taskResult_cases hop req deadlineMs plugin run with ⟨-, ⟨x, r', -, hx, he⟩ | ⟨exc, he⟩⟩ | ⟨-, he⟩
  · rw [he] at h
    cases h
    exact hop.run_echoes hx
  · exact (hop.internal_echoes (he ▸ h)).1
  · exact (hop.deadline_echoes (he ▸ h)).1

/-- A rate limit among the task results was handed over by the plugin of the task. -/
private theorem accepted_of_taskResult (hop : op.Sound valid echoes accepted) {plugin : ProviderPlugin}
    {run : Option (PluginRun A)} {r : R} (h : taskResult op req deadlineMs plugin run = .ok r)
    (hr : rateLimited r ≠ none) : ∃ x, run = some x ∧ accepted plugin req x = some r := by
  rcases taskResult_cases hop req deadlineMs plugin run with ⟨-, ⟨x, r', hrun, hx, he⟩ | ⟨exc, he⟩⟩ | ⟨-, he⟩
  · rw [he] at h
    cases h
    exact ⟨x, hrun, hop.accepted_of_run hx hr⟩
  · exact absurd (hop.internal_echoes (he ▸ h)).2 hr
  · exact absurd (hop.deadline_echoes (he ▸ h)).2 hr

/-- The only error of a task result is that of a deadline result with a negative latency. -/
private theorem taskResult_error (hop : op.Sound valid echoes accepted) (hreq : valid req)
    (hd : FitsFloat (max deadlineMs 1) 1000) {plugin : ProviderPlugin} {run : Option (PluginRun A)} {exc : Exn} :
    taskResult op req deadlineMs plugin run = .error exc ↔
      exc = .validationError ∧ deadlineMs < 0 ∧ ¬ ∃ x, run = some x ∧ x.call ≠ .cancelled := by
  rcases taskResult_cases hop req deadlineMs plugin run with ⟨hrun, ⟨x, r', -, -, he⟩ | ⟨exc', he⟩⟩ | ⟨hrun, he⟩
  · refine iff_of_false (by simp [he]) fun h => h.2.2 hrun
  · obtain ⟨r, hr⟩ : ∃ r, op.internalTaskFailureResult plugin.id req exc' = .ok r := hop.internal_ok hreq
    refine iff_of_false (by simp [he, hr]) fun h => h.2.2 hrun
  · rw [he]
    by_cases hneg : deadlineMs < 0
    · rw [hop.deadline_negative hneg]
      constructor
      · intro h
        exact ⟨(Except.error.inj h).symm, hneg, hrun⟩
      · rintro ⟨rfl, -⟩
        rfl
    · obtain ⟨r, hr⟩ : ∃ r, op.deadlineResult plugin.id req deadlineMs = .ok r :=
        hop.deadline_ok hreq (not_lt.1 hneg) hd
      refine iff_of_false (by simp [hr]) fun h => hneg h.2.1

/-! From the tasks to the call. -/

private theorem FanOutRaises.not_harmless {e : Raised} (h : FanOutRaises settings op env req deadlineMs runnable e)
    (hop : op.Sound valid echoes accepted) (hreq : valid req) (henv : Uncancelled env) :
    ¬ Harmless accepted env req deadlineMs runnable ∧ e ≠ .exception serviceOverloaded := by
  rcases h with ⟨rfl, hf⟩ | ⟨-, hwait | hgather⟩ | ⟨exc, rfl, hd, htasks⟩ |
    ⟨exc, results, rfl, htasks, r, hr, info, hinfo, hdelay⟩
  · exact ⟨fun h => hf h.deadline, by simp [serviceOverloaded]⟩
  · rw [henv.wait] at hwait
    cases hwait
  · rw [henv.deadline] at hgather
    cases hgather
  · obtain ⟨i, plugin, hi, he⟩ := taskResults_error htasks
    obtain ⟨rfl, hneg, hrun⟩ := (taskResult_error hop hreq hd).1 he
    refine ⟨fun h => hrun ?_, by simp [serviceOverloaded]⟩
    exact h.in_time hneg i (List.getElem?_eq_some_iff.1 hi).1
  · obtain ⟨rfl, ms, hms, hf⟩ := rateLimitDelay_error.1 hdelay
    obtain ⟨i, plugin, hi, htask⟩ := (taskResults_ok htasks).1 r hr
    have hlimited : rateLimited r ≠ none := by
      rw [Option.mem_def.1 hinfo]
      simp
    obtain ⟨run, hrun, haccepted⟩ := accepted_of_taskResult hop htask hlimited
    refine ⟨fun h => hf ?_, by simp [serviceOverloaded]⟩
    exact h.delays i plugin run r hi hrun haccepted info hinfo ms hms

theorem FanOutReturns.harmless {immediate returned : List R}
    (h : FanOutReturns settings op env req deadlineMs runnable immediate returned)
    (hop : op.Sound valid echoes accepted) (hreq : valid req) : Harmless accepted env req deadlineMs runnable := by
  obtain ⟨hd, results, htasks, -, hdelays⟩ := h
  refine ⟨hd, fun hneg i hi => ?_, fun i plugin run r hi hrun haccepted info hinfo ms hms => ?_⟩
  · have hplugin : runnable[i]? = some runnable[i] := List.getElem?_eq_getElem hi
    obtain ⟨r, -, hr⟩ := (taskResults_ok htasks).2 i _ hplugin
    by_contra hrun
    have herror : taskResult op req deadlineMs runnable[i] (env.task i req) = .error .validationError :=
      (taskResult_error hop hreq hd).2 ⟨rfl, hneg, hrun⟩
    rw [hr] at herror
    cases herror
  · obtain ⟨x, hx, htask⟩ := (taskResults_ok htasks).2 i plugin hi
    have hrun' := hop.run_of_accepted haccepted
    have heq : x = r := by
      rw [hrun] at htask
      simp only [taskResult, hrun', Except.ok.injEq] at htask
      exact htask.symm
    by_contra hf
    exact hdelays x hx info (heq ▸ hinfo) .overflowError (rateLimitDelay_error.2 ⟨rfl, ms, hms, hf⟩)

/-- Without a cancellation `fanOut` returns exactly when the admitted plugins are harmless. -/
private theorem fanOut_outcome (hop : op.Sound valid echoes accepted) (hreq : valid req) (henv : Uncancelled env) :
    Triple (On fun f l => Admission op req plugins f l ∧ f.runnable = runnable) (fanOut settings op env req deadlineMs)
      (fun returned _ => Harmless accepted env req deadlineMs runnable ∧
        (returned.map ProviderResult.provider).Perm (plugins.map ProviderPlugin.id) ∧ ∀ r ∈ returned, echoes req r)
      (fun e _ => ¬ Harmless accepted env req deadlineMs runnable ∧ e ≠ .exception serviceOverloaded) := by
  intro w hw
  obtain ⟨hw, hrunnable⟩ := hw
  refine Triple.weaken fanOut_triple (fun w hw => hw) (fun returned w' h => ?_)
    (fun e w' h => h.1.not_harmless hop hreq henv) w ⟨hw, hrunnable, rfl⟩
  obtain ⟨hreturns, -⟩ := h
  refine ⟨hreturns.harmless hop hreq, ?_⟩
  obtain ⟨-, results, htasks, rfl, -⟩ := hreturns
  obtain ⟨-, -, haccounted, -⟩ := hw
  constructor
  · rw [List.map_append]
    have hperm := (taskResults_providers htasks).append_right (w.frame.immediateResults.map ProviderResult.provider)
    exact hperm.trans (List.perm_append_comm.trans (hrunnable ▸ haccounted.providers))
  · intro r hr
    rcases List.mem_append.1 hr with hr | hr
    · obtain ⟨i, plugin, -, htask⟩ := (taskResults_ok htasks).1 r hr
      exact taskResult_echoes hop htask
    · obtain ⟨p, reason, hstatic⟩ := haccounted.immediate_of r hr
      exact hop.static_echoes hstatic

omit [ProviderResult R] in
private theorem cleanup_returns (henv : Uncancelled env) {w : World R} (hw : On (Ledger 0 0) w) :
    ∃ w', cleanup env w = (.ok (), w') := by
  have h : Outcome _ _ (cleanup env w) := cleanup_triple w hw
  rcases hr : cleanup env w with ⟨e | u, w'⟩ <;> rw [hr] at h
  · have hcancelled := h.1.2
    rw [henv.cleanup] at hcancelled
    cases hcancelled
  · exact ⟨w', rfl⟩

/-- The clean-up of a call that is not cancelled leaves the outcome of the body as it is. -/
private theorem runOperation_fst (hids : (plugins.map ProviderPlugin.id).Nodup) (henv : Uncancelled env) (w : World R) :
    (runOperation settings op env req plugins deadlineMs w).1 =
      (body settings op env req plugins deadlineMs (enter w)).1 := by
  have hbody : Outcome (fun _ => On (Ledger 0 0)) (fun _ => On (Ledger 0 0))
      (body settings op env req plugins deadlineMs (enter w)) := body_triple hids (enter w) (enter_loop w)
  have hledger : On (Ledger 0 0) (body settings op env req plugins deadlineMs (enter w)).2 := by
    rcases hr : body settings op env req plugins deadlineMs (enter w) with ⟨e | a, w'⟩ <;> rw [hr] at hbody <;>
      exact hbody
  obtain ⟨w', hw'⟩ := cleanup_returns henv hledger
  show (Eff.tryFinally (body settings op env req plugins deadlineMs) (cleanup env) (enter w)).1 = _
  unfold Eff.tryFinally
  rw [hw']

/-- An admission that raises without a cancellation did not get the global units. -/
private theorem admission_error (hop : op.Sound valid echoes accepted) (hids : (plugins.map ProviderPlugin.id).Nodup)
    (hreq : valid req) (henv : Uncancelled env) {w w' : World R} {e : Raised}
    (h : admission settings op env req plugins (enter w) = (.error e, w')) :
    e = .exception serviceOverloaded ∧ GlobalReservationFails settings op env req plugins w := by
  have hloop : Outcome (fun _ => On (Loop op req plugins)) (fun e w => LoopRaises op env req e ∧ On (Ledger 0 0) w)
      (admitAll settings op env req plugins (enter w)) := admitAll_triple hids (enter w) (enter_loop w)
  rcases hall : admitAll settings op env req plugins (enter w) with ⟨e' | u, w₁⟩ <;> rw [hall] at hloop
  · obtain ⟨⟨-, place, hplace⟩ | ⟨p, reason, exc, -, hstatic⟩, -⟩ := hloop
    · exact absurd hplace (henv.lanes place)
    · obtain ⟨r, hr⟩ : ∃ r, op.staticResult p req reason = .ok r := hop.static_ok hreq
      rw [hr] at hstatic
      cases hstatic
  · unfold admission at h
    rw [bind_ok hall] at h
    unfold reserveGlobal at h
    rw [bind_run, get_run] at h
    dsimp only at h
    by_cases hpos : 0 < w₁.frame.runnable.length
    · rw [if_pos hpos, bind_run] at h
      have hn : (0 : Int) < w₁.frame.runnable.length := Int.natCast_pos.2 hpos
      have hacquire : Outcome _ _
          (tryAcquire settings env .global w₁.frame.runnable.length env.globalWaits w₁) :=
        tryAcquire_triple (p := fun _ _ => True) (q := fun _ _ => True) hn (fun _ _ _ => trivial) w₁ trivial
      rcases hr : tryAcquire settings env .global w₁.frame.runnable.length env.globalWaits w₁ with ⟨e' | r, w₂⟩ <;>
        rw [hr] at hacquire h
      · exact absurd hacquire.1.2 henv.reservation
      · cases r with
        | none =>
          cases h
          exact ⟨rfl, w₁, _, hall, hpos, hr⟩
        | some reservation => cases h
    · rw [if_neg hpos] at h
      cases h

/-- A call whose caller is not cancelled is isolated if and only if what the admitted plugins do is harmless. -/
theorem isolated_iff (hop : op.Sound valid echoes accepted) (hids : (plugins.map ProviderPlugin.id).Nodup)
    (hreq : valid req) (henv : Uncancelled env) (w : World R) :
    Isolated (plugins.map ProviderPlugin.id) (echoes req) (GlobalReservationFails settings op env req plugins w)
        (runOperation settings op env req plugins deadlineMs w).1 ↔
      AdmitsHarmless settings op accepted env req plugins deadlineMs w := by
  unfold AdmitsHarmless
  rw [runOperation_fst hids henv]
  have hadmission : Outcome (fun _ => On (Admission op req plugins))
      (fun e w => AdmissionRaises op env req e ∧ On (Ledger 0 0) w) (admission settings op env req plugins (enter w)) :=
    admission_triple hids (enter w) (enter_loop w)
  rcases hr : admission settings op env req plugins (enter w) with ⟨e | u, w₁⟩ <;> rw [hr] at hadmission
  · obtain ⟨rfl, hfails⟩ := admission_error hop hids hreq henv hr
    have hbody : body settings op env req plugins deadlineMs (enter w) = (.error (.exception serviceOverloaded), w₁) :=
      bind_error hr _
    rw [hbody]
    exact iff_of_true ⟨rfl, hfails⟩ fun w' h => by cases h
  · have hbody : body settings op env req plugins deadlineMs (enter w) = fanOut settings op env req deadlineMs w₁ :=
      bind_ok hr _
    have houtcome : Outcome _ _ (fanOut settings op env req deadlineMs w₁) :=
      fanOut_outcome hop hreq henv w₁ ⟨hadmission, rfl⟩
    rw [hbody]
    rcases hf : fanOut settings op env req deadlineMs w₁ with ⟨e | returned, w₂⟩ <;> rw [hf] at houtcome
    · refine iff_of_false (fun h => houtcome.2 h.1) fun h => houtcome.1 (h w₁ rfl)
    · refine iff_of_true houtcome.2 fun w' h => ?_
      cases h
      exact houtcome.1

end Whole

end Runner

/-- A fan-out of prices, or of quotes for a positive 256-bit amount, whose caller is not cancelled returns one result
for each plugin, successes being about the request, or is rejected for lack of global units, if and only if what the
admitted plugins do is harmless. -/
theorem providers_isolated (settings : Settings) :
    (∀ (env : Schedule ProviderPriceRequest AcceptedPriceResult) (plugins : List ProviderPlugin)
      (req : ProviderPriceRequest) (deadlineMs : Int) (w : World PriceResult),
      (plugins.map ProviderPlugin.id).Nodup → Runner.Uncancelled env →
      (Runner.Isolated (plugins.map ProviderPlugin.id) (PriceEchoes req)
          (Runner.GlobalReservationFails settings priceOperation env req plugins w)
          (runPrices settings env plugins req deadlineMs w).1 ↔
        Runner.AdmitsHarmless settings priceOperation acceptedPrice env req plugins deadlineMs w)) ∧
    ∀ (env : Schedule ProviderQuoteRequest AcceptedQuoteResult) (plugins : List ProviderPlugin)
      (req : ProviderQuoteRequest) (deadlineMs : Int) (w : World QuoteResult),
      (plugins.map ProviderPlugin.id).Nodup → Runner.Uncancelled env → 1 ≤ req.amountIn → req.amountIn ≤ maxUint256 →
      (Runner.Isolated (plugins.map ProviderPlugin.id) (QuoteEchoes req)
          (Runner.GlobalReservationFails settings quoteOperation env req plugins w)
          (runQuotes settings env plugins req deadlineMs w).1 ↔
        Runner.AdmitsHarmless settings quoteOperation acceptedQuote env req plugins deadlineMs w) := by
  constructor
  · intro env plugins req deadlineMs w hids henv
    exact Runner.isolated_iff priceOperation_sound hids trivial henv w
  · intro env plugins req deadlineMs w hids henv hpos hmax
    have hamount : IsUint256 req.amountIn := ⟨by omega, hmax⟩
    exact Runner.isolated_iff quoteOperation_sound hids hamount henv w

private def tokenPriceRequest : ProviderPriceRequest := { chainId := 1, token := { chainId := 1, address := "0x1" } }

private def tokenQuoteRequest : ProviderQuoteRequest where
  chainId := 1
  tokenIn := { chainId := 1, address := "0x1" }
  tokenOut := { chainId := 1, address := "0x2" }
  amountIn := 1

/-- The first plugin answers that it is rate limited, the second is not done. -/
private def throttledSchedule (retryAfterMs : Int) : Schedule ProviderPriceRequest AcceptedPriceResult :=
  Schedule.quiet fun place _ =>
    if place = 0 then
      some
        { call := .returned ⟨{ provider := "curve", status := .error, latencyMs := 0,
                               error := some { type := .rateLimited, message := "", retryAfterMs := retryAfterMs } },
                             PriceResult.valid_failure (by simp) rfl le_rfl⟩
          failedAfterMs := .zero
          elapsedMs := .zero }
    else none

theorem providers_isolated_throttled :
    Runner.Isolated ["curve", "lifi"] (PriceEchoes tokenPriceRequest)
        (Runner.GlobalReservationFails .default priceOperation (throttledSchedule 5000) tokenPriceRequest Example.plugins
          (.new .default))
        (runPrices .default (throttledSchedule 5000) Example.plugins tokenPriceRequest 1000 (.new .default)).1 ∧
      Runner.Isolated ["curve", "lifi"] (QuoteEchoes tokenQuoteRequest)
        (Runner.GlobalReservationFails .default quoteOperation (.quiet fun _ _ => none) tokenQuoteRequest
          Example.plugins (.new .default))
        (runQuotes .default (.quiet fun _ _ => none) Example.plugins tokenQuoteRequest 1000 (.new .default)).1 := by
  have hdeadline : FitsFloat (max 1000 1) 1000 := by decide +kernel
  have hdelay : FitsFloat 5000 1000 := by decide +kernel
  constructor
  · refine ((providers_isolated .default).1 _ _ _ _ _ (by decide) (.quiet _)).2 fun w' _ => ⟨hdeadline, ?_, ?_⟩
    · intro hneg
      omega
    · intro i plugin run r _ hrun haccepted info hinfo ms hms
      by_cases hi : i = 0
      · simp only [Schedule.quiet, hi, if_true, Option.some.injEq] at hrun
        subst hrun
        unfold acceptedPrice handedOver at haccepted
        simp only at haccepted
        split at haccepted
        · cases haccepted
          cases hinfo
          cases hms
          exact hdelay
        · cases haccepted
      · simp [Schedule.quiet, hi] at hrun
  · refine ((providers_isolated .default).2 _ _ _ _ _ (by decide) (.quiet _) (by decide) (by decide)).2
      fun w' _ => ⟨hdeadline, ?_, ?_⟩
    · intro hneg
      omega
    · intro i plugin run r _ hrun
      cases hrun

/-- A provider whose `Retry-After` is out of the float range takes the other one down with it. -/
theorem providers_isolated_poisoned :
    (runPrices .default (throttledSchedule (10 ^ 400)) Example.plugins tokenPriceRequest 1000 (.new .default)).1 =
        .error (.exception .overflowError) ∧
      ¬ Runner.Isolated ["curve", "lifi"] (PriceEchoes tokenPriceRequest)
        (Runner.GlobalReservationFails .default priceOperation (throttledSchedule (10 ^ 400)) tokenPriceRequest
          Example.plugins (.new .default))
        (runPrices .default (throttledSchedule (10 ^ 400)) Example.plugins tokenPriceRequest 1000 (.new .default)).1 := by
  have hraises : (runPrices .default (throttledSchedule (10 ^ 400)) Example.plugins tokenPriceRequest 1000
      (.new .default)).1 = .error (.exception .overflowError) := by decide +kernel
  refine ⟨hraises, fun h => ?_⟩
  rw [hraises] at h
  exact absurd h.1 (by decide)

end TokenPriceAgg

import TokenPriceAgg.Core.ConvertedAmounts

/-!
# The amount of the caller's request

The plugins are asked for the converted amount, and every result echoes it; `apply_quote_resolution` restores the
caller's amount in the OK results and passes over the others.  So what a call returns mirrors the request exactly when
no other result with the converted amount comes out of the run.
-/

namespace TokenPriceAgg

open PyLib Eff Aggregator

/-! ### One result -/

/-- The amount of a result once the resolution is applied. -/
def restoredAmount (amount : Int) (r : QuoteResult) : Option Int := if r.status = .ok then some amount else r.amountIn

theorem applyQuoteToResult_amountIn {eth : EthUtils} {req : ProviderQuoteRequest} {resolution : QuoteVaultResolution}
    {r r' : QuoteResult} {calls calls' : List Int}
    (h : applyQuoteToResult eth req resolution r calls = (.ok r', calls')) :
    restoredAmount req.amountIn r = r'.amountIn := by
  have hcontext {f : Option VaultContext → QuoteResult} {y : QuoteResult} {s s' : List Int}
      (hf : ∀ context, (f context).amountIn = some req.amountIn)
      (hx : (Eff.ofExcept (quoteVaultContext eth resolution.inputVaultContext resolution.outputVaultContext) >>=
        fun context => pure (f context)) s = (.ok y, s')) : some req.amountIn = y.amountIn := by
    obtain ⟨context, t, -, hpure⟩ := bind_eq_ok.1 hx
    cases hpure
    exact (hf context).symm
  unfold applyQuoteToResult at h
  unfold restoredAmount
  by_cases hok : r.status = .ok
  · rw [if_pos hok] at h ⊢
    cases hout : resolution.outputVaultContext with
    | none =>
      simp only [hout] at h
      rw [← hout] at h
      exact hcontext (fun _ => rfl) h
    | some output =>
      cases hconverter : resolution.outputAssetsToShares with
      | none =>
        simp only [hout, hconverter] at h
        cases h
        rfl
      | some assetsToShares =>
        simp only [hout, hconverter] at h
        rw [← hout] at h
        obtain ⟨converted, t, -, h⟩ := bind_eq_ok.1 h
        cases converted with
        | none =>
          cases h
          rfl
        | some amounts => exact hcontext (fun _ => rfl) h
  · rw [if_neg hok] at h ⊢
    cases h
    rfl

private theorem applyQuoteResolution_amountIn
    {eth : EthUtils} {req : ProviderQuoteRequest} {resolution : QuoteVaultResolution}
    {raw applied : List QuoteResult} (h : applyQuoteResolution eth req raw (some resolution) = .ok applied) :
    raw.map (restoredAmount req.amountIn) = applied.map QuoteResult.amountIn := by
  obtain ⟨calls, hrun⟩ : ∃ calls, Eff.mapEach (applyQuoteToResult eth req resolution) raw [] = (.ok applied, calls) :=
    ⟨_, Prod.ext h rfl⟩
  have hforall : List.Forall₂ (fun r r' => restoredAmount req.amountIn r = r'.amountIn) raw applied := by
    refine List.Forall₂.imp (fun r r' hr => ?_) (Eff.mapEach_ok hrun)
    obtain ⟨t, t', hturn⟩ := hr
    exact applyQuoteToResult_amountIn hturn
  rw [← List.forall₂_eq_eq_eq, List.forall₂_map_left_iff, List.forall₂_map_right_iff]
  exact hforall

/-- A result that mirrors `amount` or will have it restored. -/
def Restorable (amount : Int) (r : QuoteResult) : Prop := r.status = .ok ∨ ∀ n ∈ r.amountIn, n = amount

private theorem restoredAmount_iff {amount : Int} {r : QuoteResult} :
    (∀ n ∈ restoredAmount amount r, n = amount) ↔ Restorable amount r := by
  unfold restoredAmount Restorable
  by_cases hok : r.status = .ok
  · simp [hok]
  · simp [hok]

/-! ### The results of a run -/

namespace Runner

variable {settings : Settings} {env : Schedule ProviderQuoteRequest AcceptedQuoteResult} {req : ProviderQuoteRequest}
  {deadlineMs : Int} {plugin : ProviderPlugin} {selected : List ProviderPlugin} {amount : Int}

/-- A failure of the runner echoes the amount it was given. -/
private theorem quoteFailure_echoes_amount
    {provider : String} {status : ProviderStatus} {latencyMs : Int} {error : ErrorInfo}
    {r : QuoteResult} (hs : status ≠ .ok) (h : quoteFailure req provider status latencyMs error = .ok r) :
    r.status ≠ .ok ∧ r.amountIn = some req.amountIn := by
  rw [quoteFailure_ok h]
  exact ⟨hs, rfl⟩

/-- The result of a task is what its plugin hands over, if it hands something over, and a failure otherwise. -/
private theorem taskResult_quote {i : Nat} {r : QuoteResult}
    (h : taskResult quoteOperation req deadlineMs plugin (env.task i req) = .ok r) :
    (∃ run, env.task i req = some run ∧ acceptedQuote plugin req run = some r) ∨
      ((¬ ∃ run r', env.task i req = some run ∧ acceptedQuote plugin req run = some r') ∧
        r.status ≠ .ok ∧ r.amountIn = some req.amountIn) := by
  have herror : ProviderStatus.error ≠ .ok := by decide
  cases hrun : env.task i req with
  | none =>
    rw [hrun] at h
    exact .inr ⟨by simp, quoteFailure_echoes_amount herror (recorded_ok h)⟩
  | some run =>
    rw [hrun] at h
    cases haccepted : acceptedQuote plugin req run with
    | some r' =>
      have hok := quoteOperation_sound.run_of_accepted haccepted
      have heq : r' = r := by
        simp only [taskResult, hok, Except.ok.injEq] at h
        exact h
      exact .inl ⟨run, rfl, heq ▸ haccepted⟩
    | none =>
      have hnone : ¬ ∃ x r', some run = some x ∧ acceptedQuote plugin req x = some r' := by
        rintro ⟨x, r', hx, hr'⟩
        cases hx
        rw [haccepted] at hr'
        cases hr'
      refine .inr ⟨hnone, ?_⟩
      rcases taskResult_cases quoteOperation_sound req deadlineMs plugin (some run) with
        ⟨-, ⟨x, r', hx, hr', he⟩ | ⟨exc, he⟩⟩ | ⟨-, he⟩
      · cases hx
        rw [he] at h
        cases h
        change runQuotePlugin plugin req run = .ok r at hr'
        unfold runQuotePlugin at hr'
        rcases handedOver_or_failure hr' with hover | ⟨latencyMs, error, -, hf⟩
        · exact absurd ⟨run, r, rfl, hover⟩ hnone
        · exact quoteFailure_echoes_amount herror hf
      · exact quoteFailure_echoes_amount herror (recorded_ok (he ▸ h))
      · exact quoteFailure_echoes_amount herror (recorded_ok (he ▸ h))

/-- The runner makes no result with another amount itself, and neither do the plugins, successes apart. -/
structure Mirrors (amount : Int) (env : Schedule ProviderQuoteRequest AcceptedQuoteResult) (req : ProviderQuoteRequest)
    (selected runnable : List ProviderPlugin) : Prop where
  own : req.amountIn = amount ∨ (runnable.length = selected.length ∧ ∀ i plugin, runnable[i]? = some plugin →
    ∃ run r, env.task i req = some run ∧ acceptedQuote plugin req run = some r)
  handed : ∀ i plugin run r, runnable[i]? = some plugin → env.task i req = some run →
    acceptedQuote plugin req run = some r → Restorable amount r

/-- What a run returns can be restored if and only if the run mirrors the amount. -/
private theorem restorable_iff {r : World QuoteResult} {r' : World QuoteResult} {raw : List QuoteResult}
    (h : runOperation settings quoteOperation env req selected deadlineMs r = (.ok raw, r')) :
    (∀ x ∈ raw, Restorable amount x) ↔
      ∀ r₁, admission settings quoteOperation env req selected (enter r) = (.ok (), r₁) →
        Mirrors amount env req selected r₁.frame.runnable := by
  obtain ⟨r₁, results, hadmission, haccounted, htasks, rfl⟩ := runOperation_ok h
  obtain ⟨hfrom, hto⟩ := taskResults_ok htasks
  have hlength : r₁.frame.immediateResults.length + r₁.frame.runnable.length = selected.length := by
    have hperm := haccounted.providers.length_eq
    simpa using hperm
  have hstatic : ∀ x ∈ r₁.frame.immediateResults, x.status ≠ .ok ∧ x.amountIn = some req.amountIn := by
    intro x hx
    obtain ⟨p, reason, hp⟩ := haccounted.immediate_of x hx
    exact quoteFailure_echoes_amount (staticError_status p reason) (recorded_ok hp)
  have hechoed {x : QuoteResult} (hx : x.status ≠ .ok ∧ x.amountIn = some req.amountIn) :
      Restorable amount x ↔ req.amountIn = amount := by
    simp [Restorable, hx.1, hx.2]
  constructor
  · intro hall r₂ hadmission'
    rw [hadmission] at hadmission'
    cases hadmission'
    constructor
    · by_cases heq : req.amountIn = amount
      · exact .inl heq
      · refine .inr ⟨?_, fun i plugin hi => ?_⟩
        · cases himmediate : r₁.frame.immediateResults with
          | nil =>
            rw [himmediate] at hlength
            simpa using hlength
          | cons x rest =>
            have hx : x ∈ r₁.frame.immediateResults := by rw [himmediate]; exact List.mem_cons_self
            exact absurd ((hechoed (hstatic x hx)).1 (hall x (List.mem_append_right _ hx))) heq
        · obtain ⟨x, hx, htask⟩ := hto i plugin hi
          rcases taskResult_quote htask with ⟨run, hrun, haccepted⟩ | ⟨-, hfailure⟩
          · exact ⟨run, x, hrun, haccepted⟩
          · exact absurd ((hechoed hfailure).1 (hall x (List.mem_append_left _ hx))) heq
    · intro i plugin run x hi hrun haccepted
      obtain ⟨y, hy, htask⟩ := hto i plugin hi
      rcases taskResult_quote htask with ⟨run', hrun', haccepted'⟩ | ⟨hnone, -⟩
      · rw [hrun] at hrun'
        cases hrun'
        rw [haccepted] at haccepted'
        cases haccepted'
        exact hall x (List.mem_append_left _ hy)
      · exact absurd ⟨run, x, hrun, haccepted⟩ hnone
  · intro hmirrors x hx
    obtain ⟨hown, hhanded⟩ := hmirrors r₁ hadmission
    rcases List.mem_append.1 hx with hx | hx
    · obtain ⟨i, plugin, hi, htask⟩ := hfrom x hx
      rcases taskResult_quote htask with ⟨run, hrun, haccepted⟩ | ⟨hnone, hfailure⟩
      · exact hhanded i plugin run x hi hrun haccepted
      · refine (hechoed hfailure).2 (hown.resolve_right fun hadmitted => hnone ?_)
        exact hadmitted.2 i plugin hi
    · refine (hechoed (hstatic x hx)).2 (hown.resolve_right fun hadmitted => ?_)
      have hpos : 0 < r₁.frame.immediateResults.length := List.length_pos_of_mem hx
      have hequal := hadmitted.1
      omega

end Runner

/-! ### A whole call -/

section Whole

variable {V : Type} {settings : Settings} {eth : EthUtils}
  {resolver : ProviderQuoteRequest → Eff V Raised (ProviderQuoteRequest × Option QuoteVaultResolution)}
  {env : AggregatorEnv V ProviderQuoteRequest AcceptedQuoteResult} {selected : List ProviderPlugin}
  {req : ProviderQuoteRequest} {useUnderlying : Bool} {timeoutMs : Option Int}
  {w w' : AggregatorWorld V ProviderQuoteRequest QuoteResult}

/-- The request that the resolution hands on: the one of the caller, when the underlying token is not asked for or
there is no vault, or the one of a usable resolution. -/
inductive HandedOn (settings : Settings) (side : VaultSide V)
    (resolver : ProviderQuoteRequest → Eff V Raised (ProviderQuoteRequest × Option QuoteVaultResolution))
    (req : ProviderQuoteRequest) (v : V) : Bool → ProviderQuoteRequest → Prop
  | notRequested : HandedOn settings side resolver req v false req
  | notVault (h : NotVault settings side 2 resolver req v) : HandedOn settings side resolver req v true req
  | resolved {request : ProviderQuoteRequest} {resolution : QuoteVaultResolution}
      (h : Answers settings side 2 resolver req v (.ok (request, some resolution))) (husable : UsableQuote resolution) :
      HandedOn settings side resolver req v true request

/-- A resolution that returns has failed, or hands on exactly its request. -/
theorem resolveQuote_cases {side : VaultSide V} {v v' : V} {resolved : ResolvedQuoteRequest}
    (h : resolveQuote settings side resolver req useUnderlying v = (.ok resolved, v')) :
    (∃ failure, resolved = ⟨req, .failed failure⟩ ∧
        ∀ request, ¬ HandedOn settings side resolver req v useUnderlying request) ∨
      ((∀ failure, resolved.status ≠ .failed failure) ∧
        (resolved.status.context? = none → resolved.request = req) ∧
        ∀ request, HandedOn settings side resolver req v useUnderlying request ↔ request = resolved.request) := by
  cases useUnderlying with
  | false =>
    cases h
    refine .inr ⟨by simp, fun _ => rfl, fun request => ⟨?_, ?_⟩⟩
    · rintro ⟨⟩
      rfl
    · rintro rfl
      exact .notRequested
  | true =>
    rcases resolveUnderlying_cases h with ⟨request, resolution, ⟨payload, hanswers, hjudge⟩, rfl⟩ |
      ⟨⟨message, hanswers⟩, rfl⟩ | ⟨hunusable, hnotVault, failure, rfl⟩
    · obtain ⟨rfl, husable⟩ := usableQuoteResolution_ok.1 hjudge
      refine .inr ⟨by simp, ?_, fun request' => ⟨?_, ?_⟩⟩
      · intro hcontext
        cases hcontext
      · rintro (_ | ⟨⟨message, hanswers'⟩⟩ | ⟨hanswers', -⟩)
        · cases hanswers.unique hanswers'
        · cases hanswers.unique hanswers'
          rfl
      · rintro rfl
        exact .resolved hanswers husable
    · refine .inr ⟨by simp, fun _ => rfl, fun request => ⟨?_, ?_⟩⟩
      · rintro (_ | ⟨-⟩ | ⟨hanswers', -⟩)
        · rfl
        · cases hanswers.unique hanswers'
      · rintro rfl
        exact .notVault ⟨message, hanswers⟩
    · refine .inl ⟨failure, rfl, ?_⟩
      rintro request (_ | hnot | ⟨hanswers, husable⟩)
      · exact hnotVault hnot
      · exact hunusable ⟨_, _, _, hanswers, usableQuoteResolution_ok.2 ⟨rfl, husable⟩⟩

/-- The failures of a resolution mirror the request. -/
theorem vaultResolutionFailures_amountIn {failure : VaultResolutionFailure} {results : List QuoteResult}
    (h : vaultResolutionFailures (quoteAggregation eth) selected req failure = .ok results) :
    ∀ r ∈ results, r.amountIn = some req.amountIn := by
  let turn (plugin : ProviderPlugin) : Eff Unit Exn QuoteResult :=
    Eff.ofExcept (vaultResolutionQuoteFailure plugin req failure)
  have hrun : Eff.mapEach turn selected () = (.ok results, ()) := Prod.ext h rfl
  have hforall : List.Forall₂ (fun _ r => some req.amountIn = QuoteResult.amountIn r) selected results := by
    refine List.Forall₂.imp (fun plugin r hr => ?_) (Eff.mapEach_ok hrun)
    obtain ⟨t, t', hturn⟩ := hr
    have hnew : vaultResolutionQuoteFailure plugin req failure = .ok r := congrArg Prod.fst hturn
    unfold vaultResolutionQuoteFailure QuoteResult.new at hnew
    split at hnew
    · cases hnew
      rfl
    · cases hnew
  have hmap : selected.map (fun _ => some req.amountIn) = results.map QuoteResult.amountIn := by
    rw [← List.forall₂_eq_eq_eq, List.forall₂_map_left_iff, List.forall₂_map_right_iff]
    exact hforall
  intro r hr
  have hmem : r.amountIn ∈ selected.map fun _ => some req.amountIn := by
    rw [hmap]
    exact List.mem_map_of_mem hr
  obtain ⟨plugin, -, heq⟩ := List.mem_map.1 hmem
  exact heq.symm

/-- What is returned mirrors the request if and only if everything the run returned can be restored. -/
private theorem mirrored_iff_of_run {given : List QuoteResult} {request : ProviderQuoteRequest}
    {status : VaultResolution QuoteVaultResolution} {x : List QuoteResult × AggregateQuoteSummary × Bool}
    (hgiven : RunReturns settings (quoteAggregation eth) quoteOperation env selected timeoutMs w request given)
    (hrequest : status.context? = none → request = req)
    (hfinish : finish (quoteAggregation eth) req ⟨request, status⟩ given = .ok x) :
    (∀ r ∈ x.1, ∀ n ∈ r.amountIn, n = req.amountIn) ↔ ∀ r ∈ given, Restorable req.amountIn r := by
  obtain ⟨applied, happlied, hperm⟩ := finish_ok hfinish
  have hreturned : (∀ r ∈ x.1, ∀ n ∈ r.amountIn, n = req.amountIn) ↔
      ∀ a ∈ applied.map QuoteResult.amountIn, ∀ n ∈ a, n = req.amountIn := by
    rw [List.forall_mem_map]
    exact ⟨fun h r hr => h r (hperm.mem_iff.2 hr), fun h r hr => h r (hperm.mem_iff.1 hr)⟩
  rw [hreturned]
  change applyQuoteResolution eth req given status.context? = .ok applied at happlied
  cases hcontext : status.context? with
  | some resolution =>
    rw [hcontext] at happlied
    rw [← applyQuoteResolution_amountIn happlied, List.forall_mem_map]
    exact forall₂_congr fun r _ => restoredAmount_iff
  | none =>
    rw [hcontext] at happlied
    cases happlied
    obtain ⟨r', hrun⟩ := hgiven
    have hechoes : ∀ r ∈ given, QuoteEchoes ((quoteAggregation eth).withTimeout timeoutMs request) r :=
      (Runner.establishes_echoes env.schedule _).of_returned hrun
    rw [List.forall_mem_map]
    refine forall₂_congr fun r hr => ⟨.inr, ?_⟩
    rintro (hok | hmirrors)
    · -- a success echoes the request of the run, which is the caller's
      have hamount := (hechoes r hr hok).2.2
      rw [withTimeout_amountIn, hrequest hcontext] at hamount
      intro n hn
      rw [hamount] at hn
      exact (Option.some.inj hn).symm
    · exact hmirrors

/-- A call that returns mirrors the caller's amount in all its results if and only if the run on the request that the
resolution hands on, if it hands one on, mirrors it. -/
theorem amounts_mirrored_iff {x : List QuoteResult × AggregateQuoteSummary × Bool}
    (hrun : aggregateQuotes settings eth env resolver selected req useUnderlying timeoutMs w = (.ok x, w')) :
    (∀ r ∈ x.1, ∀ n ∈ r.amountIn, n = req.amountIn) ↔
      ∀ request, HandedOn settings env.vaultSide resolver req w.vault useUnderlying request →
        ∀ r₁, Runner.admission settings quoteOperation env.schedule ((quoteAggregation eth).withTimeout timeoutMs request)
            selected (Runner.enter (w.runner.onShared env.runnerMeanwhile)) = (.ok (), r₁) →
          Runner.Mirrors req.amountIn env.schedule ((quoteAggregation eth).withTimeout timeoutMs request) selected
            r₁.frame.runnable := by
  obtain ⟨hselected, resolved, v', hresolve⟩ := resolve_of_aggregate hrun
  rcases resolveQuote_cases hresolve with ⟨failure, rfl, hnone⟩ | ⟨hstatus, hrequest, hhanded⟩
  · have houtcome := (aggregate_failed hselected hresolve hrun).2
    cases hfailures : vaultResolutionFailures (quoteAggregation eth) selected req failure with
    | error exc =>
      rw [hfailures] at houtcome
      cases houtcome
    | ok results =>
      rw [hfailures] at houtcome
      have hfinish : finish (quoteAggregation eth) req ⟨req, .failed failure⟩ results = .ok x := by
        change Except.ok x = (finish (quoteAggregation eth) req ⟨req, .failed failure⟩ results).mapError _ at houtcome
        cases hf : finish (quoteAggregation eth) req ⟨req, .failed failure⟩ results with
        | error exc =>
          rw [hf] at houtcome
          cases houtcome
        | ok y =>
          rw [hf] at houtcome
          cases houtcome
          rfl
      obtain ⟨applied, happlied, hperm⟩ := finish_ok hfinish
      cases happlied
      refine iff_of_true (fun r hr n hn => ?_) fun request hrequest => absurd hrequest (hnone request)
      rw [vaultResolutionFailures_amountIn hfailures r (hperm.mem_iff.1 hr)] at hn
      exact (Option.some.inj hn).symm
  · obtain ⟨given, hgiven, hfinish⟩ := (aggregate_run hselected hresolve hstatus hrun).2 x rfl
    have hmirrored := mirrored_iff_of_run hgiven hrequest hfinish
    rw [hmirrored]
    obtain ⟨r', hreturns⟩ := hgiven
    rw [Runner.restorable_iff hreturns]
    constructor
    · intro hmirrors request hrequest
      rw [(hhanded request).1 hrequest]
      exact hmirrors
    · intro hmirrors
      exact hmirrors _ ((hhanded _).2 rfl)

end Whole

/-! ### Five shares of the ordinary vault -/

/-- A provider that answers at once, with an amount of its own. -/
def Example.answering (i : Nat) (req : ProviderQuoteRequest) : Option (PluginRun AcceptedQuoteResult) :=
  let result : QuoteResult :=
    { provider := if i = 0 then "curve" else "lifi", status := .ok, tokenIn := some req.tokenIn
      tokenOut := some req.tokenOut, amountIn := some req.amountIn, amountOut := some 7, latencyMs := 0 }
  if h : result.Valid then some ⟨.returned ⟨result, h⟩, .zero, .zero⟩
  else none

def Example.mirroredRun (task : Nat → ProviderQuoteRequest → Option (PluginRun AcceptedQuoteResult)) :=
  aggregateQuotes .default Example.eth (Example.aggregatorEnv task)
    (VaultResolver.resolveQuoteRequest Example.eth (fun _ => true) (Example.detectInput Example.ordinaryVault)
      Example.lastBlock)
    Example.plugins (Example.quoteRequest 5) true none Example.aggregatorWorld

/-- The results of a call, none if it raised. -/
def Example.returned (run : Except Raised (List QuoteResult × AggregateQuoteSummary × Bool) ×
    AggregatorWorld WeightedLimiter ProviderQuoteRequest QuoteResult) : List QuoteResult :=
  match run.1 with
  | .ok x => x.1
  | .error _ => []

/-- Both providers answer for the ten tokens, and both results mirror the five shares. -/
theorem amounts_mirrored_iff_answered :
    (Example.returned (Example.mirroredRun Example.answering)).map QuoteResult.amountIn = [some 5, some 5] ∧
      ∀ request, HandedOn .default Example.vaultSide
          (VaultResolver.resolveQuoteRequest Example.eth (fun _ => true) (Example.detectInput Example.ordinaryVault)
            Example.lastBlock)
          (Example.quoteRequest 5) Example.vaultLimiter true request →
        ∀ r₁, Runner.admission .default quoteOperation (Schedule.quiet Example.answering) request Example.plugins
            (Runner.enter (.new .default)) = (.ok (), r₁) →
          Runner.Mirrors 5 (Schedule.quiet Example.answering) request Example.plugins r₁.frame.runnable := by
  have hresults : (Example.returned (Example.mirroredRun Example.answering)).map QuoteResult.amountIn =
      [some 5, some 5] := by decide +kernel
  refine ⟨hresults, ?_⟩
  rcases hrun : Example.mirroredRun Example.answering with ⟨e | x, w'⟩
  · rw [hrun] at hresults
    cases hresults
  · rw [hrun] at hresults
    change x.1.map QuoteResult.amountIn = [some 5, some 5] at hresults
    refine (amounts_mirrored_iff hrun).1 fun r hr n hn => ?_
    have hmem : r.amountIn ∈ [some 5, some 5] := hresults ▸ List.mem_map_of_mem hr
    rw [Option.mem_def.1 hn] at hmem
    have hn5 : n = 5 := by simpa using hmem
    exact hn5

/-- Neither provider is done at the deadline, and both results have the ten tokens instead of the five shares. -/
theorem amounts_not_mirrored :
    ∃ r ∈ Example.returned (Example.mirroredRun fun _ _ => none), ∃ n ∈ r.amountIn,
      n = 10 ∧ n ≠ (Example.quoteRequest 5).amountIn := by
  decide +kernel

end TokenPriceAgg

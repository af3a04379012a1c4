import TokenPriceAgg.Core.RunnerResults

/-!
# What a call returns

A call that returns has admitted some of its plugins and turned the others away.  It returns the results of the tasks
of the former, followed by the immediate results of the latter.  Nothing is assumed of the plugins here: the same one
may be listed twice.
-/

namespace TokenPriceAgg

open PyLib Eff

namespace Runner

section Returns

variable {Req A R : Type} [ProviderResult R] {settings : Settings} {op : Operation Req A R} {env : Schedule Req A}
  {req : Req} {plugins runnable done : List ProviderPlugin} {plugin : ProviderPlugin} {deadlineMs : Int}
  {w w' : World R} {results : List R}

/-- Every plugin behind is accounted for, whatever the log says. -/
def Counted (op : Operation Req A R) (req : Req) (done : List ProviderPlugin) (f : Frame R) (_ : List Event) : Prop :=
  Accounted op req done f

private theorem static_counted (reason : StaticReason) :
    Triple (On (Counted op req done)) (do addImmediate (← ofExcept (op.staticResult plugin req reason)))
      (fun _ => On (Counted op req (done ++ [plugin]))) (fun _ _ => True) := by
  refine Triple.bind (Triple.weaken ofExcept_triple (fun w hw => hw) (fun a w hw => hw) fun _ _ _ => trivial)
    fun result => ?_
  intro w hw
  obtain ⟨hr, hw⟩ := hw
  exact Accounted.addImmediate hw hr

private theorem admitPlugin_counted (place : Nat) :
    Triple (On (Counted op req done)) (admitPlugin settings op env req plugin place)
      (fun _ => On (Counted op req (done ++ [plugin]))) (fun _ _ => True) := by
  unfold admitPlugin
  cases staticRejectionReason plugin op.name (op.chainId req) with
  | some reason => exact static_counted reason
  | none =>
    refine Triple.bind (allow_triple (q := Counted op req done) fun f l h => h) fun answer => ?_
    cases answer with
    | false =>
      simp only [Bool.false_eq_true, if_false]
      exact static_counted .circuitOpen
    | true =>
      simp only [if_true]
      have hscope : ∀ f l, Counted op req done f l →
          Counted op req done { f with circuitScopes := f.circuitScopes.insert (scopeOf op req plugin.id) } l :=
        fun f l h => ⟨h.providers, h.immediate_of⟩
      refine Triple.bind (onFrame_triple hscope) fun _ => ?_
      refine Triple.bind (Triple.weaken (tryAcquire_triple (p := Counted op req done) (q := Counted op req done)
        (by decide) fun f l h => h) (fun w hw => hw)
        (fun r w hw => hw) fun _ _ _ => trivial) fun r => ?_
      cases r with
      | none => exact static_counted .providerCapacity
      | some reservation => exact Triple.modify fun w hw => Accounted.addRunnable hw.2 _

private theorem admitAll_counted : Triple (On (Counted op req [])) (admitAll settings op env req plugins)
    (fun _ => On (Counted op req plugins)) (fun _ _ => True) := by
  unfold admitAll
  let I (done _rest : List (ProviderPlugin × Nat)) : World R → Prop := On (Counted op req (done.map Prod.fst))
  have hturn : ∀ done x rest, Triple (I done (x :: rest)) (admitPlugin settings op env req x.1 x.2)
      (fun _ => I (done ++ [x]) rest) (fun _ _ => True) := by
    intro done x rest
    simp only [I, List.map_append]
    exact admitPlugin_counted x.2
  have hloop := Triple.forEach hturn [] plugins.zipIdx
  refine Triple.weaken hloop (fun w hw => hw) (fun _ w hw => ?_) fun _ _ _ => trivial
  have hmap : ([] ++ plugins.zipIdx).map Prod.fst = plugins := by rw [List.nil_append, List.zipIdx_map_fst]
  exact hmap ▸ hw

private theorem admission_counted (h : admission settings op env req plugins (enter w) = (.ok (), w')) :
    Accounted op req plugins w'.frame := by
  have hreserve : Triple (On (Counted op req plugins)) (reserveGlobal settings env) (fun _ => On (Counted op req plugins))
      (fun _ _ => True) := by
    intro w hw
    unfold reserveGlobal
    rw [bind_run, get_run]
    dsimp only
    by_cases hpos : 0 < w.frame.runnable.length
    · rw [if_pos hpos]
      have hn : (0 : Int) < w.frame.runnable.length := Int.natCast_pos.2 hpos
      refine Triple.bind (Triple.weaken (tryAcquire_triple (p := Counted op req plugins) (q := Counted op req plugins) hn
        fun f l h => h) (fun w hw => hw) (fun r w hw => hw)
        fun _ _ _ => trivial) (fun r => ?_) w hw
      cases r with
      | none => exact Triple.raise fun _ _ => trivial
      | some reservation =>
        refine Triple.modify fun w' hw' => ?_
        obtain ⟨-, hc⟩ := hw'
        exact ⟨hc.providers, hc.immediate_of⟩
    · rw [if_neg hpos]
      exact hw
  have hall : Triple (On (Counted op req [])) (admission settings op env req plugins)
      (fun _ => On (Counted op req plugins))
      (fun _ _ => True) := Triple.bind admitAll_counted fun _ => hreserve
  have houtcome : Outcome _ _ (admission settings op env req plugins (enter w)) := hall (enter w) (enter_loop w).2.2
  rwa [h] at houtcome

/-- The second half of the `try` block returns the task results and, after them, the immediate results. -/
private theorem fanOut_ok {returned : List R} (h : fanOut settings op env req deadlineMs w = (.ok returned, w')) :
    ∃ results, taskResults op env req deadlineMs w.frame.runnable = .ok results ∧
      returned = results ++ w.frame.immediateResults := by
  let Kept (f : Frame R) (_ : List Event) : Prop :=
    f.runnable = w.frame.runnable ∧ f.immediateResults = w.frame.immediateResults
  let Results (results : List R) : Prop := taskResults op env req deadlineMs w.frame.runnable = .ok results
  have hcreate : Triple (On Kept) (createTasks : Run R Unit) (fun _ => On fun f l => Kept f l ∧
      f.tasks = w.frame.runnable.map fun plugin => { plugin, done := false }) (fun _ _ => True) := by
    refine Triple.modify fun w' hw' => ⟨hw', ?_⟩
    rw [← hw'.1]
  have hrecord (results : List R) : Triple (On Kept) (recordResults settings op env req results) (fun _ => On Kept)
      (fun _ _ => True) := by
    refine Triple.forEach_invariant fun r _ => ?_
    refine Triple.bind (Triple.weaken (recordResult_triple (q := Kept) fun f l h => h) (fun w hw => hw)
      (fun _ w hw => hw.2)
      fun _ _ _ => trivial) fun _ => ?_
    exact onFrame_triple fun f l h => h
  have htriple : Triple (On Kept) (fanOut settings op env req deadlineMs) (fun returned _ => ∃ results,
      Results results ∧ returned = results ++ w.frame.immediateResults) (fun _ _ => True) := by
    unfold fanOut
    refine Triple.bind (Triple.weaken ofExcept_triple (fun w hw => hw) (fun _ w hw => hw) fun _ _ _ => trivial)
      fun q => ?_
    refine Triple.assume fun hq => Triple.bind hcreate fun _ => ?_
    have hf : FitsFloat (max deadlineMs 1) 1000 := (divide_eq_ok hq).2
    have hfinish : ∀ f (l : List Event) p, Kept f l → Kept (finish p f) l := fun f l p h => h
    have hwait : Triple (On fun f l => Kept f l ∧
          f.tasks = w.frame.runnable.map fun plugin => { plugin, done := false })
        (waitForResults op env req deadlineMs) (fun results w => Results results ∧ On Kept w) (fun _ _ => True) :=
      Triple.weaken (waitForResults_triple hf hfinish) (fun w hw => hw) (fun _ w hw => hw)
        fun e w' (_ : FanOutRaises settings op env req deadlineMs w.frame.runnable e ∧ On Kept w') => trivial
    refine Triple.bind hwait fun results => Triple.assume fun hresults => ?_
    refine Triple.bind (hrecord results) fun _ => ?_
    intro w' hw'
    exact ⟨results, hresults, by rw [hw'.2]⟩
  have houtcome : Outcome _ _ (fanOut settings op env req deadlineMs w) := htriple w ⟨rfl, rfl⟩
  rwa [h] at houtcome

/-- What a call that returns has done. -/
theorem runOperation_ok {returned : List R}
    (h : runOperation settings op env req plugins deadlineMs w = (.ok returned, w')) :
    ∃ w₁ results, admission settings op env req plugins (enter w) = (.ok (), w₁) ∧
      Accounted op req plugins w₁.frame ∧
      taskResults op env req deadlineMs w₁.frame.runnable = .ok results ∧
      returned = results ++ w₁.frame.immediateResults := by
  unfold runOperation at h
  rw [bind_run, modify_run] at h
  dsimp only at h
  unfold Eff.tryFinally at h
  rcases hb : body settings op env req plugins deadlineMs (enter w) with ⟨e | a, w₂⟩
  · rw [hb] at h
    rcases hc : cleanup env w₂ with ⟨e' | u, w₃⟩ <;> simp only [hc] at h <;> cases h
  · rw [hb] at h
    rcases hc : cleanup env w₂ with ⟨e' | u, w₃⟩ <;> simp only [hc] at h <;> cases h
    obtain ⟨u', w₁, hadmission, hfan⟩ := bind_eq_ok.1 hb
    obtain ⟨results, htasks, rfl⟩ := fanOut_ok hfan
    exact ⟨w₁, results, hadmission, admission_counted hadmission, htasks, rfl⟩

/-- `P` holds of everything that the runner makes for `req` itself and of what the tasks return. -/
structure Establishes (op : Operation Req A R) (env : Schedule Req A) (req : Req) (P : R → Prop) : Prop where
  static : ∀ {p reason r}, op.staticResult p req reason = .ok r → P r
  deadline : ∀ {id d r}, op.deadlineResult id req d = .ok r → P r
  internal : ∀ {id exc r}, op.internalTaskFailureResult id req exc = .ok r → P r
  run : ∀ {i p run r}, env.task i req = some run → op.runSinglePlugin p req run = .ok r → P r

private theorem Establishes.taskResult {P : R → Prop} (hP : Establishes op env req P) {i : Nat} {r : R}
    (h : taskResult op req deadlineMs plugin (env.task i req) = .ok r) : P r := by
  unfold Runner.taskResult at h
  split at h
  · exact hP.deadline h
  · rename_i run hrun
    split at h
    · rename_i result hresult
      cases h
      exact hP.run hrun hresult
    · exact hP.deadline h
    · exact hP.internal h

/-- Every result of a call that returns has `P`. -/
theorem Establishes.of_returned {P : R → Prop} (hP : Establishes op env req P)
    (h : runOperation settings op env req plugins deadlineMs w = (.ok results, w')) : ∀ r ∈ results, P r := by
  obtain ⟨w₁, tasked, -, haccounted, htasks, rfl⟩ := runOperation_ok h
  intro r hr
  rcases List.mem_append.1 hr with hr | hr
  · obtain ⟨i, plugin, -, htask⟩ := (taskResults_ok htasks).1 r hr
    exact hP.taskResult htask
  · obtain ⟨p, reason, hstatic⟩ := haccounted.immediate_of r hr
    exact hP.static hstatic

end Returns

/-- For prices it is enough to look at the runner's failures and at what the plugins return. -/
theorem establishes_price {env : Schedule ProviderPriceRequest AcceptedPriceResult} {req : ProviderPriceRequest}
    {P : PriceResult → Prop}
    (hfailure : ∀ provider status latencyMs error r, priceFailure req provider status latencyMs error = .ok r → P r)
    (hreturned : ∀ i run a, env.task i req = some run → run.call = .returned a → P a.val) :
    Establishes priceOperation env req P where
  static h := hfailure _ _ _ _ _ (recorded_ok h)
  deadline h := hfailure _ _ _ _ _ (recorded_ok h)
  internal h := hfailure _ _ _ _ _ (recorded_ok h)
  run := fun {i p run r} hrun h => by
    change runPricePlugin p req run = .ok r at h
    unfold runPricePlugin at h
    rcases runPlugin_ok h with ⟨a, ha, rfl, -⟩ | ⟨latencyMs, error, -, hf⟩
    · exact hreturned i run a hrun ha
    · exact hfailure _ _ _ _ _ hf

/-- For quotes it is enough to look at the runner's failures and at what the plugins return. -/
theorem establishes_quote {env : Schedule ProviderQuoteRequest AcceptedQuoteResult} {req : ProviderQuoteRequest}
    {P : QuoteResult → Prop}
    (hfailure : ∀ provider status latencyMs error r, quoteFailure req provider status latencyMs error = .ok r → P r)
    (hreturned : ∀ i run a, env.task i req = some run → run.call = .returned a → P a.val) :
    Establishes quoteOperation env req P where
  static h := hfailure _ _ _ _ _ (recorded_ok h)
  deadline h := hfailure _ _ _ _ _ (recorded_ok h)
  internal h := hfailure _ _ _ _ _ (recorded_ok h)
  run := fun {i p run r} hrun h => by
    change runQuotePlugin p req run = .ok r at h
    unfold runQuotePlugin at h
    rcases runPlugin_ok h with ⟨a, ha, rfl, -⟩ | ⟨latencyMs, error, -, hf⟩
    · exact hreturned i run a hrun ha
    · exact hfailure _ _ _ _ _ hf

/-- Every price result of a run is one the model accepts. -/
theorem establishes_valid_price (env : Schedule ProviderPriceRequest AcceptedPriceResult) (req : ProviderPriceRequest) :
    Establishes priceOperation env req PriceResult.Valid :=
  establishes_price (fun _ _ _ _ _ h => PriceResult.valid_of_new h) fun _ _ a _ _ => a.property

/-- Every success of a run echoes the request. -/
theorem establishes_echoes (env : Schedule ProviderQuoteRequest AcceptedQuoteResult) (req : ProviderQuoteRequest) :
    Establishes quoteOperation env req (QuoteEchoes req) where
  static h := quoteOperation_sound.static_echoes h
  deadline h := (quoteOperation_sound.deadline_echoes h).1
  internal h := (quoteOperation_sound.internal_echoes h).1
  run _ h := quoteOperation_sound.run_echoes h

end Runner

end TokenPriceAgg

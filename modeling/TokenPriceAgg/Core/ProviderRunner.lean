import TokenPriceAgg.App.Config
import TokenPriceAgg.Core.Limits

/-!
# The provider runner

`runOperation` is `_run_operation`: it admits the plugins one by one, reserves the global units, waits for the
plugin tasks up to the deadline, records the results with the circuit breaker and cleans up.  It is one computation
over the `World`: what all requests share, this call's local variables as its `finally` block sees them, and the
log of what it did with the limiters and the circuit.

Everything that is not decided by this code is in the `Schedule`: the clock, how each wait on a limiter ends, how
far each task is when `asyncio.wait` returns and what its plugin did, in which order the sets of tasks are iterated,
where the calling task is cancelled, and what the other requests do to the shared state at every suspension.  A task
ends when it is cancelled: a plugin that catches its cancellation and goes on is left out.
-/

namespace TokenPriceAgg

open PyLib

/-- What the runner reads of a plugin. -/
structure ProviderPlugin where
  id : String
  supportsPrice : Bool
  supportsQuote : Bool
  enabledChains : List Int
  available : Bool
  unavailableReason : Option String
deriving DecidableEq, Repr

/-- How `await plugin.get_price(req)` ends. -/
inductive PluginCall (A : Type)
  | returned (result : A)
  /-- an object that is not a result -/
  | returnedOther
  | raised (e : Exn)
  /-- the task is cancelled -/
  | cancelled

/-- A measured duration in milliseconds. -/
abbrev Millis := {n : Nat // FitsFloat n 1000}

def Millis.zero : Millis := ⟨0, fitsFloat_zero (by decide)⟩

/-- A plugin call that ended, with the durations read when it failed and when its result was recorded. -/
structure PluginRun (A : Type) where
  call : PluginCall A
  failedAfterMs : Millis
  elapsedMs : Millis

/-! ### Results the runner makes -/

/-- `record_provider_call`: the histogram takes the latency in seconds. -/
def recordProviderCall (latencyMs : Int) : Except Exn Unit := (divide (max latencyMs 0) 1000).map fun _ => ()

inductive StaticReason
  | unsupportedChain
  | unsupportedOperation
  | providerUnavailable
  | circuitOpen
  | providerCapacity
deriving DecidableEq, Repr

def staticRejectionReason (plugin : ProviderPlugin) (operation : String) (chainId : Int) : Option StaticReason :=
  if chainId ∉ plugin.enabledChains then some .unsupportedChain
  else if operation = "price" ∧ plugin.supportsPrice = false then some .unsupportedOperation
  else if operation = "quote" ∧ plugin.supportsQuote = false then some .unsupportedOperation
  else if plugin.available = false then some .providerUnavailable
  else none

/-- `plugin.unavailable_reason or "Provider unavailable"`. -/
def unavailableMessage (plugin : ProviderPlugin) : String :=
  match plugin.unavailableReason with
  | none => "Provider unavailable"
  | some reason => if reason = "" then "Provider unavailable" else reason

def staticError (plugin : ProviderPlugin) : StaticReason → ProviderStatus × ErrorInfo
  | .unsupportedChain => (.badRequest, { type := .unsupportedChain, message := "Provider does not support chain" })
  | .unsupportedOperation =>
    (.badRequest, { type := .unsupportedOperation, message := "Provider does not support operation" })
  | .providerUnavailable => (.badRequest, { type := .providerUnavailable, message := unavailableMessage plugin })
  | .circuitOpen => (.error, { type := .providerUnavailable, message := "Provider circuit is open" })
  | .providerCapacity => (.error, { type := .providerUnavailable, message := "Provider capacity unavailable" })

def deadlineError : ErrorInfo := { type := .deadlineExceeded, message := "Provider exceeded aggregate deadline" }

def internalTaskFailureError (exc : Exn) : ErrorInfo :=
  { type := .internal, message := "Provider task failed: " ++ exc.typeName }

def executionFailedError (exc : Exn) : ErrorInfo :=
  { type := .internal, message := "Provider execution failed: " ++ exc.typeName }

/-- Build a result and record its call. -/
def recorded {R : Type} (new : Except Exn R) (latencyMs : Int) : Except Exn R := do
  let result ← new
  recordProviderCall latencyMs
  pure result

/-- A failed price result of the runner for `req`. -/
def priceFailure (req : ProviderPriceRequest) (provider : String) (status : ProviderStatus) (latencyMs : Int)
    (error : ErrorInfo) : Except Exn PriceResult :=
  PriceResult.new { provider, status, token := some req.token, latencyMs, error := some error }

/-- A failed quote result of the runner for `req`. -/
def quoteFailure (req : ProviderQuoteRequest) (provider : String) (status : ProviderStatus) (latencyMs : Int)
    (error : ErrorInfo) : Except Exn QuoteResult :=
  QuoteResult.new { provider, status, tokenIn := some req.tokenIn, tokenOut := some req.tokenOut,
                    amountIn := some req.amountIn, latencyMs, error := some error }

def staticPriceResult (plugin : ProviderPlugin) (req : ProviderPriceRequest) (reason : StaticReason) :
    Except Exn PriceResult :=
  recorded (priceFailure req plugin.id (staticError plugin reason).1 0 (staticError plugin reason).2) 0

def staticQuoteResult (plugin : ProviderPlugin) (req : ProviderQuoteRequest) (reason : StaticReason) :
    Except Exn QuoteResult :=
  recorded (quoteFailure req plugin.id (staticError plugin reason).1 0 (staticError plugin reason).2) 0

def deadlinePriceResult (providerId : String) (req : ProviderPriceRequest) (deadlineMs : Int) : Except Exn PriceResult :=
  recorded (priceFailure req providerId .error deadlineMs deadlineError) deadlineMs

def deadlineQuoteResult (providerId : String) (req : ProviderQuoteRequest) (deadlineMs : Int) : Except Exn QuoteResult :=
  recorded (quoteFailure req providerId .error deadlineMs deadlineError) deadlineMs

def internalPriceTaskFailureResult (providerId : String) (req : ProviderPriceRequest) (exc : Exn) :
    Except Exn PriceResult :=
  recorded (priceFailure req providerId .error 0 (internalTaskFailureError exc)) 0

def internalQuoteTaskFailureResult (providerId : String) (req : ProviderQuoteRequest) (exc : Exn) :
    Except Exn QuoteResult :=
  recorded (quoteFailure req providerId .error 0 (internalTaskFailureError exc)) 0

def validatePriceResultIdentity (result : PriceResult) (req : ProviderPriceRequest) (providerId : String) :
    Except Exn Unit :=
  if result.provider ≠ providerId then .error (.valueError "Provider result identity does not match invoked provider")
  else if result.status ≠ .ok then .ok ()
  else
    match result.token with
    | none => .error (.valueError "Successful price result has invalid token identity")
    | some token =>
      if token.chainId ≠ req.chainId then .error (.valueError "Successful price result has invalid token identity")
      else if token.address ≠ req.token.address then
        .error (.valueError "Successful price result token does not match request")
      else .ok ()

def validateQuoteResultIdentity (result : QuoteResult) (req : ProviderQuoteRequest) (providerId : String) :
    Except Exn Unit :=
  if result.provider ≠ providerId then .error (.valueError "Provider result identity does not match invoked provider")
  else if result.status ≠ .ok then .ok ()
  else
    match result.tokenIn, result.tokenOut with
    | some tokenIn, some tokenOut =>
      if tokenIn.chainId ≠ req.chainId ∨ tokenOut.chainId ≠ req.chainId then
        .error (.valueError "Successful quote result has invalid chain identity")
      else if tokenIn.address ≠ req.tokenIn.address ∨ tokenOut.address ≠ req.tokenOut.address then
        .error (.valueError "Successful quote result tokens do not match request")
      else if result.amountIn ≠ some req.amountIn then
        .error (.valueError "Successful quote result amount_in does not match request")
      else .ok ()
    | _, _ => .error (.valueError "Successful quote result is missing token identity")

/-- The task of one plugin, `_run_price_plugin` and `_run_quote_plugin`: the result is checked, an exception becomes
a failure, and a cancellation passes through. -/
def runPlugin {A R : Type} [ProviderResult R] (val : A → R) (validate : R → Except Exn Unit) (notResult : String)
    (failure : Int → ErrorInfo → Except Exn R) (run : PluginRun A) : Except Raised R := do
  let checked : Except Raised R :=
    match run.call with
    | .returned result =>
      match validate (val result) with
      | .ok () => .ok (val result)
      | .error exc => .error (.exception exc)
    | .returnedOther => .error (.exception (.typeError notResult))
    | .raised exc => .error (.exception exc)
    | .cancelled => .error .cancelled
  let result ←
    match checked with
    | .error (.exception exc) => (failure run.failedAfterMs.val (executionFailedError exc)).mapError Raised.exception
    | r => r
  (recordProviderCall (max (ProviderResult.latencyMs result) run.elapsedMs.val)).mapError Raised.exception
  pure result

def runPricePlugin (plugin : ProviderPlugin) (req : ProviderPriceRequest) (run : PluginRun AcceptedPriceResult) :
    Except Raised PriceResult :=
  runPlugin Subtype.val (validatePriceResultIdentity · req plugin.id) "Provider returned non-PriceResult response"
    (priceFailure req plugin.id .error) run

def runQuotePlugin (plugin : ProviderPlugin) (req : ProviderQuoteRequest) (run : PluginRun AcceptedQuoteResult) :
    Except Raised QuoteResult :=
  runPlugin Subtype.val (validateQuoteResultIdentity · req plugin.id) "Provider returned non-QuoteResult response"
    (quoteFailure req plugin.id .error) run

/-! ### Who a result names -/

theorem recorded_ok {R : Type} {new : Except Exn R} {latencyMs : Int} {r : R} (h : recorded new latencyMs = .ok r) :
    new = .ok r := by
  unfold recorded at h
  cases new with
  | error e => cases h
  | ok r' =>
    change (recordProviderCall latencyMs >>= fun _ => pure r') = .ok r at h
    cases hl : recordProviderCall latencyMs with
    | error e => rw [hl] at h; cases h
    | ok u => rw [hl] at h; exact h

theorem priceFailure_ok {req : ProviderPriceRequest} {provider : String} {status : ProviderStatus} {latencyMs : Int}
    {error : ErrorInfo} {r : PriceResult} (h : priceFailure req provider status latencyMs error = .ok r) :
    r = { provider, status, token := some req.token, latencyMs, error := some error } := by
  unfold priceFailure PriceResult.new at h
  split at h
  · exact (Except.ok.inj h).symm
  · cases h

theorem quoteFailure_ok {req : ProviderQuoteRequest} {provider : String} {status : ProviderStatus} {latencyMs : Int}
    {error : ErrorInfo} {r : QuoteResult} (h : quoteFailure req provider status latencyMs error = .ok r) :
    r = { provider, status, tokenIn := some req.tokenIn, tokenOut := some req.tokenOut,
          amountIn := some req.amountIn, latencyMs, error := some error } := by
  unfold quoteFailure QuoteResult.new at h
  split at h
  · exact (Except.ok.inj h).symm
  · cases h

private theorem validatePriceResultIdentity_provider
    {result : PriceResult} {req : ProviderPriceRequest} {providerId : String}
    (h : validatePriceResultIdentity result req providerId = .ok ()) : result.provider = providerId := by
  unfold validatePriceResultIdentity at h
  split at h
  · cases h
  · rename_i hp
    exact not_not.1 hp

private theorem validateQuoteResultIdentity_provider
    {result : QuoteResult} {req : ProviderQuoteRequest} {providerId : String}
    (h : validateQuoteResultIdentity result req providerId = .ok ()) : result.provider = providerId := by
  unfold validateQuoteResultIdentity at h
  split at h
  · cases h
  · rename_i hp
    exact not_not.1 hp

/-- A task returns the plugin's own result after its check, or a failure of the runner. -/
theorem runPlugin_ok {A R : Type} [ProviderResult R] {val : A → R} {validate : R → Except Exn Unit} {notResult : String}
    {failure : Int → ErrorInfo → Except Exn R} {run : PluginRun A} {r : R}
    (h : runPlugin val validate notResult failure run = .ok r) :
    (∃ a, run.call = .returned a ∧ r = val a ∧ validate r = .ok ()) ∨
      ∃ (latencyMs : Int) (error : ErrorInfo), error.type = .internal ∧ failure latencyMs error = .ok r := by
  have record {x : R} (hx : ((recordProviderCall (max (ProviderResult.latencyMs x) run.elapsedMs.val)).mapError
      Raised.exception >>= fun _ => pure x : Except Raised R) = .ok r) : x = r := by
    cases hl : recordProviderCall (max (ProviderResult.latencyMs x) run.elapsedMs.val) with
    | error e => rw [hl] at hx; cases hx
    | ok u => rw [hl] at hx; exact Except.ok.inj hx
  have failed {exc : Exn} (hx : ((failure run.failedAfterMs.val (executionFailedError exc)).mapError Raised.exception >>=
      fun result => (recordProviderCall (max (ProviderResult.latencyMs result) run.elapsedMs.val)).mapError
        Raised.exception >>= fun _ => pure result : Except Raised R) = .ok r) :
      ∃ (latencyMs : Int) (error : ErrorInfo), error.type = .internal ∧ failure latencyMs error = .ok r := by
    cases hf : failure run.failedAfterMs.val (executionFailedError exc) with
    | error e => rw [hf] at hx; cases hx
    | ok x =>
      rw [hf] at hx
      exact ⟨_, _, rfl, (record hx) ▸ hf⟩
  unfold runPlugin at h
  cases hc : run.call with
  | returned a =>
    simp only [hc] at h
    cases hv : validate (val a) with
    | ok u =>
      simp only [hv] at h
      have he : val a = r := record h
      exact .inl ⟨a, rfl, he.symm, he ▸ hv⟩
    | error exc =>
      simp only [hv] at h
      exact .inr (failed h)
  | returnedOther =>
    simp only [hc] at h
    exact .inr (failed h)
  | raised exc =>
    simp only [hc] at h
    exact .inr (failed h)
  | cancelled =>
    simp only [hc] at h
    cases h

/-! ### Operations -/

/-- What distinguishes prices from quotes, and that every result names the provider it is made for. -/
structure Operation (Req A R : Type) [ProviderResult R] where
  name : String
  chainId : Req → Int
  runSinglePlugin : ProviderPlugin → Req → PluginRun A → Except Raised R
  staticResult : ProviderPlugin → Req → StaticReason → Except Exn R
  deadlineResult : String → Req → Int → Except Exn R
  internalTaskFailureResult : String → Req → Exn → Except Exn R
  run_provider : ∀ {p req run r}, runSinglePlugin p req run = .ok r → ProviderResult.provider r = p.id
  static_provider : ∀ {p req reason r}, staticResult p req reason = .ok r → ProviderResult.provider r = p.id
  deadline_provider : ∀ {id req d r}, deadlineResult id req d = .ok r → ProviderResult.provider r = id
  internal_provider : ∀ {id req exc r}, internalTaskFailureResult id req exc = .ok r → ProviderResult.provider r = id

def priceOperation : Operation ProviderPriceRequest AcceptedPriceResult PriceResult where
  name := "price"
  chainId req := req.chainId
  runSinglePlugin := runPricePlugin
  staticResult := staticPriceResult
  deadlineResult := deadlinePriceResult
  internalTaskFailureResult := internalPriceTaskFailureResult
  run_provider h := by
    rcases runPlugin_ok h with ⟨a, -, -, hv⟩ | ⟨l, e, -, hf⟩
    · exact validatePriceResultIdentity_provider hv
    · rw [priceFailure_ok hf]; rfl
  static_provider h := by rw [priceFailure_ok (recorded_ok h)]; rfl
  deadline_provider h := by rw [priceFailure_ok (recorded_ok h)]; rfl
  internal_provider h := by rw [priceFailure_ok (recorded_ok h)]; rfl

def quoteOperation : Operation ProviderQuoteRequest AcceptedQuoteResult QuoteResult where
  name := "quote"
  chainId req := req.chainId
  runSinglePlugin := runQuotePlugin
  staticResult := staticQuoteResult
  deadlineResult := deadlineQuoteResult
  internalTaskFailureResult := internalQuoteTaskFailureResult
  run_provider h := by
    rcases runPlugin_ok h with ⟨a, -, -, hv⟩ | ⟨l, e, -, hf⟩
    · exact validateQuoteResultIdentity_provider hv
    · rw [quoteFailure_ok hf]; rfl
  static_provider h := by rw [quoteFailure_ok (recorded_ok h)]; rfl
  deadline_provider h := by rw [quoteFailure_ok (recorded_ok h)]; rfl
  internal_provider h := by rw [quoteFailure_ok (recorded_ok h)]; rfl

/-! ### The world of a call -/

structure CapacityLimiters where
  globalLimiter : WeightedLimiter
  perProviderUnits : Nat
  providerLimiters : Dict String WeightedLimiter
  perProviderUnits_pos : 0 < perProviderUnits

/-- The runner's state, shared by all requests. -/
structure Shared where
  circuit : CircuitBreaker
  capacity : CapacityLimiters

/-- The state of a new `ProviderOperationRunner`. -/
def Shared.new (settings : Settings) : Shared where
  circuit := .empty
  capacity :=
    { globalLimiter := .new settings.effectiveProviderGlobalUnits settings.effectiveProviderGlobalUnits_pos
      perProviderUnits := settings.providerPerProviderUnits
      providerLimiters := .empty
      perProviderUnits_pos := settings.providerPerProviderUnits_pos }

/-- The limiters a request draws from. -/
inductive Lane
  | provider (key : String)
  | global
deriving DecidableEq, Repr

/-- `provider_id or "unknown"`. -/
def Lane.ofProvider (providerId : String) : Lane := .provider (if providerId = "" then "unknown" else providerId)

namespace CapacityLimiters

def limiter (c : CapacityLimiters) : Lane → WeightedLimiter
  | .provider key => c.providerLimiters.getD key (.new c.perProviderUnits c.perProviderUnits_pos)
  | .global => c.globalLimiter

def setLimiter (c : CapacityLimiters) : Lane → WeightedLimiter → CapacityLimiters
  | .provider key, l => { c with providerLimiters := c.providerLimiters.set key l }
  | .global, l => { c with globalLimiter := l }

end CapacityLimiters

/-- What a call did, in order. -/
inductive Event
  /-- `allow` returned true -/
  | admitted (scope : CircuitScope)
  | acquired (lane : Lane) (units : Nat)
  | released (lane : Lane) (units : Nat)
  /-- `record_result` returned -/
  | recorded (scope : CircuitScope)
  | probeReleased (scope : CircuitScope)
  /-- the task that calls the plugin was created -/
  | started (provider : String)
  /-- the caller was cancelled while the `finally` block awaited its pending tasks -/
  | cleanupCancelled
deriving DecidableEq, Repr

structure ProviderTask where
  plugin : ProviderPlugin
  done : Bool

/-- The local variables of `_run_operation`. -/
structure Frame (R : Type) where
  immediateResults : List R := []
  runnable : List ProviderPlugin := []
  providerReservations : List (Lane × LimitReservation) := []
  circuitScopes : List CircuitScope := []
  globalReservation : Option LimitReservation := none
  tasks : List ProviderTask := []

structure World (R : Type) where
  shared : Shared
  /-- how often this call has read the clock -/
  reads : Nat
  frame : Frame R
  log : List Event

/-- An `await asyncio.gather(...)` on tasks that were cancelled, and that all end for it.  When the caller is cancelled
meanwhile, `finished` tells which of the tasks are done by the time that surfaces. -/
structure Gather where
  others : Shared → Shared
  cancelled : Bool
  finished : Nat → Bool

/-- What the event loop decides; every cancelled task ends. -/
structure Schedule (Req A : Type) where
  /-- the successive readings of `time.monotonic()` -/
  clock : Nat → ℚ
  /-- the waits of the plugin at this place for its lane -/
  laneWaits : Nat → List (Suspension Shared)
  globalWaits : List (Suspension Shared)
  /-- what the others do while the tasks run -/
  waitOthers : Shared → Shared
  /-- the caller is cancelled in `asyncio.wait` -/
  waitCancelled : Bool
  /-- how the task at this place, if it is done, went on the request -/
  task : Nat → Req → Option (PluginRun A)
  /-- the order in which a set of tasks is iterated -/
  order : List Nat → List Nat
  order_perm : ∀ l, (order l).Perm l
  /-- the `gather` after the cancelled wait, the one after the deadline and the one in the `finally` block -/
  abortGather : Gather
  deadlineGather : Gather
  cleanupGather : Gather

/-! ### `_run_operation` -/

section Run

variable {Req A R : Type} [ProviderResult R]

namespace World

def logEvent (e : Event) (w : World R) : World R := { w with log := w.log ++ [e] }

def onFrame (f : Frame R → Frame R) (w : World R) : World R := { w with frame := f w.frame }

def onShared (f : Shared → Shared) (w : World R) : World R := { w with shared := f w.shared }

def take (lane : Lane) (n : Nat) (w : World R) : World R :=
  let l := w.shared.capacity.limiter lane
  { w with shared := { w.shared with capacity := w.shared.capacity.setLimiter lane (l.take n) } }.logEvent
    (.acquired lane n)

def give (lane : Lane) (n : Nat) (w : World R) : World R :=
  let l := w.shared.capacity.limiter lane
  { w with shared := { w.shared with capacity := w.shared.capacity.setLimiter lane (l.give n) } }.logEvent
    (.released lane n)

def site (lane : Lane) : Limiter.Site (World R) where
  get w := w.shared.capacity.limiter lane
  take := take lane
  give := give lane

end World

abbrev Run (R α : Type) : Type := Eff (World R) Raised α

namespace Runner

def ofExcept {α : Type} (x : Except Exn α) : Run R α := Eff.ofExcept (x.mapError Raised.exception)

variable (settings : Settings) (op : Operation Req A R) (env : Schedule Req A) (req : Req)

def monotonic : Run R ℚ := Eff.step fun w => (env.clock w.reads, { w with reads := w.reads + 1 })

def scopeOf (provider : String) : CircuitScope := ⟨provider, op.chainId req, op.name⟩

def allow (scope : CircuitScope) : Run R Bool := do
  let now ← monotonic env
  Eff.step fun w =>
    let (answer, circuit) := w.shared.circuit.allow settings.circuit scope now
    let w := { w with shared := { w.shared with circuit } }
    (answer, if answer then w.logEvent (.admitted scope) else w)

/-- `record_result`; it makes the second reading of the clock only on some of its paths. -/
def recordResult (scope : CircuitScope) (result : R) : Run R Unit := do
  let t₁ ← monotonic env
  let t₂ ← monotonic env
  let w ← Eff.get
  let circuit ← ofExcept (w.shared.circuit.recordResult settings.circuit scope result t₁ t₂)
  Eff.modify fun w => { w with shared := { w.shared with circuit } }.logEvent (.recorded scope)

def releaseProbe (scope : CircuitScope) : Run R Unit :=
  Eff.modify fun w =>
    { w with shared := { w.shared with circuit := w.shared.circuit.releaseProbe scope } }.logEvent (.probeReleased scope)

def tryAcquire (lane : Lane) (units : Int) (waits : List (Suspension Shared)) : Run R (Option LimitReservation) :=
  Limiter.tryAcquire (World.site lane) (monotonic env) units settings.admissionAcquireTimeoutMs
    (waits.map fun s => ⟨World.onShared s.others, s.wakeUp⟩)

def addImmediate (result : R) : Run R Unit :=
  Eff.modify (World.onFrame fun f => { f with immediateResults := f.immediateResults ++ [result] })

/-- One turn of the admission loop. -/
def admitPlugin (plugin : ProviderPlugin) (place : Nat) : Run R Unit :=
  match staticRejectionReason plugin op.name (op.chainId req) with
  | some reason => do
    addImmediate (← ofExcept (op.staticResult plugin req reason))
  | none => do
    if ← allow settings env (scopeOf op req plugin.id) then
      Eff.modify (World.onFrame fun f =>
        { f with circuitScopes := f.circuitScopes.insert (scopeOf op req plugin.id) })
      match ← tryAcquire settings env (.ofProvider plugin.id) 1 (env.laneWaits place) with
      | none => addImmediate (← ofExcept (op.staticResult plugin req .providerCapacity))
      | some reservation =>
        Eff.modify (World.onFrame fun f =>
          { f with providerReservations := f.providerReservations ++ [(.ofProvider plugin.id, reservation)]
                   runnable := f.runnable ++ [plugin] })
    else addImmediate (← ofExcept (op.staticResult plugin req .circuitOpen))

def admitAll (plugins : List ProviderPlugin) : Run R Unit :=
  Eff.forEach (fun p => admitPlugin settings op env req p.1 p.2) plugins.zipIdx

def serviceOverloaded : Exn := .admissionRejected "SERVICE_OVERLOADED" "Provider capacity exhausted" 503 1

def reserveGlobal : Run R Unit := do
  let w ← Eff.get
  let workUnits := w.frame.runnable.length
  if 0 < workUnits then
    match ← tryAcquire settings env .global workUnits env.globalWaits with
    | none => Eff.raise (.exception serviceOverloaded)
    | some reservation => Eff.modify (World.onFrame fun f => { f with globalReservation := some reservation })

/-- The first half of the `try` block: every plugin is turned away or admitted, and the units are reserved. -/
def admission (plugins : List ProviderPlugin) : Run R Unit := do
  admitAll settings op env req plugins
  reserveGlobal settings env

def createTasks : Run R Unit :=
  Eff.modify fun w => { w with
    frame := { w.frame with tasks := w.frame.runnable.map fun plugin => { plugin, done := false } }
    log := w.log ++ w.frame.runnable.map fun plugin => .started plugin.id }

/-- Mark the tasks `p` picks as done. -/
def finish (p : Nat → Bool) (f : Frame R) : Frame R :=
  { f with tasks := f.tasks.mapIdx fun i task => { task with done := task.done || p i } }

/-- Unless the caller is cancelled, too, all tasks have ended when this returns. -/
def gather (g : Gather) : Run R Unit := do
  Eff.modify (World.onShared g.others)
  if g.cancelled then
    Eff.modify (World.onFrame (finish g.finished))
    Eff.raise .cancelled
  else Eff.modify (World.onFrame (finish fun _ => true))

/-- What becomes of a task: its result, or the runner's own result for a task that failed, was cancelled or is not
done. -/
def taskResult (deadlineMs : Int) (plugin : ProviderPlugin) : Option (PluginRun A) → Except Exn R
  | none => op.deadlineResult plugin.id req deadlineMs
  | some run =>
    match op.runSinglePlugin plugin req run with
    | .ok result => .ok result
    | .error .cancelled => op.deadlineResult plugin.id req deadlineMs
    | .error (.exception exc) => op.internalTaskFailureResult plugin.id req exc

/-- The results of the tasks at the given places, in that order. -/
def collect (deadlineMs : Int) (tasks : List ProviderTask) : List Nat → Except Exn (List R)
  | [] => .ok []
  | i :: rest =>
    match tasks[i]? with
    | none => collect deadlineMs tasks rest
    | some task => do
      let result ← taskResult op req deadlineMs task.plugin (env.task i req)
      let results ← collect deadlineMs tasks rest
      pure (result :: results)

def waitForResults (deadlineMs : Int) : Run R (List R) := do
  let w ← Eff.get
  let places := List.range w.frame.tasks.length
  if places = [] then pure []
  else
    Eff.modify (World.onShared env.waitOthers)
    Eff.modify (World.onFrame (finish fun i => (env.task i req).isSome))
    if env.waitCancelled then
      gather env.abortGather
      Eff.raise .cancelled
    else
      let done := places.filter fun i => (env.task i req).isSome
      let pending := places.filter fun i => (env.task i req).isNone
      let results ← ofExcept (collect op env req deadlineMs w.frame.tasks (env.order done ++ env.order pending))
      if pending ≠ [] then gather env.deadlineGather
      pure results

/-- `record_result` for each result; a scope that is recorded leaves the set. -/
def recordResults (results : List R) : Run R Unit :=
  Eff.forEach (fun result => do
    recordResult settings env (scopeOf op req (ProviderResult.provider result)) result
    Eff.modify (World.onFrame fun f =>
      { f with circuitScopes := f.circuitScopes.erase (scopeOf op req (ProviderResult.provider result)) })) results

/-- The second half of the `try` block: the tasks run up to the deadline and their results are recorded. -/
def fanOut (deadlineMs : Int) : Run R (List R) := do
  let _deadlineS ← ofExcept (divide (max deadlineMs 1) 1000)
  createTasks
  let results ← waitForResults op env req deadlineMs
  recordResults settings op env req results
  let w ← Eff.get
  pure (results ++ w.frame.immediateResults)

def body (plugins : List ProviderPlugin) (deadlineMs : Int) : Run R (List R) := do
  admission settings op env req plugins
  fanOut settings op env req deadlineMs

/-- The reservations to release, in the order of `_release_all`. -/
def reservations (f : Frame R) : List (Lane × LimitReservation) :=
  f.providerReservations ++ f.globalReservation.toList.map fun r => (.global, r)

def cleanup : Run R Unit := do
  let w ← Eff.get
  if w.frame.tasks.any fun task => !task.done then
    if env.cleanupGather.cancelled then Eff.modify (World.logEvent .cleanupCancelled)
    gather env.cleanupGather
  Eff.forEach releaseProbe w.frame.circuitScopes
  Eff.forEach (fun r => do let _ ← Limiter.release (World.site r.1) r.2) (reservations w.frame)

/-- A call starts with new local variables. -/
def enter (w : World R) : World R := { w with frame := {}, log := [] }

def runOperation (plugins : List ProviderPlugin) (deadlineMs : Int) : Run R (List R) := do
  Eff.modify enter
  Eff.tryFinally (body settings op env req plugins deadlineMs) (cleanup env)

end Runner

end Run

def runPrices (settings : Settings) (env : Schedule ProviderPriceRequest AcceptedPriceResult)
    (plugins : List ProviderPlugin) (req : ProviderPriceRequest) (deadlineMs : Int) : Run PriceResult (List PriceResult) :=
  Runner.runOperation settings priceOperation env req plugins deadlineMs

def runQuotes (settings : Settings) (env : Schedule ProviderQuoteRequest AcceptedQuoteResult)
    (plugins : List ProviderPlugin) (req : ProviderQuoteRequest) (deadlineMs : Int) : Run QuoteResult (List QuoteResult) :=
  Runner.runOperation settings quoteOperation env req plugins deadlineMs

end TokenPriceAgg

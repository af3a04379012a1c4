import TokenPriceAgg.TokenMetadata.LogoCandidates
import TokenPriceAgg.TokenMetadata.LogoService

/-!
# The maintenance of the logos

`TokenLogoService` as a system: rounds that refresh the lists of the sources and attempt what is due, beside the
callers that enrol identities.  A step is what happens between two points at which a task gives up control, or what a
thread writes, `LogoEvent`; a cancellation does not stop a thread that has begun.

* (provenance) an image in the table is one that an override or an allowed URL delivered for its identity, and that
  passed validation;
* (candidates) what a task asks for is a URL that its source allows for the identity, also after a refresh of the list.
-/

namespace TokenPriceAgg

open PyLib

/-! ### Refreshing a list -/

def maxMetadataBytes : Nat := 8 * 1024 * 1024

def metadataTooLarge : Exn := .valueError "metadata_too_large"

/-- The loop over the chunks of `_fetch_metadata`. -/
def readMetadata (broken : Option HttpxExn) (body : Bytes) : List Bytes → Except Exn Bytes
  | [] =>
    match broken with
    | none => .ok body
    | some _ => .error (.other "HTTPError")
  | chunk :: chunks =>
    if maxMetadataBytes < (body ++ chunk).length then .error metadataTooLarge
    else readMetadata broken (body ++ chunk) chunks

/-- `_fetch_metadata`, with what the server answers. -/
def fetchMetadata (urls : UrlParser) (jsonLoads : Bytes → Except Exn Json) (source : LogoSource)
    (answer : Except HttpxExn LogoResponse) : Except Exn Json :=
  match source.metadataUrl.bind (safeHttpsUrl urls.urlsplit) with
  | none => .error (.valueError "invalid fixed logo metadata endpoint")
  | some _ =>
    match answer with
    | .error _ => .error (.other "HTTPError")
    | .ok response =>
      if response.statusCode ≠ 200 then .error (.valueError ("metadata_http_" ++ toString response.statusCode))
      else if ((response.header "content-length").bind fun value => intOfText value.toList).any
          ((maxMetadataBytes : Int) < ·) then .error metadataTooLarge
      else (readMetadata response.broken [] response.chunks).bind jsonLoads

/-- What the rounds use of `LogoMaintenanceSettings` beyond the delays. -/
structure LogoWorkerSettings extends LogoMaintenanceSettings where
  sourceRefreshMs : Int := 12 * 60 * 60 * 1000
  dueBatchSize : Nat := 32
  concurrency : Nat := 8

/-- What the service is built from. -/
structure LogoWorkerEnv where
  eth : EthUtils
  urls : UrlParser
  revision : List (String × String) → String
  jsonLoads : Bytes → Except Exn Json
  overrides : Dict TokenKey Bytes
  library : ImageLibrary
  sha256 : Sha256
  settings : LogoWorkerSettings

namespace LogoWorkerEnv

variable (env : LogoWorkerEnv)

def manager : TokenLogoSourceManager := logoSourceManager env.eth env.urls

/-- The acquirer; for an identity of the table no source raises. -/
def acquirer : Acquirer where
  allowsImageUrl sourceId chainId address url :=
    (env.manager.sourceForId sourceId).any fun source => source.permits chainId address url
  overrides := env.overrides
  library := env.library
  sha256 := env.sha256

/-- The list is not refreshed again yet. -/
def isFresh (source : LogoSource) (chainId now : Int) (store : LogoStore) : Bool :=
  (store.sync.row? (source.id, chainId)).any fun state => now - state.syncedAt < env.settings.sourceRefreshMs

/-- One turn of the loops of `refresh_sources`; what it raises is caught. -/
def refreshSource (source : LogoSource) (chainId : Int) (force : Bool) (now : Int)
    (answer : Except HttpxExn LogoResponse) (store : LogoStore) : LogoStore :=
  if source.metadataUrl = none ∨ !source.supportsChain chainId then store
  else if !force && env.isFresh source chainId now store then store
  else
    let refreshed := do
      let payload ← fetchMetadata env.urls env.jsonLoads source answer
      let entries ← source.parseMetadata chainId payload
      replaceLogoSourceEntries env.eth env.revision source.id chainId entries now store
    match refreshed with
    | .ok (store, _) => store
    | .error _ => store

end LogoWorkerEnv

/-! ### Rounds -/

/-- A task of a round: its identity, the time of the poll, and what it asks once it has a permit. -/
structure LogoTask where
  item : DueTokenLogo
  polledAt : Int
  candidates : Option (List LogoCandidate) := none
deriving DecidableEq

def DueTokenLogo.key (item : DueTokenLogo) : TokenKey := (item.chainId, item.address)

/-- A round and an identity. -/
abbrev LogoTaskId := Nat × TokenKey

/-- A result that `_persist_result` hands to a thread. -/
structure LogoWrite where
  item : DueTokenLogo
  result : AcquisitionResult
  attemptedAt : Int
  rng : Rng

/-- What the thread makes of the table. -/
def LogoWrite.apply (env : LogoWorkerEnv) (write : LogoWrite) (store : LogoStore) : Except Exn LogoStore :=
  persistResult env.eth env.settings.toLogoMaintenanceSettings write.rng write.item write.result write.attemptedAt store

structure LogoWorker where
  store : LogoStore
  tasks : Dict LogoTaskId LogoTask
  /-- the threads that are to write, also for tasks that are cancelled meanwhile -/
  writes : Dict LogoTaskId LogoWrite
  /-- the number of the current round -/
  round : Nat
  /-- an exception ended the round, and its other tasks go on -/
  broken : Bool
  /-- what the candidates answered, by identity -/
  answers : List (TokenKey × Attempt)

inductive LogoEvent
  /-- the table is filled by the resolver or by the operator's tool -/
  | enroll (op : LogoOp)
  | refresh (sourceId : String) (chainId : Int) (force : Bool) (time : TimeNs)
      (answer : Except HttpxExn LogoResponse)
  /-- a round begins with what is due -/
  | poll (time : TimeNs)
  /-- a task has its permit -/
  | begin (id : LogoTaskId)
  /-- the candidates have answered, and the result goes to a thread -/
  | finish (id : LogoTaskId) (attempts : List Attempt) (rng : Rng) (time : TimeNs)
  /-- the thread has written, and the task is over -/
  | persist (id : LogoTaskId)
  /-- `begun` tells whether the thread of the task has begun to write -/
  | cancel (id : LogoTaskId) (begun : Bool)

def LogoOp.isEnrolment : LogoOp → Bool
  | .enrollObserved .. | .enrollIdentities .. => true
  | .recordSuccess .. | .recordFailure .. | .replaceSourceEntries .. => false

namespace LogoWorker

def new : LogoWorker := ⟨.empty, .empty, .empty, 0, false, []⟩

/-- The tasks of a round. -/
def tasksOf (s : LogoWorker) (round : Nat) : List (LogoTaskId × LogoTask) :=
  s.tasks.items.filter fun task => task.1.1 = round

/-- The tasks of a round that have a permit. -/
def asking (s : LogoWorker) (round : Nat) : Nat :=
  ((s.tasksOf round).filter fun task => task.2.candidates.isSome).length

/-- The task is over. -/
def leave (s : LogoWorker) (id : LogoTaskId) : LogoWorker := { s with tasks := s.tasks.pop id }

/-- An exception leaves the task, and with it the round that waits for it; nobody waits for a cancelled task. -/
def fail (s : LogoWorker) (id : LogoTaskId) : LogoWorker :=
  { s.leave id with broken := s.broken || (s.tasks.get? id).isSome && id.1 = s.round }

variable (env : LogoWorkerEnv)

/-- The identities that a poll finds. -/
def due (s : LogoWorker) (time : TimeNs) : List DueTokenLogo :=
  getDueLogos s.store (nowMs time) env.settings.dueBatchSize

/-- The tasks that a poll creates. -/
def spawned (s : LogoWorker) (time : TimeNs) : List (LogoTaskId × LogoTask) :=
  (s.due env time).map fun item => ((s.round + 1, item.key), ⟨item, nowMs time, none⟩)

def startRound (s : LogoWorker) (time : TimeNs) : LogoWorker :=
  { s with tasks := s.tasks.setMany (s.spawned env time), round := s.round + 1, broken := false }

def step (s : LogoWorker) : LogoEvent → Option LogoWorker
  | .enroll op =>
    if op.isEnrolment then
      (s.store.step env.eth env.revision op).map fun store => { s with store }
    else none
  | .refresh sourceId chainId force time answer =>
    (env.manager.sourceForId sourceId).map fun source =>
      { s with store := env.refreshSource source chainId force (nowMs time) answer s.store }
  | .poll time =>
    if s.broken ∨ s.tasksOf s.round = [] then some (s.startRound env time) else none
  | .begin id =>
    match s.tasks.get? id with
    | some ⟨item, polledAt, none⟩ =>
      if s.asking id.1 < env.settings.concurrency then
        match getCandidates env.eth env.manager item.chainId item.address s.store with
        | .ok candidates => some { s with tasks := s.tasks.set id ⟨item, polledAt, some candidates⟩ }
        | .error _ => some (s.fail id)
      else none
    | _ => none
  | .finish id attempts rng time =>
    match s.tasks.get? id, s.writes.get? id with
    | some ⟨item, _, some candidates⟩, none =>
      if attempts.map (·.candidate) = candidates then
        let s' := { s with answers := s.answers ++ attempts.map fun attempt => (item.key, attempt) }
        match acquire env.eth env.acquirer item.chainId item.address attempts with
        | .ok result => some { s' with writes := s.writes.set id ⟨item, result, nowMs time, rng⟩ }
        | .error _ => some (s'.fail id)
      else none
    | _, _ => none
  | .persist id =>
    (s.writes.get? id).map fun write =>
      let s' := { s with writes := s.writes.pop id }
      match write.apply env s.store with
      | .ok store => { s'.leave id with store }
      | .error _ => s'.fail id
  | .cancel id begun =>
    if (s.tasks.get? id).isSome then
      some { s.leave id with writes := if begun then s.writes else s.writes.pop id }
    else none

end LogoWorker

/-- What one step does. -/
inductive LogoChange (env : LogoWorkerEnv) (s : LogoWorker) : LogoEvent → LogoWorker → Prop
  | enrolled {op : LogoOp} {store : LogoStore} (enrolment : op.isEnrolment = true)
      (call : s.store.step env.eth env.revision op = some store) : LogoChange env s (.enroll op) { s with store }
  | refreshed {sourceId : String} {source : LogoSource} {chainId : Int} {force : Bool} {time : TimeNs}
      {answer : Except HttpxExn LogoResponse} (found : env.manager.sourceForId sourceId = some source) :
      LogoChange env s (.refresh sourceId chainId force time answer)
        { s with store := env.refreshSource source chainId force (nowMs time) answer s.store }
  | polled {time : TimeNs} (ended : s.broken ∨ s.tasksOf s.round = []) :
      LogoChange env s (.poll time) (s.startRound env time)
  | asked {id : LogoTaskId} {item : DueTokenLogo} {polledAt : Int} {candidates : List LogoCandidate}
      (task : s.tasks.get? id = some ⟨item, polledAt, none⟩) (permit : s.asking id.1 < env.settings.concurrency)
      (listed : getCandidates env.eth env.manager item.chainId item.address s.store = .ok candidates) :
      LogoChange env s (.begin id) { s with tasks := s.tasks.set id ⟨item, polledAt, some candidates⟩ }
  | unlisted {id : LogoTaskId} {task : LogoTask} (task : s.tasks.get? id = some task) :
      LogoChange env s (.begin id) (s.fail id)
  | acquired {id : LogoTaskId} {item : DueTokenLogo} {polledAt : Int} {attempts : List Attempt} {rng : Rng}
      {time : TimeNs} {result : AcquisitionResult}
      (task : s.tasks.get? id = some ⟨item, polledAt, some (attempts.map (·.candidate))⟩)
      (done : acquire env.eth env.acquirer item.chainId item.address attempts = .ok result) :
      LogoChange env s (.finish id attempts rng time)
        { s with
          writes := s.writes.set id ⟨item, result, nowMs time, rng⟩
          answers := s.answers ++ attempts.map fun attempt => (item.key, attempt) }
  | unacquired {id : LogoTaskId} {item : DueTokenLogo} {task : LogoTask} {attempts : List Attempt} {rng : Rng}
      {time : TimeNs} (task : s.tasks.get? id = some task) :
      LogoChange env s (.finish id attempts rng time)
        ({ s with answers := s.answers ++ attempts.map fun attempt => (item.key, attempt) }.fail id)
  | recorded {id : LogoTaskId} {write : LogoWrite} {store : LogoStore} (handed : s.writes.get? id = some write)
      (done : write.apply env s.store = .ok store) :
      LogoChange env s (.persist id) ({ s with store, writes := s.writes.pop id }.leave id)
  | unrecorded {id : LogoTaskId} {write : LogoWrite} (handed : s.writes.get? id = some write) :
      LogoChange env s (.persist id) ({ s with writes := s.writes.pop id }.fail id)
  | cancelled {id : LogoTaskId} {begun : Bool} :
      LogoChange env s (.cancel id begun) { s.leave id with writes := if begun then s.writes else s.writes.pop id }

theorem LogoWorker.step_change {env : LogoWorkerEnv} {s s' : LogoWorker} {event : LogoEvent}
    (h : s.step env event = some s') : LogoChange env s event s' := by
  cases event with
  | enroll op =>
    simp only [step] at h
    split at h
    · rename_i hop
      obtain ⟨store, hstore, rfl⟩ := Option.map_eq_some_iff.1 h
      exact .enrolled hop hstore
    · cases h
  | refresh sourceId chainId force time answer =>
    obtain ⟨source, hsource, rfl⟩ := Option.map_eq_some_iff.1 h
    exact .refreshed hsource
  | poll time =>
    simp only [step] at h
    split at h
    · rename_i hover
      cases h
      exact .polled hover
    · cases h
  | begin id =>
    simp only [step] at h
    split at h
    · rename_i item polledAt htask
      split at h
      · rename_i hpermit
        split at h
        · rename_i candidates hcandidates
          cases h
          exact .asked htask hpermit hcandidates
        · cases h
          exact .unlisted htask
      · cases h
    · cases h
  | finish id attempts rng time =>
    simp only [step] at h
    split at h
    · rename_i item polledAt candidates htask _
      split at h
      · rename_i hattempts
        subst hattempts
        split at h
        · rename_i result hdone
          cases h
          exact .acquired htask hdone
        · cases h
          exact .unacquired htask
      · cases h
    · cases h
  | persist id =>
    obtain ⟨write, hwrite, rfl⟩ := Option.map_eq_some_iff.1 h
    dsimp only
    cases hdone : write.apply env s.store with
    | ok store => exact .recorded hwrite hdone
    | error _ => exact .unrecorded hwrite
  | cancel id begun =>
    simp only [step] at h
    split at h
    · cases h
      exact .cancelled
    · cases h

section Enabled

variable {env : LogoWorkerEnv} {s s₁ s₂ : LogoWorker} {id : LogoTaskId} {item : DueTokenLogo} {polledAt : Int}

private theorem LogoWorker.step_begin {candidates : List LogoCandidate}
    (htask : s.tasks.get? id = some ⟨item, polledAt, none⟩) (hpermit : s.asking id.1 < env.settings.concurrency)
    (hlisted : getCandidates env.eth env.manager item.chainId item.address s.store = .ok candidates) :
    s.step env (.begin id) = some { s with tasks := s.tasks.set id ⟨item, polledAt, some candidates⟩ } := by
  simp only [step, htask, if_pos hpermit, hlisted]

private theorem LogoWorker.step_finish {attempts : List Attempt} {result : AcquisitionResult}
    (htask : s.tasks.get? id = some ⟨item, polledAt, some (attempts.map (·.candidate))⟩)
    (hwrite : s.writes.get? id = none)
    (hdone : acquire env.eth env.acquirer item.chainId item.address attempts = .ok result) (rng : Rng) (time : TimeNs) :
    s.step env (.finish id attempts rng time) = some
      { s with
        writes := s.writes.set id ⟨item, result, nowMs time, rng⟩
        answers := s.answers ++ attempts.map fun attempt => (item.key, attempt) } := by
  simp only [step, htask, hwrite, hdone, if_true]

private theorem LogoWorker.step_persist {write : LogoWrite} {store : LogoStore} (hwrite : s.writes.get? id = some write)
    (hdone : write.apply env s.store = .ok store) :
    s.step env (.persist id) = some ({ s with store, writes := s.writes.pop id }.leave id) := by
  simp only [step, hwrite, hdone, Option.map_some]
  rfl

private theorem LogoWorker.step_cancel {task : LogoTask} (htask : s.tasks.get? id = some task) (begun : Bool) :
    s.step env (.cancel id begun) = some
      { s.leave id with writes := if begun then s.writes else s.writes.pop id } := by
  simp only [step, htask, Option.isSome_some, if_true]

/-- The two steps of a task are `_process_due`, when nothing comes between them. -/
theorem LogoWorker.finish_persist {attempts : List Attempt} {rng : Rng} {time : TimeNs}
    (htask : s.tasks.get? id = some ⟨item, polledAt, some (attempts.map (·.candidate))⟩)
    (hfinish : s.step env (.finish id attempts rng time) = some s₁) (hpersist : s₁.step env (.persist id) = some s₂) :
    let processed :=
      processDue env.eth env.settings.toLogoMaintenanceSettings rng env.acquirer item attempts time s.store
    s₂.store = processed.toOption.getD s.store ∧ (s₂.broken = s.broken ∨ ∃ exc, processed = .error exc) := by
  have hwrite : s.writes.get? id = none := by
    cases hw : s.writes.get? id with
    | none => rfl
    | some write =>
      simp only [step, htask, hw] at hfinish
      cases hfinish
  unfold processDue
  cases hdone : acquire env.eth env.acquirer item.chainId item.address attempts with
  | error exc =>
    simp only [step, htask, hwrite, hdone, if_true, Option.some.injEq] at hfinish
    subst hfinish
    have hnone : s.writes.get? id = none := hwrite
    simp only [step, fail, leave, hnone, Option.map_none] at hpersist
    cases hpersist
  | ok result =>
    rw [step_finish htask hwrite hdone] at hfinish
    obtain rfl := Option.some.inj hfinish
    have hset := s.writes.get?_set_self id ⟨item, result, nowMs time, rng⟩
    obtain ⟨write, hget, rfl⟩ := Option.map_eq_some_iff.1 hpersist
    obtain rfl : ⟨item, result, nowMs time, rng⟩ = write := Option.some.inj (hset.symm.trans hget)
    have happly : LogoWrite.apply env ⟨item, result, nowMs time, rng⟩ s.store =
      persistResult env.eth env.settings.toLogoMaintenanceSettings rng item result (nowMs time) s.store := rfl
    show _ = (persistResult env.eth env.settings.toLogoMaintenanceSettings rng item result (nowMs time)
      s.store).toOption.getD s.store ∧ (_ ∨ ∃ exc, persistResult env.eth env.settings.toLogoMaintenanceSettings rng item
        result (nowMs time) s.store = .error exc)
    rw [← happly]
    dsimp only
    cases hstore : LogoWrite.apply env ⟨item, result, nowMs time, rng⟩ s.store with
    | ok store => exact ⟨rfl, .inl rfl⟩
    | error exc => exact ⟨rfl, .inr ⟨exc, rfl⟩⟩

end Enabled

/-! ### What an acquisition delivers -/

section Delivery

variable {acquirer : Acquirer} {chainId : Int} {address : String}

/-- The answer to a permitted candidate is a valid image. -/
def Delivers (acquirer : Acquirer) (chainId : Int) (address : String) (attempt : Attempt) (asset : ValidatedLogo) :
    Prop :=
  Permitted acquirer chainId address attempt ∧ ∃ response body, attempt.answer = .ok response ∧ response.Read ∧
    response.body = .ok (some body) ∧
      validateLogoBytes acquirer.library acquirer.sha256 body (responseMime response) = .ok asset

/-- The override of an identity is a valid image. -/
def OverrideDelivers (acquirer : Acquirer) (key : TokenKey) (asset : ValidatedLogo) : Prop :=
  ∃ imageBytes, acquirer.overrides.get? key = some imageBytes ∧ validateOverride acquirer imageBytes = .ok asset

private theorem handleHttpx_outcome {candidate : LogoCandidate} {exc : HttpxExn} {result : CandidateResult}
    (h : handleHttpx candidate exc = .ok result) : result.outcome = .transient := by
  cases exc <;> cases h <;> rfl

private theorem acquireBody_delivers {candidate : LogoCandidate} {response : LogoResponse} {body : Bytes}
    {result : CandidateResult} (h : acquireBody acquirer candidate response body = .ok result)
    (hsuccess : result.outcome = .success) :
    ∃ asset, validateLogoBytes acquirer.library acquirer.sha256 body (responseMime response) = .ok asset ∧
      result.asset = some asset ∧ result.source = candidate.source := by
  unfold acquireBody at h
  split at h
  · rename_i asset hvalid
    cases h
    exact ⟨asset, hvalid, rfl, rfl⟩
  · cases h
    cases hsuccess
  · cases h

private theorem acquireResponse_delivers {dates : HttpDates} {candidate : LogoCandidate} {response : LogoResponse}
    {result : CandidateResult} (h : acquireResponse acquirer dates candidate response = .ok result)
    (hsuccess : result.outcome = .success) :
    ∃ body asset, response.Read ∧ response.body = .ok (some body) ∧
      validateLogoBytes acquirer.library acquirer.sha256 body (responseMime response) = .ok asset ∧
      result.asset = some asset ∧ result.source = candidate.source := by
  unfold acquireResponse at h
  dsimp only at h
  by_cases hstatus : response.statusCode = 200
  · rw [if_neg (not_not.2 hstatus)] at h
    by_cases hlarge : (contentLength response).any ((maxImageBytes : Int) < ·) = true
    · rw [if_pos hlarge] at h
      cases h
      cases hsuccess
    · rw [if_neg hlarge] at h
      split at h
      · rw [handleHttpx_outcome h] at hsuccess
        cases hsuccess
      · cases h
        cases hsuccess
      · rename_i body hbody
        obtain ⟨asset, hvalid, hasset, hsource⟩ := acquireBody_delivers h hsuccess
        exact ⟨body, asset, ⟨hstatus, hlarge⟩, hbody, hvalid, hasset, hsource⟩
  · rw [if_pos hstatus] at h
    obtain ⟨retryAfter, -, rfl⟩ := Eff.except_map_eq_ok.1 h
    dsimp only at hsuccess
    split at hsuccess <;> cases hsuccess

private theorem acquireCandidate_delivers {attempt : Attempt} {result : CandidateResult}
    (h : acquireCandidate acquirer chainId address attempt = .ok result) (hsuccess : result.outcome = .success) :
    ∃ asset, Delivers acquirer chainId address attempt asset ∧ result.asset = some asset ∧
      result.source = attempt.candidate.source := by
  unfold acquireCandidate at h
  dsimp only at h
  by_cases hsource : attempt.candidate.source ∈ logoSourceIds
  · rw [if_neg (not_not.2 hsource)] at h
    by_cases hallowed : acquirer.allowsImageUrl attempt.candidate.source chainId address attempt.candidate.url = true
    · rw [if_neg (by simp [hallowed])] at h
      split at h
      · rw [handleHttpx_outcome h] at hsuccess
        cases hsuccess
      · rename_i response hanswer
        obtain ⟨body, asset, hread, hbody, hvalid, hasset, hresult⟩ := acquireResponse_delivers h hsuccess
        exact ⟨asset, ⟨⟨hsource, hallowed⟩, response, body, hanswer, hread, hbody, hvalid⟩, hasset, hresult⟩
    · rw [if_pos (by simpa using hallowed)] at h
      cases h
      cases hsuccess
  · rw [if_pos hsource] at h
    cases h
    cases hsuccess

/-- Every result is that of a candidate. -/
private theorem acquireCandidates_mem {attempts : List Attempt} {results : List CandidateResult}
    (h : acquireCandidates acquirer chainId address attempts = .ok results) :
    ∀ result ∈ results, ∃ attempt ∈ attempts, acquireCandidate acquirer chainId address attempt = .ok result := by
  induction attempts generalizing results with
  | nil =>
    cases h
    intro result hresult
    cases hresult
  | cons attempt attempts ih =>
    obtain ⟨first, hfirst, hrest⟩ := Eff.except_bind_eq_ok.1 h
    clear h
    have hhead : ∃ a ∈ attempt :: attempts, acquireCandidate acquirer chainId address a = .ok first :=
      ⟨attempt, List.mem_cons_self, hfirst⟩
    split at hrest
    · cases hrest
      intro result hresult
      rw [List.mem_singleton.1 hresult]
      exact hhead
    · obtain ⟨others, hothers, hpure⟩ := Eff.except_bind_eq_ok.1 hrest
      cases hpure
      intro result hresult
      rcases List.mem_cons.1 hresult with rfl | hresult
      · exact hhead
      · obtain ⟨a, ha, heq⟩ := ih hothers result hresult
        exact ⟨a, List.mem_cons_of_mem attempt ha, heq⟩

private theorem summarize_success_mem {results : List CandidateResult} (h : (summarize results).outcome = .success) :
    ∃ result ∈ results, result.outcome = .success ∧ (summarize results).asset = result.asset ∧
      (summarize results).source = some result.source := by
  unfold summarize at h ⊢
  cases hfind : results.find? (·.outcome = .success) with
  | some result =>
    have hsuccess : result.outcome = .success := by simpa using List.find?_some hfind
    exact ⟨result, List.mem_of_find?_eq_some hfind, hsuccess, rfl, rfl⟩
  | none =>
    rw [hfind] at h
    dsimp only at h
    split at h <;> cases h

/-- What an acquisition returns was delivered by the override of the identity or by a candidate. -/
private theorem acquire_delivers {eth : EthUtils} (haddress : Normalized eth address) {attempts : List Attempt}
    {result : AcquisitionResult} (h : acquire eth acquirer chainId address attempts = .ok result)
    (hsuccess : result.outcome = .success) :
    ∃ asset source, result.asset = some asset ∧ result.source = some source ∧
      (source = "override" ∧ OverrideDelivers acquirer (chainId, address) asset ∨
        ∃ attempt ∈ attempts, attempt.candidate.source = source ∧ Delivers acquirer chainId address attempt asset) := by
  have hcandidates {results : List CandidateResult} {candidate : CandidateResult}
      (hresults : acquireCandidates acquirer chainId address attempts = .ok results) (hmem : candidate ∈ results)
      (hcandidate : candidate.outcome = .success) :
      ∃ asset, candidate.asset = some asset ∧ ∃ attempt ∈ attempts, attempt.candidate.source = candidate.source ∧
        Delivers acquirer chainId address attempt asset := by
    obtain ⟨attempt, hattempt, hasked⟩ := acquireCandidates_mem hresults candidate hmem
    obtain ⟨asset, hdelivers, hasset, hsource⟩ := acquireCandidate_delivers hasked hcandidate
    exact ⟨asset, hasset, attempt, hattempt, hsource.symm, hdelivers⟩
  obtain ⟨override, hoverride, hrest⟩ := Eff.except_bind_eq_ok.1 h
  clear h
  obtain ⟨normalized, hnormalized, rfl⟩ := Eff.except_map_eq_ok.1 hoverride
  obtain rfl : address = normalized := Except.ok.inj (haddress.symm.trans hnormalized)
  cases hbytes : acquirer.overrides.get? (chainId, address) with
  | none =>
    rw [hbytes] at hrest
    obtain ⟨results, hresults, rfl⟩ := Eff.except_map_eq_ok.1 hrest
    obtain ⟨candidate, hmem, hcandidate, hasset, hsource⟩ := summarize_success_mem hsuccess
    obtain ⟨asset, hfound, hattempt⟩ := hcandidates hresults hmem hcandidate
    exact ⟨asset, candidate.source, hasset.trans hfound, hsource, .inr hattempt⟩
  | some imageBytes =>
    rw [hbytes] at hrest
    obtain ⟨first, hfirst, hrest⟩ := Eff.except_bind_eq_ok.1 hrest
    have hseed (hok : first.outcome = .success) :
        ∃ asset, first.asset = some asset ∧ first.source = "override" ∧
          OverrideDelivers acquirer (chainId, address) asset := by
      unfold acquireOverride at hfirst
      split at hfirst
      · rename_i asset hvalid
        cases hfirst
        exact ⟨asset, rfl, rfl, imageBytes, hbytes, hvalid⟩
      · cases hfirst
        cases hok
      · cases hfirst
    split at hrest
    · obtain rfl : summarize [first] = result := Except.ok.inj hrest
      obtain ⟨candidate, hmem, hcandidate, hasset, hsource⟩ := summarize_success_mem hsuccess
      obtain rfl : candidate = first := List.mem_singleton.1 hmem
      obtain ⟨asset, hfound, hname, hdelivers⟩ := hseed hcandidate
      exact ⟨asset, candidate.source, hasset.trans hfound, hsource, .inl ⟨hname, hdelivers⟩⟩
    · rename_i hfailed
      obtain ⟨results, hresults, rfl⟩ := Eff.except_map_eq_ok.1 hrest
      obtain ⟨candidate, hmem, hcandidate, hasset, hsource⟩ := summarize_success_mem hsuccess
      rcases List.mem_cons.1 hmem with rfl | hmem
      · exact absurd hcandidate hfailed
      · obtain ⟨asset, hfound, hattempt⟩ := hcandidates hresults hmem hcandidate
        exact ⟨asset, candidate.source, hasset.trans hfound, hsource, .inr hattempt⟩

end Delivery

/-! ### The row after an attempt -/

/-- The image of a row and what is said of it. -/
def TokenLogo.image (row : TokenLogo) : Option Bytes × Option String × Option String × Option String :=
  (row.imageBytes, row.contentHash, row.mimeType, row.source)

/-- The columns of a row that may be missing. -/
def imageOf (row : Option TokenLogo) : Option Bytes × Option String × Option String × Option String :=
  (row.getD {}).image

/-- The rows of the store differ at most at this key, and its lists not at all. -/
structure OnlyRow (key : TokenKey) (store store' : LogoStore) : Prop where
  row : ∀ k, k ≠ key → store'.row? k = store.row? k
  entries : store'.entries = store.entries
  sync : store'.sync = store.sync

section Row

variable {eth : EthUtils} {store store' : LogoStore} {item : DueTokenLogo}

private theorem recordLogoFailure_spec
    {chainId : Int} {address outcome : String} {attemptedAt nextAttemptAt failureCount : Int}
    {httpStatus : Option Int} {errorCode : String} (haddress : Normalized eth address)
    (h : recordLogoFailure eth chainId address outcome attemptedAt nextAttemptAt failureCount httpStatus errorCode
      store = .ok store') :
    OnlyRow (chainId, address) store store' ∧ ∃ row, store'.row? (chainId, address) = some row ∧
      row.lastAttemptAt = some attemptedAt ∧ row.nextAttemptAt = some nextAttemptAt ∧
        row.image = imageOf (store.row? (chainId, address)) := by
  unfold recordLogoFailure at h
  split at h
  · cases h
  obtain ⟨normalized, hnormalized, h₁⟩ := Eff.except_bind_eq_ok.1 h
  obtain ⟨chainId', hchain, h₂⟩ := Eff.except_bind_eq_ok.1 h₁
  obtain ⟨attemptedAt', hattempted, h₃⟩ := Eff.except_bind_eq_ok.1 h₂
  obtain ⟨nextAttemptAt', hnext, h₄⟩ := Eff.except_bind_eq_ok.1 h₃
  obtain ⟨failureCount', -, h₅⟩ := Eff.except_bind_eq_ok.1 h₄
  obtain ⟨httpStatus', -, h₆⟩ := Eff.except_bind_eq_ok.1 h₅
  obtain ⟨logos, hlogos, h₇⟩ := Eff.except_bind_eq_ok.1 h₆
  obtain rfl : normalized = address := Except.ok.inj (hnormalized.symm.trans haddress)
  obtain rfl : chainId' = chainId := (bindInt_eq_ok (sql_eq_ok hchain)).1
  obtain rfl : attemptedAt' = attemptedAt := (bindInt_eq_ok (sql_eq_ok hattempted)).1
  obtain rfl : nextAttemptAt' = nextAttemptAt := (bindInt_eq_ok (sql_eq_ok hnext)).1
  cases h₇
  have hrow := Table.row?_upsert (sql_eq_ok hlogos)
  refine ⟨⟨fun k hk => (hrow k).trans (if_neg hk), rfl, rfl⟩, ?_⟩
  have hself := hrow (chainId', normalized)
  rw [if_pos rfl] at hself
  refine ⟨_, hself, ?_⟩
  unfold imageOf LogoStore.row?
  cases store.logos.row? (chainId', normalized) with
  | none => exact ⟨rfl, rfl, rfl⟩
  | some row => exact ⟨rfl, rfl, rfl⟩

/-- After a success the row has its content, or the content with the same hash that was there. -/
private theorem recordLogoSuccess_spec {chainId : Int} {address : String} {imageBytes : Bytes}
    {contentHash mimeType source : String} {attemptedAt : Int} {httpStatus : Option Int}
    (haddress : Normalized eth address)
    (h : recordLogoSuccess eth chainId address imageBytes contentHash mimeType source attemptedAt httpStatus store =
      .ok store') :
    OnlyRow (chainId, address) store store' ∧ ∃ row, store'.row? (chainId, address) = some row ∧
      row.lastAttemptAt = some attemptedAt ∧ row.nextAttemptAt = none ∧ row.lastOutcome = some "success" ∧
        ∃ bytes, row.image = (bytes, some contentHash, some mimeType, some source) ∧
          (bytes = some imageBytes ∨ (imageOf (store.row? (chainId, address))).1 = bytes ∧
            (imageOf (store.row? (chainId, address))).2.1 = some contentHash) := by
  obtain ⟨normalized, hnormalized, h₁⟩ := Eff.except_bind_eq_ok.1 h
  obtain ⟨chainId', hchain, h₂⟩ := Eff.except_bind_eq_ok.1 h₁
  obtain ⟨attemptedAt', hattempted, h₃⟩ := Eff.except_bind_eq_ok.1 h₂
  obtain ⟨httpStatus', -, h₄⟩ := Eff.except_bind_eq_ok.1 h₃
  obtain rfl : normalized = address := Except.ok.inj (hnormalized.symm.trans haddress)
  obtain rfl : chainId' = chainId := (bindInt_eq_ok (sql_eq_ok hchain)).1
  obtain rfl : attemptedAt' = attemptedAt := (bindInt_eq_ok (sql_eq_ok hattempted)).1
  dsimp only at h₄
  split at h₄
  · rename_i hsame
    obtain ⟨logos, hlogos, h₅⟩ := Eff.except_bind_eq_ok.1 h₄
    cases h₅
    have hrow := Table.row?_update (sql_eq_ok hlogos)
    refine ⟨⟨fun k hk => (hrow k).trans (if_neg hk), rfl, rfl⟩, ?_⟩
    have hself := hrow (chainId', normalized)
    rw [if_pos rfl] at hself
    unfold imageOf LogoStore.row?
    cases hbefore : store.logos.row? (chainId', normalized) with
    | none =>
      rw [hbefore] at hsame
      cases hsame
    | some before =>
      rw [hbefore] at hself hsame
      have hhash : before.contentHash = some contentHash := hsame
      refine ⟨_, hself, rfl, rfl, rfl, before.imageBytes, ?_, .inr ⟨rfl, hhash⟩⟩
      show (before.imageBytes, before.contentHash, some mimeType, some source) = _
      rw [hhash]
  · obtain ⟨logos, hlogos, h₅⟩ := Eff.except_bind_eq_ok.1 h₄
    cases h₅
    have hrow := Table.row?_upsert (sql_eq_ok hlogos)
    refine ⟨⟨fun k hk => (hrow k).trans (if_neg hk), rfl, rfl⟩, ?_⟩
    have hself := hrow (chainId', normalized)
    rw [if_pos rfl] at hself
    refine ⟨_, hself, ?_⟩
    cases store.logos.row? (chainId', normalized) with
    | none => exact ⟨rfl, rfl, rfl, some imageBytes, rfl, .inl rfl⟩
    | some before => exact ⟨rfl, rfl, rfl, some imageBytes, rfl, .inl rfl⟩

/-- The image was delivered for the identity. -/
def DeliveredFor (acquirer : Acquirer) (key : TokenKey) (attempts : List Attempt) (source : String)
    (asset : ValidatedLogo) : Prop :=
  source = "override" ∧ OverrideDelivers acquirer key asset ∨
    ∃ attempt ∈ attempts, attempt.candidate.source = source ∧ Delivers acquirer key.1 key.2 attempt asset

/-- A recorded attempt changes the row of its identity only: it leaves the image, or stores what was delivered. -/
theorem persistResult_spec {settings : LogoMaintenanceSettings} {rng : Rng} {acquirer : Acquirer}
    {attempts : List Attempt} {attemptedAt : Int} {result : AcquisitionResult} (hitem : item.Valid eth)
    (hacquire : acquire eth acquirer item.chainId item.address attempts = .ok result)
    (hpersist : persistResult eth settings rng item result attemptedAt store = .ok store') :
    OnlyRow item.key store store' ∧ ∃ row, store'.row? item.key = some row ∧ row.Attempted attemptedAt ∧
      (row.image = imageOf (store.row? item.key) ∨
        ∃ asset source bytes, row.image = (bytes, some asset.contentHash, some asset.mimeType, some source) ∧
          (bytes = some asset.imageBytes ∨ (imageOf (store.row? item.key)).1 = bytes ∧
            (imageOf (store.row? item.key)).2.1 = some asset.contentHash) ∧
          DeliveredFor acquirer item.key attempts source asset) := by
  have hfailed {outcome : String} {delay failureCount : Int} (hdelay : 0 ≤ delay)
      (hrecord : recordLogoFailure eth item.chainId item.address outcome attemptedAt (attemptedAt + delay) failureCount
        result.httpStatus (prefix64 result.errorCode) store = .ok store') :
      OnlyRow item.key store store' ∧ ∃ row, store'.row? item.key = some row ∧ row.Attempted attemptedAt ∧
        row.image = imageOf (store.row? item.key) := by
    obtain ⟨honly, row, hrow, hattempt, hnext, himage⟩ := recordLogoFailure_spec hitem.address hrecord
    exact ⟨honly, row, hrow, ⟨hattempt, .inr ⟨_, hnext, by omega⟩⟩, himage⟩
  unfold persistResult at hpersist
  cases houtcome : result.outcome with
  | success =>
    obtain ⟨asset, source, hasset, hsource, hdelivered⟩ := acquire_delivers hitem.address hacquire houtcome
    simp only [houtcome, hasset, hsource] at hpersist
    obtain ⟨honly, row, hrow, hattempt, hnext, hsuccess, bytes, himage, hbytes⟩ :=
      recordLogoSuccess_spec hitem.address hpersist
    exact ⟨honly, row, hrow, ⟨hattempt, .inl ⟨hsuccess, hnext⟩⟩,
      .inr ⟨asset, source, bytes, himage, hbytes, hdelivered⟩⟩
  | transient =>
    simp only [houtcome] at hpersist
    have hdelay := transientRetryDelayMs_mem settings rng (item.failureCount + 1) result.retryAfterMs
    obtain ⟨honly, row, hrow, hattempted, himage⟩ := hfailed hdelay.1 hpersist
    exact ⟨honly, row, hrow, hattempted, .inl himage⟩
  | unavailable =>
    simp only [houtcome] at hpersist
    have hdelay := unavailableRetryDelayMs_mem settings rng
    obtain ⟨honly, row, hrow, hattempted, himage⟩ := hfailed hdelay.1 hpersist
    exact ⟨honly, row, hrow, hattempted, .inl himage⟩

end Row

/-! ### Enrolments and lists -/

section Enrolments

variable {eth : EthUtils} {revision : List (String × String) → String} {store store' : LogoStore}

/-- An enrolment leaves the lists as they are, and a row or makes it due. -/
theorem step_enrolment {op : LogoOp} (hop : op.isEnrolment = true) (h : store.step eth revision op = some store') :
    store'.entries = store.entries ∧ store'.sync = store.sync ∧
      ∀ key, Enrolled (store.row? key) (store'.row? key) := by
  unfold LogoStore.step at h
  cases happly : store.apply eth revision op with
  | error exc =>
    rw [happly] at h
    cases h
    exact ⟨rfl, rfl, fun key => .inl rfl⟩
  | ok store₁ =>
    rw [happly] at h
    cases h
    cases op with
    | enrollObserved chainId addresses =>
      obtain ⟨normalized, -, hrest⟩ := Eff.except_bind_eq_ok.1 happly
      obtain ⟨logos, hlogos, hpure⟩ := Eff.except_bind_eq_ok.1 hrest
      cases hpure
      exact ⟨rfl, rfl, fun key => enrollMany_enrolled (fun _ => .inl rfl) hlogos key⟩
    | enrollIdentities identities forceExisting now =>
      obtain ⟨⟨s, started⟩, hresult, rfl⟩ := Eff.except_map_eq_ok.1 happly
      obtain ⟨normalized, -, hrest⟩ := Eff.except_bind_eq_ok.1 hresult
      dsimp only at hrest
      split at hrest
      · cases hrest
      · obtain ⟨logos, hlogos, hpure⟩ := Eff.except_bind_eq_ok.1 hrest
        cases hpure
        exact ⟨rfl, rfl, fun key => enrollMany_enrolled (enrollConflict_cases forceExisting) hlogos key⟩
    | recordSuccess => cases hop
    | recordFailure => cases hop
    | replaceSourceEntries => cases hop

/-- So does a new revision of a list, which replaces the entries of its source. -/
private theorem replaceLogoSourceEntries_rows {source : String} {chainId : Int} {entries : List TokenLogoSourceEntry}
    {syncedAt : Int} {changed : Bool}
    (h : replaceLogoSourceEntries eth revision source chainId entries syncedAt store = .ok (store', changed)) :
    (∀ key, Enrolled (store.row? key) (store'.row? key)) ∧
      ∀ key url t, store'.entries.get? key = some (url, t) →
        (∃ t', store.entries.get? key = some (url, t')) ∨
          key.1 = source ∧ key.2.1 = chainId ∧ ∃ entry ∈ entries, entry.source = source ∧ entry.chainId = chainId ∧
            entry.logoUrl = url := by
  obtain ⟨rows, hrows, -, -, hreplaced⟩ := replaceLogoSourceEntries_eq_ok h
  constructor
  · intro key
    show Enrolled (store.logos.row? key) (store'.logos.row? key)
    rw [hreplaced.logos]
    cases changed with
    | false => exact .inl rfl
    | true =>
      rw [if_pos rfl]
      unfold dueWithoutImage Table.row?
      rw [Dict.get?_mapValues]
      cases store.logos.get? key with
      | none => exact .inl rfl
      | some row =>
        by_cases hdue : key.1 = chainId ∧ row.val.imageBytes.isNone
        · simp only [Option.map_some, if_pos hdue]
          exact .inr (.inr ⟨row.val, rfl, rfl⟩)
        · simp only [Option.map_some, if_neg hdue]
          exact .inl rfl
  · intro key url t hentry
    by_cases hkey : (key.1, key.2.1) = (source, chainId)
    · obtain ⟨hsource, hchain⟩ := Prod.mk.inj hkey
      have hmem : (key.2.2, url) ∈ store'.pairs source chainId := by
        refine ⟨t, ?_⟩
        rw [← hsource, ← hchain]
        exact hentry
      rw [hreplaced.pairs] at hmem
      by_cases hchanged : changed = true
      · rw [if_pos hchanged] at hmem
        obtain ⟨entry, hentries, hentry, hchainId, -, hurl⟩ := (mem_revisionRows hrows).1 hmem
        exact .inr ⟨hsource, hchain, entry, hentries, hentry, hchainId, hurl⟩
      · rw [if_neg hchanged] at hmem
        obtain ⟨t', hbefore⟩ := hmem
        rw [← hsource, ← hchain] at hbefore
        exact .inl ⟨t', hbefore⟩
    · exact .inl ⟨t, (hreplaced.others key hkey).symm.trans hentry⟩

/-- The URLs of a parsed list are those that its source allows. -/
private theorem parseMetadata_allowed {urlsplit : UrlSplit} {chainId : Int} {payload : Json}
    {entries : List TokenLogoSourceEntry}
    (h : CoinGeckoSource.parseMetadata eth urlsplit chainId payload = .ok entries) :
    ∀ entry ∈ entries, CoinGeckoSource.allowsImageUrl urlsplit chainId entry.logoUrl = true := by
  unfold CoinGeckoSource.parseMetadata at h
  dsimp only at h
  split at h
  · split at h
    · obtain ⟨parsed, hparsed, rfl⟩ := Eff.except_map_eq_ok.1 h
      have hstart : CoinGeckoSource.Parsed.Sound eth urlsplit chainId ⟨[], []⟩ := ⟨by simp, by simp, by simp⟩
      intro entry hentry
      exact ((CoinGeckoSource.parseTokens_sound hstart hparsed).entries entry hentry).2
    · cases h
  · cases h

/-- Only the list of CoinGecko is refreshed. -/
private theorem eq_coinGecko_of_list {env : LogoWorkerEnv} {sourceId : String} {source : LogoSource}
    (h : env.manager.sourceForId sourceId = some source) (hlist : source.metadataUrl ≠ none) :
    source = coinGeckoSource env.eth env.urls := by
  have hmem : source ∈ logoSources env.eth env.urls := List.mem_of_find?_eq_some h
  simp only [logoSources, List.mem_cons, List.not_mem_nil, or_false] at hmem
  obtain rfl | rfl | rfl | rfl := hmem
  · exact absurd rfl hlist
  · exact absurd rfl hlist
  · rfl
  · exact absurd rfl hlist

/-- A turn of the refresh does nothing, or replaces the entries by those of a list. -/
private theorem refreshSource_cases {env : LogoWorkerEnv} {sourceId : String} {source : LogoSource}
    (h : env.manager.sourceForId sourceId = some source) (chainId : Int) (force : Bool) (now : Int)
    (answer : Except HttpxExn LogoResponse) (store : LogoStore) :
    env.refreshSource source chainId force now answer store = store ∨
      ∃ entries changed, (∀ entry ∈ entries,
          CoinGeckoSource.allowsImageUrl env.urls.urlsplit chainId entry.logoUrl = true) ∧
        replaceLogoSourceEntries env.eth env.revision CoinGeckoSource.id chainId entries now store =
          .ok (env.refreshSource source chainId force now answer store, changed) := by
  unfold LogoWorkerEnv.refreshSource
  by_cases hskip : source.metadataUrl = none ∨ !source.supportsChain chainId
  · rw [if_pos hskip]
    exact .inl rfl
  · rw [if_neg hskip]
    by_cases hfresh : (!force && env.isFresh source chainId now store) = true
    · rw [if_pos hfresh]
      exact .inl rfl
    · rw [if_neg hfresh]
      dsimp only
      split
      · rename_i store' changed hrefreshed
        obtain ⟨payload, -, hrest⟩ := Eff.except_bind_eq_ok.1 hrefreshed
        obtain ⟨entries, hentries, hreplace⟩ := Eff.except_bind_eq_ok.1 hrest
        obtain rfl := eq_coinGecko_of_list h (not_or.1 hskip).1
        exact .inr ⟨entries, changed, parseMetadata_allowed hentries, hreplace⟩
      · exact .inl rfl

/-- It leaves the rows or makes them due. -/
theorem refreshSource_rows {env : LogoWorkerEnv} {sourceId : String} {source : LogoSource}
    (h : env.manager.sourceForId sourceId = some source) (chainId : Int) (force : Bool) (now : Int)
    (answer : Except HttpxExn LogoResponse) (store : LogoStore) (key : TokenKey) :
    Enrolled (store.row? key) ((env.refreshSource source chainId force now answer store).row? key) := by
  obtain hsame | ⟨entries, changed, -, hreplace⟩ := refreshSource_cases h chainId force now answer store
  · rw [hsame]
    exact .inl rfl
  · exact (replaceLogoSourceEntries_rows hreplace).1 key

/-- It keeps the entries allowed. -/
private theorem refreshSource_listed {env : LogoWorkerEnv} {sourceId : String} {source : LogoSource}
    (h : env.manager.sourceForId sourceId = some source) (chainId : Int) (force : Bool) (now : Int)
    (answer : Except HttpxExn LogoResponse) (hlisted : store.Listed env.urls) :
    (env.refreshSource source chainId force now answer store).Listed env.urls := by
  obtain hsame | ⟨entries, changed, hallowed, hreplace⟩ := refreshSource_cases h chainId force now answer store
  · rw [hsame]
    exact hlisted
  · intro id chainId' address url t hentry
    obtain ⟨t', hbefore⟩ | ⟨hsource, hchain, entry, hmem, -, -, hurl⟩ :=
      (replaceLogoSourceEntries_rows hreplace).2 (id, chainId', address) url t hentry
    · exact hlisted id chainId' address url t' hbefore
    · have hchain : chainId' = chainId := hchain
      subst hchain hurl
      exact ⟨hsource, hallowed entry hmem⟩

end Enrolments

/-! ### Provenance -/

/-- Callers pass addresses that came out of `normalize_address`. -/
def LogoEvent.Canonical (eth : EthUtils) : LogoEvent → Prop
  | .enroll op => op.Canonical eth
  | _ => True

/-- What the candidates of an identity answered. -/
def LogoWorker.answersOf (s : LogoWorker) (key : TokenKey) : List Attempt :=
  (s.answers.filter fun answer => answer.1 = key).map Prod.snd

/-- Where an image and what is said of it come from. -/
structure ImageFrom (acquirer : Acquirer) (key : TokenKey) (attempts : List Attempt) (bytes : Bytes)
    (hash mimeType source : String) : Prop where
  named : ∃ asset, DeliveredFor acquirer key attempts source asset ∧ asset.contentHash = hash ∧
    asset.mimeType = mimeType
  bytes : ∃ asset source', DeliveredFor acquirer key attempts source' asset ∧ asset.contentHash = hash ∧
    asset.imageBytes = bytes

/-- There is no image, or the image was delivered for the identity. -/
def ImageProven (acquirer : Acquirer) (key : TokenKey) (attempts : List Attempt)
    (image : Option Bytes × Option String × Option String × Option String) : Prop :=
  image = (none, none, none, none) ∨ ∃ bytes hash mimeType source,
    image = (some bytes, some hash, some mimeType, some source) ∧
      ImageFrom acquirer key attempts bytes hash mimeType source

/-- What every step keeps. -/
structure LogoWorker.Sound (env : LogoWorkerEnv) (s : LogoWorker) : Prop where
  normal : s.store.logos.Normal env.eth
  listed : s.store.Listed env.urls
  items : ∀ id task, s.tasks.get? id = some task → task.item.Valid env.eth ∧ task.item.key = id.2
  /-- what the threads write was acquired for its identity -/
  writes : ∀ id write, s.writes.get? id = some write → write.item.Valid env.eth ∧ write.item.key = id.2 ∧
    ∃ attempts, attempts ⊆ s.answersOf id.2 ∧
      acquire env.eth env.acquirer write.item.chainId write.item.address attempts = .ok write.result
  images : ∀ key, ImageProven env.acquirer key (s.answersOf key) (imageOf (s.store.row? key))

section Provenance

variable {env : LogoWorkerEnv} {s s' : LogoWorker} {key : TokenKey} {attempts attempts' : List Attempt}

private theorem DeliveredFor.mono {acquirer : Acquirer} {source : String} {asset : ValidatedLogo}
    (h : DeliveredFor acquirer key attempts source asset) (hsub : attempts ⊆ attempts') :
    DeliveredFor acquirer key attempts' source asset := by
  obtain h | ⟨attempt, hmem, h⟩ := h
  · exact .inl h
  · exact .inr ⟨attempt, hsub hmem, h⟩

private theorem ImageProven.mono {acquirer : Acquirer}
    {image : Option Bytes × Option String × Option String × Option String}
    (h : ImageProven acquirer key attempts image) (hsub : attempts ⊆ attempts') :
    ImageProven acquirer key attempts' image := by
  obtain h | ⟨bytes, hash, mimeType, source, himage, ⟨asset, hnamed, hhash⟩, asset', source', hbytes, hhash'⟩ := h
  · exact .inl h
  · exact .inr ⟨bytes, hash, mimeType, source, himage, ⟨asset, hnamed.mono hsub, hhash⟩, asset', source',
      hbytes.mono hsub, hhash'⟩

private theorem Enrolled.imageOf {row row' : Option TokenLogo} (h : Enrolled row row') :
    imageOf row' = imageOf row := by
  obtain rfl | ⟨rfl, rfl⟩ | ⟨r, rfl, rfl⟩ := h <;> rfl

/-- An enrolment or a refresh. -/
private theorem LogoWorker.Sound.withStore {store : LogoStore} (h : s.Sound env) (hnormal : store.logos.Normal env.eth)
    (hlisted : store.Listed env.urls) (hrows : ∀ key, Enrolled (s.store.row? key) (store.row? key)) :
    ({ s with store } : LogoWorker).Sound env where
  normal := hnormal
  listed := hlisted
  items := h.items
  writes := h.writes
  images key := by
    show ImageProven _ _ (s.answersOf key) (imageOf (store.row? key))
    rw [(hrows key).imageOf]
    exact h.images key

/-- With fewer tasks and fewer writes. -/
private theorem LogoWorker.Sound.of_imp
    {tasks : Dict LogoTaskId LogoTask} {writes : Dict LogoTaskId LogoWrite} {broken : Bool}
    (h : s.Sound env) (htasks : ∀ id task, tasks.get? id = some task → s.tasks.get? id = some task)
    (hwrites : ∀ id write, writes.get? id = some write → s.writes.get? id = some write) :
    ({ s with tasks, writes, broken } : LogoWorker).Sound env where
  normal := h.normal
  listed := h.listed
  items id task htask := h.items id task (htasks id task htask)
  writes id write hwrite := h.writes id write (hwrites id write hwrite)
  images := h.images

theorem LogoWorker.Sound.leave (h : s.Sound env) (id : LogoTaskId) : (s.leave id).Sound env :=
  h.of_imp (fun _ _ htask => Dict.get?_pop_imp htask) fun _ _ hwrite => hwrite

theorem LogoWorker.Sound.fail (h : s.Sound env) (id : LogoTaskId) : (s.fail id).Sound env :=
  h.of_imp (fun _ _ htask => Dict.get?_pop_imp htask) fun _ _ hwrite => hwrite

private theorem LogoWorker.Sound.popWrite (h : s.Sound env) (id : LogoTaskId) :
    ({ s with writes := s.writes.pop id } : LogoWorker).Sound env :=
  h.of_imp (fun _ _ htask => htask) fun _ _ hwrite => Dict.get?_pop_imp hwrite

private theorem LogoWorker.answersOf_subset (s : LogoWorker) (answers : List (TokenKey × Attempt)) (key : TokenKey) :
    s.answersOf key ⊆ ({ s with answers := s.answers ++ answers } : LogoWorker).answersOf key := by
  unfold answersOf
  rw [List.filter_append, List.map_append]
  exact List.subset_append_left _ _

/-- More answers. -/
theorem LogoWorker.Sound.answer (h : s.Sound env) (answers : List (TokenKey × Attempt)) :
    ({ s with answers := s.answers ++ answers } : LogoWorker).Sound env where
  normal := h.normal
  listed := h.listed
  items := h.items
  writes id write hwrite := by
    obtain ⟨hitem, hkey, attempts, hsub, hacquire⟩ := h.writes id write hwrite
    exact ⟨hitem, hkey, attempts, List.Subset.trans hsub (s.answersOf_subset answers id.2), hacquire⟩
  images key := (h.images key).mono (s.answersOf_subset answers key)

/-- An acquisition that goes to a thread. -/
theorem LogoWorker.Sound.acquired {id : LogoTaskId} {item : DueTokenLogo} {polledAt attemptedAt : Int}
    {candidates : Option (List LogoCandidate)} {result : AcquisitionResult} {rng : Rng} (h : s.Sound env)
    (htask : s.tasks.get? id = some ⟨item, polledAt, candidates⟩)
    (hdone : acquire env.eth env.acquirer item.chainId item.address attempts = .ok result) :
    ({ s with
        writes := s.writes.set id ⟨item, result, attemptedAt, rng⟩
        answers := s.answers ++ attempts.map fun attempt => (item.key, attempt) } : LogoWorker).Sound env := by
  obtain ⟨hitem, hkey⟩ := h.items id _ htask
  have hanswered := h.answer (attempts.map fun attempt => (item.key, attempt))
  refine ⟨hanswered.normal, hanswered.listed, hanswered.items, fun k write hwrite => ?_, hanswered.images⟩
  have hwrite : (s.writes.set id ⟨item, result, attemptedAt, rng⟩).get? k = some write := hwrite
  rw [Dict.get?_set] at hwrite
  by_cases hid : k = id
  · rw [if_pos hid] at hwrite
    cases hwrite
    rw [hid]
    refine ⟨hitem, hkey, attempts, fun attempt hattempt => ?_, hdone⟩
    refine List.mem_map.2 ⟨(item.key, attempt), List.mem_filter.2 ⟨?_, decide_eq_true hkey⟩, rfl⟩
    exact List.mem_append_right _ (List.mem_map_of_mem hattempt)
  · rw [if_neg hid] at hwrite
    exact hanswered.writes k write hwrite

/-- A recorded attempt. -/
private theorem LogoWorker.Sound.record {id : LogoTaskId} {write : LogoWrite} {store : LogoStore} (h : s.Sound env)
    (hwrite : s.writes.get? id = some write) (hdone : write.apply env s.store = .ok store) :
    ({ s with store } : LogoWorker).Sound env := by
  obtain ⟨hitem, hkey, attempts, hsub, hacquire⟩ := h.writes id write hwrite
  rw [← hkey] at hsub
  unfold LogoWrite.apply at hdone
  generalize write.item = item at *
  obtain ⟨honly, row, hrow, -, himage⟩ := persistResult_spec hitem hacquire hdone
  refine ⟨fun k r hr => ?_, fun id chainId address url t hentry => ?_, h.items, h.writes, fun k => ?_⟩
  · by_cases hk : k = item.key
    · rw [hk]
      exact ⟨hitem.address, hitem.chainId⟩
    · exact h.normal k r ((honly.row k hk).symm.trans hr)
  · rw [honly.entries] at hentry
    exact h.listed id chainId address url t hentry
  · show ImageProven _ _ (s.answersOf k) (imageOf (store.row? k))
    by_cases hk : k = item.key
    · subst hk
      have hbefore := h.images item.key
      rw [hrow]
      show ImageProven _ _ _ row.image
      obtain hsame | ⟨asset, source, bytes, hnew, hbytes, hdelivered⟩ := himage
      · rw [hsame]
        exact hbefore
      · rw [hnew]
        have hnamed := hdelivered.mono hsub
        obtain rfl | ⟨hold, hhash⟩ := hbytes
        · exact .inr ⟨_, _, _, source, rfl, ⟨asset, hnamed, rfl, rfl⟩, asset, source, hnamed, rfl, rfl⟩
        · -- the stored content has the hash of what was delivered
          obtain hnone | ⟨bytes', hash, mimeType, source', hold', hfrom⟩ := hbefore
          · rw [hnone] at hhash
            cases hhash
          · rw [hold'] at hold hhash
            subst hold
            cases hhash
            exact .inr ⟨_, _, _, source, rfl, ⟨asset, hnamed, rfl, rfl⟩, hfrom.bytes⟩
    · rw [honly.row k hk]
      exact h.images k

theorem mem_spawned {time : TimeNs} {id : LogoTaskId} {task : LogoTask} (h : (id, task) ∈ s.spawned env time) :
    task.item ∈ s.due env time ∧ task = ⟨task.item, nowMs time, none⟩ ∧ id = (s.round + 1, task.item.key) := by
  obtain ⟨item, hitem, heq⟩ := List.mem_map.1 h
  cases heq
  exact ⟨hitem, rfl, rfl⟩

theorem LogoWorker.Sound.step (hlaw : env.eth.Lawful) {event : LogoEvent} (hcanonical : event.Canonical env.eth)
    (h : s.Sound env) (hstep : s.step env event = some s') : s'.Sound env := by
  cases LogoWorker.step_change hstep with
  | enrolled hop hstore =>
    obtain ⟨hentries, -, hrows⟩ := step_enrolment hop hstore
    refine h.withStore (LogoStore.step_normal hlaw hcanonical h.normal hstore) ?_ hrows
    intro id chainId address url t hentry
    rw [hentries] at hentry
    exact h.listed id chainId address url t hentry
  | @refreshed _ source chainId force time answer hsource =>
    refine h.withStore ?_ (refreshSource_listed hsource chainId force (nowMs time) answer h.listed)
      (refreshSource_rows hsource chainId force (nowMs time) answer s.store)
    obtain hsame | ⟨entries, changed, -, hreplace⟩ :=
      refreshSource_cases hsource chainId force (nowMs time) answer s.store
    · rw [hsame]
      exact h.normal
    · exact replaceLogoSourceEntries_normal h.normal hreplace
  | @polled time _ =>
    refine ⟨h.normal, h.listed, fun id task htask => ?_, h.writes, h.images⟩
    obtain ⟨-, hold⟩ | ⟨new, hnew, hget⟩ := s.tasks.get?_setMany_cases (s.spawned env time) id
    · exact h.items id task (hold.symm.trans htask)
    · obtain rfl : new = task := Option.some.inj (hget.symm.trans htask)
      obtain ⟨hdue, -, hid⟩ := mem_spawned hnew
      exact ⟨getDueLogos_valid h.normal hdue, by rw [hid]⟩
  | @asked id item polledAt candidates htask _ _ =>
    refine ⟨h.normal, h.listed, fun k task hk => ?_, h.writes, h.images⟩
    have hk : (s.tasks.set id ⟨item, polledAt, some candidates⟩).get? k = some task := hk
    have hold := h.items id _ htask
    rw [Dict.get?_set] at hk
    by_cases hid : k = id
    · rw [if_pos hid] at hk
      cases hk
      rw [hid]
      exact hold
    · rw [if_neg hid] at hk
      exact h.items k task hk
  | @unlisted id _ _ => exact h.fail id
  | acquired htask hdone => exact h.acquired htask hdone
  | @unacquired id item _ attempts _ _ _ => exact (h.answer (attempts.map fun attempt => (item.key, attempt))).fail id
  | @recorded id _ _ hwrite hdone => exact ((h.record hwrite hdone).popWrite id).leave id
  | @unrecorded id _ _ => exact (h.popWrite id).fail id
  | @cancelled id begun =>
    refine h.of_imp (fun _ _ htask => Dict.get?_pop_imp htask) fun k write hwrite => ?_
    cases begun with
    | true => exact hwrite
    | false => exact Dict.get?_pop_imp hwrite

theorem LogoWorker.new_sound (env : LogoWorkerEnv) : LogoWorker.new.Sound env where
  normal key row hrow := by cases hrow
  listed id chainId address url t hentry := by cases hentry
  items id task htask := by cases htask
  writes id write hwrite := by cases hwrite
  images key := .inl rfl

/-- In every state that a run reaches. -/
private theorem LogoWorker.sound_of_run (hlaw : env.eth.Lawful) {events : List LogoEvent}
    (hcanonical : ∀ event ∈ events, event.Canonical env.eth) (hrun : run (LogoWorker.step env) .new events = some s) :
    s.Sound env :=
  run_invariant_along (fun _ _ _ hs hevent hstep => hs.step hlaw hevent hstep) (LogoWorker.new_sound env)
    (along_of_mem (fun event hevent _ => hcanonical event hevent) LogoWorker.new) hrun

end Provenance

/-- A delivered image has the hash of its bytes. -/
private theorem DeliveredFor.contentHash
    {acquirer : Acquirer} {key : TokenKey} {attempts : List Attempt} {source : String}
    {asset : ValidatedLogo} (h : DeliveredFor acquirer key attempts source asset) :
    asset.contentHash = (acquirer.sha256 asset.imageBytes).val := by
  have hvalid {body : Bytes} {mimeType : String}
      (h : validateLogoBytes acquirer.library acquirer.sha256 body mimeType = .ok asset) :
      asset.contentHash = (acquirer.sha256 asset.imageBytes).val := by
    obtain ⟨_, -, h₁⟩ := Eff.except_bind_eq_ok.1 h
    obtain ⟨_, -, h₂⟩ := Eff.except_bind_eq_ok.1 h₁
    split at h₂
    · cases h₂
    · obtain ⟨signature, -, h₃⟩ := Eff.except_bind_eq_ok.1 h₂
      obtain ⟨_, -, h₄⟩ := Eff.except_bind_eq_ok.1 h₃
      obtain ⟨_, -, h₅⟩ := Eff.except_bind_eq_ok.1 h₄
      cases h₅
      rfl
  obtain ⟨-, imageBytes, -, hoverride⟩ | ⟨attempt, -, -, -, response, body, -, -, -, hbody⟩ := h
  · obtain ⟨mimeType, -, hasset⟩ := Eff.except_bind_eq_ok.1 hoverride
    exact hvalid hasset
  · exact hvalid hbody

/-! ### What is asked for -/

section Review

variable {env : LogoWorkerEnv} {s s' : LogoWorker}

/-- What the manager lists passes both checks of the acquirer, whatever the table holds. -/
private theorem acquirer_permits
    {chainId : Int} {address : String} {store : LogoStore} {candidates : List LogoCandidate}
    (haddress : Normalized env.eth address)
    (h : getCandidates env.eth env.manager chainId address store = .ok candidates) :
    ∀ attempt : Attempt, attempt.candidate ∈ candidates → Permitted env.acquirer chainId address attempt := by
  intro attempt hattempt
  rw [getCandidates_spec haddress h] at hattempt
  have hoffered := (firstWins_sublist _ _ _).subset hattempt
  obtain ⟨source, hsource, hoffer⟩ := List.mem_flatMap.1 hoffered
  unfold LogoSource.offers at hoffer
  by_cases hsupports : source.supportsChain chainId = true
  · rw [if_pos hsupports] at hoffer
    obtain ⟨url, hurl, hcandidate⟩ := List.mem_map.1 hoffer
    have hpermits := (List.mem_filter.1 hurl).2
    have hid : source.id ∈ logoSourceIds := by
      rw [← logoSources_ids env.eth env.urls]
      exact List.mem_map_of_mem hsource
    -- no other source has its name
    have hfound : env.manager.sourceForId source.id = some source := by
      cases hfind : env.manager.sourceForId source.id with
      | none => exact absurd (decide_eq_true rfl) (List.find?_eq_none.1 hfind source hsource)
      | some found =>
        have hname : found.id = source.id := by simpa using List.find?_some hfind
        have hmem : found ∈ env.manager.sources := List.mem_of_find?_eq_some hfind
        rw [List.inj_on_of_nodup_map env.manager.unique hmem hsource hname]
    unfold Permitted
    rw [← hcandidate]
    refine ⟨hid, ?_⟩
    show (env.manager.sourceForId source.id).any _ = true
    rw [hfound]
    exact hpermits
  · rw [if_neg hsupports] at hoffer
    cases hoffer

/-- What the tasks ask for is permitted. -/
def LogoWorker.AsksPermitted (env : LogoWorkerEnv) (s : LogoWorker) : Prop :=
  ∀ id task candidates, s.tasks.get? id = some task → task.candidates = some candidates →
    ∀ attempt : Attempt, attempt.candidate ∈ candidates →
      Permitted env.acquirer task.item.chainId task.item.address attempt

theorem LogoWorker.AsksPermitted.leave (h : s.AsksPermitted env) (id : LogoTaskId) : (s.leave id).AsksPermitted env :=
  fun k task candidates htask => h k task candidates (Dict.get?_pop_imp htask)

theorem LogoWorker.AsksPermitted.fail (h : s.AsksPermitted env) (id : LogoTaskId) : (s.fail id).AsksPermitted env :=
  h.leave id

theorem LogoWorker.AsksPermitted.step (hsound : s.Sound env) (h : s.AsksPermitted env) {event : LogoEvent}
    (hstep : s.step env event = some s') : s'.AsksPermitted env := by
  cases LogoWorker.step_change hstep with
  | enrolled => exact h
  | refreshed => exact h
  | @polled time _ =>
    intro id task candidates htask hcandidates
    obtain ⟨-, hold⟩ | ⟨new, hnew, hget⟩ := s.tasks.get?_setMany_cases (s.spawned env time) id
    · exact h id task candidates (hold.symm.trans htask) hcandidates
    · obtain rfl : new = task := Option.some.inj (hget.symm.trans htask)
      obtain ⟨-, htask', -⟩ := mem_spawned hnew
      rw [htask'] at hcandidates
      cases hcandidates
  | @asked id item polledAt listed htask _ hlisted =>
    have hitem := (hsound.items id _ htask).1
    intro k task candidates hk hcandidates
    have hk : (s.tasks.set id ⟨item, polledAt, some listed⟩).get? k = some task := hk
    rw [Dict.get?_set] at hk
    by_cases hid : k = id
    · rw [if_pos hid] at hk
      cases hk
      obtain rfl : listed = candidates := Option.some.inj hcandidates
      exact acquirer_permits hitem.address hlisted
    · rw [if_neg hid] at hk
      exact h k task candidates hk hcandidates
  | @unlisted id _ _ => exact h.fail id
  | acquired => exact h
  | @unacquired id => exact h.fail id
  | @recorded id => exact h.leave id
  | @unrecorded id => exact h.fail id
  | @cancelled id _ => exact h.leave id

end Review

/-! ### A round over the native token -/

namespace LogoExample

/-- The parser on URLs with a plain host and a plain path; it raises on others. -/
def plainSplit (url : String) : Option SplitResult :=
  let rest := url.toList.drop 8
  let host := rest.takeWhile (· ≠ '/')
  let path := rest.dropWhile (· ≠ '/')
  if url.toList.take 8 = "https://".toList ∧ host ≠ [] ∧ (∀ c ∈ host, isHostChar c) ∧
      ∀ c ∈ path, isPlainPathChar c then
    some { scheme := "https", hostname := some (String.ofList host), username := none, password := none
           port := some none, path := String.ofList path, fragment := "" }
  else none

def urls : UrlParser := ⟨plainSplit, fun _ => ""⟩

private theorem urls_documented : urls.Documented := by
  intro host path hne hhost hpath
  refine ⟨?_, rfl⟩
  have hslash : ∀ c ∈ host, decide (c ≠ '/') = true := by
    intro c hc
    have hchar := hhost c hc
    apply decide_eq_true
    rintro rfl
    cases hchar
  have hdrop : ("https://".toList ++ host ++ ['/'] ++ path).drop 8 = host ++ '/' :: path := by
    rw [List.append_assoc, List.append_assoc]
    rfl
  have htake : ("https://".toList ++ host ++ ['/'] ++ path).take 8 = "https://".toList := by
    rw [List.append_assoc, List.append_assoc]
    rfl
  show plainSplit _ = _
  unfold plainSplit
  simp only [String.toList_ofList, hdrop, htake]
  rw [List.takeWhile_append_of_pos hslash, List.dropWhile_append_of_pos hslash,
    List.takeWhile_cons_of_neg (by simp), List.dropWhile_cons_of_neg (by simp), List.append_nil]
  rw [if_pos]
  refine ⟨trivial, hne, hhost, fun c hc => ?_⟩
  obtain rfl | hc := List.mem_cons.1 hc
  · rfl
  · exact hpath c hc

private theorem delays_nonneg :
    (0 : Int) ≤ 5 * 60 * 1000 ∧ (0 : Int) ≤ 6 * 60 * 60 * 1000 ∧ (0 : Int) ≤ 24 * 60 * 60 * 1000 := by
  decide

private theorem delays_jitter :
    0 ≤ truncate (toFloat (((48 * 60 * 60 * 1000 : Int) : ℚ) * toFloat (1 / 10))) ∧
      truncate (toFloat (((48 * 60 * 60 * 1000 : Int) : ℚ) * toFloat (1 / 10))) ≤ 48 * 60 * 60 * 1000 := by
  decide +kernel

private theorem delays_bounded :
    (6 * 60 * 60 * 1000 : Int) ≤ 2 ^ 40 ∧ (24 * 60 * 60 * 1000 : Int) ≤ 2 ^ 40 ∧
      (48 * 60 * 60 * 1000 : Int) ≤ 2 ^ 40 := by
  decide

/-- An image of one pixel. -/
def pixel : Bytes :=
  [0x89, 0x50, 0x4e, 0x47, 0x0d, 0x0a, 0x1a, 0x0a, 0, 0, 0, 13, 73, 72, 68, 82, 0, 0, 0, 1, 0, 0, 0, 1, 8, 0, 0, 0, 0,
    58, 126, 155, 85, 0, 0, 0, 10, 73, 68, 65, 84, 120, 218, 99, 248, 15, 0, 1, 1, 1, 0, 28, 176, 140, 153, 0, 0, 0, 0,
    73, 69, 78, 68, 174, 66, 96, 130]

def pixelLogo : ValidatedLogo where
  imageBytes := pixel
  contentHash := "064b66188821584121784c30ca28eadbc5f265e025c6dd9eeed64cf1ef8e1f46"
  mimeType := "image/png"

/-- An image library that reads this image only. -/
def onPixel {α : Type} (x : α) (data : Bytes) : Except ImageExn α :=
  if data = pixel then .ok x else .error .unidentifiedImageError

/-- The service without overrides, which takes two identities at once. -/
def worker : LogoWorkerEnv where
  eth := Example.eth
  urls := urls
  revision := revision
  jsonLoads _ := .error (.valueError "Expecting value")
  overrides := .empty
  library := ⟨onPixel ⟨some "PNG", 1, 1, 1⟩, onPixel (), onPixel 1, onPixel ()⟩
  sha256 data := if data = pixel then ⟨pixelLogo.contentHash, by decide +kernel⟩ else acquirer.sha256 data
  settings :=
    { dueBatchSize := 2, concurrency := 2, nonneg := delays_nonneg, jitter := delays_jitter
      bounded := delays_bounded }

/-- The image in two chunks. -/
def pixelResponse : LogoResponse where
  statusCode := 200
  header name := if name = "content-type" then some "image/png" else none
  chunks := [pixel.take 40, pixel.drop 40]
  final := by decide

def delivered (candidate : LogoCandidate) : Attempt where
  candidate := candidate
  answer := .ok pixelResponse
  dates := ⟨fun _ => none, ⟨0, some 0, inCalendar_zero, utc_offset_lt⟩⟩

/-- The candidates of the native token of a chain. -/
def answered (chainId : Int) : List Attempt := (reviewedCandidates chainId nativeTokenAlias none).map delivered

def acquired : AcquisitionResult where
  outcome := .success
  asset := some pixelLogo
  source := some "yearn_tokenassets"
  httpStatus := some 200
  errorCode := "success"

/-- With empty lists the native token has the reviewed candidates. -/
private theorem listed_native
    {store : LogoStore} (hentries : store.entries.items = []) {chainId : Int} (hchain : 0 < chainId)
    (hfits : chainId < 2 ^ 63) :
    getCandidates worker.eth worker.manager chainId nativeTokenAlias store =
      .ok ((answered chainId).map (·.candidate)) := by
  have hnone (key : String × Int × String) : store.entries.get? key = none := by
    unfold Dict.get?
    rw [hentries]
    rfl
  have hlisted : store.Listed worker.urls := by
    intro id chainId address url t hentry
    rw [hnone] at hentry
    cases hentry
  have hlist := getCandidates_eq Example.documented urls_documented (normalized_native Example.eth) ⟨hchain, hfits⟩
    hlisted
  have hstored : store.storedUrl CoinGeckoSource.id chainId nativeTokenAlias = none := by
    unfold LogoStore.storedUrl
    rw [hnone]
    rfl
  rw [hstored] at hlist
  unfold answered
  rw [List.map_map]
  show _ = Except.ok ((reviewedCandidates chainId nativeTokenAlias none).map id)
  rw [List.map_id]
  exact hlist

private theorem acquire_delivered {chainId : Int} {address : String} {candidate : LogoCandidate}
    (hpermitted : Permitted worker.acquirer chainId address (delivered candidate)) :
    acquireCandidate worker.acquirer chainId address (delivered candidate) =
      .ok { outcome := .success, asset := some pixelLogo, source := candidate.source, httpStatus := some 200
            errorCode := "success" } := by
  have hlength : contentLength pixelResponse = none := by decide +kernel
  have hbody : pixelResponse.body = .ok (some pixel) := by decide +kernel
  have hmime : responseMime pixelResponse = "image/png" := by decide +kernel
  have hvalid : validateLogoBytes worker.acquirer.library worker.acquirer.sha256 pixel "image/png" = .ok pixelLogo := by
    decide +kernel
  obtain ⟨hsource, hallowed⟩ := hpermitted
  have hallows : ¬ (!worker.acquirer.allowsImageUrl (delivered candidate).candidate.source chainId address
      (delivered candidate).candidate.url) = true := by
    rw [hallowed]
    decide
  unfold acquireCandidate
  dsimp only
  rw [if_neg (not_not.2 hsource), if_neg hallows]
  show acquireResponse worker.acquirer _ candidate pixelResponse = _
  unfold acquireResponse acquireBody
  rw [hlength, hbody]
  dsimp only
  rw [hmime, hvalid]
  rfl

/-- The first candidate delivers the image. -/
private theorem acquire_native {chainId : Int} (hchain : 0 < chainId) (hfits : chainId < 2 ^ 63) :
    acquire worker.eth worker.acquirer chainId nativeTokenAlias (answered chainId) = .ok acquired := by
  have hoverride : getLogoOverride worker.eth worker.acquirer chainId nativeTokenAlias = .ok none := by
    unfold getLogoOverride
    rw [show normalizeAddress worker.eth nativeTokenAlias = .ok nativeTokenAlias from normalized_native Example.eth]
    rfl
  have hpermits := @acquirer_permits worker chainId nativeTokenAlias .empty _ (normalized_native Example.eth)
    (listed_native rfl hchain hfits)
  have hfirst := acquire_delivered (hpermits _ (List.mem_map_of_mem List.mem_cons_self))
  have hcandidates (rest : List LogoCandidate) :
      acquireCandidates worker.acquirer chainId nativeTokenAlias
        ((⟨"yearn_tokenassets", tokenAssetsImage yearnBase chainId nativeTokenAlias⟩ :: rest).map delivered) =
      .ok [{ outcome := .success, asset := some pixelLogo, source := "yearn_tokenassets", httpStatus := some 200
             errorCode := "success" }] := by
    rw [List.map_cons, acquireCandidates]
    exact Eff.except_bind_eq_ok.2 ⟨_, hfirst, rfl⟩
  unfold acquire
  rw [hoverride]
  show (acquireCandidates worker.acquirer chainId nativeTokenAlias _).map summarize = _
  unfold answered reviewedCandidates
  rw [hcandidates]
  rfl

/-- The task of the native token of a chain. -/
def nativeTask (round : Nat) (chainId : Int) : LogoTaskId := (round, (chainId, nativeTokenAlias))

/-- The task has a permit. -/
def asks (s : LogoWorker) (round : Nat) (chainId : Int) : LogoWorker :=
  { s with
    tasks := s.tasks.set (nativeTask round chainId)
      ⟨⟨chainId, nativeTokenAlias, 0⟩, nowMs time, some ((answered chainId).map (·.candidate))⟩ }

/-- What a thread writes for it. -/
def nativeWrite (chainId : Int) : LogoWrite := ⟨⟨chainId, nativeTokenAlias, 0⟩, acquired, nowMs time, rng⟩

/-- A thread has the image. -/
def writes (s : LogoWorker) (round : Nat) (chainId : Int) : LogoWorker :=
  { s with
    writes := s.writes.set (nativeTask round chainId) (nativeWrite chainId)
    answers := s.answers ++ (answered chainId).map fun attempt => ((chainId, nativeTokenAlias), attempt) }

/-- The image is in the table. -/
def written (s : LogoWorker) (round : Nat) (chainId : Int) (store : LogoStore) : LogoWorker :=
  { s with store, writes := s.writes.pop (nativeTask round chainId) }.leave (nativeTask round chainId)

def recordNative (chainId : Int) (store : LogoStore) : Except Exn LogoStore :=
  recordLogoSuccess worker.eth chainId nativeTokenAlias pixel pixelLogo.contentHash pixelLogo.mimeType
    "yearn_tokenassets" (nowMs time) (some 200) store

section Native

variable {s : LogoWorker} {round : Nat} {chainId : Int} {store : LogoStore}

theorem begin_native (hchain : 0 < chainId) (hfits : chainId < 2 ^ 63) (hentries : s.store.entries.items = [])
    (htask : s.tasks.get? (nativeTask round chainId) = some ⟨⟨chainId, nativeTokenAlias, 0⟩, nowMs time, none⟩)
    (hpermit : s.asking round < worker.settings.concurrency) :
    s.step worker (.begin (nativeTask round chainId)) = some (asks s round chainId) :=
  LogoWorker.step_begin htask hpermit (listed_native hentries hchain hfits)

theorem finish_native (hchain : 0 < chainId) (hfits : chainId < 2 ^ 63)
    (htask : s.tasks.get? (nativeTask round chainId) =
      some ⟨⟨chainId, nativeTokenAlias, 0⟩, nowMs time, some ((answered chainId).map (·.candidate))⟩)
    (hwrite : s.writes.get? (nativeTask round chainId) = none) :
    s.step worker (.finish (nativeTask round chainId) (answered chainId) rng time) = some (writes s round chainId) :=
  LogoWorker.step_finish htask hwrite (acquire_native hchain hfits) rng time

theorem persist_native (hwrite : s.writes.get? (nativeTask round chainId) = some (nativeWrite chainId))
    (hstore : recordNative chainId s.store = .ok store) :
    s.step worker (.persist (nativeTask round chainId)) = some (written s round chainId store) :=
  LogoWorker.step_persist hwrite hstore

end Native

/-- The native token is enrolled, a poll finds it, and its task is cancelled while a thread writes the image. -/
def round : List LogoEvent :=
  [.enroll (.enrollObserved 1 [nativeTokenAlias]), .poll time, .begin (nativeTask 1 1),
    .finish (nativeTask 1 1) (answered 1) rng time, .cancel (nativeTask 1 1) true, .persist (nativeTask 1 1)]

private theorem round_canonical : ∀ event ∈ round, event.Canonical Example.eth := by
  intro event hevent
  simp only [round, List.mem_cons, List.not_mem_nil, or_false] at hevent
  obtain rfl | rfl | rfl | rfl | rfl | rfl := hevent
  · intro address haddress
    obtain rfl : address = nativeTokenAlias := List.mem_singleton.1 haddress
    exact ⟨nativeTokenAlias, normalized_native Example.eth⟩
  all_goals trivial

private theorem polled_run : (run (LogoWorker.step worker) .new (round.take 2)).isSome := by decide +kernel

/-- The service after the poll. -/
def polled : LogoWorker := (run (LogoWorker.step worker) .new (round.take 2)).get polled_run

/-- The thread writes its image, although the task is cancelled. -/
private theorem round_run :
    ∃ s row, run (LogoWorker.step worker) .new round = some s ∧ s.store.row? (1, nativeTokenAlias) = some row ∧
      row.imageBytes = some pixel ∧ row.source = some "yearn_tokenassets" := by
  have htask : polled.tasks.get? (nativeTask 1 1) = some ⟨⟨1, nativeTokenAlias, 0⟩, nowMs time, none⟩ := by
    decide +kernel
  have hpermit : polled.asking 1 < worker.settings.concurrency := by decide +kernel
  have hentries : polled.store.entries.items = [] := by decide +kernel
  have hwrites : (polled.writes.get? (nativeTask 1 1)).isNone := by decide +kernel
  have hrow : ((recordNative 1 polled.store).toOption.bind fun store =>
      (store.row? (1, nativeTokenAlias)).map fun row => (row.imageBytes, row.source)) =
        some (some pixel, some "yearn_tokenassets") := by decide +kernel
  obtain ⟨store, hstore, hrow⟩ := Option.bind_eq_some_iff.1 hrow
  obtain ⟨row, hrow, hwritten⟩ := Option.map_eq_some_iff.1 hrow
  obtain ⟨himage, hsource⟩ := Prod.mk.inj hwritten
  have hstore : recordNative 1 polled.store = .ok store := by
    cases hrecord : recordNative 1 polled.store with
    | ok store' =>
      rw [hrecord] at hstore
      exact congrArg Except.ok (Option.some.inj hstore)
    | error exc =>
      rw [hrecord] at hstore
      cases hstore
  have hbegin := begin_native (by decide) (by decide) hentries htask hpermit
  have hasked := Dict.get?_set_self polled.tasks (nativeTask 1 1)
    ⟨⟨1, nativeTokenAlias, 0⟩, nowMs time, some ((answered 1).map (·.candidate))⟩
  have hfinish := finish_native (s := asks polled 1 1) (by decide) (by decide) hasked
    (Option.isNone_iff_eq_none.1 hwrites)
  let cancelled : LogoWorker := (writes (asks polled 1 1) 1 1).leave (nativeTask 1 1)
  have hcancel : (writes (asks polled 1 1) 1 1).step worker (.cancel (nativeTask 1 1) true) = some cancelled :=
    LogoWorker.step_cancel hasked true
  have hpersist := persist_native (s := cancelled) (Dict.get?_set_self polled.writes (nativeTask 1 1) (nativeWrite 1))
    hstore
  refine ⟨written cancelled 1 1 store, row, ?_, hrow, himage, hsource⟩
  have hrun : run (LogoWorker.step worker) .new (round.take 2) = some polled := (Option.some_get polled_run).symm
  refine run_append.2 ⟨polled, hrun, ?_⟩
  exact run_cons.2 ⟨_, hbegin, run_cons.2 ⟨_, hfinish, run_cons.2 ⟨_, hcancel, run_cons.2 ⟨_, hpersist, rfl⟩⟩⟩⟩

end LogoExample

/-- In every interleaving of enrolments, refreshes and rounds: an image in the table was delivered for its identity, by
the override of the identity or by a candidate whose URL its source allows for the identity, and it was validated; the
hash is that of the image; and the type and the source are those of a delivery with this hash.  This holds as well of
what a thread writes for a task that was cancelled. -/
theorem logo_provenance (env : LogoWorkerEnv) (hlaw : env.eth.Lawful) (events : List LogoEvent)
    (hcanonical : ∀ event ∈ events, event.Canonical env.eth) :
    Always (LogoWorker.step env)
      (fun s => ∀ key row image, s.store.row? key = some row → row.imageBytes = some image →
        ∃ mimeType source, row.mimeType = some mimeType ∧ row.source = some source ∧
          row.contentHash = some (env.sha256 image).val ∧
          ImageFrom env.acquirer key (s.answersOf key) image (env.sha256 image).val mimeType source)
      .new events := by
  intro pre hpre s hrun key row image hrow himage
  have hsound := LogoWorker.sound_of_run hlaw (fun event h => hcanonical event (hpre.subset h)) hrun
  obtain hnone | ⟨bytes, hash, mimeType, source, hall, hfrom⟩ := hsound.images key
  · rw [hrow] at hnone
    have hbytes : row.imageBytes = none := congrArg Prod.fst hnone
    rw [himage] at hbytes
    cases hbytes
  · rw [hrow] at hall
    obtain ⟨hbytes, hrest⟩ := Prod.mk.inj hall
    obtain ⟨hhash, hrest⟩ := Prod.mk.inj hrest
    obtain ⟨hmime, hsource⟩ := Prod.mk.inj hrest
    obtain rfl : image = bytes := Option.some.inj (himage.symm.trans hbytes)
    obtain ⟨asset, source', hdelivered, hassetHash, hassetBytes⟩ := hfrom.bytes
    have hsame : hash = (env.sha256 image).val := by
      rw [← hassetHash, ← hassetBytes]
      exact hdelivered.contentHash
    subst hsame
    exact ⟨mimeType, source, hmime, hsource, hhash, hfrom⟩

open LogoExample in
/-- The round over the native token, which stores an image. -/
theorem logo_provenance_round :
    Always (LogoWorker.step worker)
        (fun s => ∀ key row image, s.store.row? key = some row → row.imageBytes = some image →
          ∃ mimeType source, row.mimeType = some mimeType ∧ row.source = some source ∧
            row.contentHash = some (worker.sha256 image).val ∧
            ImageFrom worker.acquirer key (s.answersOf key) image (worker.sha256 image).val mimeType source)
        .new round ∧
      ∃ s row, run (LogoWorker.step worker) .new round = some s ∧ s.store.row? (1, nativeTokenAlias) = some row ∧
        row.imageBytes = some pixel ∧ row.source = some "yearn_tokenassets" :=
  ⟨logo_provenance worker Example.lawful round round_canonical, round_run⟩

end TokenPriceAgg

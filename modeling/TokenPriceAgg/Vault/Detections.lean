import TokenPriceAgg.Lib.Runs
import TokenPriceAgg.Vault.Evidence
import Mathlib.Logic.Function.Basic
import Mathlib.Tactic.Linarith

/-!
# Concurrent detections

Any number of calls of `_detect_vault` share the caches of a resolver.  A call gives up control in the wait for the
semaphore and in the `detect` of either adapter; what it does between two such points is one step, `DetectEvent`.
`lastStored` records, for each key, the result that was stored last.

A vault that is found takes the place of a missing one (`storeFound` drops the negative entry).  A missing vault that
is stored leaves the positive entry alone, so the caches stay coherent exactly under the steps that do not store a
missing vault over an unexpired positive entry: `detections_coherent_iff`.

`detectVault_tracks` connects the steps with the function `detectVault`.
-/

namespace TokenPriceAgg

open PyLib

/-! ### What the operations on the caches keep -/

namespace VaultCaches

variable {c : VaultCaches} {key k : CacheKey} {now : ℚ}

/-- What `_detect_vault` stores when an adapter has found a vault. -/
def storeFound (settings : Settings) (key : CacheKey) (vault : VaultInfo) (now : ℚ) (c : VaultCaches) : VaultCaches :=
  let c := c.storePositive settings key ⟨vault, now + settings.vaultPositiveCacheTtlS⟩
  { c with negative := c.negative.pop key }

/-- What `_detect_vault` stores when no adapter has found a vault. -/
def storeMissing (settings : Settings) (key : CacheKey) (now : ℚ) (c : VaultCaches) : VaultCaches :=
  c.storeNegative settings key (now + settings.vaultNegativeCacheTtlS)

def UnexpiredPositive (c : VaultCaches) (key : CacheKey) (now : ℚ) : Prop :=
  ∃ entry, c.positive.get? key = some entry ∧ now < entry.expiresAt

def UnexpiredNegative (c : VaultCaches) (key : CacheKey) (now : ℚ) : Prop :=
  ∃ expiresAt, c.negative.get? key = some expiresAt ∧ now < expiresAt

/-- A hit with a vault comes from an unexpired entry of the positive cache. -/
private theorem cachedVault_some {vault : VaultInfo} (h : (c.cachedVault key now).1 = some (some vault)) :
    ∃ entry, c.positive.get? key = some entry ∧ now < entry.expiresAt ∧ entry.vault = vault := by
  have notNegative (d : VaultCaches) : (cachedVault.cachedNegative key now d).1 ≠ some (some vault) := by
    unfold cachedVault.cachedNegative
    split
    · split <;> simp
    · simp
  have hprune := pruneExpiredIfDue_nothingNew now c
  unfold cachedVault at h
  generalize c.pruneExpiredIfDue now = d at hprune h
  cases hd : d.positive.get? key with
  | none =>
    simp only [hd] at h
    exact absurd h (notNegative _)
  | some cached =>
    simp only [hd] at h
    by_cases hlive : now < cached.expiresAt
    · simp only [hlive, if_true, Option.some.injEq] at h
      exact ⟨cached, hprune.positive key cached hd, hlive, h⟩
    · rw [if_neg hlive] at h
      exact absurd h (notNegative _)

/-! What storing a result does to the caches. -/

variable {settings : Settings} {vault : VaultInfo}

private theorem storeFound_positive_imp {entry : VaultCacheEntry}
    (h : (c.storeFound settings key vault now).positive.get? k = some entry) :
    (k = key ∧ entry.vault = vault) ∨ (k ≠ key ∧ c.positive.get? k = some entry) := by
  have h : (c.positive.set key ⟨vault, now + settings.vaultPositiveCacheTtlS⟩).get? k = some entry := by
    simpa using Dict.get?_trim_imp h
  rw [Dict.get?_set] at h
  split at h
  · cases h
    exact .inl ⟨‹_›, rfl⟩
  · exact .inr ⟨‹_›, h⟩

private theorem storeFound_negative :
    (c.storeFound settings key vault now).negative.get? k = if k = key then none else c.negative.get? k :=
  Dict.get?_pop c.negative key k

private theorem storeMissing_positive : (c.storeMissing settings key now).positive = c.positive := rfl

private theorem storeMissing_negative_imp {expiresAt : ℚ}
    (h : (c.storeMissing settings key now).negative.get? k = some expiresAt) :
    k = key ∨ (k ≠ key ∧ c.negative.get? k = some expiresAt) := by
  have h : (c.negative.set key (now + settings.vaultNegativeCacheTtlS)).get? k = some expiresAt := by
    simpa using Dict.get?_trim_imp h
  rw [Dict.get?_set] at h
  split at h
  · exact .inl ‹_›
  · exact .inr ⟨‹_›, h⟩

/-- The missing vault that was stored last is there. -/
private theorem storeMissing_unexpired : (c.storeMissing settings key now).UnexpiredNegative key now := by
  refine ⟨now + settings.vaultNegativeCacheTtlS, ?_, ?_⟩
  · exact Dict.get?_trim_moveToEnd settings.vaultCacheMaxEntries_pos (Dict.get?_set_self ..)
  · have hpos : (0 : ℚ) < settings.vaultNegativeCacheTtlS := Nat.cast_pos.2 settings.vaultNegativeCacheTtlS_pos
    linarith

end VaultCaches

/-! ### The calls in flight -/

/-- What a call of `_detect_vault` waits for. -/
inductive DetectStage
  | semaphore
  | erc4626
  | yearnV2
deriving DecidableEq, Repr

structure DetectCall where
  key : CacheKey
  stage : DetectStage
deriving DecidableEq

/-- What a call does between two points at which it gives up control. -/
inductive DetectEvent
  | call (id : Nat) (address : String) (chainId : Int) (now : ℚ)
  /-- the wait for the semaphore is cancelled -/
  | cancel (id : Nat)
  | acquire (id : Nat) (now : ℚ)
  /-- the adapter returns or raises -/
  | erc4626 (id : Nat) (outcome : Except Raised (Option Erc4626VaultInfo)) (now : ℚ)
  | yearnV2 (id : Nat) (outcome : Except Raised (Option YearnV2VaultInfo)) (now : ℚ)

structure DetectState where
  /-- the last reading of `time.monotonic()` -/
  clock : ℚ
  caches : VaultCaches
  permits : Nat
  calls : Dict Nat DetectCall
  /-- the result that was stored last for each key -/
  lastStored : CacheKey → Option (Option VaultInfo)

namespace DetectState

def start (now : ℚ) (web3Limit : Nat) : DetectState := ⟨now, .empty, web3Limit, .empty, fun _ => none⟩

/-- The call returns or raises and gives its permit back. -/
def leave (s : DetectState) (id : Nat) : DetectState := { s with permits := s.permits + 1, calls := s.calls.pop id }

def storeFound (settings : Settings) (s : DetectState) (key : CacheKey) (vault : VaultInfo) (now : ℚ) : DetectState :=
  { s with clock := now
           caches := s.caches.storeFound settings key vault now
           lastStored := Function.update s.lastStored key (some (some vault)) }

def storeMissing (settings : Settings) (s : DetectState) (key : CacheKey) (now : ℚ) : DetectState :=
  { s with clock := now
           caches := s.caches.storeMissing settings key now
           lastStored := Function.update s.lastStored key (some none) }

def step (settings : Settings) (s : DetectState) : DetectEvent → Option DetectState
  | .call id address chainId now =>
    if s.clock ≤ now ∧ s.calls.get? id = none then
      let key : CacheKey := (chainId, address.toLower)
      match s.caches.cachedVault key now with
      | (some _, caches) => some { s with clock := now, caches }
      | (none, caches) => some { s with clock := now, caches, calls := s.calls.set id ⟨key, .semaphore⟩ }
    else none
  | .cancel id =>
    match s.calls.get? id with
    | some ⟨_, .semaphore⟩ => some { s with calls := s.calls.pop id }
    | _ => none
  | .acquire id now =>
    match s.calls.get? id with
    | some ⟨key, .semaphore⟩ =>
      if s.clock ≤ now ∧ 0 < s.permits then
        match s.caches.cachedVault key now with
        | (some _, caches) => some { s with clock := now, caches, calls := s.calls.pop id }
        | (none, caches) =>
          some { s with clock := now, caches, permits := s.permits - 1, calls := s.calls.set id ⟨key, .erc4626⟩ }
      else none
    | _ => none
  | .erc4626 id outcome now =>
    match s.calls.get? id with
    | some ⟨key, .erc4626⟩ =>
      if s.clock ≤ now then
        match outcome with
        | .error _ => some (s.leave id)
        | .ok (some erc4626) => some ((s.leave id).storeFound settings key (.fromErc4626 erc4626) now)
        | .ok none => some { s with calls := s.calls.set id ⟨key, .yearnV2⟩ }
      else none
    | _ => none
  | .yearnV2 id outcome now =>
    match s.calls.get? id with
    | some ⟨key, .yearnV2⟩ =>
      if s.clock ≤ now then
        match outcome with
        | .error _ => some (s.leave id)
        | .ok (some yearn) => some ((s.leave id).storeFound settings key (.fromYearnV2 yearn) now)
        -- the permit is back before the missing vault is stored
        | .ok none => some ((s.leave id).storeMissing settings key now)
      else none
    | _ => none

/-- What a step does to the clock, the caches and the results stored last. -/
inductive Effect (settings : Settings) (s s' : DetectState) : DetectEvent → Prop
  | frame {e : DetectEvent} (hc : s.clock ≤ s'.clock) (hn : s.caches.NothingNew s'.caches)
    (hl : s'.lastStored = s.lastStored) : Effect settings s s' e
  | found {e : DetectEvent} (key : CacheKey) (vault : VaultInfo) (hc : s.clock ≤ s'.clock)
    (hs : s'.caches = s.caches.storeFound settings key vault s'.clock)
    (hl : s'.lastStored = Function.update s.lastStored key (some (some vault))) : Effect settings s s' e
  | missing (id : Nat) (key : CacheKey) (hk : s.calls.get? id = some ⟨key, .yearnV2⟩) (hc : s.clock ≤ s'.clock)
    (hs : s'.caches = s.caches.storeMissing settings key s'.clock)
    (hl : s'.lastStored = Function.update s.lastStored key (some none)) :
    Effect settings s s' (.yearnV2 id (.ok none) s'.clock)

variable {settings : Settings} {s s' : DetectState} {e : DetectEvent}

private theorem step_effect (h : s.step settings e = some s') : Effect settings s s' e := by
  have cached (key : CacheKey) (now : ℚ) : s.caches.NothingNew (s.caches.cachedVault key now).2 :=
    VaultCaches.cachedVault_nothingNew key now s.caches
  cases e with
  | call id address chainId now =>
    simp only [step] at h
    split at h
    · rename_i hg
      split at h <;> rename_i hv <;> cases h
      all_goals exact .frame hg.1 (by simpa only [hv] using cached (chainId, address.toLower) now) rfl
    · cases h
  | cancel id =>
    simp only [step] at h
    split at h
    · cases h
      exact .frame le_rfl (.refl _) rfl
    · cases h
  | acquire id now =>
    simp only [step] at h
    split at h
    · rename_i key hk
      split at h
      · rename_i hg
        split at h <;> rename_i hv <;> cases h
        all_goals exact .frame hg.1 (by simpa only [hv] using cached key now) rfl
      · cases h
    · cases h
  | erc4626 id outcome now =>
    simp only [step] at h
    split at h
    · rename_i key hk
      split at h
      · rename_i hg
        rcases outcome with _ | _ | erc4626 <;> cases h
        · exact .frame le_rfl (.refl _) rfl
        · exact .frame le_rfl (.refl _) rfl
        · exact .found key (.fromErc4626 erc4626) hg rfl rfl
      · cases h
    · cases h
  | yearnV2 id outcome now =>
    simp only [step] at h
    split at h
    · rename_i key hk
      split at h
      · rename_i hg
        rcases outcome with _ | _ | yearn <;> cases h
        · exact .frame le_rfl (.refl _) rfl
        · exact .missing id key hk hg rfl rfl
        · exact .found key (.fromYearnV2 yearn) hg rfl rfl
      · cases h
    · cases h

/-! ### Coherence -/

/-- At every later reading of the clock no key is known both to be a vault and not to be one, and a hit answers with
the result that was stored last. -/
structure Coherent (s : DetectState) : Prop where
  exclusive : ∀ key now, s.clock ≤ now → ¬ (s.caches.UnexpiredPositive key now ∧ s.caches.UnexpiredNegative key now)
  latest : ∀ key now answer, s.clock ≤ now → (s.caches.cachedVault key now).1 = some answer →
    s.lastStored key = some answer

/-- The step does not store a missing vault over an unexpired positive entry. -/
def KeepsFound (s : DetectState) (e : DetectEvent) : Prop :=
  ∀ id key now, e = .yearnV2 id (.ok none) now → s.calls.get? id = some ⟨key, .yearnV2⟩ → s.clock ≤ now →
    ¬ s.caches.UnexpiredPositive key now

/-- Coherence entry by entry: every unexpired entry is the result that was stored last for its key. -/
structure Latest (s : DetectState) : Prop where
  positive : ∀ key entry, s.caches.positive.get? key = some entry → s.clock < entry.expiresAt →
    s.lastStored key = some (some entry.vault)
  negative : ∀ key expiresAt, s.caches.negative.get? key = some expiresAt → s.clock < expiresAt →
    s.lastStored key = some none

private theorem Latest.coherent (h : s.Latest) : s.Coherent where
  exclusive := by
    rintro key now hn ⟨⟨entry, he, hlt⟩, ⟨expiresAt, ht, hlt'⟩⟩
    have hp := h.positive key entry he (hn.trans_lt hlt)
    have hm := h.negative key expiresAt ht (hn.trans_lt hlt')
    rw [hp] at hm
    cases hm
  latest := by
    intro key now answer hn hit
    cases answer with
    | some vault =>
      obtain ⟨entry, he, hlt, rfl⟩ := VaultCaches.cachedVault_some hit
      exact h.positive key entry he (hn.trans_lt hlt)
    | none =>
      obtain ⟨expiresAt, hlt, ht, -⟩ := VaultCaches.cachedVault_none hit
      exact h.negative key expiresAt ht (hn.trans_lt hlt)

private theorem start_latest (now : ℚ) (web3Limit : Nat) : (start now web3Limit).Latest :=
  ⟨(fun _ _ h => nomatch h), (fun _ _ h => nomatch h)⟩

/-- One step keeps every entry the latest result unless it stores a missing vault over a vault. -/
theorem Latest.step (h : s.Latest) (hk : s.KeepsFound e) (hstep : s.step settings e = some s') : s'.Latest := by
  cases step_effect hstep with
  | frame hc hn hl =>
    constructor
    · intro key entry he hlt
      rw [hl]
      exact h.positive key entry (hn.positive key entry he) (hc.trans_lt hlt)
    · intro key expiresAt he hlt
      rw [hl]
      exact h.negative key expiresAt (hn.negative key expiresAt he) (hc.trans_lt hlt)
  | found k vault hc hs hl =>
    constructor
    · intro key entry he hlt
      rw [hs] at he
      rcases VaultCaches.storeFound_positive_imp he with ⟨rfl, rfl⟩ | ⟨hne, he⟩
      · rw [hl, Function.update_self]
      · rw [hl, Function.update_of_ne hne]
        exact h.positive key entry he (hc.trans_lt hlt)
    · intro key expiresAt he hlt
      rw [hs, VaultCaches.storeFound_negative] at he
      split at he
      · cases he
      · rename_i hne
        rw [hl, Function.update_of_ne hne]
        exact h.negative key expiresAt he (hc.trans_lt hlt)
  | missing id k hk' hc hs hl =>
    -- a positive entry of the key has expired
    have hexp := hk id k _ rfl hk' hc
    clear hstep
    constructor
    · intro key entry he hlt
      rw [hs, VaultCaches.storeMissing_positive] at he
      have hne : key ≠ k := by
        rintro rfl
        exact hexp ⟨entry, he, hlt⟩
      rw [hl, Function.update_of_ne hne]
      exact h.positive key entry he (hc.trans_lt hlt)
    · intro key expiresAt he hlt
      rw [hs] at he
      rcases VaultCaches.storeMissing_negative_imp he with rfl | ⟨hne, he⟩
      · rw [hl, Function.update_self]
      · rw [hl, Function.update_of_ne hne]
        exact h.negative key expiresAt he (hc.trans_lt hlt)

/-- A missing vault stored over an unexpired positive entry leaves both entries there. -/
private theorem keepsFound_of_coherent (h : ∀ s', s.step settings e = some s' → s'.Coherent) : s.KeepsFound e := by
  rintro id key now rfl hk hn hpos
  have hstep : s.step settings (.yearnV2 id (.ok none) now) = some ((s.leave id).storeMissing settings key now) := by
    simp only [step, hk, hn, if_true]
  exact (h _ hstep).exclusive key now le_rfl ⟨hpos, VaultCaches.storeMissing_unexpired⟩

end DetectState

/-! ### A call that runs alone -/

/-- The call that takes the step. -/
def DetectEvent.callId : DetectEvent → Nat
  | .call id .. | .cancel id | .acquire id _ | .erc4626 id .. | .yearnV2 id .. => id

namespace DetectState

section Alone

variable (settings : Settings) (env : VaultSchedule)

/-- The caches are those of the call, and its next reading of the clock is not before the last one. -/
def At (s : DetectState) (w : VaultWorld) : Prop := s.caches = w.caches ∧ s.clock ≤ env.clock w.reads

/-- The steps of the call lead to the caches in which it ends; an answer is the result stored last for its key. -/
def Ends (s : DetectState) (id : Nat) (key : CacheKey) (permits : Nat) (result : Except Raised (Option VaultInfo))
    (w : VaultWorld) : Prop :=
  ∃ events s', (∀ e ∈ events, e.callId = id) ∧ run (step settings) s events = some s' ∧ s'.caches = w.caches ∧
    s'.permits = permits ∧ s'.calls.get? id = none ∧
      ∀ answer, result = .ok answer → s.Latest → s'.lastStored key = some answer

/-- The rest of a call is followed by its steps. -/
def Tracks (s : DetectState) (id : Nat) (key : CacheKey) (permits : Nat)
    (m : Eff VaultWorld Raised (Option VaultInfo)) : Prop :=
  Eff.Triple (s.At env) m (fun found => s.Ends settings id key permits (.ok found)) fun exc =>
    s.Ends settings id key permits (.error exc)

variable {settings env} {s s' : DetectState} {e : DetectEvent} {id permits : Nat} {key : CacheKey}

/-- A call that ends with this step. -/
theorem Ends.last {result : Except Raised (Option VaultInfo)} {w : VaultWorld}
    (hstep : s.step settings e = some s') (hid : e.callId = id) (hcaches : s'.caches = w.caches)
    (hpermits : s'.permits = permits) (hcall : s'.calls.get? id = none)
    (hanswer : ∀ answer, result = .ok answer → s.Latest → s'.lastStored key = some answer) :
    s.Ends settings id key permits result w := by
  refine ⟨[e], s', ?_, run_cons.2 ⟨s', hstep, rfl⟩, hcaches, hpermits, hcall, hanswer⟩
  intro e' he'
  rw [List.mem_singleton.1 he']
  exact hid

/-- A step before the rest of the call. -/
private theorem Tracks.cons {m : Eff VaultWorld Raised (Option VaultInfo)} (hstep : s.step settings e = some s')
    (hid : e.callId = id) (hkeeps : s.KeepsFound e) (h : s'.Tracks settings env id key permits m) :
    Eff.Triple (s'.At env) m (fun found => s.Ends settings id key permits (.ok found)) fun exc =>
      s.Ends settings id key permits (.error exc) := by
  have before {result : Except Raised (Option VaultInfo)} {w : VaultWorld}
      (h : s'.Ends settings id key permits result w) : s.Ends settings id key permits result w := by
    obtain ⟨events, s'', hids, hrun, hcaches, hpermits, hcall, hanswer⟩ := h
    refine ⟨e :: events, s'', ?_, run_cons.2 ⟨s', hstep, hrun⟩, hcaches, hpermits, hcall, ?_⟩
    · intro e' he'
      rcases List.mem_cons.1 he' with rfl | he'
      · exact hid
      · exact hids e' he'
    · intro answer hresult hlatest
      exact hanswer answer hresult (hlatest.step hkeeps hstep)
  exact Eff.Triple.weaken h (fun _ hw => hw) (fun _ _ hw => before hw) fun _ _ hw => before hw

private theorem foundVault_tracks {vault : VaultInfo} (hstep : ∀ now, s.clock ≤ now → ∃ e : DetectEvent, e.callId = id ∧
    s.step settings e = some ((s.leave id).storeFound settings key vault now)) :
    s.Tracks settings env id key (s.permits + 1) (VaultResolver.foundVault settings env key vault) := by
  rintro w ⟨hcaches, hclock⟩
  obtain ⟨e, hid, hstep⟩ := hstep _ hclock
  refine Ends.last hstep hid ?_ rfl (Dict.get?_pop_self ..) ?_
  · show s.caches.storeFound settings key vault (env.clock w.reads) = _
    rw [hcaches]
    rfl
  · rintro answer ⟨⟩ -
    exact Function.update_self ..

/-- Between two points at which the call gives up control it reads the caches once. -/
private theorem readCache_triple (hclock : Monotone env.clock) {E : Raised → VaultWorld → Prop} :
    Eff.Triple (s.At env) (VaultResolver.readCache env key) (fun answer w => ∃ now, s.clock ≤ now ∧
      now ≤ env.clock w.reads ∧ s.caches.cachedVault key now = (answer, w.caches)) E := by
  rintro w ⟨hcaches, hnow⟩
  refine ⟨env.clock w.reads, hnow, hclock (Nat.le_succ _), ?_⟩
  rw [hcaches]

/-- An adapter leaves the caches and the clock alone. -/
private theorem adapter_triple {α : Type} {m : Eff VaultWorld Raised α}
    (hm : ∀ w : VaultWorld, Eff.Preserves (fun w' => w'.caches = w.caches ∧ w'.reads = w.reads) m)
    {E : Raised → VaultWorld → Prop} (hE : ∀ exc w, s.At env w → E exc w) :
    Eff.Triple (s.At env) m (fun _ => s.At env) E := by
  rintro w ⟨hcaches, hclock⟩
  have kept {w' : VaultWorld} (h : w'.caches = w.caches ∧ w'.reads = w.reads) : s.At env w' := by
    refine ⟨hcaches.trans h.1.symm, ?_⟩
    rw [h.2]
    exact hclock
  exact (Eff.Triple.weaken (hm w) (fun _ h => h) (fun _ _ h => kept h) fun exc w' h => hE exc w' (kept h)) w ⟨rfl, rfl⟩

private theorem call_preserves {caches : VaultCaches} {reads : Nat} (c : RpcCall) :
    Eff.Preserves (fun w : VaultWorld => w.caches = caches ∧ w.reads = reads) (VaultResolver.call env c) := by
  intro w hw
  unfold VaultResolver.call
  dsimp only
  cases env.answer w.exchanges c with
  | ok obj => exact hw
  | error exc => exact hw

/-- The second adapter, which has the last word. -/
private theorem yearnV2_tracks (codec : Web3Codec) (address : String) (chainId : Int)
    (hcall : s.calls.get? id = some ⟨key, .yearnV2⟩) :
    s.Tracks settings env id key (s.permits + 1) (do
      match ← YearnV2Adapter.detect codec (VaultResolver.call env) address chainId with
      | some yearn => VaultResolver.foundVault settings env key (.fromYearnV2 yearn)
      | none =>
        let now ← VaultResolver.monotonic env
        VaultResolver.onCaches (VaultCaches.storeNegative settings key (now + settings.vaultNegativeCacheTtlS))
        pure none) := by
  refine Eff.Triple.bind (adapter_triple (fun w => YearnV2Adapter.detect_preserves call_preserves address chainId)
    ?_) fun found => ?_
  · rintro exc w ⟨hcaches, -⟩
    have hstep : s.step settings (.yearnV2 id (.error exc) s.clock) = some (s.leave id) := by
      simp only [step, hcall, le_refl, if_true]
    exact Ends.last hstep rfl hcaches rfl (Dict.get?_pop_self ..) (fun _ h => by cases h)
  · cases found with
    | some yearn =>
      refine foundVault_tracks fun now hnow => ⟨.yearnV2 id (.ok (some yearn)) now, rfl, ?_⟩
      simp only [step, hcall, hnow, if_true]
    | none =>
      rintro w ⟨hcaches, hnow⟩
      have hstep : s.step settings (.yearnV2 id (.ok none) (env.clock w.reads)) =
          some ((s.leave id).storeMissing settings key (env.clock w.reads)) := by
        simp only [step, hcall, hnow, if_true]
      refine Ends.last hstep rfl ?_ rfl (Dict.get?_pop_self ..) ?_
      · show s.caches.storeMissing settings key (env.clock w.reads) = _
        rw [hcaches]
        rfl
      · rintro answer ⟨⟩ -
        exact Function.update_self ..

/-- A step that stores no missing vault. -/
private theorem keepsFound_of_ne (h : ∀ id now, e ≠ .yearnV2 id (.ok none) now) : s.KeepsFound e :=
  fun id _ now he => absurd he (h id now)

/-- The two adapters, with the semaphore taken. -/
private theorem erc4626_tracks (codec : Web3Codec) (address : String) (chainId : Int)
    (hcall : s.calls.get? id = some ⟨key, .erc4626⟩) :
    s.Tracks settings env id key (s.permits + 1) (do
      match ← Erc4626Adapter.detect codec (VaultResolver.call env) address chainId with
      | some erc4626 => VaultResolver.foundVault settings env key (.fromErc4626 erc4626)
      | none =>
        match ← YearnV2Adapter.detect codec (VaultResolver.call env) address chainId with
        | some yearn => VaultResolver.foundVault settings env key (.fromYearnV2 yearn)
        | none =>
          let now ← VaultResolver.monotonic env
          VaultResolver.onCaches (VaultCaches.storeNegative settings key (now + settings.vaultNegativeCacheTtlS))
          pure none) := by
  refine Eff.Triple.bind (adapter_triple (fun w => Erc4626Adapter.detect_preserves call_preserves address chainId)
    ?_) fun found => ?_
  · rintro exc w ⟨hcaches, -⟩
    have hstep : s.step settings (.erc4626 id (.error exc) s.clock) = some (s.leave id) := by
      simp only [step, hcall, le_refl, if_true]
    exact Ends.last hstep rfl hcaches rfl (Dict.get?_pop_self ..) (fun _ h => by cases h)
  · cases found with
    | some erc4626 =>
      refine foundVault_tracks fun now hnow => ⟨.erc4626 id (.ok (some erc4626)) now, rfl, ?_⟩
      simp only [step, hcall, hnow, if_true]
    | none =>
      let s' : DetectState := { s with calls := s.calls.set id ⟨key, .yearnV2⟩ }
      have hstep : s.step settings (.erc4626 id (.ok none) s.clock) = some s' := by
        simp only [step, hcall, le_refl, if_true]
        rfl
      have hrest : s'.Tracks settings env id key (s.permits + 1) _ :=
        yearnV2_tracks codec address chainId (Dict.get?_set_self ..)
      intro w hw
      exact Tracks.cons hstep rfl (keepsFound_of_ne fun _ _ h => by cases h) hrest w hw

/-- From any state of the calls in flight a call of `_detect_vault` that nothing interrupts is a run of steps: it leaves
the same caches, gives its permit back, and answers with the result that was stored last for its key. -/
theorem detectVault_tracks (codec : Web3Codec) {address : String} {chainId : Int} (hclock : Monotone env.clock)
    (hid : s.calls.get? id = none) (hpermits : 0 < s.permits) :
    s.Tracks settings env id (chainId, address.toLower) s.permits
      (VaultResolver.detectVault settings codec env address chainId) := by
  unfold VaultResolver.detectVault
  refine Eff.Triple.bind (readCache_triple hclock) fun answer => ?_
  rintro w ⟨now, hnow, hlater, hread⟩
  cases answer with
  | some cached =>
    have hstep : s.step settings (.call id address chainId now) = some { s with clock := now, caches := w.caches } := by
      simp only [step, hnow, hid, hread, and_self, if_true]
    refine Ends.last hstep rfl rfl rfl hid ?_
    rintro answer ⟨⟩ hlatest
    exact hlatest.coherent.latest _ now cached hnow (by rw [hread])
  | none =>
    -- the call waits for the semaphore
    let s₁ : DetectState :=
      { s with clock := now, caches := w.caches, calls := s.calls.set id ⟨(chainId, address.toLower), .semaphore⟩ }
    have hstep : s.step settings (.call id address chainId now) = some s₁ := by
      simp only [step, hnow, hid, hread, and_self, if_true]
      rfl
    have hcall : s₁.calls.get? id = some ⟨(chainId, address.toLower), .semaphore⟩ := Dict.get?_set_self ..
    refine Tracks.cons hstep rfl (keepsFound_of_ne fun _ _ h => by cases h) ?_ w ⟨rfl, hlater⟩
    refine Eff.Triple.ite (fun _ => ?_) fun _ => ?_
    · rintro w₁ ⟨hcaches, -⟩
      have hcancel : s₁.step settings (.cancel id) = some { s₁ with calls := s₁.calls.pop id } := by
        simp only [step, hcall]
      exact Ends.last hcancel rfl hcaches rfl (Dict.get?_pop_self ..) (fun _ h => by cases h)
    · refine Eff.Triple.bind (readCache_triple hclock) fun answer => ?_
      rintro w₂ ⟨now₂, hnow₂, hlater₂, hread₂⟩
      cases answer with
      | some cached =>
        have hacquire : s₁.step settings (.acquire id now₂) =
            some { s₁ with clock := now₂, caches := w₂.caches, calls := s₁.calls.pop id } := by
          simp only [step, hcall, hnow₂, hread₂]
          rw [if_pos ⟨trivial, hpermits⟩]
        refine Ends.last hacquire rfl rfl rfl (Dict.get?_pop_self ..) ?_
        rintro answer ⟨⟩ hlatest
        exact hlatest.coherent.latest _ now₂ cached hnow₂ (by rw [hread₂])
      | none =>
        -- the call has a permit
        let s₂ : DetectState := { s₁ with clock := now₂, caches := w₂.caches, permits := s₁.permits - 1,
                                          calls := s₁.calls.set id ⟨(chainId, address.toLower), .erc4626⟩ }
        have hacquire : s₁.step settings (.acquire id now₂) = some s₂ := by
          simp only [step, hcall, hnow₂, hread₂]
          rw [if_pos ⟨trivial, hpermits⟩]
        have hrest : s₂.Tracks settings env id (chainId, address.toLower) (s₂.permits + 1) _ :=
          erc4626_tracks codec address chainId (Dict.get?_set_self ..)
        have hback : s₂.permits + 1 = s.permits := Nat.sub_add_cancel hpermits
        rw [hback] at hrest
        exact Tracks.cons hacquire rfl (keepsFound_of_ne fun _ _ h => by cases h) hrest w₂ ⟨rfl, hlater₂⟩

end Alone

end DetectState

/-! ### Whole runs -/

/-- In every run of concurrent detections the caches are coherent throughout exactly when no step stores a missing
vault over an unexpired positive entry of its key. -/
theorem detections_coherent_iff (settings : Settings) (now : ℚ) (web3Limit : Nat) (events : List DetectEvent) :
    Always (DetectState.step settings) DetectState.Coherent (.start now web3Limit) events ↔
      Along (DetectState.step settings) DetectState.KeepsFound (.start now web3Limit) events :=
  always_iff_along (fun _ h => h.coherent) (fun _ _ _ h hk hs => h.step hk hs)
    (fun _ _ _ h => DetectState.keepsFound_of_coherent h) (DetectState.start_latest now web3Limit)

private def raceAddress : String := "0xa258c4606ca8206d8aa700ce2143d7db854d168c"

private def raceVault : YearnV2VaultInfo :=
  ⟨raceAddress, "0xC02aaA39b223FE8D0A0e5C4F27eAD9083C756Cc2", ⟨18, eighteen_safe⟩, ⟨18, eighteen_safe⟩,
    ⟨1047000000000000000, by decide⟩⟩

/-- Two calls miss the caches together.  The second one finds a vault, the first one finds none and ends last. -/
private def race : List DetectEvent :=
  [.call 1 raceAddress 1 100, .acquire 1 100, .call 2 raceAddress 1 100, .acquire 2 100,
    .erc4626 1 (.ok none) 101, .erc4626 2 (.ok none) 101, .yearnV2 2 (.ok (some raceVault)) 102,
    .yearnV2 1 (.ok none) 103]

/-- After the race both entries are unexpired, and a hit answers with the vault although the missing vault was stored
after it. -/
theorem detections_not_coherent :
    ∃ s, run (DetectState.step .default) (.start 100 32) race = some s ∧
      s.caches.UnexpiredPositive (1, raceAddress) s.clock ∧ s.caches.UnexpiredNegative (1, raceAddress) s.clock ∧
      (∃ vault, (s.caches.cachedVault (1, raceAddress) s.clock).1 = some (some vault)) ∧
      s.lastStored (1, raceAddress) = some none := by
  have hrun : (run (DetectState.step .default) (.start 100 32) race).map (fun s =>
      (s.clock, (s.caches.positive.get? (1, raceAddress)).map VaultCacheEntry.expiresAt,
        s.caches.negative.get? (1, raceAddress), (s.caches.cachedVault (1, raceAddress) s.clock).1.map Option.isSome,
        (s.lastStored (1, raceAddress)).map Option.isSome)) =
      some (103, some 132, some 403, some true, some false) := by decide +kernel
  obtain ⟨s, hs, hview⟩ := Option.map_eq_some_iff.1 hrun
  simp only [Prod.mk.injEq] at hview
  obtain ⟨hclock, hpos, hneg, hhit, hlast⟩ := hview
  obtain ⟨entry, he, hexp⟩ := Option.map_eq_some_iff.1 hpos
  obtain ⟨answer, ha, hsome⟩ := Option.map_eq_some_iff.1 hhit
  obtain ⟨last, hl, hnone⟩ := Option.map_eq_some_iff.1 hlast
  obtain ⟨vault, rfl⟩ := Option.isSome_iff_exists.1 hsome
  refine ⟨s, hs, ⟨entry, he, ?_⟩, ⟨403, hneg, ?_⟩, ⟨vault, ha⟩, ?_⟩
  · rw [hclock, hexp]
    norm_num
  · rw [hclock]
    norm_num
  · rw [hl]
    cases last with
    | none => rfl
    | some v => cases hnone

end TokenPriceAgg

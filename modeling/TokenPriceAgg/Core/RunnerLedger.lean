import TokenPriceAgg.Core.RunnerRules
import Mathlib.Algebra.Order.Group.Multiset
import Mathlib.Tactic.Abel

/-!
# The runner leaks nothing

The log of a call is read as a ledger: the units it took from a limiter against the units it gave back, and the
scopes it was admitted to against the scopes it ended.  `Ledger` says that at every point of the `try` block the
difference is what the `finally` block will find in the local variables, so a clean-up that runs to its end balances
the ledger.  The only suspension of the clean-up stands before everything it gives back.
-/

namespace TokenPriceAgg

open PyLib Eff

namespace Runner

/-! ### Reading the log -/

def acquired (log : List Event) : Multiset (Lane × Nat) :=
  ↑(log.filterMap fun | .acquired lane units => some (lane, units) | _ => none)

def released (log : List Event) : Multiset (Lane × Nat) :=
  ↑(log.filterMap fun | .released lane units => some (lane, units) | _ => none)

def admitted (log : List Event) : Multiset CircuitScope :=
  ↑(log.filterMap fun | .admitted scope => some scope | _ => none)

/-- The scopes that were ended, by `record_result` or by `release_probe`. -/
def ended (log : List Event) : Multiset CircuitScope :=
  ↑(log.filterMap fun | .recorded scope => some scope | .probeReleased scope => some scope | _ => none)

/-- Every unit that was taken was given back, and every scope that was admitted was ended, once. -/
def Balanced (log : List Event) : Prop := released log = acquired log ∧ ended log = admitted log

instance (log : List Event) : Decidable (Balanced log) := inferInstanceAs (Decidable (_ ∧ _))

@[simp] theorem acquired_append (l l' : List Event) : acquired (l ++ l') = acquired l + acquired l' := by
  simp [acquired]

@[simp] theorem released_append (l l' : List Event) : released (l ++ l') = released l + released l' := by
  simp [released]

@[simp] theorem admitted_append (l l' : List Event) : admitted (l ++ l') = admitted l + admitted l' := by
  simp [admitted]

@[simp] theorem ended_append (l l' : List Event) : ended (l ++ l') = ended l + ended l' := by
  simp [ended]

/-- What one event adds to the four columns. -/
@[simp] theorem columns_admitted (scope : CircuitScope) : acquired [.admitted scope] = 0 ∧
    released [.admitted scope] = 0 ∧ admitted [.admitted scope] = {scope} ∧ ended [.admitted scope] = 0 :=
  ⟨rfl, rfl, rfl, rfl⟩

@[simp] theorem columns_acquired (lane : Lane) (n : Nat) : acquired [.acquired lane n] = {(lane, n)} ∧
    released [.acquired lane n] = 0 ∧ admitted [.acquired lane n] = 0 ∧ ended [.acquired lane n] = 0 :=
  ⟨rfl, rfl, rfl, rfl⟩

@[simp] theorem columns_released (lane : Lane) (n : Nat) : acquired [.released lane n] = 0 ∧
    released [.released lane n] = {(lane, n)} ∧ admitted [.released lane n] = 0 ∧ ended [.released lane n] = 0 :=
  ⟨rfl, rfl, rfl, rfl⟩

@[simp] theorem columns_recorded (scope : CircuitScope) : acquired [.recorded scope] = 0 ∧
    released [.recorded scope] = 0 ∧ admitted [.recorded scope] = 0 ∧ ended [.recorded scope] = {scope} :=
  ⟨rfl, rfl, rfl, rfl⟩

@[simp] theorem columns_probeReleased (scope : CircuitScope) : acquired [.probeReleased scope] = 0 ∧
    released [.probeReleased scope] = 0 ∧ admitted [.probeReleased scope] = 0 ∧
    ended [.probeReleased scope] = {scope} :=
  ⟨rfl, rfl, rfl, rfl⟩

section

variable {R : Type}

/-- The units that the reservations of a call stand for. -/
def held (f : Frame R) : Multiset (Lane × Nat) := ↑((reservations f).map fun r => (r.1, r.2.units))

/-- The ledger in the `try` block; `units` and `scopes` are not yet in the local variables. -/
structure Ledger (units : Multiset (Lane × Nat)) (scopes : Multiset CircuitScope) (f : Frame R) (log : List Event) :
    Prop where
  units_eq : acquired log = released log + held f + units
  scopes_eq : admitted log = ended log + ↑f.circuitScopes + scopes
  unreleased : ∀ r ∈ reservations f, r.2.released = false ∧ 0 < r.2.units
  holds : f.tasks ≠ [] → held f ≠ 0
  quiet : .cleanupCancelled ∉ log

namespace Ledger

variable {units : Multiset (Lane × Nat)} {scopes : Multiset CircuitScope} {f g : Frame R} {log : List Event}
  {scope : CircuitScope} {lane : Lane} {n : Nat}

/-- The ledger does not read the other local variables. -/
private theorem of_frame (h : Ledger units scopes f log) (hr : reservations g = reservations f)
    (hs : g.circuitScopes = f.circuitScopes) (ht : g.tasks ≠ [] → f.tasks ≠ []) : Ledger units scopes g log where
  units_eq := by rw [held, hr]; exact h.units_eq
  scopes_eq := by rw [hs]; exact h.scopes_eq
  unreleased := by rw [hr]; exact h.unreleased
  holds := fun hg => by rw [held, hr]; exact h.holds (ht hg)
  quiet := h.quiet

private theorem finish (h : Ledger units scopes f log) (p : Nat → Bool) : Ledger units scopes (Runner.finish p f) log :=
  h.of_frame rfl rfl fun ht hf => ht (by simp [Runner.finish, hf])

private theorem admitScope (h : Ledger 0 0 f log) : Ledger 0 {scope} f (log ++ [.admitted scope]) where
  units_eq := by simp [h.units_eq]
  scopes_eq := by simp [h.scopes_eq]
  unreleased := h.unreleased
  holds := h.holds
  quiet := by simpa using h.quiet

private theorem addScope (h : Ledger units {scope} f log) (hs : scope ∉ f.circuitScopes) :
    Ledger units 0 { f with circuitScopes := f.circuitScopes.insert scope } log where
  units_eq := h.units_eq
  scopes_eq := by
    rw [h.scopes_eq, List.insert_of_not_mem hs, ← Multiset.cons_coe, ← Multiset.singleton_add]
    abel
  unreleased := h.unreleased
  holds := h.holds
  quiet := h.quiet

theorem take (h : Ledger 0 scopes f log) : Ledger {(lane, n)} scopes f (log ++ [.acquired lane n]) where
  units_eq := by simp [h.units_eq]
  scopes_eq := by simp [h.scopes_eq]
  unreleased := h.unreleased
  holds := h.holds
  quiet := by simpa using h.quiet

private theorem addReservation (h : Ledger {(lane, n)} scopes f log) (hn : 0 < n) (plugin : ProviderPlugin) :
    Ledger 0 scopes { f with providerReservations := f.providerReservations ++ [(lane, { units := n })]
                             runnable := f.runnable ++ [plugin] } log where
  units_eq := by
    rw [h.units_eq]
    simp only [held, reservations, List.map_append, List.map_cons, List.map_nil, ← Multiset.coe_add,
      Multiset.coe_singleton]
    abel
  scopes_eq := h.scopes_eq
  unreleased := by
    intro r hr
    simp only [reservations, List.mem_append, List.mem_singleton] at hr
    rcases hr with (hr | rfl) | hr
    · exact h.unreleased r (List.mem_append_left _ hr)
    · exact ⟨rfl, hn⟩
    · exact h.unreleased r (List.mem_append_right _ hr)
  holds := fun _ => by simp [held, reservations]
  quiet := h.quiet

private theorem setGlobal (h : Ledger {(.global, n)} scopes f log) (hg : f.globalReservation = none) (hn : 0 < n) :
    Ledger 0 scopes { f with globalReservation := some { units := n } } log where
  units_eq := by
    rw [h.units_eq]
    simp only [held, reservations, hg, Option.toList_none, Option.toList_some, List.map_nil, List.map_append,
      List.map_cons, List.append_nil, ← Multiset.coe_add, Multiset.coe_singleton]
    abel
  scopes_eq := h.scopes_eq
  unreleased := by
    intro r hr
    simp only [reservations, Option.toList_some, List.map_cons, List.map_nil, List.mem_append,
      List.mem_singleton] at hr
    rcases hr with hr | rfl
    · exact h.unreleased r (List.mem_append_left _ hr)
    · exact ⟨rfl, hn⟩
  holds := fun _ => by simp [held, reservations]
  quiet := h.quiet

private theorem record (h : Ledger units 0 f log) (hs : scope ∈ f.circuitScopes) :
    Ledger units 0 { f with circuitScopes := f.circuitScopes.erase scope } (log ++ [.recorded scope]) where
  units_eq := by simp [h.units_eq, held, reservations]
  scopes_eq := by
    have hc : (↑f.circuitScopes : Multiset CircuitScope) = {scope} + ↑(f.circuitScopes.erase scope) := by
      rw [Multiset.singleton_add, Multiset.cons_coe]
      exact Multiset.coe_eq_coe.2 (List.perm_cons_erase hs)
    rw [admitted_append, ended_append, h.scopes_eq, hc]
    simp [add_assoc]
  unreleased := h.unreleased
  holds := h.holds
  quiet := by simpa using h.quiet

/-- The events `started` of the new tasks move nothing. -/
theorem start (h : Ledger units scopes f log) (hr : f.runnable ≠ [] → held f ≠ 0) (ids : List ProviderPlugin) :
    Ledger units scopes { f with tasks := f.runnable.map fun plugin => { plugin, done := false } }
      (log ++ ids.map fun plugin => .started plugin.id) where
  units_eq := by
    have ha : acquired (ids.map fun plugin => Event.started plugin.id) = 0 := by
      simp [acquired, List.filterMap_map]
    have hr : released (ids.map fun plugin => Event.started plugin.id) = 0 := by
      simp [released, List.filterMap_map]
    rw [acquired_append, released_append, ha, hr, h.units_eq]
    simp [held, reservations]
  scopes_eq := by
    have ha : admitted (ids.map fun plugin => Event.started plugin.id) = 0 := by
      simp [admitted, List.filterMap_map]
    have he : ended (ids.map fun plugin => Event.started plugin.id) = 0 := by
      simp [ended, List.filterMap_map]
    rw [admitted_append, ended_append, ha, he, h.scopes_eq]
    simp
  unreleased := h.unreleased
  holds := fun ht => hr (by
    intro hn
    exact ht (by simp [hn]))
  quiet := by
    simp only [List.mem_append, List.mem_map, not_or]
    exact ⟨h.quiet, by simp⟩

end Ledger

end

/-! ### The `try` block -/

section TryBlock

variable {Req A R : Type} [ProviderResult R] {settings : Settings} {op : Operation Req A R} {env : Schedule Req A}
  {req : Req} {plugins : List ProviderPlugin} {deadlineMs : Int}

/-- The local variables while plugins are admitted, those of `done` being behind. -/
structure Admitting (op : Operation Req A R) (req : Req) (done : List ProviderPlugin) (f : Frame R) : Prop where
  tasks : f.tasks = []
  noGlobal : f.globalReservation = none
  scopes_nodup : f.circuitScopes.Nodup
  scopes_of : ∀ s ∈ f.circuitScopes, ∃ p ∈ done, s = scopeOf op req p.id
  runnable_scope : ∀ p ∈ f.runnable, scopeOf op req p.id ∈ f.circuitScopes
  runnable_nodup : (f.runnable.map ProviderPlugin.id).Nodup
  runnable_of : ∀ p ∈ f.runnable, p ∈ done
  runnable_length : f.runnable.length = f.providerReservations.length

private theorem scopeOf_injective {a b : String} (h : scopeOf op req a = scopeOf op req b) : a = b :=
  congrArg CircuitScope.provider h

namespace Admitting

variable {done : List ProviderPlugin} {f : Frame R} {plugin : ProviderPlugin}

private theorem mono (h : Admitting op req done f) : Admitting op req (done ++ [plugin]) f where
  tasks := h.tasks
  noGlobal := h.noGlobal
  scopes_nodup := h.scopes_nodup
  scopes_of := fun s hs => by
    obtain ⟨p, hp, e⟩ := h.scopes_of s hs
    exact ⟨p, List.mem_append_left _ hp, e⟩
  runnable_scope := h.runnable_scope
  runnable_nodup := h.runnable_nodup
  runnable_of := fun p hp => List.mem_append_left _ (h.runnable_of p hp)
  runnable_length := h.runnable_length

/-- The scope of a plugin that is still ahead is not in the set. -/
private theorem scope_notMem (h : Admitting op req done f) (hp : plugin.id ∉ done.map ProviderPlugin.id) :
    scopeOf op req plugin.id ∉ f.circuitScopes := by
  intro hs
  obtain ⟨p, hmem, e⟩ := h.scopes_of _ hs
  rw [scopeOf_injective e] at hp
  exact hp (List.mem_map_of_mem hmem)

private theorem addScope (h : Admitting op req done f) (hp : plugin.id ∉ done.map ProviderPlugin.id) :
    Admitting op req (done ++ [plugin])
      { f with circuitScopes := f.circuitScopes.insert (scopeOf op req plugin.id) } where
  tasks := h.tasks
  noGlobal := h.noGlobal
  scopes_nodup := by
    rw [List.insert_of_not_mem (h.scope_notMem hp)]
    exact List.nodup_cons.2 ⟨h.scope_notMem hp, h.scopes_nodup⟩
  scopes_of := fun s hs => by
    rcases List.mem_insert_iff.1 hs with rfl | hs
    · exact ⟨plugin, by simp, rfl⟩
    · exact h.mono.scopes_of s hs
  runnable_scope := fun p hp => List.mem_insert_of_mem (h.runnable_scope p hp)
  runnable_nodup := h.runnable_nodup
  runnable_of := h.mono.runnable_of
  runnable_length := h.runnable_length

/-- A plugin that got its lane becomes runnable; it is not among the earlier ones. -/
private theorem addRunnable {r : Lane × LimitReservation} (h : Admitting op req (done ++ [plugin]) f)
    (hs : scopeOf op req plugin.id ∈ f.circuitScopes) (hf : ∀ p ∈ f.runnable, p ∈ done)
    (hp : plugin.id ∉ done.map ProviderPlugin.id) :
    Admitting op req (done ++ [plugin]) { f with providerReservations := f.providerReservations ++ [r]
                                                 runnable := f.runnable ++ [plugin] } where
  tasks := h.tasks
  noGlobal := h.noGlobal
  scopes_nodup := h.scopes_nodup
  scopes_of := h.scopes_of
  runnable_scope := fun p hp' => by
    rcases List.mem_append.1 hp' with hp' | hp'
    · exact h.runnable_scope p hp'
    · rw [List.mem_singleton.1 hp']; exact hs
  runnable_nodup := by
    rw [List.map_append, List.nodup_append]
    refine ⟨h.runnable_nodup, by simp, fun a ha b hb => ?_⟩
    obtain ⟨p, hp', rfl⟩ := List.mem_map.1 ha
    rw [List.map_singleton, List.mem_singleton] at hb
    rintro rfl
    exact hp (hb ▸ List.mem_map_of_mem (hf p hp'))
  runnable_of := fun p hp' => by
    rcases List.mem_append.1 hp' with hp' | hp'
    · exact h.runnable_of p hp'
    · exact List.mem_append_right _ hp'
  runnable_length := by
    have := h.runnable_length
    simp [this]

end Admitting

/-- Every plugin behind has its immediate result or is runnable, not both. -/
structure Accounted (op : Operation Req A R) (req : Req) (done : List ProviderPlugin) (f : Frame R) : Prop where
  providers : (f.immediateResults.map ProviderResult.provider ++ f.runnable.map ProviderPlugin.id).Perm
    (done.map ProviderPlugin.id)
  immediate_of : ∀ r ∈ f.immediateResults, ∃ p reason, op.staticResult p req reason = .ok r

namespace Accounted

variable {done : List ProviderPlugin} {f : Frame R} {plugin : ProviderPlugin}

theorem addImmediate {reason : StaticReason} {result : R} (h : Accounted op req done f)
    (hr : op.staticResult plugin req reason = .ok result) :
    Accounted op req (done ++ [plugin]) { f with immediateResults := f.immediateResults ++ [result] } where
  providers := by
    rw [List.map_append, List.map_append, List.map_singleton, List.map_singleton, op.static_provider hr,
      List.append_assoc]
    refine (List.Perm.append_left _ List.perm_append_comm).trans ?_
    rw [← List.append_assoc]
    exact h.providers.append_right _
  immediate_of := fun r hr' => by
    rcases List.mem_append.1 hr' with hr' | hr'
    · exact h.immediate_of r hr'
    · rw [List.mem_singleton.1 hr']
      exact ⟨plugin, reason, hr⟩

theorem addRunnable (h : Accounted op req done f) (r : Lane × LimitReservation) :
    Accounted op req (done ++ [plugin]) { f with providerReservations := f.providerReservations ++ [r]
                                                 runnable := f.runnable ++ [plugin] } where
  providers := by
    rw [List.map_append, List.map_append, ← List.append_assoc]
    exact h.providers.append_right _
  immediate_of := h.immediate_of

end Accounted

/-- How the admission loop can raise: a wait is cancelled, or a result for a plugin that is turned away is not
accepted. -/
def LoopRaises (op : Operation Req A R) (env : Schedule Req A) (req : Req) (e : Raised) : Prop :=
  (e = .cancelled ∧ ∃ place, Cancels (env.laneWaits place)) ∨
    ∃ p reason exc, e = .exception exc ∧ op.staticResult p req reason = .error exc

/-- The condition between two turns of the admission loop. -/
def Loop (op : Operation Req A R) (req : Req) (done : List ProviderPlugin) (f : Frame R) (log : List Event) : Prop :=
  Ledger 0 0 f log ∧ Admitting op req done f ∧ Accounted op req done f

private theorem static_triple {done : List ProviderPlugin} {plugin : ProviderPlugin} (reason : StaticReason)
    {p : Frame R → List Event → Prop}
    (hp : ∀ f l, p f l → Ledger 0 0 f l ∧ Admitting op req (done ++ [plugin]) f ∧ Accounted op req done f) :
    Triple (On p) (do addImmediate (← ofExcept (op.staticResult plugin req reason)))
      (fun _ => On (Loop op req (done ++ [plugin]))) (fun e w => LoopRaises op env req e ∧ On (Ledger 0 0) w) := by
  have hstatic := ofExcept_triple (p := p) (x := op.staticResult plugin req reason)
  refine Triple.bind (Triple.weaken hstatic (fun w hw => hw) (fun a w hw => hw) fun e w hw => ?_) fun result => ?_
  · obtain ⟨⟨exc, he, hx⟩, hw⟩ := hw
    exact ⟨.inr ⟨plugin, reason, exc, he, hx⟩, (hp _ _ hw).1⟩
  · intro w hw
    obtain ⟨hr, hw⟩ := hw
    obtain ⟨hl, ha, hc⟩ := hp _ _ hw
    refine ⟨hl.of_frame rfl rfl id, ?_, hc.addImmediate hr⟩
    exact ⟨ha.tasks, ha.noGlobal, ha.scopes_nodup, ha.scopes_of, ha.runnable_scope, ha.runnable_nodup,
      ha.runnable_of, ha.runnable_length⟩

private theorem admitPlugin_triple {done : List ProviderPlugin} {plugin : ProviderPlugin} (place : Nat)
    (hnew : plugin.id ∉ done.map ProviderPlugin.id) :
    Triple (On (Loop op req done)) (admitPlugin settings op env req plugin place)
      (fun _ => On (Loop op req (done ++ [plugin]))) (fun e w => LoopRaises op env req e ∧ On (Ledger 0 0) w) := by
  unfold admitPlugin
  cases staticRejectionReason plugin op.name (op.chainId req) with
  | some reason => exact static_triple reason fun f l h => ⟨h.1, h.2.1.mono, h.2.2⟩
  | none =>
    -- between `allow` and the insertion into the set the scope is only in the log
    let Admitted (f : Frame R) (l : List Event) : Prop :=
      Ledger 0 {scopeOf op req plugin.id} f l ∧ Admitting op req done f ∧ Accounted op req done f
    refine Triple.bind (allow_triple (q := Admitted) fun f l h => ⟨h.1.admitScope, h.2⟩) fun answer => ?_
    cases answer with
    | false =>
      simp only [Bool.false_eq_true, if_false]
      exact static_triple .circuitOpen fun f l h => ⟨h.1, h.2.1.mono, h.2.2⟩
    | true =>
      simp only [if_true]
      let Waiting (f : Frame R) (l : List Event) : Prop :=
        Ledger 0 0 f l ∧ Admitting op req (done ++ [plugin]) f ∧ Accounted op req done f ∧
          scopeOf op req plugin.id ∈ f.circuitScopes ∧ ∀ p ∈ f.runnable, p ∈ done
      have hwaiting : ∀ f l, Admitted f l →
          Waiting { f with circuitScopes := f.circuitScopes.insert (scopeOf op req plugin.id) } l := by
        rintro f l ⟨hl, ha, hc⟩
        refine ⟨hl.addScope (ha.scope_notMem hnew), ha.addScope hnew, ⟨hc.providers, hc.immediate_of⟩, ?_,
          ha.runnable_of⟩
        exact List.mem_insert_self
      refine Triple.bind (onFrame_triple hwaiting) fun _ => ?_
      let Taken (f : Frame R) (l : List Event) : Prop :=
        Ledger {(Lane.ofProvider plugin.id, 1)} 0 f l ∧ Admitting op req (done ++ [plugin]) f ∧ Accounted op req done f ∧
          scopeOf op req plugin.id ∈ f.circuitScopes ∧ ∀ p ∈ f.runnable, p ∈ done
      refine Triple.bind (Triple.weaken (tryAcquire_triple (p := Waiting) (q := Taken) (by decide)
        fun f l h => ⟨h.1.take, h.2⟩) (fun w hw => hw) (fun r w hw => hw) fun e w hw => ?_) fun r => ?_
      · obtain ⟨⟨he, hc⟩, hw⟩ := hw
        exact ⟨.inl ⟨he, place, hc⟩, hw.1⟩
      · cases r with
        | none => exact static_triple .providerCapacity fun f l h => ⟨h.1, h.2.1, h.2.2.1⟩
        | some reservation =>
          refine Triple.modify fun w hw => ?_
          obtain ⟨rfl, hl, ha, hc, hs, hf⟩ := hw
          exact ⟨hl.addReservation Nat.one_pos plugin, ha.addRunnable hs hf hnew, hc.addRunnable _⟩

theorem admitAll_triple (hids : (plugins.map ProviderPlugin.id).Nodup) :
    Triple (On (Loop op req [])) (admitAll settings op env req plugins) (fun _ => On (Loop op req plugins))
      (fun e w => LoopRaises op env req e ∧ On (Ledger 0 0) w) := by
  unfold admitAll
  let I (done rest : List (ProviderPlugin × Nat)) (w : World R) : Prop :=
    done ++ rest = plugins.zipIdx ∧ On (Loop op req (done.map Prod.fst)) w
  have hturn : ∀ done x rest, Triple (I done (x :: rest)) (admitPlugin settings op env req x.1 x.2)
      (fun _ => I (done ++ [x]) rest) (fun e w => LoopRaises op env req e ∧ On (Ledger 0 0) w) := by
    intro done x rest w hw
    obtain ⟨hsplit, hw⟩ := hw
    have hmap : done.map Prod.fst ++ x.1 :: rest.map Prod.fst = plugins := by
      rw [← List.map_cons, ← List.map_append, hsplit, List.zipIdx_map_fst]
    have hnew : x.1.id ∉ (done.map Prod.fst).map ProviderPlugin.id := by
      rw [← hmap, List.map_append, List.nodup_append] at hids
      intro hmem
      exact hids.2.2 _ hmem _ (by simp) rfl
    have h : Outcome _ _ (admitPlugin settings op env req x.1 x.2 w) := admitPlugin_triple x.2 hnew w hw
    refine Triple.weaken (P := fun w' => w' = w) ?_ (fun w' h => h) (fun _ w' h => h) (fun e w' h => h) w rfl
    rintro w' rfl
    rcases hr : admitPlugin settings op env req x.1 x.2 w' with ⟨e | u, w''⟩ <;> rw [hr] at h
    · exact h
    · exact ⟨by simpa using hsplit, by simpa using h⟩
  have hloop := Triple.forEach (I := I) hturn [] plugins.zipIdx
  refine Triple.weaken hloop (fun w hw => ⟨rfl, hw⟩) (fun u w hw => ?_) fun e w hw => hw
  have := hw.2
  rwa [List.nil_append, List.zipIdx_map_fst] at this

/-- The local variables once the plugins are admitted and the global units are reserved. -/
structure Ready (op : Operation Req A R) (req : Req) (f : Frame R) : Prop where
  scopes_nodup : f.circuitScopes.Nodup
  runnable_scope : ∀ p ∈ f.runnable, scopeOf op req p.id ∈ f.circuitScopes
  runnable_nodup : (f.runnable.map ProviderPlugin.id).Nodup
  holds : f.runnable ≠ [] → held f ≠ 0

/-- The condition between the two halves of the `try` block. -/
def Admission (op : Operation Req A R) (req : Req) (plugins : List ProviderPlugin) (f : Frame R) (log : List Event) :
    Prop :=
  Ledger 0 0 f log ∧ Ready op req f ∧ Accounted op req plugins f ∧ f.tasks = []

theorem Admitting.ready {done : List ProviderPlugin} {f : Frame R} (h : Admitting op req done f) : Ready op req f where
  scopes_nodup := h.scopes_nodup
  runnable_scope := h.runnable_scope
  runnable_nodup := h.runnable_nodup
  holds := fun hne hz => by
    have hlen := h.runnable_length
    have hnil : f.providerReservations = [] := by
      rw [held, Multiset.coe_eq_zero, List.map_eq_nil_iff, reservations, List.append_eq_nil_iff] at hz
      exact hz.1
    rw [hnil] at hlen
    exact hne (List.length_eq_zero_iff.1 hlen)

/-- How the admission can raise. -/
def AdmissionRaises (op : Operation Req A R) (env : Schedule Req A) (req : Req) (e : Raised) : Prop :=
  LoopRaises op env req e ∨ (e = .cancelled ∧ Cancels env.globalWaits) ∨ e = .exception serviceOverloaded

private theorem reserveGlobal_triple :
    Triple (On (Loop op req plugins)) (reserveGlobal settings env) (fun _ => On (Admission op req plugins))
      (fun e w => AdmissionRaises op env req e ∧ On (Ledger 0 0) w) := by
  intro w hw
  unfold reserveGlobal
  rw [bind_run, get_run]
  dsimp only
  obtain ⟨hl, ha, hc⟩ := hw
  by_cases hpos : 0 < w.frame.runnable.length
  · rw [if_pos hpos]
    have hn : (0 : Int) < w.frame.runnable.length := Int.natCast_pos.2 hpos
    let Units (f : Frame R) (l : List Event) : Prop :=
      Ledger {(Lane.global, w.frame.runnable.length)} 0 f l ∧ Admitting op req plugins f ∧ Accounted op req plugins f
    refine (?_ : Triple (On (Loop op req plugins)) _ (fun _ => On (Admission op req plugins))
      fun e w => AdmissionRaises op env req e ∧ On (Ledger 0 0) w) w ⟨hl, ha, hc⟩
    refine Triple.bind (Triple.weaken (tryAcquire_triple (p := Loop op req plugins) (q := Units) hn
      fun f l h => ⟨h.1.take, h.2⟩) (fun w hw => hw) (fun r w hw => hw) fun e w hw => ?_) fun r => ?_
    · obtain ⟨⟨he, hcancel⟩, hl, -⟩ := hw
      exact ⟨.inr (.inl ⟨he, hcancel⟩), hl⟩
    · cases r with
      | none => exact Triple.raise fun w hw => ⟨.inr (.inr rfl), hw.1⟩
      | some reservation =>
        refine Triple.modify fun w' hw' => ?_
        obtain ⟨rfl, hl, ha, hc⟩ := hw'
        refine ⟨hl.setGlobal ha.noGlobal hpos, ?_, ⟨hc.providers, hc.immediate_of⟩, ha.tasks⟩
        exact ⟨ha.scopes_nodup, ha.runnable_scope, ha.runnable_nodup,
          fun _ => by simp [held, reservations, World.onFrame]⟩
  · rw [if_neg hpos]
    exact ⟨hl, ha.ready, hc, ha.tasks⟩

theorem admission_triple (hids : (plugins.map ProviderPlugin.id).Nodup) :
    Triple (On (Loop op req [])) (admission settings op env req plugins) (fun _ => On (Admission op req plugins))
      (fun e w => AdmissionRaises op env req e ∧ On (Ledger 0 0) w) := by
  unfold admission
  refine Triple.bind (Triple.weaken (admitAll_triple hids) (fun w hw => hw) (fun _ w hw => hw)
    fun e w hw => ⟨.inl hw.1, hw.2⟩) fun _ => ?_
  exact reserveGlobal_triple

/-! The second half. -/

/-- The places of the tasks in the order their results are read. -/
def readingOrder (env : Schedule Req A) (req : Req) (n : Nat) : List Nat :=
  env.order ((List.range n).filter fun i => (env.task i req).isSome) ++
    env.order ((List.range n).filter fun i => (env.task i req).isNone)

theorem readingOrder_perm (env : Schedule Req A) (req : Req) (n : Nat) :
    (readingOrder env req n).Perm (List.range n) := by
  have hnone : ((List.range n).filter fun i => (env.task i req).isNone) =
      (List.range n).filter fun i => !(env.task i req).isSome :=
    List.filter_congr fun i _ => by cases env.task i req <;> rfl
  refine ((env.order_perm _).append (env.order_perm _)).trans ?_
  rw [hnone]
  exact List.filter_append_perm ..

/-- The results of the tasks of the runnable plugins. -/
def taskResults (op : Operation Req A R) (env : Schedule Req A) (req : Req) (deadlineMs : Int)
    (runnable : List ProviderPlugin) : Except Exn (List R) :=
  collect op env req deadlineMs (runnable.map fun plugin => { plugin, done := false })
    (readingOrder env req runnable.length)

theorem taskResults_providers {runnable : List ProviderPlugin} {results : List R}
    (h : taskResults op env req deadlineMs runnable = .ok results) :
    (results.map ProviderResult.provider).Perm (runnable.map ProviderPlugin.id) := by
  rw [collect_providers h]
  let tasks : List ProviderTask := runnable.map fun plugin => { plugin, done := false }
  have hperm : (readingOrder env req runnable.length).Perm (List.range tasks.length) := by
    rw [List.length_map]
    exact readingOrder_perm env req runnable.length
  have hids : tasks.map (fun task => task.plugin.id) = runnable.map ProviderPlugin.id := by
    rw [List.map_map]
    rfl
  rw [← hids]
  exact filterMap_range_perm hperm

/-- While the tasks run. -/
def Running (op : Operation Req A R) (req : Req) (runnable : List ProviderPlugin) (immediate : List R) (f : Frame R)
    (log : List Event) : Prop :=
  Ledger 0 0 f log ∧ Ready op req f ∧ f.runnable = runnable ∧ f.immediateResults = immediate

private theorem Running.finish {runnable : List ProviderPlugin} {immediate : List R} {f : Frame R} {log : List Event}
    (h : Running op req runnable immediate f log) (p : Nat → Bool) :
    Running op req runnable immediate (finish p f) log :=
  ⟨h.1.finish p, ⟨h.2.1.scopes_nodup, h.2.1.runnable_scope, h.2.1.runnable_nodup, h.2.1.holds⟩, h.2.2⟩

/-- How `fanOut` can raise: the deadline has no float, the caller is cancelled, a result the runner makes is not
accepted, or the delay of a rate limit has no float. -/
def FanOutRaises (settings : Settings) (op : Operation Req A R) (env : Schedule Req A) (req : Req) (deadlineMs : Int)
    (runnable : List ProviderPlugin) (e : Raised) : Prop :=
  (e = .exception .overflowError ∧ ¬ FitsFloat (max deadlineMs 1) 1000) ∨
  (e = .cancelled ∧ (env.waitCancelled = true ∨ env.deadlineGather.cancelled = true)) ∨
  (∃ exc, e = .exception exc ∧ FitsFloat (max deadlineMs 1) 1000 ∧
    taskResults op env req deadlineMs runnable = .error exc) ∨
  ∃ exc results, e = .exception exc ∧ taskResults op env req deadlineMs runnable = .ok results ∧
    ∃ r ∈ results, ∃ info ∈ rateLimited r, rateLimitDelay settings.circuit info = .error exc

/-- The wait leaves everything alone that does not depend on which tasks are done. -/
theorem waitForResults_triple {runnable : List ProviderPlugin} {I : Frame R → List Event → Prop}
    (hf : FitsFloat (max deadlineMs 1) 1000) (hfinish : ∀ f l p, I f l → I (finish p f) l) :
    Triple (On fun f l => I f l ∧ f.tasks = runnable.map fun plugin => { plugin, done := false })
      (waitForResults op env req deadlineMs)
      (fun results w => taskResults op env req deadlineMs runnable = .ok results ∧ On I w)
      (fun e w => FanOutRaises settings op env req deadlineMs runnable e ∧ On I w) := by
  intro w hw
  obtain ⟨hrun, htasks⟩ := hw
  have hlen : w.frame.tasks.length = runnable.length := by rw [htasks, List.length_map]
  unfold waitForResults
  rw [bind_run, get_run]
  dsimp only
  rw [hlen]
  by_cases hnil : List.range runnable.length = []
  · rw [if_pos hnil]
    have hzero : runnable = [] := by
      rw [List.range_eq_nil] at hnil
      exact List.length_eq_zero_iff.1 hnil
    refine ⟨?_, hrun⟩
    have horder : readingOrder env req 0 = [] := (readingOrder_perm env req 0).eq_nil
    subst hzero
    unfold taskResults
    rw [List.length_nil, horder]
    rfl
  · rw [if_neg hnil]
    have htriple : Triple (On I) (do
        Eff.modify (World.onShared env.waitOthers)
        Eff.modify (World.onFrame (finish fun i => (env.task i req).isSome))
        if env.waitCancelled then
          gather env.abortGather
          Eff.raise .cancelled
        else
          let done := (List.range runnable.length).filter fun i => (env.task i req).isSome
          let pending := (List.range runnable.length).filter fun i => (env.task i req).isNone
          let results ← ofExcept (collect op env req deadlineMs w.frame.tasks (env.order done ++ env.order pending))
          if pending ≠ [] then gather env.deadlineGather
          pure results)
        (fun results w => taskResults op env req deadlineMs runnable = .ok results ∧
          On I w)
        (fun e w => FanOutRaises settings op env req deadlineMs runnable e ∧ On I w) := by
      refine Triple.bind onShared_triple fun _ => ?_
      refine Triple.bind (onFrame_triple fun f l h => hfinish f l _ h) fun _ => ?_
      cases hcancel : env.waitCancelled with
      | true =>
        refine Triple.bind (Triple.weaken (gather_triple (fun f l h => hfinish f l _ h) fun _ f l h => hfinish f l _ h)
          (fun w hw => hw) (fun _ w hw => hw.2) fun e w hw => ?_) fun _ => ?_
        · exact ⟨.inr (.inl ⟨hw.1.1, .inl hcancel⟩), hw.2⟩
        · exact Triple.raise fun w hw => ⟨.inr (.inl ⟨rfl, .inl hcancel⟩), hw⟩
      | false =>
        dsimp only
        rw [htasks]
        refine Triple.bind (Triple.weaken ofExcept_triple (fun w hw => hw) (fun _ w hw => hw) fun e w hw => ?_)
          fun results => ?_
        · obtain ⟨⟨exc, he, hx⟩, hw⟩ := hw
          exact ⟨.inr (.inr (.inl ⟨exc, he, hf, hx⟩)), hw⟩
        · intro w' hw'
          obtain ⟨hresults, hw'⟩ := hw'
          have hreturn : Triple (On I) (pure results)
              (fun results w => taskResults op env req deadlineMs runnable = .ok results ∧
                On I w)
              (fun e w => FanOutRaises settings op env req deadlineMs runnable e ∧ On I w) :=
            Triple.pure fun w hw => ⟨hresults, hw⟩
          split
          · have hgather : Triple (On I) (gather env.deadlineGather : Run R Unit)
                (fun _ => On I)
                (fun e w => FanOutRaises settings op env req deadlineMs runnable e ∧ On I w) :=
              Triple.weaken (gather_triple (fun f l h => hfinish f l _ h) fun _ f l h => hfinish f l _ h)
                (fun w hw => hw) (fun _ w hw => hw.2) fun e w hw => ⟨.inr (.inl ⟨hw.1.1, .inr hw.1.2⟩), hw.2⟩
            exact Triple.bind hgather (fun _ => hreturn) w' hw'
          · exact hreturn w' hw'
    exact htriple w hrun

/-- While the results are recorded: what `rest` names is still in the set, once. -/
def Recording (op : Operation Req A R) (req : Req) (runnable : List ProviderPlugin) (immediate rest : List R)
    (f : Frame R) (log : List Event) : Prop :=
  Ledger 0 0 f log ∧ f.circuitScopes.Nodup ∧ (rest.map ProviderResult.provider).Nodup ∧
    (∀ r ∈ rest, scopeOf op req (ProviderResult.provider r) ∈ f.circuitScopes) ∧ f.runnable = runnable ∧
    f.immediateResults = immediate

private theorem recordOne_triple {runnable : List ProviderPlugin} {immediate rest : List R} {r : R} :
    Triple (On (Recording op req runnable immediate (r :: rest))) (do
        recordResult settings env (scopeOf op req (ProviderResult.provider r)) r
        Eff.modify (World.onFrame fun f =>
          { f with circuitScopes := f.circuitScopes.erase (scopeOf op req (ProviderResult.provider r)) }))
      (fun _ w => (∀ info ∈ rateLimited r, ∀ exc, rateLimitDelay settings.circuit info ≠ .error exc) ∧
        On (Recording op req runnable immediate rest) w)
      (fun e w => (∃ exc, e = .exception exc ∧
        ∃ info ∈ rateLimited r, rateLimitDelay settings.circuit info = .error exc) ∧ On (Ledger 0 0) w) := by
  -- `recorded` is in the log one step before its scope leaves the set
  let Logged (f : Frame R) (l : List Event) : Prop :=
    Recording op req runnable immediate rest
      { f with circuitScopes := f.circuitScopes.erase (scopeOf op req (ProviderResult.provider r)) } l
  have hlogged : ∀ f l, Recording op req runnable immediate (r :: rest) f l →
      Logged f (l ++ [.recorded (scopeOf op req (ProviderResult.provider r))]) := by
    rintro f l ⟨hl, hn, hd, hm, hr, hi⟩
    rw [List.map_cons, List.nodup_cons] at hd
    refine ⟨hl.record (hm r (List.mem_cons_self ..)), hn.erase _, hd.2, fun x hx => ?_, hr, hi⟩
    have hne : scopeOf op req (ProviderResult.provider x) ≠ scopeOf op req (ProviderResult.provider r) := by
      intro e
      exact hd.1 (scopeOf_injective e ▸ List.mem_map_of_mem hx)
    exact (List.mem_erase_of_ne hne).2 (hm x (List.mem_cons_of_mem _ hx))
  refine Triple.bind (Triple.weaken (recordResult_triple hlogged) (fun w hw => hw) (fun _ w hw => hw)
    fun e w hw => ⟨hw.1, hw.2.1⟩) fun _ => ?_
  exact Triple.modify fun w hw => hw

private theorem recordResults_triple {runnable : List ProviderPlugin} {immediate results : List R} :
    Triple (On (Recording op req runnable immediate results)) (recordResults settings op env req results)
      (fun _ w => (∀ r ∈ results, ∀ info ∈ rateLimited r, ∀ exc, rateLimitDelay settings.circuit info ≠ .error exc) ∧
        On (Recording op req runnable immediate []) w)
      (fun e w => (∃ exc, e = .exception exc ∧
        ∃ r ∈ results, ∃ info ∈ rateLimited r, rateLimitDelay settings.circuit info = .error exc) ∧
        On (Ledger 0 0) w) := by
  unfold recordResults
  induction results with
  | nil => exact Triple.pure fun w hw => ⟨by simp, hw⟩
  | cons r rest ih =>
    refine Triple.bind (Triple.weaken recordOne_triple (fun w hw => hw) (fun _ w hw => hw) fun e w hw => ?_)
      fun _ => ?_
    · obtain ⟨⟨exc, he, hi⟩, hw⟩ := hw
      exact ⟨⟨exc, he, r, List.mem_cons_self .., hi⟩, hw⟩
    · intro w hw
      obtain ⟨hr, hw⟩ := hw
      refine Triple.weaken ih (fun w hw => hw) ?_ ?_ w hw
      · intro _ w hw
        refine ⟨fun x hx => ?_, hw.2⟩
        rcases List.mem_cons.1 hx with rfl | hx
        · exact hr
        · exact hw.1 x hx
      · intro e w hw
        obtain ⟨⟨exc, he, x, hx, hi⟩, hw⟩ := hw
        exact ⟨⟨exc, he, x, List.mem_cons_of_mem _ hx, hi⟩, hw⟩

/-- A return of `fanOut`: every task has its result, every result could be recorded, and the immediate results
follow. -/
def FanOutReturns (settings : Settings) (op : Operation Req A R) (env : Schedule Req A) (req : Req) (deadlineMs : Int)
    (runnable : List ProviderPlugin) (immediate returned : List R) : Prop :=
  FitsFloat (max deadlineMs 1) 1000 ∧ ∃ results, taskResults op env req deadlineMs runnable = .ok results ∧
    returned = results ++ immediate ∧
    ∀ r ∈ results, ∀ info ∈ rateLimited r, ∀ exc, rateLimitDelay settings.circuit info ≠ .error exc

theorem fanOut_triple {runnable : List ProviderPlugin} {immediate : List R} :
    Triple (On fun f l => Admission op req plugins f l ∧ f.runnable = runnable ∧ f.immediateResults = immediate)
      (fanOut settings op env req deadlineMs)
      (fun returned w => FanOutReturns settings op env req deadlineMs runnable immediate returned ∧ On (Ledger 0 0) w)
      (fun e w => FanOutRaises settings op env req deadlineMs runnable e ∧ On (Ledger 0 0) w) := by
  unfold fanOut
  refine Triple.bind (Triple.weaken ofExcept_triple (fun w hw => hw) (fun _ w hw => hw) fun e w hw => ?_) fun q => ?_
  · obtain ⟨⟨exc, he, hx⟩, hw⟩ := hw
    refine ⟨.inl ?_, hw.1.1⟩
    by_cases hf : FitsFloat (max deadlineMs 1) 1000
    · rw [divide_thousand_of_fits hf] at hx
      cases hx
    · rw [divide_thousand_of_not_fits hf] at hx
      cases hx
      exact ⟨he, hf⟩
  · intro w hw
    obtain ⟨hq, hw⟩ := hw
    have hf : FitsFloat (max deadlineMs 1) 1000 := (divide_eq_ok hq).2
    have hcreate : Triple (On fun f l => Admission op req plugins f l ∧ f.runnable = runnable ∧
        f.immediateResults = immediate) (createTasks : Run R Unit)
        (fun _ => On fun f l => Running op req runnable immediate f l ∧
          f.tasks = runnable.map fun plugin => { plugin, done := false })
        (fun e w => FanOutRaises settings op env req deadlineMs runnable e ∧ On (Ledger 0 0) w) := by
      refine Triple.modify fun w hw => ?_
      obtain ⟨⟨hl, hready, -, -⟩, hr, hi⟩ := hw
      refine ⟨⟨hl.start hready.holds w.frame.runnable, ?_, hr, hi⟩, by rw [← hr]⟩
      exact ⟨hready.scopes_nodup, hready.runnable_scope, hready.runnable_nodup, hready.holds⟩
    have hrest : ∀ results, Triple
        (fun w => taskResults op env req deadlineMs runnable = .ok results ∧ On (Running op req runnable immediate) w)
        (do
          recordResults settings op env req results
          let w ← Eff.get
          pure (results ++ w.frame.immediateResults))
        (fun returned w => FanOutReturns settings op env req deadlineMs runnable immediate returned ∧
          On (Ledger 0 0) w)
        (fun e w => FanOutRaises settings op env req deadlineMs runnable e ∧ On (Ledger 0 0) w) := by
      intro results w hw
      obtain ⟨hresults, hl, hready, hr, hi⟩ := hw
      have hperm := taskResults_providers hresults
      have hrecording : On (Recording op req runnable immediate results) w := by
        refine ⟨hl, hready.scopes_nodup, hperm.nodup_iff.2 (hr ▸ hready.runnable_nodup), fun x hx => ?_, hr, hi⟩
        have hmem := hperm.mem_iff.1 (List.mem_map_of_mem hx)
        obtain ⟨p, hp, e⟩ := List.mem_map.1 hmem
        rw [← e]
        exact hready.runnable_scope p (hr ▸ hp)
      refine Triple.bind (Triple.weaken recordResults_triple (fun w hw => hw) (fun _ w hw => hw) fun e w hw => ?_)
        (fun _ => ?_) w hrecording
      · obtain ⟨⟨exc, he, x, hx, hinfo⟩, hw⟩ := hw
        exact ⟨.inr (.inr (.inr ⟨exc, results, he, hresults, x, hx, hinfo⟩)), hw⟩
      · intro w hw
        obtain ⟨hfits, hl, -, -, -, -, hi⟩ := hw
        exact ⟨⟨hf, results, hresults, by rw [hi], hfits⟩, hl⟩
    have hwait : Triple (On fun f l => Running op req runnable immediate f l ∧
          f.tasks = runnable.map fun plugin => { plugin, done := false })
        (waitForResults op env req deadlineMs)
        (fun results w => taskResults op env req deadlineMs runnable = .ok results ∧
          On (Running op req runnable immediate) w)
        (fun e w => FanOutRaises settings op env req deadlineMs runnable e ∧ On (Ledger 0 0) w) :=
      Triple.weaken (waitForResults_triple hf fun f l p h => h.finish p) (fun w hw => hw) (fun _ w hw => hw)
        fun e w hw => ⟨hw.1, hw.2.1⟩
    exact Triple.bind hcreate (fun _ => Triple.bind hwait hrest) w hw

theorem body_triple (hids : (plugins.map ProviderPlugin.id).Nodup) :
    Triple (On (Loop op req [])) (body settings op env req plugins deadlineMs) (fun _ => On (Ledger 0 0))
      (fun _ => On (Ledger 0 0)) := by
  unfold body
  refine Triple.bind (Triple.weaken (admission_triple hids) (fun w hw => hw) (fun _ w hw => hw)
    fun e w hw => hw.2) fun _ => ?_
  intro w hw
  exact Triple.weaken fanOut_triple (fun w hw => hw) (fun _ w hw => hw.2) (fun e w hw => hw.2) w ⟨hw, rfl, rfl⟩

end TryBlock

/-! ### The clean-up -/

section Cleanup

variable {Req A R : Type} {env : Schedule Req A}

/-- During the clean-up: `units` and `scopes` are still to be given back. -/
structure Owed (units : Multiset (Lane × Nat)) (scopes : List CircuitScope) (log : List Event) : Prop where
  units_eq : acquired log = released log + units
  scopes_eq : admitted log = ended log + ↑scopes
  quiet : .cleanupCancelled ∉ log

private theorem releaseProbes_triple
    {units : Multiset (Lane × Nat)} {scopes : List CircuitScope} {E : Raised → World R → Prop} :
    Triple (On fun _ => Owed units scopes) (forEach releaseProbe scopes) (fun _ => On fun _ => Owed units []) E := by
  induction scopes with
  | nil => exact Triple.pure fun w hw => hw
  | cons scope rest ih =>
    refine Triple.bind (releaseProbe_triple (q := fun _ => Owed units rest) fun f l h => ⟨?_, ?_, ?_⟩) fun _ => ih
    · simp [h.units_eq]
    · rw [admitted_append, ended_append, h.scopes_eq, ← Multiset.cons_coe, ← Multiset.singleton_add]
      simp [add_assoc]
    · simpa using h.quiet

private theorem releaseAll_triple {rs : List (Lane × LimitReservation)} {E : Raised → World R → Prop}
    (hrs : ∀ r ∈ rs, r.2.released = false ∧ 0 < r.2.units) :
    Triple (On fun _ => Owed ↑(rs.map fun r => (r.1, r.2.units)) [])
      (forEach (fun r => do let _ ← Limiter.release (World.site r.1) r.2) rs) (fun _ => On fun _ => Owed 0 []) E := by
  induction rs with
  | nil => exact Triple.pure fun w hw => hw
  | cons r rest ih =>
    have hr := hrs r (List.mem_cons_self ..)
    refine Triple.bind (release_triple (q := fun _ => Owed ↑(rest.map fun r => (r.1, r.2.units)) []) hr.1 hr.2
      fun f l h => ⟨?_, ?_, ?_⟩) fun _ => ih fun x hx => hrs x (List.mem_cons_of_mem _ hx)
    · rw [acquired_append, released_append, h.units_eq, List.map_cons, ← Multiset.cons_coe, ← Multiset.singleton_add]
      simp [add_assoc]
    · simp [h.scopes_eq]
    · simpa using h.quiet

private theorem Ledger.owed {f : Frame R} {log : List Event} (h : Ledger 0 0 f log) :
    Owed (held f) f.circuitScopes log :=
  ⟨by rw [h.units_eq, add_zero], by rw [h.scopes_eq, add_zero], h.quiet⟩

private theorem Owed.balanced {log : List Event} (h : Owed 0 [] log) : Balanced log :=
  ⟨by rw [h.units_eq, add_zero], by rw [h.scopes_eq]; exact (add_zero _).symm⟩

/-- Units that are still held when the clean-up is cancelled are missing from the log. -/
private theorem Ledger.not_balanced {f : Frame R} {log : List Event} (h : Ledger 0 0 f log) (hf : held f ≠ 0) :
    ¬ Balanced (log ++ [.cleanupCancelled]) := by
  have hr : released [Event.cleanupCancelled] = 0 := rfl
  have ha : acquired [Event.cleanupCancelled] = 0 := rfl
  have heq := h.units_eq
  rintro ⟨hunits, -⟩
  rw [released_append, acquired_append, hr, ha, add_zero, add_zero] at hunits
  rw [add_zero, ← hunits] at heq
  exact hf (left_eq_add.1 heq)

theorem cleanup_triple : Triple (On (Ledger 0 0)) (cleanup env : Run R Unit)
    (fun _ w => Balanced w.log ∧ .cleanupCancelled ∉ w.log)
    (fun e w => (e = .cancelled ∧ env.cleanupGather.cancelled = true) ∧ ¬ Balanced w.log ∧
      .cleanupCancelled ∈ w.log) := by
  intro w hw
  unfold cleanup
  rw [bind_run, get_run]
  dsimp only
  let frame := w.frame
  have hrest : Triple (On fun _ => Owed (held frame) frame.circuitScopes) (do
      forEach releaseProbe frame.circuitScopes
      forEach (fun r => do let _ ← Limiter.release (World.site r.1) r.2) (reservations frame) : Run R Unit)
      (fun _ w => Balanced w.log ∧ .cleanupCancelled ∉ w.log)
      (fun e w => (e = .cancelled ∧ env.cleanupGather.cancelled = true) ∧ ¬ Balanced w.log ∧
        .cleanupCancelled ∈ w.log) := by
    refine Triple.bind releaseProbes_triple fun _ => ?_
    exact Triple.weaken (releaseAll_triple hw.unreleased) (fun w hw => hw) (fun _ w hw => ⟨hw.balanced, hw.quiet⟩)
      fun e w hw => hw
  by_cases hpending : (w.frame.tasks.any fun task => !task.done) = true
  · rw [if_pos hpending]
    have hheld : held frame ≠ 0 := by
      refine hw.holds fun hnil => ?_
      rw [hnil] at hpending
      cases hpending
    cases hcancel : env.cleanupGather.cancelled with
    | true =>
      -- the reservations are still held, and nothing after the `gather` runs
      simp only [if_true]
      let Leaked (_ : Frame R) (l : List Event) : Prop := ¬ Balanced l ∧ .cleanupCancelled ∈ l
      have hleaked : On Leaked (w.logEvent .cleanupCancelled) :=
        ⟨Ledger.not_balanced hw hheld, List.mem_append_right _ (List.mem_singleton_self _)⟩
      have hgather : Triple (On Leaked) (gather env.cleanupGather : Run R Unit) (fun _ _ => False)
          (fun e w => (e = .cancelled ∧ True) ∧ ¬ Balanced w.log ∧ .cleanupCancelled ∈ w.log) := by
        refine Triple.weaken (gather_triple (q := Leaked) (fun f l h => h) fun _ f l h => h) (fun w hw => hw)
          (fun _ w hw => ?_) fun e w hw => ⟨⟨hw.1.1, trivial⟩, hw.2⟩
        rw [hcancel] at hw
        cases hw.1
      rw [bind_run, modify_run]
      exact Triple.bind hgather (fun _ w hw => hw.elim) _ hleaked
    | false =>
      simp only [Bool.false_eq_true, if_false]
      have hgather : Triple (On fun _ => Owed (held frame) frame.circuitScopes) (gather env.cleanupGather : Run R Unit)
          (fun _ => On fun _ => Owed (held frame) frame.circuitScopes)
          (fun e w => (e = .cancelled ∧ False) ∧ ¬ Balanced w.log ∧ .cleanupCancelled ∈ w.log) := by
        refine Triple.weaken (gather_triple (fun f l h => h) fun _ f l h => h) (fun w hw => hw) (fun _ w hw => hw.2)
          fun e w hw => ?_
        rw [hcancel] at hw
        cases hw.1.2
      rw [hcancel] at hrest
      simp only [Bool.false_eq_true] at hrest
      exact Triple.bind hgather (fun _ => hrest) w hw.owed
  · rw [if_neg hpending]
    exact hrest w hw.owed

end Cleanup

/-! ### The whole call -/

section Whole

variable {Req A R : Type} [ProviderResult R] {settings : Settings} {op : Operation Req A R} {env : Schedule Req A}
  {req : Req} {plugins : List ProviderPlugin} {deadlineMs : Int}

theorem enter_loop (w : World R) : On (Loop op req []) (enter w) where
  left := ⟨rfl, rfl, by simp [enter, reservations], fun h => absurd rfl h, by simp [enter]⟩
  right := by
    refine ⟨⟨rfl, rfl, List.nodup_nil, ?_, ?_, List.nodup_nil, ?_, rfl⟩, ⟨List.Perm.refl _, ?_⟩⟩ <;>
      simp [enter]

/-- Whatever the schedule does, once a call has returned or raised every unit it took was given back and every scope
it was admitted to was ended, exactly once, if and only if the caller was not cancelled while the `finally` block
awaited its unfinished tasks. -/
theorem runOperation_leaks_nothing_iff (hids : (plugins.map ProviderPlugin.id).Nodup) (w : World R) :
    Balanced (runOperation settings op env req plugins deadlineMs w).2.log ↔
      .cleanupCancelled ∉ (runOperation settings op env req plugins deadlineMs w).2.log := by
  have htriple : Triple (On (Loop op req [])) (Eff.tryFinally (body settings op env req plugins deadlineMs) (cleanup env))
      (fun _ w => Balanced w.log ↔ .cleanupCancelled ∉ w.log)
      (fun _ w => Balanced w.log ↔ .cleanupCancelled ∉ w.log) := by
    refine Triple.tryFinally (M := fun _ => On (Ledger 0 0)) (body_triple hids) fun r => ?_
    refine Triple.weaken cleanup_triple (fun w hw => hw) (fun _ w hw => ?_) fun e w hw => ?_
    · cases r with
      | ok a => exact iff_of_true hw.1 hw.2
      | error e => exact iff_of_true hw.1 hw.2
    · exact iff_of_false hw.2.1 (not_not.2 hw.2.2)
  have h := htriple (enter w) (enter_loop w)
  unfold runOperation
  rw [bind_run, modify_run]
  dsimp only
  rcases hr : Eff.tryFinally (body settings op env req plugins deadlineMs) (cleanup env) (enter w) with ⟨e | a, w'⟩ <;>
    rw [hr] at h <;> exact h

end Whole

end Runner

/-- The schedule in which nobody else interferes, nobody waits and nobody is cancelled. -/
def Schedule.quiet {Req A : Type} (task : Nat → Req → Option (PluginRun A)) : Schedule Req A where
  clock n := n
  laneWaits _ := []
  globalWaits := []
  waitOthers := id
  waitCancelled := false
  task := task
  order := id
  order_perm := fun l => List.Perm.refl l
  abortGather := ⟨id, false, fun _ => true⟩
  deadlineGather := ⟨id, false, fun _ => true⟩
  cleanupGather := ⟨id, false, fun _ => true⟩

def World.new {R : Type} (settings : Settings) : World R := ⟨.new settings, 0, {}, []⟩

/-- Two plugins for the examples. -/
def Example.curve : ProviderPlugin := ⟨"curve", true, true, [1], true, none⟩

def Example.lifi : ProviderPlugin := ⟨"lifi", true, true, [1], true, none⟩

def Example.plugins : List ProviderPlugin := [Example.curve, Example.lifi]

/-- A quote request whose amount has been converted to more than an unsigned 256-bit integer holds. -/
private def oversizedQuote : ProviderQuoteRequest where
  chainId := 1
  tokenIn := { chainId := 1, address := "0x1" }
  tokenOut := { chainId := 1, address := "0x2" }
  amountIn := 2 ^ 256

/-- The caller is cancelled in `asyncio.wait` and again while it awaits the tasks it has cancelled. -/
theorem runOperation_leaks_nothing_cancelled_twice :
    Runner.Balanced (Runner.runOperation .default priceOperation
      { Schedule.quiet (fun _ _ => none) with waitCancelled := true, abortGather := ⟨id, true, fun _ => true⟩ }
      { chainId := 1, token := { chainId := 1, address := "0x1" } } Example.plugins 1000 (.new .default)).2.log :=
  (Runner.runOperation_leaks_nothing_iff (by decide) _).2 (by decide +kernel)

/-- One plugin is not done at the deadline and its deadline result is not accepted, so the task is pending when the
`finally` block starts.  A cancellation of the caller while that block awaits the task leaves the unit of the lane,
the global unit and the scope behind for good. -/
theorem runOperation_leaks :
    (Runner.runOperation .default quoteOperation
      { Schedule.quiet (fun _ _ => none) with cleanupGather := ⟨id, true, fun _ => true⟩ }
      oversizedQuote [Example.curve] 1100 (.new .default)).2.log =
        [.admitted ⟨"curve", 1, "quote"⟩, .acquired (.provider "curve") 1, .acquired .global 1, .started "curve",
          .cleanupCancelled] ∧
      ¬ Runner.Balanced [.admitted ⟨"curve", 1, "quote"⟩, .acquired (.provider "curve") 1, .acquired .global 1,
          .started "curve", .cleanupCancelled] := by
  constructor <;> decide +kernel

end TokenPriceAgg

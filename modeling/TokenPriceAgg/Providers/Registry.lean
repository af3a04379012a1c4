import TokenPriceAgg.Lib.Dict
import TokenPriceAgg.Providers.Adapters
import Mathlib.Data.List.Sort
import Mathlib.Data.String.Basic

/-!
# The registry of the providers

The plugins that the settings enable, each under its own identifier, and `resolve`, which picks those of a request: the
named ones in the order of their names in the request, whether they are available or not, or else all that can do the
operation on the chain, in alphabetical order (`resolve_ok`).  A request that names a chain or a provider that is not
there is refused (`resolve_error`).
-/

namespace TokenPriceAgg

open PyLib

/-- The settings the registry reads. -/
structure RegistrySettings where
  chainIds : List Int
  providersEnabled : List String
  lifiApiKey : Option String
  ensoApiKey : Option String

/-- `supported_chains` of every adapter. -/
def supportedChains : List Int := [1, 10, 100, 137, 42161, 43114]

def PriceAdapter.id : PriceAdapter → String
  | .defiLlama => DefiLlamaProvider.id
  | .curve => CurveProvider.id
  | .liFi => LiFiProvider.id
  | .enso => EnsoProvider.id

@[simp] theorem PriceAdapter.plugin_id (registration : Registration) (adapter : PriceAdapter) :
    (adapter.plugin registration).id = adapter.id := by
  cases adapter <;> rfl

namespace RegistrySettings

variable (settings : RegistrySettings)

def enabledChains : List Int := supportedChains.filter (· ∈ settings.chainIds)

/-- An adapter that needs an API key. -/
def keyed (apiKey : Option String) : Registration :=
  let available := apiKey.isSome && apiKey != some ""
  { enabledChains := settings.enabledChains, available
    unavailableReason := if available then none else some "missing_api_key" }

def registration : PriceAdapter → Registration
  | .defiLlama => { enabledChains := settings.enabledChains, available := true, unavailableReason := none }
  | .curve => { enabledChains := settings.enabledChains, available := true, unavailableReason := none }
  | .liFi => settings.keyed settings.lifiApiKey
  | .enso => settings.keyed settings.ensoApiKey

/-- The adapters in the order in which `_build_plugins` makes their plugins. -/
def adapters : List PriceAdapter :=
  [.defiLlama, .curve, .liFi, .enso].filter fun adapter => adapter.id ∈ settings.providersEnabled

def buildPlugins : Dict String ProviderPlugin :=
  Dict.empty.setMany (settings.adapters.map fun adapter =>
    (adapter.id, adapter.plugin (settings.registration adapter)))

/-- Every plugin stands under its own identifier. -/
private theorem buildPlugins_id
    (id : String) (plugin : ProviderPlugin) (h : settings.buildPlugins.get? id = some plugin) :
    plugin.id = id := by
  rcases Dict.get?_setMany_cases Dict.empty (settings.adapters.map fun adapter =>
    (adapter.id, adapter.plugin (settings.registration adapter))) id with ⟨-, hnone⟩ | ⟨found, hfound, hsome⟩
  · unfold buildPlugins at h
    rw [hnone] at h
    cases h
  · obtain ⟨adapter, -, heq⟩ := List.mem_map.1 hfound
    obtain ⟨rfl, rfl⟩ := Prod.mk.inj heq
    unfold buildPlugins at h
    rw [hsome] at h
    obtain rfl := Option.some.inj h
    exact PriceAdapter.plugin_id _ adapter

end RegistrySettings

inductive ProviderRegistry.Operation
  | price
  | quote
deriving DecidableEq, Repr

/-- The plugins by their identifiers. -/
structure ProviderRegistry where
  chainIds : List Int
  plugins : Dict String ProviderPlugin
  ids : ∀ id plugin, plugins.get? id = some plugin → plugin.id = id

namespace ProviderRegistry

def new (settings : RegistrySettings) : ProviderRegistry where
  chainIds := settings.chainIds
  plugins := settings.buildPlugins
  ids := settings.buildPlugins_id

def supports (plugin : ProviderPlugin) : Operation → Bool
  | .price => plugin.supportsPrice
  | .quote => plugin.supportsQuote

variable (registry : ProviderRegistry)

/-- The plugins that can do the operation on the chain. -/
def ready (operation : Operation) (chainId : Int) : List ProviderPlugin :=
  (registry.plugins.items.map Prod.snd).filter fun plugin =>
    plugin.available && decide (chainId ∈ plugin.enabledChains) && supports plugin operation

/-- `key=lambda plugin: plugin.id`. -/
def alphabetical (a b : ProviderPlugin) : Prop := a.id ≤ b.id

instance (a b : ProviderPlugin) : Decidable (alphabetical a b) := inferInstanceAs (Decidable (_ ≤ _))

instance : Std.Total alphabetical where
  total a b := le_total a.id b.id

instance : IsTrans ProviderPlugin alphabetical where
  trans _ _ _ := le_trans

def lookup (providerId : String) : Except Exn ProviderPlugin :=
  match registry.plugins.get? providerId with
  | some plugin => .ok plugin
  | none => .error (.invalidRequest "UNKNOWN_PROVIDER" ("Unknown provider: " ++ providerId))

def resolve (providerIds : Option (List String)) (operation : Operation) (chainId : Int) :
    Except Exn (List ProviderPlugin) :=
  if chainId ∈ registry.chainIds then
    match providerIds with
    | none => .ok ((registry.ready operation chainId).insertionSort alphabetical)
    | some providerIds => providerIds.mapM registry.lookup
  else .error (.invalidRequest "UNSUPPORTED_CHAIN" ("Chain " ++ toString chainId ++ " is not enabled"))

variable {registry} {operation : Operation} {chainId : Int} {providerIds : Option (List String)}

private theorem mem_plugins {plugin : ProviderPlugin} :
    plugin ∈ registry.plugins.items.map Prod.snd ↔ registry.plugins.get? plugin.id = some plugin := by
  rw [List.mem_map]
  constructor
  · rintro ⟨⟨id, p⟩, hp, rfl⟩
    have hget := Dict.get?_eq_some.2 hp
    rwa [registry.ids id p hget]
  · intro h
    exact ⟨_, Dict.get?_eq_some.1 h, rfl⟩

private theorem nodup_ids : ((registry.plugins.items.map Prod.snd).map ProviderPlugin.id).Nodup := by
  have hkeys : (registry.plugins.items.map Prod.snd).map ProviderPlugin.id = registry.plugins.items.map Prod.fst := by
    rw [List.map_map]
    apply List.map_congr_left
    rintro ⟨id, plugin⟩ hmem
    exact registry.ids id plugin (Dict.get?_eq_some.2 hmem)
  rw [hkeys]
  exact registry.plugins.nodup

/-- What a request gets: the plugins it names, in its order, or all that can do the operation on the chain. -/
structure Resolves (registry : ProviderRegistry) (providerIds : Option (List String)) (operation : Operation)
    (chainId : Int) (selected : List ProviderPlugin) : Prop where
  chain : chainId ∈ registry.chainIds
  registered : ∀ plugin ∈ selected, registry.plugins.get? plugin.id = some plugin
  requested : ∀ ids, providerIds = some ids → selected.map ProviderPlugin.id = ids
  default : providerIds = none → ∀ plugin, registry.plugins.get? plugin.id = some plugin →
    (plugin ∈ selected ↔ plugin.available ∧ chainId ∈ plugin.enabledChains ∧ supports plugin operation)
  sorted : providerIds = none → (selected.map ProviderPlugin.id).Pairwise (· < ·)

private theorem lookup_ok
    {providerId : String} {plugin : ProviderPlugin} (h : registry.lookup providerId = .ok plugin) :
    registry.plugins.get? plugin.id = some plugin ∧ plugin.id = providerId := by
  unfold lookup at h
  cases hget : registry.plugins.get? providerId with
  | none =>
    rw [hget] at h
    cases h
  | some found =>
    rw [hget] at h
    obtain rfl := Except.ok.inj h
    have hid := registry.ids providerId found hget
    rw [hid]
    exact ⟨hget, rfl⟩

private theorem lookup_error {providerId : String} {e : Exn} (h : registry.lookup providerId = .error e) :
    registry.plugins.get? providerId = none ∧
      e = .invalidRequest "UNKNOWN_PROVIDER" ("Unknown provider: " ++ providerId) := by
  unfold lookup at h
  cases hget : registry.plugins.get? providerId with
  | none =>
    rw [hget] at h
    exact ⟨rfl, (Except.error.inj h).symm⟩
  | some plugin =>
    rw [hget] at h
    cases h

theorem resolve_ok {selected : List ProviderPlugin}
    (h : registry.resolve providerIds operation chainId = .ok selected) :
    Resolves registry providerIds operation chainId selected := by
  unfold resolve at h
  by_cases hchain : chainId ∈ registry.chainIds
  · rw [if_pos hchain] at h
    cases providerIds with
    | none =>
      obtain rfl := Except.ok.inj h
      have hperm := List.perm_insertionSort alphabetical (registry.ready operation chainId)
      have hids : ((registry.ready operation chainId).map ProviderPlugin.id).Nodup :=
        nodup_ids.sublist (List.filter_sublist.map _)
      refine ⟨hchain, ?_, nofun, fun _ => ?_, fun _ => ?_⟩
      · intro plugin hmem
        exact mem_plugins.1 (List.mem_of_mem_filter (hperm.mem_iff.1 hmem))
      · intro plugin hget
        rw [hperm.mem_iff]
        unfold ready
        rw [List.mem_filter, and_iff_right (mem_plugins.2 hget)]
        simp [and_assoc]
      · have hle : ((registry.ready operation chainId).insertionSort alphabetical).Pairwise alphabetical :=
          List.pairwise_insertionSort _ _
        have hle' : (((registry.ready operation chainId).insertionSort alphabetical).map ProviderPlugin.id).Pairwise
            (· ≤ ·) := List.pairwise_map.2 hle
        have hne : (((registry.ready operation chainId).insertionSort alphabetical).map ProviderPlugin.id).Nodup :=
          (hperm.map _).nodup_iff.2 hids
        exact hle'.imp₂ (fun _ _ hle hne => lt_of_le_of_ne hle hne) hne
    | some ids =>
      have hforall : List.Forall₂ (fun id plugin => registry.lookup id = .ok plugin) ids selected :=
        Eff.mapM_eq_ok.1 h
      refine ⟨hchain, ?_, ?_, nofun, nofun⟩
      · intro plugin hmem
        obtain ⟨id, -, hid⟩ := Eff.mapM_ok_mem h hmem
        exact (lookup_ok hid).1
      · intro ids' hids'
        obtain rfl := Option.some.inj hids'
        have hmap := Eff.mapM_ok_map (g := ProviderPlugin.id) (k := id) h fun id _ plugin hid => (lookup_ok hid).2
        rwa [List.map_id] at hmap
  · rw [if_neg hchain] at h
    cases h

/-- No plugin is selected twice, if none is named twice. -/
theorem Resolves.nodup {selected : List ProviderPlugin} (h : Resolves registry providerIds operation chainId selected)
    (hn : ∀ ids, providerIds = some ids → ids.Nodup) : (selected.map ProviderPlugin.id).Nodup := by
  cases hids : providerIds with
  | none => exact (h.sorted hids).imp fun hlt => ne_of_lt hlt
  | some ids =>
    rw [h.requested ids hids]
    exact hn ids hids

/-- A request is refused for its chain, or for the first of its providers that is not registered. -/
theorem resolve_error {e : Exn} (h : registry.resolve providerIds operation chainId = .error e) :
    (chainId ∉ registry.chainIds ∧
      e = .invalidRequest "UNSUPPORTED_CHAIN" ("Chain " ++ toString chainId ++ " is not enabled")) ∨
    (chainId ∈ registry.chainIds ∧ ∃ before id after, providerIds = some (before ++ id :: after) ∧
      (∀ other ∈ before, (registry.plugins.get? other).isSome) ∧ registry.plugins.get? id = none ∧
      e = .invalidRequest "UNKNOWN_PROVIDER" ("Unknown provider: " ++ id)) := by
  unfold resolve at h
  by_cases hchain : chainId ∈ registry.chainIds
  · rw [if_pos hchain] at h
    cases providerIds with
    | none => cases h
    | some ids =>
      obtain ⟨before, id, after, rfl, hbefore, hid⟩ := Eff.mapM_eq_error h
      refine .inr ⟨hchain, before, id, after, rfl, ?_, lookup_error hid⟩
      intro other hother
      obtain ⟨plugin, hplugin⟩ := hbefore other hother
      obtain ⟨hget, rfl⟩ := lookup_ok hplugin
      rw [hget]
      rfl
  · rw [if_neg hchain] at h
    exact .inl ⟨hchain, (Except.error.inj h).symm⟩

end ProviderRegistry

end TokenPriceAgg

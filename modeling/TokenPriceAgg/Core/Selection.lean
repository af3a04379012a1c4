import TokenPriceAgg.Core.Normalizer
import TokenPriceAgg.Lib.Dict
import Mathlib.Data.List.Perm.Subperm
import Mathlib.Data.String.Basic

/-!
# The order of the providers and the selected result

`build_provider_order`, the index of the results and `select_price_result`, `select_quote_result`.

The results come in the order in which their tasks finish.  With distinct providers the sort undoes that order
(`sortResults_eq_of_perm`), and everything behind it reads the sorted list.
-/

namespace TokenPriceAgg

open PyLib

/-- The identifier is appended unless it was seen; the set `seen` has what `ordered` has. -/
def appendUnseen (ordered : List String) (providerId : String) : List String :=
  if providerId ∈ ordered then ordered else ordered ++ [providerId]

def buildProviderOrder (availableProviderIds : List String) (requestedProviderIds : Option (List String))
    (defaultPriority : List String) : List String :=
  let appendAvailable (ordered : List String) (providerId : String) : List String :=
    if providerId ∈ availableProviderIds then appendUnseen ordered providerId else ordered
  let ordered :=
    match requestedProviderIds with
    | some providerIds => providerIds.foldl appendAvailable []
    | none => defaultPriority.foldl appendAvailable []
  (availableProviderIds.insertionSort (· ≤ ·)).foldl appendUnseen ordered

section Select

variable {R : Type} [ProviderResult R]

/-- `{result.provider: result for result in results}`. -/
def indexResults (results : List R) : Dict String R :=
  Dict.empty.setMany (results.map fun result => (ProviderResult.provider result, result))

/-- The first result in the order with status `OK`. -/
def selectResult (byProvider : Dict String R) : List String → Option R
  | [] => none
  | providerId :: rest =>
    match byProvider.get? providerId with
    | none => selectResult byProvider rest
    | some result => if ProviderResult.status result = .ok then some result else selectResult byProvider rest

end Select

def selectPriceResult (providerOrder : List String) (byProvider : Dict String PriceResult) : Option PriceResult :=
  selectResult byProvider providerOrder

def selectQuoteResult (providerOrder : List String) (byProvider : Dict String QuoteResult) : Option QuoteResult :=
  selectResult byProvider providerOrder

/-! ### The sort -/

section Sorting

variable {R : Type} [ProviderResult R]

instance : Std.Total (Before : R → R → Prop) where
  total a b := by
    rcases Nat.lt_trichotomy (statusRank (ProviderResult.status a)) (statusRank (ProviderResult.status b)) with
      h | h | h
    · exact Or.inl (Or.inl h)
    · rcases le_total (ProviderResult.provider a) (ProviderResult.provider b) with hle | hle
      · exact Or.inl (Or.inr ⟨h, not_lt.2 hle⟩)
      · exact Or.inr (Or.inr ⟨h.symm, not_lt.2 hle⟩)
    · exact Or.inr (Or.inl h)

instance : IsTrans R Before where
  trans a b c := by
    rintro (hab | ⟨hab, hab'⟩) (hbc | ⟨hbc, hbc'⟩)
    · exact Or.inl (hab.trans hbc)
    · exact Or.inl (hbc ▸ hab)
    · exact Or.inl (hab ▸ hbc)
    · exact Or.inr ⟨hab.trans hbc, not_lt.2 ((not_lt.1 hab').trans (not_lt.1 hbc'))⟩

private theorem provider_eq_of_before {a b : R} (hab : Before a b) (hba : Before b a) :
    ProviderResult.provider a = ProviderResult.provider b := by
  rcases hab with hab | ⟨hab, hab'⟩
  · rcases hba with hba | ⟨hba, -⟩ <;> omega
  · rcases hba with hba | ⟨-, hba'⟩
    · omega
    · exact le_antisymm (not_lt.1 hab') (not_lt.1 hba')

/-- With distinct providers the sorted list does not depend on the order of the results. -/
private theorem sortResults_eq_of_perm {results results' : List R} (hd : (results.map ProviderResult.provider).Nodup)
    (hp : results'.Perm results) : sortResults results' = sortResults results := by
  have hperm : (sortResults results').Perm (sortResults results) :=
    (sortResults_perm results').trans (hp.trans (sortResults_perm results).symm)
  refine hperm.eq_of_pairwise ?_ (List.pairwise_insertionSort _ _) (List.pairwise_insertionSort _ _)
  intro a b ha hb hab hba
  have ha' : a ∈ results := hp.mem_iff.1 ((sortResults_perm results').mem_iff.1 ha)
  have hb' : b ∈ results := (sortResults_perm results).mem_iff.1 hb
  exact List.inj_on_of_nodup_map hd ha' hb' (provider_eq_of_before hab hba)

end Sorting

/-! ### The order -/

/-- The loop appends the first occurrences of what was not seen before. -/
theorem foldl_appendUnseen (providerIds ordered : List String) :
    providerIds.foldl appendUnseen ordered = ordered ++ (providerIds.filter (· ∉ ordered)).eraseDups := by
  induction providerIds generalizing ordered with
  | nil => simp
  | cons providerId providerIds ih =>
    rw [List.foldl_cons, ih]
    unfold appendUnseen
    by_cases hseen : providerId ∈ ordered
    · rw [if_pos hseen, List.filter_cons_of_neg (by simpa using hseen)]
    · rw [if_neg hseen, List.filter_cons_of_pos (by simpa using hseen), List.eraseDups_cons, List.append_assoc,
        List.singleton_append, List.filter_filter]
      congr 3
      apply List.filter_congr
      intro a _
      simp only [List.mem_append, List.mem_singleton, not_or, Bool.decide_and, decide_not]
      rw [Bool.and_comm]
      rfl

private theorem foldl_appendAvailable (available providerIds ordered : List String) :
    providerIds.foldl (fun ordered providerId =>
      if providerId ∈ available then appendUnseen ordered providerId else ordered) ordered =
      (providerIds.filter (· ∈ available)).foldl appendUnseen ordered := by
  induction providerIds generalizing ordered with
  | nil => rfl
  | cons providerId providerIds ih =>
    rw [List.foldl_cons, ih]
    by_cases h : providerId ∈ available
    · rw [if_pos h, List.filter_cons_of_pos (by simpa using h), List.foldl_cons]
    · rw [if_neg h, List.filter_cons_of_neg (by simpa using h)]

theorem eraseDups_of_nodup {l : List String} (h : l.Nodup) : l.eraseDups = l := by
  induction l with
  | nil => rfl
  | cons a l ih =>
    obtain ⟨ha, hl⟩ := List.nodup_cons.1 h
    have hkeep : l.filter (fun b => !b == a) = l := by
      apply List.filter_eq_self.2
      intro b hb
      have hne : b ≠ a := by
        rintro rfl
        exact ha hb
      simpa using hne
    rw [List.eraseDups_cons, hkeep, ih hl]

/-- The order of the providers: first the preferred ones that are available, as they first occur, then the others by
their names. -/
structure ResponseOrder (available preferred order : List String) : Prop where
  perm : order.Perm available
  nodup : order.Nodup
  split : ∃ rest, order = (preferred.filter (· ∈ available)).eraseDups ++ rest ∧ rest.Pairwise (· < ·) ∧
    ∀ providerId, providerId ∈ rest ↔ providerId ∈ available ∧ providerId ∉ preferred

private theorem buildProviderOrder_eq
    (available : List String) (requested : Option (List String)) (priority : List String) :
    buildProviderOrder available requested priority =
      (available.insertionSort (· ≤ ·)).foldl appendUnseen
        (((requested.getD priority).filter (· ∈ available)).eraseDups) := by
  have hfirst (ids : List String) : (ids.filter (· ∈ available)).foldl appendUnseen [] =
      (ids.filter (· ∈ available)).eraseDups := by
    rw [foldl_appendUnseen, List.nil_append]
    congr 1
    exact List.filter_eq_self.2 (by simp)
  unfold buildProviderOrder
  cases requested with
  | none => simp only [foldl_appendAvailable, hfirst, Option.getD_none]
  | some ids => simp only [foldl_appendAvailable, hfirst, Option.getD_some]

theorem buildProviderOrder_spec {available : List String} (hd : available.Nodup) (requested : Option (List String))
    (priority : List String) :
    ResponseOrder available (requested.getD priority) (buildProviderOrder available requested priority) := by
  generalize hpreferred : requested.getD priority = preferred
  let first := (preferred.filter (· ∈ available)).eraseDups
  let rest := (available.insertionSort (· ≤ ·)).filter (· ∉ first)
  have hperm := List.perm_insertionSort (· ≤ ·) available
  have hsorted : (available.insertionSort (· ≤ ·)).Nodup := hperm.nodup_iff.2 hd
  have hfirst : ∀ providerId, providerId ∈ first ↔ providerId ∈ preferred ∧ providerId ∈ available := by
    intro providerId
    rw [List.mem_eraseDups, List.mem_filter, decide_eq_true_eq]
  have hrest : ∀ providerId, providerId ∈ rest ↔ providerId ∈ available ∧ providerId ∉ preferred := by
    intro providerId
    rw [List.mem_filter, decide_eq_true_eq, hfirst, hperm.mem_iff]
    tauto
  have horder : buildProviderOrder available requested priority = first ++ rest := by
    rw [buildProviderOrder_eq, foldl_appendUnseen, hpreferred, eraseDups_of_nodup (hsorted.filter _)]
  have hnodup : (first ++ rest).Nodup := by
    rw [List.nodup_append]
    refine ⟨nodup_eraseDups _, hsorted.filter _, ?_⟩
    intro a ha b hb hab
    rw [hab] at ha
    exact ((hrest b).1 hb).2 ((hfirst b).1 ha).1
  refine ⟨?_, horder ▸ hnodup, rest, horder, ?_, hrest⟩
  · rw [horder]
    apply (List.perm_ext_iff_of_nodup hnodup hd).2
    intro providerId
    rw [List.mem_append, hfirst, hrest]
    tauto
  · have hle : rest.Pairwise (· ≤ ·) := (List.pairwise_insertionSort _ available).sublist List.filter_sublist
    have hne : rest.Pairwise (· ≠ ·) := hsorted.filter _
    refine (hle.and hne).imp ?_
    rintro a b ⟨hle, hne⟩
    exact lt_of_le_of_ne hle hne

/-! ### The selection -/

section Selection

variable {R : Type} [ProviderResult R]

/-- With distinct providers the index has each result under its provider. -/
theorem get?_indexResults {results : List R} (hd : (results.map ProviderResult.provider).Nodup) {providerId : String}
    {result : R} :
    (indexResults results).get? providerId = some result ↔
      result ∈ results ∧ ProviderResult.provider result = providerId := by
  have hkeys : ((results.map fun result => (ProviderResult.provider result, result)).map Prod.fst).Nodup := by
    rw [List.map_map]
    exact hd
  unfold indexResults
  constructor
  · intro h
    rcases Dict.get?_setMany_cases Dict.empty (results.map fun result => (ProviderResult.provider result, result))
      providerId with ⟨-, hnone⟩ | ⟨found, hfound, hsome⟩
    · rw [hnone] at h
      cases h
    · rw [hsome] at h
      obtain rfl := Option.some.inj h
      obtain ⟨r, hr, heq⟩ := List.mem_map.1 hfound
      obtain ⟨rfl, rfl⟩ := Prod.mk.inj heq
      exact ⟨hr, rfl⟩
  · rintro ⟨hmem, rfl⟩
    have hpair : (ProviderResult.provider result, result) ∈
        results.map fun result => (ProviderResult.provider result, result) := List.mem_map.2 ⟨result, hmem, rfl⟩
    exact Dict.get?_setMany_of_mem hkeys hpair _

/-- The result is `OK` and comes before every other `OK` result of the order. -/
def FirstOk (byProvider : Dict String R) (order : List String) (result : R) : Prop :=
  ∃ before providerId after, order = before ++ providerId :: after ∧ byProvider.get? providerId = some result ∧
    ProviderResult.status result = .ok ∧
    ∀ id ∈ before, ∀ other, byProvider.get? id = some other → ProviderResult.status other ≠ .ok

private theorem selectResult_eq_some {byProvider : Dict String R} {order : List String} {result : R}
    (h : selectResult byProvider order = some result) : FirstOk byProvider order result := by
  induction order with
  | nil => cases h
  | cons id rest ih =>
    unfold selectResult at h
    -- a provider without an `OK` result is passed over
    have hskip : (∀ other, byProvider.get? id = some other → ProviderResult.status other ≠ .ok) →
        selectResult byProvider rest = some result → FirstOk byProvider (id :: rest) result := by
      intro hid hrest
      obtain ⟨before, providerId, after, hrest, hget, hok, hbefore⟩ := ih hrest
      refine ⟨id :: before, providerId, after, by rw [hrest]; rfl, hget, hok, ?_⟩
      intro other hother
      rcases List.mem_cons.1 hother with rfl | hother
      · exact hid
      · exact hbefore other hother
    cases hid : byProvider.get? id with
    | none =>
      rw [hid] at h
      exact hskip (by rw [hid]; exact nofun) h
    | some found =>
      rw [hid] at h
      dsimp only at h
      split at h
      · rename_i hok
        obtain rfl := Option.some.inj h
        exact ⟨[], id, rest, rfl, hid, hok, nofun⟩
      · rename_i hnot
        refine hskip ?_ h
        intro other hother
        rw [hid] at hother
        obtain rfl := Option.some.inj hother
        exact hnot

private theorem selectResult_eq_none {byProvider : Dict String R} {order : List String} :
    selectResult byProvider order = none ↔
      ∀ id ∈ order, ∀ result, byProvider.get? id = some result → ProviderResult.status result ≠ .ok := by
  induction order with
  | nil => simp [selectResult]
  | cons id rest ih =>
    unfold selectResult
    rw [List.forall_mem_cons]
    cases hid : byProvider.get? id with
    | none => simp [ih]
    | some found =>
      dsimp only
      split
      · rename_i hok
        simp [hok]
      · rename_i hnot
        simp [ih, hnot]

/-- The selected result of an order: `OK`, with no `OK` result before it, and absent if no result is `OK`. -/
structure SelectsFirstOk (results : List R) (order : List String) (selected : Option R) : Prop where
  first : ∀ result, selected = some result → result ∈ results ∧ ProviderResult.status result = .ok ∧
    ∃ before after, order = before ++ ProviderResult.provider result :: after ∧
      ∀ other ∈ results, ProviderResult.provider other ∈ before → ProviderResult.status other ≠ .ok
  absent : selected = none ↔ ∀ result ∈ results, ProviderResult.status result ≠ .ok

theorem selectResult_spec {results : List R} (hd : (results.map ProviderResult.provider).Nodup) {order : List String}
    (hall : ∀ result ∈ results, ProviderResult.provider result ∈ order) :
    SelectsFirstOk results order (selectResult (indexResults results) order) := by
  constructor
  · intro result h
    obtain ⟨before, providerId, after, horder, hget, hok, hbefore⟩ := selectResult_eq_some h
    obtain ⟨hmem, rfl⟩ := (get?_indexResults hd).1 hget
    refine ⟨hmem, hok, before, after, horder, ?_⟩
    intro other hother hother'
    exact hbefore _ hother' other ((get?_indexResults hd).2 ⟨hother, rfl⟩)
  · rw [selectResult_eq_none]
    constructor
    · intro h result hresult
      exact h _ (hall result hresult) result ((get?_indexResults hd).2 ⟨hresult, rfl⟩)
    · intro h id _ result hget
      exact h result ((get?_indexResults hd).1 hget).1

/-! ### The response -/

/-- `provider_order` of a response: `build_provider_order` on the sorted results. -/
def responseOrder (results : List R) (requested : Option (List String)) (priority : List String) : List String :=
  buildProviderOrder ((sortResults results).map ProviderResult.provider) requested priority

/-- The selected result of a response, looked up in the index of the sorted results. -/
def responseSelection (results : List R) (requested : Option (List String)) (priority : List String) : Option R :=
  selectResult (indexResults (sortResults results)) (responseOrder results requested priority)

theorem ResponseOrder.of_perm {available available' preferred order : List String}
    (h : ResponseOrder available preferred order) (hp : available.Perm available') :
    ResponseOrder available' preferred order := by
  obtain ⟨rest, horder, hsorted, hrest⟩ := h.split
  refine ⟨h.perm.trans hp, h.nodup, rest, ?_, hsorted, ?_⟩
  · rw [horder]
    simp only [hp.mem_iff]
  · intro providerId
    rw [hrest, hp.mem_iff]

/-- The response does not depend on the order of the results, its providers are in the documented order, and it selects
the first `OK` result of that order. -/
structure Assembled {S : Type} (summarize : List R → S) (results : List R) (requested : Option (List String))
    (priority : List String) : Prop where
  sorted : ∀ results', results'.Perm results → sortResults results' = sortResults results
  summary : ∀ results', results'.Perm results → summarize (sortResults results') = summarize (sortResults results)
  sameOrder : ∀ results', results'.Perm results →
    responseOrder results' requested priority = responseOrder results requested priority
  sameSelection : ∀ results', results'.Perm results →
    responseSelection results' requested priority = responseSelection results requested priority
  order : ResponseOrder (results.map ProviderResult.provider) (requested.getD priority)
    (responseOrder results requested priority)
  selection : SelectsFirstOk results (responseOrder results requested priority)
    (responseSelection results requested priority)

private theorem assembled {S : Type} (summarize : List R → S) {results : List R}
    (hd : (results.map ProviderResult.provider).Nodup) (requested : Option (List String)) (priority : List String) :
    Assembled summarize results requested priority := by
  have hsorted : ∀ results', results'.Perm results → sortResults results' = sortResults results :=
    fun results' hp => sortResults_eq_of_perm hd hp
  have hperm : ((sortResults results).map ProviderResult.provider).Perm (results.map ProviderResult.provider) :=
    (sortResults_perm results).map _
  have hdSorted := hperm.nodup_iff.2 hd
  have horder := (buildProviderOrder_spec hdSorted requested priority).of_perm hperm
  -- everything is computed from the sorted list, which is the same for all permutations
  refine ⟨hsorted, ?_, ?_, ?_, horder, ?_⟩
  · intro results' hp
    rw [hsorted results' hp]
  · intro results' hp
    unfold responseOrder
    rw [hsorted results' hp]
  · intro results' hp
    unfold responseSelection responseOrder
    rw [hsorted results' hp]
  · have hselect : SelectsFirstOk (sortResults results) (responseOrder results requested priority)
        (responseSelection results requested priority) := by
      refine selectResult_spec hdSorted ?_
      intro result hresult
      exact horder.perm.mem_iff.2 (List.mem_map_of_mem ((sortResults_perm results).mem_iff.1 hresult))
    constructor
    · intro result hresult
      obtain ⟨hmem, hok, before, after, heq, hbefore⟩ := hselect.first result hresult
      refine ⟨(sortResults_perm results).mem_iff.1 hmem, hok, before, after, heq, ?_⟩
      intro other hother
      exact hbefore other ((sortResults_perm results).mem_iff.2 hother)
    · rw [hselect.absent]
      exact forall_congr' fun result => by rw [(sortResults_perm results).mem_iff]

end Selection

/-- Every response of prices and every response of quotes is assembled independently of the order of its results. -/
theorem response_assembled :
    (∀ (results : List PriceResult) (requested : Option (List String)) (priority : List String),
      (results.map PriceResult.provider).Nodup → Assembled buildPriceSummary results requested priority) ∧
    ∀ (results : List QuoteResult) (requested : Option (List String)) (priority : List String),
      (results.map QuoteResult.provider).Nodup → Assembled buildQuoteSummary results requested priority :=
  ⟨fun _ requested priority hd => assembled _ hd requested priority,
    fun _ requested priority hd => assembled _ hd requested priority⟩

/-- A priority list with an unknown, a repeated and a missing provider. -/
theorem response_assembled_three :
    let results : List PriceResult :=
      [{ provider := "lifi", status := .ok, priceUsd := some ⟨false, 1, 0⟩, latencyMs := 1 },
        { provider := "curve", status := .noRoute, latencyMs := 2 },
        { provider := "enso", status := .ok, priceUsd := some ⟨false, 2, 0⟩, latencyMs := 3 }]
    Assembled buildPriceSummary results none ["curve", "none", "lifi", "curve"] ∧
      responseOrder results none ["curve", "none", "lifi", "curve"] = ["curve", "lifi", "enso"] ∧
      (responseSelection results none ["curve", "none", "lifi", "curve"]).map PriceResult.provider = some "lifi" := by
  intro results
  refine ⟨response_assembled.1 results none ["curve", "none", "lifi", "curve"] (by decide), ?_, ?_⟩
  · decide +kernel
  · decide +kernel

end TokenPriceAgg

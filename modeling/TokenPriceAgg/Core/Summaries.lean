import TokenPriceAgg.Core.Normalizer
import TokenPriceAgg.Lib.DecimalMean
import TokenPriceAgg.Lib.OrderStatistics

/-!
# The summaries of the successful results

The counts add up, the high and the low price are the extremes of the successful prices, and the deviation is there
from two prices on.  The median of an odd number of prices is one of them.  That of an even number is the mean of the
two in the middle, rounded to 28 digits twice, while a price can have more: `buildPriceSummary_consistent_iff` says when
it stays between the low and the high price.  The integer midpoint of the quotes always does.
-/

namespace TokenPriceAgg

open PyLib

/-! ### Valid prices -/

theorem ValidPrice.bounds {d : Decimal} (h : ValidPrice d) :
    (10 : ℚ) ^ (-100 : Int) ≤ d.toRat ∧ d.toRat ≤ 10 ^ (101 : Int) := by
  obtain ⟨hpos, hadj⟩ := h
  have hmax : maxNormalizedDecimalExponent = 100 := rfl
  have hadj' := abs_le.1 hadj
  have hlead : d.adjusted = d.exp + Decimal.numDigits d.coeff - 1 := rfl
  rw [Decimal.toRat_of_nonneg hpos.1]
  constructor
  · exact (Decimal.le_leading_iff hpos.2).1 (by omega)
  · exact (not_le.1 (mt (Decimal.le_leading_iff hpos.2).2 (by omega))).le

private theorem ValidPrice.toRat_pos {d : Decimal} (h : ValidPrice d) : 0 < d.toRat :=
  (Decimal.ten_pos _).trans_le h.bounds.1

/-- The prices of the successful results. -/
def okPrices (results : List PriceResult) : List Decimal :=
  (results.filter fun result => result.status = .ok).filterMap fun result => result.priceUsd

private theorem okPrices_valid {results : List PriceResult} (hvalid : ∀ r ∈ results, r.Valid) :
    ∀ d ∈ okPrices results, ValidPrice d := by
  intro d hd
  obtain ⟨r, hr, hprice⟩ := List.mem_filterMap.1 hd
  exact (hvalid r (List.mem_of_mem_filter hr)).price d hprice

/-! ### Extremes -/

theorem maxPrice_spec (p : Decimal) (prices : List Decimal) :
    maxPrice p prices ∈ p :: prices ∧ ∀ x ∈ p :: prices, x.toRat ≤ (maxPrice p prices).toRat := by
  refine foldl_best (fun m x => m.lt x) (fun a b : Decimal => a.toRat ≤ b.toRat)
    (fun a => le_rfl) (fun a b c h h' => h.trans h') ?_ ?_ p prices
  · intro m x h
    exact (Decimal.lt_iff.1 h).le
  · intro m x h
    exact not_lt.1 (mt Decimal.lt_iff.2 (by rw [h]; exact Bool.false_ne_true))

theorem minPrice_spec (p : Decimal) (prices : List Decimal) :
    minPrice p prices ∈ p :: prices ∧ ∀ x ∈ p :: prices, (minPrice p prices).toRat ≤ x.toRat := by
  refine foldl_best (fun m x => x.lt m) (fun a b : Decimal => b.toRat ≤ a.toRat)
    (fun a => le_rfl) (fun a b c h h' => h'.trans h) ?_ ?_ p prices
  · intro m x h
    exact (Decimal.lt_iff.1 h).le
  · intro m x h
    exact not_lt.1 (mt Decimal.lt_iff.2 (by rw [h]; exact Bool.false_ne_true))

/-! ### The median -/

/-- The `k`-th smallest of the prices. -/
def kthPrice (prices : List Decimal) (k : Nat) : ℚ := kth (prices.map Decimal.toRat) k 0

private theorem minPrice_eq_kth (p : Decimal) (prices : List Decimal) :
    (minPrice p prices).toRat = kthPrice (p :: prices) 0 := by
  have hne : (p :: prices).map Decimal.toRat ≠ [] := by simp
  obtain ⟨hlow, hleast⟩ := minPrice_spec p prices
  refine (isLeast_iff_kth 0 hne).1 ⟨List.mem_map_of_mem hlow, ?_⟩
  intro x hx
  obtain ⟨d, hd, rfl⟩ := List.mem_map.1 hx
  exact hleast d hd

private theorem maxPrice_eq_kth (p : Decimal) (prices : List Decimal) :
    (maxPrice p prices).toRat = kthPrice (p :: prices) ((p :: prices).length - 1) := by
  have hne : (p :: prices).map Decimal.toRat ≠ [] := by simp
  obtain ⟨hhigh, hgreatest⟩ := maxPrice_spec p prices
  have hlast : (maxPrice p prices).toRat =
      kth ((p :: prices).map Decimal.toRat) (((p :: prices).map Decimal.toRat).length - 1) 0 := by
    refine (isGreatest_iff_kth 0 hne).1 ⟨List.mem_map_of_mem hhigh, ?_⟩
    intro x hx
    obtain ⟨d, hd, rfl⟩ := List.mem_map.1 hx
    exact hgreatest d hd
  rwa [List.length_map] at hlast

/-- The median is a price, or the mean of the two prices in the middle, rounded, lies between the extremes. -/
def MedianStays (prices : List Decimal) : Prop :=
  prices ≠ [] → prices.length % 2 = 0 →
    Decimal.MeanStays (kthPrice prices 0)
      ((kthPrice prices (prices.length / 2 - 1) + kthPrice prices (prices.length / 2)) / 2)
      (kthPrice prices (prices.length - 1))

instance (prices : List Decimal) : Decidable (MedianStays prices) := inferInstanceAs (Decidable (_ → _ → _))

/-- The prices in the order in which `sorted` puts them. -/
private theorem sorted_price (prices : List Decimal) {k : Nat} (hk : k < prices.length) :
    (prices.insertionSort fun a b => b.lt a = false).getD k (.ofNat 0) ∈ prices ∧
      ((prices.insertionSort fun a b => b.lt a = false).getD k (.ofNat 0)).toRat = kthPrice prices k := by
  have hlt : k < (prices.insertionSort fun a b => b.lt a = false).length := by rwa [List.length_insertionSort]
  have horder : ∀ a ∈ prices, ∀ b ∈ prices, b.lt a = false ↔ a.toRat ≤ b.toRat := by
    intro a _ b _
    rw [← Bool.not_eq_true, Decimal.lt_iff, not_lt]
  have hmap := List.map_insertionSort (r := fun a b => b.lt a = false) (s := (· ≤ ·)) Decimal.toRat prices horder
  rw [List.getD_eq_getElem _ _ hlt]
  constructor
  · exact (List.mem_insertionSort _).1 (List.getElem_mem hlt)
  · unfold kthPrice kth
    rw [← hmap, List.getD_eq_getElem _ _ (by rwa [List.length_map]), List.getElem_map]

/-- The median is computed: the price in the middle, or the rounded mean of two. -/
private theorem medianPrice_spec {prices : List Decimal} (hne : prices ≠ []) (hvalid : ∀ d ∈ prices, ValidPrice d) :
    ∃ m, medianPrice prices = .ok m ∧ m.toRat =
      if prices.length % 2 = 1 then kthPrice prices (prices.length / 2)
      else Decimal.roundedMean
        ((kthPrice prices (prices.length / 2 - 1) + kthPrice prices (prices.length / 2)) / 2) := by
  have hpos := List.length_pos_iff.2 hne
  obtain ⟨hb, hb'⟩ := sorted_price prices (show prices.length / 2 < prices.length by omega)
  obtain ⟨ha, ha'⟩ := sorted_price prices (show prices.length / 2 - 1 < prices.length by omega)
  unfold medianPrice
  simp only [List.length_insertionSort]
  by_cases hodd : prices.length % 2 = 1
  · rw [if_pos hodd, if_pos hodd]
    exact ⟨_, rfl, hb'⟩
  · rw [if_neg hodd, if_neg hodd]
    have hva := hvalid _ ha
    have hvb := hvalid _ hb
    generalize (prices.insertionSort fun a b => b.lt a = false).getD (prices.length / 2 - 1) (.ofNat 0) = a at ha' hva ⊢
    generalize (prices.insertionSort fun a b => b.lt a = false).getD (prices.length / 2) (.ofNat 0) = b at hb' hvb ⊢
    have hlow : 4 * (10 : ℚ) ^ Decimal.emin ≤ a.toRat + b.toRat := by
      have hfour : 4 * (10 : ℚ) ^ Decimal.emin ≤ 10 ^ (Decimal.emin + (1 : Nat)) := by
        rw [Decimal.ten_add]
        linarith [Decimal.ten_pos Decimal.emin]
      have hsmall : (10 : ℚ) ^ (Decimal.emin + (1 : Nat)) ≤ 10 ^ (-100 : Int) :=
        zpow_le_zpow_right₀ (by norm_num) (by decide)
      linarith [hva.bounds.1, hvb.toRat_pos]
    have hhigh : a.toRat + b.toRat ≤ 10 ^ (102 : Int) := by
      have hten : (10 : ℚ) ^ (102 : Int) = 10 ^ 1 * 10 ^ (101 : Int) := Decimal.ten_add 101 1
      linarith [hva.bounds.2, hvb.bounds.2, Decimal.ten_pos 101]
    obtain ⟨s, m, hs, hm, hmean⟩ := Decimal.mean_eq hva.1 hvb.1 (by norm_num) (by decide) hlow hhigh
    rw [ha', hb'] at hmean
    refine ⟨m, ?_, hmean⟩
    show (decimalOp (a.add b)).bind (fun sum => decimalOp (sum.div (.ofNat 2))) = .ok m
    rw [hs]
    show decimalOp (s.div (.ofNat 2)) = .ok m
    rw [hm]
    rfl

/-- The median is between the extremes exactly if its rounding leaves it there. -/
private theorem median_between_iff {prices : List Decimal} (hne : prices ≠ []) (hvalid : ∀ d ∈ prices, ValidPrice d)
    {m : Decimal} (hm : medianPrice prices = .ok m) :
    (kthPrice prices 0 ≤ m.toRat ∧ m.toRat ≤ kthPrice prices (prices.length - 1)) ↔ MedianStays prices := by
  obtain ⟨m', hm', hvalue⟩ := medianPrice_spec hne hvalid
  obtain rfl := Except.ok.inj (hm.symm.trans hm')
  have hpos := List.length_pos_iff.2 hne
  have hlen : (prices.map Decimal.toRat).length = prices.length := List.length_map _
  have hmono {j k : Nat} (hjk : j ≤ k) (hk : k < prices.length) : kthPrice prices j ≤ kthPrice prices k :=
    kth_mono hjk (by omega) 0
  rw [hvalue]
  by_cases hodd : prices.length % 2 = 1
  · rw [if_pos hodd]
    refine iff_of_true ⟨hmono (by omega) (by omega), hmono (by omega) (by omega)⟩ ?_
    intro _ heven
    omega
  · rw [if_neg hodd]
    have hlow := hmono (j := 0) (k := prices.length / 2 - 1) (by omega) (by omega)
    have hmid := hmono (j := prices.length / 2 - 1) (k := prices.length / 2) (by omega) (by omega)
    have hhigh := hmono (j := prices.length / 2) (k := prices.length - 1) (by omega) (by omega)
    rw [Decimal.roundedMean_between_iff (by linarith) (by linarith)]
    unfold MedianStays
    constructor
    · intro h _ _
      exact h
    · intro h
      exact h hne (by omega)

/-! ### The deviation -/

/-- The deviation of at least two prices is there, and is not negative. -/
private theorem deviationBps_spec {p : Decimal} {prices : List Decimal} (hvalid : ∀ d ∈ p :: prices, ValidPrice d) :
    ∃ deviation, deviationBps p prices = .ok deviation ∧ (deviation.isSome ↔ prices ≠ []) ∧
      ∀ n ∈ deviation, 0 ≤ n := by
  unfold deviationBps
  by_cases hempty : prices = []
  · rw [if_pos hempty]
    refine ⟨none, rfl, ?_, by simp⟩
    simp [hempty]
  rw [if_neg hempty]
  obtain ⟨hlow, hleast⟩ := minPrice_spec p prices
  obtain ⟨hhigh, -⟩ := maxPrice_spec p prices
  have hle := hleast _ hhigh
  have hlow := hvalid _ hlow
  have hhigh := hvalid _ hhigh
  generalize minPrice p prices = low at hlow hle ⊢
  generalize maxPrice p prices = high at hhigh hle ⊢
  dsimp only
  rw [if_neg hlow.1.2.ne']
  obtain ⟨d, hd, hdneg, hdle⟩ := Decimal.sub_nonneg_le hhigh.1.1 hlow.1.1 hle (by norm_num) (by decide) hhigh.bounds.2
  obtain ⟨s, hs, hsneg, hsle⟩ := Decimal.div_nonneg_le (T := 202) hdneg hlow.1 hdle hlow.bounds.1 (by norm_num)
    (by norm_num) (by decide)
  have hten : (Decimal.ofNat 10000).toRat ≤ 10 ^ (4 : Int) := by norm_num [Decimal.toRat, Decimal.ofNat]
  obtain ⟨b, hb, hbneg, -⟩ := Decimal.mul_nonneg_le (T := 206) hsneg rfl hsle hten (by norm_num) (by norm_num)
    (by decide)
  refine ⟨some b.toIntegralValue.toInt, ?_, iff_of_true rfl hempty, ?_⟩
  · rw [hd]
    show (decimalOp (d.div low)).bind (fun spread => (decimalOp (spread.mul (.ofNat 10000))).bind fun bps =>
      .ok (some bps.toIntegralValue.toInt)) = _
    rw [hs]
    show (decimalOp (s.mul (.ofNat 10000))).bind (fun bps => .ok (some bps.toIntegralValue.toInt)) = _
    rw [hb]
    rfl
  · intro n hn
    obtain rfl := Option.some.inj hn
    have hneg : b.toIntegralValue.neg = false := by
      unfold Decimal.toIntegralValue
      split <;> exact hbneg
    rw [Decimal.toInt_eq_floor hneg]
    exact Int.floor_nonneg.2 (Decimal.toRat_nonneg hneg)

/-! ### Summaries of prices -/

/-- What a summary says of the successful prices, but for the place of the median. -/
structure PriceStatistics (results : List PriceResult) (summary : AggregatePriceSummary) : Prop where
  requested : summary.requestedProviders = results.length
  successful : summary.successfulProviders = (results.filter fun result => result.status = .ok).length
  counted : summary.requestedProviders = summary.successfulProviders + summary.failedProviders
  high : summary.highPrice.isSome ↔ okPrices results ≠ []
  greatest : ∀ d ∈ summary.highPrice, d ∈ okPrices results ∧ ∀ p ∈ okPrices results, p.toRat ≤ d.toRat
  low : summary.lowPrice.isSome ↔ okPrices results ≠ []
  least : ∀ d ∈ summary.lowPrice, d ∈ okPrices results ∧ ∀ p ∈ okPrices results, d.toRat ≤ p.toRat
  deviation : summary.deviationBps.isSome ↔ 2 ≤ (okPrices results).length
  deviation_nonneg : ∀ n ∈ summary.deviationBps, 0 ≤ n

/-- The median is between the low and the high price. -/
def MedianBetween (summary : AggregatePriceSummary) : Prop :=
  ∃ low ∈ summary.lowPrice, ∃ median ∈ summary.medianPrice, ∃ high ∈ summary.highPrice,
    low.toRat ≤ median.toRat ∧ median.toRat ≤ high.toRat

/-- The summary of valid results is computed, and its statistics are right but for the place of the median. -/
theorem buildPriceSummary_spec {results : List PriceResult} (hvalid : ∀ r ∈ results, r.Valid) :
    ∃ summary, buildPriceSummary results = .ok summary ∧ PriceStatistics results summary ∧
      (okPrices results ≠ [] → (MedianBetween summary ↔ MedianStays (okPrices results))) := by
  have hprices := okPrices_valid hvalid
  have hcount : (results.filter fun result => result.status = .ok).length ≤ results.length := List.length_filter_le _ _
  unfold buildPriceSummary
  dsimp only
  rw [show (results.filter fun result => result.status = .ok).filterMap (fun result => result.priceUsd) =
    okPrices results from rfl]
  cases h : okPrices results with
  | nil =>
    refine ⟨_, rfl, ?_, fun hne => absurd rfl hne⟩
    exact
      { requested := rfl, successful := rfl, counted := by dsimp only; omega
        high := by simp [h], greatest := by simp, low := by simp [h], least := by simp
        deviation := by simp [h], deviation_nonneg := by simp }
  | cons p prices =>
    rw [h] at hprices
    obtain ⟨median, hmedian, -⟩ := medianPrice_spec (List.cons_ne_nil p prices) hprices
    obtain ⟨deviation, hdeviation, hsome, hnonneg⟩ := deviationBps_spec hprices
    obtain ⟨hhigh, hgreatest⟩ := maxPrice_spec p prices
    obtain ⟨hlow, hleast⟩ := minPrice_spec p prices
    have hbetween := median_between_iff (List.cons_ne_nil p prices) hprices hmedian
    dsimp only
    rw [hmedian, hdeviation]
    refine ⟨_, rfl, ?_, fun _ => ?_⟩
    · refine
        { requested := rfl, successful := rfl, counted := by dsimp only; omega
          high := by simp [h], greatest := ?_, low := by simp [h], least := ?_
          deviation := ?_, deviation_nonneg := hnonneg }
      · intro d hd
        obtain rfl := Option.some.inj hd
        rw [h]
        exact ⟨hhigh, hgreatest⟩
      · intro d hd
        obtain rfl := Option.some.inj hd
        rw [h]
        exact ⟨hlow, hleast⟩
      · rw [h]
        have hlen : 2 ≤ (p :: prices).length ↔ prices ≠ [] := by
          rw [List.length_cons, ← List.length_pos_iff]
          omega
        rw [hlen]
        exact hsome
    · rw [← hbetween, ← minPrice_eq_kth, ← maxPrice_eq_kth]
      constructor
      · rintro ⟨low, hl, m, hm, high, hh, hle⟩
        obtain rfl := Option.some.inj hl
        obtain rfl := Option.some.inj hm
        obtain rfl := Option.some.inj hh
        exact hle
      · intro hle
        exact ⟨_, rfl, _, rfl, _, rfl, hle⟩

/-- The summary is computed and consistent. -/
def PriceSummaryConsistent (results : List PriceResult) : Prop :=
  ∃ summary, buildPriceSummary results = .ok summary ∧ PriceStatistics results summary ∧
    (okPrices results ≠ [] → MedianBetween summary)

private theorem priceSummaryConsistent_iff {results : List PriceResult} (hvalid : ∀ r ∈ results, r.Valid) :
    PriceSummaryConsistent results ↔ MedianStays (okPrices results) := by
  obtain ⟨summary, hsummary, hstatistics, hmedian⟩ := buildPriceSummary_spec hvalid
  constructor
  · rintro ⟨summary', hsummary', -, hbetween⟩ hne
    obtain rfl := Except.ok.inj (hsummary.symm.trans hsummary')
    exact (hmedian hne).1 (hbetween hne) hne
  · intro hstays
    exact ⟨summary, hsummary, hstatistics, fun hne => (hmedian hne).2 hstays⟩

/-! ### Summaries of quotes -/

/-- The output amounts of the successful results. -/
def okAmounts (results : List QuoteResult) : List Int :=
  (results.filter fun result => result.status = .ok).filterMap fun result => result.amountOut

/-- What a summary says of the successful amounts; the median is the lower integer midpoint of the two amounts in the
middle, which are one and the same for an odd number of amounts. -/
structure QuoteSummaryConsistent (results : List QuoteResult) (summary : AggregateQuoteSummary) : Prop where
  requested : summary.requestedProviders = results.length
  successful : summary.successfulProviders = (results.filter fun result => result.status = .ok).length
  counted : summary.requestedProviders = summary.successfulProviders + summary.failedProviders
  high : summary.highAmountOut.isSome ↔ okAmounts results ≠ []
  greatest : ∀ n ∈ summary.highAmountOut, IsGreatest {a | a ∈ okAmounts results} n
  low : summary.lowAmountOut.isSome ↔ okAmounts results ≠ []
  least : ∀ n ∈ summary.lowAmountOut, IsLeast {a | a ∈ okAmounts results} n
  median : summary.medianAmountOut.isSome ↔ okAmounts results ≠ []
  midpoint : ∀ m ∈ summary.medianAmountOut,
    m = (kth (okAmounts results) (((okAmounts results).length - 1) / 2) 0 +
      kth (okAmounts results) ((okAmounts results).length / 2) 0) / 2
  between : ∀ m ∈ summary.medianAmountOut, ∀ low ∈ summary.lowAmountOut, ∀ high ∈ summary.highAmountOut,
    low ≤ m ∧ m ≤ high

private theorem medianAmount_spec (amounts : List Int) :
    medianAmount (amounts.insertionSort (· ≤ ·)) =
      (kth amounts ((amounts.length - 1) / 2) 0 + kth amounts (amounts.length / 2) 0) / 2 := by
  unfold medianAmount
  simp only [List.length_insertionSort]
  by_cases hodd : amounts.length % 2 = 1
  · have hmid : (amounts.length - 1) / 2 = amounts.length / 2 := by omega
    rw [if_pos hodd, hmid]
    show kth amounts (amounts.length / 2) 0 = _
    omega
  · rw [if_neg hodd]
    rcases Nat.eq_zero_or_pos amounts.length with hzero | hpos
    · rw [hzero]
      rfl
    · have hmid : amounts.length / 2 - 1 = (amounts.length - 1) / 2 := by omega
      rw [hmid]
      rfl

private theorem sorted_ne_nil_iff {amounts : List Int} : amounts.insertionSort (· ≤ ·) ≠ [] ↔ amounts ≠ [] := by
  rw [← List.length_pos_iff, List.length_insertionSort, List.length_pos_iff]

private theorem isGreatest_of_sorted {amounts : List Int} {n : Int} (h : n ∈ (amounts.insertionSort (· ≤ ·)).max?) :
    IsGreatest {a | a ∈ amounts} n := by
  obtain ⟨hmem, hle⟩ := List.max?_eq_some_iff.1 h
  exact ⟨(List.mem_insertionSort _).1 hmem, fun a ha => hle a ((List.mem_insertionSort _).2 ha)⟩

private theorem isLeast_of_sorted {amounts : List Int} {n : Int} (h : n ∈ (amounts.insertionSort (· ≤ ·)).min?) :
    IsLeast {a | a ∈ amounts} n := by
  obtain ⟨hmem, hle⟩ := List.min?_eq_some_iff.1 h
  exact ⟨(List.mem_insertionSort _).1 hmem, fun a ha => hle a ((List.mem_insertionSort _).2 ha)⟩

/-- The middle of the amounts is between the least and the greatest. -/
private theorem midpoint_between {amounts : List Int} {low high : Int} (hne : amounts ≠ [])
    (hlow : IsLeast {a | a ∈ amounts} low) (hhigh : IsGreatest {a | a ∈ amounts} high) :
    low ≤ (kth amounts ((amounts.length - 1) / 2) 0 + kth amounts (amounts.length / 2) 0) / 2 ∧
      (kth amounts ((amounts.length - 1) / 2) 0 + kth amounts (amounts.length / 2) 0) / 2 ≤ high := by
  have hpos := List.length_pos_iff.2 hne
  have hlo := (isLeast_iff_kth 0 hne).1 hlow
  have hhi := (isGreatest_iff_kth 0 hne).1 hhigh
  have h₁ : kth amounts 0 0 ≤ kth amounts ((amounts.length - 1) / 2) 0 := kth_mono (by omega) (by omega) 0
  have h₂ : kth amounts ((amounts.length - 1) / 2) 0 ≤ kth amounts (amounts.length / 2) 0 :=
    kth_mono (by omega) (by omega) 0
  have h₃ : kth amounts (amounts.length / 2) 0 ≤ kth amounts (amounts.length - 1) 0 :=
    kth_mono (by omega) (by omega) 0
  constructor <;> omega

theorem buildQuoteSummary_consistent (results : List QuoteResult) :
    QuoteSummaryConsistent results (buildQuoteSummary results) := by
  have hcount : (results.filter fun result => result.status = .ok).length ≤ results.length := List.length_filter_le _ _
  have hmidpoint : ∀ m ∈ (buildQuoteSummary results).medianAmountOut, okAmounts results ≠ [] ∧
      m = (kth (okAmounts results) (((okAmounts results).length - 1) / 2) 0 +
        kth (okAmounts results) ((okAmounts results).length / 2) 0) / 2 := by
    intro m hm
    change m ∈ (if (okAmounts results).insertionSort (· ≤ ·) = [] then none
      else some (medianAmount ((okAmounts results).insertionSort (· ≤ ·)))) at hm
    split at hm
    · cases hm
    · rename_i hsome
      obtain rfl := Option.some.inj hm
      exact ⟨sorted_ne_nil_iff.1 hsome, medianAmount_spec _⟩
  refine
    { requested := rfl, successful := rfl, counted := ?_, high := ?_, greatest := fun n hn => isGreatest_of_sorted hn
      low := ?_, least := fun n hn => isLeast_of_sorted hn
      median := ?_, midpoint := fun m hm => (hmidpoint m hm).2, between := ?_ }
  · unfold buildQuoteSummary
    dsimp only
    omega
  · show ((okAmounts results).insertionSort (· ≤ ·)).max?.isSome ↔ _
    rw [List.isSome_max?_iff]
    exact sorted_ne_nil_iff
  · show ((okAmounts results).insertionSort (· ≤ ·)).min?.isSome ↔ _
    rw [List.isSome_min?_iff]
    exact sorted_ne_nil_iff
  · show (if (okAmounts results).insertionSort (· ≤ ·) = [] then none
      else some (medianAmount ((okAmounts results).insertionSort (· ≤ ·)))).isSome ↔ _
    rw [← sorted_ne_nil_iff]
    split
    · rename_i hnil
      exact iff_of_false (by simp) (not_not.2 hnil)
    · rename_i hsome
      exact iff_of_true rfl hsome
  · intro m hm low hlow high hhigh
    obtain ⟨hsome, rfl⟩ := hmidpoint m hm
    exact midpoint_between hsome (isLeast_of_sorted hlow) (isGreatest_of_sorted hhigh)

/-- The summaries of valid results are consistent exactly if the rounding of the median of the prices leaves it between
the low and the high price. -/
theorem summaries_consistent_iff {prices : List PriceResult} (hprices : ∀ r ∈ prices, r.Valid)
    (quotes : List QuoteResult) :
    (PriceSummaryConsistent prices ∧ QuoteSummaryConsistent quotes (buildQuoteSummary quotes)) ↔
      MedianStays (okPrices prices) := by
  rw [priceSummaryConsistent_iff hprices]
  exact and_iff_left (buildQuoteSummary_consistent quotes)

/-- A provider's successful price. -/
def Example.pricedAt (provider : String) (price : Decimal) : PriceResult :=
  { provider, status := .ok, priceUsd := some price, latencyMs := 3 }

/-- The prices 1.5 and 2, beside a failure. -/
theorem summaries_consistent_two :
    let prices := [Example.pricedAt "curve" ⟨false, 15, -1⟩, { provider := "enso", status := .noRoute, latencyMs := 2 },
      Example.pricedAt "lifi" ⟨false, 2, 0⟩]
    (∀ r ∈ prices, r.Valid) ∧ PriceSummaryConsistent prices := by
  intro prices
  have hvalid : ∀ r ∈ prices, r.Valid := by decide +kernel
  have hstays : MedianStays (okPrices prices) := by decide +kernel
  exact ⟨hvalid, ((summaries_consistent_iff hvalid []).2 hstays).1⟩

/-- Two providers agree on 6.000000000000000000000000001, and the median is 6. -/
theorem median_below_low :
    let price : Decimal := ⟨false, 6 * 10 ^ 27 + 1, -27⟩
    let prices := [Example.pricedAt "curve" price, Example.pricedAt "enso" price]
    (∀ r ∈ prices, r.Valid) ∧ medianPrice [price, price] = .ok ⟨false, 6 * 10 ^ 26, -26⟩ ∧
      ¬ PriceSummaryConsistent prices := by
  intro price prices
  have hvalid : ∀ r ∈ prices, r.Valid := by decide +kernel
  refine ⟨hvalid, by decide +kernel, ?_⟩
  rw [priceSummaryConsistent_iff hvalid]
  decide +kernel

end TokenPriceAgg

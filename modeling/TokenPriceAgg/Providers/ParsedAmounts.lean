import TokenPriceAgg.Lib.DecimalRounding
import TokenPriceAgg.Providers.Parsing

/-!
# Amounts in base units

`parse_base_unit_amount` on decimal texts.  A text that equals an integer is read in base units, any other in human
units, whose product with the power of ten is rounded to the 28 digits of the context before it is cut to an integer.
`parseBaseUnitAmount_exact_iff` says when this rounding does not show, `parseBaseUnitAmount_mono` which texts are read
in order.
-/

namespace TokenPriceAgg

open PyLib PyLib.Decimal

/-! ### Texts -/

private theorem boundedDecimal_eq_some {d v : Decimal} (h : boundedDecimal d = some v) :
    d = v ∧ (v.coeff ≠ 0 → |v.adjusted| ≤ 100) := by
  unfold boundedDecimal at h
  split at h
  · cases h
  · split at h
    · cases h
    · rename_i hexponent
      obtain rfl := Option.some.inj h
      refine ⟨rfl, fun hcoeff => ?_⟩
      exact not_lt.1 fun hlt => hexponent ⟨hcoeff, hlt⟩

/-- A parsed decimal has a moderate exponent. -/
theorem parseDecimal_bounded {value : Json} {v : Decimal} (h : parseDecimal value = some v) (hcoeff : v.coeff ≠ 0) :
    |v.adjusted| ≤ 100 := by
  unfold parseDecimal at h
  split at h
  · split at h
    · cases h
    · exact (boundedDecimal_eq_some h).2 hcoeff
  · exact (boundedDecimal_eq_some h).2 hcoeff
  · obtain ⟨parsed, -, hbounded⟩ := Option.bind_eq_some_iff.1 h
    exact (boundedDecimal_eq_some hbounded).2 hcoeff
  · cases h

private theorem parseInt_of_not_digits {s : String} (h : isDigitText s.toList = false) :
    parseInt (.str s) = .ok none := by
  simp [parseInt, parseIntText, h]

/-- A number with a fractional part is no text of digits. -/
private theorem not_isDigitText_of_fract {s : String} {v : Decimal} (h : parseDecimal (.str s) = some v)
    (hneg : v.neg = false) (hfract : Int.fract v.toRat ≠ 0) : isDigitText s.toList = false := by
  obtain ⟨parsed, hparsed, hbounded⟩ := Option.bind_eq_some_iff.1 h
  obtain rfl := (boundedDecimal_eq_some hbounded).1
  refine not_isDigitText_of_mark (mark_of_exp_neg hparsed ?_)
  by_contra hexp
  obtain ⟨k, hk⟩ := Int.eq_ofNat_of_zero_le (not_lt.1 hexp)
  rw [toRat_of_exp_nonneg hneg hk] at hfract
  exact hfract (Int.fract_natCast _)

/-! ### What is read -/

/-- The value of a decimal without sign; a negative zero is zero. -/
theorem sign_cases {v : Decimal} (h : ¬ (v.neg = true ∧ v.coeff ≠ 0)) :
    v.neg = false ∨ (v.coeff = 0 ∧ v.toRat = 0) := by
  by_cases hneg : v.neg = true
  · have hzero : v.coeff = 0 := not_not.1 fun hne => h ⟨hneg, hne⟩
    right
    exact ⟨hzero, by simp [toRat, hzero]⟩
  · exact .inl (Bool.eq_false_of_not_eq_true hneg)

private theorem valueEq_iff {v : Decimal} (h : ¬ (v.neg = true ∧ v.coeff ≠ 0)) :
    v.valueEq v.toIntegralValue = true ↔ Int.fract v.toRat = 0 := by
  rcases sign_cases h with hneg | ⟨hzero, hvalue⟩
  · exact valueEq_toIntegralValue hneg
  · rw [hvalue]
    refine iff_of_true ?_ Int.fract_zero
    have hround : roundHalfEven 0 (10 ^ (-v.exp).toNat) = 0 := by simp [roundHalfEven]
    unfold valueEq toIntegralValue
    split
    · simp
    · simp [scaledTo, signed, hzero, hround]

private theorem toInt_floor {v : Decimal} (h : ¬ (v.neg = true ∧ v.coeff ≠ 0)) : v.toInt = ⌊v.toRat⌋ := by
  rcases sign_cases h with hneg | ⟨hzero, hvalue⟩
  · exact toInt_eq_floor hneg
  · rw [hvalue, Int.floor_zero]
    unfold toInt
    simp [hzero]

section Value

variable {value : Json} {v : Decimal} {tokenDecimals : Option Int} {decimals : Nat}

theorem parseBaseUnitAmount_whole (hint : parseInt value = .ok none) (h : parseDecimal value = some v)
    (hsign : ¬ (v.neg = true ∧ v.coeff ≠ 0)) (hwhole : Int.fract v.toRat = 0) :
    parseBaseUnitAmount value tokenDecimals = .ok (atMostUint256 ⌊v.toRat⌋) := by
  unfold parseBaseUnitAmount
  simp only [hint, h, bind, Except.bind]
  rw [if_neg hsign, if_pos ((valueEq_iff hsign).2 hwhole), toInt_floor hsign]
  rfl

theorem parseBaseUnitAmount_fraction (hint : parseInt value = .ok none) (h : parseDecimal value = some v)
    (hsign : ¬ (v.neg = true ∧ v.coeff ≠ 0)) (hfract : Int.fract v.toRat ≠ 0) :
    parseBaseUnitAmount value (some decimals) =
      (scaleToBaseUnits v decimals).map fun scaled => atMostUint256 scaled.toInt := by
  unfold parseBaseUnitAmount
  simp only [hint, h, bind, Except.bind]
  have hnonneg : ¬ (decimals : Int) < 0 := by omega
  rw [if_neg hsign, if_neg (mt (valueEq_iff hsign).1 hfract), if_neg hnonneg, Int.toNat_natCast]
  cases scaleToBaseUnits v decimals with
  | error e => rfl
  | ok scaled =>
    show Except.ok (atMostUint256 scaled.toIntegralDown.toInt) = Except.ok (atMostUint256 scaled.toInt)
    rw [toInt_toIntegralDown]

/-- Without a number of decimals, or with a negative one, nothing is made of a fraction. -/
theorem parseBaseUnitAmount_unscaled (hint : parseInt value = .ok none) (h : parseDecimal value = some v)
    (hsign : ¬ (v.neg = true ∧ v.coeff ≠ 0)) (hfract : Int.fract v.toRat ≠ 0)
    (hdecimals : ∀ n ∈ tokenDecimals, n < 0) : parseBaseUnitAmount value tokenDecimals = .ok none := by
  unfold parseBaseUnitAmount
  simp only [hint, h, bind, Except.bind]
  rw [if_neg hsign, if_neg (mt (valueEq_iff hsign).1 hfract)]
  cases tokenDecimals with
  | none => rfl
  | some n =>
    dsimp only
    rw [if_pos (hdecimals n rfl)]
    rfl

theorem parseBaseUnitAmount_negative (hint : parseInt value = .ok none) (h : parseDecimal value = some v)
    (hsign : v.neg = true ∧ v.coeff ≠ 0) : parseBaseUnitAmount value tokenDecimals = .ok none := by
  unfold parseBaseUnitAmount
  simp only [hint, h, bind, Except.bind]
  rw [if_pos hsign]
  rfl

/-- A number with a fractional part is positive if it is not negative. -/
theorem positive_of_fract {v : Decimal} (hsign : ¬ (v.neg = true ∧ v.coeff ≠ 0)) (hfract : Int.fract v.toRat ≠ 0) :
    v.Positive := by
  have hcoeff : v.coeff ≠ 0 := by
    intro hzero
    have hvalue : v.toRat = 0 := by simp [toRat, hzero]
    rw [hvalue] at hfract
    exact hfract Int.fract_zero
  refine ⟨?_, Nat.pos_of_ne_zero hcoeff⟩
  by_contra hneg
  exact hsign ⟨Bool.eq_true_of_not_eq_false hneg, hcoeff⟩

private theorem toRat_pos {v : Decimal} (h : v.Positive) : 0 < v.toRat := by
  rw [toRat_of_positive h]
  exact mul_pos (Nat.cast_pos.2 h.2) (ten_pos _)

/-- The scaled decimal is the exact product rounded to 28 digits. -/
private theorem scaleToBaseUnits_eq_ok {scaled : Decimal} (h : parseDecimal value = some v) (hpos : v.Positive)
    (hscaled : scaleToBaseUnits v decimals = .ok scaled) :
    RoundsTo28 (v.toRat * 10 ^ decimals) scaled.toRat ∧ scaled.toInt = ⌊scaled.toRat⌋ := by
  have hadjusted := (abs_le.1 (parseDecimal_bounded h hpos.2.ne')).1
  have hmin : emin = -999999 := rfl
  have hproduct : (tenPow decimals).bind v.mul = .ok scaled := by
    unfold scaleToBaseUnits at hscaled
    cases hbind : (tenPow decimals).bind v.mul with
    | error e =>
      rw [hbind] at hscaled
      cases hscaled
    | ok d =>
      rw [hbind] at hscaled
      exact congrArg Except.ok (Except.ok.inj hscaled)
  obtain ⟨hneg, hrounds⟩ := mul_tenPow_rounds hpos (by omega) hproduct
  exact ⟨hrounds, toInt_eq_floor hneg⟩

/-- Up to 255 decimals the product does not overflow. -/
theorem scaleToBaseUnits_ok (h : parseDecimal value = some v) (hpos : v.Positive) (hdecimals : decimals ≤ 255) :
    ∃ scaled, scaleToBaseUnits v decimals = .ok scaled := by
  obtain ⟨hlo, hhi⟩ := abs_le.1 (parseDecimal_bounded h hpos.2.ne')
  have hmin : emin = -999999 := rfl
  have hmax : emax = 999999 := rfl
  have hten : ∃ p, tenPow decimals = .ok p := by
    unfold tenPow
    rw [if_neg (by omega)]
    exact ⟨_, rfl⟩
  obtain ⟨p, hp⟩ := hten
  obtain ⟨k, rfl, hk⟩ := tenPow_eq_ok hp
  have hpower : (⟨false, 10 ^ k, (decimals : Int) - k⟩ : Decimal).Positive := ⟨rfl, by positivity⟩
  have hleading : (⟨false, 10 ^ k, (decimals : Int) - k⟩ : Decimal).adjusted = decimals := by
    have hlong : numDigits (10 ^ k) = k + 1 := by rw [numDigits, Nat.log_pow (by norm_num)]
    unfold adjusted
    dsimp only
    rw [hlong]
    push_cast
    ring
  obtain ⟨d, hd, -, -⟩ := mul_magnitude hpos hpower (by omega) (by omega)
  refine ⟨d, ?_⟩
  unfold scaleToBaseUnits
  rw [hp]
  show (v.mul _).mapError _ = _
  rw [hd]
  rfl

end Value

/-! ### Exact conversion -/

/-- The amount is the exact product cut to an integer, or none if this is no amount. -/
def ConvertsExactly (value : String) (v : Decimal) (decimals : Nat) : Prop :=
  parseBaseUnitAmount (.str value) (some decimals) =
    .ok (if ⌊v.toRat * 10 ^ decimals⌋ ≤ maxUint256 then some ⌊v.toRat * 10 ^ decimals⌋ else none)

instance (value : String) (v : Decimal) (decimals : Nat) : Decidable (ConvertsExactly value v decimals) :=
  inferInstanceAs (Decidable (_ = _))

/-- The rounding to 28 digits does not change the integer part of an amount, and does not make an amount of what is
too large. -/
def SurvivesRounding (x : ℚ) : Prop :=
  if ⌊x⌋ ≤ maxUint256 then KeepsFloor x else (1157920892373161954235709850 + 1 / 2) * 10 ^ 50 < x

instance (x : ℚ) : Decidable (SurvivesRounding x) := inferInstanceAs (Decidable (ite _ _ _))

private theorem le_maxUint256_iff {x : ℚ} : ⌊x⌋ ≤ maxUint256 ↔ x < 2 ^ 256 := by
  unfold maxUint256
  rw [← Int.lt_add_one_iff, Int.floor_lt]
  norm_num

/-- A positive number with a fractional part is converted exactly if and only if its product survives the rounding. -/
theorem parseBaseUnitAmount_exact_iff {value : String} {v : Decimal} {decimals : Nat}
    (hvalue : parseDecimal (.str value) = some v) (hpos : v.Positive) (hfract : Int.fract v.toRat ≠ 0)
    (hdecimals : decimals ≤ 255) :
    ConvertsExactly value v decimals ↔ SurvivesRounding (v.toRat * 10 ^ decimals) := by
  have hsign : ¬ (v.neg = true ∧ v.coeff ≠ 0) := fun h => by
    rw [hpos.1] at h
    exact absurd h.1 (by decide)
  have hdigits := not_isDigitText_of_fract hvalue hpos.1 hfract
  obtain ⟨scaled, hscaled⟩ := scaleToBaseUnits_ok hvalue hpos hdecimals
  obtain ⟨hrounds, hint⟩ := scaleToBaseUnits_eq_ok hvalue hpos hscaled
  have hx : 0 < v.toRat * 10 ^ decimals := mul_pos (toRat_pos hpos) (by positivity)
  unfold ConvertsExactly SurvivesRounding
  rw [parseBaseUnitAmount_fraction (parseInt_of_not_digits hdigits) hvalue hsign hfract, hscaled]
  show Except.ok (atMostUint256 scaled.toInt) = Except.ok _ ↔ _
  rw [Except.ok.injEq, hint]
  unfold atMostUint256
  generalize v.toRat * 10 ^ decimals = x at hrounds hx
  by_cases hmax : ⌊x⌋ ≤ maxUint256
  · rw [if_pos hmax, if_pos hmax, ← hrounds.floor_eq_iff hx]
    constructor
    · intro h
      split at h
      · exact Option.some.inj h
      · cases h
    · intro h
      rw [h, if_pos hmax]
  · rw [if_neg hmax, if_neg hmax]
    rw [le_maxUint256_iff, not_lt] at hmax
    have hlimit : 2 ^ 256 ≤ scaled.toRat ↔ ¬ ⌊scaled.toRat⌋ ≤ maxUint256 := by rw [le_maxUint256_iff, not_lt]
    rw [← hrounds.two_pow_le_iff hmax, hlimit]
    constructor
    · intro h hle
      rw [if_pos hle] at h
      cases h
    · intro h
      rw [if_neg h]

/-- `2125.893537` is 2125893537 millionths. -/
theorem parseBaseUnitAmount_exact_six : ConvertsExactly "2125.893537" ⟨false, 2125893537, -6⟩ 6 := by
  refine (parseBaseUnitAmount_exact_iff (by decide +kernel) (by decide) (by decide +kernel) (by decide)).2 ?_
  decide +kernel

theorem parseBaseUnitAmount_not_exact :
    parseDecimal (.str "12345678901.123456789012345678") = some ⟨false, 12345678901123456789012345678, -18⟩ ∧
      Int.fract (⟨false, 12345678901123456789012345678, -18⟩ : Decimal).toRat ≠ 0 ∧
      ¬ ConvertsExactly "12345678901.123456789012345678" ⟨false, 12345678901123456789012345678, -18⟩ 18 := by
  decide +kernel

/-! ### Order of the amounts -/

/-- The amount a decimal stands for, before any rounding: a whole number is in base units, any other in human units. -/
def baseUnits (v : Decimal) (decimals : Nat) : ℚ :=
  if Int.fract v.toRat = 0 then v.toRat else v.toRat * 10 ^ decimals

private theorem parseInt_of_point {s : String} (h : '.' ∈ s.toList) : parseInt (.str s) = .ok none :=
  parseInt_of_not_digits (not_isDigitText_of_mark (.inl h))

theorem atMostUint256_eq_some {n a : Int} (h : atMostUint256 n = some a) : n = a := by
  unfold atMostUint256 at h
  split at h
  · exact Option.some.inj h
  · cases h

theorem atMostUint256_le {n a : Int} (h : atMostUint256 n = some a) : a ≤ maxUint256 := by
  unfold atMostUint256 at h
  split at h
  · obtain rfl := Option.some.inj h
    assumption
  · cases h

/-- What is read is not negative. -/
theorem sign_of_amount {value : Json} {v : Decimal} {tokenDecimals : Option Int} {a : Int}
    (hint : parseInt value = .ok none) (hv : parseDecimal value = some v)
    (ha : parseBaseUnitAmount value tokenDecimals = .ok (some a)) : ¬ (v.neg = true ∧ v.coeff ≠ 0) := by
  intro hsign
  rw [parseBaseUnitAmount_negative hint hv hsign] at ha
  cases ha

/-- A whole number is read as it is. -/
private theorem whole_amount {value : Json} {v : Decimal} {tokenDecimals : Option Int} {a : Int}
    (hint : parseInt value = .ok none) (hv : parseDecimal value = some v)
    (ha : parseBaseUnitAmount value tokenDecimals = .ok (some a)) (hwhole : Int.fract v.toRat = 0) :
    a = ⌊v.toRat⌋ := by
  rw [parseBaseUnitAmount_whole hint hv (sign_of_amount hint hv ha) hwhole] at ha
  exact (atMostUint256_eq_some (Except.ok.inj ha)).symm

/-- A number with a fractional part is read with decimals only, and its product is rounded to 28 digits. -/
theorem fraction_amount {value : Json} {v : Decimal} {tokenDecimals : Option Int} {a : Int}
    (hint : parseInt value = .ok none) (hv : parseDecimal value = some v)
    (ha : parseBaseUnitAmount value tokenDecimals = .ok (some a)) (hfract : Int.fract v.toRat ≠ 0) :
    ∃ decimals : Nat, tokenDecimals = some (decimals : Int) ∧
      0 < v.toRat * 10 ^ decimals ∧ ∃ y, RoundsTo28 (v.toRat * 10 ^ decimals) y ∧ a = ⌊y⌋ := by
  have hsign := sign_of_amount hint hv ha
  have hpos := positive_of_fract hsign hfract
  have hdecimals : ∃ decimals : Nat, tokenDecimals = some (decimals : Int) := by
    by_contra hnone
    rw [parseBaseUnitAmount_unscaled hint hv hsign hfract] at ha
    · cases ha
    · intro n hn
      by_contra hn0
      exact hnone ⟨n.toNat, by rw [Option.mem_def.1 hn, Int.toNat_of_nonneg (not_lt.1 hn0)]⟩
  obtain ⟨decimals, rfl⟩ := hdecimals
  refine ⟨decimals, rfl, mul_pos (toRat_pos hpos) (by positivity), ?_⟩
  rw [parseBaseUnitAmount_fraction hint hv hsign hfract] at ha
  cases hscaled : scaleToBaseUnits v decimals with
  | error e =>
    rw [hscaled] at ha
    cases ha
  | ok scaled =>
    rw [hscaled] at ha
    obtain ⟨hrounds, hfloor⟩ := scaleToBaseUnits_eq_ok hv hpos hscaled
    refine ⟨scaled.toRat, hrounds, ?_⟩
    rw [← hfloor]
    exact (atMostUint256_eq_some (Except.ok.inj ha)).symm

/-- Two texts with a decimal point, the first of them not negative and not above the second, give amounts in order. -/
def ReadsInOrder (x y : String) (tokenDecimals : Option Int) : Prop :=
  '.' ∈ x.toList → '.' ∈ y.toList →
    ∀ v w : Decimal, parseDecimal (.str x) = some v → parseDecimal (.str y) = some w → 0 ≤ v.toRat → v.toRat ≤ w.toRat →
    ∀ a b : Int, parseBaseUnitAmount (.str x) tokenDecimals = .ok (some a) →
      parseBaseUnitAmount (.str y) tokenDecimals = .ok (some b) → a ≤ b

/-- An amount is the integer part of what its text stands for, if scaling it loses nothing of that. -/
private theorem amount_eq_floor {value : Json} {u : Decimal} {decimals : Nat} {n : Int} (hs : parseInt value = .ok none)
    (hu : parseDecimal value = some u) (hn : parseBaseUnitAmount value (some (decimals : Int)) = .ok (some n))
    (hkeeps : Int.fract u.toRat ≠ 0 → KeepsFloor (u.toRat * 10 ^ decimals)) : n = ⌊baseUnits u decimals⌋ := by
  unfold baseUnits
  by_cases hwhole : Int.fract u.toRat = 0
  · rw [if_pos hwhole]
    exact whole_amount hs hu hn hwhole
  · rw [if_neg hwhole]
    obtain ⟨decimals', hdecimals, hpos, q, hq, rfl⟩ := fraction_amount hs hu hn hwhole
    obtain rfl : decimals' = decimals := by exact_mod_cast (Option.some.inj hdecimals).symm
    exact (hq.floor_eq_iff hpos).2 (hkeeps hwhole)

/-- Two texts in the same units are read in order, and so is a whole number before one that is scaled up.  Otherwise
one of the two is whole; then they are read in the order of what they stand for, if the other one is scaled exactly. -/
theorem parseBaseUnitAmount_mono {x y : String} {tokenDecimals : Option Int} {v w : Decimal} {a b : Int}
    (hx : '.' ∈ x.toList) (hy : '.' ∈ y.toList) (hv : parseDecimal (.str x) = some v)
    (hw : parseDecimal (.str y) = some w) (hle : v.toRat ≤ w.toRat)
    (ha : parseBaseUnitAmount (.str x) tokenDecimals = .ok (some a))
    (hb : parseBaseUnitAmount (.str y) tokenDecimals = .ok (some b)) :
    ((Int.fract v.toRat = 0 ↔ Int.fract w.toRat = 0) → a ≤ b) ∧
    (Int.fract v.toRat = 0 → tokenDecimals ≠ some 0 → a ≤ b) ∧
    ∀ decimals : Nat, tokenDecimals = some (decimals : Int) →
      (Int.fract v.toRat ≠ 0 → KeepsFloor (v.toRat * 10 ^ decimals)) →
      (Int.fract w.toRat ≠ 0 → KeepsFloor (w.toRat * 10 ^ decimals)) →
      (a ≤ b ↔ ⌊baseUnits v decimals⌋ ≤ ⌊baseUnits w decimals⌋) := by
  replace hx := parseInt_of_point hx
  replace hy := parseInt_of_point hy
  refine ⟨?_, ?_, ?_⟩
  · intro hsame
    by_cases hwhole : Int.fract v.toRat = 0
    · rw [whole_amount hx hv ha hwhole, whole_amount hy hw hb (hsame.1 hwhole)]
      exact Int.floor_le_floor hle
    · obtain ⟨decimals, hdecimals, hpos, p, hp, rfl⟩ := fraction_amount hx hv ha hwhole
      obtain ⟨decimals', hdecimals', -, q, hq, rfl⟩ := fraction_amount hy hw hb (mt hsame.2 hwhole)
      -- both are scaled by the same power of ten
      have hequal : decimals' = decimals := by
        rw [hdecimals] at hdecimals'
        exact_mod_cast (Option.some.inj hdecimals').symm
      rw [hequal] at hq
      exact Int.floor_le_floor (hp.mono hq hpos (mul_le_mul_of_nonneg_right hle (by positivity)))
  · intro hwhole hscales
    rw [whole_amount hx hv ha hwhole]
    by_cases hwhole' : Int.fract w.toRat = 0
    · rw [whole_amount hy hw hb hwhole']
      exact Int.floor_le_floor hle
    · obtain ⟨decimals, hdecimals, hpos, q, hq, rfl⟩ := fraction_amount hy hw hb hwhole'
      refine Int.floor_le_floor ?_
      -- at least one decimal makes up for what the rounding may lose
      have hne : decimals ≠ 0 := by
        intro hzero
        rw [hzero] at hdecimals
        exact hscales hdecimals
      have hten : (2 : ℚ) ≤ 10 ^ decimals := le_trans (by norm_num) (le_self_pow₀ (by norm_num) hne)
      have hw0 : 0 < w.toRat := (mul_pos_iff_of_pos_right (by positivity)).1 hpos
      have hhalf := hq.half_le hpos
      have hdouble : w.toRat * 2 ≤ w.toRat * 10 ^ decimals := mul_le_mul_of_nonneg_left hten hw0.le
      linarith
  · rintro decimals rfl hkeeps hkeeps'
    rw [amount_eq_floor hx hv ha hkeeps, amount_eq_floor hy hw hb hkeeps']

theorem parseBaseUnitAmount_mono_halves :
    parseBaseUnitAmount (.str "1.5") (some 18) = .ok (some 1500000000000000000) ∧
      parseBaseUnitAmount (.str "2.5") (some 18) = .ok (some 2500000000000000000) ∧
      (1500000000000000000 : Int) ≤ 2500000000000000000 := by
  have hx : parseBaseUnitAmount (.str "1.5") (some 18) = .ok (some 1500000000000000000) := by decide +kernel
  have hy : parseBaseUnitAmount (.str "2.5") (some 18) = .ok (some 2500000000000000000) := by decide +kernel
  have hv : parseDecimal (.str "1.5") = some ⟨false, 15, -1⟩ := by decide +kernel
  have hw : parseDecimal (.str "2.5") = some ⟨false, 25, -1⟩ := by decide +kernel
  refine ⟨hx, hy, ?_⟩
  exact (parseBaseUnitAmount_mono (by decide) (by decide) hv hw (by decide +kernel) hx hy).1 (by decide +kernel)

/-- One and a half is read as human units, two as base units. -/
theorem parseBaseUnitAmount_not_in_order : ¬ ReadsInOrder "1.5" "2.0" (some 18) := by
  intro h
  have hread := h (by decide) (by decide) ⟨false, 15, -1⟩ ⟨false, 20, -1⟩ (by decide +kernel) (by decide +kernel)
    (by decide +kernel) (by decide +kernel) 1500000000000000000 2 (by decide +kernel) (by decide +kernel)
  omega

end TokenPriceAgg

import TokenPriceAgg.Lib.DecimalRounding
import Mathlib.Data.Nat.Cast.Order.Field
import Mathlib.Algebra.Order.Floor.Ring

/-!
# The mean of two decimals

`(a + b) / 2` is rounded twice: the sum to 28 digits, and its half again.  The result is a whole number of steps, where
a step is one unit of the 28th digit of the exact mean, or five of them if doubling the mean gives a new digit.
`mean_rounds` says to which of the two multiples of a step beside it the mean is rounded.

`sub_nonneg_le`, `div_nonneg_le` and `mul_nonneg_le` bound what differences, quotients and products can become, however
small they are.
-/

namespace PyLib

namespace Decimal

/-! ### Comparison -/

private theorem scaledTo_mul {d : Decimal} {e : Int} (he : e ≤ d.exp) : (d.scaledTo e : ℚ) * 10 ^ e = d.toRat := by
  obtain ⟨k, hk⟩ : ∃ k : Nat, d.exp = e + k := ⟨(d.exp - e).toNat, by omega⟩
  have hshift : (d.exp - e).toNat = k := by omega
  unfold scaledTo signed toRat
  rw [hshift, hk, ten_add]
  cases d.neg with
  | false =>
    simp
    ring
  | true =>
    simp
    ring

theorem lt_iff {a b : Decimal} : a.lt b = true ↔ a.toRat < b.toRat := by
  have ha := scaledTo_mul (d := a) (min_le_left a.exp b.exp)
  have hb := scaledTo_mul (d := b) (min_le_right a.exp b.exp)
  unfold lt
  rw [decide_eq_true_eq, ← ha, ← hb, mul_lt_mul_iff_of_pos_right (ten_pos _)]
  exact_mod_cast Iff.rfl

theorem toRat_of_nonneg {d : Decimal} (h : d.neg = false) : d.toRat = d.coeff * 10 ^ d.exp := by
  unfold toRat
  rw [h]
  simp

/-! ### Bounds -/

private theorem roundHalfEven_le_of_le {n d N : Nat} (hd : 0 < d) (h : n ≤ N * d) : roundHalfEven n d ≤ N := by
  have hdiv : n / d ≤ N := Nat.div_le_of_le_mul (by rwa [mul_comm])
  rcases hdiv.lt_or_eq with hlt | heq
  · exact (roundHalfEven_le n d).trans hlt
  · have hmod : d * (n / d) + n % d = n := Nat.div_add_mod n d
    have hmul : d * (n / d) = N * d := by rw [heq, mul_comm]
    have hzero : n % d = 0 := by omega
    unfold roundHalfEven
    rw [hzero, if_pos (by omega), heq]

private theorem leading_le {c : Nat} {e T : Int} (hc : 0 < c) (h : (c : ℚ) * 10 ^ e ≤ 10 ^ T) :
    e + numDigits c - 1 ≤ T := by
  by_contra hlt
  have hle := (le_leading_iff (e := e) (t := T + 1) hc).1 (by omega)
  have hpow : (10 : ℚ) ^ T < 10 ^ (T + 1) := zpow_lt_zpow_right₀ (by norm_num) (by omega)
  exact absurd (hle.trans h) (not_le.2 hpow)

/-- What is below a power of ten that is in range does not overflow. -/
private theorem adjusted_le {neg : Bool} {c : Nat} {e T : Int} (he : e ≤ T) (hmax : T < emax)
    (h : (c : ℚ) * 10 ^ e ≤ 10 ^ T) : ¬ emax < (⟨neg, c, e⟩ : Decimal).adjusted := by
  unfold adjusted
  dsimp only
  rcases Nat.eq_zero_or_pos c with rfl | hc
  · have hone : numDigits 0 = 1 := rfl
    omega
  · have hlead := leading_le hc h
    omega

/-- What is left of `c` in units of the last digit that is kept. -/
private theorem roundHalfEven_bounds {c k : Nat} {e T : Int} (hT : e + k ≤ T) (hdigits : numDigits c ≤ 28 + k)
    (h : (c : ℚ) * 10 ^ e ≤ 10 ^ T) :
    roundHalfEven c (10 ^ k) ≤ 10 ^ 28 ∧ (roundHalfEven c (10 ^ k) : ℚ) * 10 ^ (e + k) ≤ 10 ^ T := by
  obtain ⟨j, rfl⟩ : ∃ j : Nat, T = e + k + j := ⟨(T - (e + k)).toNat, by omega⟩
  have hten : (0 : Nat) < 10 ^ k := by positivity
  constructor
  · refine roundHalfEven_le_of_le hten ?_
    rw [← pow_add]
    exact (lt_pow_numDigits c).le.trans (Nat.pow_le_pow_right (by norm_num) hdigits)
  · have hbound : c ≤ 10 ^ j * 10 ^ k := by
      rw [ten_add, ten_add, ← mul_assoc, mul_le_mul_iff_of_pos_right (ten_pos e)] at h
      exact_mod_cast h
    have hr := roundHalfEven_le_of_le hten hbound
    rw [ten_add (e + k) j]
    exact mul_le_mul_of_nonneg_right (by exact_mod_cast hr) (ten_pos _).le

/-- Rounding never passes a power of ten that is in range. -/
private theorem fix_le
    (neg : Bool) {c : Nat} {e T : Int} (hT : 0 ≤ T) (hmax : T < emax) (h : (c : ℚ) * 10 ^ e ≤ 10 ^ T) :
    ∃ d, fix neg c e = .ok d ∧ d.neg = neg ∧ (d.coeff : ℚ) * 10 ^ d.exp ≤ 10 ^ T := by
  have hprec : prec = 28 := rfl
  have hemax : emax = 999999 := rfl
  have hetiny : etiny = -1000026 := rfl
  rcases Nat.eq_zero_or_pos c with rfl | hc
  · refine ⟨_, if_pos rfl, rfl, ?_⟩
    rw [Nat.cast_zero, zero_mul]
    exact (ten_pos T).le
  have hlead := leading_le hc h
  unfold fix
  rw [if_neg hc.ne']
  dsimp only
  generalize hmin : max ((numDigits c : Int) + e - (prec : Int)) etiny = expMin
  have hminT : expMin ≤ T := by omega
  by_cases hshort : e < expMin
  · rw [if_pos hshort]
    obtain ⟨k, rfl⟩ : ∃ k : Nat, expMin = e + k := ⟨(expMin - e).toNat, by omega⟩
    obtain ⟨hr, hvalue⟩ := roundHalfEven_bounds hminT (by omega) h
    have hexp : (e + k - e).toNat = k := by omega
    rw [hexp]
    generalize roundHalfEven c (10 ^ k) = r at hr hvalue
    by_cases hcarry : prec < numDigits r
    · obtain rfl := eq_of_carry hr hcarry
      rw [← carry_value] at hvalue
      have hlead' := leading_le (by norm_num) hvalue
      have hdigits : 0 < numDigits (10 ^ 28 / 10) := Nat.succ_pos _
      rw [if_pos hcarry, if_neg (adjusted_le (by omega) hmax hvalue)]
      exact ⟨_, rfl, rfl, hvalue⟩
    · rw [if_neg hcarry, if_neg (adjusted_le hminT hmax hvalue)]
      exact ⟨_, rfl, rfl, hvalue⟩
  · rw [if_neg hshort, if_neg (by omega)]
    exact ⟨_, rfl, rfl, h⟩

/-- What is rounded has at most 28 digits. -/
private theorem fix_numDigits {neg : Bool} {c : Nat} {e : Int} {d : Decimal} (h : fix neg c e = .ok d) :
    numDigits d.coeff ≤ 28 := by
  have hprec : prec = 28 := rfl
  unfold fix at h
  split at h
  · cases h
    exact (show numDigits 0 = 1 from rfl).le.trans (by norm_num)
  · dsimp only at h
    generalize hmin : max ((numDigits c : Int) + e - (prec : Int)) etiny = expMin at h
    split at h
    · have hdigits : c ≤ 10 ^ 28 * 10 ^ (expMin - e).toNat := by
        rw [← pow_add]
        exact (lt_pow_numDigits c).le.trans (Nat.pow_le_pow_right (by norm_num) (by omega))
      have hr := roundHalfEven_le_of_le (by positivity) hdigits
      generalize roundHalfEven c (10 ^ (expMin - e).toNat) = r at h hr
      split at h
      · split at h
        · cases h
        · cases h
          exact numDigits_le_of_lt (by norm_num) (by dsimp only; omega)
      · split at h
        · cases h
        · cases h
          dsimp only
          omega
    · split at h
      · cases h
      · cases h
        dsimp only
        omega

/-- The rounding of a positive value that is not subnormal. -/
private theorem fix_rounds
    {neg : Bool} {c : Nat} {e : Int} {d : Decimal} (hc : 0 < c) (hlow : (10 : ℚ) ^ emin ≤ c * 10 ^ e)
    (h : fix neg c e = .ok d) : RoundsTo28 (c * 10 ^ e) (d.coeff * 10 ^ d.exp) := by
  have hlead := (le_leading_iff hc).2 hlow
  obtain ⟨-, r, hvalue, hgrid⟩ := fix_grid hc hlead h
  have hlog : Int.log 10 ((c : ℚ) * 10 ^ e) = e + numDigits c - 1 :=
    log_eq ((le_leading_iff hc).1 le_rfl) (not_le.1 (mt (le_leading_iff hc).2 (by omega)))
  have hunit : Int.log 10 ((c : ℚ) * 10 ^ e) - 27 = e + numDigits c - 28 := by omega
  refine ⟨r, ?_, fun N hN => ?_⟩
  · rw [hunit]
    exact hvalue
  · rw [hunit]
    exact hgrid N hN

private theorem RoundsTo28.pos {x y : ℚ} (h : RoundsTo28 x y) (hx : 0 < x) : 0 < y := by
  have hle := h.half_le hx
  linarith

private theorem coeff_pos_of_value {c : Nat} {e : Int} (h : (0 : ℚ) < c * 10 ^ e) : 0 < c := by
  rcases Nat.eq_zero_or_pos c with rfl | hc
  · rw [Nat.cast_zero, zero_mul] at h
    exact absurd h (lt_irrefl 0)
  · exact hc

/-- The sum of two positive decimals of moderate size is positive, and rounded to 28 digits. -/
private theorem add_rounds {a b : Decimal} {T : Int} (ha : a.Positive) (hb : b.Positive) (hT : 0 ≤ T) (hmax : T < emax)
    (hlow : (10 : ℚ) ^ emin ≤ a.toRat + b.toRat) (hhigh : a.toRat + b.toRat ≤ 10 ^ T) :
    ∃ s, add a b = .ok s ∧ s.Positive ∧ numDigits s.coeff ≤ 28 ∧ s.toRat ≤ 10 ^ T ∧
      RoundsTo28 (a.toRat + b.toRat) s.toRat := by
  have hsa := scaledTo_mul (d := a) (min_le_left a.exp b.exp)
  have hsb := scaledTo_mul (d := b) (min_le_right a.exp b.exp)
  unfold add
  dsimp only
  generalize min a.exp b.exp = e at hsa hsb ⊢
  obtain ⟨n, hn⟩ : ∃ n : Nat, a.scaledTo e + b.scaledTo e = n := by
    refine Int.eq_ofNat_of_zero_le ?_
    have hnonneg (d : Decimal) (hd : d.Positive) : 0 ≤ d.scaledTo e := by
      unfold scaledTo signed
      rw [hd.1]
      exact mul_nonneg (Int.natCast_nonneg _) (by positivity)
    exact add_nonneg (hnonneg a ha) (hnonneg b hb)
  have hvalue : (n : ℚ) * 10 ^ e = a.toRat + b.toRat := by
    rw [← hsa, ← hsb, ← add_mul]
    congr 1
    exact_mod_cast hn.symm
  rw [← hvalue] at hlow hhigh
  have hpos : 0 < n := coeff_pos_of_value ((ten_pos emin).trans_le hlow)
  have hnatAbs : ((n : Int)).natAbs = n := Int.natAbs_natCast n
  have hnot : ¬ ((n : Int) < 0) := by omega
  rw [hn, hnatAbs, if_neg (by omega), decide_eq_false hnot]
  obtain ⟨s, hs, hneg, hle⟩ := fix_le false hT hmax hhigh
  have hrounds := fix_rounds hpos hlow hs
  have hsvalue := toRat_of_nonneg hneg
  rw [← hsvalue] at hrounds hle
  have hspos : 0 < s.toRat := hrounds.pos (mul_pos (Nat.cast_pos.2 hpos) (ten_pos e))
  rw [hsvalue] at hspos
  rw [hvalue] at hrounds
  exact ⟨s, hs, ⟨hneg, coeff_pos_of_value hspos⟩, fix_numDigits hs, hle, hrounds⟩

private theorem stripZeros_value (ideal : Int) (fuel : Nat) (c : Nat) (e : Int) :
    ((stripZeros ideal fuel c e).1 : ℚ) * 10 ^ (stripZeros ideal fuel c e).2 = c * 10 ^ e := by
  induction fuel generalizing c e with
  | zero => rfl
  | succ fuel ih =>
    unfold stripZeros
    by_cases h : e < ideal ∧ c % 10 = 0
    · rw [if_pos h, ih]
      obtain ⟨m, rfl⟩ : ∃ m, c = 10 * m := ⟨c / 10, by omega⟩
      have hdiv : 10 * m / 10 = m := by omega
      rw [hdiv, ten_succ]
      push_cast
      ring
    · rw [if_neg h]

/-- The scaled integers of a division have the quotient of the two decimals. -/
private theorem scaled_quotient (a b : Nat) (e shift : Int) :
    ((a * 10 ^ shift.toNat : Nat) : ℚ) / ((b * 10 ^ (-shift).toNat : Nat) : ℚ) * 10 ^ (e - shift) =
      (a : ℚ) / b * 10 ^ e := by
  have hshift : (10 : ℚ) ^ shift.toNat = 10 ^ (-shift).toNat * 10 ^ shift := by
    rcases le_total 0 shift with h | h
    · obtain ⟨n, rfl⟩ := Int.eq_ofNat_of_zero_le h
      simp
    · obtain ⟨n, hn⟩ := Int.eq_ofNat_of_zero_le (show 0 ≤ -shift by omega)
      obtain rfl : shift = -(n : Int) := by omega
      simp
  have hne : (10 : ℚ) ^ shift ≠ 0 := (ten_pos shift).ne'
  have hne' : (10 : ℚ) ^ (-shift).toNat ≠ 0 := by positivity
  rw [zpow_sub₀ (by norm_num)]
  push_cast
  rw [hshift]
  rcases Nat.eq_zero_or_pos b with rfl | hb
  · simp
  · field_simp

/-- The quotient of a decimal that is not negative and a positive one, bounded. -/
theorem div_nonneg_le {a b : Decimal} {A B T : Int} (ha : a.neg = false) (hb : b.Positive) (hA : a.toRat ≤ 10 ^ A)
    (hB : (10 : ℚ) ^ B ≤ b.toRat) (hAB : A - B + 1 ≤ T) (hT : 0 ≤ T) (hmax : T < emax) :
    ∃ q, div a b = .ok q ∧ q.neg = false ∧ q.toRat ≤ 10 ^ T := by
  have hquot : a.toRat / b.toRat ≤ 10 ^ (A - B) := by
    rw [zpow_sub₀ (by norm_num)]
    exact div_le_div₀ (ten_pos A).le hA (ten_pos B) hB
  rw [toRat_of_nonneg ha, toRat_of_nonneg hb.1, mul_div_mul_comm, ← zpow_sub₀ (by norm_num)] at hquot
  have hsign : (a.neg != b.neg) = false := by rw [ha, hb.1]; rfl
  -- whatever is at most twice the quotient is rounded in range
  have hfix {c : Nat} {e : Int} (h : (c : ℚ) * 10 ^ e ≤ 2 * 10 ^ (A - B)) :
      ∃ q, fix (a.neg != b.neg) c e = .ok q ∧ q.neg = false ∧ q.toRat ≤ 10 ^ T := by
    have hle : (c : ℚ) * 10 ^ e ≤ 10 ^ T := by
      calc (c : ℚ) * 10 ^ e ≤ 2 * 10 ^ (A - B) := h
        _ ≤ 10 * 10 ^ (A - B) := mul_le_mul_of_nonneg_right (by norm_num) (ten_pos _).le
        _ = 10 ^ (A - B + (1 : Nat)) := by rw [ten_add, pow_one]
        _ ≤ 10 ^ T := zpow_le_zpow_right₀ (by norm_num) (by push_cast; omega)
    obtain ⟨q, hq, hneg, hqle⟩ := fix_le (a.neg != b.neg) hT hmax hle
    rw [hsign] at hneg
    exact ⟨q, hq, hneg, by rwa [toRat_of_nonneg hneg]⟩
  unfold div
  rw [if_neg hb.2.ne']
  rcases Nat.eq_zero_or_pos a.coeff with hzero | hpos
  · rw [if_pos hzero]
    refine hfix ?_
    rw [Nat.cast_zero, zero_mul]
    exact mul_nonneg (by norm_num) (ten_pos _).le
  rw [if_neg hpos.ne']
  dsimp only
  generalize hshift : (numDigits b.coeff : Int) - numDigits a.coeff + (prec : Int) + 1 = shift
  have hvalue := scaled_quotient a.coeff b.coeff (a.exp - b.exp) shift
  have hnum : 0 < a.coeff * 10 ^ shift.toNat := by positivity
  have hden : 0 < b.coeff * 10 ^ (-shift).toNat := Nat.mul_pos hb.2 (by positivity)
  have hle : b.coeff * 10 ^ (-shift).toNat ≤ a.coeff * 10 ^ shift.toNat := by
    have hda := (lt_numDigits_iff hpos).1 (show numDigits a.coeff - 1 < numDigits a.coeff by
      have := numDigits_pos a.coeff
      omega)
    have hprec : prec = 28 := rfl
    calc b.coeff * 10 ^ (-shift).toNat ≤ 10 ^ numDigits b.coeff * 10 ^ (-shift).toNat :=
          Nat.mul_le_mul_right _ (lt_pow_numDigits _).le
      _ = 10 ^ (numDigits b.coeff + (-shift).toNat) := (pow_add ..).symm
      _ ≤ 10 ^ (numDigits a.coeff - 1 + shift.toNat) := Nat.pow_le_pow_right (by norm_num) (by omega)
      _ = 10 ^ (numDigits a.coeff - 1) * 10 ^ shift.toNat := pow_add ..
      _ ≤ a.coeff * 10 ^ shift.toNat := Nat.mul_le_mul_right _ hda
  generalize a.coeff * 10 ^ shift.toNat = num at hnum hle hvalue ⊢
  generalize b.coeff * 10 ^ (-shift).toNat = den at hden hle hvalue ⊢
  have hscaled : ((num / den : Nat) : ℚ) * 10 ^ (a.exp - b.exp - shift) ≤ 10 ^ (A - B) := by
    refine le_trans ?_ (hvalue.le.trans hquot)
    exact mul_le_mul_of_nonneg_right Nat.cast_div_le (ten_pos _).le
  have hone : 1 ≤ num / den := (Nat.one_le_div_iff hden).2 hle
  by_cases hexact : num % den = 0
  · rw [if_pos hexact]
    refine hfix ?_
    rw [stripZeros_value]
    linarith [ten_pos (A - B)]
  · rw [if_neg hexact]
    refine hfix ?_
    have hsticky : (if num / den % 5 = 0 then num / den + 1 else num / den) ≤ 2 * (num / den) := by
      split <;> omega
    generalize num / den = q at hscaled hsticky
    calc ((if q % 5 = 0 then q + 1 else q : Nat) : ℚ) * 10 ^ (a.exp - b.exp - shift)
        ≤ ((2 * q : Nat) : ℚ) * 10 ^ (a.exp - b.exp - shift) :=
          mul_le_mul_of_nonneg_right (by exact_mod_cast hsticky) (ten_pos _).le
      _ = 2 * (q * 10 ^ (a.exp - b.exp - shift)) := by push_cast; ring
      _ ≤ 2 * 10 ^ (A - B) := by linarith

/-- The difference of two decimals in order. -/
theorem sub_nonneg_le {a b : Decimal} {T : Int} (ha : a.neg = false) (hb : b.neg = false) (hle : b.toRat ≤ a.toRat)
    (hT : 0 ≤ T) (hmax : T < emax) (hhigh : a.toRat ≤ 10 ^ T) :
    ∃ d, sub a b = .ok d ∧ d.neg = false ∧ d.toRat ≤ 10 ^ T := by
  have hsa := scaledTo_mul (d := a) (min_le_left a.exp b.exp)
  have hsb := scaledTo_mul (d := b) (min_le_right a.exp b.exp)
  unfold sub add
  dsimp only
  generalize min a.exp b.exp = e at hsa hsb ⊢
  have hminus : (⟨!b.neg, b.coeff, b.exp⟩ : Decimal).scaledTo e = -b.scaledTo e := by
    unfold scaledTo signed
    rw [hb]
    simp
  have hdiff : ((a.scaledTo e - b.scaledTo e : Int) : ℚ) * 10 ^ e = a.toRat - b.toRat := by
    rw [← hsa, ← hsb, ← sub_mul]
    push_cast
    rfl
  obtain ⟨n, hn⟩ : ∃ n : Nat, a.scaledTo e - b.scaledTo e = n := by
    refine Int.eq_ofNat_of_zero_le ?_
    have hnonneg : 0 ≤ ((a.scaledTo e - b.scaledTo e : Int) : ℚ) := by
      refine nonneg_of_mul_nonneg_left ?_ (ten_pos e)
      rw [hdiff]
      linarith
    exact_mod_cast hnonneg
  rw [hn] at hdiff
  have hb0 := toRat_nonneg hb
  have hvalue : (n : ℚ) * 10 ^ e ≤ 10 ^ T := by
    have hcast : (n : ℚ) * 10 ^ e = a.toRat - b.toRat := by exact_mod_cast hdiff
    linarith
  obtain ⟨d, hd, hneg, hdle⟩ := fix_le false hT hmax hvalue
  rw [hminus, ← sub_eq_add_neg, hn]
  have hsign : (if (n : Int) = 0 then a.neg && !b.neg else decide ((n : Int) < 0)) = false := by
    rw [ha, decide_eq_false (by omega : ¬ (n : Int) < 0)]
    simp
  rw [hsign, Int.natAbs_natCast]
  exact ⟨d, hd, hneg, by rwa [toRat_of_nonneg hneg]⟩

theorem mul_nonneg_le {a b : Decimal} {A B T : Int} (ha : a.neg = false) (hb : b.neg = false) (hA : a.toRat ≤ 10 ^ A)
    (hB : b.toRat ≤ 10 ^ B) (hAB : A + B ≤ T) (hT : 0 ≤ T) (hmax : T < emax) :
    ∃ d, mul a b = .ok d ∧ d.neg = false ∧ d.toRat ≤ 10 ^ T := by
  have hvalue : ((a.coeff * b.coeff : Nat) : ℚ) * 10 ^ (a.exp + b.exp) ≤ 10 ^ T := by
    calc ((a.coeff * b.coeff : Nat) : ℚ) * 10 ^ (a.exp + b.exp) = a.toRat * b.toRat := by
          rw [toRat_of_nonneg ha, toRat_of_nonneg hb, zpow_add₀ (by norm_num)]
          push_cast
          ring
      _ ≤ 10 ^ A * 10 ^ B := mul_le_mul hA hB (toRat_nonneg hb) (ten_pos A).le
      _ = 10 ^ (A + B) := (zpow_add₀ (by norm_num) A B).symm
      _ ≤ 10 ^ T := zpow_le_zpow_right₀ (by norm_num) hAB
  obtain ⟨d, hd, hneg, hle⟩ := fix_le (a.neg != b.neg) hT hmax hvalue
  rw [ha, hb] at hneg
  exact ⟨d, hd, hneg, by rwa [toRat_of_nonneg hneg]⟩

/-- The half of a positive decimal of at most 28 digits is rounded once. -/
private theorem half_rounds {s : Decimal} {T : Int} (hs : s.Positive) (hdigits : numDigits s.coeff ≤ 28) (hT : 0 ≤ T)
    (hmax : T < emax) (hlow : (10 : ℚ) ^ emin ≤ s.toRat / 2) (hhigh : s.toRat ≤ 10 ^ T) :
    ∃ m, div s (.ofNat 2) = .ok m ∧ m.Positive ∧ RoundsTo28 (s.toRat / 2) m.toRat := by
  have htwo : numDigits 2 = 1 := by
    rw [numDigits, Nat.log_of_lt (by norm_num)]
  have hprec : prec = 28 := rfl
  have hsign : (s.neg != false) = false := by rw [hs.1]; rfl
  unfold div ofNat
  rw [if_neg (by norm_num), if_neg hs.2.ne']
  dsimp only
  generalize hshift : (numDigits 2 : Int) - numDigits s.coeff + (prec : Int) + 1 = shift
  rw [htwo, hprec] at hshift
  have hvalue := scaled_quotient s.coeff 2 (s.exp - 0) shift
  obtain ⟨k, hk⟩ : ∃ k : Nat, shift.toNat = k + 1 := ⟨shift.toNat - 1, by omega⟩
  -- the scaled numerator is even
  have hden : 2 * 10 ^ (-shift).toNat = 2 := by
    rw [show (-shift).toNat = 0 by omega, pow_zero, mul_one]
  have hnum : s.coeff * 10 ^ shift.toNat = 2 * (s.coeff * 10 ^ k * 5) := by
    rw [hk, pow_succ]
    ring
  rw [hden, hnum] at hvalue ⊢
  generalize s.coeff * 10 ^ k * 5 = c at hvalue
  have hmod : 2 * c % 2 = 0 := Nat.mul_mod_right 2 c
  have hdiv : 2 * c / 2 = c := Nat.mul_div_cancel_left c (by norm_num)
  rw [if_pos hmod, hdiv, hsign]
  have hexact : (c : ℚ) * 10 ^ (s.exp - 0 - shift) = s.toRat / 2 := by
    push_cast at hvalue
    rw [mul_div_cancel_left₀ _ (by norm_num : (2 : ℚ) ≠ 0)] at hvalue
    rw [hvalue, toRat_of_nonneg hs.1, sub_zero]
    ring
  have hstrip := stripZeros_value (s.exp - 0) shift.toNat c (s.exp - 0 - shift)
  rw [hexact] at hstrip
  generalize stripZeros (s.exp - 0) shift.toNat c (s.exp - 0 - shift) = r at hstrip
  have hpos : (0 : ℚ) < s.toRat / 2 := (ten_pos emin).trans_le hlow
  have hle : (r.1 : ℚ) * 10 ^ r.2 ≤ 10 ^ T := by
    rw [hstrip]
    linarith
  obtain ⟨m, hm, hneg, -⟩ := fix_le false hT hmax hle
  have hrounds := fix_rounds (coeff_pos_of_value (hstrip ▸ hpos)) (hstrip ▸ hlow) hm
  rw [hstrip, ← toRat_of_nonneg hneg] at hrounds
  have hmpos := hrounds.pos hpos
  rw [toRat_of_nonneg hneg] at hmpos
  exact ⟨m, hm, ⟨hneg, coeff_pos_of_value hmpos⟩, hrounds⟩

/-! ### The mean -/

/-- One unit of the 28th digit of the mean, or five of them if doubling the mean gives a new digit. -/
def meanStep (v : ℚ) : ℚ := (if v < 5 * 10 ^ Int.log 10 v then 1 else 5) * 10 ^ (Int.log 10 v - 27)

/-- The mean `v` is rounded to the next multiple of a step above it.  With a step of one unit the sum loses no more than
its last digit and the half is rounded again: from three quarters of a step on it goes up, and from more than one
quarter on if the multiple below is odd. -/
def MeanRoundsUp (v : ℚ) : Prop :=
  if v < 5 * 10 ^ Int.log 10 v then
    3 / 4 ≤ Int.fract (v / meanStep v) ∨ (1 / 4 < Int.fract (v / meanStep v) ∧ Odd ⌊v / meanStep v⌋)
  else 1 / 2 < Int.fract (v / meanStep v) ∨ (1 / 2 = Int.fract (v / meanStep v) ∧ Odd ⌊v / meanStep v⌋)

instance (v : ℚ) : Decidable (MeanRoundsUp v) := inferInstanceAs (Decidable (ite _ _ _))

/-- The mean after both roundings. -/
def roundedMean (v : ℚ) : ℚ := (⌊v / meanStep v⌋ + if MeanRoundsUp v then 1 else 0) * meanStep v

private theorem meanStep_pos (v : ℚ) : 0 < meanStep v := by
  unfold meanStep
  refine mul_pos ?_ (ten_pos _)
  split <;> norm_num

/-- A whole number of units is left as it is. -/
private theorem RoundsTo28.eq_of_units {x y : ℚ} {n : Nat} (h : RoundsTo28 x y) (hn : 0 < n)
    (hx : x = n * 10 ^ (Int.log 10 x - 27)) : y = x := by
  obtain ⟨r, rfl, hr⟩ := h
  have hunit := ten_pos (Int.log 10 x - 27)
  have hcount : x / 10 ^ (Int.log 10 x - 27) = n := by
    rw [div_eq_iff hunit.ne']
    exact hx
  rw [hcount] at hr
  have hle : n ≤ r := (hr n hn).2 (roundsUpTo_natCast.2 le_rfl)
  have hge : ¬ n + 1 ≤ r := by
    rw [hr (n + 1) (by omega), roundsUpTo_natCast]
    omega
  have heq : r = n := by omega
  rw [heq]
  exact hx.symm

private theorem eq_or_next {k r : Nat} {P : Prop} [Decidable P] (hlow : k ≤ r) (hhigh : r ≤ k + 1)
    (h : k + 1 ≤ r ↔ P) : r = k + if P then 1 else 0 := by
  by_cases hp : P
  · have hnext := h.2 hp
    rw [if_pos hp]
    omega
  · have hnext := mt h.1 hp
    rw [if_neg hp]
    omega

/-- What the double of `k + f` units is rounded to. -/
private theorem double_units {k r : Nat} {f : ℚ} (hk : 0 < k) (hf : 0 ≤ f) (hf' : f < 1)
    (hr : ∀ N, 0 < N → (N ≤ r ↔ RoundsUpTo N (2 * (k + f)))) :
    2 * k ≤ r ∧ r ≤ 2 * k + 2 ∧ (2 * k + 1 ≤ r ↔ 1 / 4 < f) ∧ (2 * k + 2 ≤ r ↔ 3 / 4 ≤ f) := by
  refine ⟨(hr _ (by omega)).2 (.inl (by push_cast; linarith)), ?_, ?_, ?_⟩
  · by_contra hlt
    obtain h | ⟨h, -⟩ := (hr (2 * k + 3) (by omega)).1 (by omega)
    · push_cast at h
      linarith
    · push_cast at h
      linarith
  · rw [hr _ (by omega)]
    constructor
    · rintro (h | ⟨-, h⟩)
      · push_cast at h
        linarith
      · omega
    · intro h
      left
      push_cast
      linarith
  · rw [hr _ (by omega)]
    constructor
    · rintro (h | ⟨h, -⟩) <;> · push_cast at h; linarith
    · intro h
      rcases h.lt_or_eq with h | h
      · left
        push_cast
        linarith
      · right
        exact ⟨by push_cast; linarith, by omega⟩

/-- What half of `r` units is rounded to. -/
private theorem half_units {k r r' : Nat} (hk : 0 < k) (hlow : 2 * k ≤ r) (hhigh : r ≤ 2 * k + 2)
    (hr' : ∀ N, 0 < N → (N ≤ r' ↔ RoundsUpTo N ((r : ℚ) / 2))) :
    k ≤ r' ∧ r' ≤ k + 1 ∧ (k + 1 ≤ r' ↔ 2 * k + 2 ≤ r ∨ (2 * k + 1 ≤ r ∧ k % 2 = 1)) := by
  have hlow' : (2 * k : ℚ) ≤ r := by exact_mod_cast hlow
  have hhigh' : (r : ℚ) ≤ 2 * k + 2 := by exact_mod_cast hhigh
  refine ⟨(hr' k hk).2 (.inl (by linarith)), ?_, ?_⟩
  · by_contra hlt
    obtain h | ⟨h, -⟩ := (hr' (k + 2) (by omega)).1 (by omega)
    · push_cast at h
      linarith
    · push_cast at h
      linarith
  · rw [hr' _ (by omega)]
    constructor
    · rintro (h | ⟨h, heven⟩)
      · left
        push_cast at h
        have hlt : (2 * k + 1 : ℚ) < r := by linarith
        exact_mod_cast hlt
      · right
        push_cast at h
        have heq : (r : ℚ) = 2 * k + 1 := by linarith
        have heq' : r = 2 * k + 1 := by exact_mod_cast heq
        omega
    · rintro (h | ⟨h, hodd⟩)
      · left
        have hle : (2 * k + 2 : ℚ) ≤ r := by exact_mod_cast h
        push_cast
        linarith
      · rcases h.lt_or_eq with h | h
        · left
          have hle : (2 * k + 2 : ℚ) ≤ r := by exact_mod_cast h
          push_cast
          linarith
        · right
          have heq : (2 * k + 1 : ℚ) = r := by exact_mod_cast h
          exact ⟨by push_cast; linarith, by omega⟩

/-- The mean in steps: a whole number of at least `10 ^ 27` and a fraction. -/
private theorem mean_in_steps {v : ℚ} (hv : 0 < v) : ∃ k : Nat, ⌊v / meanStep v⌋ = k ∧ 10 ^ 27 ≤ k ∧
    v = (k + Int.fract (v / meanStep v)) * meanStep v ∧
    k < if v < 5 * 10 ^ Int.log 10 v then 5 * 10 ^ 27 else 2 * 10 ^ 27 := by
  have hstep := meanStep_pos v
  obtain ⟨k, hk⟩ := Int.eq_ofNat_of_zero_le (Int.floor_nonneg.2 (div_pos hv hstep).le)
  have hsum := Int.floor_add_fract (v / meanStep v)
  rw [hk, Int.cast_natCast] at hsum
  have hunit : (10 : ℚ) ^ Int.log 10 v = 10 ^ 27 * 10 ^ (Int.log 10 v - 27) := by
    have hten := ten_add (Int.log 10 v - 27) 27
    rwa [show Int.log 10 v - 27 + (27 : Nat) = Int.log 10 v by omega] at hten
  have hlow := zpow_log_le hv
  have hhigh := lt_zpow_succ_log v
  rw [ten_succ] at hhigh
  have hpos := ten_pos (Int.log 10 v - 27)
  have hge : ((10 ^ 27 : Nat) : ℚ) ≤ v / meanStep v := by
    rw [le_div_iff₀ hstep]
    unfold meanStep
    split
    · push_cast
      linarith
    · push_cast
      linarith
  have hlt : v / meanStep v < ((if v < 5 * 10 ^ Int.log 10 v then 5 * 10 ^ 27 else 2 * 10 ^ 27 : Nat) : ℚ) := by
    rw [div_lt_iff₀ hstep]
    unfold meanStep
    split
    · push_cast
      linarith
    · push_cast
      linarith
  refine ⟨k, hk, ?_, ?_, ?_⟩
  · have hfloor := Int.le_floor.2 (by exact_mod_cast hge : (((10 ^ 27 : Nat) : Int) : ℚ) ≤ v / meanStep v)
    omega
  · rw [hsum, div_mul_cancel₀ _ hstep.ne']
  · have hle : (k : ℚ) ≤ v / meanStep v := by linarith [Int.fract_nonneg (v / meanStep v)]
    exact_mod_cast hle.trans_lt hlt

private theorem log_of_units {q : ℚ} {e : Int} (hlow : 10 ^ 27 ≤ q) (hhigh : q < 10 ^ 28) :
    Int.log 10 (q * 10 ^ e) = e + 27 := by
  have h27 : (10 : ℚ) ^ (e + 27) = 10 ^ 27 * 10 ^ e := ten_add e 27
  have h28 : (10 : ℚ) ^ (e + 27 + 1) = 10 ^ 28 * 10 ^ e := by
    rw [show e + 27 + 1 = e + (28 : Nat) by push_cast; ring]
    exact ten_add e 28
  refine log_eq ?_ ?_
  · rw [h27]
    exact mul_le_mul_of_nonneg_right hlow (ten_pos e).le
  · rw [h28]
    exact mul_lt_mul_of_pos_right hhigh (ten_pos e)

/-- With a step of one unit the sum keeps the exponent of the mean, and so does its half. -/
private theorem mean_of_unit {k : Nat} {f s m : ℚ} {e : Int} (hlow : 10 ^ 27 ≤ k) (hhigh : k < 5 * 10 ^ 27) (hf : 0 ≤ f)
    (hf' : f < 1) (hs : RoundsTo28 (2 * ((k + f) * 10 ^ e)) s) (hm : RoundsTo28 (s / 2) m) :
    m = (k + if 3 / 4 ≤ f ∨ (1 / 4 < f ∧ k % 2 = 1) then 1 else 0) * 10 ^ e := by
  have hten := ten_pos e
  have hlow' : (10 ^ 27 : ℚ) ≤ k := by exact_mod_cast hlow
  have hhigh' : (k : ℚ) + 1 ≤ 5 * 10 ^ 27 := by exact_mod_cast hhigh
  rw [← mul_assoc] at hs
  have hlog := log_of_units (q := 2 * (k + f)) (e := e) (by linarith) (by linarith)
  obtain ⟨r, rfl, hr⟩ := hs
  rw [hlog, add_sub_cancel_right, mul_div_assoc, div_self hten.ne', mul_one] at hr
  rw [hlog, add_sub_cancel_right] at hm
  obtain ⟨hrlow, hrhigh, hone, htwo⟩ := double_units (by omega) hf hf' hr
  have hrlow' : (2 * k : ℚ) ≤ r := by exact_mod_cast hrlow
  have hrhigh' : (r : ℚ) ≤ 2 * k + 2 := by exact_mod_cast hrhigh
  rw [mul_div_right_comm] at hm
  have hlog' := log_of_units (q := r / 2) (e := e) (by linarith) (by linarith)
  obtain ⟨r', rfl, hr'⟩ := hm
  rw [hlog', add_sub_cancel_right, mul_div_assoc, div_self hten.ne', mul_one] at hr'
  obtain ⟨hklow, hkhigh, hnext⟩ := half_units (by omega) hrlow hrhigh hr'
  rw [htwo, hone] at hnext
  rw [hlog', add_sub_cancel_right, eq_or_next hklow hkhigh hnext]
  push_cast
  rfl

/-- What `k + f` units are rounded to. -/
private theorem round_units {k r : Nat} {f : ℚ} (hk : 0 < k) (hf : 0 ≤ f) (hf' : f < 1)
    (hr : ∀ N, 0 < N → (N ≤ r ↔ RoundsUpTo N (k + f))) :
    k ≤ r ∧ r ≤ k + 1 ∧ (k + 1 ≤ r ↔ 1 / 2 < f ∨ (1 / 2 = f ∧ k % 2 = 1)) := by
  refine ⟨(hr _ hk).2 (.inl (by linarith)), ?_, ?_⟩
  · by_contra hlt
    obtain h | ⟨h, -⟩ := (hr (k + 2) (by omega)).1 (by omega)
    · push_cast at h
      linarith
    · push_cast at h
      linarith
  · rw [hr _ (by omega)]
    unfold RoundsUpTo
    have hlt : ((k + 1 : Nat) : ℚ) - 1 / 2 < k + f ↔ 1 / 2 < f := by
      push_cast
      constructor <;> intro h <;> linarith
    have heq : ((k + 1 : Nat) : ℚ) - 1 / 2 = k + f ↔ 1 / 2 = f := by
      push_cast
      constructor <;> intro h <;> linarith
    have heven : (k + 1) % 2 = 0 ↔ k % 2 = 1 := by omega
    rw [hlt, heq, heven]

/-- Half of `r` tens of units has at most 28 digits. -/
private theorem half_tens {r : Nat} {m : ℚ} {e : Int} (hlow : 10 ^ 27 ≤ r) (hhigh : r ≤ 2 * 10 ^ 27)
    (hm : RoundsTo28 (r * (5 * 10 ^ e)) m) : m = r * (5 * 10 ^ e) := by
  by_cases hcarry : r = 2 * 10 ^ 27
  · have hpower : (r : ℚ) * (5 * 10 ^ e) = 10 ^ 27 * 10 ^ (e + 1) := by
      rw [hcarry, ten_succ]
      push_cast
      ring
    have hlog := log_of_units (q := 10 ^ 27) (e := e + 1) le_rfl (by norm_num)
    rw [← hpower] at hlog
    refine hm.eq_of_units (n := 10 ^ 27) (by norm_num) ?_
    rw [hlog, add_sub_cancel_right, hpower]
    push_cast
    rfl
  · have hunits : (r : ℚ) * (5 * 10 ^ e) = (r * 5 : ℚ) * 10 ^ e := by ring
    have hlow' : (10 ^ 27 : ℚ) ≤ r := by exact_mod_cast hlow
    have hhigh' : (r : ℚ) + 1 ≤ 2 * 10 ^ 27 := by exact_mod_cast (show r + 1 ≤ 2 * 10 ^ 27 by omega)
    have hlog := log_of_units (q := r * 5) (e := e) (by linarith) (by linarith)
    rw [← hunits] at hlog
    refine hm.eq_of_units (n := r * 5) (by omega) ?_
    rw [hlog, add_sub_cancel_right, hunits]
    push_cast
    rfl

/-- With a step of five units the sum is rounded to tens of units, and its half is left as it is. -/
private theorem mean_of_five {k : Nat} {f s m : ℚ} {e : Int} (hlow : 10 ^ 27 ≤ k) (hhigh : k < 2 * 10 ^ 27) (hf : 0 ≤ f)
    (hf' : f < 1) (hs : RoundsTo28 (2 * ((k + f) * (5 * 10 ^ e))) s) (hm : RoundsTo28 (s / 2) m) :
    m = (k + if 1 / 2 < f ∨ (1 / 2 = f ∧ k % 2 = 1) then 1 else 0) * (5 * 10 ^ e) := by
  have hlow' : (10 ^ 27 : ℚ) ≤ k := by exact_mod_cast hlow
  have hhigh' : (k : ℚ) + 1 ≤ 2 * 10 ^ 27 := by exact_mod_cast hhigh
  have hten := ten_succ e
  have hsum : 2 * ((k + f) * (5 * 10 ^ e)) = (k + f) * (10 : ℚ) ^ (e + 1) := by
    rw [hten]
    ring
  rw [hsum] at hs
  have hlog := log_of_units (q := k + f) (e := e + 1) (by linarith) (by linarith)
  obtain ⟨r, rfl, hr⟩ := hs
  rw [hlog, add_sub_cancel_right, mul_div_assoc, div_self (ten_pos _).ne', mul_one] at hr
  rw [hlog, add_sub_cancel_right, hten] at hm
  have hhalf : (r : ℚ) * (10 * 10 ^ e) / 2 = r * (5 * 10 ^ e) := by ring
  rw [hhalf] at hm
  obtain ⟨hrlow, hrhigh, hnext⟩ := round_units (by omega) hf hf' hr
  rw [half_tens (by omega) (by omega) hm, eq_or_next hrlow hrhigh hnext]
  push_cast
  rfl

/-- The two roundings of a mean. -/
private theorem mean_rounds {v s m : ℚ} (hv : 0 < v) (hs : RoundsTo28 (2 * v) s) (hm : RoundsTo28 (s / 2) m) :
    m = roundedMean v := by
  obtain ⟨k, hk, hklow, hvalue, hkhigh⟩ := mean_in_steps hv
  have hfract := Int.fract_nonneg (v / meanStep v)
  have hfract' := Int.fract_lt_one (v / meanStep v)
  have hodd : Odd ⌊v / meanStep v⌋ ↔ k % 2 = 1 := by
    rw [hk, Int.odd_iff]
    omega
  unfold roundedMean
  by_cases hsmall : v < 5 * 10 ^ Int.log 10 v
  · have hstep : meanStep v = 10 ^ (Int.log 10 v - 27) := by
      unfold meanStep
      rw [if_pos hsmall, one_mul]
    have hup : MeanRoundsUp v ↔
        3 / 4 ≤ Int.fract (v / meanStep v) ∨ (1 / 4 < Int.fract (v / meanStep v) ∧ k % 2 = 1) := by
      unfold MeanRoundsUp
      rw [if_pos hsmall, hodd]
    rw [if_congr hup rfl rfl, hk, Int.cast_natCast]
    rw [if_pos hsmall] at hkhigh
    generalize Int.fract (v / meanStep v) = f at hfract hfract' hvalue
    rw [hstep] at hvalue ⊢
    rw [hvalue] at hs
    exact mean_of_unit hklow hkhigh hfract hfract' hs hm
  · have hstep : meanStep v = 5 * 10 ^ (Int.log 10 v - 27) := by
      unfold meanStep
      rw [if_neg hsmall]
    have hup : MeanRoundsUp v ↔
        1 / 2 < Int.fract (v / meanStep v) ∨ (1 / 2 = Int.fract (v / meanStep v) ∧ k % 2 = 1) := by
      unfold MeanRoundsUp
      rw [if_neg hsmall, hodd]
    rw [if_congr hup rfl rfl, hk, Int.cast_natCast]
    rw [if_neg hsmall] at hkhigh
    generalize Int.fract (v / meanStep v) = f at hfract hfract' hvalue
    rw [hstep] at hvalue ⊢
    rw [hvalue] at hs
    exact mean_of_five hklow hkhigh hfract hfract' hs hm

/-- Between `low` and `high` there is the multiple of a step to which their mean `v` is rounded. -/
def MeanStays (low v high : ℚ) : Prop :=
  if MeanRoundsUp v then (⌊v / meanStep v⌋ + 1) * meanStep v ≤ high else low ≤ ⌊v / meanStep v⌋ * meanStep v

instance (low v high : ℚ) : Decidable (MeanStays low v high) := inferInstanceAs (Decidable (ite _ _ _))

theorem roundedMean_between_iff {low v high : ℚ} (hlow : low ≤ v) (hhigh : v ≤ high) :
    (low ≤ roundedMean v ∧ roundedMean v ≤ high) ↔ MeanStays low v high := by
  have hstep := meanStep_pos v
  have hbelow : ⌊v / meanStep v⌋ * meanStep v ≤ v := by
    rw [← le_div_iff₀ hstep]
    exact Int.floor_le _
  have habove : v ≤ (⌊v / meanStep v⌋ + 1) * meanStep v := by
    rw [← div_le_iff₀ hstep]
    exact (Int.lt_floor_add_one _).le
  unfold roundedMean MeanStays
  by_cases hup : MeanRoundsUp v
  · rw [if_pos hup, if_pos hup]
    exact and_iff_right (hlow.trans habove)
  · rw [if_neg hup, if_neg hup, add_zero]
    exact and_iff_left (hbelow.trans hhigh)

/-- The half of a sum, computed. -/
theorem mean_eq {a b : Decimal} {T : Int} (ha : a.Positive) (hb : b.Positive) (hT : 0 ≤ T) (hmax : T < emax)
    (hlow : 4 * (10 : ℚ) ^ emin ≤ a.toRat + b.toRat) (hhigh : a.toRat + b.toRat ≤ 10 ^ T) :
    ∃ s m, add a b = .ok s ∧ div s (.ofNat 2) = .ok m ∧ m.toRat = roundedMean ((a.toRat + b.toRat) / 2) := by
  have hpos : 0 < a.toRat + b.toRat := lt_of_lt_of_le (by linarith [ten_pos emin]) hlow
  obtain ⟨s, hs, hspos, hdigits, hle, hrounds⟩ := add_rounds ha hb hT hmax (by linarith [ten_pos emin]) hhigh
  have hhalf := hrounds.half_le hpos
  obtain ⟨m, hm, -, hrounds'⟩ := half_rounds hspos hdigits hT hmax (by linarith) hle
  refine ⟨s, m, hs, hm, mean_rounds (by linarith) ?_ hrounds'⟩
  rwa [mul_div_cancel₀ _ (by norm_num : (2 : ℚ) ≠ 0)]

/-- Twice 6.000000000000000000000000001 has 29 digits, so that the last one is lost. -/
example : (add ⟨false, 6 * 10 ^ 27 + 1, -27⟩ ⟨false, 6 * 10 ^ 27 + 1, -27⟩).bind (div · (.ofNat 2)) =
    .ok ⟨false, 6 * 10 ^ 26, -26⟩ := by decide +kernel

end Decimal

end PyLib

import TokenPriceAgg.Lib.Numeric
import Mathlib.Algebra.Order.Field.Power
import Mathlib.Tactic.Linarith
import Mathlib.Tactic.NormNum

/-!
# The magnitude of a rounded decimal

`adjusted` is the exponent of the leading digit.  Rounding to 28 digits can carry into a new leading digit; it does so
from `roundingEdge t` on, half a unit of the last digit below `10 ^ t`.  So a rounded result has an adjusted exponent
of at least `t` exactly when the exact value is at least `roundingEdge t` (`fix_magnitude`).

The products of positive decimals of moderate exponents and the quotients of positive integers are positive and keep
moderate exponents (`mul_magnitude`, `div_ofNat_moderate`).
-/

namespace PyLib

namespace Decimal

/-! ### Digits -/

theorem numDigits_pos (n : Nat) : 0 < numDigits n := Nat.succ_pos _

theorem lt_pow_numDigits (n : Nat) : n < 10 ^ numDigits n := Nat.lt_pow_succ_log_self (by norm_num) n

theorem lt_numDigits_iff {n k : Nat} (hn : 0 < n) : k < numDigits n ↔ 10 ^ k ≤ n := by
  rw [numDigits, Nat.lt_succ_iff]
  exact Nat.le_log_iff_pow_le (by norm_num) hn.ne'

private theorem numDigits_mono {m n : Nat} (h : m ≤ n) : numDigits m ≤ numDigits n :=
  Nat.succ_le_succ (Nat.log_mono_right h)

theorem numDigits_le_of_lt {n k : Nat} (hk : 0 < k) (h : n < 10 ^ k) : numDigits n ≤ k := by
  rcases Nat.eq_zero_or_pos n with rfl | hn
  · simpa [numDigits] using Nat.succ_le_of_lt hk
  · by_contra hlt
    have hle := (lt_numDigits_iff hn).1 (not_le.1 hlt)
    omega

private theorem numDigits_succ_le (n : Nat) : numDigits (n + 1) ≤ numDigits n + 1 := by
  refine numDigits_le_of_lt (Nat.succ_pos _) ?_
  have h := lt_pow_numDigits n
  have hpow : 10 ^ (numDigits n + 1) = 10 ^ numDigits n * 10 := pow_succ ..
  omega

theorem ten_pos (t : Int) : (0 : ℚ) < 10 ^ t := zpow_pos (by norm_num) t

theorem ten_add (s : Int) (k : Nat) : (10 : ℚ) ^ (s + k) = 10 ^ k * 10 ^ s := by
  rw [zpow_add₀ (by norm_num), zpow_natCast, mul_comm]

theorem ten_succ (e : Int) : (10 : ℚ) ^ (e + 1) = 10 * 10 ^ e := by
  have hadd := ten_add e 1
  rwa [pow_one] at hadd

/-- The exponent of the leading digit says between which powers of ten the value lies. -/
theorem le_leading_iff {c : Nat} {e t : Int} (hc : 0 < c) :
    t ≤ e + numDigits c - 1 ↔ (10 : ℚ) ^ t ≤ c * 10 ^ e := by
  have hd := numDigits_pos c
  by_cases ht : t ≤ e
  · refine iff_of_true (by omega) ?_
    have hone : (1 : ℚ) ≤ c := Nat.one_le_cast.2 hc
    calc (10 : ℚ) ^ t ≤ 10 ^ e := zpow_le_zpow_right₀ (by norm_num) ht
      _ = 1 * 10 ^ e := (one_mul _).symm
      _ ≤ c * 10 ^ e := mul_le_mul_of_nonneg_right hone (ten_pos e).le
  · obtain ⟨k, rfl⟩ : ∃ k : Nat, t = e + k := ⟨(t - e).toNat, by omega⟩
    have hk : (10 : ℚ) ^ (e + k) ≤ c * 10 ^ e ↔ 10 ^ k ≤ c := by
      rw [ten_add, mul_le_mul_iff_of_pos_right (ten_pos e)]
      exact_mod_cast Iff.rfl
    rw [hk, ← lt_numDigits_iff hc]
    omega

/-! ### Rounding -/

/-- The least value that rounds to `10 ^ t` or more. -/
def roundingEdge (t : Int) : ℚ := (10 ^ 28 - 1 / 2) * 10 ^ (t - 28)

private theorem roundingEdge_le (t : Int) : roundingEdge t ≤ 10 ^ t := by
  have h : (10 : ℚ) ^ t = 10 ^ 28 * 10 ^ (t - 28) := by
    have := ten_add (t - 28) 28
    rwa [show t - 28 + (28 : Nat) = t by omega] at this
  rw [h]
  exact mul_le_mul_of_nonneg_right (by norm_num) (ten_pos _).le

private theorem lt_roundingEdge (t : Int) : (10 : ℚ) ^ (t - 1) < roundingEdge t := by
  have h : (10 : ℚ) ^ (t - 1) = 10 ^ 27 * 10 ^ (t - 28) := by
    have := ten_add (t - 28) 27
    rwa [show t - 28 + (27 : Nat) = t - 1 by omega] at this
  rw [h]
  exact mul_lt_mul_of_pos_right (by norm_num) (ten_pos _)

private theorem roundingEdge_mono {s t : Int} (h : s ≤ t) : roundingEdge s ≤ roundingEdge t := by
  unfold roundingEdge
  exact mul_le_mul_of_nonneg_left (zpow_le_zpow_right₀ (by norm_num) (by omega)) (by norm_num)

theorem le_roundHalfEven (n d : Nat) : n / d ≤ roundHalfEven n d := by
  unfold roundHalfEven
  split
  · exact le_rfl
  · split <;> omega

theorem roundHalfEven_le (n d : Nat) : roundHalfEven n d ≤ n / d + 1 := by
  unfold roundHalfEven
  split
  · omega
  · split
    · exact le_rfl
    · have := Nat.mod_lt (n / d) (show 0 < 2 by norm_num)
      omega

/-- The largest coefficient rounds up from half a unit on, a tie included: it is odd. -/
private theorem roundHalfEven_eq_carry {n d q : Nat} (hd : 0 < d) (hn : n < (q + 1) * d) (hq : q % 2 = 1) :
    roundHalfEven n d = q + 1 ↔ (2 * q + 1) * d ≤ 2 * n := by
  have hdiv : n / d ≤ q := Nat.lt_succ_iff.1 ((Nat.div_lt_iff_lt_mul hd).2 hn)
  have hmod : d * (n / d) + n % d = n := Nat.div_add_mod n d
  have hlt : n % d < d := Nat.mod_lt n hd
  by_cases he : n / d = q
  · have hexp : (2 * q + 1) * d = 2 * (d * q) + d := by ring
    rw [he] at hmod
    rw [hexp]
    unfold roundHalfEven
    rw [he]
    split
    · omega
    · split <;> omega
  · have hup := roundHalfEven_le n d
    refine iff_of_false (by omega) ?_
    have hle : d * (n / d) + d ≤ d * q := by
      calc d * (n / d) + d = d * (n / d + 1) := by ring
        _ ≤ d * q := Nat.mul_le_mul_left d (by omega)
    have hexp : (2 * q + 1) * d = 2 * (d * q) + d := by ring
    omega

/-- A coefficient of at most 28 digits is not close enough to the next power of ten to round up to it. -/
private theorem short_magnitude {c : Nat} {e : Int} (hc : 0 < c) (hd : numDigits c ≤ 28) (t : Int) :
    t ≤ e + numDigits c - 1 ↔ roundingEdge t ≤ c * 10 ^ e := by
  constructor
  · intro h
    exact (roundingEdge_le t).trans ((le_leading_iff hc).1 h)
  · intro h
    by_contra hlt
    -- `c` is at most `10 ^ n - 1`, so the value is a whole unit of its last digit below `10 ^ (e + n)`
    obtain ⟨k, hk⟩ : ∃ k : Nat, t = e + numDigits c + k := ⟨(t - e - numDigits c).toNat, by omega⟩
    obtain ⟨m, hm⟩ : ∃ m : Nat, numDigits c + m = 28 := ⟨28 - numDigits c, by omega⟩
    have hcoeff : (c : ℚ) + 1 ≤ 10 ^ numDigits c := by exact_mod_cast lt_pow_numDigits c
    have hvalue : (c : ℚ) * 10 ^ e < roundingEdge (e + numDigits c) := by
      have hunit : (10 : ℚ) ^ m * 10 ^ (e + numDigits c - 28) = 10 ^ e := by
        rw [← ten_add]
        congr 1
        omega
      have hpos : (0 : ℚ) < 10 ^ (e + numDigits c - 28) := ten_pos _
      have hten : (10 : ℚ) ^ numDigits c * 10 ^ m = 10 ^ 28 := by rw [← pow_add, hm]
      have hone : (1 : ℚ) ≤ 10 ^ m := one_le_pow₀ (by norm_num)
      unfold roundingEdge
      rw [← hunit, ← mul_assoc]
      refine mul_lt_mul_of_pos_right ?_ hpos
      calc (c : ℚ) * 10 ^ m ≤ (10 ^ numDigits c - 1) * 10 ^ m :=
            mul_le_mul_of_nonneg_right (by linarith) (by positivity)
        _ = 10 ^ 28 - 10 ^ m := by rw [sub_mul, hten, one_mul]
        _ < 10 ^ 28 - 1 / 2 := by linarith
    have hmono : roundingEdge (e + numDigits c) ≤ roundingEdge t := roundingEdge_mono (by omega)
    exact absurd (hvalue.trans_le hmono) (not_lt.2 h)

theorem max_etiny {c : Nat} {e : Int} (hlow : emin ≤ e + numDigits c - 1) :
    max (numDigits c + e - (prec : Int)) etiny = numDigits c + e - 28 := by
  have hprec : prec = 28 := rfl
  unfold etiny
  rw [hprec]
  exact max_eq_left (by omega)

/-- What has at most 28 digits is left as it is. -/
private theorem fix_of_short {neg : Bool} {c : Nat} {e : Int} (hc : 0 < c) (hd : numDigits c ≤ 28)
    (hlow : emin ≤ e + numDigits c - 1) (hhigh : e + numDigits c - 1 < emax) : fix neg c e = .ok ⟨neg, c, e⟩ := by
  unfold fix
  rw [if_neg hc.ne']
  simp only [max_etiny hlow]
  rw [if_neg (by omega), if_neg (by omega)]

/-- What has `k` digits too many is rounded to 28 digits, or carries into a new one. -/
private theorem fix_of_long (neg : Bool) {c k : Nat} {e : Int} (hc : 0 < c) (hk : numDigits c = 28 + k) (hpos : 0 < k)
    (hlow : emin ≤ e + numDigits c - 1) (hhigh : e + numDigits c - 1 < emax) :
    ∃ r, 10 ^ 27 ≤ r ∧ (r = 10 ^ 28 ↔ (2 * (10 ^ 28 - 1) + 1) * 10 ^ k ≤ 2 * c) ∧
      fix neg c e = .ok (if r = 10 ^ 28 then ⟨neg, 10 ^ 27, e + k + 1⟩ else ⟨neg, r, e + k⟩) ∧
      (r ≠ 10 ^ 28 → numDigits r = 28) := by
  have hlo : 10 ^ 27 * 10 ^ k ≤ c := by
    rw [← pow_add]
    exact (lt_numDigits_iff hc).1 (by omega)
  have hhi : c < 10 ^ 28 * 10 ^ k := by
    rw [← pow_add, ← hk]
    exact lt_pow_numDigits c
  have hten : 0 < 10 ^ k := by positivity
  have hq := le_roundHalfEven c (10 ^ k)
  have hq' := roundHalfEven_le c (10 ^ k)
  have hdiv : 10 ^ 27 ≤ c / 10 ^ k := (Nat.le_div_iff_mul_le hten).2 hlo
  have hdiv' : c / 10 ^ k < 10 ^ 28 := (Nat.div_lt_iff_lt_mul hten).2 hhi
  have hcarry := roundHalfEven_eq_carry (q := 10 ^ 28 - 1) hten (by simpa using hhi) (by norm_num)
  have hdigits : roundHalfEven c (10 ^ k) ≠ 10 ^ 28 → numDigits (roundHalfEven c (10 ^ k)) = 28 := by
    intro hne
    have hlow : 27 < numDigits (roundHalfEven c (10 ^ k)) := (lt_numDigits_iff (by omega)).2 (by omega)
    have hhigh : ¬ 28 < numDigits (roundHalfEven c (10 ^ k)) := by
      rw [lt_numDigits_iff (by omega)]
      omega
    omega
  refine ⟨roundHalfEven c (10 ^ k), by omega, hcarry, ?_, hdigits⟩
  have hexp : (numDigits c + e - 28 - e).toNat = k := by omega
  have hprec : prec = 28 := rfl
  unfold fix
  rw [if_neg hc.ne']
  simp only [max_etiny hlow]
  rw [if_pos (by omega), hexp]
  generalize roundHalfEven c (10 ^ k) = r at hq hq' hdigits
  by_cases hr : r = 10 ^ 28
  · have hlong : numDigits r = 29 := by rw [hr, numDigits, Nat.log_pow (by norm_num)]
    have hlong' : numDigits (10 ^ 27) = 28 := by rw [numDigits, Nat.log_pow (by norm_num)]
    have hshift : numDigits c + e - 28 + 1 = e + k + 1 := by omega
    have htenth : r / 10 = 10 ^ 27 := by rw [hr]; norm_num
    have hcarried : prec < numDigits r := by rw [hlong, hprec]; norm_num
    have hbound : ¬ emax < (⟨neg, 10 ^ 27, e + k + 1⟩ : Decimal).adjusted := by
      unfold adjusted
      dsimp only
      rw [hlong']
      omega
    rw [if_pos hr]
    simp only [hcarried, if_true, hshift, htenth, hbound, if_false]
  · have hlong : numDigits r = 28 := hdigits hr
    have hshift : numDigits c + e - 28 = e + k := by omega
    have hcarried : ¬ prec < numDigits r := by rw [hlong, hprec]; norm_num
    have hbound : ¬ emax < (⟨neg, r, e + k⟩ : Decimal).adjusted := by
      unfold adjusted
      dsimp only
      rw [hlong]
      omega
    rw [if_neg hr]
    simp only [hcarried, if_false, hshift, hbound]

/-- Rounding a positive value of moderate exponent: the result is positive, and it reaches `10 ^ t` exactly from the
rounding edge on. -/
theorem fix_magnitude (neg : Bool) {c : Nat} (e : Int) (hc : 0 < c) (hlow : emin ≤ e + numDigits c - 1)
    (hhigh : e + numDigits c - 1 < emax) :
    ∃ d, fix neg c e = .ok d ∧ d.neg = neg ∧ 0 < d.coeff ∧
      ∀ t, t ≤ d.adjusted ↔ roundingEdge t ≤ c * 10 ^ e := by
  by_cases hshort : numDigits c ≤ 28
  · exact ⟨_, fix_of_short hc hshort hlow hhigh, rfl, hc, short_magnitude hc hshort⟩
  obtain ⟨k, hk⟩ : ∃ k : Nat, numDigits c = 28 + k := ⟨numDigits c - 28, by omega⟩
  obtain ⟨r, hr, hcarry, hfix, hdigits⟩ := fix_of_long neg hc hk (by omega) hlow hhigh
  have hleading (t : Int) : t ≤ e + numDigits c - 1 → roundingEdge t ≤ c * 10 ^ e :=
    fun h => (roundingEdge_le t).trans ((le_leading_iff hc).1 h)
  -- in units of the last digit kept, the edge of the next power of ten is half a unit below `10 ^ 28`
  have hedge : roundingEdge (e + numDigits c) ≤ c * 10 ^ e ↔ r = 10 ^ 28 := by
    have hten : (10 : ℚ) ^ (e + numDigits c - 28) = 10 ^ k * 10 ^ e := by
      rw [← ten_add]
      congr 1
      omega
    have hcast : (2 * (10 ^ 28 - 1) + 1) * 10 ^ k ≤ 2 * c ↔ ((2 * 10 ^ 28 - 1) * 10 ^ k : ℚ) ≤ 2 * c := by
      have hnum : (2 * 10 ^ 28 - 1 : ℚ) = ((2 * (10 ^ 28 - 1) + 1 : Nat) : ℚ) := by norm_num
      rw [hnum]
      exact_mod_cast Iff.rfl
    rw [hcarry, hcast]
    unfold roundingEdge
    rw [hten, ← mul_assoc, mul_le_mul_iff_of_pos_right (ten_pos e)]
    constructor <;> intro h <;> linarith
  by_cases hr' : r = 10 ^ 28
  · rw [if_pos hr'] at hfix
    refine ⟨_, hfix, rfl, by norm_num, fun t => ?_⟩
    have hadjusted : (⟨neg, 10 ^ 27, e + k + 1⟩ : Decimal).adjusted = e + numDigits c := by
      have hlong : numDigits (10 ^ 27) = 28 := by rw [numDigits, Nat.log_pow (by norm_num)]
      unfold adjusted
      dsimp only
      rw [hlong]
      omega
    rw [hadjusted]
    constructor
    · intro h
      exact (roundingEdge_mono h).trans (hedge.2 hr')
    · intro h
      by_contra hlt
      have hnot := mt (le_leading_iff (e := e) (t := e + numDigits c) hc).2 (by omega)
      have hle : (10 : ℚ) ^ (e + numDigits c) ≤ 10 ^ (t - 1) := zpow_le_zpow_right₀ (by norm_num) (by omega)
      exact hnot (hle.trans ((lt_roundingEdge t).le.trans h))
  · rw [if_neg hr'] at hfix
    refine ⟨_, hfix, rfl, by dsimp only; omega, fun t => ?_⟩
    have hadjusted : (⟨neg, r, e + k⟩ : Decimal).adjusted = e + numDigits c - 1 := by
      unfold adjusted
      dsimp only
      rw [hdigits hr']
      omega
    rw [hadjusted]
    constructor
    · exact hleading t
    · intro h
      by_contra hlt
      exact mt hedge.1 hr' ((roundingEdge_mono (by omega)).trans h)

/-- The exponent of the leading digit after rounding is the one before it or the next. -/
private theorem adjusted_bounds {d : Decimal} {c : Nat} {e : Int} (hc : 0 < c)
    (h : ∀ t, t ≤ d.adjusted ↔ roundingEdge t ≤ c * 10 ^ e) :
    e + numDigits c - 1 ≤ d.adjusted ∧ d.adjusted ≤ e + numDigits c := by
  constructor
  · exact (h _).2 ((roundingEdge_le _).trans ((le_leading_iff hc).1 le_rfl))
  · by_contra hlt
    have hedge := (h (e + numDigits c + 1)).1 (by omega)
    have hnot := mt (le_leading_iff (e := e) (t := e + numDigits c) hc).2 (by omega)
    have hlt' := lt_roundingEdge (e + numDigits c + 1)
    rw [show e + numDigits c + 1 - 1 = e + numDigits c by omega] at hlt'
    exact hnot (hlt'.le.trans hedge)

/-! ### Products and quotients -/

private theorem numDigits_mul {a b : Nat} (ha : 0 < a) (hb : 0 < b) :
    numDigits a + numDigits b - 1 ≤ numDigits (a * b) ∧ numDigits (a * b) ≤ numDigits a + numDigits b := by
  have hab : 0 < a * b := Nat.mul_pos ha hb
  have hda := numDigits_pos a
  have hdb := numDigits_pos b
  have hla : 10 ^ (numDigits a - 1) ≤ a := (lt_numDigits_iff ha).1 (by omega)
  have hlb : 10 ^ (numDigits b - 1) ≤ b := (lt_numDigits_iff hb).1 (by omega)
  constructor
  · have hlt : numDigits a + numDigits b - 2 < numDigits (a * b) := by
      rw [lt_numDigits_iff hab]
      calc 10 ^ (numDigits a + numDigits b - 2) = 10 ^ (numDigits a - 1) * 10 ^ (numDigits b - 1) := by
            rw [← pow_add]
            congr 1
            omega
        _ ≤ a * b := Nat.mul_le_mul hla hlb
    omega
  · by_contra hlt
    have hle : 10 ^ (numDigits a + numDigits b) ≤ a * b := (lt_numDigits_iff hab).1 (by omega)
    have hlt' : a * b < 10 ^ numDigits a * 10 ^ numDigits b :=
      Nat.mul_lt_mul'' (lt_pow_numDigits a) (lt_pow_numDigits b)
    rw [← pow_add] at hlt'
    omega

theorem toRat_of_positive {d : Decimal} (h : d.Positive) : d.toRat = d.coeff * 10 ^ d.exp := by
  unfold toRat
  rw [h.1]
  simp

/-- The product of two positive decimals of moderate exponents is positive, and its magnitude is that of the exact
product, rounded. -/
theorem mul_magnitude {a b : Decimal} (ha : a.Positive) (hb : b.Positive) (hlow : emin ≤ a.adjusted + b.adjusted)
    (hhigh : a.adjusted + b.adjusted + 1 < emax) :
    ∃ d, mul a b = .ok d ∧ d.Positive ∧ ∀ t, t ≤ d.adjusted ↔ roundingEdge t ≤ a.toRat * b.toRat := by
  have hc : 0 < a.coeff * b.coeff := Nat.mul_pos ha.2 hb.2
  obtain ⟨hd, hd'⟩ := numDigits_mul ha.2 hb.2
  unfold adjusted at hlow hhigh
  obtain ⟨d, hfix, hneg, hcoeff, hmag⟩ := fix_magnitude (a.neg != b.neg) (a.exp + b.exp) hc
    (by omega) (by omega)
  refine ⟨d, hfix, ⟨?_, hcoeff⟩, fun t => ?_⟩
  · rw [hneg, ha.1, hb.1]
    rfl
  · rw [hmag t, toRat_of_positive ha, toRat_of_positive hb, zpow_add₀ (by norm_num)]
    have hcast : ((a.coeff * b.coeff : Nat) : ℚ) * ((10 : ℚ) ^ a.exp * 10 ^ b.exp) =
        a.coeff * 10 ^ a.exp * (b.coeff * 10 ^ b.exp) := by
      push_cast
      ring
    rw [hcast]

private theorem stripZeros_spec {ideal : Int} (fuel : Nat) {c : Nat} {e : Int} (hc : 0 < c) :
    0 < (stripZeros ideal fuel c e).1 ∧ (stripZeros ideal fuel c e).1 ≤ c ∧
      e ≤ (stripZeros ideal fuel c e).2 ∧ (stripZeros ideal fuel c e).2 ≤ max e ideal := by
  induction fuel generalizing c e with
  | zero => exact ⟨hc, le_rfl, le_rfl, le_max_left ..⟩
  | succ fuel ih =>
    unfold stripZeros
    by_cases h : e < ideal ∧ c % 10 = 0
    · rw [if_pos h]
      obtain ⟨h₁, h₂, h₃, h₄⟩ := ih (c := c / 10) (e := e + 1) (by omega)
      refine ⟨h₁, by omega, by omega, h₄.trans ?_⟩
      rw [max_eq_right (by omega)]
      exact le_max_right ..
    · rw [if_neg h]
      exact ⟨hc, le_rfl, le_rfl, le_max_left ..⟩

/-- A quotient of positive integers of at most 200 digits is positive, and its exponent is moderate. -/
theorem div_ofNat_moderate {a b : Nat} (ha : 0 < a) (hb : 0 < b) (hda : numDigits a ≤ 200) (hdb : numDigits b ≤ 200) :
    ∃ d, div (.ofNat a) (.ofNat b) = .ok d ∧ d.Positive ∧ |d.adjusted| ≤ 1000 := by
  -- whatever is rounded is positive and has no more digits than the scaled numerator
  have hround {c : Nat} {e : Int} (hc : 0 < c) (hdc : numDigits c ≤ 500) (he : |e| ≤ 300) :
      ∃ d, fix false c e = .ok d ∧ d.Positive ∧ |d.adjusted| ≤ 1000 := by
    have hpos := numDigits_pos c
    obtain ⟨hlo, hhi⟩ := abs_le.1 he
    have hmin : emin = -999999 := rfl
    have hmax : emax = 999999 := rfl
    obtain ⟨d, hfix, hneg, hcoeff, hmag⟩ := fix_magnitude false e hc (by omega) (by omega)
    obtain ⟨hlow, hhigh⟩ := adjusted_bounds hc hmag
    exact ⟨d, hfix, ⟨hneg, hcoeff⟩, abs_le.2 (by omega)⟩
  have hpa := numDigits_pos a
  have hpb := numDigits_pos b
  unfold div ofNat
  rw [if_neg hb.ne', if_neg ha.ne']
  dsimp only
  generalize hshift : (numDigits b : Int) - numDigits a + (prec : Int) + 1 = shift
  have hprec : prec = 28 := rfl
  rw [hprec] at hshift
  have hnum : 0 < a * 10 ^ shift.toNat := by positivity
  have hden : 0 < b * 10 ^ (-shift).toNat := by positivity
  have hdigits {c : Nat} (hle : c ≤ a * 10 ^ shift.toNat + 1) : numDigits c ≤ 500 := by
    have hlt : a * 10 ^ shift.toNat < 10 ^ (numDigits a + shift.toNat) := by
      rw [pow_add]
      exact Nat.mul_lt_mul_of_pos_right (lt_pow_numDigits a) (by positivity)
    have hscaled := numDigits_le_of_lt (by omega) hlt
    have hsucc := (numDigits_mono hle).trans (numDigits_succ_le _)
    omega
  generalize a * 10 ^ shift.toNat = num at hnum hdigits ⊢
  generalize b * 10 ^ (-shift).toNat = den at hden ⊢
  have hq : num / den ≤ num := Nat.div_le_self num den
  by_cases hexact : num % den = 0
  · have hquot : 0 < num / den := Nat.div_pos (Nat.le_of_dvd hnum (Nat.dvd_of_mod_eq_zero hexact)) hden
    obtain ⟨hs, hs', he, he'⟩ := stripZeros_spec shift.toNat (e := 0 - 0 - shift) hquot
    rw [if_pos hexact]
    exact hround hs (hdigits (by omega)) (abs_le.2 ⟨by omega, he'.trans (by omega)⟩)
  · rw [if_neg hexact]
    generalize num / den = q at hq
    have hc : 0 < (if q % 5 = 0 then q + 1 else q) := by
      split <;> omega
    refine hround hc (hdigits ?_) (abs_le.2 (by omega))
    split <;> omega

end Decimal

end PyLib

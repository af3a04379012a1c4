import TokenPriceAgg.Lib.Decimals
import Mathlib.Data.Int.Log

/-!
# Rounding to 28 digits

`RoundsUpTo n q` says that `q` is rounded to `n` or more.  A rounded decimal is a whole number of units of the last
digit that its exact value has, and `fix_grid` says which numbers of units it reaches.

`RoundsTo28 x y` says the same of any positive number and its rounding.  Such a rounding keeps the order, and
`RoundsTo28.floor_eq_iff` says when it keeps the integer part.
-/

namespace PyLib

namespace Decimal

/-- `q` is rounded, half to even, to `n` or more. -/
def RoundsUpTo (n : Nat) (q : ℚ) : Prop := (n : ℚ) - 1 / 2 < q ∨ ((n : ℚ) - 1 / 2 = q ∧ n % 2 = 0)

/-- The midpoint below `N` in halves. -/
private theorem midpoint_mul {N : Nat} (hN : 0 < N) (d : Nat) :
    2 * (((N : ℚ) - 1 / 2) * d) = (((2 * N - 1) * d : Nat) : ℚ) := by
  rw [Nat.cast_mul, Nat.cast_sub (by omega)]
  push_cast
  ring

private theorem odd_mul_add {N : Nat} (hN : 0 < N) (d : Nat) : (2 * N - 1) * d + d = 2 * (d * N) := by
  obtain ⟨m, rfl⟩ : ∃ m, N = m + 1 := ⟨N - 1, by omega⟩
  rw [show 2 * (m + 1) - 1 = 2 * m + 1 by omega]
  ring

private theorem le_roundHalfEven_iff {n d N : Nat} (hd : 0 < d) (hN : 0 < N) :
    N ≤ roundHalfEven n d ↔ RoundsUpTo N ((n : ℚ) / d) := by
  have hdq : (0 : ℚ) < d := Nat.cast_pos.2 hd
  have hmid := midpoint_mul hN d
  have hlt : (N : ℚ) - 1 / 2 < n / d ↔ (2 * N - 1) * d < 2 * n := by
    rw [lt_div_iff₀ hdq, ← Nat.cast_lt (α := ℚ), ← hmid]
    push_cast
    constructor <;> intro h <;> linarith
  have heq : (N : ℚ) - 1 / 2 = n / d ↔ (2 * N - 1) * d = 2 * n := by
    rw [eq_div_iff hdq.ne', ← Nat.cast_inj (R := ℚ), ← hmid]
    push_cast
    constructor <;> intro h <;> linarith
  unfold RoundsUpTo
  rw [hlt, heq]
  have hmod : d * (n / d) + n % d = n := Nat.div_add_mod n d
  have hrem : n % d < d := Nat.mod_lt n hd
  -- where `N` lies beside the quotient
  rcases lt_trichotomy N (n / d + 1) with h | h | h
  · have hup : N ≤ n / d := by omega
    have hmul : d * N ≤ d * (n / d) := Nat.mul_le_mul_left d hup
    have hexp := odd_mul_add hN d
    refine iff_of_true (hup.trans (le_roundHalfEven n d)) (.inl (by omega))
  · have hexp : (2 * N - 1) * d = 2 * (d * (n / d)) + d := by
      rw [h, show 2 * (n / d + 1) - 1 = 2 * (n / d) + 1 by omega]
      ring
    rw [hexp]
    unfold roundHalfEven
    split
    · omega
    · split <;> omega
  · have hmul : d * (n / d + 2) ≤ d * N := Nat.mul_le_mul_left d (by omega)
    have hmul' : d * (n / d + 2) = d * (n / d) + 2 * d := by ring
    have hexp := odd_mul_add hN d
    have hle := roundHalfEven_le n d
    refine iff_of_false (by omega) ?_
    omega

theorem roundsUpTo_natCast {n r : Nat} : RoundsUpTo n (r : ℚ) ↔ n ≤ r := by
  unfold RoundsUpTo
  constructor
  · rintro (h | ⟨h, -⟩)
    · have hlt : (n : ℚ) < r + 1 := by linarith
      exact Nat.lt_succ_iff.1 (by exact_mod_cast hlt)
    · have hle : (n : ℚ) < r + 1 := by linarith
      exact Nat.lt_succ_iff.1 (by exact_mod_cast hle)
  · intro h
    have hle : (n : ℚ) ≤ r := Nat.cast_le.2 h
    left
    linarith

private theorem RoundsUpTo.mono {n : Nat} {p q : ℚ} (h : RoundsUpTo n p) (hpq : p ≤ q) : RoundsUpTo n q := by
  rcases h with h | ⟨h, heven⟩
  · exact .inl (h.trans_le hpq)
  · rcases hpq.lt_or_eq with hlt | heq
    · left
      rw [h]
      exact hlt
    · exact .inr ⟨h.trans heq, heven⟩

/-- Rounding to 28 digits gives a new digit only by a carry through all of them. -/
theorem eq_of_carry {r : Nat} (hle : r ≤ 10 ^ 28) (hcarry : prec < numDigits r) : r = 10 ^ 28 := by
  have hpos : 0 < r := by
    by_contra hzero
    rw [Nat.eq_zero_of_not_pos hzero] at hcarry
    exact absurd hcarry (by decide)
  have hge : 10 ^ 28 ≤ r := (lt_numDigits_iff hpos).1 hcarry
  omega

/-- The last digit that a carry drops is a zero. -/
theorem carry_value (e : Int) : ((10 ^ 28 / 10 : Nat) : ℚ) * 10 ^ (e + 1) = (10 ^ 28 : Nat) * 10 ^ e := by
  rw [ten_succ]
  norm_num
  ring

/-- A rounded result in units of the last digit of the exact value. -/
theorem fix_grid {neg : Bool} {c : Nat} {e : Int} {d : Decimal} (hc : 0 < c) (hlow : emin ≤ e + numDigits c - 1)
    (h : fix neg c e = .ok d) :
    d.neg = neg ∧ ∃ r : Nat, (d.coeff : ℚ) * 10 ^ d.exp = r * 10 ^ (e + numDigits c - 28) ∧
      ∀ N, 0 < N → (N ≤ r ↔ RoundsUpTo N (c * 10 ^ e / 10 ^ (e + numDigits c - 28))) := by
  unfold fix at h
  rw [if_neg hc.ne'] at h
  simp only [max_etiny hlow] at h
  by_cases hshort : numDigits c ≤ 28
  · rw [if_neg (by omega)] at h
    split at h
    · cases h
    · obtain rfl := Except.ok.inj h
      obtain ⟨m, hm⟩ : ∃ m : Nat, numDigits c + m = 28 := ⟨28 - numDigits c, by omega⟩
      have hunit : (10 : ℚ) ^ e = 10 ^ m * 10 ^ (e + numDigits c - 28) := by
        rw [← ten_add]
        congr 1
        omega
      have hvalue : (c : ℚ) * 10 ^ e = ((c * 10 ^ m : Nat) : ℚ) * 10 ^ (e + numDigits c - 28) := by
        rw [hunit]
        push_cast
        ring
      refine ⟨rfl, c * 10 ^ m, hvalue, fun N _ => ?_⟩
      rw [hvalue, mul_div_assoc, div_self (ten_pos _).ne', mul_one, roundsUpTo_natCast]
  · obtain ⟨k, hk⟩ : ∃ k : Nat, numDigits c = 28 + k := ⟨numDigits c - 28, by omega⟩
    have hexp : (numDigits c + e - 28 - e).toNat = k := by omega
    have hunit : e + (numDigits c : Int) - 28 = e + k := by omega
    have hten : (0 : ℚ) < 10 ^ k := by positivity
    have hratio : (c : ℚ) * 10 ^ e / 10 ^ (e + numDigits c - 28) = (c : ℚ) / ((10 ^ k : Nat) : ℚ) := by
      rw [hunit, ten_add, mul_comm ((10 : ℚ) ^ k), ← div_div, mul_div_assoc, div_self (ten_pos e).ne', mul_one]
      push_cast
      rfl
    have hrounds : ∀ N, 0 < N → (N ≤ roundHalfEven c (10 ^ k) ↔
        RoundsUpTo N (c * 10 ^ e / 10 ^ (e + numDigits c - 28))) := by
      intro N hN
      rw [hratio]
      exact le_roundHalfEven_iff (by positivity) hN
    rw [if_pos (by omega), hexp] at h
    -- without a carry there are 28 digits, with one the last digit is a zero
    have hhi : c < 10 ^ 28 * 10 ^ k := by
      rw [← pow_add, ← hk]
      exact lt_pow_numDigits c
    have hdiv : c / 10 ^ k < 10 ^ 28 := (Nat.div_lt_iff_lt_mul (by positivity)).2 hhi
    have hle := roundHalfEven_le c (10 ^ k)
    generalize roundHalfEven c (10 ^ k) = r at h hrounds hle
    by_cases hcarry : prec < numDigits r
    · have hr : r = 10 ^ 28 := eq_of_carry (by omega) hcarry
      simp only [hcarry, if_true] at h
      split at h
      · cases h
      · obtain rfl := Except.ok.inj h
        refine ⟨rfl, r, ?_, hrounds⟩
        dsimp only
        rw [hr, carry_value, show (numDigits c : Int) + e - 28 = e + numDigits c - 28 by ring]
    · simp only [hcarry, if_false] at h
      split at h
      · cases h
      · obtain rfl := Except.ok.inj h
        refine ⟨rfl, r, ?_, hrounds⟩
        dsimp only
        rw [show (numDigits c : Int) + e - 28 = e + numDigits c - 28 by ring]

/-! ### Whole numbers -/

/-- A decimal with an exponent below zero as a fraction. -/
private theorem toRat_of_exp_neg {d : Decimal} {k : Nat} (hneg : d.neg = false) (hk : d.exp = -(k : Int)) :
    d.toRat = (d.coeff : ℚ) / ((10 ^ k : Nat) : ℚ) := by
  unfold toRat
  rw [hneg, hk, zpow_neg, zpow_natCast]
  push_cast
  simp [div_eq_mul_inv]

theorem toRat_of_exp_nonneg {d : Decimal} {k : Nat} (hneg : d.neg = false) (hk : d.exp = (k : Int)) :
    d.toRat = ((d.coeff * 10 ^ k : Nat) : ℚ) := by
  unfold toRat
  rw [hneg, hk, zpow_natCast]
  push_cast
  simp

theorem toRat_nonneg {d : Decimal} (hneg : d.neg = false) : 0 ≤ d.toRat := by
  unfold toRat
  rw [hneg]
  exact mul_nonneg (mul_nonneg (by simp) (Nat.cast_nonneg _)) (ten_pos _).le

/-- `int(d)` is the floor of a decimal that is not negative. -/
theorem toInt_eq_floor {d : Decimal} (hneg : d.neg = false) : d.toInt = ⌊d.toRat⌋ := by
  unfold toInt
  rw [hneg]
  by_cases hexp : 0 ≤ d.exp
  · obtain ⟨k, hk⟩ := Int.eq_ofNat_of_zero_le hexp
    rw [toRat_of_exp_nonneg hneg hk, if_pos hexp, hk]
    rw [Int.floor_natCast]
    simp
  · obtain ⟨k, hk⟩ : ∃ k : Nat, d.exp = -(k : Int) := ⟨(-d.exp).toNat, by omega⟩
    rw [toRat_of_exp_neg hneg hk, if_neg hexp, hk]
    have hfloor := Rat.floor_intCast_div_natCast (d.coeff : Int) (10 ^ k)
    rw [Int.cast_natCast] at hfloor
    rw [hfloor]
    simp

theorem toInt_toIntegralDown (d : Decimal) : d.toIntegralDown.toInt = d.toInt := by
  unfold toIntegralDown
  split
  · rfl
  · rename_i h
    unfold toInt
    simp [h]

/-- A decimal that is not negative equals its nearest integer exactly if it has no fractional part. -/
theorem valueEq_toIntegralValue {d : Decimal} (hneg : d.neg = false) :
    d.valueEq d.toIntegralValue = true ↔ Int.fract d.toRat = 0 := by
  by_cases hexp : 0 ≤ d.exp
  · obtain ⟨k, hk⟩ := Int.eq_ofNat_of_zero_le hexp
    have hself : d.toIntegralValue = d := if_pos hexp
    rw [hself, toRat_of_exp_nonneg hneg hk, Int.fract_natCast]
    simp [valueEq]
  · obtain ⟨k, hk⟩ : ∃ k : Nat, d.exp = -(k : Int) := ⟨(-d.exp).toNat, by omega⟩
    have hten : 0 < 10 ^ k := by positivity
    have hround : d.toIntegralValue = ⟨d.neg, roundHalfEven d.coeff (10 ^ k), 0⟩ := by
      unfold toIntegralValue
      rw [if_neg hexp, hk]
      simp
    have hmin : min d.exp 0 = d.exp := min_eq_left (by omega)
    have hleft : d.scaledTo d.exp = d.coeff := by simp [scaledTo, signed, hneg]
    have hright : (⟨d.neg, roundHalfEven d.coeff (10 ^ k), 0⟩ : Decimal).scaledTo d.exp =
        ((roundHalfEven d.coeff (10 ^ k) * 10 ^ k : Nat) : Int) := by
      simp [scaledTo, signed, hneg, hk]
    have hvalue : d.valueEq d.toIntegralValue = true ↔ d.coeff = roundHalfEven d.coeff (10 ^ k) * 10 ^ k := by
      unfold valueEq
      rw [hround]
      dsimp only
      rw [hmin, hleft, hright, decide_eq_true_eq]
      exact_mod_cast Iff.rfl
    have hdvd : d.coeff = roundHalfEven d.coeff (10 ^ k) * 10 ^ k ↔ 10 ^ k ∣ d.coeff := by
      constructor
      · intro h
        exact ⟨roundHalfEven d.coeff (10 ^ k), h.trans (mul_comm ..)⟩
      · rintro ⟨m, hm⟩
        have hmod : 10 ^ k * m % 10 ^ k = 0 := Nat.mul_mod_right ..
        have hdiv : 10 ^ k * m / 10 ^ k = m := Nat.mul_div_cancel_left m hten
        unfold roundHalfEven
        rw [hm, hmod, hdiv, if_pos (by omega), mul_comm]
    rw [hvalue, hdvd, toRat_of_exp_neg hneg hk, Int.fract_eq_zero_iff]
    constructor
    · rintro ⟨m, hm⟩
      refine ⟨(m : Int), ?_⟩
      rw [hm]
      push_cast
      field_simp
    · rintro ⟨z, hz⟩
      rw [eq_div_iff (by positivity)] at hz
      have hint : z * (10 ^ k : Nat) = d.coeff := by exact_mod_cast hz
      have hdvd : ((10 ^ k : Nat) : Int) ∣ (d.coeff : Int) := ⟨z, by rw [← hint, mul_comm]⟩
      exact_mod_cast hdvd

/-! ### Powers of ten -/

theorem numDigits_mul_pow {c : Nat} (hc : 0 < c) (k : Nat) : numDigits (c * 10 ^ k) = numDigits c + k := by
  have hpos := numDigits_pos c
  have hlo : 10 ^ (numDigits c - 1) ≤ c := (lt_numDigits_iff hc).1 (by omega)
  have hten : 0 < 10 ^ k := by positivity
  apply le_antisymm
  · refine numDigits_le_of_lt (by omega) ?_
    rw [pow_add]
    exact Nat.mul_lt_mul_of_pos_right (lt_pow_numDigits c) hten
  · have hlt : numDigits c - 1 + k < numDigits (c * 10 ^ k) := by
      rw [lt_numDigits_iff (Nat.mul_pos hc hten), pow_add]
      exact Nat.mul_le_mul_right _ hlo
    omega

/-- The value of a power of ten: a coefficient of at most 28 digits that is itself a power of ten. -/
theorem tenPow_eq_ok {n : Nat} {p : Decimal} (h : tenPow n = .ok p) :
    ∃ k : Nat, p = ⟨false, 10 ^ k, (n : Int) - k⟩ ∧ k ≤ n := by
  unfold tenPow at h
  split at h
  · cases h
  · obtain rfl := Except.ok.inj h
    split
    · exact ⟨n, by simp, le_rfl⟩
    · rename_i hlong
      exact ⟨prec - 1, rfl, by omega⟩

/-! ### 28 digits -/

/-- `y` is `x` rounded to 28 digits: a whole number of units of the last digit. -/
def RoundsTo28 (x y : ℚ) : Prop :=
  ∃ r : Nat, y = r * 10 ^ (Int.log 10 x - 27) ∧
    ∀ N, 0 < N → (N ≤ r ↔ RoundsUpTo N (x / 10 ^ (Int.log 10 x - 27)))

theorem log_eq {x : ℚ} {a : Int} (hlo : (10 : ℚ) ^ a ≤ x) (hhi : x < 10 ^ (a + 1)) : Int.log 10 x = a := by
  have hx : 0 < x := (ten_pos a).trans_le hlo
  have hle : a ≤ Int.log 10 x := (Int.zpow_le_iff_le_log (by norm_num) hx).1 (by exact_mod_cast hlo)
  have hlt : Int.log 10 x < a + 1 := (Int.lt_zpow_iff_log_lt (by norm_num) hx).1 (by exact_mod_cast hhi)
  omega

theorem zpow_log_le {x : ℚ} (hx : 0 < x) : (10 : ℚ) ^ Int.log 10 x ≤ x := by
  have h := Int.zpow_log_le_self (b := 10) (by norm_num) hx
  exact_mod_cast h

theorem lt_zpow_succ_log (x : ℚ) : x < (10 : ℚ) ^ (Int.log 10 x + 1) := by
  have h := Int.lt_zpow_succ_log_self (b := 10) (by norm_num) x
  exact_mod_cast h

/-- The rounding has between `10 ^ 27` and `10 ^ 28` units. -/
theorem RoundsTo28.units {x : ℚ} (hx : 0 < x) {r : Nat}
    (h : ∀ N, 0 < N → (N ≤ r ↔ RoundsUpTo N (x / 10 ^ (Int.log 10 x - 27)))) : 10 ^ 27 ≤ r ∧ r ≤ 10 ^ 28 := by
  have hunit := ten_pos (Int.log 10 x - 27)
  constructor
  · refine (h _ (by norm_num)).2 (.inl ?_)
    rw [lt_div_iff₀ hunit]
    have hlo := zpow_log_le hx
    have hten := ten_add (Int.log 10 x - 27) 27
    rw [show Int.log 10 x - 27 + (27 : Nat) = Int.log 10 x by omega] at hten
    rw [hten] at hlo
    push_cast
    linarith
  · by_contra hlt
    have hup := (h (10 ^ 28 + 1) (by norm_num)).1 (by omega)
    have hhi := lt_zpow_succ_log x
    have hten := ten_add (Int.log 10 x - 27) 28
    rw [show Int.log 10 x - 27 + (28 : Nat) = Int.log 10 x + 1 by omega] at hten
    rw [hten, ← div_lt_iff₀ hunit] at hhi
    rcases hup with hup | ⟨hup, -⟩
    · push_cast at hup
      linarith
    · push_cast at hup
      linarith

theorem RoundsTo28.nonneg {x y : ℚ} (h : RoundsTo28 x y) : 0 ≤ y := by
  obtain ⟨r, rfl, -⟩ := h
  exact mul_nonneg (Nat.cast_nonneg r) (ten_pos _).le

/-- Rounding keeps the order. -/
theorem RoundsTo28.mono {x x' y y' : ℚ} (h : RoundsTo28 x y) (h' : RoundsTo28 x' y') (hx : 0 < x) (hle : x ≤ x') :
    y ≤ y' := by
  obtain ⟨r, rfl, hr⟩ := h
  obtain ⟨r', rfl, hr'⟩ := h'
  have hx' : 0 < x' := hx.trans_le hle
  have hunits := RoundsTo28.units hx hr
  have hunits' := RoundsTo28.units hx' hr'
  have hlog : Int.log 10 x ≤ Int.log 10 x' := Int.log_mono_right hx hle
  rcases hlog.lt_or_eq with hlt | heq
  · -- the unit is smaller, and there are at most `10 ^ 28` of them
    calc (r : ℚ) * 10 ^ (Int.log 10 x - 27) ≤ 10 ^ 28 * 10 ^ (Int.log 10 x - 27) :=
          mul_le_mul_of_nonneg_right (by exact_mod_cast hunits.2) (ten_pos _).le
      _ = 10 ^ 27 * 10 ^ (Int.log 10 x - 27 + (1 : Nat)) := by
          rw [ten_add]
          ring
      _ ≤ 10 ^ 27 * 10 ^ (Int.log 10 x' - 27) :=
          mul_le_mul_of_nonneg_left (zpow_le_zpow_right₀ (by norm_num) (by push_cast; omega)) (by positivity)
      _ ≤ r' * 10 ^ (Int.log 10 x' - 27) :=
          mul_le_mul_of_nonneg_right (by exact_mod_cast hunits'.1) (ten_pos _).le
  · rw [← heq] at hr' ⊢
    have hpos : 0 < r := lt_of_lt_of_le (by norm_num) hunits.1
    have hcount : r ≤ r' := by
      refine (hr' r hpos).2 (((hr r hpos).1 le_rfl).mono ?_)
      exact div_le_div_of_nonneg_right hle (ten_pos _).le
    exact mul_le_mul_of_nonneg_right (Nat.cast_le.2 hcount) (ten_pos _).le

/-- Rounding loses at most half of the value. -/
theorem RoundsTo28.half_le {x y : ℚ} (h : RoundsTo28 x y) (hx : 0 < x) : x / 2 ≤ y := by
  obtain ⟨r, rfl, hr⟩ := h
  have hunit := ten_pos (Int.log 10 x - 27)
  have hunits := (RoundsTo28.units hx hr).1
  have hnot : ¬ RoundsUpTo (r + 1) (x / 10 ^ (Int.log 10 x - 27)) := by
    rw [← hr (r + 1) (by omega)]
    omega
  have hle : x / 10 ^ (Int.log 10 x - 27) ≤ r + 1 / 2 := by
    by_contra hlt
    refine hnot (.inl ?_)
    push_cast
    linarith
  rw [div_le_iff₀ hunit] at hle
  have hone : (1 : ℚ) ≤ r := by
    exact_mod_cast (show 1 ≤ r by omega)
  have hsize : 10 ^ (Int.log 10 x - 27) ≤ (r : ℚ) * 10 ^ (Int.log 10 x - 27) := le_mul_of_one_le_left hunit.le hone
  linarith

/-- Rounding `x` to 28 digits leaves its integer part: it does not round up to the next integer, and the digits
that an integer part of more than 28 digits loses are zeros. -/
def KeepsFloor (x : ℚ) : Prop :=
  if Int.log 10 x ≤ 27 then
    x < ⌊x⌋ + 1 - 10 ^ (Int.log 10 x - 27) / 2 ∨ (Int.log 10 x = 27 ∧ Even ⌊x⌋ ∧ x = ⌊x⌋ + 1 / 2)
  else (10 ^ (Int.log 10 x - 27).toNat : Int) ∣ ⌊x⌋

instance (x : ℚ) : Decidable (KeepsFloor x) := inferInstanceAs (Decidable (ite _ _ _))

/-- With units of at most one, the integers that a rounding reaches. -/
private theorem le_rounded_iff {x : ℚ} {r j W : Nat}
    (hr : ∀ N, 0 < N → (N ≤ r ↔ RoundsUpTo N (x / 10 ^ (Int.log 10 x - 27)))) (hj : Int.log 10 x - 27 = -(j : Int))
    (hW : 0 < W) :
    (W : ℚ) ≤ r * 10 ^ (Int.log 10 x - 27) ↔ RoundsUpTo (W * 10 ^ j) (x * 10 ^ j) := by
  rw [hj, zpow_neg, zpow_natCast, div_inv_eq_mul] at hr
  rw [hj, zpow_neg, zpow_natCast, ← div_eq_mul_inv, le_div_iff₀ (by positivity), ← hr _ (by positivity)]
  exact_mod_cast Iff.rfl

/-- With units of `10 ^ -j` a number does not reach the next integer if it is more than half a unit below it.  From the
midpoint it does not reach it if the units are integers and the one below is even. -/
private theorem not_roundsUpTo_succ_iff {x : ℚ} {w j : Nat} : ¬ RoundsUpTo ((w + 1) * 10 ^ j) (x * 10 ^ j) ↔
    x < w + 1 - (10 ^ j)⁻¹ / 2 ∨ (j = 0 ∧ w % 2 = 0 ∧ x = w + 1 / 2) := by
  have hten : (0 : ℚ) < 10 ^ j := by positivity
  have hfactor : (((w + 1) * 10 ^ j : Nat) : ℚ) - 1 / 2 = ((w : ℚ) + 1 - (10 ^ j)⁻¹ / 2) * 10 ^ j := by
    push_cast
    field_simp
  unfold RoundsUpTo
  rw [hfactor, mul_lt_mul_iff_of_pos_right hten, mul_left_inj' hten.ne']
  cases j with
  | zero =>
    simp only [pow_zero, inv_one, mul_one, true_and]
    have hmid : (w : ℚ) + 1 - 1 / 2 = w + 1 / 2 := by ring
    rw [hmid]
    constructor
    · intro hnot
      obtain ⟨hle, htie⟩ := not_or.1 hnot
      rcases (not_lt.1 hle).lt_or_eq with hlt | heq
      · exact .inl hlt
      · have hodd : (w + 1) % 2 ≠ 0 := fun heven => htie ⟨heq.symm, heven⟩
        exact .inr ⟨by omega, heq⟩
    · rintro (hlt | ⟨heven, htie⟩)
      · rintro (hup | ⟨hup, -⟩)
        · exact lt_asymm hlt hup
        · exact hlt.ne hup.symm
      · rintro (hup | ⟨-, hodd⟩)
        · exact hup.ne htie.symm
        · omega
  | succ i =>
    -- ten units make an integer, so that the midpoint below it is rounded up
    have heven : (w + 1) * 10 ^ (i + 1) % 2 = 0 := by
      rw [show (w + 1) * 10 ^ (i + 1) = 2 * ((w + 1) * 10 ^ i * 5) by ring]
      exact Nat.mul_mod_right 2 _
    rw [heven]
    simp only [and_true, Nat.succ_ne_zero, false_and, or_false]
    rw [← le_iff_lt_or_eq, not_le]

/-- With units of ten or more, the rounding of a number is its integer part only if no digit of that is lost. -/
private theorem rounded_eq_floor_iff {x : ℚ} {r w k : Nat} (hw : 0 < w) (hk : 0 < k) (hlo : (w : ℚ) ≤ x)
    (hhi : x < w + 1) (hr : ∀ N, 0 < N → (N ≤ r ↔ RoundsUpTo N (x / 10 ^ k))) : r * 10 ^ k = w ↔ 10 ^ k ∣ w := by
  have hten : (0 : ℚ) < 10 ^ k := by positivity
  have hbig : (10 : ℚ) ≤ 10 ^ k := by
    obtain ⟨i, rfl⟩ := Nat.exists_eq_succ_of_ne_zero hk.ne'
    have hone : (1 : ℚ) ≤ 10 ^ i := one_le_pow₀ (by norm_num)
    rw [pow_succ]
    linarith
  constructor
  · intro h
    exact ⟨r, by rw [← h, mul_comm]⟩
  · rintro ⟨q, rfl⟩
    have hqpos : 0 < q := Nat.pos_of_mul_pos_left hw
    push_cast at hlo hhi
    have hge : q ≤ r := by
      refine (hr q hqpos).2 (.inl ?_)
      rw [lt_div_iff₀ hten]
      linarith
    have hnot : ¬ q + 1 ≤ r := by
      rw [hr (q + 1) (by omega)]
      have hratio : x / 10 ^ k < q + 1 / 2 := by
        rw [div_lt_iff₀ hten]
        linarith
      push_cast [RoundsUpTo]
      rintro (hup | ⟨hup, -⟩) <;> linarith
    have heq : r = q := by omega
    rw [heq, mul_comm]

theorem RoundsTo28.floor_eq_iff {x y : ℚ} (h : RoundsTo28 x y) (hx : 0 < x) : ⌊y⌋ = ⌊x⌋ ↔ KeepsFloor x := by
  have hy := h.nonneg
  obtain ⟨r, rfl, hr⟩ := h
  obtain ⟨w, hw⟩ := Int.eq_ofNat_of_zero_le (Int.floor_nonneg.2 hx.le)
  have hlo : (w : ℚ) ≤ x := by
    have hfloor := Int.floor_le x
    rwa [hw, Int.cast_natCast] at hfloor
  have hhi : x < w + 1 := by
    have hfloor := Int.lt_floor_add_one x
    rwa [hw, Int.cast_natCast] at hfloor
  unfold KeepsFloor
  rw [hw, Int.floor_eq_iff, Int.cast_natCast]
  by_cases hunit : Int.log 10 x ≤ 27
  · obtain ⟨j, hj⟩ : ∃ j : Nat, Int.log 10 x - 27 = -(j : Int) := ⟨(27 - Int.log 10 x).toNat, by omega⟩
    have hge : (w : ℚ) ≤ r * 10 ^ (Int.log 10 x - 27) := by
      rcases Nat.eq_zero_or_pos w with rfl | hpos
      · exact_mod_cast hy
      · refine (le_rounded_iff hr hj hpos).2 (.inl ?_)
        have hmul : (w : ℚ) * 10 ^ j ≤ x * 10 ^ j := mul_le_mul_of_nonneg_right hlo (by positivity)
        push_cast
        linarith
    have hnext := le_rounded_iff hr hj (Nat.succ_pos w)
    have hzero : Int.log 10 x = 27 ↔ j = 0 := by omega
    rw [if_pos hunit, and_iff_right hge, ← not_le]
    rw [Nat.cast_succ] at hnext
    rw [hnext, not_roundsUpTo_succ_iff, hj, hzero, zpow_neg, zpow_natCast, Int.even_coe_nat, Nat.even_iff]
  · obtain ⟨k, hk⟩ : ∃ k : Nat, Int.log 10 x - 27 = (k : Int) := ⟨(Int.log 10 x - 27).toNat, by omega⟩
    rw [if_neg hunit, hk, zpow_natCast, Int.toNat_natCast]
    rw [hk, zpow_natCast] at hr
    have hwpos : 0 < w := by
      have hlog := zpow_log_le hx
      have hone : (1 : ℚ) ≤ 10 ^ Int.log 10 x := one_le_zpow₀ (by norm_num) (by omega)
      have hlt : (0 : ℚ) < w := by linarith
      exact_mod_cast hlt
    have hcast : ((w : ℚ) ≤ r * 10 ^ k ∧ (r : ℚ) * 10 ^ k < w + 1) ↔ r * 10 ^ k = w := by
      have hle : (w : ℚ) ≤ r * 10 ^ k ↔ w ≤ r * 10 ^ k := by exact_mod_cast Iff.rfl
      have hlt : (r : ℚ) * 10 ^ k < w + 1 ↔ r * 10 ^ k < w + 1 := by exact_mod_cast Iff.rfl
      rw [hle, hlt]
      omega
    have hdvd : ((10 ^ k : Int) ∣ (w : Int)) ↔ 10 ^ k ∣ w := by exact_mod_cast Iff.rfl
    rw [hcast, hdvd]
    exact rounded_eq_floor_iff hwpos (by omega) hlo hhi hr

/-- The numbers from `2 ^ 256` on that do not round below it. -/
theorem RoundsTo28.two_pow_le_iff {x y : ℚ} (h : RoundsTo28 x y) (hx : 2 ^ 256 ≤ x) :
    2 ^ 256 ≤ y ↔ (1157920892373161954235709850 + 1 / 2) * 10 ^ 50 < x := by
  obtain ⟨r, rfl, hr⟩ := h
  have hpos : 0 < x := lt_of_lt_of_le (by norm_num) hx
  have hlog : 77 ≤ Int.log 10 x := by
    refine (Int.zpow_le_iff_le_log (b := 10) (by norm_num) hpos).1 ?_
    refine le_trans ?_ hx
    norm_num
  rcases hlog.lt_or_eq with hlt | heq
  · have hunits := (RoundsTo28.units hpos hr).1
    have hleading : (10 : ℚ) ^ (78 : Nat) ≤ 10 ^ Int.log 10 x := by
      rw [← zpow_natCast]
      exact zpow_le_zpow_right₀ (by norm_num) (by push_cast; omega)
    have hunit : (10 : ℚ) ^ Int.log 10 x = 10 ^ 27 * 10 ^ (Int.log 10 x - 27) := by
      have hten := ten_add (Int.log 10 x - 27) 27
      rwa [show Int.log 10 x - 27 + (27 : Nat) = Int.log 10 x by omega] at hten
    refine iff_of_true ?_ ?_
    · calc (2 : ℚ) ^ 256 ≤ 10 ^ 78 := by norm_num
        _ ≤ 10 ^ 27 * 10 ^ (Int.log 10 x - 27) := hunit ▸ hleading
        _ ≤ r * 10 ^ (Int.log 10 x - 27) :=
          mul_le_mul_of_nonneg_right (by exact_mod_cast hunits) (ten_pos _).le
    · refine lt_of_lt_of_le ?_ (hleading.trans (zpow_log_le hpos))
      norm_num
  · have hunit : (10 : ℚ) ^ (Int.log 10 x - 27) = 10 ^ (50 : Nat) := by
      rw [← zpow_natCast, ← heq]
      norm_num
    rw [hunit] at hr ⊢
    have hcount : (2 : ℚ) ^ 256 ≤ r * 10 ^ 50 ↔ 1157920892373161954235709851 ≤ r := by
      have hcast : (2 : ℚ) ^ 256 ≤ r * 10 ^ 50 ↔ 2 ^ 256 ≤ r * 10 ^ 50 := by exact_mod_cast Iff.rfl
      rw [hcast]
      omega
    rw [hcount, hr _ (by norm_num)]
    unfold RoundsUpTo
    rw [lt_div_iff₀ (by norm_num)]
    constructor
    · rintro (hup | ⟨-, heven⟩)
      · push_cast at hup
        linarith
      · omega
    · intro hup
      left
      push_cast
      linarith

/-- A positive decimal times a power of ten is rounded to 28 digits. -/
theorem mul_tenPow_rounds {v s : Decimal} {n : Nat} (hv : v.Positive) (hlow : emin ≤ v.adjusted + n)
    (h : (tenPow n).bind v.mul = .ok s) :
    s.neg = false ∧ RoundsTo28 (v.toRat * 10 ^ n) s.toRat := by
  cases hpow : tenPow n with
  | error e =>
    rw [hpow] at h
    cases h
  | ok p =>
    rw [hpow] at h
    obtain ⟨k, rfl, hk⟩ := tenPow_eq_ok hpow
    have hmul : fix (v.neg != false) (v.coeff * 10 ^ k) (v.exp + (n - k)) = .ok s := h
    have hdigits := numDigits_mul_pow hv.2 k
    have hleading : v.exp + ((n : Int) - k) + numDigits (v.coeff * 10 ^ k) - 1 = v.adjusted + n := by
      unfold adjusted
      rw [hdigits]
      push_cast
      ring
    have hc : 0 < v.coeff * 10 ^ k := Nat.mul_pos hv.2 (by positivity)
    obtain ⟨hneg, r, hvalue, hgrid⟩ := fix_grid hc (by omega) hmul
    have hunit : v.exp + ((n : Int) - k) + numDigits (v.coeff * 10 ^ k) - 28 = v.adjusted + n - 27 := by omega
    have hexact : ((v.coeff * 10 ^ k : Nat) : ℚ) * 10 ^ (v.exp + ((n : Int) - k)) = v.toRat * 10 ^ n := by
      have hsum : v.exp + (n : Int) = v.exp + ((n : Int) - k) + k := by ring
      have hshift := ten_add (v.exp + ((n : Int) - k)) k
      rw [← hsum, ten_add] at hshift
      rw [toRat_of_positive hv]
      push_cast
      calc (v.coeff : ℚ) * 10 ^ k * 10 ^ (v.exp + ((n : Int) - k))
          = v.coeff * (10 ^ k * 10 ^ (v.exp + ((n : Int) - k))) := by ring
        _ = v.coeff * (10 ^ n * 10 ^ v.exp) := by rw [← hshift]
        _ = v.coeff * 10 ^ v.exp * 10 ^ n := by ring
    rw [hunit] at hvalue
    rw [hexact, hunit] at hgrid
    rw [hv.1] at hneg
    have hlog : Int.log 10 (v.toRat * 10 ^ n) = v.adjusted + n := by
      rw [← hexact]
      refine log_eq ((le_leading_iff hc).1 hleading.ge) ?_
      exact not_le.1 (mt (le_leading_iff hc).2 (by omega))
    rw [← hlog] at hvalue hgrid
    have hs : s.toRat = s.coeff * 10 ^ s.exp := by
      unfold toRat
      rw [hneg]
      simp
    exact ⟨hneg, r, hs.trans hvalue, hgrid⟩

end Decimal

end PyLib

import Mathlib.Algebra.Order.Floor.Ring
import Mathlib.Data.Rat.Floor
import Mathlib.Tactic.Linarith
import Mathlib.Tactic.Ring

/-!
# Conversions at a rate, rounded down

An amount is converted at the rate `a / u` by `n * a / u` and back by `n * u / a`, each rounded down.  A round trip
never gains, and loses at most the worth of one unit of the other side, rounded up.
-/

namespace PyLib

namespace FloorRate

variable {a u : Int}

theorem mono (hu : 0 < u) (ha : 0 ≤ a) {n n' : Int} (h : n ≤ n') : n * a / u ≤ n' * a / u :=
  Int.ediv_le_ediv hu (Int.mul_le_mul_of_nonneg_right h ha)

/-- There and back never gains. -/
theorem round_trip_le (ha : 0 < a) (hu : 0 < u) (n : Int) : n * a / u * u / a ≤ n := by
  have hback : n * a / u * u ≤ n * a := Int.ediv_mul_le (n * a) hu.ne'
  calc n * a / u * u / a ≤ n * a / a := Int.ediv_le_ediv ha hback
    _ = n := Int.mul_ediv_cancel n ha.ne'

/-- There and back loses at most what one unit of the other side is worth, rounded up. -/
theorem round_trip_loss (ha : 0 < a) (hu : 0 < u) (n : Int) : n - n * a / u * u / a ≤ ⌈(u : ℚ) / a⌉ := by
  have hthere : n * a < (n * a / u + 1) * u := Int.lt_ediv_add_one_mul_self (n * a) hu
  have hback : n * a / u * u < (n * a / u * u / a + 1) * a := Int.lt_ediv_add_one_mul_self (n * a / u * u) ha
  generalize n * a / u * u / a = m at hback ⊢
  generalize n * a / u = t at hthere hback
  have hlt : (n - m - 1) * a < u := by
    have hexp : (t + 1) * u = t * u + u := by ring
    have hexp' : (n - m - 1) * a = n * a - (m + 1) * a := by ring
    omega
  have hquot : ((n - m - 1 : Int) : ℚ) < u / a := by
    rw [lt_div_iff₀ (by exact_mod_cast ha)]
    exact_mod_cast hlt
  have hceil : n - m - 1 < ⌈(u : ℚ) / a⌉ := by
    have hle := hquot.trans_le (Int.le_ceil ((u : ℚ) / a))
    exact_mod_cast hle
  omega

/-- What is converted without a remainder comes back. -/
theorem round_trip_eq (ha : 0 < a) {n : Int} (h : u ∣ n * a) : n * a / u * u / a = n := by
  rw [Int.ediv_mul_cancel h]
  exact Int.mul_ediv_cancel n ha.ne'

end FloorRate

end PyLib

import TokenPriceAgg.Lib.Numeric
import Mathlib.Data.Int.Log
import Mathlib.Data.Nat.Cast.Order.Field

/-!
# Python datetimes

A `DateTime` is a wall clock reading in the years 1 to 9999, in microseconds, naive or with an offset from UTC.
Differences are converted to seconds in floats, so `toFloat` rounds to 53 significant bits (no subnormal or infinite
value occurs here).
-/

namespace PyLib

/-! ### Floats -/

/-- The nearest integer, half to even. -/
def roundInt (q : ℚ) : Int := q.num.sign * Decimal.roundHalfEven q.num.natAbs q.den

/-- The nearest float. -/
def toFloat (q : ℚ) : ℚ :=
  let ulp : ℚ := 2 ^ (Int.log 2 |q| - 52)
  roundInt (q / ulp) * ulp

/-- `int(x)`. -/
def truncate (q : ℚ) : Int := if 0 ≤ q then ⌊q⌋ else ⌈q⌉

/-- `int(1.001 * 1000)` is 1000. -/
example : truncate (toFloat (toFloat (1001 / 1000) * 1000)) = 1000 := by decide +kernel

private theorem roundHalfEven_le (n d : Nat) : Decimal.roundHalfEven n d ≤ n / d + 1 := by
  unfold Decimal.roundHalfEven
  have hodd : n / d % 2 < 2 := Nat.mod_lt _ (by decide)
  split
  · omega
  · split <;> omega

private theorem abs_roundInt_le (q : ℚ) : |(roundInt q : ℚ)| ≤ |q| + 1 := by
  have hsign : |((q.num.sign : Int) : ℚ)| ≤ 1 := by
    rw [← Int.cast_abs]
    have habs : |q.num.sign| ≤ 1 := by
      rcases lt_trichotomy q.num 0 with h | h | h
      · simp [Int.sign_eq_neg_one_of_neg h]
      · simp [h]
      · simp [Int.sign_eq_one_of_pos h]
    exact_mod_cast habs
  have hdiv : ((q.num.natAbs / q.den : Nat) : ℚ) ≤ |q| := by
    have hle : ((q.num.natAbs / q.den : Nat) : ℚ) ≤ (q.num.natAbs : ℚ) / q.den := Nat.cast_div_le
    have habs : |q| = (q.num.natAbs : ℚ) / q.den := by
      rw [Rat.abs_def, Rat.divInt_eq_div]
      simp
    rw [habs]
    exact hle
  have hround : ((Decimal.roundHalfEven q.num.natAbs q.den : Nat) : ℚ) ≤ |q| + 1 := by
    have hcast : ((Decimal.roundHalfEven q.num.natAbs q.den : Nat) : ℚ) ≤ ((q.num.natAbs / q.den + 1 : Nat) : ℚ) :=
      Nat.cast_le.2 (roundHalfEven_le _ _)
    push_cast at hcast hdiv
    linarith
  unfold roundInt
  rw [Int.cast_mul, abs_mul, Int.cast_natCast, Nat.abs_cast]
  calc |((q.num.sign : Int) : ℚ)| * (Decimal.roundHalfEven q.num.natAbs q.den : ℚ)
      ≤ 1 * (Decimal.roundHalfEven q.num.natAbs q.den : ℚ) := mul_le_mul_of_nonneg_right hsign (Nat.cast_nonneg _)
    _ ≤ |q| + 1 := by rw [one_mul]; exact hround

/-- Rounding at most doubles a number. -/
private theorem abs_toFloat_le (q : ℚ) : |toFloat q| ≤ 2 * |q| := by
  by_cases hq : q = 0
  · subst hq
    decide +kernel
  · have hpos : 0 < |q| := abs_pos.2 hq
    let ulp : ℚ := 2 ^ (Int.log 2 |q| - 52)
    have hulp : 0 < ulp := zpow_pos (by norm_num) _
    have hlog : ((2 : ℕ) : ℚ) ^ Int.log 2 |q| ≤ |q| := Int.zpow_log_le_self (by norm_num) hpos
    have hle : ulp ≤ |q| := by
      have hmono : ulp ≤ (2 : ℚ) ^ Int.log 2 |q| := zpow_le_zpow_right₀ (by norm_num) (by omega)
      exact hmono.trans hlog
    have hround : |(roundInt (q / ulp) : ℚ)| ≤ |q / ulp| + 1 := abs_roundInt_le _
    calc |toFloat q| = |(roundInt (q / ulp) : ℚ)| * ulp := by
          change |(roundInt (q / ulp) : ℚ) * ulp| = _
          rw [abs_mul, abs_of_pos hulp]
      _ ≤ (|q / ulp| + 1) * ulp := mul_le_mul_of_nonneg_right hround hulp.le
      _ = |q| + ulp := by
          rw [abs_div, abs_of_pos hulp, add_mul, one_mul, div_mul_cancel₀ _ hulp.ne']
      _ ≤ 2 * |q| := by linarith

private theorem abs_truncate_le (q : ℚ) : |(truncate q : ℚ)| ≤ |q| := by
  unfold truncate
  by_cases hq : 0 ≤ q
  · rw [if_pos hq, abs_of_nonneg hq, abs_of_nonneg (by exact_mod_cast Int.floor_nonneg.2 hq)]
    exact Int.floor_le q
  · have hneg : q ≤ 0 := (not_le.1 hq).le
    have hceil : ⌈q⌉ ≤ 0 := Int.ceil_le.2 (by exact_mod_cast hneg)
    rw [if_neg hq, abs_of_nonpos hneg, abs_of_nonpos (by exact_mod_cast hceil)]
    have hle : q ≤ ⌈q⌉ := Int.le_ceil q
    linarith

/-! ### Datetimes -/

def microsPerDay : Int := 86400 * 10 ^ 6

/-- The microseconds of the years 1 to 9999. -/
def wallLimit : Int := 3652059 * microsPerDay

/-- A reading within the years 1 to 9999. -/
def InCalendar (wall : Int) : Prop := 0 ≤ wall ∧ wall < wallLimit

instance (wall : Int) : Decidable (InCalendar wall) := inferInstanceAs (Decidable (_ ∧ _))

structure DateTime where
  /-- microseconds since the beginning of year 1 -/
  wall : Int
  /-- microseconds, none for a naive datetime -/
  utcOffset : Option Int
  inCalendar : InCalendar wall
  offset_lt : ∀ offset ∈ utcOffset, |offset| < microsPerDay

theorem inCalendar_zero : InCalendar 0 := by decide

theorem utc_offset_lt : ∀ offset ∈ some (0 : Int), |offset| < microsPerDay := by
  intro offset hoffset
  cases hoffset
  decide

namespace DateTime

/-- `d.replace(tzinfo=timezone.utc)`. -/
def replaceUtc (d : DateTime) : DateTime where
  wall := d.wall
  utcOffset := some 0
  inCalendar := d.inCalendar
  offset_lt := utc_offset_lt

/-- `d.astimezone(timezone.utc)` for a datetime with this offset. -/
def astimezoneUtc (d : DateTime) (offset : Int) : Except ArithmeticError DateTime :=
  if h : InCalendar (d.wall - offset) then
    .ok { wall := d.wall - offset, utcOffset := some 0, inCalendar := h
          offset_lt := by
            intro offset hoffset
            cases hoffset
            decide }
  else .error .overflow

/-- The instant an aware datetime stands for. -/
def instant (d : DateTime) : Int := d.wall - d.utcOffset.getD 0

/-- `a - b` of two aware datetimes, in microseconds. -/
def sub (a b : DateTime) : Int := a.instant - b.instant

private theorem abs_instant_lt (d : DateTime) : |d.instant| < 2 * wallLimit := by
  have hwall := d.inCalendar
  have hoffset : |d.utcOffset.getD 0| < microsPerDay := by
    cases ho : d.utcOffset with
    | none => decide
    | some offset => exact d.offset_lt offset ho
  have hlimit : microsPerDay < wallLimit := by decide
  unfold instant
  unfold InCalendar at hwall
  rw [abs_lt] at hoffset ⊢
  omega

theorem abs_sub_lt (a b : DateTime) : |a.sub b| < 4 * wallLimit := by
  have ha := abs_lt.1 a.abs_instant_lt
  have hb := abs_lt.1 b.abs_instant_lt
  unfold sub
  rw [abs_lt]
  omega

end DateTime

/-- `timedelta.total_seconds()`. -/
def totalSeconds (micros : Int) : ℚ := toFloat (micros / 10 ^ 6)

/-- `int(delta.total_seconds() * 1000)`. -/
def totalMillis (micros : Int) : Int := truncate (toFloat (totalSeconds micros * 1000))

theorem abs_totalMillis_le (micros : Int) : |(totalMillis micros : ℚ)| ≤ |(micros : ℚ)| := by
  have hseconds : |totalSeconds micros| ≤ 2 * |(micros : ℚ) / 10 ^ 6| := abs_toFloat_le _
  have hmillis : |toFloat (totalSeconds micros * 1000)| ≤ 2 * |totalSeconds micros * 1000| := abs_toFloat_le _
  have htruncate : |(totalMillis micros : ℚ)| ≤ |toFloat (totalSeconds micros * 1000)| := abs_truncate_le _
  rw [abs_div] at hseconds
  rw [abs_mul] at hmillis
  have hpow : |(10 : ℚ) ^ 6| = 10 ^ 6 := by norm_num
  have hthousand : |(1000 : ℚ)| = 1000 := by norm_num
  rw [hpow] at hseconds
  rw [hthousand] at hmillis
  have hnonneg : 0 ≤ |(micros : ℚ)| := abs_nonneg _
  linarith

end PyLib

import TokenPriceAgg.Lib.DateTime

/-!
# Python floats

The values of binary64: `nearestFloat` rounds a rational, half to even, to 53 bits and to the exponents there are,
`FloatValue.ofInt` is `float(n)` and `reprDecimal` is the decimal that `repr` writes, the shortest one that rounds back.
`fromTimestamp` is `datetime.fromtimestamp(x, tz=timezone.utc)`.
-/

namespace PyLib

/-- The finite float `±mant * 2 ^ exp`. -/
structure FiniteFloat where
  neg : Bool
  mant : Nat
  exp : Int
  mant_lt : mant < 2 ^ 53
  exp_ge : -1074 ≤ exp
  exp_le : exp ≤ 971
deriving DecidableEq

inductive FloatValue
  | finite (x : FiniteFloat)
  | inf (neg : Bool)
  | nan
deriving DecidableEq

namespace FiniteFloat

def magnitude (x : FiniteFloat) : ℚ := x.mant * (2 : ℚ) ^ x.exp

def toRat (x : FiniteFloat) : ℚ := if x.neg then -x.magnitude else x.magnitude

/-- `x.is_integer()`. -/
def IsInteger (x : FiniteFloat) : Prop := x.toRat.den = 1

instance (x : FiniteFloat) : Decidable x.IsInteger := inferInstanceAs (Decidable (_ = _))

/-- `int(x)`. -/
def toInt (x : FiniteFloat) : Int := truncate x.toRat

end FiniteFloat

/-- The float nearest to `±q`, for `0 ≤ q`. -/
def nearestFloat (neg : Bool) (q : ℚ) : FloatValue :=
  let exp : Int := if q = 0 then 0 else max (Int.log 2 q - 52) (-1074)
  let mant := (roundInt (q / 2 ^ exp)).toNat
  -- a carry out of the last bit leaves one bit too many
  let (mant, exp) : Nat × Int := if mant = 2 ^ 53 then (2 ^ 52, exp + 1) else (mant, exp)
  if h : mant < 2 ^ 53 ∧ -1074 ≤ exp ∧ exp ≤ 971 then .finite ⟨neg, mant, exp, h.1, h.2.1, h.2.2⟩ else .inf neg

/-- `float(n)`; the nearest float has to be finite. -/
def FloatValue.ofInt (n : Int) : Except ArithmeticError FloatValue :=
  if n.natAbs < floatLimit then .ok (nearestFloat (decide (n < 0)) n.natAbs) else .error .overflow

/-- `x / n` for an integer `n`. -/
def FloatValue.divNat (x : FloatValue) (n : Nat) : FloatValue :=
  match x with
  | .finite x => nearestFloat x.neg (x.magnitude / n)
  | .inf neg => .inf neg
  | .nan => .nan

/-- `abs(x) >= n` for an integer `n`. -/
def FloatValue.absGe (x : FloatValue) (n : Nat) : Bool :=
  match x with
  | .finite x => decide ((n : ℚ) ≤ x.magnitude)
  | .inf _ => true
  | .nan => false

/-- The multiples of `10 ^ e` next to the float `q` that round to it; the nearer one. -/
def nearestDigits (q : ℚ) (e : Int) : Option Nat :=
  let low := ⌊q / 10 ^ e⌋.toNat
  let roundsBack (c : Nat) : Bool :=
    match nearestFloat false (c * 10 ^ e) with
    | .finite y => y.magnitude = q
    | _ => false
  match roundsBack low, roundsBack (low + 1) with
  | true, true => some (roundInt (q / 10 ^ e)).toNat
  | true, false => some low
  | false, true => some (low + 1)
  | false, false => none

/-- The shortest digits that round to the float `q`, from `k` digits on, and the exponent of the last one. -/
def shortestDigits (q : ℚ) (leading : Int) : Nat → Nat → Nat × Int
  | 0, k => ((roundInt (q / 10 ^ (leading - k + 1))).toNat, leading - k + 1)
  | fuel + 1, k =>
    match nearestDigits q (leading - k + 1) with
    | some c => (c, leading - k + 1)
    | none => shortestDigits q leading fuel (k + 1)

/-- The decimal of `repr(x)`, which is positional for exponents from -4 to 15. -/
def FiniteFloat.reprDecimal (x : FiniteFloat) : Decimal :=
  if x.mant = 0 then ⟨x.neg, 0, -1⟩
  else
    let (digits, e) := shortestDigits x.magnitude (Int.log 10 x.magnitude) 16 1
    let (digits, e) := if digits % 10 = 0 then (digits / 10, e + 1) else (digits, e)
    let leading := e + Decimal.numDigits digits - 1
    if -4 ≤ leading ∧ leading ≤ 15 ∧ 0 ≤ e then ⟨x.neg, digits * 10 ^ (e + 1).toNat, -1⟩ else ⟨x.neg, digits, e⟩

/-- The microseconds of year 1 to 1970. -/
def epochWall : Int := 719162 * microsPerDay

/-- `datetime.fromtimestamp(x, tz=timezone.utc)` in microseconds since the epoch; every error is `none`. -/
def fromTimestamp (x : FloatValue) : Option Int :=
  match x with
  | .finite x =>
    let seconds := truncate x.toRat
    let fraction := x.toRat - seconds
    let micros : ℚ :=
      match nearestFloat (decide (fraction < 0)) (|fraction| * 10 ^ 6) with
      | .finite y => y.toRat
      | _ => 0
    let instant := seconds * 10 ^ 6 + roundInt micros
    if InCalendar (epochWall + instant) then some instant else none
  | _ => none

/-- What `repr` writes of one tenth, of `2 ^ -44` and of the least float; an instant with a fraction. -/
example : ((⟨false, 3602879701896397 * 2, -56, by decide, by decide, by decide⟩ : FiniteFloat).reprDecimal,
      (⟨false, 1, -44, by decide, by decide, by decide⟩ : FiniteFloat).reprDecimal,
      (⟨false, 1, -1074, by decide, by decide, by decide⟩ : FiniteFloat).reprDecimal) =
        (⟨false, 1, -1⟩, ⟨false, 5684341886080802, -29⟩, ⟨false, 5, -324⟩) ∧
    fromTimestamp (nearestFloat false (17000000001 / 10)) = some 1700000000100000 := by decide +kernel

end PyLib

import Mathlib.Data.Nat.Log
import Mathlib.Data.Rat.Floor
import Mathlib.Tactic.Ring

/-!
# Python numbers

* `trueDiv` is `int / int`: the quotient is kept as an exact rational, and it overflows when the nearest float
  would be infinite.
* `Decimal` is a finite decimal with the arithmetic of the default context: 28 significant digits, round half to
  even, exponents up to `999999`, and the traps for division by zero, overflow and invalid operations set.  A
  quiet underflow rounds to the least exponent.
-/

namespace PyLib

inductive ArithmeticError
  | zeroDivision
  | overflow
  | invalidOperation
deriving DecidableEq, Repr

/-! ### True division of integers -/

/-- Half-way between the largest float and `2 ^ 1024`: from here on the nearest float is infinite. -/
@[irreducible] def floatLimit : Nat := 2 ^ 1024 - 2 ^ 970

/-- The quotient `a / b` has a finite float. -/
@[irreducible] def FitsFloat (a b : Int) : Prop := a.natAbs < floatLimit * b.natAbs

theorem fitsFloat_iff {a b : Int} : FitsFloat a b ↔ a.natAbs < floatLimit * b.natAbs := by
  unfold FitsFloat
  exact Iff.rfl

instance (a b : Int) : Decidable (FitsFloat a b) := decidable_of_iff _ fitsFloat_iff.symm

/-- `a / b`. -/
@[irreducible] def trueDiv (a b : Int) : Except ArithmeticError ℚ :=
  if b = 0 then .error .zeroDivision
  else if FitsFloat a b then .ok (a / b)
  else .error .overflow

theorem trueDiv_of_fits {a b : Int} (hb : b ≠ 0) (h : FitsFloat a b) : trueDiv a b = .ok (a / b) := by
  rw [trueDiv, if_neg hb, if_pos h]

theorem trueDiv_of_not_fits {a b : Int} (hb : b ≠ 0) (h : ¬ FitsFloat a b) :
    trueDiv a b = .error .overflow := by
  rw [trueDiv, if_neg hb, if_neg h]

theorem trueDiv_eq_ok {a b : Int} {q : ℚ} (h : trueDiv a b = .ok q) : q = a / b ∧ FitsFloat a b := by
  unfold trueDiv at h
  split at h
  · cases h
  · split at h
    · exact ⟨(Except.ok.inj h).symm, ‹_›⟩
    · cases h

private theorem floatLimit_pos : 0 < floatLimit := by decide +kernel

theorem fitsFloat_zero {b : Int} (hb : b ≠ 0) : FitsFloat 0 b :=
  fitsFloat_iff.2 (Nat.mul_pos floatLimit_pos (Int.natAbs_pos.2 hb))

theorem FitsFloat.of_le {a a' b : Int} (h : FitsFloat a b) (ha : a'.natAbs ≤ a.natAbs) : FitsFloat a' b :=
  fitsFloat_iff.2 (Nat.lt_of_le_of_lt ha (fitsFloat_iff.1 h))

/-! ### Decimals -/

/-- The finite decimal `±coeff * 10 ^ exp`. -/
structure Decimal where
  neg : Bool
  coeff : Nat
  exp : Int
deriving DecidableEq, Repr

namespace Decimal

def prec : Nat := 28
def emax : Int := 999999
def emin : Int := -999999
/-- The least exponent of a subnormal result. -/
def etiny : Int := emin - prec + 1

/-- The number of digits of the coefficient as it is written, `1` for `0`. -/
def numDigits (n : Nat) : Nat := Nat.log 10 n + 1

/-- The exponent of the leading digit. -/
def adjusted (d : Decimal) : Int := d.exp + numDigits d.coeff - 1

def toRat (d : Decimal) : ℚ := (if d.neg then -1 else 1) * d.coeff * (10 : ℚ) ^ d.exp

/-- A decimal is positive when its sign is plus and its coefficient is not zero. -/
def Positive (d : Decimal) : Prop := d.neg = false ∧ 0 < d.coeff

instance (d : Decimal) : Decidable d.Positive := inferInstanceAs (Decidable (_ ∧ _))

def ofNat (n : Nat) : Decimal := ⟨false, n, 0⟩

def ofInt (n : Int) : Decimal := ⟨decide (n < 0), n.natAbs, 0⟩

/-- `n / d` rounded to an integer, half to even. -/
def roundHalfEven (n d : Nat) : Nat :=
  if 2 * (n % d) < d then n / d
  else if d < 2 * (n % d) then n / d + 1
  else n / d + n / d % 2

/-- The context's rounding of an exact result: to 28 digits and to the exponents it allows. -/
def fix (neg : Bool) (coeff : Nat) (exp : Int) : Except ArithmeticError Decimal :=
  if coeff = 0 then .ok ⟨neg, 0, min (max exp etiny) emax⟩
  else
    let expMin := max (numDigits coeff + exp - prec) etiny
    if exp < expMin then
      let c := roundHalfEven coeff (10 ^ (expMin - exp).toNat)
      -- a carry out of the last digit leaves one digit too many
      let d : Decimal := if prec < numDigits c then ⟨neg, c / 10, expMin + 1⟩ else ⟨neg, c, expMin⟩
      if emax < d.adjusted then .error .overflow else .ok d
    else if emax < exp + numDigits coeff - 1 then .error .overflow
    else .ok ⟨neg, coeff, exp⟩

def mul (a b : Decimal) : Except ArithmeticError Decimal :=
  fix (a.neg != b.neg) (a.coeff * b.coeff) (a.exp + b.exp)

def signed (d : Decimal) : Int := if d.neg then -(d.coeff : Int) else d.coeff

/-- The coefficient of `d` written with the exponent `e ≤ d.exp`. -/
def scaledTo (d : Decimal) (e : Int) : Int := d.signed * 10 ^ (d.exp - e).toNat

def add (a b : Decimal) : Except ArithmeticError Decimal :=
  let e := min a.exp b.exp
  let s := a.scaledTo e + b.scaledTo e
  fix (if s = 0 then a.neg && b.neg else decide (s < 0)) s.natAbs e

def sub (a b : Decimal) : Except ArithmeticError Decimal := add a ⟨!b.neg, b.coeff, b.exp⟩

/-- Drop the trailing zeros of an exact quotient, down to the ideal exponent. -/
def stripZeros (ideal : Int) : Nat → Nat → Int → Nat × Int
  | 0, c, e => (c, e)
  | fuel + 1, c, e => if e < ideal ∧ c % 10 = 0 then stripZeros ideal fuel (c / 10) (e + 1) else (c, e)

def div (a b : Decimal) : Except ArithmeticError Decimal :=
  if b.coeff = 0 then .error (if a.coeff = 0 then .invalidOperation else .zeroDivision)
  else if a.coeff = 0 then fix (a.neg != b.neg) 0 (a.exp - b.exp)
  else
    let shift : Int := (numDigits b.coeff : Int) - numDigits a.coeff + prec + 1
    let exp := a.exp - b.exp - shift
    let num := a.coeff * 10 ^ shift.toNat
    let den := b.coeff * 10 ^ (-shift).toNat
    if num % den = 0 then
      let (c, e) := stripZeros (a.exp - b.exp) shift.toNat (num / den) exp
      fix (a.neg != b.neg) c e
    else
      -- keep the inexact quotient off a rounding boundary
      fix (a.neg != b.neg) (if num / den % 5 = 0 then num / den + 1 else num / den) exp

/-- `a < b`. -/
def lt (a b : Decimal) : Bool :=
  let e := min a.exp b.exp
  decide (a.scaledTo e < b.scaledTo e)

/-- `a == b`. -/
def valueEq (a b : Decimal) : Bool :=
  let e := min a.exp b.exp
  decide (a.scaledTo e = b.scaledTo e)

/-- `Decimal(10) ** n`. -/
def tenPow (n : Nat) : Except ArithmeticError Decimal :=
  if emax < n then .error .overflow
  else .ok (if n < prec then ⟨false, 10 ^ n, 0⟩ else ⟨false, 10 ^ (prec - 1), n - (prec - 1 : Nat)⟩)

/-- `to_integral_value()`. -/
def toIntegralValue (d : Decimal) : Decimal :=
  if 0 ≤ d.exp then d else ⟨d.neg, roundHalfEven d.coeff (10 ^ (-d.exp).toNat), 0⟩

/-- `to_integral_value(rounding=ROUND_DOWN)`. -/
def toIntegralDown (d : Decimal) : Decimal :=
  if 0 ≤ d.exp then d else ⟨d.neg, d.coeff / 10 ^ (-d.exp).toNat, 0⟩

/-- `int(d)`: truncation. -/
def toInt (d : Decimal) : Int :=
  let n : Int := if 0 ≤ d.exp then d.coeff * 10 ^ d.exp.toNat else (d.coeff / 10 ^ (-d.exp).toNat : Nat)
  if d.neg then -n else n

/-- 1.5 * 1.1 = 1.65, and 2 / 3 has 28 digits. -/
example : mul ⟨false, 15, -1⟩ ⟨false, 11, -1⟩ = .ok ⟨false, 165, -2⟩ ∧
    div (ofNat 2) (ofNat 3) = .ok ⟨false, 6666666666666666666666666667, -28⟩ := by decide +kernel

end Decimal

end PyLib

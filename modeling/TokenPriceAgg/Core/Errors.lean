import TokenPriceAgg.Lib.Eff
import TokenPriceAgg.Lib.Numeric

/-!
# Statuses, error payloads and exceptions

`Exn` are the instances of Python's `Exception` the modelled code raises or receives; `Raised` adds
`asyncio.CancelledError`, which is a `BaseException` and passes through every `except Exception`.
-/

namespace TokenPriceAgg

open PyLib

inductive ProviderStatus
  | ok
  | noRoute
  | error
  | badRequest
deriving DecidableEq, Repr

inductive ErrorType
  | timeout
  | rateLimited
  | upstreamHttp
  | upstreamParse
  | internalTransportTimeout
  | noRoute
  | unsupportedOperation
  | unsupportedChain
  | providerUnavailable
  | deadlineExceeded
  | internal
  | vaultResolutionFailed
  | invalidVaultConversion
deriving DecidableEq, Repr

structure ErrorInfo where
  type : ErrorType
  message : String
  code : Option Int := none
  retryAfterMs : Option Int := none
deriving DecidableEq, Repr

/-- The instances of `Exception`. -/
inductive Exn
  | invalidRequest (type message : String)
  | admissionRejected (type message : String) (statusCode retryAfterSeconds : Nat)
  | validationError
  | overflowError
  | decimalSignal (e : ArithmeticError)
  | typeError (message : String)
  | valueError (message : String)
  /-- any other exception, by the name of its type -/
  | other (name : String)
deriving DecidableEq, Repr

/-- `type(exc).__name__`. -/
def Exn.typeName : Exn → String
  | .invalidRequest .. => "InvalidRequestError"
  | .admissionRejected .. => "AdmissionRejectedError"
  | .validationError => "ValidationError"
  | .overflowError => "OverflowError"
  | .decimalSignal .zeroDivision => "DivisionByZero"
  | .decimalSignal .overflow => "Overflow"
  | .decimalSignal .invalidOperation => "InvalidOperation"
  | .typeError _ => "TypeError"
  | .valueError _ => "ValueError"
  | .other name => name

/-- What can be raised: an `Exception` or the cancellation of the task. -/
inductive Raised
  | exception (e : Exn)
  | cancelled
deriving DecidableEq, Repr

/-- `int / int` of the source: a quotient outside the float range is an `OverflowError`. -/
@[irreducible] def divide (a b : Int) : Except Exn ℚ :=
  match trueDiv a b with
  | .ok q => .ok q
  | .error .zeroDivision => .error (.other "ZeroDivisionError")
  | .error _ => .error .overflowError

private theorem divide_of_fits {a b : Int} (hb : b ≠ 0) (h : FitsFloat a b) : divide a b = .ok (a / b) := by
  rw [divide, trueDiv_of_fits hb h]

private theorem divide_of_not_fits {a b : Int} (hb : b ≠ 0) (h : ¬ FitsFloat a b) :
    divide a b = .error .overflowError := by
  rw [divide, trueDiv_of_not_fits hb h]

theorem divide_eq_ok {a b : Int} {q : ℚ} (h : divide a b = .ok q) : q = a / b ∧ FitsFloat a b := by
  unfold divide at h
  split at h
  · rename_i q' hq
    cases h
    exact trueDiv_eq_ok hq
  · cases h
  · cases h

/-- Milliseconds to seconds. -/
theorem divide_thousand_of_fits {a : Int} (h : FitsFloat a 1000) : divide a 1000 = .ok ((a : ℚ) / 1000) := by
  have hb : (1000 : Int) ≠ 0 := by decide
  rw [divide_of_fits hb h]
  rfl

theorem divide_thousand_of_not_fits {a : Int} (h : ¬ FitsFloat a 1000) : divide a 1000 = .error .overflowError := by
  have hb : (1000 : Int) ≠ 0 := by decide
  exact divide_of_not_fits hb h

end TokenPriceAgg

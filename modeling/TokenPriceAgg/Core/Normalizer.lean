import TokenPriceAgg.Core.Models
import Mathlib.Data.List.Sort

/-!
# Order and summary of the results

The order of the response, and the summaries of the successful results.
-/

namespace TokenPriceAgg

open PyLib

section Order

variable {R : Type} [ProviderResult R]

def statusRank : ProviderStatus → Nat
  | .ok => 0
  | _ => 1

/-- `a` may stand before `b`: the keys `(_status_rank(status), provider)` are compared. -/
def Before (a b : R) : Prop :=
  statusRank (ProviderResult.status a) < statusRank (ProviderResult.status b) ∨
    (statusRank (ProviderResult.status a) = statusRank (ProviderResult.status b) ∧
      ¬ ProviderResult.provider b < ProviderResult.provider a)

instance (a b : R) : Decidable (Before a b) := inferInstanceAs (Decidable (_ ∨ _))

/-- `sorted(results, key=...)`, which is stable. -/
def sortResults (results : List R) : List R := results.insertionSort Before

theorem sortResults_perm (results : List R) : (sortResults results).Perm results := List.perm_insertionSort _ _

end Order

def sortPriceResults (results : List PriceResult) : List PriceResult := sortResults results

def sortQuoteResults (results : List QuoteResult) : List QuoteResult := sortResults results

structure AggregatePriceSummary where
  requestedProviders : Nat
  successfulProviders : Nat
  failedProviders : Nat
  highPrice : Option Decimal
  lowPrice : Option Decimal
  medianPrice : Option Decimal
  deviationBps : Option Int
deriving DecidableEq, Repr

structure AggregateQuoteSummary where
  requestedProviders : Nat
  successfulProviders : Nat
  failedProviders : Nat
  highAmountOut : Option Int
  lowAmountOut : Option Int
  medianAmountOut : Option Int
deriving DecidableEq, Repr

def decimalOp (x : Except ArithmeticError Decimal) : Except Exn Decimal := x.mapError Exn.decimalSignal

/-- `max(p, *prices)`: the first of the largest. -/
def maxPrice (p : Decimal) (prices : List Decimal) : Decimal := prices.foldl (fun m x => if m.lt x then x else m) p

/-- `min(p, *prices)`. -/
def minPrice (p : Decimal) (prices : List Decimal) : Decimal := prices.foldl (fun m x => if x.lt m then x else m) p

/-- `statistics.median`. -/
def medianPrice (prices : List Decimal) : Except Exn Decimal :=
  let data := prices.insertionSort fun a b => b.lt a = false
  let n := data.length
  if n % 2 = 1 then .ok (data.getD (n / 2) (.ofNat 0))
  else do
    let sum ← decimalOp (Decimal.add (data.getD (n / 2 - 1) (.ofNat 0)) (data.getD (n / 2) (.ofNat 0)))
    decimalOp (Decimal.div sum (.ofNat 2))

def deviationBps (p : Decimal) (prices : List Decimal) : Except Exn (Option Int) :=
  if prices = [] then .ok none
  else
    let low := minPrice p prices
    let high := maxPrice p prices
    if low.coeff = 0 then .ok none
    else do
      let difference ← decimalOp (Decimal.sub high low)
      let spread ← decimalOp (Decimal.div difference low)
      let bps ← decimalOp (Decimal.mul spread (.ofNat 10000))
      pure (some bps.toIntegralValue.toInt)

def buildPriceSummary (results : List PriceResult) : Except Exn AggregatePriceSummary :=
  let successful := results.filter fun result => result.status = .ok
  let summary : AggregatePriceSummary :=
    { requestedProviders := results.length
      successfulProviders := successful.length
      failedProviders := results.length - successful.length
      highPrice := none, lowPrice := none, medianPrice := none, deviationBps := none }
  match successful.filterMap fun result => result.priceUsd with
  | [] => .ok summary
  | p :: prices => do
    let median ← medianPrice (p :: prices)
    let deviation ← deviationBps p prices
    pure { summary with highPrice := some (maxPrice p prices), lowPrice := some (minPrice p prices)
                        medianPrice := some median, deviationBps := deviation }

/-- The integer lower midpoint of the sorted amounts. -/
def medianAmount (amounts : List Int) : Int :=
  let mid := amounts.length / 2
  if amounts.length % 2 = 1 then amounts.getD mid 0 else (amounts.getD (mid - 1) 0 + amounts.getD mid 0) / 2

def buildQuoteSummary (results : List QuoteResult) : AggregateQuoteSummary :=
  let successful := results.filter fun result => result.status = .ok
  let amounts := (successful.filterMap fun result => result.amountOut).insertionSort (· ≤ ·)
  { requestedProviders := results.length
    successfulProviders := successful.length
    failedProviders := results.length - successful.length
    highAmountOut := amounts.max?
    lowAmountOut := amounts.min?
    medianAmountOut := if amounts = [] then none else some (medianAmount amounts) }

end TokenPriceAgg

import TokenPriceAgg.Core.AmountInput
import TokenPriceAgg.Lib.DecimalText
import TokenPriceAgg.Lib.Floats

/-!
# Parsing of upstream payloads

`parse_int`, `parse_decimal` and the other parsers that the adapters share, on JSON values.  `None` is the JSON `null`:
`getFirst` and `getNested` return it for what is missing.  `datetime.fromisoformat` is a parameter; it yields a
datetime, naive or with an offset, or a `ValueError`.
-/

namespace TokenPriceAgg

open PyLib

/-- A value of the JSON decoder; the entries of an object are found by the first entry with their key. -/
inductive Json
  | null
  | bool (b : Bool)
  | int (n : Int)
  | float (x : FloatValue)
  | str (s : String)
  | list (items : List Json)
  | dict (fields : List (String × Json))

abbrev JsonObject := List (String × Json)

def millisecondsCutoff : Nat := 10 ^ 12
def microsecondsCutoff : Nat := 10 ^ 15
def nanosecondsCutoff : Nat := 10 ^ 18
def maxDecimalDigits : Nat := 100
def maxAbsDecimalExponent : Int := 100

/-! ### Numbers -/

/-- The bounds on a finite decimal in `parse_decimal`. -/
def boundedDecimal (parsed : Decimal) : Option Decimal :=
  if maxDecimalDigits < Decimal.numDigits parsed.coeff then none
  else if parsed.coeff ≠ 0 ∧ maxAbsDecimalExponent < |parsed.adjusted| then none
  else some parsed

/-- `parse_decimal`; the text of a boolean is no number, and long integers have no text. -/
def parseDecimal : Json → Option Decimal
  | .int n => if maxStrDigits < Decimal.numDigits n.natAbs then none else boundedDecimal (.ofInt n)
  | .float (.finite x) => boundedDecimal x.reprDecimal
  | .str s => (decimalOfText s.toList).bind boundedDecimal
  | _ => none

def parsePositiveDecimal (value : Json) : Option Decimal := (parseDecimal value).filter fun parsed => parsed.Positive

/-- `parsed if parsed <= MAX_UINT256 else None`. -/
def atMostUint256 (parsed : Int) : Option Int := if parsed ≤ maxUint256 then some parsed else none

/-- What `int` raises on a text that it does not read. -/
def invalidLiteral (s : String) : Exn := .valueError ("invalid literal for int() with base 10: '" ++ s ++ "'")

/-- `parse_int` of a text. -/
def parseIntText (s : String) : Except Exn (Option Int) :=
  if isDigitText s.toList then
    if maxPositiveIntDigits < s.length then .ok none
    else
      match intOfText s.toList with
      | none => .error (invalidLiteral s)
      | some parsed => .ok (atMostUint256 parsed)
  else .ok none

def parseInt : Json → Except Exn (Option Int)
  | .int n => .ok (if 0 ≤ n ∧ n ≤ maxUint256 then some n else none)
  | .str s => parseIntText s
  -- `float.is_integer` is false of the infinities and of NaN
  | .float (.finite x) =>
    .ok (if x.IsInteger ∧ 0 ≤ x.toInt ∧ x.toInt ≤ maxUint256 then some x.toInt else none)
  | _ => .ok none

/-- `parsed_decimal * (Decimal(10) ** token_decimals)`. -/
def scaleToBaseUnits (parsed : Decimal) (decimals : Nat) : Except Exn Decimal :=
  ((Decimal.tenPow decimals).bind parsed.mul).mapError Exn.decimalSignal

def parseBaseUnitAmount (value : Json) (tokenDecimals : Option Int) : Except Exn (Option Int) := do
  match ← parseInt value with
  | some parsedInt => pure (some parsedInt)
  | none =>
    match parseDecimal value with
    | none => pure none
    | some parsed =>
      if parsed.neg ∧ parsed.coeff ≠ 0 then pure none
      else if parsed.valueEq parsed.toIntegralValue then
        -- a whole number is in base units, whatever the decimals of the token are
        pure (atMostUint256 parsed.toInt)
      else
        match tokenDecimals with
        | none => pure none
        | some decimals =>
          if decimals < 0 then pure none
          else
            let scaled ← scaleToBaseUnits parsed decimals.toNat
            pure (atMostUint256 scaled.toIntegralDown.toInt)

def decimalToBps (value : Option Decimal) : Except Exn (Option Int) :=
  match value with
  | none => .ok none
  | some value =>
    ((value.mul (.ofNat 10000)).mapError Exn.decimalSignal).map fun bps => some bps.toIntegralValue.toInt

/-! ### Timestamps -/

/-- `_from_unix_timestamp`, in microseconds since the epoch; the conversion to a float is not in its `try` block. -/
def fromUnixTimestamp (value : Except ArithmeticError FloatValue) : Except Exn (Option Int) := do
  let candidate ← value.mapError fun _ => Exn.overflowError
  let candidate :=
    if candidate.absGe nanosecondsCutoff then candidate.divNat (10 ^ 9)
    else if candidate.absGe microsecondsCutoff then candidate.divNat (10 ^ 6)
    else if candidate.absGe millisecondsCutoff then candidate.divNat (10 ^ 3)
    else candidate
  pure (fromTimestamp candidate)

/-- `parse_datetime`, as the instant. -/
def parseDatetime (fromIsoFormat : List Char → Option DateTime) : Json → Except Exn (Option Int)
  | .bool b => fromUnixTimestamp (FloatValue.ofInt b.toNat)
  | .int n => fromUnixTimestamp (FloatValue.ofInt n)
  | .float x => fromUnixTimestamp (.ok x)
  | .str s => do
    match ← parseInt (.str s) with
    | some parsedInt => fromUnixTimestamp (FloatValue.ofInt parsedInt)
    | none =>
      -- `str.replace` replaces every `Z`, not only one at the end
      let isoValue := s.toList.flatMap fun c => if c = 'Z' then "+00:00".toList else [c]
      pure ((fromIsoFormat isoValue).map fun parsed => parsed.instant - epochWall)
  | _ => .ok none

/-! ### Texts and fields -/

def parseStr : Json → Option String
  | .str s => if strip s.toList = [] then none else some (String.ofList (strip s.toList))
  | _ => none

/-- The value of a key, `None` if the key is missing. -/
def JsonObject.get (dct : JsonObject) (key : String) : Json := (dct.lookup key).getD .null

def getFirst (dct : JsonObject) (keys : List String) : Json := (keys.findSome? fun key => dct.lookup key).getD .null

def getNested (dct : JsonObject) (path : List String) : Json :=
  path.foldl (fun current key =>
    match current with
    | .dict dct => JsonObject.get dct key
    | _ => .null) (.dict dct)

def parseTokenMetadataFields (payload : JsonObject) : Except Exn (Option String × Option Int × Option String) := do
  let symbol := parseStr (getFirst payload ["symbol", "ticker"])
  let decimals ← parseInt (getFirst payload ["decimals", "tokenDecimals", "precision"])
  let decimals := decimals.filter fun n => ¬ (n < 0 ∨ 255 < n)
  let logoUrl := parseStr
    (getFirst payload ["logoURI", "logoUri", "logo_url", "logoUrl", "logo", "icon", "iconUrl", "image"])
  pure (symbol, decimals, logoUrl)

def withTokenMetadata (base : TokenRef) : Json → Except Exn TokenRef
  | .dict payload => do
    let (symbol, decimals, logoUrl) ← parseTokenMetadataFields payload
    pure { base with
      symbol := symbol.or base.symbol
      decimals := decimals.or base.decimals
      logoUrl := logoUrl.or base.logoUrl }
  | _ => .ok base

end TokenPriceAgg

import TokenPriceAgg.Providers.ParsedAmounts
import TokenPriceAgg.Providers.Payloads
import TokenPriceAgg.Providers.RateLimits

/-!
# Payloads that raise

Which payloads of status 200 make an adapter raise.  Three things do: a text of digits that `int` does not read, since
`str.isdigit` also accepts digits such as superscripts; an integer timestamp beyond the floats; and a minimum output
above the output.  `adapters_answer_iff` says where the adapters read them.

`leaveContextUnset_prices` and `leaveContextUnset_quotes`: no adapter sets the vault context of a result.
-/

namespace TokenPriceAgg

open PyLib PyLib.Decimal

/-- `x` does not raise. -/
def Returns {α : Type} (x : Except Exn α) : Prop := ∃ a, x = .ok a

section Returns

variable {α β : Type} {x : Except Exn α} {f : α → Except Exn β}

private theorem returns_ok (a : α) : Returns (.ok a : Except Exn α) := ⟨a, rfl⟩

private theorem not_returns_error (e : Exn) : ¬ Returns (.error e : Except Exn α) := nofun

private theorem returns_bind_iff : Returns (x >>= f) ↔ Returns x ∧ ∀ a, x = .ok a → Returns (f a) := by
  constructor
  · rintro ⟨b, hb⟩
    obtain ⟨a, rfl, hfa⟩ := Eff.except_bind_eq_ok.1 hb
    refine ⟨returns_ok a, fun a' ha' => ?_⟩
    obtain rfl := Except.ok.inj ha'
    exact ⟨b, hfa⟩
  · rintro ⟨⟨a, rfl⟩, h⟩
    exact h a rfl

/-- `x` returns a result of the kind `P`. -/
def ReturnsWith (P : β → Prop) (x : Except Exn β) : Prop := ∃ b, x = .ok b ∧ P b

private theorem returnsWith_bind_iff {P : β → Prop} :
    ReturnsWith P (x >>= f) ↔ Returns x ∧ ∀ a, x = .ok a → ReturnsWith P (f a) := by
  constructor
  · rintro ⟨b, hb, hP⟩
    obtain ⟨a, rfl, hfa⟩ := Eff.except_bind_eq_ok.1 hb
    refine ⟨returns_ok a, fun a' ha' => ?_⟩
    obtain rfl := Except.ok.inj ha'
    exact ⟨b, hfa, hP⟩
  · rintro ⟨⟨a, rfl⟩, h⟩
    exact h a rfl

private theorem returns_map_iff {g : α → β} : Returns (x.map g) ↔ Returns x := by
  cases x with
  | error e => exact iff_of_false (not_returns_error e) (not_returns_error e)
  | ok a => exact iff_of_true (returns_ok (g a)) (returns_ok a)

end Returns

/-! ### Fields -/

/-- A text of at most 78 digits, one of which is no decimal digit. -/
def UnreadableDigits (s : String) : Prop :=
  isDigitText s.toList = true ∧ s.length ≤ 78 ∧ ∃ c ∈ s.toList, decimalValue c = none

instance (s : String) : Decidable (UnreadableDigits s) := inferInstanceAs (Decidable (_ ∧ _))

/-- What `parse_int` raises on. -/
def UnreadableInt : Json → Prop
  | .str s => UnreadableDigits s
  | _ => False

private theorem length_toList_le {s : String} (h : ¬ maxPositiveIntDigits < s.length) :
    s.toList.length ≤ maxStrDigits := by
  rw [String.length_toList]
  unfold maxPositiveIntDigits at h
  unfold maxStrDigits
  omega

private theorem parseIntText_returns_iff {s : String} : Returns (parseIntText s) ↔ ¬ UnreadableDigits s := by
  unfold parseIntText
  by_cases hdigits : isDigitText s.toList = true
  · rw [if_pos hdigits]
    by_cases hlen : maxPositiveIntDigits < s.length
    · rw [if_pos hlen]
      refine iff_of_true (returns_ok _) fun h => ?_
      exact absurd hlen (not_lt.2 h.2.1)
    · have hread := intOfText_isSome_iff hdigits (length_toList_le hlen)
      have hall : ¬ UnreadableDigits s ↔ ∀ c ∈ s.toList, (decimalValue c).isSome := by
        constructor
        · intro h c hc
          by_contra hnone
          exact h ⟨hdigits, not_lt.1 hlen, c, hc, Option.not_isSome_iff_eq_none.1 hnone⟩
        · rintro h ⟨-, -, c, hc, hnone⟩
          have hsome := h c hc
          rw [hnone] at hsome
          cases hsome
      rw [if_neg hlen, hall, ← hread]
      cases intOfText s.toList with
      | none => exact iff_of_false (not_returns_error _) (by decide)
      | some n => exact iff_of_true (returns_ok _) rfl
  · rw [if_neg hdigits]
    exact iff_of_true (returns_ok _) fun h => hdigits h.1

private theorem parseInt_returns_iff {value : Json} : Returns (parseInt value) ↔ ¬ UnreadableInt value := by
  cases value with
  | str s => exact parseIntText_returns_iff
  | float x =>
    cases x with
    | finite x => exact iff_of_true (returns_ok _) id
    | inf neg => exact iff_of_true (returns_ok _) id
    | nan => exact iff_of_true (returns_ok _) id
  | null => exact iff_of_true (returns_ok _) id
  | bool b => exact iff_of_true (returns_ok _) id
  | int n => exact iff_of_true (returns_ok _) id
  | list items => exact iff_of_true (returns_ok _) id
  | dict fields => exact iff_of_true (returns_ok _) id

/-- What a text of digits gives is an amount. -/
private theorem parseIntText_uint256 {s : String} {n : Int} (h : parseIntText s = .ok (some n)) : IsUint256 n := by
  unfold parseIntText at h
  split at h
  · rename_i hdigits
    split at h
    · cases h
    · rename_i hlen
      cases hread : intOfText s.toList with
      | none =>
        rw [hread] at h
        cases h
      | some m =>
        rw [hread] at h
        have hmax := Except.ok.inj h
        obtain rfl := atMostUint256_eq_some hmax
        have hne : s.toList ≠ [] := by
          intro hnil
          rw [hnil] at hdigits
          cases hdigits
        have hall := (intOfText_isSome_iff hdigits (length_toList_le hlen)).1 (by rw [hread]; rfl)
        rw [intOfText_of_digits hne (length_toList_le hlen) hall] at hread
        obtain rfl := Option.some.inj hread
        exact ⟨Int.natCast_nonneg _, atMostUint256_le hmax⟩
  · cases h

private theorem parseInt_uint256 {value : Json} {n : Int} (h : parseInt value = .ok (some n)) : IsUint256 n := by
  cases value with
  | str s => exact parseIntText_uint256 h
  | int m =>
    have hm : (if 0 ≤ m ∧ m ≤ maxUint256 then some m else none) = some n := Except.ok.inj h
    split at hm
    · obtain rfl := Option.some.inj hm
      assumption
    · cases hm
  | float x =>
    cases x with
    | finite x =>
      have hx : (if x.IsInteger ∧ 0 ≤ x.toInt ∧ x.toInt ≤ maxUint256 then some x.toInt else none) = some n :=
        Except.ok.inj h
      split at hx
      · rename_i hrange
        obtain rfl := Option.some.inj hx
        exact hrange.2
      · cases hx
    | inf neg => cases h
    | nan => cases h
  | null => cases h
  | bool b => cases h
  | list items => cases h
  | dict fields => cases h

section Amounts

variable {value : Json} {tokenDecimals : Option Int}

private theorem parseBaseUnitAmount_of_int {parsed : Int} (h : parseInt value = .ok (some parsed)) :
    parseBaseUnitAmount value tokenDecimals = .ok (some parsed) := by
  unfold parseBaseUnitAmount
  rw [h]
  rfl

private theorem parseBaseUnitAmount_of_not_decimal (hint : parseInt value = .ok none) (h : parseDecimal value = none) :
    parseBaseUnitAmount value tokenDecimals = .ok none := by
  unfold parseBaseUnitAmount
  rw [hint, h]
  rfl

/-- Up to 255 decimals an amount is read if the integer is. -/
private theorem parseBaseUnitAmount_returns_iff (hdecimals : ∀ n ∈ tokenDecimals, n ≤ 255) :
    Returns (parseBaseUnitAmount value tokenDecimals) ↔ ¬ UnreadableInt value := by
  rw [← parseInt_returns_iff]
  constructor
  · intro h
    exact (returns_bind_iff.1 h).1
  · rintro ⟨parsed, hint⟩
    cases parsed with
    | some parsed => exact ⟨_, parseBaseUnitAmount_of_int hint⟩
    | none =>
      cases hv : parseDecimal value with
      | none => exact ⟨_, parseBaseUnitAmount_of_not_decimal hint hv⟩
      | some v =>
        by_cases hsign : v.neg = true ∧ v.coeff ≠ 0
        · exact ⟨_, parseBaseUnitAmount_negative hint hv hsign⟩
        by_cases hwhole : Int.fract v.toRat = 0
        · exact ⟨_, parseBaseUnitAmount_whole hint hv hsign hwhole⟩
        by_cases hunscaled : ∀ n ∈ tokenDecimals, n < 0
        · exact ⟨_, parseBaseUnitAmount_unscaled hint hv hsign hwhole hunscaled⟩
        · push Not at hunscaled
          obtain ⟨n, hn, hn0⟩ := hunscaled
          obtain ⟨decimals, rfl⟩ := Int.eq_ofNat_of_zero_le hn0
          have hmax := hdecimals _ hn
          have hsmall : decimals ≤ 255 := by omega
          obtain ⟨scaled, hscaled⟩ := scaleToBaseUnits_ok hv (positive_of_fract hsign hwhole) hsmall
          rw [Option.mem_def.1 hn, parseBaseUnitAmount_fraction hint hv hsign hwhole, hscaled]
          exact returns_ok _

private theorem parseBaseUnitAmount_uint256 {a : Int} (h : parseBaseUnitAmount value tokenDecimals = .ok (some a)) :
    IsUint256 a := by
  cases hint : parseInt value with
  | error e =>
    unfold parseBaseUnitAmount at h
    rw [hint] at h
    cases h
  | ok parsed =>
    cases parsed with
    | some parsed =>
      rw [parseBaseUnitAmount_of_int hint] at h
      obtain rfl := Option.some.inj (Except.ok.inj h)
      exact parseInt_uint256 hint
    | none =>
      cases hv : parseDecimal value with
      | none =>
        rw [parseBaseUnitAmount_of_not_decimal hint hv] at h
        cases h
      | some v =>
        have hsign := sign_of_amount hint hv h
        by_cases hwhole : Int.fract v.toRat = 0
        · have hvalue : 0 ≤ v.toRat := by
            rcases sign_cases hsign with hneg | ⟨-, hzero⟩
            · exact toRat_nonneg hneg
            · exact hzero.ge
          rw [parseBaseUnitAmount_whole hint hv hsign hwhole] at h
          have hmax := Except.ok.inj h
          obtain rfl := atMostUint256_eq_some hmax
          exact ⟨Int.floor_nonneg.2 hvalue, atMostUint256_le hmax⟩
        · obtain ⟨decimals, rfl, -, y, hy, rfl⟩ := fraction_amount hint hv h hwhole
          refine ⟨Int.floor_nonneg.2 hy.nonneg, ?_⟩
          rw [parseBaseUnitAmount_fraction hint hv hsign hwhole] at h
          cases hscaled : scaleToBaseUnits v decimals with
          | error e =>
            rw [hscaled] at h
            cases h
          | ok scaled =>
            rw [hscaled] at h
            exact atMostUint256_le (Except.ok.inj h)

end Amounts

/-- The product of a moderate decimal with ten thousand does not overflow. -/
private theorem decimalToBps_returns {v : Decimal} (hv : v.coeff ≠ 0 → |v.adjusted| ≤ 100) :
    Returns (decimalToBps (some v)) := by
  have hmul : ∃ d, v.mul (.ofNat 10000) = .ok d := by
    unfold Decimal.mul Decimal.ofNat
    by_cases hzero : v.coeff = 0
    · rw [hzero, Nat.zero_mul]
      exact ⟨_, rfl⟩
    · obtain ⟨hlo, hhi⟩ := abs_le.1 (hv hzero)
      have hpos : 0 < v.coeff := Nat.pos_of_ne_zero hzero
      have hdigits : numDigits (v.coeff * 10000) = numDigits v.coeff + 4 := numDigits_mul_pow hpos 4
      have hmin : emin = -999999 := rfl
      have hmax : emax = 999999 := rfl
      unfold adjusted at hlo hhi
      dsimp only
      obtain ⟨d, hd, -⟩ := fix_magnitude (v.neg != false) (c := v.coeff * 10000) (v.exp + 0) (by omega)
        (by omega) (by omega)
      exact ⟨d, hd⟩
  obtain ⟨d, hd⟩ := hmul
  show Returns (((v.mul (.ofNat 10000)).mapError Exn.decimalSignal).map fun bps => some bps.toIntegralValue.toInt)
  rw [hd]
  exact returns_ok _

private theorem decimalToBps_parseDecimal (value : Json) : Returns (decimalToBps (parseDecimal value)) := by
  cases hv : parseDecimal value with
  | none => exact returns_ok _
  | some v => exact decimalToBps_returns (parseDecimal_bounded hv)

private theorem parsePriceImpactBps_returns (value : Json) : Returns (EnsoProvider.parsePriceImpactBps value) := by
  unfold EnsoProvider.parsePriceImpactBps
  cases hv : parseDecimal value with
  | none => exact returns_ok _
  | some v =>
    dsimp only
    split
    · exact returns_ok _
    · exact decimalToBps_returns (parseDecimal_bounded hv)

/-- What `parse_datetime` raises on: also the integers beyond the floats. -/
def UnreadableTime : Json → Prop
  | .int n => floatLimit ≤ n.natAbs
  | value => UnreadableInt value

private theorem fromUnixTimestamp_returns_iff {value : Except ArithmeticError FloatValue} :
    Returns (fromUnixTimestamp value) ↔ ∃ x, value = .ok x := by
  cases value with
  | error e =>
    refine iff_of_false ?_ ?_
    · rintro ⟨a, ha⟩
      cases ha
    · rintro ⟨x, hx⟩
      cases hx
  | ok x =>
    refine iff_of_true ?_ ⟨x, rfl⟩
    unfold fromUnixTimestamp
    rw [returns_bind_iff]
    exact ⟨⟨x, rfl⟩, fun _ _ => returns_ok _⟩

private theorem ofInt_ok_iff {n : Int} : (∃ x, FloatValue.ofInt n = .ok x) ↔ n.natAbs < floatLimit := by
  unfold FloatValue.ofInt
  by_cases h : n.natAbs < floatLimit
  · rw [if_pos h]
    exact iff_of_true ⟨_, rfl⟩ h
  · rw [if_neg h]
    refine iff_of_false ?_ h
    rintro ⟨x, hx⟩
    cases hx

private theorem maxUint256_lt_floatLimit : maxUint256.natAbs < floatLimit := by decide +kernel

section Fields

variable {fromIsoFormat : List Char → Option DateTime}

private theorem parseDatetime_returns_iff {value : Json} :
    Returns (parseDatetime fromIsoFormat value) ↔ ¬ UnreadableTime value := by
  cases value with
  | null => exact iff_of_true (returns_ok _) id
  | list items => exact iff_of_true (returns_ok _) id
  | dict fields => exact iff_of_true (returns_ok _) id
  | float x => exact iff_of_true (fromUnixTimestamp_returns_iff.2 ⟨x, rfl⟩) id
  | bool b =>
    refine iff_of_true (fromUnixTimestamp_returns_iff.2 (ofInt_ok_iff.2 ?_)) id
    have hlimit : 1 < floatLimit := by decide +kernel
    cases b
    · exact lt_trans (by decide) hlimit
    · exact hlimit
  | int n =>
    show Returns (fromUnixTimestamp (FloatValue.ofInt n)) ↔ ¬ floatLimit ≤ n.natAbs
    rw [fromUnixTimestamp_returns_iff, ofInt_ok_iff, not_le]
  | str s =>
    show Returns (parseInt (.str s) >>= _) ↔ ¬ UnreadableInt (.str s)
    rw [returns_bind_iff, parseInt_returns_iff, and_iff_left_iff_imp]
    intro _ parsed hparsed
    cases parsed with
    | none => exact returns_ok _
    | some n =>
      obtain ⟨hlo, hhi⟩ := parseInt_uint256 hparsed
      have hlimit := maxUint256_lt_floatLimit
      exact fromUnixTimestamp_returns_iff.2 (ofInt_ok_iff.2 (by omega))

/-- What `with_token_metadata` raises on. -/
def UnreadableMetadata : Json → Prop
  | .dict fields => UnreadableInt (getFirst fields ["decimals", "tokenDecimals", "precision"])
  | _ => False

private theorem withTokenMetadata_returns_iff {base : TokenRef} {payload : Json} :
    Returns (withTokenMetadata base payload) ↔ ¬ UnreadableMetadata payload := by
  cases payload with
  | dict fields =>
    show Returns (parseTokenMetadataFields fields >>= _) ↔
      ¬ UnreadableInt (getFirst fields ["decimals", "tokenDecimals", "precision"])
    rw [returns_bind_iff, ← parseInt_returns_iff]
    unfold parseTokenMetadataFields
    rw [returns_bind_iff]
    constructor
    · exact fun h => h.1.1
    · exact fun h => ⟨⟨h, fun _ _ => returns_ok _⟩, fun _ _ => returns_ok _⟩
  | null => exact iff_of_true (returns_ok _) id
  | bool b => exact iff_of_true (returns_ok _) id
  | int n => exact iff_of_true (returns_ok _) id
  | float x => exact iff_of_true (returns_ok _) id
  | str s => exact iff_of_true (returns_ok _) id
  | list items => exact iff_of_true (returns_ok _) id

/-- The decimals of a token stay at most 255. -/
private theorem withTokenMetadata_decimals {base token : TokenRef} {payload : Json}
    (h : withTokenMetadata base payload = .ok token) (hbase : ∀ n ∈ base.decimals, n ≤ 255) :
    ∀ n ∈ token.decimals, n ≤ 255 := by
  cases payload with
  | dict fields =>
    obtain ⟨parsed, hparsed, htoken⟩ := Eff.except_bind_eq_ok.1 h
    unfold parseTokenMetadataFields at hparsed
    obtain ⟨decimals, -, hparsed⟩ := Eff.except_bind_eq_ok.1 hparsed
    obtain rfl := Except.ok.inj hparsed
    obtain rfl := Except.ok.inj htoken
    intro n hn
    rcases Option.or_eq_some_iff.1 (Option.mem_def.1 hn) with hfilter | ⟨-, hn⟩
    · have hrange := Option.filter_eq_some_iff.1 hfilter
      have hbounds := of_decide_eq_true hrange.2
      omega
    · exact hbase n hn
  | null => exact Except.ok.inj h ▸ hbase
  | bool b => exact Except.ok.inj h ▸ hbase
  | int n => exact Except.ok.inj h ▸ hbase
  | float x => exact Except.ok.inj h ▸ hbase
  | str s => exact Except.ok.inj h ▸ hbase
  | list items => exact Except.ok.inj h ▸ hbase

end Fields

/-! ### Output amounts -/

private theorem positiveAmount_eq_some {amount : Option Int} {a : Int} (h : positiveAmount amount = some a) :
    amount = some a ∧ 0 < a := by
  obtain ⟨hamount, hpos⟩ := Option.filter_eq_some_iff.1 h
  exact ⟨hamount, of_decide_eq_true hpos⟩

/-- What reading an output amount with a fallback raises on. -/
def UnreadableOutput (value fallback : Json) (decimals : Option Int) : Prop :=
  UnreadableInt value ∨
    ((∀ amount, parseBaseUnitAmount value decimals = .ok amount → positiveAmount amount = none) ∧
      UnreadableInt fallback)

private theorem amountOrFallback_returns_iff {value fallback : Json} {decimals : Option Int}
    (hdecimals : ∀ n ∈ decimals, n ≤ 255) :
    Returns (amountOrFallback value fallback decimals) ↔ ¬ UnreadableOutput value fallback decimals := by
  unfold amountOrFallback UnreadableOutput
  rw [returns_bind_iff, parseBaseUnitAmount_returns_iff hdecimals, not_or]
  constructor
  · rintro ⟨hvalue, hrest⟩
    refine ⟨hvalue, ?_⟩
    rintro ⟨hnone, hfallback⟩
    obtain ⟨amount, hamount⟩ := (parseBaseUnitAmount_returns_iff hdecimals).2 hvalue
    -- without a positive amount the fallback is read
    have hthen := hrest amount hamount
    rw [hnone amount hamount] at hthen
    exact (parseBaseUnitAmount_returns_iff hdecimals).1 (returns_bind_iff.1 hthen).1 hfallback
  · rintro ⟨hvalue, hfallback⟩
    refine ⟨hvalue, fun amount hamount => ?_⟩
    cases hpos : positiveAmount amount with
    | some a => exact returns_ok _
    | none =>
      refine returns_bind_iff.2 ⟨(parseBaseUnitAmount_returns_iff hdecimals).2 fun h => hfallback ⟨?_, h⟩,
        fun _ _ => returns_ok _⟩
      intro amount' hamount'
      rw [hamount] at hamount'
      rwa [← Except.ok.inj hamount']

private theorem amountOrFallback_positive {value fallback : Json} {decimals : Option Int} {a : Int}
    (h : amountOrFallback value fallback decimals = .ok (some a)) : 0 < a ∧ IsUint256 a := by
  obtain ⟨amount, hamount, hrest⟩ := Eff.except_bind_eq_ok.1 h
  cases hpos : positiveAmount amount with
  | some n =>
    rw [hpos] at hrest
    obtain rfl := Option.some.inj (Except.ok.inj hrest)
    obtain ⟨rfl, hn⟩ := positiveAmount_eq_some hpos
    exact ⟨hn, parseBaseUnitAmount_uint256 hamount⟩
  | none =>
    rw [hpos] at hrest
    obtain ⟨amount', hamount', hrest⟩ := Eff.except_bind_eq_ok.1 hrest
    obtain ⟨rfl, hn⟩ := positiveAmount_eq_some (Except.ok.inj hrest)
    exact ⟨hn, parseBaseUnitAmount_uint256 hamount'⟩

/-- What looking for the first positive amount of a list raises on. -/
def UnreadableItems : List Json → Prop
  | [] => False
  | item :: items =>
    UnreadableInt item ∨ ((∀ amount, parseInt item = .ok amount → positiveAmount amount = none) ∧ UnreadableItems items)

/-- What `_parse_curve_amount` raises on. -/
def UnreadableAmount : Json → Prop
  | .list items => UnreadableItems items
  | value => UnreadableInt value

private theorem firstPositive_returns_iff {items : List Json} :
    Returns (CurveProvider.firstPositive items) ↔ ¬ UnreadableItems items := by
  induction items with
  | nil => exact iff_of_true (returns_ok _) id
  | cons item items ih =>
    unfold CurveProvider.firstPositive UnreadableItems
    rw [returns_bind_iff, parseInt_returns_iff, not_or]
    constructor
    · rintro ⟨hitem, hrest⟩
      refine ⟨hitem, ?_⟩
      rintro ⟨hnone, hitems⟩
      obtain ⟨amount, hamount⟩ := parseInt_returns_iff.2 hitem
      have hthen := hrest amount hamount
      rw [hnone amount hamount] at hthen
      exact ih.1 hthen hitems
    · rintro ⟨hitem, hitems⟩
      refine ⟨hitem, fun amount hamount => ?_⟩
      cases hpos : positiveAmount amount with
      | some a => exact returns_ok _
      | none =>
        refine ih.2 fun h => hitems ⟨fun amount' hamount' => ?_, h⟩
        rw [hamount] at hamount'
        rwa [← Except.ok.inj hamount']

private theorem parseAmount_returns_iff {value : Json} :
    Returns (CurveProvider.parseAmount value) ↔ ¬ UnreadableAmount value := by
  have hint (value : Json) : Returns ((parseInt value).map positiveAmount) ↔ ¬ UnreadableInt value :=
    returns_map_iff.trans parseInt_returns_iff
  cases value with
  | list items => exact firstPositive_returns_iff
  | null => exact hint .null
  | bool b => exact hint (.bool b)
  | int n => exact hint (.int n)
  | float x => exact hint (.float x)
  | str s => exact hint (.str s)
  | dict fields => exact hint (.dict fields)

private theorem firstPositive_positive
    {items : List Json} {a : Int} (h : CurveProvider.firstPositive items = .ok (some a)) :
    0 < a ∧ IsUint256 a := by
  induction items with
  | nil => cases h
  | cons item items ih =>
    obtain ⟨amount, hamount, hrest⟩ := Eff.except_bind_eq_ok.1 h
    cases hpos : positiveAmount amount with
    | some n =>
      rw [hpos] at hrest
      obtain rfl := Option.some.inj (Except.ok.inj hrest)
      obtain ⟨rfl, hn⟩ := positiveAmount_eq_some hpos
      exact ⟨hn, parseInt_uint256 hamount⟩
    | none =>
      rw [hpos] at hrest
      exact ih hrest

private theorem parseAmount_positive {value : Json} {a : Int} (h : CurveProvider.parseAmount value = .ok (some a)) :
    0 < a ∧ IsUint256 a := by
  have hint (h : (parseInt value).map positiveAmount = .ok (some a)) : 0 < a ∧ IsUint256 a := by
    cases hparsed : parseInt value with
    | error e =>
      rw [hparsed] at h
      cases h
    | ok amount =>
      rw [hparsed] at h
      obtain ⟨rfl, hn⟩ := positiveAmount_eq_some (Except.ok.inj h)
      exact ⟨hn, parseInt_uint256 hparsed⟩
  cases value with
  | list items => exact firstPositive_positive h
  | null => exact hint h
  | bool b => exact hint h
  | int n => exact hint h
  | float x => exact hint h
  | str s => exact hint h
  | dict fields => exact hint h

/-! ### Results -/

/-- A price result that is a success with a positive price, or a failure with an error. -/
def AnswersPrice (x : Except Exn AcceptedPriceResult) : Prop :=
  ReturnsWith (fun r => (r.val.status = .ok ∧ ∃ d ∈ r.val.priceUsd, d.Positive) ∨
    (r.val.status ≠ .ok ∧ r.val.error.isSome)) x

/-- A quote result that is a success with a positive amount, or a failure with an error. -/
def AnswersQuote (x : Except Exn AcceptedQuoteResult) : Prop :=
  ReturnsWith (fun r => (r.val.status = .ok ∧ ∃ n ∈ r.val.amountOut, 0 < n) ∨
    (r.val.status ≠ .ok ∧ r.val.error.isSome)) x

private theorem failedPrice_answers
    {id : String} {req : ProviderPriceRequest} {status : ProviderStatus} {latencyMs : Millis}
    {error : ErrorInfo} (hstatus : status ≠ .ok) : AnswersPrice (failedPrice id req status latencyMs error) := by
  have hvalid := PriceResult.valid_failure
    (r := { provider := id, status, token := some req.token, latencyMs := latencyMs.val, error := some error })
    hstatus rfl (Int.natCast_nonneg _)
  unfold failedPrice PriceResult.accept
  rw [dif_pos hvalid]
  exact ⟨_, rfl, .inr ⟨hstatus, rfl⟩⟩

private theorem failedQuote_answers
    {id : String} {req : ProviderQuoteRequest} {status : ProviderStatus} {latencyMs : Millis}
    {error : ErrorInfo} (hstatus : status ≠ .ok) (hamount : IsUint256 req.amountIn) :
    AnswersQuote (failedQuote id req status latencyMs error) := by
  have hvalid : ({ provider := id, status, tokenIn := some req.tokenIn, tokenOut := some req.tokenOut
                   amountIn := some req.amountIn, latencyMs := latencyMs.val, error := some error } :
      QuoteResult).Valid := by
    refine (QuoteResult.valid_failure hstatus rfl rfl rfl).2 ⟨Int.natCast_nonneg _, ?_⟩
    intro n hn
    obtain rfl := Option.some.inj hn
    exact hamount
  unfold failedQuote QuoteResult.accept
  rw [dif_pos hvalid]
  exact ⟨_, rfl, .inr ⟨hstatus, rfl⟩⟩

private theorem parsePositiveDecimal_valid
    {value : Json} {price : Decimal} (h : parsePositiveDecimal value = some price) :
    ValidPrice price := by
  obtain ⟨hparsed, hpos⟩ := Option.filter_eq_some_iff.1 h
  replace hpos : price.Positive := of_decide_eq_true hpos
  exact ⟨hpos, parseDecimal_bounded hparsed hpos.2.ne'⟩

private theorem okPrice_answers {r : PriceResult} {price : Decimal} (hstatus : r.status = .ok)
    (hprice : r.priceUsd = some price) (hvalid : ValidPrice price) (herror : r.error = none)
    (hlatency : 0 ≤ r.latencyMs) :
    AnswersPrice (PriceResult.accept r) := by
  have hr : r.Valid :=
    { latency := hlatency
      price := by
        intro d hd
        rw [hprice] at hd
        obtain rfl := Option.some.inj hd
        exact hvalid
      ok_price := fun _ => by rw [hprice]; rfl
      ok_error := fun _ => herror }
  unfold PriceResult.accept
  rw [dif_pos hr]
  exact ⟨_, rfl, .inl ⟨hstatus, price, hprice, hvalid.1⟩⟩

/-- A success with amounts is rejected exactly if its minimum is above its output. -/
private theorem okQuote_answers_iff {r : QuoteResult} {amountOut : Int} (hstatus : r.status = .ok)
    (hamount : r.amountOut = some amountOut) (hpos : 0 < amountOut) (hout : IsUint256 amountOut)
    (hin : ∀ n ∈ r.amountIn, IsUint256 n) (hmin : ∀ n ∈ r.amountOutMin, IsUint256 n)
    (hgas : ∀ n ∈ r.estimatedGas, IsUint256 n) (herror : r.error = none) (hlatency : 0 ≤ r.latencyMs) :
    AnswersQuote (QuoteResult.accept r) ↔ ∀ m ∈ r.amountOutMin, m ≤ amountOut := by
  unfold QuoteResult.accept
  constructor
  · rintro ⟨accepted, haccepted, -⟩
    split at haccepted
    · rename_i hvalid
      exact fun m hm => hvalid.min_le m hm amountOut hamount
    · cases haccepted
  · intro hle
    have hr : r.Valid :=
      { latency := hlatency
        amountIn := hin
        amountOut := by
          intro n hn
          rw [hamount] at hn
          obtain rfl := Option.some.inj hn
          exact hout
        amountOutMin := hmin
        estimatedGas := hgas
        ok_amount := fun _ => ⟨amountOut, hamount, hpos⟩
        ok_error := fun _ => herror
        min_le := by
          intro m hm n hn
          rw [hamount] at hn
          obtain rfl := Option.some.inj hn
          exact hle m hm }
    rw [dif_pos hr]
    exact ⟨_, rfl, .inl ⟨hstatus, amountOut, hamount, hpos⟩⟩

/-! ### Prices -/

section Prices

variable {fromIsoFormat : List Char → Option DateTime} {payload : JsonObject} {latencyMs : Millis}
  {req : ProviderPriceRequest}

/-- The timestamp of a known coin is readable, and so are the decimals of a priced one. -/
def DefiLlamaProvider.ReadablePrice (payload : JsonObject) (coin : String) : Prop :=
  ∀ data, DefiLlamaProvider.coinData payload coin = some data →
    ¬ UnreadableTime (data.get "timestamp") ∧
    ((parsePositiveDecimal (data.get "price")).isSome → ¬ UnreadableMetadata (.dict data))

/-- The timestamp of a price is readable. -/
def CurveProvider.ReadablePrice (payload : JsonObject) : Prop :=
  (CurveProvider.price payload).isSome → ¬ UnreadableTime (getFirst payload ["timestamp", "asOf"])

/-- The timestamp of a price and the decimals of its token are readable. -/
def LiFiProvider.ReadablePrice (payload : JsonObject) : Prop :=
  (LiFiProvider.price payload).isSome →
    ¬ UnreadableTime (getFirst payload ["timestamp", "updatedAt"]) ∧ ¬ UnreadableMetadata (payload.get "token")

/-- The decimals of a priced token and the timestamp are readable. -/
def EnsoProvider.ReadablePrice (responsePayload : JsonObject) : Prop :=
  let payload := payloadDataOrRoot responsePayload
  (parsePositiveDecimal (getFirst payload ["price", "usdPrice", "priceUsd"])).isSome →
    ¬ UnreadableMetadata (.dict payload) ∧ ¬ UnreadableTime (getFirst payload ["timestamp", "updatedAt"])

private theorem DefiLlamaProvider.onCoin_answers_iff {coin : String} :
    AnswersPrice (DefiLlamaProvider.onCoin fromIsoFormat coin payload latencyMs req) ↔
      DefiLlamaProvider.ReadablePrice payload coin := by
  unfold DefiLlamaProvider.onCoin DefiLlamaProvider.ReadablePrice
  cases DefiLlamaProvider.coinData payload coin with
  | none => exact iff_of_true (failedPrice_answers (by decide)) nofun
  | some data =>
    have hone {P : JsonObject → Prop} : (∀ d, some data = some d → P d) ↔ P data := by simp
    rw [hone]
    dsimp only
    unfold AnswersPrice
    rw [returnsWith_bind_iff, parseDatetime_returns_iff]
    -- the price decides whether the metadata are read
    refine and_congr_right fun hreadable => ?_
    obtain ⟨asOf, hasOf⟩ : Returns (parseDatetime fromIsoFormat _) := parseDatetime_returns_iff.2 hreadable
    cases hprice : parsePositiveDecimal (data.get "price") with
    | none =>
      refine iff_of_true (fun _ _ => failedPrice_answers (by decide)) ?_
      intro h
      cases h
    | some price =>
      have hvalid := parsePositiveDecimal_valid hprice
      dsimp only
      constructor
      · intro h _
        exact withTokenMetadata_returns_iff.1 (returnsWith_bind_iff.1 (h asOf hasOf)).1
      · intro h asOf' _
        rw [returnsWith_bind_iff]
        refine ⟨withTokenMetadata_returns_iff.2 (h rfl), fun token _ => ?_⟩
        exact okPrice_answers rfl rfl hvalid rfl (Int.natCast_nonneg _)

private theorem CurveProvider.price_valid {price : Decimal} (h : CurveProvider.price payload = some price) :
    ValidPrice price := by
  unfold CurveProvider.price at h
  dsimp only at h
  split at h
  · exact parsePositiveDecimal_valid h
  · exact parsePositiveDecimal_valid h

private theorem CurveProvider.onPrice_answers_iff :
    AnswersPrice (CurveProvider.onPrice fromIsoFormat payload latencyMs req) ↔
      CurveProvider.ReadablePrice payload := by
  unfold CurveProvider.onPrice CurveProvider.ReadablePrice
  cases hprice : CurveProvider.price payload with
  | none =>
    refine iff_of_true (failedPrice_answers (by decide)) ?_
    intro h
    cases h
  | some price =>
    have hvalid := CurveProvider.price_valid hprice
    dsimp only
    unfold AnswersPrice
    rw [returnsWith_bind_iff, parseDatetime_returns_iff]
    constructor
    · exact fun h _ => h.1
    · exact fun h => ⟨h rfl, fun _ _ => okPrice_answers rfl rfl hvalid rfl (Int.natCast_nonneg _)⟩

private theorem LiFiProvider.price_valid {price : Decimal} (h : LiFiProvider.price payload = some price) :
    ValidPrice price := by
  unfold LiFiProvider.price at h
  split at h
  · exact parsePositiveDecimal_valid h
  · exact parsePositiveDecimal_valid h

private theorem LiFiProvider.onPrice_answers_iff :
    AnswersPrice (LiFiProvider.onPrice fromIsoFormat payload latencyMs req) ↔ LiFiProvider.ReadablePrice payload := by
  unfold LiFiProvider.onPrice LiFiProvider.ReadablePrice
  cases hprice : LiFiProvider.price payload with
  | none =>
    refine iff_of_true (failedPrice_answers (by decide)) ?_
    intro h
    cases h
  | some price =>
    have hvalid := LiFiProvider.price_valid hprice
    dsimp only
    unfold AnswersPrice
    rw [returnsWith_bind_iff, parseDatetime_returns_iff]
    constructor
    · rintro ⟨htime, hrest⟩ -
      obtain ⟨asOf, hasOf⟩ : Returns (parseDatetime fromIsoFormat _) := parseDatetime_returns_iff.2 htime
      exact ⟨htime, withTokenMetadata_returns_iff.1 (returnsWith_bind_iff.1 (hrest asOf hasOf)).1⟩
    · intro h
      obtain ⟨htime, hmetadata⟩ := h rfl
      refine ⟨htime, fun asOf _ => returnsWith_bind_iff.2 ⟨withTokenMetadata_returns_iff.2 hmetadata, ?_⟩⟩
      exact fun _ _ => okPrice_answers rfl rfl hvalid rfl (Int.natCast_nonneg _)

private theorem EnsoProvider.onPrice_answers_iff :
    AnswersPrice (EnsoProvider.onPrice fromIsoFormat payload latencyMs req) ↔ EnsoProvider.ReadablePrice payload := by
  unfold EnsoProvider.onPrice EnsoProvider.ReadablePrice
  dsimp only
  generalize payloadDataOrRoot payload = data
  cases hprice : parsePositiveDecimal (getFirst data ["price", "usdPrice", "priceUsd"]) with
  | none =>
    refine iff_of_true (failedPrice_answers (by decide)) ?_
    intro h
    cases h
  | some price =>
    have hvalid := parsePositiveDecimal_valid hprice
    dsimp only
    unfold AnswersPrice
    rw [returnsWith_bind_iff, withTokenMetadata_returns_iff]
    constructor
    · rintro ⟨hmetadata, hrest⟩ -
      obtain ⟨token, htoken⟩ : Returns (withTokenMetadata req.token _) := withTokenMetadata_returns_iff.2 hmetadata
      exact ⟨hmetadata, parseDatetime_returns_iff.1 (returnsWith_bind_iff.1 (hrest token htoken)).1⟩
    · intro h
      obtain ⟨hmetadata, htime⟩ := h rfl
      refine ⟨hmetadata, fun token _ => returnsWith_bind_iff.2 ⟨parseDatetime_returns_iff.2 htime, ?_⟩⟩
      exact fun _ _ => okPrice_answers rfl rfl hvalid rfl (Int.natCast_nonneg _)

end Prices

/-! ### Quotes -/

/-- The request model checks the bounds. -/
structure ValidQuoteRequest (req : ProviderQuoteRequest) : Prop where
  amountIn : IsUint256 req.amountIn
  decimals : ∀ n ∈ req.tokenOut.decimals, n ≤ 255

section Quotes

variable {fromIsoFormat : List Char → Option DateTime} {payload : JsonObject} {latencyMs : Millis}
  {req : ProviderQuoteRequest}

/-- The other fields of an output amount: its minimum, the gas and the timestamp are readable, and the minimum is not
above it. -/
def ReadableRest (decimals : Option Int) (amountOut : Int) (minimum gas timestamp : Json) : Prop :=
  ¬ UnreadableInt minimum ∧ ¬ UnreadableInt gas ∧ ¬ UnreadableTime timestamp ∧
    ∀ m, parseBaseUnitAmount minimum decimals = .ok (some m) → m ≤ amountOut

/-- The output amount is readable, and with one, so are the other fields. -/
def CurveProvider.ReadableQuote (payload : JsonObject) : Prop :=
  ¬ UnreadableAmount (CurveProvider.amountOutValue payload) ∧
    ∀ amountOut, CurveProvider.parseAmount (CurveProvider.amountOutValue payload) = .ok (some amountOut) →
      ¬ UnreadableInt (getFirst payload ["gas", "estimatedGas"]) ∧
      ¬ UnreadableAmount (getFirst payload ["amountOutMin", "toAmountMin"]) ∧
      ¬ UnreadableTime (getFirst payload ["timestamp", "asOf", "createdAt"]) ∧
      ∀ m, CurveProvider.parseAmount (getFirst payload ["amountOutMin", "toAmountMin"]) = .ok (some m) → m ≤ amountOut

/-- The decimals of both tokens and the output amount are readable, and with one, so are the other fields. -/
def LiFiProvider.ReadableQuote (payload : JsonObject) (req : ProviderQuoteRequest) : Prop :=
  ¬ UnreadableMetadata (LiFiProvider.tokenPayload payload "fromToken") ∧
  ¬ UnreadableMetadata (LiFiProvider.tokenPayload payload "toToken") ∧
  ∀ tokenOut, withTokenMetadata req.tokenOut (LiFiProvider.tokenPayload payload "toToken") = .ok tokenOut →
    let value := getNested payload ["estimate", "toAmount"]
    let fallback := getFirst payload ["toAmount", "amountOut"]
    ¬ UnreadableOutput value fallback tokenOut.decimals ∧
    ∀ amountOut, amountOrFallback value fallback tokenOut.decimals = .ok (some amountOut) →
      ReadableRest tokenOut.decimals amountOut (getNested payload ["estimate", "toAmountMin"])
        (getNested payload ["estimate", "data", "estimatedGas"]) (getFirst payload ["timestamp", "updatedAt"])

/-- The decimals of both tokens and the output amount are readable, and with one, so are the other fields. -/
def EnsoProvider.ReadableQuote (responsePayload : JsonObject) (req : ProviderQuoteRequest) : Prop :=
  let payload := payloadDataOrRoot responsePayload
  let tokenOutPayload := firstNestedDict payload [["tokenOut"], ["toToken"], ["outputToken"]]
  ¬ UnreadableMetadata tokenOutPayload ∧
  ¬ UnreadableMetadata (firstNestedDict payload [["tokenIn"], ["fromToken"], ["inputToken"]]) ∧
  ∀ tokenOut, withTokenMetadata req.tokenOut tokenOutPayload = .ok tokenOut →
    let value := getFirst payload ["amountOut", "toAmount", "outputAmount"]
    let fallback := getNested payload ["route", "amountOut"]
    ¬ UnreadableOutput value fallback tokenOut.decimals ∧
    ∀ amountOut, amountOrFallback value fallback tokenOut.decimals = .ok (some amountOut) →
      ReadableRest tokenOut.decimals amountOut (getFirst payload ["minAmountOut", "amountOutMin", "toAmountMin"])
        (getFirst payload ["gas", "estimatedGas"]) (getFirst payload ["timestamp", "updatedAt"])

/-- With a minimum and a gas value that were read, a success is rejected exactly if its minimum is above its output. -/
private theorem parsedQuote_answers_iff
    {r : QuoteResult} {amountOut : Int} {minimum : Except Exn (Option Int)} {gas : Json}
    (hreq : ValidQuoteRequest req) (hminimum : minimum = .ok r.amountOutMin)
    (hgas : parseInt gas = .ok r.estimatedGas) (hbound : ∀ n, minimum = .ok (some n) → IsUint256 n)
    (hpos : 0 < amountOut ∧ IsUint256 amountOut) (hstatus : r.status = .ok) (hamount : r.amountOut = some amountOut)
    (hin : r.amountIn = some req.amountIn) (herror : r.error = none) (hlatency : r.latencyMs = latencyMs.val) :
    AnswersQuote (QuoteResult.accept r) ↔ ∀ m, minimum = .ok (some m) → m ≤ amountOut := by
  have hiff := okQuote_answers_iff hstatus hamount hpos.1 hpos.2
    (by
      intro n hn
      rw [hin] at hn
      obtain rfl := Option.some.inj hn
      exact hreq.amountIn)
    (by
      intro n hn
      rw [Option.mem_def.1 hn] at hminimum
      exact hbound n hminimum)
    (by
      intro n hn
      rw [Option.mem_def.1 hn] at hgas
      exact parseInt_uint256 hgas)
    herror (by rw [hlatency]; exact Int.natCast_nonneg _)
  rw [hiff]
  constructor
  · intro h m hm
    rw [hminimum] at hm
    exact h m (Except.ok.inj hm)
  · intro h m hm
    rw [Option.mem_def.1 hm] at hminimum
    exact h m hminimum

private theorem CurveProvider.onQuote_answers_iff (hreq : ValidQuoteRequest req) :
    AnswersQuote (CurveProvider.onQuote fromIsoFormat payload latencyMs req) ↔ CurveProvider.ReadableQuote payload := by
  unfold CurveProvider.onQuote CurveProvider.ReadableQuote AnswersQuote
  rw [returnsWith_bind_iff, parseAmount_returns_iff]
  refine and_congr_right fun _ => ?_
  constructor
  · intro h amountOut hamountOut
    have hpos := parseAmount_positive hamountOut
    have hrest := h (some amountOut) hamountOut
    dsimp only at hrest
    obtain ⟨⟨gas, hgas⟩, hrest⟩ := returnsWith_bind_iff.1 hrest
    obtain ⟨⟨bps, hbps⟩, hrest⟩ := returnsWith_bind_iff.1 (hrest gas hgas)
    obtain ⟨⟨minimum, hminimum⟩, hrest⟩ := returnsWith_bind_iff.1 (hrest bps hbps)
    obtain ⟨⟨asOf, hasOf⟩, hrest⟩ := returnsWith_bind_iff.1 (hrest minimum hminimum)
    refine ⟨parseInt_returns_iff.1 ⟨gas, hgas⟩, parseAmount_returns_iff.1 ⟨minimum, hminimum⟩,
      parseDatetime_returns_iff.1 ⟨asOf, hasOf⟩, ?_⟩
    exact (parsedQuote_answers_iff hreq hminimum hgas (fun n hn => (parseAmount_positive hn).2) hpos rfl rfl rfl rfl
      rfl).1 (hrest asOf hasOf)
  · intro h amount hamount
    cases amount with
    | none => exact failedQuote_answers (by decide) hreq.amountIn
    | some amountOut =>
      have hpos := parseAmount_positive hamount
      obtain ⟨hgas, hminimum, htime, hle⟩ := h amountOut hamount
      refine returnsWith_bind_iff.2 ⟨parseInt_returns_iff.2 hgas, fun gas hgas => ?_⟩
      refine returnsWith_bind_iff.2 ⟨decimalToBps_parseDecimal _, fun bps _ => ?_⟩
      refine returnsWith_bind_iff.2 ⟨parseAmount_returns_iff.2 hminimum, fun minimum hminimum => ?_⟩
      refine returnsWith_bind_iff.2 ⟨parseDatetime_returns_iff.2 htime, fun asOf _ => ?_⟩
      exact (parsedQuote_answers_iff hreq hminimum hgas (fun n hn => (parseAmount_positive hn).2) hpos rfl rfl rfl rfl
        rfl).2 hle

private theorem LiFiProvider.onQuote_answers_iff (hreq : ValidQuoteRequest req) :
    AnswersQuote (LiFiProvider.onQuote fromIsoFormat payload latencyMs req) ↔
      LiFiProvider.ReadableQuote payload req := by
  unfold LiFiProvider.onQuote LiFiProvider.ReadableQuote AnswersQuote
  rw [returnsWith_bind_iff, withTokenMetadata_returns_iff]
  refine and_congr_right fun hfrom => ?_
  constructor
  · intro h
    obtain ⟨tokenIn, htokenIn⟩ : Returns (withTokenMetadata req.tokenIn _) := withTokenMetadata_returns_iff.2 hfrom
    obtain ⟨hto, h⟩ := returnsWith_bind_iff.1 (h tokenIn htokenIn)
    refine ⟨withTokenMetadata_returns_iff.1 hto, fun tokenOut htokenOut => ?_⟩
    have hdecimals := withTokenMetadata_decimals htokenOut hreq.decimals
    obtain ⟨hread, h⟩ := returnsWith_bind_iff.1 (h tokenOut htokenOut)
    refine ⟨(amountOrFallback_returns_iff hdecimals).1 hread, fun amountOut hamountOut => ?_⟩
    have hpos := amountOrFallback_positive hamountOut
    have hrest := h (some amountOut) hamountOut
    dsimp only at hrest
    obtain ⟨⟨minimum, hminimum⟩, hrest⟩ := returnsWith_bind_iff.1 hrest
    obtain ⟨⟨gas, hgas⟩, hrest⟩ := returnsWith_bind_iff.1 (hrest minimum hminimum)
    obtain ⟨⟨bps, hbps⟩, hrest⟩ := returnsWith_bind_iff.1 (hrest gas hgas)
    obtain ⟨⟨asOf, hasOf⟩, hrest⟩ := returnsWith_bind_iff.1 (hrest bps hbps)
    refine ⟨(parseBaseUnitAmount_returns_iff hdecimals).1 ⟨minimum, hminimum⟩, parseInt_returns_iff.1 ⟨gas, hgas⟩,
      parseDatetime_returns_iff.1 ⟨asOf, hasOf⟩, ?_⟩
    exact (parsedQuote_answers_iff hreq hminimum hgas (fun n => parseBaseUnitAmount_uint256) hpos rfl rfl rfl rfl
      rfl).1 (hrest asOf hasOf)
  · rintro ⟨hto, h⟩ tokenIn -
    refine returnsWith_bind_iff.2 ⟨withTokenMetadata_returns_iff.2 hto, fun tokenOut htokenOut => ?_⟩
    have hdecimals := withTokenMetadata_decimals htokenOut hreq.decimals
    obtain ⟨hread, h⟩ := h tokenOut htokenOut
    refine returnsWith_bind_iff.2 ⟨(amountOrFallback_returns_iff hdecimals).2 hread, fun amount hamount => ?_⟩
    cases amount with
    | none => exact failedQuote_answers (by decide) hreq.amountIn
    | some amountOut =>
      have hpos := amountOrFallback_positive hamount
      obtain ⟨hminimum, hgas, htime, hle⟩ := h amountOut hamount
      refine returnsWith_bind_iff.2 ⟨(parseBaseUnitAmount_returns_iff hdecimals).2 hminimum, fun minimum hminimum => ?_⟩
      refine returnsWith_bind_iff.2 ⟨parseInt_returns_iff.2 hgas, fun gas hgas => ?_⟩
      refine returnsWith_bind_iff.2 ⟨decimalToBps_parseDecimal _, fun bps _ => ?_⟩
      refine returnsWith_bind_iff.2 ⟨parseDatetime_returns_iff.2 htime, fun asOf _ => ?_⟩
      exact (parsedQuote_answers_iff hreq hminimum hgas (fun n => parseBaseUnitAmount_uint256) hpos rfl rfl rfl rfl
        rfl).2 hle

private theorem EnsoProvider.onQuote_answers_iff (hreq : ValidQuoteRequest req) :
    AnswersQuote (EnsoProvider.onQuote fromIsoFormat payload latencyMs req) ↔
      EnsoProvider.ReadableQuote payload req := by
  unfold EnsoProvider.onQuote EnsoProvider.ReadableQuote AnswersQuote
  dsimp only
  generalize payloadDataOrRoot payload = data
  rw [returnsWith_bind_iff, withTokenMetadata_returns_iff]
  refine and_congr_right fun hto => ?_
  constructor
  · intro h
    obtain ⟨tokenOut, htokenOut⟩ : Returns (withTokenMetadata req.tokenOut _) := withTokenMetadata_returns_iff.2 hto
    obtain ⟨hfrom, -⟩ := returnsWith_bind_iff.1 (h tokenOut htokenOut)
    refine ⟨withTokenMetadata_returns_iff.1 hfrom, fun tokenOut htokenOut => ?_⟩
    obtain ⟨tokenIn, htokenIn⟩ := hfrom
    have hdecimals := withTokenMetadata_decimals htokenOut hreq.decimals
    obtain ⟨-, h⟩ := returnsWith_bind_iff.1 (h tokenOut htokenOut)
    obtain ⟨hread, h⟩ := returnsWith_bind_iff.1 (h tokenIn htokenIn)
    refine ⟨(amountOrFallback_returns_iff hdecimals).1 hread, fun amountOut hamountOut => ?_⟩
    have hpos := amountOrFallback_positive hamountOut
    have hrest := h (some amountOut) hamountOut
    dsimp only at hrest
    obtain ⟨⟨bps, hbps⟩, hrest⟩ := returnsWith_bind_iff.1 hrest
    obtain ⟨⟨minimum, hminimum⟩, hrest⟩ := returnsWith_bind_iff.1 (hrest bps hbps)
    obtain ⟨⟨gas, hgas⟩, hrest⟩ := returnsWith_bind_iff.1 (hrest minimum hminimum)
    obtain ⟨⟨asOf, hasOf⟩, hrest⟩ := returnsWith_bind_iff.1 (hrest gas hgas)
    refine ⟨(parseBaseUnitAmount_returns_iff hdecimals).1 ⟨minimum, hminimum⟩, parseInt_returns_iff.1 ⟨gas, hgas⟩,
      parseDatetime_returns_iff.1 ⟨asOf, hasOf⟩, ?_⟩
    exact (parsedQuote_answers_iff hreq hminimum hgas (fun n => parseBaseUnitAmount_uint256) hpos rfl rfl rfl rfl
      rfl).1 (hrest asOf hasOf)
  · rintro ⟨hfrom, h⟩ tokenOut htokenOut
    refine returnsWith_bind_iff.2 ⟨withTokenMetadata_returns_iff.2 hfrom, fun tokenIn _ => ?_⟩
    have hdecimals := withTokenMetadata_decimals htokenOut hreq.decimals
    obtain ⟨hread, h⟩ := h tokenOut htokenOut
    refine returnsWith_bind_iff.2 ⟨(amountOrFallback_returns_iff hdecimals).2 hread, fun amount hamount => ?_⟩
    cases amount with
    | none => exact failedQuote_answers (by decide) hreq.amountIn
    | some amountOut =>
      have hpos := amountOrFallback_positive hamount
      obtain ⟨hminimum, hgas, htime, hle⟩ := h amountOut hamount
      refine returnsWith_bind_iff.2 ⟨parsePriceImpactBps_returns _, fun bps _ => ?_⟩
      refine returnsWith_bind_iff.2 ⟨(parseBaseUnitAmount_returns_iff hdecimals).2 hminimum, fun minimum hminimum => ?_⟩
      refine returnsWith_bind_iff.2 ⟨parseInt_returns_iff.2 hgas, fun gas hgas => ?_⟩
      refine returnsWith_bind_iff.2 ⟨parseDatetime_returns_iff.2 htime, fun asOf _ => ?_⟩
      exact (parsedQuote_answers_iff hreq hminimum hgas (fun n => parseBaseUnitAmount_uint256) hpos rfl rfl rfl rfl
        rfl).2 hle

end Quotes

/-! ### The adapters -/

/-- The bodies of status 200 on which `get_price` of an adapter does not raise.  An adapter that does not find the chain
raises on every body: it makes no call. -/
def PriceAdapter.Readable (value : Json) (req : ProviderPriceRequest) : PriceAdapter → Prop
  | .defiLlama => ∃ chain, chainOf req.chainId = .ok chain ∧ ∀ payload, value = .dict payload →
      DefiLlamaProvider.ReadablePrice payload (chain.defillamaName ++ ":" ++ req.token.address)
  | .curve => (∃ chain, chainOf req.chainId = .ok chain) ∧ ∀ payload, value = .dict payload →
      CurveProvider.ReadablePrice payload
  | .liFi => ∀ payload, value = .dict payload → LiFiProvider.ReadablePrice payload
  | .enso => ∀ payload, value = .dict payload → EnsoProvider.ReadablePrice payload

/-- The payloads of status 200 on which `get_quote` of an adapter does not raise. -/
def QuoteAdapter.Readable (value : Json) (req : ProviderQuoteRequest) : QuoteAdapter → Prop
  | .curve =>
    ∀ payload, CurveProvider.extractQuotePayload (jsonDataOf value) = some payload → CurveProvider.ReadableQuote payload
  | .liFi => ∀ payload, value = .dict payload → LiFiProvider.ReadableQuote payload req
  | .enso => ∀ payload, value = .dict payload → EnsoProvider.ReadableQuote payload req

/-- A response of status 200 with this body. -/
def okResponse (value : Json) (headers : Dict String String) : HttpResponse JsonObject (List Json) :=
  ⟨200, jsonDataOf value, headers⟩

section Adapters

variable {dates : HttpDates} {fromIsoFormat : List Char → Option DateTime} {latencyMs : Millis}
  {headers : Dict String String} {value : Json}

/-- The objects among the bodies are handed on, and any other body is a failure. -/
private theorem answers_dict_iff {β : Type} {Answers : β → Prop} {onDict : JsonObject → β} {failed : β}
    {Readable : JsonObject → Prop} (hfailed : Answers failed)
    (h : ∀ payload, Answers (onDict payload) ↔ Readable payload) :
    Answers (match value with | .dict payload => onDict payload | _ => failed) ↔
      ∀ payload, value = .dict payload → Readable payload := by
  cases value with
  | dict payload =>
    dsimp only
    rw [h payload]
    constructor
    · intro hread payload' heq
      obtain rfl := Json.dict.inj heq
      exact hread
    · exact fun hread => hread payload rfl
  | null => exact iff_of_true hfailed nofun
  | bool b => exact iff_of_true hfailed nofun
  | int n => exact iff_of_true hfailed nofun
  | float x => exact iff_of_true hfailed nofun
  | str s => exact iff_of_true hfailed nofun
  | list items => exact iff_of_true hfailed nofun

/-- A price adapter that shares the transport answers if its payload handler does. -/
private theorem transportPrice_answers_iff
    {onPrice : JsonObject → Millis → ProviderPriceRequest → Except Exn AcceptedPriceResult}
    {id providerName invalidJsonMessage : String} {req : ProviderPriceRequest} {Readable : JsonObject → Prop}
    (h : ∀ payload, AnswersPrice (onPrice payload latencyMs req) ↔ Readable payload) :
    AnswersPrice (transportPrice dates latencyMs (.response (okResponse value headers)) onPrice id providerName
      invalidJsonMessage req) ↔ ∀ payload, value = .dict payload → Readable payload := by
  have htransport : transportPrice dates latencyMs (.response (okResponse value headers)) onPrice id providerName
      invalidJsonMessage req =
        match value with
        | .dict payload => onPrice payload latencyMs req
        | _ => failedPrice id req .error latencyMs { type := .upstreamParse, message := invalidJsonMessage } := by
    cases value <;> rfl
  rw [htransport]
  exact answers_dict_iff (failedPrice_answers (by decide)) h

private theorem transportQuote_answers_iff
    {onQuote : JsonObject → Millis → ProviderQuoteRequest → Except Exn AcceptedQuoteResult}
    {id providerName invalidJsonMessage : String} {req : ProviderQuoteRequest} {Readable : JsonObject → Prop}
    (hreq : ValidQuoteRequest req) (h : ∀ payload, AnswersQuote (onQuote payload latencyMs req) ↔ Readable payload) :
    AnswersQuote (transportQuote dates latencyMs (.response (okResponse value headers)) onQuote id providerName
      invalidJsonMessage req) ↔ ∀ payload, value = .dict payload → Readable payload := by
  have htransport : transportQuote dates latencyMs (.response (okResponse value headers)) onQuote id providerName
      invalidJsonMessage req =
        match value with
        | .dict payload => onQuote payload latencyMs req
        | _ => failedQuote id req .error latencyMs { type := .upstreamParse, message := invalidJsonMessage } := by
    cases value <;> rfl
  rw [htransport]
  exact answers_dict_iff (failedQuote_answers (by decide) hreq.amountIn) h

/-- An adapter that looks up the chain first answers if it finds it and answers then. -/
private theorem chainOf_answers_iff {chainId : Int} {f : Chain → Except Exn AcceptedPriceResult} :
    AnswersPrice (chainOf chainId >>= f) ↔ ∃ chain, chainOf chainId = .ok chain ∧ AnswersPrice (f chain) := by
  unfold AnswersPrice
  rw [returnsWith_bind_iff]
  constructor
  · rintro ⟨⟨chain, hchain⟩, h⟩
    exact ⟨chain, hchain, h chain hchain⟩
  · rintro ⟨chain, hchain, h⟩
    refine ⟨⟨chain, hchain⟩, fun chain' hchain' => ?_⟩
    obtain rfl := Except.ok.inj (hchain.symm.trans hchain')
    exact h

private theorem DefiLlamaProvider.getPrice_answers_iff {req : ProviderPriceRequest} :
    AnswersPrice (DefiLlamaProvider.getPrice dates latencyMs (.response (okResponse value headers))
      (DefiLlamaProvider.onCoin fromIsoFormat) req) ↔ PriceAdapter.Readable value req .defiLlama := by
  unfold DefiLlamaProvider.getPrice
  rw [chainOf_answers_iff]
  exact exists_congr fun chain => and_congr_right fun _ =>
    transportPrice_answers_iff fun _ => DefiLlamaProvider.onCoin_answers_iff

private theorem CurveProvider.getPrice_answers_iff {req : ProviderPriceRequest} :
    AnswersPrice (CurveProvider.getPrice dates latencyMs (.response (okResponse value headers))
      (CurveProvider.onPrice fromIsoFormat) req) ↔ PriceAdapter.Readable value req .curve := by
  unfold CurveProvider.getPrice PriceAdapter.Readable
  rw [chainOf_answers_iff, ← exists_and_right]
  exact exists_congr fun chain => and_congr_right fun _ =>
    transportPrice_answers_iff fun _ => CurveProvider.onPrice_answers_iff

private theorem CurveProvider.getQuote_answers_iff {req : ProviderQuoteRequest} (hreq : ValidQuoteRequest req) :
    AnswersQuote (CurveProvider.getQuote dates latencyMs (.response (okResponse value headers))
      (CurveProvider.onResponse fromIsoFormat) req) ↔ QuoteAdapter.Readable value req .curve := by
  have hget : CurveProvider.getQuote dates latencyMs (.response (okResponse value headers))
      (CurveProvider.onResponse fromIsoFormat) req =
        CurveProvider.onResponse fromIsoFormat (okResponse value headers) latencyMs req := rfl
  rw [hget]
  unfold CurveProvider.onResponse QuoteAdapter.Readable
  have hdata : (okResponse value headers).jsonData = jsonDataOf value := rfl
  rw [hdata]
  cases CurveProvider.extractQuotePayload (jsonDataOf value) with
  | none => exact iff_of_true (failedQuote_answers (by decide) hreq.amountIn) nofun
  | some payload =>
    dsimp only
    rw [CurveProvider.onQuote_answers_iff hreq]
    constructor
    · intro hread payload' heq
      obtain rfl := Option.some.inj heq
      exact hread
    · exact fun hread => hread payload rfl

end Adapters

/-- On a body of status 200 an adapter answers, with a success that has a positive price or amount or with a failure
that has an error, if and only if the body is readable to it; DefiLlama and Curve must also know the chain of a price.
DefiLlama answers every quote with a failure. -/
theorem adapters_answer_iff (dates : HttpDates) (fromIsoFormat : List Char → Option DateTime) (latencyMs : Millis)
    (headers : Dict String String) (value : Json) :
    (∀ (adapter : PriceAdapter) (req : ProviderPriceRequest),
      AnswersPrice (adapter.getPrice dates latencyMs (.response (okResponse value headers))
        (adapter.payloads fromIsoFormat) req) ↔ adapter.Readable value req) ∧
    (∀ req : ProviderQuoteRequest, ValidQuoteRequest req → AnswersQuote (DefiLlamaProvider.getQuote req)) ∧
    ∀ (adapter : QuoteAdapter) (req : ProviderQuoteRequest), ValidQuoteRequest req →
      (AnswersQuote (adapter.getQuote dates latencyMs (.response (okResponse value headers))
        (adapter.payloads fromIsoFormat) req) ↔ adapter.Readable value req) := by
  refine ⟨?_, fun req hreq => failedQuote_answers (by decide) hreq.amountIn, ?_⟩
  · intro adapter req
    cases adapter with
    | defiLlama => exact DefiLlamaProvider.getPrice_answers_iff
    | curve => exact CurveProvider.getPrice_answers_iff
    | liFi => exact transportPrice_answers_iff fun _ => LiFiProvider.onPrice_answers_iff
    | enso => exact transportPrice_answers_iff fun _ => EnsoProvider.onPrice_answers_iff
  · intro adapter req hreq
    cases adapter with
    | curve => exact CurveProvider.getQuote_answers_iff hreq
    | liFi => exact transportQuote_answers_iff hreq fun _ => LiFiProvider.onQuote_answers_iff hreq
    | enso => exact transportQuote_answers_iff hreq fun _ => EnsoProvider.onQuote_answers_iff hreq

def Example.swapRequest : ProviderQuoteRequest :=
  { chainId := 1, tokenIn := { chainId := 1, address := "0x1" }, tokenOut := { chainId := 1, address := "0x2" }
    amountIn := 10 }

def Example.swap : Json := .dict [("amountOut", .str "5"), ("amountOutMin", .int 3)]

theorem adapters_answer_swap :
    AnswersQuote (QuoteAdapter.curve.getQuote Example.dates ⟨0, fitsFloat_zero (by decide)⟩
      (.response (okResponse Example.swap .empty)) (QuoteAdapter.curve.payloads fun _ => none)
      Example.swapRequest) := by
  refine ((adapters_answer_iff _ _ _ _ _).2.2 .curve Example.swapRequest ⟨by decide, nofun⟩).2 ?_
  intro payload hpayload
  obtain rfl := Option.some.inj hpayload
  refine ⟨?_, fun amountOut hamountOut => ⟨id, id, id, fun m hm => ?_⟩⟩
  · show ¬ UnreadableDigits "5"
    decide
  · have hfive : CurveProvider.parseAmount (.str "5") = .ok (some 5) := by decide +kernel
    have hthree : CurveProvider.parseAmount (.int 3) = .ok (some 3) := by decide +kernel
    obtain rfl := Option.some.inj (Except.ok.inj (hfive.symm.trans hamountOut))
    obtain rfl := Option.some.inj (Except.ok.inj (hthree.symm.trans hm))
    decide

/-- A price whose timestamp is a superscript two. -/
def Example.squaredTime : Json := .dict [("usd_price", .int 1), ("timestamp", .str "²")]

theorem curve_price_raises :
    ¬ AnswersPrice (PriceAdapter.curve.getPrice Example.dates ⟨0, fitsFloat_zero (by decide)⟩
      (.response (okResponse Example.squaredTime .empty)) (PriceAdapter.curve.payloads fun _ => none)
      Example.priceRequest) := by
  rintro ⟨r, hr, -⟩
  have hraises : PriceAdapter.curve.getPrice Example.dates ⟨0, fitsFloat_zero (by decide)⟩
      (.response (okResponse Example.squaredTime .empty)) (PriceAdapter.curve.payloads fun _ => none)
      Example.priceRequest = .error (invalidLiteral "²") := by rfl
  rw [hraises] at hr
  cases hr

/-! ### No vault context -/

section Context

variable {α β : Type} {dates : HttpDates} {fromIsoFormat : List Char → Option DateTime} {latencyMs : Millis}
  {outcome : ClientOutcome JsonObject (List Json)}

/-- A price result that is returned has no vault context. -/
def UnsetPrice (x : Except Exn AcceptedPriceResult) : Prop := ∀ a, x = .ok a → a.val.vaultContext = none

/-- A quote result that is returned has no vault context. -/
def UnsetQuote (x : Except Exn AcceptedQuoteResult) : Prop := ∀ a, x = .ok a → a.val.vaultContext = none

private theorem unsetPrice_bind
    {x : Except Exn α} {f : α → Except Exn AcceptedPriceResult} (h : ∀ a, UnsetPrice (f a)) :
    UnsetPrice (x >>= f) := by
  intro b hb
  obtain ⟨a, -, hfa⟩ := Eff.except_bind_eq_ok.1 hb
  exact h a b hfa

private theorem unsetQuote_bind
    {x : Except Exn α} {f : α → Except Exn AcceptedQuoteResult} (h : ∀ a, UnsetQuote (f a)) :
    UnsetQuote (x >>= f) := by
  intro b hb
  obtain ⟨a, -, hfa⟩ := Eff.except_bind_eq_ok.1 hb
  exact h a b hfa

private theorem unsetPrice_accept {r : PriceResult} (h : r.vaultContext = none) : UnsetPrice r.accept := by
  intro a ha
  unfold PriceResult.accept at ha
  split at ha
  · obtain rfl := Except.ok.inj ha
    exact h
  · cases ha

private theorem unsetQuote_accept {r : QuoteResult} (h : r.vaultContext = none) : UnsetQuote r.accept := by
  intro a ha
  unfold QuoteResult.accept at ha
  split at ha
  · obtain rfl := Except.ok.inj ha
    exact h
  · cases ha

private theorem unsetPrice_failed
    {id : String} {req : ProviderPriceRequest} {status : ProviderStatus} {error : ErrorInfo} :
    UnsetPrice (failedPrice id req status latencyMs error) := unsetPrice_accept rfl

private theorem unsetQuote_failed
    {id : String} {req : ProviderQuoteRequest} {status : ProviderStatus} {error : ErrorInfo} :
    UnsetQuote (failedQuote id req status latencyMs error) := unsetQuote_accept rfl

/-! What the handlers make of a payload. -/

private theorem DefiLlamaProvider.onCoin_unset (coin : String) (payload : JsonObject) (req : ProviderPriceRequest) :
    UnsetPrice (DefiLlamaProvider.onCoin fromIsoFormat coin payload latencyMs req) := by
  unfold DefiLlamaProvider.onCoin
  split
  · exact unsetPrice_failed
  · refine unsetPrice_bind fun asOf => ?_
    split
    · exact unsetPrice_failed
    · exact unsetPrice_bind fun token => unsetPrice_accept rfl

private theorem CurveProvider.onPrice_unset (payload : JsonObject) (req : ProviderPriceRequest) :
    UnsetPrice (CurveProvider.onPrice fromIsoFormat payload latencyMs req) := by
  unfold CurveProvider.onPrice
  split
  · exact unsetPrice_failed
  · exact unsetPrice_bind fun asOf => unsetPrice_accept rfl

private theorem LiFiProvider.onPrice_unset (payload : JsonObject) (req : ProviderPriceRequest) :
    UnsetPrice (LiFiProvider.onPrice fromIsoFormat payload latencyMs req) := by
  unfold LiFiProvider.onPrice
  split
  · exact unsetPrice_failed
  · exact unsetPrice_bind fun asOf => unsetPrice_bind fun token => unsetPrice_accept rfl

private theorem EnsoProvider.onPrice_unset (payload : JsonObject) (req : ProviderPriceRequest) :
    UnsetPrice (EnsoProvider.onPrice fromIsoFormat payload latencyMs req) := by
  unfold EnsoProvider.onPrice
  dsimp only
  split
  · exact unsetPrice_failed
  · exact unsetPrice_bind fun token => unsetPrice_bind fun asOf => unsetPrice_accept rfl

private theorem CurveProvider.onQuote_unset (payload : JsonObject) (req : ProviderQuoteRequest) :
    UnsetQuote (CurveProvider.onQuote fromIsoFormat payload latencyMs req) := by
  unfold CurveProvider.onQuote
  refine unsetQuote_bind fun amountOut => ?_
  split
  · exact unsetQuote_failed
  · refine unsetQuote_bind fun gas => unsetQuote_bind fun impact => ?_
    exact unsetQuote_bind fun minimum => unsetQuote_bind fun asOf => unsetQuote_accept rfl

private theorem CurveProvider.onResponse_unset
    (response : HttpResponse JsonObject (List Json)) (req : ProviderQuoteRequest) :
    UnsetQuote (CurveProvider.onResponse fromIsoFormat response latencyMs req) := by
  unfold CurveProvider.onResponse
  split
  · exact unsetQuote_failed
  · exact CurveProvider.onQuote_unset _ _

private theorem LiFiProvider.onQuote_unset (payload : JsonObject) (req : ProviderQuoteRequest) :
    UnsetQuote (LiFiProvider.onQuote fromIsoFormat payload latencyMs req) := by
  unfold LiFiProvider.onQuote
  refine unsetQuote_bind fun tokenIn => unsetQuote_bind fun tokenOut => unsetQuote_bind fun amountOut => ?_
  split
  · exact unsetQuote_failed
  · refine unsetQuote_bind fun minimum => unsetQuote_bind fun gas => ?_
    exact unsetQuote_bind fun impact => unsetQuote_bind fun asOf => unsetQuote_accept rfl

private theorem EnsoProvider.onQuote_unset (payload : JsonObject) (req : ProviderQuoteRequest) :
    UnsetQuote (EnsoProvider.onQuote fromIsoFormat payload latencyMs req) := by
  unfold EnsoProvider.onQuote
  refine unsetQuote_bind fun tokenOut => unsetQuote_bind fun tokenIn => unsetQuote_bind fun amountOut => ?_
  split
  · exact unsetQuote_failed
  · refine unsetQuote_bind fun impact => unsetQuote_bind fun minimum => ?_
    exact unsetQuote_bind fun gas => unsetQuote_bind fun asOf => unsetQuote_accept rfl

/-! The adapters, at every end of the call. -/

private theorem transportPrice_unset
    {onPrice : JsonObject → Millis → ProviderPriceRequest → Except Exn AcceptedPriceResult}
    {id providerName invalidJsonMessage : String} {req : ProviderPriceRequest}
    (h : ∀ payload latencyMs, UnsetPrice (onPrice payload latencyMs req)) :
    UnsetPrice (transportPrice dates latencyMs outcome onPrice id providerName invalidJsonMessage req) := by
  unfold transportPrice
  refine unsetPrice_bind fun call => unsetPrice_bind fun transport => ?_
  split
  · exact unsetPrice_failed
  · exact h _ _

private theorem transportQuote_unset
    {onQuote : JsonObject → Millis → ProviderQuoteRequest → Except Exn AcceptedQuoteResult}
    {id providerName invalidJsonMessage : String} {req : ProviderQuoteRequest}
    (h : ∀ payload latencyMs, UnsetQuote (onQuote payload latencyMs req)) :
    UnsetQuote (transportQuote dates latencyMs outcome onQuote id providerName invalidJsonMessage req) := by
  unfold transportQuote
  refine unsetQuote_bind fun call => unsetQuote_bind fun transport => ?_
  split
  · exact unsetQuote_failed
  · exact h _ _

private theorem PriceAdapter.getPrice_unset (adapter : PriceAdapter) (req : ProviderPriceRequest) :
    UnsetPrice (adapter.getPrice dates latencyMs outcome (adapter.payloads fromIsoFormat) req) := by
  cases adapter with
  | defiLlama =>
    exact unsetPrice_bind fun chain => transportPrice_unset fun payload _ => DefiLlamaProvider.onCoin_unset _ payload req
  | curve =>
    exact unsetPrice_bind fun chain => transportPrice_unset fun payload _ => CurveProvider.onPrice_unset payload req
  | liFi => exact transportPrice_unset fun payload _ => LiFiProvider.onPrice_unset payload req
  | enso => exact transportPrice_unset fun payload _ => EnsoProvider.onPrice_unset payload req

private theorem CurveProvider.getQuote_unset (req : ProviderQuoteRequest) :
    UnsetQuote (CurveProvider.getQuote dates latencyMs outcome (CurveProvider.onResponse fromIsoFormat) req) := by
  unfold CurveProvider.getQuote
  refine unsetQuote_bind fun call => ?_
  split
  · exact unsetQuote_failed
  · split
    · exact unsetQuote_failed
    · split
      · exact unsetQuote_failed
      · refine unsetQuote_bind fun failure => ?_
        split
        · exact unsetQuote_failed
        · exact CurveProvider.onResponse_unset _ _

private theorem QuoteAdapter.getQuote_unset (adapter : QuoteAdapter) (req : ProviderQuoteRequest) :
    UnsetQuote (adapter.getQuote dates latencyMs outcome (adapter.payloads fromIsoFormat) req) := by
  cases adapter with
  | curve => exact CurveProvider.getQuote_unset req
  | liFi => exact transportQuote_unset fun payload _ => LiFiProvider.onQuote_unset payload req
  | enso => exact transportQuote_unset fun payload _ => EnsoProvider.onQuote_unset payload req

/-- Plugins that are the adapters leave the vault context of their prices unset. -/
theorem leaveContextUnset_prices {schedule : Schedule ProviderPriceRequest AcceptedPriceResult}
    (hadapters : ∀ place req run a, schedule.task place req = some run → run.call = .returned a →
      ∃ (adapter : PriceAdapter) (dates : HttpDates) (fromIsoFormat : List Char → Option DateTime)
        (latencyMs : Millis) (outcome : ClientOutcome JsonObject (List Json)),
        adapter.getPrice dates latencyMs outcome (adapter.payloads fromIsoFormat) req = .ok a) :
    Aggregator.LeaveContextUnset (·.val.vaultContext) schedule := by
  intro place req run a htask hcall
  obtain ⟨adapter, dates, fromIsoFormat, latencyMs, outcome, hget⟩ := hadapters place req run a htask hcall
  exact adapter.getPrice_unset req a hget

/-- Plugins that are the adapters leave the vault context of their quotes unset. -/
theorem leaveContextUnset_quotes {schedule : Schedule ProviderQuoteRequest AcceptedQuoteResult}
    (hadapters : ∀ place req run a, schedule.task place req = some run → run.call = .returned a →
      DefiLlamaProvider.getQuote req = .ok a ∨
      ∃ (adapter : QuoteAdapter) (dates : HttpDates) (fromIsoFormat : List Char → Option DateTime)
        (latencyMs : Millis) (outcome : ClientOutcome JsonObject (List Json)),
        adapter.getQuote dates latencyMs outcome (adapter.payloads fromIsoFormat) req = .ok a) :
    Aggregator.LeaveContextUnset (·.val.vaultContext) schedule := by
  intro place req run a htask hcall
  rcases hadapters place req run a htask hcall with hget | ⟨adapter, dates, fromIsoFormat, latencyMs, outcome, hget⟩
  · exact unsetQuote_failed a hget
  · exact adapter.getQuote_unset req a hget

end Context

end TokenPriceAgg

import TokenPriceAgg.Lib.Numeric
import TokenPriceAgg.Lib.PyText

/-!
# Decimals from text

`decimalOfText` is `Decimal(text)` where it is finite.
-/

namespace PyLib

/-- The ASCII form of a character that the decimal constructor reads. -/
def numericChar (c : Char) : Option Char :=
  if 0 < c.toNat ∧ c.toNat < 128 then some c
  else if isSpace c then some ' '
  else (decimalValue c).map Nat.digitChar

/-- The text as the decimal constructor reads it, without whitespace at the ends and underscores. -/
def numericAscii (s : List Char) : Option (List Char) := ((strip s).filter fun c => c ≠ '_').mapM numericChar

/-- The sign of a numeral, and what follows it. -/
def splitSign : List Char → Bool × List Char
  | '-' :: rest => (true, rest)
  | '+' :: rest => (false, rest)
  | rest => (false, rest)

/-- The exponent behind the digits of a numeral. -/
def exponentOf : List Char → Option Int
  | [] => some 0
  | c :: rest =>
    let (negative, digits) := splitSign rest
    if (c = 'e' ∨ c = 'E') ∧ digits ≠ [] ∧ digits.all isAsciiDigit then
      some (if negative then -(Nat.ofDigitChars 10 digits 0 : Int) else Nat.ofDigitChars 10 digits 0)
    else none

/-- The digits before the point, the digits behind it, and the rest. -/
def splitPoint (s : List Char) : List Char × List Char × List Char :=
  match s.dropWhile isAsciiDigit with
  | '.' :: rest => (s.takeWhile isAsciiDigit, rest.takeWhile isAsciiDigit, rest.dropWhile isAsciiDigit)
  | rest => (s.takeWhile isAsciiDigit, [], rest)

/-- The exponents of the widest context. -/
def maxEmax : Int := 999999999999999999
def minEtiny : Int := -1999999999999999997

/-- The widest context holds the decimal as it is; the exponent of a zero is that of its digit. -/
def InWidestContext (d : Decimal) : Prop :=
  minEtiny ≤ d.exp ∧ (if d.coeff = 0 then d.exp else d.adjusted) ≤ maxEmax

instance (d : Decimal) : Decidable (InWidestContext d) := inferInstanceAs (Decidable (_ ∧ _))

/-- `Decimal(text)`, none when it raises or is an infinity or a NaN. -/
def decimalOfText (s : List Char) : Option Decimal := do
  let (neg, unsigned) := splitSign (← numericAscii s)
  let (whole, fraction, rest) := splitPoint unsigned
  if whole = [] ∧ fraction = [] then none
  else
    let exponent ← exponentOf rest
    let d : Decimal := ⟨neg, Nat.ofDigitChars 10 (whole ++ fraction) 0, exponent - fraction.length⟩
    if InWidestContext d then some d else none

example : decimalOfText " -1_234.50e-3\n".toList = some ⟨true, 123450, -5⟩ ∧
    decimalOfText "٤.٢".toList = some ⟨false, 42, -1⟩ ∧
    decimalOfText "1 2".toList = none ∧ decimalOfText ".".toList = none ∧ decimalOfText "²".toList = none := by
  decide +kernel

/-! ### What makes a numeral fractional -/

private theorem mem_of_mapM {α β : Type} {f : α → Option β} {l : List α} {l' : List β} (h : l.mapM f = some l') {b : β}
    (hb : b ∈ l') : ∃ a ∈ l, f a = some b := by
  induction l generalizing l' with
  | nil =>
    obtain rfl : l' = [] := (Option.some.inj h).symm
    cases hb
  | cons a l ih =>
    rw [List.mapM_cons] at h
    obtain ⟨b', hb', h⟩ := Option.bind_eq_some_iff.1 h
    obtain ⟨rest, hrest, h⟩ := Option.bind_eq_some_iff.1 h
    obtain rfl : b' :: rest = l' := Option.some.inj h
    rcases List.mem_cons.1 hb with rfl | hb
    · exact ⟨a, List.mem_cons_self, hb'⟩
    · obtain ⟨a', ha', hfa'⟩ := ih hrest hb
      exact ⟨a', List.mem_cons_of_mem a ha', hfa'⟩

private theorem mem_of_mem_strip {s : List Char} {c : Char} (h : c ∈ strip s) : c ∈ s := by
  obtain ⟨p, q, -, -, hs, -⟩ := strip_eq_iff.1 (rfl : strip s = strip s)
  rw [hs]
  exact List.mem_append_left q (List.mem_append_right p h)

/-- A character that is no digit and no blank was in the text. -/
private theorem mem_of_mem_numericAscii {s t : List Char} (h : numericAscii s = some t) {c : Char} (hc : c ∈ t)
    (hspace : c ≠ ' ') (hdigit : isAsciiDigit c = false) : c ∈ s := by
  obtain ⟨a, ha, hchar⟩ := mem_of_mapM h hc
  have hmem : a ∈ s := mem_of_mem_strip (List.mem_of_mem_filter ha)
  unfold numericChar at hchar
  split at hchar
  · rwa [← Option.some.inj hchar]
  · split at hchar
    · exact absurd (Option.some.inj hchar).symm hspace
    · obtain ⟨v, hv, rfl⟩ := Option.map_eq_some_iff.1 hchar
      rw [(digitChar_digit (decimalValue_eq_some hv).1).1] at hdigit
      cases hdigit

/-- What is left behind the digits was in the text, and so was the point if there are digits behind it. -/
private theorem mem_of_splitPoint {s : List Char} :
    (∀ c ∈ (splitPoint s).2.2, c ∈ s) ∧ ((splitPoint s).2.1 ≠ [] → '.' ∈ s) := by
  have hdrop : ∀ c ∈ s.dropWhile isAsciiDigit, c ∈ s := fun c hc => (List.dropWhile_sublist _).subset hc
  unfold splitPoint
  split
  · rename_i rest heq
    rw [heq] at hdrop
    constructor
    · intro c hc
      exact hdrop c (List.mem_cons_of_mem _ ((List.dropWhile_sublist _).subset hc))
    · intro _
      exact hdrop '.' List.mem_cons_self
  · exact ⟨hdrop, fun hne => absurd rfl hne⟩

/-- A numeral with a negative exponent has a point or an exponent. -/
theorem mark_of_exp_neg {s : List Char} {d : Decimal} (h : decimalOfText s = some d) (hexp : d.exp < 0) :
    '.' ∈ s ∨ 'e' ∈ s ∨ 'E' ∈ s := by
  unfold decimalOfText at h
  obtain ⟨t, ht, h⟩ := Option.bind_eq_some_iff.1 h
  have hsign : ∀ c ∈ (splitSign t).2, c ∈ t := by
    unfold splitSign
    split
    · exact fun c hc => List.mem_cons_of_mem _ hc
    · exact fun c hc => List.mem_cons_of_mem _ hc
    · exact fun c hc => hc
  have hmark (c : Char) (hc : c ∈ (splitSign t).2) (hspace : c ≠ ' ') (hdigit : isAsciiDigit c = false) : c ∈ s :=
    mem_of_mem_numericAscii ht (hsign c hc) hspace hdigit
  dsimp only at h
  generalize (splitSign t).2 = unsigned at h hmark
  obtain ⟨hrest, hpoint⟩ := mem_of_splitPoint (s := unsigned)
  split at h
  · cases h
  · obtain ⟨exponent, hexponent, h⟩ := Option.bind_eq_some_iff.1 h
    split at h
    · obtain rfl := Option.some.inj h
      dsimp only at hexp
      by_cases hfraction : (splitPoint unsigned).2.1 = []
      · right
        cases hr : (splitPoint unsigned).2.2 with
        | nil =>
          rw [hr] at hexponent
          obtain rfl := Option.some.inj hexponent
          rw [hfraction] at hexp
          exact absurd hexp (by decide)
        | cons c rest =>
          rw [hr] at hexponent hrest
          unfold exponentOf at hexponent
          dsimp only at hexponent
          split at hexponent
          · rename_i hshape
            have hmem := hrest c List.mem_cons_self
            rcases hshape.1 with rfl | rfl
            · exact .inl (hmark _ hmem (by decide) (by decide))
            · exact .inr (hmark _ hmem (by decide) (by decide))
          · cases hexponent
      · exact .inl (hmark _ (hpoint hfraction) (by decide) (by decide))
    · cases h

/-- A text of digits only is no numeral with a negative exponent. -/
theorem not_isDigitText_of_mark {s : List Char} (h : '.' ∈ s ∨ 'e' ∈ s ∨ 'E' ∈ s) : isDigitText s = false := by
  by_contra hdigits
  have hall := (Bool.and_eq_true_iff.1 (Bool.eq_true_of_not_eq_false hdigits)).2
  rw [List.all_eq_true] at hall
  rcases h with h | h | h
  · exact absurd (hall _ h) (by decide)
  · exact absurd (hall _ h) (by decide)
  · exact absurd (hall _ h) (by decide)

end PyLib

import TokenPriceAgg.Core.Validator
import TokenPriceAgg.Lib.PyText
import Mathlib.Data.List.Basic
import Mathlib.Tactic.IntervalCases

/-!
# The spellings of an address

`normalize_address` on the texts that differ in letter case only.  What the address library is documented to do is
`EthUtils.Documented`: it reads forty hexadecimal digits in any casing, with or without a prefix.

All spellings of an address have one normal form, which is normal; the one exception are forty zeros without a prefix
(`normalizeAddress_canonical_iff`), which the shortcut for the aliases of the native token misses at first.
-/

namespace TokenPriceAgg

open PyLib

/-! ### Case -/

def lowerHexLetters : List Char := ['a', 'b', 'c', 'd', 'e', 'f']

def upperHexLetters : List Char := ['A', 'B', 'C', 'D', 'E', 'F']

def decimalDigits : List Char := ['0', '1', '2', '3', '4', '5', '6', '7', '8', '9']

def isHexLetter (c : Char) : Bool := lowerHexLetters.contains c || upperHexLetters.contains c

def isHexDigit (c : Char) : Bool := decimalDigits.contains c || isHexLetter c

/-- The characters `isHexDigit` accepts. -/
theorem isHexDigit_iff {c : Char} : isHexDigit c ↔ c ∈ decimalDigits ++ lowerHexLetters ++ upperHexLetters := by
  simp [isHexDigit, isHexLetter]

/-- A character is its lower case, or the upper case of it. -/
private theorem eq_toLower_or (c : Char) : c.toLower = c ∨ c = c.toLower.toUpper := by
  by_cases h : 65 ≤ c.toNat ∧ c.toNat ≤ 90
  · right
    obtain ⟨hlo, hhi⟩ := h
    have hc : c = Char.ofNat c.toNat := (Char.ofNat_toNat c).symm
    generalize c.toNat = n at hlo hhi hc
    subst hc
    interval_cases n <;> decide
  · left
    have hnot : ¬ (c.val ≥ 'A'.val ∧ c.val ≤ 'Z'.val) := by
      rintro ⟨hlo, hhi⟩
      have hlo : 65 ≤ c.toNat := UInt32.le_iff_toNat_le.1 hlo
      have hhi : c.toNat ≤ 90 := UInt32.le_iff_toNat_le.1 hhi
      exact h ⟨hlo, hhi⟩
    exact dif_neg hnot

/-- Only the casings of a hexadecimal digit have its lower case. -/
theorem isHexDigit_of_toLower {c d : Char} (h : c.toLower = d.toLower) (hd : isHexDigit d) : isHexDigit c := by
  have hall : ∀ d ∈ decimalDigits ++ lowerHexLetters ++ upperHexLetters,
      isHexDigit d.toLower = true ∧ isHexDigit d.toLower.toUpper = true := by decide
  obtain ⟨hlower, hupper⟩ := hall d (isHexDigit_iff.1 hd)
  rcases eq_toLower_or c with hc | hc
  · rw [← hc, h]
    exact hlower
  · rw [hc, h]
    exact hupper

/-- The texts differ in letter case only. -/
def CaseVariant (a b : String) : Prop := a.toLower = b.toLower

theorem caseVariant_iff {a b : String} : CaseVariant a b ↔ a.toList.map Char.toLower = b.toList.map Char.toLower := by
  rw [← toList_toLower, ← toList_toLower, String.toList_inj]
  exact Iff.rfl

/-! ### Texts of addresses -/

/-- Forty hexadecimal digits. -/
def HexDigits (digits : List Char) : Prop := digits.length = 40 ∧ ∀ c ∈ digits, isHexDigit c

/-- `0x`, `0X` or nothing. -/
def HexPrefix (pre : List Char) : Prop := pre = [] ∨ pre = ['0', 'x'] ∨ pre = ['0', 'X']

instance (digits : List Char) : Decidable (HexDigits digits) := inferInstanceAs (Decidable (_ ∧ _))

/-- What `eth_utils` documents of `is_address` and `to_checksum_address` on text, where `eip55` is the casing of the
checksum of forty digits in lower case. -/
structure EthUtils.Documented (eth : EthUtils) (eip55 : List Char → List Char) : Prop where
  /-- Only addresses are accepted, -/
  shape : ∀ a, eth.isAddress a = true →
    ∃ pre digits, HexPrefix pre ∧ HexDigits digits ∧ a = String.ofList (pre ++ digits)
  /-- and they are in every casing. -/
  accepts : ∀ pre digits, HexPrefix pre → HexDigits digits → eth.isAddress (String.ofList (pre ++ digits)) = true
  /-- The checksum address depends on the digits only. -/
  checksum : ∀ pre digits, HexPrefix pre → HexDigits digits →
    eth.toChecksumAddress (String.ofList (pre ++ digits)) =
      .ok (String.ofList (['0', 'x'] ++ eip55 (digits.map Char.toLower)))
  casing : ∀ digits, HexDigits digits → (eip55 (digits.map Char.toLower)).map Char.toLower = digits.map Char.toLower
  /-- The alias of the native token is written in the casing of its checksum. -/
  native : String.ofList (['0', 'x'] ++ eip55 (List.replicate 40 'e')) = nativeTokenAlias

private theorem HexPrefix.of_toLower {pre pre' : List Char} (h : HexPrefix pre)
    (hlower : pre'.map Char.toLower = pre.map Char.toLower) : HexPrefix pre' ∧ (pre' = [] ↔ pre = []) := by
  have hprefixed : pre'.map Char.toLower = ['0', 'x'] → HexPrefix pre' ∧ pre' ≠ [] := by
    intro hx
    obtain ⟨c, rest, rfl, hc, hrest⟩ := List.map_eq_cons_iff.1 hx
    obtain ⟨d, rest, rfl, hd, hrest⟩ := List.map_eq_cons_iff.1 hrest
    obtain rfl := List.map_eq_nil_iff.1 hrest
    have hzero : c = '0' := by
      rcases eq_toLower_or c with h | h
      · exact h.symm.trans hc
      · rw [h, hc]
        decide
    have hletter : d = 'x' ∨ d = 'X' := by
      rcases eq_toLower_or d with h | h
      · exact Or.inl (h.symm.trans hd)
      · right
        rw [h, hd]
        decide
    rw [hzero]
    rcases hletter with rfl | rfl
    · exact ⟨Or.inr (Or.inl rfl), by simp⟩
    · exact ⟨Or.inr (Or.inr rfl), by simp⟩
  rcases h with rfl | rfl | rfl
  · obtain rfl := List.map_eq_nil_iff.1 hlower
    exact ⟨Or.inl rfl, Iff.rfl⟩
  · obtain ⟨hpre, hne⟩ := hprefixed hlower
    exact ⟨hpre, iff_of_false hne (by simp)⟩
  · obtain ⟨hpre, hne⟩ := hprefixed hlower
    exact ⟨hpre, iff_of_false hne (by simp)⟩

private theorem HexDigits.of_toLower {digits digits' : List Char} (h : HexDigits digits)
    (hlower : digits'.map Char.toLower = digits.map Char.toLower) : HexDigits digits' := by
  have hlen : digits'.length = digits.length := by
    have hcount := congrArg List.length hlower
    rwa [List.length_map, List.length_map] at hcount
  refine ⟨hlen.trans h.1, fun c hc => ?_⟩
  have hmem : c.toLower ∈ digits.map Char.toLower := hlower ▸ List.mem_map_of_mem hc
  obtain ⟨d, hd, hdc⟩ := List.mem_map.1 hmem
  exact isHexDigit_of_toLower hdc.symm (h.2 d hd)

/-- A text that differs in case from an address has its parts, in other casings. -/
theorem CaseVariant.parts {pre digits : List Char} {b : String} (h : CaseVariant (String.ofList (pre ++ digits)) b)
    (hpre : HexPrefix pre) (hdigits : HexDigits digits) :
    ∃ pre' digits', HexPrefix pre' ∧ HexDigits digits' ∧ b = String.ofList (pre' ++ digits') ∧
      digits'.map Char.toLower = digits.map Char.toLower := by
  have hlower := caseVariant_iff.1 h
  rw [String.toList_ofList, List.map_append] at hlower
  obtain ⟨pre', digits', hb, hpre', hdigits'⟩ := List.map_eq_append_iff.1 hlower.symm
  refine ⟨pre', digits', (hpre.of_toLower hpre').1, hdigits.of_toLower hdigits', ?_, hdigits'⟩
  apply String.toList_inj.1
  rw [hb, String.toList_ofList]

/-! ### Canonical spellings -/

/-- Forty zeros without a prefix. -/
def unprefixedZeros : String := String.ofList (List.replicate 40 '0')

private theorem toList_unprefixedZeros : unprefixedZeros.toList = List.replicate 40 '0' := String.toList_ofList

/-- If the text is accepted, its normal form is normal, and so is that of each text that differs in case only. -/
def CanonicallyNormalized (eth : EthUtils) (a : String) : Prop :=
  ∀ r, normalizeAddress eth a = .ok r →
    normalizeAddress eth r = .ok r ∧ ∀ b, CaseVariant a b → normalizeAddress eth b = .ok r

theorem CaseVariant.isNativeAlias {a b : String} (h : CaseVariant a b) : isNativeAlias a = isNativeAlias b := by
  unfold CaseVariant at h
  unfold TokenPriceAgg.isNativeAlias
  rw [h]

private theorem isNativeAlias_iff {a : String} :
    isNativeAlias a = true ↔ a.toList.map Char.toLower = ['0', 'x'] ++ List.replicate 40 'e' ∨
      a.toList.map Char.toLower = ['0', 'x'] ++ List.replicate 40 '0' := by
  have halias : nativeTokenAlias.toList.map Char.toLower = ['0', 'x'] ++ List.replicate 40 'e' := by decide +kernel
  have hzero : zeroAddress.toList.map Char.toLower = ['0', 'x'] ++ List.replicate 40 '0' := by decide +kernel
  unfold isNativeAlias
  rw [Bool.or_eq_true, decide_eq_true_eq, decide_eq_true_eq, ← String.toList_inj, ← String.toList_inj,
    toList_toLower, toList_toLower, toList_toLower, halias, hzero]

/-- Digits whose lower case is zeros are zeros. -/
private theorem eq_zeros_of_toLower {digits : List Char} (h : digits.map Char.toLower = List.replicate 40 '0') :
    digits = List.replicate 40 '0' := by
  rw [List.eq_replicate_iff] at h ⊢
  refine ⟨by simpa using h.1, ?_⟩
  intro c hc
  have hzero : c.toLower = '0' := h.2 _ (List.mem_map_of_mem hc)
  rcases eq_toLower_or c with hsame | hsame
  · exact hsame.symm.trans hzero
  · rw [hsame, hzero]
    decide

private theorem isNativeAlias_zeros {pre : List Char} (h : pre = ['0', 'x'] ∨ pre = ['0', 'X']) :
    isNativeAlias (String.ofList (pre ++ List.replicate 40 '0')) = true := by
  refine isNativeAlias_iff.2 (Or.inr ?_)
  rw [String.toList_ofList]
  rcases h with rfl | rfl <;> decide

section Canonical

variable {eth : EthUtils} {eip55 : List Char → List Char} (hdoc : eth.Documented eip55)

include hdoc

private theorem normalizeAddress_hex {pre digits : List Char} (hpre : HexPrefix pre) (hdigits : HexDigits digits)
    (hnative : isNativeAlias (String.ofList (pre ++ digits)) = false) :
    normalizeAddress eth (String.ofList (pre ++ digits)) =
      .ok (String.ofList (['0', 'x'] ++ eip55 (digits.map Char.toLower))) := by
  unfold normalizeAddress
  rw [if_neg (by rw [hnative]; decide), if_pos (hdoc.accepts pre digits hpre hdigits),
    hdoc.checksum pre digits hpre hdigits]

/-- The checksum form has the lower case of the digits behind its prefix. -/
theorem toLower_checksum {digits : List Char} (hdigits : HexDigits digits) :
    (String.ofList (['0', 'x'] ++ eip55 (digits.map Char.toLower))).toList.map Char.toLower =
      ['0', 'x'] ++ digits.map Char.toLower := by
  rw [String.toList_ofList, List.map_append, hdoc.casing digits hdigits]
  rfl

/-- Every casing is accepted and has the same normal form, which is normal unless it is the zero address. -/
private theorem canonical_of_hex {pre digits : List Char} (hpre : HexPrefix pre) (hdigits : HexDigits digits)
    (hnative : isNativeAlias (String.ofList (pre ++ digits)) = false)
    (hzeros : String.ofList (pre ++ digits) ≠ unprefixedZeros) :
    CanonicallyNormalized eth (String.ofList (pre ++ digits)) := by
  intro r hr
  rw [normalizeAddress_hex hdoc hpre hdigits hnative] at hr
  obtain rfl := Except.ok.inj hr
  have hlower := hdoc.casing digits hdigits
  constructor
  · by_cases halias : isNativeAlias (String.ofList (['0', 'x'] ++ eip55 (digits.map Char.toLower))) = true
    · have hforms := isNativeAlias_iff.1 halias
      rw [toLower_checksum hdoc hdigits, List.append_cancel_left_eq, List.append_cancel_left_eq] at hforms
      rcases hforms with he | h0
      · rw [he, hdoc.native]
        exact normalized_native eth
      · -- zeros behind a prefix are an alias themselves
        have hdigits0 := eq_zeros_of_toLower h0
        rcases hpre with rfl | rfl | rfl
        · rw [hdigits0] at hzeros
          exact absurd rfl hzeros
        · rw [hdigits0, isNativeAlias_zeros (Or.inl rfl)] at hnative
          cases hnative
        · rw [hdigits0, isNativeAlias_zeros (Or.inr rfl)] at hnative
          cases hnative
    · have hagain := normalizeAddress_hex hdoc (Or.inr (Or.inl rfl)) (hdigits.of_toLower hlower)
        (Bool.eq_false_iff.2 halias)
      rw [hagain, hlower]
  · intro b hb
    obtain ⟨pre', digits', hpre', hdigits', rfl, hlower'⟩ := hb.parts hpre hdigits
    have hnot : isNativeAlias (String.ofList (pre' ++ digits')) = false := by
      rw [← hb.isNativeAlias]
      exact hnative
    rw [normalizeAddress_hex hdoc hpre' hdigits' hnot, hlower']

/-- The checksum form of forty zeros is the zero address, whose normal form is the native alias. -/
private theorem not_canonical_zeros : ¬ CanonicallyNormalized eth unprefixedZeros := by
  intro hcanonical
  have hdigits : HexDigits (List.replicate 40 '0') := by
    refine ⟨by simp, fun c hc => ?_⟩
    rw [List.eq_of_mem_replicate hc]
    decide
  have hnative : isNativeAlias (String.ofList ([] ++ List.replicate 40 '0')) = false := by
    rw [Bool.eq_false_iff, ne_eq, isNativeAlias_iff, String.toList_ofList]
    decide
  have hr := normalizeAddress_hex hdoc (Or.inl rfl) hdigits hnative
  have hagain := (hcanonical _ hr).1
  have hlower := toLower_checksum hdoc hdigits
  have hzeros : (List.replicate 40 '0').map Char.toLower = List.replicate 40 '0' := by decide
  rw [hzeros] at hlower hagain
  have halias : isNativeAlias (String.ofList (['0', 'x'] ++ eip55 (List.replicate 40 '0'))) = true :=
    isNativeAlias_iff.2 (Or.inr hlower)
  unfold normalizeAddress at hagain
  rw [if_pos halias] at hagain
  have hsame := congrArg (fun a : String => a.toList.map Char.toLower) (Except.ok.inj hagain)
  rw [hlower] at hsame
  revert hsame
  decide +kernel

/-- The normal forms of a text and of its casings are one address for every text but the forty zeros without a
prefix. -/
theorem normalizeAddress_canonical_iff (a : String) : CanonicallyNormalized eth a ↔ a ≠ unprefixedZeros := by
  constructor
  · rintro hcanonical rfl
    exact not_canonical_zeros hdoc hcanonical
  intro hzeros
  by_cases hnative : isNativeAlias a = true
  · have hnormal : ∀ b, isNativeAlias b = true → normalizeAddress eth b = .ok nativeTokenAlias := fun b hb => if_pos hb
    intro r hr
    obtain rfl := Except.ok.inj ((hnormal a hnative).symm.trans hr)
    refine ⟨normalized_native eth, ?_⟩
    intro b hb
    exact hnormal b (hb.isNativeAlias ▸ hnative)
  by_cases haddress : eth.isAddress a = true
  · obtain ⟨pre, digits, hpre, hdigits, rfl⟩ := hdoc.shape a haddress
    exact canonical_of_hex hdoc hpre hdigits (Bool.eq_false_iff.2 hnative) hzeros
  · -- the text is refused
    intro r hr
    unfold normalizeAddress at hr
    rw [if_neg hnative, if_neg haddress] at hr
    cases hr

end Canonical

/-! ### An address library that knows some checksums -/

namespace Example

/-- Addresses in the casing of their checksum: the native alias, USDC, a vault of DAI, the two migrated tokens with what
they were migrated to (DAI is the second one), and Multicall3. -/
def checksums : List (List Char) :=
  ["EeeeeEeeeEeEeeEeEeEeeEEEeeeeEeeeeeeeEEeE", "A0b86991c6218b36c1d19D4a2e9Eb0cE3606eB48",
    "83F20F44975D03b1b09e64809B757c47f942BEeA",
    "a3CC91589fEEDbBeE0CFdC7404041E19CB00f110", "4e3FBD56CD56c3e72c1403e103b45Db9da5B9D2B",
    "857Ecd3FAeaC083303858167662C734F085c8C95", "6B175474E89094C44Da98b954EedeAC495271d0F",
    "cA11bde05977b3631167028862bE2a173976CA11"].map String.toList

def usdc : String := "0xA0b86991c6218b36c1d19D4a2e9Eb0cE3606eB48"

def dai : String := "0x6B175474E89094C44Da98b954EedeAC495271d0F"

/-- The vault of DAI. -/
def savingsDai : String := "0x83F20F44975D03b1b09e64809B757c47f942BEeA"

def eip55 (digits : List Char) : List Char :=
  (checksums.find? fun checksum => checksum.map Char.toLower = digits).getD digits

def unprefixed : List Char → List Char
  | '0' :: 'x' :: rest => rest
  | '0' :: 'X' :: rest => rest
  | rest => rest

/-- The address library, with a table of checksums. -/
def eth : EthUtils where
  isAddress a := HexDigits (unprefixed a.toList)
  toChecksumAddress a :=
    if HexDigits (unprefixed a.toList) then
      .ok (String.ofList (['0', 'x'] ++ eip55 ((unprefixed a.toList).map Char.toLower)))
    else .error (.valueError "Unknown format")

private theorem unprefixed_append {pre digits : List Char} (hpre : HexPrefix pre) (hdigits : HexDigits digits) :
    unprefixed (pre ++ digits) = digits := by
  rcases hpre with rfl | rfl | rfl
  · rw [List.nil_append]
    unfold unprefixed
    split
    · exact absurd (hdigits.2 'x' (by simp)) (by decide)
    · exact absurd (hdigits.2 'X' (by simp)) (by decide)
    · rfl
  · rfl
  · rfl

private theorem exists_prefix (s : List Char) : ∃ pre, HexPrefix pre ∧ s = pre ++ unprefixed s := by
  unfold unprefixed
  split
  · exact ⟨['0', 'x'], Or.inr (Or.inl rfl), rfl⟩
  · exact ⟨['0', 'X'], Or.inr (Or.inr rfl), rfl⟩
  · exact ⟨[], Or.inl rfl, rfl⟩

private theorem eip55_casing (digits : List Char) (h : HexDigits digits) :
    (eip55 (digits.map Char.toLower)).map Char.toLower = digits.map Char.toLower := by
  unfold eip55
  cases hfind : checksums.find? fun checksum => checksum.map Char.toLower = digits.map Char.toLower with
  | some checksum =>
    have hlower := List.find?_some hfind
    exact of_decide_eq_true hlower
  | none =>
    rw [Option.getD_none, List.map_map]
    apply List.map_congr_left
    intro c hc
    have hall : ∀ c ∈ decimalDigits ++ lowerHexLetters ++ upperHexLetters, c.toLower.toLower = c.toLower := by decide
    exact hall c (isHexDigit_iff.1 (h.2 c hc))

private theorem toChecksumAddress_hex {pre digits : List Char} (hpre : HexPrefix pre) (hdigits : HexDigits digits) :
    eth.toChecksumAddress (String.ofList (pre ++ digits)) =
      .ok (String.ofList (['0', 'x'] ++ eip55 (digits.map Char.toLower))) := by
  have hdigits' : unprefixed (String.ofList (pre ++ digits)).toList = digits := by
    rw [String.toList_ofList, unprefixed_append hpre hdigits]
  show (if HexDigits (unprefixed (String.ofList (pre ++ digits)).toList) then _ else _) = _
  rw [hdigits', if_pos hdigits]

theorem documented : eth.Documented eip55 where
  shape a h := by
    have hdigits : HexDigits (unprefixed a.toList) := of_decide_eq_true h
    obtain ⟨pre, hpre, heq⟩ := exists_prefix a.toList
    refine ⟨pre, unprefixed a.toList, hpre, hdigits, ?_⟩
    rw [← heq, String.ofList_toList]
  accepts pre digits hpre hdigits := by
    apply decide_eq_true
    rw [String.toList_ofList, unprefixed_append hpre hdigits]
    exact hdigits
  checksum _ _ := toChecksumAddress_hex
  casing := eip55_casing
  native := by decide +kernel

theorem lawful : eth.Lawful := by
  have hresult {a b : String} (h : eth.toChecksumAddress a = .ok b) :
      ∃ digits, HexDigits digits ∧ HexDigits (eip55 (digits.map Char.toLower)) ∧
        b = String.ofList (['0', 'x'] ++ eip55 (digits.map Char.toLower)) := by
    unfold eth at h
    dsimp only at h
    split at h
    · rename_i hdigits
      exact ⟨_, hdigits, hdigits.of_toLower (eip55_casing _ hdigits), (Except.ok.inj h).symm⟩
    · cases h
  constructor
  · intro a b h
    obtain ⟨digits, -, hchecked, rfl⟩ := hresult h
    exact documented.accepts ['0', 'x'] _ (.inr (.inl rfl)) hchecked
  · intro a b h
    obtain ⟨digits, hdigits, hchecked, rfl⟩ := hresult h
    rw [toChecksumAddress_hex (.inr (.inl rfl)) hchecked, eip55_casing digits hdigits]

end Example

/-- USDC with two of its letters in upper case. -/
theorem normalizeAddress_canonical_usdc :
    CanonicallyNormalized Example.eth "0xA0B86991c6218b36c1d19d4a2e9eb0ce3606eb48" := by
  refine (normalizeAddress_canonical_iff Example.documented _).2 fun hzeros => ?_
  have hlists := congrArg String.toList hzeros
  rw [toList_unprefixedZeros] at hlists
  exact absurd hlists (by decide +kernel)

/-- Forty zeros become the zero address, and that becomes the native alias. -/
theorem normalizeAddress_not_canonical :
    normalizeAddress Example.eth unprefixedZeros = .ok zeroAddress ∧
      normalizeAddress Example.eth zeroAddress = .ok nativeTokenAlias ∧
      ¬ CanonicallyNormalized Example.eth unprefixedZeros := by
  have hfirst : normalizeAddress Example.eth unprefixedZeros = .ok zeroAddress := by decide +kernel
  have hsecond : normalizeAddress Example.eth zeroAddress = .ok nativeTokenAlias := by decide +kernel
  refine ⟨hfirst, hsecond, fun hcanonical => ?_⟩
  have hagain := (hcanonical _ hfirst).1
  rw [hsecond] at hagain
  exact absurd (Except.ok.inj hagain) (by decide)

end TokenPriceAgg

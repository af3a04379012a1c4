import Mathlib.Data.List.Induction

/-!
# Python text

`str.isspace`, `str.isdigit`, `str.strip`, `str.split(maxsplit=1)`, the decimal digits of Unicode 15 and `int(text)`.
Text is a list of characters.  `strip_eq_iff` and `splitOnce_eq_pair` say how a text is put together from what the
functions on whitespace return.
-/

namespace PyLib

/-! What is said of the characters of a text is decided on them, not on all characters. -/

instance (priority := 2000) forallMemDecidable (p : Char → Prop) [DecidablePred p] (s : List Char) :
    Decidable (∀ c ∈ s, p c) := List.decidableBAll p s

instance (priority := 2000) existsMemDecidable (p : Char → Prop) [DecidablePred p] (s : List Char) :
    Decidable (∃ c ∈ s, p c) := List.decidableBEx p s

/-- The code points of the decimal digits of value zero; the other nine of each block follow. -/
def decimalZeros : List Nat :=
  [0x30, 0x660, 0x6f0, 0x7c0, 0x966, 0x9e6, 0xa66, 0xae6, 0xb66, 0xbe6, 0xc66, 0xce6, 0xd66, 0xde6, 0xe50, 0xed0,
    0xf20, 0x1040, 0x1090, 0x17e0, 0x1810, 0x1946, 0x19d0, 0x1a80, 0x1a90, 0x1b50, 0x1bb0, 0x1c40, 0x1c50, 0xa620,
    0xa8d0, 0xa900, 0xa9d0, 0xa9f0, 0xaa50, 0xabf0, 0xff10, 0x104a0, 0x10d30, 0x11066, 0x110f0, 0x11136, 0x111d0,
    0x112f0, 0x11450, 0x114d0, 0x11650, 0x116c0, 0x11730, 0x118e0, 0x11950, 0x11c50, 0x11d50, 0x11da0, 0x11f50,
    0x16a60, 0x16ac0, 0x16b50, 0x1d7ce, 0x1d7d8, 0x1d7e2, 0x1d7ec, 0x1d7f6, 0x1e140, 0x1e2f0, 0x1e4f0, 0x1e950,
    0x1fbf0]

/-- `unicodedata.decimal(c)`. -/
def decimalValue (c : Char) : Option Nat :=
  (decimalZeros.find? fun z => z ≤ c.toNat && c.toNat < z + 10).map fun z => c.toNat - z

/-- The digits that are no decimal digits, such as superscripts: the first and the last code point of each block. -/
def digitBlocks : List (Nat × Nat) :=
  [(0xb2, 0xb3), (0xb9, 0xb9), (0x1369, 0x1371), (0x19da, 0x19da), (0x2070, 0x2070), (0x2074, 0x2079),
    (0x2080, 0x2089), (0x2460, 0x2468), (0x2474, 0x247c), (0x2488, 0x2490), (0x24ea, 0x24ea), (0x24f5, 0x24fd),
    (0x24ff, 0x24ff), (0x2776, 0x277e), (0x2780, 0x2788), (0x278a, 0x2792), (0x10a40, 0x10a43), (0x10e60, 0x10e68),
    (0x11052, 0x1105a), (0x1f100, 0x1f10a)]

/-- `s.isdigit()`. -/
def isDigitText (s : List Char) : Bool :=
  !s.isEmpty && s.all fun c =>
    (decimalValue c).isSome || digitBlocks.any fun block => block.1 ≤ c.toNat && c.toNat ≤ block.2

/-- `c.isspace()`. -/
def isSpace (c : Char) : Bool :=
  let n := c.toNat
  (0x9 ≤ n && n ≤ 0xd) || (0x1c ≤ n && n ≤ 0x20) || n = 0x85 || n = 0xa0 || n = 0x1680 ||
    (0x2000 ≤ n && n ≤ 0x200a) || n = 0x2028 || n = 0x2029 || n = 0x202f || n = 0x205f || n = 0x3000

/-- `s.strip()`. -/
def strip (s : List Char) : List Char := ((s.dropWhile isSpace).reverse.dropWhile isSpace).reverse

/-- The words of `s.split(maxsplit=1)`: the first word, and what follows it. -/
def splitOnce (s : List Char) : List (List Char) :=
  let s := s.dropWhile isSpace
  if s = [] then []
  else
    let word := s.takeWhile fun c => !isSpace c
    let rest := (s.dropWhile fun c => !isSpace c).dropWhile isSpace
    if rest = [] then [word] else [word, rest]

/-- Nothing but whitespace. -/
def Blank (s : List Char) : Prop := ∀ c ∈ s, isSpace c

/-- No whitespace at either end. -/
def Trimmed (s : List Char) : Prop := (∀ c ∈ s.head?, ¬ isSpace c) ∧ ∀ c ∈ s.getLast?, ¬ isSpace c

private theorem blank_takeWhile (s : List Char) : Blank (s.takeWhile isSpace) := List.all_eq_true.1 List.all_takeWhile

private theorem head?_dropWhile (s : List Char) : ∀ c ∈ (s.dropWhile isSpace).head?, ¬ isSpace c := by
  intro c hc
  have hnot := List.head?_dropWhile_not isSpace s
  rw [hc] at hnot
  simpa using hnot

private theorem dropWhile_blank_append {p s : List Char} (hp : Blank p) (hs : ∀ c ∈ s.head?, ¬ isSpace c) :
    (p ++ s).dropWhile isSpace = s := by
  rw [List.dropWhile_append_of_pos hp]
  cases s with
  | nil => rfl
  | cons c s => exact List.dropWhile_cons_of_neg (hs c rfl)

private theorem Blank.reverse {s : List Char} (h : Blank s) : Blank s.reverse := fun c hc => h c (List.mem_reverse.1 hc)

/-- What `strip` returns is what stands between the whitespace at the two ends. -/
theorem strip_eq_iff {s t : List Char} :
    strip s = t ↔ ∃ p q, Blank p ∧ Blank q ∧ s = p ++ t ++ q ∧ Trimmed t := by
  constructor
  · rintro rfl
    have hdrop : s.dropWhile isSpace =
        strip s ++ ((s.dropWhile isSpace).reverse.takeWhile isSpace).reverse := by
      unfold strip
      rw [← List.reverse_append, List.takeWhile_append_dropWhile, List.reverse_reverse]
    refine ⟨s.takeWhile isSpace, ((s.dropWhile isSpace).reverse.takeWhile isSpace).reverse, blank_takeWhile s,
      (blank_takeWhile _).reverse, ?_, ?_, ?_⟩
    · rw [List.append_assoc, ← hdrop, List.takeWhile_append_dropWhile]
    · intro c hc
      apply head?_dropWhile s c
      rw [hdrop, List.head?_append, hc]
      rfl
    · intro c hc
      unfold strip at hc
      rw [List.getLast?_reverse] at hc
      exact head?_dropWhile (s.dropWhile isSpace).reverse c hc
  · rintro ⟨p, q, hp, hq, rfl, hfirst, hlast⟩
    unfold strip
    cases t with
    | nil =>
      have hblank : Blank (p ++ [] ++ q) := by
        intro c hc
        rw [List.append_nil] at hc
        exact (List.mem_append.1 hc).elim (hp c) (hq c)
      have hdrop : (p ++ [] ++ q).dropWhile isSpace = [] := by
        have happend := dropWhile_blank_append (s := []) hblank nofun
        rwa [List.append_nil] at happend
      rw [hdrop]
      rfl
    | cons c t =>
      have hfront : (p ++ (c :: t) ++ q).dropWhile isSpace = (c :: t) ++ q := by
        rw [List.append_assoc]
        exact dropWhile_blank_append hp hfirst
      rw [hfront, List.reverse_append, dropWhile_blank_append hq.reverse, List.reverse_reverse]
      rw [List.head?_reverse]
      exact hlast

/-- `strip` leaves nothing exactly of what is blank. -/
theorem strip_eq_nil {s : List Char} : strip s = [] ↔ Blank s := by
  rw [strip_eq_iff]
  constructor
  · rintro ⟨p, q, hp, hq, rfl, -⟩ c hc
    rw [List.append_nil] at hc
    exact (List.mem_append.1 hc).elim (hp c) (hq c)
  · intro h
    exact ⟨s, [], h, nofun, by simp, nofun, nofun⟩

/-- The word and the rest that a text splits into. -/
private theorem splitOnce_parts {s word rest : List Char} (h : splitOnce s = [word, rest]) :
    s.dropWhile isSpace ≠ [] ∧ word = (s.dropWhile isSpace).takeWhile (fun c => !isSpace c) ∧
      rest = ((s.dropWhile isSpace).dropWhile fun c => !isSpace c).dropWhile isSpace ∧ rest ≠ [] := by
  unfold splitOnce at h
  dsimp only at h
  split at h
  · cases h
  · rename_i hne
    split at h
    · cases h
    · rename_i hrest
      obtain ⟨hfirst, htail⟩ := List.cons.inj h
      obtain ⟨hsecond, -⟩ := List.cons.inj htail
      subst hfirst hsecond
      exact ⟨hne, rfl, rfl, hrest⟩

/-- A text splits in two exactly if it is a word, whitespace and a rest that starts with none, after whitespace. -/
theorem splitOnce_eq_pair {s word rest : List Char} :
    splitOnce s = [word, rest] ↔
      ∃ p gap, Blank p ∧ Blank gap ∧ gap ≠ [] ∧ s = p ++ word ++ gap ++ rest ∧ word ≠ [] ∧
        (∀ c ∈ word, ¬ isSpace c) ∧ rest ≠ [] ∧ ∀ c ∈ rest.head?, ¬ isSpace c := by
  constructor
  · intro h
    obtain ⟨hne, rfl, rfl, hrest⟩ := splitOnce_parts h
    have hword : ∀ c ∈ (s.dropWhile isSpace).takeWhile (fun c => !isSpace c), ¬ isSpace c := by
      intro c hc
      simpa using List.all_eq_true.1 List.all_takeWhile c hc
    refine ⟨s.takeWhile isSpace, ((s.dropWhile isSpace).dropWhile fun c => !isSpace c).takeWhile isSpace,
      blank_takeWhile s, blank_takeWhile _, ?_, ?_, ?_, hword, hrest, head?_dropWhile _⟩
    · -- what follows the word starts with whitespace
      intro hgap
      have hnot := List.head?_dropWhile_not (fun c => !isSpace c) (s.dropWhile isSpace)
      cases htail : (s.dropWhile isSpace).dropWhile fun c => !isSpace c with
      | nil =>
        rw [htail] at hrest
        exact hrest rfl
      | cons c tail =>
        rw [htail] at hnot hgap
        have hspace : isSpace c = true := by simpa using hnot
        rw [List.takeWhile_cons_of_pos hspace] at hgap
        cases hgap
    · rw [List.append_assoc, List.takeWhile_append_dropWhile, List.append_assoc, List.takeWhile_append_dropWhile,
        List.takeWhile_append_dropWhile]
    · intro hnil
      cases hs : s.dropWhile isSpace with
      | nil => exact hne hs
      | cons c tail =>
        have hspace : ¬ isSpace c := head?_dropWhile s c (by rw [hs]; rfl)
        rw [hs, List.takeWhile_cons_of_pos (by simpa using hspace)] at hnil
        cases hnil
  · rintro ⟨p, gap, hp, hgap, hgapne, rfl, hwordne, hword, hrestne, hrest⟩
    have hhead : ∀ c ∈ (word ++ gap ++ rest).head?, ¬ isSpace c := by
      intro c hc
      cases word with
      | nil => exact absurd rfl hwordne
      | cons d word =>
        obtain rfl : d = c := Option.some.inj hc
        exact hword d List.mem_cons_self
    have hdrop : (p ++ word ++ gap ++ rest).dropWhile isSpace = word ++ (gap ++ rest) := by
      rw [List.append_assoc, List.append_assoc, ← List.append_assoc word]
      exact dropWhile_blank_append hp hhead
    have hpos : ∀ c ∈ word, (!isSpace c) = true := fun c hc => by simpa using hword c hc
    obtain ⟨d, gap', rfl⟩ := List.exists_cons_of_ne_nil hgapne
    have hspace : ¬ (!isSpace d) = true := by simpa using hgap d List.mem_cons_self
    have hne : word ++ ((d :: gap') ++ rest) ≠ [] := fun h => hwordne (List.append_eq_nil_iff.1 h).1
    have htake : (word ++ ((d :: gap') ++ rest)).takeWhile (fun c => !isSpace c) = word := by
      rw [List.takeWhile_append_of_pos hpos, List.cons_append,
        List.takeWhile_cons_of_neg (p := fun c => !isSpace c) hspace, List.append_nil]
    have hrest' : (word ++ ((d :: gap') ++ rest)).dropWhile (fun c => !isSpace c) = (d :: gap') ++ rest := by
      rw [List.dropWhile_append_of_pos hpos, List.cons_append,
        List.dropWhile_cons_of_neg (p := fun c => !isSpace c) hspace]
    unfold splitOnce
    rw [hdrop]
    dsimp only
    rw [if_neg hne, htake, hrest', dropWhile_blank_append hgap hrest, if_neg hrestne]

/-- The whitespace that `int` skips: after the other characters were mapped to ASCII, that of C. -/
def isAsciiSpace (c : Char) : Bool := (0x9 ≤ c.toNat && c.toNat ≤ 0xd) || c.toNat = 0x20

/-- The ASCII form of a character that `int` reads: digits and whitespace beyond ASCII become ASCII ones. -/
def toAscii (c : Char) : Char :=
  if c.toNat < 128 then c
  else if isSpace c then ' '
  else
    match decimalValue c with
    | some d => Char.ofNat (0x30 + d)
    | none => '?'

/-- The digits of a decimal numeral with single underscores between them: their value and number, and the rest of
the text.  `afterDigit` tells whether the last character was a digit. -/
def scanDigits (afterDigit : Bool) (value digits : Nat) : List Char → Option (Nat × Nat × List Char)
  | [] => if afterDigit then some (value, digits, []) else none
  | c :: rest =>
    if '0' ≤ c ∧ c ≤ '9' then scanDigits true (10 * value + (c.toNat - 0x30)) (digits + 1) rest
    else if c = '_' then if afterDigit then scanDigits false value digits rest else none
    else if afterDigit then some (value, digits, c :: rest)
    else none

/-- The length from which `int` refuses to convert a text. -/
def maxStrDigits : Nat := 4300

def intOfAscii (s : List Char) : Option Int :=
  let (negative, rest) : Bool × List Char :=
    match s.dropWhile isAsciiSpace with
    | '-' :: rest => (true, rest)
    | '+' :: rest => (false, rest)
    | rest => (false, rest)
  match scanDigits false 0 0 rest with
  | none => none
  | some (value, digits, rest) =>
    if maxStrDigits < digits ∨ !rest.all isAsciiSpace then none
    else some (if negative then -(value : Int) else value)

/-- `int(s)`; `none` is a `ValueError`. -/
def intOfText (s : List Char) : Option Int := intOfAscii (s.map toAscii)

example : intOfText " 1_0\t".toList = some 10 ∧ intOfText "-٤٢".toList = some (-42) ∧
    intOfText "1__0".toList = none ∧ intOfText "+ 1".toList = none := by decide +kernel

/-! ### Decimal numerals -/

/-- `'0'` to `'9'`. -/
def isAsciiDigit (c : Char) : Bool := '0' ≤ c && c ≤ '9'

private theorem isAsciiDigit_iff {c : Char} : isAsciiDigit c ↔ 0x30 ≤ c.toNat ∧ c.toNat ≤ 0x39 := by
  unfold isAsciiDigit
  rw [Bool.and_eq_true, decide_eq_true_eq, decide_eq_true_eq, Char.le_def, Char.le_def, UInt32.le_iff_toNat_le,
    UInt32.le_iff_toNat_le]
  exact Iff.rfl

theorem digitChar_digit {d : Nat} (h : d < 10) : isAsciiDigit d.digitChar ∧ d.digitChar.toNat - 0x30 = d := by
  constructor
  · rw [isAsciiDigit_iff, Nat.toNat_digitChar_of_lt_ten h]
    omega
  · exact Nat.toNat_digitChar_sub_48_of_lt_ten h

private theorem digitChar_eq {c : Char} (h : isAsciiDigit c) : (c.toNat - 0x30).digitChar = c := by
  obtain ⟨hlo, hhi⟩ := isAsciiDigit_iff.1 h
  apply Char.toNat_inj.1
  rw [Nat.toNat_digitChar_of_lt_ten (by omega)]
  omega

private theorem toAscii_digit {c : Char} (h : isAsciiDigit c) : toAscii c = c := by
  have hhi := (isAsciiDigit_iff.1 h).2
  unfold toAscii
  rw [if_pos (by omega)]

private theorem toAscii_space {c : Char} (h : isAsciiSpace c) : toAscii c = c := by
  unfold isAsciiSpace at h
  unfold toAscii
  rw [if_pos]
  simp only [Bool.or_eq_true, Bool.and_eq_true, decide_eq_true_eq] at h
  omega

private theorem isAsciiSpace_digit {c : Char} (h : isAsciiDigit c) : isAsciiSpace c = false := by
  obtain ⟨hlo, -⟩ := isAsciiDigit_iff.1 h
  unfold isAsciiSpace
  simp only [Bool.or_eq_false_iff, Bool.and_eq_false_iff, decide_eq_false_iff_not]
  omega

/-- A run of digits is read to its end. -/
private theorem scanDigits_digits {digits : List Char} (hdigits : ∀ c ∈ digits, isAsciiDigit c) (value count : Nat)
    (rest : List Char) (hne : digits ≠ []) :
    ∀ afterDigit, scanDigits afterDigit value count (digits ++ rest) =
      scanDigits true (Nat.ofDigitChars 10 digits value) (count + digits.length) rest := by
  induction digits generalizing value count with
  | nil => exact absurd rfl hne
  | cons c digits ih =>
    intro afterDigit
    obtain ⟨hc, hdigits⟩ := List.forall_mem_cons.1 hdigits
    have hrange : '0' ≤ c ∧ c ≤ '9' := by simpa [isAsciiDigit] using hc
    rw [List.cons_append, scanDigits, if_pos hrange, Nat.ofDigitChars_cons]
    cases digits with
    | nil => rfl
    | cons d digits =>
      rw [ih hdigits _ _ (by simp) true, List.length_cons (a := c)]
      congr 1
      omega

/-- `int` of a numeral without leading whitespace: the whitespace behind it is skipped. -/
theorem intOfText_digits {digits blank : List Char} (hne : digits ≠ []) (hdigits : ∀ c ∈ digits, isAsciiDigit c)
    (hblank : ∀ c ∈ blank, isAsciiSpace c) (hlen : digits.length ≤ maxStrDigits) :
    intOfText (digits ++ blank) = some ((Nat.ofDigitChars 10 digits 0 : Nat) : Int) := by
  have hascii : (digits ++ blank).map toAscii = digits ++ blank := by
    have hself : ∀ c ∈ digits ++ blank, toAscii c = id c := by
      intro c hc
      rcases List.mem_append.1 hc with hc | hc
      · exact toAscii_digit (hdigits c hc)
      · exact toAscii_space (hblank c hc)
    rw [List.map_congr_left hself, List.map_id]
  obtain ⟨c, rest, rfl⟩ := List.exists_cons_of_ne_nil hne
  have hc : isAsciiDigit c := hdigits c List.mem_cons_self
  have hrange := isAsciiDigit_iff.1 hc
  have hdrop : (c :: rest ++ blank).dropWhile isAsciiSpace = c :: rest ++ blank :=
    List.dropWhile_cons_of_neg (by rw [isAsciiSpace_digit hc]; decide)
  have hscan : scanDigits false 0 0 (c :: rest ++ blank) =
      some (Nat.ofDigitChars 10 (c :: rest) 0, (c :: rest).length, blank) := by
    rw [scanDigits_digits hdigits 0 0 blank hne false, Nat.zero_add]
    cases blank with
    | nil => rfl
    | cons b blank =>
      have hspace := hblank b List.mem_cons_self
      have hnotDigit : ¬ ('0' ≤ b ∧ b ≤ '9') := by
        intro h
        have hb : isAsciiDigit b := by simpa [isAsciiDigit] using h
        rw [isAsciiSpace_digit hb] at hspace
        cases hspace
      have hnotUnderscore : b ≠ '_' := by
        rintro rfl
        exact absurd hspace (by decide)
      rw [scanDigits, if_neg hnotDigit, if_neg hnotUnderscore, if_pos rfl]
  have hminus : c ≠ '-' := by
    rintro rfl
    exact absurd hc (by decide)
  have hplus : c ≠ '+' := by
    rintro rfl
    exact absurd hc (by decide)
  have hrest : blank.all isAsciiSpace = true := List.all_eq_true.2 hblank
  unfold intOfText intOfAscii
  rw [hascii, hdrop, List.cons_append]
  split
  rename_i negative rest' hsign
  split at hsign
  · rename_i heq
    exact absurd (List.cons.inj heq).1 hminus
  · rename_i heq
    exact absurd (List.cons.inj heq).1 hplus
  · obtain ⟨rfl, rfl⟩ := Prod.mk.inj hsign
    rw [← List.cons_append, hscan]
    show (if maxStrDigits < (c :: rest).length ∨ !blank.all isAsciiSpace then none else _) = _
    have haccept : ¬ (maxStrDigits < (c :: rest).length ∨ !blank.all isAsciiSpace) := by
      rintro (h | h)
      · omega
      · rw [hrest] at h
        cases h
    rw [if_neg haccept]
    rfl

/-! ### Texts of digits -/

/-- No digit is whitespace, and the digits below 128 are those of ASCII. -/
theorem decimalValue_eq_some {c : Char} {d : Nat} (h : decimalValue c = some d) :
    d < 10 ∧ isSpace c = false ∧ (c.toNat < 128 → isAsciiDigit c = true) := by
  have hspaces : ∀ z ∈ decimalZeros, ∀ i < 10, isSpace (Char.ofNat (z + i)) = false ∧
      (Char.ofNat (z + i)).toNat = z + i ∧ (z + i < 128 → isAsciiDigit (Char.ofNat (z + i)) = true) := by
    decide +kernel
  obtain ⟨z, hz, rfl⟩ := Option.map_eq_some_iff.1 h
  have hmem := List.mem_of_find?_eq_some hz
  have hrange := List.find?_some hz
  simp only [Bool.and_eq_true, decide_eq_true_eq] at hrange
  obtain ⟨hspace, hcode, hascii⟩ := hspaces z hmem (c.toNat - z) (by omega)
  have hchar : Char.ofNat (z + (c.toNat - z)) = c := Char.toNat_inj.1 (by rw [hcode]; omega)
  rw [hchar] at hspace hascii
  exact ⟨by omega, hspace, fun hlt => hascii (by omega)⟩

/-- A decimal digit becomes an ASCII digit. -/
private theorem isAsciiDigit_toAscii {c : Char} {d : Nat} (h : decimalValue c = some d) :
    isAsciiDigit (toAscii c) = true := by
  obtain ⟨hd, hspace, hascii⟩ := decimalValue_eq_some h
  unfold toAscii
  by_cases hlt : c.toNat < 128
  · rw [if_pos hlt]
    exact hascii hlt
  · rw [if_neg hlt, hspace, if_neg Bool.false_ne_true, h]
    have hdigits : ∀ d < 10, isAsciiDigit (Char.ofNat (0x30 + d)) = true := by decide
    exact hdigits d hd

/-- A digit that is no decimal digit has no ASCII form. -/
private theorem toAscii_digitBlock {c : Char} (hnone : decimalValue c = none)
    (hblock : digitBlocks.any fun block => block.1 ≤ c.toNat && c.toNat ≤ block.2) : toAscii c = '?' := by
  have hblocks : ∀ block ∈ digitBlocks, 128 ≤ block.1 ∧ ∀ i ≤ block.2 - block.1,
      (Char.ofNat (block.1 + i)).toNat = block.1 + i ∧ isSpace (Char.ofNat (block.1 + i)) = false := by
    decide +kernel
  obtain ⟨block, hmem, hrange⟩ := List.any_eq_true.1 hblock
  simp only [Bool.and_eq_true, decide_eq_true_eq] at hrange
  obtain ⟨hlow, hchars⟩ := hblocks block hmem
  obtain ⟨hcode, hspace⟩ := hchars (c.toNat - block.1) (by omega)
  have hchar : Char.ofNat (block.1 + (c.toNat - block.1)) = c := Char.toNat_inj.1 (by rw [hcode]; omega)
  rw [hchar] at hspace
  unfold toAscii
  rw [if_neg (by omega), hspace, if_neg Bool.false_ne_true, hnone]

/-- A question mark behind digits is not read. -/
private theorem intOfAscii_mark {digits : List Char} (hdigits : ∀ c ∈ digits, isAsciiDigit c) (rest : List Char) :
    intOfAscii (digits ++ '?' :: rest) = none := by
  have hstop (value count : Nat) (afterDigit : Bool) : scanDigits afterDigit value count ('?' :: rest) =
      if afterDigit then some (value, count, '?' :: rest) else none := by
    have hnotDigit : ¬ ('0' ≤ '?' ∧ '?' ≤ '9') := by decide
    have hnotUnderscore : ¬ '?' = '_' := by decide
    rw [scanDigits, if_neg hnotDigit, if_neg hnotUnderscore]
  cases digits with
  | nil =>
    have hdrop : ([] ++ '?' :: rest : List Char).dropWhile isAsciiSpace = '?' :: rest :=
      List.dropWhile_cons_of_neg (by decide)
    unfold intOfAscii
    rw [hdrop]
    simp [hstop]
  | cons c digits =>
    have hc : isAsciiDigit c = true := hdigits c List.mem_cons_self
    have hdrop : (c :: digits ++ '?' :: rest).dropWhile isAsciiSpace = c :: digits ++ '?' :: rest :=
      List.dropWhile_cons_of_neg (by rw [isAsciiSpace_digit hc]; decide)
    unfold intOfAscii
    rw [hdrop, List.cons_append]
    split
    rename_i negative rest' hsign
    split at hsign
    · rename_i heq
      rw [(List.cons.inj heq).1] at hc
      exact absurd hc (by decide)
    · rename_i heq
      rw [(List.cons.inj heq).1] at hc
      exact absurd hc (by decide)
    · obtain ⟨rfl, rfl⟩ := Prod.mk.inj hsign
      rw [← List.cons_append, scanDigits_digits hdigits 0 0 _ (by simp) false, hstop, if_pos rfl]
      dsimp only
      rw [if_pos]
      right
      simp [isAsciiSpace]

/-- A text of decimal digits is read as a number that is not negative. -/
theorem intOfText_of_digits {s : List Char} (hne : s ≠ []) (hlen : s.length ≤ maxStrDigits)
    (hdigits : ∀ c ∈ s, (decimalValue c).isSome) :
    intOfText s = some ((Nat.ofDigitChars 10 (s.map toAscii) 0 : Nat) : Int) := by
  have hdig : ∀ a ∈ s.map toAscii, isAsciiDigit a = true := by
    intro a ha
    obtain ⟨c, hc, rfl⟩ := List.mem_map.1 ha
    obtain ⟨d, hd⟩ := Option.isSome_iff_exists.1 (hdigits c hc)
    exact isAsciiDigit_toAscii hd
  have hself : (s.map toAscii).map toAscii = s.map toAscii := by
    conv_rhs => rw [← List.map_id (s.map toAscii)]
    exact List.map_congr_left fun a ha => toAscii_digit (hdig a ha)
  have hread : intOfText (s.map toAscii ++ []) = some ((Nat.ofDigitChars 10 (s.map toAscii) 0 : Nat) : Int) :=
    intOfText_digits (mt List.map_eq_nil_iff.1 hne) hdig nofun (by rwa [List.length_map])
  rw [List.append_nil] at hread
  have hascii : intOfText s = intOfText (s.map toAscii) := by
    unfold intOfText
    rw [hself]
  rw [hascii, hread]

/-- A text of digits that is read has decimal digits only. -/
private theorem decimalDigits_of_intOfText {s : List Char} (hs : isDigitText s) (hread : (intOfText s).isSome) :
    ∀ c ∈ s, (decimalValue c).isSome := by
  obtain ⟨hne, hall⟩ := Bool.and_eq_true_iff.1 hs
  rw [List.all_eq_true] at hall
  intro c hc
  by_contra hdigit
  have hnone : decimalValue c = none := Option.not_isSome_iff_eq_none.1 hdigit
  have hblock : digitBlocks.any fun block => block.1 ≤ c.toNat && c.toNat ≤ block.2 := by
    have hor := hall c hc
    rw [hnone] at hor
    exact hor
  -- the digits before the first question mark are scanned, and it is no whitespace
  have hmark : '?' ∈ s.map toAscii := List.mem_map.2 ⟨c, hc, toAscii_digitBlock hnone hblock⟩
  have hchars : ∀ a ∈ s.map toAscii, isAsciiDigit a = true ∨ a = '?' := by
    intro a ha
    obtain ⟨b, hb, rfl⟩ := List.mem_map.1 ha
    cases hvalue : decimalValue b with
    | some d => exact .inl (isAsciiDigit_toAscii hvalue)
    | none =>
      right
      have hor := hall b hb
      rw [hvalue] at hor
      exact toAscii_digitBlock hvalue hor
  have hascii : intOfText s = intOfAscii (s.map toAscii) := rfl
  rw [hascii] at hread
  generalize s.map toAscii = t at hmark hchars hread
  obtain ⟨pre, post, rfl, hfirst⟩ := List.eq_append_cons_of_mem hmark
  have hpre : ∀ a ∈ pre, isAsciiDigit a = true := by
    intro a ha
    rcases hchars a (List.mem_append_left _ ha) with h | rfl
    · exact h
    · exact absurd ha hfirst
  rw [intOfAscii_mark hpre post] at hread
  cases hread

/-- A text of digits is read unless one of them is no decimal digit. -/
theorem intOfText_isSome_iff {s : List Char} (hs : isDigitText s) (hlen : s.length ≤ maxStrDigits) :
    (intOfText s).isSome ↔ ∀ c ∈ s, (decimalValue c).isSome := by
  refine ⟨decimalDigits_of_intOfText hs, fun hdigits => ?_⟩
  have hnil : s ≠ [] := by
    rintro rfl
    cases hs
  rw [intOfText_of_digits hnil hlen hdigits]
  rfl

/-- A numeral of more digits than the limit is refused. -/
private theorem intOfAscii_long {digits : List Char} (hdigits : ∀ c ∈ digits, isAsciiDigit c)
    (hlen : maxStrDigits < digits.length) : intOfAscii digits = none := by
  cases digits with
  | nil => cases hlen
  | cons c digits =>
    have hc : isAsciiDigit c = true := hdigits c List.mem_cons_self
    have hdrop : (c :: digits).dropWhile isAsciiSpace = c :: digits :=
      List.dropWhile_cons_of_neg (by rw [isAsciiSpace_digit hc]; decide)
    have hscan : scanDigits false 0 0 (c :: digits) =
        some (Nat.ofDigitChars 10 (c :: digits) 0, (c :: digits).length, []) := by
      have hall := scanDigits_digits hdigits 0 0 [] (by simp) false
      rw [List.append_nil, Nat.zero_add] at hall
      exact hall
    unfold intOfAscii
    rw [hdrop]
    split
    rename_i negative rest hsign
    split at hsign
    · rename_i heq
      rw [(List.cons.inj heq).1] at hc
      exact absurd hc (by decide)
    · rename_i heq
      rw [(List.cons.inj heq).1] at hc
      exact absurd hc (by decide)
    · obtain ⟨rfl, rfl⟩ := Prod.mk.inj hsign
      rw [hscan]
      dsimp only
      rw [if_pos (.inl hlen)]

/-- A text of digits is read exactly if they are decimal digits and not more than the limit. -/
theorem intOfText_isSome_iff_decimal {s : List Char} (hs : isDigitText s) :
    (intOfText s).isSome ↔ (∀ c ∈ s, (decimalValue c).isSome) ∧ s.length ≤ maxStrDigits := by
  constructor
  · intro hread
    have hdigits := decimalDigits_of_intOfText hs hread
    refine ⟨hdigits, Nat.le_of_not_lt fun hlen => ?_⟩
    have hascii : ∀ a ∈ s.map toAscii, isAsciiDigit a = true := by
      intro a ha
      obtain ⟨c, hc, rfl⟩ := List.mem_map.1 ha
      obtain ⟨d, hd⟩ := Option.isSome_iff_exists.1 (hdigits c hc)
      exact isAsciiDigit_toAscii hd
    have hnone : intOfText s = none := intOfAscii_long hascii (by rwa [List.length_map])
    rw [hnone] at hread
    cases hread
  · rintro ⟨hdigits, hlen⟩
    exact (intOfText_isSome_iff hs hlen).2 hdigits

/-- A numeral without a leading zero is the rendering of its value. -/
theorem toDigits_ofDigitChars {digits : List Char} (hdigits : ∀ c ∈ digits, isAsciiDigit c) (hne : digits ≠ [])
    (hhead : digits.head? ≠ some '0') :
    1 ≤ Nat.ofDigitChars 10 digits 0 ∧ Nat.toDigits 10 (Nat.ofDigitChars 10 digits 0) = digits := by
  induction digits using List.reverseRecOn with
  | nil => exact absurd rfl hne
  | append_singleton init c ih =>
    obtain ⟨hlo, hhi⟩ := isAsciiDigit_iff.1 (hdigits c (by simp))
    have hchar : (c.toNat - 0x30).digitChar = c := digitChar_eq (hdigits c (by simp))
    rw [Nat.ofDigitChars_append, Nat.ofDigitChars_cons, Nat.ofDigitChars_nil]
    show 1 ≤ 10 * Nat.ofDigitChars 10 init 0 + (c.toNat - 0x30) ∧
      Nat.toDigits 10 (10 * Nat.ofDigitChars 10 init 0 + (c.toNat - 0x30)) = init ++ [c]
    cases init with
    | nil =>
      have hzero : c.toNat ≠ 0x30 := by
        intro h
        have hc : c = '0' := Char.toNat_inj.1 h
        exact hhead (by rw [hc]; rfl)
      rw [Nat.ofDigitChars_nil, Nat.mul_zero, Nat.zero_add, Nat.toDigits_of_lt_base (by omega), hchar]
      exact ⟨by omega, rfl⟩
    | cons d init =>
      have hinit : ∀ c ∈ d :: init, isAsciiDigit c := fun c hc => hdigits c (List.mem_append_left _ hc)
      obtain ⟨hpos, hrender⟩ := ih hinit (by simp) (by simpa using hhead)
      rw [← Nat.toDigits_append_toDigits (by decide) hpos (by omega), hrender,
        Nat.toDigits_of_lt_base (by omega), hchar]
      exact ⟨by omega, rfl⟩

/-! ### Letter case -/

theorem toList_toLower (a : String) : a.toLower.toList = a.toList.map Char.toLower := by
  show (a.map Char.toLower).toList = a.toList.map Char.toLower
  rw [String.toList_map]

end PyLib

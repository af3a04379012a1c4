import TokenPriceAgg.Core.Models
import TokenPriceAgg.Lib.PyText
import TokenPriceAgg.Lib.Regex

/-!
# Amounts of a request

`parse_positive_int`.  `parsePositiveInt_eq_ok` is the set of texts it accepts: the renderings of the amounts, and those
of at most 77 digits with a newline behind them, since `$` also matches before a newline that ends the text.
-/

namespace TokenPriceAgg

open PyLib

def maxPositiveIntDigits : Nat := 78

/-- `_POSITIVE_INT_RE`, `^[1-9][0-9]*$`. -/
def positiveIntRe : List RegexItem := [.one fun c => '1' ≤ c && c ≤ '9', .many isAsciiDigit, .dollar]

def parsePositiveInt (value fieldName : String) : Except Exn Int :=
  if maxPositiveIntDigits < value.length ∨ ¬ matchesStart positiveIntRe value.toList then
    .error (.invalidRequest "INVALID_AMOUNT" ("Field '" ++ fieldName ++ "' must be a positive integer string"))
  else
    match intOfText value.toList with
    | none =>
      .error (.invalidRequest "INVALID_AMOUNT" ("Field '" ++ fieldName ++ "' must be a positive integer string"))
    | some parsed =>
      if maxUint256 < parsed then
        .error (.invalidRequest "INVALID_AMOUNT" ("Field '" ++ fieldName ++ "' exceeds the uint256 maximum"))
      else .ok parsed

/-- The error is always of the type of invalid amounts. -/
theorem parsePositiveInt_error {value fieldName : String} {e : Exn} (h : parsePositiveInt value fieldName = .error e) :
    ∃ message, e = .invalidRequest "INVALID_AMOUNT" message := by
  unfold parsePositiveInt at h
  split at h
  · cases h
    exact ⟨_, rfl⟩
  · split at h
    · cases h
      exact ⟨_, rfl⟩
    · split at h
      · cases h
        exact ⟨_, rfl⟩
      · cases h

private theorem toDigits_digits (n : Nat) : ∀ c ∈ Nat.toDigits 10 n, isAsciiDigit c := by
  intro c hc
  have hdigit : c.isDigit := Nat.isDigit_of_mem_toDigits (by decide) (by decide) hc
  unfold Char.isDigit at hdigit
  unfold isAsciiDigit
  simpa [Char.le_def] using hdigit

/-- The rendering of a positive number does not start with a zero. -/
private theorem toDigits_pos {n : Nat} (hn : 1 ≤ n) :
    ∃ c rest, Nat.toDigits 10 n = c :: rest ∧ ('1' ≤ c ∧ c ≤ '9') ∧ ∀ d ∈ rest, isAsciiDigit d := by
  induction n using Nat.strongRecOn with
  | ind n ih =>
    by_cases hlt : n < 10
    · have hval : n.digitChar.toNat = 48 + n := Nat.toNat_digitChar_of_lt_ten hlt
      have hlo : 49 ≤ n.digitChar.toNat := by omega
      have hhi : n.digitChar.toNat ≤ 57 := by omega
      exact ⟨n.digitChar, [], Nat.toDigits_of_lt_base hlt, ⟨hlo, hhi⟩, nofun⟩
    · obtain ⟨c, rest, hrender, hc, hrest⟩ := ih (n / 10) (by omega) (by omega)
      refine ⟨c, rest ++ [(n % 10).digitChar], ?_, hc, ?_⟩
      · rw [Nat.toDigits_of_base_le (by decide) (by omega), hrender]
        rfl
      · intro d hd
        rcases List.mem_append.1 hd with hd | hd
        · exact hrest d hd
        · rw [List.mem_singleton.1 hd]
          exact (digitChar_digit (Nat.mod_lt n (by decide))).1

/-- A text matches exactly if it is the rendering of a positive number, or one with a newline behind it. -/
private theorem matchesStart_positiveIntRe {s : List Char} :
    matchesStart positiveIntRe s ↔ ∃ n, 1 ≤ n ∧ (s = Nat.toDigits 10 n ∨ s = Nat.toDigits 10 n ++ ['\n']) := by
  unfold positiveIntRe
  rw [matchesStart_cons_iff]
  constructor
  · rintro ⟨first, s', rfl, ⟨c, rfl, hc⟩, hs'⟩
    obtain ⟨rest, tail, rfl, hrest, htail⟩ := matchesStart_cons_iff.1 hs'
    obtain ⟨a, b, rfl, ⟨rfl, hend⟩, -⟩ := matchesStart_cons_iff.1 htail
    rw [Bool.and_eq_true, decide_eq_true_eq, decide_eq_true_eq] at hc
    have hdigits : ∀ d ∈ c :: rest, isAsciiDigit d := by
      refine List.forall_mem_cons.2 ⟨?_, hrest⟩
      have hone : '0' ≤ c := Char.le_trans (by decide) hc.1
      simp [isAsciiDigit, hone, hc.2]
    have hhead : (c :: rest).head? ≠ some '0' := by
      intro h
      obtain rfl : c = '0' := Option.some.inj h
      exact absurd hc.1 (by decide)
    obtain ⟨hpos, hrender⟩ := toDigits_ofDigitChars hdigits (by simp) hhead
    refine ⟨_, hpos, ?_⟩
    rw [hrender]
    rcases hend with rfl | rfl
    · left
      simp
    · right
      simp
  · rintro ⟨n, hn, hs⟩
    obtain ⟨c, rest, hrender, hc, hrest⟩ := toDigits_pos hn
    have hend : ∃ tail, (tail = [] ∨ tail = ['\n']) ∧ s = [c] ++ (rest ++ tail) := by
      rcases hs with rfl | rfl
      · exact ⟨[], Or.inl rfl, by simp [hrender]⟩
      · exact ⟨['\n'], Or.inr rfl, by simp [hrender]⟩
    obtain ⟨tail, htail, rfl⟩ := hend
    refine ⟨[c], rest ++ tail, rfl, ⟨c, rfl, by simp [hc]⟩, ?_⟩
    refine matchesStart_cons_iff.2 ⟨rest, tail, rfl, hrest, ?_⟩
    exact matchesStart_cons_iff.2 ⟨[], tail, rfl, ⟨rfl, htail⟩, rfl⟩

/-- `int` reads a rendering back, also with a newline behind it. -/
private theorem intOfText_toDigits {n : Nat} {tail : List Char} (htail : tail = [] ∨ tail = ['\n'])
    (hlen : (Nat.toDigits 10 n).length ≤ maxStrDigits) : intOfText (Nat.toDigits 10 n ++ tail) = some (n : Int) := by
  have hblank : ∀ c ∈ tail, isAsciiSpace c := by
    rcases htail with rfl | rfl
    · exact nofun
    · decide
  rw [intOfText_digits Nat.toDigits_ne_nil (toDigits_digits n) hblank hlen, Nat.ofDigitChars_ten_toDigits]

/-- The digits of `n`, or these and a newline, in at most 78 characters. -/
def RenderedIn78 (n : Nat) (value : String) : Prop :=
  ∃ tail, (tail = [] ∨ tail = ['\n']) ∧ value.toList = Nat.toDigits 10 n ++ tail ∧ value.length ≤ maxPositiveIntDigits

private theorem renderedIn78_iff {n : Nat} {value : String} (hmax : n ≤ maxUint256) :
    RenderedIn78 n value ↔ value = toString n ∨ (value = toString n ++ "\n" ∧ n < 10 ^ 77) := by
  have hlength {tail : List Char} (htext : value.toList = Nat.toDigits 10 n ++ tail) :
      value.length = (Nat.toDigits 10 n).length + tail.length := by
    rw [← String.length_toList, htext, List.length_append]
  have hdigits {k : Nat} (hk : k ≠ 0) : (Nat.toDigits 10 n).length ≤ k ↔ n < 10 ^ k :=
    Nat.length_toDigits_le_iff (by decide) (Nat.pos_of_ne_zero hk)
  constructor
  · rintro ⟨tail, rfl | rfl, htext, hcount⟩
    · left
      apply String.toList_inj.1
      rw [htext, List.append_nil, Nat.toString_eq_repr, Nat.toList_repr]
    · right
      constructor
      · apply String.toList_inj.1
        rw [htext, String.toList_append, Nat.toString_eq_repr, Nat.toList_repr]
        rfl
      · rw [hlength htext] at hcount
        exact (hdigits (by decide)).1 (Nat.le_of_succ_le_succ hcount)
  · rintro (rfl | ⟨rfl, hn77⟩)
    · have htext : (toString n).toList = Nat.toDigits 10 n ++ [] := by simp
      refine ⟨[], .inl rfl, htext, ?_⟩
      rw [hlength htext]
      -- `2 ^ 256 - 1` has 78 digits
      have hlt : n < 10 ^ maxPositiveIntDigits := by
        have hlimit : maxUint256 < ((10 ^ maxPositiveIntDigits : Nat) : Int) := by decide
        omega
      exact (hdigits (by decide)).2 hlt
    · have htext : (toString n ++ "\n").toList = Nat.toDigits 10 n ++ ['\n'] := by simp
      refine ⟨['\n'], .inr rfl, htext, ?_⟩
      rw [hlength htext]
      exact Nat.succ_le_succ ((hdigits (by decide)).2 hn77)

/-- The texts that are read: the renderings of the amounts, and those with a newline that stay within 78 characters. -/
theorem parsePositiveInt_eq_ok {value fieldName : String} {parsed : Int} :
    parsePositiveInt value fieldName = .ok parsed ↔
      ∃ n : Nat, parsed = n ∧ 1 ≤ n ∧ n ≤ maxUint256 ∧
        (value = toString n ∨ (value = toString n ++ "\n" ∧ n < 10 ^ 77)) := by
  have hshort {n : Nat} {tail : List Char} (htext : value.toList = Nat.toDigits 10 n ++ tail)
      (hcount : value.length ≤ maxPositiveIntDigits) : (Nat.toDigits 10 n).length ≤ maxStrDigits := by
    rw [← String.length_toList, htext, List.length_append] at hcount
    unfold maxPositiveIntDigits at hcount
    unfold maxStrDigits
    omega
  constructor
  · intro h
    unfold parsePositiveInt at h
    split at h
    · cases h
    · rename_i hshape
      obtain ⟨hlen, hmatch⟩ := not_or.1 hshape
      -- the pattern leaves the digits of a number, and its dollar at most a newline
      obtain ⟨n, hn, hs⟩ := matchesStart_positiveIntRe.1 (not_not.1 hmatch)
      obtain ⟨tail, htail, htext⟩ : ∃ tail, (tail = [] ∨ tail = ['\n']) ∧ value.toList = Nat.toDigits 10 n ++ tail := by
        rcases hs with hs | hs
        · exact ⟨[], .inl rfl, by rw [hs, List.append_nil]⟩
        · exact ⟨['\n'], .inr rfl, hs⟩
      rw [htext, intOfText_toDigits htail (hshort htext (not_lt.1 hlen))] at h
      dsimp only at h
      split at h
      · cases h
      · rename_i hmax
        obtain rfl := Except.ok.inj h
        have hmax' : n ≤ maxUint256 := by omega
        exact ⟨n, rfl, hn, hmax', (renderedIn78_iff hmax').1 ⟨tail, htail, htext, not_lt.1 hlen⟩⟩
  · rintro ⟨n, rfl, hn, hmax, hvalue⟩
    obtain ⟨tail, htail, htext, hcount⟩ := (renderedIn78_iff hmax).2 hvalue
    have hmatch : matchesStart positiveIntRe value.toList := by
      refine matchesStart_positiveIntRe.2 ⟨n, hn, ?_⟩
      rw [htext]
      rcases htail with rfl | rfl
      · left
        exact List.append_nil _
      · right
        rfl
    unfold parsePositiveInt
    rw [if_neg (not_or.2 ⟨not_lt.2 hcount, not_not.2 hmatch⟩), htext, intOfText_toDigits htail (hshort htext hcount)]
    dsimp only
    rw [if_neg (by omega)]

/-- `value` is the one rendering of the amount `n`. -/
def CanonicalAmount (n : Nat) (value : String) : Prop := 1 ≤ n ∧ n ≤ maxUint256 ∧ value = toString n

/-- Exactly the renderings of the amounts are read, and everything else is an invalid amount. -/
def ReadsCanonically (value fieldName : String) : Prop :=
  (∀ n : Nat, CanonicalAmount n value → parsePositiveInt value fieldName = .ok (n : Int)) ∧
    ((∀ n, ¬ CanonicalAmount n value) →
      ∃ message, parsePositiveInt value fieldName = .error (.invalidRequest "INVALID_AMOUNT" message))

/-- A rendering ends in a digit. -/
private theorem toString_ne_append_newline (m n : Nat) : toString m ≠ toString n ++ "\n" := by
  intro h
  have hmem : '\n' ∈ (toString m).toList := by
    rw [h, String.toList_append]
    exact List.mem_append_right _ (by decide)
  rw [Nat.toString_eq_repr, Nat.toList_repr] at hmem
  exact absurd (toDigits_digits m '\n' hmem) (by decide)

/-- Amounts are read from their renderings only, except for those of at most 77 digits with a newline behind them. -/
theorem parsePositiveInt_canonical_iff (value fieldName : String) :
    ReadsCanonically value fieldName ↔ ¬ ∃ n : Nat, 1 ≤ n ∧ n < 10 ^ 77 ∧ value = toString n ++ "\n" := by
  constructor
  · rintro ⟨-, hothers⟩ ⟨n, hn, hn77, hvalue⟩
    have hnot : ∀ m, ¬ CanonicalAmount m value := by
      rintro m ⟨-, -, hm⟩
      exact toString_ne_append_newline m n (hm.symm.trans hvalue)
    have hmax : (n : Int) ≤ maxUint256 := by
      unfold maxUint256
      omega
    have hread : parsePositiveInt value fieldName = .ok (n : Int) :=
      parsePositiveInt_eq_ok.2 ⟨n, rfl, hn, hmax, Or.inr ⟨hvalue, hn77⟩⟩
    obtain ⟨message, herror⟩ := hothers hnot
    rw [hread] at herror
    cases herror
  · intro hnewline
    constructor
    · rintro n ⟨hn, hmax, hvalue⟩
      exact parsePositiveInt_eq_ok.2 ⟨n, rfl, hn, hmax, Or.inl hvalue⟩
    · intro hnot
      cases hread : parsePositiveInt value fieldName with
      | error e =>
        obtain ⟨message, rfl⟩ := parsePositiveInt_error hread
        exact ⟨message, rfl⟩
      | ok parsed =>
        obtain ⟨n, -, hn, hmax, hvalue | ⟨hvalue, hn77⟩⟩ := parsePositiveInt_eq_ok.1 hread
        · exact absurd ⟨hn, hmax, hvalue⟩ (hnot n)
        · exact absurd ⟨n, hn, hn77, hvalue⟩ hnewline

theorem parsePositiveInt_newline : ¬ ReadsCanonically "1\n" "amount_in" := by
  rintro ⟨-, hothers⟩
  have hnot : ∀ n, ¬ CanonicalAmount n "1\n" := by
    rintro n ⟨-, -, h⟩
    exact toString_ne_append_newline n 1 h.symm
  obtain ⟨message, h⟩ := hothers hnot
  have hread : parsePositiveInt "1\n" "amount_in" = .ok 1 := by decide +kernel
  rw [hread] at h
  cases h

end TokenPriceAgg

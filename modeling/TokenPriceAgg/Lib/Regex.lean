import Mathlib.Init

/-!
# Regular expressions

The patterns that are a sequence of character classes, repeated classes and the anchor `$`, and whether `re.match` finds
one at the start of a text.  `matchesStart_cons_iff` describes a match item by item.
-/

namespace PyLib

inductive RegexItem
  /-- one character of a class -/
  | one (p : Char → Bool)
  /-- any number of characters of a class -/
  | many (p : Char → Bool)
  /-- `$`: the end of the text, or a newline that ends it -/
  | dollar

/-- `p*` and then `k`, with the longest repetition tried first. -/
def matchMany (p : Char → Bool) (k : List Char → Bool) : List Char → Bool
  | [] => k []
  | c :: s => (p c && matchMany p k s) || k (c :: s)

def RegexItem.matchThen (k : List Char → Bool) : RegexItem → List Char → Bool
  | .one _, [] => false
  | .one p, c :: s => p c && k s
  | .many p, s => matchMany p k s
  | .dollar, s => (s = [] || s = ['\n']) && k s

/-- `re.match(pattern, s) is not None`. -/
def matchesStart : List RegexItem → List Char → Bool
  | [], _ => true
  | item :: items, s => item.matchThen (matchesStart items) s

/-- A repetition takes some text of the class and leaves the rest to what follows. -/
private theorem matchMany_iff {p : Char → Bool} {k : List Char → Bool} {s : List Char} :
    matchMany p k s ↔ ∃ a b, s = a ++ b ∧ (∀ c ∈ a, p c) ∧ k b := by
  induction s with
  | nil =>
    constructor
    · intro h
      exact ⟨[], [], rfl, nofun, h⟩
    · rintro ⟨a, b, hs, -, hk⟩
      obtain ⟨rfl, rfl⟩ := List.nil_eq_append_iff.1 hs
      exact hk
  | cons c s ih =>
    unfold matchMany
    rw [Bool.or_eq_true, Bool.and_eq_true, ih]
    constructor
    · rintro (⟨hc, a, b, rfl, ha, hk⟩ | hk)
      · exact ⟨c :: a, b, rfl, List.forall_mem_cons.2 ⟨hc, ha⟩, hk⟩
      · exact ⟨[], c :: s, rfl, nofun, hk⟩
    · rintro ⟨a, b, hs, ha, hk⟩
      cases a with
      | nil =>
        right
        rw [hs]
        exact hk
      | cons d a =>
        obtain ⟨rfl, rfl⟩ := List.cons.inj hs
        obtain ⟨hd, ha⟩ := List.forall_mem_cons.1 ha
        left
        exact ⟨hd, a, b, rfl, ha, hk⟩

/-- The text an item may take, with the text that follows it. -/
def RegexItem.Takes : RegexItem → List Char → List Char → Prop
  | .one p, a, _ => ∃ c, a = [c] ∧ p c
  | .many p, a, _ => ∀ c ∈ a, p c
  | .dollar, a, b => a = [] ∧ (b = [] ∨ b = ['\n'])

/-- A pattern matches if its first item takes a part of the text and the other items match behind it. -/
theorem matchesStart_cons_iff {item : RegexItem} {items : List RegexItem} {s : List Char} :
    matchesStart (item :: items) s ↔ ∃ a b, s = a ++ b ∧ item.Takes a b ∧ matchesStart items b := by
  cases item with
  | one p =>
    cases s with
    | nil =>
      constructor
      · intro h
        cases h
      · rintro ⟨a, b, hs, ⟨c, rfl, -⟩, -⟩
        cases hs
    | cons c s =>
      simp only [matchesStart, RegexItem.matchThen, Bool.and_eq_true]
      constructor
      · rintro ⟨hc, hs⟩
        exact ⟨[c], s, rfl, ⟨c, rfl, hc⟩, hs⟩
      · rintro ⟨a, b, hs, ⟨d, rfl, hd⟩, hb⟩
        obtain ⟨rfl, rfl⟩ := List.cons.inj hs
        exact ⟨hd, hb⟩
  | many p => exact matchMany_iff
  | dollar =>
    simp only [matchesStart, RegexItem.matchThen, Bool.and_eq_true, Bool.or_eq_true, decide_eq_true_eq]
    constructor
    · rintro ⟨hend, hs⟩
      exact ⟨[], s, rfl, ⟨rfl, hend⟩, hs⟩
    · rintro ⟨a, b, rfl, ⟨rfl, hend⟩, hb⟩
      exact ⟨hend, hb⟩

end PyLib

import Mathlib.Data.List.Nodup

/-!
# The first element of each key

`firstWins key seen l` drops from a list what has a key that was seen, before the list or earlier in it.

Key lemmas: one list behind another starts with what was seen by then (`firstWins_append`), the rest keeps its order
(`firstWins_sublist`), and it is the list itself where no key is repeated (`firstWins_of_nodup`).
-/

namespace PyLib

variable {α κ : Type} [DecidableEq κ] {key : α → κ} {seen : List κ} {l : List α}

def firstWins (key : α → κ) : List κ → List α → List α
  | _, [] => []
  | seen, a :: l => if key a ∈ seen then firstWins key seen l else a :: firstWins key (key a :: seen) l

/-- What is seen after the list. -/
def seenAfter (key : α → κ) : List κ → List α → List κ
  | seen, [] => seen
  | seen, a :: l => if key a ∈ seen then seenAfter key seen l else seenAfter key (key a :: seen) l

theorem firstWins_append (key : α → κ) (seen : List κ) (l l' : List α) :
    firstWins key seen (l ++ l') = firstWins key seen l ++ firstWins key (seenAfter key seen l) l' := by
  induction l generalizing seen with
  | nil => rfl
  | cons a l ih =>
    simp only [List.cons_append, firstWins, seenAfter]
    by_cases h : key a ∈ seen
    · rw [if_pos h, if_pos h, if_pos h, ih]
    · rw [if_neg h, if_neg h, if_neg h, ih, List.cons_append]

theorem seenAfter_append (key : α → κ) (seen : List κ) (l l' : List α) :
    seenAfter key seen (l ++ l') = seenAfter key (seenAfter key seen l) l' := by
  induction l generalizing seen with
  | nil => rfl
  | cons a l ih =>
    simp only [List.cons_append, seenAfter]
    by_cases h : key a ∈ seen
    · rw [if_pos h, if_pos h, ih]
    · rw [if_neg h, if_neg h, ih]

theorem firstWins_sublist (key : α → κ) (seen : List κ) (l : List α) : (firstWins key seen l).Sublist l := by
  induction l generalizing seen with
  | nil => exact .slnil
  | cons a l ih =>
    unfold firstWins
    by_cases h : key a ∈ seen
    · rw [if_pos h]
      exact (ih seen).cons a
    · rw [if_neg h]
      exact (ih (key a :: seen)).cons_cons a

/-- Nothing is dropped from a list without a repeated key. -/
theorem firstWins_of_nodup (h : (l.map key).Nodup) : firstWins key [] l = l := by
  have hkept (seen : List κ) (hseen : ∀ a ∈ l, key a ∉ seen) : firstWins key seen l = l := by
    induction l generalizing seen with
    | nil => rfl
    | cons a l ih =>
      rw [List.map_cons, List.nodup_cons] at h
      unfold firstWins
      rw [if_neg (hseen a List.mem_cons_self), ih h.2]
      intro b hb hmem
      rcases List.mem_cons.1 hmem with hsame | hmem
      · exact h.1 (hsame ▸ List.mem_map_of_mem hb)
      · exact hseen b (List.mem_cons_of_mem a hb) hmem
  exact hkept [] fun _ _ => List.not_mem_nil

end PyLib

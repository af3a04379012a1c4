import Mathlib.Data.List.Nodup
import TokenPriceAgg.Lib.Runs

/-!
# Bounded waiting

A server takes batches from the front of a sorted queue.  What is not in a batch has a whole batch ahead of it
(`le_of_notMem_take`), so what a batch takes away is paid by a potential, the number of those ahead, and
`run_potential` sums this up over a run: the batches of a run cost no more than what was ahead at its start and what
came in since.
-/

namespace PyLib

section Potential

variable {S L : Type} {step : S → L → Option S} {p : S → L → Prop} {I : S → Prop}

/-- The sum of the weights of the steps of a run. -/
def total (step : S → L → Option S) (weight : S → L → Nat) : S → List L → Nat
  | _, [] => 0
  | s, l :: ls => weight s l + (step s l).elim 0 fun s' => total step weight s' ls

/-- When each step pays its cost from the potential and its gain, so does a run. -/
theorem run_potential (potential : S → Nat) (cost gain : S → L → Nat)
    (hstep : ∀ s l s', I s → p s l → step s l = some s' → I s' ∧ potential s' + cost s l ≤ potential s + gain s l)
    {s s' : S} {ls : List L} (hi : I s) (ha : Along step p s ls) (hr : run step s ls = some s') :
    potential s' + total step cost s ls ≤ potential s + total step gain s ls := by
  induction ls generalizing s with
  | nil =>
    cases hr
    exact Nat.le_refl _
  | cons l ls ih =>
    obtain ⟨s₁, h₁, hrest⟩ := run_cons.1 hr
    obtain ⟨hi₁, hpay⟩ := hstep s l s₁ hi ha.1 h₁
    have hpays := ih hi₁ (ha.2 s₁ h₁) hrest
    unfold total
    rw [h₁]
    show potential s' + (cost s l + total step cost s₁ ls) ≤ potential s + (gain s l + total step gain s₁ ls)
    omega

/-- A cost that some labels have, whatever the state is. -/
theorem total_countP {q : L → Bool} {cost : S → L → Nat} {n : Nat} (hcost : ∀ s l, cost s l = if q l then n else 0)
    {s s' : S} {ls : List L} (hr : run step s ls = some s') : total step cost s ls = n * ls.countP q := by
  induction ls generalizing s with
  | nil => rfl
  | cons l ls ih =>
    obtain ⟨s₁, h₁, hrest⟩ := run_cons.1 hr
    unfold total
    rw [h₁, Option.elim_some, ih hrest, hcost]
    by_cases hq : q l = true
    · rw [if_pos hq, List.countP_cons_of_pos hq, Nat.mul_add, Nat.mul_one, Nat.add_comm]
    · rw [if_neg hq, List.countP_cons_of_neg hq, Nat.zero_add]

/-- A run that is not along `p` has a step that does not satisfy it. -/
theorem exists_of_not_along {s : S} {ls : List L} (h : ¬ Along step p s ls) :
    ∃ pre l, pre ++ [l] <+: ls ∧ ∃ s', run step s pre = some s' ∧ ¬ p s' l := by
  induction ls generalizing s with
  | nil => exact absurd trivial h
  | cons l ls ih =>
    by_cases hp : p s l
    · have hrest : ¬ ∀ s', step s l = some s' → Along step p s' ls := fun hall => h ⟨hp, hall⟩
      simp only [not_forall] at hrest
      obtain ⟨s₁, h₁, hnot⟩ := hrest
      obtain ⟨pre, l', hpre, s', hrun, hl'⟩ := ih hnot
      exact ⟨l :: pre, l', List.cons_prefix_cons.2 ⟨rfl, hpre⟩, s', run_cons.2 ⟨s₁, h₁, hrun⟩, hl'⟩
    · exact ⟨[], l, List.cons_prefix_cons.2 ⟨rfl, List.nil_prefix⟩, s, rfl, hp⟩

end Potential

section Batch

variable {α : Type}

/-- What is in a sorted list and not in its first elements comes after all of them, and they are as many as asked
for. -/
theorem le_of_notMem_take (le : α → α → Bool) (htrans : ∀ a b c, le a b → le b c → le a c)
    (htotal : ∀ a b, le a b || le b a) {l : List α} {n : Nat} {x : α} (hx : x ∈ l)
    (hnot : x ∉ (l.mergeSort le).take n) :
    ((l.mergeSort le).take n).length = n ∧ ∀ y ∈ (l.mergeSort le).take n, le y x = true := by
  have hsorted := List.pairwise_mergeSort htrans htotal l
  have hmem : x ∈ (l.mergeSort le).take n ++ (l.mergeSort le).drop n := by
    rw [List.take_append_drop]
    exact List.mem_mergeSort.2 hx
  have hdrop : x ∈ (l.mergeSort le).drop n := (List.mem_append.1 hmem).resolve_left hnot
  constructor
  · have hlong : n < (l.mergeSort le).length := by
      by_contra hshort
      rw [List.drop_eq_nil_of_le (by omega)] at hdrop
      cases hdrop
    rw [List.length_take]
    omega
  · intro y hy
    rw [← List.take_append_drop n (l.mergeSort le), List.pairwise_append] at hsorted
    exact hsorted.2.2 y hy x hdrop

end Batch

end PyLib

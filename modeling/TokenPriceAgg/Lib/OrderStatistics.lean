import Mathlib.Data.List.GetD
import Mathlib.Data.List.Sort
import Mathlib.Order.Bounds.Defs

/-!
# Order statistics of a list

`kth l k d` is the entry at position `k` of the sorted list.  `foldl_best` says what a running minimum or maximum finds.
-/

namespace PyLib

/-- A running best entry is one of the entries, and none is better. -/
theorem foldl_best {α : Type} (better : α → α → Bool) (r : α → α → Prop) (hrefl : ∀ a, r a a)
    (htrans : ∀ a b c, r a b → r b c → r a c) (hbetter : ∀ m x, better m x = true → r m x)
    (hkept : ∀ m x, better m x = false → r x m) (m : α) (l : List α) :
    (l.foldl (fun m x => if better m x then x else m) m) ∈ m :: l ∧
      ∀ x ∈ m :: l, r x (l.foldl (fun m x => if better m x then x else m) m) := by
  induction l generalizing m with
  | nil =>
    refine ⟨List.mem_cons_self, fun x hx => ?_⟩
    obtain rfl := List.mem_singleton.1 hx
    exact hrefl x
  | cons a l ih =>
    obtain ⟨hmem, hbest⟩ := ih (if better m a then a else m)
    rw [List.foldl_cons]
    generalize hnext : (if better m a then a else m) = next at hmem hbest ⊢
    have hm : r m next ∧ r a next ∧ (next = m ∨ next = a) := by
      rw [← hnext]
      cases h : better m a with
      | true => exact ⟨hbetter m a h, hrefl a, .inr rfl⟩
      | false => exact ⟨hrefl m, hkept m a h, .inl rfl⟩
    have hlast := hbest next List.mem_cons_self
    constructor
    · rcases List.mem_cons.1 hmem with h | h
      · rw [h]
        rcases hm.2.2 with h | h
        · rw [h]
          exact List.mem_cons_self
        · rw [h]
          exact List.mem_cons_of_mem _ List.mem_cons_self
      · exact List.mem_cons_of_mem _ (List.mem_cons_of_mem _ h)
    · intro x hx
      rcases List.mem_cons.1 hx with rfl | hx
      · exact htrans _ _ _ hm.1 hlast
      · rcases List.mem_cons.1 hx with rfl | hx
        · exact htrans _ _ _ hm.2.1 hlast
        · exact hbest x (List.mem_cons_of_mem _ hx)

variable {α : Type} [LinearOrder α]

/-- The `k`-th smallest entry, counted from zero; `d` beyond the end. -/
def kth (l : List α) (k : Nat) (d : α) : α := (l.insertionSort (· ≤ ·)).getD k d

private theorem kth_eq_getElem {l : List α} {k : Nat} (hk : k < (l.insertionSort (· ≤ ·)).length) (d : α) :
    kth l k d = (l.insertionSort (· ≤ ·))[k] := List.getD_eq_getElem _ d hk

private theorem kth_mem {l : List α} {k : Nat} (hk : k < l.length) (d : α) : kth l k d ∈ l := by
  have hlt : k < (l.insertionSort (· ≤ ·)).length := by rwa [List.length_insertionSort]
  rw [kth_eq_getElem hlt]
  exact (List.mem_insertionSort _).1 (List.getElem_mem hlt)

theorem kth_mono {l : List α} {j k : Nat} (hjk : j ≤ k) (hk : k < l.length) (d : α) : kth l j d ≤ kth l k d := by
  have hlt : k < (l.insertionSort (· ≤ ·)).length := by rwa [List.length_insertionSort]
  have hlt' : j < (l.insertionSort (· ≤ ·)).length := by omega
  rw [kth_eq_getElem hlt, kth_eq_getElem hlt']
  rcases hjk.lt_or_eq with h | h
  · exact List.pairwise_iff_getElem.1 (List.pairwise_insertionSort (· ≤ ·) l) j k hlt' hlt h
  · simp only [h]
    exact le_rfl

private theorem exists_kth {l : List α} {x : α} (hx : x ∈ l) (d : α) : ∃ k, k < l.length ∧ kth l k d = x := by
  obtain ⟨k, hk, rfl⟩ := List.getElem_of_mem ((List.mem_insertionSort (· ≤ ·)).2 hx)
  exact ⟨k, by rwa [List.length_insertionSort] at hk, kth_eq_getElem hk d⟩

private theorem kth_zero_le {l : List α} {x : α} (hx : x ∈ l) (d : α) : kth l 0 d ≤ x := by
  obtain ⟨k, hk, rfl⟩ := exists_kth hx d
  exact kth_mono (Nat.zero_le k) hk d

private theorem le_kth_last {l : List α} {x : α} (hx : x ∈ l) (d : α) : x ≤ kth l (l.length - 1) d := by
  obtain ⟨k, hk, rfl⟩ := exists_kth hx d
  exact kth_mono (by omega) (by omega) d

theorem isLeast_iff_kth {l : List α} {x : α} (d : α) (hl : l ≠ []) :
    IsLeast {a | a ∈ l} x ↔ x = kth l 0 d := by
  have hpos : 0 < l.length := List.length_pos_iff.2 hl
  constructor
  · intro h
    exact le_antisymm (h.2 (kth_mem hpos d)) (kth_zero_le h.1 d)
  · rintro rfl
    exact ⟨kth_mem hpos d, fun a ha => kth_zero_le ha d⟩

theorem isGreatest_iff_kth {l : List α} {x : α} (d : α) (hl : l ≠ []) :
    IsGreatest {a | a ∈ l} x ↔ x = kth l (l.length - 1) d := by
  have hlt : l.length - 1 < l.length := by
    have := List.length_pos_iff.2 hl
    omega
  constructor
  · intro h
    exact le_antisymm (le_kth_last h.1 d) (h.2 (kth_mem hlt d))
  · rintro rfl
    exact ⟨kth_mem hlt d, fun a ha => le_kth_last ha d⟩

end PyLib

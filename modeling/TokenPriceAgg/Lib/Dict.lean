import Mathlib.Data.List.Lookmap
import Mathlib.Data.List.Nodup
import Mathlib.Data.List.Perm.Subperm

/-!
# Insertion-ordered dictionaries

A `Dict κ ν` is a list of entries with pairwise distinct keys in insertion order, as in Python: setting a key
that is there keeps its place, setting a new key appends, `moveToEnd` makes a key the newest and `popFirst` drops
the oldest.  `get?_set`, `get?_pop`, `get?_moveToEnd` and `get?_trim_imp` say what a lookup sees after each operation.
-/

namespace PyLib

/-- A dictionary: its entries in insertion order, no key twice. -/
structure Dict (κ ν : Type) where
  items : List (κ × ν)
  nodup : (items.map Prod.fst).Nodup

namespace Dict

variable {κ ν : Type} [DecidableEq κ]

def empty : Dict κ ν := ⟨[], List.nodup_nil⟩

def get? (d : Dict κ ν) (k : κ) : Option ν := d.items.lookup k

def getD (d : Dict κ ν) (k : κ) (v : ν) : ν := (d.get? k).getD v

def size (d : Dict κ ν) : Nat := d.items.length

/-- Replace the value at `k` and leave the place of `k` as it is. -/
private def replaceAt (k : κ) (v : ν) (p : κ × ν) : κ × ν := if p.1 = k then (k, v) else p

omit [DecidableEq κ] in
private theorem fst_ne_of_notMem {l : List (κ × ν)} {k : κ} (h : k ∉ l.map Prod.fst) :
    ∀ p ∈ l, p.1 ≠ k :=
  fun _ hp e => h (e ▸ List.mem_map_of_mem hp)

private theorem map_fst_replaceAt (k : κ) (v : ν) (l : List (κ × ν)) :
    (l.map (replaceAt k v)).map Prod.fst = l.map Prod.fst := by
  rw [List.map_map]
  apply List.map_congr_left
  intro p _
  unfold replaceAt
  simp only [Function.comp_apply]
  split
  · exact (‹p.1 = k›).symm
  · rfl

/-- `d[k] = v`. -/
def set (d : Dict κ ν) (k : κ) (v : ν) : Dict κ ν :=
  if h : k ∈ d.items.map Prod.fst then
    ⟨d.items.map (replaceAt k v), by rw [map_fst_replaceAt]; exact d.nodup⟩
  else
    ⟨d.items ++ [(k, v)], by
      rw [List.map_append, List.nodup_append]
      refine ⟨d.nodup, by simp, ?_⟩
      intro a ha b hb e
      simp only [List.map_cons, List.map_nil, List.mem_singleton] at hb
      exact h (hb ▸ e ▸ ha)⟩

/-- `for k, v in kvs: d[k] = v`. -/
def setMany (d : Dict κ ν) (kvs : List (κ × ν)) : Dict κ ν := kvs.foldl (fun d p => d.set p.1 p.2) d

omit [DecidableEq κ] in
private theorem nodup_filter {d : Dict κ ν} (p : κ × ν → Bool) :
    ((d.items.filter p).map Prod.fst).Nodup :=
  d.nodup.sublist (List.filter_sublist.map _)

/-- `d.pop(k, None)`. -/
def pop (d : Dict κ ν) (k : κ) : Dict κ ν :=
  ⟨d.items.filter (fun p => p.1 ≠ k), nodup_filter _⟩

/-- A dictionary with the same keys and new values. -/
def mapValues {ν' : Type} (d : Dict κ ν) (f : κ → ν → ν') : Dict κ ν' :=
  ⟨d.items.map fun p => (p.1, f p.1 p.2), by
    rw [List.map_map]
    exact d.nodup⟩

/-- `d.move_to_end(k)` for a key that is there. -/
def moveToEnd (d : Dict κ ν) (k : κ) : Dict κ ν :=
  match d.get? k with
  | none => d
  | some v => (d.pop k).set k v

/-- `d.popitem(last=False)`: drop the oldest entry. -/
def popFirst (d : Dict κ ν) : Dict κ ν :=
  ⟨d.items.tail, by rw [List.map_tail]; exact d.nodup.sublist (List.tail_sublist _)⟩

/-- Pop every entry that `p` rejects. -/
def filter (d : Dict κ ν) (p : κ × ν → Bool) : Dict κ ν := ⟨d.items.filter p, nodup_filter p⟩

/-- `while len(d) > n: d.popitem(last=False)`. -/
def trim (n : Nat) (d : Dict κ ν) : Dict κ ν := Nat.repeat popFirst (d.size - n) d

/-! ### Lookups -/

private theorem lookup_eq_none {l : List (κ × ν)} {k : κ} (h : k ∉ l.map Prod.fst) : l.lookup k = none := by
  rw [List.lookup_eq_none_iff]
  intro p hp
  simpa using (fst_ne_of_notMem h p hp).symm

private theorem lookup_pair (k a : κ) (b : ν) (l : List (κ × ν)) :
    ((a, b) :: l).lookup k = if k = a then some b else l.lookup k := by
  by_cases h : k = a
  · simp [h]
  · have : (k == a) = false := by simpa using h
    simp [List.lookup_cons, this, h]

private theorem lookup_replaceAt (k k' : κ) (v : ν) (l : List (κ × ν)) :
    (l.map (replaceAt k v)).lookup k' =
      if k' = k then (if k ∈ l.map Prod.fst then some v else none) else l.lookup k' := by
  induction l with
  | nil => simp
  | cons p l ih =>
    obtain ⟨a, b⟩ := p
    by_cases ha : a = k
    · have e : replaceAt k v (a, b) = (k, v) := by simp [replaceAt, ha]
      rw [List.map_cons, e, lookup_pair, lookup_pair, ih, ha]
      split <;> simp_all
    · have e : replaceAt k v (a, b) = (a, b) := by simp [replaceAt, ha]
      rw [List.map_cons, e, lookup_pair, lookup_pair, ih]
      by_cases hk : k' = k
      · have hm : k ∈ ((a, b) :: l).map Prod.fst ↔ k ∈ l.map Prod.fst := by simp [Ne.symm ha]
        simp only [hk, Ne.symm ha, if_true, if_false, hm]
      · simp only [hk, if_false]

@[simp] theorem get?_empty (k : κ) : (empty : Dict κ ν).get? k = none := rfl

theorem get?_set (d : Dict κ ν) (k k' : κ) (v : ν) :
    (d.set k v).get? k' = if k' = k then some v else d.get? k' := by
  unfold set
  split
  · rename_i h
    rw [get?, lookup_replaceAt, if_pos h]; rfl
  · rename_i h
    rw [get?, List.lookup_append]
    by_cases hk : k' = k
    · rw [hk, lookup_eq_none h]; simp
    · rw [lookup_pair, if_neg hk, if_neg hk]; simp [get?]

private theorem lookup_filter_ne (k k' : κ) (l : List (κ × ν)) :
    (l.filter (fun p => p.1 ≠ k)).lookup k' = if k' = k then none else l.lookup k' := by
  induction l with
  | nil => simp
  | cons p l ih =>
    obtain ⟨a, b⟩ := p
    rw [List.filter_cons, lookup_pair]
    by_cases ha : a = k
    · simp only [ha, ne_eq, not_true_eq_false, decide_false, Bool.false_eq_true, if_false]
      rw [ih]
      split <;> simp_all
    · simp only [ha, ne_eq, not_false_eq_true, decide_true, if_true]
      rw [lookup_pair, ih]
      by_cases hk : k' = k
      · subst hk; simp [Ne.symm ha]
      · simp [hk]

theorem get?_pop (d : Dict κ ν) (k k' : κ) :
    (d.pop k).get? k' = if k' = k then none else d.get? k' :=
  lookup_filter_ne k k' d.items

@[simp] theorem get?_set_self (d : Dict κ ν) (k : κ) (v : ν) : (d.set k v).get? k = some v := by
  rw [get?_set, if_pos rfl]

theorem get?_set_of_ne (d : Dict κ ν) {k k' : κ} (h : k' ≠ k) (v : ν) : (d.set k v).get? k' = d.get? k' := by
  rw [get?_set, if_neg h]

@[simp] theorem get?_pop_self (d : Dict κ ν) (k : κ) : (d.pop k).get? k = none := by
  rw [get?_pop, if_pos rfl]

/-- Popping only removes entries. -/
theorem get?_pop_imp {d : Dict κ ν} {k k' : κ} {v : ν} (h : (d.pop k).get? k' = some v) : d.get? k' = some v := by
  rw [get?_pop] at h
  split at h
  · cases h
  · exact h

/-- The order of the entries changes, the lookups do not. -/
@[simp] theorem get?_moveToEnd (d : Dict κ ν) (k k' : κ) : (d.moveToEnd k).get? k' = d.get? k' := by
  unfold moveToEnd
  split
  · rfl
  · rename_i v h
    rw [get?_set, get?_pop]
    split
    · rw [‹k' = k›, h]
    · rfl

private theorem lookup_eq_some_iff {l : List (κ × ν)} (hl : (l.map Prod.fst).Nodup) {k : κ} {v : ν} :
    l.lookup k = some v ↔ (k, v) ∈ l := by
  induction l with
  | nil => simp
  | cons p l ih =>
    obtain ⟨a, b⟩ := p
    rw [List.map_cons, List.nodup_cons] at hl
    rw [lookup_pair]
    by_cases hk : k = a
    · subst hk
      have hnot : ∀ w, (k, w) ∉ l := fun w hm => hl.1 (List.mem_map.2 ⟨(k, w), hm, rfl⟩)
      simp [hnot, eq_comm]
    · rw [if_neg hk, ih hl.2]
      simp [hk]

theorem get?_eq_some {d : Dict κ ν} {k : κ} {v : ν} : d.get? k = some v ↔ (k, v) ∈ d.items :=
  lookup_eq_some_iff d.nodup

theorem get?_filter {d : Dict κ ν} {p : κ × ν → Bool} {k : κ} {v : ν} :
    (d.filter p).get? k = some v ↔ d.get? k = some v ∧ p (k, v) = true := by
  rw [get?_eq_some, get?_eq_some]
  exact List.mem_filter

/-! ### Sizes -/

theorem mem_keys {d : Dict κ ν} {k : κ} : k ∈ d.items.map Prod.fst ↔ ∃ v, d.get? k = some v := by
  constructor
  · intro h
    obtain ⟨⟨k', v⟩, hp, rfl⟩ := List.mem_map.1 h
    exact ⟨v, get?_eq_some.2 hp⟩
  · rintro ⟨v, h⟩
    exact List.mem_map.2 ⟨(k, v), get?_eq_some.1 h, rfl⟩

theorem size_set_of_some {d : Dict κ ν} {k : κ} {v : ν} (h : d.get? k = some v) (v' : ν) :
    (d.set k v').size = d.size := by
  unfold set
  rw [dif_pos (mem_keys.2 ⟨v, h⟩)]
  exact List.length_map _

/-- A new key goes to the end. -/
private theorem items_set_of_none {d : Dict κ ν} {k : κ} (h : d.get? k = none) (v : ν) :
    (d.set k v).items = d.items ++ [(k, v)] := by
  have hnew : k ∉ d.items.map Prod.fst := by
    intro hk
    obtain ⟨v', hv'⟩ := mem_keys.1 hk
    rw [h] at hv'
    cases hv'
  unfold set
  rw [dif_neg hnew]

/-- New keys go to the end in their order. -/
theorem items_setMany {kvs : List (κ × ν)} (hn : (kvs.map Prod.fst).Nodup) {d : Dict κ ν}
    (hnew : ∀ p ∈ kvs, d.get? p.1 = none) : (d.setMany kvs).items = d.items ++ kvs := by
  induction kvs generalizing d with
  | nil => exact (List.append_nil _).symm
  | cons p kvs ih =>
    rw [List.map_cons, List.nodup_cons] at hn
    have hrest : ∀ q ∈ kvs, (d.set p.1 p.2).get? q.1 = none := by
      intro q hq
      have hne : q.1 ≠ p.1 := fun h => hn.1 (h ▸ List.mem_map_of_mem hq)
      rw [get?_set_of_ne d hne]
      exact hnew q (List.mem_cons_of_mem p hq)
    show ((d.set p.1 p.2).setMany kvs).items = _
    rw [ih hn.2 hrest, items_set_of_none (hnew p List.mem_cons_self), List.append_assoc, List.singleton_append]

theorem size_setMany {kvs : List (κ × ν)} (hn : (kvs.map Prod.fst).Nodup) {d : Dict κ ν}
    (hnew : ∀ p ∈ kvs, d.get? p.1 = none) : (d.setMany kvs).size = d.size + kvs.length := by
  unfold size
  rw [items_setMany hn hnew, List.length_append]

/-- Popping removes at most one entry. -/
theorem size_le_size_pop (d : Dict κ ν) (k : κ) : d.size ≤ (d.pop k).size + 1 := by
  have hsub : d.items.map Prod.fst ⊆ k :: (d.pop k).items.map Prod.fst := by
    intro k' hk'
    obtain ⟨v, hv⟩ := mem_keys.1 hk'
    by_cases h : k' = k
    · rw [h]
      exact List.mem_cons_self
    · refine List.mem_cons_of_mem k (mem_keys.2 ⟨v, ?_⟩)
      rw [get?_pop, if_neg h, hv]
  have hle := (List.subperm_of_subset d.nodup hsub).length_le
  rwa [List.length_cons, List.length_map, List.length_map] at hle

/-- Dictionaries whose chosen entries have the same keys but for a few. -/
theorem length_filter_le {d d' : Dict κ ν} (p p' : κ × ν → Bool) (extra : List κ)
    (h : ∀ k v, d'.get? k = some v → p' (k, v) = true → (∃ v', d.get? k = some v' ∧ p (k, v') = true) ∨ k ∈ extra) :
    (d'.items.filter p').length ≤ (d.items.filter p).length + extra.length := by
  have hsub : (d'.items.filter p').map Prod.fst ⊆ (d.items.filter p).map Prod.fst ++ extra := by
    intro k hk
    obtain ⟨⟨k, v⟩, hmem, rfl⟩ := List.mem_map.1 hk
    obtain ⟨hitem, hp'⟩ := List.mem_filter.1 hmem
    obtain ⟨v', hv', hp⟩ | hextra := h k v (get?_eq_some.2 hitem) hp'
    · have hkept := List.mem_filter.2 ⟨get?_eq_some.1 hv', hp⟩
      exact List.mem_append_left extra (List.mem_map.2 ⟨(k, v'), hkept, rfl⟩)
    · exact List.mem_append_right _ hextra
  have hle := (List.subperm_of_subset (nodup_filter p') hsub).length_le
  rwa [List.length_map, List.length_append, List.length_map] at hle

/-! ### Trimming -/

omit [DecidableEq κ] in
private theorem items_trim (d : Dict κ ν) (n : Nat) : (d.trim n).items = d.items.drop (d.size - n) := by
  have hrep (m : Nat) (d : Dict κ ν) : (Nat.repeat popFirst m d).items = d.items.drop m := by
    induction m with
    | zero => rfl
    | succ m ih =>
      show (Nat.repeat popFirst m d).items.tail = d.items.drop (m + 1)
      rw [ih, List.tail_drop]
  exact hrep _ d

/-- Trimming only removes entries. -/
theorem get?_trim_imp {d : Dict κ ν} {n : Nat} {k : κ} {v : ν} (h : (d.trim n).get? k = some v) : d.get? k = some v := by
  rw [get?_eq_some, items_trim] at h
  exact get?_eq_some.2 (List.mem_of_mem_drop h)

private theorem items_moveToEnd {d : Dict κ ν} {k : κ} {v : ν} (h : d.get? k = some v) :
    (d.moveToEnd k).items = (d.pop k).items ++ [(k, v)] := by
  have hk : k ∉ (d.pop k).items.map Prod.fst := by
    intro hm
    obtain ⟨p, hp, rfl⟩ := List.mem_map.1 hm
    simp [pop] at hp
  unfold moveToEnd
  rw [h]
  dsimp only
  rw [set, dif_neg hk]

/-- The newest entry survives trimming. -/
theorem get?_trim_moveToEnd {d : Dict κ ν} {n : Nat} {k : κ} {v : ν} (hn : 0 < n) (h : d.get? k = some v) :
    ((d.moveToEnd k).trim n).get? k = some v := by
  rw [get?_eq_some, items_trim, size, items_moveToEnd h, List.length_append, List.length_singleton,
    List.drop_append_of_le_length (by omega)]
  simp

/-- What a key holds after `setMany`: its old value, or one of the values that were set. -/
theorem get?_setMany_cases (d : Dict κ ν) (kvs : List (κ × ν)) (k : κ) :
    ((∀ v, (k, v) ∉ kvs) ∧ (d.setMany kvs).get? k = d.get? k) ∨ ∃ v, (k, v) ∈ kvs ∧ (d.setMany kvs).get? k = some v := by
  induction kvs generalizing d with
  | nil => exact .inl ⟨by simp, rfl⟩
  | cons p kvs ih =>
    obtain ⟨a, b⟩ := p
    rcases ih (d.set a b) with ⟨hnot, he⟩ | ⟨v, hv, he⟩
    · by_cases hk : k = a
      · subst hk
        exact .inr ⟨b, List.mem_cons_self, he.trans (d.get?_set_self k b)⟩
      · refine .inl ⟨fun v hv => ?_, he.trans (d.get?_set_of_ne hk b)⟩
        rcases List.mem_cons.1 hv with e | hv
        · exact hk (congrArg Prod.fst e)
        · exact hnot v hv
    · exact .inr ⟨v, List.mem_cons_of_mem _ hv, he⟩

/-- A key that is set once holds its new value. -/
theorem get?_setMany_of_mem {kvs : List (κ × ν)} (hn : (kvs.map Prod.fst).Nodup) {k : κ} {v : ν} (h : (k, v) ∈ kvs)
    (d : Dict κ ν) : (d.setMany kvs).get? k = some v := by
  rcases d.get?_setMany_cases kvs k with ⟨hnot, -⟩ | ⟨w, hw, he⟩
  · exact absurd h (hnot v)
  · have hvw : (k, v) = (k, w) := List.inj_on_of_nodup_map hn h hw rfl
    rw [he, (Prod.mk.inj hvw).2]

theorem get?_mapValues {ν' : Type} (d : Dict κ ν) (f : κ → ν → ν') (k : κ) :
    (d.mapValues f).get? k = (d.get? k).map (f k) := by
  show (d.items.map fun p => (p.1, f p.1 p.2)).lookup k = (d.items.lookup k).map (f k)
  induction d.items with
  | nil => rfl
  | cons p l ih =>
    obtain ⟨a, b⟩ := p
    rw [List.map_cons, lookup_pair, lookup_pair, ih]
    by_cases hk : k = a
    · subst hk
      simp
    · rw [if_neg hk, if_neg hk]

theorem getD_set (d : Dict κ ν) (k k' : κ) (v w : ν) :
    (d.set k v).getD k' w = if k' = k then v else d.getD k' w := by
  rw [getD, get?_set]
  split <;> rfl

/-- A filter that keeps a key keeps its value. -/
theorem getD_filter_of_keep {d : Dict κ ν} {p : κ × ν → Bool} {k : κ} (h : ∀ v, p (k, v) = true) (w : ν) :
    (d.filter p).getD k w = d.getD k w := by
  have hsame : (d.filter p).get? k = d.get? k := by
    apply Option.ext
    intro v
    rw [get?_filter]
    exact and_iff_left (h v)
  unfold getD
  rw [hsame]

theorem getD_pop (d : Dict κ ν) (k k' : κ) (w : ν) :
    (d.pop k).getD k' w = if k' = k then w else d.getD k' w := by
  rw [getD, get?_pop]
  split <;> rfl

end Dict

/-- What is kept of a list by `list(dict.fromkeys(xs))` occurs once. -/
theorem nodup_eraseDups {α : Type} [BEq α] [LawfulBEq α] (l : List α) : l.eraseDups.Nodup := by
  induction h : l.length using Nat.strongRecOn generalizing l with
  | ind n ih =>
    cases l with
    | nil => simp
    | cons a l =>
      have hle := List.length_filter_le (fun b => !b == a) l
      rw [List.length_cons] at h
      rw [List.eraseDups_cons, List.nodup_cons]
      constructor
      · intro ha
        have hmem := List.mem_eraseDups.1 ha
        simp at hmem
      · exact ih _ (by omega) _ rfl

end PyLib

import TokenPriceAgg.Lib.Dict
import Mathlib.Algebra.Ring.Int.Defs

/-!
# Tables of a database

A table is a dictionary from primary keys to rows that satisfy its `CHECK` constraints, so a row that violates them
cannot be stored: the statement that would store it raises and leaves the table as it is.  `row?` reads a row, and
`row?_upsert` and `row?_update` say what a lookup sees after a statement.
-/

namespace PyLib

/-- What a statement raises. -/
inductive SqliteError
  | integrityError
  /-- an integer of more than 64 bits -/
  | overflowError
deriving DecidableEq, Repr

/-- An integer bound to a parameter. -/
def bindInt (n : Int) : Except SqliteError Int := if -2 ^ 63 ≤ n ∧ n < 2 ^ 63 then .ok n else .error .overflowError

theorem bindInt_of_fits {n : Int} (h : -2 ^ 63 ≤ n ∧ n < 2 ^ 63) : bindInt n = .ok n := if_pos h

theorem bindInt_eq_ok {n m : Int} (h : bindInt n = .ok m) : m = n ∧ -2 ^ 63 ≤ n ∧ n < 2 ^ 63 := by
  unfold bindInt at h
  by_cases hn : -2 ^ 63 ≤ n ∧ n < 2 ^ 63
  · rw [if_pos hn] at h
    exact ⟨(Except.ok.inj h).symm, hn⟩
  · rw [if_neg hn] at h
    cases h

/-- `length(text)`: the characters before the first NUL. -/
def sqlLength (text : String) : Nat := (text.toList.takeWhile (· ≠ '\x00')).length

/-- A table with the primary keys `κ`, the rows `ρ` and the constraint `check`. -/
abbrev Table (κ ρ : Type) (check : ρ → Prop) : Type := Dict κ {row : ρ // check row}

namespace Table

variable {κ ρ : Type} [DecidableEq κ] {check : ρ → Prop} [DecidablePred check]

def row? (t : Table κ ρ check) (k : κ) : Option ρ := (t.get? k).map Subtype.val

/-- Store a row. -/
def write (t : Table κ ρ check) (k : κ) (row : ρ) : Except SqliteError (Table κ ρ check) :=
  if h : check row then .ok (t.set k ⟨row, h⟩) else .error .integrityError

/-- `INSERT ... ON CONFLICT DO UPDATE`: the constraint is checked for the inserted row, and for the updated one. -/
def upsert (t : Table κ ρ check) (k : κ) (row : ρ) (onConflict : ρ → ρ) : Except SqliteError (Table κ ρ check) :=
  if check row then t.write k (((t.row? k).map onConflict).getD row) else .error .integrityError

/-- `UPDATE ... WHERE` the primary key is `k`. -/
def update (t : Table κ ρ check) (k : κ) (f : ρ → ρ) : Except SqliteError (Table κ ρ check) :=
  match t.row? k with
  | none => .ok t
  | some row => t.write k (f row)

variable {t t' : Table κ ρ check} {k : κ} {row : ρ} {f : ρ → ρ}

omit [DecidablePred check] in
/-- A stored row satisfies the constraint. -/
theorem check_of_row? (h : t.row? k = some row) : check row := by
  obtain ⟨stored, -, rfl⟩ := Option.map_eq_some_iff.1 h
  exact stored.property

private theorem write_ok_iff : (∃ t', t.write k row = .ok t') ↔ check row := by
  unfold write
  by_cases hcheck : check row
  · rw [dif_pos hcheck]
    exact iff_of_true ⟨_, rfl⟩ hcheck
  · rw [dif_neg hcheck]
    refine iff_of_false ?_ hcheck
    rintro ⟨t', h⟩
    cases h

private theorem row?_write (h : t.write k row = .ok t') (k' : κ) :
    t'.row? k' = if k' = k then some row else t.row? k' := by
  unfold write at h
  by_cases hcheck : check row
  · rw [dif_pos hcheck] at h
    cases h
    unfold row?
    rw [Dict.get?_set]
    split <;> rfl
  · rw [dif_neg hcheck] at h
    cases h

private theorem upsert_eq_ok (h : t.upsert k row f = .ok t') :
    check row ∧ t.write k (((t.row? k).map f).getD row) = .ok t' := by
  unfold upsert at h
  by_cases hcheck : check row
  · rw [if_pos hcheck] at h
    exact ⟨hcheck, h⟩
  · rw [if_neg hcheck] at h
    cases h

/-- An upsert goes through exactly if the inserted and the resulting row satisfy the constraint. -/
theorem upsert_ok_iff :
    (∃ t', t.upsert k row f = .ok t') ↔ check row ∧ check (((t.row? k).map f).getD row) := by
  constructor
  · rintro ⟨t', h⟩
    obtain ⟨hcheck, hwrite⟩ := upsert_eq_ok h
    exact ⟨hcheck, write_ok_iff.1 ⟨t', hwrite⟩⟩
  · rintro ⟨hcheck, hresult⟩
    obtain ⟨t', hwrite⟩ := (write_ok_iff (t := t) (k := k)).2 hresult
    refine ⟨t', ?_⟩
    unfold upsert
    rw [if_pos hcheck]
    exact hwrite

theorem row?_upsert (h : t.upsert k row f = .ok t') (k' : κ) :
    t'.row? k' = if k' = k then some (((t.row? k).map f).getD row) else t.row? k' :=
  row?_write (upsert_eq_ok h).2 k'

/-- An insert that replaces the row of the key goes through if the row satisfies the constraint. -/
theorem upsert_replace (t : Table κ ρ check) (k : κ) (h : check row) :
    ∃ t', t.upsert k row (fun _ => row) = .ok t' ∧ t'.row? k = some row := by
  have hresult : ((t.row? k).map fun _ => row).getD row = row := by
    cases t.row? k <;> rfl
  obtain ⟨t', ht'⟩ := (upsert_ok_iff (t := t) (k := k) (f := fun _ => row)).2 ⟨h, by rw [hresult]; exact h⟩
  refine ⟨t', ht', ?_⟩
  rw [row?_upsert ht' k, if_pos rfl, hresult]

theorem update_of_row? (hrow : t.row? k = some row) (h : check (f row)) :
    ∃ t', t.update k f = .ok t' ∧ t'.row? k = some (f row) := by
  obtain ⟨t', ht'⟩ := (write_ok_iff (t := t) (k := k)).2 h
  refine ⟨t', ?_, ?_⟩
  · unfold update
    rw [hrow]
    exact ht'
  · rw [row?_write ht' k, if_pos rfl]

theorem row?_update (h : t.update k f = .ok t') (k' : κ) :
    t'.row? k' = if k' = k then (t.row? k).map f else t.row? k' := by
  unfold update at h
  cases hrow : t.row? k with
  | none =>
    rw [hrow] at h
    cases h
    by_cases hk : k' = k
    · subst hk
      rw [if_pos rfl, hrow]
      rfl
    · rw [if_neg hk]
  | some row =>
    rw [hrow] at h
    rw [row?_write h k']
    rfl

end Table

end PyLib

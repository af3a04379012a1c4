import Mathlib.Data.List.InsertIdx
import Mathlib.Order.Lattice

/-!
# Resources that are replaced while they are in use

A resource is used by several holders at once, each of them for a time known from the start.  When it is replaced,
new holders get the next one, and the old one is disposed of once its grace period is over.  `Spared` says that nobody
holds a resource that is gone.  `Inv.replace` is the rule for it: a replacement keeps the invariant if every holder of
the replaced resource is done before the grace period ends.  `not_spared_of_late` is the converse.
-/

namespace PyLib

/-- A holder of a resource, and the last moment at which it may need it. -/
structure Lease (T : Type) where
  resource : Nat
  deadline : T

/-- A replaced resource, and the first moment at which it may be disposed of. -/
structure Retired (T : Type) where
  resource : Nat
  due : T

/-- The resources are numbered in the order in which they are made. -/
structure Leases (T : Type) where
  current : Nat
  held : List (Lease T)
  retired : List (Retired T)
  disposed : List Nat
  now : T

namespace Leases

variable {T : Type}

def take (p : Leases T) (deadline : T) : Leases T := { p with held := p.held ++ [⟨p.current, deadline⟩] }

def drop (p : Leases T) (i : Nat) : Leases T := { p with held := p.held.eraseIdx i }

def replace (p : Leases T) (due : T) : Leases T :=
  { p with current := p.current + 1, retired := p.retired ++ [⟨p.current, due⟩] }

def advance (p : Leases T) (t : T) : Leases T := { p with now := t }

/-- Dispose of the `i`-th retired resource, which is `q`. -/
def dispose (p : Leases T) (i : Nat) (q : Retired T) : Leases T :=
  { p with retired := p.retired.eraseIdx i, disposed := p.disposed ++ [q.resource] }

variable [LinearOrder T]

/-- Whoever holds a resource that is gone does not need it any more. -/
def Spared (p : Leases T) : Prop := ∀ l ∈ p.held, l.resource ∈ p.disposed → l.deadline < p.now

/-- Every holder of the current resource is done before `due`. -/
def DoneBefore (p : Leases T) (due : T) : Prop := ∀ l ∈ p.held, l.resource = p.current → l.deadline < due

structure Inv (p : Leases T) : Prop where
  spared : p.Spared
  covered : ∀ q ∈ p.retired, ∀ l ∈ p.held, l.resource = q.resource → l.deadline < q.due
  retired_lt : ∀ q ∈ p.retired, q.resource < p.current
  disposed_lt : ∀ r ∈ p.disposed, r < p.current

namespace Inv

variable {p : Leases T}

/-- A new holder gets the current resource, which is neither retired nor disposed of. -/
theorem take (h : p.Inv) (deadline : T) : (p.take deadline).Inv where
  spared := by
    intro l hl hgone
    rcases List.mem_append.1 hl with hl | hl
    · exact h.spared l hl hgone
    · obtain rfl := List.mem_singleton.1 hl
      -- the current resource is newer than any that is gone
      exact absurd (h.disposed_lt _ hgone) (lt_irrefl _)
  covered := by
    intro q hq l hl hsame
    rcases List.mem_append.1 hl with hl | hl
    · exact h.covered q hq l hl hsame
    · obtain rfl := List.mem_singleton.1 hl
      have hlt : q.resource < p.current := h.retired_lt q hq
      exact absurd hsame hlt.ne'
  retired_lt := h.retired_lt
  disposed_lt := h.disposed_lt

theorem drop (h : p.Inv) (i : Nat) : (p.drop i).Inv where
  spared := fun l hl => h.spared l (List.mem_of_mem_eraseIdx hl)
  covered := fun q hq l hl => h.covered q hq l (List.mem_of_mem_eraseIdx hl)
  retired_lt := h.retired_lt
  disposed_lt := h.disposed_lt

theorem replace (h : p.Inv) {due : T} (hdone : p.DoneBefore due) : (p.replace due).Inv where
  spared := h.spared
  covered := by
    intro q hq l hl hsame
    rcases List.mem_append.1 hq with hq | hq
    · exact h.covered q hq l hl hsame
    · obtain rfl := List.mem_singleton.1 hq
      exact hdone l hl hsame
  retired_lt := by
    intro q hq
    rcases List.mem_append.1 hq with hq | hq
    · exact Nat.lt_succ_of_lt (h.retired_lt q hq)
    · obtain rfl := List.mem_singleton.1 hq
      exact Nat.lt_succ_self _
  disposed_lt := fun r hr => Nat.lt_succ_of_lt (h.disposed_lt r hr)

theorem advance (h : p.Inv) {t : T} (ht : p.now ≤ t) : (p.advance t).Inv where
  spared := fun l hl hgone => lt_of_lt_of_le (h.spared l hl hgone) ht
  covered := h.covered
  retired_lt := h.retired_lt
  disposed_lt := h.disposed_lt

theorem dispose (h : p.Inv) {i : Nat} {q : Retired T} (hq : p.retired[i]? = some q) (hdue : q.due ≤ p.now) :
    (p.dispose i q).Inv where
  spared := by
    intro l hl hgone
    rcases List.mem_append.1 hgone with hgone | hgone
    · exact h.spared l hl hgone
    · have hsame : l.resource = q.resource := List.mem_singleton.1 hgone
      -- whoever holds `q` is done before it is due
      exact lt_of_lt_of_le (h.covered q (List.mem_of_getElem? hq) l hl hsame) hdue
  covered := fun q' hq' => h.covered q' (List.mem_of_mem_eraseIdx hq')
  retired_lt := fun q' hq' => h.retired_lt q' (List.mem_of_mem_eraseIdx hq')
  disposed_lt := by
    intro r hr
    rcases List.mem_append.1 hr with hr | hr
    · exact h.disposed_lt r hr
    · obtain rfl := List.mem_singleton.1 hr
      exact h.retired_lt q (List.mem_of_getElem? hq)

end Inv

/-- A retired resource is disposed of as soon as it is due.  If some holder is not done by then, it is not spared. -/
theorem not_spared_of_late {p : Leases T} {i : Nat} {q : Retired T} {l : Lease T} (hl : l ∈ p.held)
    (hsame : l.resource = q.resource) (hlate : q.due ≤ l.deadline) : ¬ ((p.advance q.due).dispose i q).Spared := by
  intro hspared
  have hgone : l.resource ∈ p.disposed ++ [q.resource] := by
    rw [hsame]
    exact List.mem_append_right _ List.mem_cons_self
  exact absurd (hspared l hl hgone) (not_lt.2 hlate)

end Leases

end PyLib

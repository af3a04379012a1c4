import Mathlib.Data.List.Forall2

/-!
# Stateful computations with exceptions

`Eff σ ε α` is a computation over a state `σ` that returns an `α` or raises an `ε`; the state survives the
exception, as the objects of an imperative program do.  Besides the monad there are the two ways such a program
handles an exception, `tryExcept` (`try`/`except`) and `tryFinally` (`try`/`finally`), and the loop over a list
(`forEach`).

A triple `Triple P m Q E` says: from every state with `P`, a normal return ends in `Q`, an exception ends in `E`.
There is one rule for each construct.  `Preserves I m` is the triple of an invariant.
-/

namespace PyLib

/-- A computation over the state `σ` that returns an `α` or raises an `ε`. -/
def Eff (σ ε α : Type) : Type := σ → Except ε α × σ

namespace Eff

variable {σ ε ε' α β : Type}

protected def pure (a : α) : Eff σ ε α := fun s => (.ok a, s)

protected def bind (m : Eff σ ε α) (f : α → Eff σ ε β) : Eff σ ε β := fun s =>
  match m s with
  | (.ok a, s') => f a s'
  | (.error e, s') => (.error e, s')

instance : Monad (Eff σ ε) where
  pure := Eff.pure
  bind := Eff.bind

def raise (e : ε) : Eff σ ε α := fun s => (.error e, s)

def get : Eff σ ε σ := fun s => (.ok s, s)

def modify (f : σ → σ) : Eff σ ε Unit := fun s => (.ok (), f s)

/-- Read a value off the state and replace the state. -/
def step (f : σ → α × σ) : Eff σ ε α := fun s => (.ok (f s).1, (f s).2)

/-- A pure expression that may raise. -/
def ofExcept (x : Except ε α) : Eff σ ε α := fun s => (x, s)

/-- `try: m` / `except e: h e`; a handler that does not match raises again. -/
def tryExcept (m : Eff σ ε α) (h : ε → Eff σ ε' α) : Eff σ ε' α := fun s =>
  match m s with
  | (.ok a, s') => (.ok a, s')
  | (.error e, s') => h e s'

/-- The same computation with its exceptions renamed. -/
def mapError (f : ε → ε') (m : Eff σ ε α) : Eff σ ε' α := tryExcept m fun e => raise (f e)

/-- `try: m` / `finally: c`: an exception of `c` replaces the outcome of `m`. -/
def tryFinally (m : Eff σ ε α) (c : Eff σ ε Unit) : Eff σ ε α := fun s =>
  match c (m s).2 with
  | (.ok (), s') => ((m s).1, s')
  | (.error e, s') => (.error e, s')

/-- A computation over a part of the state. -/
def zoom {τ : Type} (get : τ → σ) (set : σ → τ → τ) (m : Eff σ ε α) : Eff τ ε α := fun t =>
  ((m (get t)).1, set (m (get t)).2 t)

/-- `[f x for x in xs]`. -/
def mapEach (f : β → Eff σ ε α) : List β → Eff σ ε (List α)
  | [] => pure []
  | x :: xs => do
    let y ← f x
    let ys ← mapEach f xs
    pure (y :: ys)

/-- `for x in xs: f x`. -/
def forEach (f : β → Eff σ ε Unit) : List β → Eff σ ε Unit
  | [] => pure ()
  | x :: xs => do f x; forEach f xs

@[simp] theorem pure_run (a : α) (s : σ) : (pure a : Eff σ ε α) s = (.ok a, s) := rfl

theorem bind_run (m : Eff σ ε α) (f : α → Eff σ ε β) (s : σ) :
    (m >>= f) s = match m s with
      | (.ok a, s') => f a s'
      | (.error e, s') => (.error e, s') := rfl

theorem bind_ok {m : Eff σ ε α} {s s' : σ} {a : α} (h : m s = (.ok a, s')) (f : α → Eff σ ε β) :
    (m >>= f) s = f a s' := by
  rw [bind_run, h]

theorem bind_error {m : Eff σ ε α} {s s' : σ} {e : ε} (h : m s = (.error e, s')) (f : α → Eff σ ε β) :
    (m >>= f) s = (.error e, s') := by
  rw [bind_run, h]

/-- A bind that returns was reached by two returns. -/
theorem bind_eq_ok {m : Eff σ ε α} {f : α → Eff σ ε β} {s s'' : σ} {b : β} :
    (m >>= f) s = (.ok b, s'') ↔ ∃ a s', m s = (.ok a, s') ∧ f a s' = (.ok b, s'') := by
  rw [bind_run]
  rcases h : m s with ⟨_ | a, s'⟩
  · constructor
    · intro e; cases e
    · rintro ⟨a, s', h', -⟩; cases h'
  · constructor
    · intro e; exact ⟨a, s', rfl, e⟩
    · rintro ⟨a', s₁, h', e⟩; cases h'; exact e

@[simp] theorem raise_run (e : ε) (s : σ) : (raise e : Eff σ ε α) s = (.error e, s) := rfl

@[simp] theorem get_run (s : σ) : (get : Eff σ ε σ) s = (.ok s, s) := rfl

@[simp] theorem modify_run (f : σ → σ) (s : σ) : (modify f : Eff σ ε Unit) s = (.ok (), f s) := rfl

@[simp] theorem step_run (f : σ → α × σ) (s : σ) : (step f : Eff σ ε α) s = (.ok (f s).1, (f s).2) := rfl

@[simp] theorem ofExcept_run (x : Except ε α) (s : σ) : (ofExcept x : Eff σ ε α) s = (x, s) := rfl

/-- Renaming its exceptions does not change what a computation returns. -/
theorem mapError_run {m : Eff σ ε α} {s s' : σ} {outcome : Except ε α} (h : m s = (outcome, s')) (f : ε → ε') :
    mapError f m s = (outcome.mapError f, s') := by
  unfold mapError tryExcept
  rw [h]
  cases outcome <;> rfl

theorem mapError_eq_ok {m : Eff σ ε α} {f : ε → ε'} {s s' : σ} {a : α} (h : mapError f m s = (.ok a, s')) :
    m s = (.ok a, s') := by
  rcases hm : m s with ⟨e | a', s₁⟩ <;> rw [mapError_run hm] at h <;> cases h
  rfl

theorem except_mapError_eq_ok {x : Except ε α} {f : ε → ε'} {a : α} (h : x.mapError f = .ok a) : x = .ok a := by
  cases x with
  | error e => cases h
  | ok a' => exact congrArg Except.ok (Except.ok.inj h)

theorem ofExcept_eq_ok {x : Except ε α} {f : ε → ε'} {s s' : σ} {a : α}
    (h : (ofExcept (x.mapError f) : Eff σ ε' α) s = (.ok a, s')) : x = .ok a ∧ s' = s := by
  obtain ⟨hx, rfl⟩ := Prod.mk.inj h
  exact ⟨except_mapError_eq_ok hx, rfl⟩

/-- A list that is returned has one element for each, from some state on the way. -/
theorem mapEach_ok {f : β → Eff σ ε α} {xs : List β} {ys : List α} {s s' : σ} (h : mapEach f xs s = (.ok ys, s')) :
    List.Forall₂ (fun x y => ∃ t t', f x t = (.ok y, t')) xs ys := by
  induction xs generalizing ys s with
  | nil =>
    cases h
    exact .nil
  | cons x xs ih =>
    obtain ⟨y, t, hy, h⟩ := bind_eq_ok.1 h
    obtain ⟨zs, t', hzs, h⟩ := bind_eq_ok.1 h
    cases h
    exact .cons ⟨s, t, hy⟩ (ih hzs)

/-- A sequence of pure expressions that may raise returns exactly when both do. -/
theorem except_bind_eq_ok {γ : Type} {x : Except ε γ} {f : γ → Except ε β} {b : β} :
    (x >>= f) = .ok b ↔ ∃ a, x = .ok a ∧ f a = .ok b := by
  cases x with
  | error e =>
    constructor
    · intro h
      cases h
    · rintro ⟨a, ha, -⟩
      cases ha
  | ok a =>
    constructor
    · intro h
      exact ⟨a, rfl, h⟩
    · rintro ⟨a', ha, h⟩
      cases ha
      exact h

/-- It raises what the first of them raises. -/
theorem except_bind_eq_error {γ : Type} {x : Except ε γ} {f : γ → Except ε β} {e : ε} :
    (x >>= f) = .error e ↔ x = .error e ∨ ∃ a, x = .ok a ∧ f a = .error e := by
  cases x with
  | error e' =>
    constructor
    · intro h
      exact .inl (congrArg Except.error (Except.error.inj h))
    · rintro (h | ⟨a, ha, -⟩)
      · exact congrArg Except.error (Except.error.inj h)
      · cases ha
  | ok a =>
    constructor
    · intro h
      exact .inr ⟨a, rfl, h⟩
    · rintro (h | ⟨a', ha, h⟩)
      · cases h
      · cases ha
        exact h

theorem except_map_eq_ok {γ : Type} {x : Except ε γ} {f : γ → β} {b : β} :
    x.map f = .ok b ↔ ∃ a, x = .ok a ∧ f a = b := by
  cases x with
  | error e => simp [Except.map]
  | ok a => simp [Except.map]

/-- A reflexive and transitive relation that every turn of a loop keeps holds between its first and its last state. -/
theorem foldlM_rel {f : σ → β → Except ε σ} {R : σ → σ → Prop} (hrefl : ∀ s, R s s)
    (htrans : ∀ s₁ s₂ s₃, R s₁ s₂ → R s₂ s₃ → R s₁ s₃) {xs : List β}
    (hstep : ∀ x ∈ xs, ∀ s s', f s x = .ok s' → R s s') {s s' : σ} (h : xs.foldlM f s = .ok s') : R s s' := by
  induction xs generalizing s with
  | nil =>
    obtain rfl : s = s' := Except.ok.inj h
    exact hrefl s
  | cons x xs ih =>
    rw [List.foldlM_cons] at h
    cases hx : f s x with
    | error e => rw [hx] at h; cases h
    | ok s₁ =>
      rw [hx] at h
      have hfirst := hstep x List.mem_cons_self s s₁ hx
      exact htrans s s₁ s' hfirst (ih (fun x' hx' => hstep x' (List.mem_cons_of_mem _ hx')) h)

/-- A list of pure expressions that may raise returns exactly when each of them does. -/
theorem mapM_eq_ok {f : β → Except ε α} {xs : List β} {ys : List α} :
    xs.mapM f = .ok ys ↔ List.Forall₂ (fun x y => f x = .ok y) xs ys := by
  induction xs generalizing ys with
  | nil =>
    rw [List.mapM_nil, List.forall₂_nil_left_iff]
    constructor
    · intro h
      cases h
      rfl
    · rintro rfl
      rfl
  | cons x xs ih =>
    rw [List.mapM_cons, List.forall₂_cons_left_iff]
    rcases hx : f x with e | y
    · constructor
      · intro h
        cases h
      · rintro ⟨y, ys', hy, -⟩
        cases hy
    · rcases hxs : xs.mapM f with e | zs
      · constructor
        · intro h
          cases h
        · rintro ⟨y', ys', -, hys, rfl⟩
          rw [ih.2 hys] at hxs
          cases hxs
      · constructor
        · intro h
          cases h
          exact ⟨y, zs, rfl, ih.1 hxs, rfl⟩
        · rintro ⟨y', ys', hy, hys, rfl⟩
          cases hy
          rw [ih.2 hys] at hxs
          cases hxs
          rfl

/-- A list of pure expressions raises what the first of them raises that raises. -/
theorem mapM_eq_error {f : β → Except ε α} {xs : List β} {e : ε} (h : xs.mapM f = .error e) :
    ∃ before x after, xs = before ++ x :: after ∧ (∀ y ∈ before, ∃ a, f y = .ok a) ∧ f x = .error e := by
  induction xs with
  | nil => cases h
  | cons x xs ih =>
    rw [List.mapM_cons] at h
    cases hx : f x with
    | error e' =>
      rw [hx] at h
      cases h
      exact ⟨[], x, xs, rfl, by simp, hx⟩
    | ok a =>
      have hrest : xs.mapM f = .error e := by
        rw [hx] at h
        cases hxs : xs.mapM f with
        | error e' =>
          rw [hxs] at h
          cases h
          rfl
        | ok ys =>
          rw [hxs] at h
          cases h
      obtain ⟨before, y, after, rfl, hbefore, hy⟩ := ih hrest
      refine ⟨x :: before, y, after, rfl, ?_, hy⟩
      intro z hz
      rcases List.mem_cons.1 hz with rfl | hz
      · exact ⟨a, hx⟩
      · exact hbefore z hz

theorem mapM_ok_mem {f : β → Except ε α} {xs : List β} {ys : List α} (h : xs.mapM f = .ok ys) {y : α} (hy : y ∈ ys) :
    ∃ x ∈ xs, f x = .ok y := by
  replace h := mapM_eq_ok.1 h
  induction h with
  | nil => cases hy
  | cons hx _ ih =>
    rcases List.mem_cons.1 hy with rfl | hy
    · exact ⟨_, List.mem_cons_self, hx⟩
    · obtain ⟨x, hmem, hfx⟩ := ih hy
      exact ⟨x, List.mem_cons_of_mem _ hmem, hfx⟩

theorem mapM_ok_of_mem {f : β → Except ε α} {xs : List β} {ys : List α} (h : xs.mapM f = .ok ys) {x : β} (hx : x ∈ xs) :
    ∃ y ∈ ys, f x = .ok y := by
  replace h := mapM_eq_ok.1 h
  induction h with
  | nil => cases hx
  | cons hy _ ih =>
    rcases List.mem_cons.1 hx with rfl | hx
    · exact ⟨_, List.mem_cons_self, hy⟩
    · obtain ⟨y, hmem, hfx⟩ := ih hx
      exact ⟨y, List.mem_cons_of_mem _ hmem, hfx⟩

/-- What each element keeps, the list keeps. -/
theorem mapM_ok_map {γ : Type} {f : β → Except ε α} {xs : List β} {ys : List α} {g : α → γ} {k : β → γ}
    (h : xs.mapM f = .ok ys) (hg : ∀ x ∈ xs, ∀ y, f x = .ok y → g y = k x) : ys.map g = xs.map k := by
  replace h := mapM_eq_ok.1 h
  induction h with
  | nil => rfl
  | cons hx _ ih =>
    rw [List.map_cons, List.map_cons, hg _ List.mem_cons_self _ hx, ih fun x hmem => hg x (List.mem_cons_of_mem _ hmem)]

/-- A loop over pure expressions returns what each of them returns. -/
theorem mapEach_ofExcept {f : β → Except ε α} {xs : List β} {ys : List α}
    (h : List.Forall₂ (fun x y => f x = .ok y) xs ys) (s : σ) : mapEach (fun x => ofExcept (f x)) xs s = (.ok ys, s) := by
  induction h with
  | nil => rfl
  | cons hx _ ih =>
    rename_i x y xs ys hxs
    have hstep : (ofExcept (f x) : Eff σ ε α) s = (.ok y, s) := by rw [ofExcept_run, hx]
    unfold mapEach
    rw [bind_ok hstep, bind_ok ih]
    rfl

/-- A loop whose turns all return: each result is what its turn returns in the state that the turns before it leave. -/
theorem mapEach_total {f : β → Eff σ ε α} {g : β → σ → α} {xs : List β} (h : ∀ x ∈ xs, ∀ s, (f x s).1 = .ok (g x s))
    (s : σ) :
    ∃ ys, (mapEach f xs s).1 = .ok ys ∧ ys.length = xs.length ∧
      ∀ j x, xs[j]? = some x → ys[j]? = some (g x (mapEach f (xs.take j) s).2) := by
  induction xs generalizing s with
  | nil => exact ⟨[], rfl, rfl, by simp⟩
  | cons x xs ih =>
    have hx : f x s = (.ok (g x s), (f x s).2) := Prod.ext (h x List.mem_cons_self s) rfl
    obtain ⟨ys, hys, hlength, hat⟩ := ih (fun x' hx' => h x' (List.mem_cons_of_mem _ hx')) (f x s).2
    have hrest : mapEach f xs (f x s).2 = (.ok ys, (mapEach f xs (f x s).2).2) := Prod.ext hys rfl
    refine ⟨g x s :: ys, ?_, congrArg (· + 1) hlength, ?_⟩
    · unfold mapEach
      rw [bind_ok hx, bind_ok hrest]
      rfl
    · intro j x' hj
      cases j with
      | zero =>
        cases hj
        rfl
      | succ j =>
        -- the turns before the result at `j + 1` are the first turn and the turns before the one at `j`
        have htake : (mapEach f (x :: xs.take j) s).2 = (mapEach f (xs.take j) (f x s).2).2 := by
          conv_lhs => unfold mapEach
          rw [bind_ok hx, bind_run]
          rcases mapEach f (xs.take j) (f x s).2 with ⟨e | zs, t⟩ <;> rfl
        rw [List.take_succ_cons, htake]
        exact hat j x' hj

theorem exists_forall₂ {R : β → α → Prop} {xs : List β} (h : ∀ x ∈ xs, ∃ y, R x y) : ∃ ys, List.Forall₂ R xs ys := by
  induction xs with
  | nil => exact ⟨[], .nil⟩
  | cons x xs ih =>
    obtain ⟨y, hy⟩ := h x List.mem_cons_self
    obtain ⟨ys, hys⟩ := ih fun x' hx' => h x' (List.mem_cons_of_mem _ hx')
    exact ⟨y :: ys, .cons hy hys⟩

/-- What holds of each element exactly when something holds of its counterpart holds of all of them exactly then. -/
theorem forall_mem_iff_of_forall₂ {p : β → Prop} {q : α → Prop} {xs : List β} {ys : List α}
    (h : List.Forall₂ (fun x y => q y ↔ p x) xs ys) : (∀ y ∈ ys, q y) ↔ ∀ x ∈ xs, p x := by
  induction h with
  | nil => simp
  | cons hx _ ih => simp only [List.forall_mem_cons, hx, ih]

theorem exists_mem_iff_of_forall₂ {p : β → Prop} {q : α → Prop} {xs : List β} {ys : List α}
    (h : List.Forall₂ (fun x y => q y ↔ p x) xs ys) : (∃ y ∈ ys, q y) ↔ ∃ x ∈ xs, p x := by
  induction h with
  | nil => simp
  | cons hx _ ih => simp only [List.mem_cons, exists_eq_or_imp, hx, ih]

/-- The values of a list of pure expressions are those that one of them returns. -/
theorem mem_of_mapM {f : β → Except ε α} {xs : List β} {ys : List α} (h : xs.mapM f = .ok ys) {y : α} :
    y ∈ ys ↔ ∃ x ∈ xs, f x = .ok y := by
  have hrel : List.Forall₂ (fun x y' => y' = y ↔ f x = .ok y) xs ys := by
    refine (mapM_eq_ok.1 h).imp fun x y' hx => ?_
    rw [hx, Except.ok.injEq]
  rw [← exists_mem_iff_of_forall₂ hrel]
  simp

theorem mapM_ok_iff {f : β → Except ε α} {xs : List β} : (∃ ys, xs.mapM f = .ok ys) ↔ ∀ x ∈ xs, ∃ y, f x = .ok y := by
  constructor
  · rintro ⟨ys, h⟩
    replace h := mapM_eq_ok.1 h
    induction h with
    | nil => simp
    | cons hx _ ih => exact List.forall_mem_cons.2 ⟨⟨_, hx⟩, ih⟩
  · intro h
    obtain ⟨ys, hys⟩ := exists_forall₂ h
    exact ⟨ys, mapM_eq_ok.2 hys⟩

/-- Related lists are empty, or have related last elements. -/
theorem getLast?_of_forall₂ {R : β → α → Prop} {xs : List β} {ys : List α} (h : List.Forall₂ R xs ys) :
    xs = [] ∧ ys = [] ∨ ∃ x y, xs.getLast? = some x ∧ ys.getLast? = some y ∧ R x y := by
  induction h with
  | nil => exact .inl ⟨rfl, rfl⟩
  | cons hx _ ih =>
    rcases ih with ⟨rfl, rfl⟩ | ⟨x, y, hxs, hys, hr⟩
    · exact .inr ⟨_, _, rfl, rfl, hx⟩
    · refine .inr ⟨x, y, ?_, ?_, hr⟩
      · rw [List.getLast?_cons, hxs]
        rfl
      · rw [List.getLast?_cons, hys]
        rfl

/-! ### Outcomes that do not depend on the state -/

/-- The computation returns or raises `x`, whatever the state is. -/
def Yields (m : Eff σ ε α) (x : Except ε α) : Prop := ∀ s, (m s).1 = x

theorem Yields.pure (a : α) : Yields (Pure.pure a : Eff σ ε α) (.ok a) := fun _ => rfl

theorem Yields.raise (e : ε) : Yields (Eff.raise e : Eff σ ε α) (.error e) := fun _ => rfl

theorem Yields.ofExcept (x : Except ε α) : Yields (Eff.ofExcept x : Eff σ ε α) x := fun _ => rfl

theorem Yields.bind {m : Eff σ ε α} {f : α → Eff σ ε β} {a : α} {x : Except ε β} (hm : Yields m (.ok a))
    (hf : Yields (f a) x) : Yields (m >>= f) x := by
  intro s
  have hs : m s = (.ok a, (m s).2) := Prod.ext (hm s) rfl
  rw [bind_ok hs]
  exact hf _

theorem Yields.bind_error {m : Eff σ ε α} {e : ε} (hm : Yields m (.error e)) (f : α → Eff σ ε β) :
    Yields (m >>= f) (.error e) := by
  intro s
  have hs : m s = (.error e, (m s).2) := Prod.ext (hm s) rfl
  rw [Eff.bind_error hs]

theorem Yields.tryExcept {m : Eff σ ε α} {a : α} (hm : Yields m (.ok a)) (h : ε → Eff σ ε' α) :
    Yields (Eff.tryExcept m h) (.ok a) := by
  intro s
  have hs : m s = (.ok a, (m s).2) := Prod.ext (hm s) rfl
  unfold Eff.tryExcept
  rw [hs]

theorem Yields.tryExcept_error {m : Eff σ ε α} {e : ε} {h : ε → Eff σ ε' α} {x : Except ε' α} (hm : Yields m (.error e))
    (hh : Yields (h e) x) : Yields (Eff.tryExcept m h) x := by
  intro s
  have hs : m s = (.error e, (m s).2) := Prod.ext (hm s) rfl
  unfold Eff.tryExcept
  rw [hs]
  exact hh _

/-! ### Triples -/

/-- What holds of an outcome: `Q` of a return, `E` of an exception. -/
def Outcome (Q : α → σ → Prop) (E : ε → σ → Prop) : Except ε α × σ → Prop
  | (.ok a, s) => Q a s
  | (.error e, s) => E e s

@[simp] theorem outcome_ok (Q : α → σ → Prop) (E : ε → σ → Prop) (a : α) (s : σ) :
    Outcome Q E (.ok a, s) = Q a s := rfl

@[simp] theorem outcome_error (Q : α → σ → Prop) (E : ε → σ → Prop) (e : ε) (s : σ) :
    Outcome Q E (.error e, s) = E e s := rfl

/-- Run from a state with `P`, a return of `m` ends in `Q` and an exception of `m` ends in `E`. -/
def Triple (P : σ → Prop) (m : Eff σ ε α) (Q : α → σ → Prop) (E : ε → σ → Prop) : Prop :=
  ∀ s, P s → Outcome Q E (m s)

variable {P P' : σ → Prop} {Q Q' : α → σ → Prop} {R : β → σ → Prop} {E E' : ε → σ → Prop}

theorem Triple.weaken {m : Eff σ ε α} (h : Triple P m Q E) (hP : ∀ s, P' s → P s)
    (hQ : ∀ a s, Q a s → Q' a s) (hE : ∀ e s, E e s → E' e s) : Triple P' m Q' E' := by
  intro s hs
  have := h s (hP s hs)
  rcases hm : m s with ⟨e | a, s'⟩ <;> rw [hm] at this
  · exact hE e s' this
  · exact hQ a s' this

/-- A condition that does not mention the state can be assumed. -/
theorem Triple.assume {φ : Prop} {m : Eff σ ε α} (h : φ → Triple P m Q E) : Triple (fun s => φ ∧ P s) m Q E :=
  fun s hs => h hs.1 s hs.2

theorem Triple.pure {a : α} (h : ∀ s, P s → Q a s) : Triple P (Pure.pure a : Eff σ ε α) Q E :=
  fun s hs => h s hs

theorem Triple.raise {e : ε} (h : ∀ s, P s → E e s) : Triple P (Eff.raise e : Eff σ ε α) Q E :=
  fun s hs => h s hs

theorem Triple.get {Q : σ → σ → Prop} (h : ∀ s, P s → Q s s) : Triple P (Eff.get : Eff σ ε σ) Q E :=
  fun s hs => h s hs

theorem Triple.modify {f : σ → σ} {Q : Unit → σ → Prop} (h : ∀ s, P s → Q () (f s)) :
    Triple P (Eff.modify f : Eff σ ε Unit) Q E :=
  fun s hs => h s hs

theorem Triple.step {f : σ → α × σ} (h : ∀ s, P s → Q (f s).1 (f s).2) :
    Triple P (Eff.step f : Eff σ ε α) Q E :=
  fun s hs => h s hs

theorem Triple.ofExcept {x : Except ε α} (hQ : ∀ a s, x = .ok a → P s → Q a s)
    (hE : ∀ e s, x = .error e → P s → E e s) : Triple P (Eff.ofExcept x : Eff σ ε α) Q E := by
  intro s hs
  cases x with
  | ok a => exact hQ a s rfl hs
  | error e => exact hE e s rfl hs

theorem Triple.bind {m : Eff σ ε α} {f : α → Eff σ ε β} (hm : Triple P m Q E)
    (hf : ∀ a, Triple (Q a) (f a) R E) : Triple P (m >>= f) R E := by
  intro s hs
  have h := hm s hs
  rw [bind_run]
  rcases hr : m s with ⟨e | a, s'⟩ <;> rw [hr] at h
  · exact h
  · exact hf a s' h

theorem Triple.ite {c : Prop} [Decidable c] {m n : Eff σ ε α} (hm : c → Triple P m Q E)
    (hn : ¬ c → Triple P n Q E) : Triple P (if c then m else n) Q E := by
  split
  · exact hm ‹_›
  · exact hn ‹_›

/-- The handler starts wherever an exception of the body leaves the state. -/
theorem Triple.tryExcept {m : Eff σ ε α} {h : ε → Eff σ ε' α} {F : ε' → σ → Prop} (hm : Triple P m Q E)
    (hh : ∀ e, Triple (E e) (h e) Q F) : Triple P (Eff.tryExcept m h) Q F := by
  intro s hs
  have := hm s hs
  unfold Eff.tryExcept
  rcases hr : m s with ⟨e | a, s'⟩ <;> rw [hr] at this
  · exact hh e s' this
  · exact this

/-- The clean-up starts wherever the body ends, and has to restore both postconditions. -/
theorem Triple.tryFinally {m : Eff σ ε α} {c : Eff σ ε Unit} {M : Except ε α → σ → Prop}
    (hm : Triple P m (fun a => M (.ok a)) (fun e => M (.error e)))
    (hc : ∀ r, Triple (M r) c (fun _ s => Outcome Q E (r, s)) E) : Triple P (Eff.tryFinally m c) Q E := by
  intro s hs
  have h := hm s hs
  unfold Eff.tryFinally
  rcases hr : m s with ⟨e | a, s'⟩ <;> rw [hr] at h <;> simp only
  · have h' := hc (.error e) s' h
    rcases hr' : c s' with ⟨e' | u, s''⟩ <;> rw [hr'] at h' <;> exact h'
  · have h' := hc (.ok a) s' h
    rcases hr' : c s' with ⟨e' | u, s''⟩ <;> rw [hr'] at h' <;> exact h'

/-- The loop rule: `I done rest` holds when the elements `done` are behind and `rest` are ahead. -/
theorem Triple.forEach {f : β → Eff σ ε Unit} {I : List β → List β → σ → Prop}
    (hf : ∀ done x rest, Triple (I done (x :: rest)) (f x) (fun _ => I (done ++ [x]) rest) E) :
    ∀ (done xs : List β), Triple (I done xs) (Eff.forEach f xs) (fun _ => I (done ++ xs) []) E := by
  intro done xs
  induction xs generalizing done with
  | nil => exact Triple.pure fun s hs => by simpa using hs
  | cons x xs ih =>
    refine Triple.bind (hf done x xs) fun _ => ?_
    simpa using ih (done ++ [x])

/-- The loop rule for an invariant that does not mention the position. -/
theorem Triple.forEach_invariant {f : β → Eff σ ε Unit} {I : σ → Prop} {xs : List β}
    (hf : ∀ x ∈ xs, Triple I (f x) (fun _ => I) E) : Triple I (Eff.forEach f xs) (fun _ => I) E := by
  induction xs with
  | nil => exact Triple.pure fun _ hs => hs
  | cons x xs ih =>
    refine Triple.bind (hf x (List.mem_cons_self ..)) fun _ => ?_
    exact ih fun y hy => hf y (List.mem_cons_of_mem _ hy)

/-! ### Invariants -/

/-- The computation keeps the invariant, whether it returns or raises. -/
def Preserves (I : σ → Prop) (m : Eff σ ε α) : Prop := Triple I m (fun _ => I) (fun _ => I)

variable {I : σ → Prop}

theorem Preserves.pure (a : α) : Preserves I (Pure.pure a : Eff σ ε α) := Triple.pure fun _ hs => hs

theorem Preserves.raise (e : ε) : Preserves I (Eff.raise e : Eff σ ε α) := Triple.raise fun _ hs => hs

theorem Preserves.ofExcept (x : Except ε α) : Preserves I (Eff.ofExcept x : Eff σ ε α) :=
  Triple.ofExcept (fun _ _ _ hs => hs) fun _ _ _ hs => hs

theorem Preserves.bind {m : Eff σ ε α} {f : α → Eff σ ε β} (hm : Preserves I m) (hf : ∀ a, Preserves I (f a)) :
    Preserves I (m >>= f) :=
  Triple.bind hm hf

theorem Preserves.tryExcept {m : Eff σ ε α} {h : ε → Eff σ ε' α} (hm : Preserves I m)
    (hh : ∀ e, Preserves I (h e)) : Preserves I (Eff.tryExcept m h) :=
  Triple.tryExcept hm hh

end Eff

end PyLib

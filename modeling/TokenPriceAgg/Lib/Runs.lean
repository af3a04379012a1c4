import Mathlib.Init

/-!
# Runs of a partial step function

A system is a function `step : S → L → Option S`: `none` means that the label is not enabled.  `run` follows a list
of labels, `Along p` says that every step of a run satisfies `p`, `Always I` that every state of it satisfies `I`, and
`run_invariant` carries what one step preserves to the whole run.
-/

namespace PyLib

variable {S L : Type}

/-- Follow the labels in order. -/
def run (step : S → L → Option S) : S → List L → Option S
  | s, [] => some s
  | s, l :: ls => (step s l).bind fun s' => run step s' ls

/-- Every step of the run that is taken satisfies `p`. -/
def Along (step : S → L → Option S) (p : S → L → Prop) : S → List L → Prop
  | _, [] => True
  | s, l :: ls => p s l ∧ ∀ s', step s l = some s' → Along step p s' ls

variable {step : S → L → Option S} {p : S → L → Prop} {I : S → Prop}

@[simp] theorem run_nil (s : S) : run step s [] = some s := rfl

theorem run_cons {s s'' : S} {l : L} {ls : List L} :
    run step s (l :: ls) = some s'' ↔ ∃ s', step s l = some s' ∧ run step s' ls = some s'' :=
  Option.bind_eq_some_iff

theorem run_append {s s'' : S} {ls ls' : List L} :
    run step s (ls ++ ls') = some s'' ↔ ∃ s', run step s ls = some s' ∧ run step s' ls' = some s'' := by
  induction ls generalizing s with
  | nil => simp
  | cons l ls ih =>
    rw [List.cons_append, run_cons]
    constructor
    · rintro ⟨s₁, h₁, h⟩
      obtain ⟨s', hr, h⟩ := ih.1 h
      exact ⟨s', run_cons.2 ⟨s₁, h₁, hr⟩, h⟩
    · rintro ⟨s', hr, h⟩
      obtain ⟨s₁, h₁, hr⟩ := run_cons.1 hr
      exact ⟨s₁, h₁, ih.2 ⟨s', hr, h⟩⟩

/-- What every step satisfying `p` preserves holds at the end of a run along `p`. -/
theorem run_invariant_along (hstep : ∀ s l s', I s → p s l → step s l = some s' → I s') :
    ∀ {s s' : S} {ls : List L}, I s → Along step p s ls → run step s ls = some s' → I s' := by
  intro s s' ls
  induction ls generalizing s with
  | nil => intro hi _ hr; cases hr; exact hi
  | cons l ls ih =>
    intro hi ha hr
    obtain ⟨s₁, h₁, h⟩ := run_cons.1 hr
    exact ih (hstep s l s₁ hi ha.1 h₁) (ha.2 s₁ h₁) h

/-- What each of the labels satisfies whatever the state is holds along their run. -/
theorem along_of_mem {ls : List L} (hp : ∀ l ∈ ls, ∀ s, p s l) (s : S) : Along step p s ls := by
  induction ls generalizing s with
  | nil => trivial
  | cons l ls ih =>
    exact ⟨hp l List.mem_cons_self s, fun s' _ => ih (fun l' hl' => hp l' (List.mem_cons_of_mem _ hl')) s'⟩

/-- What every step satisfies whatever the state is holds along every run. -/
theorem along_of_forall (hp : ∀ s l, p s l) (s : S) (ls : List L) : Along step p s ls :=
  along_of_mem (fun l _ s => hp s l) s

theorem Along.and {q : S → L → Prop} {s : S} {ls : List L} (hp : Along step p s ls) (hq : Along step q s ls) :
    Along step (fun s l => p s l ∧ q s l) s ls := by
  induction ls generalizing s with
  | nil => trivial
  | cons l ls ih => exact ⟨⟨hp.1, hq.1⟩, fun s' h' => ih (hp.2 s' h') (hq.2 s' h')⟩

/-- Whether a run is along a condition can be computed by following it. -/
instance decidableAlong [∀ s l, Decidable (p s l)] : (s : S) → (ls : List L) → Decidable (Along step p s ls)
  | _, [] => .isTrue trivial
  | s, l :: ls =>
    have hrest : Decidable (∀ s' ∈ step s l, Along step p s' ls) :=
      @Option.decidableForallMem _ _ (fun s' => decidableAlong s' ls) (step s l)
    @instDecidableAnd _ _ inferInstance hrest

/-- After the first labels a run along `p` goes on along it. -/
theorem Along.after {s s' : S} {pre ls : List L} (h : Along step p s (pre ++ ls)) (hr : run step s pre = some s') :
    Along step p s' ls := by
  induction pre generalizing s with
  | nil =>
    cases hr
    exact h
  | cons l pre ih =>
    obtain ⟨s₁, h₁, hr⟩ := run_cons.1 hr
    exact ih (h.2 s₁ h₁) hr

theorem Along.append {s : S} {ls ls' : List L} (h : Along step p s ls)
    (h' : ∀ s', run step s ls = some s' → Along step p s' ls') : Along step p s (ls ++ ls') := by
  induction ls generalizing s with
  | nil => exact h' s rfl
  | cons l ls ih => exact ⟨h.1, fun s₁ h₁ => ih (h.2 s₁ h₁) fun s' hr => h' s' (run_cons.2 ⟨s₁, h₁, hr⟩)⟩

/-- What every step preserves holds at the end of a run. -/
theorem run_invariant (hstep : ∀ s l s', I s → step s l = some s' → I s') {s s' : S} {ls : List L}
    (hi : I s) (hr : run step s ls = some s') : I s' := by
  have ha : Along step (fun _ _ => True) s ls := along_of_forall (fun _ _ => trivial) s ls
  exact run_invariant_along (fun s l s' hs _ h => hstep s l s' hs h) hi ha hr

/-- `I` holds in every state that a run along the labels reaches. -/
def Always (step : S → L → Option S) (I : S → Prop) (s : S) (ls : List L) : Prop :=
  ∀ pre, pre <+: ls → ∀ s', run step s pre = some s' → I s'

private theorem always_nil {s : S} : Always step I s [] ↔ I s := by
  constructor
  · intro h
    exact h [] (List.prefix_refl _) s rfl
  · intro h pre hp s' hr
    rw [List.prefix_nil.1 hp] at hr
    cases hr
    exact h

private theorem always_cons {s : S} {l : L} {ls : List L} :
    Always step I s (l :: ls) ↔ I s ∧ ∀ s', step s l = some s' → Always step I s' ls := by
  constructor
  · intro h
    refine ⟨h [] List.nil_prefix s rfl, fun s₁ h₁ pre hp s' hr => ?_⟩
    exact h (l :: pre) (List.cons_prefix_cons.2 ⟨rfl, hp⟩) s' (run_cons.2 ⟨s₁, h₁, hr⟩)
  · rintro ⟨hs, h⟩ pre hp s' hr
    rcases List.prefix_cons_iff.1 hp with rfl | ⟨pre', rfl, hp'⟩
    · cases hr
      exact hs
    · obtain ⟨s₁, h₁, hr⟩ := run_cons.1 hr
      exact h s₁ h₁ pre' hp' s' hr

/-- What every step satisfying `p` preserves holds throughout a run along `p`. -/
theorem Along.always (hstep : ∀ s l s', I s → p s l → step s l = some s' → I s') {s : S} {ls : List L} (hi : I s)
    (h : Along step p s ls) : Always step I s ls := by
  induction ls generalizing s with
  | nil => exact always_nil.2 hi
  | cons l ls ih => exact always_cons.2 ⟨hi, fun s' h' => ih (hstep s l s' hi h.1 h') (h.2 s' h')⟩

/-- Every step begins in such a state. -/
theorem Always.along {s : S} {ls : List L} (h : Always step I s ls) : Along step (fun s _ => I s) s ls := by
  induction ls generalizing s with
  | nil => trivial
  | cons l ls ih =>
    obtain ⟨hs, hrest⟩ := always_cons.1 h
    exact ⟨hs, fun s' h' => ih (hrest s' h')⟩

/-- Let `I` be kept by the steps that satisfy `p` and imply `J`.  When a step that leads to `J` satisfies `p`, a run
from `I` has `J` throughout exactly if it is along `p`. -/
theorem always_iff_along {J : S → Prop} (hJ : ∀ s, I s → J s)
    (hstep : ∀ s l s', I s → p s l → step s l = some s' → I s')
    (hback : ∀ s l, I s → (∀ s', step s l = some s' → J s') → p s l) {s : S} {ls : List L} (hi : I s) :
    Always step J s ls ↔ Along step p s ls := by
  induction ls generalizing s with
  | nil => exact always_nil.trans (iff_of_true (hJ s hi) trivial)
  | cons l ls ih =>
    rw [always_cons]
    constructor
    · rintro ⟨-, h⟩
      have hp : p s l := hback s l hi fun s' h' => h s' h' [] List.nil_prefix s' rfl
      exact ⟨hp, fun s' h' => (ih (hstep s l s' hi hp h')).1 (h s' h')⟩
    · rintro ⟨hp, h⟩
      exact ⟨hJ s hi, fun s' h' => (ih (hstep s l s' hi hp h')).2 (h s' h')⟩

/-- `R` relates every state that a run along the labels reaches to every later one. -/
def Between (step : S → L → Option S) (R : S → S → Prop) (s : S) (ls : List L) : Prop :=
  ∀ pre mid, pre ++ mid <+: ls → ∀ s₁ s₂, run step s pre = some s₁ → run step s₁ mid = some s₂ → R s₁ s₂

/-- Two conditions on steps that agree wherever the invariant holds have the same runs along them. -/
theorem along_congr {q : S → L → Prop} (hstep : ∀ s l s', I s → step s l = some s' → I s')
    (hpq : ∀ s l, I s → (p s l ↔ q s l)) {s : S} {ls : List L} (hi : I s) : Along step p s ls ↔ Along step q s ls := by
  induction ls generalizing s with
  | nil => exact Iff.rfl
  | cons l ls ih =>
    refine and_congr (hpq s l hi) (forall_congr' fun s' => ?_)
    exact forall_congr' fun h' => ih (hstep s l s' hi h')

/-- A run along `p` is along whatever `p` and the invariant that its steps keep imply. -/
theorem along_of_invariant {q : S → L → Prop} (hstep : ∀ s l s', I s → p s l → step s l = some s' → I s')
    (hpq : ∀ s l, I s → p s l → q s l) {s : S} {ls : List L} (hi : I s) (h : Along step p s ls) :
    Along step q s ls := by
  induction ls generalizing s with
  | nil => trivial
  | cons l ls ih => exact ⟨hpq s l hi h.1, fun s' h' => ih (hstep s l s' hi h.1 h') (h.2 s' h')⟩

/-- A reflexive and transitive relation that holds of the two ends of every step holds between any two states. -/
theorem between_iff_steps {R : S → S → Prop} (hrefl : ∀ s, R s s) (htrans : ∀ s₁ s₂ s₃, R s₁ s₂ → R s₂ s₃ → R s₁ s₃)
    {s : S} {ls : List L} : Between step R s ls ↔ Along step (fun s l => ∀ s', step s l = some s' → R s s') s ls := by
  have ends {s s' : S} {ls ls' : List L} (h : Along step (fun s l => ∀ s', step s l = some s' → R s s') s ls)
      (hp : ls' <+: ls) (hr : run step s ls' = some s') : R s s' := by
    induction ls' generalizing s ls with
    | nil =>
      obtain rfl : s = s' := Option.some.inj hr
      exact hrefl s
    | cons l ls' ih =>
      obtain ⟨s₁, h₁, hr⟩ := run_cons.1 hr
      obtain ⟨ls, rfl⟩ : ∃ ls₁, ls = l :: ls₁ := by
        obtain ⟨post, rfl⟩ := hp
        exact ⟨_, rfl⟩
      exact htrans s s₁ s' (h.1 s₁ h₁) (ih (h.2 s₁ h₁) (List.cons_prefix_cons.1 hp).2 hr)
  constructor
  · intro h
    induction ls generalizing s with
    | nil => trivial
    | cons l ls ih =>
      refine ⟨fun s' h' => ?_, fun s₁ h₁ => ih fun pre mid hp s' s'' hr hr' => ?_⟩
      · exact h [] [l] (List.prefix_append [l] ls) s s' rfl (run_cons.2 ⟨s', h', rfl⟩)
      · exact h (l :: pre) mid (List.cons_prefix_cons.2 ⟨rfl, hp⟩) s' s'' (run_cons.2 ⟨s₁, h₁, hr⟩) hr'
  · intro h pre mid hp s₁ s₂ hr hr'
    induction pre generalizing s ls with
    | nil =>
      obtain rfl : s = s₁ := Option.some.inj hr
      exact ends h hp hr'
    | cons l pre ih =>
      obtain ⟨s', h', hr⟩ := run_cons.1 hr
      obtain ⟨ls, rfl⟩ : ∃ ls₁, ls = l :: ls₁ := by
        obtain ⟨post, rfl⟩ := hp
        exact ⟨_, rfl⟩
      exact ih (h.2 s' h') (List.cons_prefix_cons.1 hp).2 hr

end PyLib

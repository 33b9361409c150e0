import LanWeave.Library.Always

/-! A program over one set of operations as a program over a larger one, and programs whose
operations, run alone, never change the state. -/

namespace LanWeave.Library.Prog
variable {ι ι' : Type} {ρ : ι → Type} {ρ' : ι' → Type} {α β ε σ σ' : Type}

/-- The same program, its operations taken as those of a larger interface. -/
def lift (f : ι → ι') : Prog ι (fun i => ρ' (f i)) α → Prog ι' ρ' α
  | pure a => pure a
  | op i k => op (f i) fun r => (k r).lift f

section
variable {f : ι → ι'} {sem : Semantics ι (fun i => ρ' (f i)) ε σ} {sem' : Semantics ι' ρ' ε σ'}
  (view : σ' → σ)

/-- Where the larger state shows the smaller one, the lifted program does what the program does. -/
theorem always_lift (hsem : ∀ i e s, (sem' (f i) e s).1 = (sem i e (view s)).1 ∧
      view (sem' (f i) e s).2 = (sem i e (view s)).2)
    {p : Prog ι (fun i => ρ' (f i)) α} {s : σ'} {Q : α → σ → Prop} (h : p.Always sem (view s) Q) :
    (p.lift f).Always sem' s fun a s' => Q a (view s') := by
  induction p generalizing s with
  | pure a => exact h
  | op i k ih =>
    intro e
    obtain ⟨hres, hview⟩ := hsem i e s
    apply ih
    rw [hres, hview]
    exact h e

end

theorem run_lift {f : ι → ι'} {sem : Semantics ι (fun i => ρ' (f i)) ε σ} {sem' : Semantics ι' ρ' ε σ'}
    {view : σ' → σ} (hsem : ∀ i e s, (sem' (f i) e s).1 = (sem i e (view s)).1 ∧
      view (sem' (f i) e s).2 = (sem i e (view s)).2)
    (p : Prog ι (fun i => ρ' (f i)) α) (e : ε) (s : σ') :
    ((p.lift f).run sem' e s).1 = (p.run sem e (view s)).1 := by
  induction p generalizing s with
  | pure a => rfl
  | op i k ih =>
    obtain ⟨hres, hview⟩ := hsem i e s
    show ((lift f (k (sem' (f i) e s).1)).run sem' e (sem' (f i) e s).2).1 = _
    rw [ih, hres, hview]
    rfl

theorem run_lift_view {f : ι → ι'} {sem : Semantics ι (fun i => ρ' (f i)) ε σ}
    {sem' : Semantics ι' ρ' ε σ'} {view : σ' → σ}
    (hsem : ∀ i e s, (sem' (f i) e s).1 = (sem i e (view s)).1 ∧
      view (sem' (f i) e s).2 = (sem i e (view s)).2)
    (p : Prog ι (fun i => ρ' (f i)) α) (e : ε) (s : σ') :
    view ((p.lift f).run sem' e s).2 = (p.run sem e (view s)).2 := by
  induction p generalizing s with
  | pure a => rfl
  | op i k ih =>
    obtain ⟨hres, hview⟩ := hsem i e s
    show view ((lift f (k (sem' (f i) e s).1)).run sem' e (sem' (f i) e s).2).2 = _
    rw [ih, hres, hview]
    rfl

/-- Every operation on the way leaves the state alone, and the answer is in `R`. -/
def Idle (sem : Semantics ι ρ ε σ) (s : σ) : Prog ι ρ α → (α → Prop) → Prop
  | pure a, R => R a
  | op i k, R => ∀ e, (sem i e s).2 = s ∧ Idle sem s (k (sem i e s).1) R

section
variable {sem : Semantics ι ρ ε σ} {s : σ} {p : Prog ι ρ α} {R R' : α → Prop}

theorem Idle.mono (h : p.Idle sem s R) (hR : ∀ a, R a → R' a) : p.Idle sem s R' := by
  induction p with
  | pure a => exact hR a h
  | op i k ih => exact fun e => ⟨(h e).1, ih _ (h e).2⟩

theorem Idle.bind {f : α → Prog ι ρ β} {R : β → Prop} (h : p.Idle sem s fun a => (f a).Idle sem s R) :
    (p >>= f).Idle sem s R := by
  induction p with
  | pure a => exact h
  | op i k ih => exact fun e => ⟨(h e).1, ih _ (h e).2⟩

theorem Idle.always (h : p.Idle sem s R) : p.Always sem s fun a s' => R a ∧ s' = s := by
  induction p with
  | pure a => exact ⟨h, rfl⟩
  | op i k ih =>
    intro e
    obtain ⟨hsame, hrest⟩ := h e
    rw [hsame]
    exact ih _ hrest

end

/-- Whatever its operations answer, the program ends in `R`. -/
def Returns (R : α → Prop) : Prog ι ρ α → Prop
  | pure a => R a
  | op _ k => ∀ r, Returns R (k r)

section
variable {sem : Semantics ι ρ ε σ} {s : σ} {p : Prog ι ρ α} {R : α → Prop}

theorem returns_of_forall (h : ∀ a, R a) : p.Returns R := by
  induction p with
  | pure a => exact h a
  | op i k ih => exact ih

theorem Returns.imp {R' : α → Prop} (h : p.Returns R) (himp : ∀ a, R a → R' a) : p.Returns R' := by
  induction p with
  | pure a => exact himp a h
  | op i k ih => exact fun r => ih r (h r)

theorem Returns.bind {f : α → Prog ι ρ β} {R : β → Prop} (h : p.Returns fun a => (f a).Returns R) :
    (p >>= f).Returns R := by
  induction p with
  | pure a => exact h
  | op i k ih => exact fun r => ih r (h r)

theorem returns_bind_right {f : α → Prog ι ρ β} {R : β → Prop} (h : ∀ a, (f a).Returns R) :
    (p >>= f).Returns R := Returns.bind (returns_of_forall h)

theorem Returns.always (h : p.Returns R) : p.Always sem s fun a _ => R a := by
  induction p generalizing s with
  | pure a => exact h
  | op i k ih => exact fun e => ih _ (h _)

theorem only_lift {ok : ι' → Prop} {f : ι → ι'} (hok : ∀ i, ok (f i))
    (p : Prog ι (fun i => ρ' (f i)) α) : (p.lift f).Only ok := by
  induction p with
  | pure a => trivial
  | op i k ih => exact ⟨hok i, ih⟩

theorem Returns.lift {f : ι → ι'} {p : Prog ι (fun i => ρ' (f i)) α} (h : p.Returns R) :
    (p.lift f).Returns R := by
  induction p with
  | pure a => exact h
  | op i k ih => exact fun r => ih r (h r)

end

theorem Idle.lift {f : ι → ι'} {sem : Semantics ι (fun i => ρ' (f i)) ε σ}
    {sem' : Semantics ι' ρ' ε σ'} (view : σ' → σ) {s : σ'}
    (hsem : ∀ i e, (sem' (f i) e s).1 = (sem i e (view s)).1 ∧
      ((sem i e (view s)).2 = view s → (sem' (f i) e s).2 = s))
    {p : Prog ι (fun i => ρ' (f i)) α} {R : α → Prop} (h : p.Idle sem (view s) R) :
    (p.lift f).Idle sem' s R := by
  induction p with
  | pure a => exact h
  | op i k ih =>
    intro e
    obtain ⟨hres, hstay⟩ := hsem i e
    obtain ⟨hsame, hrest⟩ := h e
    refine ⟨hstay hsame, ?_⟩
    apply ih
    rw [hres]
    exact hrest

end LanWeave.Library.Prog

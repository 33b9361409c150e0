import LanWeave.Library.Program

/-! The weakest precondition of a program run alone whose operations the environment may answer
in any way it can choose. -/

namespace LanWeave.Library.Prog
variable {ι : Type} {ρ : ι → Type} {α β ε σ : Type}

def Always (sem : Semantics ι ρ ε σ) : Prog ι ρ α → σ → (α → σ → Prop) → Prop
  | pure a, s, Q => Q a s
  | op i k, s, Q => ∀ e, Always sem (k (sem i e s).1) (sem i e s).2 Q

variable {sem : Semantics ι ρ ε σ} {p : Prog ι ρ α} {s : σ} {Q Q' : α → σ → Prop}

theorem always_iff_runs : p.Always sem s Q ↔ ∀ tr a s', p.Runs sem s tr a s' → Q a s' := by
  induction p generalizing s with
  | pure a =>
    constructor
    · rintro h _ _ _ ⟨rfl, rfl, rfl⟩
      exact h
    · exact fun h => h [] a s ⟨rfl, rfl, rfl⟩
  | op i k ih =>
    simp only [Always, ih]
    constructor
    · rintro h _ a s' ⟨e, tr, rfl, hrun⟩
      exact h e tr a s' hrun
    · intro h e tr a s' hrun
      exact h ((i, e) :: tr) a s' ⟨e, tr, rfl, hrun⟩

theorem Always.mono (h : p.Always sem s Q) (hQ : ∀ a s', Q a s' → Q' a s') :
    p.Always sem s Q' := by
  induction p generalizing s with
  | pure a => exact hQ a s h
  | op i k ih => exact fun e => ih _ (h e)

theorem Always.and (h : p.Always sem s Q) (h' : p.Always sem s Q') :
    p.Always sem s fun a s' => Q a s' ∧ Q' a s' := by
  induction p generalizing s with
  | pure a => exact ⟨h, h'⟩
  | op i k ih => exact fun e => ih _ (h e) (h' e)

theorem Only.always {ok : ι → Prop} {I : σ → Prop} (hp : p.Only ok)
    (hI : ∀ i, ok i → ∀ e s, I s → I (sem i e s).2) (hs : I s) : p.Always sem s fun _ s' => I s' := by
  induction p generalizing s with
  | pure a => exact hs
  | op i k ih => exact fun e => ih _ (hp.2 _) (hI i hp.1 e s hs)

theorem OnlyGiven.always {sane : (i : ι) → ρ i → Prop} {ok : ι → Prop} {I : σ → Prop}
    (hp : p.OnlyGiven sane ok) (hsane : ∀ i e s, sane i (sem i e s).1)
    (hI : ∀ i, ok i → ∀ e s, I s → I (sem i e s).2) (hs : I s) : p.Always sem s fun _ s' => I s' := by
  induction p generalizing s with
  | pure a => exact hs
  | op i k ih => exact fun e => ih _ (hp.2 _ (hsane i e s)) (hI i hp.1 e s hs)

theorem always_bind {f : α → Prog ι ρ β} {Q : β → σ → Prop} :
    (p >>= f).Always sem s Q ↔ p.Always sem s fun a s' => (f a).Always sem s' Q := by
  induction p generalizing s with
  | pure a => exact Iff.rfl
  | op i k ih => exact forall_congr' fun e => ih _

/-- The environment makes fair choices only. -/
def restrict (sem : Semantics ι ρ ε σ) (fair : ε → Prop) : Semantics ι ρ { e // fair e } σ :=
  fun i e s => sem i e.1 s

theorem always_restrict {fair : ε → Prop} : p.Always (restrict sem fair) s Q ↔
    ∀ tr a s', p.Runs sem s tr a s' → (∀ x ∈ tr, fair x.2) → Q a s' := by
  induction p generalizing s with
  | pure a =>
    constructor
    · rintro h _ _ _ ⟨rfl, rfl, rfl⟩ -
      exact h
    · exact fun h => h [] a s ⟨rfl, rfl, rfl⟩ (List.forall_mem_nil _)
  | op i k ih =>
    constructor
    · rintro h _ a s' ⟨e, tr, rfl, hrun⟩ hfair
      obtain ⟨he, hfair⟩ := List.forall_mem_cons.mp hfair
      exact ih _ |>.mp (h ⟨e, he⟩) tr a s' hrun hfair
    · rintro h ⟨e, he⟩
      exact (ih _).mpr fun tr a s' hrun hfair =>
        h ((i, e) :: tr) a s' ⟨e, tr, rfl, hrun⟩ (List.forall_mem_cons.mpr ⟨he, hfair⟩)

theorem Always.run (h : p.Always sem s Q) (e : ε) : Q (p.run sem e s).1 (p.run sem e s).2 := by
  induction p generalizing s with
  | pure a => exact h
  | op i k ih => exact ih _ (h e)

end LanWeave.Library.Prog

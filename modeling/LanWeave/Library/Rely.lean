import LanWeave.Library.Program

/-! What a program may rely on while others work on the same state: what it has learned from an answer,
and what stays true however the state goes on. -/

namespace LanWeave.Library.Prog
variable {ι τ : Type} {ρ : ι → Type} {α β ε σ : Type}

section
variable (after : σ → σ → Prop) (learns : (i : ι) → ρ i → σ → Prop) (ok : ι → σ → Prop)

/-- Every operation is `ok` where it is performed, given what the answers before it have taught. -/
def Knowing : Prog ι ρ α → σ → Prop
  | pure _, _ => True
  | op i k, s => ∀ t, after s t → ok i t ∧ ∀ r u, after t u → learns i r u → Knowing (k r) u

end

section
variable {after : σ → σ → Prop} {learns : (i : ι) → ρ i → σ → Prop} {ok : ι → σ → Prop}
  {p : Prog ι ρ α} {s t : σ}

theorem Knowing.later (htrans : ∀ {s t u}, after s t → after t u → after s u)
    (h : p.Knowing after learns ok s) (hs : after s t) : p.Knowing after learns ok t := by
  cases p with
  | pure a => trivial
  | op i k => exact fun u hu => h u (htrans hs hu)

theorem Only.knowing (hp : p.Only fun i => ∀ s, ok i s) : p.Knowing after learns ok s := by
  induction p generalizing s with
  | pure a => trivial
  | op i k ih => exact fun t _ => ⟨hp.1 t, fun r u _ _ => ih r (hp.2 r)⟩

variable [DecidableEq τ] {sem : Semantics ι ρ ε σ} {I : σ → Prop}

variable (after learns ok) in
/-- What every operation that is `ok` preserves holds in every interleaving of programs that know what
they do. -/
theorem knowing_exec (htrans : ∀ {s t u}, after s t → after t u → after s u)
    (hafter : ∀ i e s, I s → after s (sem i e s).2)
    (hlearns : ∀ i e s, I s → learns i (sem i e s).1 (sem i e s).2)
    (hrefl : ∀ s, after s s) (hI : ∀ i e s, I s → ok i s → I (sem i e s).2)
    {c : Config τ (Prog ι ρ α) σ} (hc : ∀ t, (c.threads t).Knowing after learns ok c.shared)
    (h₀ : I c.shared) (sched : List (τ × ε)) : I (c.exec (machine sem) sched).shared := by
  induction sched generalizing c with
  | nil => exact h₀
  | cons x sched ih =>
    obtain ⟨t, e⟩ := x
    have hstep : I (c.step (machine sem) t e).shared ∧ after c.shared (c.step (machine sem) t e).shared ∧
        ((c.step (machine sem) t e).threads t).Knowing after learns ok
          (c.step (machine sem) t e).shared := by
      have ht := hc t
      rw [Config.step_self, Config.step_shared]
      cases hop : c.threads t with
      | pure a => exact ⟨h₀, hrefl _, trivial⟩
      | op i k =>
        rw [hop] at ht
        obtain ⟨hok, hnext⟩ := ht c.shared (hrefl _)
        have hgrows := hafter i e c.shared h₀
        exact ⟨hI i e _ h₀ hok, hgrows, hnext _ _ hgrows (hlearns i e _ h₀)⟩
    obtain ⟨hnow, hgrows, hself⟩ := hstep
    refine ih (fun u => ?_) hnow
    by_cases hu : u = t
    · exact hu ▸ hself
    · rw [Config.step_other c hu]
      exact (hc u).later htrans hgrows

end
end LanWeave.Library.Prog

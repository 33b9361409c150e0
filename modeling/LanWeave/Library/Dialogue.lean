import LanWeave.Library.Lift

/-! What a program says and hears: each run by its operations and the answers to them, whatever
choices of the environment were behind these. -/

namespace LanWeave.Library.Prog
variable {ι : Type} {ρ : ι → Type} {α β ε σ : Type}

section
variable (sem : Semantics ι ρ ε σ)

/-- The program, run alone to its end, performs these operations with these answers. -/
def Says : Prog ι ρ α → σ → List (Sigma ρ) → α → σ → Prop
  | pure a, s, log, b, s' => log = [] ∧ b = a ∧ s' = s
  | op i k, s, log, b, s' => ∃ e log', log = ⟨i, (sem i e s).1⟩ :: log' ∧
      Says (k (sem i e s).1) (sem i e s).2 log' b s'

/-- The dialogue of the program run alone, the environment making the same choice throughout. -/
def said (e : ε) : Prog ι ρ α → σ → List (Sigma ρ)
  | pure _, _ => []
  | op i k, s => ⟨i, (sem i e s).1⟩ :: (k (sem i e s).1).said e (sem i e s).2

theorem says_said (e : ε) (p : Prog ι ρ α) (s : σ) :
    p.Says sem s (p.said sem e s) (p.run sem e s).1 (p.run sem e s).2 := by
  induction p generalizing s with
  | pure a => exact ⟨rfl, rfl, rfl⟩
  | op i k ih => exact ⟨e, _, rfl, ih _ _⟩

variable {sem} {s s' : σ} {log : List (Sigma ρ)} {b : β}

theorem says_op {i : ι} {k : ρ i → Prog ι ρ β} : (op i k).Says sem s log b s' ↔
    ∃ e log', log = ⟨i, (sem i e s).1⟩ :: log' ∧ (k (sem i e s).1).Says sem (sem i e s).2 log' b s' :=
  Iff.rfl

theorem says_bind {p : Prog ι ρ α} {f : α → Prog ι ρ β} : (p >>= f).Says sem s log b s' ↔
    ∃ log₁ log₂ a s₁, log = log₁ ++ log₂ ∧ p.Says sem s log₁ a s₁ ∧ (f a).Says sem s₁ log₂ b s' := by
  induction p generalizing s log with
  | pure a =>
    constructor
    · intro h
      exact ⟨[], log, a, s, rfl, ⟨rfl, rfl, rfl⟩, h⟩
    · rintro ⟨_, log₂, _, _, rfl, ⟨rfl, rfl, rfl⟩, h⟩
      exact h
  | op i k ih =>
    constructor
    · rintro ⟨e, log', rfl, h⟩
      obtain ⟨log₁, log₂, a, s₁, rfl, h₁, h₂⟩ := (ih _).mp h
      exact ⟨⟨i, _⟩ :: log₁, log₂, a, s₁, rfl, ⟨e, log₁, rfl, h₁⟩, h₂⟩
    · rintro ⟨_, log₂, a, s₁, rfl, ⟨e, log₁, rfl, h₁⟩, h₂⟩
      exact ⟨e, log₁ ++ log₂, rfl, (ih _).mpr ⟨log₁, log₂, a, s₁, rfl, h₁, h₂⟩⟩

/-- The dialogues of a program are those of its runs. -/
theorem exists_says_iff {p : Prog ι ρ β} :
    (∃ log, p.Says sem s log b s') ↔ ∃ tr, p.Runs sem s tr b s' := by
  induction p generalizing s with
  | pure a =>
    constructor
    · rintro ⟨_, -, hb, hs⟩
      exact ⟨[], rfl, hb, hs⟩
    · rintro ⟨_, -, hb, hs⟩
      exact ⟨[], rfl, hb, hs⟩
  | op i k ih =>
    constructor
    · rintro ⟨_, e, log', rfl, h⟩
      obtain ⟨tr, htr⟩ := (ih _).mp ⟨log', h⟩
      exact ⟨(i, e) :: tr, e, tr, rfl, htr⟩
    · rintro ⟨_, e, tr, rfl, h⟩
      obtain ⟨log, hlog⟩ := (ih _).mpr ⟨tr, h⟩
      exact ⟨⟨i, _⟩ :: log, e, log, rfl, hlog⟩

section
variable {ok : ι → Prop} {p : Prog ι ρ β}

theorem Only.says (hp : p.Only ok) (h : p.Says sem s log b s') : ∀ x ∈ log, ok x.1 := by
  induction p generalizing s log with
  | pure a =>
    obtain ⟨rfl, -⟩ := h
    exact fun x hx => absurd hx List.not_mem_nil
  | op i k ih =>
    obtain ⟨e, log', rfl, h⟩ := h
    intro x hx
    rcases List.mem_cons.mp hx with rfl | hx
    · exact hp.1
    · exact ih _ (hp.2 _) h x hx

theorem Only.says_keeps {γ : Type} {f : σ → γ} (hp : p.Only ok)
    (hkeep : ∀ i, ok i → ∀ e s, f (sem i e s).2 = f s) (h : p.Says sem s log b s') : f s' = f s := by
  induction p generalizing s log with
  | pure a =>
    obtain ⟨-, -, rfl⟩ := h
    rfl
  | op i k ih =>
    obtain ⟨e, log', rfl, h⟩ := h
    exact (ih _ (hp.2 _) h).trans (hkeep i hp.1 e s)

end
end
/-- The program performs these operations if these are the answers. -/
def Hears : Prog ι ρ α → List (Sigma ρ) → α → Prop
  | pure a, log, b => log = [] ∧ b = a
  | op i k, log, b => ∃ r log', log = ⟨i, r⟩ :: log' ∧ Hears (k r) log' b

section
variable {log : List (Sigma ρ)}

theorem hears_bind {p : Prog ι ρ α} {f : α → Prog ι ρ β} {b : β} : (p >>= f).Hears log b ↔
    ∃ log₁ log₂ a, log = log₁ ++ log₂ ∧ p.Hears log₁ a ∧ (f a).Hears log₂ b := by
  induction p generalizing log with
  | pure a =>
    constructor
    · intro h
      exact ⟨[], log, a, rfl, ⟨rfl, rfl⟩, h⟩
    · rintro ⟨_, log₂, _, rfl, ⟨rfl, rfl⟩, h⟩
      exact h
  | op i k ih =>
    constructor
    · rintro ⟨r, log', rfl, h⟩
      obtain ⟨log₁, log₂, a, rfl, h₁, h₂⟩ := (ih r).mp h
      exact ⟨⟨i, r⟩ :: log₁, log₂, a, rfl, ⟨r, log₁, rfl, h₁⟩, h₂⟩
    · rintro ⟨_, log₂, a, rfl, ⟨r, log₁, rfl, h₁⟩, h₂⟩
      exact ⟨r, log₁ ++ log₂, rfl, (ih r).mpr ⟨log₁, log₂, a, rfl, h₁, h₂⟩⟩

end

theorem Only.hears {ok : ι → Prop} {p : Prog ι ρ α} {log : List (Sigma ρ)} {a : α} (hp : p.Only ok)
    (hlog : p.Hears log a) : ∀ x ∈ log, ok x.1 := by
  induction p generalizing log with
  | pure b =>
    obtain ⟨rfl, -⟩ := hlog
    exact fun x hx => absurd hx List.not_mem_nil
  | op i k ih =>
    obtain ⟨r, log', rfl, hrest⟩ := hlog
    intro x hx
    rcases List.mem_cons.mp hx with rfl | hx
    · exact hp.1
    · exact ih r (hp.2 r) hrest x hx

theorem Returns.of_hears {p : Prog ι ρ α} {R : α → Prop} {log : List (Sigma ρ)} {a : α}
    (hp : p.Returns R) (hlog : p.Hears log a) : R a := by
  induction p generalizing log with
  | pure b =>
    obtain ⟨-, rfl⟩ := hlog
    exact hp
  | op i k ih =>
    obtain ⟨r, log', -, hrest⟩ := hlog
    exact ih r (hp r) hrest

section
variable {ι' τ : Type} {ρ' : ι' → Type}

/-- The program with each operation replaced by a program over another interface, which hands a
value on. -/
def handle (h : (i : ι) → τ → Prog ι' ρ' (ρ i × τ)) : Prog ι ρ α → τ → Prog ι' ρ' (α × τ)
  | pure a, t => pure (a, t)
  | op i k, t => h i t >>= fun r => (k r.1).handle h r.2

variable {h : (i : ι) → τ → Prog ι' ρ' (ρ i × τ)}

theorem handle_op (i : ι) (k : ρ i → Prog ι ρ α) (t : τ) :
    (op i k).handle h t = h i t >>= fun r => (k r.1).handle h r.2 := rfl

theorem handle_bind (p : Prog ι ρ α) (f : α → Prog ι ρ β) (t : τ) :
    (p >>= f).handle h t = p.handle h t >>= fun r => (f r.1).handle h r.2 := by
  induction p generalizing t with
  | pure a => rfl
  | op i k ih =>
    rw [op_bind, handle_op, handle_op, bind_assoc]
    apply congrArg
    funext r
    exact ih r.1 r.2

theorem handle_single (i : ι) (t : τ) : (op i pure : Prog ι ρ (ρ i)).handle h t = h i t := bind_pure _

end
end LanWeave.Library.Prog

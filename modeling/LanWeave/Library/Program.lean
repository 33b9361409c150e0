import LanWeave.Library.Interleaving

/-! Finite programs over atomic operations. One program text has three readings: run alone,
run alone with an environment that chooses the outcome of every operation, and as one
thread of an interleaving. -/

namespace LanWeave.Library

/-- A program: it returns, or performs an operation and continues with the answer. -/
inductive Prog (ι : Type) (ρ : ι → Type) (α : Type) : Type
  | pure (a : α)
  | op (i : ι) (k : ρ i → Prog ι ρ α)

/-- The answer and the next state of each operation under an environment's choice. -/
abbrev Semantics (ι : Type) (ρ : ι → Type) (ε σ : Type) := (i : ι) → ε → σ → ρ i × σ

namespace Prog
variable {ι : Type} {ρ : ι → Type} {α β γ ε σ : Type}

def bind : Prog ι ρ α → (α → Prog ι ρ β) → Prog ι ρ β
  | pure a, f => f a
  | op i k, f => op i fun r => (k r).bind f

instance : Monad (Prog ι ρ) where
  pure := pure
  bind := bind

@[simp] theorem pure_bind (a : α) (f : α → Prog ι ρ β) : (pure a : Prog ι ρ α) >>= f = f a := rfl

@[simp] theorem op_bind (i : ι) (k : ρ i → Prog ι ρ α) (f : α → Prog ι ρ β) :
    op i k >>= f = op i fun r => k r >>= f := rfl

@[simp] theorem monad_pure (a : α) : (Pure.pure a : Prog ι ρ α) = pure a := rfl

theorem bind_assoc (p : Prog ι ρ α) (f : α → Prog ι ρ β) (g : β → Prog ι ρ γ) :
    p >>= f >>= g = p >>= fun a => f a >>= g := by
  induction p with
  | pure a => rfl
  | op i k ih => exact congrArg (op i) (funext ih)

theorem bind_pure (p : Prog ι ρ α) : p >>= pure = p := by
  induction p with
  | pure a => rfl
  | op i k ih => exact congrArg (op i) (funext ih)

/-- A loop over a list whose body neither stops it nor carries a value. -/
def forEach (f : β → Prog ι ρ Unit) : List β → Prog ι ρ Unit
  | [] => pure ()
  | b :: bs => f b >>= fun _ => forEach f bs

/-- Every operation the program can perform, whatever the answers, meets `ok`. -/
def Only (ok : ι → Prop) : Prog ι ρ α → Prop
  | pure _ => True
  | op i k => ok i ∧ ∀ r, Only ok (k r)

section
variable {ok : ι → Prop}

theorem Only.bind {p : Prog ι ρ α} {f : α → Prog ι ρ β} (hp : p.Only ok)
    (hf : ∀ a, (f a).Only ok) : (p >>= f).Only ok := by
  induction p with
  | pure a => exact hf a
  | op i k ih => exact ⟨hp.1, fun r => ih r (hp.2 r)⟩

theorem Only.imp {ok' : ι → Prop} {p : Prog ι ρ α} (hp : p.Only ok) (h : ∀ i, ok i → ok' i) :
    p.Only ok' := by
  induction p with
  | pure a => trivial
  | op i k ih => exact ⟨h i hp.1, fun r => ih r (hp.2 r)⟩

theorem only_true (p : Prog ι ρ α) : p.Only fun _ => True := by
  induction p with
  | pure a => trivial
  | op i k ih => exact ⟨trivial, ih⟩

theorem only_forEach {f : β → Prog ι ρ Unit} (hf : ∀ b, (f b).Only ok) (bs : List β) :
    (forEach f bs).Only ok := by
  induction bs with
  | nil => trivial
  | cons b bs ih => exact (hf b).bind fun _ => ih

end

/-- Every operation the program can perform meets `ok`, as long as the answers are `sane`. -/
def OnlyGiven (sane : (i : ι) → ρ i → Prop) (ok : ι → Prop) : Prog ι ρ α → Prop
  | pure _ => True
  | op i k => ok i ∧ ∀ r, sane i r → OnlyGiven sane ok (k r)

section
variable {sane : (i : ι) → ρ i → Prop} {ok : ι → Prop}

theorem OnlyGiven.bind {p : Prog ι ρ α} {f : α → Prog ι ρ β} (hp : p.OnlyGiven sane ok)
    (hf : ∀ a, (f a).OnlyGiven sane ok) : (p >>= f).OnlyGiven sane ok := by
  induction p with
  | pure a => exact hf a
  | op i k ih => exact ⟨hp.1, fun r hr => ih r (hp.2 r hr)⟩

theorem onlyGiven_forEach {f : β → Prog ι ρ Unit} (hf : ∀ b, (f b).OnlyGiven sane ok)
    (bs : List β) : (forEach f bs).OnlyGiven sane ok := by
  induction bs with
  | nil => trivial
  | cons b bs ih => exact (hf b).bind fun _ => ih

theorem OnlyGiven.imp {ok' : ι → Prop} {p : Prog ι ρ α} (hp : p.OnlyGiven sane ok)
    (h : ∀ i, ok i → ok' i) : p.OnlyGiven sane ok' := by
  induction p with
  | pure a => trivial
  | op i k ih => exact ⟨h i hp.1, fun r hr => ih r (hp.2 r hr)⟩

theorem OnlyGiven.only {p : Prog ι ρ α} (hp : p.OnlyGiven (fun _ _ => True) ok) : p.Only ok := by
  induction p with
  | pure a => trivial
  | op i k ih => exact ⟨hp.1, fun r => ih r (hp.2 r trivial)⟩

end

section
variable (sem : Semantics ι ρ ε σ)

/-- A program as one thread: a step performs its next operation, a finished one idles. -/
def machine : Machine (Prog ι ρ α) ε σ
  | pure a, _, s => (pure a, s)
  | op i k, e, s => (k (sem i e s).1, (sem i e s).2)

/-- The program run alone, the environment making the same choice `e` throughout. -/
def run (e : ε) : Prog ι ρ α → σ → α × σ
  | pure a, s => (a, s)
  | op i k, s => (k (sem i e s).1).run e (sem i e s).2

/-- The program run alone to its end: the operations with the environment's choices, the
answer and the state after. -/
def Runs : Prog ι ρ α → σ → List (ι × ε) → α → σ → Prop
  | pure a, s, tr, b, s' => tr = [] ∧ b = a ∧ s' = s
  | op i k, s, tr, b, s' => ∃ e tr', tr = (i, e) :: tr' ∧
      Runs (k (sem i e s).1) (sem i e s).2 tr' b s'

variable {sem}

@[simp] theorem run_pure (e : ε) (a : α) (s : σ) : (pure a : Prog ι ρ α).run sem e s = (a, s) := rfl

@[simp] theorem run_op (e : ε) (i : ι) (k : ρ i → Prog ι ρ α) (s : σ) :
    (op i k).run sem e s = (k (sem i e s).1).run sem e (sem i e s).2 := rfl

theorem run_bind (e : ε) (p : Prog ι ρ α) (f : α → Prog ι ρ β) (s : σ) :
    (p >>= f).run sem e s = (f (p.run sem e s).1).run sem e (p.run sem e s).2 := by
  induction p generalizing s with
  | pure a => rfl
  | op i k ih => exact ih _ _

@[simp] theorem forEach_nil (f : β → Prog ι ρ Unit) : forEach f [] = pure () := rfl

theorem runs_pure {a b : α} {s s' : σ} {tr : List (ι × ε)} :
    (pure a : Prog ι ρ α).Runs sem s tr b s' ↔ tr = [] ∧ b = a ∧ s' = s := Iff.rfl

theorem runs_bind {p : Prog ι ρ α} {f : α → Prog ι ρ β} {b : β} {s s' : σ} {tr : List (ι × ε)} :
    (p >>= f).Runs sem s tr b s' ↔ ∃ tr₁ tr₂ a s₁, tr = tr₁ ++ tr₂ ∧
      p.Runs sem s tr₁ a s₁ ∧ (f a).Runs sem s₁ tr₂ b s' := by
  induction p generalizing s tr with
  | pure a =>
    constructor
    · intro h
      exact ⟨[], tr, a, s, rfl, ⟨rfl, rfl, rfl⟩, h⟩
    · rintro ⟨_, tr₂, _, _, rfl, ⟨rfl, rfl, rfl⟩, h⟩
      exact h
  | op i k ih =>
    constructor
    · rintro ⟨e, tr', rfl, h⟩
      obtain ⟨tr₁, tr₂, a, s₁, rfl, h₁, h₂⟩ := (ih _).mp h
      exact ⟨(i, e) :: tr₁, tr₂, a, s₁, rfl, ⟨e, tr₁, rfl, h₁⟩, h₂⟩
    · rintro ⟨_, tr₂, a, s₁, rfl, ⟨e, tr₁, rfl, h₁⟩, h₂⟩
      exact ⟨e, tr₁ ++ tr₂, rfl, (ih _).mpr ⟨tr₁, tr₂, a, s₁, rfl, h₁, h₂⟩⟩

/-- The run under a constant environment is the run whose choices are all that one. -/
theorem runs_const_iff {e : ε} {p : Prog ι ρ α} {b : α} {s s' : σ} :
    (∃ tr, p.Runs sem s tr b s' ∧ ∀ x ∈ tr, x.2 = e) ↔ p.run sem e s = (b, s') := by
  induction p generalizing s with
  | pure a =>
    simp only [runs_pure, run_pure, Prod.mk.injEq]
    constructor
    · rintro ⟨_, ⟨rfl, rfl, rfl⟩, -⟩
      exact ⟨rfl, rfl⟩
    · rintro ⟨rfl, rfl⟩
      exact ⟨[], ⟨rfl, rfl, rfl⟩, by simp⟩
  | op i k ih =>
    rw [run_op, ← ih]
    constructor
    · rintro ⟨_, ⟨e', tr', rfl, h⟩, hc⟩
      obtain rfl : e' = e := hc (i, e') (List.mem_cons_self ..)
      exact ⟨tr', h, fun x hx => hc x (List.mem_cons_of_mem _ hx)⟩
    · rintro ⟨tr', h, hc⟩
      refine ⟨(i, e) :: tr', ⟨e, tr', rfl, h⟩, ?_⟩
      simpa using hc

end

section
variable {sem : Semantics ι ρ ε σ} {sane : (i : ι) → ρ i → Prop} {ok : ι → Prop}
  {I : σ → Prop} {τ : Type} [DecidableEq τ]

/-- Threads whose operations keep `I` keep it together, under every schedule. -/
theorem OnlyGiven.exec (hsane : ∀ i e s, sane i (sem i e s).1)
    (hI : ∀ i, ok i → ∀ e s, I s → I (sem i e s).2) {c : Config τ (Prog ι ρ α) σ}
    (hthreads : ∀ t, (c.threads t).OnlyGiven sane ok) (h₀ : I c.shared) (sched : List (τ × ε)) :
    I (c.exec (machine sem) sched).shared := by
  induction sched generalizing c with
  | nil => exact h₀
  | cons x sched ih =>
    obtain ⟨t, e⟩ := x
    have hstep : (machine sem (c.threads t) e c.shared).1.OnlyGiven sane ok ∧
        I (machine sem (c.threads t) e c.shared).2 := by
      have ht := hthreads t
      cases hp : c.threads t with
      | pure a => exact ⟨trivial, h₀⟩
      | op i k =>
        rw [hp] at ht
        exact ⟨ht.2 _ (hsane i e c.shared), hI i ht.1 e c.shared h₀⟩
    apply ih
    · intro u
      by_cases hu : u = t
      · rw [hu, Config.step_self]
        exact hstep.1
      · rw [Config.step_other c hu]
        exact hthreads u
    · exact hstep.2

end

section
variable {sem : Semantics ι ρ ε σ} {ok : ι → Prop} {τ : Type} [DecidableEq τ]

theorem Only.machine {p : Prog ι ρ α} (hp : p.Only ok) (e : ε) (s : σ) :
    (machine sem p e s).1.Only ok := by
  cases p with
  | pure a => trivial
  | op i k => exact hp.2 _

theorem Only.exec {c : Config τ (Prog ι ρ α) σ} {t : τ} (h : (c.threads t).Only ok)
    (sched : List (τ × ε)) : ((c.exec (Prog.machine sem) sched).threads t).Only ok := by
  induction sched generalizing c with
  | nil => exact h
  | cons x sched ih =>
    apply ih
    by_cases ht : t = x.1
    · rw [ht, Config.step_self]
      exact Only.machine (ht ▸ h) x.2 c.shared
    · rw [Config.step_other c ht]
      exact h

end

section Alone
variable {τ : Type} [DecidableEq τ] {sem : Semantics ι ρ ε σ} {p : Prog ι ρ β}
  {f : β → Prog ι ρ α} {b : β}
  {s s' : σ} {tr : List (ι × ε)} {c : Config τ (Prog ι ρ α) σ} {t : τ}

theorem exec_of_runs_bind (h : p.Runs sem s tr b s') (hp : c.threads t = p >>= f) (hs : c.shared = s) :
    c.exec (machine sem) (tr.map fun x => (t, x.2)) = ⟨Function.update c.threads t (f b), s'⟩ := by
  induction p generalizing s tr c with
  | pure a =>
    obtain ⟨rfl, rfl, rfl⟩ := h
    subst hs
    have hsame : Function.update c.threads t (f b) = c.threads := by
      rw [Function.update_eq_self_iff]
      exact hp.symm
    show c = _
    rw [hsame]
  | op i k ih =>
    obtain ⟨e, tr', rfl, h'⟩ := h
    subst hs
    have hself : (c.step (machine sem) t e).threads t = k (sem i e c.shared).1 >>= f := by
      rw [Config.step_self, hp]
      rfl
    have hshared : (c.step (machine sem) t e).shared = (sem i e c.shared).2 := by
      rw [Config.step_shared, hp]
      rfl
    show (c.step (machine sem) t e).exec (machine sem) _ = _
    rw [ih _ h' hself hshared, Config.step, Function.update_idem]

theorem along_of_runs_bind {P : ι → Prop} {E : ε → Prop} {ok : Config τ (Prog ι ρ α) σ → τ → ε → Prop}
    (hok : ∀ c e i k, Config.threads c t = .op i k → P i → E e → ok c t e) (honly : p.Only P)
    (h : p.Runs sem s tr b s') (htr : ∀ x ∈ tr, E x.2) (hp : c.threads t = p >>= f) (hs : c.shared = s) :
    Along (machine sem) ok c (tr.map fun x => (t, x.2)) := by
  induction p generalizing s tr c with
  | pure a =>
    obtain ⟨rfl, -, -⟩ := h
    trivial
  | op i k ih =>
    obtain ⟨e, tr', rfl, h'⟩ := h
    subst hs
    refine ⟨hok c e i _ hp honly.1 (htr _ List.mem_cons_self), ?_⟩
    apply ih _ (honly.2 _) h' (fun x hx => htr x (List.mem_cons_of_mem _ hx))
    · rw [Config.step_self, hp]
      rfl
    · rw [Config.step_shared, hp]
      rfl

end Alone
end Prog
end LanWeave.Library

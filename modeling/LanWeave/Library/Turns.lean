import LanWeave.Library.Dialogue

/-! The turns that one thread of an interleaving takes: each operation it performs, with its answer
and with the shared state before it and after it. -/

namespace LanWeave.Library.Prog
variable {ι : Type} {ρ : ι → Type} {α ε σ τ : Type}

structure Turn (ρ : ι → Type) (σ : Type) where
  before : σ
  said : Sigma ρ
  after : σ

variable (sem : Semantics ι ρ ε σ)

/-- The operation did and answered what it does and answers in the state before. -/
def Turn.Sound (x : Turn ρ σ) : Prop := ∃ e, sem x.said.1 e x.before = (x.said.2, x.after)

/-- The turn that the next step of a program takes; a finished program takes none. -/
def nextTurn : Prog ι ρ α → ε → σ → List (Turn ρ σ)
  | pure _, _, _ => []
  | op i _, e, s => [⟨s, ⟨i, (sem i e s).1⟩, (sem i e s).2⟩]

def turnsOf [DecidableEq τ] (t : τ) : Config τ (Prog ι ρ α) σ → List (τ × ε) → List (Turn ρ σ)
  | _, [] => []
  | c, (u, e) :: sched =>
    (if u = t then (c.threads t).nextTurn sem e c.shared else []) ++
      turnsOf t (c.step (machine sem) u e) sched

variable {sem}

theorem sound_of_mem_nextTurn {p : Prog ι ρ α} {e : ε} {s : σ} {x : Turn ρ σ}
    (h : x ∈ p.nextTurn sem e s) : x.Sound sem := by
  cases p with
  | pure a => exact absurd h List.not_mem_nil
  | op i k =>
    obtain rfl := List.mem_singleton.mp h
    exact ⟨e, rfl⟩

section
variable [DecidableEq τ] {t : τ} {c : Config τ (Prog ι ρ α) σ} {sched : List (τ × ε)}

theorem sound_of_mem_turnsOf {x : Turn ρ σ} (h : x ∈ turnsOf sem t c sched) : x.Sound sem := by
  induction sched generalizing c with
  | nil => exact absurd h List.not_mem_nil
  | cons s sched ih =>
    obtain ⟨u, e⟩ := s
    rcases List.mem_append.mp h with hnow | hlater
    · by_cases hu : u = t
      · rw [if_pos hu] at hnow
        exact sound_of_mem_nextTurn hnow
      · rw [if_neg hu] at hnow
        exact absurd hnow List.not_mem_nil
    · exact ih hlater

/-- The turns of a thread that has come to its end are a dialogue of its program, whatever the
other threads did in between. -/
theorem hears_turnsOf {a : α} (h : (c.exec (machine sem) sched).threads t = pure a) :
    (c.threads t).Hears ((turnsOf sem t c sched).map Turn.said) a := by
  induction sched generalizing c with
  | nil =>
    have hdone : c.threads t = pure a := h
    rw [hdone]
    exact ⟨rfl, rfl⟩
  | cons s sched ih =>
    obtain ⟨u, e⟩ := s
    have hrest := ih h
    unfold turnsOf
    by_cases hu : u = t
    · subst hu
      rw [Config.step_self] at hrest
      rw [if_pos rfl]
      cases hp : c.threads u with
      | pure b =>
        rw [hp] at hrest
        exact hrest
      | op i k =>
        rw [hp] at hrest
        exact ⟨_, _, rfl, hrest⟩
    · rw [Config.step_other c (Ne.symm hu)] at hrest
      rw [if_neg hu, List.nil_append]
      exact hrest

end

section
variable (sem) in
/-- The operations with the environment's choices, each with the state it is taken from. -/
def steps : σ → List (ι × ε) → List (σ × ι × ε)
  | _, [] => []
  | s, (i, e) :: tr => (s, i, e) :: steps (sem i e s).2 tr

variable {s s' : σ} {tr tr' : List (ι × ε)} {p : Prog ι ρ α} {a : α} {ok : ι → Prop}

theorem mem_of_mem_steps {x : σ × ι × ε} (hx : x ∈ steps sem s tr) : x.2 ∈ tr := by
  induction tr generalizing s with
  | nil => exact absurd hx List.not_mem_nil
  | cons y tr ih =>
    rcases List.mem_cons.mp hx with rfl | hx
    · exact List.mem_cons_self
    · exact List.mem_cons_of_mem _ (ih hx)

theorem Runs.steps_append (h : p.Runs sem s tr a s') :
    steps sem s (tr ++ tr') = steps sem s tr ++ steps sem s' tr' := by
  induction p generalizing s tr with
  | pure b =>
    obtain ⟨rfl, -, rfl⟩ := h
    rfl
  | op i k ih =>
    obtain ⟨e, tr, rfl, h⟩ := h
    exact congrArg (List.cons _) (ih _ h)

theorem Only.runs (hp : p.Only ok) (h : p.Runs sem s tr a s') : ∀ x ∈ tr, ok x.1 := by
  induction p generalizing s tr with
  | pure b =>
    obtain ⟨rfl, -⟩ := h
    exact fun x hx => absurd hx List.not_mem_nil
  | op i k ih =>
    obtain ⟨e, tr, rfl, h⟩ := h
    intro x hx
    rcases List.mem_cons.mp hx with rfl | hx
    · exact hp.1
    · exact ih _ (hp.2 _) h x hx

theorem Runs.keeps {γ : Type} {f : σ → γ} (h : p.Runs sem s tr a s')
    (hkeep : ∀ x ∈ tr, ∀ s, f (sem x.1 x.2 s).2 = f s) : f s' = f s := by
  induction p generalizing s tr with
  | pure b =>
    obtain ⟨-, -, rfl⟩ := h
    rfl
  | op i k ih =>
    obtain ⟨e, tr, rfl, h⟩ := h
    have hrest := ih _ h fun x hx => hkeep x (List.mem_cons_of_mem _ hx)
    exact hrest.trans (hkeep (i, e) List.mem_cons_self s)

variable (sem) in
/-- The run in which the environment makes these choices, if they are enough. -/
def follow : Prog ι ρ α → σ → List ε → Option (List (ι × ε) × α × σ)
  | pure a, s, _ => some ([], a, s)
  | op _ _, _, [] => none
  | op i k, s, e :: es => ((k (sem i e s).1).follow (sem i e s).2 es).map fun r => ((i, e) :: r.1, r.2)

theorem runs_follow {es : List ε} (h : p.follow sem s es = some (tr, a, s')) : p.Runs sem s tr a s' := by
  induction p generalizing s tr es with
  | pure b =>
    cases h
    exact ⟨rfl, rfl, rfl⟩
  | op i k ih =>
    cases es with
    | nil => cases h
    | cons e es =>
      obtain ⟨⟨tr', b, s₁⟩, hrest, hr⟩ := Option.map_eq_some_iff.mp h
      cases hr
      exact ⟨e, _, rfl, ih _ hrest⟩

end
end LanWeave.Library.Prog

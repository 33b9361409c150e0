import Mathlib.Logic.Function.Basic

/-! Local machines over one shared state, run under a schedule. A step belongs to one thread;
what the environment decides about it (a failure, an answer) is part of the schedule. -/

namespace LanWeave.Library
variable {τ P ε σ : Type}

/-- The next local state and the next shared state of one atomic step. -/
abbrev Machine (P ε σ : Type) := P → ε → σ → P × σ

structure Config (τ P σ : Type) where
  threads : τ → P
  shared : σ

section
variable [DecidableEq τ] (m : Machine P ε σ)

def Config.step (c : Config τ P σ) (t : τ) (e : ε) : Config τ P σ :=
  ⟨Function.update c.threads t (m (c.threads t) e c.shared).1, (m (c.threads t) e c.shared).2⟩

def Config.exec (c : Config τ P σ) : List (τ × ε) → Config τ P σ
  | [] => c
  | (t, e) :: sched => (c.step m t e).exec sched

/-- Every step of the schedule meets `ok` in the configuration it is taken from. -/
def Along (ok : Config τ P σ → τ → ε → Prop) : Config τ P σ → List (τ × ε) → Prop
  | _, [] => True
  | c, (t, e) :: sched => ok c t e ∧ Along ok (c.step m t e) sched

variable {m}

theorem Config.step_self (c : Config τ P σ) (t : τ) (e : ε) :
    (c.step m t e).threads t = (m (c.threads t) e c.shared).1 := Function.update_self ..

theorem Config.step_other (c : Config τ P σ) {t u : τ} (h : u ≠ t) (e : ε) :
    (c.step m t e).threads u = c.threads u := Function.update_of_ne h ..

theorem Config.step_shared (c : Config τ P σ) (t : τ) (e : ε) :
    (c.step m t e).shared = (m (c.threads t) e c.shared).2 := rfl

theorem Config.exec_append (c : Config τ P σ) (s₁ s₂ : List (τ × ε)) :
    c.exec m (s₁ ++ s₂) = (c.exec m s₁).exec m s₂ := by
  induction s₁ generalizing c with
  | nil => rfl
  | cons p s ih => exact ih (c.step m p.1 p.2)

theorem along_append {ok : Config τ P σ → τ → ε → Prop} {c : Config τ P σ} {s₁ s₂ : List (τ × ε)} :
    Along m ok c (s₁ ++ s₂) ↔ Along m ok c s₁ ∧ Along m ok (c.exec m s₁) s₂ := by
  induction s₁ generalizing c with
  | nil => simp only [List.nil_append, Along, Config.exec, true_and]
  | cons p s ih => simp only [List.cons_append, Along, Config.exec, ih, and_assoc]

/-- A thread that is not scheduled stays where it is. -/
theorem exec_threads_of_not_mem {c : Config τ P σ} {sched : List (τ × ε)} {t : τ}
    (h : ∀ s ∈ sched, s.1 ≠ t) : (c.exec m sched).threads t = c.threads t := by
  induction sched generalizing c with
  | nil => rfl
  | cons s sched ih =>
    have hstep : (c.step m s.1 s.2).threads t = c.threads t :=
      Config.step_other c (h s List.mem_cons_self).symm s.2
    exact (ih fun x hx => h x (List.mem_cons_of_mem _ hx)).trans hstep

/-- Whether some thread is at such a place is not changed by a thread that neither is nor comes
there. -/
theorem exists_step_iff {c : Config τ P σ} {t : τ} {e : ε} {Q : P → Prop} (h : ¬Q (c.threads t))
    (h' : ¬Q (m (c.threads t) e c.shared).1) :
    (∃ u, Q ((c.step m t e).threads u)) ↔ ∃ u, Q (c.threads u) := by
  apply exists_congr
  intro u
  by_cases hu : u = t
  · rw [hu, Config.step_self]
    exact iff_of_false h' h
  · rw [Config.step_other c hu]

theorem along_of_forall {ok : ε → Prop} {c : Config τ P σ} {sched : List (τ × ε)}
    (h : ∀ s ∈ sched, ok s.2) : Along m (fun _ _ e => ok e) c sched := by
  induction sched generalizing c with
  | nil => trivial
  | cons s sched ih => exact ⟨h s List.mem_cons_self, ih fun x hx => h x (List.mem_cons_of_mem _ hx)⟩

theorem Along.imp₂ {ok₁ ok₂ ok : Config τ P σ → τ → ε → Prop} {c : Config τ P σ}
    {sched : List (τ × ε)} (h₁ : Along m ok₁ c sched) (h₂ : Along m ok₂ c sched)
    (h : ∀ c t e, ok₁ c t e → ok₂ c t e → ok c t e) : Along m ok c sched := by
  induction sched generalizing c with
  | nil => trivial
  | cons s sched ih => exact ⟨h c s.1 s.2 h₁.1 h₂.1, ih h₁.2 h₂.2⟩

/-- Where not every step meets `ok`, there is a last that does not. -/
theorem exists_last_of_not_along {ok : Config τ P σ → τ → ε → Prop} {c : Config τ P σ}
    {sched : List (τ × ε)} (h : ¬Along m ok c sched) : ∃ pre t e post, sched = pre ++ (t, e) :: post ∧
      ¬ok (c.exec m pre) t e ∧ Along m ok (c.exec m (pre ++ [(t, e)])) post := by
  induction sched generalizing c with
  | nil => exact absurd trivial h
  | cons s sched ih =>
    by_cases hrest : Along m ok (c.step m s.1 s.2) sched
    · exact ⟨[], s.1, s.2, sched, rfl, fun hok => h ⟨hok, hrest⟩, hrest⟩
    · obtain ⟨pre, t, e, post, rfl, hnot, hlast⟩ := ih hrest
      exact ⟨s :: pre, t, e, post, rfl, hnot, hlast⟩

/-- What every admitted step preserves holds after every admitted run. -/
theorem exec_induction {ok : Config τ P σ → τ → ε → Prop} {I : Config τ P σ → Prop}
    (hstep : ∀ c t e, I c → ok c t e → I (c.step m t e))
    {c : Config τ P σ} {sched : List (τ × ε)} (h₀ : I c) (hok : Along m ok c sched) :
    I (c.exec m sched) := by
  induction sched generalizing c with
  | nil => exact h₀
  | cons p s ih => exact ih (hstep c p.1 p.2 h₀ hok.1) hok.2

/-- Along a run whose steps keep `I`, a property that `I` gives a step holds of every step. -/
theorem along_of_invariant {ok good : Config τ P σ → τ → ε → Prop} {I : Config τ P σ → Prop}
    (hstep : ∀ c t e, I c → ok c t e → I (c.step m t e))
    (hgood : ∀ c t e, I c → ok c t e → good c t e)
    {c : Config τ P σ} {sched : List (τ × ε)} (h₀ : I c) (hok : Along m ok c sched) :
    Along m good c sched := by
  induction sched generalizing c with
  | nil => trivial
  | cons p s ih => exact ⟨hgood c p.1 p.2 h₀ hok.1, ih (hstep c p.1 p.2 h₀ hok.1) hok.2⟩

end
end LanWeave.Library

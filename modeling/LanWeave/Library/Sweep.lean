import LanWeave.Library.Program

/-! Clearing up while others are at work. One program drops certain items of the shared state,
the others may make them again. What is left in the end are the items that were made when the
first had no more dropping of them to do. -/

namespace LanWeave.Library
open Prog

variable {ι : Type} {ρ : ι → Type} {α β ε σ χ τ : Type}

/-- Operations that make and drop the items of a state. -/
structure Stock (ι : Type) (ρ : ι → Type) (ε σ χ : Type) where
  sem : Semantics ι ρ ε σ
  has : σ → χ → Prop
  makes : ι → χ → Prop
  drops : ι → χ → Prop
  fails : ε → Prop
  made : ∀ i e s x, has (sem i e s).2 x → has s x ∨ makes i x
  dropped : ∀ i e s x, drops i x → ¬fails e → ¬has (sem i e s).2 x
  kept : ∀ i e s x, ¬drops i x → has s x → has (sem i e s).2 x

namespace Stock
variable (S : Stock ι ρ ε σ χ)

def Touches (i : ι) (x : χ) : Prop := S.makes i x ∨ S.drops i x

/-- However the program comes to a good end, it drops `x` on the way and leaves it alone then. -/
def Sweeps (good : α → Prop) (x : χ) : Prog ι ρ α → Prop
  | .pure a => ¬good a
  | .op i k => (S.drops i x ∧ ∀ r, (k r).Only fun j => ¬S.Touches j x) ∨ ∀ r, Sweeps good x (k r)

/-- The step makes `x`. -/
def Brings (c : Config τ (Prog ι ρ α) σ) (t : τ) (e : ε) (x : χ) : Prop :=
  match c.threads t with
  | .pure _ => False
  | .op i _ => S.makes i x ∧ S.has (S.sem i e c.shared).2 x

variable {S} {good : α → Prop} {x : χ}

theorem sweeps_bind_right (p : Prog ι ρ β) {f : β → Prog ι ρ α} (h : ∀ b, S.Sweeps good x (f b)) :
    S.Sweeps good x (p >>= f) := by
  induction p with
  | pure b => exact h b
  | op i k ih => exact .inr ih

theorem sweeps_op {i : ι} {k : ρ i → Prog ι ρ α} (hi : S.drops i x)
    (hk : ∀ r, (k r).Only fun j => ¬S.Touches j x) : S.Sweeps good x (.op i k) := .inl ⟨hi, hk⟩

theorem sweeps_later {i : ι} {k : ρ i → Prog ι ρ α} (hk : ∀ r, S.Sweeps good x (k r)) :
    S.Sweeps good x (.op i k) := .inr hk

section
variable [DecidableEq τ]

/-- What no step changes: the first program has still to drop `x` or does not touch it any more,
and the others never drop it. -/
structure Sweeping (S : Stock ι ρ ε σ χ) (good : α → Prop) (x : χ) (t₀ : τ)
    (c : Config τ (Prog ι ρ α) σ) : Prop where
  sweeper : S.Sweeps good x (c.threads t₀) ∨ (c.threads t₀).Only fun i => ¬S.Touches i x
  others : ∀ u ≠ t₀, (c.threads u).Only fun i => ¬S.drops i x

variable {t₀ : τ} {c : Config τ (Prog ι ρ α) σ}

theorem step_of_pure {t : τ} {a : α} (h : c.threads t = .pure a) (e : ε) :
    c.step (machine S.sem) t e = c := by
  unfold Config.step
  simp only [h, machine]
  rw [← h, Function.update_eq_self]

theorem step_of_op {t : τ} {i : ι} {k : ρ i → Prog ι ρ α} (h : c.threads t = .op i k) (e : ε) :
    (c.step (machine S.sem) t e).shared = (S.sem i e c.shared).2 ∧
      (c.step (machine S.sem) t e).threads t = k (S.sem i e c.shared).1 := by
  rw [Config.step_shared, Config.step_self, h]
  exact ⟨rfl, rfl⟩

theorem Sweeping.step (h : S.Sweeping good x t₀ c) (t : τ) (e : ε) :
    S.Sweeping good x t₀ (c.step (machine S.sem) t e) := by
  cases hop : c.threads t with
  | pure a => rwa [step_of_pure hop]
  | op i k =>
    obtain ⟨-, hself⟩ := step_of_op hop e
    constructor
    · by_cases ht : t₀ = t
      · subst ht
        have hsweeper := h.sweeper
        rw [hop] at hsweeper
        rw [hself]
        rcases hsweeper with (⟨-, hrest⟩ | hlater) | honly
        · exact .inr (hrest _)
        · exact .inl (hlater _)
        · exact .inr (honly.2 _)
      · rw [Config.step_other _ ht]
        exact h.sweeper
    · intro u hu
      by_cases hut : u = t
      · have hothers := h.others u hu
        subst hut
        rw [hop] at hothers
        rw [hself]
        exact hothers.2 _
      · rw [Config.step_other _ hut]
        exact h.others u hu

/-- Nothing is there that the first program has not still to drop. -/
theorem pending_step (h : S.Sweeping good x t₀ c)
    (hpending : S.has c.shared x → S.Sweeps good x (c.threads t₀)) {t : τ} {e : ε}
    (hok : t = t₀ → ¬S.fails e)
    (hbrings : t ≠ t₀ → S.Brings c t e x → S.Sweeps good x (c.threads t₀)) :
    S.has (c.step (machine S.sem) t e).shared x →
      S.Sweeps good x ((c.step (machine S.sem) t e).threads t₀) := by
  cases hop : c.threads t with
  | pure a => rwa [step_of_pure hop]
  | op i k =>
    obtain ⟨hshared, hself⟩ := step_of_op hop e
    rw [hshared]
    intro hafter
    by_cases ht : t₀ = t
    · subst ht
      have hsweeper := h.sweeper
      rw [hop] at hsweeper hpending
      rw [hself]
      rcases hsweeper with (⟨hdrops, -⟩ | hlater) | honly
      · exact absurd hafter (S.dropped i e _ x hdrops (hok rfl))
      · exact hlater _
      · -- not made by this step, it was there before
        rcases S.made i e _ x hafter with hbefore | hmakes
        · rcases hpending hbefore with ⟨hdrops, -⟩ | hlater
          · exact absurd (.inr hdrops) honly.1
          · exact hlater _
        · exact absurd (.inl hmakes) honly.1
    · rw [Config.step_other _ ht]
      rcases S.made i e _ x hafter with hbefore | hmakes
      · exact hpending hbefore
      · apply hbrings (Ne.symm ht)
        unfold Brings
        rw [hop]
        exact ⟨hmakes, hafter⟩

/-- What nobody is to drop stays. -/
theorem stays_step (honly : (c.threads t₀).Only fun i => ¬S.Touches i x)
    (hothers : ∀ u ≠ t₀, (c.threads u).Only fun i => ¬S.drops i x) (hhas : S.has c.shared x)
    (t : τ) (e : ε) : S.has (c.step (machine S.sem) t e).shared x := by
  cases hop : c.threads t with
  | pure a => rwa [step_of_pure hop]
  | op i k =>
    rw [(step_of_op hop e).1]
    apply S.kept i e _ x _ hhas
    by_cases ht : t = t₀
    · subst ht
      rw [hop] at honly
      exact fun hdrops => honly.1 (.inr hdrops)
    · have hthread := hothers t ht
      rw [hop] at hthread
      exact hthread.1

theorem exec_stays (h : S.Sweeping good x t₀ c) (honly : (c.threads t₀).Only fun i => ¬S.Touches i x)
    (hhas : S.has c.shared x) (sched : List (τ × ε)) :
    S.has (c.exec (machine S.sem) sched).shared x := by
  induction sched generalizing c with
  | nil => exact hhas
  | cons q sched ih =>
    apply ih (h.step q.1 q.2)
    · cases hop : c.threads q.1 with
      | pure a => rwa [step_of_pure hop]
      | op i k =>
        by_cases ht : t₀ = q.1
        · subst ht
          rw [hop] at honly
          rw [(step_of_op hop q.2).2]
          exact honly.2 _
        · rwa [Config.step_other _ ht]
    · exact stays_step honly h.others hhas q.1 q.2

/-- Once the first program has come to its good end, `x` is gone exactly where no other program
made it after the time for it. -/
theorem swept_iff {sched : List (τ × ε)} (hsweeps : S.Sweeps good x (c.threads t₀))
    (hothers : ∀ u ≠ t₀, (c.threads u).Only fun i => ¬S.drops i x)
    (hok : ∀ q ∈ sched, q.1 = t₀ → ¬S.fails q.2)
    (hdone : ∃ a, good a ∧ (c.exec (machine S.sem) sched).threads t₀ = .pure a) :
    ¬S.has (c.exec (machine S.sem) sched).shared x ↔ Along (machine S.sem)
      (fun c t e => t ≠ t₀ → S.Brings c t e x → S.Sweeps good x (c.threads t₀)) c sched := by
  have key : ∀ c : Config τ (Prog ι ρ α) σ, S.Sweeping good x t₀ c →
      (S.has c.shared x → S.Sweeps good x (c.threads t₀)) →
      (∃ a, good a ∧ (c.exec (machine S.sem) sched).threads t₀ = .pure a) →
      (¬S.has (c.exec (machine S.sem) sched).shared x ↔ Along (machine S.sem)
        (fun c t e => t ≠ t₀ → S.Brings c t e x → S.Sweeps good x (c.threads t₀)) c sched) := by
    clear hsweeps hothers hdone
    intro c h hpending hdone
    induction sched generalizing c with
    | nil =>
      obtain ⟨a, hgood, ha⟩ := hdone
      have hgone : ¬S.has c.shared x := by
        intro hhas
        have hsweeps := hpending hhas
        rw [show c.threads t₀ = .pure a from ha] at hsweeps
        exact hsweeps hgood
      exact iff_of_true hgone trivial
    | cons q sched ih =>
      have hokq := hok q List.mem_cons_self
      have hok' := fun q' hq' => hok q' (List.mem_cons_of_mem _ hq')
      constructor
      · intro hgone
        -- what is made too late stays to the end
        have hbrings : q.1 ≠ t₀ → S.Brings c q.1 q.2 x → S.Sweeps good x (c.threads t₀) := by
          intro ht hb
          rcases h.sweeper with hsweeps | honly
          · exact hsweeps
          · have hafter : S.has (c.step (machine S.sem) q.1 q.2).shared x := by
              unfold Brings at hb
              cases hop : c.threads q.1 with
              | pure a =>
                rw [hop] at hb
                exact hb.elim
              | op i k =>
                rw [hop] at hb
                rw [(step_of_op hop q.2).1]
                exact hb.2
            have honly' : ((c.step (machine S.sem) q.1 q.2).threads t₀).Only fun i =>
              ¬S.Touches i x := by
              rwa [Config.step_other _ (Ne.symm ht)]
            exact absurd (exec_stays (h.step q.1 q.2) honly' hafter sched) hgone
        exact ⟨hbrings, (ih hok' _ (h.step q.1 q.2)
          (pending_step h hpending hokq hbrings) hdone).mp hgone⟩
      · rintro ⟨hbrings, hrest⟩
        exact (ih hok' _ (h.step q.1 q.2) (pending_step h hpending hokq hbrings) hdone).mpr hrest
  exact key c ⟨.inl hsweeps, hothers⟩ (fun _ => hsweeps) hdone

theorem along_forall {P : Type} {m : Machine P ε σ} {ok : χ → Config τ P σ → τ → ε → Prop}
    {c : Config τ P σ} {sched : List (τ × ε)} :
    (∀ x, Along m (ok x) c sched) ↔ Along m (fun c t e => ∀ x, ok x c t e) c sched := by
  induction sched generalizing c with
  | nil => exact ⟨fun _ => trivial, fun _ _ => trivial⟩
  | cons q sched ih =>
    constructor
    · intro h
      exact ⟨fun x => (h x).1, ih.mp fun x => (h x).2⟩
    · intro h x
      exact ⟨h.1 x, ih.mpr h.2 x⟩

end
end Stock
end LanWeave.Library

import LanWeave.Library.Program
import Mathlib.Data.Nat.Basic

/-! Runs of a program alone in which a given number of operations fail. The environment's
choice for an operation is whether it fails, and only fallible operations ever do. `Ensures`
is the weakest precondition of such runs. For the runs without a failure, `Repairs` says which
defects of the state a program takes away, and that it brings no others. -/

namespace LanWeave.Library.Prog
variable {ι : Type} {ρ : ι → Type} {α β σ χ : Type}

section
variable (sem : Semantics ι ρ Bool σ) (fallible : ι → Bool)

def Ensures : Prog ι ρ α → ℕ → σ → (α → σ → Prop) → Prop
  | pure a, n, s, Q => n = 0 → Q a s
  | op i k, n, s, Q => Ensures (k (sem i false s).1) n (sem i false s).2 Q ∧
      (fallible i = true → ∀ m, n = m + 1 → Ensures (k (sem i true s).1) m (sem i true s).2 Q)

variable {sem fallible} {p : Prog ι ρ α} {n : ℕ} {s : σ} {Q Q' : α → σ → Prop}

theorem ensures_iff_runs : p.Ensures sem fallible n s Q ↔ ∀ tr a s', p.Runs sem s tr a s' →
    (∀ x ∈ tr, x.2 = true → fallible x.1 = true) → tr.countP (·.2) = n → Q a s' := by
  induction p generalizing n s with
  | pure a =>
    constructor
    · rintro h _ _ _ ⟨rfl, rfl, rfl⟩ - hn
      exact h hn.symm
    · intro h hn
      exact h [] a s ⟨rfl, rfl, rfl⟩ (by simp) (by simp [hn])
  | op i k ih =>
    simp only [Ensures, ih]
    constructor
    · rintro ⟨hok, hfail⟩ _ a s' ⟨e, tr, rfl, hrun⟩ hf hn
      have hrest : ∀ x ∈ tr, x.2 = true → fallible x.1 = true :=
        fun x hx => hf x (List.mem_cons_of_mem _ hx)
      cases e with
      | false => exact hok tr a s' hrun hrest (by simpa using hn)
      | true =>
        have hi : fallible i = true := hf (i, true) List.mem_cons_self rfl
        exact hfail hi (tr.countP (·.2)) (by simpa using hn.symm) tr a s' hrun hrest rfl
    · intro h
      constructor
      · intro tr a s' hrun hf hn
        refine h ((i, false) :: tr) a s' ⟨false, tr, rfl, hrun⟩ ?_ (by simpa using hn)
        exact List.forall_mem_cons.mpr ⟨fun hfail => absurd hfail Bool.false_ne_true, hf⟩
      · rintro hi m rfl tr a s' hrun hf hn
        refine h ((i, true) :: tr) a s' ⟨true, tr, rfl, hrun⟩ ?_ (by simpa using hn)
        exact List.forall_mem_cons.mpr ⟨fun _ => hi, hf⟩

theorem ensures_zero : p.Ensures sem fallible 0 s Q ↔
    Q (p.run sem false s).1 (p.run sem false s).2 := by
  induction p generalizing s with
  | pure a => simp [Ensures]
  | op i k ih =>
    simp only [Ensures, ih, run_op]
    exact and_iff_left fun _ m hm => absurd hm m.succ_ne_zero.symm

theorem ensures_sure {i : ι} {k : ρ i → Prog ι ρ α} (hi : fallible i = false) :
    (op i k).Ensures sem fallible n s Q ↔
      (k (sem i false s).1).Ensures sem fallible n (sem i false s).2 Q := by
  simp [Ensures, hi]

theorem ensures_one {i : ι} {k : ρ i → Prog ι ρ α} (hi : fallible i = true) :
    (op i k).Ensures sem fallible 1 s Q ↔
      (k (sem i false s).1).Ensures sem fallible 1 (sem i false s).2 Q ∧
        Q ((k (sem i true s).1).run sem false (sem i true s).2).1
          ((k (sem i true s).1).run sem false (sem i true s).2).2 := by
  have hfailed : (k (sem i true s).1).Ensures sem fallible 0 (sem i true s).2 Q ↔
      Q ((k (sem i true s).1).run sem false (sem i true s).2).1
        ((k (sem i true s).1).run sem false (sem i true s).2).2 := ensures_zero
  rw [← hfailed]
  simp [Ensures, hi]

theorem Ensures.mono (h : p.Ensures sem fallible n s Q) (hQ : ∀ a s', Q a s' → Q' a s') :
    p.Ensures sem fallible n s Q' := by
  induction p generalizing n s with
  | pure a => exact fun hn => hQ a s (h hn)
  | op i k ih => exact ⟨ih _ h.1, fun hi m hm => ih _ (h.2 hi m hm)⟩

theorem ensures_bind {f : α → Prog ι ρ β} {Q : β → σ → Prop} :
    (p >>= f).Ensures sem fallible n s Q ↔ ∀ i j, i + j = n →
      p.Ensures sem fallible i s fun a s' => (f a).Ensures sem fallible j s' Q := by
  induction p generalizing n s with
  | pure a =>
    simp only [pure_bind, Ensures]
    constructor
    · rintro h i j rfl rfl
      rwa [Nat.zero_add] at h
    · exact fun h => h 0 n (Nat.zero_add n) rfl
  | op i k ih =>
    simp only [op_bind, Ensures, ih]
    constructor
    · rintro ⟨hok, hfail⟩ a b rfl
      refine ⟨hok a b rfl, ?_⟩
      rintro hi m rfl
      exact hfail hi (m + b) (by omega) m b rfl
    · intro h
      refine ⟨fun a b hab => (h a b hab).1, ?_⟩
      rintro hi m rfl a b rfl
      exact (h (a + 1) b (by omega)).2 hi a rfl

theorem ensures_bind_sure {f : α → Prog ι ρ β} {Q : β → σ → Prop}
    (hp : p.Only fun i => fallible i = false) :
    (p >>= f).Ensures sem fallible n s Q ↔
      (f (p.run sem false s).1).Ensures sem fallible n (p.run sem false s).2 Q := by
  induction p generalizing s with
  | pure a => exact Iff.rfl
  | op i k ih =>
    rw [op_bind, ensures_sure hp.1, ih _ (hp.2 _), run_op]

end

section
variable (sem : Semantics ι ρ Bool σ) (defect : σ → χ → Prop)

/-- From `I` to `J`, with the defects in `mended` gone and no new ones. -/
def Repairs (I J : σ → Prop) (p : Prog ι ρ α) (mended : χ → Prop) : Prop :=
  ∀ s, I s → J (p.run sem false s).2 ∧
    ∀ x, defect (p.run sem false s).2 x → defect s x ∧ ¬ mended x

variable {sem defect} {I J K : σ → Prop} {p : Prog ι ρ α} {mended mended' : χ → Prop}

theorem repairs_pure (a : α) : (pure a : Prog ι ρ α).Repairs sem defect I I fun _ => False :=
  fun _ hs => ⟨hs, fun _ hx => ⟨hx, id⟩⟩

theorem Repairs.mono (h : p.Repairs sem defect I J mended) (hm : ∀ x, mended' x → mended x) :
    p.Repairs sem defect I J mended' := by
  intro s hs
  obtain ⟨hJ, hx⟩ := h s hs
  exact ⟨hJ, fun x hd => ⟨(hx x hd).1, fun hm' => (hx x hd).2 (hm x hm')⟩⟩

theorem Repairs.bind {f : α → Prog ι ρ β} (hp : p.Repairs sem defect I J mended)
    (hf : ∀ a, (f a).Repairs sem defect J K mended') :
    (p >>= f).Repairs sem defect I K fun x => mended x ∨ mended' x := by
  intro s hs
  obtain ⟨hJ, hx⟩ := hp s hs
  obtain ⟨hK, hy⟩ := hf (p.run sem false s).1 _ hJ
  rw [run_bind]
  refine ⟨hK, fun x hd => ?_⟩
  obtain ⟨hmid, hnot'⟩ := hy x hd
  obtain ⟨hfirst, hnot⟩ := hx x hmid
  exact ⟨hfirst, fun hor => hor.elim hnot hnot'⟩

/-- A loop, whose invariant may speak of the elements still to come. -/
theorem repairs_forEach {I : List β → σ → Prop} {f : β → Prog ι ρ Unit} {mended : β → χ → Prop}
    (hstep : ∀ b bs, (f b).Repairs sem defect (I (b :: bs)) (I bs) (mended b)) (bs : List β) :
    (forEach f bs).Repairs sem defect (I bs) (I []) fun x => ∃ b ∈ bs, mended b x := by
  induction bs with
  | nil => exact (repairs_pure ()).mono fun x ⟨b, hb, _⟩ => absurd hb List.not_mem_nil
  | cons b bs ih =>
    refine ((hstep b bs).bind fun _ => ih).mono fun x hx => ?_
    obtain ⟨c, hc, hm⟩ := hx
    rcases List.mem_cons.mp hc with rfl | hc
    · exact .inl hm
    · exact .inr ⟨c, hc, hm⟩

end
end LanWeave.Library.Prog

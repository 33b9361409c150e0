import LanWeave.Library.Journal

/-! Debts between interleaved programs. An item of the shared state is `bad` until some program
repairs it; a program `Owes` the repair when every way it can still go performs one. If each
program pays for the items it spoils, as long as what it has heard is still so when it relies on
it, nothing is bad once all have finished. -/

namespace LanWeave.Library
open Prog

variable {ι : Type} {ρ : ι → Type} {α β ε σ χ τ : Type}

/-- Operations over a state with an invariant every admitted step keeps, a preorder `After` of
states that may come later, and the items that may be bad in a state. -/
structure Ledger (ι : Type) (ρ : ι → Type) (ε σ χ : Type) where
  sem : Semantics ι ρ ε σ
  admits : ι → ε → σ → Prop
  Inv : σ → Prop
  After : σ → σ → Prop
  bad : σ → χ → Prop
  after_refl : ∀ s, After s s
  after_trans : ∀ s₁ s₂ s₃, After s₁ s₂ → After s₂ s₃ → After s₁ s₃
  inv_step : ∀ i e s, Inv s → admits i e s → Inv (sem i e s).2
  after_step : ∀ i e s, Inv s → admits i e s → After s (sem i e s).2

namespace Ledger
variable (L : Ledger ι ρ ε σ χ)

/-- Every way the program can still go repairs `x`. -/
def Owes (x : χ) : Prog ι ρ α → Prop
  | .pure _ => False
  | .op i k => (∀ e s, L.Inv s → L.admits i e s → ¬ L.bad (L.sem i e s).2 x) ∨
      ∀ e s, L.Inv s → L.admits i e s → Owes x (k (L.sem i e s).1)

/-- The same, judged as the operations turn out: each either leaves `x` repaired or the rest of
the program to repair it, where that may be the one in one state and the other in another. -/
def Redeems (x : χ) : Prog ι ρ α → Prop
  | .pure _ => False
  | .op i k => ∀ e s, L.Inv s → L.admits i e s →
      ¬ L.bad (L.sem i e s).2 x ∨ Redeems x (k (L.sem i e s).1)

/-- From `s₀` on, whatever other programs do in between, each operation of the program that still
finds what it relies on leaves the items it spoils to be redeemed by the rest of the program. -/
def Pays (still : Heard ι ρ σ → ι → ε → σ → Prop) : Heard ι ρ σ → σ → Prog ι ρ α → Prop
  | _, _, .pure _ => True
  | heard, s₀, .op i k => ∀ e s, L.After s₀ s → L.Inv s → L.admits i e s → still heard i e s →
      (∀ x, L.bad (L.sem i e s).2 x → L.bad s x ∨ L.Redeems x (k (L.sem i e s).1)) ∧
      Pays still ((⟨i, (L.sem i e s).1⟩, (L.sem i e s).2) :: heard) (L.sem i e s).2 (k (L.sem i e s).1)

variable {L}

theorem Owes.redeems {x : χ} {p : Prog ι ρ α} (h : L.Owes x p) : L.Redeems x p := by
  induction p with
  | pure a => exact h
  | op i k ih =>
    intro e s hs he
    rcases h with hfix | hrest
    · exact .inl (hfix e s hs he)
    · exact .inr (ih _ (hrest e s hs he))

theorem Redeems.bind {x : χ} {p : Prog ι ρ α} (h : L.Redeems x p) (f : α → Prog ι ρ β) :
    L.Redeems x (p >>= f) := by
  induction p with
  | pure a => exact h.elim
  | op i k ih => exact fun e s hs he => (h e s hs he).imp id (ih _)

theorem redeems_bind_right {x : χ} (p : Prog ι ρ α) {f : α → Prog ι ρ β} (h : ∀ a, L.Redeems x (f a)) :
    L.Redeems x (p >>= f) := by
  induction p with
  | pure a => exact h a
  | op i k ih => exact fun _ _ _ _ => .inr (ih _)

theorem Owes.bind {x : χ} {p : Prog ι ρ α} (h : L.Owes x p) (f : α → Prog ι ρ β) :
    L.Owes x (p >>= f) := by
  induction p with
  | pure a => exact h.elim
  | op i k ih => exact h.imp id fun hk e s hs he => ih _ (hk e s hs he)

theorem owes_bind_right {x : χ} (p : Prog ι ρ α) {f : α → Prog ι ρ β} (h : ∀ a, L.Owes x (f a)) :
    L.Owes x (p >>= f) := by
  induction p with
  | pure a => exact h a
  | op i k ih => exact .inr fun _ _ _ _ => ih _

theorem owes_forEach {x : χ} {f : β → Prog ι ρ Unit} {b : β} {bs : List β} (hb : b ∈ bs)
    (h : L.Owes x (f b)) : L.Owes x (forEach f bs) := by
  induction bs with
  | nil => cases hb
  | cons c cs ih =>
    rcases List.mem_cons.mp hb with rfl | hb
    · exact h.bind _
    · exact owes_bind_right _ fun _ => ih hb

section
variable {still : Heard ι ρ σ → ι → ε → σ → Prop} {heard : Heard ι ρ σ} {s : σ}

theorem Pays.mono {s' : σ} {p : Prog ι ρ α} (h : L.Pays still heard s p) (hs : L.After s s') :
    L.Pays still heard s' p := by
  cases p with
  | pure a => trivial
  | op i k => exact fun e t ht => h e t (L.after_trans _ _ _ hs ht)

theorem Pays.bind {p : Prog ι ρ α} {f : α → Prog ι ρ β} (hp : L.Pays still heard s p)
    (hf : ∀ more t a, heard <:+ more → L.After s t → L.Pays still more t (f a)) :
    L.Pays still heard s (p >>= f) := by
  induction p generalizing heard s with
  | pure a => exact hf heard s a List.suffix_rfl (L.after_refl s)
  | op i k ih =>
    intro e t ht hI he hstill
    obtain ⟨hspoils, hrest⟩ := hp e t ht hI he hstill
    refine ⟨fun x hb => (hspoils x hb).imp id fun h => h.bind f, ?_⟩
    refine ih _ hrest fun more u a hmore hu => hf more u a ?_ ?_
    · exact (List.suffix_cons _ _).trans hmore
    · exact L.after_trans _ _ _ ht (L.after_trans _ _ _ (L.after_step i e t hI he) hu)

theorem pays_forEach {f : β → Prog ι ρ Unit} {bs : List β}
    (h : ∀ b ∈ bs, ∀ more t, heard <:+ more → L.After s t → L.Pays still more t (f b)) :
    L.Pays still heard s (forEach f bs) := by
  induction bs generalizing heard s with
  | nil => trivial
  | cons b bs ih =>
    refine (h b List.mem_cons_self heard s List.suffix_rfl (L.after_refl s)).bind
      fun more t _ hmore ht => ih fun c hc more' u hmore' hu => ?_
    exact h c (List.mem_cons_of_mem _ hc) more' u (hmore.trans hmore') (L.after_trans _ _ _ ht hu)

/-- An operation that spoils nothing as long as it finds what it relies on leaves only the
continuation to check. -/
theorem pays_op {i : ι} {k : ρ i → Prog ι ρ α}
    (hq : ∀ e t x, L.After s t → L.Inv t → L.admits i e t → still heard i e t →
      L.bad (L.sem i e t).2 x → L.bad t x)
    (hk : ∀ e t, L.After s t → L.Inv t → L.admits i e t → still heard i e t →
      L.Pays still ((⟨i, (L.sem i e t).1⟩, (L.sem i e t).2) :: heard) (L.sem i e t).2
        (k (L.sem i e t).1)) :
    L.Pays still heard s (.op i k) := fun e t ht hI he hstill =>
  ⟨fun x hb => .inl (hq e t x ht hI he hstill hb), hk e t ht hI he hstill⟩

/-- A program none of whose operations spoils anything. -/
theorem pays_of_only {ok : ι → Prop} {p : Prog ι ρ α} (hp : p.Only ok)
    (hq : ∀ i, ok i → ∀ heard e t x, L.Inv t → L.admits i e t → still heard i e t →
      L.bad (L.sem i e t).2 x → L.bad t x) : L.Pays still heard s p := by
  induction p generalizing heard s with
  | pure a => trivial
  | op i k ih =>
    refine pays_op (fun e t x _ hI he hstill hb => hq i hp.1 heard e t x hI he hstill hb) ?_
    exact fun e t _ _ _ _ => ih _ (hp.2 _)

end

section
variable (L) [DecidableEq τ] (still : τ → Heard ι ρ σ → ι → ε → σ → Prop)

/-- The condition on a step: the environment's choice is admitted, and the program still finds what
it relies on. -/
def Careful (c : Config τ (Heard ι ρ σ × Prog ι ρ α) σ) (t : τ) (e : ε) : Prop :=
  ∀ i k, (c.threads t).2 = .op i k → L.admits i e c.shared ∧ still t (c.threads t).1 i e c.shared

/-- What holds between steps: the invariant, each program still pays, each bad item is to be
redeemed. -/
structure Balanced (c : Config τ (Heard ι ρ σ × Prog ι ρ α) σ) : Prop where
  inv : L.Inv c.shared
  pays : ∀ t, L.Pays (still t) (c.threads t).1 c.shared (c.threads t).2
  owed : ∀ x, L.bad c.shared x → ∃ t, L.Redeems x (c.threads t).2

variable {L still}

/-- A debt other programs hold survives a step; the stepping program's own is paid or kept. -/
theorem redeems_step {c : Config τ (Heard ι ρ σ × Prog ι ρ α) σ} {t u : τ} {e : ε} {x : χ} {i : ι}
    {k : ρ i → Prog ι ρ α} (hop : (c.threads t).2 = .op i k)
    (hself : ((c.step (noting L.sem) t e).threads t).2 = k (L.sem i e c.shared).1) (hI : L.Inv c.shared)
    (he : L.admits i e c.shared) (hb : L.bad (L.sem i e c.shared).2 x)
    (hu : L.Redeems x (c.threads u).2) : L.Redeems x ((c.step (noting L.sem) t e).threads u).2 := by
  by_cases hut : u = t
  · subst hut
    rw [hself]
    rw [hop] at hu
    exact (hu e c.shared hI he).resolve_left (absurd hb)
  · rwa [Config.step_other _ hut]

theorem Balanced.step {c : Config τ (Heard ι ρ σ × Prog ι ρ α) σ} (h : L.Balanced still c)
    (t : τ) (e : ε)
    (hc : L.Careful still c t e) : L.Balanced still (c.step (noting L.sem) t e) := by
  cases hop : (c.threads t).2 with
  | pure a =>
    have hsame : c.step (noting L.sem) t e = c := by
      have hstay : noting L.sem (c.threads t) e c.shared = (c.threads t, c.shared) := by
        rw [← Prod.eta (c.threads t), hop]
        rfl
      unfold Config.step
      rw [hstay, Function.update_eq_self]
    rwa [hsame]
  | op i k =>
    obtain ⟨he, hstill⟩ := hc i k hop
    have hmoves : noting L.sem (c.threads t) e c.shared =
        (((⟨i, (L.sem i e c.shared).1⟩, (L.sem i e c.shared).2) :: (c.threads t).1,
          k (L.sem i e c.shared).1),
          (L.sem i e c.shared).2) := by
      rw [← Prod.eta (c.threads t), hop]
      rfl
    have hself := Config.step_self (m := noting L.sem) c t e
    have hshared := Config.step_shared (m := noting L.sem) c t e
    rw [hmoves] at hself hshared
    have hpay := h.pays t
    rw [hop] at hpay
    obtain ⟨hspoils, hrest⟩ := hpay e c.shared (L.after_refl _) h.inv he hstill
    refine ⟨hshared ▸ L.inv_step i e _ h.inv he, fun u => ?_, fun x hx => ?_⟩
    · by_cases hut : u = t
      · rw [hut, hself, hshared]
        exact hrest
      · rw [Config.step_other _ hut, hshared]
        exact (h.pays u).mono (L.after_step i e _ h.inv he)
    · rw [hshared] at hx
      have hnext : ((c.step (noting L.sem) t e).threads t).2 = k (L.sem i e c.shared).1 :=
        congrArg Prod.snd hself
      -- the entry was bad before, and somebody owes it; or the step broke it, and the thread itself
      -- does
      rcases hspoils x hx with hx₀ | hx₀
      · obtain ⟨u, hu⟩ := h.owed x hx₀
        exact ⟨u, redeems_step hop hnext h.inv he hx hu⟩
      · exact ⟨t, hnext ▸ hx₀⟩

/-- Once every program has returned after a careful run, no item is bad. -/
theorem settled {c : Config τ (Prog ι ρ α) σ} {sched : List (τ × ε)} (hI : L.Inv c.shared)
    (hpays : ∀ t, L.Pays (still t) [] c.shared (c.threads t)) (hclean : ∀ x, ¬ L.bad c.shared x)
    (hc : Along (noting L.sem) (L.Careful still) (noted c) sched)
    (hdone : ∀ t, ∃ a, (c.exec (machine L.sem) sched).threads t = .pure a) (x : χ) :
    ¬ L.bad (c.exec (machine L.sem) sched).shared x := by
  intro hx
  have hrun : plain ((noted c).exec (noting L.sem) sched) = c.exec (machine L.sem) sched :=
    plain_exec sched
  have hinit : L.Balanced still (noted c) := ⟨hI, hpays, fun y hy => absurd hy (hclean y)⟩
  have hb := exec_induction (I := L.Balanced still) (fun _ t e hb hok => hb.step t e hok) hinit hc
  rw [← hrun] at hx hdone
  obtain ⟨t, ht⟩ := hb.owed x hx
  obtain ⟨a, ha⟩ := hdone t
  exact (congrArg (L.Redeems x) ha).mp ht

end
end Ledger
end LanWeave.Library

import LanWeave.Library.Program
import Mathlib.Data.List.Induction

/-! A copy that several programs derive from one source. A program that changes the source
renews the copy after it. One that has read the source before another program changed it puts an old
copy in its place; if some program puts one there later, the last of them is not old. -/

namespace LanWeave.Library
open Prog

variable {ι : Type} {ρ : ι → Type} {α β ε σ χ τ : Type}

structure Feed (ι : Type) (ρ : ι → Type) (ε σ χ : Type) where
  sem : Semantics ι ρ ε σ
  admits : ι → ε → σ → Prop
  Inv : σ → Prop
  source : σ → χ
  /-- The copy is that of the source. -/
  fresh : σ → Prop
  /-- The operation starts a reading of the source. -/
  reads : ι → Prop
  /-- The operation puts a copy in its place. -/
  swaps : ι → Prop

namespace Feed
variable (F : Feed ι ρ ε σ χ)

/-- However the program comes to a good end, the copy has been that of `x` at some time from now
on, as long as the source is `x`. -/
def Renews (good : α → Prop) (x : χ) : Prog ι ρ α → Prop
  | .pure a => ¬good a
  | .op i k => ∀ e s, F.Inv s → F.admits i e s → F.source (F.sem i e s).2 = x →
      F.fresh (F.sem i e s).2 ∨ Renews good x (k (F.sem i e s).1)

/-- Each operation of the program leaves source and copy as they are, or the rest of the program
to renew the copy, or puts one in its place. -/
def Keeps (good : α → Prop) : Prog ι ρ α → Prop
  | .pure _ => True
  | .op i k => ∀ e s, F.Inv s → F.admits i e s → F.Inv (F.sem i e s).2 ∧
      (F.swaps i ∨ (F.source (F.sem i e s).2 = F.source s ∧ (F.fresh s → F.fresh (F.sem i e s).2)) ∨
        Renews F good (F.source (F.sem i e s).2) (k (F.sem i e s).1)) ∧
      Keeps good (k (F.sem i e s).1)

/-- As long as the source is `x`, what the program puts in the place of the copy is that of `x`. -/
def Derives (x : χ) : Prog ι ρ α → Prop
  | .pure _ => True
  | .op i k => ∀ e s, F.Inv s → F.admits i e s → F.source s = x →
      (F.swaps i → F.fresh (F.sem i e s).2) ∧ Derives x (k (F.sem i e s).1)

/-- The program puts a copy in its place only after it has started to read the source, which it has
not changed since; and it derives the copy from what it reads. -/
def ReadsFirst : Prop → Prog ι ρ α → Prop
  | _, .pure _ => True
  | hasRead, .op i k => ∀ e s, F.Inv s → F.admits i e s → (F.swaps i → hasRead) ∧
      (F.reads i → F.Derives (F.source s) (.op i k)) ∧
      ReadsFirst ((F.reads i ∨ hasRead) ∧ F.source (F.sem i e s).2 = F.source s) (k (F.sem i e s).1)

variable {F} {good : α → Prop} {good' : β → Prop} {x : χ}

theorem Renews.bind {p : Prog ι ρ β} {f : β → Prog ι ρ α} (h : F.Renews good' x p)
    (hf : ∀ b, ¬good' b → F.Renews good x (f b)) : F.Renews good x (p >>= f) := by
  induction p with
  | pure b => exact hf b h
  | op i k ih => exact fun e s hs he hx => (h e s hs he hx).imp id (ih _)

theorem renews_bind_right (p : Prog ι ρ β) {f : β → Prog ι ρ α} (h : ∀ b, F.Renews good x (f b)) :
    F.Renews good x (p >>= f) := by
  induction p with
  | pure b => exact h b
  | op i k ih => exact fun _ _ _ _ _ => .inr (ih _)

theorem Keeps.bind {p : Prog ι ρ β} {f : β → Prog ι ρ α} (h : F.Keeps good' p)
    (hbad : ∀ b, ¬good' b → ∀ x, F.Renews good x (f b)) (hf : ∀ b, F.Keeps good (f b)) :
    F.Keeps good (p >>= f) := by
  induction p with
  | pure b => exact hf b
  | op i k ih =>
    intro e s hs he
    obtain ⟨hinv, hop, hrest⟩ := h e s hs he
    refine ⟨hinv, ?_, ih _ hrest⟩
    rcases hop with hswap | hquiet | hrenews
    · exact .inl hswap
    · exact .inr (.inl hquiet)
    · exact .inr (.inr (hrenews.bind fun b hb => hbad b hb _))

theorem keeps_of_only {ok : ι → Prop} {p : Prog ι ρ α} (hp : p.Only ok)
    (hok : ∀ i, ok i → ∀ e s, F.Inv s → F.admits i e s → F.Inv (F.sem i e s).2 ∧
      (F.swaps i ∨ (F.source (F.sem i e s).2 = F.source s ∧ (F.fresh s → F.fresh (F.sem i e s).2)))) :
    F.Keeps good p := by
  induction p with
  | pure a => trivial
  | op i k ih =>
    intro e s hs he
    obtain ⟨hinv, hop⟩ := hok i hp.1 e s hs he
    exact ⟨hinv, hop.imp id .inl, ih _ (hp.2 _)⟩

theorem derives_of_only {p : Prog ι ρ α} (hp : p.Only fun i => ¬F.swaps i) : F.Derives x p := by
  induction p with
  | pure a => trivial
  | op i k ih => exact fun e s _ _ _ => ⟨fun hswap => absurd hswap hp.1, ih _ (hp.2 _)⟩

theorem ReadsFirst.mono {hasRead hasRead' : Prop} {p : Prog ι ρ α} (h : F.ReadsFirst hasRead p)
    (himp : hasRead → hasRead') : F.ReadsFirst hasRead' p := by
  induction p generalizing hasRead hasRead' with
  | pure a => trivial
  | op i k ih =>
    intro e s hs he
    obtain ⟨hswap, hreads, hrest⟩ := h e s hs he
    exact ⟨himp ∘ hswap, hreads, ih _ hrest fun hnext => ⟨hnext.1.imp id himp, hnext.2⟩⟩

theorem ReadsFirst.after {hasRead : Prop} {p : Prog ι ρ β} {f : β → Prog ι ρ α}
    (hp : p.Only fun i => ¬F.swaps i ∧ ¬F.reads i) (hf : ∀ b, F.ReadsFirst False (f b)) :
    F.ReadsFirst hasRead (p >>= f) := by
  induction p generalizing hasRead with
  | pure b => exact (hf b).mono False.elim
  | op i k ih =>
    exact fun e s _ _ => ⟨fun hswap => absurd hswap hp.1.1, fun hreads => absurd hreads hp.1.2,
      ih _ (hp.2 _)⟩

theorem readsFirst_of_only {p : Prog ι ρ α} (hp : p.Only fun i => ¬F.reads i ∧
    ∀ e s, F.Inv s → F.admits i e s → F.source (F.sem i e s).2 = F.source s) : F.ReadsFirst True p := by
  induction p with
  | pure a => trivial
  | op i k ih =>
    intro e s hs he
    refine ⟨fun _ => trivial, fun hreads => absurd hreads hp.1.1, (ih _ (hp.2 _)).mono fun _ => ?_⟩
    exact ⟨.inr trivial, hp.1.2 e s hs he⟩

theorem Derives.append {p : Prog ι ρ β} {f : β → Prog ι ρ α} (h : F.Derives x p)
    (hf : ∀ b, (f b).Only fun i => ¬F.swaps i) : F.Derives x (p >>= f) := by
  induction p with
  | pure b => exact derives_of_only (hf b)
  | op i k ih =>
    intro e s hs he hx
    obtain ⟨hswap, hrest⟩ := h e s hs he hx
    exact ⟨hswap, ih _ hrest⟩

theorem readsFirst_of_none {hasRead : Prop} {p : Prog ι ρ α}
    (hp : p.Only fun i => ¬F.swaps i ∧ ¬F.reads i) : F.ReadsFirst hasRead p := by
  induction p generalizing hasRead with
  | pure a => trivial
  | op i k ih =>
    exact fun e s _ _ => ⟨fun hswap => absurd hswap hp.1.1, fun hreads => absurd hreads hp.1.2,
      ih _ (hp.2 _)⟩

theorem ReadsFirst.append {hasRead : Prop} {p : Prog ι ρ β} {f : β → Prog ι ρ α}
    (h : F.ReadsFirst hasRead p) (hf : ∀ b, (f b).Only fun i => ¬F.swaps i ∧ ¬F.reads i) :
    F.ReadsFirst hasRead (p >>= f) := by
  have hswaps : ∀ b, (f b).Only fun i => ¬F.swaps i := fun b => (hf b).imp fun _ hi => hi.1
  induction p generalizing hasRead with
  | pure b => exact readsFirst_of_none (hf b)
  | op i k ih =>
    intro e s hs he
    obtain ⟨hswap, hreads, hrest⟩ := h e s hs he
    refine ⟨hswap, fun hi => ?_, ih _ hrest⟩
    have happend : F.Derives (F.source s) (.op i k >>= f) := (hreads hi).append hswaps
    exact happend

section
variable (F) [DecidableEq τ]

/-- The condition on a step: its operation is admitted. -/
def Admitted (c : Config τ (Prog ι ρ α) σ) (t : τ) (e : ε) : Prop :=
  ∀ i k, c.threads t = .op i k → F.admits i e c.shared

def Starts (c : Config τ (Prog ι ρ α) σ) (t : τ) : Prop := ∃ i k, c.threads t = .op i k ∧ F.reads i

def Swaps (c : Config τ (Prog ι ρ α) σ) (t : τ) : Prop := ∃ i k, c.threads t = .op i k ∧ F.swaps i

def Still (c : Config τ (Prog ι ρ α) σ) (t : τ) (e : ε) : Prop :=
  F.source (c.step (machine F.sem) t e).shared = F.source c.shared

/-- The order that the steps have to keep: where a program has started to read the source, another
changes it and the first then swaps its copy in, some program swaps one in after it. -/
def Ordered (c : Config τ (Prog ι ρ α) σ) (sched : List (τ × ε)) : Prop :=
  ∀ a t e b e' d, sched = a ++ (t, e) :: (b ++ (t, e') :: d) → F.Starts (c.exec (machine F.sem) a) t →
    F.Swaps (c.exec (machine F.sem) (a ++ (t, e) :: b)) t →
    ¬Along (machine F.sem) (fun c u e => u = t ∨ F.Still c u e)
      (c.exec (machine F.sem) (a ++ [(t, e)])) b →
    ¬Along (machine F.sem) (fun c u _ => ¬F.Swaps c u)
      (c.exec (machine F.sem) (a ++ (t, e) :: (b ++ [(t, e')]))) d

structure Sound (good : α → Prop) (c : Config τ (Prog ι ρ α) σ) : Prop where
  inv : F.Inv c.shared
  keeps : ∀ t, F.Keeps good (c.threads t)

/-- What holds between steps that do not swap. -/
structure Current (good : α → Prop) (c : Config τ (Prog ι ρ α) σ) : Prop extends F.Sound good c where
  renewed : F.fresh c.shared ∨ ∃ t, F.Renews good (F.source c.shared) (c.threads t)

variable {F} {c : Config τ (Prog ι ρ α) σ} {t : τ} {e : ε} {sched : List (τ × ε)}

theorem step_of_pure {a : α} (hop : c.threads t = .pure a) : c.step (machine F.sem) t e = c := by
  unfold Config.step
  simp only [hop, machine]
  rw [← hop, Function.update_eq_self]

theorem step_of_op {i : ι} {k : ρ i → Prog ι ρ α} (hop : c.threads t = .op i k) :
    (c.step (machine F.sem) t e).shared = (F.sem i e c.shared).2 ∧
      (c.step (machine F.sem) t e).threads t = k (F.sem i e c.shared).1 := by
  rw [Config.step_shared, Config.step_self, hop]
  exact ⟨rfl, rfl⟩

theorem Sound.step (h : F.Sound good c) (he : F.Admitted c t e) :
    F.Sound good (c.step (machine F.sem) t e) := by
  cases hop : c.threads t with
  | pure a => rwa [step_of_pure hop]
  | op i k =>
    obtain ⟨hshared, hself⟩ := step_of_op (F := F) (e := e) hop
    have hkeeps := h.keeps t
    rw [hop] at hkeeps
    obtain ⟨hinv, -, hrest⟩ := hkeeps e c.shared h.inv (he i k hop)
    refine ⟨by rwa [hshared], fun u => ?_⟩
    by_cases hut : u = t
    · subst hut
      rwa [hself]
    · rw [Config.step_other _ hut]
      exact h.keeps u

theorem Current.step (h : F.Current good c) (he : F.Admitted c t e) (hno : ¬F.Swaps c t) :
    F.Current good (c.step (machine F.sem) t e) := by
  refine ⟨h.toSound.step he, ?_⟩
  cases hop : c.threads t with
  | pure a =>
    rw [step_of_pure hop]
    exact h.renewed
  | op i k =>
    obtain ⟨hshared, hself⟩ := step_of_op (F := F) (e := e) hop
    have hkeeps := h.keeps t
    rw [hop] at hkeeps
    obtain ⟨-, hdoes, -⟩ := hkeeps e c.shared h.inv (he i k hop)
    rw [hshared]
    rcases hdoes with hswap | ⟨hsource, hfresh⟩ | hrenews
    · exact absurd ⟨i, k, hop, hswap⟩ hno
    · rcases h.renewed with hnow | ⟨u, hu⟩
      · exact .inl (hfresh hnow)
      · by_cases hut : u = t
        · subst hut
          rw [hop] at hu
          refine (hu e c.shared h.inv (he i k hop) hsource).imp id fun hr => ⟨u, ?_⟩
          rwa [hself, hsource]
        · refine .inr ⟨u, ?_⟩
          rwa [Config.step_other _ hut, hsource]
    · refine .inr ⟨t, ?_⟩
      rwa [hself]

/-- Where nothing is swapped in any more, the programs that come to a good end have left the copy
fresh. -/
theorem fresh_of_done (h : F.Current good c) (hadm : Along (machine F.sem) F.Admitted c sched)
    (hno : Along (machine F.sem) (fun c t _ => ¬F.Swaps c t) c sched)
    (hdone : ∀ t, ∃ a, good a ∧ (c.exec (machine F.sem) sched).threads t = .pure a) :
    F.fresh (c.exec (machine F.sem) sched).shared := by
  have hboth := hadm.imp₂ hno fun c t e he hno => And.intro he hno
  have hend := exec_induction (I := F.Current good) (fun _ _ _ hc hok => hc.step hok.1 hok.2) h hboth
  rcases hend.renewed with hfresh | ⟨t, ht⟩
  · exact hfresh
  · obtain ⟨a, hgood, ha⟩ := hdone t
    rw [ha] at ht
    exact absurd hgood ht

theorem ordered_of_subsingleton [Subsingleton τ] : F.Ordered c sched := by
  intro a t e b e' d _ _ _ hover
  have hmine : ∀ (c : Config τ (Prog ι ρ α) σ) b,
      Along (machine F.sem) (fun c u e => u = t ∨ F.Still c u e) c b := by
    intro c b
    induction b generalizing c with
    | nil => trivial
    | cons x b ih => exact ⟨.inl (Subsingleton.elim _ _), ih _⟩
  exact absurd (hmine _ b) hover

/-- The program has started to read at one of these steps and not changed the source since. -/
def HasRead (F : Feed ι ρ ε σ χ) (c : Config τ (Prog ι ρ α) σ) (sched : List (τ × ε)) (t : τ) : Prop :=
  ∃ a e b, sched = a ++ (t, e) :: b ∧ F.Starts (c.exec (machine F.sem) a) t ∧
    Along (machine F.sem) (fun c u e => u = t → F.Still c u e) (c.exec (machine F.sem) a) ((t, e) :: b)

theorem HasRead.snoc {u : τ} (h : F.HasRead c sched t)
    (hstill : u = t → F.Still (c.exec (machine F.sem) sched) u e) :
    F.HasRead c (sched ++ [(u, e)]) t := by
  obtain ⟨a, e₀, b, rfl, hstarts, halong⟩ := h
  refine ⟨a, e₀, b ++ [(u, e)], by simp, hstarts, ?_⟩
  rw [← List.cons_append]
  refine along_append.mpr ⟨halong, ?_, trivial⟩
  rwa [← Config.exec_append]

theorem readsFirst_exec (hsound : F.Sound good c) (hreads : ∀ t, F.ReadsFirst False (c.threads t))
    (hadm : Along (machine F.sem) F.Admitted c sched) : F.Sound good (c.exec (machine F.sem) sched) ∧
      ∀ t, F.ReadsFirst (F.HasRead c sched t) ((c.exec (machine F.sem) sched).threads t) := by
  induction sched using List.reverseRecOn with
  | nil => exact ⟨hsound, fun t => (hreads t).mono False.elim⟩
  | append_singleton sched x ih =>
    obtain ⟨u, e⟩ := x
    obtain ⟨hold, hnew, -⟩ := along_append.mp hadm
    obtain ⟨hs, hr⟩ := ih hold
    rw [Config.exec_append]
    refine ⟨hs.step hnew, fun t => ?_⟩
    show F.ReadsFirst _ (((c.exec (machine F.sem) sched).step (machine F.sem) u e).threads t)
    by_cases htu : t = u
    · subst htu
      cases hop : (c.exec (machine F.sem) sched).threads t with
      | pure a =>
        rw [step_of_pure hop, hop]
        trivial
      | op i k =>
        obtain ⟨hshared, hself⟩ := step_of_op (F := F) (e := e) hop
        have ht := hr t
        rw [hop] at ht
        rw [hself]
        refine (ht e _ hs.inv (hnew i k hop)).2.2.mono fun hnext => ?_
        have hstill : F.Still (c.exec (machine F.sem) sched) t e := by
          rw [Still, hshared]
          exact hnext.2
        rcases hnext.1 with hstarts | hread
        · refine ⟨sched, e, [], rfl, ⟨i, k, hop, hstarts⟩, fun _ => hstill, trivial⟩
        · exact hread.snoc fun _ => hstill
    · rw [Config.step_other _ htu]
      exact (hr t).mono fun hread => hread.snoc fun heq => absurd heq.symm htu

/-- A program that has read the source swaps in its copy, if nobody changes it meanwhile. -/
theorem derives_exec (hsound : F.Sound good c) (hd : F.Derives x (c.threads t))
    (hx : F.source c.shared = x)
    (hadm : Along (machine F.sem) F.Admitted c sched) (hstill : Along (machine F.sem) F.Still c sched) :
    F.Derives x ((c.exec (machine F.sem) sched).threads t) ∧
      F.source (c.exec (machine F.sem) sched).shared = x := by
  induction sched generalizing c with
  | nil => exact ⟨hd, hx⟩
  | cons y sched ih =>
    obtain ⟨u, e⟩ := y
    refine ih (hsound.step hadm.1) ?_ (hstill.1.trans hx) hadm.2 hstill.2
    by_cases htu : t = u
    · subst htu
      cases hop : c.threads t with
      | pure a =>
        rw [step_of_pure hop, hop]
        trivial
      | op i k =>
        rw [(step_of_op hop).2]
        rw [hop] at hd
        exact (hd e c.shared hsound.inv (hadm.1 i k hop) hx).2
    · rwa [Config.step_other _ htu]

/-- A run whose swaps are ordered ends with a fresh copy once all programs have come to a good end. -/
theorem fresh_of_ordered (h : F.Current good c) (hreads : ∀ t, F.ReadsFirst False (c.threads t))
    (hadm : Along (machine F.sem) F.Admitted c sched) (hord : F.Ordered c sched)
    (hdone : ∀ t, ∃ a, good a ∧ (c.exec (machine F.sem) sched).threads t = .pure a) :
    F.fresh (c.exec (machine F.sem) sched).shared := by
  by_cases hno : Along (machine F.sem) (fun c t _ => ¬F.Swaps c t) c sched
  · exact fresh_of_done h hadm hno hdone
  obtain ⟨pre, t, e', d, rfl, hswap, hlast⟩ := exists_last_of_not_along hno
  obtain ⟨hadm₁, hadm₂, hadm₃⟩ := along_append.mp hadm
  obtain ⟨hsound, hread⟩ := readsFirst_exec h.toSound hreads hadm₁
  obtain ⟨i, k, hop, hswaps⟩ := not_not.mp hswap
  have hfirst := hread t
  rw [hop] at hfirst
  have hadmits := hadm₂ i k hop
  obtain ⟨a, e, b, rfl, hstarts, hown⟩ := (hfirst e' _ hsound.inv hadmits).1 hswaps
  -- nobody else has changed the source since, as no swap follows
  have hothers : Along (machine F.sem) (fun c u e => u = t ∨ F.Still c u e)
      (c.exec (machine F.sem) (a ++ [(t, e)])) b := by
    by_contra hover
    have hlater := hord a t e b e' d (by simp) hstarts ⟨i, k, hop, hswaps⟩ hover
    refine hlater ?_
    simpa using hlast
  rw [Config.exec_append] at hothers
  have hstill : Along (machine F.sem) F.Still (c.exec (machine F.sem) a) ((t, e) :: b) :=
    ⟨hown.1 rfl, hown.2.imp₂ hothers fun _ _ _ hmine hother => hother.elim hmine id⟩
  -- so the copy that is swapped in is that of the source
  obtain ⟨hadm₀, hadm₁⟩ := along_append.mp hadm₁
  obtain ⟨hsound₀, hread₀⟩ := readsFirst_exec h.toSound hreads hadm₀
  obtain ⟨j, l, hop₀, hstart⟩ := hstarts
  have hbegin := hread₀ t
  rw [hop₀] at hbegin
  have hderives := (hbegin e _ hsound₀.inv (hadm₁.1 j l hop₀)).2.1 hstart
  rw [← hop₀] at hderives
  obtain ⟨hend, hsource⟩ := derives_exec hsound₀ hderives rfl hadm₁ hstill
  rw [← Config.exec_append] at hend hsource
  rw [hop] at hend
  have hfresh := (hend e' _ hsound.inv hadmits hsource).1 hswaps
  rw [← (step_of_op (F := F) (e := e') hop).1] at hfresh
  -- and after it the programs that change the source have yet to come to an end
  rw [Config.exec_append] at hdone hlast ⊢
  have hcurrent : F.Current good ((c.exec (machine F.sem) (a ++ (t, e) :: b)).step
    (machine F.sem) t e') :=
    ⟨hsound.step hadm₂, .inl hfresh⟩
  have hall := fresh_of_done hcurrent hadm₃ hlast hdone
  exact hall

end

end Feed

end LanWeave.Library

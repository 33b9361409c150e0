import LanWeave.Library.Always
import LanWeave.Library.Turns

/-! Programs with a journal: run alone with their steps beside the state, so that what is proved
whatever the environment chooses can speak of the steps so far, and as threads that keep what they
have heard. -/

namespace LanWeave.Library.Prog
variable {ι : Type} {ρ : ι → Type} {α ε σ : Type}

def journaled (sem : Semantics ι ρ ε σ) : Semantics ι ρ ε (σ × List (σ × ι × ε)) :=
  fun i e s => ((sem i e s.1).1, (sem i e s.1).2, s.2 ++ [(s.1, i, e)])

variable {sem : Semantics ι ρ ε σ} {p : Prog ι ρ α} {s s' : σ} {log : List (σ × ι × ε)}
  {tr : List (ι × ε)} {a : α}

theorem Runs.journaled (h : p.Runs sem s tr a s') :
    p.Runs (journaled sem) (s, log) tr a (s', log ++ steps sem s tr) := by
  induction p generalizing s tr log with
  | pure b =>
    obtain ⟨rfl, rfl, rfl⟩ := h
    exact ⟨rfl, rfl, congrArg (Prod.mk s') (List.append_nil log)⟩
  | op i k ih =>
    obtain ⟨e, tr, rfl, h⟩ := h
    refine ⟨e, tr, rfl, ?_⟩
    have hrest := @ih _ _ (log ++ [(s, i, e)]) _ h
    rwa [List.append_assoc] at hrest

theorem Always.journal {Q : α → σ × List (σ × ι × ε) → Prop}
    (hp : p.Always (Prog.journaled sem) (s, []) Q)
    (h : p.Runs sem s tr a s') : Q a (s', steps sem s tr) :=
  always_iff_runs.mp hp _ _ _ h.journaled

theorem always_extends (p : Prog ι ρ α) (s : σ) (log : List (σ × ι × ε)) :
    p.Always (Prog.journaled sem) (s, log) fun _ s' => log <+: s'.2 := by
  induction p generalizing s log with
  | pure a => exact List.prefix_rfl
  | op i k ih =>
    intro e
    refine (ih _ _ _).mono fun a s' h => ?_
    exact (List.prefix_append log [(s, i, e)]).trans h

theorem forall_split_snoc {β : Type} {P : List β → β → Prop} {l : List β} {x : β} :
    (∀ pre y post, l ++ [x] = pre ++ y :: post → P pre y) ↔
      (∀ pre y post, l = pre ++ y :: post → P pre y) ∧ P l x := by
  constructor
  · intro h
    refine ⟨fun pre y post hl => h pre y (post ++ [x]) ?_, h l x [] rfl⟩
    rw [hl, List.append_assoc, List.cons_append]
  · rintro ⟨hold, hnew⟩ pre y post hl
    rcases List.eq_nil_or_concat post with rfl | ⟨post, z, rfl⟩
    · obtain ⟨rfl, hx⟩ := List.append_inj' hl rfl
      rwa [← (List.cons.inj hx).1]
    · rw [List.concat_eq_append, ← List.cons_append, ← List.append_assoc] at hl
      exact hold pre y post (List.append_inj' hl rfl).1

/-- The operations of a program so far with their answers and the states they have left, the last
one first. -/
abbrev Heard (ι : Type) (ρ : ι → Type) (σ : Type) := List (Sigma ρ × σ)

def noting (sem : Semantics ι ρ ε σ) : Machine (Heard ι ρ σ × Prog ι ρ α) ε σ
  | (heard, pure a), _, s => ((heard, pure a), s)
  | (heard, op i k), e, s =>
    (((⟨i, (sem i e s).1⟩, (sem i e s).2) :: heard, k (sem i e s).1), (sem i e s).2)

variable {τ : Type}

/-- The threads before they have heard anything. -/
def noted (c : Config τ (Prog ι ρ α) σ) : Config τ (Heard ι ρ σ × Prog ι ρ α) σ :=
  ⟨fun t => ([], c.threads t), c.shared⟩

def plain (c : Config τ (Heard ι ρ σ × Prog ι ρ α) σ) : Config τ (Prog ι ρ α) σ :=
  ⟨fun t => (c.threads t).2, c.shared⟩

/-- A condition on each operation by what its program has heard, how it turns out and the state it
finds. -/
def Upheld (ok : τ → Heard ι ρ σ → ι → ε → σ → Prop) (c : Config τ (Heard ι ρ σ × Prog ι ρ α) σ) (t : τ)
    (e : ε) : Prop :=
  ∀ i k, (c.threads t).2 = op i k → ok t (c.threads t).1 i e c.shared

section
variable {heard : Heard ι ρ σ} {i : ι} {k : ρ i → Prog ι ρ α} {e : ε}

@[simp] theorem noting_pure (b : α) : noting sem (heard, pure b) e s = ((heard, pure b), s) := rfl

@[simp] theorem noting_op : noting sem (heard, op i k) e s =
    (((⟨i, (sem i e s).1⟩, (sem i e s).2) :: heard, k (sem i e s).1), (sem i e s).2) := rfl

end

theorem upheld_op {ok : τ → Heard ι ρ σ → ι → ε → σ → Prop} {c : Config τ (Heard ι ρ σ × Prog ι ρ α) σ}
    {t : τ} {e : ε} {i : ι} {k : ρ i → Prog ι ρ α} (hop : (c.threads t).2 = op i k)
    (h : ok t (c.threads t).1 i e c.shared) : Upheld ok c t e := by
  intro j l hj
  obtain ⟨rfl, -⟩ := Prog.op.inj (hop.symm.trans hj)
  exact h

/-- Every operation the program can perform meets `ok`, given the operations before it with their
answers. -/
def Follows (ok : List (Sigma ρ) → ι → Prop) : List (Sigma ρ) → Prog ι ρ α → Prop
  | _, pure _ => True
  | said, op i k => ok said i ∧ ∀ r, Follows ok (⟨i, r⟩ :: said) (k r)

section
variable {ok : List (Sigma ρ) → ι → Prop} {said : List (Sigma ρ)} {β : Type}

theorem Follows.bind {p : Prog ι ρ α} {f : α → Prog ι ρ β} (hp : p.Follows ok said)
    (hf : ∀ more a, said <:+ more → (f a).Follows ok more) : (p >>= f).Follows ok said := by
  induction p generalizing said with
  | pure a => exact hf said a List.suffix_rfl
  | op i k ih =>
    exact ⟨hp.1, fun r => ih r (hp.2 r) fun more a hmore =>
      hf more a ((List.suffix_cons _ _).trans hmore)⟩

theorem follows_of_only {ok' : ι → Prop} {p : Prog ι ρ α} (hp : p.Only ok')
    (h : ∀ said i, ok' i → ok said i) : p.Follows ok said := by
  induction p generalizing said with
  | pure a => trivial
  | op i k ih => exact ⟨h said i hp.1, fun r => ih r (hp.2 r)⟩

end

/-- A thread whose journal is of the operations as they are, each from a state that meets `I`, and
whose next operations follow from it. -/
structure Truthful (sem : Semantics ι ρ ε σ) (I : σ → Prop) (ok : List (Sigma ρ) → ι → Prop)
    (x : Heard ι ρ σ × Prog ι ρ α) : Prop where
  sound : ∀ y ∈ x.1, ∃ e s, I s ∧ sem y.1.1 e s = (y.1.2, y.2)
  follows : x.2.Follows ok (x.1.map Prod.fst)

theorem Truthful.noting {I : σ → Prop} {ok : List (Sigma ρ) → ι → Prop} {x : Heard ι ρ σ × Prog ι ρ α}
    {e : ε} (h : Truthful sem I ok x) (hs : I s) : Truthful sem I ok (noting sem x e s).1 := by
  obtain ⟨heard, p⟩ := x
  cases p with
  | pure a => exact h
  | op i k =>
    refine ⟨fun y hy => ?_, h.follows.2 _⟩
    rcases List.mem_cons.mp hy with rfl | hy
    · exact ⟨e, s, hs, rfl⟩
    · exact h.sound y hy

variable [DecidableEq τ] {c : Config τ (Heard ι ρ σ × Prog ι ρ α) σ} {t : τ} {e : ε}

theorem plain_step : plain (c.step (noting sem) t e) = (plain c).step (machine sem) t e := by
  have hself : (noting sem (c.threads t) e c.shared).1.2 = (machine sem (c.threads t).2 e c.shared).1 ∧
      (noting sem (c.threads t) e c.shared).2 = (machine sem (c.threads t).2 e c.shared).2 := by
    obtain ⟨heard, p⟩ := c.threads t
    cases p with
    | pure a => exact ⟨rfl, rfl⟩
    | op i k => exact ⟨rfl, rfl⟩
  unfold plain Config.step
  rw [hself.2]
  refine congrArg (Config.mk · _) (funext fun u => ?_)
  dsimp only
  by_cases hu : u = t
  · rw [hu, Function.update_self, Function.update_self]
    exact hself.1
  · rw [Function.update_of_ne hu, Function.update_of_ne hu]

/-- The journals change nothing about a run. -/
theorem plain_exec (sched : List (τ × ε)) :
    plain (c.exec (noting sem) sched) = (plain c).exec (machine sem) sched := by
  induction sched generalizing c with
  | nil => rfl
  | cons x sched ih =>
    rw [Config.exec, ih, plain_step]
    rfl

/-- What holds along a run holds along it with the journals. -/
theorem along_noted {ok : Config τ (Prog ι ρ α) σ → τ → ε → Prop} {sched : List (τ × ε)}
    (h : Along (machine sem) ok (plain c) sched) :
    Along (noting sem) (fun c t e => ok (plain c) t e) c sched := by
  induction sched generalizing c with
  | nil => trivial
  | cons x sched ih =>
    refine ⟨h.1, ih ?_⟩
    rw [plain_step]
    exact h.2

/-- What a program confines itself to as long as the answers are sane is upheld along every run. -/
theorem upheld_of_onlyGiven {sane : (i : ι) → ρ i → Prop} {ok : ι → Prop}
    (hsane : ∀ i e s, sane i (sem i e s).1) (h : ∀ t, (c.threads t).2.OnlyGiven sane ok)
    (sched : List (τ × ε)) : Along (noting sem) (Upheld fun _ _ i _ _ => ok i) c sched := by
  induction sched generalizing c with
  | nil => trivial
  | cons x sched ih =>
    obtain ⟨t, e⟩ := x
    refine ⟨fun i k hop => ?_, ih fun u => ?_⟩
    · have ht := h t
      rw [hop] at ht
      exact ht.1
    · by_cases hu : u = t
      · have ht := h t
        rw [hu, Config.step_self, ← Prod.eta (c.threads t)]
        cases hp : (c.threads t).2 with
        | pure a => trivial
        | op i k =>
          rw [hp] at ht
          exact ht.2 _ (hsane i e c.shared)
      · rw [Config.step_other c hu]
        exact h u

end LanWeave.Library.Prog

/-! The histories of a system that meets one event after another. -/

namespace LanWeave.Library
variable {σ ε : Type}

/-- Every event of the history meets `ok` in the state it finds. -/
def Throughout (step : σ → ε → σ) (ok : σ → ε → Prop) : σ → List ε → Prop
  | _, [] => True
  | s, x :: xs => ok s x ∧ Throughout step ok (step s x) xs

variable {step : σ → ε → σ} {ok good : σ → ε → Prop} {I : σ → Prop} {s : σ} {xs : List ε}

/-- Two conditions on events that agree wherever the invariant holds, which either of them keeps,
hold of the same histories. -/
theorem throughout_iff (hs : I s) (hiff : ∀ s x, I s → (good s x ↔ ok s x))
    (hstep : ∀ s x, I s → ok s x → I (step s x)) :
    Throughout step good s xs ↔ Throughout step ok s xs := by
  induction xs generalizing s with
  | nil => exact Iff.rfl
  | cons x xs ih =>
    have hhere := hiff s x hs
    constructor
    · rintro ⟨hgood, hrest⟩
      have hok := hhere.mp hgood
      exact ⟨hok, (ih (hstep s x hs hok)).mp hrest⟩
    · rintro ⟨hok, hrest⟩
      exact ⟨hhere.mpr hok, (ih (hstep s x hs hok)).mpr hrest⟩

/-- What a system answers to one event after another. -/
def answers {β : Type} (step : σ → ε → β × σ) : σ → List ε → List β
  | _, [] => []
  | s, x :: xs => (step s x).1 :: answers step (step s x).2 xs

/-- Two systems that answer alike as long as they are related, and stay so, answer alike throughout. -/
theorem answers_eq {σ' ε' β : Type} {step : σ → ε → β × σ} {step' : σ' → ε' → β × σ'}
    {view : ε → ε'} {ok : ε → Prop} {R : σ → σ' → Prop}
    (h : ∀ s s' x, R s s' → ok x → (step s x).1 = (step' s' (view x)).1 ∧
      R (step s x).2 (step' s' (view x)).2) {s : σ} {s' : σ'} (hs : R s s') {xs : List ε}
    (hxs : ∀ x ∈ xs, ok x) : answers step s xs = answers step' s' (xs.map view) := by
  induction xs generalizing s s' with
  | nil => rfl
  | cons x xs ih =>
    obtain ⟨hanswer, hrest⟩ := h s s' x hs (hxs x List.mem_cons_self)
    show (step s x).1 :: _ = (step' s' (view x)).1 :: _
    rw [hanswer]
    congr 1
    exact ih hrest fun y hy => hxs y (List.mem_cons_of_mem _ hy)

end LanWeave.Library

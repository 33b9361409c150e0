import Mathlib.Data.List.Perm.Subperm
import Mathlib.Order.Basic

/-! Relational tables as lists: columns that identify a row, and tables kept in the order of
an increasing row id. -/

namespace LanWeave.Library
variable {α β : Type}

/-- The column determines the row. -/
def Keyed (key : α → β) (l : List α) : Prop := ∀ a ∈ l, ∀ b ∈ l, key a = key b → a = b

/-- Row ids strictly increase along the table. -/
def Ascending (id : α → Int) (l : List α) : Prop := l.Pairwise fun a b => id a < id b

theorem Keyed.subset {key : α → β} {l l' : List α} (h : Keyed key l) (hs : l' ⊆ l) : Keyed key l' :=
  fun a ha b hb => h a (hs ha) b (hs hb)

theorem Keyed.append {key : α → β} {l : List α} {b : α} (h : Keyed key l)
    (hb : ∀ a ∈ l, key a ≠ key b) : Keyed key (l ++ [b]) := by
  intro x hx y hy hxy
  simp only [List.mem_append, List.mem_singleton] at hx hy
  rcases hx with hx | rfl <;> rcases hy with hy | rfl
  · exact h x hx y hy hxy
  · exact absurd hxy (hb x hx)
  · exact absurd hxy.symm (hb y hy)
  · rfl

/-- Rows are only taken away, and none of these: the table is the same. -/
theorem eq_of_sublist_of_subset {l l' : List α} (hsub : l'.Sublist l) (hd : l.Nodup) (hall : l ⊆ l') :
    l' = l :=
  hsub.eq_of_length_le (List.subperm_of_subset hd hall).length_le

variable {id : α → Int} {l l' : List α}

theorem Ascending.keyed (h : Ascending id l) : Keyed id l := by
  induction l with
  | nil => intro a ha; cases ha
  | cons x xs ih =>
    obtain ⟨hx, hxs⟩ := List.pairwise_cons.mp h
    intro a ha b hb hab
    rcases List.mem_cons.mp ha with hax | ha' <;> rcases List.mem_cons.mp hb with hbx | hb'
    · rw [hax, hbx]
    · exact absurd (hax ▸ hab) (Int.ne_of_lt (hx b hb'))
    · exact absurd (hbx ▸ hab.symm) (Int.ne_of_lt (hx a ha'))
    · exact ih hxs a ha' b hb' hab

theorem Ascending.sublist (h : Ascending id l) (hs : l'.Sublist l) : Ascending id l' :=
  List.Pairwise.sublist hs h

theorem Ascending.append {b : α} (h : Ascending id l) (hb : ∀ a ∈ l, id a < id b) :
    Ascending id (l ++ [b]) :=
  List.pairwise_append.mpr ⟨h, List.pairwise_singleton .., by simpa using hb⟩

theorem Ascending.filter_eq_singleton {p : α → Bool} {a : α} (h : Ascending id l) (ha : a ∈ l)
    (hp : ∀ b ∈ l, p b = true ↔ b = a) : l.filter p = [a] := by
  induction l with
  | nil => cases ha
  | cons x xs ih =>
    obtain ⟨hx, hxs⟩ := List.pairwise_cons.mp h
    obtain ⟨hhead, htail⟩ := List.forall_mem_cons.mp hp
    rcases List.mem_cons.mp ha with rfl | hmem
    · have hnone : xs.filter p = [] := by
        rw [List.filter_eq_nil_iff]
        intro b hb hpb
        obtain rfl := (htail b hb).mp hpb
        exact Int.lt_irrefl _ (hx b hb)
      rw [List.filter_cons_of_pos (hhead.mpr rfl), hnone]
    · have hne : ¬p x = true := by
        intro hpx
        obtain rfl := hhead.mp hpx
        exact Int.lt_irrefl _ (hx x hmem)
      rw [List.filter_cons_of_neg hne]
      exact ih hxs hmem htail

/-- Two tables whose rows match by id are the same list, read through columns that agree. -/
theorem Ascending.map_eq_map {γ δ : Type} {id' : γ → Int} {m : List γ} {f : α → δ} {g : γ → δ}
    (h : Ascending id l) (h' : Ascending id' m) (hl : ∀ a ∈ l, ∃ b ∈ m, id' b = id a ∧ g b = f a)
    (hm : ∀ b ∈ m, ∃ a ∈ l, id a = id' b) : l.map f = m.map g := by
  have hpairs : l.map (fun a => (id a, f a)) = m.map fun b => (id' b, g b) := by
    have hasc : (l.map fun a => (id a, f a)).Pairwise fun x y => x.1 < y.1 := List.pairwise_map.mpr h
    have hasc' : (m.map fun b => (id' b, g b)).Pairwise fun x y => x.1 < y.1 :=
      List.pairwise_map.mpr h'
    have hnodup {k : List (Int × δ)} (hk : k.Pairwise fun x y => x.1 < y.1) : k.Nodup :=
      hk.imp fun hlt heq => Int.ne_of_lt hlt (congrArg Prod.fst heq)
    refine List.Perm.eq_of_pairwise (fun x y _ _ hxy hyx =>
      absurd hxy (Int.not_lt.mpr (Int.le_of_lt hyx)))
      hasc hasc' ((List.perm_ext_iff_of_nodup (hnodup hasc) (hnodup hasc')).mpr fun x => ?_)
    constructor
    · intro hx
      obtain ⟨a, ha, rfl⟩ := List.mem_map.mp hx
      obtain ⟨b, hb, hid, hcol⟩ := hl a ha
      exact List.mem_map.mpr ⟨b, hb, by rw [hid, hcol]⟩
    · intro hx
      obtain ⟨b, hb, rfl⟩ := List.mem_map.mp hx
      obtain ⟨a, ha, hid⟩ := hm b hb
      obtain ⟨b', hb', hid', hcol⟩ := hl a ha
      obtain rfl := h'.keyed b' hb' b hb (hid'.trans hid)
      exact List.mem_map.mpr ⟨a, ha, by rw [hid, hcol]⟩
  calc l.map f = (l.map fun a => (id a, f a)).map Prod.snd := by rw [List.map_map]; rfl
    _ = (m.map fun b => (id' b, g b)).map Prod.snd := by rw [hpairs]
    _ = m.map g := by rw [List.map_map]; rfl

theorem Keyed.find?_eq_some_iff [DecidableEq β] {key : α → β} (h : Keyed key l) {k : β} {a : α} :
    l.find? (fun x => key x = k) = some a ↔ a ∈ l ∧ key a = k := by
  constructor
  · intro hf
    exact ⟨List.mem_of_find?_eq_some hf, by simpa using List.find?_some hf⟩
  · rintro ⟨ha, rfl⟩
    cases hf : l.find? fun x => key x = key a with
    | none =>
      have := List.find?_eq_none.mp hf a ha
      simp at this
    | some b =>
      have hb := List.mem_of_find?_eq_some hf
      have hkey : key b = key a := by simpa using List.find?_some hf
      rw [h b hb a ha hkey]

theorem any_and_id_eq_false {p : α → Bool} {k : Int} :
    (l.any fun a => p a && decide (id a = k)) = false ↔ ∀ a ∈ l, id a = k → p a = false := by
  simp only [List.any_eq_false, Bool.and_eq_true, decide_eq_true_eq, not_and]
  exact forall₂_congr fun a _ => by cases p a <;> simp

/-- Only rows in `add` appear and only rows in `rem` disappear. -/
structure Moves (add rem : α → Prop) (l l' : List α) : Prop where
  appear : ∀ a ∈ l', a ∈ l ∨ add a
  vanish : ∀ a ∈ l, a ∈ l' ∨ rem a

section
variable {add rem : α → Prop} {l₁ l₂ l₃ : List α}

theorem Moves.refl : Moves add rem l₁ l₁ := ⟨fun _ => .inl, fun _ => .inl⟩

theorem Moves.trans (h : Moves add rem l₁ l₂) (h' : Moves add rem l₂ l₃) : Moves add rem l₁ l₃ where
  appear a ha := (h'.appear a ha).elim (h.appear a) .inr
  vanish a ha := (h.vanish a ha).elim (h'.vanish a) .inr

theorem Moves.append {b : α} (hb : add b) : Moves add rem l₁ (l₁ ++ [b]) where
  appear a ha := by
    rcases List.mem_append.mp ha with hold | hnew
    · exact .inl hold
    · rw [List.mem_singleton.mp hnew]
      exact .inr hb
  vanish a ha := .inl (List.mem_append_left _ ha)

theorem Moves.of_subset (hsub : l₂ ⊆ l₁) (hrem : ∀ a ∈ l₁, a ∉ l₂ → rem a) : Moves add rem l₁ l₂ where
  appear a ha := .inl (hsub ha)
  vanish a ha := by
    by_cases hmem : a ∈ l₂
    · exact .inl hmem
    · exact .inr (hrem a ha hmem)

end

end LanWeave.Library

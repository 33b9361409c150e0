import Mathlib.Data.List.Infix

/-! Texts made of segments with a separator in front of each, and what it takes for a text that
begins with the separator to occur in them. -/

namespace LanWeave.Library
variable {α : Type}

def joinSegments (sep : α) (segs : List (List α)) : List α := segs.flatMap (sep :: ·)

section
variable {sep : α} {s pat tail : List α} {segs : List (List α)}

theorem joinSegments_cons : joinSegments sep (s :: segs) = sep :: (s ++ joinSegments sep segs) := rfl

theorem sep_prefix_joinSegments : [sep] <+: joinSegments sep segs ↔ segs ≠ [] := by
  cases segs with
  | nil => simp [joinSegments]
  | cons s segs => simp [joinSegments_cons]

theorem prefix_append_joinSegments (hpat : sep ∉ pat) :
    pat <+: s ++ joinSegments sep segs ↔ pat <+: s := by
  constructor
  · intro h
    induction s generalizing pat with
    | nil =>
      cases pat with
      | nil => exact List.nil_prefix
      | cons p pat =>
        cases segs with
        | nil => exact h
        | cons s segs =>
          have hp := (List.cons_prefix_cons.mp h).1
          exact absurd (hp ▸ List.mem_cons_self) hpat
    | cons c s ih =>
      cases pat with
      | nil => exact List.nil_prefix
      | cons p pat =>
        obtain ⟨hp, hrest⟩ := List.cons_prefix_cons.mp h
        rw [List.cons_prefix_cons]
        exact ⟨hp, ih (fun hmem => hpat (List.mem_cons_of_mem p hmem)) hrest⟩
  · exact List.prefix_append_of_prefix

theorem closed_prefix_append_joinSegments (hpat : sep ∉ pat) (hs : sep ∉ s) :
    pat ++ [sep] <+: s ++ joinSegments sep segs ↔ pat = s ∧ segs ≠ [] := by
  induction s generalizing pat with
  | nil =>
    cases pat with
    | nil =>
      rw [List.nil_append, List.nil_append, sep_prefix_joinSegments]
      exact (and_iff_right rfl).symm
    | cons p pat =>
      refine iff_of_false (fun h => ?_) (fun h => List.cons_ne_nil p pat h.1)
      cases segs with
      | nil => exact absurd (List.prefix_nil.mp h) (List.cons_ne_nil _ _)
      | cons s segs =>
        have hp : p = sep := (List.cons_prefix_cons.mp h).1
        exact hpat (hp ▸ List.mem_cons_self)
  | cons c s ih =>
    cases pat with
    | nil =>
      refine iff_of_false (fun h => ?_) (fun h => List.cons_ne_nil c s h.1.symm)
      have hc : sep = c := (List.cons_prefix_cons.mp h).1
      exact hs (hc ▸ List.mem_cons_self)
    | cons p pat =>
      have hpat' : sep ∉ pat := fun hmem => hpat (List.mem_cons_of_mem p hmem)
      have hs' : sep ∉ s := fun hmem => hs (List.mem_cons_of_mem c hmem)
      rw [List.cons_append, List.cons_append, List.cons_prefix_cons, ih hpat' hs', List.cons.injEq,
        and_assoc]

theorem infix_append_of_not_mem (hs : sep ∉ s) : sep :: pat <:+: s ++ tail ↔ sep :: pat <:+: tail := by
  induction s with
  | nil => rfl
  | cons c s ih =>
    rw [List.cons_append, List.infix_cons_iff, ih fun hmem => hs (List.mem_cons_of_mem c hmem)]
    apply or_iff_right
    intro h
    have hc : sep = c := (List.cons_prefix_cons.mp h).1
    exact hs (hc ▸ List.mem_cons_self)

theorem infix_joinSegments (hpat : sep ∉ pat) (hsegs : ∀ s ∈ segs, sep ∉ s) :
    sep :: pat <:+: joinSegments sep segs ↔ ∃ s ∈ segs, pat <+: s := by
  induction segs with
  | nil => simp [joinSegments]
  | cons s segs ih =>
    rw [joinSegments_cons, List.infix_cons_iff, List.cons_prefix_cons, and_iff_right rfl,
      prefix_append_joinSegments hpat, infix_append_of_not_mem (hsegs s List.mem_cons_self),
      ih fun s' hs' => hsegs s' (List.mem_cons_of_mem s hs'), List.exists_mem_cons_iff]

theorem closed_infix_joinSegments (hpat : sep ∉ pat) (hsegs : ∀ s ∈ segs, sep ∉ s) :
    sep :: (pat ++ [sep]) <:+: joinSegments sep segs ↔ pat ∈ segs.dropLast := by
  induction segs with
  | nil => simp [joinSegments]
  | cons s segs ih =>
    have hs := hsegs s List.mem_cons_self
    rw [joinSegments_cons, List.infix_cons_iff, List.cons_prefix_cons, and_iff_right rfl,
      closed_prefix_append_joinSegments hpat hs, infix_append_of_not_mem hs,
      ih fun s' hs' => hsegs s' (List.mem_cons_of_mem s hs')]
    cases segs with
    | nil => simp
    | cons s' segs => simp

end
end LanWeave.Library

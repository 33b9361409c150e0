import Mathlib.Data.Finset.Union
import Mathlib.Data.Set.Lattice
import Mathlib.Order.CompletePartialOrder
import Mathlib.Order.Interval.Set.Disjoint

/-! Sets of intervals kept by their boundaries: an interval is an inclusive start and an exclusive
end, and of all boundaries the last one at or before a key decides on it. -/

namespace LanWeave.Library.IntervalSet

structure Boundary (α : Type*) where
  key : α
  isEnd : Bool
deriving DecidableEq

variable {α : Type*} [LinearOrder α]

/-- The keys in the set. Where an interval starts at the end of another, the start counts. -/
def keys (bs : Finset (Boundary α)) : Set α :=
  {a | ∃ s, ⟨s, false⟩ ∈ bs ∧ s ≤ a ∧ ∀ e, ⟨e, true⟩ ∈ bs → e ≤ a → e ≤ s}

def bounds (i : α × α) : Finset (Boundary α) := {⟨i.1, false⟩, ⟨i.2, true⟩}

/-- What a pair of boundaries denotes: an end that does not lie after its start ends nothing. -/
def span (i : α × α) : Set α := {a | i.1 ≤ a ∧ (i.1 < i.2 → a < i.2)}

variable {i j : α × α} {I : Finset (α × α)}

theorem start_mem_bounds {s : α} : (⟨s, false⟩ : Boundary α) ∈ bounds i ↔ s = i.1 := by
  simp [bounds]

theorem end_mem_bounds {e : α} : (⟨e, true⟩ : Boundary α) ∈ bounds i ↔ e = i.2 := by
  simp [bounds]

theorem span_of_lt (h : i.1 < i.2) : span i = Set.Ico i.1 i.2 := by
  ext a
  simp [span, h]

theorem start_mem_span : i.1 ∈ span i := ⟨le_rfl, id⟩

theorem mem_span_of_le {a b : α} (hb : b ∈ span i) (ha : i.1 ≤ a) (hab : a ≤ b) : a ∈ span i :=
  ⟨ha, fun h => hab.trans_lt (hb.2 h)⟩

theorem keys_bounds (i : α × α) : keys (bounds i) = span i := by
  ext a
  simp only [keys, Set.mem_ofPred_eq, start_mem_bounds, end_mem_bounds, forall_eq, exists_eq_left, span]
  constructor
  · intro h
    obtain ⟨hstart, hend⟩ := h
    exact ⟨hstart, fun hlt => lt_of_not_ge fun hle => absurd (hend hle) (not_le_of_gt hlt)⟩
  · intro h
    obtain ⟨hstart, hend⟩ := h
    refine ⟨hstart, fun hle => le_of_not_gt fun hlt => ?_⟩
    exact absurd (hend hlt) (not_lt_of_ge hle)

/-- Disjoint intervals are told by their boundaries, also where one starts at another's end. -/
theorem keys_biUnion (hle : ∀ i ∈ I, i.1 ≤ i.2)
    (hdisj : ∀ i ∈ I, ∀ j ∈ I, i ≠ j → Disjoint (span i) (span j)) :
    keys (I.biUnion bounds) = ⋃ i ∈ I, span i := by
  ext a
  simp only [keys, Set.mem_ofPred_eq, Finset.mem_biUnion, start_mem_bounds, end_mem_bounds,
    Set.mem_iUnion, exists_prop]
  constructor
  · intro h
    obtain ⟨s, ⟨i, hi, rfl⟩, hstart, hends⟩ := h
    refine ⟨i, hi, hstart, fun hlt => lt_of_not_ge fun hge => ?_⟩
    exact absurd (hends i.2 ⟨i, hi, rfl⟩ hge) (not_le_of_gt hlt)
  · intro h
    obtain ⟨i, hi, ha⟩ := h
    refine ⟨i.1, ⟨i, hi, rfl⟩, ha.1, ?_⟩
    intro e he hea
    obtain ⟨j, hj, rfl⟩ := he
    by_contra hlater
    have hlater : i.1 < j.2 := lt_of_not_ge hlater
    by_cases hij : i = j
    · subst hij
      exact absurd (ha.2 hlater) (not_lt_of_ge hea)
    -- another interval that ends in this one also starts in it, or holds its start
    · have hmeet := Set.disjoint_left.mp (hdisj i hi j hj hij)
      by_cases hstart : i.1 ≤ j.1
      · have hmem := mem_span_of_le ha hstart ((hle j hj).trans hea)
        exact hmeet hmem start_mem_span
      · exact hmeet start_mem_span ⟨le_of_not_ge hstart, fun _ => hlater⟩

theorem disjoint_bounds (hi : i.1 < i.2) (hj : j.1 < j.2) (hdisj : Disjoint (span i) (span j)) :
    Disjoint (bounds i) (bounds j) := by
  have hmeet := Set.disjoint_left.mp hdisj
  rw [Finset.disjoint_left]
  intro b hbi hbj
  obtain ⟨key, isEnd⟩ := b
  cases isEnd with
  | false =>
    rw [start_mem_bounds] at hbi hbj
    exact hmeet start_mem_span (hbi ▸ hbj ▸ start_mem_span)
  | true =>
    rw [end_mem_bounds] at hbi hbj
    have hend : i.2 = j.2 := hbi.symm.trans hbj
    rcases le_total i.1 j.1 with hle | hle
    · exact hmeet ⟨hle, fun _ => hend ▸ hj⟩ start_mem_span
    · exact hmeet start_mem_span ⟨hle, fun _ => hend ▸ hi⟩

/-- Removing an interval by its boundaries leaves the others, if they share none of them. -/
theorem biUnion_sdiff_bounds (hshare : ∀ j ∈ I, j ≠ i → Disjoint (bounds j) (bounds i)) :
    I.biUnion bounds \ bounds i = (I.erase i).biUnion bounds := by
  ext b
  simp only [Finset.mem_sdiff, Finset.mem_biUnion, Finset.mem_erase]
  constructor
  · intro h
    obtain ⟨⟨j, hj, hb⟩, hnot⟩ := h
    have hji : j ≠ i := fun heq => hnot (heq ▸ hb)
    exact ⟨j, ⟨hji, hj⟩, hb⟩
  · intro h
    obtain ⟨j, ⟨hji, hj⟩, hb⟩ := h
    exact ⟨⟨j, hj, hb⟩, Finset.disjoint_left.mp (hshare j hj hji) hb⟩

end LanWeave.Library.IntervalSet

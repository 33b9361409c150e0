import Mathlib.Data.Finset.SDiff

/-! A table changed by differences against a memory of what it holds: what the memory has and
the wanted set lacks is taken away, and what could be added of the rest is added. -/

namespace LanWeave.Library
variable {α : Type} [DecidableEq α] (table : Finset α) {memory wanted added : Finset α}

def amend (table memory wanted added : Finset α) : Finset α := table \ (memory \ wanted) ∪ added

variable {table} in
theorem mem_amend {a : α} :
    a ∈ amend table memory wanted added ↔ a ∈ table ∧ (a ∈ memory → a ∈ wanted) ∨ a ∈ added := by
  simp only [amend, Finset.mem_union, Finset.mem_sdiff, not_and, not_not]

/-- The table ends as the memory will have it exactly when nothing kept was missing from the
table and everything in it that the memory did not know is added again. -/
theorem amend_eq_iff (hadd : added ⊆ wanted \ memory) :
    amend table memory wanted added = wanted ∩ memory ∪ added ↔
      wanted ∩ memory ⊆ table ∧ table \ memory ⊆ added := by
  have hnew : ∀ a ∈ added, a ∉ memory := fun a ha => (Finset.mem_sdiff.mp (hadd ha)).2
  simp only [Finset.ext_iff, mem_amend, Finset.mem_union, Finset.mem_inter]
  constructor
  · refine fun h => ⟨fun a ha => ?_, fun a ha => ?_⟩
    · obtain ⟨hw, hm⟩ := Finset.mem_inter.mp ha
      rcases (h a).mpr (.inl ⟨hw, hm⟩) with ht | ht
      · exact ht.1
      · exact absurd hm (hnew a ht)
    · obtain ⟨ht, hm⟩ := Finset.mem_sdiff.mp ha
      rcases (h a).mp (.inl ⟨ht, fun h => absurd h hm⟩) with hw | hw
      · exact absurd hw.2 hm
      · exact hw
  · rintro ⟨hkept, hstray⟩ a
    constructor
    · rintro (⟨ht, hw⟩ | ha)
      · by_cases hm : a ∈ memory
        · exact .inl ⟨hw hm, hm⟩
        · exact .inr (hstray (Finset.mem_sdiff.mpr ⟨ht, hm⟩))
      · exact .inr ha
    · rintro (⟨hw, hm⟩ | ha)
      · exact .inl ⟨hkept (Finset.mem_inter.mpr ⟨hw, hm⟩), fun _ => hw⟩
      · exact .inr ha

end LanWeave.Library

import LanWeave.Server.Ipam

/-! What the allocator of synthetic blocks answers, told of blocks alone, and that none of its
machine words ever overflows. -/

namespace LanWeave

/-- An aligned block of this length inside the pool that meets no used one. -/
structure Block.Free (pool : Prefix) (prefixLen : Nat) (used : List Block) (b : Block) : Prop where
  prefixLen : b.prefixLen = prefixLen
  aligned : b.Aligned
  inside : b.addrs ⊆ (blockFromPrefix pool).addrs
  apart : ∀ u ∈ used, Disjoint b.addrs u.addrs

def add64 (a b : BitVec 64) : Option (BitVec 64) :=
  if a.toNat + b.toNat < 2 ^ 64 then some (a + b) else none

/-- `uint32(a)` of a value that fits. -/
def narrow (a : BitVec 64) : Option (BitVec 32) :=
  if a.toNat < 2 ^ 32 then some (a.setWidth 32) else none

/-- A shift by a negative count panics. -/
def Block.sizeChecked (b : Block) : Option (BitVec 64) := if b.prefixLen ≤ 32 then some b.size else none

def Block.stopChecked (b : Block) : Option (BitVec 64) := do
  let size ← b.sizeChecked
  add64 (b.base.setWidth 64) size

def overlapsChecked (a b : Block) : Option Bool := do
  let aEnd ← a.stopChecked
  let bEnd ← b.stopChecked
  return a.base.setWidth 64 < bEnd && b.base.setWidth 64 < aEnd

/-- Some used block meets the candidate; the search ends at the first. -/
def meetsChecked (candidate : Block) : List Block → Option Bool
  | [] => some false
  | u :: used => do
    if ← overlapsChecked candidate u then return true else meetsChecked candidate used

/-- `none` also where the loop has not ended by itself within the bound. -/
def allocateLoopChecked (prefixLen : Nat) (used : List Block) (step poolEnd : BitVec 64) :
    Nat → BitVec 64 → Option (Option Block)
  | 0, _ => none
  | n + 1, base => do
    let next ← add64 base step
    if next ≤ poolEnd then
      let base32 ← narrow base
      if ← meetsChecked ⟨base32, prefixLen⟩ used then
        allocateLoopChecked prefixLen used step poolEnd n next
      else return some ⟨base32, prefixLen⟩
    else return none

def allocateBlockChecked (pool : Prefix) (prefixLen : Nat) (used : List Block) :
    Option (Except AllocErr Block) :=
  if !pool.addr.is4 then return .error .notIPv4
  else if prefixLen < pool.bits ∨ 32 < prefixLen then return .error .doesNotFit
  else do
    let poolBlock := blockFromPrefix pool
    let step ← Block.sizeChecked ⟨0, prefixLen⟩
    let poolEnd ← poolBlock.stopChecked
    match ← allocateLoopChecked prefixLen used step poolEnd (2 ^ (prefixLen - pool.bits) + 1)
      (poolBlock.base.setWidth 64) with
    | some b => return .ok b
    | none => return .error .noSpace

section
variable {a b : Block}

theorem stopChecked_eq (hb : b.prefixLen ≤ 32) :
    b.stopChecked = some (b.base.setWidth 64 + b.size) := by
  have hbase := b.base.isLt
  have hsize := b.size_le
  have hfits : (b.base.setWidth 64).toNat + b.size.toNat < 2 ^ 64 := by
    rw [BitVec.toNat_setWidth, b.toNat_size, Nat.mod_eq_of_lt (by omega)]
    omega
  rw [Block.stopChecked, Block.sizeChecked, if_pos hb]
  exact if_pos hfits

theorem overlapsChecked_eq (ha : a.prefixLen ≤ 32) (hb : b.prefixLen ≤ 32) :
    overlapsChecked a b = some (overlaps a b) := by
  rw [overlapsChecked, stopChecked_eq ha, stopChecked_eq hb]
  rfl

theorem meetsChecked_eq {used : List Block} (ha : a.prefixLen ≤ 32)
    (hused : ∀ u ∈ used, u.prefixLen ≤ 32) : meetsChecked a used = some (used.any (overlaps a)) := by
  induction used with
  | nil => rfl
  | cons u used ih =>
    have hrest := ih fun v hv => hused v (List.mem_cons_of_mem _ hv)
    rw [meetsChecked, overlapsChecked_eq ha (hused u List.mem_cons_self), hrest, List.any_cons]
    cases overlaps a u <;> rfl

end

section
variable {prefixLen : Nat} {used : List Block} {step poolEnd : BitVec 64}

theorem toNat_next {base : BitVec 64} (hbase : base.toNat ≤ 2 ^ 32) (hstep : step.toNat ≤ 2 ^ 32) :
    add64 base step = some (base + step) ∧ (base + step).toNat = base.toNat + step.toNat := by
  have hfits : base.toNat + step.toNat < 2 ^ 64 := by omega
  exact ⟨if_pos hfits, by rw [BitVec.toNat_add, Nat.mod_eq_of_lt hfits]⟩

/-- The checked loop needs one round more, to see that the pool is at its end. -/
theorem allocateLoopChecked_eq (hlen : prefixLen ≤ 32) (hused : ∀ u ∈ used, u.prefixLen ≤ 32)
    (hpool : poolEnd.toNat ≤ 2 ^ 32) (hpos : 0 < step.toNat) (hstep : step.toNat ≤ 2 ^ 32) (n : Nat)
    (base : BitVec 64) (hend : base.toNat + n * step.toNat = poolEnd.toNat) :
    allocateLoopChecked prefixLen used step poolEnd (n + 1) base =
      some (allocateLoop prefixLen used step poolEnd n base) := by
  induction n generalizing base with
  | zero =>
    have hbase : base.toNat ≤ 2 ^ 32 := by omega
    obtain ⟨hadd, hnext⟩ := toNat_next hbase hstep
    have hstop : ¬base + step ≤ poolEnd := by
      rw [BitVec.le_def, hnext]
      omega
    rw [allocateLoopChecked, hadd, Option.bind_eq_bind, Option.bind_some, if_neg hstop]
    rfl
  | succ n ih =>
    have hmul : (n + 1) * step.toNat = n * step.toNat + step.toNat := Nat.succ_mul ..
    obtain ⟨hadd, hnext⟩ := @toNat_next step base (by omega) hstep
    have hle : base + step ≤ poolEnd := by
      rw [BitVec.le_def, hnext]
      omega
    have hnarrow : narrow base = some (base.setWidth 32) := if_pos (by omega)
    have hmeets : meetsChecked ⟨base.setWidth 32, prefixLen⟩ used =
        some (used.any (overlaps ⟨base.setWidth 32, prefixLen⟩)) := meetsChecked_eq hlen hused
    have hrest := ih (base + step) (by omega)
    rw [allocateLoopChecked, allocateLoop, if_pos hle]
    simp only [hadd, hnarrow, hmeets, hrest, Option.bind_eq_bind, Option.bind_some, if_pos hle]
    split_ifs <;> rfl

end

theorem allocateBlockChecked_eq {pool : Prefix} {prefixLen : Nat} {used : List Block}
    (h4 : pool.addr.is4 = true) (hv : pool.Valid) (hused : ∀ u ∈ used, u.prefixLen ≤ 32) :
    allocateBlockChecked pool prefixLen used = some (allocateBlock pool prefixLen used) := by
  have hipv4 : ¬(!pool.addr.is4) = true := by simp [h4]
  unfold allocateBlockChecked allocateBlock
  rw [if_neg hipv4, if_neg hipv4]
  split_ifs with hfit
  · rfl
  · have hlen : prefixLen ≤ 32 := by omega
    have hbits : pool.bits ≤ prefixLen := by omega
    have hbound := (pool_bounds h4 hv).2
    have hsize := Block.toNat_size ⟨0, prefixLen⟩
    have hpow : 2 ^ (32 - prefixLen) ≤ 2 ^ 32 := Nat.pow_le_pow_right (by decide) (by omega)
    have hend : ((blockFromPrefix pool).base.setWidth 64 + (blockFromPrefix pool).size).toNat =
        (blockFromPrefix pool).base.toNat + 2 ^ (32 - pool.bits) := by
      rw [Block.toNat_stop, blockFromPrefix_prefixLen]
    have hbase : ((blockFromPrefix pool).base.setWidth 64).toNat =
      (blockFromPrefix pool).base.toNat := by
      rw [BitVec.toNat_setWidth, Nat.mod_eq_of_lt (by omega)]
    have hpoolLen : (blockFromPrefix pool).prefixLen ≤ 32 := by
      rw [blockFromPrefix_prefixLen]
      omega
    have hloop := @allocateLoopChecked_eq prefixLen used (Block.size ⟨0, prefixLen⟩)
      ((blockFromPrefix pool).base.setWidth 64 + (blockFromPrefix pool).size) hlen hused
      (by rw [hend]; exact hbound) (by rw [hsize]; exact Nat.two_pow_pos _) (by rw [hsize]; exact hpow)
      (2 ^ (prefixLen - pool.bits)) ((blockFromPrefix pool).base.setWidth 64)
      (by rw [hbase, hsize, hend, slots_fill hbits hlen])
    have hstep : Block.sizeChecked ⟨0, prefixLen⟩ = some (Block.size ⟨0, prefixLen⟩) := if_pos hlen
    simp only [hstep, stopChecked_eq hpoolLen, hloop, Option.bind_eq_bind, Option.bind_some]
    generalize allocateLoop _ _ _ _ _ _ = found
    cases found <;> rfl

section
variable {pool : Prefix} {prefixLen : Nat} {used : List Block} {b : Block}

theorem exists_slot (h4 : pool.addr.is4 = true) (hv : pool.Valid) (h : pool.bits ≤ prefixLen)
    (h' : prefixLen ≤ 32) (hlen : b.prefixLen = prefixLen) (ha : b.Aligned)
    (hin : b.addrs ⊆ (blockFromPrefix pool).addrs) :
    ∃ j < 2 ^ (prefixLen - pool.bits), b = slot pool prefixLen j := by
  subst hlen
  have hfill := slots_fill h h'
  have hpos := Nat.two_pow_pos (32 - b.prefixLen)
  obtain ⟨hlow, hhigh⟩ := (Set.Ico_subset_Ico_iff (Nat.lt_add_of_pos_right hpos)).mp hin
  rw [blockFromPrefix_prefixLen] at hhigh
  have hdvd : 2 ^ (32 - b.prefixLen) ∣ 2 ^ (32 - pool.bits) := Nat.pow_dvd_pow 2 (by omega)
  obtain ⟨j, hj⟩ := Nat.dvd_sub ha (hdvd.trans (pool_bounds h4 hv).1)
  have hbase : b.base.toNat = (blockFromPrefix pool).base.toNat + j * 2 ^ (32 - b.prefixLen) := by
    rw [Nat.mul_comm, ← hj]
    omega
  refine ⟨j, ?_, ?_⟩
  · by_contra hge
    have hmul : 2 ^ (b.prefixLen - pool.bits) * 2 ^ (32 - b.prefixLen) ≤ j * 2 ^ (32 - b.prefixLen) :=
      Nat.mul_le_mul_right _ (by omega)
    omega
  · rw [slot, ← hbase, BitVec.ofNat_toNat, BitVec.setWidth_eq]

theorem slot_base_le (h4 : pool.addr.is4 = true) (hv : pool.Valid) (h : pool.bits ≤ prefixLen)
    (h' : prefixLen ≤ 32) {j k : Nat} (hj : j < 2 ^ (prefixLen - pool.bits))
    (hk : k < 2 ^ (prefixLen - pool.bits)) :
    (slot pool prefixLen j).base ≤ (slot pool prefixLen k).base ↔ j ≤ k := by
  rw [BitVec.le_def, toNat_slot_base h4 hv h h' hj, toNat_slot_base h4 hv h h' hk,
    Nat.add_le_add_iff_left]
  exact Nat.mul_le_mul_right_iff (Nat.two_pow_pos _)

theorem meets_iff {a : Block} : (∃ u ∈ used, overlaps a u = true) ↔
    ¬∀ u ∈ used, Disjoint a.addrs u.addrs := by
  simp only [← overlaps_eq_false_iff, not_forall, Bool.not_eq_false, exists_prop]

theorem free_slot (h4 : pool.addr.is4 = true) (hv : pool.Valid) (h : pool.bits ≤ prefixLen)
    (h' : prefixLen ≤ 32) {j : Nat} (hj : j < 2 ^ (prefixLen - pool.bits)) :
    Block.Free pool prefixLen used (slot pool prefixLen j) ↔
      ¬∃ u ∈ used, overlaps (slot pool prefixLen j) u = true := by
  rw [meets_iff, not_not]
  exact ⟨Block.Free.apart, fun hu => ⟨rfl, slot_aligned h4 hv h h' hj, slot_subset h4 hv h h' hj, hu⟩⟩

theorem allocateBlock_ok_iff (h4 : pool.addr.is4 = true) (hv : pool.Valid) (h : pool.bits ≤ prefixLen)
    (h' : prefixLen ≤ 32) : allocateBlock pool prefixLen used = .ok b ↔
      b.Free pool prefixLen used ∧ ∀ b' : Block, b'.Free pool prefixLen used → b.base ≤ b'.base := by
  have hspec := allocateBlock_spec used h4 hv h h'
  have hfree := fun {j} hj => @free_slot pool prefixLen used h4 hv h h' j hj
  constructor
  · intro hok
    rw [hok] at hspec
    obtain ⟨k, hk, rfl, hapart, hbusy⟩ := hspec
    have hnone : ¬∃ u ∈ used, overlaps (slot pool prefixLen k) u = true := by
      rintro ⟨u, hu, hmeets⟩
      exact Bool.false_ne_true ((hapart u hu).symm.trans hmeets)
    refine ⟨(hfree hk).mpr hnone, ?_⟩
    intro b' hb'
    obtain ⟨j, hj, rfl⟩ := exists_slot h4 hv h h' hb'.prefixLen hb'.aligned hb'.inside
    rw [slot_base_le h4 hv h h' hk hj]
    by_contra hlt
    exact (hfree hj).mp hb' (hbusy j (by omega))
  · rintro ⟨hb, hleast⟩
    obtain ⟨j, hj, rfl⟩ := exists_slot h4 hv h h' hb.prefixLen hb.aligned hb.inside
    cases hres : allocateBlock pool prefixLen used with
    | error e =>
      rw [hres] at hspec
      exact absurd (hspec.2 j hj) ((hfree hj).mp hb)
    | ok b' =>
      rw [hres] at hspec
      obtain ⟨k, hk, rfl, hapart, hbusy⟩ := hspec
      have hnone : ¬∃ u ∈ used, overlaps (slot pool prefixLen k) u = true := by
        rintro ⟨u, hu, hmeets⟩
        exact Bool.false_ne_true ((hapart u hu).symm.trans hmeets)
      have hle := (slot_base_le h4 hv h h' hj hk).mp (hleast _ ((hfree hk).mpr hnone))
      have hge : k ≤ j := by
        by_contra hlt
        exact (hfree hj).mp hb (hbusy j (by omega))
      rw [Nat.le_antisymm hge hle]

theorem allocateBlock_noSpace_iff (h4 : pool.addr.is4 = true) (hv : pool.Valid)
    (h : pool.bits ≤ prefixLen) (h' : prefixLen ≤ 32) :
    allocateBlock pool prefixLen used = .error .noSpace ↔ ∀ b : Block, ¬b.Free pool prefixLen used := by
  have hspec := allocateBlock_spec used h4 hv h h'
  constructor
  · intro hnone b hb
    rw [hnone] at hspec
    obtain ⟨j, hj, rfl⟩ := exists_slot h4 hv h h' hb.prefixLen hb.aligned hb.inside
    exact (free_slot h4 hv h h' hj).mp hb (hspec.2 j hj)
  · intro hnone
    cases hres : allocateBlock pool prefixLen used with
    | error e =>
      rw [hres] at hspec
      rw [hspec.1]
    | ok b => exact absurd ((allocateBlock_ok_iff h4 hv h h').mp hres).1 (hnone b)

theorem allocateBlock_doesNotFit_iff (h4 : pool.addr.is4 = true) :
    (∃ e, allocateBlock pool prefixLen used = .error e ∧ e ≠ .noSpace) ↔
      prefixLen < pool.bits ∨ 32 < prefixLen := by
  unfold allocateBlock
  rw [if_neg (by simp [h4])]
  split_ifs with hfit
  · exact iff_of_true ⟨.doesNotFit, rfl, nofun⟩ hfit
  · refine iff_of_false ?_ hfit
    rintro ⟨e, he, hne⟩
    dsimp only at he
    split at he
    · cases he
    · exact hne (Except.error.inj he).symm

/-- No block of the pool is larger than the pool. -/
theorem not_free_of_lt (h4 : pool.addr.is4 = true) (hv : pool.Valid) (h : prefixLen < pool.bits) :
    ¬b.Free pool prefixLen used := by
  intro hb
  have hbits := bits_le_of_is4 h4 hv
  have hpos := Nat.two_pow_pos (32 - b.prefixLen)
  obtain ⟨hlow, hhigh⟩ := (Set.Ico_subset_Ico_iff (Nat.lt_add_of_pos_right hpos)).mp hb.inside
  rw [blockFromPrefix_prefixLen, hb.prefixLen] at hhigh
  have hlt : 2 ^ (32 - pool.bits) < 2 ^ (32 - prefixLen) := Nat.pow_lt_pow_right (by decide) (by omega)
  omega

/-- The allocator answers with the lowest free block of the pool, that there is none exactly where
every slot of the pool meets a used block, and otherwise that the length is none of the pool's;
its loop ends, and no value on the way overflows. -/
theorem allocateBlock_lowest_free (used : List Block) (prefixLen : Nat) (h4 : pool.addr.is4 = true)
    (hv : pool.Valid) (hused : ∀ u ∈ used, u.prefixLen ≤ 32) :
    allocateBlockChecked pool prefixLen used = some (allocateBlock pool prefixLen used) ∧
      (∀ b : Block, allocateBlock pool prefixLen used = .ok b ↔
        prefixLen ≤ 32 ∧ b.Free pool prefixLen used ∧
        ∀ b' : Block, b'.Free pool prefixLen used → b.base ≤ b'.base) ∧
      (allocateBlock pool prefixLen used = .error .noSpace ↔
        pool.bits ≤ prefixLen ∧ prefixLen ≤ 32 ∧ ∀ b : Block, b.prefixLen = prefixLen → b.Aligned →
          b.addrs ⊆ (blockFromPrefix pool).addrs → ∃ u ∈ used, ¬Disjoint b.addrs u.addrs) ∧
      ((∃ e, allocateBlock pool prefixLen used = .error e ∧ e ≠ .noSpace) ↔
        prefixLen < pool.bits ∨ 32 < prefixLen) := by
  have hother := @allocateBlock_doesNotFit_iff pool prefixLen used h4
  by_cases hfit : prefixLen < pool.bits ∨ 32 < prefixLen
  · obtain ⟨e, he, hne⟩ := hother.mpr hfit
    refine ⟨allocateBlockChecked_eq h4 hv hused, ?_, ?_, hother⟩
    · intro b
      rw [he]
      refine iff_of_false nofun ?_
      intro hb
      obtain ⟨hlen, hfree, -⟩ := hb
      exact not_free_of_lt h4 hv (by omega) hfree
    · rw [he]
      refine iff_of_false ?_ (by omega)
      intro heq
      exact hne (Except.error.inj heq)
  · have hbits : pool.bits ≤ prefixLen := by omega
    have hlen : prefixLen ≤ 32 := by omega
    refine ⟨allocateBlockChecked_eq h4 hv hused, ?_, ?_, hother⟩
    · intro b
      rw [allocateBlock_ok_iff h4 hv hbits hlen, and_iff_right hlen]
    · rw [allocateBlock_noSpace_iff h4 hv hbits hlen, and_iff_right hbits, and_iff_right hlen]
      apply forall_congr'
      intro b
      constructor
      · intro hfull hl ha hin
        by_contra hapart
        exact hfull ⟨hl, ha, hin, by simpa using hapart⟩
      · intro hfull hb
        obtain ⟨u, hu, hmeets⟩ := hfull hb.prefixLen hb.aligned hb.inside
        exact hmeets (hb.apart u hu)

/-- One used block straddles the first two slots of a pool at the end of the address space, another
lies in the third. -/
theorem allocateBlock_lowest_free_last :
    (Block.Free ⟨.v4 0xFFFFFF00, 24⟩ 26 [⟨0xFFFFFF00, 25⟩, ⟨0xFFFFFF90, 30⟩] ⟨0xFFFFFFC0, 26⟩) ∧
      allocateBlockChecked ⟨.v4 0xFFFFFF00, 24⟩ 26 [⟨0xFFFFFF00, 25⟩, ⟨0xFFFFFF90, 30⟩] =
        some (allocateBlock ⟨.v4 0xFFFFFF00, 24⟩ 26 [⟨0xFFFFFF00, 25⟩, ⟨0xFFFFFF90, 30⟩]) := by
  have hall := @allocateBlock_lowest_free ⟨.v4 0xFFFFFF00, 24⟩ [⟨0xFFFFFF00, 25⟩, ⟨0xFFFFFF90, 30⟩] 26
    rfl (by unfold Prefix.Valid; decide) (by decide)
  exact ⟨((hall.2.1 ⟨0xFFFFFFC0, 26⟩).mp (by decide)).2.1, hall.1⟩

end
end LanWeave

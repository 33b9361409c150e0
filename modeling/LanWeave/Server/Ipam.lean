import LanWeave.Golang.Netip
import Mathlib.Order.CompletePartialOrder
import Mathlib.Order.Interval.Set.Disjoint
import Mathlib.Data.Nat.Basic
import Mathlib.Tactic.Ring

/-! Pool math: blocks as base and prefix length, first-fit allocation of aligned blocks, and
the client address range of the VPN network. -/

namespace LanWeave

structure Block where
  base : BitVec 32
  prefixLen : Nat
deriving DecidableEq

/-- `As4` panics on an IPv6 address; every caller has checked `Is4` before. -/
def addrToUint32 : Addr → BitVec 32
  | .v4 a => a
  | .v6 _ => 0

def uint32ToAddr (u : BitVec 32) : Addr := .v4 u

def blockFromPrefix (p : Prefix) : Block := ⟨addrToUint32 p.masked.addr, p.masked.bits⟩

namespace Block

def toPrefix (b : Block) : Prefix := ⟨uint32ToAddr b.base, b.prefixLen⟩

/-- The number of addresses, in 64 bits: a /0 would overflow 32. -/
def size (b : Block) : BitVec 64 := (1 : BitVec 64) <<< (32 - b.prefixLen)

/-- The addresses of the block, as numbers. -/
def addrs (b : Block) : Set ℕ := Set.Ico b.base.toNat (b.base.toNat + 2 ^ (32 - b.prefixLen))

instance (b : Block) (n : ℕ) : Decidable (n ∈ b.addrs) := inferInstanceAs (Decidable (_ ∧ _))

/-- Naturally aligned: the base is a multiple of the size. -/
def Aligned (b : Block) : Prop := 2 ^ (32 - b.prefixLen) ∣ b.base.toNat

end Block

def overlaps (a b : Block) : Bool :=
  let aStart := a.base.setWidth 64
  let aEnd := a.base.setWidth 64 + a.size
  let bStart := b.base.setWidth 64
  let bEnd := b.base.setWidth 64 + b.size
  aStart < bEnd && bStart < aEnd

theorem Block.toNat_size (b : Block) : b.size.toNat = 2 ^ (32 - b.prefixLen) := by
  have hlt : 2 ^ (32 - b.prefixLen) < 2 ^ 64 := Nat.pow_lt_pow_right (by omega) (by omega)
  rw [size, BitVec.toNat_shiftLeft, Nat.shiftLeft_eq]
  simpa using hlt

theorem Block.size_le (b : Block) : 2 ^ (32 - b.prefixLen) ≤ 2 ^ 32 :=
  Nat.pow_le_pow_right (by omega) (by omega)

theorem Block.toNat_stop (b : Block) :
    (b.base.setWidth 64 + b.size).toNat = b.base.toNat + 2 ^ (32 - b.prefixLen) := by
  have hb := b.base.isLt
  have hs := b.size_le
  rw [BitVec.toNat_add, BitVec.toNat_setWidth, b.toNat_size,
    Nat.mod_eq_of_lt (a := b.base.toNat) (by omega),
    Nat.mod_eq_of_lt (by omega)]

theorem overlaps_iff (a b : Block) : overlaps a b = true ↔
    a.base.toNat < b.base.toNat + 2 ^ (32 - b.prefixLen) ∧
      b.base.toNat < a.base.toNat + 2 ^ (32 - a.prefixLen) := by
  have ha := a.base.isLt
  have hb := b.base.isLt
  simp only [overlaps, Bool.and_eq_true, decide_eq_true_eq, BitVec.lt_def, Block.toNat_stop,
    BitVec.toNat_setWidth]
  rw [Nat.mod_eq_of_lt (by omega), Nat.mod_eq_of_lt (by omega)]

theorem overlaps_comm (a b : Block) : overlaps a b = overlaps b a := by
  rw [Bool.eq_iff_iff, overlaps_iff, overlaps_iff, and_comm]

theorem overlaps_eq_false_iff (a b : Block) : overlaps a b = false ↔ Disjoint a.addrs b.addrs := by
  rw [← Bool.not_eq_true, overlaps_iff, Block.addrs, Block.addrs, Set.Ico_disjoint_Ico]
  have ha : 0 < 2 ^ (32 - a.prefixLen) := Nat.two_pow_pos _
  have hb : 0 < 2 ^ (32 - b.prefixLen) := Nat.two_pow_pos _
  omega

theorem overlaps_self (a : Block) : overlaps a a = true := by
  have ha : 0 < 2 ^ (32 - a.prefixLen) := Nat.two_pow_pos _
  rw [overlaps_iff]
  omega

theorem Block.toPrefix_masked {b : Block} (h : b.Aligned) : b.toPrefix.masked = b.toPrefix := by
  obtain ⟨base, n⟩ := b
  have hbase : maskBits base n = base := by
    apply BitVec.eq_of_toNat_eq
    rw [toNat_maskBits, Nat.div_mul_cancel h]
  simp only [Block.toPrefix, uint32ToAddr, Prefix.masked, hbase]

theorem Block.toPrefix_inj {a b : Block} (h : a.toPrefix = b.toPrefix) : a = b := by
  obtain ⟨x, n⟩ := a
  obtain ⟨y, m⟩ := b
  simp only [Block.toPrefix, uint32ToAddr, Prefix.mk.injEq, Addr.v4.injEq] at h
  rw [h.1, h.2]

theorem Block.blockFromPrefix_toPrefix {b : Block} (h : b.Aligned) : blockFromPrefix b.toPrefix = b := by
  rw [blockFromPrefix, Block.toPrefix_masked h]
  rfl

/-- The private ranges announced subnets must live in. -/
def rfc1918 : List Prefix :=
  [⟨.v4 0x0A000000, 8⟩, ⟨.v4 0xAC100000, 12⟩, ⟨.v4 0xC0A80000, 16⟩]

def Prefix.contains (p : Prefix) (a : Addr) : Bool := Prefix.masked ⟨a, p.bits⟩ == p.masked

def isRFC1918 (p : Prefix) : Bool := rfc1918.any fun r => r.contains p.addr && r.bits ≤ p.bits

/-- `PoolRange`: the first and last client address; the network, server and broadcast
addresses are reserved. -/
def poolRange (cidr : String) : Option (BitVec 32 × BitVec 32) :=
  match parsePrefix4 cidr with
  | none => none
  | some p =>
    let base := addrToUint32 p.masked.addr
    let broadcast := base ||| ((1 <<< (32 - p.bits) : BitVec 64) - 1).setWidth 32
    let first := base + 2
    let last := broadcast - 1
    if last < first then none else some (first, last)

example : poolRange "10.0.0.0/29" = some (0x0A000002, 0x0A000006) := by decide
example : poolRange "10.0.0.0/31" = none := by decide

inductive AllocErr
  | notIPv4
  | doesNotFit
  | noSpace
deriving DecidableEq

/-- The allocation loop from `base` on; the first argument bounds the slots left. -/
def allocateLoop (prefixLen : Nat) (used : List Block) (step poolEnd : BitVec 64) :
    Nat → BitVec 64 → Option Block
  | 0, _ => none
  | n + 1, base =>
    if base + step ≤ poolEnd then
      if used.any (overlaps ⟨base.setWidth 32, prefixLen⟩) then
        allocateLoop prefixLen used step poolEnd n (base + step)
      else some ⟨base.setWidth 32, prefixLen⟩
    else none

def allocateBlock (pool : Prefix) (prefixLen : Nat) (used : List Block) : Except AllocErr Block :=
  if !pool.addr.is4 then .error .notIPv4
  else if prefixLen < pool.bits ∨ 32 < prefixLen then .error .doesNotFit
  else
    let poolBlock := blockFromPrefix pool
    let step := Block.size ⟨0, prefixLen⟩
    let poolEnd := poolBlock.base.setWidth 64 + poolBlock.size
    -- a pool of this size has exactly that many slots, so the bound never ends the loop
    match allocateLoop prefixLen used step poolEnd (2 ^ (prefixLen - pool.bits))
      (poolBlock.base.setWidth 64) with
    | some b => .ok b
    | none => .error .noSpace

section
variable (prefixLen : Nat) (used : List Block) (step poolEnd : BitVec 64)

/-- The loop stops at the first slot that meets no used block, and at none only when every
slot meets one. -/
theorem allocateLoop_spec (n : Nat) (base : BitVec 64)
    (hend : base.toNat + n * step.toNat = poolEnd.toNat) (hpool : poolEnd.toNat ≤ 2 ^ 32)
    (hstep : 0 < step.toNat) :
    match allocateLoop prefixLen used step poolEnd n base with
    | some b => ∃ k < n, b = ⟨BitVec.ofNat 32 (base.toNat + k * step.toNat), prefixLen⟩ ∧
        (∀ u ∈ used, overlaps b u = false) ∧
        ∀ j < k, ∃ u ∈ used,
          overlaps ⟨BitVec.ofNat 32 (base.toNat + j * step.toNat), prefixLen⟩ u = true
    | none => ∀ j < n, ∃ u ∈ used,
        overlaps ⟨BitVec.ofNat 32 (base.toNat + j * step.toNat), prefixLen⟩ u = true := by
  -- n is the number of slots left, so the base moves by one step and nothing overflows
  induction n generalizing base with
  | zero => simp [allocateLoop]
  | succ n ih =>
    have hmul : (n + 1) * step.toNat = n * step.toNat + step.toNat := Nat.succ_mul ..
    have hnext : (base + step).toNat = base.toNat + step.toNat := by
      rw [BitVec.toNat_add]
      omega
    have hbase : base.setWidth 32 = BitVec.ofNat 32 (base.toNat + 0 * step.toNat) := by
      apply BitVec.eq_of_toNat_eq
      simp
    have hle : base + step ≤ poolEnd := by
      rw [BitVec.le_def, hnext]
      omega
    have hshift : ∀ j, (base + step).toNat + j * step.toNat = base.toNat + (j + 1) * step.toNat := by
      intro j
      rw [hnext]
      ring
    unfold allocateLoop
    rw [if_pos hle]
    split_ifs with hany
    · have hfirst : ∃ u ∈ used,
          overlaps ⟨BitVec.ofNat 32 (base.toNat + 0 * step.toNat), prefixLen⟩ u = true := by
        rw [← hbase]
        exact List.any_eq_true.mp hany
      have hrec := ih (base + step) (by rw [hnext]; omega)
      split at hrec
      · next b hb =>
        obtain ⟨k, hk, rfl, hfree, hbusy⟩ := hrec
        refine ⟨k + 1, by omega, by rw [hshift], hfree, fun j hj => ?_⟩
        cases j with
        | zero => exact hfirst
        | succ j => exact hshift j ▸ hbusy j (by omega)
      · intro j hj
        cases j with
        | zero => exact hfirst
        | succ j => exact hshift j ▸ hrec j (by omega)
    · refine ⟨0, by omega, by rw [hbase], fun u hu => ?_, fun j hj => absurd hj (by omega)⟩
      rw [← Bool.not_eq_true]
      exact fun hou => hany (List.any_eq_true.mpr ⟨u, hu, hou⟩)

end

section
variable {pool : Prefix}

theorem blockFromPrefix_prefixLen (p : Prefix) : (blockFromPrefix p).prefixLen = p.bits :=
  p.masked_bits

theorem bits_le_of_is4 (h4 : pool.addr.is4 = true) (hv : pool.Valid) : pool.bits ≤ 32 := by
  obtain ⟨a | a, n⟩ := pool
  · exact hv
  · exact absurd h4 Bool.false_ne_true

theorem pool_bounds (h4 : pool.addr.is4 = true) (hv : pool.Valid) :
    2 ^ (32 - pool.bits) ∣ (blockFromPrefix pool).base.toNat ∧
      (blockFromPrefix pool).base.toNat + 2 ^ (32 - pool.bits) ≤ 2 ^ 32 := by
  obtain ⟨a | a, n⟩ := pool
  · have hn : n ≤ 32 := hv
    have hbase : (blockFromPrefix ⟨.v4 a, n⟩).base.toNat = a.toNat / 2 ^ (32 - n) * 2 ^ (32 - n) :=
      toNat_maskBits a n
    have hsplit : (2 : ℕ) ^ 32 = 2 ^ n * 2 ^ (32 - n) := by rw [← pow_add, Nat.add_sub_cancel' hn]
    have hq : a.toNat / 2 ^ (32 - n) < 2 ^ n := by
      rw [Nat.div_lt_iff_lt_mul (Nat.two_pow_pos _), ← hsplit]
      exact a.isLt
    rw [hbase]
    refine ⟨Dvd.intro_left _ rfl, ?_⟩
    calc a.toNat / 2 ^ (32 - n) * 2 ^ (32 - n) + 2 ^ (32 - n)
        = (a.toNat / 2 ^ (32 - n) + 1) * 2 ^ (32 - n) := by ring
      _ ≤ 2 ^ n * 2 ^ (32 - n) := Nat.mul_le_mul_right _ hq
      _ = 2 ^ 32 := hsplit.symm
  · simp [Addr.is4] at h4

/-- The `j`-th aligned block of length `prefixLen` of the pool. -/
def slot (pool : Prefix) (prefixLen j : Nat) : Block :=
  ⟨BitVec.ofNat 32 ((blockFromPrefix pool).base.toNat + j * 2 ^ (32 - prefixLen)), prefixLen⟩

variable {prefixLen : Nat}

theorem slots_fill (h : pool.bits ≤ prefixLen) (h' : prefixLen ≤ 32) :
    2 ^ (prefixLen - pool.bits) * 2 ^ (32 - prefixLen) = 2 ^ (32 - pool.bits) := by
  rw [← pow_add]
  congr 1
  omega

theorem slot_stop_le {j : Nat} (h : pool.bits ≤ prefixLen) (h' : prefixLen ≤ 32)
    (hj : j < 2 ^ (prefixLen - pool.bits)) :
    j * 2 ^ (32 - prefixLen) + 2 ^ (32 - prefixLen) ≤ 2 ^ (32 - pool.bits) := by
  rw [← Nat.succ_mul, ← slots_fill h h']
  exact Nat.mul_le_mul_right _ hj

section
variable (h4 : pool.addr.is4 = true) (hv : pool.Valid) (h : pool.bits ≤ prefixLen)
  (h' : prefixLen ≤ 32)
include h4 hv h h'

theorem toNat_slot_base {j : Nat} (hj : j < 2 ^ (prefixLen - pool.bits)) :
    (slot pool prefixLen j).base.toNat =
      (blockFromPrefix pool).base.toNat + j * 2 ^ (32 - prefixLen) := by
  have hpos : 0 < 2 ^ (32 - prefixLen) := Nat.two_pow_pos _
  have hstop := slot_stop_le h h' hj
  have hbound := (pool_bounds h4 hv).2
  rw [slot, BitVec.toNat_ofNat, Nat.mod_eq_of_lt (by omega)]

theorem slot_aligned {j : Nat} (hj : j < 2 ^ (prefixLen - pool.bits)) :
    (slot pool prefixLen j).Aligned := by
  rw [Block.Aligned, toNat_slot_base h4 hv h h' hj]
  have hsize : 2 ^ (32 - prefixLen) ∣ 2 ^ (32 - pool.bits) := Nat.pow_dvd_pow 2 (by omega)
  exact Nat.dvd_add (hsize.trans (pool_bounds h4 hv).1) (Dvd.intro_left _ rfl)

theorem slot_subset {j : Nat} (hj : j < 2 ^ (prefixLen - pool.bits)) :
    (slot pool prefixLen j).addrs ⊆ (blockFromPrefix pool).addrs := by
  have hstop := slot_stop_le h h' hj
  rw [Block.addrs, Block.addrs, toNat_slot_base h4 hv h h' hj, blockFromPrefix_prefixLen]
  refine Set.Ico_subset_Ico (Nat.le_add_right ..) ?_
  show _ + 2 ^ (32 - prefixLen) ≤ _
  omega

end

/-- What the allocator answers: the first free slot, or that there is none. -/
theorem allocateBlock_spec (used : List Block) (h4 : pool.addr.is4 = true) (hv : pool.Valid)
    (h : pool.bits ≤ prefixLen) (h' : prefixLen ≤ 32) :
    match allocateBlock pool prefixLen used with
    | .ok b => ∃ k < 2 ^ (prefixLen - pool.bits), b = slot pool prefixLen k ∧
        (∀ u ∈ used, overlaps b u = false) ∧
        ∀ j < k, ∃ u ∈ used, overlaps (slot pool prefixLen j) u = true
    | .error e => e = .noSpace ∧ ∀ j < 2 ^ (prefixLen - pool.bits),
        ∃ u ∈ used, overlaps (slot pool prefixLen j) u = true := by
  have hbound := (pool_bounds h4 hv).2
  have hstep : (Block.size ⟨0, prefixLen⟩).toNat = 2 ^ (32 - prefixLen) := Block.toNat_size _
  have hlt := (blockFromPrefix pool).base.isLt
  have hbase : ((blockFromPrefix pool).base.setWidth 64).toNat = (blockFromPrefix pool).base.toNat := by
    rw [BitVec.toNat_setWidth, Nat.mod_eq_of_lt (by omega)]
  have hend : ((blockFromPrefix pool).base.setWidth 64 + (blockFromPrefix pool).size).toNat =
      (blockFromPrefix pool).base.toNat + 2 ^ (32 - pool.bits) := by
    rw [Block.toNat_stop, blockFromPrefix_prefixLen]
  have hspec := allocateLoop_spec prefixLen used (Block.size ⟨0, prefixLen⟩)
    ((blockFromPrefix pool).base.setWidth 64 + (blockFromPrefix pool).size)
    (2 ^ (prefixLen - pool.bits)) ((blockFromPrefix pool).base.setWidth 64)
    (by rw [hbase, hstep, hend, slots_fill h h']) (by rw [hend]; exact hbound)
    (by rw [hstep]; exact Nat.two_pow_pos _)
  rw [hbase, hstep] at hspec
  unfold allocateBlock
  rw [if_neg (by simp [h4]), if_neg (by omega)]
  dsimp only
  split at hspec
  · exact hspec
  · exact ⟨rfl, hspec⟩

theorem allocateBlock_fits {used : List Block} {b : Block}
    (hb : allocateBlock pool prefixLen used = .ok b) :
    pool.addr.is4 = true ∧ pool.bits ≤ prefixLen ∧ prefixLen ≤ 32 := by
  unfold allocateBlock at hb
  split_ifs at hb with h4 hfit
  exact ⟨by simpa using h4, by omega, by omega⟩

end
end LanWeave

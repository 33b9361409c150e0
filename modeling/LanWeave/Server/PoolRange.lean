import LanWeave.Server.AddressPlan

/-! Which networks have a client address range, and what is in it. -/

namespace LanWeave

theorem maskBits_add_one (a : BitVec 32) {bits : Nat} (hbits : bits ≤ 30) :
    maskBits (maskBits a bits + 1) bits = maskBits a bits := by
  have hsize : 4 ≤ 2 ^ (32 - bits) := by
    have hpow := Nat.pow_le_pow_right (n := 2) (by decide) (show 2 ≤ 32 - bits by omega)
    simpa using hpow
  obtain ⟨⟨q, hq⟩, hstop⟩ := @pool_bounds ⟨.v4 a, bits⟩ rfl (show bits ≤ 32 by omega)
  change (maskBits a bits).toNat = 2 ^ (32 - bits) * q at hq
  change (maskBits a bits).toNat + 2 ^ (32 - bits) ≤ 2 ^ 32 at hstop
  have hnext : (maskBits a bits + 1).toNat = 2 ^ (32 - bits) * q + 1 := by
    rw [BitVec.toNat_add, hq]
    show (_ + 1) % _ = _
    omega
  apply BitVec.eq_of_toNat_eq
  rw [toNat_maskBits, hnext, Nat.mul_add_div (by omega), Nat.div_eq_of_lt (by omega), hq, Nat.add_zero,
    Nat.mul_comm]

section
variable {cidr : String} {p : Prefix}

theorem firstUsableAddress_isSome (hp : parsePrefix4 cidr = some p) :
    (firstUsableAddress cidr).isSome = decide (p.bits ≤ 30) := by
  obtain ⟨h4, hv⟩ := parsePrefix4_v4 hp
  unfold firstUsableAddress
  rw [hp]
  simp only
  by_cases hbits : p.bits ≤ 30
  · rw [if_neg (by omega)]
    have hcontains : p.contains (.v4 (addrToUint32 p.masked.addr + 1)) = true := by
      obtain ⟨a | a, n⟩ := p
      · exact beq_iff_eq.mpr (congrArg (fun b => Prefix.mk (.v4 b) n) (maskBits_add_one a hbits))
      · cases h4
    rw [if_pos hcontains]
    simp [hbits]
  · rw [if_pos (by omega)]
    simp [hbits]

end

/-- The networks whose second address and last but one are in order only since they wrap around. -/
def wrapping : List Prefix :=
  [⟨.v4 0xFFFFFFFE, 31⟩, ⟨.v4 0xFFFFFFFE, 32⟩, ⟨.v4 0xFFFFFFFF, 32⟩, ⟨.v4 0, 32⟩]

example : poolRange "255.255.255.254/31" = some (0, 0xFFFFFFFE) := by decide

theorem poolRange_isSome_of_bits {cidr : String} {p : Prefix} (hp : parsePrefix4 cidr = some p)
    (hbits : 30 < p.bits) : (poolRange cidr).isSome = wrapping.contains p.masked := by
  obtain ⟨h4, hv⟩ := parsePrefix4_v4 hp
  obtain ⟨a | a, n⟩ := p
  · have hn : n ≤ 32 := hv
    -- in a /31 the broadcast address is the base and one, in a /32 the base itself
    obtain rfl | rfl : n = 31 ∨ n = 32 := by
      have hlow : 30 < n := hbits
      omega
    · have heven : (maskBits a 31).toNat % 2 = 0 := by
        rw [toNat_maskBits]
        exact Nat.mul_mod_left _ 2
      have hrange := poolRange_eq hp
      have hmask := toNat_hostMask 31
      change poolRange cidr = if (maskBits a 31 ||| _) - 1 < maskBits a 31 + 2 then none
        else some (maskBits a 31 + 2, (maskBits a 31 ||| _) - 1) at hrange
      show _ = wrapping.contains ⟨.v4 (maskBits a 31), 31⟩
      generalize (((1 <<< (32 - 31) : BitVec 64) - 1).setWidth 32 : BitVec 32) = mask at *
      generalize maskBits a 31 = base at *
      have hor : (base ||| mask).toNat = base.toNat + 1 := by
        obtain ⟨q, hq⟩ := Nat.dvd_of_mod_eq_zero heven
        rw [BitVec.toNat_or, hmask, hq]
        exact (Nat.two_pow_add_eq_or_of_lt (i := 1) (by decide) q).symm
      generalize base ||| mask = broadcast at *
      have hcontains : wrapping.contains ⟨.v4 base, 31⟩ = decide (base = 0xFFFFFFFE) := by
        simp [wrapping]
      rw [hcontains, hrange]
      split_ifs with hsmall
      · have hne : base ≠ 0xFFFFFFFE := by bv_omega
        rw [decide_eq_false hne]
        rfl
      · have heq : base = 0xFFFFFFFE := by bv_omega
        rw [decide_eq_true heq]
        rfl
    · have hrange := poolRange_eq hp
      have hmask : (((1 <<< (32 - 32) : BitVec 64) - 1).setWidth 32 : BitVec 32) = 0#32 :=
        BitVec.eq_of_toNat_eq (toNat_hostMask 32)
      change poolRange cidr = if (maskBits a 32 ||| _) - 1 < maskBits a 32 + 2 then none
        else some (maskBits a 32 + 2, (maskBits a 32 ||| _) - 1) at hrange
      show _ = wrapping.contains ⟨.v4 (maskBits a 32), 32⟩
      rw [hmask, BitVec.or_zero] at hrange
      generalize maskBits a 32 = base at *
      have hcontains : wrapping.contains ⟨.v4 base, 32⟩ =
          decide (base = 0xFFFFFFFE ∨ base = 0xFFFFFFFF ∨ base = 0) := by
        simp [wrapping]
      rw [hcontains, hrange]
      split_ifs with hsmall
      · have hne : ¬(base = 0xFFFFFFFE ∨ base = 0xFFFFFFFF ∨ base = 0) := by bv_omega
        rw [decide_eq_false hne]
        rfl
      · have heq : base = 0xFFFFFFFE ∨ base = 0xFFFFFFFF ∨ base = 0 := by bv_omega
        rw [decide_eq_true heq]
        rfl
  · cases h4

/-- `PoolRange` answers exactly where the network has room for a server, with exactly the
addresses that are left for clients. -/
def RangeExact (cidr : String) : Prop :=
  (poolRange cidr).isSome = (firstUsableAddress cidr).isSome ∧
    ∀ first last p, poolRange cidr = some (first, last) → parsePrefix4 cidr = some p →
      first ≤ last ∧ ∀ a : BitVec 32, first ≤ a ∧ a ≤ last ↔
        a.toNat ∈ (blockFromPrefix p).addrs ∧ a ≠ (blockFromPrefix p).base ∧
          a ≠ (blockFromPrefix p).base + 1 ∧
          a.toNat + 1 ≠ (blockFromPrefix p).base.toNat + 2 ^ (32 - p.bits)

theorem mem_range_iff {cidr : String} {p : Prefix} (hp : parsePrefix4 cidr = some p)
    (hbits : p.bits ≤ 30) {first last : BitVec 32}
    (hf : first.toNat = (blockFromPrefix p).base.toNat + 2)
    (hl : last.toNat + 2 = (blockFromPrefix p).base.toNat + 2 ^ (32 - p.bits)) :
    first ≤ last ∧ ∀ a : BitVec 32, first ≤ a ∧ a ≤ last ↔
      a.toNat ∈ (blockFromPrefix p).addrs ∧ a ≠ (blockFromPrefix p).base ∧
        a ≠ (blockFromPrefix p).base + 1 ∧
        a.toNat + 1 ≠ (blockFromPrefix p).base.toNat + 2 ^ (32 - p.bits) := by
  obtain ⟨h4, hv⟩ := parsePrefix4_v4 hp
  have hstop := (pool_bounds h4 hv).2
  have hsize : 4 ≤ 2 ^ (32 - p.bits) := by
    have hpow := Nat.pow_le_pow_right (n := 2) (by decide) (show 2 ≤ 32 - p.bits by omega)
    simpa using hpow
  have hnext : ((blockFromPrefix p).base + 1).toNat = (blockFromPrefix p).base.toNat + 1 := by
    rw [BitVec.toNat_add]
    show (_ + 1) % _ = _
    omega
  refine ⟨by rw [BitVec.le_def]; omega, ?_⟩
  intro a
  rw [BitVec.le_def, BitVec.le_def, Block.addrs, Set.mem_Ico, blockFromPrefix_prefixLen, Ne, Ne,
    ← BitVec.toNat_inj, ← BitVec.toNat_inj, hnext]
  omega

/-- The range is exact but for the networks of one or two addresses at the ends of the address
space. -/
theorem poolRange_exact_iff (cidr : String) :
    RangeExact cidr ↔ ∀ p, parsePrefix4 cidr = some p → p.masked ∉ wrapping := by
  cases hp : parsePrefix4 cidr with
  | none =>
    have hrange : poolRange cidr = none := by rw [poolRange, hp]
    have hfirst : firstUsableAddress cidr = none := by rw [firstUsableAddress, hp]
    have hnone : ∀ p, parsePrefix4 cidr ≠ some p := by
      intro p hparsed
      cases hp.symm.trans hparsed
    refine iff_of_true ⟨by rw [hrange, hfirst]; rfl, ?_⟩ ?_
    · intro first last p _ hparsed
      exact absurd hparsed (hnone p)
    · intro p hparsed
      cases hparsed
  | some p =>
    have hfirst := firstUsableAddress_isSome hp
    constructor
    · -- a wrapping prefix has no usable address, yet the code returns a range for it
      rintro ⟨hsame, -⟩ p' hp' hwraps
      obtain rfl := Option.some.inj hp'
      have hbits : 30 < p.bits := by
        rw [← p.masked_bits]
        revert hwraps
        generalize p.masked = q
        revert q
        decide
      have hsome := poolRange_isSome_of_bits hp hbits
      rw [List.contains_iff_mem.mpr hwraps, hsame, hfirst] at hsome
      simp at hsome
      omega
    · intro hwraps
      have hwraps := hwraps p rfl
      by_cases hbits : p.bits ≤ 30
      · obtain ⟨first, last, hrange, hf, hl⟩ := poolRange_of_bits hp hbits
        refine ⟨by rw [hrange, hfirst, decide_eq_true hbits]; rfl, ?_⟩
        intro first' last' p' hrange' hp'
        obtain ⟨rfl, rfl⟩ := Prod.mk.inj (Option.some.inj (hrange.symm.trans hrange'))
        obtain rfl := Option.some.inj (hp.symm.trans hp')
        exact mem_range_iff hp hbits hf hl
      · have hnone : (poolRange cidr).isSome = false := by
          rw [poolRange_isSome_of_bits hp (by omega)]
          rw [List.contains_eq_mem, decide_eq_false hwraps]
        refine ⟨by rw [hnone, hfirst, decide_eq_false hbits], ?_⟩
        intro first last p' hrange _
        rw [hrange] at hnone
        cases hnone

/-- The last network of two addresses. -/
theorem poolRange_wraps_around : ¬RangeExact "255.255.255.254/31" := by
  rintro ⟨hsame, -⟩
  revert hsame
  decide

end LanWeave

import LanWeave.Library.Nftables
import LanWeave.Server.Ipam

/-! The announcing router's translation table: for every announcement one prefix DNAT rule and
one masquerade rule, rebuilt as a whole. -/

namespace LanWeave
open Library Nftables

namespace Natctl

structure Rule where
  synthetic : Prefix
  real : Prefix
deriving DecidableEq

structure Table where
  prerouting : List (List Expr)
  postrouting : List (List Expr)
deriving DecidableEq

def prefixMask (bits : Nat) : Bytes :=
  let m : BitVec 32 := BitVec.allOnes 32 <<< (32 - bits)
  [(m >>> 24).setWidth 8, (m >>> 16).setWidth 8, (m >>> 8).setWidth 8, m.setWidth 8]

def addrBytes (base : BitVec 32) : Bytes := bytes4 base

/-- `ip daddr <synthetic> dnat prefix to <real>`. -/
def dnatPrefixExprs (r : Rule) : List Expr :=
  let synth := blockFromPrefix r.synthetic
  let real := blockFromPrefix r.real
  let realLast := real.base + ((1 : BitVec 32) <<< (32 - real.prefixLen)) - 1
  [.metaNfproto 1,
   .cmpEq 1 [2],
   .payloadNetworkHeader 1 16 4,
   .bitwise 1 1 (prefixMask synth.prefixLen) [0, 0, 0, 0],
   .cmpEq 1 (addrBytes synth.base),
   .immediate 1 (addrBytes real.base),
   .immediate 2 (addrBytes realLast),
   .dnatPrefix 1 2]

/-- `ip saddr <vpnPool> ip daddr <real> masquerade`. -/
def masqueradeExprs (vpnPool real : Prefix) : List Expr :=
  let pool := blockFromPrefix vpnPool
  let dst := blockFromPrefix real
  [.metaNfproto 1,
   .cmpEq 1 [2],
   .payloadNetworkHeader 1 12 4,
   .bitwise 1 1 (prefixMask pool.prefixLen) [0, 0, 0, 0],
   .cmpEq 1 (addrBytes pool.base),
   .payloadNetworkHeader 1 16 4,
   .bitwise 1 1 (prefixMask dst.prefixLen) [0, 0, 0, 0],
   .cmpEq 1 (addrBytes dst.base),
   .masq]

/-- The table that one flush of `Rebuild` lays down. -/
def build (vpnPool : Prefix) (rules : List Rule) : Table where
  prerouting := rules.map dnatPrefixExprs
  postrouting := rules.map fun r => masqueradeExprs vpnPool r.real

inductive Err
  | kernel
  /-- `As4` panics on an IPv6 address, which ends the process before the flush. -/
  | notIPv4
deriving DecidableEq

/-- `Rebuild`, which the kernel does as a whole or not at all. -/
def rebuild (vpnPool : Prefix) (rules : List Rule) (fails : Bool) (t : Option Table) :
    Except Err Unit × Option Table :=
  if fails then (.error .kernel, t)
  else if rules.all fun r => vpnPool.addr.is4 && r.synthetic.addr.is4 && r.real.addr.is4 then
    (.ok (), some (build vpnPool rules))
  else (.error .notIPv4, t)

/-- What the table does with a packet on its way in. -/
def Table.translate (t : Table) (p : Packet) : Option Verdict := chain t.prerouting p

def Table.matching (t : Table) (p : Packet) : List (List Expr) :=
  t.prerouting.filter fun es => (rule es p).isSome

theorem Table.translate_of_matching {t : Table} {p : Packet} {es : List Expr}
    (h : t.matching p = [es]) : t.translate p = rule es p := by
  rw [translate, ← chain_filter]
  show chain (t.matching p) p = _
  rw [h, chain, List.findSome?_singleton]

theorem prefixMask_eq (bits : Nat) :
    prefixMask bits = bytes4 (BitVec.allOnes 32 <<< (32 - bits)) := rfl

theorem rule_dnatPrefixExprs (r : Rule) (front : { bs : Bytes // bs.length = 12 })
    (src dst : BitVec 32) : rule (dnatPrefixExprs r) (.ipv4 front src dst) =
      if maskBits dst (blockFromPrefix r.synthetic).prefixLen = (blockFromPrefix r.synthetic).base
      then some (.dnat (netmap dst (blockFromPrefix r.real).base ((blockFromPrefix r.real).base +
        ((1 : BitVec 32) <<< (32 - (blockFromPrefix r.real).prefixLen)) - 1)))
      else none := by
  rw [rule, dnatPrefixExprs, run_ipv4_guard, prefixMask_eq, addrBytes, addrBytes, addrBytes]
  show run _ _ _ = _
  rw [run_masked 1 16 (take_destination front src dst), and_mask, run_dnat (by decide)]
  rfl

theorem rule_dnatPrefixExprs_ipv6 (r : Rule) (header : Bytes) :
    rule (dnatPrefixExprs r) (.ipv6 header) = none := by
  rw [rule, dnatPrefixExprs, run_ipv4_guard]

theorem mem_addrs_iff {b : Block} (h : b.Aligned) (s : BitVec 32) :
    maskBits s b.prefixLen = b.base ↔ s.toNat ∈ b.addrs := by
  have hpos := Nat.two_pow_pos (32 - b.prefixLen)
  obtain ⟨q, hq⟩ := h
  rw [← BitVec.toNat_inj, toNat_maskBits, Block.addrs, Set.mem_Ico, hq,
    Nat.mul_comm, Nat.mul_right_inj hpos.ne', Nat.div_eq_iff hpos, Nat.mul_comm q]
  omega

theorem one_shiftLeft_sub_one (n : ℕ) : ((1 : BitVec 32) <<< n) - 1 = lowBits n := by
  have hn := Nat.two_pow_pos n
  rw [lowBits, ← BitVec.ofNat_sub_ofNat_of_le _ _ (by decide) hn]
  congr 1
  apply BitVec.eq_of_toNat_eq
  rw [BitVec.toNat_shiftLeft, Nat.shiftLeft_eq, BitVec.toNat_ofNat]
  simp

theorem host_eq {b : Block} (h : b.Aligned) {s : BitVec 32} (hs : s.toNat ∈ b.addrs) :
    s.toNat % 2 ^ (32 - b.prefixLen) = s.toNat - b.base.toNat := by
  obtain ⟨q, hq⟩ := h
  have hmask := (mem_addrs_iff ⟨q, hq⟩ s).mpr hs
  have hdiv := Nat.div_add_mod s.toNat (2 ^ (32 - b.prefixLen))
  rw [← hmask, toNat_maskBits, Nat.mul_comm]
  omega

theorem aligned_stop_le {b : Block} (h : b.Aligned) :
    b.base.toNat + 2 ^ (32 - b.prefixLen) ≤ 2 ^ 32 := by
  obtain ⟨q, hq⟩ := h
  obtain ⟨m, hm⟩ : 2 ^ (32 - b.prefixLen) ∣ 2 ^ 32 := Nat.pow_dvd_pow 2 (by omega)
  have hlt : q < m := by
    apply Nat.lt_of_mul_lt_mul_left (a := 2 ^ (32 - b.prefixLen))
    rw [← hq, ← hm]
    exact b.base.isLt
  calc b.base.toNat + 2 ^ (32 - b.prefixLen) = 2 ^ (32 - b.prefixLen) * (q + 1) := by
        rw [hq, Nat.mul_succ]
    _ ≤ 2 ^ (32 - b.prefixLen) * m := Nat.mul_le_mul_left _ hlt
    _ = 2 ^ 32 := hm.symm

/-- The rule of an announcement moves its synthetic block onto the real subnet, as a whole. -/
theorem rule_of_blocks {synth real : Block} (hs : synth.Aligned) (hr : real.Aligned)
    (hlen : real.prefixLen = synth.prefixLen) (front : { bs : Bytes // bs.length = 12 })
    (src dst : BitVec 32) :
    rule (dnatPrefixExprs ⟨synth.toPrefix, real.toPrefix⟩) (.ipv4 front src dst) =
      if dst.toNat ∈ synth.addrs then some (.dnat (real.base + (dst - synth.base))) else none := by
  rw [rule_dnatPrefixExprs, Block.blockFromPrefix_toPrefix hs, Block.blockFromPrefix_toPrefix hr,
    add_sub_assoc, one_shiftLeft_sub_one]
  simp only [mem_addrs_iff hs]
  split_ifs with hdst
  · congr 2
    apply BitVec.eq_of_toNat_eq
    rw [toNat_netmap (by omega) hr, hlen, host_eq hs hdst, BitVec.toNat_add]
    have hreal := aligned_stop_le hr
    have hlt := hdst.2
    rw [hlen] at hreal
    rw [BitVec.toNat_sub_of_le hdst.1, Nat.mod_eq_of_lt]
    omega
  · rfl

end Natctl
end LanWeave

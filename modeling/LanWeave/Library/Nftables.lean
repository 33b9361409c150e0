import Mathlib.Data.BitVec

/-! The nftables expressions of an address translation and how the kernel runs them on a
packet: registers hold bytes, an expression that fails ends its rule. -/

namespace LanWeave.Library.Nftables

abbrev Bytes := List (BitVec 8)

/-- Four bytes in network order. -/
def bytes4 (a : BitVec 32) : Bytes :=
  [(a >>> 24).setWidth 8, (a >>> 16).setWidth 8, (a >>> 8).setWidth 8, a.setWidth 8]

def word (bs : Bytes) : BitVec 32 := .ofNat 32 (bs.foldl (fun w b => w * 256 + b.toNat) 0)

inductive Packet
  | ipv4 (front : { bs : Bytes // bs.length = 12 }) (src dst : BitVec 32)
  | ipv6 (header : Bytes)

namespace Packet

def nfproto : Packet → BitVec 8
  | ipv4 .. => 2
  | ipv6 _ => 10

def networkHeader : Packet → Bytes
  | ipv4 front src dst => front ++ bytes4 src ++ bytes4 dst
  | ipv6 header => header

end Packet

inductive Expr
  | metaNfproto (register : ℕ)
  | cmpEq (register : ℕ) (data : Bytes)
  | payloadNetworkHeader (destRegister offset len : ℕ)
  | bitwise (sourceRegister destRegister : ℕ) (mask xor : Bytes)
  | immediate (register : ℕ) (data : Bytes)
  /-- Destination NAT with the PREFIX flag. -/
  | dnatPrefix (regAddrMin regAddrMax : ℕ)
  | masq
deriving DecidableEq

inductive Verdict
  | dnat (dst : BitVec 32)
  | masquerade
deriving DecidableEq

/-- `NF_NAT_RANGE_NETMAP`: the bits in which the ends of the range agree come from the range. -/
def netmap (dst first last : BitVec 32) : BitVec 32 :=
  let mask := ~~~(first ^^^ last)
  (dst &&& ~~~mask) ||| (first &&& mask)

def run (p : Packet) : List Expr → (ℕ → Bytes) → Option Verdict
  | [], _ => none
  | .metaNfproto r :: es, regs => run p es (Function.update regs r [p.nfproto])
  | .cmpEq r data :: es, regs => if regs r = data then run p es regs else none
  | .payloadNetworkHeader r offset len :: es, regs =>
    run p es (Function.update regs r ((p.networkHeader.drop offset).take len))
  | .bitwise r r' mask xor :: es, regs =>
    run p es (Function.update regs r'
      (List.zipWith (· ^^^ ·) (List.zipWith (· &&& ·) (regs r) mask) xor))
  | .immediate r data :: es, regs => run p es (Function.update regs r data)
  | .dnatPrefix first last :: _, regs =>
    match p with
    | .ipv4 _ _ dst => some (.dnat (netmap dst (word (regs first)) (word (regs last))))
    | .ipv6 _ => none
  | .masq :: _, _ => some .masquerade

/-- What a rule does with a packet; `none` if it does not match. -/
def rule (es : List Expr) (p : Packet) : Option Verdict := run p es fun _ => []

/-- The first rule of a NAT chain that matches decides. -/
def chain (rules : List (List Expr)) (p : Packet) : Option Verdict :=
  rules.findSome? fun es => rule es p

theorem chain_filter (rules : List (List Expr)) (p : Packet) :
    chain (rules.filter fun es => (rule es p).isSome) p = chain rules p := by
  induction rules with
  | nil => rfl
  | cons es rules ih =>
    cases hes : rule es p with
    | none =>
      rw [List.filter_cons_of_neg (by simp [hes]), ih, chain, chain, List.findSome?_cons, hes]
    | some v =>
      rw [List.filter_cons_of_pos (by simp [hes]), chain, chain, List.findSome?_cons,
        List.findSome?_cons, hes]

theorem word_bytes4 (a : BitVec 32) : word (bytes4 a) = a := by
  have ha := a.isLt
  apply BitVec.eq_of_toNat_eq
  simp only [word, bytes4, List.foldl_cons, List.foldl_nil, BitVec.toNat_setWidth,
    BitVec.toNat_ushiftRight, BitVec.toNat_ofNat, Nat.shiftRight_eq_div_pow]
  omega

theorem bytes4_injective : Function.Injective bytes4 := by
  intro a b h
  rw [← word_bytes4 a, h, word_bytes4]

theorem zipWith_and_bytes4 (a b : BitVec 32) :
    List.zipWith (· &&& ·) (bytes4 a) (bytes4 b) = bytes4 (a &&& b) := by
  simp [bytes4, BitVec.ushiftRight_and_distrib]

theorem zipWith_xor_zero (a : BitVec 32) :
    List.zipWith (· ^^^ ·) (bytes4 a) [0, 0, 0, 0] = bytes4 a := by
  simp [bytes4]

@[simp] theorem take_source (front : { bs : Bytes // bs.length = 12 }) (src dst : BitVec 32) :
    ((Packet.ipv4 front src dst).networkHeader.drop 12).take 4 = bytes4 src := by
  simp [Packet.networkHeader, front.2, bytes4]

@[simp] theorem take_destination (front : { bs : Bytes // bs.length = 12 }) (src dst : BitVec 32) :
    ((Packet.ipv4 front src dst).networkHeader.drop 16).take 4 = bytes4 dst := by
  have hfront : (front : Bytes).drop 16 = [] := List.drop_of_length_le (by rw [front.2]; omega)
  simp [Packet.networkHeader, front.2, bytes4, List.drop_append, hfront]

section
variable {p : Packet} {es : List Expr} {regs : ℕ → Bytes}

/-- The guard of a rule for IPv4 packets in a table of both families. -/
theorem run_ipv4_guard (r : ℕ) :
    run p (.metaNfproto r :: .cmpEq r [2] :: es) regs =
      match p with
      | .ipv4 .. => run p es (Function.update regs r [2])
      | .ipv6 _ => none := by
  cases p <;> simp [run, Packet.nfproto]

theorem run_masked (r offset : ℕ) {addr mask base : BitVec 32}
    (haddr : (p.networkHeader.drop offset).take 4 = bytes4 addr) :
    run p (.payloadNetworkHeader r offset 4 :: .bitwise r r (bytes4 mask) [0, 0, 0, 0] ::
        .cmpEq r (bytes4 base) :: es) regs =
      if addr &&& mask = base then run p es (Function.update regs r (bytes4 base)) else none := by
  simp only [run, haddr, Function.update_self, zipWith_and_bytes4, zipWith_xor_zero,
    Function.update_idem, bytes4_injective.eq_iff]
  split_ifs with h
  · rw [h]
  · rfl

theorem run_dnat {front : { bs : Bytes // bs.length = 12 }} {src dst first last : BitVec 32}
    {r r' : ℕ} (hr : r ≠ r') :
    run (.ipv4 front src dst) (.immediate r (bytes4 first) :: .immediate r' (bytes4 last) ::
      .dnatPrefix r r' :: es) regs = some (.dnat (netmap dst first last)) := by
  simp [run, Function.update_of_ne hr, word_bytes4]

end

/-- The last `n` bits. -/
def lowBits (n : ℕ) : BitVec 32 := .ofNat 32 (2 ^ n - 1)

theorem getLsbD_lowBits {n : ℕ} (h : n ≤ 32) (i : ℕ) : (lowBits n).getLsbD i = decide (i < n) := by
  rw [lowBits, BitVec.getLsbD_ofNat, Nat.testBit_two_pow_sub_one]
  by_cases hi : i < n
  · simp [hi, Nat.lt_of_lt_of_le hi h]
  · simp [hi]

theorem and_mask (a : BitVec 32) (n : ℕ) :
    a &&& (BitVec.allOnes 32 <<< n) = (a >>> n) <<< n := by
  apply BitVec.eq_of_getLsbD_eq
  intro i hi
  rw [BitVec.getLsbD_and, BitVec.getLsbD_shiftLeft, BitVec.getLsbD_shiftLeft,
    BitVec.getLsbD_ushiftRight, BitVec.getLsbD_allOnes]
  by_cases hn : i < n
  · simp [hn]
  · have hsum : n + (i - n) = i := by omega
    have hlt : i - n < 32 := by omega
    simp [hn, hi, hsum, hlt]

/-- On the range of an aligned prefix the translation keeps the host bits. -/
theorem toNat_netmap {first : BitVec 32} {n : ℕ} (hn : n ≤ 32) (h : 2 ^ n ∣ first.toNat)
    (dst : BitVec 32) :
    (netmap dst first (first + lowBits n)).toNat = first.toNat + dst.toNat % 2 ^ n := by
  have hclear : ∀ i < n, first.getLsbD i = false := by
    intro i hi
    rw [← BitVec.testBit_toNat]
    obtain ⟨q, hq⟩ := h
    rw [hq, Nat.testBit_two_pow_mul]
    simp [hi]
  -- without carries, sums of the range and the host bits are unions
  have hhost : first &&& lowBits n = 0#32 := by
    apply BitVec.eq_of_getLsbD_eq
    intro i hi
    rw [BitVec.getLsbD_and, getLsbD_lowBits hn, BitVec.getLsbD_zero]
    by_cases hlt : i < n
    · simp [hclear i hlt]
    · simp [hlt]
  have hand : first &&& (dst &&& lowBits n) = 0#32 := by
    rw [← BitVec.and_assoc, BitVec.and_comm first, BitVec.and_assoc, hhost, BitVec.and_zero]
  have hnetmap : netmap dst first (first + lowBits n) = first + (dst &&& lowBits n) := by
    rw [BitVec.add_eq_or_of_and_eq_zero _ _ hand, netmap, BitVec.add_eq_or_of_and_eq_zero _ _ hhost]
    apply BitVec.eq_of_getLsbD_eq
    intro i hi
    simp only [BitVec.getLsbD_or, BitVec.getLsbD_and, BitVec.getLsbD_not, BitVec.getLsbD_xor,
      getLsbD_lowBits hn, hi, decide_true, Bool.true_and]
    by_cases hlt : i < n
    · simp [hclear i hlt, hlt]
    · simp [hlt]
  have hmod : (dst &&& lowBits n).toNat = dst.toNat % 2 ^ n := by
    have hsize : 2 ^ n - 1 < 2 ^ 32 := by
      have := Nat.pow_le_pow_right (n := 2) (by omega) hn
      omega
    rw [BitVec.toNat_and, lowBits, BitVec.toNat_ofNat, Nat.mod_eq_of_lt hsize,
      Nat.and_two_pow_sub_one_eq_mod]
  -- the range ends within 32 bits, as it is aligned
  have hfit : first.toNat + 2 ^ n ≤ 2 ^ 32 := by
    obtain ⟨q, hq⟩ := h
    obtain ⟨m, hm⟩ : 2 ^ n ∣ 2 ^ 32 := Nat.pow_dvd_pow 2 hn
    have hlt : q < m := Nat.lt_of_mul_lt_mul_left (a := 2 ^ n) (by rw [← hq, ← hm]; exact first.isLt)
    calc first.toNat + 2 ^ n = 2 ^ n * (q + 1) := by rw [hq, Nat.mul_succ]
      _ ≤ 2 ^ n * m := Nat.mul_le_mul_left _ hlt
      _ = 2 ^ 32 := hm.symm
  rw [hnetmap, BitVec.toNat_add, hmod, Nat.mod_eq_of_lt]
  have := Nat.mod_lt dst.toNat (Nat.two_pow_pos n)
  omega

end LanWeave.Library.Nftables

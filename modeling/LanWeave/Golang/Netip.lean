import LanWeave.Golang.Strings
import Mathlib.Data.BitVec

/-! Addresses and prefixes of Go's net/netip. -/

namespace LanWeave

inductive Addr
  | v4 (a : BitVec 32)
  | v6 (a : BitVec 128)
deriving DecidableEq

namespace Addr

def is4 : Addr → Bool
  | v4 _ => true
  | v6 _ => false

def bitLen : Addr → Nat
  | v4 _ => 32
  | v6 _ => 128

def toNat : Addr → Nat
  | v4 a => a.toNat
  | v6 a => a.toNat

/-- `Addr.Less`: shorter addresses first, then by value. -/
def less (a b : Addr) : Bool :=
  a.bitLen < b.bitLen || (a.bitLen == b.bitLen && a.toNat < b.toNat)

end Addr

/-- A prefix keeps the address it was written with: host bits may be set. -/
structure Prefix where
  addr : Addr
  bits : Nat
deriving DecidableEq

/-- The top `bits` bits of `a`, the rest cleared. -/
def maskBits {w : Nat} (a : BitVec w) (bits : Nat) : BitVec w := (a >>> (w - bits)) <<< (w - bits)

namespace Prefix

def Valid (p : Prefix) : Prop := p.bits ≤ p.addr.bitLen

def masked (p : Prefix) : Prefix :=
  match p.addr with
  | .v4 a => ⟨.v4 (maskBits a p.bits), p.bits⟩
  | .v6 a => ⟨.v6 (maskBits a p.bits), p.bits⟩

@[simp] theorem masked_bits (p : Prefix) : p.masked.bits = p.bits := by
  rcases p with ⟨_ | _, _⟩ <;> rfl

end Prefix

theorem toNat_maskBits {w : Nat} (a : BitVec w) (bits : Nat) :
    (maskBits a bits).toNat = a.toNat / 2 ^ (w - bits) * 2 ^ (w - bits) := by
  have hlt : a.toNat / 2 ^ (w - bits) * 2 ^ (w - bits) < 2 ^ w :=
    (Nat.div_mul_le_self _ _).trans_lt a.isLt
  rw [maskBits, BitVec.toNat_shiftLeft, BitVec.toNat_ushiftRight, Nat.shiftRight_eq_div_pow,
    Nat.shiftLeft_eq, Nat.mod_eq_of_lt hlt]

theorem maskBits_maskBits {w : Nat} (a : BitVec w) (bits : Nat) :
    maskBits (maskBits a bits) bits = maskBits a bits := by
  apply BitVec.eq_of_toNat_eq
  rw [toNat_maskBits, toNat_maskBits, Nat.mul_div_cancel _ (Nat.two_pow_pos _)]

theorem Prefix.masked_masked (p : Prefix) : p.masked.masked = p.masked := by
  rcases p with ⟨a | a, n⟩ <;> simp only [masked, maskBits_maskBits]

/-- One dotted-decimal field: no empty field, no leading zero, at most 255. -/
def parseOctet (cs : List Char) : Option Nat :=
  if cs.head? = some '0' ∧ 1 < cs.length then none
  else (parseDigits cs).filter (· ≤ 255)

def parseIPv4 (cs : List Char) : Option (BitVec 32) :=
  match (cs.splitOn '.').map parseOctet with
  | [some a, some b, some c, some d] =>
    some (BitVec.ofNat 32 (((a * 256 + b) * 256 + c) * 256 + d))
  | _ => none

/-- `strconv.Atoi` on the bits of a prefix, where signs and leading zeros are refused. -/
def parseBits (cs : List Char) : Option Nat :=
  if cs.head? = some '0' ∧ 1 < cs.length then none
  else (parseDigits cs).filter (· ≤ 32)

/-- The IPv4 prefix `netip.ParsePrefix` yields, `none` where it fails or yields an IPv6 one. The
server refuses both alike; the clients, which would take an IPv6 one, are sent none. The address is
what stands before the last slash. -/
def parsePrefix4 (s : String) : Option Prefix :=
  match (s.toList.splitOn '/').reverse with
  | bits :: [addr] => do
    let a ← parseIPv4 addr
    let n ← parseBits bits
    return ⟨.v4 a, n⟩
  | _ => none

example : parsePrefix4 "192.168.1.7/24" = some ⟨.v4 0xC0A80107, 24⟩ := by decide
example : parsePrefix4 "192.168.01.7/24" = none := by decide

end LanWeave

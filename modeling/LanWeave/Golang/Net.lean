import LanWeave.Golang.Netip
import Mathlib.Data.List.TakeWhile

/-! Go's other reader of CIDRs, `net.ParseCIDR`, with the addresses of either family, and which of
the texts that it takes `netip.ParsePrefix` reads as the same IPv4 prefix. -/

namespace LanWeave

def hexDigit (c : Char) : Option Nat :=
  if isDigit c then some (c.toNat - '0'.toNat)
  else if 'a' ≤ c ∧ c ≤ 'f' then some (c.toNat - 'a'.toNat + 10)
  else if 'A' ≤ c ∧ c ≤ 'F' then some (c.toNat - 'A'.toNat + 10)
  else none

/-- The fields of an IPv6 address from here on, after those read; at most `n` are left. -/
def parseFields : (n : Nat) → (s : List Char) → (fields : List Nat) → (ellipsis : Option Nat) →
    Option (List Nat × Option Nat)
  | 0, s, fields, ellipsis => if s = [] then some (fields, ellipsis) else none
  | n + 1, s, fields, ellipsis =>
    let digits := s.takeWhile fun c => (hexDigit c).isSome
    if digits = [] ∨ 4 < digits.length then none
    else
      let rest := s.drop digits.length
      if rest.head? = some '.' then
        -- an IPv4 address in place of the last two fields
        if (ellipsis = none ∧ fields.length ≠ 6) ∨ 6 < fields.length then none
        else (parseIPv4 s).map fun a => (fields ++ [a.toNat / 65536, a.toNat % 65536], ellipsis)
      else
        let fields := fields ++ [(digits.filterMap hexDigit).foldl (fun acc d => acc * 16 + d) 0]
        match rest with
        | [] => some (fields, ellipsis)
        | [':', ':'] => if ellipsis = none then some (fields, some fields.length) else none
        | ':' :: ':' :: s =>
          if ellipsis = none then parseFields n s fields (some fields.length) else none
        | [':'] => none
        | ':' :: s => parseFields n s fields ellipsis
        | _ => none

/-- The eight fields, the ellipsis filled up with zeros; it stands for one field at least. -/
def expand (fields : List Nat) (ellipsis : Option Nat) : Option (List Nat) :=
  if fields.length < 8 then
    ellipsis.map fun i => fields.take i ++ List.replicate (8 - fields.length) 0 ++ fields.drop i
  else if ellipsis = none then some fields else none

def parseIPv6 (s : List Char) : Option (BitVec 128) := do
  let (fields, ellipsis) ← match s with
    | [':', ':'] => some ([], some 0)
    | ':' :: ':' :: s => parseFields 8 s [] (some 0)
    | s => parseFields 8 s [] none
  let all ← expand fields ellipsis
  return BitVec.ofNat 128 (all.foldl (fun acc f => acc * 65536 + f) 0)

/-- `netip.ParseAddr`; `none` also for an address with a zone, which the readers of CIDRs refuse. -/
def parseAddr (s : List Char) : Option Addr :=
  match s.find? fun c => c = '.' ∨ c = ':' ∨ c = '%' with
  | some '.' => (parseIPv4 s).map .v4
  | some ':' => if '%' ∈ s then none else (parseIPv6 s).map .v6
  | _ => none

example : parseAddr "fd00::1:0".toList = some (.v6 0xFD000000000000000000000000010000) := by decide
example : parseAddr "::ffff:10.0.0.0".toList = some (.v6 0xFFFF0A000000) := by decide
example : parseAddr "1:2:3:4:5:6:7:8::".toList = none := by decide

/-- `net.dtoi` on all of the text. -/
def dtoi (s : List Char) : Option Nat := (parseDigits s).filter (· < 0xFFFFFF)

/-- The network `net.ParseCIDR` yields. The address is what stands before the first slash. -/
def parseCIDR (s : String) : Option Prefix :=
  match s.toList.dropWhile (· ≠ '/') with
  | [] => none
  | _ :: mask => do
    let addr ← parseAddr (s.toList.takeWhile (· ≠ '/'))
    let n ← dtoi mask
    if n ≤ addr.bitLen then some (Prefix.masked ⟨addr, n⟩) else none

/-- `IP.To4`: also for an IPv4 address mapped into IPv6. -/
def Addr.to4 : Addr → Option (BitVec 32)
  | .v4 a => some a
  | .v6 a => if a >>> 32 = 0xFFFF then some (a.setWidth 32) else none

/-- `IPNet.Contains`: of a mapped network the last 32 bits of the mask count. -/
def ipNetContains (n : Prefix) (ip : Addr) : Bool :=
  match n.addr.to4, ip.to4 with
  | some a, some b =>
    let bits := if n.addr.is4 then n.bits else n.bits - 96
    maskBits a bits == maskBits b bits
  | none, none => n.masked == Prefix.masked ⟨ip, n.bits⟩
  | _, _ => false

example : parseCIDR "10.0.0.7/08" = some ⟨.v4 0x0A000000, 8⟩ := by decide
example : parseCIDR "10.0.0.7/33" = none := by decide

theorem parseOctet_digits {f : List Char} {n : Nat} (h : parseOctet f = some n) :
    ∀ c ∈ f, isDigit c = true := by
  unfold parseOctet parseDigits at h
  split_ifs at h with hzero hdigits
  · exact List.all_eq_true.mp hdigits.2
  · cases h

theorem parseIPv4_chars {s : List Char} {a : BitVec 32} (h : parseIPv4 s = some a) :
    '.' ∈ s ∧ ∀ c ∈ s, c = '.' ∨ isDigit c = true := by
  have hjoin : ['.'].intercalate (s.splitOn '.') = s := List.intercalate_splitOn '.'
  unfold parseIPv4 at h
  generalize s.splitOn '.' = fields at h hjoin
  split at h
  · next a b c d hfields =>
    simp only [List.map_eq_cons_iff, List.map_eq_nil_iff] at hfields
    obtain ⟨f, _, rfl, hf, g, _, rfl, hg, k, _, rfl, hk, l, _, rfl, hl, rfl⟩ := hfields
    have hs : s = f ++ '.' :: g ++ '.' :: k ++ '.' :: l := by
      rw [← hjoin]
      simp [List.intercalate]
    refine ⟨by simp [hs], ?_⟩
    intro c hc
    simp only [hs, List.mem_append, List.mem_cons] at hc
    rcases hc with ((hc | hc | hc) | hc | hc) | hc | hc
    · exact .inr (parseOctet_digits hf c hc)
    · exact .inl hc
    · exact .inr (parseOctet_digits hg c hc)
    · exact .inl hc
    · exact .inr (parseOctet_digits hk c hc)
    · exact .inl hc
    · exact .inr (parseOctet_digits hl c hc)
  · cases h

theorem parseIPv4_not_mem {s : List Char} {a : BitVec 32} (h : parseIPv4 s = some a) {c : Char}
    (hdot : c ≠ '.') (hdigit : isDigit c = false) : c ∉ s := by
  intro hc
  rcases (parseIPv4_chars h).2 c hc with hsame | hdig
  · exact hdot hsame
  · exact Bool.false_ne_true (hdigit.symm.trans hdig)

theorem parseAddr_of_dotted {s : List Char} (h : ':' ∉ s) : parseAddr s = (parseIPv4 s).map .v4 := by
  cases hparse : parseIPv4 s with
  | some a =>
    obtain ⟨hdot, hchars⟩ := parseIPv4_chars hparse
    have hfirst : s.find? (fun c => c = '.' ∨ c = ':' ∨ c = '%') = some '.' := by
      cases hfind : s.find? fun c => c = '.' ∨ c = ':' ∨ c = '%' with
      | none => exact absurd (List.find?_eq_none.mp hfind '.' hdot) (by simp)
      | some c =>
        have hmem := List.mem_of_find?_eq_some hfind
        have hsep : c = '.' ∨ c = ':' ∨ c = '%' := by simpa using List.find?_some hfind
        rcases hsep with rfl | rfl | rfl
        · rfl
        · exact absurd hmem h
        · exact absurd hmem (parseIPv4_not_mem hparse (by decide) (by decide))
    rw [parseAddr, hfirst]
    show (parseIPv4 s).map _ = _
    rw [hparse]
  | none =>
    unfold parseAddr
    split
    · rw [hparse]
    · next hcolon => exact absurd (List.mem_of_find?_eq_some hcolon) h
    · rfl

theorem parseAddr_of_colon {s : List Char} (h : ':' ∈ s) : parseIPv4 s = none := by
  cases hparse : parseIPv4 s with
  | none => rfl
  | some a => exact absurd h (parseIPv4_not_mem hparse (by decide) (by decide))

theorem digits_of_parseDigits {s : List Char} {n : Nat} (h : parseDigits s = some n) :
    s ≠ [] ∧ ∀ c ∈ s, isDigit c = true := by
  unfold parseDigits at h
  split_ifs at h with hdigits
  exact ⟨hdigits.1, List.all_eq_true.mp hdigits.2⟩

structure CIDRText (s : String) (addr mask : List Char) (a : Addr) (n : Nat) : Prop where
  text : s.toList = addr ++ '/' :: mask
  noSlash : '/' ∉ addr
  addr : parseAddr addr = some a
  mask : parseDigits mask = some n
  fits : n ≤ a.bitLen

theorem parseCIDR_text {s : String} {q : Prefix} (h : parseCIDR s = some q) :
    ∃ addr mask a n, CIDRText s addr mask a n ∧ q = Prefix.masked ⟨a, n⟩ := by
  have hsplit := List.takeWhile_append_dropWhile (p := (· ≠ '/')) (l := s.toList)
  unfold parseCIDR at h
  split at h
  · cases h
  · next slash mask hdrop =>
    simp only [Option.bind_eq_bind, Option.bind_eq_some_iff] at h
    obtain ⟨a, ha, n, hn, hq⟩ := h
    split_ifs at hq with hfits
    have hslash : slash = '/' := by
      have hhead := List.head?_dropWhile_not (· ≠ '/') s.toList
      rw [hdrop] at hhead
      simpa using hhead
    subst hslash
    rw [hdrop] at hsplit
    refine ⟨_, mask, a, n, ⟨hsplit.symm, ?_, ha, ?_, hfits⟩, (Option.some.inj hq).symm⟩
    · intro hmem
      have hne := List.mem_takeWhile_imp hmem
      simp at hne
    · exact (Option.filter_eq_some_iff.mp hn).1

theorem CIDRText.parsePrefix4 {s : String} {addr mask : List Char} {a : Addr} {n : Nat}
    (h : CIDRText s addr mask a n) : parsePrefix4 s = do
      let b ← parseIPv4 addr
      let m ← parseBits mask
      return ⟨.v4 b, m⟩ := by
  have hmask : '/' ∉ mask := by
    intro hmem
    exact absurd ((digits_of_parseDigits h.mask).2 '/' hmem) (by decide)
  have hsplit : s.toList.splitOn '/' = [addr, mask] := by
    rw [h.text, List.splitOn_append_cons_self_of_not_mem h.noSlash, List.splitOn_eq_singleton hmask]
  rw [LanWeave.parsePrefix4, hsplit]
  rfl

end LanWeave

import LanWeave.Golang.Netip

/-! How net/netip writes IPv4 addresses and prefixes, and that it reads back what it wrote. -/

namespace LanWeave

def octets (a : BitVec 32) : List Nat :=
  [a.toNat / 2 ^ 24, a.toNat / 2 ^ 16 % 256, a.toNat / 2 ^ 8 % 256, a.toNat % 256]

def addr4Chars (a : BitVec 32) : List Char := ['.'].intercalate ((octets a).map (Nat.toDigits 10))

/-- `Addr.String` of an IPv4 address. -/
def formatAddr4 (a : BitVec 32) : String := String.ofList (addr4Chars a)

/-- `Prefix.String` of an IPv4 prefix. -/
def formatPrefix4 (base : BitVec 32) (bits : Nat) : String :=
  String.ofList (['/'].intercalate [addr4Chars base, Nat.toDigits 10 bits])

example : formatPrefix4 0xC0A80700 24 = "192.168.7.0/24" := by decide

theorem octets_lt {a : BitVec 32} : ∀ o ∈ octets a, o < 256 := by
  have ha := a.isLt
  simp only [octets, List.mem_cons, List.not_mem_nil, or_false]
  omega

theorem parseOctet_toDigits : ∀ n < 256, parseOctet (Nat.toDigits 10 n) = some n ∧
    '.' ∉ Nat.toDigits 10 n ∧ '/' ∉ Nat.toDigits 10 n := by
  decide +kernel

theorem parseBits_toDigits : ∀ n < 33, parseBits (Nat.toDigits 10 n) = some n := by
  decide +kernel

theorem parseIPv4_addr4Chars (a : BitVec 32) : parseIPv4 (addr4Chars a) = some a := by
  have ha := a.isLt
  have hfields : ((octets a).map (Nat.toDigits 10)).map parseOctet = (octets a).map some := by
    rw [List.map_map]
    refine List.map_congr_left fun o ho => ?_
    exact (parseOctet_toDigits o (octets_lt o ho)).1
  have hsplit : (addr4Chars a).splitOn '.' = (octets a).map (Nat.toDigits 10) := by
    refine List.splitOn_intercalate '.' (fun l hl => ?_) (by simp [octets])
    obtain ⟨o, ho, rfl⟩ := List.mem_map.mp hl
    exact (parseOctet_toDigits o (octets_lt o ho)).2.1
  rw [parseIPv4, hsplit, hfields]
  show some (BitVec.ofNat 32 _) = some a
  congr 1
  apply BitVec.eq_of_toNat_eq
  rw [BitVec.toNat_ofNat]
  omega

theorem formatAddr4_injective : Function.Injective formatAddr4 := by
  intro a b h
  have hchars : addr4Chars a = addr4Chars b := by
    rw [← String.toList_ofList (l := addr4Chars a), ← String.toList_ofList (l := addr4Chars b)]
    exact congrArg String.toList h
  have hparse := parseIPv4_addr4Chars a
  rw [hchars, parseIPv4_addr4Chars b] at hparse
  exact (Option.some.inj hparse).symm

theorem formatAddr4_ne_empty (a : BitVec 32) : formatAddr4 a ≠ "" := by
  intro h
  have hchars : addr4Chars a = [] := by
    rw [← String.toList_ofList (l := addr4Chars a)]
    exact congrArg String.toList h
  have hparse := parseIPv4_addr4Chars a
  rw [hchars] at hparse
  have hnone : parseIPv4 [] = none := by decide
  cases hnone.symm.trans hparse

theorem mem_of_mem_intercalate {α : Type*} {sep : List α} {ls : List (List α)} {a : α}
    (h : a ∈ sep.intercalate ls) : a ∈ sep ∨ ∃ l ∈ ls, a ∈ l := by
  rw [List.intercalate, List.mem_flatten] at h
  obtain ⟨l, hl, ha⟩ := h
  induction ls with
  | nil => simp at hl
  | cons l' ls ih =>
    cases ls with
    | nil =>
      simp only [List.intersperse, List.mem_singleton] at hl
      exact .inr ⟨l', List.mem_singleton.mpr rfl, hl ▸ ha⟩
    | cons l'' ls =>
      rw [List.intersperse_cons_cons, List.mem_cons, List.mem_cons] at hl
      rcases hl with rfl | rfl | hl
      · exact .inr ⟨_, List.mem_cons_self, ha⟩
      · exact .inl ha
      · rcases ih hl with hsep | ⟨m, hm, ham⟩
        · exact .inl hsep
        · exact .inr ⟨m, List.mem_cons_of_mem _ hm, ham⟩

theorem isDigit_or_dot {a : BitVec 32} {c : Char} (h : c ∈ addr4Chars a) :
    isDigit c = true ∨ c = '.' := by
  rcases mem_of_mem_intercalate h with hdot | ⟨l, hl, hc⟩
  · exact .inr (List.mem_singleton.mp hdot)
  · obtain ⟨o, -, rfl⟩ := List.mem_map.mp hl
    exact .inl (Nat.isDigit_of_mem_toDigits (by decide) (by decide) hc)

theorem slash_not_mem_addr4Chars (a : BitVec 32) : '/' ∉ addr4Chars a := by
  intro h
  rcases isDigit_or_dot h with hdigit | hdot
  · exact absurd hdigit (by decide)
  · exact absurd hdot (by decide)

theorem mem_formatPrefix4 {base : BitVec 32} {bits : Nat} {c : Char}
    (h : c ∈ (formatPrefix4 base bits).toList) : isDigit c = true ∨ c = '.' ∨ c = '/' := by
  rw [formatPrefix4, String.toList_ofList] at h
  rcases mem_of_mem_intercalate h with hslash | ⟨l, hl, hc⟩
  · exact .inr (.inr (List.mem_singleton.mp hslash))
  · rcases List.mem_pair.mp hl with rfl | rfl
    · exact (isDigit_or_dot hc).imp_right .inl
    · exact .inl (Nat.isDigit_of_mem_toDigits (by decide) (by decide) hc)

theorem parsePrefix4_format (base : BitVec 32) {bits : Nat} (h : bits ≤ 32) :
    parsePrefix4 (formatPrefix4 base bits) = some ⟨.v4 base, bits⟩ := by
  have hbits := parseBits_toDigits bits (by omega)
  have hno : '/' ∉ Nat.toDigits 10 bits := (parseOctet_toDigits bits (by omega)).2.2
  have hsplit : (formatPrefix4 base bits).toList.splitOn '/' =
      [addr4Chars base, Nat.toDigits 10 bits] := by
    rw [formatPrefix4, String.toList_ofList]
    refine List.splitOn_intercalate '/' (fun l hl => ?_) (by simp)
    rcases List.mem_pair.mp hl with rfl | rfl
    · exact slash_not_mem_addr4Chars base
    · exact hno
  rw [parsePrefix4, hsplit]
  simp only [List.reverse_cons, List.reverse_nil, List.nil_append, List.singleton_append,
    parseIPv4_addr4Chars, hbits]
  rfl

end LanWeave

import LanWeave.Golang.Net
import LanWeave.Server.PoolRange

/-! The check of the two address pools in the configuration, and what the server makes of those it
lets pass. -/

namespace LanWeave

inductive PoolErr
  | networkRequired
  | networkInvalid (network : String)
  | poolInvalid (pool : String)
  | poolOverlaps (pool network : String)
deriving DecidableEq

/-- The part of `Validate` about wireguard.network. -/
def validateNetwork (network : String) : List PoolErr :=
  if network = "" then [.networkRequired]
  else if (parseCIDR network).isNone then [.networkInvalid network]
  else []

/-- The part about announce.pool; empty means that the feature is off. -/
def validateAnnouncePool (network pool : String) : List PoolErr :=
  if pool = "" then []
  else
    match parseCIDR pool with
    | none => [.poolInvalid pool]
    | some poolNet =>
      if poolNet.addr.to4.isNone then [.poolInvalid pool]
      else if network = "" then []
      else
        match parseCIDR network with
        | none => []
        | some vpnNet =>
          if ipNetContains poolNet vpnNet.addr || ipNetContains vpnNet poolNet.addr then
            [.poolOverlaps pool network]
          else []

def validatePools (network pool : String) : List PoolErr :=
  validateNetwork network ++ validateAnnouncePool network pool

/-- The server can address itself and its clients, and its announcements lie elsewhere. -/
structure PoolsUsable (network pool : String) : Prop where
  server : (firstUsableAddress network).isSome
  clients : (poolRange network).isSome
  announce : pool ≠ "" → (parsePrefix4 pool).isSome
  disjoint : ∀ n p, parsePrefix4 network = some n → parsePrefix4 pool = some p →
    Disjoint (blockFromPrefix n).addrs (blockFromPrefix p).addrs

def lengthText (cidr : String) : List Char := (cidr.toList.dropWhile (· ≠ '/')).drop 1

/-- Written as a dotted IPv4 address with a length that has no leading zero. -/
structure Plain (cidr : String) : Prop where
  dotted : ':' ∉ cidr.toList
  length : lengthText cidr = ['0'] ∨ (lengthText cidr).head? ≠ some '0'

/-- The length leaves room for a server address. -/
def Roomy (cidr : String) : Prop := ∀ n, dtoi (lengthText cidr) = some n → n ≤ 30

section
variable {s : String} {q p : Prefix} {addr mask : List Char} {a : Addr} {n : Nat}

theorem CIDRText.lengthText (h : CIDRText s addr mask a n) : lengthText s = mask := by
  have haddr : ∀ c ∈ addr, decide (c ≠ '/') = true := by
    intro c hc
    rw [decide_eq_true_eq]
    intro hslash
    exact h.noSlash (hslash ▸ hc)
  rw [LanWeave.lengthText, h.text, List.dropWhile_append_of_pos haddr]
  rfl

theorem CIDRText.dotted_iff (h : CIDRText s addr mask a n) : ':' ∉ s.toList ↔ ':' ∉ addr := by
  have hmask : ':' ∉ mask := by
    intro hmem
    exact absurd ((digits_of_parseDigits h.mask).2 ':' hmem) (by decide)
  rw [h.text]
  simp [hmask]

theorem parseBits_isSome (hmask : parseDigits mask = some n) (hn : n ≤ 32) :
    (parseBits mask).isSome ↔ mask = ['0'] ∨ mask.head? ≠ some '0' := by
  unfold parseBits
  rw [hmask]
  have hkeep : (some n).filter (· ≤ 32) = some n := by simp [hn]
  rw [hkeep]
  split_ifs with hzero
  · refine iff_of_false nofun ?_
    intro hplain
    rcases hplain with rfl | hne
    · exact absurd hzero.2 (by decide)
    · exact hne hzero.1
  · refine iff_of_true rfl ?_
    by_cases hhead : mask.head? = some '0'
    · left
      cases mask with
      | nil => cases hhead
      | cons c rest =>
        obtain rfl := Option.some.inj hhead
        have hshort : rest.length = 0 := by
          have hlen : ¬1 < rest.length + 1 := fun hlt => hzero ⟨hhead, hlt⟩
          omega
        rw [List.length_eq_zero_iff.mp hshort]
    · exact .inr hhead

theorem parsePrefix4_isSome (h : parseCIDR s = some q) : (parsePrefix4 s).isSome ↔ Plain s := by
  obtain ⟨addr, mask, a, n, ht, -⟩ := parseCIDR_text h
  have hplain : Plain s ↔ ':' ∉ addr ∧ (mask = ['0'] ∨ mask.head? ≠ some '0') := by
    rw [← ht.dotted_iff, ← ht.lengthText]
    exact ⟨fun h => ⟨h.dotted, h.length⟩, fun h => ⟨h.1, h.2⟩⟩
  rw [hplain, ht.parsePrefix4]
  by_cases hcolon : ':' ∈ addr
  · rw [parseAddr_of_colon hcolon]
    exact iff_of_false (by simp) (fun h => h.1 hcolon)
  · have haddr := ht.addr
    rw [parseAddr_of_dotted hcolon] at haddr
    obtain ⟨b, hb, rfl⟩ := Option.map_eq_some_iff.mp haddr
    have hbits := parseBits_isSome ht.mask ht.fits
    rw [hb, ← hbits, and_iff_right hcolon]
    cases parseBits mask <;> simp

theorem parsePrefix4_eq (h : parseCIDR s = some q) (hp : parsePrefix4 s = some p) :
    p.masked = q ∧ dtoi (lengthText s) = some p.bits := by
  obtain ⟨addr, mask, a, n, ht, rfl⟩ := parseCIDR_text h
  rw [ht.parsePrefix4] at hp
  simp only [Option.bind_eq_bind, Option.bind_eq_some_iff, pure, Option.some.injEq] at hp
  obtain ⟨b, hb, m, hm, rfl⟩ := hp
  have hcolon : ':' ∉ addr := parseIPv4_not_mem hb (by decide) (by decide)
  have haddr := ht.addr
  rw [parseAddr_of_dotted hcolon, hb] at haddr
  obtain rfl := Option.some.inj haddr
  have hbits : n = m := by
    unfold parseBits at hm
    split_ifs at hm
    exact Option.some.inj (ht.mask.symm.trans (Option.filter_eq_some_iff.mp hm).1)
  subst hbits
  have hfits : n ≤ 32 := ht.fits
  refine ⟨rfl, ?_⟩
  rw [ht.lengthText, dtoi, ht.mask]
  simp
  omega

theorem contains_iff_mem {base b : BitVec 32} {bits : Nat} :
    maskBits base bits = maskBits b bits ↔
      b.toNat ∈ (blockFromPrefix ⟨.v4 base, bits⟩).addrs := by
  have hpos := Nat.two_pow_pos (32 - bits)
  have hbase : (blockFromPrefix ⟨.v4 base, bits⟩).base.toNat =
    base.toNat / 2 ^ (32 - bits) * 2 ^ (32 - bits) :=
    toNat_maskBits base bits
  rw [Block.addrs, blockFromPrefix_prefixLen, Set.mem_Ico, hbase, ← BitVec.toNat_inj, toNat_maskBits,
    toNat_maskBits, Nat.mul_left_inj (by omega), eq_comm, Nat.div_eq_iff hpos]
  dsimp only
  generalize base.toNat / 2 ^ (32 - bits) * 2 ^ (32 - bits) = first
  omega

/-- Blocks are apart when neither contains the other's first address. -/
theorem disjoint_of_not_contains {n p : Prefix} (hn : n.addr.is4 = true) (hp : p.addr.is4 = true)
    (h : (ipNetContains p.masked n.masked.addr || ipNetContains n.masked p.masked.addr) = false) :
    Disjoint (blockFromPrefix n).addrs (blockFromPrefix p).addrs := by
  obtain ⟨a | a, i⟩ := n
  · obtain ⟨b | b, j⟩ := p
    · obtain ⟨hleft, hright⟩ := Bool.or_eq_false_iff.mp h
      have hleft : ¬maskBits (maskBits b j) j = maskBits (maskBits a i) j := ne_of_beq_false hleft
      have hright : ¬maskBits (maskBits a i) i = maskBits (maskBits b j) i := ne_of_beq_false hright
      rw [maskBits_maskBits, contains_iff_mem] at hleft hright
      rw [Set.disjoint_left]
      intro x hx hx'
      simp only [Block.addrs, Set.mem_Ico, not_and, not_lt] at hleft hright hx hx'
      have ha : (blockFromPrefix ⟨.v4 a, i⟩).base = maskBits a i := rfl
      have hb : (blockFromPrefix ⟨.v4 b, j⟩).base = maskBits b j := rfl
      rw [ha] at hx hright
      rw [hb] at hx' hleft
      omega
    · cases hp
  · cases hn

end

section
variable {network pool : String}

theorem validateNetwork_nil (h : validateNetwork network = []) : (parseCIDR network).isSome := by
  unfold validateNetwork at h
  split_ifs at h with hempty hnone
  simpa [Option.isSome_iff_ne_none] using hnone

theorem validateAnnouncePool_nil (h : validateAnnouncePool network pool = []) (hpool : pool ≠ "") :
    ∃ q, parseCIDR pool = some q ∧ ∀ n, network ≠ "" → parseCIDR network = some n →
      (ipNetContains q n.addr || ipNetContains n q.addr) = false := by
  unfold validateAnnouncePool at h
  rw [if_neg hpool] at h
  cases hq : parseCIDR pool with
  | none => rw [hq] at h; cases h
  | some q =>
    refine ⟨q, rfl, ?_⟩
    intro n hne hn
    rw [hq, hn] at h
    dsimp only at h
    rw [if_neg hne] at h
    split_ifs at h with hmapped hmeets
    exact Bool.not_eq_true _ ▸ hmeets

/-- What the check lets pass is usable if and only if both texts are plain and the network is large
enough for a server address. -/
theorem poolsUsable_iff (h : validatePools network pool = []) :
    PoolsUsable network pool ↔ Plain network ∧ Roomy network ∧ (pool = "" ∨ Plain pool) := by
  obtain ⟨hnet, hann⟩ := List.append_eq_nil_iff.mp h
  obtain ⟨q, hq⟩ := Option.isSome_iff_exists.mp (validateNetwork_nil hnet)
  have hne : network ≠ "" := by
    intro hempty
    rw [hempty] at hnet
    cases hnet
  constructor
  · intro hu
    have hparsed : (parsePrefix4 network).isSome := by
      have hserver := hu.server
      unfold firstUsableAddress at hserver
      cases hp : parsePrefix4 network with
      | none => rw [hp] at hserver; cases hserver
      | some p => rfl
    obtain ⟨p, hp⟩ := Option.isSome_iff_exists.mp hparsed
    refine ⟨(parsePrefix4_isSome hq).mp hparsed, ?_, ?_⟩
    · intro n hn
      have hbits := firstUsableAddress_isSome hp
      rw [hu.server] at hbits
      obtain rfl := Option.some.inj ((parsePrefix4_eq hq hp).2.symm.trans hn)
      exact of_decide_eq_true hbits.symm
    · by_cases hpool : pool = ""
      · exact .inl hpool
      · obtain ⟨q', hq', -⟩ := validateAnnouncePool_nil hann hpool
        exact .inr ((parsePrefix4_isSome hq').mp (hu.announce hpool))
  · intro hplain
    obtain ⟨hplain, hroom, hpool⟩ := hplain
    obtain ⟨p, hp⟩ := Option.isSome_iff_exists.mp ((parsePrefix4_isSome hq).mpr hplain)
    obtain ⟨hmasked, hlen⟩ := parsePrefix4_eq hq hp
    have hbits : p.bits ≤ 30 := hroom _ hlen
    refine ⟨?_, ?_, ?_, ?_⟩
    · rw [firstUsableAddress_isSome hp]
      exact decide_eq_true hbits
    · obtain ⟨first, last, hrange, -, -⟩ := poolRange_of_bits hp hbits
      rw [hrange]
      rfl
    · intro hne'
      obtain ⟨q', hq', -⟩ := validateAnnouncePool_nil hann hne'
      exact (parsePrefix4_isSome hq').mpr (hpool.resolve_left hne')
    · intro n r hn hr
      obtain rfl := Option.some.inj (hp.symm.trans hn)
      have hne' : pool ≠ "" := by
        intro hempty
        have hnone : parsePrefix4 "" = none := by decide
        rw [hempty, hnone] at hr
        cases hr
      obtain ⟨q', hq', hapart⟩ := validateAnnouncePool_nil hann hne'
      obtain ⟨hmasked', -⟩ := parsePrefix4_eq hq' hr
      -- the check compares the base addresses only, which is enough for aligned prefixes
      apply disjoint_of_not_contains (parsePrefix4_v4 hp).1 (parsePrefix4_v4 hr).1
      rw [hmasked, hmasked']
      exact hapart q hne hq

end

/-- Four texts that pass and stop the server: no room, another family, a leading zero in the length,
and a mapped pool. -/
theorem passes_unusable :
    (validatePools "100.127.0.0/31" "" = [] ∧ ¬PoolsUsable "100.127.0.0/31" "") ∧
      (validatePools "fd00::/64" "" = [] ∧ ¬PoolsUsable "fd00::/64" "") ∧
      (validatePools "100.127.0.0/016" "" = [] ∧ ¬PoolsUsable "100.127.0.0/016" "") ∧
      validatePools "100.127.0.0/16" "::ffff:100.100.0.0/112" = [] ∧
        ¬PoolsUsable "100.127.0.0/16" "::ffff:100.100.0.0/112" := by
  refine ⟨⟨by decide, ?_⟩, ⟨by decide, ?_⟩, ⟨by decide, ?_⟩, by decide, ?_⟩
  · intro h
    exact absurd h.server (by decide)
  · intro h
    exact absurd h.server (by decide)
  · intro h
    exact absurd h.server (by decide)
  · intro h
    exact absurd (h.announce (by decide)) (by decide)

/-- The pools of the sample configuration. -/
theorem poolsUsable_iff_sample : PoolsUsable "100.127.0.0/16" "100.100.0.0/16" := by
  apply (@poolsUsable_iff "100.127.0.0/16" "100.100.0.0/16" (by decide)).mpr
  refine ⟨⟨by decide, by decide⟩, ?_, .inr ⟨by decide, by decide⟩⟩
  intro n hn
  have hlen : dtoi (lengthText "100.127.0.0/16") = some 16 := by decide
  rw [hlen] at hn
  cases hn
  decide

end LanWeave

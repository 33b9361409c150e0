import LanWeave.Library.IntervalSet
import LanWeave.Server.ConfigPools
import LanWeave.Server.Netfw

/-! The routes set of a zone as the kernel keeps it, element by element: a range is a start and an
element marked as interval end. -/

open LanWeave.Library.IntervalSet

namespace LanWeave

/-- The numbers between which the kernel places a range. -/
def Range.interval (r : Range) : ℕ × ℕ := (r.1.toNat, r.2.toNat)

def Range.elements (r : Range) : Finset (Boundary ℕ) := bounds r.interval

def addresses (set : Finset (Boundary ℕ)) : Set (BitVec 32) := {a | a.toNat ∈ keys set}

/-- An element that is there already is no error. -/
def setAddElements (set elements : Finset (Boundary ℕ)) : Finset (Boundary ℕ) := set ∪ elements

/-- All of them or none. -/
def setDeleteElements (set elements : Finset (Boundary ℕ)) : Except KernelErr (Finset (Boundary ℕ)) :=
  if elements ⊆ set then .ok (set \ elements) else .error .missing

/-- What `AddZoneRoute` puts into an empty set, one prefix after the other. -/
def installedRoutes (ps : List Prefix) : Finset (Boundary ℕ) :=
  ps.foldl (fun set p => setAddElements set (rangeElements p).elements) ∅

/-- What `RemoveZoneRoute` leaves of it. -/
def withoutRoute (set : Finset (Boundary ℕ)) (p : Prefix) : Except KernelErr (Finset (Boundary ℕ)) :=
  setDeleteElements set (rangeElements p).elements

namespace Nft

/-- The elements behind the ranges of the zone. -/
def routeElements (t : Nft) (zoneID : Int) : Finset (Boundary ℕ) :=
  ((t.routes zoneID).getD ∅).biUnion Range.elements

variable {t t' : Nft} {zoneID : Int} {p : Prefix}

theorem routeElements_addZoneRoute (h : t.addZoneRoute zoneID p = .ok t') :
    t'.routeElements zoneID = setAddElements (t.routeElements zoneID) (rangeElements p).elements := by
  unfold addZoneRoute at h
  cases hset : t.routes zoneID with
  | none =>
    rw [hset] at h
    cases h
  | some set =>
    rw [hset] at h
    cases h
    simp [routeElements, hset, setAddElements, Finset.biUnion_insert, Finset.union_comm]

theorem routeElements_removeZoneRoute (h : t.removeZoneRoute zoneID p = .ok t')
    (hshare : ∀ r, t.HasRoute zoneID r → r ≠ rangeElements p →
      Disjoint r.elements (rangeElements p).elements) :
    withoutRoute (t.routeElements zoneID) p = .ok (t'.routeElements zoneID) := by
  unfold removeZoneRoute at h
  cases hset : t.routes zoneID with
  | none =>
    rw [hset] at h
    cases h
  | some set =>
    rw [hset] at h
    dsimp only at h
    split_ifs at h with hmem
    cases h
    have hsub : (rangeElements p).elements ⊆ set.biUnion Range.elements :=
      Finset.subset_biUnion_of_mem Range.elements hmem
    rw [withoutRoute, setDeleteElements, routeElements, hset, Option.getD_some, if_pos hsub]
    simp only [routeElements, Function.update_self, Option.getD_some]
    congr 1
    ext b
    simp only [Finset.mem_sdiff, Finset.mem_biUnion, Finset.mem_erase]
    constructor
    · intro hb
      obtain ⟨⟨r, hr, hbr⟩, hnot⟩ := hb
      have hne : r ≠ rangeElements p := fun heq => hnot (heq ▸ hbr)
      exact ⟨r, ⟨hne, hr⟩, hbr⟩
    · intro hb
      obtain ⟨r, ⟨hne, hr⟩, hbr⟩ := hb
      exact ⟨⟨r, hr, hbr⟩, Finset.disjoint_left.mp (hshare r ⟨set, hset, hr⟩ hne) hbr⟩

end Nft

namespace Prefix

def addresses (p : Prefix) : Set (BitVec 32) := {a | a.toNat ∈ (blockFromPrefix p).addrs}

def stop (p : Prefix) : ℕ := (blockFromPrefix p).base.toNat + 2 ^ (32 - p.bits)

structure IsIPv4 (p : Prefix) : Prop where
  is4 : p.addr.is4 = true
  valid : p.Valid

variable {p q : Prefix} {a : BitVec 32}

theorem mem_addresses :
    a ∈ p.addresses ↔ (blockFromPrefix p).base.toNat ≤ a.toNat ∧ a.toNat < p.stop := by
  rw [addresses, Set.mem_ofPred_eq, Block.addrs, Set.mem_Ico, blockFromPrefix_prefixLen, stop]

theorem IsIPv4.stop_le (h : p.IsIPv4) : p.stop ≤ 2 ^ 32 := (pool_bounds h.is4 h.valid).2

theorem base_lt_stop (p : Prefix) : (blockFromPrefix p).base.toNat < p.stop :=
  Nat.lt_add_of_pos_right (Nat.two_pow_pos _)

theorem IsIPv4.interval (h : p.IsIPv4) :
    (rangeElements p).interval =
      ((blockFromPrefix p).base.toNat, if p.stop = 2 ^ 32 then 2 ^ 32 - 1 else p.stop) := by
  have hle := h.stop_le
  have hcut : 2 ^ 32 ≤ p.stop ↔ p.stop = 2 ^ 32 :=
    ⟨fun hge => Nat.le_antisymm hle hge, fun heq => heq.ge⟩
  have hend := toNat_rangeElements_end p
  change _ = if 2 ^ 32 ≤ p.stop then _ else p.stop at hend
  rw [Range.interval, hend]
  simp only [hcut]
  rfl

theorem IsIPv4.interval_le (h : p.IsIPv4) :
    (rangeElements p).interval.1 ≤ (rangeElements p).interval.2 := by
  have hlt := p.base_lt_stop
  rw [h.interval]
  dsimp only
  split_ifs with htop <;> omega

/-- A block that reaches the end of the space with more than one address. -/
def CutOff (p : Prefix) : Prop := p.stop = 2 ^ 32 ∧ p.bits < 32

theorem IsIPv4.mem_span (h : p.IsIPv4) (hcut : ¬p.CutOff) :
    a.toNat ∈ span (rangeElements p).interval ↔ a ∈ p.addresses := by
  have hlt := p.base_lt_stop
  have ha := a.isLt
  rw [h.interval, mem_addresses]
  by_cases htop : p.stop = 2 ^ 32
  · -- one address: the start itself is the end
    have hbits : p.bits = 32 := by
      have hle := bits_le_of_is4 h.is4 h.valid
      by_contra hne
      exact hcut ⟨htop, by omega⟩
    have hbase : (blockFromPrefix p).base.toNat = 2 ^ 32 - 1 := by
      have hone := htop
      rw [stop, hbits] at hone
      omega
    simp only [span, htop, if_true, hbase, Set.mem_ofPred_eq]
    omega
  · have hspan : span ((blockFromPrefix p).base.toNat, p.stop) = Set.Ico _ _ := span_of_lt hlt
    rw [if_neg htop, hspan]
    rfl

theorem CutOff.last (h : p.CutOff) (hp : p.IsIPv4) :
    (0xFFFFFFFF : BitVec 32) ∈ p.addresses ∧
      (0xFFFFFFFF : BitVec 32) ∉ LanWeave.addresses (rangeElements p).elements := by
  obtain ⟨htop, hbits⟩ := h
  have hlt := p.base_lt_stop
  have hlast : (0xFFFFFFFF : BitVec 32).toNat = 2 ^ 32 - 1 := rfl
  have hmany : (blockFromPrefix p).base.toNat < 2 ^ 32 - 1 := by
    have hsize : 2 ^ 1 ≤ 2 ^ (32 - p.bits) := Nat.pow_le_pow_right (by decide) (by omega)
    rw [stop] at htop
    omega
  constructor
  · rw [mem_addresses, hlast]
    omega
  · intro hmem
    rw [LanWeave.addresses, Set.mem_ofPred_eq, Range.elements, keys_bounds, hlast, hp.interval,
      if_pos htop] at hmem
    exact absurd (hmem.2 hmany) (Nat.lt_irrefl _)

theorem IsIPv4.mem_addresses_of_span (h : p.IsIPv4) (ha : a.toNat ∈ span (rangeElements p).interval) :
    a ∈ p.addresses := by
  by_cases hcut : p.CutOff
  · have hlt := p.base_lt_stop
    have hbound := a.isLt
    rw [h.interval, if_pos hcut.1] at ha
    rw [mem_addresses, hcut.1]
    exact ⟨ha.1, hbound⟩
  · exact (h.mem_span hcut).mp ha

theorem IsIPv4.disjoint_span (hp : p.IsIPv4) (hq : q.IsIPv4) (h : Disjoint p.addresses q.addresses) :
    Disjoint (span (rangeElements p).interval) (span (rangeElements q).interval) := by
  have hmeet := Set.disjoint_left.mp h
  rw [Set.disjoint_left]
  intro x hxp hxq
  -- the later one of the two starts lies in both
  rcases Nat.le_total (rangeElements p).1.toNat (rangeElements q).1.toNat with hle | hle
  · have hstart : (rangeElements q).1.toNat ∈ span (rangeElements p).interval :=
      mem_span_of_le hxp hle hxq.1
    exact hmeet (hp.mem_addresses_of_span hstart) (hq.mem_addresses_of_span start_mem_span)
  · have hstart : (rangeElements p).1.toNat ∈ span (rangeElements q).interval :=
      mem_span_of_le hxq hle hxp.1
    exact hmeet (hp.mem_addresses_of_span start_mem_span) (hq.mem_addresses_of_span hstart)

def lastBlock : Block := ⟨0xFFFFFFFF, 32⟩

/-- The one before it, which ends where the last one is cut off. -/
def beforeLast : Block := ⟨0xFFFFFFFE, 32⟩

theorem IsIPv4.eq_lastBlock (h : p.IsIPv4)
    (hend : ¬(rangeElements p).interval.1 < (rangeElements p).interval.2) :
    blockFromPrefix p = lastBlock := by
  have hlt := p.base_lt_stop
  have hbound := (blockFromPrefix p).base.isLt
  have hle := bits_le_of_is4 h.is4 h.valid
  rw [h.interval] at hend
  dsimp only at hend
  split_ifs at hend with htop
  · have hbase : (blockFromPrefix p).base.toNat = 2 ^ 32 - 1 := by omega
    have hone : 2 ^ (32 - p.bits) = 2 ^ 0 := by
      rw [stop] at htop
      omega
    have hbits := Nat.pow_right_injective (le_refl 2) hone
    have hlen := blockFromPrefix_prefixLen p
    cases hb : blockFromPrefix p with
    | mk base prefixLen =>
      rw [hb] at hbase hlen
      simp only at hbase hlen
      have heq : base = 0xFFFFFFFF := BitVec.eq_of_toNat_eq hbase
      rw [lastBlock, heq, hlen, show p.bits = 32 by omega]
  · exact absurd hlt hend

theorem IsIPv4.eq_beforeLast (h : p.IsIPv4) (hstop : p.stop = 2 ^ 32 - 1) :
    blockFromPrefix p = beforeLast := by
  have hle := bits_le_of_is4 h.is4 h.valid
  obtain ⟨k, hk⟩ := (pool_bounds h.is4 h.valid).1
  have hlen := blockFromPrefix_prefixLen p
  rw [stop] at hstop
  -- an odd end is that of a single address
  have hbits : p.bits = 32 := by
    by_contra hne
    have htwo : 2 ∣ 2 ^ (32 - p.bits) := dvd_pow_self 2 (by omega)
    have hdvd : 2 ∣ (blockFromPrefix p).base.toNat := hk ▸ htwo.mul_right k
    omega
  rw [hbits] at hstop
  cases hb : blockFromPrefix p with
  | mk base prefixLen =>
    rw [hb] at hstop hlen
    simp only at hstop hlen
    have hbase : base.toNat = (0xFFFFFFFE : BitVec 32).toNat := by
      have hval : (0xFFFFFFFE : BitVec 32).toNat = 2 ^ 32 - 2 := rfl
      omega
    rw [beforeLast, BitVec.eq_of_toNat_eq hbase, hlen, hbits]

theorem stop_of_lastBlock (h : blockFromPrefix p = lastBlock) : p.stop = 2 ^ 32 := by
  have hlen := blockFromPrefix_prefixLen p
  rw [h] at hlen
  rw [stop, h, ← hlen]
  rfl

theorem IsIPv4.disjoint_last (hp : p.IsIPv4) (hq : q.IsIPv4) (h : Disjoint p.addresses q.addresses)
    (hlast : blockFromPrefix p = lastBlock) (hbefore : blockFromPrefix q ≠ beforeLast) :
    Disjoint (rangeElements p).elements (rangeElements q).elements := by
  have hmeet := Set.disjoint_left.mp (hp.disjoint_span hq h)
  have hbase : (blockFromPrefix p).base.toNat = 2 ^ 32 - 1 := by
    rw [hlast]
    rfl
  have htop := stop_of_lastBlock hlast
  have hlow : q.stop ≠ 2 ^ 32 := by
    intro htop'
    have hmem : (0xFFFFFFFF : BitVec 32) ∈ p.addresses := by
      rw [mem_addresses, htop, hbase]
      decide
    have hlt := q.base_lt_stop
    have hmem' : (0xFFFFFFFF : BitVec 32) ∈ q.addresses := by
      rw [mem_addresses, htop']
      rw [htop'] at hlt
      exact ⟨Nat.le_pred_of_lt hlt, by decide⟩
    exact Set.disjoint_left.mp h hmem hmem'
  rw [Finset.disjoint_left]
  intro b hbp hbq
  obtain ⟨key, isEnd⟩ := b
  cases isEnd with
  | false =>
    rw [Range.elements, start_mem_bounds] at hbp hbq
    exact hmeet (hbp ▸ start_mem_span) (hbq ▸ start_mem_span)
  | true =>
    rw [Range.elements, end_mem_bounds] at hbp hbq
    rw [hp.interval, if_pos htop] at hbp
    rw [hq.interval, if_neg hlow] at hbq
    exact hbefore (hq.eq_beforeLast (hbq.symm.trans hbp))

/-- Two prefixes share an element only where one ends at the last address. -/
theorem IsIPv4.disjoint_elements (hp : p.IsIPv4) (hq : q.IsIPv4) (h : Disjoint p.addresses q.addresses)
    (hpair : ¬(blockFromPrefix p = lastBlock ∧ blockFromPrefix q = beforeLast))
    (hpair' : ¬(blockFromPrefix q = lastBlock ∧ blockFromPrefix p = beforeLast)) :
    Disjoint (rangeElements p).elements (rangeElements q).elements := by
  by_cases hp' : (rangeElements p).interval.1 < (rangeElements p).interval.2
  · by_cases hq' : (rangeElements q).interval.1 < (rangeElements q).interval.2
    · exact disjoint_bounds hp' hq' (hp.disjoint_span hq h)
    · have hlast := hq.eq_lastBlock hq'
      exact (hq.disjoint_last hp h.symm hlast fun hbefore => hpair' ⟨hlast, hbefore⟩).symm
  · have hlast := hp.eq_lastBlock hp'
    exact hp.disjoint_last hq h hlast fun hbefore => hpair ⟨hlast, hbefore⟩

end Prefix

/-- No prefix loses its last address, and no two share an element. -/
structure RoutesFit (ps : List Prefix) : Prop where
  whole : ∀ p ∈ ps, ¬p.CutOff
  apart : ¬(Prefix.lastBlock ∈ ps.map blockFromPrefix ∧ Prefix.beforeLast ∈ ps.map blockFromPrefix)

/-- The elements of each prefix denote it, and the removal of any one leaves exactly the others. -/
structure RoutesExact (ps : List Prefix) : Prop where
  denotes : ∀ p ∈ ps, addresses (rangeElements p).elements = p.addresses
  removed : ∀ p ∈ ps, ∃ set, withoutRoute (installedRoutes ps) p = .ok set ∧
    addresses set = ⋃ q ∈ ps.erase p, q.addresses

section
variable {ps : List Prefix} {p q : Prefix}

def routeIntervals (ps : List Prefix) : Finset (ℕ × ℕ) :=
  (ps.map fun p => (rangeElements p).interval).toFinset

theorem mem_routeIntervals {i : ℕ × ℕ} :
    i ∈ routeIntervals ps ↔ ∃ p ∈ ps, (rangeElements p).interval = i := by
  simp [routeIntervals]

theorem foldl_setAddElements (set : Finset (Boundary ℕ)) :
    ps.foldl (fun set p => setAddElements set (rangeElements p).elements) set =
      set ∪ (routeIntervals ps).biUnion bounds := by
  induction ps generalizing set with
  | nil => simp [routeIntervals]
  | cons p ps ih =>
    rw [List.foldl_cons, ih, setAddElements, Finset.union_assoc]
    congr 1
    ext b
    simp [routeIntervals, Range.elements]

theorem installedRoutes_eq : installedRoutes ps = (routeIntervals ps).biUnion bounds := by
  rw [installedRoutes, foldl_setAddElements, Finset.empty_union]

theorem disjoint_of_ne (hdisj : ps.Pairwise fun p q => Disjoint p.addresses q.addresses) (hp : p ∈ ps)
    (hq : q ∈ ps) (hne : p ≠ q) : Disjoint p.addresses q.addresses := by
  have : Std.Symm fun p q : Prefix => Disjoint p.addresses q.addresses := ⟨fun _ _ h => h.symm⟩
  exact hdisj.forall hp hq hne

theorem nodup_of_disjoint (hdisj : ps.Pairwise fun p q => Disjoint p.addresses q.addresses) :
    ps.Nodup := by
  apply hdisj.imp
  intro p q h heq
  have hbase : (blockFromPrefix p).base ∈ p.addresses :=
    Prefix.mem_addresses.mpr ⟨le_rfl, p.base_lt_stop⟩
  exact Set.disjoint_left.mp h hbase (heq ▸ hbase)

theorem elements_subset_installedRoutes (hp : p ∈ ps) :
    (rangeElements p).elements ⊆ installedRoutes ps := by
  rw [installedRoutes_eq]
  exact Finset.subset_biUnion_of_mem bounds (mem_routeIntervals.mpr ⟨p, hp, rfl⟩)

theorem withoutRoute_installed (hp : p ∈ ps) :
    withoutRoute (installedRoutes ps) p = .ok (installedRoutes ps \ (rangeElements p).elements) :=
  if_pos (elements_subset_installedRoutes hp)

theorem addresses_biUnion (h4 : ∀ p ∈ ps, p.IsIPv4) (hwhole : ∀ p ∈ ps, ¬p.CutOff)
    (hdisj : ps.Pairwise fun p q => Disjoint p.addresses q.addresses) :
    addresses ((routeIntervals ps).biUnion bounds) = ⋃ q ∈ ps, q.addresses := by
  have hle : ∀ i ∈ routeIntervals ps, i.1 ≤ i.2 := by
    intro i hi
    obtain ⟨p, hp, rfl⟩ := mem_routeIntervals.mp hi
    exact (h4 p hp).interval_le
  have hspans : ∀ i ∈ routeIntervals ps, ∀ j ∈ routeIntervals ps, i ≠ j →
    Disjoint (span i) (span j) := by
    intro i hi j hj hij
    obtain ⟨p, hp, rfl⟩ := mem_routeIntervals.mp hi
    obtain ⟨q, hq, rfl⟩ := mem_routeIntervals.mp hj
    have hpq : p ≠ q := fun heq => hij (heq ▸ rfl)
    exact (h4 p hp).disjoint_span (h4 q hq) (disjoint_of_ne hdisj hp hq hpq)
  ext a
  simp only [addresses, keys_biUnion hle hspans, Set.mem_ofPred_eq, Set.mem_iUnion, exists_prop]
  constructor
  · intro ha
    obtain ⟨i, hi, hai⟩ := ha
    obtain ⟨q, hq, rfl⟩ := mem_routeIntervals.mp hi
    exact ⟨q, hq, ((h4 q hq).mem_span (hwhole q hq)).mp hai⟩
  · intro ha
    obtain ⟨q, hq, haq⟩ := ha
    exact ⟨_, mem_routeIntervals.mpr ⟨q, hq, rfl⟩, ((h4 q hq).mem_span (hwhole q hq)).mpr haq⟩

theorem installedRoutes_sdiff (h4 : ∀ p ∈ ps, p.IsIPv4) (hfit : RoutesFit ps)
    (hdisj : ps.Pairwise fun p q => Disjoint p.addresses q.addresses) (hp : p ∈ ps) :
    installedRoutes ps \ (rangeElements p).elements = (routeIntervals (ps.erase p)).biUnion bounds := by
  have hshare : ∀ q ∈ ps, q ≠ p → Disjoint (rangeElements q).elements (rangeElements p).elements := by
    intro q hq hne
    apply (h4 q hq).disjoint_elements (h4 p hp) (disjoint_of_ne hdisj hq hp hne)
    · intro hpair
      exact hfit.apart ⟨List.mem_map.mpr ⟨q, hq, hpair.1⟩, List.mem_map.mpr ⟨p, hp, hpair.2⟩⟩
    · intro hpair
      exact hfit.apart ⟨List.mem_map.mpr ⟨p, hp, hpair.1⟩, List.mem_map.mpr ⟨q, hq, hpair.2⟩⟩
  have herase : (routeIntervals ps).erase (rangeElements p).interval = routeIntervals (ps.erase p) := by
    ext i
    rw [Finset.mem_erase, mem_routeIntervals, mem_routeIntervals]
    constructor
    · intro hi
      obtain ⟨hne, q, hq, rfl⟩ := hi
      have hqp : q ≠ p := fun heq => hne (heq ▸ rfl)
      exact ⟨q, (List.mem_erase_of_ne hqp).mpr hq, rfl⟩
    · intro hi
      obtain ⟨q, hq, rfl⟩ := hi
      obtain ⟨hqp, hq⟩ := (nodup_of_disjoint hdisj).mem_erase_iff.mp hq
      refine ⟨fun heq => ?_, q, hq, rfl⟩
      -- two of one range would share its start
      have hstart : ⟨(rangeElements p).interval.1, false⟩ ∈ bounds (rangeElements q).interval :=
        start_mem_bounds.mpr (congrArg Prod.fst heq.symm)
      exact Finset.disjoint_left.mp (hshare q hq hqp) hstart (start_mem_bounds.mpr rfl)
  rw [installedRoutes_eq, ← herase]
  apply biUnion_sdiff_bounds
  intro i hi hne
  obtain ⟨q, hq, rfl⟩ := mem_routeIntervals.mp hi
  exact hshare q hq fun heq => hne (heq ▸ rfl)

theorem routesExact_of_fit (h4 : ∀ p ∈ ps, p.IsIPv4) (hfit : RoutesFit ps)
    (hdisj : ps.Pairwise fun p q => Disjoint p.addresses q.addresses) : RoutesExact ps where
  denotes := by
    intro p hp
    ext a
    rw [addresses, Set.mem_ofPred_eq, Range.elements, keys_bounds]
    exact (h4 p hp).mem_span (hfit.whole p hp)
  removed := by
    intro p hp
    refine ⟨_, withoutRoute_installed hp, ?_⟩
    rw [installedRoutes_sdiff h4 hfit hdisj hp]
    exact addresses_biUnion (fun q hq => h4 q (List.mem_of_mem_erase hq))
      (fun q hq => hfit.whole q (List.mem_of_mem_erase hq)) (hdisj.sublist List.erase_sublist)

/-- Where the last address is removed, the address before it loses the end it shares. -/
theorem not_removed_of_last (h4 : ∀ p ∈ ps, p.IsIPv4)
    (hdisj : ps.Pairwise fun p q => Disjoint p.addresses q.addresses) (hp : p ∈ ps) (hq : q ∈ ps)
    (hlast : blockFromPrefix p = Prefix.lastBlock) (hbefore : blockFromPrefix q = Prefix.beforeLast) :
    addresses (installedRoutes ps \ (rangeElements p).elements) ≠ ⋃ q ∈ ps.erase p, q.addresses := by
  intro heq
  have hvalue : (0xFFFFFFFF : BitVec 32).toNat = 2 ^ 32 - 1 := rfl
  have htop := Prefix.stop_of_lastBlock hlast
  have hint := (h4 p hp).interval
  rw [if_pos htop, hlast] at hint
  have hstart : (rangeElements q).interval.1 = 2 ^ 32 - 2 := by
    rw [(h4 q hq).interval, hbefore]
    rfl
  have hmem : (0xFFFFFFFF : BitVec 32) ∈ addresses
    (installedRoutes ps \ (rangeElements p).elements) := by
    refine ⟨2 ^ 32 - 2, ?_, by decide, ?_⟩
    · rw [Finset.mem_sdiff]
      constructor
      · exact elements_subset_installedRoutes hq (start_mem_bounds.mpr hstart.symm)
      · rw [Range.elements, start_mem_bounds, hint]
        decide
    · intro e he hle
      rw [Finset.mem_sdiff, Range.elements, end_mem_bounds, hint] at he
      have hne : e ≠ 2 ^ 32 - 1 := he.2
      rw [hvalue] at hle
      omega
  rw [heq] at hmem
  simp only [Set.mem_iUnion, exists_prop] at hmem
  obtain ⟨r, hr, hmem⟩ := hmem
  obtain ⟨hrp, hr⟩ := (nodup_of_disjoint hdisj).mem_erase_iff.mp hr
  have hmem' : (0xFFFFFFFF : BitVec 32) ∈ p.addresses := by
    rw [Prefix.mem_addresses, htop, hlast]
    decide
  exact Set.disjoint_left.mp (disjoint_of_ne hdisj hr hp hrp) hmem hmem'

/-- The sets say what the prefixes say exactly where none with more than one address reaches the end
of the address space, and the last two addresses of it are not two prefixes. -/
theorem routesExact_iff (h4 : ∀ p ∈ ps, p.IsIPv4)
    (hdisj : ps.Pairwise fun p q => Disjoint p.addresses q.addresses) : RoutesExact ps ↔
      RoutesFit ps := by
  constructor
  · intro hexact
    constructor
    · intro p hp hcut
      obtain ⟨hin, hout⟩ := hcut.last (h4 p hp)
      exact hout (hexact.denotes p hp ▸ hin)
    · intro hpair
      obtain ⟨p, hp, hlast⟩ := List.mem_map.mp hpair.1
      obtain ⟨q, hq, hbefore⟩ := List.mem_map.mp hpair.2
      obtain ⟨set, hset, heq⟩ := hexact.removed p hp
      rw [withoutRoute_installed hp] at hset
      cases hset
      exact not_removed_of_last h4 hdisj hp hq hlast hbefore heq
  · intro hfit
    exact routesExact_of_fit h4 hfit hdisj

end

/-- Two neighbours that share a boundary. -/
theorem routesExact_iff_neighbours :
    RoutesExact [⟨.v4 0x64640000, 24⟩, ⟨.v4 0x64640100, 24⟩] ↔
      RoutesFit [⟨.v4 0x64640000, 24⟩, ⟨.v4 0x64640100, 24⟩] := by
  apply routesExact_iff
  · intro p hp
    have hlen : 24 ≤ 32 := by decide
    rcases List.mem_cons.mp hp with rfl | hp
    · exact ⟨rfl, hlen⟩
    · rw [List.mem_singleton.mp hp]
      exact ⟨rfl, hlen⟩
  · rw [List.pairwise_pair, Set.disjoint_left]
    intro a ha ha'
    rw [Prefix.mem_addresses] at ha ha'
    exact absurd (ha.2.trans_le ha'.1) (Nat.lt_irrefl _)

/-- A configuration may put the pool there: its last address is in no range. -/
theorem last_address_lost :
    validatePools "10.0.0.0/24" "255.255.255.0/24" = [] ∧
      parsePrefix4 "255.255.255.0/24" = some ⟨.v4 0xFFFFFF00, 24⟩ ∧
      (0xFFFFFFFF : BitVec 32) ∈ Prefix.addresses ⟨.v4 0xFFFFFF00, 24⟩ ∧
      (0xFFFFFFFF : BitVec 32) ∉ addresses (rangeElements ⟨.v4 0xFFFFFF00, 24⟩).elements := by
  have hlen : 24 ≤ 32 := by decide
  have hlast := Prefix.CutOff.last (p := ⟨.v4 0xFFFFFF00, 24⟩) ⟨by decide, by decide⟩ ⟨rfl, hlen⟩
  exact ⟨by decide +kernel, by decide, hlast⟩

end LanWeave

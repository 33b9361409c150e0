import LanWeave.Golang.Netip
import Mathlib.Data.List.Sort

/-! The canonical form of a list of prefixes (masked, without duplicates, sorted), and what of it
meets a local network. -/

namespace LanWeave

namespace Prefix

/-- The order of `CanonicalPrefixes`: by address, then by prefix length. -/
def before (p q : Prefix) : Bool :=
  if p.addr ≠ q.addr then p.addr.less q.addr else p.bits < q.bits

end Prefix

/-- The masked prefixes, each where it occurs first. -/
def maskedOnce (ps : List Prefix) : List Prefix :=
  ps.foldl (fun out p => if p.masked ∈ out then out else out ++ [p.masked]) []

def canonicalPrefixes (ps : List Prefix) : List Prefix :=
  (maskedOnce ps).insertionSort fun p q => !q.before p

theorem mem_foldl_maskedOnce {ps out : List Prefix} {p : Prefix} :
    p ∈ ps.foldl (fun out p => if p.masked ∈ out then out else out ++ [p.masked]) out ↔
      p ∈ out ∨ ∃ q ∈ ps, q.masked = p := by
  induction ps generalizing out with
  | nil => simp
  | cons q ps ih =>
    rw [List.foldl_cons, ih]
    split_ifs with hq
    · constructor
      · rintro (h | ⟨q', hq', rfl⟩)
        · exact .inl h
        · exact .inr ⟨q', List.mem_cons_of_mem _ hq', rfl⟩
      · rintro (h | ⟨q', hq', rfl⟩)
        · exact .inl h
        · rcases List.mem_cons.mp hq' with rfl | hq'
          · exact .inl hq
          · exact .inr ⟨q', hq', rfl⟩
    · rw [List.mem_append, List.mem_singleton, or_assoc, List.exists_mem_cons_iff, eq_comm (a := p)]

theorem mem_canonicalPrefixes {ps : List Prefix} {p : Prefix} :
    p ∈ canonicalPrefixes ps ↔ ∃ q ∈ ps, q.masked = p := by
  rw [canonicalPrefixes, List.mem_insertionSort, maskedOnce, mem_foldl_maskedOnce]
  simp

theorem masked_of_mem_canonicalPrefixes {ps : List Prefix} {p : Prefix}
    (h : p ∈ canonicalPrefixes ps) : p.masked = p := by
  obtain ⟨q, -, rfl⟩ := mem_canonicalPrefixes.mp h
  exact q.masked_masked

theorem Addr.less_irrefl (a : Addr) : a.less a = false := by simp [Addr.less]

theorem Addr.less_iff {a b : Addr} :
    a.less b = true ↔ a.bitLen < b.bitLen ∨ (a.bitLen = b.bitLen ∧ a.toNat < b.toNat) := by
  simp [Addr.less]

theorem Addr.eq_of_toNat_eq {a b : Addr} (hlen : a.bitLen = b.bitLen) (hval : a.toNat = b.toNat) :
    a = b := by
  cases a with
  | v4 a =>
    cases b with
    | v4 b => exact congrArg Addr.v4 (BitVec.eq_of_toNat_eq hval)
    | v6 b => simp [Addr.bitLen] at hlen
  | v6 a =>
    cases b with
    | v4 b => simp [Addr.bitLen] at hlen
    | v6 b => exact congrArg Addr.v6 (BitVec.eq_of_toNat_eq hval)

theorem Addr.less_or_less {a b : Addr} (hne : a ≠ b) : a.less b = true ∨ b.less a = true := by
  rw [Addr.less_iff, Addr.less_iff]
  by_cases hlen : a.bitLen = b.bitLen
  · have hval : a.toNat ≠ b.toNat := fun hval => hne (Addr.eq_of_toNat_eq hlen hval)
    omega
  · omega

theorem Addr.less_trans {a b c : Addr} (hab : a.less b = true) (hbc : b.less c = true) :
    a.less c = true := by
  rw [Addr.less_iff] at hab hbc ⊢
  omega

namespace Prefix

theorem before_iff {p q : Prefix} :
    p.before q = true ↔ p.addr.less q.addr = true ∨ (p.addr = q.addr ∧ p.bits < q.bits) := by
  unfold before
  split_ifs with haddr
  · simp [haddr]
  · have heq := not_not.mp haddr
    simp [heq, Addr.less_irrefl]

theorem before_irrefl (p : Prefix) : p.before p = false := by simp [before]

theorem before_trans {p q r : Prefix} (hpq : p.before q = true) (hqr : q.before r = true) :
    p.before r = true := by
  rw [before_iff] at hpq hqr ⊢
  rcases hpq with hless | ⟨heq, hbits⟩
  · rcases hqr with hless' | ⟨heq', -⟩
    · exact .inl (Addr.less_trans hless hless')
    · exact .inl (heq' ▸ hless)
  · rcases hqr with hless' | ⟨heq', hbits'⟩
    · exact .inl (heq ▸ hless')
    · exact .inr ⟨heq.trans heq', hbits.trans hbits'⟩

theorem before_or_before {p q : Prefix} (hne : p ≠ q) : p.before q = true ∨ q.before p = true := by
  rw [before_iff, before_iff]
  by_cases haddr : p.addr = q.addr
  · have hbits : p.bits ≠ q.bits := by
      intro heq
      apply hne
      cases p
      cases q
      simp_all
    rcases Nat.lt_or_gt_of_ne hbits with hlt | hlt
    · exact .inl (.inr ⟨haddr, hlt⟩)
    · exact .inr (.inr ⟨haddr.symm, hlt⟩)
  · rcases Addr.less_or_less haddr with hless | hless
    · exact .inl (.inl hless)
    · exact .inr (.inl hless)

theorem before_asymm {p q : Prefix} (hpq : p.before q = true) : q.before p = false := by
  apply Bool.eq_false_iff.mpr
  intro hqp
  have hpp := before_trans hpq hqp
  rw [before_irrefl] at hpp
  exact Bool.false_ne_true hpp

end Prefix

/-- What `sort.Slice` may leave of a list: it keeps the elements, and of two neighbours the later is
not before the earlier. The order of elements that `less` cannot tell apart is left open. -/
structure SortSlice {α : Type*} (less : α → α → Bool) (xs out : List α) : Prop where
  perm : out.Perm xs
  sorted : out.Pairwise fun a b => less b a = false

theorem sortSlice_canonicalPrefixes (ps : List Prefix) :
    SortSlice Prefix.before (maskedOnce ps) (canonicalPrefixes ps) where
  perm := List.perm_insertionSort _ _
  sorted := by
    have : Std.Total fun p q : Prefix => (!q.before p) = true := by
      constructor
      intro p q
      by_cases hpq : p.before q = true
      · left; simp [Prefix.before_asymm hpq]
      · right; simpa using hpq
    have : IsTrans Prefix fun p q => (!q.before p) = true := by
      constructor
      intro p q r hpq hqr
      simp only [Bool.not_eq_true', Bool.eq_false_iff] at hpq hqr ⊢
      intro hrp
      by_cases heq : p = q
      · exact hqr (heq ▸ hrp)
      · have hpq' := (Prefix.before_or_before heq).resolve_right hpq
        exact hqr (Prefix.before_trans hrp hpq')
    have hsorted := List.pairwise_insertionSort (fun p q : Prefix => (!q.before p) = true)
      (maskedOnce ps)
    exact hsorted.imp fun h => by simpa using h

theorem nodup_foldl_maskedOnce {ps out : List Prefix} (hout : out.Nodup) :
    (ps.foldl (fun out p => if p.masked ∈ out then out else out ++ [p.masked]) out).Nodup := by
  induction ps generalizing out with
  | nil => exact hout
  | cons p ps ih =>
    rw [List.foldl_cons]
    split_ifs with hp
    · exact ih hout
    · apply ih
      apply List.nodup_append.mpr
      refine ⟨hout, List.nodup_singleton _, ?_⟩
      intro q hq r hr heq
      rw [List.mem_singleton] at hr
      exact hp (hr ▸ heq ▸ hq)

theorem nodup_maskedOnce (ps : List Prefix) : (maskedOnce ps).Nodup :=
  nodup_foldl_maskedOnce List.nodup_nil

namespace SortSlice

variable {ps qs out out' : List Prefix}

/-- Without duplicates nothing is left open: the order is strict. -/
theorem strict (h : SortSlice Prefix.before (maskedOnce ps) out) :
    out.Pairwise fun p q => p.before q = true := by
  have hnodup : out.Nodup := h.perm.nodup_iff.mpr (nodup_maskedOnce ps)
  apply (h.sorted.and hnodup).imp
  intro p q hpq
  exact (Prefix.before_or_before hpq.2).resolve_right (Bool.eq_false_iff.mp hpq.1)

theorem mem_iff (h : SortSlice Prefix.before (maskedOnce ps) out) (p : Prefix) :
    p ∈ out ↔ ∃ q ∈ ps, q.masked = p := by
  rw [h.perm.mem_iff, maskedOnce, mem_foldl_maskedOnce]
  simp

/-- A strictly sorted list is told by its elements. -/
theorem eq_of_same (h : SortSlice Prefix.before (maskedOnce ps) out)
    (h' : SortSlice Prefix.before (maskedOnce qs) out')
    (hsame : ∀ p, (∃ q ∈ ps, q.masked = p) ↔ ∃ q ∈ qs, q.masked = p) : out = out' := by
  have hnodup : out.Nodup := h.perm.nodup_iff.mpr (nodup_maskedOnce ps)
  have hnodup' : out'.Nodup := h'.perm.nodup_iff.mpr (nodup_maskedOnce qs)
  have hperm : out.Perm out' := by
    apply (List.perm_ext_iff_of_nodup hnodup hnodup').mpr
    intro p
    rw [h.mem_iff, h'.mem_iff, hsame]
  apply List.Perm.eq_of_pairwise _ h.strict h'.strict hperm
  intro p q _ _ hpq hqp
  exact absurd hqp (Bool.eq_false_iff.mp (Prefix.before_asymm hpq))

end SortSlice

/-- Whatever the sort makes of ties, the output is the same, and equal outputs are those of the same
masked prefixes. -/
theorem canonicalPrefixes_normal_form (ps : List Prefix) :
    (∀ qs, canonicalPrefixes ps = canonicalPrefixes qs ↔
      {p | ∃ q ∈ ps, q.masked = p} = {p | ∃ q ∈ qs, q.masked = p}) ∧
    (canonicalPrefixes ps).Pairwise (fun p q => p.before q = true) ∧
    (canonicalPrefixes ps).Nodup ∧
    canonicalPrefixes (canonicalPrefixes ps) = canonicalPrefixes ps ∧
    ∀ out, SortSlice Prefix.before (maskedOnce ps) out ↔ out = canonicalPrefixes ps := by
  have hsort := sortSlice_canonicalPrefixes ps
  have hequal : ∀ qs, canonicalPrefixes ps = canonicalPrefixes qs ↔
      {p | ∃ q ∈ ps, q.masked = p} = {p | ∃ q ∈ qs, q.masked = p} := by
    intro qs
    constructor
    · intro heq
      ext p
      rw [Set.mem_ofPred_eq, Set.mem_ofPred_eq, ← mem_canonicalPrefixes, ← mem_canonicalPrefixes, heq]
    · intro hset
      exact hsort.eq_of_same (sortSlice_canonicalPrefixes qs) fun p => by
        simpa using congrArg (p ∈ ·) hset
  refine ⟨hequal, hsort.strict, hsort.perm.nodup_iff.mpr (nodup_maskedOnce ps), ?_, ?_⟩
  · -- its own members are masked, so the second pass sorts the same set
    apply SortSlice.eq_of_same (sortSlice_canonicalPrefixes _) hsort
    intro p
    constructor
    · intro h
      obtain ⟨q, hq, rfl⟩ := h
      rw [masked_of_mem_canonicalPrefixes hq]
      exact mem_canonicalPrefixes.mp hq
    · intro h
      have hmem := mem_canonicalPrefixes.mpr h
      exact ⟨p, hmem, masked_of_mem_canonicalPrefixes hmem⟩
  · intro out
    constructor
    · intro hout
      exact hout.eq_of_same hsort fun p => Iff.rfl
    · intro hout
      exact hout ▸ hsort

example : canonicalPrefixes [⟨.v4 0x64690201, 24⟩, ⟨.v4 0x64690100, 24⟩, ⟨.v4 0x64690200, 24⟩] =
    [⟨.v4 0x64690100, 24⟩, ⟨.v4 0x64690200, 24⟩] := by decide

/-- An interface as the OS lists it, with the networks of its addresses; `none` where these cannot
be had. -/
structure Interface where
  name : String
  addrs : Option (List Prefix)

namespace Prefix

/-- `Prefix.Overlaps`, for two valid prefixes. -/
def overlaps (p q : Prefix) : Bool :=
  if p.addr.is4 ≠ q.addr.is4 then false
  else
    let bits := min p.bits q.bits
    (⟨p.addr, bits⟩ : Prefix).masked = (⟨q.addr, bits⟩ : Prefix).masked

end Prefix

/-- The name of the first interface with a network that meets the prefix. -/
def localOverlap (p : Prefix) (excludeIface : String) (ifaces : Option (List Interface)) :
    Option String :=
  ((ifaces.getD []).find? fun ifc => ifc.name != excludeIface &&
    (ifc.addrs.getD []).any fun n => n.addr.is4 && n.masked.overlaps p).map (·.name)

end LanWeave

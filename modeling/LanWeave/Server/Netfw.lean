import LanWeave.Server.Ipam
import Mathlib.Data.Finset.Basic

/-! The isolation table and the operations of netfw on it. Sets and rules are named by their
zone: `zone_%d` and `zone_%d_routes` are injective. -/

namespace LanWeave

/-- A rule of the forward chain, whose policy is drop. -/
inductive Rule
  | ctEstablishedAccept
  | sameZoneAccept (zoneID : Int)
  | zoneRouteAccept (zoneID : Int)
deriving DecidableEq

/-- A range of an interval set: inclusive start, exclusive end. -/
abbrev Range := BitVec 32 × BitVec 32

structure Nft where
  rules : List Rule
  members : Int → Option (Finset (BitVec 32))
  routes : Int → Option (Finset Range)

inductive KernelErr
  /-- The set, element or key named does not exist. -/
  | missing
  | badKey
  /-- The kernel refused for a reason of its own. -/
  | failed
deriving DecidableEq

structure ZoneState where
  id : Int
  memberIPs : List Addr
  routeCIDRs : List Prefix

def rangeElements (p : Prefix) : Range :=
  let b := blockFromPrefix p
  let endExclusive := b.base.setWidth 64 + b.size
  (b.base, if 0xFFFFFFFF < endExclusive then 0xFFFFFFFF else endExclusive.setWidth 32)

theorem toNat_rangeElements_end (p : Prefix) :
    (rangeElements p).2.toNat =
      if 2 ^ 32 ≤ (blockFromPrefix p).base.toNat + 2 ^ (32 - p.bits) then 2 ^ 32 - 1
      else (blockFromPrefix p).base.toNat + 2 ^ (32 - p.bits) := by
  have hstop := (blockFromPrefix p).toNat_stop
  rw [blockFromPrefix_prefixLen] at hstop
  have hcmp : (0xFFFFFFFF < (blockFromPrefix p).base.setWidth 64 + (blockFromPrefix p).size) ↔
      2 ^ 32 ≤ (blockFromPrefix p).base.toNat + 2 ^ (32 - p.bits) := by
    rw [BitVec.lt_def, hstop]
    exact Nat.lt_iff_add_one_le
  simp only [rangeElements, hcmp]
  split_ifs with hover
  · rfl
  · rw [BitVec.toNat_setWidth, hstop, Nat.mod_eq_of_lt (by omega)]

def Rule.referencesZone (zoneID : Int) : Rule → Bool
  | .ctEstablishedAccept => false
  | .sameZoneAccept z => z = zoneID
  | .zoneRouteAccept z => z = zoneID

namespace Nft

/-- The table and the forward chain with the conntrack rule, before any zone. -/
def skeleton : Nft := ⟨[.ctEstablishedAccept], fun _ => none, fun _ => none⟩

/-- A zone's two sets and two rules; a set that exists keeps its elements. -/
def addZoneState (t : Nft) (z : ZoneState) : Nft where
  rules := t.rules ++ [.sameZoneAccept z.id, .zoneRouteAccept z.id]
  members := Function.update t.members z.id
    (some ((t.members z.id).getD ∅ ∪ (z.memberIPs.map addrToUint32).toFinset))
  routes := Function.update t.routes z.id
    (some ((t.routes z.id).getD ∅ ∪ (z.routeCIDRs.map rangeElements).toFinset))

/-- The second flush of `Rebuild`; the first has deleted the table. -/
def build (zones : List ZoneState) : Nft := zones.foldl addZoneState skeleton

def addZone (t : Nft) (zoneID : Int) : Nft := t.addZoneState ⟨zoneID, [], []⟩

def addMember (t : Nft) (zoneID : Int) (ip : Addr) : Except KernelErr Nft :=
  match t.members zoneID with
  | none => .error .missing
  | some set => .ok { t with
      members := Function.update t.members zoneID (some (insert (addrToUint32 ip) set)) }

def removeMember (t : Nft) (zoneID : Int) (ip : Addr) : Except KernelErr Nft :=
  match t.members zoneID with
  | none => .error .missing
  | some set =>
    if addrToUint32 ip ∈ set then
      .ok { t with members := Function.update t.members zoneID (some (set.erase (addrToUint32 ip))) }
    else .error .missing

def addZoneRoute (t : Nft) (zoneID : Int) (p : Prefix) : Except KernelErr Nft :=
  match t.routes zoneID with
  | none => .error .missing
  | some set => .ok { t with
      routes := Function.update t.routes zoneID (some (insert (rangeElements p) set)) }

def removeZoneRoute (t : Nft) (zoneID : Int) (p : Prefix) : Except KernelErr Nft :=
  match t.routes zoneID with
  | none => .error .missing
  | some set =>
    if rangeElements p ∈ set then
      .ok { t with routes := Function.update t.routes zoneID (some (set.erase (rangeElements p))) }
    else .error .missing

/-- Rules before sets; what does not exist is skipped. -/
def deleteZone (t : Nft) (zoneID : Int) : Nft where
  rules := t.rules.filter fun r => !r.referencesZone zoneID
  members := Function.update t.members zoneID none
  routes := Function.update t.routes zoneID none

end Nft

/-- The operations of netfw the handlers call, one atomic step each. -/
inductive NetfwOp
  | addZone (zoneID : Int)
  | addMember (zoneID : Int) (ip : Addr)
  | removeMember (zoneID : Int) (ip : Addr)
  | addZoneRoute (zoneID : Int) (p : Prefix)
  | removeZoneRoute (zoneID : Int) (p : Prefix)
  | deleteZone (zoneID : Int)

def NetfwOp.exec : NetfwOp → Nft → Except KernelErr Nft
  | addZone zoneID, t => .ok (t.addZone zoneID)
  | addMember zoneID ip, t => t.addMember zoneID ip
  | removeMember zoneID ip, t => t.removeMember zoneID ip
  | addZoneRoute zoneID p, t => t.addZoneRoute zoneID p
  | removeZoneRoute zoneID p, t => t.removeZoneRoute zoneID p
  | deleteZone zoneID, t => .ok (t.deleteZone zoneID)

/-- The table after the operation; one that fails changes nothing. -/
def NetfwOp.effect (o : NetfwOp) (t : Nft) : Nft :=
  match o.exec t with
  | .ok t' => t'
  | .error _ => t

namespace Nft

def HasMember (t : Nft) (zoneID : Int) (ip : BitVec 32) : Prop :=
  ∃ set, t.members zoneID = some set ∧ ip ∈ set

def HasRoute (t : Nft) (zoneID : Int) (r : Range) : Prop :=
  ∃ set, t.routes zoneID = some set ∧ r ∈ set

end Nft

section
variable {α : Type} [DecidableEq α] {sets : Int → Option (Finset α)} {zoneID z : Int} {set : Finset α}
  {a b : α}

omit [DecidableEq α] in
theorem exists_mem_update (new : Option (Finset α)) :
    (∃ s, Function.update sets zoneID new z = some s ∧ b ∈ s) ↔
      if z = zoneID then ∃ s, new = some s ∧ b ∈ s else ∃ s, sets z = some s ∧ b ∈ s := by
  by_cases hz : z = zoneID
  · subst hz
    simp
  · simp [hz]

theorem exists_mem_insert (hs : sets zoneID = some set) :
    (∃ s, Function.update sets zoneID (some (insert a set)) z = some s ∧ b ∈ s) ↔
      (∃ s, sets z = some s ∧ b ∈ s) ∨ z = zoneID ∧ b = a := by
  rw [exists_mem_update]
  split_ifs with hz
  · subst hz
    simp [hs, or_comm]
  · simp [hz]

theorem exists_mem_erase (hs : sets zoneID = some set) :
    (∃ s, Function.update sets zoneID (some (set.erase a)) z = some s ∧ b ∈ s) ↔
      (∃ s, sets z = some s ∧ b ∈ s) ∧ ¬ (z = zoneID ∧ b = a) := by
  rw [exists_mem_update]
  split_ifs with hz
  · subst hz
    simp [hs, and_comm]
  · simp [hz]

omit [DecidableEq α] in
theorem isSome_update_some (hs : sets zoneID = some set) (new : Finset α) :
    (Function.update sets zoneID (some new) z).isSome = (sets z).isSome := by
  by_cases hz : z = zoneID
  · subst hz
    simp [hs]
  · simp [hz]

end

namespace NetfwOp
variable (t : Nft) (zoneID : Int) (ip : Addr) (p : Prefix) (z : Int) (b : BitVec 32) (r : Range)

theorem addMember_spec :
    (((addMember zoneID ip).effect t).HasMember z b ↔
      t.HasMember z b ∨ z = zoneID ∧ b = addrToUint32 ip ∧ (t.members zoneID).isSome) ∧
    (((addMember zoneID ip).effect t).members z).isSome = (t.members z).isSome ∧
    ((addMember zoneID ip).effect t).routes = t.routes ∧
    ((addMember zoneID ip).effect t).rules = t.rules := by
  unfold effect exec Nft.addMember Nft.HasMember
  cases hs : t.members zoneID with
  | none => simp [hs]
  | some set => simp [hs, exists_mem_insert hs, isSome_update_some hs]

theorem removeMember_spec :
    (((removeMember zoneID ip).effect t).HasMember z b ↔
      t.HasMember z b ∧ ¬ (z = zoneID ∧ b = addrToUint32 ip)) ∧
    (((removeMember zoneID ip).effect t).members z).isSome = (t.members z).isSome ∧
    ((removeMember zoneID ip).effect t).routes = t.routes ∧
    ((removeMember zoneID ip).effect t).rules = t.rules := by
  unfold effect exec Nft.removeMember Nft.HasMember
  cases hs : t.members zoneID with
  | none =>
    simp only [hs, and_true]
    refine ⟨fun h => ⟨h, ?_⟩, And.left⟩
    rintro ⟨rfl, rfl⟩
    simp [hs] at h
  | some set =>
    by_cases hmem : addrToUint32 ip ∈ set
    · simp only [hs, hmem, if_true, exists_mem_erase hs, isSome_update_some hs, and_self]
    · simp only [hs, hmem, if_false, and_true]
      refine ⟨fun h => ⟨h, ?_⟩, And.left⟩
      rintro ⟨rfl, rfl⟩
      obtain ⟨s, hs', hb⟩ := h
      rw [hs] at hs'
      exact hmem (Option.some.inj hs' ▸ hb)

theorem addZoneRoute_spec :
    (((addZoneRoute zoneID p).effect t).HasRoute z r ↔
      t.HasRoute z r ∨ z = zoneID ∧ r = rangeElements p ∧ (t.routes zoneID).isSome) ∧
    (((addZoneRoute zoneID p).effect t).routes z).isSome = (t.routes z).isSome ∧
    ((addZoneRoute zoneID p).effect t).members = t.members ∧
    ((addZoneRoute zoneID p).effect t).rules = t.rules := by
  unfold effect exec Nft.addZoneRoute Nft.HasRoute
  cases hs : t.routes zoneID with
  | none => simp [hs]
  | some set => simp [hs, exists_mem_insert hs, isSome_update_some hs]

theorem removeZoneRoute_spec :
    (((removeZoneRoute zoneID p).effect t).HasRoute z r ↔
      t.HasRoute z r ∧ ¬ (z = zoneID ∧ r = rangeElements p)) ∧
    (((removeZoneRoute zoneID p).effect t).routes z).isSome = (t.routes z).isSome ∧
    ((removeZoneRoute zoneID p).effect t).members = t.members ∧
    ((removeZoneRoute zoneID p).effect t).rules = t.rules := by
  unfold effect exec Nft.removeZoneRoute Nft.HasRoute
  cases hs : t.routes zoneID with
  | none =>
    simp only [hs, and_true]
    refine ⟨fun h => ⟨h, ?_⟩, And.left⟩
    rintro ⟨rfl, rfl⟩
    simp [hs] at h
  | some set =>
    by_cases hmem : rangeElements p ∈ set
    · simp only [hs, hmem, if_true, exists_mem_erase hs, isSome_update_some hs, and_self]
    · simp only [hs, hmem, if_false, and_true]
      refine ⟨fun h => ⟨h, ?_⟩, And.left⟩
      rintro ⟨rfl, rfl⟩
      obtain ⟨s, hs', hb⟩ := h
      rw [hs] at hs'
      exact hmem (Option.some.inj hs' ▸ hb)

theorem addZone_spec :
    (((addZone zoneID).effect t).HasMember z b ↔ t.HasMember z b) ∧
    (((addZone zoneID).effect t).HasRoute z r ↔ t.HasRoute z r) ∧
    (((addZone zoneID).effect t).members z).isSome = (decide (z = zoneID) || (t.members z).isSome) ∧
    (((addZone zoneID).effect t).routes z).isSome = (decide (z = zoneID) || (t.routes z).isSome) ∧
    ((addZone zoneID).effect t).rules =
      t.rules ++ [.sameZoneAccept zoneID, .zoneRouteAccept zoneID] := by
  unfold effect exec Nft.addZone Nft.addZoneState Nft.HasMember Nft.HasRoute
  by_cases hz : z = zoneID
  · subst hz
    refine ⟨?_, ?_, by simp, by simp, rfl⟩
    · cases hs : t.members z <;> simp [hs]
    · cases hs : t.routes z <;> simp [hs]
  · simp [hz]

theorem deleteZone_spec :
    (((deleteZone zoneID).effect t).HasMember z b ↔ t.HasMember z b ∧ z ≠ zoneID) ∧
    (((deleteZone zoneID).effect t).HasRoute z r ↔ t.HasRoute z r ∧ z ≠ zoneID) ∧
    (((deleteZone zoneID).effect t).members z).isSome = (!decide (z = zoneID) && (t.members z).isSome) ∧
    (((deleteZone zoneID).effect t).routes z).isSome = (!decide (z = zoneID) && (t.routes z).isSome) ∧
    ((deleteZone zoneID).effect t).rules = t.rules.filter (!·.referencesZone zoneID) := by
  unfold effect exec Nft.deleteZone Nft.HasMember Nft.HasRoute
  by_cases hz : z = zoneID
  · subst hz
    simp
  · simp [hz]

end NetfwOp
end LanWeave

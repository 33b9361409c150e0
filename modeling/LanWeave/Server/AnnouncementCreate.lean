import LanWeave.Server.BlockAllocation
import LanWeave.Server.SyntheticPool
import LanWeave.Server.Rebuild

/-! What `AnnouncementRepo.Create` answers and commits, told of the tables before it. -/

namespace LanWeave
open Library DB

namespace DB

def Unknown (db : DB) (nodeID : Int) (real : Block) : Prop :=
  ∀ a ∈ db.announcements, a.nodeID = nodeID → a.real ≠ real

def OwnSubnetMeets (db : DB) (nodeID : Int) (real : Block) : Prop :=
  ∃ a ∈ db.announcements, a.nodeID = nodeID ∧ ¬Disjoint real.addrs a.real.addrs

def AtLimit (db : DB) (userID limit : Int) : Prop :=
  0 < limit ∧ limit ≤ (db.announcementsOfUser userID).length

/-- All the checks that come before the allocation pass. -/
structure Admits (db : DB) (userID nodeID : Int) (real : Block) (zoneID limit : Int) : Prop where
  member : ⟨zoneID, nodeID⟩ ∈ db.zoneMembers
  unknown : db.Unknown nodeID real
  apart : ¬db.OwnSubnetMeets nodeID real
  quota : ¬db.AtLimit userID limit

/-- The block is the lowest one of its length that is free in the pool. -/
def LowestFree (db : DB) (pool : Prefix) (prefixLen : Nat) (b : Block) : Prop :=
  b.Free pool prefixLen (db.announcements.map (·.synthetic)) ∧
    ∀ b' : Block, b'.Free pool prefixLen (db.announcements.map (·.synthetic)) → b.base ≤ b'.base

end DB

section
variable {db : DB} {userID nodeID zoneID limit : Int} {real : Block} {pool : Prefix}

theorem create_notMember (h : ⟨zoneID, nodeID⟩ ∉ db.zoneMembers) :
    db.createAnnouncement userID nodeID real zoneID limit pool = (.error .notMember, db) := if_pos h

/-- The reuse path asks neither the cap nor the pool. -/
theorem create_known (hw : db.Wf) (h : ⟨zoneID, nodeID⟩ ∈ db.zoneMembers) {a : Announcement}
    (ha : a ∈ db.announcements) (hnode : a.nodeID = nodeID) (hreal : a.real = real) :
    db.createAnnouncement userID nodeID real zoneID limit pool =
      if (⟨a.id, zoneID⟩ : AnnouncementZone) ∈ db.announcementZones then (.ok (a, false), db)
      else (.ok (a, true), db.attach ⟨a.id, zoneID⟩) := by
  have hfind : db.announcements.find? (fun x => decide (x.nodeID = nodeID ∧ x.real = real)) =
    some a := by
    have hkey := hw.announcement_real.find?_eq_some_iff.mpr ⟨ha, congrArg₂ Prod.mk hnode hreal⟩
    simpa only [Prod.mk.injEq] using hkey
  have hann : db.hasAnnouncement a.id = true := hasAnnouncement_iff.mpr ⟨a, ha, rfl⟩
  have hzone : db.hasZone zoneID = true := hasZone_iff.mpr (hw.member_zone _ h)
  unfold DB.createAnnouncement
  rw [if_neg (not_not.mpr h), hfind]
  dsimp only
  split_ifs with haz
  · rfl
  · rw [insertAnnouncementZone, hann, hzone]
    rfl

theorem create_unknown (h : ⟨zoneID, nodeID⟩ ∈ db.zoneMembers) (hu : db.Unknown nodeID real) :
    db.createAnnouncement userID nodeID real zoneID limit pool =
      db.announceNew userID nodeID real zoneID limit pool := by
  have hfind : db.announcements.find? (fun x => decide (x.nodeID = nodeID ∧ x.real = real)) = none := by
    rw [List.find?_eq_none]
    intro a ha
    simpa using hu a ha
  unfold DB.createAnnouncement
  rw [if_neg (not_not.mpr h), hfind]

theorem ownSubnetMeets_iff : (db.announcements.filter (·.nodeID = nodeID)).any
    (fun a => overlaps real a.real) = true ↔ db.OwnSubnetMeets nodeID real := by
  simp only [OwnSubnetMeets, List.any_eq_true, List.mem_filter, decide_eq_true_eq, and_assoc,
    ← overlaps_eq_false_iff, Bool.not_eq_false]

theorem announceNew_overlap (h : db.OwnSubnetMeets nodeID real) :
    db.announceNew userID nodeID real zoneID limit pool = (.error .subnetOverlap, db) :=
  if_pos (ownSubnetMeets_iff.mpr h)

theorem announceNew_limit (h : ¬db.OwnSubnetMeets nodeID real) (hq : db.AtLimit userID limit) :
    db.announceNew userID nodeID real zoneID limit pool = (.error .announceLimit, db) := by
  unfold announceNew
  rw [if_neg (ownSubnetMeets_iff.not.mpr h)]
  exact if_pos hq

section
variable (h : db.Admits userID nodeID real zoneID limit)
include h

theorem announceNew_noSpace
    (hfull : allocateBlock pool real.prefixLen (db.announcements.map (·.synthetic)) = .error .noSpace) :
    db.announceNew userID nodeID real zoneID limit pool = (.error .syntheticPoolExhausted, db) := by
  have hquota : ¬(0 < limit ∧ limit ≤ (db.announcementsOfUser userID).length) := h.quota
  unfold announceNew
  rw [if_neg (ownSubnetMeets_iff.not.mpr h.apart), if_neg hquota, hfull]

theorem announceNew_doesNotFit {e : AllocErr} (he : e ≠ .noSpace)
    (hfit : allocateBlock pool real.prefixLen (db.announcements.map (·.synthetic)) = .error e) :
    db.announceNew userID nodeID real zoneID limit pool = (.error .driver, db) := by
  have hquota : ¬(0 < limit ∧ limit ≤ (db.announcementsOfUser userID).length) := h.quota
  unfold announceNew
  rw [if_neg (ownSubnetMeets_iff.not.mpr h.apart), if_neg hquota, hfit]
  cases e
  case noSpace => exact absurd rfl he
  all_goals rfl

theorem announceNew_ok (hw : db.Wf) {b : Block}
    (hb : allocateBlock pool real.prefixLen (db.announcements.map (·.synthetic)) = .ok b)
    (hfree : b.Free pool real.prefixLen (db.announcements.map (·.synthetic))) :
    db.announceNew userID nodeID real zoneID limit pool =
      (.ok (⟨db.seqAnnouncements + 1, nodeID, real.base, real.prefixLen, b.base⟩, true),
        db.announce nodeID real zoneID b.base) := by
  have hself : (⟨b.base, real.prefixLen⟩ : Block) = b := by rw [← hfree.prefixLen]
  have hreal : (db.announcements.any fun a => a.nodeID = nodeID ∧ a.real = real) = false := by
    simpa [Unknown] using h.unknown
  have hsynth : (db.announcements.any fun a => a.synthetic = ⟨b.base, real.prefixLen⟩) = false := by
    rw [hself, List.any_eq_false]
    intro a ha
    rw [decide_eq_true_eq]
    intro heq
    have hapart := hfree.apart a.synthetic (List.mem_map_of_mem ha)
    rw [heq, ← overlaps_eq_false_iff, overlaps_self] at hapart
    exact Bool.noConfusion hapart
  have hnode : db.hasNode nodeID = true := hasNode_iff.mpr (hw.member_node _ h.member)
  have hzone : db.hasZone zoneID = true := hasZone_iff.mpr (hw.member_zone _ h.member)
  have hins : db.insertAnnouncement nodeID real b.base =
    .ok (db.addAnnouncement nodeID real b.base) := by
    simp only [insertAnnouncement, hreal, hsynth, hnode]
    rfl
  have hattach : (db.addAnnouncement nodeID real b.base).insertAnnouncementZone
      (db.addAnnouncement nodeID real b.base).seqAnnouncements zoneID =
      .ok (db.announce nodeID real zoneID b.base) := by
    have hann : (db.addAnnouncement nodeID real b.base).hasAnnouncement
      (db.seqAnnouncements + 1) = true := by
      simp [hasAnnouncement, addAnnouncement]
    rw [insertAnnouncementZone]
    exact if_pos (Bool.and_eq_true_iff.mpr ⟨hann, hzone⟩)
  have hquota : ¬(0 < limit ∧ limit ≤ (db.announcementsOfUser userID).length) := h.quota
  unfold announceNew
  rw [if_neg (ownSubnetMeets_iff.not.mpr h.apart), if_neg hquota, hb]
  dsimp only
  rw [hins]
  dsimp only
  rw [hattach]
  rfl

end

/-- What `Create` answers (`r.1`) and leaves behind (`r.2`). -/
structure CreateOutcome (db : DB) (userID nodeID : Int) (real : Block) (zoneID limit : Int)
    (pool : Prefix) (r : Except StoreErr (Announcement × Bool) × DB) : Prop where
  unchanged : ∀ e, r.1 = .error e → r.2 = db
  notMember : r.1 = .error .notMember ↔ ⟨zoneID, nodeID⟩ ∉ db.zoneMembers
  subnetOverlap : r.1 = .error .subnetOverlap ↔
    ⟨zoneID, nodeID⟩ ∈ db.zoneMembers ∧ db.Unknown nodeID real ∧ db.OwnSubnetMeets nodeID real
  announceLimit : r.1 = .error .announceLimit ↔
    ⟨zoneID, nodeID⟩ ∈ db.zoneMembers ∧ db.Unknown nodeID real ∧ ¬db.OwnSubnetMeets nodeID real ∧
      db.AtLimit userID limit
  exhausted : r.1 = .error .syntheticPoolExhausted ↔
    db.Admits userID nodeID real zoneID limit ∧ pool.addr.is4 = true ∧ pool.bits ≤ real.prefixLen ∧
      ∀ b : Block, ¬b.Free pool real.prefixLen (db.announcements.map (·.synthetic))
  other : (∃ e, r.1 = .error e ∧ e ≠ .notMember ∧ e ≠ .subnetOverlap ∧ e ≠ .announceLimit ∧
      e ≠ .syntheticPoolExhausted) ↔
    db.Admits userID nodeID real zoneID limit ∧ (pool.addr.is4 = false ∨ real.prefixLen < pool.bits)
  reuse : ∀ a ∈ db.announcements, a.nodeID = nodeID → a.real = real →
    ⟨zoneID, nodeID⟩ ∈ db.zoneMembers →
    r = if (⟨a.id, zoneID⟩ : AnnouncementZone) ∈ db.announcementZones then (.ok (a, false), db)
      else (.ok (a, true), db.attach ⟨a.id, zoneID⟩)
  created : db.Admits userID nodeID real zoneID limit → pool.addr.is4 = true →
    ∀ b, db.LowestFree pool real.prefixLen b →
    r = (.ok (⟨db.seqAnnouncements + 1, nodeID, real.base, real.prefixLen, b.base⟩, true),
      db.announce nodeID real zoneID b.base)
  success : ∀ a attached, r.1 = .ok (a, attached) →
    (⟨zoneID, nodeID⟩ ∈ db.zoneMembers ∧ a ∈ db.announcements ∧ a.nodeID = nodeID ∧ a.real = real) ∨
      (db.Admits userID nodeID real zoneID limit ∧ db.LowestFree pool real.prefixLen a.synthetic)

section
variable {r : Except StoreErr (Announcement × Bool) × DB}

theorem outcome_notMember (h : ⟨zoneID, nodeID⟩ ∉ db.zoneMembers) (hr : r = (.error .notMember, db)) :
    CreateOutcome db userID nodeID real zoneID limit pool r := by
  have hadmits : ¬db.Admits userID nodeID real zoneID limit := fun ha => h ha.member
  subst hr
  constructor <;> simp [h, hadmits]

theorem outcome_reuse (hw : db.Wf) (h : ⟨zoneID, nodeID⟩ ∈ db.zoneMembers) {a : Announcement}
    (ha : a ∈ db.announcements) (hnode : a.nodeID = nodeID) (hreal : a.real = real)
    (hr : r = if (⟨a.id, zoneID⟩ : AnnouncementZone) ∈ db.announcementZones then (.ok (a, false), db)
      else (.ok (a, true), db.attach ⟨a.id, zoneID⟩)) :
    CreateOutcome db userID nodeID real zoneID limit pool r := by
  have hknown : ¬db.Unknown nodeID real := fun hu => hu a ha hnode hreal
  have hadmits : ¬db.Admits userID nodeID real zoneID limit := fun had => hknown had.unknown
  have hone : ∀ a' ∈ db.announcements, a'.nodeID = nodeID → a'.real = real → a' = a := by
    intro a' ha' hnode' hreal'
    apply hw.announcement_real a' ha' a ha
    show (a'.nodeID, a'.real) = (a.nodeID, a.real)
    rw [hnode, hreal, hnode', hreal']
  have hsame : ∀ a' ∈ db.announcements, a'.nodeID = nodeID → a'.real = real →
      ⟨zoneID, nodeID⟩ ∈ db.zoneMembers →
      r = if (⟨a'.id, zoneID⟩ : AnnouncementZone) ∈ db.announcementZones then (.ok (a', false), db)
        else (.ok (a', true), db.attach ⟨a'.id, zoneID⟩) := by
    intro a' ha' hnode' hreal' _
    rw [hone a' ha' hnode' hreal', hr]
  have hok : ∃ attached, r.1 = .ok (a, attached) := by
    rw [hr]
    split_ifs
    · exact ⟨false, rfl⟩
    · exact ⟨true, rfl⟩
  obtain ⟨attached, hok⟩ := hok
  refine ⟨?_, ?_, ?_, ?_, ?_, ?_, hsame, fun had => absurd had hadmits, ?_⟩
  all_goals simp [hok, h, hadmits, hknown, ha, hnode, hreal]

variable (h : ⟨zoneID, nodeID⟩ ∈ db.zoneMembers) (hu : db.Unknown nodeID real)
include h hu

omit h in
theorem unknown_absurd {P : Prop} {a : Announcement} (ha : a ∈ db.announcements)
    (hnode : a.nodeID = nodeID) (hreal : a.real = real) : P := absurd hreal (hu a ha hnode)

theorem outcome_overlap (hover : db.OwnSubnetMeets nodeID real) (hr : r = (.error .subnetOverlap, db)) :
    CreateOutcome db userID nodeID real zoneID limit pool r := by
  have hadmits : ¬db.Admits userID nodeID real zoneID limit := fun ha => ha.apart hover
  subst hr
  refine ⟨?_, ?_, ?_, ?_, ?_, ?_, fun a ha hn hr _ => unknown_absurd hu ha hn hr, ?_, ?_⟩
  all_goals simp [h, hu, hover, hadmits]

theorem outcome_limit (hover : ¬db.OwnSubnetMeets nodeID real) (hq : db.AtLimit userID limit)
    (hr : r = (.error .announceLimit, db)) :
    CreateOutcome db userID nodeID real zoneID limit pool r := by
  have hadmits : ¬db.Admits userID nodeID real zoneID limit := fun ha => ha.quota hq
  subst hr
  refine ⟨?_, ?_, ?_, ?_, ?_, ?_, fun a ha hn hr _ => unknown_absurd hu ha hn hr, ?_, ?_⟩
  all_goals simp [h, hu, hover, hq, hadmits]

end

section
variable {r : Except StoreErr (Announcement × Bool) × DB}
  (had : db.Admits userID nodeID real zoneID limit)
include had

theorem outcome_exhausted (h4 : pool.addr.is4 = true) (hfit : pool.bits ≤ real.prefixLen)
    (hfull : ∀ b : Block, ¬b.Free pool real.prefixLen (db.announcements.map (·.synthetic)))
    (hr : r = (.error .syntheticPoolExhausted, db)) :
    CreateOutcome db userID nodeID real zoneID limit pool r := by
  have hlowest : ∀ b : Block, ¬db.LowestFree pool real.prefixLen b := fun b hb => hfull b hb.1
  subst hr
  refine ⟨?_, ?_, ?_, ?_, ?_, ?_, fun a ha hn hr _ => unknown_absurd had.unknown ha hn hr, ?_, ?_⟩
  all_goals simp [had, had.member, had.apart, had.quota, h4, hfit, hfull, hlowest]

theorem outcome_doesNotFit (hv : pool.Valid) (hfit : pool.addr.is4 = false ∨ real.prefixLen < pool.bits)
    (hr : r = (.error .driver, db)) : CreateOutcome db userID nodeID real zoneID limit pool r := by
  have hroom : pool.addr.is4 = true → ¬pool.bits ≤ real.prefixLen := by
    intro h4 hle
    rcases hfit with hipv6 | hlt
    · exact Bool.false_ne_true (hipv6.symm.trans h4)
    · omega
  have hlowest : pool.addr.is4 = true → ∀ b : Block, ¬db.LowestFree pool real.prefixLen b := by
    intro h4 b hb
    exact not_free_of_lt h4 hv (Nat.lt_of_not_le (hroom h4)) hb.1
  subst hr
  refine ⟨?_, ?_, ?_, ?_, ?_, ?_, fun a ha hn hr _ => unknown_absurd had.unknown ha hn hr,
    fun _ h4 b hb => absurd hb (hlowest h4 b), ?_⟩
  case refine_5 => simpa using fun _ h4 hle => absurd hle (hroom h4)
  all_goals simp [had, had.member, had.apart, had.quota, hfit]

theorem outcome_created {b : Block} (hb : db.LowestFree pool real.prefixLen b)
    (hr : r = (.ok (⟨db.seqAnnouncements + 1, nodeID, real.base, real.prefixLen, b.base⟩, true),
      db.announce nodeID real zoneID b.base))
    (hfit : ¬(pool.addr.is4 = false ∨ real.prefixLen < pool.bits)) :
    CreateOutcome db userID nodeID real zoneID limit pool r := by
  have hone : ∀ b' : Block, db.LowestFree pool real.prefixLen b' → b' = b := by
    intro b' hb'
    have hbase : b'.base = b.base := BitVec.le_antisymm (hb'.2 b hb.1) (hb.2 b' hb'.1)
    obtain ⟨base, len⟩ := b
    obtain ⟨base', len'⟩ := b'
    exact congrArg₂ Block.mk hbase (hb'.1.prefixLen.trans hb.1.prefixLen.symm)
  have hself : (⟨b.base, real.prefixLen⟩ : Block) = b := by rw [← hb.1.prefixLen]
  refine ⟨?_, ?_, ?_, ?_, ?_, ?_, fun a ha hn hr _ => unknown_absurd had.unknown ha hn hr, ?_, ?_⟩
  case refine_7 =>
    intro _ _ b' hb'
    rw [hone b' hb', hr]
  case refine_8 =>
    intro a attached ha
    rw [hr] at ha
    obtain ⟨rfl, -⟩ := Prod.mk.inj (Except.ok.inj ha)
    exact .inr ⟨had, hself ▸ hb⟩
  all_goals subst hr
  case refine_5 => simpa using fun _ _ _ => ⟨b, hb.1⟩
  all_goals simp [had, had.member, had.apart, had.quota, hfit]

end

/-- Whatever the tables, `Create` fails and changes nothing, finds the subnet attached, attaches a
subnet it knows (whatever the cap and the pool), or adds one announcement at the lowest free block
with one attachment; the errors are told by the first check that fails. -/
theorem createAnnouncement_outcome (hw : db.Wf) (hv : pool.Valid) (hlen : real.prefixLen ≤ 32)
    (userID nodeID zoneID limit : Int) :
    CreateOutcome db userID nodeID real zoneID limit pool
      (db.createAnnouncement userID nodeID real zoneID limit pool) := by
  by_cases hmem : (⟨zoneID, nodeID⟩ : ZoneMember) ∈ db.zoneMembers
  swap
  · exact outcome_notMember hmem (create_notMember hmem)
  by_cases hu : db.Unknown nodeID real
  swap
  · obtain ⟨a, ha, hnode, hreal⟩ : ∃ a ∈ db.announcements, a.nodeID = nodeID ∧ a.real = real := by
      simpa [Unknown] using hu
    exact outcome_reuse hw hmem ha hnode hreal (create_known hw hmem ha hnode hreal)
  -- from here on the subnet is a new one, checked in the order of the code
  have hnew := @create_unknown db userID nodeID zoneID limit real pool hmem hu
  by_cases hover : db.OwnSubnetMeets nodeID real
  · exact outcome_overlap hmem hu hover (hnew.trans (announceNew_overlap hover))
  by_cases hq : db.AtLimit userID limit
  · exact outcome_limit hmem hu hover hq (hnew.trans (announceNew_limit hover hq))
  have had : db.Admits userID nodeID real zoneID limit := ⟨hmem, hu, hover, hq⟩
  cases h4 : pool.addr.is4 with
  | false =>
    have hipv6 : allocateBlock pool real.prefixLen (db.announcements.map (·.synthetic)) =
      .error .notIPv4 :=
      if_pos (by rw [h4]; rfl)
    exact outcome_doesNotFit had hv (.inl h4)
      (hnew.trans (announceNew_doesNotFit (e := .notIPv4) had nofun hipv6))
  | true =>
    by_cases hfit : real.prefixLen < pool.bits
    · obtain ⟨e, he, hne⟩ := (allocateBlock_doesNotFit_iff h4).mpr (.inl hfit)
      exact outcome_doesNotFit had hv (.inr hfit) (hnew.trans (announceNew_doesNotFit had hne he))
    · have hle : pool.bits ≤ real.prefixLen := Nat.le_of_not_lt hfit
      cases halloc : allocateBlock pool real.prefixLen (db.announcements.map (·.synthetic)) with
      | ok b =>
        have hb := (allocateBlock_ok_iff h4 hv hle hlen).mp halloc
        exact outcome_created had hb (hnew.trans (announceNew_ok had hw halloc hb.1)) (by simp [h4, hle])
      | error e =>
        obtain rfl : e = .noSpace := by
          by_contra hne
          rcases (allocateBlock_doesNotFit_iff h4).mp ⟨e, halloc, hne⟩ with hlt | hlt <;> omega
        exact outcome_exhausted had h4 hle ((allocateBlock_noSpace_iff h4 hv hle hlen).mp halloc)
          (hnew.trans (announceNew_noSpace had halloc))

/-- The subnet is attached already, the cap is used up, and the pool of one block is full. -/
theorem createAnnouncement_outcome_reuse :
    labAnnounced.createAnnouncement 1 1 ⟨0xC0A80700, 24⟩ 1 1 ⟨.v4 0x647F0000, 24⟩ =
      (.ok (⟨1, 1, 0xC0A80700, 24, 0x647F0000⟩, false), labAnnounced) := by
  have hall := (@createAnnouncement_outcome labAnnounced ⟨0xC0A80700, 24⟩ ⟨.v4 0x647F0000, 24⟩
    labAnnounced_wf (by unfold Prefix.Valid; decide) (by decide) 1 1 1 1).reuse
    ⟨1, 1, 0xC0A80700, 24, 0x647F0000⟩ (by decide) rfl rfl (by decide)
  exact hall.trans (if_pos (by decide))

/-- A subnet that is larger than the pool: no block of its length is free, and the error is not that
the pool is exhausted. -/
theorem larger_than_pool :
    Pooled ⟨.v4 0x647F0000, 24⟩ (labDB [⟨1, 1⟩]) ∧ (labDB [⟨1, 1⟩]).Admits 1 1 ⟨0x0A010000, 16⟩ 1 0 ∧
      (∀ b : Block, ¬b.Free ⟨.v4 0x647F0000, 24⟩ 16 []) ∧
      ((labDB [⟨1, 1⟩]).createAnnouncement 1 1 ⟨0x0A010000, 16⟩ 1 0 ⟨.v4 0x647F0000, 24⟩).1 ≠
        .error .syntheticPoolExhausted := by
  refine ⟨?_, ?_, ?_, by decide⟩
  · constructor <;> simp [labDB]
  · constructor <;> simp [labDB, Unknown, OwnSubnetMeets, AtLimit]
  · intro b
    exact not_free_of_lt rfl (by unfold Prefix.Valid; decide) (by decide)

end
end LanWeave

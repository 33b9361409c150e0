import LanWeave.Server.Endpoints
import LanWeave.Server.Effects

/-! What a request may do to the database in the name of its user, whichever of its operations
fail: rows appear and disappear only where the user has a right to them. -/

namespace LanWeave
open Library Prog DB

/-! ### what a cascade takes -/

namespace DB
variable {db : DB}

theorem reclaimIfOrphaned_attachments (db : DB) (annID : Int) :
    (db.reclaimIfOrphaned annID).2.announcementZones = db.announcementZones := by
  unfold reclaimIfOrphaned
  split_ifs with hatt
  · rfl
  · simp only [deleteAnnouncements]
    apply List.filter_eq_self.mpr
    intro az haz
    have hne : az.announcementID ≠ annID := by
      intro heq
      exact hatt (List.any_eq_true.mpr ⟨az, haz, by simpa using heq⟩)
    simp only [Bool.not_eq_true', any_and_id_eq_false, decide_eq_false_iff_not]
    intro a _ hid heq
    exact hne (hid.symm.trans heq)

theorem reclaimIfOrphaned_rest (db : DB) (annID : Int) :
    (db.reclaimIfOrphaned annID).2.users = db.users ∧
      (db.reclaimIfOrphaned annID).2.zoneMembers = db.zoneMembers := by
  unfold reclaimIfOrphaned
  split_ifs
  · exact ⟨rfl, rfl⟩
  · exact ⟨rfl, rfl⟩

theorem unattached_of_reclaimed {annID : Int} {a : Announcement} (ha : a ∈ db.announcements)
    (hlost : a ∉ (db.reclaimIfOrphaned annID).2.announcements) :
    a.id = annID ∧ ∀ az ∈ db.announcementZones, az.announcementID ≠ annID := by
  unfold reclaimIfOrphaned at hlost
  split_ifs at hlost with hatt
  · exact absurd ha hlost
  · refine ⟨?_, fun az haz heq => hatt (List.any_eq_true.mpr ⟨az, haz, by simpa using heq⟩)⟩
    by_contra hne
    exact hlost (mem_deleteAnnouncements.mpr ⟨ha, by simpa using hne⟩)

theorem attached_of_detachedOne {annID zoneID : Int} {a : Announcement} (ha : a ∈ db.announcements)
    (hlost : a ∉ (db.detachOne annID zoneID).announcements) :
    a.id = annID ∧ ∀ az ∈ db.announcementZones, az.announcementID = annID → az.zoneID = zoneID := by
  have hkept : a ∈ (db.deleteAttachments (· = ⟨annID, zoneID⟩)).announcements := ha
  obtain ⟨hid, hnone⟩ := unattached_of_reclaimed hkept hlost
  refine ⟨hid, fun az haz heq => ?_⟩
  by_contra hne
  refine hnone az (List.mem_filter.mpr ⟨haz, ?_⟩) heq
  have hother : az ≠ ⟨annID, zoneID⟩ := by
    rintro rfl
    exact hne rfl
  simpa using hother

theorem mem_detachOne_attachments {annID zoneID : Int} {az : AnnouncementZone} :
    az ∈ (db.detachOne annID zoneID).announcementZones ↔
      az ∈ db.announcementZones ∧ az ≠ ⟨annID, zoneID⟩ := by
  rw [detachOne, reclaimIfOrphaned_attachments, deleteAttachments, List.mem_filter]
  simp

theorem mem_detachEach_attachments {zoneID : Int} {recs : List Announcement} {az : AnnouncementZone} :
    az ∈ (detachEach zoneID recs db).2.announcementZones ↔
      az ∈ db.announcementZones ∧ ∀ a ∈ recs, az ≠ ⟨a.id, zoneID⟩ := by
  induction recs generalizing db with
  | nil => simp [detachEach]
  | cons b recs ih =>
    show az ∈ (detachEach zoneID recs (db.detachOne b.id zoneID)).2.announcementZones ↔ _
    rw [ih, mem_detachOne_attachments, List.forall_mem_cons, and_assoc]

theorem attached_of_detachedEach {zoneID : Int} {recs : List Announcement} {a : Announcement}
    (ha : a ∈ db.announcements) (hlost : a ∉ (detachEach zoneID recs db).2.announcements) :
    (∃ b ∈ recs, b.id = a.id) ∧
      ∀ az ∈ db.announcementZones, az.announcementID = a.id → az.zoneID = zoneID := by
  induction recs generalizing db with
  | nil => exact absurd ha hlost
  | cons b recs ih =>
    by_cases hkept : a ∈ (db.detachOne b.id zoneID).announcements
    · obtain ⟨⟨c, hc, hid⟩, hzones⟩ := ih hkept hlost
      refine ⟨⟨c, List.mem_cons_of_mem _ hc, hid⟩, fun az haz heq => ?_⟩
      by_cases hown : az = ⟨b.id, zoneID⟩
      · rw [hown]
      · exact hzones az (mem_detachOne_attachments.mpr ⟨haz, hown⟩) heq
    · obtain ⟨hid, hzones⟩ := attached_of_detachedOne ha hkept
      rw [hid]
      exact ⟨⟨b, List.mem_cons_self .., rfl⟩, hzones⟩

theorem reclaimEach_attachments (zoneID : Int) (dets : List Announcement) (db : DB) :
    (reclaimEach zoneID dets db).2.announcementZones = db.announcementZones := by
  induction dets generalizing db with
  | nil => rfl
  | cons a dets ih =>
    show (reclaimEach zoneID dets (db.reclaimIfOrphaned a.id).2).2.announcementZones = _
    rw [ih, reclaimIfOrphaned_attachments]

theorem unattached_of_reclaimedEach {zoneID : Int} {dets : List Announcement} {a : Announcement}
    (ha : a ∈ db.announcements) (hlost : a ∉ (reclaimEach zoneID dets db).2.announcements) :
    (∃ b ∈ dets, b.id = a.id) ∧ ∀ az ∈ db.announcementZones, az.announcementID ≠ a.id := by
  induction dets generalizing db with
  | nil => exact absurd ha hlost
  | cons b dets ih =>
    by_cases hkept : a ∈ (db.reclaimIfOrphaned b.id).2.announcements
    · obtain ⟨⟨c, hc, hid⟩, hnone⟩ := ih hkept hlost
      rw [reclaimIfOrphaned_attachments] at hnone
      exact ⟨⟨c, List.mem_cons_of_mem _ hc, hid⟩, hnone⟩
    · obtain ⟨hid, hnone⟩ := unattached_of_reclaimed ha hkept
      rw [hid]
      exact ⟨⟨b, List.mem_cons_self .., rfl⟩, hnone⟩

theorem detachEach_rest (zoneID : Int) (recs : List Announcement) (db : DB) :
    (detachEach zoneID recs db).2.users = db.users ∧
      (detachEach zoneID recs db).2.zoneMembers = db.zoneMembers := by
  induction recs generalizing db with
  | nil => exact ⟨rfl, rfl⟩
  | cons a recs ih =>
    obtain ⟨husers, hmembers⟩ := ih (db.detachOne a.id zoneID)
    obtain ⟨husers', hmembers'⟩ :=
      reclaimIfOrphaned_rest (db.deleteAttachments (· = ⟨a.id, zoneID⟩)) a.id
    exact ⟨husers.trans husers', hmembers.trans hmembers'⟩

theorem reclaimEach_rest (zoneID : Int) (dets : List Announcement) (db : DB) :
    (reclaimEach zoneID dets db).2.users = db.users ∧
      (reclaimEach zoneID dets db).2.zoneMembers = db.zoneMembers := by
  induction dets generalizing db with
  | nil => exact ⟨rfl, rfl⟩
  | cons a dets ih =>
    obtain ⟨husers, hmembers⟩ := ih (db.reclaimIfOrphaned a.id).2
    obtain ⟨husers', hmembers'⟩ := reclaimIfOrphaned_rest db a.id
    exact ⟨husers.trans husers', hmembers.trans hmembers'⟩

end DB

/-! ### rights -/

namespace DB

def OwnsNode (db : DB) (userID nodeID : Int) : Prop :=
  ∃ n ∈ db.nodes, n.id = nodeID ∧ n.userID = userID

def OwnsZone (db : DB) (userID zoneID : Int) : Prop :=
  ∃ z ∈ db.zones, z.id = zoneID ∧ z.ownerID = userID

/-- The announcing node or the zone is the user's. -/
def MayDetach (db : DB) (userID : Int) (az : AnnouncementZone) : Prop :=
  (∃ a ∈ db.announcements, a.id = az.announcementID ∧ db.OwnsNode userID a.nodeID) ∨
    db.OwnsZone userID az.zoneID

/-- The announcement has one attachment left, which the user may remove. -/
def MayReclaim (db : DB) (userID : Int) (a : Announcement) : Prop :=
  ∃ az ∈ db.announcementZones, az.announcementID = a.id ∧ db.MayDetach userID az ∧
    ∀ az' ∈ db.announcementZones, az'.announcementID = a.id → az' = az

end DB

/-- Every row that appears, disappears or changes from `db` to `db'` is one the user has a right
to; `opens` are the zones whose password the request shows. -/
structure Authorized (userID : Int) (opens : Zone → Prop) (db db' : DB) : Prop where
  users : db'.users = db.users
  nodes : Moves (fun n => n.userID = userID ∧ ∀ old ∈ db.nodes, old.id ≠ n.id)
    (fun n => n.userID = userID) db.nodes db'.nodes
  /-- A zone that appears is new, or an own zone with another password. -/
  zones : Moves (fun z => z.ownerID = userID ∧
      ∀ old ∈ db.zones, old.id = z.id → z = { old with passwordHash := z.passwordHash })
    (fun z => z.ownerID = userID) db.zones db'.zones
  zoneMembers : Moves (fun m => db.OwnsNode userID m.nodeID ∧
      ((∃ z ∈ db.zones, z.id = m.zoneID ∧ opens z) ∨
        (∀ old ∈ db.zones, old.id ≠ m.zoneID) ∧ db'.OwnsZone userID m.zoneID))
    (fun m => db.OwnsNode userID m.nodeID ∨ db.OwnsZone userID m.zoneID) db.zoneMembers db'.zoneMembers
  announcements : Moves (fun a => db.OwnsNode userID a.nodeID ∧ ∀ old ∈ db.announcements, old.id ≠ a.id)
    (fun a => db.OwnsNode userID a.nodeID ∨ db.MayReclaim userID a) db.announcements db'.announcements
  announcementZones : Moves (fun az => ∃ a ∈ db'.announcements, a.id = az.announcementID ∧
      db.OwnsNode userID a.nodeID ∧ ⟨az.zoneID, a.nodeID⟩ ∈ db.zoneMembers)
    (db.MayDetach userID) db.announcementZones db'.announcementZones

/-! ### steps of one request -/

/-- The rights of a request, by ids: those of its user in the database it finds, and the rows it
makes itself. `opens` are the zones its node may join, `announcer` the node it announces for. -/
structure Licence where
  db : DB
  userID : Int
  opens : Int → Prop
  announcer : Int

namespace Licence
variable (L : Licence)

def node (id : Int) : Prop := L.db.seqNodes < id ∨ L.db.OwnsNode L.userID id

def zone (id : Int) : Prop := L.db.seqZones < id ∨ L.db.OwnsZone L.userID id

def announcement (id : Int) : Prop :=
  L.db.seqAnnouncements < id ∨ ∃ a ∈ L.db.announcements, a.id = id ∧ L.node a.nodeID

/-- One step of the request, from `db` to `db'`, stays within the licence. -/
structure Step (db db' : DB) : Prop where
  users : db'.users = db.users
  nodes : Moves (fun n => n.userID = L.userID ∧ L.db.seqNodes < n.id) (fun n => n.userID = L.userID)
    db.nodes db'.nodes
  zones : Moves (fun z => z.ownerID = L.userID ∧ (L.db.seqZones < z.id ∨
      ∃ old ∈ L.db.zones, z = { old with passwordHash := z.passwordHash }))
    (fun z => z.ownerID = L.userID) db.zones db'.zones
  zoneMembers : Moves (fun m => L.db.OwnsNode L.userID m.nodeID ∧
      (L.db.seqZones < m.zoneID ∨ L.opens m.zoneID))
    (fun m => L.node m.nodeID ∨ L.zone m.zoneID) db.zoneMembers db'.zoneMembers
  announcements : Moves (fun a => L.db.OwnsNode L.userID a.nodeID ∧ a.nodeID = L.announcer ∧
      L.db.seqAnnouncements < a.id)
    (fun a => L.node a.nodeID ∨ L.db.MayReclaim L.userID a) db.announcements db'.announcements
  announcementZones : Moves (fun az => L.db.OwnsNode L.userID L.announcer ∧
      ⟨az.zoneID, L.announcer⟩ ∈ L.db.zoneMembers ∧ (L.db.seqAnnouncements < az.announcementID ∨
        ∃ a ∈ L.db.announcements, a.id = az.announcementID ∧ a.nodeID = L.announcer))
    (fun az => L.announcement az.announcementID ∨ L.zone az.zoneID)
    db.announcementZones db'.announcementZones

variable {L} {db db' db'' : DB}

theorem Step.refl : L.Step db db := ⟨rfl, .refl, .refl, .refl, .refl, .refl⟩

theorem Step.trans (h : L.Step db db') (h' : L.Step db' db'') : L.Step db db'' where
  users := h'.users.trans h.users
  nodes := h.nodes.trans h'.nodes
  zones := h.zones.trans h'.zones
  zoneMembers := h.zoneMembers.trans h'.zoneMembers
  announcements := h.announcements.trans h'.announcements
  announcementZones := h.announcementZones.trans h'.announcementZones

/-- What a request has done by its end, if every step stayed within its licence. -/
theorem Step.authorized {opens : Zone → Prop} (h : L.Step L.db db') (hw : L.db.Wf) (hw' : db'.Wf)
    (hopens : ∀ id, L.opens id → ∃ z ∈ L.db.zones, z.id = id ∧ opens z) :
    Authorized L.userID opens L.db db' := by
  -- what the licence allows for rows that were there before is what their owner may do: fresh ids
  -- name none
  have hnode : ∀ id, (∃ n ∈ L.db.nodes, n.id = id) → L.node id → L.db.OwnsNode L.userID id := by
    rintro id ⟨n, hn, rfl⟩ (hfresh | hown)
    · exact absurd (hw.nodes_seq n hn) (not_le.mpr hfresh)
    · exact hown
  have hzone : ∀ id, (∃ z ∈ L.db.zones, z.id = id) → L.zone id → L.db.OwnsZone L.userID id := by
    rintro id ⟨z, hz, rfl⟩ (hfresh | hown)
    · exact absurd (hw.zones_seq z hz) (not_le.mpr hfresh)
    · exact hown
  refine ⟨h.users, ⟨fun n hn => ?_, h.nodes.vanish⟩, ⟨fun z hz => ?_, h.zones.vanish⟩,
    ⟨fun m hm => ?_, fun m hm => ?_⟩, ⟨fun a ha => ?_, fun a ha => ?_⟩,
    ⟨fun az haz => ?_, fun az haz => ?_⟩⟩
  · rcases h.nodes.appear n hn with hold | ⟨huser, hfresh⟩
    · exact .inl hold
    · refine .inr ⟨huser, fun old hold heq => ?_⟩
      have hle := hw.nodes_seq old hold
      omega
  · rcases h.zones.appear z hz with hold | ⟨howner, hfresh | ⟨old, hold, heq⟩⟩
    · exact .inl hold
    · refine .inr ⟨howner, fun old hold heq => ?_⟩
      have hle := hw.zones_seq old hold
      omega
    · refine .inr ⟨howner, fun old' hold' hid => ?_⟩
      have hsame : old'.id = old.id := by
        rw [hid, heq]
      rwa [hw.zones_asc.keyed old' hold' old hold hsame]
  · rcases h.zoneMembers.appear m hm with hold | ⟨hown, hfresh | hopen⟩
    · exact .inl hold
    · -- a zone with a fresh id is one the request has made
      obtain ⟨z, hz, hid⟩ := hw'.member_zone m hm
      have hnew : ∀ old ∈ L.db.zones, old.id ≠ m.zoneID := by
        intro old hold heq
        have hle := hw.zones_seq old hold
        omega
      rcases h.zones.appear z hz with hold | ⟨howner, -⟩
      · exact absurd hid (hnew z hold)
      · exact .inr ⟨hown, .inr ⟨hnew, z, hz, hid, howner⟩⟩
    · exact .inr ⟨hown, .inl (hopens m.zoneID hopen)⟩
  · rcases h.zoneMembers.vanish m hm with hstay | hown | hown
    · exact .inl hstay
    · exact .inr (.inl (hnode _ (hw.member_node m hm) hown))
    · exact .inr (.inr (hzone _ (hw.member_zone m hm) hown))
  · rcases h.announcements.appear a ha with hold | ⟨hown, -, hfresh⟩
    · exact .inl hold
    · refine .inr ⟨hown, fun old hold heq => ?_⟩
      have hle := hw.announcements_seq old hold
      omega
  · rcases h.announcements.vanish a ha with hstay | hown | hlast
    · exact .inl hstay
    · exact .inr (.inl (hnode _ (hw.announcement_node a ha) hown))
    · exact .inr (.inr hlast)
  · rcases h.announcementZones.appear az haz with hold | ⟨hown, hmember, hann⟩
    · exact .inl hold
    · obtain ⟨a, ha, hid⟩ := hw'.attachment_announcement az haz
      have hof : a.nodeID = L.announcer := by
        -- the announcement was there, and its id names it alone, or the request has made it
        rcases h.announcements.appear a ha with hold | ⟨-, hof, hnew⟩
        · rcases hann with hfresh | ⟨b, hb, hbid, hbof⟩
          · have hle := hw.announcements_seq a hold
            omega
          · rwa [hw.announcements_asc.keyed a hold b hb (hid.trans hbid.symm)]
        · exact hof
      exact .inr ⟨a, ha, hid, by rwa [hof], by rwa [hof]⟩
  · rcases h.announcementZones.vanish az haz with hstay | (hfresh | ⟨a, ha, hid, hown⟩) | hown
    · exact .inl hstay
    · obtain ⟨a, ha, hid⟩ := hw.attachment_announcement az haz
      have hle := hw.announcements_seq a ha
      omega
    · exact .inr (.inl ⟨a, ha, hid, hnode _ (hw.announcement_node a ha) hown⟩)
    · exact .inr (.inr (hzone _ (hw.attachment_zone az haz) hown))

/-! ### the changes a request is made of -/

theorem step_withNode {n : Node} (huser : n.userID = L.userID)
    (hseq : L.db.seqNodes ≤ db.seqNodes) : L.Step db (db.withNode n) :=
  { (Step.refl : L.Step db db) with
    nodes := .append ⟨huser, by show L.db.seqNodes < db.seqNodes + 1; omega⟩ }

theorem step_deleteNodes {p : Node → Bool}
    (hp : ∀ n ∈ db.nodes, p n = true → n.userID = L.userID ∧ L.node n.id)
    (hann : ∀ a ∈ db.announcements, L.node a.nodeID → L.announcement a.id) :
    L.Step db (db.deleteNodes p) := by
  have hsub := sub_deleteNodes db p
  have hnode : ∀ id, (¬ ∀ n ∈ db.nodes, n.id = id → p n = false) → L.node id := by
    intro id hnot
    push Not at hnot
    obtain ⟨n, hn, rfl, hpn⟩ := hnot
    exact (hp n hn (by simpa using hpn)).2
  refine ⟨rfl, .of_subset hsub.nodes.subset fun n hn hlost => ?_, .refl,
    .of_subset hsub.zoneMembers.subset fun m hm hlost => ?_,
    .of_subset hsub.announcements.subset fun a ha hlost => ?_,
    .of_subset hsub.announcementZones.subset fun az haz hlost => ?_⟩
  · apply (hp n hn ?_).1
    by_contra hno
    exact hlost (mem_deleteNodes.mpr ⟨hn, by simpa using hno⟩)
  · exact .inl (hnode _ fun hno => hlost (mem_deleteNodes_members.mpr ⟨hm, hno⟩))
  · exact .inl (hnode _ fun hno => hlost (mem_deleteNodes_announcements.mpr ⟨ha, hno⟩))
  · have hnot : ¬ ∀ a ∈ db.announcements, a.id = az.announcementID →
        ∀ n ∈ db.nodes, n.id = a.nodeID → p n = false :=
      fun hno => hlost (mem_deleteNodes_attachments.mpr ⟨haz, hno⟩)
    push Not at hnot
    obtain ⟨a, ha, hid, n, hn, hnid, hpn⟩ := hnot
    have hown : L.node a.nodeID := hnid ▸ (hp n hn (by simpa using hpn)).2
    exact .inl (hid ▸ hann a ha hown)

theorem step_addZone {name hash : String} (hseq : L.db.seqZones ≤ db.seqZones) :
    L.Step db (db.addZone name hash L.userID) :=
  { (Step.refl : L.Step db db) with
    zones := .append ⟨rfl, .inl (by show L.db.seqZones < db.seqZones + 1; omega)⟩ }

theorem step_deleteZones {p : Zone → Bool}
    (hp : ∀ z ∈ db.zones, p z = true → z.ownerID = L.userID ∧ L.zone z.id) :
    L.Step db (db.deleteZones p) := by
  have hsub := sub_deleteZones db p
  have hzone : ∀ id, (¬ ∀ z ∈ db.zones, z.id = id → p z = false) → L.zone id := by
    intro id hnot
    push Not at hnot
    obtain ⟨z, hz, rfl, hpz⟩ := hnot
    exact (hp z hz (by simpa using hpz)).2
  refine ⟨rfl, .refl, .of_subset hsub.zones.subset fun z hz hlost => ?_,
    .of_subset hsub.zoneMembers.subset fun m hm hlost => ?_, .refl,
    .of_subset hsub.announcementZones.subset fun az haz hlost => ?_⟩
  · apply (hp z hz ?_).1
    by_contra hno
    exact hlost (mem_deleteZones.mpr ⟨hz, by simpa using hno⟩)
  · exact .inr (hzone _ fun hno => hlost (mem_deleteZones_members.mpr ⟨hm, hno⟩))
  · exact .inr (hzone _ fun hno => hlost (mem_deleteZones_attachments.mpr ⟨haz, hno⟩))

theorem step_updatePassword {zoneID : Int} {hash : String} (hw : L.db.Wf)
    (hown : L.db.OwnsZone L.userID zoneID) : L.Step L.db (L.db.updatePassword zoneID hash) := by
  obtain ⟨zone, hzone, rfl, howner⟩ := hown
  have hsame : ∀ z ∈ L.db.zones, z.id = zone.id → z.ownerID = L.userID := by
    intro z hz hid
    rwa [hw.zones_asc.keyed z hz zone hzone hid]
  refine { (Step.refl : L.Step L.db L.db) with zones := ⟨fun z hz => ?_, fun z hz => ?_⟩ }
  · obtain ⟨old, hold, rfl⟩ := List.mem_map.mp hz
    split_ifs with hid
    · exact .inr ⟨hsame old hold hid, .inr ⟨old, hold, rfl⟩⟩
    · exact .inl hold
  · by_cases hid : z.id = zone.id
    · exact .inr (hsame z hz hid)
    · exact .inl (List.mem_map.mpr ⟨z, hz, if_neg hid⟩)

theorem step_join {zoneID nodeID : Int} (hown : L.db.OwnsNode L.userID nodeID)
    (hopen : L.db.seqZones < zoneID ∨ L.opens zoneID) {r : Except StoreErr Unit}
    (h : db.join zoneID nodeID = (r, db')) : L.Step db db' := by
  rcases @join_cases db zoneID nodeID with ⟨hj, -⟩ | ⟨hj, -⟩ | ⟨hj, -⟩ <;> rw [hj] at h <;> cases h
  · exact .refl
  · exact .refl
  · exact { (Step.refl : L.Step db db) with zoneMembers := .append ⟨hown, hopen⟩ }

theorem step_deleteMember {m : ZoneMember} (hm : L.node m.nodeID ∨ L.zone m.zoneID) :
    L.Step db (db.deleteMember m) := by
  have hsub := sub_deleteMember db m
  refine { (Step.refl : L.Step db db) with
    zoneMembers := .of_subset hsub.zoneMembers.subset fun x hx hlost => ?_ }
  have heq : x = m := by
    by_contra hne
    exact hlost (List.mem_filter.mpr ⟨hx, by simpa using hne⟩)
  rwa [heq]

theorem step_leave {zoneID nodeID : Int} (hm : L.node nodeID ∨ L.zone zoneID) :
    L.Step db (db.leave zoneID nodeID).2 := by
  rcases leave_cases db zoneID nodeID with ⟨hl, -⟩ | ⟨hl, -⟩
  · rw [hl]
    exact .refl
  · rw [hl]
    exact step_deleteMember hm

/-- Only attachments the user may remove go, and announcements that thereby lost their last. -/
theorem step_detach (hnodes : db'.nodes = db.nodes) (hzones : db'.zones = db.zones)
    (husers : db'.users = db.users) (hmembers : db'.zoneMembers = db.zoneMembers)
    (hsub : Sub db' db)
    (hann : ∀ a ∈ db.announcements, a ∉ db'.announcements →
      L.node a.nodeID ∨ L.db.MayReclaim L.userID a)
    (hatt : ∀ az ∈ db.announcementZones, az ∉ db'.announcementZones →
      L.announcement az.announcementID ∨ L.zone az.zoneID) : L.Step db db' where
  users := husers
  nodes := hnodes ▸ .refl
  zones := hzones ▸ .refl
  zoneMembers := hmembers ▸ .refl
  announcements := .of_subset hsub.announcements.subset hann
  announcementZones := .of_subset hsub.announcementZones.subset hatt

theorem step_detachOne {annID zoneID : Int} (hmay : L.announcement annID ∨ L.zone zoneID)
    (hlast : ∀ a ∈ db.announcements, a.id = annID → L.node a.nodeID ∨
      ((∀ az ∈ db.announcementZones, az.announcementID = annID → az.zoneID = zoneID) →
        L.db.MayReclaim L.userID a)) : L.Step db (db.detachOne annID zoneID) := by
  obtain ⟨hnodes, hzones⟩ := reclaimIfOrphaned_keeps (db.deleteAttachments (· = ⟨annID, zoneID⟩)) annID
  have hrest : (db.detachOne annID zoneID).users = db.users ∧
      (db.detachOne annID zoneID).zoneMembers = db.zoneMembers := reclaimIfOrphaned_rest _ _
  refine step_detach hnodes hzones hrest.1 hrest.2 (sub_detachOne ..) (fun a ha hlost => ?_)
    fun az haz hlost => ?_
  · obtain ⟨hid, hzone⟩ := attached_of_detachedOne ha hlost
    exact (hlast a ha hid).imp id fun h => h hzone
  · have heq : az = ⟨annID, zoneID⟩ := by
      by_contra hne
      exact hlost (mem_detachOne_attachments.mpr ⟨haz, hne⟩)
    rw [heq]
    exact hmay

theorem mayReclaim {zoneID : Int} (hown : L.db.OwnsZone L.userID zoneID) {a : Announcement}
    (hatt : ⟨a.id, zoneID⟩ ∈ L.db.announcementZones)
    (hall : ∀ az ∈ L.db.announcementZones, az.announcementID = a.id → az.zoneID = zoneID) :
    L.db.MayReclaim L.userID a := by
  refine ⟨_, hatt, rfl, .inr hown, fun az haz hid => ?_⟩
  have hzone := hall az haz hid
  cases az
  subst hid hzone
  rfl

section
variable (hw : L.db.Wf) {zoneID : Int}
include hw

theorem step_expelled {nodeID : Int}
    (hmay : L.db.OwnsNode L.userID nodeID ∨ L.db.OwnsZone L.userID zoneID) :
    L.Step L.db (L.db.expelled nodeID zoneID) := by
  have hmember : L.node nodeID ∨ L.zone zoneID := hmay.imp .inr .inr
  have hleft : L.Step L.db (L.db.deleteMember ⟨zoneID, nodeID⟩) := step_deleteMember hmember
  refine hleft.trans ?_
  have hw₁ := hw.deleteMember ⟨zoneID, nodeID⟩
  generalize hdb : L.db.deleteMember ⟨zoneID, nodeID⟩ = db₁ at *
  have hanns : db₁.announcements = L.db.announcements := by rw [← hdb]; rfl
  have hatts : db₁.announcementZones = L.db.announcementZones := by rw [← hdb]; rfl
  have hrecs : ∀ a ∈ db₁.nodeZoneAnnouncements nodeID zoneID, a ∈ L.db.announcements ∧
      ⟨a.id, zoneID⟩ ∈ L.db.announcementZones ∧ a.nodeID = nodeID := by
    intro a ha
    obtain ⟨⟨hmem, hatt⟩, hof⟩ := (mem_nodeZoneAnnouncements hw₁).mp ha
    exact ⟨hanns ▸ hmem, hatts ▸ hatt, hof⟩
  have hkeeps : (db₁.detached nodeID zoneID).2.users = db₁.users ∧
      (db₁.detached nodeID zoneID).2.zoneMembers = db₁.zoneMembers := detachEach_rest _ _ _
  obtain ⟨hnodes, hzones⟩ := detachEach_keeps zoneID (db₁.nodeZoneAnnouncements nodeID zoneID) db₁
  rw [DB.expelled, hdb]
  refine step_detach hnodes hzones hkeeps.1 hkeeps.2 (sub_detachEach ..) (fun a ha hlost => ?_)
    fun az haz hlost => ?_
  · obtain ⟨⟨b, hb, hid⟩, hall⟩ := attached_of_detachedEach ha hlost
    obtain ⟨hbmem, hbatt, hbof⟩ := hrecs b hb
    rw [hanns] at ha
    rw [hatts] at hall
    obtain rfl := hw.announcements_asc.keyed b hbmem a ha hid
    exact hmay.imp (fun hown => .inr (hbof ▸ hown)) fun hown => mayReclaim hown hbatt hall
  · have hgone : ¬ ∀ a ∈ db₁.nodeZoneAnnouncements nodeID zoneID, az ≠ ⟨a.id, zoneID⟩ :=
      fun hno => hlost (mem_detachEach_attachments.mpr ⟨haz, hno⟩)
    push Not at hgone
    obtain ⟨a, ha, rfl⟩ := hgone
    obtain ⟨hmem, -, hof⟩ := hrecs a ha
    exact hmay.imp (fun hown => .inr ⟨a, hmem, rfl, .inr (hof ▸ hown)⟩) .inr

theorem step_zoneDetached (hown : L.db.OwnsZone L.userID zoneID) :
    L.Step L.db (L.db.zoneDetached zoneID).2 := by
  obtain ⟨hnodes, hzones⟩ := reclaimEach_keeps zoneID (L.db.announcementsInZone zoneID)
    (L.db.deleteAttachments (·.zoneID = zoneID))
  have hrest : (L.db.zoneDetached zoneID).2.users = L.db.users ∧
      (L.db.zoneDetached zoneID).2.zoneMembers = L.db.zoneMembers := reclaimEach_rest _ _ _
  refine step_detach hnodes hzones hrest.1 hrest.2
    ((sub_reclaimEach ..).trans (sub_deleteAttachments ..)) (fun a ha hlost => ?_)
    fun az haz hlost => ?_
  · have hkept : a ∈ (L.db.deleteAttachments (·.zoneID = zoneID)).announcements := ha
    obtain ⟨⟨b, hb, hid⟩, hnone⟩ := unattached_of_reclaimedEach hkept hlost
    obtain ⟨hbmem, hbatt⟩ := (mem_announcementsInZone hw).mp hb
    obtain rfl := hw.announcements_asc.keyed b hbmem a ha hid
    refine .inr (mayReclaim hown hbatt fun az haz heq => ?_)
    by_contra hne
    exact hnone az (List.mem_filter.mpr ⟨haz, by simpa using hne⟩) heq
  · have hzone : az.zoneID = zoneID := by
      by_contra hne
      rw [DB.zoneDetached, reclaimEach_attachments] at hlost
      exact hlost (List.mem_filter.mpr ⟨haz, by simpa using hne⟩)
    exact .inr (.inr (hzone ▸ hown))

theorem step_withoutZone (hown : L.db.OwnsZone L.userID zoneID) :
    L.Step L.db (L.db.withoutZone zoneID) := by
  apply (step_zoneDetached hw hown).trans
  apply step_deleteZones
  intro z hz hid
  rw [decide_eq_true_eq] at hid
  have hzones : (L.db.zoneDetached zoneID).2.zones = L.db.zones := (reclaimEach_keeps _ _ _).2
  rw [hzones] at hz
  obtain ⟨zone, hzone, hzid, howner⟩ := hown
  obtain rfl := hw.zones_asc.keyed z hz zone hzone (hid.trans hzid.symm)
  exact ⟨howner, .inr ⟨z, hz, rfl, howner⟩⟩

end

theorem step_createAnnouncement (hw : L.db.Wf) {real : Block} {zoneID limit : Int} {pool : Prefix}
    {ann : Announcement} (hown : L.db.OwnsNode L.userID L.announcer)
    (h : L.db.createAnnouncement L.userID L.announcer real zoneID limit pool = (.ok (ann, true), db')) :
    L.Step L.db db' ∧ L.announcement ann.id ∧
      ∀ a ∈ db'.announcements, a.id = ann.id → a.nodeID = L.announcer := by
  rcases @createAnnouncement_cases L.db L.userID L.announcer real zoneID limit pool with
    ⟨-, e, he⟩ | ⟨a, -, -, -, -, -, hrun⟩ | ⟨a, ha, hof, -, hmember, -, -, hrun⟩ | ⟨synthetic, hok, hrun⟩
  · rw [h] at he
    cases he
  · rw [h] at hrun
    cases hrun
  · rw [h] at hrun
    cases hrun
    refine ⟨{ (Step.refl : L.Step L.db L.db) with
      announcementZones := .append ⟨hown, hmember, .inr ⟨ann, ha, rfl, hof⟩⟩ }, ?_, ?_⟩
    · exact .inr ⟨ann, ha, rfl, hof ▸ .inr hown⟩
    · intro b hb hid
      rwa [hw.announcements_asc.keyed b hb ann ha hid]
  · rw [h] at hrun
    cases hrun
    refine ⟨{ (Step.refl : L.Step L.db L.db) with
      announcements := .append ⟨hown, rfl, Int.lt_succ _⟩
      announcementZones := .append ⟨hown, hok.member, .inl (Int.lt_succ _)⟩ }, .inl (Int.lt_succ _), ?_⟩
    intro b hb hid
    rcases List.mem_append.mp hb with hold | hnew
    · have hle := hw.announcements_seq b hold
      simp only at hid
      omega
    · rw [List.mem_singleton.mp hnew]

end Licence
/-! ### requests -/

/-- The zone whose password a request shows. -/
def Endpoint.shows {κ : Type} (h : Handlers κ) : Endpoint → Zone → Prop
  | .call (.joinZone name (some req)), z =>
    z.name = name ∧ h.verifyPassword req.password z.passwordHash = true
  | _, _ => False

def Endpoint.announcer : Endpoint → Int
  | .call (.createAnnouncement _ (some req)) => req.nodeID
  | _ => 0

section
variable {κ : Type} (h : Handlers κ) (i : Identity)

def licence (e : Endpoint) (db : DB) : Licence where
  db := db
  userID := i.userID
  opens id := ∃ z ∈ db.zones, z.id = id ∧ e.shows h z
  announcer := e.announcer

variable {db : DB}

theorem step_retractedNode {e : Endpoint} {n : Node} (huser : n.userID = i.userID) (hn : NodeFits db n) :
    (licence h i e db).Step db (db.retractedNode n) := by
  have hnew : n.id = db.seqNodes + 1 := hn.id
  refine (Licence.step_withNode huser le_rfl).trans (Licence.step_deleteNodes ?_ ?_)
  · intro m _ hm
    simp only [decide_eq_true_eq] at hm
    refine ⟨hm.2.trans huser, .inl ?_⟩
    show db.seqNodes < m.id
    omega
  · intro a ha hown
    exact .inr ⟨a, ha, rfl, hown⟩

theorem step_withoutNode {e : Endpoint} {n : Node} (hn : n ∈ db.nodes) (huser : n.userID = i.userID) :
    (licence h i e db).Step db (db.withoutNode n) := by
  refine Licence.step_deleteNodes ?_ ?_
  · intro m _ hm
    simp only [decide_eq_true_eq] at hm
    exact ⟨hm.2.trans huser, .inr ⟨n, hn, hm.1.symm, huser⟩⟩
  · intro a ha hown
    exact .inr ⟨a, ha, rfl, hown⟩

theorem step_undoZone (hw : db.Wf) {e : Endpoint} {db' : DB} {name hash : String}
    (hzones : db'.zones = (db.addZone name hash i.userID).zones) :
    (licence h i e db).Step db' (db'.deleteZones fun z => z.id = db.seqZones + 1) := by
  refine Licence.step_deleteZones fun z hz hid => ?_
  rw [decide_eq_true_eq] at hid
  rw [hzones] at hz
  rcases List.mem_append.mp hz with hold | hnew
  · have hle := hw.zones_seq z hold
    omega
  · rw [List.mem_singleton.mp hnew]
    exact ⟨rfl, .inl (Int.lt_succ _)⟩

/-- Every request but the administrator's leaves the rows of others alone. -/
theorem leaves_within [DecidableEq κ] (hw : db.Wf) (c : Call) (hc : ∀ path, c ≠ .deleteUser path) :
    Leaves h.parseKey (handle h.toServer ⟨some i, c⟩) db fun _ db' =>
      (licence h i (.call c) db).Step db db' := by
  have hsame : ∀ r : Response, (licence h i (.call c) db).Step db db := fun _ => .refl
  -- for each endpoint, its database steps in their order; a compensation undoes what the step
  -- before it was allowed
  cases c with
  | registerNode body =>
    refine leaves_registerNode h.toServer hw hsame ?_
    rintro _ req n ⟨⟩ - huser - hn
    exact ⟨fun _ => Licence.step_withNode huser le_rfl, fun _ => step_retractedNode h i huser hn⟩
  | deleteNode path =>
    refine leaves_deleteNode hw hsame ?_
    rintro _ n ⟨⟩ hn - huser
    exact fun _ => step_withoutNode h i hn huser
  | createZone body salt =>
    refine leaves_createZone h.toServer hsame ?_
    rintro _ name hash ⟨⟩ - - db₁ rfl
    have hadd : (licence h i (.call (.createZone body salt)) db).Step db
      (db.addZone name hash i.userID) :=
      Licence.step_addZone le_rfl
    refine ⟨fun _ => hadd, fun _ => hadd.trans (step_undoZone h i hw rfl), ?_⟩
    intro node hnode huser db₂ hjoin
    have hstep := hadd.trans (Licence.step_join ⟨node, hnode, rfl, huser⟩ (.inl (Int.lt_succ _)) hjoin)
    have hzones : db₂.zones = (db.addZone name hash i.userID).zones := by
      rcases @join_cases (db.addZone name hash i.userID) (db.seqZones + 1) node.id with
        ⟨hj, -⟩ | ⟨hj, -⟩ | ⟨hj, -⟩ <;> rw [hj] at hjoin <;> cases hjoin <;> rfl
    exact ⟨fun _ => hstep, fun _ => hstep.trans (step_undoZone h i hw hzones)⟩
  | joinZone name body =>
    refine leaves_joinZone h.toServer hsame ?_
    rintro _ req zone node ⟨⟩ rfl hzone hname hpass hnode hid huser db' hjoin
    have hstep := Licence.step_join (L := licence h i (.call (.joinZone name (some req))) db)
      ⟨node, hnode, rfl, huser⟩ (.inr ⟨zone, hzone, rfl, hname, hpass⟩) hjoin
    exact ⟨fun _ => hstep, fun _ => hstep.trans
      (Licence.step_leave (.inl (.inr ⟨node, hnode, rfl, huser⟩)))⟩
  | leaveZone name body =>
    refine leaves_leaveZone hsame ?_
    rintro _ req zone node ⟨⟩ - - - hnode - huser -
    have hown : db.OwnsNode i.userID node.id := ⟨node, hnode, rfl, huser⟩
    exact ⟨fun _ => Licence.step_deleteMember (.inl (.inr hown)),
      fun _ => Licence.step_expelled (L := licence h i (.call (.leaveZone name body)) db) hw (.inl hown)⟩
  | kickMember name path =>
    refine leaves_kickMember hsame ?_
    rintro _ zone node ⟨⟩ hzone howner - -
    have hown : db.OwnsZone i.userID zone.id := ⟨zone, hzone, rfl, howner⟩
    exact ⟨fun _ => Licence.step_deleteMember (.inr (.inr hown)),
      fun _ => Licence.step_expelled (L := licence h i (.call (.kickMember name path)) db) hw
        (.inr hown)⟩
  | deleteZone name =>
    refine leaves_deleteZone hsame ?_
    rintro _ zone ⟨⟩ hzone howner
    have hown : db.OwnsZone i.userID zone.id := ⟨zone, hzone, rfl, howner⟩
    exact ⟨fun _ => Licence.step_zoneDetached (L := licence h i (.call (.deleteZone name)) db) hw hown,
      fun _ => Licence.step_withoutZone (L := licence h i (.call (.deleteZone name)) db) hw hown⟩
  | createAnnouncement name body =>
    refine leaves_createAnnouncement h.toServer hsame ?_
    rintro _ req zone node pool p ann db' ⟨⟩ rfl - - hnode hid huser - - - hrun
    rw [hid] at hrun
    have hown : db.OwnsNode i.userID req.nodeID := ⟨node, hnode, hid, huser⟩
    obtain ⟨hstep, hann, hof⟩ := Licence.step_createAnnouncement
      (L := licence h i (.call (.createAnnouncement name (some req))) db) hw hown hrun
    refine ⟨fun _ => hstep, fun _ => hstep.trans (Licence.step_detachOne (.inl hann) ?_)⟩
    intro a ha hid
    exact .inl (.inr (hof a ha hid ▸ hown))
  | deleteAnnouncement name path =>
    refine leaves_deleteAnnouncement hsame ?_
    rintro _ zone a node ⟨⟩ hzone - ha - hnode hid hmay hatt _
    have hnodeOwn : node.userID = i.userID → db.OwnsNode i.userID a.nodeID :=
      fun hu => ⟨node, hnode, hid, hu⟩
    have hzoneOwn : zone.ownerID = i.userID → db.OwnsZone i.userID zone.id :=
      fun ho => ⟨zone, hzone, rfl, ho⟩
    refine Licence.step_detachOne (L := licence h i (.call (.deleteAnnouncement name path)) db) ?_ ?_
    · exact hmay.imp (fun hu => .inr ⟨a, ha, rfl, .inr (hnodeOwn hu)⟩) fun ho => .inr (hzoneOwn ho)
    · intro b hb hbid
      obtain rfl := hw.announcements_asc.keyed b hb a ha hbid
      exact hmay.imp (fun hu => .inr (hnodeOwn hu)) fun ho hall =>
        Licence.mayReclaim (hzoneOwn ho) hatt hall
  | deleteUser path => exact absurd rfl (hc path)

end

section
variable {κ : Type} [DecidableEq κ] {parseKey : String → Option κ}

theorem siteSem_wf (a : Act) (fails : Bool) (s : Site κ) (hw : s.world.db.Wf) :
    (siteSem parseKey a fails s).2.world.db.Wf := by
  cases a with
  | op o =>
    show (sem parseKey o fails s.world).2.db.Wf
    rcases sem_db parseKey s.world o fails with hsame | ⟨o', rfl, -, hsame⟩
    · rwa [hsame]
    · rw [hsame]
      exact o'.exec_wf hw
  | updatePassword zoneID hash =>
    cases fails with
    | true => exact hw
    | false => exact updatePassword_wf hw zoneID hash
  | insertInvite createdBy code now ttl => cases fails <;> exact hw
  | listByUser _ | listForUser _ | membersByZone _ | listByZone _ | listInvites => exact hw

/-- The acts that leave the database's tables as they are. -/
def Act.KeepsDB : Act → Prop
  | .op o => o.KeepsDB
  | .updatePassword .. => False
  | _ => True

theorem only_keeps_rows {β : Type} {query : Service (Except StoreErr β)} {k : β → Answer}
    (hq : query.Only Act.KeepsDB) : (Service.rows query k).Only Act.KeepsDB := by
  refine hq.bind fun r => ?_
  cases r <;> trivial

theorem only_keeps_memberZone (name : String) (userID : Int) {k : Zone → Service Answer}
    (hk : ∀ zone, (k zone).Only Act.KeepsDB) : (Service.memberZone name userID k).Only Act.KeepsDB := by
  refine ⟨fun _ => rfl, fun r => ?_⟩
  rcases r with e | _ | zone
  · trivial
  · trivial
  · refine ⟨fun _ => rfl, fun r => ?_⟩
    rcases r with e | _ | _
    · trivial
    · trivial
    · exact hk zone

theorem Act.KeepsDB.eq {a : Act} (ha : a.KeepsDB) (fails : Bool) (s : Site κ) :
    (siteSem parseKey a fails s).2.world.db = s.world.db := by
  cases a with
  | op o =>
    show (sem parseKey o fails s.world).2.db = s.world.db
    rcases sem_db parseKey s.world o fails with hsame | ⟨o', rfl, -, hsame⟩
    · exact hsame
    · exact hsame.trans (ha s.world.db)
  | updatePassword zoneID hash => cases ha
  | insertInvite createdBy code now ttl => cases fails <;> rfl
  | listByUser _ | listForUser _ | membersByZone _ | listByZone _ | listInvites => rfl

end

/-- A request of a user who is no administrator, whichever of its operations fail. -/
theorem authorization_frame {κ : Type} [DecidableEq κ] (h : Handlers κ) {s : Site κ}
    (hw : s.world.db.Wf) {i : Identity} (hi : i.isAdmin = false) (e : Endpoint) :
    (answer h (some i) e).Always (siteSem h.parseKey) s fun _ s' =>
      Authorized i.userID (e.shows h) s.world.db s'.world.db := by
  have hkeepWf : (answer h (some i) e).Always (siteSem h.parseKey) s fun _ s' => s'.world.db.Wf :=
    (only_true _).always (fun a _ fails s hs => siteSem_wf a fails s hs) hw
  -- whatever fails, what has been done is within the licence of the request
  have hstep : (answer h (some i) e).Always (siteSem h.parseKey) s fun _ s' =>
      (licence h i e s.world.db).Step s.world.db s'.world.db := by
    have hreads : ∀ {p : Service Answer}, p.Only Act.KeepsDB → p.Always (siteSem h.parseKey) s
        fun _ s' => (licence h i e s.world.db).Step s.world.db s'.world.db := by
      intro p hp
      have hsame : p.Always (siteSem h.parseKey) s fun _ s' => s'.world.db = s.world.db :=
        hp.always (fun a ha fails s' hs' => (ha.eq fails s').trans hs') rfl
      refine hsame.mono fun _ s' hs' => ?_
      rw [hs']
      exact .refl
    have hadmin : ∀ k : Service Answer, Service.admin i k = Service.error
        (writeJSONError 403 "forbidden" "Administrator privileges required.") := by
      intro k
      simp [Service.admin, hi]
    cases e with
    | call c =>
      by_cases hc : ∃ path, c = .deleteUser path
      · obtain ⟨path, rfl⟩ := hc
        rw [show answer h (some i) (.call (.deleteUser path)) = _ from hadmin _]
        exact .refl
      · have hne : ∀ path, c ≠ .deleteUser path := fun path heq => hc ⟨path, heq⟩
        have hplain : answer h (some i) (.call c) = plain (handle h.toServer ⟨some i, c⟩) := by
          cases c with
          | deleteUser path => exact absurd rfl (hne path)
          | _ => rfl
        rw [hplain]
        refine (always_plain (leaves_within h i hw c hne s.world rfl)).mono fun a s' hs' => ?_
        obtain ⟨-, -, hdone⟩ := hs'
        exact hdone
    | changeZonePassword name body salt =>
      refine always_ownedZone (fun _ => .refl) fun zone hzone _ howner => ?_
      have hown : s.world.db.OwnsZone i.userID zone.id := ⟨zone, hzone, rfl, howner⟩
      cases body with
      | none => exact .refl
      | some req =>
        dsimp only
        split_ifs
        · exact .refl
        · cases salt with
          | none => exact .refl
          | some salt =>
            intro fails
            cases fails with
            | true => exact .refl
            | false => exact Licence.step_updatePassword (L := licence h i _ s.world.db) hw hown
    | createInvite now draw =>
      rw [show answer h (some i) (.createInvite now draw) = _ from hadmin _]
      exact .refl
    | listInvites =>
      rw [show answer h (some i) .listInvites = _ from hadmin _]
      exact .refl
    | me | serverInfo => exact .refl
    | listNodes | listZones => exact hreads (only_keeps_rows ⟨trivial, fun _ => trivial⟩)
    | zoneMembers name | listAnnouncements name =>
      exact hreads (only_keeps_memberZone name i.userID fun zone =>
        only_keeps_rows ⟨trivial, fun _ => trivial⟩)
  refine (hkeepWf.and hstep).mono fun _ s' hs' => ?_
  obtain ⟨hwf, hdone⟩ := hs'
  exact hdone.authorized hw hwf fun id ⟨z, hz, hid, hopen⟩ => ⟨z, hz, hid, hopen⟩

/-- The owner deletes the zone with its member. -/
theorem authorization_frame_lab :
    (answer labServer.bare (some ⟨1, "alice", false⟩) (.call (.deleteZone "lab"))).Always (siteSem some)
      ⟨rebuilt (labDB [⟨1, 1⟩]), ⟨[], 0⟩⟩ fun _ s' =>
        Authorized 1 ((Endpoint.call (.deleteZone "lab")).shows labServer.bare) (labDB [⟨1, 1⟩])
          s'.world.db :=
  authorization_frame labServer.bare (s := ⟨rebuilt (labDB [⟨1, 1⟩]), ⟨[], 0⟩⟩) (labDB_wf (.inr rfl))
    (i := ⟨1, "alice", false⟩) rfl _

end LanWeave

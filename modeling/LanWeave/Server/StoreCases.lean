import LanWeave.Server.StoreInvariant

/-! What each statement can do, said once: the inversion lemmas the invariants are read off. -/

namespace LanWeave.DB
open Library

variable {db : DB}

theorem nodeByID?_eq_some (h : db.Wf) {nodeID : Int} {n : Node} :
    db.nodeByID? nodeID = some n ↔ n ∈ db.nodes ∧ n.id = nodeID :=
  h.nodes_asc.keyed.find?_eq_some_iff

theorem getNodeByID_of_mem (h : db.Wf) {n : Node} (hn : n ∈ db.nodes) :
    db.getNodeByID n.id = .ok n := by
  rw [DB.getNodeByID, (nodeByID?_eq_some h).mpr ⟨hn, rfl⟩]

theorem announcementByID?_eq_some (h : db.Wf) {annID : Int} {a : Announcement} :
    db.announcementByID? annID = some a ↔ a ∈ db.announcements ∧ a.id = annID :=
  h.announcements_asc.keyed.find?_eq_some_iff

theorem getOwned_ok {userID nodeID : Int} {n : Node} (h : db.getOwned userID nodeID = .ok n) :
    n ∈ db.nodes ∧ n.id = nodeID ∧ n.userID = userID := by
  unfold getOwned at h
  split at h
  · next m hm =>
    obtain rfl : m = n := by simpa using h
    exact ⟨List.mem_of_find?_eq_some hm, by simpa using List.find?_some hm⟩
  · cases h

theorem getNodeByID_ok {nodeID : Int} {n : Node} (h : db.getNodeByID nodeID = .ok n) :
    n ∈ db.nodes ∧ n.id = nodeID := by
  unfold getNodeByID nodeByID? at h
  split at h
  · next m hm =>
    obtain rfl : m = n := by simpa using h
    exact ⟨List.mem_of_find?_eq_some hm, by simpa using List.find?_some hm⟩
  · cases h

theorem getAnnouncement_ok {annID : Int} {a : Announcement} (h : db.getAnnouncement annID = .ok a) :
    a ∈ db.announcements ∧ a.id = annID := by
  unfold getAnnouncement announcementByID? at h
  split at h
  · next b hb =>
    obtain rfl : b = a := by simpa using h
    exact ⟨List.mem_of_find?_eq_some hb, by simpa using List.find?_some hb⟩
  · cases h

theorem getByName_ok {name : String} {z : Zone} (h : db.getByName name = .ok (some z)) :
    z ∈ db.zones ∧ z.name = name := by
  have hz : db.zones.find? (·.name = name) = some z := by simpa [getByName] using h
  exact ⟨List.mem_of_find?_eq_some hz, by simpa using List.find?_some hz⟩

theorem createAdmin_cases (username passwordHash : String) :
    (db.createAdmin username passwordHash).2 = db ∨
      (db.createAdmin username passwordHash).2 = db.addUser username passwordHash true := by
  unfold createAdmin
  split
  · exact .inl rfl
  · exact .inr rfl

theorem register_cases (username passwordHash : String) (redeemable : Bool) :
    (db.register username passwordHash redeemable).2 = db ∨
      (db.register username passwordHash redeemable).2 = db.addUser username passwordHash false := by
  unfold register
  split_ifs
  · exact .inl rfl
  · exact .inl rfl
  · exact .inr rfl

theorem insertNode_cases (userID : Int) (name pubKey platform : String) (ip : BitVec 32)
    (maxDevices : Int) :
    ((db.insertNode userID name pubKey platform ip maxDevices).2 = db ∧
      ∀ id, (db.insertNode userID name pubKey platform ip maxDevices).1 ≠ .ok (some id)) ∨
    (db.insertNode userID name pubKey platform ip maxDevices =
        (.ok (some (db.seqNodes + 1)), db.addNode userID name pubKey ip platform) ∧
      (∃ u ∈ db.users, u.id = userID) ∧
      (∀ n ∈ db.nodes, (n.userID, n.name) ≠ (userID, name)) ∧ (∀ n ∈ db.nodes, n.ip ≠ ip) ∧
      ∀ n ∈ db.nodes, n.pubKey ≠ pubKey) := by
  unfold insertNode
  split_ifs with hcap hname hip hkey huser
  iterate 5 exact .inl ⟨rfl, by simp⟩
  refine .inr ⟨rfl, hasUser_iff.mp (by simpa using huser), ?_, ?_, ?_⟩
  · simpa using hname
  · simpa using hip
  · simpa using hkey

theorem insertZone_cases (ownerID : Int) (name passwordHash : String) (maxOwnedZones : Int) :
    ((db.insertZone ownerID name passwordHash maxOwnedZones).2 = db ∧
      ∀ id, (db.insertZone ownerID name passwordHash maxOwnedZones).1 ≠ .ok (some id)) ∨
    (db.insertZone ownerID name passwordHash maxOwnedZones =
        (.ok (some (db.seqZones + 1)), db.addZone name passwordHash ownerID) ∧
      (∃ u ∈ db.users, u.id = ownerID) ∧ ∀ z ∈ db.zones, z.name ≠ name) := by
  unfold insertZone
  split_ifs with hcap hname huser
  iterate 3 exact .inl ⟨rfl, by simp⟩
  exact .inr ⟨rfl, hasUser_iff.mp (by simpa using huser), by simpa using hname⟩

theorem join_cases (zoneID nodeID : Int) :
    (db.join zoneID nodeID = (.ok (), db) ∧ ⟨zoneID, nodeID⟩ ∈ db.zoneMembers) ∨
    (db.join zoneID nodeID = (.error .driver, db) ∧
      ¬ ((∃ z ∈ db.zones, z.id = zoneID) ∧ ∃ n ∈ db.nodes, n.id = nodeID)) ∨
    (db.join zoneID nodeID = (.ok (), db.addMember ⟨zoneID, nodeID⟩) ∧
      ⟨zoneID, nodeID⟩ ∉ db.zoneMembers ∧ (∃ z ∈ db.zones, z.id = zoneID) ∧
      ∃ n ∈ db.nodes, n.id = nodeID) := by
  unfold join
  split_ifs with hmem hfk
  · exact .inl ⟨rfl, hmem⟩
  · refine .inr (.inl ⟨rfl, ?_⟩)
    rw [← hasZone_iff, ← hasNode_iff]
    rintro ⟨hz, hn⟩
    simp [hz, hn] at hfk
  · refine .inr (.inr ⟨rfl, hmem, ?_⟩)
    rw [← hasZone_iff, ← hasNode_iff]
    simpa using hfk

variable (db) in
theorem leave_cases (zoneID nodeID : Int) :
    (db.leave zoneID nodeID = (.error .notMember, db) ∧ ⟨zoneID, nodeID⟩ ∉ db.zoneMembers) ∨
    (db.leave zoneID nodeID = (.ok (), db.deleteMember ⟨zoneID, nodeID⟩) ∧
      ⟨zoneID, nodeID⟩ ∈ db.zoneMembers) := by
  unfold leave
  split_ifs with hmem
  · exact .inr ⟨rfl, hmem⟩
  · exact .inl ⟨rfl, hmem⟩

def announce (db : DB) (nodeID : Int) (real : Block) (zoneID : Int) (syntheticBase : BitVec 32) :
    DB :=
  (db.addAnnouncement nodeID real syntheticBase).attach ⟨db.seqAnnouncements + 1, zoneID⟩

/-- What `AnnouncementRepo.Create` has checked when it inserts a new announcement. -/
structure Announceable (db : DB) (userID nodeID : Int) (real : Block) (zoneID limit : Int)
    (pool : Prefix) (synthetic : Block) : Prop where
  member : ⟨zoneID, nodeID⟩ ∈ db.zoneMembers
  unknown : ∀ a ∈ db.announcements, (a.nodeID, a.real) ≠ (nodeID, real)
  apart : ∀ a ∈ db.announcements, a.nodeID = nodeID → overlaps real a.real = false
  quota : 0 < limit → ((db.announcementsOfUser userID).length : Int) < limit
  allocated : allocateBlock pool real.prefixLen (db.announcements.map (·.synthetic)) = .ok synthetic
  fresh : ∀ a ∈ db.announcements, a.synthetic ≠ ⟨synthetic.base, real.prefixLen⟩
  node : ∃ n ∈ db.nodes, n.id = nodeID
  zone : ∃ z ∈ db.zones, z.id = zoneID

theorem insertAnnouncement_ok {nodeID : Int} {real : Block} {syntheticBase : BitVec 32} {db₁ : DB}
    (h : db.insertAnnouncement nodeID real syntheticBase = .ok db₁) :
    db₁ = db.addAnnouncement nodeID real syntheticBase ∧
      (∀ a ∈ db.announcements, (a.nodeID, a.real) ≠ (nodeID, real)) ∧
      (∀ a ∈ db.announcements, a.synthetic ≠ ⟨syntheticBase, real.prefixLen⟩) ∧
      ∃ n ∈ db.nodes, n.id = nodeID := by
  unfold insertAnnouncement at h
  split_ifs at h with hreal hsynth hnode
  refine ⟨by simpa using h.symm, by simpa using hreal, by simpa using hsynth, ?_⟩
  exact hasNode_iff.mp (by simpa using hnode)

theorem insertAnnouncementZone_ok {annID zoneID : Int} {db₁ : DB}
    (h : db.insertAnnouncementZone annID zoneID = .ok db₁) :
    db₁ = db.attach ⟨annID, zoneID⟩ ∧ (∃ a ∈ db.announcements, a.id = annID) ∧
      ∃ z ∈ db.zones, z.id = zoneID := by
  unfold insertAnnouncementZone at h
  split_ifs at h with hfk
  rw [Bool.and_eq_true, hasAnnouncement_iff, hasZone_iff] at hfk
  exact ⟨by simpa using h.symm, hfk⟩

theorem announceNew_cases (userID nodeID : Int) (real : Block) (zoneID limit : Int) (pool : Prefix)
    (hmem : ⟨zoneID, nodeID⟩ ∈ db.zoneMembers) :
    ((db.announceNew userID nodeID real zoneID limit pool).2 = db ∧
      ∃ e, (db.announceNew userID nodeID real zoneID limit pool).1 = .error e) ∨
    ∃ synthetic, Announceable db userID nodeID real zoneID limit pool synthetic ∧
      db.announceNew userID nodeID real zoneID limit pool =
        (.ok (⟨db.seqAnnouncements + 1, nodeID, real.base, real.prefixLen, synthetic.base⟩, true),
          db.announce nodeID real zoneID synthetic.base) := by
  unfold announceNew
  split_ifs with hover hlimit
  iterate 2 exact .inl ⟨rfl, _, rfl⟩
  split
  · exact .inl ⟨rfl, _, rfl⟩
  · exact .inl ⟨rfl, _, rfl⟩
  · next synthetic halloc =>
    split
    · exact .inl ⟨rfl, _, rfl⟩
    · next db₁ hins =>
      obtain ⟨rfl, hreal, hsynth, hnode⟩ := insertAnnouncement_ok hins
      split
      · exact .inl ⟨rfl, _, rfl⟩
      · next db₂ haz =>
        obtain ⟨rfl, -, hzone⟩ := insertAnnouncementZone_ok haz
        refine .inr ⟨synthetic, ⟨hmem, hreal, fun a ha hn => ?_, fun hpos => ?_, halloc, hsynth, hnode,
          hzone⟩, rfl⟩
        · simp only [List.any_eq_true, List.mem_filter, decide_eq_true_eq, not_exists, not_and,
            Bool.not_eq_true, and_imp] at hover
          exact hover a ha hn
        · omega

/-- `Create` fails without effect, finds the subnet attached, attaches a known announcement,
or inserts a new one. -/
theorem createAnnouncement_cases (userID nodeID : Int) (real : Block) (zoneID limit : Int)
    (pool : Prefix) :
    ((db.createAnnouncement userID nodeID real zoneID limit pool).2 = db ∧
      ∃ e, (db.createAnnouncement userID nodeID real zoneID limit pool).1 = .error e) ∨
    (∃ a ∈ db.announcements, a.nodeID = nodeID ∧ a.real = real ∧
      ⟨zoneID, nodeID⟩ ∈ db.zoneMembers ∧ ⟨a.id, zoneID⟩ ∈ db.announcementZones ∧
      db.createAnnouncement userID nodeID real zoneID limit pool = (.ok (a, false), db)) ∨
    (∃ a ∈ db.announcements, a.nodeID = nodeID ∧ a.real = real ∧
      ⟨zoneID, nodeID⟩ ∈ db.zoneMembers ∧ ⟨a.id, zoneID⟩ ∉ db.announcementZones ∧
      (∃ z ∈ db.zones, z.id = zoneID) ∧
      db.createAnnouncement userID nodeID real zoneID limit pool =
        (.ok (a, true), db.attach ⟨a.id, zoneID⟩)) ∨
    ∃ synthetic, Announceable db userID nodeID real zoneID limit pool synthetic ∧
      db.createAnnouncement userID nodeID real zoneID limit pool =
        (.ok (⟨db.seqAnnouncements + 1, nodeID, real.base, real.prefixLen, synthetic.base⟩, true),
          db.announce nodeID real zoneID synthetic.base) := by
  unfold createAnnouncement
  split_ifs with hmem
  swap
  · exact .inl ⟨rfl, _, rfl⟩
  split
  · next a hfind =>
    have ha := List.mem_of_find?_eq_some hfind
    obtain ⟨hnode, hreal⟩ : a.nodeID = nodeID ∧ a.real = real := by simpa using List.find?_some hfind
    split_ifs with haz
    · exact .inr (.inl ⟨a, ha, hnode, hreal, hmem, haz, rfl⟩)
    · split
      · exact .inl ⟨rfl, _, rfl⟩
      · next db₁ hins =>
        obtain ⟨rfl, -, hzone⟩ := insertAnnouncementZone_ok hins
        exact .inr (.inr (.inl ⟨a, ha, hnode, hreal, hmem, haz, hzone, rfl⟩))
  · exact (announceNew_cases userID nodeID real zoneID limit pool hmem).imp id fun h => .inr (.inr h)

/-- The tables besides those of announcements and attachments that decide who sees what. -/
structure SameMembers (db' db : DB) : Prop where
  nodes : db'.nodes = db.nodes
  zones : db'.zones = db.zones
  zoneMembers : db'.zoneMembers = db.zoneMembers

theorem createAnnouncement_ok {userID nodeID : Int} {real : Block} {zoneID limit : Int} {pool : Prefix}
    {a : Announcement} {attached : Bool} {db₁ : DB}
    (hcreate : db.createAnnouncement userID nodeID real zoneID limit pool = (.ok (a, attached), db₁)) :
    (a ∈ db₁.announcements ∧ a.nodeID = nodeID ∧ a.real = real ∧
      ⟨a.id, zoneID⟩ ∈ db₁.announcementZones) ∧
      ⟨zoneID, nodeID⟩ ∈ db.zoneMembers ∧ db₁.SameMembers db := by
  rcases @createAnnouncement_cases db userID nodeID real zoneID limit pool with
    ⟨-, e, h⟩ | ⟨b, hb, hnode, hreal, hmember, hatt, h⟩ | ⟨b, hb, hnode, hreal, hmember, -, -, h⟩ |
      ⟨synthetic, hok, h⟩
  · rw [hcreate] at h
    cases h
  · obtain ⟨hba, rfl⟩ := Prod.mk.inj (h.symm.trans hcreate)
    obtain ⟨rfl, -⟩ := Prod.mk.inj (Except.ok.inj hba)
    exact ⟨⟨hb, hnode, hreal, hatt⟩, hmember, rfl, rfl, rfl⟩
  · obtain ⟨hba, rfl⟩ := Prod.mk.inj (h.symm.trans hcreate)
    obtain ⟨rfl, -⟩ := Prod.mk.inj (Except.ok.inj hba)
    have hatt : ⟨b.id, zoneID⟩ ∈ (db.attach ⟨b.id, zoneID⟩).announcementZones :=
      List.mem_append_right _ (List.mem_singleton.mpr rfl)
    exact ⟨⟨hb, hnode, hreal, hatt⟩, hmember, rfl, rfl, rfl⟩
  · obtain ⟨hba, rfl⟩ := Prod.mk.inj (h.symm.trans hcreate)
    obtain ⟨rfl, -⟩ := Prod.mk.inj (Except.ok.inj hba)
    have hin : (⟨db.seqAnnouncements + 1, nodeID, real.base, real.prefixLen, synthetic.base⟩ :
      Announcement) ∈
        (db.announce nodeID real zoneID synthetic.base).announcements :=
      List.mem_append_right _ (List.mem_singleton.mpr rfl)
    have hatt : ⟨db.seqAnnouncements + 1, zoneID⟩ ∈
        (db.announce nodeID real zoneID synthetic.base).announcementZones :=
      List.mem_append_right _ (List.mem_singleton.mpr rfl)
    exact ⟨⟨hin, rfl, rfl, hatt⟩, hok.member, rfl, rfl, rfl⟩

theorem join_ok {zoneID nodeID : Int} (h : (db.join zoneID nodeID).1 = .ok ()) :
    ⟨zoneID, nodeID⟩ ∈ (db.join zoneID nodeID).2.zoneMembers := by
  rcases @join_cases db zoneID nodeID with ⟨hj, hmem⟩ | ⟨hj, -⟩ | ⟨hj, -⟩
  · rwa [hj]
  · rw [hj] at h
    cases h
  · rw [hj]
    exact List.mem_append_right _ (List.mem_singleton_self _)

theorem insertNode_mem {userID : Int} {name pubKey platform : String} {ip : BitVec 32}
    {maxDevices id : Int}
    (h : (db.insertNode userID name pubKey platform ip maxDevices).1 = .ok (some id)) :
    ⟨id, userID, name, pubKey, ip, platform⟩ ∈
      (db.insertNode userID name pubKey platform ip maxDevices).2.nodes := by
  rcases @insertNode_cases db userID name pubKey platform ip maxDevices with ⟨-, hno⟩ | ⟨hnew, -⟩
  · exact absurd h (hno id)
  · rw [hnew] at h ⊢
    cases h
    exact List.mem_append_right _ (List.mem_singleton_self _)

/-- Removing one attachment, and the announcement with it when that was the last. -/
def detachOne (db : DB) (annID zoneID : Int) : DB :=
  ((db.deleteAttachments (· = ⟨annID, zoneID⟩)).reclaimIfOrphaned annID).2

variable (db) in
theorem detach_cases (zoneID annID : Int) :
    (db.detach zoneID annID = (.error .announcementNotFound, db) ∧
      ∀ a, db.announcementByID? annID = some a → ⟨annID, zoneID⟩ ∉ db.announcementZones) ∨
    ∃ a, db.announcementByID? annID = some a ∧ ⟨annID, zoneID⟩ ∈ db.announcementZones ∧
      db.detach zoneID annID =
        (.ok (a, !(db.deleteAttachments (· = ⟨annID, zoneID⟩)).attached annID),
          db.detachOne annID zoneID) := by
  unfold detach
  split
  · next h => exact .inl ⟨rfl, by simp [h]⟩
  · next a ha =>
    split_ifs with haz
    · refine .inr ⟨a, ha, haz, ?_⟩
      unfold detachOne reclaimIfOrphaned
      split_ifs with hatt <;> simp [hatt]
    · exact .inl ⟨rfl, fun _ _ => haz⟩

theorem sub_leave (db : DB) (zoneID nodeID : Int) : Sub (db.leave zoneID nodeID).2 db := by
  rcases leave_cases db zoneID nodeID with ⟨h, -⟩ | ⟨h, -⟩
  · exact h ▸ Sub.refl db
  · exact h ▸ sub_deleteMember db _

theorem sub_reclaimIfOrphaned (db : DB) (annID : Int) : Sub (db.reclaimIfOrphaned annID).2 db := by
  unfold reclaimIfOrphaned
  split_ifs
  · exact Sub.refl db
  · exact sub_deleteAnnouncements db _

theorem Wf.reclaimIfOrphaned (h : db.Wf) (annID : Int) : (db.reclaimIfOrphaned annID).2.Wf := by
  unfold DB.reclaimIfOrphaned
  split_ifs
  · exact h
  · exact h.deleteAnnouncements _

theorem sub_detachOne (db : DB) (annID zoneID : Int) : Sub (db.detachOne annID zoneID) db :=
  (sub_reclaimIfOrphaned _ annID).trans (sub_deleteAttachments db _)

theorem Wf.detachOne (h : db.Wf) (annID zoneID : Int) : (db.detachOne annID zoneID).Wf :=
  (h.deleteAttachments _).reclaimIfOrphaned annID

theorem sub_detachEach (zoneID : Int) (recs : List Announcement) (db : DB) :
    Sub (detachEach zoneID recs db).2 db := by
  induction recs generalizing db with
  | nil => exact Sub.refl db
  | cons a recs ih => exact (ih _).trans (sub_detachOne db a.id zoneID)

theorem Wf.detachEach (h : db.Wf) (zoneID : Int) (recs : List Announcement) :
    (detachEach zoneID recs db).2.Wf := by
  induction recs generalizing db with
  | nil => exact h
  | cons a recs ih => exact ih (h.detachOne a.id zoneID)

theorem detachEach_detaches {zoneID : Int} {recs : List Announcement} {a : Announcement}
    (ha : a ∈ recs) : ⟨a.id, zoneID⟩ ∉ (detachEach zoneID recs db).2.announcementZones := by
  induction recs generalizing db with
  | nil => cases ha
  | cons b recs ih =>
    rcases List.mem_cons.mp ha with rfl | ha
    · intro hmem
      have hdet := (sub_detachEach zoneID recs (db.detachOne a.id zoneID)).announcementZones.subset hmem
      have := (sub_reclaimIfOrphaned (db.deleteAttachments _) a.id).announcementZones.subset hdet
      simp [deleteAttachments] at this
    · exact ih ha

theorem synthetic_of_mem_detachEach {zoneID : Int} {recs : List Announcement}
    {det : DetachedRoute} (hdet : det ∈ (detachEach zoneID recs db).1) :
    ∃ a ∈ recs, det.synthetic = a.synthetic.toPrefix := by
  induction recs generalizing db with
  | nil => cases hdet
  | cons a recs ih =>
    rcases List.mem_cons.mp hdet with rfl | hdet
    · exact ⟨a, List.mem_cons_self, rfl⟩
    · obtain ⟨b, hb, hsyn⟩ := ih hdet
      exact ⟨b, List.mem_cons_of_mem _ hb, hsyn⟩

theorem sub_reclaimEach (zoneID : Int) (dets : List Announcement) (db : DB) :
    Sub (reclaimEach zoneID dets db).2 db := by
  induction dets generalizing db with
  | nil => exact Sub.refl db
  | cons a dets ih => exact (ih _).trans (sub_reclaimIfOrphaned db a.id)

theorem Wf.reclaimEach (h : db.Wf) (zoneID : Int) (dets : List Announcement) :
    (reclaimEach zoneID dets db).2.Wf := by
  induction dets generalizing db with
  | nil => exact h
  | cons a dets ih => exact ih (h.reclaimIfOrphaned a.id)

variable (db) in
/-- A user deletion does nothing, or removes the user with everything it owns and then the
announcements of others left without an attachment. -/
theorem deleteCascade_cases (targetID : Int) :
    ((db.deleteCascade targetID).2 = db ∧ ∃ e, (db.deleteCascade targetID).1 = .error e) ∨
    ∃ r, (db.deleteCascade targetID).1 = .ok r ∧
      r.nodePubKeys = (db.nodes.filter (·.userID = targetID)).map (·.pubKey) ∧
      r.survivingMemberships = db.survivingMemberships targetID ∧
      r.ownedZoneIDs = (db.zones.filter (·.ownerID = targetID)).map (·.id) ∧
      r.survivingZoneRoutes = db.survivingZoneRoutes targetID ∧
      ∃ orphans, orphans = (db.deleteUser targetID).announcements.filter (fun a =>
          !(db.deleteUser targetID).attached a.id && (db.deleteUser targetID).hasNode a.nodeID) ∧
        r.routeRecomputeNodes = (db.deleteUser targetID).routeRecomputeNodes orphans [] ∧
        (db.deleteCascade targetID).2 =
          (db.deleteUser targetID).deleteAnnouncements fun a => orphans.any (·.id = a.id) := by
  unfold deleteCascade
  split
  · exact .inl ⟨rfl, _, rfl⟩
  · split_ifs
    · exact .inl ⟨rfl, _, rfl⟩
    · exact .inr ⟨_, rfl, rfl, rfl, rfl, rfl, _, rfl, rfl, rfl⟩

/-- The new announcement's id is above every attached one, so its attachment is new. -/
theorem Announceable.wf (h : db.Wf) {userID nodeID : Int} {real : Block} {zoneID limit : Int}
    {pool : Prefix} {synthetic : Block}
    (ok : Announceable db userID nodeID real zoneID limit pool synthetic) :
    (db.announce nodeID real zoneID synthetic.base).Wf := by
  refine (h.addAnnouncement ok.node ok.unknown ok.fresh).attach (fun hmem => ?_) ?_ ok.zone
  · obtain ⟨a, ha, hid⟩ := h.attachment_announcement _ hmem
    have := h.announcements_seq a ha
    simp only at hid
    omega
  · exact ⟨_, List.mem_append_right _ (List.mem_singleton_self _), rfl⟩

theorem after_addNode (db : DB) (userID : Int) (name pubKey : String) (ip : BitVec 32)
    (platform : String) : After db (db.addNode userID name pubKey ip platform) := by
  refine ⟨fun n hn hid => ?_, fun a ha _ => ha, ?_, le_rfl⟩
  · simp only [addNode, List.mem_append, List.mem_singleton] at hn
    rcases hn with hn | rfl
    · exact hn
    · exact absurd hid (by simp)
  · simp [addNode]

theorem after_announce (db : DB) (nodeID : Int) (real : Block) (zoneID : Int)
    (syntheticBase : BitVec 32) : After db (db.announce nodeID real zoneID syntheticBase) := by
  refine ⟨fun n hn _ => hn, fun a ha hid => ?_, le_rfl, ?_⟩
  · simp only [announce, attach, addAnnouncement, List.mem_append, List.mem_singleton] at ha
    rcases ha with ha | rfl
    · exact ha
    · exact absurd hid (by simp)
  · simp [announce, attach, addAnnouncement]

theorem announcementsOfUser_addNode (hw : db.Wf) (u userID : Int) (name pubKey platform : String)
    (ip : BitVec 32) :
    (db.addNode userID name pubKey ip platform).announcementsOfUser u = db.announcementsOfUser u := by
  refine List.filter_congr fun a ha => ?_
  obtain ⟨n, hn, hid⟩ := hw.announcement_node a ha
  have hold : a.nodeID ≤ db.seqNodes := hid ▸ hw.nodes_seq n hn
  have hnew : db.seqNodes + 1 ≠ a.nodeID := by omega
  simp [addNode, hnew]

end LanWeave.DB

namespace LanWeave.StoreOp
open DB

/-- The statements that can take rows away. -/
def Removes : StoreOp → Bool
  | leave .. | deleteOwnedNode .. | deleteZone .. | detach .. | detachAllForNodeZone ..
  | detachAllForZone .. | deleteCascade .. => true
  | _ => false

def AddsUser : StoreOp → Bool
  | createAdmin .. | register .. => true
  | _ => false

/-- What a statement can do to the database. -/
inductive Change (db : DB) : StoreOp → DB → Prop
  | same (o : StoreOp) : Change db o db
  | removed {o : StoreOp} {db' : DB} (op : o.Removes = true) (sub : Sub db' db)
    (wf : db.Wf → db'.Wf) : Change db o db'
  | user {o : StoreOp} (username passwordHash : String) (isAdmin : Bool) (op : o.AddsUser = true) :
    Change db o (db.addUser username passwordHash isAdmin)
  | node {userID : Int} {name pubKey : String} {ip : BitVec 32} (platform : String)
    (maxDevices : Int) (user : ∃ u ∈ db.users, u.id = userID)
    (name_free : ∀ n ∈ db.nodes, (n.userID, n.name) ≠ (userID, name))
    (ip_free : ∀ n ∈ db.nodes, n.ip ≠ ip) (key_free : ∀ n ∈ db.nodes, n.pubKey ≠ pubKey) :
    Change db (insertNode userID name pubKey platform ip maxDevices)
      (db.addNode userID name pubKey ip platform)
  | zone {name passwordHash : String} {ownerID : Int} (maxOwnedZones : Int)
    (owner : ∃ u ∈ db.users, u.id = ownerID) (name_free : ∀ z ∈ db.zones, z.name ≠ name) :
    Change db (insertZone ownerID name passwordHash maxOwnedZones)
      (db.addZone name passwordHash ownerID)
  | member {zoneID nodeID : Int} (fresh : ⟨zoneID, nodeID⟩ ∉ db.zoneMembers)
    (zone : ∃ z ∈ db.zones, z.id = zoneID) (node : ∃ n ∈ db.nodes, n.id = nodeID) :
    Change db (join zoneID nodeID) (db.addMember ⟨zoneID, nodeID⟩)
  | attachment {a : Announcement} {zoneID : Int} (userID limit : Int) (pool : Prefix)
    (ann : a ∈ db.announcements) (member : ⟨zoneID, a.nodeID⟩ ∈ db.zoneMembers)
    (fresh : ⟨a.id, zoneID⟩ ∉ db.announcementZones) (zone : ∃ z ∈ db.zones, z.id = zoneID) :
    Change db (createAnnouncement userID a.nodeID a.real zoneID limit pool)
      (db.attach ⟨a.id, zoneID⟩)
  | announcement {userID nodeID : Int} {real : Block} {zoneID limit : Int} {pool : Prefix}
    {synthetic : Block} (ok : Announceable db userID nodeID real zoneID limit pool synthetic) :
    Change db (createAnnouncement userID nodeID real zoneID limit pool)
      (db.announce nodeID real zoneID synthetic.base)

section
variable {db db' : DB} {o : StoreOp}

theorem Change.of_eq {α : Type} {r : α × DB} {a : α} (hc : Change db o db') (h : r = (a, db')) :
    Change db o r.2 := h ▸ hc

theorem Change.wf (hc : Change db o db') (h : db.Wf) : db'.Wf := by
  cases hc with
  | same => exact h
  | removed _ _ wf => exact wf h
  | user => exact h.addUser ..
  | node platform _ user name_free ip_free key_free =>
    exact h.addNode platform user name_free ip_free key_free
  | zone _ owner name_free => exact h.addZone owner name_free
  | member fresh zone node => exact h.addMember fresh zone node
  | attachment _ _ _ ann member fresh zone => exact h.attach fresh ⟨_, ann, rfl⟩ zone
  | announcement ok => exact ok.wf h

theorem Change.after (hc : Change db o db') : After db db' := by
  cases hc with
  | same => exact After.refl db
  | removed _ sub => exact sub.after
  | node => exact after_addNode ..
  | announcement => exact after_announce ..
  | user | zone | member | attachment => exact ⟨fun _ h _ => h, fun _ h _ => h, le_rfl, le_rfl⟩

theorem exec_change (o : StoreOp) (db : DB) : Change db o (o.exec db).2 := by
  cases o with
  | createAdmin username passwordHash =>
    rcases createAdmin_cases username passwordHash with h | h
    · exact h ▸ Change.same _
    · exact h ▸ Change.user username passwordHash true rfl
  | register username passwordHash redeemable =>
    rcases register_cases username passwordHash redeemable with h | h
    · exact h ▸ Change.same _
    · exact h ▸ Change.user username passwordHash false rfl
  | insertNode userID name pubKey platform ip maxDevices =>
    rcases insertNode_cases userID name pubKey platform ip maxDevices with h | ⟨h, hu, hn, hi, hk⟩
    · exact h.1 ▸ Change.same _
    · exact (Change.node platform maxDevices hu hn hi hk).of_eq h
  | insertZone ownerID name passwordHash maxOwnedZones =>
    rcases insertZone_cases ownerID name passwordHash maxOwnedZones with h | ⟨h, hu, hn⟩
    · exact h.1 ▸ Change.same _
    · exact (Change.zone maxOwnedZones hu hn).of_eq h
  | join zoneID nodeID =>
    rcases join_cases zoneID nodeID with ⟨h, -⟩ | ⟨h, -⟩ | ⟨h, hm, hz, hn⟩
    · exact (Change.same _).of_eq h
    · exact (Change.same _).of_eq h
    · exact (Change.member hm hz hn).of_eq h
  | leave zoneID nodeID =>
    rcases leave_cases db zoneID nodeID with ⟨h, -⟩ | ⟨h, -⟩
    · exact (Change.same _).of_eq h
    · exact (Change.removed rfl (sub_deleteMember db _) (·.deleteMember _)).of_eq h
  | createAnnouncement userID nodeID real zoneID limit pool =>
    rcases createAnnouncement_cases userID nodeID real zoneID limit pool with
      h | ⟨a, -, -, -, -, -, h⟩ | ⟨a, ha, rfl, rfl, hm, hf, hz, h⟩ | ⟨synthetic, hok, h⟩
    · exact h.1 ▸ Change.same _
    · exact (Change.same _).of_eq h
    · exact (Change.attachment userID limit pool ha hm hf hz).of_eq h
    · exact (Change.announcement hok).of_eq h
  | detach zoneID annID =>
    rcases detach_cases db zoneID annID with ⟨h, -⟩ | ⟨a, -, -, h⟩
    · exact (Change.same _).of_eq h
    · exact (Change.removed rfl (sub_detachOne db annID zoneID) (·.detachOne annID zoneID)).of_eq h
  | deleteCascade targetID =>
    rcases deleteCascade_cases db targetID with h | ⟨r, -, -, -, -, -, orphans, -, -, h⟩
    · have hsame : ((deleteCascade targetID).exec db).2 = db := h.1
      rw [hsame]
      exact .same _
    · exact h ▸ Change.removed rfl ((sub_deleteAnnouncements _ _).trans (sub_deleteUser db targetID))
        fun hw => (hw.deleteUser targetID).deleteAnnouncements _
  | deleteOwnedNode userID nodeID => exact .removed rfl (sub_deleteNodes db _) (·.deleteNodes _)
  | deleteZone zoneID => exact .removed rfl (sub_deleteZones db _) (·.deleteZones _)
  | detachAllForNodeZone nodeID zoneID => exact .removed rfl (sub_detachEach ..) (·.detachEach ..)
  | detachAllForZone zoneID =>
    exact .removed rfl ((sub_reclaimEach ..).trans (sub_deleteAttachments db _))
      fun h => (h.deleteAttachments _).reclaimEach ..
  -- the reads
  | _ => exact Change.same _

theorem exec_wf (o : StoreOp) (h : db.Wf) : (o.exec db).2.Wf := (o.exec_change db).wf h

theorem exec_after (o : StoreOp) (db : DB) : After db (o.exec db).2 := (o.exec_change db).after

end
end LanWeave.StoreOp

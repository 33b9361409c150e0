import LanWeave.Server.Store

/-! Every statement keeps the constraints of the schema and never reuses an id. -/

namespace LanWeave.DB
open Library

variable {db db' : DB}

/-- Rows have only been removed. -/
structure Sub (db' db : DB) : Prop where
  users : db'.users.Sublist db.users
  nodes : db'.nodes.Sublist db.nodes
  zones : db'.zones.Sublist db.zones
  zoneMembers : db'.zoneMembers.Sublist db.zoneMembers
  announcements : db'.announcements.Sublist db.announcements
  announcementZones : db'.announcementZones.Sublist db.announcementZones
  seqUsers : db'.seqUsers = db.seqUsers
  seqNodes : db'.seqNodes = db.seqNodes
  seqZones : db'.seqZones = db.seqZones
  seqAnnouncements : db'.seqAnnouncements = db.seqAnnouncements

theorem Sub.refl (db : DB) : Sub db db :=
  ⟨.refl _, .refl _, .refl _, .refl _, .refl _, .refl _, rfl, rfl, rfl, rfl⟩

theorem Sub.trans {db₁ db₂ db₃ : DB} (h : Sub db₁ db₂) (h' : Sub db₂ db₃) : Sub db₁ db₃ :=
  ⟨h.users.trans h'.users, h.nodes.trans h'.nodes, h.zones.trans h'.zones,
    h.zoneMembers.trans h'.zoneMembers, h.announcements.trans h'.announcements,
    h.announcementZones.trans h'.announcementZones, h.seqUsers.trans h'.seqUsers,
    h.seqNodes.trans h'.seqNodes, h.seqZones.trans h'.seqZones,
    h.seqAnnouncements.trans h'.seqAnnouncements⟩

theorem After.refl (db : DB) : After db db :=
  ⟨fun _ h _ => h, fun _ h _ => h, le_rfl, le_rfl⟩

theorem After.trans {db₁ db₂ db₃ : DB} (h : After db₁ db₂) (h' : After db₂ db₃) :
    After db₁ db₃ :=
  ⟨fun n hn hid => h.nodes n (h'.nodes n hn (hid.trans h.seqNodes)) hid,
    fun a ha hid => h.announcements a (h'.announcements a ha (hid.trans h.seqAnnouncements)) hid,
    h.seqNodes.trans h'.seqNodes, h.seqAnnouncements.trans h'.seqAnnouncements⟩

theorem Sub.after (h : Sub db' db) : After db db' :=
  ⟨fun _ hn _ => h.nodes.subset hn, fun _ ha _ => h.announcements.subset ha, h.seqNodes.ge,
    h.seqAnnouncements.ge⟩

/-- The row is the only one its id can ever name from this database on. -/
def KnowsNode (db : DB) (n : Node) : Prop :=
  n.id ≤ db.seqNodes ∧ ∀ n' ∈ db.nodes, n'.id = n.id → n' = n

def KnowsAnnouncement (db : DB) (a : Announcement) : Prop :=
  a.id ≤ db.seqAnnouncements ∧ ∀ a' ∈ db.announcements, a'.id = a.id → a' = a

theorem Wf.knowsNode (h : db.Wf) {n : Node} (hn : n ∈ db.nodes) : db.KnowsNode n :=
  ⟨h.nodes_seq n hn, fun n' hn' hid => h.nodes_asc.keyed n' hn' n hn hid⟩

theorem Wf.knowsAnnouncement (h : db.Wf) {a : Announcement} (ha : a ∈ db.announcements) :
    db.KnowsAnnouncement a :=
  ⟨h.announcements_seq a ha, fun a' ha' hid => h.announcements_asc.keyed a' ha' a ha hid⟩

theorem KnowsNode.after {n : Node} (h : db.KnowsNode n) (ha : After db db') : db'.KnowsNode n :=
  ⟨h.1.trans ha.seqNodes, fun n' hn' hid => h.2 n' (ha.nodes n' hn' (hid ▸ h.1)) hid⟩

theorem KnowsAnnouncement.after {a : Announcement} (h : db.KnowsAnnouncement a)
    (ha : After db db') : db'.KnowsAnnouncement a :=
  ⟨h.1.trans ha.seqAnnouncements,
    fun a' ha' hid => h.2 a' (ha.announcements a' ha' (hid ▸ h.1)) hid⟩

/-- After removals only the foreign keys can fail. -/
theorem Wf.of_sub (h : db.Wf) (hs : Sub db' db)
    (node_user : ∀ n ∈ db'.nodes, ∃ u ∈ db'.users, u.id = n.userID)
    (zone_owner : ∀ z ∈ db'.zones, ∃ u ∈ db'.users, u.id = z.ownerID)
    (member_zone : ∀ m ∈ db'.zoneMembers, ∃ z ∈ db'.zones, z.id = m.zoneID)
    (member_node : ∀ m ∈ db'.zoneMembers, ∃ n ∈ db'.nodes, n.id = m.nodeID)
    (announcement_node : ∀ a ∈ db'.announcements, ∃ n ∈ db'.nodes, n.id = a.nodeID)
    (attachment_announcement : ∀ az ∈ db'.announcementZones,
      ∃ a ∈ db'.announcements, a.id = az.announcementID)
    (attachment_zone : ∀ az ∈ db'.announcementZones, ∃ z ∈ db'.zones, z.id = az.zoneID) :
    db'.Wf where
  users_asc := h.users_asc.sublist hs.users
  users_seq u hu := hs.seqUsers ▸ h.users_seq u (hs.users.subset hu)
  nodes_asc := h.nodes_asc.sublist hs.nodes
  nodes_seq n hn := hs.seqNodes ▸ h.nodes_seq n (hs.nodes.subset hn)
  node_user := node_user
  node_key := h.node_key.subset hs.nodes.subset
  node_ip := h.node_ip.subset hs.nodes.subset
  node_name := h.node_name.subset hs.nodes.subset
  zones_asc := h.zones_asc.sublist hs.zones
  zones_seq z hz := hs.seqZones ▸ h.zones_seq z (hs.zones.subset hz)
  zone_owner := zone_owner
  zone_name := h.zone_name.subset hs.zones.subset
  members_nodup := h.members_nodup.sublist hs.zoneMembers
  member_zone := member_zone
  member_node := member_node
  announcements_asc := h.announcements_asc.sublist hs.announcements
  announcements_seq a ha := hs.seqAnnouncements ▸ h.announcements_seq a (hs.announcements.subset ha)
  announcement_node := announcement_node
  announcement_real := h.announcement_real.subset hs.announcements.subset
  announcement_synthetic := h.announcement_synthetic.subset hs.announcements.subset
  attachments_nodup := h.attachments_nodup.sublist hs.announcementZones
  attachment_announcement := attachment_announcement
  attachment_zone := attachment_zone

theorem empty_wf : empty.Wf := by
  constructor <;> simp [empty, Ascending, Keyed]

theorem sub_deleteMember (db : DB) (m : ZoneMember) : Sub (db.deleteMember m) db :=
  { Sub.refl db with zoneMembers := List.filter_sublist }

theorem sub_deleteAttachments (db : DB) (p : AnnouncementZone → Bool) :
    Sub (db.deleteAttachments p) db :=
  { Sub.refl db with announcementZones := List.filter_sublist }

theorem sub_deleteAnnouncements (db : DB) (p : Announcement → Bool) :
    Sub (db.deleteAnnouncements p) db :=
  { Sub.refl db with announcements := List.filter_sublist, announcementZones := List.filter_sublist }

theorem sub_deleteZones (db : DB) (p : Zone → Bool) : Sub (db.deleteZones p) db :=
  { Sub.refl db with
    zones := List.filter_sublist
    zoneMembers := List.filter_sublist
    announcementZones := List.filter_sublist }

theorem sub_deleteNodes (db : DB) (p : Node → Bool) : Sub (db.deleteNodes p) db :=
  { sub_deleteAnnouncements db _ with
    nodes := List.filter_sublist
    zoneMembers := List.filter_sublist }

theorem sub_deleteUser (db : DB) (userID : Int) : Sub (db.deleteUser userID) db :=
  { (sub_deleteZones _ _).trans (sub_deleteNodes db _) with users := List.filter_sublist }

theorem Wf.deleteMember (h : db.Wf) (m : ZoneMember) : (db.deleteMember m).Wf :=
  h.of_sub (sub_deleteMember db m) h.node_user h.zone_owner
    (fun x hx => h.member_zone x (List.mem_of_mem_filter hx))
    (fun x hx => h.member_node x (List.mem_of_mem_filter hx))
    h.announcement_node h.attachment_announcement h.attachment_zone

theorem Wf.deleteAttachments (h : db.Wf) (p : AnnouncementZone → Bool) :
    (db.deleteAttachments p).Wf :=
  h.of_sub (sub_deleteAttachments db p) h.node_user h.zone_owner h.member_zone h.member_node
    h.announcement_node (fun x hx => h.attachment_announcement x (List.mem_of_mem_filter hx))
    (fun x hx => h.attachment_zone x (List.mem_of_mem_filter hx))

theorem mem_deleteAnnouncements {p : Announcement → Bool} {a : Announcement} :
    a ∈ (db.deleteAnnouncements p).announcements ↔ a ∈ db.announcements ∧ p a = false := by
  simp [DB.deleteAnnouncements, List.mem_filter]

theorem mem_deleteAnnouncements_attachments {p : Announcement → Bool} {az : AnnouncementZone} :
    az ∈ (db.deleteAnnouncements p).announcementZones ↔ az ∈ db.announcementZones ∧
      ∀ a ∈ db.announcements, a.id = az.announcementID → p a = false := by
  simp only [DB.deleteAnnouncements, List.mem_filter, Bool.not_eq_true', any_and_id_eq_false]

theorem mem_deleteZones {p : Zone → Bool} {z : Zone} :
    z ∈ (db.deleteZones p).zones ↔ z ∈ db.zones ∧ p z = false := by
  simp [DB.deleteZones, List.mem_filter]

theorem mem_deleteZones_members {p : Zone → Bool} {m : ZoneMember} :
    m ∈ (db.deleteZones p).zoneMembers ↔ m ∈ db.zoneMembers ∧
      ∀ z ∈ db.zones, z.id = m.zoneID → p z = false := by
  simp only [DB.deleteZones, List.mem_filter, Bool.not_eq_true', any_and_id_eq_false]

theorem mem_deleteZones_attachments {p : Zone → Bool} {az : AnnouncementZone} :
    az ∈ (db.deleteZones p).announcementZones ↔ az ∈ db.announcementZones ∧
      ∀ z ∈ db.zones, z.id = az.zoneID → p z = false := by
  simp only [DB.deleteZones, List.mem_filter, Bool.not_eq_true', any_and_id_eq_false]

theorem mem_deleteNodes {p : Node → Bool} {n : Node} :
    n ∈ (db.deleteNodes p).nodes ↔ n ∈ db.nodes ∧ p n = false := by
  simp [DB.deleteNodes, List.mem_filter]

theorem mem_deleteNodes_members {p : Node → Bool} {m : ZoneMember} :
    m ∈ (db.deleteNodes p).zoneMembers ↔ m ∈ db.zoneMembers ∧
      ∀ n ∈ db.nodes, n.id = m.nodeID → p n = false := by
  simp only [DB.deleteNodes, List.mem_filter, Bool.not_eq_true', any_and_id_eq_false]

theorem mem_deleteNodes_announcements {p : Node → Bool} {a : Announcement} :
    a ∈ (db.deleteNodes p).announcements ↔ a ∈ db.announcements ∧
      ∀ n ∈ db.nodes, n.id = a.nodeID → p n = false := by
  rw [show (db.deleteNodes p).announcements = (db.deleteAnnouncements fun a =>
    db.nodes.any fun n => p n && n.id = a.nodeID).announcements from rfl, mem_deleteAnnouncements,
    any_and_id_eq_false]

theorem mem_deleteNodes_attachments {p : Node → Bool} {az : AnnouncementZone} :
    az ∈ (db.deleteNodes p).announcementZones ↔ az ∈ db.announcementZones ∧
      ∀ a ∈ db.announcements, a.id = az.announcementID →
        ∀ n ∈ db.nodes, n.id = a.nodeID → p n = false := by
  rw [show (db.deleteNodes p).announcementZones = (db.deleteAnnouncements fun a =>
    db.nodes.any fun n => p n && n.id = a.nodeID).announcementZones from rfl,
    mem_deleteAnnouncements_attachments]
  exact and_congr_right fun _ => forall₃_congr fun a _ _ => any_and_id_eq_false

theorem Wf.deleteAnnouncements (h : db.Wf) (p : Announcement → Bool) :
    (db.deleteAnnouncements p).Wf := by
  refine h.of_sub (sub_deleteAnnouncements db p) h.node_user h.zone_owner h.member_zone
    h.member_node (fun a ha => h.announcement_node a (mem_deleteAnnouncements.mp ha).1)
    (fun az haz => ?_) fun az haz => h.attachment_zone az (mem_deleteAnnouncements_attachments.mp haz).1
  obtain ⟨haz, hp⟩ := mem_deleteAnnouncements_attachments.mp haz
  obtain ⟨a, ha, hid⟩ := h.attachment_announcement az haz
  exact ⟨a, mem_deleteAnnouncements.mpr ⟨ha, hp a ha hid⟩, hid⟩

theorem Wf.deleteZones (h : db.Wf) (p : Zone → Bool) : (db.deleteZones p).Wf := by
  refine h.of_sub (sub_deleteZones db p) h.node_user
    (fun z hz => h.zone_owner z (mem_deleteZones.mp hz).1) (fun m hm => ?_)
    (fun m hm => h.member_node m (mem_deleteZones_members.mp hm).1) h.announcement_node
    (fun az haz => h.attachment_announcement az (mem_deleteZones_attachments.mp haz).1)
    fun az haz => ?_
  · obtain ⟨hm, hp⟩ := mem_deleteZones_members.mp hm
    obtain ⟨z, hz, hid⟩ := h.member_zone m hm
    exact ⟨z, mem_deleteZones.mpr ⟨hz, hp z hz hid⟩, hid⟩
  · obtain ⟨haz, hp⟩ := mem_deleteZones_attachments.mp haz
    obtain ⟨z, hz, hid⟩ := h.attachment_zone az haz
    exact ⟨z, mem_deleteZones.mpr ⟨hz, hp z hz hid⟩, hid⟩

theorem Wf.deleteNodes (h : db.Wf) (p : Node → Bool) : (db.deleteNodes p).Wf := by
  have hd := h.deleteAnnouncements fun a => db.nodes.any fun n => p n && n.id = a.nodeID
  refine h.of_sub (sub_deleteNodes db p) (fun n hn => h.node_user n (mem_deleteNodes.mp hn).1)
    h.zone_owner (fun m hm => h.member_zone m (mem_deleteNodes_members.mp hm).1) (fun m hm => ?_)
    (fun a ha => ?_) hd.attachment_announcement hd.attachment_zone
  · obtain ⟨hm, hp⟩ := mem_deleteNodes_members.mp hm
    obtain ⟨n, hn, hid⟩ := h.member_node m hm
    exact ⟨n, mem_deleteNodes.mpr ⟨hn, hp n hn hid⟩, hid⟩
  · obtain ⟨ha, hp⟩ := mem_deleteNodes_announcements.mp ha
    obtain ⟨n, hn, hid⟩ := h.announcement_node a ha
    exact ⟨n, mem_deleteNodes.mpr ⟨hn, hp n hn hid⟩, hid⟩

theorem Wf.deleteUser (h : db.Wf) (userID : Int) : (db.deleteUser userID).Wf := by
  have hd := (h.deleteNodes fun n => n.userID = userID).deleteZones fun z => z.ownerID = userID
  refine h.of_sub (sub_deleteUser db userID) (fun n hn => ?_) (fun z hz => ?_) hd.member_zone
    hd.member_node hd.announcement_node hd.attachment_announcement hd.attachment_zone
  · obtain ⟨hn, hu⟩ := mem_deleteNodes.mp hn
    obtain ⟨u, hmem, hid⟩ := h.node_user n hn
    refine ⟨u, List.mem_filter.mpr ⟨hmem, ?_⟩, hid⟩
    simpa [hid] using hu
  · obtain ⟨hz, hu⟩ := mem_deleteZones.mp hz
    obtain ⟨u, hmem, hid⟩ := h.zone_owner z hz
    refine ⟨u, List.mem_filter.mpr ⟨hmem, ?_⟩, hid⟩
    simpa [hid] using hu

theorem hasUser_iff {userID : Int} : db.hasUser userID = true ↔ ∃ u ∈ db.users, u.id = userID := by
  simp [hasUser]

theorem hasNode_iff {nodeID : Int} : db.hasNode nodeID = true ↔ ∃ n ∈ db.nodes, n.id = nodeID := by
  simp [hasNode]

theorem hasZone_iff {zoneID : Int} : db.hasZone zoneID = true ↔ ∃ z ∈ db.zones, z.id = zoneID := by
  simp [hasZone]

theorem hasAnnouncement_iff {annID : Int} :
    db.hasAnnouncement annID = true ↔ ∃ a ∈ db.announcements, a.id = annID := by
  simp [hasAnnouncement]

theorem Wf.addUser (h : db.Wf) (username passwordHash : String) (isAdmin : Bool) :
    (db.addUser username passwordHash isAdmin).Wf :=
  { h with
    users_asc := h.users_asc.append fun u hu => Int.lt_add_one_iff.mpr (h.users_seq u hu)
    users_seq := by
      intro u hu
      simp only [DB.addUser, List.mem_append, List.mem_singleton] at hu ⊢
      rcases hu with hu | rfl
      · exact (h.users_seq u hu).trans (by omega)
      · exact le_rfl
    node_user := fun n hn =>
      (h.node_user n hn).imp fun u hu => ⟨List.mem_append_left _ hu.1, hu.2⟩
    zone_owner := fun z hz =>
      (h.zone_owner z hz).imp fun u hu => ⟨List.mem_append_left _ hu.1, hu.2⟩ }

theorem Wf.addNode (h : db.Wf) {userID : Int} {name pubKey : String} {ip : BitVec 32}
    (platform : String) (huser : ∃ u ∈ db.users, u.id = userID)
    (hname : ∀ n ∈ db.nodes, (n.userID, n.name) ≠ (userID, name))
    (hip : ∀ n ∈ db.nodes, n.ip ≠ ip) (hkey : ∀ n ∈ db.nodes, n.pubKey ≠ pubKey) :
    (db.addNode userID name pubKey ip platform).Wf :=
  { h with
    nodes_asc := h.nodes_asc.append fun n hn => Int.lt_add_one_iff.mpr (h.nodes_seq n hn)
    nodes_seq := by
      intro n hn
      simp only [DB.addNode, List.mem_append, List.mem_singleton] at hn ⊢
      rcases hn with hn | rfl
      · exact (h.nodes_seq n hn).trans (by omega)
      · exact le_rfl
    node_user := by
      intro n hn
      simp only [DB.addNode, List.mem_append, List.mem_singleton] at hn
      rcases hn with hn | rfl
      · exact h.node_user n hn
      · exact huser
    node_key := h.node_key.append hkey
    node_ip := h.node_ip.append hip
    node_name := h.node_name.append hname
    member_node := fun m hm =>
      (h.member_node m hm).imp fun n hn => ⟨List.mem_append_left _ hn.1, hn.2⟩
    announcement_node := fun a ha =>
      (h.announcement_node a ha).imp fun n hn => ⟨List.mem_append_left _ hn.1, hn.2⟩ }

theorem Wf.addZone (h : db.Wf) {name passwordHash : String} {ownerID : Int}
    (howner : ∃ u ∈ db.users, u.id = ownerID) (hname : ∀ z ∈ db.zones, z.name ≠ name) :
    (db.addZone name passwordHash ownerID).Wf :=
  { h with
    zones_asc := h.zones_asc.append fun z hz => Int.lt_add_one_iff.mpr (h.zones_seq z hz)
    zones_seq := by
      intro z hz
      simp only [DB.addZone, List.mem_append, List.mem_singleton] at hz ⊢
      rcases hz with hz | rfl
      · exact (h.zones_seq z hz).trans (by omega)
      · exact le_rfl
    zone_owner := by
      intro z hz
      simp only [DB.addZone, List.mem_append, List.mem_singleton] at hz
      rcases hz with hz | rfl
      · exact h.zone_owner z hz
      · exact howner
    zone_name := h.zone_name.append hname
    member_zone := fun m hm =>
      (h.member_zone m hm).imp fun z hz => ⟨List.mem_append_left _ hz.1, hz.2⟩
    attachment_zone := fun az haz =>
      (h.attachment_zone az haz).imp fun z hz => ⟨List.mem_append_left _ hz.1, hz.2⟩ }

theorem nodup_append_singleton {α : Type} {l : List α} {a : α} (h : l.Nodup) (ha : a ∉ l) :
    (l ++ [a]).Nodup :=
  List.nodup_append.mpr ⟨h, List.nodup_singleton a, fun x hx y hy => by
    rintro rfl
    exact ha (List.mem_singleton.mp hy ▸ hx)⟩

theorem Wf.addMember (h : db.Wf) {m : ZoneMember} (hm : m ∉ db.zoneMembers)
    (hzone : ∃ z ∈ db.zones, z.id = m.zoneID) (hnode : ∃ n ∈ db.nodes, n.id = m.nodeID) :
    (db.addMember m).Wf :=
  { h with
    members_nodup := nodup_append_singleton h.members_nodup hm
    member_zone := by
      intro x hx
      simp only [DB.addMember, List.mem_append, List.mem_singleton] at hx
      rcases hx with hx | rfl
      · exact h.member_zone x hx
      · exact hzone
    member_node := by
      intro x hx
      simp only [DB.addMember, List.mem_append, List.mem_singleton] at hx
      rcases hx with hx | rfl
      · exact h.member_node x hx
      · exact hnode }

theorem Wf.addAnnouncement (h : db.Wf) {nodeID : Int} {real : Block} {syntheticBase : BitVec 32}
    (hnode : ∃ n ∈ db.nodes, n.id = nodeID)
    (hreal : ∀ a ∈ db.announcements, (a.nodeID, a.real) ≠ (nodeID, real))
    (hsynth : ∀ a ∈ db.announcements, a.synthetic ≠ ⟨syntheticBase, real.prefixLen⟩) :
    (db.addAnnouncement nodeID real syntheticBase).Wf :=
  { h with
    announcements_asc := h.announcements_asc.append fun a ha =>
      Int.lt_add_one_iff.mpr (h.announcements_seq a ha)
    announcements_seq := by
      intro a ha
      simp only [DB.addAnnouncement, List.mem_append, List.mem_singleton] at ha ⊢
      rcases ha with ha | rfl
      · exact (h.announcements_seq a ha).trans (by omega)
      · exact le_rfl
    announcement_node := by
      intro a ha
      simp only [DB.addAnnouncement, List.mem_append, List.mem_singleton] at ha
      rcases ha with ha | rfl
      · exact h.announcement_node a ha
      · exact hnode
    announcement_real := h.announcement_real.append hreal
    announcement_synthetic := h.announcement_synthetic.append hsynth
    attachment_announcement := fun az haz =>
      (h.attachment_announcement az haz).imp fun a ha => ⟨List.mem_append_left _ ha.1, ha.2⟩ }

theorem Wf.attach (h : db.Wf) {az : AnnouncementZone} (haz : az ∉ db.announcementZones)
    (hann : ∃ a ∈ db.announcements, a.id = az.announcementID)
    (hzone : ∃ z ∈ db.zones, z.id = az.zoneID) : (db.attach az).Wf :=
  { h with
    attachments_nodup := nodup_append_singleton h.attachments_nodup haz
    attachment_announcement := by
      intro x hx
      simp only [DB.attach, List.mem_append, List.mem_singleton] at hx
      rcases hx with hx | rfl
      · exact h.attachment_announcement x hx
      · exact hann
    attachment_zone := by
      intro x hx
      simp only [DB.attach, List.mem_append, List.mem_singleton] at hx
      rcases hx with hx | rfl
      · exact h.attachment_zone x hx
      · exact hzone }

end LanWeave.DB

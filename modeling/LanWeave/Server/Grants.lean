import LanWeave.Server.Rebuild
import LanWeave.Server.StoreCases

/-! What the dataplane grants and what of it the database backs: the addresses and ranges in
the sets, the peers of the device. -/

namespace LanWeave
open Library

inductive Grant (κ : Type)
  | member (zoneID : Int) (ip : BitVec 32)
  | route (zoneID : Int) (r : Range)
  | peer (key : κ)

variable {κ : Type} (parseKey : String → Option κ)

def World.Grants (w : World κ) : Grant κ → Prop
  | .member z ip => w.nft.HasMember z ip
  | .route z r => w.nft.HasRoute z r
  | .peer key => (w.wg key).isSome

def DB.HasKey (db : DB) (key : κ) : Prop := ∃ n ∈ db.nodes, parseKey n.pubKey = some key

def DB.Backs (db : DB) : Grant κ → Prop
  | .member z ip => db.MemberIP z ip
  | .route z r => db.ZoneRange z r
  | .peer key => db.HasKey parseKey key

/-- Granted without a row that backs it. -/
def World.Stale (w : World κ) (x : Grant κ) : Prop := w.Grants x ∧ ¬ w.db.Backs parseKey x

theorem grants_rebuilt [DecidableEq κ] {db : DB} (h : db.Wf) (x : Grant κ) :
    (World.mk db (rebuildZoneRules db) (db.device parseKey)).Grants x ↔ db.Backs parseKey x := by
  cases x with
  | member z ip =>
    simp only [World.Grants, Nft.HasMember, rebuildZoneRules_members h, DB.Backs]
    constructor
    · rintro ⟨set, hset, hip⟩
      split_ifs at hset
      rw [← Option.some.inj hset] at hip
      exact (DB.mem_memberSet h).mp hip
    · intro hip
      obtain ⟨m, hm, rfl, -⟩ := id hip
      rw [if_pos (DB.hasZone_iff.mpr (h.member_zone m hm))]
      exact ⟨_, rfl, (DB.mem_memberSet h).mpr hip⟩
  | route z r =>
    simp only [World.Grants, Nft.HasRoute, rebuildZoneRules_routes h, DB.Backs]
    constructor
    · rintro ⟨set, hset, hr⟩
      split_ifs at hset
      rw [← Option.some.inj hset] at hr
      exact (DB.mem_rangeSet h).mp hr
    · intro hr
      obtain ⟨az, haz, rfl, -⟩ := id hr
      rw [if_pos (DB.hasZone_iff.mpr (h.attachment_zone az haz))]
      exact ⟨_, rfl, (DB.mem_rangeSet h).mpr hr⟩
  | peer key =>
    simp only [World.Grants, DB.device, DB.Backs, DB.HasKey, Option.isSome_map, List.find?_isSome,
      decide_eq_true_eq]

namespace DB
variable {parseKey} {db db' : DB}

theorem Sub.backs (hs : Sub db' db) {x : Grant κ} (h : db'.Backs parseKey x) :
    db.Backs parseKey x := by
  cases x with
  | member z ip =>
    obtain ⟨m, hm, hz, n, hn, hid⟩ := h
    exact ⟨m, hs.zoneMembers.subset hm, hz, n, hs.nodes.subset hn, hid⟩
  | route z r =>
    obtain ⟨az, haz, hz, a, ha, hid⟩ := h
    exact ⟨az, hs.announcementZones.subset haz, hz, a, hs.announcements.subset ha, hid⟩
  | peer key =>
    obtain ⟨n, hn, hkey⟩ := h
    exact ⟨n, hs.nodes.subset hn, hkey⟩

theorem backs_mono {x : Grant κ} (h : db.Backs parseKey x) (hn : db.nodes ⊆ db'.nodes)
    (hm : db.zoneMembers ⊆ db'.zoneMembers) (ha : db.announcements ⊆ db'.announcements)
    (hz : db.announcementZones ⊆ db'.announcementZones) : db'.Backs parseKey x := by
  cases x with
  | member z ip =>
    obtain ⟨m, hmem, hid, n, hnode, hip⟩ := h
    exact ⟨m, hm hmem, hid, n, hn hnode, hip⟩
  | route z r =>
    obtain ⟨az, haz, hid, a, hann, hr⟩ := h
    exact ⟨az, hz haz, hid, a, ha hann, hr⟩
  | peer key =>
    obtain ⟨n, hnode, hkey⟩ := h
    exact ⟨n, hn hnode, hkey⟩

/-- A statement that does not remove takes no backing away. -/
theorem backs_of_change {o : StoreOp} (hc : StoreOp.Change db o db') (ho : o.Removes = false)
    {x : Grant κ} (h : db.Backs parseKey x) : db'.Backs parseKey x := by
  have hrefl : ∀ {α : Type} (l : List α), l ⊆ l := fun l => List.Subset.refl l
  have happ : ∀ {α : Type} (l l' : List α), l ⊆ l ++ l' := fun l l' => List.subset_append_left l l'
  cases hc with
  | same => exact h
  | removed op => exact absurd (ho.symm.trans op) Bool.false_ne_true
  | node => exact backs_mono h (happ _ _) (hrefl _) (hrefl _) (hrefl _)
  | member => exact backs_mono h (hrefl _) (happ _ _) (hrefl _) (hrefl _)
  | attachment => exact backs_mono h (hrefl _) (hrefl _) (hrefl _) (happ _ _)
  | announcement => exact backs_mono h (hrefl _) (hrefl _) (happ _ _) (happ _ _)
  | user | zone => exact backs_mono h (hrefl _) (hrefl _) (hrefl _) (hrefl _)

section
variable {x : Grant κ} (hx : db.Backs parseKey x)
include hx

theorem lost_deleteMember {m : ZoneMember} (h' : ¬ (db.deleteMember m).Backs parseKey x) :
    ∃ n ∈ db.nodes, n.id = m.nodeID ∧ x = .member m.zoneID n.ip := by
  cases x with
  | member z ip =>
    obtain ⟨m', hm, rfl, n, hn, hid, rfl⟩ := hx
    by_cases hmm : m' = m
    · exact ⟨n, hn, hmm ▸ hid, hmm ▸ rfl⟩
    · exact absurd ⟨m', List.mem_filter.mpr ⟨hm, by simpa using hmm⟩, rfl, n, hn, hid, rfl⟩ h'
  | route | peer => exact absurd hx h'

theorem lost_deleteZones {p : Zone → Bool} (h' : ¬ (db.deleteZones p).Backs parseKey x) :
    ∃ z ∈ db.zones, p z = true ∧ ((∃ ip, x = .member z.id ip) ∨ ∃ r, x = .route z.id r) := by
  by_contra hno
  push Not at hno
  cases x with
  | member z ip =>
    obtain ⟨m, hm, rfl, hn⟩ := hx
    refine h' ⟨m, mem_deleteZones_members.mpr ⟨hm, fun z hz hid => ?_⟩, rfl, hn⟩
    by_contra hp
    exact (hno z hz (by simpa using hp)).1 ip (by rw [hid])
  | route z r =>
    obtain ⟨az, haz, rfl, ha⟩ := hx
    refine h' ⟨az, mem_deleteZones_attachments.mpr ⟨haz, fun z hz hid => ?_⟩, rfl, ha⟩
    by_contra hp
    exact (hno z hz (by simpa using hp)).2 r (by rw [hid])
  | peer key => exact h' hx

theorem lost_deleteAttachments {p : AnnouncementZone → Bool}
    (h' : ¬ (db.deleteAttachments p).Backs parseKey x) :
    ∃ az ∈ db.announcementZones, p az = true ∧ ∃ a ∈ db.announcements, a.id = az.announcementID ∧
      x = .route az.zoneID (rangeElements a.synthetic.toPrefix) := by
  cases x with
  | route z r =>
    obtain ⟨az, haz, rfl, a, ha, hid, rfl⟩ := hx
    refine ⟨az, haz, ?_, a, ha, hid, rfl⟩
    by_contra hp
    exact h' ⟨az, List.mem_filter.mpr ⟨haz, by simpa using hp⟩, rfl, a, ha, hid, rfl⟩
  | member | peer => exact absurd hx h'

theorem lost_deleteAnnouncements (hw : db.Wf) {p : Announcement → Bool}
    (h' : ¬ (db.deleteAnnouncements p).Backs parseKey x) :
    ∃ a ∈ db.announcements, p a = true ∧ ∃ az ∈ db.announcementZones, az.announcementID = a.id := by
  cases x with
  | route z r =>
    obtain ⟨az, haz, rfl, a, ha, hid, rfl⟩ := hx
    refine ⟨a, ha, ?_, az, haz, hid.symm⟩
    by_contra hp
    have hpa : p a = false := by simpa using hp
    refine h' ⟨az, mem_deleteAnnouncements_attachments.mpr ⟨haz, fun b hb hb' => ?_⟩, rfl, a,
      mem_deleteAnnouncements.mpr ⟨ha, hpa⟩, hid, rfl⟩
    rwa [hw.announcements_asc.keyed b hb a ha (hb'.trans hid.symm)]
  | member | peer => exact absurd hx h'

theorem backs_reclaimIfOrphaned (hw : db.Wf) (annID : Int) :
    (db.reclaimIfOrphaned annID).2.Backs parseKey x := by
  unfold reclaimIfOrphaned
  split_ifs with hatt
  · exact hx
  · by_contra h'
    obtain ⟨a, ha, hp, az, haz, hid⟩ := lost_deleteAnnouncements hx hw h'
    refine hatt (List.any_eq_true.mpr ⟨az, haz, ?_⟩)
    simpa [hid] using hp

theorem lost_detachOne (hw : db.Wf) {annID zoneID : Int}
    (h' : ¬ (db.detachOne annID zoneID).Backs parseKey x) :
    ∃ a ∈ db.announcements, a.id = annID ∧ x = .route zoneID (rangeElements a.synthetic.toPrefix) := by
  by_cases hmid : (db.deleteAttachments (· = ⟨annID, zoneID⟩)).Backs parseKey x
  · exact absurd (backs_reclaimIfOrphaned hmid (hw.deleteAttachments _) annID) h'
  · obtain ⟨az, -, hp, a, ha, hid, rfl⟩ := lost_deleteAttachments hx hmid
    obtain rfl : az = ⟨annID, zoneID⟩ := by simpa using hp
    exact ⟨a, ha, hid, rfl⟩

theorem lost_detachEach {zoneID : Int} {recs : List Announcement} (hw : db.Wf)
    (hrecs : ∀ a ∈ recs, db.KnowsAnnouncement a)
    (h' : ¬ (detachEach zoneID recs db).2.Backs parseKey x) :
    ∃ det ∈ (detachEach zoneID recs db).1, x = .route zoneID (rangeElements det.synthetic) := by
  induction recs generalizing db with
  | nil => exact absurd hx h'
  | cons a recs ih =>
    by_cases hmid : (db.detachOne a.id zoneID).Backs parseKey x
    · obtain ⟨det, hdet, hxd⟩ := ih hmid (hw.detachOne a.id zoneID) (fun b hb =>
        (hrecs b (List.mem_cons_of_mem _ hb)).after (sub_detachOne db a.id zoneID).after) h'
      exact ⟨det, List.mem_cons_of_mem _ hdet, hxd⟩
    · obtain ⟨b, hb, hid, rfl⟩ := lost_detachOne hx hw hmid
      obtain rfl := (hrecs a List.mem_cons_self).2 b hb hid
      exact ⟨_, List.mem_cons_self, rfl⟩

theorem backs_reclaimEach (hw : db.Wf) (zoneID : Int) (dets : List Announcement) :
    (reclaimEach zoneID dets db).2.Backs parseKey x := by
  induction dets generalizing db with
  | nil => exact hx
  | cons a dets ih => exact ih (backs_reclaimIfOrphaned hx hw a.id) (hw.reclaimIfOrphaned a.id)

theorem lost_detachAllForZone (hw : db.Wf) {zoneID : Int}
    (h' : ¬ (db.detachAllForZone zoneID).2.Backs parseKey x) : ∃ r, x = .route zoneID r := by
  by_cases hmid : (db.deleteAttachments (·.zoneID = zoneID)).Backs parseKey x
  · exact absurd (backs_reclaimEach hmid (hw.deleteAttachments _) zoneID _) h'
  · obtain ⟨az, -, hz, a, -, -, rfl⟩ := lost_deleteAttachments hx hmid
    exact ⟨_, by rw [← (by simpa using hz : az.zoneID = zoneID)]⟩

theorem lost_deleteNodes (hw : db.Wf) {p : Node → Bool}
    (h' : ¬ (db.deleteNodes p).Backs parseKey x) :
    ∃ n ∈ db.nodes, p n = true ∧
      ((∃ m ∈ db.zoneMembers, m.nodeID = n.id ∧ x = .member m.zoneID n.ip) ∨
      (∃ a ∈ db.announcements, a.nodeID = n.id ∧ ∃ az ∈ db.announcementZones,
        az.announcementID = a.id ∧ x = .route az.zoneID (rangeElements a.synthetic.toPrefix)) ∨
      ∃ key, parseKey n.pubKey = some key ∧ x = .peer key) := by
  cases x with
  | member z ip =>
    obtain ⟨m, hm, rfl, n, hn, hid, rfl⟩ := hx
    refine ⟨n, hn, ?_, .inl ⟨m, hm, hid.symm, rfl⟩⟩
    by_contra hp
    have hpn : p n = false := by simpa using hp
    refine h' ⟨m, mem_deleteNodes_members.mpr ⟨hm, fun n' hn' hid' => ?_⟩, rfl, n,
      mem_deleteNodes.mpr ⟨hn, hpn⟩, hid, rfl⟩
    rwa [hw.nodes_asc.keyed n' hn' n hn (hid'.trans hid.symm)]
  | route z r =>
    obtain ⟨az, haz, rfl, a, ha, hid, rfl⟩ := hx
    obtain ⟨n, hn, hna⟩ := hw.announcement_node a ha
    refine ⟨n, hn, ?_, .inr (.inl ⟨a, ha, hna.symm, az, haz, hid.symm, rfl⟩)⟩
    by_contra hp
    have hpn : p n = false := by simpa using hp
    have hkeep : ∀ n' ∈ db.nodes, n'.id = a.nodeID → p n' = false := fun n' hn' hid' => by
      rwa [hw.nodes_asc.keyed n' hn' n hn (hid'.trans hna.symm)]
    refine h' ⟨az, mem_deleteNodes_attachments.mpr ⟨haz, fun b hb hb' => ?_⟩, rfl, a,
      mem_deleteNodes_announcements.mpr ⟨ha, hkeep⟩, hid, rfl⟩
    obtain rfl := hw.announcements_asc.keyed b hb a ha (hb'.trans hid.symm)
    exact hkeep
  | peer key =>
    obtain ⟨n, hn, hkey⟩ := hx
    refine ⟨n, hn, ?_, .inr (.inr ⟨key, hkey, rfl⟩)⟩
    by_contra hp
    exact h' ⟨n, mem_deleteNodes.mpr ⟨hn, by simpa using hp⟩, hkey⟩

theorem lost_deleteUser (hw : db.Wf) {userID : Int}
    (h' : ¬ (db.deleteUser userID).Backs parseKey x) :
    (∃ z ∈ db.zones, z.ownerID = userID ∧ ((∃ ip, x = .member z.id ip) ∨ ∃ r, x = .route z.id r)) ∨
    ∃ n ∈ db.nodes, n.userID = userID ∧
      ((∃ m ∈ db.zoneMembers, m.nodeID = n.id ∧ x = .member m.zoneID n.ip) ∨
      (∃ a ∈ db.announcements, a.nodeID = n.id ∧ ∃ az ∈ db.announcementZones,
        az.announcementID = a.id ∧ x = .route az.zoneID (rangeElements a.synthetic.toPrefix)) ∨
      ∃ key, parseKey n.pubKey = some key ∧ x = .peer key) := by
  by_cases hmid : (db.deleteNodes fun n => n.userID = userID).Backs parseKey x
  · have hz : ¬ ((db.deleteNodes fun n => n.userID = userID).deleteZones fun z =>
        z.ownerID = userID).Backs parseKey x := by cases x <;> exact h'
    obtain ⟨z, hz, hp, hxz⟩ := lost_deleteZones hmid hz
    exact .inl ⟨z, hz, by simpa using hp, hxz⟩
  · obtain ⟨n, hn, hp, hxn⟩ := lost_deleteNodes hx hw hmid
    exact .inr ⟨n, hn, by simpa using hp, hxn⟩

/-- What a user deletion leaves without backing is in one of the lists it returns. -/
theorem lost_deleteCascade (hw : db.Wf) {targetID : Int} {r : DeletionResult}
    (hr : (db.deleteCascade targetID).1 = .ok r)
    (h' : ¬ (db.deleteCascade targetID).2.Backs parseKey x) :
    (∃ pub ∈ r.nodePubKeys, ∃ key, parseKey pub = some key ∧ x = .peer key) ∨
    (∃ m ∈ r.survivingMemberships, x = .member m.zoneID (addrToUint32 m.ip)) ∨
    (∃ z ∈ r.ownedZoneIDs, (∃ ip, x = .member z ip) ∨ ∃ r, x = .route z r) ∨
    ∃ route ∈ r.survivingZoneRoutes, x = .route route.zoneID (rangeElements route.synthetic) := by
  rcases deleteCascade_cases db targetID with
    ⟨-, e, he⟩ | ⟨r', hr', hkeys, hmembers, hzones, hroutes, orphans, horphans, -, hdb⟩
  · rw [he] at hr
    cases hr
  obtain rfl : r' = r := by
    rw [hr'] at hr
    exact Except.ok.inj hr
  -- the orphans deleted last have no attachment, so they back nothing
  have hlost : ¬ (db.deleteUser targetID).Backs parseKey x := by
    intro hmid
    rw [hdb] at h'
    obtain ⟨a, ha, hp, az, haz, hid⟩ :=
      lost_deleteAnnouncements hmid (hw.deleteUser targetID) h'
    obtain ⟨b, hb', hbid⟩ := List.any_eq_true.mp hp
    rw [horphans, List.mem_filter, Bool.and_eq_true, Bool.not_eq_true'] at hb'
    have hatt : (db.deleteUser targetID).attached b.id = true :=
      List.any_eq_true.mpr ⟨az, haz, by simpa [hid, eq_comm] using hbid⟩
    rw [hb'.2.1] at hatt
    cases hatt
  rcases lost_deleteUser hx hw hlost with ⟨z, hz, hown, hxz⟩ | ⟨n, hn, hown, hxn⟩
  · refine .inr (.inr (.inl ⟨z.id, ?_, hxz⟩))
    rw [hzones]
    exact List.mem_map_of_mem (List.mem_filter.mpr ⟨hz, by simpa using hown⟩)
  rcases hxn with ⟨m, hm, hmid, rfl⟩ | ⟨a, ha, hna, az, haz, haid, rfl⟩ | ⟨key, hkey, rfl⟩
  · obtain ⟨z, hz, hzid⟩ := hw.member_zone m hm
    by_cases hzo : z.ownerID = targetID
    · refine .inr (.inr (.inl ⟨z.id, ?_, .inl ⟨n.ip, by rw [hzid]⟩⟩))
      rw [hzones]
      exact List.mem_map_of_mem (List.mem_filter.mpr ⟨hz, by simpa using hzo⟩)
    · refine .inr (.inl ⟨⟨uint32ToAddr n.ip, m.zoneID⟩, ?_, rfl⟩)
      rw [hmembers]
      refine List.mem_filterMap.mpr ⟨m, hm, ?_⟩
      rw [(nodeByID?_eq_some hw).mpr ⟨hn, hmid.symm⟩,
        hw.zones_asc.keyed.find?_eq_some_iff.mpr ⟨hz, hzid⟩]
      exact if_pos ⟨hown, hzo⟩
  · obtain ⟨z, hz, hzid⟩ := hw.attachment_zone az haz
    by_cases hzo : z.ownerID = targetID
    · refine .inr (.inr (.inl ⟨z.id, ?_, .inr ⟨_, by rw [hzid]⟩⟩))
      rw [hzones]
      exact List.mem_map_of_mem (List.mem_filter.mpr ⟨hz, by simpa using hzo⟩)
    · refine .inr (.inr (.inr ⟨⟨az.zoneID, a.synthetic.toPrefix⟩, ?_, rfl⟩))
      rw [hroutes]
      refine List.mem_filterMap.mpr ⟨az, haz, ?_⟩
      rw [(announcementByID?_eq_some hw).mpr ⟨ha, haid.symm⟩,
        hw.zones_asc.keyed.find?_eq_some_iff.mpr ⟨hz, hzid⟩]
      exact if_pos ⟨List.any_eq_true.mpr ⟨n, hn, by simp [hna, hown]⟩, hzo⟩
  · refine .inl ⟨n.pubKey, ?_, key, hkey, rfl⟩
    rw [hkeys]
    exact List.mem_map_of_mem (List.mem_filter.mpr ⟨hn, by simpa using hown⟩)

end
end DB
end LanWeave

import LanWeave.Server.Resync

/-! Creating, joining, leaving and deleting zones leaves the dataplane equal to the database. -/

namespace LanWeave
open Library Prog DB

section
variable {κ : Type} [DecidableEq κ] {parseKey : String → Option κ} {w : World κ}

theorem resync_join (hs : w.Settled parseKey) {zone : Int} (hzone : ∃ z ∈ w.db.zones, z.id = zone)
    {node : Node} (hnode : node ∈ w.db.nodes) : ∃ db', w.db.join zone node.id = (.ok (), db') ∧
      ((netfw (.addMember zone (uint32ToAddr node.ip))).run (sem parseKey) false
        { w with db := db' }).2.Settled parseKey := by
  have hin : zone ∈ w.db.zones.map (·.id) := by simpa using hzone
  rcases @join_cases w.db zone node.id with ⟨hj, hmem⟩ | ⟨-, hno⟩ | ⟨hj, hnew, -, hid⟩
  · have hyes : w.db.MemberIP zone node.ip := ⟨_, hmem, rfl, node, hnode, rfl, rfl⟩
    refine ⟨_, hj, (hs.mended hs.wf hs.canonical hs.keys
      (mends_addMember zone (uint32ToAddr node.ip) hin hyes) fun x hx => ?_).1⟩
    exact absurd hx not_changes_self
  · exact absurd ⟨hzone, node, hnode, rfl⟩ hno
  · have hyes : (w.db.addMember ⟨zone, node.id⟩).MemberIP zone node.ip :=
      ⟨_, List.mem_append_right _ (List.mem_singleton_self _), rfl, node, hnode, rfl, rfl⟩
    refine ⟨_, hj, (hs.mended (hs.wf.addMember hnew hzone hid) hs.canonical
      ⟨hs.keys.isSome, hs.keys.distinct⟩ (mends_addMember zone (uint32ToAddr node.ip) hin hyes)
      fun x hx => ?_).1⟩
    obtain ⟨n, hn, hid, rfl⟩ := changes_addMember hs.keys hx
    obtain rfl := hs.wf.nodes_asc.keyed n hn node hnode hid
    rfl

theorem run_joined (hs : w.Settled parseKey) {zone : Int} (hzone : ∃ z ∈ w.db.zones, z.id = zone)
    {node : Node} (hnode : node ∈ w.db.nodes) :
    ∃ w' : World κ, w'.Settled parseKey ∧ w.db.join zone node.id = (.ok (), w'.db) ∧
      ∀ {α : Type} (k : Except KernelErr Unit → Handler α),
        (netfw (.addMember zone (uint32ToAddr node.ip)) >>= k).run (sem parseKey) false
          { w with db := w'.db } = (k (.ok ())).run (sem parseKey) false w' := by
  obtain ⟨db', hjoin, hsettled⟩ := resync_join hs hzone hnode
  have hset : (w.nft.members zone).isSome = true := by
    rw [hs.synced.frames.members, ← hasZone_eq_decide]
    exact hasZone_iff.mpr hzone
  change World.Settled parseKey (sem parseKey (.netfw _) false _).2 at hsettled
  rw [sem_netfw_snd] at hsettled
  exact ⟨_, hsettled, hjoin, fun k => run_addMember (w := { w with db := db' }) hset _ k⟩

theorem resync_joinNode (hs : w.Settled parseKey)
    {zone : Zone} (hzone : zone ∈ w.db.zones) {node : Node} (hnode : node ∈ w.db.nodes) :
    ((joinNode zone node).run (sem parseKey) false w).2.Settled parseKey := by
  obtain ⟨w', hsettled, hjoin, hrun⟩ := run_joined hs ⟨zone, hzone, rfl⟩ hnode
  rw [joinNode, run_store]
  simp only [StoreOp.exec, hjoin]
  rw [hrun]
  exact hsettled

theorem resync_joinCreator (hs : w.Settled parseKey)
    {zone : Int} (hzone : ∃ z ∈ w.db.zones, z.id = zone) {node : Node} (hnode : node ∈ w.db.nodes)
    (created : Response) :
    ((joinCreator zone node created).run (sem parseKey) false w).2.Settled parseKey := by
  obtain ⟨w', hsettled, hjoin, hrun⟩ := run_joined hs hzone hnode
  rw [joinCreator, run_store]
  simp only [StoreOp.exec, hjoin]
  rw [hrun]
  exact hsettled

theorem resync_createZoneFor (hs : w.Settled parseKey) (h : Server κ) (i : Identity)
    (name passwordHash : String)
    {member : Option Node} (hmember : ∀ node ∈ member, node ∈ w.db.nodes) :
    ((createZoneFor h i name passwordHash member).run (sem parseKey) false w).2.Settled parseKey := by
  rw [createZoneFor, run_bind]
  rcases run_createZoneRow parseKey i.userID name passwordHash (i.cap h.maxOwnedZonesPerUser) w with
    ⟨e, he⟩ | ⟨howner, hname, hrun⟩
  · rw [he]
    exact hs
  rw [hrun]
  generalize hdb : w.db.addZone name passwordHash i.userID = db'
  generalize hz : w.db.seqZones + 1 = zone
  have hids : db'.zones.map (·.id) = w.db.zones.map (·.id) ++ [zone] := by
    rw [← hdb, ← hz]
    simp [DB.addZone]
  -- the sets and the rules follow the row, before anyone is a member
  have hmend : Mends parseKey db' (w.db.zones.map (·.id)) (db'.zones.map (·.id))
      (netfw (.addZone zone)) fun _ => False := hids ▸ mends_addZone zone
  have hw' : db'.Wf := hdb ▸ hs.wf.addZone howner hname
  have hc' : db'.Canonical := hdb ▸ hs.canonical
  have hk' : db'.KeysDecode parseKey := hdb ▸ ⟨hs.keys.isSome, hs.keys.distinct⟩
  obtain ⟨hs', -⟩ := hs.mended hw' hc' hk' hmend fun x hx => not_changes_addZone _ _ _ (hdb ▸ hx)
  cases member with
  | none => exact hs'
  | some node =>
    have hzone : ∃ z ∈ db'.zones, z.id = zone := by
      have hmem : zone ∈ db'.zones.map (·.id) := by simp [hids]
      simpa using hmem
    have hnode : node ∈ db'.nodes := hdb ▸ hmember node rfl
    exact resync_joinCreator (w := ⟨db', _, w.wg⟩) hs' hzone hnode _

/-- The announcements `DetachAllForNodeZone` goes through. -/
def DB.nodeZoneAnnouncements (db : DB) (nodeID zoneID : Int) : List Announcement :=
  (db.announcementsInZone zoneID).filter (·.nodeID = nodeID)

theorem mem_nodeZoneAnnouncements {db : DB} (h : db.Wf) {nodeID zoneID : Int} {a : Announcement} :
    a ∈ db.nodeZoneAnnouncements nodeID zoneID ↔
      (a ∈ db.announcements ∧ ⟨a.id, zoneID⟩ ∈ db.announcementZones) ∧ a.nodeID = nodeID := by
  rw [DB.nodeZoneAnnouncements, List.mem_filter, mem_announcementsInZone h, decide_eq_true_eq]

theorem reclaimIfOrphaned_keeps (db : DB) (annID : Int) :
    (db.reclaimIfOrphaned annID).2.nodes = db.nodes ∧
      (db.reclaimIfOrphaned annID).2.zones = db.zones := by
  unfold DB.reclaimIfOrphaned
  split_ifs
  · exact ⟨rfl, rfl⟩
  · exact ⟨rfl, rfl⟩

theorem detachEach_keeps (zoneID : Int) (recs : List Announcement) (db : DB) :
    (detachEach zoneID recs db).2.nodes = db.nodes ∧
      (detachEach zoneID recs db).2.zones = db.zones := by
  induction recs generalizing db with
  | nil => exact ⟨rfl, rfl⟩
  | cons a recs ih =>
    obtain ⟨hnodes, hzones⟩ := ih (db.detachOne a.id zoneID)
    obtain ⟨hnodes', hzones'⟩ :=
      reclaimIfOrphaned_keeps (db.deleteAttachments (· = ⟨a.id, zoneID⟩)) a.id
    exact ⟨hnodes.trans hnodes', hzones.trans hzones'⟩

/-- What `DetachAllForNodeZone` returns and leaves. -/
def DB.detached (db : DB) (nodeID zoneID : Int) : List DetachedRoute × DB :=
  detachEach zoneID (db.nodeZoneAnnouncements nodeID zoneID) db

section
variable {db : DB} (hw : db.Wf) {node : Node} (hnode : node ∈ db.nodes) (zoneID : Int)
include hw

theorem detached_range (hc : db.Canonical) {nodeID : Int} {det : DetachedRoute}
    (hdet : det ∈ (db.detached nodeID zoneID).1) :
    ¬ (db.detached nodeID zoneID).2.ZoneRange zoneID (rangeElements det.synthetic) := by
  rintro ⟨az, haz, rfl, b, hb, hid, hrange⟩
  obtain ⟨a, ha, hsyn⟩ := synthetic_of_mem_detachEach hdet
  have hmem := ((mem_nodeZoneAnnouncements hw).mp ha).1.1
  have hmem' := (sub_detachEach _ _ db).announcements.subset hb
  rw [hsyn] at hrange
  obtain rfl := hc.range_inj hw hmem' hmem hrange
  have hdetached : ⟨b.id, az.zoneID⟩ ∉ (db.detached nodeID az.zoneID).2.announcementZones :=
    detachEach_detaches ha
  rw [hid] at hdetached
  exact hdetached haz

include hnode

theorem changes_detached (hk : db.KeysDecode parseKey) {key : κ}
    (hkey : parseKey node.pubKey = some key) {x : Grant κ}
    (hx : Changes parseKey db (db.detached node.id zoneID).2 x) :
    (∃ det ∈ (db.detached node.id zoneID).1, x = .route zoneID (rangeElements det.synthetic)) ∨
      (db.detached node.id zoneID).1.any (·.reclaimed) = true ∧ x = .peer key := by
  have hrecs : ∀ a ∈ db.nodeZoneAnnouncements node.id zoneID, a ∈ db.announcements :=
    fun a ha => ((mem_nodeZoneAnnouncements hw).mp ha).1.1
  rcases (sub_detachEach _ _ db).changes hk hx with
    ⟨hold, hnew⟩ | ⟨n, hn, key', hkey', rfl, a, ha, hna, hid⟩
  · exact .inl (lost_detachEach hold hw (fun a ha => hw.knowsAnnouncement (hrecs a ha)) hnew)
  · -- an announcement that is lost was reclaimed, and it was the node's
    obtain ⟨⟨b, hb, hbid⟩, det, hdet, hrec⟩ := lost_announcement_detachEach ha hna
    obtain rfl := hw.announcements_asc.keyed b (hrecs b hb) a ha hbid
    rw [((mem_nodeZoneAnnouncements hw).mp hb).2] at hid
    rw [(detachEach_keeps _ _ db).1] at hn
    obtain rfl := hw.nodes_asc.keyed node hnode n hn hid
    rw [Option.some.inj (hkey.symm.trans hkey')]
    exact .inr ⟨List.any_eq_true.mpr ⟨det, hdet, hrec⟩, rfl⟩

end

theorem resync_cascade (hs : w.Settled parseKey) {node : Node} (hnode : node ∈ w.db.nodes)
    (zoneID : Int) :
    ((cascadeNodeZoneAnnouncements node zoneID).run (sem parseKey) false w).2.Settled parseKey := by
  obtain ⟨key, hkey⟩ := hs.keys.isSome node hnode
  have hsub : Sub (w.db.detached node.id zoneID).2 w.db := sub_detachEach _ _ _
  have hw' : (w.db.detached node.id zoneID).2.Wf := hs.wf.detachEach _ _
  obtain ⟨hnodes, hzones⟩ : (w.db.detached node.id zoneID).2.nodes = w.db.nodes ∧
    (w.db.detached node.id zoneID).2.zones = w.db.zones := detachEach_keeps _ _ _
  have hpeer : Mends parseKey (w.db.detached node.id zoneID).2 (w.db.zones.map (·.id))
      ((w.db.detached node.id zoneID).2.zones.map (·.id))
      (if (w.db.detached node.id zoneID).1.any (·.reclaimed) then
        recomputePeer node.id node.pubKey (uint32ToAddr node.ip) else return ())
      fun x => (w.db.detached node.id zoneID).1.any (·.reclaimed) = true ∧ x = .peer key := by
    rw [hzones]
    split_ifs with hany
    · exact Repairs.mono (mends_recomputePeer hw' (hsub.canonical hs.canonical)
        (hsub.keysDecode hs.keys) (hnodes ▸ hnode) hkey) fun x hx => hx.2
    · exact (repairs_pure ()).mono fun x hx => hany hx.1
  have hdone := hs.removed hsub hw' (Repairs.bind (mends_forEach fun det hdet => mends_ignored
    (mends_removeZoneRoute zoneID det.synthetic (detached_range hs.wf zoneID hs.canonical hdet)))
    fun _ => hpeer) fun x hx => changes_detached hs.wf hnode zoneID hs.keys hkey hx
  exact hdone

theorem resync_removeFromZone (hs : w.Settled parseKey) (zone : Zone) {node : Node}
    (hnode : node ∈ w.db.nodes) :
    ((removeFromZone zone node).run (sem parseKey) false w).2.Settled parseKey := by
  rw [removeFromZone, run_store]
  rcases leave_cases w.db zone.id node.id with ⟨hl, -⟩ | ⟨hl, -⟩
  · simp only [StoreOp.exec, hl]
    exact hs
  simp only [StoreOp.exec, hl]
  have hsub := sub_deleteMember w.db ⟨zone.id, node.id⟩
  have hno : ¬ (w.db.deleteMember ⟨zone.id, node.id⟩).MemberIP zone.id node.ip := by
    rintro ⟨m, hm, hz, n, hn, hid, hip⟩
    obtain rfl := hs.wf.node_ip n hn node hnode hip
    obtain ⟨-, hne⟩ := List.mem_filter.mp hm
    obtain ⟨z, i⟩ := m
    simp only at hz hid
    simp [hz, hid] at hne
  have hchanges : ∀ x, Changes parseKey w.db (w.db.deleteMember ⟨zone.id, node.id⟩) x →
      x = .member zone.id node.ip := by
    intro x hx
    rcases hsub.changes hs.keys hx with ⟨hold, hnew⟩ | ⟨_, _, _, _, _, a, ha, hna, _⟩
    · obtain ⟨n, hn, hid, rfl⟩ := lost_deleteMember hold hnew
      obtain rfl := hs.wf.nodes_asc.keyed n hn node hnode hid
      rfl
    · exact absurd ha hna
  obtain ⟨hs', hdb'⟩ := hs.mended (hs.wf.deleteMember ⟨zone.id, node.id⟩)
    (hsub.canonical hs.canonical) (hsub.keysDecode hs.keys)
    (mends_removeMember zone.id (uint32ToAddr node.ip) hno) hchanges
  rw [run_bind, run_bind]
  refine resync_cascade hs' ?_ zone.id
  rw [hdb']
  exact hnode

theorem resync_leaveZone (hs : w.Settled parseKey) (id : Option Identity) (name : String)
    (body : Option LeaveZoneRequest) :
    ((leaveZone id name body).run (sem parseKey) false w).2.Settled parseKey := by
  refine meets_zero.mp (meets_authenticated (fun _ _ => hs) fun i _ => ?_)
  refine meets_decoded (fun _ _ => hs) fun req _ => meets_namedZone (fun _ _ => hs) fun zone _ _ => ?_
  refine meets_ownedNode (fun _ _ => hs) fun node hnode _ _ => meets_zero.mpr ?_
  exact resync_removeFromZone hs zone hnode

theorem resync_kickMember (hs : w.Settled parseKey) (id : Option Identity) (name path : String) :
    ((kickMember id name path).run (sem parseKey) false w).2.Settled parseKey := by
  refine meets_zero.mp (meets_authenticated (fun _ _ => hs) fun i _ => ?_)
  refine meets_ownedZone (fun _ _ => hs) fun zone _ _ => meets_pathID (fun _ _ => hs) fun nodeID _ => ?_
  refine meets_store.mpr (meets_zero.mpr ?_)
  cases hr : w.db.getNodeByID nodeID with
  | error e =>
    simp only [StoreOp.exec, hr]
    cases e <;> exact hs
  | ok node =>
    simp only [StoreOp.exec, hr]
    exact resync_removeFromZone hs zone (getNodeByID_ok hr).1

/-- What `DetachAllForZone` returns and leaves. -/
def DB.zoneDetached (db : DB) (zoneID : Int) : List ZoneDetachment × DB :=
  reclaimEach zoneID (db.announcementsInZone zoneID) (db.deleteAttachments (·.zoneID = zoneID))

theorem reclaimEach_keeps (zoneID : Int) (dets : List Announcement) (db : DB) :
    (reclaimEach zoneID dets db).2.nodes = db.nodes ∧
      (reclaimEach zoneID dets db).2.zones = db.zones := by
  induction dets generalizing db with
  | nil => exact ⟨rfl, rfl⟩
  | cons a dets ih =>
    obtain ⟨hnodes, hzones⟩ := ih (db.reclaimIfOrphaned a.id).2
    obtain ⟨hnodes', hzones'⟩ := reclaimIfOrphaned_keeps db a.id
    exact ⟨hnodes.trans hnodes', hzones.trans hzones'⟩

theorem mends_recomputeReclaimedPeers {db : DB} {zoneIDs : List Int} (h : db.Wf) (hc : db.Canonical)
    (hk : db.KeysDecode parseKey) (dets : List ZoneDetachment) (seen : List Int) :
    Mends parseKey db zoneIDs zoneIDs (recomputeReclaimedPeers dets seen) fun x =>
      ∃ det ∈ dets, det.reclaimed = true ∧ det.nodeID ∉ seen ∧ ∃ n ∈ db.nodes, n.id = det.nodeID ∧
        ∃ key, parseKey n.pubKey = some key ∧ x = .peer key := by
  -- seen holds the nodes whose peers have been set again
  induction dets generalizing seen with
  | nil => exact (repairs_pure ()).mono fun x ⟨_, hdet, _⟩ => absurd hdet List.not_mem_nil
  | cons det dets ih =>
    rw [recomputeReclaimedPeers]
    split_ifs with hskip
    · refine (ih seen).mono fun x => ?_
      rintro ⟨det', hdet, hrec, hseen, hn⟩
      rcases List.mem_cons.mp hdet with rfl | hdet
      · simp [hrec, hseen] at hskip
      · exact ⟨det', hdet, hrec, hseen, hn⟩
    · refine mends_read rfl ?_
      cases hr : db.getNodeByID det.nodeID with
      | error e =>
        simp only [StoreOp.exec, hr]
        refine (ih (det.nodeID :: seen)).mono fun x => ?_
        rintro ⟨det', hdet, hrec, hseen, n, hn, hid, hx⟩
        -- a node that is gone has no peer to be mended
        have hne : det'.nodeID ≠ det.nodeID := by
          intro heq
          rw [← heq, ← hid, getNodeByID_of_mem h hn] at hr
          cases hr
        rcases List.mem_cons.mp hdet with rfl | hdet
        · exact absurd rfl hne
        · exact ⟨det', hdet, hrec, by simp [hne, hseen], n, hn, hid, hx⟩
      | ok node =>
        simp only [StoreOp.exec, hr]
        obtain ⟨hnode, hid⟩ := getNodeByID_ok hr
        obtain ⟨key, hkey⟩ := hk.isSome node hnode
        rw [← hid]
        refine (Repairs.bind (mends_recomputePeer h hc hk hnode hkey)
          fun _ => ih (node.id :: seen)).mono fun x => ?_
        rintro ⟨det', hdet, hrec, hseen, n, hn, hid', key', hkey', rfl⟩
        by_cases heq : n = node
        · subst heq
          rw [Option.some.inj (hkey'.symm.trans hkey)]
          exact .inl rfl
        · have hne : det'.nodeID ≠ node.id := fun hd =>
            heq (h.nodes_asc.keyed n hn node hnode (hid'.trans hd))
          rcases List.mem_cons.mp hdet with rfl | hdet
          · exact absurd hid.symm hne
          · exact .inr ⟨det', hdet, hrec, by simp [hne, hseen], n, hn, hid', key', hkey', rfl⟩

/-- The database after the two statements of `deleteZone`. -/
def DB.withoutZone (db : DB) (zoneID : Int) : DB :=
  (db.zoneDetached zoneID).2.deleteZones fun z => z.id = zoneID

section
variable (db : DB) (zoneID : Int)

theorem sub_withoutZone : Sub (db.withoutZone zoneID) db :=
  (sub_deleteZones _ _).trans ((sub_reclaimEach _ _ _).trans (sub_deleteAttachments db _))

theorem zones_withoutZone :
    (db.withoutZone zoneID).zones.map (·.id) = (db.zones.map (·.id)).filter (· ≠ zoneID) := by
  have hzones : (db.zoneDetached zoneID).2.zones = db.zones := (reclaimEach_keeps _ _ _).2
  rw [DB.withoutZone, DB.deleteZones, hzones, List.filter_map]
  refine congrArg _ (List.filter_congr fun z _ => ?_)
  simp

variable {db} {zoneID} (hw : db.Wf)
include hw

theorem withoutZone_wf : (db.withoutZone zoneID).Wf :=
  ((hw.deleteAttachments _).reclaimEach _ _).deleteZones _

theorem changes_withoutZone (hk : db.KeysDecode parseKey) {x : Grant κ}
    (hx : Changes parseKey db (db.withoutZone zoneID) x) :
    ((∃ ip, x = .member zoneID ip) ∨ ∃ r, x = .route zoneID r) ∨
      ∃ det ∈ (db.zoneDetached zoneID).1, det.reclaimed = true ∧
        ∃ n ∈ (db.withoutZone zoneID).nodes, n.id = det.nodeID ∧
          ∃ key, parseKey n.pubKey = some key ∧ x = .peer key := by
  rcases (sub_withoutZone db zoneID).changes hk hx with
    ⟨hold, hnew⟩ | ⟨n, hn, key, hkey, hx, a, ha, hna, hid⟩
  · by_cases hmid : (db.zoneDetached zoneID).2.Backs parseKey x
    · obtain ⟨z, -, hz, hcase⟩ := lost_deleteZones hmid hnew
      rw [decide_eq_true_eq] at hz
      exact .inl (hz ▸ hcase)
    · exact .inl (.inr (lost_detachAllForZone hold hw hmid))
  · have hstay : a ∈ (db.deleteAttachments (·.zoneID = zoneID)).announcements := ha
    obtain ⟨b, hb, hbid, det, hdet, hrec, hnode⟩ := lost_announcement_reclaimEach hstay hna
    obtain rfl := hw.announcements_asc.keyed b ((mem_announcementsInZone hw).mp hb).1 a ha hbid
    exact .inr ⟨det, hdet, hrec, n, hn, hid.symm.trans hnode.symm, key, hkey, hx⟩

end

theorem resync_deleteZone (hs : w.Settled parseKey) (id : Option Identity) (name : String) :
    ((deleteZone id name).run (sem parseKey) false w).2.Settled parseKey := by
  refine meets_zero.mp (meets_authenticated (fun _ _ => hs) fun i _ => ?_)
  refine meets_ownedZone (fun _ _ => hs) fun zone _ _ => ?_
  refine meets_store.mpr (meets_store.mpr (meets_zero.mpr ?_))
  have hsub := sub_withoutZone w.db zone.id
  have hgone : ∀ z ∈ (w.db.withoutZone zone.id).zones, z.id ≠ zone.id := fun z hz => by
    simpa using (mem_deleteZones.mp hz).2
  have hmend : Mends parseKey (w.db.withoutZone zone.id) (w.db.zones.map (·.id))
      ((w.db.withoutZone zone.id).zones.map (·.id)) (netfw (.deleteZone zone.id)) _ :=
    zones_withoutZone w.db zone.id ▸ mends_deleteZone (withoutZone_wf hs.wf) hgone
  refine hs.removed hsub (withoutZone_wf hs.wf) (Repairs.bind hmend fun _ => Repairs.bind
    (mends_recomputeReclaimedPeers (withoutZone_wf hs.wf) (hsub.canonical hs.canonical)
      (hsub.keysDecode hs.keys) (w.db.zoneDetached zone.id).1 []) fun _ => repairs_pure noContent)
    fun x hx => ?_
  rcases changes_withoutZone hs.wf hs.keys hx with hzone | ⟨det, hdet, hrec, hn⟩
  · exact .inl hzone
  · exact .inr (.inl ⟨det, hdet, hrec, List.not_mem_nil, hn⟩)

end
end LanWeave

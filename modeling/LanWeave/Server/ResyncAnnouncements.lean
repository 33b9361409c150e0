import LanWeave.Server.ResyncZones
import LanWeave.Server.SyntheticPool

/-! Announcements that come and go leave the dataplane equal to the database. -/

namespace LanWeave
open Library Prog DB

theorem DB.Canonical.announce {db : DB} (hc : db.Canonical) {userID nodeID : Int} {real : Block}
    {zoneID limit : Int} {pool : Prefix} {synthetic : Block} (hv : pool.Valid)
    (hlen : real.prefixLen < 32)
    (ok : Announceable db userID nodeID real zoneID limit pool synthetic) :
    (db.announce nodeID real zoneID synthetic.base).Canonical := by
  obtain ⟨h4, hbits, hlen'⟩ := allocateBlock_fits ok.allocated
  have hspec := allocateBlock_spec (db.announcements.map (·.synthetic)) h4 hv hbits hlen'
  rw [ok.allocated] at hspec
  obtain ⟨k, hk, rfl, -, -⟩ := hspec
  intro a ha
  rcases List.mem_append.mp ha with ha | ha
  · exact hc a ha
  · rw [List.mem_singleton.mp ha]
    exact ⟨hlen, slot_aligned h4 hv hbits hlen' hk⟩

section
variable {κ : Type} [DecidableEq κ] {parseKey : String → Option κ} {w : World κ}

/-- The two operations of a growth that nothing stops. -/
def growOps (zone : Zone) (node : Node) (ann : Announcement) (routes : List Prefix) :
    Handler (Except KernelErr Unit) := do
  let _ ← wg (.setPeerRoutes node.pubKey (uint32ToAddr node.ip) routes)
  netfw (.addZoneRoute zone.id ann.synthetic.toPrefix)

theorem run_growDataplane {zone : Zone} {node : Node} (ann : Announcement)
    (hkey : parseKey node.pubKey ≠ none) (hset : (w.nft.routes zone.id).isSome = true) :
    (growDataplane zone node ann).run (sem parseKey) false w =
      (true, ((growOps zone node ann (w.db.routes node.id)).run (sem parseKey) false w).2) := by
  have hops : ((growOps zone node ann (w.db.routes node.id)).run (sem parseKey) false w).2 =
      (sem parseKey (.netfw (.addZoneRoute zone.id ann.synthetic.toPrefix)) false
        (sem parseKey (.wg (.setPeerRoutes node.pubKey (uint32ToAddr node.ip) (w.db.routes node.id)))
          false w).2).2 := rfl
  rw [hops, sem_wg_snd, sem_netfw_snd, growDataplane, run_store]
  change Prog.run _ _ (wg _ >>= _) w = _
  rw [run_setPeerRoutes hkey]
  change Prog.run _ _ (netfw _ >>= _) _ = _
  have hset' : ∀ d : Device κ, ((World.mk w.db w.nft d).nft.routes zone.id).isSome = true :=
    fun _ => hset
  rw [run_addZoneRoute (hset' _)]
  rfl

theorem resync_growDataplane (hs : w.Settled parseKey) {db' : DB} (hw : db'.Wf)
    (hc : db'.Canonical) (hk : db'.KeysDecode parseKey)
    (hzones : db'.zones = w.db.zones) {zone : Zone} (hzone : zone ∈ w.db.zones) {node : Node}
    (hnode : node ∈ db'.nodes) {ann : Announcement} (hann : ann ∈ db'.announcements)
    (hatt : ⟨ann.id, zone.id⟩ ∈ db'.announcementZones)
    (hx : ∀ x, Changes parseKey w.db db' x →
      x = .route zone.id (rangeElements ann.synthetic.toPrefix) ∨
        ∃ key, parseKey node.pubKey = some key ∧ x = .peer key) :
    (growDataplane zone node ann).run (sem parseKey) false { w with db := db' } = (true,
      ((growDataplane zone node ann).run (sem parseKey) false { w with db := db' }).2) ∧
    ((growDataplane zone node ann).run (sem parseKey) false
      { w with db := db' }).2.Settled parseKey := by
  obtain ⟨key, hkey⟩ := hk.isSome node hnode
  have hin : zone.id ∈ w.db.zones.map (·.id) := List.mem_map_of_mem hzone
  have hset : (w.nft.routes zone.id).isSome = true := by simpa [hs.synced.frames.routes] using hin
  have hyes : db'.ZoneRange zone.id (rangeElements ann.synthetic.toPrefix) :=
    ⟨_, hatt, rfl, ann, hann, rfl, rfl⟩
  rw [run_growDataplane (w := { w with db := db' }) ann (by simp [hkey]) hset]
  have hmend : Mends parseKey db' (w.db.zones.map (·.id)) (db'.zones.map (·.id))
      (growOps zone node ann (db'.routes node.id)) fun x =>
        x = .peer key ∨ x = .route zone.id (rangeElements ann.synthetic.toPrefix) := by
    rw [hzones]
    exact Repairs.bind (mends_setPeerRoutes hw hc hk hnode hkey) fun _ =>
      mends_addZoneRoute zone.id ann.synthetic.toPrefix hin hyes
  refine ⟨rfl, (hs.mended hw hc hk hmend fun x hch => ?_).1⟩
  rcases hx x hch with rfl | ⟨key', hkey', rfl⟩
  · exact .inr rfl
  · rw [Option.some.inj (hkey'.symm.trans hkey)]
    exact .inl rfl

theorem resync_announceSubnet (hs : w.Settled parseKey) {h : Server κ} (i : Identity) {zone : Zone}
    (hzone : zone ∈ w.db.zones)
    {node : Node} (hnode : node ∈ w.db.nodes) {subnet pool : Prefix} (hv : pool.Valid)
    (hsubnet : validAnnouncedSubnet h subnet = none) :
    ((announceSubnet h i zone node subnet pool).run (sem parseKey) false w).2.Settled parseKey := by
  rw [announceSubnet, run_store]
  rcases @createAnnouncement_cases w.db i.userID node.id (blockFromPrefix subnet) zone.id
    (i.cap h.maxAnnouncedSubnetsPerUser) pool with
    ⟨hsame, e, he⟩ | ⟨a, -, -, -, -, -, hrun⟩ | ⟨a, ha, hid, -, hmem, hnew, hz, hrun⟩ |
      ⟨synthetic, hok, hrun⟩
  · simp only [StoreOp.exec, hsame, he]
    exact hs
  · simp only [StoreOp.exec, hrun]
    exact hs
  · simp only [StoreOp.exec, hrun]
    have hgrown := resync_growDataplane hs (hs.wf.attach hnew ⟨a, ha, rfl⟩ hz) hs.canonical
      ⟨hs.keys.isSome, hs.keys.distinct⟩ rfl hzone hnode ha
        (List.mem_append_right _ (List.mem_singleton_self _))
      fun x hx => by
        obtain ⟨b, hb, hbid, rfl⟩ := changes_attach hs.keys hx
        rw [hs.wf.announcements_asc.keyed b hb a ha hbid]
        exact .inl rfl
    rw [if_pos trivial, run_bind, hgrown.1]
    exact hgrown.2
  · simp only [StoreOp.exec, hrun]
    have hlen : (blockFromPrefix subnet).prefixLen < 32 := by
      have hbits := (validAnnouncedSubnet_bits hsubnet).2
      rw [blockFromPrefix_prefixLen]
      omega
    have hgrown := resync_growDataplane hs (hok.wf hs.wf) (hs.canonical.announce hv hlen hok)
      ⟨hs.keys.isSome, hs.keys.distinct⟩ rfl hzone hnode
      (List.mem_append_right _ (List.mem_singleton_self _))
      (List.mem_append_right _ (List.mem_singleton_self _)) fun x hx => by
        rcases changes_announce hs.wf hs.keys hx with hroute | ⟨n, hn, hid, hpeer⟩
        · exact .inl hroute
        · obtain rfl := hs.wf.nodes_asc.keyed n hn node hnode hid
          exact .inr hpeer
    rw [if_pos trivial, run_bind, hgrown.1]
    exact hgrown.2

theorem resync_createAnnouncement (hs : w.Settled parseKey) (h : Server κ) (id : Option Identity)
    (name : String) (body : Option CreateAnnouncementRequest) :
    ((createAnnouncement h id name body).run (sem parseKey) false w).2.Settled parseKey :=
  meets_zero.mp (meets_createAnnouncement h (fun _ _ => hs)
    fun i _ _ _ hzone _ hnode _ pool hpool _ _ hvalid => meets_zero.mpr
      (resync_announceSubnet hs i hzone hnode (h.announcePool_valid pool hpool) hvalid))

theorem changes_detachOne {db : DB} (hw : db.Wf) (hk : db.KeysDecode parseKey) {a : Announcement}
    (ha : a ∈ db.announcements) {node : Node} (hnode : node ∈ db.nodes) (hid : node.id = a.nodeID)
    {zoneID : Int} {x : Grant κ} (hx : Changes parseKey db (db.detachOne a.id zoneID) x) :
    x = .route zoneID (rangeElements a.synthetic.toPrefix) ∨
      (!(db.deleteAttachments (· = ⟨a.id, zoneID⟩)).attached a.id) = true ∧
        ∃ key, parseKey node.pubKey = some key ∧ x = .peer key := by
  rcases (sub_detachOne db _ _).changes hk hx with
    ⟨hold, hnew⟩ | ⟨n, hn, key, hkey, hpeer, b, hb, hnb, hbid⟩
  · obtain ⟨b, hb, hid', hroute⟩ := lost_detachOne hold hw hnew
    rw [hw.announcements_asc.keyed b hb a ha hid'] at hroute
    exact .inl hroute
  · have hstay : b ∈ (db.deleteAttachments (· = ⟨a.id, zoneID⟩)).announcements := hb
    obtain ⟨hba, hrec⟩ := lost_reclaimIfOrphaned hstay hnb
    obtain rfl := hw.announcements_asc.keyed b hb a ha hba
    have hn' := (sub_detachOne db b.id zoneID).nodes.subset hn
    obtain rfl := hw.nodes_asc.keyed n hn' node hnode (hbid.symm.trans hid.symm)
    refine .inr ⟨?_, key, hkey, hpeer⟩
    unfold DB.reclaimIfOrphaned at hrec
    split_ifs at hrec with hatt
    simpa using hatt

theorem detachOne_range {db : DB} (hw : db.Wf) (hc : db.Canonical) {a : Announcement}
    (ha : a ∈ db.announcements) (zoneID : Int) :
    ¬ (db.detachOne a.id zoneID).ZoneRange zoneID (rangeElements a.synthetic.toPrefix) := by
  rintro ⟨az, haz, rfl, b, hb, hid, hrange⟩
  have hb' := (sub_detachOne db _ _).announcements.subset hb
  obtain rfl := hc.range_inj hw hb' ha hrange
  have haz' := (sub_reclaimIfOrphaned _ b.id).announcementZones.subset haz
  obtain ⟨-, hne⟩ := List.mem_filter.mp haz'
  obtain ⟨annID, z⟩ := az
  simp only at hid
  simp [hid] at hne

theorem resync_deleteAnnouncement (hs : w.Settled parseKey) (id : Option Identity)
    (name path : String) :
    ((deleteAnnouncement id name path).run (sem parseKey) false w).2.Settled parseKey := by
  refine meets_zero.mp (meets_authenticated (fun _ _ => hs) fun i _ => ?_)
  refine meets_memberZone (fun _ _ => hs) fun zone _ _ => meets_pathID (fun _ _ => hs) fun annID _ => ?_
  refine meets_store.mpr ?_
  cases hann : w.db.getAnnouncement annID with
  | error e =>
    simp only [StoreOp.exec, hann]
    cases e <;> exact fun _ => hs
  | ok ann =>
    simp only [StoreOp.exec, hann]
    obtain ⟨ha, rfl⟩ := getAnnouncement_ok hann
    refine meets_store.mpr ?_
    cases hnode : w.db.getNodeByID ann.nodeID with
    | error e =>
      simp only [StoreOp.exec, hnode]
      exact fun _ => hs
    | ok node =>
      simp only [StoreOp.exec, hnode]
      obtain ⟨hn, hid⟩ := getNodeByID_ok hnode
      split_ifs
      · exact fun _ => hs
      refine meets_store.mpr ?_
      rcases detach_cases w.db zone.id ann.id with ⟨hd, -⟩ | ⟨b, hb, hatt, hd⟩
      · simp only [StoreOp.exec, hd]
        exact fun _ => hs
      simp only [StoreOp.exec, hd]
      refine meets_zero.mpr ?_
      obtain ⟨key, hkey⟩ := hs.keys.isSome node hn
      -- the detach leaves the zone's route behind and, if the announcement is gone with it, the
      -- AllowedIPs
      have hsub := sub_detachOne w.db ann.id zone.id
      obtain ⟨hnodes, hzones⟩ : (w.db.detachOne ann.id zone.id).nodes = w.db.nodes ∧
        (w.db.detachOne ann.id zone.id).zones = w.db.zones := reclaimIfOrphaned_keeps _ _
      have hchanges : ∀ x, Changes parseKey w.db (w.db.detachOne ann.id zone.id) x → _ :=
        fun x hx => changes_detachOne hs.wf hs.keys ha hn hid hx
      generalize (!(w.db.deleteAttachments (· = ⟨ann.id, zone.id⟩)).attached ann.id) = reclaimed at *
      have hpeer : Mends parseKey (w.db.detachOne ann.id zone.id) (w.db.zones.map (·.id))
          ((w.db.detachOne ann.id zone.id).zones.map (·.id))
          (if reclaimed = true then do
            recomputePeer node.id node.pubKey (uint32ToAddr node.ip)
            return noContent
          else return noContent) fun x => reclaimed = true ∧ x = .peer key := by
        rw [hzones]
        split_ifs with hrec
        · exact Repairs.mono (Repairs.bind (mends_recomputePeer (hs.wf.detachOne _ _)
            (hsub.canonical hs.canonical)
            (hsub.keysDecode hs.keys) (hnodes ▸ hn) hkey) fun _ => repairs_pure noContent)
            fun x hx => .inl hx.2
        · exact (repairs_pure noContent).mono fun x hx => hrec hx.1
      refine (hs.removed hsub (hs.wf.detachOne _ _)
        (Repairs.bind (mends_removeZoneRoute zone.id ann.synthetic.toPrefix
        (detachOne_range hs.wf hs.canonical ha zone.id)) fun _ => hpeer) fun x hx => ?_)
      -- what is wrong after the detach is mended by RemoveZoneRoute or by the peer's new AllowedIPs
      rcases hchanges x hx with hroute | ⟨hrec, key', hkey', hx⟩
      · exact .inl hroute
      · rw [Option.some.inj (hkey.symm.trans hkey')]
        exact .inr ⟨hrec, hx⟩

end
end LanWeave

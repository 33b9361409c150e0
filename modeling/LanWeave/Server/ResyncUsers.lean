import LanWeave.Server.ResyncAnnouncements

/-! Deleting a user with everything it owns leaves the dataplane equal to the database. -/

namespace LanWeave
open Library Prog DB

section
variable {db : DB} {targetID : Int}

theorem mem_deleteUser_nodes {n : Node} :
    n ∈ (db.deleteUser targetID).nodes ↔ n ∈ db.nodes ∧ n.userID ≠ targetID := by
  change n ∈ (db.deleteNodes fun n => n.userID = targetID).nodes ↔ _
  rw [mem_deleteNodes, decide_eq_false_iff_not]

theorem mem_deleteUser_announcements {a : Announcement} :
    a ∈ (db.deleteUser targetID).announcements ↔
      a ∈ db.announcements ∧ ∀ n ∈ db.nodes, n.id = a.nodeID → n.userID ≠ targetID := by
  change a ∈ (db.deleteNodes fun n => n.userID = targetID).announcements ↔ _
  simp only [mem_deleteNodes_announcements, decide_eq_false_iff_not, ne_eq]

theorem mem_survivingMemberships {m : SurvivingMembership}
    (hm : m ∈ db.survivingMemberships targetID) (hw : db.Wf) :
    ∃ n ∈ db.nodes, n.userID = targetID ∧ m.ip = uint32ToAddr n.ip := by
  obtain ⟨row, -, hrow⟩ := List.mem_filterMap.mp hm
  split at hrow
  · next n z hn hz =>
    split_ifs at hrow with hown
    obtain rfl := Option.some.inj hrow
    exact ⟨n, ((nodeByID?_eq_some hw).mp hn).1, hown.1, rfl⟩
  · cases hrow

theorem mem_survivingZoneRoutes {route : SurvivingZoneRoute}
    (hr : route ∈ db.survivingZoneRoutes targetID) (hw : db.Wf) :
    ∃ a ∈ db.announcements, (∃ n ∈ db.nodes, n.id = a.nodeID ∧ n.userID = targetID) ∧
      route.synthetic = a.synthetic.toPrefix := by
  obtain ⟨row, -, hrow⟩ := List.mem_filterMap.mp hr
  split at hrow
  · next a z ha hz =>
    split_ifs at hrow with hown
    obtain rfl := Option.some.inj hrow
    exact ⟨a, ((announcementByID?_eq_some hw).mp ha).1, by simpa using hown.1, rfl⟩
  · cases hrow

theorem mem_routeRecomputeNodes (hw : db.Wf) {orphans : List Announcement} {seen : List Int}
    {r : RouteRecomputeNode} : r ∈ db.routeRecomputeNodes orphans seen ↔
      ∃ n ∈ db.nodes, n.id ∉ seen ∧ (∃ a ∈ orphans, a.nodeID = n.id) ∧
        r = ⟨n.id, n.pubKey, uint32ToAddr n.ip⟩ := by
  induction orphans generalizing seen with
  | nil => simp [DB.routeRecomputeNodes]
  | cons a orphans ih =>
    rw [DB.routeRecomputeNodes]
    cases hn : db.nodeByID? a.nodeID with
    | none =>
      -- the orphan's node is gone, so it names no row
      have hno : ∀ n ∈ db.nodes, a.nodeID ≠ n.id := by
        intro n hmem hid
        rw [(nodeByID?_eq_some hw).mpr ⟨hmem, hid.symm⟩] at hn
        cases hn
      simp only [ih]
      refine exists_congr fun n => and_congr_right fun hmem => ?_
      simp [hno n hmem]
    | some n =>
      obtain ⟨hmem, hid⟩ := (nodeByID?_eq_some hw).mp hn
      simp only
      split_ifs with hseen
      · rw [ih]
        refine exists_congr fun m => and_congr_right fun _ => and_congr_right fun hm =>
          and_congr_left fun _ => ?_
        -- the node has been listed already
        have hne : a.nodeID ≠ m.id := fun heq => hm (heq ▸ hid ▸ hseen)
        simp [hne]
      · rw [List.mem_cons, ih]
        constructor
        · rintro (rfl | ⟨m, hm, hmseen, ⟨b, hb, hbid⟩, rfl⟩)
          · exact ⟨n, hmem, hseen, ⟨a, List.mem_cons_self, hid.symm⟩, rfl⟩
          · exact ⟨m, hm, fun hin => hmseen (List.mem_cons_of_mem _ hin),
              ⟨b, List.mem_cons_of_mem _ hb, hbid⟩, rfl⟩
        · rintro ⟨m, hm, hmseen, ⟨b, hb, hbid⟩, rfl⟩
          by_cases heq : m = n
          · exact .inl (by rw [heq])
          · -- another node, so its orphan comes later
            have hne : m.id ≠ n.id := fun hmn => heq (hw.nodes_asc.keyed m hm n hmem hmn)
            refine .inr ⟨m, hm, by simp [hne, hmseen], ?_, rfl⟩
            rcases List.mem_cons.mp hb with rfl | hb
            · exact absurd (hbid.symm.trans hid.symm) hne
            · exact ⟨b, hb, hbid⟩

end

/-- What is known once `DeleteCascade` has succeeded. -/
structure Cascaded (db db' : DB) (targetID : Int) (r : DeletionResult) : Prop where
  sub : Sub db' db
  wf : db'.Wf
  nodes : ∀ n, n ∈ db'.nodes ↔ n ∈ db.nodes ∧ n.userID ≠ targetID
  zones : db'.zones = db.zones.filter (·.ownerID ≠ targetID)
  announcements : ∀ a ∈ db'.announcements, ∀ n ∈ db.nodes, n.id = a.nodeID → n.userID ≠ targetID
  nodePubKeys : r.nodePubKeys = (db.nodes.filter (·.userID = targetID)).map (·.pubKey)
  ownedZoneIDs : r.ownedZoneIDs = (db.zones.filter (·.ownerID = targetID)).map (·.id)
  memberships : r.survivingMemberships = db.survivingMemberships targetID
  zoneRoutes : r.survivingZoneRoutes = db.survivingZoneRoutes targetID
  recompute : ∀ x ∈ r.routeRecomputeNodes, ∃ n ∈ db'.nodes, x = ⟨n.id, n.pubKey, uint32ToAddr n.ip⟩
  /-- A node that stays and has lost an announcement is recomputed. -/
  recomputed : ∀ n ∈ db'.nodes, ∀ a ∈ db.announcements, a ∉ db'.announcements → a.nodeID = n.id →
    ⟨n.id, n.pubKey, uint32ToAddr n.ip⟩ ∈ r.routeRecomputeNodes

theorem deleteCascade_spec {db : DB} (hw : db.Wf) (targetID : Int) :
    ((db.deleteCascade targetID).2 = db ∧ ∃ e, (db.deleteCascade targetID).1 = .error e) ∨
    ∃ r, (db.deleteCascade targetID).1 = .ok r ∧
      Cascaded db (db.deleteCascade targetID).2 targetID r := by
  refine (deleteCascade_cases db targetID).imp id ?_
  rintro ⟨r, hr, hkeys, hmembers, hzones, hroutes, orphans, horphans, hrecompute, hdb⟩
  have hw₁ := hw.deleteUser targetID
  refine ⟨r, hr, ?_⟩
  rw [hdb]
  refine ⟨(sub_deleteAnnouncements _ _).trans (sub_deleteUser db targetID), hw₁.deleteAnnouncements _,
    fun n => mem_deleteUser_nodes, ?_, fun a ha => ?_, hkeys, hzones, hmembers, hroutes, ?_, ?_⟩
  · change db.zones.filter _ = _
    exact List.filter_congr fun z _ => by simp
  · exact (mem_deleteUser_announcements.mp (mem_deleteAnnouncements.mp ha).1).2
  · intro x hx
    rw [hrecompute, mem_routeRecomputeNodes hw₁] at hx
    obtain ⟨n, hn, -, -, rfl⟩ := hx
    exact ⟨n, hn, rfl⟩
  · intro n hn a ha hna hid
    obtain ⟨hn, howner⟩ := mem_deleteUser_nodes.mp hn
    have hstay : a ∈ (db.deleteUser targetID).announcements := by
      refine mem_deleteUser_announcements.mpr ⟨ha, fun m hm hmid => ?_⟩
      rwa [hw.nodes_asc.keyed m hm n hn (hmid.trans hid)]
    rw [mem_deleteAnnouncements] at hna
    have horphan : a ∈ orphans := by
      obtain ⟨b, hb, hbid⟩ : ∃ b ∈ orphans, b.id = a.id := by simpa [hstay] using hna
      have hb' : b ∈ (db.deleteUser targetID).announcements := by
        rw [horphans] at hb
        exact List.mem_of_mem_filter hb
      rwa [← hw₁.announcements_asc.keyed b hb' a hstay hbid]
    rw [hrecompute, mem_routeRecomputeNodes hw₁]
    exact ⟨n, mem_deleteUser_nodes.mpr ⟨hn, howner⟩, List.not_mem_nil, ⟨a, horphan, hid⟩, rfl⟩

section
variable {κ : Type} [DecidableEq κ] {parseKey : String → Option κ} {w : World κ}

section
variable {db db' : DB} {targetID : Int} {r : DeletionResult} {zoneIDs : List Int} (hw : db.Wf)
  (hcas : Cascaded db db' targetID r)
include hw hcas

theorem mem_ownedZoneIDs {z : Zone} (hz : z ∈ db.zones) :
    z.id ∈ r.ownedZoneIDs ↔ z.ownerID = targetID := by
  rw [hcas.ownedZoneIDs, List.mem_map]
  constructor
  · rintro ⟨z', hz', hid⟩
    obtain ⟨hmem, howner⟩ := List.mem_filter.mp hz'
    rw [← hw.zones_asc.keyed z' hmem z hz hid]
    simpa using howner
  · intro howner
    exact ⟨z, List.mem_filter.mpr ⟨hz, by simpa using howner⟩, rfl⟩

theorem zoneIDs_cascaded :
    db'.zones.map (·.id) = (db.zones.map (·.id)).filter (· ∉ r.ownedZoneIDs) := by
  rw [hcas.zones, List.filter_map]
  refine congrArg _ (List.filter_congr fun z hz => ?_)
  simp [mem_ownedZoneIDs hw hcas hz]

omit hw in
theorem mends_dropPeers (hk : db.KeysDecode parseKey) : Mends parseKey db' zoneIDs zoneIDs
    (Prog.forEach (fun pub => do let _ ← wg (.removePeer pub)) r.nodePubKeys)
    fun x => ∃ pub ∈ r.nodePubKeys, ∃ key, parseKey pub = some key ∧ x = .peer key := by
  refine mends_forEach fun pub hpub => ?_
  rw [hcas.nodePubKeys] at hpub
  obtain ⟨n, hn, rfl⟩ := List.mem_map.mp hpub
  obtain ⟨hn, howner⟩ := List.mem_filter.mp hn
  obtain ⟨key, hkey⟩ := hk.isSome n hn
  have hno : ∀ m ∈ db'.nodes, parseKey m.pubKey ≠ some key := by
    intro m hm hkey'
    obtain ⟨hm, howner'⟩ := (hcas.nodes m).mp hm
    rw [hk.distinct m hm n hn (hkey'.trans hkey.symm)] at howner'
    exact howner' (by simpa using howner)
  refine (mends_ignored (mends_removePeer hkey hno)).mono fun x => ?_
  rintro ⟨key', hkey', rfl⟩
  rw [Option.some.inj (hkey'.symm.trans hkey)]

theorem mends_dropMembers : Mends parseKey db' zoneIDs zoneIDs
    (Prog.forEach (fun m => do let _ ← netfw (.removeMember m.zoneID m.ip)) r.survivingMemberships)
    fun x => ∃ m ∈ r.survivingMemberships, x = .member m.zoneID (addrToUint32 m.ip) := by
  refine mends_forEach fun m hm => mends_ignored (mends_removeMember m.zoneID m.ip ?_)
  rw [hcas.memberships] at hm
  obtain ⟨n, hn, howner, hip⟩ := mem_survivingMemberships hm hw
  rintro ⟨_, -, -, n', hn', -, hip'⟩
  obtain ⟨hn', howner'⟩ := (hcas.nodes n').mp hn'
  rw [hip] at hip'
  exact howner' (hw.node_ip n' hn' n hn hip' ▸ howner)

theorem mends_dropZones : Mends parseKey db' zoneIDs (zoneIDs.filter (· ∉ r.ownedZoneIDs))
    (Prog.forEach (fun zid => do let _ ← netfw (.deleteZone zid)) r.ownedZoneIDs)
    fun x => ∃ z ∈ r.ownedZoneIDs, (∃ ip, x = .member z ip) ∨ ∃ range, x = .route z range := by
  refine mends_deleteZones hcas.wf fun z hz zone hzone => ?_
  rw [hcas.zones] at hzone
  obtain ⟨hzone, howner⟩ := List.mem_filter.mp hzone
  rintro rfl
  rw [mem_ownedZoneIDs hw hcas hzone] at hz
  simp [hz] at howner

theorem mends_dropRoutes (hc : db.Canonical) : Mends parseKey db' zoneIDs zoneIDs
    (Prog.forEach (fun route => do let _ ← netfw (.removeZoneRoute route.zoneID route.synthetic))
      r.survivingZoneRoutes)
    fun x => ∃ route ∈ r.survivingZoneRoutes,
      x = .route route.zoneID (rangeElements route.synthetic) := by
  refine mends_forEach fun route hroute =>
    mends_ignored (mends_removeZoneRoute route.zoneID route.synthetic ?_)
  rw [hcas.zoneRoutes] at hroute
  obtain ⟨a, ha, ⟨n, hn, hid, howner⟩, hsyn⟩ := mem_survivingZoneRoutes hroute hw
  rintro ⟨_, -, -, b, hb, -, hrange⟩
  rw [hsyn] at hrange
  obtain rfl := hc.range_inj hw (hcas.sub.announcements.subset hb) ha hrange
  exact hcas.announcements b hb n hn hid howner

omit hw in
theorem mends_recomputeNodes (hc : db.Canonical) (hk : db.KeysDecode parseKey) :
    Mends parseKey db' zoneIDs zoneIDs
      (Prog.forEach (fun n => recomputePeer n.nodeID n.pubKey n.ip) r.routeRecomputeNodes)
      fun x => ∃ n ∈ r.routeRecomputeNodes, ∃ key, parseKey n.pubKey = some key ∧ x = .peer key := by
  have hk' := hcas.sub.keysDecode hk
  refine mends_forEach fun x hx => ?_
  obtain ⟨n, hn, rfl⟩ := hcas.recompute x hx
  obtain ⟨key, hkey⟩ := hk'.isSome n hn
  refine (mends_recomputePeer hcas.wf (hcas.sub.canonical hc) hk' hn hkey).mono fun y => ?_
  rintro ⟨key', hkey', rfl⟩
  rw [Option.some.inj (hkey'.symm.trans hkey)]

end

theorem resync_deleteUser (hs : w.Settled parseKey) (id : Option Identity) (path : String) :
    ((deleteUser id path).run (sem parseKey) false w).2.Settled parseKey := by
  refine meets_zero.mp (meets_authenticated (fun _ _ => hs) fun i _ => ?_)
  refine meets_pathID (fun _ _ => hs) fun targetID _ => ?_
  split_ifs
  · exact fun _ => hs
  refine meets_store.mpr ?_
  rcases deleteCascade_spec hs.wf targetID with ⟨hsame, e, he⟩ | ⟨r, hr, hcas⟩
  · simp only [StoreOp.exec, hsame, he]
    exact fun _ => hs
  have hlost : ∀ x : Grant κ, w.db.Backs parseKey x →
      ¬ (w.db.deleteCascade targetID).2.Backs parseKey x → _ :=
    fun x hold hnew => lost_deleteCascade hold hs.wf hr hnew
  simp only [StoreOp.exec, hr]
  generalize (w.db.deleteCascade targetID).2 = db' at *
  have hzones : Mends parseKey db' (w.db.zones.map (·.id))
      ((w.db.zones.map (·.id)).filter (· ∉ r.ownedZoneIDs)) _ _ := mends_dropZones hs.wf hcas
  rw [← zoneIDs_cascaded hs.wf hcas] at hzones
  refine meets_zero.mpr (hs.removed hcas.sub hcas.wf
    (Repairs.bind (mends_dropPeers hcas hs.keys) fun _ =>
    Repairs.bind (mends_dropMembers hs.wf hcas) fun _ => Repairs.bind hzones fun _ =>
    Repairs.bind (mends_dropRoutes hs.wf hcas hs.canonical) fun _ =>
    Repairs.bind (mends_recomputeNodes hcas hs.canonical hs.keys) fun _ =>
      repairs_pure noContent) fun x hx => ?_)
  rcases hcas.sub.changes hs.keys hx with ⟨hold, hnew⟩ | ⟨n, hn, key, hkey, rfl, a, ha, hna, hid⟩
  · rcases hlost x hold hnew with hpeer | hmember | hzone | hroute
    · exact .inl hpeer
    · exact .inr (.inl hmember)
    · exact .inr (.inr (.inl hzone))
    · exact .inr (.inr (.inr (.inl hroute)))
  · exact .inr (.inr (.inr (.inr (.inl ⟨_, hcas.recomputed n hn a ha hna hid, key, hkey, rfl⟩))))

end
end LanWeave

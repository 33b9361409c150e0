import LanWeave.Server.OwnPeers

/-! Compensation: a request that grows the dataplane, in which exactly one kernel operation
fails. What its rollback restores, and the two cases in which it takes away more. -/

namespace LanWeave
open Library Prog DB

section
variable {κ : Type}

/-- The tables and the dataplane are those of before; the id counters may have moved on. -/
structure Restored (w w' : World κ) : Prop where
  nodes : w'.db.nodes = w.db.nodes
  zones : w'.db.zones = w.db.zones
  zoneMembers : w'.db.zoneMembers = w.db.zoneMembers
  announcements : w'.db.announcements = w.db.announcements
  announcementZones : w'.db.announcementZones = w.db.announcementZones
  nft : w'.nft = w.nft
  wg : w'.wg = w.wg

/-- The four requests that grow the dataplane. -/
def Call.Grows : Call → Bool
  | .registerNode _ | .createZone .. | .joinZone .. | .createAnnouncement .. => true
  | _ => false

/-- The request changes nothing, or less, going forward than its undoing takes back: the node is
in the zone already, or its announcement is there without an attachment. -/
def Call.Repeats (db : DB) : Call → Prop
  | .joinZone name (some req) => ∃ zone ∈ db.zones, zone.name = name ∧
      ⟨zone.id, req.nodeID⟩ ∈ db.zoneMembers
  | .createAnnouncement _ (some req) => ∃ p, parsePrefix4 req.subnet = some p ∧
      ∃ a ∈ db.announcements, a.nodeID = req.nodeID ∧ a.real = blockFromPrefix p.masked ∧
        db.attached a.id = false
  | _ => False

end

section
variable {κ : Type} [DecidableEq κ] {parseKey : String → Option κ} {w : World κ}

theorem meets_created {α : Type} {n : ℕ} {w' : World κ} {r : α} {Q : α → World κ → Prop} :
    Meets parseKey (n + 1) w' (return r) Q := fun hn => absurd hn n.succ_ne_zero

theorem sem_addMember {w : World κ} {z : Int} (hset : (w.nft.members z).isSome = true) (ip : Addr) :
    (sem parseKey (.netfw (.addMember z ip)) false w).1 = .ok () := by
  obtain ⟨set, hs⟩ := Option.isSome_iff_exists.mp hset
  simp only [sem, NetfwOp.exec, Nft.addMember, hs]
  rfl

theorem sem_setPeerRoutes {publicKey : String} (hkey : parseKey publicKey ≠ none) (ip : Addr)
    (routes : List Prefix) :
    (sem parseKey (.wg (.setPeerRoutes publicKey ip routes)) false w).1 = .ok () := by
  obtain ⟨key, hkey⟩ := Option.ne_none_iff_exists'.mp hkey
  simp only [sem, WgOp.exec, Device.setPeerRoutes, hkey]
  rfl

theorem sem_addZoneRoute {z : Int} (hset : (w.nft.routes z).isSome = true) (p : Prefix) :
    (sem parseKey (.netfw (.addZoneRoute z p)) false w).1 = .ok () := by
  obtain ⟨set, hs⟩ := Option.isSome_iff_exists.mp hset
  simp only [sem, NetfwOp.exec, Nft.addZoneRoute, hs]
  rfl

theorem meets_netfw_one {α : Type} {Q : α → World κ → Prop} {o : NetfwOp}
    {k : Except KernelErr Unit → Handler α} (ho : (sem parseKey (.netfw o) false w).1 = .ok ())
    (hok : Meets parseKey 1 { w with nft := o.effect w.nft } (k (.ok ())) Q)
    (hfail : Q ((k (.error .failed)).run (sem parseKey) false w).1
      ((k (.error .failed)).run (sem parseKey) false w).2) :
    Meets parseKey 1 w (netfw o >>= k) Q := by
  refine (ensures_one rfl).mpr ⟨?_, hfail⟩
  change Meets parseKey 1 (sem parseKey (.netfw o) false w).2 (k (sem parseKey (.netfw o) false w).1) Q
  rw [ho, sem_netfw_snd]
  exact hok

theorem meets_wg_one {α : Type} {Q : α → World κ → Prop} {o : WgOp}
    {k : Except KernelErr Unit → Handler α} (ho : (sem parseKey (.wg o) false w).1 = .ok ())
    (hok : Meets parseKey 1 { w with wg := o.effect parseKey w.wg } (k (.ok ())) Q)
    (hfail : Q ((k (.error .failed)).run (sem parseKey) false w).1
      ((k (.error .failed)).run (sem parseKey) false w).2) :
    Meets parseKey 1 w (wg o >>= k) Q := by
  refine (ensures_one rfl).mpr ⟨?_, hfail⟩
  change Meets parseKey 1 (sem parseKey (.wg o) false w).2 (k (sem parseKey (.wg o) false w).1) Q
  rw [ho, sem_wg_snd]
  exact hok

theorem retractedNode_tables {db : DB} (hw : db.Wf) {n : Node} (hn : NodeFits db n) :
    (db.retractedNode n).nodes = db.nodes ∧ (db.retractedNode n).zoneMembers = db.zoneMembers ∧
      (db.retractedNode n).announcements = db.announcements ∧
      (db.retractedNode n).announcementZones = db.announcementZones := by
  have hsub : Sub (db.retractedNode n) (db.withNode n) := sub_deleteNodes _ _
  have hw' := hn.wf hw
  have hpick : ∀ m ∈ (db.withNode n).nodes, (∃ m' ∈ db.nodes, m'.id = m.id) →
      (decide (m.id = n.id ∧ m.userID = n.userID)) = false := by
    rintro m hm ⟨m', hm', hid⟩
    have hle := hw.nodes_seq m' hm'
    have hne : m.id ≠ n.id := by
      rw [hn.id]
      omega
    simp [hne]
  have hann : db.announcements ⊆ (db.retractedNode n).announcements := fun a ha =>
    mem_deleteNodes_announcements.mpr ⟨ha, fun m hm hid => hpick m hm (hid ▸ hw.announcement_node a ha)⟩
  refine ⟨?_, eq_of_sublist_of_subset hsub.zoneMembers hw.members_nodup fun m hm => ?_,
    eq_of_sublist_of_subset hsub.announcements hw.announcements_asc.nodup hann,
    eq_of_sublist_of_subset hsub.announcementZones hw.attachments_nodup fun az haz => ?_⟩
  · have hgone : (db.withNode n).nodes = db.nodes ++ [n] := by
      obtain ⟨id, userID, name, pubKey, ip, platform⟩ := n
      obtain rfl : id = _ := hn.id
      rfl
    have hkeep : db.nodes.filter (fun m => ! decide (m.id = n.id ∧ m.userID = n.userID)) = db.nodes := by
      refine List.filter_eq_self.mpr fun m hm => ?_
      rw [hpick m (List.mem_append_left _ hm) ⟨m, hm, rfl⟩]
      rfl
    change (db.withNode n).nodes.filter _ = _
    rw [hgone, List.filter_append, hkeep]
    simp
  · exact mem_deleteNodes_members.mpr ⟨hm, fun x hx hid => hpick x hx (hid ▸ hw.member_node m hm)⟩
  · refine mem_deleteNodes_attachments.mpr ⟨haz, fun a ha _ x hx hid => ?_⟩
    exact hpick x hx (hid ▸ hw.announcement_node a ha)

theorem restored_addNodePeer (hs : w.Settled parseKey) {node : Node} (hfits : NodeFits w.db node)
    (hparse : parseKey node.pubKey ≠ none) (i : Identity) (hi : node.userID = i.userID) :
    Meets parseKey 1 { w with db := w.db.withNode node } (addNodePeer i node)
      fun r w' => r.isError = true → Restored w w' := by
  refine meets_wg_one (sem_setPeerRoutes hparse _ _) meets_created fun _ => ?_
  have hdelete := run_deleteOwned (w := { w with db := w.db.withNode node }) parseKey (hfits.wf hs.wf)
    hfits.mem
  obtain ⟨hnodes, hmembers, hanns, hatts⟩ := retractedNode_tables hs.wf hfits
  change Restored w (Prog.run _ _ (deleteOwned i.userID node.id >>= _) _).2
  rw [run_bind, ← hi, hdelete]
  exact ⟨hnodes, rfl, hmembers, hanns, hatts, rfl, rfl⟩

theorem retractedZone_tables {db db' : DB} (hw : db.Wf) {name passwordHash : String} {ownerID : Int}
    (hsame : db' = db.addZone name passwordHash ownerID ∨ ∃ nodeID,
      db' = (db.addZone name passwordHash ownerID).addMember ⟨db.seqZones + 1, nodeID⟩) :
    (db'.deleteZones fun z => z.id = db.seqZones + 1).nodes = db.nodes ∧
    (db'.deleteZones fun z => z.id = db.seqZones + 1).zones = db.zones ∧
    (db'.deleteZones fun z => z.id = db.seqZones + 1).zoneMembers = db.zoneMembers ∧
    (db'.deleteZones fun z => z.id = db.seqZones + 1).announcements = db.announcements ∧
    (db'.deleteZones fun z => z.id = db.seqZones + 1).announcementZones = db.announcementZones := by
  -- the id of the new zone is in no row that was there before
  have hold : ∀ x : Int, (∃ z ∈ db.zones, z.id = x) → x ≠ db.seqZones + 1 := by
    rintro _ ⟨z, hz, rfl⟩ heq
    have hle := hw.zones_seq z hz
    omega
  have hzones : db'.zones = db.zones ++ [⟨db.seqZones + 1, name, passwordHash, ownerID⟩] := by
    rcases hsame with rfl | ⟨_, rfl⟩ <;> rfl
  have hpick : ∀ x : Int, (db'.zones.any fun z => decide (z.id = db.seqZones + 1) && decide (z.id = x)) =
      decide (x = db.seqZones + 1) := by
    intro x
    rw [Bool.eq_iff_iff]
    simp only [List.any_eq_true, Bool.and_eq_true, decide_eq_true_eq, hzones]
    constructor
    · rintro ⟨z, -, hz, rfl⟩
      exact hz
    · rintro rfl
      exact ⟨_, List.mem_append_right _ (List.mem_singleton_self _), rfl, rfl⟩
  have hkeepZones : db.zones.filter (fun z => ! decide (z.id = db.seqZones + 1)) = db.zones :=
    List.filter_eq_self.mpr fun z hz => by simpa using hold _ ⟨z, hz, rfl⟩
  have hkeepMembers : db.zoneMembers.filter (fun m => ! decide (m.zoneID = db.seqZones + 1)) =
      db.zoneMembers :=
    List.filter_eq_self.mpr fun m hm => by simpa using hold _ (hw.member_zone m hm)
  have hkeepAtts : db.announcementZones.filter (fun az => ! decide (az.zoneID = db.seqZones + 1)) =
      db.announcementZones :=
    List.filter_eq_self.mpr fun az haz => by simpa using hold _ (hw.attachment_zone az haz)
  have hatts : db'.announcementZones = db.announcementZones := by
    rcases hsame with rfl | ⟨_, rfl⟩ <;> rfl
  refine ⟨?_, ?_, ?_, ?_, ?_⟩
  · rcases hsame with rfl | ⟨_, rfl⟩ <;> rfl
  · change db'.zones.filter _ = _
    rw [hzones, List.filter_append, hkeepZones]
    simp
  · change db'.zoneMembers.filter _ = _
    simp only [hpick]
    rcases hsame with rfl | ⟨_, rfl⟩
    · exact hkeepMembers
    · change (db.zoneMembers ++ [_]).filter _ = _
      rw [List.filter_append, hkeepMembers]
      simp
  · rcases hsame with rfl | ⟨_, rfl⟩ <;> rfl
  · change db'.announcementZones.filter _ = _
    simp only [hpick, hatts]
    exact hkeepAtts

theorem deleteZone_addZone {t : Nft} {zoneIDs : List Int} (hf : t.Frames zoneIDs) {zone : Int}
    (hzone : zone ∉ zoneIDs) : (t.addZone zone).deleteZone zone = t := by
  have hsets : t.members zone = none ∧ t.routes zone = none := by
    have hm := hf.members zone
    have hr := hf.routes zone
    simp only [hzone, decide_false, Option.isSome_eq_false_iff, Option.isNone_iff_eq_none] at hm hr
    exact ⟨hm, hr⟩
  have hrules : t.rules.filter (fun r => ! Rule.referencesZone zone r) = t.rules := by
    refine List.filter_eq_self.mpr fun r hr => ?_
    rw [hf.rules] at hr
    rcases List.mem_cons.mp hr with rfl | hr
    · rfl
    · obtain ⟨z, hz, hr⟩ := List.mem_flatMap.mp hr
      have hne : z ≠ zone := fun heq => hzone (heq ▸ hz)
      rcases List.mem_cons.mp hr with rfl | hr
      · simpa [Rule.referencesZone] using hne
      · rw [List.mem_singleton.mp hr]
        simpa [Rule.referencesZone] using hne
  obtain ⟨rules, members, routes⟩ := t
  simp only at hsets hrules
  simp only [Nft.addZone, Nft.addZoneState, Nft.deleteZone, Function.update_idem,
    List.filter_append, hrules, Nft.mk.injEq]
  refine ⟨by simp [Rule.referencesZone], ?_, ?_⟩
  · rw [← hsets.1, Function.update_eq_self]
  · rw [← hsets.2, Function.update_eq_self]

theorem restored_joinCreator (hs : w.Settled parseKey) (name passwordHash : String) (ownerID : Int)
    {node : Node} (hnode : node ∈ w.db.nodes) (created : Response) :
    Meets parseKey 1 ⟨w.db.addZone name passwordHash ownerID, w.nft.addZone (w.db.seqZones + 1), w.wg⟩
      (joinCreator (w.db.seqZones + 1) node created) fun _ w' => Restored w w' := by
  have hzone : w.db.seqZones + 1 ∉ w.db.zones.map (·.id) := by
    intro hmem
    obtain ⟨z, hz, hid⟩ := List.mem_map.mp hmem
    have hle := hs.wf.zones_seq z hz
    omega
  have hnft : (w.nft.addZone (w.db.seqZones + 1)).deleteZone (w.db.seqZones + 1) = w.nft :=
    deleteZone_addZone hs.synced.frames hzone
  have hback : ∀ db', (db' = w.db.addZone name passwordHash ownerID ∨ ∃ nodeID,
      db' = (w.db.addZone name passwordHash ownerID).addMember ⟨w.db.seqZones + 1, nodeID⟩) →
      Restored w ((rollbackZone (w.db.seqZones + 1)).run (sem parseKey) false
        ⟨db', w.nft.addZone (w.db.seqZones + 1), w.wg⟩).2 := by
    intro db' hdb
    obtain ⟨hnodes, hzones, hmembers, hanns, hatts⟩ := retractedZone_tables hs.wf hdb
    exact ⟨hnodes, hzones, hmembers, hanns, hatts, hnft, rfl⟩
  have hset : ∀ db', ((World.mk (κ := κ) db' (w.nft.addZone (w.db.seqZones + 1)) w.wg).nft.members
      (w.db.seqZones + 1)).isSome = true := fun _ => by simp [Nft.addZone, Nft.addZoneState]
  rw [joinCreator]
  refine meets_store.mpr ?_
  simp only [StoreOp.exec]
  -- the only operation that can fail is the last one
  rcases @join_cases (w.db.addZone name passwordHash ownerID) (w.db.seqZones + 1) node.id with
    ⟨hj, -⟩ | ⟨-, hno⟩ | ⟨hj, -⟩
  · simp only [hj]
    exact meets_netfw_one (sem_addMember (hset _) _) meets_created (hback _ (.inl rfl))
  · have hzoneRow : ∃ z ∈ (w.db.addZone name passwordHash ownerID).zones, z.id = w.db.seqZones + 1 :=
      ⟨_, List.mem_append_right _ (List.mem_singleton_self _), rfl⟩
    exact absurd ⟨hzoneRow, node, hnode, rfl⟩ hno
  · simp only [hj]
    exact meets_netfw_one (sem_addMember (hset _) _) meets_created (hback _ (.inr ⟨node.id, rfl⟩))

theorem only_kernelFree_createZoneRow (ownerID : Int) (name passwordHash : String)
    (maxOwnedZones : Int) :
    (createZoneRow ownerID name passwordHash maxOwnedZones).Only fun i => i.isKernel = false := by
  refine ⟨rfl, fun r => ?_⟩
  rcases r with _ | _ | _ <;> trivial

theorem restored_createZoneFor (hs : w.Settled parseKey) (h : Server κ) (i : Identity)
    (name passwordHash : String) {member : Option Node} (hmember : ∀ node ∈ member, node ∈ w.db.nodes) :
    Meets parseKey 1 w (createZoneFor h i name passwordHash member)
      fun r w' => r.isError = true → Restored w w' := by
  refine (ensures_bind_sure (only_kernelFree_createZoneRow _ _ _ _)).mpr ?_
  rcases run_createZoneRow parseKey i.userID name passwordHash (i.cap h.maxOwnedZonesPerUser) w with
    ⟨e, he⟩ | ⟨-, -, hrun⟩
  · rw [he]
    exact meets_created
  rw [hrun]
  refine (ensures_one rfl).mpr ⟨?_, fun _ => ?_⟩
  · cases member with
    | none => exact meets_created
    | some node =>
      have hback := restored_joinCreator hs name passwordHash i.userID (hmember node rfl)
        ⟨201, .zone (w.db.seqZones + 1) name true⟩
      exact Ensures.mono hback fun _ _ hr _ => hr
  · obtain ⟨hnodes, hzones, hmembers, hanns, hatts⟩ := retractedZone_tables hs.wf
      (.inl (Eq.refl (w.db.addZone name passwordHash i.userID)))
    exact ⟨hnodes, hzones, hmembers, hanns, hatts, rfl, rfl⟩

theorem restored_joinNode (hs : w.Settled parseKey) {zone : Zone} (hzone : zone ∈ w.db.zones)
    {node : Node} (hnode : node ∈ w.db.nodes) : Meets parseKey 1 w (joinNode zone node)
      fun _ w' => Restored w w' ↔ ⟨zone.id, node.id⟩ ∉ w.db.zoneMembers := by
  have hset : ∀ db', ((World.mk db' w.nft w.wg).nft.members zone.id).isSome = true := by
    intro db'
    have hmem : zone.id ∈ w.db.zones.map (·.id) := List.mem_map_of_mem hzone
    simpa [hs.synced.frames.members] using hmem
  rw [joinNode]
  refine meets_store.mpr ?_
  simp only [StoreOp.exec]
  rcases @join_cases w.db zone.id node.id with ⟨hj, hmem⟩ | ⟨-, hno⟩ | ⟨hj, hnew, -⟩
  · -- the node was a member, and no longer is
    simp only [hj]
    refine meets_netfw_one (sem_addMember (hset _) _) meets_created
      (iff_of_false (fun hr => ?_) (not_not.mpr hmem))
    have hleft : ⟨zone.id, node.id⟩ ∉ (w.db.leave zone.id node.id).2.zoneMembers := by
      rcases leave_cases w.db zone.id node.id with ⟨-, hno⟩ | ⟨hl, -⟩
      · exact absurd hmem hno
      · rw [hl]
        simp [DB.deleteMember]
    exact hleft (hr.zoneMembers ▸ hmem)
  · exact absurd ⟨⟨zone, hzone, rfl⟩, node, hnode, rfl⟩ hno
  · simp only [hj]
    refine meets_netfw_one (sem_addMember (hset _) _) meets_created (iff_of_true ?_ hnew)
    have hback : ((w.db.addMember ⟨zone.id, node.id⟩).leave zone.id node.id).2 = w.db := by
      have hkeep : w.db.zoneMembers.filter (· ≠ ⟨zone.id, node.id⟩) = w.db.zoneMembers :=
        List.filter_eq_self.mpr fun m hm => by simpa using ne_of_mem_of_not_mem hm hnew
      rcases leave_cases (w.db.addMember ⟨zone.id, node.id⟩) zone.id node.id with ⟨-, hno⟩ | ⟨hl, -⟩
      · exact absurd (List.mem_append_right _ (List.mem_singleton_self _)) hno
      · rw [hl]
        simp only [DB.deleteMember, DB.addMember, List.filter_append, hkeep]
        simp
    change Restored w ⟨((w.db.addMember ⟨zone.id, node.id⟩).leave zone.id node.id).2, w.nft, w.wg⟩
    rw [hback]
    exact ⟨rfl, rfl, rfl, rfl, rfl, rfl, rfl⟩

/-- A peer given other blocks, none of them another peer's, and then its own again. -/
theorem configurePeer_back {db : DB} {d : Device κ} (hd : ∀ k, d k = db.device parseKey k)
    (hk : db.KeysDecode parseKey) {node : Node} (hnode : node ∈ db.nodes) {key : κ}
    (hkey : parseKey node.pubKey = some key) {A : Finset Prefix}
    (hA : ∀ m ∈ db.nodes, m ≠ node → Disjoint (db.allowed m) A) {d' : Device κ}
    (hd' : d' = d ∨ d' = d.configurePeer key A)
    (hown : ∀ m ∈ db.nodes, m ≠ node → Disjoint (db.allowed m) (db.allowed node)) :
    d'.configurePeer key (db.allowed node) = d := by
  funext k
  by_cases hkk : k = key
  · rw [Device.configurePeer, if_pos hkk, hkk, hd, device_of_mem hk hnode hkey]
  · rw [Device.configurePeer, if_neg hkk]
    cases hdk : d k with
    | none =>
      rcases hd' with rfl | rfl
      · rw [hdk]
        rfl
      · rw [Device.configurePeer, if_neg hkk, hdk]
        rfl
    | some B =>
      rw [hd, device_eq_some hk] at hdk
      obtain ⟨m, hm, hmkey, rfl⟩ := hdk
      have hne : m ≠ node := by
        rintro rfl
        exact hkk (Option.some.inj (hmkey.symm.trans hkey))
      have hdk' : d k = some (db.allowed m) := (hd k).trans (device_of_mem hk hm hmkey)
      rcases hd' with rfl | rfl
      · rw [hdk', Option.map_some, Finset.sdiff_eq_self_of_disjoint (hown m hm hne)]
      · rw [Device.configurePeer, if_neg hkk, hdk', Option.map_some, Option.map_some,
          Finset.sdiff_eq_self_of_disjoint (hA m hm hne),
          Finset.sdiff_eq_self_of_disjoint (hown m hm hne)]

theorem run_rollbackAnnouncement {zoneID annID : Int} {node : Node} {db' db'' : DB}
    {x : Announcement × Bool} (hdetach : db'.detach zoneID annID = (.ok x, db'')) (t : Nft)
    (d : Device κ) :
    ((rollbackAnnouncement zoneID annID node).run (sem parseKey) false ⟨db', t, d⟩).2 =
      ⟨db'', t, (WgOp.setPeerRoutes node.pubKey (uint32ToAddr node.ip) (db''.routes node.id)).effect
        parseKey d⟩ := by
  rw [rollbackAnnouncement, run_store]
  simp only [StoreOp.exec, hdetach]
  exact sem_wg_snd _ _

/-- The growth for a fresh attachment with one failure: it is detached again, and the peer set
to what the node announces then. -/
theorem restored_growDataplane (hs : w.Settled parseKey) {zone : Zone} (hzone : zone ∈ w.db.zones)
    {node : Node} (hnode : node ∈ w.db.nodes) {ann : Announcement} {db' db'' : DB}
    {x : Announcement × Bool} (hdetach : db'.detach zone.id ann.id = (.ok x, db''))
    (hother : ∀ m ∈ w.db.nodes, m ≠ node → Disjoint (w.db.allowed m) (db'.allowed node)) :
    Meets parseKey 1 { w with db := db' } (growDataplane zone node ann) fun b w' =>
      b = false ∧ w'.db = db'' ∧ w'.nft = w.nft ∧
        (db''.routes node.id = w.db.routes node.id → w'.wg = w.wg) := by
  obtain ⟨key, hkey⟩ := hs.keys.isSome node hnode
  have hparse : parseKey node.pubKey ≠ none := by simp [hkey]
  have hset : ∀ d : Device κ, ((World.mk db' w.nft d).nft.routes zone.id).isSome = true := by
    intro d
    have hmem : zone.id ∈ w.db.zones.map (·.id) := List.mem_map_of_mem hzone
    simpa [hs.synced.frames.routes] using hmem
  have hsame : ∀ k, w.wg k = w.db.device parseKey k := fun k => not_not.mp (hs.synced.exact (.peer k))
  have hown : ∀ m ∈ w.db.nodes, m ≠ node → Disjoint (w.db.allowed m) (w.db.allowed node) :=
    fun m hm hne => allowed_disjoint hs.wf hs.canonical hm hnode hne
  have hback : ∀ d' : Device κ, d' = w.wg ∨ d' = w.wg.configurePeer key (db'.allowed node) →
      db''.routes node.id = w.db.routes node.id →
      (WgOp.setPeerRoutes node.pubKey (uint32ToAddr node.ip) (db''.routes node.id)).effect parseKey d' =
        w.wg := by
    intro d' hd' hroutes
    rw [WgOp.effect_setPeerRoutes d' hkey, hroutes]
    exact configurePeer_back hsame hs.keys hnode hkey hother hd' hown
  have hundo : ∀ d' : Device κ, d' = w.wg ∨ d' = w.wg.configurePeer key (db'.allowed node) →
      ∀ r, r = Prog.run (sem parseKey) false
        (rollbackAnnouncement zone.id ann.id node >>= fun _ => (return false : Handler Bool))
        ⟨db', w.nft, d'⟩ →
      r.1 = false ∧ r.2.db = db'' ∧ r.2.nft = w.nft ∧
        (db''.routes node.id = w.db.routes node.id → r.2.wg = w.wg) := by
    rintro d' hd' _ rfl
    rw [run_bind, run_rollbackAnnouncement hdetach]
    exact ⟨rfl, rfl, rfl, hback d' hd'⟩
  rw [growDataplane]
  refine meets_store.mpr (meets_wg_one (sem_setPeerRoutes hparse _ _) ?_ (hundo w.wg (.inl rfl) _ rfl))
  refine meets_netfw_one (sem_addZoneRoute (hset _) _) meets_created (hundo _ (.inr ?_) _ rfl)
  exact WgOp.effect_setPeerRoutes w.wg hkey _ _

theorem detach_attached {db : DB} (hw : db.Wf) {a : Announcement} (ha : a ∈ db.announcements)
    {zoneID : Int} (hnew : ⟨a.id, zoneID⟩ ∉ db.announcementZones) :
    ∃ x, (db.attach ⟨a.id, zoneID⟩).detach zoneID a.id = (.ok x, (db.reclaimIfOrphaned a.id).2) := by
  have hkeep : db.announcementZones.filter (fun az => ! decide (az = ⟨a.id, zoneID⟩)) =
      db.announcementZones :=
    List.filter_eq_self.mpr fun az haz => by simpa using ne_of_mem_of_not_mem haz hnew
  have hback : (db.attach ⟨a.id, zoneID⟩).deleteAttachments (· = ⟨a.id, zoneID⟩) = db := by
    simp only [DB.deleteAttachments, DB.attach, List.filter_append, hkeep]
    simp
  rcases detach_cases (db.attach ⟨a.id, zoneID⟩) zoneID a.id with ⟨-, hno⟩ | ⟨b, -, -, hd⟩
  · have hfind : (db.attach ⟨a.id, zoneID⟩).announcementByID? a.id = some a :=
      (announcementByID?_eq_some hw).mpr ⟨ha, rfl⟩
    exact absurd (List.mem_append_right _ (List.mem_singleton_self _)) (hno a hfind)
  · rw [hd, DB.detachOne, hback]
    exact ⟨_, rfl⟩

theorem reclaimIfOrphaned_tables {db : DB} (annID : Int) :
    ((db.reclaimIfOrphaned annID).2 = db ∧ db.attached annID = true) ∨
      ((db.reclaimIfOrphaned annID).2 = db.deleteAnnouncements (fun a => a.id = annID) ∧
        db.attached annID = false) := by
  unfold DB.reclaimIfOrphaned
  split_ifs with hatt
  · exact .inl ⟨rfl, hatt⟩
  · exact .inr ⟨rfl, by simpa using hatt⟩

/-- The announcement that is new goes again with its attachment, and nothing else does. -/
theorem detach_announced {db : DB} (hw : db.Wf) {nodeID : Int} {real : Block} {zoneID : Int}
    {syntheticBase : BitVec 32} : ∃ x db'',
      (db.announce nodeID real zoneID syntheticBase).detach zoneID (db.seqAnnouncements + 1) =
        (.ok x, db'') ∧
      db''.nodes = db.nodes ∧ db''.zones = db.zones ∧ db''.zoneMembers = db.zoneMembers ∧
      db''.announcements = db.announcements ∧ db''.announcementZones = db.announcementZones := by
  have hold : ∀ x : Int, (∃ a ∈ db.announcements, a.id = x) → x ≠ db.seqAnnouncements + 1 := by
    rintro _ ⟨a, ha, rfl⟩ heq
    have hle := hw.announcements_seq a ha
    omega
  generalize hdb : db.announce nodeID real zoneID syntheticBase = db'
  have hanns : db'.announcements = db.announcements ++
      [⟨db.seqAnnouncements + 1, nodeID, real.base, real.prefixLen, syntheticBase⟩] := hdb ▸ rfl
  have hatts : db'.announcementZones = db.announcementZones ++ [⟨db.seqAnnouncements + 1, zoneID⟩] :=
    hdb ▸ rfl
  have hkeepAtts : db.announcementZones.filter
      (fun az => ! decide (az = ⟨db.seqAnnouncements + 1, zoneID⟩)) = db.announcementZones := by
    refine List.filter_eq_self.mpr fun az haz => ?_
    have hne := hold _ (hw.attachment_announcement az haz)
    have hne' : az ≠ ⟨db.seqAnnouncements + 1, zoneID⟩ := fun heq => hne (heq ▸ rfl)
    simpa using hne'
  have hkeepAnns : db.announcements.filter (fun a => ! decide (a.id = db.seqAnnouncements + 1)) =
      db.announcements :=
    List.filter_eq_self.mpr fun a ha => by simpa using hold _ ⟨a, ha, rfl⟩
  have hdetached : (db'.deleteAttachments
      (· = ⟨db.seqAnnouncements + 1, zoneID⟩)).announcementZones = db.announcementZones := by
    change db'.announcementZones.filter _ = _
    rw [hatts, List.filter_append, hkeepAtts]
    simp
  -- nothing refers to the new id any more
  have horphan : (db'.deleteAttachments (· = ⟨db.seqAnnouncements + 1, zoneID⟩)).attached
      (db.seqAnnouncements + 1) = false := by
    rw [DB.attached, hdetached, List.any_eq_false]
    intro az haz
    simpa using hold _ (hw.attachment_announcement az haz)
  have hfind : ∃ a, db'.announcementByID? (db.seqAnnouncements + 1) = some a := by
    have hsome : (db'.announcements.find? fun a => a.id = db.seqAnnouncements + 1).isSome = true := by
      rw [hanns]
      simp
    exact Option.isSome_iff_exists.mp hsome
  rcases detach_cases db' zoneID (db.seqAnnouncements + 1) with ⟨-, hno⟩ | ⟨b, -, -, hd⟩
  · obtain ⟨a, ha⟩ := hfind
    exact absurd (hatts ▸ List.mem_append_right _ (List.mem_singleton_self _)) (hno a ha)
  refine ⟨_, _, hd, ?_⟩
  rcases @reclaimIfOrphaned_tables (db'.deleteAttachments (· = ⟨db.seqAnnouncements + 1, zoneID⟩))
    (db.seqAnnouncements + 1) with ⟨-, hatt⟩ | ⟨hgone, -⟩
  · rw [horphan] at hatt
    cases hatt
  rw [DB.detachOne, hgone]
  refine ⟨hdb ▸ rfl, hdb ▸ rfl, hdb ▸ rfl, ?_, ?_⟩
  · change db'.announcements.filter _ = _
    rw [hanns, List.filter_append, hkeepAnns]
    simp
  · refine eq_of_sublist_of_subset ?_ hw.attachments_nodup fun az haz => ?_
    · exact hdetached ▸ (sub_deleteAnnouncements _ _).announcementZones
    · refine mem_deleteAnnouncements_attachments.mpr ⟨hdetached.symm ▸ haz, fun a _ hid => ?_⟩
      have hne := hold _ (hw.attachment_announcement az haz)
      simpa [hid] using hne

/-- A growth that fails once is over; one that does not leaves no failure. -/
theorem meets_growDataplane (hs : w.Settled parseKey) {zone : Zone} (hzone : zone ∈ w.db.zones)
    {node : Node}
    (hnode : node ∈ w.db.nodes) {ann : Announcement} {db' db'' : DB} {x : Announcement × Bool}
    {created : Response} {answer : Bool → Handler Response} (hfalse : answer false = pure serverError)
    (htrue : answer true = pure created) (hdetach : db'.detach zone.id ann.id = (.ok x, db''))
    (hother : ∀ m ∈ w.db.nodes, m ≠ node → Disjoint (w.db.allowed m) (db'.allowed node))
    {Q : Response → World κ → Prop} (hQ : ∀ w' : World κ, w'.db = db'' → w'.nft = w.nft →
      (db''.routes node.id = w.db.routes node.id → w'.wg = w.wg) → Q serverError w') :
    Meets parseKey 1 { w with db := db' } (growDataplane zone node ann >>= answer) Q := by
  refine ensures_bind.mpr fun i j hij => ?_
  obtain ⟨rfl, rfl⟩ | ⟨rfl, rfl⟩ : i = 1 ∧ j = 0 ∨ i = 0 ∧ j = 1 := by omega
  · refine Ensures.mono (restored_growDataplane hs hzone hnode hdetach hother) fun b w' hr => ?_
    obtain ⟨rfl, hdb, hnft, hwg⟩ := hr
    rw [hfalse]
    exact fun _ => hQ w' hdb hnft hwg
  · refine ensures_zero.mpr ?_
    cases Prod.fst _ with
    | false =>
      rw [hfalse]
      exact meets_created
    | true =>
      rw [htrue]
      exact meets_created

omit [DecidableEq κ] in
/-- An announcement that the node had made before goes with its attachment, if it had no other. -/
theorem restored_reclaimed (hw : w.db.Wf) {a : Announcement} (ha : a ∈ w.db.announcements) {nodeID : Int}
    (hid : a.nodeID = nodeID) {real : Block} (hreal : a.real = real) {w' : World κ}
    (hdb : w'.db = (w.db.reclaimIfOrphaned a.id).2) (hnft : w'.nft = w.nft)
    (hwg : (w.db.reclaimIfOrphaned a.id).2.routes nodeID = w.db.routes nodeID → w'.wg = w.wg) :
    Restored w w' ↔
      ¬ ∃ b ∈ w.db.announcements, b.nodeID = nodeID ∧ b.real = real ∧ w.db.attached b.id = false := by
  rcases @reclaimIfOrphaned_tables w.db a.id with ⟨hkept, hatt⟩ | ⟨hgone, hatt⟩
  · -- attached elsewhere, so it stays
    rw [hkept] at hdb hwg
    have hrestored : Restored w w' := ⟨by rw [hdb], by rw [hdb], by rw [hdb], by rw [hdb], by rw [hdb],
      hnft, hwg rfl⟩
    refine iff_of_true hrestored ?_
    rintro ⟨b, hb, hbid, hbreal, hbatt⟩
    obtain rfl := hw.announcement_real b hb a ha (by simp only [hbid, hid, hbreal, hreal])
    rw [hbatt] at hatt
    cases hatt
  · refine iff_of_false (fun hr => ?_) (not_not.mpr ⟨a, ha, hid, hreal, hatt⟩)
    have hlost : a ∉ w'.db.announcements := by
      rw [hdb, hgone, mem_deleteAnnouncements]
      simp
    exact hlost (hr.announcements ▸ ha)

/-- What another node announces is none of a node's. -/
theorem allowed_announce {db : DB} (hw : db.Wf) {node m : Node} (hnode : node ∈ db.nodes)
    (hm : m ∈ db.nodes)
    (hne : m ≠ node) (real : Block) (zoneID : Int) (base : BitVec 32) :
    (db.announce node.id real zoneID base).allowed m = db.allowed m := by
  refine allowed_congr fun b hb => ⟨fun hmem => ?_, fun hmem => List.mem_append_left _ hmem⟩
  rcases List.mem_append.mp hmem with hmem | hmem
  · exact hmem
  · rw [List.mem_singleton.mp hmem] at hb
    exact absurd (hw.nodes_asc.keyed m hm node hnode hb.symm) hne

theorem restored_announceSubnet (hs : w.Settled parseKey) (h : Server κ) (i : Identity) {zone : Zone}
    (hzone : zone ∈ w.db.zones) {node : Node} (hnode : node ∈ w.db.nodes) {subnet pool : Prefix}
    (hv : pool.Valid) (hsubnet : validAnnouncedSubnet h subnet = none) :
    Meets parseKey 1 w (announceSubnet h i zone node subnet pool) fun _ w' => Restored w w' ↔
      ¬ ∃ a ∈ w.db.announcements, a.nodeID = node.id ∧ a.real = blockFromPrefix subnet ∧
        w.db.attached a.id = false := by
  have hw := hs.wf
  rw [announceSubnet]
  refine meets_store.mpr ?_
  simp only [StoreOp.exec]
  rcases @createAnnouncement_cases w.db i.userID node.id (blockFromPrefix subnet) zone.id
    (i.cap h.maxAnnouncedSubnetsPerUser) pool with
    ⟨hsame, e, he⟩ | ⟨a, -, -, -, -, -, hrun⟩ | ⟨a, ha, hid, hreal, -, hnew, -, hrun⟩ |
      ⟨synthetic, hok, hrun⟩
  · -- rejected: nothing is written
    simp only [he]
    exact meets_created
  · simp only [hrun]
    exact meets_created
  · simp only [hrun]
    obtain ⟨x, hdetach⟩ := detach_attached hw ha hnew
    exact meets_growDataplane hs hzone hnode rfl rfl hdetach
      (fun m hm hne => allowed_disjoint hw hs.canonical hm hnode hne)
      fun w' hdb hnft hwg => restored_reclaimed hw ha hid hreal hdb hnft hwg
  · simp only [hrun]
    have hlen : (blockFromPrefix subnet).prefixLen < 32 := by
      have hbits := (validAnnouncedSubnet_bits hsubnet).2
      rw [blockFromPrefix_prefixLen]
      omega
    obtain ⟨x, db'', hdetach, hnodes, hzones, hmembers, hanns, hatts⟩ :=
      @detach_announced w.db hw node.id
      (blockFromPrefix subnet) zone.id synthetic.base
    refine meets_growDataplane hs hzone hnode rfl rfl hdetach (fun m hm hne => ?_)
      fun w' hdb hnft hwg => iff_of_true ?_ ?_
    · have hdisjoint := allowed_disjoint (hok.wf hw) (hs.canonical.announce hv hlen hok) hm hnode hne
      rwa [allowed_announce hw hnode hm hne] at hdisjoint
    · rw [← hdb] at hnodes hzones hmembers hanns hatts
      refine ⟨hnodes, hzones, hmembers, hanns, hatts, hnft, hwg ?_⟩
      rw [← hdb, DB.routes, DB.routes, hanns]
    · rintro ⟨b, hb, hbid, hbreal, -⟩
      exact hok.unknown b hb (by rw [hbid, hbreal])

/-- One kernel operation failed and the answer is an error: everything is as before, except
where the request repeated something. -/
theorem compensation_restores_iff (h : Server κ) (hw : w.db.Wf) (hc : w.db.Canonical)
    (hk : w.db.KeysDecode h.parseKey) (hr : w.Rebuilt h.parseKey) {r : Request}
    (hgrows : r.call.Grows = true) {tr : List (Op × Bool)} {resp : Response} {w' : World κ}
    (hrun : (handle h r).Runs (sem h.parseKey) w tr resp w')
    (hkernel : ∀ x ∈ tr, x.2 = true → x.1.isKernel = true) (hone : tr.countP (·.2) = 1)
    (herr : resp.isError = true) : Restored w w' ↔ ¬ r.call.Repeats w.db := by
  have hs : w.Settled h.parseKey := ⟨hw, hc, hk, (synced_iff_rebuilt hw hc hk).mpr hr⟩
  obtain ⟨identity, call⟩ := r
  -- a fault is spent in the handler or in its compensation; Meets 1 says what it leaves
  suffices hm : Meets h.parseKey 1 w (handle h ⟨identity, call⟩) fun resp w' =>
      resp.isError = true → (Restored w w' ↔ ¬ call.Repeats w.db) from
    ensures_iff_runs.mp hm tr resp w' hrun hkernel hone herr
  cases call with
  | registerNode body =>
    refine meets_registerNode h (fun hn => absurd hn one_ne_zero)
      fun i req _ hkey node huser hpub hfits => ?_
    refine Ensures.mono (restored_addNodePeer hs hfits (hpub ▸ hkey) i huser) fun _ _ hback herr => ?_
    exact iff_of_true (hback herr) id
  | createZone body salt =>
    refine meets_createZone h (fun hn => absurd hn one_ne_zero) fun i name hash member hmember => ?_
    refine Ensures.mono (restored_createZoneFor hs h i name hash hmember) fun _ _ hback herr => ?_
    exact iff_of_true (hback herr) id
  | joinZone name body =>
    refine meets_joinZone h (fun hn => absurd hn one_ne_zero)
      fun req hreq zone hzone hname node hnode hid => ?_
    subst hreq
    refine Ensures.mono (restored_joinNode hs hzone hnode) fun _ _ hback _ => hback.trans (not_congr ?_)
    rw [hid]
    refine ⟨fun hmem => ⟨zone, hzone, hname, hmem⟩, ?_⟩
    rintro ⟨z, hz, hzname, hmem⟩
    rwa [hw.zone_name z hz zone hzone (hzname.trans hname.symm)] at hmem
  | createAnnouncement name body =>
    refine meets_createAnnouncement h (fun hn => absurd hn one_ne_zero)
      fun i req hreq zone hzone node hnode hid pool hpool p hp hvalid => ?_
    subst hreq
    refine Ensures.mono (restored_announceSubnet hs h i hzone hnode (h.announcePool_valid pool hpool)
      hvalid) fun _ _ hback _ => hback.trans (not_congr ?_)
    rw [hid]
    refine ⟨fun hold => ⟨p, hp, hold⟩, ?_⟩
    rintro ⟨q, hq, hold⟩
    rwa [← Option.some.inj (hp.symm.trans hq)] at hold
  | _ => cases hgrows

end

def labJoin : Request := ⟨alice, .joinZone "lab" (some ⟨1, "passphrase"⟩)⟩

def labJoinTrace : List (Op × Bool) :=
  [(.store (.getByName "lab"), false), (.store (.getOwned 1 1), false), (.store (.join 1 1), false),
    (.netfw (.addMember 1 (.v4 0x0A000002)), true), (.store (.leave 1 1), false)]

theorem labJoin_runs {members : List ZoneMember} (h : members = [] ∨ members = [⟨1, 1⟩]) :
    (handle labServer labJoin).Runs (sem some) (rebuilt (labDB members)) labJoinTrace serverError
      { rebuilt (labDB members) with db := labDB [] } := by
  rcases h with rfl | rfl
  · exact ⟨_, _, rfl, _, _, rfl, _, _, rfl, _, _, rfl, _, _, rfl, rfl, rfl, rfl⟩
  · exact ⟨_, _, rfl, _, _, rfl, _, _, rfl, _, _, rfl, _, _, rfl, rfl, rfl, rfl⟩

theorem labJoin_kernel : ∀ x ∈ labJoinTrace, x.2 = true → x.1.isKernel = true := by
  simp [labJoinTrace, Op.isKernel]

theorem labDB_rebuilt {members : List ZoneMember} (h : members = [] ∨ members = [⟨1, 1⟩]) :
    (labDB members).Canonical ∧ (labDB members).KeysDecode some ∧
      (rebuilt (labDB members)).Rebuilt some := by
  have hc : (labDB members).Canonical := by simp [DB.Canonical, labDB]
  have hk : (labDB members).KeysDecode some := by
    constructor <;> simp [labDB]
  exact ⟨hc, hk, rfl, rebuildNodePeers_eq (labDB_wf h) hc hk⟩

/-- A first join is undone. -/
theorem compensation_restores_iff_first_join :
    Restored (rebuilt (labDB [])) { rebuilt (labDB []) with db := labDB [] } := by
  obtain ⟨hc, hk, hr⟩ := labDB_rebuilt (.inl rfl)
  refine (compensation_restores_iff (w := rebuilt (labDB [])) labServer (labDB_wf (.inl rfl)) hc hk
    hr (r := labJoin) rfl (labJoin_runs (.inl rfl)) labJoin_kernel rfl rfl).mpr ?_
  rintro ⟨_, -, -, hmem⟩
  cases hmem

/-- A repeated join is not: the node loses the membership it had before. -/
theorem failed_rejoin_leaves :
    ∃ tr resp w', (handle labServer labJoin).Runs (sem some) (rebuilt (labDB [⟨1, 1⟩])) tr resp w' ∧
      (∀ x ∈ tr, x.2 = true → x.1.isKernel = true) ∧ tr.countP (·.2) = 1 ∧ resp.isError = true ∧
      (rebuilt (labDB [⟨1, 1⟩])).db.Wf ∧ (rebuilt (labDB [⟨1, 1⟩])).Rebuilt some ∧
      ¬ Restored (rebuilt (labDB [⟨1, 1⟩])) w' := by
  refine ⟨_, _, _, labJoin_runs (.inr rfl), labJoin_kernel, rfl, rfl, labDB_wf (.inr rfl),
    (labDB_rebuilt (.inr rfl)).2.2, fun hr => ?_⟩
  have hmembers : ([] : List ZoneMember) = [⟨1, 1⟩] := hr.zoneMembers
  cases hmembers

end LanWeave

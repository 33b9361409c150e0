import LanWeave.Server.Mend
import LanWeave.Server.Outcome

/-! Request by request: the incremental updates leave the dataplane equal to the database. -/

namespace LanWeave
open Library Prog DB

section
variable {κ : Type} [DecidableEq κ] {parseKey : String → Option κ} {w : World κ}

/-- A world in order: its database is sound, and its dataplane equals it. -/
structure World.Settled (parseKey : String → Option κ) (w : World κ) : Prop where
  wf : w.db.Wf
  canonical : w.db.Canonical
  keys : w.db.KeysDecode parseKey
  synced : w.Synced parseKey

/-- A statement and a program that mends all it has changed. -/
theorem World.Settled.mended {α : Type} (hs : w.Settled parseKey) {db' : DB} (hw' : db'.Wf)
    (hc' : db'.Canonical) (hk' : db'.KeysDecode parseKey) {p : Handler α} {mended : Grant κ → Prop}
    (hp : Mends parseKey db' (w.db.zones.map (·.id)) (db'.zones.map (·.id)) p mended)
    (hx : ∀ x, Changes parseKey w.db db' x → mended x) :
    (p.run (sem parseKey) false { w with db := db' }).2.Settled parseKey ∧
      (p.run (sem parseKey) false { w with db := db' }).2.db = db' := by
  obtain ⟨⟨hdb, hframes⟩, hdrifts⟩ := hp { w with db := db' } ⟨rfl, hs.synced.frames⟩
  refine ⟨⟨hdb.symm ▸ hw', hdb.symm ▸ hc', hdb.symm ▸ hk', hdb.symm ▸ hframes, fun x hd => ?_⟩, hdb⟩
  · obtain ⟨hbefore, hnot⟩ := hdrifts x hd
    rcases drifts_store hbefore with hold | hchange
    · exact hs.synced.exact x hold
    · exact hnot (hx x hchange)

theorem World.Settled.removed {α : Type} (hs : w.Settled parseKey) {db' : DB} (hsub : Sub db' w.db)
    (hw' : db'.Wf) {p : Handler α} {mended : Grant κ → Prop}
    (hp : Mends parseKey db' (w.db.zones.map (·.id)) (db'.zones.map (·.id)) p mended)
    (hx : ∀ x, Changes parseKey w.db db' x → mended x) :
    (p.run (sem parseKey) false { w with db := db' }).2.Settled parseKey :=
  (hs.mended hw' (hsub.canonical hs.canonical) (hsub.keysDecode hs.keys) hp hx).1

theorem routes_of_fresh {db : DB} (h : db.Wf) {n : Node} (hid : n.id = db.seqNodes + 1) :
    (db.withNode n).routes n.id = [] := by
  have hnone : ∀ a ∈ db.announcements, a.nodeID ≠ n.id := by
    intro a ha heq
    obtain ⟨m, hm, hmid⟩ := h.announcement_node a ha
    have hle := h.nodes_seq m hm
    omega
  simpa [DB.routes, DB.withNode, DB.addNode, List.filter_eq_nil_iff] using hnone

theorem NodeFits.wf {db : DB} (h : db.Wf) {n : Node} (hn : NodeFits db n) : (db.withNode n).Wf :=
  h.addNode n.platform hn.user hn.name hn.ip hn.key

theorem NodeFits.mem {db : DB} {n : Node} (hn : NodeFits db n) : n ∈ (db.withNode n).nodes := by
  obtain ⟨id, userID, name, pubKey, ip, platform⟩ := n
  obtain rfl : id = _ := hn.id
  exact List.mem_append_right _ (List.mem_singleton_self _)

theorem resync_addNodePeer (hs : w.Settled parseKey) {node : Node} (hfits : NodeFits w.db node)
    (hk' : (w.db.withNode node).KeysDecode parseKey) (i : Identity) :
    ((addNodePeer i node).run (sem parseKey) false
      { w with db := w.db.withNode node }).2.Settled parseKey := by
  obtain ⟨key, hkey⟩ := hk'.isSome node hfits.mem
  have hmend : Mends parseKey (w.db.withNode node) (w.db.zones.map (·.id)) (w.db.zones.map (·.id))
      _ _ := mends_setPeerRoutes (hfits.wf hs.wf) hs.canonical hk' hfits.mem hkey
  rw [routes_of_fresh hs.wf hfits.id] at hmend
  have hparse : parseKey node.pubKey ≠ none := by simp [hkey]
  have hsettled := hs.mended (hfits.wf hs.wf) hs.canonical hk' hmend fun x hx => by
    obtain ⟨key', hkey', rfl⟩ := changes_addNode hs.wf hk' hx
    rw [Option.some.inj (hkey'.symm.trans hkey)]
  change World.Settled parseKey (sem parseKey (.wg _) false _).2 ∧ _ at hsettled
  rw [sem_wg_snd] at hsettled
  rw [addNodePeer, WgOp.addPeer, run_setPeerRoutes hparse]
  exact hsettled.1

theorem getOwned_of_mem {db : DB} (h : db.Wf) {n : Node} (hn : n ∈ db.nodes) :
    db.getOwned n.userID n.id = .ok n := by
  have hfind : db.nodes.find? (fun m => m.id = n.id ∧ m.userID = n.userID) = some n := by
    cases hf : db.nodes.find? fun m => m.id = n.id ∧ m.userID = n.userID with
    | none => simpa using List.find?_eq_none.mp hf n hn
    | some m =>
      have hm : m.id = n.id ∧ m.userID = n.userID := by simpa using List.find?_some hf
      rw [h.nodes_asc.keyed m (List.mem_of_find?_eq_some hf) n hn hm.1]
  rw [DB.getOwned, hfind]

/-- The node, as `DeleteOwned` deletes it. -/
def DB.withoutNode (db : DB) (n : Node) : DB :=
  db.deleteNodes fun m => m.id = n.id ∧ m.userID = n.userID

theorem mem_withoutNode {db : DB} (h : db.Wf) {n m : Node} (hn : n ∈ db.nodes) :
    m ∈ (db.withoutNode n).nodes ↔ m ∈ db.nodes ∧ m ≠ n := by
  rw [DB.withoutNode, mem_deleteNodes]
  refine and_congr_right fun hm => ?_
  simp only [decide_eq_false_iff_not, not_and, ne_eq]
  constructor
  · rintro hne rfl
    exact hne rfl rfl
  · intro hne hid
    exact absurd (h.nodes_asc.keyed m hm n hn hid) hne

theorem run_deleteOwned (parseKey : String → Option κ) (hw : w.db.Wf) {n : Node} (hn : n ∈ w.db.nodes) :
    (deleteOwned n.userID n.id).run (sem parseKey) false w =
      (.ok n.pubKey, { w with db := w.db.withoutNode n }) := by
  have hpub : w.db.ownedPubKey n.userID n.id = .ok n.pubKey := by
    rw [DB.ownedPubKey, getOwned_of_mem hw hn]
    rfl
  rw [deleteOwned, run_store]
  simp only [StoreOp.exec, hpub]
  rfl

omit [DecidableEq κ] in
theorem gone_withoutNode {db : DB} (h : db.Wf) (hc : db.Canonical) (hk : db.KeysDecode parseKey)
    {n : Node} (hn : n ∈ db.nodes) :
    (∀ z, ¬ (db.withoutNode n).MemberIP z n.ip) ∧
    (∀ a ∈ db.announcements, a.nodeID = n.id → ∀ z,
      ¬ (db.withoutNode n).ZoneRange z (rangeElements a.synthetic.toPrefix)) ∧
    ∀ key, parseKey n.pubKey = some key →
      ∀ m ∈ (db.withoutNode n).nodes, parseKey m.pubKey ≠ some key := by
  refine ⟨?_, ?_, ?_⟩
  · rintro z ⟨_, -, -, m, hm, -, hip⟩
    obtain ⟨hm, hne⟩ := (mem_withoutNode h hn).mp hm
    exact hne (h.node_ip m hm n hn hip)
  · rintro a ha hid z ⟨_, -, -, b, hb, -, hr⟩
    obtain ⟨hb, hkeep⟩ := mem_deleteNodes_announcements.mp hb
    obtain rfl := hc.range_inj h hb ha hr
    simpa using hkeep n hn hid.symm
  · intro key hkey m hm hkey'
    obtain ⟨hm, hne⟩ := (mem_withoutNode h hn).mp hm
    exact hne (hk.distinct m hm n hn (hkey'.trans hkey.symm))

theorem changes_withoutNode {db : DB} (h : db.Wf) (hk : db.KeysDecode parseKey) {n : Node}
    (hn : n ∈ db.nodes) {x : Grant κ} (hx : Changes parseKey db (db.withoutNode n) x) :
    (∃ m ∈ db.zoneMembers, m.nodeID = n.id ∧ x = .member m.zoneID n.ip) ∨
    (∃ a ∈ db.announcements, a.nodeID = n.id ∧ ∃ az ∈ db.announcementZones,
      az.announcementID = a.id ∧ x = .route az.zoneID (rangeElements a.synthetic.toPrefix)) ∨
    ∃ key, parseKey n.pubKey = some key ∧ x = .peer key := by
  rcases (sub_deleteNodes db _).changes hk hx with ⟨hold, hnew⟩ | ⟨m, hm, key, -, -, a, ha, hna, hid⟩
  · obtain ⟨m, hm, hp, hlost⟩ := lost_deleteNodes hold h hnew
    have hmn : m.id = n.id ∧ m.userID = n.userID := by simpa using hp
    obtain rfl := h.nodes_asc.keyed m hm n hn hmn.1
    exact hlost
  · -- the announcements of the nodes that stay, stay
    obtain ⟨hm, hne⟩ := (mem_withoutNode h hn).mp hm
    refine absurd (mem_deleteNodes_announcements.mpr ⟨ha, fun m' hm' hid' => ?_⟩) hna
    obtain rfl := h.nodes_asc.keyed m' hm' m hm (hid'.trans hid)
    have hne' : m'.id ≠ n.id := fun heq => hne (h.nodes_asc.keyed m' hm n hn heq)
    simp [hne']

theorem mem_zonesForNode {db : DB} {n : Node} {m : ZoneMember} (hm : m ∈ db.zoneMembers)
    (hid : m.nodeID = n.id) :
    m.zoneID ∈ (db.zoneMembers.filter (·.nodeID = n.id)).map (·.zoneID) :=
  List.mem_map_of_mem (List.mem_filter.mpr ⟨hm, by simpa using hid⟩)

/-- The rows of `AttachmentsForNode`. -/
def DB.nodeAttachments (db : DB) (nodeID : Int) : List ZoneDetachment :=
  db.announcementZones.filterMap fun az =>
    ((db.announcementByID? az.announcementID).filter (·.nodeID = nodeID)).map fun a =>
      ⟨a.id, nodeID, az.zoneID, a.synthetic.toPrefix, false⟩

theorem mem_nodeAttachments {db : DB} (h : db.Wf) {nodeID : Int} {att : ZoneDetachment} :
    att ∈ db.nodeAttachments nodeID ↔ ∃ az ∈ db.announcementZones, ∃ a ∈ db.announcements,
      a.id = az.announcementID ∧ a.nodeID = nodeID ∧
        att = ⟨a.id, nodeID, az.zoneID, a.synthetic.toPrefix, false⟩ := by
  simp only [DB.nodeAttachments, List.mem_filterMap, Option.map_eq_some_iff, Option.filter_eq_some_iff,
    announcementByID?_eq_some h, decide_eq_true_eq]
  refine exists_congr fun az => and_congr_right fun _ => exists_congr fun a => ?_
  constructor
  · rintro ⟨⟨⟨ha, hid⟩, hn⟩, rfl⟩
    exact ⟨ha, hid, hn, rfl⟩
  · rintro ⟨ha, hid, hn, rfl⟩
    exact ⟨⟨⟨ha, hid⟩, hn⟩, rfl⟩

theorem resync_deleteNode (hs : w.Settled parseKey) (id : Option Identity) (path : String) :
    ((deleteNode id path).run (sem parseKey) false w).2.Settled parseKey := by
  refine meets_zero.mp (meets_authenticated (fun _ _ => hs) fun i _ => ?_)
  refine meets_pathID (fun _ _ => hs) fun nodeID _ => ?_
  refine meets_ownedNode (fun _ _ => hs) fun n hn hid huser => ?_
  subst hid
  refine meets_store.mpr (meets_store.mpr (meets_zero.mpr ?_))
  obtain ⟨key, hkey⟩ := hs.keys.isSome n hn
  obtain ⟨hmember, hrange, hpeer⟩ := gone_withoutNode hs.wf hs.canonical hs.keys hn
  have hdelete := run_deleteOwned parseKey hs.wf hn
  rw [huser] at hdelete
  simp only [StoreOp.exec, DB.zonesForNode, DB.attachmentsForNode]
  rw [run_bind, hdelete]
  refine hs.removed (sub_deleteNodes w.db _) (hs.wf.deleteNodes _)
    (Repairs.bind (mends_removePeer hkey (hpeer key hkey)) fun _ =>
    Repairs.bind (mends_forEach fun zid _ =>
      mends_ignored (mends_removeMember zid (uint32ToAddr n.ip) (hmember zid))) fun _ =>
    Repairs.bind (mends_forEach fun att hatt =>
      mends_ignored (mends_removeZoneRoute att.zoneID att.synthetic ?_)) fun _ =>
    repairs_pure noContent) ?_
  · obtain ⟨az, -, a, ha, -, hnode, rfl⟩ := (mem_nodeAttachments hs.wf).mp hatt
    exact hrange a ha hnode az.zoneID
  · intro x hx
    rcases changes_withoutNode hs.wf hs.keys hn hx with
      ⟨m, hm, hmid, rfl⟩ | ⟨a, ha, hnode, az, haz, hazid, rfl⟩ | ⟨key', hkey', rfl⟩
    · exact .inr (.inl ⟨m.zoneID, mem_zonesForNode hm hmid, rfl⟩)
    · refine .inr (.inr (.inl ⟨⟨a.id, n.id, az.zoneID, a.synthetic.toPrefix, false⟩, ?_, rfl⟩))
      exact (mem_nodeAttachments hs.wf).mpr ⟨az, haz, a, ha, hazid.symm, hnode, rfl⟩
    · rw [Option.some.inj (hkey'.symm.trans hkey)]
      exact .inl rfl

end
end LanWeave

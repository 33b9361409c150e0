import LanWeave.Server.Api
import LanWeave.Server.StoreInvariant

/-! The startup rebuild of the dataplane from the database, and what it yields zone by zone
and peer by peer. -/

namespace LanWeave
open Library

namespace DB

/-- The nodes of the memberships of a zone. -/
def memberNodes (db : DB) (zoneID : Int) : List Node :=
  (db.zoneMembers.filter (·.zoneID = zoneID)).filterMap fun m => db.nodeByID? m.nodeID

/-- The announced synthetic blocks of a node, as `RoutesForNode` and `RoutesByNode` list them. -/
def routes (db : DB) (nodeID : Int) : List Prefix :=
  (db.announcements.filter (·.nodeID = nodeID)).map (·.synthetic.toPrefix)

/-- `AllForRebuild` joined with `RoutesByZone`. -/
def zoneStates (db : DB) : List ZoneState :=
  db.zones.map fun z => ⟨z.id, (db.memberNodes z.id).map fun n => uint32ToAddr n.ip,
    (db.announcementsInZone z.id).map (·.synthetic.toPrefix)⟩

/-- `AllForPeers` joined with `RoutesByNode`. -/
def peerConfigs (db : DB) : List PeerConfig :=
  db.nodes.map fun n => ⟨n.pubKey, uint32ToAddr n.ip, db.routes n.id⟩

end DB

def rebuildZoneRules (db : DB) : Nft := Nft.build db.zoneStates

def rebuildNodePeers {κ : Type} [DecidableEq κ] (parseKey : String → Option κ) (db : DB) :
    Except KernelErr (Device κ) := Device.replacePeers parseKey db.peerConfigs

/-- The rules of a table whose zones are these, in this order. -/
def zoneRules (zoneIDs : List Int) : List Rule :=
  .ctEstablishedAccept :: zoneIDs.flatMap fun z => [.sameZoneAccept z, .zoneRouteAccept z]

namespace DB

/-- The database lists a node with this address as a member of the zone. -/
def MemberIP (db : DB) (zoneID : Int) (ip : BitVec 32) : Prop :=
  ∃ m ∈ db.zoneMembers, m.zoneID = zoneID ∧ ∃ n ∈ db.nodes, n.id = m.nodeID ∧ n.ip = ip

/-- The range is that of the synthetic block of an announcement attached to the zone. -/
def ZoneRange (db : DB) (zoneID : Int) (r : Range) : Prop :=
  ∃ az ∈ db.announcementZones, az.zoneID = zoneID ∧
    ∃ a ∈ db.announcements, a.id = az.announcementID ∧ rangeElements a.synthetic.toPrefix = r

def memberSet (db : DB) (zoneID : Int) : Finset (BitVec 32) :=
  ((db.memberNodes zoneID).map (·.ip)).toFinset

def rangeSet (db : DB) (zoneID : Int) : Finset Range :=
  ((db.announcementsInZone zoneID).map fun a => rangeElements a.synthetic.toPrefix).toFinset

variable {db : DB}

theorem mem_memberSet (h : db.Wf) {zoneID : Int} {ip : BitVec 32} :
    ip ∈ db.memberSet zoneID ↔ db.MemberIP zoneID ip := by
  simp only [memberSet, memberNodes, List.mem_toFinset, List.mem_map, List.mem_filterMap,
    List.mem_filter, decide_eq_true_eq, nodeByID?, h.nodes_asc.keyed.find?_eq_some_iff, MemberIP]
  constructor
  · rintro ⟨n, ⟨m, ⟨hm, hz⟩, hn, hid⟩, hip⟩
    exact ⟨m, hm, hz, n, hn, hid, hip⟩
  · rintro ⟨m, hm, hz, n, hn, hid, hip⟩
    exact ⟨n, ⟨m, ⟨hm, hz⟩, hn, hid⟩, hip⟩

theorem mem_announcementsInZone (h : db.Wf) {zoneID : Int} {a : Announcement} :
    a ∈ db.announcementsInZone zoneID ↔
      a ∈ db.announcements ∧ ⟨a.id, zoneID⟩ ∈ db.announcementZones := by
  simp only [announcementsInZone, List.mem_filterMap, List.mem_filter, decide_eq_true_eq,
    announcementByID?, h.announcements_asc.keyed.find?_eq_some_iff]
  constructor
  · rintro ⟨⟨annID, z⟩, ⟨haz, rfl⟩, ha, rfl⟩
    exact ⟨ha, haz⟩
  · rintro ⟨ha, haz⟩
    exact ⟨_, ⟨haz, rfl⟩, ha, rfl⟩

theorem zoneRange_iff (h : db.Wf) {zoneID : Int} {r : Range} : db.ZoneRange zoneID r ↔
    ∃ a ∈ db.announcementsInZone zoneID, rangeElements a.synthetic.toPrefix = r := by
  simp only [ZoneRange, mem_announcementsInZone h]
  constructor
  · rintro ⟨⟨annID, z⟩, haz, rfl, a, ha, rfl, hr⟩
    exact ⟨a, ⟨ha, haz⟩, hr⟩
  · rintro ⟨a, ⟨ha, haz⟩, hr⟩
    exact ⟨_, haz, rfl, a, ha, rfl, hr⟩

theorem mem_rangeSet (h : db.Wf) {zoneID : Int} {r : Range} :
    r ∈ db.rangeSet zoneID ↔ db.ZoneRange zoneID r := by
  simp [rangeSet, zoneRange_iff h]

end DB

theorem foldl_addZoneState (zones : List ZoneState) (t : Nft) (hd : (zones.map (·.id)).Nodup) :
    (zones.foldl Nft.addZoneState t).rules = t.rules ++ zones.flatMap (fun s =>
        [.sameZoneAccept s.id, .zoneRouteAccept s.id]) ∧
      (∀ z, (∀ s ∈ zones, s.id ≠ z) → (zones.foldl Nft.addZoneState t).members z = t.members z ∧
        (zones.foldl Nft.addZoneState t).routes z = t.routes z) ∧
      ∀ s ∈ zones, (zones.foldl Nft.addZoneState t).members s.id =
          some ((t.members s.id).getD ∅ ∪ (s.memberIPs.map addrToUint32).toFinset) ∧
        (zones.foldl Nft.addZoneState t).routes s.id =
          some ((t.routes s.id).getD ∅ ∪ (s.routeCIDRs.map rangeElements).toFinset) := by
  induction zones generalizing t with
  | nil => simp
  | cons s zones ih =>
    rw [List.map_cons, List.nodup_cons] at hd
    obtain ⟨hrules, hother, hown⟩ := ih (t.addZoneState s) hd.2
    have hkeep : ∀ z, s.id ≠ z → (t.addZoneState s).members z = t.members z ∧
        (t.addZoneState s).routes z = t.routes z := fun z hz =>
      ⟨Function.update_of_ne hz.symm .., Function.update_of_ne hz.symm ..⟩
    refine ⟨?_, fun z hz => ?_, fun s' hs' => ?_⟩
    · rw [List.foldl_cons, hrules]
      simp [Nft.addZoneState]
    · have hs := hz s List.mem_cons_self
      obtain ⟨hm, hr⟩ := hother z fun s' hs' => hz s' (List.mem_cons_of_mem _ hs')
      exact ⟨hm.trans (hkeep z hs).1, hr.trans (hkeep z hs).2⟩
    · rcases List.mem_cons.mp hs' with rfl | hs'
      · have hnew : ∀ x ∈ zones, x.id ≠ s'.id := fun x hx hid =>
          hd.1 (List.mem_map.mpr ⟨x, hx, hid⟩)
        obtain ⟨hm, hr⟩ := hother s'.id hnew
        refine ⟨hm.trans ?_, hr.trans ?_⟩ <;> simp [Nft.addZoneState]
      · have hne : s.id ≠ s'.id := fun hid => hd.1 (List.mem_map.mpr ⟨s', hs', hid.symm⟩)
        obtain ⟨hm, hr⟩ := hown s' hs'
        rw [(hkeep _ hne).1] at hm
        rw [(hkeep _ hne).2] at hr
        exact ⟨hm, hr⟩

section
variable {db : DB} (h : db.Wf)
include h

theorem zoneStates_nodup : (db.zoneStates.map (·.id)).Nodup := by
  have hasc : (db.zones.map Zone.id).Nodup := by
    refine List.pairwise_map.mpr (h.zones_asc.imp fun hlt => ?_)
    exact Int.ne_of_lt hlt
  simpa [DB.zoneStates, Function.comp_def] using hasc

theorem rebuildZoneRules_rules : (rebuildZoneRules db).rules = zoneRules (db.zones.map (·.id)) := by
  have hfold := (foldl_addZoneState db.zoneStates Nft.skeleton (zoneStates_nodup h)).1
  rw [rebuildZoneRules, Nft.build, hfold]
  simp [Nft.skeleton, zoneRules, DB.zoneStates, List.flatMap_map]

theorem rebuildZoneRules_members (z : Int) :
    (rebuildZoneRules db).members z = if db.hasZone z then some (db.memberSet z) else none := by
  obtain ⟨-, hother, hown⟩ := foldl_addZoneState db.zoneStates Nft.skeleton (zoneStates_nodup h)
  split_ifs with hz
  · obtain ⟨zone, hzone, rfl⟩ := DB.hasZone_iff.mp hz
    rw [rebuildZoneRules, Nft.build, (hown _ (List.mem_map_of_mem hzone)).1]
    simp [Nft.skeleton, DB.memberSet, addrToUint32, uint32ToAddr, Function.comp_def]
  · refine (hother z fun s hs hid => hz ?_).1
    obtain ⟨zone, hzone, rfl⟩ := List.mem_map.mp hs
    exact DB.hasZone_iff.mpr ⟨zone, hzone, hid⟩

theorem rebuildZoneRules_routes (z : Int) :
    (rebuildZoneRules db).routes z = if db.hasZone z then some (db.rangeSet z) else none := by
  obtain ⟨-, hother, hown⟩ := foldl_addZoneState db.zoneStates Nft.skeleton (zoneStates_nodup h)
  split_ifs with hz
  · obtain ⟨zone, hzone, rfl⟩ := DB.hasZone_iff.mp hz
    rw [rebuildZoneRules, Nft.build, (hown _ (List.mem_map_of_mem hzone)).2]
    simp [Nft.skeleton, DB.rangeSet, Function.comp_def]
  · refine (hother z fun s hs hid => hz ?_).2
    obtain ⟨zone, hzone, rfl⟩ := List.mem_map.mp hs
    exact DB.hasZone_iff.mpr ⟨zone, hzone, hid⟩

end

/-- The announcements as the allocator makes them: aligned, and larger than one address. -/
def DB.Canonical (db : DB) : Prop :=
  ∀ a ∈ db.announcements, a.prefixLen < 32 ∧ a.synthetic.Aligned

/-- Every stored key decodes, to bytes no other node's key decodes to. -/
structure DB.KeysDecode {κ : Type} (parseKey : String → Option κ) (db : DB) : Prop where
  isSome : ∀ n ∈ db.nodes, ∃ key, parseKey n.pubKey = some key
  distinct : ∀ n ∈ db.nodes, ∀ n' ∈ db.nodes, parseKey n.pubKey = parseKey n'.pubKey → n = n'

/-- The AllowedIPs the database gives a node's peer. -/
def DB.allowed (db : DB) (n : Node) : Finset Prefix := allowedIPs (uint32ToAddr n.ip) (db.routes n.id)

def DB.device {κ : Type} [DecidableEq κ] (parseKey : String → Option κ) (db : DB) : Device κ :=
  fun key => (db.nodes.find? fun n => parseKey n.pubKey = some key).map db.allowed

theorem DB.mem_allowed {db : DB} (hc : db.Canonical) {n : Node} {p : Prefix} :
    p ∈ db.allowed n ↔ p = ⟨.v4 n.ip, 32⟩ ∨
      ∃ a ∈ db.announcements, a.nodeID = n.id ∧ p = a.synthetic.toPrefix := by
  simp only [DB.allowed, allowedIPs, uint32ToAddr, DB.routes, Finset.mem_insert, List.mem_toFinset,
    List.map_map, List.mem_map, List.mem_filter, decide_eq_true_eq, Function.comp_apply]
  refine or_congr Iff.rfl ⟨?_, ?_⟩
  · rintro ⟨a, ⟨ha, hn⟩, rfl⟩
    exact ⟨a, ha, hn, Block.toPrefix_masked (hc a ha).2⟩
  · rintro ⟨a, ha, hn, rfl⟩
    exact ⟨a, ⟨ha, hn⟩, Block.toPrefix_masked (hc a ha).2⟩

/-- No address or block is allowed to two nodes. -/
theorem DB.allowed_disjoint {db : DB} (h : db.Wf) (hc : db.Canonical) {n n' : Node}
    (hn : n ∈ db.nodes) (hn' : n' ∈ db.nodes) (hne : n ≠ n') :
    Disjoint (db.allowed n) (db.allowed n') := by
  rw [Finset.disjoint_left]
  intro p hp hp'
  rw [mem_allowed hc] at hp hp'
  have hhost : ∀ (a : Announcement) (ip : BitVec 32), a ∈ db.announcements →
      a.synthetic.toPrefix ≠ ⟨.v4 ip, 32⟩ := by
    intro a ip ha heq
    have hbits : a.prefixLen = 32 := congrArg Prefix.bits heq
    have := (hc a ha).1
    omega
  rcases hp with rfl | ⟨a, ha, hid, rfl⟩ <;> rcases hp' with hip | ⟨b, hb, hid', hab⟩
  · exact hne (h.node_ip n hn n' hn' (by simpa using hip))
  · exact hhost b n.ip hb hab.symm
  · exact hhost a n'.ip ha hip
  · obtain rfl := h.announcement_synthetic a ha b hb (Block.toPrefix_inj hab)
    exact hne (h.nodes_asc.keyed n hn n' hn' (hid.symm.trans hid'))

section
variable {κ : Type} [DecidableEq κ] {parseKey : String → Option κ}

theorem foldl_configurePeer_other {cfgs : List (κ × Finset Prefix)} {d : Device κ} {key : κ}
    (hkey : ∀ c ∈ cfgs, c.1 ≠ key) (hd : ∀ A, d key = some A → ∀ c ∈ cfgs, Disjoint A c.2) :
    cfgs.foldl (fun d c => d.configurePeer c.1 c.2) d key = d key := by
  induction cfgs generalizing d with
  | nil => rfl
  | cons c cfgs ih =>
    have hstep : d.configurePeer c.1 c.2 key = d key := by
      rw [Device.configurePeer, if_neg (hkey c List.mem_cons_self).symm]
      cases hdk : d key with
      | none => rfl
      | some A => rw [Option.map_some, Finset.sdiff_eq_self_of_disjoint (hd A hdk c List.mem_cons_self)]
    rw [List.foldl_cons, ih (fun c' hc' => hkey c' (List.mem_cons_of_mem _ hc')), hstep]
    rw [hstep]
    exact fun A hA c' hc' => hd A hA c' (List.mem_cons_of_mem _ hc')

theorem foldl_configurePeer_mem {cfgs : List (κ × Finset Prefix)} {d : Device κ}
    (hp : cfgs.Pairwise fun c c' => c.1 ≠ c'.1 ∧ Disjoint c.2 c'.2) {key : κ} {A : Finset Prefix}
    (hmem : (key, A) ∈ cfgs) : cfgs.foldl (fun d c => d.configurePeer c.1 c.2) d key = some A := by
  induction cfgs generalizing d with
  | nil => cases hmem
  | cons c cfgs ih =>
    obtain ⟨hc, hcs⟩ := List.pairwise_cons.mp hp
    rw [List.foldl_cons]
    rcases List.mem_cons.mp hmem with rfl | hmem
    · have hself : d.configurePeer key A key = some A := if_pos rfl
      rw [foldl_configurePeer_other (fun c' hc' => (hc c' hc').1.symm), hself]
      rw [hself]
      intro B hB c' hc'
      obtain rfl : A = B := Option.some.inj hB
      exact (hc c' hc').2
    · exact ih hcs hmem

def DB.decoded (parseKey : String → Option κ) (db : DB) (nodes : List Node) :
    List (κ × Finset Prefix) :=
  nodes.filterMap fun n => (parseKey n.pubKey).map fun key => (key, db.allowed n)

omit [DecidableEq κ] in
theorem decodePeers_eq {db : DB} (hk : db.KeysDecode parseKey) {nodes : List Node}
    (hn : nodes ⊆ db.nodes) :
    Device.decodePeers parseKey
      (nodes.map fun n => ⟨n.pubKey, uint32ToAddr n.ip, db.routes n.id⟩) =
      some (db.decoded parseKey nodes) := by
  induction nodes with
  | nil => rfl
  | cons n nodes ih =>
    obtain ⟨key, hkey⟩ := hk.isSome n (hn List.mem_cons_self)
    have hrest := ih fun x hx => hn (List.mem_cons_of_mem _ hx)
    unfold Device.decodePeers at hrest ⊢
    simp only [List.map_cons, List.mapM_cons, hkey, hrest, Option.map_some, DB.decoded,
      List.filterMap_cons]
    rfl

omit [DecidableEq κ] in
theorem decoded_pairwise {db : DB} (h : db.Wf) (hc : db.Canonical) (hk : db.KeysDecode parseKey) :
    (db.decoded parseKey db.nodes).Pairwise fun c c' => c.1 ≠ c'.1 ∧ Disjoint c.2 c'.2 := by
  refine List.pairwise_filterMap.mpr (h.nodes_asc.imp_of_mem fun {n n'} hn hn' hlt => ?_)
  rintro ⟨key, A⟩ hA ⟨key', A'⟩ hA'
  simp only [Option.map_eq_some_iff, Prod.mk.injEq] at hA hA'
  obtain ⟨_, hkey, rfl, rfl⟩ := hA
  obtain ⟨_, hkey', rfl, rfl⟩ := hA'
  have hne : n ≠ n' := fun heq => absurd (heq ▸ hlt) (lt_irrefl _)
  refine ⟨fun heq => hne (hk.distinct n hn n' hn' ?_), DB.allowed_disjoint h hc hn hn' hne⟩
  rw [hkey, hkey']
  exact congrArg some heq

/-- The rebuilt device has, for each node, its peer with exactly its AllowedIPs. -/
theorem rebuildNodePeers_eq {db : DB} (h : db.Wf) (hc : db.Canonical)
    (hk : db.KeysDecode parseKey) : rebuildNodePeers parseKey db = .ok (db.device parseKey) := by
  rw [rebuildNodePeers, Device.replacePeers, DB.peerConfigs,
    decodePeers_eq hk (List.Subset.refl db.nodes)]
  refine congrArg Except.ok (funext fun key => ?_)
  rw [DB.device]
  cases hf : db.nodes.find? fun n => parseKey n.pubKey = some key with
  | none =>
    refine foldl_configurePeer_other (fun c hcm hkey => ?_) (by simp)
    obtain ⟨n, hn, hnc⟩ := List.mem_filterMap.mp hcm
    obtain ⟨key', hkey', rfl⟩ := Option.map_eq_some_iff.mp hnc
    have hnone := List.find?_eq_none.mp hf n hn
    simp [hkey', ← hkey] at hnone
  | some n =>
    have hn := List.mem_of_find?_eq_some hf
    have hkey : parseKey n.pubKey = some key := by simpa using List.find?_some hf
    refine foldl_configurePeer_mem (decoded_pairwise h hc hk) (List.mem_filterMap.mpr ⟨n, hn, ?_⟩)
    rw [hkey]
    rfl

end
def labServer : Server String where
  network := "10.0.0.0/24"
  maxDevicesPerUser := 0
  maxOwnedZonesPerUser := 0
  maxAnnouncedSubnetsPerUser := 0
  announcePool := some ⟨.v4 0x647F0000, 16⟩
  announcePool_valid := by
    rintro _ ⟨⟩
    exact (by decide : 16 ≤ 32)
  hashPassword _ password := password
  verifyPassword password encoded := password == encoded
  parseKey := some

/-- One user with one node and one zone, the node a member of it or not yet. -/
def labDB (members : List ZoneMember) : DB where
  users := [⟨1, "alice", "", true⟩]
  nodes := [⟨1, 1, "router", "key", 0x0A000002, "openwrt"⟩]
  zones := [⟨1, "lab", "passphrase", 1⟩]
  zoneMembers := members
  announcements := []
  announcementZones := []
  seqUsers := 1
  seqNodes := 1
  seqZones := 1
  seqAnnouncements := 0

/-- The node announces a subnet into the zone. -/
def labAnnounced : DB :=
  { labDB [⟨1, 1⟩] with
    announcements := [⟨1, 1, 0xC0A80700, 24, 0x647F0000⟩]
    announcementZones := [⟨1, 1⟩]
    seqAnnouncements := 1 }

def rebuilt (db : DB) : World String := ⟨db, rebuildZoneRules db, db.device some⟩

def alice : Option Identity := some ⟨1, "alice", true⟩

theorem labDB_wf {members : List ZoneMember} (h : members = [] ∨ members = [⟨1, 1⟩]) :
    (labDB members).Wf := by
  rcases h with rfl | rfl <;> constructor <;> simp [labDB, Ascending, Keyed]

theorem labAnnounced_wf : labAnnounced.Wf := by
  constructor <;> simp [labAnnounced, labDB, Ascending, Keyed]

end LanWeave

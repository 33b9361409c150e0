import LanWeave.Router.Reach
import LanWeave.Server.Issued

/-! From the database to the packet: the peers' AllowedIPs and the routers' translation tables
made of it take every announced address to one host of the real subnet. -/

namespace LanWeave
open Library Nftables RouteSync

/-- The AllowedIPs contain the address. -/
def Covers (A : Finset Prefix) (x : BitVec 32) : Prop := ∃ p ∈ A, p.contains (.v4 x) = true

theorem contains_toPrefix {b : Block} (h : b.Aligned) (x : BitVec 32) :
    b.toPrefix.contains (.v4 x) = true ↔ x.toNat ∈ b.addrs := by
  rw [Prefix.contains, beq_iff_eq, Block.toPrefix_masked h, ← Natctl.mem_addrs_iff h]
  simp [Block.toPrefix, Prefix.masked, uint32ToAddr]

theorem contains_host (ip x : BitVec 32) :
    (⟨.v4 ip, 32⟩ : Prefix).contains (.v4 x) = true ↔ x = ip := by
  simp [Prefix.contains, Prefix.masked, maskBits]

theorem covers_allowed {db : DB} (hc : db.Canonical) {n : Node} {x : BitVec 32} :
    Covers (db.allowed n) x ↔ x = n.ip ∨
      ∃ a ∈ db.announcements, a.nodeID = n.id ∧ x.toNat ∈ a.synthetic.addrs := by
  constructor
  · rintro ⟨p, hp, hx⟩
    rcases (DB.mem_allowed hc).mp hp with rfl | ⟨a, ha, hnode, rfl⟩
    · exact .inl ((contains_host n.ip x).mp hx)
    · exact .inr ⟨a, ha, hnode, (contains_toPrefix (hc a ha).2 x).mp hx⟩
  · rintro (rfl | ⟨a, ha, hnode, hx⟩)
    · exact ⟨_, (DB.mem_allowed hc).mpr (.inl rfl), (contains_host _ _).mpr rfl⟩
    · exact ⟨_, (DB.mem_allowed hc).mpr (.inr ⟨a, ha, hnode, rfl⟩),
        (contains_toPrefix (hc a ha).2 x).mpr hx⟩

/-- The VPN network, on which the server has started, and the synthetic pool do not meet. -/
structure Apart {κ : Type} (h : Server κ) (net pool : Prefix) : Prop where
  network : parsePrefix4 h.network = some net
  started : (firstUsableAddress h.network).isSome
  offered : h.announcePool = some pool
  is4 : pool.addr.is4 = true
  disjoint : Disjoint (blockFromPrefix net).addrs (blockFromPrefix pool).addrs

section
variable {κ : Type} {h : Server κ} {net pool : Prefix} {db : DB}

theorem Apart.bits (ha : Apart h net pool) : net.bits ≤ 30 := by
  have hstarted := ha.started
  rw [firstUsableAddress, ha.network] at hstarted
  by_contra hbits
  simp [show 30 < net.bits by omega] at hstarted

theorem DB.Planned.canonical (hp : db.Planned h) (ha : Apart h net pool) : db.Canonical := by
  intro a hmem
  have hlen := (hp.subnets a hmem).2.2
  exact ⟨by omega, (hp.pooled pool ha.offered ha.is4).aligned a hmem⟩

theorem DB.Planned.ip_not_mem (hp : db.Planned h) (ha : Apart h net pool) {n : Node}
    (hn : n ∈ db.nodes) {a : Announcement} (hmem : a ∈ db.announcements) :
    n.ip.toNat ∉ a.synthetic.addrs := by
  intro hin
  obtain ⟨first, last, hrange, hfirst, hlast⟩ := hp.ips n hn
  have hnet := mem_network_of_poolRange ha.network ha.bits hrange hfirst hlast
  have hpool := (hp.pooled pool ha.offered ha.is4).inside a hmem hin
  exact Set.disjoint_left.mp ha.disjoint hnet hpool

/-- An address is announced once. -/
theorem DB.Planned.announced_once (hp : db.Planned h) (ha : Apart h net pool) {a b : Announcement}
    (hmem : a ∈ db.announcements) (hmem' : b ∈ db.announcements) {x : ℕ}
    (hx : x ∈ a.synthetic.addrs) (hx' : x ∈ b.synthetic.addrs) : a = b := by
  have hsymm : Std.Symm fun a b : Announcement => Disjoint a.synthetic.addrs b.synthetic.addrs :=
    ⟨fun _ _ hd => hd.symm⟩
  by_contra hne
  have hdisj := (hp.pooled pool ha.offered ha.is4).disjoint.forall hmem hmem' hne
  exact Set.disjoint_left.mp hdisj hx hx'

theorem DB.Planned.covers_once (hp : db.Planned h) (ha : Apart h net pool) {n n' : Node}
    (hn : n ∈ db.nodes) (hn' : n' ∈ db.nodes) {x : BitVec 32} (hx : Covers (db.allowed n) x)
    (hx' : Covers (db.allowed n') x) : n = n' := by
  have hc := hp.canonical ha
  rcases (covers_allowed hc).mp hx with rfl | ⟨a, hmem, hnode, hxa⟩
  · rcases (covers_allowed hc).mp hx' with hip | ⟨b, hmem', -, hxb⟩
    · exact hp.wf.node_ip n hn n' hn' hip
    · exact absurd hxb (hp.ip_not_mem ha hn hmem')
  · rcases (covers_allowed hc).mp hx' with rfl | ⟨b, hmem', hnode', hxb⟩
    · exact absurd hxa (hp.ip_not_mem ha hn' hmem)
    · obtain rfl := hp.announced_once ha hmem hmem' hxa hxb
      exact hp.wf.nodes_asc.keyed n hn n' hn' (hnode.symm.trans hnode')

end

/-- Where the prefix translation takes an address of the synthetic block. -/
def Announcement.moved (a : Announcement) (x : BitVec 32) : BitVec 32 :=
  a.real.base + (x - a.synthetic.base)

/-- It keeps the distance from the base, so that the address lands in the real subnet. -/
theorem Announcement.moved_spec {a : Announcement} (hr : a.real.Aligned) {x : BitVec 32}
    (hx : x.toNat ∈ a.synthetic.addrs) :
    (a.moved x).toNat = a.real.base.toNat + (x.toNat - a.synthetic.base.toNat) ∧
      (a.moved x).toNat ∈ a.real.addrs := by
  have hstop := Natctl.aligned_stop_le hr
  have hlen : a.real.prefixLen = a.synthetic.prefixLen := rfl
  obtain ⟨hle, hlt⟩ := hx
  rw [hlen] at hstop
  have hval : (a.moved x).toNat = a.real.base.toNat + (x.toNat - a.synthetic.base.toNat) := by
    rw [moved, BitVec.toNat_add, BitVec.toNat_sub_of_le hle, Nat.mod_eq_of_lt]
    omega
  refine ⟨hval, ?_⟩
  rw [hval, Block.addrs, Set.mem_Ico, hlen]
  omega

theorem Announcement.moved_injective (a : Announcement) : Function.Injective a.moved := by
  intro x y h
  have hdiff : x - a.synthetic.base = y - a.synthetic.base := add_left_cancel h
  exact sub_left_injective hdiff

section
variable {κ : Type} {h : Server κ} {net pool : Prefix} {db : DB}

theorem rule_natRules (hp : db.Planned h) (ha : Apart h net pool)
    {a : Announcement} (hmem : a ∈ db.announcements)
    (front : { bs : Bytes // bs.length = 12 }) (src x : BitVec 32) :
    rule (Natctl.dnatPrefixExprs ⟨a.synthetic.toPrefix, a.real.toPrefix⟩) (.ipv4 front src x) =
      if x.toNat ∈ a.synthetic.addrs then some (.dnat (a.moved x)) else none :=
  Natctl.rule_of_blocks (hp.canonical ha a hmem).2 (hp.subnets a hmem).1 rfl front src x

/-- A rule of a node's table applies only to packets to what the node has announced. -/
theorem mem_matching_natRules (hp : db.Planned h) (ha : Apart h net pool) {nodeID : Int}
    {p : Packet} {es : List Expr} (hes : es ∈ (Natctl.build net (db.natRules nodeID)).matching p) :
    ∃ front src x, p = .ipv4 front src x ∧
      ∃ a ∈ db.announcements, a.nodeID = nodeID ∧ x.toNat ∈ a.synthetic.addrs := by
  obtain ⟨hmem, hrule⟩ := List.mem_filter.mp hes
  obtain ⟨r, hr, rfl⟩ := List.mem_map.mp hmem
  obtain ⟨a, hfilter, rfl⟩ := List.mem_map.mp hr
  obtain ⟨hmem, hnode⟩ := List.mem_filter.mp hfilter
  cases p with
  | ipv6 header =>
    rw [Natctl.rule_dnatPrefixExprs_ipv6] at hrule
    cases hrule
  | ipv4 front src x =>
    rw [rule_natRules hp ha hmem] at hrule
    split_ifs at hrule with hx
    · exact ⟨front, src, x, rfl, a, hmem, of_decide_eq_true hnode, hx⟩
    · cases hrule

theorem matching_natRules (hp : db.Planned h) (ha : Apart h net pool)
    {a : Announcement} (hmem : a ∈ db.announcements) {x : BitVec 32}
    (hx : x.toNat ∈ a.synthetic.addrs) (front : { bs : Bytes // bs.length = 12 }) (src : BitVec 32) :
    (Natctl.build net (db.natRules a.nodeID)).matching (.ipv4 front src x) =
      [Natctl.dnatPrefixExprs ⟨a.synthetic.toPrefix, a.real.toPrefix⟩] := by
  show ((List.map _ (List.map _ (db.announcements.filter (·.nodeID = a.nodeID)))).filter
    fun es => (rule es (.ipv4 front src x)).isSome) = _
  rw [List.map_map, List.filter_map, List.filter_filter]
  have hone : (db.announcements.filter fun b =>
      (rule (Natctl.dnatPrefixExprs ⟨b.synthetic.toPrefix, b.real.toPrefix⟩)
        (.ipv4 front src x)).isSome && decide (b.nodeID = a.nodeID)) = [a] := by
    apply hp.wf.announcements_asc.filter_eq_singleton hmem
    intro b hb
    rw [rule_natRules hp ha hb, Bool.and_eq_true, decide_eq_true_eq]
    constructor
    · rintro ⟨hsome, -⟩
      split_ifs at hsome with hxb
      · exact hp.announced_once ha hb hmem hxb hx
      · cases hsome
    · rintro rfl
      rw [if_pos hx]
      exact ⟨rfl, rfl⟩
  exact congrArg (List.map fun a : Announcement => Natctl.dnatPrefixExprs
    ⟨a.synthetic.toPrefix, a.real.toPrefix⟩) hone

end

section
variable {κ : Type} [DecidableEq κ] {h : Handlers κ} {s : Site κ} {net pool : Prefix}

/-- A daemon cycle of the node, none of whose steps up to the table fails, leaves this table. -/
def TableOf (h : Handlers κ) (s : Site κ) (n : Node) (t : Natctl.Table) : Prop :=
  ∃ (i : Identity) (rec : Record) (o : Outside) (r : Router), i.userID = n.userID ∧
    rec.serverURL ≠ "" ∧ rec.nodeID = n.id ∧ rec.ip = formatAddr4 n.ip ∧ rec.network = h.network ∧
      (reconcileAll parsePrefix4 rec (siteApi h s i) false o r).2.nat = some t

/-- A cycle of the node leaves the table of its announcements, whatever the router had before. -/
theorem nat_reconcileAll (ha : Apart h.toServer net pool) (hp : s.world.db.Planned h.toServer)
    (hhome : ∀ a ∈ s.world.db.announcements, s.world.db.AtHome a) {n : Node}
    (hn : n ∈ s.world.db.nodes) {i : Identity} {rec : Record} (hi : i.userID = n.userID)
    (hurl : rec.serverURL ≠ "") (hid : rec.nodeID = n.id) (hip : rec.ip = formatAddr4 n.ip)
    (hnetwork : rec.network = h.network) (o : Outside) (r : Router) :
    (reconcileAll parsePrefix4 rec (siteApi h s i) false o r).2.nat =
      some (Natctl.build net (s.world.db.natRules n.id)) := by
  obtain ⟨entries, hentries, hagg⟩ := memberEntries_site (h := h) hp.wf hp.announcement_length hip
  have hrules : natRules (mine entries rec.nodeID) = s.world.db.natRules n.id := by
    rw [hid]
    exact hagg.natRules hp.wf fun a hmem => exists_keptZone_of_own hp.wf hn hi (hhome a hmem)
  have hrebuild := s.world.db.rebuild_natRules n.id (parsePrefix4_v4 ha.network).1 r.nat
  have hparse : parsePrefix4 rec.network = some net := hnetwork ▸ ha.network
  simp only [reconcileAll, if_neg hurl, hentries, hparse, hrules, hrebuild]

theorem TableOf.eq (ha : Apart h.toServer net pool) (hp : s.world.db.Planned h.toServer)
    (hhome : ∀ a ∈ s.world.db.announcements, s.world.db.AtHome a) {n : Node}
    (hn : n ∈ s.world.db.nodes) {t : Natctl.Table} (ht : TableOf h s n t) :
    t = Natctl.build net (s.world.db.natRules n.id) := by
  obtain ⟨i, rec, o, r, hi, hurl, hid, hip, hnetwork, hcycle⟩ := ht
  rw [nat_reconcileAll ha hp hhome hn hi hurl hid hip hnetwork] at hcycle
  exact (Option.some.inj hcycle).symm

variable (h)

/-- With the peers and the tables rebuilt from the database, an announced address has one peer,
whose node moves it by one rule to its place in the real subnet, and nothing else is moved. -/
theorem translation_well_defined {d : Device κ} {table : Node → Natctl.Table}
    (ha : Apart h.toServer net pool) (hr : s.world.db.Reachable h.toServer)
    (hkeys : ∀ n ∈ s.world.db.nodes, ∀ n' ∈ s.world.db.nodes,
      h.parseKey n.pubKey = h.parseKey n'.pubKey → n = n')
    (hhome : ∀ a ∈ s.world.db.announcements, s.world.db.AtHome a)
    (hd : rebuildNodePeers h.parseKey s.world.db = .ok d)
    (ht : ∀ n ∈ s.world.db.nodes, TableOf h s n (table n)) :
    (∀ key key' A A', d key = some A → d key' = some A' → key ≠ key' →
      ∀ x, ¬(Covers A x ∧ Covers A' x)) ∧
    (∀ a ∈ s.world.db.announcements, ∀ x : BitVec 32, x.toNat ∈ a.synthetic.addrs →
      ∃ n ∈ s.world.db.nodes, n.id = a.nodeID ∧
        (∃! key, ∃ A, d key = some A ∧ Covers A x) ∧
        (∃ key A, h.parseKey n.pubKey = some key ∧ d key = some A ∧ Covers A x) ∧
        ∀ front src, (∃ es, (table n).matching (.ipv4 front src x) = [es]) ∧
          (table n).translate (.ipv4 front src x) = some (.dnat (a.moved x))) ∧
    (∀ a ∈ s.world.db.announcements, Function.Injective a.moved ∧
      ∀ x : BitVec 32, x.toNat ∈ a.synthetic.addrs → (a.moved x).toNat ∈ a.real.addrs ∧
        (a.moved x).toNat = a.real.base.toNat + (x.toNat - a.synthetic.base.toNat)) ∧
    ∀ n ∈ s.world.db.nodes, ∀ p, (table n).matching p ≠ [] → ∃ front src x,
      p = .ipv4 front src x ∧
        ∃ a ∈ s.world.db.announcements, a.nodeID = n.id ∧ x.toNat ∈ a.synthetic.addrs := by
  have hp := hr.planned
  have hc := hp.canonical ha
  have hk : s.world.db.KeysDecode h.parseKey :=
    ⟨fun n hn => Option.isSome_iff_exists.mp (hp.keys n hn), hkeys⟩
  obtain rfl : s.world.db.device h.parseKey = d :=
    Except.ok.inj ((rebuildNodePeers_eq hp.wf hc hk).symm.trans hd)
  have htable : ∀ n ∈ s.world.db.nodes, table n = Natctl.build net (s.world.db.natRules n.id) :=
    fun n hn => (ht n hn).eq ha hp hhome hn
  -- two peers that cover an address are of one node, and the key of the node is one
  have honce : ∀ key key' A A', s.world.db.device h.parseKey key = some A →
      s.world.db.device h.parseKey key' = some A' → ∀ x, Covers A x → Covers A' x → key = key' := by
    intro key key' A A' hA hA' x hx hx'
    obtain ⟨n, hn, hkey, rfl⟩ := (DB.device_eq_some hk).mp hA
    obtain ⟨n', hn', hkey', rfl⟩ := (DB.device_eq_some hk).mp hA'
    obtain rfl := hp.covers_once ha hn hn' hx hx'
    exact Option.some.inj (hkey.symm.trans hkey')
  refine ⟨?_, ?_, ?_, ?_⟩
  · rintro key key' A A' hA hA' hne x ⟨hx, hx'⟩
    exact hne (honce key key' A A' hA hA' x hx hx')
  · intro a hmem x hx
    obtain ⟨n, hn, hid⟩ := hp.wf.announcement_node a hmem
    obtain ⟨key, hkey⟩ := hk.isSome n hn
    have hpeer : s.world.db.device h.parseKey key = some (s.world.db.allowed n) :=
      (DB.device_eq_some hk).mpr ⟨n, hn, hkey, rfl⟩
    have hcovers : Covers (s.world.db.allowed n) x :=
      (covers_allowed hc).mpr (.inr ⟨a, hmem, hid.symm, hx⟩)
    refine ⟨n, hn, hid, ⟨key, ⟨_, hpeer, hcovers⟩, ?_⟩, ⟨key, _, hkey, hpeer, hcovers⟩, ?_⟩
    · rintro key' ⟨A', hA', hx'⟩
      exact honce key' key A' _ hA' hpeer x hx' hcovers
    · intro front src
      -- exactly one rule of the node matches: the synthetic blocks are disjoint
      have hmatch := matching_natRules hp ha hmem hx front src
      rw [← hid, ← htable n hn] at hmatch
      refine ⟨⟨_, hmatch⟩, ?_⟩
      rw [Natctl.Table.translate_of_matching hmatch, rule_natRules hp ha hmem, if_pos hx]
  · intro a hmem
    refine ⟨a.moved_injective, fun x hx => ?_⟩
    exact (Announcement.moved_spec (hp.subnets a hmem).1 hx).symm
  · intro n hn p hne
    obtain ⟨es, hes⟩ := List.exists_mem_of_ne_nil _ hne
    rw [htable n hn] at hes
    exact mem_matching_natRules hp ha hes

end

/-- Alice's router and a node of bob's in one zone. -/
def labMembers (name platform : String) : DB :=
  { labShared with
    nodes := [⟨1, 1, "router", "key", 0x0A000002, "openwrt"⟩, ⟨2, 2, name, "key2", 0x0A000003, platform⟩]
    announcements := []
    announcementZones := []
    seqAnnouncements := 0 }

theorem labMembers_reachable (name platform : String) :
    (labMembers name platform).Reachable labServer := by
  have hrange : poolRange labServer.network = some (0x0A000002, 0x0A0000FE) := by decide
  have hbob : (((StoreOp.createAdmin "alice" "").exec .empty).2.addUser "bob" "" false).Reachable
      labServer := by
    apply DB.Reachable.registered (r := ⟨((StoreOp.createAdmin "alice" "").exec .empty).2,
      ⟨[⟨1, "code", none, none, none, "", none⟩], 1⟩⟩) "bob" "" "code" 0
    exact .statement _ trivial .empty
  have hrouter := hbob.statement (.insertNode 1 "router" "key" "openwrt" 0x0A000002 0)
    ⟨rfl, _, _, hrange, by decide, by decide⟩
  have hother := hrouter.statement (.insertNode 2 name "key2" platform 0x0A000003 0)
    ⟨rfl, _, _, hrange, by decide, by decide⟩
  have hzone := hother.statement (.insertZone 1 "lab" "passphrase" 0) trivial
  exact (hzone.statement (.join 1 1) trivial).statement (.join 1 2) trivial

theorem labShared_reachable : labShared.Reachable labServer :=
  (labMembers_reachable "laptop" "").statement
    (.createAnnouncement 1 1 ⟨0xC0A80700, 24⟩ 1 0 ⟨.v4 0x647F0000, 16⟩)
    ⟨rfl, ⟨0xC0A807, by decide⟩, by decide, by decide⟩

/-- Two routers that announce the same subnet. -/
def labTwins : DB :=
  { labMembers "router" "openwrt" with
    announcements := [⟨1, 1, 0xC0A80700, 24, 0x647F0000⟩, ⟨2, 2, 0xC0A80700, 24, 0x647F0100⟩]
    announcementZones := [⟨1, 1⟩, ⟨2, 1⟩]
    seqAnnouncements := 2 }

theorem labTwins_reachable : labTwins.Reachable labServer := by
  have hfirst := (labMembers_reachable "router" "openwrt").statement
    (.createAnnouncement 1 1 ⟨0xC0A80700, 24⟩ 1 0 ⟨.v4 0x647F0000, 16⟩)
    ⟨rfl, ⟨0xC0A807, by decide⟩, by decide, by decide⟩
  exact hfirst.statement (.createAnnouncement 2 2 ⟨0xC0A80700, 24⟩ 1 0 ⟨.v4 0x647F0000, 16⟩)
    ⟨rfl, ⟨0xC0A807, by decide⟩, by decide, by decide⟩

theorem labServer_apart : Apart labServer ⟨.v4 0x0A000000, 24⟩ ⟨.v4 0x647F0000, 16⟩ where
  network := by decide
  started := by decide
  offered := rfl
  is4 := rfl
  disjoint := by
    rw [Set.disjoint_left]
    intro x hx hx'
    have hlt : x < 0x0A000000 + 256 := hx.2
    have hge : 0x647F0000 ≤ x := hx'.1
    omega

/-- A packet to each of the two, by the addresses that the server gave them. -/
theorem translation_well_defined_twins :
    (Natctl.build ⟨.v4 0x0A000000, 24⟩ [⟨⟨.v4 0x647F0000, 24⟩, ⟨.v4 0xC0A80700, 24⟩⟩]).translate
        (.ipv4 ⟨List.replicate 12 0, rfl⟩ 0x0A000003 0x647F0009) = some (.dnat 0xC0A80709) ∧
      (Natctl.build ⟨.v4 0x0A000000, 24⟩ [⟨⟨.v4 0x647F0100, 24⟩, ⟨.v4 0xC0A80700, 24⟩⟩]).translate
        (.ipv4 ⟨List.replicate 12 0, rfl⟩ 0x0A000002 0x647F0109) = some (.dnat 0xC0A80709) := by
  let s : Site String := ⟨rebuilt labTwins, ⟨[], 0⟩⟩
  let net : Prefix := ⟨.v4 0x0A000000, 24⟩
  have hp := labTwins_reachable.planned
  have hkeys : ∀ n ∈ labTwins.nodes, ∀ n' ∈ labTwins.nodes,
      labServer.parseKey n.pubKey = labServer.parseKey n'.pubKey → n = n' := by decide
  have hhome : ∀ a ∈ labTwins.announcements, labTwins.AtHome a := by
    simp [DB.AtHome, labTwins, labMembers, labShared, labAnnounced]
  have htable : ∀ n ∈ labTwins.nodes,
      TableOf labServer.bare s n (Natctl.build net (labTwins.natRules n.id)) := by
    intro n hn
    let rec' : Record :=
      { Record.empty with
        serverURL := "lan"
        nodeID := n.id
        ip := formatAddr4 n.ip
        network := "10.0.0.0/24" }
    refine ⟨⟨n.userID, "", false⟩, rec', ⟨false, fun _ => false, fun _ => false, false⟩,
      ⟨none, net, none, [], [], ∅, []⟩, rfl, by simp [rec'], rfl, rfl, rfl, ?_⟩
    exact nat_reconcileAll labServer_apart hp hhome hn rfl (by simp [rec']) rfl rfl rfl _ _
  obtain ⟨-, hmoved, -⟩ := translation_well_defined labServer.bare (s := s) labServer_apart
    labTwins_reachable hkeys hhome (rebuildNodePeers_eq hp.wf (hp.canonical labServer_apart)
      ⟨fun n _ => ⟨n.pubKey, rfl⟩, hkeys⟩) htable
  constructor
  · obtain ⟨n, hn, hid, -, -, hrules⟩ := hmoved ⟨1, 1, 0xC0A80700, 24, 0x647F0000⟩
      List.mem_cons_self 0x647F0009 (by decide)
    have htranslate := (hrules ⟨List.replicate 12 0, rfl⟩ 0x0A000003).2
    rw [hid] at htranslate
    exact htranslate
  · obtain ⟨n, hn, hid, -, -, hrules⟩ := hmoved ⟨2, 2, 0xC0A80700, 24, 0x647F0100⟩
      (List.mem_cons_of_mem _ List.mem_cons_self) 0x647F0109 (by decide)
    have htranslate := (hrules ⟨List.replicate 12 0, rfl⟩ 0x0A000002).2
    rw [hid] at htranslate
    exact htranslate

end LanWeave

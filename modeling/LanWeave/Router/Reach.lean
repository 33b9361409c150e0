import LanWeave.Router.Reconcile
import LanWeave.Server.Attachments
import LanWeave.Server.Drift
import LanWeave.Server.Orphans
import LanWeave.Server.Wire

/-! What a node's client routes and translates, by the lists it reads, is what the server lets
through, by its sets. -/

namespace LanWeave
open Library RouteSync

structure AnnouncementRow.Shows (row : AnnouncementRow) (a : Announcement) : Prop where
  id : row.id = a.id
  nodeID : row.nodeID = a.nodeID
  real : row.real = a.real.toPrefix
  synthetic : row.synthetic = a.synthetic.toPrefix

namespace DB
variable {db : DB}

theorem exists_ownerName (h : db.Wf) {n : Node} (hn : n ∈ db.nodes) :
    ∃ owner, db.ownerName? n = some owner := by
  obtain ⟨u, hu, hid⟩ := h.node_user n hn
  have hfind : db.users.find? (fun u => u.id = n.userID) = some u :=
    h.users_asc.keyed.find?_eq_some_iff.mpr ⟨hu, hid⟩
  exact ⟨u.username, by rw [ownerName?, hfind]; rfl⟩

theorem mem_listForUser {userID : Int} {z : ZoneWithOwnership} : z ∈ db.listForUser userID ↔
    ∃ zone ∈ db.zones, db.participates userID zone = true ∧
      z = ⟨zone.id, zone.name, zone.ownerID = userID⟩ := by
  rw [listForUser, List.mem_reverse, List.mem_map]
  constructor
  · rintro ⟨zone, hzone, rfl⟩
    obtain ⟨hmem, hp⟩ := List.mem_filter.mp hzone
    exact ⟨zone, hmem, hp, rfl⟩
  · rintro ⟨zone, hmem, hp, rfl⟩
    exact ⟨zone, List.mem_filter.mpr ⟨hmem, hp⟩, rfl⟩

theorem ip_of_mem_membersByZone {zoneID : Int} {m : MemberRow} (hm : m ∈ db.membersByZone zoneID) :
    ∃ a, m.ip = .v4 a := by
  obtain ⟨n, -, howner⟩ := List.mem_filterMap.mp hm
  obtain ⟨owner, -, rfl⟩ := Option.map_eq_some_iff.mp howner
  exact ⟨n.ip, rfl⟩

theorem mem_membersByZone_ip (h : db.Wf) {zoneID : Int} {ip : BitVec 32} :
    (∃ m ∈ db.membersByZone zoneID, m.ip = .v4 ip) ↔ db.MemberIP zoneID ip := by
  constructor
  · rintro ⟨m, hm, hip⟩
    obtain ⟨n, hn, howner⟩ := List.mem_filterMap.mp hm
    obtain ⟨zm, hzm, hnode⟩ := List.mem_filterMap.mp (List.mem_mergeSort.mp hn)
    obtain ⟨hmem, hzone⟩ := List.mem_filter.mp hzm
    obtain ⟨hn, hid⟩ := (nodeByID?_eq_some h).mp hnode
    obtain ⟨owner, -, rfl⟩ := Option.map_eq_some_iff.mp howner
    exact ⟨zm, hmem, of_decide_eq_true hzone, n, hn, hid, Addr.v4.inj hip⟩
  · rintro ⟨zm, hmem, hzone, n, hn, hid, rfl⟩
    obtain ⟨owner, howner⟩ := exists_ownerName h hn
    have hnode : db.nodeByID? zm.nodeID = some n := (nodeByID?_eq_some h).mpr ⟨hn, hid⟩
    refine ⟨⟨n.id, n.name, .v4 n.ip, owner⟩, List.mem_filterMap.mpr ⟨n, ?_, ?_⟩, rfl⟩
    · refine List.mem_mergeSort.mpr (List.mem_filterMap.mpr ⟨zm, ?_, hnode⟩)
      exact List.mem_filter.mpr ⟨hmem, decide_eq_true hzone⟩
    · rw [howner]
      rfl

theorem listByZone_shows {zoneID : Int} {row : AnnouncementRow} (h : db.Wf)
    (hrow : row ∈ db.listByZone zoneID) : ∃ a ∈ db.announcementsInZone zoneID, row.Shows a := by
  obtain ⟨a, ha, hbind⟩ := List.mem_filterMap.mp hrow
  obtain ⟨hmem, hatt⟩ := List.mem_filter.mp ha
  obtain ⟨n, -, hmap⟩ := Option.bind_eq_some_iff.mp hbind
  obtain ⟨owner, -, rfl⟩ := Option.map_eq_some_iff.mp hmap
  exact ⟨a, (mem_announcementsInZone h).mpr ⟨hmem, of_decide_eq_true hatt⟩, rfl, rfl, rfl, rfl⟩

theorem exists_listByZone (h : db.Wf) {zoneID : Int} {a : Announcement}
    (ha : a ∈ db.announcementsInZone zoneID) : ∃ row ∈ db.listByZone zoneID, row.Shows a := by
  obtain ⟨hmem, hatt⟩ := (mem_announcementsInZone h).mp ha
  obtain ⟨n, hn, hid⟩ := h.announcement_node a hmem
  obtain ⟨owner, howner⟩ := exists_ownerName h hn
  have hnode : db.nodeByID? a.nodeID = some n := (nodeByID?_eq_some h).mpr ⟨hn, hid⟩
  refine ⟨⟨a.id, a.nodeID, n.name, owner, a.real.toPrefix, a.synthetic.toPrefix⟩,
    List.mem_filterMap.mpr ⟨a, List.mem_filter.mpr ⟨hmem, decide_eq_true hatt⟩, ?_⟩,
    rfl, rfl, rfl, rfl⟩
  rw [hnode, Option.bind_some, howner]
  rfl

theorem participates_of_member (h : db.Wf) {n : Node} (hn : n ∈ db.nodes) {zone : Zone}
    (hm : db.MemberIP zone.id n.ip) : db.participates n.userID zone = true := by
  obtain ⟨m, hmem, hz, n', hn', hid, hip⟩ := hm
  obtain rfl := h.node_ip n' hn' n hn hip
  rw [participates, Bool.or_eq_true]
  refine .inr (List.any_eq_true.mpr ⟨m, hmem, ?_⟩)
  simp only [hz, true_and, decide_eq_true_eq]
  exact List.any_eq_true.mpr ⟨n', hn', by simp [hid]⟩

end DB

/-- The entry is made of this announcement. -/
structure RouteSync.Entry.Shows (e : Entry) (a : Announcement) : Prop where
  id : e.id = a.id
  nodeID : e.nodeID = a.nodeID
  subnet : e.subnet = a.real.toPrefix
  synthetic : e.synthetic = a.synthetic.toPrefix

theorem parsePrefix4_text {b : Block} (h : b.prefixLen ≤ 32) :
    parsePrefix4 b.toPrefix.text = some b.toPrefix := parsePrefix4_format b.base h

section
variable {κ : Type} [DecidableEq κ] {h : Handlers κ} {s : Site κ} {i : Identity}

/-- The zone of the list is one of the user's. -/
def DB.Answers (db : DB) (userID : Int) (z : ZoneResponse) (zone : Zone) : Prop :=
  zone ∈ db.zones ∧ zone.name = z.name ∧ db.participates userID zone = true

/-- The announcement is attached to a zone its node is a member of. -/
def DB.AtHome (db : DB) (a : Announcement) : Prop :=
  a ∈ db.announcements ∧ ∃ az ∈ db.announcementZones, az.announcementID = a.id ∧
    ⟨az.zoneID, a.nodeID⟩ ∈ db.zoneMembers

theorem DB.atHome_of_match {db : DB} (ho : db.NoOrphan) (hm : db.AttachmentsMatch) {a : Announcement}
    (ha : a ∈ db.announcements) : db.AtHome a := by
  obtain ⟨az, haz, hann⟩ := ho a ha
  exact ⟨ha, az, haz, hann, hm az haz a ha hann.symm⟩

theorem mem_listed (hw : s.world.db.Wf) {zones : List ZoneResponse}
    (hz : ∀ z ∈ zones, ∃ zone, s.world.db.Answers i.userID z zone)
    {x : String × AnnouncementResponse} (hx : x ∈ listed zones (siteApi h s i).listAnnouncements) :
    ∃ z ∈ zones, ∃ zone, s.world.db.Answers i.userID z zone ∧
      ∃ a ∈ s.world.db.announcementsInZone zone.id, ∃ row : AnnouncementRow, row.Shows a ∧
        x = (z.name, row.response) := by
  obtain ⟨z, hmem, hx⟩ := List.mem_flatMap.mp hx
  obtain ⟨zone, hans⟩ := hz z hmem
  have hlist := siteApi_listAnnouncements (h := h) hw hans.1 hans.2.2
  rw [hans.2.1] at hlist
  rw [hlist] at hx
  obtain ⟨resp, hresp, rfl⟩ := List.mem_map.mp hx
  obtain ⟨row, hrow, rfl⟩ := List.mem_map.mp hresp
  obtain ⟨a, ha, hshows⟩ := DB.listByZone_shows hw hrow
  exact ⟨z, hmem, zone, hans, a, ha, row, hshows, rfl⟩

theorem exists_listed (hw : s.world.db.Wf) {zones : List ZoneResponse} {z : ZoneResponse}
    (hz : z ∈ zones) {zone : Zone} (hans : s.world.db.Answers i.userID z zone) {a : Announcement}
    (ha : a ∈ s.world.db.announcementsInZone zone.id) :
    ∃ row : AnnouncementRow, row.Shows a ∧
      (z.name, row.response) ∈ listed zones (siteApi h s i).listAnnouncements := by
  obtain ⟨row, hrow, hshows⟩ := DB.exists_listByZone hw ha
  have hlist := siteApi_listAnnouncements (h := h) hw hans.1 hans.2.2
  rw [hans.2.1] at hlist
  refine ⟨row, hshows, List.mem_flatMap.mpr ⟨z, hz, ?_⟩⟩
  rw [hlist]
  exact List.mem_map_of_mem (List.mem_map_of_mem hrow)

/-- An entry for each announcement attached to one of these zones, and no others. -/
structure DB.Aggregated (db : DB) (userID : Int) (zones : List ZoneResponse) (entries : List Entry) :
    Prop where
  ascending : Ascending Entry.id entries
  sound : ∀ e ∈ entries, ∃ z ∈ zones, ∃ zone, db.Answers userID z zone ∧
    ∃ a ∈ db.announcementsInZone zone.id, e.Shows a
  complete : ∀ z ∈ zones, ∀ zone, db.Answers userID z zone →
    ∀ a ∈ db.announcementsInZone zone.id, ∃ e ∈ entries, e.Shows a

theorem fetch_site (hw : s.world.db.Wf) (hlen : ∀ a ∈ s.world.db.announcements, a.prefixLen ≤ 32)
    {zones : List ZoneResponse}
    (hz : ∀ z ∈ zones, ∃ zone, s.world.db.Answers i.userID z zone) :
    ∃ entries, fetch parsePrefix4 zones (siteApi h s i).listAnnouncements = .ok entries ∧
      s.world.db.Aggregated i.userID zones entries := by
  have hlists : ∀ z ∈ zones, ∃ as, (siteApi h s i).listAnnouncements z.name = .ok as := by
    intro z hmem
    obtain ⟨zone, hzone, hname, hp⟩ := hz z hmem
    rw [← hname]
    exact ⟨_, siteApi_listAnnouncements hw hzone hp⟩
  have hparse : ∀ (row : AnnouncementRow) (a : Announcement), a ∈ s.world.db.announcements →
      row.Shows a → parsePrefix4 row.response.subnet = some a.real.toPrefix ∧
        parsePrefix4 row.response.synthetic = some a.synthetic.toPrefix := by
    intro row a ha hrow
    constructor
    · show parsePrefix4 row.real.text = _
      rw [hrow.real]
      exact parsePrefix4_text (hlen a ha)
    · show parsePrefix4 row.synthetic.text = _
      rw [hrow.synthetic]
      exact parsePrefix4_text (hlen a ha)
  -- what the server lists are its own rows as text, so all of it parses
  have hwf : WellFormed parsePrefix4 (listed zones (siteApi h s i).listAnnouncements) := by
    intro x hx
    obtain ⟨z, -, zone, -, a, ha, row, hrow, rfl⟩ := mem_listed hw hz (firstListed_mem hx).1
    obtain ⟨hreal, hsynth⟩ := hparse row a ((DB.mem_announcementsInZone hw).mp ha).1 hrow
    simp only [hreal, hsynth, Option.isSome_some, and_self]
  obtain ⟨entries, hfetch⟩ := fetch_isOk_iff.mpr ⟨hlists, hwf⟩
  obtain ⟨-, hasc, hentries⟩ := fetch_ok hfetch
  have hsound : ∀ e ∈ entries, ∃ z ∈ zones, ∃ zone, s.world.db.Answers i.userID z zone ∧
      ∃ a ∈ s.world.db.announcementsInZone zone.id, e.Shows a := by
    intro e he
    obtain ⟨x, hx⟩ := hentries.sound e he
    obtain ⟨hmem, hid⟩ := firstListed_mem hx.first
    obtain ⟨z, hz, zone, hans, a, ha, row, hrow, rfl⟩ := mem_listed hw hz hmem
    obtain ⟨hreal, hsynth⟩ := hparse row a ((DB.mem_announcementsInZone hw).mp ha).1 hrow
    refine ⟨z, hz, zone, hans, a, ha, hid.symm.trans hrow.id, hx.nodeID.trans hrow.nodeID, ?_, ?_⟩
    · exact Option.some.inj (hx.subnet.symm.trans hreal)
    · exact Option.some.inj (hx.synthetic.symm.trans hsynth)
  refine ⟨entries, hfetch, hasc, hsound, ?_⟩
  intro z hmem zone hans a ha
  obtain ⟨row, hrow, hlisted⟩ := exists_listed (h := h) hw hmem hans ha
  obtain ⟨e, he, hid⟩ := hentries.complete _ hlisted
  obtain ⟨_, -, _, -, b, hb, hshows⟩ := hsound e he
  -- the entry of an id may come from another zone's list, but of the same row
  have hsame : b = a := hw.announcements_asc.keyed b ((DB.mem_announcementsInZone hw).mp hb).1 a
    ((DB.mem_announcementsInZone hw).mp ha).1 (hshows.id.symm.trans (hid.trans hrow.id))
  exact ⟨e, he, hsame ▸ hshows⟩

omit [DecidableEq κ] in
theorem DB.answers_listForUser {db : DB} {userID : Int} {z : ZoneResponse}
    (hz : z ∈ (db.listForUser userID).map (·.response)) : ∃ zone, db.Answers userID z zone := by
  obtain ⟨row, hrow, rfl⟩ := List.mem_map.mp hz
  obtain ⟨zone, hzone, hp, rfl⟩ := mem_listForUser.mp hrow
  exact ⟨zone, hzone, rfl, hp⟩

/-- The member zones of a node, by address, are those that have its address in their sets. -/
theorem answers_memberZones (hw : s.world.db.Wf) {ip : BitVec 32} {z : ZoneResponse} {zone : Zone}
    (hans : s.world.db.Answers i.userID z zone) :
    z ∈ memberZones ((s.world.db.listForUser i.userID).map (·.response))
        (siteApi h s i).zoneMembers (formatAddr4 ip) ↔
      z ∈ (s.world.db.listForUser i.userID).map (·.response) ∧ s.world.db.MemberIP zone.id ip := by
  obtain ⟨hzone, hname, hp⟩ := hans
  rw [mem_memberZones, ← hname, siteApi_zoneMembers hw hzone hp, ← DB.mem_membersByZone_ip hw]
  refine and_congr_right fun _ => ⟨?_, ?_⟩
  · rintro ⟨_, hms, m, hm, hip⟩
    obtain rfl := Except.ok.inj hms
    obtain ⟨row, hrow, rfl⟩ := List.mem_map.mp hm
    obtain ⟨a, ha⟩ := DB.ip_of_mem_membersByZone hrow
    have htext : formatAddr4 a = formatAddr4 ip := by
      rw [← hip]
      show _ = row.ip.text
      rw [ha]
      rfl
    exact ⟨row, hrow, ha.trans (congrArg Addr.v4 (formatAddr4_injective htext))⟩
  · rintro ⟨row, hrow, hip⟩
    refine ⟨_, rfl, row.response, List.mem_map_of_mem hrow, ?_⟩
    show row.ip.text = _
    rw [hip]
    rfl

end

/-- What the database has the node translate. -/
def DB.natRules (db : DB) (nodeID : Int) : List Natctl.Rule :=
  (db.announcements.filter (·.nodeID = nodeID)).map fun a => ⟨a.synthetic.toPrefix, a.real.toPrefix⟩

theorem DB.natRules_nodup {db : DB} (hw : db.Wf) (nodeID : Int) : (db.natRules nodeID).Nodup := by
  have hasc := hw.announcements_asc.sublist (List.filter_sublist (p := (·.nodeID = nodeID)))
  refine List.pairwise_map.mpr (hasc.imp_of_mem fun {a b} ha hb hlt heq => ?_)
  have hsynth := Block.toPrefix_inj (congrArg Natctl.Rule.synthetic heq)
  have hsame := hw.announcement_synthetic a (List.mem_of_mem_filter ha) b (List.mem_of_mem_filter hb)
    hsynth
  exact Int.ne_of_lt hlt (congrArg Announcement.id hsame)

theorem Natctl.rebuild_announcements {network : Prefix} (h4 : network.addr.is4 = true)
    (as : List Announcement) (t : Option Natctl.Table) :
    Natctl.rebuild network (as.map fun a => ⟨a.synthetic.toPrefix, a.real.toPrefix⟩) false t =
      (.ok (), some (Natctl.build network
        (as.map fun a => ⟨a.synthetic.toPrefix, a.real.toPrefix⟩))) := by
  have h4s : ((as.map fun a => (⟨a.synthetic.toPrefix, a.real.toPrefix⟩ : Natctl.Rule)).all fun r =>
      network.addr.is4 && r.synthetic.addr.is4 && r.real.addr.is4) = true := by
    rw [List.all_eq_true]
    intro rule hrule
    obtain ⟨a, -, rfl⟩ := List.mem_map.mp hrule
    show (network.addr.is4 && true && true) = true
    rw [h4]
    rfl
  rw [Natctl.rebuild, if_neg Bool.false_ne_true, if_pos h4s]

theorem DB.rebuild_natRules (db : DB) (nodeID : Int) {network : Prefix} (h4 : network.addr.is4 = true)
    (t : Option Natctl.Table) : Natctl.rebuild network (db.natRules nodeID) false t =
      (.ok (), some (Natctl.build network (db.natRules nodeID))) :=
  Natctl.rebuild_announcements h4 _ t

/-- Zones that list every announcement of the node yield its rules. -/
theorem DB.Aggregated.natRules {db : DB} {userID : Int} {zones : List ZoneResponse}
    {entries : List Entry} (h : db.Aggregated userID zones entries) (hw : db.Wf) {nodeID : Int}
    (hall : ∀ a ∈ db.announcements, a.nodeID = nodeID → ∃ z ∈ zones, ∃ zone,
      db.Answers userID z zone ∧ a ∈ db.announcementsInZone zone.id) :
    LanWeave.natRules (mine entries nodeID) = db.natRules nodeID := by
  refine Ascending.map_eq_map (h.ascending.sublist List.filter_sublist)
    (hw.announcements_asc.sublist List.filter_sublist) ?_ ?_
  · intro e he
    obtain ⟨hmem, hnode⟩ := List.mem_filter.mp he
    obtain ⟨_, -, zone, -, a, ha, hshows⟩ := h.sound e hmem
    have hmine : a.nodeID = nodeID := hshows.nodeID.symm.trans (of_decide_eq_true hnode)
    refine ⟨a, List.mem_filter.mpr ⟨((mem_announcementsInZone hw).mp ha).1, decide_eq_true hmine⟩,
      hshows.id.symm, ?_⟩
    rw [hshows.synthetic, hshows.subnet]
  · intro a ha
    obtain ⟨hmem, hnode⟩ := List.mem_filter.mp ha
    obtain ⟨z, hz, zone, hans, hin⟩ := hall a hmem (of_decide_eq_true hnode)
    obtain ⟨e, he, hshows⟩ := h.complete z hz zone hans a hin
    exact ⟨e, List.mem_filter.mpr ⟨he, decide_eq_true (hshows.nodeID.trans (of_decide_eq_true hnode))⟩,
      hshows.id⟩

section
variable {κ : Type} [DecidableEq κ] (h : Handlers κ) {s : Site κ} {i : Identity} {n : Node}

/-- The zones that the client of the node with this address keeps. -/
def keptZones (s : Site κ) (i : Identity) (ip : BitVec 32) : List ZoneResponse :=
  memberZones ((s.world.db.listForUser i.userID).map (·.response)) (siteApi h s i).zoneMembers
    (formatAddr4 ip)

variable {h}

theorem exists_keptZone (hw : s.world.db.Wf) (hn : n ∈ s.world.db.nodes) (hi : i.userID = n.userID)
    {zone : Zone} (hzone : zone ∈ s.world.db.zones) (hm : s.world.db.MemberIP zone.id n.ip) :
    ∃ z ∈ keptZones h s i n.ip, s.world.db.Answers i.userID z zone := by
  have hp : s.world.db.participates i.userID zone = true :=
    hi ▸ DB.participates_of_member hw hn hm
  have hrow : ZoneWithOwnership.response ⟨zone.id, zone.name, zone.ownerID = i.userID⟩ ∈
      (s.world.db.listForUser i.userID).map (·.response) :=
    List.mem_map_of_mem (DB.mem_listForUser.mpr ⟨zone, hzone, hp, rfl⟩)
  exact ⟨_, (answers_memberZones hw ⟨hzone, rfl, hp⟩).mpr ⟨hrow, hm⟩, hzone, rfl, hp⟩

theorem exists_keptZone_of_own (hw : s.world.db.Wf) (hn : n ∈ s.world.db.nodes)
    (hi : i.userID = n.userID) {a : Announcement} (ha : s.world.db.AtHome a) (hnode : a.nodeID = n.id) :
    ∃ z ∈ keptZones h s i n.ip, ∃ zone, s.world.db.Answers i.userID z zone ∧
      a ∈ s.world.db.announcementsInZone zone.id := by
  obtain ⟨hmem, az, haz, hann, hm⟩ := ha
  obtain ⟨zone, hzone, hzid⟩ := hw.attachment_zone az haz
  have hmember : s.world.db.MemberIP zone.id n.ip := ⟨_, hm, hzid.symm, n, hn, hnode.symm, rfl⟩
  obtain ⟨z, hz, hans⟩ := exists_keptZone hw hn hi hzone hmember
  refine ⟨z, hz, zone, hans, (DB.mem_announcementsInZone hw).mpr ⟨hmem, ?_⟩⟩
  rw [← hann, hzid]
  exact haz

/-- The blocks to be routed are those of others that the sets let the node reach. -/
theorem mem_prefixes_kept (hw : s.world.db.Wf) (hc : s.world.db.Canonical)
    (hnft : s.world.nft = rebuildZoneRules s.world.db) (hn : n ∈ s.world.db.nodes)
    (hi : i.userID = n.userID) {entries : List Entry}
    (hagg : s.world.db.Aggregated i.userID (keptZones h s i n.ip) entries) {p : Prefix} :
    p ∈ prefixes (consumed entries n.id) ↔
      ∃ z, s.world.nft.HasMember z n.ip ∧ s.world.nft.HasRoute z (rangeElements p) ∧
        ∃ a ∈ s.world.db.announcements, a.synthetic.toPrefix = p ∧ a.nodeID ≠ n.id := by
  have hmemberIP : ∀ z, s.world.nft.HasMember z n.ip ↔ s.world.db.MemberIP z n.ip := fun z =>
    hnft ▸ grants_rebuilt h.parseKey hw (.member z n.ip)
  have hrange : ∀ z r, s.world.nft.HasRoute z r ↔ s.world.db.ZoneRange z r := fun z r =>
    hnft ▸ grants_rebuilt h.parseKey hw (.route z r)
  rw [mem_prefixes_consumed]
  constructor
  · rintro ⟨e, he, hforeign, rfl⟩
    obtain ⟨z, hz, zone, hans, a, ha, hshows⟩ := hagg.sound e he
    have hmem := ((answers_memberZones hw hans).mp hz).2
    rw [hshows.nodeID] at hforeign
    rw [hshows.synthetic]
    exact ⟨zone.id, (hmemberIP _).mpr hmem,
      (hrange _ _).mpr ((DB.zoneRange_iff hw).mpr ⟨a, ha, rfl⟩),
      a, ((DB.mem_announcementsInZone hw).mp ha).1, rfl, hforeign⟩
  · rintro ⟨z, hmem, hroute, a, ha, rfl, hforeign⟩
    have hmem := (hmemberIP z).mp hmem
    obtain ⟨zone, hzone, rfl⟩ : ∃ zone ∈ s.world.db.zones, zone.id = z := by
      obtain ⟨m, hm, hmz, -⟩ := hmem
      exact hmz ▸ hw.member_zone m hm
    obtain ⟨b, hb, hranges⟩ := (DB.zoneRange_iff hw).mp ((hrange _ _).mp hroute)
    -- blocks are told apart by their ranges, so the zone has this announcement itself
    have hbmem := ((DB.mem_announcementsInZone hw).mp hb).1
    have hblocks := rangeElements_inj (hc b hbmem).2 (hc a ha).2 (hc b hbmem).1 (hc a ha).1 hranges
    obtain rfl := hw.announcement_synthetic b hbmem a ha hblocks
    obtain ⟨z, hz, hans⟩ := exists_keptZone (h := h) hw hn hi hzone hmem
    obtain ⟨e, he, hshows⟩ := hagg.complete z hz zone hans b hb
    exact ⟨e, he, by rwa [hshows.nodeID], hshows.synthetic⟩

variable {rec : Record}

theorem memberEntries_site (hw : s.world.db.Wf) (hlen : ∀ a ∈ s.world.db.announcements, a.prefixLen ≤ 32)
    (hip : rec.ip = formatAddr4 n.ip) :
    ∃ entries, memberEntries parsePrefix4 rec (siteApi h s i) = .ok entries ∧
      s.world.db.Aggregated i.userID (keptZones h s i n.ip) entries := by
  obtain ⟨entries, hfetch, hagg⟩ := fetch_site (h := h) hw hlen fun z hz =>
    DB.answers_listForUser (mem_memberZones.mp hz).1
  refine ⟨entries, ?_, hagg⟩
  rw [memberEntries, siteApi_listZones, hip]
  simp only [hfetch]

variable (h)

/-- What a node's client routes is what the server lets its address reach, and what it
translates, by either of its readings, is what it has announced. -/
theorem reachable_is_permitted (hw : s.world.db.Wf) (hc : s.world.db.Canonical)
    (ho : s.world.db.NoOrphan) (hm : s.world.db.AttachmentsMatch)
    (hnft : s.world.nft = rebuildZoneRules s.world.db) (hn : n ∈ s.world.db.nodes)
    (hi : i.userID = n.userID) (hid : rec.nodeID = n.id) (hip : rec.ip = formatAddr4 n.ip) :
    ∃ entries, memberEntries parsePrefix4 rec (siteApi h s i) = .ok entries ∧
      (∀ p, p ∈ prefixes (consumed entries rec.nodeID) ↔
        ∃ z, s.world.nft.HasMember z n.ip ∧ s.world.nft.HasRoute z (rangeElements p) ∧
          ∃ a ∈ s.world.db.announcements, a.synthetic.toPrefix = p ∧ a.nodeID ≠ n.id) ∧
      ∃ rows, desired parsePrefix4 rec (siteApi h s i) =
          .ok (natRules (mine entries rec.nodeID), rows) ∧
        natRules (mine entries rec.nodeID) = s.world.db.natRules n.id ∧
        (s.world.db.natRules n.id).Nodup := by
  have hlen : ∀ a ∈ s.world.db.announcements, a.prefixLen ≤ 32 := fun a ha => (hc a ha).1.le
  obtain ⟨entries, hentries, hagg⟩ := memberEntries_site (h := h) hw hlen hip
  obtain ⟨all, hall, haggAll⟩ := fetch_site (h := h) hw hlen fun z hz => DB.answers_listForUser hz
  -- every own announcement is attached to a zone the node is in, so both ways list it
  have hown : ∀ a ∈ s.world.db.announcements, a.nodeID = n.id → ∃ z ∈ keptZones h s i n.ip, ∃ zone,
      s.world.db.Answers i.userID z zone ∧ a ∈ s.world.db.announcementsInZone zone.id :=
    fun a ha => exists_keptZone_of_own hw hn hi (DB.atHome_of_match ho hm ha)
  have hrules : natRules (mine entries rec.nodeID) = s.world.db.natRules n.id := by
    rw [hid]
    exact hagg.natRules hw hown
  have hrulesAll : natRules (mine all rec.nodeID) = s.world.db.natRules n.id := by
    rw [hid]
    apply haggAll.natRules hw
    intro a ha hnode
    obtain ⟨z, hz, hzone⟩ := hown a ha hnode
    exact ⟨z, (mem_memberZones.mp hz).1, hzone⟩
  refine ⟨entries, hentries, ?_,
    (mine all rec.nodeID).map fun e => ⟨e.id, e.subnet, e.synthetic, e.zones⟩, ?_, hrules,
    DB.natRules_nodup hw n.id⟩
  · intro p
    rw [hid]
    exact mem_prefixes_kept hw hc hnft hn hi hagg
  · rw [desired, siteApi_listZones, hrules, ← hrulesAll]
    simp only [Reconcile.desired, hall]
    rfl

end

/-- Two users' nodes in one zone, with the subnet that the first announces. -/
def labShared : DB :=
  { labAnnounced with
    users := [⟨1, "alice", "", true⟩, ⟨2, "bob", "", false⟩]
    nodes := [⟨1, 1, "router", "key", 0x0A000002, "openwrt"⟩, ⟨2, 2, "laptop", "key2", 0x0A000003, ""⟩]
    zoneMembers := [⟨1, 1⟩, ⟨1, 2⟩]
    seqUsers := 2
    seqNodes := 2 }

theorem labShared_wf : labShared.Wf := by
  constructor <;> simp [labShared, labAnnounced, labDB, Ascending, Keyed]

theorem labShared_canonical : labShared.Canonical := by
  intro a ha
  obtain rfl : a = ⟨1, 1, 0xC0A80700, 24, 0x647F0000⟩ := by simpa [labShared, labAnnounced] using ha
  exact ⟨by decide, by simp [Block.Aligned, Announcement.synthetic]⟩

/-- The laptop's client. -/
theorem reachable_is_permitted_shared :
    ∃ entries, memberEntries parsePrefix4 { Record.empty with ip := "10.0.0.3", nodeID := 2 }
        (siteApi labServer.bare ⟨rebuilt labShared, ⟨[], 0⟩⟩ ⟨2, "bob", false⟩) = .ok entries ∧
      ⟨.v4 0x647F0000, 24⟩ ∈ prefixes (consumed entries 2) := by
  have hip : formatAddr4 0x0A000003 = "10.0.0.3" := by decide
  obtain ⟨entries, hentries, hreach, -⟩ :=
    @reachable_is_permitted String _ labServer.bare ⟨rebuilt labShared, ⟨[], 0⟩⟩
      ⟨2, "bob", false⟩ ⟨2, 2, "laptop", "key2", 0x0A000003, ""⟩
      { Record.empty with ip := "10.0.0.3", nodeID := 2 } labShared_wf labShared_canonical
      (by simp [DB.NoOrphan, rebuilt, labShared, labAnnounced])
      (by simp [DB.AttachmentsMatch, rebuilt, labShared, labAnnounced]) rfl
      (by simp [rebuilt, labShared]) rfl rfl hip.symm
  refine ⟨entries, hentries, (hreach _).mpr ?_⟩
  have hmember := (grants_rebuilt some labShared_wf (.member 1 0x0A000003)).mpr
    ⟨⟨1, 2⟩, by simp [labShared], rfl, ⟨2, 2, "laptop", "key2", 0x0A000003, ""⟩,
      by simp [labShared], rfl, rfl⟩
  have hroute := (grants_rebuilt some labShared_wf (.route 1 (rangeElements ⟨.v4 0x647F0000, 24⟩))).mpr
    ⟨⟨1, 1⟩, by simp [labShared, labAnnounced], rfl, ⟨1, 1, 0xC0A80700, 24, 0x647F0000⟩,
      by simp [labShared, labAnnounced], rfl, rfl⟩
  exact ⟨1, hmember, hroute, ⟨1, 1, 0xC0A80700, 24, 0x647F0000⟩,
    by simp [rebuilt, labShared, labAnnounced], rfl, by decide⟩

end LanWeave

import LanWeave.Library.Faults
import LanWeave.Server.Grants

/-! Where the dataplane differs from what the database asks for. Each difference is an item:
an address or a range of a zone, or the peer of a key. -/

namespace LanWeave
open Library

/-- The sets and the rules are those of these zones, in this order. -/
structure Nft.Frames (t : Nft) (zoneIDs : List Int) : Prop where
  rules : t.rules = zoneRules zoneIDs
  members : ∀ z, (t.members z).isSome = decide (z ∈ zoneIDs)
  routes : ∀ z, (t.routes z).isSome = decide (z ∈ zoneIDs)

section
variable {κ : Type} [DecidableEq κ] (parseKey : String → Option κ)

def World.Drifts (w : World κ) : Grant κ → Prop
  | .member z ip => ¬ (w.nft.HasMember z ip ↔ w.db.MemberIP z ip)
  | .route z r => ¬ (w.nft.HasRoute z r ↔ w.db.ZoneRange z r)
  | .peer key => w.wg key ≠ w.db.device parseKey key

/-- The dataplane equals the database. -/
structure World.Synced (w : World κ) : Prop where
  frames : w.nft.Frames (w.db.zones.map (·.id))
  exact : ∀ x, ¬ w.Drifts parseKey x

/-- The dataplane is what a startup would build from the database. -/
def World.Rebuilt (w : World κ) : Prop :=
  w.nft = rebuildZoneRules w.db ∧ rebuildNodePeers parseKey w.db = .ok w.wg

variable {parseKey} {db : DB}

theorem hasZone_eq_decide (z : Int) : db.hasZone z = decide (z ∈ db.zones.map (·.id)) := by
  rw [Bool.eq_iff_iff, DB.hasZone_iff]
  simp

theorem frames_rebuild (h : db.Wf) : (rebuildZoneRules db).Frames (db.zones.map (·.id)) := by
  refine ⟨rebuildZoneRules_rules h, fun z => ?_, fun z => ?_⟩
  · rw [rebuildZoneRules_members h, ← hasZone_eq_decide]
    cases db.hasZone z <;> rfl
  · rw [rebuildZoneRules_routes h, ← hasZone_eq_decide]
    cases db.hasZone z <;> rfl

theorem option_eq_of_mem {α : Type} {o : Option (Finset α)} {b : Bool} {s : Finset α}
    (hb : o.isSome = b) (hmem : ∀ x, (∃ t, o = some t ∧ x ∈ t) ↔ x ∈ s ∧ b = true) :
    o = if b then some s else none := by
  cases o with
  | none =>
    rw [← hb]
    rfl
  | some t =>
    rw [← hb]
    refine congrArg some (Finset.ext fun x => ?_)
    simpa [← hb] using hmem x

/-- Being equal item by item is being equal to the rebuilt dataplane. -/
theorem synced_iff_rebuilt {w : World κ} (h : w.db.Wf) (hc : w.db.Canonical)
    (hk : w.db.KeysDecode parseKey) : w.Synced parseKey ↔ w.Rebuilt parseKey := by
  constructor
  · rintro ⟨hframes, hexact⟩
    -- the rebuild makes sets for the zones there are; a membership or attachment names one
    have hzone : ∀ z, (∃ z' ∈ w.db.zones, z'.id = z) → decide (z ∈ w.db.zones.map (·.id)) = true :=
      fun z hz => hasZone_eq_decide z ▸ DB.hasZone_iff.mpr hz
    have hmembers : ∀ z, w.nft.members z = (rebuildZoneRules w.db).members z := by
      intro z
      rw [rebuildZoneRules_members h, hasZone_eq_decide]
      refine option_eq_of_mem (hframes.members z) fun ip => ?_
      rw [DB.mem_memberSet h]
      refine (not_not.mp (hexact (.member z ip))).trans (and_iff_left_of_imp ?_).symm
      rintro ⟨m, hm, rfl, -⟩
      exact hzone _ (h.member_zone m hm)
    have hroutes : ∀ z, w.nft.routes z = (rebuildZoneRules w.db).routes z := by
      intro z
      rw [rebuildZoneRules_routes h, hasZone_eq_decide]
      refine option_eq_of_mem (hframes.routes z) fun r => ?_
      rw [DB.mem_rangeSet h]
      refine (not_not.mp (hexact (.route z r))).trans (and_iff_left_of_imp ?_).symm
      rintro ⟨az, haz, rfl, -⟩
      exact hzone _ (h.attachment_zone az haz)
    constructor
    · have hrules := hframes.rules.trans (rebuildZoneRules_rules h).symm
      cases hnft : w.nft
      cases hreb : rebuildZoneRules w.db
      simp only [hnft, hreb] at hrules hmembers hroutes
      rw [hrules, funext hmembers, funext hroutes]
    · rw [rebuildNodePeers_eq h hc hk]
      exact congrArg Except.ok (funext fun key => (not_not.mp (hexact (.peer key))).symm)
  · rintro ⟨hnft, hwg⟩
    rw [rebuildNodePeers_eq h hc hk] at hwg
    have hback := grants_rebuilt parseKey h
    refine ⟨hnft ▸ frames_rebuild h, fun x => ?_⟩
    cases x with
    | member z ip => exact not_not.mpr (hnft ▸ hback (.member z ip))
    | route z r => exact not_not.mpr (hnft ▸ hback (.route z r))
    | peer key => exact not_not.mpr (congrFun (Except.ok.inj hwg) key).symm

/-- Aligned blocks of more than one address are told apart by their ranges: the last address of
the space ends only the blocks that reach it. -/
theorem rangeElements_inj {a b : Block} (ha : a.Aligned) (hb : b.Aligned) (hla : a.prefixLen < 32)
    (hlb : b.prefixLen < 32) (h : rangeElements a.toPrefix = rangeElements b.toPrefix) : a = b := by
  -- the end is even, so it cannot be confused with the last address, which stands in for 2 ^ 32
  have hstop : ∀ c : Block, c.Aligned → c.prefixLen < 32 →
      c.base.toNat + 2 ^ (32 - c.prefixLen) ≤ 2 ^ 32 ∧ 2 ∣ c.base.toNat + 2 ^ (32 - c.prefixLen) := by
    intro c hc hlen
    have hsplit : (2 : ℕ) ^ 32 = 2 ^ c.prefixLen * 2 ^ (32 - c.prefixLen) := by
      rw [← pow_add, Nat.add_sub_cancel' hlen.le]
    obtain ⟨k, hk⟩ := hc
    have hlt := c.base.isLt
    rw [hk, hsplit, Nat.mul_comm] at hlt
    have hk' : k + 1 ≤ 2 ^ c.prefixLen := Nat.lt_of_mul_lt_mul_right hlt
    constructor
    · calc c.base.toNat + 2 ^ (32 - c.prefixLen)
          = (k + 1) * 2 ^ (32 - c.prefixLen) := by rw [hk]; ring
        _ ≤ 2 ^ 32 := hsplit ▸ Nat.mul_le_mul_right _ hk'
    · have htwo : 2 ∣ 2 ^ (32 - c.prefixLen) := dvd_pow_self 2 (by omega)
      exact Nat.dvd_add (hk ▸ htwo.mul_right k) htwo
  have hend : ∀ c : Block, c.Aligned → (rangeElements c.toPrefix).2.toNat =
      if 2 ^ 32 ≤ c.base.toNat + 2 ^ (32 - c.prefixLen) then 2 ^ 32 - 1
      else c.base.toNat + 2 ^ (32 - c.prefixLen) := by
    intro c hc
    rw [toNat_rangeElements_end, Block.blockFromPrefix_toPrefix hc]
    rfl
  have hbase : a.base = b.base := by
    have hfst := congrArg Prod.fst h
    simpa only [rangeElements, Block.blockFromPrefix_toPrefix ha,
      Block.blockFromPrefix_toPrefix hb] using hfst
  have hsize : 2 ^ (32 - a.prefixLen) = 2 ^ (32 - b.prefixLen) := by
    have hsnd := congrArg (fun r : Range => r.2.toNat) h
    simp only [hend a ha, hend b hb] at hsnd
    obtain ⟨hlea, heva⟩ := hstop a ha hla
    obtain ⟨hleb, hevb⟩ := hstop b hb hlb
    rw [hbase] at hsnd hlea heva
    split_ifs at hsnd <;> omega
  have hlen := Nat.pow_right_injective (le_refl 2) hsize
  obtain ⟨x, n⟩ := a
  obtain ⟨y, m⟩ := b
  simp only at hbase hlen hla hlb
  rw [hbase, show n = m by omega]

theorem DB.Canonical.range_inj (hc : db.Canonical) {a b : Announcement} (h : db.Wf)
    (ha : a ∈ db.announcements) (hb : b ∈ db.announcements)
    (hr : rangeElements a.synthetic.toPrefix = rangeElements b.synthetic.toPrefix) : a = b := by
  have hab := rangeElements_inj (hc a ha).2 (hc b hb).2 (hc a ha).1 (hc b hb).1 hr
  exact h.announcement_synthetic a ha b hb hab

theorem DB.Sub.canonical {db' : DB} (hs : DB.Sub db' db) (hc : db.Canonical) : db'.Canonical :=
  fun a ha => hc a (hs.announcements.subset ha)

omit [DecidableEq κ] in
theorem DB.Sub.keysDecode {db' : DB} (hs : DB.Sub db' db) (hk : db.KeysDecode parseKey) :
    db'.KeysDecode parseKey :=
  ⟨fun n hn => hk.isSome n (hs.nodes.subset hn),
    fun n hn n' hn' => hk.distinct n (hs.nodes.subset hn) n' (hs.nodes.subset hn')⟩

theorem DB.device_eq_some (hk : db.KeysDecode parseKey) {key : κ} {A : Finset Prefix} :
    db.device parseKey key = some A ↔
      ∃ n ∈ db.nodes, parseKey n.pubKey = some key ∧ db.allowed n = A := by
  rw [DB.device, Option.map_eq_some_iff]
  constructor
  · rintro ⟨n, hfind, hA⟩
    exact ⟨n, List.mem_of_find?_eq_some hfind, by simpa using List.find?_some hfind, hA⟩
  · rintro ⟨n, hn, hkey, hA⟩
    cases hfind : db.nodes.find? fun n => parseKey n.pubKey = some key with
    | none => simpa [hkey] using List.find?_eq_none.mp hfind n hn
    | some n' =>
      have hkey' : parseKey n'.pubKey = some key := by simpa using List.find?_some hfind
      have hn' := List.mem_of_find?_eq_some hfind
      exact ⟨n, by rw [hk.distinct n' hn' n hn (hkey'.trans hkey.symm)], hA⟩

theorem DB.device_of_mem (hk : db.KeysDecode parseKey) {n : Node} (hn : n ∈ db.nodes) {key : κ}
    (hkey : parseKey n.pubKey = some key) : db.device parseKey key = some (db.allowed n) :=
  (DB.device_eq_some hk).mpr ⟨n, hn, hkey, rfl⟩

theorem DB.device_eq_none {key : κ} (h : ∀ n ∈ db.nodes, parseKey n.pubKey ≠ some key) :
    db.device parseKey key = none := by
  rw [DB.device, Option.map_eq_none_iff, List.find?_eq_none]
  simpa using h

theorem DB.allowed_congr {db' : DB} {n : Node}
    (h : ∀ a, a.nodeID = n.id → (a ∈ db.announcements ↔ a ∈ db'.announcements)) :
    db.allowed n = db'.allowed n := by
  have hrows : ∀ p, p ∈ db.routes n.id ↔ p ∈ db'.routes n.id := by
    intro p
    simp only [DB.routes, List.mem_map, List.mem_filter, decide_eq_true_eq]
    refine exists_congr fun a => and_congr_left' ?_
    constructor
    · rintro ⟨ha, hid⟩
      exact ⟨(h a hid).mp ha, hid⟩
    · rintro ⟨ha, hid⟩
      exact ⟨(h a hid).mpr ha, hid⟩
  unfold DB.allowed allowedIPs
  refine congrArg (insert _) (Finset.ext fun p => ?_)
  simp only [List.mem_toFinset, List.mem_map, hrows]

end

namespace DB
section
variable {κ : Type} [DecidableEq κ] (parseKey : String → Option κ)

def Changes (db db' : DB) : Grant κ → Prop
  | .member z ip => ¬ (db.MemberIP z ip ↔ db'.MemberIP z ip)
  | .route z r => ¬ (db.ZoneRange z r ↔ db'.ZoneRange z r)
  | .peer key => db.device parseKey key ≠ db'.device parseKey key

variable {parseKey} {db db' : DB} {x : Grant κ}

theorem changes_comm : Changes parseKey db db' x ↔ Changes parseKey db' db x := by
  cases x with
  | member z ip => exact not_congr iff_comm
  | route z r => exact not_congr iff_comm
  | peer key => exact ne_comm

theorem not_changes_self : ¬ Changes parseKey db db x := by
  cases x with
  | member z ip => exact not_not.mpr Iff.rfl
  | route z r => exact not_not.mpr Iff.rfl
  | peer key => exact not_not.mpr rfl

theorem drifts_store {w : World κ} (h : World.Drifts parseKey { w with db := db' } x) :
    w.Drifts parseKey x ∨ Changes parseKey w.db db' x := by
  by_contra hno
  obtain ⟨hold, hsame⟩ := not_or.mp hno
  cases x with
  | member z ip => exact h ((not_not.mp hold).trans (not_not.mp hsame))
  | route z r => exact h ((not_not.mp hold).trans (not_not.mp hsame))
  | peer key => exact h ((not_not.mp hold).trans (not_not.mp hsame))

/-- While nodes only leave, an item changes with its backing, or it is the peer of a node that
stays and has another announcement than before. -/
theorem changes_cases (hn : db'.nodes ⊆ db.nodes) (hk : db.KeysDecode parseKey)
    (h : Changes parseKey db db' x) : (db.Backs parseKey x ∧ ¬ db'.Backs parseKey x) ∨
      (¬ db.Backs parseKey x ∧ db'.Backs parseKey x) ∨
      ∃ n ∈ db'.nodes, ∃ key, parseKey n.pubKey = some key ∧ x = .peer key ∧
        ∃ a, a.nodeID = n.id ∧ ¬ (a ∈ db.announcements ↔ a ∈ db'.announcements) := by
  have hk' : db'.KeysDecode parseKey := ⟨fun n hmem => hk.isSome n (hn hmem),
    fun n hmem n' hmem' => hk.distinct n (hn hmem) n' (hn hmem')⟩
  have hbacks : ∀ {p q : Prop}, ¬ (p ↔ q) → p ∧ ¬ q ∨ ¬ p ∧ q := by
    intro p q
    tauto
  cases x with
  | member z ip => exact (hbacks h).imp id .inl
  | route z r => exact (hbacks h).imp id .inl
  | peer key =>
    by_cases hold : db.HasKey parseKey key
    · by_cases hnew : db'.HasKey parseKey key
      · obtain ⟨n, hmem, hkey⟩ := hnew
        refine .inr (.inr ⟨n, hmem, key, hkey, rfl, ?_⟩)
        by_contra hsame
        push Not at hsame
        refine h ?_
        rw [device_of_mem hk (hn hmem) hkey, device_of_mem hk' hmem hkey, allowed_congr hsame]
      · exact .inl ⟨hold, hnew⟩
    · have hnew : ¬ db'.HasKey parseKey key := fun ⟨n, hmem, hkey⟩ => hold ⟨n, hn hmem, hkey⟩
      refine absurd ?_ h
      rw [device_eq_none fun n hmem hkey => hold ⟨n, hmem, hkey⟩,
        device_eq_none fun n hmem hkey => hnew ⟨n, hmem, hkey⟩]

/-- What a removal changes: items that lose their backing, and peers that lose a block. -/
theorem Sub.changes (hs : Sub db' db) (hk : db.KeysDecode parseKey)
    (h : Changes parseKey db db' x) : (db.Backs parseKey x ∧ ¬ db'.Backs parseKey x) ∨
      ∃ n ∈ db'.nodes, ∃ key, parseKey n.pubKey = some key ∧ x = .peer key ∧
        ∃ a ∈ db.announcements, a ∉ db'.announcements ∧ a.nodeID = n.id := by
  rcases changes_cases hs.nodes.subset hk h with
    hlost | ⟨hnot, hnew⟩ | ⟨n, hn, key, hkey, hx, a, hid, ha⟩
  · exact .inl hlost
  · exact absurd (hs.backs hnew) hnot
  · have hsub : a ∈ db'.announcements → a ∈ db.announcements := fun hmem =>
      hs.announcements.subset hmem
    exact .inr ⟨n, hn, key, hkey, hx, a, by tauto, by tauto, hid⟩

/-- What an insert changes: items that gain their backing, and peers that gain a block. -/
theorem changes_of_mono (h : Changes parseKey db db' x) (hk' : db'.KeysDecode parseKey)
    (hn : db.nodes ⊆ db'.nodes) (hm : db.zoneMembers ⊆ db'.zoneMembers)
    (ha : db.announcements ⊆ db'.announcements)
    (hz : db.announcementZones ⊆ db'.announcementZones) :
    (¬ db.Backs parseKey x ∧ db'.Backs parseKey x) ∨
      ∃ n ∈ db.nodes, ∃ key, parseKey n.pubKey = some key ∧ x = .peer key ∧
        ∃ a ∈ db'.announcements, a ∉ db.announcements ∧ a.nodeID = n.id := by
  rcases changes_cases hn hk' (changes_comm.mp h) with
    ⟨hnew, hnot⟩ | ⟨hnot, hold⟩ | ⟨n, hmem, key, hkey, hx, a, hid, hiff⟩
  · exact .inl ⟨hnot, hnew⟩
  · exact absurd (backs_mono hold hn hm ha hz) hnot
  · have hsub : a ∈ db.announcements → a ∈ db'.announcements := fun hmem => ha hmem
    exact .inr ⟨n, hmem, key, hkey, hx, a, by tauto, by tauto, hid⟩

theorem changes_addNode (h : db.Wf) {userID : Int} {name pubKey : String} {ip : BitVec 32}
    {platform : String} (hk' : (db.addNode userID name pubKey ip platform).KeysDecode parseKey)
    (hx : Changes parseKey db (db.addNode userID name pubKey ip platform) x) :
    ∃ key, parseKey pubKey = some key ∧ x = .peer key := by
  rcases changes_of_mono hx hk' (List.subset_append_left ..) (List.Subset.refl _)
    (List.Subset.refl _) (List.Subset.refl _) with ⟨hnot, hnew⟩ | ⟨_, _, _, _, _, a, ha, hna, _⟩
  · cases x with
    | member z ip' =>
      obtain ⟨m, hm, hz, n, hn, hid, hip⟩ := hnew
      -- the new node's id is in no membership yet
      obtain ⟨n', hn', hid'⟩ := h.member_node m hm
      have hle := h.nodes_seq n' hn'
      rcases List.mem_append.mp hn with hn | hn
      · exact absurd ⟨m, hm, hz, n, hn, hid, hip⟩ hnot
      · rw [List.mem_singleton.mp hn] at hid
        simp only at hid
        omega
    | route z r => exact absurd hnew hnot
    | peer key =>
      obtain ⟨n, hn, hkey⟩ := hnew
      rcases List.mem_append.mp hn with hn | hn
      · exact absurd ⟨n, hn, hkey⟩ hnot
      · rw [List.mem_singleton.mp hn] at hkey
        exact ⟨key, hkey, rfl⟩
  · exact absurd ha hna

theorem not_changes_addZone (name passwordHash : String) (ownerID : Int) :
    ¬ Changes parseKey db (db.addZone name passwordHash ownerID) x := by
  cases x with
  | member z ip => exact not_not.mpr Iff.rfl
  | route z r => exact not_not.mpr Iff.rfl
  | peer key => exact not_not.mpr rfl

theorem changes_addMember {m : ZoneMember} (hk : db.KeysDecode parseKey)
    (hx : Changes parseKey db (db.addMember m) x) :
    ∃ n ∈ db.nodes, n.id = m.nodeID ∧ x = .member m.zoneID n.ip := by
  rcases changes_of_mono hx ⟨hk.isSome, hk.distinct⟩ (List.Subset.refl _)
    (List.subset_append_left ..) (List.Subset.refl _) (List.Subset.refl _) with
    ⟨hnot, hnew⟩ | ⟨_, _, _, _, _, a, ha, hna, _⟩
  · cases x with
    | member z ip =>
      obtain ⟨m', hm, rfl, n, hn, hid, rfl⟩ := hnew
      rcases List.mem_append.mp hm with hm | hm
      · exact absurd ⟨m', hm, rfl, n, hn, hid, rfl⟩ hnot
      · rw [List.mem_singleton.mp hm] at hid ⊢
        exact ⟨n, hn, hid, rfl⟩
    | route | peer => exact absurd hnew hnot
  · exact absurd ha hna

omit [DecidableEq κ] in
theorem gained_attach {az : AnnouncementZone} (hnot : ¬ db.Backs parseKey x)
    (hnew : (db.attach az).Backs parseKey x) : ∃ a ∈ db.announcements, a.id = az.announcementID ∧
      x = .route az.zoneID (rangeElements a.synthetic.toPrefix) := by
  cases x with
  | route z r =>
    obtain ⟨az', haz, rfl, a, ha, hid, rfl⟩ := hnew
    rcases List.mem_append.mp haz with haz | haz
    · exact absurd ⟨az', haz, rfl, a, ha, hid, rfl⟩ hnot
    · rw [List.mem_singleton.mp haz] at hid ⊢
      exact ⟨a, ha, hid, rfl⟩
  | member | peer => exact absurd hnew hnot

theorem changes_attach {az : AnnouncementZone} (hk : db.KeysDecode parseKey)
    (hx : Changes parseKey db (db.attach az) x) : ∃ a ∈ db.announcements,
      a.id = az.announcementID ∧ x = .route az.zoneID (rangeElements a.synthetic.toPrefix) := by
  rcases changes_of_mono hx ⟨hk.isSome, hk.distinct⟩ (List.Subset.refl _)
    (List.Subset.refl _) (List.Subset.refl _) (List.subset_append_left ..) with
    ⟨hnot, hnew⟩ | ⟨_, _, _, _, _, a, ha, hna, _⟩
  · exact gained_attach hnot hnew
  · exact absurd ha hna

theorem changes_announce (h : db.Wf) (hk : db.KeysDecode parseKey) {nodeID : Int} {real : Block}
    {zoneID : Int} {syntheticBase : BitVec 32}
    (hx : Changes parseKey db (db.announce nodeID real zoneID syntheticBase) x) :
    x = .route zoneID (rangeElements (Block.toPrefix ⟨syntheticBase, real.prefixLen⟩)) ∨
      ∃ n ∈ db.nodes, n.id = nodeID ∧ ∃ key, parseKey n.pubKey = some key ∧ x = .peer key := by
  rcases changes_of_mono hx ⟨hk.isSome, hk.distinct⟩ (List.Subset.refl _) (List.Subset.refl _)
    (List.subset_append_left ..) (List.subset_append_left ..) with
    ⟨hnot, hnew⟩ | ⟨n, hn, key, hkey, rfl, a, ha, hna, hid⟩
  · cases x with
    | route z r =>
      obtain ⟨az, haz, rfl, a, ha, hid, rfl⟩ := hnew
      rcases List.mem_append.mp haz with haz | haz <;> rcases List.mem_append.mp ha with ha | ha
      · exact absurd ⟨az, haz, rfl, a, ha, hid, rfl⟩ hnot
      · -- an old attachment does not name the new announcement
        obtain ⟨b, hb, hbid⟩ := h.attachment_announcement az haz
        have hle := h.announcements_seq b hb
        rw [List.mem_singleton.mp ha] at hid
        simp only at hid
        omega
      · have hle := h.announcements_seq a ha
        rw [List.mem_singleton.mp haz] at hid
        simp only at hid
        omega
      · rw [List.mem_singleton.mp haz, List.mem_singleton.mp ha]
        exact .inl rfl
    | member | peer => exact absurd hnew hnot
  · rcases List.mem_append.mp ha with ha | ha
    · exact absurd ha hna
    · rw [List.mem_singleton.mp ha] at hid
      exact .inr ⟨n, hn, hid.symm, key, hkey, rfl⟩

theorem lost_reclaimIfOrphaned {annID : Int} {a : Announcement} (ha : a ∈ db.announcements)
    (hna : a ∉ (db.reclaimIfOrphaned annID).2.announcements) :
    a.id = annID ∧ (db.reclaimIfOrphaned annID).1 = true := by
  unfold reclaimIfOrphaned at hna ⊢
  split_ifs at hna ⊢ with hatt
  · exact absurd ha hna
  · rw [mem_deleteAnnouncements] at hna
    simpa [ha] using hna

theorem lost_announcement_detachEach {zoneID : Int} {recs : List Announcement} {a : Announcement}
    (ha : a ∈ db.announcements) (hna : a ∉ (detachEach zoneID recs db).2.announcements) :
    (∃ b ∈ recs, b.id = a.id) ∧ ∃ det ∈ (detachEach zoneID recs db).1, det.reclaimed = true := by
  induction recs generalizing db with
  | nil => exact absurd ha hna
  | cons b recs ih =>
    by_cases hmid : a ∈ (db.detachOne b.id zoneID).announcements
    · obtain ⟨⟨c, hc, hid⟩, det, hdet, hrec⟩ := ih hmid hna
      exact ⟨⟨c, List.mem_cons_of_mem _ hc, hid⟩, det, List.mem_cons_of_mem _ hdet, hrec⟩
    · have hstay : a ∈ (db.deleteAttachments (· = ⟨b.id, zoneID⟩)).announcements := ha
      obtain ⟨hid, hrec⟩ := lost_reclaimIfOrphaned hstay hmid
      exact ⟨⟨b, List.mem_cons_self, hid.symm⟩, _, List.mem_cons_self, hrec⟩

theorem lost_announcement_reclaimEach {zoneID : Int} {dets : List Announcement} {a : Announcement}
    (ha : a ∈ db.announcements) (hna : a ∉ (reclaimEach zoneID dets db).2.announcements) :
    ∃ b ∈ dets, b.id = a.id ∧ ∃ det ∈ (reclaimEach zoneID dets db).1,
      det.reclaimed = true ∧ det.nodeID = b.nodeID := by
  induction dets generalizing db with
  | nil => exact absurd ha hna
  | cons b dets ih =>
    by_cases hmid : a ∈ (db.reclaimIfOrphaned b.id).2.announcements
    · obtain ⟨c, hc, hid, det, hdet, hrec⟩ := ih hmid hna
      exact ⟨c, List.mem_cons_of_mem _ hc, hid, det, List.mem_cons_of_mem _ hdet, hrec⟩
    · obtain ⟨hid, hrec⟩ := lost_reclaimIfOrphaned ha hmid
      exact ⟨b, List.mem_cons_self, hid.symm, _, List.mem_cons_self, hrec, rfl⟩

end
end DB
end LanWeave

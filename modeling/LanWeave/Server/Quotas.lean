import LanWeave.Library.Rely
import LanWeave.Server.NodeAllocation
import LanWeave.Server.Orphans

/-! The quotas of a user hold however requests interleave: each is checked in the statement that
makes the row, for the user who will own it. -/

namespace LanWeave
open Library Prog

/-- What the configuration limits for each user. -/
inductive Resource
  | devices
  | zones
  | subnets

/-- The limit of a user who is no administrator; 0 is unlimited. -/
def Server.limit {κ : Type} (h : Server κ) : Resource → Int
  | .devices => h.maxDevicesPerUser
  | .zones => h.maxOwnedZonesPerUser
  | .subnets => h.maxAnnouncedSubnetsPerUser

namespace DB

def usage (db : DB) (userID : Int) : Resource → Nat
  | .devices => db.countOf userID
  | .zones => (db.zones.filter (·.ownerID = userID)).length
  | .subnets => (db.announcementsOfUser userID).length

variable {db db' : DB} {u : Int}

theorem Sub.usage (h : Sub db' db) (u : Int) (r : Resource) : db'.usage u r ≤ db.usage u r := by
  cases r with
  | devices => exact (h.nodes.filter _).length_le
  | zones => exact (h.zones.filter _).length_le
  | subnets =>
    have hfewer : (db'.announcementsOfUser u).length ≤ (db.announcements.filter fun a =>
        db'.nodes.any fun n => n.id = a.nodeID ∧ n.userID = u).length :=
      (h.announcements.filter _).length_le
    refine hfewer.trans ?_
    rw [DB.usage, announcementsOfUser, ← List.countP_eq_length_filter, ← List.countP_eq_length_filter]
    refine List.countP_mono_left fun a _ hany => ?_
    obtain ⟨n, hn, hmine⟩ := List.any_eq_true.mp hany
    exact List.any_eq_true.mpr ⟨n, h.nodes.subset hn, hmine⟩

theorem insertZone_capped {ownerID : Int} {name passwordHash : String} {maxOwnedZones id : Int}
    (h : (db.insertZone ownerID name passwordHash maxOwnedZones).1 = .ok (some id)) :
    0 < maxOwnedZones → (db.usage ownerID .zones : Int) < maxOwnedZones := by
  unfold insertZone at h
  split_ifs at h with hcap
  · cases h
  · intro hpos
    change ((db.zones.filter (·.ownerID = ownerID)).length : Int) < maxOwnedZones
    omega

end DB

/-- An insert of a row for the user carries the limit and is checked against the rows of the user. -/
def StoreOp.Capped (limit : Resource → Int) (u : Int) (db : DB) : StoreOp → Prop
  | .insertNode userID _ _ _ _ maxDevices => userID = u → maxDevices = limit .devices
  | .insertZone ownerID _ _ maxOwnedZones => ownerID = u → maxOwnedZones = limit .zones
  | .createAnnouncement userID nodeID _ _ max _ =>
    ∀ n ∈ db.nodes, n.id = nodeID → n.userID = u → userID = u ∧ max = limit .subnets
  | _ => True

section
variable {db : DB} {limit : Resource → Int} {u : Int}

theorem usage_insertNode (hw : db.Wf) {userID : Int} {name pubKey platform : String} {ip : BitVec 32}
    {maxDevices : Int} (hcap : userID = u → maxDevices = limit .devices) (r : Resource)
    (hpos : 0 < limit r) :
    (db.insertNode userID name pubKey platform ip maxDevices).2.usage u r ≤ db.usage u r ∨
      ((db.insertNode userID name pubKey platform ip maxDevices).2.usage u r : Int) ≤ limit r := by
  rcases @DB.insertNode_cases db userID name pubKey platform ip maxDevices with ⟨h, -⟩ | ⟨h, -⟩
  · rw [h]
    exact .inl le_rfl
  have hbelow := DB.insertNode_capped (congrArg Prod.fst h)
  rw [h]
  dsimp only
  cases r with
  | devices =>
    by_cases hu : userID = u
    · obtain rfl := hu
      rw [hcap rfl] at hbelow
      have hone : (db.addNode userID name pubKey ip platform).usage userID .devices =
          db.countOf userID + 1 := by simp [DB.usage, DB.countOf, DB.addNode]
      have := hbelow hpos
      exact .inr (by omega)
    · refine .inl (le_of_eq ?_)
      simp [DB.usage, DB.countOf, DB.addNode, hu]
  | zones => exact .inl le_rfl
  | subnets =>
    exact .inl (le_of_eq (congrArg List.length (DB.announcementsOfUser_addNode hw u ..)))

theorem usage_insertZone {ownerID : Int} {name passwordHash : String} {maxOwnedZones : Int}
    (hcap : ownerID = u → maxOwnedZones = limit .zones) (r : Resource) (hpos : 0 < limit r) :
    (db.insertZone ownerID name passwordHash maxOwnedZones).2.usage u r ≤ db.usage u r ∨
      ((db.insertZone ownerID name passwordHash maxOwnedZones).2.usage u r : Int) ≤ limit r := by
  rcases @DB.insertZone_cases db ownerID name passwordHash maxOwnedZones with ⟨h, -⟩ | ⟨h, -⟩
  · rw [h]
    exact .inl le_rfl
  have hbelow := DB.insertZone_capped (congrArg Prod.fst h)
  rw [h]
  dsimp only
  cases r with
  | devices => exact .inl le_rfl
  | zones =>
    by_cases hu : ownerID = u
    · obtain rfl := hu
      rw [hcap rfl] at hbelow
      have hone : (db.addZone name passwordHash ownerID).usage ownerID .zones =
          db.usage ownerID .zones + 1 := by simp [DB.usage, DB.addZone]
      have := hbelow hpos
      exact .inr (by omega)
    · refine .inl (le_of_eq ?_)
      simp [DB.usage, DB.addZone, hu]
  | subnets => exact .inl le_rfl

/-- An announcement counts for the owner of its node, and the quota of that user was checked. -/
theorem usage_announce {userID nodeID : Int} {real : Block} {zoneID max : Int} {pool : Prefix}
    {synthetic : Block} (ok : DB.Announceable db userID nodeID real zoneID max pool synthetic)
    (hcap : ∀ n ∈ db.nodes, n.id = nodeID → n.userID = u → userID = u ∧ max = limit .subnets)
    (r : Resource) (hpos : 0 < limit r) :
    (db.announce nodeID real zoneID synthetic.base).usage u r ≤ db.usage u r ∨
      ((db.announce nodeID real zoneID synthetic.base).usage u r : Int) ≤ limit r := by
  cases r with
  | devices => exact .inl le_rfl
  | zones => exact .inl le_rfl
  | subnets =>
    have happend : (db.announce nodeID real zoneID synthetic.base).announcementsOfUser u =
        db.announcementsOfUser u ++
          [⟨db.seqAnnouncements + 1, nodeID, real.base, real.prefixLen, synthetic.base⟩].filter
            fun a => db.nodes.any fun n => n.id = a.nodeID ∧ n.userID = u :=
      List.filter_append ..
    by_cases hmine : ∃ n ∈ db.nodes, n.id = nodeID ∧ n.userID = u
    · obtain ⟨n, hn, hid, hu⟩ := hmine
      obtain ⟨rfl, rfl⟩ := hcap n hn hid hu
      have hquota := ok.quota hpos
      have hone := List.length_filter_le (fun a : Announcement => db.nodes.any fun n =>
        n.id = a.nodeID ∧ n.userID = userID)
        [⟨db.seqAnnouncements + 1, nodeID, real.base, real.prefixLen, synthetic.base⟩]
      refine .inr ?_
      rw [DB.usage, happend, List.length_append]
      rw [List.length_singleton] at hone
      omega
    · refine .inl (le_of_eq ?_)
      rw [DB.usage, happend, List.filter_eq_nil_iff.mpr, List.append_nil]
      · rfl
      · intro a ha hany
        obtain rfl := List.mem_singleton.mp ha
        obtain ⟨n, hn, hn'⟩ := List.any_eq_true.mp hany
        exact hmine ⟨n, hn, by simpa using hn'⟩

theorem usage_change {db' : DB} {o : StoreOp} (hc : StoreOp.Change db o db') (ho : o.Spends = false)
    (r : Resource) : db'.usage u r ≤ db.usage u r := by
  cases hc with
  | same => exact le_rfl
  | removed _ sub => exact sub.usage u r
  | user | member => cases r <;> exact le_rfl
  | node | zone | attachment | announcement => cases ho

theorem usage_exec (hw : db.Wf) {o : StoreOp} (ho : o.Capped limit u db) (r : Resource)
    (hpos : 0 < limit r) :
    (o.exec db).2.usage u r ≤ db.usage u r ∨ ((o.exec db).2.usage u r : Int) ≤ limit r := by
  cases hspends : o.Spends with
  | false => exact .inl (usage_change (o.exec_change db) hspends r)
  | true =>
    cases o with
    | insertNode => exact usage_insertNode hw ho r hpos
    | insertZone => exact usage_insertZone ho r hpos
    | createAnnouncement userID nodeID real zoneID max pool =>
      rcases @DB.createAnnouncement_cases db userID nodeID real zoneID max pool with
        ⟨h, -⟩ | ⟨a, -, -, -, -, -, h⟩ | ⟨a, -, -, -, -, -, -, h⟩ | ⟨synthetic, ok, h⟩
      · exact .inl (le_of_eq (congrArg (DB.usage · u r) h))
      · exact .inl (le_of_eq (congrArg (DB.usage · u r) (congrArg Prod.snd h)))
      · refine .inl (le_of_eq ((congrArg (DB.usage · u r) (congrArg Prod.snd h)).trans ?_))
        cases r <;> rfl
      · have hexec := congrArg Prod.snd h
        change (db.createAnnouncement userID nodeID real zoneID max pool).2.usage u r ≤ _ ∨
          ((db.createAnnouncement userID nodeID real zoneID max pool).2.usage u r : Int) ≤ _
        rw [hexec]
        exact usage_announce ok ho r hpos
    | _ => cases hspends

end

/-- The id names a node of the user, or none any more. -/
def DB.OnlyOf (db : DB) (userID nodeID : Int) : Prop :=
  nodeID ≤ db.seqNodes ∧ ∀ n ∈ db.nodes, n.id = nodeID → n.userID = userID

section
variable {κ : Type}

/-- What the answer of an operation teaches: a node found for its user is of no one else. -/
def Op.Learns : (i : Op) → i.Res → World κ → Prop
  | .store (.getOwned userID nodeID), r, w => ∀ n, r = .ok n → n.id = nodeID ∧ w.db.OnlyOf userID nodeID
  | _, _, _ => True

/-- Whatever the operation inserts for the user is within the limits. -/
def Op.Capped (limit : Resource → Int) (u : Int) : Op → World κ → Prop
  | .store o, w => o.Capped limit u w.db
  | _, _ => True

theorem DB.OnlyOf.after {db db' : DB} {userID nodeID : Int} (h : db.OnlyOf userID nodeID)
    (ha : db.After db') : db'.OnlyOf userID nodeID :=
  ⟨h.1.trans ha.seqNodes, fun n hn hid => h.2 n (ha.nodes n hn (hid ▸ h.1)) hid⟩

theorem sem_learns [DecidableEq κ] (parseKey : String → Option κ) (i : Op) (fails : Bool) (w : World κ)
    (hw : w.db.Wf) : i.Learns (sem parseKey i fails w).1 (sem parseKey i fails w).2 := by
  cases i with
  | netfw | wg => trivial
  | store o =>
    cases o with
    | getOwned userID nodeID =>
      intro n hn
      cases fails with
      | true => cases hn
      | false =>
        obtain ⟨hmem, hid, huser⟩ := DB.getOwned_ok hn
        refine ⟨hid, hid ▸ hw.nodes_seq n hmem, fun n' hn' hid' => ?_⟩
        obtain rfl := hw.nodes_asc.keyed n' hn' n hmem (hid'.trans hid.symm)
        exact huser
    | _ => trivial

/-- The program inserts for the user within the limits only, given what it has learned. -/
abbrev InQuota (limit : Resource → Int) (u : Int) {α : Type} (p : Handler α) (w : World κ) : Prop :=
  p.Knowing (fun w w' => w.db.After w'.db) Op.Learns (Op.Capped limit u) w

theorem StoreOp.capped_of_spares {o : StoreOp} (ho : o.Spends = false) (limit : Resource → Int) (u : Int)
    (db : DB) : o.Capped limit u db := by
  cases o with
  | insertNode | insertZone | createAnnouncement => cases ho
  | _ => trivial

/-- What a request may ask for is within its user's limits; an announcement alone is charged to
somebody else, who owns the node. -/
theorem Request.MayIssue.capped {h : Server κ} {sane : (i : Op) → i.Res → Prop} {r : Request} {u : Int}
    {o : Op} (ho : r.MayIssue h sane o) (hc : ∀ name body, r.call ≠ .createAnnouncement name body)
    (hr : ∀ i, r.identity = some i → i.userID = u → i.isAdmin = false) (w : World κ) :
    o.Capped h.limit u w := by
  cases o with
  | netfw | wg => trivial
  | store o =>
    cases o with
    | insertNode =>
      obtain ⟨⟨i, hi, rfl, rfl⟩, -⟩ := ho
      intro hu
      simp [Identity.cap, hr i hi hu, Server.limit]
    | insertZone =>
      obtain ⟨i, hi, rfl, rfl⟩ := ho
      intro hu
      simp [Identity.cap, hr i hi hu, Server.limit]
    | createAnnouncement =>
      obtain ⟨⟨name, body, hcall⟩, -⟩ := ho
      exact absurd hcall (hc name body)
    | _ => trivial

end

section
variable {κ : Type} {limit : Resource → Int} {u : Int} {w : World κ}

theorem inQuota_of_issues {α : Type} {h : Server κ} {r : Request} {p : Handler α}
    (hp : Issues h (fun _ _ => True) r p) (hc : ∀ name body, r.call ≠ .createAnnouncement name body)
    (hr : ∀ i, r.identity = some i → i.userID = u → i.isAdmin = false) : InQuota h.limit u p w :=
  Only.knowing (hp.only.imp fun _ ho t => ho.capped hc hr t)

theorem inQuota_read {α : Type} {o : StoreOp} {k : Except StoreErr o.Val → Handler α}
    (ho : o.Spends = false)
    (hk : ∀ r (t : World κ), w.db.After t.db → (Op.store o).Learns r t → InQuota limit u (k r) t) :
    InQuota limit u (store o >>= k) w :=
  fun t ht => ⟨o.capped_of_spares ho limit u t.db, fun r v hv hr => hk r v (ht.trans hv) hr⟩

theorem inQuota_namedZone {name : String} {absent : Response} {k : Zone → Handler Response}
    (hk : ∀ zone (t : World κ), w.db.After t.db → InQuota limit u (k zone) t) :
    InQuota limit u (namedZone name absent k) w :=
  inQuota_read rfl fun r t ht _ => by
    rcases r with _ | _ | zone
    · trivial
    · trivial
    · exact hk zone t ht

theorem inQuota_memberZone {name : String} {userID : Int} {k : Zone → Handler Response}
    (hk : ∀ zone (t : World κ), w.db.After t.db → InQuota limit u (k zone) t) :
    InQuota limit u (memberZone name userID k) w :=
  inQuota_namedZone fun zone t ht => inQuota_read rfl fun r v hv _ => by
    rcases r with _ | _ | _
    · trivial
    · trivial
    · exact hk zone v (ht.trans hv)

theorem inQuota_ownedNode {userID nodeID : Int} {message : String} {k : Node → Handler Response}
    (hk : ∀ node (t : World κ), w.db.After t.db → t.db.OnlyOf userID node.id →
      InQuota limit u (k node) t) :
    InQuota limit u (ownedNode userID nodeID message k) w :=
  inQuota_read rfl fun r t ht hr => by
    rcases r with e | node
    · cases e <;> trivial
    · obtain ⟨hid, hof⟩ := hr node rfl
      exact hk node t ht (hid ▸ hof)

/-- The node was found for the user who is charged; whoever has that id is that user. -/
theorem inQuota_announceSubnet (h : Server κ) {i : Identity} (hi : i.userID = u → i.isAdmin = false)
    {zone : Zone} {node : Node} (hnode : w.db.OnlyOf i.userID node.id) (subnet pool : Prefix) :
    InQuota h.limit u (announceSubnet h i zone node subnet pool) w := by
  intro t ht
  constructor
  · intro n hn hid hu
    obtain rfl : i.userID = u := ((hnode.after ht).2 n hn hid).symm.trans hu
    exact ⟨rfl, by simp [Identity.cap, hi rfl, Server.limit]⟩
  · intro r v _ _
    rcases r with e | ⟨ann, attached⟩
    · trivial
    cases attached with
    | false => trivial
    | true =>
      change InQuota h.limit u (growDataplane zone node ann >>= _) v
      -- what is left to do asks for no more than a withdrawal may
      have hgrow : Issues h (fun _ _ => True) ⟨none, .deleteAnnouncement zone.name ""⟩
          (growDataplane zone node ann) := by
        apply issues_growDataplane
        exact fun _ _ => trivial
      refine inQuota_of_issues (hgrow.bind fun grown => ?_) (fun _ _ => Call.noConfusion) ?_
      · cases grown <;> trivial
      · intro i hnone
        cases hnone

theorem inQuota_createAnnouncement (h : Server κ) {id : Option Identity}
    (hid : ∀ i, id = some i → i.userID = u → i.isAdmin = false) (name : String)
    (body : Option CreateAnnouncementRequest) :
    InQuota h.limit u (createAnnouncement h id name body) w := by
  unfold createAnnouncement authenticated
  split
  · trivial
  next i =>
  refine inQuota_memberZone fun zone t _ => ?_
  unfold decoded
  split
  · trivial
  split
  · trivial
  refine inQuota_ownedNode fun node v _ hnode => ?_
  split_ifs
  · trivial
  split
  · trivial
  split
  · trivial
  · exact inQuota_announceSubnet h (hid i rfl) hnode _ _

theorem inQuota_handle (h : Server κ) (r : Request)
    (hr : ∀ i, r.identity = some i → i.userID = u → i.isAdmin = false) :
    InQuota h.limit u (handle h r) w := by
  by_cases hc : ∃ name body, r.call = .createAnnouncement name body
  · obtain ⟨id, call⟩ := r
    obtain ⟨name, body, rfl⟩ := hc
    exact inQuota_createAnnouncement h hr name body
  · push Not at hc
    exact inQuota_of_issues (issues_handle r) hc hr

end

section
variable {κ τ : Type} [DecidableEq κ] [DecidableEq τ]

/-- However requests interleave and whatever fails, a user who is no administrator gets over no limit:
what was above it before can only shrink. -/
theorem quotas_hold (h : Server κ) (requests : τ → Request) {w : World κ} (hw : w.db.Wf) (u : Int)
    (hu : ∀ t i, (requests t).identity = some i → i.userID = u → i.isAdmin = false)
    (r : Resource) (hpos : 0 < h.limit r) (sched : List (τ × Bool)) :
    (((Config.mk (fun t => handle h (requests t)) w).exec (Prog.machine (sem h.parseKey))
      sched).shared.db.usage u r : Int) ≤ max (w.db.usage u r : Int) (h.limit r) := by
  have hafter : ∀ (i : Op) (fails : Bool) (t : World κ),
      t.db.Wf ∧ (t.db.usage u r : Int) ≤ max (w.db.usage u r : Int) (h.limit r) →
      t.db.After (sem h.parseKey i fails t).2.db := by
    rintro i fails t -
    rcases sem_db h.parseKey t i fails with hdb | ⟨o, -, -, hdb⟩
    · exact hdb ▸ DB.After.refl t.db
    · exact hdb ▸ o.exec_after t.db
  refine (knowing_exec (fun t t' => t.db.After t'.db) Op.Learns (Op.Capped h.limit u)
    (I := fun t : World κ => t.db.Wf ∧ (t.db.usage u r : Int) ≤ max (w.db.usage u r : Int) (h.limit r))
    DB.After.trans hafter (fun i e t ht => sem_learns h.parseKey i e t ht.1)
      (fun t => DB.After.refl t.db)
    ?_ (fun t => inQuota_handle h (requests t) (hu t)) ⟨hw, le_max_left _ _⟩ sched).2
  rintro i fails t ⟨hwf, hle⟩ hok
  rcases sem_db h.parseKey t i fails with hdb | ⟨o, rfl, -, hdb⟩
  · rw [hdb]
    exact ⟨hwf, hle⟩
  · rw [hdb]
    refine ⟨o.exec_wf hwf, ?_⟩
    rcases usage_exec hwf hok r hpos with hless | hwithin
    · exact (Int.ofNat_le.mpr hless).trans hle
    · exact hwithin.trans (le_max_right _ _)

end

def twoDevices : Server String := { labServer with maxDevicesPerUser := 2 }

/-- A user with one node registers two more at once. -/
def registering : Bool → Request
  | false => ⟨some ⟨1, "alice", false⟩, .registerNode (some ⟨"phone", "key-1", "android"⟩)⟩
  | true => ⟨some ⟨1, "alice", false⟩, .registerNode (some ⟨"laptop", "key-2", "linux"⟩)⟩

/-- Both have seen the same free address before either inserts; one of them is refused. -/
theorem quotas_hold_registering :
    (((Config.mk (fun t => handle twoDevices (registering t)) (rebuilt (labDB []))).exec
      (Prog.machine (sem twoDevices.parseKey))
      [(false, false), (true, false), (true, false), (false, false), (false, false),
      (false, false)]).shared.db.usage
        1 .devices : Int) ≤ 2 := by
  refine (quotas_hold twoDevices registering (labDB_wf (.inl rfl)) 1 ?_ .devices (by decide) _).trans
    (by decide)
  intro t i hi _
  cases t <;> cases hi <;> rfl

end LanWeave

import LanWeave.Server.StoreCases

/-! The synthetic pool: what stays true of the announcements whatever statements are committed,
in any order. -/

namespace LanWeave
open Library DB

namespace DB

def execAll : DB → List StoreOp → DB
  | db, [] => db
  | db, o :: ops => (o.exec db).2.execAll ops

/-- Every statement meets `ok` in the database it is executed on. -/
def AlongAll (ok : DB → StoreOp → Prop) : DB → List StoreOp → Prop
  | _, [] => True
  | db, o :: ops => ok db o ∧ (o.exec db).2.AlongAll ok ops

theorem execAll_induction {ok : DB → StoreOp → Prop} {I : DB → Prop}
    (hstep : ∀ db o, I db → ok db o → I (o.exec db).2) {db : DB} {ops : List StoreOp} (h₀ : I db)
    (hok : db.AlongAll ok ops) : I (db.execAll ops) := by
  induction ops generalizing db with
  | nil => exact h₀
  | cons o ops ih => exact ih (hstep db o h₀ hok.1) hok.2

theorem alongAll_of_forall {ok : StoreOp → Prop} {db : DB} {ops : List StoreOp}
    (h : ∀ o ∈ ops, ok o) : db.AlongAll (fun _ o => ok o) ops := by
  induction ops generalizing db with
  | nil => trivial
  | cons o ops ih => exact ⟨h o List.mem_cons_self, ih fun x hx => h x (List.mem_cons_of_mem _ hx)⟩

end DB

/-- Every announcement is allocated from this pool. -/
def StoreOp.UsesPool (pool : Prefix) : StoreOp → Prop
  | .createAnnouncement _ _ _ _ _ p => p = pool
  | _ => True

/-- The user's announcements are created for the user, under the cap `limit`: the call names
the owner of the announcing node, as the handler has checked. -/
def StoreOp.CapsUser (userID limit : Int) (db : DB) : StoreOp → Prop
  | .createAnnouncement u nodeID _ _ l _ =>
    (∃ n ∈ db.nodes, n.id = nodeID ∧ n.userID = userID) → u = userID ∧ l = limit
  | _ => True

/-- The announcements share the pool without meeting, and a node's subnets do not meet. -/
structure Pooled (pool : Prefix) (db : DB) : Prop where
  disjoint : db.announcements.Pairwise fun a b => Disjoint a.synthetic.addrs b.synthetic.addrs
  inside : ∀ a ∈ db.announcements, a.synthetic.addrs ⊆ (blockFromPrefix pool).addrs
  aligned : ∀ a ∈ db.announcements, a.synthetic.Aligned
  prefixLen : ∀ a ∈ db.announcements, a.synthetic.prefixLen = a.real.prefixLen
  real_disjoint : db.announcements.Pairwise fun a b =>
    a.nodeID = b.nodeID → Disjoint a.real.addrs b.real.addrs

theorem Pooled.of_sublist {pool : Prefix} {db db' : DB} (h : Pooled pool db)
    (hs : db'.announcements.Sublist db.announcements) : Pooled pool db' :=
  ⟨h.disjoint.sublist hs, fun a ha => h.inside a (hs.subset ha),
    fun a ha => h.aligned a (hs.subset ha), fun a ha => h.prefixLen a (hs.subset ha),
    h.real_disjoint.sublist hs⟩

/-- The allocator's answer meets no announced block, so it can be added. -/
theorem Pooled.announce {pool : Prefix} {db : DB} (h4 : pool.addr.is4 = true) (hv : pool.Valid)
    (h : Pooled pool db) {userID nodeID : Int} {real : Block} {zoneID limit : Int}
    {synthetic : Block} (ok : Announceable db userID nodeID real zoneID limit pool synthetic) :
    Pooled pool (db.announce nodeID real zoneID synthetic.base) := by
  obtain ⟨-, hbits, hlen⟩ := allocateBlock_fits ok.allocated
  have hspec := allocateBlock_spec (db.announcements.map (·.synthetic)) h4 hv hbits hlen
  rw [ok.allocated] at hspec
  obtain ⟨k, hk, rfl, hfree, -⟩ := hspec
  have hrows : ∀ a, a ∈ (db.announce nodeID real zoneID
    (slot pool real.prefixLen k).base).announcements ↔
      a ∈ db.announcements ∨ a = ⟨db.seqAnnouncements + 1, nodeID, real.base, real.prefixLen,
        (slot pool real.prefixLen k).base⟩ := by
    simp [DB.announce, DB.attach, DB.addAnnouncement]
  refine ⟨List.pairwise_append.mpr ⟨h.disjoint, List.pairwise_singleton .., fun a ha b hb => ?_⟩,
    fun a ha => ?_, fun a ha => ?_, fun a _ => rfl,
    List.pairwise_append.mpr ⟨h.real_disjoint, List.pairwise_singleton .., fun a ha b hb hab => ?_⟩⟩
  · rw [List.mem_singleton.mp hb, ← overlaps_eq_false_iff, overlaps_comm]
    exact hfree a.synthetic (List.mem_map_of_mem ha)
  · rcases (hrows a).mp ha with ha | rfl
    · exact h.inside a ha
    · exact slot_subset h4 hv hbits hlen hk
  · rcases (hrows a).mp ha with ha | rfl
    · exact h.aligned a ha
    · exact slot_aligned h4 hv hbits hlen hk
  · rw [List.mem_singleton.mp hb] at hab ⊢
    rw [← overlaps_eq_false_iff, overlaps_comm]
    exact ok.apart a ha hab

theorem Pooled.change {pool : Prefix} {db db' : DB} (h4 : pool.addr.is4 = true) (hv : pool.Valid)
    (h : Pooled pool db) {o : StoreOp} (ho : o.UsesPool pool) (hc : StoreOp.Change db o db') :
    Pooled pool db' := by
  cases hc with
  | same => exact h
  | removed _ sub => exact h.of_sublist sub.announcements
  | announcement ok =>
    obtain rfl : _ = pool := ho
    exact h.announce h4 hv ok
  | user | node | zone | member | attachment => exact h.of_sublist (List.Sublist.refl _)

theorem announcementsOfUser_sublist {db db' : DB} (hs : Sub db' db) (userID : Int) :
    (db'.announcementsOfUser userID).Sublist (db.announcementsOfUser userID) := by
  have hnodes : ∀ a : Announcement, db'.nodes.any (fun n => n.id = a.nodeID ∧ n.userID = userID) = true →
      db.nodes.any (fun n => n.id = a.nodeID ∧ n.userID = userID) = true := by
    intro a ha
    obtain ⟨n, hn, hp⟩ := List.any_eq_true.mp ha
    exact List.any_eq_true.mpr ⟨n, hs.nodes.subset hn, hp⟩
  exact (List.monotone_filter_right _ hnodes).trans (hs.announcements.filter _)

theorem announcementsOfUser_announce (db : DB) (nodeID : Int) (real : Block) (zoneID : Int)
    (syntheticBase : BitVec 32) (userID : Int) :
    ((db.announce nodeID real zoneID syntheticBase).announcementsOfUser userID).length =
      (db.announcementsOfUser userID).length +
        if db.nodes.any (fun n => n.id = nodeID ∧ n.userID = userID) then 1 else 0 := by
  simp only [announcementsOfUser, announce, attach, addAnnouncement, List.filter_append,
    List.length_append, List.filter_singleton]
  cases db.nodes.any fun n => n.id = nodeID ∧ n.userID = userID <;> rfl

theorem quota_change {db db' : DB} (h : db.Wf) {userID limit : Int} (hpos : 0 < limit)
    (hq : ((db.announcementsOfUser userID).length : Int) ≤ limit) {o : StoreOp}
    (ho : o.CapsUser userID limit db) (hc : StoreOp.Change db o db') :
    ((db'.announcementsOfUser userID).length : Int) ≤ limit := by
  cases hc with
  | same => exact hq
  | removed _ sub =>
    have := (announcementsOfUser_sublist sub userID).length_le
    omega
  | node => rwa [announcementsOfUser_addNode h]
  | announcement ok =>
    rw [announcementsOfUser_announce]
    split_ifs with hany
    · obtain ⟨rfl, rfl⟩ := ho (by simpa using hany)
      have := ok.quota hpos
      omega
    · simpa using hq
  | user | zone | member | attachment => exact hq

/-- Whatever statements are committed in whatever order, the synthetic blocks partition a part
of the pool, a node's subnets are disjoint, and a capped user keeps to the cap. -/
theorem synthetic_pool_invariant {pool : Prefix} (h4 : pool.addr.is4 = true) (hv : pool.Valid)
    {ops : List StoreOp} (hpool : ∀ o ∈ ops, o.UsesPool pool) :
    Pooled pool (DB.empty.execAll ops) ∧
      ∀ userID limit : Int, 0 < limit →
        DB.empty.AlongAll (fun db o => o.CapsUser userID limit db) ops →
        (((DB.empty.execAll ops).announcementsOfUser userID).length : Int) ≤ limit := by
  constructor
  · refine execAll_induction (fun db o hI ho => hI.change h4 hv ho (o.exec_change db)) ?_
      (alongAll_of_forall hpool)
    constructor <;> simp [DB.empty]
  · intro userID limit hpos hcap
    have hI := execAll_induction (I := fun db => db.Wf ∧
      ((db.announcementsOfUser userID).length : Int) ≤ limit)
      (fun db o hI ho => ⟨o.exec_wf hI.1, quota_change hI.1 hpos hI.2 ho (o.exec_change db)⟩)
      ⟨empty_wf, by simp [DB.empty, announcementsOfUser]; omega⟩ hcap
    exact hI.2

/-- Two users announce the same subnet under a cap of one announcement each. -/
def twoAnnouncers (pool : Prefix) : List StoreOp :=
  [.createAdmin "alice" "", .register "bob" "" true, .insertNode 1 "a" "ka" "linux" 1 0,
    .insertNode 2 "b" "kb" "linux" 2 0, .insertZone 1 "lab" "" 0, .join 1 1, .join 1 2,
    .createAnnouncement 1 1 ⟨0xC0A80100, 24⟩ 1 1 pool,
    .createAnnouncement 2 2 ⟨0xC0A80100, 24⟩ 1 1 pool]

theorem synthetic_pool_invariant_twoAnnouncers :
    let pool : Prefix := ⟨.v4 0x647F0000, 16⟩
    let db := DB.empty.execAll (twoAnnouncers pool)
    db.announcements.length = 2 ∧ Pooled pool db ∧ (db.announcementsOfUser 1).length ≤ 1 := by
  have hused : ∀ o ∈ twoAnnouncers ⟨.v4 0x647F0000, 16⟩, o.UsesPool ⟨.v4 0x647F0000, 16⟩ := by
    simp [twoAnnouncers, StoreOp.UsesPool]
  have hvalid : (⟨.v4 0x647F0000, 16⟩ : Prefix).Valid := by
    change 16 ≤ 32
    decide
  have hrun := synthetic_pool_invariant rfl hvalid hused
  refine ⟨by decide, hrun.1, ?_⟩
  have hcap := hrun.2 1 1 (by decide) ⟨trivial, trivial, trivial, trivial, trivial, trivial, trivial,
    fun _ => ⟨rfl, rfl⟩, fun h => absurd h (by decide), trivial⟩
  exact_mod_cast hcap

end LanWeave

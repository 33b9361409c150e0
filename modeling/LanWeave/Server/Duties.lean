import LanWeave.Server.Rebuild
import LanWeave.Server.Walk

/-! What the database asks of the dataplane and what of it is missing: which operations can
make something missing, and which bring it back. -/

namespace LanWeave
open Library Ledger

/-- One thing the dataplane has to have: an address, a range, a peer with its AllowedIPs. The rows
themselves are named, so that a duty outlives neither its rows nor their contents. -/
inductive Duty
  | member (zoneID : Int) (n : Node)
  | route (zoneID : Int) (a : Announcement)
  | peer (n : Node) (allowed : Finset Prefix)
  | key (n : Node)

section
variable {κ : Type} (parseKey : String → Option κ)

/-- The rows ask for it and it is not there. -/
def World.Missing (w : World κ) : Duty → Prop
  | .member z n => n ∈ w.db.nodes ∧ ⟨z, n.id⟩ ∈ w.db.zoneMembers ∧ ¬ w.nft.HasMember z n.ip
  | .route z a => a ∈ w.db.announcements ∧ ⟨a.id, z⟩ ∈ w.db.announcementZones ∧
      ¬ w.nft.HasRoute z (rangeElements a.synthetic.toPrefix)
  | .peer n allowed => n ∈ w.db.nodes ∧ w.db.allowed n = allowed ∧
      ∃ key, parseKey n.pubKey = some key ∧ w.wg key ≠ some allowed
  | .key n => n ∈ w.db.nodes ∧ parseKey n.pubKey = none

/-- Every membership, attachment and node has what it needs in the dataplane. -/
structure World.Served (w : World κ) : Prop where
  members : ∀ m ∈ w.db.zoneMembers, ∀ n ∈ w.db.nodes, n.id = m.nodeID → w.nft.HasMember m.zoneID n.ip
  routes : ∀ az ∈ w.db.announcementZones, ∀ a ∈ w.db.announcements, a.id = az.announcementID →
    w.nft.HasRoute az.zoneID (rangeElements a.synthetic.toPrefix)
  peers : ∀ n ∈ w.db.nodes, ∃ key, parseKey n.pubKey = some key ∧ w.wg key = some (w.db.allowed n)

variable {parseKey} {w : World κ}

theorem served_iff : w.Served parseKey ↔ ∀ x, ¬ w.Missing parseKey x := by
  constructor
  · rintro ⟨hmembers, hroutes, hpeers⟩ x hx
    cases x with
    | member z n =>
      obtain ⟨hn, hm, hno⟩ := hx
      exact hno (hmembers _ hm n hn rfl)
    | route z a =>
      obtain ⟨ha, haz, hno⟩ := hx
      exact hno (hroutes _ haz a ha rfl)
    | peer n allowed =>
      obtain ⟨hn, hall, key, hkey, hno⟩ := hx
      obtain ⟨key', hkey', hpeer⟩ := hpeers n hn
      obtain rfl : key = key' := Option.some.inj (hkey.symm.trans hkey')
      exact hno (hall ▸ hpeer)
    | key n =>
      obtain ⟨hn, hno⟩ := hx
      obtain ⟨key, hkey, -⟩ := hpeers n hn
      rw [hno] at hkey
      cases hkey
  · intro h
    refine ⟨?_, ?_, ?_⟩
    · intro m hm n hn hid
      by_contra hno
      exact h (.member m.zoneID n) ⟨hn, hid ▸ hm, hno⟩
    · intro az haz a ha hid
      by_contra hno
      exact h (.route az.zoneID a) ⟨ha, hid ▸ haz, hno⟩
    · intro n hn
      cases hkey : parseKey n.pubKey with
      | none => exact absurd ⟨hn, hkey⟩ (h (.key n))
      | some key =>
        refine ⟨key, rfl, ?_⟩
        by_contra hno
        exact h (.peer n (w.db.allowed n)) ⟨hn, rfl, key, hkey, hno⟩

end

namespace DB
variable {db db' : DB}

/-- The announcements of the node are the same in both. -/
def SameRoutes (db' db : DB) (nodeID : Int) : Prop :=
  db'.announcements.filter (·.nodeID = nodeID) = db.announcements.filter (·.nodeID = nodeID)

theorem SameRoutes.allowed {n : Node} (h : SameRoutes db' db n.id) : db'.allowed n = db.allowed n := by
  unfold DB.allowed DB.routes
  rw [h]

theorem sameRoutes_deleteNodes (h : db.Wf) {p : Node → Bool} {n : Node}
    (hn : n ∈ (db.deleteNodes p).nodes) : SameRoutes (db.deleteNodes p) db n.id := by
  obtain ⟨hold, hkept⟩ := mem_deleteNodes.mp hn
  show (db.announcements.filter _).filter _ = _
  rw [List.filter_filter]
  refine List.filter_congr fun a ha => ?_
  by_cases hid : a.nodeID = n.id
  · have hspared : ∀ m ∈ db.nodes, p m = true → m.id ≠ n.id := by
      intro m hm hp hmid
      have hsame : m = n := h.nodes_asc.keyed m hm n hold hmid
      rw [hsame, hkept] at hp
      cases hp
    simpa [hid] using hspared
  · simp [hid]

theorem sameRoutes_leave (zoneID memberID nodeID : Int) :
    SameRoutes (db.leave zoneID memberID).2 db nodeID := by
  rcases leave_cases db zoneID memberID with ⟨h, -⟩ | ⟨h, -⟩ <;> rw [h] <;> rfl

/-- Only the announcement named can go, and only when nothing is attached to it any more. -/
theorem sameRoutes_reclaimIfOrphaned {annID nodeID : Int}
    (h : (db.reclaimIfOrphaned annID).1 = false ∨
      ∀ a ∈ db.announcements, a.id = annID → a.nodeID ≠ nodeID) :
    SameRoutes (db.reclaimIfOrphaned annID).2 db nodeID := by
  unfold reclaimIfOrphaned at h ⊢
  split_ifs at h ⊢ with hatt
  · rfl
  · have hother := h.resolve_left (by simp)
    show (db.announcements.filter _).filter _ = _
    rw [List.filter_filter]
    refine List.filter_congr fun a ha => ?_
    by_cases hid : a.id = annID
    · have hne : a.nodeID ≠ nodeID := hother a ha hid
      simp [hne]
    · simp [hid]

theorem sameRoutes_detachOne {annID zoneID nodeID : Int}
    (h : ((db.deleteAttachments (· = ⟨annID, zoneID⟩)).reclaimIfOrphaned annID).1 = false ∨
      ∀ a ∈ db.announcements, a.id = annID → a.nodeID ≠ nodeID) :
    SameRoutes (db.detachOne annID zoneID) db nodeID :=
  @sameRoutes_reclaimIfOrphaned (db.deleteAttachments _) annID nodeID h

theorem sameRoutes_detachEach {zoneID nodeID : Int} {recs : List Announcement} (hw : db.Wf)
    (hrecs : ∀ a ∈ recs, db.KnowsAnnouncement a)
    (h : (∀ det ∈ (detachEach zoneID recs db).1, det.reclaimed = false) ∨
      ∀ a ∈ recs, a.nodeID ≠ nodeID) :
    SameRoutes (detachEach zoneID recs db).2 db nodeID := by
  induction recs generalizing db with
  | nil => rfl
  | cons a recs ih =>
    have hrest : SameRoutes (detachEach zoneID recs (db.detachOne a.id zoneID)).2
        (db.detachOne a.id zoneID) nodeID := by
      refine ih (hw.detachOne a.id zoneID) (fun b hb => ?_)
        (h.imp (fun hall det hdet => ?_) fun hall b hb => ?_)
      · exact (hrecs b (List.mem_cons_of_mem _ hb)).after (sub_detachOne db a.id zoneID).after
      · exact hall det (List.mem_cons_of_mem _ hdet)
      · exact hall b (List.mem_cons_of_mem _ hb)
    refine hrest.trans (sameRoutes_detachOne ?_)
    refine h.imp (fun hall => hall _ List.mem_cons_self) fun hall b hb hid => ?_
    have hsame : b = a := (hrecs a List.mem_cons_self).2 b hb hid
    rw [hsame]
    exact hall a List.mem_cons_self

theorem allowed_addNode (h : db.Wf) {userID : Int} {name pubKey platform : String} {ip : BitVec 32} :
    (db.addNode userID name pubKey ip platform).allowed
      ⟨db.seqNodes + 1, userID, name, pubKey, ip, platform⟩ = allowedIPs (uint32ToAddr ip) [] := by
  have hnone : db.announcements.filter (·.nodeID = db.seqNodes + 1) = [] := by
    rw [List.filter_eq_nil_iff]
    intro a ha hid
    obtain ⟨n, hn, hnid⟩ := h.announcement_node a ha
    have hle := h.nodes_seq n hn
    have hid' : a.nodeID = db.seqNodes + 1 := by simpa using hid
    omega
  show allowedIPs _ ((db.announcements.filter (·.nodeID = db.seqNodes + 1)).map _) = _
  rw [hnone]
  rfl

end DB

section
variable {κ : Type} [DecidableEq κ] {parseKey : String → Option κ} {w : World κ} {db' : DB} {x : Duty}

omit [DecidableEq κ] in
/-- Rows taken away ask for nothing; what is left of a node's announcements may ask for less. -/
theorem missing_of_sub (hs : DB.Sub db' w.db) (h : World.Missing parseKey { w with db := db' } x) :
    w.Missing parseKey x ∨ ∃ n allowed, x = .peer n allowed ∧ n ∈ db'.nodes ∧
      ¬ DB.SameRoutes db' w.db n.id := by
  cases x with
  | member z n => exact .inl ⟨hs.nodes.subset h.1, hs.zoneMembers.subset h.2.1, h.2.2⟩
  | route z a => exact .inl ⟨hs.announcements.subset h.1, hs.announcementZones.subset h.2.1, h.2.2⟩
  | key n => exact .inl ⟨hs.nodes.subset h.1, h.2⟩
  | peer n allowed =>
    by_cases hsame : DB.SameRoutes db' w.db n.id
    · exact .inl ⟨hs.nodes.subset h.1, hsame.allowed ▸ h.2.1, h.2.2⟩
    · exact .inr ⟨n, allowed, rfl, h.1, hsame⟩

/-- What takes elements away. -/
def NetfwOp.Removes : NetfwOp → Prop
  | removeMember .. | removeZoneRoute .. | deleteZone _ => True
  | _ => False

theorem missing_netfw {o : NetfwOp} (ho : ¬ o.Removes) {e : Bool}
    (h : (sem parseKey (.netfw o) e w).2.Missing parseKey x) : w.Missing parseKey x := by
  have hsem : ∃ nft', (sem parseKey (.netfw o) e w).2 = { w with nft := nft' } ∧
      (∀ z ip, w.nft.HasMember z ip → nft'.HasMember z ip) ∧
      ∀ z r, w.nft.HasRoute z r → nft'.HasRoute z r := by
    cases e with
    | true => exact ⟨w.nft, rfl, fun _ _ hm => hm, fun _ _ hr => hr⟩
    | false =>
      rw [sem_netfw_snd]
      refine ⟨_, rfl, ?_, ?_⟩
      · intro z ip hm
        cases o with
        | addZone zoneID => exact (NetfwOp.addZone_spec w.nft zoneID z ip default).1.mpr hm
        | addMember zoneID b => exact (NetfwOp.addMember_spec w.nft zoneID b z ip).1.mpr (.inl hm)
        | addZoneRoute zoneID p =>
          obtain ⟨s, hs, hin⟩ := hm
          rw [← (NetfwOp.addZoneRoute_spec w.nft zoneID p z default).2.2.1] at hs
          exact ⟨s, hs, hin⟩
        | removeMember | removeZoneRoute | deleteZone => exact absurd trivial ho
      · intro z r hr
        cases o with
        | addZone zoneID => exact (NetfwOp.addZone_spec w.nft zoneID z 0 r).2.1.mpr hr
        | addZoneRoute zoneID p => exact (NetfwOp.addZoneRoute_spec w.nft zoneID p z r).1.mpr (.inl hr)
        | addMember zoneID b =>
          obtain ⟨s, hs, hin⟩ := hr
          rw [← (NetfwOp.addMember_spec w.nft zoneID b z 0).2.2.1] at hs
          exact ⟨s, hs, hin⟩
        | removeMember | removeZoneRoute | deleteZone => exact absurd trivial ho
  obtain ⟨nft', heq, hmembers, hroutes⟩ := hsem
  rw [heq] at h
  cases x with
  | member z n => exact ⟨h.1, h.2.1, fun hm => h.2.2 (hmembers _ _ hm)⟩
  | route z a => exact ⟨h.1, h.2.1, fun hr => h.2.2 (hroutes _ _ hr)⟩
  | peer | key => exact h

theorem not_missing_setPeerRoutes {n : Node} {routes : List Prefix} {allowed : Finset Prefix}
    (hroutes : allowedIPs (uint32ToAddr n.ip) routes = allowed) :
    ¬ (sem parseKey (.wg (.setPeerRoutes n.pubKey (uint32ToAddr n.ip) routes)) false w).2.Missing
      parseKey (.peer n allowed) := by
  rintro ⟨-, -, key, hkey, hno⟩
  rw [sem_wg_snd, WgOp.effect_setPeerRoutes _ hkey] at hno
  refine hno ?_
  show Device.configurePeer _ key _ key = _
  rw [Device.configurePeer, if_pos rfl, hroutes]

end
end LanWeave

import LanWeave.Server.ResyncUsers
import LanWeave.Server.Walk

/-! No stale authorization: what the handlers' own order of steps guarantees under any interleaving,
as long as the rows stand on which each kernel operation relies. -/

namespace LanWeave
open Library Ledger

/-- An operation that adds to what a set holds. -/
def NetfwOp.Adds : NetfwOp → Bool
  | addMember .. | addZoneRoute .. => true
  | _ => false

section
variable {κ : Type} (parseKey : String → Option κ)

/-- Nobody has taken away the rows that back `x` since a step of the request's own made or found them. -/
def OpHeard.Kept (heard : OpHeard κ) (w : World κ) (x : Grant κ) : Prop :=
  ∀ y ∈ heard, y.2.db.Backs parseKey x → w.db.Backs parseKey x

/-- Nobody has given the node another membership or attachment since the request listed them. -/
structure OpHeard.Listed (heard : OpHeard κ) (w : World κ) (nodeID : Int) : Prop where
  memberships : ∀ zoneIDs s, (⟨.store (.zonesForNode nodeID), .ok zoneIDs⟩, s) ∈ heard →
    ∀ z, ⟨z, nodeID⟩ ∈ w.db.zoneMembers → ⟨z, nodeID⟩ ∈ s.db.zoneMembers
  attachments : ∀ dets s, (⟨.store (.attachmentsForNode nodeID), .ok dets⟩, s) ∈ heard →
    ∀ a ∈ w.db.announcements, a.nodeID = nodeID → ∀ z, ⟨a.id, z⟩ ∈ w.db.announcementZones →
      a ∈ s.db.announcements ∧ ⟨a.id, z⟩ ∈ s.db.announcementZones

/-- What an operation relies on: what adds to the dataplane, on the rows under it (and a peer on a key
that decodes, without which the operation would fail); what deletes a node, on its own lists; what
takes a row back after a set was found missing, on nobody having made the set since. -/
def RowsStand (heard : OpHeard κ) : Op → Bool → World κ → Prop
  | .netfw (.addMember z ip), _, w => heard.Kept parseKey w (.member z (addrToUint32 ip))
  | .netfw (.addZoneRoute z p), _, w => heard.Kept parseKey w (.route z (rangeElements p))
  | .wg (.setPeerRoutes publicKey _ _), _, w =>
    ∃ key, parseKey publicKey = some key ∧ heard.Kept parseKey w (.peer key)
  | .store (.deleteOwnedNode _ nodeID), _, w => heard.Listed w nodeID
  | .store (.leave z _), _, w => ∀ ip e s, (⟨.netfw (.addMember z ip), .error e⟩, s) ∈ heard →
      s.nft.members z = none → w.nft.members z = none
  | .store (.detach z _), _, w => ∀ p e s, (⟨.netfw (.addZoneRoute z p), .error e⟩, s) ∈ heard →
      s.nft.routes z = none → w.nft.routes z = none
  | _, _, _ => True

end

section
variable {κ : Type} [DecidableEq κ] (parseKey : String → Option κ)

/-- The ledger of stale grants: every operation takes effect or names something missing. -/
abbrev grantLedger : Ledger Op Op.Res Bool (World κ) (Grant κ) :=
  dbLedger parseKey (fun _ e _ => e = false) (fun _ => True) (World.Stale parseKey)

variable {parseKey} {w : World κ} {x : Grant κ} {heard : OpHeard κ}

/-! ### the operations of the kernel -/

theorem grants_netfw {o : NetfwOp} (ho : o.Adds = false) {e : Bool}
    (h : (sem parseKey (.netfw o) e w).2.Grants x) : w.Grants x := by
  cases e with
  | true => exact h
  | false =>
    rw [sem_netfw_snd] at h
    cases o with
    | addMember | addZoneRoute => cases ho
    | addZone zoneID =>
      cases x with
      | member z ip => exact (NetfwOp.addZone_spec w.nft zoneID z ip default).1.mp h
      | route z r => exact (NetfwOp.addZone_spec w.nft zoneID z 0 r).2.1.mp h
      | peer key => exact h
    | deleteZone zoneID =>
      cases x with
      | member z ip => exact ((NetfwOp.deleteZone_spec w.nft zoneID z ip default).1.mp h).1
      | route z r => exact ((NetfwOp.deleteZone_spec w.nft zoneID z 0 r).2.1.mp h).1
      | peer key => exact h
    | removeMember zoneID ip =>
      have hspec := fun z b => NetfwOp.removeMember_spec w.nft zoneID ip z b
      cases x with
      | member z b => exact ((hspec z b).1.mp h).1
      | route z r =>
        change ∃ s, _ ∧ _ at h
        rwa [(hspec z 0).2.2.1] at h
      | peer key => exact h
    | removeZoneRoute zoneID p =>
      have hspec := fun z r => NetfwOp.removeZoneRoute_spec w.nft zoneID p z r
      cases x with
      | route z r => exact ((hspec z r).1.mp h).1
      | member z b =>
        change ∃ s, _ ∧ _ at h
        rwa [(hspec z default).2.2.1] at h
      | peer key => exact h

theorem stale_netfw {o : NetfwOp} (ho : o.Adds = false) {e : Bool}
    (h : (sem parseKey (.netfw o) e w).2.Stale parseKey x) : w.Stale parseKey x :=
  ⟨grants_netfw ho h.1, sem_netfw_db parseKey w o e ▸ h.2⟩

theorem stale_removePeer {publicKey : String} {e : Bool}
    (h : (sem parseKey (.wg (.removePeer publicKey)) e w).2.Stale parseKey x) :
    w.Stale parseKey x := by
  refine ⟨?_, sem_wg_db parseKey w (.removePeer publicKey) e ▸ h.2⟩
  cases e with
  | true => exact h.1
  | false =>
    have hg := h.1
    rw [sem_wg_snd] at hg
    cases x with
    | member | route => exact hg
    | peer key =>
      rcases WgOp.isSome_effect w.wg (.removePeer publicKey) key hg with h | ⟨_, _, _, h, -⟩
      · exact h
      · cases h

omit [DecidableEq κ] in
theorem stale_store {o : StoreOp} (ho : o.Removes = false)
    (h : World.Stale parseKey { w with db := (o.exec w.db).2 } x) : w.Stale parseKey x :=
  ⟨h.1, fun hb => h.2 (DB.backs_of_change (o.exec_change w.db) ho hb)⟩

/-! ### what repairs a grant -/

theorem owes_removeMember {z : Int} {ip : Addr} {α : Type}
    {k : Except KernelErr Unit → Handler α} :
    (grantLedger parseKey).Owes (.member z (addrToUint32 ip)) (netfw (.removeMember z ip) >>= k) := by
  refine .inl fun e s _ he hbad => ?_
  obtain rfl : e = false := he.1
  have hg : (sem parseKey (.netfw (.removeMember z ip)) false s).2.Grants
    (.member z (addrToUint32 ip)) :=
    hbad.1
  rw [sem_netfw_snd] at hg
  exact ((NetfwOp.removeMember_spec s.nft z ip z (addrToUint32 ip)).1.mp hg).2 ⟨rfl, rfl⟩

theorem owes_removeZoneRoute {z : Int} {p : Prefix} {α : Type}
    {k : Except KernelErr Unit → Handler α} :
    (grantLedger parseKey).Owes (.route z (rangeElements p)) (netfw (.removeZoneRoute z p) >>= k) := by
  refine .inl fun e s _ he hbad => ?_
  obtain rfl : e = false := he.1
  have hg : (sem parseKey (.netfw (.removeZoneRoute z p)) false s).2.Grants
    (.route z (rangeElements p)) := hbad.1
  rw [sem_netfw_snd] at hg
  exact ((NetfwOp.removeZoneRoute_spec s.nft z p z (rangeElements p)).1.mp hg).2 ⟨rfl, rfl⟩

theorem owes_deleteZone {z : Int} {α : Type} {k : Except KernelErr Unit → Handler α}
    (hx : (∃ ip, x = .member z ip) ∨ ∃ r, x = .route z r) :
    (grantLedger parseKey).Owes x (netfw (.deleteZone z) >>= k) := by
  refine .inl fun e s _ he hbad => ?_
  obtain rfl : e = false := he.1
  have hg : (sem parseKey (.netfw (.deleteZone z)) false s).2.Grants x := hbad.1
  rw [sem_netfw_snd] at hg
  rcases hx with ⟨ip, rfl⟩ | ⟨r, rfl⟩
  · exact ((NetfwOp.deleteZone_spec s.nft z z ip default).1.mp hg).2 rfl
  · exact ((NetfwOp.deleteZone_spec s.nft z z 0 r).2.1.mp hg).2 rfl

theorem owes_removePeer {publicKey : String} {key : κ} (hkey : parseKey publicKey = some key)
    {α : Type} {k : Except KernelErr Unit → Handler α} :
    (grantLedger parseKey).Owes (.peer key) (wg (.removePeer publicKey) >>= k) := by
  refine .inl fun e s _ he hbad => ?_
  obtain rfl : e = false := he.1
  have hg : (sem parseKey (.wg (.removePeer publicKey)) false s).2.Grants (.peer key) := hbad.1
  rw [sem_wg_snd, WgOp.effect_removePeer _ hkey] at hg
  simp [World.Grants] at hg

/-! ### what adds to the dataplane -/

omit [DecidableEq κ] in
theorem stale_add {nft : Nft} {wg : Device κ} (hb : ∀ y, (World.mk w.db nft wg).Grants y →
    w.Grants y ∨ w.db.Backs parseKey y) (h : (World.mk w.db nft wg).Stale parseKey x) :
    w.Stale parseKey x :=
  ⟨(hb x h.1).resolve_right h.2, h.2⟩

theorem stale_addMember {z : Int} {ip : Addr} (hm : w.db.Backs parseKey (.member z (addrToUint32 ip)))
    (h : (sem parseKey (.netfw (.addMember z ip)) false w).2.Stale parseKey x) : w.Stale parseKey x := by
  have hspec := fun z' b => NetfwOp.addMember_spec w.nft z ip z' b
  rw [sem_netfw_snd] at h
  refine stale_add (fun y hy => ?_) h
  cases y with
  | member z' b =>
    rcases (hspec z' b).1.mp hy with hg | ⟨rfl, rfl, -⟩
    · exact .inl hg
    · exact .inr hm
  | route z' r =>
    have hg : ∃ s, _ ∧ _ := hy
    rw [(hspec z' 0).2.2.1] at hg
    exact .inl hg
  | peer key => exact .inl hy

theorem stale_addZoneRoute {z : Int} {p : Prefix} (hr : w.db.Backs parseKey (.route z (rangeElements p)))
    (h : (sem parseKey (.netfw (.addZoneRoute z p)) false w).2.Stale parseKey x) :
    w.Stale parseKey x := by
  have hspec := fun z' r => NetfwOp.addZoneRoute_spec w.nft z p z' r
  rw [sem_netfw_snd] at h
  refine stale_add (fun y hy => ?_) h
  cases y with
  | route z' r =>
    rcases (hspec z' r).1.mp hy with hg | ⟨rfl, rfl, -⟩
    · exact .inl hg
    · exact .inr hr
  | member z' b =>
    have hg : ∃ s, _ ∧ _ := hy
    rw [(hspec z' default).2.2.1] at hg
    exact .inl hg
  | peer key => exact .inl hy

theorem stale_setPeerRoutes {publicKey : String} {ip : Addr} {routes : List Prefix} {key : κ}
    (hkey : parseKey publicKey = some key) (hp : w.db.Backs parseKey (.peer key))
    (h : (sem parseKey (.wg (.setPeerRoutes publicKey ip routes)) false w).2.Stale parseKey x) :
    w.Stale parseKey x := by
  rw [sem_wg_snd] at h
  refine stale_add (fun y hy => ?_) h
  cases y with
  | member | route => exact .inl hy
  | peer key' =>
    rcases WgOp.isSome_effect w.wg _ key' hy with hg | ⟨_, _, _, hop, hkey'⟩
    · exact .inl hg
    · cases hop
      rw [hkey] at hkey'
      exact .inr (Option.some.inj hkey' ▸ hp)

/-! ### the handlers -/

/-- A node with this key was there at one of the request's own steps. -/
def OpHeard.Met (heard : OpHeard κ) (publicKey : String) : Prop :=
  ∃ y ∈ heard, ∃ n ∈ y.2.db.nodes, n.pubKey = publicKey

/-- One of the request's own steps has left `x` backed. -/
def OpHeard.Backed (parseKey : String → Option κ) (heard : OpHeard κ) (x : Grant κ) : Prop :=
  ∃ y ∈ heard, y.2.db.Backs parseKey x

omit [DecidableEq κ] in
theorem OpHeard.Met.mono {more : OpHeard κ} {publicKey : String} (h : heard.Met publicKey)
    (hmore : heard <:+ more) : OpHeard.Met more publicKey := by
  obtain ⟨y, hy, hn⟩ := h
  exact ⟨y, hmore.subset hy, hn⟩

omit [DecidableEq κ] in
theorem OpHeard.Backed.mono {more : OpHeard κ} (h : heard.Backed parseKey x) (hmore : heard <:+ more) :
    OpHeard.Backed parseKey more x := by
  obtain ⟨y, hy, hb⟩ := h
  exact ⟨y, hmore.subset hy, hb⟩

section
variable {α : Type}

theorem pays_netfw_quiet {o : NetfwOp} (ho : o.Adds = false) {k : Except KernelErr Unit → Handler α}
    (hk : ∀ r t, w.db.After t.db → t.db.Wf →
      (grantLedger parseKey).Pays (RowsStand parseKey) ((⟨.netfw o, r⟩, t) :: heard) t (k r)) :
    (grantLedger parseKey).Pays (RowsStand parseKey) heard w (netfw o >>= k) :=
  pays_netfw (fun _ _ _ _ _ _ _ => stale_netfw ho) fun r t ht hw => hk r t ht hw.1

theorem pays_netfw_loop {β : Type} {f : β → NetfwOp} (hf : ∀ b, (f b).Adds = false) (bs : List β) :
    (grantLedger parseKey).Pays (RowsStand parseKey) heard w
      (Prog.forEach (fun b => do let _ ← netfw (f b)) bs) :=
  pays_forEach fun b _ _ _ _ _ => pays_netfw_quiet (hf b) fun _ _ _ _ => trivial

theorem pays_removePeer {publicKey : String} {k : Except KernelErr Unit → Handler α}
    (hk : ∀ r t, w.db.After t.db → t.db.Wf →
      (grantLedger parseKey).Pays (RowsStand parseKey)
        ((⟨.wg (.removePeer publicKey), r⟩, t) :: heard) t (k r)) :
    (grantLedger parseKey).Pays (RowsStand parseKey) heard w (wg (.removePeer publicKey) >>= k) :=
  pays_wg (fun _ _ _ _ _ _ _ => stale_removePeer) fun r t ht hw => hk r t ht hw.1

theorem pays_setPeerRoutes {publicKey : String} {ip : Addr} {routes : List Prefix}
    (hmet : heard.Met publicKey) {k : Except KernelErr Unit → Handler α}
    (hk : ∀ t, w.db.After t.db → t.db.Wf →
      (grantLedger parseKey).Pays (RowsStand parseKey)
        ((⟨.wg (.setPeerRoutes publicKey ip routes), .ok ()⟩, t) :: heard) t (k (.ok ()))) :
    (grantLedger parseKey).Pays (RowsStand parseKey) heard w
      (wg (.setPeerRoutes publicKey ip routes) >>= k) := by
  intro e t ht hw he hstill
  obtain rfl : e = false := he.1
  obtain ⟨key, hkey, hkept⟩ := hstill
  refine ⟨fun x hx => .inl (stale_setPeerRoutes hkey ?_ hx), ?_⟩
  · obtain ⟨y, hy, n, hn, rfl⟩ := hmet
    exact hkept y hy ⟨n, hn, hkey⟩
  · have hres : ((grantLedger parseKey).sem (.wg (.setPeerRoutes publicKey ip routes)) false t).1 =
      .ok () := by
      show (sem parseKey (.wg (.setPeerRoutes publicKey ip routes)) false t).1 = _
      simp only [sem, WgOp.exec, Device.setPeerRoutes, hkey]
      rfl
    rw [hres]
    have hafter := (grantLedger parseKey).after_step
      (.wg (.setPeerRoutes publicKey ip routes)) false t hw he
    exact hk _ (ht.trans hafter) ((grantLedger parseKey).inv_step _ false t hw he).1

theorem pays_recomputePeer (nodeID : Int) {pubKey : String} (ip : Addr) (hmet : heard.Met pubKey) :
    (grantLedger parseKey).Pays (RowsStand parseKey) heard w (recomputePeer nodeID pubKey ip) := by
  refine pays_read (fun _ => rfl) fun r t _ _ _ => ?_
  rcases r with _ | routes
  · trivial
  · exact pays_setPeerRoutes (hmet.mono (List.suffix_cons _ _)) fun _ _ _ => trivial

theorem pays_recomputeReclaimedPeers (dets : List ZoneDetachment) (seen : List Int) :
    (grantLedger parseKey).Pays (RowsStand parseKey) heard w (recomputeReclaimedPeers dets seen) := by
  induction dets generalizing heard seen w with
  | nil => trivial
  | cons det dets ih =>
    unfold recomputeReclaimedPeers
    split_ifs
    · exact ih _
    · refine pays_read (fun _ => rfl) fun r t _ _ hr => ?_
      rcases r with _ | node
      · exact ih _
      · have hread : Except.ok node = t.db.getNodeByID det.nodeID :=
          hr.resolve_left fun h => by cases h.1
        have hmet : OpHeard.Met ((⟨.store (.getNodeByID det.nodeID), .ok node⟩,
          t) :: heard) node.pubKey :=
          ⟨_, List.mem_cons_self, node, (DB.getNodeByID_ok hread.symm).1, rfl⟩
        exact Pays.bind (pays_recomputePeer _ _ hmet) fun _ _ _ _ _ => ih _

theorem pays_cascade {node : Node} {zoneID : Int} (hmet : heard.Met node.pubKey) :
    (grantLedger parseKey).Pays (RowsStand parseKey) heard w
      (cascadeNodeZoneAnnouncements node zoneID) := by
  refine pays_store_owing (fun t x _ hw _ _ hx => ?_) fun r t _ _ _ => ?_
  · by_cases hb : t.db.Backs parseKey x
    · obtain ⟨det, hdet, rfl⟩ := DB.lost_detachEach hb hw.1 (fun a ha => hw.1.knowsAnnouncement
        ((DB.mem_announcementsInZone hw.1).mp (List.mem_of_mem_filter ha)).1) hx.2
      exact .inr ((owes_forEach hdet owes_removeZoneRoute).bind _)
    · exact .inl ⟨hx.1, hb⟩
  · rcases r with _ | dets
    · trivial
    · refine Pays.bind (pays_netfw_loop (f := fun det => .removeZoneRoute zoneID det.synthetic)
        (fun _ => rfl) dets) fun more u _ hmore _ => ?_
      split_ifs
      · exact pays_recomputePeer _ _ (hmet.mono ((List.suffix_cons _ _).trans hmore))
      · trivial

theorem pays_removeFromZone {zone : Zone} {node : Node} (hnode : w.db.KnowsNode node)
    (hmet : heard.Met node.pubKey) :
    (grantLedger parseKey).Pays (RowsStand parseKey) heard w (removeFromZone zone node) := by
  refine pays_store_owing (fun t x ht hw _ _ hx => ?_) fun r t _ _ _ => ?_
  · by_cases hb : t.db.Backs parseKey x
    · rcases DB.leave_cases t.db zone.id node.id with ⟨h, -⟩ | ⟨h, -⟩
      · have hsame : ((StoreOp.leave zone.id node.id).exec t.db).2 = t.db := congrArg Prod.snd h
        rw [hsame] at hx
        exact .inl hx
      · have hdb : ((StoreOp.leave zone.id node.id).exec t.db).2 =
          t.db.deleteMember ⟨zone.id, node.id⟩ := congrArg Prod.snd h
        have hok : ((StoreOp.leave zone.id node.id).exec t.db).1 = .ok () := congrArg Prod.fst h
        obtain ⟨n, hn, hid, rfl⟩ := DB.lost_deleteMember hb (hdb ▸ hx.2)
        obtain rfl := (hnode.after ht).2 n hn hid
        rw [hok]
        exact .inr owes_removeMember
    · exact .inl ⟨hx.1, hb⟩
  · rcases r with e | _
    · cases e <;> trivial
    · refine pays_netfw_quiet rfl fun _ _ _ _ => Pays.bind (pays_cascade ?_) fun _ _ _ _ _ => trivial
      exact hmet.mono ((List.suffix_cons _ _).trans (List.suffix_cons _ _))

theorem pays_leaveZone (id : Option Identity) (name : String) (body : Option LeaveZoneRequest) :
    (grantLedger parseKey).Pays (RowsStand parseKey) heard w (leaveZone id name body) :=
  pays_authenticated fun _ => pays_decoded fun _ => pays_namedZone fun _ _ _ _ _ =>
    pays_ownedNode fun node _ _ hw hnode _ =>
      pays_removeFromZone (hw.1.knowsNode hnode) ⟨_, List.mem_cons_self, node, hnode, rfl⟩

theorem pays_kickMember (id : Option Identity) (name path : String) :
    (grantLedger parseKey).Pays (RowsStand parseKey) heard w (kickMember id name path) := by
  refine pays_authenticated fun _ => pays_ownedZone fun _ _ _ _ _ => pays_pathID fun nodeID =>
    pays_read (fun _ => rfl) fun r t _ hw hr => ?_
  rcases r with e | node
  · cases e <;> trivial
  · have hread : Except.ok node = t.db.getNodeByID nodeID := hr.resolve_left fun h => by cases h.1
    have hnode := (DB.getNodeByID_ok hread.symm).1
    exact pays_removeFromZone (hw.1.knowsNode hnode) ⟨_, List.mem_cons_self, node, hnode, rfl⟩

theorem pays_deleteZone (id : Option Identity) (name : String) :
    (grantLedger parseKey).Pays (RowsStand parseKey) heard w (deleteZone id name) := by
  refine pays_authenticated fun _ => pays_ownedZone fun zone _ _ _ _ => ?_
  refine pays_store_owing (fun t x _ hw _ _ hx => ?_) fun r t _ _ _ => ?_
  · by_cases hb : t.db.Backs parseKey x
    · obtain ⟨r, hr⟩ := DB.lost_detachAllForZone hb hw.1 hx.2
      refine .inr (.inr fun e s _ he => ?_)
      obtain rfl : e = false := he.1
      exact owes_deleteZone (.inr ⟨r, hr⟩)
    · exact .inl ⟨hx.1, hb⟩
  rcases r with _ | dets
  · trivial
  refine pays_store_owing (fun t x _ _ _ _ hx => ?_) fun r t _ _ _ => ?_
  · by_cases hb : t.db.Backs parseKey x
    · obtain ⟨z, -, hz, hxz⟩ := DB.lost_deleteZones hb hx.2
      have hzid : z.id = zone.id := by simpa using hz
      exact .inr (owes_deleteZone (hzid ▸ hxz))
    · exact .inl ⟨hx.1, hb⟩
  rcases r with _ | _
  · trivial
  exact pays_netfw_quiet rfl fun _ _ _ _ =>
    Pays.bind (pays_recomputeReclaimedPeers _ _) fun _ _ _ _ _ => trivial

theorem pays_rollbackZone (zoneID : Int) :
    (grantLedger parseKey).Pays (RowsStand parseKey) heard w (rollbackZone zoneID) := by
  refine pays_store_owing (fun t x _ _ _ _ hx => ?_) fun r t _ _ _ => ?_
  · by_cases hb : t.db.Backs parseKey x
    · obtain ⟨z, -, hz, hxz⟩ := DB.lost_deleteZones hb hx.2
      obtain rfl : z.id = zoneID := by simpa using hz
      exact .inr (owes_deleteZone hxz)
    · exact .inl ⟨hx.1, hb⟩
  · exact pays_netfw_quiet rfl fun _ _ _ _ => trivial

/-- An address is added for a membership that a step of the request's own has left; where the set is
missing it stays so for that step. -/
theorem pays_addMember {z : Int} {ip : Addr}
    (hback : heard.Backed parseKey (.member z (addrToUint32 ip)))
    {k : Except KernelErr Unit → Handler α}
    (hk : ∀ r t, w.db.After t.db → t.db.Wf → (r = .ok () ∨ t.nft.members z = none) →
      (grantLedger parseKey).Pays (RowsStand parseKey)
        ((⟨.netfw (.addMember z ip), r⟩, t) :: heard) t (k r)) :
    (grantLedger parseKey).Pays (RowsStand parseKey) heard w (netfw (.addMember z ip) >>= k) := by
  intro e t ht hw he hstill
  obtain rfl : e = false := he.1
  refine ⟨fun x hx => .inl (stale_addMember ?_ hx), ?_⟩
  · obtain ⟨y, hy, hb⟩ := hback
    exact hstill y hy hb
  · have hafter := (grantLedger parseKey).after_step (.netfw (.addMember z ip)) false t hw he
    refine hk _ _ (ht.trans hafter) ((grantLedger parseKey).inv_step _ false t hw he).1 ?_
    show (sem parseKey (.netfw (.addMember z ip)) false t).1 = .ok () ∨
      (sem parseKey (.netfw (.addMember z ip)) false t).2.nft.members z = none
    cases hset : t.nft.members z with
    | none =>
      right
      simp only [sem, NetfwOp.exec, Nft.addMember, hset]
      exact hset
    | some set =>
      left
      simp only [sem, NetfwOp.exec, Nft.addMember, hset]
      rfl

theorem pays_addZoneRoute {z : Int} {p : Prefix}
    (hback : heard.Backed parseKey (.route z (rangeElements p)))
    {k : Except KernelErr Unit → Handler α}
    (hk : ∀ r t, w.db.After t.db → t.db.Wf → (r = .ok () ∨ t.nft.routes z = none) →
      (grantLedger parseKey).Pays (RowsStand parseKey)
        ((⟨.netfw (.addZoneRoute z p), r⟩, t) :: heard) t (k r)) :
    (grantLedger parseKey).Pays (RowsStand parseKey) heard w (netfw (.addZoneRoute z p) >>= k) := by
  intro e t ht hw he hstill
  obtain rfl : e = false := he.1
  refine ⟨fun x hx => .inl (stale_addZoneRoute ?_ hx), ?_⟩
  · obtain ⟨y, hy, hb⟩ := hback
    exact hstill y hy hb
  · have hafter := (grantLedger parseKey).after_step (.netfw (.addZoneRoute z p)) false t hw he
    refine hk _ _ (ht.trans hafter) ((grantLedger parseKey).inv_step _ false t hw he).1 ?_
    show (sem parseKey (.netfw (.addZoneRoute z p)) false t).1 = .ok () ∨
      (sem parseKey (.netfw (.addZoneRoute z p)) false t).2.nft.routes z = none
    cases hset : t.nft.routes z with
    | none =>
      right
      simp only [sem, NetfwOp.exec, Nft.addZoneRoute, hset]
      exact hset
    | some set =>
      left
      simp only [sem, NetfwOp.exec, Nft.addZoneRoute, hset]
      rfl


omit [DecidableEq κ] in
theorem DB.backs_of_member {db : DB} (hw : db.Wf) {node : Node} (hnode : db.KnowsNode node)
    {zoneID : Int}
    (hm : ⟨zoneID, node.id⟩ ∈ db.zoneMembers) : db.Backs parseKey (.member zoneID node.ip) := by
  obtain ⟨n, hn, hid⟩ := hw.member_node _ hm
  obtain rfl := hnode.2 n hn hid
  exact ⟨_, hm, rfl, n, hn, rfl, rfl⟩

theorem pays_join {zoneID : Int} {node : Node} (hnode : w.db.KnowsNode node)
    {k : Except StoreErr Unit → Handler α} (herr : ∀ e more t, w.db.After t.db → t.db.Wf →
      (grantLedger parseKey).Pays (RowsStand parseKey) more t (k (.error e)))
    (hok : ∀ more t, w.db.After t.db → t.db.Wf →
      OpHeard.Backed parseKey more (.member zoneID node.ip) →
      (grantLedger parseKey).Pays (RowsStand parseKey) more t (k (.ok ()))) :
    (grantLedger parseKey).Pays (RowsStand parseKey) heard w (store (.join zoneID node.id) >>= k) := by
  refine pays_store (fun _ _ _ _ _ => stale_store rfl) fun r t ht hw hr => ?_
  rcases r with e | _
  · exact herr e _ t ht hw.1
  · obtain ⟨db, -, -, -, hres, hdb⟩ := hr.resolve_left fun h => by cases h.1
    refine hok _ t ht hw.1 ⟨_, List.mem_cons_self, ?_⟩
    apply DB.backs_of_member hw.1 (hnode.after ht)
    rw [hdb]
    exact DB.join_ok hres.symm

theorem pays_joinCreator {zoneID : Int} {node : Node} (hnode : w.db.KnowsNode node)
    (created : Response) :
    (grantLedger parseKey).Pays (RowsStand parseKey) heard w (joinCreator zoneID node created) := by
  refine pays_join hnode (fun _ _ _ _ _ => ?_) fun _ t ht _ hback => ?_
  · exact Pays.bind (pays_rollbackZone _) fun _ _ _ _ _ => trivial
  refine pays_addMember hback fun r _ _ _ _ => ?_
  rcases r with _ | _
  · exact Pays.bind (pays_rollbackZone _) fun _ _ _ _ _ => trivial
  · trivial

/-- Without an outside failure adding a zone succeeds: its compensation is never reached. -/
theorem pays_createZoneFor (h : Server κ) (id : Identity) (name passwordHash : String)
    {member : Option Node}
    (hmember : ∀ node ∈ member, w.db.KnowsNode node) : (grantLedger parseKey).Pays (RowsStand parseKey)
      heard w (createZoneFor h id name passwordHash member) := by
  refine pays_store (fun _ _ _ _ _ => stale_store rfl) fun r t ht _ _ => ?_
  rcases r with _ | _ | zoneID
  · trivial
  · trivial
  intro e u hu hw he _
  obtain rfl : e = false := he.1
  refine ⟨fun x hx => .inl (stale_netfw rfl hx), ?_⟩
  have hafter := (grantLedger parseKey).after_step (.netfw (.addZone zoneID)) false u hw he
  cases member with
  | none => trivial
  | some node => exact pays_joinCreator ((hmember node rfl).after ((ht.trans hu).trans hafter)) _

theorem pays_createZone (h : Server κ) (id : Option Identity) (body : Option CreateZoneRequest)
    (salt : Option String) :
    (grantLedger parseKey).Pays (RowsStand parseKey) heard w (createZone h id body salt) := by
  refine pays_authenticated fun id => pays_decoded fun req => ?_
  dsimp only
  generalize trimSpace req.name = name
  split_ifs
  iterate 2 trivial
  unfold autoJoinNode
  split_ifs
  · exact pays_salted fun s => pays_createZoneFor h _ _ _ fun _ hnode => by cases hnode
  · refine pays_ownedNode fun node t _ hw hnode _ => pays_salted fun s => pays_createZoneFor h _ _ _ ?_
    intro n hn
    obtain rfl := Option.some.inj hn
    exact hw.1.knowsNode hnode

/-- The membership is taken back only where the set was missing: no address is left behind. -/
theorem pays_joinNode {zone : Zone} {node : Node} (hnode : w.db.KnowsNode node) :
    (grantLedger parseKey).Pays (RowsStand parseKey) heard w (joinNode zone node) := by
  refine pays_join hnode (fun _ _ _ _ _ => trivial) fun _ t ht _ hback => ?_
  refine pays_addMember hback fun r u _ _ hset => ?_
  rcases r with e | _
  swap
  · trivial
  refine pays_store (fun v x _ hw hstill hx => ?_) fun _ _ _ _ _ => trivial
  have hgone : v.nft.members zone.id = none :=
    hstill _ e u List.mem_cons_self (hset.resolve_left fun h => by cases h)
  by_cases hb : v.db.Backs parseKey x
  · obtain ⟨n, hn, -, rfl⟩ : ∃ n ∈ v.db.nodes, n.id = node.id ∧ x = .member zone.id n.ip := by
      rcases DB.leave_cases v.db zone.id node.id with ⟨h, -⟩ | ⟨h, -⟩
      · have hsame : ((StoreOp.leave zone.id node.id).exec v.db).2 = v.db := congrArg Prod.snd h
        rw [hsame] at hx
        exact absurd hb hx.2
      · have hdb : ((StoreOp.leave zone.id node.id).exec v.db).2 =
          v.db.deleteMember ⟨zone.id, node.id⟩ := congrArg Prod.snd h
        exact DB.lost_deleteMember hb (hdb ▸ hx.2)
    obtain ⟨set, hsome, -⟩ := hx.1
    rw [hgone] at hsome
    cases hsome
  · exact ⟨hx.1, hb⟩

theorem pays_joinZone (h : Server κ) (id : Option Identity) (name : String)
    (body : Option JoinZoneRequest) :
    (grantLedger parseKey).Pays (RowsStand parseKey) heard w (joinZone h id name body) := by
  refine pays_authenticated fun id => pays_decoded fun req => ?_
  split_ifs
  · trivial
  refine pays_namedZone fun zone _ _ _ _ => ?_
  split_ifs
  · trivial
  · exact pays_ownedNode fun node _ _ hw hnode _ => pays_joinNode (hw.1.knowsNode hnode)


omit [DecidableEq κ] in
theorem DB.backs_of_attachment {db : DB} {zoneID : Int} {ann : Announcement}
    (hmem : ann ∈ db.announcements)
    (hatt : ⟨ann.id, zoneID⟩ ∈ db.announcementZones) :
    db.Backs parseKey (.route zoneID (rangeElements ann.synthetic.toPrefix)) :=
  ⟨_, hatt, rfl, ann, hmem, rfl, rfl⟩

theorem pays_rollbackAnnouncement {zoneID : Int} {ann : Announcement} {node : Node}
    (hmet : heard.Met node.pubKey)
    (hset : ∃ p e s, (⟨.netfw (.addZoneRoute zoneID p), .error e⟩, s) ∈ heard ∧
      s.nft.routes zoneID = none) :
    (grantLedger parseKey).Pays (RowsStand parseKey) heard w
      (rollbackAnnouncement zoneID ann.id node) := by
  refine pays_store (fun t x ht hw hstill hx => ?_) fun r _ _ _ _ => ?_
  · have hgone : t.nft.routes zoneID = none := by
      obtain ⟨p, e, s, hmem, hnone⟩ := hset
      exact hstill p e s hmem hnone
    by_cases hb : t.db.Backs parseKey x
    · rcases DB.detach_cases t.db zoneID ann.id with ⟨h, -⟩ | ⟨a, -, -, h⟩
      · have hsame : ((StoreOp.detach zoneID ann.id).exec t.db).2 = t.db := congrArg Prod.snd h
        rw [hsame] at hx
        exact hx
      · have hdb : ((StoreOp.detach zoneID ann.id).exec t.db).2 = t.db.detachOne ann.id zoneID :=
          congrArg Prod.snd h
        obtain ⟨b, -, -, rfl⟩ := DB.lost_detachOne hb hw.1 (hdb ▸ hx.2)
        obtain ⟨set, hsome, -⟩ := hx.1
        rw [hgone] at hsome
        cases hsome
    · exact ⟨hx.1, hb⟩
  · rcases r with _ | _
    · trivial
    · exact pays_recomputePeer _ _ (hmet.mono (List.suffix_cons _ _))

theorem pays_growDataplane {zone : Zone} {node : Node} {ann : Announcement}
    (hmet : heard.Met node.pubKey)
    (hback : heard.Backed parseKey (.route zone.id (rangeElements ann.synthetic.toPrefix))) :
    (grantLedger parseKey).Pays (RowsStand parseKey) heard w (growDataplane zone node ann) := by
  refine pays_read (fun _ => rfl) fun r t ht _ hr => ?_
  rcases r with _ | routes
  · rcases hr with ⟨-, h⟩ | h <;> cases h
  refine pays_setPeerRoutes (hmet.mono (List.suffix_cons _ _)) fun u hu _ => ?_
  refine pays_addZoneRoute (hback.mono ((List.suffix_cons _ _).trans (List.suffix_cons _ _)))
    fun r v hv _ hset => ?_
  rcases r with e | _
  · have hnone := hset.resolve_left fun h => by cases h
    refine Pays.bind (pays_rollbackAnnouncement ?_
      ⟨_, e, v, List.mem_cons_self, hnone⟩) fun _ _ _ _ _ => trivial
    exact hmet.mono ((List.suffix_cons _ _).trans ((List.suffix_cons _ _).trans (List.suffix_cons _ _)))
  · trivial

theorem pays_announceSubnet (h : Server κ) {id : Identity} {zone : Zone} {node : Node}
    {subnet pool : Prefix} (hmet : heard.Met node.pubKey) :
    (grantLedger parseKey).Pays (RowsStand parseKey)
      heard w (announceSubnet h id zone node subnet pool) := by
  refine pays_store (fun _ _ _ _ _ => stale_store rfl) fun r t _ hw hr => ?_
  rcases r with _ | ⟨ann, attached⟩
  · trivial
  cases attached with
  | false => trivial
  | true =>
    obtain ⟨db, -, -, -, hres, hdb⟩ := hr.resolve_left fun h => by cases h.1
    obtain ⟨⟨hmem, -, -, hatt⟩, -⟩ := DB.createAnnouncement_ok (Prod.ext hres.symm hdb.symm)
    have hback : (_ : DB).Backs parseKey _ := DB.backs_of_attachment hmem hatt
    refine Pays.bind (pays_growDataplane (hmet.mono (List.suffix_cons _ _))
      ⟨_, List.mem_cons_self, hback⟩)
      fun _ _ grown _ _ => ?_
    cases grown <;> trivial

theorem pays_createAnnouncement (h : Server κ) (id : Option Identity) (name : String)
    (body : Option CreateAnnouncementRequest) :
    (grantLedger parseKey).Pays (RowsStand parseKey) heard w (createAnnouncement h id name body) := by
  refine pays_authenticated fun id => pays_memberZone fun zone _ _ _ _ => pays_decoded fun req => ?_
  cases h.announcePool with
  | none => trivial
  | some pool =>
    refine pays_ownedNode fun node t _ _ hnode _ => ?_
    split_ifs
    · trivial
    cases parsePrefix4 req.subnet with
    | none => trivial
    | some p =>
      dsimp only
      cases validAnnouncedSubnet h p.masked with
      | some message => trivial
      | none => exact pays_announceSubnet h ⟨_, List.mem_cons_self, node, hnode, rfl⟩

theorem pays_deleteAnnouncement (id : Option Identity) (name path : String) :
    (grantLedger parseKey).Pays (RowsStand parseKey) heard w (deleteAnnouncement id name path) := by
  refine pays_authenticated fun id => pays_memberZone fun zone more _ _ _ => pays_pathID fun annID =>
    pays_read (fun _ => rfl) fun r s _ hw hr => ?_
  rcases r with e | ann
  · cases e <;> trivial
  have hread : Except.ok ann = s.db.getAnnouncement annID := hr.resolve_left fun h => by cases h.1
  obtain ⟨hann, hid⟩ := DB.getAnnouncement_ok hread.symm
  have hknown := hw.1.knowsAnnouncement hann
  refine pays_read (fun _ => rfl) fun r v hv hwv hr => ?_
  rcases r with _ | node
  · trivial
  have hmet : OpHeard.Met ((⟨.store (.getNodeByID ann.nodeID), .ok node⟩, v) ::
      (⟨.store (.getAnnouncement annID), .ok ann⟩, s) :: more) node.pubKey := by
    have hread : Except.ok node = v.db.getNodeByID ann.nodeID := hr.resolve_left fun h => by cases h.1
    exact ⟨_, List.mem_cons_self, node, (DB.getNodeByID_ok hread.symm).1, rfl⟩
  change (grantLedger parseKey).Pays _ _ _ (if _ then _ else _)
  split_ifs
  · trivial
  refine pays_store_owing (fun t x ht hw _ _ hx => ?_) fun r _ _ _ _ => ?_
  · by_cases hb : t.db.Backs parseKey x
    · rcases DB.detach_cases t.db zone.id annID with ⟨h, -⟩ | ⟨a, -, -, h⟩
      · have hsame : ((StoreOp.detach zone.id annID).exec t.db).2 = t.db := congrArg Prod.snd h
        rw [hsame] at hx
        exact .inl hx
      · have hdb : ((StoreOp.detach zone.id annID).exec t.db).2 = t.db.detachOne annID zone.id :=
          congrArg Prod.snd h
        have hok : ((StoreOp.detach zone.id annID).exec t.db).1 = .ok _ := congrArg Prod.fst h
        obtain ⟨b, hb', hbid, rfl⟩ := DB.lost_detachOne hb hw.1 (hdb ▸ hx.2)
        obtain rfl := (hknown.after (hv.trans ht)).2 b hb' (hbid.trans hid.symm)
        rw [hok]
        exact .inr owes_removeZoneRoute
    · exact .inl ⟨hx.1, hb⟩
  rcases r with e | ⟨_, reclaimed⟩
  · cases e <;> trivial
  refine pays_netfw_quiet rfl fun _ _ _ _ => ?_
  cases reclaimed
  · trivial
  · refine Pays.bind (pays_recomputePeer _ _ ?_) fun _ _ _ _ _ => trivial
    exact hmet.mono ((List.suffix_cons _ _).trans (List.suffix_cons _ _))


theorem pays_assoc {β : Type} {o : StoreOp} {k : Except StoreErr o.Val → Handler α} {f : α → Handler β}
    (h : (grantLedger parseKey).Pays (RowsStand parseKey) heard w (store o >>= fun r => k r >>= f)) :
    (grantLedger parseKey).Pays (RowsStand parseKey) heard w ((store o >>= k) >>= f) := h

theorem pays_createNode {userID : Int} {name pubKey platform : String} {first last : BitVec 32}
    {maxDevices : Int} {f : Except StoreErr Node → Handler Response}
    (herr : ∀ e more t, (grantLedger parseKey).Pays (RowsStand parseKey) more t (f (.error e)))
    (hok : ∀ node more t, OpHeard.Met more node.pubKey →
      (grantLedger parseKey).Pays (RowsStand parseKey) more t (f (.ok node))) (retries : Nat) :
    (grantLedger parseKey).Pays (RowsStand parseKey) heard w
      (createNode userID name pubKey platform first last maxDevices retries >>= f) := by
  induction retries generalizing heard w with
  | zero => exact herr _ _ _
  | succ retries ih =>
    refine pays_assoc (pays_read (fun _ => rfl) fun r t _ _ _ => ?_)
    rcases r with _ | _ | ip
    · exact herr _ _ _
    · exact herr _ _ _
    refine pays_assoc (pays_store (fun _ _ _ _ _ => stale_store rfl) fun r u _ _ hr => ?_)
    rcases r with e | _ | id
    · dsimp only
      split_ifs
      · exact ih
      all_goals exact herr _ _ _
    · exact herr _ _ _
    · obtain ⟨db, -, -, -, hres, hdb⟩ := hr.resolve_left fun h => by cases h.1
      have hnew := DB.insertNode_mem hres.symm
      exact hok _ _ _ ⟨_, List.mem_cons_self, _, hdb ▸ hnew, rfl⟩

theorem pays_registerNode (h : Server κ) (id : Option Identity) (body : Option RegisterNodeRequest) :
    (grantLedger parseKey).Pays (RowsStand parseKey) heard w (registerNode h id body) := by
  refine pays_authenticated fun id => pays_decoded fun req => ?_
  dsimp only
  generalize (if req.platform = "" then "unknown" else req.platform) = platform
  generalize trimSpace req.name = name
  split_ifs
  iterate 3 trivial
  cases poolRange h.network with
  | none => trivial
  | some range =>
    refine pays_createNode (fun e more t => ?_) (fun node more t hmet => ?_) _
    · trivial
    · exact pays_setPeerRoutes hmet fun _ _ _ => trivial

/-- What the deletion of the node leaves without its row is on the lists made before. -/
theorem pays_deleteNode (id : Option Identity) (path : String) :
    (grantLedger parseKey).Pays (RowsStand parseKey) heard w (deleteNode id path) := by
  refine pays_authenticated fun id => pays_pathID fun nodeID =>
    pays_ownedNode fun node s _ hs hnode hid => ?_
  refine pays_read (fun _ => rfl) fun r t ht hwt hr => ?_
  rcases r with _ | zoneIDs
  · trivial
  have hzones : zoneIDs = (t.db.zoneMembers.filter (·.nodeID = nodeID)).map (·.zoneID) :=
    Except.ok.inj (hr.resolve_left fun h => by cases h.1)
  refine pays_read (fun _ => rfl) fun r u hu hwu hr => ?_
  rcases r with _ | attachments
  · trivial
  have hatts : attachments = u.db.nodeAttachments nodeID :=
    Except.ok.inj (hr.resolve_left fun h => by cases h.1)
  refine pays_assoc (pays_read (fun _ => rfl) fun r v hv _ _ => ?_)
  rcases r with e | pubKey
  · cases e <;> trivial
  refine pays_assoc (pays_store_owing (fun t' x ht' hw _ hlisted hx => ?_) fun r _ _ _ _ => ?_)
  · by_cases hb : t'.db.Backs parseKey x
    swap
    · exact .inl ⟨hx.1, hb⟩
    right
    have hknown := (hs.1.knowsNode hnode).after (((ht.trans hu).trans hv).trans ht')
    obtain ⟨n, hn, hp, hlost⟩ := DB.lost_deleteNodes hb hw.1 hx.2
    have hnid : n.id = nodeID ∧ n.userID = id.userID := by simpa using hp
    obtain rfl := hknown.2 n hn (hnid.1.trans hid.symm)
    change (grantLedger parseKey).Owes x (wg (.removePeer n.pubKey) >>= fun _ =>
      Prog.forEach _ zoneIDs >>= fun _ => Prog.forEach _ attachments >>= fun _ => _)
    -- a membership and an attachment that were lost are on the lists; the peer is removed by the
    -- node's key
    rcases hlost with ⟨m, hm, hmid, rfl⟩ | ⟨a, ha, hna, az, haz, hazid, rfl⟩ | ⟨key, hkey, rfl⟩
    · have hbefore : ⟨m.zoneID, nodeID⟩ ∈ t.db.zoneMembers := by
        refine hlisted.memberships zoneIDs t ?_ _ ?_
        · exact List.mem_cons_of_mem _ (List.mem_cons_of_mem _ List.mem_cons_self)
        · rwa [← hid, ← hmid]
      have hmem : m.zoneID ∈ zoneIDs := by
        rw [hzones]
        exact List.mem_map.mpr ⟨_, List.mem_filter.mpr ⟨hbefore, by simp⟩, rfl⟩
      exact owes_bind_right _ fun _ => (owes_forEach hmem owes_removeMember).bind _
    · obtain ⟨hann, hatt⟩ := hlisted.attachments attachments u
        (List.mem_cons_of_mem _ List.mem_cons_self) a ha (hna.trans hid) az.zoneID (hazid ▸ haz)
      have hmem : ⟨a.id, nodeID, az.zoneID, a.synthetic.toPrefix, false⟩ ∈ attachments := by
        rw [hatts]
        exact (mem_nodeAttachments hwu.1).mpr ⟨_, hatt, a, hann, rfl, hna.trans hid, rfl⟩
      exact owes_bind_right _ fun _ => owes_bind_right _ fun _ =>
        (owes_forEach hmem owes_removeZoneRoute).bind _
    · exact owes_removePeer hkey
  rcases r with e | _
  · cases e <;> trivial
  refine pays_removePeer fun _ _ _ _ => ?_
  refine Pays.bind (pays_netfw_loop (f := fun zid => .removeMember zid (uint32ToAddr node.ip))
    (fun _ => rfl) zoneIDs) fun _ _ _ _ _ => ?_
  exact Pays.bind (pays_netfw_loop (f := fun att => .removeZoneRoute att.zoneID att.synthetic)
    (fun _ => rfl) attachments) fun _ _ _ _ _ => trivial

theorem pays_deleteUser (id : Option Identity) (path : String) :
    (grantLedger parseKey).Pays (RowsStand parseKey) heard w (deleteUser id path) := by
  refine pays_authenticated fun id => pays_pathID fun targetID => ?_
  split_ifs
  · trivial
  refine pays_store_owing (fun t x _ hw _ _ hx => ?_) fun r t _ _ hr => ?_
  · by_cases hb : t.db.Backs parseKey x
    · cases hr : (t.db.deleteCascade targetID).1 with
      | error e =>
        rcases DB.deleteCascade_cases t.db targetID with ⟨h, -⟩ | ⟨r', hr', -⟩
        · have hsame : ((StoreOp.deleteCascade targetID).exec t.db).2 = t.db := h
          rw [hsame] at hx
          exact .inl hx
        · rw [hr] at hr'
          cases hr'
      | ok r =>
        have hok : ((StoreOp.deleteCascade targetID).exec t.db).1 = .ok r := hr
        rw [hok]
        -- each list of the result has one of the loops
        rcases DB.lost_deleteCascade hb hw.1 hr hx.2 with ⟨pub, hpub, key, hkey, rfl⟩ | ⟨m, hm, rfl⟩ |
          ⟨z, hz, hxz⟩ | ⟨route, hroute, rfl⟩
        · exact .inr ((owes_forEach hpub (owes_removePeer hkey)).bind _)
        · exact .inr (owes_bind_right _ fun _ => (owes_forEach hm owes_removeMember).bind _)
        · exact .inr (owes_bind_right _ fun _ => owes_bind_right _ fun _ =>
            (owes_forEach hz (owes_deleteZone hxz)).bind _)
        · exact .inr (owes_bind_right _ fun _ => owes_bind_right _ fun _ => owes_bind_right _ fun _ =>
            (owes_forEach hroute owes_removeZoneRoute).bind _)
    · exact .inl ⟨hx.1, hb⟩
  rcases r with _ | result
  · trivial
  -- the nodes whose peers are set again have survived the cascade
  have hthere : ∀ n ∈ result.routeRecomputeNodes, ∃ m ∈ t.db.nodes, m.pubKey = n.pubKey := by
    obtain ⟨db, -, hwdb, -, hres, hdb⟩ := hr.resolve_left fun h => by cases h.1
    have hres' : (db.deleteCascade targetID).1 = .ok result := hres.symm
    rcases deleteCascade_spec hwdb targetID with ⟨-, e, he⟩ | ⟨r', hr', hcas⟩
    · rw [he] at hres'
      cases hres'
    · obtain rfl := Except.ok.inj (hr'.symm.trans hres')
      intro n hn
      obtain ⟨m, hm, rfl⟩ := hcas.recompute n hn
      exact ⟨m, hdb ▸ hm, rfl⟩
  refine Pays.bind (pays_forEach fun pub _ _ _ _ _ => pays_removePeer fun _ _ _ _ => trivial)
    fun _ _ _ hpeers _ => ?_
  refine Pays.bind (pays_netfw_loop (f := fun m => .removeMember m.zoneID m.ip)
    (fun _ => rfl) result.survivingMemberships) fun _ _ _ hmembers _ => ?_
  refine Pays.bind (pays_netfw_loop (f := fun zid => .deleteZone zid)
    (fun _ => rfl) result.ownedZoneIDs) fun _ _ _ hzones _ => ?_
  refine Pays.bind (pays_netfw_loop (f := fun route => .removeZoneRoute route.zoneID route.synthetic)
    (fun _ => rfl) result.survivingZoneRoutes) fun _ _ _ hroutes _ => ?_
  refine Pays.bind (pays_forEach fun n hn _ _ hlast _ =>
    pays_recomputePeer _ _ ?_) fun _ _ _ _ _ => trivial
  obtain ⟨m, hm, hkey⟩ := hthere n hn
  have hmet : OpHeard.Met ((⟨.store (.deleteCascade targetID), .ok result⟩, t) :: heard) n.pubKey :=
    ⟨_, List.mem_cons_self, m, hm, hkey⟩
  exact hmet.mono ((((hpeers.trans hmembers).trans hzones).trans hroutes).trans hlast)

theorem pays_handle (h : Server κ) (r : Request) :
    (grantLedger parseKey).Pays (RowsStand parseKey) heard w (handle h r) := by
  obtain ⟨id, c⟩ := r
  cases c with
  | registerNode body => exact pays_registerNode h id body
  | deleteNode path => exact pays_deleteNode id path
  | createZone body salt => exact pays_createZone h id body salt
  | joinZone name body => exact pays_joinZone h id name body
  | leaveZone name body => exact pays_leaveZone id name body
  | kickMember name nodeID => exact pays_kickMember id name nodeID
  | deleteZone name => exact pays_deleteZone id name
  | createAnnouncement name body => exact pays_createAnnouncement h id name body
  | deleteAnnouncement name path => exact pays_deleteAnnouncement id name path
  | deleteUser path => exact pays_deleteUser id path


end

/-! ### any interleaving -/

/-- Whatever requests run, in whatever order their steps fall: as long as the rows stand on which the
steps rely, once all have finished nothing granted lacks its rows. -/
theorem no_stale_grant {τ : Type} [DecidableEq τ] (h : Server κ) (requests : τ → Request) {w : World κ}
    (hw : w.db.Wf) (hsync : ∀ x, w.Grants x ↔ w.db.Backs h.parseKey x) {sched : List (τ × Bool)}
    (hok : ∀ s ∈ sched, s.2 = false)
    (hstand : Along (Prog.noting (sem h.parseKey)) (Prog.Upheld fun _ => RowsStand h.parseKey)
      (Prog.noted ⟨fun t => handle h (requests t), w⟩) sched)
    (hdone : ∀ t, ∃ r, ((Config.mk (fun t => handle h (requests t)) w).exec
      (Prog.machine (sem h.parseKey)) sched).threads t = .pure r) :
    ∀ x, ((Config.mk (fun t => handle h (requests t)) w).exec
        (Prog.machine (sem h.parseKey)) sched).shared.Grants x →
      ((Config.mk (fun t => handle h (requests t)) w).exec
        (Prog.machine (sem h.parseKey)) sched).shared.db.Backs h.parseKey x := by
  have hcareful : Along (Prog.noting (sem h.parseKey))
      ((grantLedger h.parseKey).Careful fun _ => RowsStand h.parseKey)
      (Prog.noted ⟨fun t => handle h (requests t), w⟩) sched := by
    have hall : Along (Prog.noting (sem h.parseKey)) (fun _ _ e => e = false)
        (Prog.noted ⟨fun t => handle h (requests t), w⟩) sched := along_of_forall hok
    exact hall.imp₂ hstand fun c t e he hstands i k hop => ⟨⟨he, fun _ => trivial⟩, hstands i k hop⟩
  intro x hx
  by_contra hb
  exact settled (L := grantLedger h.parseKey) (c := ⟨fun t => handle h (requests t), w⟩) ⟨hw, trivial⟩
    (fun t => pays_handle h (requests t)) (fun y hy =>
      hy.2 ((hsync y).mp hy.1)) hcareful hdone x ⟨hx, hb⟩

/-- The node joins the zone and then leaves it. -/
def joinThenLeave : Fin 2 → Request
  | 0 => ⟨alice, .joinZone "lab" (some ⟨1, "passphrase"⟩)⟩
  | 1 => ⟨alice, .leaveZone "lab" (some ⟨1⟩)⟩

/-- The leave begins before the join has ended, and removes the row when the address is there. -/
theorem no_stale_grant_joinThenLeave :
    ¬ ((Config.mk (fun t => handle labServer (joinThenLeave t)) (rebuilt (labDB []))).exec
      (Prog.machine (sem some)) [(0, false), (0, false), (1, false), (0, false), (1, false), (0, false),
        (1, false), (1, false), (1, false)]).shared.Grants (.member 1 0x0A000002) := by
  intro hg
  have hb := no_stale_grant labServer joinThenLeave (labDB_wf (.inl rfl))
    (grants_rebuilt some (labDB_wf (.inl rfl))) (by decide) ?_ ?_ _ hg
  · obtain ⟨m, hm, -⟩ := hb
    cases hm
  · refine ⟨Prog.upheld_op rfl trivial, Prog.upheld_op rfl trivial, Prog.upheld_op rfl trivial,
      Prog.upheld_op rfl trivial, Prog.upheld_op rfl trivial, Prog.upheld_op rfl ?_,
      Prog.upheld_op rfl ?_, Prog.upheld_op rfl trivial, Prog.upheld_op rfl trivial, trivial⟩
    · intro y _ _
      exact ⟨⟨1, 1⟩, List.mem_cons_self, rfl, _, List.mem_cons_self, rfl, rfl⟩
    · intro ip e s hmem
      rcases List.mem_cons.mp hmem with h | hmem
      · cases h
      · rcases List.mem_cons.mp hmem with h | hmem
        · cases h
        · cases hmem
  · exact Fin.forall_fin_two.mpr ⟨⟨_, rfl⟩, ⟨_, rfl⟩⟩

/-- The join's last step comes after the deletion has cleared what it saw. -/
def joinAndDelete : Fin 2 → Request
  | 0 => ⟨alice, .joinZone "lab" (some ⟨1, "passphrase"⟩)⟩
  | 1 => ⟨alice, .deleteNode "1"⟩

/-- Every step succeeds or names an element that does not exist; the address of the deleted
node stays in the zone's set, for whichever node is given it next. -/
theorem join_after_delete_leaves_stale :
    let c := (Config.mk (fun t => handle labServer (joinAndDelete t)) (rebuilt (labDB []))).exec
      (Prog.machine (sem some)) [(0, false), (0, false), (0, false), (1, false), (1, false),
        (1, false), (1, false), (1, false), (1, false), (1, false), (0, false)]
    (rebuilt (labDB [])).db.Wf ∧
      (∀ x, (rebuilt (labDB [])).Grants x ↔ (rebuilt (labDB [])).db.Backs some x) ∧
      (∀ t, ∃ r, c.threads t = .pure r) ∧
      c.shared.Grants (.member 1 0x0A000002) ∧ ¬ c.shared.db.Backs some (.member 1 0x0A000002) := by
  refine ⟨labDB_wf (.inl rfl), grants_rebuilt some (labDB_wf (.inl rfl)),
    Fin.forall_fin_two.mpr ⟨⟨_, rfl⟩, ⟨_, rfl⟩⟩, ⟨_, rfl, by decide⟩, ?_⟩
  rintro ⟨m, hm, -⟩
  cases hm

end
end LanWeave

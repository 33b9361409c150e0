import LanWeave.Server.Duties
import LanWeave.Server.Issued
import LanWeave.Server.ResyncAnnouncements

/-! No lost update of the dataplane: every request that makes something missing goes on to bring
it back, and what it takes away or overwrites is what its own statements have made free, as long as
no other request has come in between. -/

namespace LanWeave
open Library Ledger

section
variable {κ : Type} (parseKey : String → Option κ)

/-- A range names one announcement, a key one node. -/
structure DB.Distinct (db : DB) : Prop where
  canonical : db.Canonical
  keys : db.KeysDecode parseKey

/-- Nobody has put back rows that back `x` since a step of the request's own. -/
def OpHeard.Free (heard : OpHeard κ) (w : World κ) (x : Grant κ) : Prop :=
  ∀ y ∈ heard, w.db.Backs parseKey x → y.2.db.Backs parseKey x

/-- Nobody has deleted the node or one of its announcements since a step of the request's own. -/
structure OpHeard.Whole (heard : OpHeard κ) (w : World κ) (nodeID : Int) : Prop where
  node : ∀ y ∈ heard, ∀ n ∈ y.2.db.nodes, n.id = nodeID → n ∈ w.db.nodes
  announcements : ∀ y ∈ heard, ∀ a ∈ y.2.db.announcements, a.nodeID = nodeID → a ∈ w.db.announcements

/-- Nobody has deleted the node of the key since a step of the request's own, or changed its routes
since the last of them. -/
structure OpHeard.Current (heard : OpHeard κ) (w : World κ) (publicKey : String) : Prop where
  node : ∀ y ∈ heard, ∀ n ∈ y.2.db.nodes, n.pubKey = publicKey → n ∈ w.db.nodes
  routes : ∀ y ∈ heard.head?, ∀ n ∈ w.db.nodes, n.pubKey = publicKey →
    w.db.routes n.id = y.2.db.routes n.id

/-- No other request has come between an operation that takes away or overwrites and the steps of
its own request before it; and no key is registered twice in two spellings. -/
def NotOvertaken (heard : OpHeard κ) : Op → Bool → World κ → Prop
  | .netfw (.removeMember z ip), _, w => heard.Free parseKey w (.member z (addrToUint32 ip))
  | .netfw (.removeZoneRoute z p), _, w => heard.Free parseKey w (.route z (rangeElements p))
  | .wg (.removePeer publicKey), _, w =>
    ∀ key, parseKey publicKey = some key → heard.Free parseKey w (.peer key)
  | .wg (.setPeerRoutes publicKey _ _), _, w => heard.Current w publicKey
  | .store (.deleteOwnedNode _ nodeID), _, w => heard.Whole w nodeID
  | .store (.insertNode _ _ publicKey _ _ _), _, w =>
    ∀ n ∈ w.db.nodes, parseKey n.pubKey = parseKey publicKey → n.pubKey = publicKey
  | _, _, _ => True

end

section
variable {κ : Type} [DecidableEq κ] {parseKey : String → Option κ}

omit [DecidableEq κ] in
theorem DB.Distinct.exec {h : Server κ} {db : DB} (hd : db.Distinct h.parseKey) {o : StoreOp}
    (ho : o.Issued h) (hkey : ∀ userID name pubKey platform ip maxDevices,
      o = .insertNode userID name pubKey platform ip maxDevices →
      ∀ n ∈ db.nodes, h.parseKey n.pubKey = h.parseKey pubKey → n.pubKey = pubKey) :
    (o.exec db).2.Distinct h.parseKey := by
  have hc := o.exec_change db
  generalize (o.exec db).2 = db' at hc
  cases hc with
  | same => exact hd
  | removed _ sub => exact ⟨sub.canonical hd.canonical, sub.keysDecode hd.keys⟩
  | announcement ok =>
    obtain ⟨hpool, -, -, hlen⟩ := ho
    exact ⟨hd.canonical.announce (h.announcePool_valid _ hpool) (by omega) ok,
      hd.keys.isSome, hd.keys.distinct⟩
  | user | zone | member | attachment => exact ⟨hd.canonical, hd.keys.isSome, hd.keys.distinct⟩
  | node platform maxDevices _ _ _ key_free =>
    refine ⟨hd.canonical, fun n hn => ?_, fun n hn m hm heq => ?_⟩
    · rcases List.mem_append.mp hn with hn | hn
      · exact hd.keys.isSome n hn
      · rw [List.mem_singleton.mp hn]
        exact Option.isSome_iff_exists.mp ho.1
    · have hfresh := fun n hn heq => key_free n hn (hkey _ _ _ _ _ _ rfl n hn heq)
      rcases List.mem_append.mp hn with hn | hn <;> rcases List.mem_append.mp hm with hm | hm
      · exact hd.keys.distinct n hn m hm heq
      · rw [List.mem_singleton.mp hm] at heq
        exact absurd heq (hfresh n hn)
      · rw [List.mem_singleton.mp hn] at heq
        exact absurd heq.symm (hfresh m hm)
      · rw [List.mem_singleton.mp hn, List.mem_singleton.mp hm]

end

section
variable {κ : Type} [DecidableEq κ] (parseKey : String → Option κ)

/-- The ledger of what is missing: every operation takes effect or names something missing. -/
abbrev dutyLedger : Ledger Op Op.Res Bool (World κ) Duty :=
  dbLedger parseKey (fun _ e _ => e = false) (DB.Distinct parseKey) (World.Missing parseKey)

variable {parseKey} {w : World κ} {x : Duty} {α : Type}

/-! ### what takes away and what overwrites -/

theorem missing_removeMember {z : Int} {ip : Addr} {e : Bool}
    (hno : ¬ w.db.Backs parseKey (.member z (addrToUint32 ip)))
    (h : (sem parseKey (.netfw (.removeMember z ip)) e w).2.Missing parseKey x) :
    w.Missing parseKey x := by
  cases e with
  | true => exact h
  | false =>
    rw [sem_netfw_snd] at h
    have hspec := fun z' b => NetfwOp.removeMember_spec w.nft z ip z' b
    cases x with
    | member z' n =>
      obtain ⟨hn, hm, hgone⟩ := h
      refine ⟨hn, hm, fun hhas => hgone ((hspec z' n.ip).1.mpr ⟨hhas, ?_⟩)⟩
      rintro ⟨rfl, hip⟩
      exact hno ⟨_, hm, rfl, n, hn, rfl, hip⟩
    | route z' a =>
      obtain ⟨ha, haz, hgone⟩ := h
      refine ⟨ha, haz, fun hhas => hgone ?_⟩
      change ∃ s, _ ∧ _
      rwa [(hspec z' 0).2.2.1]
    | peer | key => exact h

theorem missing_removeZoneRoute {z : Int} {p : Prefix} {e : Bool}
    (hno : ¬ w.db.Backs parseKey (.route z (rangeElements p)))
    (h : (sem parseKey (.netfw (.removeZoneRoute z p)) e w).2.Missing parseKey x) :
    w.Missing parseKey x := by
  cases e with
  | true => exact h
  | false =>
    rw [sem_netfw_snd] at h
    have hspec := fun z' r => NetfwOp.removeZoneRoute_spec w.nft z p z' r
    cases x with
    | route z' a =>
      obtain ⟨ha, haz, hgone⟩ := h
      refine ⟨ha, haz, fun hhas => hgone ((hspec z' _).1.mpr ⟨hhas, ?_⟩)⟩
      rintro ⟨rfl, hrange⟩
      exact hno ⟨_, haz, rfl, a, ha, rfl, hrange⟩
    | member z' n =>
      obtain ⟨hn, hm, hgone⟩ := h
      refine ⟨hn, hm, fun hhas => hgone ?_⟩
      change ∃ s, _ ∧ _
      rwa [(hspec z' default).2.2.1]
    | peer | key => exact h

theorem missing_removePeer {publicKey : String} {e : Bool}
    (hno : ∀ key, parseKey publicKey = some key → ¬ w.db.HasKey parseKey key)
    (h : (sem parseKey (.wg (.removePeer publicKey)) e w).2.Missing parseKey x) :
    w.Missing parseKey x := by
  cases e with
  | true => exact h
  | false =>
    rw [sem_wg_snd] at h
    cases x with
    | member | route | key => exact h
    | peer n allowed =>
      obtain ⟨hn, hall, key, hkey, hlost⟩ := h
      refine ⟨hn, hall, key, hkey, fun hhas => hlost ?_⟩
      change WgOp.effect parseKey w.wg (.removePeer publicKey) key = some allowed
      cases hpub : parseKey publicKey with
      | none =>
        simp only [WgOp.effect, WgOp.exec, Device.removePeer, hpub]
        exact hhas
      | some key' =>
        rw [WgOp.effect_removePeer _ hpub, Function.update_of_ne ?_]
        · exact hhas
        · rintro rfl
          exact hno key hpub ⟨n, hn, hkey⟩

/-- Setting what the rows allow the node takes nothing from another, since no two are allowed the
same. -/
theorem missing_setPeerRoutes (hw : w.db.Wf) (hd : w.db.Distinct parseKey) {node : Node}
    (hnode : node ∈ w.db.nodes) {routes : List Prefix}
    (hroutes : allowedIPs (uint32ToAddr node.ip) routes = w.db.allowed node) {e : Bool}
    (h : (sem parseKey (.wg (.setPeerRoutes node.pubKey (uint32ToAddr node.ip) routes)) e w).2.Missing
      parseKey x) : w.Missing parseKey x := by
  cases e with
  | true => exact h
  | false =>
    rw [sem_wg_snd] at h
    cases x with
    | member | route | key => exact h
    | peer n allowed =>
      obtain ⟨hn, hall, key, hkey, hlost⟩ := h
      refine ⟨hn, hall, key, hkey, fun hhas => hlost ?_⟩
      obtain ⟨key', hkey'⟩ := hd.keys.isSome node hnode
      change WgOp.effect parseKey w.wg _ key = some allowed
      rw [WgOp.effect_setPeerRoutes _ hkey', Device.configurePeer, hroutes]
      by_cases hsame : n = node
      · obtain rfl : key = key' := Option.some.inj (hkey.symm.trans (hsame ▸ hkey'))
        rw [if_pos rfl, ← hsame]
        exact congrArg some hall
      · have hne : key ≠ key' := by
          rintro rfl
          exact hsame (hd.keys.distinct n hn node hnode (hkey.trans hkey'.symm))
        have hdisj := DB.allowed_disjoint hw hd.canonical hn hnode hsame
        change w.db.allowed n = allowed at hall
        rw [if_neg hne, show w.wg key = some allowed from hhas, Option.map_some, ← hall]
        exact congrArg some (Finset.sdiff_eq_self_of_disjoint hdisj)

theorem sem_netfw_error {o : NetfwOp} {e : KernelErr} (h : o.exec w.nft = .error e) :
    (sem parseKey (.netfw o) false w).1 = .error e := by
  simp only [sem, h]
  rfl

/-! ### what brings a thing back -/

theorem redeems_setPeerRoutes {n : Node} {routes : List Prefix} {allowed : Finset Prefix}
    (hroutes : allowedIPs (uint32ToAddr n.ip) routes = allowed)
    {k : Except KernelErr Unit → Handler α} : (dutyLedger parseKey).Redeems (.peer n allowed)
      (wg (.setPeerRoutes n.pubKey (uint32ToAddr n.ip) routes) >>= k) := by
  intro e s _ he
  obtain rfl : e = false := he.1
  exact .inl (not_missing_setPeerRoutes hroutes)

/-- A node's routes, read and then set: what is read is what the rows ask for at that moment. -/
theorem redeems_routes {n : Node} {allowed : Finset Prefix}
    {k : Except StoreErr (List Prefix) → Handler α}
    (hk : ∀ routes, allowedIPs (uint32ToAddr n.ip) routes = allowed →
      (dutyLedger parseKey).Redeems (.peer n allowed) (k (.ok routes))) :
    (dutyLedger parseKey).Redeems (.peer n allowed) (store (.routesForNode n.id) >>= k) := by
  intro e s _ he
  obtain rfl : e = false := he.1
  by_cases hall : s.db.allowed n = allowed
  · exact .inr (hk (s.db.routes n.id) hall)
  · left
    rintro ⟨-, hsame, -⟩
    exact hall hsame

theorem redeems_recomputePeer (n : Node) (allowed : Finset Prefix) :
    (dutyLedger parseKey).Redeems (.peer n allowed) (recomputePeer n.id n.pubKey (uint32ToAddr n.ip)) :=
  redeems_routes fun _ hroutes => redeems_setPeerRoutes hroutes

theorem not_member_leave {db : DB} {zoneID nodeID : Int} :
    ⟨zoneID, nodeID⟩ ∉ (db.leave zoneID nodeID).2.zoneMembers := by
  intro hmem
  rcases DB.leave_cases db zoneID nodeID with ⟨h, hno⟩ | ⟨h, -⟩
  · rw [h] at hmem
    exact hno hmem
  · rw [h] at hmem
    have hkept := (List.mem_filter.mp hmem).2
    simp at hkept

theorem redeems_addMember {zoneID : Int} {n : Node} {k : Except KernelErr Unit → Handler α}
    (hk : ∀ e, ∃ k', k (.error e) = (store (.leave zoneID n.id) >>= k')) :
    (dutyLedger parseKey).Redeems (.member zoneID n)
      (netfw (.addMember zoneID (uint32ToAddr n.ip)) >>= k) := by
  intro e s hs he
  obtain rfl : e = false := he.1
  have hspec := (NetfwOp.addMember_spec s.nft zoneID (uint32ToAddr n.ip) zoneID n.ip).1
  cases hset : s.nft.members zoneID with
  | some set =>
    left
    intro hmissing
    have hno : ¬ (sem parseKey (.netfw (.addMember zoneID (uint32ToAddr n.ip))) false s).2.nft.HasMember
        zoneID n.ip := hmissing.2.2
    rw [sem_netfw_snd] at hno
    exact hno (hspec.mpr (.inr ⟨rfl, rfl, by rw [hset]; rfl⟩))
  | none =>
    right
    have hexec : NetfwOp.exec (.addMember zoneID (uint32ToAddr n.ip)) s.nft = .error .missing := by
      simp only [NetfwOp.exec, Nft.addMember, hset]
    obtain ⟨k', hk'⟩ := hk .missing
    show (dutyLedger parseKey).Redeems _
      (k (sem parseKey (.netfw (.addMember zoneID (uint32ToAddr n.ip))) false s).1)
    rw [sem_netfw_error hexec, hk']
    intro e' s' _ he'
    obtain rfl : e' = false := he'.1
    exact .inl fun hmissing => not_member_leave hmissing.2.1

theorem not_attached_detach {db : DB} (hw : db.Wf) {zoneID annID : Int} :
    ⟨annID, zoneID⟩ ∉ (db.detach zoneID annID).2.announcementZones := by
  intro hmem
  rcases DB.detach_cases db zoneID annID with ⟨h, hno⟩ | ⟨a, -, -, h⟩
  · rw [h] at hmem
    obtain ⟨a, ha, hid⟩ := hw.attachment_announcement _ hmem
    exact hno a ((DB.announcementByID?_eq_some hw).mpr ⟨ha, hid⟩) hmem
  · rw [h] at hmem
    have hdel := (DB.sub_reclaimIfOrphaned (db.deleteAttachments _) annID).announcementZones.subset hmem
    have hkept := (List.mem_filter.mp hdel).2
    simp at hkept

theorem redeems_detach {zoneID : Int} {a : Announcement}
    {k : Except StoreErr (Announcement × Bool) → Handler α} :
    (dutyLedger parseKey).Redeems (.route zoneID a) (store (.detach zoneID a.id) >>= k) := by
  intro e s hs he
  obtain rfl : e = false := he.1
  exact .inl fun hmissing => not_attached_detach hs.1 hmissing.2.1

theorem redeems_addZoneRoute {zoneID : Int} {a : Announcement} {k : Except KernelErr Unit → Handler α}
    (hk : ∀ e, (dutyLedger parseKey).Redeems (.route zoneID a) (k (.error e))) :
    (dutyLedger parseKey).Redeems (.route zoneID a)
      (netfw (.addZoneRoute zoneID a.synthetic.toPrefix) >>= k) := by
  intro e s hs he
  obtain rfl : e = false := he.1
  have hspec := (NetfwOp.addZoneRoute_spec s.nft zoneID a.synthetic.toPrefix zoneID
    (rangeElements a.synthetic.toPrefix)).1
  cases hset : s.nft.routes zoneID with
  | some set =>
    left
    intro hmissing
    have hno : ¬ (sem parseKey (.netfw (.addZoneRoute zoneID a.synthetic.toPrefix)) false s).2.nft.HasRoute
        zoneID (rangeElements a.synthetic.toPrefix) := hmissing.2.2
    rw [sem_netfw_snd] at hno
    exact hno (hspec.mpr (.inr ⟨rfl, rfl, by rw [hset]; rfl⟩))
  | none =>
    right
    have hexec : NetfwOp.exec (.addZoneRoute zoneID a.synthetic.toPrefix) s.nft = .error .missing := by
      simp only [NetfwOp.exec, Nft.addZoneRoute, hset]
    show (dutyLedger parseKey).Redeems _
      (k (sem parseKey (.netfw (.addZoneRoute zoneID a.synthetic.toPrefix)) false s).1)
    rw [sem_netfw_error hexec]
    exact hk .missing

/-! ### what a request knows of its own steps -/

/-- One of the request's own steps has left nothing that backs `x`. -/
def OpHeard.Freed (parseKey : String → Option κ) (heard : OpHeard κ) (x : Grant κ) : Prop :=
  ∃ y ∈ heard, ¬ y.2.db.Backs parseKey x

/-- The node was there at one of the request's own steps. -/
def OpHeard.Found (heard : OpHeard κ) (node : Node) : Prop := ∃ y ∈ heard, node ∈ y.2.db.nodes

variable {heard more : OpHeard κ}

omit [DecidableEq κ] in
theorem OpHeard.Freed.mono {g : Grant κ} (h : heard.Freed parseKey g) (hmore : heard <:+ more) :
    more.Freed parseKey g := by
  obtain ⟨y, hy, hno⟩ := h
  exact ⟨y, hmore.subset hy, hno⟩

omit [DecidableEq κ] in
theorem OpHeard.Found.mono {node : Node} (h : heard.Found node) (hmore : heard <:+ more) :
    more.Found node := by
  obtain ⟨y, hy, hn⟩ := h
  exact ⟨y, hmore.subset hy, hn⟩

omit [DecidableEq κ] in
theorem OpHeard.Free.not_backs {g : Grant κ} (h : heard.Free parseKey w g)
    (hfreed : heard.Freed parseKey g) :
    ¬ w.db.Backs parseKey g := by
  obtain ⟨y, hy, hno⟩ := hfreed
  exact fun hb => hno (h y hy hb)

omit [DecidableEq κ] in
theorem DB.freed_leave {db : DB} (hw : db.Wf) {node : Node} (hnode : db.KnowsNode node) {zoneID : Int}
    (hok : (db.leave zoneID node.id).1 = .ok ()) :
    ¬ (db.leave zoneID node.id).2.Backs parseKey (.member zoneID node.ip) := by
  rintro ⟨m, hm, rfl, n, hn, hid, hip⟩
  rcases DB.leave_cases db m.zoneID node.id with ⟨h, -⟩ | ⟨h, hmem⟩
  · rw [h] at hok
    cases hok
  · have hsub := DB.sub_leave db m.zoneID node.id
    obtain ⟨n', hn', hid'⟩ := hw.member_node _ hmem
    obtain rfl := hnode.2 n' hn' hid'
    obtain rfl : n = n' := hw.node_ip n (hsub.nodes.subset hn) n' hn' hip
    exact not_member_leave (hid ▸ hm)

omit [DecidableEq κ] in
theorem DB.freed_detach {db : DB} (hw : db.Wf) (hc : db.Canonical) {ann : Announcement}
    (hann : db.KnowsAnnouncement ann) {zoneID annID : Int} (hid : ann.id = annID)
    {r : Announcement × Bool}
    (hok : (db.detach zoneID annID).1 = .ok r) :
    ¬ (db.detach zoneID annID).2.Backs parseKey
      (.route zoneID (rangeElements ann.synthetic.toPrefix)) := by
  subst hid
  rintro ⟨az, haz, rfl, b, hb, hid, hrange⟩
  rcases DB.detach_cases db az.zoneID ann.id with ⟨h, -⟩ | ⟨a, ha, -, h⟩
  · rw [h] at hok
    cases hok
  · obtain ⟨hmem, haid⟩ := (DB.announcementByID?_eq_some hw).mp ha
    obtain rfl := hann.2 a hmem haid
    have hbold : b ∈ db.announcements := by
      rw [h] at hb
      exact (DB.sub_detachOne db a.id az.zoneID).announcements.subset hb
    obtain rfl := hc.range_inj hw hbold hmem hrange
    exact not_attached_detach hw (hid ▸ haz)

omit [DecidableEq κ] in
theorem DB.freed_detachEach {db : DB} (hw : db.Wf) (hc : db.Canonical) {zoneID : Int}
    {recs : List Announcement} (hrecs : ∀ a ∈ recs, a ∈ db.announcements) {det : DetachedRoute}
    (hdet : det ∈ (detachEach zoneID recs db).1) :
    ¬ (detachEach zoneID recs db).2.Backs parseKey (.route zoneID (rangeElements det.synthetic)) := by
  obtain ⟨a, ha, hsyn⟩ := DB.synthetic_of_mem_detachEach hdet
  rw [hsyn]
  rintro ⟨az, haz, rfl, b, hb, hid, hrange⟩
  have hsub := DB.sub_detachEach az.zoneID recs db
  obtain rfl := hc.range_inj hw (hsub.announcements.subset hb) (hrecs a ha) hrange
  have hatt : ⟨b.id, az.zoneID⟩ ∈ (detachEach az.zoneID recs db).2.announcementZones := by
    rw [hid]
    exact haz
  exact DB.detachEach_detaches ha hatt

omit [DecidableEq κ] in
theorem DB.freed_deleteOwnedNode {db : DB} (hw : db.Wf) (hd : db.Distinct parseKey) {userID : Int}
    {node : Node}
    (hnode : node ∈ db.nodes) (howner : node.userID = userID) :
    (∀ z, ¬ (db.deleteOwnedNode userID node.id).2.Backs parseKey (.member z node.ip)) ∧
    (∀ a ∈ db.announcements, a.nodeID = node.id → ∀ z,
      ¬ (db.deleteOwnedNode userID node.id).2.Backs parseKey
        (.route z (rangeElements a.synthetic.toPrefix))) ∧
    ∀ key, parseKey node.pubKey = some key →
      ¬ (db.deleteOwnedNode userID node.id).2.HasKey parseKey key := by
  have hgone : node ∉ (db.deleteOwnedNode userID node.id).2.nodes := by
    intro hmem
    have hkept := (DB.mem_deleteNodes.mp hmem).2
    simp [howner] at hkept
  have hsub := DB.sub_deleteNodes db fun n => n.id = node.id ∧ n.userID = userID
  refine ⟨?_, ?_, ?_⟩
  · rintro z ⟨m, -, -, n, hn, -, hip⟩
    obtain rfl : n = node := hw.node_ip n (hsub.nodes.subset hn) node hnode hip
    exact hgone hn
  · rintro a ha hof z ⟨az, -, -, b, hb, -, hrange⟩
    obtain rfl := hd.canonical.range_inj hw (hsub.announcements.subset hb) ha hrange
    obtain ⟨n, hn, hid⟩ := (hw.deleteNodes _).announcement_node b hb
    obtain rfl := hw.nodes_asc.keyed n (hsub.nodes.subset hn) node hnode (hid.trans hof)
    exact hgone hn
  · rintro key hkey ⟨n, hn, hkey'⟩
    obtain rfl := hd.keys.distinct n (hsub.nodes.subset hn) node hnode (hkey'.trans hkey.symm)
    exact hgone hn

/-! ### the steps that take away or overwrite -/

theorem pays_free_member {z : Int} {ip : Addr}
    (hfreed : heard.Freed parseKey (.member z (addrToUint32 ip)))
    {k : Except KernelErr Unit → Handler α} (hk : ∀ r t, w.db.After t.db →
      (dutyLedger parseKey).Pays (NotOvertaken parseKey)
        ((⟨.netfw (.removeMember z ip), r⟩, t) :: heard) t (k r)) :
    (dutyLedger parseKey).Pays (NotOvertaken parseKey) heard w (netfw (.removeMember z ip) >>= k) :=
  pays_netfw (fun _ _ _ _ _ _ hstill => missing_removeMember (OpHeard.Free.not_backs hstill hfreed))
    fun r t ht _ => hk r t ht

theorem pays_free_route {z : Int} {p : Prefix}
    (hfreed : heard.Freed parseKey (.route z (rangeElements p)))
    {k : Except KernelErr Unit → Handler α} (hk : ∀ r t, w.db.After t.db →
      (dutyLedger parseKey).Pays (NotOvertaken parseKey)
        ((⟨.netfw (.removeZoneRoute z p), r⟩, t) :: heard) t (k r)) :
    (dutyLedger parseKey).Pays (NotOvertaken parseKey) heard w (netfw (.removeZoneRoute z p) >>= k) :=
  pays_netfw (fun _ _ _ _ _ _ hstill => missing_removeZoneRoute (OpHeard.Free.not_backs hstill hfreed))
    fun r t ht _ => hk r t ht

theorem pays_free_peer {publicKey : String}
    (hfreed : ∀ key, parseKey publicKey = some key → heard.Freed parseKey (.peer key))
    {k : Except KernelErr Unit → Handler α} (hk : ∀ r t, w.db.After t.db →
      (dutyLedger parseKey).Pays (NotOvertaken parseKey)
        ((⟨.wg (.removePeer publicKey), r⟩, t) :: heard) t (k r)) :
    (dutyLedger parseKey).Pays (NotOvertaken parseKey) heard w (wg (.removePeer publicKey) >>= k) :=
  pays_wg (fun _ _ _ _ _ _ hstill => missing_removePeer fun key hkey =>
    OpHeard.Free.not_backs (hstill key hkey) (hfreed key hkey)) fun r t ht _ => hk r t ht

theorem pays_own_peer {node : Node} {routes : List Prefix} {said : Sigma Op.Res} {s : World κ}
    (hfound : OpHeard.Found ((said, s) :: heard) node)
    (hroutes : allowedIPs (uint32ToAddr node.ip) routes = allowedIPs (uint32ToAddr node.ip)
      (s.db.routes node.id))
    {k : Except KernelErr Unit → Handler α} (hk : ∀ t, w.db.After t.db →
      (dutyLedger parseKey).Pays (NotOvertaken parseKey)
        ((⟨.wg (.setPeerRoutes node.pubKey (uint32ToAddr node.ip) routes), .ok ()⟩, t) ::
          (said, s) :: heard) t
        (k (.ok ()))) :
    (dutyLedger parseKey).Pays (NotOvertaken parseKey) ((said, s) :: heard) w
      (wg (.setPeerRoutes node.pubKey (uint32ToAddr node.ip) routes) >>= k) := by
  intro e t ht hI he hstill
  obtain rfl : e = false := he.1
  have hthere : node ∈ t.db.nodes := by
    obtain ⟨y, hy, hn⟩ := hfound
    exact hstill.node y hy node hn rfl
  have hsame : t.db.routes node.id = s.db.routes node.id := hstill.routes _ rfl node hthere rfl
  refine ⟨fun x hx => .inl (missing_setPeerRoutes hI.1 hI.2 hthere ?_ hx), ?_⟩
  · rw [hroutes, ← hsame]
    rfl
  · obtain ⟨key, hkey⟩ := hI.2.keys.isSome node hthere
    have hres : (sem parseKey (.wg (.setPeerRoutes node.pubKey
      (uint32ToAddr node.ip) routes)) false t).1 =
        .ok () := by
      simp only [sem, WgOp.exec, Device.setPeerRoutes, hkey]
      rfl
    have hafter := (dutyLedger parseKey).after_step
      (.wg (.setPeerRoutes node.pubKey (uint32ToAddr node.ip) routes)) false t hI he
    have hnext := hk _ (ht.trans hafter)
    rwa [← hres] at hnext

theorem pays_duty_recomputePeer {node : Node} (hfound : heard.Found node) :
    (dutyLedger parseKey).Pays (NotOvertaken parseKey) heard w
      (recomputePeer node.id node.pubKey (uint32ToAddr node.ip)) := by
  refine pays_read (fun _ => rfl) fun r t _ _ hr => ?_
  rcases r with _ | routes
  · trivial
  · have hread : routes = t.db.routes node.id := Except.ok.inj (hr.resolve_left fun h => by cases h.1)
    exact pays_own_peer (hfound.mono (List.suffix_cons _ _)) (by rw [hread]) fun _ _ => trivial

/-! ### nodes and memberships -/

omit [DecidableEq κ] in
theorem missing_of_sameRoutes {db' : DB} (hs : DB.Sub db' w.db)
    (hsame : ∀ n ∈ db'.nodes, DB.SameRoutes db' w.db n.id)
    (h : World.Missing parseKey { w with db := db' } x) : w.Missing parseKey x := by
  rcases missing_of_sub hs h with h | ⟨n, allowed, rfl, hn, hne⟩
  · exact h
  · exact absurd (hsame n hn) hne

omit [DecidableEq κ] in
theorem missing_join {db : DB} {zoneID nodeID : Int}
    (h : World.Missing parseKey { w with db := (db.join zoneID nodeID).2 } x) :
    World.Missing parseKey { w with db := db } x ∨
      (db.join zoneID nodeID).1 = .ok () ∧ ∃ n ∈ db.nodes, n.id = nodeID ∧ x = .member zoneID n := by
  rcases @DB.join_cases db zoneID nodeID with ⟨hj, -⟩ | ⟨hj, -⟩ | ⟨hj, -⟩
  · rw [hj] at h
    exact .inl h
  · rw [hj] at h
    exact .inl h
  · rw [hj] at h ⊢
    cases x with
    | member z n =>
      obtain ⟨hn, hm, hno⟩ := h
      rcases List.mem_append.mp hm with hold | hnew
      · exact .inl ⟨hn, hold, hno⟩
      · obtain ⟨rfl, hid⟩ : z = zoneID ∧ n.id = nodeID := by simpa using hnew
        exact .inr ⟨rfl, n, hn, hid, rfl⟩
    | route | peer | key => exact .inl h

theorem pays_duty_joinNode {zone : Zone} {node : Node} (hnode : w.db.KnowsNode node) :
    (dutyLedger parseKey).Pays (NotOvertaken parseKey) heard w (joinNode zone node) := by
  refine pays_store_redeeming (fun t x ht hw _ _ hx => ?_) fun r _ _ _ _ => ?_
  · rcases missing_join hx with h | ⟨hok, n, hn, hid, rfl⟩
    · exact .inl h
    · obtain rfl := (hnode.after ht).2 n hn hid
      have hexec : ((StoreOp.join zone.id n.id).exec t.db).1 = .ok () := hok
      rw [hexec]
      exact .inr (redeems_addMember fun e => ⟨_, rfl⟩)
  rcases r with _ | _
  · trivial
  refine pays_netfw (fun e t x _ _ _ _ => missing_netfw id) fun r _ _ _ => ?_
  rcases r with _ | _
  · refine pays_store (fun t x _ hw _ hx => ?_) fun _ _ _ _ _ => trivial
    exact missing_of_sameRoutes (DB.sub_leave t.db _ _) (fun n _ => DB.sameRoutes_leave _ _ _) hx
  · trivial

theorem pays_duty_joinZone (h : Server κ) (id : Option Identity) (name : String)
    (body : Option JoinZoneRequest) :
    (dutyLedger parseKey).Pays (NotOvertaken parseKey) heard w (joinZone h id name body) := by
  refine pays_authenticated fun id => pays_decoded fun req => ?_
  split_ifs
  · trivial
  refine pays_namedZone fun zone _ _ _ _ => ?_
  split_ifs
  · trivial
  · exact pays_ownedNode fun node _ _ hw hnode _ => pays_duty_joinNode (hw.1.knowsNode hnode)

omit [DecidableEq κ] in
theorem missing_insertNode {db : DB} (hw : db.Wf) {userID : Int} {name pubKey platform : String}
    {ip : BitVec 32} {maxDevices : Int}
    (h : World.Missing parseKey { w with
      db := (db.insertNode userID name pubKey platform ip maxDevices).2 } x) :
    World.Missing parseKey { w with db := db } x ∨
      (db.insertNode userID name pubKey platform ip maxDevices).1 = .ok (some (db.seqNodes + 1)) ∧
        (x = .peer ⟨db.seqNodes + 1, userID, name, pubKey, ip, platform⟩
          (allowedIPs (uint32ToAddr ip) []) ∨
          parseKey pubKey = none) := by
  rcases @DB.insertNode_cases db userID name pubKey platform ip maxDevices with ⟨hsame, -⟩ | ⟨hnew, -⟩
  · rw [hsame] at h
    exact .inl h
  · rw [hnew] at h ⊢
    have hcases : ∀ n ∈ (db.addNode userID name pubKey ip platform).nodes, n ∈ db.nodes ∨
        n = ⟨db.seqNodes + 1, userID, name, pubKey, ip, platform⟩ := by
      intro n hn
      exact (List.mem_append.mp hn).imp id List.mem_singleton.mp
    cases x with
    | member z n =>
      obtain ⟨hn, hm, hno⟩ := h
      obtain ⟨m, hmem, hid⟩ := hw.member_node _ hm
      have hle := hw.nodes_seq m hmem
      rcases hcases n hn with hold | rfl
      · exact .inl ⟨hold, hm, hno⟩
      · simp only at hid
        omega
    | route => exact .inl h
    | peer n allowed =>
      obtain ⟨hn, hall, hno⟩ := h
      rcases hcases n hn with hold | rfl
      · exact .inl ⟨hold, hall, hno⟩
      · rw [DB.allowed_addNode hw] at hall
        exact .inr ⟨rfl, .inl (hall ▸ rfl)⟩
    | key n =>
      obtain ⟨hn, hno⟩ := h
      rcases hcases n hn with hold | rfl
      · exact .inl ⟨hold, hno⟩
      · exact .inr ⟨rfl, .inr hno⟩

theorem DB.insertNode_allowed {db : DB} (hw : db.Wf) {userID : Int} {name pubKey platform : String}
    {ip : BitVec 32} {maxDevices id : Int}
    (h : (db.insertNode userID name pubKey platform ip maxDevices).1 = .ok (some id)) :
    (db.insertNode userID name pubKey platform ip maxDevices).2.allowed
      ⟨id, userID, name, pubKey, ip, platform⟩ = allowedIPs (uint32ToAddr ip) [] := by
  rcases @DB.insertNode_cases db userID name pubKey platform ip maxDevices with ⟨-, hno⟩ | ⟨hnew, -⟩
  · exact absurd h (hno id)
  · rw [hnew] at h ⊢
    obtain rfl := Option.some.inj (Except.ok.inj h)
    exact DB.allowed_addNode hw

theorem pays_duty_assoc {β : Type} {o : StoreOp} {k : Except StoreErr o.Val → Handler α}
    {f : α → Handler β}
    (h : (dutyLedger parseKey).Pays (NotOvertaken parseKey) heard w (store o >>= fun r => k r >>= f)) :
    (dutyLedger parseKey).Pays (NotOvertaken parseKey) heard w ((store o >>= k) >>= f) := h

/-- The row is inserted for a key that decodes; what follows adds the peer. -/
theorem pays_duty_createNode {userID : Int} {name pubKey platform : String} {first last : BitVec 32}
    {maxDevices : Int} (hkey : parseKey pubKey ≠ none) {f : Except StoreErr Node → Handler Response}
    (herr : ∀ e more t, (dutyLedger parseKey).Pays (NotOvertaken parseKey) more t (f (.error e)))
    (hok : ∀ node more said (t : World κ), node ∈ t.db.nodes →
      t.db.allowed node = allowedIPs (uint32ToAddr node.ip) [] →
      (dutyLedger parseKey).Pays (NotOvertaken parseKey) ((said, t) :: more) t (f (.ok node)))
    (hpeer : ∀ node : Node, (dutyLedger parseKey).Redeems
      (.peer node (allowedIPs (uint32ToAddr node.ip) [])) (f (.ok node))) (retries : Nat) :
    (dutyLedger parseKey).Pays (NotOvertaken parseKey) heard w
      (createNode userID name pubKey platform first last maxDevices retries >>= f) := by
  induction retries generalizing heard w with
  | zero => exact herr _ _ _
  | succ retries ih =>
    refine pays_duty_assoc (pays_read (fun _ => rfl) fun r t _ _ _ => ?_)
    rcases r with _ | _ | ip
    · exact herr _ _ _
    · exact herr _ _ _
    refine pays_duty_assoc (pays_store_redeeming (fun t x _ hw _ _ hx => ?_) fun r u _ _ hr => ?_)
    · rcases missing_insertNode hw.1 hx with h | ⟨hres, hnew⟩
      · exact .inl h
      · right
        have hexec : ((StoreOp.insertNode userID name pubKey platform ip maxDevices).exec t.db).1 =
            .ok (some (t.db.seqNodes + 1)) := hres
        rw [hexec, hnew.resolve_right hkey]
        exact hpeer _
    rcases r with e | _ | id
    · dsimp only
      split_ifs
      · exact ih
      all_goals exact herr _ _ _
    · exact herr _ _ _
    · obtain ⟨db, -, hwdb, -, hres, hdb⟩ := hr.resolve_left fun h => by cases h.1
      refine hok _ _ _ _ ?_ ?_
      · exact hdb ▸ DB.insertNode_mem hres.symm
      · rw [hdb]
        exact DB.insertNode_allowed hwdb hres.symm

theorem pays_duty_registerNode (h : Server κ) (hparse : h.parseKey = parseKey) (id : Option Identity)
    (body : Option RegisterNodeRequest) :
    (dutyLedger parseKey).Pays (NotOvertaken parseKey) heard w (registerNode h id body) := by
  refine pays_authenticated fun id => pays_decoded fun req => ?_
  dsimp only
  generalize (if req.platform = "" then "unknown" else req.platform) = platform
  generalize trimSpace req.name = name
  split_ifs with _ hkey
  iterate 3 trivial
  cases poolRange h.network with
  | none => trivial
  | some range =>
    have hkey' : parseKey req.wgPubKey ≠ none := by
      rw [← hparse]
      intro hnone
      exact hkey (by rw [hnone]; rfl)
    refine pays_duty_createNode hkey' (fun e _ t => ?_) (fun node more said t hnode hnone => ?_)
      (fun node => ?_) _
    · trivial
    · exact pays_own_peer ⟨_, List.mem_cons_self, hnode⟩ hnone.symm fun _ _ => trivial
    · exact redeems_setPeerRoutes rfl

/-- Once the node is gone nobody else has its address, its key or a range of its announcements. -/
theorem pays_deleteOwnedNode {userID nodeID : Int} {node : Node} (hfound : heard.Found node)
    (hid : node.id = nodeID) (howner : node.userID = userID) {k : Except StoreErr Unit → Handler α}
    (hk : ∀ more t, heard <:+ more → w.db.After t.db →
      (∀ z, OpHeard.Freed parseKey more (.member z node.ip)) →
      (∀ a, (∃ y ∈ heard, a ∈ y.2.db.announcements) → a.nodeID = nodeID → ∀ z,
        OpHeard.Freed parseKey more (.route z (rangeElements a.synthetic.toPrefix))) →
      (∀ key, parseKey node.pubKey = some key → OpHeard.Freed parseKey more (.peer key)) →
      (dutyLedger parseKey).Pays (NotOvertaken parseKey) more t (k (.ok ()))) :
    (dutyLedger parseKey).Pays (NotOvertaken parseKey) heard w
      (store (.deleteOwnedNode userID nodeID) >>= k) := by
  subst hid
  intro e t ht hI he hstill
  obtain rfl : e = false := he.1
  have hthere : node ∈ t.db.nodes := by
    obtain ⟨y, hy, hn⟩ := hfound
    exact hstill.node y hy node hn rfl
  obtain ⟨hmember, hroute, hpeer⟩ := DB.freed_deleteOwnedNode hI.1 hI.2 hthere howner
  refine ⟨fun x hx => .inl ?_, hk _ _ (List.suffix_cons _ _) ?_ ?_ ?_ ?_⟩
  · exact missing_of_sameRoutes (DB.sub_deleteNodes t.db _)
      (fun n hn => DB.sameRoutes_deleteNodes hI.1 hn) hx
  · exact ht.trans ((dutyLedger parseKey).after_step
      (.store (.deleteOwnedNode userID node.id)) false t hI he)
  · exact fun z => ⟨_, List.mem_cons_self, hmember z⟩
  · rintro a ⟨y, hy, ha⟩ hof z
    exact ⟨_, List.mem_cons_self, hroute a (hstill.announcements y hy a ha hof) hof z⟩
  · exact fun key hkey => ⟨_, List.mem_cons_self, hpeer key hkey⟩

theorem pays_duty_deleteNode (id : Option Identity) (path : String) :
    (dutyLedger parseKey).Pays (NotOvertaken parseKey) heard w (deleteNode id path) := by
  refine pays_authenticated fun id => pays_pathID fun nodeID =>
    pays_ownedNode fun node s _ hs hnode hid => ?_
  refine pays_read (fun _ => rfl) fun r t ht _ _ => ?_
  rcases r with _ | zoneIDs
  · trivial
  refine pays_read (fun _ => rfl) fun r u hu hwu hr => ?_
  rcases r with _ | attachments
  · trivial
  have hatts : attachments = u.db.nodeAttachments nodeID :=
    Except.ok.inj (hr.resolve_left fun h => by cases h.1)
  refine pays_duty_assoc (pays_read (fun _ => rfl) fun r v hv _ hr => ?_)
  rcases r with e | pubKey
  · cases e <;> trivial
  have howner : node.userID = id.userID := by
    have hread : Except.ok pubKey = v.db.ownedPubKey id.userID nodeID :=
      hr.resolve_left fun h => by cases h.1
    cases hget : v.db.getOwned id.userID nodeID with
    | error e =>
      rw [DB.ownedPubKey, hget] at hread
      cases hread
    | ok n =>
      obtain ⟨hn, hnid, hnowner⟩ := DB.getOwned_ok hget
      rwa [← ((hs.1.knowsNode hnode).after ((ht.trans hu).trans hv)).2 n hn (hnid.trans hid.symm)]
  refine pays_duty_assoc (pays_deleteOwnedNode ?_ hid howner fun more t' hmore _ hmember hroute hpeer => ?_)
  · exact ⟨_, List.mem_cons_of_mem _ (List.mem_cons_of_mem _
      (List.mem_cons_of_mem _ List.mem_cons_self)), hnode⟩
  refine pays_free_peer hpeer fun _ _ _ => ?_
  refine Pays.bind (pays_forEach fun zid _ _ _ hmore' _ => ?_) fun _ _ _ hmore' _ => ?_
  · exact pays_free_member ((hmember zid).mono
      ((List.suffix_cons _ _).trans hmore')) fun _ _ _ => trivial
  refine Pays.bind (pays_forEach fun att hatt _ _ hmore'' _ => ?_) fun _ _ _ _ _ => trivial
  rw [hatts, mem_nodeAttachments hwu.1] at hatt
  obtain ⟨az, -, a, ha, -, hof, rfl⟩ := hatt
  refine pays_free_route (OpHeard.Freed.mono (hroute a ?_ hof az.zoneID) ?_) fun _ _ _ => trivial
  · exact ⟨_, List.mem_cons_of_mem _ List.mem_cons_self, ha⟩
  · exact ((List.suffix_cons _ _).trans hmore').trans hmore''

/-! ### taking announcements away -/

theorem pays_duty_cascade {node : Node} {zoneID : Int} (hnode : w.db.KnowsNode node)
    (hfound : heard.Found node) :
    (dutyLedger parseKey).Pays (NotOvertaken parseKey) heard w
      (cascadeNodeZoneAnnouncements node zoneID) := by
  refine pays_store_redeeming (fun t x ht hw _ _ hx => ?_) fun r t _ _ hr => ?_
  · have hrecs : ∀ a ∈ (t.db.announcementsInZone zoneID).filter (·.nodeID = node.id),
        t.db.KnowsAnnouncement a := by
      intro a ha
      exact hw.1.knowsAnnouncement ((DB.mem_announcementsInZone hw.1).mp (List.mem_of_mem_filter ha)).1
    rcases missing_of_sub (DB.sub_detachEach zoneID _ t.db) hx with h | ⟨n, allowed, rfl, hn, hchanged⟩
    · exact .inl h
    · right
      have hid : n.id = node.id := by
        by_contra hne
        refine hchanged (DB.sameRoutes_detachEach hw.1 hrecs (.inr fun a ha heq => hne ?_))
        have hof : a.nodeID = node.id := by simpa using (List.mem_filter.mp ha).2
        exact heq.symm.trans hof
      have hsome : (DB.detachEach zoneID ((t.db.announcementsInZone zoneID).filter (·.nodeID = node.id))
          t.db).1.any (·.reclaimed) = true := by
        by_contra hnone
        refine hchanged (DB.sameRoutes_detachEach hw.1 hrecs (.inl ?_))
        simpa using hnone
      obtain rfl := (hnode.after ht).2 n ((DB.sub_detachEach zoneID _ t.db).nodes.subset hn) hid
      refine redeems_bind_right _ fun _ => ?_
      rw [if_pos hsome]
      exact redeems_recomputePeer n allowed
  · rcases r with _ | dets
    · trivial
    obtain ⟨db, -, hwdb, hd, hres, hdb⟩ := hr.resolve_left fun h => by cases h.1
    have hdets : dets = (DB.detachEach zoneID
      ((db.announcementsInZone zoneID).filter (·.nodeID = node.id)) db).1 :=
      Except.ok.inj hres
    refine Pays.bind (pays_forEach fun det hdet _ _ hmore _ => ?_) fun _ _ _ hmore _ => ?_
    · refine pays_free_route (OpHeard.Freed.mono ⟨_, List.mem_cons_self, ?_⟩ hmore) fun _ _ _ => trivial
      rw [hdb]
      refine DB.freed_detachEach hwdb hd.canonical (fun a ha => ?_) (hdets ▸ hdet)
      exact ((DB.mem_announcementsInZone hwdb).mp (List.mem_of_mem_filter ha)).1
    · split_ifs
      · exact pays_duty_recomputePeer (hfound.mono ((List.suffix_cons _ _).trans hmore))
      · trivial

theorem pays_duty_removeFromZone {zone : Zone} {node : Node} (hnode : w.db.KnowsNode node)
    (hfound : heard.Found node) :
    (dutyLedger parseKey).Pays (NotOvertaken parseKey) heard w (removeFromZone zone node) := by
  refine pays_store_redeeming (fun t x _ _ _ _ hx => .inl ?_) fun r t ht _ hr => ?_
  · exact missing_of_sameRoutes (DB.sub_leave t.db _ _) (fun n _ => DB.sameRoutes_leave _ _ _) hx
  · rcases r with e | _
    · cases e <;> trivial
    obtain ⟨db, hafter, hwdb, -, hres, hdb⟩ := hr.resolve_left fun h => by cases h.1
    refine pays_free_member ⟨_, List.mem_cons_self, ?_⟩ fun _ u hu => ?_
    · rw [hdb]
      exact DB.freed_leave hwdb (hnode.after hafter) hres.symm
    · refine Pays.bind (pays_duty_cascade ((hnode.after ht).after hu) ?_) fun _ _ _ _ _ => trivial
      exact hfound.mono ((List.suffix_cons _ _).trans (List.suffix_cons _ _))

theorem pays_duty_leaveZone (id : Option Identity) (name : String) (body : Option LeaveZoneRequest) :
    (dutyLedger parseKey).Pays (NotOvertaken parseKey) heard w (leaveZone id name body) :=
  pays_authenticated fun _ => pays_decoded fun _ => pays_namedZone fun _ _ _ _ _ =>
    pays_ownedNode fun _ _ _ hw hnode _ =>
      pays_duty_removeFromZone (hw.1.knowsNode hnode) ⟨_, List.mem_cons_self, hnode⟩

theorem pays_duty_kickMember (id : Option Identity) (name path : String) :
    (dutyLedger parseKey).Pays (NotOvertaken parseKey) heard w (kickMember id name path) := by
  refine pays_authenticated fun _ => pays_ownedZone fun _ _ _ _ _ => pays_pathID fun nodeID =>
    pays_read (fun _ => rfl) fun r t _ hw hr => ?_
  rcases r with e | node
  · cases e <;> trivial
  · have hread : Except.ok node = t.db.getNodeByID nodeID := hr.resolve_left fun h => by cases h.1
    have hnode := (DB.getNodeByID_ok hread.symm).1
    exact pays_duty_removeFromZone (hw.1.knowsNode hnode) ⟨_, List.mem_cons_self, hnode⟩

omit [DecidableEq κ] in
/-- Detaching makes a peer wrong only where it reclaims the announcement, and says so. -/
theorem missing_detach {db : DB} {zoneID annID : Int}
    (h : World.Missing parseKey { w with db := (db.detach zoneID annID).2 } x) :
    World.Missing parseKey { w with db := db } x ∨ ∃ a n allowed, x = .peer n allowed ∧
      a ∈ db.announcements ∧ a.id = annID ∧ n ∈ db.nodes ∧ n.id = a.nodeID ∧
      ∃ b, (db.detach zoneID annID).1 = .ok (b, true) := by
  rcases DB.detach_cases db zoneID annID with ⟨hd, -⟩ | ⟨b, -, -, hd⟩
  · rw [hd] at h
    exact .inl h
  · rw [hd] at h ⊢
    have hsub := DB.sub_detachOne db annID zoneID
    rcases missing_of_sub (w := { w with db := db }) hsub h with h | ⟨n, allowed, rfl, hn, hchanged⟩
    · exact .inl h
    · right
      have hwhose : ∃ a ∈ db.announcements, a.id = annID ∧ a.nodeID = n.id := by
        by_contra hnone
        push Not at hnone
        exact hchanged (DB.sameRoutes_detachOne (.inr hnone))
      have hreclaimed : (db.deleteAttachments (· = ⟨annID, zoneID⟩)).attached annID = false := by
        by_contra hatt
        refine hchanged (DB.sameRoutes_detachOne (.inl ?_))
        rw [DB.reclaimIfOrphaned, if_pos (by simpa using hatt)]
      obtain ⟨a, ha, hid, hof⟩ := hwhose
      exact ⟨a, n, allowed, rfl, ha, hid, hsub.nodes.subset hn, hof.symm, b, by rw [hreclaimed]; rfl⟩

theorem pays_duty_deleteAnnouncement (id : Option Identity) (name path : String) :
    (dutyLedger parseKey).Pays (NotOvertaken parseKey) heard w (deleteAnnouncement id name path) := by
  refine pays_authenticated fun id => pays_memberZone fun zone more _ _ _ => pays_pathID fun annID =>
    pays_read (fun _ => rfl) fun r s _ hw hr => ?_
  rcases r with e | ann
  · cases e <;> trivial
  have hread : Except.ok ann = s.db.getAnnouncement annID := hr.resolve_left fun h => by cases h.1
  obtain ⟨hann, hannID⟩ := DB.getAnnouncement_ok hread.symm
  have hknown := hw.1.knowsAnnouncement hann
  refine pays_read (fun _ => rfl) fun r v hv hw hr => ?_
  rcases r with _ | node
  · trivial
  have hread : Except.ok node = v.db.getNodeByID ann.nodeID := hr.resolve_left fun h => by cases h.1
  obtain ⟨hnode, hnodeID⟩ := DB.getNodeByID_ok hread.symm
  have hknownNode := hw.1.knowsNode hnode
  have hfound : OpHeard.Found ((⟨.store (.getNodeByID ann.nodeID), .ok node⟩, v) ::
      (⟨.store (.getAnnouncement annID), .ok ann⟩, s) :: more) node := ⟨_, List.mem_cons_self, hnode⟩
  change (dutyLedger parseKey).Pays (NotOvertaken parseKey) _ _ (if _ then _ else _)
  split_ifs
  · trivial
  refine pays_store_redeeming (fun t x ht _ _ _ hx => ?_) fun r _ _ _ hr => ?_
  · rcases missing_detach hx with h | ⟨a, n, allowed, rfl, ha, haid, hn, hnid, b, hok⟩
    · exact .inl h
    · right
      have hsame : a = ann := (hknown.after (hv.trans ht)).2 a ha (haid.trans hannID.symm)
      have hid : n.id = node.id := by rw [hnid, hsame, hnodeID]
      obtain rfl := (hknownNode.after ht).2 n hn hid
      have hexec : ((StoreOp.detach zone.id annID).exec t.db).1 = .ok (b, true) := hok
      rw [hexec]
      exact fun e s _ _ => .inr ((redeems_recomputePeer n allowed).bind _)
  rcases r with e | ⟨_, reclaimed⟩
  · cases e <;> trivial
  obtain ⟨db, hafter, hwdb, hd, hres, hdb⟩ := hr.resolve_left fun h => by cases h.1
  refine pays_free_route ⟨_, List.mem_cons_self, ?_⟩ fun _ _ _ => ?_
  · rw [hdb]
    exact DB.freed_detach hwdb hd.canonical (hknown.after (hv.trans hafter)) hannID hres.symm
  cases reclaimed
  · trivial
  · refine Pays.bind (pays_duty_recomputePeer ?_) fun _ _ _ _ _ => trivial
    exact hfound.mono ((List.suffix_cons _ _).trans (List.suffix_cons _ _))

/-! ### announcing -/

theorem pays_duty_rollbackAnnouncement {zoneID annID : Int} {node : Node} (hnode : w.db.KnowsNode node)
    (hfound : heard.Found node)
    (hann : ∀ t, w.db.After t → ∀ a ∈ t.announcements, a.id = annID → a.nodeID = node.id) :
    (dutyLedger parseKey).Pays (NotOvertaken parseKey) heard w
      (rollbackAnnouncement zoneID annID node) := by
  refine pays_store_redeeming (fun t x ht _ _ _ hx => ?_) fun r _ _ _ _ => ?_
  · rcases missing_detach hx with h | ⟨a, n, allowed, rfl, ha, haid, hn, hnid, b, hok⟩
    · exact .inl h
    · right
      have hid : n.id = node.id := hnid.trans (hann t.db ht a ha haid)
      obtain rfl := (hnode.after ht).2 n hn hid
      have hexec : ((StoreOp.detach zoneID annID).exec t.db).1 = .ok (b, true) := hok
      rw [hexec]
      exact redeems_recomputePeer n allowed
  · rcases r with _ | _
    · trivial
    · exact pays_duty_recomputePeer (hfound.mono (List.suffix_cons _ _))

theorem pays_duty_growDataplane {zone : Zone} {node : Node} {ann : Announcement}
    (hnode : w.db.KnowsNode node) (hfound : heard.Found node) (hann : w.db.KnowsAnnouncement ann)
    (hof : ann.nodeID = node.id) :
    (dutyLedger parseKey).Pays (NotOvertaken parseKey) heard w (growDataplane zone node ann) := by
  have hundo : ∀ (more : OpHeard κ) (t : World κ), heard <:+ more → w.db.After t.db →
      (dutyLedger parseKey).Pays (NotOvertaken parseKey) more t
        (rollbackAnnouncement zone.id ann.id node) := by
    intro more t hmore ht
    refine pays_duty_rollbackAnnouncement (hnode.after ht) (hfound.mono hmore) fun db hdb a ha hid => ?_
    rw [(hann.after (ht.trans hdb)).2 a ha hid]
    exact hof
  refine pays_read (fun _ => rfl) fun r t ht _ hr => ?_
  rcases r with _ | routes
  · exact Pays.bind (hundo _ t (List.suffix_cons _ _) ht) fun _ _ _ _ _ => trivial
  have hread : routes = t.db.routes node.id := Except.ok.inj (hr.resolve_left fun h => by cases h.1)
  refine pays_own_peer (hfound.mono (List.suffix_cons _ _)) (by rw [hread]) fun u hu => ?_
  refine pays_netfw (fun e t x _ _ _ _ => missing_netfw id) fun r v hv _ => ?_
  rcases r with _ | _
  · refine Pays.bind (hundo _ v ?_ ((ht.trans hu).trans hv)) fun _ _ _ _ _ => trivial
    exact (List.suffix_cons _ _).trans ((List.suffix_cons _ _).trans (List.suffix_cons _ _))
  · trivial

theorem redeems_growDataplane_peer {zone : Zone} {n : Node} {ann : Announcement}
    {allowed : Finset Prefix} :
    (dutyLedger parseKey).Redeems (.peer n allowed) (growDataplane zone n ann) :=
  redeems_routes fun _ hroutes => redeems_setPeerRoutes hroutes

theorem redeems_growDataplane_route {zone : Zone} {node : Node} {ann : Announcement} :
    (dutyLedger parseKey).Redeems (.route zone.id ann) (growDataplane zone node ann) := by
  have hundo : (dutyLedger parseKey).Redeems (.route zone.id ann)
      (rollbackAnnouncement zone.id ann.id node) := redeems_detach
  intro e s _ he
  obtain rfl : e = false := he.1
  right
  intro e s _ he
  right
  generalize ((dutyLedger parseKey).sem _ e s).1 = r
  rcases r with _ | _
  · exact hundo.bind _
  · exact redeems_addZoneRoute fun _ => hundo.bind _

omit [DecidableEq κ] in
/-- What `Create` adds, an attachment and perhaps the announcement itself, is all that it can make
missing, and its answer names it. -/
theorem missing_createAnnouncement {db : DB} (hw : db.Wf) {userID nodeID : Int} {real : Block}
    {zoneID limit : Int} {pool : Prefix}
    (h : World.Missing parseKey
      { w with db := (db.createAnnouncement userID nodeID real zoneID limit pool).2 } x) :
    World.Missing parseKey { w with db := db } x ∨
      ∃ a, (db.createAnnouncement userID nodeID real zoneID limit pool).1 = .ok (a, true) ∧
        (x = .route zoneID a ∨ ∃ n allowed, x = .peer n allowed ∧ n ∈ db.nodes ∧ n.id = nodeID) := by
  -- the statement refuses, finds the attachment, attaches an old announcement, or makes a new one
  rcases @DB.createAnnouncement_cases db userID nodeID real zoneID limit pool with
    ⟨hsame, -⟩ | ⟨a, -, -, -, -, -, hcreate⟩ | ⟨a, ha, -, -, -, -, -, hcreate⟩ | ⟨synthetic, -, hcreate⟩
  · rw [hsame] at h
    exact .inl h
  · rw [hcreate] at h
    exact .inl h
  · rw [hcreate] at h ⊢
    cases x with
    | route z b =>
      obtain ⟨hb, haz, hno⟩ := h
      rcases List.mem_append.mp haz with hold | hnew
      · exact .inl ⟨hb, hold, hno⟩
      · obtain ⟨hid, rfl⟩ : b.id = a.id ∧ z = zoneID := by simpa using hnew
        obtain rfl := hw.announcements_asc.keyed b hb a ha hid
        exact .inr ⟨b, rfl, .inl rfl⟩
    | member | peer | key => exact .inl h
  · rw [hcreate] at h ⊢
    cases x with
    | member | key => exact .inl h
    | route z b =>
      obtain ⟨hb, haz, hno⟩ := h
      rcases List.mem_append.mp haz with hold | hnew
      · obtain ⟨c, hc, hid⟩ := hw.attachment_announcement _ hold
        have hle := hw.announcements_seq c hc
        rcases List.mem_append.mp hb with hbold | hbnew
        · exact .inl ⟨hbold, hold, hno⟩
        · obtain rfl := List.mem_singleton.mp hbnew
          simp only at hid
          omega
      · obtain ⟨hid, rfl⟩ : b.id = db.seqAnnouncements + 1 ∧ z = zoneID := by simpa using hnew
        rcases List.mem_append.mp hb with hbold | hbnew
        · have hle := hw.announcements_seq b hbold
          omega
        · obtain rfl := List.mem_singleton.mp hbnew
          exact .inr ⟨_, rfl, .inl rfl⟩
    | peer n allowed =>
      obtain ⟨hn, hall, hno⟩ := h
      by_cases hid : n.id = nodeID
      · exact .inr ⟨_, rfl, .inr ⟨n, allowed, rfl, hn, hid⟩⟩
      · refine .inl ⟨hn, ?_, hno⟩
        have hsame : DB.SameRoutes (db.announce nodeID real zoneID synthetic.base) db n.id := by
          show (db.announcements ++ [_]).filter _ = _
          rw [List.filter_append, List.filter_singleton]
          have hne : nodeID ≠ n.id := fun heq => hid heq.symm
          simp [hne]
        exact hsame.allowed ▸ hall

theorem pays_duty_announceSubnet (h : Server κ) {id : Identity} {zone : Zone} {node : Node}
    {subnet pool : Prefix} (hnode : w.db.KnowsNode node) (hfound : heard.Found node) :
    (dutyLedger parseKey).Pays (NotOvertaken parseKey) heard w
      (announceSubnet h id zone node subnet pool) := by
  refine pays_store_redeeming (fun t x ht hw _ _ hx => ?_) fun r t ht hw hr => ?_
  · rcases missing_createAnnouncement hw.1 hx with h' | ⟨a, hok, hwhat⟩
    · exact .inl h'
    · right
      have hexec : ((StoreOp.createAnnouncement id.userID node.id (blockFromPrefix subnet) zone.id
          (id.cap h.maxAnnouncedSubnetsPerUser) pool).exec t.db).1 = .ok (a, true) := hok
      rw [hexec]
      rcases hwhat with rfl | ⟨n, allowed, rfl, hn, hid⟩
      · exact redeems_growDataplane_route.bind _
      · obtain rfl := (hnode.after ht).2 n hn hid
        exact redeems_growDataplane_peer.bind _
  rcases r with _ | ⟨ann, attached⟩
  · trivial
  cases attached with
  | false => trivial
  | true =>
    obtain ⟨db, -, -, -, hres, hdb⟩ := hr.resolve_left fun h => by cases h.1
    obtain ⟨⟨hmem, hof, -, -⟩, -⟩ := DB.createAnnouncement_ok (Prod.ext hres.symm hdb.symm)
    refine Pays.bind (pays_duty_growDataplane (hnode.after ht) (hfound.mono (List.suffix_cons _ _))
      (hw.1.knowsAnnouncement hmem) hof) fun _ _ grown _ _ => ?_
    cases grown <;> trivial

theorem pays_duty_createAnnouncement (h : Server κ) (id : Option Identity) (name : String)
    (body : Option CreateAnnouncementRequest) :
    (dutyLedger parseKey).Pays (NotOvertaken parseKey) heard w (createAnnouncement h id name body) := by
  refine pays_authenticated fun id => pays_memberZone fun zone _ _ _ _ => pays_decoded fun req => ?_
  cases h.announcePool with
  | none => trivial
  | some pool =>
    refine pays_ownedNode fun node t _ hw hnode _ => ?_
    split_ifs
    · trivial
    cases parsePrefix4 req.subnet with
    | none => trivial
    | some p =>
      dsimp only
      cases validAnnouncedSubnet h p.masked with
      | some message => trivial
      | none => exact pays_duty_announceSubnet h (hw.1.knowsNode hnode) ⟨_, List.mem_cons_self, hnode⟩

/-! ### any interleaving -/

/-- The requests about nodes, their memberships and their announcements. -/
def Call.OnNodes : Call → Prop
  | .registerNode _ | .deleteNode _ | .joinZone .. | .leaveZone .. | .kickMember ..
  | .createAnnouncement .. | .deleteAnnouncement .. => True
  | .createZone .. | .deleteZone _ | .deleteUser _ => False

theorem pays_duty_handle (h : Server κ) {r : Request} (hr : r.call.OnNodes) :
    (dutyLedger h.parseKey).Pays (NotOvertaken h.parseKey) heard w (handle h r) := by
  obtain ⟨id, c⟩ := r
  cases c with
  | registerNode body => exact pays_duty_registerNode h rfl id body
  | deleteNode path => exact pays_duty_deleteNode id path
  | joinZone name body => exact pays_duty_joinZone h id name body
  | leaveZone name body => exact pays_duty_leaveZone id name body
  | kickMember name path => exact pays_duty_kickMember id name path
  | createAnnouncement name body => exact pays_duty_createAnnouncement h id name body
  | deleteAnnouncement name path => exact pays_duty_deleteAnnouncement id name path
  | createZone | deleteZone | deleteUser => exact hr.elim

omit [DecidableEq κ] in
theorem World.Served.keysDecode (hserved : w.Served parseKey) (hw : w.db.Wf) (hc : w.db.Canonical) :
    w.db.KeysDecode parseKey := by
  refine ⟨fun n hn => ?_, fun n hn m hm heq => ?_⟩
  · obtain ⟨key, hkey, -⟩ := hserved.peers n hn
    exact ⟨key, hkey⟩
  · obtain ⟨key, hkey, hpeer⟩ := hserved.peers n hn
    obtain ⟨key', hkey', hpeer'⟩ := hserved.peers m hm
    obtain rfl : key = key' := Option.some.inj ((hkey.symm.trans heq).trans hkey')
    by_contra hne
    have hsame : w.db.allowed n = w.db.allowed m := Option.some.inj (hpeer.symm.trans hpeer')
    have hdisj := DB.allowed_disjoint hw hc hn hm hne
    rw [hsame, disjoint_self, DB.allowed, allowedIPs] at hdisj
    exact Finset.insert_ne_empty _ _ hdisj

/-- Whatever of these requests run, in whatever order their steps fall: if no operation that takes
away or overwrites is overtaken by another request, nothing is missing once all have finished. -/
theorem no_lost_update {τ : Type} [DecidableEq τ] (h : Server κ) (requests : τ → Request)
    (hcalls : ∀ t, (requests t).call.OnNodes) {w : World κ} (hw : w.db.Wf) (hc : w.db.Canonical)
    (hserved : w.Served h.parseKey) {sched : List (τ × Bool)} (hok : ∀ s ∈ sched, s.2 = false)
    (hfirst : Along (Prog.noting (sem h.parseKey)) (Prog.Upheld fun _ => NotOvertaken h.parseKey)
      (Prog.noted ⟨fun t => handle h (requests t), w⟩) sched)
    (hdone : ∀ t, ∃ r, ((Config.mk (fun t => handle h (requests t)) w).exec
      (Prog.machine (sem h.parseKey)) sched).threads t = .pure r) :
    ((Config.mk (fun t => handle h (requests t)) w).exec
      (Prog.machine (sem h.parseKey)) sched).shared.Served h.parseKey := by
  have hcareful : Along (Prog.noting (sem h.parseKey))
      ((dutyLedger h.parseKey).Careful fun _ => NotOvertaken h.parseKey)
      (Prog.noted ⟨fun t => handle h (requests t), w⟩) sched := by
    have hall : Along (Prog.noting (sem h.parseKey)) (fun _ _ e => e = false)
        (Prog.noted ⟨fun t => handle h (requests t), w⟩) sched := along_of_forall hok
    have hissued := Prog.upheld_of_onlyGiven (c := Prog.noted ⟨fun t => handle h (requests t), w⟩)
      (sem_sane h.parseKey) (fun t => issued_handle (requests t)) sched
    refine (hall.imp₂ hfirst fun c t e he hf =>
      And.intro he hf).imp₂ hissued fun c t e hef hi i k hop => ?_
    refine ⟨⟨hef.1, fun hd => ?_⟩, hef.2 i k hop⟩
    have hstill := hef.2 i k hop
    have ho := hi i k hop
    rcases sem_db h.parseKey c.shared i e with hsame | ⟨o, rfl, -, hdb⟩
    · exact hsame ▸ hd
    · rw [hdb]
      refine hd.exec ho ?_
      rintro userID name pubKey platform ip maxDevices rfl
      exact hstill
  rw [served_iff]
  exact settled (L := dutyLedger h.parseKey) (c := ⟨fun t => handle h (requests t), w⟩)
    ⟨hw, hc, hserved.keysDecode hw hc⟩ (fun t => pays_duty_handle h (hcalls t)) (served_iff.mp hserved)
    hcareful hdone

end

theorem served_rebuilt {κ : Type} [DecidableEq κ] {parseKey : String → Option κ} {db : DB} (hw : db.Wf)
    (hk : db.KeysDecode parseKey) :
    (World.mk db (rebuildZoneRules db) (db.device parseKey)).Served parseKey := by
  refine ⟨?_, ?_, ?_⟩
  · intro m hm n hn hid
    exact (grants_rebuilt parseKey hw (.member m.zoneID n.ip)).mpr ⟨m, hm, rfl, n, hn, hid, rfl⟩
  · intro az haz a ha hid
    exact (grants_rebuilt parseKey hw (.route az.zoneID _)).mpr ⟨az, haz, rfl, a, ha, hid, rfl⟩
  · intro n hn
    obtain ⟨key, hkey⟩ := hk.isSome n hn
    exact ⟨key, hkey, DB.device_of_mem hk hn hkey⟩

theorem labDB_keysDecode {members : List ZoneMember} : (labDB members).KeysDecode some := by
  refine ⟨fun n _ => ⟨_, rfl⟩, ?_⟩
  intro n hn n' hn' _
  rw [List.mem_singleton.mp hn, List.mem_singleton.mp hn']

/-- A subnet is announced while the node that announces it leaves the zone. -/
def announceAndLeave : Fin 2 → Request
  | 0 => ⟨alice, .createAnnouncement "lab" (some ⟨1, "192.168.7.0/24"⟩)⟩
  | 1 => ⟨alice, .leaveZone "lab" (some ⟨1⟩)⟩

/-- The leave has looked up its zone and node when the announcement is made; it then takes away the
address, the range and the peer's new route. -/
theorem no_lost_update_announceAndLeave :
    ((Config.mk (fun t => handle labServer (announceAndLeave t)) (rebuilt (labDB [⟨1, 1⟩]))).exec
      (Prog.machine (sem some)) [(0, false), (1, false), (0, false), (1, false), (0, false), (0, false),
        (0, false), (0, false), (0, false), (1, false), (1, false), (1, false), (1, false), (1, false),
        (1, false)]).shared.Served some := by
  refine no_lost_update labServer announceAndLeave (Fin.forall_fin_two.mpr ⟨trivial, trivial⟩)
    (labDB_wf (.inr rfl)) (fun a ha => by cases ha)
      (served_rebuilt (labDB_wf (.inr rfl)) labDB_keysDecode)
    (by decide) ?_ (Fin.forall_fin_two.mpr ⟨⟨_, rfl⟩, ⟨_, rfl⟩⟩)
  refine ⟨Prog.upheld_op rfl trivial, Prog.upheld_op rfl trivial, Prog.upheld_op rfl trivial,
    Prog.upheld_op rfl trivial, Prog.upheld_op rfl trivial, Prog.upheld_op rfl trivial,
    Prog.upheld_op rfl trivial, Prog.upheld_op rfl ?_, Prog.upheld_op rfl trivial,
    Prog.upheld_op rfl trivial, Prog.upheld_op rfl ?_, Prog.upheld_op rfl trivial,
    Prog.upheld_op rfl ?_, Prog.upheld_op rfl trivial, Prog.upheld_op rfl ?_, trivial⟩
  · constructor
    · repeat refine List.forall_mem_cons.mpr ⟨fun n hn _ => hn, ?_⟩
      exact fun y hy => by cases hy
    · rintro y hy n hn -
      obtain rfl := Option.some.inj hy
      rfl
  · rintro y - ⟨m, hm, -⟩
    cases hm
  · rintro y - ⟨az, haz, -⟩
    cases haz
  · constructor
    · repeat refine List.forall_mem_cons.mpr ⟨fun n hn _ => hn, ?_⟩
      exact fun y hy => by cases hy
    · rintro y hy n hn -
      obtain rfl := Option.some.inj hy
      rfl

/-- Two subnets of one node are announced at the same time. -/
def announceTwo : Fin 2 → Request
  | 0 => ⟨alice, .createAnnouncement "lab" (some ⟨1, "192.168.7.0/24"⟩)⟩
  | 1 => ⟨alice, .createAnnouncement "lab" (some ⟨1, "192.168.8.0/24"⟩)⟩

/-- The first reads the routes before the second announcement exists and sets them last. -/
theorem concurrent_announce_loses_route :
    let c := (Config.mk (fun t => handle labServer (announceTwo t)) (rebuilt (labDB [⟨1, 1⟩]))).exec
      (Prog.machine (sem some)) [(0, false), (0, false), (0, false), (0, false), (0, false),
        (1, false), (1, false), (1, false), (1, false), (1, false), (1, false), (1, false),
        (0, false), (0, false)]
    (labDB [⟨1, 1⟩]).Wf ∧ (rebuilt (labDB [⟨1, 1⟩])).Served some ∧
      (∀ t, ∃ r, c.threads t = .pure r) ∧ ¬ c.shared.Served some := by
  refine ⟨labDB_wf (.inr rfl), served_rebuilt (labDB_wf (.inr rfl)) labDB_keysDecode,
    Fin.forall_fin_two.mpr ⟨⟨_, rfl⟩, ⟨_, rfl⟩⟩, ?_⟩
  intro hserved
  obtain ⟨key, hkey, hpeer⟩ := hserved.peers _ (List.mem_singleton_self _)
  obtain rfl := Option.some.inj hkey
  revert hpeer
  decide +kernel

end LanWeave

import LanWeave.Library.Faults
import LanWeave.Server.Walk

/-! The handlers run alone with a given number of failing kernel operations: what is known
once the checks have passed. No store operation fails. -/

namespace LanWeave
open Library Prog

def Op.isKernel : Op → Bool
  | store _ => false
  | netfw _ => true
  | wg _ => true

section
variable {κ : Type} [DecidableEq κ] (parseKey : String → Option κ)

/-- Every run from `w` in which `n` kernel operations and nothing else fails ends in `Q`. -/
def Meets {α : Type} (n : ℕ) (w : World κ) (p : Handler α) (Q : α → World κ → Prop) : Prop :=
  p.Ensures (sem parseKey) Op.isKernel n w Q

variable {parseKey} {n : ℕ} {w : World κ} {Q : Response → World κ → Prop}

theorem meets_store {α : Type} {Q : α → World κ → Prop} {o : StoreOp}
    {k : Except StoreErr o.Val → Handler α} : Meets parseKey n w (store o >>= k) Q ↔
      Meets parseKey n { w with db := (o.exec w.db).2 } (k (o.exec w.db).1) Q :=
  ensures_sure rfl

theorem run_store {α : Type} (o : StoreOp) (k : Except StoreErr o.Val → Handler α) (w : World κ) :
    (store o >>= k).run (sem parseKey) false w =
      (k (o.exec w.db).1).run (sem parseKey) false { w with db := (o.exec w.db).2 } := rfl

theorem run_addMember {α : Type} {z : Int} (hset : (w.nft.members z).isSome = true) (ip : Addr)
    (k : Except KernelErr Unit → Handler α) :
    (netfw (.addMember z ip) >>= k).run (sem parseKey) false w =
      (k (.ok ())).run (sem parseKey) false { w with nft := (NetfwOp.addMember z ip).effect w.nft } := by
  obtain ⟨set, hs⟩ := Option.isSome_iff_exists.mp hset
  change (k (sem parseKey (.netfw (.addMember z ip)) false w).1).run _ _ (sem parseKey _ false w).2 = _
  simp only [sem, NetfwOp.effect, NetfwOp.exec, Nft.addMember, hs]
  rfl

theorem run_addZoneRoute {α : Type} {z : Int} (hset : (w.nft.routes z).isSome = true) (p : Prefix)
    (k : Except KernelErr Unit → Handler α) :
    (netfw (.addZoneRoute z p) >>= k).run (sem parseKey) false w = (k (.ok ())).run (sem parseKey)
      false { w with nft := (NetfwOp.addZoneRoute z p).effect w.nft } := by
  obtain ⟨set, hs⟩ := Option.isSome_iff_exists.mp hset
  change (k (sem parseKey (.netfw (.addZoneRoute z p)) false w).1).run _ _ (sem parseKey _ false w).2 = _
  simp only [sem, NetfwOp.effect, NetfwOp.exec, Nft.addZoneRoute, hs]
  rfl

theorem run_setPeerRoutes {α : Type} {publicKey : String} (hkey : parseKey publicKey ≠ none)
    (ip : Addr) (routes : List Prefix) (k : Except KernelErr Unit → Handler α) :
    (wg (.setPeerRoutes publicKey ip routes) >>= k).run (sem parseKey) false w =
      (k (.ok ())).run (sem parseKey) false
        { w with wg := (WgOp.setPeerRoutes publicKey ip routes).effect parseKey w.wg } := by
  obtain ⟨key, hkey⟩ := Option.ne_none_iff_exists'.mp hkey
  change (k (sem parseKey (.wg (.setPeerRoutes publicKey ip routes)) false w).1).run _ _
    (sem parseKey _ false w).2 = _
  simp only [sem, WgOp.effect, WgOp.exec, Device.setPeerRoutes, hkey]
  rfl

theorem meets_zero {α : Type} {Q : α → World κ → Prop} {p : Handler α} :
    Meets parseKey 0 w p Q ↔ Q (p.run (sem parseKey) false w).1 (p.run (sem parseKey) false w).2 :=
  ensures_zero

section
variable (hq : n = 0 → ∀ r, Q r w)
include hq

theorem meets_early (r : Response) : Meets parseKey n w (return r) Q := fun hn => hq hn r

theorem meets_authenticated {id : Option Identity} {k : Identity → Handler Response}
    (hk : ∀ i, id = some i → Meets parseKey n w (k i) Q) :
    Meets parseKey n w (authenticated id k) Q := by
  cases id with
  | none => exact meets_early hq _
  | some i => exact hk i rfl

theorem meets_decoded {β : Type} {body : Option β} {k : β → Handler Response}
    (hk : ∀ req, body = some req → Meets parseKey n w (k req) Q) :
    Meets parseKey n w (decoded body k) Q := by
  cases body with
  | none => exact meets_early hq _
  | some req => exact hk req rfl

theorem meets_salted {salt : Option String} {k : String → Handler Response}
    (hk : ∀ s, Meets parseKey n w (k s) Q) : Meets parseKey n w (salted salt k) Q := by
  cases salt with
  | none => exact meets_early hq _
  | some s => exact hk s

theorem meets_pathID {value message : String} {k : Int → Handler Response}
    (hk : ∀ i, parseInt64 value = some i → Meets parseKey n w (k i) Q) :
    Meets parseKey n w (pathID value message k) Q := by
  unfold pathID
  split
  · exact meets_early hq _
  · next i hi => exact hk i hi

theorem meets_namedZone {name : String} {absent : Response} {k : Zone → Handler Response}
    (hk : ∀ zone ∈ w.db.zones, zone.name = name → Meets parseKey n w (k zone) Q) :
    Meets parseKey n w (namedZone name absent k) Q := by
  refine meets_store.mpr ?_
  cases hr : w.db.getByName name with
  | error e => cases hr
  | ok r =>
    cases r with
    | none =>
      simp only [StoreOp.exec, hr]
      exact meets_early hq _
    | some zone =>
      simp only [StoreOp.exec, hr]
      obtain ⟨hzone, hname⟩ := DB.getByName_ok hr
      exact hk zone hzone hname

theorem meets_ownedNode {userID nodeID : Int} {message : String} {k : Node → Handler Response}
    (hk : ∀ node ∈ w.db.nodes, node.id = nodeID → node.userID = userID →
      Meets parseKey n w (k node) Q) :
    Meets parseKey n w (ownedNode userID nodeID message k) Q := by
  refine meets_store.mpr ?_
  cases hr : w.db.getOwned userID nodeID with
  | error e =>
    simp only [StoreOp.exec, hr]
    cases e <;> exact meets_early hq _
  | ok node =>
    simp only [StoreOp.exec, hr]
    obtain ⟨hnode, hid, huser⟩ := DB.getOwned_ok hr
    exact hk node hnode hid huser

theorem meets_ownedZone {name : String} {userID : Int} {k : Zone → Handler Response}
    (hk : ∀ zone ∈ w.db.zones, zone.name = name → Meets parseKey n w (k zone) Q) :
    Meets parseKey n w (ownedZone name userID k) Q := by
  refine meets_namedZone hq fun zone hzone hname => ?_
  split_ifs
  · exact meets_early hq _
  · exact hk zone hzone hname

theorem meets_memberZone {name : String} {userID : Int} {k : Zone → Handler Response}
    (hk : ∀ zone ∈ w.db.zones, zone.name = name → Meets parseKey n w (k zone) Q) :
    Meets parseKey n w (memberZone name userID k) Q := by
  refine meets_namedZone hq fun zone hzone hname => meets_store.mpr ?_
  cases hr : w.db.isParticipant zone.id userID with
  | error e => cases hr
  | ok b =>
    cases b with
    | false =>
      simp only [StoreOp.exec, hr]
      exact meets_early hq _
    | true =>
      simp only [StoreOp.exec, hr]
      exact hk zone hzone hname

end

/-- What the insert of a node has checked. -/
structure NodeFits (db : DB) (n : Node) : Prop where
  id : n.id = db.seqNodes + 1
  user : ∃ u ∈ db.users, u.id = n.userID
  name : ∀ m ∈ db.nodes, (m.userID, m.name) ≠ (n.userID, n.name)
  ip : ∀ m ∈ db.nodes, m.ip ≠ n.ip
  key : ∀ m ∈ db.nodes, m.pubKey ≠ n.pubKey

def DB.withNode (db : DB) (n : Node) : DB := db.addNode n.userID n.name n.pubKey n.ip n.platform

theorem only_kernelFree_createNode (userID : Int) (name pubKey platform : String)
    (first last : BitVec 32) (maxDevices : Int) (retries : Nat) :
    (createNode userID name pubKey platform first last maxDevices retries).Only
      fun i => i.isKernel = false := by
  induction retries with
  | zero => trivial
  | succ retries ih =>
    refine ⟨rfl, fun r => ?_⟩
    rcases r with _ | _ | ip
    · trivial
    · trivial
    refine ⟨rfl, fun r => ?_⟩
    rcases r with e | _ | nodeID
    · change Prog.Only _ (if _ then _ else _)
      split_ifs
      · exact ih
      all_goals trivial
    · trivial
    · trivial

theorem run_createNode (parseKey : String → Option κ) (userID : Int)
    (name pubKey platform : String) (first last : BitVec 32)
    (maxDevices : Int) (retries : Nat) (w : World κ) :
    (∃ e, (createNode userID name pubKey platform first last maxDevices retries).run (sem parseKey)
      false w = (.error e, w)) ∨
    ∃ n, n.userID = userID ∧ n.pubKey = pubKey ∧ NodeFits w.db n ∧
      (createNode userID name pubKey platform first last maxDevices retries).run (sem parseKey)
        false w = (.ok n, { w with db := w.db.withNode n }) := by
  induction retries with
  | zero => exact .inl ⟨_, rfl⟩
  | succ retries ih =>
    rw [createNode, run_store]
    cases hfree : w.db.lowestFree first last with
    | error e => cases hfree
    | ok free =>
      cases free with
      | none =>
        simp only [StoreOp.exec, hfree]
        exact .inl ⟨_, rfl⟩
      | some ip =>
        simp only [StoreOp.exec, hfree]
        rw [run_store]
        rcases @DB.insertNode_cases w.db userID name pubKey platform ip maxDevices with
          ⟨hsame, hno⟩ | ⟨hins, huser, hname, hip, hkey⟩
        · simp only [StoreOp.exec, hsame]
          cases hr : (w.db.insertNode userID name pubKey platform ip maxDevices).1 with
          | error e =>
            simp only
            split_ifs
            · exact ih
            all_goals exact .inl ⟨_, rfl⟩
          | ok inserted =>
            cases inserted with
            | none => exact .inl ⟨_, rfl⟩
            | some id => exact absurd hr (hno id)
        · simp only [StoreOp.exec, hins]
          exact .inr ⟨⟨w.db.seqNodes + 1, userID, name, pubKey, ip, platform⟩, rfl, rfl,
            ⟨rfl, huser, hname, hip, hkey⟩, rfl⟩

theorem run_createZoneRow (parseKey : String → Option κ) (ownerID : Int) (name passwordHash : String)
    (maxOwnedZones : Int) (w : World κ) :
    (∃ e, (createZoneRow ownerID name passwordHash maxOwnedZones).run (sem parseKey) false w =
      (.error e, w)) ∨
    ((∃ u ∈ w.db.users, u.id = ownerID) ∧ (∀ z ∈ w.db.zones, z.name ≠ name) ∧
      (createZoneRow ownerID name passwordHash maxOwnedZones).run (sem parseKey) false w =
        (.ok (w.db.seqZones + 1), { w with db := w.db.addZone name passwordHash ownerID })) := by
  rw [createZoneRow, run_store]
  rcases @DB.insertZone_cases w.db ownerID name passwordHash maxOwnedZones with
    ⟨hsame, hno⟩ | ⟨hins, huser, hname⟩
  · simp only [StoreOp.exec, hsame]
    cases hr : (w.db.insertZone ownerID name passwordHash maxOwnedZones).1 with
    | error e => exact .inl ⟨_, rfl⟩
    | ok inserted =>
      cases inserted with
      | none => exact .inl ⟨_, rfl⟩
      | some id => exact absurd hr (hno id)
  · simp only [StoreOp.exec, hins]
    exact .inr ⟨huser, hname, rfl⟩

variable (h : Server κ) (hq : n = 0 → ∀ r, Q r w)
include hq

theorem meets_registerNode {id : Option Identity} {body : Option RegisterNodeRequest}
    (hk : ∀ i req, body = some req → h.parseKey req.wgPubKey ≠ none → ∀ node : Node,
      node.userID = i.userID → node.pubKey = req.wgPubKey → NodeFits w.db node →
      Meets parseKey n { w with db := w.db.withNode node } (addNodePeer i node) Q) :
    Meets parseKey n w (registerNode h id body) Q := by
  refine meets_authenticated hq fun i _ => meets_decoded hq fun req hreq => ?_
  dsimp only
  generalize (if req.platform = "" then "unknown" else req.platform) = platform
  generalize trimSpace req.name = name
  split_ifs with hname hkey
  iterate 3 exact meets_early hq _
  split
  · exact meets_early hq _
  next first last _ =>
  refine (ensures_bind_sure (only_kernelFree_createNode _ _ _ _ _ _ _ _)).mpr ?_
  rcases run_createNode parseKey i.userID name req.wgPubKey platform
    first last (i.cap h.maxDevicesPerUser) maxAllocRetries w with
    ⟨e, he⟩ | ⟨node, huser, hpub, hfits, hrun⟩
  · rw [he]
    exact meets_early hq _
  · rw [hrun]
    exact hk i req hreq (by simpa using hkey) node huser hpub hfits

theorem meets_createZone {id : Option Identity} {body : Option CreateZoneRequest}
    {salt : Option String} (hk : ∀ i name passwordHash member, (∀ node ∈ member, node ∈ w.db.nodes) →
      Meets parseKey n w (createZoneFor h i name passwordHash member) Q) :
    Meets parseKey n w (createZone h id body salt) Q := by
  refine meets_authenticated hq fun i _ => meets_decoded hq fun req _ => ?_
  dsimp only
  generalize trimSpace req.name = name
  split_ifs
  iterate 2 exact meets_early hq _
  unfold autoJoinNode
  split_ifs
  · exact meets_salted hq fun s => hk i _ _ none (by simp)
  · exact meets_ownedNode hq fun node hnode _ _ => meets_salted hq fun s =>
      hk i _ _ (some node) (by simpa using hnode)

theorem meets_joinZone {id : Option Identity} {name : String} {body : Option JoinZoneRequest}
    (hk : ∀ req, body = some req → ∀ zone ∈ w.db.zones, zone.name = name →
      ∀ node ∈ w.db.nodes, node.id = req.nodeID → Meets parseKey n w (joinNode zone node) Q) :
    Meets parseKey n w (joinZone h id name body) Q := by
  refine meets_authenticated hq fun i _ => meets_decoded hq fun req hreq => ?_
  split_ifs
  · exact meets_early hq _
  refine meets_namedZone hq fun zone hzone hname => ?_
  split_ifs
  · exact meets_early hq _
  exact meets_ownedNode hq fun node hnode hid _ => hk req hreq zone hzone hname node hnode hid

theorem meets_createAnnouncement {id : Option Identity} {name : String}
    {body : Option CreateAnnouncementRequest} (hk : ∀ i req, body = some req →
      ∀ zone ∈ w.db.zones, ∀ node ∈ w.db.nodes, node.id = req.nodeID →
      ∀ pool, h.announcePool = some pool → ∀ p, parsePrefix4 req.subnet = some p →
      validAnnouncedSubnet h p.masked = none →
      Meets parseKey n w (announceSubnet h i zone node p.masked pool) Q) :
    Meets parseKey n w (createAnnouncement h id name body) Q := by
  refine meets_authenticated hq fun i _ => meets_memberZone hq fun zone hzone _ =>
    meets_decoded hq fun req hreq => ?_
  split
  · exact meets_early hq _
  next pool hpool =>
  refine meets_ownedNode hq fun node hnode hid _ => ?_
  split_ifs
  · exact meets_early hq _
  split
  · exact meets_early hq _
  next p hp =>
  split
  · exact meets_early hq _
  next hvalid =>
  exact hk i req hreq zone hzone node hnode hid pool hpool p hp hvalid

end
end LanWeave

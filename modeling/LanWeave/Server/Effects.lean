import LanWeave.Library.Always
import LanWeave.Server.ResyncUsers

/-! What each handler may do to the database when any of its operations may fail. -/

namespace LanWeave
open Library Prog DB

section
variable {κ : Type} [DecidableEq κ] (parseKey : String → Option κ)

/-- Run alone on this database and whatever dataplane, the program ends in `Q`. -/
def Leaves {α : Type} (p : Handler α) (db : DB) (Q : α → DB → Prop) : Prop :=
  ∀ w : World κ, w.db = db → p.Always (sem parseKey) w fun a w' => Q a w'.db

variable {parseKey} {α β : Type} {db : DB} {Q : α → DB → Prop}

theorem leaves_pure {a : α} (h : Q a db) : Leaves parseKey (return a) db Q := by
  rintro w rfl
  exact h

theorem Leaves.mono {p : Handler α} {Q' : α → DB → Prop} (h : Leaves parseKey p db Q)
    (hQ : ∀ a db', Q a db' → Q' a db') : Leaves parseKey p db Q' :=
  fun w hw => (h w hw).mono fun a w' => hQ a w'.db

theorem leaves_bind {p : Handler β} {f : β → Handler α}
    (h : Leaves parseKey p db fun b db' => Leaves parseKey (f b) db' Q) :
    Leaves parseKey (p >>= f) db Q := by
  intro w hw
  exact always_bind.mpr ((h w hw).mono fun b w' hb => hb w' rfl)

theorem leaves_store {o : StoreOp} {k : Except StoreErr o.Val → Handler α}
    (hfail : Leaves parseKey (k (.error .driver)) db Q)
    (hok : Leaves parseKey (k (o.exec db).1) (o.exec db).2 Q) :
    Leaves parseKey (store o >>= k) db Q := by
  rintro w rfl fails
  cases fails with
  | true => exact hfail w rfl
  | false => exact hok _ rfl

theorem leaves_netfw {o : NetfwOp} {k : Except KernelErr Unit → Handler α}
    (hk : ∀ r, Leaves parseKey (k r) db Q) : Leaves parseKey (netfw o >>= k) db Q := by
  rintro w rfl fails
  exact hk _ _ (sem_netfw_db parseKey w o fails)

theorem leaves_wg {o : WgOp} {k : Except KernelErr Unit → Handler α}
    (hk : ∀ r, Leaves parseKey (k r) db Q) : Leaves parseKey (wg o >>= k) db Q := by
  rintro w rfl fails
  exact hk _ _ (sem_wg_db parseKey w o fails)

/-- An operation that leaves the database as it is. -/
def Op.KeepsDB : Op → Prop
  | .store o => o.Reads
  | _ => True

theorem leaves_of_only {p : Handler α} (hp : p.Only Op.KeepsDB) (hQ : ∀ a, Q a db) :
    Leaves parseKey p db Q := by
  intro w hw
  induction p generalizing w with
  | pure a =>
    subst hw
    exact hQ a
  | op i k ih =>
    refine fun fails => ih _ (hp.2 _) _ ?_
    rcases sem_db parseKey w i fails with hsame | ⟨o, rfl, -, hsame⟩
    · exact hsame.trans hw
    · exact hsame.trans ((hp.1 w.db).trans hw)

theorem only_keeps_recomputePeer (nodeID : Int) (pubKey : String) (ip : Addr) :
    (recomputePeer nodeID pubKey ip).Only Op.KeepsDB := by
  refine ⟨fun _ => rfl, fun r => ?_⟩
  cases r with
  | error e => trivial
  | ok routes => exact ⟨trivial, fun _ => trivial⟩

end

section
variable {κ : Type} [DecidableEq κ] {parseKey : String → Option κ} {db : DB}
  {Q : Response → DB → Prop} (hq : ∀ r, Q r db)
include hq

theorem leaves_authenticated {id : Option Identity} {k : Identity → Handler Response}
    (hk : ∀ i, id = some i → Leaves parseKey (k i) db Q) :
    Leaves parseKey (authenticated id k) db Q := by
  cases id with
  | none => exact leaves_pure (hq _)
  | some i => exact hk i rfl

theorem leaves_decoded {β : Type} {body : Option β} {k : β → Handler Response}
    (hk : ∀ req, body = some req → Leaves parseKey (k req) db Q) :
    Leaves parseKey (decoded body k) db Q := by
  cases body with
  | none => exact leaves_pure (hq _)
  | some req => exact hk req rfl

theorem leaves_pathID {value message : String} {k : Int → Handler Response}
    (hk : ∀ i, parseInt64 value = some i → Leaves parseKey (k i) db Q) :
    Leaves parseKey (pathID value message k) db Q := by
  unfold pathID
  split
  · exact leaves_pure (hq _)
  · next i hi => exact hk i hi

theorem leaves_namedZone {name : String} {absent : Response} {k : Zone → Handler Response}
    (hk : ∀ zone ∈ db.zones, zone.name = name → Leaves parseKey (k zone) db Q) :
    Leaves parseKey (namedZone name absent k) db Q := by
  refine leaves_store (leaves_pure (hq _)) ?_
  simp only [StoreOp.exec]
  cases hr : db.getByName name with
  | error e => exact leaves_pure (hq _)
  | ok r =>
    cases r with
    | none => exact leaves_pure (hq _)
    | some zone =>
      obtain ⟨hzone, hname⟩ := DB.getByName_ok hr
      exact hk zone hzone hname

theorem leaves_ownedNode {userID nodeID : Int} {message : String} {k : Node → Handler Response}
    (hk : ∀ node ∈ db.nodes, node.id = nodeID → node.userID = userID →
      Leaves parseKey (k node) db Q) :
    Leaves parseKey (ownedNode userID nodeID message k) db Q := by
  refine leaves_store (leaves_pure (hq _)) ?_
  simp only [StoreOp.exec]
  cases hr : db.getOwned userID nodeID with
  | error e => cases e <;> exact leaves_pure (hq _)
  | ok node =>
    obtain ⟨hnode, hid, huser⟩ := DB.getOwned_ok hr
    exact hk node hnode hid huser

theorem leaves_ownedZone {name : String} {userID : Int} {k : Zone → Handler Response}
    (hk : ∀ zone ∈ db.zones, zone.name = name → zone.ownerID = userID →
      Leaves parseKey (k zone) db Q) :
    Leaves parseKey (ownedZone name userID k) db Q := by
  refine leaves_namedZone hq fun zone hzone hname => ?_
  split_ifs with howner
  · exact leaves_pure (hq _)
  · exact hk zone hzone hname (not_not.mp howner)

theorem leaves_memberZone {name : String} {userID : Int} {k : Zone → Handler Response}
    (hk : ∀ zone ∈ db.zones, zone.name = name → db.isParticipant zone.id userID = .ok true →
      Leaves parseKey (k zone) db Q) :
    Leaves parseKey (memberZone name userID k) db Q := by
  refine leaves_namedZone hq fun zone hzone hname => leaves_store (leaves_pure (hq _)) ?_
  simp only [StoreOp.exec]
  cases hr : db.isParticipant zone.id userID with
  | error e => exact leaves_pure (hq _)
  | ok b =>
    cases b with
    | false => exact leaves_pure (hq _)
    | true => exact hk zone hzone hname hr

end

section
variable {κ : Type} [DecidableEq κ] {parseKey : String → Option κ} {db : DB}
  {Q : Response → DB → Prop}

def DB.retractedNode (db : DB) (n : Node) : DB := (db.withNode n).withoutNode n

theorem leaves_createNode (userID : Int) (name pubKey platform : String) (first last : BitVec 32)
    (maxDevices : Int) (retries : Nat) :
    Leaves parseKey (createNode userID name pubKey platform first last maxDevices retries) db
      fun r db' => match r with
        | .error _ => db' = db
        | .ok n => n.userID = userID ∧ n.pubKey = pubKey ∧ NodeFits db n ∧ db' = db.withNode n := by
  induction retries with
  | zero => exact leaves_pure rfl
  | succ retries ih =>
    refine leaves_store (leaves_pure rfl) ?_
    simp only [StoreOp.exec]
    cases hfree : db.lowestFree first last with
    | error e => exact leaves_pure rfl
    | ok free =>
      cases free with
      | none => exact leaves_pure rfl
      | some ip =>
        refine leaves_store (leaves_pure rfl) ?_
        rcases @DB.insertNode_cases db userID name pubKey platform ip maxDevices with
          ⟨hsame, hno⟩ | ⟨hins, huser, hname, hip, hkey⟩
        · simp only [StoreOp.exec, hsame]
          cases hr : (db.insertNode userID name pubKey platform ip maxDevices).1 with
          | error e =>
            simp only
            split_ifs
            · exact ih
            all_goals exact leaves_pure rfl
          | ok inserted =>
            cases inserted with
            | none => exact leaves_pure rfl
            | some id => exact absurd hr (hno id)
        · simp only [StoreOp.exec, hins]
          exact leaves_pure ⟨rfl, rfl, ⟨rfl, huser, hname, hip, hkey⟩, rfl⟩

theorem leaves_deleteOwned (hw : db.Wf) {n : Node} (hn : n ∈ db.nodes) :
    Leaves parseKey (deleteOwned n.userID n.id) db fun _ db' => db' = db ∨ db' = db.withoutNode n := by
  refine leaves_store (leaves_pure (.inl rfl)) ?_
  have hpub : db.ownedPubKey n.userID n.id = .ok n.pubKey := by
    rw [DB.ownedPubKey, getOwned_of_mem hw hn]
    rfl
  simp only [StoreOp.exec, hpub]
  exact leaves_store (leaves_pure (.inl rfl)) (leaves_pure (.inr rfl))

variable (h : Server κ)

theorem leaves_registerNode (hw : db.Wf) {id : Option Identity} {body : Option RegisterNodeRequest}
    (hq : ∀ r, Q r db) (hk : ∀ i req n, id = some i → body = some req → n.userID = i.userID →
      n.pubKey = req.wgPubKey → NodeFits db n →
      (∀ r, Q r (db.withNode n)) ∧ ∀ r, Q r (db.retractedNode n)) :
    Leaves parseKey (registerNode h id body) db Q := by
  refine leaves_authenticated hq fun i hi => leaves_decoded hq fun req hreq => ?_
  dsimp only
  generalize (if req.platform = "" then "unknown" else req.platform) = platform
  split_ifs
  iterate 3 exact leaves_pure (hq _)
  split
  · exact leaves_pure (hq _)
  refine leaves_bind ((leaves_createNode _ _ _ _ _ _ _ _).mono fun r db' hr => ?_)
  cases r with
  | error e =>
    obtain rfl := hr
    exact leaves_pure (hq _)
  | ok n =>
    obtain ⟨huser, hpub, hfits, rfl⟩ := hr
    obtain ⟨hnew, hback⟩ := hk i req n hi hreq huser hpub hfits
    refine leaves_wg fun r => ?_
    cases r with
    | ok _ => exact leaves_pure (hnew _)
    | error e =>
      -- the peer could not be added: the row goes again, unless that fails too
      rw [← huser]
      refine leaves_bind ((leaves_deleteOwned (hfits.wf hw) hfits.mem).mono fun _ db' hdb => ?_)
      rcases hdb with rfl | rfl
      · exact leaves_pure (hnew _)
      · exact leaves_pure (hback _)

theorem leaves_deleteNode (hw : db.Wf) {id : Option Identity} {path : String} (hq : ∀ r, Q r db)
    (hk : ∀ i n, id = some i → n ∈ db.nodes → parseInt64 path = some n.id → n.userID = i.userID →
      ∀ r, Q r (db.withoutNode n)) : Leaves parseKey (deleteNode id path) db Q := by
  refine leaves_authenticated hq fun i hi => leaves_pathID hq fun nodeID hpath => ?_
  refine leaves_ownedNode hq fun n hn hid huser => ?_
  subst hid
  refine leaves_store (leaves_pure (hq _)) (leaves_store (leaves_pure (hq _)) ?_)
  simp only [StoreOp.exec, DB.zonesForNode, DB.attachmentsForNode]
  rw [← huser]
  refine leaves_bind ((leaves_deleteOwned hw hn).mono fun r db' hdb => ?_)
  have hend : ∀ r, Q r db' := by
    rcases hdb with rfl | rfl
    · exact hq
    · exact hk i n hi hn hpath huser
  cases r with
  | error e => cases e <;> exact leaves_pure (hend _)
  | ok pubKey =>
    refine leaves_wg fun _ => leaves_of_only ?_ hend
    refine Only.bind (only_forEach (fun zid => ?_) _) fun _ =>
      Only.bind (only_forEach (fun att => ?_) _) fun _ => trivial
    · exact ⟨trivial, fun _ => trivial⟩
    · exact ⟨trivial, fun _ => trivial⟩

theorem leaves_rollbackZone {Q : Unit → DB → Prop} {zoneID : Int} (hq : Q () db)
    (hk : Q () (db.deleteZones fun z => z.id = zoneID)) :
    Leaves parseKey (rollbackZone zoneID) db Q :=
  leaves_store (leaves_netfw fun _ => leaves_pure hq) (leaves_netfw fun _ => leaves_pure hk)

theorem leaves_joinCreator {zoneID : Int} {node : Node} {created : Response} (hq : ∀ r, Q r db)
    (hback : ∀ r, Q r (db.deleteZones fun z => z.id = zoneID))
    (hjoin : ∀ db', db.join zoneID node.id = (.ok (), db') →
      (∀ r, Q r db') ∧ ∀ r, Q r (db'.deleteZones fun z => z.id = zoneID)) :
    Leaves parseKey (joinCreator zoneID node created) db Q := by
  have hundo : Leaves parseKey (do rollbackZone zoneID; return serverError) db Q :=
    leaves_bind (leaves_rollbackZone (leaves_pure (hq _)) (leaves_pure (hback _)))
  refine leaves_store hundo ?_
  simp only [StoreOp.exec]
  rcases hj : db.join zoneID node.id with ⟨r, db'⟩
  cases r with
  | error e =>
    rcases @join_cases db zoneID node.id with ⟨hj', -⟩ | ⟨hj', -⟩ | ⟨hj', -⟩ <;> rw [hj] at hj'
    · cases hj'
    · rw [(Prod.mk.inj hj').2]
      exact hundo
    · cases hj'
  | ok _ =>
    obtain ⟨hkeep, hdrop⟩ := hjoin db' hj
    refine leaves_netfw fun r => ?_
    cases r with
    | error e => exact leaves_bind (leaves_rollbackZone (leaves_pure (hkeep _)) (leaves_pure (hdrop _)))
    | ok _ => exact leaves_pure (hkeep _)

theorem leaves_createZone {id : Option Identity} {body : Option CreateZoneRequest}
    {salt : Option String} (hq : ∀ r, Q r db)
    (hk : ∀ i name hash, id = some i → (∃ u ∈ db.users, u.id = i.userID) →
      (∀ z ∈ db.zones, z.name ≠ name) → ∀ db₁, db₁ = db.addZone name hash i.userID →
      (∀ r, Q r db₁) ∧ (∀ r, Q r (db₁.deleteZones fun z => z.id = db.seqZones + 1)) ∧
      ∀ node ∈ db.nodes, node.userID = i.userID →
        ∀ db₂, db₁.join (db.seqZones + 1) node.id = (.ok (), db₂) →
        (∀ r, Q r db₂) ∧ ∀ r, Q r (db₂.deleteZones fun z => z.id = db.seqZones + 1)) :
    Leaves parseKey (createZone h id body salt) db Q := by
  refine leaves_authenticated hq fun i hi => leaves_decoded hq fun req _ => ?_
  dsimp only
  split_ifs
  iterate 2 exact leaves_pure (hq _)
  have hcreate : ∀ member : Option Node, (∀ node ∈ member, node ∈ db.nodes ∧ node.userID = i.userID) →
      Leaves parseKey (salted salt fun salt => createZoneFor h i (trimSpace req.name)
        (h.hashPassword salt req.password) member) db Q := by
    intro member hmember
    cases salt with
    | none => exact leaves_pure (hq _)
    | some s =>
      refine leaves_bind (leaves_store (leaves_pure (leaves_pure (hq _))) ?_)
      rcases @DB.insertZone_cases db i.userID (trimSpace req.name) (h.hashPassword s req.password)
        (i.cap h.maxOwnedZonesPerUser) with ⟨hsame, hno⟩ | ⟨hins, howner, hname⟩
      · simp only [StoreOp.exec, hsame]
        cases hr : (db.insertZone i.userID (trimSpace req.name) (h.hashPassword s req.password)
          (i.cap h.maxOwnedZonesPerUser)).1 with
        | error e => exact leaves_pure (leaves_pure (hq _))
        | ok inserted =>
          cases inserted with
          | none => exact leaves_pure (leaves_pure (hq _))
          | some id => exact absurd hr (hno id)
      · simp only [StoreOp.exec, hins]
        obtain ⟨hkeep, hdrop, hjoin⟩ := hk i _ _ hi howner hname _ rfl
        refine leaves_pure (leaves_netfw fun r => ?_)
        cases r with
        | error e => exact leaves_store (leaves_pure (hkeep _)) (leaves_pure (hdrop _))
        | ok _ =>
          cases member with
          | none => exact leaves_pure (hkeep _)
          | some node =>
            obtain ⟨hnode, huser⟩ := hmember node rfl
            exact leaves_joinCreator hkeep hdrop (hjoin node hnode huser)
  unfold autoJoinNode
  split_ifs
  · exact hcreate none (by simp)
  · exact leaves_ownedNode hq fun node hnode _ huser => hcreate (some node) (by simp [hnode, huser])

theorem leaves_joinZone {id : Option Identity} {name : String} {body : Option JoinZoneRequest}
    (hq : ∀ r, Q r db) (hk : ∀ i req zone node, id = some i → body = some req → zone ∈ db.zones →
      zone.name = name → h.verifyPassword req.password zone.passwordHash = true → node ∈ db.nodes →
      node.id = req.nodeID → node.userID = i.userID →
      ∀ db', db.join zone.id node.id = (.ok (), db') →
        (∀ r, Q r db') ∧ ∀ r, Q r (db'.leave zone.id node.id).2) :
    Leaves parseKey (joinZone h id name body) db Q := by
  refine leaves_authenticated hq fun i hi => leaves_decoded hq fun req hreq => ?_
  split_ifs
  · exact leaves_pure (hq _)
  refine leaves_namedZone hq fun zone hzone hname => ?_
  split_ifs with hpass
  · exact leaves_pure (hq _)
  refine leaves_ownedNode hq fun node hnode hid huser => leaves_store (leaves_pure (hq _)) ?_
  simp only [StoreOp.exec]
  rcases hj : db.join zone.id node.id with ⟨r, db'⟩
  cases r with
  | error e =>
    rcases @join_cases db zone.id node.id with ⟨hj', -⟩ | ⟨hj', -⟩ | ⟨hj', -⟩ <;> rw [hj] at hj'
    · cases hj'
    · rw [(Prod.mk.inj hj').2]
      exact leaves_pure (hq _)
    · cases hj'
  | ok _ =>
    obtain ⟨hkeep, hleave⟩ := hk i req zone node hi hreq hzone hname (by simpa using hpass) hnode hid
      huser db' hj
    refine leaves_netfw fun r => ?_
    cases r with
    | error e => exact leaves_store (leaves_pure (hkeep _)) (leaves_pure (hleave _))
    | ok _ => exact leaves_pure (hkeep _)

theorem leaves_cascade {Q : Unit → DB → Prop} {node : Node} {zoneID : Int} (hq : Q () db)
    (hk : Q () (db.detached node.id zoneID).2) :
    Leaves parseKey (cascadeNodeZoneAnnouncements node zoneID) db Q := by
  refine leaves_store (leaves_pure hq) (leaves_of_only ?_ fun _ => hk)
  refine Only.bind (only_forEach (fun det => ?_) _) fun _ => ?_
  · exact ⟨trivial, fun _ => trivial⟩
  · split_ifs
    · exact only_keeps_recomputePeer _ _ _
    · trivial

/-- The database without a membership, and without the node's attachments to the zone. -/
def DB.expelled (db : DB) (nodeID zoneID : Int) : DB :=
  ((db.deleteMember ⟨zoneID, nodeID⟩).detached nodeID zoneID).2

theorem leaves_removeFromZone {zone : Zone} {node : Node} (hq : ∀ r, Q r db)
    (hk : ⟨zone.id, node.id⟩ ∈ db.zoneMembers → (∀ r, Q r (db.deleteMember ⟨zone.id, node.id⟩)) ∧
      ∀ r, Q r (db.expelled node.id zone.id)) :
    Leaves parseKey (removeFromZone zone node) db Q := by
  refine leaves_store (leaves_pure (hq _)) ?_
  rcases leave_cases db zone.id node.id with ⟨hl, -⟩ | ⟨hl, hmem⟩
  · simp only [StoreOp.exec, hl]
    exact leaves_pure (hq _)
  · simp only [StoreOp.exec, hl]
    obtain ⟨hleft, hexpelled⟩ := hk hmem
    exact leaves_netfw fun _ => leaves_bind (leaves_cascade (leaves_pure (hleft _))
      (leaves_pure (hexpelled _)))

theorem leaves_leaveZone {id : Option Identity} {name : String} {body : Option LeaveZoneRequest}
    (hq : ∀ r, Q r db) (hk : ∀ i req zone node, id = some i → body = some req → zone ∈ db.zones →
      zone.name = name → node ∈ db.nodes → node.id = req.nodeID → node.userID = i.userID →
      ⟨zone.id, node.id⟩ ∈ db.zoneMembers → (∀ r, Q r (db.deleteMember ⟨zone.id, node.id⟩)) ∧
        ∀ r, Q r (db.expelled node.id zone.id)) :
    Leaves parseKey (leaveZone id name body) db Q :=
  leaves_authenticated hq fun i hi => leaves_decoded hq fun req hreq =>
    leaves_namedZone hq fun zone hzone hname => leaves_ownedNode hq fun node hnode hid huser =>
      leaves_removeFromZone hq (hk i req zone node hi hreq hzone hname hnode hid huser)

theorem leaves_kickMember {id : Option Identity} {name path : String}
    (hq : ∀ r, Q r db) (hk : ∀ i zone node, id = some i → zone ∈ db.zones →
      zone.ownerID = i.userID → node ∈ db.nodes → ⟨zone.id, node.id⟩ ∈ db.zoneMembers →
      (∀ r, Q r (db.deleteMember ⟨zone.id, node.id⟩)) ∧ ∀ r, Q r (db.expelled node.id zone.id)) :
    Leaves parseKey (kickMember id name path) db Q := by
  refine leaves_authenticated hq fun i hi => leaves_ownedZone hq fun zone hzone _ howner =>
    leaves_pathID hq fun nodeID _ => leaves_store (leaves_pure (hq _)) ?_
  simp only [StoreOp.exec]
  cases hr : db.getNodeByID nodeID with
  | error e => cases e <;> exact leaves_pure (hq _)
  | ok node => exact leaves_removeFromZone hq (hk i zone node hi hzone howner (getNodeByID_ok hr).1)

theorem only_keeps_recomputeReclaimedPeers (dets : List ZoneDetachment) (seen : List Int) :
    (recomputeReclaimedPeers dets seen).Only Op.KeepsDB := by
  induction dets generalizing seen with
  | nil => trivial
  | cons det dets ih =>
    rw [recomputeReclaimedPeers]
    split_ifs
    · exact ih seen
    · refine ⟨fun _ => rfl, fun r => ?_⟩
      cases r with
      | error e => exact ih _
      | ok node => exact (only_keeps_recomputePeer _ _ _).bind fun _ => ih _

theorem leaves_deleteZone {id : Option Identity} {name : String} (hq : ∀ r, Q r db)
    (hk : ∀ i zone, id = some i → zone ∈ db.zones → zone.ownerID = i.userID →
      (∀ r, Q r (db.zoneDetached zone.id).2) ∧ ∀ r, Q r (db.withoutZone zone.id)) :
    Leaves parseKey (deleteZone id name) db Q := by
  refine leaves_authenticated hq fun i hi => leaves_ownedZone hq fun zone hzone _ howner => ?_
  obtain ⟨hdetached, hgone⟩ := hk i zone hi hzone howner
  refine leaves_store (leaves_pure (hq _)) (leaves_store (leaves_pure (hdetached _)) ?_)
  refine leaves_netfw fun _ => leaves_of_only ?_ hgone
  exact (only_keeps_recomputeReclaimedPeers _ _).bind fun _ => trivial

theorem leaves_rollbackAnnouncement {Q : Unit → DB → Prop} {zoneID annID : Int} {node : Node}
    (hq : Q () db) (hk : Q () (db.detachOne annID zoneID)) :
    Leaves parseKey (rollbackAnnouncement zoneID annID node) db Q := by
  refine leaves_store (leaves_pure hq) ?_
  rcases detach_cases db zoneID annID with ⟨hd, -⟩ | ⟨a, -, -, hd⟩
  · simp only [StoreOp.exec, hd]
    exact leaves_pure hq
  · simp only [StoreOp.exec, hd]
    exact leaves_of_only (only_keeps_recomputePeer _ _ _) fun _ => hk

theorem leaves_growDataplane {Q : Bool → DB → Prop} {zone : Zone} {node : Node} {ann : Announcement}
    (hq : ∀ b, Q b db) (hk : Q false (db.detachOne ann.id zone.id)) :
    Leaves parseKey (growDataplane zone node ann) db Q := by
  have hundo : Leaves parseKey (do rollbackAnnouncement zone.id ann.id node; return false) db Q :=
    leaves_bind (leaves_rollbackAnnouncement (leaves_pure (hq _)) (leaves_pure hk))
  refine leaves_store hundo (leaves_wg fun r => ?_)
  cases r with
  | error e => exact hundo
  | ok _ =>
    refine leaves_netfw fun r => ?_
    cases r with
    | error e => exact hundo
    | ok _ => exact leaves_pure (hq _)

theorem leaves_createAnnouncement {id : Option Identity} {name : String}
    {body : Option CreateAnnouncementRequest} (hq : ∀ r, Q r db)
    (hk : ∀ i req zone node pool p ann db', id = some i → body = some req → zone ∈ db.zones →
      zone.name = name → node ∈ db.nodes → node.id = req.nodeID → node.userID = i.userID →
      h.announcePool = some pool → parsePrefix4 req.subnet = some p →
      validAnnouncedSubnet h p.masked = none →
      db.createAnnouncement i.userID node.id (blockFromPrefix p.masked) zone.id
        (i.cap h.maxAnnouncedSubnetsPerUser) pool = (.ok (ann, true), db') →
      (∀ r, Q r db') ∧ ∀ r, Q r (db'.detachOne ann.id zone.id)) :
    Leaves parseKey (createAnnouncement h id name body) db Q := by
  refine leaves_authenticated hq fun i hi => leaves_memberZone hq fun zone hzone hname _ =>
    leaves_decoded hq fun req hreq => ?_
  split
  · exact leaves_pure (hq _)
  next pool hpool =>
  refine leaves_ownedNode hq fun node hnode hid huser => ?_
  split_ifs
  · exact leaves_pure (hq _)
  split
  · exact leaves_pure (hq _)
  next p hp =>
  split
  · exact leaves_pure (hq _)
  next hvalid =>
  refine leaves_store (leaves_pure (hq _)) ?_
  simp only [StoreOp.exec]
  rcases hc : db.createAnnouncement i.userID node.id (blockFromPrefix p.masked) zone.id
    (i.cap h.maxAnnouncedSubnetsPerUser) pool with ⟨r, db'⟩
  rcases r with e | ⟨ann, fresh⟩
  · -- an error has been rolled back
    rcases @createAnnouncement_cases db i.userID node.id (blockFromPrefix p.masked) zone.id
      (i.cap h.maxAnnouncedSubnetsPerUser) pool with
      ⟨hsame, -⟩ | ⟨a, -, -, -, -, -, hrun⟩ | ⟨a, -, -, -, -, -, -, hrun⟩ | ⟨synthetic, -, hrun⟩
    · rw [hc] at hsame
      obtain rfl : db' = db := hsame
      exact leaves_pure (hq _)
    all_goals simp [hc] at hrun
  · -- false: the announcement was attached to the zone already, and nothing is written
    cases fresh with
    | false =>
      rcases @createAnnouncement_cases db i.userID node.id (blockFromPrefix p.masked) zone.id
        (i.cap h.maxAnnouncedSubnetsPerUser) pool with
        ⟨hsame, -⟩ | ⟨a, -, -, -, -, -, hrun⟩ | ⟨a, -, -, -, -, -, -, hrun⟩ | ⟨synthetic, -, hrun⟩
      · rw [hc] at hsame
        obtain rfl : db' = db := hsame
        exact leaves_pure (hq _)
      · rw [hc] at hrun
        rw [(Prod.mk.inj hrun).2]
        exact leaves_pure (hq _)
      all_goals simp [hc] at hrun
    -- a new attachment: it stays when the data plane has taken it, else the handler detaches it
    -- again
    | true =>
      obtain ⟨hkeep, hdetach⟩ := hk i req zone node pool p ann db' hi hreq hzone hname hnode hid huser
        hpool hp hvalid hc
      refine leaves_bind (leaves_growDataplane (fun b => ?_) (leaves_pure (hdetach _)))
      cases b <;> exact leaves_pure (hkeep _)

theorem leaves_deleteAnnouncement {id : Option Identity} {name path : String} (hq : ∀ r, Q r db)
    (hk : ∀ i zone a node, id = some i → zone ∈ db.zones → zone.name = name → a ∈ db.announcements →
      parseInt64 path = some a.id → node ∈ db.nodes → node.id = a.nodeID →
      (node.userID = i.userID ∨ zone.ownerID = i.userID) →
      ⟨a.id, zone.id⟩ ∈ db.announcementZones → ∀ r, Q r (db.detachOne a.id zone.id)) :
    Leaves parseKey (deleteAnnouncement id name path) db Q := by
  refine leaves_authenticated hq fun i hi => leaves_memberZone hq fun zone hzone hname _ =>
    leaves_pathID hq fun annID hpath => leaves_store (leaves_pure (hq _)) ?_
  simp only [StoreOp.exec]
  cases hann : db.getAnnouncement annID with
  | error e => cases e <;> exact leaves_pure (hq _)
  | ok ann =>
    obtain ⟨ha, rfl⟩ := getAnnouncement_ok hann
    refine leaves_store (leaves_pure (hq _)) ?_
    simp only [StoreOp.exec]
    cases hnode : db.getNodeByID ann.nodeID with
    | error e => exact leaves_pure (hq _)
    | ok node =>
      obtain ⟨hn, hid⟩ := getNodeByID_ok hnode
      simp only
      split_ifs with hforeign
      · exact leaves_pure (hq _)
      refine leaves_store (leaves_pure (hq _)) ?_
      rcases detach_cases db zone.id ann.id with ⟨hd, -⟩ | ⟨b, -, hatt, hd⟩
      · simp only [StoreOp.exec, hd]
        exact leaves_pure (hq _)
      simp only [StoreOp.exec, hd]
      have hend := hk i zone ann node hi hzone hname ha hpath hn hid (by tauto) hatt
      refine leaves_netfw fun _ => leaves_of_only ?_ hend
      split_ifs
      · exact (only_keeps_recomputePeer _ _ _).bind fun _ => trivial
      · trivial

end
end LanWeave

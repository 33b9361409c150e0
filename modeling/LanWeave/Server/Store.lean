import LanWeave.Golang.Strings
import LanWeave.Server.Schema

/-! The repositories' statements and transactions, each as one function of the database. A
transaction that returns an error has been rolled back. -/

namespace LanWeave

inductive StoreErr
  | userNotFound
  | lastAdmin
  | userExists
  | inviteInvalid
  | nodeNotFound
  | nodeNameTaken
  | pubKeyTaken
  | poolExhausted
  | deviceLimitReached
  | zoneNameTaken
  | ownedZoneLimitReached
  | notMember
  | announceLimit
  | subnetOverlap
  | syntheticPoolExhausted
  | announcementNotFound
  /-- The driver's "UNIQUE constraint failed", naming the columns. -/
  | unique (columns : List String)
  /-- Every other error of the driver. -/
  | driver
deriving DecidableEq

def isUniqueViolationOn (err : StoreErr) (col : String) : Bool :=
  match err with
  | .unique columns => columns.contains col
  | _ => false

/-- One attachment removed by `DetachAllForNodeZone`. -/
structure DetachedRoute where
  announcementID : Int
  synthetic : Prefix
  reclaimed : Bool
deriving DecidableEq

/-- One attachment removed by a zone-scoped cascade. -/
structure ZoneDetachment where
  announcementID : Int
  nodeID : Int
  zoneID : Int
  synthetic : Prefix
  reclaimed : Bool
deriving DecidableEq

structure SurvivingMembership where
  ip : Addr
  zoneID : Int
deriving DecidableEq

structure SurvivingZoneRoute where
  zoneID : Int
  synthetic : Prefix
deriving DecidableEq

structure RouteRecomputeNode where
  nodeID : Int
  pubKey : String
  ip : Addr
deriving DecidableEq

/-- The NOCASE collation: ASCII letters compare without their case, up to the first NUL; behind it
only the length counts. -/
def nocase (s : String) : List Char × Nat :=
  ((s.toList.takeWhile fun c => c.toNat ≠ 0).map Char.toLower, byteLen s)

structure DeletionResult where
  nodePubKeys : List String
  survivingMemberships : List SurvivingMembership
  ownedZoneIDs : List Int
  survivingZoneRoutes : List SurvivingZoneRoute
  routeRecomputeNodes : List RouteRecomputeNode
deriving DecidableEq

namespace DB

/-! ### users -/

def createAdmin (db : DB) (username passwordHash : String) : Except StoreErr Int × DB :=
  if db.users.any fun u => nocase u.username = nocase username then (.error .userExists, db)
  else (.ok (db.seqUsers + 1), db.addUser username passwordHash true)

/-- What `Store.Register` does to the users; whether the code can be redeemed the invites decide. -/
def register (db : DB) (username passwordHash : String) (redeemable : Bool) : Except StoreErr Int × DB :=
  if db.users.any fun u => nocase u.username = nocase username then (.error .userExists, db)
  else if !redeemable then (.error .inviteInvalid, db)
  else (.ok (db.seqUsers + 1), db.addUser username passwordHash false)

/-! ### nodes -/

/-- The smallest candidate, `first` or a successor of an address in use, that is free. -/
def lowestFree (db : DB) (first last : BitVec 32) : Except StoreErr (Option (BitVec 32)) :=
  let ips := db.nodes.map (·.ip.toNat)
  let candidates := first.toNat ::
    (ips.filter fun ip => first.toNat ≤ ip && ip < last.toNat).map (· + 1)
  .ok (((candidates.filter fun c => !ips.contains c && c ≤ last.toNat).min?).map (BitVec.ofNat 32))

/-- The insert with the device cap folded in; `none` when the cap left it without a row. -/
def insertNode (db : DB) (userID : Int) (name pubKey platform : String) (ip : BitVec 32)
    (maxDevices : Int) : Except StoreErr (Option Int) × DB :=
  if 0 < maxDevices ∧ maxDevices ≤ (db.nodes.filter (·.userID = userID)).length then (.ok none, db)
  else if db.nodes.any fun n => n.userID = userID ∧ n.name = name then
    (.error (.unique ["nodes.user_id", "nodes.name"]), db)
  else if db.nodes.any (·.ip = ip) then (.error (.unique ["nodes.ip"]), db)
  else if db.nodes.any (·.pubKey = pubKey) then (.error (.unique ["nodes.wg_pubkey"]), db)
  else if !db.hasUser userID then (.error .driver, db)
  else (.ok (some (db.seqNodes + 1)), db.addNode userID name pubKey ip platform)

def getNodeByID (db : DB) (nodeID : Int) : Except StoreErr Node :=
  match db.nodeByID? nodeID with
  | some n => .ok n
  | none => .error .nodeNotFound

def getOwned (db : DB) (userID nodeID : Int) : Except StoreErr Node :=
  match db.nodes.find? fun n => n.id = nodeID ∧ n.userID = userID with
  | some n => .ok n
  | none => .error .nodeNotFound

/-- `DeleteOwned` looks the key up in one statement and deletes in the next. -/
def ownedPubKey (db : DB) (userID nodeID : Int) : Except StoreErr String :=
  (db.getOwned userID nodeID).map (·.pubKey)

def deleteOwnedNode (db : DB) (userID nodeID : Int) : Except StoreErr Unit × DB :=
  (.ok (), db.deleteNodes fun n => n.id = nodeID ∧ n.userID = userID)

/-! ### zones -/

def insertZone (db : DB) (ownerID : Int) (name passwordHash : String) (maxOwnedZones : Int) :
    Except StoreErr (Option Int) × DB :=
  if 0 < maxOwnedZones ∧ maxOwnedZones ≤ (db.zones.filter (·.ownerID = ownerID)).length then
    (.ok none, db)
  else if db.zones.any (·.name = name) then (.error (.unique ["zones.name"]), db)
  else if !db.hasUser ownerID then (.error .driver, db)
  else (.ok (some (db.seqZones + 1)), db.addZone name passwordHash ownerID)

def deleteZone (db : DB) (zoneID : Int) : Except StoreErr Unit × DB :=
  (.ok (), db.deleteZones fun z => z.id = zoneID)

def getByName (db : DB) (name : String) : Except StoreErr (Option Zone) :=
  .ok (db.zones.find? (·.name = name))

def join (db : DB) (zoneID nodeID : Int) : Except StoreErr Unit × DB :=
  if (⟨zoneID, nodeID⟩ : ZoneMember) ∈ db.zoneMembers then (.ok (), db)
  else if !(db.hasZone zoneID && db.hasNode nodeID) then (.error .driver, db)
  else (.ok (), db.addMember ⟨zoneID, nodeID⟩)

def leave (db : DB) (zoneID nodeID : Int) : Except StoreErr Unit × DB :=
  if (⟨zoneID, nodeID⟩ : ZoneMember) ∈ db.zoneMembers then
    (.ok (), db.deleteMember ⟨zoneID, nodeID⟩)
  else (.error .notMember, db)

def isParticipant (db : DB) (zoneID userID : Int) : Except StoreErr Bool :=
  .ok (db.zones.any (fun z => z.id = zoneID ∧ z.ownerID = userID) ||
    db.zoneMembers.any fun m => m.zoneID = zoneID ∧
      db.nodes.any fun n => n.id = m.nodeID ∧ n.userID = userID)

def zonesForNode (db : DB) (nodeID : Int) : Except StoreErr (List Int) :=
  .ok ((db.zoneMembers.filter (·.nodeID = nodeID)).map (·.zoneID))

/-! ### announcements -/

def announcementsOfUser (db : DB) (userID : Int) : List Announcement :=
  db.announcements.filter fun a => db.nodes.any fun n => n.id = a.nodeID ∧ n.userID = userID

def insertAnnouncementZone (db : DB) (annID zoneID : Int) : Except StoreErr DB :=
  if db.hasAnnouncement annID && db.hasZone zoneID then .ok (db.attach ⟨annID, zoneID⟩)
  else .error .driver

def insertAnnouncement (db : DB) (nodeID : Int) (real : Block) (syntheticBase : BitVec 32) :
    Except StoreErr DB :=
  if db.announcements.any fun a => a.nodeID = nodeID ∧ a.real = real then
    .error (.unique ["announcements.node_id", "announcements.real_base", "announcements.prefix_len"])
  else if db.announcements.any fun a => a.synthetic = ⟨syntheticBase, real.prefixLen⟩ then
    .error (.unique ["announcements.synthetic_base", "announcements.prefix_len"])
  else if !db.hasNode nodeID then .error .driver
  else .ok (db.addAnnouncement nodeID real syntheticBase)

/-- The part of `Create` for a subnet the node does not announce yet. -/
def announceNew (db : DB) (userID nodeID : Int) (real : Block) (zoneID : Int) (limit : Int)
    (pool : Prefix) : Except StoreErr (Announcement × Bool) × DB :=
  if (db.announcements.filter (·.nodeID = nodeID)).any fun a => overlaps real a.real then
    (.error .subnetOverlap, db)
  else if 0 < limit ∧ limit ≤ (db.announcementsOfUser userID).length then
    (.error .announceLimit, db)
  else
    match allocateBlock pool real.prefixLen (db.announcements.map (·.synthetic)) with
    | .error .noSpace => (.error .syntheticPoolExhausted, db)
    | .error _ => (.error .driver, db)
    | .ok synthetic =>
      match db.insertAnnouncement nodeID real synthetic.base with
      | .error e => (.error e, db)
      | .ok db₁ =>
        match db₁.insertAnnouncementZone db₁.seqAnnouncements zoneID with
        | .error e => (.error e, db)
        | .ok db₂ =>
          (.ok (⟨db₁.seqAnnouncements, nodeID, real.base, real.prefixLen, synthetic.base⟩, true), db₂)

/-- `AnnouncementRepo.Create`. -/
def createAnnouncement (db : DB) (userID nodeID : Int) (real : Block) (zoneID : Int) (limit : Int)
    (pool : Prefix) : Except StoreErr (Announcement × Bool) × DB :=
  if (⟨zoneID, nodeID⟩ : ZoneMember) ∉ db.zoneMembers then (.error .notMember, db)
  else
    match db.announcements.find? fun a => a.nodeID = nodeID ∧ a.real = real with
    | some a =>
      -- INSERT OR IGNORE
      if (⟨a.id, zoneID⟩ : AnnouncementZone) ∈ db.announcementZones then (.ok (a, false), db)
      else
        match db.insertAnnouncementZone a.id zoneID with
        | .error e => (.error e, db)
        | .ok db₁ => (.ok (a, true), db₁)
    | none => db.announceNew userID nodeID real zoneID limit pool

def reclaimIfOrphaned (db : DB) (annID : Int) : Bool × DB :=
  if db.attached annID then (false, db)
  else (true, db.deleteAnnouncements fun a => a.id = annID)

def getAnnouncement (db : DB) (annID : Int) : Except StoreErr Announcement :=
  match db.announcementByID? annID with
  | some a => .ok a
  | none => .error .announcementNotFound

def detach (db : DB) (zoneID annID : Int) : Except StoreErr (Announcement × Bool) × DB :=
  match db.announcementByID? annID with
  | none => (.error .announcementNotFound, db)
  | some a =>
    if (⟨annID, zoneID⟩ : AnnouncementZone) ∈ db.announcementZones then
      let r := (db.deleteAttachments (· = ⟨annID, zoneID⟩)).reclaimIfOrphaned annID
      (.ok (a, r.1), r.2)
    else (.error .announcementNotFound, db)

def routesForNode (db : DB) (nodeID : Int) : Except StoreErr (List Prefix) :=
  .ok ((db.announcements.filter (·.nodeID = nodeID)).map (·.synthetic.toPrefix))

/-- The rows of the join of the attachments of `zoneID` with their announcements. -/
def announcementsInZone (db : DB) (zoneID : Int) : List Announcement :=
  (db.announcementZones.filter (·.zoneID = zoneID)).filterMap fun az =>
    db.announcementByID? az.announcementID

def detachEach (zoneID : Int) : List Announcement → DB → List DetachedRoute × DB
  | [], db => ([], db)
  | a :: recs, db =>
    let r := (db.deleteAttachments (· = ⟨a.id, zoneID⟩)).reclaimIfOrphaned a.id
    let rest := detachEach zoneID recs r.2
    (⟨a.id, a.synthetic.toPrefix, r.1⟩ :: rest.1, rest.2)

def detachAllForNodeZone (db : DB) (nodeID zoneID : Int) : Except StoreErr (List DetachedRoute) × DB :=
  let r := detachEach zoneID ((db.announcementsInZone zoneID).filter (·.nodeID = nodeID)) db
  (.ok r.1, r.2)

/-- The node's attachments, a snapshot for the node-deletion cascade. -/
def attachmentsForNode (db : DB) (nodeID : Int) : Except StoreErr (List ZoneDetachment) :=
  .ok (db.announcementZones.filterMap fun az =>
    ((db.announcementByID? az.announcementID).filter (·.nodeID = nodeID)).map fun a =>
      ⟨a.id, nodeID, az.zoneID, a.synthetic.toPrefix, false⟩)

def reclaimEach (zoneID : Int) : List Announcement → DB → List ZoneDetachment × DB
  | [], db => ([], db)
  | a :: dets, db =>
    let r := db.reclaimIfOrphaned a.id
    let rest := reclaimEach zoneID dets r.2
    (⟨a.id, a.nodeID, zoneID, a.synthetic.toPrefix, r.1⟩ :: rest.1, rest.2)

def detachAllForZone (db : DB) (zoneID : Int) : Except StoreErr (List ZoneDetachment) × DB :=
  let r := reclaimEach zoneID (db.announcementsInZone zoneID)
    (db.deleteAttachments (·.zoneID = zoneID))
  (.ok r.1, r.2)

/-! ### user deletion -/

def survivingMemberships (db : DB) (targetID : Int) : List SurvivingMembership :=
  db.zoneMembers.filterMap fun m =>
    match db.nodeByID? m.nodeID, db.zones.find? (·.id = m.zoneID) with
    | some n, some z =>
      if n.userID = targetID ∧ z.ownerID ≠ targetID then some ⟨uint32ToAddr n.ip, m.zoneID⟩ else none
    | _, _ => none

def survivingZoneRoutes (db : DB) (targetID : Int) : List SurvivingZoneRoute :=
  db.announcementZones.filterMap fun az =>
    match db.announcementByID? az.announcementID, db.zones.find? (·.id = az.zoneID) with
    | some a, some z =>
      if db.nodes.any (fun n => n.id = a.nodeID ∧ n.userID = targetID) ∧ z.ownerID ≠ targetID then
        some ⟨az.zoneID, a.synthetic.toPrefix⟩
      else none
    | _, _ => none

/-- The nodes of the orphaned announcements, each once, in the order first seen. -/
def routeRecomputeNodes (db : DB) : List Announcement → List Int → List RouteRecomputeNode
  | [], _ => []
  | a :: orphans, seen =>
    match db.nodeByID? a.nodeID with
    | none => routeRecomputeNodes db orphans seen
    | some n =>
      if n.id ∈ seen then routeRecomputeNodes db orphans seen
      else ⟨n.id, n.pubKey, uint32ToAddr n.ip⟩ :: routeRecomputeNodes db orphans (n.id :: seen)

/-- `UserRepo.DeleteCascade`. -/
def deleteCascade (db : DB) (targetID : Int) : Except StoreErr DeletionResult × DB :=
  match db.users.find? (·.id = targetID) with
  | none => (.error .userNotFound, db)
  | some u =>
    if u.isAdmin ∧ (db.users.filter (·.isAdmin)).length ≤ 1 then (.error .lastAdmin, db)
    else
      let db₁ := db.deleteUser targetID
      let orphans := db₁.announcements.filter fun a => !db₁.attached a.id && db₁.hasNode a.nodeID
      (.ok {
        nodePubKeys := (db.nodes.filter (·.userID = targetID)).map (·.pubKey)
        survivingMemberships := db.survivingMemberships targetID
        ownedZoneIDs := (db.zones.filter (·.ownerID = targetID)).map (·.id)
        survivingZoneRoutes := db.survivingZoneRoutes targetID
        routeRecomputeNodes := db₁.routeRecomputeNodes orphans [] },
      db₁.deleteAnnouncements fun a => orphans.any (·.id = a.id))

end DB

/-- The statements and transactions the handlers issue, one atomic step each. -/
inductive StoreOp
  | createAdmin (username passwordHash : String)
  | register (username passwordHash : String) (redeemable : Bool)
  | lowestFree (first last : BitVec 32)
  | insertNode (userID : Int) (name pubKey platform : String) (ip : BitVec 32) (maxDevices : Int)
  | getNodeByID (nodeID : Int)
  | getOwned (userID nodeID : Int)
  | ownedPubKey (userID nodeID : Int)
  | deleteOwnedNode (userID nodeID : Int)
  | insertZone (ownerID : Int) (name passwordHash : String) (maxOwnedZones : Int)
  | deleteZone (zoneID : Int)
  | getByName (name : String)
  | join (zoneID nodeID : Int)
  | leave (zoneID nodeID : Int)
  | isParticipant (zoneID userID : Int)
  | zonesForNode (nodeID : Int)
  | createAnnouncement (userID nodeID : Int) (real : Block) (zoneID limit : Int) (pool : Prefix)
  | detach (zoneID annID : Int)
  | getAnnouncement (annID : Int)
  | routesForNode (nodeID : Int)
  | detachAllForNodeZone (nodeID zoneID : Int)
  | attachmentsForNode (nodeID : Int)
  | detachAllForZone (zoneID : Int)
  | deleteCascade (targetID : Int)

namespace StoreOp

/-- What the statement returns when it succeeds. -/
@[reducible] def Val : StoreOp → Type
  | createAdmin .. => Int
  | register .. => Int
  | lowestFree .. => Option (BitVec 32)
  | insertNode .. => Option Int
  | getNodeByID _ => Node
  | getOwned .. => Node
  | ownedPubKey .. => String
  | deleteOwnedNode .. => Unit
  | insertZone .. => Option Int
  | deleteZone _ => Unit
  | getByName _ => Option Zone
  | join .. => Unit
  | leave .. => Unit
  | isParticipant .. => Bool
  | zonesForNode _ => List Int
  | createAnnouncement .. => Announcement × Bool
  | detach .. => Announcement × Bool
  | getAnnouncement _ => Announcement
  | routesForNode _ => List Prefix
  | detachAllForNodeZone .. => List DetachedRoute
  | attachmentsForNode _ => List ZoneDetachment
  | detachAllForZone _ => List ZoneDetachment
  | deleteCascade _ => DeletionResult

def exec : (o : StoreOp) → DB → Except StoreErr o.Val × DB
  | createAdmin username passwordHash, db => db.createAdmin username passwordHash
  | register username passwordHash redeemable, db => db.register username passwordHash redeemable
  | lowestFree first last, db => (db.lowestFree first last, db)
  | insertNode userID name pubKey platform ip maxDevices, db =>
    db.insertNode userID name pubKey platform ip maxDevices
  | getNodeByID nodeID, db => (db.getNodeByID nodeID, db)
  | getOwned userID nodeID, db => (db.getOwned userID nodeID, db)
  | ownedPubKey userID nodeID, db => (db.ownedPubKey userID nodeID, db)
  | deleteOwnedNode userID nodeID, db => db.deleteOwnedNode userID nodeID
  | insertZone ownerID name passwordHash maxOwnedZones, db =>
    db.insertZone ownerID name passwordHash maxOwnedZones
  | deleteZone zoneID, db => db.deleteZone zoneID
  | getByName name, db => (db.getByName name, db)
  | join zoneID nodeID, db => db.join zoneID nodeID
  | leave zoneID nodeID, db => db.leave zoneID nodeID
  | isParticipant zoneID userID, db => (db.isParticipant zoneID userID, db)
  | zonesForNode nodeID, db => (db.zonesForNode nodeID, db)
  | createAnnouncement userID nodeID real zoneID limit pool, db =>
    db.createAnnouncement userID nodeID real zoneID limit pool
  | detach zoneID annID, db => db.detach zoneID annID
  | getAnnouncement annID, db => (db.getAnnouncement annID, db)
  | routesForNode nodeID, db => (db.routesForNode nodeID, db)
  | detachAllForNodeZone nodeID zoneID, db => db.detachAllForNodeZone nodeID zoneID
  | attachmentsForNode nodeID, db => (db.attachmentsForNode nodeID, db)
  | detachAllForZone zoneID, db => db.detachAllForZone zoneID
  | deleteCascade targetID, db => db.deleteCascade targetID

end StoreOp
end LanWeave

import LanWeave.Server.Api

/-! The request handlers as programs over the operations of the store, netfw and wg. A step
that answers an error early is a function of what follows it. Errors that are only logged
leave no trace here. -/

namespace LanWeave
open Library

/-! ### common steps -/

def authenticated (id : Option Identity) (k : Identity → Handler Response) : Handler Response :=
  match id with
  | none => return writeJSONError 401 "unauthorized" "Authentication required."
  | some id => k id

def decoded {β : Type} (body : Option β) (k : β → Handler Response) : Handler Response :=
  match body with
  | none => return validationError "Invalid request body."
  | some req => k req

def namedZone (name : String) (absent : Response) (k : Zone → Handler Response) :
    Handler Response := do
  match ← store (.getByName name) with
  | .error _ => return serverError
  | .ok none => return absent
  | .ok (some zone) => k zone

def ownedNode (userID nodeID : Int) (message : String) (k : Node → Handler Response) :
    Handler Response := do
  match ← store (.getOwned userID nodeID) with
  | .error .nodeNotFound => return notFound message
  | .error _ => return serverError
  | .ok node => k node

/-- Only the zone's owner goes on; the check precedes any look at nodes or memberships. -/
def ownedZone (name : String) (userID : Int) (k : Zone → Handler Response) : Handler Response :=
  namedZone name (notFound "Not found.") fun zone =>
  if zone.ownerID ≠ userID then
    return writeJSONError 403 "forbidden" "Only the zone owner may perform this operation."
  else k zone

/-- Only a participant of the zone goes on; others cannot tell whether it exists. -/
def memberZone (name : String) (userID : Int) (k : Zone → Handler Response) : Handler Response :=
  namedZone name (notFound "Not found.") fun zone => do
  match ← store (.isParticipant zone.id userID) with
  | .error _ => return serverError
  | .ok false => return notFound "Not found."
  | .ok true => k zone

def pathID (value message : String) (k : Int → Handler Response) : Handler Response :=
  match parseInt64 value with
  | none => return notFound message
  | some id => k id

/-- Recompute a peer's AllowedIPs from the database, as every shrinking path does. -/
def recomputePeer (nodeID : Int) (pubKey : String) (ip : Addr) : Handler Unit := do
  match ← store (.routesForNode nodeID) with
  | .error _ => return ()
  | .ok routes => let _ ← wg (.setPeerRoutes pubKey ip routes)

/-- The cap of a caller; 0 is unlimited. -/
def Identity.cap (id : Identity) (limit : Int) : Int := if id.isAdmin then 0 else limit

section
variable {κ : Type} (h : Server κ)

/-! ### nodes -/

/-- `^[a-z0-9-]{1,32}$`. -/
def platformPattern (s : String) : Bool :=
  s.toList.all (fun c => ('a' ≤ c && c ≤ 'z') || isDigit c || c = '-') &&
    1 ≤ s.toList.length && s.toList.length ≤ 32

def maxAllocRetries : Nat := 100

/-- `NodeRepo.Create`: on a lost race for the address it tries the next free one. -/
def createNode (userID : Int) (name pubKey platform : String) (first last : BitVec 32)
    (maxDevices : Int) : Nat → Handler (Except StoreErr Node)
  | 0 => return .error .driver
  | retries + 1 => do
    match ← store (.lowestFree first last) with
    | .error e => return .error e
    | .ok none => return .error .poolExhausted
    | .ok (some ip) =>
      match ← store (.insertNode userID name pubKey platform ip maxDevices) with
      | .error e =>
        if isUniqueViolationOn e "nodes.ip" then
          createNode userID name pubKey platform first last maxDevices retries
        else if isUniqueViolationOn e "nodes.wg_pubkey" then return .error .pubKeyTaken
        else if isUniqueViolationOn e "nodes.user_id" || isUniqueViolationOn e "nodes.name" then
          return .error .nodeNameTaken
        else return .error e
      | .ok none => return .error .deviceLimitReached
      | .ok (some id) => return .ok ⟨id, userID, name, pubKey, ip, platform⟩

def createNodeError : StoreErr → Response
  | .nodeNameTaken => writeJSONError 409 "node_name_taken" "You already have a node with that name."
  | .pubKeyTaken => writeJSONError 409 "pubkey_taken" "That public key is already registered."
  | .deviceLimitReached =>
    writeJSONError 409 "device_limit_reached" "You have reached your device limit."
  | .poolExhausted =>
    writeJSONError 503 "pool_exhausted" "No addresses are available in the pool."
  | _ => serverError

/-- `NodeRepo.DeleteOwned`: the key is looked up in one statement, the row deleted in the next. -/
def deleteOwned (userID nodeID : Int) : Handler (Except StoreErr String) := do
  match ← store (.ownedPubKey userID nodeID) with
  | .error e => return .error e
  | .ok pubKey =>
    match ← store (.deleteOwnedNode userID nodeID) with
    | .error e => return .error e
    | .ok () => return .ok pubKey

/-- A new node becomes a peer; when that fails it is deleted again. -/
def addNodePeer (id : Identity) (node : Node) : Handler Response := do
  match ← wg (.addPeer node.pubKey (uint32ToAddr node.ip)) with
  | .error _ =>
    let _ ← deleteOwned id.userID node.id
    return serverError
  | .ok () => return ⟨201, .node node.id node.name (uint32ToAddr node.ip) node.platform⟩

def registerNode (id : Option Identity) (body : Option RegisterNodeRequest) : Handler Response :=
  authenticated id fun id =>
  decoded body fun req =>
  let name := trimSpace req.name
  if name = "" ∨ 64 < byteLen name then
    return validationError "Node name must be 1-64 characters."
  else if (h.parseKey req.wgPubKey).isNone then
    return validationError "Invalid WireGuard public key."
  else
    let platform := if req.platform = "" then "unknown" else req.platform
    if !platformPattern platform then
      return validationError "Platform must be 1-32 lowercase letters, digits or dashes."
    else
      match poolRange h.network with
      | none => return serverError
      | some (first, last) => do
        match ← createNode id.userID name req.wgPubKey platform first last
          (id.cap h.maxDevicesPerUser) maxAllocRetries with
        | .error e => return createNodeError e
        | .ok node => addNodePeer id node

def deleteNode (id : Option Identity) (path : String) : Handler Response :=
  authenticated id fun id =>
  pathID path "Node not found." fun nodeID =>
  ownedNode id.userID nodeID "Node not found." fun node => do
  match ← store (.zonesForNode nodeID) with
  | .error _ => return serverError
  | .ok zoneIDs =>
    match ← store (.attachmentsForNode nodeID) with
    | .error _ => return serverError
    | .ok attachments =>
      match ← deleteOwned id.userID nodeID with
      | .error .nodeNotFound => return notFound "Node not found."
      | .error _ => return serverError
      | .ok _ =>
        let _ ← wg (.removePeer node.pubKey)
        Prog.forEach (fun zid => do
          let _ ← netfw (.removeMember zid (uint32ToAddr node.ip))) zoneIDs
        Prog.forEach (fun att => do
          let _ ← netfw (.removeZoneRoute att.zoneID att.synthetic)) attachments
        return noContent

/-! ### zones -/

def minZonePasswordLen : Nat := 8

def autoJoinNode (userID nodeID : Int) (k : Option Node → Handler Response) : Handler Response :=
  if nodeID = 0 then k none
  else ownedNode userID nodeID "Node not found." fun node => k (some node)

/-- Hashing a password fails where no salt can be drawn. -/
def salted (salt : Option String) (k : String → Handler Response) : Handler Response :=
  match salt with
  | none => return serverError
  | some salt => k salt

/-- `ZoneRepo.Create`. -/
def createZoneRow (ownerID : Int) (name passwordHash : String) (maxOwnedZones : Int) :
    Handler (Except StoreErr Int) := do
  match ← store (.insertZone ownerID name passwordHash maxOwnedZones) with
  | .error e => return .error (if isUniqueViolationOn e "zones.name" then .zoneNameTaken else e)
  | .ok none => return .error .ownedZoneLimitReached
  | .ok (some id) => return .ok id

def createZoneError : StoreErr → Response
  | .zoneNameTaken => writeJSONError 409 "zone_name_taken" "That zone name is already taken."
  | .ownedZoneLimitReached =>
    writeJSONError 409 "zone_limit_reached" "You have reached your zone limit."
  | _ => serverError

def rollbackZone (zoneID : Int) : Handler Unit := do
  let _ ← store (.deleteZone zoneID)
  let _ ← netfw (.deleteZone zoneID)

/-- The creator's node joins the zone just created. -/
def joinCreator (zoneID : Int) (node : Node) (created : Response) : Handler Response := do
  match ← store (.join zoneID node.id) with
  | .error _ =>
    rollbackZone zoneID
    return serverError
  | .ok () =>
    match ← netfw (.addMember zoneID (uint32ToAddr node.ip)) with
    | .error _ =>
      rollbackZone zoneID
      return serverError
    | .ok () => return created

/-- The part of `createZone` after validation. -/
def createZoneFor (id : Identity) (name passwordHash : String) (member : Option Node) :
    Handler Response := do
  match ← createZoneRow id.userID name passwordHash (id.cap h.maxOwnedZonesPerUser) with
  | .error e => return createZoneError e
  | .ok zoneID =>
    match ← netfw (.addZone zoneID) with
    | .error _ =>
      let _ ← store (.deleteZone zoneID)
      return serverError
    | .ok () =>
      match member with
      | none => return ⟨201, .zone zoneID name true⟩
      | some node => joinCreator zoneID node ⟨201, .zone zoneID name true⟩

def createZone (id : Option Identity) (body : Option CreateZoneRequest) (salt : Option String) :
    Handler Response :=
  authenticated id fun id =>
  decoded body fun req =>
  let name := trimSpace req.name
  if name = "" ∨ 64 < byteLen name then
    return validationError "Zone name must be 1-64 characters."
  else if byteLen req.password < minZonePasswordLen then
    return validationError "Zone password must be at least 8 characters."
  else
    autoJoinNode id.userID req.nodeID fun member =>
    salted salt fun salt => createZoneFor h id name (h.hashPassword salt req.password) member

/-- One answer for an unknown zone and for a wrong password. -/
def zoneOrPassword : Response :=
  writeJSONError 403 "invalid_zone_or_password" "Invalid zone or password."

/-- A node joins a zone; when its address cannot be admitted the membership is undone. -/
def joinNode (zone : Zone) (node : Node) : Handler Response := do
  match ← store (.join zone.id node.id) with
  | .error _ => return serverError
  | .ok () =>
    match ← netfw (.addMember zone.id (uint32ToAddr node.ip)) with
    | .error _ =>
      let _ ← store (.leave zone.id node.id)
      return serverError
    | .ok () => return ⟨200, .empty⟩

def joinZone (id : Option Identity) (name : String) (body : Option JoinZoneRequest) :
    Handler Response :=
  authenticated id fun id =>
  decoded body fun req =>
  if req.nodeID = 0 ∨ req.password = "" then
    return validationError "node_id and password are required."
  else
    namedZone name zoneOrPassword fun zone =>
    if !h.verifyPassword req.password zone.passwordHash then return zoneOrPassword
    else
      ownedNode id.userID req.nodeID "Node not found." fun node => joinNode zone node

/-- The node's announcement attachments to a zone it has just left. -/
def cascadeNodeZoneAnnouncements (node : Node) (zoneID : Int) : Handler Unit := do
  match ← store (.detachAllForNodeZone node.id zoneID) with
  | .error _ => return ()
  | .ok dets =>
    Prog.forEach (fun det => do let _ ← netfw (.removeZoneRoute zoneID det.synthetic)) dets
    if dets.any (·.reclaimed) then recomputePeer node.id node.pubKey (uint32ToAddr node.ip)
    else return ()

/-- What leaving and kicking do once the node is known. -/
def removeFromZone (zone : Zone) (node : Node) : Handler Response := do
  match ← store (.leave zone.id node.id) with
  | .error .notMember => return notFound "Not found."
  | .error _ => return serverError
  | .ok () =>
    let _ ← netfw (.removeMember zone.id (uint32ToAddr node.ip))
    cascadeNodeZoneAnnouncements node zone.id
    return noContent

def leaveZone (id : Option Identity) (name : String) (body : Option LeaveZoneRequest) :
    Handler Response :=
  authenticated id fun id =>
  decoded body fun req =>
  namedZone name (notFound "Not found.") fun zone =>
  ownedNode id.userID req.nodeID "Not found." fun node =>
  removeFromZone zone node

def kickMember (id : Option Identity) (name path : String) : Handler Response :=
  authenticated id fun id =>
  ownedZone name id.userID fun zone =>
  pathID path "Not found." fun nodeID => do
  match ← store (.getNodeByID nodeID) with
  | .error .nodeNotFound => return notFound "Not found."
  | .error _ => return serverError
  | .ok node => removeFromZone zone node

/-- Each node that lost an announcement is recomputed once. -/
def recomputeReclaimedPeers : List ZoneDetachment → List Int → Handler Unit
  | [], _ => return ()
  | det :: dets, seen =>
    if !det.reclaimed || seen.contains det.nodeID then recomputeReclaimedPeers dets seen
    else do
      match ← store (.getNodeByID det.nodeID) with
      | .error _ => recomputeReclaimedPeers dets (det.nodeID :: seen)
      | .ok node =>
        recomputePeer det.nodeID node.pubKey (uint32ToAddr node.ip)
        recomputeReclaimedPeers dets (det.nodeID :: seen)

def deleteZone (id : Option Identity) (name : String) : Handler Response :=
  authenticated id fun id =>
  ownedZone name id.userID fun zone => do
  match ← store (.detachAllForZone zone.id) with
  | .error _ => return serverError
  | .ok dets =>
    match ← store (.deleteZone zone.id) with
    | .error _ => return serverError
    | .ok () =>
      let _ ← netfw (.deleteZone zone.id)
      recomputeReclaimedPeers dets []
      return noContent

/-! ### announcements -/

def announcePlatforms : List String := ["openwrt"]

/-- `none` when the subnet may be announced, else why not. -/
def validAnnouncedSubnet (p : Prefix) : Option String :=
  if p.bits < 16 ∨ 30 < p.bits then some "Subnet prefix length must be between /16 and /30."
  else if !isRFC1918 p then some "Subnet must be a private (RFC1918) range."
  else
    let meets (q : Prefix) := overlaps (blockFromPrefix p) (blockFromPrefix q)
    if (parsePrefix4 h.network).any meets then some "Subnet overlaps the VPN address pool."
    else if h.announcePool.any meets then some "Subnet overlaps the synthetic address pool."
    else none

theorem validAnnouncedSubnet_bits {h : Server κ} {p : Prefix} (hp : validAnnouncedSubnet h p = none) :
    16 ≤ p.bits ∧ p.bits ≤ 30 := by
  unfold validAnnouncedSubnet at hp
  split_ifs at hp
  omega

def announceDisabled : Response := writeJSONError 503 "announce_disabled"
  "Subnet announcements are disabled on this server (no synthetic pool configured)."

def platformUnsupported : Response := writeJSONError 409 "platform_unsupported"
  ("This node's platform cannot announce subnets " ++
    "(requires a router client that performs address translation).")

def createAnnouncementError : StoreErr → Response
  | .notMember => notFound "Node is not a member of this zone."
  | .subnetOverlap => writeJSONError 409 "subnet_overlap"
      "The subnet overlaps another announcement of the same node."
  | .announceLimit => writeJSONError 409 "announce_limit_reached"
      "You have reached your announced subnet limit."
  | .syntheticPoolExhausted => writeJSONError 503 "synthetic_pool_exhausted"
      "No synthetic address block of that size is available."
  | _ => serverError

def rollbackAnnouncement (zoneID annID : Int) (node : Node) : Handler Unit := do
  match ← store (.detach zoneID annID) with
  | .error _ => return ()
  | .ok _ => recomputePeer node.id node.pubKey (uint32ToAddr node.ip)

/-- The dataplane growth for a fresh attachment; `false` when it had to be rolled back. -/
def growDataplane (zone : Zone) (node : Node) (ann : Announcement) : Handler Bool := do
  match ← store (.routesForNode node.id) with
  | .error _ =>
    rollbackAnnouncement zone.id ann.id node
    return false
  | .ok routes =>
    match ← wg (.setPeerRoutes node.pubKey (uint32ToAddr node.ip) routes) with
    | .error _ =>
      rollbackAnnouncement zone.id ann.id node
      return false
    | .ok () =>
      match ← netfw (.addZoneRoute zone.id ann.synthetic.toPrefix) with
      | .error _ =>
        rollbackAnnouncement zone.id ann.id node
        return false
      | .ok () => return true

/-- The part of `createAnnouncement` after validation. -/
def announceSubnet (id : Identity) (zone : Zone) (node : Node) (subnet pool : Prefix) :
    Handler Response := do
  match ← store (.createAnnouncement id.userID node.id (blockFromPrefix subnet) zone.id
    (id.cap h.maxAnnouncedSubnetsPerUser) pool) with
  | .error e => return createAnnouncementError e
  | .ok (ann, attached) =>
    let created : Response := ⟨201, .announcement ann.id node.id node.name id.username
      ann.real.toPrefix ann.synthetic.toPrefix⟩
    -- an idempotent re-attach already has its kernel state in place
    if attached then
      match ← growDataplane zone node ann with
      | false => return serverError
      | true => return created
    else return created

def createAnnouncement (id : Option Identity) (name : String)
    (body : Option CreateAnnouncementRequest) : Handler Response :=
  authenticated id fun id =>
  memberZone name id.userID fun zone =>
  decoded body fun req =>
  match h.announcePool with
  | none => return announceDisabled
  | some pool =>
    ownedNode id.userID req.nodeID "Node not found." fun node =>
    if !announcePlatforms.contains node.platform then
      return platformUnsupported
    else
      match parsePrefix4 req.subnet with
      | none => return validationError "Subnet must be an IPv4 CIDR like 192.168.1.0/24."
      | some p =>
        match validAnnouncedSubnet h p.masked with
        | some message => return writeJSONError 400 "subnet_invalid" message
        | none => announceSubnet h id zone node p.masked pool

def deleteAnnouncement (id : Option Identity) (name path : String) : Handler Response :=
  authenticated id fun id =>
  memberZone name id.userID fun zone =>
  pathID path "Not found." fun annID => do
  match ← store (.getAnnouncement annID) with
  | .error .announcementNotFound => return notFound "Not found."
  | .error _ => return serverError
  | .ok ann =>
    match ← store (.getNodeByID ann.nodeID) with
    | .error _ => return serverError
    | .ok node =>
      if node.userID ≠ id.userID ∧ zone.ownerID ≠ id.userID then return notFound "Not found."
      else
        match ← store (.detach zone.id annID) with
        | .error .announcementNotFound => return notFound "Not found."
        | .error _ => return serverError
        | .ok (_, reclaimed) =>
          let _ ← netfw (.removeZoneRoute zone.id ann.synthetic.toPrefix)
          if reclaimed then
            recomputePeer node.id node.pubKey (uint32ToAddr node.ip)
            return noContent
          else return noContent

/-! ### users -/

def deleteCascadeError : StoreErr → Response
  | .userNotFound => notFound "User not found."
  | .lastAdmin => writeJSONError 409 "last_admin" "Cannot delete the last administrator."
  | _ => serverError

def deleteUser (id : Option Identity) (path : String) : Handler Response :=
  authenticated id fun id =>
  pathID path "User not found." fun targetID =>
  if targetID = id.userID then
    return writeJSONError 403 "cannot_delete_self" "You cannot delete your own account."
  else do
    match ← store (.deleteCascade targetID) with
    | .error e => return deleteCascadeError e
    | .ok result =>
      Prog.forEach (fun pub => do let _ ← wg (.removePeer pub)) result.nodePubKeys
      Prog.forEach (fun m => do let _ ← netfw (.removeMember m.zoneID m.ip))
        result.survivingMemberships
      Prog.forEach (fun zid => do let _ ← netfw (.deleteZone zid)) result.ownedZoneIDs
      Prog.forEach (fun route => do let _ ← netfw (.removeZoneRoute route.zoneID route.synthetic))
        result.survivingZoneRoutes
      Prog.forEach (fun n => recomputePeer n.nodeID n.pubKey n.ip) result.routeRecomputeNodes
      return noContent

def handle (r : Request) : Handler Response :=
  match r.call with
  | .registerNode body => registerNode h r.identity body
  | .deleteNode id => deleteNode r.identity id
  | .createZone body salt => createZone h r.identity body salt
  | .joinZone name body => joinZone h r.identity name body
  | .leaveZone name body => leaveZone r.identity name body
  | .kickMember name nodeID => kickMember r.identity name nodeID
  | .deleteZone name => deleteZone r.identity name
  | .createAnnouncement name body => createAnnouncement h r.identity name body
  | .deleteAnnouncement name id => deleteAnnouncement r.identity name id
  | .deleteUser id => deleteUser r.identity id

end
end LanWeave

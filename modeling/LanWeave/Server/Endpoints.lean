import LanWeave.Library.Lift
import LanWeave.Server.Handlers
import LanWeave.Server.Invites
import LanWeave.Server.Queries
import LanWeave.Server.StoreCases

/-! The authenticated part of the API, behind its middleware: the requests that reach the
dataplane, and those that only read or change rows. -/

namespace LanWeave
open Library

/-- The dataplane with its database, and the invites. -/
structure Site (κ : Type) where
  world : World κ
  invites : Invites

def Site.registry {κ : Type} (s : Site κ) : Registry := ⟨s.world.db, s.invites⟩

inductive Act
  | op (o : Op)
  | updatePassword (zoneID : Int) (passwordHash : String)
  | listByUser (userID : Int)
  | listForUser (userID : Int)
  | membersByZone (zoneID : Int)
  | listByZone (zoneID : Int)
  | insertInvite (createdBy : Int) (code : String) (now ttl : Int)
  | listInvites

@[reducible] def Act.Res : Act → Type
  | op o => o.Res
  | updatePassword .. => Except StoreErr Unit
  | listByUser _ => Except StoreErr (List Node)
  | listForUser _ => Except StoreErr (List ZoneWithOwnership)
  | membersByZone _ => Except StoreErr (List MemberRow)
  | listByZone _ => Except StoreErr (List AnnouncementRow)
  | insertInvite .. => Except StoreErr Unit
  | listInvites => Except StoreErr (List InviteRow)

/-- The user whose row an operation has deleted. -/
def Op.deletedUser : (o : Op) → o.Res → Option Int
  | .store (.deleteCascade targetID), .ok _ => some targetID
  | _, _ => none

section
variable {κ : Type} [DecidableEq κ] (parseKey : String → Option κ)

def siteSem : Semantics Act Act.Res Bool (Site κ)
  | .op o, fails, s =>
    let r := sem parseKey o fails s.world
    (r.1, ⟨r.2, match o.deletedUser r.1 with
      | some userID => s.invites.forget userID
      | none => s.invites⟩)
  | .updatePassword zoneID passwordHash, fails, s =>
    if fails then (.error .driver, s)
    else (.ok (), { s with
      world := { s.world with db := s.world.db.updatePassword zoneID passwordHash } })
  | .listByUser userID, fails, s =>
    (if fails then .error .driver else .ok (s.world.db.listByUser userID), s)
  | .listForUser userID, fails, s =>
    (if fails then .error .driver else .ok (s.world.db.listForUser userID), s)
  | .membersByZone zoneID, fails, s =>
    (if fails then .error .driver else .ok (s.world.db.membersByZone zoneID), s)
  | .listByZone zoneID, fails, s =>
    (if fails then .error .driver else .ok (s.world.db.listByZone zoneID), s)
  | .insertInvite createdBy code now ttl, fails, s =>
    if fails then (.error .driver, s)
    else
      let r := s.registry.insertInvite createdBy code now ttl
      (r.1, { s with invites := r.2.invites })
  | .listInvites, fails, s => (if fails then .error .driver else .ok s.registry.listInvites, s)

end

abbrev Service := Prog Act Act.Res

def act (a : Act) : Service a.Res := .op a .pure

/-- What else the handlers are configured with, and the status of a node's tunnel. -/
structure Handlers (κ : Type) extends Server κ where
  publicKey : String
  endpoint : String
  mtu : Int
  inviteTTL : Int
  online : String → Bool
  lastHandshake : String → Option String

structure NodeItem where
  id : Int
  name : String
  ip : Addr
  platform : String
  online : Bool
  lastHandshake : Option String
deriving DecidableEq

structure ChangeZonePasswordRequest where
  password : String

inductive Endpoint
  | call (c : Call)
  | me
  | serverInfo
  | listNodes
  | listZones
  | zoneMembers (name : String)
  | listAnnouncements (name : String)
  | changeZonePassword (name : String) (body : Option ChangeZonePasswordRequest) (salt : Option String)
  /-- `draw` is what crypto/rand yields, one code for each attempt, `none` where it fails. -/
  | createInvite (now : Int) (draw : ℕ → Option String)
  | listInvites

inductive Answer
  | plain (r : Response)
  | me (userID : Int) (username : String) (isAdmin : Bool)
  | serverInfo (publicKey endpoint network : String) (mtu : Int)
  | nodes (items : List NodeItem)
  | zones (items : List ZoneWithOwnership)
  | members (items : List MemberRow)
  | announcements (items : List AnnouncementRow)
  | invite (code : String) (expiresAt : Option String)
  | invites (items : List InviteRow)

namespace Service

def error (r : Response) : Service Answer := return .plain r

/-- `AuthRequired`. -/
def authed (id : Option Identity) (k : Identity → Service Answer) : Service Answer :=
  match id with
  | none => error (writeJSONError 401 "unauthorized" "Authentication required.")
  | some id => k id

/-- `AdminRequired`: the claim of the token decides. -/
def admin (id : Identity) (k : Service Answer) : Service Answer :=
  if !id.isAdmin then error (writeJSONError 403 "forbidden" "Administrator privileges required.")
  else k

def namedZone (name : String) (k : Zone → Service Answer) : Service Answer := do
  match ← act (.op (.store (.getByName name))) with
  | .error _ => error serverError
  | .ok none => error (notFound "Not found.")
  | .ok (some zone) => k zone

def ownedZone (name : String) (userID : Int) (k : Zone → Service Answer) : Service Answer :=
  namedZone name fun zone =>
  if zone.ownerID ≠ userID then
    error (writeJSONError 403 "forbidden" "Only the zone owner may perform this operation.")
  else k zone

def memberZone (name : String) (userID : Int) (k : Zone → Service Answer) : Service Answer :=
  namedZone name fun zone => do
  match ← act (.op (.store (.isParticipant zone.id userID))) with
  | .error _ => error serverError
  | .ok false => error (notFound "Not found.")
  | .ok true => k zone

/-- The rows of a query, or a server error. -/
def rows {β : Type} (query : Service (Except StoreErr β)) (k : β → Answer) : Service Answer := do
  match ← query with
  | .error _ => error serverError
  | .ok b => return k b

end Service

section
variable {κ : Type} (h : Handlers κ)
open Service

def listNodes (id : Identity) : Service Answer :=
  rows (act (.listByUser id.userID)) fun nodes => .nodes <| nodes.map fun n =>
    ⟨n.id, n.name, uint32ToAddr n.ip, n.platform, h.online n.pubKey, h.lastHandshake n.pubKey⟩

def listZones (id : Identity) : Service Answer := rows (act (.listForUser id.userID)) .zones

def zoneMembers (id : Identity) (name : String) : Service Answer :=
  Service.memberZone name id.userID fun zone => rows (act (.membersByZone zone.id)) .members

def listAnnouncements (id : Identity) (name : String) : Service Answer :=
  Service.memberZone name id.userID fun zone => rows (act (.listByZone zone.id)) .announcements

def changeZonePassword (id : Identity) (name : String) (body : Option ChangeZonePasswordRequest)
    (salt : Option String) : Service Answer :=
  Service.ownedZone name id.userID fun zone =>
  match body with
  | none => error (validationError "Invalid request body.")
  | some req =>
    if byteLen req.password < minZonePasswordLen then
      error (validationError "Zone password must be at least 8 characters.")
    else
      match salt with
      | none => error serverError
      | some salt => do
        match ← act (.updatePassword zone.id (h.hashPassword salt req.password)) with
        | .error _ => error serverError
        | .ok () => return .plain ⟨200, .empty⟩

/-- `InviteRepo.Create`: on a collision it tries the next code. -/
def createInviteRow (createdBy now ttl : Int) (draw : ℕ → Option String) :
    ℕ → Service (Except StoreErr String)
  | 0 => return .error .driver
  | attempts + 1 =>
    match draw attempts with
    | none => return .error .driver
    | some code => do
      match ← act (.insertInvite createdBy code now ttl) with
      | .error (.unique _) => createInviteRow createdBy now ttl draw attempts
      | .error e => return .error e
      | .ok () => return .ok code

def createInvite (id : Identity) (now : Int) (draw : ℕ → Option String) : Service Answer := do
  match ← createInviteRow id.userID now h.inviteTTL draw 5 with
  | .error _ => error serverError
  | .ok code => return .invite code (Registry.expiry now h.inviteTTL)

def listInvites : Service Answer := rows (act .listInvites) .invites

def plain (p : Handler Response) : Service Answer := p.lift Act.op >>= fun r => return .plain r

/-- A request to the authenticated part of the API. -/
def answer (id : Option Identity) (e : Endpoint) : Service Answer :=
  authed id fun i =>
  match e with
  | .call (.deleteUser path) => admin i (plain (deleteUser id path))
  | .call c => plain (handle h.toServer ⟨id, c⟩)
  | .me => return .me i.userID i.username i.isAdmin
  | .serverInfo => return .serverInfo h.publicKey h.endpoint h.network h.mtu
  | .listNodes => listNodes h i
  | .listZones => listZones i
  | .zoneMembers name => zoneMembers i name
  | .listAnnouncements name => listAnnouncements i name
  | .changeZonePassword name body salt => changeZonePassword h i name body salt
  | .createInvite now draw => admin i (createInvite h i now draw)
  | .listInvites => admin i listInvites

end
/-- A server without anything but its API configured, on which no tunnel has had a handshake. -/
def Server.bare {κ : Type} (h : Server κ) : Handlers κ :=
  { h with publicKey := "", endpoint := "", mtu := 1420, inviteTTL := 0, online := fun _ => false
           lastHandshake := fun _ => none }

section
open Prog
variable {κ : Type} [DecidableEq κ] {parseKey : String → Option κ} {s : Site κ}
  {Q : Answer → Site κ → Prop}

theorem always_plain {p : Handler Response} {Q : Response → World κ → Prop}
    (hp : p.Always (sem parseKey) s.world Q) :
    (plain p).Always (siteSem parseKey) s fun a s' => ∃ r, a = .plain r ∧ Q r s'.world := by
  refine always_bind.mpr (Always.mono (always_lift Site.world
    (fun _ _ _ => ⟨rfl, rfl⟩) hp) fun r s' hr => ?_)
  exact ⟨r, rfl, hr⟩

theorem run_act {α : Type} (a : Act) (k : a.Res → Service α) :
    (act a >>= k).run (siteSem parseKey) false s =
      (k (siteSem parseKey a false s).1).run (siteSem parseKey) false (siteSem parseKey a false s).2 :=
  rfl

theorem siteSem_getByName (name : String) (s : Site κ) :
    siteSem parseKey (.op (.store (.getByName name))) false s = (s.world.db.getByName name, s) := rfl

theorem siteSem_isParticipant (zoneID userID : Int) (s : Site κ) :
    siteSem parseKey (.op (.store (.isParticipant zoneID userID))) false s =
      (s.world.db.isParticipant zoneID userID, s) := rfl

theorem always_namedZone {name : String} {k : Zone → Service Answer} (hq : ∀ r, Q (.plain r) s)
    (hk : ∀ zone ∈ s.world.db.zones, zone.name = name → (k zone).Always (siteSem parseKey) s Q) :
    (Service.namedZone name k).Always (siteSem parseKey) s Q := by
  intro fails
  cases fails with
  | true => exact hq _
  | false =>
    simp only [siteSem_getByName]
    cases hr : s.world.db.getByName name with
    | error e => exact hq _
    | ok r =>
      cases r with
      | none => exact hq _
      | some zone =>
        obtain ⟨hzone, hname⟩ := DB.getByName_ok hr
        exact hk zone hzone hname

theorem always_ownedZone {name : String} {userID : Int} {k : Zone → Service Answer}
    (hq : ∀ r, Q (.plain r) s) (hk : ∀ zone ∈ s.world.db.zones, zone.name = name →
      zone.ownerID = userID → (k zone).Always (siteSem parseKey) s Q) :
    (Service.ownedZone name userID k).Always (siteSem parseKey) s Q := by
  refine always_namedZone hq fun zone hzone hname => ?_
  split_ifs with howner
  · exact hq _
  · exact hk zone hzone hname (not_not.mp howner)

theorem always_memberZone {name : String} {userID : Int} {k : Zone → Service Answer}
    (hq : ∀ r, Q (.plain r) s) (hk : ∀ zone ∈ s.world.db.zones, zone.name = name →
      s.world.db.isParticipant zone.id userID = .ok true → (k zone).Always (siteSem parseKey) s Q) :
    (Service.memberZone name userID k).Always (siteSem parseKey) s Q := by
  refine always_namedZone hq fun zone hzone hname fails => ?_
  cases fails with
  | true => exact hq _
  | false =>
    simp only [siteSem_isParticipant]
    cases hr : s.world.db.isParticipant zone.id userID with
    | error e => exact hq _
    | ok b =>
      cases b with
      | false => exact hq _
      | true => exact hk zone hzone hname hr

end
end LanWeave

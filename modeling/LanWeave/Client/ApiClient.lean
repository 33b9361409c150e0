import LanWeave.Client.RouteSync
import LanWeave.Client.State
import LanWeave.Golang.Strings
import LanWeave.Library.Program
import LanWeave.Router.Natctl

/-! The API client that the desktop application and the router share, and what else their
commands do on the machine, as the operations of their programs. -/

namespace LanWeave
open Library

structure LoginResponse where
  token : String
  refreshToken : String

structure NodeResponse where
  id : Int
  name : String
  ip : String
deriving DecidableEq

structure ServerInfoResponse where
  publicKey : String
  endpoint : String
  network : String

structure MeResponse where
  userID : Int
  username : String
  isAdmin : Bool

/-- A request of the client, with what it sends. -/
inductive ApiCall
  | register (inviteCode username password : String)
  | login (username password : String)
  | refresh (refreshToken : String)
  | logout (refreshToken : String)
  | me
  | registerNode (name pubKey platform : String)
  | listNodes
  | deleteNode (nodeID : Int)
  | serverInfo
  | createZone (name : String) (nodeID : Int) (password : String)
  | listZones
  | joinZone (name : String) (nodeID : Int) (password : String)
  | leaveZone (name : String) (nodeID : Int)
  | zoneMembers (name : String)
  | changeZonePassword (name password : String)
  | deleteZone (name : String)
  | kickMember (name : String) (nodeID : Int)
  | createAnnouncement (zone : String) (nodeID : Int) (subnet : String)
  | deleteAnnouncement (zone : String) (id : Int)
  | listAnnouncements (zone : String)
deriving DecidableEq

namespace ApiCall

def auth : ApiCall → Bool
  | register .. | login .. | refresh _ | logout _ => false
  | _ => true

/-- The path below `/api/v1`, by its segments. -/
def path : ApiCall → List String
  | register .. => ["register"]
  | login .. => ["login"]
  | refresh _ => ["refresh"]
  | logout _ => ["logout"]
  | me => ["me"]
  | registerNode .. | listNodes => ["nodes"]
  | deleteNode id => ["nodes", toString id]
  | serverInfo => ["server"]
  | createZone .. | listZones => ["zones"]
  | joinZone name .. => ["zones", name, "join"]
  | leaveZone name _ => ["zones", name, "leave"]
  | zoneMembers name => ["zones", name, "members"]
  | changeZonePassword name _ | deleteZone name => ["zones", name]
  | kickMember name id => ["zones", name, "members", toString id]
  | createAnnouncement zone .. | listAnnouncements zone => ["zones", zone, "announcements"]
  | deleteAnnouncement zone id => ["zones", zone, "announcements", toString id]

/-- The path contains `/leave` or `/members/`. -/
def leavesOrKicks (c : ApiCall) : Bool :=
  c.path.any (fun s => "leave".toList.isPrefixOf s.toList) || c.path.dropLast.contains "members"

abbrev Body : ApiCall → Type
  | login .. => LoginResponse
  | refresh _ => String
  | me => MeResponse
  | registerNode .. => NodeResponse
  | listNodes => List NodeResponse
  | serverInfo => ServerInfoResponse
  | createZone .. => ZoneResponse
  | listZones => List ZoneResponse
  | zoneMembers _ => List ZoneMemberResponse
  | createAnnouncement .. => AnnouncementResponse
  | listAnnouncements _ => List AnnouncementResponse
  | _ => Unit

end ApiCall

inductive HttpResponse (β : Type)
  /-- A status of 200 to 299; there is no body where it does not decode. -/
  | ok (body : Option β)
  | status (code : Nat) (error message : String)

/-- What comes of one request: the certificate presented and whether it verifies by itself,
and the response of the server behind it. -/
inductive Exchange (β : Type)
  | unreachable
  | presented (fingerprint : String) (verifies : Bool) (response : HttpResponse β)

inductive ApiErr
  | unreachable
  | cert (fingerprint : String) (changed : Bool)
  | decode
  | sessionExpired
  | authFailed
  | refreshFailed
  | nodeNameTaken
  | pubKeyTaken
  | poolExhausted
  | deviceLimitReached
  | zoneNameTaken
  | ownedZoneLimitReached
  | zoneOrPassword
  | notOwner
  | platformUnsupported
  | announceDisabled
  | subnetInvalid
  | subnetOverlap
  | announceLimit
  | syntheticPoolExhausted
  | notMember
  | zoneNotFound
  | usernameTaken
  | inviteInvalid
  | server
deriving DecidableEq

/-- The codes of the error envelope that have an error of their own. -/
def envelopeErr : String → Option ApiErr
  | "node_name_taken" => some .nodeNameTaken
  | "pubkey_taken" => some .pubKeyTaken
  | "pool_exhausted" => some .poolExhausted
  | "device_limit_reached" => some .deviceLimitReached
  | "zone_name_taken" => some .zoneNameTaken
  | "zone_limit_reached" => some .ownedZoneLimitReached
  | "invalid_zone_or_password" => some .zoneOrPassword
  | "forbidden" => some .notOwner
  | "platform_unsupported" => some .platformUnsupported
  | "announce_disabled" => some .announceDisabled
  | "subnet_invalid" => some .subnetInvalid
  | "subnet_overlap" => some .subnetOverlap
  | "announce_limit_reached" => some .announceLimit
  | "synthetic_pool_exhausted" => some .syntheticPoolExhausted
  | _ => none

def containsUser (s : String) : Bool :=
  (toLower s).toList.tails.any fun t => "user".toList.isPrefixOf t

def mapError (c : ApiCall) (code : Nat) (error message : String) : ApiErr :=
  match envelopeErr error with
  | some err => err
  | none =>
    match code with
    | 401 => if c.auth then .sessionExpired else .authFailed
    | 404 => if c.leavesOrKicks then .notMember else .zoneNotFound
    | 409 =>
      if c.path = ["register"] then
        if containsUser (error ++ message) then .usernameTaken else .inviteInvalid
      else .server
    | 400 => if c.path = ["register"] then .inviteInvalid else .server
    | _ => .server

structure ApiClient where
  baseURL : String
  token : String
  refreshToken : String
  insecure : Bool
  /-- Empty where no certificate is pinned. -/
  pinnedCert : String
deriving DecidableEq

/-- `VerifyConnection`, which `--insecure` turns off. -/
def ApiClient.accepts (c : ApiClient) (fingerprint : String) (verifies : Bool) : Bool :=
  c.insecure || (c.pinnedCert ≠ "" && fingerprint = c.pinnedCert) || verifies

/-- What one request comes to for the caller. -/
def ApiClient.outcome (c : ApiClient) (call : ApiCall) : Exchange call.Body → Except ApiErr call.Body
  | .unreachable => .error .unreachable
  | .presented fingerprint verifies response =>
    if !c.accepts fingerprint verifies then .error (.cert fingerprint (c.pinnedCert ≠ ""))
    else
      match response with
      | .ok (some body) => .ok body
      | .ok none => .error .decode
      | .status code error message => .error (mapError call code error message)

inductive KeyName
  | deviceKey
  | sessionToken
  | refreshToken
deriving DecidableEq

/-- What the commands do one after the other. -/
inductive HostOp
  | http (c : ApiClient) (call : ApiCall)
  | readState
  | saveState (r : Record)
  | clearState
  | getKey (k : KeyName)
  | setKey (k : KeyName) (v : String)
  | deleteKey (k : KeyName)
  | generateKeyPair
  | localOverlap (p : Prefix)
  | rebuildNat (vpnPool : Prefix) (rules : List Natctl.Rule)
  | teardownNat
  | setRoutes (extra : List Prefix)
  | engineDown
  | clearFirewall

/-- What each of them answers; where that is a `Bool`, whether it succeeded. -/
abbrev HostOp.Result : HostOp → Type
  | http _ call => Exchange call.Body
  | readState => Except Unit (Option Record)
  | getKey _ => Option String
  | generateKeyPair => String × String
  | _ => Bool

abbrev Cli (α : Type) := Prog HostOp HostOp.Result α

namespace Cli
open Prog

def perform (o : HostOp) : Cli o.Result := .op o .pure

/-- A single request, without refresh or retry. -/
def attempt (c : ApiClient) (call : ApiCall) : Cli (Except ApiErr call.Body) := do
  let e ← perform (.http c call)
  return c.outcome call e

/-- `Refresh`, the client and whether the token was renewed. -/
def refresh (c : ApiClient) : Cli (Bool × ApiClient) :=
  if c.refreshToken = "" then return (false, c)
  else do
    match ← attempt c (.refresh c.refreshToken) with
    | .error _ => return (false, c)
    | .ok token => return (true, { c with token := token })

def expired {α : Type} : Except ApiErr α → Bool
  | .error .sessionExpired => true
  | _ => false

/-- `do`: a request that finds the session expired is made once more with a renewed token. -/
def request (c : ApiClient) (call : ApiCall) : Cli (Except ApiErr call.Body × ApiClient) := do
  let res ← attempt c call
  if call.auth && expired res && c.refreshToken ≠ "" then
    let (renewed, c') ← refresh c
    if renewed then
      let res' ← attempt c' call
      return (res', c')
    else return (res, c')
  else return (res, c)

def login (c : ApiClient) (username password : String) : Cli (Except ApiErr Unit × ApiClient) := do
  match ← attempt c (.login username password) with
  | .error err => return (.error err, c)
  | .ok resp => return (.ok (), { c with token := resp.token, refreshToken := resp.refreshToken })

/-- `Logout`, which has nothing to revoke without a refresh token. -/
def logout (c : ApiClient) : Cli (Except ApiErr Unit) :=
  if c.refreshToken = "" then return .ok ()
  else attempt c (.logout c.refreshToken)

end Cli
end LanWeave

import LanWeave.Client.ApiClient
import LanWeave.Server.Wire

/-! A device and the server that its API client talks to: each request goes to the handlers of
the server, and may be lost before or after them. -/

namespace LanWeave
open Library Prog

/-- The endpoint that serves a request, where it is one for signed-in users; `salt` is what
crypto/rand yields to the server. -/
def ApiCall.endpoint (salt : Option String) : ApiCall → Option Endpoint
  | .me => some .me
  | .registerNode name pubKey platform => some (.call (.registerNode (some ⟨name, pubKey, platform⟩)))
  | .listNodes => some .listNodes
  | .deleteNode id => some (.call (.deleteNode (toString id)))
  | .serverInfo => some .serverInfo
  | .createZone name nodeID password => some (.call (.createZone (some ⟨name, password, nodeID⟩) salt))
  | .listZones => some .listZones
  | .joinZone name nodeID password => some (.call (.joinZone name (some ⟨nodeID, password⟩)))
  | .leaveZone name nodeID => some (.call (.leaveZone name (some ⟨nodeID⟩)))
  | .zoneMembers name => some (.zoneMembers name)
  | .changeZonePassword name password => some (.changeZonePassword name (some ⟨password⟩) salt)
  | .deleteZone name => some (.call (.deleteZone name))
  | .kickMember name nodeID => some (.call (.kickMember name (toString nodeID)))
  | .createAnnouncement zone nodeID subnet =>
    some (.call (.createAnnouncement zone (some ⟨nodeID, subnet⟩)))
  | .deleteAnnouncement zone id => some (.call (.deleteAnnouncement zone (toString id)))
  | .listAnnouncements zone => some (.listAnnouncements zone)
  | .register .. | .login .. | .refresh _ | .logout _ => none

def NodeItem.response (n : NodeItem) : NodeResponse := ⟨n.id, n.name, n.ip.text⟩

/-- What the client reads from a successful answer. -/
def ApiCall.decode : (call : ApiCall) → Answer → Option call.Body
  | .me, .me userID username isAdmin => some ⟨userID, username, isAdmin⟩
  | .registerNode .., .plain ⟨_, .node id name ip _⟩ => some ⟨id, name, ip.text⟩
  | .listNodes, .nodes items => some (items.map (·.response))
  | .serverInfo, .serverInfo publicKey endpoint network _ => some ⟨publicKey, endpoint, network⟩
  | .createZone .., .plain ⟨_, .zone id name isOwner⟩ => some ⟨id, name, isOwner⟩
  | .listZones, .zones items => some (items.map (·.response))
  | .zoneMembers _, .members items => some (items.map (·.response))
  | .createAnnouncement .., .plain ⟨_, .announcement id nodeID nodeName owner subnet synthetic⟩ =>
    some ⟨id, nodeID, nodeName, owner, subnet.text, synthetic.text⟩
  | .listAnnouncements _, .announcements items => some (items.map (·.response))
  | .deleteNode _, _ | .joinZone .., _ | .leaveZone .., _ | .changeZonePassword .., _
  | .deleteZone _, _ | .kickMember .., _ | .deleteAnnouncement .., _
  | .register .., _ | .logout _, _ => some ()
  | _, _ => none

/-- An answer as it goes over the wire: errors by their status and envelope. -/
def Answer.wire (call : ApiCall) : Answer → HttpResponse call.Body
  | .plain r =>
    if r.isError then
      match r.body with
      | .error code message => .status r.status code message
      | _ => .status r.status "" ""
    else .ok (call.decode (.plain r))
  | a => .ok (call.decode a)

inductive Fate
  /-- It does not reach the server. -/
  | lost
  /-- The server answers with an error and does nothing. -/
  | refused (status : Nat) (code message : String)
  | served
  /-- It is served and the response is lost. -/
  | unanswered

def Fate.isServed : Fate → Bool
  | served => true
  | _ => false

/-- What happens to one request on its way. -/
structure Transit where
  fate : Fate
  fingerprint : String
  verifies : Bool
  salt : Option String
  /-- What the endpoints in front of the sign-in answer. -/
  signIn : (call : ApiCall) → HttpResponse call.Body

section
variable {κ : Type} [DecidableEq κ] (h : Handlers κ) (i : Identity)

/-- A request of this user as the server serves it. -/
def Site.respond (t : Transit) (call : ApiCall) (s : Site κ) : HttpResponse call.Body × Site κ :=
  match call.endpoint t.salt with
  | some e =>
    let r := (answer h (some i) e).run (siteSem h.parseKey) false s
    (r.1.wire call, r.2)
  | none => (t.signIn call, s)

/-- A request of the client. Where it does not trust the certificate it sends none. -/
def Site.exchange (t : Transit) (c : ApiClient) (call : ApiCall) (s : Site κ) :
    Exchange call.Body × Site κ :=
  if !c.accepts t.fingerprint t.verifies then
    (match t.fate with
      | .lost => .unreachable
      | _ => .presented t.fingerprint t.verifies (.ok none), s)
  else
    match t.fate with
    | .lost => (.unreachable, s)
    | .refused status code message =>
      (.presented t.fingerprint t.verifies (.status status code message), s)
    | .served =>
      let r := s.respond h i t call
      (.presented t.fingerprint t.verifies r.1, r.2)
    | .unanswered => (.unreachable, (s.respond h i t call).2)

end

structure Installation (κ : Type) where
  site : Site κ
  file : Option Record
  keys : KeyName → Option String
  nat : Option Natctl.Table
  link : Bool
  routes : List Prefix
  /-- The host's inbound rule is installed. -/
  rule : Bool

/-- What the network and the system do about one operation. -/
structure Conditions where
  transit : Transit
  fails : Bool
  keyPair : String × String
  clash : Bool

namespace Installation
variable {κ : Type} [DecidableEq κ] (h : Handlers κ) (i : Identity)

def setKey (s : Installation κ) (k : KeyName) (v : Option String) : Installation κ :=
  { s with keys := Function.update s.keys k v }

def sem : Semantics HostOp HostOp.Result Conditions (Installation κ)
  | .http c call, e, s =>
    let r := s.site.exchange h i e.transit c call
    (r.1, { s with site := r.2 })
  | .readState, e, s => (if e.fails then .error () else .ok s.file, s)
  | .saveState r, e, s => if e.fails then (false, s) else (true, { s with file := some r.saved })
  | .clearState, e, s => if e.fails then (false, s) else (true, { s with file := none })
  | .getKey k, e, s => (if e.fails then none else s.keys k, s)
  | .setKey k v, e, s => if e.fails then (false, s) else (true, s.setKey k (some v))
  | .deleteKey k, e, s => if e.fails then (false, s) else (true, s.setKey k none)
  | .generateKeyPair, e, s => (e.keyPair, s)
  | .localOverlap _, e, s => (e.clash, s)
  | .rebuildNat vpnPool rules, e, s =>
    let r := Natctl.rebuild vpnPool rules e.fails s.nat
    (r.1.toBool, { s with nat := r.2 })
  | .teardownNat, e, s => if e.fails then (false, s) else (true, { s with nat := none })
  | .setRoutes extra, e, s => if e.fails then (false, s) else (true, { s with routes := extra })
  | .engineDown, e, s => if e.fails then (false, s) else (true, { s with link := false, routes := [] })
  | .clearFirewall, e, s => if e.fails then (false, s) else (true, { s with rule := false })

end Installation
end LanWeave

import LanWeave.Client.ApiClient

/-! The controller of the desktop panel: which device is this machine, the zone commands that
name it, and the sign-out. -/

namespace LanWeave
open Library

structure Controller where
  api : ApiClient
  record : Record
deriving DecidableEq

inductive PanelErr
  | api (err : ApiErr)
  /-- This device is not in the list of the server. -/
  | notRegistered
deriving DecidableEq

structure DeviceView where
  name : String
  ip : String
  isThisMachine : Bool
deriving DecidableEq

inductive LogoutOutcome
  | done
  | blocked
  | needSignIn
deriving DecidableEq

/-- What an attempt to remove the node comes to. -/
inductive RemoveResult
  /-- Removed, or already absent. -/
  | done
  | blocked
  | needSignIn
  /-- The server was reached and the removal failed. -/
  | warn
deriving DecidableEq

def classifyRemoveErr : ApiErr → RemoveResult
  | .unreachable => .blocked
  | .sessionExpired | .refreshFailed => .needSignIn
  | _ => .warn

def Record.isThisMachine (r : Record) (name ip : String) : Bool :=
  (r.nodeName ≠ "" && name = r.nodeName) || (r.ip ≠ "" && ip = r.ip)

namespace Controller
open Cli

/-- A request with the controller's client, which keeps a renewed token. -/
def call (k : Controller) (call : ApiCall) : Cli (Except ApiErr call.Body × Controller) := do
  let (res, api) ← request k.api call
  return (res, { k with api := api })

def devices (k : Controller) : Cli (Except ApiErr (List DeviceView) × Controller) := do
  let (res, k) ← k.call .listNodes
  return (res.map fun nodes => nodes.map fun n => ⟨n.name, n.ip, k.record.isThisMachine n.name n.ip⟩, k)

def thisMachineNodeID (k : Controller) : Cli (Except PanelErr Int × Controller) := do
  let (res, k) ← k.call .listNodes
  match res with
  | .error err => return (.error (.api err), k)
  | .ok nodes =>
    match nodes.find? fun n => k.record.isThisMachine n.name n.ip with
    | some n => return (.ok n.id, k)
    | none => return (.error .notRegistered, k)

/-- A zone command made for this machine's node. -/
def forThisMachine (k : Controller) (command : Int → ApiCall) :
    Cli (Except PanelErr Unit × Controller) := do
  let (res, k) ← k.thisMachineNodeID
  match res with
  | .error err => return (.error err, k)
  | .ok id =>
    let (res, k) ← k.call (command id)
    match res with
    | .error err => return (.error (.api err), k)
    | .ok _ => return (.ok (), k)

def createZone (k : Controller) (name password : String) : Cli (Except PanelErr Unit × Controller) :=
  k.forThisMachine fun id => .createZone name id password

def joinZone (k : Controller) (name password : String) : Cli (Except PanelErr Unit × Controller) :=
  k.forThisMachine fun id => .joinZone name id password

def leaveZone (k : Controller) (name : String) : Cli (Except PanelErr Unit × Controller) :=
  k.forThisMachine fun id => .leaveZone name id

/-- A node that the server does not know is as good as removed. -/
def tryRemoveRemoteNode (k : Controller) : Cli (RemoveResult × Controller) := do
  let (res, k) ← k.thisMachineNodeID
  match res with
  | .error .notRegistered => return (.done, k)
  | .error (.api err) => return (classifyRemoveErr err, k)
  | .ok id =>
    let (res, k) ← k.call (.deleteNode id)
    match res with
    | .ok () => return (.done, k)
    | .error err => return (if err = .zoneNotFound then .done else classifyRemoveErr err, k)

/-- So many further attempts, but only where the server cannot be reached. -/
def removeWithin (k : Controller) : Nat → Cli (RemoveResult × Controller)
  | 0 => k.tryRemoveRemoteNode
  | more + 1 => do
    let (res, k) ← k.tryRemoveRemoteNode
    if res = .blocked then removeWithin k more else return (res, k)

def removeRemoteNode (k : Controller) : Cli (RemoveResult × Controller) := k.removeWithin 2

/-- The refresh token is revoked if possible, the firewall rule goes, then keys and record; the
answer is whether these could be deleted. -/
def tearDownLocal (k : Controller) : Cli Bool := do
  let _ ← Cli.logout k.api
  let _ ← perform .clearFirewall
  let session ← perform (.deleteKey .sessionToken)
  let refresh ← perform (.deleteKey .refreshToken)
  let key ← perform (.deleteKey .deviceKey)
  let cleared ← perform .clearState
  return session && refresh && key && cleared

structure LogoutReply where
  outcome : LogoutOutcome
  /-- The advisory that the node may still be registered. -/
  mayLinger : Bool
  cleared : Bool
deriving DecidableEq

def logout (k : Controller) : Cli LogoutReply := do
  let (res, k) ← k.removeRemoteNode
  match res with
  | .blocked => return ⟨.blocked, false, true⟩
  | .needSignIn => return ⟨.needSignIn, false, true⟩
  | .warn =>
    let cleared ← k.tearDownLocal
    return ⟨.done, true, cleared⟩
  | .done =>
    let cleared ← k.tearDownLocal
    return ⟨.done, false, cleared⟩

def forceLogout (k : Controller) : Cli Bool := k.tearDownLocal

end Controller
end LanWeave

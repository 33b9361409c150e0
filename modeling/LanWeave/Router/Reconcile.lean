import LanWeave.Client.RouteSync
import LanWeave.Client.Routes
import LanWeave.Client.State
import LanWeave.Router.Natctl

/-! What a client derives from the server's announcement lists: the router's translation table,
and the consumer routes of the router and of the desktop client. -/

namespace LanWeave
open RouteSync

inductive CycleErr (ε : Type)
  | noServer
  | listZones (err : ε)
  | fetch (err : FetchErr ε)
  | network
  | nat (err : Natctl.Err)
  | routes (err : RouteErr)

def natRules (entries : List Entry) : List Natctl.Rule := entries.map fun e => ⟨e.synthetic, e.subnet⟩

namespace Reconcile

/-- One of this node's announcements, for display. -/
structure Entry where
  id : Int
  subnet : Prefix
  synthetic : Prefix
  zones : List String
deriving DecidableEq

/-- `Desired`: the rules and the display entries of this node. -/
def desired {ε : Type} (parsePrefix : String → Option Prefix) (zones : List ZoneResponse)
    (list : String → Except ε (List AnnouncementResponse)) (nodeID : Int) :
    Except (FetchErr ε) (List Natctl.Rule × List Entry) :=
  (fetch parsePrefix zones list).map fun all =>
    (natRules (mine all nodeID), (mine all nodeID).map fun e => ⟨e.id, e.subnet, e.synthetic, e.zones⟩)

end Reconcile

section
variable {ε : Type} (parsePrefix : String → Option Prefix) (rec : Record) (api : ZoneApi ε)

/-- The announcements of the zones this node is a member of: `ListZones`, `MemberZones` and
`Fetch`, as every cycle begins. -/
def memberEntries : Except (CycleErr ε) (List Entry) :=
  match api.listZones with
  | .error err => .error (.listZones err)
  | .ok zones =>
    match fetch parsePrefix (memberZones zones api.zoneMembers rec.ip) api.listAnnouncements with
    | .error err => .error (.fetch err)
    | .ok entries => .ok entries

/-- The command line's `desired`, over all zones of the user. -/
def desired : Except (CycleErr ε) (List Natctl.Rule × List Reconcile.Entry) :=
  match api.listZones with
  | .error err => .error (.listZones err)
  | .ok zones =>
    match Reconcile.desired parsePrefix zones api.listAnnouncements rec.nodeID with
    | .error err => .error (.fetch err)
    | .ok res => .ok res

/-- What the router has derived from the lists. -/
structure Router where
  nat : Option Natctl.Table
  engine : Engine

def reconcileAll (natFails : Bool) (o : Outside) (r : Router) : Except (CycleErr ε) Unit × Router :=
  if rec.serverURL = "" then (.error .noServer, r)
  else
    match memberEntries parsePrefix rec api with
    | .error err => (.error err, r)
    | .ok entries =>
      match parsePrefix rec.network with
      | none => (.error .network, r)
      | some network =>
        match Natctl.rebuild network (natRules (mine entries rec.nodeID)) natFails r.nat with
        | (.error err, nat) => (.error (.nat err), { r with nat := nat })
        | (.ok (), nat) =>
          let (reply, engine) := r.engine.setRoutes (prefixes (consumed entries rec.nodeID)) o
          (match reply.err with
            | some err => .error (.routes err)
            | none => .ok (), ⟨nat, engine⟩)

/-- A row of the desktop client's display. -/
structure ReachableView where
  synthetic : Prefix
  subnet : Prefix
  zones : List String
  announcer : String
  conflict : Bool
deriving DecidableEq

/-- A cycle of the desktop client; `nodeID` is zero where its own is unknown. -/
def syncRoutes {η : Type} (nodeID : Int) (o : Outside) (c : Client η) :
    Except (CycleErr ε) (List ReachableView) × Client η :=
  match memberEntries parsePrefix rec api with
  | .error err => (.error err, c)
  | .ok entries =>
    let view := consumed entries nodeID
    let (reply, c') := c.setExtraRoutes (prefixes view) o
    (match reply.err with
      | some err => .error (.routes err)
      | none => .ok (view.map fun e =>
          ⟨e.synthetic, e.subnet, e.zones, e.announcer, !reply.routes.contains e.synthetic⟩), c')

end
end LanWeave

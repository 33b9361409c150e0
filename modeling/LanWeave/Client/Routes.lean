import LanWeave.Client.Tunnel

/-! The consumer routes of the two clients: the tunnel's `SetExtraRoutes` and the router
engine's `SetRoutes`, over the routes of the interface and the AllowedIPs of its peer. -/

namespace LanWeave

/-- The `net.IPNet` of a prefix with the mask `net.CIDRMask(bits, 32)`, which is nil, of length 0, for
an IPv6 prefix longer than /32. -/
def Prefix.ipNet (p : Prefix) : Prefix := if 32 < p.bits then Prefix.masked ⟨p.addr, 0⟩ else p

/-- The tunnel interface in the OS and the server's peer on its device. -/
structure Kernel where
  /-- The routes through the interface that these calls have added. -/
  routes : Finset Prefix
  allowedIPs : List Prefix

namespace Kernel

def addRoute (k : Kernel) (p : Prefix) : Kernel := { k with routes := insert p k.routes }

def delRoute (k : Kernel) (p : Prefix) : Kernel := { k with routes := k.routes.erase p }

def replaceAllowedIPs (k : Kernel) (ips : List Prefix) : Kernel := { k with allowedIPs := ips }

/-- What the peer is allowed beyond the VPN network, which every update lists first. -/
def extraAllowedIPs (k : Kernel) : List Prefix := k.allowedIPs.tail

def up (network : Prefix) : Kernel := ⟨∅, [network.masked]⟩

end Kernel

/-- What the system does during one call. -/
structure Outside where
  linkMissing : Bool
  /-- `LocalOverlap`: the prefix overlaps another interface's network. -/
  localOverlap : Prefix → Bool
  addFails : Prefix → Bool
  updateFails : Bool

inductive RouteErr
  | link
  | network
  | serverKey
  | allowedIPs
deriving DecidableEq

structure Reply where
  routes : List Prefix
  err : Option RouteErr

/-- The loop over the prefixes to be routed: a new one that cannot be added is skipped. -/
def routeEach (o : Outside) (isNew : Prefix → Bool) (dst : Prefix → Prefix) :
    List Prefix → Kernel → List Prefix × Kernel
  | [], k => ([], k)
  | p :: ps, k =>
    if isNew p then
      if o.addFails p then routeEach o isNew dst ps k
      else
        let rest := routeEach o isNew dst ps (k.addRoute (dst p))
        (p :: rest.1, rest.2)
    else
      let rest := routeEach o isNew dst ps k
      (p :: rest.1, rest.2)

/-- What must be added and deleted to move the routes from `current` to `desired`. -/
def routeDiff (current desired : List Prefix) : List Prefix × List Prefix :=
  (desired.filter fun p => !current.contains p, current.filter fun p => !desired.contains p)

/-- The AllowedIPs an update of the server's peer asks for. -/
def buildPeerUpdate (serverKey : Option String) (network : Prefix) (extras : List Prefix) :
    Option (List Prefix) :=
  serverKey.map fun _ => network.masked :: extras.map Prefix.masked

structure Client (ε : Type) where
  tunnel : Tunnel ε
  kernel : Kernel

/-- The route part of `SetExtraRoutes`: what is routed afterwards, of what may be. -/
def Tunnel.diffRoutes {ε : Type} (t : Tunnel ε) (applied : List Prefix) (o : Outside) (k : Kernel) :
    List Prefix × Kernel :=
  let (add, del) := routeDiff t.extraApplied applied
  routeEach o (fun p => add.contains p) (fun p => p.masked.ipNet) applied
    (del.foldl (fun k p => k.delRoute p.masked.ipNet) k)

def Client.setExtraRoutes {ε : Type} (c : Client ε) (extra : List Prefix) (o : Outside) :
    Reply × Client ε :=
  let t := c.tunnel
  if t.state ≠ .connected ∨ t.eng.isNone then (⟨[], none⟩, c)
  else
    let desired := canonicalPrefixes extra
    -- same request, and everything previously wanted got applied
    if desired = t.extraWanted ∧ t.extraApplied.length = t.extraWanted.length then
      (⟨t.extraApplied, none⟩, c)
    else
      let applied := desired.filter fun p => !o.localOverlap p
      let (routed, kernel) := t.diffRoutes applied o c.kernel
      match t.profile.network with
      | none => (⟨routed, some .network⟩, { c with kernel := kernel })
      | some network =>
        match buildPeerUpdate t.profile.serverKey network routed with
        | none => (⟨routed, some .serverKey⟩, { c with kernel := kernel })
        | some update =>
          if o.updateFails then (⟨routed, some .allowedIPs⟩, { c with kernel := kernel })
          else (⟨routed, none⟩, ⟨{ t with extraWanted := desired, extraApplied := routed },
            kernel.replaceAllowedIPs update⟩)

structure Engine where
  network : Prefix
  /-- `ParseKey` of the server's key. -/
  serverPubKey : Option String
  routesWanted : List Prefix
  routesApplied : List Prefix
  kernel : Kernel

/-- The route part of `SetRoutes`: here the new routes are added before the old ones go. -/
def Engine.diffRoutes (e : Engine) (applied : List Prefix) (o : Outside) (k : Kernel) :
    List Prefix × Kernel :=
  let (routed, k) := routeEach o (fun p => !e.routesApplied.contains p) Prefix.ipNet applied k
  (routed, e.routesApplied.foldl (fun k p => if !applied.contains p then k.delRoute p.ipNet else k) k)

def Engine.setRoutes (e : Engine) (extra : List Prefix) (o : Outside) : Reply × Engine :=
  let desired := canonicalPrefixes extra
  if desired = e.routesWanted ∧ e.routesApplied.length = e.routesWanted.length then
    (⟨e.routesApplied, none⟩, e)
  else if o.linkMissing then (⟨[], some .link⟩, e)
  else
    let applied := desired.filter fun p => !o.localOverlap p
    let (routed, kernel) := e.diffRoutes applied o e.kernel
    match e.serverPubKey with
    | none => (⟨routed, some .serverKey⟩, { e with kernel := kernel })
    | some _ =>
      if o.updateFails then (⟨routed, some .allowedIPs⟩, { e with kernel := kernel })
      else (⟨routed, none⟩, { e with
        routesWanted := desired, routesApplied := routed,
        kernel := kernel.replaceAllowedIPs (e.network.masked.ipNet :: routed.map Prefix.ipNet) })

end LanWeave

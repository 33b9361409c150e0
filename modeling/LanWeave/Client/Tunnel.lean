import LanWeave.Netutil.Prefix

/-! The client's tunnel: its record, and each section of it that holds the mutex. -/

namespace LanWeave

/-- What the tunnel was made with, as far as its parts parse. -/
structure Profile where
  /-- A device key and an address are recorded. -/
  recorded : Bool
  uapiConfig : Option String
  address : Option Addr
  network : Option Prefix
  serverKey : Option String

inductive TunnelState
  | disconnected
  | connecting
  | connected
deriving DecidableEq

structure Tunnel (ε : Type) where
  profile : Profile
  state : TunnelState
  eng : Option ε
  ifName : String
  /-- The last requested consumer route set, canonical. -/
  extraWanted : List Prefix
  /-- The subset actually routed. -/
  extraApplied : List Prefix

namespace Tunnel
variable {ε : Type}

/-- `Connect`, first section: the new engine becomes the current one. -/
def start (t : Tunnel ε) (eng : ε) : Tunnel ε := { t with state := .connecting, eng := some eng }

def setIfName (t : Tunnel ε) (ifName : String) : Tunnel ε := { t with ifName := ifName }

/-- `Connect`, last section: an attempt whose engine is no longer current gives up. -/
def reconcile [DecidableEq ε] (t : Tunnel ε) (eng : ε) : Tunnel ε :=
  if t.eng ≠ some eng then t else { t with state := .connected }

/-- `teardown`, first section. -/
def clearExtra (t : Tunnel ε) : Tunnel ε := { t with extraWanted := [], extraApplied := [] }

/-- `teardown`, second section: whatever engine is current is taken out. -/
def unlink (t : Tunnel ε) : Tunnel ε := { t with eng := none, ifName := "", state := .disconnected }

end Tunnel

def newTunnel (ε : Type) (profile : Profile) : Tunnel ε := ⟨profile, .disconnected, none, "", [], []⟩

end LanWeave

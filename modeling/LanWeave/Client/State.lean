import Mathlib.Tactic.SplitIfs

/-! The record of a client that has been set up. -/

namespace LanWeave

structure Record where
  schemaVersion : Int
  serverURL : String
  nodeName : String
  ip : String
  serverPublicKey : String
  endpoint : String
  network : String
  /-- The trusted certificate's fingerprint, empty where none is pinned. Tied to `serverURL`. -/
  pinnedCertSHA256 : String
  /-- The preference to allow inbound traffic from the VPN. -/
  firewallAllowVPN : Bool
  /-- Zero where it is unknown. -/
  nodeID : Int
deriving DecidableEq

namespace Record

def empty : Record := ⟨0, "", "", "", "", "", "", "", false, 0⟩

/-- What `Load` rejects is a step of the setup not yet taken. -/
def complete (r : Record) : Bool :=
  !(r.schemaVersion = 0 || r.serverURL = "" || r.nodeName = "" || r.ip = "")

/-- `Save` fills in the schema version. -/
def saved (r : Record) : Record := if r.schemaVersion = 0 then { r with schemaVersion := 3 } else r

theorem saved_firewallAllowVPN (r : Record) : r.saved.firewallAllowVPN = r.firewallAllowVPN := by
  rw [saved]
  split_ifs <;> rfl

end Record
end LanWeave

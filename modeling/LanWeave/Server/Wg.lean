import LanWeave.Server.Netfw
import Mathlib.Data.Finset.Image

/-! The WireGuard device and the operations of wg on it. Peers are indexed by the decoded key. -/

namespace LanWeave

abbrev Device (κ : Type) := κ → Option (Finset Prefix)

structure PeerConfig where
  publicKey : String
  ip : Addr
  routes : List Prefix

/-- The node's /32 and the announced synthetic blocks. -/
def allowedIPs (ip : Addr) (routes : List Prefix) : Finset Prefix :=
  insert ⟨ip, 32⟩ (routes.map Prefix.masked).toFinset

namespace Device
variable {κ : Type} [DecidableEq κ] (parseKey : String → Option κ)

/-- `ReplaceAllowedIPs`; the device routes a prefix to one peer, so the others lose it. -/
def configurePeer (d : Device κ) (key : κ) (allowed : Finset Prefix) : Device κ := fun k =>
  if k = key then some allowed else (d k).map (· \ allowed)

def setPeerRoutes (d : Device κ) (publicKey : String) (ip : Addr) (routes : List Prefix) :
    Except KernelErr (Device κ) :=
  match parseKey publicKey with
  | none => .error .badKey
  | some key => .ok (d.configurePeer key (allowedIPs ip routes))

/-- Removing an absent peer is no error. -/
def removePeer (d : Device κ) (publicKey : String) : Except KernelErr (Device κ) :=
  match parseKey publicKey with
  | none => .error .badKey
  | some key => .ok (Function.update d key none)

/-- The peers of `ReplacePeers`, decoded before the device is touched. -/
def decodePeers (peers : List PeerConfig) : Option (List (κ × Finset Prefix)) :=
  peers.mapM fun p => (parseKey p.publicKey).map fun key => (key, allowedIPs p.ip p.routes)

def replacePeers (peers : List PeerConfig) : Except KernelErr (Device κ) :=
  match decodePeers parseKey peers with
  | none => .error .badKey
  | some cfgs => .ok (cfgs.foldl (fun d c => d.configurePeer c.1 c.2) fun _ => none)

end Device

/-- The operations of wg the handlers call, one atomic step each. -/
inductive WgOp
  | setPeerRoutes (publicKey : String) (ip : Addr) (routes : List Prefix)
  | removePeer (publicKey : String)

def WgOp.addPeer (publicKey : String) (ip : Addr) : WgOp := .setPeerRoutes publicKey ip []

def WgOp.exec {κ : Type} [DecidableEq κ] (parseKey : String → Option κ) :
    WgOp → Device κ → Except KernelErr (Device κ)
  | setPeerRoutes publicKey ip routes, d => d.setPeerRoutes parseKey publicKey ip routes
  | removePeer publicKey, d => d.removePeer parseKey publicKey

section
variable {κ : Type} [DecidableEq κ] (parseKey : String → Option κ) (d : Device κ)

/-- The device after the operation; one that fails changes nothing. -/
def WgOp.effect (o : WgOp) : Device κ :=
  match o.exec parseKey d with
  | .ok d' => d'
  | .error _ => d

variable {parseKey} {publicKey : String} {key : κ}

theorem WgOp.effect_setPeerRoutes (hkey : parseKey publicKey = some key) (ip : Addr)
    (routes : List Prefix) : (setPeerRoutes publicKey ip routes).effect parseKey d =
      d.configurePeer key (allowedIPs ip routes) := by
  simp only [effect, exec, Device.setPeerRoutes, hkey]

theorem WgOp.effect_removePeer (hkey : parseKey publicKey = some key) :
    (removePeer publicKey).effect parseKey d = Function.update d key none := by
  simp only [effect, exec, Device.removePeer, hkey]

/-- A peer update touches the presence of the one peer its key names. -/
theorem WgOp.isSome_effect (o : WgOp) (k : κ) : (o.effect parseKey d k).isSome →
    (d k).isSome ∨ ∃ publicKey ip routes, o = setPeerRoutes publicKey ip routes ∧
      parseKey publicKey = some k := by
  cases o with
  | setPeerRoutes publicKey ip routes =>
    cases hkey : parseKey publicKey with
    | none => simp [effect, exec, Device.setPeerRoutes, hkey]
    | some key =>
      rw [effect_setPeerRoutes d hkey, Device.configurePeer]
      split_ifs with hk
      · exact fun _ => .inr ⟨publicKey, ip, routes, rfl, hk ▸ hkey⟩
      · exact fun h => .inl (by simpa using h)
  | removePeer publicKey =>
    cases hkey : parseKey publicKey with
    | none => simp [effect, exec, Device.removePeer, hkey]
    | some key =>
      rw [effect_removePeer d hkey]
      by_cases hk : k = key
      · simp [hk]
      · exact fun h => .inl (by simpa [hk] using h)

end
end LanWeave

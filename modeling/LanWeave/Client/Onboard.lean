import LanWeave.Client.ApiClient

/-! The registration of a device after its user has signed in. -/

namespace LanWeave
open Library

structure Provisioner where
  serverURL : String
  pinnedCertSHA256 : String
  platform : String

inductive ProvisionErr
  | noName
  | storeKey
  | api (err : ApiErr)
  /-- The key is taken, by a node of another name. -/
  | notRecovered
  | saveState
  | cacheToken
deriving DecidableEq

namespace Cli

/-- `registerDevice`: a taken key is one registered by an earlier attempt, whose node is looked
up by its name. -/
def registerDevice (p : Provisioner) (c : ApiClient) (nodeName pub : String) :
    Cli (Except ProvisionErr (String × Int) × ApiClient) := do
  let (res, c) ← request c (.registerNode nodeName pub p.platform)
  match res with
  | .ok node => return (.ok (node.ip, node.id), c)
  | .error .pubKeyTaken =>
    let (list, c) ← request c .listNodes
    match list with
    | .error err => return (.error (.api err), c)
    | .ok nodes =>
      match nodes.find? fun n => n.name = nodeName with
      | some n => return (.ok (n.ip, n.id), c)
      | none => return (.error .notRecovered, c)
  | .error err => return (.error (.api err), c)

/-- `ProvisionDevice`: a key, a node, the record, and last the tokens. -/
def provisionDevice (p : Provisioner) (c : ApiClient) (nodeName : String) :
    Cli (Except ProvisionErr Record × ApiClient) :=
  if nodeName = "" then return (.error .noName, c)
  else do
    let (priv, pub) ← perform .generateKeyPair
    -- the key is kept before it is registered
    if ← perform (.setKey .deviceKey priv) then
      let (res, c) ← registerDevice p c nodeName pub
      match res with
      | .error err => return (.error err, c)
      | .ok (ip, nodeID) =>
        let (res, c) ← request c .serverInfo
        match res with
        | .error err => return (.error (.api err), c)
        | .ok info =>
          let rec' : Record := ⟨0, p.serverURL, nodeName, ip, info.publicKey, info.endpoint,
            info.network, p.pinnedCertSHA256, false, nodeID⟩
          if ← perform (.saveState rec') then
            if ← perform (.setKey .sessionToken c.token) then
              if ← perform (.setKey .refreshToken c.refreshToken) then return (.ok rec', c)
              else return (.error .cacheToken, c)
            else return (.error .cacheToken, c)
          else return (.error .saveState, c)
    else return (.error .storeKey, c)

end Cli
end LanWeave

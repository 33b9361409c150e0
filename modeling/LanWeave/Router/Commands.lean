import LanWeave.Client.Onboard
import LanWeave.Golang.NetipText
import LanWeave.Router.Reconcile

/-! The commands of the router's command line, and the daemon's cycle, as programs. -/

namespace LanWeave
open Library RouteSync

/-- `strings.TrimRight(s, "/")`. -/
def trimSlashes (s : String) : String :=
  String.ofList (s.toList.reverse.dropWhile (· = '/')).reverse

namespace Cli

/-! ### the record and the session -/

/-- `loadLoose`: a missing record is an empty one. -/
def loadLoose : Cli (Option Record) := do
  match ← perform .readState with
  | .error _ => return none
  | .ok none => return some Record.empty
  | .ok (some r) => return some r

/-- `state.Load`. -/
def load : Cli (Option Record) := do
  match ← perform .readState with
  | .ok (some r) => return if r.complete then some r else none
  | _ => return none

/-- `newClient`: the recorded server with whatever pin and tokens there are. -/
def newClient (insecure : Bool) (rec : Record) : Cli (Option ApiClient) :=
  if rec.serverURL = "" then return none
  else do
    let tok ← perform (.getKey .sessionToken)
    let rt ← perform (.getKey .refreshToken)
    return some ⟨trimSlashes rec.serverURL, tok.getD "", rt.getD "", insecure,
      if insecure then "" else rec.pinnedCertSHA256⟩

/-- `persistTokens`, whose failures are ignored. -/
def persistTokens (c : ApiClient) : Cli Unit := do
  if c.token ≠ "" then
    let _ ← perform (.setKey .sessionToken c.token)
  if c.refreshToken ≠ "" then
    let _ ← perform (.setKey .refreshToken c.refreshToken)

def exitCode (ok : Bool) : Nat := if ok then 0 else 1

/-! ### setup, sign-in and registration -/

def cmdSetup (server pin : String) : Cli Nat :=
  if server = "" then return 1
  else do
    match ← loadLoose with
    | none => return 1
    | some rec =>
      let ok ← perform (.saveState
        { rec with
          serverURL := trimSlashes server
          pinnedCertSHA256 := if pin ≠ "" then toLower pin else rec.pinnedCertSHA256 })
      return exitCode ok

def cmdTrust (fingerprint : String) : Cli Nat :=
  if fingerprint = "" then return 1
  else do
    match ← loadLoose with
    | none => return 1
    | some rec =>
      if rec.serverURL = "" then return 1
      else
        let ok ← perform (.saveState { rec with pinnedCertSHA256 := toLower fingerprint })
        return exitCode ok

/-- `register-account` creates the account first, with the invite. -/
def createAccount (c : ApiClient) (invite : Option String) (username password : String) : Cli Bool :=
  match invite with
  | none => return true
  | some code => do
    let (res, _) ← request c (.register code username password)
    return res.toBool

def signIn (c : ApiClient) (username password : String) : Cli Nat := do
  let (res, c) ← login c username password
  match res with
  | .error _ => return 1
  | .ok () =>
    persistTokens c
    return 0

/-- `login`, and with an invite `register-account`; the password is read from the input. -/
def cmdLogin (insecure : Bool) (invite : Option String) (username : String)
    (password : Option String) : Cli Nat :=
  match password with
  | none => return 1
  | some password =>
    if username = "" ∨ invite = some "" then return 1
    else do
      match ← loadLoose with
      | none => return 1
      | some rec =>
        match ← newClient insecure rec with
        | none => return 1
        | some c =>
          if ← createAccount c invite username password then signIn c username password
          else return 1

def cmdRegister (insecure : Bool) (nodeName : String) : Cli Nat :=
  if nodeName = "" then return 1
  else do
    match ← loadLoose with
    | none => return 1
    | some rec =>
      if rec.nodeID ≠ 0 ∨ rec.nodeName ≠ "" then return 1
      else
        match ← newClient insecure rec with
        | none => return 1
        | some c =>
          if c.token = "" ∧ c.refreshToken = "" then return 1
          else
            let (res, c) ← provisionDevice ⟨rec.serverURL, rec.pinnedCertSHA256, "openwrt"⟩ c nodeName
            match res with
            | .error _ => return 1
            | .ok _ =>
              persistTokens c
              return 0

/-! ### zones -/

inductive ZoneCommand
  | create (name : String) (password : Option String)
  | join (name : String) (password : Option String)
  | leave (name : String)
  | list
  | members (name : String)

def zoneCall (nodeID : Int) : ZoneCommand → Option ApiCall
  | .create name password => password.map fun p => .createZone name nodeID p
  | .join name password => password.map fun p => .joinZone name nodeID p
  | .leave name => some (.leaveZone name nodeID)
  | .list => some .listZones
  | .members name => some (.zoneMembers name)

def cmdZone (insecure : Bool) (cmd : ZoneCommand) : Cli Nat := do
  match ← load with
  | none => return 1
  | some rec =>
    match ← newClient insecure rec with
    | none => return 1
    | some c =>
      match zoneCall rec.nodeID cmd with
      | none =>
        persistTokens c
        return 1
      | some call =>
        let (res, c) ← request c call
        persistTokens c
        return exitCode res.toBool

/-! ### the announcement lists -/

/-- `MemberZones`: a zone whose members cannot be listed is skipped. -/
def memberZones (c : ApiClient) (selfIP : String) :
    List ZoneResponse → Cli (List ZoneResponse × ApiClient)
  | [] => return ([], c)
  | z :: zones => do
    let (res, c) ← request c (.zoneMembers z.name)
    let (rest, c) ← memberZones c selfIP zones
    match res with
    | .error _ => return (rest, c)
    | .ok ms => return (if ms.any (·.ip = selfIP) then z :: rest else rest, c)

/-- The loop of `Fetch`. -/
def addZones (c : ApiClient) (byID : List Entry) :
    List ZoneResponse → Cli (Except (FetchErr ApiErr) (List Entry) × ApiClient)
  | [] => return (.ok byID, c)
  | z :: zones => do
    let (res, c) ← request c (.listAnnouncements z.name)
    match addZone parsePrefix4 (fun _ => res) byID z with
    | .error err => return (.error err, c)
    | .ok byID => addZones c byID zones

/-- `Fetch`. -/
def fetch (c : ApiClient) (zones : List ZoneResponse) :
    Cli (Except (FetchErr ApiErr) (List Entry) × ApiClient) := do
  let (res, c) ← addZones c [] zones
  return (res.map fun byID => (byID.map Entry.sortZones).mergeSort fun e e' => e.id ≤ e'.id, c)

/-- The announcements of the zones this node is a member of. -/
def memberEntries (c : ApiClient) (rec : Record) :
    Cli (Except (CycleErr ApiErr) (List Entry) × ApiClient) := do
  let (zones, c) ← request c .listZones
  match zones with
  | .error err => return (.error (.listZones err), c)
  | .ok zones =>
    let (kept, c) ← memberZones c rec.ip zones
    let (res, c) ← fetch c kept
    match res with
    | .error err => return (.error (.fetch err), c)
    | .ok entries => return (.ok entries, c)

/-- `rebuildFromServer`, over all zones of the user. -/
def rebuildFromServer (c : ApiClient) (rec : Record) : Cli (Bool × ApiClient) := do
  let (zones, c) ← request c .listZones
  match zones with
  | .error _ => return (false, c)
  | .ok zones =>
    let (res, c) ← fetch c zones
    match res with
    | .error _ => return (false, c)
    | .ok entries =>
      match parsePrefix4 rec.network with
      | none => return (false, c)
      | some network =>
        let ok ← perform (.rebuildNat network (natRules (mine entries rec.nodeID)))
        return (ok, c)

/-- A cycle of the daemon with its client. -/
def reconcileWith (c : ApiClient) (rec : Record) : Cli (Bool × ApiClient) := do
  let (res, c) ← memberEntries c rec
  match res with
  | .error _ => return (false, c)
  | .ok entries =>
    match parsePrefix4 rec.network with
    | none => return (false, c)
    | some network =>
      if ← perform (.rebuildNat network (natRules (mine entries rec.nodeID))) then
        let ok ← perform (.setRoutes (prefixes (consumed entries rec.nodeID)))
        return (ok, c)
      else return (false, c)

/-- A cycle of the daemon, with the record it was started with. -/
def reconcileAll (insecure : Bool) (rec : Record) : Cli Bool := do
  match ← newClient insecure rec with
  | none => return false
  | some c =>
    let (ok, c) ← reconcileWith c rec
    persistTokens c
    return ok

/-! ### announce -/

/-- `compensate`, whose own failure is a warning. -/
def compensate (c : ApiClient) (zone : String) (id : Int) : Cli ApiClient := do
  let (_, c) ← request c (.deleteAnnouncement zone id)
  return c

def cmdAnnounceAdd (c : ApiClient) (rec : Record) (subnet zone : String) : Cli (Nat × ApiClient) := do
  let (res, c) ← request c (.createAnnouncement zone rec.nodeID subnet)
  match res with
  | .error _ => return (1, c)
  | .ok ann =>
    match parsePrefix4 ann.synthetic with
    | none => return (1, c)
    | some synthetic =>
      if ← perform (.localOverlap synthetic) then
        let c ← compensate c zone ann.id
        return (1, c)
      else
        let (ok, c) ← rebuildFromServer c rec
        if ok then return (0, c)
        else
          let c ← compensate c zone ann.id
          return (1, c)

def announced (as : List AnnouncementResponse) (nodeID : Int) (subnet : String) : Int :=
  match as.find? fun a => a.nodeID = nodeID ∧ a.subnet = subnet with
  | some a => a.id
  | none => 0

def cmdAnnounceRemove (c : ApiClient) (rec : Record) (subnet zone : String) :
    Cli (Nat × ApiClient) := do
  let (list, c) ← request c (.listAnnouncements zone)
  match list with
  | .error _ => return (1, c)
  | .ok as =>
    let id := announced as rec.nodeID subnet
    if id = 0 then return (1, c)
    else
      let (res, c) ← request c (.deleteAnnouncement zone id)
      match res with
      | .error _ => return (1, c)
      | .ok () =>
        -- a failing rebuild is a warning, as the daemon's next cycle makes up for it
        let (_, c) ← rebuildFromServer c rec
        return (0, c)

def cmdAnnounceList (c : ApiClient) (rec : Record) : Cli (Nat × ApiClient) := do
  let (res, c) ← memberEntries c rec
  return (exitCode res.toBool, c)

inductive AnnounceCommand
  | add (subnet zone : String)
  | remove (subnet zone : String)
  | list

def cmdAnnounce (insecure : Bool) (cmd : AnnounceCommand) : Cli Nat := do
  match ← load with
  | none => return 1
  | some rec =>
    if rec.nodeID = 0 then return 1
    else
      match ← newClient insecure rec with
      | none => return 1
      | some c =>
        let (code, c) ← match cmd with
          | .add subnet zone => cmdAnnounceAdd c rec subnet zone
          | .remove subnet zone => cmdAnnounceRemove c rec subnet zone
          | .list => cmdAnnounceList c rec
        persistTokens c
        return code

/-! ### status and logout -/

def cmdStatus (insecure : Bool) : Cli Nat := do
  match ← loadLoose with
  | none => return 1
  | some rec =>
    match ← newClient insecure rec with
    | none => return 0
    | some c =>
      let (res, c) ← request c .listZones
      if res.toBool then persistTokens c
      return 0

/-- The node is deleted, in so many further attempts if need be. -/
def deleteNode (c : ApiClient) (nodeID : Int) : Nat → Cli (Except ApiErr Unit × ApiClient)
  | 0 => request c (.deleteNode nodeID)
  | more + 1 => do
    let (res, c) ← request c (.deleteNode nodeID)
    match res with
    | .ok () => return (.ok (), c)
    | .error _ => deleteNode c nodeID more

/-- The end of a logout: only the deletions decide about its success. -/
def wipe : Cli Nat := do
  let _ ← perform .engineDown
  let _ ← perform .teardownNat
  let key ← perform (.deleteKey .deviceKey)
  let session ← perform (.deleteKey .sessionToken)
  let refresh ← perform (.deleteKey .refreshToken)
  let cleared ← perform .clearState
  return exitCode (key && session && refresh && cleared)

def cmdLogout (insecure force : Bool) : Cli Nat := do
  match ← loadLoose with
  | none => return 1
  | some rec =>
    if force then wipe
    else
      match ← newClient insecure rec with
      | none => return 1
      | some c =>
        if rec.nodeID = 0 then return 1
        else
          let (res, c) ← deleteNode c rec.nodeID 2
          match res with
          | .error _ => return 1
          | .ok () =>
            let _ ← logout c
            wipe

inductive Command
  | setup (server pin : String)
  | trust (fingerprint : String)
  | login (username : String) (password : Option String)
  | registerAccount (invite username : String) (password : Option String)
  | register (nodeName : String)
  | zone (cmd : ZoneCommand)
  | announce (cmd : AnnounceCommand)
  | status
  | logout (force : Bool)

def Command.run (insecure : Bool) : Command → Cli Nat
  | setup server pin => cmdSetup server pin
  | trust fingerprint => cmdTrust fingerprint
  | login username password => cmdLogin insecure none username password
  | registerAccount invite username password => cmdLogin insecure (some invite) username password
  | register nodeName => cmdRegister insecure nodeName
  | zone cmd => cmdZone insecure cmd
  | announce cmd => cmdAnnounce insecure cmd
  | status => cmdStatus insecure
  | logout force => cmdLogout insecure force

end Cli
end LanWeave

import LanWeave.Library.Always
import LanWeave.Router.Commands
import Mathlib.Data.List.DropRight

/-! To whom the router's command line shows its credentials: every history of commands, with
what was received and pinned, sent and relied on. -/

namespace LanWeave
open Library Prog Cli

inductive CredentialEvent
  /-- A token came in a response of the server. -/
  | obtained (server token : String)
  /-- A fingerprint was pinned while the server was the recorded one. -/
  | pinned (server fingerprint : String)
  | sent (server token : String)
  /-- The pin decided whether a connection to the server is trusted. -/
  | relied (server fingerprint : String)
deriving DecidableEq

open CredentialEvent

/-- The state file and the key store, with the events so far, the last one first. -/
structure Safe where
  file : Option Record
  keys : KeyName → Option String
  log : List CredentialEvent

/-- A redirect that the HTTP client follows, with the certificate of the server that sends it. -/
structure Redirect where
  fingerprint : String
  verifies : Bool
  /-- The server it leads to, where that is another one. -/
  elsewhere : Option String
  /-- The status is 307 or 308: the method and the body stay. -/
  resends : Bool
  /-- The new host is the old one or below it: the header with the token stays. -/
  below : Bool

/-- What the system and the servers do about one operation. -/
structure Choice where
  redirects : ApiCall → List Redirect
  wire : (call : ApiCall) → Exchange call.Body
  fails : Bool
  keyPair : String × String
  clash : Bool

def ApiClient.shows (c : ApiClient) (call : ApiCall) : List String :=
  match call with
  | .refresh rt | .logout rt => [rt]
  | call => if call.auth then [c.token] else []

def ApiCall.grants : (call : ApiCall) → call.Body → List String
  | .login .., resp => [resp.token, resp.refreshToken]
  | .refresh _, token => [token]
  | _, _ => []

/-- The token is in the body of the request, not in its header. -/
def ApiCall.inBody : ApiCall → Bool
  | .refresh _ | .logout _ => true
  | _ => false

/-- The tokens that the redirected request still shows. -/
def Redirect.carries (r : Redirect) (call : ApiCall) (shown : List String) : List String :=
  if call.inBody then (if r.resends then shown else []) else if r.below then shown else []

/-- The pin changes what comes of the handshake. -/
def ApiClient.relies (c : ApiClient) (fingerprint : String) (verifies : Bool) : Bool :=
  !c.insecure && c.pinnedCert ≠ "" && (fingerprint = c.pinnedCert || !verifies)

def ApiClient.judged (c : ApiClient) (server fingerprint : String) (verifies : Bool) :
    List CredentialEvent :=
  if c.relies fingerprint verifies then [relied server c.pinnedCert] else []

def ApiCall.received (call : ApiCall) (server : String) : HttpResponse call.Body → List CredentialEvent
  | .ok (some body) => (call.grants body).map (obtained server)
  | _ => []

/-- The events of one request to the server and of those it is redirected to. One without a response
may have reached the server. -/
def ApiClient.events (c : ApiClient) (call : ApiCall) : (server : String) → (shown : List String) →
    List Redirect → Exchange call.Body → List CredentialEvent
  | server, shown, [], .unreachable => shown.map (sent server)
  | server, shown, [], .presented fingerprint verifies response =>
    (if c.accepts fingerprint verifies then
      call.received server response ++ shown.map (sent server) else []) ++
      c.judged server fingerprint verifies
  | server, shown, r :: redirects, e =>
    (if c.accepts r.fingerprint r.verifies then
      c.events call (r.elsewhere.getD server) (r.carries call shown) redirects e ++
        shown.map (sent server) else []) ++
      c.judged server r.fingerprint r.verifies

/-- What the client is left with: it follows no server that it does not trust. -/
def ApiClient.follow (c : ApiClient) {call : ApiCall} (redirects : List Redirect)
    (e : Exchange call.Body) : Exchange call.Body :=
  match redirects.find? fun r => !c.accepts r.fingerprint r.verifies with
  | some r => .presented r.fingerprint r.verifies (.ok none)
  | none => e

def Choice.Direct (e : Choice) : Prop := ∀ call, ∀ r ∈ e.redirects call, r.elsewhere = none

namespace Safe

def sem : Semantics HostOp HostOp.Result Choice Safe
  | .http c call, e, s => (c.follow (e.redirects call) (e.wire call), { s with
      log := c.events call c.baseURL (c.shows call) (e.redirects call) (e.wire call) ++ s.log })
  | .readState, e, s => (if e.fails then .error () else .ok s.file, s)
  | .saveState r, e, s => if e.fails then (false, s) else (true, { s with file := some r.saved })
  | .clearState, e, s => if e.fails then (false, s) else (true, { s with file := none })
  | .getKey k, e, s => (if e.fails then none else s.keys k, s)
  | .setKey k v, e, s =>
    if e.fails then (false, s) else (true, { s with keys := Function.update s.keys k (some v) })
  | .deleteKey k, e, s =>
    if e.fails then (false, s) else (true, { s with keys := Function.update s.keys k none })
  | .generateKeyPair, e, s => (e.keyPair, s)
  | .localOverlap _, e, s => (e.clash, s)
  | .rebuildNat .., e, s => (!e.fails, s)
  | .teardownNat, e, s => (!e.fails, s)
  | .setRoutes _, e, s => (!e.fails, s)
  | .engineDown, e, s => (!e.fails, s)
  | .clearFirewall, e, s => (!e.fails, s)

def url (s : Safe) : String := (s.file.getD Record.empty).serverURL

/-- The recorded server, as requests are made to it. -/
def server (s : Safe) : String := trimSlashes s.url

def pin (s : Safe) : String := (s.file.getD Record.empty).pinnedCertSHA256

def direct : Semantics HostOp HostOp.Result { e : Choice // e.Direct } Safe := restrict sem Choice.Direct

/-- A command that succeeds in pinning a fingerprint. -/
def noted (s : Safe) (cmd : Command) (code : Nat) : Safe :=
  match cmd, code with
  | .setup _ pin, 0 => if pin = "" then s else { s with log := pinned s.server (toLower pin) :: s.log }
  | .trust fingerprint, 0 => { s with log := pinned s.server (toLower fingerprint) :: s.log }
  | _, _ => s

/-- The states a history of commands can lead to, of which each met `ok`, while the servers met
`fair`. -/
inductive History (ok : Safe → Command → Prop) (fair : Choice → Prop) : Safe → Prop
  | fresh : History ok fair ⟨none, fun _ => none, []⟩
  | step {s s' : Safe} {tr : List (HostOp × Choice)} {code : Nat} (insecure : Bool) (cmd : Command)
      (hok : ok s cmd) (hrun : (cmd.run insecure).Runs sem s tr code s') (hfair : ∀ x ∈ tr, fair x.2)
      (h : History ok fair s) : History ok fair (s'.noted cmd code)

end Safe

/-- A token goes to the server it came from, a pin decides for the server it was given for. -/
def CredentialEvent.Justified (past : List CredentialEvent) : CredentialEvent → Prop
  | sent server token => token ≠ "" → obtained server token ∈ past
  | relied server fingerprint => pinned server fingerprint ∈ past
  | _ => True

/-- Every event was justified by those before it. -/
def Proper : List CredentialEvent → Prop
  | [] => True
  | e :: past => e.Justified past ∧ Proper past

/-- A setup that changes the server finds no tokens, and no pin that it does not replace. -/
def Safe.Careful (s : Safe) : Command → Prop
  | .setup server pin => trimSlashes server = s.server ∨
    ((∀ k ≠ KeyName.deviceKey, (s.keys k).getD "" = "") ∧ (pin = "" → s.pin = ""))
  | _ => True

/-! ### what every request keeps -/

section
variable {s s' : Safe} {c : ApiClient} {call : ApiCall}

theorem proper_append {past : List CredentialEvent} (h : Proper past) {new : List CredentialEvent}
    (hnew : ∀ e ∈ new, ∀ past', past ⊆ past' → e.Justified past') : Proper (new ++ past) := by
  induction new with
  | nil => exact h
  | cons e new ih =>
    obtain ⟨he, hnew⟩ := List.forall_mem_cons.mp hnew
    exact ⟨he _ (List.subset_append_right _ _), ih hnew⟩

/-- The client shows what it has got from its server, and relies on what was pinned for it. -/
structure ApiClient.Backed (c : ApiClient) (log : List CredentialEvent) : Prop where
  token : c.token ≠ "" → obtained c.baseURL c.token ∈ log
  refreshToken : c.refreshToken ≠ "" → obtained c.baseURL c.refreshToken ∈ log
  pinnedCert : c.pinnedCert ≠ "" → pinned c.baseURL c.pinnedCert ∈ log

theorem ApiClient.Backed.mono {log log' : List CredentialEvent} (h : c.Backed log)
    (hsub : log ⊆ log') : c.Backed log' :=
  ⟨fun ht => hsub (h.token ht), fun ht => hsub (h.refreshToken ht), fun hp => hsub (h.pinnedCert hp)⟩

/-- A call with no token but the client's own. -/
def ApiClient.Own (c : ApiClient) (call : ApiCall) : Prop :=
  ∀ t ∈ c.shows call, t = c.token ∨ t = c.refreshToken

theorem justified_sent {log past : List CredentialEvent} (h : c.Backed log) (hpast : log ⊆ past)
    {shown : List String} (hshown : ∀ t ∈ shown, t = c.token ∨ t = c.refreshToken)
    {e : CredentialEvent} (he : e ∈ shown.map (sent c.baseURL)) : e.Justified past := by
  obtain ⟨t, ht, rfl⟩ := List.mem_map.mp he
  intro hne
  rcases hshown t ht with rfl | rfl
  · exact hpast (h.token hne)
  · exact hpast (h.refreshToken hne)

theorem justified_judged {log past : List CredentialEvent} (h : c.Backed log) (hpast : log ⊆ past)
    {fingerprint : String} {verifies : Bool} {e : CredentialEvent}
    (he : e ∈ c.judged c.baseURL fingerprint verifies) : e.Justified past := by
  unfold ApiClient.judged at he
  split_ifs at he with hrelies
  · obtain rfl := List.mem_singleton.mp he
    simp only [ApiClient.relies, Bool.and_eq_true, decide_eq_true_eq] at hrelies
    exact hpast (h.pinnedCert hrelies.1.2)
  · cases he

theorem justified_received {past : List CredentialEvent} {server : String}
    {response : HttpResponse call.Body} {e : CredentialEvent} (he : e ∈ call.received server response) :
    e.Justified past := by
  unfold ApiCall.received at he
  split at he
  · obtain ⟨t, -, rfl⟩ := List.mem_map.mp he
    trivial
  · cases he

theorem Redirect.carries_subset (r : Redirect) (shown : List String) : r.carries call shown ⊆ shown := by
  unfold Redirect.carries
  split_ifs
  · exact List.Subset.refl _
  · exact List.nil_subset _
  · exact List.Subset.refl _
  · exact List.nil_subset _

/-- As long as no redirect leads elsewhere, every event is one of the client's own server. -/
theorem justified_events {log past : List CredentialEvent} (h : c.Backed log) (hpast : log ⊆ past)
    {redirects : List Redirect} (hdirect : ∀ r ∈ redirects, r.elsewhere = none) {shown : List String}
    (hshown : ∀ t ∈ shown, t = c.token ∨ t = c.refreshToken) {x : Exchange call.Body}
    {e : CredentialEvent} (he : e ∈ c.events call c.baseURL shown redirects x) : e.Justified past := by
  induction redirects generalizing shown with
  | nil =>
    cases x with
    | unreachable => exact justified_sent h hpast hshown he
    | presented fingerprint verifies response =>
      rcases List.mem_append.mp he with he | he
      · split_ifs at he with haccepts
        · rcases List.mem_append.mp he with he | he
          · exact justified_received he
          · exact justified_sent h hpast hshown he
        · cases he
      · exact justified_judged h hpast he
  | cons r redirects ih =>
    obtain ⟨hr, hdirect⟩ := List.forall_mem_cons.mp hdirect
    rw [ApiClient.events, hr, Option.getD_none] at he
    rcases List.mem_append.mp he with he | he
    · split_ifs at he with haccepts
      · rcases List.mem_append.mp he with he | he
        · exact ih hdirect (fun t ht => hshown t (r.carries_subset shown ht)) he
        · exact justified_sent h hpast hshown he
      · cases he
    · exact justified_judged h hpast he

theorem obtained_of_outcome {redirects : List Redirect} (hdirect : ∀ r ∈ redirects, r.elsewhere = none)
    {shown : List String} {x : Exchange call.Body} {body : call.Body}
    (h : c.outcome call (c.follow redirects x) = .ok body) {t : String} (ht : t ∈ call.grants body) :
    obtained c.baseURL t ∈ c.events call c.baseURL shown redirects x := by
  induction redirects generalizing shown with
  | nil =>
    cases x with
    | unreachable => cases h
    | presented fingerprint verifies response =>
      simp only [ApiClient.follow, List.find?_nil, ApiClient.outcome] at h
      split_ifs at h with haccepts
      cases response with
      | status code error message => cases h
      | ok body' =>
        cases body' with
        | none => cases h
        | some body' =>
          obtain rfl := Except.ok.inj h
          have haccepts : c.accepts fingerprint verifies = true := by simpa using haccepts
          apply List.mem_append_left
          rw [if_pos haccepts]
          exact List.mem_append_left _ (List.mem_map_of_mem ht)
  | cons r redirects ih =>
    obtain ⟨hr, hdirect⟩ := List.forall_mem_cons.mp hdirect
    rw [ApiClient.events, hr, Option.getD_none]
    apply List.mem_append_left
    cases haccepts : c.accepts r.fingerprint r.verifies with
    | true =>
      rw [if_pos rfl]
      apply List.mem_append_left
      apply ih hdirect
      simpa only [ApiClient.follow, List.find?_cons, haccepts, Bool.not_true] using h
    | false =>
      -- the chain ends with a certificate that is not trusted
      simp only [ApiClient.follow, List.find?_cons, haccepts, Bool.not_false, ApiClient.outcome,
        if_true] at h
      cases h

/-- A session with the recorded server: nothing went wrong so far, the store and the client
have tokens of that server only, and the pin is its own. -/
structure Session (u p : String) (c : ApiClient) (s : Safe) : Prop where
  proper : Proper s.log
  url : s.url = u
  pin : s.pin = p
  stored : ∀ k ≠ KeyName.deviceKey, ∀ t, s.keys k = some t → t ≠ "" →
    obtained (trimSlashes u) t ∈ s.log
  pinned : p ≠ "" → pinned (trimSlashes u) p ∈ s.log
  base : c.baseURL = trimSlashes u
  backed : c.Backed s.log

/-- The program keeps the session, with the client that it returns. -/
def KeepsSession {α : Type} (u p : String) (c : ApiClient) (prog : Cli (α × ApiClient)) : Prop :=
  ∀ s, Session u p c s → prog.Always Safe.direct s fun r s' => Session u p r.2 s'

variable {u p : String} {α β : Type}

theorem keeps_pure (a : α) : KeepsSession u p c (.pure (a, c)) := fun _ h => h

theorem KeepsSession.bind {prog : Cli (α × ApiClient)} {f : α × ApiClient → Cli (β × ApiClient)}
    (h : KeepsSession u p c prog) (hf : ∀ a c', KeepsSession u p c' (f (a, c'))) :
    KeepsSession u p c (prog >>= f) := by
  intro s hs
  refine always_bind.mpr ((h s hs).mono ?_)
  rintro ⟨a, c'⟩ s' hs'
  exact hf a c' s' hs'

theorem Session.events (h : Session u p c s) (hown : c.Own call) {redirects : List Redirect}
    (hdirect : ∀ r ∈ redirects, r.elsewhere = none) (x : Exchange call.Body) :
    Session u p c { s with log := c.events call c.baseURL (c.shows call) redirects x ++ s.log } where
  proper := proper_append h.proper fun _ he _ hpast => justified_events h.backed hpast hdirect hown he
  url := h.url
  pin := h.pin
  stored k hk t ht hne := List.mem_append_right _ (h.stored k hk t ht hne)
  pinned hp := List.mem_append_right _ (h.pinned hp)
  base := h.base
  backed := h.backed.mono (List.subset_append_right _ _)

theorem attempt_keeps (h : Session u p c s) (hown : c.Own call) :
    (attempt c call).Always Safe.direct s fun r s' => Session u p c s' ∧
      ∀ body, r = .ok body → ∀ t ∈ call.grants body, obtained c.baseURL t ∈ s'.log := by
  rintro ⟨e, hdirect⟩
  refine ⟨h.events hown (hdirect call) _, fun body hbody t ht => ?_⟩
  exact List.mem_append_left _ (obtained_of_outcome (hdirect call) hbody ht)

theorem own_of_auth (hauth : call.auth = true) (c : ApiClient) : c.Own call := by
  intro t ht
  cases call <;> simp_all [ApiCall.auth, ApiClient.shows]

theorem refresh_keeps : KeepsSession u p c (Cli.refresh c) := by
  intro s h
  unfold Cli.refresh
  split_ifs
  · exact h
  · have hown : c.Own (.refresh c.refreshToken) := by
      intro t ht
      exact .inr (List.mem_singleton.mp ht)
    refine always_bind.mpr ((attempt_keeps h hown).mono ?_)
    rintro r s' ⟨h', hgrants⟩
    cases r with
    | error err => exact h'
    | ok token =>
      have htoken := hgrants token rfl token (List.mem_singleton.mpr rfl)
      exact { h' with backed := ⟨fun _ => htoken, h'.backed.refreshToken, h'.backed.pinnedCert⟩ }

theorem request_keeps (hown : ∀ c : ApiClient, c.Own call) : KeepsSession u p c (request c call) := by
  intro s h
  refine always_bind.mpr ((attempt_keeps h (hown c)).mono ?_)
  rintro r s' ⟨h', -⟩
  split_ifs
  · refine always_bind.mpr ((refresh_keeps s' h').mono ?_)
    rintro ⟨renewed, c'⟩ s'' h''
    dsimp only
    split_ifs
    · refine always_bind.mpr ((attempt_keeps h'' (hown c')).mono ?_)
      rintro r' s₃ ⟨h₃, -⟩
      exact h₃
    · exact h''
  · exact h'

/-- The operation does nothing to the session, however it ends. -/
def Neutral (u p : String) (c : ApiClient) (o : HostOp) : Prop :=
  ∀ e s, Session u p c s → Session u p c (Safe.sem o e s).2

theorem KeepsSession.perform {o : HostOp} (ho : Neutral u p c o) {f : o.Result → Cli (β × ApiClient)}
    (hf : ∀ r, KeepsSession u p c (f r)) : KeepsSession u p c (Cli.perform o >>= f) :=
  fun s h e => hf _ _ (ho e s h)

theorem neutral_same {o : HostOp} (ho : ∀ e s, (Safe.sem o e s).2 = s) : Neutral u p c o := by
  intro e s h
  rw [ho]
  exact h

theorem neutral_setKey {k : KeyName} {v : String}
    (hv : k ≠ .deviceKey → v = c.token ∨ v = c.refreshToken) : Neutral u p c (.setKey k v) := by
  intro e s h
  show Session u p c (if e.fails then (false, s) else
    (true, { s with keys := Function.update s.keys k (some v) })).2
  split_ifs
  · exact h
  · refine { h with stored := fun k' hk' t ht hne => ?_ }
    by_cases hkk : k' = k
    · subst hkk
      change Function.update s.keys k' (some v) k' = some t at ht
      rw [Function.update_self] at ht
      obtain rfl := Option.some.inj ht
      rw [← h.base]
      rcases hv hk' with rfl | rfl
      · exact h.backed.token hne
      · exact h.backed.refreshToken hne
    · change Function.update s.keys k (some v) k' = some t at ht
      rw [Function.update_of_ne hkk] at ht
      exact h.stored k' hk' t ht hne

theorem neutral_saveState {r : Record} (hu : r.serverURL = u) (hp : r.pinnedCertSHA256 = p) :
    Neutral u p c (.saveState r) := by
  intro e s h
  show Session u p c (if e.fails then (false, s) else (true, { s with file := some r.saved })).2
  split_ifs
  · exact h
  · have hsaved : r.saved.serverURL = u ∧ r.saved.pinnedCertSHA256 = p := by
      unfold Record.saved
      split_ifs <;> exact ⟨hu, hp⟩
    exact { h with url := hsaved.1, pin := hsaved.2 }

/-! ### the parts of the commands -/

theorem persistTokens_keeps (s : Safe) (h : Session u p c s) :
    (persistTokens c).Always Safe.direct s fun _ s' => Session u p c s' := by
  have hsession := neutral_setKey (u := u) (p := p) (k := .sessionToken) fun _ => .inl (Eq.refl c.token)
  have hrefresh := neutral_setKey (u := u) (p := p) (k := .refreshToken)
    fun _ => .inr (Eq.refl c.refreshToken)
  unfold persistTokens
  split_ifs
  · exact fun e e' => hrefresh e' _ (hsession e s h)
  · exact fun e => hrefresh e s h
  · exact fun e => hsession e s h
  · exact h

theorem memberZones_keeps (selfIP : String) (zones : List ZoneResponse) :
    KeepsSession u p c (memberZones c selfIP zones) := by
  induction zones generalizing c with
  | nil => exact keeps_pure _
  | cons z zones ih =>
    refine (request_keeps (own_of_auth rfl)).bind fun res c' => ih.bind fun rest c'' => ?_
    cases res <;> exact keeps_pure _

theorem addZones_keeps (byID : List RouteSync.Entry) (zones : List ZoneResponse) :
    KeepsSession u p c (addZones c byID zones) := by
  induction zones generalizing c byID with
  | nil => exact keeps_pure _
  | cons z zones ih =>
    refine (request_keeps (own_of_auth rfl)).bind fun res c' => ?_
    dsimp only
    split
    · exact keeps_pure _
    · exact ih _

theorem fetch_keeps (zones : List ZoneResponse) : KeepsSession u p c (fetch c zones) :=
  (addZones_keeps [] zones).bind fun _ _ => keeps_pure _

theorem memberEntries_keeps (rec : Record) : KeepsSession u p c (Cli.memberEntries c rec) := by
  refine (request_keeps (own_of_auth rfl)).bind fun zones c' => ?_
  cases zones with
  | error err => exact keeps_pure _
  | ok zones =>
    refine (memberZones_keeps rec.ip zones).bind fun kept c'' => (fetch_keeps kept).bind fun res c₃ => ?_
    cases res <;> exact keeps_pure _

theorem rebuildFromServer_keeps (rec : Record) : KeepsSession u p c (rebuildFromServer c rec) := by
  refine (request_keeps (own_of_auth rfl)).bind fun zones c' => ?_
  cases zones with
  | error err => exact keeps_pure _
  | ok zones =>
    refine (fetch_keeps zones).bind fun res c'' => ?_
    cases res with
    | error err => exact keeps_pure _
    | ok entries =>
      dsimp only
      split
      · exact keeps_pure _
      · exact KeepsSession.perform (neutral_same fun _ _ => rfl) fun ok => keeps_pure _

theorem compensate_keeps (zone : String) (id : Int) (code : Nat) :
    KeepsSession u p c (compensate c zone id >>= fun c => .pure (code, c)) := by
  intro s h
  refine always_bind.mpr (always_bind.mpr ((request_keeps (own_of_auth rfl) s h).mono ?_))
  exact fun _ _ h' => h'

theorem cmdAnnounceAdd_keeps (rec : Record) (subnet zone : String) :
    KeepsSession u p c (cmdAnnounceAdd c rec subnet zone) := by
  refine (request_keeps (own_of_auth rfl)).bind fun res c' => ?_
  cases res with
  | error err => exact keeps_pure _
  | ok ann =>
    dsimp only
    split
    · exact keeps_pure _
    · refine KeepsSession.perform (neutral_same fun _ _ => rfl) fun clash => ?_
      split_ifs
      · exact compensate_keeps zone ann.id 1
      · refine (rebuildFromServer_keeps rec).bind fun ok c'' => ?_
        dsimp only
        split_ifs
        · exact keeps_pure _
        · exact compensate_keeps zone ann.id 1

theorem cmdAnnounceRemove_keeps (rec : Record) (subnet zone : String) :
    KeepsSession u p c (cmdAnnounceRemove c rec subnet zone) := by
  refine (request_keeps (own_of_auth rfl)).bind fun list c' => ?_
  cases list with
  | error err => exact keeps_pure _
  | ok as =>
    dsimp only
    split_ifs
    · exact keeps_pure _
    · refine (request_keeps (own_of_auth rfl)).bind fun res c'' => ?_
      cases res with
      | error err => exact keeps_pure _
      | ok _ => exact (rebuildFromServer_keeps rec).bind fun _ _ => keeps_pure _

theorem cmdAnnounceList_keeps (rec : Record) : KeepsSession u p c (cmdAnnounceList c rec) :=
  (memberEntries_keeps rec).bind fun _ _ => keeps_pure _

theorem registerDevice_keeps (q : Provisioner) (nodeName pub : String) :
    KeepsSession u p c (registerDevice q c nodeName pub) := by
  refine (request_keeps (own_of_auth rfl)).bind fun res c' => ?_
  dsimp only
  split
  · exact keeps_pure _
  · refine (request_keeps (own_of_auth rfl)).bind fun list c'' => ?_
    cases list with
    | error err => exact keeps_pure _
    | ok nodes =>
      dsimp only
      split <;> exact keeps_pure _
  · exact keeps_pure _

theorem provisionDevice_keeps {q : Provisioner} (hu : q.serverURL = u) (hp : q.pinnedCertSHA256 = p)
    (nodeName : String) : KeepsSession u p c (provisionDevice q c nodeName) := by
  unfold provisionDevice
  split_ifs
  · exact keeps_pure _
  · refine KeepsSession.perform (neutral_same fun _ _ => rfl) fun pair => ?_
    refine KeepsSession.perform (neutral_setKey fun h => absurd rfl h) fun stored => ?_
    split_ifs
    · refine (registerDevice_keeps q nodeName _).bind fun res c' => ?_
      cases res with
      | error err => exact keeps_pure _
      | ok node =>
        refine (request_keeps (own_of_auth rfl)).bind fun res c'' => ?_
        cases res with
        | error err => exact keeps_pure _
        | ok info =>
          refine KeepsSession.perform (neutral_saveState hu hp) fun saved => ?_
          split_ifs
          · refine KeepsSession.perform (neutral_setKey fun _ => .inl rfl) fun ok => ?_
            split_ifs
            · refine KeepsSession.perform (neutral_setKey fun _ => .inr rfl) fun ok => ?_
              split_ifs <;> exact keeps_pure _
            · exact keeps_pure _
          · exact keeps_pure _
    · exact keeps_pure _

theorem login_keeps (username password : String) : KeepsSession u p c (login c username password) := by
  intro s h
  have hown : c.Own (.login username password) := by
    intro t ht
    cases ht
  refine always_bind.mpr ((attempt_keeps h hown).mono ?_)
  rintro r s' ⟨h', hgrants⟩
  cases r with
  | error err => exact h'
  | ok resp =>
    have htoken := hgrants resp rfl resp.token (by simp [ApiCall.grants])
    have hrefresh := hgrants resp rfl resp.refreshToken (by simp [ApiCall.grants])
    exact { h' with backed := ⟨fun _ => htoken, fun _ => hrefresh, h'.backed.pinnedCert⟩ }

theorem deleteNode_keeps (nodeID : Int) (more : Nat) :
    KeepsSession u p c (deleteNode c nodeID more) := by
  induction more generalizing c with
  | zero => exact request_keeps (own_of_auth rfl)
  | succ more ih =>
    refine (request_keeps (own_of_auth rfl)).bind fun res c' => ?_
    cases res with
    | ok _ => exact keeps_pure _
    | error err => exact ih

theorem logout_keeps (h : Session u p c s) :
    (logout c).Always Safe.direct s fun _ s' => Session u p c s' := by
  unfold logout
  split_ifs
  · exact h
  · have hown : c.Own (.logout c.refreshToken) := by
      intro t ht
      exact .inr (List.mem_singleton.mp ht)
    exact (attempt_keeps h hown).mono fun _ _ h' => h'.1

/-! ### whole commands -/

/-- Between commands: what is stored belongs to the recorded server. -/
structure Safe.Bound (s : Safe) : Prop where
  proper : Proper s.log
  stored : s.url ≠ "" → ∀ k ≠ KeyName.deviceKey, ∀ t, s.keys k = some t → t ≠ "" →
    obtained s.server t ∈ s.log
  pinned : s.url ≠ "" → s.pin ≠ "" → pinned s.server s.pin ∈ s.log

theorem Session.bound (h : Session u p c s) : s.Bound where
  proper := h.proper
  stored _ := by
    rw [Safe.server, h.url]
    exact h.stored
  pinned _ := by
    rw [Safe.server, h.url, h.pin]
    exact h.pinned

theorem loadLoose_always : loadLoose.Always Safe.direct s fun r s' =>
    s' = s ∧ ∀ rec, r = some rec → s.file.getD Record.empty = rec := by
  intro e
  show Always Safe.direct ((match (if e.1.fails then Except.error () else .ok s.file) with
    | .error _ => Pure.pure none
    | .ok none => Pure.pure (some Record.empty)
    | .ok (some r) => Pure.pure (some r) : Cli (Option Record))) s _
  split_ifs
  · exact ⟨rfl, fun rec h => by cases h⟩
  · cases hfile : s.file with
    | none => exact ⟨rfl, fun rec h => Option.some.inj h⟩
    | some r => exact ⟨rfl, fun rec h => Option.some.inj h⟩

theorem load_always : load.Always Safe.direct s fun r s' =>
    s' = s ∧ ∀ rec, r = some rec → s.file.getD Record.empty = rec := by
  intro e
  cases hfails : e.1.fails with
  | true =>
    simp only [Safe.direct, restrict, Safe.sem, hfails]
    exact ⟨rfl, fun rec h => by cases h⟩
  | false =>
    simp only [Safe.direct, restrict, Safe.sem, hfails]
    cases hfile : s.file with
    | none => exact ⟨rfl, fun rec h => by cases h⟩
    | some r =>
      refine ⟨rfl, fun rec h => ?_⟩
      split_ifs at h
      exact Option.some.inj h

theorem newClient_always (hb : s.Bound) {rec : Record} (hrec : s.file.getD Record.empty = rec)
    (insecure : Bool) : (newClient insecure rec).Always Safe.direct s fun r s' =>
      s' = s ∧ ∀ c, r = some c → Session rec.serverURL rec.pinnedCertSHA256 c s := by
  have hurl : s.url = rec.serverURL := congrArg Record.serverURL hrec
  have hpin : s.pin = rec.pinnedCertSHA256 := congrArg Record.pinnedCertSHA256 hrec
  unfold newClient
  by_cases hempty : rec.serverURL = ""
  · rw [if_pos hempty]
    exact ⟨rfl, fun c h => by cases h⟩
  · rw [if_neg hempty]
    have hstored := hb.stored (hurl ▸ hempty)
    have hpinned := hb.pinned (hurl ▸ hempty)
    rw [Safe.server, hurl] at hstored hpinned
    rw [hpin] at hpinned
    -- whatever is read of the store is in it
    have hread : ∀ (e : Choice) (k : KeyName), k ≠ .deviceKey →
        (if e.fails then none else s.keys k).getD "" ≠ "" →
        obtained (trimSlashes rec.serverURL) ((if e.fails then none else s.keys k).getD "") ∈ s.log := by
      intro e k hk hne
      split_ifs at hne ⊢
      · exact absurd rfl hne
      · cases hkey : s.keys k with
        | none =>
          rw [hkey] at hne
          exact absurd rfl hne
        | some t =>
          rw [hkey] at hne
          exact hstored k hk t hkey hne
    intro e e'
    refine ⟨rfl, fun c hc => ?_⟩
    obtain rfl := Option.some.inj hc
    refine ⟨hb.proper, hurl, hpin, hstored, hpinned, rfl, ?_⟩
    refine ⟨hread e.1 .sessionToken (by decide), hread e'.1 .refreshToken (by decide), fun hne => ?_⟩
    cases insecure with
    | true => exact absurd rfl hne
    | false => exact hpinned hne

theorem always_newClient (hb : s.Bound) {rec : Record} (hrec : s.file.getD Record.empty = rec)
    {insecure : Bool} {f : Option ApiClient → Cli α} {Q : α → Safe → Prop}
    (hnone : (f none).Always Safe.direct s Q)
    (hsome : ∀ c, Session rec.serverURL rec.pinnedCertSHA256 c s →
      (f (some c)).Always Safe.direct s Q) : (newClient insecure rec >>= f).Always Safe.direct s Q := by
  refine always_bind.mpr ((newClient_always hb hrec insecure).mono ?_)
  rintro r s' ⟨rfl, hsession⟩
  cases r with
  | none => exact hnone
  | some c => exact hsome c (hsession c rfl)

theorem always_loadLoose {f : Option Record → Cli α} {Q : α → Safe → Prop}
    (hnone : (f none).Always Safe.direct s Q)
    (hsome : (f (some (s.file.getD Record.empty))).Always Safe.direct s Q) :
    (loadLoose >>= f).Always Safe.direct s Q := by
  refine always_bind.mpr (loadLoose_always.mono ?_)
  rintro r s' ⟨rfl, hrec⟩
  cases r with
  | none => exact hnone
  | some rec =>
    rw [← hrec rec rfl]
    exact hsome

theorem always_load {f : Option Record → Cli α} {Q : α → Safe → Prop}
    (hnone : (f none).Always Safe.direct s Q)
    (hsome : (f (some (s.file.getD Record.empty))).Always Safe.direct s Q) :
    (load >>= f).Always Safe.direct s Q := by
  refine always_bind.mpr (load_always.mono ?_)
  rintro r s' ⟨rfl, hrec⟩
  cases r with
  | none => exact hnone
  | some rec =>
    rw [← hrec rec rfl]
    exact hsome

theorem always_persist (h : Session u p c s) {f : Unit → Cli α} {Q : α → Safe → Prop}
    (hf : ∀ s', s'.Bound → (f ()).Always Safe.direct s' Q) :
    (persistTokens c >>= f).Always Safe.direct s Q :=
  always_bind.mpr ((persistTokens_keeps s h).mono fun _ s' h' => hf s' h'.bound)

theorem deleteKey_bound (k : KeyName) (e : Choice) (hb : s.Bound) :
    (Safe.sem (.deleteKey k) e s).2.Bound := by
  show (if e.fails then (false, s) else
    (true, { s with keys := Function.update s.keys k none })).2.Bound
  split_ifs
  · exact hb
  · refine { hb with stored := fun hurl k' hk' t ht hne => ?_ }
    change Function.update s.keys k none k' = some t at ht
    by_cases hkk : k' = k
    · subst hkk
      rw [Function.update_self] at ht
      cases ht
    · rw [Function.update_of_ne hkk] at ht
      exact hb.stored hurl k' hk' t ht hne

theorem clearState_bound (e : Choice) (hb : s.Bound) : (Safe.sem .clearState e s).2.Bound := by
  show (if e.fails then (false, s) else (true, { s with file := none })).2.Bound
  split_ifs
  · exact hb
  · exact ⟨hb.proper, fun h => absurd rfl h, fun h => absurd rfl h⟩

theorem wipe_bound (hb : s.Bound) : wipe.Always Safe.direct s fun _ s' => s'.Bound := by
  intro e₁ e₂ e₃ e₄ e₅ e₆
  exact clearState_bound e₆ (deleteKey_bound .refreshToken e₅ (deleteKey_bound .sessionToken e₄
    (deleteKey_bound .deviceKey e₃ hb)))

theorem createAccount_keeps (h : Session u p c s) (invite : Option String)
    (username password : String) : (createAccount c invite username password).Always Safe.direct s
      fun _ s' => Session u p c s' := by
  unfold createAccount
  cases invite with
  | none => exact h
  | some code =>
    have hown : c.Own (.register code username password) := by
      intro t ht
      cases ht
    refine always_bind.mpr (always_bind.mpr ((attempt_keeps h hown).mono ?_))
    rintro r s' ⟨h', -⟩
    exact h'

theorem cmdLogin_bound (hb : s.Bound) (insecure : Bool) (invite : Option String) (username : String)
    (password : Option String) :
    (cmdLogin insecure invite username password).Always Safe.direct s fun _ s' => s'.Bound := by
  unfold cmdLogin
  cases password with
  | none => exact hb
  | some password =>
    dsimp only
    split_ifs
    · exact hb
    · refine always_loadLoose hb (always_newClient hb rfl hb fun c h => ?_)
      refine always_bind.mpr ((createAccount_keeps h invite username password).mono ?_)
      intro created s' h'
      split_ifs
      · refine always_bind.mpr ((login_keeps username password s' h').mono ?_)
        rintro ⟨res, c'⟩ s'' h''
        cases res with
        | error err => exact h''.bound
        | ok _ => exact always_persist h'' fun _ hb' => hb'
      · exact h'.bound

theorem cmdRegister_bound (hb : s.Bound) (insecure : Bool) (nodeName : String) :
    (cmdRegister insecure nodeName).Always Safe.direct s fun _ s' => s'.Bound := by
  unfold cmdRegister
  split_ifs
  · exact hb
  · refine always_loadLoose hb ?_
    dsimp only
    split_ifs
    · exact hb
    · refine always_newClient hb rfl hb fun c h => ?_
      dsimp only
      split_ifs
      · exact hb
      · refine always_bind.mpr ((provisionDevice_keeps
          (q := ⟨_, _, "openwrt"⟩) rfl rfl nodeName s h).mono ?_)
        rintro ⟨res, c'⟩ s' h'
        cases res with
        | error err => exact h'.bound
        | ok _ => exact always_persist h' fun _ hb' => hb'

theorem cmdZone_bound (hb : s.Bound) (insecure : Bool) (cmd : ZoneCommand) :
    (cmdZone insecure cmd).Always Safe.direct s fun _ s' => s'.Bound := by
  refine always_load hb (always_newClient hb rfl hb fun c h => ?_)
  dsimp only
  cases hcall : zoneCall (s.file.getD Record.empty).nodeID cmd with
  | none => exact always_persist h fun _ hb' => hb'
  | some call =>
    have hauth : call.auth = true := by
      cases cmd <;> simp only [zoneCall, Option.map_eq_some_iff, Option.some.injEq] at hcall
      · obtain ⟨_, -, rfl⟩ := hcall
        rfl
      · obtain ⟨_, -, rfl⟩ := hcall
        rfl
      all_goals
        obtain rfl := hcall
        rfl
    refine always_bind.mpr ((request_keeps (own_of_auth hauth) s h).mono ?_)
    exact fun r s' h' => always_persist h' fun _ hb' => hb'

theorem cmdAnnounce_bound (hb : s.Bound) (insecure : Bool) (cmd : AnnounceCommand) :
    (cmdAnnounce insecure cmd).Always Safe.direct s fun _ s' => s'.Bound := by
  refine always_load hb ?_
  dsimp only
  split_ifs
  · exact hb
  · refine always_newClient hb rfl hb fun c h => ?_
    have hpersist : ∀ (r : Nat × ApiClient) s', Session (s.file.getD Record.empty).serverURL
        (s.file.getD Record.empty).pinnedCertSHA256 r.2 s' →
        (persistTokens r.2 >>= fun _ => Pure.pure r.1 : Cli Nat).Always Safe.direct s'
          fun _ s' => s'.Bound := fun r s' h' => always_persist h' fun _ hb' => hb'
    dsimp only
    cases cmd with
    | add subnet zone => exact always_bind.mpr ((cmdAnnounceAdd_keeps _ subnet zone s h).mono hpersist)
    | remove subnet zone =>
      exact always_bind.mpr ((cmdAnnounceRemove_keeps _ subnet zone s h).mono hpersist)
    | list => exact always_bind.mpr ((cmdAnnounceList_keeps _ s h).mono hpersist)

theorem cmdStatus_bound (hb : s.Bound) (insecure : Bool) :
    (cmdStatus insecure).Always Safe.direct s fun _ s' => s'.Bound := by
  refine always_loadLoose hb (always_newClient hb rfl hb fun c h => ?_)
  refine always_bind.mpr ((request_keeps (own_of_auth rfl) s h).mono ?_)
  rintro ⟨res, c'⟩ s' h'
  dsimp only
  split_ifs
  · exact always_persist h' fun _ hb' => hb'
  · exact h'.bound

theorem cmdLogout_bound (hb : s.Bound) (insecure force : Bool) :
    (cmdLogout insecure force).Always Safe.direct s fun _ s' => s'.Bound := by
  refine always_loadLoose hb ?_
  cases force with
  | true => exact wipe_bound hb
  | false =>
    refine always_newClient hb rfl hb fun c h => ?_
    dsimp only
    split_ifs
    · exact hb
    · refine always_bind.mpr ((deleteNode_keeps _ 2 s h).mono ?_)
      rintro ⟨res, c'⟩ s' h'
      cases res with
      | error err => exact h'.bound
      | ok _ => exact always_bind.mpr ((logout_keeps h').mono fun _ _ h'' => wipe_bound h''.bound)

theorem trimSlashes_trimSlashes (url : String) : trimSlashes (trimSlashes url) = trimSlashes url := by
  simp [trimSlashes, List.dropWhile_idempotent _]

theorem saved_url (r : Record) : r.saved.serverURL = r.serverURL := by
  unfold Record.saved
  split_ifs <;> rfl

theorem saved_pin (r : Record) : r.saved.pinnedCertSHA256 = r.pinnedCertSHA256 := by
  unfold Record.saved
  split_ifs <;> rfl

theorem setup_bound (hb : s.Bound) {server pin : String} (hc : s.Careful (.setup server pin))
    {r : Record} (hurl : r.serverURL = trimSlashes server)
    (hpin : r.pinnedCertSHA256 = if pin ≠ "" then toLower pin else s.pin) :
    (({ s with file := some r.saved } : Safe).noted (.setup server pin) 0).Bound := by
  have hserver : ({ s with file := some r.saved } : Safe).server = trimSlashes server := by
    show trimSlashes r.saved.serverURL = _
    rw [saved_url, hurl, trimSlashes_trimSlashes]
  have hpin' : ({ s with file := some r.saved } : Safe).pin = r.pinnedCertSHA256 := saved_pin r
  -- a recorded server that stays was recorded before
  have hkept : ({ s with file := some r.saved } : Safe).url ≠ "" → trimSlashes server = s.server →
      s.url ≠ "" := by
    intro hne hsame hempty
    apply hne
    show r.saved.serverURL = ""
    rw [saved_url, hurl, hsame, Safe.server, hempty]
    rfl
  have hstored : ({ s with file := some r.saved } : Safe).url ≠ "" → ∀ k ≠ KeyName.deviceKey, ∀ t,
      s.keys k = some t → t ≠ "" → obtained (trimSlashes server) t ∈ s.log := by
    intro hne k hk t ht hnet
    rcases hc with hsame | ⟨hnone, -⟩
    · rw [hsame]
      exact hb.stored (hkept hne hsame) k hk t ht hnet
    · have hempty := hnone k hk
      rw [ht] at hempty
      exact absurd hempty hnet
  by_cases hp : pin = ""
  · have hnoted : ({ s with file := some r.saved } : Safe).noted (.setup server pin) 0 =
        { s with file := some r.saved } := if_pos hp
    rw [if_neg (not_not.mpr hp)] at hpin
    rw [hnoted]
    refine ⟨hb.proper, fun hne => hserver ▸ hstored hne, fun hne hnep => ?_⟩
    rw [hserver, hpin', hpin]
    rw [hpin', hpin] at hnep
    rcases hc with hsame | ⟨-, hnopin⟩
    · rw [hsame]
      exact hb.pinned (hkept hne hsame) hnep
    · exact absurd (hnopin hp) hnep
  · have hnoted : ({ s with file := some r.saved } : Safe).noted (.setup server pin) 0 =
        { s with file := some r.saved, log := pinned (trimSlashes server) (toLower pin) :: s.log } := by
      show (if pin = "" then _ else _) = _
      rw [if_neg hp, hserver]
    rw [if_pos hp] at hpin
    rw [hnoted]
    refine ⟨⟨trivial, hb.proper⟩, fun hne k hk t ht hnet => ?_, fun hne hnep => ?_⟩
    · exact List.mem_cons_of_mem _ (hserver ▸ hstored hne k hk t ht hnet)
    · show pinned ({ s with file := some r.saved } : Safe).server _ ∈ _
      have hpins : Safe.pin { s with
          file := some r.saved, log := pinned (trimSlashes server) (toLower pin) :: s.log } =
            toLower pin := (saved_pin r).trans hpin
      rw [hserver, hpins]
      exact List.mem_cons_self

theorem cmdSetup_bound (hb : s.Bound) {server pin : String} (hc : s.Careful (.setup server pin)) :
    (cmdSetup server pin).Always Safe.direct s fun code s' =>
      (s'.noted (.setup server pin) code).Bound := by
  unfold cmdSetup
  by_cases hempty : server = ""
  · rw [if_pos hempty]
    exact hb
  · rw [if_neg hempty]
    refine always_loadLoose hb fun e => ?_
    cases hfails : e.1.fails with
    | true =>
      simp only [Safe.direct, restrict, Safe.sem, hfails, if_true]
      exact hb
    | false =>
      simp only [Safe.direct, restrict, Safe.sem, hfails, Bool.false_eq_true, if_false]
      exact setup_bound hb hc rfl rfl

theorem trust_bound (hb : s.Bound) (fingerprint : String) :
    (({ s with file := some { s.file.getD Record.empty with
      pinnedCertSHA256 := toLower fingerprint }.saved } : Safe).noted (.trust fingerprint) 0).Bound := by
  have hurl : ({ s with file := some { s.file.getD Record.empty with
      pinnedCertSHA256 := toLower fingerprint }.saved } : Safe).url = s.url := saved_url _
  refine ⟨⟨trivial, hb.proper⟩, fun hne k hk t ht hnet => ?_, fun _ _ => ?_⟩
  · apply List.mem_cons_of_mem
    have hstored := hb.stored (hurl ▸ hne) k hk t ht hnet
    rw [Safe.server] at hstored
    rwa [← hurl] at hstored
  · have hpin : Safe.pin { s with file := some { s.file.getD Record.empty with
        pinnedCertSHA256 := toLower fingerprint }.saved } = toLower fingerprint := saved_pin _
    show pinned _ (Safe.pin { s with file := some { s.file.getD Record.empty with
        pinnedCertSHA256 := toLower fingerprint }.saved }) ∈ _
    rw [hpin]
    exact List.mem_cons_self

theorem cmdTrust_bound (hb : s.Bound) (fingerprint : String) :
    (cmdTrust fingerprint).Always Safe.direct s fun code s' =>
      (s'.noted (.trust fingerprint) code).Bound := by
  unfold cmdTrust
  by_cases hempty : fingerprint = ""
  · rw [if_pos hempty]
    exact hb
  · rw [if_neg hempty]
    refine always_loadLoose hb ?_
    dsimp only
    by_cases hurl : (s.file.getD Record.empty).serverURL = ""
    · rw [if_pos hurl]
      exact hb
    · rw [if_neg hurl]
      intro e
      cases hfails : e.1.fails with
      | true =>
        simp only [Safe.direct, restrict, Safe.sem, hfails, if_true]
        exact hb
      | false =>
        simp only [Safe.direct, restrict, Safe.sem, hfails, Bool.false_eq_true, if_false]
        exact trust_bound hb fingerprint

/-- Every command leaves what is stored with the server it is of, if every setup is careful. -/
theorem Command.bound (hb : s.Bound) {cmd : Command} (hc : s.Careful cmd) (insecure : Bool) :
    (cmd.run insecure).Always Safe.direct s fun code s' => (s'.noted cmd code).Bound := by
  cases cmd with
  | setup server pin => exact cmdSetup_bound hb hc
  | trust fingerprint => exact cmdTrust_bound hb fingerprint
  | login username password => exact cmdLogin_bound hb insecure none username password
  | registerAccount invite username password =>
    exact cmdLogin_bound hb insecure (some invite) username password
  | register nodeName => exact cmdRegister_bound hb insecure nodeName
  | zone cmd => exact cmdZone_bound hb insecure cmd
  | announce cmd => exact cmdAnnounce_bound hb insecure cmd
  | status => exact cmdStatus_bound hb insecure
  | logout force => exact cmdLogout_bound hb insecure force

/-- In every history whose setups are careful and whose servers redirect to no other server, a token
goes only to the server that it came from, and a pin decides only for the server it was given for. -/
theorem credentials_stay (h : Safe.History Safe.Careful Choice.Direct s) : Proper s.log := by
  suffices hb : s.Bound from hb.proper
  induction h with
  | fresh => exact ⟨trivial, fun h => absurd rfl h, fun h => absurd rfl h⟩
  | step insecure cmd hok hrun hfair _ ih =>
    exact always_restrict.mp (Command.bound ih hok insecure) _ _ _ hrun hfair

end

/-! ### two servers -/

/-- Every server lets its user in, with tokens of its own name, and has nothing to list; it may
redirect each request first. -/
def labChoice (server : String) (redirects : ApiCall → List Redirect) : Choice where
  redirects := redirects
  wire call := .presented "aa" true (.ok (match call with
    | .login .. => some ⟨server, server⟩
    | .listZones => some []
    | _ => none))
  fails := false
  keyPair := ("", "")
  clash := false

theorem history_run {ok : Safe → Command → Prop} {fair : Choice → Prop} {s : Safe}
    (h : Safe.History ok fair s) (cmd : Command) (hok : ok s cmd) (e : Choice) (he : fair e) :
    Safe.History ok fair (((cmd.run false).run Safe.sem e s).2.noted cmd
      ((cmd.run false).run Safe.sem e s).1) := by
  obtain ⟨tr, hrun, htr⟩ := runs_const_iff.mpr
    (show (cmd.run false).run Safe.sem e s = (_, _) from rfl)
  exact .step false cmd hok hrun (fun x hx => (htr x hx).symm ▸ he) h

/-- The server sends the client to another path of its own. -/
def moved : ApiCall → List Redirect := fun _ => [⟨"aa", true, none, true, true⟩]

/-- With one server the tokens come back to it. -/
theorem credentials_stay_home : ∃ s, Safe.History Safe.Careful Choice.Direct s ∧ Proper s.log ∧
    sent "lan" "one" ∈ s.log := by
  have hquiet : (labChoice "one" fun _ => []).Direct := fun _ _ hr => absurd hr List.not_mem_nil
  have hmoved : (labChoice "one" moved).Direct := by
    intro call r hr
    obtain rfl := List.mem_singleton.mp hr
    rfl
  have hsetup := @history_run Safe.Careful _ _ .fresh (.setup "lan/" "")
    (Or.inr ⟨fun _ _ => rfl, fun _ => rfl⟩) _ hquiet
  have hlogin := history_run hsetup (.login "alice" (some "secret")) trivial _ hmoved
  have hstatus := history_run hlogin .status trivial _ hmoved
  exact ⟨_, hstatus, credentials_stay hstatus, by decide⟩

/-- A session that the server finds expired, and a renewal that it sends to another host. -/
def abroad : Choice where
  redirects
    | .refresh _ => [⟨"aa", true, some "abroad", true, false⟩]
    | _ => []
  wire _ := .presented "aa" true (.status 401 "unauthorized" "")
  fails := false
  keyPair := ("", "")
  clash := false

/-- A setup for another server takes the token and the pin of the first one along, and a redirect
takes the refresh token along. -/
theorem token_sent_abroad :
    (∃ s, Safe.History (fun _ _ => True) Choice.Direct s ∧
      obtained "home" "one" ∈ s.log ∧ pinned "home" "aa" ∈ s.log ∧
      sent "abroad" "one" ∈ s.log ∧ relied "abroad" "aa" ∈ s.log ∧ ¬ Proper s.log) ∧
    ∃ s, Safe.History Safe.Careful (fun _ => True) s ∧ s.server = "home" ∧
      obtained "home" "one" ∈ s.log ∧ sent "abroad" "one" ∈ s.log ∧ ¬ Proper s.log := by
  constructor
  · have hdirect (server : String) : (labChoice server fun _ => []).Direct :=
      fun _ _ hr => absurd hr List.not_mem_nil
    have hsetup := @history_run (fun _ _ => True) _ _ .fresh (.setup "home" "") trivial _ (hdirect "")
    have htrust := history_run hsetup (.trust "aa") trivial _ (hdirect "")
    have hlogin := history_run htrust (.login "alice" (some "secret")) trivial _ (hdirect "one")
    have hmoved := history_run hlogin (.setup "abroad" "") trivial _ (hdirect "")
    have hstatus := history_run hmoved .status trivial _ (hdirect "")
    refine ⟨_, hstatus, by decide, by decide, by decide, by decide, fun hproper => ?_⟩
    have hback := hproper.1 (by decide)
    exact absurd hback (by decide)
  · have hsetup := @history_run Safe.Careful (fun _ => True) _ .fresh (.setup "home" "")
      (Or.inr ⟨fun _ _ => rfl, fun _ => rfl⟩) (labChoice "" fun _ => []) trivial
    have hlogin := history_run hsetup (.login "alice" (some "secret")) trivial
      (labChoice "one" fun _ => []) trivial
    have hstatus := history_run hlogin .status trivial abroad trivial
    refine ⟨_, hstatus, by decide, by decide, by decide, fun hproper => ?_⟩
    have hback := hproper.1 (by decide)
    exact absurd hback (by decide)

end LanWeave

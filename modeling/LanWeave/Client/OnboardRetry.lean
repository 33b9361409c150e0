import LanWeave.Client.Onboard
import LanWeave.Router.Reads
import LanWeave.Server.Registration

/-! A device that is onboarded again after attempts that have failed somewhere: each of them makes a
key of its own, so that the server knows the name and not the key of the one before. -/

namespace LanWeave
open Library Prog Cli

def Onboards (nodeName : String) : HostOp → Prop
  | .http _ (.registerNode name ..) => name = nodeName
  | .http _ .listNodes | .http _ .serverInfo | .http _ (.refresh _) => True
  | .generateKeyPair | .setKey .. | .saveState _ => True
  | _ => False

section
variable {nodeName : String} {p : Provisioner} {c : ApiClient}

theorem only_registerDevice (pub : String) :
    (registerDevice p c nodeName pub).Only (Onboards nodeName) := by
  have hrefresh : ∀ c rt, Onboards nodeName (.http c (.refresh rt)) := fun _ _ => trivial
  apply (only_request (fun _ => rfl) hrefresh).bind
  intro r
  obtain ⟨res, c⟩ := r
  cases res with
  | ok node => trivial
  | error err =>
    cases err with
    | pubKeyTaken =>
      apply (only_request (fun _ => trivial) hrefresh).bind
      intro r
      obtain ⟨list, c⟩ := r
      cases list with
      | error err => trivial
      | ok nodes =>
        dsimp only
        cases nodes.find? fun n => n.name = nodeName <;> trivial
    | _ => trivial

theorem only_provisionDevice : (provisionDevice p c nodeName).Only (Onboards nodeName) := by
  have hrefresh : ∀ c rt, Onboards nodeName (.http c (.refresh rt)) := fun _ _ => trivial
  have hset : ∀ (k : KeyName) (v : String) {α : Type} (f : Bool → Cli α),
      (∀ ok, (f ok).Only (Onboards nodeName)) → (perform (.setKey k v) >>= f).Only (Onboards nodeName) :=
    fun k v _ f hf => (only_perform (o := .setKey k v) trivial).bind hf
  unfold provisionDevice
  split_ifs
  · trivial
  apply (only_perform (o := .generateKeyPair) trivial).bind
  intro pair
  apply hset
  intro stored
  dsimp only
  split_ifs
  · apply (only_registerDevice pair.2).bind
    intro r
    obtain ⟨res, c⟩ := r
    cases res with
    | error err => trivial
    | ok node =>
      obtain ⟨ip, nodeID⟩ := node
      apply (only_request (fun _ => trivial) hrefresh).bind
      intro r
      obtain ⟨info, c⟩ := r
      cases info with
      | error err => trivial
      | ok info =>
        refine (only_perform (o := .saveState _) trivial).bind fun saved => ?_
        split_ifs
        · apply hset
          intro cached
          split_ifs
          · apply hset
            intro cached
            split_ifs <;> trivial
          · trivial
        · trivial
  · trivial

end

section
variable {κ : Type} [DecidableEq κ]

/-- The step registers a node: after it the server has other nodes than before. -/
def RegistersNode (h : Handlers κ) (i : Identity) (x : Installation κ × HostOp × Conditions) : Prop :=
  (Installation.sem h i x.2.1 x.2.2 x.1).2.site.world.db.nodes ≠ x.1.site.world.db.nodes

/-- Rows are only added, and only nodes of this account with this name. -/
structure DB.Gains (i : Identity) (nodeName : String) (db' db : DB) : Prop where
  wf : db.Wf → db'.Wf
  kept : ∀ n ∈ db.nodes, n ∈ db'.nodes
  gained : ∀ n ∈ db'.nodes, n ∈ db.nodes ∨ n.userID = i.userID ∧ n.name = trimSpace nodeName

namespace DB
variable {i : Identity} {nodeName : String} {db db' db'' : DB} {n : Node}

theorem Gains.refl (db : DB) : db.Gains i nodeName db := ⟨id, fun _ h => h, fun _ h => .inl h⟩

theorem Gains.trans (h : db'.Gains i nodeName db) (h' : db''.Gains i nodeName db') :
    db''.Gains i nodeName db where
  wf hw := h'.wf (h.wf hw)
  kept n hn := h'.kept n (h.kept n hn)
  gained n hn := (h'.gained n hn).elim (h.gained n) .inr

theorem gains_withNode (hfits : NodeFits db n) (huser : n.userID = i.userID)
    (hname : n.name = trimSpace nodeName) : (db.withNode n).Gains i nodeName db where
  wf hw := hfits.wf hw
  kept m hm := by
    rw [nodes_withNode hfits]
    exact List.mem_append_left _ hm
  gained m hm := by
    rw [nodes_withNode hfits] at hm
    rcases List.mem_append.mp hm with hm | hm
    · exact .inl hm
    · rw [List.mem_singleton.mp hm]
      exact .inr ⟨huser, hname⟩

end DB

variable {h : Handlers κ} {i : Identity} {nodeName : String}

/-- A registration adds a node or nothing, whether or not the client hears of it. -/
theorem exchange_registerNode (t : Transit) (c : ApiClient) (pub platform : String) (s : Site κ) :
    (s.exchange h i t c (.registerNode nodeName pub platform)).2.world.db = s.world.db ∨
      ∃ n : Node, n.userID = i.userID ∧ n.name = trimSpace nodeName ∧ NodeFits s.world.db n ∧
        (s.exchange h i t c (.registerNode nodeName pub platform)).2.world.db =
          s.world.db.withNode n := by
  have hrespond : (s.respond h i t (.registerNode nodeName pub platform)).2.world.db = s.world.db ∨
      ∃ n : Node, n.userID = i.userID ∧ n.name = trimSpace nodeName ∧ NodeFits s.world.db n ∧
        (s.respond h i t (.registerNode nodeName pub platform)).2.world.db = s.world.db.withNode n := by
    obtain ⟨-, hworld⟩ := @respond_call κ _ h i t s (.registerNode nodeName pub platform)
      (.registerNode (some ⟨nodeName, pub, platform⟩)) rfl fun _ => Call.noConfusion
    have hhandle : handle h.toServer ⟨some i, .registerNode (some ⟨nodeName, pub, platform⟩)⟩ =
        registerNode h.toServer (some i) (some ⟨nodeName, pub, platform⟩) := rfl
    rw [hworld, hhandle]
    rcases registerNode_cases s.world h.toServer i ⟨nodeName, pub, platform⟩ with
      ⟨r, -, -, hrun, -⟩ | ⟨n, huser, hname, -, -, hfits, -, hdb⟩
    · left
      rw [hrun]
    · exact .inr ⟨n, huser, hname, hfits, hdb⟩
  unfold Site.exchange
  split_ifs
  · exact .inl rfl
  · cases t.fate with
    | lost | refused => exact .inl rfl
    | served | unanswered =>
      dsimp only
      exact hrespond

theorem step_onboards {o : HostOp} (ho : Onboards nodeName o) (e : Conditions) (s : Installation κ) :
    (Installation.sem h i o e s).2.site.world.db = s.site.world.db ∨
      ∃ n : Node, n.userID = i.userID ∧ n.name = trimSpace nodeName ∧ NodeFits s.site.world.db n ∧
        (Installation.sem h i o e s).2.site.world.db = s.site.world.db.withNode n := by
  have hquiet : ∀ c call, (s.site.respond h i e.transit call).2 = s.site →
      (Installation.sem h i (.http c call) e s).2.site.world.db = s.site.world.db :=
    fun c call hsame => congrArg (fun x => x.world.db) (exchange_of_respond hsame)
  cases o with
  | http c call =>
    cases call with
    | registerNode name pub platform =>
      obtain rfl : name = nodeName := ho
      exact exchange_registerNode e.transit c pub platform s.site
    | listNodes => exact .inl (hquiet c .listNodes rfl)
    | serverInfo => exact .inl (hquiet c .serverInfo rfl)
    | refresh rt => exact .inl (hquiet c (.refresh rt) rfl)
    | _ => exact ho.elim
  | generateKeyPair => exact .inl rfl
  | setKey k v =>
    left
    unfold Installation.sem
    dsimp only
    split_ifs <;> rfl
  | saveState r =>
    left
    unfold Installation.sem
    dsimp only
    split_ifs <;> rfl
  | _ => exact ho.elim

/-- A run of attempts: the rows of the server stay as they are until one of the steps registers the
node, and from then on it is there. -/
theorem runs_onboards {α : Type} {p : Cli α} (hp : p.Only (Onboards nodeName)) {s s' : Installation κ}
    {tr : List (HostOp × Conditions)} {a : α} (hrun : p.Runs (Installation.sem h i) s tr a s') :
    s'.site.world.db.Gains i nodeName s.site.world.db ∧
      ((∀ x ∈ steps (Installation.sem h i) s tr, ¬RegistersNode h i x) ∧
        s'.site.world.db = s.site.world.db ∨
        (∃ x ∈ steps (Installation.sem h i) s tr, RegistersNode h i x) ∧
          ¬s'.site.world.db.Unnamed i.userID (trimSpace nodeName)) := by
  induction p generalizing s tr with
  | pure b =>
    obtain ⟨rfl, -, rfl⟩ := hrun
    exact ⟨.refl _, .inl ⟨fun x hx => absurd hx List.not_mem_nil, rfl⟩⟩
  | op o k ih =>
    obtain ⟨e, tr, rfl, hrun⟩ := hrun
    obtain ⟨hgains, hrest⟩ := ih _ (hp.2 _) hrun
    rcases step_onboards (h := h) (i := i) hp.1 e s with hsame | ⟨n, huser, hname, hfits, hnew⟩
    · rw [hsame] at hgains hrest
      have hquiet : ¬RegistersNode h i (s, o, e) := fun h => h (congrArg DB.nodes hsame)
      refine ⟨hgains, hrest.imp ?_ ?_⟩
      · rintro ⟨hnone, hdb⟩
        exact ⟨List.forall_mem_cons.mpr ⟨hquiet, hnone⟩, hdb⟩
      · rintro ⟨⟨x, hx, hregisters⟩, hnamed⟩
        exact ⟨⟨x, List.mem_cons_of_mem _ hx, hregisters⟩, hnamed⟩
    · rw [hnew] at hgains
      have hmem := hgains.kept n hfits.mem
      refine ⟨(DB.gains_withNode hfits huser hname).trans hgains, .inr ⟨⟨_, List.mem_cons_self, ?_⟩, ?_⟩⟩
      · intro hnodes
        have hlong : (s.site.world.db.withNode n).nodes = s.site.world.db.nodes := hnew ▸ hnodes
        rw [DB.nodes_withNode hfits] at hlong
        simpa using congrArg List.length hlong
      · exact fun hunnamed => hunnamed n hmem huser hname

theorem eq_of_envelopeErr {code : String} (h : envelopeErr code = some .pubKeyTaken) :
    code = "pubkey_taken" := by
  unfold envelopeErr at h
  split at h
  all_goals first | rfl | cases h

theorem code_of_pubKeyTaken {call : ApiCall} {status : Nat} {code message : String}
    (h : mapError call status code message = .pubKeyTaken) : code = "pubkey_taken" := by
  unfold mapError at h
  cases henv : envelopeErr code with
  | some err =>
    rw [henv] at h
    simp only at h
    rw [h] at henv
    exact eq_of_envelopeErr henv
  | none =>
    rw [henv] at h
    simp only at h
    split at h
    iterate 4 split_ifs at h
    cases h

theorem wire_isError (call : ApiCall) {r : Response} (herr : r.isError = true) :
    ∃ code message, (Answer.plain r).wire call = .status r.status code message ∧
      (code = "pubkey_taken" → r.saysKeyTaken) := by
  unfold Answer.wire
  simp only [herr, if_true]
  cases hbody : r.body with
  | error code message =>
    refine ⟨code, message, rfl, fun hcode => ⟨message, ?_⟩⟩
    rw [hbody, hcode]
  | _ => exact ⟨"", "", rfl, fun hcode => absurd hcode (by decide)⟩

theorem outcome_of_isError {c : ApiClient} (call : ApiCall) {fingerprint : String} {verifies : Bool}
    (haccepts : c.accepts fingerprint verifies = true) {r : Response} (herr : r.isError = true) :
    ∃ err, c.outcome call (.presented fingerprint verifies ((Answer.plain r).wire call)) = .error err ∧
      (err = .pubKeyTaken → r.saysKeyTaken) := by
  obtain ⟨code, message, hwire, hcode⟩ := wire_isError call herr
  refine ⟨mapError call r.status code message, ?_, fun h => hcode (code_of_pubKeyTaken h)⟩
  rw [hwire]
  simp only [ApiClient.outcome, haccepts, Bool.not_true, Bool.false_eq_true, if_false]

theorem exchange_served {t : Transit} {c : ApiClient}
    (haccepts : c.accepts t.fingerprint t.verifies = true)
    (hfate : t.fate = .served) (call : ApiCall) (s : Site κ) : s.exchange h i t c call =
      (.presented t.fingerprint t.verifies (s.respond h i t call).1, (s.respond h i t call).2) := by
  simp only [Site.exchange, haccepts, hfate, Bool.not_true, Bool.false_eq_true, if_false]

section
variable {p : Provisioner} {c c' : ApiClient} {pub : String} {s s' : Installation κ}
  {tr : List (HostOp × Conditions)}

/-- The registration of a new key: the server takes the node, or it does not and the client is told
so. -/
theorem runs_registerDevice (hkey : s.site.world.db.Unkeyed pub)
    {res : Except ProvisionErr (String × Int)}
    (hrun : (registerDevice p c nodeName pub).Runs (Installation.sem h i) s tr (res, c') s')
    (hok : ∀ y ∈ tr, Succeeds y.1 y.2 = true) : s' = { s with site := s'.site } ∧
      (¬h.Takes i s.site.world.db ⟨nodeName, pub, p.platform⟩ ∧ s'.site.world.db = s.site.world.db ∧
          (∃ err, res = .error err) ∨
        h.Takes i s.site.world.db ⟨nodeName, pub, p.platform⟩ ∧ ∃ n : Node, n.userID = i.userID ∧
          n.name = trimSpace nodeName ∧ n.pubKey = pub ∧ NodeFits s.site.world.db n ∧
          s'.site.world.db = s.site.world.db.withNode n ∧ ∃ node, res = .ok node) := by
  obtain ⟨tr₁, tr₂, ⟨answer, c₁⟩, s₁, rfl, hrequest, hrest⟩ := runs_bind.mp hrun
  obtain ⟨t, haccepts, hfate, rfl, hanswer, rfl⟩ := runs_request (fun salt => ⟨_, rfl⟩) hrequest
    fun y hy => hok y (List.mem_append_left _ hy)
  rw [exchange_served haccepts hfate] at hanswer hrest
  obtain ⟨hwire, hworld⟩ := @respond_call κ _ h i t s.site (.registerNode nodeName pub p.platform)
    (.registerNode (some ⟨nodeName, pub, p.platform⟩)) rfl fun _ => Call.noConfusion
  have hhandle : handle h.toServer ⟨some i, .registerNode (some ⟨nodeName, pub, p.platform⟩)⟩ =
      registerNode h.toServer (some i) (some ⟨nodeName, pub, p.platform⟩) := rfl
  rw [hhandle] at hwire hworld
  generalize s.site.respond h i t (.registerNode nodeName pub p.platform) = reply
    at hwire hworld hanswer hrest
  obtain ⟨response, x⟩ := reply
  simp only at hwire hworld hanswer hrest
  rw [hwire] at hanswer
  rcases registerNode_cases s.site.world h.toServer i ⟨nodeName, pub, p.platform⟩ with
    ⟨r, herr, hsays, hrefused, hnot⟩ | ⟨n, huser, hname, hpub, htakes, hfits, hreply, hdb⟩
  · rw [hrefused] at hanswer hworld
    obtain ⟨err, houtcome, hcode⟩ := outcome_of_isError
      (.registerNode nodeName pub p.platform) haccepts herr
    rw [houtcome] at hanswer
    subst hanswer
    -- the key pair is new, so the branch that asks for the device of that key is not taken
    have hfresh : err ≠ .pubKeyTaken := fun htaken => hsays (hcode htaken) hkey
    have hend : tr₂ = [] ∧ (res, c') = (.error (.api err), c₁) ∧ s' = { s with site := x } := by
      cases err with
      | pubKeyTaken => exact absurd rfl hfresh
      | _ => exact hrest
    obtain ⟨-, hres, rfl⟩ := hend
    exact ⟨rfl, .inl ⟨hnot, congrArg World.db hworld, _, (Prod.mk.inj hres).1⟩⟩
  · have houtcome : c₁.outcome (.registerNode nodeName pub p.platform)
      (.presented t.fingerprint t.verifies
        (.ok (some ⟨n.id, n.name, (uint32ToAddr n.ip).text⟩))) =
          .ok ⟨n.id, n.name, (uint32ToAddr n.ip).text⟩ := by
      simp only [ApiClient.outcome, haccepts, Bool.not_true, Bool.false_eq_true, if_false]
    have hanswer : answer = .ok ⟨n.id, n.name, (uint32ToAddr n.ip).text⟩ := by
      rw [hanswer, hreply]
      exact houtcome
    subst hanswer
    obtain ⟨-, hres, rfl⟩ := hrest
    refine ⟨rfl, .inr ⟨htakes, n, huser, hname, hpub, hfits, ?_, _, (Prod.mk.inj hres).1⟩⟩
    exact (congrArg World.db hworld).trans hdb

/-- A pair that belongs together, of which the server knows nothing. -/
structure NewPair (h : Handlers κ) (publicKey : String → String) (db : DB)
    (pair : String × String) : Prop where
  pub : publicKey pair.1 = pair.2
  key : (h.parseKey pair.2).isSome = true
  unkeyed : db.Unkeyed pair.2

omit [DecidableEq κ] in
theorem NewPair.takes_iff {publicKey : String → String} {db : DB} {pair : String × String}
    (hnew : NewPair h publicKey db pair) (platform : String) :
    h.Takes i db ⟨nodeName, pair.2, platform⟩ ↔
      h.Admits i db (trimSpace nodeName) platform ∧ db.Unnamed i.userID (trimSpace nodeName) :=
  ⟨fun htakes => ⟨htakes.admits, htakes.name⟩, fun hfree => ⟨hfree.1, hfree.2, hnew.unkeyed, hnew.key⟩⟩

theorem runs_serverInfo {res : Except ApiErr ServerInfoResponse}
    (hrun : (request c .serverInfo).Runs (Installation.sem h i) s tr (res, c') s')
    (hok : ∀ y ∈ tr, Succeeds y.1 y.2 = true) :
    res = .ok ⟨h.publicKey, h.endpoint, h.network⟩ ∧ s' = s := by
  obtain ⟨t, haccepts, hfate, -, hres, rfl⟩ := runs_request (fun salt => ⟨_, rfl⟩) hrun hok
  have hrespond : s.site.respond h i t .serverInfo =
      (.ok (some ⟨h.publicKey, h.endpoint, h.network⟩), s.site) := rfl
  rw [exchange_served haccepts hfate, hrespond] at hres ⊢
  refine ⟨hres.trans ?_, rfl⟩
  simp only [ApiClient.outcome, haccepts, Bool.not_true, Bool.false_eq_true, if_false]

variable {α : Type} {a : α}

omit [DecidableEq κ] in
theorem keys_setKey_of_ne {k k' : KeyName} (hne : k ≠ k') (v : Option String) :
    (s.setKey k' v).keys k = s.keys k := Function.update_of_ne hne ..

theorem runs_setKey {k : KeyName} {v : String} {f : Bool → Cli α}
    (hrun : (perform (.setKey k v) >>= f).Runs (Installation.sem h i) s tr a s')
    (hok : ∀ y ∈ tr, Succeeds y.1 y.2 = true) :
    ∃ tr', (f true).Runs (Installation.sem h i) (s.setKey k (some v)) tr' a s' ∧
      ∀ y ∈ tr', Succeeds y.1 y.2 = true := by
  obtain ⟨e, tr, rfl, hrun⟩ := hrun
  obtain ⟨hstored, hok⟩ := List.forall_mem_cons.mp hok
  have hfails : e.fails = false := (Bool.not_eq_true' _).mp hstored
  have hset : Installation.sem h i (.setKey k v) e s = (true, s.setKey k (some v)) := by
    unfold Installation.sem
    simp only [hfails, Bool.false_eq_true, if_false]
  rw [hset] at hrun
  exact ⟨tr, hrun, hok⟩

theorem runs_saveState {r : Record} {f : Bool → Cli α}
    (hrun : (perform (.saveState r) >>= f).Runs (Installation.sem h i) s tr a s')
    (hok : ∀ y ∈ tr, Succeeds y.1 y.2 = true) :
    ∃ tr', (f true).Runs (Installation.sem h i) { s with file := some r.saved } tr' a s' ∧
      ∀ y ∈ tr', Succeeds y.1 y.2 = true := by
  obtain ⟨e, tr, rfl, hrun⟩ := hrun
  obtain ⟨hsaved, hok⟩ := List.forall_mem_cons.mp hok
  have hfails : e.fails = false := (Bool.not_eq_true' _).mp hsaved
  have hsave : Installation.sem h i (.saveState r) e s = (true, { s with file := some r.saved }) := by
    unfold Installation.sem
    simp only [hfails, Bool.false_eq_true, if_false]
  rw [hsave] at hrun
  exact ⟨tr, hrun, hok⟩

/-- An attempt with a new key in which nothing fails ends well exactly when the server takes the node. -/
theorem runs_provisionDevice {publicKey : String → String} {res : Except ProvisionErr Record}
    (hrun : (provisionDevice p c nodeName).Runs (Installation.sem h i) s tr (res, c') s')
    (hok : ∀ y ∈ tr, Succeeds y.1 y.2 = true)
    (hnew : ∀ y ∈ tr, y.1 = .generateKeyPair → NewPair h publicKey s.site.world.db y.2.keyPair) :
    ¬(h.Admits i s.site.world.db (trimSpace nodeName) p.platform ∧
        s.site.world.db.Unnamed i.userID (trimSpace nodeName)) ∧ (∃ err, res = .error err) ∨
      (h.Admits i s.site.world.db (trimSpace nodeName) p.platform ∧
        s.site.world.db.Unnamed i.userID (trimSpace nodeName)) ∧ (∃ rec, res = .ok rec) ∧
        ∃ n : Node, n.userID = i.userID ∧ n.name = trimSpace nodeName ∧ NodeFits s.site.world.db n ∧
          s'.site.world.db = s.site.world.db.withNode n ∧
          (s'.keys .deviceKey).map publicKey = some n.pubKey := by
  unfold provisionDevice at hrun
  split_ifs at hrun with hempty
  · obtain ⟨-, hres, -⟩ := hrun
    left
    refine ⟨fun hfree => hfree.1.name.1 ?_, _, (Prod.mk.inj hres).1⟩
    rw [hempty]
    rfl
  obtain ⟨e, tr, rfl, hrun⟩ := hrun
  obtain ⟨-, hok⟩ := List.forall_mem_cons.mp hok
  have hpair := hnew _ List.mem_cons_self rfl
  obtain ⟨tr, hrun, hok⟩ := runs_setKey hrun hok
  rw [if_pos rfl] at hrun
  -- the key is stored before the node is registered
  obtain ⟨tr₁, tr₂, ⟨answer, c₁⟩, s₁, rfl, hregister, hrest⟩ := runs_bind.mp hrun
  obtain ⟨hregisterOk, hok⟩ := List.forall_mem_append.mp hok
  have hregister : (registerDevice p c nodeName e.keyPair.2).Runs (Installation.sem h i)
      (s.setKey .deviceKey (some e.keyPair.1)) tr₁ (answer, c₁) s₁ := hregister
  have hunkeyed : (s.setKey .deviceKey (some e.keyPair.1)).site.world.db.Unkeyed e.keyPair.2 :=
    hpair.unkeyed
  obtain ⟨hs₁, hregistered⟩ := runs_registerDevice hunkeyed hregister hregisterOk
  have hkeys : s₁.keys .deviceKey = some e.keyPair.1 := by
    rw [hs₁]
    exact Function.update_self KeyName.deviceKey (some e.keyPair.1) s.keys
  have htakes : h.Takes i s.site.world.db ⟨nodeName, e.keyPair.2, p.platform⟩ ↔ _ :=
    hpair.takes_iff p.platform
  rcases hregistered with ⟨hnot, -, err, rfl⟩ |
    ⟨hfree, n, huser, hname, hpub, hfits, hdb, ⟨ip, nodeID⟩, rfl⟩
  · obtain ⟨-, hres, -⟩ := hrest
    exact .inl ⟨fun hfree => hnot (htakes.mpr hfree), err, (Prod.mk.inj hres).1⟩
  · obtain ⟨tr₃, tr₄, ⟨info, c₂⟩, s₂, rfl, hinfo, hsave⟩ := runs_bind.mp hrest
    obtain ⟨hinfoOk, hok⟩ := List.forall_mem_append.mp hok
    obtain ⟨rfl, rfl⟩ := runs_serverInfo hinfo hinfoOk
    obtain ⟨tr, hcache, hok⟩ := runs_saveState hsave hok
    rw [if_pos rfl] at hcache
    obtain ⟨tr, hcache', hok⟩ := runs_setKey hcache hok
    rw [if_pos rfl] at hcache'
    obtain ⟨tr, hend, -⟩ := runs_setKey hcache' hok
    obtain ⟨-, hres, rfl⟩ := hend
    refine .inr ⟨htakes.mp hfree, ⟨_, (Prod.mk.inj hres).1⟩, n, huser, hname, hfits, hdb, ?_⟩
    rw [keys_setKey_of_ne KeyName.noConfusion, keys_setKey_of_ne KeyName.noConfusion]
    show (s₂.keys .deviceKey).map publicKey = _
    rw [hkeys]
    exact congrArg some (hpair.pub.trans hpub.symm)

/-- Attempts one after the other, each with its settings and its client. -/
def onboardings (nodeName : String) (attempts : List (Provisioner × ApiClient)) : Cli Unit :=
  forEach (fun a => provisionDevice a.1 a.2 nodeName >>= fun _ => .pure ()) attempts

theorem only_onboardings (attempts : List (Provisioner × ApiClient)) :
    (onboardings nodeName attempts).Only (Onboards nodeName) := by
  apply only_forEach
  intro a
  apply only_provisionDevice.bind
  exact fun _ => trivial

/-- The attempt has succeeded, the account has one node of the name, and the private key that is
stored is the one of that node. -/
structure Onboarded (i : Identity) (publicKey : String → String) (nodeName : String)
    (res : Except ProvisionErr Record) (s : Installation κ) : Prop where
  succeeded : ∃ rec, res = .ok rec
  single : ∃ n, s.site.world.db.nodes.filter (fun n => n.userID = i.userID ∧ n.name = nodeName) = [n] ∧
    (s.keys .deviceKey).map publicKey = some n.pubKey

theorem DB.filter_unnamed {db : DB} (hnone : db.Unnamed i.userID nodeName) :
    db.nodes.filter (fun n => n.userID = i.userID ∧ n.name = nodeName) = [] := by
  apply List.filter_eq_nil_iff.mpr
  intro n hn hboth
  obtain ⟨huser, hname⟩ := of_decide_eq_true hboth
  exact hnone n hn huser hname

/-- After attempts that may have failed anywhere, one in which nothing fails onboards the device if
none of them has registered it, and the server has room for it under that name; and only then. -/
theorem onboard_retry_iff {publicKey : String → String} {attempts : List (Provisioner × ApiClient)}
    {s₀ s₁ : Installation κ} {tr₀ : List (HostOp × Conditions)}
    (hnone : s₀.site.world.db.Unnamed i.userID nodeName)
    (hattempts : (onboardings nodeName attempts).Runs (Installation.sem h i) s₀ tr₀ () s₁)
    {res : Except ProvisionErr Record}
    (hrun : (provisionDevice p c nodeName).Runs (Installation.sem h i) s₁ tr (res, c') s')
    (hok : ∀ y ∈ tr, Succeeds y.1 y.2 = true)
    (hnew : ∀ y ∈ tr, y.1 = .generateKeyPair → NewPair h publicKey s₁.site.world.db y.2.keyPair) :
    Onboarded i publicKey nodeName res s' ↔
      (∀ x ∈ steps (Installation.sem h i) s₀ tr₀, ¬RegistersNode h i x) ∧ trimSpace nodeName = nodeName ∧
        h.Admits i s₀.site.world.db nodeName p.platform := by
  -- before the last attempt the database is as at the start, or holds the name already
  obtain ⟨-, hbefore⟩ := runs_onboards (only_onboardings attempts) hattempts
  constructor
  · intro hdone
    rcases runs_provisionDevice hrun hok hnew with
      ⟨-, err, herr⟩ | ⟨⟨hadmits, hfree⟩, -, n, huser, hname, hfits, hdb, -⟩
    · obtain ⟨rec, hrec⟩ := hdone.succeeded
      cases herr.symm.trans hrec
    · rcases hbefore with ⟨hquiet, hsame⟩ | ⟨-, hnamed⟩
      · obtain ⟨m, hfilter, -⟩ := hdone.single
        have hm : m ∈ s'.site.world.db.nodes.filter fun n => n.userID = i.userID ∧
          n.name = nodeName := by
          rw [hfilter]
          exact List.mem_cons_self
        obtain ⟨hmem, hboth⟩ := List.mem_filter.mp hm
        obtain ⟨hmine, hcalled⟩ := of_decide_eq_true hboth
        rw [hdb, DB.nodes_withNode hfits, hsame] at hmem
        -- the one row of that name is the new one, and the server has trimmed its name
        have htrim : trimSpace nodeName = nodeName := by
          rcases List.mem_append.mp hmem with hold | hnow
          · exact absurd hcalled (hnone m hold hmine)
          · rw [← hname, ← List.mem_singleton.mp hnow]
            exact hcalled
        rw [htrim, hsame] at hadmits
        exact ⟨hquiet, htrim, hadmits⟩
      · exact absurd hfree hnamed
  · rintro ⟨hquiet, htrim, hadmits⟩
    have hsame : s₁.site.world.db = s₀.site.world.db := by
      rcases hbefore with ⟨-, hsame⟩ | ⟨⟨x, hx, hregisters⟩, -⟩
      · exact hsame
      · exact absurd hregisters (hquiet x hx)
    rcases runs_provisionDevice hrun hok hnew with
      ⟨hnot, -⟩ | ⟨-, hrec, n, huser, hname, hfits, hdb, hkey⟩
    · rw [htrim, hsame] at hnot
      exact absurd ⟨hadmits, hnone⟩ hnot
    · refine ⟨hrec, n, ?_, hkey⟩
      have hunnamed : s₁.site.world.db.Unnamed i.userID nodeName := hsame ▸ hnone
      rw [hdb, DB.nodes_withNode hfits, List.filter_append, DB.filter_unnamed hunnamed]
      simp [huser, hname, htrim]

end

end
def laptop : Provisioner := ⟨"https://lab", "", "linux"⟩

/-- What each private key of the example belongs to. -/
def examplePublic (priv : String) : String := "public " ++ priv

def keyed (fate : Fate) (priv : String) : Conditions :=
  { undisturbed with
    transit := { undisturbed.transit with fate := fate }
    keyPair := (priv, examplePublic priv) }

def onboardLaptop : Cli (Except ProvisionErr Record × ApiClient) :=
  provisionDevice laptop routerClient "laptop"

/-- The device after a first attempt, made against a server with one other node. -/
def afterFirst (fate : Fate) : Installation String :=
  ((onboardings "laptop" [(laptop, routerClient)]).run
    (Installation.sem labServer.bare ⟨1, "alice", true⟩)
    (keyed fate "first") (labSite (labDB []))).2

def secondAttempt (fate : Fate) : (Except ProvisionErr Record × ApiClient) × Installation String :=
  onboardLaptop.run (Installation.sem labServer.bare ⟨1, "alice", true⟩) (keyed .served "second")
    (afterFirst fate)

theorem succeeds_keyed (o : HostOp) (priv : String) : Succeeds o (keyed .served priv) = true := by
  have h := succeeds_undisturbed o
  cases o <;> exact h

theorem runs_run {ι α ε σ : Type} {ρ : ι → Type} (sem : Semantics ι ρ ε σ) (p : Prog ι ρ α)
    (e : ε) (s : σ) :
    ∃ tr, p.Runs sem s tr (p.run sem e s).1 (p.run sem e s).2 ∧ ∀ x ∈ tr, x.2 = e :=
      runs_const_iff.mpr rfl

theorem runs_afterFirst (fate : Fate) : ∃ tr, (onboardings "laptop" [(laptop, routerClient)]).Runs
    (Installation.sem labServer.bare ⟨1, "alice", true⟩) (labSite (labDB [])) tr ()
      (afterFirst fate) := by
  obtain ⟨tr, hruns, -⟩ := runs_run (Installation.sem labServer.bare ⟨1, "alice", true⟩)
    (onboardings "laptop" [(laptop, routerClient)]) (keyed fate "first") (labSite (labDB []))
  exact ⟨tr, hruns⟩

theorem runs_secondAttempt {fate : Fate} {res : Except ProvisionErr Record} {c : ApiClient}
    {s : Installation String} (hsecond : secondAttempt fate = ((res, c), s)) : ∃ tr, onboardLaptop.Runs
      (Installation.sem labServer.bare ⟨1, "alice", true⟩) (afterFirst fate) tr (res, c) s ∧
      ∀ y ∈ tr, y.2 = keyed .served "second" := runs_const_iff.mpr hsecond

theorem labAdmits : labServer.bare.Admits ⟨1, "alice", true⟩ (labDB []) "laptop" "linux" where
  name := by decide +kernel
  platform := by decide +kernel
  address := ⟨0x0A000002, 0x0A0000FE, 0x0A000003, by decide +kernel, by decide +kernel⟩
  below := fun h => absurd h (by decide)
  user := ⟨_, List.mem_cons_self, rfl⟩

theorem newPair_second {db : DB} (hkeys : ∀ n ∈ db.nodes, n.pubKey ≠ examplePublic "second") :
    NewPair labServer.bare examplePublic db (keyed .served "second").keyPair := ⟨rfl, rfl, hkeys⟩

/-- The registration of the first attempt does not reach the server. -/
theorem onboard_retry_iff_lost : Onboarded ⟨1, "alice", true⟩ examplePublic "laptop"
    (secondAttempt .lost).1.1 (secondAttempt .lost).2 := by
  obtain ⟨tr₀, hfirst⟩ := runs_afterFirst .lost
  have hfree : (afterFirst .lost).site.world.db.Unnamed 1 (trimSpace "laptop") := by
    unfold DB.Unnamed
    decide +kernel
  have hkeys : ∀ n ∈ (afterFirst .lost).site.world.db.nodes, n.pubKey ≠ examplePublic "second" := by
    decide +kernel
  rcases heq : secondAttempt .lost with ⟨⟨res, c⟩, s⟩
  obtain ⟨tr, hsecond, hconst⟩ := runs_secondAttempt heq
  have hnone : (labSite (labDB [])).site.world.db.Unnamed 1 "laptop" := by
    unfold DB.Unnamed
    decide +kernel
  apply (onboard_retry_iff hnone hfirst hsecond ?_ ?_).mpr
  · rcases (runs_onboards (only_onboardings _) hfirst).2 with ⟨hquiet, -⟩ | ⟨-, hnamed⟩
    · exact ⟨hquiet, by decide +kernel, labAdmits⟩
    · exact absurd hfree hnamed
  · intro y hy
    rw [hconst y hy]
    exact succeeds_keyed y.1 "second"
  · intro y hy _
    rw [hconst y hy]
    exact newPair_second hkeys

/-- The first attempt registers the device and its reply is lost: the next one, with its own key, is
told that the name is taken. -/
theorem onboard_retry_refused : ∃ (tr₀ tr : List (HostOp × Conditions)) (s₁ s₂ : Installation String)
    (c : ApiClient), (labSite (labDB [])).site.world.db.Unnamed 1 "laptop" ∧
    (onboardings "laptop" [(laptop, routerClient)]).Runs
      (Installation.sem labServer.bare ⟨1, "alice", true⟩)
      (labSite (labDB [])) tr₀ () s₁ ∧
    onboardLaptop.Runs (Installation.sem labServer.bare ⟨1, "alice", true⟩) s₁ tr
      (.error (.api .nodeNameTaken), c) s₂ ∧
    (∀ y ∈ tr, Succeeds y.1 y.2 = true) ∧
    (∀ y ∈ tr, NewPair labServer.bare examplePublic s₁.site.world.db y.2.keyPair) ∧
    ¬Onboarded ⟨1, "alice", true⟩ examplePublic "laptop" (.error (.api .nodeNameTaken)) s₂ := by
  obtain ⟨tr₀, hfirst⟩ := runs_afterFirst .unanswered
  have hnone : (labSite (labDB [])).site.world.db.Unnamed 1 "laptop" := by
    unfold DB.Unnamed
    decide +kernel
  have hkeys : ∀ n ∈ (afterFirst .unanswered).site.world.db.nodes,
    n.pubKey ≠ examplePublic "second" := by
    decide +kernel
  have hrefused : (secondAttempt .unanswered).1.1 = .error (.api .nodeNameTaken) := by decide +kernel
  rcases heq : secondAttempt .unanswered with ⟨⟨res, c⟩, s⟩
  obtain ⟨tr, hsecond, hconst⟩ := runs_secondAttempt heq
  rw [heq] at hrefused
  obtain rfl : res = .error (.api .nodeNameTaken) := hrefused
  refine ⟨tr₀, tr, _, s, c, hnone, hfirst, hsecond, ?_, ?_, ?_⟩
  · intro y hy
    rw [hconst y hy]
    exact succeeds_keyed y.1 "second"
  · intro y hy
    rw [hconst y hy]
    exact newPair_second hkeys
  · intro hdone
    obtain ⟨rec, hrec⟩ := hdone.succeeded
    cases hrec

end LanWeave

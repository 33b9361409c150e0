import LanWeave.Server.Endpoints
import LanWeave.Server.Outcome
import LanWeave.Server.Rebuild

/-! What is left of a user that has been deleted while its access token still verifies: every
request comes to nothing, except where the handler asks the administrator claim alone. -/

namespace LanWeave
open Library Prog

namespace DB

/-- No such user; with the foreign keys, nothing of it either. -/
def Gone (db : DB) (userID : Int) : Prop := ∀ u ∈ db.users, u.id ≠ userID

variable {db : DB} {userID : Int}

section
variable (hw : db.Wf) (hg : db.Gone userID)
include hw hg

theorem Gone.node : ∀ n ∈ db.nodes, n.userID ≠ userID := by
  intro n hn heq
  obtain ⟨u, hu, hid⟩ := hw.node_user n hn
  exact hg u hu (hid.trans heq)

theorem Gone.zone : ∀ z ∈ db.zones, z.ownerID ≠ userID := by
  intro z hz heq
  obtain ⟨u, hu, hid⟩ := hw.zone_owner z hz
  exact hg u hu (hid.trans heq)

theorem Gone.getOwned (nodeID : Int) : db.getOwned userID nodeID = .error .nodeNotFound := by
  cases hr : db.getOwned userID nodeID with
  | error e =>
    rw [DB.getOwned] at hr
    split at hr <;> cases hr
    rfl
  | ok n =>
    obtain ⟨hn, -, huser⟩ := getOwned_ok hr
    exact absurd huser (hg.node hw n hn)

theorem Gone.isParticipant (zoneID : Int) : db.isParticipant zoneID userID = .ok false := by
  have hnotOwner : (db.zones.any fun z => z.id = zoneID ∧ z.ownerID = userID) = false := by
    simp only [List.any_eq_false, decide_eq_true_eq, not_and]
    exact fun z hz _ => hg.zone hw z hz
  rw [DB.isParticipant, hnotOwner]
  simp only [Bool.false_or, Except.ok.injEq, List.any_eq_false, decide_eq_true_eq, not_and,
    List.any_eq_true, not_exists]
  exact fun m _ _ n hn _ => hg.node hw n hn

theorem Gone.listByUser : db.listByUser userID = [] := by
  have hnone : db.nodes.filter (·.userID = userID) = [] := by
    simpa [List.filter_eq_nil_iff] using hg.node hw
  rw [DB.listByUser, hnone, List.reverse_nil]

theorem Gone.listForUser : db.listForUser userID = [] := by
  have hnone : db.zones.filter (db.participates userID) = [] := by
    rw [List.filter_eq_nil_iff]
    intro z hz
    simp only [DB.participates, Bool.or_eq_true, decide_eq_true_eq, List.any_eq_true, not_or,
      not_exists, not_and]
    exact ⟨hg.zone hw z hz, fun m _ _ n hn _ => hg.node hw n hn⟩
  rw [DB.listForUser, hnone]
  rfl

end

theorem Gone.insertNode (hg : db.Gone userID) (name pubKey platform : String) (ip : BitVec 32)
    (maxDevices : Int) : (db.insertNode userID name pubKey platform ip maxDevices).2 = db ∧
      ∀ id, (db.insertNode userID name pubKey platform ip maxDevices).1 ≠ .ok (some id) := by
  rcases @insertNode_cases db userID name pubKey platform ip maxDevices with h | ⟨-, ⟨u, hu, hid⟩, -⟩
  · exact h
  · exact absurd hid (hg u hu)

theorem Gone.insertZone (hg : db.Gone userID) (name hash : String) (maxOwnedZones : Int) :
    (db.insertZone userID name hash maxOwnedZones).2 = db ∧
      ∀ id, (db.insertZone userID name hash maxOwnedZones).1 ≠ .ok (some id) := by
  rcases @insertZone_cases db userID name hash maxOwnedZones with h | ⟨-, ⟨u, hu, hid⟩, -⟩
  · exact h
  · exact absurd hid (hg u hu)

theorem deleteCascade_users {targetID : Int} {r : DeletionResult}
    (h : (db.deleteCascade targetID).1 = .ok r) :
    (∃ u ∈ db.users, u.id = targetID) ∧ ∀ u ∈ (db.deleteCascade targetID).2.users, u.id ≠ targetID := by
  unfold deleteCascade at h ⊢
  cases hfind : db.users.find? (·.id = targetID) with
  | none =>
    rw [hfind] at h
    cases h
  | some u =>
    have hu := List.mem_of_find?_eq_some hfind
    have hid : u.id = targetID := by simpa using List.find?_some hfind
    rw [hfind] at h
    simp only at h ⊢
    split_ifs at h ⊢
    exact ⟨⟨u, hu, hid⟩, fun u' hu' => by simpa using (List.mem_filter.mp hu').2⟩

end DB

/-- The texts a deleted user can be answered; none of them is taken from a row. -/
def fixedAnswers : List Response :=
  [serverError, noContent, notFound "Not found.", notFound "Node not found.", notFound "User not found.",
    validationError "Invalid request body.", validationError "Node name must be 1-64 characters.",
    validationError "Invalid WireGuard public key.",
    validationError "Platform must be 1-32 lowercase letters, digits or dashes.",
    validationError "Zone name must be 1-64 characters.",
    validationError "Zone password must be at least 8 characters.",
    validationError "node_id and password are required.", zoneOrPassword,
    createNodeError .nodeNameTaken, createNodeError .pubKeyTaken, createNodeError .deviceLimitReached,
    createNodeError .poolExhausted, createZoneError .zoneNameTaken,
    createZoneError .ownedZoneLimitReached, deleteCascadeError .lastAdmin,
    writeJSONError 403 "forbidden" "Only the zone owner may perform this operation.",
    writeJSONError 403 "forbidden" "Administrator privileges required.",
    writeJSONError 403 "cannot_delete_self" "You cannot delete your own account."]

/-- No row's data: a fixed text, an empty list, the configuration or the token's own claims. -/
def Answer.Rowless (i : Identity) : Answer → Prop
  | .plain r => r ∈ fixedAnswers
  | .me userID username isAdmin => userID = i.userID ∧ username = i.username ∧ isAdmin = i.isAdmin
  | .serverInfo .. => True
  | .nodes items => items = []
  | .zones items => items = []
  | .members items => items = []
  | .announcements items => items = []
  | .invite .. => False
  | .invites items => items = []

theorem createNodeError_fixed (e : StoreErr) : createNodeError e ∈ fixedAnswers := by
  cases e <;> simp [createNodeError, fixedAnswers]

theorem createZoneError_fixed (e : StoreErr) : createZoneError e ∈ fixedAnswers := by
  cases e <;> simp [createZoneError, fixedAnswers]

theorem deleteCascadeError_fixed (e : StoreErr) : deleteCascadeError e ∈ fixedAnswers := by
  cases e <;> simp [deleteCascadeError, fixedAnswers]

section
variable {κ : Type} [DecidableEq κ] {parseKey : String → Option κ} {w : World κ}
  {R : Response → Prop}

theorem idle_store {α : Type} {R : α → Prop} {o : StoreOp} {k : Except StoreErr o.Val → Handler α}
    (hstay : (o.exec w.db).2 = w.db) (hfail : (k (.error .driver)).Idle (sem parseKey) w R)
    (hok : (k (o.exec w.db).1).Idle (sem parseKey) w R) :
    (store o >>= k).Idle (sem parseKey) w R := by
  intro fails
  cases fails with
  | true => exact ⟨rfl, hfail⟩
  | false =>
    refine ⟨?_, hok⟩
    rw [sem_store, hstay]

theorem idle_namedZone {name : String} {absent : Response} {k : Zone → Handler Response}
    (herr : R serverError) (habsent : R absent)
    (hk : ∀ zone ∈ w.db.zones, (k zone).Idle (sem parseKey) w R) :
    (namedZone name absent k).Idle (sem parseKey) w R := by
  refine idle_store rfl herr ?_
  simp only [StoreOp.exec]
  cases hr : w.db.getByName name with
  | error e => exact herr
  | ok r =>
    cases r with
    | none => exact habsent
    | some zone => exact hk zone (DB.getByName_ok hr).1

variable (hw : w.db.Wf) {userID : Int} (hg : w.db.Gone userID)
include hw hg

theorem idle_ownedNode {nodeID : Int} {message : String} {k : Node → Handler Response}
    (herr : R serverError) (hno : R (notFound message)) :
    (ownedNode userID nodeID message k).Idle (sem parseKey) w R := by
  refine idle_store rfl herr ?_
  simp only [StoreOp.exec, hg.getOwned hw]
  exact hno

theorem idle_ownedZone {name : String} {k : Zone → Handler Response} (herr : R serverError)
    (habsent : R (notFound "Not found."))
    (hno : R (writeJSONError 403 "forbidden" "Only the zone owner may perform this operation.")) :
    (ownedZone name userID k).Idle (sem parseKey) w R := by
  refine idle_namedZone herr habsent fun zone hzone => ?_
  rw [if_pos (hg.zone hw zone hzone)]
  exact hno

theorem idle_memberZone {name : String} {k : Zone → Handler Response} (herr : R serverError)
    (habsent : R (notFound "Not found.")) : (memberZone name userID k).Idle (sem parseKey) w R := by
  refine idle_namedZone herr habsent fun zone hzone => idle_store rfl herr ?_
  simp only [StoreOp.exec, hg.isParticipant hw]
  exact habsent

omit hw in
theorem idle_createNode (name pubKey platform : String) (first last : BitVec 32) (maxDevices : Int)
    (retries : Nat) : (createNode userID name pubKey platform first last maxDevices retries).Idle
      (sem parseKey) w fun r => ∃ e, r = .error e := by
  induction retries with
  | zero => exact ⟨_, rfl⟩
  | succ retries ih =>
    refine idle_store rfl ⟨_, rfl⟩ ?_
    simp only [StoreOp.exec]
    rcases w.db.lowestFree first last with e | _ | ip
    · exact ⟨_, rfl⟩
    · exact ⟨_, rfl⟩
    obtain ⟨hstay, hno⟩ := hg.insertNode name pubKey platform ip maxDevices
    refine idle_store hstay ⟨_, rfl⟩ ?_
    simp only [StoreOp.exec]
    cases hr : (w.db.insertNode userID name pubKey platform ip maxDevices).1 with
    | error e =>
      simp only
      split_ifs
      · exact ih
      all_goals exact ⟨_, rfl⟩
    | ok inserted =>
      cases inserted with
      | none => exact ⟨_, rfl⟩
      | some id => exact absurd hr (hno id)

omit hw in
theorem idle_createZoneRow (name hash : String) (maxOwnedZones : Int) :
    (createZoneRow userID name hash maxOwnedZones).Idle (sem parseKey) w fun r => ∃ e, r = .error e := by
  obtain ⟨hstay, hno⟩ := hg.insertZone name hash maxOwnedZones
  refine idle_store hstay ⟨_, rfl⟩ ?_
  simp only [StoreOp.exec]
  cases hr : (w.db.insertZone userID name hash maxOwnedZones).1 with
  | error e => exact ⟨_, rfl⟩
  | ok inserted =>
    cases inserted with
    | none => exact ⟨_, rfl⟩
    | some id => exact absurd hr (hno id)

/-- Nothing a deleted user asks for gets as far as changing anything. -/
theorem idle_handle (h : Server κ) {i : Identity} (hi : i.userID = userID) (c : Call)
    (hc : ∀ path, c ≠ .deleteUser path) :
    (handle h ⟨some i, c⟩).Idle (sem parseKey) w (· ∈ fixedAnswers) := by
  subst hi
  have herr : serverError ∈ fixedAnswers := by simp [fixedAnswers]
  have habsent : notFound "Not found." ∈ fixedAnswers := by simp [fixedAnswers]
  have hno : notFound "Node not found." ∈ fixedAnswers := by simp [fixedAnswers]
  have hinvalid : validationError "Invalid request body." ∈ fixedAnswers := by simp [fixedAnswers]
  have howner : writeJSONError 403 "forbidden" "Only the zone owner may perform this operation." ∈
      fixedAnswers := by simp [fixedAnswers]
  -- the first statement that looks for something of the user finds nothing: a node, a zone, or the
  -- row of the user
  cases c with
  | registerNode body =>
    cases body with
    | none => exact hinvalid
    | some req =>
      simp only [handle, registerNode, authenticated, decoded]
      generalize (if req.platform = "" then "unknown" else req.platform) = platform
      split_ifs
      iterate 3 simp [fixedAnswers, Idle]
      cases poolRange h.network with
      | none => exact herr
      | some range =>
        refine Idle.bind ((idle_createNode hg _ _ _ _ _ _ _).mono fun r hr => ?_)
        obtain ⟨e, rfl⟩ := hr
        exact createNodeError_fixed e
  | deleteNode path =>
    simp only [handle, deleteNode, authenticated, pathID]
    cases parseInt64 path with
    | none => exact hno
    | some nodeID => exact idle_ownedNode hw hg herr hno
  | createZone body salt =>
    cases body with
    | none => exact hinvalid
    | some req =>
      simp only [handle, createZone, authenticated, decoded]
      split_ifs
      iterate 2 simp [fixedAnswers, Idle]
      unfold autoJoinNode
      split_ifs
      · cases salt with
        | none => exact herr
        | some salt =>
          refine Idle.bind ((idle_createZoneRow hg _ _ _).mono fun r hr => ?_)
          obtain ⟨e, rfl⟩ := hr
          exact createZoneError_fixed e
      · exact idle_ownedNode hw hg herr hno
  | joinZone name body =>
    cases body with
    | none => exact hinvalid
    | some req =>
      simp only [handle, joinZone, authenticated, decoded]
      split_ifs
      · simp [fixedAnswers, Idle]
      · refine idle_namedZone herr (by simp [fixedAnswers]) fun zone _ => ?_
        split_ifs
        · simp [fixedAnswers, Idle]
        · exact idle_ownedNode hw hg herr hno
  | leaveZone name body =>
    cases body with
    | none => exact hinvalid
    | some req => exact idle_namedZone herr habsent fun zone _ => idle_ownedNode hw hg herr habsent
  | kickMember name path => exact idle_ownedZone hw hg herr habsent howner
  | deleteZone name => exact idle_ownedZone hw hg herr habsent howner
  | createAnnouncement name body => exact idle_memberZone hw hg herr habsent
  | deleteAnnouncement name path => exact idle_memberZone hw hg herr habsent
  | deleteUser path => exact absurd rfl (hc path)

end
section
variable {κ : Type} [DecidableEq κ] {parseKey : String → Option κ} {s : Site κ} {i : Identity}
  {R : Answer → Prop}

theorem deletedUser_of_same {w : World κ} {o : Op} {fails : Bool}
    (hstay : (sem parseKey o fails w).2 = w) :
    o.deletedUser (sem parseKey o fails w).1 = none := by
  cases o with
  | netfw o => rfl
  | wg o => rfl
  | store o =>
    cases o with
    | deleteCascade targetID =>
      cases fails with
      | true => rfl
      | false =>
        rw [sem_store] at hstay ⊢
        simp only [StoreOp.exec] at hstay ⊢
        cases hr : (w.db.deleteCascade targetID).1 with
        | error e => rfl
        | ok r =>
          obtain ⟨⟨u, hu, hid⟩, hgone⟩ := DB.deleteCascade_users hr
          have hsame : (w.db.deleteCascade targetID).2 = w.db := congrArg World.db hstay
          rw [hsame] at hgone
          exact absurd hid (hgone u hu)
    | _ => rfl

theorem idle_plain {p : Handler Response} {R : Response → Prop}
    (hp : p.Idle (sem parseKey) s.world R) :
    (plain p).Idle (siteSem parseKey) s fun a => ∃ r, a = .plain r ∧ R r := by
  refine Idle.bind (Idle.mono (Idle.lift Site.world (fun o fails => ⟨rfl, fun hstay => ?_⟩) hp)
    fun r hr => ⟨r, rfl, hr⟩)
  simp only [siteSem, hstay, deletedUser_of_same hstay]

theorem idle_foreign_namedZone {name : String} {k : Zone → Service Answer}
    (herr : R (.plain serverError)) (habsent : R (.plain (notFound "Not found.")))
    (hk : ∀ zone ∈ s.world.db.zones, (k zone).Idle (siteSem parseKey) s R) :
    (Service.namedZone name k).Idle (siteSem parseKey) s R := by
  intro fails
  cases fails with
  | true => exact ⟨rfl, herr⟩
  | false =>
    refine ⟨rfl, ?_⟩
    simp only [siteSem_getByName]
    cases hr : s.world.db.getByName name with
    | error e => exact herr
    | ok r =>
      cases r with
      | none => exact habsent
      | some zone => exact hk zone (DB.getByName_ok hr).1

variable (hw : s.world.db.Wf) (hg : s.world.db.Gone i.userID)
include hw hg

theorem idle_gone_ownedZone {name : String} {k : Zone → Service Answer} :
    (Service.ownedZone name i.userID k).Idle (siteSem parseKey) s (Answer.Rowless i) := by
  refine idle_foreign_namedZone (by simp [Answer.Rowless, fixedAnswers])
    (by simp [Answer.Rowless, fixedAnswers]) fun zone hzone => ?_
  rw [if_pos (hg.zone hw zone hzone)]
  simp [Service.error, Idle, Answer.Rowless, fixedAnswers]

theorem idle_gone_memberZone {name : String} {k : Zone → Service Answer} :
    (Service.memberZone name i.userID k).Idle (siteSem parseKey) s (Answer.Rowless i) := by
  have herr : Answer.Rowless i (.plain serverError) := by simp [Answer.Rowless, fixedAnswers]
  have habsent : Answer.Rowless i (.plain (notFound "Not found.")) := by
    simp [Answer.Rowless, fixedAnswers]
  refine idle_foreign_namedZone herr habsent fun zone hzone fails => ⟨?_, ?_⟩
  · cases fails <;> rfl
  · cases fails with
    | true => exact herr
    | false =>
      simp only [siteSem_isParticipant, hg.isParticipant hw]
      exact habsent

omit hw in
/-- The foreign key of an invite fails for a creator that is gone. -/
theorem idle_createInviteRow (now ttl : Int) (draw : ℕ → Option String) (attempts : ℕ) :
    (createInviteRow i.userID now ttl draw attempts).Idle (siteSem parseKey) s
      fun r => ∃ e, r = .error e := by
  induction attempts with
  | zero => exact ⟨_, rfl⟩
  | succ attempts ih =>
    rw [createInviteRow]
    cases draw attempts with
    | none => exact ⟨_, rfl⟩
    | some code =>
      have hno : s.world.db.hasUser i.userID = false := by
        rw [DB.hasUser, List.any_eq_false]
        intro u hu
        simpa using hg u hu
      have hrun : siteSem parseKey (.insertInvite i.userID code now ttl) false s =
          (.error (.unique ["invites.code"]), s) ∨
          siteSem parseKey (.insertInvite i.userID code now ttl) false s = (.error .driver, s) := by
        simp only [siteSem, Site.registry, Registry.insertInvite, hno]
        by_cases htaken : (s.invites.rows.any fun inv => decide (inv.code = code)) = true
        · rw [if_pos htaken]
          exact .inl rfl
        · rw [if_neg htaken]
          exact .inr rfl
      intro fails
      cases fails with
      | true => exact ⟨rfl, _, rfl⟩
      | false =>
        rcases hrun with h | h
        · simp only [h]
          exact ⟨trivial, ih⟩
        · simp only [h]
          exact ⟨trivial, _, rfl⟩

end

/-- The two requests for which the administrator claim is all that is asked. -/
def Endpoint.isListInvites : Endpoint → Bool
  | .listInvites => true
  | _ => false

def Endpoint.isDeleteUser : Endpoint → Bool
  | .call (.deleteUser _) => true
  | _ => false

theorem returns_deleteUser (i : Identity) (path : String) :
    (deleteUser (some i) path).Returns (· ∈ fixedAnswers) := by
  simp only [deleteUser, authenticated, pathID]
  cases parseInt64 path with
  | none => simp [Returns, fixedAnswers]
  | some targetID =>
    simp only
    split_ifs
    · simp [Returns, fixedAnswers]
    · intro r
      cases r with
      | error e => exact deleteCascadeError_fixed e
      | ok result =>
        have hdone : noContent ∈ fixedAnswers := by simp [fixedAnswers]
        show Returns _ (forEach _ result.nodePubKeys >>= _)
        iterate 5 refine Returns.bind (returns_of_forall fun _ => ?_)
        exact hdone

section
variable {κ : Type} [DecidableEq κ] {h : Handlers κ} {s : Site κ} {i : Identity}

theorem rowless_serverError : Answer.Rowless i (.plain serverError) := by
  simp [Answer.Rowless, fixedAnswers]

theorem idle_admin {k : Service Answer}
    (hk : i.isAdmin = true → k.Idle (siteSem h.parseKey) s (Answer.Rowless i)) :
    (Service.admin i k).Idle (siteSem h.parseKey) s (Answer.Rowless i) := by
  cases hi : i.isAdmin with
  | true => simpa [Service.admin, hi] using hk hi
  | false => simp [Service.admin, hi, Service.error, Idle, Answer.Rowless, fixedAnswers]

theorem idle_answer_call (hw : s.world.db.Wf) (hg : s.world.db.Gone i.userID) {c : Call}
    (hne : ∀ path, c ≠ .deleteUser path) :
    (answer h (some i) (.call c)).Idle (siteSem h.parseKey) s (Answer.Rowless i) := by
  have hplain : answer h (some i) (.call c) = plain (handle h.toServer ⟨some i, c⟩) := by
    cases c with
    | deleteUser path => exact absurd rfl (hne path)
    | _ => rfl
  rw [hplain]
  refine (idle_plain (idle_handle hw hg h.toServer rfl c hne)).mono fun a ha => ?_
  obtain ⟨r, rfl, hr⟩ := ha
  exact hr

omit [DecidableEq κ] in
theorem returns_answer_deleteUser (hadmin : i.isAdmin = true) (path : String) :
    (answer h (some i) (.call (.deleteUser path))).Returns (Answer.Rowless i) := by
  have hserved : answer h (some i) (.call (.deleteUser path)) = plain (deleteUser (some i) path) := by
    simp [answer, Service.authed, Service.admin, hadmin]
  rw [hserved]
  exact Returns.bind (Returns.lift (returns_deleteUser i path))

theorem idle_answer_listNodes (hw : s.world.db.Wf) (hg : s.world.db.Gone i.userID) :
    (answer h (some i) .listNodes).Idle (siteSem h.parseKey) s (Answer.Rowless i) := by
  refine fun fails => ⟨rfl, ?_⟩
  cases fails with
  | true => exact rowless_serverError
  | false =>
    show Answer.Rowless i (.nodes ((s.world.db.listByUser i.userID).map _))
    rw [hg.listByUser hw]
    rfl

theorem idle_answer_listZones (hw : s.world.db.Wf) (hg : s.world.db.Gone i.userID) :
    (answer h (some i) .listZones).Idle (siteSem h.parseKey) s (Answer.Rowless i) := by
  refine fun fails => ⟨rfl, ?_⟩
  cases fails with
  | true => exact rowless_serverError
  | false => exact hg.listForUser hw

theorem idle_answer_createInvite (hg : s.world.db.Gone i.userID) (now : Int) (draw : ℕ → Option String) :
    (answer h (some i) (.createInvite now draw)).Idle (siteSem h.parseKey) s (Answer.Rowless i) := by
  refine idle_admin fun _ => Idle.bind ((idle_createInviteRow hg now h.inviteTTL draw 5).mono fun r hr => ?_)
  obtain ⟨err, rfl⟩ := hr
  exact rowless_serverError

theorem idle_listInvites : (listInvites : Service Answer).Idle (siteSem h.parseKey) s fun _ => True := by
  intro fails
  cases fails <;> exact ⟨rfl, trivial⟩

end

/-- A deleted user's request changes nothing, unless it deletes a user under the administrator
claim, and shows no row, unless it lists the invites under that claim. -/
theorem authority_ends {κ : Type} [DecidableEq κ] (h : Handlers κ) {s : Site κ} (hw : s.world.db.Wf)
    {i : Identity} (hg : s.world.db.Gone i.userID) (e : Endpoint) :
    (answer h (some i) e).Always (siteSem h.parseKey) s fun a s' =>
      (¬ (i.isAdmin = true ∧ e.isDeleteUser = true) → s' = s) ∧
      (¬ (i.isAdmin = true ∧ e.isListInvites = true) → a.Rowless i) := by
  have hidle : ∀ {p : Service Answer}, p.Idle (siteSem h.parseKey) s (Answer.Rowless i) →
      p.Always (siteSem h.parseKey) s fun a s' =>
        (¬ (i.isAdmin = true ∧ e.isDeleteUser = true) → s' = s) ∧
        (¬ (i.isAdmin = true ∧ e.isListInvites = true) → a.Rowless i) :=
    fun hp => hp.always.mono fun a s' hs' => ⟨fun _ => hs'.2, fun _ => hs'.1⟩
  cases e with
  | call c =>
    by_cases hc : ∃ path, c = .deleteUser path
    · obtain ⟨path, rfl⟩ := hc
      cases hi : i.isAdmin with
      | false => exact hi ▸ hidle (idle_admin fun hi' => absurd (hi.symm.trans hi') Bool.false_ne_true)
      | true =>
        refine (returns_answer_deleteUser hi path).always.mono fun a s' ha => ⟨?_, fun _ => ha⟩
        intro hno
        exact absurd ⟨rfl, rfl⟩ hno
    · exact hidle (idle_answer_call hw hg fun path heq => hc ⟨path, heq⟩)
  | me => exact hidle (by simp [answer, Service.authed, Idle, Answer.Rowless])
  | serverInfo => exact hidle (by simp [answer, Service.authed, Idle, Answer.Rowless])
  | listNodes => exact hidle (idle_answer_listNodes hw hg)
  | listZones => exact hidle (idle_answer_listZones hw hg)
  | zoneMembers name => exact hidle (idle_gone_memberZone hw hg)
  | listAnnouncements name => exact hidle (idle_gone_memberZone hw hg)
  | changeZonePassword name body salt => exact hidle (idle_gone_ownedZone hw hg)
  | createInvite now draw => exact hidle (idle_answer_createInvite hg now draw)
  | listInvites =>
    cases hi : i.isAdmin with
    | false => exact hi ▸ hidle (idle_admin fun hi' => absurd (hi.symm.trans hi') Bool.false_ne_true)
    | true =>
      have hserved : answer h (some i) .listInvites = listInvites := by
        simp [answer, Service.authed, Service.admin, hi]
      rw [hserved]
      exact idle_listInvites.always.mono fun a s' hs' =>
        ⟨fun _ => hs'.2, fun hno => absurd ⟨rfl, rfl⟩ hno⟩

/-- A deleted administrator's token makes no zone. -/
theorem authority_ends_lab :
    (answer labServer.bare (some ⟨2, "root", true⟩)
        (.call (.createZone (some ⟨"den", "passphrase", 0⟩) (some "salt")))).Always (siteSem some)
      ⟨rebuilt (labDB [⟨1, 1⟩]), ⟨[], 0⟩⟩ fun a s' =>
        s' = ⟨rebuilt (labDB [⟨1, 1⟩]), ⟨[], 0⟩⟩ ∧ a.Rowless ⟨2, "root", true⟩ := by
  have hgone : (labDB [⟨1, 1⟩]).Gone 2 := by simp [DB.Gone, labDB]
  refine (authority_ends labServer.bare (s := ⟨rebuilt (labDB [⟨1, 1⟩]), ⟨[], 0⟩⟩) (labDB_wf (.inr rfl))
    (i := ⟨2, "root", true⟩) hgone _).mono fun a s' hend => ⟨hend.1 ?_, hend.2 ?_⟩
  · exact fun hdeletes => Bool.false_ne_true hdeletes.2
  · exact fun hlists => Bool.false_ne_true hlists.2

/-- Two administrators, of whom the first deletes the second; the last user is an ordinary one. -/
def adminsDB : DB :=
  { labDB [] with
    users := [⟨1, "alice", "", true⟩, ⟨2, "root", "", true⟩, ⟨3, "bob", "", false⟩]
    seqUsers := 3 }

def aliceInvite : Invite := ⟨1, "code", some 1, none, none, "2025-01-01T00:00:00Z", none⟩

def rootDeleted : Site String :=
  ((answer labServer.bare (some ⟨1, "alice", true⟩) (.call (.deleteUser "2"))).run (siteSem some) false
    ⟨rebuilt adminsDB, ⟨[aliceInvite], 1⟩⟩).2

/-- The token of the deleted administrator still opens the invites and deletes accounts. -/
theorem authority_outlives_account :
    (2 ∈ adminsDB.users.map (·.id) ∧ rootDeleted.world.db.users.map (·.id) = [1, 3]) ∧
    ((answer labServer.bare (some ⟨2, "root", true⟩) .listInvites).run (siteSem some) false
      rootDeleted).1 = .invites [⟨aliceInvite, some "alice", none⟩] ∧
    ((answer labServer.bare (some ⟨2, "root", true⟩) (.call (.deleteUser "3"))).run (siteSem some) false
      rootDeleted).2.world.db.users.map (·.id) = [1] := by
  refine ⟨?_, ?_, ?_⟩
  · decide +kernel
  · rfl
  · decide +kernel

end LanWeave

import LanWeave.Server.AddressPlan

/-! The statements that requests issue, whatever their operations answer, so that the databases
under requests in any interleaving are those of the address plan. -/

namespace LanWeave
open Library

/-- A free address is one of the range asked about. -/
def Op.Sane : (o : Op) → o.Res → Prop
  | .store (.lowestFree first last), r => ∀ ip, r = .ok (some ip) → first ≤ ip ∧ ip ≤ last
  | _, _ => True

theorem DB.lowestFree_range {db : DB} {first last ip : BitVec 32}
    (h : db.lowestFree first last = .ok (some ip)) : first ≤ ip ∧ ip ≤ last := by
  unfold DB.lowestFree at h
  obtain ⟨c, hmin, rfl⟩ := Option.map_eq_some_iff.mp (Except.ok.inj h)
  obtain ⟨hmem, hfree⟩ := List.mem_filter.mp (List.min?_mem hmin)
  rw [Bool.and_eq_true, decide_eq_true_eq] at hfree
  have hlast := last.isLt
  rw [BitVec.le_def, BitVec.le_def, BitVec.toNat_ofNat, Nat.mod_eq_of_lt (by omega)]
  refine ⟨?_, hfree.2⟩
  rcases List.mem_cons.mp hmem with rfl | hmem
  · exact le_refl _
  · obtain ⟨i, hi, rfl⟩ := List.mem_map.mp hmem
    have hfirst := (List.mem_filter.mp hi).2
    rw [Bool.and_eq_true, decide_eq_true_eq] at hfirst
    omega

theorem sem_sane {κ : Type} [DecidableEq κ] (parseKey : String → Option κ) (o : Op) (fails : Bool)
    (w : World κ) : o.Sane (sem parseKey o fails w).1 := by
  cases o with
  | store o =>
    cases o with
    | lowestFree first last =>
      intro ip hip
      cases fails with
      | true => cases hip
      | false => exact DB.lowestFree_range hip
    | _ => trivial
  | _ => trivial

/-- The statements that make a row a quota counts. -/
def StoreOp.Spends : StoreOp → Bool
  | insertNode .. | insertZone .. | createAnnouncement .. => true
  | _ => false

/-- The removing statements a request performs, on whatever path it takes. -/
def Call.MayRemove : Call → StoreOp → Prop
  | .registerNode _, .deleteOwnedNode .. => True
  | .deleteNode _, .deleteOwnedNode .. => True
  | .createZone .., .deleteZone _ => True
  | .joinZone .., .leave .. => True
  | .leaveZone .., .leave .. => True
  | .leaveZone .., .detachAllForNodeZone .. => True
  | .kickMember .., .leave .. => True
  | .kickMember .., .detachAllForNodeZone .. => True
  | .deleteZone _, .detachAllForZone _ => True
  | .deleteZone _, .deleteZone _ => True
  | .createAnnouncement .., .detach .. => True
  | .deleteAnnouncement .., .detach .. => True
  | .deleteUser _, .deleteCascade _ => True
  | _, _ => False

/-- An operation that removes rows only as the request may. -/
def Call.Allows (c : Call) : Op → Prop
  | .store o => o.Removes = true → c.MayRemove o
  | _ => True

section
variable {κ : Type} (h : Server κ)

/-- What a request may ask for. A node or a zone that it adds is its user's, under the user's limit;
the node's key parses and its address is one that the pool may have answered. It announces aligned
subnets of the admitted sizes, and removes rows only as its endpoint does. -/
def Request.MayIssue (sane : (i : Op) → i.Res → Prop) (r : Request) : Op → Prop
  | .store (.insertNode userID _ pubKey _ ip maxDevices) =>
    (∃ i, r.identity = some i ∧ userID = i.userID ∧ maxDevices = i.cap h.maxDevicesPerUser) ∧
    (h.parseKey pubKey).isSome ∧ ∃ first last, poolRange h.network = some (first, last) ∧
      sane (.store (.lowestFree first last)) (.ok (some ip))
  | .store (.insertZone ownerID _ _ maxOwnedZones) =>
    ∃ i, r.identity = some i ∧ ownerID = i.userID ∧ maxOwnedZones = i.cap h.maxOwnedZonesPerUser
  | .store (.createAnnouncement userID nodeID real zoneID max pool) =>
    (∃ name body, r.call = .createAnnouncement name body) ∧
    (StoreOp.createAnnouncement userID nodeID real zoneID max pool).Issued h
  | .store o => o.Removes = true → r.call.MayRemove o
  | _ => True

abbrev Issues (sane : (i : Op) → i.Res → Prop) (r : Request) {α : Type} (p : Handler α) : Prop :=
  p.OnlyGiven sane (r.MayIssue h sane)

variable {h} {sane : (i : Op) → i.Res → Prop} {r : Request} {α : Type}

theorem mayIssue_of_removes {o : StoreOp} (hs : o.Spends = false)
    (ho : o.Removes = true → r.call.MayRemove o) : r.MayIssue h sane (.store o) := by
  cases o with
  | insertNode | insertZone | createAnnouncement => cases hs
  | _ => exact ho

theorem issues_read {o : StoreOp} {k : Except StoreErr o.Val → Handler α} (hs : o.Spends = false)
    (ho : o.Removes = false) (hk : ∀ a, Issues h sane r (k a)) : Issues h sane r (store o >>= k) :=
  ⟨mayIssue_of_removes hs fun h => absurd (ho.symm.trans h) Bool.false_ne_true, fun a _ => hk a⟩

theorem issues_removal {o : StoreOp} {k : Except StoreErr o.Val → Handler α} (hs : o.Spends = false)
    (ho : r.call.MayRemove o) (hk : ∀ a, Issues h sane r (k a)) : Issues h sane r (store o >>= k) :=
  ⟨mayIssue_of_removes hs fun _ => ho, fun a _ => hk a⟩

theorem issues_netfw {o : NetfwOp} {k : Except KernelErr Unit → Handler α}
    (hk : ∀ a, Issues h sane r (k a)) : Issues h sane r (netfw o >>= k) := ⟨trivial, fun a _ => hk a⟩

theorem issues_wg {o : WgOp} {k : Except KernelErr Unit → Handler α}
    (hk : ∀ a, Issues h sane r (k a)) : Issues h sane r (wg o >>= k) := ⟨trivial, fun a _ => hk a⟩

theorem issues_netfw_loop {β : Type} (f : β → NetfwOp) (bs : List β) :
    Issues h sane r (Prog.forEach (fun b => do let _ ← netfw (f b)) bs) := by
  apply Prog.onlyGiven_forEach
  exact fun _ => ⟨trivial, fun _ _ => trivial⟩

theorem issues_wg_loop {β : Type} (f : β → WgOp) (bs : List β) :
    Issues h sane r (Prog.forEach (fun b => do let _ ← wg (f b)) bs) := by
  apply Prog.onlyGiven_forEach
  exact fun _ => ⟨trivial, fun _ _ => trivial⟩

theorem issues_authenticated {id : Option Identity} {k : Identity → Handler Response}
    (hk : ∀ i, id = some i → Issues h sane r (k i)) : Issues h sane r (authenticated id k) := by
  cases id with
  | none => trivial
  | some i => exact hk i rfl

theorem issues_decoded {β : Type} {body : Option β} {k : β → Handler Response}
    (hk : ∀ req, Issues h sane r (k req)) : Issues h sane r (decoded body k) := by
  cases body with
  | none => trivial
  | some req => exact hk req

theorem issues_salted {salt : Option String} {k : String → Handler Response}
    (hk : ∀ s, Issues h sane r (k s)) : Issues h sane r (salted salt k) := by
  cases salt with
  | none => trivial
  | some s => exact hk s

theorem issues_pathID {value message : String} {k : Int → Handler Response}
    (hk : ∀ id, Issues h sane r (k id)) : Issues h sane r (pathID value message k) := by
  unfold pathID
  split
  · trivial
  · exact hk _

theorem issues_namedZone {name : String} {absent : Response} {k : Zone → Handler Response}
    (hk : ∀ zone, Issues h sane r (k zone)) : Issues h sane r (namedZone name absent k) := by
  refine issues_read rfl rfl ?_
  rintro (_ | _ | zone)
  · trivial
  · trivial
  · exact hk zone

theorem issues_ownedNode {userID nodeID : Int} {message : String} {k : Node → Handler Response}
    (hk : ∀ node, Issues h sane r (k node)) : Issues h sane r (ownedNode userID nodeID message k) := by
  refine issues_read rfl rfl ?_
  rintro (e | node)
  · cases e <;> trivial
  · exact hk node

theorem issues_ownedZone {name : String} {userID : Int} {k : Zone → Handler Response}
    (hk : ∀ zone, Issues h sane r (k zone)) : Issues h sane r (ownedZone name userID k) := by
  apply issues_namedZone
  intro zone
  split_ifs
  · trivial
  · exact hk zone

theorem issues_memberZone {name : String} {userID : Int} {k : Zone → Handler Response}
    (hk : ∀ zone, Issues h sane r (k zone)) : Issues h sane r (memberZone name userID k) := by
  apply issues_namedZone
  intro zone
  refine issues_read rfl rfl ?_
  rintro (_ | _ | _)
  · trivial
  · trivial
  · exact hk zone

theorem issues_recomputePeer (nodeID : Int) (pubKey : String) (ip : Addr) :
    Issues h sane r (recomputePeer nodeID pubKey ip) := by
  refine issues_read rfl rfl ?_
  rintro (_ | routes)
  · trivial
  · exact issues_wg fun _ => trivial

theorem issues_deleteOwned (hmay : ∀ userID nodeID, r.call.MayRemove (.deleteOwnedNode userID nodeID))
    (userID nodeID : Int) : Issues h sane r (deleteOwned userID nodeID) := by
  refine issues_read rfl rfl ?_
  rintro (_ | pubKey)
  · trivial
  · refine issues_removal rfl (hmay _ _) ?_
    rintro (_ | _) <;> trivial

theorem issues_createNode {i : Identity} (hi : r.identity = some i) {name pubKey platform : String}
    {first last : BitVec 32} (hkey : (h.parseKey pubKey).isSome)
    (hrange : poolRange h.network = some (first, last)) (retries : Nat) :
    Issues h sane r (createNode i.userID name pubKey platform first last
      (i.cap h.maxDevicesPerUser) retries) := by
  induction retries with
  | zero => trivial
  | succ retries ih =>
    refine ⟨mayIssue_of_removes rfl Bool.noConfusion, fun a ha => ?_⟩
    rcases a with _ | _ | ip
    · trivial
    · trivial
    refine ⟨⟨⟨i, hi, rfl, rfl⟩, hkey, first, last, hrange, ha⟩, ?_⟩
    rintro (e | _ | nodeID) -
    · show Issues h sane r (if _ then _ else _)
      split_ifs
      · exact ih
      all_goals trivial
    · trivial
    · trivial

theorem issues_rollbackAnnouncement (hmay : ∀ zoneID annID, r.call.MayRemove (.detach zoneID annID))
    (zoneID annID : Int) (node : Node) : Issues h sane r (rollbackAnnouncement zoneID annID node) := by
  refine issues_removal rfl (hmay _ _) ?_
  rintro (_ | _)
  · trivial
  · exact issues_recomputePeer _ _ _

theorem issues_growDataplane (hmay : ∀ zoneID annID, r.call.MayRemove (.detach zoneID annID))
    (zone : Zone) (node : Node) (ann : Announcement) :
    Issues h sane r (growDataplane zone node ann) := by
  have hroll : Issues h sane r (rollbackAnnouncement zone.id ann.id node >>= fun _ => Prog.pure false) :=
    (issues_rollbackAnnouncement hmay _ _ _).bind fun _ => trivial
  refine issues_read rfl rfl ?_
  rintro (_ | routes)
  · exact hroll
  refine issues_wg ?_
  rintro (_ | _)
  · exact hroll
  refine issues_netfw ?_
  rintro (_ | _)
  · exact hroll
  · trivial

theorem issued_createAnnouncement {userID nodeID zoneID limit : Int} {p pool : Prefix} {subnet : String}
    (hpool : h.announcePool = some pool) (hp : parsePrefix4 subnet = some p)
    (hvalid : validAnnouncedSubnet h p.masked = none) :
    (StoreOp.createAnnouncement userID nodeID
      (blockFromPrefix p.masked) zoneID limit pool).Issued h := by
  obtain ⟨h4, hv⟩ := parsePrefix4_v4 hp
  have hmasked : p.masked.addr.is4 = true ∧ p.masked.Valid := by
    obtain ⟨a | a, n⟩ := p
    · exact ⟨rfl, hv⟩
    · cases h4
  refine ⟨hpool, blockFromPrefix_aligned hmasked.1 hmasked.2, ?_⟩
  rw [blockFromPrefix_prefixLen]
  exact validAnnouncedSubnet_bits hvalid

theorem issues_rollbackZone (hmay : ∀ zoneID, r.call.MayRemove (.deleteZone zoneID)) (zoneID : Int) :
    Issues h sane r (rollbackZone zoneID) :=
  issues_removal rfl (hmay zoneID) fun _ => issues_netfw fun _ => trivial

theorem issues_createZoneFor (hmay : ∀ zoneID, r.call.MayRemove (.deleteZone zoneID)) {i : Identity}
    (hi : r.identity = some i) (name passwordHash : String) (member : Option Node) :
    Issues h sane r (createZoneFor h i name passwordHash member) := by
  have hroll : ∀ zoneID, Issues h sane r (rollbackZone zoneID >>= fun _ => Prog.pure serverError) :=
    fun zoneID => (issues_rollbackZone hmay zoneID).bind fun _ => trivial
  refine ⟨⟨i, hi, rfl, rfl⟩, ?_⟩
  rintro (_ | _ | zoneID) -
  · trivial
  · trivial
  refine issues_netfw ?_
  rintro (_ | _)
  · exact issues_removal rfl (hmay _) fun _ => trivial
  cases member with
  | none => trivial
  | some node =>
    refine issues_read rfl rfl ?_
    rintro (_ | _)
    · exact hroll _
    refine issues_netfw ?_
    rintro (_ | _)
    · exact hroll _
    · trivial

theorem issues_removeFromZone (hleave : ∀ zoneID nodeID, r.call.MayRemove (.leave zoneID nodeID))
    (hdetach : ∀ nodeID zoneID, r.call.MayRemove (.detachAllForNodeZone nodeID zoneID)) (zone : Zone)
    (node : Node) : Issues h sane r (removeFromZone zone node) := by
  refine issues_removal rfl (hleave _ _) ?_
  rintro (e | _)
  · cases e <;> trivial
  refine issues_netfw fun _ => Prog.OnlyGiven.bind ?_ fun _ => trivial
  refine issues_removal rfl (hdetach _ _) ?_
  rintro (_ | dets)
  · trivial
  refine (issues_netfw_loop _ _).bind fun _ => ?_
  split_ifs
  · exact issues_recomputePeer _ _ _
  · trivial

theorem issues_recomputeReclaimedPeers (dets : List ZoneDetachment) (seen : List Int) :
    Issues h sane r (recomputeReclaimedPeers dets seen) := by
  induction dets generalizing seen with
  | nil => trivial
  | cons det dets ih =>
    unfold recomputeReclaimedPeers
    split_ifs
    · exact ih _
    · refine issues_read rfl rfl ?_
      rintro (_ | node)
      · exact ih _
      · exact (issues_recomputePeer _ _ _).bind fun _ => ih _

variable {id : Option Identity}

theorem issues_registerNode (body : Option RegisterNodeRequest) :
    Issues h sane ⟨id, .registerNode body⟩ (registerNode h id body) := by
  refine issues_authenticated fun i hi => issues_decoded fun req => ?_
  dsimp only
  generalize (if req.platform = "" then "unknown" else req.platform) = platform
  generalize trimSpace req.name = name
  split_ifs with hname hkey
  iterate 3 trivial
  split
  · trivial
  next first last hrange =>
  have hsome : (h.parseKey req.wgPubKey).isSome := by
    rwa [Option.isSome_iff_ne_none, ne_eq, ← Option.isNone_iff_eq_none]
  refine (issues_createNode hi hsome hrange _).bind ?_
  rintro (_ | node)
  · trivial
  refine issues_wg ?_
  rintro (_ | _)
  · refine Prog.OnlyGiven.bind (issues_deleteOwned ?_ _ _) fun _ => trivial
    exact fun _ _ => trivial
  · trivial

theorem issues_deleteNode (path : String) :
    Issues h sane ⟨id, .deleteNode path⟩ (deleteNode id path) := by
  refine issues_authenticated fun i _ => issues_pathID fun nodeID => issues_ownedNode fun node => ?_
  refine issues_read rfl rfl ?_
  rintro (_ | zoneIDs)
  · trivial
  refine issues_read rfl rfl ?_
  rintro (_ | attachments)
  · trivial
  refine Prog.OnlyGiven.bind (issues_deleteOwned ?_ _ _) ?_
  · exact fun _ _ => trivial
  rintro (e | _)
  · cases e <;> trivial
  refine issues_wg fun _ => (issues_netfw_loop _ _).bind fun _ => ?_
  exact (issues_netfw_loop _ _).bind fun _ => trivial

theorem issues_createZone (body : Option CreateZoneRequest) (salt : Option String) :
    Issues h sane ⟨id, .createZone body salt⟩ (createZone h id body salt) := by
  refine issues_authenticated fun i hi => issues_decoded fun req => ?_
  dsimp only
  generalize trimSpace req.name = name
  split_ifs
  iterate 2 trivial
  have hmember : ∀ member : Option Node, Issues h sane ⟨id, .createZone body salt⟩ (salted salt fun s =>
      createZoneFor h i name (h.hashPassword s req.password) member) := by
    intro member
    refine issues_salted fun s => issues_createZoneFor ?_ hi _ _ _
    exact fun _ => trivial
  unfold autoJoinNode
  split_ifs
  · exact hmember none
  · exact issues_ownedNode fun node => hmember (some node)

theorem issues_joinZone (name : String) (body : Option JoinZoneRequest) :
    Issues h sane ⟨id, .joinZone name body⟩ (joinZone h id name body) := by
  refine issues_authenticated fun i _ => issues_decoded fun req => ?_
  split_ifs
  · trivial
  refine issues_namedZone fun zone => ?_
  split_ifs
  · trivial
  refine issues_ownedNode fun node => issues_read rfl rfl ?_
  rintro (_ | _)
  · trivial
  refine issues_netfw ?_
  rintro (_ | _)
  · apply issues_removal rfl
    · exact trivial
    · exact fun _ => trivial
  · trivial

theorem issues_leaveZone (name : String) (body : Option LeaveZoneRequest) :
    Issues h sane ⟨id, .leaveZone name body⟩ (leaveZone id name body) := by
  refine issues_authenticated fun i _ => issues_decoded fun req => issues_namedZone fun zone =>
    issues_ownedNode fun node => issues_removeFromZone ?_ ?_ zone node
  · exact fun _ _ => trivial
  · exact fun _ _ => trivial

theorem issues_kickMember (name path : String) :
    Issues h sane ⟨id, .kickMember name path⟩ (kickMember id name path) := by
  refine issues_authenticated fun i _ => issues_ownedZone fun zone => issues_pathID fun nodeID => ?_
  refine issues_read rfl rfl ?_
  rintro (e | node)
  · cases e <;> trivial
  · refine issues_removeFromZone ?_ ?_ zone node
    · exact fun _ _ => trivial
    · exact fun _ _ => trivial

theorem issues_deleteZone (name : String) :
    Issues h sane ⟨id, .deleteZone name⟩ (deleteZone id name) := by
  refine issues_authenticated fun i _ => issues_ownedZone fun zone => ?_
  apply issues_removal rfl
  · exact trivial
  rintro (_ | dets)
  · trivial
  apply issues_removal rfl
  · exact trivial
  rintro (_ | _)
  · trivial
  · exact issues_netfw fun _ => (issues_recomputeReclaimedPeers _ _).bind fun _ => trivial

theorem issues_createAnnouncement (name : String) (body : Option CreateAnnouncementRequest) :
    Issues h sane ⟨id, .createAnnouncement name body⟩ (createAnnouncement h id name body) := by
  refine issues_authenticated fun i _ => issues_memberZone fun zone => issues_decoded fun req => ?_
  split
  · trivial
  next pool hpool =>
  refine issues_ownedNode fun node => ?_
  split_ifs
  · trivial
  split
  · trivial
  next p hp =>
  split
  · trivial
  next hvalid =>
  refine ⟨⟨⟨name, body, rfl⟩, issued_createAnnouncement hpool hp hvalid⟩, ?_⟩
  rintro (_ | ⟨ann, attached⟩) -
  · trivial
  cases attached
  · trivial
  · have hgrow : Issues h sane ⟨id, .createAnnouncement name body⟩ (growDataplane zone node ann) := by
      apply issues_growDataplane
      exact fun _ _ => trivial
    refine hgrow.bind fun grown => ?_
    cases grown <;> trivial

theorem issues_deleteAnnouncement (name path : String) :
    Issues h sane ⟨id, .deleteAnnouncement name path⟩ (deleteAnnouncement id name path) := by
  refine issues_authenticated fun i _ => issues_memberZone fun zone => issues_pathID fun annID => ?_
  refine issues_read rfl rfl ?_
  rintro (e | ann)
  · cases e <;> trivial
  refine issues_read rfl rfl ?_
  rintro (_ | node)
  · trivial
  show Issues h sane _ (if _ then _ else _)
  split_ifs
  · trivial
  apply issues_removal rfl
  · exact trivial
  rintro (e | ⟨_, reclaimed⟩)
  · cases e <;> trivial
  refine issues_netfw fun _ => ?_
  cases reclaimed
  · trivial
  · exact (issues_recomputePeer _ _ _).bind fun _ => trivial

theorem issues_deleteUser (path : String) :
    Issues h sane ⟨id, .deleteUser path⟩ (deleteUser id path) := by
  refine issues_authenticated fun i _ => issues_pathID fun targetID => ?_
  split_ifs
  · trivial
  apply issues_removal rfl
  · exact trivial
  rintro (_ | result)
  · trivial
  refine (issues_wg_loop _ _).bind fun _ => ?_
  refine (issues_netfw_loop _ _).bind fun _ => ?_
  refine (issues_netfw_loop _ _).bind fun _ => ?_
  refine (issues_netfw_loop _ _).bind fun _ => ?_
  exact (Prog.onlyGiven_forEach (fun n => issues_recomputePeer _ _ _) _).bind fun _ => trivial

/-- What a request may ask for is the one walk through the handlers; what else is said of the
statements that requests issue follows from it. -/
theorem issues_handle (r : Request) : Issues h sane r (handle h r) := by
  obtain ⟨id, c⟩ := r
  cases c with
  | registerNode body => exact issues_registerNode body
  | deleteNode path => exact issues_deleteNode path
  | createZone body salt => exact issues_createZone body salt
  | joinZone name body => exact issues_joinZone name body
  | leaveZone name body => exact issues_leaveZone name body
  | kickMember name path => exact issues_kickMember name path
  | deleteZone name => exact issues_deleteZone name
  | createAnnouncement name body => exact issues_createAnnouncement name body
  | deleteAnnouncement name path => exact issues_deleteAnnouncement name path
  | deleteUser path => exact issues_deleteUser path

theorem Request.MayIssue.allows {i : Op} (hi : r.MayIssue h sane i) : r.call.Allows i := by
  cases i with
  | store o =>
    cases o with
    | insertNode | insertZone | createAnnouncement => exact Bool.noConfusion
    | _ => exact hi
  | netfw | wg => trivial

theorem only_of_issues {p : Handler α} (hp : Issues h (fun _ _ => True) r p) : p.Only r.call.Allows :=
  hp.only.imp fun _ => Request.MayIssue.allows

variable (h) in
theorem only_handle (r : Request) : (handle h r).Only r.call.Allows := only_of_issues (issues_handle r)

end

section
variable {κ : Type} (h : Server κ)

def Op.Issued : Op → Prop
  | .store o => o.Issued h
  | _ => True

variable {h} {r : Request}

theorem Request.MayIssue.issued {i : Op} (hi : r.MayIssue h Op.Sane i) : i.Issued h := by
  cases i with
  | store o =>
    cases o with
    | insertNode =>
      obtain ⟨-, hkey, first, last, hrange, hsane⟩ := hi
      exact ⟨hkey, first, last, hrange, hsane _ rfl⟩
    | createAnnouncement => exact hi.2
    | _ => trivial
  | netfw | wg => trivial

theorem issued_handle (r : Request) : (handle h r).OnlyGiven Op.Sane (Op.Issued h) :=
  (issues_handle r).imp fun _ => Request.MayIssue.issued

end

section
variable {κ : Type} [DecidableEq κ] {h : Server κ}

theorem sem_reachable {o : Op} (ho : o.Issued h) (fails : Bool) {w : World κ}
    (hr : w.db.Reachable h) : (sem h.parseKey o fails w).2.db.Reachable h := by
  rcases sem_db h.parseKey w o fails with hdb | ⟨o, rfl, -, hdb⟩
  · rwa [hdb]
  · rw [hdb]
    exact hr.statement o ho

/-- Requests, however they interleave and whatever fails, lead from database to database of the
plan. -/
theorem reachable_exec {τ : Type} [DecidableEq τ] (requests : τ → Request) {w : World κ}
    (hr : w.db.Reachable h) (sched : List (τ × Bool)) :
    ((⟨fun t => handle h (requests t), w⟩ : Config τ (Handler Response) (World κ)).exec
      (Prog.machine (sem h.parseKey)) sched).shared.db.Reachable h :=
  Prog.OnlyGiven.exec (I := fun w : World κ => w.db.Reachable h) (sem_sane h.parseKey)
    (fun _ ho fails _ hw => sem_reachable ho fails hw) (fun t => issued_handle (requests t)) hr sched

end
end LanWeave

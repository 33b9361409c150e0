import LanWeave.Server.Endpoints
import LanWeave.Server.Outcome
import LanWeave.Server.Rebuild

/-! A user who neither owns a zone nor has a node in it gets the same answer to every request about
it whether or not it exists. -/

namespace LanWeave
open Library Prog

namespace DB

/-- A zone of this name, if there is one, is not the user's and has none of its nodes. -/
def Foreign (db : DB) (userID : Int) (name : String) : Prop :=
  ∀ zone ∈ db.zones, zone.name = name → zone.ownerID ≠ userID ∧
    ∀ m ∈ db.zoneMembers, m.zoneID = zone.id → ∀ n ∈ db.nodes, n.id = m.nodeID → n.userID ≠ userID

/-- The id is that of the zone with this name. -/
def named (db : DB) (name : String) (zoneID : Int) : Bool :=
  db.zones.any fun z => z.name = name ∧ z.id = zoneID

/-- The announcement is attached, and to no zone but the one with this name. -/
def onlyIn (db : DB) (name : String) (a : Announcement) : Bool :=
  db.attached a.id && db.announcementZones.all fun az =>
    az.announcementID ≠ a.id || db.named name az.zoneID

/-- The databases differ at most in the zone of this name, its members and its announcements. -/
structure AgreeBut (name : String) (db db' : DB) : Prop where
  users : db.users = db'.users
  nodes : db.nodes = db'.nodes
  zones : db.zones.filter (·.name ≠ name) = db'.zones.filter (·.name ≠ name)
  zoneMembers : db.zoneMembers.filter (!db.named name ·.zoneID) =
    db'.zoneMembers.filter (!db'.named name ·.zoneID)
  announcements : db.announcements.filter (!db.onlyIn name ·) =
    db'.announcements.filter (!db'.onlyIn name ·)
  announcementZones : db.announcementZones.filter (!db.named name ·.zoneID) =
    db'.announcementZones.filter (!db'.named name ·.zoneID)

/-- Every announcement with the id is one of the zone with this name alone. -/
def Hidden (db : DB) (name : String) (annID : Int) : Prop :=
  ∀ a ∈ db.announcements, a.id = annID → db.onlyIn name a = true

variable {db db' : DB} {name : String} {userID : Int}

theorem Foreign.isParticipant (hw : db.Wf) (hf : db.Foreign userID name) {zone : Zone}
    (hzone : zone ∈ db.zones) (hname : zone.name = name) :
    db.isParticipant zone.id userID = .ok false := by
  obtain ⟨howner, hmembers⟩ := hf zone hzone hname
  have hnotOwner : (db.zones.any fun z => z.id = zone.id ∧ z.ownerID = userID) = false := by
    simp only [List.any_eq_false, decide_eq_true_eq, not_and]
    intro z hz hid
    rwa [hw.zones_asc.keyed z hz zone hzone hid]
  have hnoNode : (db.zoneMembers.any fun m => m.zoneID = zone.id ∧
      db.nodes.any fun n => n.id = m.nodeID ∧ n.userID = userID) = false := by
    simp only [List.any_eq_false, decide_eq_true_eq, not_and, List.any_eq_true, not_exists]
    intro m hm hz n hn hid
    exact hmembers m hm hz n hn hid
  rw [DB.isParticipant, hnotOwner, hnoNode]
  rfl

theorem Foreign.notMember (hf : db.Foreign userID name) {zone : Zone} (hzone : zone ∈ db.zones)
    (hname : zone.name = name) {node : Node} (hnode : node ∈ db.nodes) (huser : node.userID = userID) :
    ⟨zone.id, node.id⟩ ∉ db.zoneMembers :=
  fun hm => (hf zone hzone hname).2 _ hm rfl node hnode rfl huser

theorem AgreeBut.hidden (h : AgreeBut name db db') (hw : db.Wf) {a : Announcement}
    (ha : a ∈ db.announcements) (honly : db.onlyIn name a = true) : db'.Hidden name a.id := by
  intro b hb hid
  by_contra hseen
  have hmem : b ∈ db'.announcements.filter (!db'.onlyIn name ·) :=
    List.mem_filter.mpr ⟨hb, by simpa using hseen⟩
  rw [← h.announcements] at hmem
  obtain ⟨hb', hshown⟩ := List.mem_filter.mp hmem
  rw [hw.announcements_asc.keyed b hb' a ha hid, honly] at hshown
  cases hshown

theorem AgreeBut.symm (h : AgreeBut name db db') : AgreeBut name db' db :=
  ⟨h.users.symm, h.nodes.symm, h.zones.symm, h.zoneMembers.symm, h.announcements.symm,
    h.announcementZones.symm⟩

theorem hidden_of_onlyIn (hw : db.Wf) {a : Announcement} (ha : a ∈ db.announcements)
    (honly : db.onlyIn name a = true) : db.Hidden name a.id := by
  intro b hb hid
  rwa [hw.announcements_asc.keyed b hb a ha hid]

theorem Hidden.notAttached {annID : Int} (hw : db.Wf) (hh : db.Hidden name annID) {a : Announcement}
    (ha : a ∈ db.announcements) (hid : a.id = annID) {zone : Zone} (hzone : zone ∈ db.zones)
    (hname : zone.name ≠ name) : ⟨annID, zone.id⟩ ∉ db.announcementZones := by
  intro hatt
  have honly := hh a ha hid
  simp only [onlyIn, Bool.and_eq_true, List.all_eq_true, Bool.or_eq_true, decide_eq_true_eq] at honly
  rcases honly.2 _ hatt with hne | hnamed
  · exact hne hid.symm
  · simp only [named, List.any_eq_true, decide_eq_true_eq] at hnamed
    obtain ⟨z, hz, hzname, hzid⟩ := hnamed
    rw [hw.zones_asc.keyed z hz zone hzone hzid] at hzname
    exact hname hzname

end DB

theorem DB.mem_of_find_name {db : DB} {name : String} {zone : Zone}
    (h : db.zones.find? (·.name = name) = some zone) : zone ∈ db.zones ∧ zone.name = name :=
  ⟨List.mem_of_find?_eq_some h, by simpa using List.find?_some h⟩

section
variable {κ : Type} [DecidableEq κ] {parseKey : String → Option κ} {w : World κ} {name : String}
  {userID : Int}

/-- A zone that is absent is answered `absent`; so is every zone, if each existing one is. -/
theorem run_namedZone {absent : Response} {k : Zone → Handler Response}
    (hk : ∀ zone ∈ w.db.zones, zone.name = name → ((k zone).run (sem parseKey) false w).1 = absent) :
    ((namedZone name absent k).run (sem parseKey) false w).1 = absent := by
  rw [namedZone, run_store]
  simp only [StoreOp.exec, DB.getByName]
  cases hfind : w.db.zones.find? (·.name = name) with
  | none => rfl
  | some zone =>
    obtain ⟨hzone, hname⟩ := DB.mem_of_find_name hfind
    exact hk zone hzone hname

theorem run_memberZone {k : Zone → Handler Response} (hk : ∀ zone ∈ w.db.zones, zone.name = name →
      w.db.isParticipant zone.id userID = .ok true →
      ((k zone).run (sem parseKey) false w).1 = notFound "Not found.") :
    ((memberZone name userID k).run (sem parseKey) false w).1 = notFound "Not found." := by
  refine run_namedZone fun zone hzone hname => ?_
  rw [run_store]
  simp only [StoreOp.exec]
  have hk := hk zone hzone hname
  rw [DB.isParticipant] at hk ⊢
  generalize (w.db.zones.any _ || w.db.zoneMembers.any _) = b at hk ⊢
  cases b with
  | false => rfl
  | true => exact hk rfl

theorem run_foreign_memberZone (hw : w.db.Wf) (hf : w.db.Foreign userID name)
    (k : Zone → Handler Response) :
    ((memberZone name userID k).run (sem parseKey) false w).1 = notFound "Not found." := by
  refine run_memberZone fun zone hzone hname hpart => ?_
  rw [hf.isParticipant hw hzone hname] at hpart
  cases hpart

theorem run_foreign_leaveZone {i : Identity} (hf : w.db.Foreign i.userID name)
    (req : LeaveZoneRequest) : ((leaveZone (some i) name (some req)).run (sem parseKey) false w).1 =
      notFound "Not found." := by
  refine run_namedZone fun zone hzone hname => ?_
  rw [ownedNode, run_store]
  simp only [StoreOp.exec]
  cases hr : w.db.getOwned i.userID req.nodeID with
  | error e =>
    rw [DB.getOwned] at hr
    split at hr <;> cases hr
    rfl
  | ok node =>
    obtain ⟨hnode, -, huser⟩ := DB.getOwned_ok hr
    simp only
    rw [removeFromZone, run_store]
    rcases DB.leave_cases w.db zone.id node.id with ⟨hl, -⟩ | ⟨-, hmem⟩
    · simp only [StoreOp.exec, hl]
      rfl
    · exact absurd hmem (hf.notMember hzone hname hnode huser)

theorem run_refused_joinZone (h : Server κ) {i : Identity} {req : JoinZoneRequest}
    (hvalid : ¬ (req.nodeID = 0 ∨ req.password = ""))
    (hpass : ∀ zone ∈ w.db.zones, zone.name = name →
      h.verifyPassword req.password zone.passwordHash = false) :
    ((joinZone h (some i) name (some req)).run (sem parseKey) false w).1 = zoneOrPassword := by
  simp only [joinZone, authenticated, decoded]
  rw [if_neg hvalid]
  refine run_namedZone fun zone hzone hname => ?_
  rw [hpass zone hzone hname]
  rfl

theorem run_hidden_deleteAnnouncement (hw : w.db.Wf) {i : Identity} {other path : String} {annID : Int}
    (hpath : parseInt64 path = some annID) (hh : w.db.Hidden name annID) (hne : other ≠ name) :
    ((deleteAnnouncement (some i) other path).run (sem parseKey) false w).1 = notFound "Not found." := by
  refine run_memberZone fun zone hzone hname _ => ?_
  simp only [pathID, hpath]
  rw [run_store]
  simp only [StoreOp.exec]
  cases hann : w.db.getAnnouncement annID with
  | error e =>
    rw [DB.getAnnouncement] at hann
    split at hann <;> cases hann
    rfl
  | ok a =>
    obtain ⟨ha, hid⟩ := DB.getAnnouncement_ok hann
    obtain ⟨node, hnode, hof⟩ := hw.announcement_node a ha
    simp only
    rw [run_store]
    simp only [StoreOp.exec, ← hof, DB.getNodeByID_of_mem hw hnode]
    split_ifs
    · rfl
    · rw [run_store]
      rcases DB.detach_cases w.db zone.id annID with ⟨hd, -⟩ | ⟨b, -, hatt, -⟩
      · simp only [StoreOp.exec, hd]
        rfl
      · exact absurd hatt (hh.notAttached hw ha hid hzone (hname ▸ hne))

end

/-- The requests about a zone a stranger can make: by its name, with a password it does not have,
or through another zone with the id of an announcement made to it alone. -/
def Endpoint.Probes {κ : Type} (h : Handlers κ) (name : String) (db db' : DB) : Endpoint → Prop
  | .zoneMembers n | .listAnnouncements n => n = name
  | .call (.createAnnouncement n _) | .call (.leaveZone n _) => n = name
  | .call (.deleteAnnouncement n path) => n = name ∨ ∃ a, parseInt64 path = some a.id ∧
    (a ∈ db.announcements ∧ db.onlyIn name a = true ∨ a ∈ db'.announcements ∧ db'.onlyIn name a = true)
  | .call (.joinZone n body) => n = name ∧ ∀ req ∈ body, ∀ zone ∈ db.zones ++ db'.zones,
    zone.name = name → h.verifyPassword req.password zone.passwordHash = false
  | _ => False

def Endpoint.refusal : Endpoint → Response
  | .call (.leaveZone _ none) | .call (.joinZone _ none) => validationError "Invalid request body."
  | .call (.joinZone _ (some req)) =>
    if req.nodeID = 0 ∨ req.password = "" then
      validationError "node_id and password are required."
    else zoneOrPassword
  | _ => notFound "Not found."

section
variable {κ : Type} [DecidableEq κ] (h : Handlers κ) {s : Site κ} {name : String} {i : Identity}

theorem run_foreign_rows {parseKey : String → Option κ} (hw : s.world.db.Wf)
    (hf : s.world.db.Foreign i.userID name) (k : Zone → Service Answer) :
    ((Service.memberZone name i.userID k).run (siteSem parseKey) false s).1 =
      .plain (notFound "Not found.") := by
  rw [Service.memberZone, Service.namedZone, run_act, siteSem_getByName, DB.getByName]
  cases hfind : s.world.db.zones.find? (·.name = name) with
  | none => rfl
  | some zone =>
    obtain ⟨hzone, hname⟩ := DB.mem_of_find_name hfind
    simp only
    rw [run_act, siteSem_isParticipant, hf.isParticipant hw hzone hname]
    rfl

theorem run_plain {parseKey : String → Option κ} (p : Handler Response) :
    ((plain p).run (siteSem parseKey) false s).1 = .plain (p.run (sem parseKey) false s.world).1 := by
  rw [plain, run_bind]
  have hlift := @run_lift Op Act Act.Res Response Bool (World κ) (Site κ) Act.op (sem parseKey)
    (siteSem parseKey) Site.world (fun _ _ _ => ⟨rfl, rfl⟩) p false s
  simp only [monad_pure, run_pure, hlift]

/-- The answer depends on the request alone. -/
theorem run_probe (hw : s.world.db.Wf) (hf : s.world.db.Foreign i.userID name) {db' : DB}
    {e : Endpoint} (he : e.Probes h name s.world.db db')
    (hhidden : ∀ other path annID, e = .call (.deleteAnnouncement other path) → other ≠ name →
      parseInt64 path = some annID → s.world.db.Hidden name annID) :
    ((answer h (some i) e).run (siteSem h.parseKey) false s).1 = .plain e.refusal := by
  cases e with
  | zoneMembers n | listAnnouncements n =>
    obtain rfl := he
    exact run_foreign_rows hw hf _
  | call c =>
    cases c with
    | createAnnouncement n body =>
      obtain rfl := he
      exact (run_plain _).trans (congrArg _ (run_foreign_memberZone hw hf _))
    | deleteAnnouncement n path =>
      -- through another zone's name the announcement is reached by its id alone
      by_cases hn : n = name
      · obtain rfl := hn
        exact (run_plain _).trans (congrArg _ (run_foreign_memberZone hw hf _))
      · obtain hn' | ⟨a, hpath, -⟩ := he
        · exact absurd hn' hn
        · exact (run_plain _).trans (congrArg _ (run_hidden_deleteAnnouncement hw hpath
            (hhidden n path a.id rfl hn hpath) hn))
    | leaveZone n body =>
      obtain rfl := he
      cases body with
      | none => rfl
      | some req => exact (run_plain _).trans (congrArg _ (run_foreign_leaveZone hf req))
    | joinZone n body =>
      obtain ⟨rfl, hpass⟩ := he
      cases body with
      | none => rfl
      | some req =>
        refine (run_plain _).trans (congrArg _ ?_)
        -- a join is refused for its body before the password is looked at
        by_cases hvalid : req.nodeID = 0 ∨ req.password = ""
        · simp only [handle, joinZone, authenticated, decoded, Endpoint.refusal, if_pos hvalid]
          rfl
        · simp only [Endpoint.refusal, if_neg hvalid]
          exact run_refused_joinZone h.toServer hvalid fun zone hzone hname =>
            hpass req rfl zone (List.mem_append_left _ hzone) hname
    | _ => cases he
  | _ => cases he

omit [DecidableEq κ] in
theorem Endpoint.Probes.symm {db db' : DB} {e : Endpoint} (he : e.Probes h name db db') :
    e.Probes h name db' db := by
  cases e with
  | call c =>
    cases c with
    | deleteAnnouncement n path =>
      refine he.imp id ?_
      rintro ⟨a, hpath, ha⟩
      exact ⟨a, hpath, ha.symm⟩
    | joinZone n body =>
      refine he.imp id fun hpass req hreq zone hzone => hpass req hreq zone ?_
      rw [List.mem_append] at hzone ⊢
      exact hzone.symm
    | _ => exact he
  | _ => exact he

/-- Two databases that differ only in a zone foreign to the user answer it alike. -/
theorem strangers_learn_nothing {s' : Site κ} (hw : s.world.db.Wf) (hw' : s'.world.db.Wf)
    (hagree : DB.AgreeBut name s.world.db s'.world.db) (hf : s.world.db.Foreign i.userID name)
    (hf' : s'.world.db.Foreign i.userID name) {e : Endpoint}
    (he : e.Probes h name s.world.db s'.world.db) :
    ((answer h (some i) e).run (siteSem h.parseKey) false s).1 =
      ((answer h (some i) e).run (siteSem h.parseKey) false s').1 := by
  have hhidden : ∀ other path annID, e = .call (.deleteAnnouncement other path) → other ≠ name →
      parseInt64 path = some annID →
      s.world.db.Hidden name annID ∧ s'.world.db.Hidden name annID := by
    rintro other path annID rfl hne hpath
    obtain heq | ⟨a, hpath', hcase⟩ := he
    · exact absurd heq hne
    · obtain rfl := Option.some.inj (hpath'.symm.trans hpath)
      rcases hcase with ⟨ha, honly⟩ | ⟨ha, honly⟩
      · exact ⟨DB.hidden_of_onlyIn hw ha honly, hagree.hidden hw ha honly⟩
      · exact ⟨hagree.symm.hidden hw' ha honly, DB.hidden_of_onlyIn hw' ha honly⟩
  rw [run_probe h hw hf he fun other path annID heq hne hpath =>
    (hhidden other path annID heq hne hpath).1,
    run_probe h hw' hf' (he.symm h) fun other path annID heq hne hpath =>
      (hhidden other path annID heq hne hpath).2]

end

def oneZone : Site String := ⟨rebuilt (labDB [⟨1, 1⟩]), ⟨[], 0⟩⟩

def noZone : Site String := ⟨rebuilt { labDB [] with zones := [] }, ⟨[], 0⟩⟩

/-- A user without a node asks for the members. -/
theorem strangers_learn_nothing_lab :
    ((answer labServer.bare (some ⟨2, "bob", false⟩) (.zoneMembers "lab")).run (siteSem some) false
        oneZone).1 =
      ((answer labServer.bare (some ⟨2, "bob", false⟩) (.zoneMembers "lab")).run (siteSem some) false
        noZone).1 := by
  have hgone : noZone.world.db.Wf := by
    constructor <;> simp [noZone, rebuilt, labDB, Ascending, Keyed]
  have hagree : DB.AgreeBut "lab" oneZone.world.db noZone.world.db := by
    constructor <;> decide
  exact @strangers_learn_nothing String _ labServer.bare oneZone "lab" ⟨2, "bob", false⟩ noZone
    (labDB_wf (.inr rfl)) hgone hagree (by simp [DB.Foreign, oneZone, rebuilt, labDB])
    (by simp [DB.Foreign, noZone, rebuilt, labDB]) (.zoneMembers "lab") rfl

end LanWeave

import LanWeave.Client.RouteSync
import LanWeave.Golang.NetipText
import LanWeave.Server.Endpoints

/-! The lists of the API as a signed-in client reads them. -/

namespace LanWeave
open Library Prog

/-- `Addr.String`, for the IPv4 addresses that rows have. -/
def Addr.text : Addr → String
  | .v4 a => formatAddr4 a
  | .v6 _ => ""

/-- `Prefix.String`, for the same. -/
def Prefix.text (p : Prefix) : String :=
  match p.addr with
  | .v4 a => formatPrefix4 a p.bits
  | .v6 _ => ""

def ZoneWithOwnership.response (z : ZoneWithOwnership) : ZoneResponse := ⟨z.id, z.name, z.isOwner⟩

def MemberRow.response (m : MemberRow) : ZoneMemberResponse :=
  ⟨m.nodeID, m.nodeName, m.ip.text, m.ownerName⟩

def AnnouncementRow.response (a : AnnouncementRow) : AnnouncementResponse :=
  ⟨a.id, a.nodeID, a.nodeName, a.owner, a.real.text, a.synthetic.text⟩

section
variable {κ : Type} [DecidableEq κ] (h : Handlers κ) (s : Site κ) (i : Identity)

/-- The answer to a request none of whose operations fails. -/
def Site.ask (e : Endpoint) : Answer := ((answer h (some i) e).run (siteSem h.parseKey) false s).1

/-- The API as this user's client calls it. -/
def siteApi : ZoneApi Answer where
  listZones :=
    match s.ask h i .listZones with
    | .zones items => .ok (items.map (·.response))
    | a => .error a
  zoneMembers name :=
    match s.ask h i (.zoneMembers name) with
    | .members items => .ok (items.map (·.response))
    | a => .error a
  listAnnouncements name :=
    match s.ask h i (.listAnnouncements name) with
    | .announcements items => .ok (items.map (·.response))
    | a => .error a

theorem DB.isParticipant_of_participates {db : DB} {userID : Int} {zone : Zone}
    (hzone : zone ∈ db.zones) (hp : db.participates userID zone = true) :
    db.isParticipant zone.id userID = .ok true := by
  rw [DB.isParticipant]
  rw [DB.participates, Bool.or_eq_true, decide_eq_true_eq] at hp
  refine congrArg Except.ok (Bool.or_eq_true_iff.mpr (hp.imp_left fun howner => ?_))
  exact List.any_eq_true.mpr ⟨zone, hzone, by simpa using howner⟩

variable {h s i}

theorem run_participant (hw : s.world.db.Wf) {zone : Zone} (hzone : zone ∈ s.world.db.zones)
    (hp : s.world.db.participates i.userID zone = true) (k : Zone → Service Answer) :
    ((Service.memberZone zone.name i.userID k).run (siteSem h.parseKey) false s).1 =
      ((k zone).run (siteSem h.parseKey) false s).1 := by
  have hfind : s.world.db.zones.find? (fun z => z.name = zone.name) = some zone :=
    hw.zone_name.find?_eq_some_iff.mpr ⟨hzone, rfl⟩
  have hname : s.world.db.getByName zone.name = .ok (some zone) := by
    rw [DB.getByName, hfind]
  have hpart := DB.isParticipant_of_participates hzone hp
  rw [Service.memberZone, Service.namedZone, run_act, siteSem_getByName, hname]
  simp only
  rw [run_act, siteSem_isParticipant, hpart]

theorem siteApi_listZones : (siteApi h s i).listZones =
    .ok ((s.world.db.listForUser i.userID).map (·.response)) := rfl

theorem siteApi_zoneMembers (hw : s.world.db.Wf) {zone : Zone} (hzone : zone ∈ s.world.db.zones)
    (hp : s.world.db.participates i.userID zone = true) : (siteApi h s i).zoneMembers zone.name =
      .ok ((s.world.db.membersByZone zone.id).map (·.response)) := by
  have hask : s.ask h i (.zoneMembers zone.name) =
      .members (s.world.db.membersByZone zone.id) := run_participant hw hzone hp _
  simp only [siteApi, hask]

theorem siteApi_listAnnouncements (hw : s.world.db.Wf) {zone : Zone}
    (hzone : zone ∈ s.world.db.zones) (hp : s.world.db.participates i.userID zone = true) :
    (siteApi h s i).listAnnouncements zone.name =
      .ok ((s.world.db.listByZone zone.id).map (·.response)) := by
  have hask : s.ask h i (.listAnnouncements zone.name) =
      .announcements (s.world.db.listByZone zone.id) := run_participant hw hzone hp _
  simp only [siteApi, hask]

end
end LanWeave

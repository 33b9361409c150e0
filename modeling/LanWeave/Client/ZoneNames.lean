import LanWeave.Client.ErrorMapping
import LanWeave.Server.ApiRoutes

/-! Where the requests of the client arrive: the name of a zone is carried as one escaped segment. -/

namespace LanWeave
open Library Mux

namespace ApiCall

def method : ApiCall → String
  | register .. | login .. | refresh _ | logout _ | registerNode .. | createZone .. | joinZone .. | leaveZone ..
  | createAnnouncement .. => "POST"
  | me | listNodes | serverInfo | listZones | zoneMembers _ | listAnnouncements _ => "GET"
  | deleteNode _ | deleteZone _ | kickMember .. | deleteAnnouncement .. => "DELETE"
  | changeZonePassword .. => "PATCH"

def handler : ApiCall → ApiHandler
  | register .. => .register
  | login .. => .login
  | refresh _ => .refresh
  | logout _ => .logout
  | me => .me
  | registerNode .. => .registerNode
  | listNodes => .listNodes
  | deleteNode _ => .deleteNode
  | serverInfo => .serverInfo
  | createZone .. => .createZone
  | listZones => .listZones
  | joinZone .. => .joinZone
  | leaveZone .. => .leaveZone
  | zoneMembers _ => .zoneMembers
  | changeZonePassword .. => .changeZonePassword
  | deleteZone _ => .deleteZone
  | kickMember .. => .kickMember
  | createAnnouncement .. => .createAnnouncement
  | deleteAnnouncement .. => .deleteAnnouncement
  | listAnnouncements _ => .listAnnouncements

def pathValues : ApiCall → List (String × List UInt8)
  | deleteNode id => [("id", utf8 (toString id))]
  | joinZone name .. | leaveZone name _ | zoneMembers name | changeZonePassword name _ | deleteZone name
  | createAnnouncement name .. | listAnnouncements name => [("name", utf8 name)]
  | kickMember name id => [("name", utf8 name), ("node_id", utf8 (toString id))]
  | deleteAnnouncement name id => [("name", utf8 name), ("id", utf8 (toString id))]
  | _ => []

def pattern : ApiCall → List Segment
  | register .. => [.literal "register"]
  | login .. => [.literal "login"]
  | refresh _ => [.literal "refresh"]
  | logout _ => [.literal "logout"]
  | me => [.literal "me"]
  | registerNode .. | listNodes => [.literal "nodes"]
  | deleteNode _ => [.literal "nodes", .wildcard "id"]
  | serverInfo => [.literal "server"]
  | createZone .. | listZones => [.literal "zones"]
  | joinZone .. => [.literal "zones", .wildcard "name", .literal "join"]
  | leaveZone .. => [.literal "zones", .wildcard "name", .literal "leave"]
  | zoneMembers _ => [.literal "zones", .wildcard "name", .literal "members"]
  | changeZonePassword .. | deleteZone _ => [.literal "zones", .wildcard "name"]
  | kickMember .. => [.literal "zones", .wildcard "name", .literal "members", .wildcard "node_id"]
  | createAnnouncement .. | listAnnouncements _ =>
    [.literal "zones", .wildcard "name", .literal "announcements"]
  | deleteAnnouncement .. =>
    [.literal "zones", .wildcard "name", .literal "announcements", .wildcard "id"]

/-- The request arrives at its handler with these values. -/
def Arrives (c : ApiCall) : Prop :=
  serveHTTP apiRoutes c.method c.requestPath.toList = .handled c.handler c.pathValues

variable {c : ApiCall} {name : String}

theorem route_mem : apiRoute c.method c.pattern c.handler ∈ apiRoutes := by
  cases c <;> simp [apiRoutes, apiRoute, underV1, method, pattern, handler]

theorem toString_ne {n : Int} {s : String} (h : ∀ c ∈ s.toList, c ≠ '-' ∧ isDigit c = false) :
    toString n ≠ s := by
  intro heq
  have hne : (toString n).toList ≠ [] := by
    cases n with
    | ofNat n =>
      show n.repr.toList ≠ []
      rw [Nat.repr, String.toList_ofList]
      exact Nat.toDigits_ne_nil
    | negSucc n =>
      show ("-" ++ (n + 1).repr).toList ≠ []
      rw [String.toList_append]
      exact List.cons_ne_nil _ _
  obtain ⟨d, ds, hd⟩ := List.exists_cons_of_ne_nil hne
  have hmem : d ∈ (toString n).toList := hd ▸ List.mem_cons_self
  obtain ⟨hminus, hdigit⟩ := h d (heq ▸ hmem)
  rcases mem_toString hmem with hd | hd
  · exact hminus hd
  · rw [hdigit] at hd
    exact Bool.false_ne_true hd

/-- A text that is a segment of its own in any path. -/
def IsSegment (t : String) : Prop := t ≠ "" ∧ t ≠ "." ∧ t ≠ ".."

theorem isSegment_toString (n : Int) : IsSegment (toString n) :=
  ⟨toString_ne (by simp), toString_ne (by simp [isDigit]), toString_ne (by simp [isDigit])⟩

theorem path_of_zone (hzone : c.zone = some name) :
    ∃ rest, c.path = "zones" :: name :: rest ∧ ∀ t ∈ rest, IsSegment t := by
  have hword : ∀ {t : String}, t = "join" ∨ t = "leave" ∨ t = "members" ∨ t = "announcements" →
    IsSegment t := by
    intro t ht
    rcases ht with rfl | rfl | rfl | rfl
    · exact ⟨by decide, by decide, by decide⟩
    · exact ⟨by decide, by decide, by decide⟩
    · exact ⟨by decide, by decide, by decide⟩
    · exact ⟨by decide, by decide, by decide⟩
  cases c with
  | joinZone _ nodeID password =>
    cases hzone
    exact ⟨["join"], rfl, by simp [hword]⟩
  | leaveZone _ nodeID =>
    cases hzone
    exact ⟨["leave"], rfl, by simp [hword]⟩
  | zoneMembers _ =>
    cases hzone
    exact ⟨["members"], rfl, by simp [hword]⟩
  | changeZonePassword _ password =>
    cases hzone
    exact ⟨[], rfl, by simp⟩
  | deleteZone _ =>
    cases hzone
    exact ⟨[], rfl, by simp⟩
  | kickMember _ nodeID =>
    cases hzone
    exact ⟨["members", toString nodeID], rfl, List.forall_mem_cons.mpr
      ⟨hword (by simp), List.forall_mem_singleton.mpr (isSegment_toString nodeID)⟩⟩
  | createAnnouncement _ nodeID subnet =>
    cases hzone
    exact ⟨["announcements"], rfl, by simp [hword]⟩
  | deleteAnnouncement _ id =>
    cases hzone
    exact ⟨["announcements", toString id], rfl, List.forall_mem_cons.mpr
      ⟨hword (by simp), List.forall_mem_singleton.mpr (isSegment_toString id)⟩⟩
  | listAnnouncements _ =>
    cases hzone
    exact ⟨["announcements"], rfl, by simp [hword]⟩
  | _ => cases hzone

theorem matchTexts_path (hzone : c.zone = some name) :
    matchTexts (underV1 c.pattern) ("api" :: "v1" :: c.path) = some c.pathValues := by
  cases c with
  | joinZone _ nodeID password => cases hzone; rfl
  | leaveZone _ nodeID => cases hzone; rfl
  | zoneMembers _ => cases hzone; rfl
  | changeZonePassword _ password => cases hzone; rfl
  | deleteZone _ => cases hzone; rfl
  | kickMember _ nodeID => cases hzone; rfl
  | createAnnouncement _ nodeID subnet => cases hzone; rfl
  | deleteAnnouncement _ id => cases hzone; rfl
  | listAnnouncements _ => cases hzone; rfl
  | _ => cases hzone

theorem segments_eq : c.segments = ("api" :: "v1" :: c.path).map fun t => (pathEscape t).toList := by
  have hapi : pathEscape "api" = "api" := pathEscape_self (by decide)
  have hv1 : pathEscape "v1" = "v1" := pathEscape_self (by decide)
  rw [segments, List.map_cons, List.map_cons, hapi, hv1]

theorem pathSegments_requestPath : pathSegments c.requestPath.toList = c.segments := by
  rw [requestPath_toList, pathSegments_joinSegments slash_not_mem_segments]

end ApiCall

/-- What `createZone` lets pass, of whatever the request holds. -/
def AcceptedZoneName (name : String) : Prop :=
  (∃ raw, name = trimSpace raw) ∧ ¬(name = "" ∨ 64 < byteLen name)

/-- A zone can be addressed exactly if its name is not a dot segment, which the multiplexer takes out of
the path before it looks at its routes. -/
theorem ApiCall.arrives_iff {name : String} (h : AcceptedZoneName name) {c : ApiCall}
    (hzone : c.zone = some name) : c.Arrives ↔ name ≠ "." ∧ name ≠ ".." := by
  have hname : name ≠ "" := fun heq => h.2 (.inl heq)
  obtain ⟨rest, hpath, hrest⟩ := path_of_zone hzone
  have hne : ∀ t ∈ "api" :: "v1" :: c.path, t ≠ "" := by
    rw [hpath]
    intro t ht
    simp only [List.mem_cons] at ht
    rcases ht with rfl | rfl | rfl | rfl | ht
    · decide
    · decide
    · decide
    · exact hname
    · exact (hrest t ht).1
  -- of the path's segments only the zone's name may be a dot or two; ids and fixed words are not
  have hclean : isClean c.segments = true ↔ name ≠ "." ∧ name ≠ ".." := by
    rw [segments_eq, isClean_escaped_iff hne, hpath]
    constructor
    · intro hall
      exact hall name (by simp)
    · intro hdots t ht
      simp only [List.mem_cons] at ht
      rcases ht with rfl | rfl | rfl | rfl | ht
      · decide
      · decide
      · decide
      · exact hdots
      · exact (hrest t ht).2
  constructor
  · intro harrives
    by_contra hdots
    -- the mux answers an unclean path with a redirect, before it looks at the routes
    have hredirect : serveHTTP apiRoutes c.method c.requestPath.toList = .redirected := by
      apply serveHTTP_of_not_clean
      rw [pathSegments_requestPath]
      exact Bool.eq_false_iff.mpr fun htrue => hdots (hclean.mp htrue)
    rw [Arrives, hredirect] at harrives
    cases harrives
  · intro hdots
    have hmatch : matchSegments (underV1 c.pattern) c.segments = some c.pathValues := by
      rw [segments_eq]
      exact matchSegments_escaped hne (matchTexts_path hzone)
    have hserves : (apiRoute c.method c.pattern c.handler).serves c.method
        (pathSegments c.requestPath.toList) = some c.pathValues := by
      rw [pathSegments_requestPath, Route.serves, apiRoute, if_pos (.inr rfl)]
      exact hmatch
    apply serveHTTP_of_mem _ apiRoutes_apart route_mem hserves
    rw [pathSegments_requestPath]
    exact hclean.mpr hdots

/-- A name of slashes, percent signs, spaces and umlauts. -/
theorem ApiCall.arrives_iff_odd :
    (ApiCall.joinZone "a/ü %2F" 1 "password").Arrives ↔ "a/ü %2F" ≠ "." ∧ "a/ü %2F" ≠ ".." :=
  @ApiCall.arrives_iff "a/ü %2F" ⟨⟨"a/ü %2F", by decide⟩, by decide⟩ _ rfl

/-- A zone that can be created, and nothing else. -/
theorem dot_not_addressable :
    AcceptedZoneName "." ∧ serveHTTP apiRoutes "POST"
      (ApiCall.joinZone "." 1 "password").requestPath.toList = .redirected ∧
      serveHTTP apiRoutes "DELETE" (ApiCall.deleteZone ".").requestPath.toList = .redirected := by
  refine ⟨⟨⟨".", by decide⟩, by decide⟩, ?_, ?_⟩
  · apply serveHTTP_of_not_clean
    decide +kernel
  · apply serveHTTP_of_not_clean
    decide +kernel

end LanWeave

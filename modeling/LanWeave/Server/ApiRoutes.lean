import LanWeave.Golang.ServeMux

/-! The table of the control-plane API: which handler a request goes to. -/

namespace LanWeave
open Mux

inductive ApiHandler
  | healthz
  | login
  | register
  | refresh
  | logout
  | me
  | serverInfo
  | registerNode
  | listNodes
  | deleteNode
  | createZone
  | listZones
  | joinZone
  | leaveZone
  | zoneMembers
  | createAnnouncement
  | listAnnouncements
  | deleteAnnouncement
  | changeZonePassword
  | deleteZone
  | kickMember
  | createInvite
  | listInvites
  | deleteUser
deriving DecidableEq

/-- A pattern below `/api/v1`. -/
def underV1 (pattern : List Segment) : List Segment := .literal "api" :: .literal "v1" :: pattern

def apiRoute (method : String) (pattern : List Segment) (handler : ApiHandler) : Route ApiHandler :=
  ⟨some method, underV1 pattern, handler⟩

/-- `routes`. What none of them serves goes to notFound. -/
def apiRoutes : List (Route ApiHandler) :=
  [⟨none, underV1 [.literal "healthz"], .healthz⟩,
   apiRoute "POST" [.literal "login"] .login,
   apiRoute "POST" [.literal "register"] .register,
   apiRoute "POST" [.literal "refresh"] .refresh,
   apiRoute "POST" [.literal "logout"] .logout,
   apiRoute "GET" [.literal "me"] .me,
   apiRoute "GET" [.literal "server"] .serverInfo,
   apiRoute "POST" [.literal "nodes"] .registerNode,
   apiRoute "GET" [.literal "nodes"] .listNodes,
   apiRoute "DELETE" [.literal "nodes", .wildcard "id"] .deleteNode,
   apiRoute "POST" [.literal "zones"] .createZone,
   apiRoute "GET" [.literal "zones"] .listZones,
   apiRoute "POST" [.literal "zones", .wildcard "name", .literal "join"] .joinZone,
   apiRoute "POST" [.literal "zones", .wildcard "name", .literal "leave"] .leaveZone,
   apiRoute "GET" [.literal "zones", .wildcard "name", .literal "members"] .zoneMembers,
   apiRoute "POST" [.literal "zones", .wildcard "name", .literal "announcements"] .createAnnouncement,
   apiRoute "GET" [.literal "zones", .wildcard "name", .literal "announcements"] .listAnnouncements,
   apiRoute "DELETE" [.literal "zones", .wildcard "name", .literal "announcements", .wildcard "id"]
     .deleteAnnouncement,
   apiRoute "PATCH" [.literal "zones", .wildcard "name"] .changeZonePassword,
   apiRoute "DELETE" [.literal "zones", .wildcard "name"] .deleteZone,
   apiRoute "DELETE" [.literal "zones", .wildcard "name", .literal "members", .wildcard "node_id"]
     .kickMember,
   apiRoute "POST" [.literal "admin", .literal "invites"] .createInvite,
   apiRoute "GET" [.literal "admin", .literal "invites"] .listInvites,
   apiRoute "DELETE" [.literal "admin", .literal "users", .wildcard "id"] .deleteUser]

theorem apiRoutes_apart : apiRoutes.Pairwise fun r r' => r.apart r' = true ∧ r'.apart r = true := by
  decide +kernel

end LanWeave

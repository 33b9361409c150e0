import LanWeave.Library.Table
import LanWeave.Server.Ipam

/-! The database: rows, the constraints of the migrations, and the row-level changes the
statements are made of, with their foreign-key cascades. A table is the list of its rows in
rowid order. Time stamps, which no query of the model reads, are left out. -/

namespace LanWeave
open Library

structure User where
  id : Int
  username : String
  passwordHash : String
  isAdmin : Bool
deriving DecidableEq

structure Node where
  id : Int
  userID : Int
  name : String
  pubKey : String
  ip : BitVec 32
  platform : String
deriving DecidableEq

structure Zone where
  id : Int
  name : String
  passwordHash : String
  ownerID : Int
deriving DecidableEq

structure ZoneMember where
  zoneID : Int
  nodeID : Int
deriving DecidableEq

structure Announcement where
  id : Int
  nodeID : Int
  realBase : BitVec 32
  prefixLen : Nat
  syntheticBase : BitVec 32
deriving DecidableEq

def Announcement.real (a : Announcement) : Block := ⟨a.realBase, a.prefixLen⟩

def Announcement.synthetic (a : Announcement) : Block := ⟨a.syntheticBase, a.prefixLen⟩

structure AnnouncementZone where
  announcementID : Int
  zoneID : Int
deriving DecidableEq

/-- The tables, and for each AUTOINCREMENT table the last id given out. -/
structure DB where
  users : List User
  nodes : List Node
  zones : List Zone
  zoneMembers : List ZoneMember
  announcements : List Announcement
  announcementZones : List AnnouncementZone
  seqUsers : Int
  seqNodes : Int
  seqZones : Int
  seqAnnouncements : Int
deriving DecidableEq

namespace DB

def empty : DB := ⟨[], [], [], [], [], [], 0, 0, 0, 0⟩

def nodeByID? (db : DB) (nodeID : Int) : Option Node := db.nodes.find? fun n => n.id = nodeID

def announcementByID? (db : DB) (annID : Int) : Option Announcement :=
  db.announcements.find? fun a => a.id = annID

def hasUser (db : DB) (userID : Int) : Bool := db.users.any (·.id = userID)

def hasNode (db : DB) (nodeID : Int) : Bool := db.nodes.any (·.id = nodeID)

def hasZone (db : DB) (zoneID : Int) : Bool := db.zones.any (·.id = zoneID)

def hasAnnouncement (db : DB) (annID : Int) : Bool := db.announcements.any (·.id = annID)

def attached (db : DB) (annID : Int) : Bool :=
  db.announcementZones.any (·.announcementID = annID)

def addUser (db : DB) (username passwordHash : String) (isAdmin : Bool) : DB :=
  { db with
    users := db.users ++ [⟨db.seqUsers + 1, username, passwordHash, isAdmin⟩]
    seqUsers := db.seqUsers + 1 }

def addNode (db : DB) (userID : Int) (name pubKey : String) (ip : BitVec 32) (platform : String) :
    DB :=
  { db with
    nodes := db.nodes ++ [⟨db.seqNodes + 1, userID, name, pubKey, ip, platform⟩]
    seqNodes := db.seqNodes + 1 }

def addZone (db : DB) (name passwordHash : String) (ownerID : Int) : DB :=
  { db with
    zones := db.zones ++ [⟨db.seqZones + 1, name, passwordHash, ownerID⟩]
    seqZones := db.seqZones + 1 }

def addMember (db : DB) (m : ZoneMember) : DB := { db with zoneMembers := db.zoneMembers ++ [m] }

def addAnnouncement (db : DB) (nodeID : Int) (real : Block) (syntheticBase : BitVec 32) : DB :=
  { db with
    announcements := db.announcements ++
      [⟨db.seqAnnouncements + 1, nodeID, real.base, real.prefixLen, syntheticBase⟩]
    seqAnnouncements := db.seqAnnouncements + 1 }

def attach (db : DB) (az : AnnouncementZone) : DB :=
  { db with announcementZones := db.announcementZones ++ [az] }

def deleteMember (db : DB) (m : ZoneMember) : DB :=
  { db with zoneMembers := db.zoneMembers.filter (· ≠ m) }

def deleteAttachments (db : DB) (p : AnnouncementZone → Bool) : DB :=
  { db with announcementZones := db.announcementZones.filter (! p ·) }

/-- `DELETE FROM announcements`, cascading to the attachments. -/
def deleteAnnouncements (db : DB) (p : Announcement → Bool) : DB :=
  { db with
    announcements := db.announcements.filter (! p ·)
    announcementZones := db.announcementZones.filter fun az =>
      ! db.announcements.any fun a => p a && a.id = az.announcementID }

/-- `DELETE FROM zones`, cascading to memberships and attachments. -/
def deleteZones (db : DB) (p : Zone → Bool) : DB :=
  { db with
    zones := db.zones.filter (! p ·)
    zoneMembers := db.zoneMembers.filter fun m => ! db.zones.any fun z => p z && z.id = m.zoneID
    announcementZones := db.announcementZones.filter fun az =>
      ! db.zones.any fun z => p z && z.id = az.zoneID }

/-- `DELETE FROM nodes`, cascading to memberships and announcements. -/
def deleteNodes (db : DB) (p : Node → Bool) : DB :=
  { db.deleteAnnouncements fun a => db.nodes.any fun n => p n && n.id = a.nodeID with
    nodes := db.nodes.filter (! p ·)
    zoneMembers := db.zoneMembers.filter fun m => ! db.nodes.any fun n => p n && n.id = m.nodeID }

/-- `DELETE FROM users WHERE id = ?`, cascading to the user's nodes and zones. -/
def deleteUser (db : DB) (userID : Int) : DB :=
  { (db.deleteNodes fun n => n.userID = userID).deleteZones fun z => z.ownerID = userID with
    users := db.users.filter fun u => u.id ≠ userID }

/-- What the schema enforces: primary keys, UNIQUE columns, foreign keys; and that a fresh
AUTOINCREMENT id is above every id in use. -/
structure Wf (db : DB) : Prop where
  users_asc : Ascending User.id db.users
  users_seq : ∀ u ∈ db.users, u.id ≤ db.seqUsers
  nodes_asc : Ascending Node.id db.nodes
  nodes_seq : ∀ n ∈ db.nodes, n.id ≤ db.seqNodes
  node_user : ∀ n ∈ db.nodes, ∃ u ∈ db.users, u.id = n.userID
  node_key : Keyed Node.pubKey db.nodes
  node_ip : Keyed Node.ip db.nodes
  node_name : Keyed (fun n => (n.userID, n.name)) db.nodes
  zones_asc : Ascending Zone.id db.zones
  zones_seq : ∀ z ∈ db.zones, z.id ≤ db.seqZones
  zone_owner : ∀ z ∈ db.zones, ∃ u ∈ db.users, u.id = z.ownerID
  zone_name : Keyed Zone.name db.zones
  members_nodup : db.zoneMembers.Nodup
  member_zone : ∀ m ∈ db.zoneMembers, ∃ z ∈ db.zones, z.id = m.zoneID
  member_node : ∀ m ∈ db.zoneMembers, ∃ n ∈ db.nodes, n.id = m.nodeID
  announcements_asc : Ascending Announcement.id db.announcements
  announcements_seq : ∀ a ∈ db.announcements, a.id ≤ db.seqAnnouncements
  announcement_node : ∀ a ∈ db.announcements, ∃ n ∈ db.nodes, n.id = a.nodeID
  announcement_real : Keyed (fun a => (a.nodeID, a.real)) db.announcements
  announcement_synthetic : Keyed Announcement.synthetic db.announcements
  attachments_nodup : db.announcementZones.Nodup
  attachment_announcement : ∀ az ∈ db.announcementZones,
    ∃ a ∈ db.announcements, a.id = az.announcementID
  attachment_zone : ∀ az ∈ db.announcementZones, ∃ z ∈ db.zones, z.id = az.zoneID

/-- No id that was in use or free in `db` names a different row in `db'`: rows are never
changed and ids never reused. -/
structure After (db db' : DB) : Prop where
  nodes : ∀ n ∈ db'.nodes, n.id ≤ db.seqNodes → n ∈ db.nodes
  announcements : ∀ a ∈ db'.announcements, a.id ≤ db.seqAnnouncements → a ∈ db.announcements
  seqNodes : db.seqNodes ≤ db'.seqNodes
  seqAnnouncements : db.seqAnnouncements ≤ db'.seqAnnouncements

end DB
end LanWeave

import LanWeave.Server.Store

/-! The queries behind the lists a client reads. -/

namespace LanWeave
open Library

structure ZoneWithOwnership where
  id : Int
  name : String
  isOwner : Bool
deriving DecidableEq

structure MemberRow where
  nodeID : Int
  nodeName : String
  ip : Addr
  ownerName : String
deriving DecidableEq

structure AnnouncementRow where
  id : Int
  nodeID : Int
  nodeName : String
  owner : String
  real : Prefix
  synthetic : Prefix
deriving DecidableEq

namespace DB

/-- `NodeRepo.ListByUser`, newest first. -/
def listByUser (db : DB) (userID : Int) : List Node := (db.nodes.filter (·.userID = userID)).reverse

/-- The user owns the zone or has a node in it. -/
def participates (db : DB) (userID : Int) (z : Zone) : Bool :=
  z.ownerID = userID || db.zoneMembers.any fun m => m.zoneID = z.id ∧
    db.nodes.any fun n => n.id = m.nodeID ∧ n.userID = userID

/-- `ZoneRepo.ListForUser`, newest first. -/
def listForUser (db : DB) (userID : Int) : List ZoneWithOwnership :=
  ((db.zones.filter (db.participates userID)).map fun z =>
    ⟨z.id, z.name, z.ownerID = userID⟩).reverse

def ownerName? (db : DB) (n : Node) : Option String :=
  (db.users.find? (·.id = n.userID)).map (·.username)

/-- `ZoneRepo.MembersByZone`, by address. -/
def membersByZone (db : DB) (zoneID : Int) : List MemberRow :=
  let nodes := (db.zoneMembers.filter (·.zoneID = zoneID)).filterMap (db.nodeByID? ·.nodeID)
  (nodes.mergeSort fun n n' => n.ip ≤ n'.ip).filterMap fun n =>
    (db.ownerName? n).map fun owner => ⟨n.id, n.name, uint32ToAddr n.ip, owner⟩

/-- `AnnouncementRepo.ListByZone`, oldest first. -/
def listByZone (db : DB) (zoneID : Int) : List AnnouncementRow :=
  (db.announcements.filter fun a => ⟨a.id, zoneID⟩ ∈ db.announcementZones).filterMap fun a =>
    (db.nodeByID? a.nodeID).bind fun n => (db.ownerName? n).map fun owner =>
      ⟨a.id, a.nodeID, n.name, owner, a.real.toPrefix, a.synthetic.toPrefix⟩

/-- `ZoneRepo.UpdatePassword`. -/
def updatePassword (db : DB) (zoneID : Int) (passwordHash : String) : DB :=
  { db with
    zones := db.zones.map fun z => if z.id = zoneID then { z with passwordHash } else z }

end DB

theorem updatePassword_wf {db : DB} (hw : db.Wf) (zoneID : Int) (hash : String) :
    (db.updatePassword zoneID hash).Wf := by
  let f : Zone → Zone := fun z => if z.id = zoneID then { z with passwordHash := hash } else z
  have hf : ∀ z, (f z).id = z.id ∧ (f z).name = z.name ∧ (f z).ownerID = z.ownerID := by
    intro z
    simp only [f]
    split_ifs <;> exact ⟨rfl, rfl, rfl⟩
  have hrow : ∀ z ∈ (db.updatePassword zoneID hash).zones, ∃ old ∈ db.zones, f old = z :=
    fun z hz => List.mem_map.mp hz
  have hkeep : ∀ id, (∃ z ∈ db.zones, z.id = id) →
      ∃ z ∈ (db.updatePassword zoneID hash).zones, z.id = id := by
    rintro id ⟨z, hz, rfl⟩
    exact ⟨f z, List.mem_map.mpr ⟨z, hz, rfl⟩, (hf z).1⟩
  exact { hw with
    zones_asc := List.pairwise_map.mpr (hw.zones_asc.imp fun {y z} hlt => by
      show (f y).id < (f z).id
      rwa [(hf y).1, (hf z).1])
    zones_seq := fun z hz => by
      obtain ⟨old, hold, rfl⟩ := hrow z hz
      rw [(hf old).1]
      exact hw.zones_seq old hold
    zone_owner := fun z hz => by
      obtain ⟨old, hold, rfl⟩ := hrow z hz
      rw [(hf old).2.2]
      exact hw.zone_owner old hold
    zone_name := fun y hy z hz hyz => by
      obtain ⟨y, hold, rfl⟩ := hrow y hy
      obtain ⟨z, hold', rfl⟩ := hrow z hz
      rw [(hf y).2.1, (hf z).2.1] at hyz
      rw [hw.zone_name y hold z hold' hyz]
    member_zone := fun m hm => hkeep _ (hw.member_zone m hm)
    attachment_zone := fun az haz => hkeep _ (hw.attachment_zone az haz) }

end LanWeave

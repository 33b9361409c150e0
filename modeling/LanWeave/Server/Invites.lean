import LanWeave.Golang.Time
import LanWeave.Server.StoreInvariant

/-! Invite codes: the table, the statements on it, and the registration transaction, which
creates a user and consumes an invite. Time stamps are text, as the column holds them. -/

namespace LanWeave
open Library

structure Invite where
  id : Int
  code : String
  createdByUserID : Option Int
  usedByUserID : Option Int
  usedAt : Option String
  createdAt : String
  expiresAt : Option String
deriving DecidableEq

structure Invites where
  rows : List Invite
  seq : Int
deriving DecidableEq

/-- An invite with the names of its creator and consumer, where these still exist. -/
structure InviteRow where
  invite : Invite
  createdByName : Option String
  usedByName : Option String

structure Registry where
  db : DB
  invites : Invites
deriving DecidableEq

inductive RegisterErr
  | userExists
  | inviteInvalid
deriving DecidableEq

/-- `used_at IS NULL AND (expires_at IS NULL OR expires_at > ?)`; text compares as text. -/
def Invite.redeemable (inv : Invite) (code now : String) : Bool :=
  inv.code = code && inv.usedAt.isNone && inv.expiresAt.all (now < ·)

def Invite.consume (inv : Invite) (userID : Int) (now : String) : Invite :=
  { inv with usedByUserID := some userID, usedAt := some now }

/-- `ON DELETE SET NULL` on both references to a user. -/
def Invite.forget (inv : Invite) (userID : Int) : Invite :=
  { inv with
    createdByUserID := inv.createdByUserID.filter (· ≠ userID)
    usedByUserID := inv.usedByUserID.filter (· ≠ userID) }

def Invites.forget (invites : Invites) (userID : Int) : Invites :=
  { invites with rows := invites.rows.map (·.forget userID) }

namespace Registry

/-- `Store.Register`; a transaction that returns an error has been rolled back. -/
def register (r : Registry) (username passwordHash code : String) (now : Int) :
    Except RegisterErr User × Registry :=
  if r.db.users.any fun u => nocase u.username = nocase username then (.error .userExists, r)
  else
    let nowStr := formatRFC3339 now
    let db := r.db.addUser username passwordHash false
    if (r.invites.rows.filter (·.redeemable code nowStr)).length ≠ 1 then
      (.error .inviteInvalid, r)
    else
      (.ok ⟨db.seqUsers, username, passwordHash, false⟩,
        ⟨db, { r.invites with
          rows := r.invites.rows.map fun inv =>
            if inv.redeemable code nowStr then inv.consume db.seqUsers nowStr else inv }⟩)

theorem register_db (r : Registry) (username passwordHash code : String) (now : Int) :
    (r.register username passwordHash code now).2.db = (r.db.register username passwordHash (decide
      ((r.invites.rows.filter (·.redeemable code (formatRFC3339 now))).length = 1))).2 := by
  unfold register DB.register
  by_cases htaken : (r.db.users.any fun u => nocase u.username = nocase username) = true
  · rw [if_pos htaken, if_pos htaken]
  · rw [if_neg htaken, if_neg htaken]
    by_cases hone : (r.invites.rows.filter (·.redeemable code (formatRFC3339 now))).length = 1
    · simp [hone]
    · simp [hone]

/-- The expiry an invite made at `now` is given; no positive ttl is no expiry. -/
def expiry (now ttl : Int) : Option String :=
  if 0 < ttl then some (formatRFC3339 (truncateSecond now * second + ttl)) else none

/-- One `INSERT INTO invites` of `InviteRepo.Create`. -/
def insertInvite (r : Registry) (createdBy : Int) (code : String) (now ttl : Int) :
    Except StoreErr Unit × Registry :=
  if r.invites.rows.any (·.code = code) then (.error (.unique ["invites.code"]), r)
  else if !r.db.hasUser createdBy then (.error .driver, r)
  else
    (.ok (), { r with
      invites := {
        rows := r.invites.rows ++
          [⟨r.invites.seq + 1, code, some createdBy, none, none, formatRFC3339 now, expiry now ttl⟩]
        seq := r.invites.seq + 1 } })

/-- `InviteRepo.List`, newest first. -/
def listInvites (r : Registry) : List InviteRow :=
  let name (id : Option Int) := id.bind fun id => (r.db.users.find? (·.id = id)).map (·.username)
  (r.invites.rows.map fun inv => ⟨inv, name inv.createdByUserID, name inv.usedByUserID⟩).reverse

/-- `UserRepo.DeleteCascade`, with its effect on the invites. -/
def deleteCascade (r : Registry) (targetID : Int) : Except StoreErr DeletionResult × Registry :=
  match r.db.deleteCascade targetID with
  | (.error e, db) => (.error e, { r with db := db })
  | (.ok result, db) =>
    (.ok result, ⟨db, r.invites.forget targetID⟩)

/-- The invites of a registry: codes are unique, an expiry is the text of an instant. -/
structure Wf (r : Registry) : Prop where
  db : r.db.Wf
  asc : Ascending Invite.id r.invites.rows
  seq : ∀ inv ∈ r.invites.rows, inv.id ≤ r.invites.seq
  code : Keyed Invite.code r.invites.rows
  expires : ∀ inv ∈ r.invites.rows, ∀ text ∈ inv.expiresAt,
    ∃ e, InYears e ∧ text = formatSeconds e

end Registry
end LanWeave

import LanWeave.Library.Program
import LanWeave.Server.Store
import LanWeave.Server.Wg

/-! What a handler works with: the database and the dataplane, one operation on them at a time,
and what it reads from a request and answers. -/

namespace LanWeave
open Library

structure World (κ : Type) where
  db : DB
  nft : Nft
  wg : Device κ

inductive Op
  | store (o : StoreOp)
  | netfw (o : NetfwOp)
  | wg (o : WgOp)

@[reducible] def Op.Res : Op → Type
  | store o => Except StoreErr o.Val
  | netfw _ => Except KernelErr Unit
  | wg _ => Except KernelErr Unit

section
variable {κ : Type} [DecidableEq κ] (parseKey : String → Option κ)

/-- The answer of an operation and the world after it. The environment may let any operation
fail for a reason outside the model, without effect. -/
def sem : Semantics Op Op.Res Bool (World κ)
  | .store o, fails, w =>
    if fails then (.error .driver, w) else ((o.exec w.db).1, { w with db := (o.exec w.db).2 })
  | .netfw o, fails, w =>
    if fails then (.error .failed, w)
    else match o.exec w.nft with
      | .error e => (.error e, w)
      | .ok nft => (.ok (), { w with nft := nft })
  | .wg o, fails, w =>
    if fails then (.error .failed, w)
    else match o.exec parseKey w.wg with
      | .error e => (.error e, w)
      | .ok wg => (.ok (), { w with wg := wg })

variable {parseKey} (w : World κ)

@[simp] theorem sem_store (o : StoreOp) : sem parseKey (.store o) false w =
    ((o.exec w.db).1, { w with db := (o.exec w.db).2 }) := rfl

theorem sem_netfw_snd (o : NetfwOp) :
    (sem parseKey (.netfw o) false w).2 = { w with nft := o.effect w.nft } := by
  simp only [sem, NetfwOp.effect]
  cases o.exec w.nft <;> rfl

theorem sem_wg_snd (o : WgOp) :
    (sem parseKey (.wg o) false w).2 = { w with wg := o.effect parseKey w.wg } := by
  simp only [sem, WgOp.effect]
  cases o.exec parseKey w.wg <;> rfl

variable (parseKey) in
@[simp] theorem sem_netfw_db (o : NetfwOp) (fails : Bool) :
    (sem parseKey (.netfw o) fails w).2.db = w.db := by
  cases fails with
  | true => rfl
  | false => rw [sem_netfw_snd]

variable (parseKey) in
@[simp] theorem sem_wg_db (o : WgOp) (fails : Bool) :
    (sem parseKey (.wg o) fails w).2.db = w.db := by
  cases fails with
  | true => rfl
  | false => rw [sem_wg_snd]

variable (parseKey) in
theorem sem_db (i : Op) (fails : Bool) : (sem parseKey i fails w).2.db = w.db ∨
    ∃ o, i = .store o ∧ fails = false ∧ (sem parseKey i fails w).2.db = (o.exec w.db).2 := by
  cases i with
  | store o =>
    cases fails with
    | true => exact .inl rfl
    | false => exact .inr ⟨o, rfl, rfl, rfl⟩
  | netfw o => exact .inl (sem_netfw_db parseKey w o fails)
  | wg o => exact .inl (sem_wg_db parseKey w o fails)

end

abbrev Handler := Prog Op Op.Res

def store (o : StoreOp) : Handler (Except StoreErr o.Val) := .op (.store o) .pure

def netfw (o : NetfwOp) : Handler (Except KernelErr Unit) := .op (.netfw o) .pure

def wg (o : WgOp) : Handler (Except KernelErr Unit) := .op (.wg o) .pure

/-- The configuration of the server, and the functions of other packages the handlers call. -/
structure Server (κ : Type) where
  network : String
  maxDevicesPerUser : Int
  maxOwnedZonesPerUser : Int
  maxAnnouncedSubnetsPerUser : Int
  /-- `none` is the zero prefix: announcements are disabled. -/
  announcePool : Option Prefix
  announcePool_valid : ∀ p ∈ announcePool, p.Valid
  hashPassword : String → String → String
  verifyPassword : String → String → Bool
  parseKey : String → Option κ

/-- What the authentication middleware puts into the request context. -/
structure Identity where
  userID : Int
  username : String
  isAdmin : Bool

structure RegisterNodeRequest where
  name : String
  wgPubKey : String
  platform : String

structure CreateZoneRequest where
  name : String
  password : String
  nodeID : Int

structure JoinZoneRequest where
  nodeID : Int
  password : String

structure LeaveZoneRequest where
  nodeID : Int

structure CreateAnnouncementRequest where
  nodeID : Int
  subnet : String

inductive Body
  | empty
  | error (code message : String)
  | node (id : Int) (name : String) (ip : Addr) (platform : String)
  | zone (id : Int) (name : String) (isOwner : Bool)
  | announcement (id nodeID : Int) (nodeName owner : String) (subnet synthetic : Prefix)
deriving DecidableEq

structure Response where
  status : Nat
  body : Body
deriving DecidableEq

def Response.isError (r : Response) : Bool := 400 ≤ r.status

def writeJSONError (status : Nat) (code message : String) : Response := ⟨status, .error code message⟩

def serverError : Response := writeJSONError 500 "internal_error" "An internal error occurred."

def noContent : Response := ⟨204, .empty⟩

def notFound (message : String) : Response := writeJSONError 404 "not_found" message

def validationError (message : String) : Response := writeJSONError 400 "validation_error" message

/-- A request: the identity it carries, its path values and its body as far as it decodes. -/
inductive Call
  | registerNode (body : Option RegisterNodeRequest)
  | deleteNode (id : String)
  /-- `salt` is what crypto/rand yields, `none` where it fails. -/
  | createZone (body : Option CreateZoneRequest) (salt : Option String)
  | joinZone (name : String) (body : Option JoinZoneRequest)
  | leaveZone (name : String) (body : Option LeaveZoneRequest)
  | kickMember (name nodeID : String)
  | deleteZone (name : String)
  | createAnnouncement (name : String) (body : Option CreateAnnouncementRequest)
  | deleteAnnouncement (name id : String)
  | deleteUser (id : String)

structure Request where
  identity : Option Identity
  call : Call

end LanWeave

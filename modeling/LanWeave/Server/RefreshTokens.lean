import LanWeave.Golang.TimeText
import LanWeave.Library.Program
import LanWeave.Server.Invites

/-! The refresh tokens: each is known by its digest, lives for thirty days after its last use,
and dies with its user or when it is revoked. -/

namespace LanWeave
open Library Prog

structure RefreshToken where
  id : Int
  userID : Int
  tokenHash : String
  expiresAt : String
  revokedAt : Option String
  createdAt : String
deriving DecidableEq

/-- The accounts of a server: its users with what belongs to them. -/
structure Accounts where
  registry : Registry
  refreshTokens : List RefreshToken
  seqRefreshTokens : Int
deriving DecidableEq

/-- `refreshTTL`, in seconds. -/
def refreshTTL : Int := 30 * 24 * 3600

/-- The statements and the transaction that the token's calls are made of. -/
inductive TokenOp
  | insert (userID : Int) (tokenHash expiresAt createdAt : String)
  | select (tokenHash : String)
  | slide (tokenHash expiresAt : String)
  | revoke (tokenHash revokedAt : String)
  | deleteCascade (targetID : Int)

abbrev TokenOp.Result : TokenOp → Type
  | select _ => Except StoreErr (Option RefreshToken)
  | deleteCascade _ => Except StoreErr DeletionResult
  | _ => Except StoreErr Unit

namespace Accounts

/-- `INSERT INTO refresh_tokens`: digests are unique, and the user is referenced. -/
def insertToken (s : Accounts) (userID : Int) (tokenHash expiresAt createdAt : String) :
    Except StoreErr Unit × Accounts :=
  if s.refreshTokens.any (·.tokenHash = tokenHash) then
    (.error (.unique ["refresh_tokens.token_hash"]), s)
  else if !s.registry.db.hasUser userID then (.error .driver, s)
  else
    (.ok (), { s with
      refreshTokens := s.refreshTokens ++
        [⟨s.seqRefreshTokens + 1, userID, tokenHash, expiresAt, none, createdAt⟩]
      seqRefreshTokens := s.seqRefreshTokens + 1 })

/-- `UPDATE refresh_tokens SET … WHERE token_hash = ? AND revoked_at IS NULL`. -/
def updateLive (s : Accounts) (tokenHash : String) (set : RefreshToken → RefreshToken) : Accounts :=
  { s with
    refreshTokens := s.refreshTokens.map fun row =>
      if row.tokenHash = tokenHash ∧ row.revokedAt = none then set row else row }

/-- `UserRepo.DeleteCascade`, with the tokens that go with the user. -/
def deleteCascade (s : Accounts) (targetID : Int) : Except StoreErr DeletionResult × Accounts :=
  match s.registry.deleteCascade targetID with
  | (.error e, registry) => (.error e, { s with registry := registry })
  | (.ok result, registry) =>
    (.ok result, { s with
      registry := registry
      refreshTokens := s.refreshTokens.filter fun row => row.userID ≠ targetID })

def exec : (o : TokenOp) → Accounts → o.Result × Accounts
  | .insert userID tokenHash expiresAt createdAt, s =>
    s.insertToken userID tokenHash expiresAt createdAt
  | .select tokenHash, s => (.ok (s.refreshTokens.find? (·.tokenHash = tokenHash)), s)
  | .slide tokenHash expiresAt, s =>
    (.ok (), s.updateLive tokenHash fun row => { row with expiresAt := expiresAt })
  | .revoke tokenHash revokedAt, s =>
    (.ok (), s.updateLive tokenHash fun row => { row with revokedAt := some revokedAt })
  | .deleteCascade targetID, s => s.deleteCascade targetID

/-- An operation of which the database reports an error has done nothing. -/
def sem : Semantics TokenOp TokenOp.Result Bool Accounts
  | .insert .., true, s => (.error .driver, s)
  | .select _, true, s => (.error .driver, s)
  | .slide .., true, s => (.error .driver, s)
  | .revoke .., true, s => (.error .driver, s)
  | .deleteCascade _, true, s => (.error .driver, s)
  | o, false, s => exec o s

end Accounts

inductive RefreshErr
  | invalid
  | expiry
  | store (err : StoreErr)
deriving DecidableEq

section
variable (hash : String → String)

/-- `Issue`, with the text that the random bytes encode to. -/
def issueToken (userID : Int) (plaintext : String) (now : Int) :
    Prog TokenOp TokenOp.Result (Except StoreErr String) :=
  .op (.insert userID (hash plaintext) (formatSeconds (truncateSecond now + refreshTTL))
    (formatRFC3339 now)) fun r => .pure (r.map fun _ => plaintext)

/-- `Validate`: read, judge, and slide. -/
def validateToken (plaintext : String) (now : Int) :
    Prog TokenOp TokenOp.Result (Except RefreshErr Int) :=
  .op (.select (hash plaintext)) fun
    | .error err => .pure (.error (.store err))
    | .ok none => .pure (.error .invalid)
    | .ok (some row) =>
      if row.revokedAt.isSome then .pure (.error .invalid)
      else
        match parseRFC3339 row.expiresAt with
        | none => .pure (.error .expiry)
        | some exp =>
          if exp ≤ truncateSecond now then .pure (.error .invalid)
          else
            .op (.slide (hash plaintext) (formatSeconds (truncateSecond now + refreshTTL))) fun
              | .error err => .pure (.error (.store err))
              | .ok () => .pure (.ok row.userID)

def revokeToken (plaintext : String) (now : Int) :
    Prog TokenOp TokenOp.Result (Except StoreErr Unit) :=
  .op (.revoke (hash plaintext) (formatRFC3339 now)) .pure

end

inductive TokenCall
  | issue (userID : Int) (plaintext : String) (now : Int)
  | validate (plaintext : String) (now : Int)
  | revoke (plaintext : String) (now : Int)
  | deleteUser (targetID : Int)
deriving DecidableEq

inductive TokenReply
  | issued (res : Except StoreErr String)
  | validated (res : Except RefreshErr Int)
  | revoked (res : Except StoreErr Unit)
  | deleted (res : Except StoreErr DeletionResult)

namespace TokenCall

def prog (hash : String → String) : TokenCall → Prog TokenOp TokenOp.Result TokenReply
  | issue userID plaintext now =>
    issueToken hash userID plaintext now >>= fun r => .pure (.issued r)
  | validate plaintext now => validateToken hash plaintext now >>= fun r => .pure (.validated r)
  | revoke plaintext now => revokeToken hash plaintext now >>= fun r => .pure (.revoked r)
  | deleteUser targetID => .op (.deleteCascade targetID) fun r => .pure (.deleted r)

def clock : TokenCall → Option Int
  | issue _ _ now | validate _ now | revoke _ now => some now
  | deleteUser _ => none

def text : TokenCall → Option String
  | issue _ plaintext _ | validate plaintext _ | revoke plaintext _ => some plaintext
  | deleteUser _ => none

end TokenCall

/-- The calls with their replies, the last one first, and the accounts they lead to. Any of
their operations may have failed. -/
inductive Accounts.History (hash : String → String) (s₀ : Accounts) :
    List (TokenCall × TokenReply) → Accounts → Prop
  | start : History hash s₀ [] s₀
  | call {trace : List (TokenCall × TokenReply)} {s s' : Accounts} (h : History hash s₀ trace s)
      (c : TokenCall) {tr : List (TokenOp × Bool)} {reply : TokenReply}
      (hrun : (c.prog hash).Runs Accounts.sem s tr reply s') : History hash s₀ ((c, reply) :: trace) s'

end LanWeave

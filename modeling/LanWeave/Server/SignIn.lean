import LanWeave.Server.ErrorCodes
import LanWeave.Server.RefreshTokens

/-! The endpoints in front of the sign-in: login, register, refresh and logout, as programs over
what they ask of the store and of the token issuer. -/

namespace LanWeave
open Library Prog

structure LoginRequest where
  username : String
  password : String

structure RegisterRequest where
  inviteCode : String
  username : String
  password : String

structure RefreshRequest where
  refreshToken : String

structure LogoutRequest where
  refreshToken : String

inductive SignInOp
  | getByUsername (username : String)
  | getByID (userID : Int)
  | issueJWT (id : Identity)
  | issueRefresh (userID : Int)
  | validateRefresh (token : String)
  | revokeRefresh (token : String)
  | register (username passwordHash inviteCode : String)

/-- What each of them comes to; `none` is an error of `Register` that has no name of its own. -/
abbrev SignInOp.Result : SignInOp → Type
  | getByUsername _ | getByID _ => Except StoreErr (Option User)
  | issueJWT _ => Option String
  | issueRefresh _ => Except StoreErr String
  | validateRefresh _ => Except RefreshErr Int
  | revokeRefresh _ => Except StoreErr Unit
  | register .. => Except (Option RegisterErr) User

inductive SignInAnswer
  | refused (r : Response)
  | login (token refreshToken : String)
  | refreshed (token : String)
  | registered (username : String) (isAdmin : Bool)
  | revoked

abbrev SignIn (α : Type) := Prog SignInOp SignInOp.Result α

inductive PasswordReason
  | charset
  | tooShort
  | tooLong
  | noUpper
  | noLower
  | noDigit

/-- `passwordpolicy.Validate`, `none` where the password is acceptable. -/
def validatePassword (pw : String) : Option PasswordReason :=
  if pw.toList.any fun c => c.toNat < 0x21 || 0x7e < c.toNat then some .charset
  else if byteLen pw < 8 then some .tooShort
  else if 64 < byteLen pw then some .tooLong
  else if !pw.toList.any (fun c => 'A' ≤ c && c ≤ 'Z') then some .noUpper
  else if !pw.toList.any (fun c => 'a' ≤ c && c ≤ 'z') then some .noLower
  else if !pw.toList.any isDigit then some .noDigit
  else none

def passwordPolicyMessage : PasswordReason → String
  | .charset => "Password may only contain ASCII letters, digits, and symbols (no spaces)."
  | .tooShort | .tooLong => "Password must be 8-64 characters."
  | _ => "Password must include an uppercase letter, a lowercase letter, and a digit."

namespace SignIn

def perform (o : SignInOp) : SignIn o.Result := .op o .pure

def refuse (r : Response) : SignIn SignInAnswer := return .refused r

def decoded {β : Type} (body : Option β) (k : β → SignIn SignInAnswer) : SignIn SignInAnswer :=
  match body with
  | none => refuse (validationError "Invalid request body.")
  | some req => k req

def invalidCredentials : Response :=
  writeJSONError 401 "invalid_credentials" "Invalid username or password."

def invalidRefreshToken : Response :=
  writeJSONError 401 "invalid_refresh_token" "Refresh token is invalid or expired."

section
variable {κ : Type} (h : Server κ)

def login (body : Option LoginRequest) : SignIn SignInAnswer :=
  decoded body fun req =>
  if req.username = "" ∨ req.password = "" then
    refuse (validationError "Username and password are required.")
  else do
    match ← perform (.getByUsername req.username) with
    | .error _ => refuse serverError
    | .ok none => refuse invalidCredentials
    | .ok (some u) =>
      if !h.verifyPassword req.password u.passwordHash then refuse invalidCredentials
      else
        match ← perform (.issueJWT ⟨u.id, u.username, u.isAdmin⟩) with
        | none => refuse serverError
        | some token =>
          match ← perform (.issueRefresh u.id) with
          | .error _ => refuse serverError
          | .ok refreshToken => return .login token refreshToken

def registerError : Option RegisterErr → Response
  | some .inviteInvalid =>
    writeJSONError 422 "invite_invalid" "Invite code is invalid or already used."
  | some .userExists => writeJSONError 409 "username_taken" "That username is already taken."
  | none => serverError

/-- `salt` is what crypto/rand yields, `none` where it fails. -/
def register (body : Option RegisterRequest) (salt : Option String) : SignIn SignInAnswer :=
  decoded body fun req =>
  let username := trimSpace req.username
  if username = "" ∨ 64 < byteLen username then
    refuse (validationError "Username must be 1-64 characters.")
  else
    match validatePassword req.password with
    | some reason => refuse (validationError (passwordPolicyMessage reason))
    | none =>
      if req.inviteCode = "" then refuse (validationError "An invite code is required.")
      else
        match salt with
        | none => refuse serverError
        | some salt => do
          match ← perform (.register username (h.hashPassword salt req.password) req.inviteCode) with
          | .error e => refuse (registerError e)
          | .ok u => return .registered u.username u.isAdmin

end

def refresh (body : Option RefreshRequest) : SignIn SignInAnswer :=
  decoded body fun req =>
  if req.refreshToken = "" then refuse (validationError "A refresh token is required.")
  else do
    match ← perform (.validateRefresh req.refreshToken) with
    | .error .invalid => refuse invalidRefreshToken
    | .error _ => refuse serverError
    | .ok userID =>
      match ← perform (.getByID userID) with
      | .error _ => refuse serverError
      | .ok none => refuse invalidRefreshToken
      | .ok (some u) =>
        match ← perform (.issueJWT ⟨u.id, u.username, u.isAdmin⟩) with
        | none => refuse serverError
        | some token => return .refreshed token

/-- To revoke a token that is unknown or revoked already is no error. -/
def logout (body : Option LogoutRequest) : SignIn SignInAnswer :=
  decoded body fun req =>
  if req.refreshToken = "" then refuse (validationError "A refresh token is required.")
  else do
    match ← perform (.revokeRefresh req.refreshToken) with
    | .error _ => refuse serverError
    | .ok () => return .revoked

def loginErrors : List (Nat × String) :=
  [(400, "validation_error"), (401, "invalid_credentials"), (500, "internal_error")]

def registerErrors : List (Nat × String) :=
  [(400, "validation_error"), (409, "username_taken"), (422, "invite_invalid"), (500, "internal_error")]

def refreshErrors : List (Nat × String) :=
  [(400, "validation_error"), (401, "invalid_refresh_token"), (500, "internal_error")]

def logoutErrors : List (Nat × String) := [(400, "validation_error"), (500, "internal_error")]

end SignIn

def SignInAnswer.Listed (errors : List (Nat × String)) : SignInAnswer → Prop
  | refused r => r.Listed errors
  | _ => True

namespace SignIn

section
variable {κ : Type} {h : Server κ} {errors : List (Nat × String)}

theorem listed_decoded {β : Type} {body : Option β} {k : β → SignIn SignInAnswer}
    (hinvalid : (400, "validation_error") ∈ errors) (hk : ∀ b, (k b).Returns (·.Listed errors)) :
    (decoded body k).Returns (·.Listed errors) := by
  cases body with
  | none => exact listed_error hinvalid
  | some b => exact hk b

theorem login_listed (body : Option LoginRequest) : (login h body).Returns (·.Listed loginErrors) := by
  apply listed_decoded (by simp [loginErrors])
  intro req
  split_ifs
  · exact listed_error (by simp [loginErrors])
  · apply returns_bind_right
    intro found
    cases found with
    | error _ => exact listed_error (by simp [loginErrors])
    | ok found =>
      cases found with
      | none => exact listed_error (by simp [loginErrors])
      | some u =>
        simp only
        split_ifs
        · exact listed_error (by simp [loginErrors])
        · apply returns_bind_right
          intro token
          cases token with
          | none => exact listed_error (by simp [loginErrors])
          | some token =>
            apply returns_bind_right
            intro refreshToken
            cases refreshToken with
            | error _ => exact listed_error (by simp [loginErrors])
            | ok _ => trivial

theorem registerError_listed (e : Option RegisterErr) : (registerError e).Listed registerErrors := by
  cases e with
  | none => exact listed_error (by simp [registerErrors])
  | some e => cases e <;> exact listed_error (by simp [registerErrors])

theorem register_listed (body : Option RegisterRequest) (salt : Option String) :
    (register h body salt).Returns (·.Listed registerErrors) := by
  apply listed_decoded (by simp [registerErrors])
  intro req
  simp only
  generalize trimSpace req.username = username
  split_ifs
  · exact listed_error (by simp [registerErrors])
  · cases validatePassword req.password with
    | some reason => exact listed_error (by simp [registerErrors])
    | none => exact listed_error (by simp [registerErrors])
  · cases validatePassword req.password with
    | some reason => exact listed_error (by simp [registerErrors])
    | none =>
      cases salt with
      | none => exact listed_error (by simp [registerErrors])
      | some salt =>
        apply returns_bind_right
        intro registered
        cases registered with
        | error e => exact registerError_listed e
        | ok _ => trivial

theorem refresh_listed (body : Option RefreshRequest) :
    (refresh body).Returns (·.Listed refreshErrors) := by
  apply listed_decoded (by simp [refreshErrors])
  intro req
  split_ifs
  · exact listed_error (by simp [refreshErrors])
  · apply returns_bind_right
    intro validated
    cases validated with
    | error e => cases e <;> exact listed_error (by simp [refreshErrors])
    | ok userID =>
      apply returns_bind_right
      intro found
      cases found with
      | error _ => exact listed_error (by simp [refreshErrors])
      | ok found =>
        cases found with
        | none => exact listed_error (by simp [refreshErrors])
        | some u =>
          apply returns_bind_right
          intro token
          cases token with
          | none => exact listed_error (by simp [refreshErrors])
          | some _ => trivial

theorem logout_listed (body : Option LogoutRequest) : (logout body).Returns (·.Listed logoutErrors) := by
  apply listed_decoded (by simp [logoutErrors])
  intro req
  split_ifs
  · exact listed_error (by simp [logoutErrors])
  · apply returns_bind_right
    intro revoked
    cases revoked with
    | error _ => exact listed_error (by simp [logoutErrors])
    | ok _ => trivial

end
end SignIn
end LanWeave

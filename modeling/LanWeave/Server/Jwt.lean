import LanWeave.Golang.Strings
import LanWeave.Golang.Time
import LanWeave.Server.Api
import Mathlib.Logic.Equiv.List

/-! The session tokens: what the manager puts into one, and what the middleware makes of the
header that carries it. The signing itself is a library's. -/

namespace LanWeave

/-- `jwtClaims`, its dates in whole seconds. -/
structure JwtClaims where
  username : String
  isAdmin : Bool
  subject : String
  issuedAt : Int
  expiresAt : Int

/-- The token library under the secret of one server. -/
structure Jwt where
  signedString : JwtClaims → Option String
  /-- `ParseWithClaims` for HS256, at a time. -/
  parseWithClaims : String → Int → Option JwtClaims

/-- What the library promises of the tokens it has signed. -/
structure Jwt.Lawful (jwt : Jwt) : Prop where
  signs : ∀ claims, (jwt.signedString claims).isSome = true
  parses : ∀ claims, ∀ token ∈ jwt.signedString claims, ∀ now, jwt.parseWithClaims token now =
    if now < claims.expiresAt * second then some claims else none
  solid : ∀ claims, ∀ token ∈ jwt.signedString claims, ∀ c ∈ token.toList, isSpace c = false

structure JWTManager where
  jwt : Jwt
  ttl : Int

namespace JWTManager
variable (m : JWTManager)

def issue (id : Identity) (now : Int) : Option String :=
  m.jwt.signedString
    ⟨id.username, id.isAdmin, toString id.userID, truncateSecond now, truncateSecond (now + m.ttl)⟩

def verify (token : String) (now : Int) : Option Identity :=
  match m.jwt.parseWithClaims token now with
  | none => none
  | some claims =>
    match parseInt64 claims.subject with
    | none => none
    | some userID => some ⟨userID, claims.username, claims.isAdmin⟩

/-- What `AuthRequired` makes of the Authorization header. -/
def authorized (authz : String) (now : Int) : Option Identity :=
  match cutPrefix authz "Bearer " with
  | none => none
  | some token => m.verify (trimSpace token) now

end JWTManager

namespace JWTManager
variable {m : JWTManager} (hjwt : m.jwt.Lawful)
include hjwt

theorem issue_isSome (id : Identity) (now : Int) : (m.issue id now).isSome = true := hjwt.signs _

theorem authorized_issue {id : Identity} {issuedAt : Int} {token : String}
    (hissue : m.issue id issuedAt = some token) (hid : inInt64 id.userID = true) (now : Int) :
    m.authorized ("Bearer " ++ token) now =
      if truncateSecond now < truncateSecond (issuedAt + m.ttl) then some id else none := by
  have htrim : trimSpace token = token := by
    have hnil : ∀ c ∈ ([] : List Char), isSpace c = true := fun _ hc => nomatch hc
    have h := trimSpace_append (hjwt.solid _ token hissue) hnil
    rwa [List.append_nil, String.ofList_toList] at h
  have hsubject : parseInt64 (toString id.userID) = some id.userID := by
    rw [parseInt64_toString, Option.filter_some, if_pos hid]
  rw [authorized, cutPrefix_append]
  simp only [htrim, verify, hjwt.parses _ token hissue, ← truncateSecond_lt_iff]
  split_ifs
  · simp only [hsubject]
  · rfl

end JWTManager
/-- The claims by numbers alone, which is what the tokens below consist of. -/
def JwtClaims.codes (c : JwtClaims) : List ℕ × Bool × List ℕ × Int × Int :=
  (c.username.toList.map Char.toNat, c.isAdmin, c.subject.toList.map Char.toNat, c.issuedAt, c.expiresAt)

def JwtClaims.ofCodes : List ℕ × Bool × List ℕ × Int × Int → JwtClaims
  | (username, isAdmin, subject, issuedAt, expiresAt) =>
    ⟨.ofList (username.map Char.ofNat), isAdmin, .ofList (subject.map Char.ofNat), issuedAt, expiresAt⟩

/-- A token library that writes the claims down as a number. -/
def labJwt : Jwt where
  signedString claims := some (Encodable.encode claims.codes).repr
  parseWithClaims token now :=
    match ((parseDigits token.toList).bind Encodable.decode :
      Option (List ℕ × Bool × List ℕ × Int × Int)) with
    | none => none
    | some codes =>
      if now < (JwtClaims.ofCodes codes).expiresAt * second then some (JwtClaims.ofCodes codes) else none

theorem JwtClaims.ofCodes_codes (c : JwtClaims) : ofCodes c.codes = c := by
  have hchars (s : String) : String.ofList ((s.toList.map Char.toNat).map Char.ofNat) = s := by
    have hid : Char.ofNat ∘ Char.toNat = id := by
      funext c
      exact Char.ofNat_toNat c
    rw [List.map_map, hid, List.map_id, String.ofList_toList]
  show JwtClaims.mk _ _ _ _ _ = _
  rw [hchars, hchars]

theorem labJwt_lawful : labJwt.Lawful where
  signs _ := rfl
  parses claims token htoken now := by
    obtain rfl := Option.some.inj htoken
    simp only [labJwt, parseDigits_repr, Option.bind_some, Encodable.encodek, JwtClaims.ofCodes_codes]
  solid claims token htoken c hc := by
    obtain rfl := Option.some.inj htoken
    exact (isSpace_of_isDigit (isDigit_of_mem_repr hc)).2

end LanWeave

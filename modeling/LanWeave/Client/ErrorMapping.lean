import LanWeave.Client.Gateway
import LanWeave.Golang.Url
import LanWeave.Library.Dialogue
import LanWeave.Library.Segments
import LanWeave.Server.Rebuild
import LanWeave.Server.SignIn

/-! What the client makes of the errors that the server's handlers report. -/

namespace LanWeave
open Library Prog

namespace ApiCall

/-- The path as text, which `mapError` searches. -/
def requestPath : ApiCall → String
  | register .. => "/api/v1/register"
  | login .. => "/api/v1/login"
  | refresh _ => "/api/v1/refresh"
  | logout _ => "/api/v1/logout"
  | me => "/api/v1/me"
  | registerNode .. | listNodes => "/api/v1/nodes"
  | deleteNode id => "/api/v1/nodes/" ++ toString id
  | serverInfo => "/api/v1/server"
  | createZone .. | listZones => "/api/v1/zones"
  | joinZone name .. => "/api/v1/zones/" ++ pathEscape name ++ "/join"
  | leaveZone name _ => "/api/v1/zones/" ++ pathEscape name ++ "/leave"
  | zoneMembers name => "/api/v1/zones/" ++ pathEscape name ++ "/members"
  | changeZonePassword name _ | deleteZone name => "/api/v1/zones/" ++ pathEscape name
  | kickMember name id => "/api/v1/zones/" ++ pathEscape name ++ "/members/" ++ toString id
  | createAnnouncement zone .. | listAnnouncements zone =>
    "/api/v1/zones/" ++ pathEscape zone ++ "/announcements"
  | deleteAnnouncement zone id =>
    "/api/v1/zones/" ++ pathEscape zone ++ "/announcements/" ++ toString id

def zone : ApiCall → Option String
  | joinZone name .. | leaveZone name _ | zoneMembers name | changeZonePassword name _ | deleteZone name
  | kickMember name _ | createAnnouncement name .. | deleteAnnouncement name _ | listAnnouncements name =>
    some name
  | _ => none

def endsWithZone : ApiCall → Bool
  | changeZonePassword .. | deleteZone _ => true
  | _ => false

def rename (name : String) : ApiCall → ApiCall
  | joinZone _ nodeID password => joinZone name nodeID password
  | leaveZone _ nodeID => leaveZone name nodeID
  | zoneMembers _ => zoneMembers name
  | changeZonePassword _ password => changeZonePassword name password
  | deleteZone _ => deleteZone name
  | kickMember _ nodeID => kickMember name nodeID
  | createAnnouncement _ nodeID subnet => createAnnouncement name nodeID subnet
  | deleteAnnouncement _ id => deleteAnnouncement name id
  | listAnnouncements _ => listAnnouncements name
  | c => c

/-- A device leaves a zone or is removed from it. -/
def endsMembership : ApiCall → Bool
  | leaveZone .. | kickMember .. => true
  | _ => false

/-- The name of the zone reads like a part of the path of `leaveZone` or `kickMember`. -/
def NameMisleads (c : ApiCall) : Prop :=
  ∃ name ∈ c.zone, "leave".toList <+: name.toList ∨ (name = "members" ∧ c.endsWithZone = false)

section
variable {c : ApiCall}

def segments (c : ApiCall) : List (List Char) :=
  "api".toList :: "v1".toList :: c.path.map fun s => (pathEscape s).toList

theorem joinSegments_toList (s : String) (segs : List (List Char)) :
    joinSegments '/' (s.toList :: segs) = ("/" ++ s).toList ++ joinSegments '/' segs := by
  rw [String.toList_append]
  rfl

theorem requestPath_toList : c.requestPath.toList = joinSegments '/' c.segments := by
  -- the words of the paths are not escaped, nor are the ids
  have hid (id : Int) : pathEscape (toString id) = toString id := pathEscape_self (unescaped_toString id)
  have hword {s : String} (h : s.toList.all unescaped = true) : pathEscape s = s := pathEscape_self h
  have hnodes := @hword "nodes" (by decide)
  have hzones := @hword "zones" (by decide)
  have hmembers := @hword "members" (by decide)
  have hannouncements := @hword "announcements" (by decide)
  have hempty : joinSegments '/' [] = "".toList := rfl
  -- what stands before a name or an id, segment by segment
  have htoNode (t : String) : "/api/v1/nodes/" ++ t = "/api" ++ ("/v1" ++ ("/nodes" ++ ("/" ++ t))) := by
    simp only [← String.append_assoc]
    rfl
  have htoZone (t : String) : "/api/v1/zones/" ++ t = "/api" ++ ("/v1" ++ ("/zones" ++ ("/" ++ t))) := by
    simp only [← String.append_assoc]
    rfl
  have htoMember (t : String) : "/members/" ++ t = "/members" ++ ("/" ++ t) := by
    rw [← String.append_assoc]
    rfl
  have htoAnnouncement (t : String) : "/announcements/" ++ t = "/announcements" ++ ("/" ++ t) := by
    rw [← String.append_assoc]
    rfl
  cases c <;> simp only [requestPath.eq_def, segments, path, List.map_cons, List.map_nil, hid,
    hnodes, hzones,
    hmembers, hannouncements, @hword "register" (by decide), @hword "login" (by decide),
    @hword "refresh" (by decide), @hword "logout" (by decide), @hword "me" (by decide),
    @hword "server" (by decide), @hword "join" (by decide), @hword "leave" (by decide),
    joinSegments_toList, hempty, ← String.toList_append, String.append_assoc, String.append_empty,
    htoNode, htoZone, htoMember, htoAnnouncement, String.reduceAppend]

theorem slash_not_mem_segments : ∀ s ∈ c.segments, '/' ∉ s := by
  intro s hs
  rcases List.mem_cons.mp hs with rfl | hs
  · decide
  · rcases List.mem_cons.mp hs with rfl | hs
    · decide
    · obtain ⟨seg, -, rfl⟩ := List.mem_map.mp hs
      exact slash_not_mem_pathEscape seg

theorem path_ne_nil : c.path ≠ [] := by cases c <;> exact List.cons_ne_nil _ _

/-- To search the path is to look at its segments, before these are escaped. -/
theorem leavesOrKicks_eq :
    c.leavesOrKicks = (contains c.requestPath "/leave" || contains c.requestPath "/members/") := by
  have hleave : contains c.requestPath "/leave" =
    c.path.any fun s => "leave".toList.isPrefixOf s.toList := by
    have hinfix : "/leave".toList <:+: c.requestPath.toList ↔
      ∃ s ∈ c.segments, "leave".toList <+: s := by
      rw [requestPath_toList]
      exact infix_joinSegments (by decide) slash_not_mem_segments
    rw [Bool.eq_iff_iff, contains, decide_eq_true_iff, hinfix, List.any_eq_true]
    constructor
    · intro h
      obtain ⟨s, hs, hpre⟩ := h
      rcases List.mem_cons.mp hs with rfl | hs
      · exact absurd hpre (by decide)
      · rcases List.mem_cons.mp hs with rfl | hs
        · exact absurd hpre (by decide)
        · obtain ⟨seg, hseg, rfl⟩ := List.mem_map.mp hs
          rw [prefix_pathEscape (by decide)] at hpre
          exact ⟨seg, hseg, List.isPrefixOf_iff_prefix.mpr hpre⟩
    · intro h
      obtain ⟨seg, hseg, hpre⟩ := h
      refine ⟨(pathEscape seg).toList, ?_, ?_⟩
      · exact List.mem_cons_of_mem _ (List.mem_cons_of_mem _ (List.mem_map_of_mem hseg))
      · rw [prefix_pathEscape (by decide)]
        exact List.isPrefixOf_iff_prefix.mp hpre
  have hmembers : contains c.requestPath "/members/" = c.path.dropLast.contains "members" := by
    have hinfix : "/members/".toList <:+: c.requestPath.toList ↔
        "members".toList ∈ c.segments.dropLast := by
      have hpat : '/' ∉ "members".toList := by decide
      rw [requestPath_toList]
      exact closed_infix_joinSegments hpat slash_not_mem_segments
    have hlast : c.segments.dropLast = "api".toList :: "v1".toList ::
        c.path.dropLast.map fun s => (pathEscape s).toList := by
      have hne : (c.path.map fun s => (pathEscape s).toList) ≠ [] :=
        fun h => path_ne_nil (List.map_eq_nil_iff.mp h)
      rw [segments, List.dropLast_cons_of_ne_nil (List.cons_ne_nil _ _),
        List.dropLast_cons_of_ne_nil hne, List.map_dropLast]
    rw [Bool.eq_iff_iff, contains, decide_eq_true_iff, hinfix, hlast, List.contains_iff_mem]
    constructor
    · intro h
      rcases List.mem_cons.mp h with h | h
      · exact absurd h (by decide)
      · rcases List.mem_cons.mp h with h | h
        · exact absurd h (by decide)
        · obtain ⟨seg, hseg, heq⟩ := List.mem_map.mp h
          rw [pathEscape_eq (by decide)] at heq
          rwa [← String.toList_injective heq]
    · intro h
      have hmem := List.mem_map_of_mem (f := fun s => (pathEscape s).toList) h
      rw [pathEscape_self (by decide)] at hmem
      exact List.mem_cons_of_mem _ (List.mem_cons_of_mem _ hmem)
  rw [hleave, hmembers, leavesOrKicks]

/-- The searches find what they are for, and what the name of a zone says. -/
theorem leavesOrKicks_iff : c.leavesOrKicks = true ↔ c.endsMembership = true ∨ c.NameMisleads := by
  -- an id is no word
  have hid (id : Int) : "leave".toList.isPrefixOf (toString id).toList = false := by
    rw [Bool.eq_false_iff, ne_eq, List.isPrefixOf_iff_prefix]
    intro h
    have hl : 'l' ∈ (toString id).toList := h.subset List.mem_cons_self
    rcases mem_toString hl with hminus | hdigit
    · exact absurd hminus (by decide)
    · exact absurd hdigit (by decide)
  have hword {s : String} (h : "leave".toList.isPrefixOf s.toList = false) :
      "leave".toList.isPrefixOf s.toList = false := h
  have hzones := @hword "zones" (by decide)
  have hmembers := @hword "members" (by decide)
  have hannouncements := @hword "announcements" (by decide)
  have hnodes := @hword "nodes" (by decide)
  have hleave : "leave".toList.isPrefixOf "leave".toList = true := by decide
  cases c <;> simp only [leavesOrKicks, path, endsMembership, NameMisleads, zone, endsWithZone,
    hid, hzones,
    hmembers, hannouncements, hnodes, hleave, @hword "register" (by decide), @hword "login" (by decide),
    @hword "refresh" (by decide), @hword "logout" (by decide), @hword "me" (by decide),
    @hword "server" (by decide), @hword "join" (by decide), List.any_cons, List.any_nil,
    List.dropLast_cons_cons, List.dropLast_singleton, List.contains_cons, List.contains_nil,
    Option.mem_some_iff, exists_eq_left', Bool.or_false, Bool.false_or, Bool.or_true, Bool.or_eq_true]
  all_goals
    simp [@eq_comm _ "members"]

end
/-- The error that a code of the server stands for, for the operation that it answers. -/
def denoted (c : ApiCall) (code : String) : ApiErr :=
  match code with
  | "unauthorized" => .sessionExpired
  | "invalid_credentials" | "invalid_refresh_token" => .authFailed
  | "invite_invalid" => .inviteInvalid
  | "username_taken" => .usernameTaken
  | "not_found" => if c.endsMembership then .notMember else .zoneNotFound
  | "forbidden" => .notOwner
  | "invalid_zone_or_password" => .zoneOrPassword
  | "node_name_taken" => .nodeNameTaken
  | "pubkey_taken" => .pubKeyTaken
  | "device_limit_reached" => .deviceLimitReached
  | "pool_exhausted" => .poolExhausted
  | "zone_name_taken" => .zoneNameTaken
  | "zone_limit_reached" => .ownedZoneLimitReached
  | "announce_disabled" => .announceDisabled
  | "platform_unsupported" => .platformUnsupported
  | "subnet_invalid" => .subnetInvalid
  | "subnet_overlap" => .subnetOverlap
  | "announce_limit_reached" => .announceLimit
  | "synthetic_pool_exhausted" => .syntheticPoolExhausted
  | _ => .server

/-- The statuses and codes that its handler reports, and the middleware in front of it. -/
def errors : ApiCall → List (Nat × String)
  | login .. => SignIn.loginErrors
  | register .. => SignIn.registerErrors
  | refresh _ => SignIn.refreshErrors
  | logout _ => SignIn.logoutErrors
  | _ => (401, "unauthorized") :: handlerErrors

end ApiCall

/-- The endpoint, with a body that does not decode. -/
def Endpoint.undecoded : Endpoint → Endpoint
  | .call (.registerNode _) => .call (.registerNode none)
  | .call (.createZone _ salt) => .call (.createZone none salt)
  | .call (.joinZone name _) => .call (.joinZone name none)
  | .call (.leaveZone name _) => .call (.leaveZone name none)
  | .call (.createAnnouncement name _) => .call (.createAnnouncement name none)
  | .changeZonePassword name _ salt => .changeZonePassword name none salt
  | e => e

namespace ApiCall

section
variable {κ : Type} (h : Handlers κ)

/-- The handler of the request can answer with this: whoever asks, and whatever its operations
come to. A body that is too large does not decode. -/
def Answers (c : ApiCall) (r : Response) : Prop :=
  match c with
  | login username password => ∃ body log, (body = none ∨ body = some ⟨username, password⟩) ∧
      (SignIn.login h.toServer body).Hears log (.refused r)
  | register inviteCode username password =>
    ∃ body salt log, (body = none ∨ body = some ⟨inviteCode, username, password⟩) ∧
      (SignIn.register h.toServer body salt).Hears log (.refused r)
  | refresh token => ∃ body log, (body = none ∨ body = some ⟨token⟩) ∧
      (SignIn.refresh body).Hears log (.refused r)
  | logout token => ∃ body log, (body = none ∨ body = some ⟨token⟩) ∧
      (SignIn.logout body).Hears log (.refused r)
  | c => ∃ salt e e' id log, c.endpoint salt = some e ∧ (e' = e ∨ e' = e.undecoded) ∧
      (answer h id e').Hears log (.plain r)

end

section
variable {κ : Type} {h : Handlers κ} {c : ApiCall} {r : Response}

theorem listed_of_answer {id : Option Identity} {e : Endpoint} {log : List (Sigma Act.Res)}
    (hlog : (answer h id e).Hears log (.plain r)) :
    r.Listed ((401, "unauthorized") :: handlerErrors) := by
  cases id with
  | none =>
    obtain ⟨-, heq⟩ := hlog
    injection heq with heq
    rw [heq]
    exact listed_error List.mem_cons_self
  | some i =>
    have hlisted : AnswerReported (.plain r) := (answer_reported e).of_hears hlog
    rcases hlisted with hok | ⟨status, code, message, rfl, hmem⟩
    · exact .inl hok
    · exact listed_error (List.mem_cons_of_mem _ hmem)

theorem Answers.listed (hr : c.Answers h r) : r.Listed c.errors := by
  cases c with
  | login =>
    obtain ⟨body, log, -, hlog⟩ := hr
    have hlisted := (SignIn.login_listed body).of_hears hlog
    exact hlisted
  | register =>
    obtain ⟨body, salt, log, -, hlog⟩ := hr
    have hlisted := (SignIn.register_listed body salt).of_hears hlog
    exact hlisted
  | refresh =>
    obtain ⟨body, log, -, hlog⟩ := hr
    have hlisted := (SignIn.refresh_listed body).of_hears hlog
    exact hlisted
  | logout =>
    obtain ⟨body, log, -, hlog⟩ := hr
    have hlisted := (SignIn.logout_listed body).of_hears hlog
    exact hlisted
  | _ =>
    obtain ⟨salt, e, e', id, log, -, -, hlog⟩ := hr
    exact listed_of_answer hlog

end

/-- The mapping takes the code for another one: an error of the registration, or a name for an
operation. -/
def Misread (c : ApiCall) (code : String) : Prop :=
  (c.path = ["register"] ∧ (code = "validation_error" ∨ code = "invite_invalid")) ∨
    (code = "not_found" ∧ c.endsMembership = false ∧ c.NameMisleads)

section
variable {c : ApiCall} {status : Nat} {code message : String}

theorem exact_notFound : mapError c 404 "not_found" message = c.denoted "not_found" ↔
    ¬(c.endsMembership = false ∧ c.NameMisleads) := by
  have hread := c.leavesOrKicks_iff
  show (if c.leavesOrKicks then ApiErr.notMember else .zoneNotFound) =
    (if c.endsMembership then ApiErr.notMember else .zoneNotFound) ↔ _
  cases hkind : c.endsMembership with
  | true =>
    rw [hread.mpr (.inl hkind)]
    simp
  | false =>
    rw [hkind] at hread
    cases hfound : c.leavesOrKicks with
    | true =>
      rw [hfound] at hread
      simp only [Bool.false_eq_true, false_or, true_iff] at hread
      simp [hread]
    | false =>
      rw [hfound] at hread
      simp only [Bool.false_eq_true, false_or, false_iff] at hread
      simp [hread]

theorem containsUser_username_taken : containsUser ("username_taken" ++ message) = true := by
  unfold containsUser toLower
  rw [String.toList_ofList, String.toList_append, List.map_append, List.any_eq_true]
  exact ⟨_, (List.mem_tails _ _).mpr (List.suffix_refl _), rfl⟩

theorem exact_signedIn (hauth : c.auth = true) (hpath : c.path ≠ ["register"])
    (hmem : (status, code) ∈ (401, "unauthorized") :: handlerErrors) :
    mapError c status code message = c.denoted code ↔ ¬c.Misread code := by
  simp only [handlerErrors, List.mem_cons, List.not_mem_nil, or_false, Prod.mk.injEq] at hmem
  by_cases hcode : code = "not_found"
  · obtain rfl : status = 404 := by
      rw [hcode] at hmem
      simpa using hmem
    subst hcode
    rw [exact_notFound, Misread, or_iff_right fun h => hpath h.1, and_iff_right rfl]
  · have hread : ¬c.Misread code := by
      rw [Misread, not_or]
      exact ⟨fun h => hpath h.1, fun h => hcode h.1⟩
    refine iff_of_true ?_ hread
    rcases hmem with h | h | h | h | h | h | h | h | h | h | h | h | h | h | h | h | h | h | h | h <;>
      obtain ⟨rfl, rfl⟩ := h <;> simp [mapError, denoted, envelopeErr, hauth, hpath] at hcode ⊢

theorem exact_iff (hmem : (status, code) ∈ c.errors) :
    mapError c status code message = c.denoted code ↔ ¬c.Misread code := by
  cases c with
  | register =>
    simp only [errors, SignIn.registerErrors, List.mem_cons, List.not_mem_nil, or_false,
      Prod.mk.injEq] at hmem
    rcases hmem with h | h | h | h <;> obtain ⟨rfl, rfl⟩ := h <;>
      simp [mapError, denoted, envelopeErr, Misread, path, endsMembership, containsUser_username_taken]
  | login | refresh =>
    simp only [errors, SignIn.loginErrors, SignIn.refreshErrors, List.mem_cons, List.not_mem_nil,
      or_false, Prod.mk.injEq] at hmem
    rcases hmem with h | h | h <;> obtain ⟨rfl, rfl⟩ := h <;>
      simp [mapError, denoted, envelopeErr, Misread, path, endsMembership, auth]
  | logout =>
    simp only [errors, SignIn.logoutErrors, List.mem_cons, List.not_mem_nil, or_false,
      Prod.mk.injEq] at hmem
    rcases hmem with h | h <;> obtain ⟨rfl, rfl⟩ := h <;>
      simp [mapError, denoted, envelopeErr, Misread, path, endsMembership]
  | _ => exact exact_signedIn rfl (by simp [path]) hmem

theorem errors_rename (name : String) : (c.rename name).errors = c.errors := by cases c <;> rfl

theorem denoted_rename (name : String) : (c.rename name).denoted code = c.denoted code := by
  cases c <;> rfl

end

variable {κ : Type} {h : Handlers κ} {c : ApiCall} {status : Nat} {code message : String}

/-- An error that a handler can report is mapped to the one that it denotes, and to the same one if
the zone had another name, exactly if no code of the registration and no name misleads. -/
theorem mapError_exact_iff (hanswers : c.Answers h (writeJSONError status code message))
    (herr : 400 ≤ status) (name : String) :
    (mapError c status code message = c.denoted code ∧
        mapError (c.rename name) status code message = mapError c status code message) ↔
      ¬c.Misread code ∧ ¬(c.rename name).Misread code := by
  have hmem : (status, code) ∈ c.errors := hanswers.listed.mem herr
  have hsame : (c.rename name).denoted code = c.denoted code := denoted_rename name
  have hhere : mapError c status code message = c.denoted code ↔ ¬c.Misread code := exact_iff hmem
  have hmem' : (status, code) ∈ (c.rename name).errors := by rwa [errors_rename]
  have hthere : mapError (c.rename name) status code message = (c.rename name).denoted code ↔
      ¬(c.rename name).Misread code := exact_iff hmem'
  rw [← hhere, ← hthere, hsame]
  constructor
  · intro hboth
    exact ⟨hboth.1, hboth.2.trans hboth.1⟩
  · intro hboth
    exact ⟨hboth.1, hboth.2.trans hboth.1.symm⟩

/-- The members of a zone that is not there, asked for under two names. -/
theorem mapError_exact_iff_zoneMembers :
    (mapError (zoneMembers "lab") 404 "not_found" "Not found." =
      (zoneMembers "lab").denoted "not_found" ∧
        mapError ((zoneMembers "lab").rename "leave-it") 404 "not_found" "Not found." =
          mapError (zoneMembers "lab") 404 "not_found" "Not found.") ↔
      ¬(zoneMembers "lab").Misread "not_found" ∧
        ¬((zoneMembers "lab").rename "leave-it").Misread "not_found" := by
  refine @mapError_exact_iff String labServer.bare (zoneMembers "lab") 404 "not_found" "Not found." ?_
    (by decide) "leave-it"
  exact ⟨none, _, _, some ⟨1, "alice", false⟩, _, rfl, .inl rfl, .ok none, _, rfl, rfl, rfl⟩

/-- The names that `createZone` accepts, as it keeps them. -/
def acceptedName (name : String) : Bool :=
  trimSpace name = name && name ≠ "" && byteLen name ≤ 64

/-- An invite that is refused, and a zone that is not there, are taken for something else. -/
theorem invite_and_name_misread :
    (Answers labServer.bare (register "used" "carol" "Carolpass123")
        (writeJSONError 422 "invite_invalid" "Invite code is invalid or already used.") ∧
      mapError (register "used" "carol" "Carolpass123") 422 "invite_invalid"
        "Invite code is invalid or already used." ≠ .inviteInvalid) ∧
    (acceptedName "leave-it" = true ∧
      Answers labServer.bare (zoneMembers "leave-it") (writeJSONError 404 "not_found" "Not found.") ∧
      mapError (zoneMembers "leave-it") 404 "not_found" "Not found." ≠ .zoneNotFound ∧
      mapError (zoneMembers "lab") 404 "not_found" "Not found." = .zoneNotFound) := by
  have hname : trimSpace "carol" = "carol" := by decide
  have hpassword : validatePassword "Carolpass123" = none := by decide
  have hregister : ∃ log, (SignIn.register labServer.bare.toServer
      (some ⟨"used", "carol", "Carolpass123"⟩) (some "salt")).Hears log
        (.refused (SignIn.registerError (some .inviteInvalid))) := by
    simp only [SignIn.register, SignIn.decoded, hname, hpassword]
    rw [if_neg (by decide), if_neg (by decide)]
    exact ⟨_, .error (some .inviteInvalid), _, rfl, rfl, rfl⟩
  obtain ⟨log, hlog⟩ := hregister
  refine ⟨⟨⟨_, some "salt", log, .inr rfl, hlog⟩, by decide⟩, by decide, ?_, by decide, by decide⟩
  exact ⟨none, _, _, some ⟨1, "alice", false⟩, _, rfl, .inl rfl, .ok none, _, rfl, rfl, rfl⟩

end ApiCall
end LanWeave

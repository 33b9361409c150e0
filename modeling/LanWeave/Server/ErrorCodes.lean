import LanWeave.Server.Endpoints

/-! The errors that the handlers report. Behind the sign-in none of them is a 401. -/

namespace LanWeave
open Library Prog

/-- The status and the code of each error of a handler behind the sign-in. -/
def handlerErrors : List (Nat × String) :=
  [(400, "validation_error"), (400, "subnet_invalid"), (403, "forbidden"),
    (403, "invalid_zone_or_password"), (403, "cannot_delete_self"), (404, "not_found"),
    (409, "node_name_taken"), (409, "pubkey_taken"), (409, "device_limit_reached"),
    (409, "zone_name_taken"), (409, "zone_limit_reached"), (409, "platform_unsupported"),
    (409, "subnet_overlap"), (409, "announce_limit_reached"), (409, "last_admin"),
    (500, "internal_error"), (503, "pool_exhausted"), (503, "announce_disabled"),
    (503, "synthetic_pool_exhausted")]

/-- The response is no error, or one of these. -/
def Response.Listed (errors : List (Nat × String)) (r : Response) : Prop :=
  r.isError = false ∨ ∃ status code message, r = writeJSONError status code message ∧
    (status, code) ∈ errors

def Answer.Listed (errors : List (Nat × String)) : Answer → Prop
  | .plain r => r.Listed errors
  | _ => True

section
variable {errors : List (Nat × String)} {status : Nat} {code message : String}

theorem listed_error (h : (status, code) ∈ errors) :
    (writeJSONError status code message).Listed errors :=
  .inr ⟨status, code, message, rfl, h⟩

theorem Response.Listed.mem (h : (writeJSONError status code message).Listed errors)
    (herr : 400 ≤ status) :
    (status, code) ∈ errors := by
  rcases h with hok | ⟨status', code', message', heq, hmem⟩
  · exact absurd (decide_eq_true herr) (Bool.eq_false_iff.mp hok)
  · injection heq with hstatus hbody
    injection hbody with hcode
    rw [hstatus, hcode]
    exact hmem

end

abbrev Reported (r : Response) : Prop := r.Listed handlerErrors

theorem reported_serverError : Reported serverError := listed_error (by simp [handlerErrors])

theorem reported_notFound (message : String) : Reported (notFound message) :=
  listed_error (by simp [handlerErrors])

theorem reported_validationError (message : String) : Reported (validationError message) :=
  listed_error (by simp [handlerErrors])

section
variable {k : Zone → Handler Response}

theorem reported_decoded {β : Type} {body : Option β} {k : β → Handler Response}
    (hk : ∀ b, (k b).Returns Reported) : (decoded body k).Returns Reported := by
  cases body with
  | none => exact reported_validationError _
  | some b => exact hk b

theorem reported_namedZone {name : String} {absent : Response} (habsent : Reported absent)
    (hk : ∀ zone, (k zone).Returns Reported) : (namedZone name absent k).Returns Reported := by
  intro found
  cases found with
  | error _ => exact reported_serverError
  | ok found =>
    cases found with
    | none => exact habsent
    | some zone => exact hk zone

theorem reported_ownedNode {userID nodeID : Int} {message : String} {k : Node → Handler Response}
    (hk : ∀ node, (k node).Returns Reported) : (ownedNode userID nodeID message k).Returns Reported := by
  intro found
  cases found with
  | error err =>
    cases err with
    | nodeNotFound => exact reported_notFound _
    | _ => exact reported_serverError
  | ok node => exact hk node

theorem reported_ownedZone {name : String} {userID : Int} (hk : ∀ zone, (k zone).Returns Reported) :
    (ownedZone name userID k).Returns Reported := by
  apply reported_namedZone (reported_notFound _)
  intro zone
  split_ifs
  · exact listed_error (by simp [handlerErrors])
  · exact hk zone

theorem reported_memberZone {name : String} {userID : Int} (hk : ∀ zone, (k zone).Returns Reported) :
    (memberZone name userID k).Returns Reported := by
  apply reported_namedZone (reported_notFound _)
  intro zone participates
  cases participates with
  | error _ => exact reported_serverError
  | ok participates =>
    cases participates with
    | false => exact reported_notFound _
    | true => exact hk zone

theorem reported_pathID {value message : String} {k : Int → Handler Response}
    (hk : ∀ id, (k id).Returns Reported) : (pathID value message k).Returns Reported := by
  unfold pathID
  cases parseInt64 value with
  | none => exact reported_notFound _
  | some id => exact hk id

theorem reported_salted {salt : Option String} {k : String → Handler Response}
    (hk : ∀ salt, (k salt).Returns Reported) : (salted salt k).Returns Reported := by
  cases salt with
  | none => exact reported_serverError
  | some salt => exact hk salt

end

section
variable {κ : Type} {h : Server κ} {i : Identity}

theorem reported_createNodeError (e : StoreErr) : Reported (createNodeError e) := by
  cases e <;> exact listed_error (by simp [handlerErrors])

theorem reported_createZoneError (e : StoreErr) : Reported (createZoneError e) := by
  cases e <;> exact listed_error (by simp [handlerErrors])

theorem reported_createAnnouncementError (e : StoreErr) : Reported (createAnnouncementError e) := by
  cases e <;> exact listed_error (by simp [handlerErrors])

theorem reported_deleteCascadeError (e : StoreErr) : Reported (deleteCascadeError e) := by
  cases e <;> exact listed_error (by simp [handlerErrors])

theorem reported_addNodePeer (node : Node) : (addNodePeer i node).Returns Reported := by
  apply returns_bind_right
  intro added
  cases added with
  | error _ =>
    exact returns_bind_right fun _ => reported_serverError
  | ok _ => exact .inl rfl

theorem reported_registerNode (body : Option RegisterNodeRequest) :
    (registerNode h (some i) body).Returns Reported := by
  apply reported_decoded
  intro req
  simp only
  generalize (if req.platform = "" then "unknown" else req.platform) = platform
  generalize trimSpace req.name = name
  split_ifs
  · exact reported_validationError _
  · exact reported_validationError _
  · exact reported_validationError _
  · cases poolRange h.network with
    | none => exact reported_serverError
    | some range =>
      apply returns_bind_right
      intro created
      cases created with
      | error e => exact reported_createNodeError e
      | ok node => exact reported_addNodePeer node

theorem reported_deleteNode (path : String) : (deleteNode (some i) path).Returns Reported := by
  apply reported_pathID
  intro nodeID
  apply reported_ownedNode
  intro node
  apply returns_bind_right
  intro zones
  cases zones with
  | error _ => exact reported_serverError
  | ok zones =>
    apply returns_bind_right
    intro attachments
    cases attachments with
    | error _ => exact reported_serverError
    | ok attachments =>
      apply returns_bind_right
      intro deleted
      cases deleted with
      | error e =>
        cases e with
        | nodeNotFound => exact reported_notFound _
        | _ => exact reported_serverError
      | ok _ =>
        apply returns_bind_right
        intro _
        apply returns_bind_right
        intro _
        apply returns_bind_right
        exact fun _ => .inl rfl

theorem reported_joinCreator {zoneID : Int} {node : Node} {created : Response}
    (hcreated : Reported created) :
    (joinCreator zoneID node created).Returns Reported := by
  apply returns_bind_right
  intro joined
  cases joined with
  | error _ =>
    exact returns_bind_right fun _ => reported_serverError
  | ok _ =>
    apply returns_bind_right
    intro added
    cases added with
    | error _ =>
      exact returns_bind_right fun _ => reported_serverError
    | ok _ => exact hcreated

theorem reported_createZone (body : Option CreateZoneRequest) (salt : Option String) :
    (createZone h (some i) body salt).Returns Reported := by
  have hfor (name hash : String) (member : Option Node) :
      (createZoneFor h i name hash member).Returns Reported := by
    apply returns_bind_right
    intro created
    cases created with
    | error e => exact reported_createZoneError e
    | ok zoneID =>
      apply returns_bind_right
      intro added
      cases added with
      | error _ => exact returns_bind_right fun _ => reported_serverError
      | ok _ =>
        cases member with
        | none => exact .inl rfl
        | some node => exact reported_joinCreator (.inl rfl)
  apply reported_decoded
  intro req
  simp only
  generalize trimSpace req.name = name
  split_ifs
  · exact reported_validationError _
  · exact reported_validationError _
  · unfold autoJoinNode
    split_ifs
    · exact reported_salted fun _ => hfor _ _ _
    · exact reported_ownedNode fun _ => reported_salted fun _ => hfor _ _ _

theorem reported_joinNode (zone : Zone) (node : Node) : (joinNode zone node).Returns Reported := by
  apply returns_bind_right
  intro joined
  cases joined with
  | error _ => exact reported_serverError
  | ok _ =>
    apply returns_bind_right
    intro added
    cases added with
    | error _ => exact returns_bind_right fun _ => reported_serverError
    | ok _ => exact .inl rfl

theorem reported_joinZone (name : String) (body : Option JoinZoneRequest) :
    (joinZone h (some i) name body).Returns Reported := by
  have hrefused : Reported zoneOrPassword := listed_error (by simp [handlerErrors])
  apply reported_decoded
  intro req
  split_ifs
  · exact reported_validationError _
  · apply reported_namedZone hrefused
    intro zone
    split_ifs
    · exact hrefused
    · exact reported_ownedNode fun node => reported_joinNode zone node

theorem reported_removeFromZone (zone : Zone) (node : Node) :
    (removeFromZone zone node).Returns Reported := by
  apply returns_bind_right
  intro left
  cases left with
  | error e =>
    cases e with
    | notMember => exact reported_notFound _
    | _ => exact reported_serverError
  | ok _ =>
    apply returns_bind_right
    intro _
    apply returns_bind_right
    exact fun _ => .inl rfl

theorem reported_leaveZone (name : String) (body : Option LeaveZoneRequest) :
    (leaveZone (some i) name body).Returns Reported := by
  apply reported_decoded
  intro req
  apply reported_namedZone (reported_notFound _)
  exact fun zone => reported_ownedNode fun node => reported_removeFromZone zone node

theorem reported_kickMember (name path : String) : (kickMember (some i) name path).Returns Reported := by
  apply reported_ownedZone
  intro zone
  apply reported_pathID
  intro nodeID
  apply returns_bind_right
  intro found
  cases found with
  | error e =>
    cases e with
    | nodeNotFound => exact reported_notFound _
    | _ => exact reported_serverError
  | ok node => exact reported_removeFromZone zone node

theorem reported_deleteZone (name : String) : (deleteZone (some i) name).Returns Reported := by
  apply reported_ownedZone
  intro zone
  apply returns_bind_right
  intro detached
  cases detached with
  | error _ => exact reported_serverError
  | ok dets =>
    apply returns_bind_right
    intro deleted
    cases deleted with
    | error _ => exact reported_serverError
    | ok _ =>
      apply returns_bind_right
      intro _
      apply returns_bind_right
      exact fun _ => .inl rfl

theorem reported_announceSubnet (zone : Zone) (node : Node) (subnet pool : Prefix) :
    (announceSubnet h i zone node subnet pool).Returns Reported := by
  apply returns_bind_right
  intro created
  cases created with
  | error e => exact reported_createAnnouncementError e
  | ok created =>
    obtain ⟨ann, attached⟩ := created
    cases attached with
    | false => exact .inl rfl
    | true =>
      apply returns_bind_right
      intro grown
      cases grown with
      | false => exact reported_serverError
      | true => exact .inl rfl

theorem reported_createAnnouncement (name : String) (body : Option CreateAnnouncementRequest) :
    (createAnnouncement h (some i) name body).Returns Reported := by
  apply reported_memberZone
  intro zone
  apply reported_decoded
  intro req
  cases h.announcePool with
  | none => exact listed_error (by simp [handlerErrors])
  | some pool =>
    apply reported_ownedNode
    intro node
    split_ifs
    · exact listed_error (by simp [handlerErrors])
    · cases parsePrefix4 req.subnet with
      | none => exact reported_validationError _
      | some p =>
        simp only
        cases validAnnouncedSubnet h p.masked with
        | some message => exact listed_error (by simp [handlerErrors])
        | none => exact reported_announceSubnet zone node p.masked pool

theorem reported_deleteAnnouncement (name path : String) :
    (deleteAnnouncement (some i) name path).Returns Reported := by
  apply reported_memberZone
  intro zone
  apply reported_pathID
  intro annID
  apply returns_bind_right
  intro found
  cases found with
  | error e =>
    cases e with
    | announcementNotFound => exact reported_notFound _
    | _ => exact reported_serverError
  | ok ann =>
    apply returns_bind_right
    intro node
    cases node with
    | error _ => exact reported_serverError
    | ok node =>
      simp only
      split_ifs
      · exact reported_notFound _
      · apply returns_bind_right
        intro detached
        cases detached with
        | error e =>
          cases e with
          | announcementNotFound => exact reported_notFound _
          | _ => exact reported_serverError
        | ok detached =>
          apply returns_bind_right
          intro _
          split_ifs
          · exact returns_bind_right fun _ => .inl rfl
          · exact .inl rfl

theorem reported_deleteUser (path : String) : (deleteUser (some i) path).Returns Reported := by
  apply reported_pathID
  intro targetID
  split_ifs
  · exact listed_error (by simp [handlerErrors])
  · apply returns_bind_right
    intro deleted
    cases deleted with
    | error e => exact reported_deleteCascadeError e
    | ok result =>
      simp only
      apply returns_bind_right
      intro _
      apply returns_bind_right
      intro _
      apply returns_bind_right
      intro _
      apply returns_bind_right
      intro _
      apply returns_bind_right
      exact fun _ => .inl rfl

theorem reported_handle (call : Call) : (handle h ⟨some i, call⟩).Returns Reported := by
  cases call with
  | registerNode body => exact reported_registerNode body
  | deleteNode path => exact reported_deleteNode path
  | createZone body salt => exact reported_createZone body salt
  | joinZone name body => exact reported_joinZone name body
  | leaveZone name body => exact reported_leaveZone name body
  | kickMember name path => exact reported_kickMember name path
  | deleteZone name => exact reported_deleteZone name
  | createAnnouncement name body => exact reported_createAnnouncement name body
  | deleteAnnouncement name path => exact reported_deleteAnnouncement name path
  | deleteUser path => exact reported_deleteUser path

end

section
variable {κ : Type} {h : Handlers κ} {i : Identity}

abbrev AnswerReported (a : Answer) : Prop := a.Listed handlerErrors

theorem answerReported_plain {p : Handler Response} (hp : p.Returns Reported) :
    (plain p).Returns AnswerReported := by
  apply Returns.bind
  apply Returns.lift
  exact hp

theorem answerReported_rows {β : Type} {query : Service (Except StoreErr β)} {k : β → Answer}
    (hk : ∀ b, AnswerReported (k b)) : (Service.rows query k).Returns AnswerReported := by
  apply returns_bind_right
  intro res
  cases res with
  | error _ => exact reported_serverError
  | ok b => exact hk b

theorem answerReported_namedZone {name : String} {k : Zone → Service Answer}
    (hk : ∀ zone, (k zone).Returns AnswerReported) :
    (Service.namedZone name k).Returns AnswerReported := by
  intro found
  cases found with
  | error _ => exact reported_serverError
  | ok found =>
    cases found with
    | none => exact reported_notFound _
    | some zone => exact hk zone

theorem answerReported_memberZone {name : String} {userID : Int} {k : Zone → Service Answer}
    (hk : ∀ zone, (k zone).Returns AnswerReported) :
    (Service.memberZone name userID k).Returns AnswerReported := by
  apply answerReported_namedZone
  intro zone participates
  cases participates with
  | error _ => exact reported_serverError
  | ok participates =>
    cases participates with
    | false => exact reported_notFound _
    | true => exact hk zone

theorem answerReported_changeZonePassword (name : String) (body : Option ChangeZonePasswordRequest)
    (salt : Option String) : (changeZonePassword h i name body salt).Returns AnswerReported := by
  apply answerReported_namedZone
  intro zone
  split_ifs
  · exact listed_error (by simp [handlerErrors])
  · cases body with
    | none => exact reported_validationError _
    | some req =>
      simp only
      split_ifs
      · exact reported_validationError _
      · cases salt with
        | none => exact reported_serverError
        | some salt =>
          intro updated
          cases updated with
          | error _ => exact reported_serverError
          | ok _ => exact .inl rfl

theorem answerReported_admin {k : Service Answer} (hk : k.Returns AnswerReported) :
    (Service.admin i k).Returns AnswerReported := by
  unfold Service.admin
  split_ifs
  · exact listed_error (by simp [handlerErrors])
  · exact hk

theorem answer_reported (e : Endpoint) : (answer h (some i) e).Returns AnswerReported := by
  cases e with
  | call c =>
    cases c with
    | deleteUser path => exact answerReported_admin (answerReported_plain (reported_deleteUser path))
    | _ => exact answerReported_plain (reported_handle _)
  | me => trivial
  | serverInfo => trivial
  | listNodes => exact answerReported_rows fun _ => trivial
  | listZones => exact answerReported_rows fun _ => trivial
  | zoneMembers name => exact answerReported_memberZone fun _ => answerReported_rows fun _ => trivial
  | listAnnouncements name =>
    exact answerReported_memberZone fun _ => answerReported_rows fun _ => trivial
  | changeZonePassword name body salt => exact answerReported_changeZonePassword name body salt
  | createInvite now draw =>
    apply answerReported_admin
    apply returns_bind_right
    intro created
    cases created with
    | error _ => exact reported_serverError
    | ok _ => trivial
  | listInvites => exact answerReported_admin (answerReported_rows fun _ => trivial)

end
end LanWeave

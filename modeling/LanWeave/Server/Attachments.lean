import LanWeave.Server.Issued
import LanWeave.Server.Rebuild
import LanWeave.Server.Walk

/-! Attachment implies membership: which operations can break it, and what the handlers do
about it when any operation may fail. -/

namespace LanWeave
open Library Ledger

namespace DB

/-- The announcement is attached to a zone its node is no member of. -/
def Unmatched (db : DB) (x : Announcement × Int) : Prop :=
  x.1 ∈ db.announcements ∧ ⟨x.1.id, x.2⟩ ∈ db.announcementZones ∧
    ⟨x.2, x.1.nodeID⟩ ∉ db.zoneMembers

/-- Each row of `announcement_zones` has a row of `zone_members` for its node. -/
def AttachmentsMatch (db : DB) : Prop :=
  ∀ az ∈ db.announcementZones, ∀ a ∈ db.announcements, a.id = az.announcementID →
    ⟨az.zoneID, a.nodeID⟩ ∈ db.zoneMembers

/-- No announcement of the node is attached to the zone. -/
def NoneAttached (db : DB) (nodeID zoneID : Int) : Prop :=
  ∀ a ∈ db.announcements, a.nodeID = nodeID → ⟨a.id, zoneID⟩ ∉ db.announcementZones

variable {db db' : DB} {x : Announcement × Int}

theorem attachmentsMatch_iff : db.AttachmentsMatch ↔ ∀ x, ¬ db.Unmatched x := by
  constructor
  · rintro h ⟨a, z⟩ ⟨ha, haz, hm⟩
    exact hm (h ⟨a.id, z⟩ haz a ha rfl)
  · rintro h ⟨annID, z⟩ haz a ha rfl
    by_contra hm
    exact h (a, z) ⟨ha, haz, hm⟩

theorem Sub.unmatched (hs : Sub db' db) (hm : ∀ a ∈ db'.announcements, ∀ z,
      ⟨a.id, z⟩ ∈ db'.announcementZones → ⟨z, a.nodeID⟩ ∈ db.zoneMembers →
      ⟨z, a.nodeID⟩ ∈ db'.zoneMembers) (h : db'.Unmatched x) : db.Unmatched x :=
  ⟨hs.announcements.subset h.1, hs.announcementZones.subset h.2.1,
    fun hmem => h.2.2 (hm _ h.1 _ h.2.1 hmem)⟩

theorem unmatched_deleteNodes {p : Node → Bool} (h : (db.deleteNodes p).Unmatched x) :
    db.Unmatched x := by
  refine (sub_deleteNodes db p).unmatched (fun a ha z _ hm => ?_) h
  exact mem_deleteNodes_members.mpr ⟨hm, (mem_deleteNodes_announcements.mp ha).2⟩

theorem unmatched_deleteZones {p : Zone → Bool} (h : (db.deleteZones p).Unmatched x) :
    db.Unmatched x := by
  refine (sub_deleteZones db p).unmatched (fun a _ z haz hm => ?_) h
  exact mem_deleteZones_members.mpr ⟨hm, (mem_deleteZones_attachments.mp haz).2⟩

theorem unmatched_deleteAnnouncements {p : Announcement → Bool}
    (h : (db.deleteAnnouncements p).Unmatched x) : db.Unmatched x :=
  (sub_deleteAnnouncements db p).unmatched (fun _ _ _ _ hm => hm) h

theorem unmatched_deleteAttachments {p : AnnouncementZone → Bool}
    (h : (db.deleteAttachments p).Unmatched x) : db.Unmatched x :=
  (sub_deleteAttachments db p).unmatched (fun _ _ _ _ hm => hm) h

theorem unmatched_deleteUser {userID : Int} (h : (db.deleteUser userID).Unmatched x) :
    db.Unmatched x := unmatched_deleteNodes (unmatched_deleteZones h)

theorem unmatched_reclaimIfOrphaned {annID : Int} (h : (db.reclaimIfOrphaned annID).2.Unmatched x) :
    db.Unmatched x := by
  unfold reclaimIfOrphaned at h
  split_ifs at h
  · exact h
  · exact unmatched_deleteAnnouncements h

theorem unmatched_detachOne {annID zoneID : Int} (h : (db.detachOne annID zoneID).Unmatched x) :
    db.Unmatched x := unmatched_deleteAttachments (unmatched_reclaimIfOrphaned h)

theorem unmatched_detachEach {zoneID : Int} {recs : List Announcement}
    (h : (detachEach zoneID recs db).2.Unmatched x) : db.Unmatched x := by
  induction recs generalizing db with
  | nil => exact h
  | cons a recs ih => exact unmatched_detachOne (ih h)

theorem unmatched_reclaimEach {zoneID : Int} {dets : List Announcement}
    (h : (reclaimEach zoneID dets db).2.Unmatched x) : db.Unmatched x := by
  induction dets generalizing db with
  | nil => exact h
  | cons a dets ih => exact unmatched_reclaimIfOrphaned (ih h)

theorem unmatched_deleteCascade {targetID : Int} (h : (db.deleteCascade targetID).2.Unmatched x) :
    db.Unmatched x := by
  rcases deleteCascade_cases db targetID with hc | ⟨_, -, -, -, -, -, _, -, -, hdb⟩
  · exact hc.1 ▸ h
  · rw [hdb] at h
    exact unmatched_deleteUser (unmatched_deleteAnnouncements h)

/-- A membership taken away spoils the node's attachments to that zone. -/
theorem unmatched_deleteMember {m : ZoneMember} (h : (db.deleteMember m).Unmatched x) :
    db.Unmatched x ∨ x.2 = m.zoneID ∧ x.1.nodeID = m.nodeID := by
  by_cases hx : (⟨x.2, x.1.nodeID⟩ : ZoneMember) = m
  · exact .inr ⟨congrArg ZoneMember.zoneID hx, congrArg ZoneMember.nodeID hx⟩
  · exact .inl ⟨h.1, h.2.1, fun hm => h.2.2 (List.mem_filter.mpr ⟨hm, by simpa using hx⟩)⟩

theorem unmatched_leave {zoneID nodeID : Int} (h : (db.leave zoneID nodeID).2.Unmatched x) :
    db.Unmatched x ∨ (db.leave zoneID nodeID).1 = .ok () ∧ x.2 = zoneID ∧ x.1.nodeID = nodeID := by
  rcases leave_cases db zoneID nodeID with ⟨hl, -⟩ | ⟨hl, -⟩
  · exact .inl (by rwa [hl] at h)
  · rw [hl] at h ⊢
    exact (unmatched_deleteMember h).imp id fun hx => ⟨rfl, hx⟩

theorem detachAllForNodeZone_matches (h : db.Wf) {nodeID zoneID : Int} {a : Announcement}
    (hn : a.nodeID = nodeID) : ¬ (db.detachAllForNodeZone nodeID zoneID).2.Unmatched (a, zoneID) := by
  rintro ⟨ha, haz, -⟩
  have hsub := sub_detachEach zoneID ((db.announcementsInZone zoneID).filter (·.nodeID = nodeID)) db
  refine detachEach_detaches (List.mem_filter.mpr ⟨?_, by simpa using hn⟩) haz
  exact (mem_announcementsInZone h).mpr ⟨hsub.announcements.subset ha,
    hsub.announcementZones.subset haz⟩

end DB

namespace StoreOp
open DB
variable {o : StoreOp} {db db' : DB} {x : Announcement × Int}

theorem Change.unmatched (h : db.Wf) (hc : Change db o db') (ho : o.Removes = false)
    (hx : db'.Unmatched x) : db.Unmatched x := by
  obtain ⟨ha, haz, hm⟩ := hx
  cases hc with
  | removed op => exact absurd (ho.symm.trans op) Bool.false_ne_true
  | member => exact ⟨ha, haz, fun hmem => hm (List.mem_append_left _ hmem)⟩
  | attachment _ _ _ ann member =>
    rcases List.mem_append.mp haz with haz | haz
    · exact ⟨ha, haz, hm⟩
    · obtain ⟨hid, hz⟩ : x.1.id = _ ∧ x.2 = _ := by simpa using haz
      obtain rfl := h.announcements_asc.keyed x.1 ha _ ann hid
      exact absurd (hz ▸ member) hm
  | announcement ok =>
    simp only [announce, attach, addAnnouncement, List.mem_append, List.mem_singleton,
      AnnouncementZone.mk.injEq] at ha haz
    rcases haz with haz | ⟨hid, hz⟩
    · obtain ⟨a, hmem, hid⟩ := h.attachment_announcement _ haz
      have hle := h.announcements_seq a hmem
      rcases ha with ha | ha
      · exact ⟨ha, haz, hm⟩
      · rw [ha] at hid
        simp only at hid
        omega
    · rcases ha with ha | ha
      · have hle := h.announcements_seq x.1 ha
        omega
      · rw [ha, hz] at hm
        exact absurd ok.member hm
  | same | user | node | zone => exact ⟨ha, haz, hm⟩

/-- Every statement but `Leave` keeps attachments matched. -/
theorem exec_unmatched (h : db.Wf) (ho : ∀ zoneID nodeID, o ≠ leave zoneID nodeID)
    (hx : (o.exec db).2.Unmatched x) : db.Unmatched x := by
  cases hr : o.Removes with
  | false => exact (o.exec_change db).unmatched h hr hx
  | true =>
    cases o with
    | leave zoneID nodeID => exact absurd rfl (ho zoneID nodeID)
    | deleteOwnedNode => exact unmatched_deleteNodes hx
    | deleteZone => exact unmatched_deleteZones hx
    | detachAllForNodeZone => exact unmatched_detachEach hx
    | detachAllForZone => exact unmatched_deleteAttachments (unmatched_reclaimEach hx)
    | deleteCascade => exact unmatched_deleteCascade hx
    | detach zoneID annID =>
      rcases detach_cases db zoneID annID with ⟨hd, -⟩ | ⟨a, -, -, hd⟩
      · have hsame : ((detach zoneID annID).exec db).2 = db := congrArg Prod.snd hd
        exact hsame ▸ hx
      · have hdb : ((detach zoneID annID).exec db).2 = db.detachOne annID zoneID :=
          congrArg Prod.snd hd
        exact unmatched_detachOne (hdb ▸ hx)
    | _ => cases hr

end StoreOp

section
variable {κ : Type} [DecidableEq κ] (parseKey : String → Option κ)

/-- `DetachAllForNodeZone` does not fail where there is something to detach. -/
def detachSucceeds (i : Op) (fails : Bool) (w : World κ) : Prop :=
  ∀ nodeID zoneID, i = .store (.detachAllForNodeZone nodeID zoneID) → fails = true →
    w.db.NoneAttached nodeID zoneID

/-- The ledger of unmatched attachments: any operation may fail, with that one exception. -/
abbrev matchLedger : Ledger Op Op.Res Bool (World κ) (Announcement × Int) :=
  dbLedger parseKey detachSucceeds (fun _ => True) fun w => w.db.Unmatched

/-- The undoing of a join takes a membership away without looking at attachments. -/
def Call.Undoes : Call → Op → Prop
  | .joinZone .., .store (.leave ..) => True
  | _, _ => False

/-- The node whose join is undone has nothing attached to the zone. -/
def Call.Undoable (c : Call) (_ : OpHeard κ) (i : Op) (fails : Bool) (w : World κ) : Prop :=
  ∀ nodeID zoneID, c.Undoes i → i = .store (.leave zoneID nodeID) → fails = false →
    w.db.NoneAttached nodeID zoneID

variable {w : World κ} {x : Announcement × Int} {c : Call} {heard : OpHeard κ}

theorem unmatched_netfw (o : NetfwOp) (e : Bool)
    (h : (sem parseKey (.netfw o) e w).2.db.Unmatched x) : w.db.Unmatched x := by
  rwa [sem_netfw_db] at h

theorem unmatched_wg (o : WgOp) (e : Bool)
    (h : (sem parseKey (.wg o) e w).2.db.Unmatched x) : w.db.Unmatched x := by
  rwa [sem_wg_db] at h

variable {parseKey}

/-- A join is undone without loss where the node has nothing attached to the zone. -/
theorem unmatched_undone {i : Op} {fails : Bool} (hi : c.Undoes i)
    (hnone : ∀ nodeID zoneID, i = .store (.leave zoneID nodeID) → fails = false →
      w.db.NoneAttached nodeID zoneID)
    (h : (sem parseKey i fails w).2.db.Unmatched x) : w.db.Unmatched x := by
  obtain ⟨zoneID, nodeID, rfl⟩ : ∃ zoneID nodeID, i = .store (.leave zoneID nodeID) := by
    cases c with
    | joinZone =>
      cases i with
      | store o =>
        cases o with
        | leave zoneID nodeID => exact ⟨zoneID, nodeID, rfl⟩
        | _ => exact hi.elim
      | _ => exact hi.elim
    | _ => exact hi.elim
  cases fails with
  | true => exact h
  | false =>
    rcases DB.unmatched_leave h with h' | ⟨-, hz, hn⟩
    · exact h'
    · have hsub := DB.sub_leave w.db zoneID nodeID
      refine absurd (hsub.announcementZones.subset h.2.1) ?_
      rw [hz]
      exact hnone nodeID zoneID rfl rfl _ (hsub.announcements.subset h.1) hn

theorem pays_match_of_allows {α : Type} {p : Handler α}
    (hc : ∀ zoneID nodeID, c.MayRemove (.leave zoneID nodeID) → c.Undoes (.store (.leave zoneID nodeID)))
    (hp : p.Only c.Allows) : (matchLedger parseKey).Pays c.Undoable heard w p := by
  refine pays_of_only hp fun i hi _ e t y hw _ hundo hy => ?_
  cases i with
  | store o =>
    by_cases ho : ∃ zoneID nodeID, o = .leave zoneID nodeID
    · obtain ⟨zoneID, nodeID, rfl⟩ := ho
      have hundoes := hc zoneID nodeID (hi rfl)
      exact @unmatched_undone _ _ parseKey _ _ _ _ _ hundoes
        (fun nodeID zoneID => hundo nodeID zoneID hundoes) hy
    · push Not at ho
      cases e with
      | true => exact hy
      | false => exact o.exec_unmatched hw.1 ho hy
  | netfw o => exact unmatched_netfw parseKey o e hy
  | wg o => exact unmatched_wg parseKey o e hy

theorem pays_match_recomputePeer (nodeID : Int) (pubKey : String) (ip : Addr) :
    (matchLedger parseKey).Pays c.Undoable heard w (recomputePeer nodeID pubKey ip) := by
  refine pays_read (fun _ => rfl) fun r _ _ _ _ => ?_
  rcases r with _ | routes
  · trivial
  · exact pays_wg (fun e t y _ _ _ _ => unmatched_wg parseKey _ e) fun _ _ _ _ => trivial

theorem pays_match_cascade (node : Node) (zoneID : Int) :
    (matchLedger parseKey).Pays c.Undoable heard w (cascadeNodeZoneAnnouncements node zoneID) := by
  refine pays_store (fun t y _ hw _ => StoreOp.exec_unmatched hw.1 fun _ _ => by simp) fun r _ _ _ _ => ?_
  rcases r with _ | dets
  · trivial
  refine Pays.bind (pays_forEach fun det _ _ _ _ _ => pays_netfw
    (fun e t y _ _ _ _ => unmatched_netfw parseKey _ e) fun _ _ _ _ => trivial) fun _ _ _ _ _ => ?_
  split_ifs
  · exact pays_match_recomputePeer _ _ _
  · trivial

/-- Once `DetachAllForNodeZone` has succeeded, or had nothing to do, the node's attachments to
the zone are gone. -/
theorem owes_cascade {node : Node} {zoneID : Int} (hz : x.2 = zoneID) (hn : x.1.nodeID = node.id) :
    (matchLedger parseKey).Owes x (cascadeNodeZoneAnnouncements node zoneID) := by
  refine .inl fun e s hs he hbad => ?_
  obtain ⟨a, z⟩ := x
  subst hz
  cases e with
  | true => exact he.1 node.id z rfl rfl a hbad.1 hn hbad.2.1
  | false => exact DB.detachAllForNodeZone_matches hs.1 hn hbad

theorem pays_match_removeFromZone (zone : Zone) (node : Node) :
    (matchLedger parseKey).Pays c.Undoable heard w (removeFromZone zone node) := by
  refine pays_store_owing (fun t y _ _ _ _ hy => ?_) fun r _ _ _ _ => ?_
  · rcases DB.unmatched_leave hy with h | ⟨hok, hz, hn⟩
    · exact .inl h
    · have hexec : ((StoreOp.leave zone.id node.id).exec t.db).1 = .ok () := hok
      rw [hexec]
      exact .inr (.inr fun _ _ _ _ => (owes_cascade hz hn).bind _)
  · rcases r with e | _
    · cases e <;> trivial
    · exact pays_netfw (fun e t y _ _ _ _ => unmatched_netfw parseKey _ e) fun _ _ _ _ =>
        Pays.bind (pays_match_cascade _ _) fun _ _ _ _ _ => trivial

theorem pays_match_handle (h : Server κ) (r : Request) :
    (matchLedger parseKey).Pays r.call.Undoable heard w (handle h r) := by
  obtain ⟨id, c⟩ := r
  cases c with
  | registerNode body =>
    exact pays_match_of_allows (fun _ _ h => h) (only_handle h ⟨id, .registerNode body⟩)
  | deleteNode path =>
    exact pays_match_of_allows (fun _ _ h => h) (only_handle h ⟨id, .deleteNode path⟩)
  | createZone body salt =>
    exact pays_match_of_allows (fun _ _ h => h) (only_handle h ⟨id, .createZone body salt⟩)
  | joinZone name body =>
    exact pays_match_of_allows (fun _ _ h => h) (only_handle h ⟨id, .joinZone name body⟩)
  | leaveZone name body =>
    exact pays_authenticated fun _ => pays_decoded fun _ => pays_namedZone fun _ _ _ _ _ =>
      pays_ownedNode fun _ _ _ _ _ _ => pays_match_removeFromZone _ _
  | kickMember name path =>
    refine pays_authenticated fun _ => pays_ownedZone fun _ _ _ _ _ => pays_pathID fun nodeID =>
      pays_read (fun _ => rfl) fun r _ _ _ _ => ?_
    rcases r with e | node
    · cases e <;> trivial
    · exact pays_match_removeFromZone _ _
  | deleteZone name =>
    exact pays_match_of_allows (fun _ _ h => h) (only_handle h ⟨id, .deleteZone name⟩)
  | createAnnouncement name body =>
    exact pays_match_of_allows (fun _ _ h => h) (only_handle h ⟨id, .createAnnouncement name body⟩)
  | deleteAnnouncement name path =>
    exact pays_match_of_allows (fun _ _ h => h) (only_handle h ⟨id, .deleteAnnouncement name path⟩)
  | deleteUser path =>
    exact pays_match_of_allows (fun _ _ h => h) (only_handle h ⟨id, .deleteUser path⟩)

theorem zoneRange_of_rebuilt {db : DB} (h : db.Wf) {z : Int} {set : Finset Range} {r : Range}
    (hset : (rebuildZoneRules db).routes z = some set) (hr : r ∈ set) : db.ZoneRange z r := by
  rw [rebuildZoneRules_routes h] at hset
  split_ifs at hset
  cases hset
  exact (DB.mem_rangeSet h).mp hr

section
variable {τ : Type} [DecidableEq τ]

/-- The condition on a step: neither does `DetachAllForNodeZone` fail nor is a join undone while
the node has an announcement attached to the zone. -/
def NothingStranded (requests : τ → Request) (c : Config τ (Handler Response) (World κ)) (t : τ)
    (fails : Bool) : Prop :=
  ∀ i k, c.threads t = .op i k → detachSucceeds i fails c.shared ∧
    ∀ nodeID zoneID, (requests t).call.Undoes i → i = .store (.leave zoneID nodeID) →
      fails = false → c.shared.db.NoneAttached nodeID zoneID

/-- Whatever requests run, interleaved or one after another, and whatever fails: as long as no
step strands an attachment, every attachment has its membership once all have ended, and a
rebuild routes no block into a zone its announcer has left. -/
theorem attachments_match (h : Server κ) (requests : τ → Request) {w : World κ} (hw : w.db.Wf)
    (hmatch : w.db.AttachmentsMatch) {sched : List (τ × Bool)}
    (hkept : Along (Prog.machine (sem h.parseKey)) (NothingStranded requests)
      ⟨fun t => handle h (requests t), w⟩ sched)
    (hdone : ∀ t, ∃ r, ((Config.mk (fun t => handle h (requests t)) w).exec
      (Prog.machine (sem h.parseKey)) sched).threads t = .pure r) :
    let db := ((Config.mk (fun t => handle h (requests t)) w).exec
      (Prog.machine (sem h.parseKey)) sched).shared.db
    db.AttachmentsMatch ∧ ∀ z set r, (rebuildZoneRules db).routes z = some set → r ∈ set →
      ∃ a ∈ db.announcements, rangeElements a.synthetic.toPrefix = r ∧
        ⟨z, a.nodeID⟩ ∈ db.zoneMembers := by
  intro db
  have hcareful : Along (Prog.noting (sem h.parseKey))
      ((matchLedger h.parseKey).Careful fun t => (requests t).call.Undoable)
      (Prog.noted ⟨fun t => handle h (requests t), w⟩) sched := by
    have hnoted := Prog.along_noted (c := Prog.noted ⟨fun t => handle h (requests t), w⟩) hkept
    refine hnoted.imp₂ hnoted fun c t e hc _ i k hop => ?_
    obtain ⟨hdetach, hundo⟩ := hc i k hop
    exact ⟨⟨hdetach, fun _ => trivial⟩, hundo⟩
  have hall : db.AttachmentsMatch := DB.attachmentsMatch_iff.mpr (settled (L := matchLedger h.parseKey)
    (c := ⟨fun t => handle h (requests t), w⟩) ⟨hw, trivial⟩ (fun t => pays_match_handle h (requests t))
    (DB.attachmentsMatch_iff.mp hmatch) hcareful hdone)
  have hwf : db.Wf := wf_exec (c := ⟨fun t => handle h (requests t), w⟩) hw sched
  refine ⟨hall, fun z set r hset hr => ?_⟩
  obtain ⟨⟨annID, _⟩, haz, rfl, a, ha, rfl, hrange⟩ := zoneRange_of_rebuilt hwf hset hr
  exact ⟨a, ha, hrange, hall _ haz a ha rfl⟩

end

omit [DecidableEq κ] in
theorem nothingStranded_of_op {τ : Type} {requests : τ → Request}
    {c : Config τ (Handler Response) (World κ)} {t : τ} {i : Op} {k : i.Res → Handler Response}
    (hop : c.threads t = .op i k) (h : ¬ (requests t).call.Undoes i) :
    NothingStranded requests c t false := by
  intro i' k' hop'
  rw [hop] at hop'
  obtain rfl : i = i' := by injection hop'
  exact ⟨fun _ _ _ hf => absurd hf Bool.false_ne_true, fun _ _ hun => absurd hun h⟩

/-- The node leaves the zone it announces into. -/
def leaveAnnounced : Unit → Request := fun _ => ⟨alice, .leaveZone "lab" (some ⟨1⟩)⟩

theorem labAnnounced_matches : labAnnounced.AttachmentsMatch := by
  unfold DB.AttachmentsMatch
  decide

theorem attachments_match_leave :
    let db := ((Config.mk (fun t => handle labServer (leaveAnnounced t)) (rebuilt labAnnounced)).exec
      (Prog.machine (sem some)) [((), false), ((), false), ((), false), ((), false), ((), false),
        ((), false), ((), false), ((), false)]).shared.db
    db.AttachmentsMatch ∧ ∀ z set r, (rebuildZoneRules db).routes z = some set → r ∈ set →
      ∃ a ∈ db.announcements, rangeElements a.synthetic.toPrefix = r ∧
        ⟨z, a.nodeID⟩ ∈ db.zoneMembers := by
  refine attachments_match labServer leaveAnnounced labAnnounced_wf labAnnounced_matches ?_
    fun _ => ⟨_, rfl⟩
  exact ⟨nothingStranded_of_op rfl fun h => h, nothingStranded_of_op rfl fun h => h,
    nothingStranded_of_op rfl fun h => h, nothingStranded_of_op rfl fun h => h,
    nothingStranded_of_op rfl fun h => h, nothingStranded_of_op rfl fun h => h,
    nothingStranded_of_op rfl fun h => h, nothingStranded_of_op rfl fun h => h, trivial⟩

/-- The membership is gone, the transaction that detaches fails, and the request still ends. -/
theorem leave_strands_attachment :
    let c := (Config.mk (fun t => handle labServer (leaveAnnounced t)) (rebuilt labAnnounced)).exec
      (Prog.machine (sem some)) [((), false), ((), false), ((), false), ((), false), ((), true)]
    labAnnounced.Wf ∧ labAnnounced.AttachmentsMatch ∧ c.threads () = .pure noContent ∧
      ¬ c.shared.db.AttachmentsMatch ∧
      ∃ set, (rebuildZoneRules c.shared.db).routes 1 = some set ∧
        (0x647F0000, 0x647F0100) ∈ set := by
  refine ⟨labAnnounced_wf, labAnnounced_matches, rfl, ?_, _, rfl, by decide⟩
  intro h
  exact absurd (h ⟨1, 1⟩ List.mem_cons_self _ List.mem_cons_self rfl) List.not_mem_nil

end
end LanWeave

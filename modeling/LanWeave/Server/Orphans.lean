import LanWeave.Server.Issued
import LanWeave.Server.Rebuild
import LanWeave.Server.Walk

/-! Announcements without an attachment. Every statement but the deletion of a zone reclaims
what it detaches; that one relies on a transaction before it, and others may come in between. -/

namespace LanWeave
open Library

namespace DB

/-- No zone has the announcement: its block and its place in the quota are held for nothing. -/
def Orphan (db : DB) (a : Announcement) : Prop :=
  a ∈ db.announcements ∧ ∀ az ∈ db.announcementZones, az.announcementID ≠ a.id

def NoOrphan (db : DB) : Prop :=
  ∀ a ∈ db.announcements, ∃ az ∈ db.announcementZones, az.announcementID = a.id

/-- The announcement is attached to this zone at most. -/
def OnlyIn (db : DB) (zoneID : Int) (a : Announcement) : Prop :=
  a ∈ db.announcements ∧ ∀ az ∈ db.announcementZones, az.announcementID = a.id → az.zoneID = zoneID

variable {db db' : DB} {a : Announcement}

theorem noOrphan_iff : db.NoOrphan ↔ ∀ a, ¬ db.Orphan a := by
  simp only [NoOrphan, Orphan, not_and, not_forall, not_not, exists_prop]

theorem attached_iff {annID : Int} :
    db.attached annID = true ↔ ∃ az ∈ db.announcementZones, az.announcementID = annID := by
  simp [attached]

theorem orphan_deleteAnnouncements (h : db.Wf) {p : Announcement → Bool}
    (ha : (db.deleteAnnouncements p).Orphan a) : db.Orphan a ∧ p a = false := by
  obtain ⟨hmem, hnone⟩ := ha
  obtain ⟨hold, hkept⟩ := mem_deleteAnnouncements.mp hmem
  refine ⟨⟨hold, ?_⟩, by simpa using hkept⟩
  intro az haz heq
  refine hnone az (mem_deleteAnnouncements_attachments.mpr ⟨haz, ?_⟩) heq
  intro b hb hid
  have hsame : b = a := h.announcements_asc.keyed b hb a hold (hid.trans heq)
  rw [hsame]
  exact hkept

theorem orphan_deleteNodes (h : db.Wf) {p : Node → Bool} (ha : (db.deleteNodes p).Orphan a) :
    db.Orphan a := by
  have hdel : (db.deleteAnnouncements fun a => db.nodes.any fun n =>
    p n && n.id = a.nodeID).Orphan a := ha
  exact (orphan_deleteAnnouncements h hdel).1

theorem orphan_reclaimIfOrphaned (h : db.Wf) {annID : Int}
    (ha : (db.reclaimIfOrphaned annID).2.Orphan a) : db.Orphan a ∧ a.id ≠ annID := by
  unfold reclaimIfOrphaned at ha
  split_ifs at ha with hatt
  · obtain ⟨az, haz, hid⟩ := attached_iff.mp hatt
    refine ⟨ha, ?_⟩
    intro heq
    exact ha.2 az haz (hid.trans heq.symm)
  · have hdel := orphan_deleteAnnouncements h ha
    exact ⟨hdel.1, by simpa using hdel.2⟩

theorem orphan_deleteAttachments {p : AnnouncementZone → Bool}
    (ha : (db.deleteAttachments p).Orphan a) :
    db.Orphan a ∨ ∃ az ∈ db.announcementZones, p az = true ∧ az.announcementID = a.id := by
  by_cases hlost : ∃ az ∈ db.announcementZones, az.announcementID = a.id
  · obtain ⟨az, haz, hid⟩ := hlost
    have hp : p az = true := by
      by_contra hp
      exact ha.2 az (List.mem_filter.mpr ⟨haz, by simpa using hp⟩) hid
    exact .inr ⟨az, haz, hp, hid⟩
  · push Not at hlost
    exact .inl ⟨ha.1, hlost⟩

theorem orphan_detachOne (h : db.Wf) {annID zoneID : Int} (ha : (db.detachOne annID zoneID).Orphan a) :
    db.Orphan a := by
  obtain ⟨hdetached, hne⟩ := orphan_reclaimIfOrphaned (h.deleteAttachments _) ha
  rcases orphan_deleteAttachments hdetached with hold | ⟨az, -, haz, hid⟩
  · exact hold
  · have heq : az = ⟨annID, zoneID⟩ := by simpa using haz
    rw [heq] at hid
    exact absurd hid.symm hne

theorem orphan_detachEach (h : db.Wf) {zoneID : Int} {recs : List Announcement}
    (ha : (detachEach zoneID recs db).2.Orphan a) : db.Orphan a := by
  induction recs generalizing db with
  | nil => exact ha
  | cons b recs ih => exact orphan_detachOne h (ih (h.detachOne b.id zoneID) ha)

theorem orphan_reclaimEach (h : db.Wf) {zoneID : Int} {dets : List Announcement}
    (ha : (reclaimEach zoneID dets db).2.Orphan a) : db.Orphan a ∧ ∀ b ∈ dets, a.id ≠ b.id := by
  induction dets generalizing db with
  | nil => exact ⟨ha, fun b hb => nomatch hb⟩
  | cons b dets ih =>
    obtain ⟨hrest, hothers⟩ := ih (h.reclaimIfOrphaned b.id) ha
    obtain ⟨hold, hne⟩ := orphan_reclaimIfOrphaned h hrest
    exact ⟨hold, List.forall_mem_cons.mpr ⟨hne, hothers⟩⟩

theorem orphan_detachAllForZone (h : db.Wf) {zoneID : Int}
    (ha : (db.detachAllForZone zoneID).2.Orphan a) : db.Orphan a := by
  obtain ⟨hdetached, hothers⟩ := orphan_reclaimEach (h.deleteAttachments _) ha
  rcases orphan_deleteAttachments hdetached with hold | ⟨az, haz, hz, hid⟩
  · exact hold
  · have hin : a ∈ db.announcementsInZone zoneID := by
      refine (mem_announcementsInZone h).mpr ⟨hdetached.1, ?_⟩
      have heq : az = ⟨a.id, zoneID⟩ := by
        rw [← hid, ← (by simpa using hz : az.zoneID = zoneID)]
      exact heq ▸ haz
    exact absurd rfl (hothers a hin)

/-- Whatever the deletion of a user's zones strands is reclaimed in the same transaction. -/
theorem orphan_deleteCascade (h : db.Wf) {targetID : Int}
    (ha : (db.deleteCascade targetID).2.Orphan a) : db.Orphan a := by
  rcases deleteCascade_cases db targetID with ⟨hsame, -⟩ | ⟨r, -, -, -, -, -, orphans, horphans, -, hdb⟩
  · exact hsame ▸ ha
  · rw [hdb] at ha
    have hw := h.deleteUser targetID
    obtain ⟨⟨hmem, hnone⟩, hspared⟩ := orphan_deleteAnnouncements hw ha
    obtain ⟨n, hn, hid⟩ := hw.announcement_node a hmem
    have hfree : (db.deleteUser targetID).attached a.id = false := by
      rw [Bool.eq_false_iff, Ne, attached_iff]
      rintro ⟨az, haz, heq⟩
      exact hnone az haz heq
    have hnode : (db.deleteUser targetID).hasNode a.nodeID = true := hasNode_iff.mpr ⟨n, hn, hid⟩
    have hfound : a ∈ orphans := by
      rw [horphans, List.mem_filter, hfree, hnode]
      exact ⟨hmem, rfl⟩
    rw [List.any_eq_false] at hspared
    exact absurd (hspared a hfound) (by simp)

theorem orphan_deleteZone {zoneID : Int} (ha : (db.deleteZone zoneID).2.Orphan a) :
    db.OnlyIn zoneID a := by
  refine ⟨ha.1, fun az haz hid => ?_⟩
  by_contra hne
  refine ha.2 az (mem_deleteZones_attachments.mpr ⟨haz, fun z _ hz => ?_⟩) hid
  simpa [hz] using hne

def Empty (db : DB) (zoneID : Int) : Prop := ∀ az ∈ db.announcementZones, az.zoneID ≠ zoneID

theorem empty_detachAllForZone {zoneID : Int} : (db.detachAllForZone zoneID).2.Empty zoneID := by
  intro az haz
  have hkept := (sub_reclaimEach zoneID _ _).announcementZones.subset haz
  simpa using (List.mem_filter.mp hkept).2

theorem empty_insertZone (h : db.Wf) {ownerID zoneID maxOwnedZones : Int} {name passwordHash : String}
    (hok : (db.insertZone ownerID name passwordHash maxOwnedZones).1 = .ok (some zoneID)) :
    (db.insertZone ownerID name passwordHash maxOwnedZones).2.Empty zoneID := by
  rcases @insertZone_cases db ownerID name passwordHash maxOwnedZones with ⟨-, hno⟩ | ⟨hnew, -⟩
  · exact absurd hok (hno zoneID)
  · rw [hnew] at hok ⊢
    intro az haz hid
    -- the id is above those of the zones that have attachments
    obtain ⟨z, hz, hzid⟩ := h.attachment_zone az haz
    have hle := h.zones_seq z hz
    have heq : db.seqZones + 1 = zoneID := Option.some.inj (Except.ok.inj hok)
    omega

end DB

namespace StoreOp
open DB
variable {o : StoreOp} {db : DB} {a : Announcement}

/-- What a statement adds is attached, and every removal but that of a zone reclaims. -/
theorem exec_orphan (h : db.Wf) (ho : ∀ zoneID, o = deleteZone zoneID → ¬ db.OnlyIn zoneID a)
    (ha : (o.exec db).2.Orphan a) : db.Orphan a := by
  -- what adds rows makes no orphan; what removes attachments removes what they leave without one
  cases hr : o.Removes with
  | false =>
    have hc := o.exec_change db
    generalize (o.exec db).2 = db' at hc ha
    cases hc with
    | removed op => exact absurd (hr.symm.trans op) Bool.false_ne_true
    | attachment => exact ⟨ha.1, fun az haz => ha.2 az (List.mem_append_left _ haz)⟩
    | announcement =>
      rcases List.mem_append.mp ha.1 with hold | hnew
      · exact ⟨hold, fun az haz => ha.2 az (List.mem_append_left _ haz)⟩
      · have hid : a.id = db.seqAnnouncements + 1 :=
          congrArg Announcement.id (List.mem_singleton.mp hnew)
        exact absurd hid.symm (ha.2 _ (List.mem_append_right _ (List.mem_singleton_self _)))
    | same | user | node | zone | member => exact ha
  | true =>
    cases o with
    | leave zoneID nodeID =>
      rcases leave_cases db zoneID nodeID with ⟨hl, -⟩ | ⟨hl, -⟩
      · have hsame : ((leave zoneID nodeID).exec db).2 = db := congrArg Prod.snd hl
        exact hsame ▸ ha
      · have hdb : ((leave zoneID nodeID).exec db).2 = db.deleteMember ⟨zoneID, nodeID⟩ :=
          congrArg Prod.snd hl
        rw [hdb] at ha
        exact ha
    | deleteOwnedNode => exact orphan_deleteNodes h ha
    | deleteZone zoneID => exact absurd (orphan_deleteZone ha) (ho zoneID rfl)
    | detachAllForNodeZone => exact orphan_detachEach h ha
    | detachAllForZone => exact orphan_detachAllForZone h ha
    | deleteCascade => exact orphan_deleteCascade h ha
    | detach zoneID annID =>
      rcases detach_cases db zoneID annID with ⟨hd, -⟩ | ⟨b, -, -, hd⟩
      · have hsame : ((detach zoneID annID).exec db).2 = db := congrArg Prod.snd hd
        exact hsame ▸ ha
      · have hdb : ((detach zoneID annID).exec db).2 = db.detachOne annID zoneID :=
          congrArg Prod.snd hd
        exact orphan_detachOne h (hdb ▸ ha)
    | _ => cases hr

end StoreOp

/-- A zone is only deleted once everything has been detached from it, or when it has just been made. -/
def Emptied (said : List (Sigma Op.Res)) : Op → Prop
  | .store (.deleteZone zoneID) => (∃ dets, ⟨.store (.detachAllForZone zoneID), .ok dets⟩ ∈ said) ∨
      ∃ ownerID name passwordHash maxOwnedZones,
        ⟨.store (.insertZone ownerID name passwordHash maxOwnedZones), .ok (some zoneID)⟩ ∈ said
  | _ => True

section
variable {said : List (Sigma Op.Res)} {α : Type}

theorem emptied_of_only {c : Call} {p : Handler α} (hp : p.Only c.Allows)
    (hc : ∀ zoneID, ¬ c.MayRemove (.deleteZone zoneID)) : p.Follows Emptied said := by
  refine Prog.follows_of_only hp fun said i hi => ?_
  cases i with
  | store o =>
    cases o with
    | deleteZone zoneID => exact absurd (hi rfl) (hc zoneID)
    | _ => trivial
  | _ => trivial

theorem emptied_authenticated {id : Option Identity} {k : Identity → Handler Response}
    (hk : ∀ id, (k id).Follows Emptied said) : (authenticated id k).Follows Emptied said := by
  cases id with
  | none => trivial
  | some id => exact hk id

theorem emptied_deleteZone {κ : Type} (h : Server κ) (id : Option Identity) (name : String) :
    (deleteZone id name).Follows Emptied [] := by
  refine emptied_authenticated fun id => ⟨trivial, ?_⟩
  rintro (_ | _ | zone)
  · trivial
  · trivial
  show Prog.Follows _ _ (if _ then _ else _)
  split_ifs
  · trivial
  refine ⟨trivial, ?_⟩
  rintro (_ | dets)
  · trivial
  refine ⟨.inl ⟨dets, List.mem_cons_self⟩, ?_⟩
  rintro (_ | _)
  · trivial
  refine ⟨trivial, fun _ => ?_⟩
  have hpeers : Issues h (fun _ _ => True) ⟨id, .deleteNode name⟩
      (recomputeReclaimedPeers dets [] >>= fun _ => return noContent) :=
    (issues_recomputeReclaimedPeers dets []).bind fun _ => trivial
  exact emptied_of_only (only_of_issues hpeers) fun _ h => h

theorem emptied_rollbackZone {zoneID : Int} {response : Response}
    (hnew : Emptied said (.store (.deleteZone zoneID))) :
    (do rollbackZone zoneID; return response : Handler Response).Follows Emptied said :=
  ⟨hnew, fun _ => ⟨trivial, fun _ => trivial⟩⟩

theorem emptied_createZoneFor {κ : Type} (h : Server κ) (id : Identity) (name passwordHash : String)
    (member : Option Node) : (createZoneFor h id name passwordHash member).Follows Emptied said := by
  refine ⟨trivial, ?_⟩
  rintro (_ | _ | zoneID)
  · trivial
  · trivial
  have hnew : ∀ more, ⟨.store (.insertZone id.userID name passwordHash (id.cap h.maxOwnedZonesPerUser)),
      .ok (some zoneID)⟩ ∈ more → Emptied more (.store (.deleteZone zoneID)) :=
    fun more hmem => .inr ⟨_, _, _, _, hmem⟩
  refine ⟨trivial, ?_⟩
  rintro (_ | _)
  · exact ⟨hnew _ (List.mem_cons_of_mem _ List.mem_cons_self), fun _ => trivial⟩
  cases member with
  | none => trivial
  | some node =>
    refine ⟨trivial, ?_⟩
    rintro (_ | _)
    · apply emptied_rollbackZone
      apply hnew
      exact List.mem_cons_of_mem _ (List.mem_cons_of_mem _ List.mem_cons_self)
    refine ⟨trivial, ?_⟩
    rintro (_ | _)
    · apply emptied_rollbackZone
      apply hnew
      exact List.mem_cons_of_mem _ (List.mem_cons_of_mem _ (List.mem_cons_of_mem _ List.mem_cons_self))
    · trivial

theorem emptied_createZone {κ : Type} (h : Server κ) (id : Option Identity)
    (body : Option CreateZoneRequest) (salt : Option String) :
    (createZone h id body salt).Follows Emptied [] := by
  refine emptied_authenticated fun id => ?_
  cases body with
  | none => trivial
  | some req =>
    show Prog.Follows _ _ (if _ then _ else if _ then _ else _)
    split_ifs
    iterate 2 trivial
    have hmember : ∀ said (member : Option Node), Prog.Follows Emptied said (salted salt fun s =>
        createZoneFor h id (trimSpace req.name) (h.hashPassword s req.password) member) := by
      intro said member
      cases salt with
      | none => trivial
      | some s => exact emptied_createZoneFor h _ _ _ _
    unfold autoJoinNode
    split_ifs
    · exact hmember [] none
    · refine ⟨trivial, ?_⟩
      rintro (e | node)
      · cases e <;> trivial
      · exact hmember _ (some node)

theorem emptied_handle {κ : Type} (h : Server κ) (r : Request) : (handle h r).Follows Emptied [] := by
  obtain ⟨id, c⟩ := r
  cases c with
  | registerNode body => exact emptied_of_only (only_handle h ⟨id, .registerNode body⟩) fun _ h => h
  | deleteNode path => exact emptied_of_only (only_handle h ⟨id, .deleteNode path⟩) fun _ h => h
  | createZone body salt => exact emptied_createZone h id body salt
  | joinZone name body => exact emptied_of_only (only_handle h ⟨id, .joinZone name body⟩) fun _ h => h
  | leaveZone name body => exact emptied_of_only (only_handle h ⟨id, .leaveZone name body⟩) fun _ h => h
  | kickMember name path =>
    exact emptied_of_only (only_handle h ⟨id, .kickMember name path⟩) fun _ h => h
  | deleteZone name => exact emptied_deleteZone h id name
  | createAnnouncement name body =>
    exact emptied_of_only (only_handle h ⟨id, .createAnnouncement name body⟩) fun _ h => h
  | deleteAnnouncement name path =>
    exact emptied_of_only (only_handle h ⟨id, .deleteAnnouncement name path⟩) fun _ h => h
  | deleteUser path => exact emptied_of_only (only_handle h ⟨id, .deleteUser path⟩) fun _ h => h

end

section
variable {κ τ : Type} [DecidableEq κ] [DecidableEq τ] {parseKey : String → Option κ}

/-- The condition on a step: when a request deletes a zone, nobody has attached an announcement to it
since one of the request's own steps. -/
def Undisturbed (heard : OpHeard κ) : Op → Bool → World κ → Prop
  | .store (.deleteZone zoneID), _, w => ∀ x ∈ heard, ∀ az ∈ w.db.announcementZones,
      az.zoneID = zoneID → az ∈ x.2.db.announcementZones
  | _, _, _ => True

/-- By its own steps the request knows that the zone has been empty. -/
theorem empty_of_undisturbed {heard : OpHeard κ} {zoneID : Int} {e : Bool} {w : World κ}
    (hsaid : Emptied (heard.map Prod.fst) (.store (.deleteZone zoneID)))
    (hsound : ∀ x ∈ heard, ∃ e s, s.db.Wf ∧ sem parseKey x.1.1 e s = (x.1.2, x.2))
    (hstill : Undisturbed heard (.store (.deleteZone zoneID)) e w) : w.db.Empty zoneID := by
  obtain ⟨x, hx, hempty⟩ : ∃ x ∈ heard, x.2.db.Empty zoneID := by
    rcases hsaid with ⟨dets, hmem⟩ | ⟨ownerID, name, passwordHash, maxOwnedZones, hmem⟩
    · obtain ⟨⟨said, t⟩, hx, rfl⟩ := List.mem_map.mp hmem
      obtain ⟨e, s, -, hsem⟩ := hsound _ hx
      cases e with
      | true => cases (Prod.mk.inj hsem).1
      | false =>
        refine ⟨_, hx, ?_⟩
        rw [← (Prod.mk.inj hsem).2]
        exact DB.empty_detachAllForZone
    · obtain ⟨⟨said, t⟩, hx, rfl⟩ := List.mem_map.mp hmem
      obtain ⟨e, s, hw, hsem⟩ := hsound _ hx
      cases e with
      | true => cases (Prod.mk.inj hsem).1
      | false =>
        obtain ⟨hres, hdb⟩ := Prod.mk.inj hsem
        refine ⟨_, hx, ?_⟩
        rw [← hdb]
        exact DB.empty_insertZone hw hres
  exact fun az haz hid => hempty az (hstill x hx az haz hid) hid

/-- What holds between steps: no announcement without an attachment, and journals that tell what
happened. -/
structure AllAttached (parseKey : String → Option κ)
    (c : Config τ (OpHeard κ × Handler Response) (World κ)) : Prop where
  wf : c.shared.db.Wf
  attached : c.shared.db.NoOrphan
  threads : ∀ t, Prog.Truthful (sem parseKey) (fun w => w.db.Wf) Emptied (c.threads t)

theorem AllAttached.step {c : Config τ (OpHeard κ × Handler Response) (World κ)}
    (h : AllAttached parseKey c) {t : τ} {fails : Bool}
    (hok : Prog.Upheld (fun _ => Undisturbed) c t fails) :
    AllAttached parseKey (c.step (Prog.noting (sem parseKey)) t fails) := by
  have hthreads : ∀ u, Prog.Truthful (sem parseKey) (fun w => w.db.Wf) Emptied
      ((c.step (Prog.noting (sem parseKey)) t fails).threads u) := by
    intro u
    by_cases hu : u = t
    · rw [hu, Config.step_self]
      exact (h.threads t).noting h.wf
    · rw [Config.step_other _ hu]
      exact h.threads u
  cases hop : (c.threads t).2 with
  | pure r =>
    have hsame : (c.step (Prog.noting (sem parseKey)) t fails).shared = c.shared := by
      rw [Config.step_shared, ← Prod.eta (c.threads t), hop]
      rfl
    exact ⟨hsame ▸ h.wf, hsame ▸ h.attached, hthreads⟩
  | op i k =>
    have hmoves : (c.step (Prog.noting (sem parseKey)) t fails).shared =
      (sem parseKey i fails c.shared).2 := by
      rw [Config.step_shared, ← Prod.eta (c.threads t), hop]
      rfl
    have hsaid := (h.threads t).follows
    rw [hop] at hsaid
    rcases sem_db parseKey c.shared i fails with hdb | ⟨o, rfl, rfl, hdb⟩
    · rw [← hmoves] at hdb
      exact ⟨hdb ▸ h.wf, hdb ▸ h.attached, hthreads⟩
    · rw [← hmoves] at hdb
      refine ⟨hdb ▸ o.exec_wf h.wf, ?_, hthreads⟩
      rw [hdb, DB.noOrphan_iff]
      intro a ha
      refine DB.noOrphan_iff.mp h.attached a (o.exec_orphan h.wf ?_ ha)
      rintro zoneID rfl honly
      have hempty := empty_of_undisturbed hsaid.1 (h.threads t).sound (hok _ _ hop)
      obtain ⟨az, haz, hid⟩ := h.attached a honly.1
      exact hempty az haz (honly.2 az haz hid)

/-- Whatever requests run, interleaved or one after another, and whatever fails: as long as nobody
attaches to a zone between the steps of its deletion, every state reached has all its announcements
attached. -/
theorem no_leaked_announcement (h : Server κ) (requests : τ → Request) {w : World κ} (hw : w.db.Wf)
    (hnone : w.db.NoOrphan) {sched : List (τ × Bool)}
    (hok : Along (Prog.noting (sem h.parseKey)) (Prog.Upheld fun _ => Undisturbed)
      (Prog.noted ⟨fun t => handle h (requests t), w⟩) sched) :
    ∀ s, s <+: sched → ((Config.mk (fun t => handle h (requests t)) w).exec
      (Prog.machine (sem h.parseKey)) s).shared.db.NoOrphan := by
  rintro s ⟨rest, rfl⟩
  have hrun : Prog.plain ((Prog.noted ⟨fun t => handle h (requests t), w⟩).exec
      (Prog.noting (sem h.parseKey)) s) = _ := Prog.plain_exec s
  have hinit : AllAttached h.parseKey (Prog.noted ⟨fun t => handle h (requests t), w⟩) :=
    ⟨hw, hnone, fun t => ⟨fun _ hx => absurd hx List.not_mem_nil, emptied_handle h (requests t)⟩⟩
  have hend := exec_induction (fun _ _ _ hc hstep => hc.step hstep) hinit (along_append.mp hok).1
  exact (congrArg (fun c => c.shared.db.NoOrphan) hrun).mp hend.attached

end

theorem labAnnounced_noOrphan : labAnnounced.NoOrphan := by
  unfold DB.NoOrphan
  decide

/-- Announcing into a zone while it is being deleted. -/
def announceAndDelete : Fin 2 → Request
  | 0 => ⟨alice, .deleteZone "lab"⟩
  | 1 => ⟨alice, .createAnnouncement "lab" (some ⟨1, "192.168.7.0/24"⟩)⟩

/-- The deletion reclaims the announcement that is there; the new one has come no further than its
checks. -/
theorem no_leaked_announcement_deleteLab :
    ((Config.mk (fun t => handle labServer (announceAndDelete t)) (rebuilt labAnnounced)).exec
      (Prog.machine (sem some)) [(1, false), (0, false), (1, false), (0, false), (0, false),
        (0, false)]).shared.db.NoOrphan := by
  refine no_leaked_announcement labServer announceAndDelete labAnnounced_wf labAnnounced_noOrphan ?_ _
    List.prefix_rfl
  refine ⟨Prog.upheld_op rfl trivial, Prog.upheld_op rfl trivial, Prog.upheld_op rfl trivial,
    Prog.upheld_op rfl trivial, Prog.upheld_op rfl ?_, Prog.upheld_op rfl trivial, trivial⟩
  intro x _ az haz
  exact absurd haz List.not_mem_nil

/-- The announcement comes between the two transactions of the deletion, and outlives its zone. -/
theorem announce_during_delete_leaks :
    let c := (Config.mk (fun t => handle labServer (announceAndDelete t))
      (rebuilt (labDB [⟨1, 1⟩]))).exec
      (Prog.machine (sem some)) [(0, false), (0, false), (1, false), (1, false), (1, false), (1, false),
        (1, false), (1, false), (1, false), (0, false), (0, false)]
    (labDB [⟨1, 1⟩]).Wf ∧ (labDB [⟨1, 1⟩]).NoOrphan ∧
      (∀ t, ∃ r, c.threads t = .pure r) ∧ ¬ c.shared.db.NoOrphan := by
  have hbefore : (labDB [⟨1, 1⟩]).NoOrphan := fun a ha => absurd ha List.not_mem_nil
  refine ⟨labDB_wf (.inr rfl), hbefore, Fin.forall_fin_two.mpr ⟨⟨_, rfl⟩, ⟨_, rfl⟩⟩, ?_⟩
  intro hnone
  obtain ⟨az, haz, -⟩ := hnone _ (List.mem_singleton_self _)
  exact absurd haz List.not_mem_nil

end LanWeave

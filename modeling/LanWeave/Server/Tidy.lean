import LanWeave.Server.Attachments
import LanWeave.Server.Issued
import LanWeave.Server.Orphans

/-! What holds of a node's announcements as long as no zone is deleted and no node leaves one or is
deleted, and is kept by requests that announce and withdraw. -/

namespace LanWeave
open Library Prog DB

structure DB.Tidy {κ : Type} (h : Server κ) (n : Node) (db : DB) : Prop where
  reachable : db.Reachable h
  noOrphan : db.NoOrphan
  matching : db.AttachmentsMatch
  node : n ∈ db.nodes

/-- An operation that removes nothing but attachments, each of them by itself. -/
def Op.Withdraws : Op → Prop
  | .store o => o.Removes = true → ∃ zoneID annID, o = .detach zoneID annID
  | _ => True

section
variable {κ : Type} {h : Server κ} {n : Node} {db : DB} {o : StoreOp}

theorem StoreOp.exec_nodes (ho : Op.Withdraws (.store o)) (hn : n ∈ db.nodes) :
    n ∈ (o.exec db).2.nodes := by
  cases hr : o.Removes with
  | false =>
    have hchange := o.exec_change db
    generalize (o.exec db).2 = db' at hchange ⊢
    cases hchange with
    | removed op => exact absurd (hr.symm.trans op) Bool.false_ne_true
    | node => exact List.mem_append_left _ hn
    | same | user | zone | member | attachment | announcement => exact hn
  | true =>
    obtain ⟨zoneID, annID, rfl⟩ := ho hr
    change n ∈ (db.detach zoneID annID).2.nodes
    rcases detach_cases db zoneID annID with ⟨hrun, -⟩ | ⟨a, -, -, hrun⟩
    · rw [hrun]
      exact hn
    · rw [hrun]
      unfold detachOne reclaimIfOrphaned
      split_ifs <;> exact hn

theorem DB.Tidy.exec (ht : db.Tidy h n) (hissued : o.Issued h) (ho : Op.Withdraws (.store o)) :
    (o.exec db).2.Tidy h n where
  reachable := ht.reachable.statement o hissued
  noOrphan := by
    apply noOrphan_iff.mpr
    intro a ha
    apply noOrphan_iff.mp ht.noOrphan a
    apply o.exec_orphan ht.reachable.planned.wf _ ha
    intro zoneID heq
    obtain ⟨_, _, hdetach⟩ := ho (by rw [heq]; rfl)
    cases heq.symm.trans hdetach
  matching := by
    apply attachmentsMatch_iff.mpr
    intro x hx
    apply attachmentsMatch_iff.mp ht.matching x
    apply o.exec_unmatched ht.reachable.planned.wf _ hx
    intro zoneID nodeID heq
    obtain ⟨_, _, hdetach⟩ := ho (by rw [heq]; rfl)
    cases heq.symm.trans hdetach
  node := o.exec_nodes ho ht.node

end

section
variable {κ : Type} [DecidableEq κ] {h : Server κ} {n : Node} {w : World κ} {i : Identity}

theorem DB.Tidy.step (ht : w.db.Tidy h n) {o : Op} (hissued : o.Issued h) (ho : o.Withdraws)
    (fails : Bool) : (sem h.parseKey o fails w).2.db.Tidy h n := by
  rcases sem_db h.parseKey w o fails with hdb | ⟨o, rfl, -, hdb⟩
  · rwa [hdb]
  · rw [hdb]
    exact ht.exec hissued ho

/-- A request that removes nothing else keeps the database tidy. -/
theorem DB.Tidy.run (ht : w.db.Tidy h n) {c : Call} {id : Option Identity}
    (hc : ∀ o, c.MayRemove o → ∃ zoneID annID, o = .detach zoneID annID) (fails : Bool) :
    ((handle h ⟨id, c⟩).run (sem h.parseKey) fails w).2.db.Tidy h n := by
  have hwithdraws : ∀ o, c.Allows o → o.Withdraws := by
    intro o ho
    cases o with
    | store o => exact fun hremoves => hc o (ho hremoves)
    | netfw o => trivial
    | wg o => trivial
  have halways := OnlyGiven.always (I := fun w : World κ => w.db.Tidy h n) (issues_handle ⟨id, c⟩)
    (sem_sane h.parseKey) (fun o ho fails _ ht => ht.step ho.issued (hwithdraws o ho.allows) fails) ht
  exact halways.run fails

theorem DB.Tidy.announce (ht : w.db.Tidy h n) (name : String) (body : Option CreateAnnouncementRequest) :
    ((handle h ⟨some i, .createAnnouncement name body⟩).run (sem h.parseKey) false w).2.db.Tidy h n := by
  apply ht.run
  intro o hmay
  cases o with
  | detach zoneID annID => exact ⟨zoneID, annID, rfl⟩
  | _ => exact hmay.elim

theorem DB.Tidy.withdraw (ht : w.db.Tidy h n) (name path : String) :
    ((handle h ⟨some i, .deleteAnnouncement name path⟩).run (sem h.parseKey) false w).2.db.Tidy h n := by
  apply ht.run
  intro o hmay
  cases o with
  | detach zoneID annID => exact ⟨zoneID, annID, rfl⟩
  | _ => exact hmay.elim

end
end LanWeave

import LanWeave.Server.Effects

/-! A request that is served with no operation failing: it is refused without effect, or it has
done what it asks for. -/

namespace LanWeave
open Library Prog

section
variable {κ : Type} [DecidableEq κ] (parseKey : String → Option κ)

/-- The handler refuses and changes nothing, or ends in `Q`. -/
def Ends (w : World κ) (p : Handler Response) (Q : Response → World κ → Prop) : Prop :=
  (∃ r, r.isError = true ∧ p.run (sem parseKey) false w = (r, w)) ∨
    Q (p.run (sem parseKey) false w).1 (p.run (sem parseKey) false w).2

variable {parseKey} {w : World κ} {Q : Response → World κ → Prop} {i : Identity}

theorem Ends.mono {p : Handler Response} {Q' : Response → World κ → Prop} (h : Ends parseKey w p Q)
    (hQ : ∀ r w', Q r w' → Q' r w') : Ends parseKey w p Q' :=
  h.imp id (hQ _ _)

theorem ends_error {r : Response} (hr : r.isError = true) : Ends parseKey w (return r) Q :=
  .inl ⟨r, hr, rfl⟩

theorem ends_read {o : StoreOp} {k : Except StoreErr o.Val → Handler Response}
    (ho : (o.exec w.db).2 = w.db) (hk : Ends parseKey w (k (o.exec w.db).1) Q) :
    Ends parseKey w (store o >>= k) Q := by
  unfold Ends
  rw [run_store, ho]
  exact hk

theorem ends_pathID {value message : String} {k : Int → Handler Response}
    (hk : ∀ id, parseInt64 value = some id → Ends parseKey w (k id) Q) :
    Ends parseKey w (pathID value message k) Q := by
  unfold pathID
  split
  · exact ends_error rfl
  · next id hid => exact hk id hid

theorem ends_namedZone {name : String} {absent : Response} (habsent : absent.isError = true)
    {k : Zone → Handler Response}
    (hk : ∀ zone ∈ w.db.zones, zone.name = name → Ends parseKey w (k zone) Q) :
    Ends parseKey w (namedZone name absent k) Q := by
  apply ends_read rfl
  cases hr : w.db.getByName name with
  | error e => cases hr
  | ok r =>
    simp only [StoreOp.exec, hr]
    cases r with
    | none => exact ends_error habsent
    | some zone =>
      obtain ⟨hzone, hname⟩ := DB.getByName_ok hr
      exact hk zone hzone hname

theorem ends_memberZone {name : String} {userID : Int} {k : Zone → Handler Response}
    (hk : ∀ zone ∈ w.db.zones, zone.name = name → Ends parseKey w (k zone) Q) :
    Ends parseKey w (memberZone name userID k) Q := by
  apply ends_namedZone rfl
  intro zone hzone hname
  apply ends_read rfl
  cases hr : w.db.isParticipant zone.id userID with
  | error e =>
    simp only [StoreOp.exec, hr]
    exact ends_error rfl
  | ok b =>
    simp only [StoreOp.exec, hr]
    cases b with
    | false => exact ends_error rfl
    | true => exact hk zone hzone hname

theorem ends_ownedNode {userID nodeID : Int} {message : String} {k : Node → Handler Response}
    (hk : ∀ node ∈ w.db.nodes, node.id = nodeID → node.userID = userID → Ends parseKey w (k node) Q) :
    Ends parseKey w (ownedNode userID nodeID message k) Q := by
  apply ends_read rfl
  cases hr : w.db.getOwned userID nodeID with
  | error e =>
    simp only [StoreOp.exec, hr]
    cases e <;> exact ends_error rfl
  | ok node =>
    simp only [StoreOp.exec, hr]
    obtain ⟨hnode, hid, huser⟩ := DB.getOwned_ok hr
    exact hk node hnode hid huser

theorem run_wg {α : Type} (o : WgOp) (k : Except KernelErr Unit → Handler α) (w : World κ) :
    (wg o >>= k).run (sem parseKey) false w = (k (sem parseKey (.wg o) false w).1).run (sem parseKey)
      false (sem parseKey (.wg o) false w).2 := rfl

theorem run_netfw {α : Type} (o : NetfwOp) (k : Except KernelErr Unit → Handler α) (w : World κ) :
    (netfw o >>= k).run (sem parseKey) false w = (k (sem parseKey (.netfw o) false w).1).run
      (sem parseKey) false (sem parseKey (.netfw o) false w).2 := rfl

theorem growDataplane_true {zone : Zone} {node : Node} {ann : Announcement}
    (h : ((growDataplane zone node ann).run (sem parseKey) false w).1 = true) :
    ((growDataplane zone node ann).run (sem parseKey) false w).2.db = w.db := by
  have hfalse : ∀ (w' : World κ), ((do
      rollbackAnnouncement zone.id ann.id node
      return false : Handler Bool).run (sem parseKey) false w').1 ≠ true := by
    intro w'
    rw [run_bind]
    exact Bool.false_ne_true
  rw [growDataplane, run_store] at h ⊢
  simp only [StoreOp.exec, DB.routesForNode] at h ⊢
  rw [run_wg] at h ⊢
  cases hwg : (sem parseKey (.wg (.setPeerRoutes node.pubKey (uint32ToAddr node.ip)
      ((w.db.announcements.filter (·.nodeID = node.id)).map (·.synthetic.toPrefix)))) false w).1 with
  | error e =>
    rw [hwg] at h
    exact absurd h (hfalse _)
  | ok _ =>
    rw [hwg] at h
    simp only at h ⊢
    rw [run_netfw] at h ⊢
    generalize hw' : (sem parseKey (.wg _) false w).2 = w' at h ⊢
    have hdb : w'.db = w.db := by
      rw [← hw']
      exact sem_wg_db parseKey w _ false
    cases hnft : (sem parseKey (.netfw (.addZoneRoute zone.id ann.synthetic.toPrefix)) false w').1 with
    | error e =>
      rw [hnft] at h
      exact absurd h (hfalse _)
    | ok _ => exact (sem_netfw_db parseKey w' _ false).trans hdb

theorem ends_announceSubnet (h : Server κ) {zone : Zone} {node : Node} {subnet pool : Prefix} :
    Ends parseKey w (announceSubnet h i zone node subnet pool) fun r w' => r.isError = false →
      ∃ ann attached, (w.db.createAnnouncement i.userID node.id (blockFromPrefix subnet) zone.id
          (i.cap h.maxAnnouncedSubnetsPerUser) pool) = (.ok (ann, attached), w'.db) ∧
        r = ⟨201, .announcement ann.id node.id node.name i.username ann.real.toPrefix
          ann.synthetic.toPrefix⟩ := by
  unfold Ends
  rw [announceSubnet, run_store]
  simp only [StoreOp.exec]
  rcases hcreate : w.db.createAnnouncement i.userID node.id (blockFromPrefix subnet) zone.id
    (i.cap h.maxAnnouncedSubnetsPerUser) pool with ⟨res, db'⟩
  cases res with
  | error e =>
    -- the store's error becomes the response, and the rejected operation has written nothing
    left
    rcases @DB.createAnnouncement_cases w.db i.userID node.id (blockFromPrefix subnet) zone.id
      (i.cap h.maxAnnouncedSubnetsPerUser) pool with ⟨hsame, -⟩ | ⟨a, -, -, -, -, -, hrun⟩ |
        ⟨a, -, -, -, -, -, -, hrun⟩ | ⟨synthetic, -, hrun⟩
    · rw [hcreate] at hsame
      refine ⟨createAnnouncementError e, ?_, ?_⟩
      · cases e <;> rfl
      · simp only at hsame
        rw [hsame]
        rfl
    · rw [hcreate] at hrun
      cases hrun
    · rw [hcreate] at hrun
      cases hrun
    · rw [hcreate] at hrun
      cases hrun
  | ok x =>
    right
    obtain ⟨ann, attached⟩ := x
    simp only
    cases attached with
    | false =>
      intro _
      exact ⟨ann, false, rfl, rfl⟩
    | true =>
      rw [if_pos rfl, run_bind]
      intro hok
      -- a failed data plane answers an error, so a success went through all of growDataplane
      cases hgrow : ((growDataplane zone node ann).run (sem parseKey) false { w with db := db' }).1 with
      | false =>
        rw [hgrow] at hok
        cases hok
      | true =>
        refine ⟨ann, true, ?_, rfl⟩
        exact congrArg (Prod.mk (Except.ok (ann, true))) (growDataplane_true hgrow).symm

theorem ends_createAnnouncement (h : Server κ) {name : String} {req : CreateAnnouncementRequest} :
    Ends parseKey w (createAnnouncement h (some i) name (some req)) fun r w' => r.isError = false →
      ∃ zone ∈ w.db.zones, zone.name = name ∧
      ∃ node ∈ w.db.nodes, node.id = req.nodeID ∧ node.userID = i.userID ∧
      ∃ pool, h.announcePool = some pool ∧ ∃ p, parsePrefix4 req.subnet = some p ∧
      validAnnouncedSubnet h p.masked = none ∧ ∃ ann attached,
        w.db.createAnnouncement i.userID node.id (blockFromPrefix p.masked) zone.id
          (i.cap h.maxAnnouncedSubnetsPerUser) pool = (.ok (ann, attached), w'.db) ∧
        r = ⟨201, .announcement ann.id node.id node.name i.username ann.real.toPrefix
          ann.synthetic.toPrefix⟩ := by
  show Ends parseKey w (memberZone name i.userID fun zone => _) _
  apply ends_memberZone
  intro zone hzone hname
  cases hpool : h.announcePool with
  | none => exact ends_error rfl
  | some pool =>
    apply ends_ownedNode
    intro node hnode hid huser
    split_ifs with hplatform
    · exact ends_error rfl
    · cases hp : parsePrefix4 req.subnet with
      | none => exact ends_error rfl
      | some p =>
        simp only
        cases hvalid : validAnnouncedSubnet h p.masked with
        | some message => exact ends_error rfl
        | none =>
          apply Ends.mono (ends_announceSubnet h)
          intro r w' haccept hok
          exact ⟨zone, hzone, hname, node, hnode, hid, huser, pool, rfl, p, rfl, hvalid, haccept hok⟩

theorem ends_deleteAnnouncement {name path : String} :
    Ends parseKey w (deleteAnnouncement (some i) name path) fun r w' => r.isError = false →
      ∃ zone ∈ w.db.zones, zone.name = name ∧ ∃ annID, parseInt64 path = some annID ∧
      ∃ x, w.db.detach zone.id annID = (.ok x, w'.db) := by
  show Ends parseKey w (memberZone name i.userID fun zone => _) _
  apply ends_memberZone
  intro zone hzone hname
  -- what comes after the detach changes the dataplane only
  have hkeeps : ∀ (ann : Announcement) (node : Node) (reclaimed : Bool) (w' : World κ), ((do
      let _ ← netfw (.removeZoneRoute zone.id ann.synthetic.toPrefix)
      if reclaimed then
        recomputePeer node.id node.pubKey (uint32ToAddr node.ip)
        return noContent
      else return noContent : Handler Response).run (sem parseKey) false w').2.db = w'.db := by
    intro ann node reclaimed w'
    have honly : (do
        let _ ← netfw (.removeZoneRoute zone.id ann.synthetic.toPrefix)
        if reclaimed then
          recomputePeer node.id node.pubKey (uint32ToAddr node.ip)
          return noContent
        else return noContent : Handler Response).Only Op.KeepsDB := by
      refine ⟨trivial, fun _ => ?_⟩
      cases reclaimed with
      | false => trivial
      | true => exact (only_keeps_recomputePeer _ _ _).bind fun _ => trivial
    exact (leaves_of_only (Q := fun _ db => db = w'.db) honly (fun _ => rfl) w' rfl).run false
  apply ends_pathID
  intro annID hpath
  apply ends_read rfl
  cases hann : w.db.getAnnouncement annID with
  | error e =>
    simp only [StoreOp.exec, hann]
    cases e <;> exact ends_error rfl
  | ok ann =>
    simp only [StoreOp.exec, hann]
    apply ends_read rfl
    cases hnode : w.db.getNodeByID ann.nodeID with
    | error e =>
      simp only [StoreOp.exec, hnode]
      exact ends_error rfl
    | ok node =>
      simp only [StoreOp.exec, hnode]
      split_ifs with hforeign
      · exact ends_error rfl
      · unfold Ends
        rw [run_store]
        simp only [StoreOp.exec]
        rcases hdetach : w.db.detach zone.id annID with ⟨res, db'⟩
        cases res with
        | error e =>
          left
          rcases @DB.detach_cases w.db zone.id annID with ⟨hsame, -⟩ | ⟨a, -, -, hrun⟩
          · obtain rfl : w.db = db' := (congrArg Prod.snd (hsame.symm.trans hdetach))
            cases e <;> exact ⟨_, rfl, rfl⟩
          · cases hdetach.symm.trans hrun
        | ok x =>
          right
          intro _
          obtain ⟨b, reclaimed⟩ := x
          refine ⟨zone, hzone, hname, annID, hpath, ⟨b, reclaimed⟩, ?_⟩
          rw [hdetach]
          exact congrArg (Prod.mk (Except.ok (b, reclaimed)))
            (hkeeps ann node reclaimed { w with db := db' }).symm

end
end LanWeave

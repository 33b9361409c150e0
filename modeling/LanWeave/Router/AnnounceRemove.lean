import LanWeave.Router.Reads

/-! `announce remove` after an `announce add` with the same arguments: what the two together leave
of the server's announcements and of the router's table. -/

namespace LanWeave
open Library Prog Cli

/-- The subnet is written as the server writes it. -/
def CanonicalSubnet (subnet : String) : Prop :=
  (parsePrefix4 subnet).map (fun p => p.masked.text) = some subnet

instance (subnet : String) : Decidable (CanonicalSubnet subnet) := inferInstanceAs (Decidable (_ = _))

theorem toPrefix_blockFromPrefix {p : Prefix} (h4 : p.addr.is4 = true) :
    (blockFromPrefix p.masked).toPrefix = p.masked := by
  obtain ⟨a | a, n⟩ := p
  · rw [blockFromPrefix, Prefix.masked_masked]
    rfl
  · cases h4

namespace DB
variable {db db' : DB}

theorem After.ids_pos (ha : After db db') (hseq : 0 ≤ db.seqAnnouncements)
    (hpos : ∀ a ∈ db.announcements, 0 < a.id) :
    0 ≤ db'.seqAnnouncements ∧ ∀ a ∈ db'.announcements, 0 < a.id := by
  refine ⟨hseq.trans ha.seqAnnouncements, fun a hmem => ?_⟩
  by_cases hold : a.id ≤ db.seqAnnouncements
  · exact hpos a (ha.announcements a hmem hold)
  · omega

theorem Reachable.ids_pos {κ : Type} {h : Server κ} (hr : db.Reachable h) :
    0 ≤ db.seqAnnouncements ∧ ∀ a ∈ db.announcements, 0 < a.id := by
  induction hr with
  | empty => exact ⟨le_rfl, fun a ha => absurd ha List.not_mem_nil⟩
  | statement o _ _ ih => exact (StoreOp.exec_after o _).ids_pos ih.1 ih.2
  | password zoneID hash _ ih => exact ih
  | registered username passwordHash code now _ ih =>
    rw [Registry.register_db]
    exact (StoreOp.exec_after (.register username passwordHash _) _).ids_pos ih.1 ih.2

theorem detachOne_sameMembers (annID zoneID : Int) : (db.detachOne annID zoneID).SameMembers db := by
  unfold detachOne reclaimIfOrphaned
  split_ifs <;> exact ⟨rfl, rfl, rfl⟩

theorem detach_sameMembers {zoneID annID : Int} {x : Announcement × Bool}
    (hdetach : db.detach zoneID annID = (.ok x, db')) : db'.SameMembers db := by
  rcases detach_cases db zoneID annID with ⟨hrun, -⟩ | ⟨a, -, -, hrun⟩
  · cases hrun.symm.trans hdetach
  · obtain rfl := congrArg Prod.snd (hrun.symm.trans hdetach)
    exact detachOne_sameMembers annID zoneID

theorem SameMembers.trans {db'' : DB} (h : db''.SameMembers db') (h' : db'.SameMembers db) :
    db''.SameMembers db :=
  ⟨h.nodes.trans h'.nodes, h.zones.trans h'.zones, h.zoneMembers.trans h'.zoneMembers⟩

theorem SameMembers.participates (h : db'.SameMembers db) (userID : Int) (zone : Zone) :
    db'.participates userID zone = db.participates userID zone := by
  unfold DB.participates
  rw [h.nodes, h.zoneMembers]

/-- The same announcements are translated by the same rules. -/
theorem SameMembers.listedRules (h : db'.SameMembers db) (hsame : db'.SameAnnouncements db)
    (userID nodeID : Int) : db'.listedRules userID nodeID = db.listedRules userID nodeID := by
  unfold DB.listedRules
  simp only [h.participates, h.zones, hsame.1, hsame.2]

section
variable {zoneID nodeID : Int} {subnet : String}

theorem text_response {row : AnnouncementRow} {a : Announcement} (hshows : row.Shows a) :
    row.response.subnet = a.real.toPrefix.text := congrArg Prefix.text hshows.real

theorem announced_of_mem (hw : db.Wf) (hlen : ∀ a ∈ db.announcements, a.prefixLen ≤ 32)
    {a : Announcement} (ha : a ∈ db.announcementsInZone zoneID) (htext : a.real.toPrefix.text = subnet) :
    announced ((db.listByZone zoneID).map (·.response)) a.nodeID subnet = a.id := by
  obtain ⟨row, hrow, hshows⟩ := exists_listByZone hw ha
  unfold announced
  cases hfind : ((db.listByZone zoneID).map (·.response)).find? fun x =>
      x.nodeID = a.nodeID ∧ x.subnet = subnet with
  | none =>
    have hno := List.find?_eq_none.mp hfind row.response (List.mem_map_of_mem hrow)
    exact absurd (decide_eq_true ⟨hshows.nodeID, (text_response hshows).trans htext⟩) hno
  | some x =>
    have hpred := List.find?_some hfind
    obtain ⟨hnode, hx⟩ := of_decide_eq_true hpred
    obtain ⟨row', hrow', rfl⟩ := List.mem_map.mp (List.mem_of_find?_eq_some hfind)
    obtain ⟨b, hb, hshows'⟩ := listByZone_shows hw hrow'
    have hmem := ((mem_announcementsInZone hw).mp ha).1
    have hmem' := ((mem_announcementsInZone hw).mp hb).1
    have htexts : b.real.toPrefix.text = a.real.toPrefix.text :=
      (text_response hshows').symm.trans (hx.trans htext.symm)
    have hreal : b.real = a.real := by
      apply Block.toPrefix_inj
      have hparse := parsePrefix4_text (b := b.real) (hlen b hmem')
      rw [htexts, parsePrefix4_text (hlen a hmem)] at hparse
      exact (Option.some.inj hparse).symm
    have hsame := hw.announcement_real b hmem' a hmem (Prod.ext (hshows'.nodeID.symm.trans hnode) hreal)
    dsimp only
    rw [← hsame]
    exact hshows'.id

/-- A text that the server does not write is not found. -/
theorem announced_of_not_canonical (hw : db.Wf)
    (hsubnets : ∀ a ∈ db.announcements, a.real.Aligned ∧ a.prefixLen ≤ 32)
    (hcanonical : ¬CanonicalSubnet subnet) :
    announced ((db.listByZone zoneID).map (·.response)) nodeID subnet = 0 := by
  unfold announced
  cases hfind : ((db.listByZone zoneID).map (·.response)).find? fun x =>
      x.nodeID = nodeID ∧ x.subnet = subnet with
  | none => rfl
  | some x =>
    have hpred := List.find?_some hfind
    obtain ⟨-, hx⟩ := of_decide_eq_true hpred
    obtain ⟨row, hrow, rfl⟩ := List.mem_map.mp (List.mem_of_find?_eq_some hfind)
    obtain ⟨a, ha, hshows⟩ := listByZone_shows hw hrow
    obtain ⟨haligned, hlen⟩ := hsubnets a ((mem_announcementsInZone hw).mp ha).1
    apply absurd _ hcanonical
    rw [← hx, text_response hshows, CanonicalSubnet, parsePrefix4_text hlen, Option.map_some,
      Block.toPrefix_masked haligned]

end
end DB

section
variable {κ : Type} [DecidableEq κ] (parseKey : String → Option κ) {w : World κ} {i : Identity}
  {zone : Zone} {a : Announcement} {n : Node}

/-- An announcement of the user's own node can be withdrawn from a zone it is attached to. -/
theorem run_deleteAnnouncement (hw : w.db.Wf) (hzone : zone ∈ w.db.zones)
    (hparticipates : w.db.participates i.userID zone = true) (ha : a ∈ w.db.announcementsInZone zone.id)
    (hn : n ∈ w.db.nodes) (hnode : n.id = a.nodeID) (huser : n.userID = i.userID)
    (hfits : inInt64 a.id = true) :
    ((deleteAnnouncement (some i) zone.name (toString a.id)).run (sem parseKey) false w).1 =
      noContent := by
  obtain ⟨hmem, hatt⟩ := (DB.mem_announcementsInZone hw).mp ha
  have hfind : w.db.zones.find? (fun z => z.name = zone.name) = some zone :=
    hw.zone_name.find?_eq_some_iff.mpr ⟨hzone, rfl⟩
  have hname : w.db.getByName zone.name = .ok (some zone) := by rw [DB.getByName, hfind]
  have hparse : parseInt64 (toString a.id) = some a.id := by
    rw [parseInt64_toString, Option.filter_some, if_pos hfits]
  have hid : w.db.announcementByID? a.id = some a := (DB.announcementByID?_eq_some hw).mpr ⟨hmem, rfl⟩
  have hann : w.db.getAnnouncement a.id = .ok a := by rw [DB.getAnnouncement, hid]
  have hby : w.db.getNodeByID a.nodeID = .ok n := hnode ▸ DB.getNodeByID_of_mem hw hn
  show ((memberZone zone.name i.userID fun zone => _).run (sem parseKey) false w).1 = _
  rw [memberZone, namedZone, run_store]
  simp only [StoreOp.exec, hname]
  rw [run_store]
  simp only [StoreOp.exec, DB.isParticipant_of_participates hzone hparticipates]
  rw [pathID, hparse]
  simp only
  rw [run_store]
  simp only [StoreOp.exec, hann]
  rw [run_store]
  simp only [StoreOp.exec, hby]
  rw [if_neg fun hforeign => hforeign.1 huser, run_store]
  rcases DB.detach_cases w.db zone.id a.id with ⟨-, hnone⟩ | ⟨b, -, -, hdetach⟩
  · exact absurd hatt (hnone a hid)
  · simp only [StoreOp.exec, hdetach]
    rw [run_netfw]
    split_ifs
    · rw [run_bind]
      rfl
    · rfl

end

section
variable {κ : Type} [DecidableEq κ] {h : Handlers κ} {i : Identity} {s s' : Installation κ}
  {c c' : ApiClient} {rec : Record} {subnet zone : String} {log : List (Sigma HostOp.Result)}
  {tr : List (HostOp × Conditions)} {code : Nat}

theorem network_of_rebuildFromServer
    (hsay : (rebuildFromServer c rec).Says (Installation.sem h i) s log (true, c') s') :
    ∃ network, parsePrefix4 rec.network = some network := by
  cases hnetwork : parsePrefix4 rec.network with
  | some network => exact ⟨network, rfl⟩
  | none =>
    obtain ⟨_, _, ⟨zones, c₁⟩, _, -, -, hsay₁⟩ := says_bind.mp hsay
    cases zones with
    | error err =>
      obtain ⟨-, hres, -⟩ := hsay₁
      cases hres
    | ok zones =>
      obtain ⟨_, _, ⟨res, c₂⟩, _, -, -, hsay₂⟩ := says_bind.mp hsay₁
      cases res with
      | error err =>
        obtain ⟨-, hres, -⟩ := hsay₂
        cases hres
      | ok entries =>
        simp only [hnetwork] at hsay₂
        obtain ⟨-, hres, -⟩ := hsay₂
        cases hres

theorem accepted_of_announceAdd
    (hsay : (cmdAnnounceAdd c rec subnet zone).Says (Installation.sem h i) s log (0, c') s') :
    (∃ network, parsePrefix4 rec.network = some network) ∧
    ∃ z ∈ s.site.world.db.zones, z.name = zone ∧
      (∃ node ∈ s.site.world.db.nodes, node.id = rec.nodeID ∧ node.userID = i.userID) ∧
      ∃ p, parsePrefix4 subnet = some p ∧ ∃ userID limit pool a attached,
        (StoreOp.createAnnouncement userID rec.nodeID (blockFromPrefix p.masked) z.id limit pool).Issued
          h.toServer ∧
        s.site.world.db.createAnnouncement userID rec.nodeID (blockFromPrefix p.masked) z.id limit pool =
          (.ok (a, attached), s'.site.world.db) := by
  obtain ⟨log₁, log₂, ⟨res, c₁⟩, s₁, rfl, hcreate, hrest⟩ := says_bind.mp hsay
  obtain ⟨-, hserved⟩ := says_request (fun _ => ApiCall.noConfusion) hcreate
  cases res with
  | error err =>
    -- exit code 0 excludes every branch but the last
    obtain ⟨-, hcode, -⟩ := hrest
    cases hcode
  | ok ann =>
    obtain ⟨t, c₂, hout, hsite⟩ := hserved ann rfl
    obtain ⟨z, hz, hname, hnode, p, hp, ⟨userID, limit, pool, a, attached, hissued, hcreated,
      -⟩, hparse⟩ :=
      created_of_ok hout
    obtain ⟨synthetic, hsynthetic⟩ := Option.isSome_iff_exists.mp hparse
    dsimp only at hrest
    rw [hsynthetic] at hrest
    obtain ⟨_, _, clash, s₂, -, hcheck, hrest₁⟩ := says_bind.mp hrest
    have hsame : s₂.site = s₁.site := by
      obtain ⟨e, _, -, -, -, rfl⟩ := hcheck
      rfl
    cases clash with
    | true =>
      obtain ⟨_, _, c₃, s₃, -, -, hend⟩ := says_bind.mp hrest₁
      obtain ⟨-, hcode, -⟩ := hend
      cases hcode
    | false =>
      obtain ⟨_, _, ⟨ok, c₃⟩, s₃, -, hrebuild, hrest₂⟩ := says_bind.mp hrest₁
      cases ok with
      | true =>
        obtain ⟨-, -, rfl⟩ := hrest₂
        rw [← hsite, ← hsame, ← (says_rebuildFromServer hrebuild).1] at hcreated
        exact ⟨network_of_rebuildFromServer hrebuild, z, hz, hname, hnode, p, hp, userID, limit, pool, a,
          attached, hissued, hcreated⟩
      | false =>
        obtain ⟨_, _, c₄, s₄, -, -, hend⟩ := says_bind.mp hrest₂
        obtain ⟨-, hcode, -⟩ := hend
        cases hcode

section
variable {z : Zone} (hr : s.site.world.db.Reachable h.toServer) (hz : z ∈ s.site.world.db.zones)
  (hparticipates : s.site.world.db.participates i.userID z = true)
  (hrun : (cmdAnnounceRemove c rec subnet z.name).Runs (Installation.sem h i) s tr (code, c') s')
  (hok : ∀ y ∈ tr, Succeeds y.1 y.2 = true)
include hr hz hparticipates hrun hok

theorem code_of_not_canonical (hcanonical : ¬CanonicalSubnet subnet) : code = 1 := by
  have hp := hr.planned
  obtain ⟨tr₁, tr₂, _, s₁, rfl, hlist, hrest⟩ := runs_bind.mp hrun
  obtain ⟨rfl, rfl⟩ := (reads_listAnnouncements hp.wf hz hparticipates).runs hlist
    fun y hy => hok y (List.mem_append_left _ hy)
  have hnone := @DB.announced_of_not_canonical s₁.site.world.db z.id rec.nodeID subnet hp.wf
    (fun a ha => ⟨(hp.subnets a ha).1, hp.announcement_length a ha⟩) hcanonical
  dsimp only at hrest
  rw [if_pos hnone] at hrest
  obtain ⟨-, hres, -⟩ := hrest
  exact (Prod.mk.inj hres).1

theorem withdrawn_of_canonical {a : Announcement} {n : Node} {network : Prefix}
    (ha : a ∈ s.site.world.db.announcementsInZone z.id) (htext : a.real.toPrefix.text = subnet)
    (hn : n ∈ s.site.world.db.nodes) (hnode : n.id = a.nodeID) (huser : n.userID = i.userID)
    (hid : a.nodeID = rec.nodeID) (hfits : inInt64 a.id = true)
    (hnetwork : parsePrefix4 rec.network = some network) :
    (code = 0 ∧ c' = c) ∧ (∃ x, s.site.world.db.detach z.id a.id = (.ok x, s'.site.world.db)) ∧
      s'.nat = some (Natctl.build network (s'.site.world.db.listedRules i.userID rec.nodeID)) := by
  have hp := hr.planned
  -- the command finds the announcement by its text
  have hannounced := DB.announced_of_mem hp.wf hp.announcement_length ha htext
  have hpositive : a.id ≠ 0 := by
    have hpos := hr.ids_pos.2 a ((DB.mem_announcementsInZone hp.wf).mp ha).1
    omega
  obtain ⟨tr₁, tr₂, _, s₁, rfl, hlist, hrest⟩ := runs_bind.mp hrun
  obtain ⟨rfl, rfl⟩ := (reads_listAnnouncements hp.wf hz hparticipates).runs hlist
    fun y hy => hok y (List.mem_append_left _ hy)
  dsimp only at hrest
  rw [← hid, hannounced, if_neg hpositive] at hrest
  obtain ⟨tr₃, tr₄, ⟨res, c₁⟩, s₂, rfl, hdelete, hrest₁⟩ := runs_bind.mp hrest
  have hok₂ : ∀ y ∈ tr₃ ++ tr₄, Succeeds y.1 y.2 = true := fun y hy => hok y (List.mem_append_right _ hy)
  obtain ⟨t, haccepts, hfate, rfl, rfl, rfl⟩ := runs_request (fun _ => ⟨_, rfl⟩) hdelete
    fun y hy => hok₂ y (List.mem_append_left _ hy)
  -- the deletion is answered with success, as the caller's node owns the announcement
  have hwithdrawn : c₁.outcome (.deleteAnnouncement z.name a.id)
      (s₁.site.exchange h i t c₁ (.deleteAnnouncement z.name a.id)).1 = .ok () := by
    have hwire := (@respond_call κ _ h i t s₁.site (.deleteAnnouncement z.name a.id)
      (.deleteAnnouncement z.name (toString a.id)) rfl fun _ => Call.noConfusion).1
    have hanswer : (Prog.run (sem h.parseKey) false
      (handle h.toServer ⟨some i, .deleteAnnouncement z.name
        (toString a.id)⟩) s₁.site.world).1 = noContent :=
      run_deleteAnnouncement h.parseKey hp.wf hz hparticipates ha hn hnode huser hfits
    rw [hanswer] at hwire
    exact outcome_served haccepts hfate rfl hwire
  obtain ⟨z', hz', hname, x, hdetach⟩ := detached_of_ok hwithdrawn
  obtain rfl := hp.wf.zone_name z' hz' z hz hname
  rw [hwithdrawn] at hrest₁
  obtain ⟨tr₅, tr₆, ⟨ok, c₂⟩, s₃, rfl, hrebuild, hend⟩ := runs_bind.mp hrest₁
  obtain ⟨-, hcode, rfl⟩ := hend
  have hr' := hr.statement (.detach z'.id a.id) trivial
  change (s₁.site.world.db.detach z'.id a.id).2.Reachable h.toServer at hr'
  rw [hdetach] at hr'
  obtain ⟨-, rfl, rfl⟩ := runs_rebuildFromServer hr'.planned.wf hr'.planned.announcement_length hnetwork hrebuild
    fun y hy => hok₂ y (List.mem_append_right _ (List.mem_append_left _ hy))
  exact ⟨Prod.mk.inj hcode, ⟨x, hdetach⟩, rfl⟩

end

/-- Where nothing fails and no local network is in the way, an `announce add` that the server accepts
succeeds, and has changed nothing else on the server. -/
theorem code_of_accepted {network : Prefix} (hr : s.site.world.db.Reachable h.toServer)
    (hnetwork : parsePrefix4 rec.network = some network)
    (haccepted : ∀ t, c.accepts t.fingerprint t.verifies = true → t.fate = .served →
      ∃ ann, c.outcome (.createAnnouncement zone rec.nodeID subnet)
        (s.site.exchange h i t c (.createAnnouncement zone rec.nodeID subnet)).1 = .ok ann)
    (hrun : (cmdAnnounceAdd c rec subnet zone).Runs (Installation.sem h i) s tr (code, c') s')
    (hok : ∀ y ∈ tr, Succeeds y.1 y.2 = true ∧ y.2.clash = false) :
    code = 0 ∧ ∃ t, c.accepts t.fingerprint t.verifies = true ∧ t.fate = .served ∧
      s'.site = (s.site.exchange h i t c (.createAnnouncement zone rec.nodeID subnet)).2 := by
  obtain ⟨tr₁, tr₂, ⟨res, c₁⟩, s₁, rfl, hcreate, hrest⟩ := runs_bind.mp hrun
  obtain ⟨t, haccepts, hfate, rfl, rfl, rfl⟩ := runs_request (fun _ => ⟨_, rfl⟩) hcreate
    fun y hy => (hok y (List.mem_append_left _ hy)).1
  obtain ⟨ann, hann⟩ := haccepted t haccepts hfate
  obtain ⟨z, hz, hname, -, p, hp, ⟨userID, limit, pool, a, attached, hissued, hcreated, -⟩, hparse⟩ :=
    created_of_ok hann
  obtain ⟨synthetic, hsynthetic⟩ := Option.isSome_iff_exists.mp hparse
  have hr' := hr.statement _ hissued
  change (s.site.world.db.createAnnouncement userID rec.nodeID (blockFromPrefix p.masked) z.id limit
    pool).2.Reachable h.toServer at hr'
  rw [hcreated] at hr'
  rw [hann] at hrest
  dsimp only at hrest
  rw [hsynthetic] at hrest
  obtain ⟨tr₃, tr₄, clash, s₂, rfl, hcheck, hrest₁⟩ := runs_bind.mp hrest
  obtain ⟨e, _, rfl, -, rfl, rfl⟩ := hcheck
  have hclash : (Installation.sem h i (.localOverlap synthetic) e
      { s with
        site := (s.site.exchange h i t c₁ (.createAnnouncement zone rec.nodeID subnet)).2 }).1 =
          false :=
    (hok (_, e) (List.mem_append_right _ List.mem_cons_self)).2
  rw [hclash] at hrest₁
  obtain ⟨tr₅, tr₆, ⟨ok, c₂⟩, s₃, rfl, hrebuild, hend⟩ := runs_bind.mp hrest₁
  obtain ⟨rfl, -, rfl⟩ := runs_rebuildFromServer hr'.planned.wf hr'.planned.announcement_length hnetwork hrebuild
    fun y hy => (hok y (List.mem_append_right _ (List.mem_append_right _ (List.mem_append_left _ hy)))).1
  obtain ⟨-, hcode, rfl⟩ := hend
  exact ⟨(Prod.mk.inj hcode).1, t, haccepts, hfate, rfl⟩

/-- The node has not announced the subnet to the zone. -/
def DB.NotAnnounced (db : DB) (nodeID : Int) (subnet zone : String) : Prop :=
  ∀ z ∈ db.zones, z.name = zone → ∀ p, parsePrefix4 subnet = some p →
    ∀ a ∈ db.announcements, a.nodeID = nodeID → a.real = blockFromPrefix p.masked →
      ⟨a.id, z.id⟩ ∉ db.announcementZones

/-- If the node has announced the subnet at all, some zone has it. -/
def DB.Offered (db : DB) (nodeID : Int) (subnet : String) : Prop :=
  ∀ p, parsePrefix4 subnet = some p →
    ∀ a ∈ db.announcements, a.nodeID = nodeID → a.real = blockFromPrefix p.masked →
      ∃ az ∈ db.announcementZones, az.announcementID = a.id

/-- The router's table is that of the server's lists. -/
def Installation.InSync (i : Identity) (rec : Record) (s : Installation κ) : Prop :=
  ∀ network, parsePrefix4 rec.network = some network →
    s.nat = some (Natctl.build network (s.site.world.db.listedRules i.userID rec.nodeID))

theorem notYet_iff {db : DB} {nodeID : Int} {z : Zone} (hz : z ∈ db.zones) {p : Prefix}
    (hp : parsePrefix4 subnet = some p) (hnot : db.NotAnnounced nodeID subnet z.name) :
    db.NotYet nodeID (blockFromPrefix p.masked) z.id ↔ db.Offered nodeID subnet := by
  constructor
  · intro hyet q hq a ha hnode hreal
    obtain rfl := Option.some.inj (hq.symm.trans hp)
    exact (hyet a ha hnode hreal).2
  · intro hoffered a ha hnode hreal
    exact ⟨hnot z hz rfl p hp a ha hnode hreal, hoffered p hp a ha hnode hreal⟩

variable {s₁ s₂ : Installation κ} {c₁ c₂ : ApiClient} {tr' : List (HostOp × Conditions)}

/-- After an `announce add` that has succeeded, an undisturbed `announce remove` succeeds and leaves
announcements, attachments and the table as they were before both, exactly if the subnet is
written as the server writes it, if the node had not announced it before or some zone had it, and
if the table was that of the lists. -/
theorem announceRemove_undoes_iff (hr : s.site.world.db.Reachable h.toServer)
    (hnot : s.site.world.db.NotAnnounced rec.nodeID subnet zone)
    (hadd : (cmdAnnounceAdd c rec subnet zone).Runs (Installation.sem h i) s tr (0, c₁) s₁)
    (hids : inInt64 s₁.site.world.db.seqAnnouncements = true)
    (hremove : (cmdAnnounceRemove c' rec subnet zone).Runs (Installation.sem h i) s₁ tr' (code, c₂) s₂)
    (hok : ∀ y ∈ tr', Succeeds y.1 y.2 = true) :
    (code = 0 ∧ s₂.site.world.db.SameAnnouncements s.site.world.db ∧ s₂.nat = s.nat) ↔
      CanonicalSubnet subnet ∧ s.site.world.db.Offered rec.nodeID subnet ∧ s.InSync i rec := by
  obtain ⟨log, hsay⟩ := exists_says_iff.mpr ⟨tr, hadd⟩
  obtain ⟨⟨network, hnetwork⟩, z, hz, rfl, ⟨node, hnode, hid, huser⟩, p, hp, userID, limit, pool, a,
    attached, hissued, hcreated⟩ := accepted_of_announceAdd hsay
  obtain ⟨⟨ha, hnodeID, hreal, hatt⟩, hmember, hsame⟩ := DB.createAnnouncement_ok hcreated
  have hw := hr.planned.wf
  have hr₁ : s₁.site.world.db.Reachable h.toServer := by
    have hstatement := hr.statement _ hissued
    change (s.site.world.db.createAnnouncement userID rec.nodeID (blockFromPrefix p.masked) z.id limit
      pool).2.Reachable h.toServer at hstatement
    rwa [hcreated] at hstatement
  have hz₁ : z ∈ s₁.site.world.db.zones := hsame.zones ▸ hz
  have hnode₁ : node ∈ s₁.site.world.db.nodes := hsame.nodes ▸ hnode
  have hparticipates : s₁.site.world.db.participates i.userID z = true := by
    rw [hsame.participates, ← huser]
    exact DB.participates_of_member hw hnode ⟨⟨z.id, rec.nodeID⟩, hmember, rfl, node, hnode, hid, rfl⟩
  -- the command compares texts: a subnet that is written otherwise is not found again
  by_cases hcanonical : CanonicalSubnet subnet
  · have htext : a.real.toPrefix.text = subnet := by
      rw [hreal, toPrefix_blockFromPrefix (parsePrefix4_v4 hp).1]
      rw [CanonicalSubnet, hp] at hcanonical
      exact Option.some.inj hcanonical
    have hfits : inInt64 a.id = true := by
      have hpos := hr₁.ids_pos.2 a ha
      have hle := hr₁.planned.wf.announcements_seq a ha
      simp only [inInt64, Bool.and_eq_true, decide_eq_true_eq] at hids ⊢
      omega
    obtain ⟨⟨rfl, -⟩, ⟨x, hdetach⟩, hnat⟩ := withdrawn_of_canonical hr₁ hz₁ hparticipates hremove hok
      ((DB.mem_announcementsInZone hr₁.planned.wf).mpr ⟨ha, hatt⟩) htext hnode₁ (hid.trans hnodeID.symm)
      huser hnodeID hfits hnetwork
    have hrestored := DB.same_after_withdrawal_iff hw hcreated hdetach
    rw [notYet_iff hz hp hnot] at hrestored
    rw [hrestored, and_iff_right rfl, and_iff_right hcanonical]
    apply and_congr_right
    intro hoffered
    have hrules := ((DB.detach_sameMembers hdetach).trans hsame).listedRules (hrestored.mpr hoffered)
      i.userID rec.nodeID
    rw [hnat, hrules]
    constructor
    · intro heq other hother
      obtain rfl := Option.some.inj (hother.symm.trans hnetwork)
      exact heq.symm
    · intro hsync
      exact (hsync network hnetwork).symm
  · apply iff_of_false
    · intro hdone
      rw [code_of_not_canonical hr₁ hz₁ hparticipates hremove hok hcanonical] at hdone
      exact absurd hdone.1 Nat.one_ne_zero
    · exact fun hall => hcanonical hall.1

end

theorem labDB_reachable : (labDB [⟨1, 1⟩]).Reachable labServer := by
  have hrange : poolRange labServer.network = some (0x0A000002, 0x0A0000FE) := by decide
  have hadmin : ((StoreOp.createAdmin "alice" "").exec .empty).2.Reachable labServer :=
    .statement _ trivial .empty
  have hrouter := hadmin.statement (.insertNode 1 "router" "key" "openwrt" 0x0A000002 0)
    ⟨rfl, _, _, hrange, by decide, by decide⟩
  exact (hrouter.statement (.insertZone 1 "lab" "passphrase" 0) trivial).statement (.join 1 1) trivial

/-- A router that has announced nothing, and whose table is up to date. -/
def routerIdle : Installation String :=
  { labSite (labDB [⟨1, 1⟩]) with nat := some (Natctl.build ⟨.v4 0x0A000000, 24⟩ []) }

abbrev labSem : Semantics HostOp HostOp.Result Conditions (Installation String) :=
  Installation.sem labServer.bare ⟨1, "alice", true⟩

def labAnnouncement : AnnouncementResponse :=
    ⟨1, 1, "router", "alice", "192.168.7.0/24", "100.127.0.0/24"⟩

/-- The server takes the text for the subnet that it announces then. -/
structure LabAccepts (subnet : String) : Prop where
  answer : (routerIdle.site.ask labServer.bare ⟨1, "alice", true⟩
    (.call (.createAnnouncement "lab" (some ⟨1, subnet⟩)))).wire (.createAnnouncement "lab" 1 subnet) =
      .ok (some labAnnouncement)
  rows : ∀ t, (routerIdle.site.respond labServer.bare ⟨1, "alice", true⟩ t
    (.createAnnouncement "lab" 1 subnet)).2.world.db = labAnnounced

theorem lab_runs {subnet : String} (haccepts : LabAccepts subnet) :
    ∃ tr s₁ c₁ tr' code c₂ s₂,
      (cmdAnnounceAdd routerClient routerRecord subnet "lab").Runs labSem routerIdle tr (0, c₁) s₁ ∧
      s₁.site.world.db = labAnnounced ∧
      (cmdAnnounceRemove routerClient routerRecord subnet "lab").Runs labSem s₁ tr' (code, c₂) s₂ ∧
      ∀ y ∈ tr', Succeeds y.1 y.2 = true := by
  rcases hres : (cmdAnnounceAdd routerClient routerRecord subnet "lab").run labSem undisturbed routerIdle with
    ⟨⟨code, c₁⟩, s₁⟩
  obtain ⟨tr, hadd, hconst⟩ := runs_const_iff.mpr hres
  have hok : ∀ y ∈ tr, Succeeds y.1 y.2 = true ∧ y.2.clash = false := by
    intro y hy
    rw [hconst y hy]
    exact ⟨succeeds_undisturbed y.1, rfl⟩
  have hnetwork : parsePrefix4 routerRecord.network = some ⟨.v4 0x0A000000, 24⟩ := by decide
  have hserved : ∀ t, routerClient.accepts t.fingerprint t.verifies = true → t.fate = .served →
      ∃ ann, routerClient.outcome (.createAnnouncement "lab" 1 subnet)
        (routerIdle.site.exchange labServer.bare
        ⟨1, "alice", true⟩ t routerClient (.createAnnouncement "lab" 1 subnet)).1 = .ok ann :=
    fun t htrusts hfate => ⟨labAnnouncement, outcome_served htrusts hfate rfl haccepts.answer⟩
  obtain ⟨rfl, t, htrusts, hfate, hsite⟩ := code_of_accepted labDB_reachable hnetwork hserved hadd hok
  have hrows : s₁.site.world.db = labAnnounced := by
    rw [hsite, Site.exchange, htrusts, hfate]
    exact haccepts.rows t
  rcases hres' : (cmdAnnounceRemove routerClient routerRecord subnet "lab").run labSem undisturbed s₁ with
    ⟨⟨code, c₂⟩, s₂⟩
  obtain ⟨tr', hremove, hconst'⟩ := runs_const_iff.mpr hres'
  refine ⟨tr, s₁, c₁, tr', code, c₂, s₂, hadd, hrows, hremove, fun y hy => ?_⟩
  rw [hconst' y hy]
  exact succeeds_undisturbed y.1

/-- Added and removed, the subnet leaves no trace. -/
theorem announceRemove_undoes_iff_lab :
    ∃ tr s₁ c₁ tr' c₂ s₂,
      (cmdAnnounceAdd routerClient routerRecord "192.168.7.0/24" "lab").Runs labSem routerIdle tr
        (0, c₁) s₁ ∧
      (cmdAnnounceRemove routerClient routerRecord "192.168.7.0/24" "lab").Runs labSem s₁ tr'
        (0, c₂) s₂ ∧
      s₂.site.world.db.SameAnnouncements (labDB [⟨1, 1⟩]) ∧ s₂.nat = routerIdle.nat := by
  obtain ⟨tr, s₁, c₁, tr', code, c₂, s₂, hadd, hrows, hremove, hok⟩ :=
    @lab_runs "192.168.7.0/24" ⟨rfl, fun _ => rfl⟩
  have hnone : ∀ a, a ∉ routerIdle.site.world.db.announcements := fun _ => List.not_mem_nil
  have hids : inInt64 s₁.site.world.db.seqAnnouncements = true := by
    rw [hrows]
    rfl
  have hsync : routerIdle.InSync ⟨1, "alice", true⟩ routerRecord := by
    intro network hnetwork
    obtain rfl : ⟨.v4 0x0A000000, 24⟩ = network := Option.some.inj hnetwork
    rfl
  obtain ⟨rfl, hsame, hnat⟩ := (announceRemove_undoes_iff labDB_reachable
    (fun _ _ _ _ _ a ha => absurd ha (hnone a)) hadd hids hremove hok).mpr
    ⟨by decide +kernel, fun _ _ a ha => absurd ha (hnone a), hsync⟩
  exact ⟨tr, s₁, c₁, tr', c₂, s₂, hadd, hremove, hsame, hnat⟩

/-- By one of its other addresses the subnet is added, and cannot be removed. -/
theorem announced_not_removed :
    (labDB [⟨1, 1⟩]).Reachable labServer ∧
    (labDB [⟨1, 1⟩]).NotAnnounced routerRecord.nodeID "192.168.7.5/24" "lab" ∧
    ∃ tr s₁ c₁ tr' c₂ s₂,
      (cmdAnnounceAdd routerClient routerRecord "192.168.7.5/24" "lab").Runs labSem routerIdle tr
        (0, c₁) s₁ ∧
      (cmdAnnounceRemove routerClient routerRecord "192.168.7.5/24" "lab").Runs labSem s₁ tr'
        (1, c₂) s₂ ∧
      ∀ y ∈ tr', Succeeds y.1 y.2 = true := by
  obtain ⟨tr, s₁, c₁, tr', code, c₂, s₂, hadd, hrows, hremove, hok⟩ :=
    @lab_runs "192.168.7.5/24" ⟨rfl, fun _ => rfl⟩
  have hreachable : s₁.site.world.db.Reachable labServer := by
    rw [hrows]
    exact labDB_reachable.statement (.createAnnouncement 1 1 ⟨0xC0A80700, 24⟩ 1 0 ⟨.v4 0x647F0000, 16⟩)
      ⟨rfl, ⟨0xC0A807, by decide⟩, by decide, by decide⟩
  have hzone : ⟨1, "lab", "passphrase", 1⟩ ∈ s₁.site.world.db.zones := by
    rw [hrows]
    exact List.mem_singleton.mpr rfl
  have hparticipates : s₁.site.world.db.participates 1 ⟨1, "lab", "passphrase", 1⟩ = true := rfl
  obtain rfl := code_of_not_canonical hreachable hzone hparticipates hremove hok (by decide +kernel)
  exact ⟨labDB_reachable, fun _ _ _ _ _ a ha => absurd ha List.not_mem_nil, tr, s₁, c₁, tr',
    c₂, s₂, hadd,
    hremove, hok⟩

end LanWeave

import LanWeave.Router.AnnounceAdd

/-! Runs of the router's commands in which every request is served and nothing fails: what the
lists come to, and the table that a rebuild makes of them. -/

namespace LanWeave
open Library Prog Cli

/-- The operation succeeds, as far as the network and the system decide about it. -/
def Succeeds : HostOp → Conditions → Bool
  | .http c _, e => c.accepts e.transit.fingerprint e.transit.verifies && e.transit.fate.isServed
  | _, e => !e.fails

section
variable {κ : Type} [DecidableEq κ] {h : Handlers κ} {i : Identity} {e : Conditions} {x : Site κ}
  {c : ApiClient} {call : ApiCall} {ep : Endpoint}

theorem served_of_succeeds (he : Succeeds (.http c call) e = true) :
    c.accepts e.transit.fingerprint e.transit.verifies = true ∧ e.transit.fate = .served := by
  obtain ⟨haccepts, hserved⟩ := Bool.and_eq_true_iff.mp he
  cases hfate : e.transit.fate with
  | served => exact ⟨haccepts, rfl⟩
  | _ =>
    rw [hfate] at hserved
    cases hserved

theorem outcome_served {t : Transit} (haccepts : c.accepts t.fingerprint t.verifies = true)
    (hfate : t.fate = .served) (hep : call.endpoint t.salt = some ep) {body : call.Body}
    (hwire : (x.ask h i ep).wire call = .ok (some body)) :
    c.outcome call (x.exchange h i t c call).1 = .ok body := by
  unfold Site.ask at hwire
  unfold Site.exchange Site.respond
  simp only [haccepts, hfate, hep, hwire, Bool.not_true, Bool.false_eq_true, if_false,
    ApiClient.outcome]

theorem request_served (h : Handlers κ) (i : Identity) (c : ApiClient)
    (hep : ∀ salt, ∃ ep, call.endpoint salt = some ep) :
    ∃ k, request c call = .op (.http c call) k ∧ ∀ t s, Transit.fate t = .served →
      k (Site.exchange h i t c call s).1 =
        .pure (c.outcome call (Site.exchange h i t c call s).1, c) := by
  refine ⟨_, rfl, ?_⟩
  intro t s hfate
  obtain ⟨ep, hep⟩ := hep t.salt
  have hnot := @not_expired_of_served κ _ h i t s c call hfate ep hep
  apply if_neg
  intro hagain
  simp only [Bool.and_eq_true] at hagain
  exact hnot (eq_of_expired hagain.1.2)

variable {α β : Type} {v : α} {b : β}

/-- The program makes reading requests and comes to `v`, if they are served while the site is `x`. -/
def Cli.Reads (h : Handlers κ) (i : Identity) (x : Site κ) (v : α) : Cli α → Prop
  | .pure a => a = v
  | .op (.http c call) k => call.Reading ∧ ∀ t, c.accepts t.fingerprint t.verifies = true →
      t.fate = .served → Cli.Reads h i x v (k (x.exchange h i t c call).1)
  | .op _ _ => False

theorem Cli.Reads.bind {p : Cli β} {f : β → Cli α} (hp : Reads h i x b p) (hf : Reads h i x v (f b)) :
    Reads h i x v (p >>= f) := by
  induction p with
  | pure b' =>
    obtain rfl : b' = b := hp
    exact hf
  | op o k ih =>
    cases o with
    | http c call => exact ⟨hp.1, fun t haccepts hfate => ih _ (hp.2 t haccepts hfate)⟩
    | _ => exact hp.elim

/-- Run alone such a program comes to that and leaves everything as it is. -/
theorem Cli.Reads.runs {p : Cli α} {s s' : Installation κ} {tr : List (HostOp × Conditions)} {a : α}
    (hp : Reads h i s.site v p) (hrun : p.Runs (Installation.sem h i) s tr a s')
    (hok : ∀ y ∈ tr, Succeeds y.1 y.2 = true) : a = v ∧ s' = s := by
  induction p generalizing tr with
  | pure b =>
    obtain ⟨-, rfl, rfl⟩ := hrun
    exact ⟨hp, rfl⟩
  | op o k ih =>
    cases o with
    | http c call =>
      obtain ⟨e, tr, rfl, hrun⟩ := hrun
      obtain ⟨haccepts, hfate⟩ := served_of_succeeds (hok _ List.mem_cons_self)
      have hsame : (Installation.sem h i (.http c call) e s).2 = s := by
        show { s with site := (s.site.exchange h i e.transit c call).2 } = s
        rw [exchange_reading hp.1]
      rw [hsame] at hrun
      exact ih _ (hp.2 e.transit haccepts hfate) hrun fun y hy => hok y (List.mem_cons_of_mem _ hy)
    | _ => exact hp.elim

theorem reads_request (hep : ∀ salt, call.endpoint salt = some ep) (hreading : call.Reading)
    {body : call.Body} (hwire : (x.ask h i ep).wire call = .ok (some body)) :
    Reads h i x (.ok body, c) (request c call) := by
  obtain ⟨k, hrequest, hk⟩ := request_served h i c fun salt => ⟨ep, hep salt⟩
  rw [hrequest]
  refine ⟨hreading, fun t haccepts hfate => ?_⟩
  rw [hk t x hfate, outcome_served haccepts hfate (hep _) hwire]
  rfl

theorem reads_listZones : Reads h i x
    (.ok ((x.world.db.listForUser i.userID).map (·.response)), c) (request c .listZones) := by
  have hreading : ApiCall.listZones.Reading := trivial
  exact reads_request (fun _ => rfl) hreading rfl

theorem reads_listAnnouncements (hw : x.world.db.Wf) {zone : Zone} (hzone : zone ∈ x.world.db.zones)
    (hparticipates : x.world.db.participates i.userID zone = true) : Reads h i x
      (.ok ((x.world.db.listByZone zone.id).map (·.response)), c)
      (request c (.listAnnouncements zone.name)) := by
  have hask : x.ask h i (.listAnnouncements zone.name) =
      .announcements (x.world.db.listByZone zone.id) := run_participant hw hzone hparticipates _
  have hreading : (ApiCall.listAnnouncements zone.name).Reading := trivial
  exact reads_request (fun _ => rfl) hreading (by rw [hask]; rfl)

theorem reads_zoneMembers (hw : x.world.db.Wf) {zone : Zone} (hzone : zone ∈ x.world.db.zones)
    (hparticipates : x.world.db.participates i.userID zone = true) : Reads h i x
      (.ok ((x.world.db.membersByZone zone.id).map (·.response)), c)
      (request c (.zoneMembers zone.name)) := by
  have hask : x.ask h i (.zoneMembers zone.name) =
      .members (x.world.db.membersByZone zone.id) := run_participant hw hzone hparticipates _
  have hreading : (ApiCall.zoneMembers zone.name).Reading := trivial
  exact reads_request (fun _ => rfl) hreading (by rw [hask]; rfl)

section
variable {ε ε' : Type} {zone : String} {byID byID' : List RouteSync.Entry}

theorem addAnnouncement_of_ok {a : AnnouncementResponse}
    (hadd : RouteSync.addAnnouncement (ε := ε) parsePrefix4 zone byID a = .ok byID') :
    RouteSync.addAnnouncement (ε := ε') parsePrefix4 zone byID a = .ok byID' := by
  unfold RouteSync.addAnnouncement at hadd ⊢
  split_ifs at hadd ⊢
  · rw [Except.ok.inj hadd]
  · cases hreal : parsePrefix4 a.subnet with
    | none =>
      rw [hreal] at hadd
      cases hadd
    | some real =>
      cases hsynth : parsePrefix4 a.synthetic with
      | none =>
        rw [hreal, hsynth] at hadd
        cases hadd
      | some synth =>
        simp only [hreal, hsynth] at hadd ⊢
        rw [Except.ok.inj hadd]

theorem addAnnouncements_of_ok {as : List AnnouncementResponse}
    (hadd : as.foldlM (RouteSync.addAnnouncement (ε := ε) parsePrefix4 zone) byID = .ok byID') :
    as.foldlM (RouteSync.addAnnouncement (ε := ε') parsePrefix4 zone) byID = .ok byID' := by
  induction as generalizing byID with
  | nil =>
    rw [Except.ok.inj hadd]
    rfl
  | cons a as ih =>
    rw [List.foldlM_cons] at hadd ⊢
    cases hstep : RouteSync.addAnnouncement (ε := ε) parsePrefix4 zone byID a with
    | error err =>
      rw [hstep] at hadd
      cases hadd
    | ok mid =>
      rw [hstep] at hadd
      rw [addAnnouncement_of_ok hstep]
      exact ih hadd

end

theorem reads_addZones (hw : x.world.db.Wf) {zones : List ZoneResponse}
    (hz : ∀ z ∈ zones, ∃ zone, x.world.db.Answers i.userID z zone) {byID byID' : List RouteSync.Entry}
    (hadd : zones.foldlM (RouteSync.addZone parsePrefix4 (siteApi h x i).listAnnouncements) byID =
      .ok byID') :
    Reads h i x (.ok byID', c) (addZones c byID zones) := by
  induction zones generalizing byID with
  | nil =>
    rw [Except.ok.inj hadd]
    rfl
  | cons z zones ih =>
    obtain ⟨zone, hzone, hname, hparticipates⟩ := hz z List.mem_cons_self
    have hlist := siteApi_listAnnouncements (h := h) hw hzone hparticipates
    have hread := @reads_listAnnouncements κ _ h i x c hw zone hzone hparticipates
    rw [hname] at hlist hread
    rw [List.foldlM_cons, RouteSync.addZone, hlist] at hadd
    dsimp only at hadd
    cases hstep : ((x.world.db.listByZone zone.id).map (·.response)).foldlM
        (RouteSync.addAnnouncement (ε := Answer) parsePrefix4 z.name) byID with
    | error err =>
      rw [hstep] at hadd
      cases hadd
    | ok mid =>
      rw [hstep] at hadd
      apply hread.bind
      have hmid : RouteSync.addZone parsePrefix4 (fun _ => (.ok ((x.world.db.listByZone zone.id).map
          (·.response)) : Except ApiErr _)) byID z = .ok mid := addAnnouncements_of_ok hstep
      simp only [hmid]
      exact ih (fun z hmem => hz z (List.mem_cons_of_mem _ hmem)) hadd

theorem reads_fetch (hw : x.world.db.Wf) {zones : List ZoneResponse}
    (hz : ∀ z ∈ zones, ∃ zone, x.world.db.Answers i.userID z zone) {entries : List RouteSync.Entry}
    (hfetch : RouteSync.fetch parsePrefix4 zones (siteApi h x i).listAnnouncements = .ok entries) :
    Reads h i x (.ok entries, c) (fetch c zones) := by
  unfold RouteSync.fetch at hfetch
  cases hadd : zones.foldlM (RouteSync.addZone parsePrefix4 (siteApi h x i).listAnnouncements) [] with
  | error err =>
    rw [hadd] at hfetch
    cases hfetch
  | ok byID =>
    rw [hadd] at hfetch
    apply (reads_addZones hw hz hadd).bind
    rw [← Except.ok.inj hfetch]
    rfl

theorem reads_memberZones (hw : x.world.db.Wf) {zones : List ZoneResponse}
    (hz : ∀ z ∈ zones, ∃ zone, x.world.db.Answers i.userID z zone) (selfIP : String) :
    Reads h i x (RouteSync.memberZones zones (siteApi h x i).zoneMembers selfIP, c)
      (memberZones c selfIP zones) := by
  induction zones with
  | nil => rfl
  | cons z zones ih =>
    obtain ⟨zone, hzone, hname, hparticipates⟩ := hz z List.mem_cons_self
    have hmembers := siteApi_zoneMembers (h := h) hw hzone hparticipates
    have hread := @reads_zoneMembers κ _ h i x c hw zone hzone hparticipates
    rw [hname] at hmembers hread
    apply hread.bind
    apply (ih fun z hmem => hz z (List.mem_cons_of_mem _ hmem)).bind
    unfold RouteSync.memberZones
    rw [List.filter_cons, hmembers]
    rfl

end

/-- What the lists of this user's zones have the node translate. -/
def DB.listedRules (db : DB) (userID nodeID : Int) : List Natctl.Rule :=
  (db.announcements.filter fun a => a.nodeID = nodeID ∧ ∃ az ∈ db.announcementZones,
    az.announcementID = a.id ∧ ∃ z ∈ db.zones, z.id = az.zoneID ∧ db.participates userID z = true).map
      fun a => ⟨a.synthetic.toPrefix, a.real.toPrefix⟩

theorem DB.Aggregated.listedRules {db : DB} {userID : Int} {entries : List RouteSync.Entry}
    (hagg : db.Aggregated userID ((db.listForUser userID).map (·.response)) entries) (hw : db.Wf)
    (nodeID : Int) :
    LanWeave.natRules (RouteSync.mine entries nodeID) = db.listedRules userID nodeID := by
  refine Ascending.map_eq_map (hagg.ascending.sublist List.filter_sublist)
    (hw.announcements_asc.sublist List.filter_sublist) ?_ ?_
  · intro e he
    obtain ⟨hmem, hnode⟩ := List.mem_filter.mp he
    obtain ⟨z, -, zone, hans, a, ha, hshows⟩ := hagg.sound e hmem
    obtain ⟨ha, hatt⟩ := (mem_announcementsInZone hw).mp ha
    have hmine : a.nodeID = nodeID := hshows.nodeID.symm.trans (of_decide_eq_true hnode)
    refine ⟨a, List.mem_filter.mpr ⟨ha, decide_eq_true
      ⟨hmine, _, hatt, rfl, zone, hans.1, rfl, hans.2.2⟩⟩,
      hshows.id.symm, ?_⟩
    rw [hshows.synthetic, hshows.subnet]
  · intro a ha
    obtain ⟨hmem, hlisted⟩ := List.mem_filter.mp ha
    obtain ⟨hnode, az, haz, hann, zone, hzone, hid, hparticipates⟩ := of_decide_eq_true hlisted
    have hin : a ∈ db.announcementsInZone zone.id := by
      refine (mem_announcementsInZone hw).mpr ⟨hmem, ?_⟩
      rw [← hann, hid]
      exact haz
    have hrow := List.mem_map_of_mem (f := ZoneWithOwnership.response)
      (DB.mem_listForUser.mpr ⟨zone, hzone, hparticipates, rfl⟩)
    obtain ⟨e, he, hshows⟩ := hagg.complete _ hrow zone ⟨hzone, rfl, hparticipates⟩ a hin
    exact ⟨e, List.mem_filter.mpr ⟨he, decide_eq_true (hshows.nodeID.trans hnode)⟩, hshows.id⟩

section
variable {κ : Type} [DecidableEq κ] {h : Handlers κ} {i : Identity} {s s' : Installation κ}
  {c c' : ApiClient} {call : ApiCall} {tr : List (HostOp × Conditions)}

/-- A request that is served has one answer, and is made once. -/
theorem runs_request (hep : ∀ salt, ∃ ep, call.endpoint salt = some ep) {res : Except ApiErr call.Body}
    (hrun : (request c call).Runs (Installation.sem h i) s tr (res, c') s')
    (hok : ∀ y ∈ tr, Succeeds y.1 y.2 = true) :
    ∃ t, c.accepts t.fingerprint t.verifies = true ∧ t.fate = .served ∧ c' = c ∧
      res = c.outcome call (s.site.exchange h i t c call).1 ∧
      s' = { s with site := (s.site.exchange h i t c call).2 } := by
  obtain ⟨k, hrequest, hk⟩ := request_served h i c hep
  rw [hrequest] at hrun
  obtain ⟨e, tr, rfl, hrun⟩ := hrun
  obtain ⟨haccepts, hfate⟩ := served_of_succeeds (hok _ List.mem_cons_self)
  have hdone : k ((Installation.sem h i) (.http c call) e s).1 = .pure _ := hk e.transit s.site hfate
  rw [hdone] at hrun
  obtain ⟨-, hres, rfl⟩ := hrun
  obtain ⟨rfl, rfl⟩ := Prod.mk.inj hres
  exact ⟨e.transit, haccepts, hfate, rfl, rfl, rfl⟩

theorem DB.rebuild_listedRules (db : DB) (userID nodeID : Int) {network : Prefix}
    (h4 : network.addr.is4 = true) (t : Option Natctl.Table) :
    Natctl.rebuild network (db.listedRules userID nodeID) false t =
      (.ok (), some (Natctl.build network (db.listedRules userID nodeID))) :=
  Natctl.rebuild_announcements h4 _ t

theorem runs_rebuildFromServer {rec : Record} {network : Prefix} {ok : Bool} (hw : s.site.world.db.Wf)
    (hlen : ∀ a ∈ s.site.world.db.announcements, a.prefixLen ≤ 32)
    (hnetwork : parsePrefix4 rec.network = some network)
    (hrun : (rebuildFromServer c rec).Runs (Installation.sem h i) s tr (ok, c') s')
    (hok : ∀ y ∈ tr, Succeeds y.1 y.2 = true) : ok = true ∧ c' = c ∧ s' = { s with
      nat := some (Natctl.build network (s.site.world.db.listedRules i.userID rec.nodeID)) } := by
  obtain ⟨entries, hfetch, hagg⟩ :=
    @fetch_site κ _ h s.site i hw hlen _ fun z hz => DB.answers_listForUser hz
  obtain ⟨tr₁, tr₂, _, s₁, rfl, hzones, hrun₁⟩ := runs_bind.mp hrun
  have hok₁ : ∀ y ∈ tr₁, Succeeds y.1 y.2 = true := fun y hy => hok y (List.mem_append_left _ hy)
  obtain ⟨rfl, rfl⟩ := reads_listZones.runs hzones hok₁
  obtain ⟨tr₃, tr₄, _, s₂, rfl, hentries, hrun₂⟩ := runs_bind.mp hrun₁
  have hok₃ : ∀ y ∈ tr₃, Succeeds y.1 y.2 = true :=
    fun y hy => hok y (List.mem_append_right _ (List.mem_append_left _ hy))
  obtain ⟨rfl, rfl⟩ := (reads_fetch hw (fun z hz => DB.answers_listForUser hz) hfetch).runs hentries hok₃
  simp only [hnetwork] at hrun₂
  obtain ⟨e, tr₅, rfl, hend⟩ := hrun₂
  have hfails : e.fails = false := by
    have he := hok (_, e) (List.mem_append_right _ (List.mem_append_right _ List.mem_cons_self))
    exact (Bool.not_eq_true' _).mp he
  have hsem : Installation.sem h i (.rebuildNat network
    (natRules (RouteSync.mine entries rec.nodeID))) e s₂ =
      (true, { s₂ with
        nat := some (Natctl.build network (s₂.site.world.db.listedRules i.userID rec.nodeID)) }) := by
    have hrebuild := s₂.site.world.db.rebuild_listedRules i.userID rec.nodeID
      (parsePrefix4_v4 hnetwork).1 s₂.nat
    show (let r := Natctl.rebuild network (natRules (RouteSync.mine entries rec.nodeID)) e.fails s₂.nat
      (r.1.toBool, { s₂ with nat := r.2 })) = _
    rw [hagg.listedRules hw rec.nodeID, hfails, hrebuild]
    rfl
  rw [hsem] at hend
  obtain ⟨-, hres, rfl⟩ := hend
  exact ⟨(Prod.mk.inj hres).1, (Prod.mk.inj hres).2, rfl⟩

end
def routerRecord : Record :=
  { Record.empty with
    schemaVersion := 3
    serverURL := "https://lab"
    nodeName := "router"
    ip := "10.0.0.2"
    network := "10.0.0.0/24"
    nodeID := 1 }

/-- Every request is served, and no block overlaps a local network. -/
def undisturbed : Conditions := { clashing with clash := false }

theorem succeeds_undisturbed (o : HostOp) : Succeeds o undisturbed = true := by
  cases o with
  | http c call =>
    have haccepts : c.accepts "" true = true := by rw [ApiClient.accepts, Bool.or_true]
    show (c.accepts "" true && true) = true
    rw [haccepts]
    rfl
  | _ => rfl

end LanWeave

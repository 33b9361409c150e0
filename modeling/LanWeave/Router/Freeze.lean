import LanWeave.Client.RouteBooks
import LanWeave.Golang.NetipText
import LanWeave.Router.Reconcile
import LanWeave.Server.AddressPlan

/-! A cycle in which a call of the API fails: what was derived before stays only where the cycle
ends for it, which a failing member list does not make it do. -/

namespace LanWeave
open RouteSync

section
variable {ε : Type} {rec : Record} {api : ZoneApi ε}

/-- Every member list of the cycle can be had. -/
def MembersRead (api : ZoneApi ε) : Prop :=
  ∀ zones, api.listZones = .ok zones → ∀ z ∈ zones, ∃ ms, api.zoneMembers z.name = .ok ms

/-- The list of zones, or the announcements of a zone that is kept, cannot be had. -/
inductive ListsFail (rec : Record) (api : ZoneApi ε) : Prop
  | zones (err : ε) (h : api.listZones = .error err)
  | announcements (zones : List ZoneResponse) (h : api.listZones = .ok zones) (z : ZoneResponse)
      (hz : z ∈ memberZones zones api.zoneMembers rec.ip) (err : ε)
      (herr : api.listAnnouncements z.name = .error err)

def CallFails (rec : Record) (api : ZoneApi ε) : Prop := ListsFail rec api ∨ ¬ MembersRead api

/-- A listed CIDR of a zone that is kept does not parse. -/
def Malformed (rec : Record) (api : ZoneApi ε) : Prop :=
  ∃ zones, api.listZones = .ok zones ∧ ¬ WellFormed parsePrefix4
    (listed (memberZones zones api.zoneMembers rec.ip) api.listAnnouncements)

theorem memberEntries_isOk_iff : (∃ entries, memberEntries parsePrefix4 rec api = .ok entries) ↔
    ¬(ListsFail rec api ∨ Malformed rec api) := by
  unfold memberEntries
  cases hzones : api.listZones with
  | error err =>
    constructor
    · rintro ⟨_, h⟩
      cases h
    · intro h
      exact absurd (.inl (.zones err hzones)) h
  | ok zones =>
    have hfetch : (∃ entries, fetch parsePrefix4 (memberZones zones api.zoneMembers rec.ip)
          api.listAnnouncements = .ok entries) ↔
        (∀ z ∈ memberZones zones api.zoneMembers rec.ip, ∃ as, api.listAnnouncements z.name = .ok as) ∧
          WellFormed parsePrefix4 (listed (memberZones zones api.zoneMembers rec.ip)
            api.listAnnouncements) := fetch_isOk_iff
    constructor
    · rintro ⟨entries, h⟩
      have hok : ∃ entries, fetch parsePrefix4 (memberZones zones api.zoneMembers rec.ip)
          api.listAnnouncements = .ok entries := by
        cases hf : fetch parsePrefix4 (memberZones zones api.zoneMembers rec.ip)
            api.listAnnouncements with
        | error err =>
          simp only [hf] at h
          cases h
        | ok all => exact ⟨all, rfl⟩
      obtain ⟨hlists, hwf⟩ := hfetch.mp hok
      -- a failed zone list, a failed announcement list, or an entry that does not parse
      rintro ((⟨err, herr⟩ | ⟨zones', hzones', z, hz, err, herr⟩) | ⟨zones', hzones', hmal⟩)
      · cases hzones.symm.trans herr
      · obtain rfl := Except.ok.inj (hzones.symm.trans hzones')
        obtain ⟨as, has⟩ := hlists z hz
        cases has.symm.trans herr
      · obtain rfl := Except.ok.inj (hzones.symm.trans hzones')
        exact hmal hwf
    · intro h
      have hlists : ∀ z ∈ memberZones zones api.zoneMembers rec.ip,
          ∃ as, api.listAnnouncements z.name = .ok as := by
        intro z hz
        cases has : api.listAnnouncements z.name with
        | ok as => exact ⟨as, rfl⟩
        | error err => exact absurd (.inl (.announcements zones hzones z hz err has)) h
      have hwf : WellFormed parsePrefix4
          (listed (memberZones zones api.zoneMembers rec.ip) api.listAnnouncements) := by
        by_contra hmal
        exact h (.inr ⟨zones, hzones, hmal⟩)
      obtain ⟨entries, hentries⟩ := hfetch.mpr ⟨hlists, hwf⟩
      exact ⟨entries, by simp only [hentries]⟩

/-- Where the lists cannot be had or read, a cycle ends before it has changed anything. -/
theorem reconcileAll_of_listsFail (h : ListsFail rec api ∨ Malformed rec api) (natFails : Bool)
    (o : Outside) (r : Router) : (reconcileAll parsePrefix4 rec api natFails o r).2 = r := by
  have hnone := mt memberEntries_isOk_iff.mp (not_not.mpr h)
  unfold reconcileAll
  split_ifs
  · rfl
  · cases hentries : memberEntries parsePrefix4 rec api with
    | error err => rfl
    | ok entries => exact absurd ⟨entries, hentries⟩ hnone

theorem syncRoutes_of_listsFail {η : Type} (h : ListsFail rec api ∨ Malformed rec api) (nodeID : Int)
    (o : Outside) (c : Client η) : (syncRoutes parsePrefix4 rec api nodeID o c).2 = c := by
  have hnone := mt memberEntries_isOk_iff.mp (not_not.mpr h)
  unfold syncRoutes
  cases hentries : memberEntries parsePrefix4 rec api with
  | error err => rfl
  | ok entries => exact absurd ⟨entries, hentries⟩ hnone

theorem is4_of_memberEntries {entries : List Entry}
    (h : memberEntries parsePrefix4 rec api = .ok entries) {e : Entry} (he : e ∈ entries) :
    e.subnet.addr.is4 = true ∧ e.synthetic.addr.is4 = true := by
  unfold memberEntries at h
  split at h
  · cases h
  · next zones hzones =>
    split at h
    · cases h
    · next entries' hfetch =>
      obtain rfl := Except.ok.inj h
      obtain ⟨-, -, hagg⟩ := fetch_ok hfetch
      obtain ⟨x, hx⟩ := hagg.sound e he
      exact ⟨(parsePrefix4_v4 hx.subnet).1, (parsePrefix4_v4 hx.synthetic).1⟩

theorem reconcileAll_builds (hurl : rec.serverURL ≠ "") {network : Prefix}
    (hnetwork : parsePrefix4 rec.network = some network) {entries : List Entry}
    (hentries : memberEntries parsePrefix4 rec api = .ok entries) (o : Outside) (e : Engine) :
    (reconcileAll parsePrefix4 rec api false o ⟨none, e⟩).2.nat ≠ none := by
  have h4 : ((natRules (mine entries rec.nodeID)).all fun r =>
      network.addr.is4 && r.synthetic.addr.is4 && r.real.addr.is4) = true := by
    rw [List.all_eq_true]
    intro rule hrule
    obtain ⟨x, hx, rfl⟩ := List.mem_map.mp hrule
    obtain ⟨hreal, hsynth⟩ := is4_of_memberEntries hentries (List.mem_filter.mp hx).1
    simp only [(parsePrefix4_v4 hnetwork).1, hreal, hsynth, Bool.and_self]
  have hrebuild : Natctl.rebuild network (natRules (mine entries rec.nodeID)) false none =
      (.ok (), some (Natctl.build network (natRules (mine entries rec.nodeID)))) := by
    rw [Natctl.rebuild, if_neg Bool.false_ne_true, if_pos h4]
  simp only [reconcileAll, if_neg hurl, hentries, hnetwork, hrebuild]
  exact Option.some_ne_none _

/-- There is a tunnel whose routes a call changes: a new one if there is something to route, and
otherwise one that has a route. -/
theorem setExtraRoutes_changes (extra : List Prefix) :
    ∃ c : Client Unit, (c.setExtraRoutes extra quiet).2.kernel.routes ≠ c.kernel.routes := by
  let profile : Profile := ⟨true, some "", none, some block, some "server"⟩
  cases hextra : canonicalPrefixes extra with
  | nil =>
    refine ⟨⟨⟨profile, .connected, some (), "lanweave0", [block], [block]⟩,
      ⟨{block}, [block, block]⟩⟩, ?_⟩
    simp [Client.setExtraRoutes, hextra, Tunnel.diffRoutes, routeDiff, routeEach, profile,
      buildPeerUpdate, quiet, Kernel.delRoute, Kernel.replaceAllowedIPs,
      show block.masked = block by decide, ipNet_eq (p := block) (by decide)]
  | cons p ps =>
    have hp : p.masked = p := masked_of_mem_canonicalPrefixes (hextra ▸ List.mem_cons_self)
    refine ⟨Client.fresh profile block () "lanweave0", ?_⟩
    simp [Client.setExtraRoutes, Client.fresh, hextra, Tunnel.diffRoutes, routeDiff, routeEach_snd,
      profile, buildPeerUpdate, quiet, Kernel.replaceAllowedIPs, Kernel.up, hp]

/-- The table and the consumer routes are as they were. -/
def Router.Frozen (r r' : Router) : Prop := r'.nat = r.nat ∧ r'.engine.books = r.engine.books

variable (rec api)

/-- Whatever was derived before, a cycle with a failed call leaves it, exactly if all member
lists can be had or the cycle ends for another reason. -/
theorem cycle_frozen_iff :
    ((CallFails rec api → ∀ natFails o (r : Router),
        r.Frozen (reconcileAll parsePrefix4 rec api natFails o r).2) ↔
      MembersRead api ∨ rec.serverURL = "" ∨ parsePrefix4 rec.network = none ∨
        ListsFail rec api ∨ Malformed rec api) ∧
    ((CallFails rec api → ∀ (η : Type) (nodeID : Int) o (c : Client η),
        (syncRoutes parsePrefix4 rec api nodeID o c).2.books = c.books) ↔
      MembersRead api ∨ ListsFail rec api ∨ Malformed rec api) := by
  constructor
  · constructor
    · intro hfrozen
      by_contra hgoes
      simp only [not_or] at hgoes
      obtain ⟨hread, hurl, hparse, hlists, hmal⟩ := hgoes
      obtain ⟨network, hnetwork⟩ := Option.ne_none_iff_exists'.mp hparse
      obtain ⟨entries, hentries⟩ := memberEntries_isOk_iff.mpr (not_or.mpr ⟨hlists, hmal⟩)
      -- a router that has no table yet gets one
      have hnat := (hfrozen (.inr hread) false quiet ⟨none, labEngine⟩).1
      exact reconcileAll_builds hurl hnetwork hentries quiet labEngine hnat
    · rintro hstops hfails natFails o r
      rcases hstops with hread | hurl | hparse | hlists
      · rw [reconcileAll_of_listsFail (.inl (hfails.resolve_right (not_not.mpr hread)))]
        exact ⟨rfl, rfl⟩
      · rw [reconcileAll, if_pos hurl]
        exact ⟨rfl, rfl⟩
      · unfold reconcileAll
        split_ifs
        · exact ⟨rfl, rfl⟩
        · cases memberEntries parsePrefix4 rec api with
          | error err => exact ⟨rfl, rfl⟩
          | ok entries =>
            simp only [hparse]
            exact ⟨rfl, rfl⟩
      · rw [reconcileAll_of_listsFail hlists]
        exact ⟨rfl, rfl⟩
  · constructor
    · intro hfrozen
      by_contra hgoes
      simp only [not_or] at hgoes
      obtain ⟨hread, hlists, hmal⟩ := hgoes
      obtain ⟨entries, hentries⟩ := memberEntries_isOk_iff.mpr (not_or.mpr ⟨hlists, hmal⟩)
      obtain ⟨c, hchanges⟩ := setExtraRoutes_changes (prefixes (consumed entries rec.nodeID))
      have hsame := hfrozen (.inr hread) Unit rec.nodeID quiet c
      simp only [syncRoutes, hentries] at hsame
      exact hchanges (congrArg (fun b : Books => b.kernel.routes) hsame)
    · rintro hstops hfails η nodeID o c
      rcases hstops with hread | hlists
      · rw [syncRoutes_of_listsFail (.inl (hfails.resolve_right (not_not.mpr hread)))]
      · rw [syncRoutes_of_listsFail hlists]

end

/-- The one zone of the account, whose member list is not to be had in this cycle. -/
def labApi : ZoneApi String where
  listZones := .ok [⟨1, "lab", true⟩]
  zoneMembers _ := .error "timeout"
  listAnnouncements _ := .ok [⟨1, 1, "router", "alice", "192.168.7.0/24", "100.127.0.0/24"⟩]

def labRecord : Record :=
  { Record.empty with serverURL := "lan", ip := "10.0.0.2", network := "10.0.0.0/24", nodeID := 1 }

/-- The call fails, and the table loses its rule and the tunnel its route. -/
theorem failed_members_withdraw :
    CallFails labRecord labApi ∧
    (reconcileAll parsePrefix4 labRecord labApi false quiet
      ⟨some (Natctl.build ⟨.v4 0x0A000000, 24⟩ [⟨⟨.v4 0x647F0000, 24⟩, ⟨.v4 0xC0A80700, 24⟩⟩]),
        labEngine⟩).2.nat = some ⟨[], []⟩ ∧
    (syncRoutes parsePrefix4 labRecord labApi 1 quiet
      (labClient.setExtraRoutes [block] quiet).2).2.kernel.routes = ∅ ∧
    (labClient.setExtraRoutes [block] quiet).2.kernel.routes = {block} := by
  -- the zone is skipped, and with it everything announced there
  have hentries : memberEntries parsePrefix4 labRecord labApi = .ok [] := by
    have hzones : memberZones [⟨1, "lab", true⟩] labApi.zoneMembers labRecord.ip = [] := rfl
    simp only [memberEntries, show labApi.listZones = .ok [⟨1, "lab", true⟩] from rfl, hzones, fetch,
      List.foldlM_nil, pure, Except.pure, Except.map, List.map_nil, List.mergeSort_nil]
  refine ⟨.inr fun hread => ?_, ?_, ?_, by decide⟩
  · obtain ⟨ms, hms⟩ := hread [⟨1, "lab", true⟩] rfl ⟨1, "lab", true⟩ List.mem_cons_self
    cases hms
  · simp only [reconcileAll, hentries]
    decide
  · simp only [syncRoutes, hentries]
    decide

end LanWeave

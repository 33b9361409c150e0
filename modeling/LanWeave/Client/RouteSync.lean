import LanWeave.Golang.Netip
import LanWeave.Library.Table

/-! The announcements of a client's zones, aggregated: what the announcing node translates and
what the other nodes route. -/

namespace LanWeave
open Library

structure ZoneResponse where
  id : Int
  name : String
  isOwner : Bool
deriving DecidableEq

structure ZoneMemberResponse where
  nodeID : Int
  nodeName : String
  ip : String
  owner : String
deriving DecidableEq

structure AnnouncementResponse where
  id : Int
  nodeID : Int
  nodeName : String
  owner : String
  subnet : String
  synthetic : String
deriving DecidableEq

/-- The calls of the API client that the aggregation makes. -/
structure ZoneApi (ε : Type) where
  listZones : Except ε (List ZoneResponse)
  zoneMembers : String → Except ε (List ZoneMemberResponse)
  listAnnouncements : String → Except ε (List AnnouncementResponse)

namespace RouteSync

/-- One announcement with the zones that list it. -/
structure Entry where
  id : Int
  subnet : Prefix
  synthetic : Prefix
  zones : List String
  nodeID : Int
  announcer : String
deriving DecidableEq

inductive FetchErr (ε : Type)
  | list (zone : String) (err : ε)
  | subnet (s : String)
  | synthetic (s : String)

section
variable {ε : Type} (parsePrefix : String → Option Prefix)

/-- One listed announcement: a known one gains the zone, of the others the CIDRs are read. -/
def addAnnouncement (zone : String) (byID : List Entry) (a : AnnouncementResponse) :
    Except (FetchErr ε) (List Entry) :=
  if byID.any (·.id = a.id) then
    .ok (byID.map fun e => if e.id = a.id then { e with zones := e.zones ++ [zone] } else e)
  else
    match parsePrefix a.subnet with
    | none => .error (.subnet a.subnet)
    | some real =>
      match parsePrefix a.synthetic with
      | none => .error (.synthetic a.synthetic)
      | some synth => .ok (byID ++ [⟨a.id, real, synth, [zone], a.nodeID, a.nodeName⟩])

def addZone (list : String → Except ε (List AnnouncementResponse)) (byID : List Entry)
    (z : ZoneResponse) : Except (FetchErr ε) (List Entry) :=
  match list z.name with
  | .error err => .error (.list z.name err)
  | .ok as => as.foldlM (addAnnouncement parsePrefix z.name) byID

def Entry.sortZones (e : Entry) : Entry := { e with zones := e.zones.mergeSort (· ≤ ·) }

/-- `Fetch`: the entries by id, whichever order the map yields them in. -/
def fetch (zones : List ZoneResponse) (list : String → Except ε (List AnnouncementResponse)) :
    Except (FetchErr ε) (List Entry) :=
  (zones.foldlM (addZone parsePrefix list) []).map fun byID =>
    (byID.map Entry.sortZones).mergeSort fun e e' => e.id ≤ e'.id

end

def mine (entries : List Entry) (nodeID : Int) : List Entry := entries.filter (·.nodeID = nodeID)

/-- The consumer view: the entries of other nodes, each synthetic block once. -/
def consumed (entries : List Entry) (nodeID : Int) : List Entry :=
  entries.foldl (fun out e =>
    if e.nodeID = nodeID ∨ out.any (·.synthetic = e.synthetic) then out else out ++ [e]) []

def prefixes (entries : List Entry) : List Prefix := entries.map (·.synthetic)

/-- The zones with this node's address among their members; a failed lookup skips its zone. -/
def memberZones {ε : Type} (zones : List ZoneResponse)
    (members : String → Except ε (List ZoneMemberResponse)) (selfIP : String) :
    List ZoneResponse :=
  zones.filter fun z =>
    match members z.name with
    | .error _ => false
    | .ok ms => ms.any (·.ip = selfIP)

theorem mem_memberZones {ε : Type} {zones : List ZoneResponse}
    {members : String → Except ε (List ZoneMemberResponse)} {selfIP : String} {z : ZoneResponse} :
    z ∈ memberZones zones members selfIP ↔
      z ∈ zones ∧ ∃ ms, members z.name = .ok ms ∧ ∃ m ∈ ms, m.ip = selfIP := by
  rw [memberZones, List.mem_filter]
  cases hz : members z.name with
  | error err => simp
  | ok ms => simp

theorem mem_prefixes_consumed {entries : List Entry} {nodeID : Int} {p : Prefix} :
    p ∈ prefixes (consumed entries nodeID) ↔
      ∃ e ∈ entries, e.nodeID ≠ nodeID ∧ e.synthetic = p := by
  have hfold : ∀ out : List Entry, p ∈ prefixes (entries.foldl (fun out e =>
      if e.nodeID = nodeID ∨ out.any (·.synthetic = e.synthetic) then out else out ++ [e]) out) ↔
      p ∈ prefixes out ∨ ∃ e ∈ entries, e.nodeID ≠ nodeID ∧ e.synthetic = p := by
    induction entries with
    | nil => simp
    | cons e entries ih =>
      intro out
      rw [List.foldl_cons, ih, List.exists_mem_cons_iff]
      split_ifs with hskip
      · -- an entry that is skipped is the node's own, or has its block in the view already
        refine ⟨Or.imp_right .inr, ?_⟩
        rintro (hp | ⟨hne, rfl⟩ | he)
        · exact .inl hp
        · obtain ⟨e', he', heq⟩ := List.any_eq_true.mp (hskip.resolve_left hne)
          exact .inl (List.mem_map.mpr ⟨e', he', of_decide_eq_true heq⟩)
        · exact .inr he
      · have hne : e.nodeID ≠ nodeID := fun h => hskip (.inl h)
        simp only [prefixes, List.map_append, List.map_cons, List.map_nil, List.mem_append,
          List.mem_singleton, or_assoc, ne_eq, hne, not_false_eq_true, true_and, eq_comm (a := p)]
  rw [consumed, hfold]
  simp [prefixes]

def listed {ε : Type} (zones : List ZoneResponse)
    (list : String → Except ε (List AnnouncementResponse)) :
    List (String × AnnouncementResponse) :=
  zones.flatMap fun z =>
    match list z.name with
    | .error _ => []
    | .ok as => as.map fun a => (z.name, a)

def firstListed (l : List (String × AnnouncementResponse)) (id : Int) :
    Option (String × AnnouncementResponse) := l.find? fun x => x.2.id = id

/-- The entry is the first listing of its id, with the zones of all listings of it. -/
structure Describes (parsePrefix : String → Option Prefix)
    (l : List (String × AnnouncementResponse)) (e : Entry) (x : String × AnnouncementResponse) :
    Prop where
  first : firstListed l e.id = some x
  subnet : parsePrefix x.2.subnet = some e.subnet
  synthetic : parsePrefix x.2.synthetic = some e.synthetic
  nodeID : e.nodeID = x.2.nodeID
  announcer : e.announcer = x.2.nodeName
  zones : e.zones.Perm ((l.filter fun x => x.2.id = e.id).map (·.1))

structure Aggregates (parsePrefix : String → Option Prefix)
    (l : List (String × AnnouncementResponse)) (entries : List Entry) : Prop where
  nodup : (entries.map (·.id)).Nodup
  sound : ∀ e ∈ entries, ∃ x, Describes parsePrefix l e x
  complete : ∀ x ∈ l, ∃ e ∈ entries, e.id = x.2.id

/-- Both CIDRs of every first listing are well formed. -/
def WellFormed (parsePrefix : String → Option Prefix) (l : List (String × AnnouncementResponse)) :
    Prop :=
  ∀ x, firstListed l x.2.id = some x →
    (parsePrefix x.2.subnet).isSome ∧ (parsePrefix x.2.synthetic).isSome

section
variable {ε : Type} {parsePrefix : String → Option Prefix}
  {l l' : List (String × AnnouncementResponse)} {entries : List Entry}

theorem firstListed_append {id : Int} :
    firstListed (l ++ l') id = (firstListed l id).or (firstListed l' id) := List.find?_append

theorem firstListed_mem {id : Int} {x : String × AnnouncementResponse}
    (h : firstListed l id = some x) : x ∈ l ∧ x.2.id = id :=
  ⟨List.mem_of_find?_eq_some h, by simpa using List.find?_some h⟩

theorem firstListed_eq_none {id : Int} : firstListed l id = none ↔ ∀ x ∈ l, x.2.id ≠ id := by
  simp [firstListed]

theorem WellFormed.left (h : WellFormed parsePrefix (l ++ l')) : WellFormed parsePrefix l := by
  intro x hx
  apply h
  rw [firstListed_append, hx]
  rfl

theorem Aggregates.wellFormed (h : Aggregates parsePrefix l entries) :
    WellFormed parsePrefix l := by
  intro x hx
  obtain ⟨e, he, hid⟩ := h.complete x (firstListed_mem hx).1
  obtain ⟨y, hy⟩ := h.sound e he
  have hxy : x = y := Option.some.inj (by rw [← hx, ← hy.first, hid])
  subst hxy
  exact ⟨by rw [hy.subnet]; rfl, by rw [hy.synthetic]; rfl⟩

theorem Describes.of_known {e : Entry} {x : String × AnnouncementResponse}
    (h : Describes parsePrefix l e x) {y : String × AnnouncementResponse} (hid : e.id = y.2.id) :
    Describes parsePrefix (l ++ [y]) { e with zones := e.zones ++ [y.1] } x where
  first := by rw [firstListed_append, h.first]; rfl
  subnet := h.subnet
  synthetic := h.synthetic
  nodeID := h.nodeID
  announcer := h.announcer
  zones := by
    rw [List.filter_append, List.map_append]
    refine h.zones.append ?_
    simp [hid]

theorem Describes.of_other {e : Entry} {x : String × AnnouncementResponse}
    (h : Describes parsePrefix l e x) {y : String × AnnouncementResponse} (hid : e.id ≠ y.2.id) :
    Describes parsePrefix (l ++ [y]) e x where
  first := by rw [firstListed_append, h.first]; rfl
  subnet := h.subnet
  synthetic := h.synthetic
  nodeID := h.nodeID
  announcer := h.announcer
  zones := by simpa [List.filter_append, hid.symm] using h.zones

theorem Aggregates.known (h : Aggregates parsePrefix l entries) {zone : String}
    {a : AnnouncementResponse} (ha : ∃ e ∈ entries, e.id = a.id) :
    Aggregates parsePrefix (l ++ [(zone, a)])
      (entries.map fun e => if e.id = a.id then { e with zones := e.zones ++ [zone] } else e) := by
  have hids : ((entries.map fun e => if e.id = a.id then { e with zones := e.zones ++ [zone] }
      else e).map (·.id)) = entries.map (·.id) := by
    rw [List.map_map]
    refine List.map_congr_left fun e _ => ?_
    simp only [Function.comp_apply]
    split_ifs <;> rfl
  have hcomplete : ∀ e ∈ entries, ∃ e' ∈ entries.map fun e =>
      if e.id = a.id then { e with zones := e.zones ++ [zone] } else e, e'.id = e.id := by
    intro e he
    have hmem : e.id ∈ entries.map (·.id) := List.mem_map_of_mem he
    rw [← hids] at hmem
    exact List.mem_map.mp hmem
  refine ⟨hids ▸ h.nodup, ?_, ?_⟩
  · intro e' he'
    obtain ⟨e, he, rfl⟩ := List.mem_map.mp he'
    obtain ⟨x, hx⟩ := h.sound e he
    split_ifs with hid
    · exact ⟨x, hx.of_known hid⟩
    · exact ⟨x, hx.of_other hid⟩
  · intro x hx
    have hlisted : ∃ e ∈ entries, e.id = x.2.id := by
      rcases List.mem_append.mp hx with hx | hx
      · exact h.complete x hx
      · rwa [List.mem_singleton.mp hx]
    obtain ⟨e, he, hid⟩ := hlisted
    obtain ⟨e', he', hid'⟩ := hcomplete e he
    exact ⟨e', he', hid'.trans hid⟩

theorem Aggregates.fresh (h : Aggregates parsePrefix l entries) {zone : String}
    {a : AnnouncementResponse} (ha : ∀ e ∈ entries, e.id ≠ a.id) {real synth : Prefix}
    (hreal : parsePrefix a.subnet = some real) (hsynth : parsePrefix a.synthetic = some synth) :
    Aggregates parsePrefix (l ++ [(zone, a)])
      (entries ++ [⟨a.id, real, synth, [zone], a.nodeID, a.nodeName⟩]) := by
  have hnew : ∀ x ∈ l, x.2.id ≠ a.id := by
    intro x hx hid
    obtain ⟨e, he, heq⟩ := h.complete x hx
    exact ha e he (heq.trans hid)
  refine ⟨?_, ?_, ?_⟩
  · rw [List.map_append, List.nodup_append]
    refine ⟨h.nodup, List.nodup_singleton _, ?_⟩
    intro id hid id' hid' heq
    obtain ⟨e, he, rfl⟩ := List.mem_map.mp hid
    exact ha e he (heq.trans (List.mem_singleton.mp hid'))
  · intro e he
    rcases List.mem_append.mp he with he | he
    · obtain ⟨x, hx⟩ := h.sound e he
      exact ⟨x, hx.of_other (ha e he)⟩
    · obtain rfl := List.mem_singleton.mp he
      refine ⟨(zone, a), ?_, hreal, hsynth, rfl, rfl, ?_⟩
      · rw [firstListed_append, firstListed_eq_none.mpr hnew]
        simp [firstListed]
      · have hnone : l.filter (fun x => x.2.id = a.id) = [] := by
          rw [List.filter_eq_nil_iff]
          intro x hx
          simpa using hnew x hx
        rw [List.filter_append, hnone]
        simp
  · intro x hx
    rcases List.mem_append.mp hx with hx | hx
    · obtain ⟨e, he, hid⟩ := h.complete x hx
      exact ⟨e, List.mem_append_left _ he, hid⟩
    · obtain rfl := List.mem_singleton.mp hx
      exact ⟨_, List.mem_append_right _ List.mem_cons_self, rfl⟩

theorem addAnnouncement_ok (h : Aggregates parsePrefix l entries) {zone : String}
    {a : AnnouncementResponse} {entries' : List Entry}
    (hadd : addAnnouncement (ε := ε) parsePrefix zone entries a = .ok entries') :
    Aggregates parsePrefix (l ++ [(zone, a)]) entries' := by
  unfold addAnnouncement at hadd
  split_ifs at hadd with hknown
  · obtain rfl := Except.ok.inj hadd
    apply h.known
    simpa using hknown
  · have ha : ∀ e ∈ entries, e.id ≠ a.id := by simpa using hknown
    cases hreal : parsePrefix a.subnet with
    | none => simp [hreal] at hadd
    | some real =>
      cases hsynth : parsePrefix a.synthetic with
      | none => simp [hreal, hsynth] at hadd
      | some synth =>
        simp only [hreal, hsynth] at hadd
        obtain rfl := Except.ok.inj hadd
        exact h.fresh ha hreal hsynth

theorem addAnnouncement_total (h : Aggregates parsePrefix l entries) {zone : String}
    {a : AnnouncementResponse} (hwf : WellFormed parsePrefix (l ++ [(zone, a)])) :
    ∃ entries', addAnnouncement (ε := ε) parsePrefix zone entries a = .ok entries' := by
  unfold addAnnouncement
  split_ifs with hknown
  · exact ⟨_, rfl⟩
  · have ha : ∀ e ∈ entries, e.id ≠ a.id := by simpa using hknown
    have hnew : ∀ x ∈ l, x.2.id ≠ a.id := by
      intro x hx hid
      obtain ⟨e, he, heq⟩ := h.complete x hx
      exact ha e he (heq.trans hid)
    have hfirst : firstListed (l ++ [(zone, a)]) a.id = some (zone, a) := by
      rw [firstListed_append, firstListed_eq_none.mpr hnew]
      simp [firstListed]
    obtain ⟨hreal, hsynth⟩ := hwf (zone, a) hfirst
    obtain ⟨real, hreal⟩ := Option.isSome_iff_exists.mp hreal
    obtain ⟨synth, hsynth⟩ := Option.isSome_iff_exists.mp hsynth
    simp only [hreal, hsynth]
    exact ⟨_, rfl⟩

theorem addAnnouncements_ok {zone : String} {as : List AnnouncementResponse}
    {entries' : List Entry} (h : Aggregates parsePrefix l entries)
    (hadd : as.foldlM (addAnnouncement (ε := ε) parsePrefix zone) entries = .ok entries') :
    Aggregates parsePrefix (l ++ as.map fun a => (zone, a)) entries' := by
  induction as generalizing l entries with
  | nil =>
    obtain rfl := Except.ok.inj hadd
    simpa using h
  | cons a as ih =>
    rw [List.foldlM_cons] at hadd
    cases hstep : addAnnouncement (ε := ε) parsePrefix zone entries a with
    | error err => rw [hstep] at hadd; cases hadd
    | ok mid =>
      rw [hstep] at hadd
      have hrest := ih (addAnnouncement_ok h hstep) hadd
      rwa [List.append_assoc] at hrest

theorem addAnnouncements_total {zone : String} {as : List AnnouncementResponse}
    (h : Aggregates parsePrefix l entries)
    (hwf : WellFormed parsePrefix (l ++ as.map fun a => (zone, a))) :
    ∃ entries', as.foldlM (addAnnouncement (ε := ε) parsePrefix zone) entries = .ok entries' := by
  induction as generalizing l entries with
  | nil => exact ⟨entries, rfl⟩
  | cons a as ih =>
    rw [List.map_cons, ← List.singleton_append, ← List.append_assoc] at hwf
    obtain ⟨mid, hstep⟩ := addAnnouncement_total (ε := ε) h hwf.left
    obtain ⟨entries', hrest⟩ := ih (addAnnouncement_ok h hstep) hwf
    refine ⟨entries', ?_⟩
    rw [List.foldlM_cons, hstep]
    exact hrest

variable {zones : List ZoneResponse} {list : String → Except ε (List AnnouncementResponse)}

theorem addZones_ok {entries' : List Entry} (h : Aggregates parsePrefix l entries)
    (hadd : zones.foldlM (addZone parsePrefix list) entries = .ok entries') :
    (∀ z ∈ zones, ∃ as, list z.name = .ok as) ∧
      Aggregates parsePrefix (l ++ listed zones list) entries' := by
  induction zones generalizing l entries with
  | nil =>
    obtain rfl := Except.ok.inj hadd
    exact ⟨by simp, by simpa [listed] using h⟩
  | cons z zones ih =>
    rw [List.foldlM_cons, addZone] at hadd
    cases hz : list z.name with
    | error err => rw [hz] at hadd; cases hadd
    | ok as =>
      simp only [hz] at hadd
      cases hstep : as.foldlM (addAnnouncement (ε := ε) parsePrefix z.name) entries with
      | error err => rw [hstep] at hadd; cases hadd
      | ok mid =>
        rw [hstep] at hadd
        obtain ⟨hlists, hrest⟩ := ih (addAnnouncements_ok h hstep) hadd
        refine ⟨List.forall_mem_cons.mpr ⟨⟨as, hz⟩, hlists⟩, ?_⟩
        simpa [listed, hz] using hrest

theorem addZones_total (h : Aggregates parsePrefix l entries)
    (hlists : ∀ z ∈ zones, ∃ as, list z.name = .ok as)
    (hwf : WellFormed parsePrefix (l ++ listed zones list)) :
    ∃ entries', zones.foldlM (addZone parsePrefix list) entries = .ok entries' := by
  induction zones generalizing l entries with
  | nil => exact ⟨entries, rfl⟩
  | cons z zones ih =>
    obtain ⟨⟨as, hz⟩, hlists⟩ := List.forall_mem_cons.mp hlists
    have hsplit : l ++ listed (z :: zones) list =
        (l ++ as.map fun a => (z.name, a)) ++ listed zones list := by
      simp [listed, hz]
    rw [hsplit] at hwf
    obtain ⟨mid, hstep⟩ := addAnnouncements_total (ε := ε) h hwf.left
    obtain ⟨entries', hrest⟩ := ih (addAnnouncements_ok h hstep) hlists hwf
    refine ⟨entries', ?_⟩
    rw [List.foldlM_cons, addZone]
    simp only [hz, hstep]
    exact hrest

/-- Sorting, which is all that remains to be done, does not change what the entries stand for. -/
theorem Aggregates.sorted (h : Aggregates parsePrefix l entries) :
    Aggregates parsePrefix l
      ((entries.map Entry.sortZones).mergeSort fun e e' => e.id ≤ e'.id) := by
  have hperm := List.mergeSort_perm (entries.map Entry.sortZones) fun e e' => e.id ≤ e'.id
  refine ⟨?_, ?_, ?_⟩
  · rw [(hperm.map (·.id)).nodup_iff, List.map_map]
    exact h.nodup
  · intro e' he'
    obtain ⟨e, he, rfl⟩ := List.mem_map.mp (hperm.mem_iff.mp he')
    obtain ⟨x, hx⟩ := h.sound e he
    exact ⟨x, hx.first, hx.subnet, hx.synthetic, hx.nodeID, hx.announcer,
      (List.mergeSort_perm e.zones _).trans hx.zones⟩
  · intro x hx
    obtain ⟨e, he, hid⟩ := h.complete x hx
    exact ⟨e.sortZones, hperm.mem_iff.mpr (List.mem_map_of_mem he), hid⟩

theorem ascending_of_mergeSort (hnodup : (entries.map (·.id)).Nodup) :
    Ascending Entry.id (entries.mergeSort fun e e' => e.id ≤ e'.id) := by
  have hsorted : (entries.mergeSort fun e e' => e.id ≤ e'.id).Pairwise
      fun e e' => decide (e.id ≤ e'.id) = true := by
    apply List.pairwise_mergeSort
    · intro a b c
      simpa using Int.le_trans
    · intro a b
      simpa using Int.le_total a.id b.id
  have hperm := List.mergeSort_perm entries fun e e' => decide (e.id ≤ e'.id)
  have hne : ((entries.mergeSort fun e e' => e.id ≤ e'.id).map Entry.id).Nodup :=
    (hperm.map Entry.id).nodup_iff.mpr hnodup
  refine (hsorted.and (List.pairwise_map.mp hne)).imp ?_
  intro e e' hle
  simp only [decide_eq_true_eq] at hle
  omega

theorem fetch_ok (h : fetch parsePrefix zones list = .ok entries) :
    (∀ z ∈ zones, ∃ as, list z.name = .ok as) ∧
      Ascending Entry.id entries ∧
      Aggregates parsePrefix (listed zones list) entries := by
  unfold fetch at h
  cases hbyID : zones.foldlM (addZone parsePrefix list) [] with
  | error err => rw [hbyID] at h; cases h
  | ok byID =>
    rw [hbyID] at h
    obtain rfl := Except.ok.inj h
    have hempty : Aggregates parsePrefix [] [] := ⟨List.nodup_nil, by simp, by simp⟩
    obtain ⟨hlists, hbyID⟩ := addZones_ok hempty hbyID
    refine ⟨hlists, ascending_of_mergeSort ?_, hbyID.sorted⟩
    rw [List.map_map]
    exact hbyID.nodup

theorem fetch_isOk_iff : (∃ entries, fetch parsePrefix zones list = .ok entries) ↔
    (∀ z ∈ zones, ∃ as, list z.name = .ok as) ∧ WellFormed parsePrefix (listed zones list) := by
  constructor
  · rintro ⟨entries, h⟩
    obtain ⟨hlists, -, hentries⟩ := fetch_ok h
    exact ⟨hlists, hentries.wellFormed⟩
  · rintro ⟨hlists, hwf⟩
    have hempty : Aggregates parsePrefix [] [] := ⟨List.nodup_nil, by simp, by simp⟩
    obtain ⟨byID, hbyID⟩ := addZones_total hempty hlists hwf
    rw [fetch, hbyID]
    exact ⟨_, rfl⟩

end
end RouteSync
end LanWeave

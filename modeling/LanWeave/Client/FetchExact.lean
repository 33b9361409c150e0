import LanWeave.Client.RouteSync

/-! The aggregation as a function of what the zones list alone: neither the order of the zones nor
that of their lists nor that of the map counts. -/

namespace LanWeave
open Library

namespace RouteSync

section
variable {ε : Type} (parsePrefix : String → Option Prefix)

/-- `Fetch` with the map yielding its entries in the order of `iterate`. -/
def fetchIn (iterate : List Entry → List Entry) (zones : List ZoneResponse)
    (list : String → Except ε (List AnnouncementResponse)) : Except (FetchErr ε) (List Entry) :=
  (zones.foldlM (addZone parsePrefix list) []).map fun byID =>
    ((iterate byID).map Entry.sortZones).mergeSort fun e e' => e.id ≤ e'.id

end

/-- The same answer but for its order; failures are not told apart. -/
def Permuted {ε α : Type} : Except ε (List α) → Except ε (List α) → Prop
  | .ok l, .ok l' => l.Perm l'
  | .error _, .error _ => True
  | _, _ => False

theorem Permuted.error_iff {ε α : Type} {x y : Except ε (List α)} (h : Permuted x y) :
    (∃ err, x = .error err) ↔ ∃ err, y = .error err := by
  cases x <;> cases y
  · exact iff_of_true ⟨_, rfl⟩ ⟨_, rfl⟩
  · exact h.elim
  · exact h.elim
  · exact iff_of_false nofun nofun

/-- The zone's list has the announcement. -/
def lists {ε : Type} (list : String → Except ε (List AnnouncementResponse)) (id : Int)
    (z : ZoneResponse) : Bool :=
  match list z.name with
  | .error _ => false
  | .ok as => as.any (·.id = id)

def Agree (l : List (String × AnnouncementResponse)) : Prop :=
  ∀ x ∈ l, ∀ y ∈ l, x.2.id = y.2.id → x.2 = y.2

/-- The entries are exactly what the zones list. -/
structure Exact {ε : Type} (parsePrefix : String → Option Prefix) (zones : List ZoneResponse)
    (list : String → Except ε (List AnnouncementResponse)) (entries : List Entry) : Prop where
  ascending : Ascending Entry.id entries
  ids : ∀ id, (∃ e ∈ entries, e.id = id) ↔ ∃ z ∈ zones, lists list id z = true
  content : ∀ e ∈ entries, ∀ x ∈ listed zones list, x.2.id = e.id →
    parsePrefix x.2.subnet = some e.subnet ∧ parsePrefix x.2.synthetic = some e.synthetic ∧
      e.nodeID = x.2.nodeID ∧ e.announcer = x.2.nodeName
  zones : ∀ e ∈ entries, e.zones = ((zones.filter (lists list e.id)).map (·.name)).mergeSort (· ≤ ·)

section
variable {ε : Type} {parsePrefix : String → Option Prefix} {entries entries' : List Entry}
  {l l' : List (String × AnnouncementResponse)} {zones zones' : List ZoneResponse}
  {list list' : String → Except ε (List AnnouncementResponse)}

theorem mem_listed {x : String × AnnouncementResponse} : x ∈ listed zones list ↔
    ∃ z ∈ zones, ∃ as, list z.name = .ok as ∧ x.2 ∈ as ∧ x.1 = z.name := by
  rw [listed, List.mem_flatMap]
  apply exists_congr
  intro z
  apply and_congr_right
  intro _
  cases hz : list z.name with
  | error err => simp
  | ok as =>
    obtain ⟨name, a⟩ := x
    simp [eq_comm]

theorem lists_iff {id : Int} {z : ZoneResponse} :
    lists list id z = true ↔ ∃ as, list z.name = .ok as ∧ ∃ a ∈ as, a.id = id := by
  unfold lists
  cases hz : list z.name with
  | error err => simp
  | ok as => simp

theorem exists_lists_iff {id : Int} :
    (∃ z ∈ zones, lists list id z = true) ↔ ∃ x ∈ listed zones list, x.2.id = id := by
  simp only [mem_listed, lists_iff]
  constructor
  · intro h
    obtain ⟨z, hz, as, has, a, ha, hid⟩ := h
    exact ⟨(z.name, a), ⟨z, hz, as, has, ha, rfl⟩, hid⟩
  · intro h
    obtain ⟨x, ⟨z, hz, as, has, hx, -⟩, hid⟩ := h
    exact ⟨z, hz, as, has, x.2, hx, hid⟩

theorem listed_perm (hzones : zones'.Perm zones)
    (hlists : ∀ z ∈ zones, Permuted (list' z.name) (list z.name)) :
    (listed zones' list').Perm (listed zones list) := by
  refine (hzones.flatMap_right _).trans (List.Perm.flatMap_left zones ?_)
  intro z hz
  have hsame := hlists z hz
  cases hold : list' z.name with
  | error err =>
    cases hnew : list z.name with
    | error err' => exact .refl _
    | ok as => rw [hold, hnew] at hsame; exact hsame.elim
  | ok as' =>
    cases hnew : list z.name with
    | error err => rw [hold, hnew] at hsame; exact hsame.elim
    | ok as =>
      rw [hold, hnew] at hsame
      have hperm : as'.Perm as := hsame
      exact hperm.map _

theorem Agree.perm (h : Agree l) (hperm : l'.Perm l) : Agree l' := by
  intro x hx y hy
  exact h x (hperm.mem_iff.mp hx) y (hperm.mem_iff.mp hy)

theorem wellFormed_iff (h : Agree l) : WellFormed parsePrefix l ↔
    ∀ x ∈ l, (parsePrefix x.2.subnet).isSome ∧ (parsePrefix x.2.synthetic).isSome := by
  constructor
  · intro hwf x hx
    cases hfirst : firstListed l x.2.id with
    | none => exact absurd rfl (firstListed_eq_none.mp hfirst x hx)
    | some y =>
      obtain ⟨hy, hid⟩ := firstListed_mem hfirst
      have hsame := h y hy x hx hid
      have hparsed := hwf y (by rw [hid]; exact hfirst)
      rwa [hsame] at hparsed
  · intro hall x hx
    exact hall x (firstListed_mem hx).1

/-- Sorted by id, the entries do not remember the order they came in. -/
theorem mergeSort_eq (hperm : entries'.Perm entries) (hnodup : (entries.map (·.id)).Nodup) :
    (entries'.mergeSort fun e e' => e.id ≤ e'.id) = entries.mergeSort fun e e' => e.id ≤ e'.id := by
  have hnodup' : (entries'.map (·.id)).Nodup := (hperm.map _).nodup_iff.mpr hnodup
  have hsame : (entries'.mergeSort fun e e' => e.id ≤ e'.id).Perm
      (entries.mergeSort fun e e' => e.id ≤ e'.id) :=
    (List.mergeSort_perm ..).trans (hperm.trans (List.mergeSort_perm ..).symm)
  apply List.Perm.eq_of_pairwise _ (ascending_of_mergeSort hnodup') (ascending_of_mergeSort hnodup) hsame
  intro e e' _ _ hlt hgt
  exact absurd hlt (Int.lt_asymm hgt)

theorem fetchIn_eq {iterate : List Entry → List Entry} (h : ∀ byID, (iterate byID).Perm byID) :
    fetchIn parsePrefix iterate zones list = fetch parsePrefix zones list := by
  unfold fetchIn fetch
  cases hbyID : zones.foldlM (addZone parsePrefix list) [] with
  | error err => rfl
  | ok byID =>
    have hempty : Aggregates parsePrefix [] [] := ⟨List.nodup_nil, by simp, by simp⟩
    obtain ⟨-, hagg⟩ := addZones_ok hempty hbyID
    have hids : ((byID.map Entry.sortZones).map (·.id)).Nodup := by
      rw [List.map_map]
      exact hagg.nodup
    exact congrArg Except.ok (mergeSort_eq ((h byID).map _) hids)

theorem sorted_zones (h : fetch parsePrefix zones list = .ok entries) :
    ∀ e ∈ entries, e.zones.Pairwise (· ≤ ·) := by
  unfold fetch at h
  cases hbyID : zones.foldlM (addZone parsePrefix list) [] with
  | error err => rw [hbyID] at h; cases h
  | ok byID =>
    rw [hbyID] at h
    obtain rfl := Except.ok.inj h
    intro e he
    obtain ⟨e', -, rfl⟩ := List.mem_map.mp ((List.mergeSort_perm ..).mem_iff.mp he)
    exact List.pairwise_mergeSort' _ e'.zones

theorem entries_eq (hagree : Agree l) (hperm : l'.Perm l) (hagg : Aggregates parsePrefix l entries)
    (hagg' : Aggregates parsePrefix l' entries') (hasc : Ascending Entry.id entries)
    (hasc' : Ascending Entry.id entries') (hsorted : ∀ e ∈ entries, e.zones.Pairwise (· ≤ ·))
    (hsorted' : ∀ e ∈ entries', e.zones.Pairwise (· ≤ ·)) : entries' = entries := by
  have hsame : ∀ e' ∈ entries', ∃ e ∈ entries, e.id = e'.id ∧ e = e' := by
    intro e' he'
    obtain ⟨x', hx'⟩ := hagg'.sound e' he'
    obtain ⟨hmem', hid'⟩ := firstListed_mem hx'.first
    obtain ⟨e, he, hid⟩ := hagg.complete x' (hperm.mem_iff.mp hmem')
    obtain ⟨x, hx⟩ := hagg.sound e he
    obtain ⟨hmem, hidx⟩ := firstListed_mem hx.first
    have hids : e.id = e'.id := hid.trans hid'
    have hcontent : x.2 = x'.2 := hagree x hmem x' (hperm.mem_iff.mp hmem') (by omega)
    have hzones : e.zones = e'.zones := by
      have hlisted : e.zones.Perm e'.zones := by
        refine hx.zones.trans ((((hperm.filter _).map _).symm.trans ?_).trans hx'.zones.symm)
        rw [hids]
      exact hlisted.eq_of_pairwise' (hsorted e he) (hsorted' e' he')
    refine ⟨e, he, hids, ?_⟩
    obtain ⟨id, subnet, synthetic, zs, node, announcer⟩ := e
    obtain ⟨id', subnet', synthetic', zs', node', announcer'⟩ := e'
    obtain rfl : id = id' := hids
    obtain rfl : zs = zs' := hzones
    obtain rfl : subnet = subnet' := Option.some.inj (hx.subnet.symm.trans (hcontent ▸ hx'.subnet))
    obtain rfl : synthetic = synthetic' :=
      Option.some.inj (hx.synthetic.symm.trans (hcontent ▸ hx'.synthetic))
    obtain rfl : node = node' := hx.nodeID.trans (hcontent ▸ hx'.nodeID.symm)
    obtain rfl : announcer = announcer' := hx.announcer.trans (hcontent ▸ hx'.announcer.symm)
    rfl
  have hback : ∀ e ∈ entries, ∃ e' ∈ entries', e'.id = e.id := by
    intro e he
    obtain ⟨x, hx⟩ := hagg.sound e he
    obtain ⟨hmem, hid⟩ := firstListed_mem hx.first
    obtain ⟨e', he', hid'⟩ := hagg'.complete x (hperm.mem_iff.mpr hmem)
    exact ⟨e', he', hid'.trans hid⟩
  have hmap := hasc'.map_eq_map (f := id) (g := id) hasc hsame hback
  simpa using hmap

theorem listings_of_zone {name : String} {as : List AnnouncementResponse} (h : (as.map (·.id)).Nodup)
    (id : Int) : ((as.map fun a => (name, a)).filter fun x => x.2.id = id).map (·.1) =
      if as.any (·.id = id) then [name] else [] := by
  induction as with
  | nil => rfl
  | cons a as ih =>
    obtain ⟨hhead, htail⟩ := List.nodup_cons.mp h
    rw [List.map_cons, List.any_cons]
    by_cases hid : a.id = id
    · have hrest : as.any (·.id = id) = false := by
        rw [List.any_eq_false]
        intro b hb hbid
        have hsame : b.id = a.id := (of_decide_eq_true hbid).trans hid.symm
        exact hhead (List.mem_map.mpr ⟨b, hb, hsame⟩)
      rw [List.filter_cons_of_pos (by simpa using hid), List.map_cons, ih htail, hrest]
      simp [hid]
    · rw [List.filter_cons_of_neg (by simpa using hid), ih htail]
      simp [hid]

theorem listings_eq (hids : ∀ z ∈ zones, ∀ as, list z.name = .ok as → (as.map (·.id)).Nodup) (id : Int) :
    ((listed zones list).filter fun x => x.2.id = id).map (·.1) =
      (zones.filter (lists list id)).map (·.name) := by
  induction zones with
  | nil => rfl
  | cons z zones ih =>
    obtain ⟨hhead, htail⟩ := List.forall_mem_cons.mp hids
    have hrest := ih htail
    unfold listed at hrest ⊢
    rw [List.flatMap_cons, List.filter_append, List.map_append, hrest]
    cases hz : list z.name with
    | error err =>
      have hnot : ¬lists list id z = true := by simp [lists, hz]
      rw [List.filter_cons_of_neg hnot]
      rfl
    | ok as =>
      rw [listings_of_zone (hhead as hz)]
      have hlists : lists list id z = as.any (·.id = id) := by rw [lists, hz]
      rw [List.filter_cons, hlists]
      split_ifs <;> rfl

theorem exact_of_fetch (hagree : Agree (listed zones list))
    (hids : ∀ z ∈ zones, ∀ as, list z.name = .ok as → (as.map (·.id)).Nodup)
    (h : fetch parsePrefix zones list = .ok entries) : Exact parsePrefix zones list entries := by
  obtain ⟨-, hasc, hagg⟩ := fetch_ok h
  refine ⟨hasc, ?_, ?_, ?_⟩
  · intro id
    rw [exists_lists_iff]
    constructor
    · intro hentry
      obtain ⟨e, he, rfl⟩ := hentry
      obtain ⟨x, hx⟩ := hagg.sound e he
      exact ⟨x, firstListed_mem hx.first⟩
    · intro hlisted
      obtain ⟨x, hx, rfl⟩ := hlisted
      exact hagg.complete x hx
  · intro e he y hy hid
    obtain ⟨x, hx⟩ := hagg.sound e he
    obtain ⟨hmem, hidx⟩ := firstListed_mem hx.first
    rw [← hagree x hmem y hy (hidx.trans hid.symm)]
    exact ⟨hx.subnet, hx.synthetic, hx.nodeID, hx.announcer⟩
  · intro e he
    obtain ⟨x, hx⟩ := hagg.sound e he
    have hperm : e.zones.Perm (((zones.filter (lists list e.id)).map (·.name)).mergeSort (· ≤ ·)) := by
      rw [← listings_eq hids]
      exact hx.zones.trans (List.mergeSort_perm ..).symm
    exact hperm.eq_of_pairwise' (sorted_zones h e he) (List.pairwise_mergeSort' _ _)

theorem consumed_nodup (entries : List Entry) (nodeID : Int) :
    (prefixes (consumed entries nodeID)).Nodup := by
  have hfold : ∀ out : List Entry, (prefixes out).Nodup → (prefixes (entries.foldl (fun out e =>
      if e.nodeID = nodeID ∨ out.any (·.synthetic = e.synthetic) then out else out ++
        [e]) out)).Nodup := by
    induction entries with
    | nil => exact fun out h => h
    | cons e entries ih =>
      intro out hout
      apply ih
      beta_reduce
      split_ifs with hskip
      · exact hout
      · have hnew : e.synthetic ∉ prefixes out := by
          intro hmem
          obtain ⟨e', he', heq⟩ := List.mem_map.mp hmem
          exact hskip (.inr (List.any_eq_true.mpr ⟨e', he', decide_eq_true heq⟩))
        rw [prefixes, List.map_append, List.map_singleton, ← List.concat_eq_append]
        exact List.Nodup.concat hnew hout
  exact hfold [] List.nodup_nil

/-- An entry is the node's own, or its block is in the consumer view once. -/
def Split (entries : List Entry) (nodeID : Int) (e : Entry) : Prop :=
  (e.nodeID = nodeID ∧ e ∈ mine entries nodeID) ∨
    (e.nodeID ≠ nodeID ∧ e ∉ mine entries nodeID ∧
      ((consumed entries nodeID).filter (·.synthetic = e.synthetic)).length = 1)

theorem split_entries (nodeID : Int) {e : Entry} (he : e ∈ entries) : Split entries nodeID e := by
  by_cases hown : e.nodeID = nodeID
  · exact .inl ⟨hown, List.mem_filter.mpr ⟨he, decide_eq_true hown⟩⟩
  · refine .inr ⟨hown, ?_, ?_⟩
    · intro hmine
      exact hown (of_decide_eq_true (List.mem_filter.mp hmine).2)
    · have hmem : e.synthetic ∈ prefixes (consumed entries nodeID) :=
        mem_prefixes_consumed.mpr ⟨e, he, hown, rfl⟩
      have hone := List.count_eq_one_of_mem (consumed_nodup entries nodeID) hmem
      rw [prefixes, List.count, List.countP_map, List.countP_eq_length_filter] at hone
      exact hone

theorem fetch_error_iff (hagree : Agree (listed zones list)) :
    (∃ err, fetch parsePrefix zones list = .error err) ↔
      (∃ z ∈ zones, ∃ err, list z.name = .error err) ∨
        ∃ x ∈ listed zones list, parsePrefix x.2.subnet = none ∨ parsePrefix x.2.synthetic = none := by
  have hok := @fetch_isOk_iff ε parsePrefix zones list
  rw [wellFormed_iff hagree] at hok
  have hlists : (∀ z ∈ zones, ∃ as, list z.name = .ok as) ↔
      ¬∃ z ∈ zones, ∃ err, list z.name = .error err := by
    push Not
    apply forall₂_congr
    intro z _
    cases list z.name <;> simp
  have hparse : (∀ x ∈ listed zones list, (parsePrefix x.2.subnet).isSome ∧
      (parsePrefix x.2.synthetic).isSome) ↔ ¬∃ x ∈ listed zones list,
        parsePrefix x.2.subnet = none ∨ parsePrefix x.2.synthetic = none := by
    push Not
    simp only [Option.isSome_iff_ne_none]
  rw [hlists, hparse, ← not_or] at hok
  rw [← not_iff_not, ← hok]
  cases fetch parsePrefix zones list <;> simp

theorem fetch_perm (hagree : Agree (listed zones list)) (hzones : zones'.Perm zones)
    (hlists : ∀ z ∈ zones, Permuted (list' z.name) (list z.name)) :
    (fetch parsePrefix zones' list').toOption = (fetch parsePrefix zones list).toOption := by
  have hperm := listed_perm hzones hlists
  have hagree' : Agree (listed zones' list') := hagree.perm hperm
  have hfails : (∃ z ∈ zones', ∃ err, list' z.name = .error err) ↔
      ∃ z ∈ zones, ∃ err, list z.name = .error err := by
    apply exists_congr
    intro z
    rw [hzones.mem_iff]
    apply and_congr_right
    intro hz
    exact (hlists z hz).error_iff
  have herror : (∃ err, fetch parsePrefix zones' list' = .error err) ↔
      ∃ err, fetch parsePrefix zones list = .error err := by
    rw [fetch_error_iff hagree', fetch_error_iff hagree, hfails]
    simp only [hperm.mem_iff]
  cases hnew : fetch parsePrefix zones' list' with
  | error err =>
    obtain ⟨err', hold⟩ := herror.mp ⟨err, hnew⟩
    rw [hold]
    rfl
  | ok entries' =>
    cases hold : fetch parsePrefix zones list with
    | error err =>
      obtain ⟨err', hfail⟩ := herror.mpr ⟨err, hold⟩
      cases hnew.symm.trans hfail
    | ok entries =>
      obtain ⟨-, hasc, hagg⟩ := fetch_ok hold
      obtain ⟨-, hasc', hagg'⟩ := fetch_ok hnew
      exact congrArg some (entries_eq hagree hperm hagg hagg' hasc hasc' (sorted_zones hold)
        (sorted_zones hnew))

/-- The aggregation fails only for a list or a CIDR that cannot be had; otherwise it has exactly one
entry for each announcement, with exactly the zones that list it, whatever the orders; and each
entry is the node's own or has its block in the consumer view once. -/
theorem fetch_exact (hids : ∀ z ∈ zones, ∀ as, list z.name = .ok as → (as.map (·.id)).Nodup)
    (hagree : Agree (listed zones list)) :
    ((∃ err, fetch parsePrefix zones list = .error err) ↔
      (∃ z ∈ zones, ∃ err, list z.name = .error err) ∨
        ∃ x ∈ listed zones list, parsePrefix x.2.subnet = none ∨ parsePrefix x.2.synthetic = none) ∧
    (∀ entries, fetch parsePrefix zones list = .ok entries →
      Exact parsePrefix zones list entries ∧ ∀ nodeID, ∀ e ∈ entries, Split entries nodeID e) ∧
    ∀ (iterate : List Entry → List Entry) (zones' : List ZoneResponse)
      (list' : String → Except ε (List AnnouncementResponse)),
      (∀ byID, (iterate byID).Perm byID) → zones'.Perm zones →
      (∀ z ∈ zones, Permuted (list' z.name) (list z.name)) →
      (fetchIn parsePrefix iterate zones' list').toOption = (fetch parsePrefix zones list).toOption := by
  refine ⟨fetch_error_iff hagree, ?_, ?_⟩
  · intro entries hok
    exact ⟨exact_of_fetch hagree hids hok, fun nodeID e he => split_entries nodeID he⟩
  · intro iterate zones' list' hiterate hzones hlists
    rw [fetchIn_eq hiterate]
    exact fetch_perm hagree hzones hlists

end

/-- Two zones list the announcement of one router, one of them another router's also. -/
def twoZones : List ZoneResponse := [⟨1, "lab", true⟩, ⟨2, "attic", false⟩]

def twoLists (zone : String) : Except Unit (List AnnouncementResponse) :=
  .ok (if zone = "lab" then [⟨2, 2, "b", "bob", "10.0.0.0/24", "100.64.1.0/24"⟩,
      ⟨1, 1, "a", "alice", "10.0.0.0/24", "100.64.0.0/24"⟩]
    else [⟨1, 1, "a", "alice", "10.0.0.0/24", "100.64.0.0/24"⟩])

theorem fetch_exact_twoZones :
    (∃ entries, fetch parsePrefix4 twoZones twoLists = .ok entries ∧
      Exact parsePrefix4 twoZones twoLists entries ∧ ∀ e ∈ entries, Split entries 1 e) ∧
    (fetchIn parsePrefix4 List.reverse twoZones.reverse twoLists).toOption =
      (fetch parsePrefix4 twoZones twoLists).toOption := by
  have hagree : Agree (listed twoZones twoLists) := by
    unfold Agree
    decide
  have hids : ∀ z ∈ twoZones, ∀ as, twoLists z.name = .ok as → (as.map (·.id)).Nodup := by
    simp [twoZones, twoLists]
  have hall := @fetch_exact Unit parsePrefix4 twoZones twoLists hids hagree
  obtain ⟨entries, hok⟩ : ∃ entries, fetch parsePrefix4 twoZones twoLists = .ok entries := by
    cases hok : fetch parsePrefix4 twoZones twoLists with
    | ok entries => exact ⟨entries, rfl⟩
    | error err => exact absurd (hall.1.mp ⟨err, hok⟩) (by decide)
  obtain ⟨hexact, hsplit⟩ := hall.2.1 entries hok
  refine ⟨⟨entries, hok, hexact, hsplit 1⟩, ?_⟩
  exact hall.2.2 List.reverse twoZones.reverse twoLists List.reverse_perm (List.reverse_perm _)
    fun z _ => List.Perm.refl _

end RouteSync
end LanWeave

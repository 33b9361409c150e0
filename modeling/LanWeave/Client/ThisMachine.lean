import LanWeave.Client.Panel
import LanWeave.Client.Replies
import LanWeave.Library.Turns
import LanWeave.Router.AnnounceAdd
import LanWeave.Server.NodeHistory

/-! Which of the account's devices the panel takes for its own machine, and whose node its commands
name, while devices are registered and deleted around it. -/

namespace LanWeave
open Library Prog Cli

/-! ### the devices that have the record's name or its address -/

/-- What the registration of the node has left on the machine. -/
structure Record.OfNode (r : Record) (k : Node) : Prop where
  nodeName : r.nodeName ≠ ""
  name : trimSpace r.nodeName = k.name
  ip : r.ip = formatAddr4 k.ip

def Node.response (n : Node) : NodeResponse := ⟨n.id, n.name, formatAddr4 n.ip⟩

namespace DB

/-- The node is there, or no device of its user has the name or the address that it had. -/
def Identifies (db : DB) (r : Record) (k : Node) : Prop :=
  k ∈ db.nodes ∨ ∀ n ∈ db.nodes, n.userID = k.userID → n.name ≠ r.nodeName ∧ n.ip ≠ k.ip

instance (db : DB) (r : Record) (k : Node) : Decidable (db.Identifies r k) :=
  inferInstanceAs (Decidable (k ∈ db.nodes ∨
    ∀ n ∈ db.nodes, n.userID = k.userID → n.name ≠ r.nodeName ∧ n.ip ≠ k.ip))

/-- The name and the address are not with two different devices. -/
def Undivided (db : DB) (r : Record) (k : Node) : Prop :=
  ∀ n ∈ db.nodes, ∀ m ∈ db.nodes, n.userID = k.userID → m.userID = k.userID → n.name = r.nodeName →
    m.ip = k.ip → n = m

end DB

section
variable {r : Record} {k n : Node} {db db₀ : DB}

theorem isThisMachine_iff (hr : r.OfNode k) : r.isThisMachine n.response.name n.response.ip = true ↔
    n.name = r.nodeName ∨ n.ip = k.ip := by
  have hip := formatAddr4_ne_empty k.ip
  unfold Record.isThisMachine Node.response
  simp only [Bool.or_eq_true, Bool.and_eq_true, decide_eq_true_eq, hr.nodeName, ne_eq, not_false_eq_true,
    true_and, hr.ip, hip, formatAddr4_injective.eq_iff]

section
variable (hr : r.OfNode k) (hs : db₀.Since db)
include hr hs

/-- As long as the node is there it alone is taken for this machine. -/
theorem eq_of_recognised (hk : k ∈ db.nodes) (hn : n ∈ db.nodes) (huser : n.userID = k.userID)
    (hmatch : n.name = r.nodeName ∨ n.ip = k.ip) : n = k := by
  rcases hmatch with hname | hip
  · have hsame : n.name = k.name := by
      rw [← hs.named n hn, hname, hr.name]
    exact hs.wf.node_name n hn k hk (Prod.ext huser hsame)
  · exact hs.wf.node_ip n hn k hk hip

theorem identifies_iff : db.Identifies r k ↔ ∀ n ∈ db.nodes, n.userID = k.userID →
    n.name = r.nodeName ∨ n.ip = k.ip → n = k := by
  constructor
  · intro h n hn huser hmatch
    rcases h with hk | hnone
    · exact eq_of_recognised hr hs hk hn huser hmatch
    · obtain ⟨hname, hip⟩ := hnone n hn huser
      exact absurd hmatch (not_or.mpr ⟨hname, hip⟩)
  · intro h
    by_cases hk : k ∈ db.nodes
    · exact .inl hk
    · refine .inr fun n hn huser => not_or.mp fun hmatch => hk ?_
      rw [← h n hn huser hmatch]
      exact hn

end

/-- What `ListNodes` answers the user. -/
def deviceList (db : DB) (userID : Int) : List NodeResponse := (db.listByUser userID).map (·.response)

theorem mem_listByUser {userID : Int} : n ∈ db.listByUser userID ↔ n ∈ db.nodes ∧ n.userID = userID := by
  unfold DB.listByUser
  rw [List.mem_reverse, List.mem_filter, decide_eq_true_eq]

def Record.find (r : Record) (nodes : List NodeResponse) : Option NodeResponse :=
  nodes.find? fun n => r.isThisMachine n.name n.ip

theorem find_id_iff (hr : r.OfNode k) (hw₀ : db₀.Wf) (hk₀ : k ∈ db₀.nodes) (hs : db₀.Since db) :
    (∀ m, r.find (deviceList db k.userID) = some m → m.id = k.id) ↔ db.Identifies r k := by
  rw [identifies_iff hr hs]
  constructor
  · intro h n hn huser hmatch
    have hmem : n.response ∈ deviceList db k.userID :=
      List.mem_map_of_mem (mem_listByUser.mpr ⟨hn, huser⟩)
    cases hfind : r.find (deviceList db k.userID) with
    | none => exact absurd ((isThisMachine_iff hr).mpr hmatch) (List.find?_eq_none.mp hfind _ hmem)
    | some m =>
      obtain ⟨n', hn', rfl⟩ := List.mem_map.mp (List.mem_of_find?_eq_some hfind)
      have hk := hs.eq_of_id hw₀ hk₀ (mem_listByUser.mp hn').1 (h _ hfind)
      exact eq_of_recognised hr hs (hk ▸ (mem_listByUser.mp hn').1) hn huser hmatch
  · intro h m hfind
    obtain ⟨n, hn, rfl⟩ := List.mem_map.mp (List.mem_of_find?_eq_some hfind)
    obtain ⟨hn, huser⟩ := mem_listByUser.mp hn
    have hmatch := List.find?_some (p := fun n : NodeResponse => r.isThisMachine n.name n.ip) hfind
    rw [h n hn huser ((isThisMachine_iff hr).mp hmatch)]
    rfl

/-- Which devices `Devices` marks. -/
def marked (r : Record) (nodes : List NodeResponse) : List NodeResponse :=
  nodes.filter fun n => r.isThisMachine n.name n.ip

theorem length_le_one_iff {α : Type} {l : List α} (hl : l.Nodup) :
    l.length ≤ 1 ↔ ∀ a ∈ l, ∀ b ∈ l, a = b := by
  cases l with
  | nil => simp
  | cons a l =>
    cases l with
    | nil => simp
    | cons b l =>
      have hne : a ≠ b := fun heq => (List.nodup_cons.mp hl).1 (heq ▸ List.mem_cons_self)
      apply iff_of_false
      · simp
      · exact fun hall => hne (hall a List.mem_cons_self b (List.mem_cons_of_mem _ List.mem_cons_self))

theorem nodup_deviceList (hw : db.Wf) (userID : Int) : (deviceList db userID).Nodup := by
  have hasc : Ascending Node.id (db.nodes.filter (·.userID = userID)) :=
    hw.nodes_asc.sublist List.filter_sublist
  unfold deviceList DB.listByUser
  rw [List.map_reverse, List.nodup_reverse]
  apply List.Nodup.map_on
  · intro a ha b hb hab
    exact hasc.keyed a ha b hb (congrArg NodeResponse.id hab)
  · apply List.Pairwise.imp _ hasc
    rintro a b hlt rfl
    exact lt_irrefl _ hlt

theorem mem_marked (hr : r.OfNode k) {m : NodeResponse} : m ∈ marked r (deviceList db k.userID) ↔
    ∃ n ∈ db.nodes, n.userID = k.userID ∧ (n.name = r.nodeName ∨ n.ip = k.ip) ∧ n.response = m := by
  unfold marked deviceList
  rw [List.mem_filter, List.mem_map]
  constructor
  · intro h
    obtain ⟨⟨n, hn, rfl⟩, hmatch⟩ := h
    obtain ⟨hmem, huser⟩ := mem_listByUser.mp hn
    exact ⟨n, hmem, huser, (isThisMachine_iff hr).mp hmatch, rfl⟩
  · intro h
    obtain ⟨n, hmem, huser, hmatch, rfl⟩ := h
    exact ⟨⟨n, mem_listByUser.mpr ⟨hmem, huser⟩, rfl⟩, (isThisMachine_iff hr).mpr hmatch⟩

/-- Two devices are marked exactly when one has got the name and another one the address. -/
theorem marked_le_one_iff (hr : r.OfNode k) (hw : db.Wf) :
    (marked r (deviceList db k.userID)).length ≤ 1 ↔ db.Undivided r k := by
  have hnodup : (marked r (deviceList db k.userID)).Nodup := (nodup_deviceList hw k.userID).filter _
  rw [length_le_one_iff hnodup]
  constructor
  · intro h n hn m hm hnUser hmUser hname hip
    have hsame := h n.response ((mem_marked hr).mpr ⟨n, hn, hnUser, .inl hname, rfl⟩) m.response
      ((mem_marked hr).mpr ⟨m, hm, hmUser, .inr hip, rfl⟩)
    exact hw.nodes_asc.keyed n hn m hm (congrArg NodeResponse.id hsame)
  · intro h a ha b hb
    obtain ⟨n, hn, hnUser, hnMatch, rfl⟩ := (mem_marked hr).mp ha
    obtain ⟨m, hm, hmUser, hmMatch, rfl⟩ := (mem_marked hr).mp hb
    apply congrArg
    rcases hnMatch with hnName | hnIP
    · rcases hmMatch with hmName | hmIP
      · exact hw.node_name n hn m hm (Prod.ext (hnUser.trans hmUser.symm) (hnName.trans hmName.symm))
      · exact h n hn m hm hnUser hmUser hnName hmIP
    · rcases hmMatch with hmName | hmIP
      · exact (h m hm n hn hmUser hnUser hmName hnIP).symm
      · exact hw.node_ip n hn m hm (hnIP.trans hmIP.symm)

end

/-! ### commands while the account changes -/

section
variable {κ : Type} [DecidableEq κ]

/-- The server after registrations and deletions. -/
def Installation.changed (h : Handlers κ) (changes : List NodeChange) (s : Installation κ) :
    Installation κ :=
  { s with site := { s.site with world := serveAll h.toServer s.site.world (changes.map (·.request)) } }

/-- The operations of the machine, each after registrations and deletions by whomever. -/
def changingSem (h : Handlers κ) (i : Identity) :
    Semantics HostOp HostOp.Result (List NodeChange × Conditions) (Installation κ) :=
  fun o e s => Installation.sem h i o e.2 (s.changed h e.1)

def OfPanel : HostOp → Prop
  | .http _ .listNodes | .http _ (.refresh _) | .http _ (.logout _) => True
  | .http _ (.createZone ..) | .http _ (.joinZone ..) | .http _ (.leaveZone ..) => True
  | .http _ (.deleteNode _) => True
  | .clearFirewall | .deleteKey _ | .clearState => True
  | _ => False

def HostOp.names : HostOp → Option Int
  | .http _ (.createZone _ id _) | .http _ (.joinZone _ id _) | .http _ (.leaveZone _ id) => some id
  | .http _ (.deleteNode id) => some id
  | _ => none

variable {h : Handlers κ} {i : Identity} {db₀ : DB}

theorem exchange_since {x : Site κ} (hs : db₀.Since x.world.db) (t : Transit) (c : ApiClient)
    {call : ApiCall} {e : Call} (hendpoint : call.endpoint t.salt = some (.call e))
    (hcall : e.OfDevice) :
    db₀.Since (x.exchange h i t c call).2.world.db := by
  have huser : ∀ path, e ≠ .deleteUser path := by
    rintro path rfl
    exact hcall
  have hworld := (@respond_call κ _ h i t x call e hendpoint huser).2
  have hserved : db₀.Since (x.respond h i t call).2.world.db := by
    rw [hworld]
    exact serve_since hs hcall
  unfold Site.exchange
  split_ifs
  · exact hs
  · cases t.fate with
    | lost | refused => exact hs
    | served | unanswered =>
      dsimp only
      exact hserved

theorem changingSem_since {o : HostOp} (ho : OfPanel o) (e : List NodeChange × Conditions)
    {s : Installation κ} (hs : db₀.Since s.site.world.db) :
    db₀.Since (changingSem h i o e s).2.site.world.db := by
  have hchanged : db₀.Since (s.changed h e.1).site.world.db := serveAll_since hs e.1
  have hquiet : ∀ c call, ((s.changed h e.1).site.respond h i e.2.transit call).2 =
    (s.changed h e.1).site →
      db₀.Since (changingSem h i (.http c call) e s).2.site.world.db := by
    intro c call hsame
    show db₀.Since ((s.changed h e.1).site.exchange h i e.2.transit c call).2.world.db
    rw [exchange_of_respond hsame]
    exact hchanged
  cases o with
  | http c call =>
    cases call with
    | listNodes => exact hquiet c .listNodes rfl
    | refresh rt => exact hquiet c (.refresh rt) rfl
    | logout rt => exact hquiet c (.logout rt) rfl
    | createZone name id password =>
      exact exchange_since (e := .createZone
        (some ⟨name, password, id⟩) e.2.transit.salt) hchanged _ _ rfl
        trivial
    | joinZone name id password =>
      exact exchange_since (e := .joinZone name (some ⟨id, password⟩)) hchanged _ _ rfl trivial
    | leaveZone name id =>
      exact exchange_since (e := .leaveZone name (some ⟨id⟩)) hchanged _ _ rfl trivial
    | deleteNode id => exact exchange_since (e := .deleteNode (toString id)) hchanged _ _ rfl trivial
    | _ => exact ho.elim
  | clearFirewall | clearState | deleteKey =>
    unfold changingSem Installation.sem
    dsimp only
    split_ifs <;> exact hchanged
  | _ => exact ho.elim

theorem runs_since {α : Type} {p : Cli α} (hp : p.Only OfPanel) {s s' : Installation κ}
    {tr : List (HostOp × List NodeChange × Conditions)} {a : α}
    (hrun : p.Runs (changingSem h i) s tr a s') (hs : db₀.Since s.site.world.db) :
    db₀.Since s'.site.world.db := by
  induction p generalizing s tr with
  | pure b =>
    obtain ⟨-, -, rfl⟩ := hrun
    exact hs
  | op o k ih =>
    obtain ⟨e, tr, rfl, hrun⟩ := hrun
    exact ih _ (hp.2 _) hrun (changingSem_since hp.1 e hs)

/-! ### the nodes that a run names, and the lists it gets -/

/-- The nodes that the requests of a run name. -/
def namedIn (tr : List (HostOp × List NodeChange × Conditions)) : List Int := tr.filterMap (·.1.names)

variable (h i) in
/-- The step gets the client the list of the devices. -/
def fetches : Installation κ × HostOp × List NodeChange × Conditions → Bool
  | (s, .http c .listNodes, changes, e) =>
    (c.outcome .listNodes ((s.changed h changes).site.exchange h i e.transit c .listNodes).1).toBool
  | _ => false

variable (h i) in
/-- The server as it was for each list that a run has got. -/
def fetched (s : Installation κ) (tr : List (HostOp × List NodeChange × Conditions)) : List DB :=
  ((steps (changingSem h i) s tr).filter (fetches h i)).map fun x =>
    (x.1.changed h x.2.2.1).site.world.db

variable {s s' : Installation κ} {tr tr' : List (HostOp × List NodeChange × Conditions)} {α : Type}
  {p : Cli α} {a : α} {c c' : ApiClient}

theorem namedIn_append : namedIn (tr ++ tr') = namedIn tr ++ namedIn tr' := List.filterMap_append

theorem fetched_nil : fetched h i s [] = [] := rfl

theorem fetched_append (hrun : p.Runs (changingSem h i) s tr a s') :
    fetched h i s (tr ++ tr') = fetched h i s tr ++ fetched h i s' tr' := by
  unfold fetched
  rw [hrun.steps_append, List.filter_append, List.map_append]

theorem namedIn_of_only {ok : HostOp → Prop} (hp : p.Only ok) (hok : ∀ o, ok o → o.names = none)
    (hrun : p.Runs (changingSem h i) s tr a s') : namedIn tr = [] :=
  List.filterMap_eq_nil_iff.mpr fun x hx => hok x.1 (hp.runs hrun x hx)

theorem fetched_of_only {ok : HostOp → Prop} (hp : p.Only ok) (hok : ∀ c, ¬ok (.http c .listNodes))
    (hrun : p.Runs (changingSem h i) s tr a s') : fetched h i s tr = [] := by
  apply List.map_eq_nil_iff.mpr
  apply List.filter_eq_nil_iff.mpr
  rintro ⟨s₁, o, changes, e⟩ hx hfetches
  have ho : ok o := hp.runs hrun _ (mem_of_mem_steps hx)
  cases o with
  | http c call =>
    cases call with
    | listNodes => exact hok c ho
    | _ => cases hfetches
  | _ => cases hfetches

theorem fetched_since (hp : p.Only OfPanel) (hrun : p.Runs (changingSem h i) s tr a s')
    (hs : db₀.Since s.site.world.db) : ∀ db ∈ fetched h i s tr, db₀.Since db := by
  induction p generalizing s tr with
  | pure b =>
    obtain ⟨rfl, -⟩ := hrun
    exact fun db hdb => absurd hdb List.not_mem_nil
  | op o k ih =>
    obtain ⟨e, tr, rfl, hrun⟩ := hrun
    have hlater := ih _ (hp.2 _) hrun (changingSem_since hp.1 e hs)
    have hnow : db₀.Since (s.changed h e.1).site.world.db := serveAll_since hs e.1
    intro db hdb
    obtain ⟨x, hx, rfl⟩ := List.mem_map.mp hdb
    obtain ⟨hx, hfetches⟩ := List.mem_filter.mp hx
    rcases List.mem_cons.mp hx with rfl | hx
    · exact hnow
    · exact hlater _ (List.mem_map_of_mem (List.mem_filter.mpr ⟨hx, hfetches⟩))

theorem respond_listNodes (t : Transit) (x : Site κ) :
    (x.respond h i t .listNodes).1 = .ok (some (deviceList x.world.db i.userID)) := by
  show HttpResponse.ok (some (List.map _ (List.map _ (x.world.db.listByUser i.userID)))) = _
  rw [List.map_map]
  rfl

theorem runs_attempt_listNodes {res : Except ApiErr (List NodeResponse)}
    (hrun : (attempt c .listNodes).Runs (changingSem h i) s tr res s') :
    (∃ db, fetched h i s tr = [db] ∧ res = .ok (deviceList db i.userID)) ∨
      fetched h i s tr = [] ∧ ∃ err, res = .error err := by
  obtain ⟨e, tr, rfl, rfl, rfl, rfl⟩ := hrun
  have hfetched : fetched h i s [(.http c .listNodes, e)] =
      if fetches h i (s, .http c .listNodes, e) then [(s.changed h e.1).site.world.db] else [] := by
    unfold fetched steps steps
    rw [List.filter_singleton]
    cases fetches h i (s, .http c .listNodes, e) <;> rfl
  rw [hfetched]
  show (∃ db, _ ∧ c.outcome .listNodes ((s.changed h e.1).site.exchange h i e.2.transit c .listNodes).1 = _) ∨
    _ ∧ ∃ err, c.outcome .listNodes ((s.changed h e.1).site.exchange h i e.2.transit c .listNodes).1 = _
  have hgot : fetches h i (s, .http c .listNodes, e) =
    (c.outcome .listNodes ((s.changed h e.1).site.exchange h i e.2.transit c .listNodes).1).toBool := rfl
  rw [hgot]
  cases hout : c.outcome .listNodes ((s.changed h e.1).site.exchange h i e.2.transit c .listNodes).1 with
  | error err => exact .inr ⟨rfl, err, rfl⟩
  | ok nodes =>
    have hserved := congrArg Prod.fst (served_of_ok hout)
    rw [respond_listNodes] at hserved
    obtain rfl : deviceList (s.changed h e.1).site.world.db i.userID = nodes := by
      injection hserved with hlist
      exact Option.some.inj hlist
    exact .inl ⟨_, rfl, rfl⟩

/-- The operations of a request for a list. -/
def Lists : HostOp → Prop
  | .http _ .listNodes | .http _ (.refresh _) => True
  | _ => False

theorem only_lists : (request c .listNodes).Only Lists :=
    only_request (fun _ => trivial) fun _ _ => trivial

theorem namedIn_lists (hp : p.Only Lists) (hrun : p.Runs (changingSem h i) s tr a s') :
    namedIn tr = [] := by
  apply namedIn_of_only hp _ hrun
  intro o ho
  cases o with
  | http c call =>
    cases call with
    | listNodes | refresh => rfl
    | _ => exact ho.elim
  | _ => exact ho.elim

theorem runs_refresh_nothing {renewed : Bool × ApiClient}
    (hrun : (Cli.refresh c).Runs (changingSem h i) s tr renewed s') : fetched h i s tr = [] := by
  have honly : (Cli.refresh c).Only fun o => ∃ c rt, o = .http c (.refresh rt) :=
    only_refresh fun c rt => ⟨c, rt, rfl⟩
  apply fetched_of_only honly _ hrun
  rintro c' ⟨_, _, heq⟩
  cases heq

theorem runs_request_listNodes {res : Except ApiErr (List NodeResponse)}
    (hrun : (request c .listNodes).Runs (changingSem h i) s tr (res, c') s') :
    (∃ db, fetched h i s tr = [db] ∧ res = .ok (deviceList db i.userID)) ∨
      fetched h i s tr = [] ∧ ∃ err, res = .error err := by
  obtain ⟨tr₁, tr₂, first, s₁, rfl, hfirst, hrest⟩ := runs_bind.mp hrun
  rw [fetched_append hfirst]
  have hgot := runs_attempt_listNodes hfirst
  split_ifs at hrest with hrenew
  · have hnone : fetched h i s tr₁ = [] := by
      rcases hgot with ⟨db, -, rfl⟩ | ⟨hnone, -⟩
      · simp [expired] at hrenew
      · exact hnone
    obtain ⟨tr₃, tr₄, ⟨renewed, c₁⟩, s₂, rfl, hrefresh, hrest⟩ := runs_bind.mp hrest
    rw [hnone, List.nil_append, fetched_append hrefresh, runs_refresh_nothing hrefresh, List.nil_append]
    dsimp only at hrest
    split_ifs at hrest
    · obtain ⟨tr₅, tr₆, again, s₃, rfl, hagain, hrest⟩ := runs_bind.mp hrest
      obtain ⟨rfl, hres, -⟩ := hrest
      rw [List.append_nil, (Prod.mk.inj hres).1]
      exact runs_attempt_listNodes hagain
    · obtain ⟨rfl, hres, -⟩ := hrest
      rcases hgot with ⟨db, hone, -⟩ | ⟨-, herr⟩
      · rw [hone] at hnone
        cases hnone
      · rw [(Prod.mk.inj hres).1]
        exact .inr ⟨fetched_nil, herr⟩
  · obtain ⟨rfl, hres, -⟩ := hrest
    rw [fetched_nil, List.append_nil, (Prod.mk.inj hres).1]
    exact hgot

theorem runs_request_naming {call : ApiCall} {id : Int}
    (hcall : ∀ c, (HostOp.http c call).names = some id)
    {res : Except ApiErr call.Body} (hrun : (request c call).Runs (changingSem h i) s tr (res, c') s')
    (nodeID : Int) : ((∀ id' ∈ namedIn tr, id' = nodeID) ↔ id = nodeID) ∧ fetched h i s tr = [] := by
  have honly : (request c call).Only fun o => o.names = some id ∨ ∃ c rt, o = .http c (.refresh rt) :=
    only_request (fun c => .inl (hcall c)) fun c rt => .inr ⟨c, rt, rfl⟩
  constructor
  · constructor
    · intro hall
      obtain ⟨e, tr, rfl, -⟩ := hrun
      exact hall id (List.mem_filterMap.mpr ⟨_, List.mem_cons_self, hcall c⟩)
    · intro hid id' hmem
      obtain ⟨x, hx, hnames⟩ := List.mem_filterMap.mp hmem
      rcases honly.runs hrun x hx with hsome | ⟨_, _, heq⟩
      · rw [hsome] at hnames
        exact (Option.some.inj hnames).symm.trans hid
      · rw [heq] at hnames
        cases hnames
  · apply fetched_of_only honly _ hrun
    rintro c (hnames | ⟨_, _, heq⟩)
    · cases hnames
    · cases heq

/-! ### the commands of the controller -/

variable {ctl ctl' : Controller} {r : Record} {k : Node}

theorem runs_call {call : ApiCall} {res : Except ApiErr call.Body}
    (hrun : (ctl.call call).Runs (changingSem h i) s tr (res, ctl') s') :
    ctl'.record = ctl.record ∧ ∃ c, (request ctl.api call).Runs (changingSem h i) s tr (res, c) s' := by
  obtain ⟨tr₁, tr₂, ⟨res', c⟩, s₁, rfl, hrequest, rfl, heq, rfl⟩ := runs_bind.mp hrun
  cases heq
  rw [List.append_nil]
  exact ⟨rfl, c, hrequest⟩

theorem runs_thisMachineNodeID {res : Except PanelErr Int}
    (hrun : ctl.thisMachineNodeID.Runs (changingSem h i) s tr (res, ctl') s') :
    ctl'.record = ctl.record ∧ namedIn tr = [] ∧
      ((∃ db, fetched h i s tr = [db] ∧ ∀ id, res = .ok id ↔
          ((ctl.record.find (deviceList db i.userID)).map (·.id)) = some id) ∨
        fetched h i s tr = [] ∧ ∃ err, res = .error err) := by
  obtain ⟨tr₁, tr₂, ⟨list, ctl₁⟩, s₁, rfl, hcall, hrest⟩ := runs_bind.mp hrun
  obtain ⟨hrecord, c, hrequest⟩ := runs_call hcall
  have hnamed := namedIn_lists only_lists hrequest
  have hgot := runs_request_listNodes hrequest
  cases list with
  | error err =>
    obtain ⟨rfl, heq, rfl⟩ := hrest
    cases heq
    rw [List.append_nil]
    refine ⟨hrecord, hnamed, .inr ?_⟩
    rcases hgot with ⟨_, -, heq⟩ | ⟨hnone, -⟩
    · cases heq
    · exact ⟨hnone, _, rfl⟩
  | ok nodes =>
    rcases hgot with ⟨db, hone, heq⟩ | ⟨-, _, heq⟩
    · cases heq
      have hfind : (deviceList db i.userID).find? (fun n => ctl₁.record.isThisMachine n.name n.ip) =
        ctl.record.find (deviceList db i.userID) := by
          rw [hrecord]
          rfl
      dsimp only at hrest
      rw [hfind] at hrest
      -- the list is the server's as it was at the request, and the search is that of the record
      cases hres : ctl.record.find (deviceList db i.userID) with
      | none =>
        rw [hres] at hrest
        obtain ⟨rfl, heq, rfl⟩ := hrest
        cases heq
        rw [List.append_nil]
        refine ⟨hrecord, hnamed, .inl ⟨db, hone, fun id => ?_⟩⟩
        rw [hres]
        simp
      | some n =>
        rw [hres] at hrest
        obtain ⟨rfl, heq, rfl⟩ := hrest
        cases heq
        rw [List.append_nil]
        refine ⟨hrecord, hnamed, .inl ⟨db, hone, fun id => ?_⟩⟩
        rw [hres]
        simp
    · cases heq

theorem only_call {call : ApiCall} (hcall : ∀ c, OfPanel (.http c call)) :
    (ctl.call call).Only OfPanel :=
  (only_request hcall fun _ _ => trivial).bind fun _ => trivial

theorem only_thisMachineNodeID : ctl.thisMachineNodeID.Only OfPanel := by
  have hlist : ∀ c, OfPanel (.http c .listNodes) := fun _ => trivial
  apply (only_call hlist).bind
  intro r
  obtain ⟨list, ctl'⟩ := r
  cases list with
  | error err => trivial
  | ok nodes =>
    dsimp only
    cases nodes.find? fun n => ctl'.record.isThisMachine n.name n.ip <;> trivial

section
variable (hw₀ : db₀.Wf) (hk₀ : k ∈ db₀.nodes) (huser : k.userID = i.userID) (hr : ctl.record.OfNode k)
  (hs : db₀.Since s.site.world.db)
include hw₀ hk₀ huser hr hs

/-- The node found is this machine's exactly where the lists identify it. -/
theorem found_iff {res : Except PanelErr Int}
    (hrun : ctl.thisMachineNodeID.Runs (changingSem h i) s tr (res, ctl') s') :
    (∀ id, res = .ok id → id = k.id) ↔ ∀ db ∈ fetched h i s tr, db.Identifies ctl.record k := by
  have hsince := fetched_since only_thisMachineNodeID hrun hs
  rcases (runs_thisMachineNodeID hrun).2.2 with ⟨db, hone, hres⟩ | ⟨hnone, err, rfl⟩
  · rw [hone] at hsince ⊢
    rw [List.forall_mem_singleton] at hsince ⊢
    rw [← find_id_iff hr hw₀ hk₀ hsince, huser]
    constructor
    · intro h m hm
      exact h m.id ((hres m.id).mpr (congrArg (Option.map _) hm))
    · intro h id hid
      obtain ⟨m, hm, rfl⟩ := Option.map_eq_some_iff.mp ((hres id).mp hid)
      exact h m hm
  · rw [hnone]
    simp

theorem runs_naming {f : Except PanelErr Int × Controller → Cli α}
    (hrun : (ctl.thisMachineNodeID >>= f).Runs (changingSem h i) s tr a s')
    (hf : ∀ res ctl' s₁ tr', (f (res, ctl')).Runs (changingSem h i) s₁ tr' a s' →
      fetched h i s₁ tr' = [] ∧ ((∀ id ∈ namedIn tr', id = k.id) ↔ ∀ id, res = .ok id → id = k.id)) :
    (∀ id ∈ namedIn tr, id = k.id) ↔ ∀ db ∈ fetched h i s tr, db.Identifies ctl.record k := by
  obtain ⟨tr₁, tr₂, ⟨res, ctl₁⟩, s₁, rfl, hfind, hrest⟩ := runs_bind.mp hrun
  obtain ⟨hnone, hnames⟩ := hf res ctl₁ s₁ tr₂ hrest
  rw [namedIn_append, (runs_thisMachineNodeID hfind).2.1, List.nil_append, hnames,
    fetched_append hfind, hnone, List.append_nil]
  exact found_iff hw₀ hk₀ huser hr hs hfind

theorem runs_forThisMachine {command : Int → ApiCall}
    (hcommand : ∀ c id, (HostOp.http c (command id)).names = some id) {res : Except PanelErr Unit}
    (hrun : (ctl.forThisMachine command).Runs (changingSem h i) s tr (res, ctl') s') :
    (∀ id ∈ namedIn tr, id = k.id) ↔ ∀ db ∈ fetched h i s tr, db.Identifies ctl.record k := by
  apply runs_naming hw₀ hk₀ huser hr hs hrun
  intro found ctl₁ s₁ tr' hrest
  cases found with
  | error err =>
    obtain ⟨rfl, -⟩ := hrest
    exact ⟨fetched_nil, by simp [namedIn]⟩
  | ok id =>
    obtain ⟨tr₁, tr₂, ⟨answer, ctl₂⟩, s₂, rfl, hcall, hend⟩ := runs_bind.mp hrest
    obtain ⟨-, c, hrequest⟩ := runs_call hcall
    obtain ⟨hnames, hnone⟩ := runs_request_naming (fun c => hcommand c id) hrequest k.id
    obtain rfl : tr₂ = [] := by
      cases answer <;> exact hend.1
    rw [List.append_nil, hnames]
    exact ⟨hnone, by simp⟩

theorem runs_tryRemoveRemoteNode {res : RemoveResult}
    (hrun : ctl.tryRemoveRemoteNode.Runs (changingSem h i) s tr (res, ctl') s') :
    (∀ id ∈ namedIn tr, id = k.id) ↔ ∀ db ∈ fetched h i s tr, db.Identifies ctl.record k := by
  apply runs_naming hw₀ hk₀ huser hr hs hrun
  intro found ctl₁ s₁ tr' hrest
  cases found with
  | error err =>
    obtain rfl : tr' = [] := by
      cases err <;> exact hrest.1
    exact ⟨fetched_nil, by simp [namedIn]⟩
  | ok id =>
    obtain ⟨tr₁, tr₂, ⟨answer, ctl₂⟩, s₂, rfl, hcall, hend⟩ := runs_bind.mp hrest
    obtain ⟨-, c, hrequest⟩ := runs_call hcall
    obtain ⟨hnames, hnone⟩ := runs_request_naming (fun _ => rfl) hrequest k.id
    obtain rfl : tr₂ = [] := by
      cases answer <;> exact hend.1
    rw [List.append_nil, hnames]
    exact ⟨hnone, by simp⟩

end

theorem tryRemoveRemoteNode_record {res : RemoveResult}
    (hrun : ctl.tryRemoveRemoteNode.Runs (changingSem h i) s tr (res, ctl') s') :
    ctl'.record = ctl.record := by
  obtain ⟨tr₁, tr₂, ⟨found, ctl₁⟩, s₁, rfl, hfind, hrest⟩ := runs_bind.mp hrun
  have hrecord := (runs_thisMachineNodeID hfind).1
  cases found with
  | error err =>
    have hctl : ctl' = ctl₁ := by
      cases err <;> exact (Prod.mk.inj hrest.2.1).2
    rw [hctl, hrecord]
  | ok id =>
    obtain ⟨tr₃, tr₄, ⟨answer, ctl₂⟩, s₂, rfl, hcall, hend⟩ := runs_bind.mp hrest
    have hctl : ctl' = ctl₂ := by
      cases answer <;> exact (Prod.mk.inj hend.2.1).2
    rw [hctl, (runs_call hcall).1, hrecord]

theorem only_tryRemoveRemoteNode : ctl.tryRemoveRemoteNode.Only OfPanel := by
  apply only_thisMachineNodeID.bind
  intro r
  obtain ⟨found, ctl₁⟩ := r
  cases found with
  | error err => cases err <;> trivial
  | ok id =>
    have hdelete : ∀ c, OfPanel (.http c (.deleteNode id)) := fun _ => trivial
    apply (only_call hdelete).bind
    intro r
    obtain ⟨answer, ctl₂⟩ := r
    cases answer <;> trivial

theorem runs_removeWithin (hw₀ : db₀.Wf) (hk₀ : k ∈ db₀.nodes) (huser : k.userID = i.userID)
    (hr : ctl.record.OfNode k) (hs : db₀.Since s.site.world.db) {more : ℕ} {res : RemoveResult}
    (hrun : (ctl.removeWithin more).Runs (changingSem h i) s tr (res, ctl') s') :
    (∀ id ∈ namedIn tr, id = k.id) ↔ ∀ db ∈ fetched h i s tr, db.Identifies ctl.record k := by
  induction more generalizing ctl s tr with
  | zero => exact runs_tryRemoveRemoteNode hw₀ hk₀ huser hr hs hrun
  | succ more ih =>
    obtain ⟨tr₁, tr₂, ⟨first, ctl₁⟩, s₁, rfl, hfirst, hrest⟩ := runs_bind.mp hrun
    have hattempt := runs_tryRemoveRemoteNode hw₀ hk₀ huser hr hs hfirst
    have hrecord := tryRemoveRemoteNode_record hfirst
    have hs₁ : db₀.Since s₁.site.world.db := runs_since only_tryRemoveRemoteNode hfirst hs
    rw [namedIn_append, fetched_append hfirst, List.forall_mem_append, List.forall_mem_append]
    apply and_congr hattempt
    dsimp only at hrest
    split_ifs at hrest
    · rw [← hrecord] at hr ⊢
      exact ih hr hs₁ hrest
    · obtain ⟨rfl, -⟩ := hrest
      rw [fetched_nil]
      simp [namedIn]

/-- What the local part of a sign-out does. -/
def TearsDown : HostOp → Prop
  | .http _ (.logout _) => True
  | .clearFirewall | .deleteKey _ | .clearState => True
  | _ => False

theorem only_tearDownLocal : ctl.tearDownLocal.Only TearsDown := by
  have hlogout : (Cli.logout ctl.api).Only TearsDown := by
    unfold Cli.logout
    split_ifs
    · trivial
    · exact only_attempt trivial
  have hdelete : ∀ (k : KeyName), TearsDown (.deleteKey k) := fun _ => trivial
  apply hlogout.bind
  intro revoked
  exact ⟨trivial, fun _ => ⟨hdelete _, fun _ => ⟨hdelete _,
    fun _ => ⟨hdelete _, fun _ => ⟨trivial, fun _ => trivial⟩⟩⟩⟩⟩

theorem OfPanel.of_tearsDown {o : HostOp} (ho : TearsDown o) : OfPanel o := by
  cases o with
  | http c call =>
    cases call with
    | logout rt => trivial
    | _ => exact ho.elim
  | clearFirewall | deleteKey | clearState => trivial
  | _ => exact ho.elim

theorem runs_tearDownLocal {cleared : Bool}
    (hrun : ctl.tearDownLocal.Runs (changingSem h i) s tr cleared s') :
    namedIn tr = [] ∧ fetched h i s tr = [] := by
  constructor
  · apply namedIn_of_only only_tearDownLocal _ hrun
    intro o ho
    cases o with
    | http c call =>
      cases call with
      | logout rt => rfl
      | _ => exact ho.elim
    | clearFirewall | deleteKey | clearState => rfl
    | _ => exact ho.elim
  · apply fetched_of_only only_tearDownLocal _ hrun
    exact fun c ho => ho

theorem runs_logout (hw₀ : db₀.Wf) (hk₀ : k ∈ db₀.nodes) (huser : k.userID = i.userID)
    (hr : ctl.record.OfNode k) (hs : db₀.Since s.site.world.db) {reply : Controller.LogoutReply}
    (hrun : ctl.logout.Runs (changingSem h i) s tr reply s') :
    (∀ id ∈ namedIn tr, id = k.id) ↔ ∀ db ∈ fetched h i s tr, db.Identifies ctl.record k := by
  obtain ⟨tr₁, tr₂, ⟨res, ctl₁⟩, s₁, rfl, hremove, hrest⟩ := runs_bind.mp hrun
  have hquiet : namedIn tr₂ = [] ∧ fetched h i s₁ tr₂ = [] := by
    cases res with
    | blocked | needSignIn =>
      obtain ⟨rfl, -⟩ := hrest
      exact ⟨rfl, fetched_nil⟩
    | warn | done =>
      obtain ⟨tr₃, tr₄, cleared, s₂, rfl, htear, rfl, -⟩ := runs_bind.mp hrest
      rw [List.append_nil]
      exact runs_tearDownLocal htear
  rw [namedIn_append, fetched_append hremove, hquiet.1, hquiet.2, List.append_nil, List.append_nil]
  exact runs_removeWithin hw₀ hk₀ huser hr hs hremove

/-- At most one of the devices that are shown is marked unless a list has the name and the address
with two of them. -/
theorem runs_devices (hr : ctl.record.OfNode k) (huser : k.userID = i.userID)
    (hs : db₀.Since s.site.world.db) {res : Except ApiErr (List DeviceView)}
    (hrun : ctl.devices.Runs (changingSem h i) s tr (res, ctl') s') : namedIn tr = [] ∧
      (((res.toOption.getD []).filter (·.isThisMachine)).length ≤ 1 ↔
        ∀ db ∈ fetched h i s tr, db.Undivided ctl.record k) := by
  obtain ⟨tr₁, tr₂, ⟨list, ctl₁⟩, s₁, rfl, hcall, rfl, heq, rfl⟩ := runs_bind.mp hrun
  cases heq
  have hlist : ∀ c, OfPanel (.http c .listNodes) := fun _ => trivial
  have hsince := fetched_since (only_call hlist) hcall hs
  obtain ⟨hrecord, c, hrequest⟩ := runs_call hcall
  rw [List.append_nil]
  refine ⟨namedIn_lists only_lists hrequest, ?_⟩
  rcases runs_request_listNodes hrequest with ⟨db, hone, rfl⟩ | ⟨hnone, err, rfl⟩
  · rw [hone] at hsince ⊢
    rw [List.forall_mem_singleton] at hsince ⊢
    rw [← marked_le_one_iff hr hsince.wf, ← huser, hrecord]
    show ((List.map _ _).filter _).length ≤ 1 ↔ _
    rw [List.filter_map, List.length_map]
    rfl
  · rw [hnone]
    simp [Except.toOption, Except.map]

end

/-! ### the actions of the panel -/

/-- What the user does in the panel that depends on which of the devices this machine is. -/
inductive PanelAction
  | devices
  | createZone (name password : String)
  | joinZone (name password : String)
  | leaveZone (name : String)
  | logout

namespace PanelAction

/-- The action, and the devices that it shows. -/
def prog (ctl : Controller) : PanelAction → Cli (List DeviceView)
  | devices => do
    let (res, _) ← ctl.devices
    return res.toOption.getD []
  | createZone name password => do
    let _ ← ctl.createZone name password
    return []
  | joinZone name password => do
    let _ ← ctl.joinZone name password
    return []
  | leaveZone name => do
    let _ ← ctl.leaveZone name
    return []
  | logout => do
    let _ ← ctl.logout
    return []

/-- What a list has to be like for the action. -/
def Recognises (r : Record) (k : Node) (db : DB) : PanelAction → Prop
  | devices => db.Undivided r k
  | _ => db.Identifies r k

section
variable {ctl : Controller} {act : PanelAction}

theorem only_forThisMachine {command : Int → ApiCall}
    (hcommand : ∀ c id, OfPanel (.http c (command id))) :
    (ctl.forThisMachine command).Only OfPanel := by
  apply only_thisMachineNodeID.bind
  intro r
  obtain ⟨found, ctl₁⟩ := r
  cases found with
  | error err => trivial
  | ok id =>
    apply (only_call fun c => hcommand c id).bind
    intro r
    obtain ⟨answer, ctl₂⟩ := r
    cases answer <;> trivial

theorem only_removeWithin (more : ℕ) : (ctl.removeWithin more).Only OfPanel := by
  induction more generalizing ctl with
  | zero => exact only_tryRemoveRemoteNode
  | succ more ih =>
    apply only_tryRemoveRemoteNode.bind
    intro r
    dsimp only
    split_ifs
    · exact ih
    · trivial

theorem only_tearDownLocal_ofPanel : ctl.tearDownLocal.Only OfPanel :=
  only_tearDownLocal.imp fun _ => .of_tearsDown

theorem only_prog : (act.prog ctl).Only OfPanel := by
  cases act with
  | devices =>
    have hlist : ∀ c, OfPanel (.http c .listNodes) := fun _ => trivial
    have hdevices : ctl.devices.Only OfPanel := (only_call hlist).bind fun _ => trivial
    exact hdevices.bind fun _ => trivial
  | createZone name password =>
    have hcommand : ∀ c id, OfPanel (.http c (.createZone name id password)) := fun _ _ => trivial
    exact (only_forThisMachine hcommand).bind fun _ => trivial
  | joinZone name password =>
    have hcommand : ∀ c id, OfPanel (.http c (.joinZone name id password)) := fun _ _ => trivial
    exact (only_forThisMachine hcommand).bind fun _ => trivial
  | leaveZone name =>
    have hcommand : ∀ c id, OfPanel (.http c (.leaveZone name id)) := fun _ _ => trivial
    exact (only_forThisMachine hcommand).bind fun _ => trivial
  | logout =>
    have hlogout : ctl.logout.Only OfPanel := by
      apply (only_removeWithin 2).bind
      intro r
      obtain ⟨res, ctl₁⟩ := r
      cases res with
      | blocked | needSignIn => trivial
      | warn | done => exact only_tearDownLocal_ofPanel.bind fun _ => trivial
    exact hlogout.bind fun _ => trivial

end
end PanelAction

section
variable {κ : Type} [DecidableEq κ] {h : Handlers κ} {i : Identity} {db₀ : DB} {s₀ s s' : Installation κ}
  {tr : List (HostOp × List NodeChange × Conditions)} {ctl : Controller} {k : Node} {act : PanelAction}
  {views : List DeviceView}

variable (h i) in
/-- An action of the panel, with registrations and deletions around it. -/
def Commanded (s s' : Installation κ) : Prop :=
  ∃ (ctl : Controller) (act : PanelAction) (tr : List (HostOp × List NodeChange × Conditions))
    (views : List DeviceView), (act.prog ctl).Runs (changingSem h i) s tr views s'

theorem commanded_since (hs₀ : db₀.Since s₀.site.world.db)
    (hbefore : Relation.ReflTransGen (Commanded h i) s₀ s) : db₀.Since s.site.world.db := by
  induction hbefore with
  | refl => exact hs₀
  | tail _ hstep ih =>
    obtain ⟨ctl, act, tr, views, hrun⟩ := hstep
    exact runs_since PanelAction.only_prog hrun ih

theorem runs_zoneCommand {command : Int → ApiCall}
    (hcommand : ∀ c id, (HostOp.http c (command id)).names = some id) (hw₀ : db₀.Wf)
    (hk₀ : k ∈ db₀.nodes) (huser : k.userID = i.userID) (hr : ctl.record.OfNode k)
    (hs : db₀.Since s.site.world.db)
    (hrun : (ctl.forThisMachine command >>= fun _ => Prog.pure []).Runs
      (changingSem h i) s tr views s') :
    (∀ id ∈ namedIn tr, id = k.id) ∧ (views.filter (·.isThisMachine)).length ≤ 1 ↔
      ∀ db ∈ fetched h i s tr, db.Identifies ctl.record k := by
  obtain ⟨tr₁, tr₂, ⟨res, ctl₁⟩, s₁, rfl, hfor, rfl, rfl, rfl⟩ := runs_bind.mp hrun
  rw [List.append_nil, runs_forThisMachine hw₀ hk₀ huser hr hs hcommand hfor]
  simp

/-- After this machine has registered its node, and whatever has been registered and deleted since,
the requests of the panel name this node alone and at most one device is marked exactly when every
list tells it apart; which all do that are made as long as the node is there. -/
theorem this_machine_iff (hw₀ : s₀.site.world.db.Wf)
    (hnamed : ∀ n ∈ s₀.site.world.db.nodes, trimSpace n.name = n.name)
    (hk₀ : k ∈ s₀.site.world.db.nodes) (huser : k.userID = i.userID) (hr : ctl.record.OfNode k)
    (hbefore : Relation.ReflTransGen (Commanded h i) s₀ s)
    (hrun : (act.prog ctl).Runs (changingSem h i) s tr views s') :
    ((∀ id ∈ namedIn tr, id = k.id) ∧ (views.filter (·.isThisMachine)).length ≤ 1 ↔
        ∀ db ∈ fetched h i s tr, act.Recognises ctl.record k db) ∧
      ∀ db ∈ fetched h i s tr, k ∈ db.nodes → act.Recognises ctl.record k db := by
  have hs : s₀.site.world.db.Since s.site.world.db := commanded_since ⟨hw₀, .refl _, hnamed⟩ hbefore
  constructor
  · cases act with
    | devices =>
      obtain ⟨tr₁, tr₂, ⟨res, ctl₁⟩, s₁, rfl, hdevices, rfl, rfl, rfl⟩ := runs_bind.mp hrun
      obtain ⟨hnone, hmarked⟩ := runs_devices hr huser hs hdevices
      rw [List.append_nil, hnone, hmarked]
      simp [PanelAction.Recognises]
    | createZone name password => exact runs_zoneCommand (fun _ _ => rfl) hw₀ hk₀ huser hr hs hrun
    | joinZone name password => exact runs_zoneCommand (fun _ _ => rfl) hw₀ hk₀ huser hr hs hrun
    | leaveZone name => exact runs_zoneCommand (fun _ _ => rfl) hw₀ hk₀ huser hr hs hrun
    | logout =>
      obtain ⟨tr₁, tr₂, reply, s₁, rfl, hlogout, rfl, rfl, rfl⟩ := runs_bind.mp hrun
      rw [List.append_nil, runs_logout hw₀ hk₀ huser hr hs hlogout]
      simp [PanelAction.Recognises]
  · intro db hdb hk
    have hsince := fetched_since PanelAction.only_prog hrun hs db hdb
    cases act with
    | devices =>
      intro n hn m hm hnUser hmUser hname hip
      have hnk := eq_of_recognised hr hsince hk hn hnUser (.inl hname)
      exact hnk.trans (eq_of_recognised hr hsince hk hm hmUser (.inr hip)).symm
    | _ => exact .inl hk

end

/-! ### a node that is deleted, and another device that gets its address -/

def labController : Controller := ⟨routerClient,
    { Record.empty with nodeName := "router", ip := "10.0.0.2" }⟩

def replacements : List NodeChange :=
  [.delete ⟨1, "alice", true⟩ "1", .register ⟨1, "alice", true⟩ ⟨"laptop", "another key", "linux"⟩]

/-- The sign-out of the machine after the replacement. -/
def labLogout :
    Option (List (HostOp × List NodeChange × Conditions) × List DeviceView × Installation String) :=
  (PanelAction.logout.prog labController).follow (changingSem labServer.bare ⟨1, "alice", true⟩)
    (labSite (labDB [])) ((replacements, clashing) :: List.replicate 6 ([], clashing))

/-- The sign-out deletes the other device. -/
theorem this_machine_iff_replaced : ∃ tr views s', (PanelAction.logout.prog labController).Runs
    (changingSem labServer.bare ⟨1, "alice", true⟩) (labSite (labDB [])) tr views s' ∧
      ¬((∀ id ∈ namedIn tr, id = 1) ∧ (views.filter (·.isThisMachine)).length ≤ 1) := by
  have hsome : labLogout.isSome = true := by decide +kernel
  have hrun := runs_follow (Option.some_get hsome).symm
  have hnamed : ∀ n ∈ (labSite (labDB [])).site.world.db.nodes,
    trimSpace n.name = n.name := by decide +kernel
  have hr : labController.record.OfNode ⟨1, 1, "router", "key", 0x0A000002, "openwrt"⟩ :=
    ⟨by decide, by decide +kernel, by decide +kernel⟩
  have hstranger : ∃ db ∈ fetched labServer.bare ⟨1, "alice", true⟩ (labSite (labDB []))
      (labLogout.get (by decide +kernel)).1,
      ¬db.Identifies labController.record ⟨1, 1, "router", "key", 0x0A000002, "openwrt"⟩ := by
    decide +kernel
  obtain ⟨db, hdb, hdiffers⟩ := hstranger
  refine ⟨_, _, _, hrun, fun hown => hdiffers ?_⟩
  exact (this_machine_iff (labDB_wf (.inl rfl)) hnamed List.mem_cons_self rfl hr .refl hrun).1.mp hown db hdb

end LanWeave

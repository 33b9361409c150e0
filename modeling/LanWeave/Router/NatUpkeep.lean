import LanWeave.Library.Renewal
import LanWeave.Router.AnnounceRemove
import LanWeave.Router.Translation
import LanWeave.Server.Tidy

/-! The router's translation table under commands and daemon cycles that overlap: each of them
fetches the lists and then swaps the table it makes of them in, and the lock covers only the swap. -/

namespace LanWeave
open Library Prog Cli

def HostOp.rebuilds : HostOp → Bool
  | .rebuildNat .. => true
  | _ => false

/-- The first list that a program fetches. -/
def HostOp.listsZones : HostOp → Bool
  | .http _ .listZones => true
  | _ => false

/-- The router has this node's record, of this account. -/
structure Registered (i : Identity) (n : Node) (rec : Record) (network : Prefix) : Prop where
  user : i.userID = n.userID
  nodeID : rec.nodeID = n.id
  ip : rec.ip = formatAddr4 n.ip
  network : parsePrefix4 rec.network = some network

/-- The commands that change the announcements, and the daemon's cycle. -/
inductive Upkeep
  | add (insecure : Bool) (subnet zone : String)
  | remove (insecure : Bool) (subnet zone : String)
  | cycle (insecure : Bool)

/-- Each ends with whether it has succeeded. -/
def Upkeep.prog (rec : Record) : Upkeep → Cli Bool
  | add insecure subnet zone => do
    let code ← cmdAnnounce insecure (.add subnet zone)
    return code = 0
  | remove insecure subnet zone => do
    let code ← cmdAnnounce insecure (.remove subnet zone)
    return code = 0
  | cycle insecure => Cli.reconcileAll insecure rec

section
variable {κ : Type} [DecidableEq κ] (h : Handlers κ) (i : Identity) (n : Node) (rec : Record)
  (network : Prefix)

/-- The table as a copy that is derived from the server's rows. -/
def natFeed : Feed HostOp HostOp.Result Conditions (Installation κ) (Site κ) where
  sem := Installation.sem h i
  admits o e _ := Succeeds o e = true
  Inv s := s.site.world.db.Tidy h.toServer n ∧ s.file = some rec
  source := Installation.site
  fresh s := s.nat = some (Natctl.build network (s.site.world.db.natRules n.id))
  reads o := o.listsZones = true
  swaps o := o.rebuilds = true

end

section
variable {κ : Type} [DecidableEq κ] {h : Handlers κ} {i : Identity} {n : Node} {rec : Record}
  {network : Prefix} {e : Conditions} {s : Installation κ} {x : Site κ} {c : ApiClient} {call : ApiCall}
  {α : Type} {good : α → Prop}

/-- Where the rows stay as they are, a program that reads them comes to what they say. -/
theorem renews_of_reads {p : Cli α} {v : α} (hp : Cli.Reads h i x v p) :
    (natFeed h i n rec network).Renews (fun a => a ≠ v) x p := by
  induction p with
  | pure a => exact fun hne => hne hp
  | op o k ih =>
    cases o with
    | http c call =>
      intro e s _ he hx
      obtain ⟨haccepts, hfate⟩ := served_of_succeeds he
      have hsame : s.site = x := (exchange_reading hp.1).symm.trans hx
      right
      show (natFeed h i n rec network).Renews _ x (k (s.site.exchange h i e.transit c call).1)
      rw [hsame]
      exact ih _ (hp.2 e.transit haccepts hfate)
    | _ => exact hp.elim

theorem renews_after {β : Type} {p : Cli β} {f : β → Cli α} {v : β} (hp : Cli.Reads h i x v p)
    (hf : (natFeed h i n rec network).Renews good x (f v)) :
    (natFeed h i n rec network).Renews good x (p >>= f) := by
  apply (renews_of_reads hp).bind
  intro b hb
  obtain rfl := not_not.mp hb
  exact hf

theorem derives_after {β : Type} {p : Cli β} {f : β → Cli α} {v : β} (hp : Cli.Reads h i x v p)
    (hf : (natFeed h i n rec network).Derives x (f v)) :
    (natFeed h i n rec network).Derives x (p >>= f) := by
  induction p with
  | pure a =>
    obtain rfl : a = v := hp
    exact hf
  | op o k ih =>
    cases o with
    | http c call =>
      intro e s _ he hx
      obtain ⟨haccepts, hfate⟩ := served_of_succeeds he
      refine ⟨fun hswap => Bool.noConfusion hswap, ?_⟩
      show (natFeed h i n rec network).Derives _ (k (s.site.exchange h i e.transit c call).1 >>= f)
      obtain rfl : s.site = x := hx
      exact ih _ (hp.2 e.transit haccepts hfate)
    | _ => exact hp.elim

/-- The program fetches the lists and then swaps in the table of these rows. -/
inductive FetchesThenSwaps (h : Handlers κ) (i : Identity) (n : Node) (network : Prefix) (x : Site κ) :
    Cli α → Prop
  | fetch {β : Type} {q : Cli β} {v : β} {f : β → Cli α} (hreads : Cli.Reads h i x v q)
      (hrest : FetchesThenSwaps h i n network x (f v)) : FetchesThenSwaps h i n network x (q >>= f)
  | swap {rules : List Natctl.Rule} {f : Bool → Cli α} (hrules : rules = x.world.db.natRules n.id)
      (hrest : ∀ b, (f b).Only fun o => ¬o.rebuilds = true) :
      FetchesThenSwaps h i n network x (perform (.rebuildNat network rules) >>= f)

theorem fresh_rebuildNat (hreg : Registered i n rec network) {rules : List Natctl.Rule}
    (hrules : rules = s.site.world.db.natRules n.id)
    (he : Succeeds (.rebuildNat network rules) e = true) :
    (natFeed h i n rec network).fresh
      ((natFeed h i n rec network).sem (.rebuildNat network rules) e s).2 := by
  have hfails : e.fails = false := (Bool.not_eq_true' _).mp he
  have hrebuild := s.site.world.db.rebuild_natRules n.id (parsePrefix4_v4 hreg.network).1 s.nat
  show (Natctl.rebuild network rules e.fails s.nat).2 = _
  rw [hfails, hrules]
  exact congrArg Prod.snd hrebuild

theorem FetchesThenSwaps.renews {p : Cli α} (hp : FetchesThenSwaps h i n network x p)
    (hreg : Registered i n rec network) : (natFeed h i n rec network).Renews good x p := by
  induction hp with
  | fetch hreads _ ih => exact renews_after hreads ih
  | swap hrules _ =>
    intro e s _ he hx
    obtain rfl : s.site = x := hx
    exact .inl (fresh_rebuildNat hreg hrules he)

theorem FetchesThenSwaps.derives {p : Cli α} (hp : FetchesThenSwaps h i n network x p)
    (hreg : Registered i n rec network) : (natFeed h i n rec network).Derives x p := by
  induction hp with
  | fetch hreads _ ih => exact derives_after hreads ih
  | swap hrules hrest =>
    intro e s _ he hx
    obtain rfl : s.site = x := hx
    exact ⟨fun _ => fresh_rebuildNat hreg hrules he, Feed.derives_of_only (hrest _)⟩

/-- A program that begins with a list reads it from a database that is tidy. -/
theorem renews_of_tidy {p : Cli α} (hp : ∃ c call k, call.Reading ∧ p = .op (.http c call) k)
    (hrest : x.world.db.Tidy h.toServer n → (natFeed h i n rec network).Renews good x p) :
    (natFeed h i n rec network).Renews good x p := by
  by_cases ht : x.world.db.Tidy h.toServer n
  · exact hrest ht
  · obtain ⟨c, call, k, hreading, rfl⟩ := hp
    intro e s hs _ hx
    have hsame : s.site = x := (exchange_reading hreading).symm.trans hx
    exact absurd (hsame ▸ hs.1) ht

theorem tidy_own (ht : x.world.db.Tidy h.toServer n) (hreg : Registered i n rec network) :
    ∀ a ∈ x.world.db.announcements, a.nodeID = n.id → ∃ z ∈ keptZones h x i n.ip, ∃ zone,
      x.world.db.Answers i.userID z zone ∧ a ∈ x.world.db.announcementsInZone zone.id :=
  fun _ ha => exists_keptZone_of_own ht.reachable.planned.wf ht.node hreg.user
    (DB.atHome_of_match ht.noOrphan ht.matching ha)

/-- Where the rows stay as they are from its first list on, `rebuildFromServer` swaps their table in,
and so does a cycle. -/
theorem fetchesThenSwaps_rebuildFromServer (hreg : Registered i n rec network)
    (ht : x.world.db.Tidy h.toServer n) :
    FetchesThenSwaps h i n network x (rebuildFromServer c rec) := by
  have hw := ht.reachable.planned.wf
  obtain ⟨entries, hfetch, hagg⟩ := fetch_site (h := h) hw ht.reachable.planned.announcement_length
    fun z hz => DB.answers_listForUser hz
  apply FetchesThenSwaps.fetch reads_listZones
  apply FetchesThenSwaps.fetch (reads_fetch hw (fun z hz => DB.answers_listForUser hz) hfetch)
  simp only [hreg.network]
  apply FetchesThenSwaps.swap
  · rw [hreg.nodeID]
    apply hagg.natRules hw
    intro a ha hnode
    obtain ⟨z, hz, hzone⟩ := tidy_own ht hreg a ha hnode
    exact ⟨z, (RouteSync.mem_memberZones.mp hz).1, hzone⟩
  · exact fun _ => trivial

/-- The lists of the zones the node is a member of have all its announcements. -/
theorem reads_memberEntries (ht : x.world.db.Tidy h.toServer n) (hreg : Registered i n rec network) :
    ∃ entries, Cli.Reads h i x (.ok entries, c) (Cli.memberEntries c rec) ∧
      LanWeave.natRules (RouteSync.mine entries n.id) = x.world.db.natRules n.id := by
  have hw := ht.reachable.planned.wf
  obtain ⟨entries, hfetch, hagg⟩ := fetch_site (h := h) hw ht.reachable.planned.announcement_length
    fun z hz => DB.answers_listForUser (RouteSync.mem_memberZones.mp hz).1
  refine ⟨entries, ?_, ?_⟩
  · apply reads_listZones.bind
    apply (reads_memberZones hw (fun z hz => DB.answers_listForUser hz) rec.ip).bind
    apply (reads_fetch hw (fun z hz => DB.answers_listForUser (RouteSync.mem_memberZones.mp hz).1)
      hfetch).bind
    rfl
  · apply hagg.natRules hw
    rw [hreg.ip]
    exact tidy_own ht hreg

theorem fetchesThenSwaps_reconcileWith (hreg : Registered i n rec network)
    (ht : x.world.db.Tidy h.toServer n) : FetchesThenSwaps h i n network x (reconcileWith c rec) := by
  obtain ⟨entries, hentries, hrules⟩ := @reads_memberEntries κ _ h i n rec network x c ht hreg
  apply FetchesThenSwaps.fetch hentries
  simp only [hreg.network]
  apply FetchesThenSwaps.swap
  · rw [hreg.nodeID]
    exact hrules
  · intro ok
    cases ok with
    | true => exact (only_perform Bool.false_ne_true).bind fun _ => trivial
    | false => trivial

theorem readsFirst_listZones {β : Type} {f : _ → Cli β}
    (hderives : ∀ s, (natFeed h i n rec network).Inv s →
      (natFeed h i n rec network).Derives s.site (request c .listZones >>= f))
    (hrest : ∀ v, (natFeed h i n rec network).ReadsFirst True (f v)) :
    (natFeed h i n rec network).ReadsFirst False (request c .listZones >>= f) := by
  obtain ⟨k, hrequest, hk⟩ := @request_served κ _ .listZones h i c fun _ => ⟨_, rfl⟩
  rw [hrequest] at hderives ⊢
  intro e s hs he
  obtain ⟨-, hfate⟩ := served_of_succeeds he
  refine ⟨fun hswap => Bool.noConfusion hswap, fun _ => hderives s hs, ?_⟩
  have hanswered := hk e.transit s.site hfate
  show (natFeed h i n rec network).ReadsFirst _ (k (s.site.exchange h i e.transit c .listZones).1 >>= f)
  rw [hanswered]
  apply (hrest _).mono
  intro _
  refine ⟨.inl rfl, ?_⟩
  have hreading : ApiCall.listZones.Reading := trivial
  exact exchange_reading hreading

/-! ### what the programs leave as it is -/

/-- An operation that changes neither the server's rows nor the router's record. -/
def HostOp.Quiet : HostOp → Prop
  | .http _ call => call.Reading
  | .readState | .getKey _ | .setKey _ _ | .localOverlap _ | .rebuildNat _ _ | .setRoutes _ => True
  | _ => False

theorem quiet_step {o : HostOp} (ho : o.Quiet) (e : Conditions) (s : Installation κ)
    (hs : (natFeed h i n rec network).Inv s) (he : (natFeed h i n rec network).admits o e s) :
    (natFeed h i n rec network).Inv ((natFeed h i n rec network).sem o e s).2 ∧
      ((natFeed h i n rec network).sem o e s).2.site = s.site ∧
      (o.rebuilds = true ∨ ((natFeed h i n rec network).sem o e s).2.nat = s.nat) := by
  cases o with
  | http c call =>
    have hsame : ((natFeed h i n rec network).sem (.http c call) e s).2 = s := by
      show { s with site := (s.site.exchange h i e.transit c call).2 } = s
      rw [exchange_reading ho]
    rw [hsame]
    exact ⟨hs, rfl, .inr rfl⟩
  | rebuildNat vpnPool rules => exact ⟨hs, rfl, .inl rfl⟩
  | setKey k v =>
    have hfails : e.fails = false := (Bool.not_eq_true' _).mp he
    have hset : ((natFeed h i n rec network).sem (.setKey k v) e s).2 = s.setKey k (some v) := by
      show (if e.fails then (false, s) else (true, s.setKey k (some v))).2 = _
      rw [hfails]
      rfl
    rw [hset]
    exact ⟨hs, rfl, .inr rfl⟩
  | setRoutes extra =>
    have hfails : e.fails = false := (Bool.not_eq_true' _).mp he
    have hset : ((natFeed h i n rec network).sem (.setRoutes extra) e s).2 =
      { s with routes := extra } := by
      show (if e.fails then (false, s) else (true, { s with routes := extra })).2 = _
      rw [hfails]
      rfl
    rw [hset]
    exact ⟨hs, rfl, .inr rfl⟩
  | readState => exact ⟨hs, rfl, .inr rfl⟩
  | getKey k => exact ⟨hs, rfl, .inr rfl⟩
  | localOverlap p => exact ⟨hs, rfl, .inr rfl⟩
  | _ => exact ho.elim

theorem keeps_quiet {p : Cli α} (hp : p.Only HostOp.Quiet) :
    (natFeed h i n rec network).Keeps good p := by
  apply Feed.keeps_of_only hp
  intro o ho e s hs he
  obtain ⟨hinv, hsite, htable⟩ := quiet_step ho e s hs he
  refine ⟨hinv, htable.imp id fun htable => ⟨hsite, fun hfresh => ?_⟩⟩
  show ((natFeed h i n rec network).sem o e s).2.nat = _
  rw [htable, hsite]
  exact hfresh

/-- An operation that neither begins to read the lists nor swaps a table in. -/
def HostOp.Aside (o : HostOp) : Prop := ¬o.rebuilds = true ∧ ¬o.listsZones = true

theorem aside_http {call : ApiCall} (hother : call ≠ .listZones) (c : ApiClient) :
    HostOp.Aside (.http c call) := by
  refine ⟨Bool.false_ne_true, ?_⟩
  cases call with
  | listZones => exact absurd rfl hother
  | _ => exact Bool.false_ne_true

theorem aside_request (hother : call ≠ .listZones) : (request c call).Only HostOp.Aside :=
  only_request (aside_http hother) fun c _ => aside_http ApiCall.noConfusion c

/-- Once it has the zones a program makes its other lists, and swaps a table in. -/
def HostOp.Later (o : HostOp) : Prop := o.Quiet ∧ ¬o.listsZones = true

theorem later_reading (c : ApiClient) (call : ApiCall) (hreading : call.Reading)
    (hother : call ≠ .listZones) : HostOp.Later (.http c call) :=
  ⟨hreading, (aside_http hother c).2⟩

theorem readsFirst_later {p : Cli α} (hp : p.Only HostOp.Later) :
    (natFeed h i n rec network).ReadsFirst True p := by
  apply Feed.readsFirst_of_only
  exact hp.imp fun o ho => ⟨ho.2, fun e s hs he => (quiet_step ho.1 e s hs he).2.1⟩

theorem readsFirst_rebuildFromServer (hreg : Registered i n rec network) :
    (natFeed h i n rec network).ReadsFirst False (rebuildFromServer c rec) := by
  have hderives := fun (s : Installation κ) (hs : (natFeed h i n rec network).Inv s) =>
    (fetchesThenSwaps_rebuildFromServer (c := c) hreg hs.1).derives hreg
  obtain ⟨f, hrebuild, hf⟩ := @only_after_rebuildFromServer HostOp.Later c rec later_reading
    fun _ _ => ⟨trivial, Bool.false_ne_true⟩
  rw [hrebuild] at hderives ⊢
  exact readsFirst_listZones hderives fun zones => readsFirst_later (hf zones)

theorem readsFirst_reconcileWith (hreg : Registered i n rec network) :
    (natFeed h i n rec network).ReadsFirst False (reconcileWith c rec) := by
  have hderives := fun (s : Installation κ) (hs : (natFeed h i n rec network).Inv s) =>
    (fetchesThenSwaps_reconcileWith (c := c) hreg hs.1).derives hreg
  obtain ⟨f, hcycle, hf⟩ := @only_after_reconcileWith HostOp.Later c rec later_reading
    (fun _ _ => ⟨trivial, Bool.false_ne_true⟩) fun _ => ⟨trivial, Bool.false_ne_true⟩
  rw [hcycle] at hderives ⊢
  exact readsFirst_listZones hderives fun zones => readsFirst_later (hf zones)

theorem keeps_request (hep : ∀ salt, ∃ ep, call.endpoint salt = some ep)
    (htidy : ∀ t (s : Site κ), s.world.db.Tidy h.toServer n →
      (s.exchange h i t c call).2.world.db.Tidy h.toServer n) :
    (natFeed h i n rec network).Keeps (fun _ => False) (request c call) := by
  obtain ⟨k, hrequest, hk⟩ := request_served h i c hep
  rw [hrequest]
  intro e s hs he
  obtain ⟨-, hfate⟩ := served_of_succeeds he
  have hdone : k ((natFeed h i n rec network).sem (.http c call) e s).1 = .pure _ :=
    hk e.transit s.site hfate
  refine ⟨⟨htidy e.transit s.site hs.1, hs.2⟩, .inr (.inr ?_), ?_⟩
  · rw [hdone]
    exact id
  · rw [hdone]
    trivial

theorem exchange_tidy {t : Transit} {s : Site κ} (ht : s.world.db.Tidy h.toServer n) {call : Call}
    {c : ApiClient} {request : ApiCall} (hep : request.endpoint t.salt = some (.call call))
    (huser : ∀ path, call ≠ .deleteUser path)
    (hrun : ((handle h.toServer ⟨some i, call⟩).run
      (sem h.parseKey) false s.world).2.db.Tidy h.toServer n) :
    (s.exchange h i t c request).2.world.db.Tidy h.toServer n := by
  obtain ⟨-, hworld⟩ := @respond_call κ _ h i t s request call hep huser
  rw [← hworld] at hrun
  unfold Site.exchange
  split_ifs
  · exact ht
  · cases t.fate with
    | served => exact hrun
    | unanswered => exact hrun
    | _ => exact ht

theorem keeps_createAnnouncement (zone subnet : String) (nodeID : Int) :
    (natFeed h i n rec network).Keeps (fun _ => False)
      (request c (.createAnnouncement zone nodeID subnet)) := by
  apply keeps_request fun _ => ⟨_, rfl⟩
  intro t s ht
  exact exchange_tidy ht rfl (fun _ => Call.noConfusion) (ht.announce zone (some ⟨nodeID, subnet⟩))

theorem keeps_deleteAnnouncement (zone : String) (id : Int) :
    (natFeed h i n rec network).Keeps (fun _ => False)
      (request c (.deleteAnnouncement zone id)) := by
  apply keeps_request fun _ => ⟨_, rfl⟩
  intro t s ht
  exact exchange_tidy ht rfl (fun _ => Call.noConfusion) (ht.withdraw zone (toString id))

/-! ### programs that renew the table -/

variable {β : Type} {good' : β → Prop} {p : Cli β} {f : β → Cli α}

/-- The program renews the table before it comes to a good end, and after every change of the
rows it makes; what it swaps in is what it has read by then. -/
structure Tends (h : Handlers κ) (i : Identity) (n : Node) (rec : Record) (network : Prefix)
    (good : α → Prop) (p : Cli α) : Prop where
  renews : ∀ x, (natFeed h i n rec network).Renews good x p
  keeps : (natFeed h i n rec network).Keeps good p
  readsFirst : (natFeed h i n rec network).ReadsFirst False p

theorem tends_pure {a : α} (hbad : ¬good a) : Tends h i n rec network good (.pure a) :=
  ⟨fun _ => hbad, trivial, trivial⟩

theorem Tends.after_quiet (hf : ∀ b, Tends h i n rec network good (f b))
    (hp : p.Only fun o => o.Quiet ∧ o.Aside) : Tends h i n rec network good (p >>= f) where
  renews x := Feed.renews_bind_right p fun b => (hf b).renews x
  keeps := (@keeps_quiet κ _ h i n rec network β (fun _ => True) p (hp.imp fun _ ho => ho.1)).bind
    (fun _ hnot => absurd trivial hnot) fun b => (hf b).keeps
  readsFirst := .after (hp.imp fun _ ho => ho.2) fun b => (hf b).readsFirst

theorem Tends.after_change (hf : ∀ b, Tends h i n rec network good (f b))
    (hp : (natFeed h i n rec network).Keeps (fun _ => False) p) (haside : p.Only HostOp.Aside) :
    Tends h i n rec network good (p >>= f) where
  renews x := Feed.renews_bind_right p fun b => (hf b).renews x
  keeps := hp.bind (fun b _ => (hf b).renews) fun b => (hf b).keeps
  readsFirst := .after haside fun b => (hf b).readsFirst

theorem Tends.bind (hp : Tends h i n rec network good' p)
    (hbad : ∀ b, ¬good' b → ∀ x, (natFeed h i n rec network).Renews good x (f b))
    (hf : ∀ b, (natFeed h i n rec network).Keeps good (f b)) (haside : ∀ b, (f b).Only HostOp.Aside) :
    Tends h i n rec network good (p >>= f) where
  renews x := (hp.renews x).bind fun b hb => hbad b hb x
  keeps := hp.keeps.bind hbad hf
  readsFirst := hp.readsFirst.append haside

theorem tends_rebuildFromServer (hreg : Registered i n rec network) :
    Tends h i n rec network (fun _ => True) (rebuildFromServer c rec) where
  renews _ := renews_of_tidy ⟨c, .listZones, _, trivial, rfl⟩ fun ht =>
    (fetchesThenSwaps_rebuildFromServer hreg ht).renews hreg
  keeps := keeps_quiet (only_rebuildFromServer (fun _ _ hreading => hreading) fun _ _ => trivial)
  readsFirst := readsFirst_rebuildFromServer hreg

theorem tends_reconcileWith (hreg : Registered i n rec network) :
    Tends h i n rec network (fun _ => True) (reconcileWith c rec) where
  renews _ := renews_of_tidy ⟨c, .listZones, _, trivial, rfl⟩ fun ht =>
    (fetchesThenSwaps_reconcileWith hreg ht).renews hreg
  keeps := keeps_quiet
    (only_reconcileWith (fun _ _ hreading => hreading) (fun _ _ => trivial) fun _ => trivial)
  readsFirst := readsFirst_reconcileWith hreg

/-! ### the commands -/

section
variable {insecure : Bool} {subnet zone : String} {id : Int}

theorem tends_compensate {a : ApiClient → α} (hbad : ∀ c, ¬good (a c)) :
    Tends h i n rec network good (compensate c zone id >>= fun c => .pure (a c)) := by
  unfold compensate
  rw [bind_assoc]
  exact Tends.after_change (fun b => tends_pure (hbad b.2)) (keeps_deleteAnnouncement zone id)
    (aside_request ApiCall.noConfusion)

theorem aside_compensate {a : ApiClient → α} :
    (compensate c zone id >>= fun c => .pure (a c)).Only HostOp.Aside := by
  have hdelete : (request c (.deleteAnnouncement zone id)).Only HostOp.Aside :=
    aside_request ApiCall.noConfusion
  unfold compensate
  rw [bind_assoc]
  exact hdelete.bind fun _ => trivial

theorem tends_cmdAnnounceAdd (hreg : Registered i n rec network) :
    Tends h i n rec network (fun r => r.1 = 0) (cmdAnnounceAdd c rec subnet zone) := by
  apply Tends.after_change _ (keeps_createAnnouncement zone subnet rec.nodeID)
    (aside_request ApiCall.noConfusion)
  rintro ⟨res, c⟩
  cases res with
  | error err => exact tends_pure Nat.one_ne_zero
  | ok ann =>
    dsimp only
    cases hsynthetic : parsePrefix4 ann.synthetic with
    | none => exact tends_pure Nat.one_ne_zero
    | some synthetic =>
      apply Tends.after_quiet _ (only_perform (o := .localOverlap synthetic)
        ⟨trivial, Bool.false_ne_true, Bool.false_ne_true⟩)
      intro clash
      cases clash with
      | true => exact tends_compensate fun _ => Nat.one_ne_zero
      | false =>
        apply (tends_rebuildFromServer hreg).bind fun _ hnot => absurd trivial hnot
        · rintro ⟨ok, c⟩
          cases ok with
          | true => trivial
          | false =>
            apply Tends.keeps
            rw [if_neg Bool.false_ne_true]
            exact tends_compensate fun _ => Nat.one_ne_zero
        · rintro ⟨ok, c⟩
          cases ok with
          | true => trivial
          | false =>
            rw [if_neg Bool.false_ne_true]
            exact aside_compensate

theorem tends_cmdAnnounceRemove (hreg : Registered i n rec network) :
    Tends h i n rec network (fun r => r.1 = 0) (cmdAnnounceRemove c rec subnet zone) := by
  have hlist : (request c (.listAnnouncements zone)).Only fun o => o.Quiet ∧ o.Aside :=
    only_request (fun c => ⟨trivial, aside_http ApiCall.noConfusion c⟩)
      fun c _ => ⟨trivial, aside_http ApiCall.noConfusion c⟩
  apply Tends.after_quiet _ hlist
  rintro ⟨list, c⟩
  cases list with
  | error err => exact tends_pure Nat.one_ne_zero
  | ok as =>
    dsimp only
    split_ifs
    · exact tends_pure Nat.one_ne_zero
    · apply Tends.after_change _ (keeps_deleteAnnouncement zone _) (aside_request ApiCall.noConfusion)
      rintro ⟨res, c⟩
      cases res with
      | error err => exact tends_pure Nat.one_ne_zero
      | ok body =>
        exact (tends_rebuildFromServer hreg).bind (fun _ hnot => absurd trivial hnot) (fun _ => trivial)
          fun _ => trivial

theorem tends_load {f : Option Record → Cli α} (hnone : Tends h i n rec network good (f none))
    (hf : Tends h i n rec network good (f (some rec))) : Tends h i n rec network good (load >>= f) := by
  obtain ⟨k, hload, hk⟩ : ∃ k, load = .op .readState k ∧
      k (.ok (some rec)) = .pure (if rec.complete then some rec else none) := ⟨_, rfl, rfl⟩
  have hread : ∀ e s, (natFeed h i n rec network).Inv s → Succeeds .readState e = true →
      k ((natFeed h i n rec network).sem .readState e s).1 >>= f =
        f (if rec.complete then some rec else none) := by
    intro e s hs he
    have hanswer : ((natFeed h i n rec network).sem .readState e s).1 = .ok (some rec) := by
      show (if e.fails then Except.error () else Except.ok s.file) = _
      rw [(Bool.not_eq_true' _).mp he, hs.2]
      rfl
    rw [hanswer, hk]
    rfl
  have hthen : Tends h i n rec network good (f (if rec.complete then some rec else none)) := by
    split_ifs
    · exact hf
    · exact hnone
  rw [hload, op_bind]
  constructor
  · intro x e s hs he _
    right
    have hrest := hthen.renews x
    rw [← hread e s hs he] at hrest
    exact hrest
  · intro e s hs he
    have hrest := hthen.keeps
    rw [← hread e s hs he] at hrest
    exact ⟨hs, .inr (.inl ⟨rfl, id⟩), hrest⟩
  · intro e s hs he
    have hrest := hthen.readsFirst
    rw [← hread e s hs he] at hrest
    exact ⟨fun hswap => Bool.noConfusion hswap, fun hlists => Bool.noConfusion hlists,
      hrest.mono False.elim⟩

theorem tends_persisted {p : Cli (Nat × ApiClient)} (hp : Tends h i n rec network (fun r => r.1 = 0) p) :
    Tends h i n rec network (fun code => code = 0)
      (p >>= fun r => persistTokens r.2 >>= fun _ => .pure r.1) := by
  have honly : ∀ c, (persistTokens c).Only fun o => o.Quiet ∧ o.Aside := fun c =>
    only_persistTokens fun _ _ _ => ⟨trivial, Bool.false_ne_true, Bool.false_ne_true⟩
  apply hp.bind
  · intro r hr x
    exact Feed.renews_bind_right _ fun _ => hr
  · intro r
    exact keeps_quiet (((honly r.2).imp fun _ ho => ho.1).bind fun _ => trivial)
  · intro r
    exact ((honly r.2).imp fun _ ho => ho.2).bind fun _ => trivial

theorem tends_cmdAnnounce (hreg : Registered i n rec network) {cmd : AnnounceCommand}
    (hcmd : cmd ≠ .list) : Tends h i n rec network (fun code => code = 0)
      (cmdAnnounce insecure cmd) := by
  have honly : ∀ rec, (newClient insecure rec).Only fun o => o.Quiet ∧ o.Aside := fun rec =>
    only_newClient fun _ => ⟨trivial, Bool.false_ne_true, Bool.false_ne_true⟩
  cases cmd with
  | list => exact absurd rfl hcmd
  | add subnet zone =>
    apply tends_load
    · exact tends_pure Nat.one_ne_zero
    · dsimp only
      split_ifs
      · exact tends_pure Nat.one_ne_zero
      · apply Tends.after_quiet _ (honly rec)
        intro client
        cases client with
        | none => exact tends_pure Nat.one_ne_zero
        | some c => exact tends_persisted (tends_cmdAnnounceAdd hreg)
  | remove subnet zone =>
    apply tends_load
    · exact tends_pure Nat.one_ne_zero
    · dsimp only
      split_ifs
      · exact tends_pure Nat.one_ne_zero
      · apply Tends.after_quiet _ (honly rec)
        intro client
        cases client with
        | none => exact tends_pure Nat.one_ne_zero
        | some c => exact tends_persisted (tends_cmdAnnounceRemove hreg)

end

/-- Each of the commands and the cycle renews the table. -/
theorem tends_prog (hreg : Registered i n rec network) (u : Upkeep) :
    Tends h i n rec network (fun ok => ok = true) (u.prog rec) := by
  have hcommand : ∀ {insecure : Bool} {cmd : AnnounceCommand}, cmd ≠ .list →
      Tends h i n rec network (fun ok => ok = true)
        (cmdAnnounce insecure cmd >>= fun code => .pure (decide (code = 0))) := by
    intro insecure cmd hcmd
    apply (tends_cmdAnnounce hreg hcmd).bind
    · intro code hcode x hok
      exact hcode (of_decide_eq_true hok)
    · exact fun _ => trivial
    · exact fun _ => trivial
  cases u with
  | add insecure subnet zone => exact hcommand AnnounceCommand.noConfusion
  | remove insecure subnet zone => exact hcommand AnnounceCommand.noConfusion
  | cycle insecure =>
    have hclient : (newClient insecure rec).Only fun o => o.Quiet ∧ o.Aside :=
      only_newClient fun _ => ⟨trivial, Bool.false_ne_true, Bool.false_ne_true⟩
    have hpersist : ∀ c, (persistTokens c).Only fun o => o.Quiet ∧ o.Aside := fun c =>
      only_persistTokens fun _ _ _ => ⟨trivial, Bool.false_ne_true, Bool.false_ne_true⟩
    apply Tends.after_quiet _ hclient
    intro client
    cases client with
    | none => exact tends_pure Bool.false_ne_true
    | some c =>
      apply (tends_reconcileWith hreg).bind fun _ hnot => absurd trivial hnot
      · intro r
        exact keeps_quiet (((hpersist r.2).imp fun _ ho => ho.1).bind fun _ => trivial)
      · intro r
        exact ((hpersist r.2).imp fun _ ho => ho.2).bind fun _ => trivial

/-- Once all of them have succeeded the table is that of the server's announcements, if, wherever
one of them has begun to fetch the lists before another changes them and swaps its table in after
that, some other swap follows. -/
theorem nat_upkeep {τ : Type} [DecidableEq τ] [Nonempty τ] (hreg : Registered i n rec network)
    (programs : τ → Upkeep) {s : Installation κ} (hs : (natFeed h i n rec network).Inv s)
    {sched : List (τ × Conditions)}
    (hsucceeds : Along (machine (Installation.sem h i)) (natFeed h i n rec network).Admitted
      ⟨fun t => (programs t).prog rec, s⟩ sched)
    (hord : (natFeed h i n rec network).Ordered ⟨fun t => (programs t).prog rec, s⟩ sched)
    (hdone : ∀ t, ((Config.mk (fun t => (programs t).prog rec) s).exec
      (machine (Installation.sem h i)) sched).threads t = .pure true) :
    ((Config.mk (fun t => (programs t).prog rec) s).exec
      (machine (Installation.sem h i)) sched).shared.nat =
      some (Natctl.build network (((Config.mk (fun t => (programs t).prog rec) s).exec
        (machine (Installation.sem h i)) sched).shared.site.world.db.natRules n.id)) := by
  have hcurrent : (natFeed h i n rec network).Current (fun ok => ok = true)
      ⟨fun t => (programs t).prog rec, s⟩ := by
    refine ⟨⟨hs, fun t => (tends_prog hreg (programs t)).keeps⟩, .inr ?_⟩
    obtain ⟨t⟩ := ‹Nonempty τ›
    exact ⟨t, (tends_prog hreg (programs t)).renews _⟩
  exact Feed.fresh_of_ordered hcurrent (fun t =>
    (tends_prog hreg (programs t)).readsFirst) hsucceeds hord
    fun t => ⟨true, rfl, hdone t⟩

end

/-! ### a cycle by itself, and one that fetches before a removal and swaps after it -/

def routerNode : Node := ⟨1, 1, "router", "key", 0x0A000002, "openwrt"⟩

/-- A router that has announced a subnet, with this table. -/
def routerAnnouncing (table : Option Natctl.Table) : Installation String where
  site := ⟨rebuilt labShared, ⟨[], 0⟩⟩
  file := some routerRecord
  keys := fun _ => none
  nat := table
  link := true
  routes := []
  rule := false

def labFeed : Feed HostOp HostOp.Result Conditions (Installation String) (Site String) :=
  natFeed labServer.bare ⟨1, "alice", true⟩ routerNode routerRecord ⟨.v4 0x0A000000, 24⟩

theorem labRegistered : Registered ⟨1, "alice", true⟩ routerNode routerRecord ⟨.v4 0x0A000000, 24⟩ where
  user := rfl
  nodeID := rfl
  ip := by decide
  network := rfl

theorem labShared_tidy : labShared.Tidy labServer routerNode where
  reachable := labShared_reachable
  noOrphan := by
    intro a ha
    obtain rfl := List.mem_singleton.mp ha
    exact ⟨⟨1, 1⟩, List.mem_singleton.mpr rfl, rfl⟩
  matching := by simp [DB.AttachmentsMatch, labShared, labAnnounced]
  node := List.mem_cons_self

/-- The client of a router that is not signed in. -/
def signedOut : ApiClient := ⟨"https://lab", "", "", false, ""⟩

/-- What a cycle still does once it has the lists. -/
def cycleEnd (entries : List RouteSync.Entry) : Cli Bool := do
  let r ← (do
    if ← perform (.rebuildNat ⟨.v4 0x0A000000, 24⟩ (LanWeave.natRules (RouteSync.mine entries 1))) then
      let ok ← perform (.setRoutes (RouteSync.prefixes (RouteSync.consumed entries 1)))
      return (ok, signedOut)
    else return (false, signedOut) : Cli (Bool × ApiClient))
  persistTokens r.2
  return r.1

theorem cycle_eq : ∃ f g, (Upkeep.cycle false).prog routerRecord = newClient false routerRecord >>= f ∧
    f (some signedOut) = Cli.memberEntries signedOut routerRecord >>= g ∧
    ∀ entries, g (.ok entries, signedOut) = cycleEnd entries :=
  ⟨_, _, rfl, bind_assoc _ _ _, fun _ => rfl⟩

section
variable {τ : Type} [DecidableEq τ] {c : Config τ (Cli Bool) (Installation String)} {t : τ}
  {table : Option Natctl.Table}

theorem cycle_fetches (hp : c.threads t = (Upkeep.cycle false).prog routerRecord)
    (hs : c.shared = routerAnnouncing table) :
    ∃ sched entries, (∀ x ∈ sched, x.2 = undisturbed) ∧
      LanWeave.natRules (RouteSync.mine entries 1) = labShared.natRules 1 ∧
      c.exec (machine labSem) sched =
        ⟨Function.update c.threads t (cycleEnd entries), routerAnnouncing table⟩ ∧
      Along (machine labSem) labFeed.Admitted c sched := by
  obtain ⟨f, g, hprog, hf, hg⟩ := cycle_eq
  obtain ⟨entries, hreads, hrules⟩ := @reads_memberEntries String _ labServer.bare ⟨1, "alice", true⟩
    routerNode routerRecord ⟨.v4 0x0A000000, 24⟩ (routerAnnouncing table).site signedOut labShared_tidy
    labRegistered
  obtain ⟨tr₁, hclient, hconst₁⟩ : ∃ tr, (newClient false routerRecord).Runs labSem
    (routerAnnouncing table)
      tr (some signedOut) (routerAnnouncing table) ∧ ∀ x ∈ tr, x.2 = undisturbed :=
        runs_const_iff.mpr rfl
  rcases hres : (Cli.memberEntries signedOut routerRecord).run labSem undisturbed
    (routerAnnouncing table) with
    ⟨res, s'⟩
  obtain ⟨tr₂, hentries, hconst₂⟩ := runs_const_iff.mpr hres
  obtain ⟨rfl, rfl⟩ := hreads.runs hentries fun y hy => (hconst₂ y hy) ▸ succeeds_undisturbed y.1
  have hexec₁ := exec_of_runs_bind hclient (hp.trans hprog) hs
  have hthread : (c.exec (machine labSem) (tr₁.map fun x => (t, x.2))).threads t =
      Cli.memberEntries signedOut routerRecord >>= g := by
    rw [hexec₁]
    exact (Function.update_self t _ _).trans hf
  have hshared : (c.exec (machine labSem) (tr₁.map fun x => (t, x.2))).shared =
      routerAnnouncing table := by rw [hexec₁]
  have hexec₂ := exec_of_runs_bind hentries hthread hshared
  -- a step under calm conditions is admitted whatever the others hold
  have hadmitted : ∀ (c : Config τ (Cli Bool) (Installation String)) e i k, c.threads t = .op i k →
      True → e = undisturbed → labFeed.Admitted c t e := by
    rintro c e i k hop - rfl
    exact fun i _ _ => succeeds_undisturbed i
  refine ⟨tr₁.map (fun x => (t, x.2)) ++ tr₂.map fun x => (t, x.2), entries, ?_, hrules, ?_, ?_⟩
  · intro x hx
    rcases List.mem_append.mp hx with hx | hx
    · obtain ⟨y, hy, rfl⟩ := List.mem_map.mp hx
      exact hconst₁ y hy
    · obtain ⟨y, hy, rfl⟩ := List.mem_map.mp hx
      exact hconst₂ y hy
  · rw [Config.exec_append, hexec₂, hexec₁, Function.update_idem, hg]
  · apply along_append.mpr
    constructor
    · exact along_of_runs_bind hadmitted (only_true _) hclient hconst₁ (hp.trans hprog) hs
    · exact along_of_runs_bind hadmitted (only_true _) hentries hconst₂ hthread hshared

theorem cycleEnd_eq {entries : List RouteSync.Entry}
    (hrules : LanWeave.natRules (RouteSync.mine entries 1) = labShared.natRules 1) : ∃ k,
      cycleEnd entries = .op (.rebuildNat ⟨.v4 0x0A000000, 24⟩ (labShared.natRules 1)) k ∧
      k true = .op (.setRoutes (RouteSync.prefixes (RouteSync.consumed entries 1))) .pure := by
  unfold cycleEnd
  rw [hrules]
  exact ⟨_, rfl, rfl⟩

theorem cycle_swaps {entries : List RouteSync.Entry}
    (hrules : LanWeave.natRules (RouteSync.mine entries 1) = labShared.natRules 1)
    (hp : c.threads t = cycleEnd entries) :
    c.exec (machine labSem) [(t, undisturbed), (t, undisturbed)] =
      ⟨Function.update c.threads t (.pure true), { c.shared with
        nat := some (Natctl.build ⟨.v4 0x0A000000, 24⟩ (labShared.natRules 1))
        routes := RouteSync.prefixes (RouteSync.consumed entries 1) }⟩ := by
  obtain ⟨k, hend, hk⟩ := cycleEnd_eq hrules
  have hswap : c.step (machine labSem) t undisturbed = ⟨Function.update c.threads t (k true),
      { c.shared with nat := some (Natctl.build ⟨.v4 0x0A000000, 24⟩ (labShared.natRules 1)) }⟩ := by
    rw [Config.step, hp, hend]
    rfl
  show (c.step (machine labSem) t undisturbed).step (machine labSem) t undisturbed = _
  rw [hswap, hk, Config.step]
  dsimp only
  rw [Function.update_self, Function.update_idem]
  rfl

end

/-- A cycle by itself lays the table down. -/
theorem nat_upkeep_cycle : ∃ (sched : List (Unit × Conditions)) (s : Installation String),
    ((Config.mk (fun _ => (Upkeep.cycle false).prog routerRecord) (routerAnnouncing none)).exec
      (machine labSem) sched).shared = s ∧
    s.nat = some (Natctl.build ⟨.v4 0x0A000000, 24⟩ (s.site.world.db.natRules 1)) := by
  obtain ⟨sched, entries, -, hrules, hexec, halong⟩ :=
    @cycle_fetches Unit _ ⟨fun _ => (Upkeep.cycle false).prog routerRecord, routerAnnouncing none⟩
      () none rfl rfl
  have hlast : (Config.mk (Function.update (fun _ => (Upkeep.cycle false).prog routerRecord) ()
      (cycleEnd entries)) (routerAnnouncing none)).threads () = cycleEnd entries := by
    simp only [Function.update_self]
  refine ⟨sched ++ [((), undisturbed), ((), undisturbed)], _, rfl, ?_⟩
  apply nat_upkeep labRegistered (fun _ : Unit => .cycle false) ⟨labShared_tidy, rfl⟩
  · apply along_append.mpr
    exact ⟨halong, fun i _ _ => succeeds_undisturbed i, fun i _ _ => succeeds_undisturbed i, trivial⟩
  · exact Feed.ordered_of_subsingleton
  · intro t
    rw [Config.exec_append, hexec, cycle_swaps hrules hlast]
    simp only [Function.update_self]

theorem removal_eq (subnet zone : String) : ∃ f g, cmdAnnounce false (.remove subnet zone) = load >>= f ∧
    f (some routerRecord) = newClient false routerRecord >>= g ∧
    g (some signedOut) = cmdAnnounceRemove signedOut routerRecord subnet zone >>= fun r =>
      persistTokens r.2 >>= fun _ => .pure r.1 := ⟨_, _, rfl, rfl, rfl⟩

theorem removal_runs (table : Option Natctl.Table) : ∃ tr s',
    ((Upkeep.remove false "192.168.7.0/24" "lab").prog routerRecord).Runs labSem
      (routerAnnouncing table) tr
      true s' ∧ (∀ x ∈ tr, x.2 = undisturbed) ∧ s'.site.world.db.natRules 1 = [] := by
  obtain ⟨f, g, hcommand, hf, hg⟩ := removal_eq "192.168.7.0/24" "lab"
  have hload : load.run labSem undisturbed (routerAnnouncing table) =
      (some routerRecord, routerAnnouncing table) := rfl
  have hclient : (newClient false routerRecord).run labSem undisturbed (routerAnnouncing table) =
      (some signedOut, routerAnnouncing table) := rfl
  rcases hres : (cmdAnnounceRemove signedOut routerRecord "192.168.7.0/24" "lab").run labSem undisturbed
    (routerAnnouncing table) with ⟨⟨code, c⟩, s'⟩
  obtain ⟨tr, hremove, hconst⟩ := runs_const_iff.mpr hres
  have hzone : ⟨1, "lab", "passphrase", 1⟩ ∈ (routerAnnouncing table).site.world.db.zones :=
    List.mem_singleton.mpr rfl
  have hlisted : ⟨1, 1, 0xC0A80700, 24, 0x647F0000⟩ ∈
      (routerAnnouncing table).site.world.db.announcementsInZone 1 := List.mem_singleton.mpr rfl
  have hrouter : routerNode ∈ (routerAnnouncing table).site.world.db.nodes := List.mem_cons_self
  obtain ⟨⟨rfl, rfl⟩, ⟨x, hdetach⟩, -⟩ := withdrawn_of_canonical labShared_reachable hzone rfl hremove
    (fun y hy => (hconst y hy) ▸ succeeds_undisturbed y.1) hlisted
      (by decide +kernel) hrouter rfl rfl rfl rfl rfl
  have hrun : ((Upkeep.remove false "192.168.7.0/24" "lab").prog routerRecord).run labSem undisturbed
      (routerAnnouncing table) = (true, s') := by
    show (cmdAnnounce false (.remove "192.168.7.0/24" "lab") >>= _).run labSem undisturbed _ = _
    rw [run_bind, hcommand, run_bind, hload, hf, run_bind, hclient, hg, run_bind, hres]
    rfl
  obtain ⟨tr', hruns, hconst'⟩ := runs_const_iff.mpr hrun
  refine ⟨tr', s', hruns, hconst', ?_⟩
  have hrows : _ = s'.site.world.db := congrArg Prod.snd hdetach
  rw [← hrows]
  rfl

/-- The router whose table is up to date. -/
def routerCurrent : Installation String :=
  routerAnnouncing (some (Natctl.build ⟨.v4 0x0A000000, 24⟩ (labShared.natRules 1)))

def cycleAndRemoval : Bool → Upkeep
  | false => .cycle false
  | true => .remove false "192.168.7.0/24" "lab"

def labUpkeep : Config Bool (Cli Bool) (Installation String) :=
  ⟨fun t => (cycleAndRemoval t).prog routerRecord, routerCurrent⟩

/-- The cycle reads the lists, the announcement is removed, and the cycle swaps in what it has read:
the table stays as if the subnet were announced still. -/
theorem stale_after_removal :
    labFeed.Inv routerCurrent ∧ labFeed.fresh routerCurrent ∧
    ∃ (sched : List (Bool × Conditions)) (s : Installation String), (∀ x ∈ sched, x.2 = undisturbed) ∧
      (∀ t, (labUpkeep.exec (machine labSem) sched).threads t = .pure true) ∧
      (labUpkeep.exec (machine labSem) sched).shared = s ∧
      s.nat ≠ some (Natctl.build ⟨.v4 0x0A000000, 24⟩ (s.site.world.db.natRules 1)) := by
  refine ⟨⟨labShared_tidy, rfl⟩, rfl, ?_⟩
  -- the refresh cycle stops between its fetch and its table swap
  obtain ⟨sched, entries, hconst, hrules, hfetched, -⟩ := @cycle_fetches Bool _ labUpkeep false _ rfl rfl
  obtain ⟨tr, s', hrun, hconst', hnone⟩ := removal_runs
    (some (Natctl.build ⟨.v4 0x0A000000, 24⟩ (labShared.natRules 1)))
  have hthread : (labUpkeep.exec (machine labSem) sched).threads true =
      (Upkeep.remove false "192.168.7.0/24" "lab").prog routerRecord >>= Prog.pure := by
    rw [hfetched, bind_pure]
    rfl
  have hshared : (labUpkeep.exec (machine labSem) sched).shared = routerCurrent := by
    rw [hfetched]
    rfl
  -- the removal runs to its end meanwhile
  have hremoved := exec_of_runs_bind hrun hthread hshared
  -- the cycle then swaps in what it had fetched before
  have hcycle : ((labUpkeep.exec (machine labSem) sched).exec (machine labSem)
      (tr.map fun x => (true, x.2))).threads false = cycleEnd entries := by
    rw [hremoved, hfetched]
    rfl
  have hswapped := cycle_swaps hrules hcycle
  rw [← Config.exec_append, ← Config.exec_append] at hswapped
  refine ⟨sched ++ (tr.map (fun x => (true, x.2)) ++
    [(false, undisturbed), (false, undisturbed)]), _, ?_, ?_,
    rfl, ?_⟩
  · intro x hx
    rcases List.mem_append.mp hx with hx | hx
    · exact hconst x hx
    · rcases List.mem_append.mp hx with hx | hx
      · obtain ⟨y, hy, rfl⟩ := List.mem_map.mp hx
        exact hconst' y hy
      · exact congrArg Prod.snd (List.eq_of_mem_replicate (n := 2) hx)
  · intro t
    rw [hswapped, hremoved]
    cases t <;> rfl
  · rw [hswapped, hremoved]
    show some (Natctl.build ⟨.v4 0x0A000000, 24⟩ (labShared.natRules 1)) ≠
      some (Natctl.build ⟨.v4 0x0A000000, 24⟩ (s'.site.world.db.natRules 1))
    rw [hnone]
    decide +kernel

end LanWeave

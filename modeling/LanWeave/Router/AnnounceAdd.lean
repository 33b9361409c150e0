import LanWeave.Client.AtMostOnce
import LanWeave.Client.Replies
import LanWeave.Router.Footprint
import LanWeave.Router.Reach
import LanWeave.Server.AddressPlan
import LanWeave.Server.BlockAllocation
import LanWeave.Server.Issued

/-! `announce add` that fails after the server has accepted the announcement: what its withdrawal
leaves of the announcements and attachments that the server had. -/

namespace LanWeave
open Library Prog Cli

namespace DB
variable {db : DB}

def SameAnnouncements (db' db : DB) : Prop :=
  db'.announcements = db.announcements ∧ db'.announcementZones = db.announcementZones

/-- The node has not announced the subnet to the zone; if it has announced it at all, some other
zone has it. -/
def NotYet (db : DB) (nodeID : Int) (real : Block) (zoneID : Int) : Prop :=
  ∀ a ∈ db.announcements, a.nodeID = nodeID → a.real = real →
    ⟨a.id, zoneID⟩ ∉ db.announcementZones ∧ ∃ az ∈ db.announcementZones, az.announcementID = a.id

theorem attached_detached (annID zoneID : Int) :
    (db.deleteAttachments (· = ⟨annID, zoneID⟩)).attached annID = true ↔
      ∃ az ∈ db.announcementZones, az.announcementID = annID ∧ az ≠ ⟨annID, zoneID⟩ := by
  simp [attached, deleteAttachments, and_comm]

theorem detachOne_announcementZones (annID zoneID : Int) :
    (db.detachOne annID zoneID).announcementZones =
      db.announcementZones.filter (· ≠ ⟨annID, zoneID⟩) := by
  unfold detachOne reclaimIfOrphaned
  split_ifs with hatt
  · simp [deleteAttachments]
  · -- the cascade of the reclaimed announcement finds no attachment
    have hnone : ∀ az ∈ db.announcementZones.filter (· ≠ ⟨annID, zoneID⟩),
      az.announcementID ≠ annID := by
      intro az haz hid
      obtain ⟨hmem, hne⟩ := List.mem_filter.mp haz
      exact hatt ((attached_detached annID zoneID).mpr ⟨az, hmem, hid, of_decide_eq_true hne⟩)
    show ((db.deleteAttachments (· = ⟨annID, zoneID⟩)).announcementZones.filter _) = _
    have hzones : (db.deleteAttachments (· = ⟨annID, zoneID⟩)).announcementZones =
        db.announcementZones.filter (· ≠ ⟨annID, zoneID⟩) := by simp [deleteAttachments]
    rw [hzones]
    apply List.filter_eq_self.mpr
    intro az haz
    simp only [Bool.not_eq_true', List.any_eq_false, Bool.and_eq_true, decide_eq_true_eq, not_and]
    intro a _ ha hid
    exact hnone az haz (hid.symm.trans ha)

theorem detachOne_announcements (annID zoneID : Int) :
    (db.detachOne annID zoneID).announcements =
      if ∃ az ∈ db.announcementZones, az.announcementID = annID ∧ az ≠ ⟨annID, zoneID⟩ then
        db.announcements else db.announcements.filter (·.id ≠ annID) := by
  unfold detachOne reclaimIfOrphaned
  simp only [attached_detached]
  split_ifs with hatt
  · rfl
  · simp [deleteAnnouncements, deleteAttachments]

/-- Attaching and detaching cancel, but for an announcement that had no zone before. -/
theorem detachOne_attach {annID zoneID : Int} (hfresh : ⟨annID, zoneID⟩ ∉ db.announcementZones) :
    ((db.attach ⟨annID, zoneID⟩).detachOne annID zoneID).announcementZones = db.announcementZones ∧
    ((db.attach ⟨annID, zoneID⟩).detachOne annID zoneID).announcements =
      if ∃ az ∈ db.announcementZones, az.announcementID = annID then db.announcements
      else db.announcements.filter (·.id ≠ annID) := by
  have hne : ∀ az ∈ db.announcementZones, az ≠ ⟨annID, zoneID⟩ := by
    intro az haz heq
    exact hfresh (heq ▸ haz)
  have hkeep : db.announcementZones.filter (· ≠ ⟨annID, zoneID⟩) = db.announcementZones :=
    List.filter_eq_self.mpr fun az haz => decide_eq_true (hne az haz)
  have hothers : (∃ az ∈ (db.attach ⟨annID, zoneID⟩).announcementZones,
        az.announcementID = annID ∧ az ≠ ⟨annID, zoneID⟩) ↔
      ∃ az ∈ db.announcementZones, az.announcementID = annID := by
    constructor
    · intro h
      obtain ⟨az, haz, hid, hother⟩ := h
      rcases List.mem_append.mp haz with haz | haz
      · exact ⟨az, haz, hid⟩
      · exact absurd (List.mem_singleton.mp haz) hother
    · intro h
      obtain ⟨az, haz, hid⟩ := h
      exact ⟨az, List.mem_append_left _ haz, hid, hne az haz⟩
  rw [detachOne_announcementZones, detachOne_announcements]
  simp only [hothers]
  constructor
  · simp only [attach, List.filter_append, hkeep]
    simp
  · rfl

variable {userID nodeID zoneID limit : Int} {real : Block} {pool : Prefix} {a : Announcement}
  {attached : Bool} {db₁ db₂ : DB}

theorem same_reattached_iff (hw : db.Wf) (ha : a ∈ db.announcements)
    (hfresh : ⟨a.id, zoneID⟩ ∉ db.announcementZones) :
    ((db.attach ⟨a.id, zoneID⟩).detachOne a.id zoneID).SameAnnouncements db ↔
      db.NotYet a.nodeID a.real zoneID := by
  obtain ⟨hzones, hannouncements⟩ := detachOne_attach hfresh
  have hnotYet : db.NotYet a.nodeID a.real zoneID ↔
      ∃ az ∈ db.announcementZones, az.announcementID = a.id := by
    constructor
    · intro hnot
      exact (hnot a ha rfl rfl).2
    · intro hother b hb hnode hreal
      obtain rfl := hw.announcement_real b hb a ha (Prod.ext hnode hreal)
      exact ⟨hfresh, hother⟩
  rw [SameAnnouncements, hzones, and_iff_left rfl, hannouncements, hnotYet]
  split_ifs with hother
  · exact iff_of_true rfl hother
  · apply iff_of_false
    · intro hsame
      rw [← hsame] at ha
      exact of_decide_eq_true (List.mem_filter.mp ha).2 rfl
    · exact hother

theorem same_announced (hw : db.Wf) (base : BitVec 32) :
    ((db.announce nodeID real zoneID base).detachOne (db.seqAnnouncements + 1) zoneID).SameAnnouncements
      db := by
  have hnone : ∀ az ∈ db.announcementZones, az.announcementID ≠ db.seqAnnouncements + 1 := by
    intro az haz hid
    obtain ⟨b, hb, hbid⟩ := hw.attachment_announcement az haz
    have hle := hw.announcements_seq b hb
    omega
  have hkeep : db.announcements.filter (·.id ≠ db.seqAnnouncements + 1) = db.announcements := by
    apply List.filter_eq_self.mpr
    intro b hb
    have hle := hw.announcements_seq b hb
    apply decide_eq_true
    omega
  obtain ⟨hzones, hannouncements⟩ := @detachOne_attach (db.addAnnouncement nodeID real base)
    (db.seqAnnouncements + 1) zoneID fun hmem => hnone _ hmem rfl
  rw [if_neg fun h => hnone h.choose h.choose_spec.1 h.choose_spec.2] at hannouncements
  refine ⟨hannouncements.trans ?_, hzones⟩
  simp only [addAnnouncement, List.filter_append, hkeep]
  simp

/-- Accepting and withdrawing leaves the tables as they were if the node had not announced the
subnet to the zone, and only then. -/
theorem same_after_withdrawal_iff (hw : db.Wf)
    (hcreate : db.createAnnouncement userID nodeID real zoneID limit pool = (.ok (a, attached), db₁))
    {x : Announcement × Bool} (hdetach : db₁.detach zoneID a.id = (.ok x, db₂)) :
    db₂.SameAnnouncements db ↔ db.NotYet nodeID real zoneID := by
  have hdb₂ : db₂ = db₁.detachOne a.id zoneID := by
    rcases detach_cases db₁ zoneID a.id with ⟨h, -⟩ | ⟨_, -, -, h⟩
    · cases h.symm.trans hdetach
    · exact (congrArg Prod.snd (h.symm.trans hdetach)).symm
  rw [hdb₂]
  rcases @createAnnouncement_cases db userID nodeID real zoneID limit pool with
    ⟨-, e, h⟩ | ⟨b, hb, rfl, rfl, -, hatt, h⟩ | ⟨b, hb, rfl, rfl, -, hfresh, -, h⟩ | ⟨synthetic, hok, h⟩
  · rw [hcreate] at h
    cases h
  · -- it was attached to the zone, and now is no more
    obtain ⟨hba, rfl⟩ := Prod.mk.inj (h.symm.trans hcreate)
    obtain ⟨rfl, -⟩ := Prod.mk.inj (Except.ok.inj hba)
    apply iff_of_false
    · intro hsame
      rw [← hsame.2, detachOne_announcementZones] at hatt
      exact of_decide_eq_true (List.mem_filter.mp hatt).2 rfl
    · intro hnot
      exact (hnot b hb rfl rfl).1 hatt
  · obtain ⟨hba, rfl⟩ := Prod.mk.inj (h.symm.trans hcreate)
    obtain ⟨rfl, -⟩ := Prod.mk.inj (Except.ok.inj hba)
    exact same_reattached_iff hw hb hfresh
  · obtain ⟨hba, rfl⟩ := Prod.mk.inj (h.symm.trans hcreate)
    obtain ⟨rfl, -⟩ := Prod.mk.inj (Except.ok.inj hba)
    apply iff_of_true (same_announced hw synthetic.base)
    intro b hb hnode hreal
    exact absurd (Prod.ext hnode hreal) (hok.unknown b hb)

end DB

def Got (call : ApiCall) : Sigma HostOp.Result → Bool
  | ⟨.http c call', e⟩ => call' = call && (c.outcome call' e).toBool
  | _ => false

/-- A request of the run did what it was for, as far as the client knows. -/
def Succeeded (log : List (Sigma HostOp.Result)) (call : ApiCall) : Prop := ∃ x ∈ log, Got call x

def Tried (log : List (Sigma HostOp.Result)) (call : ApiCall) : Prop :=
  ∃ c e, ⟨.http c call, e⟩ ∈ log

section
variable {call : ApiCall} {log log' : List (Sigma HostOp.Result)}

theorem succeeded_append : Succeeded (log ++ log') call ↔ Succeeded log call ∨ Succeeded log' call := by
  simp only [Succeeded, List.mem_append, or_and_right, exists_or]

/-- Where the requests of the whole run settle the matter, and not those before, the later ones do. -/
theorem settled_later (hall : Tried (log ++ log') call → Succeeded (log ++ log') call)
    (hbefore : ¬Succeeded log call) (htried : Tried log' call) : Succeeded log' call := by
  obtain ⟨c, e, hmem⟩ := htried
  have hboth := hall ⟨c, e, List.mem_append_right log hmem⟩
  exact (succeeded_append.mp hboth).resolve_left hbefore

/-- A program that never makes the request does not succeed in it. -/
theorem not_succeeded_of_only {α ε σ : Type} {sem : Semantics HostOp HostOp.Result ε σ} {p : Cli α}
    {ok : HostOp → Prop} {s s' : σ} {a : α} (hp : p.Only ok) (hsay : p.Says sem s log a s')
    (hok : ∀ c, ¬ok (.http c call)) : ¬Succeeded log call := by
  rintro ⟨⟨o, e⟩, hmem, hgot⟩
  cases o with
  | http c call' =>
    obtain ⟨hcall, -⟩ := Bool.and_eq_true_iff.mp hgot
    have hsame := of_decide_eq_true hcall
    rw [← hsame] at hok
    have hallowed := hp.says hsay _ hmem
    exact hok c hallowed
  | _ => cases hgot

end

section
variable {κ : Type} [DecidableEq κ] {h : Handlers κ} {i : Identity} {t : Transit} {s : Site κ}
  {c : ApiClient} {call : ApiCall}

theorem eq_of_expired {res : Except ApiErr call.Body} (hexp : expired res = true) :
    res = .error .sessionExpired := by
  cases res with
  | ok body => cases hexp
  | error err => cases err <;> first | rfl | cases hexp

theorem not_expired_of_served (hfate : t.fate = .served) {e : Endpoint}
    (he : call.endpoint t.salt = some e) :
    c.outcome call (s.exchange h i t c call).1 ≠ .error .sessionExpired := by
  intro hexp
  obtain ⟨fingerprint, verifies, code, message, hexchange, -⟩ := Wire.expired_of_outcome hexp
  have hreported : AnswerReported ((answer h (some i) e).run (siteSem h.parseKey) false s).1 :=
    (answer_reported e).always.run false
  unfold Site.exchange Site.respond at hexchange
  simp only [hfate, he] at hexchange
  split_ifs at hexchange
  · injection hexchange with _ _ hresponse
    cases hresponse
  · simp only [Exchange.presented.injEq] at hexchange
    exact Wire.wire_ne_unauthorized hreported code message hexchange.2.2

/-- A request that finds the session expired has reached no handler. -/
theorem exchange_of_expired (hexp : c.outcome call
    (s.exchange h i t c call).1 = .error .sessionExpired) :
    (s.exchange h i t c call).2 = s := by
  have hunserved : ∀ e, t.fate = .served → call.endpoint t.salt ≠ some e :=
    fun e hfate he => not_expired_of_served hfate he hexp
  unfold Site.exchange at hexp ⊢
  split_ifs at hexp ⊢
  · rfl
  · cases hfate : t.fate with
    | lost => rfl
    | refused => rfl
    | unanswered =>
      rw [hfate] at hexp
      cases hexp
    | served =>
      unfold Site.respond
      cases hendpoint : call.endpoint t.salt with
      | none => rfl
      | some e => exact absurd hendpoint (hunserved e hfate)

theorem exchange_refresh (rt : String) : (s.exchange h i t c (.refresh rt)).2 = s := by
  unfold Site.exchange
  split_ifs
  · rfl
  · cases t.fate <;> rfl

end

section
variable {κ : Type} [DecidableEq κ] {h : Handlers κ} {i : Identity} {s s' : Installation κ}
  {c c' : ApiClient} {call : ApiCall} {log : List (Sigma HostOp.Result)} {res : Except ApiErr call.Body}

theorem says_attempt (hsay : (attempt c call).Says (Installation.sem h i) s log res s') :
    ∃ t, log = [⟨.http c call, (s.site.exchange h i t c call).1⟩] ∧
      res = c.outcome call (s.site.exchange h i t c call).1 ∧
      s'.site = (s.site.exchange h i t c call).2 := by
  obtain ⟨e, log', rfl, rfl, rfl, rfl⟩ := hsay
  exact ⟨e.transit, rfl, rfl, rfl⟩

theorem says_refresh {renewed : Bool × ApiClient}
    (hsay : (Cli.refresh c).Says (Installation.sem h i) s log renewed s') :
    s'.site = s.site ∧ ∀ call, (∀ rt, call ≠ .refresh rt) → ¬Succeeded log call := by
  have honly : (Cli.refresh c).Only fun o => ∃ c rt, o = .http c (.refresh rt) :=
    only_refresh fun c rt => ⟨c, rt, rfl⟩
  constructor
  · apply honly.says_keeps _ hsay
    rintro o ⟨c, rt, rfl⟩ e s
    exact exchange_refresh rt
  · intro call hcall
    apply not_succeeded_of_only honly hsay
    rintro c' ⟨c, rt, heq⟩
    injection heq with _ heq
    exact hcall rt heq

theorem succeeded_attempt {e : Exchange call.Body} :
    Succeeded [⟨.http c call, e⟩] call ↔ (c.outcome call e).toBool = true := by
  simp [Succeeded, Got]

/-- A request, with its repetition if need be: it has succeeded if one of its attempts did, and
then that one alone has reached a handler. -/
theorem says_request (hcall : ∀ rt, call ≠ .refresh rt)
    (hsay : (request c call).Says (Installation.sem h i) s log (res, c') s') :
    (Succeeded log call ↔ res.toBool = true) ∧
    ∀ body, res = .ok body → ∃ t c, c.outcome call (s.site.exchange h i t c call).1 = .ok body ∧
      s'.site = (s.site.exchange h i t c call).2 := by
  obtain ⟨first, log₂, res₁, s₁, rfl, hfirst, hrest⟩ := says_bind.mp hsay
  obtain ⟨t, rfl, rfl, hsite⟩ := says_attempt hfirst
  generalize hout : c.outcome call (s.site.exchange h i t c call).1 = res₁ at hrest
  by_cases hagain : (call.auth && expired res₁ && c.refreshToken ≠ "") = true
  · -- the first attempt found the session expired: it has done nothing
    rw [if_pos hagain] at hrest
    simp only [Bool.and_eq_true] at hagain
    have hexpired := eq_of_expired hagain.1.2
    rw [hexpired] at hout
    rw [exchange_of_expired hout] at hsite
    obtain ⟨renewal, log₃, ⟨renewed, c₁⟩, s₂, rfl, hrenewal, hlast⟩ := says_bind.mp hrest
    obtain ⟨hsame, hnone⟩ := says_refresh hrenewal
    have hquiet := hnone call hcall
    have hfailed : ¬Succeeded [⟨.http c call, (s.site.exchange h i t c call).1⟩] call := by
      rw [succeeded_attempt, hout]
      exact Bool.false_ne_true
    rw [succeeded_append, or_iff_right hfailed, succeeded_append, or_iff_right hquiet]
    -- the renewal failed, and the first answer stands; or the call is sent once more
    cases renewed with
    | false =>
      obtain ⟨rfl, hres, -⟩ := hlast
      obtain ⟨rfl, -⟩ := Prod.mk.inj hres
      rw [hexpired]
      exact ⟨iff_of_false (fun ⟨_, hmem, _⟩ => List.not_mem_nil hmem) Bool.false_ne_true,
        fun body hbody => by cases hbody⟩
    | true =>
      obtain ⟨again, log₄, res₂, s₃, rfl, hagain, hend⟩ := says_bind.mp hlast
      obtain ⟨t₂, rfl, rfl, hsite₂⟩ := says_attempt hagain
      obtain ⟨rfl, hres, rfl⟩ := hend
      obtain ⟨rfl, -⟩ := Prod.mk.inj hres
      have hsite₁ : s₂.site = s.site := hsame.trans hsite
      rw [hsite₁] at hsite₂ ⊢
      rw [List.append_nil, succeeded_attempt]
      exact ⟨Iff.rfl, fun body hbody => ⟨t₂, c₁, hbody, hsite₂⟩⟩
  · rw [if_neg hagain] at hrest
    obtain ⟨rfl, hres, rfl⟩ := hrest
    obtain ⟨rfl, -⟩ := Prod.mk.inj hres
    rw [List.append_nil, succeeded_attempt, hout]
    exact ⟨Iff.rfl, fun body hbody => ⟨t, c, hout.trans hbody, hsite⟩⟩

end

section
variable {κ : Type} [DecidableEq κ] {h : Handlers κ} {i : Identity} {t : Transit} {s : Site κ}
  {c : ApiClient} {zone : String} {nodeID : Int}

/-- The accepted announcement has been created, and its synthetic block is sent as it can be read. -/
theorem created_of_ok {subnet : String} {ann : AnnouncementResponse}
    (hok : c.outcome (.createAnnouncement zone nodeID subnet)
      (s.exchange h i t c (.createAnnouncement zone nodeID subnet)).1 = .ok ann) :
    ∃ z ∈ s.world.db.zones, z.name = zone ∧
      (∃ node ∈ s.world.db.nodes, node.id = nodeID ∧ node.userID = i.userID) ∧
      ∃ p, parsePrefix4 subnet = some p ∧ (∃ userID limit pool a attached,
        (StoreOp.createAnnouncement userID nodeID (blockFromPrefix p.masked) z.id limit pool).Issued
          h.toServer ∧
        s.world.db.createAnnouncement userID nodeID (blockFromPrefix p.masked) z.id limit pool =
          (.ok (a, attached), (s.exchange h i t c (.createAnnouncement zone nodeID subnet)).2.world.db) ∧
        ann.id = a.id) ∧
      (parsePrefix4 ann.synthetic).isSome = true := by
  have hserved := served_of_ok hok
  generalize (s.exchange h i t c (.createAnnouncement zone nodeID subnet)).2 = s' at hserved ⊢
  obtain ⟨hwire, hworld⟩ := @respond_call κ _ h i t s (.createAnnouncement zone nodeID subnet)
    (.createAnnouncement zone (some ⟨nodeID, subnet⟩)) rfl fun _ => Call.noConfusion
  rw [hserved] at hwire hworld
  obtain ⟨hnoError, hdecode⟩ := wire_plain_ok hwire.symm
  -- the handler refused, against the client's reading of the answer, or it created what it answers
  rcases @ends_createAnnouncement κ _ h.parseKey s.world i h.toServer zone ⟨nodeID, subnet⟩ with
    ⟨r, herr, hrun⟩ | haccepted
  · have hr : (Prog.run (sem h.parseKey) false (handle h.toServer ⟨some i, .createAnnouncement zone
        (some ⟨nodeID, subnet⟩)⟩) s.world).1 = r := congrArg Prod.fst hrun
    rw [hr, herr] at hnoError
    cases hnoError
  · obtain ⟨z, hz, hname, node, hnode, hid, huser, pool, hpool, p, hp, hvalid, a, attached,
      hcreate, hresp⟩ :=
      haccepted hnoError
    have hanswer : (Prog.run (sem h.parseKey) false (handle h.toServer ⟨some i, .createAnnouncement zone
        (some ⟨nodeID, subnet⟩)⟩) s.world).1 = ⟨201, .announcement a.id node.id node.name i.username
          a.real.toPrefix a.synthetic.toPrefix⟩ := hresp
    rw [hanswer] at hdecode
    have hann : ann = ⟨a.id, node.id, node.name, i.username, a.real.toPrefix.text,
        a.synthetic.toPrefix.text⟩ := (Option.some.inj hdecode).symm
    change s'.world = (Prog.run (sem h.parseKey) false (createAnnouncement h.toServer (some i) zone
      (some ⟨nodeID, subnet⟩)) s.world).2 at hworld
    rw [← hworld, hid] at hcreate
    have hlen : a.prefixLen ≤ 32 := by
      have hreal : a.prefixLen = (blockFromPrefix p.masked).prefixLen :=
        congrArg Block.prefixLen (DB.createAnnouncement_ok hcreate).1.2.2.1
      rw [hreal, blockFromPrefix_prefixLen, Prefix.masked_bits]
      exact bits_le_of_is4 (parsePrefix4_v4 hp).1 (parsePrefix4_v4 hp).2
    refine ⟨z, hz, hname, ⟨node, hnode, hid, huser⟩, p, hp,
      ⟨_, _, pool, a, attached, issued_createAnnouncement hpool hp hvalid, hcreate, ?_⟩, ?_⟩
    · rw [hann]
    · rw [hann]
      show (parsePrefix4 a.synthetic.toPrefix.text).isSome = true
      rw [parsePrefix4_text hlen]
      rfl

theorem detached_of_ok {id : Int}
    (hok : c.outcome (.deleteAnnouncement zone id)
      (s.exchange h i t c (.deleteAnnouncement zone id)).1 = .ok ()) :
    ∃ z ∈ s.world.db.zones, z.name = zone ∧ ∃ x, s.world.db.detach z.id id =
      (.ok x, (s.exchange h i t c (.deleteAnnouncement zone id)).2.world.db) := by
  have hserved := served_of_ok hok
  generalize (s.exchange h i t c (.deleteAnnouncement zone id)).2 = s' at hserved ⊢
  obtain ⟨hwire, hworld⟩ := @respond_call κ _ h i t s (.deleteAnnouncement zone id)
    (.deleteAnnouncement zone (toString id)) rfl fun _ => Call.noConfusion
  rw [hserved] at hwire hworld
  obtain ⟨hnoError, -⟩ := wire_plain_ok hwire.symm
  rcases @ends_deleteAnnouncement κ _ h.parseKey s.world i zone (toString id) with
    ⟨r, herr, hrun⟩ | haccepted
  · have hr : (Prog.run (sem h.parseKey) false (handle h.toServer ⟨some i, .deleteAnnouncement zone
        (toString id)⟩) s.world).1 = r := congrArg Prod.fst hrun
    rw [hr, herr] at hnoError
    cases hnoError
  · obtain ⟨z, hz, hname, annID, hparse, x, hdetach⟩ := haccepted hnoError
    rw [parseInt64_toString] at hparse
    obtain rfl := Option.some.inj (Option.filter_eq_some_iff.mp hparse).1
    change s'.world = (Prog.run (sem h.parseKey) false (deleteAnnouncement (some i) zone (toString id))
      s.world).2 at hworld
    rw [← hworld] at hdetach
    exact ⟨z, hz, hname, x, hdetach⟩

end

section
variable {κ : Type} [DecidableEq κ] {h : Handlers κ} {i : Identity} {s s' : Installation κ}
  {c c' : ApiClient} {rec : Record} {zone : String} {log : List (Sigma HostOp.Result)}

theorem exchange_reading {t : Transit} {s : Site κ} {call : ApiCall} (hreading : call.Reading) :
    (s.exchange h i t c call).2 = s := by
  have hrespond : (s.respond h i t call).2 = s := by
    cases call with
    | listZones => rfl
    | zoneMembers name =>
      have hmembers : (answer h (some i) (.zoneMembers name)).Always (siteSem h.parseKey) s
          fun _ s' => s' = s := by
        apply always_memberZone fun _ => rfl
        intro zone _ _ _ fails
        cases fails <;> rfl
      exact hmembers.run false
    | listAnnouncements name =>
      have hlist : (answer h (some i) (.listAnnouncements name)).Always (siteSem h.parseKey) s
          fun _ s' => s' = s := by
        apply always_memberZone fun _ => rfl
        intro zone _ _ _ fails
        cases fails <;> rfl
      exact hlist.run false
    | refresh rt => rfl
    | _ => exact hreading.elim
  exact exchange_of_respond hrespond

theorem says_rebuildFromServer {res : Bool × ApiClient}
    (hsay : (rebuildFromServer c rec).Says (Installation.sem h i) s log res s') :
    s'.site = s.site ∧ ∀ call, ¬call.Reading → ¬Succeeded log call := by
  have honly : (rebuildFromServer c rec).Only fun o =>
      (∃ c call, call.Reading ∧ o = .http c call) ∨ ∃ p rules, o = .rebuildNat p rules :=
    only_rebuildFromServer (fun c call hreading => .inl ⟨c, call, hreading, rfl⟩)
      fun p rules => .inr ⟨p, rules, rfl⟩
  constructor
  · apply honly.says_keeps _ hsay
    rintro o (⟨c, call, hreading, rfl⟩ | ⟨p, rules, rfl⟩) e s
    · exact exchange_reading hreading
    · rfl
  · intro call hcall
    apply not_succeeded_of_only honly hsay
    rintro c' (⟨c, call', hreading, heq⟩ | ⟨p, rules, heq⟩)
    · injection heq with _ heq
      exact hcall (heq ▸ hreading)
    · cases heq

theorem says_compensate {id : Int}
    (hsay : (compensate c zone id).Says (Installation.sem h i) s log c' s')
    (hok : Tried log (.deleteAnnouncement zone id) → Succeeded log (.deleteAnnouncement zone id)) :
    ∃ z ∈ s.site.world.db.zones, z.name = zone ∧
      ∃ x, s.site.world.db.detach z.id id = (.ok x, s'.site.world.db) := by
  obtain ⟨log, _, ⟨res, c₁⟩, s₁, rfl, hrequest, hend⟩ := says_bind.mp hsay
  obtain ⟨rfl, -, rfl⟩ := hend
  rw [List.append_nil] at hok
  have htried : Tried log (.deleteAnnouncement zone id) := by
    obtain ⟨e, log', rfl, -⟩ := says_op.mp hrequest
    exact ⟨c, _, List.mem_cons_self⟩
  obtain ⟨hsucceeded, hserved⟩ := says_request (fun _ => ApiCall.noConfusion) hrequest
  have hres := hsucceeded.mp (hok htried)
  cases res with
  | error e => cases hres
  | ok body =>
    obtain ⟨t, c₂, hout, hsite⟩ := hserved body rfl
    obtain ⟨z, hz, hname, x, hdetach⟩ := detached_of_ok hout
    rw [← hsite] at hdetach
    exact ⟨z, hz, hname, x, hdetach⟩

/-- Nothing of the node's stands in the way: in the zone of this name it has not announced the
subnet, and an announcement of it that there is has some other zone. -/
def DB.Unannounced (db : DB) (nodeID : Int) (subnet zone : String) : Prop :=
  ∀ z ∈ db.zones, z.name = zone → ∀ p, parsePrefix4 subnet = some p →
    db.NotYet nodeID (blockFromPrefix p.masked) z.id

/-- The request that announces withdraws nothing. -/
theorem not_withdrawn_by_create {subnet : String} {nodeID : Int} {res : _ × ApiClient}
    (hcreate : (request c (.createAnnouncement zone nodeID subnet)).Says
      (Installation.sem h i) s log res s')
    (id : Int) : ¬Succeeded log (.deleteAnnouncement zone id) := by
  have honly : (request c (.createAnnouncement zone nodeID subnet)).Only fun o =>
      ∃ c call, o = .http c call ∧ call ≠ .deleteAnnouncement zone id :=
    only_request (fun c => ⟨c, _, rfl, ApiCall.noConfusion⟩) fun c rt => ⟨c, _, rfl, ApiCall.noConfusion⟩
  apply not_succeeded_of_only honly hcreate
  intro c hdelete
  obtain ⟨c', call, heq, hne⟩ := hdelete
  injection heq with _ heq
  exact hne heq.symm

/-- Whatever fails once the announcement has been accepted is followed by the withdrawal. -/
theorem withdraws_after_accepted {subnet : String} : ∃ rest,
    cmdAnnounceAdd c rec subnet zone = request c (.createAnnouncement zone rec.nodeID subnet) >>= rest ∧
    (∀ err c, rest (.error err, c) = .pure (1, c)) ∧
    ∀ ann c₁ (s : Installation κ) log c' s', (parsePrefix4 ann.synthetic).isSome = true →
      (rest (.ok ann, c₁)).Says (Installation.sem h i) s log (1, c') s' →
      (Tried log (.deleteAnnouncement zone ann.id) → Succeeded log (.deleteAnnouncement zone ann.id)) →
      ∃ z ∈ s.site.world.db.zones, z.name = zone ∧
        ∃ x, s.site.world.db.detach z.id ann.id = (.ok x, s'.site.world.db) := by
  refine ⟨_, rfl, fun _ _ => rfl, ?_⟩
  intro ann c₁ s log c' s' hparse hrest hlater
  obtain ⟨synthetic, hsynthetic⟩ := Option.isSome_iff_exists.mp hparse
  dsimp only at hrest
  rw [hsynthetic] at hrest
  obtain ⟨check, log₃, clash, s₂, rfl, hcheck, hrest⟩ := says_bind.mp hrest
  -- reading the local networks sends no deletion, so the deletion that succeeds comes later
  have hquiet : ¬Succeeded check (.deleteAnnouncement zone ann.id) := by
    have honly : (perform (.localOverlap synthetic)).Only fun o => o = .localOverlap synthetic :=
      only_perform rfl
    exact not_succeeded_of_only honly hcheck fun c => HostOp.noConfusion
  have hfollowing := settled_later hlater hquiet
  have hsame : s₂.site = s.site := by
    obtain ⟨e, _, -, -, -, rfl⟩ := hcheck
    rfl
  -- the command withdraws in two places: on an overlap here, and when the rules cannot be built
  cases clash with
  | true =>
    obtain ⟨log₄, _, c₃, s₃, rfl, hcompensate, hend⟩ := says_bind.mp hrest
    obtain ⟨rfl, -, rfl⟩ := hend
    rw [List.append_nil] at hfollowing
    rw [← hsame]
    exact says_compensate hcompensate hfollowing
  | false =>
    obtain ⟨log₄, log₅, ⟨ok, c₃⟩, s₃, rfl, hrebuild, hrest⟩ := says_bind.mp hrest
    obtain ⟨hsame', hreads⟩ := says_rebuildFromServer hrebuild
    cases ok with
    | true =>
      obtain ⟨-, hcode, -⟩ := hrest
      cases hcode
    | false =>
      obtain ⟨log₆, _, c₄, s₄, rfl, hcompensate, hend⟩ := says_bind.mp hrest
      obtain ⟨rfl, -, rfl⟩ := hend
      rw [List.append_nil] at hfollowing
      rw [← hsame, ← hsame']
      exact says_compensate hcompensate (settled_later hfollowing (hreads _ id))

/-- `announce add` that fails after the server has accepted the announcement, and whose withdrawal
succeeds, leaves the announcements and attachments as they were exactly if the node had not
announced the subnet to the zone before. -/
theorem announceAdd_atomic_iff {subnet : String} (hw : s.site.world.db.Wf)
    (hrun : (cmdAnnounceAdd c rec subnet zone).Says (Installation.sem h i) s log (1, c') s')
    (haccepted : Succeeded log (.createAnnouncement zone rec.nodeID subnet))
    (hwithdrawn : ∀ id, Tried log (.deleteAnnouncement zone id) →
      Succeeded log (.deleteAnnouncement zone id)) :
    s'.site.world.db.SameAnnouncements s.site.world.db ↔
      s.site.world.db.Unannounced rec.nodeID subnet zone := by
  obtain ⟨rest, hcommand, hrefused, hfailed⟩ :=
    @withdraws_after_accepted κ _ h i c rec zone subnet
  rw [hcommand] at hrun
  obtain ⟨log₁, log₂, ⟨res, c₁⟩, s₁, rfl, hcreate, hrest⟩ := says_bind.mp hrun
  obtain ⟨hsucceeded, hserved⟩ := says_request (fun _ => ApiCall.noConfusion) hcreate
  cases res with
  | error err =>
    -- an answer that the client takes for an error is no acceptance
    rw [hrefused] at hrest
    obtain ⟨rfl, -⟩ := hrest
    rw [List.append_nil] at haccepted
    exact absurd (hsucceeded.mp haccepted) Bool.false_ne_true
  | ok ann =>
    obtain ⟨t, c₂, hout, hsite⟩ := hserved ann rfl
    obtain ⟨z, hz, hname, -, p, hp, ⟨userID, limit, pool, a, attached, -, hcreated, hid⟩, hparse⟩ :=
      created_of_ok hout
    rw [← hsite] at hcreated
    have hlater := settled_later (hwithdrawn ann.id) (not_withdrawn_by_create hcreate ann.id)
    obtain ⟨z', hz', hname', x, hdetach⟩ := hfailed ann c₁ s₁ log₂ c' s' hparse hrest hlater
    rw [(DB.createAnnouncement_ok hcreated).2.2.zones] at hz'
    obtain rfl := hw.zone_name z' hz' z hz (hname'.trans hname.symm)
    rw [hid] at hdetach
    rw [DB.same_after_withdrawal_iff hw hcreated hdetach]
    constructor
    · intro hnotYet y hy hyname q hq
      obtain rfl := hw.zone_name y hy z' hz (hyname.trans hname.symm)
      obtain rfl := Option.some.inj (hq.symm.trans hp)
      exact hnotYet
    · intro hunannounced
      exact hunannounced z' hz hname p hp

end

def labSite (db : DB) : Installation String :=
  ⟨⟨rebuilt db, ⟨[], 0⟩⟩, none, fun _ => none, none, false, [], false⟩

def routerClient : ApiClient := ⟨"https://lab", "token", "", false, ""⟩

/-- Every request is served, and every block overlaps a local network. -/
def clashing : Conditions where
  transit := ⟨.served, "", true, none, fun _ => .ok none⟩
  fails := false
  keyPair := ("", "")
  clash := true

def addLab : Cli (Nat × ApiClient) :=
  cmdAnnounceAdd routerClient { Record.empty with nodeID := 1 } "192.168.7.0/24" "lab"

/-- The announcement to be deleted, if the operation is a deletion. -/
def deletedID : Sigma HostOp.Result → Option Int
  | ⟨.http _ (.deleteAnnouncement _ id), _⟩ => some id
  | _ => none

theorem settled_of_deletedID {id : Int} {log : List (Sigma HostOp.Result)} {zone : String}
    (honly : log.filterMap deletedID = [id]) (hdone : Succeeded log (.deleteAnnouncement zone id)) :
    ∀ id', Tried log (.deleteAnnouncement zone id') → Succeeded log (.deleteAnnouncement zone id') := by
  intro id' htried
  obtain ⟨c, e, hmem⟩ := htried
  have hid : id' ∈ log.filterMap deletedID := List.mem_filterMap.mpr ⟨_, hmem, rfl⟩
  rw [honly, List.mem_singleton] at hid
  rw [hid]
  exact hdone

instance {log : List (Sigma HostOp.Result)} {call : ApiCall} : Decidable (Succeeded log call) :=
  inferInstanceAs (Decidable (∃ x ∈ log, Got call x = true))

/-- The run of the command against this database. -/
def labRun (db : DB) : (Nat × ApiClient) × Installation String :=
  addLab.run (Installation.sem labServer.bare ⟨1, "alice", true⟩) clashing (labSite db)

def labLog (db : DB) : List (Sigma HostOp.Result) :=
  addLab.said (Installation.sem labServer.bare ⟨1, "alice", true⟩) clashing (labSite db)

theorem says_lab (db : DB) (hcode : (labRun db).1.1 = 1) :
    addLab.Says (Installation.sem labServer.bare ⟨1, "alice", true⟩) (labSite db) (labLog db)
      (1, (labRun db).1.2) (labRun db).2 := by
  rw [← hcode]
  exact says_said ..

theorem announceAdd_atomic_iff_lab :
    (labRun (labDB [⟨1, 1⟩])).2.site.world.db.SameAnnouncements (labDB [⟨1, 1⟩]) := by
  apply (announceAdd_atomic_iff (labDB_wf (.inr rfl)) (says_lab _ (by decide +kernel))
    (by decide +kernel) (@settled_of_deletedID 1 _ _ (by decide +kernel) (by decide +kernel))).mpr
  intro z _ _ p _ a ha
  exact absurd ha List.not_mem_nil

/-- Announced once more, the subnet is withdrawn from the zone that had it. -/
theorem announced_again_withdraws :
    ∃ log c' s', addLab.Says (Installation.sem labServer.bare ⟨1, "alice", true⟩) (labSite labAnnounced)
        log (1, c') s' ∧
      Succeeded log (.createAnnouncement "lab" 1 "192.168.7.0/24") ∧
      (∀ id, Tried log (.deleteAnnouncement "lab" id) → Succeeded log (.deleteAnnouncement "lab" id)) ∧
      ¬s'.site.world.db.SameAnnouncements labAnnounced := by
  refine ⟨labLog labAnnounced, _, _, says_lab _ (by decide +kernel), by decide +kernel,
    @settled_of_deletedID 1 _ _ (by decide +kernel) (by decide +kernel), ?_⟩
  intro hsame
  have hgone : (labRun labAnnounced).2.site.world.db.announcements = [] := by decide +kernel
  have hkept := hsame.1
  rw [hgone] at hkept
  exact List.cons_ne_nil _ _ hkept.symm

end LanWeave

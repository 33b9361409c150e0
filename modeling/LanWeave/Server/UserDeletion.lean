import LanWeave.Server.RefreshTokens
import LanWeave.Server.StoreCases

/-! What the deletion of a user takes away, and the administrators it leaves. -/

namespace LanWeave
open Library Prog

namespace DB

def ownsNode (db : DB) (userID nodeID : Int) : Bool :=
  db.nodes.any fun n => n.id = nodeID ∧ n.userID = userID

def ownsZone (db : DB) (userID zoneID : Int) : Bool :=
  db.zones.any fun z => z.id = zoneID ∧ z.ownerID = userID

/-- The announcement is one of the user's nodes. -/
def announces (db : DB) (userID annID : Int) : Bool :=
  db.announcements.any fun a => a.id = annID ∧ db.ownsNode userID a.nodeID

/-- Every attachment of the announcement is in a zone of the user. -/
def shownIn (db : DB) (userID annID : Int) : Bool :=
  db.announcementZones.all fun az => az.announcementID ≠ annID || db.ownsZone userID az.zoneID

/-- Nothing but the user's footprint is taken away. -/
structure Footprint (db db' : DB) (userID : Int) : Prop where
  users : db'.users = db.users.filter fun u => u.id ≠ userID
  nodes : db'.nodes = db.nodes.filter fun n => n.userID ≠ userID
  zones : db'.zones = db.zones.filter fun z => z.ownerID ≠ userID
  zoneMembers : db'.zoneMembers = db.zoneMembers.filter fun m =>
    !db.ownsNode userID m.nodeID && !db.ownsZone userID m.zoneID
  announcements : db'.announcements = db.announcements.filter fun a =>
    !db.ownsNode userID a.nodeID && !db.shownIn userID a.id
  announcementZones : db'.announcementZones = db.announcementZones.filter fun az =>
    !db.announces userID az.announcementID && !db.ownsZone userID az.zoneID

variable {db : DB} {userID : Int}

theorem ownsNode_eq_false {nodeID : Int} : db.ownsNode userID nodeID = false ↔
    ∀ n ∈ db.nodes, n.id = nodeID → n.userID ≠ userID := by
  simp [ownsNode]

theorem announces_eq_false {annID : Int} : db.announces userID annID = false ↔
    ∀ a ∈ db.announcements, a.id = annID → db.ownsNode userID a.nodeID = false := by
  simp [announces]

theorem shownIn_eq_false {annID : Int} : db.shownIn userID annID = false ↔
    ∃ az ∈ db.announcementZones, az.announcementID = annID ∧ db.ownsZone userID az.zoneID = false := by
  simp [shownIn]

theorem deleteUser_zoneMembers (db : DB) (userID : Int) : (db.deleteUser userID).zoneMembers =
    db.zoneMembers.filter fun m => !db.ownsNode userID m.nodeID && !db.ownsZone userID m.zoneID := by
  show (db.zoneMembers.filter _).filter _ = _
  rw [List.filter_filter]
  apply List.filter_congr
  intro m _
  simp only [deleteNodes, deleteAnnouncements, ownsNode, ownsZone, Bool.decide_and, Bool.and_comm]

theorem deleteUser_announcements (db : DB) (userID : Int) : (db.deleteUser userID).announcements =
    db.announcements.filter fun a => !db.ownsNode userID a.nodeID := by
  show db.announcements.filter _ = _
  apply List.filter_congr
  intro a _
  simp only [ownsNode, Bool.decide_and, Bool.and_comm]

theorem deleteUser_announcementZones (db : DB) (userID : Int) :
    (db.deleteUser userID).announcementZones = db.announcementZones.filter fun az =>
      !db.announces userID az.announcementID && !db.ownsZone userID az.zoneID := by
  show (db.announcementZones.filter _).filter _ = _
  rw [List.filter_filter]
  apply List.filter_congr
  intro az _
  simp only [deleteNodes, deleteAnnouncements, announces, ownsNode, ownsZone, Bool.decide_and,
    Bool.and_comm, Bool.decide_eq_true]

/-- An announcement that stays keeps an attachment; one that is left without goes too. -/
theorem attached_deleteUser (hw : db.Wf) {a : Announcement} (ha : a ∈ db.announcements)
    (hown : db.ownsNode userID a.nodeID = false) :
    (db.deleteUser userID).attached a.id = !db.shownIn userID a.id := by
  rw [Bool.eq_iff_iff, Bool.not_eq_true', shownIn_eq_false, attached, deleteUser_announcementZones]
  simp only [List.any_eq_true, List.mem_filter, decide_eq_true_eq, Bool.and_eq_true, Bool.not_eq_true']
  constructor
  · rintro ⟨az, ⟨haz, -, hzone⟩, hid⟩
    exact ⟨az, haz, hid, hzone⟩
  · rintro ⟨az, haz, hid, hzone⟩
    refine ⟨az, ⟨haz, ?_, hzone⟩, hid⟩
    rw [announces_eq_false]
    intro b hb hbid
    rwa [hw.announcements_asc.keyed b hb a ha (hbid.trans hid)]

theorem hasNode_deleteUser (hw : db.Wf) {a : Announcement} (ha : a ∈ db.announcements)
    (hown : db.ownsNode userID a.nodeID = false) : (db.deleteUser userID).hasNode a.nodeID = true := by
  obtain ⟨n, hn, hid⟩ := hw.announcement_node a ha
  have hne := ownsNode_eq_false.mp hown n hn hid
  rw [hasNode, List.any_eq_true]
  refine ⟨n, List.mem_filter.mpr ⟨hn, ?_⟩, by simpa using hid⟩
  simpa using hne

/-- The transaction's changes, with the orphans it computes, are the footprint. -/
theorem footprint_deleteUser (hw : db.Wf) {orphans : List Announcement}
    (horphans : orphans = (db.deleteUser userID).announcements.filter fun a =>
      !(db.deleteUser userID).attached a.id && (db.deleteUser userID).hasNode a.nodeID) :
    Footprint db ((db.deleteUser userID).deleteAnnouncements fun a => orphans.any (·.id = a.id))
      userID := by
  have hw' := hw.deleteUser userID
  -- an id of the orphans names a row that has no attachment left
  have horphan : ∀ a ∈ (db.deleteUser userID).announcements,
      orphans.any (·.id = a.id) = db.shownIn userID a.id := by
    intro a ha
    have ha' := ha
    rw [deleteUser_announcements, List.mem_filter, Bool.not_eq_true'] at ha'
    rw [Bool.eq_iff_iff, List.any_eq_true]
    constructor
    · rintro ⟨b, hb, hid⟩
      rw [horphans, List.mem_filter] at hb
      rw [hw'.announcements_asc.keyed b hb.1 a ha (by simpa using hid),
        attached_deleteUser hw ha'.1 ha'.2] at hb
      simpa using And.left (by simpa using hb.2)
    · intro hshown
      refine ⟨a, ?_, by simp⟩
      rw [horphans, List.mem_filter, attached_deleteUser hw ha'.1 ha'.2, hshown,
        hasNode_deleteUser hw ha'.1 ha'.2]
      exact ⟨ha, rfl⟩
  refine ⟨rfl, ?_, ?_, deleteUser_zoneMembers db userID, ?_, ?_⟩
  · show db.nodes.filter _ = _
    exact List.filter_congr fun n _ => by simp
  · show db.zones.filter _ = _
    exact List.filter_congr fun z _ => by simp
  · show (db.deleteUser userID).announcements.filter _ = _
    rw [List.filter_congr fun a ha => congrArg not (horphan a ha), deleteUser_announcements,
      List.filter_filter]
    exact List.filter_congr fun a _ => Bool.and_comm ..
  · show (db.deleteUser userID).announcementZones.filter _ = _
    rw [← deleteUser_announcementZones, List.filter_eq_self]
    intro az haz
    rw [Bool.not_eq_true', any_and_id_eq_false]
    intro a ha hid
    rw [horphan a ha, shownIn_eq_false]
    rw [deleteUser_announcementZones, List.mem_filter, Bool.and_eq_true, Bool.not_eq_true',
      Bool.not_eq_true'] at haz
    exact ⟨az, haz.1, hid.symm, haz.2.2⟩

/-- The user is an administrator and there is no other. -/
def OnlyAdmin (db : DB) (userID : Int) : Prop :=
  (∃ u ∈ db.users, u.id = userID ∧ u.isAdmin = true) ∧
    ∀ u ∈ db.users, u.isAdmin = true → u.id = userID

def HasAdmin (db : DB) : Prop := ∃ u ∈ db.users, u.isAdmin = true

/-- A user deletion is refused, or takes the user's footprint away and leaves an administrator
where there was one. -/
theorem deleteCascade_footprint (hw : db.Wf) (userID : Int) :
    (db.deleteCascade userID = (.error .userNotFound, db) ∧ db.hasUser userID = false) ∨
    (db.deleteCascade userID = (.error .lastAdmin, db) ∧ db.OnlyAdmin userID) ∨
    ∃ r db', db.deleteCascade userID = (.ok r, db') ∧ Footprint db db' userID ∧
      (db.HasAdmin → db'.HasAdmin) := by
  unfold deleteCascade
  cases hfind : db.users.find? (·.id = userID) with
  | none =>
    refine .inl ⟨rfl, ?_⟩
    simpa [hasUser] using hfind
  | some u =>
    have hu := List.mem_of_find?_eq_some hfind
    have hid : u.id = userID := by simpa using List.find?_some hfind
    right
    simp only
    split_ifs with hlast
    · refine .inl ⟨rfl, ⟨u, hu, hid, hlast.1⟩, fun v hv hadmin => ?_⟩
      obtain ⟨w, hw⟩ := List.length_eq_one_iff.mp
        (hlast.2.antisymm (List.length_pos_of_mem (List.mem_filter.mpr ⟨hu, hlast.1⟩)))
      have hmem : ∀ x ∈ db.users, x.isAdmin = true → x = w := by
        intro x hx hxadmin
        rw [← List.mem_singleton, ← hw]
        exact List.mem_filter.mpr ⟨hx, hxadmin⟩
      rw [hmem v hv hadmin, ← hmem u hu hlast.1, hid]
    · refine .inr ⟨_, _, rfl, footprint_deleteUser hw rfl, ?_⟩
      rintro ⟨v, hv, hadmin⟩
      by_contra hnone
      -- then every administrator is the user that is deleted
      have honly : ∀ w ∈ db.users, w.isAdmin = true → w = u := by
        intro w hw' hwadmin
        apply hw.users_asc.keyed w hw' u hu
        by_contra hne
        rw [hid] at hne
        exact hnone ⟨w, List.mem_filter.mpr ⟨hw', by simpa using hne⟩, hwadmin⟩
      have hadmins : db.users.filter (·.isAdmin) = [u] := by
        refine hw.users_asc.filter_eq_singleton hu fun w hw' => ⟨honly w hw', ?_⟩
        rintro rfl
        rw [← honly v hv hadmin]
        exact hadmin
      apply hlast
      rw [hadmins, ← honly v hv hadmin]
      exact ⟨hadmin, le_rfl⟩

end DB

/-- The statements and transactions that read or write users and invites. -/
inductive AccountOp
  | getByUsername (username : String)
  | createAdmin (username passwordHash : String)
  | insertInvite (createdBy : Int) (code : String) (now ttl : Int)
  | register (username passwordHash code : String) (now : Int)
  | deleteCascade (targetID : Int)

abbrev AccountOp.Result : AccountOp → Type
  | getByUsername _ => Except StoreErr (Option User)
  | createAdmin .. => Except StoreErr Int
  | insertInvite .. => Except StoreErr Unit
  | register .. => Except StoreErr (Except RegisterErr User)
  | deleteCascade _ => Except StoreErr DeletionResult

def AccountOp.exec : (o : AccountOp) → Accounts → o.Result × Accounts
  | .getByUsername username, s =>
    (.ok (s.registry.db.users.find? fun u => nocase u.username = nocase username), s)
  | .createAdmin username passwordHash, s =>
    let r := s.registry.db.createAdmin username passwordHash
    (r.1, { s with registry := ⟨r.2, s.registry.invites⟩ })
  | .insertInvite createdBy code now ttl, s =>
    let r := s.registry.insertInvite createdBy code now ttl
    (r.1, { s with registry := r.2 })
  | .register username passwordHash code now, s =>
    let r := s.registry.register username passwordHash code now
    (.ok r.1, { s with registry := r.2 })
  | .deleteCascade targetID, s => s.deleteCascade targetID

/-- An operation of which the database reports an error has done nothing. -/
def AccountOp.sem : Semantics AccountOp AccountOp.Result Bool Accounts
  | .getByUsername _, true, s => (.error .driver, s)
  | .createAdmin .., true, s => (.error .driver, s)
  | .insertInvite .., true, s => (.error .driver, s)
  | .register .., true, s => (.error .driver, s)
  | .deleteCascade _, true, s => (.error .driver, s)
  | o, false, s => o.exec s

inductive EnsureErr
  | notProvided
  | hash
  | store (err : StoreErr)
deriving DecidableEq

/-- `EnsureAdmin`; `hashed` is what `HashPassword` yields. -/
def ensureAdmin (username password : String) (hashed : Option String) :
    Prog AccountOp AccountOp.Result (Except EnsureErr Unit) :=
  if username = "" ∨ password = "" then .pure (.error .notProvided)
  else
    .op (.getByUsername username) fun
      | .error err => .pure (.error (.store err))
      | .ok (some _) => .pure (.ok ())
      | .ok none =>
        match hashed with
        | none => .pure (.error .hash)
        | some hash =>
          .op (.createAdmin username hash) fun
            | .error .userExists => .pure (.ok ())
            | .error err => .pure (.error (.store err))
            | .ok _ => .pure (.ok ())

/-- `InviteRepo.Create`: on a collision it tries the next code. -/
def createInviteCode (createdBy now ttl : Int) (draw : ℕ → Option String) :
    ℕ → Prog AccountOp AccountOp.Result (Except StoreErr String)
  | 0 => .pure (.error .driver)
  | attempts + 1 =>
    match draw attempts with
    | none => .pure (.error .driver)
    | some code =>
      .op (.insertInvite createdBy code now ttl) fun
        | .error (.unique _) => createInviteCode createdBy now ttl draw attempts
        | .error e => .pure (.error e)
        | .ok () => .pure (.ok code)

inductive AccountCall
  | ensureAdmin (username password : String) (hashed : Option String)
  | createInvite (createdBy now ttl : Int) (draw : ℕ → Option String)
  | register (username passwordHash code : String) (now : Int)
  | deleteUser (targetID : Int)

inductive AccountReply
  | ensured (res : Except EnsureErr Unit)
  | invited (res : Except StoreErr String)
  | registered (res : Except StoreErr (Except RegisterErr User))
  | deleted (res : Except StoreErr DeletionResult)

def AccountCall.prog : AccountCall → Prog AccountOp AccountOp.Result AccountReply
  | ensureAdmin username password hashed =>
    LanWeave.ensureAdmin username password hashed >>= fun r => .pure (.ensured r)
  | createInvite createdBy now ttl draw =>
    createInviteCode createdBy now ttl draw 5 >>= fun r => .pure (.invited r)
  | register username passwordHash code now =>
    .op (.register username passwordHash code now) fun r => .pure (.registered r)
  | deleteUser targetID => .op (.deleteCascade targetID) fun r => .pure (.deleted r)

/-- Before the first administrator there is nobody, and nobody has been invited. -/
structure Accounts.Governed (s : Accounts) : Prop where
  wf : s.registry.db.Wf
  admin : s.registry.db.HasAdmin ∨ s.registry.db.users = [] ∧ s.registry.invites.rows = []

section
variable {s : Accounts}

theorem Accounts.Governed.hasAdmin (h : s.Governed) {u : User} (hu : u ∈ s.registry.db.users) :
    s.registry.db.HasAdmin := by
  rcases h.admin with hadmin | ⟨hnobody, -⟩
  · exact hadmin
  · rw [hnobody] at hu
    cases hu

theorem hasAdmin_addUser {db : DB} (h : db.HasAdmin) (username passwordHash : String) (isAdmin : Bool) :
    (db.addUser username passwordHash isAdmin).HasAdmin := by
  obtain ⟨u, hu, hadmin⟩ := h
  exact ⟨u, List.mem_append_left _ hu, hadmin⟩

theorem Accounts.Governed.step (h : s.Governed) (o : AccountOp) (fails : Bool) :
    (AccountOp.sem o fails s).2.Governed ∧
      (s.registry.db.HasAdmin → (AccountOp.sem o fails s).2.registry.db.HasAdmin) := by
  cases fails with
  | true => cases o <;> exact ⟨h, id⟩
  | false =>
    cases o with
    | getByUsername username => exact ⟨h, id⟩
    | createAdmin username passwordHash =>
      simp only [AccountOp.sem, AccountOp.exec, DB.createAdmin]
      split_ifs
      · exact ⟨h, id⟩
      · have hnew : (s.registry.db.addUser username passwordHash true).HasAdmin :=
          ⟨_, List.mem_append_right _ (List.mem_singleton_self _), rfl⟩
        exact ⟨⟨h.wf.addUser .., .inl hnew⟩, fun _ => hnew⟩
    | insertInvite createdBy code now ttl =>
      simp only [AccountOp.sem, AccountOp.exec, Registry.insertInvite]
      split_ifs with htaken huser
      · exact ⟨h, id⟩
      · exact ⟨h, id⟩
      · -- the creator is a user, so there is an administrator
        have hcreator : s.registry.db.hasUser createdBy = true := by simpa using huser
        obtain ⟨u, hu, -⟩ := List.any_eq_true.mp hcreator
        exact ⟨⟨h.wf, .inl (h.hasAdmin hu)⟩, id⟩
    | register username passwordHash code now =>
      simp only [AccountOp.sem, AccountOp.exec, Registry.register]
      split_ifs with htaken hinvites
      · exact ⟨h, id⟩
      · exact ⟨h, id⟩
      · -- before the first administrator there is no invite, and no registration without one
        rcases h.admin with hadmin | ⟨-, hnone⟩
        · have hnew := hasAdmin_addUser hadmin username passwordHash false
          exact ⟨⟨h.wf.addUser .., .inl hnew⟩, fun _ => hnew⟩
        · rw [hnone] at hinvites
          simp at hinvites
    | deleteCascade targetID =>
      have hwf := (StoreOp.deleteCascade targetID).exec_wf h.wf
      simp only [AccountOp.sem, AccountOp.exec, Accounts.deleteCascade, Registry.deleteCascade]
      rcases DB.deleteCascade_footprint h.wf targetID with
        ⟨heq, -⟩ | ⟨heq, -⟩ | ⟨r, db', heq, hfoot, hkeep⟩
      · rw [heq]
        exact ⟨h, id⟩
      · rw [heq]
        exact ⟨h, id⟩
      · -- the last administrator is refused above; invites stay and forget the user
        simp only [StoreOp.exec, heq] at hwf ⊢
        refine ⟨⟨hwf, ?_⟩, hkeep⟩
        rcases h.admin with hadmin | ⟨hnobody, hnone⟩
        · exact .inl (hkeep hadmin)
        · refine .inr ⟨?_, ?_⟩
          · rw [hfoot.users, hnobody]
            rfl
          · show (s.registry.invites.rows.map _) = []
            rw [hnone]
            rfl

/-- A startup that succeeds does so with an administrator there. -/
def Vouches : Prog AccountOp AccountOp.Result AccountReply → Accounts → Prop
  | .pure (.ensured (.ok ())), s => s.registry.db.HasAdmin
  | .pure _, _ => True
  | .op o k, _ => ∀ fails s, s.Governed →
    Vouches (k (AccountOp.sem o fails s).1) (AccountOp.sem o fails s).2

theorem Vouches.mono {p : Prog AccountOp AccountOp.Result AccountReply} {s' : Accounts}
    (h : Vouches p s) (hs : s.registry.db.HasAdmin → s'.registry.db.HasAdmin) : Vouches p s' := by
  cases p with
  | pure reply =>
    cases reply with
    | ensured res =>
      cases res with
      | error e => trivial
      | ok done => exact hs h
    | _ => trivial
  | op o k => exact h

theorem vouches_ensureAdmin (username password : String) (hashed : Option String) (s : Accounts) :
    Vouches ((AccountCall.ensureAdmin username password hashed).prog) s := by
  simp only [AccountCall.prog, LanWeave.ensureAdmin]
  split_ifs
  · trivial
  intro fails s hs
  cases fails with
  | true => trivial
  | false =>
    simp only [AccountOp.sem, AccountOp.exec]
    cases hfind : s.registry.db.users.find? fun u => nocase u.username = nocase username with
    | some u => exact hs.hasAdmin (List.mem_of_find?_eq_some hfind)
    | none =>
      cases hashed with
      | none => trivial
      | some hash =>
        intro fails s hs
        cases fails with
        | true => trivial
        | false =>
          simp only [AccountOp.sem, AccountOp.exec, DB.createAdmin]
          split_ifs with htaken
          · -- somebody has the name by now
            obtain ⟨u, hu, -⟩ := List.any_eq_true.mp htaken
            exact hs.hasAdmin hu
          · exact ⟨_, List.mem_append_right _ (List.mem_singleton_self _), rfl⟩

theorem vouches_bind {α : Type} (p : Prog AccountOp AccountOp.Result α) {f : α → AccountReply}
    (hf : ∀ a res, f a ≠ .ensured res) (s : Accounts) : Vouches (p >>= fun a => .pure (f a)) s := by
  induction p generalizing s with
  | pure a =>
    show Vouches (.pure (f a)) s
    have hne := hf a
    cases hreply : f a with
    | ensured res => exact absurd hreply (hne res)
    | _ => trivial
  | op o k ih => exact fun fails s _ => ih _ _

theorem AccountCall.vouches (c : AccountCall) (s : Accounts) : Vouches c.prog s := by
  cases c with
  | ensureAdmin username password hashed => exact vouches_ensureAdmin username password hashed s
  | createInvite createdBy now ttl draw => exact vouches_bind _ (fun _ _ heq => by cases heq) s
  | register username passwordHash code now => exact fun _ _ _ => trivial
  | deleteUser targetID => exact fun _ _ _ => trivial

section
variable {τ : Type} [DecidableEq τ] {c : Config τ
  (Prog AccountOp AccountOp.Result AccountReply) Accounts}

theorem governed_exec (hs : c.shared.Governed) (hc : ∀ t, Vouches (c.threads t) c.shared)
    (sched : List (τ × Bool)) :
    (c.exec (machine AccountOp.sem) sched).shared.Governed ∧
      (∀ t, Vouches ((c.exec (machine AccountOp.sem) sched).threads t)
        (c.exec (machine AccountOp.sem) sched).shared) ∧
      (c.shared.registry.db.HasAdmin →
        (c.exec (machine AccountOp.sem) sched).shared.registry.db.HasAdmin) := by
  induction sched generalizing c with
  | nil => exact ⟨hs, hc, id⟩
  | cons x sched ih =>
    obtain ⟨t, fails⟩ := x
    have ht := hc t
    obtain ⟨hgov, hkeep, hself⟩ : (machine AccountOp.sem (c.threads t) fails c.shared).2.Governed ∧
        (c.shared.registry.db.HasAdmin →
          (machine AccountOp.sem (c.threads t) fails c.shared).2.registry.db.HasAdmin) ∧
        Vouches (machine AccountOp.sem (c.threads t) fails c.shared).1
          (machine AccountOp.sem (c.threads t) fails c.shared).2 := by
      cases hop : c.threads t with
      | pure reply =>
        rw [hop] at ht
        exact ⟨hs, id, ht⟩
      | op o k =>
        rw [hop] at ht
        obtain ⟨hgov, hkeep⟩ := hs.step o fails
        exact ⟨hgov, hkeep, ht fails c.shared hs⟩
    have hthreads : ∀ u, Vouches ((c.step (machine AccountOp.sem) t fails).threads u)
        (c.step (machine AccountOp.sem) t fails).shared := by
      intro u
      by_cases hu : u = t
      · rw [hu, Config.step_self, Config.step_shared]
        exact hself
      · rw [Config.step_other c hu, Config.step_shared]
        exact (hc u).mono hkeep
    obtain ⟨hgov', hvouch, hlater⟩ := ih (c := c.step (machine AccountOp.sem) t fails) hgov hthreads
    exact ⟨hgov', hvouch, fun h => hlater (hkeep h)⟩

end

def Accounts.empty : Accounts := ⟨⟨DB.empty, ⟨[], 0⟩⟩, [], 0⟩

theorem Accounts.empty_governed : Accounts.empty.Governed := ⟨DB.empty_wf, .inr ⟨rfl, rfl⟩⟩

/-- Deleting a user is refused and changes nothing, or takes exactly the user's footprint away;
and from the first startup that has succeeded on, there is an administrator, whatever calls
are in flight and whichever of their operations fail. -/
theorem user_deletion_footprint :
    (∀ (s : Accounts) (userID : Int), s.registry.db.Wf →
      (s.deleteCascade userID = (.error .userNotFound, s) ∧ s.registry.db.hasUser userID = false) ∨
      (s.deleteCascade userID = (.error .lastAdmin, s) ∧ s.registry.db.OnlyAdmin userID) ∨
      ∃ r s', s.deleteCascade userID = (.ok r, s') ∧
        DB.Footprint s.registry.db s'.registry.db userID ∧
        s'.refreshTokens = s.refreshTokens.filter (fun row => row.userID ≠ userID) ∧
        s'.registry.invites.rows = s.registry.invites.rows.map (·.forget userID)) ∧
    ∀ (τ : Type) [DecidableEq τ] (calls : τ → AccountCall) (earlier later : List (τ × Bool)) (t : τ),
      ((⟨fun t => (calls t).prog, Accounts.empty⟩ : Config τ _ Accounts).exec
        (machine AccountOp.sem) earlier).threads t = .pure (.ensured (.ok ())) →
      ((⟨fun t => (calls t).prog, Accounts.empty⟩ : Config τ _ Accounts).exec
        (machine AccountOp.sem) (earlier ++ later)).shared.registry.db.HasAdmin := by
  constructor
  · intro s userID hw
    simp only [Accounts.deleteCascade, Registry.deleteCascade]
    rcases DB.deleteCascade_footprint hw userID with ⟨heq, hno⟩ | ⟨heq, honly⟩ | ⟨r, db', heq, hfoot, -⟩
    · rw [heq]
      exact .inl ⟨rfl, hno⟩
    · rw [heq]
      exact .inr (.inl ⟨rfl, honly⟩)
    · rw [heq]
      exact .inr (.inr ⟨r, _, rfl, hfoot, rfl, rfl⟩)
  · intro τ _ calls earlier later t hdone
    obtain ⟨hgov, hvouch, -⟩ := governed_exec (c := ⟨fun t => (calls t).prog, Accounts.empty⟩)
      Accounts.empty_governed (fun t => (calls t).vouches _) earlier
    have hadmin := hvouch t
    rw [hdone] at hadmin
    rw [Config.exec_append]
    exact (governed_exec hgov hvouch later).2.2 hadmin

def labAccount : AccountCall := .ensureAdmin "ada" "pw" (some "hash")

/-- Bob's zone, with his own subnet and one of cy's, who announces another in two zones. -/
def labOwnerDB : DB where
  users := [⟨1, "ada", "", true⟩, ⟨2, "bob", "", false⟩, ⟨3, "cy", "", false⟩]
  nodes := [⟨1, 2, "router", "bob's", 0x0A000002, "openwrt"⟩,
    ⟨2, 3, "router", "cy's", 0x0A000003, "openwrt"⟩]
  zones := [⟨1, "lab", "", 2⟩, ⟨2, "home", "", 1⟩]
  zoneMembers := [⟨1, 1⟩, ⟨1, 2⟩, ⟨2, 2⟩]
  announcements := [⟨1, 1, 0xC0A80700, 24, 0x647F0000⟩, ⟨2, 2, 0xC0A80700, 24, 0x647F0100⟩,
    ⟨3, 2, 0xC0A80800, 24, 0x647F0200⟩]
  announcementZones := [⟨1, 1⟩, ⟨2, 1⟩, ⟨3, 1⟩, ⟨3, 2⟩]
  seqUsers := 3
  seqNodes := 2
  seqZones := 2
  seqAnnouncements := 3

theorem labOwnerDB_wf : labOwnerDB.Wf := by
  constructor <;> first
    | decide
    | simp [labOwnerDB, Ascending, Keyed, Announcement.real, Announcement.synthetic]

/-- Bob has invited cy, and both are signed in. -/
def labOwner : Accounts where
  registry := ⟨labOwnerDB, ⟨[⟨1, "code", some 2, some 3, some "", "", none⟩], 1⟩⟩
  refreshTokens := [⟨1, 2, "bob's", "", none, ""⟩, ⟨2, 3, "cy's", "", none, ""⟩]
  seqRefreshTokens := 2

/-- Of the zone only cy's second subnet stays, which is announced elsewhere too. -/
theorem user_deletion_footprint_lab :
    (∃ r s', labOwner.deleteCascade 2 = (.ok r, s') ∧
      s'.registry.db.zones = [⟨2, "home", "", 1⟩] ∧
      s'.registry.db.announcements = [⟨3, 2, 0xC0A80800, 24, 0x647F0200⟩] ∧
      s'.registry.db.announcementZones = [⟨3, 2⟩] ∧
      s'.refreshTokens = [⟨2, 3, "cy's", "", none, ""⟩] ∧
      s'.registry.invites.rows = [⟨1, "code", none, some 3, some "", "", none⟩]) ∧
    ((⟨fun _ => labAccount.prog, Accounts.empty⟩ : Config Unit _ Accounts).exec
      (machine AccountOp.sem) [((), false), ((), false)]).shared.registry.db.HasAdmin := by
  obtain ⟨hdelete, hstart⟩ := user_deletion_footprint
  constructor
  · rcases hdelete labOwner 2 labOwnerDB_wf with
      ⟨-, hno⟩ | ⟨-, hno⟩ | ⟨r, s', heq, hfoot, htokens, hinvites⟩
    · exact absurd hno (by decide)
    · exact absurd (hno.2 ⟨1, "ada", "", true⟩ List.mem_cons_self rfl) (by decide)
    · refine ⟨r, s', heq, hfoot.zones.trans ?_, hfoot.announcements.trans ?_,
        hfoot.announcementZones.trans ?_, htokens, hinvites⟩ <;> decide
  · exact hstart Unit (fun _ => labAccount) [((), false), ((), false)] [] () rfl

end
end LanWeave

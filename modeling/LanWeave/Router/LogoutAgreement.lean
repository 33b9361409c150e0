import LanWeave.Library.Turns
import LanWeave.Router.AnnounceAdd

/-! The router's sign-out against its server: what becomes of it where an attempt finds the node
gone, and what a sign-out that refuses leaves as it was. -/

namespace LanWeave
open Library Prog Cli

def wipeOps : List HostOp :=
  [.engineDown, .teardownNat, .deleteKey .deviceKey, .deleteKey .sessionToken, .deleteKey .refreshToken,
    .clearState]

def Wiped (tr : List (HostOp × Conditions)) : Prop := ∀ o ∈ wipeOps, o ∈ tr.map Prod.fst

section
variable {κ : Type} [DecidableEq κ]

/-- The server has no node of this id any more. -/
def Gone (s : Installation κ) (nodeID : Int) : Prop := ∀ n ∈ s.site.world.db.nodes, n.id ≠ nodeID

instance (s : Installation κ) (nodeID : Int) : Decidable (Gone s nodeID) :=
  inferInstanceAs (Decidable (∀ n ∈ s.site.world.db.nodes, n.id ≠ nodeID))

/-- The step is a deletion of a node that is gone, and reaches the server, which answers. -/
def FindsGone (s : Installation κ) : HostOp → Conditions → Bool
  | .http c (.deleteNode id), e =>
    c.accepts e.transit.fingerprint e.transit.verifies && e.transit.fate.isServed && Gone s id
  | _, _ => false

/-- At some attempt the device's node no longer existed on the reachable server. -/
def AbsentSeen (h : Handlers κ) (i : Identity) (s : Installation κ) (tr : List (HostOp × Conditions)) :
    Prop :=
  ∃ x ∈ steps (Installation.sem h i) s tr, FindsGone x.1 x.2.1 x.2.2 = true

instance (h : Handlers κ) (i : Identity) (s : Installation κ) (tr : List (HostOp × Conditions)) :
    Decidable (AbsentSeen h i s tr) :=
  inferInstanceAs (Decidable (∃ x ∈ steps (Installation.sem h i) s tr, FindsGone x.1 x.2.1 x.2.2 = true))

/-- The key store, the state file, the tunnel and the table. -/
def Installation.belongings (s : Installation κ) :
    (KeyName → Option String) × Option Record × Bool × Option Natctl.Table :=
  (s.keys, s.file, s.link, s.nat)

/-- What is asked of a sign-out: where the node is gone it completes, and where it does not wipe
it touches nothing. -/
structure SignsOut (h : Handlers κ) (i : Identity) (s : Installation κ) (tr : List (HostOp × Conditions))
    (s' : Installation κ) : Prop where
  gone_wipes : AbsentSeen h i s tr → Wiped tr
  refused_keeps : ¬Wiped tr → s'.belongings = s.belongings

variable {h : Handlers κ} {i : Identity} {s s' : Installation κ} {tr tr' : List (HostOp × Conditions)}
  {α : Type} {p : Cli α} {a : α} {c c' : ApiClient} {nodeID : Int}

theorem absentSeen_append (hrun : p.Runs (Installation.sem h i) s tr a s') :
    AbsentSeen h i s (tr ++ tr') ↔ AbsentSeen h i s tr ∨ AbsentSeen h i s' tr' := by
  unfold AbsentSeen
  rw [hrun.steps_append]
  simp only [List.mem_append, or_and_right, exists_or]

theorem not_absentSeen_of_only {ok : HostOp → Prop} (hp : p.Only ok)
    (hrun : p.Runs (Installation.sem h i) s tr a s') (hok : ∀ c id, ¬ok (.http c (.deleteNode id))) :
    ¬AbsentSeen h i s tr := by
  rintro ⟨⟨s₁, o, e⟩, hmem, hfinds⟩
  have ho : ok o := hp.runs hrun _ (mem_of_mem_steps hmem)
  cases o with
  | http c call =>
    cases call with
    | deleteNode id => exact hok c id ho
    | _ => cases hfinds
  | _ => cases hfinds

theorem ends_deleteNode_gone {parseKey : String → Option κ} {w : World κ}
    (hgone : ∀ n ∈ w.db.nodes, n.id ≠ nodeID) :
    Ends parseKey w (LanWeave.deleteNode (some i) (toString nodeID)) fun _ _ => False := by
  apply ends_pathID
  intro id hid
  rw [parseInt64_toString] at hid
  obtain rfl := Option.some.inj (Option.filter_eq_some_iff.mp hid).1
  apply ends_ownedNode
  intro n hn hid
  exact absurd hid (hgone n hn)

theorem respond_gone {t : Transit} (hgone : Gone s nodeID) :
    (s.site.respond h i t (.deleteNode nodeID)).2.world = s.site.world ∧
      ∀ body, (s.site.respond h i t (.deleteNode nodeID)).1 ≠ .ok (some body) := by
  obtain ⟨hwire, hworld⟩ := @respond_call κ _ h i t s.site (.deleteNode nodeID)
    (.deleteNode (toString nodeID)) rfl fun _ => Call.noConfusion
  rcases @ends_deleteNode_gone κ _ i nodeID h.parseKey s.site.world hgone with ⟨r, herr, hrun⟩ | hfalse
  · change _ = (Prog.run (sem h.parseKey) false (LanWeave.deleteNode (some i) (toString nodeID))
      s.site.world).2 at hworld
    rw [hrun] at hworld
    refine ⟨hworld, fun body hok => ?_⟩
    have hanswer : (Prog.run (sem h.parseKey) false (handle h.toServer ⟨some i, .deleteNode
        (toString nodeID)⟩) s.site.world).1 = r := congrArg Prod.fst hrun
    rw [hok, hanswer] at hwire
    obtain ⟨hnoError, -⟩ := wire_plain_ok hwire.symm
    rw [herr] at hnoError
    cases hnoError
  · exact hfalse.elim

/-- Whatever becomes of the attempt, the client does not take the node for deleted, and it stays
gone. -/
theorem exchange_gone {t : Transit} (hgone : Gone s nodeID) :
    (s.site.exchange h i t c (.deleteNode nodeID)).2.world = s.site.world ∧
      (c.outcome (.deleteNode nodeID)
        (s.site.exchange h i t c (.deleteNode nodeID)).1).toBool = false := by
  obtain ⟨hworld, hrefused⟩ := @respond_gone κ _ h i s nodeID t hgone
  constructor
  · unfold Site.exchange
    split_ifs
    · rfl
    · cases t.fate with
      | served => exact hworld
      | unanswered => exact hworld
      | _ => rfl
  · cases hout : c.outcome (.deleteNode nodeID) (s.site.exchange h i t c (.deleteNode nodeID)).1 with
    | error err => rfl
    | ok body =>
      have hserved := congrArg Prod.fst (served_of_ok hout)
      exact absurd hserved (hrefused body)

variable {call : ApiCall} {res : Except ApiErr Unit} {more : Nat}

theorem runs_attempt {r : Except ApiErr call.Body} :
    (attempt c call).Runs (Installation.sem h i) s tr r s' ↔
    ∃ e : Conditions, tr = [(.http c call, e)] ∧
      r = c.outcome call (s.site.exchange h i e.transit c call).1 ∧
      s' = { s with site := (s.site.exchange h i e.transit c call).2 } := by
  constructor
  · intro hrun
    obtain ⟨e, tr', rfl, rfl, rfl, rfl⟩ := hrun
    exact ⟨e, rfl, rfl, rfl⟩
  · intro hrun
    obtain ⟨e, rfl, rfl, rfl⟩ := hrun
    exact ⟨e, [], rfl, rfl, rfl, rfl⟩

theorem attempt_gone (hgone : Gone s nodeID)
    (hrun : (attempt c (.deleteNode nodeID)).Runs (Installation.sem h i) s tr res s') :
    res.toBool = false ∧ Gone s' nodeID := by
  obtain ⟨e, -, rfl, rfl⟩ := runs_attempt.mp hrun
  obtain ⟨hworld, hout⟩ := @exchange_gone κ _ h i s c nodeID e.transit hgone
  refine ⟨hout, fun n hn => hgone n ?_⟩
  rw [← hworld]
  exact hn

theorem runs_refresh {renewed : Bool × ApiClient}
    (hrun : (Cli.refresh c).Runs (Installation.sem h i) s tr renewed s') :
    s'.site = s.site ∧ ¬AbsentSeen h i s tr := by
  have honly : (Cli.refresh c).Only fun o => ∃ c rt, o = .http c (.refresh rt) :=
    only_refresh fun c rt => ⟨c, rt, rfl⟩
  constructor
  · obtain ⟨log, hsay⟩ := exists_says_iff.mpr ⟨tr, hrun⟩
    exact (says_refresh hsay).1
  · apply not_absentSeen_of_only honly hrun
    intro c' id hdelete
    obtain ⟨c, rt, heq⟩ := hdelete
    injection heq with _ heq
    cases heq

theorem request_gone (hgone : Gone s nodeID)
    (hrun : (request c (.deleteNode nodeID)).Runs (Installation.sem h i) s tr (res, c') s') :
    res.toBool = false ∧ Gone s' nodeID := by
  obtain ⟨first, tr₂, res₁, s₁, rfl, hfirst, hrest⟩ := runs_bind.mp hrun
  obtain ⟨hres, hgone₁⟩ := attempt_gone hgone hfirst
  split_ifs at hrest
  · obtain ⟨renewal, tr₃, ⟨renewed, c₁⟩, s₂, rfl, hrenewal, hlast⟩ := runs_bind.mp hrest
    obtain ⟨hsame, -⟩ := runs_refresh hrenewal
    have hgone₂ : Gone s₂ nodeID := by
      unfold Gone
      rw [hsame]
      exact hgone₁
    cases renewed with
    | false =>
      obtain ⟨-, hend, rfl⟩ := hlast
      obtain ⟨rfl, -⟩ := Prod.mk.inj hend
      exact ⟨hres, hgone₂⟩
    | true =>
      obtain ⟨again, tr₄, res₂, s₃, rfl, hagain, hend⟩ := runs_bind.mp hlast
      obtain ⟨-, hend, rfl⟩ := hend
      obtain ⟨rfl, -⟩ := Prod.mk.inj hend
      exact attempt_gone hgone₂ hagain
  · obtain ⟨-, hend, rfl⟩ := hrest
    obtain ⟨rfl, -⟩ := Prod.mk.inj hend
    exact ⟨hres, hgone₁⟩

theorem attempt_finds (hseen : AbsentSeen h i s tr)
    (hrun : (attempt c (.deleteNode nodeID)).Runs (Installation.sem h i) s tr res s') :
    Gone s nodeID := by
  obtain ⟨e, rfl, -, -⟩ := runs_attempt.mp hrun
  obtain ⟨x, hmem, hfinds⟩ := hseen
  obtain rfl := List.mem_singleton.mp hmem
  obtain ⟨-, hgone⟩ := Bool.and_eq_true_iff.mp hfinds
  exact of_decide_eq_true hgone

/-- A deletion that comes upon a node that is gone has found it gone from its start. -/
theorem request_finds (hseen : AbsentSeen h i s tr)
    (hrun : (request c (.deleteNode nodeID)).Runs (Installation.sem h i) s tr (res, c') s') :
    Gone s nodeID := by
  obtain ⟨first, tr₂, res₁, s₁, rfl, hfirst, hrest⟩ := runs_bind.mp hrun
  rcases (absentSeen_append hfirst).mp hseen with hseen | hseen
  · exact attempt_finds hseen hfirst
  · split_ifs at hrest with hagain
    · -- the first attempt found the session expired, and so has deleted nothing
      obtain ⟨e, -, hout, rfl⟩ := runs_attempt.mp hfirst
      simp only [Bool.and_eq_true] at hagain
      have hexpired := eq_of_expired hagain.1.2
      have hsite := exchange_of_expired (hout.symm.trans hexpired)
      obtain ⟨renewal, tr₃, ⟨renewed, c₁⟩, s₂, rfl, hrenewal, hlast⟩ := runs_bind.mp hrest
      obtain ⟨hsame, hnone⟩ := runs_refresh hrenewal
      have hseen₂ := ((absentSeen_append hrenewal).mp hseen).resolve_left hnone
      cases renewed with
      | false =>
        obtain ⟨rfl, -⟩ := hlast
        obtain ⟨x, hmem, -⟩ := hseen₂
        exact absurd hmem List.not_mem_nil
      | true =>
        obtain ⟨again, tr₄, res₂, s₃, rfl, hagain, rfl, -⟩ := runs_bind.mp hlast
        rw [List.append_nil] at hseen₂
        have hgone := attempt_finds hseen₂ hagain
        unfold Gone at hgone ⊢
        rw [hsame, hsite] at hgone
        exact hgone
    · obtain ⟨rfl, -⟩ := hrest
      obtain ⟨x, hmem, -⟩ := hseen
      exact absurd hmem List.not_mem_nil

theorem deleteNode_gone (hgone : Gone s nodeID)
    (hrun : (Cli.deleteNode c nodeID more).Runs (Installation.sem h i) s tr (res, c') s') :
    res.toBool = false := by
  induction more generalizing c s tr with
  | zero => exact (request_gone hgone hrun).1
  | succ more ih =>
    obtain ⟨tr₁, tr₂, ⟨res₁, c₁⟩, s₁, rfl, hfirst, hrest⟩ := runs_bind.mp hrun
    obtain ⟨hres, hgone₁⟩ := request_gone hgone hfirst
    cases res₁ with
    | ok body => cases hres
    | error err => exact ih hgone₁ hrest

/-- The attempts succeed only if none of them has come upon a node that is gone. -/
theorem deleteNode_finds (hseen : AbsentSeen h i s tr)
    (hrun : (Cli.deleteNode c nodeID more).Runs (Installation.sem h i) s tr (res, c') s') :
    res.toBool = false := by
  induction more generalizing c s tr with
  | zero => exact (request_gone (request_finds hseen hrun) hrun).1
  | succ more ih =>
    obtain ⟨tr₁, tr₂, ⟨res₁, c₁⟩, s₁, rfl, hfirst, hrest⟩ := runs_bind.mp hrun
    rcases (absentSeen_append hfirst).mp hseen with hseen | hseen
    · have hgone := request_finds hseen hfirst
      exact deleteNode_gone hgone hrun
    · cases res₁ with
      | ok body =>
        obtain ⟨rfl, -⟩ := hrest
        obtain ⟨x, hmem, -⟩ := hseen
        exact absurd hmem List.not_mem_nil
      | error err => exact ih hseen hrest

/-- What a sign-out does up to the answer about the node. -/
def HostOp.asks : HostOp → Prop
  | .readState | .getKey _ | .http .. => True
  | _ => False

theorem belongings_of_asks {o : HostOp} (ho : o.asks) (e : Conditions) (s : Installation κ) :
    (Installation.sem h i o e s).2.belongings = s.belongings := by
  cases o with
  | readState => rfl
  | getKey k => rfl
  | http c call => rfl
  | _ => exact ho.elim

theorem only_deleteNode_asks (more : Nat) : (Cli.deleteNode c nodeID more).Only HostOp.asks := by
  have hrequest : ∀ c, (request c (.deleteNode nodeID)).Only HostOp.asks :=
    fun c => only_request (fun _ => trivial) fun _ _ => trivial
  induction more generalizing c with
  | zero => exact hrequest c
  | succ more ih =>
    apply (hrequest c).bind
    intro r
    dsimp only
    split
    · trivial
    · exact ih

theorem wipeOps_wipe {code : Nat} (hrun : wipe.Runs (Installation.sem h i) s tr code s') :
    tr.map Prod.fst = wipeOps := by
  obtain ⟨_, _, rfl, _, _, rfl, _, _, rfl, _, _, rfl, _, _, rfl, _, _, rfl, rfl, -⟩ := hrun
  rfl

theorem not_wiped_of_asks (htr : ∀ x ∈ tr, x.1.asks) : ¬Wiped tr := by
  intro hwiped
  obtain ⟨x, hx, heq⟩ := List.mem_map.mp (hwiped .clearState (by simp [wipeOps]))
  have hasks := htr x hx
  rw [heq] at hasks
  exact hasks

theorem belongings_of_runs {s s' : Installation κ} (hrun : p.Runs (Installation.sem h i) s tr a s')
    (htr : ∀ x ∈ tr, x.1.asks) : s'.belongings = s.belongings :=
  hrun.keeps fun x hx s => belongings_of_asks (htr x hx) x.2 s

theorem only_loadLoose : loadLoose.Only fun o => o = .readState := by
  refine ⟨rfl, fun r => ?_⟩
  rcases r with _ | _ | r <;> trivial

theorem wipes_of_deleted {code : Nat}
    (hrun : (do let _ ← Cli.logout c; wipe : Cli Nat).Runs (Installation.sem h i) s tr code s') :
    (∀ o ∈ wipeOps, o ∈ tr.map Prod.fst) ∧ ¬AbsentSeen h i s tr := by
  obtain ⟨tr₁, tr₂, _, s₁, rfl, hrevoke, hwipe⟩ := runs_bind.mp hrun
  have honly : (Cli.logout c).Only fun o => ∃ c rt, o = .http c (.logout rt) := by
    unfold Cli.logout
    split_ifs
    · trivial
    · exact only_attempt ⟨c, _, rfl⟩
  have hrevoked : ¬AbsentSeen h i s tr₁ := by
    apply not_absentSeen_of_only honly hrevoke
    intro c' id hdelete
    obtain ⟨c, rt, heq⟩ := hdelete
    injection heq with _ heq
    cases heq
  have hwiped := wipeOps_wipe hwipe
  constructor
  · intro o ho
    rw [List.map_append, hwiped]
    exact List.mem_append_right _ ho
  · intro hseen
    obtain ⟨⟨s₂, o, e⟩, hmem, hfinds⟩ := ((absentSeen_append hrevoke).mp hseen).resolve_left hrevoked
    have ho : o ∈ wipeOps := by
      rw [← hwiped]
      exact List.mem_map_of_mem (mem_of_mem_steps hmem)
    simp only [wipeOps, List.mem_cons, List.not_mem_nil, or_false] at ho
    rcases ho with rfl | rfl | rfl | rfl | rfl | rfl <;> cases hfinds

theorem runs_cmdLogout {insecure : Bool} {code : Nat}
    (hrun : (cmdLogout insecure false).Runs (Installation.sem h i) s tr code s') :
    (∀ x ∈ tr, x.1.asks) ∨ Wiped tr ∧ ¬AbsentSeen h i s tr := by
  obtain ⟨tr₁, tr₂, loaded, s₁, rfl, hload, hrest⟩ := runs_bind.mp hrun
  have hread := only_loadLoose.runs hload
  have hquiet : ¬AbsentSeen h i s tr₁ :=
    not_absentSeen_of_only only_loadLoose hload fun _ _ => HostOp.noConfusion
  have hasks₁ : ∀ x ∈ tr₁, x.1.asks := by
    intro x hx
    rw [hread x hx]
    trivial
  cases loaded with
  | none =>
    obtain ⟨rfl, -⟩ := hrest
    rw [List.append_nil]
    exact .inl hasks₁
  | some rec =>
    obtain ⟨tr₃, tr₄, client, s₂, rfl, hclient, hrest⟩ := runs_bind.mp hrest
    have honly : (newClient insecure rec).Only fun o => ∃ k, o = .getKey k :=
      only_newClient fun k => ⟨k, rfl⟩
    have hkeys : ¬AbsentSeen h i s₁ tr₃ := by
      apply not_absentSeen_of_only honly hclient
      rintro c id ⟨k, heq⟩
      cases heq
    have hasks₃ : ∀ x ∈ tr₃, x.1.asks := by
      intro x hx
      obtain ⟨k, hk⟩ := honly.runs hclient x hx
      rw [hk]
      trivial
    cases client with
    | none =>
      obtain ⟨rfl, -⟩ := hrest
      rw [List.append_nil]
      exact .inl (List.forall_mem_append.mpr ⟨hasks₁, hasks₃⟩)
    | some c =>
      dsimp only at hrest
      split_ifs at hrest
      · obtain ⟨rfl, -⟩ := hrest
        rw [List.append_nil]
        exact .inl (List.forall_mem_append.mpr ⟨hasks₁, hasks₃⟩)
      · obtain ⟨tr₅, tr₆, ⟨res, c₁⟩, s₃, rfl, hdelete, hrest⟩ := runs_bind.mp hrest
        have hasks₅ := (only_deleteNode_asks 2).runs hdelete
        cases res with
        | error err =>
          obtain ⟨rfl, -⟩ := hrest
          rw [List.append_nil]
          exact .inl (List.forall_mem_append.mpr ⟨hasks₁, List.forall_mem_append.mpr ⟨hasks₃, hasks₅⟩⟩)
        | ok body =>
          -- the deletion succeeded, which it does only if no attempt has come upon a node that is
          -- gone
          obtain ⟨hwiped, hnone⟩ := wipes_of_deleted hrest
          refine .inr ⟨fun o ho => ?_, fun hseen => ?_⟩
          · simp only [List.map_append]
            exact List.mem_append_right _ (List.mem_append_right _
              (List.mem_append_right _ (hwiped o ho)))
          · have hseen₂ := ((absentSeen_append hload).mp hseen).resolve_left hquiet
            have hseen₄ := ((absentSeen_append hclient).mp hseen₂).resolve_left hkeys
            have hseen₅ := ((absentSeen_append hdelete).mp hseen₄).resolve_right hnone
            have hfailed := deleteNode_finds hseen₅ hdelete
            cases hfailed

/-- The router's sign-out does what is asked of it unless one of its attempts comes upon a node
that is gone: there it refuses. -/
theorem signsOut_iff {insecure : Bool} {code : Nat}
    (hrun : (cmdLogout insecure false).Runs (Installation.sem h i) s tr code s') :
    SignsOut h i s tr s' ↔ ¬AbsentSeen h i s tr := by
  constructor
  · intro hsigns hseen
    rcases runs_cmdLogout hrun with hasks | ⟨-, hnone⟩
    · exact not_wiped_of_asks hasks (hsigns.gone_wipes hseen)
    · exact hnone hseen
  · intro hnone
    refine ⟨fun hseen => absurd hseen hnone, fun hrefused => ?_⟩
    rcases runs_cmdLogout hrun with hasks | ⟨hwiped, -⟩
    · exact belongings_of_runs hrun hasks
    · exact absurd hwiped hrefused

end

def labRouter : Installation String where
  site := ⟨rebuilt (labDB [⟨1, 1⟩]), ⟨[], 0⟩⟩
  file := some { Record.empty with serverURL := "https://lab", nodeID := 1 }
  keys := fun _ => some "token"
  nat := none
  link := true
  routes := []
  rule := false

def meeting (fate : Fate) : Conditions := { clashing with
    transit := { clashing.transit with fate := fate } }

/-- The sign-out whose attempts to delete the node have these fates. -/
def labSignOut (fates : List Fate) : Option (List (HostOp × Conditions) × Nat × Installation String) :=
  (cmdLogout false false).follow (Installation.sem labServer.bare ⟨1, "alice", true⟩) labRouter
    (List.replicate 3 (meeting .served) ++ fates.map meeting ++ List.replicate 7 (meeting .served))

theorem runs_labSignOut {fates : List Fate} (h : (labSignOut fates).isSome = true) :
    (cmdLogout false false).Runs (Installation.sem labServer.bare ⟨1, "alice", true⟩) labRouter
      ((labSignOut fates).get h).1 ((labSignOut fates).get h).2.1 ((labSignOut fates).get h).2.2 :=
  runs_follow (Option.some_get h).symm

theorem signsOut_iff_served : ∃ tr s', (cmdLogout false false).Runs
    (Installation.sem labServer.bare ⟨1, "alice", true⟩) labRouter tr 0 s' ∧
      SignsOut labServer.bare ⟨1, "alice", true⟩ labRouter tr s' := by
  have hrun := @runs_labSignOut [.served] (by decide +kernel)
  have hcode : ((labSignOut [.served]).get (by decide +kernel)).2.1 = 0 := by decide +kernel
  rw [hcode] at hrun
  exact ⟨_, _, hrun, (signsOut_iff hrun).mpr (by decide +kernel)⟩

/-- The node is deleted and the reply lost: the further attempts do not find it, and it refuses. -/
theorem refuses_after_lost_reply : ∃ tr s', (cmdLogout false false).Runs
    (Installation.sem labServer.bare ⟨1, "alice", true⟩) labRouter tr 1 s' ∧
      ¬SignsOut labServer.bare ⟨1, "alice", true⟩ labRouter tr s' := by
  have hrun := @runs_labSignOut [.unanswered, .served, .served] (by decide +kernel)
  have hcode : ((labSignOut [.unanswered, .served, .served]).get (by decide +kernel)).2.1 = 1 := by
    decide +kernel
  rw [hcode] at hrun
  have hseen : AbsentSeen labServer.bare ⟨1, "alice", true⟩ labRouter
      ((labSignOut [.unanswered, .served, .served]).get (by decide +kernel)).1 := by decide +kernel
  refine ⟨_, _, hrun, fun hsigns => ?_⟩
  rcases runs_cmdLogout hrun with hasks | ⟨-, hnone⟩
  · exact not_wiped_of_asks hasks (hsigns.gone_wipes hseen)
  · exact hnone hseen

end LanWeave

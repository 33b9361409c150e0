import LanWeave.Server.NodeAllocation
import LanWeave.Server.Resync

/-! A registration of a node during which no operation fails: the server takes it exactly when it
has room for it and neither the name nor the key is taken. -/

namespace LanWeave
open Library Prog

namespace DB
variable {db : DB} {userID : Int} {name pubKey platform : String} {ip : BitVec 32} {maxDevices : Int}

/-- The account has no node of this name. -/
def Unnamed (db : DB) (userID : Int) (name : String) : Prop :=
  ∀ n ∈ db.nodes, n.userID = userID → n.name ≠ name

def Unkeyed (db : DB) (pubKey : String) : Prop := ∀ n ∈ db.nodes, n.pubKey ≠ pubKey

def BelowCap (db : DB) (userID maxDevices : Int) : Prop :=
  0 < maxDevices → (db.countOf userID : Int) < maxDevices

theorem insertNode_ok (hbelow : db.BelowCap userID maxDevices) (hname : db.Unnamed userID name)
    (hip : ∀ n ∈ db.nodes, n.ip ≠ ip) (hkey : db.Unkeyed pubKey)
    (huser : ∃ u ∈ db.users, u.id = userID) :
    db.insertNode userID name pubKey platform ip maxDevices =
      (.ok (some (db.seqNodes + 1)), db.addNode userID name pubKey ip platform) := by
  have hcap : ¬(0 < maxDevices ∧ maxDevices ≤ (db.nodes.filter (·.userID = userID)).length) := by
    intro h
    have hlt := hbelow h.1
    unfold countOf at hlt
    omega
  have hnamed : ¬(db.nodes.any fun n => n.userID = userID ∧ n.name = name) = true := by
    simpa [Unnamed] using hname
  have haddressed : ¬(db.nodes.any (·.ip = ip)) = true := by simpa using hip
  have hkeyed : ¬(db.nodes.any (·.pubKey = pubKey)) = true := by simpa [Unkeyed] using hkey
  have hknown : ¬(!db.hasUser userID) = true := by simpa using hasUser_iff.mpr huser
  unfold insertNode
  rw [if_neg hcap, if_neg hnamed, if_neg haddressed, if_neg hkeyed, if_neg hknown]

theorem insertNode_refusal {e : StoreErr} (hip : ∀ n ∈ db.nodes, n.ip ≠ ip)
    (herr : (db.insertNode userID name pubKey platform ip maxDevices).1 = .error e) :
    isUniqueViolationOn e "nodes.ip" = false ∧
      (isUniqueViolationOn e "nodes.wg_pubkey" = true → ¬db.Unkeyed pubKey) := by
  unfold insertNode at herr
  split_ifs at herr with hcap hnamed haddressed hkeyed hknown
  · cases herr
    exact ⟨by decide, fun h => absurd h (by decide)⟩
  · simp only [List.any_eq_true, decide_eq_true_eq] at haddressed
    obtain ⟨n, hn, heq⟩ := haddressed
    exact absurd heq (hip n hn)
  · cases herr
    refine ⟨by decide, fun _ hall => ?_⟩
    simp only [List.any_eq_true, decide_eq_true_eq] at hkeyed
    obtain ⟨n, hn, heq⟩ := hkeyed
    exact hall n hn heq
  · cases herr
    exact ⟨by decide, fun h => absurd h (by decide)⟩

theorem nodes_withNode {n : Node} (hfits : NodeFits db n) : (db.withNode n).nodes = db.nodes ++ [n] := by
  obtain ⟨id, userID, name, pubKey, ip, platform⟩ := n
  obtain rfl : id = _ := hfits.id
  rfl

end DB

section
variable {κ : Type}

/-- The account may have a node of this name, if it has none yet. -/
structure Server.Admits (h : Server κ) (i : Identity) (db : DB) (name platform : String) : Prop where
  name : name ≠ "" ∧ byteLen name ≤ 64
  platform : platformPattern (if platform = "" then "unknown" else platform) = true
  address : ∃ first last ip, poolRange h.network = some (first, last) ∧
    db.lowestFree first last = .ok (some ip)
  below : db.BelowCap i.userID (i.cap h.maxDevicesPerUser)
  user : ∃ u ∈ db.users, u.id = i.userID

variable [DecidableEq κ] {w : World κ}

theorem createNode_cases {parseKey : String → Option κ} {userID : Int} {name pubKey platform : String}
    {first last : BitVec 32} {maxDevices : Int} {retries : Nat} (hretries : 0 < retries) :
    (∃ e, (createNode userID name pubKey platform first last maxDevices retries).run (sem parseKey)
        false w = (.error e, w) ∧ (e = .pubKeyTaken → ¬w.db.Unkeyed pubKey) ∧
        ¬((∃ ip, w.db.lowestFree first last = .ok (some ip)) ∧ w.db.BelowCap userID maxDevices ∧
          w.db.Unnamed userID name ∧ w.db.Unkeyed pubKey ∧ ∃ u ∈ w.db.users, u.id = userID)) ∨
    ∃ n : Node, n.userID = userID ∧ n.name = name ∧ n.pubKey = pubKey ∧
      w.db.lowestFree first last = .ok (some n.ip) ∧ w.db.BelowCap userID maxDevices ∧ NodeFits w.db n ∧
      (createNode userID name pubKey platform first last maxDevices retries).run (sem parseKey)
        false w = (.ok n, { w with db := w.db.withNode n }) := by
  obtain ⟨retries, rfl⟩ := Nat.exists_eq_succ_of_ne_zero hretries.ne'
  rw [Nat.succ_eq_add_one, createNode, run_store]
  cases hfree : w.db.lowestFree first last with
  | error e => cases hfree
  | ok free =>
    simp only [StoreOp.exec, hfree]
    cases free with
    | none =>
      refine .inl ⟨_, rfl, StoreErr.noConfusion, ?_⟩
      rintro ⟨⟨ip, hip⟩, -⟩
      cases hip
    | some ip =>
      have hunused : ∀ n ∈ w.db.nodes, n.ip ≠ ip := (DB.lowestFree_eq_some_iff.mp hfree).1.2.2
      dsimp only
      rw [run_store]
      -- the free address is nobody's, so whatever refuses the row is something else
      rcases @DB.insertNode_cases w.db userID name pubKey platform ip maxDevices with
        ⟨hsame, hno⟩ | ⟨hins, huser, hname, hip, hkey⟩
      · left
        have hrefused : ¬(w.db.BelowCap userID maxDevices ∧ w.db.Unnamed userID name ∧
          w.db.Unkeyed pubKey ∧
            ∃ u ∈ w.db.users, u.id = userID) := by
          rintro ⟨hbelow, hname, hkey, huser⟩
          exact hno _ (congrArg Prod.fst (DB.insertNode_ok hbelow hname hunused hkey huser))
        simp only [StoreOp.exec, hsame]
        cases hr : (w.db.insertNode userID name pubKey platform ip maxDevices).1 with
        | error e =>
          obtain ⟨hnotAddress, hkeyed⟩ := DB.insertNode_refusal hunused hr
          simp only [hnotAddress, Bool.false_eq_true, if_false]
          split_ifs with htaken
          · exact ⟨_, rfl, fun _ => hkeyed htaken, fun h => hrefused h.2⟩
          · exact ⟨_, rfl, StoreErr.noConfusion, fun h => hrefused h.2⟩
          · refine ⟨_, rfl, ?_, fun h => hrefused h.2⟩
            rintro rfl
            unfold DB.insertNode at hr
            split_ifs at hr <;> cases hr
        | ok inserted =>
          cases inserted with
          | none => exact ⟨_, rfl, StoreErr.noConfusion, fun h => hrefused h.2⟩
          | some id => exact absurd hr (hno id)
      · right
        have hbelow : w.db.BelowCap userID maxDevices := DB.insertNode_capped (congrArg Prod.fst hins)
        simp only [StoreOp.exec, hins]
        exact ⟨⟨w.db.seqNodes + 1, userID, name, pubKey, ip, platform⟩, rfl, rfl, rfl, rfl, hbelow,
          ⟨rfl, huser, hname, hip, hkey⟩, rfl⟩

def Response.saysKeyTaken (r : Response) : Prop := ∃ message, r.body = .error "pubkey_taken" message

theorem createNodeError_isError (e : StoreErr) : (createNodeError e).isError = true := by
  cases e <;> rfl

theorem not_saysKeyTaken {status : Nat} {code message : String} (hcode : code ≠ "pubkey_taken") :
    ¬(writeJSONError status code message).saysKeyTaken := by
  rintro ⟨_, hbody⟩
  injection hbody with hsame
  exact hcode hsame

theorem createNodeError_saysKeyTaken {e : StoreErr} (h : (createNodeError e).saysKeyTaken) :
    e = .pubKeyTaken := by
  cases e with
  | pubKeyTaken => rfl
  | _ => exact absurd h (not_saysKeyTaken (by decide))

/-- The request asks for a node that the account may have and does not have, with a key of its own. -/
structure Server.Takes (h : Server κ) (i : Identity) (db : DB) (req : RegisterNodeRequest) : Prop where
  admits : h.Admits i db (trimSpace req.name) req.platform
  name : db.Unnamed i.userID (trimSpace req.name)
  unkeyed : db.Unkeyed req.wgPubKey
  key : (h.parseKey req.wgPubKey).isSome = true

variable {h : Server κ} {i : Identity} {req : RegisterNodeRequest}

variable (h i req w) in
def Refuses (p : Handler Response) : Prop :=
  ∃ r, r.isError = true ∧ (r.saysKeyTaken → ¬w.db.Unkeyed req.wgPubKey) ∧
    p.run (sem h.parseKey) false w = (r, w) ∧ ¬h.Takes i w.db req

theorem refuses_return {r : Response} (herr : r.isError = true) (hcode : ¬r.saysKeyTaken)
    (hnot : ¬h.Takes i w.db req) : Refuses w h i req (return r) :=
  ⟨r, herr, fun h => absurd h hcode, rfl, hnot⟩

omit [DecidableEq κ] in
/-- The node that has been inserted is the one asked for. -/
theorem takes_of_fits {n : Node} {first last : BitVec 32} (hname : trimSpace req.name ≠ "" ∧
      byteLen (trimSpace req.name) ≤ 64) (hkey : (h.parseKey req.wgPubKey).isSome = true)
    (hplatform : platformPattern (if req.platform = "" then "unknown" else req.platform) = true)
    (hrange : poolRange h.network = some (first, last)) (huser : n.userID = i.userID)
    (hn : n.name = trimSpace req.name) (hpub : n.pubKey = req.wgPubKey)
    (hfree : w.db.lowestFree first last = .ok (some n.ip))
    (hbelow : w.db.BelowCap i.userID (i.cap h.maxDevicesPerUser)) (hfits : NodeFits w.db n) :
    h.Takes i w.db req := by
  have hadmits : h.Admits i w.db (trimSpace req.name) req.platform :=
    ⟨hname, hplatform, ⟨first, last, n.ip, hrange, hfree⟩, hbelow, huser ▸ hfits.user⟩
  refine ⟨hadmits, ?_, ?_, hkey⟩
  · intro m hm hmine hnamed
    refine hfits.name m hm ?_
    rw [hmine, hnamed, huser, hn]
  · intro m hm
    rw [← hpub]
    exact hfits.key m hm

omit [DecidableEq κ] in
/-- What stands against the insert stands against the request. -/
theorem not_takes_of_refused {first last : BitVec 32} (hrange : poolRange h.network = some (first, last))
    (hnot : ¬((∃ ip, w.db.lowestFree first last = .ok (some ip)) ∧
      w.db.BelowCap i.userID (i.cap h.maxDevicesPerUser) ∧ w.db.Unnamed i.userID (trimSpace req.name) ∧
      w.db.Unkeyed req.wgPubKey ∧ ∃ u ∈ w.db.users, u.id = i.userID)) : ¬h.Takes i w.db req := by
  intro htakes
  obtain ⟨_, _, ip, hpool, hip⟩ := htakes.admits.address
  obtain ⟨rfl, rfl⟩ := Prod.mk.inj (Option.some.inj (hrange.symm.trans hpool))
  exact hnot ⟨⟨ip, hip⟩, htakes.admits.below, htakes.name, htakes.unkeyed, htakes.admits.user⟩

variable (w h i req)

theorem registerNode_cases : Refuses w h i req (registerNode h (some i) (some req)) ∨
    ∃ n : Node, n.userID = i.userID ∧ n.name = trimSpace req.name ∧ n.pubKey = req.wgPubKey ∧
      h.Takes i w.db req ∧ NodeFits w.db n ∧
      ((registerNode h (some i) (some req)).run (sem h.parseKey) false w).1 =
        ⟨201, .node n.id n.name (uint32ToAddr n.ip) n.platform⟩ ∧
      ((registerNode h (some i) (some req)).run (sem h.parseKey) false w).2.db = w.db.withNode n := by
  unfold registerNode authenticated decoded
  dsimp only
  generalize hplatform : (if req.platform = "" then "unknown" else req.platform) = platform
  -- the checks in the order of the handler, each of them one of what the account may register
  split_ifs with hname hkey hpattern
  · left
    apply refuses_return rfl (not_saysKeyTaken (by decide))
    intro htakes
    rcases hname with hempty | hlong
    · exact htakes.admits.name.1 hempty
    · exact absurd htakes.admits.name.2 (by omega)
  · left
    apply refuses_return rfl (not_saysKeyTaken (by decide))
    intro htakes
    rw [Option.isNone_iff_eq_none] at hkey
    have hsome := htakes.key
    rw [hkey] at hsome
    cases hsome
  · left
    apply refuses_return rfl (not_saysKeyTaken (by decide))
    intro htakes
    rw [← hplatform, htakes.admits.platform] at hpattern
    cases hpattern
  · cases hrange : poolRange h.network with
    | none =>
      left
      apply refuses_return rfl (not_saysKeyTaken (by decide))
      intro htakes
      obtain ⟨first, last, ip, hpool, -⟩ := htakes.admits.address
      rw [hrange] at hpool
      cases hpool
    | some range =>
      obtain ⟨first, last⟩ := range
      dsimp only
      rcases @createNode_cases κ _ w h.parseKey i.userID (trimSpace req.name) req.wgPubKey
          platform first last (i.cap h.maxDevicesPerUser) maxAllocRetries (by decide) with
        ⟨e, hrun, htaken, hnot⟩ | ⟨n, huser, hn, hpub, hfree, hbelow, hfits, hrun⟩
      · left
        refine ⟨createNodeError e, createNodeError_isError e, ?_, ?_, not_takes_of_refused hrange hnot⟩
        · exact fun hsays => htaken (createNodeError_saysKeyTaken hsays)
        · rw [run_bind, hrun]
          rfl
      · right
        push Not at hname
        have hdecodes : (h.parseKey req.wgPubKey).isSome = true := by
          simpa [Option.isSome_iff_ne_none] using hkey
        have htakes := takes_of_fits hname hdecodes
          (by simpa [hplatform] using hpattern) hrange huser hn hpub
          hfree hbelow hfits
        refine ⟨n, huser, hn, hpub, htakes, hfits, ?_⟩
        rw [run_bind, hrun]
        dsimp only
        rw [addNodePeer, WgOp.addPeer, run_setPeerRoutes (hpub ▸ by simpa using hkey)]
        exact ⟨rfl, rfl⟩

end
end LanWeave

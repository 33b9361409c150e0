import LanWeave.Library.Turns
import LanWeave.Server.Issued
import Mathlib.Order.Bounds.Basic

/-! Node registrations and deletions in any interleaving: which address a registration takes, when it
finds none, and what the rows of the nodes keep throughout. -/

namespace LanWeave
open Library Prog

namespace DB
variable (db : DB) (first last : BitVec 32)

def free : Set (BitVec 32) := {ip | first ≤ ip ∧ ip ≤ last ∧ ∀ n ∈ db.nodes, n.ip ≠ ip}

/-- The candidates of the query that pass its filter. -/
def gaps : List Nat :=
  let ips := db.nodes.map (·.ip.toNat)
  let candidates := first.toNat ::
    (ips.filter fun ip => first.toNat ≤ ip && ip < last.toNat).map (· + 1)
  candidates.filter fun c => !ips.contains c && c ≤ last.toNat

theorem lowestFree_gaps :
    db.lowestFree first last = .ok ((db.gaps first last).min?.map (BitVec.ofNat 32)) := rfl

variable {db first last}

theorem mem_gaps {c : Nat} : c ∈ db.gaps first last ↔
    (c = first.toNat ∨ ∃ n ∈ db.nodes, first ≤ n.ip ∧ n.ip < last ∧ n.ip.toNat + 1 = c) ∧
      (∀ n ∈ db.nodes, n.ip.toNat ≠ c) ∧ c ≤ last.toNat := by
  simp [gaps, BitVec.le_def, BitVec.lt_def, and_assoc]

theorem mem_free_toNat {ip : BitVec 32} : ip ∈ db.free first last ↔
    first.toNat ≤ ip.toNat ∧ ip.toNat ≤ last.toNat ∧ ∀ n ∈ db.nodes, n.ip.toNat ≠ ip.toNat := by
  simp [free, BitVec.le_def, BitVec.toNat_inj]

theorem free_of_mem_gaps {c : Nat} (h : c ∈ db.gaps first last) :
    (BitVec.ofNat 32 c).toNat = c ∧ BitVec.ofNat 32 c ∈ db.free first last := by
  obtain ⟨hcandidate, hunused, hlast⟩ := mem_gaps.mp h
  have hsmall := last.isLt
  have hc : (BitVec.ofNat 32 c).toNat = c := by
    rw [BitVec.toNat_ofNat]
    exact Nat.mod_eq_of_lt (by omega)
  have hfirst : first.toNat ≤ c := by
    rcases hcandidate with rfl | ⟨n, -, hn, -, rfl⟩
    · exact le_rfl
    · rw [BitVec.le_def] at hn
      omega
  refine ⟨hc, mem_free_toNat.mpr ?_⟩
  rw [hc]
  exact ⟨hfirst, hlast, hunused⟩

/-- Below a free address, or at it, stands a candidate: going down from it, the first address in use
has a candidate as its successor, and if there is none the way ends at the first address. -/
theorem exists_gap_le (c : Nat) (hfirst : first.toNat ≤ c) (hlast : c ≤ last.toNat)
    (hunused : ∀ n ∈ db.nodes, n.ip.toNat ≠ c) : ∃ g ∈ db.gaps first last, g ≤ c := by
  induction c with
  | zero => exact ⟨0, mem_gaps.mpr ⟨.inl (by omega), hunused, hlast⟩, le_rfl⟩
  | succ c ih =>
    by_cases hc : c + 1 = first.toNat
    · exact ⟨c + 1, mem_gaps.mpr ⟨.inl hc, hunused, hlast⟩, le_rfl⟩
    by_cases hused : ∃ n ∈ db.nodes, n.ip.toNat = c
    · obtain ⟨n, hn, rfl⟩ := hused
      have hrange : first ≤ n.ip ∧ n.ip < last := by
        rw [BitVec.le_def, BitVec.lt_def]
        omega
      exact ⟨_, mem_gaps.mpr ⟨.inr ⟨n, hn, hrange.1, hrange.2, rfl⟩, hunused, hlast⟩, le_rfl⟩
    · push Not at hused
      obtain ⟨g, hg, hle⟩ := ih (by omega) (by omega) hused
      exact ⟨g, hg, by omega⟩

/-- The query answers the least free address of the range, whatever addresses are stored. -/
theorem lowestFree_eq_some_iff {ip : BitVec 32} :
    db.lowestFree first last = .ok (some ip) ↔ IsLeast (db.free first last) ip := by
  rw [lowestFree_gaps, Except.ok.injEq, Option.map_eq_some_iff]
  constructor
  · intro h
    obtain ⟨c, hmin, rfl⟩ := h
    obtain ⟨hmem, hleast⟩ := List.min?_eq_some_iff.mp hmin
    obtain ⟨hc, hfree⟩ := free_of_mem_gaps hmem
    refine ⟨hfree, ?_⟩
    intro other hother
    obtain ⟨hfirst, hlast, hunused⟩ := mem_free_toNat.mp hother
    obtain ⟨g, hg, hle⟩ := exists_gap_le _ hfirst hlast hunused
    rw [BitVec.le_def, hc]
    exact (hleast g hg).trans hle
  · intro h
    obtain ⟨hfree, hleast⟩ := h
    have hbelow : ∀ g ∈ db.gaps first last, ip.toNat ≤ g := by
      intro g hg
      obtain ⟨hc, hg⟩ := free_of_mem_gaps hg
      have hle := hleast hg
      rwa [BitVec.le_def, hc] at hle
    obtain ⟨hfirst, hlast, hunused⟩ := mem_free_toNat.mp hfree
    obtain ⟨g, hg, hle⟩ := exists_gap_le _ hfirst hlast hunused
    have heq : g = ip.toNat := le_antisymm hle (hbelow g hg)
    rw [heq] at hg
    refine ⟨ip.toNat, List.min?_eq_some_iff.mpr ⟨hg, hbelow⟩, ?_⟩
    exact BitVec.ofNat_toNat ..

theorem lowestFree_eq_none_iff : db.lowestFree first last = .ok none ↔ db.free first last = ∅ := by
  rw [lowestFree_gaps, Except.ok.injEq, Option.map_eq_none_iff, List.min?_eq_none_iff]
  constructor
  · intro h
    apply Set.eq_empty_of_forall_notMem
    intro ip hip
    obtain ⟨hfirst, hlast, hunused⟩ := mem_free_toNat.mp hip
    obtain ⟨g, hg, -⟩ := exists_gap_le _ hfirst hlast hunused
    rw [h] at hg
    exact List.not_mem_nil hg
  · intro h
    apply List.eq_nil_iff_forall_not_mem.mpr
    intro g hg
    have hfree := (free_of_mem_gaps hg).2
    rw [h] at hfree
    exact hfree

def countOf (db : DB) (userID : Int) : Nat := (db.nodes.filter (·.userID = userID)).length

theorem insertNode_capped {userID : Int} {name pubKey platform : String} {ip : BitVec 32}
    {maxDevices id : Int}
    (h : (db.insertNode userID name pubKey platform ip maxDevices).1 = .ok (some id)) :
    0 < maxDevices → (db.countOf userID : Int) < maxDevices := by
  unfold insertNode at h
  split_ifs at h with hcap
  · cases h
  all_goals
    intro hpos
    unfold countOf
    omega

end DB

/-- A call of the repository, with its arguments. -/
inductive NodeCall
  | create (userID : Int) (name pubKey platform : String) (maxDevices : Int)
  | delete (userID nodeID : Int)
  | deleteUser (targetID : Int)

inductive NodeReply
  | created (r : Except StoreErr Node)
  | deleted (r : Except StoreErr String)
  | userDeleted (r : Except StoreErr DeletionResult)

def NodeCall.prog (first last : BitVec 32) : NodeCall → Handler NodeReply
  | create userID name pubKey platform maxDevices => do
    let r ← createNode userID name pubKey platform first last maxDevices maxAllocRetries
    return .created r
  | delete userID nodeID => do
    let r ← deleteOwned userID nodeID
    return .deleted r
  | deleteUser targetID => do
    let r ← store (.deleteCascade targetID)
    return .userDeleted r

/-- Registrations for the user have this cap. -/
def NodeCall.CappedAt (userID cap : Int) : NodeCall → Prop
  | create u _ _ _ maxDevices => u = userID → maxDevices = cap
  | _ => True

/-- Rows are read or removed, or a node is inserted for a user with an address under a cap. -/
def Op.Allocates (P : Int → BitVec 32 → Int → Prop) : Op → Prop
  | .store (.insertNode userID _ _ _ ip maxDevices) => P userID ip maxDevices
  | .store (.lowestFree ..) | .store (.ownedPubKey ..) | .store (.deleteOwnedNode ..)
  | .store (.deleteCascade _) => True
  | _ => False

section
variable {P : Int → BitVec 32 → Int → Prop} {first last : BitVec 32}

theorem createNode_allocates {userID : Int} {name pubKey platform : String} {maxDevices : Int}
    (hP : ∀ ip, first ≤ ip → ip ≤ last → P userID ip maxDevices) (retries : Nat) :
    (createNode userID name pubKey platform first last maxDevices retries).OnlyGiven Op.Sane
      (Op.Allocates P) := by
  induction retries with
  | zero => trivial
  | succ retries ih =>
    refine ⟨trivial, fun r hr => ?_⟩
    rcases r with _ | _ | ip
    · trivial
    · trivial
    obtain ⟨hfirst, hlast⟩ := hr ip rfl
    refine ⟨hP ip hfirst hlast, fun r _ => ?_⟩
    rcases r with e | _ | id
    · show OnlyGiven Op.Sane (Op.Allocates P) (if _ then _ else _)
      split_ifs
      · exact ih
      all_goals trivial
    · trivial
    · trivial

theorem NodeCall.prog_allocates {call : NodeCall}
    (hP : ∀ userID name pubKey platform maxDevices,
      call = .create userID name pubKey platform maxDevices →
      ∀ ip, first ≤ ip → ip ≤ last → P userID ip maxDevices) :
    (call.prog first last).OnlyGiven Op.Sane (Op.Allocates P) := by
  cases call with
  | create userID name pubKey platform maxDevices =>
    apply OnlyGiven.bind (createNode_allocates (hP _ _ _ _ _ rfl) _)
    exact fun _ => trivial
  | delete userID nodeID =>
    refine ⟨trivial, fun r _ => ?_⟩
    rcases r with e | pubKey
    · trivial
    refine ⟨trivial, fun r _ => ?_⟩
    rcases r with e | -
    · trivial
    · trivial
  | deleteUser targetID => exact ⟨trivial, fun _ _ => trivial⟩

section
variable {κ : Type} [DecidableEq κ] {parseKey : String → Option κ}

/-- What an allocating operation keeps: a property of the rows that outlives removals and the
inserts that the constraints of the schema and the cap let through. -/
theorem Op.Allocates.keeps {I : List Node → Prop} (hremove : ∀ l l', l'.Sublist l → I l → I l')
    (hinsert : ∀ (db : DB) n cap, P n.userID n.ip cap → (∀ m ∈ db.nodes, m.ip ≠ n.ip) →
      (0 < cap → (db.countOf n.userID : Int) < cap) → I db.nodes → I (db.nodes ++ [n]))
    {o : Op} (ho : o.Allocates P) (fails : Bool) (w : World κ) (hI : I w.db.nodes) :
    I (sem parseKey o fails w).2.db.nodes := by
  rcases sem_db parseKey w o fails with hsame | ⟨o, rfl, -, hdb⟩
  · rw [hsame]
    exact hI
  rw [hdb]
  cases o with
  | insertNode userID name pubKey platform ip maxDevices =>
    show I (w.db.insertNode userID name pubKey platform ip maxDevices).2.nodes
    rcases @DB.insertNode_cases w.db userID name pubKey platform ip maxDevices with
      ⟨hstay, -⟩ | ⟨hadd, -, -, hip, -⟩
    · rw [hstay]
      exact hI
    · have hcap := DB.insertNode_capped (congrArg Prod.fst hadd)
      rw [hadd]
      exact hinsert w.db ⟨_, userID, name, pubKey, ip, platform⟩ maxDevices ho hip hcap hI
  | deleteOwnedNode userID nodeID => exact hremove _ _ (DB.sub_deleteNodes w.db _).nodes hI
  | deleteCascade targetID =>
    have hsub := (StoreOp.deleteCascade targetID).exec_change w.db
    generalize ((StoreOp.deleteCascade targetID).exec w.db).2 = db' at hsub ⊢
    cases hsub with
    | same | user => exact hI
    | removed _ sub _ => exact hremove _ _ sub.nodes hI
  | lowestFree | ownedPubKey => exact hI
  | _ => exact ho.elim

end
variable (first last) in
/-- What the loop of a registration asks and hears until it answers. -/
inductive Registers (userID : Int) (name pubKey platform : String) (maxDevices : Int) :
    Nat → List (Sigma Op.Res) → Except StoreErr Node → Prop
  | spent : Registers userID name pubKey platform maxDevices 0 [] (.error .driver)
  | unread (retries : Nat) (e : StoreErr) :
    Registers userID name pubKey platform maxDevices (retries + 1)
      [⟨.store (.lowestFree first last), .error e⟩] (.error e)
  | exhausted (retries : Nat) :
    Registers userID name pubKey platform maxDevices (retries + 1)
      [⟨.store (.lowestFree first last), .ok none⟩] (.error .poolExhausted)
  | collided {retries : Nat} {log : List (Sigma Op.Res)} {r : Except StoreErr Node}
    (ip : BitVec 32) (e : StoreErr) (rest : Registers userID name pubKey platform maxDevices retries log r) :
    Registers userID name pubKey platform maxDevices (retries + 1)
      (⟨.store (.lowestFree first last), .ok (some ip)⟩ ::
        ⟨.store (.insertNode userID name pubKey platform ip maxDevices), .error e⟩ :: log) r
  | refused {e' : StoreErr} (retries : Nat) (ip : BitVec 32) (e : StoreErr)
    (refusal : e' = .pubKeyTaken ∨ e' = .nodeNameTaken ∨ e' = e) :
    Registers userID name pubKey platform maxDevices (retries + 1)
      [⟨.store (.lowestFree first last), .ok (some ip)⟩,
        ⟨.store (.insertNode userID name pubKey platform ip maxDevices), .error e⟩] (.error e')
  | limited (retries : Nat) (ip : BitVec 32) :
    Registers userID name pubKey platform maxDevices (retries + 1)
      [⟨.store (.lowestFree first last), .ok (some ip)⟩,
        ⟨.store (.insertNode userID name pubKey platform ip maxDevices), .ok none⟩]
      (.error .deviceLimitReached)
  | inserted (retries : Nat) (ip : BitVec 32) (id : Int) :
    Registers userID name pubKey platform maxDevices (retries + 1)
      [⟨.store (.lowestFree first last), .ok (some ip)⟩,
        ⟨.store (.insertNode userID name pubKey platform ip maxDevices), .ok (some id)⟩]
      (.ok ⟨id, userID, name, pubKey, ip, platform⟩)

section
variable {userID : Int} {name pubKey platform : String} {maxDevices : Int} {retries : Nat}

theorem registers_of_hears {log : List (Sigma Op.Res)} {r : Except StoreErr Node}
    (h : (createNode userID name pubKey platform first last maxDevices retries).Hears log r) :
    Registers first last userID name pubKey platform maxDevices retries log r := by
  induction retries generalizing log with
  | zero =>
    obtain ⟨rfl, rfl⟩ := h
    exact .spent
  | succ retries ih =>
    obtain ⟨free, log, rfl, h⟩ := h
    rcases free with e | _ | ip
    · obtain ⟨rfl, rfl⟩ := h
      exact .unread retries e
    · obtain ⟨rfl, rfl⟩ := h
      exact .exhausted retries
    obtain ⟨inserted, log, rfl, h⟩ := h
    rcases inserted with e | _ | id
    · have hfailed : Hears (if isUniqueViolationOn e "nodes.ip" then
          createNode userID name pubKey platform first last maxDevices retries
        else if isUniqueViolationOn e "nodes.wg_pubkey" then return .error .pubKeyTaken
        else if isUniqueViolationOn e "nodes.user_id" || isUniqueViolationOn e "nodes.name" then
          return .error .nodeNameTaken
        else return .error e) log r := h
      split_ifs at hfailed
      · exact .collided ip e (ih hfailed)
      · obtain ⟨rfl, rfl⟩ := hfailed
        exact .refused retries ip e (.inl rfl)
      · obtain ⟨rfl, rfl⟩ := hfailed
        exact .refused retries ip e (.inr (.inl rfl))
      · obtain ⟨rfl, rfl⟩ := hfailed
        exact .refused retries ip e (.inr (.inr rfl))
    · obtain ⟨rfl, rfl⟩ := h
      exact .limited retries ip
    · obtain ⟨rfl, rfl⟩ := h
      exact .inserted retries ip id

section
variable {κ : Type} [DecidableEq κ]

abbrev ServerTurn (κ : Type) := Turn Op.Res (World κ)

def Still (turns : List (ServerTurn κ)) : Prop := ∀ x ∈ turns, x.after = x.before

variable (first last) in
/-- The turns end in a query and the insert of this node, whose address was the least free one at
that query; only the insert changes anything. -/
def Took (maxDevices : Int) (node : Node) (turns : List (ServerTurn κ)) : Prop :=
  ∃ rest q i, turns = rest ++ [q, i] ∧ Still (rest ++ [q]) ∧
    q.said.1 = .store (.lowestFree first last) ∧
    i.said.1 = .store
      (.insertNode node.userID node.name node.pubKey node.platform node.ip maxDevices) ∧
    IsLeast (q.before.db.free first last) node.ip ∧
    i.after.db.nodes = i.before.db.nodes ++ [node]

variable (first last) in
/-- At one of the queries every address of the range was taken. -/
def FoundFull (turns : List (ServerTurn κ)) : Prop :=
  ∃ q ∈ turns, q.said.1 = .store (.lowestFree first last) ∧
    ∀ ip, first ≤ ip → ip ≤ last → ∃ n ∈ q.before.db.nodes, n.ip = ip

variable (first last) in
def Allocated (maxDevices : Int) (turns : List (ServerTurn κ)) : Except StoreErr Node → Prop
  | .ok node => Took first last maxDevices node turns
  | .error e => Still turns ∧ (e = .poolExhausted → FoundFull first last turns)

variable {parseKey : String → Option κ} {x : ServerTurn κ}

theorem query_of_sound (hx : x.Sound (sem parseKey)) {r : Except StoreErr (Option (BitVec 32))}
    (hsaid : x.said = ⟨.store (.lowestFree first last), r⟩) :
    x.after = x.before ∧ (r = .error .driver ∨ x.before.db.lowestFree first last = r) := by
  obtain ⟨before, said, after⟩ := x
  cases hsaid
  obtain ⟨fails, hsem⟩ := hx
  cases fails with
  | true =>
    cases hsem
    exact ⟨rfl, .inl rfl⟩
  | false => exact ⟨(congrArg Prod.snd hsem).symm, .inr (congrArg Prod.fst hsem)⟩

theorem insertNode_error {db : DB} {ip : BitVec 32} {e : StoreErr}
    (h : (db.insertNode userID name pubKey platform ip maxDevices).1 = .error e) :
    e ≠ .poolExhausted := by
  unfold DB.insertNode at h
  split_ifs at h
  all_goals
    cases h
    try exact StoreErr.noConfusion

theorem insert_of_sound (hx : x.Sound (sem parseKey)) {ip : BitVec 32} {r : Except StoreErr (Option Int)}
    (hsaid : x.said = ⟨.store (.insertNode userID name pubKey platform ip maxDevices), r⟩) :
    (x.after = x.before ∧ r ≠ .error .poolExhausted ∧ ∀ id, r ≠ .ok (some id)) ∨
    ∃ id, r = .ok (some id) ∧
      x.after.db.nodes = x.before.db.nodes ++ [⟨id, userID, name, pubKey, ip, platform⟩] := by
  obtain ⟨before, said, after⟩ := x
  cases hsaid
  obtain ⟨fails, hsem⟩ := hx
  cases fails with
  | true =>
    cases hsem
    exact .inl ⟨rfl, by simp, by simp⟩
  | false =>
    have hr : (before.db.insertNode userID name pubKey platform ip maxDevices).1 = r :=
      congrArg Prod.fst hsem
    have hafter : { before with
        db := (before.db.insertNode userID name pubKey platform ip maxDevices).2 } = after :=
      congrArg Prod.snd hsem
    rcases @DB.insertNode_cases before.db userID name pubKey platform ip maxDevices with
      ⟨hstay, hno⟩ | ⟨hadd, -⟩
    · rw [hstay] at hafter
      rw [hr] at hno
      exact .inl ⟨hafter.symm, fun herror => insertNode_error (hr.trans herror) rfl, hno⟩
    · rw [hadd] at hr hafter
      exact .inr ⟨_, hr.symm, congrArg (fun w => w.db.nodes) hafter.symm⟩

omit [DecidableEq κ] in
theorem still_cons {turns : List (ServerTurn κ)} (hx : x.after = x.before) (h : Still turns) :
    Still (x :: turns) := by
  intro y hy
  rcases List.mem_cons.mp hy with rfl | hy
  · exact hx
  · exact h y hy

omit [DecidableEq κ] in
theorem Allocated.after_still {q i : ServerTurn κ} {turns : List (ServerTurn κ)}
    {r : Except StoreErr Node} (hq : q.after = q.before) (hi : i.after = i.before)
    (h : Allocated first last maxDevices turns r) :
    Allocated first last maxDevices (q :: i :: turns) r := by
  cases r with
  | ok node =>
    obtain ⟨rest, q', i', rfl, hstill, h⟩ := h
    exact ⟨q :: i :: rest, q', i', rfl, still_cons hq (still_cons hi hstill), h⟩
  | error e =>
    obtain ⟨hstill, hfull⟩ := h
    refine ⟨still_cons hq (still_cons hi hstill), ?_⟩
    intro he
    obtain ⟨full, hmem, h⟩ := hfull he
    exact ⟨full, List.mem_cons_of_mem _ (List.mem_cons_of_mem _ hmem), h⟩

theorem Registers.allocated {log : List (Sigma Op.Res)} {r : Except StoreErr Node}
    (h : Registers first last userID name pubKey platform maxDevices retries log r)
    {turns : List (ServerTurn κ)} (hturns : turns.map Turn.said = log)
    (hsound : ∀ x ∈ turns, x.Sound (sem parseKey)) : Allocated first last maxDevices turns r := by
  induction h generalizing turns with
  | spent =>
    obtain rfl := List.map_eq_nil_iff.mp hturns
    exact ⟨fun x hx => absurd hx List.not_mem_nil, StoreErr.noConfusion⟩
  | unread retries e =>
    obtain ⟨q, rfl, hq⟩ := List.map_eq_singleton_iff.mp hturns
    obtain ⟨hsame, hanswer⟩ := query_of_sound (hsound q List.mem_cons_self) hq
    refine ⟨still_cons hsame fun x hx => absurd hx List.not_mem_nil, ?_⟩
    intro he
    subst he
    rcases hanswer with hdriver | hread
    · cases hdriver
    · cases hread
  | exhausted retries =>
    obtain ⟨q, rfl, hq⟩ := List.map_eq_singleton_iff.mp hturns
    obtain ⟨hsame, hanswer⟩ := query_of_sound (hsound q List.mem_cons_self) hq
    refine ⟨still_cons hsame fun x hx => absurd hx List.not_mem_nil, ?_⟩
    intro _
    refine ⟨q, List.mem_cons_self, congrArg Sigma.fst hq, ?_⟩
    rcases hanswer with hdriver | hread
    · cases hdriver
    -- the query found the pool full, in the database as it was then
    have hnone := DB.lowestFree_eq_none_iff.mp hread
    intro ip hfirst hlast
    by_contra hunused
    push Not at hunused
    have hfree : ip ∈ q.before.db.free first last := ⟨hfirst, hlast, hunused⟩
    rw [hnone] at hfree
    exact hfree
  | collided ip e rest ih =>
    obtain ⟨q, turns, rfl, hq, hturns⟩ := List.map_eq_cons_iff.mp hturns
    obtain ⟨i, turns, rfl, hi, hturns⟩ := List.map_eq_cons_iff.mp hturns
    obtain ⟨hsame, -⟩ := query_of_sound (hsound q (by simp)) hq
    -- the insert met a constraint and left the database alone; the induction has the attempts after
    -- it
    rcases insert_of_sound (hsound i (by simp)) hi with ⟨hstay, -⟩ | ⟨id, hok, -⟩
    · exact (ih hturns fun x hx => hsound x (by simp [hx])).after_still hsame hstay
    · cases hok
  | refused retries ip e refusal =>
    obtain ⟨q, turns, rfl, hq, hturns⟩ := List.map_eq_cons_iff.mp hturns
    obtain ⟨i, rfl, hi⟩ := List.map_eq_singleton_iff.mp hturns
    obtain ⟨hsame, -⟩ := query_of_sound (hsound q (by simp)) hq
    rcases insert_of_sound (hsound i (by simp)) hi with ⟨hstay, hother, -⟩ | ⟨id, hok, -⟩
    · refine ⟨still_cons hsame (still_cons hstay fun x hx => absurd hx List.not_mem_nil), ?_⟩
      intro he
      subst he
      rcases refusal with h | h | rfl
      · cases h
      · cases h
      · exact absurd rfl hother
    · cases hok
  | limited retries ip =>
    obtain ⟨q, turns, rfl, hq, hturns⟩ := List.map_eq_cons_iff.mp hturns
    obtain ⟨i, rfl, hi⟩ := List.map_eq_singleton_iff.mp hturns
    obtain ⟨hsame, -⟩ := query_of_sound (hsound q (by simp)) hq
    rcases insert_of_sound (hsound i (by simp)) hi with ⟨hstay, -⟩ | ⟨id, hok, -⟩
    · exact ⟨still_cons hsame (still_cons hstay fun x hx => absurd hx List.not_mem_nil),
        StoreErr.noConfusion⟩
    · cases hok
  | inserted retries ip id =>
    obtain ⟨q, turns, rfl, hq, hturns⟩ := List.map_eq_cons_iff.mp hturns
    obtain ⟨i, rfl, hi⟩ := List.map_eq_singleton_iff.mp hturns
    obtain ⟨hsame, hanswer⟩ := query_of_sound (hsound q (by simp)) hq
    rcases hanswer with hdriver | hread
    · cases hdriver
    -- the address was the least free one when it was read, which may be before the insert
    have hleast := DB.lowestFree_eq_some_iff.mp hread
    rcases insert_of_sound (hsound i (by simp)) hi with ⟨-, -, hno⟩ | ⟨id', hok, hadded⟩
    · exact absurd rfl (hno id)
    cases hok
    exact ⟨[], q, i, rfl, still_cons hsame fun x hx => absurd hx List.not_mem_nil,
      congrArg Sigma.fst hq, congrArg Sigma.fst hi, hleast, hadded⟩

end
end
end

section
variable {τ : Type} [DecidableEq τ] {κ : Type} [DecidableEq κ]

def NodeCall.start (first last : BitVec 32) (calls : τ → NodeCall) (w : World κ) :
    Config τ (Handler NodeReply) (World κ) :=
  ⟨fun t => (calls t).prog first last, w⟩

variable (parseKey : String → Option κ) (first last : BitVec 32) (calls : τ → NodeCall) (w : World κ)
  (sched : List (τ × Bool))

def NodeCall.after : Config τ (Handler NodeReply) (World κ) :=
  (NodeCall.start first last calls w).exec (machine (sem parseKey)) sched

def NodeCall.turns (t : τ) : List (ServerTurn κ) :=
  turnsOf (sem parseKey) t (NodeCall.start first last calls w) sched

/-- What holds after any part of a run of the calls, and of the gap query on any rows. -/
structure NodeAllocation : Prop where
  unique : Keyed Node.ip w.db.nodes →
    Keyed Node.ip (NodeCall.after parseKey first last calls w sched).shared.db.nodes
  inRange : (∀ n ∈ w.db.nodes, first ≤ n.ip ∧ n.ip ≤ last) →
    ∀ n ∈ (NodeCall.after parseKey first last calls w sched).shared.db.nodes,
      first ≤ n.ip ∧ n.ip ≤ last
  capped : ∀ userID cap : Int, 0 < cap → (∀ t, (calls t).CappedAt userID cap) →
    (w.db.countOf userID : Int) ≤ cap →
    ((NodeCall.after parseKey first last calls w sched).shared.db.countOf userID : Int) ≤ cap
  least : ∀ t userID name pubKey platform maxDevices node,
    calls t = .create userID name pubKey platform maxDevices →
    (NodeCall.after parseKey first last calls w sched).threads t = .pure (.created (.ok node)) →
    Took first last maxDevices node (NodeCall.turns parseKey first last calls w sched t)
  exhausted : ∀ t userID name pubKey platform maxDevices,
    calls t = .create userID name pubKey platform maxDevices →
    (NodeCall.after parseKey first last calls w sched).threads t =
      .pure (.created (.error .poolExhausted)) →
    FoundFull first last (NodeCall.turns parseKey first last calls w sched t)
  failed : ∀ t userID name pubKey platform maxDevices e,
    calls t = .create userID name pubKey platform maxDevices →
    (NodeCall.after parseKey first last calls w sched).threads t = .pure (.created (.error e)) →
    Still (NodeCall.turns parseKey first last calls w sched t)
  gap : ∀ (db : DB) (low high : BitVec 32),
    (∀ ip, db.lowestFree low high = .ok (some ip) ↔ IsLeast (db.free low high) ip) ∧
      (db.lowestFree low high = .ok none ↔ db.free low high = ∅)

variable {parseKey first last calls w sched}

/-- What the removals and the admitted inserts keep, every interleaving keeps. -/
theorem NodeCall.kept {P : Int → BitVec 32 → Int → Prop} {I : List Node → Prop}
    (hremove : ∀ l l', l'.Sublist l → I l → I l')
    (hinsert : ∀ (db : DB) n cap, P n.userID n.ip cap → (∀ m ∈ db.nodes, m.ip ≠ n.ip) →
      (0 < cap → (db.countOf n.userID : Int) < cap) → I db.nodes → I (db.nodes ++ [n]))
    (hP : ∀ t userID name pubKey platform maxDevices,
      calls t = .create userID name pubKey platform maxDevices →
      ∀ ip, first ≤ ip → ip ≤ last → P userID ip maxDevices) (h₀ : I w.db.nodes) :
    I (NodeCall.after parseKey first last calls w sched).shared.db.nodes := by
  have hkeep : ∀ o : Op, o.Allocates P → ∀ fails (w : World κ), I w.db.nodes →
      I (sem parseKey o fails w).2.db.nodes := by
    intro o ho fails w hI
    exact ho.keeps hremove hinsert fails w hI
  have hthreads : ∀ t, ((NodeCall.start first last calls w).threads t).OnlyGiven Op.Sane
      (Op.Allocates P) := by
    intro t
    exact NodeCall.prog_allocates (hP t)
  exact OnlyGiven.exec (I := fun w : World κ => I w.db.nodes) (sem_sane parseKey) hkeep hthreads h₀ sched

theorem NodeCall.allocated {t : τ} {userID : Int} {name pubKey platform : String} {maxDevices : Int}
    {r : Except StoreErr Node} (hcall : calls t = .create userID name pubKey platform maxDevices)
    (hdone : (NodeCall.after parseKey first last calls w sched).threads t = .pure (.created r)) :
    Allocated first last maxDevices (NodeCall.turns parseKey first last calls w sched t) r := by
  have hlog := hears_turnsOf hdone
  have hprog : (NodeCall.start first last calls w).threads t =
      NodeCall.prog first last (.create userID name pubKey platform maxDevices) :=
    congrArg (NodeCall.prog first last) hcall
  rw [hprog] at hlog
  obtain ⟨log₁, log₂, r', hsplit, hcreate, rfl, hreply⟩ := hears_bind.mp hlog
  cases hreply
  rw [List.append_nil] at hsplit
  exact (registers_of_hears hcreate).allocated hsplit fun _ hx => sound_of_mem_turnsOf hx

/-- Under any interleaving of registrations and deletions, with any failures of the store, addresses
stay unique and in the range and caps are kept; a registration that succeeds took the least free
address of its last query, one that finds the pool exhausted saw it full, and one that fails has
added nothing. -/
theorem nodeAllocation (parseKey : String → Option κ) (first last : BitVec 32) (calls : τ → NodeCall)
    (w : World κ) (sched : List (τ × Bool)) :
    NodeAllocation parseKey first last calls w sched where
  unique := by
    apply NodeCall.kept (P := fun _ _ _ => True) (I := Keyed Node.ip)
    · intro l l' hsub hl
      exact hl.subset hsub.subset
    · intro db n cap _ hfresh _ hdb
      exact hdb.append hfresh
    · exact fun _ _ _ _ _ _ _ _ _ _ => trivial
  inRange := by
    apply NodeCall.kept (P := fun _ ip _ => first ≤ ip ∧ ip ≤ last)
      (I := fun nodes => ∀ n ∈ nodes, first ≤ n.ip ∧ n.ip ≤ last)
    · intro l l' hsub hl n hn
      exact hl n (hsub.subset hn)
    · intro db n cap hn _ _ hdb m hm
      rcases List.mem_append.mp hm with hm | hm
      · exact hdb m hm
      · rw [List.mem_singleton.mp hm]
        exact hn
    · exact fun _ _ _ _ _ _ _ _ hfirst hlast => ⟨hfirst, hlast⟩
  capped := by
    -- the invariant is the count of the one user's nodes; another user's insert leaves it as it is
    intro userID cap hpos hcapped
    have hcaps : ∀ t user name pubKey platform maxDevices,
        calls t = .create user name pubKey platform maxDevices →
        ∀ ip, first ≤ ip → ip ≤ last → user = userID → maxDevices = cap := by
      intro t user name pubKey platform maxDevices hcall _ _ _
      have ht := hcapped t
      rw [hcall] at ht
      exact ht
    apply NodeCall.kept (P := fun user _ maxDevices => user = userID → maxDevices = cap)
      (I := fun nodes => ((nodes.filter (·.userID = userID)).length : Int) ≤ cap)
    · intro l l' hsub hl
      have hle := (hsub.filter (·.userID = userID)).length_le
      omega
    · intro db n maxDevices hn _ hbelow hdb
      by_cases huser : n.userID = userID
      · -- the insert was let through under the cap that all of the user's registrations have
        have hlt := hbelow (by rw [hn huser]; exact hpos)
        rw [hn huser, huser] at hlt
        unfold DB.countOf at hlt
        simp [huser]
        omega
      · simpa [huser] using hdb
    · exact hcaps
  least := fun _ _ _ _ _ _ _ hcall hdone => NodeCall.allocated hcall hdone
  exhausted := fun _ _ _ _ _ _ hcall hdone => (NodeCall.allocated hcall hdone).2 rfl
  failed := fun _ _ _ _ _ _ _ hcall hdone => (NodeCall.allocated hcall hdone).1
  gap := fun _ _ _ => ⟨fun _ => DB.lowestFree_eq_some_iff, DB.lowestFree_eq_none_iff⟩

end

/-! A user at a pool of two addresses registers three nodes at once. The second registration loses
the race for the first address, the third finds none. -/

def contendingCall (t : Nat) : NodeCall :=
  .create 1 (["a", "b", "c"].getD t "") (["ka", "kb", "kc"].getD t "") "linux" 2

def oneUser : World Unit :=
  ⟨DB.empty.addUser "user" "hash" false, ⟨[], fun _ => none, fun _ => none⟩, fun _ => none⟩

def contention : List (Nat × Bool) := [0, 1, 0, 1, 1, 1, 2].map fun t => (t, false)

theorem nodeAllocation_contended :
    Took 10 11 2 ⟨2, 1, "b", "kb", 11, "linux"⟩
      (NodeCall.turns (fun _ => none) 10 11 contendingCall oneUser contention 1) ∧
    FoundFull 10 11 (NodeCall.turns (fun _ => none) 10 11 contendingCall oneUser contention 2) ∧
    Keyed Node.ip
      (NodeCall.after (fun _ => none) 10 11 contendingCall oneUser contention).shared.db.nodes ∧
    ((NodeCall.after (fun _ => none) 10 11 contendingCall oneUser contention).shared.db.countOf 1 :
      Int) ≤ 2 := by
  have hall := nodeAllocation (fun _ => none) 10 11 contendingCall oneUser contention
  have hempty : oneUser.db.nodes = [] := rfl
  refine ⟨hall.least 1 1 "b" "kb" "linux" 2 _ rfl rfl, hall.exhausted 2 1 "c" "kc" "linux" 2 rfl rfl,
    hall.unique ?_, hall.capped 1 2 (by decide) (fun _ _ => rfl) (by decide)⟩
  rw [hempty]
  exact fun a ha => absurd ha List.not_mem_nil

end LanWeave

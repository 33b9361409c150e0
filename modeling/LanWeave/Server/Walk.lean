import LanWeave.Library.Obligation
import LanWeave.Server.Handlers
import LanWeave.Server.StoreCases

/-! The handlers' common steps under any ledger over the database: a read spoils nothing, and
what it returned stays true of every later database. -/

namespace LanWeave
open Library Ledger

section
variable {κ χ : Type} [DecidableEq κ] (parseKey : String → Option κ)

abbrev OpHeard (κ : Type) := Prog.Heard Op Op.Res (World κ)

/-- The ledger of the handlers' operations for a given notion of what is bad, while `I` holds of the
database. -/
def dbLedger (admits : Op → Bool → World κ → Prop) (I : DB → Prop) (bad : World κ → χ → Prop) :
    Ledger Op Op.Res Bool (World κ) χ where
  sem := sem parseKey
  admits i e w := admits i e w ∧ (I w.db → I (sem parseKey i e w).2.db)
  Inv w := w.db.Wf ∧ I w.db
  After w w' := w.db.After w'.db
  bad := bad
  after_refl w := DB.After.refl w.db
  after_trans _ _ _ := DB.After.trans
  inv_step i e w hw he := by
    refine ⟨?_, he.2 hw.2⟩
    rcases sem_db parseKey w i e with h | ⟨o, -, -, h⟩
    · exact h ▸ hw.1
    · exact h ▸ o.exec_wf hw.1
  after_step i e w _ _ := by
    rcases sem_db parseKey w i e with h | ⟨o, -, -, h⟩
    · exact h ▸ DB.After.refl w.db
    · exact h ▸ o.exec_after w.db

def StoreOp.Reads (o : StoreOp) : Prop := ∀ db, (o.exec db).2 = db

/-- The statement has answered from a database and left this one, or the driver has failed. -/
def StoreOp.Answered (o : StoreOp) (r : Except StoreErr o.Val) (db' : DB) (I : DB → Prop) (from' : DB) :
    Prop :=
  ∃ db, from'.After db ∧ db.Wf ∧ I db ∧ r = (o.exec db).1 ∧ db' = (o.exec db).2

variable {parseKey} {admits : Op → Bool → World κ → Prop} {I : DB → Prop} {bad : World κ → χ → Prop}
  {still : OpHeard κ → Op → Bool → World κ → Prop} {heard : OpHeard κ} {α : Type} {w : World κ}

/-- A read leaves the world as it is; its answer is that of the database it read, or the driver's
error. -/
theorem pays_read {o : StoreOp} (ho : o.Reads) {k : Except StoreErr o.Val → Handler α}
    (hk : ∀ r (t : World κ), w.db.After t.db → t.db.Wf ∧ I t.db →
      (r = .error .driver ∧ admits (.store o) true t) ∨ r = (o.exec t.db).1 →
      (dbLedger parseKey admits I bad).Pays still ((⟨.store o, r⟩, t) :: heard) t (k r)) :
    (dbLedger parseKey admits I bad).Pays still heard w (store o >>= k) := by
  intro e t ht hw he _
  have hsame : (sem parseKey (.store o) e t).2 = t := by
    cases e with
    | true => rfl
    | false => rw [sem_store, ho]
  change _ ∧ (dbLedger parseKey admits I bad).Pays still
    ((⟨.store o, (sem parseKey (.store o) e t).1⟩, (sem parseKey (.store o) e t).2) :: heard)
    (sem parseKey (.store o) e t).2 (k (sem parseKey (.store o) e t).1)
  refine ⟨fun x hx => .inl (hsame ▸ hx), ?_⟩
  rw [hsame]
  refine hk _ t ht hw ?_
  cases e with
  | true => exact .inl ⟨rfl, he.1⟩
  | false => exact .inr rfl

theorem pays_store_redeeming {o : StoreOp} {k : Except StoreErr o.Val → Handler α}
    (ho : ∀ (t : World κ) x, w.db.After t.db → t.db.Wf ∧ I t.db → admits (.store o) false t →
      still heard (.store o) false t → bad { t with db := (o.exec t.db).2 } x →
      bad t x ∨ (dbLedger parseKey admits I bad).Redeems x (k (o.exec t.db).1))
    (hk : ∀ r t, w.db.After t.db → t.db.Wf ∧ I t.db →
      (r = .error .driver ∧ admits (.store o) true t) ∨ o.Answered r t.db I w.db →
      (dbLedger parseKey admits I bad).Pays still ((⟨.store o, r⟩, t) :: heard) t (k r)) :
    (dbLedger parseKey admits I bad).Pays still heard w (store o >>= k) := by
  intro e t ht hw he hstill
  have hafter := (dbLedger parseKey admits I bad).after_step (.store o) e t hw he
  have hinv := (dbLedger parseKey admits I bad).inv_step (.store o) e t hw he
  cases e with
  | true => exact ⟨fun x hx => .inl hx, hk _ _ (ht.trans hafter) hinv (.inl ⟨rfl, he.1⟩)⟩
  | false =>
    refine ⟨fun x hx => ho t x ht hw he.1 hstill hx, hk _ _ (ht.trans hafter) hinv (.inr ?_)⟩
    exact ⟨t.db, ht, hw.1, hw.2, rfl, rfl⟩

theorem pays_store_owing {o : StoreOp} {k : Except StoreErr o.Val → Handler α}
    (ho : ∀ (t : World κ) x, w.db.After t.db → t.db.Wf ∧ I t.db → admits (.store o) false t →
      still heard (.store o) false t → bad { t with db := (o.exec t.db).2 } x →
      bad t x ∨ (dbLedger parseKey admits I bad).Owes x (k (o.exec t.db).1))
    (hk : ∀ r t, w.db.After t.db → t.db.Wf ∧ I t.db →
      (r = .error .driver ∧ admits (.store o) true t) ∨ o.Answered r t.db I w.db →
      (dbLedger parseKey admits I bad).Pays still ((⟨.store o, r⟩, t) :: heard) t (k r)) :
    (dbLedger parseKey admits I bad).Pays still heard w (store o >>= k) :=
  pays_store_redeeming
    (fun t x ht hw he hstill hx => (ho t x ht hw he hstill hx).imp id Owes.redeems) hk

theorem pays_store {o : StoreOp} {k : Except StoreErr o.Val → Handler α}
    (ho : ∀ (t : World κ) x, w.db.After t.db → t.db.Wf ∧ I t.db → still heard (.store o) false t →
      bad { t with db := (o.exec t.db).2 } x → bad t x)
    (hk : ∀ r t, w.db.After t.db → t.db.Wf ∧ I t.db →
      (r = .error .driver ∧ admits (.store o) true t) ∨ o.Answered r t.db I w.db →
      (dbLedger parseKey admits I bad).Pays still ((⟨.store o, r⟩, t) :: heard) t (k r)) :
    (dbLedger parseKey admits I bad).Pays still heard w (store o >>= k) :=
  pays_store_redeeming (fun t x ht hw _ hstill hx => .inl (ho t x ht hw hstill hx)) hk

theorem pays_netfw {o : NetfwOp} {k : Except KernelErr Unit → Handler α}
    (ho : ∀ (e : Bool) (t : World κ) x, w.db.After t.db → t.db.Wf ∧ I t.db → admits (.netfw o) e t →
      still heard (.netfw o) e t → bad (sem parseKey (.netfw o) e t).2 x → bad t x)
    (hk : ∀ r t, w.db.After t.db → t.db.Wf ∧ I t.db →
      (dbLedger parseKey admits I bad).Pays still ((⟨.netfw o, r⟩, t) :: heard) t (k r)) :
    (dbLedger parseKey admits I bad).Pays still heard w (netfw o >>= k) := by
  refine pays_op (fun e t x ht hw he hstill => ho e t x ht hw he.1 hstill) fun e t ht hw he _ => ?_
  exact hk _ _ (ht.trans ((dbLedger parseKey admits I bad).after_step (.netfw o) e t hw he))
    ((dbLedger parseKey admits I bad).inv_step (.netfw o) e t hw he)

theorem pays_wg {o : WgOp} {k : Except KernelErr Unit → Handler α}
    (ho : ∀ (e : Bool) (t : World κ) x, w.db.After t.db → t.db.Wf ∧ I t.db → admits (.wg o) e t →
      still heard (.wg o) e t → bad (sem parseKey (.wg o) e t).2 x → bad t x)
    (hk : ∀ r t, w.db.After t.db → t.db.Wf ∧ I t.db →
      (dbLedger parseKey admits I bad).Pays still ((⟨.wg o, r⟩, t) :: heard) t (k r)) :
    (dbLedger parseKey admits I bad).Pays still heard w (wg o >>= k) := by
  refine pays_op (fun e t x ht hw he hstill => ho e t x ht hw he.1 hstill) fun e t ht hw he _ => ?_
  exact hk _ _ (ht.trans ((dbLedger parseKey admits I bad).after_step (.wg o) e t hw he))
    ((dbLedger parseKey admits I bad).inv_step (.wg o) e t hw he)

theorem pays_authenticated {id : Option Identity} {k : Identity → Handler Response}
    (hk : ∀ id, (dbLedger parseKey admits I bad).Pays still heard w (k id)) :
    (dbLedger parseKey admits I bad).Pays still heard w (authenticated id k) := by
  cases id with
  | none => trivial
  | some id => exact hk id

theorem pays_decoded {β : Type} {body : Option β} {k : β → Handler Response}
    (hk : ∀ req, (dbLedger parseKey admits I bad).Pays still heard w (k req)) :
    (dbLedger parseKey admits I bad).Pays still heard w (decoded body k) := by
  cases body with
  | none => trivial
  | some req => exact hk req

theorem pays_salted {salt : Option String} {k : String → Handler Response}
    (hk : ∀ s, (dbLedger parseKey admits I bad).Pays still heard w (k s)) :
    (dbLedger parseKey admits I bad).Pays still heard w (salted salt k) := by
  cases salt with
  | none => trivial
  | some s => exact hk s

theorem pays_pathID {value message : String} {k : Int → Handler Response}
    (hk : ∀ id, (dbLedger parseKey admits I bad).Pays still heard w (k id)) :
    (dbLedger parseKey admits I bad).Pays still heard w (pathID value message k) := by
  unfold pathID
  split
  · trivial
  · exact hk _

theorem pays_namedZone {name : String} {absent : Response} {k : Zone → Handler Response}
    (hk : ∀ zone more t, w.db.After t.db → t.db.Wf ∧ I t.db →
      (dbLedger parseKey admits I bad).Pays still more t (k zone)) :
    (dbLedger parseKey admits I bad).Pays still heard w (namedZone name absent k) := by
  refine pays_read (fun _ => rfl) fun r t ht hw _ => ?_
  rcases r with _ | _ | zone
  · trivial
  · trivial
  · exact hk zone _ t ht hw

theorem pays_ownedNode {userID nodeID : Int} {message : String} {k : Node → Handler Response}
    (hk : ∀ node t, w.db.After t.db → t.db.Wf ∧ I t.db → node ∈ t.db.nodes → node.id = nodeID →
      (dbLedger parseKey admits I bad).Pays still
        ((⟨.store (.getOwned userID nodeID), .ok node⟩, t) :: heard) t (k node)) :
    (dbLedger parseKey admits I bad).Pays still heard w (ownedNode userID nodeID message k) := by
  refine pays_read (fun _ => rfl) fun r t ht hw hr => ?_
  rcases r with e | node
  · cases e <;> trivial
  · rcases hr with ⟨hr, -⟩ | hr
    · cases hr
    · obtain ⟨hmem, hid, -⟩ := DB.getOwned_ok hr.symm
      exact hk node t ht hw hmem hid

theorem pays_ownedZone {name : String} {userID : Int} {k : Zone → Handler Response}
    (hk : ∀ zone more t, w.db.After t.db → t.db.Wf ∧ I t.db →
      (dbLedger parseKey admits I bad).Pays still more t (k zone)) :
    (dbLedger parseKey admits I bad).Pays still heard w (ownedZone name userID k) := by
  refine pays_namedZone fun zone more t ht hw => ?_
  split_ifs
  · trivial
  · exact hk zone more t ht hw

theorem pays_memberZone {name : String} {userID : Int} {k : Zone → Handler Response}
    (hk : ∀ zone more t, w.db.After t.db → t.db.Wf ∧ I t.db →
      (dbLedger parseKey admits I bad).Pays still more t (k zone)) :
    (dbLedger parseKey admits I bad).Pays still heard w (memberZone name userID k) := by
  refine pays_namedZone fun zone _ t ht _ => pays_read (fun _ => rfl) fun r u hu hw _ => ?_
  rcases r with _ | _ | _
  · trivial
  · trivial
  · exact hk zone _ u (ht.trans hu) hw

end

section
variable {κ τ : Type} [DecidableEq κ] [DecidableEq τ] {parseKey : String → Option κ}

theorem step_wf {c : Config τ (Handler Response) (World κ)} (hw : c.shared.db.Wf) (t : τ)
    (fails : Bool) :
    (c.step (Prog.machine (sem parseKey)) t fails).shared.db.Wf := by
  rw [Config.step_shared]
  cases c.threads t with
  | pure a => exact hw
  | op i k =>
    show (sem parseKey i fails c.shared).2.db.Wf
    rcases sem_db parseKey c.shared i fails with h | ⟨o, -, -, h⟩
    · exact h ▸ hw
    · exact h ▸ o.exec_wf hw

theorem wf_exec {c : Config τ (Handler Response) (World κ)} (hw : c.shared.db.Wf)
    (sched : List (τ × Bool)) : (c.exec (Prog.machine (sem parseKey)) sched).shared.db.Wf := by
  induction sched generalizing c with
  | nil => exact hw
  | cons s sched ih => exact ih (step_wf hw s.1 s.2)

end

end LanWeave

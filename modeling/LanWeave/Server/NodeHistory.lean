import LanWeave.Server.Authority
import LanWeave.Server.Incremental
import LanWeave.Server.Registration

/-! The nodes of a server over registrations, deletions and the zone commands of their users: an id
means the same node for ever, a name or an address only as long as the node is there. -/

namespace LanWeave
open Library Prog

/-- A request that registers or deletes a node. -/
inductive NodeChange
  | register (i : Identity) (req : RegisterNodeRequest)
  | delete (i : Identity) (path : String)

def NodeChange.request : NodeChange → Request
  | register i req => ⟨some i, .registerNode (some req)⟩
  | delete i path => ⟨some i, .deleteNode path⟩

/-- A later state of the database. Names are stored without surrounding space. -/
structure DB.Since (db₀ db : DB) : Prop where
  wf : db.Wf
  after : db₀.After db
  named : ∀ n ∈ db.nodes, trimSpace n.name = n.name

section
variable {κ : Type} [DecidableEq κ] {parseKey : String → Option κ} {db db' db₀ : DB}

theorem DB.Since.eq_of_id (h : db₀.Since db) (hw₀ : db₀.Wf) {k n : Node} (hk : k ∈ db₀.nodes)
    (hn : n ∈ db.nodes) (hid : n.id = k.id) : n = k := by
  have hle : n.id ≤ db₀.seqNodes := hid ▸ hw₀.nodes_seq k hk
  exact hw₀.nodes_asc.keyed n (h.after.nodes n hn hle) k hk hid

/-- Sound databases stay sound, and ids are never used again. -/
theorem run_after {α : Type} (p : Handler α) (fails : Bool) {w : World κ} (hw : w.db.Wf) :
    (p.run (sem parseKey) fails w).2.db.Wf ∧ w.db.After (p.run (sem parseKey) fails w).2.db := by
  induction p generalizing w with
  | pure a => exact ⟨hw, DB.After.refl _⟩
  | op o k ih =>
    have hstep : (sem parseKey o fails w).2.db.Wf ∧ w.db.After (sem parseKey o fails w).2.db := by
      rcases sem_db parseKey w o fails with hsame | ⟨o', -, -, hsame⟩
      · rw [hsame]
        exact ⟨hw, DB.After.refl _⟩
      · rw [hsame]
        exact ⟨o'.exec_wf hw, o'.exec_after w.db⟩
    obtain ⟨hwf, hafter⟩ := ih _ hstep.1
    exact ⟨hwf, hstep.2.trans hafter⟩

/-- The server has no node that it had not before. -/
def DB.NoNewNode (db' db : DB) : Prop := ∀ n ∈ db'.nodes, n ∈ db.nodes

theorem DB.NoNewNode.of_eq (h : db'.nodes = db.nodes) : db'.NoNewNode db := fun _ hn => h ▸ hn

theorem DB.nodes_join (zoneID nodeID : Int) : (db.join zoneID nodeID).2.nodes = db.nodes := by
  rcases @DB.join_cases db zoneID nodeID with ⟨h, -⟩ | ⟨h, -⟩ | ⟨h, -⟩
  all_goals
    rw [h]
    try rfl

theorem DB.nodes_leave (zoneID nodeID : Int) : (db.leave zoneID nodeID).2.nodes = db.nodes := by
  rcases DB.leave_cases db zoneID nodeID with ⟨h, -⟩ | ⟨h, -⟩
  all_goals
    rw [h]
    try rfl

variable {h : Server κ} {i : Identity}

theorem noNewNode_deleteNode (hw : db.Wf) (path : String) :
    Leaves h.parseKey (deleteNode (some i) path) db
    fun _ db' => db'.NoNewNode db := by
  apply leaves_deleteNode hw fun _ => .of_eq rfl
  intro _ n _ hn _ _ _ m hm
  exact ((mem_withoutNode hw hn).mp hm).1

theorem noNewNode_createZone (body : Option CreateZoneRequest) (salt : Option String) :
    Leaves h.parseKey (createZone h (some i) body salt) db fun _ db' => db'.NoNewNode db := by
  apply leaves_createZone h fun _ => .of_eq rfl
  intro j name hash _ _ _ db₁ hdb₁
  have hcreated : db₁.nodes = db.nodes := by
    rw [hdb₁]
    rfl
  refine ⟨fun _ => .of_eq hcreated, fun _ => .of_eq hcreated, ?_⟩
  intro node _ _ db₂ hjoin
  have hnodes : db₂.nodes = db.nodes := by
    have hjoined := @DB.nodes_join db₁ (db.seqZones + 1) node.id
    rw [hjoin] at hjoined
    exact hjoined.trans hcreated
  exact ⟨fun _ => .of_eq hnodes, fun _ => .of_eq hnodes⟩

theorem noNewNode_joinZone (name : String) (body : Option JoinZoneRequest) :
    Leaves h.parseKey (joinZone h (some i) name body) db fun _ db' => db'.NoNewNode db := by
  apply leaves_joinZone h fun _ => .of_eq rfl
  intro _ _ zone node _ _ _ _ _ _ _ _ db' hjoin
  have hnodes : db'.nodes = db.nodes := by
    have hjoined := @DB.nodes_join db zone.id node.id
    rw [hjoin] at hjoined
    exact hjoined
  exact ⟨fun _ => .of_eq hnodes, fun _ => .of_eq ((DB.nodes_leave ..).trans hnodes)⟩

theorem noNewNode_leaveZone (name : String) (body : Option LeaveZoneRequest) :
    Leaves h.parseKey (leaveZone (some i) name body) db fun _ db' => db'.NoNewNode db := by
  apply leaves_leaveZone fun _ => .of_eq rfl
  intro _ _ zone node _ _ _ _ _ _ _ _
  refine ⟨fun _ => .of_eq rfl, fun _ => .of_eq ?_⟩
  exact (detachEach_keeps _ _ _).1

/-- The requests of the device commands and of the zone commands. -/
def Call.OfDevice : Call → Prop
  | .registerNode (some _) | .deleteNode _ | .createZone .. | .joinZone .. | .leaveZone .. => True
  | _ => False

variable {w : World κ}

theorem serve_since (hs : db₀.Since w.db) {c : Call} (hc : c.OfDevice) :
    db₀.Since (serve h w ⟨some i, c⟩).db := by
  have hrun : (serve h w ⟨some i, c⟩).db.Wf ∧ w.db.After (serve h w ⟨some i, c⟩).db :=
    run_after (handle h ⟨some i, c⟩) false hs.wf
  obtain ⟨hwf, hafter⟩ := hrun
  refine ⟨hwf, hs.after.trans hafter, ?_⟩
  have hold : (serve h w ⟨some i, c⟩).db.NoNewNode w.db →
      ∀ n ∈ (serve h w ⟨some i, c⟩).db.nodes, trimSpace n.name = n.name :=
    fun hnone n hn => hs.named n (hnone n hn)
  cases c with
  | registerNode body =>
    cases body with
    | none => exact hc.elim
    | some req =>
      rcases registerNode_cases w h i req with ⟨r, -, -, hrun, -⟩ | ⟨n, -, hname, -, -, hfits, -, hdb⟩
      · apply hold
        exact .of_eq (congrArg (fun r => r.2.db.nodes) hrun)
      · intro m hm
        have hnodes : (serve h w ⟨some i, .registerNode (some req)⟩).db.nodes = w.db.nodes ++ [n] := by
          rw [← DB.nodes_withNode hfits, ← hdb]
          rfl
        rw [hnodes] at hm
        rcases List.mem_append.mp hm with hm | hm
        · exact hs.named m hm
        · rw [List.mem_singleton.mp hm, hname, trimSpace_trimSpace]
  | deleteNode path => exact hold ((noNewNode_deleteNode hs.wf path w rfl).run false)
  | createZone body salt => exact hold ((noNewNode_createZone body salt w rfl).run false)
  | joinZone name body => exact hold ((noNewNode_joinZone name body w rfl).run false)
  | leaveZone name body => exact hold ((noNewNode_leaveZone name body w rfl).run false)
  | _ => exact hc.elim

theorem serveAll_since (hs : db₀.Since w.db) (changes : List NodeChange) :
    db₀.Since (serveAll h w (changes.map (·.request))).db := by
  induction changes generalizing w with
  | nil => exact hs
  | cons c changes ih =>
    apply ih
    cases c with
    | register i req => exact serve_since hs trivial
    | delete i path => exact serve_since hs trivial

end
end LanWeave

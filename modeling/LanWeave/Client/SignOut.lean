import LanWeave.Client.Panel
import LanWeave.Library.Dialogue
import LanWeave.Library.Lift

/-! The sign-out of the desktop panel over the calls of its API, whatever these come to. -/

namespace LanWeave
open Library Prog

/-- What the sign-out asks of the API, of the firewall, of the key store and of the state file. -/
inductive SignOutOp
  | listNodes
  | deleteNode (nodeID : Int)
  | logout
  | clearFirewall
  | deleteKey (k : KeyName)
  | clearState
deriving DecidableEq

def SignOutOp.isDeletion : SignOutOp → Bool
  | deleteNode _ => true
  | _ => false

/-- What each of them comes to; where that is a `Bool`, whether it succeeded. -/
abbrev SignOutOp.Result : SignOutOp → Type
  | listNodes => Except ApiErr (List NodeResponse)
  | deleteNode _ | logout => Except ApiErr Unit
  | _ => Bool

abbrev SignOut (α : Type) := Prog SignOutOp SignOutOp.Result α

namespace SignOut

def perform (o : SignOutOp) : SignOut o.Result := .op o .pure

def thisMachineNodeID (r : Record) : SignOut (Except PanelErr Int) := do
  match ← perform .listNodes with
  | .error err => return .error (.api err)
  | .ok nodes =>
    match nodes.find? fun n => r.isThisMachine n.name n.ip with
    | some n => return .ok n.id
    | none => return .error .notRegistered

def tryRemoveRemoteNode (r : Record) : SignOut RemoveResult := do
  match ← thisMachineNodeID r with
  | .error .notRegistered => return .done
  | .error (.api err) => return classifyRemoveErr err
  | .ok id =>
    match ← perform (.deleteNode id) with
    | .ok () => return .done
    | .error err => return if err = .zoneNotFound then .done else classifyRemoveErr err

def removeWithin (r : Record) : Nat → SignOut RemoveResult
  | 0 => tryRemoveRemoteNode r
  | more + 1 => do
    let res ← tryRemoveRemoteNode r
    if res = .blocked then removeWithin r more else return res

def removeRemoteNode (r : Record) : SignOut RemoveResult := removeWithin r 2

def tearDownLocal : SignOut Bool := do
  let _ ← perform .logout
  let _ ← perform .clearFirewall
  let session ← perform (.deleteKey .sessionToken)
  let refresh ← perform (.deleteKey .refreshToken)
  let key ← perform (.deleteKey .deviceKey)
  let cleared ← perform .clearState
  return session && refresh && key && cleared

/-- What the removal came to decides whether anything local goes. -/
def settle : RemoveResult → SignOut Controller.LogoutReply
  | .blocked => return ⟨.blocked, false, true⟩
  | .needSignIn => return ⟨.needSignIn, false, true⟩
  | .warn => do return ⟨.done, true, ← tearDownLocal⟩
  | .done => do return ⟨.done, false, ← tearDownLocal⟩

def logout (r : Record) : SignOut Controller.LogoutReply := do
  settle (← removeRemoteNode r)

end SignOut

/-- The requests of the API client and the steps on the machine behind each of them. -/
def SignOutOp.through : (o : SignOutOp) → Controller → Cli (o.Result × Controller)
  | listNodes, k => k.call .listNodes
  | deleteNode id, k => k.call (.deleteNode id)
  | logout, k => do return (← Cli.logout k.api, k)
  | clearFirewall, k => do return (← Cli.perform .clearFirewall, k)
  | deleteKey key, k => do return (← Cli.perform (.deleteKey key), k)
  | clearState, k => do return (← Cli.perform .clearState, k)

section
variable {k : Controller}

theorem bind_congr_of_returns {ι : Type} {ρ : ι → Type} {α β : Type} {p : Prog ι ρ α} {R : α → Prop}
    (hp : p.Returns R) {f g : α → Prog ι ρ β} (h : ∀ a, R a → f a = g a) : p >>= f = p >>= g := by
  induction p with
  | pure a => exact h a hp
  | op i k ih => exact congrArg (op i) (funext fun r => ih r (hp r))

theorem call_returns (call : ApiCall) :
    (k.call call).Returns fun res => res.2.record = k.record := by
  unfold Controller.call
  apply Returns.bind
  exact returns_of_forall fun _ => rfl

theorem through_returns (o : SignOutOp) : (o.through k).Returns fun res => res.2.record = k.record := by
  cases o with
  | listNodes => exact call_returns .listNodes
  | deleteNode id => exact call_returns (.deleteNode id)
  | logout =>
    apply Returns.bind
    exact returns_of_forall fun _ => rfl
  | clearFirewall | deleteKey | clearState => exact fun _ => rfl

theorem handle_returns {α : Type} (p : SignOut α) :
    (p.handle SignOutOp.through k).Returns fun res => res.2.record = k.record := by
  induction p generalizing k with
  | pure a => rfl
  | op o next ih =>
    rw [handle_op]
    apply Returns.bind
    apply (through_returns o).imp
    intro res hres
    rw [← hres]
    exact ih res.1

theorem thisMachineNodeID_handle : k.thisMachineNodeID =
    (SignOut.thisMachineNodeID k.record).handle SignOutOp.through k := by
  unfold Controller.thisMachineNodeID SignOut.thisMachineNodeID
  rw [handle_bind, SignOut.perform, handle_single]
  apply bind_congr_of_returns (call_returns .listNodes)
  intro res hrec
  obtain ⟨res, k'⟩ := res
  cases res with
  | error err => rfl
  | ok nodes =>
    simp only at hrec ⊢
    rw [hrec]
    cases nodes.find? fun n => k.record.isThisMachine n.name n.ip <;> rfl

theorem tryRemoveRemoteNode_handle : k.tryRemoveRemoteNode =
    (SignOut.tryRemoveRemoteNode k.record).handle SignOutOp.through k := by
  unfold Controller.tryRemoveRemoteNode SignOut.tryRemoveRemoteNode
  rw [handle_bind, thisMachineNodeID_handle]
  apply bind_congr_of_returns (handle_returns (SignOut.thisMachineNodeID k.record))
  intro res _
  obtain ⟨res, k'⟩ := res
  cases res with
  | error err => cases err <;> rfl
  | ok id =>
    simp only
    rw [handle_bind, SignOut.perform, handle_single]
    apply bind_congr_of_returns (call_returns (.deleteNode id))
    intro res _
    obtain ⟨res, k'⟩ := res
    cases res <;> rfl

theorem removeWithin_handle (more : Nat) : k.removeWithin more =
    (SignOut.removeWithin k.record more).handle SignOutOp.through k := by
  induction more generalizing k with
  | zero => exact tryRemoveRemoteNode_handle
  | succ more ih =>
    unfold Controller.removeWithin SignOut.removeWithin
    rw [handle_bind, tryRemoveRemoteNode_handle]
    apply bind_congr_of_returns (handle_returns (SignOut.tryRemoveRemoteNode k.record))
    intro res hrec
    obtain ⟨res, k'⟩ := res
    simp only at hrec ⊢
    rw [ih, hrec]
    split_ifs <;> rfl

theorem tearDownLocal_handle : SignOut.tearDownLocal.handle SignOutOp.through k =
    k.tearDownLocal >>= fun cleared => .pure (cleared, k) := by
  unfold Controller.tearDownLocal SignOut.tearDownLocal
  rw [handle_bind, SignOut.perform, handle_single]
  show (Cli.logout k.api >>= fun res => Prog.pure (res, k)) >>= _ = _
  rw [Prog.bind_assoc, Prog.bind_assoc]
  apply congrArg
  funext res
  rfl

/-- The sign-out of the controller is this one, each of its operations carried out by a request or
a step on the machine. -/
theorem logout_handle : k.logout =
    (SignOut.logout k.record).handle SignOutOp.through k >>= fun res => .pure res.1 := by
  unfold Controller.logout SignOut.logout Controller.removeRemoteNode SignOut.removeRemoteNode
  rw [handle_bind, Prog.bind_assoc, removeWithin_handle]
  apply congrArg
  funext res
  obtain ⟨res, k'⟩ := res
  cases res with
  | blocked | needSignIn => rfl
  | warn | done =>
    unfold SignOut.settle
    rw [handle_bind, tearDownLocal_handle, Prog.bind_assoc, Prog.bind_assoc]
    rfl

end

namespace SignOut

/-- One attempt to remove the node, by what its calls came to. -/
inductive Attempt
  | unlisted (err : ApiErr)
  | absent (nodes : List NodeResponse)
  | removal (nodes : List NodeResponse) (id : Int) (res : Except ApiErr Unit)

namespace Attempt

def log : Attempt → List (Sigma SignOutOp.Result)
  | unlisted err => [⟨.listNodes, .error err⟩]
  | absent nodes => [⟨.listNodes, .ok nodes⟩]
  | removal nodes id res => [⟨.listNodes, .ok nodes⟩, ⟨.deleteNode id, res⟩]

/-- The node looked for is this machine's. -/
def Of (r : Record) : Attempt → Prop
  | unlisted _ => True
  | absent nodes => (nodes.find? fun n => r.isThisMachine n.name n.ip) = none
  | removal nodes id _ => ((nodes.find? fun n => r.isThisMachine n.name n.ip).map (·.id)) = some id

/-- The error it failed with. To delete a node that is not there any more is no failure. -/
def failure : Attempt → Option ApiErr
  | unlisted err => some err
  | absent _ => none
  | removal _ _ (.error err) => if err = .zoneNotFound then none else some err
  | removal _ _ (.ok _) => none

def unreachable (a : Attempt) : Bool := a.failure = some .unreachable

def expired (a : Attempt) : Bool := a.failure = some .sessionExpired || a.failure = some .refreshFailed

def result (a : Attempt) : RemoveResult := a.failure.elim .done classifyRemoveErr

section
variable {a : Attempt}

theorem result_blocked : a.result = .blocked ↔ a.unreachable = true := by
  unfold result unreachable
  cases a.failure with
  | none => simp
  | some err => cases err <;> simp [classifyRemoveErr]

theorem result_needSignIn : a.result = .needSignIn ↔ a.expired = true := by
  unfold result expired
  cases a.failure with
  | none => simp
  | some err => cases err <;> simp [classifyRemoveErr]

theorem result_warn : a.result = .warn ↔
    a.unreachable = false ∧ a.failure.isSome ∧ a.expired = false := by
  unfold result unreachable expired
  cases a.failure with
  | none => simp
  | some err => cases err <;> simp [classifyRemoveErr]

theorem reachable_of_expired (h : a.expired = true) : a.unreachable = false := by
  rw [← result_needSignIn] at h
  rw [← Bool.not_eq_true, ← result_blocked, h]
  exact RemoveResult.noConfusion

end
end Attempt

/-- What a sign-out has come to, by its attempts: all but the last were unreachable. -/
structure LogoutLaw (r : Record) (attempts : List Attempt) (log : List (Sigma SignOutOp.Result))
    (reply : Controller.LogoutReply) : Prop where
  own : ∀ a ∈ attempts, a.Of r
  bounded : attempts ≠ [] ∧ attempts.length ≤ 3 ∧ ∀ a ∈ attempts.dropLast, a.unreachable = true
  blocked : reply.outcome = .blocked ↔ attempts.length = 3 ∧ ∀ a ∈ attempts, a.unreachable = true
  needSignIn : reply.outcome = .needSignIn ↔
    ∃ a, attempts.find? (!·.unreachable) = some a ∧ a.expired = true
  untouched : reply.outcome ≠ .done → log = attempts.flatMap Attempt.log
  tornDown : reply.outcome = .done → ∃ revoked rule session refresh key state,
    log = attempts.flatMap Attempt.log ++ [⟨.logout, revoked⟩, ⟨.clearFirewall, rule⟩,
      ⟨.deleteKey .sessionToken, session⟩, ⟨.deleteKey .refreshToken, refresh⟩,
      ⟨.deleteKey .deviceKey, key⟩, ⟨.clearState, state⟩] ∧
    reply.cleared = (session && refresh && key && state)
  mayLinger : reply.mayLinger = true ↔ ∃ a, attempts.find? (!·.unreachable) = some a ∧
    a.failure.isSome ∧ a.expired = false
  deletions : (log.filter fun x => x.1.isDeletion).length ≤ 3

section
variable {r : Record} {log : List (Sigma SignOutOp.Result)}

/-- Where an attempt removes the node or finds it gone, the desktop wipes; the router's sign-out does
so only where it removes the node. -/
theorem LogoutLaw.gone_wipes {attempts : List Attempt} {reply : Controller.LogoutReply}
    (h : LogoutLaw r attempts log reply) {a : Attempt} (ha : a ∈ attempts) (hgone : a.failure = none) :
    reply.outcome = .done ∧ reply.mayLinger = false := by
  have hreached : a.unreachable = false := by simp [Attempt.unreachable, hgone]
  obtain ⟨hne, -, hbefore⟩ := h.bounded
  have hsplit := List.dropLast_append_getLast hne
  have hlast : a = attempts.getLast hne := by
    rw [← hsplit] at ha
    rcases List.mem_append.mp ha with hmem | hmem
    · exact absurd (hbefore a hmem) (by simp [hreached])
    · exact List.mem_singleton.mp hmem
  -- every attempt before it was unreachable, so it is the one that decides
  have hfind : attempts.find? (!·.unreachable) = some a := by
    have hnone : attempts.dropLast.find? (!·.unreachable) = none := by
      rw [List.find?_eq_none]
      intro a' ha'
      simp [hbefore a' ha']
    rw [← hsplit, List.find?_append, hnone, ← hlast]
    simp [hreached]
  constructor
  · cases hout : reply.outcome with
    | blocked => exact absurd ((h.blocked.mp hout).2 a ha) (by simp [hreached])
    | needSignIn =>
      obtain ⟨a', ha', hexpired⟩ := h.needSignIn.mp hout
      obtain rfl := Option.some.inj (hfind.symm.trans ha')
      simp [Attempt.expired, hgone] at hexpired
    | done => rfl
  · rw [Bool.eq_false_iff]
    intro hlinger
    obtain ⟨a', ha', hfailed, -⟩ := h.mayLinger.mp hlinger
    obtain rfl := Option.some.inj (hfind.symm.trans ha')
    simp [hgone] at hfailed

theorem hears_thisMachineNodeID {res : Except PanelErr Int} (h : (thisMachineNodeID r).Hears log res) :
    (∃ err, log = [⟨.listNodes, .error err⟩] ∧ res = .error (.api err)) ∨
      ∃ nodes : List NodeResponse, log = [⟨.listNodes, .ok nodes⟩] ∧
        (((nodes.find? fun n => r.isThisMachine n.name n.ip) = none ∧ res = .error .notRegistered) ∨
          ∃ n, (nodes.find? fun n => r.isThisMachine n.name n.ip) = some n ∧ res = .ok n.id) := by
  unfold thisMachineNodeID at h
  obtain ⟨log₁, log₂, answer, rfl, hlist, hrest⟩ := hears_bind.mp h
  obtain ⟨answer', _, rfl, rfl, rfl⟩ := hlist
  cases answer with
  | error err =>
    obtain ⟨rfl, rfl⟩ := hrest
    exact .inl ⟨err, rfl, rfl⟩
  | ok nodes =>
    apply Or.inr
    refine ⟨nodes, ?_⟩
    cases hfind : nodes.find? fun n => r.isThisMachine n.name n.ip with
    | none =>
      simp only [hfind] at hrest
      obtain ⟨rfl, rfl⟩ := hrest
      exact ⟨rfl, .inl ⟨rfl, rfl⟩⟩
    | some n =>
      simp only [hfind] at hrest
      obtain ⟨rfl, rfl⟩ := hrest
      exact ⟨rfl, .inr ⟨n, rfl, rfl⟩⟩

theorem hears_tryRemoveRemoteNode {res : RemoveResult} (h : (tryRemoveRemoteNode r).Hears log res) :
    ∃ a : Attempt, a.Of r ∧ log = a.log ∧ res = a.result := by
  obtain ⟨log₁, log₂, found, rfl, hfound, hrest⟩ := hears_bind.mp h
  rcases hears_thisMachineNodeID hfound with ⟨err, rfl, rfl⟩ | ⟨nodes, rfl, ⟨hnone, rfl⟩ | ⟨n, hn, rfl⟩⟩
  · obtain ⟨rfl, rfl⟩ := hrest
    exact ⟨.unlisted err, trivial, rfl, rfl⟩
  · obtain ⟨rfl, rfl⟩ := hrest
    exact ⟨.absent nodes, hnone, rfl, rfl⟩
  · obtain ⟨answer, rest, rfl, hrest⟩ := hrest
    refine ⟨.removal nodes n.id answer, ?_, ?_⟩
    · show Option.map _ _ = _
      rw [hn]
      rfl
    · cases answer with
      | error err =>
        obtain ⟨rfl, rfl⟩ := hrest
        refine ⟨rfl, ?_⟩
        show _ = Option.elim (if err = .zoneNotFound then none else some err) _ _
        split_ifs <;> rfl
      | ok _ =>
        obtain ⟨rfl, rfl⟩ := hrest
        exact ⟨rfl, rfl⟩

theorem hears_removeWithin {more : Nat} {res : RemoveResult} (h : (removeWithin r more).Hears log res) :
    ∃ (before : List Attempt) (last : Attempt), before.length ≤ more ∧
      (∀ a ∈ before, a.Of r ∧ a.unreachable = true) ∧ last.Of r ∧
      (last.unreachable = true → before.length = more) ∧
      log = (before ++ [last]).flatMap Attempt.log ∧ res = last.result := by
  induction more generalizing log with
  | zero =>
    obtain ⟨a, hof, rfl, rfl⟩ := hears_tryRemoveRemoteNode h
    exact ⟨[], a, Nat.le_refl _, by simp, hof, fun _ => rfl, by simp, rfl⟩
  | succ more ih =>
    obtain ⟨log₁, log₂, mid, rfl, hfirst, hrest⟩ := hears_bind.mp h
    obtain ⟨a, hof, rfl, rfl⟩ := hears_tryRemoveRemoteNode hfirst
    split_ifs at hrest with hblocked
    · obtain ⟨before, last, hlen, hbefore, hlast, hend, rfl, rfl⟩ := ih hrest
      refine ⟨a :: before, last, Nat.succ_le_succ hlen, ?_, hlast, ?_, rfl, rfl⟩
      · intro a' ha'
        rcases List.mem_cons.mp ha' with rfl | ha'
        · exact ⟨hof, Attempt.result_blocked.mp hblocked⟩
        · exact hbefore a' ha'
      · intro hunreachable
        rw [List.length_cons, hend hunreachable]
    · obtain ⟨rfl, rfl⟩ := hrest
      refine ⟨[], a, Nat.zero_le _, by simp, hof, ?_, by simp, rfl⟩
      intro hunreachable
      exact absurd (Attempt.result_blocked.mpr hunreachable) hblocked

theorem hears_tearDownLocal {cleared : Bool} (h : tearDownLocal.Hears log cleared) :
    ∃ revoked rule session refresh key state, log = [⟨.logout, revoked⟩, ⟨.clearFirewall, rule⟩,
      ⟨.deleteKey .sessionToken, session⟩, ⟨.deleteKey .refreshToken, refresh⟩,
      ⟨.deleteKey .deviceKey, key⟩, ⟨.clearState, state⟩] ∧
    cleared = (session && refresh && key && state) := by
  obtain ⟨revoked, _, rfl, rule, _, rfl, session, _, rfl, refresh, _, rfl, key, _, rfl, state,
    _, rfl, rfl,
    rfl⟩ := h
  exact ⟨revoked, rule, session, refresh, key, state, rfl, rfl⟩

section
variable {res : RemoveResult} {reply : Controller.LogoutReply}

theorem hears_settle (h : (settle res).Hears log reply) :
    (log = [] ∧ res = .blocked ∧ reply = ⟨.blocked, false, true⟩) ∨
    (log = [] ∧ res = .needSignIn ∧ reply = ⟨.needSignIn, false, true⟩) ∨
    ∃ cleared, tearDownLocal.Hears log cleared ∧
      ((res = .warn ∧ reply = ⟨.done, true, cleared⟩) ∨
        (res = .done ∧ reply = ⟨.done, false, cleared⟩)) := by
  cases res with
  | blocked => exact .inl ⟨h.1, rfl, h.2⟩
  | needSignIn => exact .inr (.inl ⟨h.1, rfl, h.2⟩)
  | warn =>
    obtain ⟨log₁, log₂, cleared, rfl, htear, rfl, rfl⟩ := hears_bind.mp h
    rw [List.append_nil]
    exact .inr (.inr ⟨cleared, htear, .inl ⟨rfl, rfl⟩⟩)
  | done =>
    obtain ⟨log₁, log₂, cleared, rfl, htear, rfl, rfl⟩ := hears_bind.mp h
    rw [List.append_nil]
    exact .inr (.inr ⟨cleared, htear, .inr ⟨rfl, rfl⟩⟩)

theorem settle_reply (h : (settle res).Hears log reply) :
    (reply.outcome = .blocked ↔ res = .blocked) ∧ (reply.outcome = .needSignIn ↔ res = .needSignIn) ∧
      (reply.mayLinger = true ↔ res = .warn) := by
  rcases hears_settle h with ⟨-, rfl, rfl⟩ | ⟨-, rfl, rfl⟩ | ⟨_, -, ⟨rfl, rfl⟩ | ⟨rfl, rfl⟩⟩ <;> simp

theorem settle_log (h : (settle res).Hears log reply) : (reply.outcome ≠ .done → log = []) ∧
    (reply.outcome = .done → tearDownLocal.Hears log reply.cleared) := by
  rcases hears_settle h with ⟨rfl, -, rfl⟩ | ⟨rfl, -, rfl⟩ | ⟨_, htear, ⟨-, rfl⟩ | ⟨-, rfl⟩⟩
  · exact ⟨fun _ => rfl, fun h => LogoutOutcome.noConfusion h⟩
  · exact ⟨fun _ => rfl, fun h => LogoutOutcome.noConfusion h⟩
  · exact ⟨fun h => absurd rfl h, fun _ => htear⟩
  · exact ⟨fun h => absurd rfl h, fun _ => htear⟩

theorem settle_deletions (h : (settle res).Hears log reply) :
    (log.filter fun x => x.1.isDeletion).length = 0 := by
  obtain ⟨hkept, hgone⟩ := settle_log h
  by_cases hdone : reply.outcome = .done
  · obtain ⟨revoked, rule, session, refresh, key, state, rfl, -⟩ := hears_tearDownLocal (hgone hdone)
    rfl
  · rw [hkept hdone]
    rfl

end

theorem deletions_le (attempts : List Attempt) :
    ((attempts.flatMap Attempt.log).filter fun x => x.1.isDeletion).length ≤ attempts.length := by
  induction attempts with
  | nil => exact Nat.le_refl 0
  | cons a attempts ih =>
    have hone : (a.log.filter fun x => x.1.isDeletion).length ≤ 1 := by
      cases a <;> simp [Attempt.log, SignOutOp.isDeletion]
    rw [List.flatMap_cons, List.filter_append, List.length_append, List.length_cons]
    omega

/-- The attempt that decides is the first that was not unreachable, if there is one. -/
theorem find_deciding {before : List Attempt} {last : Attempt}
    (hbefore : ∀ a ∈ before, a.Of r ∧ a.unreachable = true) :
    (before ++ [last]).find? (!·.unreachable) = if last.unreachable then none else some last := by
  have hnone : before.find? (!·.unreachable) = none := by
    rw [List.find?_eq_none]
    intro a ha
    simp [(hbefore a ha).2]
  rw [List.find?_append, hnone]
  cases hlast : last.unreachable <;> simp [hlast]

/-- Whatever the calls come to, the sign-out follows the law. -/
theorem logout_law {reply : Controller.LogoutReply} (h : (logout r).Hears log reply) :
    ∃ attempts, LogoutLaw r attempts log reply := by
  obtain ⟨_, rest, res, rfl, hremove, hrest⟩ := hears_bind.mp h
  -- all attempts but the last failed to reach the server; the last decides
  obtain ⟨before, last, hlen, hbefore, hlast, hend, rfl, rfl⟩ := hears_removeWithin hremove
  have hfind : (before ++ [last]).find? (!·.unreachable) =
    if last.unreachable then none else some last :=
    find_deciding hbefore
  have hown : ∀ a ∈ before ++ [last], a.Of r := by
    intro a ha
    rcases List.mem_append.mp ha with ha | ha
    · exact (hbefore a ha).1
    · exact List.mem_singleton.mp ha ▸ hlast
  have hbounded : before ++ [last] ≠ [] ∧ (before ++ [last]).length ≤ 3 ∧
      ∀ a ∈ (before ++ [last]).dropLast, a.unreachable = true := by
    refine ⟨by simp, by simp; omega, ?_⟩
    rw [List.dropLast_concat]
    exact fun a ha => (hbefore a ha).2
  -- the law counts the attempts; the code decides on the last one's result
  have hall : ((before ++ [last]).length = 3 ∧ ∀ a ∈ before ++ [last], a.unreachable = true) ↔
      last.result = .blocked := by
    rw [Attempt.result_blocked]
    constructor
    · exact fun h => h.2 last (by simp)
    · intro hunreachable
      refine ⟨by simp [hend hunreachable], ?_⟩
      intro a ha
      rcases List.mem_append.mp ha with ha | ha
      · exact (hbefore a ha).2
      · exact List.mem_singleton.mp ha ▸ hunreachable
  have hneed : (∃ a, (before ++ [last]).find? (!·.unreachable) = some a ∧ a.expired = true) ↔
      last.result = .needSignIn := by
    rw [hfind, Attempt.result_needSignIn]
    constructor
    · intro h
      obtain ⟨a, ha, hexpired⟩ := h
      split_ifs at ha
      exact Option.some.inj ha ▸ hexpired
    · intro hexpired
      rw [Attempt.reachable_of_expired hexpired]
      exact ⟨last, rfl, hexpired⟩
  have hlinger : (∃ a, (before ++ [last]).find? (!·.unreachable) = some a ∧
      a.failure.isSome ∧ a.expired = false) ↔ last.result = .warn := by
    rw [hfind, Attempt.result_warn]
    constructor
    · intro h
      obtain ⟨a, ha, hfailed⟩ := h
      split_ifs at ha with hreachable
      rw [← Option.some.inj ha] at hfailed
      exact ⟨Bool.eq_false_iff.mpr hreachable, hfailed⟩
    · intro h
      rw [h.1]
      exact ⟨last, rfl, h.2⟩
  have hdeletions := (deletions_le (before ++ [last])).trans hbounded.2.1
  -- what the reply and the log of settle say, for each result of the last attempt
  obtain ⟨hblocked, hexpired, hwarn⟩ := settle_reply hrest
  obtain ⟨hkept, hgone⟩ := settle_log hrest
  refine ⟨before ++ [last], hown, hbounded, ?_, ?_, ?_, ?_, ?_, ?_⟩
  · rw [hall]
    exact hblocked
  · rw [hneed]
    exact hexpired
  · intro h
    rw [hkept h, List.append_nil]
  · intro h
    obtain ⟨revoked, rule, session, refresh, key, state, rfl, hcleared⟩ := hears_tearDownLocal (hgone h)
    exact ⟨revoked, rule, session, refresh, key, state, rfl, hcleared⟩
  · rw [hlinger]
    exact hwarn
  · rw [List.filter_append, List.length_append, settle_deletions hrest]
    exact hdeletions

end

/-- The server fails to list the nodes. -/
theorem logout_law_server_fails : ∃ attempts, LogoutLaw
    ⟨1, "https://vpn.example", "laptop", "100.80.0.2", "", "", "100.80.0.0/16", "", false, 7⟩ attempts
    [⟨.listNodes, .error .server⟩, ⟨.logout, .ok ()⟩, ⟨.clearFirewall, true⟩,
      ⟨.deleteKey .sessionToken, true⟩, ⟨.deleteKey .refreshToken, false⟩,
      ⟨.deleteKey .deviceKey, true⟩, ⟨.clearState, true⟩]
    ⟨.done, true, false⟩ := by
  apply logout_law
  exact ⟨_, _, rfl, _, _, rfl, _, _, rfl, _, _, rfl, _, _, rfl, _, _, rfl, _, _, rfl, rfl, rfl⟩

end SignOut
end LanWeave

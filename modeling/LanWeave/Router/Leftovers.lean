import LanWeave.Library.Sweep
import LanWeave.Router.Credentials
import LanWeave.Router.Footprint

/-! What a logout leaves on the router where a cycle of the daemon is under way in another
process. -/

namespace LanWeave
open Library Prog Cli

/-- What a router keeps of its membership. -/
structure Belongings where
  file : Option Record
  keys : KeyName → Option String
  nat : Option Natctl.Table

inductive Belonging
  | key (k : KeyName)
  | record
  | table
deriving DecidableEq

def Belongings.has (s : Belongings) : Belonging → Prop
  | .key k => s.keys k ≠ none
  | .record => s.file ≠ none
  | .table => s.nat ≠ none

namespace HostOp

def makes : HostOp → Belonging → Prop
  | .setKey k _, x => x = .key k
  | .saveState _, x => x = .record
  | .rebuildNat .., x => x = .table
  | _, _ => False

def drops : HostOp → Belonging → Prop
  | .deleteKey k, x => x = .key k
  | .clearState, x => x = .record
  | .teardownNat, x => x = .table
  | _, _ => False

def answer (e : Choice) (s : Belongings) : (o : HostOp) → o.Result
  | .http _ call => e.wire call
  | .readState => if e.fails then .error () else .ok s.file
  | .getKey k => if e.fails then none else s.keys k
  | .generateKeyPair => e.keyPair
  | .localOverlap _ => e.clash
  | .rebuildNat vpnPool rules => (Natctl.rebuild vpnPool rules e.fails s.nat).1.toBool
  | .saveState _ | .clearState | .setKey .. | .deleteKey _ | .teardownNat | .setRoutes _
  | .engineDown | .clearFirewall => !e.fails

def effect (s : Belongings) : HostOp → Belongings
  | .saveState r => { s with file := some r.saved }
  | .clearState => { s with file := none }
  | .setKey k v => { s with keys := Function.update s.keys k (some v) }
  | .deleteKey k => { s with keys := Function.update s.keys k none }
  | .rebuildNat vpnPool rules => { s with nat := (Natctl.rebuild vpnPool rules false s.nat).2 }
  | .teardownNat => { s with nat := none }
  | _ => s

end HostOp

namespace Belongings

def sem : Semantics HostOp HostOp.Result Choice Belongings
  | o, e, s => (o.answer e s, if e.fails then s else o.effect s)

variable {o : HostOp} {s : Belongings} {x : Belonging}

theorem has_update {k : KeyName} {v : Option String} (hx : x ≠ .key k) :
    ({ s with keys := Function.update s.keys k v } : Belongings).has x ↔ s.has x := by
  cases x with
  | key k' =>
    have hk : k' ≠ k := fun hk => hx (congrArg Belonging.key hk)
    show Function.update s.keys k v k' ≠ none ↔ s.keys k' ≠ none
    rw [Function.update_of_ne hk]
  | record => rfl
  | table => rfl

theorem has_effect_iff (hmakes : ¬o.makes x) (hdrops : ¬o.drops x) : (o.effect s).has x ↔ s.has x := by
  cases o with
  | setKey k v => exact has_update hmakes
  | deleteKey k => exact has_update hdrops
  | saveState r => cases x <;> first | rfl | exact absurd rfl hmakes
  | rebuildNat vpnPool rules => cases x <;> first | rfl | exact absurd rfl hmakes
  | clearState => cases x <;> first | rfl | exact absurd rfl hdrops
  | teardownNat => cases x <;> first | rfl | exact absurd rfl hdrops
  | _ => rfl

theorem not_has_of_drops (h : o.drops x) : ¬(o.effect s).has x := by
  intro hhas
  cases o with
  | deleteKey k =>
    obtain rfl := h
    exact hhas (Function.update_self ..)
  | clearState =>
    obtain rfl := h
    exact hhas rfl
  | teardownNat =>
    obtain rfl := h
    exact hhas rfl
  | _ => exact h

theorem has_of_makes (h : o.makes x) (hhas : s.has x) : (o.effect s).has x := by
  cases o with
  | setKey k v =>
    obtain rfl := h
    show Function.update s.keys k (some v) k ≠ none
    rw [Function.update_self]
    exact Option.some_ne_none v
  | saveState r =>
    obtain rfl := h
    exact Option.some_ne_none _
  | rebuildNat vpnPool rules =>
    obtain rfl := h
    show (Natctl.rebuild vpnPool rules false s.nat).2 ≠ none
    unfold Natctl.rebuild
    rw [if_neg Bool.false_ne_true]
    split_ifs
    · exact Option.some_ne_none _
    · exact hhas
  | _ => exact h.elim

end Belongings

/-- The operations on a router's belongings. -/
def belongings : Stock HostOp HostOp.Result Choice Belongings Belonging where
  sem := Belongings.sem
  has := Belongings.has
  makes := HostOp.makes
  drops := HostOp.drops
  fails e := e.fails = true
  made o e s x h := by
    unfold Belongings.sem at h
    simp only at h
    split_ifs at h
    · exact .inl h
    · by_cases hmakes : o.makes x
      · exact .inr hmakes
      · by_cases hdrops : o.drops x
        · exact absurd h (Belongings.not_has_of_drops hdrops)
        · exact .inl ((Belongings.has_effect_iff hmakes hdrops).mp h)
  dropped o e s x hdrops hok := by
    show ¬(if e.fails = true then s else o.effect s).has x
    rw [if_neg hok]
    exact Belongings.not_has_of_drops hdrops
  kept o e s x hdrops hhas := by
    show (if e.fails = true then s else o.effect s).has x
    split_ifs
    · exact hhas
    · by_cases hmakes : o.makes x
      · exact Belongings.has_of_makes hmakes hhas
      · exact (Belongings.has_effect_iff hmakes hdrops).mpr hhas

section
variable {x : Belonging}

theorem untouched_deleteKey {k : KeyName} (h : x ≠ .key k) : ¬belongings.Touches (.deleteKey k) x :=
  fun ht => ht.elim id h

theorem untouched_clearState (h : x ≠ .record) : ¬belongings.Touches .clearState x :=
  fun ht => ht.elim id h

/-- The wipe drops everything, one after the other. -/
theorem sweeps_wipe (x : Belonging) : belongings.Sweeps (· = 0) x wipe := by
  apply Stock.sweeps_later
  intro _
  by_cases htable : x = .table
  · subst htable
    refine Stock.sweeps_op rfl fun _ => ⟨untouched_deleteKey nofun, fun _ => ?_⟩
    refine ⟨untouched_deleteKey nofun, fun _ => ⟨untouched_deleteKey nofun, fun _ => ?_⟩⟩
    exact ⟨untouched_clearState nofun, fun _ => trivial⟩
  apply Stock.sweeps_later
  intro _
  by_cases hdevice : x = .key .deviceKey
  · subst hdevice
    refine Stock.sweeps_op rfl fun _ => ⟨untouched_deleteKey nofun, fun _ => ?_⟩
    exact ⟨untouched_deleteKey nofun, fun _ => ⟨untouched_clearState nofun, fun _ => trivial⟩⟩
  apply Stock.sweeps_later
  intro _
  by_cases hsession : x = .key .sessionToken
  · subst hsession
    refine Stock.sweeps_op rfl fun _ => ⟨untouched_deleteKey nofun, fun _ => ?_⟩
    exact ⟨untouched_clearState nofun, fun _ => trivial⟩
  apply Stock.sweeps_later
  intro _
  by_cases hrefresh : x = .key .refreshToken
  · subst hrefresh
    exact Stock.sweeps_op rfl fun _ => ⟨untouched_clearState nofun, fun _ => trivial⟩
  apply Stock.sweeps_later
  intro _
  have hrecord : x = .record := by
    rcases x with ⟨_ | _ | _⟩ | _ | _ <;> first | rfl | contradiction
  exact Stock.sweeps_op hrecord fun _ => trivial

theorem sweeps_cmdLogout (insecure force : Bool) (x : Belonging) :
    belongings.Sweeps (· = 0) x (cmdLogout insecure force) := by
  apply Stock.sweeps_bind_right loadLoose
  intro file
  cases file with
  | none => exact Nat.one_ne_zero
  | some rec =>
    dsimp only
    split_ifs with hforce hnode
    · exact sweeps_wipe x
    all_goals
      apply Stock.sweeps_bind_right (newClient insecure rec)
      intro client
      cases client with
      | none => exact Nat.one_ne_zero
      | some c => ?_
    · exact Nat.one_ne_zero
    · apply Stock.sweeps_bind_right (Cli.deleteNode c rec.nodeID 2)
      intro deleted
      split
      · exact Nat.one_ne_zero
      · exact Stock.sweeps_bind_right (Cli.logout _) fun _ => sweeps_wipe x

end

inductive Party
  | logout
  | cycle
deriving DecidableEq

/-- The logout and a cycle that the daemon begins with its record, each with its own view of
`--insecure`. -/
def racing (insecure insecure' force : Bool) (rec : Record) (s : Belongings) :
    Config Party (Cli Nat) Belongings where
  threads
    | .logout => cmdLogout insecure force
    | .cycle => do
      let ok ← Cli.reconcileAll insecure' rec
      return exitCode ok
  shared := s

theorem only_cycle {insecure : Bool} {rec : Record} (x : Belonging) :
    (do let ok ← Cli.reconcileAll insecure rec; return exitCode ok : Cli Nat).Only
      fun o => ¬belongings.drops o x := by
  have hcycle : (Cli.reconcileAll insecure rec).Only fun o => ¬belongings.drops o x :=
    only_reconcileAll (fun _ _ _ => id) (fun _ _ => id) (fun _ => id) (fun _ => id) fun _ _ _ => id
  exact hcycle.bind fun _ => trivial

/-- A logout that succeeded leaves nothing on the router exactly where the cycle stored no token
and rebuilt no table that the logout had already dealt with. -/
theorem logout_leaves_nothing (insecure insecure' force : Bool) (rec : Record) (s : Belongings)
    (sched : List (Party × Choice)) (hok : ∀ q ∈ sched, q.1 = .logout → q.2.fails = false)
    (hdone : ((racing insecure insecure' force rec s).exec
      (machine Belongings.sem) sched).threads .logout =
      .pure 0) :
    (∀ x, ¬((racing insecure insecure' force rec s).exec (machine Belongings.sem) sched).shared.has x) ↔
      Along (machine Belongings.sem) (fun c t e => ∀ x, t ≠ .logout → belongings.Brings c t e x →
        belongings.Sweeps (· = 0) x (c.threads .logout))
          (racing insecure insecure' force rec s) sched := by
  rw [← Stock.along_forall]
  apply forall_congr'
  intro x
  apply Stock.swept_iff (S := belongings) (sweeps_cmdLogout insecure force x)
  · intro u hu
    cases u with
    | logout => exact absurd rfl hu
    | cycle => exact only_cycle x
  · intro q hq ht
    rw [show belongings.fails q.2 ↔ q.2.fails = true from Iff.rfl, hok q hq ht]
    exact Bool.false_ne_true
  · exact ⟨0, rfl, hdone⟩

def homeRecord : Record :=
  ⟨3, "https://vpn", "router", "10.0.0.2", "pub", "vpn:51820", "10.0.0.0/24", "", false, 1⟩

def homeBelongings : Belongings where
  file := some homeRecord
  keys
    | .deviceKey => some "private"
    | .sessionToken => some "session"
    | .refreshToken => some "refresh"
  nat := some ⟨[], []⟩

/-- The server of a device that is in no zone, and no failures. -/
def smooth : Choice where
  redirects _ := []
  wire
    | .listZones => .presented "" true (.ok (some []))
    | .deleteNode _ => .presented "" true (.ok (some ()))
    | .logout _ => .presented "" true (.ok (some ()))
    | _ => .unreachable
  fails := false
  keyPair := ("", "")
  clash := false

def turns (t : Party) (n : Nat) : List (Party × Choice) := List.replicate n (t, smooth)

def code? : Cli Nat → Option Nat
  | .pure code => some code
  | .op _ _ => none

theorem eq_pure_of_code? {p : Cli Nat} {code : Nat} (h : code? p = some code) : p = .pure code := by
  cases p with
  | pure n => exact congrArg Prog.pure (Option.some.inj h)
  | op o k => cases h

/-- The logout while the cycle waits for its first answer. -/
def lateCycle : Config Party (Cli Nat) Belongings :=
  (racing false false false homeRecord homeBelongings).exec (machine Belongings.sem)
    (turns .cycle 3 ++ turns .logout 11 ++ turns .cycle 4)

/-- Both are done and the tokens and the table are there. -/
theorem cycle_outlives_logout :
    lateCycle.threads .logout = .pure 0 ∧ lateCycle.threads .cycle = .pure 0 ∧
      lateCycle.shared.has (.key .sessionToken) ∧ lateCycle.shared.has (.key .refreshToken) ∧
      lateCycle.shared.has .table := by
  refine ⟨eq_pure_of_code? ?_, eq_pure_of_code? ?_, ?_, ?_, ?_⟩
  · decide +kernel
  · decide +kernel
  · show lateCycle.shared.keys .sessionToken ≠ none
    decide +kernel
  · show lateCycle.shared.keys .refreshToken ≠ none
    decide +kernel
  · show lateCycle.shared.nat ≠ none
    decide +kernel

/-- The cycle ends before the logout begins. -/
theorem logout_leaves_nothing_after_cycle :
    ¬∃ x, ((racing false false false homeRecord homeBelongings).exec (machine Belongings.sem)
      (turns .cycle 7 ++ turns .logout 11)).shared.has x := by
  apply not_exists.mpr
  apply (logout_leaves_nothing false false false homeRecord homeBelongings _ ?_ ?_).mpr
  · rw [along_append]
    constructor
    · have hcycle : Along (machine Belongings.sem) (fun _ t _ => t = Party.cycle)
          (racing false false false homeRecord homeBelongings) (turns .cycle 7) :=
        ⟨rfl, rfl, rfl, rfl, rfl, rfl, rfl, trivial⟩
      refine along_of_invariant (I := fun c =>
        c.threads .logout = cmdLogout false false) ?_ ?_ rfl hcycle
      · intro c t e hc ht
        subst ht
        rwa [Config.step_other c (by decide)]
      · intro c t e hc _ x _ _
        rw [hc]
        exact sweeps_cmdLogout false false x
    · have hlogout : Along (machine Belongings.sem) (fun _ t _ => t = Party.logout)
          ((racing false false false homeRecord homeBelongings).exec (machine Belongings.sem)
            (turns .cycle 7)) (turns .logout 11) :=
        ⟨rfl, rfl, rfl, rfl, rfl, rfl, rfl, rfl, rfl, rfl, rfl, trivial⟩
      exact along_of_invariant (I := fun _ => True) (fun _ _ _ _ _ => trivial)
        (fun c t e _ ht x hne => absurd ht hne) trivial hlogout
  · decide
  · exact eq_pure_of_code? (by decide +kernel)

end LanWeave

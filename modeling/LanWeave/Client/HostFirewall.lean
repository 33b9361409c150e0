import LanWeave.Client.Panel
import LanWeave.Client.Tunnel
import LanWeave.Library.Obligation

/-! The host's inbound rule beside the tunnel, while the goroutines of the desktop panel call the
one and the other. -/

namespace LanWeave
open Library Prog

/-- The tunnel, the user's wish and the lock of the health loop, the preference of the controller
and of its state file, and whether the rule is installed. -/
structure Panel where
  tunnel : Tunnel ℕ
  made : ℕ
  desired : Bool
  reconnecting : Bool
  firewallAllowVPN : Bool
  /-- False where there is no state file. -/
  stored : Bool
  rule : Bool

/-- What `Connect` has come to at the end of its first section. -/
inductive Dial
  | returned (ok : Bool)
  | underway (eng : ℕ)

/-- A call of the tunnel or of the controller. `Connect` takes two, as others may come between
the choice of the engine and the end of the attempt. -/
inductive PanelOp
  | connect
  | conclude (eng : ℕ)
  | disconnect
  | state
  | stale
  | desired
  | setDesired (connected : Bool)
  | tryLock
  | unlock
  | reconcileFirewall (connected : Bool)
  | setFirewallAllowed (on connected : Bool)
  | logout
  | forceLogout
deriving DecidableEq

abbrev PanelOp.Result : PanelOp → Type
  | connect => Dial
  | state => TunnelState
  | logout => LogoutOutcome
  | conclude _ | stale | desired | tryLock => Bool
  | _ => Unit

structure PanelWeather where
  /-- The attempt gets its adapter and its handshake. -/
  reaches : Bool
  stale : Bool
  outcome : LogoutOutcome

namespace Panel

def teardown (s : Panel) : Panel := { s with tunnel := s.tunnel.clearExtra.unlink }

def connect (s : Panel) : Dial × Panel :=
  if s.tunnel.state ≠ .disconnected then (.returned true, s) -- one tunnel only
  else if !s.tunnel.profile.recorded then (.returned false, s)
  else (.underway s.made, { s with tunnel := s.tunnel.start s.made, made := s.made + 1 })

/-- An attempt that fails tears down whatever tunnel there is. One whose engine is no longer
current returns without an error, as one that connects does. -/
def conclude (s : Panel) (eng : ℕ) (reaches : Bool) : Bool × Panel :=
  if reaches then (true, { s with tunnel := s.tunnel.reconcile eng }) else (false, s.teardown)

def applyFirewall (s : Panel) (open' : Bool) : Panel := { s with rule := open' }

/-- `tearDownLocal`, as far as it concerns the rule. The controller's record stays. -/
def tearDownLocal (s : Panel) : Panel := { s.applyFirewall false with stored := false }

end Panel

namespace PanelOp

def sem : Semantics PanelOp PanelOp.Result PanelWeather Panel
  | connect, _, s => s.connect
  | conclude eng, w, s => s.conclude eng w.reaches
  | disconnect, _, s => ((), s.teardown)
  | state, _, s => (s.tunnel.state, s)
  | stale, w, s => (s.tunnel.eng.isSome && w.stale, s)
  | desired, _, s => (s.desired, s)
  | setDesired connected, _, s => ((), { s with desired := connected })
  | tryLock, _, s => (!s.reconnecting, { s with reconnecting := true })
  | unlock, _, s => ((), { s with reconnecting := false })
  | reconcileFirewall connected, _, s => ((), s.applyFirewall (s.firewallAllowVPN && connected))
  | setFirewallAllowed on connected, _, s =>
    ((), { s with firewallAllowVPN := on, stored := on }.applyFirewall (on && connected))
  | logout, w, s => (w.outcome, if w.outcome = .done then s.tearDownLocal else s)
  | forceLogout, _, s => ((), s.tearDownLocal)

end PanelOp

/-! ### the goroutines -/

abbrev Gui (α : Type) := Prog PanelOp PanelOp.Result α

namespace Gui

def perform (o : PanelOp) : Gui o.Result := .op o .pure

/-- `Connect`, and whether it returns no error. -/
def connect : Gui Bool := do
  match ← perform .connect with
  | .returned ok => return ok
  | .underway eng => perform (.conclude eng)

def onConnect : Gui Unit := do
  if ← connect then
    perform (.setDesired true)
    perform (.reconcileFirewall true)

def onDisconnect : Gui Unit := do
  perform (.setDesired false) -- stops the self-heal
  perform .disconnect
  perform (.reconcileFirewall false)

def onFirewallToggle (on : Bool) : Gui Unit := do
  let st ← perform .state
  perform (.setFirewallAllowed on (st = .connected))

/-- The first checks of a tick: the user wants the link and it is not healthy. -/
def needsReconnect : Gui Bool := do
  if ← perform .desired then
    match ← perform .state with
    | .connected => perform .stale
    | _ => return true
  else return false

/-- A connected tunnel is torn down first, and the rule goes for the time of the attempt. -/
def dropStale : Gui Unit := do
  match ← perform .state with
  | .disconnected => return ()
  | _ =>
    perform .disconnect
    perform (.reconcileFirewall false)

/-- The attempt itself, and the rule as the attempt and the user's wish have turned out. -/
def reattempt : Gui Unit := do
  if ← connect then
    if ← perform .desired then perform (.reconcileFirewall true)
    else perform (.reconcileFirewall false)
  else perform (.reconcileFirewall false)

def healthTick : Gui Unit := do
  if ← needsReconnect then
    if ← perform .tryLock then
      dropStale
      reattempt
      perform .unlock

def runLogout : Gui Unit := do
  match ← perform .logout with
  | .done =>
    perform (.setDesired false)
    perform .disconnect
  | _ => return ()

def runForceLogout : Gui Unit := do
  perform (.setDesired false)
  perform .disconnect
  perform .forceLogout

end Gui

inductive PanelCall
  | onConnect
  | onDisconnect
  | healthTick
  | onFirewallToggle (on : Bool)
  | runLogout
  | runForceLogout

def PanelCall.prog : PanelCall → Gui Unit
  | onConnect => Gui.onConnect
  | onDisconnect => Gui.onDisconnect
  | healthTick => Gui.healthTick
  | onFirewallToggle on => Gui.onFirewallToggle on
  | runLogout => Gui.runLogout
  | runForceLogout => Gui.runForceLogout

/-! ### the rule as a debt -/

namespace Panel

/-- The rule has its place: the tunnel is connected and the stored preference allows it. -/
def Open (s : Panel) : Prop := s.tunnel.state = .connected ∧ s.stored = true

/-- The rule is installed where it has no place. -/
def Stray (s : Panel) : Prop := s.rule = true ∧ ¬ s.Open

/-- A logout has cleared the state file under a record that allows the rule. -/
def Cleared (s : Panel) : Prop := s.firewallAllowVPN = true ∧ s.stored = false

/-- Engines are numbered as they are made, and a tunnel has one unless it is disconnected. -/
structure Numbered (s : Panel) : Prop where
  made : ∀ eng, s.tunnel.eng = some eng → eng < s.made
  down : s.tunnel.state = .disconnected ↔ s.tunnel.eng = none

/-- A later state: an engine that was there and still is has been there all the time. -/
structure Later (s s' : Panel) : Prop where
  made : s.made ≤ s'.made
  stays : ∀ eng < s.made, s'.tunnel.eng = some eng →
    s.tunnel.eng = some eng ∧ (s.tunnel.state = .connected → s'.tunnel.state = .connected)

variable {s s₁ s₂ s₃ : Panel}

theorem not_stray (h : s.rule = false) : ¬ s.Stray := fun hs => by
  rw [Stray, h] at hs
  exact Bool.false_ne_true hs.1

theorem Later.refl (s : Panel) : s.Later s := ⟨le_rfl, fun _ _ h => ⟨h, id⟩⟩

theorem Later.trans (h : s₁.Later s₂) (h' : s₂.Later s₃) : s₁.Later s₃ := by
  refine ⟨h.made.trans h'.made, fun eng hlt heng => ?_⟩
  obtain ⟨heng₂, hconn₂⟩ := h'.stays eng (hlt.trans_le h.made) heng
  obtain ⟨heng₁, hconn₁⟩ := h.stays eng hlt heng₂
  exact ⟨heng₁, fun hconn => hconn₂ (hconn₁ hconn)⟩

theorem Later.connected (h : s.Later s₁) (hn : s.Numbered) (hconn : s.tunnel.state = .connected)
    (heng : s₁.tunnel.eng = s.tunnel.eng) : s₁.tunnel.state = .connected := by
  cases hcur : s.tunnel.eng with
  | none =>
    rw [hn.down.mpr hcur] at hconn
    cases hconn
  | some eng => exact (h.stays eng (hn.made eng hcur) (heng.trans hcur)).2 hconn

theorem Later.of_tunnel (h : s₁.tunnel = s.tunnel) (hmade : s₁.made = s.made) : s.Later s₁ :=
  ⟨hmade.ge, fun _ _ heng => ⟨h ▸ heng, fun hconn => h ▸ hconn⟩⟩

theorem Numbered.of_tunnel (hn : s.Numbered) (h : s₁.tunnel = s.tunnel) (hmade : s₁.made = s.made) :
    s₁.Numbered := by
  constructor
  · rw [h, hmade]
    exact hn.made
  · rw [h]
    exact hn.down

theorem Numbered.teardown (s : Panel) : s.teardown.Numbered := ⟨nofun, iff_of_true rfl rfl⟩

theorem later_teardown (s : Panel) : s.Later s.teardown := ⟨le_rfl, nofun⟩

theorem Numbered.connect (h : s.Numbered) : s.connect.2.Numbered := by
  unfold Panel.connect
  split_ifs
  · exact h
  · exact h
  · refine ⟨fun eng heng => ?_, iff_of_false nofun nofun⟩
    rw [← Option.some.inj heng]
    exact Nat.lt_succ_self _

theorem later_connect (s : Panel) : s.Later s.connect.2 := by
  unfold Panel.connect
  split_ifs
  · exact .refl s
  · exact .refl s
  · refine ⟨Nat.le_succ _, fun eng hlt heng => ?_⟩
    rw [← Option.some.inj heng] at hlt
    exact absurd hlt (lt_irrefl _)

theorem Numbered.conclude (h : s.Numbered) (eng : ℕ) (reaches : Bool) :
    (s.conclude eng reaches).2.Numbered := by
  cases reaches with
  | false => exact .teardown s
  | true =>
    show Numbered { s with tunnel := s.tunnel.reconcile eng }
    unfold Tunnel.reconcile
    split_ifs with hcur
    · exact h
    · rw [not_not] at hcur
      refine ⟨h.made, iff_of_false nofun fun hnone => ?_⟩
      rw [hnone] at hcur
      cases hcur

theorem later_conclude (s : Panel) (eng : ℕ) (reaches : Bool) : s.Later (s.conclude eng reaches).2 := by
  cases reaches with
  | false => exact later_teardown s
  | true =>
    show s.Later { s with tunnel := s.tunnel.reconcile eng }
    unfold Tunnel.reconcile
    split_ifs
    · exact .refl s
    · exact ⟨le_rfl, fun _ _ heng => ⟨heng, fun _ => rfl⟩⟩

end Panel

section
variable {s : Panel}

theorem Panel.Numbered.step (h : s.Numbered) (i : PanelOp) (w : PanelWeather) :
    (PanelOp.sem i w s).2.Numbered := by
  cases i with
  | connect => exact h.connect
  | conclude eng => exact h.conclude eng w.reaches
  | disconnect => exact .teardown s
  | logout =>
    show Panel.Numbered (if w.outcome = .done then s.tearDownLocal else s)
    split_ifs
    · exact h.of_tunnel rfl rfl
    · exact h
  | _ => exact h.of_tunnel rfl rfl

theorem Panel.later_step (s : Panel) (i : PanelOp) (w : PanelWeather) :
    s.Later (PanelOp.sem i w s).2 := by
  cases i with
  | connect => exact later_connect s
  | conclude eng => exact later_conclude s eng w.reaches
  | disconnect => exact later_teardown s
  | logout =>
    show s.Later (if w.outcome = .done then s.tearDownLocal else s)
    split_ifs
    · exact .of_tunnel rfl rfl
    · exact .refl s
  | _ => exact .of_tunnel rfl rfl

end

def ruleLedger : Ledger PanelOp PanelOp.Result PanelWeather Panel Unit where
  sem := PanelOp.sem
  admits _ _ _ := True
  Inv := Panel.Numbered
  After := Panel.Later
  bad s _ := s.Stray
  after_refl := Panel.Later.refl
  after_trans _ _ _ := Panel.Later.trans
  inv_step i w _ h _ := h.step i w
  after_step i w s _ _ := s.later_step i w

/-! ### the condition on the schedule -/

abbrev PanelHeard := Heard PanelOp PanelOp.Result Panel

/-- The tunnel that a `Connect` without an error stands for is still there: one that found it up
found it connected, and nobody has ended it, or taken its place, since. -/
structure PanelHeard.Held (heard : PanelHeard) (s : Panel) : Prop where
  found : ∀ s₁, (⟨.connect, .returned true⟩, s₁) ∈ heard →
    s₁.tunnel.state = .connected ∧ s.tunnel.eng = s₁.tunnel.eng
  own : ∀ eng s₁, (⟨.conclude eng, true⟩, s₁) ∈ heard → s.tunnel.eng = some eng

/-- What a call relies on: between a look at the tunnel or at the user's wish and what follows from
it nobody disconnects or signs out, and an attempt that fails is the latest one. -/
def PanelCall.Still : PanelCall → PanelHeard → PanelOp → PanelWeather → Panel → Prop
  | .onConnect, heard, .reconcileFirewall true, _, s => ¬ s.Cleared ∧ heard.Held s
  | .onConnect, heard, .conclude eng, _, s => ∀ s₁, (⟨.connect, .underway eng⟩, s₁) ∈ heard →
      s.tunnel.eng = none ∨ s.tunnel.state = s₁.tunnel.state
  | .healthTick, heard, .desired, _, s => s.desired = true → heard.Held s
  | .healthTick, heard, .reconcileFirewall true, _, s => ¬ s.Cleared ∧
      ∀ s₁, heard.head? = some (⟨.desired, true⟩, s₁) → s.tunnel.eng = s₁.tunnel.eng
  | .onFirewallToggle _, heard, .setFirewallAllowed true true, _, s =>
      ∀ s₁, (⟨.state, .connected⟩, s₁) ∈ heard → s.tunnel.eng = s₁.tunnel.eng
  | .runLogout, heard, .disconnect, _, s => ∀ s₁, (⟨.logout, .done⟩, s₁) ∈ heard → s.rule = s₁.rule
  | _, _, _, _, _ => True

theorem PanelHeard.Held.mono {heard more : PanelHeard} {s : Panel} (h : PanelHeard.Held more s)
    (hsub : heard ⊆ more) : heard.Held s :=
  ⟨fun s₁ h₁ => h.found s₁ (hsub h₁), fun eng s₁ h₁ => h.own eng s₁ (hsub h₁)⟩

/-! ### what each call does about the rule -/

section
variable {i : PanelOp} {w : PanelWeather} {s : Panel}

/-- Everything that makes the rule stray. -/
theorem stray_step (h : (PanelOp.sem i w s).2.Stray) (hs : ¬ s.Stray) :
    (i = .reconcileFirewall true ∧ s.firewallAllowVPN = true ∧ ¬ s.Open) ∨
    (i = .setFirewallAllowed true true ∧ s.tunnel.state ≠ .connected) ∨
    ((∃ eng, i = .conclude eng) ∧ w.reaches = false ∧ s.rule = true) ∨
    (i = .disconnect ∧ s.rule = true) := by
  cases i with
  | reconcileFirewall connected =>
    obtain ⟨hrule, hopen⟩ := h
    have hboth : (s.firewallAllowVPN && connected) = true := hrule
    rw [Bool.and_eq_true] at hboth
    obtain ⟨hallow, rfl⟩ := hboth
    exact .inl ⟨rfl, hallow, hopen⟩
  | setFirewallAllowed on connected =>
    obtain ⟨hrule, hopen⟩ := h
    have hboth : (on && connected) = true := hrule
    rw [Bool.and_eq_true] at hboth
    obtain ⟨rfl, rfl⟩ := hboth
    exact .inr (.inl ⟨rfl, fun hconn => hopen ⟨hconn, rfl⟩⟩)
  | conclude eng =>
    cases hw : w.reaches with
    | false =>
      have hrule : (s.conclude eng w.reaches).2.rule = true := h.1
      rw [hw] at hrule
      exact .inr (.inr (.inl ⟨⟨eng, rfl⟩, rfl, hrule⟩))
    | true =>
      have hstray : ({ s with tunnel := s.tunnel.reconcile eng } : Panel).Stray := by
        have h' : (s.conclude eng w.reaches).2.Stray := h
        rwa [hw] at h'
      -- an attempt that gets through leaves the tunnel as it was or connects it
      refine absurd ⟨hstray.1, fun hopen => hstray.2 ⟨?_, hopen.2⟩⟩ hs
      show (s.tunnel.reconcile eng).state = .connected
      unfold Tunnel.reconcile
      split_ifs
      · exact hopen.1
      · rfl
  | disconnect => exact .inr (.inr (.inr ⟨rfl, h.1⟩))
  | connect =>
    have h' : s.connect.2.Stray := h
    unfold Panel.connect at h'
    split_ifs at h' with hbusy hnone
    · exact absurd h' hs
    · exact absurd h' hs
    · refine absurd ⟨h'.1, fun hopen => ?_⟩ hs
      push Not at hbusy
      rw [Panel.Open, hbusy] at hopen
      exact nomatch hopen.1
  | logout =>
    have h' : (if w.outcome = .done then s.tearDownLocal else s).Stray := h
    split_ifs at h'
    · exact absurd h' (Panel.not_stray rfl)
    · exact absurd h' hs
  | forceLogout => exact absurd h (Panel.not_stray rfl)
  | state | stale | desired | setDesired | tryLock | unlock => exact absurd h hs

end

/-! ### what each goroutine owes -/

section
variable {call : PanelCall} {heard : PanelHeard} {s : Panel} {α : Type}

theorem redeems_close {o : PanelOp} {k : o.Result → Gui α}
    (ho : o = .reconcileFirewall false ∨ o = .forceLogout) : ruleLedger.Redeems () (.op o k) := by
  intro w s _ _
  refine .inl (Panel.not_stray ?_)
  rcases ho with rfl | rfl
  · exact Bool.and_false _
  · rfl

/-- A call that, as long as it finds what it relies on, takes the rule to no wrong place. -/
theorem pays_calm {o : PanelOp} {k : o.Result → Gui α}
    (ho : ∀ w t, s.Later t → t.Numbered → call.Still heard o w t → (PanelOp.sem o w t).2.Stray → t.Stray)
    (hk : ∀ w t, s.Later t → t.Numbered → call.Still heard o w t →
      ruleLedger.Pays call.Still ((⟨o, (PanelOp.sem o w t).1⟩, (PanelOp.sem o w t).2) :: heard)
        (PanelOp.sem o w t).2 (k (PanelOp.sem o w t).1)) :
    ruleLedger.Pays call.Still heard s (.op o k) :=
  Ledger.pays_op (fun w t _ ht hn _ hstill => ho w t ht hn hstill)
    fun w t ht hn _ hstill => hk w t ht hn hstill

theorem pays_quiet {o : PanelOp} {k : o.Result → Gui α}
    (ho : o ≠ .reconcileFirewall true ∧ o ≠ .setFirewallAllowed true true ∧
      (∀ eng, o ≠ .conclude eng) ∧ o ≠ .disconnect)
    (hk : ∀ w t, s.Later t → t.Numbered → call.Still heard o w t →
      ruleLedger.Pays call.Still ((⟨o, (PanelOp.sem o w t).1⟩, (PanelOp.sem o w t).2) :: heard)
        (PanelOp.sem o w t).2 (k (PanelOp.sem o w t).1)) :
    ruleLedger.Pays call.Still heard s (.op o k) := by
  obtain ⟨hrec, hset, hconclude, hdisc⟩ := ho
  refine pays_calm (fun w t _ _ _ hbad => ?_) hk
  by_contra hs
  rcases stray_step hbad hs with ⟨h, -⟩ | ⟨h, -⟩ | ⟨⟨eng, h⟩, -⟩ | ⟨h, -⟩
  · exact hrec h
  · exact hset h
  · exact hconclude eng h
  · exact hdisc h

theorem pays_open {k : Unit → Gui α}
    (ho : ∀ w t, s.Later t → t.Numbered → call.Still heard (.reconcileFirewall true) w t →
      ¬ t.Cleared ∧ t.tunnel.state = .connected)
    (hk : ∀ more t, ruleLedger.Pays call.Still more t (k ())) :
    ruleLedger.Pays call.Still heard s (.op (.reconcileFirewall true) k) := by
  refine pays_calm (fun w t ht hn hstill hbad => ?_) fun _ _ _ _ _ => hk _ _
  obtain ⟨hkept, hconn⟩ := ho w t ht hn hstill
  obtain ⟨hrule, hclosed⟩ := hbad
  have hallow : t.firewallAllowVPN = true := (Bool.and_eq_true_iff.mp hrule).1
  cases hstored : t.stored with
  | true => exact absurd ⟨hconn, hstored⟩ hclosed
  | false => exact absurd ⟨hallow, hstored⟩ hkept

theorem pays_closing {o : PanelOp} {k : o.Result → Gui α} (hclose : ∀ r, ruleLedger.Redeems () (k r))
    (hk : ∀ r more t, ruleLedger.Pays call.Still more t (k r)) :
    ruleLedger.Pays call.Still heard s (.op o k) :=
  fun _ _ _ _ _ _ => ⟨fun _ _ => .inr (hclose _), hk _ _ _⟩

/-- From `s` on, a tunnel that has been held is connected. -/
def Secured (heard : PanelHeard) (s : Panel) : Prop :=
  ∀ t, s.Later t → heard.Held t → t.tunnel.state = .connected

theorem Secured.mono {more : PanelHeard} {t : Panel} (h : Secured heard s) (hsub : heard ⊆ more)
    (ht : s.Later t) : Secured more t := fun u hu hheld => h u (ht.trans hu) (hheld.mono hsub)

theorem secured_found (hn : s.Numbered) : Secured ((⟨.connect, .returned true⟩, s) :: heard) s := by
  intro t ht hheld
  obtain ⟨hconn, heng⟩ := hheld.found s List.mem_cons_self
  exact ht.connected hn hconn heng

theorem secured_concluded {t : Panel} {eng : ℕ} (hmade : eng < t.made) :
    Secured ((⟨.conclude eng, true⟩, (t.conclude eng true).2) :: heard) (t.conclude eng true).2 := by
  intro u hu hheld
  have hcur : u.tunnel.eng = some eng := hheld.own eng _ List.mem_cons_self
  obtain ⟨hthen, hconn⟩ := hu.stays eng hmade hcur
  refine hconn ?_
  change (t.tunnel.reconcile eng).eng = some eng at hthen
  show (t.tunnel.reconcile eng).state = .connected
  unfold Tunnel.reconcile at hthen ⊢
  split_ifs at hthen ⊢ with hgone
  · exact absurd hthen hgone
  · rfl

theorem connect_cases (s : Panel) :
    (∃ ok, s.connect = (.returned ok, s)) ∨
      s.connect = (.underway s.made,
        { s with tunnel := s.tunnel.start s.made, made := s.made + 1 }) := by
  unfold Panel.connect
  split_ifs
  · exact .inl ⟨true, rfl⟩
  · exact .inl ⟨false, rfl⟩
  · exact .inr rfl

/-- The end of an attempt: one that fails has its failure made up for by the rest, or else found the
tunnel ended or still in the making. -/
theorem pays_conclude {eng : ℕ} {k : Bool → Gui α} (hmade : eng < s.made)
    (hdial : (call = .onConnect ∧ ∃ s₁ : Panel, s₁.tunnel.state = .connecting ∧
      (⟨.connect, .underway eng⟩, s₁) ∈ heard) ∨ ruleLedger.Redeems () (k false))
    (hfalse : ∀ more t, ruleLedger.Pays call.Still more t (k false))
    (htrue : ∀ more t, t.Numbered → Secured more t → ruleLedger.Pays call.Still more t (k true)) :
    ruleLedger.Pays call.Still heard s (.op (.conclude eng) k) := by
  intro w t ht hn _ hstill
  cases hw : w.reaches with
  | true =>
    have hend : ruleLedger.sem (.conclude eng) w t = t.conclude eng true := by
      show t.conclude eng w.reaches = _
      rw [hw]
    refine ⟨fun x hbad => .inl ?_, ?_⟩
    · by_contra hs
      rcases stray_step hbad hs with ⟨h, -⟩ | ⟨h, -⟩ | ⟨-, h, -⟩ | ⟨h, -⟩
      · cases h
      · cases h
      · rw [hw] at h
        cases h
      · cases h
    · rw [hend]
      exact htrue _ _ (hn.conclude eng true) (secured_concluded (hmade.trans_le ht.made))
  | false =>
    have hend : ruleLedger.sem (.conclude eng) w t = (false, t.teardown) := by
      show t.conclude eng w.reaches = _
      rw [hw]
      rfl
    rw [hend]
    refine ⟨fun x hbad => ?_, hfalse _ _⟩
    rcases hdial with ⟨rfl, s₁, hdialed, hmem⟩ | hclose
    · -- the attempt it watched was still connecting: the tunnel was not open, the rule stray before
      refine .inl ⟨hbad.1, fun hopen => ?_⟩
      rcases hstill s₁ hmem with hgone | hsame
      · rw [Panel.Open, hn.down.mpr hgone] at hopen
        cases hopen.1
      · rw [Panel.Open, hsame, hdialed] at hopen
        cases hopen.1
    · exact .inr hclose

/-- `Connect` and what follows: after an error either the rest closes the rule, or no other attempt
took the place of the one that failed; after none the tunnel is connected for as long as it is held. -/
theorem pays_connect {f : Bool → Gui α} (hfail : call = .onConnect ∨ ruleLedger.Redeems () (f false))
    (hfalse : ∀ more t, ruleLedger.Pays call.Still more t (f false))
    (htrue : ∀ more t, t.Numbered → Secured more t → ruleLedger.Pays call.Still more t (f true)) :
    ruleLedger.Pays call.Still heard s (Gui.connect >>= f) := by
  apply pays_quiet (by simp)
  intro w t _ hn _
  have hn' : t.connect.2.Numbered := hn.connect
  rcases connect_cases t with ⟨ok, hres⟩ | hres
  · have hend : PanelOp.sem .connect w t = (.returned ok, t) := hres
    rw [hend]
    cases ok with
    | false => exact hfalse _ _
    | true => exact htrue _ _ hn (secured_found hn)
  · have hend : PanelOp.sem .connect w t = _ := hres
    rw [hend]
    refine pays_conclude (Nat.lt_succ_self _) ?_ hfalse htrue
    exact hfail.imp_left fun hcall => ⟨hcall, _, rfl, List.mem_cons_self⟩

theorem pays_onConnect : ruleLedger.Pays PanelCall.onConnect.Still heard s Gui.onConnect := by
  apply pays_connect (.inl rfl)
  · exact fun _ _ => trivial
  · intro more t _ hsecured
    apply pays_quiet (by simp)
    intro w u hu _ _
    refine pays_open (fun _ v hv _ hstill => ⟨hstill.1, ?_⟩) fun _ _ => trivial
    have hlater : t.Later v := (hu.trans (u.later_step _ w)).trans hv
    exact hsecured v hlater (hstill.2.mono (List.subset_cons_self _ _))

theorem pays_drop {f : Unit → Gui α} (hf : ∀ more t, ruleLedger.Pays call.Still more t (f ())) :
    ruleLedger.Pays call.Still heard s (.op .disconnect fun _ => .op (.reconcileFirewall false) f) := by
  apply pays_closing
  · exact fun _ => redeems_close (.inl rfl)
  · exact fun _ _ _ => pays_quiet (by simp) fun _ _ _ _ _ => hf _ _

theorem pays_onDisconnect : ruleLedger.Pays call.Still heard s Gui.onDisconnect := by
  apply pays_quiet (by simp)
  exact fun _ _ _ _ _ => pays_drop fun _ _ => trivial

theorem pays_onFirewallToggle (on : Bool) :
    ruleLedger.Pays (PanelCall.onFirewallToggle on).Still heard s (Gui.onFirewallToggle on) := by
  apply pays_quiet (by simp)
  intro w t _ hn _
  refine pays_calm (fun w u hu _ hstill hbad => ?_) fun _ _ _ _ _ => trivial
  by_contra hs
  rcases stray_step hbad hs with ⟨h, -⟩ | ⟨h, hup⟩ | ⟨⟨eng, h⟩, -⟩ | ⟨h, -⟩
  · cases h
  · obtain ⟨rfl, hst⟩ := PanelOp.setFirewallAllowed.inj h
    have hconn : t.tunnel.state = .connected := of_decide_eq_true hst
    have hmem : ((⟨.state, .connected⟩, t) : Sigma PanelOp.Result × Panel) ∈
        (⟨.state, t.tunnel.state⟩, t) :: heard := by
      rw [hconn]
      exact List.mem_cons_self
    rw [hst] at hstill
    exact hup (hu.connected hn hconn (hstill t hmem))
  · cases h
  · cases h

theorem pays_needsReconnect : ruleLedger.Pays call.Still heard s Gui.needsReconnect := by
  apply pays_quiet (by simp)
  intro w t _ _ _
  show ruleLedger.Pays call.Still _ _ (if t.desired then _ else _)
  cases t.desired with
  | false => trivial
  | true =>
    apply pays_quiet (by simp)
    intro w u _ _ _
    generalize PanelOp.sem .state w u = found
    obtain ⟨st, v⟩ := found
    cases st with
    | connected => exact pays_quiet (by simp) fun _ _ _ _ _ => trivial
    | disconnected | connecting => trivial

theorem pays_dropStale : ruleLedger.Pays call.Still heard s Gui.dropStale := by
  apply pays_quiet (by simp)
  intro w t _ _ _
  generalize PanelOp.sem .state w t = found
  obtain ⟨st, u⟩ := found
  cases st with
  | disconnected => trivial
  | connected | connecting => exact pays_drop fun _ _ => trivial

theorem pays_reattempt : ruleLedger.Pays PanelCall.healthTick.Still heard s Gui.reattempt := by
  apply pays_connect (.inr (redeems_close (.inl rfl)))
  · exact fun _ _ => pays_quiet (by simp) fun _ _ _ _ _ => trivial
  · intro more t _ hsecured
    apply pays_quiet (by simp)
    intro w u hu hn hwish
    have hend : PanelOp.sem .desired w u = (u.desired, u) := rfl
    cases hwanted : u.desired with
    | false =>
      rw [hend, hwanted]
      exact pays_quiet (by simp) fun _ _ _ _ _ => trivial
    | true =>
      rw [hend, hwanted]
      have hconn : u.tunnel.state = .connected := hsecured u hu (hwish hwanted)
      refine pays_open (fun _ v hv _ hstill => ⟨hstill.1, ?_⟩) fun _ _ => trivial
      exact hv.connected hn hconn (hstill.2 u rfl)

theorem pays_healthTick : ruleLedger.Pays PanelCall.healthTick.Still heard s Gui.healthTick := by
  apply pays_needsReconnect.bind
  intro more t needed _ _
  cases needed with
  | false => trivial
  | true =>
    apply pays_quiet (by simp)
    intro w u _ _ _
    generalize PanelOp.sem .tryLock w u = found
    obtain ⟨locked, v⟩ := found
    cases locked with
    | false => trivial
    | true =>
      apply pays_dropStale.bind
      intro more t _ _ _
      apply pays_reattempt.bind
      intro more t _ _ _
      exact pays_quiet (by simp) fun _ _ _ _ _ => trivial

theorem pays_runLogout : ruleLedger.Pays PanelCall.runLogout.Still heard s Gui.runLogout := by
  apply pays_quiet (by simp)
  intro w t _ _ _
  have hend : PanelOp.sem .logout w t = (w.outcome,
    if w.outcome = .done then t.tearDownLocal else t) := rfl
  cases hw : w.outcome with
  | done =>
    rw [hend, hw, if_pos rfl]
    apply pays_quiet (by simp)
    intro w u _ _ _
    refine pays_calm (fun w v _ _ hstill hbad => ?_) fun _ _ _ _ _ => trivial
    have hkept : v.rule = t.tearDownLocal.rule := hstill _ (List.mem_cons_of_mem _ List.mem_cons_self)
    have hrule : v.rule = true := hbad.1
    rw [hrule] at hkept
    cases hkept
  | blocked | needSignIn =>
    rw [hend, hw]
    trivial

theorem pays_runForceLogout : ruleLedger.Pays call.Still heard s Gui.runForceLogout := by
  apply pays_quiet (by simp)
  intro _ _ _ _ _
  apply pays_closing
  · exact fun _ => redeems_close (.inr rfl)
  · exact fun _ _ _ => pays_quiet (by simp) fun _ _ _ _ _ => trivial

theorem pays_prog (call : PanelCall) (s : Panel) : ruleLedger.Pays call.Still [] s call.prog := by
  cases call with
  | onConnect => exact pays_onConnect
  | onDisconnect => exact pays_onDisconnect
  | healthTick => exact pays_healthTick
  | onFirewallToggle on => exact pays_onFirewallToggle on
  | runLogout => exact pays_runLogout
  | runForceLogout => exact pays_runForceLogout

end

/-! ### any interleaving -/

section
variable {τ : Type} [DecidableEq τ]

/-- However the goroutines interleave and however the attempts end: if each finds what it relies on,
the rule is in its place once all have finished. -/
theorem firewall_mirrors_tunnel (calls : τ → PanelCall) {s : Panel} (hn : s.Numbered) (hs : ¬ s.Stray)
    {sched : List (τ × PanelWeather)}
    (hok : Along (noting PanelOp.sem) (Upheld fun t => (calls t).Still)
      (noted ⟨fun t => (calls t).prog, s⟩)
      sched)
    (hdone : ∀ t, ∃ a, ((Config.mk (fun t => (calls t).prog) s).exec (machine PanelOp.sem)
      sched).threads t = .pure a) :
    let s' := ((Config.mk (fun t => (calls t).prog) s).exec (machine PanelOp.sem) sched).shared
    s'.rule = true → s'.tunnel.state = .connected ∧ s'.stored = true := by
  intro s' hrule
  have hcareful : Along (noting PanelOp.sem) (ruleLedger.Careful fun t => (calls t).Still)
      (noted ⟨fun t => (calls t).prog, s⟩) sched :=
    hok.imp₂ hok fun _ _ _ h _ i k hop => ⟨trivial, h i k hop⟩
  by_contra hopen
  have hsettled := Ledger.settled (L := ruleLedger) (c := ⟨fun t => (calls t).prog, s⟩) hn
    (fun t => pays_prog (calls t) s) (fun _ => hs) hcareful hdone
  exact hsettled () ⟨hrule, hopen⟩

end

/-! ### an attempt abandoned, and a tick overtaken -/

/-- A panel that allows the rule, with the tunnel down. -/
def labPanel : Panel :=
  ⟨newTunnel ℕ ⟨true, none, none, none, none⟩, 0, false, false, true, true, false⟩

/-- The same panel while the user wants the link. -/
def wantingPanel : Panel := { labPanel with desired := true }

theorem labPanel_numbered : labPanel.Numbered := ⟨fun _ h => (by cases h), iff_of_true rfl rfl⟩

def reached : PanelWeather := ⟨true, false, .done⟩

def connectAndToggle : Fin 2 → PanelCall
  | 0 => .onConnect
  | 1 => .onFirewallToggle true

def connectAndDisconnect : Fin 2 → PanelCall
  | 0 => .onConnect
  | 1 => .onDisconnect

def tickAndDisconnect : Fin 2 → PanelCall
  | 0 => .healthTick
  | 1 => .onDisconnect

/-- The preference is saved while the connection is being recorded. -/
theorem firewall_mirrors_tunnel_connect :
    let c := (Config.mk (fun t => (connectAndToggle t).prog) labPanel).exec (machine PanelOp.sem)
      ([0, 0, 1, 0, 1, 0].map fun t => (t, reached))
    c.shared.rule = true → c.shared.tunnel.state = .connected ∧ c.shared.stored = true := by
  apply firewall_mirrors_tunnel connectAndToggle labPanel_numbered (Panel.not_stray rfl)
  · refine ⟨upheld_op rfl trivial, upheld_op rfl ?_, upheld_op rfl trivial, upheld_op rfl trivial,
      upheld_op rfl ?_, upheld_op rfl ?_, trivial⟩
    · intro s₁ h
      obtain ⟨-, rfl⟩ := Prod.mk.inj (List.mem_singleton.mp h)
      exact .inr rfl
    · intro s₁ h
      obtain ⟨-, rfl⟩ := Prod.mk.inj (List.mem_singleton.mp h)
      rfl
    · refine ⟨fun h => (by cases h.2), fun s₁ h => ?_, fun eng s₁ h => ?_⟩
      · rcases List.mem_cons.mp h with h | h
        · cases (Prod.mk.inj h).1
        · rcases List.mem_cons.mp h with h | h
          · cases (Prod.mk.inj h).1
          · cases (Prod.mk.inj (List.mem_singleton.mp h)).1
      · rcases List.mem_cons.mp h with h | h
        · cases (Prod.mk.inj h).1
        · rcases List.mem_cons.mp h with h | h
          · cases (Prod.mk.inj h).1
            rfl
          · cases (Prod.mk.inj (List.mem_singleton.mp h)).1
  · exact Fin.forall_fin_two.mpr ⟨⟨(), rfl⟩, (), rfl⟩

/-- The disconnect ends the attempt, which returns without an error all the same. -/
def abandoned : Config (Fin 2) (Gui Unit) Panel :=
  (Config.mk (fun t => (connectAndDisconnect t).prog) labPanel).exec (machine PanelOp.sem)
    ([0, 1, 1, 1, 0, 0, 0].map fun t => (t, reached))

/-- A tick has asked for the user's wish when the disconnect removes the rule. -/
def overtakenTick : Config (Fin 2) (Gui Unit) Panel :=
  (Config.mk (fun t => (tickAndDisconnect t).prog) wantingPanel).exec (machine PanelOp.sem)
    ([0, 0, 0, 0, 0, 0, 0, 1, 1, 1, 0, 0].map fun t => (t, reached))

theorem rule_without_tunnel :
    ((∀ t, abandoned.threads t = .pure ()) ∧ abandoned.shared.rule = true ∧
      abandoned.shared.tunnel.state = .disconnected) ∧
    ((∀ t, overtakenTick.threads t = .pure ()) ∧ overtakenTick.shared.rule = true ∧
      overtakenTick.shared.tunnel.state = .disconnected) :=
  ⟨⟨Fin.forall_fin_two.mpr ⟨rfl, rfl⟩, rfl, rfl⟩, Fin.forall_fin_two.mpr ⟨rfl, rfl⟩, rfl, rfl⟩

end LanWeave

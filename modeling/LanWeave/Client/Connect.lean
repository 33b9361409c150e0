import LanWeave.Client.Tunnel
import LanWeave.Library.Interleaving

/-! `Tunnel.Connect` and `Tunnel.Disconnect` as interleaved calls. A step is one section that
holds the mutex, or one call into the engine. -/

namespace LanWeave
open Library

/-- The real engine: its device and interface name, set by a successful `up`. -/
structure WgEngine where
  dev : Bool
  name : String
  /-- `up` has succeeded at some time. -/
  upped : Bool

namespace WgEngine

def new : WgEngine := ⟨false, "", false⟩

def up (name : String) : WgEngine := ⟨true, name, true⟩

/-- Without a device there is nothing to close. -/
def close (e : WgEngine) : WgEngine := { e with dev := false, name := "" }

end WgEngine

/-- The tunnel and every engine made for it, numbered as they are made. -/
structure Net where
  tunnel : Tunnel ℕ
  made : ℕ
  engines : ℕ → WgEngine

inductive ConnectErr
  | noSetup
  | adapter
  | serverUnreachable
deriving DecidableEq

/-- A call, by the step it takes next. A teardown knows whose it is: that of the attempt which
made this engine, or of a `Disconnect`. -/
inductive Pc
  | connect
  | bringUp (eng : ℕ)
  | name (eng : ℕ) (ifName : String)
  | await (eng : ℕ)
  | reconcile (eng : ℕ)
  | clear (own : Option ℕ) (err : Option ConnectErr)
  | unlink (own : Option ℕ) (err : Option ConnectErr)
  | close (own : Option ℕ) (eng : ℕ) (err : Option ConnectErr)
  | returned (err : Option ConnectErr)

structure Weather where
  /-- How an `up` ends: with the name of the interface, or with an error. -/
  up : Option String
  handshaked : Bool
  /-- The deadline of the attempt has passed. -/
  expired : Bool

def Pc.disconnect : Pc := .clear none none

/-- `Connect`, first section. -/
def Net.connect (s : Net) : Pc × Net :=
  if s.tunnel.state ≠ .disconnected then (.returned none, s) -- one tunnel only
  else if !s.tunnel.profile.recorded then (.returned (some .noSetup), s)
  else
    let eng := s.made
    let s := { s with tunnel := s.tunnel.start eng, made := eng + 1 }
    match s.tunnel.profile.uapiConfig, s.tunnel.profile.address, s.tunnel.profile.network with
    | some _, some _, some _ => (.bringUp eng, s)
    | _, _, _ => (.clear (some eng) (some .noSetup), s)

def Pc.step : Machine Pc Weather Net
  | .connect, _, s => s.connect
  | .bringUp eng, w, s =>
    match w.up with
    | none => (.clear (some eng) (some .adapter), s)
    | some ifName =>
      (.name eng ifName, { s with engines := Function.update s.engines eng (.up ifName) })
  | .name eng ifName, _, s => (.await eng, { s with tunnel := s.tunnel.setIfName ifName })
  | .await eng, w, s =>
    if w.expired then (.clear (some eng) (some .serverUnreachable), s)
    else if w.handshaked then (.reconcile eng, s)
    else (.await eng, s) -- probes the server and looks again
  | .reconcile eng, _, s => (.returned none, { s with tunnel := s.tunnel.reconcile eng })
  | .clear own err, _, s => (.unlink own err, { s with tunnel := s.tunnel.clearExtra })
  | .unlink own err, _, s =>
    (match s.tunnel.eng with
      | some eng => .close own eng err
      | none => .returned err, { s with tunnel := s.tunnel.unlink })
  | .close _ eng err, _, s =>
    (.returned err, { s with engines := Function.update s.engines eng (s.engines eng).close })
  | .returned err, _, s => (.returned err, s)

def Net.new (profile : Profile) : Net := ⟨newTunnel ℕ profile, 0, fun _ => .new⟩

namespace Pc

def own : Pc → Option ℕ
  | connect => none
  | bringUp eng => some eng
  | name eng _ => some eng
  | await eng => some eng
  | reconcile eng => some eng
  | clear own _ => own
  | unlink own _ => own
  | close own _ _ => own
  | returned _ => none

/-- The next step assigns the tunnel's state, engine or interface name. -/
def Writes : Pc → Net → Prop
  | connect, s => s.tunnel.state = .disconnected ∧ s.tunnel.profile.recorded
  | name .., _ => True
  | reconcile eng, s => s.tunnel.eng = some eng
  | unlink .., _ => True
  | _, _ => False

/-- The attempt has still to write, whatever happens. -/
def Pending (eng : ℕ) : Pc → Prop
  | bringUp e => e = eng
  | name e _ => e = eng
  | clear own _ => own = some eng
  | unlink own _ => own = some eng
  | _ => False

/-- A call that goes on to a section that holds the mutex. -/
def Open : Pc → Prop
  | connect => False
  | close .. => False
  | returned _ => False
  | _ => True

inductive Steps (w : Weather) (s : Net) : Pc → Pc → Net → Prop
  | busy : s.tunnel.state ≠ .disconnected → Steps w s connect (returned none) s
  | noSetup : s.tunnel.state = .disconnected → s.tunnel.profile.recorded = false →
      Steps w s connect (returned (some .noSetup)) s
  | start {p : Pc} : s.tunnel.state = .disconnected → s.tunnel.profile.recorded = true →
      p = bringUp s.made ∨ p = clear (some s.made) (some .noSetup) →
      Steps w s connect p { s with tunnel := s.tunnel.start s.made, made := s.made + 1 }
  | upFails {eng : ℕ} : w.up = none → Steps w s (bringUp eng) (clear (some eng) (some .adapter)) s
  | up {eng : ℕ} {ifName : String} : w.up = some ifName → Steps w s (bringUp eng) (name eng ifName)
      { s with engines := Function.update s.engines eng (.up ifName) }
  | name {eng : ℕ} {ifName : String} : Steps w s (name eng ifName) (await eng)
      { s with tunnel := s.tunnel.setIfName ifName }
  | expired {eng : ℕ} : w.expired = true →
      Steps w s (await eng) (clear (some eng) (some .serverUnreachable)) s
  | handshaked {eng : ℕ} : Steps w s (await eng) (reconcile eng) s
  | waits {eng : ℕ} : Steps w s (await eng) (await eng) s
  | abandoned {eng : ℕ} : s.tunnel.eng ≠ some eng → Steps w s (reconcile eng) (returned none) s
  | connected {eng : ℕ} : s.tunnel.eng = some eng → Steps w s (reconcile eng) (returned none)
      { s with tunnel := { s.tunnel with state := .connected } }
  | clear {own : Option ℕ} {err : Option ConnectErr} : Steps w s (clear own err) (unlink own err)
      { s with tunnel := s.tunnel.clearExtra }
  | unlink {own : Option ℕ} {err : Option ConnectErr} {eng : ℕ} : s.tunnel.eng = some eng →
      Steps w s (unlink own err) (close own eng err) { s with tunnel := s.tunnel.unlink }
  | idle {own : Option ℕ} {err : Option ConnectErr} : s.tunnel.eng = none →
      Steps w s (unlink own err) (returned err) { s with tunnel := s.tunnel.unlink }
  | close {own : Option ℕ} {eng : ℕ} {err : Option ConnectErr} :
      Steps w s (close own eng err) (returned err)
        { s with engines := Function.update s.engines eng (s.engines eng).close }
  | returned {err : Option ConnectErr} : Steps w s (returned err) (returned err) s

variable {p : Pc} {s : Net} {w : Weather}

theorem connect_steps : Steps w s connect s.connect.1 s.connect.2 := by
  by_cases hs : s.tunnel.state = .disconnected
  · cases hr : s.tunnel.profile.recorded with
    | false =>
      have hconnect : s.connect = (returned (some .noSetup), s) := by
        simp [Net.connect, hs, hr]
      rw [hconnect]
      exact .noSetup hs hr
    | true =>
      simp only [Net.connect, hs, hr, ne_eq, not_true_eq_false, if_false, Bool.not_true,
        Bool.false_eq_true]
      split
      · exact .start hs hr (.inl rfl)
      · exact .start hs hr (.inr rfl)
  · rw [Net.connect, if_pos hs]
    exact .busy hs

theorem step_steps (p : Pc) (w : Weather) (s : Net) : Steps w s p (p.step w s).1 (p.step w s).2 := by
  cases p with
  | connect => exact connect_steps
  | bringUp eng =>
    cases hup : w.up with
    | none =>
      simp only [Pc.step, hup]
      exact .upFails hup
    | some ifName =>
      simp only [Pc.step, hup]
      exact .up hup
  | name => exact .name
  | await eng =>
    simp only [Pc.step]
    split_ifs with hexp hh
    · exact .expired hexp
    · exact .handshaked
    · exact .waits
  | reconcile eng =>
    simp only [Pc.step, Tunnel.reconcile]
    split_ifs with heng
    · exact .abandoned heng
    · exact .connected (not_not.mp heng)
  | clear => exact .clear
  | unlink own err =>
    simp only [Pc.step]
    split
    · next heng => exact .unlink heng
    · next heng => exact .idle heng
  | close => exact .close
  | returned => exact .returned

theorem Pending.own {eng : ℕ} (h : p.Pending eng) : p.own = some eng := by
  cases p with
  | bringUp | name => exact congrArg some h
  | clear | unlink => exact h
  | connect | await | reconcile | close | returned => exact h.elim

theorem step_frame (h : ¬ p.Writes s) (w : Weather) :
    (p.step w s).2.tunnel.state = s.tunnel.state ∧ (p.step w s).2.tunnel.eng = s.tunnel.eng ∧
      (p.step w s).2.tunnel.ifName = s.tunnel.ifName := by
  have hstep := step_steps p w s
  generalize (p.step w s).1 = p', (p.step w s).2 = s' at hstep
  cases hstep with
  | start hs hr => exact absurd ⟨hs, hr⟩ h
  | name | unlink | idle => exact absurd trivial h
  | connected heng => exact absurd heng h
  | _ => exact ⟨rfl, rfl, rfl⟩

end Pc
end LanWeave

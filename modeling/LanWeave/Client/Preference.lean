import LanWeave.Client.State
import LanWeave.Library.History
import Mathlib.Tactic.SplitIfs

/-! The firewall preference in the controller, in its state file and in the host's rule, while
the setters of the controller save one shared record and a save may fail. -/

namespace LanWeave
open Library

/-- The step of `Save` that fails. Before the last one, the rename, the file is not touched. -/
inductive SaveStep
  | mkdirAll
  | createTemp
  | write
  | chmod
  | close
  | rename
deriving DecidableEq

inductive SettingsErr
  | save (step : SaveStep)
  | addRule
  | deleteRule
deriving DecidableEq

/-- What happens outside at a call: where a save fails, and whether the host carries out the
deletion and the addition of the rule. -/
structure SettingsWeather where
  saveFails : Option SaveStep
  deletes : Bool
  adds : Bool
deriving DecidableEq

/-- The record of the controller, the one of its file, and the rule of the host. -/
structure Settings where
  record : Record
  file : Option Record
  rule : Bool
deriving DecidableEq

inductive SettingsCall
  | setFirewallAllowed (on connected : Bool)
  | setPinnedCert (fp : String)
  | reconcileFirewall (connected : Bool)
deriving DecidableEq

namespace Settings

def firewallAllowed (s : Settings) : Bool := s.record.firewallAllowVPN

/-- The preference in the file, if there is one. -/
def persisted (s : Settings) : Option Bool := s.file.map (·.firewallAllowVPN)

def save (s : Settings) (w : SettingsWeather) : Except SettingsErr Unit × Settings :=
  match w.saveFails with
  | some step => (.error (.save step), s)
  | none => (.ok (), { s with file := some s.record.saved })

/-- The deletion before the addition is best effort. -/
def allow (s : Settings) (w : SettingsWeather) : Except SettingsErr Unit × Settings :=
  if w.adds then (.ok (), { s with rule := true })
  else (.error .addRule, { s with rule := s.rule && !w.deletes })

def clear (s : Settings) (w : SettingsWeather) : Except SettingsErr Unit × Settings :=
  if w.deletes then (.ok (), { s with rule := false }) else (.error .deleteRule, s)

def applyFirewall (s : Settings) (w : SettingsWeather) (open' : Bool) :
    Except SettingsErr Unit × Settings :=
  if open' then s.allow w else s.clear w

def setFirewallAllowed (s : Settings) (w : SettingsWeather) (on connected : Bool) :
    Except SettingsErr Unit × Settings :=
  let s := { s with record.firewallAllowVPN := on }
  match s.save w with
  | (.error err, s) => (.error err, s)
  | (.ok (), s) => s.applyFirewall w (on && connected)

def setPinnedCert (s : Settings) (w : SettingsWeather) (fp : String) :
    Except SettingsErr Unit × Settings :=
  let s := { s with record.pinnedCertSHA256 := fp }
  s.save w

def reconcileFirewall (s : Settings) (w : SettingsWeather) (connected : Bool) :
    Except SettingsErr Unit × Settings :=
  s.applyFirewall w (s.record.firewallAllowVPN && connected)

def call (s : Settings) (w : SettingsWeather) : SettingsCall → Except SettingsErr Unit × Settings
  | .setFirewallAllowed on connected => s.setFirewallAllowed w on connected
  | .setPinnedCert fp => s.setPinnedCert w fp
  | .reconcileFirewall connected => s.reconcileFirewall w connected

def step (s : Settings) (x : SettingsCall × SettingsWeather) : Settings := (s.call x.2 x.1).2

/-- The controller holds the preference that its file holds. -/
def Agrees (s : Settings) : Prop := s.persisted = some s.firewallAllowed

/-- What a call must do about the preference. -/
structure Atomic (s : Settings) (x : SettingsCall × SettingsWeather) : Prop where
  /-- A failed save leaves the preference, the file and the rule. -/
  failed : ∀ on connected, x.1 = .setFirewallAllowed on connected → ∀ step,
    (s.call x.2 x.1).1 = .error (.save step) → (s.step x).firewallAllowed = s.firewallAllowed ∧
      (s.step x).file = s.file ∧ (s.step x).rule = s.rule
  /-- A rule is there only as the stored preference has it, or from before. -/
  installed : ∀ connected, x.1 = .reconcileFirewall connected → (s.step x).rule = true →
    s.rule = true ∨ s.persisted = some true ∧ connected = true
  reconciled : ∀ connected, x.1 = .reconcileFirewall connected → (s.call x.2 x.1).1 = .ok () →
    ((s.step x).rule = true ↔ s.persisted = some true ∧ connected = true)
  /-- The other calls do not store a preference. -/
  kept : (∀ on connected, x.1 ≠ .setFirewallAllowed on connected) →
    (s.step x).persisted = s.persisted

/-- If the save of a preference fails, it is the preference there was. -/
def Harmless (s : Settings) (x : SettingsCall × SettingsWeather) : Prop :=
  match x.1 with
  | .setFirewallAllowed on _ => x.2.saveFails ≠ none → on = s.firewallAllowed
  | _ => True

variable {s : Settings} {w : SettingsWeather} {open' : Bool} {on connected : Bool} {fp : String}

theorem applyFirewall_keeps (s : Settings) (w : SettingsWeather) (open' : Bool) :
    (s.applyFirewall w open').2.record = s.record ∧ (s.applyFirewall w open').2.file = s.file := by
  simp only [applyFirewall, allow, clear]
  split_ifs <;> exact ⟨rfl, rfl⟩

theorem applyFirewall_ne_save {step : SaveStep} :
    (s.applyFirewall w open').1 ≠ .error (.save step) := by
  simp only [applyFirewall, allow, clear]
  split_ifs <;> simp

theorem applyFirewall_rule (h : (s.applyFirewall w open').2.rule = true) :
    s.rule = true ∨ open' = true := by
  simp only [applyFirewall, allow, clear] at h
  split_ifs at h with hopen hadds hdeletes
  · exact .inr hopen
  · rw [Bool.and_eq_true] at h
    exact .inl h.1
  · exact .inl h

theorem applyFirewall_ok (h : (s.applyFirewall w open').1 = .ok ()) :
    (s.applyFirewall w open').2.rule = open' := by
  simp only [applyFirewall, allow, clear] at h ⊢
  split_ifs at h ⊢ with hopen hadds hdeletes
  · exact hopen.symm
  · simpa using hopen

theorem setFirewallAllowed_failed {step : SaveStep} (hfail : w.saveFails = some step) :
    s.setFirewallAllowed w on connected =
      (.error (.save step), { s with record.firewallAllowVPN := on }) := by
  simp only [setFirewallAllowed, save, hfail]

theorem setFirewallAllowed_saved (hsaved : w.saveFails = none) :
    (s.setFirewallAllowed w on connected).2.record = { s.record with firewallAllowVPN := on } ∧
      (s.setFirewallAllowed w on connected).2.persisted = some on ∧
      ∀ step, (s.setFirewallAllowed w on connected).1 ≠ .error (.save step) := by
  simp only [setFirewallAllowed, save, hsaved, persisted]
  obtain ⟨hrecord, hfile⟩ := applyFirewall_keeps { s with
    record.firewallAllowVPN := on
    file := some { s.record with firewallAllowVPN := on }.saved } w (on && connected)
  refine ⟨hrecord, ?_, fun step => applyFirewall_ne_save⟩
  rw [hfile]
  exact congrArg some (Record.saved_firewallAllowVPN _)

theorem setPinnedCert_keeps (hs : s.Agrees) :
    (s.setPinnedCert w fp).2.firewallAllowed = s.firewallAllowed ∧
      (s.setPinnedCert w fp).2.persisted = s.persisted := by
  cases hfail : w.saveFails with
  | none =>
    simp only [setPinnedCert, save, hfail]
    exact ⟨rfl, (congrArg some (Record.saved_firewallAllowVPN _)).trans hs.symm⟩
  | some step =>
    simp only [setPinnedCert, save, hfail]
    exact ⟨rfl, rfl⟩

theorem Agrees.step (hs : s.Agrees) {x : SettingsCall × SettingsWeather} (hx : s.Harmless x) :
    (s.step x).Agrees := by
  obtain ⟨c, w⟩ := x
  cases c with
  | setFirewallAllowed on connected =>
    cases hfail : w.saveFails with
    | none =>
      obtain ⟨hrecord, hfile, -⟩ := @setFirewallAllowed_saved s w on connected hfail
      show (s.setFirewallAllowed w on connected).2.persisted = some _
      rw [hfile]
      exact congrArg some (congrArg Record.firewallAllowVPN hrecord).symm
    | some step =>
      have hon : on = s.firewallAllowed := hx (by simp [hfail])
      have hafter := @setFirewallAllowed_failed s w on connected step hfail
      show (s.setFirewallAllowed w on connected).2.persisted =
        some (s.setFirewallAllowed w on connected).2.firewallAllowed
      rw [hafter, hon]
      exact hs
  | setPinnedCert fp =>
    obtain ⟨hallowed, hfile⟩ := @setPinnedCert_keeps s w fp hs
    show (s.setPinnedCert w fp).2.persisted = some (s.setPinnedCert w fp).2.firewallAllowed
    rw [hallowed, hfile]
    exact hs
  | reconcileFirewall connected =>
    obtain ⟨hrecord, hfile⟩ := applyFirewall_keeps s w (s.record.firewallAllowVPN && connected)
    show (s.applyFirewall w _).2.file.map (·.firewallAllowVPN) =
      some (s.applyFirewall w _).2.record.firewallAllowVPN
    rw [hrecord, hfile]
    exact hs

theorem Agrees.atomic_iff (hs : s.Agrees) (x : SettingsCall × SettingsWeather) :
    s.Atomic x ↔ s.Harmless x := by
  obtain ⟨c, w⟩ := x
  cases c with
  | setFirewallAllowed on connected =>
    cases hfail : w.saveFails with
    | none =>
      obtain ⟨-, -, hnot⟩ := @setFirewallAllowed_saved s w on connected hfail
      refine iff_of_true ⟨?_, by simp, by simp, by simp⟩ fun h => absurd hfail h
      rintro on' connected' heq step herr
      exact absurd herr (hnot step)
    | some step =>
      -- the record in memory has the new value already when the save fails
      have hafter := @setFirewallAllowed_failed s w on connected step hfail
      constructor
      · intro hatomic _
        have hsame := (hatomic.failed on connected rfl step (congrArg Prod.fst hafter)).1
        show on = s.firewallAllowed
        rw [← hsame]
        exact (congrArg (fun r => r.2.firewallAllowed) hafter).symm
      · intro hon
        have heq : on = s.firewallAllowed := hon (by simp [hfail])
        have hstep : s.step (.setFirewallAllowed on connected, w) = s := by
          show (s.setFirewallAllowed w on connected).2 = s
          rw [hafter, heq]
          rfl
        exact ⟨fun _ _ _ _ _ => by rw [hstep]; exact ⟨rfl, rfl, rfl⟩, by simp, by simp, by simp⟩
  | setPinnedCert fp =>
    refine iff_of_true ⟨by simp, by simp, by simp, fun _ => ?_⟩ trivial
    exact (setPinnedCert_keeps hs).2
  | reconcileFirewall connected =>
    have hpref : (s.record.firewallAllowVPN && connected) = true ↔
        s.persisted = some true ∧ connected = true := by
      rw [hs, Bool.and_eq_true, Option.some.injEq]
      rfl
    refine iff_of_true ⟨by simp, ?_, ?_, fun _ => ?_⟩ trivial
    · rintro _ ⟨⟩ hrule
      exact (applyFirewall_rule hrule).imp_right hpref.mp
    · rintro _ ⟨⟩ hok
      rw [← hpref, ← applyFirewall_ok hok]
      rfl
    · exact congrArg (Option.map _) (applyFirewall_keeps s w _).2

end Settings

/-- Whatever the order of the calls and whichever saves fail, the preference is atomic throughout
the history exactly when no save fails that was to change it. -/
theorem preference_atomic_iff {s : Settings} (hs : s.Agrees)
    (calls : List (SettingsCall × SettingsWeather)) :
    Throughout Settings.step Settings.Atomic s calls ↔
      Throughout Settings.step Settings.Harmless s calls :=
  throughout_iff hs (fun _ x hs => Settings.Agrees.atomic_iff hs x) fun _ _ hs hx => hs.step hx

/-- A device that is set up, with the rule closed in record, file and host. -/
def closedSettings : Settings :=
  let record : Record := ⟨3, "https://relay", "laptop", "100.127.0.2", "key", "relay:51820",
    "100.127.0.0/16", "", false, 1⟩
  ⟨record, some record, false⟩

def clearWeather : SettingsWeather := ⟨none, true, true⟩

/-- The user allows the rule and is told that this failed; the tunnel comes up, and the
certificate is pinned. -/
def failedToggle : List (SettingsCall × SettingsWeather) :=
  [(.setFirewallAllowed true false, ⟨some .write, true, true⟩), (.reconcileFirewall true, clearWeather),
    (.setPinnedCert "ff", clearWeather)]

/-- The refused preference is reported at once, opens the rule, and is stored with the pin. -/
theorem refused_preference_spreads :
    ¬ Throughout Settings.step Settings.Atomic closedSettings failedToggle ∧
    ((failedToggle.take 1).foldl Settings.step closedSettings).firewallAllowed = true ∧
    ((failedToggle.take 2).foldl Settings.step closedSettings).rule = true ∧
    ((failedToggle.take 2).foldl Settings.step closedSettings).persisted = some false ∧
    (failedToggle.foldl Settings.step closedSettings).persisted = some true := by
  refine ⟨?_, by decide, by decide, by decide, by decide⟩
  rintro ⟨hatomic, -⟩
  have hsame := (hatomic.failed true false rfl .write rfl).1
  exact absurd hsame (by decide)

theorem preference_atomic_iff_toggled :
    Throughout Settings.step Settings.Atomic closedSettings
      [(.setFirewallAllowed true true, clearWeather),
      (.setFirewallAllowed true true, ⟨some .rename, true, true⟩),
        (.reconcileFirewall false, clearWeather)] := by
  apply (preference_atomic_iff (s := closedSettings) rfl _).mpr
  exact ⟨fun h => absurd rfl h, fun _ => by decide, trivial, trivial⟩

end LanWeave

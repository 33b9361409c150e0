import LanWeave.Library.Journal
import LanWeave.Library.Lift
import Mathlib.Data.Nat.Basic
import Mathlib.Tactic.SplitIfs

/-! The daemon of the router: it brings the tunnel up, watches the handshake and rebuilds a stale
session, next to an interface that may be taken away behind its back. -/

namespace LanWeave.Daemon
open Library Prog

/-- Where the interface comes from. -/
inductive Iface
  /-- Built by an `Up` of this daemon that returned no error. -/
  | built
  /-- Half built, left by a process that died, or made by someone else. -/
  | leftover
deriving DecidableEq

/-- The steps of `Up` after the interface has been looked for. -/
inductive UpStep
  | deviceKey
  | serverKey
  | endpoint
  | linkAdd
  | refetch
  | parseAddress
  | assignAddress
  | openWgctrl
  | configureDevice
  | linkSetUp
  | routeReplace
deriving DecidableEq

/-- The steps that fail with the interface already created. -/
def UpStep.created : UpStep → Bool
  | deviceKey | serverKey | endpoint | linkAdd => false
  | _ => true

inductive EngineErr
  | ifaceExists
  | up (step : UpStep)
  | linkDel
  | readDevice
deriving DecidableEq

/-- What another process does to the interface before a call of the engine. -/
inductive Meddling
  | nothing
  /-- The command `down`. -/
  | removes
  | leaves
deriving DecidableEq

/-- What happens outside at a call of the engine. -/
structure Weather where
  meddling : Meddling
  upFails : Option UpStep
  /-- Another process removes the interface between the look for it and its deletion. -/
  vanishes : Bool
  delFails : Bool
  readFails : Bool
  /-- The last handshake, unless it is the zero time. -/
  handshake : Option Int
  now : Int

/-- What the calls of the engine find, after what others have done. -/
def Weather.meet (w : Weather) (link : Option Iface) : Option Iface :=
  match w.meddling with
  | .nothing => link
  | .removes => none
  | .leaves => some (link.getD .leftover)

/-- `Down`, apart from the memory of the consumer routes. -/
def down (w : Weather) : Option Iface → Except EngineErr Unit × Option Iface
  | none => (.ok (), none)
  | some iface =>
    if w.vanishes then (.error .linkDel, none)
    else if w.delFails then (.error .linkDel, some iface)
    else (.ok (), none)

/-- `Up`. A step that fails after the interface was created takes it down again if it can. -/
def up (w : Weather) : Option Iface → Except EngineErr Unit × Option Iface
  | some iface => (.error .ifaceExists, some iface)
  | none =>
    match w.upFails with
    | none => (.ok (), some .built)
    | some step => (.error (.up step), if step.created then (down w (some .leftover)).2 else none)

def lastHandshake (w : Weather) : Option Iface → Except EngineErr (Option Int)
  | none => .error .readDevice
  | some _ => if w.readFails then .error .readDevice else .ok w.handshake

inductive EngineOp
  | up
  | down
  | lastHandshake
  | now
deriving DecidableEq

abbrev EngineOp.Result : EngineOp → Type
  | up | down => Except EngineErr Unit
  | lastHandshake => Except EngineErr (Option Int)
  | now => Int

def sem : Semantics EngineOp EngineOp.Result Weather (Option Iface)
  | .up, w, link => up w (w.meet link)
  | .down, w, link => down w (w.meet link)
  | .lastHandshake, w, link => (lastHandshake w (w.meet link), w.meet link)
  | .now, w, link => (w.now, w.meet link)

abbrev Loop (α : Type) := Prog EngineOp EngineOp.Result α

def perform (o : EngineOp) : Loop o.Result := .op o .pure

/-- `240 * time.Second`. -/
def staleAfter : Int := 240000000000

/-- Whether the tunnel is up. An interface that is in the way is replaced. -/
def tryUp : Loop Bool := do
  match ← perform .up with
  | .ok () => return true
  | .error .ifaceExists =>
    match ← perform .down with
    | .error _ => return false
    | .ok () =>
      match ← perform .up with
      | .ok () => return true
      | .error _ => return false
  | .error _ => return false

/-- A handshake that cannot be read is not stale, nor is one that never was. -/
def stale : Loop Bool := do
  match ← perform .lastHandshake with
  | .error _ => return false
  | .ok none => return false
  | .ok (some hs) =>
    let now ← perform .now
    return staleAfter < now - hs

/-- What the loop receives: a tick of the clock, or that its context is done. -/
inductive Wake
  | tick
  | done
deriving DecidableEq

/-- One turn of the loop at a tick, from what it believes to what it believes then. -/
def onTick (up : Bool) : Loop Bool :=
  if !up then tryUp
  else do
    if ← stale then
      match ← perform .down with
      | .error _ => return true
      | .ok () => tryUp
    else return true

/-- Where the loop is: still watching, with what it believes of the tunnel, or returned. -/
inductive Stage
  | watching (up : Bool)
  | returned (err : Option EngineErr)
deriving DecidableEq

def watch (up : Bool) : List Wake → Loop Stage
  | [] => .pure (.watching up)
  | .done :: _ => do
    match ← perform .down with
    | .error err => return .returned (some err)
    | .ok () => return .returned none
  | .tick :: wakes => do
    let up ← onTick up
    watch up wakes

/-- `Run`, as far as it has come. -/
def run (wakes : List Wake) : Loop Stage := do
  let up ← tryUp
  watch up wakes

/-- A call of the engine, with the interface and the weather it met. -/
abbrev Entry := Option Iface × EngineOp × Weather

abbrev Past := List Entry

variable {w : Weather} {link : Option Iface}

theorem meet_ne_built (h : link ≠ some .built) : w.meet link ≠ some .built := by
  unfold Weather.meet
  cases w.meddling with
  | nothing => exact h
  | removes => simp
  | leaves =>
    cases link with
    | none => simp
    | some iface => exact h

theorem down_cases (w : Weather) (link : Option Iface) :
    down w link = (.ok (), none) ∨
      (w.vanishes = true ∨ w.delFails = true) ∧ ∃ link', down w link = (.error .linkDel, link') ∧
        (link' = link ∨ link' = none ∧ w.vanishes = true) := by
  cases link with
  | none => exact .inl rfl
  | some iface =>
    simp only [down]
    split_ifs with hvanish hdel
    · exact .inr ⟨.inl hvanish, none, rfl, .inr ⟨rfl, hvanish⟩⟩
    · exact .inr ⟨.inr hdel, some iface, rfl, .inl rfl⟩
    · exact .inl rfl

theorem meet_ne_none (hkept : w.meddling ≠ .removes) (h : link ≠ none) : w.meet link ≠ none := by
  unfold Weather.meet
  cases hmeddling : w.meddling with
  | nothing => exact h
  | removes => exact absurd hmeddling hkept
  | leaves => exact Option.some_ne_none _

theorem up_cases (w : Weather) (link : Option Iface) :
    link ≠ none ∧ up w link = (.error .ifaceExists, link) ∨
    w.upFails = none ∧ up w link = (.ok (), some .built) ∨
    w.upFails ≠ none ∧ ∃ step link', up w link = (.error (.up step), link') ∧ link' ≠ some .built := by
  cases link with
  | some iface => exact .inl ⟨Option.some_ne_none iface, rfl⟩
  | none =>
    cases hfail : w.upFails with
    | none => exact .inr (.inl ⟨rfl, by simp only [up, hfail]⟩)
    | some step =>
      refine .inr (.inr ⟨Option.some_ne_none step, step,
        if step.created then (down w (some .leftover)).2 else none, by simp only [up, hfail], ?_⟩)
      split_ifs
      · simp only [down]
        split_ifs <;> simp
      · simp

/-- The last calls read a handshake that was older than the threshold. -/
def FoundStale (past : Past) : Prop :=
  ∃ before link w link' w' hs, past = before ++ [(link, .lastHandshake, w), (link', .now, w')] ∧
    lastHandshake w (w.meet link) = .ok (some hs) ∧ staleAfter < w'.now - hs

/-- A call that tears down a tunnel the daemon has built. -/
def Entry.TearsDown (x : Entry) : Prop := x.2.1 = .down ∧ x.2.2.meet x.1 = some .built

/-- The tunnels the daemon has built were torn down only when found stale. -/
def Spares (past : Past) : Prop :=
  ∀ before (x : Entry) after, past = before ++ x :: after → x.TearsDown → FoundStale before

/-- The engine fails only at an interface that exists, or is gone already, and nobody else removes
the interface. -/
structure Weather.Calm (w : Weather) : Prop where
  kept : w.meddling ≠ .removes
  up : w.upFails = none
  stays : w.vanishes = false
  del : w.delFails = false
  read : w.readFails = false

structure Weather.Undisturbed (w : Weather) : Prop where
  kept : w.meddling ≠ .removes
  stays : w.vanishes = false

theorem spares_snoc {past : Past} {x : Entry} :
    Spares (past ++ [x]) ↔ Spares past ∧ (x.TearsDown → FoundStale past) := forall_split_snoc

/-- What an attempt to bring the tunnel up comes to. -/
structure Raised (s : Option Iface × Past) (up : Bool) (s' : Option Iface × Past) : Prop where
  spares : s.1 ≠ some .built → Spares s.2 → Spares s'.2
  unbuilt : up = false → s.1 ≠ some .built → s'.1 ≠ some .built
  built : up = true → s'.1 = some .built
  calm : (∀ x ∈ s'.2, x.2.2.Calm) → s'.1 ≠ none

abbrev Loop.Ensures {α : Type} (p : Loop α) (s : Option Iface × Past)
    (Q : α → Option Iface × Past → Prop) : Prop := p.Always (journaled sem) s Q

theorem ensures_perform {α : Type} {o : EngineOp} {f : o.Result → Loop α} {s : Option Iface × Past}
    {Q : α → Option Iface × Past → Prop} : Loop.Ensures (perform o >>= f) s Q ↔
      ∀ w, (f (sem o w s.1).1).Ensures ((sem o w s.1).2, s.2 ++ [(s.1, o, w)]) Q := Iff.rfl

theorem Spares.snoc {past : Past} {o : EngineOp} (h : Spares past) (ho : o ≠ .down) :
    Spares (past ++ [(link, o, w)]) := spares_snoc.mpr ⟨h, fun hdown => absurd hdown.1 ho⟩

theorem Spares.snoc_down {past : Past} (h : Spares past)
    (hlink : w.meet link = some .built → FoundStale past) :
    Spares (past ++ [(link, .down, w)]) := spares_snoc.mpr ⟨h, fun hdown => hlink hdown.2⟩

def upAgain : Loop Bool := do
  match ← perform .up with
  | .ok () => return true
  | .error _ => return false

theorem upAgain_raised (s : Option Iface × Past) : upAgain.Ensures s (Raised s) := by
  obtain ⟨link, past⟩ := s
  rw [upAgain, ensures_perform]
  intro w
  have hpast : Spares past → Spares (past ++ [(link, .up, w)]) := fun h => h.snoc (by decide)
  rcases up_cases w (w.meet link) with ⟨hlink, hup⟩ | ⟨-, hup⟩ | ⟨hfail, step, link', hup, hne⟩
  · simp only [sem, hup]
    exact ⟨fun _ => hpast, fun _ => meet_ne_built, by simp, fun _ => hlink⟩
  · simp only [sem, hup]
    exact ⟨fun _ => hpast, by simp, fun _ => rfl, by simp⟩
  · simp only [sem, hup]
    refine ⟨fun _ => hpast, fun _ _ => hne, by simp, fun hall => ?_⟩
    exact absurd (hall (link, .up, w) (by simp)).up hfail

theorem tryUp_raised (s : Option Iface × Past) : tryUp.Ensures s (Raised s) := by
  obtain ⟨link, past⟩ := s
  rw [tryUp, ensures_perform]
  intro w
  have hpast : Spares past → Spares (past ++ [(link, .up, w)]) := fun h => h.snoc (by decide)
  rcases up_cases w (w.meet link) with ⟨hlink, hup⟩ | ⟨-, hup⟩ | ⟨hfail, step, link', hup, hne⟩
  · -- the interface in the way is not one the daemon has built
    simp only [sem, hup]
    rw [ensures_perform]
    intro w'
    have hdown : link ≠ some .built → Spares past →
        Spares (past ++ [(link, .up, w)] ++ [(w.meet link, .down, w')]) := by
      intro hne hspares
      exact (hpast hspares).snoc_down fun hbuilt => absurd hbuilt (meet_ne_built (meet_ne_built hne))
    rcases down_cases w' (w'.meet (w.meet link)) with hdel | ⟨hfail, link', hdel, hlink'⟩
    · simp only [sem, hdel]
      refine (upAgain_raised _).mono fun b s' h => ?_
      refine ⟨fun hne hspares => h.spares (by simp) (hdown hne hspares), ?_, h.built, h.calm⟩
      exact fun hb _ => h.unbuilt hb (by simp)
    · simp only [sem, hdel]
      refine ⟨hdown, fun _ hne => ?_, by simp, fun hall => ?_⟩
      · rcases hlink' with rfl | ⟨rfl, -⟩
        · exact meet_ne_built (meet_ne_built hne)
        · simp
      · have hcalm : w'.Calm := hall (w.meet link, .down, w') (by simp)
        rw [hcalm.stays, hcalm.del] at hfail
        exact absurd hfail (by simp)
  · simp only [sem, hup]
    exact ⟨fun _ => hpast, by simp, fun _ => rfl, by simp⟩
  · simp only [sem, hup]
    refine ⟨fun _ => hpast, fun _ _ => hne, by simp, fun hall => ?_⟩
    exact absurd (hall (link, .up, w) (by simp)).up hfail

/-- What a look at the handshake comes to. -/
structure Looked (s : Option Iface × Past) (old : Bool) (s' : Option Iface × Past) : Prop where
  spares : Spares s.2 → Spares s'.2
  found : old = true → FoundStale s'.2
  unbuilt : s.1 ≠ some .built → s'.1 ≠ some .built
  present : (∀ x ∈ s'.2, x.2.2.Undisturbed) → s.1 ≠ none → s'.1 ≠ none

theorem stale_looked (s : Option Iface × Past) : stale.Ensures s (Looked s) := by
  obtain ⟨link, past⟩ := s
  rw [stale, ensures_perform]
  intro w
  have hpast : Spares past → Spares (past ++ [(link, .lastHandshake, w)]) := fun h => h.snoc (by decide)
  have hquiet : Looked (link, past) false (w.meet link, past ++ [(link, .lastHandshake, w)]) := by
    refine ⟨hpast, by simp, meet_ne_built, fun hall => meet_ne_none ?_⟩
    exact (hall (link, .lastHandshake, w) (by simp)).kept
  cases hread : lastHandshake w (w.meet link) with
  | error err =>
    simp only [sem, hread]
    exact hquiet
  | ok handshake =>
    cases handshake with
    | none =>
      simp only [sem, hread]
      exact hquiet
    | some hs =>
      simp only [sem, hread]
      rw [ensures_perform]
      intro w'
      refine ⟨fun h => (hpast h).snoc (by decide), fun hold => ?_,
        fun hne => meet_ne_built (meet_ne_built hne), fun hall hne => ?_⟩
      · rw [decide_eq_true_eq] at hold
        exact ⟨past, link, w, _, w', hs, List.append_assoc .., hread, hold⟩
      · have hw : w.Undisturbed := hall (link, .lastHandshake, w) (by simp)
        have hw' : w'.Undisturbed := hall (w.meet link, .now, w') (by simp)
        exact meet_ne_none hw'.kept (meet_ne_none hw.kept hne)

structure Ticked (up : Bool) (s : Option Iface × Past) (up' : Bool)
    (s' : Option Iface × Past) : Prop where
  spares : (up = false → s.1 ≠ some .built) → Spares s.2 → Spares s'.2
  unbuilt : (up = false → s.1 ≠ some .built) → up' = false → s'.1 ≠ some .built
  present : (∀ x ∈ s'.2, x.2.2.Undisturbed) → (up = true → s.1 ≠ none) → up' = true → s'.1 ≠ none
  calm : (∀ x ∈ s'.2, x.2.2.Calm) → (up = true → s.1 ≠ none) → s'.1 ≠ none

theorem onTick_ticked (up : Bool) (s : Option Iface × Past) : (onTick up).Ensures s (Ticked up s) := by
  obtain ⟨link, past⟩ := s
  cases up with
  | false =>
    refine (tryUp_raised (link, past)).mono fun up' s' h => ?_
    refine ⟨fun hne => h.spares (hne rfl), fun hne hup => h.unbuilt hup (hne rfl), fun _ _ hup => ?_,
      fun hall _ => h.calm hall⟩
    rw [h.built hup]
    simp
  | true =>
    show (stale >>= _).Always (journaled sem) (link, past) _
    rw [always_bind]
    refine (stale_looked (link, past)).mono fun old s' hlook => ?_
    obtain ⟨link', past'⟩ := s'
    have hcalm : ∀ {l : Past}, (∀ x ∈ l, x.2.2.Calm) → ∀ x ∈ l, x.2.2.Undisturbed := by
      intro l hall x hx
      exact ⟨(hall x hx).kept, (hall x hx).stays⟩
    cases old with
    | false =>
      exact ⟨fun _ => hlook.spares, by simp, fun hall hne _ => hlook.present hall (hne rfl),
        fun hall hne => hlook.present (hcalm hall) (hne rfl)⟩
    | true =>
      show Loop.Ensures (perform .down >>= _) (link', past') _
      rw [ensures_perform]
      intro w
      have hdown : Spares past → Spares (past' ++ [(link', .down, w)]) := by
        intro hspares
        exact (hlook.spares hspares).snoc_down fun _ => hlook.found rfl
      -- the teardown went through, or it failed and what interface there is was not removed by it
      rcases down_cases w (w.meet link') with hdel | ⟨hfail, link'', hdel, hlink''⟩
      · simp only [sem, hdel]
        refine (tryUp_raised _).mono fun up' s' h => ?_
        refine ⟨fun _ hspares => h.spares (by simp) (hdown hspares),
          fun _ hup => h.unbuilt hup (by simp),
          fun _ _ hup => ?_, fun hall _ => h.calm hall⟩
        rw [h.built hup]
        simp
      · simp only [sem, hdel]
        have hpresent : (∀ x ∈ past' ++ [(link', .down, w)], x.2.2.Undisturbed) → link ≠ none →
            link'' ≠ none := by
          intro hall hne
          have hw : w.Undisturbed := hall (link', .down, w) (by simp)
          rcases hlink'' with rfl | ⟨-, hvanish⟩
          · exact meet_ne_none hw.kept (hlook.present (fun x hx => hall x (by simp [hx])) hne)
          · rw [hw.stays] at hvanish
            cases hvanish
        exact ⟨fun _ => hdown, by simp, fun hall hne _ => hpresent hall (hne rfl),
          fun hall hne => hpresent (hcalm hall) (hne rfl)⟩

/-- What holds whenever the loop waits: no tunnel that the daemon has built is up while it believes
there is none, and where nobody else removed the interface there is one while it believes so. -/
structure Sound (up : Bool) (s : Option Iface × Past) : Prop where
  spares : Spares s.2
  unbuilt : up = false → s.1 ≠ some .built
  present : (∀ x ∈ s.2, x.2.2.Undisturbed) → up = true → s.1 ≠ none

def Stage.Sound (s : Option Iface × Past) : Stage → Prop
  | watching up => Daemon.Sound up s
  | returned _ => ∃ before x, s.2 = before ++ [x] ∧ Spares before

theorem Ticked.sound {up up' : Bool} {s s' : Option Iface × Past} (h : Ticked up s up' s')
    (hs : Sound up s) (hpast : s.2 <+: s'.2) : Sound up' s' where
  spares := h.spares hs.unbuilt hs.spares
  unbuilt := h.unbuilt hs.unbuilt
  present hall hup := h.present hall (hs.present fun x hx => hall x (hpast.subset hx)) hup

theorem watch_sound {up : Bool} {s : Option Iface × Past} (hs : Sound up s) (wakes : List Wake) :
    (watch up wakes).Ensures s fun r s' => r.Sound s' := by
  induction wakes generalizing up s with
  | nil => exact hs
  | cons wake wakes ih =>
    cases wake with
    | done =>
      rw [watch, ensures_perform]
      intro w
      cases (sem .down w s.1).1 with
      | error err => exact ⟨s.2, _, rfl, hs.spares⟩
      | ok _ => exact ⟨s.2, _, rfl, hs.spares⟩
    | tick =>
      rw [watch, Loop.Ensures, always_bind]
      have hgrow := @always_extends _ _ _ _ _ sem (onTick up) s.1 s.2
      refine ((onTick_ticked up s).and hgrow).mono fun up' s' h => ?_
      exact ih (h.1.sound hs h.2)

theorem run_sound {link : Option Iface} (hlink : link ≠ some .built) (wakes : List Wake) :
    (run wakes).Ensures (link, []) fun r s' => r.Sound s' := by
  rw [run, Loop.Ensures, always_bind]
  refine (tryUp_raised (link, [])).mono fun up s h => watch_sound ⟨?_, ?_, ?_⟩ wakes
  · exact h.spares hlink fun before x after hnil => by simp at hnil
  · exact fun hup => h.unbuilt hup hlink
  · intro _ hup
    rw [h.built hup]
    exact Option.some_ne_none _

theorem watch_returned (up : Bool) (wakes : List Wake) :
    (watch up wakes).Returns fun r => ∀ err, r = .returned err → .done ∈ wakes := by
  induction wakes generalizing up with
  | nil =>
    intro err h
    cases h
  | cons wake wakes ih =>
    cases wake with
    | done => exact returns_of_forall fun _ _ _ => List.mem_cons_self
    | tick => exact returns_bind_right fun up' => (ih up').imp fun r h err herr =>
        List.mem_cons_of_mem _ (h err herr)

/-- Two calm ticks bring the interface back, unless it is gone and the daemon believes it up. -/
theorem two_ticks {up : Bool} {link : Option Iface} (h : up = true → link ≠ none) :
    (watch up [.tick, .tick]).Ensures (link, []) fun _ s => (∀ x ∈ s.2, x.2.2.Calm) → s.1 ≠ none := by
  rw [watch, Loop.Ensures, always_bind]
  refine (onTick_ticked up (link, [])).mono fun up₁ s₁ h₁ => ?_
  rw [watch, always_bind]
  have hgrow := @always_extends _ _ _ _ _ sem (onTick up₁) s₁.1 s₁.2
  refine ((onTick_ticked up₁ s₁).and hgrow).mono fun up₂ s₂ h₂ hall => ?_
  exact h₂.1.calm hall fun _ => h₁.calm (fun x hx => hall x (h₂.2.subset hx)) h

def calmWeather : Weather := ⟨.nothing, none, false, false, false, none, 0⟩

/-- A daemon that believes the tunnel up sees no more of a missing interface than that it cannot
read the handshake. -/
theorem ticks_idle (n : ℕ) : (watch true (List.replicate n .tick)).Runs sem none
    (List.replicate n (.lastHandshake, calmWeather)) (.watching true) none := by
  induction n with
  | zero => exact ⟨rfl, rfl, rfl⟩
  | succ n ih => exact ⟨calmWeather, _, rfl, ih⟩

theorem calmWeather_calm : calmWeather.Calm := ⟨by decide, rfl, rfl, rfl, rfl⟩

/-- The daemon never returns before its context is done, and until then it tears down a tunnel it
has built only when it has just found it stale. From where it has come to, two calm ticks bring
the interface back unless it is gone while the daemon believes it up; and that does not happen
where nobody else has removed the interface. -/
theorem daemon_heals_iff {wakes : List Wake} {link₀ link : Option Iface} (h₀ : link₀ ≠ some .built)
    {tr : List (EngineOp × Weather)} {r : Stage} (h : (run wakes).Runs sem link₀ tr r link) :
    (∀ err, r = .returned err → .done ∈ wakes) ∧
    (∀ before (x : Entry) after, steps sem link₀ tr = before ++ x :: after → x.TearsDown →
      FoundStale before ∨ (∃ err, r = .returned err) ∧ after = []) ∧
    ∀ up, r = .watching up →
      ((∀ tr' r' link', (watch up [.tick, .tick]).Runs sem link tr' r' link' →
        (∀ x ∈ tr', x.2.Calm) → link' ≠ none) ↔ ¬ (up = true ∧ link = none)) ∧
      ((∀ x ∈ tr, x.2.Undisturbed) → ¬ (up = true ∧ link = none)) := by
  have hsound : r.Sound (link, steps sem link₀ tr) := (run_sound h₀ wakes).journal h
  refine ⟨?_, ?_, ?_⟩
  · have hreturns : (run wakes).Returns fun r => ∀ err, r = .returned err → .done ∈ wakes :=
      returns_bind_right fun up => watch_returned up wakes
    exact always_iff_runs.mp hreturns.always tr r link h
  · intro before x after hsteps hdown
    cases r with
    | watching up => exact .inl (hsound.spares before x after hsteps hdown)
    | returned err =>
      obtain ⟨past, last, hlast, hspares⟩ := hsound
      have hlast : steps sem link₀ tr = past ++ [last] := hlast
      -- a return may tear down in its very last step
      rcases List.eq_nil_or_concat after with rfl | ⟨after, y, rfl⟩
      · exact .inr ⟨⟨err, rfl⟩, rfl⟩
      · rw [hsteps, List.concat_eq_append, ← List.cons_append, ← List.append_assoc] at hlast
        exact .inl (hspares before x after (List.append_inj' hlast rfl).1.symm hdown)
  · rintro up rfl
    refine ⟨⟨?_, ?_⟩, ?_⟩
    · rintro hheals ⟨rfl, rfl⟩
      -- two calm ticks of a daemon that believes the interface up do nothing
      refine hheals _ _ _ (ticks_idle 2) (fun x hx => ?_) rfl
      rw [List.eq_of_mem_replicate hx]
      exact calmWeather_calm
    · intro hbelief tr' r' link' hrun hcalm
      have hup : up = true → link ≠ none := fun hup hnone => hbelief ⟨hup, hnone⟩
      refine (two_ticks hup).journal hrun fun x hx => ?_
      exact hcalm x.2 (mem_of_mem_steps hx)
    · rintro hall ⟨hup, hnone⟩
      exact hsound.present (fun x hx => hall x.2 (mem_of_mem_steps hx)) hup hnone

/-- The interface of a tunnel that is up goes, and the daemon never brings it back. -/
theorem removed_never_healed :
    (run [.tick]).Runs sem none
      [(.up, calmWeather), (.lastHandshake, { calmWeather with meddling := .removes })]
      (.watching true) none ∧
    calmWeather.Calm ∧
    ∀ n, (watch true (List.replicate n .tick)).Runs sem none
      (List.replicate n (.lastHandshake, calmWeather)) (.watching true) none :=
  ⟨⟨_, _, rfl, _, _, rfl, rfl, rfl, rfl⟩, calmWeather_calm, ticks_idle⟩

/-- A leftover interface is replaced, and the tunnel stays. -/
theorem daemon_heals_iff_leftover :
    ¬ ∃ tr r, (watch true [.tick, .tick]).Runs sem (some .built) tr r none ∧ ∀ x ∈ tr, x.2.Calm := by
  rintro ⟨tr, r, hticks, hcalm⟩
  have hrun : (run [.tick]).Runs sem (some .leftover)
      [(.up, calmWeather), (.down, calmWeather), (.up, calmWeather), (.lastHandshake, calmWeather)]
      (.watching true) (some .built) :=
    ⟨_, _, rfl, _, _, rfl, _, _, rfl, _, _, rfl, rfl, rfl, rfl⟩
  have hheals := ((daemon_heals_iff (by decide) hrun).2.2 true rfl).1.mpr (by decide)
  exact hheals tr r none hticks hcalm rfl

end LanWeave.Daemon

import LanWeave.Client.Attempts
import LanWeave.Client.RouteBooks

/-! The remembered routes against the interface they were put on, when route updates interleave
with teardowns and new interfaces. -/

namespace LanWeave
open Library

/-! ### one account over the life of an interface -/

/-- The interface has no consumer route and its peer no extra AllowedIPs. -/
def Kernel.Bare (k : Kernel) : Prop := k.routes = ∅ ∧ k.extraAllowedIPs = []

namespace Books
variable {b b' : Books} {extra : List Prefix} {o : Outside} {r : Reply} {live gap : Prop}

def Forgotten (b : Books) : Prop := b.wanted = [] ∧ b.applied = []

/-- Nothing is remembered without an interface, nor while a teardown has forgotten the routes
of an interface that it has still to drop; otherwise the memory is what the interface carries. -/
structure Faithful (b : Books) (live gap : Prop) : Prop where
  idle : ¬live → b.Forgotten
  torn : gap → b.Forgotten
  kept : live → ¬gap → b.Kept
  exact : live → ¬gap → b.kernel.routes = b.applied.toFinset
  masks : ∀ p ∈ b.wanted, p.bits ≤ 32

/-- The condition on a route update: it asks for no IPv6 prefix longer than /32, and where a
teardown is under way, the interface carries nothing and nothing is asked for. -/
structure Outlives (b : Books) (extra : List Prefix) (gap : Prop) : Prop where
  masks : ∀ p ∈ extra, p.bits ≤ 32
  bare : gap → b.kernel.Bare
  nothing : gap → canonicalPrefixes extra = []

theorem Forgotten.kept (h : b.Forgotten) (hb : b.kernel.Bare) : b.Kept := by
  obtain ⟨-, happlied⟩ := h
  refine ⟨?_, ?_, ?_⟩
  · rw [happlied]
    exact fun _ hp => absurd hp List.not_mem_nil
  · rw [happlied]
    exact List.nil_subset _
  · rw [happlied]
    exact fun _ => hb.2

theorem Forgotten.masks (h : b.Forgotten) : ∀ p ∈ b.wanted, p.bits ≤ 32 := by
  rw [h.1]
  exact List.forall_mem_nil _

theorem Faithful.call_kept (h : b.Faithful live gap) (hlive : live) (hgap : b.Outlives extra gap) :
    b.Kept := by
  by_cases hg : gap
  · exact (h.torn hg).kept (hgap.bare hg)
  · exact h.kept hlive hg

theorem Faithful.call (h : b.Faithful live gap) (hlive : live) (hgap : b.Outlives extra gap)
    (ha : b.Answers extra o r b') (hok : r.err = none) :
    b'.Faithful live gap ∧ b'.kernel.Agrees r.routes extra ∧ r.routes = b'.applied ∧
      (gap → b'.kernel.Bare) := by
  have hkept := h.call_kept hlive hgap
  have hfits : b.FitsMask extra := ⟨h.masks, hgap.masks⟩
  have hexact : b.kernel.routes = b.applied.toFinset := by
    by_cases hg : gap
    · rw [(h.torn hg).2, (hgap.bare hg).1]
      rfl
    · exact h.exact hlive hg
  have hagree := (ha.agrees_iff hkept hfits hok).mpr (trusted_of_exact hexact)
  have hforgotten : gap → b = b' := by
    intro hg
    have hrem : b.Remembers extra := by
      rw [Remembers, hgap.nothing hg, (h.torn hg).1, (h.torn hg).2]
      exact ⟨rfl, rfl⟩
    cases ha with
    | remembered => rfl
    | failed => cases hok
    | updated k hn => exact absurd hrem hn
  refine ⟨⟨fun hn => absurd hlive hn, ?_, fun _ _ => ha.kept hkept,
    fun _ _ => ha.exact hkept hfits hexact hok, ha.fitsMask hfits⟩, hagree, ?_, ?_⟩
  · intro hg
    rw [← hforgotten hg]
    exact h.torn hg
  · cases ha with
    | failed => cases hok
    | remembered | updated => rfl
  · intro hg
    rw [← hforgotten hg]
    exact hgap.bare hg

theorem faithful_forgotten (h : b.Forgotten) {gap : Prop} (hg : gap) : b.Faithful live gap :=
  ⟨fun _ => h, fun _ => h, fun _ hn => absurd hg hn, fun _ hn => absurd hg hn, h.masks⟩

theorem faithful_up (h : b.Forgotten) (hb : b.kernel.Bare) : b.Faithful live gap := by
  refine ⟨fun _ => h, fun _ => h, fun _ _ => h.kept hb, fun _ _ => ?_, h.masks⟩
  rw [h.2, hb.1]
  rfl

theorem faithful_down (h : b.Forgotten) (hl : ¬live) : b.Faithful live gap :=
  ⟨fun _ => h, fun _ => h, fun hlive => absurd hlive hl, fun hlive => absurd hlive hl, h.masks⟩

/-- What an update has answered is still what is remembered. -/
structure Holds (b : Books) (routes : List Prefix) (live gap : Prop) : Prop where
  applied : b.applied = routes
  torn : gap → routes = []
  bare : gap → live → b.kernel.Bare

theorem Holds.agrees {routes : List Prefix} (h : b.Holds routes live gap) (hb : b.Faithful live gap)
    (hlive : live) (hsub : routes ⊆ canonicalPrefixes extra) : b.kernel.Agrees routes extra := by
  by_cases hg : gap
  · rw [h.torn hg] at hsub ⊢
    obtain ⟨hroutes, hpeer⟩ := h.bare hg hlive
    refine ⟨hroutes, ?_, hsub⟩
    rw [hpeer]
  · have hkept := hb.kept hlive hg
    have hpeer := hkept.peer fun p hp => hb.masks p (hkept.applied_wanted hp)
    refine ⟨?_, ?_, hsub⟩
    · rw [hb.exact hlive hg, h.applied]
    · rw [hpeer, h.applied]

end Books

theorem Kernel.up_bare (network : Prefix) : (Kernel.up network).Bare := ⟨rfl, rfl⟩

/-! ### the router -/

/-- The engine with the interface it may have. -/
structure Uplink where
  engine : Engine
  link : Bool

inductive EngineCall
  | up
  /-- `Down`, the section that forgets the routes. -/
  | down
  /-- `Down`, the deletion of the link. -/
  | delete
  | setRoutes (extra : List Prefix)
  | answered (extra : List Prefix) (r : Reply)
  | finished (ok : Bool)

structure EngineWeather where
  outside : Outside
  resolves : Bool

def Engine.forget (e : Engine) : Engine := { e with routesWanted := [], routesApplied := [] }

def EngineCall.step : Machine EngineCall EngineWeather Uplink
  | .up, w, s =>
    if s.link ∨ s.engine.serverPubKey.isNone ∨ !w.resolves then (.finished false, s)
    else (.finished true, ⟨{ s.engine with kernel := Kernel.up s.engine.network.ipNet }, true⟩)
  | .down, _, s => (.delete, { s with engine := s.engine.forget })
  | .delete, _, s => (.finished true, { s with link := false })
  | .setRoutes extra, w, s =>
    let r := s.engine.setRoutes extra { w.outside with linkMissing := !s.link }
    (.answered extra r.1, { s with engine := r.2 })
  | .answered extra r, _, s => (.answered extra r, s)
  | .finished ok, _, s => (.finished ok, s)

section
variable {τ : Type} [DecidableEq τ] {c : Config τ EngineCall Uplink} {t : τ} {w : EngineWeather}

/-- A `Down` has forgotten the routes and not yet deleted the link. -/
def Downing (c : Config τ EngineCall Uplink) : Prop := ∃ t, c.threads t = .delete

/-- The condition on a step of the router. -/
def Uplink.Careful (c : Config τ EngineCall Uplink) (t : τ) (_ : EngineWeather) : Prop :=
  ∀ extra, c.threads t = .setRoutes extra → c.shared.link = true →
    c.shared.engine.books.Outlives extra (Downing c)

structure Uplink.Mirrored (c : Config τ EngineCall Uplink) : Prop where
  books : c.shared.engine.books.Faithful (c.shared.link = true) (Downing c)
  key : c.shared.link = true → c.shared.engine.serverPubKey.isSome = true

theorem Engine.setRoutes_ok {e : Engine} {extra : List Prefix} {o : Outside}
    (hlink : o.linkMissing = false)
    (hkey : e.serverPubKey.isSome = true) (hup : o.updateFails = false) :
    (e.setRoutes extra o).1.err = none := by
  obtain ⟨key, hkey⟩ := Option.isSome_iff_exists.mp hkey
  unfold Engine.setRoutes
  simp only [hlink, hkey, hup, Bool.false_eq_true, if_false]
  split_ifs <;> rfl

theorem Engine.setRoutes_config (e : Engine) (extra : List Prefix) (o : Outside) :
    (e.setRoutes extra o).2.serverPubKey = e.serverPubKey := by
  obtain ⟨network, key, wanted, applied, kernel⟩ := e
  cases key with
  | none =>
    simp only [Engine.setRoutes]
    split_ifs <;> rfl
  | some key =>
    simp only [Engine.setRoutes]
    split_ifs <;> rfl

theorem Engine.setRoutes_missing {e : Engine} {o : Outside} (hlink : o.linkMissing = true)
    (extra : List Prefix) : (e.setRoutes extra o).2 = e := by
  simp only [Engine.setRoutes, hlink, if_true]
  split_ifs <;> rfl

omit [DecidableEq τ] in
theorem Uplink.Mirrored.call (h : Mirrored c) {extra : List Prefix} (ht : c.threads t = .setRoutes extra)
    (hlink : c.shared.link = true) (hok : Careful c t w) (hup : w.outside.updateFails = false) :
    let r := c.shared.engine.setRoutes extra { w.outside with linkMissing := !c.shared.link }
    r.2.books.Faithful (c.shared.link = true) (Downing c) ∧ r.2.kernel.Agrees r.1.routes extra ∧
      r.1.routes = r.2.routesApplied ∧ (Downing c → r.2.kernel.Bare) := by
  have hanswer := @Engine.setRoutes_answers extra { w.outside with linkMissing := !c.shared.link }
    c.shared.engine
  apply h.books.call hlink (hok extra ht hlink) hanswer
  exact Engine.setRoutes_ok (by simp [hlink]) (h.key hlink) hup

theorem Uplink.Mirrored.unmoved (h : Mirrored c)
    (hshared : (c.step EngineCall.step t w).shared = c.shared)
    (hgap : Downing (c.step EngineCall.step t w) ↔ Downing c) :
    Mirrored (c.step EngineCall.step t w) := by
  refine ⟨?_, ?_⟩
  · rw [hgap, hshared]
    exact h.books
  · rw [hshared]
    exact h.key

/-- An interface comes up only where there is none. -/
theorem Uplink.Mirrored.up (h : Mirrored c) (hgap : Downing (c.step EngineCall.step t w) ↔ Downing c)
    (hshared : (c.step EngineCall.step t w).shared = (EngineCall.step .up w c.shared).2) :
    Mirrored (c.step EngineCall.step t w) := by
  by_cases hfail : c.shared.link ∨ c.shared.engine.serverPubKey.isNone ∨ !w.resolves
  · have hstep : EngineCall.step .up w c.shared = (.finished false, c.shared) := if_pos hfail
    rw [hstep] at hshared
    exact h.unmoved hshared hgap
  · have hstep : EngineCall.step .up w c.shared = (.finished true,
        ⟨{ c.shared.engine with kernel := Kernel.up c.shared.engine.network.ipNet }, true⟩) :=
          if_neg hfail
    rw [hstep] at hshared
    push Not at hfail
    refine ⟨?_, ?_⟩
    · rw [hshared]
      exact Books.faithful_up (b := ⟨_, _, _⟩) (h.books.idle hfail.1) (Kernel.up_bare _)
    · rw [hshared]
      intro _
      exact Option.isSome_iff_ne_none.mpr (by simpa using hfail.2.1)

theorem Uplink.Mirrored.setRoutes (h : Mirrored c) {extra : List Prefix}
    (hcall : c.threads t = .setRoutes extra) (hok : Careful c t w) (hup : w.outside.updateFails = false)
    (hgap : Downing (c.step EngineCall.step t w) ↔ Downing c)
    (hshared : (c.step EngineCall.step t w).shared = (EngineCall.step (.setRoutes extra) w c.shared).2) :
    Mirrored (c.step EngineCall.step t w) := by
  refine ⟨?_, ?_⟩
  · rw [hgap, hshared]
    by_cases hlink : c.shared.link = true
    · exact (h.call hcall hlink hok hup).1
    · have hsame := Engine.setRoutes_missing (e := c.shared.engine)
        (o := { w.outside with linkMissing := !c.shared.link }) (by simpa using hlink) extra
      show (c.shared.engine.setRoutes extra _).2.books.Faithful _ _
      rw [hsame]
      exact h.books
  · rw [hshared]
    intro hlink
    show (c.shared.engine.setRoutes extra _).2.serverPubKey.isSome = true
    rw [Engine.setRoutes_config]
    exact h.key hlink

theorem Uplink.Mirrored.step (h : Mirrored c) (hok : Careful c t w)
    (hup : w.outside.updateFails = false) :
    Mirrored (c.step EngineCall.step t w) := by
  have hself := Config.step_self (m := EngineCall.step) c t w
  have hshared := Config.step_shared (m := EngineCall.step) c t w
  have hgap : c.threads t ≠ .delete → (EngineCall.step (c.threads t) w c.shared).1 ≠ .delete →
      (Downing (c.step EngineCall.step t w) ↔ Downing c) := 
    fun h h' => exists_step_iff (m := EngineCall.step) (Q := (· = .delete)) h h'
  cases hcall : c.threads t with
  | up =>
    rw [hcall] at hgap hshared
    refine h.up (hgap (by simp) ?_) hshared
    simp only [EngineCall.step]
    split_ifs <;> exact EngineCall.noConfusion
  | down =>
    rw [hcall] at hself hshared
    refine ⟨?_, ?_⟩
    · rw [hshared]
      exact Books.faithful_forgotten ⟨rfl, rfl⟩ ⟨t, hself⟩
    · rw [hshared]
      exact h.key
  | delete =>
    rw [hcall] at hshared
    refine ⟨?_, ?_⟩
    · rw [hshared]
      exact Books.faithful_down (h.books.torn ⟨t, hcall⟩) Bool.false_ne_true
    · rw [hshared]
      exact fun hlink => absurd hlink Bool.false_ne_true
  | setRoutes extra =>
    rw [hcall] at hgap hshared
    exact h.setRoutes hcall hok hup (hgap (by simp) (by simp [EngineCall.step])) hshared
  | answered extra r =>
    rw [hcall] at hgap hshared
    exact h.unmoved hshared (hgap (by simp) (by simp [EngineCall.step]))
  | finished ok =>
    rw [hcall] at hgap hshared
    exact h.unmoved hshared (hgap (by simp) (by simp [EngineCall.step]))

/-- Neither a `Down` begins nor does another route update find a link. -/
def Uplink.Calm (c : Config τ EngineCall Uplink) (t : τ) (_ : EngineWeather) : Prop :=
  c.threads t ≠ .down ∧ ∀ extra, c.threads t = .setRoutes extra → c.shared.link = false

theorem Uplink.holds_step (hcalm : Calm c t w) {routes : List Prefix}
    (hold : c.shared.engine.books.Holds routes (c.shared.link = true) (Downing c)) :
    (c.step EngineCall.step t w).shared.engine.books.Holds routes
      ((c.step EngineCall.step t w).shared.link = true) (Downing (c.step EngineCall.step t w)) := by
  have hshared := Config.step_shared (m := EngineCall.step) c t w
  -- only the call that removes the interface changes whether somebody is taking it down
  have hgap : c.threads t ≠ .delete → (EngineCall.step (c.threads t) w c.shared).1 ≠ .delete →
      (Downing (c.step EngineCall.step t w) ↔ Downing c) :=
    fun h h' => exists_step_iff (m := EngineCall.step) (Q := (· = .delete)) h h'
  cases hcall : c.threads t with
  | up =>
    rw [hcall] at hgap hshared
    by_cases hfail : c.shared.link ∨ c.shared.engine.serverPubKey.isNone ∨ !w.resolves
    · have hstep : EngineCall.step .up w c.shared = (.finished false, c.shared) := if_pos hfail
      rw [hstep] at hgap hshared
      rw [hgap (by simp) (by simp), hshared]
      exact hold
    · have hstep : EngineCall.step .up w c.shared = (.finished true,
          ⟨{ c.shared.engine with kernel := Kernel.up c.shared.engine.network.ipNet }, true⟩) :=
            if_neg hfail
      rw [hstep] at hgap hshared
      rw [hgap (by simp) (by simp), hshared]
      exact ⟨hold.applied, hold.torn, fun _ _ => Kernel.up_bare _⟩
  | down => exact absurd hcall hcalm.1
  | setRoutes extra =>
    rw [hcall] at hgap hshared
    have hsame := Engine.setRoutes_missing (e := c.shared.engine)
      (o := { w.outside with linkMissing := !c.shared.link }) (by simp [hcalm.2 extra hcall]) extra
    rw [hgap (by simp) (by simp [EngineCall.step]), hshared]
    show (c.shared.engine.setRoutes extra _).2.books.Holds _ _ _
    rw [hsame]
    exact hold
  | delete =>
    rw [hcall] at hshared
    rw [hshared]
    -- the call that takes the interface down has set the routes to nothing before
    have hnone : routes = [] := hold.torn ⟨t, hcall⟩
    exact ⟨hold.applied, fun _ => hnone, fun _ hlink => absurd hlink Bool.false_ne_true⟩
  | answered extra r =>
    rw [hcall] at hgap hshared
    rw [hgap (by simp) (by simp [EngineCall.step]), hshared]
    exact hold
  | finished ok =>
    rw [hcall] at hgap hshared
    rw [hgap (by simp) (by simp [EngineCall.step]), hshared]
    exact hold

theorem Uplink.Mirrored.holds (h : Mirrored c) {sched : List (τ × EngineWeather)}
    (hok : Along EngineCall.step Careful c sched) (hcalm : Along EngineCall.step Calm c sched)
    (hup : ∀ x ∈ sched, x.2.outside.updateFails = false) {routes : List Prefix}
    (hold : c.shared.engine.books.Holds routes (c.shared.link = true) (Downing c)) :
    Mirrored (c.exec EngineCall.step sched) ∧
      (c.exec EngineCall.step sched).shared.engine.books.Holds routes
        ((c.exec EngineCall.step sched).shared.link = true)
          (Downing (c.exec EngineCall.step sched)) := by
  induction sched generalizing c with
  | nil => exact ⟨h, hold⟩
  | cons x sched ih =>
    have hstep := h.step hok.1 (hup x List.mem_cons_self)
    exact ih hstep hok.2 hcalm.2 (fun y hy => hup y (List.mem_cons_of_mem _ hy))
      (holds_step hcalm.1 hold)

end
/-! ### the desktop -/

/-- The tunnel with its engines, and the interface of each engine. -/
structure Desktop where
  net : Net
  interfaces : ℕ → Kernel

inductive ClientCall
  | tunnel (p : Pc)
  | setExtraRoutes (extra : List Prefix)
  | answered (extra : List Prefix) (r : Reply)

structure DesktopWeather where
  weather : Weather
  outside : Outside

/-- The interfaces after the step: a successful `up` makes a new one. -/
def Desktop.created (s : Desktop) : Pc → Weather → ℕ → Kernel
  | .bringUp eng, w =>
    match w.up, s.net.tunnel.profile.network with
    | some _, some network => Function.update s.interfaces eng (Kernel.up network)
    | _, _ => s.interfaces
  | _, _ => s.interfaces

def ClientCall.step : Machine ClientCall DesktopWeather Desktop
  | .tunnel p, w, s =>
    let r := p.step w.weather s.net
    (.tunnel r.1, ⟨r.2, s.created p w.weather⟩)
  | .setExtraRoutes extra, w, s =>
    match s.net.tunnel.eng with
    | none => (.answered extra ⟨[], none⟩, s)
    | some eng =>
      let r := (⟨s.net.tunnel, s.interfaces eng⟩ : Client ℕ).setExtraRoutes extra w.outside
      (.answered extra r.1,
        ⟨{ s.net with tunnel := r.2.tunnel }, Function.update s.interfaces eng r.2.kernel⟩)
  | .answered extra r, _, s => (.answered extra r, s)

def Desktop.current (s : Desktop) : Kernel := s.interfaces (s.net.tunnel.eng.getD 0)

def Desktop.books (s : Desktop) : Books :=
  ⟨s.net.tunnel.extraWanted, s.net.tunnel.extraApplied, s.current⟩

def Desktop.new (profile : Profile) : Desktop := ⟨Net.new profile, fun _ => Kernel.up ⟨.v4 0, 0⟩⟩

/-- A route update as the tunnel sees it from outside: a call that is over. -/
def ClientCall.pc : ClientCall → Pc
  | .tunnel p => p
  | _ => .returned none

/-- The attempt has made its engine and has not yet connected it. -/
def Pc.Before (eng : ℕ) : Pc → Prop
  | .bringUp e | .name e _ | .await e | .reconcile e => e = eng
  | _ => False

def Pc.Upped (eng : ℕ) : Pc → Prop
  | .name e _ | .await e | .reconcile e => e = eng
  | _ => False

theorem Pc.Before.own {eng : ℕ} {p : Pc} (h : p.Before eng) : p.own = some eng := by
  cases p with
  | bringUp | name | await | reconcile => exact congrArg some h
  | connect | clear | unlink | close | returned => exact h.elim

theorem Pc.Upped.before {eng : ℕ} {p : Pc} (h : p.Upped eng) : p.Before eng := by
  cases p with
  | name | await | reconcile => exact h
  | connect | bringUp | clear | unlink | close | returned => exact h.elim

section
variable {τ : Type} [DecidableEq τ] {c : Config τ ClientCall Desktop} {t : τ} {w : DesktopWeather}
  {profile : Profile}

/-- The tunnel part of the configuration. -/
def Desktop.tunnels (c : Config τ ClientCall Desktop) : Config τ Pc Net :=
  ⟨fun t => (c.threads t).pc, c.shared.net⟩

/-- A teardown has forgotten the routes and not yet taken the engine out. -/
def Tearing (c : Config τ ClientCall Desktop) : Prop :=
  ∃ t, ∃ own err, c.threads t = .tunnel (.unlink own err)

/-- The condition on a step of the desktop client. -/
def Desktop.Careful (c : Config τ ClientCall Desktop) (t : τ) (_ : DesktopWeather) : Prop :=
  ∀ extra, c.threads t = .setExtraRoutes extra → c.shared.net.tunnel.state = .connected →
    c.shared.books.Outlives extra (Tearing c)

structure Desktop.Mirrored (profile : Profile) (c : Config τ ClientCall Desktop) : Prop where
  sound : Sound (tunnels c)
  madeWith : c.shared.net.tunnel.profile = profile
  parsed : ∀ t eng, (c.threads t).pc.Before eng → profile.uapiConfig.isSome ∧ profile.network.isSome
  connected : c.shared.net.tunnel.state = .connected →
    profile.uapiConfig.isSome ∧ profile.network.isSome
  fresh : ∀ t eng, (c.threads t).pc.Upped eng → (c.shared.interfaces eng).Bare
  past : ∀ t eng, (c.threads t).pc.Before eng → c.shared.net.tunnel.eng = some eng →
    c.shared.net.tunnel.state ≠ .connected
  books : c.shared.books.Faithful (c.shared.net.tunnel.state = .connected) (Tearing c)

theorem Desktop.tunnels_step {p : Pc} (ht : c.threads t = .tunnel p) :
    tunnels (c.step ClientCall.step t w) = (tunnels c).step Pc.step t w.weather := by
  have hpc : (tunnels c).threads t = p := congrArg ClientCall.pc ht
  unfold tunnels Config.step
  simp only [ht, ClientCall.step, ClientCall.pc, Config.mk.injEq, and_true]
  funext u
  by_cases hu : u = t
  · rw [hu, Function.update_self, Function.update_self]
  · rw [Function.update_of_ne hu, Function.update_of_ne hu]

/-! #### one step of the tunnel -/

theorem Pc.Steps.sameProfile {p p' : Pc} {s s' : Net} {w : Weather} (h : Pc.Steps w s p p' s') :
    s'.tunnel.profile = s.tunnel.profile := by
  cases h <;> rfl

theorem connect_bringUp {s : Net} {eng : ℕ} (h : s.connect.1 = .bringUp eng) :
    s.tunnel.profile.uapiConfig.isSome ∧ s.tunnel.profile.network.isSome := by
  unfold Net.connect at h
  split_ifs at h
  simp only [Tunnel.start] at h
  split at h
  · next huapi _ hnet =>
    rw [huapi, hnet]
    exact ⟨rfl, rfl⟩
  · cases h

theorem before_step {p : Pc} {w : Weather} {s : Net} {eng : ℕ} (h : (p.step w s).1.Before eng) :
    p.Before eng ∨ (p.step w s).2.tunnel.state = .connecting ∧
      s.tunnel.profile.uapiConfig.isSome ∧ s.tunnel.profile.network.isSome := by
  have hstep := Pc.step_steps p w s
  by_cases hp : p = .connect
  · subst hp
    have hconnect : Pc.step .connect w s = s.connect := rfl
    generalize hp' : (Pc.step .connect w s).1 = p', (Pc.step .connect w s).2 = s' at hstep h
    cases hstep with
    | busy | noSetup => exact h.elim
    | start hs hr hnew =>
      rcases hnew with rfl | rfl
      · exact .inr ⟨rfl, connect_bringUp (hconnect ▸ hp')⟩
      · exact h.elim
  · generalize (p.step w s).1 = p', (p.step w s).2 = s' at hstep h
    cases hstep with
    | start => exact absurd rfl hp
    | up | name | handshaked | waits => exact .inl h
    | busy | noSetup | upFails | expired | abandoned | connected | clear | unlink | idle | close
    | returned => exact h.elim

theorem upped_step {p : Pc} {w : Weather} {s : Net} {eng : ℕ} (h : (p.step w s).1.Upped eng) :
    p.Upped eng ∨ p = .bringUp eng ∧ w.up.isSome := by
  have hstep := Pc.step_steps p w s
  generalize (p.step w s).1 = p', (p.step w s).2 = s' at hstep h
  cases hstep with
  | up hup => exact .inr ⟨congrArg Pc.bringUp h, Option.isSome_of_eq_some hup⟩
  | name | handshaked | waits => exact .inl h
  | start hs hr hnew => rcases hnew with rfl | rfl <;> exact h.elim
  | busy | noSetup | upFails | expired | abandoned | connected | clear | unlink | idle | close
  | returned => exact h.elim

/-- The tunnel is connected because it was, with the same engine, or because the attempt whose
engine is current has just connected it. -/
theorem connected_step {p : Pc} {w : Weather} {s : Net} (h : (p.step w s).2.tunnel.state = .connected) :
    (s.tunnel.state = .connected ∧ (p.step w s).2.tunnel.eng = s.tunnel.eng) ∨
      ∃ eng, p = .reconcile eng ∧ s.tunnel.eng = some eng ∧
        (p.step w s).2.tunnel.eng = some eng ∧ (p.step w s).1 = .returned none := by
  have hstep := Pc.step_steps p w s
  generalize (p.step w s).1 = p', (p.step w s).2 = s' at hstep h
  cases hstep with
  | start => cases h
  | unlink | idle => cases h
  | connected heng => exact .inr ⟨_, rfl, heng, heng, rfl⟩
  | busy | noSetup | upFails | up | name | expired | handshaked | waits | abandoned | clear | close
  | returned => exact .inl ⟨h, rfl⟩

theorem Desktop.created_cases (s : Desktop) (p : Pc) (w : Weather) : s.created p w = s.interfaces ∨
    ∃ eng network, p = .bringUp eng ∧
      s.created p w = Function.update s.interfaces eng (Kernel.up network) := by
  cases p with
  | bringUp eng =>
    cases hup : w.up with
    | none =>
      left
      simp only [created, hup]
    | some ifName =>
      cases hnet : s.net.tunnel.profile.network with
      | none =>
        left
        simp only [created, hup, hnet]
      | some network =>
        refine .inr ⟨eng, network, rfl, ?_⟩
        simp only [created, hup, hnet]
  | _ => exact .inl rfl

theorem Desktop.created_bare {s : Desktop} {p : Pc} {w : Weather} {eng : ℕ}
    (h : (s.interfaces eng).Bare) : (s.created p w eng).Bare := by
  rcases s.created_cases p w with hsame | ⟨e, network, -, hnew⟩
  · rwa [hsame]
  · rw [hnew]
    by_cases he : eng = e
    · rw [he, Function.update_self]
      exact Kernel.up_bare network
    · rwa [Function.update_of_ne he]

theorem Desktop.created_up {s : Desktop} {w : Weather} {eng : ℕ} (hup : w.up.isSome)
    (hnet : s.net.tunnel.profile.network.isSome) : (s.created (.bringUp eng) w eng).Bare := by
  obtain ⟨name, hname⟩ := Option.isSome_iff_exists.mp hup
  obtain ⟨network, hnetwork⟩ := Option.isSome_iff_exists.mp hnet
  simp only [created, hname, hnetwork, Function.update_self]
  exact Kernel.up_bare network

theorem Desktop.created_other {s : Desktop} {p : Pc} {w : Weather} {eng : ℕ} (h : p ≠ .bringUp eng) :
    s.created p w eng = s.interfaces eng := by
  rcases s.created_cases p w with hsame | ⟨e, network, hp, hnew⟩
  · rw [hsame]
  · rw [hnew, Function.update_of_ne]
    rintro rfl
    exact h hp

/-- A step keeps the memory, or it is the section of a teardown that forgets it. -/
theorem memory_step (p : Pc) (w : Weather) (s : Net) :
    ((p.step w s).2.tunnel.extraWanted = s.tunnel.extraWanted ∧
      (p.step w s).2.tunnel.extraApplied = s.tunnel.extraApplied ∧
      ∀ own err, (p.step w s).1 ≠ .unlink own err) ∨
    ∃ own err, p = .clear own err ∧ (p.step w s).1 = .unlink own err ∧
      (p.step w s).2.tunnel = s.tunnel.clearExtra := by
  have hstep := Pc.step_steps p w s
  generalize (p.step w s).1 = p', (p.step w s).2 = s' at hstep
  cases hstep with
  | clear => exact .inr ⟨_, _, rfl, rfl, rfl⟩
  | start hs hr hnew => rcases hnew with rfl | rfl <;> exact .inl ⟨rfl, rfl, fun _ _ heq => nomatch heq⟩
  | _ => exact .inl ⟨rfl, rfl, fun _ _ heq => nomatch heq⟩

theorem down_step {p : Pc} {w : Weather} {s : Net} (hidle : s.tunnel.state = .connected →
      s.tunnel.state ≠ .disconnected) (h : s.tunnel.state = .connected)
    (h' : (p.step w s).2.tunnel.state ≠ .connected) : ∃ own err, p = .unlink own err := by
  have hstep := Pc.step_steps p w s
  generalize (p.step w s).1 = p', (p.step w s).2 = s' at hstep h'
  cases hstep with
  | unlink | idle => exact ⟨_, _, rfl⟩
  | start hs => exact absurd hs (hidle h)
  | connected => exact absurd rfl h'
  | _ => exact absurd h h'

/-! #### the invariant -/

theorem Desktop.tearing_step {p : Pc} (ht : c.threads t = .tunnel p)
    (hp : ∀ own err, p ≠ .unlink own err)
    (hp' : ∀ own err, (p.step w.weather c.shared.net).1 ≠ .unlink own err) :
    Tearing (c.step ClientCall.step t w) ↔ Tearing c := by
  apply exists_step_iff (m := ClientCall.step) (Q := fun q => ∃ own err, q = .tunnel (.unlink own err))
  · rintro ⟨own, err, heq⟩
    exact hp own err (ClientCall.tunnel.inj (ht.symm.trans heq))
  · rw [ht]
    rintro ⟨own, err, heq⟩
    exact hp' own err (ClientCall.tunnel.inj heq)

theorem Desktop.Mirrored.tunnel_books (h : Mirrored profile c) {p : Pc} (ht : c.threads t = .tunnel p) :
    (Desktop.books ⟨(p.step w.weather c.shared.net).2, c.shared.created p w.weather⟩).Faithful
      ((p.step w.weather c.shared.net).2.tunnel.state = .connected)
      (Tearing (c.step ClientCall.step t w)) := by
  have hpc : (c.threads t).pc = p := congrArg ClientCall.pc ht
  -- the memory stays, or the step is the first section of a teardown and clears it
  rcases memory_step p w.weather c.shared.net with
    ⟨hwanted, happlied, hp'⟩ | ⟨own, err, rfl, hp', hclear⟩
  · have hmemory : c.shared.books.Forgotten →
        (Desktop.books ⟨(p.step w.weather c.shared.net).2, c.shared.created p w.weather⟩).Forgotten :=
      fun hf => ⟨hwanted.trans hf.1, happlied.trans hf.2⟩
    by_cases hconn : (p.step w.weather c.shared.net).2.tunnel.state = .connected
    · -- the tunnel was connected before the step, or the step connects it
      rcases connected_step hconn with ⟨hwas, heng⟩ | ⟨eng, rfl, heng, heng', -⟩
      · have hp : ∀ own err, p ≠ .unlink own err := by
          rintro own err rfl
          cases hconn
        have hcurrent : (Desktop.current ⟨(p.step w.weather c.shared.net).2,
            c.shared.created p w.weather⟩) = c.shared.current := by
          unfold Desktop.current
          rw [heng]
          apply created_other
          intro hup
          -- the interface that comes up is not that of a connected engine
          cases hcur : c.shared.net.tunnel.eng with
          | none => exact absurd (h.sound.idle.mpr hcur) (by
              rw [show (tunnels c).shared.tunnel.state = .connected from hwas]
              exact fun heq => nomatch heq)
          | some eng =>
            rw [hcur] at hup
            have hbefore : (c.threads t).pc.Before eng := by
              rw [hpc, hup]
              exact rfl
            exact h.past t eng hbefore hcur hwas
        have hbooks : Desktop.books ⟨(p.step w.weather c.shared.net).2, c.shared.created p w.weather⟩ =
            c.shared.books := by
          unfold Desktop.books
          rw [hcurrent, hwanted, happlied]
        rw [hbooks, hconn, tearing_step ht hp hp']
        have hfaithful := h.books
        rwa [hwas] at hfaithful
      · have hbefore : (c.threads t).pc.Before eng := by
          rw [hpc]
          exact rfl
        have hidle := h.books.idle (h.past t eng hbefore heng)
        apply Books.faithful_up (hmemory hidle)
        show (Desktop.current _).Bare
        unfold Desktop.current
        rw [heng']
        apply created_bare
        apply h.fresh t
        rw [hpc]
        exact rfl
    · apply Books.faithful_down _ hconn
      apply hmemory
      -- only the second section of a teardown takes a connected engine out
      by_cases hwas : c.shared.net.tunnel.state = .connected
      · obtain ⟨own, err, rfl⟩ :=
          down_step (fun hc => by rw [hc]; exact fun heq => nomatch heq) hwas hconn
        exact h.books.torn ⟨t, own, err, ht⟩
      · exact h.books.idle hwas
  · have hself : (c.step ClientCall.step t w).threads t = .tunnel (.unlink own err) := by
      rw [Config.step_self, ht]
      exact congrArg ClientCall.tunnel hp'
    refine Books.faithful_forgotten ⟨?_, ?_⟩ ⟨t, own, err, hself⟩
    · show (Pc.step _ w.weather c.shared.net).2.tunnel.extraWanted = []
      rw [hclear]
      rfl
    · show (Pc.step _ w.weather c.shared.net).2.tunnel.extraApplied = []
      rw [hclear]
      rfl

theorem Desktop.Mirrored.tunnel_step (h : Mirrored profile c) {p : Pc} (ht : c.threads t = .tunnel p) :
    Mirrored profile (c.step ClientCall.step t w) := by
  have hpc : (c.threads t).pc = p := congrArg ClientCall.pc ht
  have hshared : (c.step ClientCall.step t w).shared =
      ⟨(p.step w.weather c.shared.net).2, c.shared.created p w.weather⟩ := by
    rw [Config.step_shared, ht]
    rfl
  have hself : ((c.step ClientCall.step t w).threads t).pc = (p.step w.weather c.shared.net).1 := by
    rw [Config.step_self, ht]
    rfl
  have hother : ∀ u, u ≠ t → (c.step ClientCall.step t w).threads u = c.threads u :=
    fun u hu => Config.step_other c hu w
  have hprofile : (p.step w.weather c.shared.net).2.tunnel.profile = profile :=
    (Pc.step_steps p w.weather c.shared.net).sameProfile.trans h.madeWith
  -- the fields of the invariant in their order; the step is of the thread t, the others stay as
  -- they are
  refine ⟨?_, ?_, ?_, ?_, ?_, ?_, ?_⟩
  · rw [tunnels_step ht]
    exact h.sound.step t w.weather
  · rw [hshared]
    exact hprofile
  · intro u eng hu
    by_cases hut : u = t
    · subst hut
      rw [hself] at hu
      -- an attempt begins only once the profile has been parsed
      rcases before_step hu with hold | ⟨-, hparsed⟩
      · exact h.parsed u eng (by rwa [hpc])
      · rwa [h.madeWith] at hparsed
    · rw [hother u hut] at hu
      exact h.parsed u eng hu
  · rw [hshared]
    intro hconn
    rcases connected_step hconn with ⟨hwas, -⟩ | ⟨eng, rfl, -, -, -⟩
    · exact h.connected hwas
    · apply h.parsed t eng
      rw [hpc]
      exact rfl
  · intro u eng hu
    rw [hshared]
    by_cases hut : u = t
    · subst hut
      rw [hself] at hu
      -- an interface is bare when it is created, and nothing writes to it before it is connected
      rcases upped_step hu with hold | ⟨rfl, hup⟩
      · exact created_bare (h.fresh u eng (by rwa [hpc]))
      · apply created_up hup
        rw [h.madeWith]
        apply (h.parsed u eng _).2
        rw [hpc]
        exact rfl
    · rw [hother u hut] at hu
      exact created_bare (h.fresh u eng hu)
  · intro u eng hu heng
    rw [hshared] at heng ⊢
    intro hconn
    rcases connected_step hconn with ⟨hwas, hsame⟩ | ⟨e, rfl, -, heng', hret⟩
    · rw [hsame] at heng
      by_cases hut : u = t
      · subst hut
        rw [hself] at hu
        rcases before_step hu with hold | ⟨hconnecting, -⟩
        · exact h.past u eng (by rwa [hpc]) heng hwas
        · rw [hconnecting] at hconn
          cases hconn
      · rw [hother u hut] at hu
        exact h.past u eng hu heng hwas
    · obtain rfl := Option.some.inj (heng.symm.trans heng')
      by_cases hut : u = t
      · rw [hut, hself, hret] at hu
        exact hu
      · -- an engine has one attempt
        rw [hother u hut] at hu
        have hown : (c.threads t).pc.own = some eng := by rw [hpc]; rfl
        exact hut (h.sound.owned u t eng hu.own hown)
  · rw [hshared]
    exact h.tunnel_books ht

/-! #### a route update -/

theorem Client.setExtraRoutes_ok {c : Client ℕ} {extra : List Prefix} {o : Outside}
    (hnet : c.tunnel.profile.network.isSome) (hkey : c.tunnel.profile.serverKey.isSome)
    (hup : o.updateFails = false) : (c.setExtraRoutes extra o).1.err = none := by
  obtain ⟨network, hnet⟩ := Option.isSome_iff_exists.mp hnet
  obtain ⟨key, hkey⟩ := Option.isSome_iff_exists.mp hkey
  simp only [Client.setExtraRoutes, hnet, hkey, hup, buildPeerUpdate, Option.map_some,
    Bool.false_eq_true, if_false]
  split_ifs <;> rfl

theorem Client.setExtraRoutes_profile (c : Client ℕ) (extra : List Prefix) (o : Outside) :
    (c.setExtraRoutes extra o).2.tunnel.profile = c.tunnel.profile := by
  obtain ⟨⟨⟨recorded, uapi, address, network, key⟩, state, eng, ifName, wanted, applied⟩, kernel⟩ := c
  cases network with
  | none =>
    simp only [Client.setExtraRoutes]
    split_ifs <;> rfl
  | some network =>
    cases key with
    | none =>
      simp only [Client.setExtraRoutes, buildPeerUpdate, Option.map_none]
      split_ifs <;> rfl
    | some key =>
      simp only [Client.setExtraRoutes, buildPeerUpdate, Option.map_some]
      split_ifs <;> rfl

theorem Client.setExtraRoutes_down {c : Client ℕ} (h : c.tunnel.state ≠ .connected) (extra : List Prefix)
    (o : Outside) : c.setExtraRoutes extra o = (⟨[], none⟩, c) := if_pos (.inl h)

/-- The client that a route update works on. -/
def Desktop.client (s : Desktop) (eng : ℕ) : Client ℕ := ⟨s.net.tunnel, s.interfaces eng⟩

omit [DecidableEq τ] in
theorem Desktop.Mirrored.eng (h : Mirrored profile c) (hconn : c.shared.net.tunnel.state = .connected) :
    ∃ eng, c.shared.net.tunnel.eng = some eng := by
  apply Option.ne_none_iff_exists'.mp
  intro hnone
  have hdown := h.sound.idle.mpr hnone
  rw [show (tunnels c).shared.tunnel.state = .connected from hconn] at hdown
  cases hdown

theorem Desktop.books_client {s : Desktop} {eng : ℕ} (heng : s.net.tunnel.eng = some eng) :
    s.books = (s.client eng).books := by
  unfold Desktop.books Desktop.current
  rw [heng]
  rfl

omit [DecidableEq τ] in
theorem Desktop.Mirrored.call (h : Mirrored profile c) {extra : List Prefix}
    (hkey : profile.uapiConfig.isSome → profile.serverKey.isSome)
    (ht : c.threads t = .setExtraRoutes extra) (hconn : c.shared.net.tunnel.state = .connected)
    (hok : Careful c t w) (hup : w.outside.updateFails = false) {eng : ℕ}
    (heng : c.shared.net.tunnel.eng = some eng) :
    let r := (c.shared.client eng).setExtraRoutes extra w.outside
    r.2.books.Faithful (c.shared.net.tunnel.state = .connected) (Tearing c) ∧
      r.2.kernel.Agrees r.1.routes extra ∧ r.1.routes = r.2.tunnel.extraApplied ∧
      (Tearing c → r.2.kernel.Bare) := by
  have hbooks := books_client heng
  have hgap := hok extra ht hconn
  have hfaithful := h.books
  rw [hbooks] at hgap hfaithful
  have hanswer : (c.shared.client eng).books.Answers extra w.outside _ _ :=
    Client.setExtraRoutes_answers hconn (by rw
      [show (c.shared.client eng).tunnel.eng = _ from heng]; rfl)
      (hfaithful.call_kept hconn hgap)
  apply hfaithful.call hconn hgap hanswer
  obtain ⟨huapi, hnet⟩ := h.connected hconn
  rw [← h.madeWith] at huapi hnet hkey
  exact Client.setExtraRoutes_ok hnet (hkey huapi) hup

theorem Desktop.routes_shared {extra : List Prefix} (ht : c.threads t = .setExtraRoutes extra) {eng : ℕ}
    (heng : c.shared.net.tunnel.eng = some eng) :
    (c.step ClientCall.step t w).shared =
      ⟨{ c.shared.net with tunnel := ((c.shared.client eng).setExtraRoutes extra w.outside).2.tunnel },
        Function.update c.shared.interfaces eng
          ((c.shared.client eng).setExtraRoutes extra w.outside).2.kernel⟩ := by
  rw [Config.step_shared, ht]
  simp only [ClientCall.step, heng]
  rfl

theorem Desktop.down_shared {extra : List Prefix} (ht : c.threads t = .setExtraRoutes extra)
    (hconn : c.shared.net.tunnel.state ≠ .connected) :
    (c.step ClientCall.step t w).shared = c.shared := by
  cases heng : c.shared.net.tunnel.eng with
  | none =>
    rw [Config.step_shared, ht]
    simp only [ClientCall.step, heng]
  | some eng =>
    have hdown := Client.setExtraRoutes_down (c := c.shared.client eng) hconn extra w.outside
    rw [routes_shared ht heng, hdown]
    simp only [Desktop.client, Function.update_eq_self]

omit [DecidableEq τ] in
theorem tearing_iff : Tearing c ↔ ∃ t own err, (c.threads t).pc = .unlink own err := by
  apply exists_congr
  intro t
  apply exists_congr
  intro own
  apply exists_congr
  intro err
  cases c.threads t with
  | tunnel p => exact ⟨fun heq => ClientCall.tunnel.inj heq, congrArg ClientCall.tunnel⟩
  | setExtraRoutes | answered => exact ⟨fun heq => (nomatch heq), fun heq => (nomatch heq)⟩

omit [DecidableEq τ] in
theorem Desktop.Mirrored.of_calls (h : Mirrored profile c) {c' : Config τ ClientCall Desktop}
    (hpc : ∀ u, (c'.threads u).pc = (c.threads u).pc)
    (hstate : c'.shared.net.tunnel.state = c.shared.net.tunnel.state)
    (heng : c'.shared.net.tunnel.eng = c.shared.net.tunnel.eng)
    (hmade : c'.shared.net.made = c.shared.net.made)
    (hprofile : c'.shared.net.tunnel.profile = c.shared.net.tunnel.profile)
    (hinterfaces : ∀ u eng, (c.threads u).pc.Upped eng →
      c'.shared.interfaces eng = c.shared.interfaces eng)
    (hbooks : c'.shared.books.Faithful (c.shared.net.tunnel.state = .connected) (Tearing c)) :
    Mirrored profile c' := by
  have htunnels : (tunnels c').threads = (tunnels c).threads := funext hpc
  have htearing : Tearing c' ↔ Tearing c := by
    simp only [tearing_iff, hpc]
  refine ⟨⟨?_, ?_, ?_⟩, hprofile.trans h.madeWith, ?_, ?_, ?_, ?_, ?_⟩
  · show c'.shared.net.tunnel.state = .disconnected ↔ c'.shared.net.tunnel.eng = none
    rw [hstate, heng]
    exact h.sound.idle
  · show ∀ t eng, ((tunnels c').threads t).own = some eng → eng < c'.shared.net.made
    rw [htunnels, hmade]
    exact h.sound.made
  · rw [htunnels]
    exact h.sound.owned
  · intro u eng hu
    rw [hpc] at hu
    exact h.parsed u eng hu
  · rw [hstate]
    exact h.connected
  · intro u eng hu
    rw [hpc] at hu
    rw [hinterfaces u eng hu]
    exact h.fresh u eng hu
  · intro u eng hu
    rw [hpc] at hu
    rw [heng, hstate]
    exact h.past u eng hu
  · rw [hstate, htearing]
    exact hbooks

theorem Desktop.pc_step (hnot : ∀ p, c.threads t ≠ .tunnel p) (u : τ) :
    ((c.step ClientCall.step t w).threads u).pc = (c.threads u).pc := by
  by_cases hu : u = t
  · rw [hu, Config.step_self]
    cases hcall : c.threads t with
    | tunnel p => exact absurd hcall (hnot p)
    | setExtraRoutes extra =>
      simp only [ClientCall.step]
      split <;> rfl
    | answered => rfl
  · rw [Config.step_other c hu]

theorem Desktop.Mirrored.routes_step (h : Mirrored profile c) {extra : List Prefix}
    (hkey : profile.uapiConfig.isSome → profile.serverKey.isSome)
    (ht : c.threads t = .setExtraRoutes extra) (hok : Careful c t w)
    (hup : w.outside.updateFails = false) :
    Mirrored profile (c.step ClientCall.step t w) := by
  have hpc := pc_step (c := c) (t := t) (w := w) fun p => by rw [ht]; exact fun heq => nomatch heq
  by_cases hconn : c.shared.net.tunnel.state = .connected
  · obtain ⟨eng, heng⟩ := h.eng hconn
    have hshared := routes_shared (w := w) ht heng
    have htunnel := Client.setExtraRoutes_tunnel (c := c.shared.client eng) extra w.outside
    have hprofile := (c.shared.client eng).setExtraRoutes_profile extra w.outside
    apply h.of_calls hpc <;> rw [hshared]
    · exact htunnel.1
    · exact htunnel.2
    · exact hprofile
    · intro u e hu
      apply Function.update_of_ne
      rintro rfl
      exact h.past u e hu.before heng hconn
    · have hbooks := (h.call hkey ht hconn hok hup heng).1
      have hcur : ((c.shared.client eng).setExtraRoutes extra w.outside).2.tunnel.eng = some eng :=
        htunnel.2.trans heng
      rw [books_client (s := ⟨_, _⟩) hcur]
      simpa [Desktop.client] using hbooks
  · apply h.of_calls hpc <;> rw [down_shared ht hconn]
    · exact fun _ _ _ => rfl
    · exact h.books

theorem Desktop.Mirrored.step (h : Mirrored profile c)
    (hkey : profile.uapiConfig.isSome → profile.serverKey.isSome) (hok : Careful c t w)
    (hup : w.outside.updateFails = false) : Mirrored profile (c.step ClientCall.step t w) := by
  cases hcall : c.threads t with
  | tunnel p => exact h.tunnel_step hcall
  | setExtraRoutes extra => exact h.routes_step hkey hcall hok hup
  | answered extra r =>
    have hpc := pc_step (c := c) (t := t) (w := w) fun p => by rw [hcall]; exact fun heq => nomatch heq
    have hshared : (c.step ClientCall.step t w).shared = c.shared := by
      rw [Config.step_shared, hcall]
      rfl
    apply h.of_calls hpc <;> rw [hshared]
    · exact fun _ _ _ => rfl
    · exact h.books

/-- Neither a teardown begins nor does another route update find the tunnel connected. -/
def Desktop.Calm (c : Config τ ClientCall Desktop) (t : τ) (_ : DesktopWeather) : Prop :=
  (∀ own err, c.threads t ≠ .tunnel (.clear own err)) ∧
    ∀ extra, c.threads t = .setExtraRoutes extra → c.shared.net.tunnel.state ≠ .connected

variable {routes : List Prefix}

/-- What an update has answered stays what is remembered, and while a teardown is under way the
interface of a connected tunnel is bare. -/
structure Desktop.Keeps (routes : List Prefix) (c : Config τ ClientCall Desktop) : Prop where
  applied : c.shared.net.tunnel.extraApplied = routes
  torn : Tearing c → routes = []
  bare : Tearing c → ∀ eng, c.shared.net.tunnel.eng = some eng →
    c.shared.net.tunnel.state = .connected → (c.shared.interfaces eng).Bare

omit [DecidableEq τ] in
theorem Desktop.Keeps.of_same (h : Keeps routes c) {c' : Config τ ClientCall Desktop}
    (hpc : ∀ u, (c'.threads u).pc = (c.threads u).pc) (hshared : c'.shared = c.shared) :
    Keeps routes c' := by
  have htearing : Tearing c' ↔ Tearing c := by
    simp only [tearing_iff, hpc]
  refine ⟨?_, ?_, ?_⟩
  · rw [hshared]
    exact h.applied
  · rw [htearing]
    exact h.torn
  · rw [htearing, hshared]
    exact h.bare

theorem Desktop.Mirrored.keeps_step (h : Mirrored profile c) (hcalm : Calm c t w)
    (hold : Keeps routes c) : Keeps routes (c.step ClientCall.step t w) := by
  cases hcall : c.threads t with
  | setExtraRoutes extra =>
    have hpc := pc_step (c := c) (t := t) (w := w) fun p => by rw [hcall]; exact fun heq => nomatch heq
    exact hold.of_same hpc (down_shared hcall (hcalm.2 extra hcall))
  | answered extra r =>
    have hpc := pc_step (c := c) (t := t) (w := w) fun p => by rw [hcall]; exact fun heq => nomatch heq
    have hshared : (c.step ClientCall.step t w).shared = c.shared := by
      rw [Config.step_shared, hcall]
      rfl
    exact hold.of_same hpc hshared
  | tunnel p =>
    have hpc : (c.threads t).pc = p := congrArg ClientCall.pc hcall
    have hshared : (c.step ClientCall.step t w).shared =
        ⟨(p.step w.weather c.shared.net).2, c.shared.created p w.weather⟩ := by
      rw [Config.step_shared, hcall]
      rfl
    rcases memory_step p w.weather c.shared.net with ⟨-, happlied, hp'⟩ | ⟨own, err, rfl, -, -⟩
    · have htearing : Tearing (c.step ClientCall.step t w) → Tearing c := by
        by_cases hp : ∃ own err, p = .unlink own err
        · obtain ⟨own, err, rfl⟩ := hp
          exact fun _ => ⟨t, own, err, hcall⟩
        · push Not at hp
          exact (tearing_step hcall hp hp').mp
      refine ⟨?_, fun ht => hold.torn (htearing ht), fun ht eng heng hconn => ?_⟩
      · rw [hshared]
        exact happlied.trans hold.applied
      · rw [hshared] at heng hconn ⊢
        rcases connected_step hconn with ⟨hwas, hsame⟩ | ⟨e, rfl, heng₀, heng', -⟩
        · exact created_bare (hold.bare (htearing ht) eng (hsame.symm.trans heng) hwas)
        · obtain rfl := Option.some.inj (heng.symm.trans heng')
          apply created_bare
          apply h.fresh t
          rw [hpc]
          exact rfl
    · exact absurd hcall (hcalm.1 own err)

theorem Desktop.Mirrored.keeps (h : Mirrored profile c)
    (hkey : profile.uapiConfig.isSome → profile.serverKey.isSome) {sched : List (τ × DesktopWeather)}
    (hok : Along ClientCall.step Careful c sched) (hcalm : Along ClientCall.step Calm c sched)
    (hup : ∀ x ∈ sched, x.2.outside.updateFails = false) (hold : Keeps routes c) :
    Mirrored profile (c.exec ClientCall.step sched) ∧ Keeps routes (c.exec ClientCall.step sched) := by
  induction sched generalizing c with
  | nil => exact ⟨h, hold⟩
  | cons x sched ih =>
    have hstep := h.step hkey hok.1 (hup x List.mem_cons_self)
    exact ih hstep hok.2 hcalm.2 (fun y hy => hup y (List.mem_cons_of_mem _ hy))
      (h.keeps_step hcalm.1 hold)

theorem Desktop.Mirrored.exec (h : Mirrored profile c)
    (hkey : profile.uapiConfig.isSome → profile.serverKey.isSome) {sched : List (τ × DesktopWeather)}
    (hok : Along ClientCall.step Careful c sched)
    (hup : ∀ x ∈ sched, x.2.outside.updateFails = false) :
    Mirrored profile (c.exec ClientCall.step sched) := by
  induction sched generalizing c with
  | nil => exact h
  | cons x sched ih =>
    exact ih (h.step hkey hok.1 (hup x List.mem_cons_self)) hok.2
      fun y hy => hup y (List.mem_cons_of_mem _ hy)

omit [DecidableEq τ] in
theorem Desktop.Mirrored.agrees (h : Mirrored profile c) {extra : List Prefix} (hold : Keeps routes c)
    (hconn : c.shared.net.tunnel.state = .connected) {eng : ℕ}
    (heng : c.shared.net.tunnel.eng = some eng)
    (hsub : routes ⊆ canonicalPrefixes extra) : (c.shared.interfaces eng).Agrees routes extra := by
  have hbooks := books_client heng
  have hfaithful := h.books
  have hholds : c.shared.books.Holds routes (c.shared.net.tunnel.state = .connected) (Tearing c) := by
    refine ⟨hold.applied, hold.torn, fun ht _ => ?_⟩
    rw [hbooks]
    exact hold.bare ht eng heng hconn
  have hagree := hholds.agrees hfaithful hconn hsub
  rwa [hbooks] at hagree

/-! ### any interleaving -/

/-- The calls of a run, none of them begun. -/
def Desktop.Calls (calls : τ → ClientCall) : Prop :=
  ∀ t, calls t = .tunnel .connect ∨ calls t = .tunnel .disconnect ∨ ∃ extra,
    calls t = .setExtraRoutes extra

omit [DecidableEq τ] in
theorem Desktop.mirrored_new (profile : Profile) {calls : τ → ClientCall}
    (hcalls : Desktop.Calls calls) :
    Desktop.Mirrored profile ⟨calls, Desktop.new profile⟩ := by
  have hpc : ∀ t, (calls t).pc = .connect ∨ (calls t).pc = .disconnect ∨
    (calls t).pc = .returned none := by
    intro t
    rcases hcalls t with ht | ht | ⟨extra, ht⟩ <;> rw [ht]
    · exact .inl rfl
    · exact .inr (.inl rfl)
    · exact .inr (.inr rfl)
  have hown : ∀ t, (calls t).pc.own = none := by
    intro t
    rcases hpc t with ht | ht | ht <;> rw [ht] <;> rfl
  have hbefore : ∀ t eng, ¬(calls t).pc.Before eng := by
    intro t eng hb
    have hsome := hb.own
    rw [hown t] at hsome
    cases hsome
  refine ⟨⟨iff_of_true rfl rfl, ?_, ?_⟩, rfl, ?_, fun heq => (nomatch heq), ?_, ?_, ?_⟩
  · intro t eng ht
    exact absurd ((hown t).symm.trans ht) (Option.some_ne_none eng).symm
  · intro t u eng ht
    exact absurd ((hown t).symm.trans ht) (Option.some_ne_none eng).symm
  · exact fun t eng hb => absurd hb (hbefore t eng)
  · exact fun t eng hu => absurd hu.before (hbefore t eng)
  · exact fun t eng hb => absurd hb (hbefore t eng)
  · exact Books.faithful_down ⟨rfl, rfl⟩ fun heq => (nomatch heq)

def Uplink.new (network : Prefix) (serverPubKey : Option String) : Uplink :=
  ⟨Engine.fresh network serverPubKey, false⟩

omit [DecidableEq τ] in
theorem Uplink.mirrored_new (network : Prefix) (serverPubKey : Option String) (calls : τ → EngineCall) :
    Uplink.Mirrored ⟨calls, Uplink.new network serverPubKey⟩ :=
  ⟨Books.faithful_down ⟨rfl, rfl⟩ Bool.false_ne_true, fun heq => absurd heq Bool.false_ne_true⟩

theorem Uplink.Mirrored.exec {c : Config τ EngineCall Uplink} (h : Uplink.Mirrored c)
    {sched : List (τ × EngineWeather)} (hok : Along EngineCall.step Uplink.Careful c sched)
    (hup : ∀ x ∈ sched, x.2.outside.updateFails = false) :
    Uplink.Mirrored (c.exec EngineCall.step sched) := by
  induction sched generalizing c with
  | nil => exact h
  | cons x sched ih =>
    exact ih (h.step hok.1 (hup x List.mem_cons_self)) hok.2 fun y hy =>
      hup y (List.mem_cons_of_mem _ hy)

/-- There is one adapter name: an attempt that was given up cannot create the adapter while that
of a connected tunnel is there. -/
def Desktop.OneAdapter (c : Config τ ClientCall Desktop) (t : τ) (w : DesktopWeather) : Prop :=
  ∀ eng, c.threads t = .tunnel (.bringUp eng) → c.shared.net.tunnel.eng ≠ some eng →
    w.weather.up.isSome → c.shared.net.tunnel.state ≠ .connected

/-- The condition of a run of the desktop: each step is careful and no update fails. -/
structure Desktop.Fair (c : Config τ ClientCall Desktop) (sched : List (τ × DesktopWeather)) : Prop where
  careful : Along ClientCall.step Desktop.Careful c sched
  adapters : Along ClientCall.step Desktop.OneAdapter c sched
  updates : ∀ x ∈ sched, x.2.outside.updateFails = false

structure Uplink.Fair (c : Config τ EngineCall Uplink) (sched : List (τ × EngineWeather)) : Prop where
  careful : Along EngineCall.step Uplink.Careful c sched
  updates : ∀ x ∈ sched, x.2.outside.updateFails = false

theorem Desktop.Fair.split {c : Config τ ClientCall Desktop} {s₁ s₂ : List (τ × DesktopWeather)}
    (h : Desktop.Fair c (s₁ ++ s₂)) :
    Desktop.Fair c s₁ ∧ Desktop.Fair (c.exec ClientCall.step s₁) s₂ := by
  obtain ⟨hcareful₁, hcareful₂⟩ := along_append.mp h.careful
  obtain ⟨hadapters₁, hadapters₂⟩ := along_append.mp h.adapters
  exact ⟨⟨hcareful₁, hadapters₁, fun x hx => h.updates x (List.mem_append_left _ hx)⟩,
    ⟨hcareful₂, hadapters₂, fun x hx => h.updates x (List.mem_append_right _ hx)⟩⟩

theorem Uplink.Fair.split {c : Config τ EngineCall Uplink} {s₁ s₂ : List (τ × EngineWeather)}
    (h : Uplink.Fair c (s₁ ++ s₂)) :
    Uplink.Fair c s₁ ∧ Uplink.Fair (c.exec EngineCall.step s₁) s₂ := by
  obtain ⟨h₁, h₂⟩ := along_append.mp h.careful
  exact ⟨⟨h₁, fun x hx => h.updates x (List.mem_append_left _ hx)⟩,
    ⟨h₂, fun x hx => h.updates x (List.mem_append_right _ hx)⟩⟩

omit [DecidableEq τ] in
theorem Desktop.Mirrored.created_forgotten (h : Mirrored profile c) {eng : ℕ}
    (ht : c.threads t = .tunnel (.bringUp eng)) (hup : w.weather.up.isSome) (hone : OneAdapter c t w) :
    c.shared.books.Forgotten := by
  apply h.books.idle
  by_cases heng : c.shared.net.tunnel.eng = some eng
  · apply h.past t eng _ heng
    rw [show (c.threads t).pc = .bringUp eng from congrArg ClientCall.pc ht]
    exact rfl
  · exact hone eng ht heng hup

theorem Desktop.Mirrored.keeps_call (h : Mirrored profile c) {extra : List Prefix}
    (hkey : profile.uapiConfig.isSome → profile.serverKey.isSome)
    (ht : c.threads t = .setExtraRoutes extra) (hconn : c.shared.net.tunnel.state = .connected)
    (hok : Careful c t w) (hup : w.outside.updateFails = false) :
    ∃ r, (c.step ClientCall.step t w).threads t = .answered extra r ∧ r.err = none ∧
      Keeps r.routes (c.step ClientCall.step t w) ∧ r.routes ⊆ canonicalPrefixes extra := by
  obtain ⟨eng, heng⟩ := h.eng hconn
  obtain ⟨-, hagree, hroutes, hbare⟩ := h.call hkey ht hconn hok hup heng
  obtain ⟨huapi, hnet⟩ := h.connected hconn
  have hpc := pc_step (c := c) (t := t) (w := w) fun p => by rw [ht]; exact fun heq => nomatch heq
  have htearing : Tearing (c.step ClientCall.step t w) ↔ Tearing c := by
    simp only [tearing_iff, hpc]
  refine ⟨((c.shared.client eng).setExtraRoutes extra w.outside).1, ?_, ?_, ⟨?_, ?_, ?_⟩,
    hagree.requested⟩
  · rw [Config.step_self, ht]
    simp only [ClientCall.step, heng]
    rfl
  · rw [← h.madeWith] at huapi hnet hkey
    exact Client.setExtraRoutes_ok hnet (hkey huapi) hup
  · rw [routes_shared ht heng]
    exact hroutes.symm
  · rw [htearing]
    intro hgap
    have hnone := (hbare hgap).1
    rw [hagree.routes] at hnone
    simpa using hnone
  · rw [htearing, routes_shared ht heng]
    intro hgap e he _
    have htunnel := Client.setExtraRoutes_tunnel (c := c.shared.client eng) extra w.outside
    obtain rfl := Option.some.inj ((htunnel.2.trans heng).symm.trans he)
    show (Function.update c.shared.interfaces eng _ eng).Bare
    rw [Function.update_self]
    exact hbare hgap

end

theorem Uplink.Mirrored.holds_call {τ : Type} [DecidableEq τ] {c : Config τ EngineCall Uplink} {t : τ}
    {w : EngineWeather} (h : Mirrored c) {extra : List Prefix} (ht : c.threads t = .setRoutes extra)
    (hlink : c.shared.link = true) (hok : Careful c t w) (hup : w.outside.updateFails = false) :
    ∃ r, (c.step EngineCall.step t w).threads t = .answered extra r ∧ r.err = none ∧
      (c.step EngineCall.step t w).shared.engine.books.Holds r.routes
        ((c.step EngineCall.step t w).shared.link = true) (Downing (c.step EngineCall.step t w)) ∧
      r.routes ⊆ canonicalPrefixes extra := by
  obtain ⟨-, hagree, hroutes, hbare⟩ := h.call ht hlink hok hup
  have hstep : EngineCall.step (c.threads t) w c.shared =
      (.answered extra (c.shared.engine.setRoutes extra
        { w.outside with linkMissing := !c.shared.link }).1,
        { c.shared with
          engine := (c.shared.engine.setRoutes extra
            { w.outside with linkMissing := !c.shared.link }).2 }) := by
    rw [ht]
    rfl
  have hgap : Downing (c.step EngineCall.step t w) ↔ Downing c := by
    apply exists_step_iff (m := EngineCall.step) (Q := (· = .delete))
    · rw [ht]
      exact fun heq => nomatch heq
    · rw [hstep]
      exact fun heq => nomatch heq
  refine ⟨_, ?_, ?_, ⟨?_, ?_, ?_⟩, hagree.requested⟩
  · rw [Config.step_self, hstep]
  · exact Engine.setRoutes_ok (by simp [hlink]) (h.key hlink) hup
  · rw [Config.step_shared, hstep]
    exact hroutes.symm
  · rw [hgap]
    intro hdown
    have hnone := (hbare hdown).1
    rw [hagree.routes] at hnone
    simpa using hnone
  · rw [hgap, Config.step_shared, hstep]
    exact fun hdown _ => hbare hdown

/-- In every run whose steps meet the condition: an interface is created only while nothing is
remembered, and what an update on a live tunnel has answered is what the current interface
carries as long as no teardown begins and no other update is made on it. -/
theorem remembered_routes_belong {τ : Type} [DecidableEq τ] :
    (∀ (profile : Profile) (calls : τ → ClientCall) (earlier later : List (τ × DesktopWeather))
        (t : τ) (w : DesktopWeather),
      (profile.uapiConfig.isSome → profile.serverKey.isSome) → Desktop.Calls calls →
      Desktop.Fair ⟨calls, Desktop.new profile⟩ (earlier ++ (t, w) :: later) →
      let c := (Config.mk calls (Desktop.new profile)).exec ClientCall.step earlier
      (∀ eng, c.threads t = .tunnel (.bringUp eng) → w.weather.up.isSome →
        c.shared.net.tunnel.extraApplied = []) ∧
      (∀ extra, c.threads t = .setExtraRoutes extra → c.shared.net.tunnel.state = .connected →
        Along ClientCall.step Desktop.Calm (c.step ClientCall.step t w) later →
        ∃ r, (c.step ClientCall.step t w).threads t = .answered extra r ∧ r.err = none ∧
          let c' := (c.step ClientCall.step t w).exec ClientCall.step later
          ∀ eng, c'.shared.net.tunnel.state = .connected → c'.shared.net.tunnel.eng = some eng →
            (c'.shared.interfaces eng).Agrees r.routes extra)) ∧
    (∀ (network : Prefix) (serverPubKey : Option String) (calls : τ → EngineCall)
        (earlier later : List (τ × EngineWeather)) (t : τ) (w : EngineWeather),
      Uplink.Fair ⟨calls, Uplink.new network serverPubKey⟩ (earlier ++ (t, w) :: later) →
      let c := (Config.mk calls (Uplink.new network serverPubKey)).exec EngineCall.step earlier
      (c.threads t = .up → (c.step EngineCall.step t w).threads t = .finished true →
        c.shared.engine.routesApplied = []) ∧
      (∀ extra, c.threads t = .setRoutes extra → c.shared.link = true →
        Along EngineCall.step Uplink.Calm (c.step EngineCall.step t w) later →
        ∃ r, (c.step EngineCall.step t w).threads t = .answered extra r ∧ r.err = none ∧
          let c' := (c.step EngineCall.step t w).exec EngineCall.step later
          c'.shared.link = true → c'.shared.engine.kernel.Agrees r.routes extra)) := by
  constructor
  · intro profile calls earlier later t w hkey hcalls hfair c
    obtain ⟨hbefore, hafter⟩ := hfair.split
    have hc : Desktop.Mirrored profile c :=
      (Desktop.mirrored_new profile hcalls).exec hkey hbefore.careful hbefore.updates
    have hok := hafter.careful.1
    have hup := hafter.updates _ List.mem_cons_self
    refine ⟨fun eng ht hmade => (hc.created_forgotten ht hmade hafter.adapters.1).2, ?_⟩
    intro extra ht hconn hcalm
    -- the update leaves the interface as the memory says, and later calm steps keep both
    obtain ⟨r, hanswer, herr, hkeeps, hsub⟩ := hc.keeps_call hkey ht hconn hok hup
    refine ⟨r, hanswer, herr, ?_⟩
    intro c' eng hconn' heng'
    obtain ⟨hend, hkept⟩ := (hc.step hkey hok hup).keeps hkey hafter.careful.2 hcalm
      (fun x hx => hafter.updates x (List.mem_cons_of_mem _ hx)) hkeeps
    exact hend.agrees hkept hconn' heng' hsub
  · intro network serverPubKey calls earlier later t w hfair c
    obtain ⟨hbefore, hafter⟩ := hfair.split
    have hc : Uplink.Mirrored c :=
      (Uplink.mirrored_new network serverPubKey calls).exec hbefore.careful hbefore.updates
    have hok := hafter.careful.1
    have hup := hafter.updates _ List.mem_cons_self
    constructor
    · intro ht hmade
      apply (hc.books.idle _).2
      intro hlink
      rw [Config.step_self, ht] at hmade
      simp only [EngineCall.step, hlink, true_or, if_true] at hmade
      cases hmade
    · intro extra ht hlink hcalm
      obtain ⟨r, hanswer, herr, hholds, hsub⟩ := hc.holds_call ht hlink hok hup
      refine ⟨r, hanswer, herr, ?_⟩
      intro c' hlink'
      obtain ⟨hend, hkept⟩ := (hc.step hok hup).holds hafter.careful.2 hcalm
        (fun x hx => hafter.updates x (List.mem_cons_of_mem _ hx)) hholds
      exact hkept.agrees hend.books hlink' hsub

/-! ### an update between the two sections of a teardown -/

def calmWeather : DesktopWeather := ⟨fair, quiet⟩

def returning : Fin 5 → ClientCall
  | 0 => .tunnel .connect
  | 1 => .tunnel .disconnect
  | 2 => .setExtraRoutes [block]
  | 3 => .tunnel .connect
  | 4 => .setExtraRoutes [block]

def linkReturning : Fin 5 → EngineCall
  | 0 => .up
  | 1 => .down
  | 2 => .setRoutes [block]
  | 3 => .up
  | 4 => .setRoutes [block]

theorem returning_calls : Desktop.Calls returning := by
  intro t
  match t with
  | 0 => exact .inl rfl
  | 1 => exact .inr (.inl rfl)
  | 2 => exact .inr (.inr ⟨_, rfl⟩)
  | 3 => exact .inl rfl
  | 4 => exact .inr (.inr ⟨_, rfl⟩)

/-- One after another: the routes go with the teardown and are asked for again. -/
theorem remembered_routes_belong_twice :
    let c := (Config.mk returning (Desktop.new labProfile)).exec ClientCall.step
      ([0, 0, 0, 0, 0, 2, 1, 1, 1, 3, 3, 3, 3, 3].map fun t => (t, calmWeather))
    ∃ r, (c.step ClientCall.step 4 calmWeather).threads 4 = .answered [block] r ∧ r.err = none ∧
      ∀ eng, (c.step ClientCall.step 4 calmWeather).shared.net.tunnel.state = .connected →
        (c.step ClientCall.step 4 calmWeather).shared.net.tunnel.eng = some eng →
        ((c.step ClientCall.step 4 calmWeather).shared.interfaces eng).Agrees r.routes [block] := by
  intro c
  apply (remembered_routes_belong.1 labProfile returning
    ([0, 0, 0, 0, 0, 2, 1, 1, 1, 3, 3, 3, 3, 3].map fun t => (t, calmWeather)) [] 4 calmWeather
    (fun _ => rfl) returning_calls ?_).2 [block] rfl rfl trivial
  -- neither update meets a teardown, and no engine comes up on a connected tunnel
  refine ⟨⟨?_, ?_, ?_, ?_, ?_, ?_, ?_, ?_, ?_, ?_, ?_, ?_, ?_, ?_, ?_, trivial⟩,
    ⟨?_, ?_, ?_, ?_, ?_, ?_, ?_, ?_, ?_, ?_, ?_, ?_, ?_, ?_, ?_, trivial⟩, by decide⟩
  case refine_6 | refine_15 =>
    intro extra hextra _
    have hblock : [block] = extra := ClientCall.setExtraRoutes.inj hextra
    rw [← hblock]
    refine ⟨by decide, ?_, ?_⟩
    all_goals
      intro hgap
      obtain ⟨u, own, err, hu⟩ := hgap
      match u with
      | 0 | 1 | 2 | 3 | 4 => cases hu
  case refine_17 | refine_26 =>
    intro eng _ _ _ hconn
    cases hconn
  all_goals exact fun _ h => (nomatch h)

/-- Both tunnels forget the routes, an update then fills the memory again for the interface that
goes, and on the next interface the same update is answered from memory. -/
theorem remembered_routes_lost :
    (let c := (Config.mk returning (Desktop.new labProfile)).exec ClientCall.step
        ([0, 0, 0, 0, 0, 1, 2, 1, 1, 3].map fun t => (t, calmWeather))
      let c' := c.exec ClientCall.step ([3, 3, 3, 3, 4].map fun t => (t, calmWeather))
      c.threads 3 = .tunnel (.bringUp 1) ∧ c.shared.net.tunnel.extraApplied = [block] ∧
        c'.threads 4 = .answered [block] ⟨[block], none⟩ ∧
        c'.shared.net.tunnel.state = .connected ∧ c'.shared.net.tunnel.eng = some 1 ∧
        ¬ (c'.shared.interfaces 1).Agrees [block] [block]) ∧
    (let c := (Config.mk linkReturning (Uplink.new block (some "server"))).exec EngineCall.step
        ([0, 1, 2, 1].map fun t => (t, ⟨quiet, true⟩))
      let c' := c.exec EngineCall.step ([3, 4].map fun t => (t, ⟨quiet, true⟩))
      c.threads 3 = .up ∧ c'.threads 3 = .finished true ∧ c.shared.engine.routesApplied = [block] ∧
        c'.threads 4 = .answered [block] ⟨[block], none⟩ ∧ c'.shared.link = true ∧
        ¬ c'.shared.engine.kernel.Agrees [block] [block]) := by
  refine ⟨⟨rfl, by decide, rfl, rfl, rfl, fun h => ?_⟩, rfl, rfl, by decide, rfl, rfl, fun h => ?_⟩
  · exact absurd h.routes (by decide)
  · exact absurd h.routes (by decide)

end LanWeave

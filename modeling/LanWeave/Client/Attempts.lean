import LanWeave.Client.Connect

/-! Any number of `Connect` attempts and `Disconnect` calls: when no attempt touches the
tunnel of another, and when a disconnect leaves neither a state nor a device behind. -/

namespace LanWeave
open Library

namespace Pc
variable {p p' : Pc} {s s' : Net} {w : Weather}

theorem Steps.own (h : Steps w s p p' s') : p'.own = none ∨ p'.own = p.own ∨
    p'.own = some s.made ∧ s'.made = s.made + 1 := by
  cases h with
  | start hs hr hp =>
    rcases hp with rfl | rfl
    · exact .inr (.inr ⟨rfl, rfl⟩)
    · exact .inr (.inr ⟨rfl, rfl⟩)
  | busy | noSetup | abandoned | connected | idle | close | returned => exact .inl rfl
  | _ => exact .inr (.inl rfl)

theorem Steps.made (h : Steps w s p p' s') : s.made ≤ s'.made := by
  cases h with
  | start => exact Nat.le_succ _
  | _ => exact le_rfl

theorem Steps.idle_iff (h : Steps w s p p' s')
    (hidle : s.tunnel.state = .disconnected ↔ s.tunnel.eng = none) :
    s'.tunnel.state = .disconnected ↔ s'.tunnel.eng = none := by
  cases h with
  | start => exact iff_of_false (fun h => nomatch h) (fun h => nomatch h)
  | connected heng =>
    refine iff_of_false (fun h => nomatch h) fun h => ?_
    rw [heng] at h
    cases h
  | unlink | idle => exact iff_of_true rfl rfl
  | _ => exact hidle

theorem Steps.eng_eq (h : Steps w s p p' s') : s'.tunnel.eng = s.tunnel.eng ∨
    s.tunnel.state = .disconnected ∨ ∃ own err, p = .unlink own err := by
  cases h with
  | start hs => exact .inr (.inl hs)
  | unlink | idle => exact .inr (.inr ⟨_, _, rfl⟩)
  | _ => exact .inl rfl

theorem Steps.pending (h : Steps w s p p' s')
    (hp : ∀ eng, p.Pending eng → s.tunnel.eng = some eng)
    (htime : ∀ eng, p = await eng → w.expired = true → s.tunnel.eng = some eng) {eng : ℕ}
    (hp' : p'.Pending eng) : s'.tunnel.eng = some eng := by
  cases h with
  | start hs hr hnew =>
    rcases hnew with rfl | rfl
    · exact congrArg some hp'
    · exact hp'
  | upFails => exact hp eng (Option.some.inj hp')
  | up => exact hp eng hp'
  | expired hexp => exact (htime _ rfl hexp).trans hp'
  | clear => exact hp eng hp'
  | _ => exact hp'.elim

/-- A device is there after a step because its `up` has just succeeded, or was there before; its
engine stays current or is taken out to be closed. -/
theorem Steps.dev (h : Steps w s p p' s')
    (hidle : s.tunnel.state = .disconnected → s.tunnel.eng = none) {eng : ℕ}
    (hdev : (s'.engines eng).dev = true) :
    (p = .bringUp eng ∧ w.up.isSome ∧ s'.tunnel.eng = s.tunnel.eng) ∨
    ((s.engines eng).dev = true ∧ (∀ own err, p ≠ .close own eng err) ∧
      (s.tunnel.eng = some eng → s'.tunnel.eng = some eng ∨ ∃ own err, p' = .close own eng err)) := by
  cases h with
  | start hs =>
    refine .inr ⟨hdev, fun _ _ h => (nomatch h), fun hcur => ?_⟩
    rw [hidle hs] at hcur
    cases hcur
  -- the only step that makes a device
  | @up e ifName hup =>
    dsimp only at hdev
    by_cases he : e = eng
    · subst he
      exact .inl ⟨rfl, Option.isSome_of_eq_some hup, rfl⟩
    · have hold : (s.engines eng).dev = true := by
        rwa [Function.update_of_ne (Ne.symm he)] at hdev
      exact .inr ⟨hold, fun _ _ h => (nomatch h), .inl⟩
  -- the only one that removes one
  | @close own e err =>
    dsimp only at hdev
    have he : eng ≠ e := by
      rintro rfl
      rw [Function.update_self] at hdev
      cases hdev
    rw [Function.update_of_ne he] at hdev
    refine .inr ⟨hdev, fun own' err' h => ?_, .inl⟩
    cases h
    exact he rfl
  | @unlink own err e heng =>
    refine .inr ⟨hdev, fun _ _ h => (nomatch h), fun hcur => .inr ⟨own, err, ?_⟩⟩
    rw [Option.some.inj (heng.symm.trans hcur)]
  | idle heng =>
    refine .inr ⟨hdev, fun _ _ h => (nomatch h), fun hcur => ?_⟩
    rw [heng] at hcur
    cases hcur
  | _ => exact .inr ⟨hdev, fun _ _ h => (nomatch h), .inl⟩

theorem Steps.named (h : Steps w s p p' s') (hn : s'.tunnel.ifName ≠ "") :
    p'.Open ∨ s'.tunnel.eng ≠ none ∨
      (s.tunnel.ifName ≠ "" ∧ s'.tunnel.eng = s.tunnel.eng ∧
        (p.Open → ∃ eng, p = .reconcile eng ∧ s.tunnel.eng ≠ some eng)) := by
  cases h with
  | start hs hr hnew => exact .inr (.inl (Option.some_ne_none _))
  | connected heng => exact .inr (.inl (by rw [heng]; exact Option.some_ne_none _))
  | unlink | idle => exact absurd rfl hn
  | abandoned heng => exact .inr (.inr ⟨hn, rfl, fun _ => ⟨_, rfl, heng⟩⟩)
  | busy | noSetup | close | returned => exact .inr (.inr ⟨hn, rfl, fun h => h.elim⟩)
  | _ => exact .inl trivial

theorem Steps.ne_connect (h : Steps w s p p' s') : p' ≠ .connect := by
  cases h with
  | start hs hr hnew => rcases hnew with rfl | rfl <;> exact fun h => nomatch h
  | _ => exact fun h => nomatch h

theorem Steps.eng_none (h : Steps w s p p' s') (hp : p ≠ .connect) (heng : s.tunnel.eng = none) :
    s'.tunnel.eng = none := by
  cases h with
  | start => exact absurd rfl hp
  | unlink | idle => rfl
  | _ => exact heng

end Pc

section
variable {τ : Type} [DecidableEq τ]

/-- What holds in every reachable configuration, however the steps fall. -/
structure Sound (c : Config τ Pc Net) : Prop where
  idle : c.shared.tunnel.state = .disconnected ↔ c.shared.tunnel.eng = none
  made : ∀ t eng, (c.threads t).own = some eng → eng < c.shared.made
  owned : ∀ t u eng, (c.threads t).own = some eng → (c.threads u).own = some eng → t = u

variable {c : Config τ Pc Net} {t : τ} {w : Weather}

theorem Sound.step (h : Sound c) (t : τ) (w : Weather) : Sound (c.step Pc.step t w) := by
  have hstep := Pc.step_steps (c.threads t) w c.shared
  have hself : (c.step Pc.step t w).threads t = (Pc.step (c.threads t) w c.shared).1 :=
    Config.step_self c t w
  have hmade : ∀ u eng, ((c.step Pc.step t w).threads u).own = some eng →
      (c.threads u).own = some eng ∨
        u = t ∧ eng = c.shared.made ∧ (c.step Pc.step t w).shared.made = c.shared.made + 1 := by
    intro u eng hu
    by_cases hut : u = t
    · subst hut
      rw [hself] at hu
      rcases hstep.own with hn | hn | ⟨hn, hm⟩
      · rw [hn] at hu
        cases hu
      · exact .inl (hn ▸ hu)
      · rw [hn] at hu
        exact .inr ⟨rfl, (Option.some.inj hu).symm, hm⟩
    · rw [Config.step_other c hut] at hu
      exact .inl hu
  refine ⟨hstep.idle_iff h.idle, fun u eng hu => ?_, fun u v eng hu hv => ?_⟩
  · rcases hmade u eng hu with hold | ⟨-, rfl, hm⟩
    · exact (h.made u eng hold).trans_le hstep.made
    · rw [hm]
      exact Nat.lt_succ_self _
  · rcases hmade u eng hu with hold | ⟨hut, hnew, -⟩
    · rcases hmade v eng hv with hold' | ⟨-, hnew, -⟩
      · exact h.owned u v eng hold hold'
      · exact absurd (h.made u eng hold) (hnew ▸ lt_irrefl _)
    · rcases hmade v eng hv with hold' | ⟨hvt, -, -⟩
      · exact absurd (h.made v eng hold') (hnew ▸ lt_irrefl _)
      · exact hut.trans hvt.symm

/-- Single flight, for one step: an attempt writes the tunnel's state, engine or interface name, and
closes an engine, only while its own engine is current; a step that does not write changes none of
the three. What a teardown closes is what its section has taken out. -/
structure OwnOnly (c : Config τ Pc Net) (t : τ) (w : Weather) : Prop where
  starts : c.threads t = .connect → (c.threads t).Writes c.shared → c.shared.tunnel.eng = none
  writes : ∀ own, (c.threads t).own = some own → (c.threads t).Writes c.shared →
    c.shared.tunnel.eng = some own
  closes : ∀ own eng err, c.threads t = .close (some own) eng err → eng = own
  frame : ¬ (c.threads t).Writes c.shared →
    ((c.threads t).step w c.shared).2.tunnel.state = c.shared.tunnel.state ∧
    ((c.threads t).step w c.shared).2.tunnel.eng = c.shared.tunnel.eng ∧
    ((c.threads t).step w c.shared).2.tunnel.ifName = c.shared.tunnel.ifName

/-- The condition: a disconnect does not take out an engine whose attempt has still to write,
and an attempt runs out of time only while its engine is current. -/
def Timely (c : Config τ Pc Net) (t : τ) (w : Weather) : Prop :=
  match c.threads t with
  | .unlink none _ => ∀ u eng, (c.threads u).Pending eng → c.shared.tunnel.eng ≠ some eng
  | .await eng => w.expired = true → c.shared.tunnel.eng = some eng
  | _ => True

/-- Under the condition an attempt that has still to write has its engine in place. -/
structure Single (c : Config τ Pc Net) : Prop where
  sound : Sound c
  pending : ∀ t eng, (c.threads t).Pending eng → c.shared.tunnel.eng = some eng
  closing : ∀ t own eng err, c.threads t = .close (some own) eng err → eng = own

omit [DecidableEq τ] in
theorem Single.ownOnly (h : Single c) (t : τ) (w : Weather) : OwnOnly c t w := by
  refine ⟨fun ht hw => ?_, fun own hown hw => ?_, h.closing t, fun hno => Pc.step_frame hno w⟩
  · rw [ht] at hw
    exact h.sound.idle.mp hw.1
  · cases hp : c.threads t with
    | name eng =>
      rw [hp] at hown
      exact h.pending t own (by rw [hp]; exact Option.some.inj hown)
    | unlink eng =>
      rw [hp] at hown
      exact h.pending t own (by rw [hp]; exact hown)
    | reconcile eng =>
      rw [hp] at hown hw
      cases hown
      exact hw
    | connect =>
      rw [hp] at hown
      cases hown
    | bringUp | await | clear | close | returned => exact absurd hw (by rw [hp]; exact not_false)

theorem Single.step (h : Single c) (hok : Timely c t w) : Single (c.step Pc.step t w) := by
  have hstep := Pc.step_steps (c.threads t) w c.shared
  have hself : (c.step Pc.step t w).threads t = (Pc.step (c.threads t) w c.shared).1 :=
    Config.step_self c t w
  refine ⟨h.sound.step t w, fun u eng hu => ?_, fun u own eng err hu => ?_⟩
  · by_cases hut : u = t
    · subst hut
      rw [hself] at hu
      refine hstep.pending (h.pending u) (fun e hawait hexp => ?_) hu
      unfold Timely at hok
      rw [hawait] at hok
      exact hok hexp
    · rw [Config.step_other c hut] at hu
      have hcur := h.pending u eng hu
      rcases hstep.eng_eq with hsame | hdisc | ⟨own, err, hunlink⟩
      · exact hsame.trans hcur
      · exact absurd (h.sound.idle.mp hdisc) (by rw [hcur]; exact Option.some_ne_none _)
      · cases own with
        | none =>
          unfold Timely at hok
          rw [hunlink] at hok
          exact absurd hcur (hok u eng hu)
        | some own =>
          -- only one attempt has this engine, and it is the one tearing down
          have hown : (c.threads t).Pending own := by
            rw [hunlink]
            exact rfl
          have heq : own = eng := Option.some.inj ((h.pending t own hown).symm.trans hcur)
          exact absurd (h.sound.owned u t eng hu.own (heq ▸ hown.own)) hut
  · by_cases hut : u = t
    · subst hut
      rw [hself] at hu
      generalize hpc : c.threads u = p at hstep hu
      generalize (Pc.step p w c.shared).1 = p', (Pc.step p w c.shared).2 = s' at hstep hu
      subst hu
      cases hstep with
      | start hs hr hnew => rcases hnew with hnew | hnew <;> cases hnew
      | unlink heng =>
        have hown : (c.threads u).Pending own := by
          rw [hpc]
          exact rfl
        exact Option.some.inj (heng.symm.trans (h.pending u own hown))
    · rw [Config.step_other c hut] at hu
      exact h.closing u own eng err hu

/-- The calls of a run: attempts and disconnects, none of them begun. -/
def Calling (calls : τ → Pc) : Prop := ∀ t, calls t = .connect ∨ calls t = .disconnect

omit [DecidableEq τ] in
theorem sound_new {calls : τ → Pc} (h : Calling calls) (profile : Profile) :
    Sound ⟨calls, Net.new profile⟩ := by
  have hown : ∀ t, (calls t).own = none := by
    intro t
    rcases h t with ht | ht <;> rw [ht] <;> rfl
  refine ⟨iff_of_true rfl rfl, fun t eng ht => ?_, fun t u eng ht => ?_⟩
  · exact absurd ((hown t).symm.trans ht) (Option.some_ne_none eng).symm
  · exact absurd ((hown t).symm.trans ht) (Option.some_ne_none eng).symm

/-- In every run whose steps meet the condition, no attempt touches the tunnel of another. -/
theorem connect_single_flight (profile : Profile) {calls : τ → Pc} (hcalls : Calling calls)
    {sched : List (τ × Weather)} (hok : Along Pc.step Timely ⟨calls, Net.new profile⟩ sched) :
    Along Pc.step OwnOnly ⟨calls, Net.new profile⟩ sched := by
  have hinit : Single (⟨calls, Net.new profile⟩ : Config τ Pc Net) := by
    refine ⟨sound_new hcalls profile, fun t eng ht => ?_, fun t own eng err ht => ?_⟩
    · have hown := ht.own
      rcases hcalls t with hc | hc <;> simp only [hc, Pc.disconnect, Pc.own] at hown <;> cases hown
    · rcases hcalls t with hc | hc <;> simp only [hc, Pc.disconnect] at ht <;> cases ht
  exact along_of_invariant (fun c t e h hok => h.step hok) (fun c t e h _ => h.ownOnly t e) hinit hok

end

def labProfile : Profile :=
  ⟨true, some "", some (.v4 0x64690002), some ⟨.v4 0x64690000, 20⟩, some "server"⟩

/-- The adapter comes up and the handshake arrives. -/
def fair : Weather := ⟨some "lanweave0", true, false⟩

def late : Weather := ⟨some "lanweave0", false, true⟩

def reconnect : Fin 3 → Pc
  | 0 => .connect
  | 1 => .disconnect
  | 2 => .connect

theorem reconnect_calling : Calling reconnect := by
  intro t
  match t with
  | 0 => exact .inl rfl
  | 1 => exact .inr rfl
  | 2 => exact .inl rfl

/-- One after another the three calls stay apart. -/
theorem connect_single_flight_reconnect :
    Along Pc.step OwnOnly ⟨reconnect, Net.new labProfile⟩
      [(0, fair), (0, fair), (0, fair), (0, fair), (0, fair), (1, fair), (1, fair), (1, fair),
        (2, fair)] := by
  refine connect_single_flight labProfile reconnect_calling ?_
  refine ⟨trivial, trivial, trivial, fun h => (nomatch h), trivial, trivial, fun u eng h => ?_, trivial,
    trivial, trivial⟩
  match u with
  | 0 => exact h.elim
  | 1 => cases h
  | 2 => exact h.elim

/-- The first attempt waits, is disconnected, and runs out of time when the second is up. -/
def overtaken : List (Fin 3 × Weather) :=
  [(0, fair), (0, fair), (0, fair), (1, fair), (1, fair), (1, fair), (2, fair), (2, fair), (2, fair),
    (0, late), (0, fair)]

/-- Its teardown takes out the engine of the second attempt and closes it. -/
theorem late_attempt_closes_newer :
    ¬ Along Pc.step OwnOnly ⟨reconnect, Net.new labProfile⟩
        (overtaken ++ [(0, fair)]) ∧
      let c := (Config.mk reconnect (Net.new labProfile)).exec Pc.step
        (overtaken ++ [(0, fair), (0, fair)])
      c.shared.tunnel.state = .disconnected ∧ c.threads 2 = .await 1 ∧
        c.shared.engines 1 = ⟨false, "", true⟩ := by
  refine ⟨fun h => ?_, rfl, rfl, rfl⟩
  have hlast := (along_append.mp h).2.1
  have hcur := hlast.writes 0 rfl trivial
  cases hcur

section
variable {τ : Type} [DecidableEq τ] {c : Config τ Pc Net} {t : τ} {w : Weather}

def Closing (c : Config τ Pc Net) (eng : ℕ) : Prop := ∃ u own err, c.threads u = .close own eng err

/-- The condition: an `up` succeeds only while its engine is current or its closing is still to
come; an attempt that gives up with an interface named and no engine current is not the last
call to have a section before it. -/
def Tended (c : Config τ Pc Net) (t : τ) (w : Weather) : Prop :=
  match c.threads t with
  | .bringUp eng => w.up.isSome → c.shared.tunnel.eng = some eng ∨ Closing c eng
  | .reconcile _ => c.shared.tunnel.eng = none → c.shared.tunnel.ifName ≠ "" →
      ∃ u, u ≠ t ∧ (c.threads u).Open
  | _ => True

/-- Under the condition a device is current or about to be closed, and a name is that of a
current engine or is going to be cleared or answered for. -/
structure Accounted (c : Config τ Pc Net) : Prop where
  sound : Sound c
  live : ∀ eng, (c.shared.engines eng).dev = true → c.shared.tunnel.eng = some eng ∨ Closing c eng
  named : c.shared.tunnel.ifName ≠ "" → c.shared.tunnel.eng ≠ none ∨ ∃ u, (c.threads u).Open

theorem Closing.step {eng : ℕ} (h : Closing c eng) (hne : ∀ own err, c.threads t ≠ .close own eng err) :
    Closing (c.step Pc.step t w) eng := by
  obtain ⟨u, own, err, hu⟩ := h
  have hut : u ≠ t := by
    rintro rfl
    exact hne own err hu
  exact ⟨u, own, err, (Config.step_other c hut w).trans hu⟩

theorem Accounted.step (h : Accounted c) (hok : Tended c t w) : Accounted (c.step Pc.step t w) := by
  have hstep := Pc.step_steps (c.threads t) w c.shared
  have hself : (c.step Pc.step t w).threads t = (Pc.step (c.threads t) w c.shared).1 :=
    Config.step_self c t w
  refine ⟨h.sound.step t w, fun eng hdev => ?_, fun hn => ?_⟩
  · rcases hstep.dev h.sound.idle.mp hdev with ⟨hup, hsome, hsame⟩ | ⟨hold, hne, hcur⟩
    · unfold Tended at hok
      rw [hup] at hok
      rcases hok hsome with hcur | hcl
      · exact .inl (hsame.trans hcur)
      · exact .inr (hcl.step fun own err hp => nomatch hup.symm.trans hp)
    · rcases h.live eng hold with hbefore | hcl
      · rcases hcur hbefore with hafter | ⟨own, err, hp⟩
        · exact .inl hafter
        · exact .inr ⟨t, own, err, hself.trans hp⟩
      · exact .inr (hcl.step hne)
  · rcases hstep.named hn with hopen | hcur | ⟨hbefore, hsame, habandon⟩
    · exact .inr ⟨t, hself ▸ hopen⟩
    · exact .inl hcur
    · have hothers : (∃ u, u ≠ t ∧ (c.threads u).Open) ∨ c.shared.tunnel.eng ≠ none := by
        by_cases hnone : c.shared.tunnel.eng = none
        · obtain ⟨u, hu⟩ := (h.named hbefore).resolve_left (not_not.mpr hnone)
          by_cases hut : u = t
          · subst hut
            obtain ⟨eng, hp, -⟩ := habandon hu
            unfold Tended at hok
            rw [hp] at hok
            exact .inl (hok hnone hbefore)
          · exact .inl ⟨u, hut, hu⟩
        · exact .inr hnone
      rcases hothers with ⟨u, hut, hu⟩ | hcur
      · exact .inr ⟨u, by rwa [Config.step_other c hut w]⟩
      · exact .inl (hsame ▸ hcur)

/-- No attempt begins any more, and the disconnect has its sections before it or no engine is
current. -/
def Winding (d : τ) (c : Config τ Pc Net) : Prop :=
  (∀ t, c.threads t ≠ .connect) ∧
    (c.threads d = .clear none none ∨ c.threads d = .unlink none none ∨ c.shared.tunnel.eng = none)

theorem Winding.step {d : τ} (h : Winding d c) (t : τ) (w : Weather) :
    Winding d (c.step Pc.step t w) := by
  have hstep := Pc.step_steps (c.threads t) w c.shared
  have hself : (c.step Pc.step t w).threads t = (Pc.step (c.threads t) w c.shared).1 :=
    Config.step_self c t w
  refine ⟨fun u => ?_, ?_⟩
  · by_cases hut : u = t
    · subst hut
      exact hself ▸ hstep.ne_connect
    · exact Config.step_other c hut w ▸ h.1 u
  · by_cases hdt : d = t
    · subst hdt
      rcases h.2 with hd | hd | hnone
      · exact .inr (.inl (hself.trans (by rw [hd]; rfl)))
      · refine .inr (.inr ?_)
        rw [Config.step_shared, hd]
        rfl
      · exact .inr (.inr (hstep.eng_none (h.1 d) hnone))
    · rw [Config.step_other c hdt w]
      exact h.2.imp_right (·.imp_right (hstep.eng_none (h.1 t)))

theorem not_connect_of_mem {c : Config τ Pc Net} {sched : List (τ × Weather)} {t : τ}
    (h : c.threads t ≠ .connect ∨ ∃ s ∈ sched, s.1 = t) :
    (c.exec Pc.step sched).threads t ≠ .connect := by
  induction sched generalizing c with
  | nil =>
    rcases h with h | ⟨s, hs, -⟩
    · exact h
    · cases hs
  | cons s sched ih =>
    refine ih ?_
    have hstep := Pc.step_steps (c.threads s.1) s.2 c.shared
    by_cases hts : t = s.1
    · subst hts
      exact .inl (Config.step_self c s.1 s.2 ▸ hstep.ne_connect)
    · rw [Config.step_other c hts s.2]
      refine h.imp_right fun ⟨x, hx, hxt⟩ => ⟨x, ?_, hxt⟩
      rcases List.mem_cons.mp hx with rfl | hx
      · exact absurd hxt.symm hts
      · exact hx

/-- Disconnected, unnamed, and every engine whose `up` succeeded closed after it. -/
structure TornDown (s : Net) : Prop where
  state : s.tunnel.state = .disconnected
  ifName : s.tunnel.ifName = ""
  closed : ∀ eng, (s.engines eng).upped = true → (s.engines eng).dev = false

/-- In every run whose steps meet the condition, if a disconnect begins after every attempt has
begun, nothing is left once all calls have returned. -/
theorem disconnect_wins (profile : Profile) {calls : τ → Pc} (hcalls : Calling calls) {d : τ}
    (hd : calls d = .disconnect) {pre post : List (τ × Weather)} (hfresh : ∀ s ∈ pre, s.1 ≠ d)
    (hbegun : ∀ t, calls t = .connect → ∃ s ∈ pre, s.1 = t)
    (hok : Along Pc.step Tended ⟨calls, Net.new profile⟩ (pre ++ post))
    (hdone : ∀ t, ∃ err, ((Config.mk calls (Net.new profile)).exec Pc.step (pre ++ post)).threads t =
      .returned err) :
    TornDown ((Config.mk calls (Net.new profile)).exec Pc.step (pre ++ post)).shared := by
  have hinit : Accounted (⟨calls, Net.new profile⟩ : Config τ Pc Net) :=
    ⟨sound_new hcalls profile, fun _ h => (nomatch h), fun h => absurd rfl h⟩
  have hacc := exec_induction (fun c t w h hok => Accounted.step h hok) hinit hok
  -- from here no call can begin, and the disconnect has not yet passed its unlink
  have hwinding : Winding d ((Config.mk calls (Net.new profile)).exec Pc.step pre) := by
    refine ⟨fun t => not_connect_of_mem ?_, .inl ?_⟩
    · rcases hcalls t with ht | ht
      · exact .inr (hbegun t ht)
      · exact .inl fun h => nomatch ht.symm.trans h
    · rw [exec_threads_of_not_mem hfresh]
      exact hd
  have hnone : ((Config.mk calls (Net.new profile)).exec Pc.step (pre ++ post)).shared.tunnel.eng =
      none := by
    have hfree : Along Pc.step (fun _ _ _ => True)
        ((Config.mk calls (Net.new profile)).exec Pc.step pre) post :=
      along_of_forall fun _ _ => trivial
    have hend := exec_induction (I := Winding d) (fun c t w h _ => h.step t w) hwinding hfree
    rw [← Config.exec_append] at hend
    obtain ⟨err, hret⟩ := hdone d
    rcases hend.2 with h | h | h
    · exact nomatch hret.symm.trans h
    · exact nomatch hret.symm.trans h
    · exact h
  refine ⟨hacc.sound.idle.mpr hnone, ?_, fun eng _ => ?_⟩
  · -- an interface name or a device still there would belong to a call that has returned
    by_contra hn
    rcases hacc.named hn with hcur | ⟨u, hu⟩
    · exact hcur hnone
    · obtain ⟨err, hret⟩ := hdone u
      rw [hret] at hu
      exact hu
  · by_contra hdev
    rcases hacc.live eng (by simpa using hdev) with hcur | ⟨u, own, err, hu⟩
    · exact absurd (hnone.symm.trans hcur) (fun h => nomatch h)
    · obtain ⟨err', hret⟩ := hdone u
      exact nomatch hret.symm.trans hu

end

def connectDisconnect : Fin 2 → Pc
  | 0 => .connect
  | 1 => .disconnect

theorem connectDisconnect_calling : Calling connectDisconnect :=
  Fin.forall_fin_two.mpr ⟨.inl rfl, .inr rfl⟩

/-- A disconnect of a connected tunnel. -/
theorem disconnect_wins_connected :
    TornDown ((Config.mk connectDisconnect (Net.new labProfile)).exec Pc.step
      ([(0, fair), (0, fair), (0, fair), (0, fair), (0, fair)] ++
        [(1, fair), (1, fair), (1, fair)])).shared := by
  refine disconnect_wins (d := 1) labProfile connectDisconnect_calling rfl (by decide) ?_ ?_ ?_
  · exact Fin.forall_fin_two.mpr ⟨fun _ => ⟨(0, fair), List.mem_cons_self, rfl⟩, fun h => nomatch h⟩
  · exact ⟨trivial, fun _ => .inl rfl, trivial, trivial, fun h => (nomatch h), trivial, trivial, trivial,
      trivial⟩
  · exact Fin.forall_fin_two.mpr ⟨⟨_, rfl⟩, ⟨_, rfl⟩⟩

/-- The disconnect closes nothing, the adapter then comes up, the attempt gives up without
closing it: device and interface name stay. -/
theorem disconnect_leaks_device :
    let c := (Config.mk connectDisconnect (Net.new labProfile)).exec Pc.step
      ([(0, fair)] ++ [(1, fair), (1, fair), (1, fair), (0, fair), (0, fair), (0, fair), (0, fair)])
    (∀ t, ∃ err, c.threads t = .returned err) ∧ ¬ TornDown c.shared ∧
      c.shared.tunnel.ifName = "lanweave0" ∧ c.shared.engines 0 = ⟨true, "lanweave0", true⟩ := by
  refine ⟨Fin.forall_fin_two.mpr ⟨⟨_, rfl⟩, ⟨_, rfl⟩⟩, fun h => ?_, rfl, rfl⟩
  exact absurd (h.closed 0 rfl) (fun h => nomatch h)

end LanWeave

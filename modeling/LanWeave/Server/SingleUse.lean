import LanWeave.Server.Invites
import LanWeave.Server.StoreCases

/-! An invite is consumed once: over any order of registrations, new invites and user deletions,
a code that has been redeemed is used from then on. -/

namespace LanWeave
open Library

/-- The transactions that touch users and invites, each executed at its own time. -/
inductive RegistryOp
  | register (username passwordHash code : String) (now : Int)
  | insertInvite (createdBy : Int) (code : String) (now ttl : Int)
  | deleteUser (targetID : Int)

namespace RegistryOp

def exec : RegistryOp → Registry → Registry
  | register username passwordHash code now, r => (r.register username passwordHash code now).2
  | insertInvite createdBy code now ttl, r => (r.insertInvite createdBy code now ttl).2
  | deleteUser targetID, r => (r.deleteCascade targetID).2

/-- The transaction is a registration that succeeds with this code. -/
def redeems (code : String) : RegistryOp → Registry → Bool
  | register username passwordHash c now, r =>
    c = code && (r.register username passwordHash c now).1.toBool
  | _, _ => false

/-- Every time stamp of the transaction lies in the years RFC 3339 text can order. -/
def InYears : RegistryOp → Prop
  | register _ _ _ now => LanWeave.InYears (truncateSecond now)
  | insertInvite _ _ now ttl => LanWeave.InYears (truncateSecond (truncateSecond now * second + ttl))
  | deleteUser _ => True

end RegistryOp

namespace Registry

def run (r : Registry) (ops : List RegistryOp) : Registry := ops.foldl (fun r o => o.exec r) r

/-- How many registrations of a run succeed with the code. -/
def redemptions (code : String) : Registry → List RegistryOp → ℕ
  | _, [] => 0
  | r, o :: ops => (o.redeems code r).toNat + redemptions code (o.exec r) ops

/-- The code belongs to an invite that has been used. -/
def Used (r : Registry) (code : String) : Prop :=
  ∃ inv ∈ r.invites.rows, inv.code = code ∧ inv.usedAt ≠ none

variable {r : Registry} {username passwordHash code : String} {now : Int}

/-- The registry after a registration that redeems the code. -/
def redeemed (r : Registry) (username passwordHash code : String) (now : Int) : Registry :=
  ⟨r.db.addUser username passwordHash false, { r.invites with
    rows := r.invites.rows.map fun inv =>
      if inv.code = code then inv.consume (r.db.seqUsers + 1) (formatRFC3339 now) else inv }⟩

theorem Wf.redeemable_eq (hr : r.Wf) {inv : Invite} (hinv : inv ∈ r.invites.rows) {text : String}
    (hok : inv.redeemable code text = true) : ∀ inv' ∈ r.invites.rows,
      inv'.redeemable code text = decide (inv'.code = code) := by
  intro inv' hinv'
  have hcode : inv.code = code := by
    simp only [Invite.redeemable, Bool.and_eq_true, decide_eq_true_eq] at hok
    exact hok.1.1
  by_cases h : inv'.code = code
  · have hsame : inv' = inv := hr.code inv' hinv' inv hinv (h.trans hcode.symm)
    rw [hsame, hok, hcode, decide_eq_true rfl]
  · simp [Invite.redeemable, h]

/-- Codes are unique, so the code of a redeemable invite picks that row alone. -/
theorem Wf.filter_redeemable (hr : r.Wf) {inv : Invite} (hinv : inv ∈ r.invites.rows) {text : String}
    (hok : inv.redeemable code text = true) :
    (r.invites.rows.filter (·.redeemable code text)).length = 1 := by
  have hmem : inv ∈ r.invites.rows.filter (·.redeemable code text) := List.mem_filter.mpr ⟨hinv, hok⟩
  have hnodup : (r.invites.rows.filter (·.redeemable code text)).Nodup :=
    List.Nodup.filter _ (hr.asc.imp fun hlt heq => by simp [heq] at hlt)
  have hall : ∀ x ∈ r.invites.rows.filter (·.redeemable code text), x = inv := by
    intro x hx
    obtain ⟨hx, hxok⟩ := List.mem_filter.mp hx
    have hxcode : x.code = code := by simpa [hr.redeemable_eq hinv hok x hx] using hxok
    have hcode : inv.code = code := by simpa [hr.redeemable_eq hinv hok inv hinv] using hok
    exact hr.code x hx inv hinv (hxcode.trans hcode.symm)
  have hrep := List.eq_replicate_of_mem hall
  rw [hrep] at hnodup
  have hle := List.nodup_replicate.mp hnodup
  have hpos := List.length_pos_of_mem hmem
  omega

theorem register_taken (h : ∃ u ∈ r.db.users, nocase u.username = nocase username) :
    r.register username passwordHash code now = (.error .userExists, r) := by
  have hany : (r.db.users.any fun u => nocase u.username = nocase username) = true := by
    simpa using h
  rw [register, if_pos hany]

theorem register_invalid (hfree : ∀ u ∈ r.db.users, nocase u.username ≠ nocase username)
    (h : ∀ inv ∈ r.invites.rows, inv.redeemable code (formatRFC3339 now) = false) :
    r.register username passwordHash code now = (.error .inviteInvalid, r) := by
  have hany : ¬ (r.db.users.any fun u => nocase u.username = nocase username) = true := by
    simpa using hfree
  have hnone : r.invites.rows.filter (·.redeemable code (formatRFC3339 now)) = [] := by
    simpa [List.filter_eq_nil_iff] using h
  simp only [register]
  rw [if_neg hany, hnone, if_pos (by simp)]

theorem Wf.register_ok (hr : r.Wf) (hfree : ∀ u ∈ r.db.users, nocase u.username ≠ nocase username)
    {inv : Invite} (hinv : inv ∈ r.invites.rows)
    (hok : inv.redeemable code (formatRFC3339 now) = true) :
    r.register username passwordHash code now = (.ok ⟨r.db.seqUsers + 1, username, passwordHash, false⟩,
      r.redeemed username passwordHash code now) := by
  have hany : ¬ (r.db.users.any fun u => nocase u.username = nocase username) = true := by
    simpa using hfree
  have hlen := hr.filter_redeemable hinv hok
  have hrows : (r.invites.rows.map fun inv => if inv.redeemable code (formatRFC3339 now) then
      inv.consume (r.db.seqUsers + 1) (formatRFC3339 now) else inv) =
      r.invites.rows.map fun inv => if inv.code = code then
        inv.consume (r.db.seqUsers + 1) (formatRFC3339 now) else inv := by
    apply List.map_congr_left
    intro inv' hinv'
    rw [hr.redeemable_eq hinv hok inv' hinv']
    simp only [decide_eq_true_eq]
  simp only [register]
  rw [if_neg hany, if_neg (not_not.mpr hlen)]
  simp only [DB.addUser] at hrows ⊢
  rw [hrows]
  rfl

theorem Wf.register_cases (hr : r.Wf) (username passwordHash code : String) (now : Int) :
    (∃ e, r.register username passwordHash code now = (.error e, r) ∧
      ((∃ u ∈ r.db.users, nocase u.username = nocase username) ∨
        ∀ inv ∈ r.invites.rows, inv.redeemable code (formatRFC3339 now) = false)) ∨
    ∃ u, r.register username passwordHash code now =
        (.ok u, r.redeemed username passwordHash code now) ∧
      (∀ u ∈ r.db.users, nocase u.username ≠ nocase username) ∧
      ∃ inv ∈ r.invites.rows, inv.redeemable code (formatRFC3339 now) = true := by
  by_cases htaken : ∃ u ∈ r.db.users, nocase u.username = nocase username
  · exact .inl ⟨_, register_taken htaken, .inl htaken⟩
  have hfree : ∀ u ∈ r.db.users, nocase u.username ≠ nocase username := by
    intro u hu heq
    exact htaken ⟨u, hu, heq⟩
  by_cases hok : ∃ inv ∈ r.invites.rows, inv.redeemable code (formatRFC3339 now) = true
  · obtain ⟨inv, hinv, hok⟩ := hok
    exact .inr ⟨_, hr.register_ok hfree hinv hok, hfree, inv, hinv, hok⟩
  · have hnone : ∀ inv ∈ r.invites.rows, inv.redeemable code (formatRFC3339 now) = false := by
      intro inv hinv
      by_contra hne
      exact hok ⟨inv, hinv, by simpa using hne⟩
    exact .inl ⟨_, register_invalid hfree hnone, .inr hnone⟩

theorem Wf.map {f : Invite → Invite} {db : DB} (hr : r.Wf) (hdb : db.Wf)
    (hf : ∀ inv, (f inv).id = inv.id ∧ (f inv).code = inv.code ∧ (f inv).expiresAt = inv.expiresAt) :
    Registry.Wf ⟨db, { r.invites with rows := r.invites.rows.map f }⟩ where
  db := hdb
  asc := List.pairwise_map.mpr (hr.asc.imp fun {a b} hlt => by rwa [(hf a).1, (hf b).1])
  seq inv hinv := by
    obtain ⟨old, hold, rfl⟩ := List.mem_map.mp hinv
    rw [(hf old).1]
    exact hr.seq old hold
  code a ha b hb hab := by
    obtain ⟨old, hold, rfl⟩ := List.mem_map.mp ha
    obtain ⟨old', hold', rfl⟩ := List.mem_map.mp hb
    rw [(hf old).2.1, (hf old').2.1] at hab
    rw [hr.code old hold old' hold' hab]
  expires inv hinv := by
    obtain ⟨old, hold, rfl⟩ := List.mem_map.mp hinv
    rw [(hf old).2.2]
    exact hr.expires old hold

theorem Wf.redeemed (hr : r.Wf) (username passwordHash code : String) (now : Int) :
    (r.redeemed username passwordHash code now).Wf := by
  apply hr.map (hr.db.addUser ..)
  intro inv
  split_ifs <;> exact ⟨rfl, rfl, rfl⟩

theorem Wf.insertInvite (hr : r.Wf) {createdBy ttl : Int}
    (hy : InYears (truncateSecond (truncateSecond now * second + ttl))) :
    (r.insertInvite createdBy code now ttl).2.Wf := by
  simp only [Registry.insertInvite]
  split_ifs with htaken huser
  · exact hr
  · exact hr
  have hnew : ∀ inv ∈ r.invites.rows, inv.code ≠ code := by simpa using htaken
  refine ⟨hr.db, hr.asc.append fun inv hinv => ?_, fun inv hinv => ?_, hr.code.append hnew,
    fun inv hinv text htext => ?_⟩
  · have hle := hr.seq inv hinv
    show inv.id < r.invites.seq + 1
    omega
  · rcases List.mem_append.mp hinv with hold | hlast
    · have hle := hr.seq inv hold
      show inv.id ≤ r.invites.seq + 1
      omega
    · rw [List.mem_singleton.mp hlast]
  · rcases List.mem_append.mp hinv with hold | hlast
    · exact hr.expires inv hold text htext
    · rw [List.mem_singleton.mp hlast, expiry] at htext
      split_ifs at htext
      · exact ⟨_, hy, (Option.mem_some_iff.mp htext).symm⟩
      · cases htext

theorem Wf.deleteCascade (hr : r.Wf) (targetID : Int) : (r.deleteCascade targetID).2.Wf := by
  have hdb := (StoreOp.deleteCascade targetID).exec_wf hr.db
  simp only [Registry.deleteCascade]
  simp only [StoreOp.exec] at hdb
  split
  · next e db heq =>
    rw [heq] at hdb
    exact ⟨hdb, hr.asc, hr.seq, hr.code, hr.expires⟩
  · next result db heq =>
    rw [heq] at hdb
    exact hr.map hdb fun inv => ⟨rfl, rfl, rfl⟩

theorem Wf.exec (hr : r.Wf) {o : RegistryOp} (hy : o.InYears) : (o.exec r).Wf := by
  cases o with
  | register username passwordHash code now =>
    rcases hr.register_cases username passwordHash code now with ⟨e, he, -⟩ | ⟨u, hu, -⟩
    · simpa only [RegistryOp.exec, he] using hr
    · simpa only [RegistryOp.exec, hu] using hr.redeemed username passwordHash code now
  | insertInvite createdBy code now ttl => exact hr.insertInvite hy
  | deleteUser targetID => exact hr.deleteCascade targetID

theorem Wf.run (hr : r.Wf) {ops : List RegistryOp} (hy : ∀ o ∈ ops, o.InYears) : (r.run ops).Wf := by
  induction ops generalizing r with
  | nil => exact hr
  | cons o ops ih =>
    have hstep := hr.exec (hy o (List.mem_cons_self ..))
    exact ih hstep fun o' ho' => hy o' (List.mem_cons_of_mem _ ho')

theorem Wf.not_used_of_redeems (hr : r.Wf) {o : RegistryOp} (h : o.redeems code r = true) :
    ¬ r.Used code := by
  cases o with
  | register username passwordHash c now =>
    simp only [RegistryOp.redeems, Bool.and_eq_true, decide_eq_true_eq] at h
    obtain ⟨rfl, h⟩ := h
    rcases hr.register_cases username passwordHash c now with ⟨e, he, -⟩ | ⟨u, -, -, inv, hinv, hok⟩
    · rw [he] at h
      cases h
    · rintro ⟨used, hused, hcode, hat⟩
      have hfresh := hr.redeemable_eq hinv hok used hused
      simp [Invite.redeemable, hcode, hat] at hfresh
  | insertInvite createdBy c now ttl => cases h
  | deleteUser targetID => cases h

/-- A code becomes used when it is redeemed and stays so. -/
theorem Wf.used_exec (hr : r.Wf) (o : RegistryOp) :
    (o.exec r).Used code ↔ r.Used code ∨ o.redeems code r = true := by
  cases o with
  | register username passwordHash c now =>
    rcases hr.register_cases username passwordHash c now with ⟨e, he, -⟩ | ⟨u, hu, -, inv, hinv, hok⟩
    · simp [RegistryOp.exec, RegistryOp.redeems, he, Except.toBool]
    · -- registration consumes the one invite of the code
      have hcode : inv.code = c := by simpa [hr.redeemable_eq hinv hok inv hinv] using hok
      simp only [RegistryOp.exec, RegistryOp.redeems, hu, Used, Registry.redeemed, List.mem_map,
        Except.toBool, Bool.and_true, decide_eq_true_eq]
      constructor
      · rintro ⟨_, ⟨old, hold, rfl⟩, hc, hat⟩
        split_ifs at hc hat with hsame
        · exact .inr (hsame.symm.trans hc)
        · exact .inl ⟨old, hold, hc, hat⟩
      · rintro (⟨old, hold, hc, hat⟩ | rfl)
        · refine ⟨_, ⟨old, hold, rfl⟩, ?_⟩
          split_ifs
          · exact ⟨hc, by simp [Invite.consume]⟩
          · exact ⟨hc, hat⟩
        · refine ⟨_, ⟨inv, hinv, rfl⟩, ?_⟩
          rw [if_pos hcode]
          exact ⟨hcode, by simp [Invite.consume]⟩
  | insertInvite createdBy c now ttl =>
    simp only [RegistryOp.exec, RegistryOp.redeems, Bool.false_eq_true, or_false,
      Registry.insertInvite]
    split_ifs
    · rfl
    · rfl
    · simp [Used, or_and_right, exists_or]
  | deleteUser targetID =>
    simp only [RegistryOp.exec, RegistryOp.redeems, Bool.false_eq_true, or_false,
      Registry.deleteCascade]
    split
    · rfl
    · simp [Used, Invites.forget, Invite.forget]

theorem Wf.used_run (hr : r.Wf) {ops : List RegistryOp} (hy : ∀ o ∈ ops, o.InYears) :
    (r.run ops).Used code ↔ r.Used code ∨ redemptions code r ops ≠ 0 := by
  induction ops generalizing r with
  | nil =>
    show r.Used code ↔ r.Used code ∨ 0 ≠ 0
    simp
  | cons o ops ih =>
    have hstep := hr.exec (hy o (List.mem_cons_self ..))
    have hrest := ih hstep fun o' ho' => hy o' (List.mem_cons_of_mem _ ho')
    show ((o.exec r).run ops).Used code ↔ _
    rw [hrest, hr.used_exec, redemptions, or_assoc]
    apply or_congr_right
    cases o.redeems code r <;> simp

theorem Wf.redemptions_le (hr : r.Wf) {ops : List RegistryOp} (hy : ∀ o ∈ ops, o.InYears) :
    redemptions code r ops ≤ 1 ∧ (r.Used code → redemptions code r ops = 0) := by
  induction ops generalizing r with
  | nil => exact ⟨Nat.zero_le _, fun _ => rfl⟩
  | cons o ops ih =>
    have hstep := hr.exec (hy o (List.mem_cons_self ..))
    obtain ⟨hle, hzero⟩ := ih hstep fun o' ho' => hy o' (List.mem_cons_of_mem _ ho')
    rw [redemptions]
    cases hred : o.redeems code r with
    | true =>
      have hused : (o.exec r).Used code := (hr.used_exec o).mpr (.inr hred)
      have hnot := hr.not_used_of_redeems hred
      rw [hzero hused]
      exact ⟨le_rfl, fun h => absurd h hnot⟩
    | false =>
      rw [Bool.toNat_false, Nat.zero_add]
      exact ⟨hle, fun h => hzero ((hr.used_exec o).mpr (.inl h))⟩

theorem Wf.redeemable_iff (hr : r.Wf) {inv : Invite} (hinv : inv ∈ r.invites.rows)
    (hnow : InYears (truncateSecond now)) :
    inv.redeemable code (formatRFC3339 now) = true ↔ inv.code = code ∧ inv.usedAt = none ∧
      (inv.expiresAt = none ∨ ∃ e, InYears e ∧ inv.expiresAt = some (formatSeconds e) ∧
        truncateSecond now < e) := by
  have hexpiry : inv.expiresAt.all (formatRFC3339 now < ·) = true ↔ inv.expiresAt = none ∨
      ∃ e, InYears e ∧ inv.expiresAt = some (formatSeconds e) ∧ truncateSecond now < e := by
    have htext := hr.expires inv hinv
    cases hcol : inv.expiresAt with
    | none => simp
    | some text =>
      obtain ⟨e, he, rfl⟩ := htext text hcol
      have horder : formatRFC3339 now < formatSeconds e ↔ truncateSecond now < e :=
        formatSeconds_lt_iff hnow he
      rw [Option.all_some, decide_eq_true_eq, horder]
      constructor
      · intro hlt
        exact .inr ⟨e, he, rfl, hlt⟩
      · rintro (hnone | ⟨e', he', heq, hlt⟩)
        · cases hnone
        · rw [← horder, Option.some.inj heq]
          exact (formatSeconds_lt_iff hnow he').mpr hlt
  simp only [Invite.redeemable, Bool.and_eq_true, decide_eq_true_eq, Option.isNone_iff_eq_none,
    hexpiry, and_assoc]

end Registry

open Registry in
/-- Over a whole run a code is redeemed at most once, and a registration after it succeeds exactly
when the name is free and its code belongs to an invite that was never used, before or during the
run, and has not expired; then it uses up that invite, and otherwise it changes nothing. -/
theorem invite_single_use {r : Registry} (hr : r.Wf) (ops : List RegistryOp)
    (hy : ∀ o ∈ ops, o.InYears) (code : String) :
    redemptions code r ops ≤ 1 ∧
    ∀ username passwordHash now, InYears (truncateSecond now) →
      ((∃ u, ((r.run ops).register username passwordHash code now).1 = .ok u) ↔
        (∀ u ∈ (r.run ops).db.users, nocase u.username ≠ nocase username) ∧
        ∃ inv ∈ (r.run ops).invites.rows, inv.code = code ∧
          ¬ r.Used code ∧ redemptions code r ops = 0 ∧
          (inv.expiresAt = none ∨ ∃ e, InYears e ∧ inv.expiresAt = some (formatSeconds e) ∧
            truncateSecond now < e)) ∧
      (∀ u r', (r.run ops).register username passwordHash code now = (.ok u, r') →
        r' = (r.run ops).redeemed username passwordHash code now) ∧
      ∀ e r', (r.run ops).register username passwordHash code now = (.error e, r') → r' = r.run ops := by
  refine ⟨(hr.redemptions_le hy).1, fun username passwordHash now hnow => ?_⟩
  have hrun := hr.run hy
  have hused : (r.run ops).Used code ↔ r.Used code ∨ redemptions code r ops ≠ 0 := hr.used_run hy
  -- a row that is unused now belongs to no invite used before and to none redeemed since
  have hfresh : ∀ inv ∈ (r.run ops).invites.rows, inv.code = code →
      (inv.usedAt = none ↔ ¬ r.Used code ∧ redemptions code r ops = 0) := by
    intro inv hinv hcode
    have hrow : (r.run ops).Used code ↔ inv.usedAt ≠ none := by
      constructor
      · rintro ⟨inv', hinv', hcode', hat⟩
        rwa [hrun.code inv' hinv' inv hinv (hcode'.trans hcode.symm)] at hat
      · exact fun hat => ⟨inv, hinv, hcode, hat⟩
    rw [← not_iff_not, ← ne_eq, ← hrow, hused, not_and_or, not_not]
  refine ⟨?_, ?_, ?_⟩
  · rcases hrun.register_cases username passwordHash code now with
      ⟨e, he, hno⟩ | ⟨u, hu, hfree, inv, hinv, hok⟩
    · rw [he]
      refine iff_of_false (by simp) ?_
      rintro ⟨hfree, inv, hinv, hcode, hnot, hzero, hopen⟩
      rcases hno with ⟨u, hu, heq⟩ | hno
      · exact hfree u hu heq
      · have hok := (hrun.redeemable_iff hinv hnow).mpr
          ⟨hcode, (hfresh inv hinv hcode).mpr ⟨hnot, hzero⟩, hopen⟩
        rw [hno inv hinv] at hok
        cases hok
    · rw [hu]
      obtain ⟨hcode, hnone, hopen⟩ := (hrun.redeemable_iff hinv hnow).mp hok
      obtain ⟨hnot, hzero⟩ := (hfresh inv hinv hcode).mp hnone
      exact iff_of_true ⟨u, rfl⟩ ⟨hfree, inv, hinv, hcode, hnot, hzero, hopen⟩
  · intro u r' hreg
    rcases hrun.register_cases username passwordHash code now with ⟨e, he, -⟩ | ⟨u, hu, -⟩
    · rw [he] at hreg
      cases hreg
    · rw [hu] at hreg
      exact (Prod.mk.inj hreg).2.symm
  · intro e r' hreg
    rcases hrun.register_cases username passwordHash code now with ⟨e, he, -⟩ | ⟨u, hu, -⟩
    · rw [he] at hreg
      exact (Prod.mk.inj hreg).2.symm
    · rw [hu] at hreg
      cases hreg

def adminOnly : Registry := ⟨DB.empty.addUser "admin" "hash" true, ⟨[], 0⟩⟩

/-- The code is redeemed, its consumer deleted, and the code tried again. -/
def redeemTwice : List RegistryOp :=
  [.insertInvite 1 "code" 0 1000000000, .register "bob" "hash" "code" 0, .deleteUser 2,
    .register "carol" "hash" "code" 0]

open Registry in
theorem invite_single_use_twice :
    redemptions "code" adminOnly redeemTwice = 1 ∧ redemptions "code" adminOnly redeemTwice ≤ 1 := by
  have hwf : adminOnly.Wf :=
    ⟨DB.empty_wf.addUser .., List.Pairwise.nil, by simp [adminOnly], by simp [adminOnly, Keyed],
      by simp [adminOnly]⟩
  have hyears : ∀ o ∈ redeemTwice, o.InYears := by
    simp [redeemTwice, RegistryOp.InYears, InYears, truncateSecond, second, unixToYearZero]
  exact ⟨by decide +kernel, (invite_single_use hwf redeemTwice hyears "code").1⟩

end LanWeave

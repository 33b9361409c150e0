import LanWeave.Golang.TimeText
import LanWeave.Server.SingleUse

/-! The admin's list of invites beside their redemption. The list compares an expiry with the
clock to the nanosecond; a registration compares their texts, which hold seconds. -/

namespace LanWeave
open Library

/-- A column whose text `InviteRepo.List` cannot parse. -/
inductive InviteScanErr
  | usedAt
  | createdAt
  | expiresAt
deriving DecidableEq

/-- A listed invite with its time stamps read, in seconds. -/
structure ScannedInvite where
  row : InviteRow
  usedAt : Option Int
  createdAt : Int
  expiresAt : Option Int

inductive InviteStatus
  | unused
  | used
  | expired
deriving DecidableEq

structure InviteListItem where
  code : String
  status : InviteStatus
  createdBy : Option String
  createdAt : String
  usedBy : Option String
  usedAt : Option String
  expiresAt : Option String
deriving DecidableEq

/-- A column that may be NULL, parsed when it is not. -/
def parseNullable (text : Option String) (err : InviteScanErr) : Except InviteScanErr (Option Int) :=
  match text with
  | none => .ok none
  | some s =>
    match parseRFC3339 s with
    | none => .error err
    | some t => .ok (some t)

/-- The body of the row loop in `InviteRepo.List`. -/
def InviteRow.scan (row : InviteRow) : Except InviteScanErr ScannedInvite := do
  let usedAt ← parseNullable row.invite.usedAt .usedAt
  match parseRFC3339 row.invite.createdAt with
  | none => throw .createdAt
  | some createdAt =>
    let expiresAt ← parseNullable row.invite.expiresAt .expiresAt
    return ⟨row, usedAt, createdAt, expiresAt⟩

/-- `inv.ExpiresAt.Before(time.Now())`. -/
def ScannedInvite.Lapsed (inv : ScannedInvite) (now : Int) : Prop :=
  ∃ e ∈ inv.expiresAt, e * second < now

instance (inv : ScannedInvite) (now : Int) : Decidable (inv.Lapsed now) :=
  inferInstanceAs (Decidable (∃ e ∈ inv.expiresAt, e * second < now))

def toInviteListItem (inv : ScannedInvite) (now : Int) : InviteListItem where
  code := inv.row.invite.code
  status := if inv.usedAt.isSome then .used else if inv.Lapsed now then .expired else .unused
  createdBy := inv.row.createdByName
  createdAt := formatSeconds inv.createdAt
  usedBy := inv.row.usedByName
  usedAt := inv.usedAt.map formatSeconds
  expiresAt := inv.expiresAt.map formatSeconds

def ScannedInvite.expiryInstant (inv : ScannedInvite) : Option Int := inv.expiresAt.map (· * second)

theorem parseNullable_ok {text : Option String} {err : InviteScanErr} {t : Option Int}
    (h : parseNullable text err = .ok t) :
    text = none ∧ t = none ∨ ∃ s e, text = some s ∧ parseRFC3339 s = some e ∧ t = some e := by
  cases text with
  | none => exact .inl ⟨rfl, (Except.ok.inj h).symm⟩
  | some s =>
    simp only [parseNullable] at h
    cases hparse : parseRFC3339 s with
    | none =>
      rw [hparse] at h
      cases h
    | some e =>
      rw [hparse] at h
      exact .inr ⟨s, e, rfl, hparse, (Except.ok.inj h).symm⟩

theorem InviteRow.scan_ok {row : InviteRow} {inv : ScannedInvite} (h : row.scan = .ok inv) :
    inv.row = row ∧ parseNullable row.invite.usedAt .usedAt = .ok inv.usedAt ∧
      parseNullable row.invite.expiresAt .expiresAt = .ok inv.expiresAt := by
  unfold InviteRow.scan at h
  cases hused : parseNullable row.invite.usedAt .usedAt with
  | error err =>
    rw [hused] at h
    cases h
  | ok usedAt =>
    rw [hused] at h
    cases hcreated : parseRFC3339 row.invite.createdAt with
    | none =>
      simp only [hcreated] at h
      cases h
    | some createdAt =>
      cases hexpires : parseNullable row.invite.expiresAt .expiresAt with
      | error err =>
        simp only [hcreated, hexpires] at h
        cases h
      | ok expiresAt =>
        simp only [hcreated, hexpires] at h
        have hinv : ScannedInvite.mk row usedAt createdAt expiresAt = inv := Except.ok.inj h
        rw [← hinv]
        exact ⟨rfl, rfl, rfl⟩

theorem InviteRow.scan_usedAt {row : InviteRow} {inv : ScannedInvite} (h : row.scan = .ok inv) :
    inv.usedAt = none ↔ row.invite.usedAt = none := by
  obtain ⟨-, hused, -⟩ := scan_ok h
  rcases parseNullable_ok hused with ⟨htext, ht⟩ | ⟨s, e, htext, -, ht⟩
  · exact iff_of_true ht htext
  · rw [ht, htext]
    exact iff_of_false (Option.some_ne_none e) (Option.some_ne_none s)

theorem mem_listInvites {r : Registry} {row : InviteRow} (h : row ∈ r.listInvites) :
    row.invite ∈ r.invites.rows := by
  obtain ⟨inv, hinv, rfl⟩ := List.mem_map.mp (List.mem_reverse.mp h)
  exact hinv

namespace Registry

variable {r : Registry} {row : InviteRow} {inv : ScannedInvite}

theorem Wf.scan_expiresAt (hr : r.Wf) (hrow : row ∈ r.listInvites) (hscan : row.scan = .ok inv) :
    row.invite.expiresAt = inv.expiresAt.map formatSeconds ∧ ∀ e ∈ inv.expiresAt, InYears e := by
  obtain ⟨-, -, hexpires⟩ := InviteRow.scan_ok hscan
  rcases parseNullable_ok hexpires with ⟨htext, ht⟩ | ⟨s, e, htext, hparse, ht⟩
  · rw [htext, ht]
    exact ⟨rfl, fun e he => absurd he (Option.not_mem_none e)⟩
  · obtain ⟨e', he', rfl⟩ := hr.expires _ (mem_listInvites hrow) s htext
    rw [parseRFC3339_formatSeconds he'] at hparse
    rw [htext, ht, ← hparse]
    refine ⟨rfl, fun e he => ?_⟩
    rwa [← Option.some.inj he]

theorem toInviteListItem_unused (inv : ScannedInvite) (now : Int) :
    (toInviteListItem inv now).status = .unused ↔
      inv.usedAt = none ∧ ∀ e ∈ inv.expiresAt, now ≤ e * second := by
  have hlapsed : ¬ inv.Lapsed now ↔ ∀ e ∈ inv.expiresAt, now ≤ e * second := by
    simp [ScannedInvite.Lapsed]
  rw [← hlapsed]
  cases hused : inv.usedAt with
  | some t => simp [toInviteListItem, hused]
  | none => by_cases hlate : inv.Lapsed now <;> simp [toInviteListItem, hused, hlate]

/-- With a free name a listed code is redeemed while its invite is unused and before the second
it expires in. -/
theorem Wf.register_listed (hr : r.Wf) (hrow : row ∈ r.listInvites) (hscan : row.scan = .ok inv)
    {username passwordHash : String} {now : Int}
    (hfree : ∀ u ∈ r.db.users, nocase u.username ≠ nocase username)
    (hnow : InYears (truncateSecond now)) :
    (∃ u, (r.register username passwordHash row.invite.code now).1 = .ok u) ↔
      inv.usedAt = none ∧ ∀ e ∈ inv.expiresAt, truncateSecond now < e := by
  have hinv := mem_listInvites hrow
  obtain ⟨hexpires, hyears⟩ := hr.scan_expiresAt hrow hscan
  have hopen : row.invite.redeemable row.invite.code (formatRFC3339 now) = true ↔
      inv.usedAt = none ∧ ∀ e ∈ inv.expiresAt, truncateSecond now < e := by
    rw [InviteRow.scan_usedAt hscan, hr.redeemable_iff hinv hnow, hexpires]
    cases hcol : inv.expiresAt with
    | none => simp
    | some e =>
      have he : InYears e := hyears e hcol
      have hone : (∃ e', InYears e' ∧ formatSeconds e = formatSeconds e' ∧ truncateSecond now < e') ↔
          truncateSecond now < e := by
        constructor
        · rintro ⟨e', he', htext, hlt⟩
          rw [← formatSeconds_lt_iff hnow he, htext]
          exact formatSeconds_lt hnow he' hlt
        · exact fun hlt => ⟨e, he, rfl, hlt⟩
      simp [hone]
  rw [← hopen]
  constructor
  · rintro ⟨u, hu⟩
    rcases hr.register_cases username passwordHash row.invite.code now with
      ⟨err, herr, -⟩ | ⟨-, -, -, inv', hinv', hok⟩
    · rw [herr] at hu
      cases hu
    · rw [hr.redeemable_eq hinv' hok _ hinv]
      exact decide_eq_true rfl
  · intro hok
    rw [hr.register_ok hfree hinv hok]
    exact ⟨_, rfl⟩

end Registry

open Registry in
/-- The list calls an invite unused at exactly the instants at which its code can be redeemed,
unless nobody has used it and this is the very instant it expires at. -/
theorem inviteStatus_iff {r : Registry} (hr : r.Wf) {row : InviteRow} (hrow : row ∈ r.listInvites)
    {inv : ScannedInvite} (hscan : row.scan = .ok inv) {username : String} (passwordHash : String)
    (hfree : ∀ u ∈ r.db.users, nocase u.username ≠ nocase username)
    {t : Int} (ht : InYears (truncateSecond t)) :
    ((toInviteListItem inv t).status = .unused ↔
        ∃ u, (r.register username passwordHash row.invite.code t).1 = .ok u) ↔
      ¬ (row.invite.usedAt = none ∧ inv.expiryInstant = some t) := by
  rw [hr.register_listed hrow hscan hfree ht, toInviteListItem_unused, ← InviteRow.scan_usedAt hscan]
  cases hexp : inv.expiresAt with
  | none => simp [ScannedInvite.expiryInstant, hexp]
  | some e =>
    have hinstant : inv.expiryInstant = some t ↔ e * second = t := by
      simp [ScannedInvite.expiryInstant, hexp]
    rw [hinstant]
    simp only [Option.mem_some_iff, forall_eq', truncateSecond_lt_iff]
    by_cases hused : inv.usedAt = none
    · simp only [hused, true_and]
      omega
    · simp [hused]

/-- An invite of the admin that lasts one second. -/
def shortInvite : Registry := (adminOnly.insertInvite 1 "code" 0 second).2

def shortInviteRow : InviteRow :=
  ⟨⟨1, "code", some 1, none, none, formatSeconds 0, some (formatSeconds 1)⟩, some "admin", none⟩

def shortInviteScanned : ScannedInvite := ⟨shortInviteRow, none, 0, some 1⟩

theorem shortInvite_listed : shortInvite.listInvites = [shortInviteRow] := rfl

theorem shortInviteRow_scan : shortInviteRow.scan = .ok shortInviteScanned := by
  have hstart : parseRFC3339 (formatSeconds 0) = some 0 := by decide +kernel
  have hstop : parseRFC3339 (formatSeconds 1) = some 1 := by decide +kernel
  simp only [InviteRow.scan, shortInviteRow, parseNullable, hstart, hstop]
  rfl

theorem shortInvite_bob_free : ∀ u ∈ shortInvite.db.users, nocase u.username ≠ nocase "bob" := by
  decide +kernel

/-- When it expires, the invite is listed as unused and not accepted. -/
theorem listed_not_redeemed :
    (∃ row ∈ shortInvite.listInvites, row.invite.code = "code" ∧
      row.scan.map (fun inv => (toInviteListItem inv second).status) = .ok .unused) ∧
    (∀ u ∈ shortInvite.db.users, nocase u.username ≠ nocase "bob") ∧
    (shortInvite.register "bob" "hash" "code" second).1 = .error .inviteInvalid := by
  refine ⟨⟨shortInviteRow, by rw [shortInvite_listed]; exact List.mem_singleton_self _, rfl, ?_⟩,
    shortInvite_bob_free, by decide +kernel⟩
  rw [shortInviteRow_scan]
  decide +kernel

theorem inviteStatus_iff_short :
    ((toInviteListItem shortInviteScanned (second - 1)).status = .unused ↔
      ∃ u, (shortInvite.register "bob" "hash" "code" (second - 1)).1 = .ok u) ∧
    ¬ ((toInviteListItem shortInviteScanned second).status = .unused ↔
      ∃ u, (shortInvite.register "bob" "hash" "code" second).1 = .ok u) := by
  have hadmin : adminOnly.Wf :=
    ⟨DB.empty_wf.addUser .., List.Pairwise.nil, by simp [adminOnly], by simp [adminOnly, Keyed],
      by simp [adminOnly]⟩
  have hyears : ∀ t, 0 ≤ t → t ≤ 2 → InYears t := by
    intro t hlow hhigh
    simp only [InYears, unixToYearZero]
    omega
  have hwf : shortInvite.Wf := hadmin.insertInvite (hyears _ (by decide) (by decide))
  have hrow : shortInviteRow ∈ shortInvite.listInvites := by
    rw [shortInvite_listed]
    exact List.mem_singleton_self _
  have hagree : ∀ t, InYears (truncateSecond t) →
      (((toInviteListItem shortInviteScanned t).status = .unused ↔
        ∃ u, (shortInvite.register "bob" "hash" "code" t).1 = .ok u) ↔
      ¬ (shortInviteRow.invite.usedAt = none ∧ shortInviteScanned.expiryInstant = some t)) :=
    fun t ht => inviteStatus_iff hwf hrow shortInviteRow_scan "hash" shortInvite_bob_free ht
  constructor
  · exact (hagree _ (hyears _ (by decide) (by decide))).mpr (by decide +kernel)
  · exact fun h => (hagree _ (hyears _ (by decide) (by decide))).mp h (by decide +kernel)

end LanWeave

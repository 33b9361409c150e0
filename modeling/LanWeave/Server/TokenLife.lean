import LanWeave.Server.RefreshTokens
import LanWeave.Server.StoreCases

/-! The life of a refresh token over any history of calls, and its end once it is revoked. -/

namespace LanWeave
open Library Prog

variable {hash : String → String} {p : String} {s s' s₀ : Accounts}

/-! ### the life a history tells -/

structure Life where
  userID : Int
  lastUse : Int
  revoked : Bool

abbrev TokenEvent := TokenCall × TokenReply

/-- What one answered call makes of the life of `p`. -/
def Life.after (p : String) : TokenEvent → Option Life → Option Life
  | (.issue userID q now, .issued (.ok _)), life =>
    if q = p then some ⟨userID, truncateSecond now, false⟩ else life
  | (.validate q now, .validated (.ok _)), life =>
    if q = p then life.map fun l => { l with lastUse := truncateSecond now } else life
  | (.revoke q _, .revoked (.ok _)), life =>
    if q = p then life.map fun l => { l with revoked := true } else life
  | (.deleteUser targetID, .deleted (.ok _)), life => life.filter (·.userID ≠ targetID)
  | _, life => life

def life (p : String) (trace : List TokenEvent) : Option Life := trace.foldr (Life.after p) none

/-- The accounts hold the token of `p` as its life tells. -/
structure Shows (hash : String → String) (p : String) (l : Option Life) (s : Accounts) : Prop where
  keyed : Keyed RefreshToken.tokenHash s.refreshTokens
  user : ∀ row ∈ s.refreshTokens, s.registry.db.hasUser row.userID = true
  row : (s.refreshTokens.find? (·.tokenHash = hash p)).map
      (fun row => (row.userID, row.expiresAt, row.revokedAt.isSome)) =
    l.map fun l => (l.userID, formatSeconds (l.lastUse + refreshTTL), l.revoked)
  years : ∀ x ∈ l, InYears (x.lastUse + refreshTTL)

/-! ### what one call does -/

namespace Accounts

theorem find?_updateLive (s : Accounts) (h k : String) {set : RefreshToken → RefreshToken}
    (hset : ∀ row, (set row).tokenHash = row.tokenHash) :
    (s.updateLive h set).refreshTokens.find? (·.tokenHash = k) =
      (s.refreshTokens.find? (·.tokenHash = k)).map fun row =>
        if row.tokenHash = h ∧ row.revokedAt = none then set row else row := by
  show (s.refreshTokens.map _).find? _ = _
  rw [List.find?_map]
  congr 1
  apply congrArg (List.find? · s.refreshTokens)
  funext row
  show decide ((if _ then set row else row).tokenHash = k) = _
  split_ifs
  · rw [hset]
  · rfl

theorem keyed_updateLive {s : Accounts} (hk : Keyed RefreshToken.tokenHash s.refreshTokens) (h : String)
    {set : RefreshToken → RefreshToken} (hset : ∀ row, (set row).tokenHash = row.tokenHash) :
    Keyed RefreshToken.tokenHash (s.updateLive h set).refreshTokens := by
  have hsame : ∀ row : RefreshToken, (if row.tokenHash = h ∧ row.revokedAt = none then set row
      else row).tokenHash = row.tokenHash := by
    intro row
    split_ifs
    · exact hset row
    · rfl
  intro a ha b hb hab
  obtain ⟨a, hma, rfl⟩ := List.mem_map.mp ha
  obtain ⟨b, hmb, rfl⟩ := List.mem_map.mp hb
  rw [hsame, hsame] at hab
  rw [hk a hma b hmb hab]

theorem deleteCascade_tokens (s : Accounts) (targetID : Int) :
    (∃ e, s.deleteCascade targetID = (.error e, s)) ∨
    ∃ r s', s.deleteCascade targetID = (.ok r, s') ∧
      s'.refreshTokens = s.refreshTokens.filter (fun row => row.userID ≠ targetID) ∧
      s'.registry.db.users = s.registry.db.users.filter fun u => u.id ≠ targetID := by
  unfold deleteCascade Registry.deleteCascade
  rcases s.registry.db.deleteCascade_cases targetID with
    ⟨hsame, e, he⟩ | ⟨r, hr, -, -, -, -, orphans, -, -, hdb⟩
  · left
    generalize s.registry.db.deleteCascade targetID = x at *
    obtain ⟨res, db⟩ := x
    obtain rfl := hsame
    obtain rfl := he
    exact ⟨e, rfl⟩
  · right
    generalize s.registry.db.deleteCascade targetID = x at *
    obtain ⟨res, db⟩ := x
    obtain rfl := hr
    refine ⟨r, _, rfl, rfl, ?_⟩
    show db.users = _
    rw [show db = _ from hdb]
    rfl

end Accounts

theorem issueToken_runs {userID : Int} {q : String} {now : Int} {tr : List (TokenOp × Bool)}
    {res : Except StoreErr String} (h : (issueToken hash userID q now).Runs Accounts.sem s tr res s') :
    (∃ e, res = .error e ∧ s' = s) ∨
    (res = .ok q ∧ (∀ row ∈ s.refreshTokens, row.tokenHash ≠ hash q) ∧
      s.registry.db.hasUser userID = true ∧
      s' = { s with
        refreshTokens := s.refreshTokens ++ [⟨s.seqRefreshTokens + 1, userID, hash q,
          formatSeconds (truncateSecond now + refreshTTL), none, formatRFC3339 now⟩]
        seqRefreshTokens := s.seqRefreshTokens + 1 }) := by
  obtain ⟨fails, tr', rfl, -, rfl, rfl⟩ := h
  cases fails with
  | true => exact .inl ⟨_, rfl, rfl⟩
  | false =>
    simp only [Accounts.sem, Accounts.exec, Accounts.insertToken]
    split_ifs with htaken huser
    · exact .inl ⟨_, rfl, rfl⟩
    · exact .inl ⟨_, rfl, rfl⟩
    · exact .inr ⟨rfl, by simpa using htaken, by simpa using huser, rfl⟩

theorem validateToken_runs {q : String} {now : Int} {tr : List (TokenOp × Bool)}
    {res : Except RefreshErr Int} (h : (validateToken hash q now).Runs Accounts.sem s tr res s') :
    (∃ e, res = .error e ∧ s' = s) ∨
    ∃ row exp, s.refreshTokens.find? (·.tokenHash = hash q) = some row ∧ row.revokedAt = none ∧
      parseRFC3339 row.expiresAt = some exp ∧ truncateSecond now < exp ∧ res = .ok row.userID ∧
      s' = s.updateLive (hash q) fun row =>
        { row with expiresAt := formatSeconds (truncateSecond now + refreshTTL) } := by
  obtain ⟨fails, tr', rfl, h⟩ := h
  cases fails with
  | true =>
    obtain ⟨-, rfl, rfl⟩ := h
    exact .inl ⟨_, rfl, rfl⟩
  | false =>
    simp only [Accounts.sem, Accounts.exec] at h
    cases hrow : s.refreshTokens.find? (·.tokenHash = hash q) with
    | none =>
      rw [hrow] at h
      obtain ⟨-, rfl, rfl⟩ := h
      exact .inl ⟨_, rfl, rfl⟩
    | some row =>
      rw [hrow] at h
      simp only at h
      -- a revoked row
      split_ifs at h with hrev
      · obtain ⟨-, rfl, rfl⟩ := h
        exact .inl ⟨_, rfl, rfl⟩
      cases hexp : parseRFC3339 row.expiresAt with
      | none =>
        rw [hexp] at h
        obtain ⟨-, rfl, rfl⟩ := h
        exact .inl ⟨_, rfl, rfl⟩
      | some exp =>
        rw [hexp] at h
        simp only at h
        -- an expired one
        split_ifs at h with hold
        · obtain ⟨-, rfl, rfl⟩ := h
          exact .inl ⟨_, rfl, rfl⟩
        obtain ⟨fails, tr'', rfl, h⟩ := h
        cases fails with
        | true =>
          obtain ⟨-, rfl, rfl⟩ := h
          exact .inl ⟨_, rfl, rfl⟩
        | false =>
          obtain ⟨-, rfl, rfl⟩ := h
          exact .inr ⟨row, exp, rfl, by simpa using hrev, hexp, by omega, rfl, rfl⟩

theorem revokeToken_runs {q : String} {now : Int} {tr : List (TokenOp × Bool)}
    {res : Except StoreErr Unit} (h : (revokeToken hash q now).Runs Accounts.sem s tr res s') :
    (∃ e, res = .error e ∧ s' = s) ∨
    (res = .ok () ∧ s' = s.updateLive (hash q) fun row =>
      { row with revokedAt := some (formatRFC3339 now) }) := by
  obtain ⟨fails, tr', rfl, -, rfl, rfl⟩ := h
  cases fails with
  | true => exact .inl ⟨_, rfl, rfl⟩
  | false => exact .inr ⟨rfl, rfl⟩

/-! ### one call keeps the accounts to the life -/

/-- The texts of the other calls have other digests. -/
def OwnDigest (hash : String → String) (p : String) (c : TokenCall) : Prop :=
  ∀ q ∈ c.text, hash q = hash p → q = p

namespace Shows
variable {l : Option Life}

theorem inserted (h : Shows hash p l s) (row : RefreshToken) (seq : Int)
    (hnew : ∀ r ∈ s.refreshTokens, r.tokenHash ≠ row.tokenHash)
    (huser : s.registry.db.hasUser row.userID = true) (hlive : row.revokedAt = none)
    {x : Life} (hx : row.tokenHash = hash p → row.userID = x.userID ∧
      row.expiresAt = formatSeconds (x.lastUse + refreshTTL) ∧ x.revoked = false ∧
      InYears (x.lastUse + refreshTTL)) :
    Shows hash p (if row.tokenHash = hash p then some x else l)
      { s with refreshTokens := s.refreshTokens ++ [row], seqRefreshTokens := seq } where
  keyed := h.keyed.append hnew
  user r hr := by
    rcases List.mem_append.mp hr with hold | hlast
    · exact h.user r hold
    · rwa [List.mem_singleton.mp hlast]
  row := by
    show ((s.refreshTokens ++ [row]).find? _).map _ = _
    rw [List.find?_append]
    split_ifs with hq
    · obtain ⟨huid, hexp, hrev, -⟩ := hx hq
      have hnone : s.refreshTokens.find? (·.tokenHash = hash p) = none := by
        rw [List.find?_eq_none]
        intro r hr
        simpa [hq] using hnew r hr
      rw [hnone]
      simp [hq, huid, hexp, hrev, hlive]
    · have hnone : [row].find? (·.tokenHash = hash p) = none := by simp [hq]
      rw [hnone, Option.or_none]
      exact h.row
  years y hy := by
    split_ifs at hy with hq
    · obtain rfl := Option.some.inj hy
      exact (hx hq).2.2.2
    · exact h.years y hy

theorem updated (h : Shows hash p l s) {k : String} {set : RefreshToken → RefreshToken}
    (hset : ∀ row, (set row).tokenHash = row.tokenHash ∧ (set row).userID = row.userID)
    {x : Option Life} (hx : (l.map fun l =>
      (l.userID, formatSeconds (l.lastUse + refreshTTL), l.revoked)) =
        ((s.refreshTokens.find? (·.tokenHash = hash p)).map
          fun row => (row.userID, row.expiresAt, row.revokedAt.isSome)) →
      ((s.refreshTokens.find? (·.tokenHash = hash p)).map fun row =>
        if row.tokenHash = k ∧ row.revokedAt = none then set row else row).map
          (fun row => (row.userID, row.expiresAt, row.revokedAt.isSome)) =
        x.map fun l => (l.userID, formatSeconds (l.lastUse + refreshTTL), l.revoked))
    (hyears : ∀ y ∈ x, InYears (y.lastUse + refreshTTL)) :
    Shows hash p x (s.updateLive k set) where
  keyed := Accounts.keyed_updateLive h.keyed k fun row => (hset row).1
  user r hr := by
    obtain ⟨row, hrow, rfl⟩ := List.mem_map.mp hr
    split_ifs
    · rw [(hset row).2]
      exact h.user row hrow
    · exact h.user row hrow
  row := by
    rw [Accounts.find?_updateLive s k (hash p) fun row => (hset row).1]
    exact hx h.row.symm
  years := hyears

theorem untouched (h : Shows hash p l s) {k : String} (hk : k ≠ hash p)
    {set : RefreshToken → RefreshToken}
    (hset : ∀ row, (set row).tokenHash = row.tokenHash ∧ (set row).userID = row.userID) :
    Shows hash p l (s.updateLive k set) := by
  refine h.updated hset (fun hl => ?_) h.years
  rw [hl]
  cases hrow : s.refreshTokens.find? (·.tokenHash = hash p) with
  | none => rfl
  | some row =>
    have hid : row.tokenHash = hash p := by simpa using List.find?_some hrow
    have hne : ¬(row.tokenHash = k ∧ row.revokedAt = none) := fun hc => hk (hc.1.symm.trans hid)
    rw [Option.map_some, if_neg hne]

theorem slid (h : Shows hash p l s) {row : RefreshToken}
    (hrow : s.refreshTokens.find? (·.tokenHash = hash p) = some row) (hlive : row.revokedAt = none)
    {now : Int} (hy : InYears (truncateSecond now + refreshTTL)) :
    Shows hash p (l.map fun l => { l with lastUse := truncateSecond now })
      (s.updateLive (hash p) fun row =>
        { row with expiresAt := formatSeconds (truncateSecond now + refreshTTL) }) := by
  have hid : row.tokenHash = hash p := by simpa using List.find?_some hrow
  apply h.updated
  · exact fun _ => ⟨rfl, rfl⟩
  · intro hl
    rw [hrow] at hl ⊢
    rw [Option.map_some, if_pos ⟨hid, hlive⟩]
    cases l with
    | none => cases hl
    | some x =>
      simp only [Option.map_some, Option.some.injEq, Prod.mk.injEq] at hl ⊢
      exact ⟨hl.1.symm, trivial, hl.2.2.symm⟩
  · intro y hmem
    obtain ⟨x, -, rfl⟩ := Option.mem_map.mp hmem
    exact hy

theorem revoked (h : Shows hash p l s) (text : String) :
    Shows hash p (l.map fun l => { l with revoked := true })
      (s.updateLive (hash p) fun row => { row with revokedAt := some text }) := by
  apply h.updated
  · exact fun _ => ⟨rfl, rfl⟩
  · intro hl
    cases hrow : s.refreshTokens.find? (·.tokenHash = hash p) with
    | none =>
      rw [hrow] at hl
      cases l with
      | none => rfl
      | some x => cases hl
    | some row =>
      have hid : row.tokenHash = hash p := by simpa using List.find?_some hrow
      rw [hrow] at hl
      cases l with
      | none => cases hl
      | some x =>
        simp only [Option.map_some, Option.some.injEq, Prod.mk.injEq] at hl ⊢
        obtain ⟨huid, hexp, hrev⟩ := hl
        split_ifs with hc
        · exact ⟨huid.symm, hexp.symm, rfl⟩
        · refine ⟨huid.symm, hexp.symm, ?_⟩
          rw [Option.isSome_iff_ne_none]
          exact fun hnone => hc ⟨hid, hnone⟩
  · intro y hmem
    obtain ⟨x, hx, rfl⟩ := Option.mem_map.mp hmem
    exact h.years x hx

theorem deleted (h : Shows hash p l s) {targetID : Int}
    (htokens : s'.refreshTokens = s.refreshTokens.filter fun row => row.userID ≠ targetID)
    (husers : s'.registry.db.users = s.registry.db.users.filter fun u => u.id ≠ targetID) :
    Shows hash p (l.filter (·.userID ≠ targetID)) s' where
  keyed := by
    rw [htokens]
    exact h.keyed.subset (List.filter_subset_self _)
  user row hrow := by
    rw [htokens, List.mem_filter, decide_eq_true_eq] at hrow
    have hu := h.user row hrow.1
    simp only [DB.hasUser, List.any_eq_true, decide_eq_true_eq] at hu ⊢
    obtain ⟨u, hmem, hid⟩ := hu
    rw [husers]
    exact ⟨u, List.mem_filter.mpr ⟨hmem, by simpa [hid] using hrow.2⟩, hid⟩
  row := by
    rw [htokens]
    have hl := h.row
    -- the row of the token is there as long as its life says so, and digests are unique
    cases hrow : s.refreshTokens.find? (·.tokenHash = hash p) with
    | none =>
      rw [hrow] at hl
      have hnone : (s.refreshTokens.filter fun row => row.userID ≠ targetID).find?
          (·.tokenHash = hash p) = none := by
        rw [List.find?_eq_none] at hrow ⊢
        exact fun r hr => hrow r (List.mem_of_mem_filter hr)
      rw [hnone]
      cases l with
      | none => rfl
      | some x => cases hl
    | some row =>
      rw [hrow] at hl
      have hid : row.tokenHash = hash p := by simpa using List.find?_some hrow
      have hmem := List.mem_of_find?_eq_some hrow
      cases l with
      | none => cases hl
      | some x =>
        simp only [Option.map_some, Option.some.injEq, Prod.mk.injEq] at hl
        by_cases ht : x.userID = targetID
        · have hnone : (s.refreshTokens.filter fun row => row.userID ≠ targetID).find?
              (·.tokenHash = hash p) = none := by
            rw [List.find?_eq_none]
            intro r hr hrid
            obtain ⟨hr, hne⟩ := List.mem_filter.mp hr
            obtain rfl := h.keyed r hr row hmem (by simpa [hid] using hrid)
            simp [hl.1, ht] at hne
          rw [hnone]
          simp [Option.filter, ht]
        · have hsome : (s.refreshTokens.filter fun row => row.userID ≠ targetID).find?
              (·.tokenHash = hash p) = some row := by
            rw [(h.keyed.subset (List.filter_subset_self _)).find?_eq_some_iff]
            exact ⟨List.mem_filter.mpr ⟨hmem, by simpa [hl.1] using ht⟩, hid⟩
          rw [hsome]
          simp [Option.filter, ht, hl]
  years y hy := h.years y (Option.filter_eq_some_iff.mp hy).1

end Shows

theorem Shows.call {l : Option Life} (h : Shows hash p l s) {c : TokenCall} (ha : OwnDigest hash p c)
    (hy : ∀ now ∈ c.clock, InYears (truncateSecond now + refreshTTL)) {tr : List (TokenOp × Bool)}
    {reply : TokenReply} (hrun : (c.prog hash).Runs Accounts.sem s tr reply s') :
    Shows hash p (Life.after p (c, reply) l) s' := by
  have hdigest : ∀ q, c.text = some q → q ≠ p → hash q ≠ hash p :=
    fun q hq hne heq => hne (ha q hq heq)
  -- for each call, its transaction either did nothing or went through as its life counts it
  cases c with
  | issue userID q now =>
    obtain ⟨_, _, res, _, rfl, hrun, -, rfl, rfl⟩ := runs_bind.mp hrun
    rcases issueToken_runs hrun with ⟨e, rfl, rfl⟩ | ⟨rfl, hnew, huser, rfl⟩
    · exact h
    have hiff : hash q = hash p ↔ q = p := ⟨ha q rfl, fun heq => by rw [heq]⟩
    have hlife : ∀ text, Life.after p (.issue userID q now, .issued (.ok text)) l =
        if hash q = hash p then some ⟨userID, truncateSecond now, false⟩ else l := by
      intro text
      simp only [Life.after, hiff]
    show Shows hash p (Life.after p (.issue userID q now, .issued (.ok q)) l) _
    rw [hlife]
    apply h.inserted ⟨s.seqRefreshTokens + 1, userID, hash q,
      formatSeconds (truncateSecond now + refreshTTL), none, formatRFC3339 now⟩
    · exact hnew
    · exact huser
    · rfl
    · exact fun _ => ⟨rfl, rfl, rfl, hy now rfl⟩
  | validate q now =>
    obtain ⟨_, _, res, _, rfl, hrun, -, rfl, rfl⟩ := runs_bind.mp hrun
    rcases validateToken_runs hrun with ⟨e, rfl, rfl⟩ | ⟨row, exp, hrow, hlive, -, -, rfl, rfl⟩
    · exact h
    show Shows hash p (if q = p then _ else l) _
    split_ifs with hq
    · subst hq
      exact h.slid hrow hlive (hy now rfl)
    · exact h.untouched (hdigest q rfl hq) fun _ => ⟨rfl, rfl⟩
  | revoke q now =>
    obtain ⟨_, _, res, _, rfl, hrun, -, rfl, rfl⟩ := runs_bind.mp hrun
    rcases revokeToken_runs hrun with ⟨e, rfl, rfl⟩ | ⟨rfl, rfl⟩
    · exact h
    show Shows hash p (if q = p then _ else l) _
    split_ifs with hq
    · subst hq
      exact h.revoked _
    · exact h.untouched (hdigest q rfl hq) fun _ => ⟨rfl, rfl⟩
  | deleteUser targetID =>
    obtain ⟨fails, tr', rfl, -, rfl, rfl⟩ := hrun
    cases fails with
    | true => exact h
    | false =>
      rcases s.deleteCascade_tokens targetID with ⟨e, hdel⟩ | ⟨r, s', hdel, htokens, husers⟩
      · simp only [Accounts.sem, Accounts.exec, hdel]
        exact h
      · simp only [Accounts.sem, Accounts.exec, hdel]
        exact h.deleted htokens husers

theorem Accounts.History.shows {trace : List TokenEvent} (h : Accounts.History hash s₀ trace s)
    (h₀ : s₀.refreshTokens = []) (ha : ∀ x ∈ trace, OwnDigest hash p x.1)
    (hy : ∀ x ∈ trace, ∀ now ∈ x.1.clock, InYears (truncateSecond now + refreshTTL)) :
    Shows hash p (life p trace) s := by
  induction h with
  | start =>
    refine ⟨?_, ?_, ?_, fun x hx => nomatch hx⟩
    · rw [h₀]
      exact fun _ hmem => nomatch hmem
    · rw [h₀]
      exact fun _ hmem => nomatch hmem
    · rw [h₀]
      rfl
  | call _ c hrun ih =>
    have hprev := ih (fun x hx => ha x (List.mem_cons_of_mem _ hx))
      fun x hx => hy x (List.mem_cons_of_mem _ hx)
    exact hprev.call (ha _ List.mem_cons_self) (hy _ List.mem_cons_self) hrun

theorem Shows.validate_iff {l : Option Life} (h : Shows hash p l s) {now userID : Int} :
    ((validateToken hash p now).run Accounts.sem false s).1 = .ok userID ↔
      ∃ x ∈ l, x.userID = userID ∧ x.revoked = false ∧ truncateSecond now < x.lastUse + refreshTTL := by
  have hrow := h.row
  simp only [validateToken, run_op, Accounts.sem, Accounts.exec]
  cases hfind : s.refreshTokens.find? (·.tokenHash = hash p) with
  | none =>
    rw [hfind] at hrow
    cases l with
    | none => simp
    | some x => cases hrow
  | some row =>
    rw [hfind] at hrow
    cases l with
    | none => cases hrow
    | some x =>
      simp only [Option.map_some, Option.some.injEq, Prod.mk.injEq] at hrow
      obtain ⟨huid, hexp, hrev⟩ := hrow
      have hparse : parseRFC3339 row.expiresAt = some (x.lastUse + refreshTTL) := by
        rw [hexp, parseRFC3339_formatSeconds (h.years x rfl)]
      simp only [hrev, hparse]
      by_cases hr : x.revoked = true
      · simp [hr]
      by_cases hlt : x.lastUse + refreshTTL ≤ truncateSecond now
      · have hge : ¬truncateSecond now < x.lastUse + refreshTTL := not_lt.mpr hlt
        simp [hr, hlt, hge]
      · have hbefore : truncateSecond now < x.lastUse + refreshTTL := not_le.mp hlt
        simp [hr, hlt, huid, hbefore, Accounts.sem, Accounts.exec]

/-! ### the life in terms of the calls -/

/-- The time of the last successful `Validate` of `p`. -/
def lastValidated (p : String) : List TokenEvent → Option Int
  | [] => none
  | (.validate q now, .validated (.ok _)) :: earlier =>
    if q = p then some (truncateSecond now) else lastValidated p earlier
  | _ :: earlier => lastValidated p earlier

/-- `p` was issued to the user at `now`, and these calls were answered since. -/
def Issued (p : String) (userID now : Int) (since trace : List TokenEvent) : Prop :=
  ∃ text earlier, trace = since ++ (.issue userID p now, .issued (.ok text)) :: earlier

def Revoked (p : String) (since : List TokenEvent) : Prop :=
  ∃ now, (TokenCall.revoke p now, TokenReply.revoked (.ok ())) ∈ since

/-- The life since the token was issued at `now`. -/
def Since (p : String) (now : Int) (since : List TokenEvent) (x : Life) : Prop :=
  (x.revoked = true ↔ Revoked p since) ∧
    x.lastUse = (lastValidated p since).getD (truncateSecond now)

/-- The call has issued `p`. -/
def TokenEvent.Issues (p : String) (y : TokenEvent) : Prop :=
  ∃ userID now text, y = (.issue userID p now, .issued (.ok text))

section
variable {trace since : List TokenEvent} {x x' : Life} {y : TokenEvent} {now : Int}

theorem lastValidated_cons (h : ∀ now userID, y ≠ (.validate p now, .validated (.ok userID)))
    (since : List TokenEvent) : lastValidated p (y :: since) = lastValidated p since := by
  obtain ⟨c, reply⟩ := y
  cases c with
  | validate q now =>
    cases reply with
    | validated res =>
      cases res with
      | error e => rfl
      | ok userID =>
        have hq : q ≠ p := by
          intro hq
          exact h now userID (by rw [hq])
        exact if_neg hq
    | _ => rfl
  | _ => rfl

theorem revoked_cons (h : ∀ now, y ≠ (.revoke p now, .revoked (.ok ()))) {since : List TokenEvent} :
    Revoked p (y :: since) ↔ Revoked p since := by
  constructor
  · rintro ⟨now, hmem⟩
    rcases List.mem_cons.mp hmem with heq | hold
    · exact absurd heq.symm (h now)
    · exact ⟨now, hold⟩
  · rintro ⟨now, hmem⟩
    exact ⟨now, List.mem_cons_of_mem _ hmem⟩

theorem Issued.cons {userID now : Int} {since : List TokenEvent} (h : Issued p userID now since trace)
    (y : TokenEvent) : Issued p userID now (y :: since) (y :: trace) := by
  obtain ⟨text, earlier, htrace⟩ := h
  exact ⟨text, earlier, by rw [htrace, List.cons_append]⟩

theorem Since.kept (h : Since p now since x)
    (hval : ∀ now userID, y ≠ (.validate p now, .validated (.ok userID)))
    (hrev : ∀ now, y ≠ (.revoke p now, .revoked (.ok ()))) : Since p now (y :: since) x := by
  refine ⟨?_, ?_⟩
  · rw [revoked_cons hrev]
    exact h.1
  · rw [lastValidated_cons hval]
    exact h.2

theorem life_cons : life p (y :: trace) = Life.after p y (life p trace) := rfl

/-- A life ends with its user. -/
theorem Life.after_eq_none (h : Life.after p y (some x) = none) :
    ∃ r, y = (.deleteUser x.userID, .deleted (.ok r)) := by
  rw [Life.after.eq_def] at h
  split at h
  · split_ifs at h
  · split_ifs at h
    cases h
  · split_ifs at h
    cases h
  · next targetID r =>
    have ht : x.userID = targetID := by simpa [Option.filter] using h
    exact ⟨r, by rw [ht]⟩
  · cases h

/-- A life begins when the token is issued. -/
theorem Life.after_none (hnew : ¬y.Issues p) : Life.after p y none = none := by
  rw [Life.after.eq_def]
  split
  · next userID q now text =>
    have hq : q ≠ p := by
      rintro rfl
      exact hnew ⟨userID, now, text, rfl⟩
    exact if_neg hq
  · split_ifs <;> rfl
  · split_ifs <;> rfl
  · rfl
  · rfl

theorem Since.after (h : Since p now since x) (hnew : ¬y.Issues p)
    (hafter : Life.after p y (some x) = some x') :
    x'.userID = x.userID ∧ Since p now (y :: since) x' := by
  rw [Life.after.eq_def] at hafter
  split at hafter
  · next userID q at' text =>
    split_ifs at hafter with hq
    · subst hq
      exact absurd ⟨userID, at', text, rfl⟩ hnew
    · obtain rfl := Option.some.inj hafter
      exact ⟨rfl, h.kept (fun _ _ heq => by cases heq) fun _ heq => by cases heq⟩
  · next q at' userID =>
    split_ifs at hafter with hq
    · obtain rfl := Option.some.inj hafter
      subst hq
      refine ⟨rfl, ?_, ?_⟩
      · rw [revoked_cons fun _ heq => by cases heq]
        exact h.1
      · rw [lastValidated, if_pos rfl]
        rfl
    · obtain rfl := Option.some.inj hafter
      exact ⟨rfl, h.kept (fun _ _ heq => hq (by cases heq; rfl)) fun _ heq => by cases heq⟩
  · next q at' done =>
    split_ifs at hafter with hq
    · obtain rfl := Option.some.inj hafter
      subst hq
      refine ⟨rfl, ?_, ?_⟩
      · exact ⟨fun _ => ⟨at', List.mem_cons_self⟩, fun _ => rfl⟩
      · rw [lastValidated_cons fun _ _ heq => by cases heq]
        exact h.2
    · obtain rfl := Option.some.inj hafter
      exact ⟨rfl, h.kept (fun _ _ heq => by cases heq) fun _ heq => hq (by cases heq; rfl)⟩
  · obtain ⟨hx, -⟩ := Option.filter_eq_some_iff.mp hafter
    obtain rfl := Option.some.inj hx
    exact ⟨rfl, h.kept (fun _ _ heq => by cases heq) fun _ heq => by cases heq⟩
  · next _ hval hrev _ =>
    obtain rfl := Option.some.inj hafter
    exact ⟨rfl, h.kept (fun at' userID heq => hval p at' userID heq) fun at' heq => hrev p at' () heq⟩

theorem since_issued (p : String) (userID now : Int) :
    Since p now [] ⟨userID, truncateSecond now, false⟩ :=
  ⟨⟨Bool.noConfusion, fun h => absurd h.choose_spec List.not_mem_nil⟩, rfl⟩

theorem issued_of_life (h : life p trace = some x) :
    ∃ now since, Issued p x.userID now since trace ∧ Since p now since x := by
  induction trace generalizing x with
  | nil => cases h
  | cons y trace ih =>
    rw [life_cons] at h
    by_cases hnew : y.Issues p
    · obtain ⟨userID, now, text, rfl⟩ := hnew
      obtain rfl := Option.some.inj ((if_pos rfl).symm.trans h)
      exact ⟨now, [], ⟨text, trace, rfl⟩, since_issued p userID now⟩
    · cases hlife : life p trace with
      | none =>
        rw [hlife, Life.after_none hnew] at h
        cases h
      | some x₀ =>
        rw [hlife] at h
        obtain ⟨now, since, hissued, hsince⟩ := ih hlife
        obtain ⟨huid, hsince'⟩ := hsince.after hnew h
        exact ⟨now, y :: since, huid ▸ hissued.cons y, hsince'⟩

theorem hasUser_of_runs {c : TokenCall} {tr : List (TokenOp × Bool)} {reply : TokenReply}
    (hrun : (c.prog hash).Runs Accounts.sem s tr reply s') {userID : Int}
    (h : s'.registry.db.hasUser userID = true) : s.registry.db.hasUser userID = true := by
  cases c with
  | issue uid q now =>
    obtain ⟨_, _, res, _, rfl, hrun, -, rfl, rfl⟩ := runs_bind.mp hrun
    rcases issueToken_runs hrun with ⟨e, rfl, rfl⟩ | ⟨rfl, -, -, rfl⟩ <;> exact h
  | validate q now =>
    obtain ⟨_, _, res, _, rfl, hrun, -, rfl, rfl⟩ := runs_bind.mp hrun
    rcases validateToken_runs hrun with ⟨e, rfl, rfl⟩ | ⟨_, _, -, -, -, -, -, rfl⟩ <;> exact h
  | revoke q now =>
    obtain ⟨_, _, res, _, rfl, hrun, -, rfl, rfl⟩ := runs_bind.mp hrun
    rcases revokeToken_runs hrun with ⟨e, rfl, rfl⟩ | ⟨rfl, rfl⟩ <;> exact h
  | deleteUser targetID =>
    obtain ⟨fails, tr', rfl, -, rfl, rfl⟩ := hrun
    cases fails with
    | true => exact h
    | false =>
      rcases s.deleteCascade_tokens targetID with ⟨e, hdel⟩ | ⟨r, s', hdel, -, husers⟩
      · simpa only [Accounts.sem, Accounts.exec, hdel] using h
      · simp only [Accounts.sem, Accounts.exec, hdel, DB.hasUser, husers, List.any_eq_true] at h ⊢
        obtain ⟨u, hu, hid⟩ := h
        exact ⟨u, List.mem_of_mem_filter hu, hid⟩

theorem deleted_user_gone {targetID : Int} {tr : List (TokenOp × Bool)} {r : DeletionResult}
    (hrun : ((TokenCall.deleteUser targetID).prog hash).Runs Accounts.sem s tr (.deleted (.ok r)) s') :
    s'.registry.db.hasUser targetID = false := by
  obtain ⟨fails, tr', rfl, -, hres, rfl⟩ := hrun
  cases fails with
  | true => cases hres
  | false =>
    rcases s.deleteCascade_tokens targetID with ⟨e, hdel⟩ | ⟨_, s', hdel, -, husers⟩
    · simp only [Accounts.sem, Accounts.exec, hdel] at hres
      cases hres
    · simp only [Accounts.sem, Accounts.exec, hdel, DB.hasUser, husers]
      simp

/-- A token whose digest the accounts hold is not issued again. -/
theorem Shows.not_issues (h : Shows hash p (some x) s) {c : TokenCall} {tr : List (TokenOp × Bool)}
    {reply : TokenReply} (hrun : (c.prog hash).Runs Accounts.sem s tr reply s') :
    ¬TokenEvent.Issues p (c, reply) := by
  rintro ⟨userID, now, text, heq⟩
  obtain ⟨rfl, rfl⟩ := Prod.mk.inj heq
  obtain ⟨_, _, res, _, rfl, hrun, -, hres, rfl⟩ := runs_bind.mp hrun
  obtain rfl := TokenReply.issued.inj hres
  rcases issueToken_runs hrun with ⟨e, he, -⟩ | ⟨-, hfresh, -, -⟩
  · cases he
  have hrow := h.row
  cases hfind : s.refreshTokens.find? (·.tokenHash = hash p) with
  | none =>
    rw [hfind] at hrow
    cases hrow
  | some row =>
    exact hfresh row (List.mem_of_find?_eq_some hfind) (by simpa using List.find?_some hfind)

theorem Accounts.History.life_of_issued (h : Accounts.History hash s₀ trace s)
    (h₀ : s₀.refreshTokens = []) (ha : ∀ x ∈ trace, OwnDigest hash p x.1)
    (hy : ∀ x ∈ trace, ∀ now ∈ x.1.clock, InYears (truncateSecond now + refreshTTL))
    {userID : Int} (hissued : Issued p userID now since trace)
    (huser : s.registry.db.hasUser userID = true) :
    ∃ x, life p trace = some x ∧ x.userID = userID ∧ Since p now since x := by
  obtain ⟨text, earlier, htrace⟩ := hissued
  induction since generalizing trace s with
  | nil =>
    subst htrace
    exact ⟨_, if_pos rfl, rfl, since_issued p userID now⟩
  | cons y since ih =>
    subst htrace
    cases h with
    | call hprev c hrun =>
      have ha' := fun x hx => ha x (List.mem_cons_of_mem _ hx)
      have hy' := fun x hx => hy x (List.mem_cons_of_mem _ hx)
      obtain ⟨x, hx, rfl, hsince⟩ := ih hprev ha' hy' (hasUser_of_runs hrun huser) rfl
      have hshows := hprev.shows h₀ ha' hy'
      have hnew := (hx ▸ hshows).not_issues hrun
      rw [List.cons_append, life_cons]
      rw [show life p (since ++ _) = some x from hx]
      cases hafter : Life.after p (c, _) (some x) with
      | none =>
        obtain ⟨r, heq⟩ := Life.after_eq_none hafter
        obtain ⟨rfl, rfl⟩ := Prod.mk.inj heq
        rw [deleted_user_gone hrun] at huser
        cases huser
      | some x' =>
        obtain ⟨huid, hsince'⟩ := hsince.after hnew hafter
        exact ⟨x', rfl, huid, hsince'⟩

end

/-! ### revocation against validations in flight -/

def Dead (digest : String) (s : Accounts) : Prop :=
  ∀ row ∈ s.refreshTokens, row.tokenHash = digest → row.revokedAt.isSome = true

def inserts (digest : String) : TokenOp → Bool
  | .insert _ tokenHash _ _ => tokenHash = digest
  | _ => false

variable {digest : String}

theorem Dead.updateLive (h : Dead digest s) (k : String) {set : RefreshToken → RefreshToken}
    (hset : ∀ row, (set row).tokenHash = row.tokenHash ∧
      (row.revokedAt.isSome = true → (set row).revokedAt.isSome = true)) :
    Dead digest (s.updateLive k set) := by
  intro row hrow hid
  obtain ⟨row, hmem, rfl⟩ := List.mem_map.mp hrow
  split_ifs at hid ⊢
  · rw [(hset row).1] at hid
    exact (hset row).2 (h row hmem hid)
  · exact h row hmem hid

theorem Dead.step (h : Dead digest s) {o : TokenOp} (ho : inserts digest o = false) (fails : Bool) :
    Dead digest (Accounts.sem o fails s).2 := by
  cases o with
  | insert userID tokenHash expiresAt createdAt =>
    cases fails with
    | true => exact h
    | false =>
      simp only [Accounts.sem, Accounts.exec, Accounts.insertToken]
      split_ifs
      · exact h
      · exact h
      · intro row hrow hid
        rcases List.mem_append.mp hrow with hold | hlast
        · exact h row hold hid
        · obtain rfl := List.mem_singleton.mp hlast
          simp only [inserts, decide_eq_false_iff_not] at ho
          exact absurd hid ho
  | select tokenHash => cases fails <;> exact h
  | slide tokenHash expiresAt =>
    cases fails with
    | true => exact h
    | false => exact h.updateLive _ fun _ => ⟨rfl, id⟩
  | revoke tokenHash text =>
    cases fails with
    | true => exact h
    | false => exact h.updateLive _ fun _ => ⟨rfl, fun _ => rfl⟩
  | deleteCascade targetID =>
    cases fails with
    | true => exact h
    | false =>
      rcases s.deleteCascade_tokens targetID with ⟨e, hdel⟩ | ⟨r, s', hdel, htokens, -⟩
      · simpa only [Accounts.sem, Accounts.exec, hdel] using h
      · simp only [Accounts.sem, Accounts.exec, hdel]
        intro row hrow hid
        rw [htokens] at hrow
        exact h row (List.mem_of_mem_filter hrow) hid

theorem dead_revoked (s : Accounts) (text : String) :
    Dead digest (s.updateLive digest fun row => { row with revokedAt := some text }) := by
  intro row hrow hid
  obtain ⟨row, hmem, rfl⟩ := List.mem_map.mp hrow
  split_ifs at hid ⊢ with hc
  · rfl
  · rw [Option.isSome_iff_ne_none]
    exact fun hnone => hc ⟨hid, hnone⟩

/-- The calls at their start, each a thread of its own. -/
abbrev TokenCall.threads {τ : Type} (hash : String → String) (calls : τ → TokenCall) (s : Accounts) :
    Config τ (Prog TokenOp TokenOp.Result TokenReply) Accounts := ⟨fun t => (calls t).prog hash, s⟩

theorem TokenCall.prog_only (c : TokenCall)
    (h : ∀ userID q now, c = .issue userID q now → hash q ≠ digest) :
    (c.prog hash).Only fun o => inserts digest o = false := by
  cases c with
  | issue userID q now => exact ⟨decide_eq_false (h userID q now rfl), fun _ => trivial⟩
  | validate q now =>
    apply Only.bind
    · refine ⟨rfl, ?_⟩
      rintro (e | _ | row)
      · trivial
      · trivial
      · dsimp only
        split_ifs
        · trivial
        cases parseRFC3339 row.expiresAt with
        | none => trivial
        | some exp =>
          dsimp only
          split_ifs
          · trivial
          · exact ⟨rfl, fun r => by cases r <;> trivial⟩
    · exact fun _ => trivial
  | revoke q now => exact ⟨rfl, fun _ => trivial⟩
  | deleteUser targetID => exact ⟨rfl, fun _ => trivial⟩

section
variable {τ : Type} [DecidableEq τ] {c : Config τ (Prog TokenOp TokenOp.Result TokenReply) Accounts}
  {u : τ}

theorem step_returned {reply : TokenReply} (h : c.threads u = .pure reply) (t : τ) (fails : Bool) :
    (c.step (machine Accounts.sem) t fails).threads u = .pure reply := by
  by_cases htu : u = t
  · rw [htu, Config.step_self, ← htu, h]
    rfl
  · rw [Config.step_other c htu, h]

theorem Dead.config_step (h : Dead digest c.shared)
    (hc : ∀ t, (c.threads t).Only fun o => inserts digest o = false) (t : τ) (fails : Bool) :
    Dead digest (c.step (machine Accounts.sem) t fails).shared := by
  have ht := hc t
  rw [Config.step_shared]
  cases hop : c.threads t with
  | pure a => exact h
  | op o k =>
    rw [hop] at ht
    exact h.step ht.1 fails

theorem dead_of_revoked (hc : ∀ t, (c.threads t).Only fun o => inserts (hash p) o = false) {now : Int}
    (hu : c.threads u = (TokenCall.revoke p now).prog hash) (sched : List (τ × Bool))
    (hdone : (c.exec (machine Accounts.sem) sched).threads u = .pure (.revoked (.ok ()))) :
    Dead (hash p) (c.exec (machine Accounts.sem) sched).shared := by
  -- until the update is made the thread is at its start, and it may fail there
  have hstate : c.threads u = (TokenCall.revoke p now).prog hash ∨
      (∃ e, c.threads u = .pure (.revoked (.error e))) ∨ Dead (hash p) c.shared := .inl hu
  clear hu
  induction sched generalizing c with
  | nil =>
    rcases hstate with hu | ⟨e, hu⟩ | hdead
    · rw [show c.threads u = _ from hdone] at hu
      cases hu
    · rw [show c.threads u = _ from hdone] at hu
      cases hu
    · exact hdead
  | cons x sched ih =>
    obtain ⟨t, fails⟩ := x
    apply ih
    · exact fun v => Only.exec (hc v) [(t, fails)]
    · exact hdone
    · rcases hstate with hu | ⟨e, hu⟩ | hdead
      · by_cases htu : u = t
        · subst htu
          rw [Config.step_self, Config.step_shared, hu]
          cases fails with
          | true => exact .inr (.inl ⟨_, rfl⟩)
          | false => exact .inr (.inr (dead_revoked c.shared _))
        · rw [Config.step_other c htu]
          exact .inl hu
      · exact .inr (.inl ⟨e, step_returned hu t fails⟩)
      · exact .inr (.inr (hdead.config_step hc t fails))

/-- A validation that begins with the digest dead does not succeed. -/
theorem not_validated_of_dead (hc : ∀ t, (c.threads t).Only fun o => inserts (hash p) o = false)
    {now : Int} (hu : c.threads u = (TokenCall.validate p now).prog hash)
    (hdead : Dead (hash p) c.shared)
    (sched : List (τ × Bool)) (userID : Int) :
    (c.exec (machine Accounts.sem) sched).threads u ≠ .pure (.validated (.ok userID)) := by
  -- the call has yet to read the row, or has failed; a row read after the revocation is dead
  have hstate : c.threads u = (TokenCall.validate p now).prog hash ∨
      ∃ e, c.threads u = .pure (.validated (.error e)) := .inl hu
  clear hu
  induction sched generalizing c with
  | nil =>
    intro hdone
    rcases hstate with hu | ⟨e, hu⟩
    · rw [show c.threads u = _ from hdone] at hu
      cases hu
    · rw [show c.threads u = _ from hdone] at hu
      cases hu
  | cons x sched ih =>
    obtain ⟨t, fails⟩ := x
    apply ih
    · exact fun v => Only.exec (hc v) [(t, fails)]
    · exact hdead.config_step hc t fails
    · rcases hstate with hu | ⟨e, hu⟩
      · by_cases htu : u = t
        · subst htu
          right
          rw [Config.step_self, hu]
          cases fails with
          | true => exact ⟨_, rfl⟩
          | false =>
            simp only [TokenCall.prog, validateToken, op_bind, machine, Accounts.sem, Accounts.exec]
            cases hrow : c.shared.refreshTokens.find? (·.tokenHash = hash p) with
            | none => exact ⟨_, rfl⟩
            | some row =>
              have hid : row.tokenHash = hash p := by simpa using List.find?_some hrow
              simp only [hdead row (List.mem_of_find?_eq_some hrow) hid, if_true]
              exact ⟨_, rfl⟩
        · rw [Config.step_other c htu]
          exact .inl hu
      · exact .inr ⟨e, step_returned hu t fails⟩

end

theorem lastValidated_mem {since : List TokenEvent} {v : Int} (h : lastValidated p since = some v) :
    ∃ now userID, (TokenCall.validate p now, TokenReply.validated (.ok userID)) ∈ since ∧
      v = truncateSecond now := by
  induction since with
  | nil => cases h
  | cons y since ih =>
    by_cases hval : ∀ now userID, y ≠ (.validate p now, .validated (.ok userID))
    · rw [lastValidated_cons hval] at h
      obtain ⟨now, userID, hmem, hv⟩ := ih h
      exact ⟨now, userID, List.mem_cons_of_mem _ hmem, hv⟩
    · push Not at hval
      obtain ⟨now, userID, rfl⟩ := hval
      rw [lastValidated, if_pos rfl] at h
      exact ⟨now, userID, List.mem_cons_self, (Option.some.inj h).symm⟩

/-- On a clock that does not go back the last validation is later than the issue. -/
theorem lastUse_eq_max {trace since : List TokenEvent} {userID issuedAt : Int}
    (hissued : Issued p userID issuedAt since trace)
    (hclock : (trace.filterMap (·.1.clock)).Pairwise fun later earlier => earlier ≤ later) :
    (lastValidated p since).getD (truncateSecond issuedAt) =
      max (truncateSecond issuedAt) ((lastValidated p since).getD (truncateSecond issuedAt)) := by
  refine (max_eq_right ?_).symm
  cases hv : lastValidated p since with
  | none => exact le_rfl
  | some v =>
    obtain ⟨now, uid, hmem, rfl⟩ := lastValidated_mem hv
    obtain ⟨text, earlier, rfl⟩ := hissued
    rw [List.filterMap_append] at hclock
    have hle := (List.pairwise_append.mp hclock).2.2 now (List.mem_filterMap.mpr ⟨_, hmem, rfl⟩) issuedAt
      (List.mem_filterMap.mpr ⟨_, List.mem_cons_self, rfl⟩)
    exact Int.ediv_le_ediv (by decide) hle

/-- A refresh token is accepted for thirty days after its issue or last use, while its user
exists and nobody has revoked it; a validation begun after a revocation is refused, whatever
else is in flight. -/
theorem refresh_token_life_cycle (hash : String → String) (p : String) :
    (∀ s₀ s trace, s₀.refreshTokens = [] → Accounts.History hash s₀ trace s →
      (trace.filterMap (·.1.clock)).Pairwise (fun later earlier => earlier ≤ later) →
      (∀ x ∈ trace, OwnDigest hash p x.1) →
      (∀ x ∈ trace, ∀ now ∈ x.1.clock, InYears (truncateSecond now + refreshTTL)) →
      ∀ now userID, ((validateToken hash p now).run Accounts.sem false s).1 = .ok userID ↔
        ∃ issuedAt since, Issued p userID issuedAt since trace ∧
          s.registry.db.hasUser userID = true ∧ ¬Revoked p since ∧
          truncateSecond now < max (truncateSecond issuedAt)
            ((lastValidated p since).getD (truncateSecond issuedAt)) + refreshTTL) ∧
    ∀ (τ : Type) [DecidableEq τ] (calls : τ → TokenCall) (s₀ : Accounts)
      (earlier during later : List (τ × Bool)) (revoker validator : τ) (revokedAt now : Int),
      calls revoker = .revoke p revokedAt → calls validator = .validate p now →
      -- a token is revoked once it has been handed out
      (∀ t userID q issuedAt, calls t = .issue userID q issuedAt → hash q = hash p → ∃ reply,
        ((TokenCall.threads hash calls s₀).exec (machine Accounts.sem) earlier).threads t =
          .pure reply) →
      ((TokenCall.threads hash calls s₀).exec (machine Accounts.sem) earlier).threads revoker =
        (calls revoker).prog hash →
      ((TokenCall.threads hash calls s₀).exec (machine Accounts.sem)
        (earlier ++ during)).threads revoker =
        .pure (.revoked (.ok ())) →
      ((TokenCall.threads hash calls s₀).exec (machine Accounts.sem)
        (earlier ++ during)).threads validator =
        (calls validator).prog hash →
      ∀ userID, ((TokenCall.threads hash calls s₀).exec (machine Accounts.sem)
        (earlier ++ during ++ later)).threads validator ≠ .pure (.validated (.ok userID)) := by
  constructor
  · intro s₀ s trace h₀ hhistory hclock hown hyears now userID
    -- the row in the database is the life of the token as the history tells it
    have hshows := hhistory.shows h₀ hown hyears
    rw [hshows.validate_iff]
    constructor
    · rintro ⟨x, hx, rfl, hrevoked, hlt⟩
      obtain ⟨issuedAt, since, hissued, hsince⟩ := issued_of_life hx
      refine ⟨issuedAt, since, hissued, ?_, ?_, ?_⟩
      · have hrow := hshows.row
        rw [hx] at hrow
        obtain ⟨row, hfind, heq⟩ := Option.map_eq_some_iff.mp hrow
        rw [← (Prod.mk.inj heq).1]
        exact hshows.user row (List.mem_of_find?_eq_some hfind)
      · intro hr
        rw [hsince.1.mpr hr] at hrevoked
        cases hrevoked
      · rwa [← lastUse_eq_max hissued hclock, ← hsince.2]
    · rintro ⟨issuedAt, since, hissued, huser, hrevoked, hlt⟩
      obtain ⟨x, hx, huid, hsince⟩ := hhistory.life_of_issued h₀ hown hyears hissued huser
      refine ⟨x, hx, huid, ?_, ?_⟩
      · by_contra hr
        exact hrevoked (hsince.1.mp (by simpa using hr))
      · rwa [← lastUse_eq_max hissued hclock, ← hsince.2] at hlt
  · intro τ _ calls s₀ earlier during later revoker validator revokedAt now hrevoker hvalidator hissued
      hbegin hdone hwaits userID
    rw [hrevoker] at hbegin
    rw [hvalidator] at hwaits
    -- nobody inserts the token from now on: its issue is over, and other texts have other digests
    have honly : ∀ t, (((TokenCall.threads hash calls s₀).exec (machine Accounts.sem) earlier).threads
        t).Only fun o => inserts (hash p) o = false := by
      intro t
      by_cases ht : ∃ userID q issuedAt, calls t = .issue userID q issuedAt ∧ hash q = hash p
      · obtain ⟨userID, q, issuedAt, hcall, hq⟩ := ht
        obtain ⟨reply, hreply⟩ := hissued t userID q issuedAt hcall hq
        rw [hreply]
        trivial
      · refine Only.exec (TokenCall.prog_only _ fun userID q issuedAt hcall hq => ?_) earlier
        exact ht ⟨userID, q, issuedAt, hcall, hq⟩
    rw [Config.exec_append] at hdone hwaits
    have hdead := dead_of_revoked honly hbegin during hdone
    rw [Config.exec_append, Config.exec_append]
    exact not_validated_of_dead (fun t => Only.exec (honly t) during) hwaits hdead later userID

def labToken : String := "AAECAwQFBgcICQoLDA0ODxAREhMUFRYXGBkaGxwdHh8"

/-- The digest of the one token there is. -/
def labHash (q : String) : String :=
  if q = labToken then "ea866a757e4c38babfa8127cbe9a409d3e1f93a00ff1488ff735fcf917afffd0" else ""

def labAccounts : Accounts :=
  ⟨⟨{ DB.empty with users := [⟨1, "ada", "", true⟩], seqUsers := 1 }, ⟨[], 0⟩⟩, [], 0⟩

def labIssued : Accounts :=
  (((TokenCall.issue 1 labToken 0).prog labHash).run Accounts.sem false labAccounts).2

def labCalls : Bool → TokenCall
  | true => .revoke labToken 0
  | false => .validate labToken 0

theorem refresh_token_life_cycle_lab :
    ((validateToken labHash labToken (86400 * second)).run Accounts.sem false labIssued).1 = .ok 1 ∧
      ((TokenCall.threads labHash labCalls labIssued).exec (machine Accounts.sem)
        [(true, false), (false, false)]).threads false ≠ .pure (.validated (.ok 1)) := by
  obtain ⟨hlife, hrace⟩ := refresh_token_life_cycle labHash labToken
  constructor
  · obtain ⟨tr, hrun, -⟩ : ∃ tr, ((TokenCall.issue 1 labToken 0).prog labHash).Runs Accounts.sem
        labAccounts tr (.issued (.ok labToken)) labIssued ∧ ∀ x ∈ tr, x.2 = false :=
      runs_const_iff.mpr rfl
    have hone : ∀ x ∈ [(TokenCall.issue 1 labToken 0, TokenReply.issued (.ok labToken))],
        x.1 = .issue 1 labToken 0 := by simp
    refine (hlife labAccounts labIssued _ rfl (.call .start _ hrun) (List.pairwise_singleton ..) ?_ ?_
      (86400 * second) 1).mpr ⟨0, [], ⟨labToken, [], rfl⟩, rfl, ?_, ?_⟩
    · intro x hx q hq _
      rw [hone x hx] at hq
      exact (Option.some.inj hq).symm
    · intro x hx now hnow
      rw [hone x hx] at hnow
      obtain rfl : (0 : Int) = now := Option.some.inj hnow
      exact ⟨by decide, by decide⟩
    · exact fun hr => absurd hr.choose_spec List.not_mem_nil
    · decide
  · refine hrace Bool labCalls labIssued [] [(true, false)]
      [(false, false)] true false 0 0 rfl rfl ?_ rfl
      rfl rfl 1
    intro t userID q issuedAt hcall
    cases t <;> cases hcall

end LanWeave

import LanWeave.Client.AtMostOnce
import LanWeave.Library.History
import LanWeave.Server.Jwt
import LanWeave.Server.SignIn
import LanWeave.Server.TokenLife

/-! A session in use: a client that has signed in makes call after call, each let in by its session
token or after a renewal of it, on a server that keeps the refresh tokens of everybody. -/

namespace LanWeave
open Library Prog

/-! ### the server behind the wire -/

/-- What else happens to the accounts between two requests of a client. -/
inductive Elsewhere
  /-- A call on the tokens, of whose operations all fail or none. -/
  | token (c : TokenCall) (fails : Bool)
  | registry (change : Registry → Registry)

def Elsewhere.run (hash : String → String) (s : Accounts) : Elsewhere → Accounts
  | token c fails => ((c.prog hash).run Accounts.sem fails s).2
  | registry change => { s with registry := change s.registry }

/-- A request as the world has it: its time on the server, the certificate in front of that, what
crypto/rand yields, what the rest of a handler is answered, and what has happened before it. -/
structure Moment where
  now : Int
  inYears : InYears (truncateSecond now + refreshTTL)
  fingerprint : String
  verifies : Bool
  salt : Option String
  /-- The text of the refresh token that would be drawn. -/
  drawn : String
  drawn_ne : drawn ≠ ""
  acts : ℕ → (a : Act) → a.Res
  host : (o : HostOp) → o.Result
  before : List Elsewhere

/-- The accounts as the request finds them. -/
def Moment.finds (hash : String → String) (e : Moment) (s : Accounts) : Accounts :=
  e.before.foldl (Elsewhere.run hash) s

namespace SignIn

/-- The handler of a request in front of the sign-in; the others have an endpoint behind it. -/
def serve {κ : Type} (h : Server κ) (salt : Option String) : ApiCall → SignIn SignInAnswer
  | .login username password => login h (some ⟨username, password⟩)
  | .register inviteCode username password => register h (some ⟨inviteCode, username, password⟩) salt
  | .refresh token => refresh (some ⟨token⟩)
  | .logout token => logout (some ⟨token⟩)
  | _ => refuse (notFound "Not found.")

end SignIn

/-- What the client reads from the answer. -/
def SignInAnswer.wire : (call : ApiCall) → SignInAnswer → HttpResponse call.Body
  | call, .refused r => (Answer.plain r).wire call
  | .login .., .login token refreshToken => .ok (some ⟨token, refreshToken⟩)
  | .refresh _, .refreshed token => .ok (some token)
  | .register .., .registered .. => .ok (some ())
  | .logout _, .revoked => .ok (some ())
  | _, _ => .ok none

section
variable {κ : Type} (h : Handlers κ) (m : JWTManager) (hash : String → String)

/-- What the endpoints in front of the sign-in ask of the store and of the token issuer. -/
def signInSem : Semantics SignInOp SignInOp.Result Moment Accounts
  | .getByUsername username, _, s =>
    (.ok (s.registry.db.users.find? fun u => nocase u.username = nocase username), s)
  | .getByID userID, _, s => (.ok (s.registry.db.users.find? (·.id = userID)), s)
  | .issueJWT id, e, s => (m.issue id e.now, s)
  | .issueRefresh userID, e, s => (issueToken hash userID e.drawn e.now).run Accounts.sem false s
  | .validateRefresh token, e, s => (validateToken hash token e.now).run Accounts.sem false s
  | .revokeRefresh token, e, s => (revokeToken hash token e.now).run Accounts.sem false s
  | .register username passwordHash inviteCode, e, s =>
    match s.registry.register username passwordHash inviteCode e.now with
    | (.error err, registry) => (.error (some err), { s with registry := registry })
    | (.ok u, registry) => (.ok u, { s with registry := registry })

/-- A request that arrives and whose answer comes back; the number counts what its handler has
asked for so far. -/
def wireSem : Semantics WireOp WireOp.Result Moment (Accounts × ℕ)
  | .send _ _, e, (s, n) => (.routed e.fingerprint e.verifies e.salt, e.finds hash s, n)
  | .verify token, e, s => (m.authorized ("Bearer " ++ token) e.now, s)
  | .enter _, _, s => ((), s)
  | .act a, e, (s, n) => (e.acts n a, s, n + 1)
  | .signIn call, e, (s, n) =>
    let r := (SignIn.serve h.toServer e.salt call).run (signInSem m hash) e s
    (r.1.wire call, r.2, n)
  | .deliver, _, s => (.whole, s)
  | .host o, e, s => (e.host o, s)

/-- The requests of one call of the client, each at its moment. -/
def exchangeSem : Semantics HostOp HostOp.Result (ℕ → Moment) (Accounts × ℕ)
  | .http c call, moments, (s, n) =>
    let r := (Wire.exchange h c call).run (wireSem h m hash) (moments n) (s, 0)
    (r.1, r.2.1, n + 1)
  | o, moments, (s, n) => ((moments n).host o, s, n)

/-- A call behind the sign-in, and the moments of the requests that it may come to: the first, that
of the renewal, and that of the second try. -/
structure Use where
  call : ApiCall
  auth : call.auth = true
  moments : ℕ → Moment

/-- Whether the call is let in, with the client and the accounts after it. -/
def Use.make (x : ApiClient × Accounts) (use : Use) : Bool × ApiClient × Accounts :=
  let r := (Cli.request x.1 use.call).run (exchangeSem h m hash) use.moments (x.2, 0)
  (!Cli.expired r.1.1, r.1.2, r.2.1)

end

/-! ### the lease of a session -/

/-- What a session lives on: when its token was issued, and the second in which its refresh token
was last used. -/
structure Lease where
  issuedAt : Int
  lastUse : Int
deriving DecidableEq

namespace Lease

/-- The lease of a session that is begun or renewed. -/
def begun (now : Int) : Lease := ⟨now, truncateSecond now⟩

def valid (ttl : Int) (x : Lease) (now : Int) : Bool :=
  truncateSecond now < truncateSecond (x.issuedAt + ttl)

def renewable (x : Lease) (now : Int) : Bool := truncateSecond now < x.lastUse + refreshTTL

/-- Whether a call is let in whose requests come at these times, and the lease after it. -/
def use (ttl : Int) (x : Lease) (clock : ℕ → Int) : Bool × Lease :=
  if x.valid ttl (clock 0) then (true, x)
  else if x.renewable (clock 1) then ((begun (clock 1)).valid ttl (clock 2), .begun (clock 1))
  else (false, x)

/-- The times of a call that comes within `gap` of the first request of the last call, at `last`,
and whose second try comes while the renewed token is fresh. -/
structure Frequent (ttl gap last : Int) (clock : ℕ → Int) : Prop where
  soon : clock 1 ≤ last + gap
  forward : clock 0 ≤ clock 1
  prompt : clock 2 + second ≤ clock 1 + ttl

section
variable {ttl gap last : Int} {x : Lease} {clocks : List (ℕ → Int)}

theorem valid_begun {now later : Int} (h : later + second ≤ now + ttl) :
    (Lease.begun now).valid ttl later = true := by
  have hle := truncateSecond_le h
  rw [← one_mul second, truncateSecond_add] at hle
  exact decide_eq_true (by show truncateSecond later < truncateSecond (now + ttl); omega)

theorem use_frequent {clock : ℕ → Int} (hbound : gap + ttl + second ≤ refreshTTL * second)
    (httl : 0 ≤ ttl)
    (hx : x.lastUse = truncateSecond x.issuedAt) (hlast : last ≤ x.issuedAt + ttl)
    (h : Frequent ttl gap last clock) :
    (x.use ttl clock).1 = true ∧ (x.use ttl clock).2.lastUse =
      truncateSecond (x.use ttl clock).2.issuedAt ∧
      clock 0 ≤ (x.use ttl clock).2.issuedAt + ttl := by
  obtain ⟨hsoon, hforward, hprompt⟩ := h
  rw [use]
  split_ifs with hvalid hrenew
  · have hlt : truncateSecond (clock 0) < truncateSecond (x.issuedAt + ttl) := of_decide_eq_true hvalid
    refine ⟨rfl, hx, ?_⟩
    show clock 0 ≤ x.issuedAt + ttl
    by_contra hlate
    exact absurd hlt (not_lt.mpr (truncateSecond_le (by omega)))
  · refine ⟨valid_begun hprompt, rfl, ?_⟩
    show clock 0 ≤ clock 1 + ttl
    omega
  · -- the refresh token was last used when this token was issued
    refine absurd (decide_eq_true ?_) hrenew
    have hle : truncateSecond (clock 1 + 1 * second) ≤ truncateSecond
      (x.issuedAt + refreshTTL * second) :=
      truncateSecond_le (by omega)
    rw [truncateSecond_add, truncateSecond_add] at hle
    omega

theorem answers_frequent (hbound : gap + ttl + second ≤ refreshTTL * second) (httl : 0 ≤ ttl)
    (hx : x.lastUse = truncateSecond x.issuedAt) (hlast : last ≤ x.issuedAt + ttl)
    (hclocks : clocks.IsChain fun clock clock' => Frequent ttl gap (clock 0) clock')
    (hhead : ∀ clock ∈ clocks.head?, Frequent ttl gap last clock) :
    ∀ b ∈ answers (use ttl) x clocks, b = true := by
  induction clocks generalizing x last with
  | nil => exact fun _ hb => nomatch hb
  | cons clock clocks ih =>
    obtain ⟨hanswer, hx', hlast'⟩ := use_frequent hbound httl hx hlast (hhead clock rfl)
    have hnext : ∀ clock' ∈ clocks.head?, Frequent ttl gap (clock 0) clock' := by
      intro clock' hmem
      cases clocks with
      | nil => cases hmem
      | cons _ _ =>
        obtain rfl := Option.some.inj hmem
        exact hclocks.rel
    intro b hb
    rcases List.mem_cons.mp hb with rfl | hb
    · exact hanswer
    · exact ih hx' hlast' hclocks.tail hnext b hb

/-- Where a refresh token dies before the session token that it would renew, no use prolongs the
session. -/
theorem answers_unrenewed (hlong : refreshTTL * second ≤ ttl)
    (hx : x.lastUse = truncateSecond x.issuedAt)
    (hforward : ∀ clock ∈ clocks, clock 0 ≤ clock 1) :
    answers (use ttl) x clocks = clocks.map fun clock => x.valid ttl (clock 0) := by
  have huse (clock : ℕ → Int) (h : clock 0 ≤ clock 1) :
    x.use ttl clock = (x.valid ttl (clock 0), x) := by
    rw [use]
    split_ifs with hvalid hrenew
    · rw [hvalid]
    · have hlt : truncateSecond (clock 1) < x.lastUse + refreshTTL := of_decide_eq_true hrenew
      have hle := truncateSecond_le h
      have hends : truncateSecond (x.issuedAt + refreshTTL * second) ≤ truncateSecond
        (x.issuedAt + ttl) :=
        truncateSecond_le (by omega)
      rw [truncateSecond_add] at hends
      refine absurd (decide_eq_true ?_) hvalid
      omega
    · rw [Bool.eq_false_iff.mpr hvalid]
  induction clocks with
  | nil => rfl
  | cons clock clocks ih =>
    rw [answers, huse clock (hforward clock List.mem_cons_self), List.map_cons]
    congr 1
    exact ih fun clock' hmem => hforward clock' (List.mem_cons_of_mem _ hmem)

end
end Lease

/-! ### what happens elsewhere -/

/-- It has nothing to do with the refresh token `p` or its user. -/
def Elsewhere.Apart (hash : String → String) (p : String) (userID : Int) : Elsewhere → Prop
  | token c _ => OwnDigest hash p c ∧ c.text ≠ some p ∧ c ≠ .deleteUser userID ∧
      ∀ now ∈ c.clock, InYears (truncateSecond now + refreshTTL)
  | registry change => ∀ r id, r.db.hasUser id = true → (change r).db.hasUser id = true

section
variable {hash : String → String} {p : String} {s : Accounts} {x : Life}

theorem Life.after_apart {c : TokenCall} (htext : c.text ≠ some p) (huser : c ≠ .deleteUser x.userID)
    (reply : TokenReply) : Life.after p (c, reply) (some x) = some x := by
  rw [Life.after.eq_def]
  split
  · next heq =>
    cases heq
    exact if_neg fun hq => htext (congrArg some hq)
  · next heq =>
    cases heq
    exact if_neg fun hq => htext (congrArg some hq)
  · next heq =>
    cases heq
    exact if_neg fun hq => htext (congrArg some hq)
  · next targetID _ heq =>
    cases heq
    have hne : x.userID ≠ targetID := fun heq => huser (by rw [heq])
    simp [Option.filter, hne]
  · rfl

theorem Elsewhere.shows {y : Elsewhere} (h : Shows hash p (some x) s) (hy : y.Apart hash p x.userID) :
    Shows hash p (some x) (y.run hash s) := by
  cases y with
  | token c fails =>
    obtain ⟨hown, htext, huser, hyears⟩ := hy
    obtain ⟨tr, hruns, -⟩ := runs_const_iff.mpr (rfl : (c.prog hash).run Accounts.sem fails s = _)
    have hcall := h.call hown hyears hruns
    rwa [Life.after_apart htext huser] at hcall
  | registry change =>
    exact { keyed := h.keyed, user := fun row hrow => hy _ _ (h.user row hrow), row := h.row
            years := h.years }

theorem Shows.moment {e : Moment} (h : Shows hash p (some x) s)
    (he : ∀ y ∈ e.before, y.Apart hash p x.userID) : Shows hash p (some x) (e.finds hash s) := by
  unfold Moment.finds
  generalize e.before = ys at he
  induction ys generalizing s with
  | nil => exact h
  | cons y ys ih =>
    exact ih (y.shows h (he y List.mem_cons_self)) fun z hz => he z (List.mem_cons_of_mem _ hz)

end

/-! ### one request -/

section
variable {κ : Type} {h : Handlers κ} {m : JWTManager} {hash : String → String} {c : ApiClient}
  {call : ApiCall} {e : Moment} {s : Accounts}

theorem endpoint_of_auth (hauth : call.auth = true) (salt : Option String) :
    ∃ endpoint, call.endpoint salt = some endpoint := by
  cases call <;> first | exact ⟨_, rfl⟩ | cases hauth

theorem run_body {α : Type} (body : Service α) (n : ℕ) :
    ((body.lift WireOp.act : Wire α).run (wireSem h m hash) e (s, n)).2.1 = s := by
  induction body generalizing n with
  | pure a => rfl
  | op a k ih => exact ih _ (n + 1)

/-- Behind the sign-in a request is answered as expired exactly when its token is not let in. -/
theorem run_exchange (hauth : call.auth = true) (htrust : c.accepts e.fingerprint e.verifies = true) :
    Cli.expired (c.outcome call ((Wire.exchange h c call).run (wireSem h m hash) e (s, 0)).1) =
        (m.authorized ("Bearer " ++ c.token) e.now).isNone ∧
      ((Wire.exchange h c call).run (wireSem h m hash) e (s, 0)).2.1 = e.finds hash s := by
  obtain ⟨endpoint, hendpoint⟩ := endpoint_of_auth hauth e.salt
  have hexchange : (Wire.exchange h c call).run (wireSem h m hash) e (s, 0) =
      ((Wire.authRequired h c.token call endpoint >>= fun a => do
        return Wire.delivered e.fingerprint e.verifies (a.wire call) (← Wire.perform .deliver)).run
          (wireSem h m hash) e (e.finds hash s, 0)) := by
    show (Wire.arrived h c call (.routed e.fingerprint e.verifies e.salt)).run _ _ _ = _
    rw [Wire.arrived, htrust]
    simp only [Bool.not_true, Bool.false_eq_true, if_false, hendpoint]
    rfl
  rw [hexchange, run_bind]
  cases hid : m.authorized ("Bearer " ++ c.token) e.now with
  | none =>
    have hrun : (Wire.authRequired h c.token call endpoint).run (wireSem h m hash) e
      (e.finds hash s, 0) =
        (.plain (writeJSONError 401 "unauthorized" "Authentication required."), e.finds hash s, 0) := by
      simp only [Wire.authRequired, Wire.perform, op_bind, pure_bind, run_op, wireSem, hid]
      rfl
    rw [hrun]
    refine ⟨?_, rfl⟩
    apply (Wire.expired_iff hauth).mpr
    exact ⟨e.fingerprint, e.verifies, "unauthorized", "Authentication required.",
      congrArg _ (Wire.wire_error rfl), htrust, rfl⟩
  | some i =>
    have hrun : (Wire.authRequired h c.token call endpoint).run (wireSem h m hash) e
      (e.finds hash s, 0) =
        ((answer h (some i) endpoint).lift WireOp.act : Wire Answer).run (wireSem h m hash) e
          (e.finds hash s, 0) := by
      simp only [Wire.authRequired, Wire.perform, op_bind, pure_bind, run_op, wireSem, hid]
    rw [hrun]
    refine ⟨?_, run_body _ 0⟩
    have hreturns : ((answer h (some i) endpoint).lift WireOp.act :
      Wire Answer).Returns AnswerReported := by
      apply Returns.lift
      exact answer_reported endpoint
    have hreported : AnswerReported (((answer h (some i) endpoint).lift WireOp.act : Wire Answer).run
        (wireSem h m hash) e (e.finds hash s, 0)).1 := hreturns.always.run e
    rw [Option.isNone_some, Bool.eq_false_iff]
    intro hexp
    exact Wire.not_expired_delivered hreported e.fingerprint e.verifies .whole
      ((Wire.expired_iff hauth).mp hexp)

theorem run_refresh_live {p : String} {x : Life} (hjwt : m.jwt.Lawful) (hp : p ≠ "")
    (hshows : Shows hash p (some x) s) (hlive : x.revoked = false)
    (hbefore : truncateSecond e.now < x.lastUse + refreshTTL) :
    ∃ id token s', id.userID = x.userID ∧ m.issue id e.now = some token ∧
      (SignIn.refresh (some ⟨p⟩)).run (signInSem m hash) e s = (.refreshed token, s') ∧
      Shows hash p (some { x with lastUse := truncateSecond e.now }) s' := by
  have hvalid : ((validateToken hash p e.now).run Accounts.sem false s).1 = .ok x.userID :=
    hshows.validate_iff.mpr ⟨x, rfl, rfl, hlive, hbefore⟩
  have hslid : Shows hash p (some { x with lastUse := truncateSecond e.now })
      ((validateToken hash p e.now).run Accounts.sem false s).2 := by
    have hprog : ((TokenCall.validate p e.now).prog hash).run Accounts.sem false s =
        (.validated (.ok x.userID), ((validateToken hash p e.now).run Accounts.sem false s).2) := by
      show (validateToken hash p e.now >>= fun r => Prog.pure (TokenReply.validated r)).run _ _ _ = _
      rw [run_bind, run_pure, hvalid]
    obtain ⟨tr, hruns, -⟩ := runs_const_iff.mpr hprog
    have hown : OwnDigest hash p (.validate p e.now) := fun q hq _ => (Option.some.inj hq).symm
    have hcall := hshows.call hown (fun now hnow => Option.some.inj hnow ▸ e.inYears) hruns
    simpa only [Life.after, if_true, Option.map_some] using hcall
  generalize hrun : (validateToken hash p e.now).run Accounts.sem false s = r at hvalid hslid
  obtain ⟨res, s'⟩ := r
  obtain rfl : res = .ok x.userID := hvalid
  have huser : ∃ user, s'.registry.db.users.find? (·.id = x.userID) = some user ∧
    user.id = x.userID := by
    obtain ⟨row, hfind, heq⟩ := Option.map_eq_some_iff.mp hslid.row
    have hmem := hslid.user row (List.mem_of_find?_eq_some hfind)
    rw [(Prod.mk.inj heq).1] at hmem
    obtain ⟨user, hfound⟩ := Option.isSome_iff_exists.mp
      (List.find?_isSome.mpr (List.any_eq_true.mp hmem))
    exact ⟨user, hfound, by simpa using List.find?_some hfound⟩
  obtain ⟨user, hfound, hid⟩ := huser
  obtain ⟨token, hissue⟩ := Option.isSome_iff_exists.mp
    (JWTManager.issue_isSome hjwt ⟨user.id, user.username, user.isAdmin⟩ e.now)
  refine ⟨_, token, s', hid, hissue, ?_, hslid⟩
  simp only [SignIn.refresh, SignIn.decoded, if_neg hp, SignIn.perform, op_bind, Prog.pure_bind, run_op,
    signInSem, hrun, hfound, hissue]
  rfl

theorem run_refresh_stale {p : String} {x : Life} (hp : p ≠ "") (hshows : Shows hash p (some x) s)
    (hpast : ¬truncateSecond e.now < x.lastUse + refreshTTL) :
    ∃ r ∈ [SignIn.invalidRefreshToken, serverError],
      (SignIn.refresh (some ⟨p⟩)).run (signInSem m hash) e s = (.refused r, s) := by
  obtain ⟨⟨res, s'⟩, hrun⟩ : ∃ r, (validateToken hash p e.now).run Accounts.sem false s = r := ⟨_, rfl⟩
  obtain ⟨tr, hruns, -⟩ := runs_const_iff.mpr hrun
  rcases validateToken_runs hruns with ⟨err, rfl, rfl⟩ | ⟨row, exp, -, -, -, -, rfl, -⟩
  · refine ⟨if err = .invalid then SignIn.invalidRefreshToken else serverError, ?_, ?_⟩
    · split_ifs <;> simp
    · simp only [SignIn.refresh, SignIn.decoded, if_neg hp, SignIn.perform, op_bind,
        Prog.pure_bind, run_op,
        signInSem, hrun]
      cases err <;> rfl
  · obtain ⟨y, hy, -, -, hlt⟩ := hshows.validate_iff.mp (congrArg Prod.fst hrun)
    obtain rfl := Option.some.inj hy
    exact absurd hlt hpast

theorem run_exchange_signIn {a : SignInAnswer} {s' : Accounts} (hroute : call.endpoint e.salt = none)
    (htrust : c.accepts e.fingerprint e.verifies = true)
    (hserve : (SignIn.serve h.toServer e.salt call).run (signInSem m hash) e
      (e.finds hash s) = (a, s')) :
    (Wire.exchange h c call).run (wireSem h m hash) e (s, 0) =
      (.presented e.fingerprint e.verifies (a.wire call), s', 0) := by
  show (Wire.arrived h c call (.routed e.fingerprint e.verifies e.salt)).run _ _ _ = _
  rw [Wire.arrived, htrust]
  simp only [Bool.not_true, Bool.false_eq_true, if_false, hroute]
  show (Exchange.presented _ _ (SignInAnswer.wire call
    ((SignIn.serve h.toServer e.salt call).run _ _ _).1),
    ((SignIn.serve h.toServer e.salt call).run _ _ _).2, 0) = _
  rw [hserve]

theorem outcome_ok (htrust : c.accepts e.fingerprint e.verifies = true) (body : call.Body) :
    c.outcome call (.presented e.fingerprint e.verifies (.ok (some body))) = .ok body := by
  simp [ApiClient.outcome, htrust]

theorem outcome_status (htrust : c.accepts e.fingerprint e.verifies = true) (code : Nat)
    (error message : String) :
    c.outcome call (.presented e.fingerprint e.verifies (.status code error message)) =
      .error (mapError call code error message) := by
  simp [ApiClient.outcome, htrust]

/-! ### one call -/

/-- The client `c₀` has signed in as the user, and its session lives on the lease. -/
structure Holds (m : JWTManager) (hash : String → String) (c₀ : ApiClient) (userID : Int)
    (y : ApiClient × Accounts) (x : Lease) : Prop where
  client : ∃ id token, y.1 = { c₀ with token := token } ∧ id.userID = userID ∧
    m.issue id x.issuedAt = some token
  shows : Shows hash c₀.refreshToken (some ⟨userID, x.lastUse, false⟩) y.2

/-- At each of its moments the server is trusted, and what happens before is not about the session. -/
def Use.Fair (hash : String → String) (c₀ : ApiClient) (userID : Int) (use : Use) : Prop :=
  ∀ n, c₀.accepts (use.moments n).fingerprint (use.moments n).verifies = true ∧
    ∀ z ∈ (use.moments n).before, z.Apart hash c₀.refreshToken userID

def Use.clock (use : Use) (n : ℕ) : Int := (use.moments n).now

section
variable {c₀ : ApiClient} {userID : Int} {y : ApiClient × Accounts} {x : Lease} {use : Use}

theorem run_attempt (moments : ℕ → Moment) (n : ℕ) :
    (Cli.attempt c call).run (exchangeSem h m hash) moments (s, n) =
      (c.outcome call ((Wire.exchange h c call).run (wireSem h m hash) (moments n) (s, 0)).1,
        ((Wire.exchange h c call).run (wireSem h m hash) (moments n) (s, 0)).2.1, n + 1) := rfl

theorem authorized_held (hjwt : m.jwt.Lawful) (hid : inInt64 userID = true)
    (hy : Holds m hash c₀ userID y x)
    (now : Int) : (m.authorized ("Bearer " ++ y.1.token) now).isNone = !x.valid m.ttl now := by
  obtain ⟨id, token, hclient, rfl, hissue⟩ := hy.client
  rw [hclient, JWTManager.authorized_issue hjwt hissue hid, Lease.valid]
  split_ifs with hlt <;> simp [hlt]

theorem run_attempt_held (hjwt : m.jwt.Lawful) (hid : inInt64 userID = true)
    (hy : Holds m hash c₀ userID y x) (huse : use.Fair hash c₀ userID) (n : ℕ) :
    Cli.expired ((Cli.attempt y.1 use.call).run (exchangeSem h m hash) use.moments (y.2, n)).1 =
        !x.valid m.ttl (use.clock n) ∧
      ∃ s', ((Cli.attempt y.1 use.call).run (exchangeSem h m hash) use.moments (y.2, n)).2 =
        (s', n + 1) ∧
        Holds m hash c₀ userID (y.1, s') x := by
  obtain ⟨hfirst, hbefore⟩ := huse n
  have htrust : y.1.accepts (use.moments n).fingerprint (use.moments n).verifies = true := by
    obtain ⟨id, token, hclient, -⟩ := hy.client
    rw [hclient]
    exact hfirst
  obtain ⟨hexpired, hstate⟩ := @run_exchange _ h m hash _ _ _ y.2 use.auth htrust
  rw [run_attempt, hstate]
  refine ⟨hexpired.trans (authorized_held hjwt hid hy _), _, rfl, hy.client, ?_⟩
  exact hy.shows.moment hbefore

theorem Holds.trusts (hy : Holds m hash c₀ userID y x) (huse : use.Fair hash c₀ userID) (n : ℕ) :
    y.1.accepts (use.moments n).fingerprint (use.moments n).verifies = true := by
  obtain ⟨id, token, hclient, -⟩ := hy.client
  rw [hclient]
  exact (huse n).1

theorem run_refresh_ok {moments : ℕ → Moment} {st st' : Accounts × ℕ} {token : String}
    (hsome : c.refreshToken ≠ "")
    (hattempt : (Cli.attempt c (.refresh c.refreshToken)).run (exchangeSem h m hash) moments st =
      (.ok token, st')) :
    (Cli.refresh c).run (exchangeSem h m hash) moments st =
      ((true, { c with token := token }), st') := by
  rw [Cli.refresh, if_neg hsome, run_bind, hattempt]
  rfl

theorem run_refresh_error {moments : ℕ → Moment} {st st' : Accounts × ℕ} {err : ApiErr}
    (hsome : c.refreshToken ≠ "")
    (hattempt : (Cli.attempt c (.refresh c.refreshToken)).run (exchangeSem h m hash) moments st =
      (.error err, st')) :
    (Cli.refresh c).run (exchangeSem h m hash) moments st = ((false, c), st') := by
  rw [Cli.refresh, if_neg hsome, run_bind, hattempt]
  rfl

theorem run_refresh_held (hjwt : m.jwt.Lawful) (hsome : c₀.refreshToken ≠ "")
    (hy : Holds m hash c₀ userID y x) (huse : use.Fair hash c₀ userID) (n : ℕ)
    (hrenew : x.renewable (use.clock n) = true) :
    ∃ c' s', (Cli.refresh y.1).run (exchangeSem h m hash) use.moments (y.2, n) =
      ((true, c'), s', n + 1) ∧
      Holds m hash c₀ userID (c', s') (.begun (use.clock n)) := by
  have htrust := hy.trusts huse n
  obtain ⟨⟨id, token, hclient, -⟩, hrow⟩ := hy
  obtain ⟨c, s⟩ := y
  obtain rfl := hclient
  obtain ⟨id', token', s', hid', hissue', hserve, hshows⟩ := run_refresh_live hjwt hsome
    (hrow.moment (huse n).2) rfl (of_decide_eq_true hrenew)
  refine ⟨{ c₀ with token := token' }, s', run_refresh_ok hsome ?_,
    ⟨id', token', rfl, hid', hissue'⟩, hshows⟩
  rw [run_attempt, run_exchange_signIn rfl htrust hserve]
  exact congrArg (·, _) (outcome_ok htrust _)

theorem run_refresh_ended (hsome : c₀.refreshToken ≠ "") (hy : Holds m hash c₀ userID y x)
    (huse : use.Fair hash c₀ userID) (n : ℕ) (hrenew : x.renewable (use.clock n) = false) :
    ∃ s', (Cli.refresh y.1).run (exchangeSem h m hash) use.moments (y.2, n) = ((false, y.1), s', n + 1) ∧
      Holds m hash c₀ userID (y.1, s') x := by
  have htrust := hy.trusts huse n
  obtain ⟨⟨id, token, hclient, hold⟩, hrow⟩ := hy
  obtain ⟨c, s⟩ := y
  obtain rfl := hclient
  obtain ⟨r, hr, hserve⟩ := run_refresh_stale (m := m) hsome (hrow.moment (huse n).2)
    (of_decide_eq_false hrenew)
  have herr : ∃ code error message, (SignInAnswer.refused r).wire (.refresh c₀.refreshToken) =
      .status code error message := by
    simp only [List.mem_cons, List.not_mem_nil, or_false] at hr
    rcases hr with rfl | rfl <;> exact ⟨_, _, _, rfl⟩
  obtain ⟨code, error, message, hwire⟩ := herr
  have hattempt : (Cli.attempt { c₀ with token := token } (.refresh c₀.refreshToken)).run
      (exchangeSem h m hash) use.moments (s, n) =
      (.error (mapError (.refresh c₀.refreshToken) code error message),
      (use.moments n).finds hash s, n + 1) := by
    rw [run_attempt, run_exchange_signIn rfl htrust hserve, hwire, outcome_status htrust]
  exact ⟨_, run_refresh_error hsome hattempt, ⟨id, token, rfl, hold⟩, hrow.moment (huse n).2⟩

/-! The three courses of a call. -/

section
variable {moments : ℕ → Moment} {st st₁ st₂ st₃ : Accounts × ℕ} {res res' : Except ApiErr call.Body}
  {c' : ApiClient}

theorem run_request_settled
    (hrun : (Cli.attempt c call).run (exchangeSem h m hash) moments st = (res, st₁))
    (hres : Cli.expired res = false) :
    (Cli.request c call).run (exchangeSem h m hash) moments st = ((res, c), st₁) := by
  rw [Cli.request, run_bind, hrun]
  simp only [hres, Bool.and_false, Bool.false_and, Bool.false_eq_true, if_false]
  rfl

theorem run_request_refused (hauth : call.auth = true) (hsome : c.refreshToken ≠ "")
    (hrun : (Cli.attempt c call).run (exchangeSem h m hash) moments st = (res, st₁))
    (hres : Cli.expired res = true)
    (hrefresh : (Cli.refresh c).run (exchangeSem h m hash) moments st₁ = ((false, c'), st₂)) :
    (Cli.request c call).run (exchangeSem h m hash) moments st = ((res, c'), st₂) := by
  rw [Cli.request, run_bind, hrun]
  simp only [hauth, hres, hsome, ne_eq, not_false_eq_true, decide_true, Bool.and_true, if_true]
  rw [run_bind, hrefresh]
  rfl

theorem run_request_renewed (hauth : call.auth = true) (hsome : c.refreshToken ≠ "")
    (hrun : (Cli.attempt c call).run (exchangeSem h m hash) moments st = (res, st₁))
    (hres : Cli.expired res = true)
    (hrefresh : (Cli.refresh c).run (exchangeSem h m hash) moments st₁ = ((true, c'), st₂))
    (hagain : (Cli.attempt c' call).run (exchangeSem h m hash) moments st₂ = (res', st₃)) :
    (Cli.request c call).run (exchangeSem h m hash) moments st = ((res', c'), st₃) := by
  rw [Cli.request, run_bind, hrun]
  simp only [hauth, hres, hsome, ne_eq, not_false_eq_true, decide_true, Bool.and_true, if_true]
  rw [run_bind, hrefresh]
  simp only [if_true]
  rw [run_bind, hagain]
  rfl

end

/-- A call comes out as the lease says, which then says how the session goes on. -/
theorem make_held (hjwt : m.jwt.Lawful) (hid : inInt64 userID = true) (hsome : c₀.refreshToken ≠ "")
    (hy : Holds m hash c₀ userID y x) (huse : use.Fair hash c₀ userID) :
    (use.make h m hash y).1 = (x.use m.ttl use.clock).1 ∧
      Holds m hash c₀ userID (use.make h m hash y).2 (x.use m.ttl use.clock).2 := by
  obtain ⟨hfirst, s₁, hstate, hy₁⟩ := run_attempt_held (h := h) hjwt hid hy huse 0
  have hrefresh : y.1.refreshToken ≠ "" := by
    obtain ⟨id, token, hclient, -⟩ := hy.client
    rwa [hclient]
  obtain ⟨⟨res, st⟩, hrun⟩ : ∃ r, (Cli.attempt y.1 use.call).run (exchangeSem h m hash)
      use.moments (y.2, 0) = r := ⟨_, rfl⟩
  rw [hrun] at hfirst hstate
  obtain rfl : st = (s₁, 1) := hstate
  rw [Lease.use]
  -- the access token is good, or the server answers 401 and the refresh row decides
  cases hvalid : x.valid m.ttl (use.clock 0) with
  | true =>
    have hres : Cli.expired res = false := by rw [hfirst, hvalid]; rfl
    rw [Use.make, run_request_settled hrun hres]
    refine ⟨?_, hy₁⟩
    show (!Cli.expired res) = true
    rw [hres]
    rfl
  | false =>
    have hres : Cli.expired res = true := by rw [hfirst, hvalid]; rfl
    cases hrenew : x.renewable (use.clock 1) with
    | false =>
      obtain ⟨s₂, hrefused, hy₂⟩ := run_refresh_ended (h := h) hsome hy₁ huse 1 hrenew
      rw [Use.make, run_request_refused use.auth hrefresh hrun hres hrefused]
      refine ⟨?_, hy₂⟩
      show (!Cli.expired res) = false
      rw [hres]
      rfl
    | true =>
      obtain ⟨c', s₂, hrenewed, hy₂⟩ := run_refresh_held (h := h) hjwt hsome hy₁ huse 1 hrenew
      obtain ⟨hsecond, s₃, hstate₃, hy₃⟩ := run_attempt_held (h := h) hjwt hid hy₂ huse 2
      obtain ⟨⟨res', st'⟩, hagain⟩ : ∃ r, (Cli.attempt c' use.call).run
        (exchangeSem h m hash) use.moments
          (s₂, 2) = r := ⟨_, rfl⟩
      rw [hagain] at hsecond hstate₃
      obtain rfl : st' = (s₃, 3) := hstate₃
      rw [Use.make, run_request_renewed use.auth hrefresh hrun hres hrenewed hagain]
      refine ⟨?_, hy₃⟩
      show (!Cli.expired res') = _
      rw [show Cli.expired res' = _ from hsecond, Bool.not_not]
      rfl

theorem answers_held {uses : List Use} (hjwt : m.jwt.Lawful) (hid : inInt64 userID = true)
    (hsome : c₀.refreshToken ≠ "") (hy : Holds m hash c₀ userID y x)
    (huses : ∀ use ∈ uses, use.Fair hash c₀ userID) :
    answers (Use.make h m hash) y uses = answers (Lease.use m.ttl) x (uses.map Use.clock) := by
  have hstep (y : ApiClient × Accounts) (x : Lease) (use : Use) (hy : Holds m hash c₀ userID y x)
      (huse : use.Fair hash c₀ userID) := make_held (h := h) hjwt hid hsome hy huse
  exact answers_eq hstep hy huses

end
/-! ### the sign-in -/

/-- What the schema says of the users and the refresh tokens. -/
structure Accounts.Constrained (s : Accounts) : Prop where
  keyed : Keyed RefreshToken.tokenHash s.refreshTokens
  user : ∀ row ∈ s.refreshTokens, s.registry.db.hasUser row.userID = true
  ids : ∀ u ∈ s.registry.db.users, inInt64 u.id = true

theorem run_signIn_login {username password token refreshToken : String} {s' : Accounts}
    (hrun : (SignIn.login h.toServer (some ⟨username, password⟩)).run (signInSem m hash) e s =
      (.login token refreshToken, s')) :
    ∃ u ∈ s.registry.db.users, nocase u.username = nocase username ∧
      m.issue ⟨u.id, u.username, u.isAdmin⟩ e.now = some token ∧
      (issueToken hash u.id e.drawn e.now).run Accounts.sem false s = (.ok refreshToken, s') := by
  rw [SignIn.login, SignIn.decoded] at hrun
  split_ifs at hrun with hblank
  · cases hrun
  simp only [SignIn.perform, op_bind, Prog.pure_bind, run_op, signInSem] at hrun
  cases hfind : s.registry.db.users.find? fun u => nocase u.username = nocase username with
  | none =>
    rw [hfind] at hrun
    cases hrun
  | some u =>
    rw [hfind] at hrun
    simp only at hrun
    split_ifs at hrun with hpassword
    · cases hrun
    simp only [run_op, signInSem] at hrun
    cases hissue : m.issue ⟨u.id, u.username, u.isAdmin⟩ e.now with
    | none =>
      rw [hissue] at hrun
      cases hrun
    | some token' =>
      rw [hissue] at hrun
      obtain ⟨⟨res, s''⟩, hrefresh⟩ : ∃ r,
          (issueToken hash u.id e.drawn e.now).run Accounts.sem false s = r := ⟨_, rfl⟩
      simp only [run_op, signInSem, hrefresh] at hrun
      cases res with
      | error err => cases hrun
      | ok refreshToken' =>
        obtain ⟨ha, rfl⟩ := Prod.mk.inj hrun
        obtain ⟨rfl, rfl⟩ := SignInAnswer.login.inj ha
        exact ⟨u, List.mem_of_find?_eq_some hfind, by simpa using List.find?_some hfind,
          hissue, hrefresh⟩

theorem response_of_outcome {body : call.Body} {fingerprint : String} {verifies : Bool}
    {response : HttpResponse call.Body}
    (hok : c.outcome call (.presented fingerprint verifies response) = .ok body) :
    c.accepts fingerprint verifies = true ∧ response = .ok (some body) := by
  unfold ApiClient.outcome at hok
  simp only at hok
  split_ifs at hok with htrust
  refine ⟨by simpa using htrust, ?_⟩
  cases response with
  | ok found =>
    cases found with
    | none => cases hok
    | some found => rw [Except.ok.inj hok]
  | status => cases hok

theorem wire_login {username password : String} {a : SignInAnswer} {resp : LoginResponse}
    (hwire : a.wire (.login username password) = .ok (some resp)) :
    a = .login resp.token resp.refreshToken := by
  cases a with
  | login token refreshToken =>
    obtain rfl := Option.some.inj (HttpResponse.ok.inj hwire)
    rfl
  | refused r =>
    have hplain : (Answer.plain r).wire (.login username password) = .ok (some resp) := hwire
    unfold Answer.wire at hplain
    simp only at hplain
    split_ifs at hplain
    · split at hplain <;> cases hplain
    · cases HttpResponse.ok.inj hplain
  | _ => cases HttpResponse.ok.inj hwire

theorem accepts_of_login {username password : String} {resp : LoginResponse}
    (hattempt : ((Cli.attempt c (.login username password)).run (exchangeSem h m hash)
      (fun _ => e) (s, 0)).1 = .ok resp) : c.accepts e.fingerprint e.verifies = true := by
  cases ht : c.accepts e.fingerprint e.verifies with
  | true => rfl
  | false =>
    have hbarred : (Wire.exchange h c (.login username password)).run (wireSem h m hash) e (s, 0) =
        (.presented e.fingerprint e.verifies (.ok none), e.finds hash s, 0) := by
      show (Wire.arrived h c _ (.routed e.fingerprint e.verifies e.salt)).run _ _ _ = _
      rw [Wire.arrived, ht]
      rfl
    rw [run_attempt, hbarred] at hattempt
    dsimp only at hattempt
    exact ht.symm.trans (response_of_outcome hattempt).1

theorem login_holds {username password : String} {c' : ApiClient} {s' : Accounts} {n : ℕ}
    (hschema : (e.finds hash s).Constrained)
    (hlogin : (Cli.login c username password).run (exchangeSem h m hash) (fun _ => e) (s, 0) =
      ((.ok (), c'), s', n)) :
    ∃ u ∈ (e.finds hash s).registry.db.users, nocase u.username = nocase username ∧
      c'.refreshToken = e.drawn ∧ Holds m hash c' u.id (c', s') (.begun e.now) := by
  rw [Cli.login, run_bind] at hlogin
  cases hattempt : ((Cli.attempt c (.login username password)).run (exchangeSem h m hash)
      (fun _ => e) (s, 0)).1 with
  | error err =>
    rw [hattempt] at hlogin
    cases hlogin
  | ok resp =>
    rw [hattempt] at hlogin
    obtain ⟨hc, hs⟩ := Prod.mk.inj hlogin
    obtain ⟨-, rfl⟩ := Prod.mk.inj hc
    have htrust : c.accepts e.fingerprint e.verifies = true := accepts_of_login hattempt
    obtain ⟨⟨a, s₁⟩, hserve⟩ : ∃ r, (SignIn.serve h.toServer e.salt (.login username password)).run
        (signInSem m hash) e (e.finds hash s) = r := ⟨_, rfl⟩
    rw [run_attempt, run_exchange_signIn rfl htrust hserve] at hattempt hs
    dsimp only at hattempt
    obtain rfl := (Prod.mk.inj hs).1
    obtain rfl := wire_login (response_of_outcome hattempt).2
    obtain ⟨u, hmem, hname, hissue, hrefresh⟩ := run_signIn_login hserve
    obtain ⟨tr, hruns, -⟩ := runs_const_iff.mpr hrefresh
    rcases issueToken_runs hruns with ⟨err, herr, -⟩ | ⟨hdrawn, hnew, huser, rfl⟩
    · cases herr
    obtain hdrawn : resp.refreshToken = e.drawn := Except.ok.inj hdrawn
    refine ⟨u, hmem, hname, hdrawn, ⟨_, resp.token, rfl, rfl, hissue⟩, ?_⟩
    have hnone : Shows hash e.drawn none (e.finds hash s) :=
      ⟨hschema.keyed, hschema.user, by
        rw [List.find?_eq_none.mpr fun row hrow => by simpa using hnew row hrow]
        rfl, fun x hx => absurd hx (Option.not_mem_none x)⟩
    have hin := hnone.inserted ⟨(e.finds hash s).seqRefreshTokens + 1, u.id, hash e.drawn,
      formatSeconds (truncateSecond e.now + refreshTTL), none, formatRFC3339 e.now⟩
      ((e.finds hash s).seqRefreshTokens + 1) hnew huser rfl
      (x := ⟨u.id, truncateSecond e.now, false⟩) fun _ => ⟨rfl, rfl, rfl, e.inYears⟩
    rw [if_pos rfl] at hin
    show Shows hash resp.refreshToken _ _
    rw [hdrawn]
    exact hin

/-- From the sign-in on, each call of the session is let in exactly when its lease says so: the two
halves of the sign-in, the client's retry and the server's sliding of the refresh token come to
one clock with two terms. -/
theorem session_lives {username password : String} {c' : ApiClient} {s' : Accounts} {n : ℕ}
    {uses : List Use}
    (hjwt : m.jwt.Lawful) (hschema : (e.finds hash s).Constrained)
    (hlogin : (Cli.login c username password).run (exchangeSem h m hash) (fun _ => e) (s, 0) =
      ((.ok (), c'), s', n))
    (hfair : ∀ u ∈ (e.finds hash s).registry.db.users, nocase u.username = nocase username →
      ∀ use ∈ uses, use.Fair hash c' u.id) :
    answers (Use.make h m hash) (c', s') uses =
      answers (Lease.use m.ttl) (.begun e.now) (uses.map Use.clock) := by
  obtain ⟨u, hmem, hname, hdrawn, hholds⟩ := login_holds hschema hlogin
  have hsome : c'.refreshToken ≠ "" := hdrawn ▸ e.drawn_ne
  exact answers_held hjwt (hschema.ids u hmem) hsome hholds (hfair u hmem hname)

/-- A session that is used often enough never ends, as long as a session token and a pause between
two calls fit into the life of a refresh token; where a refresh token dies before the session token
that it would renew, the session ends with its first token, however often it is used. -/
theorem active_session_never_ends {username password : String} {c' : ApiClient} {s' : Accounts} {n : ℕ}
    {uses : List Use} (hjwt : m.jwt.Lawful) (hschema : (e.finds hash s).Constrained)
    (hlogin : (Cli.login c username password).run (exchangeSem h m hash) (fun _ => e) (s, 0) =
      ((.ok (), c'), s', n))
    (hfair : ∀ u ∈ (e.finds hash s).registry.db.users, nocase u.username = nocase username →
      ∀ use ∈ uses, use.Fair hash c' u.id) :
    (∀ gap, gap + m.ttl + second ≤ refreshTTL * second → 0 ≤ m.ttl →
      (∀ clock ∈ (uses.map Use.clock).head?, Lease.Frequent m.ttl gap e.now clock) →
      (uses.map Use.clock).IsChain (fun clock clock' => Lease.Frequent m.ttl gap (clock 0) clock') →
      ∀ b ∈ answers (Use.make h m hash) (c', s') uses, b = true) ∧
    (refreshTTL * second ≤ m.ttl → (∀ use ∈ uses, use.clock 0 ≤ use.clock 1) →
      answers (Use.make h m hash) (c', s') uses =
        uses.map fun use => decide (truncateSecond (use.clock 0) < truncateSecond (e.now + m.ttl))) := by
  obtain ⟨u, hmem, hname, hdrawn, hholds⟩ := login_holds hschema hlogin
  have hsome : c'.refreshToken ≠ "" := hdrawn ▸ e.drawn_ne
  rw [answers_held hjwt (hschema.ids u hmem) hsome hholds (hfair u hmem hname)]
  constructor
  · intro gap hbound httl hhead hchain
    apply Lease.answers_frequent hbound httl rfl _ hchain hhead
    show e.now ≤ e.now + m.ttl
    omega
  · intro hlong hforward
    rw [Lease.answers_unrenewed hlong rfl, List.map_map]
    · rfl
    · intro clock hclock
      obtain ⟨use, huse, rfl⟩ := List.mem_map.mp hclock
      exact hforward use huse

end
def labManager : JWTManager := ⟨labJwt, 7200 * second⟩

def labAdas : Accounts :=
  ⟨⟨{ DB.empty with users := [⟨1, "ada", "Adapass123", false⟩], seqUsers := 1 }, ⟨[], 0⟩⟩, [], 0⟩

/-- A request of the first years of the epoch. -/
def labMoment (now : Fin 100000000) (before : List Elsewhere) : Moment where
  now := now * second
  inYears := by
    have hsecond : truncateSecond (now * second) = now := Int.mul_ediv_cancel _ (by decide)
    have hnow := now.isLt
    rw [hsecond]
    constructor
    · show 0 ≤ (now : Int) + refreshTTL + unixToYearZero
      have : 0 ≤ refreshTTL + unixToYearZero := by decide
      omega
    · show (now : Int) + refreshTTL + unixToYearZero < 3652425 * 86400
      have : 100000000 + (refreshTTL + unixToYearZero) < 3652425 * 86400 := by decide
      omega
  fingerprint := ""
  verifies := true
  salt := none
  drawn := labToken
  drawn_ne := by decide
  acts _
    | .op (.store _) | .updatePassword .. | .listByUser _ | .listForUser _ | .membersByZone _
    | .listByZone _ | .insertInvite .. | .listInvites => .error .driver
    | .op (.netfw _) | .op (.wg _) => .error .failed
  host
    | .http .. => .unreachable
    | .readState => .error ()
    | .getKey _ => none
    | .generateKeyPair => ("", "")
    | .saveState _ | .clearState | .setKey .. | .deleteKey _ | .localOverlap _ | .rebuildNat ..
    | .teardownNat | .setRoutes _ | .engineDown | .clearFirewall => false
  before := before

def labSignIn : (Except ApiErr Unit × ApiClient) × Accounts × ℕ :=
  (Cli.login ⟨"https://vpn.example", "", "", false, ""⟩ "Ada" "Adapass123").run
    (exchangeSem labServer.bare labManager labHash) (fun _ => labMoment 0 []) (labAdas, 0)

/-- A device list whose requests all come at one time. -/
def labUse (now : Fin 100000000) (before : List Elsewhere) : Use :=
  ⟨.listNodes, rfl, fun _ => labMoment now before⟩

/-- After an hour, after three with another sign-in before them, and after forty days. -/
def labUses : List Use :=
  [labUse 3600 [], labUse 10800 [.token (.issue 1 "other" 0) false, .registry id], labUse 3456000 []]

theorem labSignIn_ok : labSignIn = ((.ok (), labSignIn.1.2), labSignIn.2.1, labSignIn.2.2) :=
  Prod.ext (Prod.ext rfl rfl) rfl

theorem labAdas_constrained : ((labMoment 0 []).finds labHash labAdas).Constrained where
  keyed _ hrow := nomatch hrow
  user _ hrow := nomatch hrow
  ids u hu := by
    obtain rfl := List.mem_singleton.mp hu
    decide

theorem labUses_fair : ∀ u ∈ ((labMoment 0 []).finds labHash labAdas).registry.db.users,
    nocase u.username = nocase "Ada" → ∀ use ∈ labUses, use.Fair labHash labSignIn.1.2 u.id := by
  intro u hu _ use huse n
  obtain rfl := List.mem_singleton.mp hu
  simp only [labUses, List.mem_cons, List.not_mem_nil, or_false] at huse
  rcases huse with rfl | rfl | rfl
  · exact ⟨rfl, fun _ hz => nomatch hz⟩
  · refine ⟨rfl, fun z hz => ?_⟩
    simp only [labUse, labMoment, List.mem_cons, List.not_mem_nil, or_false] at hz
    rcases hz with rfl | rfl
    · refine ⟨?_, ?_, ?_, ?_⟩
      · intro q hq heq
        obtain rfl := Option.some.inj hq
        revert heq
        decide
      · decide
      · decide
      · intro now hnow
        obtain rfl := Option.some.inj hnow
        exact ⟨by decide, by decide⟩
    · exact fun _ _ h => h
  · exact ⟨rfl, fun _ hz => nomatch hz⟩

theorem session_lives_lab : answers (Use.make labServer.bare labManager labHash)
    (labSignIn.1.2, labSignIn.2.1) labUses = [true, true, false] := by
  refine (session_lives labJwt_lawful labAdas_constrained labSignIn_ok labUses_fair).trans ?_
  decide

theorem active_session_never_ends_lab : (answers (Use.make labServer.bare labManager labHash)
    (labSignIn.1.2, labSignIn.2.1) (labUses.take 2)).all id = true := by
  have hfair (u : User) (hu : u ∈ ((labMoment 0 []).finds labHash labAdas).registry.db.users)
      (hname : nocase u.username = nocase "Ada") (use : Use) (huse : use ∈ labUses.take 2) :
      use.Fair labHash labSignIn.1.2 u.id := labUses_fair u hu hname use (List.mem_of_mem_take huse)
  rw [List.all_eq_true]
  refine (active_session_never_ends labJwt_lawful labAdas_constrained labSignIn_ok hfair).1
    (172800 * second)
    (by decide) (by decide) ?_ ?_
  · intro clock hclock
    obtain rfl := Option.some.inj hclock
    exact ⟨by decide, by decide, by decide⟩
  · exact .cons_cons ⟨by decide, by decide, by decide⟩ (.singleton _)

end LanWeave

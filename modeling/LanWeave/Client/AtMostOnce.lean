import LanWeave.Client.ErrorMapping

/-! A call of the client together with the server behind it: each request as it goes out, is let
in or not, runs the body of a handler, and is answered. The body runs once at most. -/

namespace LanWeave
open Library Prog

/-- What becomes of a request on its way to the routes of the server. -/
inductive Arrival
  | lost
  /-- Something in front of the routes answers it, such as the rate limit. -/
  | refused (fingerprint : String) (verifies : Bool) (status : Nat) (code message : String)
  | routed (fingerprint : String) (verifies : Bool) (salt : Option String)

/-- What becomes of the answer on its way back. -/
inductive Delivery
  | whole
  /-- Only its head arrives. -/
  | cut
  | lost
  /-- The handler has panicked, and the recoverer answers. -/
  | panicked

inductive WireOp
  | send (c : ApiClient) (call : ApiCall)
  | verify (token : String)
  /-- The body of the handler behind the sign-in begins. -/
  | enter (call : ApiCall)
  | act (a : Act)
  | signIn (call : ApiCall)
  | deliver
  | host (o : HostOp)

/-- `verify` is the JWT manager's answer, whatever the token and the time. -/
abbrev WireOp.Result : WireOp → Type
  | send .. => Arrival
  | verify _ => Option Identity
  | enter _ => Unit
  | act a => a.Res
  | signIn call => HttpResponse call.Body
  | deliver => Delivery
  | host o => o.Result

abbrev Wire (α : Type) := Prog WireOp WireOp.Result α

namespace Wire

def perform (o : WireOp) : Wire o.Result := .op o .pure

/-- What is left of a response without its body. -/
def head {call : ApiCall} : HttpResponse call.Body → HttpResponse call.Body
  | .ok _ => .ok (call.decode (.plain noContent))
  | .status code _ _ => .status code "" ""

def delivered {call : ApiCall} (fingerprint : String) (verifies : Bool) (r : HttpResponse call.Body) :
    Delivery → Exchange call.Body
  | .whole => .presented fingerprint verifies r
  | .cut => .presented fingerprint verifies (head r)
  | .lost => .unreachable
  | .panicked =>
    .presented fingerprint verifies (.status 500 "internal_error" "An internal error occurred.")

section
variable {κ : Type} (h : Handlers κ)

/-- `AuthRequired` around the handler of an endpoint. -/
def authRequired (token : String) (call : ApiCall) (e : Endpoint) : Wire Answer := do
  match ← perform (.verify token) with
  | none => (answer h none e).lift WireOp.act
  | some i =>
    let _ ← perform (.enter call)
    (answer h (some i) e).lift WireOp.act

/-- The server's part in a request, by the endpoint that it is for. -/
def serve (c : ApiClient) (call : ApiCall) (fingerprint : String) (verifies : Bool) :
    Option Endpoint → Wire (Exchange call.Body)
  | none => do
    let r ← perform (.signIn call)
    return delivered fingerprint verifies r (← perform .deliver)
  | some e => do
    let a ← authRequired h c.token call e
    return delivered fingerprint verifies (a.wire call) (← perform .deliver)

def arrived (c : ApiClient) (call : ApiCall) : Arrival → Wire (Exchange call.Body)
  | .lost => return .unreachable
  | .refused fingerprint verifies status code message =>
    return .presented fingerprint verifies (.status status code message)
  | .routed fingerprint verifies salt =>
    -- without trust in the certificate nothing is sent
    if !c.accepts fingerprint verifies then return .presented fingerprint verifies (.ok none)
    else serve h c call fingerprint verifies (call.endpoint salt)

/-- One request of the client, from its sending to the answer. -/
def exchange (c : ApiClient) (call : ApiCall) : Wire (Exchange call.Body) := do
  arrived h c call (← perform (.send c call))

/-- The operations of the client over the wire. -/
def through : (o : HostOp) → Unit → Wire (o.Result × Unit)
  | .http c call, () => do return (← exchange h c call, ())
  | o, () => do return (← perform (.host o), ())

/-- A call of the client, with all that happens on the wire and behind it. -/
def request (c : ApiClient) (call : ApiCall) : Wire (Except ApiErr call.Body × ApiClient) := do
  return (← (Cli.request c call).handle (through h) ()).1

end

def WireOp.sends (call : ApiCall) : WireOp → Bool
  | .send _ call' => call' = call
  | _ => false

def WireOp.refreshes : WireOp → Bool
  | .send _ (.refresh _) => true
  | _ => false

def WireOp.enters : WireOp → Bool
  | .enter _ => true
  | _ => false

/-- How many operations of the log are of a kind. -/
def count (kind : WireOp → Bool) (log : List (Sigma WireOp.Result)) : Nat := log.countP fun x => kind x.1

/-- The response by which the client sees that its session has expired. -/
def Expired {call : ApiCall} (c : ApiClient) (e : Exchange call.Body) : Prop :=
  ∃ fingerprint verifies code message, e = .presented fingerprint verifies (.status 401 code message) ∧
    c.accepts fingerprint verifies = true ∧ envelopeErr code = none

/-- What a call comes to, by the exchanges it is made of. -/
inductive Course {κ : Type} (h : Handlers κ) (c : ApiClient) (call : ApiCall) :
    List (Sigma WireOp.Result) → Except ApiErr call.Body × ApiClient → Prop
  | once {log : List (Sigma WireOp.Result)} {e : Exchange call.Body}
      (first : (exchange h c call).Hears log e) (settled : Expired c e → c.refreshToken = "") :
      Course h c call log (c.outcome call e, c)
  | notRenewed {log₁ log₂ : List (Sigma WireOp.Result)} {e : Exchange call.Body} {e' : Exchange String}
      (first : (exchange h c call).Hears log₁ e) (expired : Expired c e) (held : c.refreshToken ≠ "")
      (renewal : (exchange h c (.refresh c.refreshToken)).Hears log₂ e')
      (failed : ∀ token, c.outcome (.refresh c.refreshToken) e' ≠ .ok token) :
      Course h c call (log₁ ++ log₂) (.error .sessionExpired, c)
  | again {log₁ log₂ log₃ : List (Sigma WireOp.Result)} {e e'' : Exchange call.Body}
    {e' : Exchange String}
      {token : String}
      (first : (exchange h c call).Hears log₁ e) (expired : Expired c e) (held : c.refreshToken ≠ "")
      (renewal : (exchange h c (.refresh c.refreshToken)).Hears log₂ e')
      (renewed : c.outcome (.refresh c.refreshToken) e' = .ok token)
      (second : (exchange h { c with token := token } call).Hears log₃ e'') :
      Course h c call (log₁ ++ (log₂ ++ log₃))
        (ApiClient.outcome { c with token := token } call e'', { c with token := token })

section
variable {κ : Type} {h : Handlers κ} {c : ApiClient} {call : ApiCall}
  {log : List (Sigma WireOp.Result)}

theorem envelopeErr_ne (code : String) : envelopeErr code ≠ some .sessionExpired := by
  unfold envelopeErr
  split <;> simp

theorem mapError_sessionExpired {status : Nat} {code message : String}
    (hexp : mapError call status code message = .sessionExpired) :
    status = 401 ∧ envelopeErr code = none := by
  unfold mapError at hexp
  cases hcode : envelopeErr code with
  | some err =>
    simp only [hcode] at hexp
    exact absurd (hexp ▸ hcode) (envelopeErr_ne code)
  | none =>
    simp only [hcode] at hexp
    split at hexp
    · exact ⟨rfl, rfl⟩
    · split_ifs at hexp
    · split_ifs at hexp
    · split_ifs at hexp
    · cases hexp

theorem expired_of_outcome {e : Exchange call.Body} (hexp : c.outcome call e = .error .sessionExpired) :
    Expired c e := by
  cases e with
  | unreachable => cases hexp
  | presented fingerprint verifies response =>
    unfold ApiClient.outcome at hexp
    simp only at hexp
    split_ifs at hexp with htrust
    · cases hexp
    · cases response with
      | ok body => cases body <;> cases hexp
      | status status code message =>
        obtain ⟨rfl, hcode⟩ := mapError_sessionExpired (Except.error.inj hexp)
        exact ⟨fingerprint, verifies, code, message, rfl, by simpa using htrust, hcode⟩

theorem outcome_of_expired {e : Exchange call.Body} (hauth : call.auth = true) (hexp : Expired c e) :
    c.outcome call e = .error .sessionExpired := by
  obtain ⟨fingerprint, verifies, code, message, rfl, htrust, hcode⟩ := hexp
  simp [ApiClient.outcome, htrust, mapError, hcode, hauth]

theorem wire_ok {r : Response} (hok : r.isError = false) :
    (Answer.plain r).wire call = .ok (call.decode (.plain r)) := by
  unfold Answer.wire
  exact if_neg (Bool.eq_false_iff.mp hok)

theorem wire_error {status : Nat} {code message : String}
    (herr : (writeJSONError status code message).isError = true) :
    (Answer.plain (writeJSONError status code message)).wire call = .status status code message := by
  unfold Answer.wire
  exact if_pos herr

theorem wire_ne_unauthorized {a : Answer} (ha : AnswerReported a) (code message : String) :
    a.wire call ≠ .status 401 code message := by
  intro hwire
  cases a with
  | plain r =>
    cases hkind : r.isError with
    | false =>
      rw [wire_ok hkind] at hwire
      cases hwire
    | true =>
      rcases ha with hok | ⟨status, code', message', rfl, hmem⟩
      · exact Bool.false_ne_true (hok.symm.trans hkind)
      · rw [wire_error hkind] at hwire
        injection hwire with hstatus
        rw [hstatus] at hmem
        simp [handlerErrors] at hmem
  | _ => cases hwire

theorem not_expired_delivered {a : Answer} (ha : AnswerReported a) (fingerprint : String)
    (verifies : Bool) (d : Delivery) : ¬Expired c (delivered fingerprint verifies (a.wire call) d) := by
  intro hexp
  obtain ⟨fingerprint', verifies', code, message, heq, -, -⟩ := hexp
  cases d with
  | whole =>
    injection heq with _ _ hstatus
    exact wire_ne_unauthorized ha code message hstatus
  | cut =>
    injection heq with _ _ hhead
    cases hresponse : a.wire call with
    | ok body =>
      rw [hresponse] at hhead
      cases hhead
    | status status code' message' =>
      rw [hresponse] at hhead
      injection hhead with hstatus
      rw [hstatus] at hresponse
      exact wire_ne_unauthorized ha code' message' hresponse
  | lost => cases heq
  | panicked =>
    injection heq with _ _ hstatus
    injection hstatus with hstatus
    cases hstatus

theorem count_eq_zero {kind : WireOp → Bool} (h : ∀ x ∈ log, kind x.1 = false) : count kind log = 0 := by
  apply List.countP_eq_zero.mpr
  intro x hx
  rw [h x hx]
  exact Bool.false_ne_true

theorem count_append (kind : WireOp → Bool) (log log' : List (Sigma WireOp.Result)) :
    count kind (log ++ log') = count kind log + count kind log' := List.countP_append

theorem only_act {kind : WireOp → Bool} (hkind : ∀ a, kind (.act a) = false) (p : Service Answer) :
    (p.lift WireOp.act : Wire Answer).Only fun o => kind o = false := by
  apply only_lift
  exact hkind

theorem hears_authRequired {token : String} {e : Endpoint} {a : Answer}
    (hlog : (authRequired h token call e).Hears log a) :
    count WireOp.enters log = 0 ∨ count WireOp.enters log = 1 ∧ AnswerReported a := by
  obtain ⟨id, rest, rfl, hrest⟩ := hlog
  cases id with
  | none =>
    obtain ⟨rfl, -⟩ := hrest
    exact .inl rfl
  | some i =>
    obtain ⟨_, body, rfl, hbody⟩ := hrest
    have hquiet : count WireOp.enters body = 0 := count_eq_zero ((only_act (fun _ => rfl) _).hears hbody)
    have hreturns : ((answer h (some i) e).lift WireOp.act : Wire Answer).Returns AnswerReported := by
      apply Returns.lift
      exact answer_reported e
    have hreported : AnswerReported a := hreturns.of_hears hbody
    refine .inr ⟨?_, hreported⟩
    rw [count, List.countP_cons, List.countP_cons]
    show count WireOp.enters body + 1 + 0 = 1
    rw [hquiet]

theorem only_authRequired {kind : WireOp → Bool}
    (hkind : ∀ o, (∀ c call, o ≠ .send c call) → kind o = false)
    {token : String} {e : Endpoint} :
    (authRequired h token call e).Only fun o => kind o = false := by
  refine ⟨hkind _ (fun _ _ => WireOp.noConfusion), fun id => ?_⟩
  have hquiet : ∀ a, kind (.act a) = false := fun a => hkind (.act a) fun _ _ => WireOp.noConfusion
  have hact (id : Option Identity) := only_act hquiet (answer h id e)
  cases id with
  | none => exact hact none
  | some i => exact ⟨hkind _ (fun _ _ => WireOp.noConfusion), fun _ => hact (some i)⟩

theorem only_arrived {kind : WireOp → Bool} (hkind : ∀ o, (∀ c call, o ≠ .send c call) → kind o = false)
    (arrival : Arrival) : (arrived h c call arrival).Only fun o => kind o = false := by
  have hdeliver : kind .deliver = false := hkind _ fun _ _ => WireOp.noConfusion
  cases arrival with
  | lost => trivial
  | refused => trivial
  | routed fingerprint verifies salt =>
    rw [arrived]
    split_ifs
    · trivial
    · cases call.endpoint salt with
      | none => exact ⟨hkind _ fun _ _ => WireOp.noConfusion, fun _ => ⟨hdeliver, fun _ => trivial⟩⟩
      | some e => exact (only_authRequired hkind).bind fun a => ⟨hdeliver, fun _ => trivial⟩

theorem count_exchange {kind : WireOp → Bool}
    (hkind : ∀ o, (∀ c call, o ≠ .send c call) → kind o = false)
    {e : Exchange call.Body} (hlog : (exchange h c call).Hears log e) :
    count kind log = if kind (.send c call) then 1 else 0 := by
  obtain ⟨arrival, rest, rfl, hrest⟩ := hlog
  have hquiet : ∀ x ∈ rest, kind x.1 = false := (only_arrived hkind arrival).hears hrest
  rw [count, List.countP_cons]
  show count kind rest + _ = _
  rw [count_eq_zero hquiet, Nat.zero_add]

section
variable {fingerprint : String} {verifies : Bool}

theorem hears_serve {route : Option Endpoint} {e : Exchange call.Body}
    (hlog : (serve h c call fingerprint verifies route).Hears log e) :
    count WireOp.enters log = 0 ∨ count WireOp.enters log = 1 ∧ ¬Expired c e := by
  cases route with
  | none =>
    obtain ⟨_, _, rfl, _, _, rfl, rfl, -⟩ := hlog
    exact .inl rfl
  | some e =>
    obtain ⟨log₁, log₂, a, rfl, hauth, d, _, rfl, rfl, rfl⟩ := hears_bind.mp hlog
    have hlast : count WireOp.enters [⟨WireOp.deliver, d⟩] = 0 := rfl
    rw [count_append, hlast, Nat.add_zero]
    rcases hears_authRequired hauth with hnone | ⟨hone, hreported⟩
    · exact .inl hnone
    · exact .inr ⟨hone, not_expired_delivered hreported fingerprint verifies d⟩

end

theorem hears_exchange {e : Exchange call.Body} (hlog : (exchange h c call).Hears log e) :
    count WireOp.enters log = 0 ∨ count WireOp.enters log = 1 ∧ ¬Expired c e := by
  obtain ⟨arrival, rest, rfl, hrest⟩ := hlog
  show count WireOp.enters rest = 0 ∨ count WireOp.enters rest = 1 ∧ ¬Expired c e
  have harrived : (arrived h c call arrival).Hears rest e := hrest
  cases arrival with
  | lost =>
    obtain ⟨rfl, -⟩ := harrived
    exact .inl rfl
  | refused =>
    obtain ⟨rfl, -⟩ := harrived
    exact .inl rfl
  | routed fingerprint verifies salt =>
    rw [arrived] at harrived
    split_ifs at harrived
    · obtain ⟨rfl, -⟩ := harrived
      exact .inl rfl
    · exact hears_serve harrived

theorem hears_exchange_refresh {token : String} {e : Exchange String}
    (hlog : (exchange h c (.refresh token)).Hears log e) : count WireOp.enters log = 0 := by
  obtain ⟨arrival, rest, rfl, hrest⟩ := hlog
  show count WireOp.enters rest = 0
  have harrived : (arrived h c (.refresh token) arrival).Hears rest e := hrest
  cases arrival with
  | lost =>
    obtain ⟨rfl, -⟩ := harrived
    rfl
  | refused =>
    obtain ⟨rfl, -⟩ := harrived
    rfl
  | routed fingerprint verifies salt =>
    rw [arrived] at harrived
    split_ifs at harrived
    · obtain ⟨rfl, -⟩ := harrived
      rfl
    · obtain ⟨_, _, rfl, _, _, rfl, rfl, -⟩ := harrived
      rfl

theorem hears_attempt {res : Except ApiErr call.Body × Unit}
    (hlog : ((Cli.attempt c call).handle (through h) ()).Hears log res) :
    ∃ e, (exchange h c call).Hears log e ∧ res = (c.outcome call e, ()) := by
  obtain ⟨log₁, log₂, r, rfl, hexchange, rfl, rfl⟩ := hears_bind.mp hlog
  obtain ⟨log₁, log₂, e, rfl, he, rfl, rfl⟩ := hears_bind.mp hexchange
  rw [List.append_nil, List.append_nil]
  exact ⟨e, he, rfl⟩

theorem hears_refresh {res : (Bool × ApiClient) × Unit} (held : c.refreshToken ≠ "")
    (hlog : ((Cli.refresh c).handle (through h) ()).Hears log res) :
    ∃ e, (exchange h c (.refresh c.refreshToken)).Hears log e ∧
      ((∃ token, c.outcome (.refresh c.refreshToken) e = .ok token ∧
          res = ((true, { c with token := token }), ())) ∨
        ((∀ token, c.outcome (.refresh c.refreshToken) e ≠ .ok token) ∧ res = ((false, c), ()))) := by
  rw [Cli.refresh, if_neg held, handle_bind] at hlog
  obtain ⟨log₁, log₂, r, rfl, hattempt, hrest⟩ := hears_bind.mp hlog
  obtain ⟨e, he, rfl⟩ := hears_attempt hattempt
  cases hres : c.outcome (.refresh c.refreshToken) e with
  | error err =>
    simp only [hres] at hrest
    obtain ⟨rfl, rfl⟩ := hrest
    rw [List.append_nil]
    refine ⟨e, he, .inr ⟨?_, rfl⟩⟩
    intro token htoken
    cases hres.symm.trans htoken
  | ok token =>
    simp only [hres] at hrest
    obtain ⟨rfl, rfl⟩ := hrest
    rw [List.append_nil]
    exact ⟨e, he, .inl ⟨token, hres, rfl⟩⟩

theorem expired_iff {e : Exchange call.Body} (hauth : call.auth = true) :
    Cli.expired (c.outcome call e) = true ↔ Expired c e := by
  constructor
  · intro hexp
    apply expired_of_outcome
    cases hres : c.outcome call e with
    | ok body =>
      rw [hres] at hexp
      cases hexp
    | error err =>
      rw [hres] at hexp
      cases err <;> first | rfl | cases hexp
  · intro hexp
    rw [outcome_of_expired hauth hexp]
    rfl

theorem course_of_request {res : (Except ApiErr call.Body × ApiClient) × Unit} (hauth : call.auth = true)
    (hlog : ((Cli.request c call).handle (through h) ()).Hears log res) : Course h c call log res.1 := by
  rw [Cli.request, handle_bind] at hlog
  obtain ⟨log₁, log₂, r, rfl, hattempt, hrest⟩ := hears_bind.mp hlog
  obtain ⟨e, he, rfl⟩ := hears_attempt hattempt
  have hcond : (call.auth && Cli.expired (c.outcome call e) && c.refreshToken ≠ "") = true ↔
      Expired c e ∧ c.refreshToken ≠ "" := by
    rw [hauth, Bool.true_and, Bool.and_eq_true, expired_iff hauth, decide_eq_true_iff]
  by_cases hretry : Expired c e ∧ c.refreshToken ≠ ""
  · obtain ⟨hexp, held⟩ := hretry
    rw [if_pos (hcond.mpr ⟨hexp, held⟩), handle_bind] at hrest
    obtain ⟨log₂, log₃, r, rfl, hrefresh, hrest⟩ := hears_bind.mp hrest
    obtain ⟨e', he', ⟨token, hrenewed, rfl⟩ | ⟨hfailed, rfl⟩⟩ := hears_refresh held hrefresh
    · simp only [if_true, handle_bind] at hrest
      obtain ⟨log₃, log₄, r, rfl, hagain, rfl, rfl⟩ := hears_bind.mp hrest
      obtain ⟨e'', he'', rfl⟩ := hears_attempt hagain
      rw [List.append_nil]
      exact .again he hexp held he' hrenewed he''
    · obtain ⟨rfl, rfl⟩ := hrest
      have hsame : c.outcome call e = .error .sessionExpired := outcome_of_expired hauth hexp
      rw [List.append_nil]
      simp only [hsame]
      exact .notRenewed he hexp held he' hfailed
  · rw [if_neg fun h => hretry (hcond.mp h)] at hrest
    obtain ⟨rfl, rfl⟩ := hrest
    rw [List.append_nil]
    exact .once he fun hexp => of_not_not fun held => hretry ⟨hexp, held⟩

theorem count_sends (e : Exchange call.Body) (call' : ApiCall) (hlog : (exchange h c call).Hears log e) :
    count (WireOp.sends call') log = if call = call' then 1 else 0 := by
  rw [count_exchange _ hlog]
  · simp [WireOp.sends]
  · intro o ho
    cases o with
    | send c call => exact absurd rfl (ho c call)
    | _ => rfl

theorem count_refreshes (e : Exchange call.Body) (hlog : (exchange h c call).Hears log e) :
    count WireOp.refreshes log = if WireOp.refreshes (.send c call) then 1 else 0 := by
  apply count_exchange _ hlog
  intro o ho
  cases o with
  | send c call => exact absurd rfl (ho c call)
  | _ => rfl

theorem refreshes_eq_false (hauth : call.auth = true) : WireOp.refreshes (.send c call) = false := by
  cases call with
  | refresh => cases hauth
  | _ => rfl

/-- A call behind the sign-in sends its request twice at most, the second time only when the first
has found the session expired before any handler began and the token has been renewed. Whatever
happens, the body of its handler runs once at most. -/
theorem request_at_most_once {res : Except ApiErr call.Body × ApiClient} (hauth : call.auth = true)
    (hlog : (request h c call).Hears log res) :
    Course h c call log res ∧ count (WireOp.sends call) log ≤ 2 ∧ count WireOp.refreshes log ≤ 1 ∧
      count WireOp.enters log ≤ 1 ∧
      ∀ (log₁ : List (Sigma WireOp.Result)) (e : Exchange call.Body),
        (exchange h c call).Hears log₁ e → Expired c e → count WireOp.enters log₁ = 0 := by
  have hbarred (log₁ : List (Sigma WireOp.Result)) (e : Exchange call.Body)
      (he : (exchange h c call).Hears log₁ e) (hexp : Expired c e) : count WireOp.enters log₁ = 0 := by
    rcases hears_exchange he with hnone | ⟨-, hnot⟩
    · exact hnone
    · exact absurd hexp hnot
  have hcourse : Course h c call log res := by
    obtain ⟨log, _, res, rfl, hcall, rfl, rfl⟩ := hears_bind.mp hlog
    rw [List.append_nil]
    exact course_of_request hauth hcall
  -- refresh carries no authorization, so the renewal is not counted as the call itself
  have hother : ApiCall.refresh c.refreshToken ≠ call := by
    intro h
    rw [← h] at hauth
    cases hauth
  have hrefresh := @refreshes_eq_false c call hauth
  have hrenewal : WireOp.refreshes (.send c (.refresh c.refreshToken)) = true := rfl
  refine ⟨hcourse, ?_⟩
  cases hcourse with
  | once first =>
    have henters := hears_exchange first
    rw [count_sends _ call first, count_refreshes _ first, hrefresh, if_pos rfl]
    exact ⟨by decide, by decide, by omega, hbarred⟩
  | notRenewed first expired _ renewal =>
    have hnone := hbarred _ _ first expired
    rw [count_append, count_append, count_append, count_sends _ call first, count_sends _ call renewal,
      count_refreshes _ first, count_refreshes _ renewal, hrefresh, hrenewal, hnone,
        hears_exchange_refresh renewal,
      if_pos rfl, if_neg hother]
    exact ⟨by decide, by decide, by decide, hbarred⟩
  | again first expired _ renewal _ second =>
    -- an attempt that was answered with 401 has not entered the handler
    have hnone := hbarred _ _ first expired
    have henters := hears_exchange second
    have hrefresh' (c' : ApiClient) := @refreshes_eq_false c' call hauth
    rw [count_append, count_append, count_append, count_append, count_append, count_append,
      count_sends _ call first, count_sends _ call renewal, count_sends _ call second,
      count_refreshes _ first, count_refreshes _ renewal, count_refreshes _ second, hrefresh, hrefresh',
      hrenewal, hnone, hears_exchange_refresh renewal, if_pos rfl, if_neg hother]
    exact ⟨by decide, by decide, by omega, hbarred⟩

end

def agedClient : ApiClient := ⟨"https://vpn.example", "old", "rt", false, ""⟩

/-- The token has run out, is renewed, and the request is made again. -/
def renewalLog : List (Sigma WireOp.Result) :=
  [⟨.send agedClient .me, .routed "" true none⟩, ⟨.verify "old", none⟩, ⟨.deliver, .whole⟩,
    ⟨.send agedClient (.refresh "rt"), .routed "" true none⟩,
    ⟨.signIn (.refresh "rt"), .ok (some "new")⟩, ⟨.deliver, .whole⟩,
    ⟨.send { agedClient with token := "new" } .me, .routed "" true none⟩,
    ⟨.verify "new", some ⟨1, "alice", false⟩⟩, ⟨.enter .me, ()⟩, ⟨.deliver, .whole⟩]

theorem request_at_most_once_renewed : count (WireOp.sends .me) renewalLog ≤ 2 ∧
    count WireOp.refreshes renewalLog ≤ 1 ∧ count WireOp.enters renewalLog ≤ 1 := by
  have hlog : (request labServer.bare agedClient .me).Hears renewalLog
      (.ok ⟨1, "alice", false⟩, { agedClient with token := "new" }) := by
    exact ⟨_, _, rfl, _, _, rfl, _, _, rfl, _, _, rfl, _, _, rfl, _, _, rfl, _, _, rfl, _, _,
      rfl, _, _, rfl,
      _, _, rfl, rfl, rfl⟩
  have hall := request_at_most_once rfl hlog
  exact ⟨hall.2.1, hall.2.2.1, hall.2.2.2.1⟩

end Wire
end LanWeave

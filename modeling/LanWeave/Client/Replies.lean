import LanWeave.Client.Gateway
import LanWeave.Server.Served

/-! What a request has done to the server when the client has an answer to it. -/

namespace LanWeave
open Library Prog

section
variable {κ : Type} [DecidableEq κ] {h : Handlers κ} {i : Identity} {t : Transit} {s : Site κ}
  {c : ApiClient} {call : ApiCall}

theorem served_of_ok {body : call.Body}
    (hok : c.outcome call (s.exchange h i t c call).1 = .ok body) :
    s.respond h i t call = (.ok (some body), (s.exchange h i t c call).2) := by
  unfold Site.exchange at hok ⊢
  by_cases haccepts : c.accepts t.fingerprint t.verifies = true
  · rw [haccepts] at hok ⊢
    rw [Bool.not_true, if_neg Bool.false_ne_true] at hok ⊢
    cases hfate : t.fate with
    | lost =>
      rw [hfate] at hok
      cases hok
    | unanswered =>
      rw [hfate] at hok
      cases hok
    | refused status code message =>
      simp only [hfate, ApiClient.outcome, haccepts] at hok
      cases hok
    | served =>
      simp only [hfate, ApiClient.outcome, haccepts] at hok ⊢
      rcases hr : s.respond h i t call with ⟨response, s'⟩
      rw [hr] at hok
      cases response with
      | status code error message => cases hok
      | ok body' =>
        cases body' with
        | none => cases hok
        | some body' =>
          obtain rfl := Except.ok.inj hok
          rfl
  · -- a certificate the client does not accept: no answer reaches it
    rw [Bool.not_eq_true] at haccepts
    rw [haccepts] at hok
    rw [Bool.not_false, if_pos rfl] at hok
    cases hfate : t.fate with
    | lost =>
      rw [hfate] at hok
      cases hok
    | _ =>
      simp only [hfate, ApiClient.outcome, haccepts] at hok
      cases hok

theorem exchange_of_respond (hsame : (s.respond h i t call).2 = s) :
    (s.exchange h i t c call).2 = s := by
  unfold Site.exchange
  split_ifs
  · rfl
  · cases t.fate with
    | served => exact hsame
    | unanswered => exact hsame
    | _ => rfl

theorem wire_plain_ok {r : Response} {body : call.Body}
    (hok : (Answer.plain r).wire call = .ok (some body)) :
    r.isError = false ∧ call.decode (.plain r) = some body := by
  unfold Answer.wire at hok
  simp only at hok
  split_ifs at hok with herr
  · split at hok <;> cases hok
  · rw [Bool.not_eq_true] at herr
    refine ⟨herr, ?_⟩
    injection hok

theorem respond_call {e : Call} (he : call.endpoint t.salt = some (.call e))
    (huser : ∀ path, e ≠ .deleteUser path) :
    (s.respond h i t call).1 = (Answer.plain ((handle h.toServer ⟨some i, e⟩).run (sem h.parseKey) false
        s.world).1).wire call ∧
      (s.respond h i t call).2.world = ((handle h.toServer ⟨some i, e⟩).run (sem h.parseKey) false
        s.world).2 := by
  have hanswer : answer h (some i) (.call e) = plain (handle h.toServer ⟨some i, e⟩) := by
    cases e with
    | deleteUser path => exact absurd rfl (huser path)
    | _ => rfl
  have hsem : ∀ o fails s, (siteSem h.parseKey (.op o) fails s).1 = (sem h.parseKey o fails s.world).1 ∧
      (siteSem h.parseKey (.op o) fails s).2.world = (sem h.parseKey o fails s.world).2 :=
    fun _ _ _ => ⟨rfl, rfl⟩
  have hres := run_lift hsem (handle h.toServer ⟨some i, e⟩) false s
  have hview := run_lift_view hsem (handle h.toServer ⟨some i, e⟩) false s
  unfold Site.respond
  rw [he]
  simp only [hanswer, plain, run_bind]
  rw [hres]
  exact ⟨rfl, hview⟩

end
end LanWeave

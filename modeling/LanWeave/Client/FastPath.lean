import LanWeave.Client.RouteBooks

/-! The answer to a repeated request against the local networks of the moment. -/

namespace LanWeave
open Library

/-- A request, and the interfaces the system has while it is served. -/
structure RouteCall where
  extra : List Prefix
  ifaces : Option (List Interface)

/-- Nothing fails; the local networks are those of the interfaces other than the tunnel's. -/
def RouteCall.outside (own : String) (r : RouteCall) : Outside :=
  ⟨false, fun p => (localOverlap p own r.ifaces).isSome, fun _ => false, false⟩

/-- The answer is what the slow path gives: the canonical requested prefixes that meet no local
network. -/
def RouteCall.Exact (own : String) (r : RouteCall) (answer : Reply) : Prop :=
  answer.err = none →
    answer.routes = (canonicalPrefixes r.extra).filter fun p => (localOverlap p own r.ifaces).isNone

/-- The condition: a request answered from memory meets no local network. -/
def RouteCall.Steady (own : String) (r : RouteCall) (b : Books) : Prop :=
  b.Remembers r.extra → ∀ p ∈ canonicalPrefixes r.extra, localOverlap p own r.ifaces = none

/-- What was applied is in the order of what was wanted. -/
structure Books.Ordered (b : Books) : Prop where
  kept : b.Kept
  sublist : b.applied.Sublist b.wanted

section
variable {own : String} {call : RouteCall} {b b' : Books} {r : Reply}

theorem Books.Answers.ordered {extra : List Prefix} {o : Outside} (h : b.Answers extra o r b')
    (hb : b.Ordered) : b'.Ordered := by
  refine ⟨h.kept hb.kept, ?_⟩
  cases h with
  | remembered | failed => exact hb.sublist
  | updated => exact (List.filter_sublist).trans List.filter_sublist

theorem RouteCall.routed_eq : b.routed call.extra (call.outside own) =
    (canonicalPrefixes call.extra).filter fun p => (localOverlap p own call.ifaces).isNone := by
  have hall : b.routed call.extra (call.outside own) = Books.routable call.extra (call.outside own) := by
    rw [Books.routed, List.filter_eq_self]
    intro p _
    exact Bool.or_true _
  rw [hall, Books.routable]
  apply List.filter_congr
  intro p _
  show (!(localOverlap p own call.ifaces).isSome) = _
  rw [Option.not_isSome]

theorem RouteCall.exact_remembered (hb : b.Ordered) (hrem : b.Remembers call.extra) :
    call.Exact own ⟨b.applied, none⟩ ↔ call.Steady own b := by
  have happlied : b.applied = canonicalPrefixes call.extra :=
    (hb.sublist.eq_of_length hrem.2).trans hrem.1.symm
  have hsteady : call.Steady own b ↔
      ∀ p ∈ canonicalPrefixes call.extra, localOverlap p own call.ifaces = none :=
    ⟨fun h => h hrem, fun h _ => h⟩
  rw [hsteady]
  show (none = none → b.applied = _) ↔ _
  rw [happlied, eq_comm (a := canonicalPrefixes call.extra), List.filter_eq_self]
  simp

theorem RouteCall.exact_iff (hb : b.Ordered) (h : b.Answers call.extra (call.outside own) r b')
    (hrem : b.Remembers call.extra → r = ⟨b.applied, none⟩) :
    call.Exact own r ↔ call.Steady own b := by
  by_cases hmem : b.Remembers call.extra
  · rw [hrem hmem]
    exact call.exact_remembered hb hmem
  · refine iff_of_true ?_ (fun h => absurd h hmem)
    intro hok
    cases h with
    | remembered h => exact absurd h hmem
    | failed => cases hok
    | updated => exact call.routed_eq

end

section
variable {ε : Type}

/-- Every call of the sequence has the property, told of the books before it and of its answer. -/
def Client.EachCall (c : Client ε) (P : RouteCall → Books → Reply → Prop) : List RouteCall → Prop
  | [] => True
  | r :: calls =>
    let res := c.setExtraRoutes r.extra (r.outside c.tunnel.ifName)
    P r c.books res.1 ∧ EachCall res.2 P calls

def Engine.EachCall (own : String) (e : Engine) (P : RouteCall → Books → Reply → Prop) :
    List RouteCall → Prop
  | [] => True
  | r :: calls =>
    let res := e.setRoutes r.extra (r.outside own)
    P r e.books res.1 ∧ EachCall own res.2 P calls

theorem Client.setExtraRoutes_remembered {c : Client ε} (h : c.Live) {extra : List Prefix} {o : Outside}
    (hrem : c.books.Remembers extra) : (c.setExtraRoutes extra o).1 = ⟨c.books.applied, none⟩ := by
  have hlive : ¬(c.tunnel.state ≠ .connected ∨ c.tunnel.eng.isNone) := by
    simp [h.connected, Option.isNone_eq_false_iff.mpr h.eng]
  have hsame : canonicalPrefixes extra = c.tunnel.extraWanted ∧
      c.tunnel.extraApplied.length = c.tunnel.extraWanted.length := hrem
  unfold Client.setExtraRoutes
  dsimp only
  rw [if_neg hlive, if_pos hsame]
  rfl

theorem Engine.setRoutes_remembered {e : Engine} {extra : List Prefix} {o : Outside}
    (hrem : e.books.Remembers extra) : (e.setRoutes extra o).1 = ⟨e.books.applied, none⟩ := by
  have hsame : canonicalPrefixes extra = e.routesWanted ∧
      e.routesApplied.length = e.routesWanted.length := hrem
  unfold Engine.setRoutes
  dsimp only
  rw [if_pos hsame]
  rfl

theorem Client.setExtraRoutes_ifName {c : Client ε} (extra : List Prefix) (o : Outside) :
    (c.setExtraRoutes extra o).2.tunnel.ifName = c.tunnel.ifName := by
  unfold Client.setExtraRoutes
  dsimp only
  split_ifs
  · rfl
  · rfl
  all_goals
    cases c.tunnel.profile.network with
    | none => rfl
    | some network => cases c.tunnel.profile.serverKey <;> rfl

theorem Client.each_exact_iff {c : Client ε} (h : c.Live) (hb : c.books.Ordered)
    (calls : List RouteCall) :
    c.EachCall (fun r _ answer => r.Exact c.tunnel.ifName answer) calls ↔
      c.EachCall (fun r b _ => r.Steady c.tunnel.ifName b) calls := by
  induction calls generalizing c with
  | nil => exact Iff.rfl
  | cons r calls ih =>
    have hanswer : c.books.Answers r.extra (r.outside c.tunnel.ifName) _ _ :=
      c.setExtraRoutes_answers h.connected h.eng h.kept
    have hrest := ih (h.setExtraRoutes r.extra (r.outside c.tunnel.ifName)) (hanswer.ordered hb)
    rw [Client.setExtraRoutes_ifName] at hrest
    exact and_congr (r.exact_iff hb hanswer fun hrem => Client.setExtraRoutes_remembered h hrem) hrest

theorem Engine.each_exact_iff {own : String} {e : Engine} (hb : e.books.Ordered)
    (calls : List RouteCall) :
    e.EachCall own (fun r _ answer => r.Exact own answer) calls ↔
      e.EachCall own (fun r b _ => r.Steady own b) calls := by
  induction calls generalizing e with
  | nil => exact Iff.rfl
  | cons r calls ih =>
    have hanswer : e.books.Answers r.extra (r.outside own) _ _ := e.setRoutes_answers
    exact and_congr (r.exact_iff hb hanswer Engine.setRoutes_remembered) (ih (hanswer.ordered hb))

/-- On one live tunnel, from its fresh memory, all successful answers are exact if and only if no
request is answered from memory while one of its prefixes meets a local network. -/
theorem fast_path_exact_iff (profile : Profile) (network : Prefix) (eng : ε) (own : String)
    (serverPubKey : Option String) (calls : List RouteCall) :
    let c := Client.fresh profile network eng own
    let e := Engine.fresh network serverPubKey
    (c.EachCall (fun r _ answer => r.Exact own answer) calls ↔
        c.EachCall (fun r b _ => r.Steady own b) calls) ∧
      (e.EachCall own (fun r _ answer => r.Exact own answer) calls ↔
        e.EachCall own (fun r b _ => r.Steady own b) calls) := by
  intro c e
  have hc : c.Live := Client.fresh_live profile network eng own
  exact ⟨Client.each_exact_iff hc ⟨hc.kept, .refl _⟩ calls,
    Engine.each_exact_iff ⟨Engine.fresh_kept network serverPubKey, .refl _⟩ calls⟩

end

/-- The first request finds no local network, at the second one a new interface has the block. -/
def plugged : List RouteCall :=
  [⟨[block], some []⟩, ⟨[block], some [⟨"eth1", some [⟨.v4 0x64690101, 24⟩]⟩]⟩]

/-- The second answer still has the block. -/
theorem overlap_missed :
    (¬labClient.EachCall (fun r _ answer => r.Exact "lanweave0" answer) plugged) ∧
      ¬labEngine.EachCall "lanweave0" (fun r _ answer => r.Exact "lanweave0" answer) plugged := by
  constructor
  · intro h
    exact absurd (h.2.1 (by decide)) (by decide)
  · intro h
    exact absurd (h.2.1 (by decide)) (by decide)

end LanWeave

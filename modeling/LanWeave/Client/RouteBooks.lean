import LanWeave.Client.Routes
import LanWeave.Library.Amend

/-! What a client remembers of its routes against what the system holds: one account for both
clients, and when a call that reports success leaves the two in agreement. -/

namespace LanWeave
open Library

/-- What a client remembers, and the system. -/
structure Books where
  wanted : List Prefix
  applied : List Prefix
  kernel : Kernel

def Client.books {ε : Type} (c : Client ε) : Books :=
  ⟨c.tunnel.extraWanted, c.tunnel.extraApplied, c.kernel⟩

def Engine.books (e : Engine) : Books := ⟨e.routesWanted, e.routesApplied, e.kernel⟩

namespace Books

/-- The request is the last one that succeeded, and all of it was applied. -/
def Remembers (b : Books) (extra : List Prefix) : Prop :=
  canonicalPrefixes extra = b.wanted ∧ b.applied.length = b.wanted.length

def routable (extra : List Prefix) (o : Outside) : List Prefix :=
  (canonicalPrefixes extra).filter fun p => !o.localOverlap p

/-- Of these, what the memory has or can be added. -/
def routed (b : Books) (extra : List Prefix) (o : Outside) : List Prefix :=
  (routable extra o).filter fun p => b.applied.contains p || !o.addFails p

def fresh (b : Books) (extra : List Prefix) (o : Outside) : Finset Prefix :=
  ((routable extra o).filter fun p => !b.applied.contains p && !o.addFails p).toFinset

/-- The masks of what is remembered and requested are in order. -/
def FitsMask (b : Books) (extra : List Prefix) : Prop :=
  (∀ p ∈ b.wanted, p.bits ≤ 32) ∧ ∀ p ∈ extra, p.bits ≤ 32

inductive Answers (b : Books) (extra : List Prefix) (o : Outside) : Reply → Books → Prop
  | remembered : b.Remembers extra → Answers b extra o ⟨b.applied, none⟩ b
  | failed (routes : List Prefix) (err : RouteErr) (k : Kernel) :
      k.allowedIPs = b.kernel.allowedIPs →
      Answers b extra o ⟨routes, some err⟩ ⟨b.wanted, b.applied, k⟩
  | updated (k : Kernel) : ¬ b.Remembers extra →
      ((∀ p ∈ b.routed extra o, p.bits ≤ 32) → k.extraAllowedIPs = b.routed extra o) →
      (b.applied ⊆ b.wanted → b.FitsMask extra → k.routes = amend b.kernel.routes b.applied.toFinset
        (routable extra o).toFinset (b.fresh extra o)) →
      Answers b extra o ⟨b.routed extra o, none⟩
        ⟨canonicalPrefixes extra, b.routed extra o, k⟩

/-- What every call keeps, whatever fails: the memory is in canonical form and says of the
peer what is the case. -/
structure Kept (b : Books) : Prop where
  masked : ∀ p ∈ b.applied, p.masked = p
  applied_wanted : b.applied ⊆ b.wanted
  peer : (∀ p ∈ b.applied, p.bits ≤ 32) → b.kernel.extraAllowedIPs = b.applied

end Books

/-- The routes, the peer and the answer are one set, of prefixes that were asked for. -/
structure Kernel.Agrees (k : Kernel) (returned extra : List Prefix) : Prop where
  routes : k.routes = returned.toFinset
  peer : k.extraAllowedIPs.toFinset = returned.toFinset
  requested : returned ⊆ canonicalPrefixes extra

/-- The condition: a remembered request finds the routes as the memory has them; otherwise
what is kept is still routed, and a route the memory does not know is added again. -/
def Books.Trusted (b : Books) (extra : List Prefix) (o : Outside) : Prop :=
  (b.Remembers extra → b.kernel.routes = b.applied.toFinset) ∧
  (¬ b.Remembers extra →
    (∀ p ∈ b.applied, p ∈ canonicalPrefixes extra → o.localOverlap p = false →
      p ∈ b.kernel.routes) ∧
    ∀ p ∈ b.kernel.routes, p ∉ b.applied →
      p ∈ canonicalPrefixes extra ∧ o.localOverlap p = false ∧ o.addFails p = false)

namespace Books
variable {b b' : Books} {extra : List Prefix} {o : Outside} {r : Reply}

theorem mem_routable {p : Prefix} :
    p ∈ routable extra o ↔ p ∈ canonicalPrefixes extra ∧ o.localOverlap p = false := by
  simp [routable]

theorem mem_routed {p : Prefix} : p ∈ b.routed extra o ↔
    p ∈ routable extra o ∧ (p ∈ b.applied ∨ o.addFails p = false) := by
  simp [routed]

theorem mem_fresh {p : Prefix} : p ∈ b.fresh extra o ↔
    p ∈ routable extra o ∧ p ∉ b.applied ∧ o.addFails p = false := by
  simp [fresh]

theorem routed_toFinset : (b.routed extra o).toFinset =
    (routable extra o).toFinset ∩ b.applied.toFinset ∪ b.fresh extra o := by
  ext p
  simp only [List.mem_toFinset, mem_routed, Finset.mem_union, Finset.mem_inter, mem_fresh]
  by_cases hp : p ∈ b.applied <;> simp [hp]

theorem fresh_subset : b.fresh extra o ⊆ (routable extra o).toFinset \ b.applied.toFinset := by
  intro p hp
  obtain ⟨hr, hm, -⟩ := mem_fresh.mp hp
  exact Finset.mem_sdiff.mpr ⟨List.mem_toFinset.mpr hr, by simpa using hm⟩

theorem routed_subset : b.routed extra o ⊆ canonicalPrefixes extra :=
  fun _ hp => (mem_routable.mp (mem_routed.mp hp).1).1

theorem Answers.kept (h : b.Answers extra o r b') (hb : b.Kept) : b'.Kept := by
  cases h with
  | remembered => exact hb
  | failed routes err k hk =>
    exact ⟨hb.masked, hb.applied_wanted, fun hfits => (congrArg List.tail hk).trans (hb.peer hfits)⟩
  | updated k _ hk =>
    exact ⟨fun p hp => masked_of_mem_canonicalPrefixes (routed_subset hp), routed_subset, hk⟩

theorem bits_of_mem_canonicalPrefixes (hextra : ∀ p ∈ extra, p.bits ≤ 32) :
    ∀ p ∈ canonicalPrefixes extra, p.bits ≤ 32 := by
  intro p hp
  obtain ⟨q, hq, rfl⟩ := mem_canonicalPrefixes.mp hp
  exact Prefix.masked_bits q ▸ hextra q hq

theorem Answers.fitsMask (h : b.Answers extra o r b') (hfits : b.FitsMask extra) :
    ∀ p ∈ b'.wanted, p.bits ≤ 32 := by
  cases h with
  | remembered | failed => exact hfits.1
  | updated => exact bits_of_mem_canonicalPrefixes hfits.2

theorem Answers.agrees_iff (h : b.Answers extra o r b') (hb : b.Kept) (hfits : b.FitsMask extra)
    (hok : r.err = none) :
    b'.kernel.Agrees r.routes extra ↔ b.Trusted extra o := by
  cases h with
  | failed => cases hok
  | remembered hrem =>
    constructor
    · exact fun h => ⟨fun _ => h.routes, fun hn => absurd hrem hn⟩
    · have hpeer := hb.peer fun p hp => hfits.1 p (hb.applied_wanted hp)
      exact fun h => ⟨h.1 hrem, congrArg List.toFinset hpeer, hrem.1 ▸ hb.applied_wanted⟩
  | updated k hrem hk hroutes =>
    have hpeer : k.extraAllowedIPs = b.routed extra o :=
      hk fun p hp => bits_of_mem_canonicalPrefixes hfits.2 p (routed_subset hp)
    have hroutes := hroutes hb.applied_wanted hfits
    have hiff := amend_eq_iff b.kernel.routes (fresh_subset : b.fresh extra o ⊆ _)
    rw [← hroutes, ← routed_toFinset] at hiff
    constructor
    · intro h
      obtain ⟨hkept, hstray⟩ := hiff.mp h.routes
      refine ⟨fun hn => absurd hn hrem, fun _ => ⟨fun p hp hreq hlocal => hkept ?_, fun p hp hn => ?_⟩⟩
      · simpa [mem_routable, hreq, hlocal] using hp
      · obtain ⟨hr, -, hadd⟩ := mem_fresh.mp (hstray (Finset.mem_sdiff.mpr ⟨hp, by simpa using hn⟩))
        exact ⟨(mem_routable.mp hr).1, (mem_routable.mp hr).2, hadd⟩
    · intro h
      obtain ⟨hkept, hstray⟩ := h.2 hrem
      refine ⟨hiff.mpr ⟨fun p hp => ?_, fun p hp => ?_⟩, congrArg List.toFinset hpeer, routed_subset⟩
      · simp only [Finset.mem_inter, List.mem_toFinset, mem_routable] at hp
        exact hkept p hp.2 hp.1.1 hp.1.2
      · simp only [Finset.mem_sdiff, List.mem_toFinset] at hp
        obtain ⟨hreq, hlocal, hadd⟩ := hstray p hp.1 hp.2
        exact mem_fresh.mpr ⟨mem_routable.mpr ⟨hreq, hlocal⟩, hp.2, hadd⟩

/-- Where the system holds exactly what is remembered, every request may be trusted. -/
theorem trusted_of_exact (h : b.kernel.routes = b.applied.toFinset) : b.Trusted extra o := by
  refine ⟨fun _ => h, fun _ => ⟨fun p hp _ _ => ?_, fun p hp hn => ?_⟩⟩
  · rw [h]
    exact List.mem_toFinset.mpr hp
  · rw [h] at hp
    exact absurd (List.mem_toFinset.mp hp) hn

theorem Answers.exact (h : b.Answers extra o r b') (hb : b.Kept) (hfits : b.FitsMask extra)
    (hex : b.kernel.routes = b.applied.toFinset) (hok : r.err = none) :
    b'.kernel.routes = b'.applied.toFinset := by
  have hagree := (h.agrees_iff hb hfits hok).mpr (trusted_of_exact hex)
  cases h with
  | failed => cases hok
  | remembered | updated => exact hagree.routes

end Books

section
variable (o : Outside) (isNew : Prefix → Bool) (dst : Prefix → Prefix) (ps : List Prefix)

theorem routeEach_fst (k : Kernel) :
    (routeEach o isNew dst ps k).1 = ps.filter fun p => !isNew p || !o.addFails p := by
  induction ps generalizing k with
  | nil => rfl
  | cons p ps ih =>
    cases hn : isNew p <;> cases ha : o.addFails p <;> simp [routeEach, hn, ha, ih]

theorem routeEach_snd (k : Kernel) : (routeEach o isNew dst ps k).2 =
    ⟨k.routes ∪ ((ps.filter fun p => isNew p && !o.addFails p).map dst).toFinset, k.allowedIPs⟩ := by
  induction ps generalizing k with
  | nil => simp [routeEach]
  | cons p ps ih =>
    cases hn : isNew p <;> cases ha : o.addFails p <;>
      simp [routeEach, hn, ha, ih, Kernel.addRoute]

end

theorem foldl_delRoute (del : List Prefix) (k : Kernel) :
    del.foldl Kernel.delRoute k = ⟨k.routes \ del.toFinset, k.allowedIPs⟩ := by
  induction del generalizing k with
  | nil => simp
  | cons p del ih =>
    rw [List.foldl_cons, ih]
    simp only [Kernel.delRoute, List.toFinset_cons, Finset.sdiff_insert, Finset.erase_sdiff_comm]

theorem map_masked {ps : List Prefix} (h : ∀ p ∈ ps, p.masked = p) : ps.map Prefix.masked = ps :=
  (List.map_congr_left h).trans (List.map_id _)

namespace Books
variable {b : Books} {extra : List Prefix} {o : Outside}

/-- Deleting first and adding after comes to the amended table. -/
theorem delete_add : b.kernel.routes \
    (b.applied.filter fun p => !(routable extra o).contains p).toFinset ∪
    b.fresh extra o = amend b.kernel.routes b.applied.toFinset (routable extra o).toFinset
      (b.fresh extra o) := by
  ext p
  simp [amend]

/-- So does adding first: what is added is not what is deleted. -/
theorem add_delete :
    (b.kernel.routes ∪ b.fresh extra o) \
        (b.applied.filter fun p => !(routable extra o).contains p).toFinset =
      amend b.kernel.routes b.applied.toFinset (routable extra o).toFinset (b.fresh extra o) := by
  ext p
  simp only [amend, Finset.mem_sdiff, Finset.mem_union, List.mem_toFinset, List.mem_filter,
    List.contains_eq_mem, Bool.not_eq_true', decide_eq_false_iff_not, mem_fresh]
  tauto

/-- What the route part of a call comes to. -/
structure Diffed (b : Books) (extra : List Prefix) (o : Outside) (d : List Prefix × Kernel) : Prop where
  routed : d.1 = b.routed extra o
  allowedIPs : d.2.allowedIPs = b.kernel.allowedIPs
  routes : b.applied ⊆ b.wanted → b.FitsMask extra →
    d.2.routes = amend b.kernel.routes b.applied.toFinset (routable extra o).toFinset (b.fresh extra o)

end Books

theorem ipNet_eq {p : Prefix} (h : p.bits ≤ 32) : p.ipNet = p := if_neg (by omega)

theorem map_ipNet {ps : List Prefix} (h : ∀ p ∈ ps, p.bits ≤ 32) : ps.map Prefix.ipNet = ps :=
  (List.map_congr_left fun p hp => ipNet_eq (h p hp)).trans (List.map_id _)

section
variable {ε : Type} {extra : List Prefix} {o : Outside}

theorem Client.diffRoutes_diffed {c : Client ε} (hb : c.books.Kept) (extra : List Prefix) (o : Outside) :
    c.books.Diffed extra o (c.tunnel.diffRoutes (Books.routable extra o) o c.kernel) := by
  have hnew : ∀ p ∈ Books.routable extra o, ((Books.routable extra o).filter fun p =>
      !c.books.applied.contains p).contains p = !c.books.applied.contains p := by
    intro p hp
    simp [hp]
  have hadd : ((Books.routable extra o).filter fun p => ((Books.routable extra o).filter fun p =>
      !c.books.applied.contains p).contains p && !o.addFails p) =
      (Books.routable extra o).filter fun p => !c.books.applied.contains p && !o.addFails p :=
    List.filter_congr fun p hp => by rw [hnew p hp]
  have hunfold : c.tunnel.diffRoutes (Books.routable extra o) o c.kernel =
      routeEach o (fun p => ((Books.routable extra o).filter fun p =>
          !c.books.applied.contains p).contains p) (fun p => p.masked.ipNet) (Books.routable extra o)
        ((c.books.applied.filter fun p => !(Books.routable extra o).contains p).foldl
          (fun k p => k.delRoute p.masked.ipNet) c.kernel) := rfl
  rw [hunfold, ← List.foldl_map (f := fun p : Prefix => p.masked.ipNet), foldl_delRoute]
  refine ⟨(routeEach_fst ..).trans ?_, by rw [routeEach_snd]; rfl, fun hsub hfits => ?_⟩
  · refine List.filter_congr fun p hp => ?_
    rw [hnew p hp, Bool.not_not]
  · have hwanted : ∀ p ∈ c.books.applied, p.masked.ipNet = p := fun p hp => by
      rw [hb.masked p hp, ipNet_eq (hfits.1 p (hsub hp))]
    have hrouted : ∀ p ∈ Books.routable extra o, p.masked.ipNet = p := fun p hp => by
      have hcanonical := (Books.mem_routable.mp hp).1
      rw [masked_of_mem_canonicalPrefixes hcanonical,
        ipNet_eq (Books.bits_of_mem_canonicalPrefixes hfits.2 p hcanonical)]
    have hdel : (c.books.applied.filter fun p => !(Books.routable extra o).contains p).map
        (fun p => p.masked.ipNet) = c.books.applied.filter fun p =>
          !(Books.routable extra o).contains p :=
      (List.map_congr_left fun p hp => hwanted p (List.mem_filter.mp hp).1).trans (List.map_id _)
    have hmap : ((Books.routable extra o).filter fun p =>
      !c.books.applied.contains p && !o.addFails p).map
        (fun p => p.masked.ipNet) =
          (Books.routable extra o).filter fun p => !c.books.applied.contains p && !o.addFails p :=
      (List.map_congr_left fun p hp => hrouted p (List.mem_filter.mp hp).1).trans (List.map_id _)
    rw [routeEach_snd, hdel, hadd, hmap]
    exact Books.delete_add (b := c.books)

theorem Engine.diffRoutes_diffed (e : Engine) (extra : List Prefix) (o : Outside) :
    e.books.Diffed extra o (e.diffRoutes (Books.routable extra o) o e.kernel) := by
  have hkeep : e.diffRoutes (Books.routable extra o) o e.kernel =
      ((routeEach o (fun p => !e.books.applied.contains p) Prefix.ipNet (Books.routable extra o)
        e.kernel).1, ((e.books.applied.filter fun p => !(Books.routable extra o).contains p).map
          Prefix.ipNet).foldl Kernel.delRoute (routeEach o (fun p => !e.books.applied.contains p)
            Prefix.ipNet (Books.routable extra o) e.kernel).2) := by
    rw [List.foldl_map, List.foldl_filter]
    rfl
  rw [hkeep, routeEach_fst, routeEach_snd, foldl_delRoute]
  simp only [Bool.not_not]
  refine ⟨rfl, rfl, fun hsub hfits => ?_⟩
  rw [map_ipNet fun p hp => hfits.1 p (hsub (List.mem_filter.mp hp).1),
    map_ipNet fun p hp => Books.bits_of_mem_canonicalPrefixes hfits.2 p
      (Books.mem_routable.mp (List.mem_filter.mp hp).1).1]
  exact Books.add_delete (b := e.books)

theorem Client.setExtraRoutes_answers {c : Client ε} (hstate : c.tunnel.state = .connected)
    (heng : c.tunnel.eng.isSome) (hb : c.books.Kept) :
    c.books.Answers extra o (c.setExtraRoutes extra o).1 (c.setExtraRoutes extra o).2.books := by
  have hdiff := c.diffRoutes_diffed hb extra o
  unfold Books.routable at hdiff
  have hlive : ¬ (c.tunnel.state ≠ .connected ∨ c.tunnel.eng.isNone) := by
    simp [hstate, Option.isNone_eq_false_iff.mpr heng]
  unfold Client.setExtraRoutes
  simp only [if_neg hlive, buildPeerUpdate]
  generalize c.tunnel.diffRoutes ((canonicalPrefixes extra).filter fun p => !o.localOverlap p) o
    c.kernel = d at hdiff
  obtain ⟨routed, kernel⟩ := d
  obtain ⟨hrouted, hips, hroutes⟩ := hdiff
  obtain rfl : routed = _ := hrouted
  by_cases hrem : canonicalPrefixes extra = c.tunnel.extraWanted ∧
      c.tunnel.extraApplied.length = c.tunnel.extraWanted.length
  · rw [if_pos hrem]
    exact .remembered hrem
  rw [if_neg hrem]
  cases c.tunnel.profile.network with
  | none => exact .failed _ _ _ hips
  | some network =>
    cases c.tunnel.profile.serverKey with
    | none => exact .failed _ _ _ hips
    | some key =>
      dsimp only [Option.map_some]
      split_ifs with hup
      · exact .failed _ _ _ hips
      · refine .updated _ hrem (fun _ => ?_) hroutes
        exact map_masked fun p hp => masked_of_mem_canonicalPrefixes (Books.routed_subset hp)

theorem Engine.setRoutes_answers (e : Engine) :
    e.books.Answers extra o (e.setRoutes extra o).1 (e.setRoutes extra o).2.books := by
  have hdiff := e.diffRoutes_diffed extra o
  unfold Books.routable at hdiff
  unfold Engine.setRoutes
  dsimp only
  generalize e.diffRoutes ((canonicalPrefixes extra).filter fun p => !o.localOverlap p) o
    e.kernel = d at hdiff
  obtain ⟨routed, kernel⟩ := d
  obtain ⟨hrouted, hips, hroutes⟩ := hdiff
  obtain rfl : routed = _ := hrouted
  by_cases hrem : canonicalPrefixes extra = e.routesWanted ∧
      e.routesApplied.length = e.routesWanted.length
  · rw [if_pos hrem]
    exact .remembered hrem
  rw [if_neg hrem]
  by_cases hlink : o.linkMissing = true
  · rw [if_pos hlink]
    exact .failed _ _ _ rfl
  rw [if_neg hlink]
  cases e.serverPubKey with
  | none => exact .failed _ _ _ hips
  | some key =>
    dsimp only
    split_ifs with hup
    · exact .failed _ _ _ hips
    · exact .updated _ hrem map_ipNet hroutes

end

/-- A connected tunnel, with what every call keeps. -/
structure Client.Live {ε : Type} (c : Client ε) : Prop where
  connected : c.tunnel.state = .connected
  eng : c.tunnel.eng.isSome
  kept : c.books.Kept

def Client.calls {ε : Type} (c : Client ε) (reqs : List (List Prefix × Outside)) : Client ε :=
  reqs.foldl (fun c r => (c.setExtraRoutes r.1 r.2).2) c

def Engine.calls (e : Engine) (reqs : List (List Prefix × Outside)) : Engine :=
  reqs.foldl (fun e r => (e.setRoutes r.1 r.2).2) e

/-- A tunnel that has just come up, before any consumer route. -/
def Client.fresh {ε : Type} (profile : Profile) (network : Prefix) (eng : ε) (ifName : String) :
    Client ε := ⟨⟨profile, .connected, some eng, ifName, [], []⟩, Kernel.up network⟩

def Engine.fresh (network : Prefix) (serverPubKey : Option String) : Engine :=
  ⟨network, serverPubKey, [], [], Kernel.up network.ipNet⟩

section
variable {ε : Type} {c : Client ε}

theorem Client.fresh_live (profile : Profile) (network : Prefix) (eng : ε) (ifName : String) :
    (Client.fresh profile network eng ifName).Live :=
  ⟨rfl, rfl, by simp [Client.books, Client.fresh], List.Subset.refl _, fun _ => rfl⟩

theorem Engine.fresh_kept (network : Prefix) (serverPubKey : Option String) :
    (Engine.fresh network serverPubKey).books.Kept :=
  ⟨by simp [Engine.books, Engine.fresh], List.Subset.refl _, fun _ => rfl⟩

theorem Client.setExtraRoutes_tunnel (extra : List Prefix) (o : Outside) :
    (c.setExtraRoutes extra o).2.tunnel.state = c.tunnel.state ∧
      (c.setExtraRoutes extra o).2.tunnel.eng = c.tunnel.eng := by
  unfold Client.setExtraRoutes
  dsimp only
  split_ifs
  · exact ⟨rfl, rfl⟩
  · exact ⟨rfl, rfl⟩
  all_goals
    cases c.tunnel.profile.network with
    | none => exact ⟨rfl, rfl⟩
    | some network => cases c.tunnel.profile.serverKey <;> exact ⟨rfl, rfl⟩

theorem Client.Live.setExtraRoutes (h : c.Live) (extra : List Prefix) (o : Outside) :
    (c.setExtraRoutes extra o).2.Live := by
  obtain ⟨hstate, heng⟩ := c.setExtraRoutes_tunnel extra o
  exact ⟨hstate.trans h.connected, heng ▸ h.eng,
    (c.setExtraRoutes_answers h.connected h.eng h.kept).kept h.kept⟩

theorem Client.Live.calls (h : c.Live) (reqs : List (List Prefix × Outside)) : (c.calls reqs).Live := by
  induction reqs generalizing c with
  | nil => exact h
  | cons r reqs ih => exact ih (h.setExtraRoutes r.1 r.2)

theorem Engine.calls_kept {e : Engine} (h : e.books.Kept) (reqs : List (List Prefix × Outside)) :
    (e.calls reqs).books.Kept := by
  induction reqs generalizing e with
  | nil => exact h
  | cons r reqs ih => exact ih ((e.setRoutes_answers).kept h)

end

/-- No call of the sequence reports an error. -/
def Client.AllSucceed {ε : Type} (c : Client ε) : List (List Prefix × Outside) → Prop
  | [] => True
  | r :: reqs => (c.setExtraRoutes r.1 r.2).1.err = none ∧
      AllSucceed (c.setExtraRoutes r.1 r.2).2 reqs

def Engine.AllSucceed (e : Engine) : List (List Prefix × Outside) → Prop
  | [] => True
  | r :: reqs => (e.setRoutes r.1 r.2).1.err = none ∧ AllSucceed (e.setRoutes r.1 r.2).2 reqs

/-- No request has an IPv6 prefix longer than /32. -/
def FitMasks (reqs : List (List Prefix × Outside)) : Prop := ∀ r ∈ reqs, ∀ p ∈ r.1, p.bits ≤ 32

theorem Client.Live.calls_fitsMask {ε : Type} {c : Client ε} (h : c.Live)
    (hwanted : ∀ p ∈ c.books.wanted, p.bits ≤ 32) {reqs : List (List Prefix × Outside)}
    (hreqs : FitMasks reqs) : ∀ p ∈ (c.calls reqs).books.wanted, p.bits ≤ 32 := by
  induction reqs generalizing c with
  | nil => exact hwanted
  | cons r reqs ih =>
    have hanswer : c.books.Answers r.1 r.2 _ _ := c.setExtraRoutes_answers h.connected h.eng h.kept
    have hfits : c.books.FitsMask r.1 := ⟨hwanted, hreqs r List.mem_cons_self⟩
    exact ih (h.setExtraRoutes r.1 r.2) (hanswer.fitsMask hfits)
      fun q hq => hreqs q (List.mem_cons_of_mem r hq)

theorem Engine.calls_fitsMask {e : Engine} (hwanted : ∀ p ∈ e.books.wanted, p.bits ≤ 32)
    {reqs : List (List Prefix × Outside)} (hreqs : FitMasks reqs) :
    ∀ p ∈ (e.calls reqs).books.wanted, p.bits ≤ 32 := by
  induction reqs generalizing e with
  | nil => exact hwanted
  | cons r reqs ih =>
    have hanswer : e.books.Answers r.1 r.2 _ _ := e.setRoutes_answers
    have hfits : e.books.FitsMask r.1 := ⟨hwanted, hreqs r List.mem_cons_self⟩
    exact ih (hanswer.fitsMask hfits) fun q hq => hreqs q (List.mem_cons_of_mem r hq)

theorem Client.calls_exact {ε : Type} {c : Client ε} (h : c.Live)
    (hwanted : ∀ p ∈ c.books.wanted, p.bits ≤ 32)
    (hex : c.kernel.routes = c.tunnel.extraApplied.toFinset) {reqs : List (List Prefix × Outside)}
    (hreqs : FitMasks reqs) (hok : c.AllSucceed reqs) :
    (c.calls reqs).kernel.routes = (c.calls reqs).tunnel.extraApplied.toFinset := by
  induction reqs generalizing c with
  | nil => exact hex
  | cons r reqs ih =>
    have hanswer : c.books.Answers r.1 r.2 _ _ := c.setExtraRoutes_answers h.connected h.eng h.kept
    have hfits : c.books.FitsMask r.1 := ⟨hwanted, hreqs r List.mem_cons_self⟩
    exact ih (h.setExtraRoutes r.1 r.2) (hanswer.fitsMask hfits) (hanswer.exact h.kept hfits hex hok.1)
      (fun q hq => hreqs q (List.mem_cons_of_mem r hq)) hok.2

theorem Engine.calls_exact {e : Engine} (h : e.books.Kept)
    (hwanted : ∀ p ∈ e.books.wanted, p.bits ≤ 32)
    (hex : e.kernel.routes = e.routesApplied.toFinset) {reqs : List (List Prefix × Outside)}
    (hreqs : FitMasks reqs) (hok : e.AllSucceed reqs) :
    (e.calls reqs).kernel.routes = (e.calls reqs).routesApplied.toFinset := by
  induction reqs generalizing e with
  | nil => exact hex
  | cons r reqs ih =>
    have hanswer : e.books.Answers r.1 r.2 _ _ := e.setRoutes_answers
    have hfits : e.books.FitsMask r.1 := ⟨hwanted, hreqs r List.mem_cons_self⟩
    exact ih (hanswer.kept h) (hanswer.fitsMask hfits) (hanswer.exact h hfits hex hok.1)
      (fun q hq => hreqs q (List.mem_cons_of_mem r hq)) hok.2

/-- After any sequence of calls, with whatever failures, the next call that reports success
leaves routes, peer and answer in agreement exactly when the memory may be trusted. -/
theorem routes_agree_iff {ε : Type} (profile : Profile) (network : Prefix) (eng : ε) (ifName : String)
    (serverPubKey : Option String) (reqs : List (List Prefix × Outside)) (extra : List Prefix)
    (o : Outside) (hreqs : FitMasks reqs) (hextra : ∀ p ∈ extra, p.bits ≤ 32) :
    let c := (Client.fresh profile network eng ifName).calls reqs
    let e := (Engine.fresh network serverPubKey).calls reqs
    ((c.setExtraRoutes extra o).1.err = none →
      ((c.setExtraRoutes extra o).2.kernel.Agrees (c.setExtraRoutes extra o).1.routes extra ↔
        c.books.Trusted extra o)) ∧
    ((e.setRoutes extra o).1.err = none →
      ((e.setRoutes extra o).2.kernel.Agrees (e.setRoutes extra o).1.routes extra ↔
        e.books.Trusted extra o)) := by
  intro c e
  have hc : c.Live := (Client.fresh_live profile network eng ifName).calls reqs
  have he : e.books.Kept := Engine.calls_kept (Engine.fresh_kept network serverPubKey) reqs
  have hcfits : c.books.FitsMask extra :=
    ⟨(Client.fresh_live profile network eng ifName).calls_fitsMask
      (List.forall_mem_nil _) hreqs, hextra⟩
  have hefits : e.books.FitsMask extra := ⟨Engine.calls_fitsMask (List.forall_mem_nil _) hreqs, hextra⟩
  exact ⟨(c.setExtraRoutes_answers hc.connected hc.eng hc.kept).agrees_iff hc.kept hcfits,
    e.setRoutes_answers.agrees_iff he hefits⟩

def block : Prefix := ⟨.v4 0x64690100, 24⟩

def quiet : Outside := ⟨false, fun _ => false, fun _ => false, false⟩

def labClient : Client Unit :=
  Client.fresh ⟨true, none, none, some ⟨.v4 0x64690000, 20⟩, some "server"⟩ ⟨.v4 0x64690000, 20⟩ ()
    "lanweave0"

def labEngine : Engine := Engine.fresh ⟨.v4 0x64690000, 20⟩ (some "server")

/-- The block is routed by one call and withdrawn by the next. -/
theorem routes_agree_iff_withdrawn :
    ((labClient.calls [([block], quiet)]).setExtraRoutes [] quiet).2.kernel.Agrees [] [] ∧
      ((labEngine.calls [([block], quiet)]).setRoutes [] quiet).2.kernel.Agrees [] [] := by
  have h := routes_agree_iff ⟨true, none, none, some ⟨.v4 0x64690000, 20⟩, some "server"⟩
    ⟨.v4 0x64690000, 20⟩ () "lanweave0" (some "server") [([block], quiet)] [] quiet
    (by unfold FitMasks; decide) (List.forall_mem_nil _)
  exact ⟨(h.1 (by decide)).mpr (Books.trusted_of_exact (by decide)),
    (h.2 (by decide)).mpr (Books.trusted_of_exact (by decide))⟩

/-- The route goes, the update fails, and the request that named the route is answered from
memory. -/
theorem remembered_route_missing :
    let reqs := [([block], quiet), ([], { quiet with updateFails := true })]
    let c := (labClient.calls reqs).setExtraRoutes [block] quiet
    let e := (labEngine.calls reqs).setRoutes [block] quiet
    (c.1.err = none ∧ c.1.routes = [block] ∧ c.2.kernel.routes = ∅ ∧
        ¬ c.2.kernel.Agrees c.1.routes [block]) ∧
      (e.1.err = none ∧ e.1.routes = [block] ∧ e.2.kernel.routes = ∅ ∧
        ¬ e.2.kernel.Agrees e.1.routes [block]) := by
  refine ⟨⟨by decide, by decide, by decide, fun h => ?_⟩, by decide, by decide, by decide, fun h => ?_⟩
  · exact absurd h.routes (by decide)
  · exact absurd h.routes (by decide)

def site : Prefix := ⟨.v6 0x20010db8000000000000000000000000, 48⟩

/-- An IPv6 prefix longer than /32 is routed with a mask of length 0. -/
theorem long_prefix_unmasked :
    let c := labClient.setExtraRoutes [site] quiet
    let e := labEngine.setRoutes [site] quiet
    (c.1.err = none ∧ c.1.routes = [site] ∧ ¬ c.2.kernel.Agrees c.1.routes [site]) ∧
      (e.1.err = none ∧ e.1.routes = [site] ∧ ¬ e.2.kernel.Agrees e.1.routes [site]) := by
  refine ⟨⟨by decide, by decide, fun h => ?_⟩, by decide, by decide, fun h => ?_⟩
  · exact absurd h.routes (by decide)
  · exact absurd h.routes (by decide)

end LanWeave

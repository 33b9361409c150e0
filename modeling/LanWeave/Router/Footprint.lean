import LanWeave.Router.Commands

/-! The operations that the parts of the router's commands perform. -/

namespace LanWeave
open Library Prog Cli

/-- A request for a list, or for a new session token. -/
def ApiCall.Reading : ApiCall → Prop
  | .listZones | .zoneMembers _ | .listAnnouncements _ | .refresh _ => True
  | _ => False

section
variable {ok : HostOp → Prop} {c : ApiClient} {call : ApiCall} {rec : Record}

theorem only_perform {o : HostOp} (h : ok o) : (perform o).Only ok := ⟨h, fun _ => trivial⟩

theorem only_attempt (h : ok (.http c call)) : (attempt c call).Only ok := ⟨h, fun _ => trivial⟩

theorem only_refresh (h : ∀ c rt, ok (.http c (.refresh rt))) : (Cli.refresh c).Only ok := by
  unfold Cli.refresh
  split_ifs
  · trivial
  · apply (only_attempt (h c c.refreshToken)).bind
    intro res
    cases res <;> trivial

theorem only_request (h : ∀ c, ok (.http c call)) (hrefresh : ∀ c rt, ok (.http c (.refresh rt))) :
    (request c call).Only ok := by
  apply (only_attempt (h c)).bind
  intro res
  split_ifs
  · apply (only_refresh hrefresh).bind
    intro renewed
    dsimp only
    split_ifs
    · exact (only_attempt (h _)).bind fun _ => trivial
    · trivial
  · trivial

theorem only_newClient {insecure : Bool} (h : ∀ k, ok (.getKey k)) :
    (newClient insecure rec).Only ok := by
  unfold newClient
  split_ifs
  · trivial
  all_goals exact ⟨h _, fun _ => ⟨h _, fun _ => trivial⟩⟩

theorem only_persistTokens (h : ∀ k ≠ KeyName.deviceKey, ∀ v, ok (.setKey k v)) :
    (persistTokens c).Only ok := by
  have hsession := h .sessionToken (by decide) c.token
  have hrefresh := h .refreshToken (by decide) c.refreshToken
  unfold persistTokens
  split_ifs
  · exact ⟨hsession, fun _ => ⟨hrefresh, fun _ => trivial⟩⟩
  · exact ⟨hrefresh, fun _ => trivial⟩
  · exact ⟨hsession, fun _ => trivial⟩
  · trivial

section
variable (hreads : ∀ c call, call.Reading → call ≠ .listZones → ok (.http c call))
include hreads

theorem only_request_listing (call : ApiCall) (h : call.Reading) (hother : call ≠ .listZones) :
    (request c call).Only ok :=
  only_request (fun c => hreads c call h hother) fun c rt =>
    hreads c (.refresh rt) trivial ApiCall.noConfusion

theorem only_memberZones (selfIP : String) (zones : List ZoneResponse) :
    (memberZones c selfIP zones).Only ok := by
  induction zones generalizing c with
  | nil => trivial
  | cons z zones ih =>
    apply (only_request_listing hreads (.zoneMembers z.name) trivial ApiCall.noConfusion).bind
    intro res
    apply ih.bind
    intro rest
    dsimp only
    split <;> trivial

theorem only_addZones (byID : List RouteSync.Entry) (zones : List ZoneResponse) :
    (addZones c byID zones).Only ok := by
  induction zones generalizing c byID with
  | nil => trivial
  | cons z zones ih =>
    apply (only_request_listing hreads (.listAnnouncements z.name) trivial ApiCall.noConfusion).bind
    intro res
    dsimp only
    split
    · trivial
    · exact ih _

theorem only_fetch (zones : List ZoneResponse) : (fetch c zones).Only ok :=
  (only_addZones hreads [] zones).bind fun _ => trivial

theorem only_after_memberEntries : ∃ f, Cli.memberEntries c rec = request c .listZones >>= f ∧
    ∀ zones, (f zones).Only ok := by
  refine ⟨_, rfl, fun zones => ?_⟩
  dsimp only
  split
  · trivial
  · apply (only_memberZones hreads rec.ip _).bind
    intro kept
    apply (only_fetch hreads kept.1).bind
    intro entries
    split <;> trivial

variable (hnat : ∀ p rules, ok (.rebuildNat p rules))
include hnat

theorem only_after_rebuildFromServer : ∃ f, rebuildFromServer c rec = request c .listZones >>= f ∧
    ∀ zones, (f zones).Only ok := by
  refine ⟨_, rfl, fun zones => ?_⟩
  dsimp only
  split
  · trivial
  · apply (only_fetch hreads _).bind
    intro entries
    split
    · trivial
    · split
      · trivial
      · exact (only_perform (hnat _ _)).bind fun _ => trivial

theorem only_after_reconcileWith (hroutes : ∀ extra, ok (.setRoutes extra)) :
    ∃ f, reconcileWith c rec = request c .listZones >>= f ∧ ∀ zones, (f zones).Only ok := by
  obtain ⟨f, hentries, hf⟩ := @only_after_memberEntries ok c rec hreads
  unfold reconcileWith
  rw [hentries, bind_assoc]
  refine ⟨_, rfl, fun zones => (hf zones).bind fun entries => ?_⟩
  dsimp only
  split
  · trivial
  · split
    · trivial
    · apply (only_perform (hnat _ _)).bind
      intro rebuilt
      split_ifs
      · exact (only_perform (hroutes _)).bind fun _ => trivial
      · trivial

end

section
variable (hreads : ∀ c call, call.Reading → ok (.http c call))
include hreads

theorem only_request_reading (call : ApiCall) (h : call.Reading) : (request c call).Only ok :=
  only_request (fun c => hreads c call h) fun c rt => hreads c (.refresh rt) trivial

variable (hnat : ∀ p rules, ok (.rebuildNat p rules))
include hnat

theorem only_rebuildFromServer : (rebuildFromServer c rec).Only ok := by
  obtain ⟨f, hrebuild, hf⟩ := @only_after_rebuildFromServer ok c rec
    (fun c call h _ => hreads c call h) hnat
  rw [hrebuild]
  exact (only_request_reading hreads .listZones trivial).bind hf

theorem only_reconcileWith (hroutes : ∀ extra, ok (.setRoutes extra)) :
    (reconcileWith c rec).Only ok := by
  obtain ⟨f, hcycle, hf⟩ :=
    @only_after_reconcileWith ok c rec (fun c call h _ => hreads c call h) hnat hroutes
  rw [hcycle]
  exact (only_request_reading hreads .listZones trivial).bind hf

theorem only_reconcileAll {insecure : Bool} (hroutes : ∀ extra, ok (.setRoutes extra))
    (hget : ∀ k, ok (.getKey k)) (hset : ∀ k ≠ KeyName.deviceKey, ∀ v, ok (.setKey k v)) :
    (Cli.reconcileAll insecure rec).Only ok := by
  apply (only_newClient hget).bind
  intro client
  cases client with
  | none => trivial
  | some c =>
    apply (only_reconcileWith hreads hnat hroutes).bind
    intro done
    exact (only_persistTokens hset).bind fun _ => trivial

end
end
end LanWeave

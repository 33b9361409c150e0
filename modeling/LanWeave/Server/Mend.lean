import LanWeave.Server.Drift
import LanWeave.Server.Handlers

/-! What each kernel operation mends, and that none of them breaks what it is not about. -/

namespace LanWeave
open Library Prog

namespace Nft.Frames
variable {t t' : Nft} {zoneIDs : List Int}

theorem of_same (h : t.Frames zoneIDs) (hrules : t'.rules = t.rules)
    (hmembers : ∀ z, (t'.members z).isSome = (t.members z).isSome)
    (hroutes : ∀ z, (t'.routes z).isSome = (t.routes z).isSome) : t'.Frames zoneIDs :=
  ⟨hrules.trans h.rules, fun z => (hmembers z).trans (h.members z),
    fun z => (hroutes z).trans (h.routes z)⟩

theorem addZone (h : t.Frames zoneIDs) (z : Int) :
    ((NetfwOp.addZone z).effect t).Frames (zoneIDs ++ [z]) := by
  have hspec := fun z' => NetfwOp.addZone_spec t z z' 0 (0, 0)
  refine ⟨?_, fun z' => ?_, fun z' => ?_⟩
  · rw [(hspec z).2.2.2.2, h.rules]
    simp [zoneRules]
  · rw [(hspec z').2.2.1, h.members]
    simp [Bool.or_comm]
  · rw [(hspec z').2.2.2.1, h.routes]
    simp [Bool.or_comm]

theorem deleteZone (h : t.Frames zoneIDs) (z : Int) :
    ((NetfwOp.deleteZone z).effect t).Frames (zoneIDs.filter (· ≠ z)) := by
  have hspec := fun z' => NetfwOp.deleteZone_spec t z z' 0 (0, 0)
  have hrules : ∀ ids : List Int, (zoneRules ids).filter (! Rule.referencesZone z ·) =
      zoneRules (ids.filter (· ≠ z)) := by
    intro ids
    rw [zoneRules, zoneRules, List.filter_cons_of_pos rfl]
    congr 1
    induction ids with
    | nil => rfl
    | cons z' ids ih =>
      rw [List.flatMap_cons, List.filter_append, ih]
      by_cases hz : z' = z
      · simp [hz, Rule.referencesZone]
      · simp [hz, Rule.referencesZone]
  refine ⟨?_, fun z' => ?_, fun z' => ?_⟩
  · rw [(hspec z).2.2.2.2, h.rules, hrules]
  · rw [(hspec z').2.2.1, h.members]
    simp [Bool.and_comm]
  · rw [(hspec z').2.2.2.1, h.routes]
    simp [Bool.and_comm]

end Nft.Frames

/-- The database is this one, and the table has these zones. -/
def At {κ : Type} (db : DB) (zoneIDs : List Int) (w : World κ) : Prop :=
  w.db = db ∧ w.nft.Frames zoneIDs

section
variable {κ : Type} [DecidableEq κ] (parseKey : String → Option κ) (db : DB)

def Mends {α : Type} (zoneIDs zoneIDs' : List Int) (p : Handler α) (mended : Grant κ → Prop) :
    Prop :=
  p.Repairs (sem parseKey) (World.Drifts parseKey) (At db zoneIDs) (At db zoneIDs') mended

variable {parseKey} {db} {zoneIDs zoneIDs' : List Int} {mended : Grant κ → Prop}

theorem mends_netfw {o : NetfwOp} (hframes : ∀ t, t.Frames zoneIDs → (o.effect t).Frames zoneIDs')
    (hmended : ∀ w : World κ, At db zoneIDs w → ∀ x, mended x →
      ¬ World.Drifts parseKey { w with nft := o.effect w.nft } x)
    (hother : ∀ w : World κ, At db zoneIDs w → ∀ x, ¬ mended x →
      World.Drifts parseKey { w with nft := o.effect w.nft } x → w.Drifts parseKey x) :
    Mends parseKey db zoneIDs zoneIDs' (netfw o) mended := by
  intro w hat
  change At db zoneIDs' (sem parseKey (.netfw o) false w).2 ∧
    ∀ x, World.Drifts parseKey (sem parseKey (.netfw o) false w).2 x → _
  rw [sem_netfw_snd]
  refine ⟨⟨hat.1, hframes _ hat.2⟩, fun x hx => ?_⟩
  have hnot : ¬ mended x := fun hm => hmended w hat x hm hx
  exact ⟨hother w hat x hnot hx, hnot⟩

theorem mends_addMember (z : Int) (ip : Addr) (hz : z ∈ zoneIDs)
    (hyes : db.MemberIP z (addrToUint32 ip)) :
    Mends parseKey db zoneIDs zoneIDs (netfw (.addMember z ip)) (· = .member z (addrToUint32 ip)) := by
  have hspec := fun t z' b => NetfwOp.addMember_spec t z ip z' b
  refine mends_netfw (fun t ht => ?_) ?_ ?_
  · have hroutes := fun z' => congrFun (hspec t z 0).2.2.1 z'
    exact ht.of_same (hspec t z 0).2.2.2 (fun z' => (hspec t z' 0).2.1)
      fun z' => congrArg Option.isSome (hroutes z')
  · rintro w ⟨rfl, hf⟩ x rfl
    have hset : (w.nft.members z).isSome = true := by simpa [hf.members] using hz
    have hhas := (hspec w.nft z _).1.mpr (.inr ⟨rfl, rfl, hset⟩)
    exact not_not.mpr (iff_of_true hhas hyes)
  · rintro w ⟨rfl, -⟩ x hx hd
    cases x with
    | member z' b =>
      have hsame := (hspec w.nft z' b).1.trans (or_iff_left fun hzb => hx (by rw [hzb.1, hzb.2.1]))
      exact fun hiff => hd (hsame.trans hiff)
    | route z' r =>
      unfold World.Drifts Nft.HasRoute at hd ⊢
      rwa [(hspec w.nft z 0).2.2.1] at hd
    | peer => exact hd

theorem mends_removeMember (z : Int) (ip : Addr) (hno : ¬ db.MemberIP z (addrToUint32 ip)) :
    Mends parseKey db zoneIDs zoneIDs (netfw (.removeMember z ip))
      (· = .member z (addrToUint32 ip)) := by
  have hspec := fun t z' b => NetfwOp.removeMember_spec t z ip z' b
  refine mends_netfw (fun t ht => ?_) ?_ ?_
  · have hroutes := fun z' => congrFun (hspec t z 0).2.2.1 z'
    exact ht.of_same (hspec t z 0).2.2.2 (fun z' => (hspec t z' 0).2.1)
      fun z' => congrArg Option.isSome (hroutes z')
  · rintro w ⟨rfl, -⟩ x rfl
    have hgone := fun hhas => ((hspec w.nft z _).1.mp hhas).2 ⟨rfl, rfl⟩
    exact not_not.mpr (iff_of_false hgone hno)
  · rintro w ⟨rfl, -⟩ x hx hd
    cases x with
    | member z' b =>
      have hsame := (hspec w.nft z' b).1.trans (and_iff_left fun hzb => hx (by rw [hzb.1, hzb.2]))
      exact fun hiff => hd (hsame.trans hiff)
    | route z' r =>
      unfold World.Drifts Nft.HasRoute at hd ⊢
      rwa [(hspec w.nft z 0).2.2.1] at hd
    | peer => exact hd

theorem mends_addZoneRoute (z : Int) (p : Prefix) (hz : z ∈ zoneIDs)
    (hyes : db.ZoneRange z (rangeElements p)) :
    Mends parseKey db zoneIDs zoneIDs (netfw (.addZoneRoute z p)) (· = .route z (rangeElements p)) := by
  have hspec := fun t z' r => NetfwOp.addZoneRoute_spec t z p z' r
  refine mends_netfw (fun t ht => ?_) ?_ ?_
  · have hmembers := fun z' => congrFun (hspec t z (0, 0)).2.2.1 z'
    exact ht.of_same (hspec t z (0, 0)).2.2.2 (fun z' => congrArg Option.isSome (hmembers z'))
      fun z' => (hspec t z' (0, 0)).2.1
  · rintro w ⟨rfl, hf⟩ x rfl
    have hset : (w.nft.routes z).isSome = true := by simpa [hf.routes] using hz
    have hhas := (hspec w.nft z _).1.mpr (.inr ⟨rfl, rfl, hset⟩)
    exact not_not.mpr (iff_of_true hhas hyes)
  · rintro w ⟨rfl, -⟩ x hx hd
    cases x with
    | member z' b =>
      unfold World.Drifts Nft.HasMember at hd ⊢
      rwa [(hspec w.nft z (0, 0)).2.2.1] at hd
    | route z' r =>
      have hsame := (hspec w.nft z' r).1.trans (or_iff_left fun hzr => hx (by rw [hzr.1, hzr.2.1]))
      exact fun hiff => hd (hsame.trans hiff)
    | peer => exact hd

theorem mends_removeZoneRoute (z : Int) (p : Prefix) (hno : ¬ db.ZoneRange z (rangeElements p)) :
    Mends parseKey db zoneIDs zoneIDs (netfw (.removeZoneRoute z p))
      (· = .route z (rangeElements p)) := by
  have hspec := fun t z' r => NetfwOp.removeZoneRoute_spec t z p z' r
  refine mends_netfw (fun t ht => ?_) ?_ ?_
  · have hmembers := fun z' => congrFun (hspec t z (0, 0)).2.2.1 z'
    exact ht.of_same (hspec t z (0, 0)).2.2.2 (fun z' => congrArg Option.isSome (hmembers z'))
      fun z' => (hspec t z' (0, 0)).2.1
  · rintro w ⟨rfl, -⟩ x rfl
    have hgone := fun hhas => ((hspec w.nft z _).1.mp hhas).2 ⟨rfl, rfl⟩
    exact not_not.mpr (iff_of_false hgone hno)
  · rintro w ⟨rfl, -⟩ x hx hd
    cases x with
    | member z' b =>
      unfold World.Drifts Nft.HasMember at hd ⊢
      rwa [(hspec w.nft z (0, 0)).2.2.1] at hd
    | route z' r =>
      have hsame := (hspec w.nft z' r).1.trans (and_iff_left fun hzr => hx (by rw [hzr.1, hzr.2]))
      exact fun hiff => hd (hsame.trans hiff)
    | peer => exact hd

theorem mends_addZone (z : Int) :
    Mends parseKey db zoneIDs (zoneIDs ++ [z]) (netfw (.addZone z)) fun _ => False := by
  refine mends_netfw (fun t ht => ht.addZone z) (fun _ _ _ hx => hx.elim) ?_
  rintro w ⟨rfl, -⟩ x - hd
  cases x with
  | member z' b => exact fun hiff => hd ((NetfwOp.addZone_spec w.nft z z' b (0, 0)).1.trans hiff)
  | route z' r => exact fun hiff => hd ((NetfwOp.addZone_spec w.nft z z' 0 r).2.1.trans hiff)
  | peer => exact hd

theorem mends_deleteZone (h : db.Wf) {z : Int} (hno : ∀ zone ∈ db.zones, zone.id ≠ z) :
    Mends parseKey db zoneIDs (zoneIDs.filter (· ≠ z)) (netfw (.deleteZone z))
      fun x => (∃ ip, x = .member z ip) ∨ ∃ r, x = .route z r := by
  have hmember : ∀ ip, ¬ db.MemberIP z ip := by
    rintro ip ⟨m, hm, hmz, -⟩
    obtain ⟨zone, hzone, hid⟩ := h.member_zone m hm
    exact hno zone hzone (hid.trans hmz)
  have hrange : ∀ r, ¬ db.ZoneRange z r := by
    rintro r ⟨az, haz, hazz, -⟩
    obtain ⟨zone, hzone, hid⟩ := h.attachment_zone az haz
    exact hno zone hzone (hid.trans hazz)
  refine mends_netfw (fun t ht => ht.deleteZone z) ?_ ?_
  · rintro w ⟨rfl, -⟩ x (⟨ip, rfl⟩ | ⟨r, rfl⟩)
    · have hgone := fun hhas => ((NetfwOp.deleteZone_spec w.nft z z ip (0, 0)).1.mp hhas).2 rfl
      exact not_not.mpr (iff_of_false hgone (hmember ip))
    · have hgone := fun hhas => ((NetfwOp.deleteZone_spec w.nft z z 0 r).2.1.mp hhas).2 rfl
      exact not_not.mpr (iff_of_false hgone (hrange r))
  · rintro w ⟨rfl, -⟩ x hx hd
    cases x with
    | member z' b =>
      have hz : z' ≠ z := fun hz => hx (.inl ⟨b, by rw [hz]⟩)
      have hsame := (NetfwOp.deleteZone_spec w.nft z z' b (0, 0)).1.trans (and_iff_left hz)
      exact fun hiff => hd (hsame.trans hiff)
    | route z' r =>
      have hz : z' ≠ z := fun hz => hx (.inr ⟨r, by rw [hz]⟩)
      have hsame := (NetfwOp.deleteZone_spec w.nft z z' 0 r).2.1.trans (and_iff_left hz)
      exact fun hiff => hd (hsame.trans hiff)
    | peer => exact hd

theorem mends_wg {o : WgOp} (hmended : ∀ w : World κ, w.db = db → ∀ x, mended x →
      ¬ World.Drifts parseKey { w with wg := o.effect parseKey w.wg } x)
    (hother : ∀ w : World κ, w.db = db → ∀ x, ¬ mended x →
      World.Drifts parseKey { w with wg := o.effect parseKey w.wg } x → w.Drifts parseKey x) :
    Mends parseKey db zoneIDs zoneIDs (wg o) mended := by
  intro w hat
  change At db zoneIDs (sem parseKey (.wg o) false w).2 ∧
    ∀ x, World.Drifts parseKey (sem parseKey (.wg o) false w).2 x → _
  rw [sem_wg_snd]
  refine ⟨hat, fun x hx => ?_⟩
  have hnot : ¬ mended x := fun hm => hmended w hat.1 x hm hx
  exact ⟨hother w hat.1 x hnot hx, hnot⟩

/-- A peer update with what the database allows the node settles its peer. It takes nothing
from a peer that is settled, since no two nodes are allowed the same. -/
theorem mends_setPeerRoutes (h : db.Wf) (hc : db.Canonical) (hk : db.KeysDecode parseKey) {n : Node}
    (hn : n ∈ db.nodes) {key : κ} (hkey : parseKey n.pubKey = some key) :
    Mends parseKey db zoneIDs zoneIDs
      (wg (.setPeerRoutes n.pubKey (uint32ToAddr n.ip) (db.routes n.id))) (· = .peer key) := by
  refine mends_wg ?_ ?_
  · rintro w rfl x rfl
    refine not_not.mpr ?_
    show WgOp.effect parseKey w.wg _ key = _
    rw [WgOp.effect_setPeerRoutes w.wg hkey, DB.device_of_mem hk hn hkey, Device.configurePeer,
      if_pos rfl, DB.allowed]
  · rintro w rfl x hx hd
    cases x with
    | member | route => exact hd
    | peer key' =>
      have hne : key' ≠ key := fun heq => hx (by rw [heq])
      intro hsame
      refine hd ?_
      show WgOp.effect parseKey w.wg _ key' = _
      rw [WgOp.effect_setPeerRoutes w.wg hkey, Device.configurePeer, if_neg hne, hsame]
      cases hdev : w.db.device parseKey key' with
      | none => rfl
      | some A =>
        obtain ⟨n', hn', hkey', rfl⟩ := (DB.device_eq_some hk).mp hdev
        have hnn : n' ≠ n := by
          rintro rfl
          exact hne (Option.some.inj (hkey'.symm.trans hkey))
        have hdisj := DB.allowed_disjoint h hc hn' hn hnn
        rw [Option.map_some]
        exact congrArg some (Finset.sdiff_eq_self_of_disjoint hdisj)

theorem mends_removePeer {publicKey : String} {key : κ} (hkey : parseKey publicKey = some key)
    (hno : ∀ n ∈ db.nodes, parseKey n.pubKey ≠ some key) :
    Mends parseKey db zoneIDs zoneIDs (wg (.removePeer publicKey)) (· = .peer key) := by
  refine mends_wg ?_ ?_
  · rintro w rfl x rfl
    refine not_not.mpr ?_
    show WgOp.effect parseKey w.wg _ key = _
    rw [WgOp.effect_removePeer w.wg hkey, Function.update_self, DB.device_eq_none hno]
  · rintro w rfl x hx hd
    cases x with
    | member | route => exact hd
    | peer key' =>
      have hne : key' ≠ key := fun heq => hx (by rw [heq])
      intro hsame
      refine hd ?_
      show WgOp.effect parseKey w.wg _ key' = _
      rw [WgOp.effect_removePeer w.wg hkey, Function.update_of_ne hne, hsame]

theorem mends_read {α : Type} {o : StoreOp} (ho : (o.exec db).2 = db)
    {k : Except StoreErr o.Val → Handler α}
    (hk : Mends parseKey db zoneIDs zoneIDs' (k (o.exec db).1) mended) :
    Mends parseKey db zoneIDs zoneIDs' (store o >>= k) mended := by
  rintro w ⟨rfl, hf⟩
  change At _ _ ((k _).run (sem parseKey) false { w with db := (o.exec w.db).2 }).2 ∧
    ∀ x, World.Drifts parseKey ((k _).run _ false { w with db := (o.exec w.db).2 }).2 x → _
  rw [ho]
  exact hk w ⟨rfl, hf⟩

theorem mends_recomputePeer (h : db.Wf) (hc : db.Canonical) (hk : db.KeysDecode parseKey) {n : Node}
    (hn : n ∈ db.nodes) {key : κ} (hkey : parseKey n.pubKey = some key) :
    Mends parseKey db zoneIDs zoneIDs (recomputePeer n.id n.pubKey (uint32ToAddr n.ip))
      (· = .peer key) := by
  rintro w ⟨rfl, hf⟩
  -- the read answers what the database allows the node
  exact mends_setPeerRoutes h hc hk hn hkey w ⟨rfl, hf⟩

theorem mends_forEach {β : Type} {f : β → Handler Unit} {mended : β → Grant κ → Prop} {bs : List β}
    (hf : ∀ b ∈ bs, Mends parseKey db zoneIDs zoneIDs (f b) (mended b)) :
    Mends parseKey db zoneIDs zoneIDs (forEach f bs) fun x => ∃ b ∈ bs, mended b x := by
  have hstep : ∀ b rest, (f b).Repairs (sem parseKey) (World.Drifts parseKey)
      (fun w => b :: rest ⊆ bs ∧ At db zoneIDs w) (fun w => rest ⊆ bs ∧ At db zoneIDs w)
      (mended b) := by
    rintro b rest w ⟨hsub, hat⟩
    obtain ⟨hat', hx⟩ := hf b (hsub List.mem_cons_self) w hat
    exact ⟨⟨fun c hc => hsub (List.mem_cons_of_mem _ hc), hat'⟩, hx⟩
  intro w hat
  obtain ⟨⟨-, hat'⟩, hx⟩ := repairs_forEach (I := fun rest w => rest ⊆ bs ∧ At db zoneIDs w)
    hstep bs w ⟨List.Subset.refl bs, hat⟩
  exact ⟨hat', hx⟩

theorem mends_ignored {β : Type} {p : Handler β} (hp : Mends parseKey db zoneIDs zoneIDs' p mended) :
    Mends parseKey db zoneIDs zoneIDs' (do let _ ← p) mended :=
  (Repairs.bind hp fun _ => repairs_pure ()).mono fun _ => .inl

theorem mends_deleteZones (h : db.Wf) {zs : List Int}
    (hno : ∀ z ∈ zs, ∀ zone ∈ db.zones, zone.id ≠ z) :
    Mends parseKey db zoneIDs (zoneIDs.filter (· ∉ zs))
      (forEach (fun z => do let _ ← netfw (.deleteZone z)) zs)
      fun x => ∃ z ∈ zs, (∃ ip, x = .member z ip) ∨ ∃ r, x = .route z r := by
  induction zs generalizing zoneIDs with
  | nil =>
    have hall : zoneIDs.filter (· ∉ ([] : List Int)) = zoneIDs := by simp
    rw [hall]
    exact mends_forEach fun _ hb => absurd hb List.not_mem_nil
  | cons z zs ih =>
    have hfirst : Mends parseKey db zoneIDs (zoneIDs.filter (· ≠ z))
        (do let _ ← netfw (.deleteZone z)) _ :=
      mends_ignored (mends_deleteZone h (hno z List.mem_cons_self))
    have hrest : Mends parseKey db (zoneIDs.filter (· ≠ z)) ((zoneIDs.filter (· ≠ z)).filter (· ∉ zs))
        (forEach (fun z => do let _ ← netfw (.deleteZone z)) zs) _ :=
      ih fun z' hz' => hno z' (List.mem_cons_of_mem _ hz')
    have hids : (zoneIDs.filter (· ≠ z)).filter (· ∉ zs) = zoneIDs.filter (· ∉ z :: zs) := by
      rw [List.filter_filter]
      refine List.filter_congr fun z' _ => ?_
      simp [Bool.and_comm]
    rw [← hids]
    refine (Repairs.bind hfirst fun _ => hrest).mono fun x hx => ?_
    obtain ⟨z', hz', hz⟩ := hx
    rcases List.mem_cons.mp hz' with rfl | hz'
    · exact .inl hz
    · exact .inr ⟨z', hz', hz⟩

end
end LanWeave

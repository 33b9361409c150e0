import LanWeave.Server.Endpoints
import LanWeave.Server.SyntheticPool

/-! The address plan of a server: what its configuration and its requests make true of every
database it can have. -/

namespace LanWeave
open Library

/-- The server's own address; a network that has none stops the start. -/
def firstUsableAddress (cidr : String) : Option (BitVec 32 × Nat) :=
  match parsePrefix4 cidr with
  | none => none
  | some p =>
    if 30 < p.bits then none
    else
      let first := addrToUint32 p.masked.addr + 1
      if p.contains (.v4 first) then some (first, p.bits) else none

theorem parsePrefix4_v4 {s : String} {p : Prefix} (h : parsePrefix4 s = some p) :
    p.addr.is4 = true ∧ p.Valid := by
  unfold parsePrefix4 at h
  split at h
  · next bits addr _ =>
    simp only [Option.bind_eq_bind, Option.bind_eq_some_iff, pure, Option.some.injEq] at h
    obtain ⟨a, -, n, hn, rfl⟩ := h
    refine ⟨rfl, show n ≤ 32 from ?_⟩
    unfold parseBits at hn
    split_ifs at hn
    exact of_decide_eq_true (Option.filter_eq_some_iff.mp hn).2
  · cases h

theorem blockFromPrefix_aligned {p : Prefix} (h4 : p.addr.is4 = true) (hv : p.Valid) :
    (blockFromPrefix p).Aligned := by
  rw [Block.Aligned, blockFromPrefix_prefixLen]
  exact (pool_bounds h4 hv).1

theorem toNat_hostMask (bits : Nat) :
    (((1 <<< (32 - bits) : BitVec 64) - 1).setWidth 32).toNat = 2 ^ (32 - bits) - 1 := by
  have hpos := Nat.two_pow_pos (32 - bits)
  have hlt : 2 ^ (32 - bits) < 2 ^ 33 := Nat.pow_lt_pow_right (by decide) (by omega)
  have hone : (1 <<< (32 - bits) : BitVec 64).toNat = 2 ^ (32 - bits) := by
    show (BitVec.ofNat 64 (1 <<< (32 - bits))).toNat = _
    rw [BitVec.toNat_ofNat, Nat.one_shiftLeft, Nat.mod_eq_of_lt (by omega)]
  have hle : (1 : BitVec 64) ≤ (1 <<< (32 - bits) : BitVec 64) := by
    rw [BitVec.le_def, hone]
    show 1 ≤ _
    omega
  have hlt' : 2 ^ (32 - bits) ≤ 2 ^ 32 := Nat.pow_le_pow_right (by decide) (by omega)
  rw [BitVec.toNat_setWidth, BitVec.toNat_sub_of_le hle, hone]
  show (_ - 1) % _ = _
  omega

theorem poolRange_eq {cidr : String} {net : Prefix} (hnet : parsePrefix4 cidr = some net) :
    poolRange cidr = if
        ((blockFromPrefix net).base ||| ((1 <<< (32 - net.bits) : BitVec 64) - 1).setWidth 32) - 1 <
          (blockFromPrefix net).base + 2 then none
      else some ((blockFromPrefix net).base + 2,
        ((blockFromPrefix net).base ||| ((1 <<< (32 - net.bits) : BitVec 64) - 1).setWidth 32) - 1) := by
  rw [poolRange, hnet]
  rfl

/-- A network with room for a server has a range, from its base's second next address to the last
before its broadcast address. -/
theorem poolRange_of_bits {cidr : String} {net : Prefix} (hnet : parsePrefix4 cidr = some net)
    (hbits : net.bits ≤ 30) : ∃ first last, poolRange cidr = some (first, last) ∧
      first.toNat = (blockFromPrefix net).base.toNat + 2 ∧
      last.toNat + 2 = (blockFromPrefix net).base.toNat + 2 ^ (32 - net.bits) := by
  obtain ⟨h4, hv⟩ := parsePrefix4_v4 hnet
  obtain ⟨⟨q, hq⟩, hstop⟩ := pool_bounds h4 hv
  have hsize : 4 ≤ 2 ^ (32 - net.bits) := by
    have hpow := Nat.pow_le_pow_right (n := 2) (by decide) (show 2 ≤ 32 - net.bits by omega)
    simpa using hpow
  have hmask := toNat_hostMask net.bits
  have hunfold := poolRange_eq hnet
  generalize (blockFromPrefix net).base = base at *
  generalize (((1 <<< (32 - net.bits) : BitVec 64) - 1).setWidth 32 : BitVec 32) = mask at *
  have hbroadcast : (base ||| mask).toNat = base.toNat + (2 ^ (32 - net.bits) - 1) := by
    rw [BitVec.toNat_or, hmask, hq, Nat.two_pow_add_eq_or_of_lt (by omega)]
  have hfirst : (base + 2).toNat = base.toNat + 2 := by
    rw [BitVec.toNat_add]
    show (_ + 2) % _ = _
    omega
  have hlast : ((base ||| mask) - 1).toNat + 2 = base.toNat + 2 ^ (32 - net.bits) := by
    have hle : (1 : BitVec 32) ≤ base ||| mask := by
      rw [BitVec.le_def, hbroadcast]
      show 1 ≤ _
      omega
    rw [BitVec.toNat_sub_of_le hle, hbroadcast]
    show _ - 1 + 2 = _
    omega
  have hroom : ¬(base ||| mask) - 1 < base + 2 := by
    rw [BitVec.lt_def, hfirst]
    omega
  exact ⟨_, _, hunfold.trans (if_neg hroom), hfirst, hlast⟩

/-- The client addresses lie in the network, as it is large enough to start a server with. -/
theorem mem_network_of_poolRange {cidr : String} {net : Prefix} {first last ip : BitVec 32}
    (hnet : parsePrefix4 cidr = some net) (hbits : net.bits ≤ 30)
    (hrange : poolRange cidr = some (first, last)) (hfirst : first ≤ ip) (hlast : ip ≤ last) :
    ip.toNat ∈ (blockFromPrefix net).addrs := by
  obtain ⟨first', last', hrange', hf, hl⟩ := poolRange_of_bits hnet hbits
  obtain ⟨rfl, rfl⟩ := Prod.mk.inj (Option.some.inj (hrange.symm.trans hrange'))
  rw [BitVec.le_def] at hfirst hlast
  rw [Block.addrs, blockFromPrefix_prefixLen, Set.mem_Ico]
  omega

section
variable {κ : Type} (h : Server κ)

/-- The statements its requests issue: a new node has a key that parses and an address of the
pool range, a new announcement a masked subnet of the admitted sizes. -/
def StoreOp.Issued : StoreOp → Prop
  | .insertNode _ _ pubKey _ ip _ => (h.parseKey pubKey).isSome ∧
    ∃ first last, poolRange h.network = some (first, last) ∧ first ≤ ip ∧ ip ≤ last
  | .createAnnouncement _ _ real _ _ pool => h.announcePool = some pool ∧ real.Aligned ∧
    16 ≤ real.prefixLen ∧ real.prefixLen ≤ 30
  | _ => True

/-- The databases the server can have, whatever is committed in whatever order. -/
inductive DB.Reachable : DB → Prop
  | empty : Reachable .empty
  | statement {db : DB} (o : StoreOp) (ho : o.Issued h) : Reachable db → Reachable (o.exec db).2
  | password {db : DB} (zoneID : Int) (hash : String) :
    Reachable db → Reachable (db.updatePassword zoneID hash)
  | registered {r : Registry} (username passwordHash code : String) (now : Int) :
    Reachable r.db → Reachable (r.register username passwordHash code now).2.db

/-- What the configuration makes true of the rows. -/
structure DB.Planned (db : DB) : Prop where
  wf : db.Wf
  pooled : ∀ pool, h.announcePool = some pool → pool.addr.is4 = true → Pooled pool db
  subnets : ∀ a ∈ db.announcements, a.real.Aligned ∧ 16 ≤ a.prefixLen ∧ a.prefixLen ≤ 30
  ips : ∀ n ∈ db.nodes, ∃ first last, poolRange h.network = some (first, last) ∧
    first ≤ n.ip ∧ n.ip ≤ last
  keys : ∀ n ∈ db.nodes, (h.parseKey n.pubKey).isSome

variable {h} {db db' : DB}

theorem DB.Planned.announcement_length (hp : db.Planned h) :
    ∀ a ∈ db.announcements, a.prefixLen ≤ 32 := by
  intro a ha
  obtain ⟨-, -, hlen⟩ := hp.subnets a ha
  omega

theorem DB.Planned.of_subset (hp : db.Planned h) (hw : db'.Wf)
    (ha : db'.announcements.Sublist db.announcements) (hn : db'.nodes ⊆ db.nodes) :
    db'.Planned h where
  wf := hw
  pooled pool hpool h4 := (hp.pooled pool hpool h4).of_sublist ha
  subnets a hmem := hp.subnets a (ha.subset hmem)
  ips n hmem := hp.ips n (hn hmem)
  keys n hmem := hp.keys n (hn hmem)

theorem DB.Planned.exec (hp : db.Planned h) {o : StoreOp} (ho : o.Issued h) :
    (o.exec db).2.Planned h := by
  have hw := o.exec_wf hp.wf
  have hc := o.exec_change db
  -- only createAnnouncement draws on the pool, and it was issued with the server's own
  have hpools : ∀ pool, h.announcePool = some pool → pool.addr.is4 = true →
      Pooled pool (o.exec db).2 := by
    intro pool hpool h4
    apply (hp.pooled pool hpool h4).change h4 (h.announcePool_valid pool hpool) _ hc
    cases o with
    | createAnnouncement =>
      obtain ⟨hmine, -⟩ := ho
      exact Option.some.inj (hmine.symm.trans hpool)
    | _ => trivial
  generalize (o.exec db).2 = db' at hw hc hpools ⊢
  cases hc with
  | same => exact hp
  | removed _ sub => exact hp.of_subset hw sub.announcements sub.nodes.subset
  | user | zone | member | attachment =>
    exact hp.of_subset hw (List.Sublist.refl _) (List.Subset.refl _)
  | node =>
    obtain ⟨hkey, hip⟩ := ho
    refine ⟨hw, hpools, hp.subnets, ?_, ?_⟩
    · intro n hn
      rcases List.mem_append.mp hn with hn | hn
      · exact hp.ips n hn
      · obtain rfl := List.mem_singleton.mp hn
        exact hip
    · intro n hn
      rcases List.mem_append.mp hn with hn | hn
      · exact hp.keys n hn
      · obtain rfl := List.mem_singleton.mp hn
        exact hkey
  | announcement =>
    obtain ⟨-, hreal, hlen⟩ := ho
    refine ⟨hw, hpools, ?_, hp.ips, hp.keys⟩
    intro a ha
    rcases List.mem_append.mp ha with ha | ha
    · exact hp.subnets a ha
    · obtain rfl := List.mem_singleton.mp ha
      exact ⟨hreal, hlen⟩

/-- Every database of the server keeps to the plan. -/
theorem DB.Reachable.planned (hr : db.Reachable h) : db.Planned h := by
  induction hr with
  | empty =>
    refine ⟨empty_wf, fun pool _ _ => ?_, ?_, ?_, ?_⟩
    · constructor <;> simp [DB.empty]
    all_goals simp [DB.empty]
  | statement o ho _ ih => exact ih.exec ho
  | password zoneID hash _ ih =>
    exact ih.of_subset (updatePassword_wf ih.wf zoneID hash) (List.Sublist.refl _)
      (List.Subset.refl _)
  | registered username passwordHash code now _ ih =>
    rw [Registry.register_db]
    exact ih.exec (o := .register username passwordHash _) trivial

end
end LanWeave

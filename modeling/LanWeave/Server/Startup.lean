import LanWeave.Server.Rebuild

/-! The startup sequence of the server and what the kernel shows in between. -/

namespace LanWeave

/-- The part of the kernel that decides what is forwarded to whom. -/
structure Host (κ : Type) where
  forwarding : Bool
  /-- The WireGuard interface, when there is one. -/
  device : Option (Device κ)
  /-- The isolation table, when there is one: its forward chain has policy drop. -/
  table : Option Nft

inductive StartStep
  | loadConfig
  | openStore
  | migrate
  | ensureAdmin
  | serverKey
  | ensureLink
  | configureDevice
  | enableIPv4Forward
  | allForPeers
  | routesByNode
  | replacePeers
  | allForRebuild
  | routesByZone
  | listTables
  | flushClear
  | flushBuild
  | serve
deriving DecidableEq

namespace StartStep

/-- One Flush, one ConfigureDevice or one write of ip_forward. -/
def visible : StartStep → Bool
  | configureDevice => true
  | enableIPv4Forward => true
  | replacePeers => true
  | flushClear => true
  | flushBuild => true
  | _ => false

variable {κ : Type} [DecidableEq κ] (parseKey : String → Option κ) (db : DB)

def exec : StartStep → Host κ → Except KernelErr (Host κ)
  | ensureLink, h => .ok { h with device := some (h.device.getD fun _ => none) }
  | configureDevice, h => .ok { h with device := some fun _ => none }
  | enableIPv4Forward, h => .ok { h with forwarding := true }
  | replacePeers, h =>
    match rebuildNodePeers parseKey db with
    | .error e => .error e
    | .ok d => .ok { h with device := some d }
  | flushClear, h => .ok { h with table := none }
  | flushBuild, h => .ok { h with table := some (rebuildZoneRules db) }
  | _, h => .ok h

def setupDataPlane : List StartStep := [serverKey, ensureLink, configureDevice, enableIPv4Forward]

def rebuildNodePeers : List StartStep := [allForPeers, routesByNode, replacePeers]

/-- `Manager.Rebuild` clears a stale table in one transaction and builds the new one in another. -/
def rebuildZoneRules : List StartStep :=
  [allForRebuild, routesByZone, listTables, flushClear, flushBuild]

/-- `Run`, up to serving. -/
def run : List StartStep :=
  [loadConfig, openStore, migrate, ensureAdmin] ++ setupDataPlane ++ rebuildNodePeers ++
    rebuildZoneRules ++ [serve]

/-- The steps taken, with the host after each; the first one that fails ends the run. -/
def trail (fails : StartStep → Bool) : List StartStep → Host κ → List (StartStep × Host κ)
  | [], _ => []
  | s :: steps, h =>
    if fails s then []
    else match s.exec parseKey db h with
      | .error _ => []
      | .ok h' => (s, h') :: trail fails steps h'

/-- The environment lets every step up to this one succeed. -/
def Reaches (fails : StartStep → Bool) (s : StartStep) : Prop :=
  ∀ s' ∈ run.take (run.idxOf s + 1), fails s' = false

end StartStep

namespace Host
variable {κ : Type}

def HasPeer (h : Host κ) : Prop := ∃ d ∈ h.device, ∃ key, (d key).isSome

/-- Where packets are forwarded between peers, the isolation table stands. -/
def Isolated (h : Host κ) : Prop := h.forwarding = true → h.HasPeer → h.table.isSome

end Host

/-- Isolated at every point the kernel shows. -/
def FailClosed {κ : Type} (points : List (StartStep × Host κ)) : Prop :=
  ∀ x ∈ points, x.1.visible = true → x.2.Isolated

section
variable {κ : Type} [DecidableEq κ] {parseKey : String → Option κ} {db : DB}
  {fails : StartStep → Bool} {s : StartStep} {steps : List StartStep} {h h' : Host κ}

theorem foldl_configurePeer_isSome (cfgs : List (κ × Finset Prefix)) (d : Device κ) (key : κ) :
    (cfgs.foldl (fun d c => d.configurePeer c.1 c.2) d key).isSome ↔
      (d key).isSome ∨ ∃ c ∈ cfgs, c.1 = key := by
  induction cfgs generalizing d with
  | nil => simp
  | cons c cfgs ih =>
    have hstep : (d.configurePeer c.1 c.2 key).isSome ↔ (d key).isSome ∨ c.1 = key := by
      rw [Device.configurePeer]
      split_ifs with hk
      · simp [hk]
      · simp [Ne.symm hk]
    rw [List.foldl_cons, ih, hstep, List.exists_mem_cons_iff, or_assoc]

omit [DecidableEq κ] in
theorem decodePeers_eq_none {peers : List PeerConfig} :
    Device.decodePeers parseKey peers = none ↔ ∃ p ∈ peers, parseKey p.publicKey = none := by
  induction peers with
  | nil => simp [Device.decodePeers]
  | cons p peers ih =>
    unfold Device.decodePeers at ih ⊢
    rw [List.mapM_cons, List.exists_mem_cons_iff, ← ih]
    cases parseKey p.publicKey with
    | none => simp
    | some key =>
      cases peers.mapM fun p => (parseKey p.publicKey).map fun key => (key, allowedIPs p.ip p.routes) <;>
        simp

omit [DecidableEq κ] in
theorem decodePeers_length {peers : List PeerConfig} {cfgs : List (κ × Finset Prefix)}
    (hd : Device.decodePeers parseKey peers = some cfgs) : cfgs.length = peers.length := by
  induction peers generalizing cfgs with
  | nil =>
    cases hd
    rfl
  | cons p peers ih =>
    unfold Device.decodePeers at ih hd
    rw [List.mapM_cons] at hd
    simp only [Option.bind_eq_bind, Option.bind_eq_some_iff, Option.pure_def, Option.some.injEq] at hd
    obtain ⟨c, -, rest, hrest, rfl⟩ := hd
    rw [List.length_cons, List.length_cons, ih hrest]

/-- `ReplacePeers` fails when some stored key does not parse; otherwise there is a peer exactly
when there is a node. -/
theorem rebuildNodePeers_cases (parseKey : String → Option κ) (db : DB) :
    (∃ e, rebuildNodePeers parseKey db = .error e ∧ ∃ n ∈ db.nodes, parseKey n.pubKey = none) ∨
    ∃ d, rebuildNodePeers parseKey db = .ok d ∧ (∀ n ∈ db.nodes, parseKey n.pubKey ≠ none) ∧
      ((∃ key, (d key).isSome) ↔ db.nodes ≠ []) := by
  have hnone : (∃ p ∈ db.peerConfigs, parseKey p.publicKey = none) ↔
      ∃ n ∈ db.nodes, parseKey n.pubKey = none := by
    simp [DB.peerConfigs]
  rw [rebuildNodePeers, Device.replacePeers]
  cases hd : Device.decodePeers parseKey db.peerConfigs with
  | none => exact .inl ⟨_, rfl, hnone.mp (decodePeers_eq_none.mp hd)⟩
  | some cfgs =>
    refine .inr ⟨_, rfl, fun n hn hkey => ?_, ?_⟩
    · have hfail := decodePeers_eq_none.mpr (hnone.mpr ⟨n, hn, hkey⟩)
      rw [hd] at hfail
      cases hfail
    · have hlen : cfgs.length = db.nodes.length := by
        simpa [DB.peerConfigs] using decodePeers_length hd
      have hempty : cfgs = [] ↔ db.nodes = [] := by
        rw [← List.length_eq_zero_iff, hlen, List.length_eq_zero_iff]
      simp only [foldl_configurePeer_isSome, Option.isSome_none, Bool.false_eq_true, false_or]
      rw [ne_eq, ← hempty]
      cases cfgs with
      | nil => simp
      | cons c cfgs => simp

theorem failClosed_cons (hexec : s.exec parseKey db h = .ok h') :
    FailClosed (StartStep.trail parseKey db fails (s :: steps) h) ↔
      fails s = true ∨ (s.visible = true → h'.Isolated) ∧
        FailClosed (StartStep.trail parseKey db fails steps h') := by
  rw [StartStep.trail, hexec]
  cases hf : fails s with
  | true => simp [FailClosed]
  | false => simp [FailClosed]

theorem failClosed_error {e : KernelErr} (hexec : s.exec parseKey db h = .error e) :
    FailClosed (StartStep.trail parseKey db fails (s :: steps) h) := by
  rw [StartStep.trail, hexec]
  split_ifs <;> exact fun _ hx => absurd hx List.not_mem_nil

theorem failClosed_quiet (hv : s.visible = false) (hexec : s.exec parseKey db h = .ok h') :
    FailClosed (StartStep.trail parseKey db fails (s :: steps) h) ↔
      fails s = true ∨ FailClosed (StartStep.trail parseKey db fails steps h') := by
  rw [failClosed_cons hexec]
  simp [hv]

theorem failClosed_shown (hexec : s.exec parseKey db h = .ok h') (hi : h'.Isolated) :
    FailClosed (StartStep.trail parseKey db fails (s :: steps) h) ↔
      fails s = true ∨ FailClosed (StartStep.trail parseKey db fails steps h') := by
  rw [failClosed_cons hexec]
  simp [hi]

theorem failClosed_flush (hf : h.forwarding = true) (hp : h.HasPeer) :
    FailClosed (StartStep.trail parseKey db fails [.flushClear, .flushBuild, .serve] h) ↔
      fails .flushClear = true := by
  rw [failClosed_cons rfl]
  refine or_iff_left fun hi => ?_
  exact absurd (hi.1 rfl hf hp) Bool.false_ne_true

theorem failClosed_noPeer (hp : ¬ h.HasPeer) :
    FailClosed (StartStep.trail parseKey db fails [.flushClear, .flushBuild, .serve] h) := by
  have hclear : StartStep.exec parseKey db .flushClear h = .ok { h with table := none } := rfl
  rw [failClosed_shown hclear fun _ hpeer => absurd hpeer hp, failClosed_shown rfl fun _ _ => rfl,
    failClosed_quiet rfl rfl]
  exact .inr (.inr (.inr fun _ hx => absurd hx List.not_mem_nil))

/-- Before the peers are replaced there are none, so whatever stands or fails is closed. -/
theorem failClosed_run (host : Host κ) :
    FailClosed (StartStep.trail parseKey db fails StartStep.run host) ↔
      (∃ s ∈ StartStep.run.take 10, fails s = true) ∨
        FailClosed (StartStep.trail parseKey db fails (StartStep.run.drop 10)
          ⟨true, some fun _ => none, host.table⟩) := by
  have hempty : ∀ forwarding, ¬ (Host.mk forwarding (some fun _ : κ => none) host.table).HasPeer := by
    rintro _ ⟨d, hd, key, hkey⟩
    obtain rfl := Option.some.inj hd
    cases hkey
  have hrun : StartStep.run = .loadConfig :: .openStore :: .migrate :: .ensureAdmin :: .serverKey ::
      .ensureLink :: .configureDevice :: .enableIPv4Forward :: .allForPeers :: .routesByNode ::
        StartStep.run.drop 10 := rfl
  have hpre : StartStep.run.take 10 = [.loadConfig, .openStore, .migrate, .ensureAdmin, .serverKey,
      .ensureLink, .configureDevice, .enableIPv4Forward, .allForPeers, .routesByNode] := rfl
  rw [hpre]
  conv_lhs => rw [hrun]
  rw [failClosed_quiet rfl rfl, failClosed_quiet rfl rfl, failClosed_quiet rfl rfl,
    failClosed_quiet rfl rfl, failClosed_quiet rfl rfl, failClosed_quiet rfl rfl,
    failClosed_shown rfl fun _ hpeer => absurd hpeer (hempty _),
    failClosed_shown rfl fun _ hpeer => absurd hpeer (hempty _),
    failClosed_quiet rfl rfl, failClosed_quiet rfl rfl]
  simp [or_assoc]

omit [DecidableEq κ] in
theorem not_reaches_replacePeers : ¬ StartStep.Reaches fails .replacePeers ↔
    (∃ s ∈ StartStep.run.take 10, fails s = true) ∨ fails .replacePeers = true := by
  have htake : StartStep.run.take (StartStep.run.idxOf .replacePeers + 1) =
      StartStep.run.take 10 ++ [.replacePeers] := rfl
  rw [StartStep.Reaches, htake]
  push Not
  simp only [List.mem_append, List.mem_singleton, or_and_right, exists_or, exists_eq_left, ne_eq,
    Bool.not_eq_false]

theorem not_reaches_flushClear : ¬ StartStep.Reaches fails .flushClear ↔
    ¬ StartStep.Reaches fails .replacePeers ∨ fails .allForRebuild = true ∨
      fails .routesByZone = true ∨ fails .listTables = true ∨ fails .flushClear = true := by
  have htake : StartStep.run.take (StartStep.run.idxOf .flushClear + 1) =
      StartStep.run.take (StartStep.run.idxOf .replacePeers + 1) ++
        [.allForRebuild, .routesByZone, .listTables, .flushClear] := rfl
  rw [StartStep.Reaches, StartStep.Reaches, htake]
  push Not
  simp [or_and_right, exists_or]

/-- The sequence is closed at every point exactly when there is no peer to isolate, or it ends
before the peers are there, or an old table stands and it ends before that is cleared. -/
theorem failClosed_run_iff (parseKey : String → Option κ) (db : DB) (fails : StartStep → Bool)
    (host : Host κ) :
    FailClosed (StartStep.trail parseKey db fails StartStep.run host) ↔
      db.nodes = [] ∨ (∃ n ∈ db.nodes, parseKey n.pubKey = none) ∨
        ¬ StartStep.Reaches fails .replacePeers ∨
        host.table.isSome ∧ ¬ StartStep.Reaches fails .flushClear := by
  have hdrop : StartStep.run.drop 10 = .replacePeers :: .allForRebuild :: .routesByZone ::
      .listTables :: [.flushClear, .flushBuild, .serve] := rfl
  rw [failClosed_run, hdrop, not_reaches_flushClear, not_reaches_replacePeers]
  rcases rebuildNodePeers_cases parseKey db with
    ⟨e, he, hbad⟩ | ⟨d, hd, hgood, hpeer⟩
  · have hexec : StartStep.exec parseKey db .replacePeers
        ⟨true, some fun _ => none, host.table⟩ = .error e := by
      simp only [StartStep.exec, he]
    exact iff_of_true (.inr (failClosed_error hexec)) (.inr (.inl hbad))
  have hexec : StartStep.exec parseKey db .replacePeers ⟨true, some fun _ => none, host.table⟩ =
      .ok ⟨true, some d, host.table⟩ := by
    simp only [StartStep.exec, hd]
  have hkeys : ¬ ∃ n ∈ db.nodes, parseKey n.pubKey = none := fun ⟨n, hn, hnone⟩ => hgood n hn hnone
  have hiff : (Host.mk true (some d) host.table).HasPeer ↔ db.nodes ≠ [] := by
    rw [← hpeer]
    exact ⟨fun ⟨d', hd', hk⟩ => Option.some.inj hd' ▸ hk, fun hk => ⟨d, rfl, hk⟩⟩
  rw [failClosed_cons hexec, failClosed_quiet rfl rfl, failClosed_quiet rfl rfl,
    failClosed_quiet rfl rfl]
  by_cases hnodes : db.nodes = []
  · have hnone : ¬ (Host.mk true (some d) host.table).HasPeer := fun h => hiff.mp h hnodes
    refine iff_of_true (.inr (.inr ⟨fun _ _ h => absurd h hnone, ?_⟩)) (.inl hnodes)
    exact .inr (.inr (.inr (failClosed_noPeer hnone)))
  · have hsome := hiff.mpr hnodes
    have hisolated : (StartStep.replacePeers.visible = true →
        (Host.mk true (some d) host.table).Isolated) ↔ host.table.isSome :=
      ⟨fun h => h rfl rfl hsome, fun h _ _ _ => h⟩
    rw [failClosed_flush rfl hsome, hisolated]
    simp only [hnodes, hkeys, false_or]
    -- the stages before the clearing flush, named so that only their failures are left
    generalize (∃ s ∈ StartStep.run.take 10, fails s = true) = early
    tauto

end

/-- A boot with a registered node where nothing fails: between the peers and the table there is a
point with the peer and without the table. -/
theorem boot_forwards_unisolated :
    ¬ FailClosed (StartStep.trail some (labDB []) (fun _ => false) StartStep.run
      (⟨false, none, none⟩ : Host String)) := by
  intro hclosed
  have hpoint : ∃ d : Device String, (d "key").isSome ∧ (.replacePeers, ⟨true, some d, none⟩) ∈
      StartStep.trail some (labDB []) (fun _ => false) StartStep.run
        (⟨false, none, none⟩ : Host String) :=
    ⟨_, rfl, by
      apply List.mem_of_getElem? (i := 10)
      rfl⟩
  obtain ⟨d, hkey, hmem⟩ := hpoint
  exact absurd (hclosed _ hmem rfl rfl ⟨d, rfl, _, hkey⟩) Bool.false_ne_true

end LanWeave

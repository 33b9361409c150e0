import LanWeave.Server.ResyncUsers

/-! Requests served one after another, every operation succeeding: the dataplane is at every
moment what a startup would build. -/

namespace LanWeave
open Library Prog DB

section
variable {κ : Type} [DecidableEq κ]

def serve (h : Server κ) (w : World κ) (r : Request) : World κ :=
  ((handle h r).run (sem h.parseKey) false w).2

/-- The world after requests that come one at a time. -/
def serveAll (h : Server κ) (w : World κ) (requests : List Request) : World κ :=
  requests.foldl (serve h) w

variable {parseKey : String → Option κ} {w : World κ}

omit [DecidableEq κ] in
/-- A node whose key decodes to bytes that no stored key has. -/
theorem NodeFits.keysDecode {db : DB} (hk : db.KeysDecode parseKey) {n : Node}
    (hkey : parseKey n.pubKey ≠ none) (hfresh : ∀ m ∈ db.nodes, parseKey m.pubKey ≠ parseKey n.pubKey)
    (hn : NodeFits db n) : (db.withNode n).KeysDecode parseKey := by
  have hrow : ∀ m ∈ (db.withNode n).nodes, m ∈ db.nodes ∨ m = n := by
    intro m hm
    rcases List.mem_append.mp hm with hm | hm
    · exact .inl hm
    · obtain ⟨id, userID, name, pubKey, ip, platform⟩ := n
      obtain rfl : id = _ := hn.id
      exact .inr (List.mem_singleton.mp hm)
  constructor
  · intro m hm
    rcases hrow m hm with hm | rfl
    · exact hk.isSome m hm
    · exact Option.ne_none_iff_exists'.mp hkey
  · intro m hm m' hm' heq
    rcases hrow m hm with hold | rfl
    · rcases hrow m' hm' with hold' | rfl
      · exact hk.distinct m hold m' hold' heq
      · exact absurd heq (hfresh m hold)
    · rcases hrow m' hm' with hold' | rfl
      · exact absurd heq.symm (hfresh m' hold')
      · rfl

/-- No node of the database has the bytes that the request's key decodes to, unless it has
the very string. -/
def Request.KeyIsOwn (parseKey : String → Option κ) (db : DB) (r : Request) : Prop :=
  match r.call with
  | .registerNode (some req) => ∀ m ∈ db.nodes, parseKey m.pubKey ≠ none →
      parseKey m.pubKey = parseKey req.wgPubKey → m.pubKey = req.wgPubKey
  | _ => True

theorem resync_registerNode (h : Server κ) (hs : w.Settled h.parseKey) (r : Request)
    {body : Option RegisterNodeRequest} (hr : r.call = .registerNode body)
    (hown : r.KeyIsOwn h.parseKey w.db) :
    ((registerNode h r.identity body).run (sem h.parseKey) false w).2.Settled h.parseKey := by
  refine meets_zero.mp (meets_registerNode h (fun _ _ => hs) fun i req hreq hkey node _ hpub hfits => ?_)
  rw [← hpub] at hkey
  have hfresh : ∀ m ∈ w.db.nodes, h.parseKey m.pubKey ≠ h.parseKey node.pubKey := by
    intro m hm heq
    subst hreq
    unfold Request.KeyIsOwn at hown
    rw [hr] at hown
    refine hfits.key m hm ((hown m hm (heq ▸ hkey) (hpub ▸ heq)).trans hpub.symm)
  exact meets_zero.mpr (resync_addNodePeer hs hfits (hfits.keysDecode hs.keys hkey hfresh) i)

theorem settled_serve (h : Server κ) (hs : w.Settled h.parseKey) (r : Request)
    (hown : r.KeyIsOwn h.parseKey w.db) : (serve h w r).Settled h.parseKey := by
  unfold serve handle
  cases hr : r.call with
  | registerNode body => exact resync_registerNode h hs r hr hown
  | deleteNode path => exact resync_deleteNode hs r.identity path
  | createZone body salt =>
    exact meets_zero.mp (meets_createZone h (fun _ _ => hs) fun i name passwordHash member hmem =>
      meets_zero.mpr (resync_createZoneFor hs h i name passwordHash hmem))
  | joinZone name body =>
    exact meets_zero.mp (meets_joinZone h (fun _ _ => hs) fun req _ zone hzone _ node hnode _ =>
      meets_zero.mpr (resync_joinNode hs hzone hnode))
  | leaveZone name body => exact resync_leaveZone hs r.identity name body
  | kickMember name nodeID => exact resync_kickMember hs r.identity name nodeID
  | deleteZone name => exact resync_deleteZone hs r.identity name
  | createAnnouncement name body => exact resync_createAnnouncement hs h r.identity name body
  | deleteAnnouncement name path => exact resync_deleteAnnouncement hs r.identity name path
  | deleteUser path => exact resync_deleteUser hs r.identity path

theorem settled_serveAll (h : Server κ)
    (hinj : ∀ s s' key, h.parseKey s = some key → h.parseKey s' = some key → s = s')
    (hs : w.Settled h.parseKey) (requests : List Request) :
    (serveAll h w requests).Settled h.parseKey := by
  induction requests generalizing w with
  | nil => exact hs
  | cons r requests ih =>
    refine ih (settled_serve h hs r ?_)
    unfold Request.KeyIsOwn
    split
    · intro m _ hsome heq
      obtain ⟨key, hkey⟩ := Option.ne_none_iff_exists'.mp hsome
      exact hinj _ _ key hkey (heq.symm.trans hkey)
    · trivial

omit [DecidableEq κ] in
theorem decodePeers_isSome {peers : List PeerConfig} {cfgs : List (κ × Finset Prefix)}
    (h : Device.decodePeers parseKey peers = some cfgs) :
    ∀ p ∈ peers, ∃ key, parseKey p.publicKey = some key := by
  induction peers generalizing cfgs with
  | nil => exact fun p hp => absurd hp List.not_mem_nil
  | cons p peers ih =>
    simp only [Device.decodePeers, List.mapM_cons, Option.bind_eq_bind, Option.bind_eq_some_iff,
      Option.map_eq_some_iff] at h
    obtain ⟨c, ⟨key, hkey, -⟩, rest, hrest, -⟩ := h
    intro q hq
    rcases List.mem_cons.mp hq with rfl | hq
    · exact ⟨key, hkey⟩
    · exact ih hrest q hq

/-- A rebuild succeeds only where every stored key decodes. -/
theorem World.Rebuilt.settled
    (hinj : ∀ s s' key, parseKey s = some key → parseKey s' = some key → s = s')
    (hw : w.db.Wf) (hc : w.db.Canonical) (hr : w.Rebuilt parseKey) : w.Settled parseKey := by
  have hsome : ∀ n ∈ w.db.nodes, ∃ key, parseKey n.pubKey = some key := by
    intro n hn
    have hok := hr.2
    unfold rebuildNodePeers Device.replacePeers at hok
    cases hd : Device.decodePeers parseKey w.db.peerConfigs with
    | none => simp [hd] at hok
    | some cfgs => exact decodePeers_isSome hd _ (List.mem_map_of_mem hn)
  have hk : w.db.KeysDecode parseKey := by
    refine ⟨hsome, fun n hn n' hn' heq => hw.node_key n hn n' hn' ?_⟩
    obtain ⟨key, hkey⟩ := hsome n hn
    exact hinj _ _ key hkey (heq.symm.trans hkey)
  exact ⟨hw, hc, hk, (synced_iff_rebuilt hw hc hk).mpr hr⟩

/-- After any requests, whatever they were and however they were answered, a restart would
change nothing. -/
theorem incremental_eq_rebuild (h : Server κ)
    (hinj : ∀ s s' key, h.parseKey s = some key → h.parseKey s' = some key → s = s')
    (hw : w.db.Wf) (hc : w.db.Canonical) (hr : w.Rebuilt h.parseKey) (requests : List Request) :
    (serveAll h w requests).Rebuilt h.parseKey ∧ (serveAll h w requests).db.Wf ∧
      (serveAll h w requests).db.Canonical := by
  have hs := settled_serveAll h hinj (hr.settled hinj hw hc) requests
  exact ⟨(synced_iff_rebuilt hs.wf hs.canonical hs.keys).mp hs.synced, hs.wf, hs.canonical⟩

/-- A node that leaves the zone it announces into, and its zone deleted after it. -/
def labRequests : List Request :=
  [⟨alice, .leaveZone "lab" (some ⟨1⟩)⟩, ⟨alice, .joinZone "lab" (some ⟨1, "passphrase"⟩)⟩,
    ⟨alice, .createAnnouncement "lab" (some ⟨1, "192.168.7.0/24"⟩)⟩, ⟨alice, .deleteZone "lab"⟩]

theorem labAnnounced_canonical : labAnnounced.Canonical := by
  intro a ha
  obtain rfl := List.mem_singleton.mp ha
  exact ⟨by decide, Nat.dvd_of_mod_eq_zero (by decide)⟩

theorem labAnnounced_rebuilt : (rebuilt labAnnounced).Rebuilt some := by
  have hk : labAnnounced.KeysDecode some := by
    constructor <;> simp [labAnnounced, labDB]
  exact ⟨rfl, rebuildNodePeers_eq labAnnounced_wf labAnnounced_canonical hk⟩

theorem incremental_eq_rebuild_lab :
    (serveAll labServer (rebuilt labAnnounced) labRequests).Rebuilt some :=
  (incremental_eq_rebuild labServer (fun _ _ _ h h' => Option.some.inj (h.trans h'.symm))
    labAnnounced_wf labAnnounced_canonical labAnnounced_rebuilt labRequests).1

end
end LanWeave

import LanWeave.Golang.Base64
import LanWeave.Server.Effects
import LanWeave.Server.Incremental

/-! A node owns its peer: the device has one peer for each node, and what is done about one node
leaves the peers of the others alone. The text of a key is unique in the database, its bytes are
what the device goes by. -/

namespace LanWeave
open Library Prog DB

section
variable {κ : Type} [DecidableEq κ]

/-- Every request of the sequence meets `ok` in the world it is served in. -/
def EachServed (h : Server κ) (ok : World κ → Request → Prop) : World κ → List Request → Prop
  | _, [] => True
  | w, r :: requests => ok w r ∧ EachServed h ok (serve h w r) requests

/-- Distinct nodes have distinct keys, and the device has exactly their peers, each with the
node's address and its own synthetic blocks. -/
structure OwnsPeers (parseKey : String → Option κ) (w : World κ) : Prop where
  distinct : ∀ n ∈ w.db.nodes, ∀ n' ∈ w.db.nodes, n ≠ n' → parseKey n.pubKey ≠ parseKey n'.pubKey
  peers : ∀ key A, w.wg key = some A ↔
    ∃ n ∈ w.db.nodes, parseKey n.pubKey = some key ∧ A = w.db.allowed n

/-- The requests about one node, and whether a stored node is another one. -/
def Call.AboutAnother : Call → Node → Prop
  | .registerNode _, _ => True
  | .deleteNode path, n => parseInt64 path ≠ some n.id
  | .createAnnouncement _ body, n => ∀ req ∈ body, req.nodeID ≠ n.id
  | _, _ => False

/-- The peer of every node the request is not about is as it was. -/
def LeavesOthers (h : Server κ) (w : World κ) (r : Request) : Prop :=
  ∀ n ∈ w.db.nodes, r.call.AboutAnother n → ∀ key, h.parseKey n.pubKey = some key →
    (serve h w r).wg key = w.wg key

variable {parseKey : String → Option κ} {w : World κ}

theorem World.Settled.ownsPeers (hs : w.Settled parseKey) : OwnsPeers parseKey w := by
  refine ⟨fun n hn n' hn' hne heq => hne (hs.keys.distinct n hn n' hn' heq), fun key A => ?_⟩
  have hdevice : w.wg key = w.db.device parseKey key := not_not.mp (hs.synced.exact (.peer key))
  rw [hdevice, device_eq_some hs.keys]
  refine exists_congr fun n => and_congr_right fun _ => and_congr_right fun _ => eq_comm

theorem peer_unchanged {w' : World κ} (hs : w.Settled parseKey) (hs' : w'.Settled parseKey)
    {n : Node} (hn : n ∈ w.db.nodes) (hn' : n ∈ w'.db.nodes)
    (ha : ∀ a, a.nodeID = n.id → (a ∈ w.db.announcements ↔ a ∈ w'.db.announcements)) {key : κ}
    (hkey : parseKey n.pubKey = some key) : w'.wg key = w.wg key := by
  have hold := (hs.ownsPeers.peers key _).mpr ⟨n, hn, hkey, rfl⟩
  have hnew := (hs'.ownsPeers.peers key _).mpr ⟨n, hn', hkey, rfl⟩
  rw [hold, hnew, allowed_congr ha]

/-- The rows of a node: itself and its announcements. -/
def KeepsNode (n : Node) (db db' : DB) : Prop :=
  n ∈ db'.nodes ∧ ∀ a, a.nodeID = n.id → (a ∈ db.announcements ↔ a ∈ db'.announcements)

section
variable {db : DB} {n : Node}

theorem keepsNode_self (hn : n ∈ db.nodes) : KeepsNode n db db := ⟨hn, fun _ _ => Iff.rfl⟩

theorem keepsNode_withoutNode (hw : db.Wf) (hn : n ∈ db.nodes) {m : Node} (hm : m ∈ db.nodes)
    (hne : n ≠ m) : KeepsNode n db (db.withoutNode m) := by
  refine ⟨(mem_withoutNode hw hm).mpr ⟨hn, hne⟩, fun a ha => ?_⟩
  refine ⟨fun hmem => mem_deleteNodes_announcements.mpr ⟨hmem, fun x hx hid => ?_⟩,
    fun hmem => (mem_deleteNodes_announcements.mp hmem).1⟩
  obtain rfl := hw.nodes_asc.keyed x hx n hn (hid.trans ha)
  have hid' : x.id ≠ m.id := fun heq => hne (hw.nodes_asc.keyed x hn m hm heq)
  simp [hid']

theorem keepsNode_detachOne (hn : n ∈ db.nodes) {annID zoneID : Int}
    (hann : ∀ a ∈ db.announcements, a.id = annID → a.nodeID ≠ n.id) :
    KeepsNode n db (db.detachOne annID zoneID) := by
  have hnodes : (db.detachOne annID zoneID).nodes = db.nodes := (reclaimIfOrphaned_keeps _ _).1
  refine ⟨hnodes.symm ▸ hn, fun a ha => ⟨fun hmem => ?_,
    fun hmem => (sub_detachOne db _ _).announcements.subset hmem⟩⟩
  by_contra hlost
  have hstay : a ∈ (db.deleteAttachments (· = ⟨annID, zoneID⟩)).announcements := hmem
  exact hann a hmem (lost_reclaimIfOrphaned hstay hlost).1 ha

end

/-- The announcement a fresh attachment is of, new or not, is the node's. -/
theorem createAnnouncement_attached {db db' : DB} {userID nodeID : Int} {real : Block}
    {zoneID limit : Int} {pool : Prefix} {ann : Announcement}
    (hc : db.createAnnouncement userID nodeID real zoneID limit pool = (.ok (ann, true), db')) :
    (ann ∈ db.announcements ∧ ann.nodeID = nodeID ∧ ann.real = real ∧
      ⟨zoneID, nodeID⟩ ∈ db.zoneMembers ∧ ⟨ann.id, zoneID⟩ ∉ db.announcementZones ∧
      (∃ z ∈ db.zones, z.id = zoneID) ∧ db' = db.attach ⟨ann.id, zoneID⟩) ∨
    ∃ synthetic, Announceable db userID nodeID real zoneID limit pool synthetic ∧
      ann = ⟨db.seqAnnouncements + 1, nodeID, real.base, real.prefixLen, synthetic.base⟩ ∧
      db' = db.announce nodeID real zoneID synthetic.base := by
  rcases @createAnnouncement_cases db userID nodeID real zoneID limit pool with
    ⟨-, e, he⟩ | ⟨a, -, -, -, -, -, hrun⟩ | ⟨a, ha, hn, hr, hm, hnew, hz, hrun⟩ | ⟨syn, hok, hrun⟩
  · rw [hc] at he
    cases he
  · rw [hc] at hrun
    simp at hrun
  · rw [hc] at hrun
    obtain ⟨hann, hdb⟩ := Prod.mk.inj hrun
    obtain rfl : ann = a := (Prod.mk.inj (Except.ok.inj hann)).1
    exact .inl ⟨ha, hn, hr, hm, hnew, hz, hdb⟩
  · rw [hc] at hrun
    obtain ⟨hann, hdb⟩ := Prod.mk.inj hrun
    exact .inr ⟨syn, hok, (Prod.mk.inj (Except.ok.inj hann)).1, hdb⟩

theorem keepsNode_handle (h : Server κ) {r : Request} {n : Node} (hw : w.db.Wf)
    (hn : n ∈ w.db.nodes) (habout : r.call.AboutAnother n) :
    KeepsNode n w.db (serve h w r).db := by
  obtain ⟨id, call⟩ := r
  have hself : ∀ _ : Response, KeepsNode n w.db w.db := fun _ => keepsNode_self hn
  suffices hl : Leaves h.parseKey (handle h ⟨id, call⟩) w.db fun _ db' => KeepsNode n w.db db' from
    (hl w rfl).run false
  cases call with
  | registerNode body =>
    refine leaves_registerNode h hw hself fun i req m _ _ _ _ hfits => ?_
    have hmem : n ∈ (w.db.withNode m).nodes := List.mem_append_left _ hn
    have hne : n ≠ m := by
      rintro rfl
      exact hfits.ip n hn rfl
    have hkeep := keepsNode_withoutNode (hfits.wf hw) hmem hfits.mem hne
    exact ⟨fun _ => ⟨hmem, fun _ _ => Iff.rfl⟩, fun _ => ⟨hkeep.1, hkeep.2⟩⟩
  | deleteNode path =>
    refine leaves_deleteNode hw hself fun i m _ hm hpath _ _ => keepsNode_withoutNode hw hn hm ?_
    rintro rfl
    exact habout hpath
  | createAnnouncement name body =>
    refine leaves_createAnnouncement h hself fun i req zone node pool p ann db' _ hreq _ _ _ hid _ _ _ _
      hc => ?_
    have hother : node.id ≠ n.id := fun heq => habout req hreq (hid.symm.trans heq)
    rcases createAnnouncement_attached hc with ⟨hann, hnode, -, -, -, -, rfl⟩ | ⟨syn, hok, rfl, rfl⟩
    · -- the announcement was there before, and is of the other node
      have hkeep : KeepsNode n (w.db.attach ⟨ann.id, zone.id⟩)
          ((w.db.attach ⟨ann.id, zone.id⟩).detachOne ann.id zone.id) := by
        refine @keepsNode_detachOne (w.db.attach ⟨ann.id, zone.id⟩) n hn _ _ fun a ha haid => ?_
        rw [hw.announcements_asc.keyed a ha ann hann haid, hnode]
        exact hother
      exact ⟨fun _ => hself ⟨0, .empty⟩, fun _ => hkeep⟩
    · have hnew : KeepsNode n w.db (w.db.announce node.id
        (blockFromPrefix p.masked) zone.id syn.base) := by
        refine ⟨hn, fun a ha => ⟨fun hmem => List.mem_append_left _ hmem, fun hmem => ?_⟩⟩
        rcases List.mem_append.mp hmem with hmem | hmem
        · exact hmem
        · rw [List.mem_singleton.mp hmem] at ha
          exact absurd ha hother
      refine ⟨fun _ => hnew, fun _ => ?_⟩
      -- the announcement is new, and what has its id is of the other node
      have hfresh : ∀ a ∈ (w.db.announce node.id (blockFromPrefix p.masked) zone.id
          syn.base).announcements, a.id = w.db.seqAnnouncements + 1 → a.nodeID ≠ n.id := by
        intro a ha haid
        rcases List.mem_append.mp ha with ha | ha
        · have hle := hw.announcements_seq a ha
          omega
        · rw [List.mem_singleton.mp ha]
          exact hother
      have hkeep := @keepsNode_detachOne _ n hnew.1 _ zone.id hfresh
      exact ⟨hkeep.1, fun a ha => (hnew.2 a ha).trans (hkeep.2 a ha)⟩
  | _ => exact habout.elim

theorem leavesOthers_of_settled (h : Server κ) {r : Request} (hs : w.Settled h.parseKey)
    (hs' : (serve h w r).Settled h.parseKey) : LeavesOthers h w r := by
  intro n hn habout key hkey
  obtain ⟨hn', ha⟩ := keepsNode_handle h hs.wf hn habout
  exact peer_unchanged hs hs' hn hn' ha hkey

/-- From any sound database with its rebuilt dataplane: as long as nobody registers other text
for the bytes of a registered key, the nodes own their peers, and each request leaves the peers
of the nodes it is not about. -/
theorem node_owns_peer (h : Server κ) (hw : w.db.Wf) (hc : w.db.Canonical)
    (hk : w.db.KeysDecode h.parseKey) (hr : w.Rebuilt h.parseKey) (requests : List Request)
    (hown : EachServed h (fun w r => r.KeyIsOwn h.parseKey w.db) w requests) :
    OwnsPeers h.parseKey (serveAll h w requests) ∧ EachServed h (LeavesOthers h) w requests := by
  have hs : w.Settled h.parseKey := ⟨hw, hc, hk, (synced_iff_rebuilt hw hc hk).mpr hr⟩
  clear hw hc hk hr
  induction requests generalizing w with
  | nil => exact ⟨hs.ownsPeers, trivial⟩
  | cons r requests ih =>
    have hs' := settled_serve h hs r hown.1
    obtain ⟨hlast, hrest⟩ := ih hown.2 hs'
    exact ⟨hlast, leavesOthers_of_settled h hs hs', hrest⟩

end

/-- The lab with keys as `wgtypes` reads them. -/
def keyServer : Server WgKey where
  network := "10.0.0.0/24"
  maxDevicesPerUser := 0
  maxOwnedZonesPerUser := 0
  maxAnnouncedSubnetsPerUser := 0
  announcePool := none
  announcePool_valid := by simp
  hashPassword _ password := password
  verifyPassword password encoded := password == encoded
  parseKey := parseWgKey

def twoUsers : DB :=
  { DB.empty with users := [⟨1, "alice", "", false⟩, ⟨2, "bob", "", false⟩], seqUsers := 2 }

def twoUsersWorld : World WgKey := ⟨twoUsers, rebuildZoneRules twoUsers, twoUsers.device parseWgKey⟩

def zeroKey : String := "AAAAAAAAAAAAAAAAAAAAAAAAAAAAAAAAAAAAAAAAAAA="

def otherKey : String := "AAAAAAAAAAAAAAAAAAAAAAAAAAAAAAAAAAAAAAAAAAE="

def bob : Option Identity := some ⟨2, "bob", false⟩

theorem twoUsers_sound : twoUsers.Wf ∧ twoUsers.Canonical ∧ twoUsers.KeysDecode parseWgKey ∧
    twoUsersWorld.Rebuilt parseWgKey := by
  have hw : twoUsers.Wf := by
    constructor <;> simp [twoUsers, DB.empty, Ascending, Keyed]
  have hc : twoUsers.Canonical := by simp [DB.Canonical, twoUsers, DB.empty]
  have hk : twoUsers.KeysDecode parseWgKey := by
    constructor <;> simp [twoUsers, DB.empty]
  exact ⟨hw, hc, hk, rfl, rebuildNodePeers_eq hw hc hk⟩

def registerTwo (key key' : String) : List Request :=
  [⟨some ⟨1, "alice", false⟩, .registerNode (some ⟨"laptop", key, "linux"⟩)⟩,
    ⟨bob, .registerNode (some ⟨"phone", key', "linux"⟩)⟩]

theorem registerTwo_nodes : (serve keyServer twoUsersWorld ⟨some ⟨1, "alice", false⟩,
    .registerNode (some ⟨"laptop", zeroKey, "linux"⟩)⟩).db.nodes =
      [⟨1, 1, "laptop", zeroKey, 0x0A000002, "linux"⟩] := by rfl

theorem node_owns_peer_two : OwnsPeers parseWgKey
    (serveAll keyServer twoUsersWorld (registerTwo zeroKey otherKey)) := by
  obtain ⟨hw, hc, hk, hr⟩ := twoUsers_sound
  have hown : EachServed keyServer (fun w r => r.KeyIsOwn keyServer.parseKey w.db) twoUsersWorld
      (registerTwo zeroKey otherKey) := by
    refine ⟨fun m hm => absurd hm List.not_mem_nil, fun m hm _ heq => ?_, trivial⟩
    rw [registerTwo_nodes] at hm
    rw [List.mem_singleton.mp hm] at heq
    exact absurd heq (by decide)
  exact (node_owns_peer (w := twoUsersWorld) keyServer hw hc hk hr _ hown).1

/-- The second user gives the first one's key with a line break: it is accepted, and the first
user's peer now carries the second one's address. -/
theorem respelled_key_takes_peer :
    ¬ OwnsPeers parseWgKey
        (serveAll keyServer twoUsersWorld (registerTwo zeroKey (zeroKey ++ "\n"))) ∧
      ¬ EachServed keyServer (LeavesOthers keyServer) twoUsersWorld
        (registerTwo zeroKey (zeroKey ++ "\n")) := by
  have hsame : parseWgKey zeroKey = parseWgKey (zeroKey ++ "\n") := parseWgKey_congr (by decide)
  have hkey : parseWgKey zeroKey = some ⟨List.replicate 32 0, rfl⟩ := by decide
  constructor
  · intro h
    refine h.distinct ⟨1, 1, "laptop", zeroKey, 0x0A000002, "linux"⟩ ?_
      ⟨2, 2, "phone", zeroKey ++ "\n", 0x0A000003, "linux"⟩ ?_ (by decide) hsame
    all_goals
      change _ ∈ [Node.mk 1 1 "laptop" zeroKey 0x0A000002 "linux",
        Node.mk 2 2 "phone" (zeroKey ++ "\n") 0x0A000003 "linux"]
      simp
  · rintro ⟨-, hother, -⟩
    have hkeep := hother ⟨1, 1, "laptop", zeroKey, 0x0A000002, "linux"⟩
      (registerTwo_nodes ▸ List.mem_singleton_self _) trivial _ hkey
    change some ({⟨.v4 0x0A000003, 32⟩} : Finset Prefix) = some {⟨.v4 0x0A000002, 32⟩} at hkeep
    simp at hkeep

end LanWeave

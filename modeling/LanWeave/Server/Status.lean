import LanWeave.Golang.Base64Text
import LanWeave.Golang.Time
import LanWeave.Server.Endpoints
import LanWeave.Server.Rebuild

/-! The status of a node: the handshake times of the WireGuard device, read again at an interval. -/

namespace LanWeave
open Library Prog

/-- The zero `time.Time`: the start of the year 1. -/
def zeroTime : Int := -62135596800 * second

/-- `t.Sub(u)`, whose 64 bits saturate. -/
def timeSub (t u : Int) : Int := max (-2 ^ 63) (min (t - u) (2 ^ 63 - 1))

/-- The peers of the device with their LastHandshakeTime. -/
abbrev Peers := List (WgKey × Int)

/-- `Server.Handshakes` of a device that shows these peers. -/
def handshakes (peers : Peers) : String → Option Int :=
  peers.foldl (fun m p => Function.update m p.1.string (some p.2)) fun _ => none

structure Tracker where
  snapshot : String → Option Int

namespace Tracker

def threshold : Int := 3 * 60 * second

def defaultInterval : Int := 30 * second

def new : Tracker := ⟨fun _ => none⟩

/-- `none` where the source fails. -/
def refresh (t : Tracker) : Option (String → Option Int) → Tracker
  | none => t
  | some snap => { t with snapshot := snap }

def online (t : Tracker) (now : Int) (pubKey : String) : Bool :=
  match t.snapshot pubKey with
  | none => false
  | some ts => if ts = zeroTime then false else timeSub now ts < threshold

def lastHandshake (t : Tracker) (pubKey : String) : Option Int :=
  match t.snapshot pubKey with
  | none => none
  | some ts => if ts = zeroTime then none else some ts

/-- A turn of `Run`, and what it reads of the device. -/
structure Poll where
  time : Int
  read : Option Peers

def run (polls : List Poll) : Tracker :=
  polls.foldl (fun t p => t.refresh (p.read.map handshakes)) new

end Tracker

/-- The handlers of a server that keeps a tracker; `format` is that of RFC 3339 in its zone. -/
def Handlers.watching {κ : Type} (h : Handlers κ) (t : Tracker) (now : Int) (format : Int → String) :
    Handlers κ :=
  { h with online := t.online now, lastHandshake := fun k => (t.lastHandshake k).map format }

theorem timeSub_lt_threshold {t u : Int} :
    timeSub t u < Tracker.threshold ↔ t - u < Tracker.threshold := by
  unfold timeSub Tracker.threshold second
  omega

theorem WgKey.string_injective : Function.Injective WgKey.string := by
  intro k k' h
  have hparse := parseWgKey_string k
  rw [h, parseWgKey_string] at hparse
  exact (Option.some.inj hparse).symm

theorem handshakes_eq_some_iff {peers : Peers} (h : (peers.map Prod.fst).Nodup) {text : String}
    {ts : Int} :
    handshakes peers text = some ts ↔ ∃ key : WgKey, key.string = text ∧ (key, ts) ∈ peers := by
  induction peers using List.reverseRecOn with
  | nil => simp [handshakes]
  | append_singleton peers p ih =>
    rw [List.map_append, List.nodup_append] at h
    obtain ⟨hpeers, -, hapart⟩ := h
    have hstep : handshakes (peers ++ [p]) =
        Function.update (handshakes peers) p.1.string (some p.2) := by
      rw [handshakes, List.foldl_append]
      rfl
    rw [hstep]
    by_cases htext : text = p.1.string
    · subst htext
      rw [Function.update_self]
      constructor
      · intro hts
        obtain rfl := Option.some.inj hts
        exact ⟨p.1, rfl, List.mem_append_right _ List.mem_cons_self⟩
      · rintro ⟨key, hkey, hmem⟩
        obtain rfl := WgKey.string_injective hkey
        rcases List.mem_append.mp hmem with hold | hlast
        · exact absurd rfl (hapart _ (List.mem_map_of_mem hold) p.1 List.mem_cons_self)
        · rw [← List.mem_singleton.mp hlast]
    · rw [Function.update_of_ne htext, ih hpeers]
      refine exists_congr fun key => and_congr_right fun hkey => ?_
      refine ⟨List.mem_append_left _, fun hmem => ?_⟩
      rcases List.mem_append.mp hmem with hold | hlast
      · exact hold
      · rw [← List.mem_singleton.mp hlast] at htext
        exact absurd hkey.symm htext

/-- The device has a peer whose key has this text, and it has had a handshake then. -/
def Peers.Shook (peers : Peers) (pubKey : String) (ts : Int) : Prop :=
  ts ≠ zeroTime ∧ ∃ key : WgKey, key.string = pubKey ∧ (key, ts) ∈ peers

/-- The device shows a handshake that is recent enough now. -/
def Peers.Recent (peers : Peers) (now : Int) (pubKey : String) : Prop :=
  ∃ ts, peers.Shook pubKey ts ∧ now - ts < Tracker.threshold

namespace Tracker
variable {t : Tracker} {peers : Peers} {now ts : Int} {pubKey : String} {polls : List Poll} {p q : Poll}

theorem lastHandshake_eq_some_iff :
    t.lastHandshake pubKey = some ts ↔ ts ≠ zeroTime ∧ t.snapshot pubKey = some ts := by
  unfold lastHandshake
  cases t.snapshot pubKey with
  | none => simp
  | some ts' =>
    dsimp only
    split_ifs with hzero
    · refine ⟨fun h => absurd h (by simp), ?_⟩
      rintro ⟨hnonzero, hts⟩
      rw [← Option.some.inj hts] at hnonzero
      exact absurd hzero hnonzero
    · refine ⟨fun h => ⟨?_, h⟩, And.right⟩
      rwa [← Option.some.inj h]

theorem online_iff : t.online now pubKey = true ↔
    ∃ ts, t.lastHandshake pubKey = some ts ∧ now - ts < threshold := by
  unfold online lastHandshake
  cases t.snapshot pubKey with
  | none => simp
  | some ts =>
    dsimp only
    split_ifs with hzero
    · simp
    · simp [timeSub_lt_threshold]

theorem lastHandshake_handshakes (h : (peers.map Prod.fst).Nodup) :
    lastHandshake ⟨handshakes peers⟩ pubKey = some ts ↔ peers.Shook pubKey ts := by
  rw [lastHandshake_eq_some_iff, Peers.Shook]
  exact and_congr_right fun _ => handshakes_eq_some_iff h

/-- The last poll that could read the device. -/
def lastRead (polls : List Poll) : Option Poll := polls.reverse.find? fun p => p.read.isSome

theorem run_append (p : Poll) : run (polls ++ [p]) = (run polls).refresh (p.read.map handshakes) := by
  rw [run, List.foldl_append]
  rfl

theorem lastRead_append (p : Poll) :
    lastRead (polls ++ [p]) = if p.read.isSome then some p else lastRead polls := by
  rw [lastRead, List.reverse_append, List.reverse_singleton, List.singleton_append, List.find?_cons]
  cases p.read <;> rfl

theorem run_cases (polls : List Poll) : lastRead polls = none ∧ run polls = new ∨
    ∃ p peers, lastRead polls = some p ∧ p.read = some peers ∧ run polls = ⟨handshakes peers⟩ := by
  induction polls using List.reverseRecOn with
  | nil => exact .inl ⟨rfl, rfl⟩
  | append_singleton polls p ih =>
    rw [run_append, lastRead_append]
    cases hread : p.read with
    | none => exact ih
    | some peers => exact .inr ⟨p, peers, rfl, hread, rfl⟩

theorem lastRead_spec (hlast : lastRead polls = some p) : p ∈ polls ∧ p.read.isSome = true :=
  ⟨List.mem_reverse.mp (List.mem_of_find?_eq_some hlast),
    List.find?_some (p := fun p : Poll => p.read.isSome) hlast⟩

theorem lastRead_latest (hchron : polls.Pairwise fun p q => p.time ≤ q.time)
    (hlast : lastRead polls = some p) (hq : q ∈ polls) (hread : q.read.isSome = true) :
    q.time ≤ p.time := by
  obtain ⟨-, earlier, later, hpolls, hunread⟩ := List.find?_eq_some_iff_append.mp hlast
  have hrev : (earlier ++ p :: later).Pairwise fun q p => p.time ≤ q.time := by
    rw [← hpolls]
    exact List.pairwise_reverse.mpr hchron
  rw [← List.mem_reverse, hpolls] at hq
  rcases List.mem_append.mp hq with hq | hq
  · have hnot := hunread q hq
    rw [hread] at hnot
    cases hnot
  · rcases List.mem_cons.mp hq with rfl | hq
    · exact le_refl _
    · exact (List.pairwise_cons.mp (List.pairwise_append.mp hrev).2.1).1 q hq

end Tracker

/-- The device over time: its keys are distinct, its handshakes lie in the past. -/
structure DeviceLife where
  peers : Int → Peers
  nodup : ∀ t, ((peers t).map Prod.fst).Nodup
  past : ∀ t, ∀ p ∈ peers t, p.2 ≤ t

structure DeviceLife.Polled (life : DeviceLife) (polls : List Tracker.Poll) (now : Int) : Prop where
  chronological : polls.Pairwise fun p q => p.time ≤ q.time
  past : ∀ p ∈ polls, p.time ≤ now
  read : ∀ p ∈ polls, ∀ peers, p.read = some peers → peers = life.peers p.time

/-- One of the polls of the last interval could read the device. -/
def Tracker.Timely (polls : List Tracker.Poll) (now : Int) : Prop :=
  ∃ p ∈ polls, p.read.isSome = true ∧ now - defaultInterval ≤ p.time

/-- What `online` and `last` say of the peer that has this key. -/
structure StatusSettled (life : DeviceLife) (polls : List Tracker.Poll) (now : Int)
    (format : Int → String) (pubKey : String) (online : Bool) (last : Option String) : Prop where
  shown : online = true ↔
    ∃ p, Tracker.lastRead polls = some p ∧ (life.peers p.time).Recent now pubKey
  dated : ∀ text, last = some text ↔ ∃ p ts, Tracker.lastRead polls = some p ∧
    (life.peers p.time).Shook pubKey ts ∧ format ts = text
  /-- What the device has shown for an interval is told. -/
  seen : Tracker.Timely polls now → (∀ t, now - Tracker.defaultInterval ≤ t → t ≤ now →
    (life.peers t).Recent now pubKey) → online = true
  /-- What the device has not shown for an interval is not. -/
  gone : Tracker.Timely polls now → (∀ t, now - Tracker.defaultInterval ≤ t → t ≤ now →
    ¬(life.peers t).Recent now pubKey) → online = false
  /-- A device that cannot be read any more has no node online. -/
  blind : (∀ p ∈ polls, p.read.isSome = true → p.time + Tracker.threshold ≤ now) → online = false
  /-- `ParseKey` takes other spellings of a key than `Key.String`, which the tracker does not know. -/
  spelled : ∀ key, parseWgKey pubKey = some key → pubKey ≠ key.string → online = false

section
variable {life : DeviceLife} {polls : List Tracker.Poll} {p : Tracker.Poll} {now ts : Int}
  {pubKey : String}

theorem DeviceLife.Polled.lastHandshake_iff (h : life.Polled polls now) :
    (Tracker.run polls).lastHandshake pubKey = some ts ↔
      ∃ p, Tracker.lastRead polls = some p ∧ (life.peers p.time).Shook pubKey ts := by
  rcases Tracker.run_cases polls with ⟨hnone, hrun⟩ | ⟨p, peers, hlast, hread, hrun⟩
  · rw [hrun, hnone]
    simp [Tracker.lastHandshake, Tracker.new]
  · obtain rfl := h.read p (Tracker.lastRead_spec hlast).1 peers hread
    rw [hrun, Tracker.lastHandshake_handshakes (life.nodup _), hlast]
    simp

theorem DeviceLife.Polled.online_iff (h : life.Polled polls now) :
    (Tracker.run polls).online now pubKey = true ↔
      ∃ p, Tracker.lastRead polls = some p ∧ (life.peers p.time).Recent now pubKey := by
  rw [Tracker.online_iff]
  simp only [h.lastHandshake_iff, Peers.Recent]
  constructor
  · rintro ⟨ts, ⟨p, hlast, hshook⟩, hlt⟩
    exact ⟨p, hlast, ts, hshook, hlt⟩
  · rintro ⟨p, hlast, ts, hshook, hlt⟩
    exact ⟨ts, ⟨p, hlast, hshook⟩, hlt⟩

/-- With a poll in the interval that could read the device, the last one lies in it. -/
theorem DeviceLife.Polled.lastRead_timely (h : life.Polled polls now)
    (htimely : Tracker.Timely polls now) :
    ∃ p, Tracker.lastRead polls = some p ∧ now - Tracker.defaultInterval ≤ p.time ∧ p.time ≤ now := by
  obtain ⟨q, hq, hread, hrecent⟩ := htimely
  cases hlast : Tracker.lastRead polls with
  | none => exact absurd hread (List.find?_eq_none.mp hlast q (List.mem_reverse.mpr hq))
  | some p =>
    have hlatest : q.time ≤ p.time := Tracker.lastRead_latest h.chronological hlast hq hread
    exact ⟨p, rfl, hrecent.trans hlatest, h.past p (Tracker.lastRead_spec hlast).1⟩

theorem DeviceLife.Polled.settled (h : life.Polled polls now) (format : Int → String) (pubKey : String) :
    StatusSettled life polls now format pubKey ((Tracker.run polls).online now pubKey)
      (((Tracker.run polls).lastHandshake pubKey).map format) where
  shown := h.online_iff
  dated text := by
    rw [Option.map_eq_some_iff]
    simp only [h.lastHandshake_iff]
    constructor
    · rintro ⟨ts, ⟨p, hlast, hshook⟩, htext⟩
      exact ⟨p, ts, hlast, hshook, htext⟩
    · rintro ⟨p, ts, hlast, hshook, htext⟩
      exact ⟨ts, ⟨p, hlast, hshook⟩, htext⟩
  seen htimely hrecent := by
    obtain ⟨p, hlast, hfrom, hto⟩ := h.lastRead_timely htimely
    exact h.online_iff.mpr ⟨p, hlast, hrecent p.time hfrom hto⟩
  gone htimely hnot := by
    obtain ⟨p, hlast, hfrom, hto⟩ := h.lastRead_timely htimely
    rw [Bool.eq_false_iff]
    intro hon
    obtain ⟨q, hlast', hshown⟩ := h.online_iff.mp hon
    obtain rfl := Option.some.inj (hlast.symm.trans hlast')
    exact hnot p.time hfrom hto hshown
  blind hold := by
    rw [Bool.eq_false_iff]
    intro hon
    obtain ⟨p, hlast, ts, ⟨-, key, -, hmem⟩, hlt⟩ := h.online_iff.mp hon
    obtain ⟨hp, hread⟩ := Tracker.lastRead_spec hlast
    -- every handshake read was old at its poll, so no poll showed the device
    have hage := hold p hp hread
    have hpast : ts ≤ p.time := life.past p.time _ hmem
    omega
  spelled key hkey hne := by
    rw [Bool.eq_false_iff]
    intro hon
    obtain ⟨p, -, ts, ⟨-, key', hkey', -⟩, -⟩ := h.online_iff.mp hon
    rw [← hkey', parseWgKey_string] at hkey
    rw [Option.some.inj hkey] at hkey'
    exact hne hkey'.symm

end

/-- The list of a user's nodes says of each what the polls have left of the device: within an interval
a tunnel that stays up is online and one that is gone is not, and a device that cannot be read has
after three minutes no node online. -/
theorem node_status_settled {κ : Type} [DecidableEq κ] (h : Handlers κ) (i : Identity) (s : Site κ)
    (format : Int → String) {life : DeviceLife} {polls : List Tracker.Poll} {now : Int}
    (hpolls : life.Polled polls now) :
    ∃ items, (listNodes (h.watching (Tracker.run polls) now format) i).run (siteSem h.parseKey) false s =
        (.nodes items, s) ∧
      List.Forall₂ (fun n item => item.id = n.id ∧
          StatusSettled life polls now format n.pubKey item.online item.lastHandshake)
        (s.world.db.listByUser i.userID) items := by
  refine ⟨_, rfl, ?_⟩
  rw [List.forall₂_map_right_iff, List.forall₂_same]
  exact fun n _ => ⟨rfl, hpolls.settled format n.pubKey⟩

def labPeer : WgKey := ⟨List.replicate 32 9, rfl⟩

/-- A device with one peer, from 1970 on. -/
def labLife : DeviceLife where
  peers t := if t < 0 then [] else [(labPeer, 0)]
  nodup t := by
    split_ifs <;> simp
  past t p hp := by
    split_ifs at hp with ht
    · cases hp
    · obtain rfl := List.mem_singleton.mp hp
      exact not_lt.mp ht

def labPolls : List Tracker.Poll := [⟨0, some (labLife.peers 0)⟩, ⟨30 * second, none⟩]

def labNodes : Site String :=
  ⟨rebuilt { labDB [] with nodes := [⟨1, 1, "router", labPeer.string, 0x0A000002, "openwrt"⟩] }, ⟨[], 0⟩⟩

example : (Tracker.run labPolls).online (179 * second) labPeer.string = true := by decide +kernel
example : (Tracker.run labPolls).online (180 * second) labPeer.string = false := by decide +kernel
example : parseWgKey (labPeer.string ++ "\n") = some labPeer := by decide +kernel
example : (Tracker.run labPolls).online (179 * second) (labPeer.string ++ "\n") =
  false := by decide +kernel

theorem node_status_settled_lab :
    ∃ items, (listNodes (labServer.bare.watching (Tracker.run labPolls) (40 * second) toString)
        ⟨1, "alice", true⟩).run (siteSem some) false labNodes = (.nodes items, labNodes) ∧
      List.Forall₂ (fun n item => item.id = n.id ∧
          StatusSettled labLife labPolls (40 * second) toString n.pubKey item.online item.lastHandshake)
        (labNodes.world.db.listByUser 1) items := by
  refine node_status_settled labServer.bare ⟨1, "alice", true⟩ labNodes toString ⟨?_, ?_, ?_⟩
  · simp [labPolls, second]
  · simp [labPolls, second]
  · simp [labPolls]

end LanWeave

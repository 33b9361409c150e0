import LanWeave.Client.StateFile
import LanWeave.Library.AtomicFile
import LanWeave.Router.Credentials

/-! The data directory of the router: the record and the secrets are files, and the daemon and any number
of commands use them at the same time. -/

namespace LanWeave
open Library Prog

/-- The name that a secret is stored under. -/
def KeyName.name : KeyName → String
  | deviceKey => "lanweave-device-private-key"
  | sessionToken => "lanweave-session-token"
  | refreshToken => "lanweave-refresh-token"

theorem pathEscape_name (k : KeyName) : pathEscape k.name = k.name := by
  cases k <;> decide

inductive StoreKey
  | record
  | secret (k : KeyName)
deriving DecidableEq

/-- The data directory, and `keys` in it. -/
inductive Folder
  | data
  | keys
deriving DecidableEq

namespace StoreKey

def path : StoreKey → Folder × String
  | record => (.data, "state.json")
  | secret k => (.keys, pathEscape k.name)

/-- `os.CreateTemp` puts a random number in the place of the last `*`, or at the end. -/
def temp : StoreKey → ℕ → Folder × String
  | record, r => (.data, "state-" ++ r.repr ++ ".tmp")
  | secret k, r => (.keys, "." ++ pathEscape k.name ++ ".tmp" ++ r.repr)

/-- `Set` writes after `Chmod`, `Save` before. -/
def body : StoreKey → List UInt8 → List (Option UInt8)
  | record, bytes => bytes.map some ++ [none]
  | secret _, bytes => none :: bytes.map some

theorem body_bytes (k : StoreKey) (bytes : List UInt8) : (k.body bytes).reduceOption = bytes := by
  have hsome : (bytes.map some).reduceOption = bytes := by
    rw [List.reduceOption, List.filterMap_map]
    exact List.filterMap_some
  cases k with
  | record =>
    show (bytes.map some ++ [none]).reduceOption = bytes
    rw [List.reduceOption_append, hsome]
    exact List.append_nil bytes
  | secret k => exact hsome

theorem path_injective : Function.Injective path := by
  intro k k' h
  cases k with
  | record =>
    cases k' with
    | record => rfl
    | secret k' => exact nomatch congrArg Prod.fst h
  | secret k =>
    cases k' with
    | record => exact nomatch congrArg Prod.fst h
    | secret k' =>
      have hname : pathEscape k.name = pathEscape k'.name := congrArg Prod.snd h
      rw [pathEscape_name, pathEscape_name] at hname
      revert hname
      cases k <;> cases k' <;> decide

theorem temp_ne_path (k : StoreKey) (r : ℕ) (k' : StoreKey) : k.temp r ≠ k'.path := by
  intro h
  cases k with
  | record =>
    cases k' with
    | record =>
      have hbase : ("state-" ++ r.repr ++ ".tmp").toList = "state.json".toList :=
        congrArg (·.2.toList) h
      simp at hbase
    | secret k' => exact nomatch congrArg Prod.fst h
  | secret k =>
    cases k' with
    | record => exact nomatch congrArg Prod.fst h
    | secret k' =>
      have hbase : ("." ++ pathEscape k.name ++ ".tmp" ++ r.repr).toList = (pathEscape k'.name).toList :=
        congrArg (·.2.toList) h
      rw [pathEscape_name k'] at hbase
      cases k' <;> simp [KeyName.name] at hbase

theorem temp_random {k k' : StoreKey} {r r' : ℕ} (h : k.temp r = k'.temp r') : r = r' := by
  have hdigits : Nat.toDigits 10 r = Nat.toDigits 10 r' := by
    cases k with
    | record =>
      cases k' with
      | record =>
        have hbase : ("state-" ++ r.repr ++ ".tmp").toList = ("state-" ++ r'.repr ++ ".tmp").toList :=
          congrArg (·.2.toList) h
        simpa using hbase
      | secret k' => exact nomatch congrArg Prod.fst h
    | secret k =>
      cases k' with
      | record => exact nomatch congrArg Prod.fst h
      | secret k' =>
        have hbase : ("." ++ pathEscape k.name ++ ".tmp" ++ r.repr).toList =
            ("." ++ pathEscape k'.name ++ ".tmp" ++ r'.repr).toList := congrArg (·.2.toList) h
        rw [pathEscape_name, pathEscape_name] at hbase
        -- different names differ in the tenth letter
        cases k <;> cases k' <;> simp [KeyName.name] at hbase <;> exact hbase
  calc
    r = Nat.ofDigitChars 10 (Nat.toDigits 10 r) 0 := Nat.ofDigitChars_ten_toDigits.symm
    _ = Nat.ofDigitChars 10 (Nat.toDigits 10 r') 0 := by rw [hdigits]
    _ = r' := Nat.ofDigitChars_ten_toDigits

end StoreKey

def dataDir : Layout StoreKey (Folder × String) UInt8 where
  path := StoreKey.path
  temp := StoreKey.temp
  body := StoreKey.body
  body_bytes := StoreKey.body_bytes
  path_injective := StoreKey.path_injective
  temp_ne_path := StoreKey.temp_ne_path
  temp_random := StoreKey.temp_random

section
variable {α τ : Type}

def readRecord : Except Unit (Option (List UInt8)) → Except Unit (Option Record)
  | .error _ => .error ()
  | .ok none => .ok none
  | .ok (some bytes) =>
    match Record.ofText bytes with
    | some r => .ok (some r)
    | none => .error ()

/-- A secret that cannot be read is none. -/
def readSecret : Except Unit (Option (List UInt8)) → Option String
  | .ok (some bytes) => ofUtf8 bytes
  | _ => none

/-- What an operation is to the store of files. -/
def HostOp.onStore : (o : HostOp) → Layout.StoreProg StoreKey UInt8 HostOp.Result o.Result
  | .readState => .op (.get .record) fun r => .pure (readRecord r)
  | .saveState r => .op (.set .record (r.saved.text)) .pure
  | .clearState => .op (.delete .record) .pure
  | .getKey k => .op (.get (.secret k)) fun r => .pure (readSecret r)
  | .setKey k v => .op (.set (.secret k) (utf8 v)) .pure
  | .deleteKey k => .op (.delete (.secret k)) .pure
  | o => .op (.outside o) .pure

def Cli.onStore : Cli α → Layout.StoreProg StoreKey UInt8 HostOp.Result α
  | .pure a => .pure a
  | .op o k => o.onStore >>= fun r => onStore (k r)

namespace Safe

/-- The operations that do not touch the data directory. -/
def outside : Semantics HostOp HostOp.Result Choice (List CredentialEvent)
  | o, e, log => ((sem o e ⟨none, fun _ => none, log⟩).1, (sem o e ⟨none, fun _ => none, log⟩).2.log)

def value (s : Safe) : StoreKey → Option (List UInt8)
  | .record => s.file.map Record.text
  | .secret k => (s.keys k).map utf8

def stored (s : Safe) : Store StoreKey UInt8 (List CredentialEvent) := ⟨s.value, s.log⟩

theorem value_file (s : Safe) (r : Option Record) :
    Function.update s.value .record (r.map Record.text) = { s with file := r }.value := by
  funext k
  cases k with
  | record => exact Function.update_self ..
  | secret k =>
    have hne : StoreKey.secret k ≠ .record := nofun
    exact Function.update_of_ne hne ..

theorem value_keys (s : Safe) (k : KeyName) (v : Option String) :
    Function.update s.value (.secret k) (v.map utf8) =
      { s with keys := Function.update s.keys k v }.value := by
  funext k'
  cases k' with
  | record =>
    have hne : StoreKey.record ≠ .secret k := nofun
    exact Function.update_of_ne hne ..
  | secret k' =>
    show _ = (Function.update s.keys k v k').map utf8
    by_cases hk : k' = k
    · rw [hk, Function.update_self, Function.update_self]
    · rw [Function.update_of_ne fun h => hk (StoreKey.secret.inj h), Function.update_of_ne hk]
      rfl

end Safe

theorem HostOp.machine_onStore {i : StoreOp StoreKey UInt8 HostOp} {o : HostOp} {l : StoreLuck Choice}
    {e : Choice} {s : Safe} {f : i.Result HostOp.Result → o.Result}
    (hop : o.onStore = .op i fun r => .pure (f r)) {k : o.Result → Cli α}
    (hanswer : f (StoreOp.sem Safe.outside i l s.stored).1 = (Safe.sem o e s).1)
    (hstate : (StoreOp.sem Safe.outside i l s.stored).2 = (Safe.sem o e s).2.stored) :
    machine (StoreOp.sem Safe.outside) (Cli.onStore (.op o k)) l s.stored =
      (Cli.onStore (machine Safe.sem (.op o k) e s).1, (machine Safe.sem (.op o k) e s).2.stored) := by
  rw [Cli.onStore, hop]
  show (Cli.onStore (k (f (StoreOp.sem Safe.outside i l s.stored).1)), _) = _
  rw [hanswer, hstate]
  rfl

theorem Cli.onStore_pure {p : Cli α} {v : α} (h : onStore p = .pure v) : p = .pure v := by
  cases p with
  | pure a => exact congrArg Prog.pure (Prog.pure.inj h)
  | op o k => cases o <;> cases h

theorem Cli.machine_onStore (p : Cli α) (l : StoreLuck Choice) (s : Safe) :
    ∃ e : Choice, machine (StoreOp.sem Safe.outside) (onStore p) l s.stored =
      (onStore (machine Safe.sem p e s).1, (machine Safe.sem p e s).2.stored) := by
  obtain ⟨fails, luck⟩ := l
  cases p with
  | pure a => exact ⟨luck, rfl⟩
  | op o k =>
    -- whether a call fails is decided with it, all else by what is outside
    cases o with
    | readState =>
      refine ⟨{ luck with fails := fails }, HostOp.machine_onStore rfl ?_ rfl⟩
      show readRecord (if fails then .error () else .ok (s.file.map Record.text)) =
        if fails then .error () else .ok s.file
      cases fails with
      | true => rfl
      | false =>
        cases hfile : s.file with
        | none => rfl
        | some r => simp [readRecord, Record.ofText_text]
    | getKey k' =>
      refine ⟨{ luck with fails := fails }, HostOp.machine_onStore rfl ?_ rfl⟩
      show readSecret (if fails then .error () else .ok ((s.keys k').map utf8)) =
        if fails then none else s.keys k'
      cases fails with
      | true => rfl
      | false =>
        cases hkey : s.keys k' with
        | none => rfl
        | some v => simp [readSecret, ofUtf8_utf8]
    | saveState r =>
      have hvalue := s.value_file (some r.saved)
      cases fails with
      | true => exact ⟨{ luck with fails := true }, HostOp.machine_onStore rfl rfl rfl⟩
      | false =>
        refine ⟨{ luck with fails := false }, HostOp.machine_onStore rfl rfl ?_⟩
        exact congrArg (Store.mk · s.log) hvalue
    | clearState =>
      have hvalue := s.value_file none
      cases fails with
      | true => exact ⟨{ luck with fails := true }, HostOp.machine_onStore rfl rfl rfl⟩
      | false =>
        refine ⟨{ luck with fails := false }, HostOp.machine_onStore rfl rfl ?_⟩
        exact congrArg (Store.mk · s.log) hvalue
    | setKey k' v =>
      have hvalue := s.value_keys k' (some v)
      cases fails with
      | true => exact ⟨{ luck with fails := true }, HostOp.machine_onStore rfl rfl rfl⟩
      | false =>
        refine ⟨{ luck with fails := false }, HostOp.machine_onStore rfl rfl ?_⟩
        exact congrArg (Store.mk · s.log) hvalue
    | deleteKey k' =>
      have hvalue := s.value_keys k' none
      cases fails with
      | true => exact ⟨{ luck with fails := true }, HostOp.machine_onStore rfl rfl rfl⟩
      | false =>
        refine ⟨{ luck with fails := false }, HostOp.machine_onStore rfl rfl ?_⟩
        exact congrArg (Store.mk · s.log) hvalue
    | _ => exact ⟨luck, rfl⟩

/-- The commands with the data directory as a store of files. -/
def storeConfig (c : Config τ (Cli α) Safe) :
    Config τ (Layout.StoreProg StoreKey UInt8 HostOp.Result α)
      (Store StoreKey UInt8 (List CredentialEvent)) :=
  ⟨fun t => Cli.onStore (c.threads t), c.shared.stored⟩

variable [DecidableEq τ]

theorem step_storeConfig (c : Config τ (Cli α) Safe) (t : τ) (l : StoreLuck Choice) :
    ∃ e : Choice, (storeConfig c).step (machine (StoreOp.sem Safe.outside)) t l =
      storeConfig (c.step (machine Safe.sem) t e) := by
  obtain ⟨e, he⟩ := Cli.machine_onStore (c.threads t) l c.shared
  refine ⟨e, congrArg₂ Config.mk ?_ (congrArg Prod.snd he)⟩
  funext u
  by_cases hu : u = t
  · rw [hu, Function.update_self, Config.step_self]
    exact congrArg Prod.fst he
  · rw [Function.update_of_ne hu, Config.step_other c hu]
    rfl

theorem exec_storeConfig (c : Config τ (Cli α) Safe) (sched : List (τ × FileLuck Choice))
    (points : List (Option (StoreLuck Choice))) :
    ∃ moments : List (Option Choice), moments.length = points.length ∧ ∀ n,
      (storeConfig c).exec (machine (StoreOp.sem Safe.outside))
          (Layout.calls (sched.take n) (points.take n)) =
        storeConfig (c.exec (machine Safe.sem) (Layout.calls (sched.take n) (moments.take n))) := by
  induction points generalizing sched c with
  | nil =>
    refine ⟨[], rfl, fun n => ?_⟩
    rw [List.take_nil, List.take_nil, Layout.calls_nil, Layout.calls_nil]
    rfl
  | cons o points ih =>
    cases sched with
    | nil =>
      obtain ⟨moments, hlen, -⟩ := ih c []
      refine ⟨none :: moments, congrArg (· + 1) hlen, fun n => ?_⟩
      rw [List.take_nil]
      rfl
    | cons s sched =>
      cases o with
      | none =>
        obtain ⟨moments, hlen, hexec⟩ := ih c sched
        refine ⟨none :: moments, congrArg (· + 1) hlen, fun n => ?_⟩
        cases n with
        | zero => rfl
        | succ n => exact hexec n
      | some l =>
        obtain ⟨e, he⟩ := step_storeConfig c s.1 l
        obtain ⟨moments, hlen, hexec⟩ := ih (c.step (machine Safe.sem) s.1 e) sched
        refine ⟨some e :: moments, congrArg (· + 1) hlen, fun n => ?_⟩
        cases n with
        | zero => rfl
        | succ n =>
          have hrest := hexec n
          rw [← he] at hrest
          exact hrest

/-- The files hold what the commands have left, and who has finished has finished. -/
def AsSingleSteps (c : Config τ (Layout.FileProg (Folder × String) UInt8 HostOp.Result α)
    (Disk (Folder × String) UInt8 (List CredentialEvent))) (a : Config τ (Cli α) Safe) : Prop :=
  dataDir.contents c.shared = a.shared.stored ∧ ∀ t v, c.threads t = .pure v → a.threads t = .pure v

/-- The daemon's cycles and the commands, in any order of their system calls and stopped anywhere, are
programs whose operations are single steps, each at one of their system calls. -/
theorem router_files_atomic {s : Safe} {d : Disk (Folder × String) UInt8 (List CredentialEvent)}
    (hbounded : ∀ n f, d.entries n = some f → f < d.next) (hd : dataDir.contents d = s.stored)
    (progs : τ → Cli α) {sched : List (τ × FileLuck Choice)}
    (hdistinct : (sched.map (·.2.random)).Nodup) :
    ∃ moments : List (Option Choice), moments.length = sched.length ∧ ∀ n,
      AsSingleSteps
        (Config.exec (machine (Disk.sem Safe.outside))
          ⟨fun t => dataDir.onFiles (Cli.onStore (progs t)), d⟩ (sched.take n))
        (Config.exec (machine Safe.sem) ⟨progs, s⟩ (Layout.calls (sched.take n) (moments.take n))) := by
  obtain ⟨points, hlen, hagrees⟩ := dataDir.onFiles_atomic Safe.outside hbounded
    (fun t => Cli.onStore (progs t)) hdistinct
  obtain ⟨moments, hlen', hexec⟩ := exec_storeConfig ⟨progs, s⟩ sched points
  refine ⟨moments, hlen'.trans hlen, fun n => ?_⟩
  have hn := hagrees n
  rw [hd] at hn
  obtain ⟨hcontents, hdone⟩ := (hexec n) ▸ hn
  exact ⟨hcontents, fun t v hv => Cli.onStore_pure (hdone t v hv)⟩

end

def emptyDir : Disk (Folder × String) UInt8 (List CredentialEvent) := ⟨fun _ => none, fun _ => [], 0, []⟩

def setupAndLogout (setup : Bool) : Cli Nat :=
  if setup then Cli.cmdSetup "https://lab" "" else Cli.cmdLogout false true

def takingTurns (n : Nat) : List (Bool × FileLuck Choice) :=
  (List.range n).map fun i =>
    (i % 2 == 0, ⟨false, i, ⟨fun _ => [], fun _ => .unreachable, false, ("", ""), false⟩⟩)

theorem router_files_atomic_turns :
    ∃ moments : List (Option Choice), moments.length = (takingTurns 40).length ∧ ∀ n,
      AsSingleSteps
        (Config.exec (machine (Disk.sem Safe.outside))
          ⟨fun t => dataDir.onFiles (Cli.onStore (setupAndLogout t)), emptyDir⟩
            ((takingTurns 40).take n))
        (Config.exec (machine Safe.sem) ⟨setupAndLogout, ⟨none, fun _ => none, []⟩⟩
          (Layout.calls ((takingTurns 40).take n) (moments.take n))) := by
  have hempty : dataDir.contents emptyDir = Safe.stored ⟨none, fun _ => none, []⟩ := by
    refine congrArg (Store.mk · []) (funext fun k => ?_)
    cases k <;> rfl
  have hbounded : ∀ n f, emptyDir.entries n = some f → f < emptyDir.next := by
    intro n f h
    cases h
  exact router_files_atomic hbounded hempty setupAndLogout (by decide)

end LanWeave

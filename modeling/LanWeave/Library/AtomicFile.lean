import LanWeave.Library.Program
import Mathlib.Data.List.Induction
import Mathlib.Data.List.ReduceOption
import Mathlib.Data.Nat.Basic
import Mathlib.Tactic.SplitIfs

/-! Files that are replaced as a whole: written under a temporary name and renamed. Whatever programs
use them at the same time, and wherever one of them stops, they see a store of atomic operations. -/

namespace LanWeave.Library
open Prog

/-! ### the file system -/

/-- Names lead to files. A file stays for those who have opened it. -/
structure Disk (N B W : Type) where
  entries : N → Option ℕ
  files : ℕ → List B
  next : ℕ
  world : W

inductive FileOp (N B I : Type)
  | mkdirAll
  /-- A new file, under a name made from a random number. -/
  | createTemp (name : ℕ → N)
  | chmod (f : ℕ)
  | write (f : ℕ) (b : B)
  | close (f : ℕ)
  | rename (src dst : N)
  | remove (n : N)
  | openFile (n : N)
  | read (f : ℕ)
  | outside (i : I)

inductive Lookup (α : Type)
  | found (a : α)
  | missing
  | failed

/-- What each of them answers; where that is a `Bool`, whether it succeeded. -/
abbrev FileOp.Result {N B I : Type} (R : I → Type) : FileOp N B I → Type
  | createTemp _ => Option (N × ℕ)
  | remove _ => Lookup Unit
  | openFile _ => Lookup ℕ
  | read _ => Option (List B)
  | outside i => R i
  | _ => Bool

/-- What the system decides at an operation. -/
structure FileLuck (E : Type) where
  fails : Bool
  random : ℕ
  outside : E

section
variable {N B I E W : Type} {R : I → Type} [DecidableEq N]

def Disk.sem (out : Semantics I R E W) :
    Semantics (FileOp N B I) (FileOp.Result R) (FileLuck E) (Disk N B W)
  | .mkdirAll, e, d => (!e.fails, d)
  | .createTemp name, e, d =>
    if e.fails || (d.entries (name e.random)).isSome then (none, d)
    else (some (name e.random, d.next),
      { d with
        entries := Function.update d.entries (name e.random) (some d.next)
        files := Function.update d.files d.next []
        next := d.next + 1 })
  | .chmod _, e, d => (!e.fails, d)
  | .write f b, e, d =>
    if e.fails then (false, d)
    else (true, { d with files := Function.update d.files f (d.files f ++ [b]) })
  | .close _, e, d => (!e.fails, d)
  | .rename src dst, e, d =>
    match d.entries src with
    | some f =>
      if e.fails then (false, d)
      else (true,
        { d with entries := Function.update (Function.update d.entries src none) dst (some f) })
    | none => (false, d)
  | .remove n, e, d =>
    match d.entries n with
    | some _ =>
      if e.fails then (.failed, d)
      else (.found (), { d with entries := Function.update d.entries n none })
    | none => (.missing, d)
  | .openFile n, e, d =>
    match d.entries n with
    | some f => if e.fails then (.failed, d) else (.found f, d)
    | none => (.missing, d)
  | .read f, e, d => (if e.fails then none else some (d.files f), d)
  | .outside i, e, d => ((out i e.outside d.world).1, { d with world := (out i e.outside d.world).2 })

end

/-! ### the store -/

structure Store (K B W : Type) where
  values : K → Option (List B)
  world : W

inductive StoreOp (K B I : Type)
  | set (k : K) (v : List B)
  | get (k : K)
  | delete (k : K)
  | outside (i : I)

abbrev StoreOp.Result {K B I : Type} (R : I → Type) : StoreOp K B I → Type
  | get _ => Except Unit (Option (List B))
  | outside i => R i
  | _ => Bool

structure StoreLuck (E : Type) where
  fails : Bool
  outside : E

/-- An operation that fails has no effect. -/
def StoreOp.sem {K B I E W : Type} {R : I → Type} [DecidableEq K] (out : Semantics I R E W) :
    Semantics (StoreOp K B I) (StoreOp.Result R) (StoreLuck E) (Store K B W)
  | .set k v, e, s =>
    if e.fails then (false, s) else (true, { s with values := Function.update s.values k (some v) })
  | .get k, e, s => (if e.fails then .error () else .ok (s.values k), s)
  | .delete k, e, s =>
    if e.fails then (false, s) else (true, { s with values := Function.update s.values k none })
  | .outside i, e, s => ((out i e.outside s.world).1, { s with world := (out i e.outside s.world).2 })

/-- Where the value of a key is, and how it is put there. -/
structure Layout (K N B : Type) where
  path : K → N
  temp : K → ℕ → N
  /-- The bytes written, and a `none` where the mode is set. -/
  body : K → List B → List (Option B)
  body_bytes : ∀ k v, (body k v).reduceOption = v
  path_injective : Function.Injective path
  temp_ne_path : ∀ k r k', temp k r ≠ path k'
  temp_random : ∀ {k k' : K} {r r' : ℕ}, temp k r = temp k' r' → r = r'

namespace Layout
variable {K N B τ I E W : Type} {R : I → Type} (L : Layout K N B)

abbrev FileProg (N B : Type) {I : Type} (R : I → Type) (α : Type) :=
  Prog (FileOp N B I) (FileOp.Result R) α

abbrev StoreProg (K B : Type) {I : Type} (R : I → Type) (α : Type) :=
  Prog (StoreOp K B I) (StoreOp.Result R) α

def perform (o : FileOp N B I) : FileProg N B R (o.Result R) := .op o .pure

def put (f : ℕ) : Option B → FileProg N B R Bool
  | none => perform (.chmod f)
  | some b => perform (.write f b)

/-- The new file is filled, closed and renamed. -/
def fill (k : K) (tmp : N) (f : ℕ) : List (Option B) → FileProg N B R Bool
  | [] => do
    if ← perform (.close f) then perform (.rename tmp (L.path k)) else return false
  | x :: rest => do
    if ← put f x then fill k tmp f rest
    else
      let _ ← perform (.close f)
      return false

/-- The temporary name is removed in any case. -/
def cleanUp (tmp : N) (ok : Bool) : FileProg N B R Bool := do
  let _ ← perform (.remove tmp)
  return ok

def set (k : K) (v : List B) : FileProg N B R Bool := do
  if ← perform .mkdirAll then
    match ← perform (.createTemp (L.temp k)) with
    | none => return false
    | some (tmp, f) => L.fill k tmp f (L.body k v) >>= cleanUp tmp
  else return false

def get (k : K) : FileProg N B R (Except Unit (Option (List B))) := do
  match ← perform (.openFile (L.path k)) with
  | .failed => return .error ()
  | .missing => return .ok none
  | .found f =>
    match ← perform (.read f) with
    | none => return .error ()
    | some v => return .ok (some v)

def delete (k : K) : FileProg N B R Bool := do
  match ← perform (.remove (L.path k)) with
  | .failed => return false
  | .missing | .found _ => return true

def implement : (o : StoreOp K B I) → FileProg N B R (o.Result R)
  | .set k v => L.set k v
  | .get k => L.get k
  | .delete k => L.delete k
  | .outside i => perform (.outside i)

/-- A program that uses the store, with its operations carried out on files. -/
def onFiles {α : Type} : StoreProg K B R α → FileProg N B R α
  | .pure a => .pure a
  | .op o k => L.implement o >>= fun r => onFiles (k r)

def contents (d : Disk N B W) : Store K B W where
  values k := (d.entries (L.path k)).map d.files
  world := d.world

/-! ### where a program is -/

inductive Hold (N B : Type)
  | nothing
  | writing (tmp : N) (f : ℕ)
  /-- The call is decided, and the temporary name not yet removed. -/
  | cleaning (tmp : N)
  | reading (f : ℕ) (v : List B)

namespace Hold
variable {N B : Type}

def name : Hold N B → Option N
  | writing tmp _ | cleaning tmp => some tmp
  | _ => none

def file : Hold N B → Option ℕ
  | writing _ f | reading f _ => some f
  | _ => none

/-- No more than before, and no file open. -/
structure Within (h' h : Hold N B) : Prop where
  name : ∀ n, h'.name = some n → h.name = some n
  writing : ∀ n f, h' = .writing n f → h = .writing n f
  reading : ∀ f v, h' ≠ .reading f v

theorem nothing_within (h : Hold N B) : nothing.Within h :=
  ⟨fun _ hn => (nomatch hn), fun _ _ hh => (nomatch hh), fun _ _ hh => nomatch hh⟩

theorem cleaning_within {h : Hold N B} {tmp : N} (hname : h.name = some tmp) : (cleaning tmp).Within h :=
  ⟨fun _ hn => hname.trans hn, fun _ _ hh => (nomatch hh), fun _ _ hh => nomatch hh⟩

theorem writing_within (tmp : N) (f : ℕ) : (writing tmp f : Hold N B).Within (writing tmp f) :=
  ⟨fun _ hn => hn, fun _ _ hh => hh, fun _ _ hh => nomatch hh⟩

end Hold

/-- The program on files `q` is where the program `p` of the store is. A call that has opened a file
to read it is taken to end well if the program is `lucky`. -/
inductive Stage {α : Type} (lucky : Bool) (d : Disk N B W) :
    Hold N B → FileProg N B R α → StoreProg K B R α → Prop
  | client (p : StoreProg K B R α) : Stage lucky d .nothing (L.onFiles p) p
  | create (k : K) (v : List B) (next : Bool → StoreProg K B R α) :
    Stage lucky d .nothing
      (.op (.createTemp (L.temp k)) fun made =>
        (match made with
          | none => (.pure false : FileProg N B R Bool)
          | some (tmp, f) => L.fill k tmp f (L.body k v) >>= cleanUp tmp) >>= fun ok =>
            L.onFiles (next ok))
      (.op (.set k v) next)
  | fill {k : K} {v : List B} {tmp : N} {f : ℕ} {rest : List (Option B)}
      (h : d.files f ++ rest.reduceOption = v) (next : Bool → StoreProg K B R α) :
    Stage lucky d (.writing tmp f)
      ((L.fill k tmp f rest >>= cleanUp tmp) >>= fun ok => L.onFiles (next ok))
      (.op (.set k v) next)
  | rename {k : K} {v : List B} {tmp : N} {f : ℕ} (h : d.files f = v)
      (next : Bool → StoreProg K B R α) :
    Stage lucky d (.writing tmp f)
      ((perform (.rename tmp (L.path k)) >>= cleanUp tmp) >>= fun ok => L.onFiles (next ok))
      (.op (.set k v) next)
  | close (tmp : N) (f : ℕ) (next : Bool → StoreProg K B R α) :
    Stage lucky d (.cleaning tmp)
      (((perform (.close f) >>= fun _ => .pure false) >>= cleanUp tmp) >>= fun ok => L.onFiles (next ok))
      (next false)
  | clean (tmp : N) (ok : Bool) (next : Bool → StoreProg K B R α) :
    Stage lucky d (.cleaning tmp) (cleanUp tmp ok >>= fun ok => L.onFiles (next ok)) (next ok)
  | read {f : ℕ} {v : List B} (h : d.files f = v)
      (next : Except Unit (Option (List B)) → StoreProg K B R α) :
    Stage lucky d (.reading f v)
      (.op (.read f) fun v =>
        (match v with
          | none => (.pure (.error ()) : FileProg N B R (Except Unit (Option (List B))))
          | some v => .pure (.ok (some v))) >>= fun r => L.onFiles (next r))
      (next (if lucky then .ok (some v) else .error ()))

/-! ### who has which file -/

/-- A file that is being written has its temporary name only, which is made from a number that nobody
else's is made from, and an open file is not written any more. -/
structure Owned (drawn : List ℕ) (d : Disk N B W) (hold : τ → Hold N B) : Prop where
  bounded : ∀ n f, d.entries n = some f → f < d.next
  own : ∀ t n f, hold t = .writing n f → d.entries n = some f ∧ ∀ n', d.entries n' = some f → n' = n
  drawn : ∀ t n, (hold t).name = some n → ∃ k, ∃ r ∈ drawn, n = L.temp k r
  apart : ∀ t u n, (hold t).name = some n → (hold u).name = some n → t = u
  opened : ∀ t f v, hold t = .reading f v →
    f < d.next ∧ d.files f = v ∧ ∀ u n, hold u ≠ .writing n f

namespace Owned

section
variable {L} {drawn : List ℕ} {d d' : Disk N B W} {hold : τ → Hold N B} {h' : Hold N B} {t u : τ}
  {tmp n : N} {f g r : ℕ} {k : K}

theorem path_not_writing (h : L.Owned drawn d hold) (hpath : d.entries (L.path k) = some f) (n : N) :
    hold t ≠ .writing n f := by
  intro ht
  obtain ⟨k', r, -, rfl⟩ := h.drawn t n (congrArg Hold.name ht)
  exact L.temp_ne_path k' r k ((h.own t _ f ht).2 _ hpath).symm

theorem writing_apart (h : L.Owned drawn d hold) (ht : hold t = .writing tmp f)
    (hu : hold u = .writing n g)
    (hne : u ≠ t) : n ≠ tmp ∧ g ≠ f := by
  have hname : n ≠ tmp := by
    rintro rfl
    exact hne (h.apart u t n (congrArg Hold.name hu) (congrArg Hold.name ht))
  refine ⟨hname, ?_⟩
  rintro rfl
  exact hname ((h.own t tmp g ht).2 n (h.own u n g hu).1)

variable [DecidableEq τ]

theorem step (h : L.Owned drawn d hold) (hr : r ∉ drawn)
    (hbounded : ∀ n f, d'.entries n = some f → f < d'.next) (hnext : d.next ≤ d'.next)
    (hname : ∀ n, h'.name = some n → (hold t).name = some n ∨ ∃ k, n = L.temp k r)
    (hown : ∀ n f, h' = .writing n f →
      d'.entries n = some f ∧ ∀ n', d'.entries n' = some f → n' = n)
    (hothers : ∀ u ≠ t, ∀ n f, hold u = .writing n f →
      d'.entries n = some f ∧ ∀ n', d'.entries n' = some f → n' = n)
    (hopened : ∀ f v, h' = .reading f v →
      f < d'.next ∧ d'.files f = v ∧ ∀ u ≠ t, ∀ n, hold u ≠ .writing n f)
    (hkept : ∀ u ≠ t, ∀ f v, hold u = .reading f v → d'.files f = v ∧ ∀ n, h' ≠ .writing n f) :
    L.Owned (r :: drawn) d' (Function.update hold t h') := by
  have hself : Function.update hold t h' t = h' := Function.update_self ..
  have hother : ∀ u ≠ t, Function.update hold t h' u = hold u := fun u hu => Function.update_of_ne hu ..
  -- a name that the thread has drawn now is new, since r was drawn by nobody
  have hnew : ∀ u ≠ t, ∀ n, h'.name = some n → (hold u).name ≠ some n := by
    intro u hu n hn hun
    rcases hname n hn with hbefore | ⟨k, rfl⟩
    · exact hu (h.apart u t n hun hbefore)
    · obtain ⟨k', r', hr', heq⟩ := h.drawn u _ hun
      exact hr (L.temp_random heq ▸ hr')
  refine ⟨hbounded, fun u n f hu => ?_, fun u n hu => ?_, fun u w n hu hw => ?_, fun u f v hu => ?_⟩
  · by_cases hut : u = t
    · rw [hut, hself] at hu
      exact hown n f hu
    · rw [hother u hut] at hu
      exact hothers u hut n f hu
  · have hold_drawn : ∀ u, (hold u).name = some n → ∃ k, ∃ r' ∈ r :: drawn, n = L.temp k r' := by
      intro u hun
      obtain ⟨k, r', hr', heq⟩ := h.drawn u n hun
      exact ⟨k, r', List.mem_cons_of_mem _ hr', heq⟩
    by_cases hut : u = t
    · rw [hut, hself] at hu
      rcases hname n hu with hbefore | ⟨k, rfl⟩
      · exact hold_drawn t hbefore
      · exact ⟨k, r, List.mem_cons_self, rfl⟩
    · rw [hother u hut] at hu
      exact hold_drawn u hu
  · by_cases hut : u = t
    · by_cases hwt : w = t
      · exact hut.trans hwt.symm
      · rw [hut, hself] at hu
        rw [hother w hwt] at hw
        exact absurd hw (hnew w hwt n hu)
    · rw [hother u hut] at hu
      by_cases hwt : w = t
      · rw [hwt, hself] at hw
        exact absurd hu (hnew u hut n hw)
      · rw [hother w hwt] at hw
        exact h.apart u w n hu hw
  · by_cases hut : u = t
    · rw [hut, hself] at hu
      obtain ⟨hlt, hfile, hnot⟩ := hopened f v hu
      refine ⟨hlt, hfile, fun w n hw => ?_⟩
      by_cases hwt : w = t
      · rw [hwt, hself, hu] at hw
        cases hw
      · rw [hother w hwt] at hw
        exact hnot w hwt n hw
    · rw [hother u hut] at hu
      obtain ⟨hlt, -, hnot⟩ := h.opened u f v hu
      obtain ⟨hfile, hnew'⟩ := hkept u hut f v hu
      refine ⟨Nat.lt_of_lt_of_le hlt hnext, hfile, fun w n hw => ?_⟩
      by_cases hwt : w = t
      · rw [hwt, hself] at hw
        exact hnew' n hw
      · rw [hother w hwt] at hw
        exact hnot w n hw

theorem release (h : L.Owned drawn d hold) (hr : r ∉ drawn) (hh : h'.Within (hold t)) :
    L.Owned (r :: drawn) d (Function.update hold t h') :=
  h.step hr h.bounded le_rfl (fun n hn => .inl (hh.name n hn))
    (fun n f hw => h.own t n f (hh.writing n f hw))
    (fun u _ => h.own u) (fun f v hv => absurd hv (hh.reading f v)) fun u _ f v hu =>
      ⟨(h.opened u f v hu).2.1, fun n hw => (h.opened u f v hu).2.2 t n (hh.writing n f hw)⟩

omit [DecidableEq τ] in
theorem outside (h : L.Owned drawn d hold) (world : W) : L.Owned drawn { d with world } hold :=
  ⟨h.bounded, h.own, h.drawn, h.apart, h.opened⟩

theorem opens (h : L.Owned drawn d hold) (hr : r ∉ drawn) (hpath : d.entries (L.path k) = some f) :
    L.Owned (r :: drawn) d (Function.update hold t (.reading f (d.files f))) := by
  apply h.step hr h.bounded le_rfl
  · exact fun n hn => nomatch hn
  · exact fun n g hh => nomatch hh
  · exact fun u _ => h.own u
  · rintro g v hh
    cases hh
    exact ⟨h.bounded _ _ hpath, rfl, fun u _ n => h.path_not_writing hpath n⟩
  · exact fun u _ g v hu => ⟨(h.opened u g v hu).2.1, fun n hh => nomatch hh⟩

theorem writes (h : L.Owned drawn d hold) (hr : r ∉ drawn) (ht : hold t = .writing tmp f)
    (bytes : List B) :
    L.Owned (r :: drawn) { d with files := Function.update d.files f bytes }
      (Function.update hold t (.writing tmp f)) := by
  apply h.step hr
  · exact h.bounded
  · exact le_rfl
  · exact fun n hn => .inl (ht ▸ hn)
  · exact fun n g hh => h.own t n g (ht.trans hh)
  · exact fun u _ => h.own u
  · exact fun g v hh => nomatch hh
  · intro u _ g v hu
    obtain ⟨-, hfile, hnot⟩ := h.opened u g v hu
    have hne : g ≠ f := by
      rintro rfl
      exact hnot t tmp ht
    refine ⟨(Function.update_of_ne hne ..).trans hfile, ?_⟩
    rintro n hh
    cases hh
    exact hne rfl

section
variable [DecidableEq N]

theorem creates (h : L.Owned drawn d hold) (hr : r ∉ drawn) (hfree : d.entries (L.temp k r) = none) :
    L.Owned (r :: drawn)
      { d with
        entries := Function.update d.entries (L.temp k r) (some d.next)
        files := Function.update d.files d.next []
        next := d.next + 1 } (Function.update hold t (.writing (L.temp k r) d.next)) := by
  -- the new name is the only one that leads to the new file
  have hentry : ∀ n f, Function.update d.entries (L.temp k r) (some d.next) n = some f →
      n = L.temp k r ∧ f = d.next ∨ n ≠ L.temp k r ∧ d.entries n = some f := by
    intro n f hn
    by_cases htmp : n = L.temp k r
    · rw [htmp, Function.update_self] at hn
      exact .inl ⟨htmp, (Option.some.inj hn).symm⟩
    · rw [Function.update_of_ne htmp] at hn
      exact .inr ⟨htmp, hn⟩
  apply h.step hr
  · intro n f hn
    rcases hentry n f hn with ⟨-, rfl⟩ | ⟨-, hn⟩
    · exact Nat.lt_succ_self _
    · exact Nat.lt_succ_of_lt (h.bounded n f hn)
  · exact Nat.le_succ _
  · rintro n hn
    exact .inr ⟨k, (Option.some.inj hn).symm⟩
  · -- the writer's own file
    rintro n f hh
    cases hh
    refine ⟨Function.update_self .., fun n' hn' => ?_⟩
    rcases hentry n' _ hn' with ⟨rfl, -⟩ | ⟨-, hn'⟩
    · rfl
    · exact absurd (h.bounded n' _ hn') (lt_irrefl _)
  · -- another writer keeps its file: its name is not the new one, which was free
    intro u _ n f hu
    obtain ⟨hn, honly⟩ := h.own u n f hu
    have hne : n ≠ L.temp k r := by
      rintro rfl
      exact nomatch hn.symm.trans hfree
    refine ⟨(Function.update_of_ne hne ..).trans hn, fun n' hn' => ?_⟩
    rcases hentry n' f hn' with ⟨-, rfl⟩ | ⟨-, hn'⟩
    · exact absurd (h.bounded n _ hn) (lt_irrefl _)
    · exact honly n' hn'
  · exact fun f v hh => nomatch hh
  · intro u _ f v hu
    obtain ⟨hlt, hfile, -⟩ := h.opened u f v hu
    refine ⟨(Function.update_of_ne (Nat.ne_of_lt hlt) ..).trans hfile, ?_⟩
    rintro n hh
    cases hh
    exact lt_irrefl _ hlt

/-- The entry of a name that no other thread writes under goes. -/
theorem removes (h : L.Owned drawn d hold) (hr : r ∉ drawn)
    (hn : ∀ u ≠ t, ∀ f, hold u ≠ .writing n f) :
    L.Owned (r :: drawn) { d with entries := Function.update d.entries n none }
      (Function.update hold t .nothing) := by
  have hentry : ∀ n' f, Function.update d.entries n none n' = some f → d.entries n' = some f := by
    intro n' f hn'
    by_cases heq : n' = n
    · rw [heq, Function.update_self] at hn'
      cases hn'
    · rwa [Function.update_of_ne heq] at hn'
  apply h.step hr
  · exact fun n' f hn' => h.bounded n' f (hentry n' f hn')
  · exact le_rfl
  · exact fun n hn => nomatch hn
  · exact fun n f hh => nomatch hh
  · intro u hu n' f hu'
    obtain ⟨hn', honly⟩ := h.own u n' f hu'
    have hne : n' ≠ n := by
      rintro rfl
      exact hn u hu f hu'
    exact ⟨(Function.update_of_ne hne ..).trans hn', fun n'' hn'' => honly n'' (hentry n'' f hn'')⟩
  · exact fun f v hh => nomatch hh
  · exact fun u _ f v hu => ⟨(h.opened u f v hu).2.1, fun n hh => nomatch hh⟩

theorem renames (h : L.Owned drawn d hold) (hr : r ∉ drawn) (ht : hold t = .writing tmp f) :
    L.Owned (r :: drawn)
      { d with entries := Function.update (Function.update d.entries tmp none) (L.path k) (some f) }
      (Function.update hold t (.cleaning tmp)) := by
  have hentry : ∀ n g,
      Function.update (Function.update d.entries tmp none) (L.path k) (some f) n = some g →
      n = L.path k ∧ g = f ∨ d.entries n = some g := by
    intro n g hn
    by_cases hpath : n = L.path k
    · rw [hpath, Function.update_self] at hn
      exact .inl ⟨hpath, (Option.some.inj hn).symm⟩
    · rw [Function.update_of_ne hpath] at hn
      by_cases htmp : n = tmp
      · rw [htmp, Function.update_self] at hn
        cases hn
      · rw [Function.update_of_ne htmp] at hn
        exact .inr hn
  apply h.step hr
  · intro n g hn
    rcases hentry n g hn with ⟨-, rfl⟩ | hn
    · exact h.bounded tmp _ (h.own t tmp _ ht).1
    · exact h.bounded n g hn
  · exact le_rfl
  · exact fun n hn => .inl (ht ▸ hn)
  · exact fun n g hh => nomatch hh
  · intro u hu n g hu'
    obtain ⟨hn, honly⟩ := h.own u n g hu'
    obtain ⟨hne, hfile⟩ := h.writing_apart ht hu' hu
    have hpath : n ≠ L.path k := by
      rintro rfl
      obtain ⟨k', r', -, heq⟩ := h.drawn u _ (congrArg Hold.name hu')
      exact L.temp_ne_path k' r' k heq.symm
    refine ⟨?_, fun n' hn' => ?_⟩
    · show Function.update (Function.update d.entries tmp none) (L.path k) (some f) n = some g
      rw [Function.update_of_ne hpath, Function.update_of_ne hne]
      exact hn
    · rcases hentry n' g hn' with ⟨-, rfl⟩ | hn'
      · exact absurd rfl hfile
      · exact honly n' hn'
  · exact fun g v hh => nomatch hh
  · exact fun u _ g v hu => ⟨(h.opened u g v hu).2.1, fun n hh => nomatch hh⟩

end
end
end Owned

/-! ### step by step -/

/-- Every program is where its program of the store is, and the files hold what the store does. -/
structure Matches {α : Type} (lucky : τ → Bool) (drawn : List ℕ) (hold : τ → Hold N B)
    (c : Config τ (FileProg N B R α) (Disk N B W))
    (a : Config τ (StoreProg K B R α) (Store K B W)) : Prop where
  stage : ∀ t, L.Stage (lucky t) c.shared (hold t) (c.threads t) (a.threads t)
  contents : L.contents c.shared = a.shared
  owned : L.Owned drawn c.shared hold

section
variable {L} {out : Semantics I R E W} {α : Type} {lucky : Bool} {d d' : Disk N B W} {h h' : Hold N B}
  {q : FileProg N B R α}
  {p : StoreProg K B R α} {hold : τ → Hold N B} {drawn : List ℕ} {t u : τ} {e : FileLuck E}

theorem Stage.congr (hs : L.Stage lucky d h q p) (hfile : ∀ f ∈ h.file, d'.files f = d.files f) :
    L.Stage lucky d' h q p := by
  cases hs with
  | client => exact .client _
  | create k v next => exact .create k v next
  | fill hv next => exact .fill ((congrArg (· ++ _) (hfile _ rfl)).trans hv) next
  | rename hv next => exact .rename ((hfile _ rfl).trans hv) next
  | close tmp f next => exact .close tmp f next
  | clean tmp ok next => exact .clean tmp ok next
  | read hv next => exact .read ((hfile _ rfl).trans hv) next

theorem Owned.file_lt (ho : L.Owned drawn d hold) (u : τ) : ∀ f ∈ (hold u).file, f < d.next := by
  intro f hf
  cases hu : hold u with
  | nothing | cleaning =>
    rw [hu] at hf
    cases hf
  | writing n g =>
    rw [hu] at hf
    cases hf
    exact ho.bounded n f (ho.own u n f hu).1
  | reading g v =>
    rw [hu] at hf
    cases hf
    exact (ho.opened u f v hu).1

/-- A file that a thread is writing is in nobody else's hands. -/
theorem Owned.file_apart {tmp : N} {f : ℕ} (ho : L.Owned drawn d hold) (ht : hold t = .writing tmp f)
    (hut : u ≠ t) : ∀ g ∈ (hold u).file, g ≠ f := by
  intro g hg
  cases hu : hold u with
  | nothing | cleaning =>
    rw [hu] at hg
    cases hg
  | writing n g' =>
    rw [hu] at hg
    cases hg
    exact (ho.writing_apart ht hu hut).2
  | reading g' v =>
    rw [hu] at hg
    cases hg
    rintro rfl
    exact (ho.opened u g v hu).2.2 t tmp ht

theorem contents_congr (hworld : d'.world = d.world)
    (hentries : ∀ k, d'.entries (L.path k) = d.entries (L.path k))
    (hfiles : ∀ k f, d.entries (L.path k) = some f → d'.files f = d.files f) :
    L.contents d' = L.contents d := by
  have hvalues : (L.contents d').values = (L.contents d).values := by
    funext k
    show (d'.entries (L.path k)).map d'.files = (d.entries (L.path k)).map d.files
    rw [hentries k]
    cases hk : d.entries (L.path k) with
    | none => rfl
    | some f => exact congrArg some (hfiles k f hk)
  exact congrArg₂ Store.mk hvalues hworld

theorem contents_update [DecidableEq K] {k : K} {o : Option ℕ} {entries : N → Option ℕ}
    (hk : entries (L.path k) = o) (hothers : ∀ k' ≠ k, entries (L.path k') = d.entries (L.path k')) :
    L.contents { d with entries := entries } =
      { L.contents d with values := Function.update (L.contents d).values k (o.map d.files) } := by
  have hvalues : (L.contents { d with entries := entries }).values =
      Function.update (L.contents d).values k (o.map d.files) := by
    funext k'
    by_cases hkk : k' = k
    · rw [hkk, Function.update_self]
      exact congrArg (Option.map d.files) hk
    · rw [Function.update_of_ne hkk]
      exact congrArg (Option.map d.files) (hothers k' hkk)
  exact congrArg (Store.mk · d.world) hvalues

variable [DecidableEq N] [DecidableEq K] [DecidableEq τ]

variable (out L lucky hold drawn t e d) in
/-- A step of the program on files is matched by a step of the store's program, or by none. -/
def Simulated (q : FileProg N B R α) (p : StoreProg K B R α) : Prop :=
  ∃ (o : Option (StoreLuck E)) (h' : Hold N B),
    L.Stage lucky (machine (Disk.sem out) q e d).2 h' (machine (Disk.sem out) q e d).1
      (o.elim p fun b => (machine (StoreOp.sem out) p b (L.contents d)).1) ∧
    L.Owned (e.random :: drawn) (machine (Disk.sem out) q e d).2 (Function.update hold t h') ∧
    (∀ u ≠ t, ∀ f ∈ (hold u).file, (machine (Disk.sem out) q e d).2.files f = d.files f) ∧
    L.contents (machine (Disk.sem out) q e d).2 =
      o.elim (L.contents d) fun b => (machine (StoreOp.sem out) p b (L.contents d)).2

section
variable {i : FileOp N B I} {k : i.Result R → FileProg N B R α} {r : i.Result R}

theorem simulated_of (hsem : Disk.sem out i e d = (r, d')) (o : Option (StoreLuck E)) (h' : Hold N B)
    (hstage : L.Stage lucky d' h' (k r)
      (o.elim p fun b => (machine (StoreOp.sem out) p b (L.contents d)).1))
    (howned : L.Owned (e.random :: drawn) d' (Function.update hold t h'))
    (hfiles : ∀ u ≠ t, ∀ f ∈ (hold u).file, d'.files f = d.files f)
    (hcontents : L.contents d' =
      o.elim (L.contents d) fun b => (machine (StoreOp.sem out) p b (L.contents d)).2) :
    L.Simulated out lucky d hold drawn t e (.op i k) p := by
  have hmachine : machine (Disk.sem out) (.op i k) e d = (k r, d') := by
    show (k (Disk.sem out i e d).1, (Disk.sem out i e d).2) = _
    rw [hsem]
  refine ⟨o, h', ?_, ?_, ?_, ?_⟩
  all_goals rw [hmachine]
  · exact hstage
  · exact howned
  · exact hfiles
  · exact hcontents

/-- A step that leaves the files as they are, and after which the thread has in hand no more than
before. -/
theorem simulated_quiet (ho : L.Owned drawn d hold) (hr : e.random ∉ drawn) (ht : hold t = h)
    (hsem : Disk.sem out i e d = (r, d)) (o : Option (StoreLuck E)) (h' : Hold N B)
    (hstage : L.Stage lucky d h' (k r)
      (o.elim p fun b => (machine (StoreOp.sem out) p b (L.contents d)).1))
    (hcontents : L.contents d =
      o.elim (L.contents d) fun b => (machine (StoreOp.sem out) p b (L.contents d)).2)
        (hh : h'.Within h) :
    L.Simulated out lucky d hold drawn t e (.op i k) p := by
  subst ht
  exact simulated_of hsem o h' hstage (ho.release hr hh) (fun _ _ _ _ => rfl) hcontents

end

section
variable (ho : L.Owned drawn d hold) (hr : e.random ∉ drawn)
include ho hr

theorem simulated_set (ht : hold t = .nothing) (k : K) (v : List B)
    (next : Bool → StoreProg K B R α) :
    L.Simulated out lucky d hold drawn t e (L.onFiles (.op (.set k v) next)) (.op (.set k v) next) := by
  have hsem : Disk.sem out .mkdirAll e d = (!e.fails, d) := rfl
  cases hfails : e.fails with
  | false =>
    rw [hfails] at hsem
    exact simulated_quiet ho hr ht hsem none .nothing (.create k v next) rfl (Hold.nothing_within _)
  | true =>
    rw [hfails] at hsem
    exact simulated_quiet ho hr ht hsem (some ⟨true, e.outside⟩) .nothing (.client (next false)) rfl
      (Hold.nothing_within _)

theorem simulated_create (ht : hold t = .nothing) (k : K) (v : List B)
    (next : Bool → StoreProg K B R α) :
    L.Simulated out lucky d hold drawn t e
      (.op (.createTemp (L.temp k)) fun made =>
        (match made with
          | none => (.pure false : FileProg N B R Bool)
          | some (tmp, f) => L.fill k tmp f (L.body k v) >>= cleanUp tmp) >>= fun ok =>
            L.onFiles (next ok))
      (.op (.set k v) next) := by
  by_cases hno : (e.fails || (d.entries (L.temp k e.random)).isSome) = true
  · have hsem : Disk.sem out (.createTemp (L.temp k)) e d = (none, d) := if_pos hno
    exact simulated_quiet ho hr ht hsem (some ⟨true, e.outside⟩) .nothing (.client (next false)) rfl
      (Hold.nothing_within _)
  · have hfree : d.entries (L.temp k e.random) = none := by
      rw [Bool.or_eq_true, not_or, Bool.not_eq_true, Bool.not_eq_true, Option.isSome_eq_false_iff,
        Option.isNone_iff_eq_none] at hno
      exact hno.2
    have hsem : Disk.sem out (.createTemp (L.temp k)) e d = (some (L.temp k e.random, d.next),
      { d with
        entries := Function.update d.entries (L.temp k e.random) (some d.next)
        files := Function.update d.files d.next []
        next := d.next + 1 }) := if_neg hno
    refine simulated_of hsem none (.writing (L.temp k e.random) d.next) (.fill ?_ next)
      (ho.creates hr hfree) ?_ ?_
    · show Function.update d.files d.next [] d.next ++ _ = v
      rw [Function.update_self, List.nil_append, L.body_bytes]
    · intro u _ f hf
      exact Function.update_of_ne (Nat.ne_of_lt (ho.file_lt u f hf)) ..
    · apply contents_congr
      · rfl
      · exact fun k' => Function.update_of_ne (L.temp_ne_path k e.random k').symm ..
      · exact fun k' f hf => Function.update_of_ne (Nat.ne_of_lt (ho.bounded _ f hf)) ..

theorem simulated_put {k : K} {v : List B} {tmp : N} {f : ℕ} {x : Option B} {rest : List (Option B)}
    (ht : hold t = .writing tmp f) (hv : d.files f ++ (x :: rest).reduceOption = v)
    (next : Bool → StoreProg K B R α) :
    L.Simulated out lucky d hold drawn t e
      ((L.fill k tmp f (x :: rest) >>= cleanUp tmp) >>= fun ok => L.onFiles (next ok))
      (.op (.set k v) next) := by
  have hcleaning : (Hold.cleaning tmp : Hold N B).Within (.writing tmp f) := Hold.cleaning_within rfl
  -- none stands for chmod, some b for a write of the next piece
  cases x with
  | none =>
    have hsem : Disk.sem out (.chmod f) e d = (!e.fails, d) := rfl
    have hrest : d.files f ++ rest.reduceOption = v := hv
    cases hfails : e.fails with
    | false =>
      rw [hfails] at hsem
      exact simulated_quiet ho hr ht hsem none (.writing tmp f) (.fill hrest next) rfl
        (Hold.writing_within tmp f)
    | true =>
      rw [hfails] at hsem
      exact simulated_quiet ho hr ht hsem (some ⟨true, e.outside⟩) (.cleaning tmp) (.close tmp f next)
        rfl hcleaning
  | some b =>
    have hsem : Disk.sem out (.write f b) e d = if e.fails then (false, d)
      else (true, { d with files := Function.update d.files f (d.files f ++ [b]) }) := rfl
    cases hfails : e.fails with
    | false =>
      rw [hfails] at hsem
      refine simulated_of hsem none (.writing tmp f) (.fill ?_ next) (ho.writes hr ht _) ?_ ?_
      · show Function.update d.files f (d.files f ++ [b]) f ++ _ = v
        rw [Function.update_self, ← hv, List.append_assoc]
        rfl
      · -- the file written is the writer's own: no other writer holds it and no path names it
        exact fun u hu g hg => Function.update_of_ne (ho.file_apart ht hu g hg) ..
      · apply contents_congr
        · rfl
        · exact fun k' => rfl
        · intro k' g hg
          apply Function.update_of_ne
          rintro rfl
          exact ho.path_not_writing hg tmp ht
    | true =>
      rw [hfails] at hsem
      exact simulated_quiet ho hr ht hsem (some ⟨true, e.outside⟩) (.cleaning tmp) (.close tmp f next)
        rfl hcleaning

theorem simulated_close {k : K} {v : List B} {tmp : N} {f : ℕ} (ht : hold t = .writing tmp f)
    (hv : d.files f ++ ([] : List (Option B)).reduceOption = v)
    (next : Bool → StoreProg K B R α) :
    L.Simulated out lucky d hold drawn t e
      ((L.fill k tmp f [] >>= cleanUp tmp) >>= fun ok => L.onFiles (next ok)) (.op (.set k v) next) := by
  have hsem : Disk.sem out (.close f) e d = (!e.fails, d) := rfl
  have hfile : d.files f = v := (List.append_nil _).symm.trans hv
  cases hfails : e.fails with
  | false =>
    rw [hfails] at hsem
    exact simulated_quiet ho hr ht hsem none (.writing tmp f) (.rename hfile next) rfl
      (Hold.writing_within tmp f)
  | true =>
    rw [hfails] at hsem
    exact simulated_quiet ho hr ht hsem (some ⟨true, e.outside⟩) (.cleaning tmp) (.clean tmp false next)
      rfl (Hold.cleaning_within rfl)

theorem simulated_rename {k : K} {v : List B} {tmp : N} {f : ℕ} (ht : hold t = .writing tmp f)
    (hv : d.files f = v) (next : Bool → StoreProg K B R α) :
    L.Simulated out lucky d hold drawn t e
      ((perform (.rename tmp (L.path k)) >>= cleanUp tmp) >>= fun ok => L.onFiles (next ok))
      (.op (.set k v) next) := by
  have htmp := (ho.own t tmp f ht).1
  have hsem : Disk.sem out (.rename tmp (L.path k)) e d = if e.fails then (false, d)
      else (true, { d with
        entries := Function.update (Function.update d.entries tmp none) (L.path k) (some f) }) := by
    simp only [Disk.sem, htmp]
  cases hfails : e.fails with
  | false =>
    rw [hfails] at hsem
    refine simulated_of hsem (some ⟨false, e.outside⟩) (.cleaning tmp) (.clean tmp true next)
      (ho.renames hr ht) (fun _ _ _ _ => rfl) ?_
    have hpath : ∀ k', L.path k' ≠ tmp := by
      rintro k' rfl
      obtain ⟨k'', r', -, heq⟩ := ho.drawn t _ (congrArg Hold.name ht)
      exact L.temp_ne_path k'' r' k' heq.symm
    have hothers : ∀ k' ≠ k,
        Function.update (Function.update d.entries tmp none) (L.path k) (some f) (L.path k') =
          d.entries (L.path k') := by
      intro k' hk
      rw [Function.update_of_ne (L.path_injective.ne hk), Function.update_of_ne (hpath k')]
    rw [contents_update (Function.update_self ..) hothers, Option.map_some, hv]
    rfl
  | true =>
    rw [hfails] at hsem
    exact simulated_quiet ho hr ht hsem (some ⟨true, e.outside⟩) (.cleaning tmp) (.clean tmp false next)
      rfl (Hold.cleaning_within rfl)

theorem simulated_closeFailed {tmp : N} (ht : hold t = .cleaning tmp) (f : ℕ)
    (next : Bool → StoreProg K B R α) :
    L.Simulated out lucky d hold drawn t e
      (((perform (.close f) >>= fun _ => .pure false) >>= cleanUp tmp) >>= fun ok => L.onFiles (next ok))
      (next false) := by
  have hsem : Disk.sem out (.close f) e d = (!e.fails, d) := rfl
  exact simulated_quiet ho hr ht hsem none (.cleaning tmp) (.clean tmp false next) rfl
    (Hold.cleaning_within rfl)

theorem simulated_clean {tmp : N} (ht : hold t = .cleaning tmp) (ok : Bool)
    (next : Bool → StoreProg K B R α) :
    L.Simulated out lucky d hold drawn t e (cleanUp tmp ok >>= fun ok => L.onFiles (next ok))
      (next ok) := by
  have hquiet : ∀ answer, Disk.sem out (.remove tmp) e d = (answer, d) →
      L.Simulated out lucky d hold drawn t e (cleanUp tmp ok >>= fun ok => L.onFiles (next ok))
        (next ok) :=
    fun answer hsem =>
      simulated_quiet ho hr ht hsem none .nothing (.client (next ok)) rfl (Hold.nothing_within _)
  cases htmp : d.entries tmp with
  | none => exact hquiet .missing (by simp only [Disk.sem, htmp])
  | some f =>
    cases hfails : e.fails with
    | true => exact hquiet .failed (by simp only [Disk.sem, htmp, hfails, if_true])
    | false =>
      have hsem : Disk.sem out (.remove tmp) e d =
          (.found (), { d with entries := Function.update d.entries tmp none }) := by
        simp only [Disk.sem, htmp, hfails, Bool.false_eq_true, if_false]
      have hname : (hold t).name = some tmp := congrArg Hold.name ht
      refine simulated_of hsem none .nothing (.client (next ok)) (ho.removes hr fun u hu g hg => ?_)
        (fun _ _ _ _ => rfl) ?_
      · exact hu (ho.apart u t tmp (congrArg Hold.name hg) hname)
      · obtain ⟨k, r', -, rfl⟩ := ho.drawn t tmp hname
        apply contents_congr
        · rfl
        · exact fun k' => Function.update_of_ne (L.temp_ne_path k r' k').symm ..
        · exact fun _ _ _ => rfl

theorem simulated_get (ht : hold t = .nothing) (k : K)
    (next : Except Unit (Option (List B)) → StoreProg K B R α) :
    L.Simulated out lucky d hold drawn t e (L.onFiles (.op (.get k) next)) (.op (.get k) next) := by
  cases hk : d.entries (L.path k) with
  | none =>
    have hsem : Disk.sem out (.openFile (L.path k)) e d = (.missing, d) := by
      simp only [Disk.sem, hk]
    have hnone : (L.contents d).values k = none := congrArg (Option.map _) hk
    refine simulated_quiet ho hr ht hsem (some ⟨false, e.outside⟩) .nothing ?_ rfl
      (Hold.nothing_within _)
    show L.Stage _ _ _ _ (next (.ok ((L.contents d).values k)))
    rw [hnone]
    exact .client _
  | some f =>
    cases hfails : e.fails with
    | true =>
      have hsem : Disk.sem out (.openFile (L.path k)) e d = (.failed, d) := by
        simp only [Disk.sem, hk, hfails, if_true]
      exact simulated_quiet ho hr ht hsem (some ⟨true, e.outside⟩) .nothing (.client _) rfl
        (Hold.nothing_within _)
    | false =>
      have hsem : Disk.sem out (.openFile (L.path k)) e d = (.found f, d) := by
        simp only [Disk.sem, hk, hfails, Bool.false_eq_true, if_false]
      have hsome : (L.contents d).values k = some (d.files f) := congrArg (Option.map _) hk
      refine simulated_of hsem (some ⟨!lucky, e.outside⟩) (.reading f (d.files f)) ?_ (ho.opens hr hk)
        (fun _ _ _ _ => rfl) rfl
      have hanswer :
          (machine (StoreOp.sem out) (.op (.get k) next) ⟨!lucky, e.outside⟩ (L.contents d)).1 =
          next (if lucky then .ok (some (d.files f)) else .error ()) := by
        show next (if (!lucky) = true then .error () else .ok ((L.contents d).values k)) = _
        rw [hsome]
        cases lucky <;> rfl
      show L.Stage _ _ _ _
        (machine (StoreOp.sem out) (.op (.get k) next) ⟨!lucky, e.outside⟩ (L.contents d)).1
      rw [hanswer]
      exact .read rfl next

theorem simulated_delete (ht : hold t = .nothing) (k : K)
    (next : Bool → StoreProg K B R α) :
    L.Simulated out lucky d hold drawn t e (L.onFiles (.op (.delete k) next))
      (.op (.delete k) next) := by
  cases hk : d.entries (L.path k) with
  | none =>
    have hsem : Disk.sem out (.remove (L.path k)) e d = (.missing, d) := by
      simp only [Disk.sem, hk]
    have hnone : (L.contents d).values k = none := congrArg (Option.map _) hk
    refine simulated_quiet ho hr ht hsem (some ⟨false, e.outside⟩) .nothing (.client (next true)) ?_
      (Hold.nothing_within _)
    show L.contents d = { L.contents d with values := Function.update (L.contents d).values k none }
    rw [← hnone, Function.update_eq_self]
  | some f =>
    cases hfails : e.fails with
    | true =>
      have hsem : Disk.sem out (.remove (L.path k)) e d = (.failed, d) := by
        simp only [Disk.sem, hk, hfails, if_true]
      exact simulated_quiet ho hr ht hsem (some ⟨true, e.outside⟩) .nothing (.client (next false)) rfl
        (Hold.nothing_within _)
    | false =>
      have hsem : Disk.sem out (.remove (L.path k)) e d =
          (.found (), { d with entries := Function.update d.entries (L.path k) none }) := by
        simp only [Disk.sem, hk, hfails, Bool.false_eq_true, if_false]
      refine simulated_of hsem (some ⟨false, e.outside⟩) .nothing (.client (next true))
        (ho.removes hr fun u _ g hg => ?_) (fun _ _ _ _ => rfl) ?_
      · obtain ⟨k', r', -, heq⟩ := ho.drawn u _ (congrArg Hold.name hg)
        exact L.temp_ne_path k' r' k heq.symm
      · have hothers : ∀ k' ≠ k,
            Function.update d.entries (L.path k) none (L.path k') = d.entries (L.path k') :=
          fun k' hkk => Function.update_of_ne (L.path_injective.ne hkk) ..
        exact contents_update (Function.update_self ..) hothers

theorem simulated_outside (i : I) (next : R i → StoreProg K B R α) :
    L.Simulated out lucky d hold drawn t e (L.onFiles (.op (.outside i) next))
      (.op (.outside i) next) := by
  have howned := ho.release hr (Hold.nothing_within (hold t))
  exact ⟨some ⟨false, e.outside⟩, .nothing, .client _, howned.outside _, fun _ _ _ _ => rfl, rfl⟩

theorem simulated_read {f : ℕ} {v : List B} (ht : hold t = .reading f v) (hv : d.files f = v)
    (next : Except Unit (Option (List B)) → StoreProg K B R α) :
    L.Simulated out lucky d hold drawn t e
      (.op (.read f) fun v =>
        (match v with
          | none => (.pure (.error ()) : FileProg N B R (Except Unit (Option (List B))))
          | some v => .pure (.ok (some v))) >>= fun r => L.onFiles (next r))
      (next (if !e.fails then .ok (some v) else .error ())) := by
  subst hv
  have hsem : Disk.sem out (.read f) e d = (if e.fails then none else some (d.files f), d) := rfl
  cases hfails : e.fails with
  | false =>
    rw [hfails] at hsem
    exact simulated_quiet ho hr ht hsem none .nothing (.client _) rfl (Hold.nothing_within _)
  | true =>
    rw [hfails] at hsem
    exact simulated_quiet ho hr ht hsem none .nothing (.client _) rfl (Hold.nothing_within _)

theorem Stage.simulated (hs : L.Stage (!e.fails) d h q p) (ht : hold t = h) :
    L.Simulated out lucky d hold drawn t e q p := by
  cases hs with
  | client p =>
    cases p with
    | pure a =>
      have hstage : L.Stage lucky d .nothing (L.onFiles (.pure a))
        (.pure a : StoreProg K B R α) := .client _
      exact ⟨none, .nothing, hstage, ho.release hr (Hold.nothing_within _), fun _ _ _ _ => rfl, rfl⟩
    | op o next =>
      cases o with
      | set k v => exact simulated_set ho hr ht k v next
      | get k => exact simulated_get ho hr ht k next
      | delete k => exact simulated_delete ho hr ht k next
      | outside i => exact simulated_outside ho hr i next
  | create k v next => exact simulated_create ho hr ht k v next
  | fill hv next =>
    rename_i rest
    cases rest with
    | nil => exact simulated_close ho hr ht hv next
    | cons x rest => exact simulated_put ho hr ht hv next
  | rename hv next => exact simulated_rename ho hr ht hv next
  | close tmp f next => exact simulated_closeFailed ho hr ht f next
  | clean tmp ok next => exact simulated_clean ho hr ht ok next
  | read hv next => exact simulated_read ho hr ht hv next

end

omit [DecidableEq N] [DecidableEq K] in
/-- A program that has come to its end has come to that of the store's program. -/
theorem Stage.pure {v : α} (hs : L.Stage lucky d h (.pure v) p) : p = .pure v := by
  generalize hq : (.pure v : FileProg N B R α) = q at hs
  cases hs with
  | client p =>
    cases p with
    | pure b => exact congrArg Prog.pure (Prog.pure.inj hq).symm
    | op o next => cases o <;> cases hq
  | fill hv next =>
    rename_i rest
    cases rest with
    | nil => cases hq
    | cons x rest => cases x <;> cases hq
  | _ => cases hq

end

/-! ### whole runs -/

/-- The calls of a run, each at the step where it takes effect. -/
def calls {ε ε' : Type} : List (τ × ε) → List (Option ε') → List (τ × ε')
  | s :: sched, o :: points => o.elim (calls sched points) fun e => (s.1, e) :: calls sched points
  | _, _ => []

@[simp] theorem calls_nil {ε ε' : Type} (sched : List (τ × ε)) :
    calls sched ([] : List (Option ε')) = [] := by
  cases sched <;> rfl

theorem calls_append {ε ε' : Type} {sched : List (τ × ε)} {points : List (Option ε')}
    (hlen : points.length = sched.length) (t : τ) (e : ε) (o : Option ε') :
    calls (sched ++ [(t, e)]) (points ++ [o]) = calls sched points ++ o.elim [] fun e' => [(t, e')] := by
  induction sched generalizing points with
  | nil =>
    cases points with
    | nil => cases o <;> rfl
    | cons o' points => cases hlen
  | cons s sched ih =>
    cases points with
    | nil => cases hlen
    | cons o' points =>
      have hrest := ih (Nat.succ.inj hlen)
      cases o' with
      | none => exact hrest
      | some e' => exact congrArg ((s.1, e') :: ·) hrest

section
variable {L} {out : Semantics I R E W} [DecidableEq N] [DecidableEq K] [DecidableEq τ] {α : Type}
  {drawn : List ℕ} {hold : τ → Hold N B} {lucky : τ → Bool} {t : τ} {e : FileLuck E}
  {c : Config τ (FileProg N B R α) (Disk N B W)}
  {a : Config τ (StoreProg K B R α) (Store K B W)}

theorem Matches.step (hm : L.Matches (Function.update lucky t (!e.fails)) drawn hold c a)
    (hr : e.random ∉ drawn) :
    ∃ (o : Option (StoreLuck E)) (hold' : τ → Hold N B), L.Matches lucky (e.random :: drawn) hold'
      (c.step (machine (Disk.sem out)) t e)
      (o.elim a fun luck => a.step (machine (StoreOp.sem out)) t luck) := by
  have hstage := hm.stage t
  rw [Function.update_self] at hstage
  obtain ⟨o, h', hstage', howned, hfiles, hcontents'⟩ : L.Simulated out (lucky t) c.shared hold drawn t e
    (c.threads t) (a.threads t) := Stage.simulated hm.owned hr hstage rfl
  rw [hm.contents] at hstage' hcontents'
  have hthreads : ∀ u ≠ t,
      (o.elim a fun luck => a.step (machine (StoreOp.sem out)) t luck).threads u = a.threads u := by
    intro u hu
    cases o with
    | none => rfl
    | some luck => exact Config.step_other a hu luck
  refine ⟨o, Function.update hold t h', fun u => ?_, ?_, howned⟩
  · by_cases hu : u = t
    · rw [hu, Config.step_self, Config.step_shared, Function.update_self]
      cases o with
      | none => exact hstage'
      | some luck =>
        show L.Stage _ _ _ _ ((a.step (machine (StoreOp.sem out)) t luck).threads t)
        rw [Config.step_self]
        exact hstage'
    · rw [Config.step_other c hu, Function.update_of_ne hu, hthreads u hu]
      have hother := hm.stage u
      rw [Function.update_of_ne hu] at hother
      exact hother.congr (hfiles u hu)
  · cases o with
    | none => exact hcontents'
    | some luck => exact hcontents'

/-- What the programs and the files say agrees with the store. -/
def Agrees (L : Layout K N B) (c : Config τ (FileProg N B R α) (Disk N B W))
    (a : Config τ (StoreProg K B R α) (Store K B W)) : Prop :=
  L.contents c.shared = a.shared ∧ ∀ t v, c.threads t = .pure v → a.threads t = .pure v

omit [DecidableEq N] [DecidableEq K] [DecidableEq τ] in
theorem Matches.agrees (hm : L.Matches lucky drawn hold c a) : L.Agrees c a := by
  refine ⟨hm.contents, fun t v hv => ?_⟩
  have hstage := hm.stage t
  rw [hv] at hstage
  exact hstage.pure

theorem Matches.exec (hm : ∀ lucky, ∃ hold, L.Matches lucky drawn hold c a)
    {sched : List (τ × FileLuck E)} (hfresh : ∀ s ∈ sched, s.2.random ∉ drawn)
    (hdistinct : (sched.map (·.2.random)).Nodup) (lucky : τ → Bool) :
    ∃ points : List (Option (StoreLuck E)), points.length = sched.length ∧
      (∀ n, L.Agrees (c.exec (machine (Disk.sem out)) (sched.take n))
        (a.exec (machine (StoreOp.sem out)) (calls (sched.take n) (points.take n)))) ∧
      ∃ drawn' hold, (∀ r ∈ drawn', r ∈ drawn ∨ r ∈ sched.map (·.2.random)) ∧
        L.Matches lucky drawn' hold (c.exec (machine (Disk.sem out)) sched)
          (a.exec (machine (StoreOp.sem out)) (calls sched points)) := by
  -- the last operation decides which of the pending renames takes effect, hence the luck is
  -- generalized
  induction sched using List.reverseRecOn generalizing lucky with
  | nil =>
    obtain ⟨hold, hm⟩ := hm lucky
    refine ⟨[], rfl, fun n => ?_, drawn, hold, fun r hr => .inl hr, hm⟩
    rw [List.take_nil, List.take_nil]
    exact hm.agrees
  | append_singleton sched s ih =>
    obtain ⟨t, e⟩ := s
    rw [List.map_append, List.nodup_append] at hdistinct
    obtain ⟨points, hlen, hprefix, drawn', hold, hdrawn, hm⟩ :=
      ih (fun s hs => hfresh s (List.mem_append_left _ hs)) hdistinct.1
        (Function.update lucky t (!e.fails))
    have hr : e.random ∉ drawn' := by
      intro hr
      rcases hdrawn _ hr with hr | hr
      · exact hfresh (t, e) (List.mem_append_right _ List.mem_cons_self) hr
      · exact hdistinct.2.2 _ hr _ List.mem_cons_self rfl
    obtain ⟨o, hold', hm'⟩ := hm.step hr
    have hwhole : L.Matches lucky (e.random :: drawn') hold'
        (c.exec (machine (Disk.sem out)) (sched ++ [(t, e)]))
        (a.exec (machine (StoreOp.sem out)) (calls (sched ++ [(t, e)]) (points ++ [o]))) := by
      rw [calls_append hlen, Config.exec_append, Config.exec_append]
      cases o with
      | none => exact hm'
      | some luck => exact hm'
    have hlen' : (points ++ [o]).length = (sched ++ [(t, e)]).length := by
      rw [List.length_append, List.length_append, hlen]
      rfl
    refine ⟨points ++ [o], hlen', fun n => ?_, e.random :: drawn', hold', fun r hr => ?_, hwhole⟩
    · by_cases hn : n ≤ sched.length
      · rw [List.take_append_of_le_length hn, List.take_append_of_le_length (hlen ▸ hn)]
        exact hprefix n
      · have hn' : (sched ++ [(t, e)]).length ≤ n := by
          rw [List.length_append]
          exact Nat.lt_of_not_le hn
        rw [List.take_of_length_le hn', List.take_of_length_le (hlen' ▸ hn')]
        exact hwhole.agrees
    · rw [List.map_append, List.mem_append]
      rcases List.mem_cons.mp hr with rfl | hr
      · exact .inr (.inr List.mem_cons_self)
      · exact (hdrawn r hr).imp id .inl

end

/-- Programs that share a store of files, in any order of their steps and stopped anywhere, are
programs that share a store whose calls are single steps: every step of the run is at most one call, of
the same program, and after every step the files hold what the store does and who has finished has
finished with the store's answer. -/
theorem onFiles_atomic [DecidableEq N] [DecidableEq K] [DecidableEq τ] {α : Type}
    (out : Semantics I R E W)
    {d : Disk N B W}
    (hbounded : ∀ n f, d.entries n = some f → f < d.next)
    (progs : τ → StoreProg K B R α) {sched : List (τ × FileLuck E)}
    (hdistinct : (sched.map (·.2.random)).Nodup) :
    ∃ points : List (Option (StoreLuck E)), points.length = sched.length ∧ ∀ n,
      L.Agrees (Config.exec (machine (Disk.sem out)) ⟨fun t => L.onFiles (progs t), d⟩ (sched.take n))
        (Config.exec (machine (StoreOp.sem out)) ⟨progs, L.contents d⟩
          (calls (sched.take n) (points.take n))) := by
  have howned : L.Owned [] d (fun _ : τ => (.nothing : Hold N B)) :=
    ⟨hbounded, fun _ _ _ hh => (nomatch hh), fun _ _ hh => (nomatch hh), fun _ _ _ hh => (nomatch hh),
      fun _ _ _ hh => nomatch hh⟩
  have hstart : ∀ lucky, ∃ hold,
      L.Matches lucky [] hold ⟨fun t => L.onFiles (progs t), d⟩ ⟨progs, L.contents d⟩ := fun lucky =>
    ⟨fun _ => .nothing, fun t => .client (progs t), rfl, howned⟩
  obtain ⟨points, hlen, hagrees, -⟩ :=
    Matches.exec hstart (fun s _ hs => nomatch hs) hdistinct fun _ => true
  exact ⟨points, hlen, hagrees⟩

end Layout
end LanWeave.Library

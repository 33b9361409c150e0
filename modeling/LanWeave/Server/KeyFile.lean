import LanWeave.Golang.Base64Text
import LanWeave.Golang.Strings
import LanWeave.Library.History

/-! The file of the server's private key over the life of a data directory: the first start that gets
to write it settles the key, whatever fails and wherever a start is cut off. -/

namespace LanWeave

structure KeyFile where
  data : String
  /-- Group or others have some permission. -/
  broad : Bool
deriving DecidableEq

inductive KeyErr
  | stat
  | chmod
  | read
  | corrupt
  | generate
  | write
deriving DecidableEq

/-- What the environment does to one start. -/
structure KeyLuck where
  statFails : Bool
  chmodFails : Bool
  readFails : Bool
  /-- What `GeneratePrivateKey` yields, `none` where it fails. -/
  generated : Option WgKey
  /-- How many bytes reach the file before an error or the end of the process; `none` where it is
  not even opened. -/
  written : Option Nat
  closeFails : Bool

def keyText (key : WgKey) : List Char := key.string.toList ++ ['\n']

/-- `LoadOrGenerateKey`; the answer of a start that is cut off counts as an error. -/
def loadOrGenerateKey (l : KeyLuck) : Option KeyFile → Except KeyErr (WgKey × Bool) × Option KeyFile
  | some f =>
    if l.statFails then (.error .stat, some f)
    else if f.broad ∧ l.chmodFails then (.error .chmod, some f)
    else if l.readFails then (.error .read, some ⟨f.data, false⟩)
    else
      match parseWgKey (trimSpace f.data) with
      | none => (.error .corrupt, some ⟨f.data, false⟩)
      | some key => (.ok (key, false), some ⟨f.data, false⟩)
  | none =>
    if l.statFails then (.error .stat, none)
    else
      match l.generated, l.written with
      | none, _ => (.error .generate, none)
      | some _, none => (.error .write, none)
      | some key, some n =>
        if n < (keyText key).length ∨ l.closeFails then
          (.error .write, some ⟨String.ofList ((keyText key).take n), false⟩)
        else (.ok (key, true), some ⟨String.ofList ((keyText key).take n), false⟩)

/-- Nothing keeps the start from an existing file. -/
def KeyLuck.Reads (l : KeyLuck) : Prop :=
  l.statFails = false ∧ l.chmodFails = false ∧ l.readFails = false

inductive KeyEvent
  | start (l : KeyLuck)
  /-- Someone widens the permissions of the file. -/
  | loosen

/-- The data directory and the answers of its starts so far. -/
structure KeyHistory where
  file : Option KeyFile
  answers : List (Except KeyErr (WgKey × Bool))

def KeyHistory.fresh : KeyHistory := ⟨none, []⟩

def KeyHistory.step (s : KeyHistory) : KeyEvent → KeyHistory
  | .start l => ⟨(loadOrGenerateKey l s.file).2, s.answers ++ [(loadOrGenerateKey l s.file).1]⟩
  | .loosen => ⟨s.file.map fun f => ⟨f.data, true⟩, s.answers⟩

theorem isSpace_base64Char (v : BitVec 6) : isSpace (base64Char v) = false := by
  have hall : ∀ n < 64, isSpace (base64Char (BitVec.ofNat 6 n)) = false := by decide
  have h := hall v.toNat v.isLt
  rwa [BitVec.ofNat_toNat, BitVec.setWidth_eq] at h

theorem isSpace_of_mem_string {key : WgKey} {c : Char} (h : c ∈ key.string.toList) :
    isSpace c = false := by
  rw [WgKey.string, encodeToString, String.toList_ofList] at h
  rcases mem_encodeQuanta h with rfl | ⟨v, rfl⟩
  · decide
  · exact isSpace_base64Char v

theorem parse_cut (key : WgKey) (n : Nat) :
    parseWgKey (trimSpace (String.ofList ((keyText key).take n))) =
      if n < 44 then none else some key := by
  have hlen := key.string_toList_length
  split_ifs with hn
  · apply parseWgKey_short
    refine (trimSpace_length _).trans_lt ?_
    rw [String.toList_ofList]
    exact (List.length_take_le ..).trans_lt hn
  · have htake : (keyText key).take n = key.string.toList ++ ['\n'].take (n - 44) := by
      rw [keyText, List.take_append, List.take_of_length_le (by omega), hlen]
    rw [htake, trimSpace_append (fun c hc => isSpace_of_mem_string hc), String.ofList_toList,
      parseWgKey_string]
    intro c hc
    obtain rfl := List.mem_singleton.mp (List.mem_of_mem_take hc)
    decide

section
variable (l : KeyLuck) {f : KeyFile} {key : WgKey} {n : Nat}

/-- A start that finds the file leaves what is in it, and answers with no other key than its. -/
theorem loadOrGenerateKey_found (hf : f.data = String.ofList ((keyText key).take n)) :
    (∃ broad, (loadOrGenerateKey l (some f)).2 = some ⟨f.data, broad⟩) ∧
      ((∃ e, (loadOrGenerateKey l (some f)).1 = .error e) ∨
        44 ≤ n ∧ (loadOrGenerateKey l (some f)).1 = .ok (key, false)) := by
  have hparse := parse_cut key n
  rw [← hf] at hparse
  simp only [loadOrGenerateKey]
  split_ifs with hstat hchmod hread
  · exact ⟨⟨f.broad, rfl⟩, .inl ⟨_, rfl⟩⟩
  · exact ⟨⟨f.broad, rfl⟩, .inl ⟨_, rfl⟩⟩
  · exact ⟨⟨false, rfl⟩, .inl ⟨_, rfl⟩⟩
  · rw [hparse]
    by_cases hn : n < 44
    · rw [if_pos hn]
      exact ⟨⟨false, rfl⟩, .inl ⟨_, rfl⟩⟩
    · rw [if_neg hn]
      exact ⟨⟨false, rfl⟩, .inr ⟨by omega, rfl⟩⟩

theorem loadOrGenerateKey_reads (hl : l.Reads) (hf : f.data = String.ofList ((keyText key).take n)) :
    (loadOrGenerateKey l (some f)).1 = if n < 44 then .error .corrupt else .ok (key, false) := by
  obtain ⟨hstat, hchmod, hread⟩ := hl
  have hparse := parse_cut key n
  rw [← hf] at hparse
  simp only [loadOrGenerateKey, hstat, hchmod, hread, hparse]
  by_cases hn : n < 44 <;> simp [hn]

/-- A start that finds no file fails and leaves none, or leaves the text of a new key, in part or
whole, and answers with that key when it is whole. -/
theorem loadOrGenerateKey_missing :
    ((loadOrGenerateKey l none).2 = none ∧ ∃ e, (loadOrGenerateKey l none).1 = .error e) ∨
    ∃ key n, (loadOrGenerateKey l none).2 = some ⟨String.ofList ((keyText key).take n), false⟩ ∧
      ((∃ e, (loadOrGenerateKey l none).1 = .error e) ∨
        44 ≤ n ∧ (loadOrGenerateKey l none).1 = .ok (key, true)) := by
  simp only [loadOrGenerateKey]
  split_ifs with hstat
  · exact .inl ⟨rfl, _, rfl⟩
  · cases l.generated with
    | none => exact .inl ⟨rfl, _, rfl⟩
    | some key =>
      cases l.written with
      | none => exact .inl ⟨rfl, _, rfl⟩
      | some n =>
        refine .inr ⟨key, n, ?_⟩
        dsimp only
        split_ifs with hcut
        · exact ⟨rfl, .inl ⟨_, rfl⟩⟩
        · have hlen : (keyText key).length = 45 := by
            rw [keyText, List.length_append, key.string_toList_length]
            rfl
          exact ⟨rfl, .inr ⟨by omega, rfl⟩⟩

end

/-- The start reports that it has generated the key. -/
def reportsNew : Except KeyErr (WgKey × Bool) → Bool
  | .ok (_, generated) => generated
  | .error _ => false

/-- Without a file no start has answered; a file holds the text of one key as far as it got, and the
starts that answered did so with that key, at most one as its maker. -/
def KeyHistory.Settled (s : KeyHistory) : Prop :=
  (s.file = none → ∀ answer ∈ s.answers, ∃ e, answer = .error e) ∧
  ∀ f, s.file = some f → ∃ key n, f.data = String.ofList ((keyText key).take n) ∧
    (∀ k g, .ok (k, g) ∈ s.answers → k = key ∧ 44 ≤ n) ∧ (s.answers.filter reportsNew).length ≤ 1

theorem KeyHistory.fresh_settled : fresh.Settled :=
  ⟨fun _ _ h => absurd h List.not_mem_nil, fun f h => absurd h.symm (Option.some_ne_none f)⟩

theorem filter_reportsNew_of_errors {answers : List (Except KeyErr (WgKey × Bool))}
    (h : ∀ answer ∈ answers, ∃ e, answer = .error e) : answers.filter reportsNew = [] := by
  refine List.filter_eq_nil_iff.mpr fun answer ha hnew => ?_
  obtain ⟨e, rfl⟩ := h answer ha
  cases hnew

theorem answered_append {answers : List (Except KeyErr (WgKey × Bool))}
    {answer : Except KeyErr (WgKey × Bool)} {key : WgKey} {n : Nat} {generated : Bool}
    (hold : ∀ k g, .ok (k, g) ∈ answers → k = key ∧ 44 ≤ n)
    (hanswer : (∃ e, answer = .error e) ∨ 44 ≤ n ∧ answer = .ok (key, generated)) :
    ∀ k g, .ok (k, g) ∈ answers ++ [answer] → k = key ∧ 44 ≤ n := by
  intro k g ha
  rcases List.mem_append.mp ha with ha | ha
  · exact hold k g ha
  · have hlast := List.mem_singleton.mp ha
    rcases hanswer with ⟨e, he⟩ | ⟨hn, hok⟩
    · cases hlast.trans he
    · cases hlast.trans hok
      exact ⟨rfl, hn⟩

theorem KeyHistory.Settled.start {s : KeyHistory} (h : s.Settled) (l : KeyLuck) :
    (s.step (.start l)).Settled := by
  obtain ⟨file, answers⟩ := s
  obtain ⟨hmissing, hfound⟩ := h
  cases file with
  | none =>
    have herrors := hmissing rfl
    have hnone := filter_reportsNew_of_errors herrors
    -- without a file a start fails before it has made one, or writes its key, perhaps not all of it
    rcases loadOrGenerateKey_missing l with ⟨hfile, e, he⟩ | ⟨key, n, hfile, hanswer⟩
    · refine ⟨fun _ answer ha => ?_, fun f hf => ?_⟩
      · rcases List.mem_append.mp ha with ha | ha
        · exact herrors answer ha
        · exact ⟨e, (List.mem_singleton.mp ha).trans he⟩
      · exact absurd (hf.symm.trans hfile) (Option.some_ne_none f)
    · refine ⟨fun hf => absurd (hfile.symm.trans hf) (Option.some_ne_none _),
        fun f hf => ⟨key, n, ?_, ?_, ?_⟩⟩
      · exact congrArg KeyFile.data (Option.some.inj (hf.symm.trans hfile))
      · refine answered_append (fun k g ha => ?_) hanswer
        obtain ⟨e, he⟩ := herrors _ ha
        cases he
      · change ((answers ++ [_]).filter reportsNew).length ≤ 1
        rw [List.filter_append, hnone, List.nil_append]
        exact List.length_filter_le ..
  | some f =>
    obtain ⟨key, n, hdata, hkeys, hone⟩ := hfound f rfl
    obtain ⟨⟨broad, hfile⟩, hanswer⟩ := loadOrGenerateKey_found l hdata
    refine ⟨fun hf => absurd (hfile.symm.trans hf) (Option.some_ne_none _),
      fun f' hf => ⟨key, n, ?_, ?_, ?_⟩⟩
    · exact (congrArg KeyFile.data (Option.some.inj (hf.symm.trans hfile))).trans hdata
    · exact answered_append hkeys hanswer
    · -- a start that finds a file never reports a new key
      have hold : reportsNew (loadOrGenerateKey l (some f)).1 = false := by
        rcases hanswer with ⟨e, he⟩ | ⟨-, hok⟩
        · rw [he]
          rfl
        · rw [hok]
          rfl
      change ((answers ++ [(loadOrGenerateKey l (some f)).1]).filter reportsNew).length ≤ 1
      rw [List.filter_append, List.filter_cons_of_neg (by simp [hold]), List.filter_nil, List.append_nil]
      exact hone

theorem KeyHistory.Settled.step {s : KeyHistory} (h : s.Settled) (e : KeyEvent) :
    (s.step e).Settled := by
  cases e with
  | start l => exact h.start l
  | loosen =>
    obtain ⟨file, answers⟩ := s
    cases file with
    | none => exact h
    | some f =>
      refine ⟨fun hf => absurd hf (Option.some_ne_none _), fun f' hf => ?_⟩
      obtain rfl := Option.some.inj hf
      exact h.2 f rfl

theorem KeyHistory.Settled.run {s : KeyHistory} (h : s.Settled) (events : List KeyEvent) :
    (events.foldl KeyHistory.step s).Settled := by
  induction events generalizing s with
  | nil => exact h
  | cons e events ih => exact ih (h.step e)

/-- What is in the file never changes again. -/
theorem KeyHistory.Settled.data_kept {s : KeyHistory} (h : s.Settled) {f : KeyFile}
    (hf : s.file = some f)
    (events : List KeyEvent) : ∃ broad,
      (events.foldl KeyHistory.step s).file = some ⟨f.data, broad⟩ := by
  induction events generalizing s f with
  | nil => exact ⟨f.broad, hf⟩
  | cons e events ih =>
    obtain ⟨broad, hstep⟩ : ∃ broad, (s.step e).file = some ⟨f.data, broad⟩ := by
      cases e with
      | start l =>
        obtain ⟨key, n, hdata, -⟩ := h.2 f hf
        obtain ⟨hfile, -⟩ := loadOrGenerateKey_found l hdata
        simpa only [KeyHistory.step, hf] using hfile
      | loosen => exact ⟨true, by simp [KeyHistory.step, hf]⟩
    exact ih (f := ⟨f.data, broad⟩) (h.step e) hstep

/-- Over the life of a data directory all starts that come up do so with one key, which at most one of
them has generated. Once one has come up, every later start that can read the file comes up with
that key. And once there is a file, cut off or whole, whether starts come up is settled for good:
they all refuse it as corrupt when the text of the key is not complete. -/
theorem server_key_settled (earlier later : List KeyEvent) (l : KeyLuck) :
    let s := earlier.foldl KeyHistory.step .fresh
    let t := later.foldl KeyHistory.step s
    (∀ k g k' g', .ok (k, g) ∈ t.answers → .ok (k', g') ∈ t.answers → k = k') ∧
      (t.answers.filter reportsNew).length ≤ 1 ∧
      (∀ k g, .ok (k, g) ∈ s.answers → l.Reads → (loadOrGenerateKey l t.file).1 = .ok (k, false)) ∧
      ∀ f, s.file = some f → l.Reads → ∃ k, (loadOrGenerateKey l t.file).1 =
        if f.data.toList.length < 44 then .error .corrupt else .ok (k, false) := by
  intro s t
  have hs : s.Settled := KeyHistory.fresh_settled.run earlier
  have ht : t.Settled := hs.run later
  have hlater : ∀ f, s.file = some f → ∃ broad, t.file = some ⟨f.data, broad⟩ :=
    fun f hf => hs.data_kept hf later
  refine ⟨fun k g k' g' hk hk' => ?_, ?_, fun k g hk hl => ?_, fun f hf hl => ?_⟩
  · cases hfile : t.file with
    | none =>
      obtain ⟨e, he⟩ := ht.1 hfile _ hk
      cases he
    | some f =>
      obtain ⟨key, n, -, hkeys, -⟩ := ht.2 f hfile
      exact (hkeys k g hk).1.trans (hkeys k' g' hk').1.symm
  · cases hfile : t.file with
    | none => rw [filter_reportsNew_of_errors (ht.1 hfile)]; exact Nat.zero_le 1
    | some f =>
      obtain ⟨key, n, -, -, hone⟩ := ht.2 f hfile
      exact hone
  · cases hfile : s.file with
    | none =>
      obtain ⟨e, he⟩ := hs.1 hfile _ hk
      cases he
    | some f =>
      obtain ⟨key, n, hdata, hkeys, -⟩ := hs.2 f hfile
      obtain ⟨rfl, hn⟩ := hkeys k g hk
      obtain ⟨broad, hkept⟩ := hlater f hfile
      rw [hkept, loadOrGenerateKey_reads l (f := ⟨f.data, broad⟩) hl hdata, if_neg (by omega)]
  · obtain ⟨key, n, hdata, -, -⟩ := hs.2 f hf
    obtain ⟨broad, hkept⟩ := hlater f hf
    refine ⟨key, ?_⟩
    -- the file is a beginning of the key's text, which has 44 characters and a newline
    have hlen : f.data.toList.length = min n 45 := by
      rw [hdata, String.toList_ofList, List.length_take, keyText, List.length_append,
        key.string_toList_length]
      rfl
    rw [hkept, loadOrGenerateKey_reads l (f := ⟨f.data, broad⟩) hl hdata, hlen]
    have hiff : n < 44 ↔ min n 45 < 44 := by omega
    simp only [hiff]

/-- Nothing goes wrong, with this random key. -/
def goodStart (key : WgKey) : KeyLuck := ⟨false, false, false, some key, some 45, false⟩

def firstKey : WgKey := ⟨List.replicate 32 0, rfl⟩

def secondKey : WgKey := ⟨List.replicate 32 1, rfl⟩

/-- A first start whose process ends after ten bytes leaves a server that does not come up again. -/
theorem server_key_settled_cut_off : (loadOrGenerateKey (goodStart secondKey)
    (([.start { goodStart firstKey with written := some 10 }, .start (goodStart secondKey)] :
      List KeyEvent).foldl KeyHistory.step .fresh).file).1 = .error .corrupt := by
  obtain ⟨k, hk⟩ := (server_key_settled [.start { goodStart firstKey with written := some 10 }]
    [.start (goodStart secondKey)] (goodStart secondKey)).2.2.2 _ rfl ⟨rfl, rfl, rfl⟩
  exact hk.trans (if_pos (by decide))

end LanWeave

import Mathlib.Data.List.Basic
import Mathlib.Data.List.DropRight

/-! The parts of Go's strings and strconv packages the handlers use, over Lean strings: the
texts come from JSON bodies and URL paths, where Go's strings are valid UTF-8. -/

namespace LanWeave

/-- unicode.IsSpace. -/
def isSpace (c : Char) : Bool :=
  [0x09, 0x0A, 0x0B, 0x0C, 0x0D, 0x20, 0x85, 0xA0, 0x1680, 0x2028, 0x2029, 0x202F, 0x205F,
    0x3000].contains c.toNat || (0x2000 ≤ c.toNat && c.toNat ≤ 0x200A)

def trimSpace (s : String) : String :=
  String.ofList ((s.toList.dropWhile isSpace).reverse.dropWhile isSpace).reverse

theorem trimSpace_trimSpace (s : String) : trimSpace (trimSpace s) = trimSpace s := by
  have hkept : (List.rdropWhile isSpace (s.toList.dropWhile isSpace)).dropWhile isSpace =
      List.rdropWhile isSpace (s.toList.dropWhile isSpace) := by
    obtain ⟨rest, hrest⟩ := List.rdropWhile_prefix isSpace (l := s.toList.dropWhile isSpace)
    cases hm : List.rdropWhile isSpace (s.toList.dropWhile isSpace) with
    | nil => rfl
    | cons c cs =>
      -- it begins as the text does that has lost its leading spaces
      have hlead := List.dropWhile_idempotent (p := isSpace) (l := s.toList)
      rw [← hrest, hm, List.cons_append, List.dropWhile_cons] at hlead
      rw [List.dropWhile_cons]
      split_ifs at hlead ⊢ with hc
      · have hshort := (List.dropWhile_suffix isSpace (l := cs ++ rest)).length_le
        rw [hlead] at hshort
        rw [List.length_cons] at hshort
        omega
      · rfl
  show String.ofList (List.rdropWhile isSpace ((trimSpace s).toList.dropWhile isSpace)) = _
  have hchars : (trimSpace s).toList = List.rdropWhile isSpace (s.toList.dropWhile isSpace) :=
    String.toList_ofList
  rw [hchars, hkept, List.rdropWhile_idempotent]
  rfl

theorem trimSpace_length (s : String) : (trimSpace s).toList.length ≤ s.toList.length := by
  rw [trimSpace, String.toList_ofList, List.length_reverse]
  refine (List.dropWhile_suffix _).length_le.trans ?_
  rw [List.length_reverse]
  exact (List.dropWhile_suffix _).length_le

theorem trimSpace_append {cs tail : List Char} (hcs : ∀ c ∈ cs, isSpace c = false)
    (htail : ∀ c ∈ tail, isSpace c = true) :
    trimSpace (String.ofList (cs ++ tail)) = String.ofList cs := by
  have hnone : ∀ l : List Char, (∀ c ∈ l, isSpace c = false) → l.dropWhile isSpace = l := by
    intro l hl
    cases l with
    | nil => rfl
    | cons c l => exact List.dropWhile_cons_of_neg (by simp [hl c List.mem_cons_self])
  rw [trimSpace, String.toList_ofList]
  congr 1
  cases cs with
  | nil =>
    have hall : tail.dropWhile isSpace = [] := List.dropWhile_eq_nil_iff.mpr htail
    rw [List.nil_append, hall]
    rfl
  | cons c cs =>
    have hlead : (c :: cs ++ tail).dropWhile isSpace = c :: cs ++ tail :=
      List.dropWhile_cons_of_neg (by simp [hcs c List.mem_cons_self])
    rw [hlead, List.reverse_append, List.dropWhile_append_of_pos (by simpa using htail),
      hnone _ fun d hd => hcs d (List.mem_reverse.mp hd), List.reverse_reverse]

/-- `strings.ToLower`, for ASCII. -/
def toLower (s : String) : String := String.ofList (s.toList.map Char.toLower)

/-- `len(s)`, in bytes. -/
def byteLen (s : String) : Nat := s.utf8ByteSize

/-- `strings.CutPrefix`. -/
def cutPrefix (s lead : String) : Option String :=
  if lead.toList.isPrefixOf s.toList then some (String.ofList (s.toList.drop lead.length)) else none

/-- `strings.Cut` at a single character. -/
def cut (s : String) (sep : Char) : Option (String × String) :=
  match s.toList.dropWhile (· ≠ sep) with
  | [] => none
  | _ :: after => some (String.ofList (s.toList.takeWhile (· ≠ sep)), String.ofList after)

theorem cutPrefix_append (lead s : String) : cutPrefix (lead ++ s) lead = some s := by
  have hlead : lead.toList.isPrefixOf (lead ++ s).toList = true := by
    rw [String.toList_append, List.isPrefixOf_iff_prefix]
    exact List.prefix_append _ _
  rw [cutPrefix, if_pos hlead, String.toList_append, ← String.length_toList, List.drop_left,
    String.ofList_toList]

theorem cut_append {s : String} {sep : Char} (t : String) (h : sep ∉ s.toList) :
    cut (s ++ String.singleton sep ++ t) sep = some (s, t) := by
  have hkeep : ∀ c ∈ s.toList, decide (c ≠ sep) = true := fun c hc =>
    decide_eq_true fun heq => h (heq ▸ hc)
  have hdrop : (sep :: t.toList).dropWhile (fun c => decide (c ≠ sep)) = sep :: t.toList :=
    List.dropWhile_cons_of_neg (by simp)
  have htake : (sep :: t.toList).takeWhile (fun c => decide (c ≠ sep)) = [] :=
    List.takeWhile_cons_of_neg (by simp)
  have htext : (s ++ String.singleton sep ++ t).toList = s.toList ++ sep :: t.toList := by simp
  rw [cut, htext, List.dropWhile_append_of_pos hkeep, List.takeWhile_append_of_pos hkeep,
    hdrop, htake, List.append_nil, String.ofList_toList]
  simp

def isDigit (c : Char) : Bool := '0' ≤ c && c ≤ '9'

/-- The value of a nonempty run of decimal digits. -/
def parseDigits (cs : List Char) : Option Nat :=
  if cs ≠ [] ∧ cs.all isDigit then
    some (cs.foldl (fun n c => 10 * n + (c.toNat - '0'.toNat)) 0)
  else none

def inInt64 (n : Int) : Bool := -9223372036854775808 ≤ n && n ≤ 9223372036854775807

/-- `strconv.ParseInt(s, 10, 64)`. -/
def parseInt64 (s : String) : Option Int :=
  (match s.toList with
    | '-' :: cs => (parseDigits cs).map fun n => -(n : Int)
    | '+' :: cs => (parseDigits cs).map fun n => (n : Int)
    | cs => (parseDigits cs).map fun n => (n : Int)).filter inInt64

example : parseInt64 "-12" = some (-12) := by decide
example : parseInt64 "9223372036854775808" = none := by decide

theorem isDigit_of_mem_repr {n : Nat} {c : Char} (h : c ∈ n.repr.toList) : isDigit c = true := by
  rw [Nat.repr, String.toList_ofList] at h
  exact Nat.isDigit_of_mem_toDigits (by decide) (by decide) h

theorem isSpace_of_isDigit {c : Char} (h : isDigit c = true) : c ≠ '\n' ∧ isSpace c = false := by
  have hrange : '0'.toNat ≤ c.toNat ∧ c.toNat ≤ '9'.toNat := by
    simpa [isDigit, Char.le_def, UInt32.le_iff_toNat_le] using h
  have h0 : '0'.toNat = 48 := rfl
  have h9 : '9'.toNat = 57 := rfl
  constructor
  · rintro rfl
    have : '\n'.toNat = 10 := rfl
    omega
  · simp only [isSpace, List.contains_eq_mem, List.mem_cons, List.not_mem_nil, or_false,
      Bool.or_eq_false_iff, decide_eq_false_iff_not, Bool.and_eq_false_iff, decide_eq_false_iff_not]
    omega

theorem parseDigits_repr (n : Nat) : parseDigits n.repr.toList = some n := by
  have hall : n.repr.toList.all isDigit = true := List.all_eq_true.mpr fun c hc => isDigit_of_mem_repr hc
  have hne : n.repr.toList ≠ [] := by
    rw [Nat.repr, String.toList_ofList]
    exact Nat.toDigits_ne_nil
  rw [parseDigits, if_pos ⟨hne, hall⟩, Nat.repr, String.toList_ofList]
  exact congrArg some Nat.ofDigitChars_ten_toDigits

theorem parseInt64_toString (n : Int) : parseInt64 (toString n) = (some n).filter inInt64 := by
  cases n with
  | ofNat n =>
    have hparse := parseDigits_repr n
    have hdigit : ∀ c ∈ n.repr.toList, isDigit c = true := fun c hc => isDigit_of_mem_repr hc
    show parseInt64 n.repr = _
    unfold parseInt64
    generalize n.repr.toList = cs at hparse hdigit
    split
    · exact absurd (hdigit '-' List.mem_cons_self) (by decide)
    · exact absurd (hdigit '+' List.mem_cons_self) (by decide)
    · rw [hparse]
      rfl
  | negSucc n =>
    have htext : (toString (Int.negSucc n)).toList = '-' :: (n + 1).repr.toList := by
      show ("-" ++ (n + 1).repr).toList = _
      rw [String.toList_append]
      rfl
    unfold parseInt64
    rw [htext]
    simp only [parseDigits_repr]
    rfl

end LanWeave

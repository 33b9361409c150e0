import LanWeave.Golang.Strings
import Mathlib.Data.List.Infix

/-! The escaping of Go's net/url for a path segment, and the search for a substring. -/

namespace LanWeave

/-- `strings.Contains`. -/
def contains (s substr : String) : Bool := substr.toList <:+: s.toList

def isLetter (c : Char) : Bool := ('a' ≤ c && c ≤ 'z') || ('A' ≤ c && c ≤ 'Z')

/-- The negation of `shouldEscape(c, encodePathSegment)`. -/
def unescaped (c : Char) : Bool :=
  isLetter c || isDigit c || ['-', '_', '.', '~', '$', '&', '+', ':', '=', '@'].contains c

/-- A digit of `upperhex`. -/
def upperHex (n : Nat) : Char := Char.ofNat (if n < 10 then 48 + n else 55 + n)

def escapeByte (b : UInt8) : List Char := ['%', upperHex (b.toNat / 16), upperHex (b.toNat % 16)]

def escapeChar (c : Char) : List Char :=
  if unescaped c then [c] else (String.utf8EncodeChar c).flatMap escapeByte

/-- `url.PathEscape`. -/
def pathEscape (s : String) : String := String.ofList (s.toList.flatMap escapeChar)

example : pathEscape "a/é b" = "a%2F%C3%A9%20b" := by decide +kernel

theorem upperHex_ne_slash {n : Nat} (h : n < 16) : upperHex n ≠ '/' := by
  have hall : ∀ n < 16, upperHex n ≠ '/' := by decide +kernel
  exact hall n h

theorem slash_not_mem_escapeChar (c : Char) : '/' ∉ escapeChar c := by
  unfold escapeChar
  split_ifs with hc
  · intro h
    rw [← List.mem_singleton.mp h] at hc
    exact absurd hc (by decide)
  · intro h
    obtain ⟨b, -, hb⟩ := List.mem_flatMap.mp h
    have hlt := b.toNat_lt
    have hhigh := upperHex_ne_slash (n := b.toNat / 16) (by omega)
    have hlow := upperHex_ne_slash (n := b.toNat % 16) (by omega)
    rcases List.mem_cons.mp hb with h0 | hb
    · exact absurd h0 (by decide)
    · rcases List.mem_cons.mp hb with h1 | h2
      · exact hhigh h1.symm
      · exact hlow (List.mem_singleton.mp h2).symm

theorem slash_not_mem_pathEscape (s : String) : '/' ∉ (pathEscape s).toList := by
  rw [pathEscape, String.toList_ofList]
  intro h
  obtain ⟨c, -, hc⟩ := List.mem_flatMap.mp h
  exact slash_not_mem_escapeChar c hc

theorem escapeChar_of_escaped {c : Char} (h : unescaped c = false) :
    ∃ rest, escapeChar c = '%' :: rest := by
  rw [escapeChar, h, if_neg Bool.false_ne_true]
  cases hbytes : String.utf8EncodeChar c with
  | nil =>
    have hlen := String.length_utf8EncodeChar c
    rw [hbytes] at hlen
    exact absurd hlen c.utf8Size_pos.ne
  | cons b bytes => exact ⟨_, rfl⟩

section
variable {pat : List Char}

/-- Where nothing of it is escaped, a text begins an escaped segment as it begins the segment. -/
theorem prefix_flatMap_escapeChar (hpat : pat.all unescaped = true) (cs : List Char) :
    pat <+: cs.flatMap escapeChar ↔ pat <+: cs := by
  induction pat generalizing cs with
  | nil => simp
  | cons p pat ih =>
    rw [List.all_cons, Bool.and_eq_true] at hpat
    obtain ⟨hp, hrest⟩ := hpat
    cases cs with
    | nil => rfl
    | cons c cs =>
      rw [List.flatMap_cons, List.cons_prefix_cons]
      cases hc : unescaped c with
      | true => rw [escapeChar, if_pos hc, List.singleton_append, List.cons_prefix_cons, ih hrest]
      | false =>
        obtain ⟨rest, hescaped⟩ := escapeChar_of_escaped hc
        rw [hescaped, List.cons_append, List.cons_prefix_cons]
        refine iff_of_false (fun h => ?_) (fun h => ?_)
        · rw [h.1] at hp
          exact absurd hp (by decide)
        · rw [h.1, hc] at hp
          exact Bool.false_ne_true hp

theorem flatMap_escapeChar_eq (hpat : pat.all unescaped = true) (cs : List Char) :
    cs.flatMap escapeChar = pat ↔ cs = pat := by
  induction pat generalizing cs with
  | nil =>
    cases cs with
    | nil => simp
    | cons c cs =>
      refine iff_of_false (fun h => ?_) (List.cons_ne_nil c cs)
      rw [List.flatMap_cons, List.append_eq_nil_iff] at h
      cases hc : unescaped c with
      | true =>
        rw [escapeChar, if_pos hc] at h
        exact List.cons_ne_nil _ _ h.1
      | false =>
        obtain ⟨rest, hescaped⟩ := escapeChar_of_escaped hc
        rw [hescaped] at h
        exact List.cons_ne_nil _ _ h.1
  | cons p pat ih =>
    rw [List.all_cons, Bool.and_eq_true] at hpat
    obtain ⟨hp, hrest⟩ := hpat
    cases cs with
    | nil => exact iff_of_false (List.cons_ne_nil p pat).symm (List.cons_ne_nil p pat).symm
    | cons c cs =>
      rw [List.flatMap_cons, List.cons.injEq]
      cases hc : unescaped c with
      | true => rw [escapeChar, if_pos hc, List.singleton_append, List.cons.injEq, ih hrest]
      | false =>
        obtain ⟨rest, hescaped⟩ := escapeChar_of_escaped hc
        rw [hescaped, List.cons_append, List.cons.injEq]
        refine iff_of_false (fun h => ?_) (fun h => ?_)
        · rw [← h.1] at hp
          exact absurd hp (by decide)
        · rw [← h.1, hc] at hp
          exact Bool.false_ne_true hp

end

theorem prefix_pathEscape {pat : List Char} (hpat : pat.all unescaped = true) (s : String) :
    pat <+: (pathEscape s).toList ↔ pat <+: s.toList := by
  rw [pathEscape, String.toList_ofList, prefix_flatMap_escapeChar hpat]

theorem pathEscape_eq {pat : List Char} (hpat : pat.all unescaped = true) (s : String) :
    (pathEscape s).toList = pat ↔ s.toList = pat := by
  rw [pathEscape, String.toList_ofList, flatMap_escapeChar_eq hpat]

theorem pathEscape_self {s : String} (hs : s.toList.all unescaped = true) : pathEscape s = s :=
  String.toList_injective ((pathEscape_eq hs s).mpr rfl)

theorem mem_toString {n : Int} {c : Char} (h : c ∈ (toString n).toList) :
    c = '-' ∨ isDigit c = true := by
  cases n with
  | ofNat n => exact .inr (isDigit_of_mem_repr h)
  | negSucc n =>
    have happend : c ∈ "-".toList ++ (Nat.repr (n + 1)).toList := String.toList_append ▸ h
    rcases List.mem_append.mp happend with hminus | hdigits
    · exact .inl (List.mem_singleton.mp hminus)
    · exact .inr (isDigit_of_mem_repr hdigits)

theorem unescaped_toString (n : Int) : (toString n).toList.all unescaped = true := by
  rw [List.all_eq_true]
  intro c hc
  rcases mem_toString hc with rfl | hdigit
  · rfl
  · rw [unescaped, hdigit, Bool.or_true, Bool.true_or]

end LanWeave

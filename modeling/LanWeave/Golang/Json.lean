import LanWeave.Golang.ServeMux

/-! The texts of encoding/json: an object as `MarshalIndent` writes it, and what `Unmarshal` reads. -/

namespace LanWeave

/-- The Go string of these bytes, where it is valid. -/
def ofUtf8 (bytes : List UInt8) : Option String := String.fromUTF8? bytes.toByteArray

theorem ofUtf8_utf8 (s : String) : ofUtf8 (utf8 s) = some s := by
  have hbytes : (utf8 s).toByteArray = s.toByteArray := String.utf8Encode_toList
  rw [ofUtf8, String.fromUTF8?, hbytes]
  exact dif_pos s.isValidUTF8

/-- A number is kept as it is written. -/
inductive Json
  | null
  | bool (b : Bool)
  | num (literal : List Char)
  | str (s : String)
  | arr (items : List Json)
  | obj (members : List (String × Json))

namespace Json

def lowerHex (n : Nat) : Char := if n < 10 then Char.ofNat (48 + n) else Char.ofNat (87 + n)

def hex4 (n : Nat) : List Char :=
  [lowerHex (n / 4096 % 16), lowerHex (n / 256 % 16), lowerHex (n / 16 % 16), lowerHex (n % 16)]

/-- The letter after the backslash, where there is a short form. -/
def shortEscape (c : Char) : Option Char :=
  if c = '"' ∨ c = '\\' then some c
  else if c.toNat = 8 then some 'b'
  else if c.toNat = 12 then some 'f'
  else if c = '\n' then some 'n'
  else if c = '\r' then some 'r'
  else if c = '\t' then some 't'
  else none

/-- Control characters, what has a meaning in HTML, and the two line separators of JavaScript. -/
def needsUnit (c : Char) : Bool :=
  c.toNat < 32 || c = '<' || c = '>' || c = '&' || c.toNat = 0x2028 || c.toNat = 0x2029

def escape (c : Char) : List Char :=
  match shortEscape c with
  | some e => ['\\', e]
  | none => if needsUnit c then '\\' :: 'u' :: hex4 c.toNat else [c]

/-- `appendString`. -/
def quote (s : String) : List Char := '"' :: (s.toList.flatMap escape ++ ['"'])

/-- A value that is neither an array nor an object. -/
def scalar : Json → List Char
  | null => "null".toList
  | bool true => "true".toList
  | bool false => "false".toList
  | num literal => literal
  | str s => quote s
  | _ => []

def member (m : String × Json) : List Char :=
  '\n' :: ' ' :: ' ' :: (quote m.1 ++ ':' :: ' ' :: scalar m.2)

def indentMembers : List (String × Json) → List Char
  | [] => []
  | [m] => member m
  | m :: ms => member m ++ ',' :: indentMembers ms

/-- `MarshalIndent(_, "", "  ")` of a structure with at least one field. -/
def indent (ms : List (String × Json)) : List Char := '{' :: (indentMembers ms ++ ['\n', '}'])

def isSpace (c : Char) : Bool := c = ' ' || c = '\t' || c = '\r' || c = '\n'

def skipSpace (cs : List Char) : List Char := cs.dropWhile isSpace

def longEscape (e : Char) : Option Char :=
  if e = '"' ∨ e = '\\' ∨ e = '/' then some e
  else if e = 'b' then some (Char.ofNat 8)
  else if e = 'f' then some (Char.ofNat 12)
  else if e = 'n' then some '\n'
  else if e = 'r' then some '\r'
  else if e = 't' then some '\t'
  else none

def codeUnit (a b c d : Char) : Option Nat :=
  (hexValue a).bind fun w => (hexValue b).bind fun x => (hexValue c).bind fun y =>
    (hexValue d).map fun z => 4096 * w + 256 * x + 16 * y + z

/-- What stands before the closing quotation mark: characters, and the code units that are escaped. -/
def scanString : List Char → Option (List (Char ⊕ Nat) × List Char)
  | [] => none
  | c :: cs =>
    if c = '"' then some ([], cs)
    else if c = '\\' then
      match cs with
      | [] => none
      | e :: cs =>
        if e = 'u' then
          match cs with
          | w :: x :: y :: z :: cs =>
            (codeUnit w x y z).bind fun n => (scanString cs).map fun p => (.inr n :: p.1, p.2)
          | _ => none
        else (longEscape e).bind fun c => (scanString cs).map fun p => (.inl c :: p.1, p.2)
    else if c.toNat < 32 then none
    else (scanString cs).map fun p => (.inl c :: p.1, p.2)

def isSurrogate (n : Nat) : Bool := 0xD800 ≤ n && n < 0xE000

/-- The character of a code unit by itself. -/
def unitChar (n : Nat) : Char := Char.ofNat (if isSurrogate n then 0xFFFD else n)

/-- Two code units that are a surrogate pair are one character. -/
def runes : List (Char ⊕ Nat) → List Char
  | [] => []
  | .inl c :: us => c :: runes us
  | .inr n :: .inr m :: us =>
    if 0xD800 ≤ n ∧ n < 0xDC00 ∧ 0xDC00 ≤ m ∧ m < 0xE000 then
      Char.ofNat (0x10000 + 0x400 * (n - 0xD800) + (m - 0xDC00)) :: runes us
    else unitChar n :: runes (.inr m :: us)
  | .inr n :: us => unitChar n :: runes us

def parseString (cs : List Char) : Option (String × List Char) :=
  (scanString cs).map fun p => (String.ofList (runes p.1), p.2)

def intPart : List Char → Option (List Char × List Char)
  | [] => none
  | c :: cs =>
    if c = '0' then some ([c], cs)
    else if isDigit c then some (c :: cs.takeWhile isDigit, cs.dropWhile isDigit)
    else none

def fracPart : List Char → Option (List Char × List Char)
  | '.' :: cs =>
    if cs.takeWhile isDigit = [] then none
    else some ('.' :: cs.takeWhile isDigit, cs.dropWhile isDigit)
  | cs => some ([], cs)

def expSign : List Char → List Char × List Char
  | c :: cs => if c = '+' ∨ c = '-' then ([c], cs) else ([], c :: cs)
  | [] => ([], [])

def expPart : List Char → Option (List Char × List Char)
  | c :: cs =>
    if c = 'e' ∨ c = 'E' then
      if (expSign cs).2.takeWhile isDigit = [] then none
      else some (c :: (expSign cs).1 ++ (expSign cs).2.takeWhile isDigit,
        (expSign cs).2.dropWhile isDigit)
    else some ([], c :: cs)
  | [] => some ([], [])

def scanUnsigned (cs : List Char) : Option (List Char × List Char) :=
  (intPart cs).bind fun i => (fracPart i.2).bind fun f => (expPart f.2).map fun e =>
    (i.1 ++ f.1 ++ e.1, e.2)

def scanNumber : List Char → Option (List Char × List Char)
  | '-' :: cs => (scanUnsigned cs).map fun p => ('-' :: p.1, p.2)
  | cs => scanUnsigned cs

mutual

/-- Every value inside another takes up some of the text, so its length is enough. -/
def parseValue : Nat → List Char → Option (Json × List Char)
  | 0, _ => none
  | depth + 1, cs =>
    match skipSpace cs with
    | '"' :: cs => (parseString cs).map fun p => (.str p.1, p.2)
    | '{' :: cs =>
      match skipSpace cs with
      | '}' :: cs => some (.obj [], cs)
      | cs => (parseMembers depth cs).map fun p => (.obj p.1, p.2)
    | '[' :: cs =>
      match skipSpace cs with
      | ']' :: cs => some (.arr [], cs)
      | cs => (parseItems depth cs).map fun p => (.arr p.1, p.2)
    | 't' :: 'r' :: 'u' :: 'e' :: cs => some (.bool true, cs)
    | 'f' :: 'a' :: 'l' :: 's' :: 'e' :: cs => some (.bool false, cs)
    | 'n' :: 'u' :: 'l' :: 'l' :: cs => some (.null, cs)
    | cs => (scanNumber cs).map fun p => (.num p.1, p.2)

def parseMembers : Nat → List Char → Option (List (String × Json) × List Char)
  | 0, _ => none
  | depth + 1, cs =>
    match skipSpace cs with
    | '"' :: cs => (parseString cs).bind fun k =>
      match skipSpace k.2 with
      | ':' :: cs => (parseValue depth cs).bind fun v =>
        match skipSpace v.2 with
        | ',' :: cs => (parseMembers depth cs).map fun p => ((k.1, v.1) :: p.1, p.2)
        | '}' :: cs => some ([(k.1, v.1)], cs)
        | _ => none
      | _ => none
    | _ => none

def parseItems : Nat → List Char → Option (List Json × List Char)
  | 0, _ => none
  | depth + 1, cs => (parseValue depth cs).bind fun v =>
    match skipSpace v.2 with
    | ',' :: cs => (parseItems depth cs).map fun p => (v.1 :: p.1, p.2)
    | ']' :: cs => some ([v.1], cs)
    | _ => none

end

/-- The value that is the whole of a text. -/
def parse (cs : List Char) : Option Json :=
  (parseValue (2 * cs.length + 1) cs).bind fun p => if skipSpace p.2 = [] then some p.1 else none

theorem hexValue_lowerHex {n : Nat} (h : n < 16) : hexValue (lowerHex n) = some n := by
  revert n
  decide

theorem codeUnit_hex4 {n : Nat} (h : n < 65536) :
    codeUnit (lowerHex (n / 4096 % 16)) (lowerHex (n / 256 % 16)) (lowerHex (n / 16 % 16))
      (lowerHex (n % 16)) = some n := by
  have hdigit : ∀ m : Nat, hexValue (lowerHex (m % 16)) = some (m % 16) :=
    fun m => hexValue_lowerHex (Nat.mod_lt m (by decide))
  rw [codeUnit, hdigit, hdigit, hdigit, hdigit]
  have hsum : 4096 * (n / 4096 % 16) + 256 * (n / 256 % 16) + 16 * (n / 16 % 16) + n % 16 = n := by
    omega
  exact congrArg some hsum

/-- What a character of a string is read as. -/
def piece (c : Char) : Char ⊕ Nat :=
  if (shortEscape c).isNone ∧ needsUnit c = true then .inr c.toNat else .inl c

theorem longEscape_shortEscape {c e : Char} (h : shortEscape c = some e) : longEscape e = some c := by
  have hofNat : ∀ n, c.toNat = n → some (Char.ofNat n) = some c := by
    rintro n rfl
    rw [Char.ofNat_toNat]
  unfold shortEscape at h
  split_ifs at h with hself hb hf hn hr ht
  all_goals cases h
  · exact if_pos (hself.imp_right .inl)
  · exact hofNat 8 hb
  · exact hofNat 12 hf
  all_goals subst_vars
  all_goals rfl

theorem needsUnit_lt {c : Char} (h : needsUnit c = true) : c.toNat < 0xD800 := by
  simp only [needsUnit, Bool.or_eq_true, decide_eq_true_eq] at h
  rcases h with ((((h | rfl) | rfl) | rfl) | h) | h
  · omega
  · decide
  · decide
  · decide
  · omega
  · omega

theorem scanString_escape (c : Char) (cs : List Char) :
    scanString (escape c ++ cs) = (scanString cs).map fun p => (piece c :: p.1, p.2) := by
  cases hshort : shortEscape c with
  | some e =>
    -- the two-character escapes
    have hlong := longEscape_shortEscape hshort
    have hu : e ≠ 'u' := by
      rintro rfl
      exact nomatch hlong
    have hpiece : piece c = .inl c := if_neg fun h => by simp [hshort] at h
    simp only [escape, hshort, List.cons_append, List.nil_append]
    rw [scanString.eq_def]
    dsimp only
    rw [if_neg (by decide), if_pos rfl, if_neg hu, hlong, hpiece]
    rfl
  | none =>
    -- neither a quote nor a backslash, so written as a code unit or as it is
    have hne : ¬(c = '"' ∨ c = '\\') := by
      intro h
      rw [shortEscape, if_pos h] at hshort
      cases hshort
    rw [not_or] at hne
    cases hunit : needsUnit c with
    | true =>
      have hpiece : piece c = .inr c.toNat := if_pos ⟨by rw [hshort]; rfl, hunit⟩
      have hlt : c.toNat < 65536 := Nat.lt_trans (needsUnit_lt hunit) (by decide)
      simp only [escape, hshort, hunit, if_true, hex4, List.cons_append, List.nil_append]
      rw [scanString.eq_def]
      dsimp only
      rw [if_neg (by decide), if_pos rfl, if_pos rfl, codeUnit_hex4 hlt, hpiece]
      rfl
    | false =>
      have hpiece : piece c = .inl c := if_neg fun h => by simp [hunit] at h
      have hprint : ¬c.toNat < 32 := by
        intro h
        simp [needsUnit, h] at hunit
      simp only [escape, hshort, hunit, Bool.false_eq_true, if_false, List.cons_append, List.nil_append]
      rw [scanString.eq_def]
      dsimp only
      rw [if_neg hne.1, if_neg hne.2, if_neg hprint, hpiece]

theorem scanString_flatMap (s rest : List Char) :
    scanString (s.flatMap escape ++ '"' :: rest) = some (s.map piece, rest) := by
  induction s with
  | nil =>
    show scanString ('"' :: rest) = _
    rw [scanString.eq_def]
    exact if_pos rfl
  | cons c s ih =>
    rw [List.flatMap_cons, List.append_assoc, scanString_escape, ih]
    rfl

theorem runes_inr {n : Nat} (h : isSurrogate n = false) (us : List (Char ⊕ Nat)) :
    runes (.inr n :: us) = unitChar n :: runes us := by
  simp only [isSurrogate, Bool.and_eq_false_iff, decide_eq_false_iff_not] at h
  cases us with
  | nil => rfl
  | cons u us =>
    cases u with
    | inl c => rfl
    | inr m => exact if_neg (by omega)

theorem runes_map_piece (s : List Char) : runes (s.map piece) = s := by
  induction s with
  | nil => rfl
  | cons c s ih =>
    rw [List.map_cons, piece]
    split_ifs with h
    · have hlt := needsUnit_lt h.2
      have hnot : isSurrogate c.toNat = false := by
        simp only [isSurrogate, Bool.and_eq_false_iff, decide_eq_false_iff_not]
        omega
      have hchar : unitChar c.toNat = c := by
        rw [unitChar, hnot]
        exact Char.ofNat_toNat c
      rw [runes_inr hnot, hchar, ih]
    · rw [runes, ih]

theorem parseString_quote (s : String) (rest : List Char) :
    parseString (s.toList.flatMap escape ++ '"' :: rest) = some (s, rest) := by
  rw [parseString, scanString_flatMap, Option.map_some, runes_map_piece, String.ofList_toList]

def ofInt (n : Int) : Json := num (toString n).toList

theorem head_toDigits (n : Nat) (h : n ≠ 0) : (Nat.toDigits 10 n).head? ≠ some '0' := by
  induction n using Nat.strongRecOn with
  | _ n ih =>
    by_cases hn : n < 10
    · rw [Nat.toDigits_of_lt_base hn]
      intro hhead
      exact h (Nat.digitChar_eq_zero.mp (Option.some.inj hhead))
    · have hle : 10 ≤ n := Nat.le_of_not_lt hn
      rw [Nat.toDigits_of_base_le (by decide) hle, List.head?_append_of_ne_nil _ Nat.toDigits_ne_nil]
      exact ih (n / 10) (by omega) (by omega)

def IsEnd (c : Char) : Prop := c = ',' ∨ c = '\n'

section
variable {c : Char} (hc : IsEnd c) (rest : List Char)
include hc

theorem intPart_repr (n : Nat) : intPart (n.repr.toList ++ c :: rest) =
    some (n.repr.toList, c :: rest) := by
  have hnot : isDigit c ≠ true := by
    rcases hc with rfl | rfl <;> decide
  by_cases hn : n = 0
  · subst hn
    rfl
  · have hdigits : ∀ d ∈ n.repr.toList, isDigit d = true := fun d hd => isDigit_of_mem_repr hd
    have hhead := head_toDigits n hn
    rw [← Nat.toList_repr] at hhead
    cases htext : n.repr.toList with
    | nil => exact absurd (Nat.toList_repr.symm.trans htext) Nat.toDigits_ne_nil
    | cons d ds =>
      rw [htext] at hdigits hhead
      have hd : d ≠ '0' := fun h => hhead (congrArg some h)
      obtain ⟨hfirst, hds⟩ := List.forall_mem_cons.mp hdigits
      rw [List.cons_append, intPart, if_neg hd, if_pos hfirst, List.takeWhile_append_of_pos hds,
        List.dropWhile_append_of_pos hds, List.takeWhile_cons_of_neg hnot,
          List.dropWhile_cons_of_neg hnot,
        List.append_nil]

theorem scanUnsigned_repr (n : Nat) :
    scanUnsigned (n.repr.toList ++ c :: rest) = some (n.repr.toList, c :: rest) := by
  have hfrac : fracPart (c :: rest) = some ([], c :: rest) := by
    rcases hc with rfl | rfl <;> rfl
  have hexp : expPart (c :: rest) = some ([], c :: rest) := by
    rcases hc with rfl | rfl <;> rfl
  rw [scanUnsigned, intPart_repr hc, Option.bind_some, hfrac, Option.bind_some, hexp, Option.map_some,
    List.append_nil, List.append_nil]

theorem scanNumber_toString (n : Int) :
    scanNumber ((toString n).toList ++ c :: rest) = some ((toString n).toList, c :: rest) := by
  cases n with
  | ofNat n =>
    have hscan := scanUnsigned_repr hc rest n
    show scanNumber (n.repr.toList ++ c :: rest) = some (n.repr.toList, c :: rest)
    cases htext : n.repr.toList with
    | nil => exact absurd (Nat.toList_repr.symm.trans htext) Nat.toDigits_ne_nil
    | cons d ds =>
      have hd : isDigit d = true := isDigit_of_mem_repr (htext ▸ List.mem_cons_self)
      have hne : d ≠ '-' := by
        rintro rfl
        exact nomatch hd
      rw [htext] at hscan
      exact (scanNumber.eq_2 _ fun cs h => hne (List.cons.inj h).1).trans hscan
  | negSucc n =>
    have htext : (toString (Int.negSucc n)).toList = '-' :: (n + 1).repr.toList := by
      show ("-" ++ (n + 1).repr).toList = _
      rw [String.toList_append]
      rfl
    rw [htext, List.cons_append, scanNumber, scanUnsigned_repr hc]
    rfl

end

/-- The values of the fields of a structure. -/
inductive IsScalar : Json → Prop
  | null : IsScalar null
  | bool (b : Bool) : IsScalar (bool b)
  | int (n : Int) : IsScalar (ofInt n)
  | str (s : String) : IsScalar (str s)

theorem toString_head (n : Int) :
    ∃ d ds, (toString n).toList = d :: ds ∧ (d = '-' ∨ isDigit d = true) := by
  cases n with
  | ofNat n =>
    show ∃ d ds, n.repr.toList = d :: ds ∧ (d = '-' ∨ isDigit d = true)
    cases htext : n.repr.toList with
    | nil => exact absurd (Nat.toList_repr.symm.trans htext) Nat.toDigits_ne_nil
    | cons d ds => exact ⟨d, ds, rfl, .inr (isDigit_of_mem_repr (htext ▸ List.mem_cons_self))⟩
  | negSucc n =>
    refine ⟨'-', (n + 1).repr.toList, ?_, .inl rfl⟩
    show ("-" ++ (n + 1).repr).toList = _
    rw [String.toList_append]
    rfl

theorem skipSpace_cons {c : Char} (h : isSpace c = false) (cs : List Char) :
    skipSpace (c :: cs) = c :: cs :=
  List.dropWhile_cons_of_neg (Bool.not_eq_true _ ▸ h)

theorem parseValue_ofInt (n : Int) {c : Char} (hc : IsEnd c) (rest : List Char) (depth : Nat) :
    parseValue (depth + 1) (' ' :: ((toString n).toList ++ c :: rest)) = some (ofInt n, c :: rest) := by
  have hscan := scanNumber_toString hc rest n
  obtain ⟨d, ds, htext, hd⟩ := toString_head n
  have hothers : ['"', '{', '[', 't', 'f', 'n', ' ', '\t', '\r', '\n'].all
      (fun x => x != '-' && !isDigit x) = true := by decide
  have hne : ∀ x ∈ ['"', '{', '[', 't', 'f', 'n', ' ', '\t', '\r', '\n'], d ≠ x := by
    rintro x hx rfl
    have hx := List.all_eq_true.mp hothers d hx
    rcases hd with rfl | hd
    · exact nomatch hx
    · rw [hd, Bool.not_true, Bool.and_false] at hx
      cases hx
  have hspace : isSpace d = false := by
    simp only [isSpace, Bool.or_eq_false_iff, decide_eq_false_iff_not]
    exact ⟨⟨⟨hne _ (by decide), hne _ (by decide)⟩, hne _ (by decide)⟩, hne _ (by decide)⟩
  have hskip : skipSpace (' ' :: ((toString n).toList ++ c :: rest)) =
    (toString n).toList ++ c :: rest := by
    rw [htext]
    exact skipSpace_cons hspace _
  rw [parseValue, hskip]
  rw [htext, List.cons_append] at hscan ⊢
  split
  case h_7 =>
    rw [hscan, ofInt, htext]
    rfl
  all_goals
    rename_i heq
    exact absurd (List.cons.inj heq).1 (hne _ (by decide))

theorem parseValue_scalar {v : Json} (hv : IsScalar v) {c : Char} (hc : IsEnd c) (rest : List Char)
    (depth : Nat) : parseValue (depth + 1) (' ' :: (scalar v ++ c :: rest)) = some (v, c :: rest) := by
  cases hv with
  | null => rfl
  | bool b => cases b <;> rfl
  | int n => exact parseValue_ofInt n hc rest depth
  | str s =>
    have htext : scalar (.str s) ++ c :: rest =
      '"' :: (s.toList.flatMap escape ++ '"' :: c :: rest) := by
      simp [scalar, quote]
    rw [htext, parseValue]
    show (parseString (s.toList.flatMap escape ++ '"' :: c :: rest)).map _ = _
    rw [parseString_quote]
    rfl

theorem parseMembers_member {m : String × Json} (hm : IsScalar m.2) {c : Char} (hc : IsEnd c)
    (rest : List Char) (depth : Nat) :
    parseMembers (depth + 2) (member m ++ c :: rest) =
      match skipSpace (c :: rest) with
      | ',' :: cs => (parseMembers (depth + 1) cs).map fun p => (m :: p.1, p.2)
      | '}' :: cs => some ([m], cs)
      | _ => none := by
  have htext : member m ++ c :: rest = '\n' :: ' ' :: ' ' :: '"' ::
      (m.1.toList.flatMap escape ++ '"' :: ':' :: ' ' :: (scalar m.2 ++ c :: rest)) := by
    simp [member, quote]
  rw [htext, parseMembers]
  show (parseString _).bind _ = _
  rw [parseString_quote]
  show (parseValue (depth + 1) _).bind _ = _
  rw [parseValue_scalar hm hc]
  rfl

theorem parseMembers_indent {ms : List (String × Json)} (hne : ms ≠ []) (hms : ∀ m ∈ ms, IsScalar m.2)
    (rest : List Char) {depth : Nat} (hdepth : ms.length < depth) :
    parseMembers depth (indentMembers ms ++ '\n' :: '}' :: rest) = some (ms, rest) := by
  induction ms generalizing depth with
  | nil => exact absurd rfl hne
  | cons m ms ih =>
    obtain ⟨hm, hms⟩ := List.forall_mem_cons.mp hms
    rw [List.length_cons] at hdepth
    obtain ⟨depth, rfl⟩ : ∃ depth', depth = depth' + 2 := ⟨depth - 2, by omega⟩
    cases ms with
    | nil =>
      show parseMembers _ (member m ++ _) = _
      rw [parseMembers_member hm (.inr rfl)]
      rfl
    | cons m' ms =>
      have htext : indentMembers (m :: m' :: ms) ++ '\n' :: '}' :: rest =
          member m ++ ',' :: (indentMembers (m' :: ms) ++ '\n' :: '}' :: rest) := by
        show (member m ++ ',' :: indentMembers (m' :: ms)) ++ _ = _
        rw [List.append_assoc]
        rfl
      rw [htext, parseMembers_member hm (.inl rfl)]
      show (parseMembers (depth + 1) _).map _ = _
      rw [ih (List.cons_ne_nil _ _) hms (by omega)]
      rfl

theorem indentMembers_eq {ms : List (String × Json)} (hne : ms ≠ []) :
    ∃ cs, indentMembers ms = '\n' :: ' ' :: ' ' :: '"' :: cs := by
  match ms with
  | [m] => exact ⟨_, rfl⟩
  | m :: m' :: ms => exact ⟨_, rfl⟩

theorem length_indentMembers (ms : List (String × Json)) : ms.length ≤ (indentMembers ms).length := by
  match ms with
  | [] => exact Nat.le_refl 0
  | [m] => exact Nat.succ_le_succ (Nat.zero_le _)
  | m :: m' :: ms =>
    have hrest := length_indentMembers (m' :: ms)
    show _ ≤ (member m ++ ',' :: indentMembers (m' :: ms)).length
    simp only [List.length_append, List.length_cons] at hrest ⊢
    omega

theorem parse_indent {ms : List (String × Json)} (hne : ms ≠ []) (hms : ∀ m ∈ ms, IsScalar m.2) :
    parse (indent ms) = some (.obj ms) := by
  have hlen : (indent ms).length = (indentMembers ms).length + 3 := by
    rw [indent, List.length_cons, List.length_append]
    rfl
  have hms' := length_indentMembers ms
  obtain ⟨depth, hdepth⟩ : ∃ depth, 2 * (indent ms).length = depth + 1 :=
    ⟨2 * (indent ms).length - 1, by omega⟩
  have hmembers := parseMembers_indent hne hms [] (show ms.length < depth + 1 by omega)
  have hvalue : parseValue (depth + 2) (indent ms) = some (.obj ms, []) := by
    obtain ⟨cs, hcs⟩ := indentMembers_eq hne
    rw [hcs] at hmembers
    rw [indent, hcs, parseValue]
    show (parseMembers (depth + 1) ('"' :: (cs ++ ['\n', '}']))).map _ = _
    have hskip : parseMembers (depth + 1) ('"' :: (cs ++ ['\n', '}'])) = some (ms, []) := hmembers
    rw [hskip]
    rfl
  rw [parse, hdepth, hvalue]
  rfl

end Json
end LanWeave

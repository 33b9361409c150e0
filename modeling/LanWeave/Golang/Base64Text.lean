import LanWeave.Golang.Base64
import Mathlib.Tactic.IntervalCases

/-! The encoding side of `encoding/base64`: what is encoded decodes to itself, with and without
padding, and no proper beginning of an encoded text decodes to as many bytes. -/

namespace LanWeave

/-- The standard alphabet. -/
def base64Char (v : BitVec 6) : Char :=
  if v.toNat < 26 then Char.ofNat (v.toNat + 65)
  else if v.toNat < 52 then Char.ofNat (v.toNat + 71)
  else if v.toNat < 62 then Char.ofNat (v.toNat - 4)
  else if v.toNat = 62 then '+'
  else '/'

theorem base64_chars : ∀ n < 64, base64Value (base64Char (BitVec.ofNat 6 n)) = some (BitVec.ofNat 6 n) ∧
    base64Char (BitVec.ofNat 6 n) ≠ '=' ∧ base64Char (BitVec.ofNat 6 n) ≠ '$' ∧
    base64Char (BitVec.ofNat 6 n) ≠ '\r' ∧ base64Char (BitVec.ofNat 6 n) ≠ '\n' := by
  decide

theorem base64Value_char (v : BitVec 6) : base64Value (base64Char v) = some v := by
  have h := (base64_chars v.toNat v.isLt).1
  rwa [BitVec.ofNat_toNat, BitVec.setWidth_eq] at h

theorem base64Char_ne (v : BitVec 6) :
    base64Char v ≠ '=' ∧ base64Char v ≠ '$' ∧ base64Char v ≠ '\r' ∧ base64Char v ≠ '\n' := by
  have h := (base64_chars v.toNat v.isLt).2
  rwa [BitVec.ofNat_toNat, BitVec.setWidth_eq] at h

def sextets (x y z : BitVec 8) : BitVec 6 × BitVec 6 × BitVec 6 × BitVec 6 :=
  let bits := x ++ y ++ z
  (bits.extractLsb' 18 6, bits.extractLsb' 12 6, bits.extractLsb' 6 6, bits.extractLsb' 0 6)

theorem quantumBytes_sextets (x y z : BitVec 8) :
    quantumBytes (sextets x y z).1 (sextets x y z).2.1 (sextets x y z).2.2.1 (sextets x y z).2.2.2 =
      [x, y, z] := by
  have hbits : (sextets x y z).1 ++ (sextets x y z).2.1 ++ (sextets x y z).2.2.1 ++
    (sextets x y z).2.2.2 =
      x ++ y ++ z := by
    refine BitVec.eq_of_getLsbD_eq fun i hi => ?_
    simp only [sextets, BitVec.getLsbD_append, BitVec.getLsbD_extractLsb']
    interval_cases i <;> simp
  rw [quantumBytes]
  simp only [hbits, List.cons.injEq, and_true]
  refine ⟨?_, ?_, ?_⟩ <;>
  · refine BitVec.eq_of_getLsbD_eq fun i hi => ?_
    simp only [BitVec.getLsbD_append, BitVec.getLsbD_extractLsb']
    interval_cases i <;> simp

theorem sextets_missing (x y : BitVec 8) :
    (sextets x y 0).2.2.2 = 0 ∧ (sextets x 0 0).2.2.1 = 0 ∧ (sextets x 0 0).2.2.2 = 0 := by
  refine ⟨?_, ?_, ?_⟩ <;>
  · refine BitVec.eq_of_getLsbD_eq fun i hi => ?_
    simp only [sextets, BitVec.getLsbD_append, BitVec.getLsbD_extractLsb']
    interval_cases i <;> simp

/-- `StdEncoding.EncodeToString`. -/
def encodeQuanta : List (BitVec 8) → List Char
  | [] => []
  | [x] => [base64Char (sextets x 0 0).1, base64Char (sextets x 0 0).2.1, '=', '=']
  | [x, y] => [base64Char (sextets x y 0).1, base64Char (sextets x y 0).2.1,
      base64Char (sextets x y 0).2.2.1, '=']
  | x :: y :: z :: rest => base64Char (sextets x y z).1 :: base64Char (sextets x y z).2.1 ::
      base64Char (sextets x y z).2.2.1 :: base64Char (sextets x y z).2.2.2 :: encodeQuanta rest

def encodeToString (bytes : List (BitVec 8)) : String := String.ofList (encodeQuanta bytes)

theorem decodeQuanta_full {a b c d : Char} (hd : d ≠ '=') (rest : List Char) :
    decodeQuanta (a :: b :: c :: d :: rest) = (do
      let bytes := quantumBytes (← base64Value a) (← base64Value b) (← base64Value c) (← base64Value d)
      return bytes ++ (← decodeQuanta rest)) := by
  rw [decodeQuanta]
  · exact fun _ h => absurd h hd
  · exact fun h => absurd h hd

theorem decodeQuanta_encode (bytes : List (BitVec 8)) :
    decodeQuanta (encodeQuanta bytes) = some bytes := by
  induction bytes using encodeQuanta.induct with
  | case1 => rfl
  | case2 x =>
    obtain ⟨-, hc, hd⟩ := sextets_missing x 0
    have hbytes := quantumBytes_sextets x 0 0
    rw [hc, hd] at hbytes
    rw [encodeQuanta, decodeQuanta, base64Value_char, base64Value_char]
    exact congrArg (fun l => some (l.take 1)) hbytes
  | case3 x y =>
    have hbytes := quantumBytes_sextets x y 0
    rw [(sextets_missing x y).1] at hbytes
    rw [encodeQuanta, decodeQuanta]
    · rw [base64Value_char, base64Value_char, base64Value_char]
      exact congrArg (fun l => some (l.take 2)) hbytes
    · exact fun h => (base64Char_ne _).1 h
  | case4 x y z rest ih =>
    rw [encodeQuanta, decodeQuanta_full (base64Char_ne _).1, ih]
    simp [base64Value_char, quantumBytes_sextets]

theorem encodeQuanta_length (bytes : List (BitVec 8)) :
    (encodeQuanta bytes).length = 4 * ((bytes.length + 2) / 3) := by
  induction bytes using encodeQuanta.induct with
  | case4 x y z rest ih =>
    simp only [encodeQuanta, List.length_cons, ih]
    omega
  | _ => simp [encodeQuanta]

theorem mem_encodeQuanta {bytes : List (BitVec 8)} {c : Char} (h : c ∈ encodeQuanta bytes) :
    c = '=' ∨ ∃ v, c = base64Char v := by
  induction bytes using encodeQuanta.induct with
  | case1 => cases h
  | case2 x =>
    simp only [encodeQuanta, List.mem_cons, List.not_mem_nil, or_false] at h
    rcases h with rfl | rfl | rfl | rfl
    iterate 2 exact .inr ⟨_, rfl⟩
    iterate 2 exact .inl rfl
  | case3 x y =>
    simp only [encodeQuanta, List.mem_cons, List.not_mem_nil, or_false] at h
    rcases h with rfl | rfl | rfl | rfl
    iterate 3 exact .inr ⟨_, rfl⟩
    exact .inl rfl
  | case4 x y z rest ih =>
    simp only [encodeQuanta, List.mem_cons] at h
    rcases h with rfl | rfl | rfl | rfl | h
    iterate 4 exact .inr ⟨_, rfl⟩
    exact ih h

theorem ne_break_of_mem_encodeQuanta {bytes : List (BitVec 8)} {c : Char} (h : c ∈ encodeQuanta bytes) :
    c ≠ '\r' ∧ c ≠ '\n' := by
  rcases mem_encodeQuanta h with rfl | ⟨v, rfl⟩
  · exact ⟨by decide, by decide⟩
  · exact (base64Char_ne v).2.2

theorem decodeString_encode (bytes : List (BitVec 8)) :
    decodeString (encodeToString bytes) = some bytes := by
  have hline : (encodeQuanta bytes).filter (fun c => c ≠ '\r' ∧ c ≠ '\n') = encodeQuanta bytes := by
    refine List.filter_eq_self.mpr fun c hc => ?_
    simpa using ne_break_of_mem_encodeQuanta hc
  rw [decodeString, encodeToString, String.toList_ofList, hline, decodeQuanta_encode]

theorem decodeQuanta_length {cs : List Char} {bytes : List (BitVec 8)}
    (h : decodeQuanta cs = some bytes) :
    bytes.length ≤ 3 * (cs.length / 4) := by
  induction cs using decodeQuanta.induct generalizing bytes with
  | case1 =>
    cases h
    exact le_rfl
  | case2 a b =>
    rw [decodeQuanta] at h
    obtain ⟨va, -, vb, -, h⟩ := by simpa only [Option.bind_eq_bind, Option.bind_eq_some_iff] using h
    obtain rfl := Option.some.inj h
    simp [quantumBytes]
  | case3 a b c hc =>
    rw [decodeQuanta] at h
    · obtain ⟨va, -, vb, -, vc, -, h⟩ := by
        simpa only [Option.bind_eq_bind, Option.bind_eq_some_iff] using h
      obtain rfl := Option.some.inj h
      simp [quantumBytes]
    · exact hc
  | case4 a b c d rest hlast hpad ih =>
    rw [decodeQuanta] at h
    · obtain ⟨va, -, vb, -, vc, -, vd, -, tail, htail, h⟩ := by
        simpa only [Option.bind_eq_bind, Option.bind_eq_some_iff] using h
      obtain rfl := Option.some.inj h
      have := ih htail
      simp only [quantumBytes, List.length_append, List.length_cons, List.length_nil]
      omega
    · exact hlast
    · exact hpad
  | case5 cs h0 h2 h3 h4 =>
    rw [decodeQuanta] at h
    · cases h
    · exact h0
    · exact h2
    · exact h3
    · exact h4

/-- `Key.String`. -/
def WgKey.string (k : WgKey) : String := encodeToString k.bytes

theorem WgKey.string_toList_length (k : WgKey) : k.string.toList.length = 44 := by
  rw [string, encodeToString, String.toList_ofList, encodeQuanta_length, k.length]

theorem parseWgKey_string (k : WgKey) : parseWgKey k.string = some k := by
  rw [parseWgKey, WgKey.string, decodeString_encode]
  exact dif_pos k.length

theorem parseWgKey_short {s : String} (h : s.toList.length < 44) : parseWgKey s = none := by
  unfold parseWgKey
  cases hd : decodeString s with
  | none => rfl
  | some bytes =>
    have hkept : (s.toList.filter fun c => c ≠ '\r' ∧ c ≠ '\n').length ≤ s.toList.length :=
      List.length_filter_le ..
    have hbytes := decodeQuanta_length hd
    exact dif_neg (by omega)

/-- `RawStdEncoding.EncodeToString`. -/
def encodeRawQuanta : List (BitVec 8) → List Char
  | [] => []
  | [x] => [base64Char (sextets x 0 0).1, base64Char (sextets x 0 0).2.1]
  | [x, y] => [base64Char (sextets x y 0).1, base64Char (sextets x y 0).2.1,
      base64Char (sextets x y 0).2.2.1]
  | x :: y :: z :: rest => base64Char (sextets x y z).1 :: base64Char (sextets x y z).2.1 ::
      base64Char (sextets x y z).2.2.1 :: base64Char (sextets x y z).2.2.2 :: encodeRawQuanta rest

def encodeRawString (bytes : List (BitVec 8)) : String := String.ofList (encodeRawQuanta bytes)

/-- The last quantum may be short, but not of one character. -/
def decodeRawQuanta : List Char → Option (List (BitVec 8))
  | [] => some []
  | [a, b] => do return (quantumBytes (← base64Value a) (← base64Value b) 0 0).take 1
  | [a, b, c] => do
    return (quantumBytes (← base64Value a) (← base64Value b) (← base64Value c) 0).take 2
  | a :: b :: c :: d :: rest => do
    let bytes := quantumBytes (← base64Value a) (← base64Value b) (← base64Value c) (← base64Value d)
    return bytes ++ (← decodeRawQuanta rest)
  | _ => none

/-- `RawStdEncoding.DecodeString`. -/
def decodeRawString (s : String) : Option (List (BitVec 8)) :=
  decodeRawQuanta (s.toList.filter fun c => c ≠ '\r' ∧ c ≠ '\n')

theorem decodeRawQuanta_encode (bytes : List (BitVec 8)) :
    decodeRawQuanta (encodeRawQuanta bytes) = some bytes := by
  induction bytes using encodeRawQuanta.induct with
  | case1 => rfl
  | case2 x =>
    obtain ⟨-, hc, hd⟩ := sextets_missing x 0
    have hbytes := quantumBytes_sextets x 0 0
    rw [hc, hd] at hbytes
    rw [encodeRawQuanta, decodeRawQuanta, base64Value_char, base64Value_char]
    exact congrArg (fun l => some (l.take 1)) hbytes
  | case3 x y =>
    have hbytes := quantumBytes_sextets x y 0
    rw [(sextets_missing x y).1] at hbytes
    rw [encodeRawQuanta, decodeRawQuanta, base64Value_char, base64Value_char, base64Value_char]
    exact congrArg (fun l => some (l.take 2)) hbytes
  | case4 x y z rest ih =>
    rw [encodeRawQuanta, decodeRawQuanta, ih]
    simp [base64Value_char, quantumBytes_sextets]

theorem mem_encodeRawQuanta {bytes : List (BitVec 8)} {c : Char} (h : c ∈ encodeRawQuanta bytes) :
    ∃ v, c = base64Char v := by
  induction bytes using encodeRawQuanta.induct with
  | case1 => cases h
  | case2 x =>
    simp only [encodeRawQuanta, List.mem_cons, List.not_mem_nil, or_false] at h
    rcases h with rfl | rfl <;> exact ⟨_, rfl⟩
  | case3 x y =>
    simp only [encodeRawQuanta, List.mem_cons, List.not_mem_nil, or_false] at h
    rcases h with rfl | rfl | rfl <;> exact ⟨_, rfl⟩
  | case4 x y z rest ih =>
    simp only [encodeRawQuanta, List.mem_cons] at h
    rcases h with rfl | rfl | rfl | rfl | h
    iterate 4 exact ⟨_, rfl⟩
    exact ih h

theorem decodeRawString_encode (bytes : List (BitVec 8)) :
    decodeRawString (encodeRawString bytes) = some bytes := by
  have hline : (encodeRawQuanta bytes).filter (fun c => c ≠ '\r' ∧ c ≠ '\n') =
    encodeRawQuanta bytes := by
    refine List.filter_eq_self.mpr fun c hc => ?_
    obtain ⟨v, rfl⟩ := mem_encodeRawQuanta hc
    simpa using (base64Char_ne v).2.2
  rw [decodeRawString, encodeRawString, String.toList_ofList, hline, decodeRawQuanta_encode]

theorem dollar_notMem_encodeRawString (bytes : List (BitVec 8)) :
    '$' ∉ (encodeRawString bytes).toList := by
  rw [encodeRawString, String.toList_ofList]
  intro h
  obtain ⟨v, hv⟩ := mem_encodeRawQuanta h
  exact (base64Char_ne v).2.1 hv.symm

end LanWeave

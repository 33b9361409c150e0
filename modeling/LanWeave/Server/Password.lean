import LanWeave.Golang.Base64Text
import LanWeave.Golang.Strings

/-! Password hashes as PHC strings: what `HashPassword` writes, `VerifyPassword` reads back, also
under parameters other than today's. -/

namespace LanWeave

def scanLiteral : List Char → List Char → Option (List Char)
  | [], cs => some cs
  | _ :: _, [] => none
  | f :: fs, c :: cs => if f = c then scanLiteral fs cs else none

/-- Blanks are skipped, a newline is an error. -/
def skipSpace : List Char → Option (List Char)
  | [] => some []
  | c :: cs => if c = '\n' then none else if isSpace c then skipSpace cs else some (c :: cs)

def scanDigits (cs : List Char) : Option (Nat × List Char) :=
  (parseDigits (cs.takeWhile isDigit)).map fun n => (n, cs.dropWhile isDigit)

/-- `%d` into an unsigned integer of so many bits. -/
def scanUint (bits : Nat) (cs : List Char) : Option (Nat × List Char) := do
  let r ← scanDigits (← skipSpace cs)
  if r.1 < 2 ^ bits then some r else none

/-- `%d` into an int. -/
def scanInt (cs : List Char) : Option (Int × List Char) := do
  let r ← match ← skipSpace cs with
    | '-' :: cs => (scanDigits cs).map fun r => (-(r.1 : Int), r.2)
    | '+' :: cs => (scanDigits cs).map fun r => ((r.1 : Int), r.2)
    | cs => (scanDigits cs).map fun r => ((r.1 : Int), r.2)
  if inInt64 r.1 then some r else none

/-- `Sscanf(s, "v=%d", &version)`; what follows the number is not looked at. -/
def scanVersion (cs : List Char) : Option Int := do
  let r ← scanInt (← scanLiteral "v=".toList cs)
  return r.1

/-- `Sscanf(s, "m=%d,t=%d,p=%d", &memory, &iterations, &parallelism)`. -/
def scanParams (cs : List Char) : Option (Nat × Nat × Nat) := do
  let m ← scanUint 32 (← scanLiteral "m=".toList cs)
  let t ← scanUint 32 (← scanLiteral ",t=".toList m.2)
  let p ← scanUint 8 (← scanLiteral ",p=".toList t.2)
  return (m.1, t.1, p.1)

/-- `argon2.IDKey`: password, salt, iterations, memory, parallelism and the length of the key. -/
abbrev IDKey := String → List (BitVec 8) → Nat → Nat → Nat → Nat → List (BitVec 8)

def argonVersion : Nat := 19
def argonMemory : Nat := 19456
def argonIterations : Nat := 2
def argonParallelism : Nat := 1
def argonKeyLen : Nat := 32

/-- The format `HashPassword` prints. -/
def phcString (memory iterations parallelism : Nat) (salt key : List (BitVec 8)) : String :=
  "$argon2id$v=" ++ toString argonVersion ++ "$m=" ++ toString memory ++ ",t=" ++ toString iterations ++
    ",p=" ++ toString parallelism ++ "$" ++ encodeRawString salt ++ "$" ++ encodeRawString key

/-- `salt` is what crypto/rand yields, `none` where it fails. -/
def hashPassword (idKey : IDKey) (plain : String) (salt : Option (List (BitVec 8))) : Option String :=
  salt.map fun salt => phcString argonMemory argonIterations argonParallelism salt
    (idKey plain salt argonIterations argonMemory argonParallelism argonKeyLen)

inductive VerifyErr
  | format
  | version
  | unsupported
  | params
  | salt
  | hash
  /-- `IDKey` panics below one iteration or one thread. -/
  | panics
deriving DecidableEq

def verifyPassword (idKey : IDKey) (plain encoded : String) : Except VerifyErr Bool :=
  match encoded.toList.splitOn '$' with
  | [_, algorithm, version, params, salt, hash] =>
    if algorithm ≠ "argon2id".toList then .error .format
    else
      match scanVersion version with
      | none => .error .version
      | some v =>
        if v ≠ argonVersion then .error .unsupported
        else
          match scanParams params with
          | none => .error .params
          | some (memory, iterations, parallelism) =>
            match decodeRawString (String.ofList salt) with
            | none => .error .salt
            | some salt =>
              match decodeRawString (String.ofList hash) with
              | none => .error .hash
              | some want =>
                if iterations < 1 ∨ parallelism < 1 then .error .panics
                else .ok (idKey plain salt iterations memory parallelism want.length = want)
  | _ => .error .format

theorem scanLiteral_append (fs cs : List Char) : scanLiteral fs (fs ++ cs) = some cs := by
  induction fs with
  | nil => rfl
  | cons f fs ih => rw [List.cons_append, scanLiteral, if_pos rfl, ih]

theorem scan_repr (n : Nat) {rest : List Char} (h : ∀ c ∈ rest.head?, isDigit c = false) :
    scanDigits (n.repr.toList ++ rest) = some (n, rest) ∧
      skipSpace (n.repr.toList ++ rest) = some (n.repr.toList ++ rest) := by
  have hdigits : ∀ c ∈ n.repr.toList, isDigit c = true := fun c hc => isDigit_of_mem_repr hc
  have hparse := parseDigits_repr n
  generalize n.repr.toList = cs at hdigits hparse ⊢
  have hend : rest.takeWhile isDigit = [] ∧ rest.dropWhile isDigit = rest := by
    cases rest with
    | nil => exact ⟨rfl, rfl⟩
    | cons c rest =>
      have hc : ¬ isDigit c = true := by simp [h c rfl]
      exact ⟨List.takeWhile_cons_of_neg hc, List.dropWhile_cons_of_neg hc⟩
  constructor
  · rw [scanDigits, List.takeWhile_append_of_pos hdigits, List.dropWhile_append_of_pos hdigits, hend.1,
      hend.2, List.append_nil, hparse]
    rfl
  · cases cs with
    | nil => cases hparse
    | cons c cs =>
      obtain ⟨hline, hspace⟩ := isSpace_of_isDigit (hdigits c List.mem_cons_self)
      rw [List.cons_append, skipSpace, if_neg hline, hspace]
      rfl

theorem scanUint_repr {bits n : Nat} (hn : n < 2 ^ bits) {rest : List Char}
    (h : ∀ c ∈ rest.head?, isDigit c = false) :
    scanUint bits (n.repr.toList ++ rest) = some (n, rest) := by
  obtain ⟨hscan, hskip⟩ := scan_repr n h
  simp only [scanUint, hskip, hscan, Option.bind_eq_bind, Option.bind_some, if_pos hn]

theorem scanVersion_version :
    scanVersion ("v=".toList ++ argonVersion.repr.toList) = some (argonVersion : Int) := by
  decide

theorem scanParams_format {memory iterations parallelism : Nat} (hm : memory < 2 ^ 32)
    (ht : iterations < 2 ^ 32) (hp : parallelism < 2 ^ 8) :
    scanParams ("m=".toList ++ (memory.repr.toList ++ (",t=".toList ++ (iterations.repr.toList ++
      (",p=".toList ++ (parallelism.repr.toList ++ [])))))) =
        some (memory, iterations, parallelism) := by
  have hcomma : ∀ (l : String) cs, l.toList.head? = some ',' → ∀ c ∈ (l.toList ++ cs).head?,
      isDigit c = false := by
    intro l cs hl c hc
    rw [List.head?_append, hl] at hc
    obtain rfl := Option.some.inj hc
    decide
  have hend : ∀ c ∈ ([] : List Char).head?, isDigit c = false :=
    fun c hc => absurd hc (Option.not_mem_none c)
  simp only [scanParams, scanLiteral_append, Option.bind_eq_bind, Option.bind_some,
    scanUint_repr hm (hcomma ",t=" _ rfl), scanUint_repr ht (hcomma ",p=" _ rfl), scanUint_repr hp hend]
  rfl

/-- What a hash falls into at its dollar signs. -/
def phcParts (memory iterations parallelism : Nat) (salt key : List (BitVec 8)) : List (List Char) :=
  [[], "argon2id".toList, "v=".toList ++ argonVersion.repr.toList,
    "m=".toList ++ (memory.repr.toList ++ (",t=".toList ++ (iterations.repr.toList ++
      (",p=".toList ++ (parallelism.repr.toList ++ []))))),
    (encodeRawString salt).toList, (encodeRawString key).toList]

theorem phcString_toList (memory iterations parallelism : Nat) (salt key : List (BitVec 8)) :
    (phcString memory iterations parallelism salt key).toList =
      ['$'].intercalate (phcParts memory iterations parallelism salt key) := by
  have halgorithm : "$argon2id$v=".toList = '$' :: ("argon2id".toList ++ '$' :: "v=".toList) := by decide
  have hmemory : "$m=".toList = '$' :: "m=".toList := by decide
  have hdollar : "$".toList = ['$'] := by decide
  unfold phcString phcParts
  simp only [String.toList_append, halgorithm, hmemory, hdollar, Nat.toString_eq_repr, List.intercalate,
    List.intersperse, List.flatten_cons, List.flatten_nil, List.append_assoc, List.cons_append,
    List.nil_append, List.append_nil]

theorem phcString_splitOn (memory iterations parallelism : Nat) (salt key : List (BitVec 8)) :
    (phcString memory iterations parallelism salt key).toList.splitOn '$' =
      phcParts memory iterations parallelism salt key := by
  have hdigits : ∀ n : Nat, '$' ∉ n.repr.toList := by
    intro n h
    exact absurd (isDigit_of_mem_repr h) (by decide)
  rw [phcString_toList]
  apply List.splitOn_intercalate
  · intro l hl
    simp only [phcParts, List.mem_cons, List.not_mem_nil, or_false] at hl
    rcases hl with rfl | rfl | rfl | rfl | rfl | rfl
    · exact List.not_mem_nil
    · decide
    · decide
    · simp only [List.mem_append, not_or]
      exact ⟨by decide, hdigits _, by decide, hdigits _, by decide, hdigits _, List.not_mem_nil⟩
    · exact dollar_notMem_encodeRawString salt
    · exact dollar_notMem_encodeRawString key
  · exact List.cons_ne_nil _ _

theorem verifyPassword_phcString (idKey : IDKey) (plain : String) {memory iterations parallelism : Nat}
    (hm : memory < 2 ^ 32) (ht : 1 ≤ iterations ∧ iterations < 2 ^ 32)
    (hp : 1 ≤ parallelism ∧ parallelism < 2 ^ 8) (salt key : List (BitVec 8)) :
    verifyPassword idKey plain (phcString memory iterations parallelism salt key) =
      .ok (idKey plain salt iterations memory parallelism key.length = key) := by
  simp only [verifyPassword, phcString_splitOn, phcParts, scanVersion_version,
    scanParams_format hm ht.2 hp.2,
    String.ofList_toList, decodeRawString_encode]
  rw [if_neg (not_not.mpr rfl), if_neg (not_not.mpr rfl), if_neg (by omega)]

/-- A password verifies against its own hash, and another one exactly when argon2 gives both the same
key; the same holds of every hash written under other parameters. -/
theorem password_round_trip (idKey : IDKey)
    (hlen : ∀ plain salt iterations memory parallelism keyLen,
      (idKey plain salt iterations memory parallelism keyLen).length = keyLen)
    (plain : String) (salt : List (BitVec 8)) (keyLen : Nat) {memory iterations parallelism : Nat}
    (hm : memory < 2 ^ 32) (ht : 1 ≤ iterations ∧ iterations < 2 ^ 32)
    (hp : 1 ≤ parallelism ∧ parallelism < 2 ^ 8) :
    (∃ encoded, hashPassword idKey plain (some salt) = some encoded ∧
      verifyPassword idKey plain encoded = .ok true ∧
      ∀ other, verifyPassword idKey other encoded = .ok
        (idKey other salt argonIterations argonMemory argonParallelism argonKeyLen =
          idKey plain salt argonIterations argonMemory argonParallelism argonKeyLen)) ∧
    ∀ other, verifyPassword idKey other (phcString memory iterations parallelism salt
        (idKey plain salt iterations memory parallelism keyLen)) = .ok
      (idKey other salt iterations memory parallelism keyLen =
        idKey plain salt iterations memory parallelism keyLen) := by
  have hall : ∀ {m t p n : Nat}, m < 2 ^ 32 → 1 ≤ t ∧ t < 2 ^ 32 → 1 ≤ p ∧ p < 2 ^ 8 → ∀ other,
      verifyPassword idKey other (phcString m t p salt (idKey plain salt t m p n)) =
        .ok (idKey other salt t m p n = idKey plain salt t m p n) := by
    intro m t p n hm ht hp other
    rw [verifyPassword_phcString idKey other hm ht hp, hlen]
  have htoday := hall (m := argonMemory) (t := argonIterations) (p := argonParallelism)
    (n := argonKeyLen)
    (by decide) (by decide) (by decide)
  refine ⟨⟨_, rfl, ?_, htoday⟩, hall hm ht hp⟩
  rw [htoday, decide_eq_true rfl]

/-- In place of argon2: as many bytes as asked for, from the characters of the password. -/
def characterKey : IDKey := fun plain salt _ _ _ keyLen =>
  (plain.toList.map (fun c : Char => BitVec.ofNat 8 c.toNat) ++ salt ++ List.replicate keyLen 0).take keyLen

theorem characterKey_length (plain : String) (salt : List (BitVec 8))
    (iterations memory parallelism keyLen : Nat) :
    (characterKey plain salt iterations memory parallelism keyLen).length = keyLen := by
  simp only [characterKey, List.length_take, List.length_append, List.length_map, List.length_replicate]
  omega

theorem password_round_trip_characters :
    ∃ encoded, hashPassword characterKey "hunter2" (some (List.replicate 16 7)) = some encoded ∧
      verifyPassword characterKey "hunter2" encoded = .ok true := by
  obtain ⟨⟨encoded, hhash, hself, -⟩, -⟩ := password_round_trip characterKey
    characterKey_length "hunter2" (List.replicate 16 7) 32 (by decide : 8 < 2 ^ 32)
    (by decide : 1 ≤ 1 ∧ 1 < 2 ^ 32) (by decide : 1 ≤ 1 ∧ 1 < 2 ^ 8)
  exact ⟨encoded, hhash, hself⟩

end LanWeave

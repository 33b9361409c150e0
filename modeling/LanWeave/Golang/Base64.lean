import Mathlib.Data.List.Basic

/-! `encoding/base64` with the standard alphabet, as far as keys are decoded with it, and
`wgtypes.ParseKey` on top. -/

namespace LanWeave

def base64Value (c : Char) : Option (BitVec 6) :=
  if 'A' ≤ c ∧ c ≤ 'Z' then some (BitVec.ofNat 6 (c.toNat - 65))
  else if 'a' ≤ c ∧ c ≤ 'z' then some (BitVec.ofNat 6 (c.toNat - 71))
  else if '0' ≤ c ∧ c ≤ '9' then some (BitVec.ofNat 6 (c.toNat + 4))
  else if c = '+' then some 62
  else if c = '/' then some 63
  else none

/-- The bytes of the values of up to four characters; what does not fill a byte is dropped. -/
def quantumBytes (a b c d : BitVec 6) : List (BitVec 8) :=
  let bits := a ++ b ++ c ++ d
  [bits.extractLsb' 16 8, bits.extractLsb' 8 8, bits.extractLsb' 0 8]

/-- Four characters at a time; padding only in the last quantum. -/
def decodeQuanta : List Char → Option (List (BitVec 8))
  | [] => some []
  | [a, b, '=', '='] => do
    return (quantumBytes (← base64Value a) (← base64Value b) 0 0).take 1
  | [a, b, c, '='] => do
    return (quantumBytes (← base64Value a) (← base64Value b) (← base64Value c) 0).take 2
  | a :: b :: c :: d :: rest => do
    let bytes := quantumBytes (← base64Value a) (← base64Value b) (← base64Value c) (← base64Value d)
    return bytes ++ (← decodeQuanta rest)
  | _ => none

/-- `StdEncoding.DecodeString`, which skips line breaks. -/
def decodeString (s : String) : Option (List (BitVec 8)) :=
  decodeQuanta (s.toList.filter fun c => c ≠ '\r' ∧ c ≠ '\n')

/-- `wgtypes.Key`. -/
structure WgKey where
  bytes : List (BitVec 8)
  length : bytes.length = 32
deriving DecidableEq

def parseWgKey (s : String) : Option WgKey :=
  match decodeString s with
  | none => none
  | some bytes => if length : bytes.length = 32 then some ⟨bytes, length⟩ else none

/-- A line break anywhere in a key makes another string of the same key. -/
theorem parseWgKey_congr {s s' : String}
    (h : (s.toList.filter fun c => c ≠ '\r' ∧ c ≠ '\n') = s'.toList.filter fun c =>
      c ≠ '\r' ∧ c ≠ '\n') :
    parseWgKey s = parseWgKey s' := by
  have hbytes : decodeString s = decodeString s' := congrArg decodeQuanta h
  simp only [parseWgKey, hbytes]

end LanWeave

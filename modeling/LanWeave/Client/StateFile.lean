import LanWeave.Client.State
import LanWeave.Golang.Json

/-! The text of the state file. -/

namespace LanWeave
namespace Record

/-- The fields of the file, by their names in it. -/
inductive Field
  | schemaVersion
  | serverURL
  | nodeName
  | ip
  | serverPublicKey
  | endpoint
  | network
  | pinnedCertSHA256
  | firewallAllowVPN
  | nodeID
deriving DecidableEq

namespace Field

def all : List Field :=
  [schemaVersion, serverURL, nodeName, ip, serverPublicKey, endpoint, network, pinnedCertSHA256,
    firewallAllowVPN, nodeID]

def name : Field → String
  | schemaVersion => "schema_version"
  | serverURL => "server_url"
  | nodeName => "node_name"
  | ip => "ip"
  | serverPublicKey => "server_public_key"
  | endpoint => "endpoint"
  | network => "network"
  | pinnedCertSHA256 => "pinned_cert_sha256"
  | firewallAllowVPN => "firewall_allow_vpn"
  | nodeID => "node_id"

/-- `foldRune`, as far as it matters for these names: the long s and the Kelvin sign are letters of
the alphabet. -/
def foldRune (c : Char) : Char :=
  if c.toNat = 0x17F then 's' else if c.toNat = 0x212A then 'k' else c.toLower

def named (key : String) : Option Field := all.find? fun f => key.toList.map foldRune = f.name.toList

theorem named_name (f : Field) : named f.name = some f := by
  cases f <;> decide

end Field

def omitEmpty (absent : Bool) (f : Field) (v : Json) : List (String × Json) :=
  if absent then [] else [(f.name, v)]

def members (r : Record) : List (String × Json) :=
  [(Field.schemaVersion.name, .ofInt r.schemaVersion), (Field.serverURL.name, .str r.serverURL),
    (Field.nodeName.name, .str r.nodeName), (Field.ip.name, .str r.ip),
    (Field.serverPublicKey.name, .str r.serverPublicKey), (Field.endpoint.name, .str r.endpoint),
    (Field.network.name, .str r.network)] ++
    omitEmpty (r.pinnedCertSHA256 = "") .pinnedCertSHA256 (.str r.pinnedCertSHA256) ++
    omitEmpty (!r.firewallAllowVPN) .firewallAllowVPN (.bool r.firewallAllowVPN) ++
    omitEmpty (r.nodeID = 0) .nodeID (.ofInt r.nodeID)

/-- A string, or `null`, which leaves the field as it is. -/
def setString (v : Json) (old : String) : Option String :=
  match v with
  | .null => some old
  | .str s => some s
  | _ => none

/-- `strconv.ParseInt`; the record's integers have no bounds here. -/
def parseInt : List Char → Option Int
  | '-' :: cs => (parseDigits cs).map fun n => -(n : Int)
  | cs => (parseDigits cs).map fun n => (n : Int)

def setInt (v : Json) (old : Int) : Option Int :=
  match v with
  | .null => some old
  | .num literal => parseInt literal
  | _ => none

def setBool (v : Json) (old : Bool) : Option Bool :=
  match v with
  | .null => some old
  | .bool b => some b
  | _ => none

def setField (r : Record) (v : Json) : Field → Option Record
  | .schemaVersion => (setInt v r.schemaVersion).map fun n => { r with schemaVersion := n }
  | .serverURL => (setString v r.serverURL).map fun s => { r with serverURL := s }
  | .nodeName => (setString v r.nodeName).map fun s => { r with nodeName := s }
  | .ip => (setString v r.ip).map fun s => { r with ip := s }
  | .serverPublicKey => (setString v r.serverPublicKey).map fun s => { r with serverPublicKey := s }
  | .endpoint => (setString v r.endpoint).map fun s => { r with endpoint := s }
  | .network => (setString v r.network).map fun s => { r with network := s }
  | .pinnedCertSHA256 => (setString v r.pinnedCertSHA256).map fun s => { r with pinnedCertSHA256 := s }
  | .firewallAllowVPN => (setBool v r.firewallAllowVPN).map fun b => { r with firewallAllowVPN := b }
  | .nodeID => (setInt v r.nodeID).map fun n => { r with nodeID := n }

/-- One member of the object; an unknown one is skipped. -/
def setMember (r : Record) (m : String × Json) : Option Record :=
  match Field.named m.1 with
  | some f => r.setField m.2 f
  | none => some r

/-- `Unmarshal` into an empty record. -/
def ofJson : Json → Option Record
  | .obj ms => ms.foldlM setMember empty
  | .null => some empty
  | _ => none

def text (r : Record) : List UInt8 := utf8 (String.ofList (Json.indent r.members))

def ofText (bytes : List UInt8) : Option Record :=
  (ofUtf8 bytes).bind fun s => (Json.parse s.toList).bind ofJson

theorem parseInt_toString (n : Int) : parseInt (toString n).toList = some n := by
  cases n with
  | ofNat n =>
    show parseInt n.repr.toList = _
    have hdigits : ∀ c ∈ n.repr.toList, isDigit c = true := fun c hc => isDigit_of_mem_repr hc
    have hparse := parseDigits_repr n
    generalize n.repr.toList = cs at hdigits hparse
    unfold parseInt
    split
    · exact absurd (hdigits '-' List.mem_cons_self) (by decide)
    · rw [hparse]
      rfl
  | negSucc n =>
    have htext : (toString (Int.negSucc n)).toList = '-' :: (n + 1).repr.toList := by
      show ("-" ++ (n + 1).repr).toList = _
      rw [String.toList_append]
      rfl
    rw [htext, parseInt, parseDigits_repr]
    rfl

theorem isScalar_of_mem_members (r : Record) : ∀ m ∈ r.members, m.2.IsScalar := by
  have homit : ∀ absent f v, v.IsScalar → ∀ m ∈ omitEmpty absent f v, m.2.IsScalar := by
    rintro (_ | _) f v hv m hm
    · cases List.mem_singleton.mp hm
      exact hv
    · cases hm
  rw [members, List.forall_mem_append, List.forall_mem_append, List.forall_mem_append]
  refine ⟨⟨⟨?_, homit _ _ _ (.str _)⟩, homit _ _ _ (.bool _)⟩, homit _ _ _ (.int _)⟩
  simp only [List.forall_mem_cons]
  exact ⟨.int _, .str _, .str _, .str _, .str _, .str _, .str _, fun _ h => nomatch h⟩

theorem setMember_name (r : Record) (f : Field) (v : Json) :
    r.setMember (f.name, v) = r.setField v f := by
  simp only [setMember, Field.named_name]

theorem setInt_ofInt (n old : Int) : setInt (.ofInt n) old = some n := parseInt_toString n

theorem foldlM_omitEmpty (r : Record) (absent : Bool) (f : Field) (v : Json) :
    (omitEmpty absent f v).foldlM setMember r = if absent then some r else r.setField v f := by
  cases absent with
  | true => rfl
  | false =>
    show (r.setMember (f.name, v)).bind some = r.setField v f
    rw [setMember_name, Option.bind_fun_some]

theorem ofJson_members (r : Record) : ofJson (.obj r.members) = some r := by
  rw [ofJson, members, List.foldlM_append, List.foldlM_append, List.foldlM_append]
  have hrequired : List.foldlM setMember empty
      [(Field.schemaVersion.name, .ofInt r.schemaVersion), (Field.serverURL.name, .str r.serverURL),
        (Field.nodeName.name, .str r.nodeName), (Field.ip.name, .str r.ip),
        (Field.serverPublicKey.name, .str r.serverPublicKey), (Field.endpoint.name, .str r.endpoint),
        (Field.network.name, .str r.network)] =
          some { r with pinnedCertSHA256 := "", firewallAllowVPN := false, nodeID := 0 } := by
    simp only [List.foldlM_cons, setMember_name, setField, setInt_ofInt]
    rfl
  rw [hrequired]
  show ((List.foldlM setMember _ _).bind _).bind _ = _
  rw [foldlM_omitEmpty]
  have hpin : (if decide (r.pinnedCertSHA256 = "") = true then
        some { r with pinnedCertSHA256 := "", firewallAllowVPN := false, nodeID := 0 }
      else setField { r with pinnedCertSHA256 := "", firewallAllowVPN := false, nodeID := 0 }
        (.str r.pinnedCertSHA256) .pinnedCertSHA256) =
      some { r with firewallAllowVPN := false, nodeID := 0 } := by
    split
    · rename_i h
      rw [← of_decide_eq_true h]
    · rfl
  rw [hpin, Option.bind_some, foldlM_omitEmpty]
  have hallow : (if (!r.firewallAllowVPN) = true then some
    { r with firewallAllowVPN := false, nodeID := 0 }
      else setField { r with firewallAllowVPN := false, nodeID := 0 } (.bool r.firewallAllowVPN)
        .firewallAllowVPN) = some { r with nodeID := 0 } := by
    cases hon : r.firewallAllowVPN with
    | true => simp [setField, setBool]
    | false => simp
  rw [hallow, Option.bind_some, foldlM_omitEmpty]
  split
  · rename_i h
    rw [← of_decide_eq_true h]
  · exact congrArg (Option.map _) (setInt_ofInt r.nodeID 0)

theorem ofText_text (r : Record) : ofText r.text = some r := by
  have hparse : Json.parse (Json.indent r.members) = some (.obj r.members) :=
    Json.parse_indent (List.cons_ne_nil _ _) (isScalar_of_mem_members r)
  rw [ofText, text, ofUtf8_utf8, Option.bind_some, String.toList_ofList, hparse, Option.bind_some,
    ofJson_members]

def save (r : Record) : List UInt8 := r.saved.text

def load (bytes : List UInt8) : Option Record := (ofText bytes).filter complete

/-- What `Save` writes, `Load` reads, if no step of the setup is missing. -/
theorem load_save (r : Record) : load r.save = if r.saved.complete then some r.saved else none := by
  rw [load, save, ofText_text]
  exact Option.filter_some

end Record
end LanWeave

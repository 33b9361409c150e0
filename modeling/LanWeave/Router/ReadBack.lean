import LanWeave.Golang.NetipText
import LanWeave.Router.Natctl

/-! The rules read back from the live table: each DNAT rule carries its mapping in the user data. -/

namespace LanWeave
open Library Nftables

namespace Natctl

namespace Rule

/-- The mapping as text. The expressions of a rule with an IPv6 prefix panic before it is written. -/
def userData (r : Rule) : String :=
  "lw " ++ formatPrefix4 (addrToUint32 r.synthetic.addr) r.synthetic.bits ++ ">" ++
    formatPrefix4 (addrToUint32 r.real.addr) r.real.bits

structure IsIPv4 (r : Rule) : Prop where
  synthetic4 : r.synthetic.addr.is4 = true
  real4 : r.real.addr.is4 = true
  synthetic : r.synthetic.Valid
  real : r.real.Valid

end Rule

def ruleFromUserData (b : String) : Option Rule :=
  (cutPrefix b "lw ").bind fun s =>
    (cut s '>').bind fun texts =>
      (parsePrefix4 texts.1).bind fun sp => (parsePrefix4 texts.2).map fun rp => ⟨sp, rp⟩

/-- A rule as the kernel keeps it; the user data is opaque to it. -/
structure KernelRule where
  exprs : List Expr
  userData : String

structure Chain where
  table : String
  name : String
  rules : List KernelRule

/-- The chains of the tables of the inet family. -/
abbrev Chains := List Chain

def deleteTable (chains : Chains) (table : String) : Chains := chains.filter fun c => c.table ≠ table

/-- The flush of `Rebuild`: the table anew, with one DNAT and one masquerade rule per entry. -/
def flush (chains : Chains) (table : String) (vpnPool : Prefix) (rules : List Rule) : Chains :=
  deleteTable chains table ++
    [⟨table, "prerouting", rules.map fun r => ⟨dnatPrefixExprs r, r.userData⟩⟩,
     ⟨table, "postrouting", rules.map fun r => ⟨masqueradeExprs vpnPool r.real, ""⟩⟩]

/-- A listing that fails finds nothing. -/
def findTableChain (chains : Chains) (table chain : String) (fails : Bool) : Option Chain :=
  if fails then none else chains.find? fun c => c.table = table && c.name = chain

/-- `Current`; a missing table reads as empty. -/
def current (chains : Chains) (table : String) (listFails readFails : Bool) : Except Err (List Rule) :=
  match findTableChain chains table "prerouting" listFails with
  | none => .ok []
  | some c =>
    if readFails then .error .kernel
    else .ok (c.rules.filterMap fun r => ruleFromUserData r.userData)

/-- The expressions of a table's two chains. -/
def tableOf (chains : Chains) (table : String) : Option Table :=
  (findTableChain chains table "prerouting" false).bind fun pre =>
    (findTableChain chains table "postrouting" false).map fun post =>
      ⟨pre.rules.map (·.exprs), post.rules.map (·.exprs)⟩

end Natctl

def sameRules (a b : List Natctl.Rule) : Bool := a.length = b.length && b.all fun r => decide (r ∈ a)

namespace Natctl

theorem formatPrefix4_isIPv4 {p : Prefix} (h4 : p.addr.is4 = true) (hv : p.Valid) :
    parsePrefix4 (formatPrefix4 (addrToUint32 p.addr) p.bits) = some p := by
  obtain ⟨a | a, n⟩ := p
  · exact parsePrefix4_format a hv
  · exact absurd h4 Bool.false_ne_true

theorem ruleFromUserData_userData {r : Rule} (h : r.IsIPv4) : ruleFromUserData r.userData = some r := by
  have hno : '>' ∉ (formatPrefix4 (addrToUint32 r.synthetic.addr) r.synthetic.bits).toList := by
    intro hmem
    rcases mem_formatPrefix4 hmem with hdigit | hdot | hslash
    · exact absurd hdigit (by decide)
    · exact absurd hdot (by decide)
    · exact absurd hslash (by decide)
  have htext : r.userData = "lw " ++ (formatPrefix4 (addrToUint32 r.synthetic.addr) r.synthetic.bits ++
      String.singleton '>' ++ formatPrefix4 (addrToUint32 r.real.addr) r.real.bits) := by
    rw [Rule.userData, String.append_assoc, String.append_assoc, String.append_assoc]
    rfl
  rw [ruleFromUserData, htext, cutPrefix_append, Option.bind_some, cut_append _ hno, Option.bind_some,
    formatPrefix4_isIPv4 h.synthetic4 h.synthetic, formatPrefix4_isIPv4 h.real4 h.real]
  rfl

section
variable {chains : Chains} {table : String} {vpnPool : Prefix} {rules : List Rule}

theorem findTableChain_flush (name : String) :
    findTableChain (flush chains table vpnPool rules) table name false =
      List.find? (fun c => c.table = table && c.name = name)
        [⟨table, "prerouting", rules.map fun r => ⟨dnatPrefixExprs r, r.userData⟩⟩,
         ⟨table, "postrouting", rules.map fun r => ⟨masqueradeExprs vpnPool r.real, ""⟩⟩] := by
  have hnone : (deleteTable chains table).find? (fun c => c.table = table && c.name = name) = none := by
    rw [List.find?_eq_none]
    intro c hc hmatch
    have hother := (List.mem_filter.mp hc).2
    simp only [Bool.and_eq_true, decide_eq_true_eq] at hmatch hother
    exact hother hmatch.1
  rw [findTableChain, if_neg Bool.false_ne_true, flush, List.find?_append, hnone, Option.none_or]

theorem tableOf_flush : tableOf (flush chains table vpnPool rules) table =
    some (build vpnPool rules) := by
  rw [tableOf, findTableChain_flush, findTableChain_flush]
  simp [build, Function.comp_def]

theorem current_flush (h : ∀ r ∈ rules, r.IsIPv4) :
    current (flush chains table vpnPool rules) table false false = .ok rules := by
  have hread : ∀ rules : List Rule, (∀ r ∈ rules, r.IsIPv4) →
      rules.filterMap (fun r => ruleFromUserData r.userData) = rules := by
    intro rules h
    induction rules with
    | nil => rfl
    | cons r rules ih =>
      have hrest := ih fun r' hr' => h r' (List.mem_cons_of_mem _ hr')
      rw [List.filterMap_cons, ruleFromUserData_userData (h r List.mem_cons_self), hrest]
  rw [current, findTableChain_flush]
  simp [List.filterMap_map, hread rules h]

end

/-- The lists compare as sets, but for a rule that is installed twice. -/
theorem sameRules_iff {installed desired : List Rule} (hnodup : desired.Nodup) :
    sameRules installed desired = true ↔ installed.Nodup ∧ ∀ r, r ∈ installed ↔ r ∈ desired := by
  rw [sameRules, Bool.and_eq_true, decide_eq_true_eq, List.all_eq_true]
  constructor
  · intro h
    obtain ⟨hlen, hsub⟩ := h
    have hperm : desired.Subperm installed := hnodup.subperm fun r hr => of_decide_eq_true (hsub r hr)
    have hperm := hperm.perm_of_length_le hlen.le
    exact ⟨hperm.nodup_iff.mp hnodup, fun r => hperm.mem_iff.symm⟩
  · intro h
    obtain ⟨hinstalled, hsame⟩ := h
    have hperm : installed.Perm desired := (List.perm_ext_iff_of_nodup hinstalled hnodup).mpr hsame
    exact ⟨hperm.length_eq, fun r hr => decide_eq_true ((hsame r).mpr hr)⟩

/-- What has been built is read back, in order, and compares with what is desired by its rules. -/
theorem current_rebuilt (chains : Chains) (table : String) (vpnPool : Prefix) {rules desired : List Rule}
    (h : ∀ r ∈ rules, r.IsIPv4) (hnodup : desired.Nodup) :
    (∀ r ∈ rules, ruleFromUserData r.userData = some r) ∧
    current (flush chains table vpnPool rules) table false false = .ok rules ∧
    ∀ installed, current (flush chains table vpnPool rules) table false false = .ok installed →
      (sameRules installed desired = true ↔ rules.Nodup ∧ ∀ r, r ∈ rules ↔ r ∈ desired) := by
  refine ⟨fun r hr => ruleFromUserData_userData (h r hr), current_flush h, ?_⟩
  intro installed hread
  rw [current_flush h] at hread
  cases hread
  exact sameRules_iff hnodup

def routerRule : Rule := ⟨⟨.v4 0x64400000, 24⟩, ⟨.v4 0xC0A80700, 24⟩⟩

def guestRule : Rule := ⟨⟨.v4 0x64400100, 24⟩, ⟨.v4 0xC0A80800, 24⟩⟩

theorem routerRule_isIPv4 : routerRule.IsIPv4 := by
  have hlen : 24 ≤ 32 := by decide
  exact ⟨rfl, rfl, hlen, hlen⟩

theorem guestRule_isIPv4 : guestRule.IsIPv4 := by
  have hlen : 24 ≤ 32 := by decide
  exact ⟨rfl, rfl, hlen, hlen⟩

/-- A family with a table of somebody else's, and ours with one rule. -/
def labChains : Chains :=
  flush (flush [] "fw4" ⟨.v4 0x0A000000, 24⟩ [guestRule]) "lanweave_rt" ⟨.v4 0x0A000000, 24⟩ [routerRule]

/-- Two rules, desired in the other order. -/
theorem current_rebuilt_two :
    current (flush labChains "lanweave_rt" ⟨.v4 0x0A000000, 24⟩
      [routerRule, guestRule]) "lanweave_rt" false
        false = .ok [routerRule, guestRule] ∧
      sameRules [routerRule, guestRule] [guestRule, routerRule] = true := by
  have hrules : ∀ r ∈ [routerRule, guestRule], r.IsIPv4 :=
    List.forall_mem_cons.mpr ⟨routerRule_isIPv4, List.forall_mem_singleton.mpr guestRule_isIPv4⟩
  have hdesired : [guestRule, routerRule].Nodup := by decide
  obtain ⟨-, hread, hcompare⟩ :=
    current_rebuilt labChains "lanweave_rt" ⟨.v4 0x0A000000, 24⟩ hrules hdesired
  refine ⟨hread, (hcompare _ hread).mpr ⟨by decide, fun r => ?_⟩⟩
  rw [List.mem_pair, List.mem_pair]
  exact or_comm

/-- A rule installed twice is the desired one as a set. -/
theorem installed_twice :
    current (flush [] "lanweave_rt" ⟨.v4 0x0A000000, 24⟩
      [routerRule, routerRule]) "lanweave_rt" false false =
        .ok [routerRule, routerRule] ∧
      [routerRule].Nodup ∧ (∀ r, r ∈ [routerRule, routerRule] ↔ r ∈ [routerRule]) ∧
      sameRules [routerRule, routerRule] [routerRule] = false := by
  refine ⟨current_flush ?_, List.nodup_singleton _, ?_, by decide⟩
  · intro r hr
    simp only [List.mem_cons, List.not_mem_nil, or_false, or_self] at hr
    exact hr ▸ routerRule_isIPv4
  · intro r
    simp

end Natctl
end LanWeave

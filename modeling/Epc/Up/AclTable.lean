import Epc.Up.AclRule
import Epc.Up.Rules
import Epc.Up.Sdf

/-! The tables of SDF rules on the user plane and the ACL contexts that are built from them
(`dp/up_acl.c`). `get_acl_table_indx` gives every rule and precedence a table of its own. -/

namespace Epc.Up

open Epc.Lib.Inet Epc.Lib.Text

/-- `struct rte_acl_field`: what is stored in the unions, zero above the part written. -/
structure AclField where
  value : UInt32 := 0
  maskRange : UInt32 := 0
  deriving DecidableEq, Repr

/-- `struct acl4_rule` with five fields or `struct acl6_rule` with nine. -/
structure AclRule where
  categoryMask : UInt32
  priority : UInt8
  userdata : UInt32
  fields : List AclField
  deriving DecidableEq, Repr

def Ipv4Rule.fields (r : Ipv4Rule) : List AclField :=
  [⟨r.proto.toUInt32, r.protoMask.toUInt32⟩, ⟨r.src, r.srcMaskLen⟩, ⟨r.dst, r.dstMaskLen⟩,
    ⟨r.srcPortLow.toUInt32, r.srcPortHigh.toUInt32⟩, ⟨r.dstPortLow.toUInt32, r.dstPortHigh.toUInt32⟩]

inductive RuleIpType where
  | ipv6
  | ipv4
  deriving DecidableEq, Repr

/-- The parts of `struct sdf_pkt_filter` that are read. -/
structure SdfPktFilter where
  precedence : UInt32
  ruleIpType : RuleIpType
  ruleStr : List Char
  deriving DecidableEq, Repr

section

/-- The prefix length `m` of an IPv6 address, on its four words. -/
def ipv6MaskRange (m i : Nat) : UInt32 :=
  if (i + 1) * 32 ≤ m then 32 else if i * 32 < m then UInt32.ofNat (m - i * 32) else 0

def ipv6Word (octets : List UInt8) (i : Nat) : UInt32 :=
  ipv4 (octets.getD (4 * i) 0).toNat (octets.getD (4 * i + 1) 0).toNat
    (octets.getD (4 * i + 2) 0).toNat (octets.getD (4 * i + 3) 0).toNat

variable (freed : List Char → List Char)

/-- `parse_ipv6_net`. The prefix length is read from a freed buffer, in which `freed` stands. -/
def parseIpv6Net (s : List Char) : Except Fault (List AclField) :=
  match strtok (· == '/') s with
  | none => .error .undefined
  | some (address, mask) =>
    match inetPton6 address, getCbField (freed mask) 128 none with
    | some octets, some (m, _) =>
      .ok ((List.range 4).map fun i => ⟨ipv6Word octets i, ipv6MaskRange m i⟩)
    | _, _ => .error .rejected

/-- `parse_cb_ipv6_rule` without user data. -/
def parseCbIpv6Rule (str : List Char) : Except Fault (List AclField) :=
  match cbFields 3 str with
  | some [srcAddr, dstAddr, proto] => do
      let src ← parseIpv6Net freed srcAddr
      let dst ← parseIpv6Net freed dstAddr
      match getCbField proto 255 (some '/') with
      | none => .error .rejected
      | some (value, rest) =>
        match getCbField rest 255 none with
        | none => .error .rejected
        | some (mask, _) => .ok (⟨UInt32.ofNat value, UInt32.ofNat mask⟩ :: (src ++ dst))
  | _ => .error .rejected

/-- The fields that the rule string of a filter is parsed into. -/
def SdfPktFilter.fields (filter : SdfPktFilter) : Except Fault (List AclField) :=
  match filter.ruleIpType with
  | .ipv4 =>
    match parseCbIpv4vlanRule filter.ruleStr with
    | none => .error .rejected
    | some r => .ok r.fields
  | .ipv6 => parseCbIpv6Rule freed filter.ruleStr

def SdfPktFilter.rule (filter : SdfPktFilter) : Except Fault AclRule :=
  (filter.fields freed).map fun fields =>
    { categoryMask := -1
      priority := 255 - filter.precedence.toUInt8
      userdata := filter.precedence
      fields }

end

section

/-- Comparisons of fields up to the first that fails; none if a field is not there. -/
def agree (key node : AclRule) : List (Nat × (AclField → UInt32)) → Option Bool
  | [] => some true
  | (i, read) :: rest =>
    match key.fields[i]?, node.fields[i]? with
    | some a, some b => if read a = read b then agree key node rest else some false
    | _, _ => none

def low8 (word : UInt32) : UInt32 := word.toUInt8.toUInt32

def low16 (word : UInt32) : UInt32 := word.toUInt16.toUInt32

/-- `acl_rule_compare` is zero. -/
def aclRuleCompare (key node : AclRule) : Option Bool :=
  if key.userdata = node.userdata then
    agree key node [(1, (·.value)), (1, (·.maskRange)), (3, (low16 ·.value)), (3, (low16 ·.maskRange)),
      (2, (·.value)), (2, (·.maskRange)), (4, (low16 ·.value)), (4, (low16 ·.maskRange)),
      (0, (low8 ·.value)), (0, (low8 ·.maskRange))]
  else some false

/-- The prefix length that is spread over four fields. -/
def AclRule.maskSum (r : AclRule) (first : Nat) : UInt32 :=
  (((r.fields.drop first).take 4).map (·.maskRange)).sum

/-- `acl_ipv6_rule_compare` is zero. -/
def aclIpv6RuleCompare (key node : AclRule) : Option Bool :=
  if key.userdata = node.userdata then
    match agree key node [(1, (·.value)), (2, (·.value)), (3, (·.value)), (4, (·.value)),
        (5, (·.value)), (6, (·.value)), (7, (·.value)), (8, (·.value)),
        (0, (low8 ·.value)), (0, (low8 ·.maskRange))] with
    | some true => some (key.maskSum 1 = node.maskSum 1 ∧ key.maskSum 5 = node.maskSum 5)
    | other => other
  else some false

def compareRule : RuleIpType → AclRule → AclRule → Option Bool
  | .ipv4 => aclRuleCompare
  | .ipv6 => aclIpv6RuleCompare

end

/-- `struct rte_acl_ctx`: the rules added, and the number of fields and the rules that were built.
-/
structure BuildCtx where
  rules : List AclRule := []
  built : Option (Nat × List AclRule) := none
  deriving DecidableEq, Repr

structure BuildConfig where
  acxIpv4 : Option BuildCtx := none
  acxIpv6 : Option BuildCtx := none
  deriving DecidableEq, Repr

def BuildConfig.context (config : BuildConfig) : RuleIpType → Option BuildCtx
  | .ipv4 => config.acxIpv4
  | .ipv6 => config.acxIpv6

def BuildConfig.modify (f : BuildCtx → BuildCtx) (type : RuleIpType) (config : BuildConfig) : BuildConfig :=
  match type with
  | .ipv4 => { config with acxIpv4 := config.acxIpv4.map f }
  | .ipv6 => { config with acxIpv6 := config.acxIpv6.map f }

/-- `struct acl_rules_table`. No table gets a second rule, so its tree is the root. -/
structure AclRulesTable where
  root : Option AclRule := none
  numEntries : UInt16 := 0
  numOfUe : UInt16 := 0
  deriving DecidableEq, Repr

def maxAclTables : Nat := 1000

/-- `acl_table_indx_offset`, `acl_config` and `acl_rules_table`. -/
structure AclState where
  indxOffset : Nat := 1
  configs : Nat → BuildConfig := fun _ => {}
  tables : Nat → AclRulesTable := fun _ => {}

namespace AclState

def setTable (s : AclState) (indx : Nat) (f : AclRulesTable → AclRulesTable) : AclState :=
  { s with tables := Function.update s.tables indx (f (s.tables indx)) }

def setConfig (s : AclState) (indx : Nat) (f : BuildConfig → BuildConfig) : AclState :=
  { s with configs := Function.update s.configs indx (f (s.configs indx)) }

def runTime (s : AclState) (indx : Nat) : AclConfig AclRule where
  acxIpv4 := (s.configs indx).acxIpv4.map fun ctx => ⟨ctx.built.map Prod.snd⟩
  acxIpv6 := (s.configs indx).acxIpv6.map fun ctx => ⟨ctx.built.map Prod.snd⟩

/-- `up_sdf_filter_table_create`: the new index. For a table that is there -1 would be taken as an
index. -/
def upSdfFilterTableCreate (type : RuleIpType) (s : AclState) : Except Fault (Nat × AclState) :=
  let indx := s.indxOffset
  if maxAclTables ≤ indx then .error .undefined
  else if (s.tables indx).root.isSome then .error .undefined
  else
    let config : BuildConfig := match type with
      | .ipv4 => { acxIpv4 := some {} }
      | .ipv6 => { acxIpv6 := some {} }
    let s := s.setConfig indx fun _ => config
    let s := s.setTable indx fun t => { t with numEntries := 0 }
    .ok (indx, { s with indxOffset := s.indxOffset + 1 })

/-- `up_rules_entry_add` to a table without rules. -/
def upRulesEntryAdd (indx : Nat) (rule : AclRule) (s : AclState) : AclState :=
  s.setTable indx fun t => { t with root := some rule, numEntries := t.numEntries + 1 }

/-- `add_rules_to_rte_acl`, which takes the index as `uint8_t`. -/
def addRulesToRteAcl (indx : UInt8) (type : RuleIpType) (s : AclState) : AclState :=
  match (s.tables indx.toNat).root with
  | none => s
  | some rule =>
    s.setConfig indx.toNat (BuildConfig.modify (fun ctx => { ctx with rules := ctx.rules ++ [rule] }) type)

/-- `reset_and_build_rules`: without a context the program ends. The number of fields is that of
`ipv4_defs` for either type. -/
def resetAndBuildRules (indx : Nat) (type : RuleIpType) (s : AclState) : Except Fault AclState :=
  if ((s.configs indx).context type).isNone then .error .rejected
  else
    let s := s.setConfig indx (BuildConfig.modify (fun ctx => { ctx with rules := [] }) type)
    let s := s.addRulesToRteAcl (UInt8.ofNat indx) type
    .ok (s.setConfig indx
      (BuildConfig.modify (fun ctx => { ctx with built := some (5, ctx.rules) }) type))

/-- The loop of `get_acl_table_indx` over the tables. -/
def findTable (type : RuleIpType) (rule : AclRule) (s : AclState) : List Nat → Except Fault (Option Nat)
  | [] => .ok none
  | itr :: rest =>
    match (s.tables itr).root with
    | none => findTable type rule s rest
    | some node =>
      match compareRule type rule node with
      | none => .error .undefined
      | some true => .ok (some itr)
      | some false => findTable type rule s rest

def indices (s : AclState) : List Nat := List.range' 1 (s.indxOffset - 1)

section

variable (freed : List Char → List Char)

/-- `get_acl_table_indx`, with `SESS_CREATE` or without; none where it returns -1. -/
def getAclTableIndx (filter : SdfPktFilter) (isCreate : Bool) (s : AclState) :
    Except Fault (Option Nat × AclState) :=
  match filter.rule freed with
  | .error .undefined => .error .undefined
  | .error .rejected => .ok (none, s)
  | .ok rule => do
      match ← findTable filter.ruleIpType rule s s.indices with
      | some itr =>
        .ok (some itr,
          if isCreate then s.setTable itr fun t => { t with numOfUe := t.numOfUe + 1 } else s)
      | none =>
        if isCreate then
          let (it, s) ← s.upSdfFilterTableCreate filter.ruleIpType
          let s := s.upRulesEntryAdd it rule
          let s := s.setTable it fun t => { t with numOfUe := t.numOfUe + 1 }
          let s ← s.resetAndBuildRules it filter.ruleIpType
          .ok (some it, s)
        else .ok (none, s)

/-- `up_rules_entry_delete` and `up_ipv6_rules_entry_delete`. For the root `tdelete` returns a
pointer that leads nowhere; `dangling` is read there and freed. -/
def upRulesEntryDelete (indx : Nat) (filter : SdfPktFilter) (dangling : Option Nat) (s : AclState) :
    Except Fault AclState :=
  match filter.rule freed with
  | .error .undefined => .error .undefined
  | .error .rejected => .ok s
  | .ok rule =>
    match (s.tables indx).root with
    | none => .ok s
    | some node =>
      match compareRule filter.ruleIpType rule node with
      | none => .error .undefined
      | some false => .ok s
      | some true =>
        if dangling.isSome then .error .undefined
        else .ok (s.setTable indx fun t => { t with root := none, numEntries := t.numEntries - 1 })

def sdfTableDelete (indx : Nat) (filter : SdfPktFilter) (dangling : Option Nat) (s : AclState) :
    Except Fault AclState :=
  match (s.configs indx).context filter.ruleIpType with
  | none => .error .undefined
  | some _ =>
    (s.setConfig indx (BuildConfig.modify (fun _ => {}) filter.ruleIpType)).upRulesEntryDelete freed indx
      filter dangling

def removeRuleEntryAcl (indx : Nat) (filter : SdfPktFilter) (dangling : Option Nat) (s : AclState) :
    Except Fault AclState :=
  if maxAclTables ≤ indx then .error .undefined
  else if 1 < (s.tables indx).numOfUe then
    .ok (s.setTable indx fun t => { t with numOfUe := t.numOfUe - 1 })
  else if (s.tables indx).numEntries = 0 then .ok s
  else if (s.tables indx).numEntries = 1 then s.sdfTableDelete freed indx filter dangling
  else do
    let s ← s.upRulesEntryDelete freed indx filter dangling
    s.resetAndBuildRules indx filter.ruleIpType

end

end AclState

end Epc.Up

import Epc.Lib.Run
import Epc.Up.AclTable

/-! The tables of SDF rules over runs of installations and removals: the index that is returned, the
rule in the table, and the context that is built from it. -/

namespace Epc.Up

open Epc.Lib Epc.Lib.Inet Epc.Lib.Text List Function Option AclState

section

variable {freed : List Char → List Char}

def netFields (octets : List UInt8) (m : Nat) : List AclField :=
  (List.range 4).map fun i => ⟨ipv6Word octets i, ipv6MaskRange m i⟩

theorem getCbField_le {s rest : List Char} {lim value : Nat} {dlm : Option Char}
    (read : getCbField s lim dlm = some (value, rest)) : value ≤ lim := by
  unfold getCbField at read
  split at read
  · cases read
  · split at read
    · cases read
    · rename_i bad
      cases read
      omega

variable {fields : List AclField}

theorem parseIpv6Net_ok {s : List Char} (parsed : parseIpv6Net freed s = .ok fields) :
    ∃ octets m, m ≤ 128 ∧ fields = netFields octets m := by
  unfold parseIpv6Net at parsed
  split at parsed
  · cases parsed
  · split at parsed
    · rename_i octets m _ _ read
      cases parsed
      exact ⟨octets, m, getCbField_le read, rfl⟩
    · cases parsed

theorem parseCbIpv6Rule_ok {str : List Char} (parsed : parseCbIpv6Rule freed str = .ok fields) :
    ∃ (proto mask : UInt8) (src dst : List UInt8) (srcLen dstLen : Nat),
      srcLen ≤ 128 ∧ dstLen ≤ 128 ∧ fields = ⟨proto.toUInt32, mask.toUInt32⟩ ::
        (netFields src srcLen ++ netFields dst dstLen) := by
  unfold parseCbIpv6Rule at parsed
  split at parsed
  · obtain ⟨src, readSrc, parsed⟩ := except_bind_ok parsed
    obtain ⟨dst, readDst, parsed⟩ := except_bind_ok parsed
    split at parsed
    · cases parsed
    · rename_i value rest readValue
      split at parsed
      · cases parsed
      · rename_i mask _ readMask
        cases parsed
        obtain ⟨srcOctets, srcLen, srcFits, rfl⟩ := parseIpv6Net_ok readSrc
        obtain ⟨dstOctets, dstLen, dstFits, rfl⟩ := parseIpv6Net_ok readDst
        have octet {n : Nat} (fits : n ≤ 255) : UInt32.ofNat n = (UInt8.ofNat n).toUInt32 := by
          apply UInt32.toNat_inj.mp
          rw [UInt8.toNat_toUInt32, UInt32.toNat_ofNat', UInt8.toNat_ofNat']
          omega
        exact ⟨UInt8.ofNat value, UInt8.ofNat mask, srcOctets, dstOctets, srcLen, dstLen, srcFits,
          dstFits, by rw [octet (getCbField_le readValue), octet (getCbField_le readMask)]⟩
  · cases parsed

inductive Parsed : RuleIpType → List AclField → Prop
  | ipv4 (r : Ipv4Rule) : Parsed .ipv4 r.fields
  | ipv6 (proto mask : UInt8) (src dst : List UInt8) {srcLen dstLen : Nat} (srcFits : srcLen ≤ 128)
      (dstFits : dstLen ≤ 128) :
      Parsed .ipv6 (⟨proto.toUInt32, mask.toUInt32⟩ :: (netFields src srcLen ++ netFields dst dstLen))

theorem SdfPktFilter.rule_ok {filter : SdfPktFilter} {rule : AclRule}
    (parsed : filter.rule freed = .ok rule) :
    Parsed filter.ruleIpType rule.fields ∧
      rule = ⟨-1, 255 - filter.precedence.toUInt8, filter.precedence, rule.fields⟩ := by
  unfold SdfPktFilter.rule at parsed
  cases read : filter.fields freed with
  | error fault =>
    rw [read] at parsed
    cases parsed
  | ok fields =>
    rw [read] at parsed
    cases parsed
    refine ⟨?_, rfl⟩
    unfold SdfPktFilter.fields at read
    cases type : filter.ruleIpType with
    | ipv4 =>
      simp only [type] at read
      split at read
      · cases read
      · cases read
        exact .ipv4 _
    | ipv6 =>
      simp only [type] at read
      obtain ⟨proto, mask, src, dst, srcLen, dstLen, srcFits, dstFits, rfl⟩ :=
        parseCbIpv6Rule_ok read
      exact .ipv6 proto mask src dst srcFits dstFits

def RuleIpType.numFields : RuleIpType → Nat
  | .ipv4 => 5
  | .ipv6 => 9

theorem Parsed.length {type : RuleIpType} (parsed : Parsed type fields) :
    fields.length = type.numFields := by
  cases parsed <;> rfl

theorem RuleIpType.numFields_injective : Function.Injective RuleIpType.numFields := by
  rintro (_ | _) (_ | _) <;> simp [numFields]

end

section

variable {key node : AclRule}

theorem agree_eq {checks : List (Nat × (AclField → UInt32))}
    (keyHas : ∀ c ∈ checks, c.1 < key.fields.length) (nodeHas : ∀ c ∈ checks, c.1 < node.fields.length) :
    agree key node checks =
      some (decide (∀ c ∈ checks, (key.fields[c.1]?).map c.2 = (node.fields[c.1]?).map c.2)) := by
  induction checks with
  | nil => simp [agree]
  | cons c checks ih =>
    obtain ⟨i, read⟩ := c
    rw [forall_mem_cons] at keyHas nodeHas
    have ihRest := ih keyHas.2 nodeHas.2
    have atKey := getElem?_eq_getElem keyHas.1
    have atNode := getElem?_eq_getElem nodeHas.1
    simp only [agree, atKey, atNode, forall_mem_cons, map_some, some.injEq]
    by_cases same : read key.fields[i] = read node.fields[i]
    · rw [if_pos same, ihRest]
      simp [same]
    · rw [if_neg same]
      simp [same]

theorem low8_toUInt32 (octet : UInt8) : low8 octet.toUInt32 = octet.toUInt32 := by
  simp [low8]

theorem low16_toUInt32 (port : UInt16) : low16 port.toUInt32 = port.toUInt32 := by
  simp [low16]

theorem sum_ipv6MaskRange {m : Nat} (fits : m ≤ 128) :
    ((List.range 4).map (ipv6MaskRange m)).sum = UInt32.ofNat m := by
  have all : ∀ m : Fin 129, ((List.range 4).map (ipv6MaskRange m)).sum = UInt32.ofNat m := by
    decide +kernel
  exact all ⟨m, by omega⟩

theorem netFields_inj {a b : List UInt8} {m n : Nat} (mFits : m ≤ 128) (nFits : n ≤ 128)
    (values : ∀ i < 4, ipv6Word a i = ipv6Word b i)
    (masks : ((netFields a m).map (·.maskRange)).sum = ((netFields b n).map (·.maskRange)).sum) :
    netFields a m = netFields b n := by
  have sums : UInt32.ofNat m = UInt32.ofNat n := by
    rw [← sum_ipv6MaskRange mFits, ← sum_ipv6MaskRange nFits]
    simpa [netFields, comp_def] using masks
  have same : m = n := by
    have := congrArg UInt32.toNat sums
    rw [UInt32.toNat_ofNat', UInt32.toNat_ofNat'] at this
    omega
  subst same
  refine map_congr_left fun i mem => ?_
  rw [values i (mem_range.mp mem)]

theorem aclRuleCompare_eq (keyParsed : Parsed .ipv4 key.fields) (nodeParsed : Parsed .ipv4 node.fields) :
    aclRuleCompare key node =
      some (decide (key.userdata = node.userdata ∧ key.fields = node.fields)) := by
  unfold aclRuleCompare
  by_cases same : key.userdata = node.userdata
  · rw [if_pos same, agree_eq (by rw [keyParsed.length]; decide) (by rw [nodeParsed.length]; decide)]
    generalize key.fields = a at keyParsed ⊢
    generalize node.fields = b at nodeParsed ⊢
    cases keyParsed with
    | ipv4 r =>
      cases nodeParsed with
      | ipv4 q =>
        rw [some.injEq, decide_eq_decide]
        simp [Ipv4Rule.fields, same, low8_toUInt32, low16_toUInt32]
        tauto
  · simp [same]

def ipv6Checks : List (Nat × (AclField → UInt32)) :=
  [(1, (·.value)), (2, (·.value)), (3, (·.value)), (4, (·.value)), (5, (·.value)), (6, (·.value)),
    (7, (·.value)), (8, (·.value)), (0, (low8 ·.value)), (0, (low8 ·.maskRange))]

theorem fields_eq_of_ipv6Checks {a b : List AclField} (aParsed : Parsed .ipv6 a)
    (bParsed : Parsed .ipv6 b) (values : ∀ c ∈ ipv6Checks, (a[c.1]?).map c.2 = (b[c.1]?).map c.2)
    (srcMask : (((a.drop 1).take 4).map (·.maskRange)).sum =
      (((b.drop 1).take 4).map (·.maskRange)).sum)
    (dstMask : (((a.drop 5).take 4).map (·.maskRange)).sum =
      (((b.drop 5).take 4).map (·.maskRange)).sum) : a = b := by
  cases aParsed with
  | ipv6 proto mask src dst srcFits dstFits =>
    cases bParsed with
    | ipv6 proto' mask' src' dst' srcFits' dstFits' =>
      simp only [ipv6Checks, forall_mem_cons] at values
      obtain ⟨s0, s1, s2, s3, d0, d1, d2, d3, protoEq, maskEq, -⟩ := values
      have srcWords : ∀ i < 4, ipv6Word src i = ipv6Word src' i := by
        intro i bound
        interval_cases i
        · exact some.inj s0
        · exact some.inj s1
        · exact some.inj s2
        · exact some.inj s3
      have dstWords : ∀ i < 4, ipv6Word dst i = ipv6Word dst' i := by
        intro i bound
        interval_cases i
        · exact some.inj d0
        · exact some.inj d1
        · exact some.inj d2
        · exact some.inj d3
      have sameProto : low8 proto.toUInt32 = low8 proto'.toUInt32 := some.inj protoEq
      have sameMask : low8 mask.toUInt32 = low8 mask'.toUInt32 := some.inj maskEq
      rw [low8_toUInt32, low8_toUInt32] at sameProto sameMask
      rw [netFields_inj srcFits srcFits' srcWords srcMask,
        netFields_inj dstFits dstFits' dstWords dstMask, sameProto, sameMask]

theorem aclIpv6RuleCompare_eq (keyParsed : Parsed .ipv6 key.fields)
    (nodeParsed : Parsed .ipv6 node.fields) :
    aclIpv6RuleCompare key node =
      some (decide (key.userdata = node.userdata ∧ key.fields = node.fields)) := by
  unfold aclIpv6RuleCompare
  by_cases same : key.userdata = node.userdata
  · have agreed : agree key node ipv6Checks = some (decide (∀ c ∈ ipv6Checks, _)) :=
      agree_eq (by rw [keyParsed.length]; decide) (by rw [nodeParsed.length]; decide)
    rw [if_pos same, ← ipv6Checks]
    by_cases equal : key.fields = node.fields
    · rw [agreed, decide_eq_true (fun c _ => by rw [equal])]
      simp [same, equal, AclRule.maskSum]
    · have ne : decide (key.userdata = node.userdata ∧ key.fields = node.fields) = false :=
        decide_eq_false fun both => equal both.2
      rw [ne]
      by_cases values : ∀ c ∈ ipv6Checks, (key.fields[c.1]?).map c.2 = (node.fields[c.1]?).map c.2
      · rw [agreed, decide_eq_true values]
        refine congrArg some (decide_eq_false fun masks => equal ?_)
        exact fields_eq_of_ipv6Checks keyParsed nodeParsed values masks.1 masks.2
      · rw [agreed, decide_eq_false values]
  · simp [same]

theorem compareRule_eq {freed : List Char → List Char} {f g : SdfPktFilter}
    (keyRule : f.rule freed = .ok key) (nodeRule : g.rule freed = .ok node)
    (sameType : f.ruleIpType = g.ruleIpType) :
    compareRule f.ruleIpType key node = some (decide (key = node)) := by
  obtain ⟨keyParsed, keyEq⟩ := f.rule_ok keyRule
  obtain ⟨nodeParsed, nodeEq⟩ := g.rule_ok nodeRule
  have iff : (key.userdata = node.userdata ∧ key.fields = node.fields) ↔ key = node := by
    constructor
    · rintro ⟨userdata, fields⟩
      have precedence : f.precedence = g.precedence := by
        rw [keyEq, nodeEq] at userdata
        exact userdata
      rw [keyEq, nodeEq, precedence, fields]
    · rintro rfl
      exact ⟨rfl, rfl⟩
  rw [← sameType] at nodeParsed
  cases type : f.ruleIpType with
  | ipv4 =>
    rw [type] at keyParsed nodeParsed
    rw [compareRule, aclRuleCompare_eq keyParsed nodeParsed, decide_eq_decide.mpr iff]
  | ipv6 =>
    rw [type] at keyParsed nodeParsed
    rw [compareRule, aclIpv6RuleCompare_eq keyParsed nodeParsed, decide_eq_decide.mpr iff]

end

section

/-- Installs a filter's rule, or removes it if a table has it; `dangling` is what `tdelete` leaves
to be freed. -/
inductive AclOp where
  | create (filter : SdfPktFilter)
  | remove (filter : SdfPktFilter) (dangling : Option Nat)
  deriving DecidableEq, Repr

variable (freed : List Char → List Char)

def AclOp.call (op : AclOp) (s : AclState) : Except Fault (Option Nat × AclState) :=
  match op with
  | create filter => s.getAclTableIndx freed filter true
  | remove filter dangling => do
      let (indx, s) ← s.getAclTableIndx freed filter false
      match indx with
      | none => .ok (none, s)
      | some i => do
          let s ← s.removeRuleEntryAcl freed i filter dangling
          .ok (indx, s)

def AclOp.exec (op : AclOp) (s : AclState) : Except Fault AclState :=
  (op.call freed s).map Prod.snd

/-- No rule of the other type is taken for the filter's, and none is read beyond its end. -/
def Unmistaken (filter : SdfPktFilter) (s : AclState) : Prop :=
  ∀ rule ∈ (filter.rule freed).toOption, ∀ i ∈ s.indices, ∀ node ∈ (s.tables i).root,
    node.fields.length ≠ rule.fields.length →
      compareRule filter.ruleIpType rule node = some false

/-- A filter that is parsed and not mistaken, with a table or room below index 256; a removal does
not delete the rule or finds nothing to free. -/
def AclOp.ok (s : AclState) : AclOp → Prop
  | create filter =>
    (filter.rule freed).isOk = true ∧ Unmistaken freed filter s ∧
      (s.indxOffset < 256 ∨ ∃ i ∈ s.indices, (s.tables i).root = (filter.rule freed).toOption)
  | remove filter dangling =>
    filter.rule freed ≠ .error .undefined ∧ Unmistaken freed filter s ∧
      (dangling = none ∨ ∀ rule ∈ (filter.rule freed).toOption, ∀ i ∈ s.indices,
        (s.tables i).root = some rule → 1 < (s.tables i).numOfUe)

/-- The index `i` is in range, its table has the filter's rule, the context that `sdf_lookup`
consults classifies by the table's rules, and the other contexts are unchanged. -/
structure Installed (filter : SdfPktFilter) (i : Nat) (s s' : AclState) : Prop where
  low : 1 ≤ i
  high : i < maxAclTables
  stored : ∃ rule, filter.rule freed = .ok rule ∧ rule ∈ (s'.tables i).root.toList
  built : ∃ ctx, (s'.configs i).context filter.ruleIpType = some ctx ∧
    ctx.built = some (5, (s'.tables i).root.toList)
  lookup : ∀ (acl : RteAcl AclRule) (pkts : Nat → Mbuf) (nbRx : Nat) (res : ResPtr → UInt32),
    ∀ version, (pkts 0).ipVersion = some version →
      sdfLookup acl s'.runTime pkts nbRx i res = (some (i, version),
        Function.update res (i, version)
          (acl.classify (s'.tables i).root.toList ((pkts 0).toProto version)))
  others : ∀ j ≠ i, s'.configs j = s.configs j

end

section

open AclOp

variable {freed : List Char → List Char} {s : AclState} {filter : SdfPktFilter} {rule : AclRule}

def builtConfig (type : RuleIpType) (rule : AclRule) : BuildConfig :=
  match type with
  | .ipv4 => { acxIpv4 := some ⟨[rule], some (5, [rule])⟩ }
  | .ipv6 => { acxIpv6 := some ⟨[rule], some (5, [rule])⟩ }

def emptyConfig : RuleIpType → BuildConfig
  | .ipv4 => { acxIpv4 := some {} }
  | .ipv6 => { acxIpv6 := some {} }

def AclState.enter (type : RuleIpType) (rule : AclRule) (s : AclState) : AclState where
  indxOffset := s.indxOffset + 1
  configs := Function.update s.configs s.indxOffset (emptyConfig type)
  tables := Function.update s.tables s.indxOffset ⟨some rule, 1, 1⟩

def AclState.install (type : RuleIpType) (rule : AclRule) (s : AclState) : AclState where
  indxOffset := s.indxOffset + 1
  configs := Function.update s.configs s.indxOffset (builtConfig type rule)
  tables := Function.update s.tables s.indxOffset ⟨some rule, 1, 1⟩

@[simp] theorem AclState.setTable_self (i : Nat) (f : AclRulesTable → AclRulesTable) :
    (s.setTable i f).tables i = f (s.tables i) := by
  simp [setTable]

variable {i : Nat}

theorem AclState.setTable_of_ne {j : Nat} (f : AclRulesTable → AclRulesTable) (ne : j ≠ i) :
    (s.setTable i f).tables j = s.tables j := by
  simp [setTable, ne]

@[simp] theorem AclState.setTable_configs (i : Nat) (f : AclRulesTable → AclRulesTable) :
    (s.setTable i f).configs = s.configs := rfl

@[simp] theorem AclState.setTable_indxOffset (i : Nat) (f : AclRulesTable → AclRulesTable) :
    (s.setTable i f).indxOffset = s.indxOffset := rfl

@[simp] theorem AclState.install_self (type : RuleIpType) :
    (s.install type rule).tables s.indxOffset = ⟨some rule, 1, 1⟩ ∧
      (s.install type rule).configs s.indxOffset = builtConfig type rule := by
  simp [install]

theorem AclState.install_of_ne (type : RuleIpType) (ne : i ≠ s.indxOffset) :
    (s.install type rule).tables i = s.tables i ∧
      (s.install type rule).configs i = s.configs i := by
  simp [install, ne]

@[simp] theorem AclState.install_indxOffset (type : RuleIpType) :
    (s.install type rule).indxOffset = s.indxOffset + 1 := rfl

structure TablesHeld (freed : List Char → List Char) (s : AclState) : Prop where
  low : 1 ≤ s.indxOffset
  unused : ∀ i, s.indxOffset ≤ i → s.tables i = {}
  held : ∀ i rule, (s.tables i).root = some rule →
    1 ≤ i ∧ ∃ filter : SdfPktFilter, filter.rule freed = .ok rule

structure AclInv (freed : List Char → List Char) (s : AclState) : Prop where
  low : 1 ≤ s.indxOffset
  high : s.indxOffset ≤ 256
  unused : ∀ i, s.indxOffset ≤ i → s.tables i = {}
  held : ∀ i rule, (s.tables i).root = some rule → 1 ≤ i ∧ (s.tables i).numEntries = 1 ∧
    ∃ filter : SdfPktFilter, filter.rule freed = .ok rule ∧
      s.configs i = builtConfig filter.ruleIpType rule

theorem aclInv_start : AclInv freed {} where
  low := le_refl _
  high := by decide
  unused _ _ := rfl
  held _ _ root := by cases root

theorem AclInv.tables (inv : AclInv freed s) : TablesHeld freed s where
  low := inv.low
  unused := inv.unused
  held i rule root := by
    obtain ⟨low, -, filter, parsed, -⟩ := inv.held i rule root
    exact ⟨low, filter, parsed⟩

theorem TablesHeld.mem_indices (inv : TablesHeld freed s)
    (root : (s.tables i).root = some rule) : i ∈ s.indices := by
  have low := (inv.held i rule root).1
  have high : i < s.indxOffset := by
    by_contra unused
    rw [inv.unused i (by omega)] at root
    cases root
  rw [indices, mem_range'_1]
  omega

theorem AclState.lt_of_mem_indices (low : 1 ≤ s.indxOffset) (mem : i ∈ s.indices) :
    1 ≤ i ∧ i < s.indxOffset := by
  rw [indices, mem_range'_1] at mem
  omega

theorem TablesHeld.told (inv : TablesHeld freed s) (parsed : filter.rule freed = .ok rule)
    (unmistaken : Unmistaken freed filter s) :
    ∀ i ∈ s.indices, ∀ node ∈ (s.tables i).root,
      compareRule filter.ruleIpType rule node = some (decide (rule = node)) := by
  intro i mem node root
  obtain ⟨-, other, otherParsed⟩ := inv.held i node root
  by_cases sameType : filter.ruleIpType = other.ruleIpType
  · exact compareRule_eq parsed otherParsed sameType
  · have lengths : node.fields.length ≠ rule.fields.length := by
      rw [(filter.rule_ok parsed).1.length, (other.rule_ok otherParsed).1.length]
      exact fun same => sameType (RuleIpType.numFields_injective same.symm)
    have differ : rule ≠ node := by
      rintro rfl
      exact lengths rfl
    rw [decide_eq_false differ]
    exact unmistaken rule (by rw [parsed]; rfl) i mem node root lengths

variable {type : RuleIpType}

theorem findTable_eq {l : List Nat} (told : ∀ i ∈ l, ∀ node ∈ (s.tables i).root,
      compareRule type rule node = some (decide (rule = node))) :
    s.findTable type rule l = .ok (l.find? fun i => (s.tables i).root = some rule) := by
  induction l with
  | nil => rfl
  | cons i l ih =>
    rw [forall_mem_cons] at told
    have ihRest := ih told.2
    rw [findTable]
    cases root : (s.tables i).root with
    | none => simpa [root] using ihRest
    | some node =>
      simp only [told.1 node root]
      by_cases same : rule = node
      · simp [same, root]
      · simpa [root, same, Ne.symm same] using ihRest

theorem TablesHeld.findTable (inv : TablesHeld freed s) (parsed : filter.rule freed = .ok rule)
    (unmistaken : Unmistaken freed filter s) :
    (∃ i, s.findTable filter.ruleIpType rule s.indices = .ok (some i) ∧ i ∈ s.indices ∧
        (s.tables i).root = some rule) ∨
      s.findTable filter.ruleIpType rule s.indices = .ok none ∧
        ∀ i, (s.tables i).root ≠ some rule := by
  rw [findTable_eq (inv.told parsed unmistaken)]
  cases found : s.indices.find? fun i => (s.tables i).root = some rule with
  | some i =>
    exact .inl ⟨i, rfl, mem_of_find?_eq_some found, by simpa using find?_some found⟩
  | none =>
    refine .inr ⟨rfl, fun i root => ?_⟩
    have none := find?_eq_none.mp found i (inv.mem_indices root)
    simp [root] at none

theorem BuildConfig.modify_modify (f g : BuildCtx → BuildCtx) (type : RuleIpType) (config : BuildConfig) :
    (config.modify f type).modify g type = config.modify (g ∘ f) type := by
  cases type <;> simp [BuildConfig.modify, Option.map_map]

theorem emptyConfig_modify (type : RuleIpType) (rule : AclRule) :
    (emptyConfig type).modify (fun _ => ⟨[rule], some (5, [rule])⟩) type = builtConfig type rule := by
  cases type <;> rfl

theorem emptyConfig_context (type : RuleIpType) : (emptyConfig type).context type = some {} := by
  cases type <;> rfl

theorem builtConfig_context (type : RuleIpType) (rule : AclRule) :
    (builtConfig type rule).context type = some ⟨[rule], some (5, [rule])⟩ := by
  cases type <;> rfl

theorem resetAndBuildRules_low {indx : Nat} (low : indx < 256) (root : (s.tables indx).root = some rule)
    (context : ((s.configs indx).context type).isNone = false) :
    s.resetAndBuildRules indx type =
      .ok (s.setConfig indx (BuildConfig.modify (fun _ => ⟨[rule], some (5, [rule])⟩) type)) := by
  have index : (UInt8.ofNat indx).toNat = indx := by
    rw [UInt8.toNat_ofNat']
    omega
  simp only [resetAndBuildRules, context, addRulesToRteAcl, index, setConfig, root, update_self,
    update_idem, BuildConfig.modify_modify]
  rfl

theorem resetAndBuildRules_none {indx : Nat} (root : (s.tables (indx % 256)).root = none)
    (context : ((s.configs indx).context type).isNone = false) :
    s.resetAndBuildRules indx type =
      .ok (s.setConfig indx (BuildConfig.modify (fun _ => ⟨[], some (5, [])⟩) type)) := by
  have index : (UInt8.ofNat indx).toNat = indx % 256 := UInt8.toNat_ofNat'
  simp only [resetAndBuildRules, context, addRulesToRteAcl, index, setConfig, root, update_self,
    update_idem, BuildConfig.modify_modify]
  rfl

theorem upSdfFilterTableCreate_low (type : RuleIpType) (inRange : s.indxOffset < maxAclTables)
    (unused : s.tables s.indxOffset = {}) :
    s.upSdfFilterTableCreate type = .ok (s.indxOffset,
      { indxOffset := s.indxOffset + 1
        configs := Function.update s.configs s.indxOffset (emptyConfig type)
        tables := s.tables }) := by
  have same : Function.update s.tables s.indxOffset {} = s.tables := by
    rw [← unused, update_eq_self]
  simp only [upSdfFilterTableCreate, if_neg (Nat.not_le.mpr inRange), unused, setConfig, setTable]
  rw [same]
  cases type <;> rfl

theorem TablesHeld.getAclTableIndx_enter (inv : TablesHeld freed s) (parsed : filter.rule freed = .ok rule)
    (absent : s.findTable filter.ruleIpType rule s.indices = .ok none)
    (inRange : s.indxOffset < maxAclTables) :
    s.getAclTableIndx freed filter true =
      ((s.enter filter.ruleIpType rule).resetAndBuildRules s.indxOffset filter.ruleIpType >>=
        fun s' => .ok (some s.indxOffset, s')) := by
  have unused := inv.unused s.indxOffset (le_refl _)
  have enters : (upRulesEntryAdd s.indxOffset rule
        { indxOffset := s.indxOffset + 1
          configs := Function.update s.configs s.indxOffset (emptyConfig filter.ruleIpType)
          tables := s.tables }).setTable s.indxOffset (fun t => { t with numOfUe := t.numOfUe + 1 }) =
      s.enter filter.ruleIpType rule := by
    simp [upRulesEntryAdd, setTable, enter, unused]
  simp only [getAclTableIndx, parsed, absent, except_ok_bind, if_true,
    upSdfFilterTableCreate_low filter.ruleIpType inRange unused, enters]

theorem AclInv.getAclTableIndx_new (inv : AclInv freed s) (parsed : filter.rule freed = .ok rule)
    (absent : s.findTable filter.ruleIpType rule s.indices = .ok none) (room : s.indxOffset < 256) :
    s.getAclTableIndx freed filter true =
      .ok (some s.indxOffset, s.install filter.ruleIpType rule) := by
  have root : ((s.enter filter.ruleIpType rule).tables s.indxOffset).root = some rule := by
    simp [enter]
  rw [inv.tables.getAclTableIndx_enter parsed absent (inv.high.trans_lt (by decide)),
    resetAndBuildRules_low room root]
  · simp [setConfig, emptyConfig_modify, AclState.install, enter, except_ok_bind]
  · simp [enter, emptyConfig_context]

theorem AclInv.install (inv : AclInv freed s) (parsed : filter.rule freed = .ok rule)
    (room : s.indxOffset < 256) : AclInv freed (s.install filter.ruleIpType rule) where
  low := Nat.le_add_left 1 s.indxOffset
  high := room
  unused i above := by
    rw [install_indxOffset] at above
    rw [(install_of_ne _ (by omega)).1, inv.unused i (by omega)]
  held i other root := by
    by_cases here : i = s.indxOffset
    · subst here
      rw [(install_self _).1] at root ⊢
      cases root
      exact ⟨inv.low, rfl, filter, parsed, (install_self _).2⟩
    · rw [(install_of_ne _ here).1] at root ⊢
      rw [(install_of_ne _ here).2]
      exact inv.held i other root

theorem getAclTableIndx_again (parsed : filter.rule freed = .ok rule)
    (found : s.findTable filter.ruleIpType rule s.indices = .ok (some i)) :
    s.getAclTableIndx freed filter true =
      .ok (some i, s.setTable i fun t => { t with numOfUe := t.numOfUe + 1 }) := by
  simp only [getAclTableIndx, parsed, found, except_ok_bind, if_true]

section

variable (inv : AclInv freed s)

include inv

theorem AclInv.setTable {f : AclRulesTable → AclRulesTable}
    (used : i < s.indxOffset) (root : (f (s.tables i)).root = (s.tables i).root)
    (numEntries : (f (s.tables i)).numEntries = (s.tables i).numEntries) :
    AclInv freed (s.setTable i f) where
  low := inv.low
  high := inv.high
  unused j above := by
    rw [setTable_indxOffset] at above
    rw [setTable_of_ne f (by omega), inv.unused j above]
  held j rule held := by
    by_cases here : j = i
    · subst here
      rw [setTable_self, root] at held
      rw [setTable_self, numEntries]
      exact inv.held j rule held
    · rw [setTable_of_ne f here] at held ⊢
      exact inv.held j rule held

theorem AclInv.table (parsed : filter.rule freed = .ok rule) (root : (s.tables i).root = some rule) :
    1 ≤ i ∧ i < 256 ∧ i < s.indxOffset ∧ (s.tables i).numEntries = 1 ∧
      s.configs i = builtConfig filter.ruleIpType rule := by
  obtain ⟨low, entries, other, otherParsed, config⟩ := inv.held i rule root
  have used := (lt_of_mem_indices inv.low (inv.tables.mem_indices root)).2
  have sameType : other.ruleIpType = filter.ruleIpType := by
    apply RuleIpType.numFields_injective
    rw [← (filter.rule_ok parsed).1.length, (other.rule_ok otherParsed).1.length]
  exact ⟨low, used.trans_le inv.high, used, entries, sameType ▸ config⟩

theorem AclInv.installed (parsed : filter.rule freed = .ok rule)
    (root : (s.tables i).root = some rule) {before : AclState}
    (others : ∀ j ≠ i, s.configs j = before.configs j) : Installed freed filter i before s := by
  obtain ⟨low, high, -, -, config⟩ := inv.table parsed root
  refine {
    low
    high := by
      rw [maxAclTables]
      omega
    stored := ⟨rule, parsed, by simp [root]⟩
    built := ?_
    lookup := ?_
    others }
  · rw [config, root]
    exact ⟨_, builtConfig_context _ _, rfl⟩
  · intro acl pkts nbRx res version isVersion
    rw [sdfLookup, aclLookup]
    simp only [runTime, config, isVersion, root]
    cases filter.ruleIpType <;> rfl

theorem AclInv.delete (i : Nat) (config : BuildConfig) (used : i < s.indxOffset) :
    AclInv freed ((s.setConfig i fun _ => config).setTable i fun t =>
      { t with root := none, numEntries := t.numEntries - 1 }) where
  low := inv.low
  high := inv.high
  unused j above := by
    have above : s.indxOffset ≤ j := above
    rw [setTable_of_ne _ (by omega)]
    exact inv.unused j above
  held j rule held := by
    by_cases here : j = i
    · subst here
      rw [setTable_self] at held
      cases held
    · rw [setTable_of_ne _ here] at held ⊢
      simp only [setTable_configs, setConfig, update_of_ne here]
      exact inv.held j rule held

theorem AclInv.sdfTableDelete (parsed : filter.rule freed = .ok rule)
    (root : (s.tables i).root = some rule) :
    ∃ s', s.sdfTableDelete freed i filter none = .ok s' ∧ AclInv freed s' := by
  obtain ⟨-, -, used, -, config⟩ := inv.table parsed root
  have compared : compareRule filter.ruleIpType rule rule = some true := by
    rw [compareRule_eq parsed parsed rfl, decide_eq_true rfl]
  refine ⟨_, ?_, inv.delete i ((builtConfig filter.ruleIpType rule).modify (fun _ => {})
    filter.ruleIpType) used⟩
  simp only [AclState.sdfTableDelete, config, builtConfig_context, upRulesEntryDelete, parsed,
    setConfig, root, compared]
  rfl

theorem AclInv.remove {dangling : Option Nat} (ok : AclOp.ok freed s (.remove filter dangling)) :
    ∃ indx s', (AclOp.remove filter dangling).call freed s = .ok (indx, s') ∧ AclInv freed s' := by
  obtain ⟨defined, unmistaken, harmless⟩ := ok
  cases parsed : filter.rule freed with
  | error fault =>
    cases fault with
    | undefined => exact absurd parsed defined
    | rejected =>
      refine ⟨none, s, ?_, inv⟩
      simp only [AclOp.call, getAclTableIndx, parsed]
      rfl
  | ok rule =>
    rcases inv.tables.findTable parsed unmistaken with ⟨i, found, mem, root⟩ | ⟨absent, -⟩
    · have call : (AclOp.remove filter dangling).call freed s =
          (s.removeRuleEntryAcl freed i filter dangling >>= fun s' => .ok (some i, s')) := by
        simp only [AclOp.call, getAclTableIndx, parsed, found]
        rfl
      obtain ⟨-, low, used, entries, -⟩ := inv.table parsed root
      have inRange : ¬ maxAclTables ≤ i := by
        rw [maxAclTables]
        omega
      obtain ⟨s', removed, inv'⟩ : ∃ s', s.removeRuleEntryAcl freed i filter dangling = .ok s' ∧
          AclInv freed s' := by
        rw [removeRuleEntryAcl, if_neg inRange]
        by_cases shared : 1 < (s.tables i).numOfUe
        · rw [if_pos shared]
          exact ⟨_, rfl, inv.setTable used rfl rfl⟩
        · have nothing : dangling = none := harmless.resolve_right fun all =>
            shared (all rule (by rw [parsed]; rfl) i mem root)
          rw [if_neg shared, entries, nothing]
          exact inv.sdfTableDelete parsed root
      exact ⟨some i, s', by rw [call, removed, except_ok_bind], inv'⟩
    · refine ⟨none, s, ?_, inv⟩
      simp only [AclOp.call, getAclTableIndx, parsed, absent]
      rfl

theorem AclInv.create (ok : AclOp.ok freed s (.create filter)) :
    ∃ i s', (AclOp.create filter).call freed s = .ok (some i, s') ∧ AclInv freed s' ∧
      Installed freed filter i s s' := by
  obtain ⟨parsable, unmistaken, space⟩ := ok
  cases parsed : filter.rule freed with
  | error fault =>
    rw [parsed] at parsable
    cases parsable
  | ok rule =>
    rcases inv.tables.findTable parsed unmistaken with ⟨i, found, mem, root⟩ | ⟨absent, none⟩
    · obtain ⟨-, -, used, -⟩ := inv.table parsed root
      have inv' : AclInv freed (s.setTable i fun t => { t with numOfUe := t.numOfUe + 1 }) :=
        inv.setTable used rfl rfl
      refine ⟨i, _, getAclTableIndx_again parsed found, inv', inv'.installed parsed ?_ fun _ _ => rfl⟩
      rw [setTable_self, root]
    · have room : s.indxOffset < 256 := space.resolve_right fun ⟨i, _, root⟩ =>
        none i (by rw [root, parsed]; rfl)
      have inv' := inv.install parsed room
      refine ⟨s.indxOffset, _, inv.getAclTableIndx_new parsed absent room, inv',
        inv'.installed parsed ?_ fun j other => (install_of_ne _ other).2⟩
      rw [(install_self _).1]

end

end

section

open Run AclOp

variable {freed : List Char → List Char} {s : AclState}

theorem AclInv.step {op : AclOp} (inv : AclInv freed s) (ok : op.ok freed s) :
    AclInv freed (attempt (exec freed) s op) := by
  obtain ⟨indx, s', call, inv'⟩ : ∃ indx s', op.call freed s = .ok (indx, s') ∧ AclInv freed s' := by
    cases op with
    | create filter =>
      obtain ⟨i, s', call, inv', -⟩ := inv.create ok
      exact ⟨some i, s', call, inv'⟩
    | remove filter dangling => exact inv.remove ok
  rw [attempt_ok (by rw [exec, call]; rfl)]
  exact inv'

/-- From empty tables, in every admitted run, each installation gives an index in range whose table
has the rule and whose context was built from it, and leaves the other contexts. -/
theorem installed_run {ops : List AclOp}
    (guarded : Guarded (attempt (AclOp.exec freed)) (fun s op => op.ok freed s) {} ops)
    (before : List AclOp) (filter : SdfPktFilter) (isPrefix : before ++ [.create filter] <+: ops) :
    ∃ i s', (AclOp.create filter).call freed (run (attempt (AclOp.exec freed)) {} before) =
        .ok (some i, s') ∧
      run (attempt (AclOp.exec freed)) {} (before ++ [.create filter]) = s' ∧
      Installed freed filter i (run (attempt (AclOp.exec freed)) {} before) s' := by
  obtain ⟨inv, ok⟩ := guarded.inv_at isPrefix (AclInv freed) aclInv_start fun _ _ inv ok => inv.step ok
  obtain ⟨i, s', call, -, installed⟩ := inv.create ok
  refine ⟨i, s', call, ?_, installed⟩
  rw [run_append]
  exact attempt_ok (by rw [exec, call]; rfl)

def anyFlow (precedence : Nat) : SdfPktFilter where
  precedence := UInt32.ofNat precedence
  ruleIpType := .ipv4
  ruleStr := "0.0.0.0/0 0.0.0.0/0 0 : 65535 0 : 65535 0x0/0x0".toList

def netFlow : SdfPktFilter where
  precedence := 1
  ruleIpType := .ipv6
  ruleStr := "2001:db8::/32 ::/0 0x6/0xff".toList

def anyRule (precedence : Nat) : AclRule where
  categoryMask := -1
  priority := 255 - (UInt32.ofNat precedence).toUInt8
  userdata := UInt32.ofNat precedence
  fields := Ipv4Rule.fields ⟨0, 0, 0, 0, 0, 0, 0, 65535, 0, 65535⟩

theorem anyFlow_rule (precedence : Nat) : (anyFlow precedence).rule freed = .ok (anyRule precedence) := by
  have parsed : parseCbIpv4vlanRule "0.0.0.0/0 0.0.0.0/0 0 : 65535 0 : 65535 0x0/0x0".toList =
      some ⟨0, 0, 0, 0, 0, 0, 0, 65535, 0, 65535⟩ := by decide +kernel
  simp only [SdfPktFilter.rule, SdfPktFilter.fields, anyFlow, parsed]
  rfl

def netRule : AclRule where
  categoryMask := -1
  priority := 254
  userdata := 1
  fields := [⟨6, 255⟩, ⟨0x20010db8, 32⟩, ⟨0, 0⟩, ⟨0, 0⟩, ⟨0, 0⟩, ⟨0, 0⟩, ⟨0, 0⟩, ⟨0, 0⟩, ⟨0, 0⟩]

theorem netFlow_rule : netFlow.rule id = .ok netRule := by
  have parsed : (netFlow.fields id).toOption = some netRule.fields := by decide +kernel
  cases fields : netFlow.fields id with
  | error fault =>
    rw [fields] at parsed
    cases parsed
  | ok parsedFields =>
    rw [fields] at parsed
    cases parsed
    simp only [SdfPktFilter.rule, fields]
    rfl

theorem anyFlow_first (precedence : Nat) :
    attempt (exec freed) {} (.create (anyFlow precedence)) =
      install .ipv4 (anyRule precedence) {} := by
  refine attempt_ok ?_
  have parsed : (anyFlow precedence).rule freed = .ok (anyRule precedence) := anyFlow_rule precedence
  have call := aclInv_start.getAclTableIndx_new parsed rfl (by decide)
  rw [exec, AclOp.call, call]
  rfl

/-- A rule of each type. -/
theorem installed_netFlow :
    ∃ i s', (AclOp.create netFlow).call id
        (run (attempt (AclOp.exec id)) {} [.create (anyFlow 1)]) = .ok (some i, s') ∧
      run (attempt (AclOp.exec id)) {} [.create (anyFlow 1), .create netFlow] = s' ∧
      Installed id netFlow i (run (attempt (AclOp.exec id)) {} [.create (anyFlow 1)]) s' := by
  refine installed_run ?_ [.create (anyFlow 1)] netFlow (prefix_refl _)
  refine ⟨⟨by rw [anyFlow_rule]; rfl, ?_, .inl (by decide)⟩, ⟨by rw [netFlow_rule]; rfl, ?_, .inl ?_⟩,
    trivial⟩
  · intro rule _ i member
    cases member
  · rw [anyFlow_first]
    intro rule isRule i member node root _
    rw [netFlow_rule] at isRule
    cases isRule
    obtain rfl := mem_singleton.mp member
    cases root
    decide +kernel
  · rw [anyFlow_first]
    decide

def anyFlows (n : Nat) : List AclOp :=
  (List.range n).map fun precedence => .create (anyFlow precedence)

def manyFlows (n : Nat) : AclState :=
  run (attempt (AclOp.exec id)) {} (anyFlows n)

theorem unused_of_manyFlows {n : Nat} (inv : AclInv id s) (small : n < 2 ^ 32)
    (used : ∀ i node, (s.tables i).root = some node → ∃ k < n, node = anyRule k) :
    s.findTable .ipv4 (anyRule n) s.indices = .ok none := by
  have unmistaken : Unmistaken id (anyFlow n) s := by
    intro rule isRule i _ node root lengths
    rw [anyFlow_rule] at isRule
    cases isRule
    obtain ⟨k, -, rfl⟩ := used i node root
    exact absurd rfl lengths
  rcases inv.tables.findTable (anyFlow_rule n) unmistaken with ⟨i, -, -, root⟩ | ⟨absent, -⟩
  · obtain ⟨k, below, same⟩ := used i _ root
    have userdata := congrArg (fun rule => rule.userdata.toNat) same
    simp only [anyRule, UInt32.toNat_ofNat'] at userdata
    omega
  · exact absent

theorem manyFlows_inv {n : Nat} (fits : n ≤ 255) :
    AclInv id (manyFlows n) ∧ (manyFlows n).indxOffset = n + 1 ∧
      (∀ i node, ((manyFlows n).tables i).root = some node → ∃ k < n, node = anyRule k) ∧
      Guarded (attempt (exec id)) (fun s op => (op.call id s).isOk = true) {} (anyFlows n) := by
  induction n with
  | zero =>
    refine ⟨aclInv_start, rfl, fun i node root => ?_, trivial⟩
    have empty : none = some node := root
    cases empty
  | succ n ih =>
    obtain ⟨inv, offset, used, guarded⟩ := ih (by omega)
    have call : (create (anyFlow n)).call id (manyFlows n) =
        .ok (some (n + 1), (manyFlows n).install .ipv4 (anyRule n)) := by
      rw [← offset]
      exact inv.getAclTableIndx_new (anyFlow_rule n) (unused_of_manyFlows inv (by omega) used)
        (by omega)
    have next : manyFlows (n + 1) = (manyFlows n).install .ipv4 (anyRule n) := by
      rw [manyFlows, anyFlows, range_succ, map_append, run_append]
      exact attempt_ok (by rw [exec, ← anyFlows, ← manyFlows, call]; rfl)
    rw [next]
    refine ⟨inv.install (anyFlow_rule n) (by omega), by simp [offset], fun i node root => ?_, ?_⟩
    · by_cases here : i = (manyFlows n).indxOffset
      · subst here
        rw [(install_self _).1] at root
        cases root
        exact ⟨n, by omega, rfl⟩
      · rw [(install_of_ne _ here).1] at root
        obtain ⟨k, below, same⟩ := used i node root
        exact ⟨k, by omega, same⟩
    · rw [anyFlows, range_succ, map_append, guarded_append]
      refine ⟨guarded, ?_, trivial⟩
      change ((create (anyFlow n)).call id (manyFlows n)).isOk = true
      rw [call]
      rfl

theorem AclInv.not_installed {filter : SdfPktFilter} {rule : AclRule}
    (inv : AclInv freed s) (parsed : filter.rule freed = .ok rule)
    (absent : s.findTable filter.ruleIpType rule s.indices = .ok none) (full : s.indxOffset = 256) :
    ∃ s', (AclOp.create filter).call freed s = .ok (some 256, s') ∧
      ¬ Installed freed filter 256 s s' := by
  have first : ((s.enter filter.ruleIpType rule).tables (256 % 256)).root = none := by
    cases root : (s.tables 0).root with
    | none => simp [enter, full, root]
    | some node => exact absurd (inv.held 0 node root).1 (by decide)
  have context : (((s.enter filter.ruleIpType rule).configs 256).context
      filter.ruleIpType).isNone = false := by
    simp [enter, full, emptyConfig_context]
  have call := inv.tables.getAclTableIndx_enter parsed absent (by rw [full]; decide)
  rw [full, resetAndBuildRules_none first context, except_ok_bind] at call
  refine ⟨_, call, fun installed => ?_⟩
  obtain ⟨ctx, isContext, built⟩ := installed.built
  have empty : ctx = ⟨[], some (5, [])⟩ := by
    simp only [setConfig, enter, full, update_self] at isContext
    cases type : filter.ruleIpType <;> rw [type] at isContext <;> cases isContext <;> rfl
  have stored : (((s.enter filter.ruleIpType rule).setConfig 256
      (BuildConfig.modify (fun _ => ⟨[], some (5, [])⟩) filter.ruleIpType)).tables 256).root.toList =
      [rule] := by
    simp [setConfig, enter, full]
  rw [empty, stored] at built
  cases built

/-- 255 filters that differ in their precedence are installed, the next one is not. -/
theorem anyFlow_256_not_installed :
    Guarded (attempt (AclOp.exec id)) (fun s op => (op.call id s).isOk = true) {} (anyFlows 255) ∧
      ∃ s', (AclOp.create (anyFlow 255)).call id (manyFlows 255) = .ok (some 256, s') ∧
        ¬ Installed id (anyFlow 255) 256 (manyFlows 255) s' := by
  obtain ⟨inv, offset, used, guarded⟩ := manyFlows_inv (le_refl 255)
  exact ⟨guarded, inv.not_installed (anyFlow_rule 255)
    (unused_of_manyFlows inv (by decide) used) offset⟩

end

end Epc.Up

import Epc.Cp.FlowCompare
import Epc.Cp.UeContext

/-! The dynamic rules of the bearers of a PDN and the QoS that a bearer has from them:
`store_dynamic_rules_in_policy`, `update_bearer_rule`, `delete_bearer_rule` and `update_bearer_qos`
(`pfcp_messages/pfcp_gx.c`), with the places where the actions of a policy are carried out
(`gx_update_bearer_req`, and `pfcp_messages/pfcp_session.c` for a new bearer). -/

namespace Epc.Cp

structure Arp where
  preemptionVulnerability : UInt8 := 0
  priorityLevel : UInt8 := 0
  preemptionCapability : UInt8 := 0
  deriving DecidableEq, Repr

structure BearerQos where
  qci : UInt8 := 0
  arp : Arp := {}
  ulMbr : UInt64 := 0
  dlMbr : UInt64 := 0
  ulGbr : UInt64 := 0
  dlGbr : UInt64 := 0
  deriving DecidableEq, Repr

/-- What a policy is decided on in `dynamic_rule_t`; `flowDesc` has `num_flw_desc` entries. -/
structure PolicyRule where
  ruleName : List Char
  qos : BearerQos
  flowDesc : List SdfPktFltr
  deriving DecidableEq, Repr

/-- `GxQosInformation`, with the members of the ARP that are present. -/
structure GxQosInformation where
  qosClassIdentifier : UInt8
  priorityLevel : Option UInt8 := none
  preEmptionCapability : Option UInt8 := none
  preEmptionVulnerability : Option UInt8 := none
  maxRequestedBandwidthUl : UInt32 := 0
  maxRequestedBandwidthDl : UInt32 := 0
  guaranteedBitrateUl : UInt32 := 0
  guaranteedBitrateDl : UInt32 := 0
  deriving DecidableEq, Repr

/-- `GxChargingRuleDefinition` with a name and the flows that `fill_sdf_strctr` makes. -/
structure RuleDefinition where
  chargingRuleName : List Char
  qosInformation : Option GxQosInformation
  flowInformation : Option (List SdfPktFltr)
  deriving DecidableEq, Repr

def GxQosInformation.fill (info : GxQosInformation) (arp : Arp) : BearerQos where
  qci := info.qosClassIdentifier
  arp :=
    { priorityLevel := info.priorityLevel.getD arp.priorityLevel
      preemptionCapability := info.preEmptionCapability.getD arp.preemptionCapability
      preemptionVulnerability := info.preEmptionVulnerability.getD arp.preemptionVulnerability }
  ulMbr := info.maxRequestedBandwidthUl.toUInt64
  dlMbr := info.maxRequestedBandwidthDl.toUInt64
  ulGbr := info.guaranteedBitrateUl.toUInt64
  dlGbr := info.guaranteedBitrateDl.toUInt64

/-- `fill_charging_rule_definition` over the old policy entry. -/
def fillChargingRuleDefinition (definition : RuleDefinition) (old : PolicyRule) : PolicyRule where
  ruleName := definition.chargingRuleName
  qos := match definition.qosInformation with
    | none => old.qos
    | some info => info.fill old.qos.arp
  flowDesc := definition.flowInformation.getD old.flowDesc

inductive RuleAction where
  | invalid
  | add
  | modify
  | modifyAddRule
  | modifyRemoveRule
  | delete
  deriving DecidableEq, Repr

def maxRulePerBearer : Nat := 16

/-- The rules of `eps_bearer`; `none` is one that was freed and is still referred to. -/
structure RuleBearer where
  epsBearerId : Nat
  qos : BearerQos := {}
  dynamicRules : List (Option PolicyRule) := []
  flowDescCheck : Bool := false
  qosBearerCheck : Bool := false
  arpBearerCheck : Bool := false
  action : RuleAction := .invalid
  deriving DecidableEq, Repr

def BearerQos.addRule (qos : BearerQos) (rule : PolicyRule) : BearerQos where
  qci := rule.qos.qci
  arp := rule.qos.arp
  ulGbr := qos.ulGbr + rule.qos.ulGbr
  dlGbr := qos.dlGbr + rule.qos.dlGbr
  ulMbr := if qos.ulMbr < rule.qos.ulMbr then rule.qos.ulMbr else qos.ulMbr
  dlMbr := if qos.dlMbr < rule.qos.dlMbr then rule.qos.dlMbr else qos.dlMbr

def qosOfRules : BearerQos → List (Option PolicyRule) → Option BearerQos
  | qos, [] => some qos
  | _, none :: _ => none
  | qos, some rule :: rules => qosOfRules (qos.addRule rule) rules

/-- `update_bearer_qos`; none where a freed rule is read. -/
def updateBearerQos (bearer : RuleBearer) : Option RuleBearer :=
  (qosOfRules {} bearer.dynamicRules).map fun qos => { bearer with qos }

def compareBearerQos (old new : PolicyRule) : Bool :=
  old.qos != new.qos

def compareBearerArp (old new : PolicyRule) : Bool :=
  old.qos.arp != new.qos.arp

/-- `update_bearer_rule` with `RULE_ACTION_ADD`; there are sixteen places. -/
def addBearerRule (rule : PolicyRule) (bearer : RuleBearer) : Option RuleBearer :=
  if bearer.dynamicRules.length < maxRulePerBearer then
    updateBearerQos
      { bearer with
        flowDescCheck := true
        qosBearerCheck := true
        dynamicRules := bearer.dynamicRules ++ [some rule] }
  else none

/-- The first rule of that name, and the array with the rule in its place. -/
def replaceRule (rule : PolicyRule) :
    List (Option PolicyRule) → Option (Option (PolicyRule × List (Option PolicyRule)))
  | [] => some none
  | none :: _ => none
  | some old :: rules =>
    if rule.ruleName = old.ruleName then some (some (old, some rule :: rules))
    else (replaceRule rule rules).map (·.map fun found => (found.1, some old :: found.2))

/-- `update_bearer_rule` with `RULE_ACTION_MODIFY`: whether it returns zero, and the bearer. -/
def modifyBearerRule (rule : PolicyRule) (bearer : RuleBearer) : Option (Bool × RuleBearer) :=
  match replaceRule rule bearer.dynamicRules with
  | none => none
  | some none => some (true, bearer)
  | some (some (old, rules)) =>
    let bearer :=
      { bearer with
        flowDescCheck := compareFlowDescription old.flowDesc rule.flowDesc != 0
        qosBearerCheck := compareBearerQos old rule
        arpBearerCheck := compareBearerArp old rule }
    if bearer.flowDescCheck || bearer.qosBearerCheck then
      let bearer := { bearer with dynamicRules := rules }
      (if bearer.qosBearerCheck then updateBearerQos bearer else some bearer).map fun bearer =>
        (true, bearer)
    else some (false, bearer)

/-- The loop of `delete_bearer_rule`. The first rule with the name is freed and the array closed up;
a further one is freed and stays in the array. -/
def deleteLoop (ruleName : List Char) : Bool → List (Option PolicyRule) →
    Option (List (Option PolicyRule))
  | _, [] => some []
  | _, none :: _ => none
  | found, some rule :: rules =>
    if ruleName = rule.ruleName then
      if found then (deleteLoop ruleName true rules).map (none :: ·)
      else deleteLoop ruleName true rules
    else (deleteLoop ruleName found rules).map (some rule :: ·)

def deleteBearerRule (ruleName : List Char) (bearer : RuleBearer) : Option RuleBearer := do
  let dynamicRules ← deleteLoop ruleName false bearer.dynamicRules
  let bearer := { bearer with dynamicRules }
  if bearer.qosBearerCheck then updateBearerQos bearer else some bearer

abbrev RuleBearers := Nat → Option RuleBearer

def getBearer (bearers : RuleBearers) (qos : BearerQos) : Option Nat :=
  (List.range (maxBearers * 2)).find? fun i =>
    (bearers i).any fun bearer => bearer.qos.qci == qos.qci && bearer.qos.arp == qos.arp

def changeArpForDedBearer (defaultBearerId : Nat) (qos : BearerQos) (bearers : RuleBearers) :
    RuleBearers :=
  fun i => (bearers i).map fun bearer =>
    if i < maxBearers ∧ bearer.epsBearerId ≠ defaultBearerId ∧ bearer.arpBearerCheck then
      { bearer with qos := { bearer.qos with arp := qos.arp } }
    else bearer

def RuleBearer.markRemoval (bearer : RuleBearer) : RuleBearer :=
  { bearer with action := .modifyRemoveRule, flowDescCheck := true, qosBearerCheck := true }

/-- The policy entries that a rule adds, if it is not refused, and the bearers. -/
structure Stored where
  pccRules : Option (List (PolicyRule × RuleAction))
  bearers : RuleBearers

/-- A rule for which no bearer with a rule has the QoS, by `bearer_index`. -/
def storeUnmatched (hss : Option Nat) (rule : PolicyRule) (index : Option Nat) (bearers : RuleBearers) :
    Option Stored :=
  match index.bind fun i => (bearers i).map fun old => (i, old) with
  | none => some { pccRules := some [(rule, .add)], bearers }
  | some (i, old) =>
    if 1 < old.dynamicRules.length then
      some
        { pccRules := some [(rule, .add), (rule, .modifyRemoveRule)]
          bearers := Function.update bearers i (some old.markRemoval) }
    else do
      let (_, bearer) ← modifyBearerRule rule old
      let bearers := Function.update bearers i (some bearer)
      let bearers := match hss with
        | some defaultBearerId =>
          if bearer.arpBearerCheck then changeArpForDedBearer defaultBearerId rule.qos bearers
          else bearers
        | none => bearers
      some
        { pccRules := some [(rule, .modify)]
          bearers := Function.update bearers i ((bearers i).map fun b => { b with action := .modify }) }

/-- A rule whose QoS the bearer at `b` has, which has rules. -/
def storeMatched (rule : PolicyRule) (b : Nat) (bearer : RuleBearer) (index : Option Nat)
    (bearers : RuleBearers) : Option Stored :=
  if bearer.epsBearerId = (index.map (· + 1)).getD 0 then do
    let (accepted, bearer) ← modifyBearerRule rule bearer
    if accepted then
      some
        { pccRules := some [(rule, .modify)]
          bearers := Function.update bearers b (some { bearer with action := .modify }) }
    else some { pccRules := none, bearers := Function.update bearers b (some bearer) }
  else
    match index with
    | none => do
        let bearer ← addBearerRule rule bearer
        some
          { pccRules := some [(rule, .modifyAddRule)]
            bearers := Function.update bearers b (some { bearer with action := .modifyAddRule }) }
    | some i =>
      match bearers i with
      | none => none
      | some old =>
        let removal := 1 < old.dynamicRules.length
        let bearers := Function.update bearers i
          (some (if removal then old.markRemoval else { old with action := .delete }))
        match bearers b with
        | none => none
        | some bearer => do
            let bearer ← addBearerRule rule bearer
            some
              { pccRules := some [(rule, if removal then .modifyRemoveRule else .delete),
                  (rule, .modifyAddRule)]
                bearers := Function.update bearers b
                  (some { bearer with action := .modifyAddRule }) }

/-- `store_dynamic_rules_in_policy` for one definition; `index` is the bearer of its name, `hss` the
default bearer in an HSS initiated QoS modification. -/
def storeDynamicRule (hss : Option Nat) (rule : PolicyRule) (index : Option Nat)
    (bearers : RuleBearers) : Option Stored :=
  match (getBearer bearers rule.qos).bind fun b => (bearers b).map fun bearer => (b, bearer) with
  | none => storeUnmatched hss rule index bearers
  | some (b, bearer) =>
    if bearer.dynamicRules = [] then some { pccRules := some [(rule, .add)], bearers }
    else storeMatched rule b bearer index bearers

/-- `store_dynamic_rules_in_policy` for one name to be removed. -/
def storeRemoval (index : Option Nat) (bearers : RuleBearers) : Option RuleBearers :=
  match index with
  | none => some bearers
  | some i =>
    (bearers i).map fun bearer =>
      Function.update bearers i (some
        (if 1 < bearer.dynamicRules.length then bearer.markRemoval
          else { bearer with action := .delete }))

/-- `gx_update_bearer_req` for an entry with `RULE_ACTION_MODIFY_REMOVE_RULE`. -/
def applyRemoval (ruleName : List Char) (index : Option Nat) (bearers : RuleBearers) :
    Option RuleBearers :=
  match index with
  | none => none
  | some i =>
    match bearers i with
    | none => some bearers
    | some bearer =>
      if (bearer.qosBearerCheck || bearer.flowDescCheck) && bearer.action == .modifyRemoveRule then
        (deleteBearerRule ruleName bearer).map fun bearer => Function.update bearers i (some bearer)
      else some bearers

/-- An entry with `RULE_ACTION_ADD`: the bearer with its QoS, or a new one at `slot`, takes over the
QoS. -/
def createBearerRule (rule : PolicyRule) (slot : Nat) (bearers : RuleBearers) : Option RuleBearers :=
  let (i, bearer) : Nat × RuleBearer :=
    match (getBearer bearers rule.qos).bind fun b => (bearers b).map fun bearer => (b, bearer) with
    | some found => found
    | none => (slot, { epsBearerId := slot + 1 })
  if bearer.dynamicRules.length < maxRulePerBearer then
    some (Function.update bearers i (some
      { bearer with qos := rule.qos, dynamicRules := bearer.dynamicRules ++ [some rule] }))
  else none

/-- What happens to the bearers of a PDN; `old` is the policy entry before. -/
inductive PolicyOp where
  | install (hss : Option Nat) (definition : RuleDefinition) (old : PolicyRule) (index : Option Nat)
  | remove (index : Option Nat)
  | applyRemoval (ruleName : List Char) (index : Option Nat)
  | create (rule : PolicyRule) (slot : Nat)
  | answered (index : Nat)
  deriving DecidableEq, Repr

def PolicyOp.exec (bearers : RuleBearers) : PolicyOp → Option RuleBearers
  | .install hss definition old index =>
    (storeDynamicRule hss (fillChargingRuleDefinition definition old) index bearers).map Stored.bearers
  | .remove index => storeRemoval index bearers
  | .applyRemoval ruleName index => Cp.applyRemoval ruleName index bearers
  | .create rule slot => createBearerRule rule slot bearers
  | .answered i =>
    (bearers i).map fun bearer =>
      Function.update bearers i (some
        { bearer with flowDescCheck := false, qosBearerCheck := false, arpBearerCheck := false })

end Epc.Cp

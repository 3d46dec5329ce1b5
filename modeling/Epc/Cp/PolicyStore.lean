import Epc.Cp.RuleDefinition
import Epc.Cp.RuleName

/-! `store_dynamic_rules_in_policy` (`pfcp_messages/pfcp_gx.c`): the Charging-Rule-Install and
Charging-Rule-Remove AVPs of a Gx message as entries of the policy of a PDN connection. The entries are
allocated once and reused. -/

namespace Epc.Cp.Policy

def maxRules : Nat := 32

def gtpv2cCauseInvalidReplyFromRemotePeer : Int := 107

/-- Why there is no policy: an undefined step, or a non-zero return value. -/
inductive Refusal where
  | undefined
  | cause (value : Int)
  deriving DecidableEq, Repr

/-- `pcc_rule_t`; the two members of the union are one rule. -/
structure PccRule where
  action : RuleAction
  predefinedRule : Bool
  rule : DynamicRule

def PccRule.zero : PccRule where
  action := .invalid
  predefinedRule := false
  rule := DynamicRule.zero

/-- The parts that the bearers are decided on. -/
def DynamicRule.policyRule (rule : DynamicRule) : PolicyRule where
  ruleName := rule.ruleName
  qos := rule.qos
  flowDesc := (rule.flowDesc.toList.take rule.numFlwDesc.toNat).map FlowDesc.sdfFlwDesc

/-- What a policy is stored with in `pdn_connection`; `prdefRules` are the predefined rules of each
bearer, `pcc_rule` has 32 places. -/
structure PolicyPdn where
  callId : UInt32
  defaultBearerId : UInt8
  hssInitiated : Bool
  bearers : RuleBearers
  prdefRules : Nat → List PolicyRule
  ruleNames : RuleNameHash
  count : UInt8 := 0
  numChargRuleInstall : UInt8 := 0
  numChargRuleModify : UInt8 := 0
  numChargRuleDelete : UInt8 := 0
  pccRule : Nat → Option PccRule

inductive Counter where
  | install
  | modify
  | delete
  deriving DecidableEq, Repr

namespace PolicyPdn

/-- The entry at `count`, allocated if it is not there. -/
def openEntry (pdn : PolicyPdn) : Except Refusal PccRule :=
  if pdn.count.toNat < maxRules then .ok ((pdn.pccRule pdn.count.toNat).getD PccRule.zero)
  else .error .undefined

def presentEntry (pdn : PolicyPdn) : Except Refusal PccRule :=
  if pdn.count.toNat < maxRules then
    match pdn.pccRule pdn.count.toNat with
    | some entry => .ok entry
    | none => .error .undefined
  else .error .undefined

/-- Writes the entry at `count` without counting it. -/
def setEntry (pdn : PolicyPdn) (entry : PccRule) : PolicyPdn :=
  { pdn with pccRule := Function.update pdn.pccRule pdn.count.toNat (some entry) }

def bump (pdn : PolicyPdn) : Counter → PolicyPdn
  | .install => { pdn with numChargRuleInstall := pdn.numChargRuleInstall + 1 }
  | .modify => { pdn with numChargRuleModify := pdn.numChargRuleModify + 1 }
  | .delete => { pdn with numChargRuleDelete := pdn.numChargRuleDelete + 1 }

/-- Sets the action of the entry at `count`, and counts it. -/
def enter (pdn : PolicyPdn) (entry : PccRule) (action : RuleAction) (counter : Counter) : PolicyPdn :=
  { (pdn.setEntry { entry with action }).bump counter with count := pdn.count + 1 }

def setBearer (pdn : PolicyPdn) (i : Nat) (bearer : RuleBearer) : PolicyPdn :=
  { pdn with bearers := Function.update pdn.bearers i (some bearer) }

def bearerOf (pdn : PolicyPdn) (qos : BearerQos) : Option (Nat × RuleBearer) :=
  (getBearer pdn.bearers qos).bind fun b => (pdn.bearers b).map fun bearer => (b, bearer)

end PolicyPdn

def orUndefined {α : Type} : Option α → Except Refusal α
  | some a => .ok a
  | none => .error .undefined

section

variable (str : RteString) (definition : ChargingRuleDefinition)

def PccRule.fillDefinition (entry : PccRule) : Except Refusal PccRule :=
  orUndefined ((entry.rule.fill str definition).map fun rule => { entry with rule })

/-- The rule is on the bearer at `i`, which has others: a new bearer and a removal. -/
def storeMoved (entry : PccRule) (i : Nat) (old : RuleBearer) (pdn : PolicyPdn) :
    Except Refusal PolicyPdn := do
  let pdn := pdn.enter entry .add .install
  let second ← pdn.openEntry
  let second ← second.fillDefinition str definition
  .ok ((pdn.setBearer i old.markRemoval).enter second .modifyRemoveRule .modify)

/-- The rule is the only one of the bearer at `i`; the result of `update_bearer_rule` is ignored. -/
def storeChanged (entry : PccRule) (i : Nat) (old : RuleBearer) (pdn : PolicyPdn) :
    Except Refusal PolicyPdn := do
  let (_, bearer) ← orUndefined (modifyBearerRule entry.rule.policyRule old)
  let pdn := pdn.setBearer i bearer
  let pdn :=
    if pdn.hssInitiated ∧ bearer.arpBearerCheck then
      { pdn with
        bearers := changeArpForDedBearer pdn.defaultBearerId.toNat entry.rule.qos pdn.bearers }
    else pdn
  let bearers := Function.update pdn.bearers i
    ((pdn.bearers i).map fun bearer => { bearer with action := .modify })
  .ok ({ pdn with bearers }.enter entry .modify .modify)

/-- No bearer with rules has the rule's QoS; `index` is what the map of names has. -/
def storeUnmatchedEntry (entry : PccRule) (found : Bool) (index : Option Nat) (pdn : PolicyPdn) :
    Except Refusal PolicyPdn :=
  match (if found then none else index).bind fun i => (pdn.bearers i).map fun old => (i, old) with
  | none => .ok (pdn.enter entry .add .install)
  | some (i, old) =>
    if 1 < old.dynamicRules.length then storeMoved str definition entry i old pdn
    else storeChanged entry i old pdn

/-- The rule goes from the bearer at `i` to the one at `b`. The second entry is not allocated. -/
def storeTransferred (entry : PccRule) (b i : Nat) (old : RuleBearer) (pdn : PolicyPdn) :
    Except Refusal PolicyPdn := do
  let pdn :=
    if 1 < old.dynamicRules.length then
      (pdn.setBearer i old.markRemoval).enter entry .modifyRemoveRule .modify
    else (pdn.setBearer i { old with action := .delete }).enter entry .delete .delete
  let second ← pdn.presentEntry
  let second ← second.fillDefinition str definition
  let bearer ← orUndefined (pdn.bearers b)
  let bearer ← orUndefined (addBearerRule second.rule.policyRule bearer)
  .ok ((pdn.setBearer b { bearer with action := .modifyAddRule }).enter second .modifyAddRule .modify)

/-- The bearer at `b` has rules and the QoS of the rule. -/
def storeMatchedEntry (entry : PccRule) (b : Nat) (bearer : RuleBearer) (index : Option Nat)
    (pdn : PolicyPdn) : Except Refusal PolicyPdn :=
  if bearer.epsBearerId = (index.map (· + 1)).getD 0 then do
    let (accepted, bearer) ← orUndefined (modifyBearerRule entry.rule.policyRule bearer)
    if accepted then
      .ok ((pdn.setBearer b { bearer with action := .modify }).enter entry .modify .modify)
    else .error (.cause (-1))
  else
    match index with
    | none => do
        let bearer ← orUndefined (addBearerRule entry.rule.policyRule bearer)
        .ok ((pdn.setBearer b { bearer with action := .modifyAddRule }).enter entry .modifyAddRule .modify)
    | some i =>
      match pdn.bearers i with
      | none => .error .undefined
      | some old => storeTransferred str definition entry b i old pdn

def storeDefinition (pdn : PolicyPdn) : Except Refusal PolicyPdn :=
  match definition.chargingRuleName with
  | none => .error (.cause gtpv2cCauseInvalidReplyFromRemotePeer)
  | some name => do
      let entry ← pdn.openEntry
      let entry ← entry.fillDefinition str definition
      let entry := { entry with predefinedRule := false }
      let index := getRuleNameEntry (NamedRule.key ⟨pdn.callId, false, name.text⟩) pdn.ruleNames
      match pdn.bearerOf entry.rule.qos with
      | none => storeUnmatchedEntry str definition entry false index pdn
      | some (b, bearer) =>
        if bearer.dynamicRules = [] then storeUnmatchedEntry str definition entry true index pdn
        else storeMatchedEntry str definition entry b bearer index pdn

end

/-- `pkt_fltr`; the ports are in network byte order. -/
structure PktFltr where
  direction : UInt8
  proto : UInt8
  protoMask : UInt8
  v4 : UInt8
  localIpMask : UInt8
  remoteIpMask : UInt8
  localPortLow : UInt16
  localPortHigh : UInt16
  remotePortLow : UInt16
  remotePortHigh : UInt16
  localIpAddr : List UInt8
  remoteIpAddr : List UInt8
  localIp6Addr : List UInt8
  remoteIp6Addr : List UInt8

structure MtrEntry where
  ulMbr : UInt64
  dlMbr : UInt64
  ulGbr : UInt64
  dlGbr : UInt64

/-- A predefined rule in `struct pcc_rules`, its SDF and meter indices looked up. -/
structure PccRules where
  ruleName : List Char
  online : UInt8
  offline : UInt8
  flowStatus : UInt8
  reportLevel : UInt8
  precedence : UInt32
  ratingGroup : UInt32
  serviceId : UInt32
  sdf : List (Option PktFltr)
  mtr : Option (Option MtrEntry)
  qci : UInt8
  arp : Arp
  few : sdf.length ≤ 16

def swapPort (port : UInt16) : UInt16 :=
  (port <<< 8) ||| (port >>> 8)

/-- The filter of a flow from an SDF rule; the flag of the other family stays. -/
def PktFltr.toSdf (f : PktFltr) (old : SdfPktFltr) : SdfPktFltr :=
  let filter := { old with
    protoId := f.proto
    protoMask := f.protoMask
    direction := f.direction
    localIpMask := f.localIpMask
    remoteIpMask := f.remoteIpMask
    localPortLow := swapPort f.localPortLow
    localPortHigh := swapPort f.localPortHigh
    remotePortLow := swapPort f.remotePortLow
    remotePortHigh := swapPort f.remotePortHigh }
  if f.v4 ≠ 0 then
    { filter with
      v4 := 1
      ulocalip := f.localIpAddr ++ old.ulocalip.drop 4
      uremoteip := f.remoteIpAddr ++ old.uremoteip.drop 4 }
  else { filter with v6 := 1, ulocalip := f.localIp6Addr, uremoteip := f.remoteIp6Addr }

/-- The flows of a predefined rule; an SDF index without a rule leaves its flow. -/
def PccRules.flows (pcc : PccRules) (old : Vector FlowDesc maxFlowDesc) : Vector FlowDesc maxFlowDesc :=
  Vector.ofFn fun i =>
    match pcc.sdf[i.val]? with
    | some (some f) =>
      { old[i] with
        flowDirection := f.direction.toNat
        sdfFlwDesc := f.toSdf old[i].sdfFlwDesc }
    | _ => old[i]

section

abbrev PccTable := List Char → Option PccRules

variable (predefined : PccTable)

def fillPredefinedRuleInBearer (pdn : PolicyPdn) (name : List Char) (old : DynamicRule) :
    Except Refusal DynamicRule :=
  match predefined name with
  | none => .error (.cause gtpv2cCauseInvalidReplyFromRemotePeer)
  | some pcc =>
    if pcc.sdf = [] then .error (.cause gtpv2cCauseSystemFailure)
    else if pcc.mtr.any (·.isNone) then .error (.cause gtpv2cCauseSystemFailure)
    else
      match getEbiIndex pdn.defaultBearerId.toNat with
      | none => .error (.cause gtpv2cCauseSystemFailure)
      | some ebiIndex =>
        match pdn.bearers ebiIndex with
        | none => .error .undefined
        | some bearer =>
          if bearer.qos.qci = 0 then
            .error (.cause gtpv2cCauseInvalidReplyFromRemotePeer)
          else
            let qos := match pcc.mtr with
              | some (some mtr) =>
                { old.qos with
                  ulMbr := mtr.ulMbr, dlMbr := mtr.dlMbr, ulGbr := mtr.ulGbr
                  dlGbr := mtr.dlGbr }
              | _ => old.qos
            .ok
              { old with
                numFlwDesc := UInt8.ofNat pcc.sdf.length
                online := pcc.online.toNat
                offline := pcc.offline.toNat
                flowStatus := pcc.flowStatus.toNat
                reportingLevel := pcc.reportLevel.toNat
                precedence := pcc.precedence
                serviceId := pcc.serviceId
                ratingGroup := pcc.ratingGroup
                ruleName := pcc.ruleName
                qos := if pcc.qci = 0 then bearer.qos
                  else { qos with qci := pcc.qci, arp := pcc.arp }
                flowDesc := pcc.flows old.flowDesc }

/-- `update_prdef_bearer_rule` with `RULE_ACTION_ADD`, and the entry in the map of names. -/
def addPrdefBearerRule (rule : PolicyRule) (key : List Char) (b : Nat) (bearer : RuleBearer)
    (pdn : PolicyPdn) : Except Refusal PolicyPdn :=
  if (pdn.prdefRules b).length < maxRulePerBearer then
    match getEbiIndex bearer.epsBearerId with
    | none => .error (.cause gtpv2cCauseSystemFailure)
    | some ebiIndex =>
      .ok
        { pdn with
          prdefRules := Function.update pdn.prdefRules b (pdn.prdefRules b ++ [rule])
          ruleNames := addRuleNameEntry key ebiIndex pdn.ruleNames }
  else .error .undefined

def storePredefined (name : OctetText) (pdn : PolicyPdn) : Except Refusal PolicyPdn := do
  let entry ← pdn.openEntry
  let rule ← fillPredefinedRuleInBearer predefined pdn name.text entry.rule
  let entry : PccRule := { entry with predefinedRule := true, rule }
  let key := NamedRule.key ⟨pdn.callId, true, name.text⟩
  match pdn.bearerOf rule.qos with
  | none => .ok (pdn.enter entry .add .install)
  | some (b, bearer) =>
    if pdn.prdefRules b = [] then .ok (pdn.enter entry .add .install)
    else if bearer.epsBearerId = ((getRuleNameEntry key pdn.ruleNames).map (· + 1)).getD 0 then
      .error (.cause gtpv2cCauseSystemFailure)
    else do
      let pdn ← addPrdefBearerRule rule.policyRule key b bearer pdn
      .ok ((pdn.setBearer b { bearer with action := .modify }).enter entry .modify .modify)

end

structure ChargingRuleInstall where
  definitions : Option (List ChargingRuleDefinition)
  names : Option (List OctetText)

def storeAll {α : Type} (store : α → PolicyPdn → Except Refusal PolicyPdn) :
    List α → PolicyPdn → Except Refusal PolicyPdn
  | [], pdn => .ok pdn
  | a :: rest, pdn => do storeAll store rest (← store a pdn)

def storeInstall (str : RteString) (predefined : PccTable) (avp : ChargingRuleInstall)
    (pdn : PolicyPdn) : Except Refusal PolicyPdn := do
  let pdn ← storeAll (storeDefinition str) (avp.definitions.getD []) pdn
  match avp.names with
  | some names => storeAll (storePredefined predefined) names pdn
  | none =>
    if avp.definitions.isNone then .error (.cause gtpv2cCauseInvalidReplyFromRemotePeer) else .ok pdn

/-- `GxChargingRuleRemove`, by its rule names. -/
abbrev ChargingRuleRemove := Option (List OctetText)

/-- The rules that count for the removal of one of a bearer. -/
def PolicyPdn.numRuleFilters (pdn : PolicyPdn) (predefinedRule : Bool) (i : Nat) (bearer : RuleBearer) :
    Nat :=
  if predefinedRule then (pdn.prdefRules i).length else bearer.dynamicRules.length

/-- Removes a rule by its first name; whether as a predefined one is what the old entry says. -/
def storeRemovalOf (name : OctetText) (pdn : PolicyPdn) : Except Refusal PolicyPdn := do
  let entry ← pdn.openEntry
  let entry := { entry with rule := { entry.rule with ruleName := name.text } }
  match getRuleNameEntry (NamedRule.key ⟨pdn.callId, entry.predefinedRule, name.text⟩) pdn.ruleNames with
  | none => .ok (pdn.setEntry entry)
  | some i =>
    match pdn.bearers i with
    | none => .error .undefined
    | some bearer =>
      if 1 < pdn.numRuleFilters entry.predefinedRule i bearer then
        .ok ((pdn.setBearer i bearer.markRemoval).enter entry .modifyRemoveRule .modify)
      else .ok ((pdn.setBearer i { bearer with action := .delete }).enter entry .delete .delete)

/-- One Charging-Rule-Remove: only the first name is read, whether there is one or not. -/
def storeRemove (avp : ChargingRuleRemove) (pdn : PolicyPdn) : Except Refusal PolicyPdn :=
  match avp with
  | none => .ok pdn
  | some [] => .error .undefined
  | some (name :: _) => storeRemovalOf name pdn

def PolicyPdn.clearPolicy (pdn : PolicyPdn) : PolicyPdn :=
  { pdn with count := 0, numChargRuleInstall := 0, numChargRuleModify := 0, numChargRuleDelete := 0 }

/-- `store_dynamic_rules_in_policy`, where zero is returned. -/
def storeDynamicRulesInPolicy (str : RteString) (predefined : PccTable)
    (chargingRuleInstall : List ChargingRuleInstall) (chargingRuleRemove : List ChargingRuleRemove)
    (pdn : PolicyPdn) : Except Refusal PolicyPdn := do
  let pdn ← storeAll (storeInstall str predefined) chargingRuleInstall pdn.clearPolicy
  storeAll storeRemove chargingRuleRemove pdn

def PolicyPdn.entries (pdn : PolicyPdn) : List PccRule :=
  (List.range pdn.count.toNat).filterMap pdn.pccRule

def Counter.ofAction : RuleAction → Option Counter
  | .invalid => none
  | .add => some .install
  | .modify => some .modify
  | .modifyAddRule => some .modify
  | .modifyRemoveRule => some .modify
  | .delete => some .delete

def PolicyPdn.numEntries (pdn : PolicyPdn) (counter : Counter) : Nat :=
  pdn.entries.countP fun entry => Counter.ofAction entry.action = some counter

/-- The counters say what the entries are. -/
structure PolicyPdn.Counted (pdn : PolicyPdn) : Prop where
  entries : pdn.entries.length = pdn.count.toNat
  total : pdn.count.toNat = pdn.numChargRuleInstall.toNat + pdn.numChargRuleModify.toNat +
    pdn.numChargRuleDelete.toNat
  install : pdn.numChargRuleInstall.toNat = pdn.numEntries .install
  modify : pdn.numChargRuleModify.toNat = pdn.numEntries .modify
  delete : pdn.numChargRuleDelete.toNat = pdn.numEntries .delete

/-- A rule with the name is on a bearer of the connection. -/
def PolicyPdn.OnBearer (pdn : PolicyPdn) (name : List Char) : Prop :=
  ∃ i bearer, pdn.bearers i = some bearer ∧
    ((∃ rule, some rule ∈ bearer.dynamicRules ∧ rule.ruleName = name) ∨
      ∃ rule ∈ pdn.prdefRules i, rule.ruleName = name)

/-- The rules of the bearers are in the map of rule names. -/
def PolicyPdn.Registered (pdn : PolicyPdn) : Prop :=
  ∀ i bearer, pdn.bearers i = some bearer →
    (∀ rule, some rule ∈ bearer.dynamicRules →
      getRuleNameEntry (NamedRule.key ⟨pdn.callId, false, rule.ruleName⟩) pdn.ruleNames = some i) ∧
    ∀ rule ∈ pdn.prdefRules i,
      getRuleNameEntry (NamedRule.key ⟨pdn.callId, true, rule.ruleName⟩) pdn.ruleNames = some i

def Named (avps : List ChargingRuleRemove) (name : List Char) : Prop :=
  ∃ names, some names ∈ avps ∧ ∃ octets ∈ names, octets.text = name

def numNames (avps : List ChargingRuleRemove) : Nat :=
  (avps.map fun avp => (avp.getD []).length).sum

/-- The named rules on the bearers have one removal entry each, and there is no other. -/
structure Removed (pdn : PolicyPdn) (avps : List ChargingRuleRemove) (pdn' : PolicyPdn) : Prop where
  actions : ∀ entry ∈ pdn'.entries, entry.action = .delete ∨ entry.action = .modifyRemoveRule
  only : ∀ entry ∈ pdn'.entries,
    Named avps entry.rule.ruleName ∧ pdn.OnBearer entry.rule.ruleName
  once : ∀ name, Named avps name → pdn.OnBearer name →
    pdn'.entries.countP (fun entry => entry.rule.ruleName = name) = 1

def firstNames (avps : List ChargingRuleRemove) : List OctetText :=
  avps.filterMap fun avp => avp.bind List.head?

def PolicyPdn.heldPredefined (pdn : PolicyPdn) (k : Nat) : Bool :=
  (pdn.pccRule k).any PccRule.predefinedRule

/-- What the map of rule names has for each name: under the name alone where the entry held a
predefined rule, with the call id elsewhere. -/
def PolicyPdn.lookups (pdn : PolicyPdn) : Nat → List OctetText → List (List Char × Option Nat)
  | _, [] => []
  | k, name :: rest =>
    let found := getRuleNameEntry
      (NamedRule.key ⟨pdn.callId, pdn.heldPredefined k, name.text⟩) pdn.ruleNames
    (name.text, found) :: pdn.lookups (if found.isSome then k + 1 else k) rest

/-- Every AVP has a name, each named rule on the bearers is found for exactly one first name, and
nothing else is. -/
structure PolicyPdn.Answers (pdn : PolicyPdn) (avps : List ChargingRuleRemove) : Prop where
  first : some [] ∉ avps
  onBearer : ∀ lookup ∈ pdn.lookups 0 (firstNames avps), ∀ i, lookup.2 = some i →
    (pdn.bearers i).isSome ∧ pdn.OnBearer lookup.1
  once : ∀ name, Named avps name → pdn.OnBearer name →
    (pdn.lookups 0 (firstNames avps)).countP (fun lookup => lookup.1 = name ∧ lookup.2.isSome) = 1

end Epc.Cp.Policy

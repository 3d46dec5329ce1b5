import Epc.Cp.BearerRules

/-! `fill_charging_rule_definition` (`pfcp_messages/pfcp_gx.c`) on the entry of a policy, with all that the
entry holds from an earlier rule. -/

namespace Epc.Cp.Policy

def maxSdfDescLen : Nat := 512

def maxFlowDesc : Nat := 32

/-- A text in a Gx octet string, of at most 255 octets. -/
structure OctetText where
  text : List Char
  terminated : '\x00' ∉ text
  fits : text.length ≤ 255
  deriving DecidableEq

/-- `flow_desc_t`; the bytes of `sdf_flow_description` behind the list are zero. -/
structure FlowDesc where
  sdfFlowDescription : List Char := []
  flowDescLen : UInt16 := 0
  flowDirection : Int := 0
  sdfFlwDesc : SdfPktFltr := SdfPktFltr.zero
  deriving DecidableEq, Repr

def FlowDesc.zero : FlowDesc := {}

structure DynamicRule where
  numFlwDesc : UInt8 := 0
  online : Int := 0
  offline : Int := 0
  flowStatus : Int := 0
  reportingLevel : Int := 0
  precedence : UInt32 := 0
  serviceId : UInt32 := 0
  ratingGroup : UInt32 := 0
  defBearerIndication : Int := 0
  ruleName : List Char := []
  afChargingIdString : List Char := []
  qos : BearerQos := {}
  flowDesc : Vector FlowDesc maxFlowDesc := Vector.replicate maxFlowDesc FlowDesc.zero
  deriving DecidableEq

/-- A rule as `rte_zmalloc_socket` returns it. -/
def DynamicRule.zero : DynamicRule := {}

/-- `GxFlowInformation`; `flow_direction` has a value without being present. -/
structure FlowInformation where
  hasFlowDirection : Bool
  flowDirection : Int
  flowDescription : Option OctetText
  deriving DecidableEq

structure ChargingRuleDefinition where
  online : Option Int := none
  offline : Option Int := none
  flowStatus : Option Int := none
  reportingLevel : Option Int := none
  precedence : Option UInt32 := none
  serviceIdentifier : Option UInt32 := none
  ratingGroup : Option UInt32 := none
  defaultBearerIndication : Option Int := none
  afChargingIdentifier : Option OctetText := none
  flowInformation : Option (List FlowInformation) := none
  qosInformation : Option GxQosInformation := none
  chargingRuleName : Option OctetText := none
  deriving DecidableEq

def bindToApplicableBearer : Int := 1

section

variable (str : RteString)

/-- The loop of `fill_sdf_strctr`: a description that is not permitted ends it, a missing piece is
read from nowhere. -/
def fillTokens : List (List Char × Nat) → SdfPktFltr × Nat → Option SdfPktFltr
  | [], s => some s.1
  | token :: tokens, s =>
    if token.2 = 0 ∧ token.1 ≠ "permit".toList then some s.1
    else (fillToken str s token).bind (fillTokens tokens)

def sdfStrctrAfter (text : List Char) (pktFilter : SdfPktFltr) : Option SdfPktFltr :=
  let flds := str.strsplit text numVals ' '
  if numVals < flds.length then some pktFilter
  else fillTokens str flds.zipIdx (pktFilter, 0)

def overlay (text buffer : List Char) : List Char :=
  text ++ buffer.drop text.length

/-- One flow. The description is copied without a terminator, so the rest of the old one is read
behind it. The terminators left by the splitting are left out. -/
def FlowDesc.fill (info : FlowInformation) (old : FlowDesc) : Option FlowDesc :=
  let flow := { old with
    flowDirection := if info.hasFlowDirection then info.flowDirection else old.flowDirection }
  match info.flowDescription with
  | none => some flow
  | some description => do
      let buffer := overlay description.text old.sdfFlowDescription
      let filter ← sdfStrctrAfter str ((buffer.takeWhile (· ≠ '\x00')).take maxSdfDescLen)
        old.sdfFlwDesc
      some { flow with
        sdfFlowDescription := buffer
        flowDescLen := UInt16.ofNat description.text.length
        sdfFlwDesc := { filter with direction := UInt8.ofInt info.flowDirection } }

/-- The loop over the flows; the array has no more than 32. -/
def fillFlows : Nat → List FlowInformation → Vector FlowDesc maxFlowDesc →
    Option (Vector FlowDesc maxFlowDesc)
  | _, [], flows => some flows
  | idx, info :: rest, flows =>
    if inside : idx < maxFlowDesc then do
      let flow ← flows[idx].fill str info
      fillFlows (idx + 1) rest (flows.set idx flow inside)
    else none

/-- The flows of the rule; without flow information they stay. -/
def fillFlowInformation (definition : ChargingRuleDefinition) (old : DynamicRule) :
    Option (Vector FlowDesc maxFlowDesc) :=
  match definition.flowInformation with
  | none => some old.flowDesc
  | some infos => fillFlows str 0 infos old.flowDesc

def DynamicRule.fill (definition : ChargingRuleDefinition) (old : DynamicRule) :
    Option DynamicRule :=
  (fillFlowInformation str definition old).map fun flowDesc =>
    { numFlwDesc := (definition.flowInformation.map fun infos => UInt8.ofNat infos.length).getD
        old.numFlwDesc
      online := definition.online.getD old.online
      offline := definition.offline.getD old.offline
      flowStatus := definition.flowStatus.getD old.flowStatus
      reportingLevel := definition.reportingLevel.getD old.reportingLevel
      precedence := definition.precedence.getD old.precedence
      serviceId := definition.serviceIdentifier.getD old.serviceId
      ratingGroup := definition.ratingGroup.getD old.ratingGroup
      defBearerIndication := definition.defaultBearerIndication.getD bindToApplicableBearer
      ruleName := (definition.chargingRuleName.map OctetText.text).getD old.ruleName
      afChargingIdString :=
        (definition.afChargingIdentifier.map fun id =>
          overlay id.text old.afChargingIdString).getD old.afChargingIdString
      qos := (definition.qosInformation.map fun info => info.fill old.qos.arp).getD old.qos
      flowDesc }

end

/-- What is read of a filter later: four octets of an address, sixteen for IPv6 alone. -/
structure FilterView where
  protoId : UInt8
  protoMask : UInt8
  localIpMask : UInt8
  remoteIpMask : UInt8
  ports : List UInt16
  v4 : UInt8
  v6 : UInt8
  localAddress : List UInt8
  remoteAddress : List UInt8
  deriving DecidableEq, Repr

def filterView (f : SdfPktFltr) : FilterView where
  protoId := f.protoId
  protoMask := f.protoMask
  localIpMask := f.localIpMask
  remoteIpMask := f.remoteIpMask
  ports := [f.localPortLow, f.localPortHigh, f.remotePortLow, f.remotePortHigh]
  v4 := f.v4
  v6 := f.v6
  localAddress := if f.v4 = 0 ∧ f.v6 ≠ 0 then f.ulocalip else f.ulocalip.take 4
  remoteAddress := if f.v4 = 0 ∧ f.v6 ≠ 0 then f.uremoteip else f.uremoteip.take 4

structure RuleView where
  ruleName : List Char
  precedence : UInt32
  numFlwDesc : UInt8
  flows : List FilterView
  qos : BearerQos
  deriving DecidableEq, Repr

def DynamicRule.view (rule : DynamicRule) : RuleView where
  ruleName := rule.ruleName
  precedence := rule.precedence
  numFlwDesc := rule.numFlwDesc
  flows := (rule.flowDesc.toList.take rule.numFlwDesc.toNat).map fun flow => filterView flow.sdfFlwDesc
  qos := rule.qos

/-- Nothing that is read depends on what the entry held before. -/
def ChargingRuleDefinition.Determines (str : RteString) (definition : ChargingRuleDefinition) : Prop :=
  ∀ old old' : DynamicRule, ∃ rule rule',
    old.fill str definition = some rule ∧ old'.fill str definition = some rule' ∧
      rule.view = rule'.view

/-- A name, a precedence, a complete QoS and an empty list of flows. -/
structure ChargingRuleDefinition.Flowless (definition : ChargingRuleDefinition) : Prop where
  name : definition.chargingRuleName.isSome
  precedence : definition.precedence.isSome
  flows : definition.flowInformation = some []
  qos : ∃ info, definition.qosInformation = some info ∧ info.priorityLevel.isSome ∧
    info.preEmptionCapability.isSome ∧ info.preEmptionVulnerability.isSome

end Epc.Cp.Policy

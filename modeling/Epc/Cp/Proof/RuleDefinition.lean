import Epc.Cp.RuleDefinition
import Epc.Up.AclRule

/-! Which charging rule definitions leave nothing in an entry of the policy of what it held before. -/

namespace Epc.Cp.Policy

open Option Epc.Cp.Policy.DynamicRule

section

variable {str : RteString}

theorem fillToken_protoMask {s s' : SdfPktFltr × Nat} {token : List Char × Nat}
    (done : fillToken str s token = some s') : s'.1.protoMask = s.1.protoMask := by
  simp only [fillToken] at done
  split_ifs at done
  all_goals first
    | (cases done; rfl)
    | (obtain ⟨_, -, rfl⟩ := map_eq_some_iff.mp done; rfl)

theorem fillTokens_protoMask {tokens : List (List Char × Nat)} {s : SdfPktFltr × Nat}
    {f : SdfPktFltr} (done : fillTokens str tokens s = some f) : f.protoMask = s.1.protoMask := by
  induction tokens generalizing s with
  | nil =>
    cases done
    rfl
  | cons token tokens ih =>
    rw [fillTokens] at done
    split at done
    · cases done
      rfl
    · obtain ⟨s', step, rest⟩ := bind_eq_some_iff.mp done
      exact (ih rest).trans (fillToken_protoMask step)

theorem sdfStrctrAfter_protoMask {text : List Char} {f f' : SdfPktFltr}
    (done : sdfStrctrAfter str text f = some f') : f'.protoMask = f.protoMask := by
  simp only [sdfStrctrAfter] at done
  split at done
  · cases done
    rfl
  · exact fillTokens_protoMask done

theorem FlowDesc.fill_protoMask {info : FlowInformation} {old flow : FlowDesc}
    (done : old.fill str info = some flow) : flow.sdfFlwDesc.protoMask = old.sdfFlwDesc.protoMask := by
  simp only [FlowDesc.fill] at done
  split at done
  · cases done
    rfl
  · obtain ⟨filter, parsed, rest⟩ := bind_eq_some_iff.mp done
    cases rest
    have kept : filter.protoMask = old.sdfFlwDesc.protoMask := sdfStrctrAfter_protoMask parsed
    exact kept

section

variable {idx : Nat} {infos : List FlowInformation} {flows flows' : Vector FlowDesc maxFlowDesc}
  (done : fillFlows str idx infos flows = some flows')

include done

theorem fillFlows_protoMask (k : Nat) (inside : k < maxFlowDesc) :
    flows'[k].sdfFlwDesc.protoMask = flows[k].sdfFlwDesc.protoMask := by
  induction infos generalizing idx flows with
  | nil =>
    cases done
    rfl
  | cons info infos ih =>
    rw [fillFlows] at done
    split at done
    · obtain ⟨flow, filled, rest⟩ := bind_eq_some_iff.mp done
      rw [ih rest, Vector.getElem_set]
      split
      · rename_i same
        subst same
        exact FlowDesc.fill_protoMask filled
      · rfl
    · cases done

theorem fillFlows_length : infos = [] ∨ idx + infos.length ≤ maxFlowDesc := by
  induction infos generalizing idx flows with
  | nil => exact .inl rfl
  | cons info infos ih =>
    rw [fillFlows] at done
    split at done
    · rename_i within
      obtain ⟨flow, -, rest⟩ := bind_eq_some_iff.mp done
      right
      rw [List.length_cons]
      rcases ih rest with none | room
      · rw [none, List.length_nil]
        omega
      · omega
    · cases done

end

theorem DynamicRule.fill_spec {definition : ChargingRuleDefinition} {old rule : DynamicRule}
    (done : old.fill str definition = some rule) :
    rule.ruleName = (definition.chargingRuleName.map OctetText.text).getD old.ruleName ∧
      rule.precedence = definition.precedence.getD old.precedence ∧
      rule.numFlwDesc = (definition.flowInformation.map fun infos =>
        UInt8.ofNat infos.length).getD old.numFlwDesc ∧
      rule.qos = (definition.qosInformation.map fun info => info.fill old.qos.arp).getD old.qos ∧
      ∀ infos, definition.flowInformation = some infos →
        fillFlows str 0 infos old.flowDesc = some rule.flowDesc := by
  obtain ⟨flowDesc, flows, rfl⟩ := map_eq_some_iff.mp done
  refine ⟨rfl, rfl, rfl, rfl, fun infos has => ?_⟩
  rw [fillFlowInformation, has] at flows
  exact flows

end

section

variable {str : RteString} {definition : ChargingRuleDefinition}

theorem ChargingRuleDefinition.Flowless.determines (flowless : definition.Flowless) :
    definition.Determines str := by
  obtain ⟨info, hasQos, priority, capability, vulnerability⟩ := flowless.qos
  obtain ⟨name, hasName⟩ := isSome_iff_exists.mp flowless.name
  obtain ⟨precedence, hasPrecedence⟩ := isSome_iff_exists.mp flowless.precedence
  obtain ⟨level, hasLevel⟩ := isSome_iff_exists.mp priority
  obtain ⟨capable, hasCapable⟩ := isSome_iff_exists.mp capability
  obtain ⟨vulnerable, hasVulnerable⟩ := isSome_iff_exists.mp vulnerability
  intro old old'
  have filled : ∀ old : DynamicRule, ∃ rule, old.fill str definition = some rule := by
    intro old
    have flows : fillFlowInformation str definition old = some old.flowDesc := by
      rw [fillFlowInformation, flowless.flows]
      rfl
    rw [fill, flows]
    exact ⟨_, rfl⟩
  obtain ⟨rule, done⟩ := filled old
  obtain ⟨rule', done'⟩ := filled old'
  refine ⟨rule, rule', done, done', ?_⟩
  obtain ⟨name₁, precedence₁, flows₁, qos₁, -⟩ := fill_spec done
  obtain ⟨name₂, precedence₂, flows₂, qos₂, -⟩ := fill_spec done'
  rw [flowless.flows] at flows₁ flows₂
  rw [hasName] at name₁ name₂
  rw [hasPrecedence] at precedence₁ precedence₂
  rw [hasQos] at qos₁ qos₂
  have none₁ : rule.numFlwDesc = 0 := flows₁
  have none₂ : rule'.numFlwDesc = 0 := flows₂
  have sameQos : rule.qos = rule'.qos := by
    rw [qos₁, qos₂]
    change info.fill old.qos.arp = info.fill old'.qos.arp
    rw [GxQosInformation.fill, GxQosInformation.fill, hasLevel, hasCapable, hasVulnerable]
    rfl
  rw [view, view, name₁, name₂, precedence₁, precedence₂, none₁, none₂, sameQos]
  rfl

section

variable (determines : definition.Determines str)

include determines

theorem ChargingRuleDefinition.Determines.name : definition.chargingRuleName.isSome := by
  obtain ⟨rule, rule', done, done', same⟩ :=
    determines zero { zero with ruleName := ['x'] }
  have first := (fill_spec done).1
  have second := (fill_spec done').1
  have equal : rule.ruleName = rule'.ruleName := congrArg RuleView.ruleName same
  rw [first, second] at equal
  cases has : definition.chargingRuleName with
  | none =>
    rw [has] at equal
    cases equal
  | some name => rfl

theorem ChargingRuleDefinition.Determines.precedence : definition.precedence.isSome := by
  obtain ⟨rule, rule', done, done', same⟩ := determines zero { zero with precedence := 1 }
  have first := (fill_spec done).2.1
  have second := (fill_spec done').2.1
  have equal : rule.precedence = rule'.precedence := congrArg RuleView.precedence same
  rw [first, second] at equal
  cases has : definition.precedence with
  | none =>
    rw [has] at equal
    exact absurd equal (by decide : (0 : UInt32) ≠ 1)
  | some precedence => rfl

theorem ChargingRuleDefinition.Determines.qos :
    ∃ info, definition.qosInformation = some info ∧ info.priorityLevel.isSome ∧
      info.preEmptionCapability.isSome ∧ info.preEmptionVulnerability.isSome := by
  obtain ⟨rule, rule', done, done', same⟩ := determines zero
    { zero with qos := { arp := ⟨1, 1, 1⟩ } }
  have first := (fill_spec done).2.2.2.1
  have second := (fill_spec done').2.2.2.1
  have equal : rule.qos = rule'.qos := congrArg RuleView.qos same
  rw [first, second] at equal
  cases has : definition.qosInformation with
  | none =>
    rw [has] at equal
    exact absurd equal (by decide)
  | some info =>
    rw [has] at equal
    have arp : info.fill {} = info.fill ⟨1, 1, 1⟩ := equal
    refine ⟨info, rfl, ?_⟩
    rw [GxQosInformation.fill, GxQosInformation.fill, BearerQos.mk.injEq, Arp.mk.injEq] at arp
    obtain ⟨-, ⟨vulnerable, level, capable⟩, -⟩ := arp
    refine ⟨?_, ?_, ?_⟩
    · cases hasLevel : info.priorityLevel with
      | none => simp [hasLevel] at level
      | some _ => rfl
    · cases hasCapable : info.preEmptionCapability with
      | none => simp [hasCapable] at capable
      | some _ => rfl
    · cases hasVulnerable : info.preEmptionVulnerability with
      | none => simp [hasVulnerable] at vulnerable
      | some _ => rfl

end

def maskedRule : DynamicRule :=
  { DynamicRule.zero with
    flowDesc := Vector.replicate maxFlowDesc
      { FlowDesc.zero with sdfFlwDesc := { SdfPktFltr.zero with protoMask := 1 } } }

theorem protoMask_head (flows : Vector FlowDesc maxFlowDesc) {count : Nat} (pos : 0 < count) :
    ((flows.toList.take count).map fun flow => filterView flow.sdfFlwDesc)[0]?.map
        FilterView.protoMask = some flows[0].sdfFlwDesc.protoMask := by
  rw [List.getElem?_map, List.getElem?_take_of_lt pos,
    List.getElem?_eq_getElem (by rw [Vector.length_toList]; decide), Vector.getElem_toList]
  rfl

theorem ChargingRuleDefinition.Determines.flows (determines : definition.Determines str) :
    definition.flowInformation = some [] := by
  cases has : definition.flowInformation with
  | none =>
    obtain ⟨rule, rule', done, done', same⟩ := determines zero { zero with numFlwDesc := 1 }
    have first := (fill_spec done).2.2.1
    have second := (fill_spec done').2.2.1
    have equal : rule.numFlwDesc = rule'.numFlwDesc := congrArg RuleView.numFlwDesc same
    rw [first, second, has] at equal
    exact absurd equal (by decide : (0 : UInt8) ≠ 1)
  | some infos =>
    cases infos with
    | nil => rfl
    | cons info infos =>
      exfalso
      obtain ⟨rule, rule', done, done', same⟩ := determines zero maskedRule
      have first := (fill_spec done).2.2.2.2 _ has
      have second := (fill_spec done').2.2.2.2 _ has
      have mask := fillFlows_protoMask first 0 (by decide)
      have mask' := fillFlows_protoMask second 0 (by decide)
      have room : (info :: infos).length ≤ maxFlowDesc := by
        rcases fillFlows_length first with none | room
        · cases none
        · omega
      have count : rule.numFlwDesc.toNat = (info :: infos).length := by
        rw [(fill_spec done).2.2.1, has]
        exact UInt8.toNat_ofNat_of_lt' (lt_of_le_of_lt room (by decide))
      have numbers : rule.numFlwDesc = rule'.numFlwDesc := congrArg RuleView.numFlwDesc same
      have views : (rule.flowDesc.toList.take rule.numFlwDesc.toNat).map
            (fun flow => filterView flow.sdfFlwDesc) =
          (rule'.flowDesc.toList.take rule'.numFlwDesc.toNat).map
            (fun flow => filterView flow.sdfFlwDesc) := congrArg RuleView.flows same
      rw [← numbers, count] at views
      have pos : 0 < (info :: infos).length := Nat.succ_pos _
      have heads := congrArg (fun l => l[0]?.map FilterView.protoMask) views
      rw [protoMask_head _ pos, protoMask_head _ pos, mask, mask', some_inj] at heads
      exact absurd heads (by decide)

end

/-- A definition determines the rule exactly when it has all that is read and no flow. -/
theorem determines_iff (str : RteString) (definition : ChargingRuleDefinition) :
    definition.Determines str ↔ definition.Flowless :=
  ⟨fun determines => ⟨determines.name, determines.precedence, determines.flows, determines.qos⟩,
    fun flowless => flowless.determines⟩

def anyFlow : ChargingRuleDefinition where
  chargingRuleName := some ⟨['r'], by decide, by decide⟩
  precedence := some 1
  flowInformation := some
    [{ hasFlowDirection := true
       flowDirection := 1
       flowDescription := some
        ⟨"permit out 17 from any to any".toList, by decide, by decide⟩ }]
  qosInformation := some
    { qosClassIdentifier := 9
      priorityLevel := some 1
      preEmptionCapability := some 0
      preEmptionVulnerability := some 0 }

def usedRule : DynamicRule :=
  { DynamicRule.zero with
    numFlwDesc := 1
    flowDesc := Vector.replicate maxFlowDesc
      { FlowDesc.zero with
        sdfFlwDesc :=
          { SdfPktFltr.zero with
            protoId := 6
            v4 := 1
            localIpMask := 32
            localPortLow := 80
            localPortHigh := 80
            ulocalip := [10, 0, 0, 1] ++ List.replicate 12 0 } } }

def firstFlow (old : DynamicRule) : Option FilterView :=
  (old.fill Up.splitString anyFlow).bind fun rule => rule.view.flows[0]?

/-- The flow for any address is one for the old address and port. -/
theorem anyFlow_not_determined :
    ((firstFlow DynamicRule.zero).map fun flow => (flow.v4, flow.localIpMask, flow.ports)) =
        some (0, 0, [0, 0, 0, 0]) ∧
      ((firstFlow usedRule).map fun flow => (flow.v4, flow.localIpMask, flow.ports)) =
        some (1, 32, [80, 80, 0, 0]) ∧
      ((firstFlow usedRule).map fun flow => flow.localAddress) = some [10, 0, 0, 1] ∧
      ¬ anyFlow.Determines Up.splitString := by
  refine ⟨by decide +kernel, by decide +kernel, by decide +kernel, fun determines => ?_⟩
  exact absurd determines.flows (by decide)

end Epc.Cp.Policy

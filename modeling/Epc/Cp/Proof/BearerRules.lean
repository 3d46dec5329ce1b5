import Epc.Cp.BearerRules
import Epc.Lib.Run

/-! The QoS of a bearer over runs of its policy: the guaranteed rates are the sums and the maximum rates
the maxima of its dynamic rules. -/

namespace Epc.Cp

open Epc.Lib.Run List Function BearerQos
open Option hiding map_map mem_map mem_map_of_mem

section

def rateSum (rate : BearerQos → UInt64) (rules : List PolicyRule) : Nat :=
  (rules.map fun rule => (rate rule.qos).toNat).sum

def rateMax (rate : BearerQos → UInt64) (rules : List PolicyRule) : Nat :=
  (rules.map fun rule => (rate rule.qos).toNat).foldr max 0

structure Aggregates (qos : BearerQos) (rules : List PolicyRule) : Prop where
  ulGbr : qos.ulGbr.toNat = rateSum BearerQos.ulGbr rules
  dlGbr : qos.dlGbr.toNat = rateSum BearerQos.dlGbr rules
  ulMbr : qos.ulMbr.toNat = rateMax BearerQos.ulMbr rules
  dlMbr : qos.dlMbr.toNat = rateMax BearerQos.dlMbr rules

/-- Guaranteed rates of which sixteen can be added; Gx has 32 bits for one. -/
def PolicyRule.Small (rule : PolicyRule) : Prop :=
  rule.qos.ulGbr.toNat < 2 ^ 60 ∧ rule.qos.dlGbr.toNat < 2 ^ 60

instance decidableSmall (rule : PolicyRule) : Decidable rule.Small :=
  inferInstanceAs (Decidable (_ ∧ _))

theorem qosOfRules_some (qos : BearerQos) (rules : List PolicyRule) :
    qosOfRules qos (rules.map some) = some (rules.foldl addRule qos) := by
  induction rules generalizing qos with
  | nil => rfl
  | cons rule rules ih => exact ih (qos.addRule rule)

theorem toNat_max_uint64 (a b : UInt64) : (if a < b then b else a).toNat = max a.toNat b.toNat := by
  split
  · rename_i less
    rw [UInt64.lt_iff_toNat_lt] at less
    omega
  · rename_i notLess
    rw [UInt64.lt_iff_toNat_lt] at notLess
    omega

theorem foldl_addRule_sum (rate : BearerQos → UInt64)
    (added : ∀ qos rule, rate (addRule qos rule) = rate qos + rate rule.qos)
    (rules : List PolicyRule) (qos : BearerQos) (fits : (rate qos).toNat + rateSum rate rules < 2 ^ 64) :
    (rate (rules.foldl addRule qos)).toNat = (rate qos).toNat + rateSum rate rules := by
  induction rules generalizing qos with
  | nil => rfl
  | cons rule rules ih =>
    simp only [rateSum, map_cons, sum_cons] at fits ih ⊢
    have step : (rate (qos.addRule rule)).toNat = (rate qos).toNat + (rate rule.qos).toNat := by
      rw [added, UInt64.toNat_add]
      exact Nat.mod_eq_of_lt (by omega)
    rw [foldl_cons, ih _ (by omega), step]
    omega

theorem foldl_addRule_max (rate : BearerQos → UInt64)
    (taken : ∀ qos rule, rate (addRule qos rule) =
      if rate qos < rate rule.qos then rate rule.qos else rate qos)
    (rules : List PolicyRule) (qos : BearerQos) :
    (rate (rules.foldl addRule qos)).toNat = max (rate qos).toNat (rateMax rate rules) := by
  induction rules generalizing qos with
  | nil => simp [rateMax]
  | cons rule rules ih =>
    simp only [rateMax, map_cons, foldr_cons] at ih ⊢
    rw [foldl_cons, ih, taken, toNat_max_uint64, max_assoc]

variable {rules : List PolicyRule}

theorem rateSum_lt (rate : BearerQos → UInt64) (few : rules.length ≤ maxRulePerBearer)
    (small : ∀ rule ∈ rules, (rate rule.qos).toNat < 2 ^ 60) : rateSum rate rules < 2 ^ 64 := by
  have bound : rateSum rate rules ≤ rules.length * (2 ^ 60 - 1) := by
    induction rules with
    | nil => simp [rateSum]
    | cons rule rules ih =>
      rw [forall_mem_cons] at small
      have rest := ih (by simp only [length_cons] at few; omega) small.2
      simp only [rateSum, map_cons, sum_cons, length_cons] at rest ⊢
      omega
  have most : rules.length * (2 ^ 60 - 1) ≤ 16 * (2 ^ 60 - 1) := Nat.mul_le_mul_right _ few
  omega

theorem aggregates_foldl (few : rules.length ≤ maxRulePerBearer)
    (small : ∀ rule ∈ rules, rule.Small) : Aggregates (rules.foldl addRule {}) rules := by
  have up := rateSum_lt ulGbr few fun rule mem => (small rule mem).1
  have down := rateSum_lt dlGbr few fun rule mem => (small rule mem).2
  constructor
  · simpa using foldl_addRule_sum ulGbr (fun _ _ => rfl) rules {}
      (by simpa using up)
  · simpa using foldl_addRule_sum dlGbr (fun _ _ => rfl) rules {}
      (by simpa using down)
  · simpa using foldl_addRule_max ulMbr (fun _ _ => rfl) rules {}
  · simpa using foldl_addRule_max dlMbr (fun _ _ => rfl) rules {}

theorem Aggregates.congr {qos : BearerQos} {rules' : List PolicyRule} (aggregates : Aggregates qos rules)
    (same : rules'.map PolicyRule.qos = rules.map PolicyRule.qos) : Aggregates qos rules' := by
  have rates (rate : BearerQos → UInt64) : (rules'.map fun rule => (rate rule.qos).toNat) =
      rules.map fun rule => (rate rule.qos).toNat := by
    have mapped := congrArg (List.map fun qos => (rate qos).toNat) same
    rwa [map_map, map_map] at mapped
  obtain ⟨ulGbr, dlGbr, ulMbr, dlMbr⟩ := aggregates
  constructor <;> simp only [rateSum, rateMax, rates] <;> assumption

end

structure BearerInv (bearer : RuleBearer) (rules : List PolicyRule) : Prop where
  array : bearer.dynamicRules = rules.map some
  few : rules.length ≤ maxRulePerBearer
  names : (rules.map PolicyRule.ruleName).Nodup
  small : ∀ rule ∈ rules, rule.Small
  aggregates : Aggregates bearer.qos rules

variable {bearer : RuleBearer} {rules : List PolicyRule}

theorem BearerInv.congr {bearer' : RuleBearer}
    (inv : BearerInv bearer rules) (array : bearer'.dynamicRules = bearer.dynamicRules)
    (qos : Aggregates bearer'.qos rules) : BearerInv bearer' rules :=
  ⟨array.trans inv.array, inv.few, inv.names, inv.small, qos⟩

theorem updateBearerQos_inv (bearer : RuleBearer)
    (array : bearer.dynamicRules = rules.map some) (few : rules.length ≤ maxRulePerBearer)
    (names : (rules.map PolicyRule.ruleName).Nodup) (small : ∀ rule ∈ rules, rule.Small) :
    ∃ bearer', updateBearerQos bearer = some bearer' ∧ BearerInv bearer' rules ∧
      bearer'.qosBearerCheck = bearer.qosBearerCheck := by
  refine ⟨{ bearer with qos := rules.foldl addRule {} }, ?_,
    ⟨array, few, names, small, aggregates_foldl few small⟩, rfl⟩
  rw [updateBearerQos, array, qosOfRules_some, map_some]

section

variable {bearer : RuleBearer} {rules : List PolicyRule} (inv : BearerInv bearer rules)

include inv

theorem BearerInv.length_eq : bearer.dynamicRules.length = rules.length := by
  rw [inv.array, length_map]

theorem BearerInv.add {rule : PolicyRule} (small : rule.Small)
    (room : bearer.dynamicRules.length < maxRulePerBearer)
    (new : rule.ruleName ∉ rules.map PolicyRule.ruleName) :
    ∃ bearer', addBearerRule rule bearer = some bearer' ∧ BearerInv bearer' (rules ++ [rule]) := by
  rw [addBearerRule, if_pos room]
  rw [inv.length_eq] at room
  refine (updateBearerQos_inv _ ?_ ?_ ?_ ?_).imp fun _ => And.imp_right And.left
  · simp [inv.array]
  · rw [length_append, length_singleton]
    omega
  · rw [map_append, map_singleton, nodup_append]
    refine ⟨inv.names, nodup_singleton _, ?_⟩
    rintro name old other single rfl
    exact new (mem_singleton.mp single ▸ old)
  · intro other mem
    rcases mem_append.mp mem with old | single
    · exact inv.small other old
    · rw [mem_singleton.mp single]
      exact small

end

theorem replaceRule_spec (rule : PolicyRule) (rules : List PolicyRule) :
    replaceRule rule (rules.map some) = some none ∨
      ∃ before old after, rules = before ++ old :: after ∧ old.ruleName = rule.ruleName ∧
        replaceRule rule (rules.map some) = some (some (old, (before ++ rule :: after).map some)) := by
  induction rules with
  | nil => exact .inl rfl
  | cons first rules ih =>
    simp only [map_cons, replaceRule]
    by_cases same : rule.ruleName = first.ruleName
    · rw [if_pos same]
      exact .inr ⟨[], first, rules, rfl, same.symm, rfl⟩
    · rw [if_neg same]
      rcases ih with missing | ⟨before, old, after, rfl, name, found⟩
      · rw [missing]
        exact .inl rfl
      · rw [found]
        exact .inr ⟨first :: before, old, after, rfl, name, rfl⟩

theorem deleteLoop_absent {ruleName : List Char} (absent : ruleName ∉ rules.map PolicyRule.ruleName)
    (found : Bool) : deleteLoop ruleName found (rules.map some) = some (rules.map some) := by
  induction rules with
  | nil => rfl
  | cons rule rules ih =>
    rw [map_cons, mem_cons, not_or] at absent
    rw [map_cons, deleteLoop, if_neg absent.1, ih absent.2, map_some]

theorem deleteLoop_spec (ruleName : List Char) (names : (rules.map PolicyRule.ruleName).Nodup) :
    deleteLoop ruleName false (rules.map some) =
      some ((rules.filter fun rule => rule.ruleName ≠ ruleName).map some) := by
  induction rules with
  | nil => rfl
  | cons rule rules ih =>
    rw [map_cons, nodup_cons] at names
    rw [map_cons, deleteLoop]
    by_cases same : ruleName = rule.ruleName
    · subst same
      have kept : (rules.filter fun other => other.ruleName ≠ rule.ruleName) = rules := by
        refine filter_eq_self.mpr fun other mem => ?_
        have ne : other.ruleName ≠ rule.ruleName :=
          fun equal => names.1 (equal ▸ mem_map_of_mem mem)
        simpa using ne
      rw [if_pos rfl, if_neg (by simp), deleteLoop_absent names.1,
        filter_cons_of_neg (by simp), kept]
    · rw [if_neg same, ih names.2, filter_cons_of_pos (by simpa using Ne.symm same)]
      rfl

section

variable {bearer : RuleBearer} {rules : List PolicyRule} (inv : BearerInv bearer rules)

include inv

theorem BearerInv.modify {rule : PolicyRule} (small : rule.Small) :
    ∃ accepted bearer' rules', modifyBearerRule rule bearer = some (accepted, bearer') ∧
      BearerInv bearer' rules' ∧ (accepted = true ∨ bearer'.flowDescCheck = false) := by
  rw [modifyBearerRule, inv.array]
  rcases replaceRule_spec rule rules with missing | ⟨before, old, after, rfl, name, found⟩
  · rw [missing]
    exact ⟨true, bearer, rules, rfl, inv, .inl rfl⟩
  · rw [found]
    have length : (before ++ rule :: after).length = (before ++ old :: after).length := by simp
    have names : (before ++ rule :: after).map PolicyRule.ruleName =
        (before ++ old :: after).map PolicyRule.ruleName := by simp [name]
    have smallAll : ∀ other ∈ before ++ rule :: after, other.Small := by
      intro other mem
      rcases mem_append.mp mem with inBefore | inRest
      · exact inv.small other (mem_append_left _ inBefore)
      · rcases mem_cons.mp inRest with rfl | inAfter
        · exact small
        · exact inv.small other (mem_append_right _ (mem_cons_of_mem _ inAfter))
    dsimp only
    cases qosChanged : compareBearerQos old rule with
    | true =>
      simp only [Bool.or_true, if_true]
      obtain ⟨bearer', updated, inv', -⟩ := updateBearerQos_inv
        { bearer with
          flowDescCheck := compareFlowDescription old.flowDesc rule.flowDesc != 0
          qosBearerCheck := true
          arpBearerCheck := compareBearerArp old rule
          dynamicRules := (before ++ rule :: after).map some }
        rfl (length ▸ inv.few) (names ▸ inv.names) smallAll
      rw [updated]
      exact ⟨true, bearer', _, rfl, inv', .inl rfl⟩
    | false =>
      have sameQos : old.qos = rule.qos := by simpa [compareBearerQos] using qosChanged
      have aggregates : Aggregates bearer.qos (before ++ rule :: after) :=
        inv.aggregates.congr (by simp [sameQos])
      cases compareFlowDescription old.flowDesc rule.flowDesc != 0 with
      | true => exact ⟨true, _, _, rfl, ⟨rfl, length ▸ inv.few, names ▸ inv.names, smallAll,
          aggregates⟩, .inl rfl⟩
      | false => exact ⟨false, _, _, rfl, inv.congr inv.array.symm inv.aggregates, .inr rfl⟩

theorem BearerInv.delete (ruleName : List Char) (marked : bearer.qosBearerCheck = true) :
    ∃ bearer' rules', deleteBearerRule ruleName bearer = some bearer' ∧ BearerInv bearer' rules' ∧
      bearer'.qosBearerCheck = true := by
  rw [deleteBearerRule, inv.array, deleteLoop_spec ruleName inv.names]
  simp only [bind_eq_bind, bind_some]
  rw [if_pos marked]
  obtain ⟨bearer', updated, inv', same⟩ := updateBearerQos_inv
    { bearer with
      dynamicRules := (rules.filter fun rule => rule.ruleName ≠ ruleName).map some }
    rfl ((length_filter_le _ _).trans inv.few)
    (inv.names.sublist (filter_sublist.map _))
    fun rule mem => inv.small rule (mem_filter.mp mem).1
  exact ⟨bearer', _, updated, inv', same.trans marked⟩

end

def Aggregated (bearers : RuleBearers) : Prop :=
  ∀ i bearer, bearers i = some bearer →
    ∃ rules : List PolicyRule, bearer.dynamicRules = rules.map some ∧ Aggregates bearer.qos rules

/-- A bearer that a rule is to be taken from is marked for a change of its QoS if it is marked for a
change of its flows. -/
def RuleBearer.Marked (bearer : RuleBearer) : Prop :=
  bearer.action = .modifyRemoveRule → bearer.flowDescCheck = true → bearer.qosBearerCheck = true

def PdnInv (bearers : RuleBearers) : Prop :=
  ∀ i bearer, bearers i = some bearer → (∃ rules, BearerInv bearer rules) ∧ bearer.Marked

variable {bearers : RuleBearers}

theorem PdnInv.aggregated (inv : PdnInv bearers) : Aggregated bearers := by
  intro i bearer present
  obtain ⟨⟨rules, bearerInv⟩, -⟩ := inv i bearer present
  exact ⟨rules, bearerInv.array, bearerInv.aggregates⟩

theorem PdnInv.update (inv : PdnInv bearers) (i : Nat) (new : BearerInv bearer rules)
    (marked : bearer.Marked) :
    PdnInv (Function.update bearers i (some bearer)) := by
  intro j other present
  by_cases here : j = i
  · subst here
    rw [update_self, some.injEq] at present
    exact present ▸ ⟨⟨rules, new⟩, marked⟩
  · rw [update_of_ne here] at present
    exact inv j other present

theorem PdnInv.markRemoval (inv : PdnInv bearers) (i : Nat) (bearerInv : BearerInv bearer rules) :
    PdnInv (Function.update bearers i (some bearer.markRemoval)) :=
  inv.update i (bearerInv.congr rfl bearerInv.aggregates) fun _ _ => rfl

theorem PdnInv.setAction (inv : PdnInv bearers) (i : Nat) (bearerInv : BearerInv bearer rules)
    {action : RuleAction} (other : action ≠ .modifyRemoveRule) :
    PdnInv (Function.update bearers i (some { bearer with action })) :=
  inv.update i (bearerInv.congr rfl bearerInv.aggregates) fun same => absurd same other

theorem PdnInv.changeArp (inv : PdnInv bearers) (defaultBearerId : Nat)
    (qos : BearerQos) : PdnInv (changeArpForDedBearer defaultBearerId qos bearers) := by
  intro i bearer present
  obtain ⟨old, was, rfl⟩ := map_eq_some_iff.mp present
  obtain ⟨⟨rules, oldInv⟩, marked⟩ := inv i old was
  split
  · exact ⟨⟨rules, oldInv.congr rfl ⟨oldInv.aggregates.ulGbr, oldInv.aggregates.dlGbr,
      oldInv.aggregates.ulMbr, oldInv.aggregates.dlMbr⟩⟩, marked⟩
  · exact ⟨⟨rules, oldInv⟩, marked⟩

theorem update_changeArp (defaultBearerId : Nat) (qos : BearerQos) (bearers : RuleBearers) (i : Nat)
    (bearer : RuleBearer) (action : RuleAction) :
    let changed := changeArpForDedBearer defaultBearerId qos (Function.update bearers i (some bearer))
    Function.update changed i ((changed i).map fun b => { b with action }) =
      changeArpForDedBearer defaultBearerId qos
        (Function.update bearers i (some { bearer with action })) := by
  funext j
  by_cases here : j = i
  · subst here
    simp only [changeArpForDedBearer, update_self, map_some]
    split <;> rfl
  · simp only [changeArpForDedBearer, update_of_ne here]

def RuleBearer.Admits (bearer : RuleBearer) (rule : PolicyRule) : Prop :=
  bearer.dynamicRules.length < maxRulePerBearer ∧
    ∀ other ∈ bearer.dynamicRules, other.map PolicyRule.ruleName ≠ some rule.ruleName

instance decidableAdmitsRule (bearer : RuleBearer) (rule : PolicyRule) : Decidable (bearer.Admits rule) :=
  inferInstanceAs (Decidable (_ ∧ _))

theorem BearerInv.addAdmitted (inv : BearerInv bearer rules) {rule : PolicyRule} (small : rule.Small)
    (admits : bearer.Admits rule) :
    ∃ bearer', addBearerRule rule bearer = some bearer' ∧ BearerInv bearer' (rules ++ [rule]) := by
  refine inv.add small admits.1 fun taken => ?_
  obtain ⟨other, mem, name⟩ := mem_map.mp taken
  refine admits.2 (some other) ?_ (congrArg some name)
  rw [inv.array]
  exact mem_map_of_mem mem

/-- The steps that keep the rates: an added rule finds room and no rule of its name, a rule for a
new bearer none at all; the bearers looked up are there. -/
def PolicyOp.Ok (bearers : RuleBearers) : PolicyOp → Prop
  | .install _ definition old index =>
    (fillChargingRuleDefinition definition old).Small ∧
      ∀ b ∈ getBearer bearers (fillChargingRuleDefinition definition old).qos,
        ∀ bearer ∈ bearers b, bearer.dynamicRules ≠ [] →
          bearer.epsBearerId = (index.map (· + 1)).getD 0 ∨
            (bearer.Admits (fillChargingRuleDefinition definition old) ∧
              ∀ i ∈ index, bearers i ≠ none)
  | .remove index => ∀ i ∈ index, bearers i ≠ none
  | .applyRemoval _ index => index ≠ none
  | .create rule _ =>
    rule.Small ∧ ∀ b ∈ getBearer bearers rule.qos, ∀ bearer ∈ bearers b, bearer.dynamicRules = []
  | .answered i => bearers i ≠ none

instance decidablePolicyOk (bearers : RuleBearers) : ∀ op, Decidable (PolicyOp.Ok bearers op)
  | .install _ _ _ _ => inferInstanceAs (Decidable (_ ∧ _))
  | .remove _ => inferInstanceAs (Decidable (∀ i ∈ _, _))
  | .applyRemoval _ _ => inferInstanceAs (Decidable (_ ≠ _))
  | .create _ _ => inferInstanceAs (Decidable (_ ∧ _))
  | .answered _ => inferInstanceAs (Decidable (_ ≠ _))

section

variable {bearers : RuleBearers} (inv : PdnInv bearers)

include inv

variable {rule : PolicyRule}

theorem PdnInv.storeUnmatched (small : rule.Small) (hss index : Option Nat) :
    ∃ stored, Cp.storeUnmatched hss rule index bearers = some stored ∧ PdnInv stored.bearers := by
  rw [Cp.storeUnmatched]
  cases found : index.bind fun i => (bearers i).map fun old => (i, old) with
  | none => exact ⟨_, rfl, inv⟩
  | some pair =>
    obtain ⟨i, old⟩ := pair
    obtain ⟨j, -, mapped⟩ := bind_eq_some_iff.mp found
    obtain ⟨bearer, present, same⟩ := map_eq_some_iff.mp mapped
    cases same
    obtain ⟨⟨rules, oldInv⟩, -⟩ := inv i old present
    dsimp only
    split
    · exact ⟨_, rfl, inv.markRemoval i oldInv⟩
    · obtain ⟨accepted, bearer, rules', modified, newInv, -⟩ := oldInv.modify small
      have updated : PdnInv (Function.update bearers i (some { bearer with action := .modify })) :=
        inv.setAction i newInv (by decide)
      rw [modified]
      refine ⟨_, rfl, ?_⟩
      cases hss with
      | none => simpa using updated
      | some defaultBearerId =>
        dsimp only
        split
        · rw [update_changeArp]
          exact updated.changeArp _ _
        · simpa using updated

theorem PdnInv.storeMatched (small : rule.Small) {b : Nat} {bearer : RuleBearer}
    (present : bearers b = some bearer) (ok : bearer.epsBearerId = (index.map (· + 1)).getD 0 ∨
      (bearer.Admits rule ∧ ∀ i ∈ index, bearers i ≠ none)) :
    ∃ stored, Cp.storeMatched rule b bearer index bearers = some stored ∧ PdnInv stored.bearers := by
  obtain ⟨⟨rules, bearerInv⟩, -⟩ := inv b bearer present
  unfold Cp.storeMatched
  split
  · obtain ⟨accepted, bearer', rules', modified, newInv, refused⟩ := bearerInv.modify small
    rw [modified]
    cases accepted with
    | true => exact ⟨_, rfl, inv.setAction b newInv (by decide)⟩
    | false =>
      refine ⟨_, rfl, inv.update b newInv fun _ flows => ?_⟩
      rw [refused.resolve_left Bool.false_ne_true] at flows
      cases flows
  · rename_i other
    obtain ⟨admits, known⟩ := ok.resolve_left other
    cases index with
    | none =>
      obtain ⟨bearer', added, newInv⟩ := bearerInv.addAdmitted small admits
      rw [added]
      exact ⟨_, rfl, inv.setAction b newInv (by decide)⟩
    | some i =>
      obtain ⟨old, presentOld⟩ := ne_none_iff_exists'.mp (known i rfl)
      obtain ⟨⟨oldRules, oldInv⟩, -⟩ := inv i old presentOld
      dsimp only
      rw [presentOld]
      dsimp only
      -- the mark that the old bearer gets changes neither its rules nor its QoS
      generalize marked : (if 1 < old.dynamicRules.length then old.markRemoval
        else { old with action := .delete }) = old'
      have sameRules : old'.dynamicRules = old.dynamicRules := by
        rw [← marked]
        split <;> rfl
      have updated : PdnInv (Function.update bearers i (some old')) := by
        rw [← marked]
        split
        · exact inv.markRemoval i oldInv
        · exact inv.setAction i oldInv (by decide)
      obtain ⟨target, targetPresent, targetRules⟩ :
          ∃ target, Function.update bearers i (some old') b = some target ∧
            target.dynamicRules = bearer.dynamicRules := by
        by_cases here : b = i
        · subst here
          rw [present, some.injEq] at presentOld
          exact ⟨old', update_self .., by rw [sameRules, presentOld]⟩
        · exact ⟨bearer, by rw [update_of_ne here, present], rfl⟩
      obtain ⟨⟨rules', targetInv⟩, -⟩ := updated b target targetPresent
      have targetAdmits : target.Admits rule := by
        rw [RuleBearer.Admits, targetRules]
        exact admits
      obtain ⟨bearer', added, newInv⟩ := targetInv.addAdmitted small targetAdmits
      rw [targetPresent]
      dsimp only
      rw [added]
      exact ⟨_, rfl, updated.setAction b newInv (by decide)⟩

theorem PdnInv.storeRemoval (known : ∀ i ∈ index, bearers i ≠ none) :
    ∃ bearers', Cp.storeRemoval index bearers = some bearers' ∧ PdnInv bearers' := by
  cases index with
  | none => exact ⟨bearers, rfl, inv⟩
  | some i =>
    obtain ⟨bearer, present⟩ := ne_none_iff_exists'.mp (known i rfl)
    obtain ⟨⟨rules, bearerInv⟩, -⟩ := inv i bearer present
    rw [Cp.storeRemoval, present]
    refine ⟨_, rfl, ?_⟩
    dsimp only
    split
    · exact inv.markRemoval i bearerInv
    · exact inv.setAction i bearerInv (by decide)

theorem PdnInv.applyRemoval (ruleName : List Char) (known : index ≠ none) :
    ∃ bearers', Cp.applyRemoval ruleName index bearers = some bearers' ∧ PdnInv bearers' := by
  obtain ⟨i, rfl⟩ := ne_none_iff_exists'.mp known
  rw [Cp.applyRemoval]
  cases present : bearers i with
  | none => exact ⟨bearers, rfl, inv⟩
  | some bearer =>
    dsimp only
    split
    · rename_i due
      rw [Bool.and_eq_true, Bool.or_eq_true, beq_iff_eq] at due
      obtain ⟨⟨rules, bearerInv⟩, marked⟩ := inv i bearer present
      have changes : bearer.qosBearerCheck = true := by
        rcases due.1 with qos | flow
        · exact qos
        · exact marked due.2 flow
      obtain ⟨bearer', rules', deleted, newInv, still⟩ := bearerInv.delete ruleName changes
      rw [deleted]
      exact ⟨_, rfl, inv.update i newInv fun _ _ => still⟩
    · exact ⟨bearers, rfl, inv⟩

omit inv in
theorem bearerInv_single (small : rule.Small) {bearer : RuleBearer}
    (array : bearer.dynamicRules = [some rule]) (qos : bearer.qos = rule.qos) :
    BearerInv bearer [rule] := by
  refine ⟨array, by simp [maxRulePerBearer], nodup_singleton _, fun other mem => ?_, ?_⟩
  · rw [mem_singleton.mp mem]
    exact small
  · rw [qos]
    constructor <;> simp [rateSum, rateMax]

theorem PdnInv.create {slot : Nat} (ok : PolicyOp.Ok bearers (.create rule slot)) :
    ∃ bearers', createBearerRule rule slot bearers = some bearers' ∧ PdnInv bearers' := by
  obtain ⟨small, empty⟩ := ok
  rw [createBearerRule]
  cases found : (getBearer bearers rule.qos).bind fun b => (bearers b).map fun bearer => (b, bearer) with
  | none =>
    exact ⟨_, if_pos (by simp [maxRulePerBearer]),
      inv.update slot (bearerInv_single small rfl rfl) fun new => nomatch new⟩
  | some pair =>
    obtain ⟨b, bearer⟩ := pair
    obtain ⟨j, matched, mapped⟩ := bind_eq_some_iff.mp found
    obtain ⟨stored, present, same⟩ := map_eq_some_iff.mp mapped
    cases same
    have noRules := empty b matched bearer present
    refine ⟨_, if_pos (by rw [noRules]; decide),
      inv.update b (bearerInv_single small ?_ rfl) (inv b bearer present).2⟩
    rw [noRules, nil_append]

theorem PdnInv.step {op : PolicyOp} (ok : PolicyOp.Ok bearers op) :
    ∃ bearers', op.exec bearers = some bearers' ∧ PdnInv bearers' := by
  cases op with
  | install hss definition old index =>
    obtain ⟨small, matched⟩ := ok
    rw [PolicyOp.exec, storeDynamicRule]
    cases found : (getBearer bearers (fillChargingRuleDefinition definition old).qos).bind
        fun b => (bearers b).map fun bearer => (b, bearer) with
    | none =>
      obtain ⟨stored, done, newInv⟩ := inv.storeUnmatched small hss index
      rw [done]
      exact ⟨_, rfl, newInv⟩
    | some pair =>
      obtain ⟨b, bearer⟩ := pair
      obtain ⟨j, isMatch, mapped⟩ := bind_eq_some_iff.mp found
      obtain ⟨stored, present, same⟩ := map_eq_some_iff.mp mapped
      cases same
      dsimp only
      split
      · exact ⟨_, rfl, inv⟩
      · rename_i hasRules
        obtain ⟨stored, done, newInv⟩ :=
          inv.storeMatched small present (matched b isMatch bearer present hasRules)
        rw [done]
        exact ⟨_, rfl, newInv⟩
  | remove index => exact inv.storeRemoval ok
  | applyRemoval ruleName index => exact inv.applyRemoval ruleName ok
  | create rule slot => exact inv.create ok
  | answered i =>
    obtain ⟨bearer, present⟩ := ne_none_iff_exists'.mp ok
    obtain ⟨⟨rules, bearerInv⟩, -⟩ := inv i bearer present
    rw [PolicyOp.exec, present]
    exact ⟨_, rfl, inv.update i (bearerInv.congr rfl bearerInv.aggregates) fun _ flows => nomatch flows⟩

end

def Ruleless (bearers : RuleBearers) : Prop :=
  ∀ i bearer, bearers i = some bearer →
    bearer.dynamicRules = [] ∧ Aggregates bearer.qos [] ∧ bearer.Marked

theorem Ruleless.pdnInv (ruleless : Ruleless bearers) : PdnInv bearers := by
  intro i bearer present
  obtain ⟨noRules, noRates, marked⟩ := ruleless i bearer present
  exact ⟨⟨[], noRules, by decide, nodup_nil, forall_mem_nil _, noRates⟩, marked⟩

def PolicyOp.step (bearers : RuleBearers) (op : PolicyOp) : RuleBearers :=
  (op.exec bearers).getD bearers

def emptyBearer : RuleBearers :=
  fun i => if i = 15 then some { epsBearerId := 16, qos := { qci := 1 } } else none

theorem ruleless_emptyBearer : Ruleless emptyBearer := by
  intro i bearer present
  rw [emptyBearer] at present
  split at present
  · cases present
    exact ⟨rfl, ⟨rfl, rfl, rfl, rfl⟩, fun new => nomatch new⟩
  · cases present

def voiceRule (name : Char) (gbr mbr : UInt32) : RuleDefinition where
  chargingRuleName := [name]
  qosInformation := some
    { qosClassIdentifier := 1
      maxRequestedBandwidthUl := mbr
      maxRequestedBandwidthDl := mbr
      guaranteedBitrateUl := gbr
      guaranteedBitrateDl := gbr }
  flowInformation := none

def unsetRule : PolicyRule where
  ruleName := []
  qos := {}
  flowDesc := []

def voiceRun : List PolicyOp :=
  [.create (fillChargingRuleDefinition (voiceRule 'a' 10 20) unsetRule) 15,
    .install none (voiceRule 'b' 5 30) unsetRule none,
    .install none (voiceRule 'a' 40 50) unsetRule (some 15), .remove (some 15),
    .applyRemoval ['b'] (some 15)]

def twiceRun : List PolicyOp :=
  [.create (fillChargingRuleDefinition (voiceRule 'a' 10 20) unsetRule) 15,
    .install none (voiceRule 'b' 5 30) unsetRule none,
    .install none (voiceRule 'b' 5 30) unsetRule none, .remove (some 15)]

end Epc.Cp

import Epc.Lib.Run
import Epc.Lib.Text
import Epc.Cp.UeContext

/-! The map from rule names to bearers: `add_ebi_rule_name_entry` (`pfcp_messages/pfcp_gx.c`), the
entries of `rule_name_bearer_id_map_hash` (`pfcp_messages/pfcp_init.c`) and `delete_rule_in_bearer`
(`cp/gtpc_session.c`). The keys of different rules can be the same: all depends on no operation being on
another rule with the same key. -/

namespace Epc.Cp

open Epc.Lib Epc.Lib.Run Epc.Lib.Text List Table

def ruleNameLen : Nat := 256

structure NamedRule where
  callId : UInt32
  pdefRule : Bool
  ruleName : List Char
  deriving DecidableEq, Repr

/-- A call id as `%d` prints it. -/
def printCallId (callId : UInt32) : List Char :=
  if callId.toNat < 2 ^ 31 then decimal callId.toNat else '-' :: decimal (2 ^ 32 - callId.toNat)

/-- The `rule_name_key_t`: the name, and the call id behind it unless predefined. -/
def NamedRule.key (rule : NamedRule) : List Char :=
  (if rule.pdefRule then rule.ruleName else rule.ruleName ++ printCallId rule.callId).take
    (ruleNameLen - 1)

abbrev RuleNameHash : Type := Table (List Char) Nat

/-- `add_rule_name_entry`: an entry that is there is overwritten. -/
def addRuleNameEntry (key : List Char) (bearer : Nat) (hash : RuleNameHash) : RuleNameHash :=
  hash.add key bearer

def getRuleNameEntry (key : List Char) (hash : RuleNameHash) : Option Nat :=
  hash key

def delRuleNameEntry (key : List Char) (hash : RuleNameHash) : RuleNameHash :=
  hash.del key

/-- `add_ebi_rule_name_entry`; nothing is stored for an invalid EBI. -/
def addEbiRuleNameEntry (rule : NamedRule) (ebi : UInt8) (hash : RuleNameHash) : RuleNameHash :=
  match getEbiIndex ebi.toNat with
  | none => hash
  | some ebiIndex => addRuleNameEntry rule.key ebiIndex hash

/-- A bearer's `RULE_CNT` slots of `dynamic_rules` and `prdef_rules`. -/
structure NamedBearer where
  callId : UInt32
  slots : List (Option (List Char) × Option (List Char))
  deriving DecidableEq, Repr

def NamedBearer.rules (bearer : NamedBearer) : List NamedRule :=
  bearer.slots.flatMap fun slot =>
    (slot.1.map fun ruleName => ⟨bearer.callId, false, ruleName⟩).toList ++
      (slot.2.map fun ruleName => ⟨bearer.callId, true, ruleName⟩).toList

def deleteRuleInBearer (bearer : NamedBearer) (hash : RuleNameHash) : RuleNameHash :=
  bearer.rules.foldl (fun hash rule => delRuleNameEntry rule.key hash) hash

inductive RuleNameOp where
  | add (rule : NamedRule) (ebi : UInt8)
  | delete (bearer : NamedBearer)
  deriving DecidableEq, Repr

def RuleNameOp.step (hash : RuleNameHash) : RuleNameOp → RuleNameHash
  | .add rule ebi => addEbiRuleNameEntry rule ebi hash
  | .delete bearer => deleteRuleInBearer bearer hash

section

theorem decimal_injective {m n : Nat} (same : decimal m = decimal n) : m = n := by
  have read (k : Nat) := scanDigits_toDigits (by decide : 2 ≤ 10) (by decide) k
    (by simp : ∀ c ∈ ([] : List Char).head?, ¬isDigitIn 10 c)
  have left := read m
  rw [← decimal, same, decimal, read n] at left
  exact (Prod.mk.inj left).1.symm

theorem printCallId_injective {a b : UInt32} (same : printCallId a = printCallId b) : a = b := by
  have boundB := b.toNat_lt
  have sign {n : Nat} {cs : List Char} (printed : decimal n = '-' :: cs) : False :=
    notMem_decimal (by decide : '-'.isDigit = false) n (printed ▸ mem_cons_self)
  rw [printCallId, printCallId] at same
  apply UInt32.toNat_inj.mp
  split at same
  · split at same
    · exact decimal_injective same
    · exact (sign same).elim
  · split at same
    · exact (sign same.symm).elim
    · have equal := decimal_injective (List.cons.inj same).2
      omega

def ofNumber (c : Char) : Bool := c.isDigit || c = '-'

theorem ofNumber_printCallId {callId : UInt32} {c : Char} (mem : c ∈ printCallId callId) :
    ofNumber c := by
  rw [printCallId] at mem
  rw [ofNumber, Bool.or_eq_true]
  split at mem
  · exact .inl (isDigit_of_mem_decimal mem)
  · rcases mem_cons.mp mem with rfl | digit
    · exact .inr rfl
    · exact .inl (isDigit_of_mem_decimal digit)

theorem printCallId_ne_nil (callId : UInt32) : printCallId callId ≠ [] := by
  rw [printCallId]
  split
  · exact decimal_ne_nil _
  · exact cons_ne_nil _ _

theorem length_printCallId_le (callId : UInt32) : (printCallId callId).length ≤ 11 := by
  rw [printCallId]
  split
  · exact (length_decimal_le (by decide) (by omega : callId.toNat < 10 ^ 10)).trans (by decide)
  · have digits := length_decimal_le (by decide) (by omega : 2 ^ 32 - callId.toNat < 10 ^ 10)
    rw [length_cons]
    omega

/-- The name is short enough for the key, and does not end like a call id. -/
structure NamedRule.Plain (rule : NamedRule) : Prop where
  short : rule.ruleName.length < 200
  last : ∀ c ∈ rule.ruleName.getLast?, ofNumber c = false

theorem NamedRule.Plain.key_eq {rule : NamedRule} (plain : rule.Plain) :
    rule.key = if rule.pdefRule then rule.ruleName else rule.ruleName ++ printCallId rule.callId := by
  have short := plain.short
  have digits := length_printCallId_le rule.callId
  rw [NamedRule.key, take_of_length_le]
  split
  · rw [ruleNameLen]
    omega
  · rw [length_append, ruleNameLen]
    omega

theorem eq_of_append_printCallId {a b : List Char} {c d : UInt32}
    (last : ∀ x ∈ a.getLast?, ofNumber x = false) (rest : List Char) (longer : a = b ++ rest)
    (same : rest ++ printCallId c = printCallId d) : rest = [] := by
  by_contra more
  have final := getLast?_eq_some_getLast more
  have mem : rest.getLast more ∈ printCallId d := same ▸ mem_append_left _ (getLast_mem more)
  have ends := last (rest.getLast more) (by rw [longer, getLast?_append, final]; rfl)
  rw [ofNumber_printCallId mem] at ends
  cases ends

theorem NamedRule.Plain.eq_of_key {a b : NamedRule} (plainA : a.Plain) (plainB : b.Plain)
    (same : a.key = b.key) : a = b ∨ a.pdefRule ∧ b.pdefRule ∧ a.ruleName = b.ruleName := by
  have predefined {p q : NamedRule} (plain : p.Plain)
      (mixed : p.ruleName = q.ruleName ++ printCallId q.callId) : False := by
    have some_digit := printCallId_ne_nil q.callId
    have final := getLast?_eq_some_getLast some_digit
    have ends := plain.last ((printCallId q.callId).getLast some_digit)
      (by rw [mixed, getLast?_append, final]; rfl)
    rw [ofNumber_printCallId (getLast_mem some_digit)] at ends
    cases ends
  rw [plainA.key_eq, plainB.key_eq] at same
  split at same
  · split at same
    · rename_i preA preB
      exact .inr ⟨preA, preB, same⟩
    · exact (predefined plainA same).elim
  · split at same
    · exact (predefined plainB same.symm).elim
    · rename_i dynamicA dynamicB
      left
      have names : a.ruleName = b.ruleName := by
        rcases append_eq_append_iff.mp same with ⟨rest, longer, numbers⟩ | ⟨rest, longer, numbers⟩
        · have none := eq_of_append_printCallId plainB.last rest longer numbers.symm
          rw [longer, none, append_nil]
        · have none := eq_of_append_printCallId plainA.last rest longer numbers.symm
          rw [longer, none, append_nil]
      rw [names] at same
      have calls := printCallId_injective (append_cancel_left same)
      obtain ⟨callA, preA, nameA⟩ := a
      obtain ⟨callB, preB, nameB⟩ := b
      simp_all

end

/-- The bearer last stored for a rule and not deleted since, after one operation. -/
def RuleNameOp.lastStored (rule : NamedRule) (before : Option Nat) : RuleNameOp → Option Nat
  | .add other ebi => if other = rule then (getEbiIndex ebi.toNat).or before else before
  | .delete bearer => if rule ∈ bearer.rules then none else before

def lastStored (ops : List RuleNameOp) (rule : NamedRule) : Option Nat :=
  ops.foldl (RuleNameOp.lastStored rule) none

def RuleNameOp.callId : RuleNameOp → UInt32
  | .add rule _ => rule.callId
  | .delete bearer => bearer.callId

def RuleNameOp.Apart (rule : NamedRule) : RuleNameOp → Prop
  | .add other _ => other.key = rule.key → other = rule
  | .delete bearer => ∀ other ∈ bearer.rules, other.key = rule.key → other = rule

def RuleNameOp.rules : RuleNameOp → List NamedRule
  | .add rule _ => [rule]
  | .delete bearer => bearer.rules

variable {rule : NamedRule} {op : RuleNameOp}

theorem RuleNameOp.Apart.of_plain (plain : rule.Plain)
    (dynamic : rule.pdefRule = false) (others : ∀ other ∈ op.rules, other.Plain) : op.Apart rule := by
  have apart : ∀ other ∈ op.rules, other.key = rule.key → other = rule := by
    intro other mem keys
    rcases (others other mem).eq_of_key plain keys with same | ⟨-, predefined, -⟩
    · exact same
    · rw [dynamic] at predefined
      cases predefined
  cases op with
  | add other ebi => exact apart other mem_cons_self
  | delete bearer => exact apart

theorem foldl_delRuleNameEntry (rules : List NamedRule) (key : List Char) (hash : RuleNameHash) :
    getRuleNameEntry key (rules.foldl (fun hash rule => delRuleNameEntry rule.key hash) hash) =
      if ∃ rule ∈ rules, rule.key = key then none else getRuleNameEntry key hash := by
  induction rules generalizing hash with
  | nil => simp
  | cons rule rest ih =>
    rw [foldl_cons, ih]
    by_cases later : ∃ rule ∈ rest, rule.key = key
    · rw [if_pos later, if_pos (later.imp fun _ both => ⟨mem_cons_of_mem _ both.1, both.2⟩)]
    · rw [if_neg later]
      by_cases here : rule.key = key
      · rw [if_pos ⟨rule, mem_cons_self, here⟩, ← here]
        exact del_self ..
      · rw [if_neg]
        · exact del_of_ne (Ne.symm here)
        · rintro ⟨other, mem, same⟩
          rcases mem_cons.mp mem with rfl | mem
          · exact here same
          · exact later ⟨other, mem, same⟩

theorem RuleNameOp.step_entry (apart : op.Apart rule) (hash : RuleNameHash) :
    getRuleNameEntry rule.key (op.step hash) =
      op.lastStored rule (getRuleNameEntry rule.key hash) := by
  cases op with
  | add other ebi =>
    rw [RuleNameOp.step, addEbiRuleNameEntry, RuleNameOp.lastStored]
    by_cases same : other = rule
    · subst same
      rw [if_pos rfl]
      cases getEbiIndex ebi.toNat with
      | none => rfl
      | some index => exact add_self ..
    · rw [if_neg same]
      cases getEbiIndex ebi.toNat with
      | none => rfl
      | some index => exact add_of_ne fun keys => same (apart keys.symm)
  | delete bearer =>
    rw [RuleNameOp.step, deleteRuleInBearer, foldl_delRuleNameEntry, RuleNameOp.lastStored]
    refine if_congr ⟨?_, fun mem => ⟨rule, mem, rfl⟩⟩ rfl rfl
    rintro ⟨other, mem, keys⟩
    exact apart other mem keys ▸ mem

theorem RuleNameOp.lastStored_of_other
    (other : op.callId ≠ rule.callId) (before : Option Nat) : op.lastStored rule before = before := by
  cases op with
  | add rule' ebi => exact if_neg fun same => other (congrArg NamedRule.callId same)
  | delete bearer =>
    refine if_neg fun mem => other ?_
    obtain ⟨slot, -, inside⟩ := mem_flatMap.mp mem
    rcases mem_append.mp inside with dynamic | predefined
    · obtain ⟨name, -, rfl⟩ := Option.map_eq_some_iff.mp (Option.mem_toList.mp dynamic)
      rfl
    · obtain ⟨name, -, rfl⟩ := Option.map_eq_some_iff.mp (Option.mem_toList.mp predefined)
      rfl

/-- After operations none of which is on another rule with its key, a rule's entry is the bearer
last stored, and other PDN connections do not change it. -/
theorem ruleNameRun_isolated (ops : List RuleNameOp) (rule : NamedRule)
    (apart : ∀ op ∈ ops, op.Apart rule) :
    getRuleNameEntry rule.key (run RuleNameOp.step Table.empty ops) = lastStored ops rule ∧
      ∀ before op, before ++ [op] <+: ops → op.callId ≠ rule.callId →
        getRuleNameEntry rule.key (run RuleNameOp.step Table.empty (before ++ [op])) =
          getRuleNameEntry rule.key (run RuleNameOp.step Table.empty before) := by
  refine ⟨?_, fun before op ⟨rest, whole⟩ other => ?_⟩
  · induction ops using List.reverseRecOn with
    | nil => rfl
    | append_singleton ops op ih =>
      have earlier := ih fun op member => apart op (mem_append_left _ member)
      have last := apart op (mem_append_right _ mem_cons_self)
      rw [run_append, run_cons, run_nil, op.step_entry last, earlier, lastStored, lastStored,
        foldl_append]
      rfl
  · have member : op ∈ ops := by
      rw [← whole]
      simp
    rw [run_append, run_cons, run_nil, op.step_entry (apart op member), op.lastStored_of_other other]

def dynamicRule (callId : UInt32) (name : Char) : NamedRule := ⟨callId, false, [name]⟩

theorem plain_dynamicRule (callId : UInt32) {name : Char} (plain : ofNumber name = false) :
    (dynamicRule callId name).Plain :=
  ⟨by simp [dynamicRule], by simpa [dynamicRule] using plain⟩

def twoPdnOps : List RuleNameOp :=
  [.add (dynamicRule 2 'r') 5, .add (dynamicRule 12 'r') 7, .add (dynamicRule 2 's') 6,
    .delete ⟨2, [(some ['s'], none)]⟩]

theorem ruleNameRun_isolated_twoPdnOps :
    (∀ op ∈ twoPdnOps, op.Apart (dynamicRule 2 'r')) ∧
      getRuleNameEntry (dynamicRule 2 'r').key (run RuleNameOp.step Table.empty twoPdnOps) =
          lastStored twoPdnOps (dynamicRule 2 'r') ∧
        ∀ before op, before ++ [op] <+: twoPdnOps → op.callId ≠ (dynamicRule 2 'r').callId →
          getRuleNameEntry (dynamicRule 2 'r').key
              (run RuleNameOp.step Table.empty (before ++ [op])) =
            getRuleNameEntry (dynamicRule 2 'r').key (run RuleNameOp.step Table.empty before) := by
  have letter (callId : UInt32) : (dynamicRule callId 'r').Plain := plain_dynamicRule callId (by decide)
  have other (callId : UInt32) : (dynamicRule callId 's').Plain := plain_dynamicRule callId (by decide)
  have apart : ∀ op ∈ twoPdnOps, op.Apart (dynamicRule 2 'r') := by
    intro op member
    refine .of_plain (letter 2) rfl ?_
    simp only [twoPdnOps, mem_cons, not_mem_nil, or_false] at member
    rcases member with rfl | rfl | rfl | rfl
    · exact forall_mem_singleton.mpr (letter 2)
    · exact forall_mem_singleton.mpr (letter 12)
    · exact forall_mem_singleton.mpr (other 2)
    · exact forall_mem_singleton.mpr (other 2)
  exact ⟨apart, ruleNameRun_isolated twoPdnOps (dynamicRule 2 'r') apart⟩

/-- The rule `r` of call 12 and the rule `r1` of call 2 have the same key. -/
def digitOps : List RuleNameOp :=
  [.add ⟨12, false, ['r']⟩ 5, .add ⟨2, false, ['r', '1']⟩ 7]

/-- The bearer of the rule of call 12 is changed by call 2. -/
theorem digitOps_not_isolated :
    getRuleNameEntry (NamedRule.key ⟨12, false, ['r']⟩) (run RuleNameOp.step Table.empty digitOps) ≠
      lastStored digitOps ⟨12, false, ['r']⟩ := by
  decide +kernel

end Epc.Cp

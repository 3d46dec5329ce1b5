import Epc.Cp.PolicyStore
import Epc.Lib.Run
import Epc.Up.AclRule

/-! The counters of a policy and the entries of a Charging-Rule-Remove. -/

namespace Epc.Cp.Policy

open Lib List Function
open Option hiding mem_map

namespace PolicyPdn

variable {pdn pdn' : PolicyPdn}

section

theorem count_add_one (room : pdn.count.toNat < maxRules) :
    (pdn.count + 1).toNat = pdn.count.toNat + 1 := by
  rw [maxRules] at room
  rw [UInt8.toNat_add, UInt8.toNat_one, Nat.mod_eq_of_lt (by omega)]

theorem filterMap_update (slots : Nat → Option PccRule) (n : Nat) (entry : PccRule) :
    (List.range n).filterMap (Function.update slots n (some entry)) =
      (List.range n).filterMap slots := by
  apply filterMap_congr
  intro i mem
  exact update_of_ne (mem_range.mp mem).ne _ _

theorem entries_setEntry (entry : PccRule) : (pdn.setEntry entry).entries = pdn.entries :=
  filterMap_update pdn.pccRule pdn.count.toNat entry

theorem pccRule_bump (counter : Counter) : (pdn.bump counter).pccRule = pdn.pccRule := by
  cases counter <;> rfl

theorem entries_enter (room : pdn.count.toNat < maxRules) (entry : PccRule) (action : RuleAction)
    (counter : Counter) :
    (pdn.enter entry action counter).entries = pdn.entries ++ [{ entry with action }] := by
  have slots : (pdn.enter entry action counter).pccRule =
      Function.update pdn.pccRule pdn.count.toNat (some { entry with action }) :=
    pccRule_bump counter
  rw [entries, slots]
  change (List.range (pdn.count + 1).toNat).filterMap _ = _
  rw [count_add_one room, range_succ, filterMap_append, filterMap_update,
    filterMap_cons_some (update_self ..), filterMap_nil]
  rfl

theorem openEntry_ok {entry : PccRule} (opened : pdn.openEntry = .ok entry) :
    pdn.count.toNat < maxRules := by
  rw [openEntry] at opened
  split at opened
  · assumption
  · cases opened

theorem presentEntry_ok {entry : PccRule} (found : pdn.presentEntry = .ok entry) :
    pdn.count.toNat < maxRules := by
  rw [presentEntry] at found
  split at found
  · assumption
  · cases found

end

section

theorem numEntries_enter (room : pdn.count.toNat < maxRules) (entry : PccRule) {action : RuleAction}
    {counter : Counter} (kind : Counter.ofAction action = some counter) (other : Counter) :
    (pdn.enter entry action counter).numEntries other =
      pdn.numEntries other + if counter = other then 1 else 0 := by
  rw [numEntries, entries_enter room, countP_append, countP_singleton, numEntries, kind]
  simp

def num (pdn : PolicyPdn) : Counter → UInt8
  | .install => pdn.numChargRuleInstall
  | .modify => pdn.numChargRuleModify
  | .delete => pdn.numChargRuleDelete

theorem num_enter (entry : PccRule) (action : RuleAction) (counter other : Counter) :
    (pdn.enter entry action counter).num other =
      if counter = other then pdn.num other + 1 else pdn.num other := by
  cases counter <;> cases other <;> rfl

theorem counted_iff :
    pdn.Counted ↔ pdn.entries.length = pdn.count.toNat ∧
      pdn.count.toNat = (pdn.num .install).toNat + (pdn.num .modify).toNat + (pdn.num .delete).toNat ∧
      ∀ counter, (pdn.num counter).toNat = pdn.numEntries counter := by
  refine ⟨fun counted => ⟨counted.entries, counted.total, fun counter => ?_⟩,
    fun ⟨entries, total, each⟩ => ⟨entries, total, each .install, each .modify, each .delete⟩⟩
  cases counter
  · exact counted.install
  · exact counted.modify
  · exact counted.delete

theorem Counted.enter (counted : pdn.Counted) (room : pdn.count.toNat < maxRules) (entry : PccRule)
    {action : RuleAction} {counter : Counter} (kind : Counter.ofAction action = some counter) :
    (pdn.enter entry action counter).Counted := by
  obtain ⟨entries, total, each⟩ := counted_iff.mp counted
  have next : (pdn.enter entry action counter).count.toNat = pdn.count.toNat + 1 := count_add_one room
  have small : pdn.count.toNat < 32 := room
  -- no counter is larger than the number of entries
  have one : ∀ other, ((pdn.enter entry action counter).num other).toNat =
      (pdn.num other).toNat + if counter = other then 1 else 0 := by
    intro other
    have bound : (pdn.num other).toNat < 32 := by cases other <;> omega
    rw [num_enter]
    split
    · rw [UInt8.toNat_add, UInt8.toNat_one, Nat.mod_eq_of_lt (by omega)]
    · rfl
  refine counted_iff.mpr ⟨?_, ?_, fun other => ?_⟩
  · rw [entries_enter room, length_append, length_singleton, entries, next]
  · rw [next, one, one, one, total]
    cases counter <;> simp <;> omega
  · rw [one, numEntries_enter room entry kind, each]

theorem Counted.setEntry (counted : pdn.Counted) (entry : PccRule) : (pdn.setEntry entry).Counted := by
  have same : ∀ counter, (pdn.setEntry entry).numEntries counter = pdn.numEntries counter :=
    fun counter => by rw [numEntries, entries_setEntry, numEntries]
  exact ⟨(congrArg List.length (entries_setEntry entry)).trans counted.entries, counted.total,
    counted.install.trans (same _).symm, counted.modify.trans (same _).symm,
    counted.delete.trans (same _).symm⟩

theorem clearPolicy_counted (pdn : PolicyPdn) : pdn.clearPolicy.Counted :=
  ⟨rfl, rfl, rfl, rfl, rfl⟩

end

theorem Counted.setBearer (counted : pdn.Counted) (i : Nat) (bearer : RuleBearer) :
    (pdn.setBearer i bearer).Counted :=
  ⟨counted.entries, counted.total, counted.install, counted.modify, counted.delete⟩

end PolicyPdn

section

open PolicyPdn

variable {str : RteString} {definition : ChargingRuleDefinition} {pdn pdn' : PolicyPdn}
  {entry : PccRule} {predefined : PccTable}

variable {i b : Nat} {old : RuleBearer}

variable (counted : pdn.Counted)

include counted

section

variable (room : pdn.count.toNat < maxRules)

include room

theorem storeMoved_counted
    (stored : storeMoved str definition entry i old pdn = .ok pdn') : pdn'.Counted := by
  obtain ⟨second, opened, rest⟩ := except_bind_ok stored
  obtain ⟨filled, -, rest⟩ := except_bind_ok rest
  cases rest
  have first := counted.enter room entry (rfl : Counter.ofAction .add = some .install)
  exact (first.setBearer i old.markRemoval).enter (openEntry_ok opened) filled rfl

theorem storeChanged_counted (stored : storeChanged entry i old pdn = .ok pdn') : pdn'.Counted := by
  obtain ⟨⟨accepted, bearer⟩, -, rest⟩ := except_bind_ok stored
  cases rest
  have same : ∀ bearers, (({ pdn with bearers } : PolicyPdn).enter entry .modify .modify).Counted :=
    fun bearers =>
      have kept : ({ pdn with bearers } : PolicyPdn).Counted :=
        ⟨counted.entries, counted.total, counted.install, counted.modify, counted.delete⟩
      kept.enter room entry rfl
  split
  · exact same _
  · exact same _

theorem storeUnmatchedEntry_counted {found : Bool} {index : Option Nat}
    (stored : storeUnmatchedEntry str definition entry found index pdn = .ok pdn') : pdn'.Counted := by
  rw [storeUnmatchedEntry] at stored
  split at stored
  · cases stored
    exact counted.enter room entry rfl
  · split at stored
    · exact storeMoved_counted counted room stored
    · exact storeChanged_counted counted room stored

theorem storeTransferred_counted
    (stored : storeTransferred str definition entry b i old pdn = .ok pdn') : pdn'.Counted := by
  rw [storeTransferred] at stored
  have first : (if 1 < old.dynamicRules.length then
        (pdn.setBearer i old.markRemoval).enter entry .modifyRemoveRule .modify
      else (pdn.setBearer i { old with action := .delete }).enter entry .delete .delete).Counted := by
    split
    · exact (counted.setBearer i _).enter room entry rfl
    · exact (counted.setBearer i _).enter room entry rfl
  obtain ⟨second, present, rest⟩ := except_bind_ok stored
  obtain ⟨filled, -, rest⟩ := except_bind_ok rest
  obtain ⟨bearer, -, rest⟩ := except_bind_ok rest
  obtain ⟨bearer', -, rest⟩ := except_bind_ok rest
  cases rest
  exact (first.setBearer b _).enter (presentEntry_ok present) filled rfl

theorem storeMatchedEntry_counted {bearer : RuleBearer} {index : Option Nat}
    (stored : storeMatchedEntry str definition entry b bearer index pdn = .ok pdn') : pdn'.Counted := by
  rw [storeMatchedEntry.eq_def] at stored
  split at stored
  · obtain ⟨⟨accepted, changed⟩, -, rest⟩ := except_bind_ok stored
    dsimp only at rest
    split at rest
    · cases rest
      exact (counted.setBearer b _).enter room entry rfl
    · cases rest
  · split at stored
    · obtain ⟨added, -, rest⟩ := except_bind_ok stored
      cases rest
      exact (counted.setBearer b _).enter room entry rfl
    · split at stored
      · cases stored
      · exact storeTransferred_counted counted room stored

end

theorem storeDefinition_counted
    (stored : storeDefinition str definition pdn = .ok pdn') : pdn'.Counted := by
  rw [storeDefinition] at stored
  split at stored
  · cases stored
  · obtain ⟨opened, isOpen, rest⟩ := except_bind_ok stored
    obtain ⟨filled, -, rest⟩ := except_bind_ok rest
    have room := openEntry_ok isOpen
    dsimp only at rest
    split at rest
    · exact storeUnmatchedEntry_counted counted room rest
    · split at rest
      · exact storeUnmatchedEntry_counted counted room rest
      · exact storeMatchedEntry_counted counted room rest

theorem addPrdefBearerRule_counted {rule : PolicyRule} {key : List Char} {bearer : RuleBearer}
    (added : addPrdefBearerRule rule key b bearer pdn = .ok pdn') :
    pdn'.Counted ∧ pdn'.count = pdn.count := by
  rw [addPrdefBearerRule] at added
  split at added
  · split at added
    · cases added
    · cases added
      exact ⟨⟨counted.entries, counted.total, counted.install, counted.modify, counted.delete⟩, rfl⟩
  · cases added

theorem storePredefined_counted {name : OctetText}
    (stored : storePredefined predefined name pdn = .ok pdn') : pdn'.Counted := by
  obtain ⟨opened, isOpen, rest⟩ := except_bind_ok stored
  obtain ⟨rule, -, rest⟩ := except_bind_ok rest
  have room := openEntry_ok isOpen
  dsimp only at rest
  split at rest
  · cases rest
    exact counted.enter room _ rfl
  · split at rest
    · cases rest
      exact counted.enter room _ rfl
    · split at rest
      · cases rest
      · obtain ⟨between, added, rest⟩ := except_bind_ok rest
        obtain ⟨counted', same⟩ := addPrdefBearerRule_counted counted added
        cases rest
        exact (counted'.setBearer _ _).enter (same ▸ room) _ rfl

theorem storeRemovalOf_counted {name : OctetText}
    (stored : storeRemovalOf name pdn = .ok pdn') : pdn'.Counted := by
  obtain ⟨opened, isOpen, rest⟩ := except_bind_ok stored
  have room := openEntry_ok isOpen
  dsimp only at rest
  split at rest
  · cases rest
    exact counted.setEntry _
  · split at rest
    · cases rest
    · split at rest
      · cases rest
        exact (counted.setBearer _ _).enter room _ rfl
      · cases rest
        exact (counted.setBearer _ _).enter room _ rfl

theorem storeRemove_counted {avp : ChargingRuleRemove}
    (stored : storeRemove avp pdn = .ok pdn') : pdn'.Counted := by
  rw [storeRemove.eq_def] at stored
  split at stored
  · cases stored
    exact counted
  · cases stored
  · exact storeRemovalOf_counted counted stored

theorem storeAll_counted {α : Type} {store : α → PolicyPdn → Except Refusal PolicyPdn}
    (keeps : ∀ a pdn pdn', pdn.Counted → store a pdn = .ok pdn' → pdn'.Counted) {list : List α}
    (stored : storeAll store list pdn = .ok pdn') : pdn'.Counted := by
  induction list generalizing pdn with
  | nil =>
    cases stored
    exact counted
  | cons a rest ih =>
    obtain ⟨between, first, others⟩ := except_bind_ok stored
    exact ih (keeps a pdn between counted first) others

theorem storeInstall_counted {avp : ChargingRuleInstall}
    (stored : storeInstall str predefined avp pdn = .ok pdn') : pdn'.Counted := by
  obtain ⟨between, definitions, rest⟩ := except_bind_ok stored
  have counted' := storeAll_counted counted (fun _ _ _ => storeDefinition_counted) definitions
  split at rest
  · exact storeAll_counted counted' (fun _ _ _ kept => storePredefined_counted kept) rest
  · split at rest
    · cases rest
    · cases rest
      exact counted'

end

/-- When zero is returned, the counters of the policy match its entries. -/
theorem storeDynamicRulesInPolicy_counted (str : RteString) (predefined : PccTable)
    (install : List ChargingRuleInstall) (remove : List ChargingRuleRemove) (pdn pdn' : PolicyPdn)
    (stored : storeDynamicRulesInPolicy str predefined install remove pdn = .ok pdn') :
    pdn'.Counted := by
  obtain ⟨between, installed, removed⟩ := except_bind_ok stored
  have counted := storeAll_counted pdn.clearPolicy_counted
    (fun _ _ _ kept => storeInstall_counted kept) installed
  exact storeAll_counted counted (fun _ _ _ kept => storeRemove_counted kept) removed

section

open PolicyPdn

structure Tracks (start pdn : PolicyPdn) : Prop where
  callId : pdn.callId = start.callId
  ruleNames : pdn.ruleNames = start.ruleNames
  bearers : ∀ i, (pdn.bearers i).isSome = (start.bearers i).isSome
  held : ∀ k, pdn.heldPredefined k = start.heldPredefined k

variable {start pdn pdn' : PolicyPdn}

theorem heldPredefined_update (slots : Nat → Option PccRule) (n k : Nat) (entry : PccRule)
    (same : entry.predefinedRule = (slots n).any PccRule.predefinedRule) :
    (Function.update slots n (some entry) k).any PccRule.predefinedRule =
      (slots k).any PccRule.predefinedRule := by
  by_cases own : k = n
  · rw [own, update_self, ← same, any_some]
  · rw [update_of_ne own]

variable {entry : PccRule}

theorem Tracks.setEntry (tracks : Tracks start pdn)
    (same : entry.predefinedRule = pdn.heldPredefined pdn.count.toNat) :
    Tracks start (pdn.setEntry entry) :=
  ⟨tracks.callId, tracks.ruleNames, tracks.bearers, fun k =>
    (heldPredefined_update pdn.pccRule pdn.count.toNat k entry same).trans (tracks.held k)⟩

theorem Tracks.enter (tracks : Tracks start pdn) (action : RuleAction)
    (counter : Counter) (same : entry.predefinedRule = pdn.heldPredefined pdn.count.toNat) :
    Tracks start (pdn.enter entry action counter) := by
  have kept : Tracks start (pdn.setEntry { entry with action }) := tracks.setEntry same
  cases counter <;> exact ⟨kept.callId, kept.ruleNames, kept.bearers, kept.held⟩

theorem Tracks.setBearer (tracks : Tracks start pdn) {i : Nat} {old bearer : RuleBearer}
    (present : pdn.bearers i = some old) : Tracks start (pdn.setBearer i bearer) := by
  refine ⟨tracks.callId, tracks.ruleNames, fun k => ?_, tracks.held⟩
  rw [← tracks.bearers]
  change (Function.update pdn.bearers i (some bearer) k).isSome = _
  by_cases own : k = i
  · rw [own, present, update_self, isSome_some, isSome_some]
  · rw [update_of_ne own]

theorem openEntry_predefinedRule (opened : pdn.openEntry = .ok entry) :
    entry.predefinedRule = pdn.heldPredefined pdn.count.toNat := by
  rw [openEntry, if_pos (openEntry_ok opened)] at opened
  cases opened
  rw [heldPredefined]
  cases pdn.pccRule pdn.count.toNat <;> rfl

def lookup (start : PolicyPdn) (k : Nat) (name : OctetText) : Option Nat :=
  getRuleNameEntry (NamedRule.key ⟨start.callId, start.heldPredefined k, name.text⟩) start.ruleNames

def IsRemoval (entry : PccRule) : Prop :=
  entry.action = .delete ∨ entry.action = .modifyRemoveRule

theorem storeRemovalOf_spec (tracks : Tracks start pdn) (room : pdn.count.toNat < maxRules)
    (name : OctetText) :
    match lookup start pdn.count.toNat name with
    | none => ∃ pdn', storeRemovalOf name pdn = .ok pdn' ∧ Tracks start pdn' ∧
        pdn'.count = pdn.count ∧ pdn'.entries = pdn.entries
    | some i =>
      if (start.bearers i).isSome then
        ∃ pdn' entry, storeRemovalOf name pdn = .ok pdn' ∧ Tracks start pdn' ∧
          pdn'.count = pdn.count + 1 ∧ entry.rule.ruleName = name.text ∧
          IsRemoval entry ∧ pdn'.entries = pdn.entries ++ [entry]
      else ∃ refusal, storeRemovalOf name pdn = .error refusal := by
  have opened : pdn.openEntry = .ok ((pdn.pccRule pdn.count.toNat).getD PccRule.zero) := if_pos room
  have flag := openEntry_predefinedRule opened
  generalize (pdn.pccRule pdn.count.toNat).getD PccRule.zero = entry at opened flag
  have looked : lookup start pdn.count.toNat name =
      getRuleNameEntry (NamedRule.key ⟨pdn.callId, entry.predefinedRule, name.text⟩) pdn.ruleNames := by
    rw [lookup, tracks.callId, tracks.ruleNames, flag, tracks.held]
  rw [looked, storeRemovalOf, opened, except_ok_bind]
  dsimp only
  cases getRuleNameEntry (NamedRule.key ⟨pdn.callId, entry.predefinedRule, name.text⟩)
      pdn.ruleNames with
  | none => exact ⟨_, rfl, tracks.setEntry flag, rfl, entries_setEntry _⟩
  | some i =>
    dsimp only
    rw [← tracks.bearers]
    cases present : pdn.bearers i with
    | none => exact ⟨_, rfl⟩
    | some bearer =>
      rw [isSome_some, if_pos rfl]
      dsimp only
      split
      · exact ⟨_, _, rfl, (tracks.setBearer present).enter _ _ flag, rfl, rfl, .inr rfl,
          @entries_enter (pdn.setBearer i _) room _ _ _⟩
      · exact ⟨_, _, rfl, (tracks.setBearer present).enter _ _ flag, rfl, rfl, .inl rfl,
          @entries_enter (pdn.setBearer i _) room _ _ _⟩

def foundNames (lookups : List (List Char × Option Nat)) : List (List Char) :=
  (lookups.filter fun lookup => lookup.2.isSome).map Prod.fst

variable {avps : List ChargingRuleRemove}

/-- Every AVP has a name, and what is found for the first names is a bearer. -/
structure Removable (start : PolicyPdn) (k : Nat) (avps : List ChargingRuleRemove) : Prop where
  first : some [] ∉ avps
  bearers : ∀ lookup ∈ start.lookups k (firstNames avps), ∀ i, lookup.2 = some i →
    (start.bearers i).isSome

theorem removable_none {k : Nat} : Removable start k (none :: avps) ↔ Removable start k avps :=
  ⟨fun all => ⟨fun mem => all.first (mem_cons_of_mem _ mem), all.bearers⟩,
    fun all => ⟨by simpa using all.first, all.bearers⟩⟩

theorem lookups_cons (start : PolicyPdn) (k : Nat) (name : OctetText) (names : List OctetText) :
    start.lookups k (name :: names) = (name.text, lookup start k name) ::
      start.lookups (if (lookup start k name).isSome then k + 1 else k) names := rfl

theorem removable_cons {k : Nat} {name : OctetText} {others : List OctetText} :
    Removable start k (some (name :: others) :: avps) ↔
      (∀ i, lookup start k name = some i → (start.bearers i).isSome) ∧
        Removable start (if (lookup start k name).isSome then k + 1 else k) avps := by
  constructor
  · rintro ⟨first, bearers⟩
    obtain ⟨here, later⟩ := forall_mem_cons.mp bearers
    exact ⟨here, fun mem => first (mem_cons_of_mem _ mem), later⟩
  · rintro ⟨here, first, later⟩
    exact ⟨by simpa using first, forall_mem_cons.mpr ⟨here, later⟩⟩

def RemovesFrom (start pdn : PolicyPdn) (avps : List ChargingRuleRemove) :
    Except Refusal PolicyPdn → Prop
  | .ok pdn' => Removable start pdn.count.toNat avps ∧ ∃ added, pdn'.entries = pdn.entries ++ added ∧
      added.map (·.rule.ruleName) = foundNames (start.lookups pdn.count.toNat (firstNames avps)) ∧
      ∀ entry ∈ added, IsRemoval entry
  | .error _ => ¬ Removable start pdn.count.toNat avps

theorem RemovesFrom.before {between : PolicyPdn} {avps' : List ChargingRuleRemove}
    {result : Except Refusal PolicyPdn} {front : List PccRule}
    (rest : RemovesFrom start between avps result)
    (removable : Removable start pdn.count.toNat avps' ↔ Removable start between.count.toNat avps)
    (entries : between.entries = pdn.entries ++ front)
    (names : foundNames (start.lookups pdn.count.toNat (firstNames avps')) =
      front.map (·.rule.ruleName) ++ foundNames (start.lookups between.count.toNat (firstNames avps)))
    (removals : ∀ entry ∈ front, IsRemoval entry) : RemovesFrom start pdn avps' result := by
  cases result with
  | error refusal => exact removable.not.mpr rest
  | ok pdn' =>
    obtain ⟨allowed, added, grown, found, later⟩ := rest
    refine ⟨removable.mpr allowed, front ++ added, ?_, ?_, forall_mem_append.mpr ⟨removals, later⟩⟩
    · rw [grown, entries, append_assoc]
    · rw [map_append, names, found]

theorem storeRemoves_spec (tracks : Tracks start pdn)
    (room : pdn.count.toNat + (firstNames avps).length ≤ maxRules) :
    RemovesFrom start pdn avps (storeAll storeRemove avps pdn) := by
  induction avps generalizing pdn with
  | nil =>
    exact ⟨⟨not_mem_nil, fun _ mem => absurd mem not_mem_nil⟩, [], (append_nil _).symm, rfl,
      forall_mem_nil _⟩
  | cons avp avps ih =>
    match avp with
    | none => exact (ih tracks room).before removable_none (append_nil _).symm rfl (forall_mem_nil _)
    | some [] => exact fun removable => removable.first mem_cons_self
    | some (name :: others) =>
      have names : firstNames (some (name :: others) :: avps) = name :: firstNames avps := rfl
      rw [names, length_cons] at room
      have here : pdn.count.toNat < maxRules := by omega
      have step := storeRemovalOf_spec tracks here name
      change RemovesFrom start pdn _ (storeRemovalOf name pdn >>= storeAll storeRemove avps)
      cases found : lookup start pdn.count.toNat name with
      | none =>
        rw [found] at step
        obtain ⟨between, stored, tracks', count, entries⟩ := step
        rw [stored, except_ok_bind]
        refine (ih tracks' (by rw [count]; omega)).before ?_ (entries.trans (append_nil _).symm) ?_
          (forall_mem_nil _)
        · rw [removable_cons, found, count]
          exact and_iff_right nofun
        · rw [names, lookups_cons, found, count]
          rfl
      | some i =>
        rw [found] at step
        dsimp only at step
        split at step
        · rename_i present
          obtain ⟨between, entry, stored, tracks', count, named, removal, entries⟩ := step
          have next : between.count.toNat = pdn.count.toNat + 1 := by
            rw [count, count_add_one here]
          rw [stored, except_ok_bind]
          refine (ih tracks' (by rw [next]; omega)).before ?_ entries ?_ (by simpa using removal)
          · rw [removable_cons, found, next]
            exact and_iff_right fun j same => some.inj same ▸ present
          · rw [names, lookups_cons, found, next, map_singleton, named]
            rfl
        · rename_i missing
          obtain ⟨refusal, refused⟩ := step
          rw [refused]
          exact fun removable => missing ((removable_cons.mp removable).1 i found)

theorem length_firstNames_le : (firstNames avps).length ≤ numNames avps := by
  induction avps with
  | nil => exact Nat.le_refl _
  | cons avp avps ih =>
    have sum : numNames (avp :: avps) = (avp.getD []).length + numNames avps := sum_cons
    rw [sum]
    match avp with
    | none | some [] => exact ih.trans (Nat.le_add_left _ _)
    | some (name :: others) =>
      have names : firstNames (some (name :: others) :: avps) = name :: firstNames avps := rfl
      rw [names, length_cons]
      simp only [getD_some, length_cons]
      omega

theorem clearPolicy_tracks (pdn : PolicyPdn) : Tracks pdn pdn.clearPolicy :=
  ⟨rfl, rfl, fun _ => rfl, fun _ => rfl⟩

theorem countP_ruleName (added : List PccRule) (name : List Char) :
    added.countP (fun entry => entry.rule.ruleName = name) =
      (added.map (·.rule.ruleName)).count name := by
  rw [count_eq_countP, countP_map]
  exact countP_congr fun entry _ => by simp

theorem mem_foundNames {lookups : List (List Char × Option Nat)} {name : List Char}
    (mem : name ∈ foundNames lookups) : ∃ lookup ∈ lookups, lookup.1 = name ∧ lookup.2.isSome := by
  obtain ⟨lookup, filtered, same⟩ := mem_map.mp mem
  obtain ⟨inLookups, found⟩ := mem_filter.mp filtered
  exact ⟨lookup, inLookups, same, found⟩

theorem count_foundNames (lookups : List (List Char × Option Nat)) (name : List Char) :
    (foundNames lookups).count name =
      lookups.countP fun lookup => lookup.1 = name ∧ lookup.2.isSome := by
  rw [foundNames, count_eq_countP, countP_map, countP_filter]
  apply countP_congr
  intro lookup _
  simp

theorem mem_lookups {k : Nat} {names : List OctetText} {lookup : List Char × Option Nat}
    (mem : lookup ∈ pdn.lookups k names) : ∃ name ∈ names, name.text = lookup.1 := by
  induction names generalizing k with
  | nil => exact absurd mem not_mem_nil
  | cons name names ih =>
    rcases mem_cons.mp mem with rfl | later
    · exact ⟨name, mem_cons_self, rfl⟩
    · obtain ⟨name', mem', same⟩ := ih later
      exact ⟨name', mem_cons_of_mem _ mem', same⟩

theorem named_of_mem_firstNames {name : OctetText}
    (mem : name ∈ firstNames avps) : Named avps name.text := by
  obtain ⟨avp, inList, first⟩ := mem_filterMap.mp mem
  obtain ⟨names, present, head⟩ := bind_eq_some_iff.mp first
  exact ⟨names, present ▸ inList, name, mem_of_mem_head? head, rfl⟩

end

/-- A Charging-Rule-Remove is carried out exactly when every named rule on the bearers is found for
one first name, and nothing else is. -/
theorem storeRemoves_removed_iff (str : RteString) (predefined : PccTable)
    (avps : List ChargingRuleRemove) (pdn : PolicyPdn) (few : numNames avps ≤ maxRules) :
    (∃ pdn', storeDynamicRulesInPolicy str predefined [] avps pdn = .ok pdn' ∧
      Removed pdn avps pdn') ↔ pdn.Answers avps := by
  have tracks := clearPolicy_tracks pdn
  have room : pdn.clearPolicy.count.toNat + (firstNames avps).length ≤ maxRules := by
    rw [show pdn.clearPolicy.count.toNat = 0 from rfl, Nat.zero_add]
    exact length_firstNames_le.trans few
  have spec := storeRemoves_spec tracks room
  change RemovesFrom pdn _ avps (storeDynamicRulesInPolicy str predefined [] avps pdn) at spec
  constructor
  · rintro ⟨pdn', done, removed⟩
    rw [done] at spec
    obtain ⟨⟨first, bearers⟩, added, entries, names, -⟩ := spec
    have entries' : pdn'.entries = added := entries
    have counts : ∀ name, pdn'.entries.countP (fun entry => entry.rule.ruleName = name) = _ :=
      fun name => by rw [entries', countP_ruleName, names, count_foundNames]
    refine ⟨first, fun lookup member i found => ⟨bearers lookup member i found, ?_⟩,
      fun name named onBearer => (counts name).symm.trans (removed.once name named onBearer)⟩
    -- a name that is found has an entry
    have some_entry : 0 < pdn'.entries.countP (fun entry => entry.rule.ruleName = lookup.1) := by
      rw [counts]
      exact countP_pos_iff.mpr ⟨lookup, member, by simp [found]⟩
    obtain ⟨entry, inEntries, same⟩ := countP_pos_iff.mp some_entry
    have onBearer := (removed.only entry inEntries).2
    rwa [of_decide_eq_true same] at onBearer
  · intro answers
    cases done : storeDynamicRulesInPolicy str predefined [] avps pdn with
    | error refusal =>
      rw [done] at spec
      exact absurd ⟨answers.first, fun lookup member i found =>
        (answers.onBearer lookup member i found).1⟩ spec
    | ok pdn' =>
      rw [done] at spec
      obtain ⟨-, added, entries, names, removals⟩ := spec
      have entries' : pdn'.entries = added := entries
      refine ⟨pdn', rfl, fun entry member => ?_, fun entry member => ?_, fun name named onBearer => ?_⟩
      · exact removals entry (entries' ▸ member)
      · have isName := mem_map_of_mem (f := fun entry => entry.rule.ruleName) (entries' ▸ member)
        rw [names] at isName
        obtain ⟨lookup, inLookups, found⟩ := mem_foundNames isName
        obtain ⟨i, isFound⟩ := isSome_iff_exists.mp found.2
        obtain ⟨name, inNames, same⟩ := mem_lookups inLookups
        rw [← found.1]
        exact ⟨same ▸ named_of_mem_firstNames inNames, (answers.onBearer lookup inLookups i isFound).2⟩
      · rw [entries', countP_ruleName, names, count_foundNames]
        exact answers.once name named onBearer

section

def ruleOctets (c : Char) (visible : c ≠ '\x00') : OctetText where
  text := [c]
  terminated := by simpa using Ne.symm visible
  fits := by
    rw [List.length_singleton]
    decide

def dynamicRule (name : List Char) : PolicyRule where
  ruleName := name
  qos := { qci := 9 }
  flowDesc := []

def twoRulePdn : PolicyPdn where
  callId := 7
  defaultBearerId := 5
  hssInitiated := false
  bearers := fun i => if i = 4 then some
      { epsBearerId := 5
        qos := { qci := 9 }
        dynamicRules := [some (dynamicRule ['a']), some (dynamicRule ['b'])] }
    else none
  prdefRules := fun _ => []
  ruleNames := fun key => if key = ['a', '7'] ∨ key = ['b', '7'] then some 4 else none
  pccRule := fun _ => none

theorem twoRulePdn_registered : twoRulePdn.Registered := by
  intro i bearer present
  by_cases own : i = 4
  · subst own
    obtain rfl := some_inj.mp present
    refine ⟨fun rule mem => ?_, fun rule mem => absurd mem not_mem_nil⟩
    simp only [mem_cons, not_mem_nil, or_false, some_inj] at mem
    rcases mem with rfl | rfl <;> decide
  · rw [twoRulePdn] at present
    dsimp only at present
    rw [if_neg own] at present
    cases present

theorem twoRulePdn_onBearer : twoRulePdn.OnBearer ['a'] ∧ twoRulePdn.OnBearer ['b'] :=
  ⟨⟨4, _, rfl, .inl ⟨dynamicRule ['a'], by simp, rfl⟩⟩,
    ⟨4, _, rfl, .inl ⟨dynamicRule ['b'], by simp, rfl⟩⟩⟩

def bothNames : List ChargingRuleRemove :=
  [some [ruleOctets 'a' (by decide), ruleOctets 'b' (by decide)]]

theorem bothNames_named : Named bothNames ['b'] :=
  ⟨_, mem_singleton_self _, ruleOctets 'b' (by decide), by simp, rfl⟩

/-- Of two rules that one AVP names, one is removed. -/
theorem bothNames_not_removed :
    twoRulePdn.Registered ∧ numNames bothNames ≤ maxRules ∧ Named bothNames ['b'] ∧
      twoRulePdn.OnBearer ['b'] ∧
      ¬ ∃ pdn', storeDynamicRulesInPolicy Up.splitString (fun _ => none) [] bothNames twoRulePdn =
          .ok pdn' ∧ Removed twoRulePdn bothNames pdn' := by
  refine ⟨twoRulePdn_registered, by decide, bothNames_named, twoRulePdn_onBearer.2, ?_⟩
  rintro ⟨pdn', done, removed⟩
  have once := removed.once ['b'] bothNames_named twoRulePdn_onBearer.2
  obtain rfl := Except.ok.inj done
  exact absurd once (by decide)

def eachName : List ChargingRuleRemove :=
  [some [ruleOctets 'a' (by decide)], some [ruleOctets 'b' (by decide)]]

theorem storeRemoves_removed_eachName :
    ∃ pdn', storeDynamicRulesInPolicy Up.splitString (fun _ => none) [] eachName twoRulePdn =
      .ok pdn' ∧ Removed twoRulePdn eachName pdn' := by
  refine (storeRemoves_removed_iff Up.splitString (fun _ => none) eachName twoRulePdn
    (by decide)).mpr ⟨?_, fun lookup member i found => ?_, fun name named _ => ?_⟩
  · simp [eachName]
  · have lookups : twoRulePdn.lookups 0 (firstNames eachName) =
        [(['a'], some 4), (['b'], some 4)] := by decide
    rw [lookups] at member
    simp only [mem_cons, not_mem_nil, or_false] at member
    rcases member with rfl | rfl
    · cases found
      exact ⟨rfl, twoRulePdn_onBearer.1⟩
    · cases found
      exact ⟨rfl, twoRulePdn_onBearer.2⟩
  · obtain ⟨names, inAvps, octets, inNames, rfl⟩ := named
    simp only [eachName, mem_cons, not_mem_nil, or_false, some_inj] at inAvps
    rcases inAvps with rfl | rfl
    · rw [mem_singleton.mp inNames]
      decide
    · rw [mem_singleton.mp inNames]
      decide

def newRule : ChargingRuleInstall where
  definitions := some
    [{ chargingRuleName := some (ruleOctets 'c' (by decide))
       qosInformation := some { qosClassIdentifier := 8 } }]
  names := none

theorem storeDynamicRulesInPolicy_counted_newRule :
    ∃ pdn', storeDynamicRulesInPolicy Up.splitString (fun _ => none) [newRule] eachName twoRulePdn =
      .ok pdn' ∧ pdn'.Counted :=
  ⟨_, rfl, storeDynamicRulesInPolicy_counted Up.splitString (fun _ => none) [newRule] eachName
    twoRulePdn _ rfl⟩

end

end Epc.Cp.Policy

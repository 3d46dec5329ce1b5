import Epc.Up.Filters
import Epc.Up.Proof.AclTable

/-! What the filters of a PDR install in the ACL tables, and what updates make of the filters and of the table
indices of the session data. -/

namespace Epc.Up.Filters

open Epc.Lib List Function AclState

section

variable {freed : List Char → List Char} {s s' s'' : AclState} {rule : AclRule}

def Unique (s : AclState) : Prop :=
  ∀ i j rule, (s.tables i).root = some rule → (s.tables j).root = some rule → i = j

/-- From `s` to `s'` rules were entered, in order, and got the tables `indices`. -/
structure Grown (s s' : AclState) (rules : List AclRule) (indices : List Nat) : Prop where
  kept : ∀ i rule, (s.tables i).root = some rule → (s'.tables i).root = some rule
  placed : List.Forall₂ (fun rule i => (s'.tables i).root = some rule) rules indices
  origin : ∀ i rule, (s'.tables i).root = some rule →
    (s.tables i).root = some rule ∨ rule ∈ rules
  unique : Unique s → Unique s'
  counted : Unique s → ∀ i rule, (s'.tables i).root = some rule →
    (s'.tables i).numOfUe =
      (if (s.tables i).root = some rule then (s.tables i).numOfUe else 0) + .ofNat (rules.count rule)
  idle : ∀ i, (s'.tables i).root = none → s'.tables i = s.tables i

theorem Grown.refl (s : AclState) : Grown s s [] [] where
  kept _ _ root := root
  placed := .nil
  origin _ _ root := .inl root
  unique unique := unique
  counted _ i rule root := by
    rw [if_pos root]
    exact (UInt16.add_zero _).symm
  idle _ _ := rfl

theorem Grown.mem_placed {rules : List AclRule} {indices : List Nat} (grown : Grown s s' rules indices)
    (mem : rule ∈ rules) : ∃ i ∈ indices, (s'.tables i).root = some rule :=
  exists_mem_of_forall₂ grown.placed mem

theorem Grown.placed_mem {rules : List AclRule} {indices : List Nat} (grown : Grown s s' rules indices)
    {i : Nat} (mem : i ∈ indices) : ∃ rule ∈ rules, (s'.tables i).root = some rule :=
  exists_mem_of_forall₂ grown.placed.flip mem

theorem Grown.trans {rules rules' : List AclRule} {indices indices' : List Nat}
    (first : Grown s s' rules indices) (second : Grown s' s'' rules' indices') :
    Grown s s'' (rules ++ rules') (indices ++ indices') where
  kept i rule root := second.kept i rule (first.kept i rule root)
  placed := rel_append (first.placed.imp fun rule i root => second.kept i rule root) second.placed
  origin i rule root := by
    rcases second.origin i rule root with earlier | later
    · exact (first.origin i rule earlier).imp id (mem_append_left _)
    · exact .inr (mem_append_right _ later)
  unique unique := second.unique (first.unique unique)
  counted unique i rule root := by
    have uniqueNow := second.unique (first.unique unique)
    rw [second.counted (first.unique unique) i rule root, count_append, UInt16.ofNat_add]
    by_cases between : (s'.tables i).root = some rule
    · rw [if_pos between, first.counted unique i rule between, UInt16.add_assoc]
    · -- a rule that is entered first is kept, so this table would be another one of the rule
      have absent : rule ∉ rules := by
        intro mem
        obtain ⟨j, -, placed⟩ := first.mem_placed mem
        have same := uniqueNow j i rule (second.kept j rule placed) root
        exact between (same ▸ placed)
      have before : (s.tables i).root ≠ some rule := fun root => between (first.kept i rule root)
      rw [if_neg between, if_neg before, count_eq_zero_of_not_mem absent]
      exact congrArg (0 + ·) (UInt16.zero_add _).symm
  idle i none := by
    have same := second.idle i none
    rw [same] at none
    rw [same, first.idle i none]

theorem Grown.again {i : Nat} (root : (s.tables i).root = some rule) :
    Grown s (s.setTable i fun t => { t with numOfUe := t.numOfUe + 1 }) [rule] [i] := by
  have roots : ∀ j, ((s.setTable i fun t => { t with numOfUe := t.numOfUe + 1 }).tables j).root =
      (s.tables j).root := by
    intro j
    by_cases here : j = i
    · rw [here, setTable_self]
    · rw [setTable_of_ne _ here]
  refine
    { kept := fun j other held => by rw [roots, held]
      placed := .cons (by rw [roots, root]) .nil
      origin := fun j other held => .inl (by rw [← roots, held])
      unique := fun unique j k other first second =>
        unique j k other (by rw [← roots, first]) (by rw [← roots, second])
      counted := fun unique j other held => ?_
      idle := fun j none => ?_ }
  rotate_left
  · have ne : j ≠ i := by
      rintro rfl
      rw [roots, root] at none
      cases none
    exact setTable_of_ne _ ne
  rw [roots] at held
  rw [if_pos held]
  by_cases here : j = i
  · subst here
    rw [root] at held
    cases held
    rw [setTable_self, count_singleton_self]
    rfl
  · have ne : rule ≠ other := by
      rintro rfl
      exact here (unique j i rule held root)
    rw [setTable_of_ne _ here, count_singleton, if_neg (by simpa using ne)]
    exact (UInt16.add_zero _).symm

theorem Grown.entered {i : Nat} (unused : s.tables i = {}) (absent : ∀ j, (s.tables j).root ≠ some rule)
    (tables : s'.tables = Function.update s.tables i ⟨some rule, 1, 1⟩) : Grown s s' [rule] [i] := by
  have here : s'.tables i = ⟨some rule, 1, 1⟩ := by rw [tables, update_self]
  have others : ∀ j ≠ i, s'.tables j = s.tables j := fun j ne => by
    rw [tables, update_of_ne ne]
  have notHere : ∀ {j other}, (s.tables j).root = some other → j ≠ i := by
    rintro j other held rfl
    rw [unused] at held
    cases held
  refine
    { kept := fun j other held => by rw [others j (notHere held), held]
      placed := .cons (by rw [here]) .nil
      origin := fun j other held => ?_
      unique := fun unique j k other first second => ?_
      counted := fun unique j other held => ?_
      idle := fun j none => others j ?_ }
  · by_cases same : j = i
    · subst same
      rw [here] at held
      exact .inr (mem_singleton.mpr (Option.some.inj held).symm)
    · exact .inl (by rw [← others j same, held])
  · by_cases sameJ : j = i
    · subst sameJ
      by_cases sameK : k = j
      · exact sameK.symm
      · rw [here] at first
        rw [others k sameK, ← first] at second
        exact absurd second (absent k)
    · by_cases sameK : k = i
      · subst sameK
        rw [here] at second
        rw [others j sameJ, ← second] at first
        exact absurd first (absent j)
      · rw [others j sameJ] at first
        rw [others k sameK] at second
        exact unique j k other first second
  · by_cases same : j = i
    · subst same
      rw [here] at held
      cases held
      rw [if_neg (absent j), here, count_singleton_self]
      rfl
    · rw [others j same] at held
      have ne : rule ≠ other := by
        rintro rfl
        exact absent j held
      rw [if_pos held, others j same, count_singleton, if_neg (by simpa using ne)]
      exact (UInt16.add_zero _).symm
  · rintro rfl
    rw [here] at none
    cases none

theorem resetAndBuildRules_tables {indx : Nat} {type : RuleIpType}
    (context : ((s.configs indx).context type).isNone = false) :
    ∃ s', s.resetAndBuildRules indx type = .ok s' ∧ s'.tables = s.tables ∧
      s'.indxOffset = s.indxOffset := by
  rw [resetAndBuildRules, if_neg (by simp [context])]
  refine ⟨_, rfl, ?_⟩
  rw [addRulesToRteAcl]
  split <;> exact ⟨rfl, rfl⟩

/-- The filter's rule has a table, or there is one left, and it is not mistaken. -/
structure FilterOk (freed : List Char → List Char) (s : AclState) (filter : SdfPktFilter)
    (rule : AclRule) : Prop where
  parsed : filter.rule freed = .ok rule
  unmistaken : Unmistaken freed filter s
  room : s.indxOffset < maxAclTables ∨ ∃ i, (s.tables i).root = some rule

theorem getAclTableIndx_create {filter : SdfPktFilter} (held : TablesHeld freed s)
    (ok : FilterOk freed s filter rule) :
    ∃ i s', s.getAclTableIndx freed filter true = .ok (some i, s') ∧ TablesHeld freed s' ∧
      Grown s s' [rule] [i] := by
  rcases held.findTable ok.parsed ok.unmistaken with ⟨i, found, mem, root⟩ | ⟨absent, none⟩
  · refine ⟨i, _, getAclTableIndx_again ok.parsed found, ?_, Grown.again root⟩
    have low := lt_of_mem_indices held.low mem
    constructor
    · exact held.low
    · intro j above
      have above : s.indxOffset ≤ j := above
      rw [setTable_of_ne _ (by omega), held.unused j above]
    · intro j other inTable
      by_cases here : j = i
      · subst here
        rw [setTable_self] at inTable
        exact held.held j other inTable
      · rw [setTable_of_ne _ here] at inTable
        exact held.held j other inTable
  · have inRange : s.indxOffset < maxAclTables := ok.room.resolve_right fun ⟨i, root⟩ => none i root
    have context : (((s.enter filter.ruleIpType rule).configs s.indxOffset).context
        filter.ruleIpType).isNone = false := by
      simp [enter, emptyConfig_context]
    obtain ⟨s', built, entered, offset⟩ := resetAndBuildRules_tables context
    have tables : s'.tables = Function.update s.tables s.indxOffset ⟨some rule, 1, 1⟩ := entered
    have unused := held.unused s.indxOffset (le_refl _)
    have grown : Grown s s' [rule] [s.indxOffset] := Grown.entered unused none tables
    refine ⟨s.indxOffset, s', ?_, ?_, grown⟩
    · rw [held.getAclTableIndx_enter ok.parsed absent inRange, built, except_ok_bind]
    · constructor
      · rw [offset]
        exact Nat.le_add_left 1 s.indxOffset
      · intro j above
        rw [offset] at above
        have above : s.indxOffset + 1 ≤ j := above
        rw [tables, update_of_ne (by omega), held.unused j (by omega)]
      · intro j other inTable
        by_cases here : j = s.indxOffset
        · rw [here, tables, update_self] at inTable
          cases inTable
          exact ⟨here ▸ held.low, filter, ok.parsed⟩
        · rw [tables, update_of_ne here] at inTable
          exact held.held j other inTable

end

section

variable (freed : List Char → List Char)

def carried (ies : List SdfFilterIe) : List SdfFilterIe :=
  ies.filter (·.there)

def flowRule (prcdncVal : UInt32) (interfaceValue : UInt8) (flowDesc : List Char) : Option AclRule :=
  match sdfPktFilter prcdncVal interfaceValue flowDesc with
  | .ok filter => (filter.rule freed).toOption
  | .error _ => none

def SdfFilterIe.rule (prcdncVal : UInt32) (interfaceValue : UInt8) (ie : SdfFilterIe) : Option AclRule :=
  if ie.there ∧ ie.fd then flowRule freed prcdncVal interfaceValue ie.flowDesc else none

def SdfPdr.rule (pdr : SdfPdr) (filter : SdfFilter) : Option AclRule :=
  if filter.fd then flowRule freed pdr.prcdncVal pdr.interfaceValue filter.flowDesc else none

/-- Every filter is parsed, not mistaken and has a table or one left, when its turn comes. -/
def FlowsOk (prcdncVal : UInt32) (interfaceValue : UInt8) : AclState → List SdfFilterIe → Prop
  | _, [] => True
  | s, ie :: ies =>
    if ie.there ∧ ie.fd then
      ∃ filter rule, sdfPktFilter prcdncVal interfaceValue ie.flowDesc = .ok filter ∧
        FilterOk freed s filter rule ∧
        ∀ i s', s.getAclTableIndx freed filter true = .ok (some i, s') →
          FlowsOk prcdncVal interfaceValue s' ies
    else FlowsOk prcdncVal interfaceValue s ies

variable {freed} {prcdncVal : UInt32} {interfaceValue : UInt8}

theorem filterMap_rule_carried {pdr : SdfPdr} (precedence : pdr.prcdncVal = prcdncVal)
    (interface : pdr.interfaceValue = interfaceValue) (ies : List SdfFilterIe) :
    ((carried ies).map processPdiSdfFilters).filterMap (pdr.rule freed) =
      ies.filterMap (SdfFilterIe.rule freed prcdncVal interfaceValue) := by
  induction ies with
  | nil => rfl
  | cons ie ies ih =>
    by_cases there : ie.there
    · have same : pdr.rule freed (processPdiSdfFilters ie) =
          ie.rule freed prcdncVal interfaceValue := by
        cases fd : ie.fd <;>
          simp [SdfPdr.rule, SdfFilterIe.rule, processPdiSdfFilters, fd, there, precedence, interface]
      rw [carried, filter_cons_of_pos there, map_cons, filterMap_cons,
        filterMap_cons, same, ← carried, ih]
    · have none : ie.rule freed prcdncVal interfaceValue = none := by
        simp [SdfFilterIe.rule, there]
      rw [carried, filter_cons_of_neg there, filterMap_cons, none, ← carried, ih]

structure PdiAdded (freed : List Char → List Char) (prcdncVal : UInt32) (interfaceValue : UInt8)
    (ies : List SdfFilterIe) (s s' : PdiState) : Prop where
  held : TablesHeld freed s'.acl
  pdr : s'.pdr =
    { s.pdr with sdfFilter := s.pdr.sdfFilter ++ (carried ies).map processPdiSdfFilters }
  grown : ∃ indices, s'.aclTableIndx = s.aclTableIndx ++ indices ∧
    Grown s.acl s'.acl (ies.filterMap (SdfFilterIe.rule freed prcdncVal interfaceValue)) indices

variable {ies : List SdfFilterIe}

theorem PdiAdded.cons {ie : SdfFilterIe} {s s' s'' : PdiState}
    (first : PdiAdded freed prcdncVal interfaceValue [ie] s s')
    (rest : PdiAdded freed prcdncVal interfaceValue ies s' s'') :
    PdiAdded freed prcdncVal interfaceValue (ie :: ies) s s'' := by
  obtain ⟨indices, appended, grown⟩ := first.grown
  obtain ⟨indices', appended', grown'⟩ := rest.grown
  refine ⟨rest.held, ?_, indices ++ indices', ?_, ?_⟩
  · have split : carried (ie :: ies) = carried [ie] ++ carried ies := filter_append [ie] ies
    rw [rest.pdr, first.pdr, split, map_append, append_assoc]
  · rw [appended', appended, append_assoc]
  · rw [show ie :: ies = [ie] ++ ies from rfl, filterMap_append]
    exact grown.trans grown'

theorem addFilter_spec {ie : SdfFilterIe} {s : PdiState}
    (held : TablesHeld freed s.acl) (ok : FlowsOk freed prcdncVal interfaceValue s.acl (ie :: ies))
    (slots : s.pdr.sdfFilter.length + (carried [ie]).length ≤ maxListSize)
    (entries : s.aclTableIndx.length + ((carried [ie]).filter (·.fd)).length ≤ maxSdfRuleNum) :
    ∃ s', addFilter freed prcdncVal interfaceValue s ie = .ok s' ∧
      PdiAdded freed prcdncVal interfaceValue [ie] s s' ∧
      s'.aclTableIndx.length = s.aclTableIndx.length + ((carried [ie]).filter (·.fd)).length ∧
      FlowsOk freed prcdncVal interfaceValue s'.acl ies := by
  cases there : ie.there with
  | false =>
    have none : carried [ie] = [] := filter_cons_of_neg (by simp [there])
    refine ⟨s, by simp [addFilter, there], ⟨held, by rw [none]; simp, [], by simp, ?_⟩, by simp [none], ?_⟩
    · have noRule : ie.rule freed prcdncVal interfaceValue = Option.none := by
        simp [SdfFilterIe.rule, there]
      rw [filterMap_cons, noRule]
      exact Grown.refl _
    · simpa [FlowsOk, there] using ok
  | true =>
    have one : carried [ie] = [ie] := filter_cons_of_pos there
    rw [one] at slots entries
    have slot : ¬ maxListSize ≤ s.pdr.sdfFilter.length := by
      rw [length_singleton] at slots
      omega
    cases fd : ie.fd with
    | false =>
      refine ⟨{ s with pdr := { s.pdr with
        sdfFilter := s.pdr.sdfFilter ++ [processPdiSdfFilters ie] } },
        by simp [addFilter, there, fd, slot], ⟨held, by rw [one]; rfl, [], by simp, ?_⟩,
        by simp [one, fd], ?_⟩
      · have noRule : ie.rule freed prcdncVal interfaceValue = Option.none := by
          simp [SdfFilterIe.rule, fd]
        rw [filterMap_cons, noRule]
        exact Grown.refl _
      · simpa [FlowsOk, fd] using ok
    | true =>
      rw [FlowsOk, if_pos ⟨there, fd⟩] at ok
      obtain ⟨filter, rule, described, admitted, later⟩ := ok
      obtain ⟨i, acl, created, held', grown⟩ := getAclTableIndx_create held admitted
      have entry : ¬ maxSdfRuleNum ≤ s.aclTableIndx.length := by
        rw [filter_cons_of_pos fd] at entries
        simp only [filter_nil, length_singleton] at entries
        omega
      have ruled : ie.rule freed prcdncVal interfaceValue = some rule := by
        simp only [SdfFilterIe.rule, there, fd, and_self, if_true, flowRule, described,
          admitted.parsed]
        rfl
      refine ⟨_, by
        simp only [addFilter, there, fd, if_true, if_neg slot, described, except_ok_bind,
          if_neg entry, created]
        rfl, ⟨held', by rw [one]; rfl, [i], rfl, ?_⟩, by simp [one, fd], later i acl created⟩
      rw [filterMap_cons, ruled]
      exact grown

theorem addFilters_spec {s : PdiState} (held : TablesHeld freed s.acl)
    (ok : FlowsOk freed prcdncVal interfaceValue s.acl ies)
    (slots : s.pdr.sdfFilter.length + (carried ies).length ≤ maxListSize)
    (entries : s.aclTableIndx.length + ((carried ies).filter (·.fd)).length ≤ maxSdfRuleNum) :
    ∃ s', ies.foldlM (addFilter freed prcdncVal interfaceValue) s = .ok s' ∧
      PdiAdded freed prcdncVal interfaceValue ies s s' := by
  induction ies generalizing s with
  | nil => exact ⟨s, rfl, held, by simp [carried], [], by simp, Grown.refl _⟩
  | cons ie ies ih =>
    have split : carried (ie :: ies) = carried [ie] ++ carried ies := filter_append [ie] ies
    rw [split, length_append] at slots
    rw [split, filter_append, length_append] at entries
    obtain ⟨s', added, first, length, ok'⟩ := addFilter_spec held ok (by omega) (by omega)
    have stored : s'.pdr.sdfFilter.length = s.pdr.sdfFilter.length + (carried [ie]).length := by
      rw [first.pdr, length_append, length_map]
    obtain ⟨s'', rest, others⟩ := ih first.held ok' (by omega) (by omega)
    exact ⟨s'', by rw [foldlM_cons, added, except_ok_bind, rest], first.cons others⟩

end

section

variable (freed : List Char → List Char) {pdi : PdiIe}

def InTable (s : AclState) (pdr : SdfPdr) (filter : SdfFilter) (i : Nat) : Prop :=
  ∃ rule, pdr.rule freed filter = some rule ∧ (s.tables i).root = some rule

def Used (s : FilterState) (data i : Nat) : Prop :=
  ∃ pdr ∈ s.pdrs, pdr.data = data ∧ ∃ filter ∈ pdr.sdfFilter, InTable freed s.acl pdr filter i

/-- The PDRs have their own ids, and the session data the table indices their PDRs use. -/
structure Indexed (s : FilterState) : Prop where
  held : TablesHeld freed s.acl
  distinct : (s.pdrs.map SdfPdr.key).Nodup
  used : ∀ data, ∀ i ∈ s.aclTableIndx data, Used freed s data i

/-- A PDI with its source interface and admitted filters for a PDR without filters, with room in the
PDR and the session data. -/
structure PdiOk (s : FilterState) (ie : PdrIe) (pdr : SdfPdr) (pdi : PdiIe) : Prop where
  interface : pdi.srcIntfc = true
  fteid : pdi.refusedFteid = false
  slots : (carried pdi.sdfFilter).length ≤ maxListSize
  entries : (s.aclTableIndx ie.data).length + ((carried pdi.sdfFilter).filter (·.fd)).length ≤
    maxSdfRuleNum
  flows : FlowsOk freed (ie.precedence.getD pdr.prcdncVal) pdi.interfaceValue s.acl pdi.sdfFilter

/-- An update of a PDR without filters, by a PDI that leads to its session data. -/
def UpdateOk (s : FilterState) (ie : PdrIe) : Prop :=
  ∃ pdr pdi, findKey SdfPdr.key (ie.seid, ie.ruleId) s.pdrs = some pdr ∧ ie.pdi = some pdi ∧
    pdr.sdfFilter = [] ∧ pdr.data = ie.data ∧ PdiOk freed s ie pdr pdi

/-- The PDR's filters are those of the update, the session data have the index of each, and every
index is used. -/
def FiltersMatch (s : FilterState) (ie : PdrIe) : Prop :=
  ∃ pdr pdi, findKey SdfPdr.key (ie.seid, ie.ruleId) s.pdrs = some pdr ∧ ie.pdi = some pdi ∧
    pdr.sdfFilter = (carried pdi.sdfFilter).map processPdiSdfFilters ∧
    (∀ filter ∈ pdr.sdfFilter, filter.fd → ∃ i ∈ s.aclTableIndx pdr.data,
      InTable freed s.acl pdr filter i) ∧
    ∀ i ∈ s.aclTableIndx pdr.data, Used freed s pdr.data i

variable {freed}

theorem FlowsOk.ruled {prcdncVal : UInt32} {interfaceValue : UInt8} {s : AclState}
    {ies : List SdfFilterIe} (held : TablesHeld freed s)
    (ok : FlowsOk freed prcdncVal interfaceValue s ies) :
    ∀ ie ∈ carried ies, ie.fd → (flowRule freed prcdncVal interfaceValue ie.flowDesc).isSome := by
  induction ies generalizing s with
  | nil => exact fun _ mem => nomatch mem
  | cons first ies ih =>
    intro ie mem fd
    obtain ⟨among, there⟩ := mem_filter.mp mem
    rw [FlowsOk] at ok
    split at ok
    · obtain ⟨filter, rule, described, admitted, later⟩ := ok
      rcases mem_cons.mp among with rfl | rest
      · simp only [flowRule, described, admitted.parsed]
        rfl
      · obtain ⟨i, s', created, held', -⟩ := getAclTableIndx_create held admitted
        exact ih held' (later i s' created) ie (mem_filter.mpr ⟨rest, there⟩) fd
    · rename_i skipped
      rcases mem_cons.mp among with rfl | rest
      · exact absurd ⟨there, fd⟩ skipped
      · exact ih held ok ie (mem_filter.mpr ⟨rest, there⟩) fd

variable {pdr : SdfPdr}

theorem InTable.mono {s s' : AclState} {rules : List AclRule} {indices : List Nat}
    {filter : SdfFilter} {i : Nat} (inTable : InTable freed s pdr filter i)
    (grown : Grown s s' rules indices) : InTable freed s' pdr filter i := by
  obtain ⟨rule, stands, root⟩ := inTable
  exact ⟨rule, stands, grown.kept i rule root⟩

theorem processPdrPdiInfo_eq {aclTableIndx : List Nat} {acl : AclState}
    {next : PdiState} (interface : pdi.srcIntfc = true) (fteid : pdi.refusedFteid = false)
    (folded : pdi.sdfFilter.foldlM (addFilter freed pdr.prcdncVal pdi.interfaceValue)
      ⟨{ pdr with interfaceValue := pdi.interfaceValue }, aclTableIndx, acl⟩ = .ok next) :
    processPdrPdiInfo freed pdi ⟨pdr, aclTableIndx, acl⟩ = .ok (true, next) := by
  simp only [processPdrPdiInfo, interface, fteid, if_true, Bool.false_eq_true, if_false, folded]
  rfl

def PdrIe.start (ie : PdrIe) (pdi : PdiIe) (pdr : SdfPdr) (s : FilterState) : PdiState where
  pdr := { pdr with
    prcdncVal := ie.precedence.getD pdr.prcdncVal
    interfaceValue := pdi.interfaceValue }
  aclTableIndx := s.aclTableIndx ie.data
  acl := s.acl

variable {s : FilterState} {ie : PdrIe}

theorem processPdrPdiInfo_added
    (held : TablesHeld freed s.acl) (none : pdr.sdfFilter = []) (ok : PdiOk freed s ie pdr pdi) :
    ∃ next, processPdrPdiInfo freed pdi ⟨{ pdr with prcdncVal := ie.precedence.getD pdr.prcdncVal },
        s.aclTableIndx ie.data, s.acl⟩ = .ok (true, next) ∧
      PdiAdded freed (ie.precedence.getD pdr.prcdncVal) pdi.interfaceValue pdi.sdfFilter
        (ie.start pdi pdr s) next := by
  obtain ⟨next, folded, added⟩ :=
    addFilters_spec (show TablesHeld freed (ie.start pdi pdr s).acl from held) ok.flows
      (by rw [PdrIe.start, none]; simpa using ok.slots) ok.entries
  exact ⟨next, processPdrPdiInfo_eq ok.interface ok.fteid folded, added⟩

def PdrIe.store (ie : PdrIe) (next : PdiState) (s : FilterState) : FilterState where
  acl := next.acl
  aclTableIndx := Function.update s.aclTableIndx ie.data next.aclTableIndx
  pdrs := updateFirst (fun other => other.key = (ie.seid, ie.ruleId)) (fun _ => next.pdr) s.pdrs

theorem PdrIe.store_indx_self (ie : PdrIe) (next : PdiState) (s : FilterState) :
    (ie.store next s).aclTableIndx ie.data = next.aclTableIndx :=
  update_self ..

theorem PdrIe.store_indx_of_ne {data : Nat} (ne : data ≠ ie.data) (next : PdiState)
    (s : FilterState) : (ie.store next s).aclTableIndx data = s.aclTableIndx data :=
  update_of_ne ne ..

theorem processUpdatePdrInfo_eq
    {next : PdiState} (found : findKey SdfPdr.key (ie.seid, ie.ruleId) s.pdrs = some pdr)
    (isPdi : ie.pdi = some pdi) (none : pdr.sdfFilter = [])
    (info : processPdrPdiInfo freed pdi ⟨{ pdr with prcdncVal := ie.precedence.getD pdr.prcdncVal },
      s.aclTableIndx ie.data, s.acl⟩ = .ok (true, next)) :
    processUpdatePdrInfo freed ie s = .ok (ie.store next s) := by
  have older : (if pdi.sdfFilter = [] then [] else pdr.sdfFilter) = [] := by rw [none, ite_self]
  simp only [processUpdatePdrInfo, found, isPdi, older, foldlM_nil]
  rw [show (pure (s.aclTableIndx ie.data) : Except Fault (List Nat)) = .ok (s.aclTableIndx ie.data) from rfl,
    except_ok_bind]
  exact congrArg (· >>= _) info

theorem processUpdatePdrInfo_ok (indexed : Indexed freed s) (ok : UpdateOk freed s ie) :
    ∃ s', processUpdatePdrInfo freed ie s = .ok s' ∧ Indexed freed s' ∧ FiltersMatch freed s' ie := by
  obtain ⟨pdr, pdi, found, isPdi, none, own, ok⟩ := ok
  obtain ⟨next, info, added⟩ := processPdrPdiInfo_added indexed.held none ok
  obtain ⟨indices, appended, grown⟩ := added.grown
  have stored : next.pdr.sdfFilter = (carried pdi.sdfFilter).map processPdiSdfFilters := by
    rw [added.pdr, PdrIe.start, none, nil_append]
  have rules : next.pdr.sdfFilter.filterMap (next.pdr.rule freed) =
      pdi.sdfFilter.filterMap
        (SdfFilterIe.rule freed (ie.precedence.getD pdr.prcdncVal) pdi.interfaceValue) := by
    rw [stored]
    exact filterMap_rule_carried (by rw [added.pdr]; rfl) (by rw [added.pdr]; rfl) _
  have data : next.pdr.data = ie.data := by
    rw [added.pdr]
    exact own
  have named : next.pdr.key = (ie.seid, ie.ruleId) := by
    rw [added.pdr]
    exact (findKey_some found).2
  have replaced := mem_updateFirst_key (y := next.pdr) indexed.distinct found
  -- a PDR that used a table is not the one that is updated, which had no filters
  have still : ∀ {data i}, Used freed s data i → Used freed (ie.store next s) data i := by
    rintro data i ⟨other, mem, inData, filter, among, inTable⟩
    have ne : other.key ≠ (ie.seid, ie.ruleId) := by
      intro same
      have equal := inj_on_of_nodup_map indexed.distinct mem (findKey_some found).1
        (same.trans (findKey_some found).2.symm)
      rw [equal, none] at among
      cases among
    exact ⟨other, (replaced other).mpr (.inr ⟨mem, ne⟩), inData, filter, among,
      inTable.mono grown⟩
  have new : ∀ i ∈ indices, Used freed (ie.store next s) ie.data i := by
    intro i mem
    obtain ⟨rule, entered, root⟩ := grown.placed_mem mem
    rw [← rules, mem_filterMap] at entered
    obtain ⟨filter, among, stands⟩ := entered
    exact ⟨next.pdr, (replaced next.pdr).mpr (.inl rfl), data, filter, among, rule, stands, root⟩
  have used : ∀ data, ∀ i ∈ (ie.store next s).aclTableIndx data,
      Used freed (ie.store next s) data i := by
    intro data i mem
    by_cases here : data = ie.data
    · rw [here] at mem ⊢
      rw [PdrIe.store_indx_self, appended, mem_append] at mem
      rcases mem with old | added
      · exact still (indexed.used ie.data i old)
      · exact new i added
    · rw [PdrIe.store_indx_of_ne here] at mem
      exact still (indexed.used data i mem)
  refine ⟨ie.store next s, processUpdatePdrInfo_eq found isPdi none info,
    ⟨added.held, ?_, used⟩, next.pdr, pdi, findKey_updateFirst_replaced named found, isPdi, stored, ?_,
    used _⟩
  · rw [PdrIe.store, map_updateFirst_key named]
    exact indexed.distinct
  · intro filter mem fd
    have stands : (next.pdr.rule freed filter).isSome := by
      rw [stored, mem_map] at mem
      obtain ⟨one, among, rfl⟩ := mem
      have described : one.fd = true := by
        by_contra plain
        rw [processPdiSdfFilters, if_neg plain] at fd
        cases fd
      rw [SdfPdr.rule, if_pos fd, added.pdr, processPdiSdfFilters, if_pos described]
      exact ok.flows.ruled indexed.held one among described
    obtain ⟨rule, stands⟩ := Option.isSome_iff_exists.mp stands
    have entered : rule ∈ next.pdr.sdfFilter.filterMap (next.pdr.rule freed) :=
      mem_filterMap.mpr ⟨filter, mem, stands⟩
    rw [rules] at entered
    obtain ⟨i, among, root⟩ := grown.mem_placed entered
    refine ⟨i, ?_, rule, stands, root⟩
    rw [data, PdrIe.store_indx_self, appended]
    exact mem_append_right _ among

end

section

open Run

variable {freed : List Char → List Char}

/-- In every run of admitted updates, from session data with the indices their PDRs use, each update
leaves its own filters and their table indices. -/
theorem filtersMatch_run {start : FilterState} (indexed : Indexed freed start) {ops : List PdrIe}
    (guarded : Guarded (attempt (processUpdatePdrInfo freed)) (UpdateOk freed) start ops)
    (before : List PdrIe) (ie : PdrIe) (isPrefix : before ++ [ie] <+: ops) :
    FiltersMatch freed (run (attempt (processUpdatePdrInfo freed)) start (before ++ [ie])) ie := by
  obtain ⟨inv, ok⟩ := guarded.inv_at isPrefix (Indexed freed) indexed fun s ie inv ok => by
    obtain ⟨s', updated, inv', -⟩ := processUpdatePdrInfo_ok inv ok
    rwa [attempt_ok updated]
  obtain ⟨s', updated, -, matched⟩ := processUpdatePdrInfo_ok inv ok
  rw [run_append, run_cons, run_nil, attempt_ok updated]
  exact matched

def twoPdrs : FilterState where
  pdrs := [{ seid := 1, data := 0, ruleId := 1 }, { seid := 1, data := 0, ruleId := 2 }]

theorem indexed_twoPdrs : Indexed freed twoPdrs where
  held := aclInv_start.tables
  distinct := show [((1, 1) : UInt64 × UInt16), (1, 2)].Nodup by decide
  used _ _ mem := nomatch mem

def anyDownlink (precedence : Nat) (ruleId : UInt16 := 1) : PdrIe where
  seid := 1
  data := 0
  ruleId
  precedence := some (.ofNat precedence)
  pdi := some
    { interfaceValue := 1
      sdfFilter := [{ flowDesc := "0.0.0.0/0 0.0.0.0/0 0 : 65535 0 : 65535 0x0/0x0".toList }] }

theorem flowsOk_anyDownlink {precedence : Nat} {acl : AclState} (room : acl.indxOffset < maxAclTables)
    (unmistaken : Unmistaken freed (anyFlow precedence) acl) :
    FlowsOk freed (.ofNat precedence) 1 acl
      [{ flowDesc := "0.0.0.0/0 0.0.0.0/0 0 : 65535 0 : 65535 0x0/0x0".toList }] := by
  rw [FlowsOk, if_pos ⟨rfl, rfl⟩]
  exact ⟨anyFlow precedence, anyRule precedence, rfl, ⟨anyFlow_rule precedence, unmistaken, .inl room⟩,
    fun _ _ _ => trivial⟩

/-- The filter for any downlink packet in the updates of two PDRs. -/
theorem filtersMatch_anyDownlink :
    FiltersMatch id (run (attempt (processUpdatePdrInfo id)) twoPdrs [anyDownlink 1, anyDownlink 2 2])
      (anyDownlink 2 2) := by
  have first : UpdateOk id twoPdrs (anyDownlink 1) :=
    ⟨_, _, rfl, rfl, rfl, rfl, rfl, rfl, by decide, show 0 + 1 ≤ 32 by decide,
      flowsOk_anyDownlink (by decide) fun _ _ i mem => nomatch mem⟩
  have second : UpdateOk id (run (attempt (processUpdatePdrInfo id)) twoPdrs [anyDownlink 1])
      (anyDownlink 2 2) := by
    refine ⟨{ seid := 1, data := 0, ruleId := 2 }, _, by decide +kernel, rfl, rfl, rfl, rfl, rfl,
      by decide, by decide +kernel, flowsOk_anyDownlink (by decide +kernel) ?_⟩
    unfold Unmistaken
    decide +kernel
  have guarded : Guarded (attempt (processUpdatePdrInfo id)) (UpdateOk id) twoPdrs
      [anyDownlink 1, anyDownlink 2 2] := ⟨first, second, trivial⟩
  exact filtersMatch_run indexed_twoPdrs guarded [anyDownlink 1] (anyDownlink 2 2) (prefix_refl _)

/-- After a second update the PDR has the filter of the first one, too. -/
theorem second_update_appended :
    Indexed id twoPdrs ∧
      Guarded (attempt (processUpdatePdrInfo id)) (fun s ie => (processUpdatePdrInfo id ie s).isOk = true)
        twoPdrs [anyDownlink 1, anyDownlink 2] ∧
      ¬ FiltersMatch id (run (attempt (processUpdatePdrInfo id)) twoPdrs [anyDownlink 1, anyDownlink 2])
        (anyDownlink 2) := by
  refine ⟨indexed_twoPdrs, by decide +kernel, ?_⟩
  have lengths : (run (attempt (processUpdatePdrInfo id)) twoPdrs
      [anyDownlink 1, anyDownlink 2]).pdrs.map (·.sdfFilter.length) = [2, 0] := by decide +kernel
  rintro ⟨pdr, pdi, found, isPdi, stored, -⟩
  have two : pdr.sdfFilter.length ∈ [2, 0] := by
    rw [← lengths]
    exact mem_map_of_mem (findKey_some found).1
  cases isPdi
  rw [stored] at two
  exact absurd two (by decide)

end

end Epc.Up.Filters

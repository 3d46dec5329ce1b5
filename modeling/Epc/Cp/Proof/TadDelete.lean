import Epc.Cp.Tad
import Mathlib.Data.List.Nodup
import Mathlib.Data.List.Forall2
import Mathlib.Data.List.Perm.Subperm

/-! What `fill_delete_existing_filter_tft_avp` reports about the rules whose filters are deleted. -/

namespace Epc.Cp

open List
open Option hiding any_eq_true mem_map mem_map_of_mem or_self

def DynamicRule.filterIds (rule : DynamicRule) : List UInt8 :=
  rule.flowDesc.map FlowDesc.pcktFltrIdentifier

def TftBearer.filterIds (bearer : TftBearer) : List UInt8 :=
  bearer.dynamicRules.flatMap DynamicRule.filterIds

def DynamicRule.Affected (rule : DynamicRule) (ids : List UInt8) : Prop :=
  ∃ id ∈ ids, id ∈ rule.filterIds

/-- The report names the rule, and it is inactive if no filter of it is left. -/
def RightReport (bearer : TftBearer) (ids : List UInt8) (i : Nat) (report : GxChargingRuleReport) :
    Prop :=
  ∃ rule, bearer.dynamicRules[i]? = some rule ∧ report.chargingRuleName = rule.ruleName ∧
    (report.pccRuleStatus = .inactive ↔ rule.filterIds ⊆ ids)

/-- The request reports each affected rule once, and ends the bearer if no filter is left. -/
structure DeleteAvps.Reports (avps : DeleteAvps) (bearer : TftBearer) (ids : List UInt8) : Prop where
  once : avps.reportedRules.Nodup
  affected : ∀ i, i ∈ avps.reportedRules ↔
    ∃ rule, bearer.dynamicRules[i]? = some rule ∧ rule.Affected ids
  reports : List.Forall₂ (RightReport bearer ids) avps.reportedRules avps.chargingRuleReport
  terminated : avps.bearerOperation = bearerTermination ↔
    ∀ rule ∈ bearer.dynamicRules, rule.filterIds ⊆ ids

section

theorem storeRuleReport_fst (ruleIndex : Nat) (report : List (Nat × UInt8)) :
    (storeRuleReport ruleIndex report).map Prod.fst =
      storeRuleReportIndex ruleIndex (report.map Prod.fst) := by
  induction report with
  | nil => rfl
  | cons entry report ih =>
    obtain ⟨rule, numFltr⟩ := entry
    rw [storeRuleReport]
    by_cases same : ruleIndex = rule
    · simp [same, storeRuleReportIndex]
    · rw [if_neg same, map_cons, ih, map_cons, storeRuleReportIndex, storeRuleReportIndex]
      by_cases found : ruleIndex ∈ report.map Prod.fst
      · rw [if_pos found, if_pos (mem_cons_of_mem _ found)]
      · rw [if_neg found, if_neg (by simp only [mem_cons, same, found, or_self,
          not_false_eq_true]), cons_append]

theorem storeRuleReportIndex_nodup {ruleIndex : Nat} {report : List Nat} (nodup : report.Nodup) :
    (storeRuleReportIndex ruleIndex report).Nodup := by
  unfold storeRuleReportIndex
  split
  · exact nodup
  · next absent => exact nodup_append.mpr ⟨nodup, nodup_singleton _, by
      rintro a inside b last rfl
      exact absent (mem_singleton.mp last ▸ inside)⟩

theorem mem_storeRuleReport_of_ne {ruleIndex rule : Nat} (ne : rule ≠ ruleIndex) (n : UInt8)
    (report : List (Nat × UInt8)) :
    (rule, n) ∈ storeRuleReport ruleIndex report ↔ (rule, n) ∈ report := by
  induction report with
  | nil => simp [storeRuleReport, ne]
  | cons entry report ih =>
    obtain ⟨first, numFltr⟩ := entry
    rw [storeRuleReport]
    by_cases same : ruleIndex = first
    · subst same
      simp [ne]
    · rw [if_neg same, mem_cons, mem_cons, ih]

theorem mem_storeRuleReport_self {ruleIndex : Nat} (n : UInt8) {report : List (Nat × UInt8)}
    (nodup : (report.map Prod.fst).Nodup) :
    (ruleIndex, n) ∈ storeRuleReport ruleIndex report ↔
      (∃ m, (ruleIndex, m) ∈ report ∧ n = m + 1) ∨
        ruleIndex ∉ report.map Prod.fst ∧ n = 1 := by
  induction report with
  | nil => simp [storeRuleReport]
  | cons entry report ih =>
    obtain ⟨first, numFltr⟩ := entry
    obtain ⟨absent, rest⟩ := nodup_cons.mp nodup
    rw [storeRuleReport]
    by_cases same : ruleIndex = first
    · subst same
      have notIn (m : UInt8) : (ruleIndex, m) ∉ report := fun mem =>
        absent (mem_map.mpr ⟨_, mem, rfl⟩)
      simp [notIn]
    · rw [if_neg same, mem_cons, ih rest]
      simp [same]

structure Tallies (owners : List Nat) (report : List (Nat × UInt8)) : Prop where
  nodup : (report.map Prod.fst).Nodup
  mem_iff : ∀ rule n, (rule, n) ∈ report ↔
    rule ∈ owners ∧ n = UInt8.ofNat (owners.count rule)

variable {owners : List Nat} {report : List (Nat × UInt8)}

theorem Tallies.mem_fst (tallies : Tallies owners report) (rule : Nat) :
    rule ∈ report.map Prod.fst ↔ rule ∈ owners := by
  constructor
  · intro mem
    obtain ⟨⟨_, n⟩, entry, rfl⟩ := mem_map.mp mem
    exact ((tallies.mem_iff _ n).mp entry).1
  · intro mem
    exact mem_map_of_mem ((tallies.mem_iff rule _).mpr ⟨mem, rfl⟩)

theorem Tallies.store (tallies : Tallies owners report) (ruleIndex : Nat) :
    Tallies (owners ++ [ruleIndex]) (storeRuleReport ruleIndex report) where
  nodup := by
    rw [storeRuleReport_fst]
    exact storeRuleReportIndex_nodup tallies.nodup
  mem_iff rule n := by
    by_cases same : rule = ruleIndex
    · subst same
      rw [mem_storeRuleReport_self n tallies.nodup, tallies.mem_fst]
      simp only [tallies.mem_iff, mem_append, mem_singleton, or_true, true_and,
        count_append, count_singleton_self]
      by_cases before : rule ∈ owners
      · simp [before]
      · simp [before, count_eq_zero.mpr before]
    · rw [mem_storeRuleReport_of_ne same, tallies.mem_iff]
      simp [same, Ne.symm same]

theorem deletedRules_tallies {bearer : TftBearer} {ids : List UInt8}
    (known : ∀ id ∈ ids, (checkPcktFltrIdInRule id bearer).isSome = true)
    (tallies : Tallies owners report) :
    ∃ report', deletedRules bearer ids report = some report' ∧
      Tallies (owners ++ ids.filterMap (checkPcktFltrIdInRule · bearer)) report' := by
  induction ids generalizing owners report with
  | nil => exact ⟨report, rfl, by simpa using tallies⟩
  | cons id ids ih =>
    obtain ⟨ruleIndex, found⟩ := isSome_iff_exists.mp (known id mem_cons_self)
    obtain ⟨report', result, tally⟩ :=
      ih (fun id mem => known id (mem_cons_of_mem _ mem)) (tallies.store ruleIndex)
    refine ⟨report', ?_, ?_⟩
    · rw [deletedRules, found, bind_some, result]
    · simpa [found] using tally

end

section

variable {bearer : TftBearer}

theorem checkPcktFltrIdInRule_owner {id : UInt8} {i : Nat}
    (found : checkPcktFltrIdInRule id bearer = some i) :
    ∃ rule, bearer.dynamicRules[i]? = some rule ∧ id ∈ rule.filterIds := by
  obtain ⟨bound, has, -⟩ := findIdx?_eq_some_iff_getElem.mp found
  refine ⟨bearer.dynamicRules[i], getElem?_eq_getElem bound, ?_⟩
  simpa [DynamicRule.filterIds] using has

theorem checkPcktFltrIdInRule_isSome {id : UInt8} {rule : DynamicRule}
    (mem : rule ∈ bearer.dynamicRules) (has : id ∈ rule.filterIds) :
    (checkPcktFltrIdInRule id bearer).isSome = true := by
  rw [checkPcktFltrIdInRule, findIdx?_isSome, any_eq_true]
  exact ⟨rule, mem, by simpa [DynamicRule.filterIds] using has⟩

end

section

variable (bearer : TftBearer)

theorem reportedName_of_le {name : List Char} (short : name.length < ruleNameLen)
    (covered : name.length ≤ bearer.firstNameLen) (raw : Nat → Char) :
    reportedName bearer raw name = name := by
  rw [reportedName, Nat.min_eq_left short.le]
  apply ext_getElem (by simp)
  intro i inRange bound
  have copied : i < bearer.firstNameLen := bound.trans_le covered
  simp only [getElem_map, getElem_range]
  rw [if_pos copied, getD_eq_getElem _ _ bound]

def otherMemory (name : List Char) (i : Nat) : Char :=
  if name.getD i 'a' = 'a' then 'b' else 'a'

theorem le_of_reportedName {name : List Char} (short : name.length < ruleNameLen)
    (full : reportedName bearer (otherMemory name) name = name) :
    name.length ≤ bearer.firstNameLen := by
  by_contra longer
  have bound : bearer.firstNameLen < name.length := Nat.lt_of_not_le longer
  have char := congrArg (fun text => text[bearer.firstNameLen]?) full
  simp only [reportedName, Nat.min_eq_left short.le, getElem?_map,
    getElem?_range bound, map_some] at char
  rw [if_neg (Nat.lt_irrefl _), getElem?_eq_getElem bound, some.injEq, otherMemory,
    getD_eq_getElem _ _ bound] at char
  split at char
  · next a => exact absurd (char.trans a) (by decide)
  · next other => exact other char.symm

end

/-- The numbers that are compared tell what is listed, and no name is cut. -/
structure TftBearer.Tallied (bearer : TftBearer) (ids : List UInt8) : Prop where
  first : ∀ i rule, bearer.dynamicRules[i]? = some rule → rule.Affected ids →
    ∃ id ∈ ids, checkPcktFltrIdInRule id bearer = some i
  names : ∀ rule ∈ bearer.dynamicRules, rule.Affected ids →
    rule.ruleName.length ≤ bearer.firstNameLen
  total : bearer.totalNoOfPcktFltr.toNat = ids.length ↔
    ∀ rule ∈ bearer.dynamicRules, rule.filterIds ⊆ ids
  numbers : bearer.totalNoOfPcktFltr.toNat ≠ ids.length →
    ∀ i rule, bearer.dynamicRules[i]? = some rule → rule.Affected ids →
      (rule.flowDesc.length = ids.countP (fun id => checkPcktFltrIdInRule id bearer == some i) ↔
        rule.filterIds ⊆ ids)

theorem forall₂_filterMap_zipIdx {R : Nat → GxChargingRuleReport → Prop}
    {f : (Nat × UInt8) × Nat → Option GxChargingRuleReport} (report : List (Nat × UInt8)) (k : Nat)
    (made : ∀ entry ∈ report.zipIdx k, (f entry).isSome = true) :
    List.Forall₂ R (report.map Prod.fst) ((report.zipIdx k).filterMap f) ↔
      ∀ entry ∈ report.zipIdx k, ∃ y, f entry = some y ∧ R entry.1.1 y := by
  induction report generalizing k with
  | nil => simp
  | cons entry report ih =>
    rw [zipIdx_cons] at made ⊢
    obtain ⟨y, result⟩ := isSome_iff_exists.mp (made _ mem_cons_self)
    rw [filterMap_cons_some result, map_cons, forall₂_cons,
      ih (k + 1) fun entry mem => made entry (mem_cons_of_mem _ mem), forall_mem_cons]
    simp [result]

section

variable {bearer : TftBearer} {ids : List UInt8} {report : List (Nat × UInt8)}

theorem Tallies.entry (tallies : Tallies (ids.filterMap (checkPcktFltrIdInRule · bearer)) report)
    (small : ids.length < 256) {i : Nat} {n : UInt8} (entry : (i, n) ∈ report) :
    (∃ rule, bearer.dynamicRules[i]? = some rule ∧ rule.Affected ids) ∧
      n.toNat = ids.countP fun id => checkPcktFltrIdInRule id bearer == some i := by
  obtain ⟨owner, number⟩ := (tallies.mem_iff i n).mp entry
  obtain ⟨id, listed, found⟩ := mem_filterMap.mp owner
  obtain ⟨rule, isRule, has⟩ := checkPcktFltrIdInRule_owner found
  refine ⟨⟨rule, isRule, id, listed, has⟩, ?_⟩
  rw [count_filterMap] at number
  rw [number, UInt8.toNat_ofNat_of_lt']
  exact (countP_le_length).trans_lt small

theorem rightReport_iff {terminated : Bool} {rawName : Nat → Nat → Char} {i k : Nat} {n : UInt8}
    {rule : DynamicRule} (isRule : bearer.dynamicRules[i]? = some rule) :
    (∃ y, chargingRuleReport bearer terminated rawName ((i, n), k) = some y ∧
        RightReport bearer ids i y) ↔
      reportedName bearer (rawName k) rule.ruleName = rule.ruleName ∧
        (terminated = true ∨ rule.flowDesc.length = n.toNat ↔ rule.filterIds ⊆ ids) := by
  have status : ((if terminated = true ∨ rule.flowDesc.length = n.toNat then
      PccRuleStatus.inactive else .active) = .inactive) ↔
        (terminated = true ∨ rule.flowDesc.length = n.toNat) := by
    split
    · next inactive => simp [inactive]
    · next active => simp [active]
  simp only [chargingRuleReport, isRule, map_some, some.injEq, RightReport, exists_eq_left', status]

end

section

variable {cmd : BearerRsrcCmd} {bearer : TftBearer}

/-- The identifiers in the description are of filters of the bearer. -/
def BearerRsrcCmd.ListsFilters (cmd : BearerRsrcCmd) (bearer : TftBearer) : Prop :=
  cmd.pktFltCnt ≠ 0 ∧ cmd.deletedIds ⊆ bearer.filterIds

theorem length_deletedIds (cmd : BearerRsrcCmd) : cmd.deletedIds.length = cmd.pktFltCnt := by
  simp [BearerRsrcCmd.deletedIds]

theorem length_deletedIds_lt (cmd : BearerRsrcCmd) : cmd.deletedIds.length < 256 := by
  rw [length_deletedIds]
  exact UInt8.toNat_lt _

structure Filled (bearer : TftBearer) (ids : List UInt8) (report : List (Nat × UInt8))
    (rawName : Nat → Nat → Char) (avps : DeleteAvps) : Prop where
  rules : avps.reportedRules = report.map Prod.fst
  reports : avps.chargingRuleReport = report.zipIdx.filterMap
    (chargingRuleReport bearer (bearer.totalNoOfPcktFltr.toNat == ids.length) rawName)
  operation : avps.bearerOperation = bearerTermination ↔
    bearer.totalNoOfPcktFltr.toNat = ids.length

theorem fillDeleteExistingFilterTftAvp_filled (lists : cmd.ListsFilters bearer) :
    ∃ report, Tallies (cmd.deletedIds.filterMap (checkPcktFltrIdInRule · bearer)) report ∧
      ∀ raw rawName, ∃ avps, fillDeleteExistingFilterTftAvp raw rawName cmd bearer = .ok avps ∧
        Filled bearer cmd.deletedIds report rawName avps := by
  obtain ⟨some_id, known⟩ := lists
  have none_yet : Tallies [] [] := ⟨nodup_nil, by simp⟩
  obtain ⟨report, result, tallies⟩ := deletedRules_tallies (fun id listed => by
    obtain ⟨rule, mem, has⟩ := mem_flatMap.mp (known listed)
    exact checkPcktFltrIdInRule_isSome mem has) none_yet
  refine ⟨report, tallies, fun raw rawName => ?_⟩
  simp only [fillDeleteExistingFilterTftAvp, if_neg some_id, result]
  refine ⟨_, rfl, rfl, ?_, ?_⟩
  · rw [length_deletedIds]
  · rw [length_deletedIds]
    by_cases all : bearer.totalNoOfPcktFltr.toNat = cmd.pktFltCnt
    · simp [all]
    · simp [all, bearerModification, bearerTermination]

variable {ids : List UInt8} {report : List (Nat × UInt8)} {rawName : Nat → Nat → Char}
  {avps : DeleteAvps}

section

variable (filled : Filled bearer ids report rawName avps)
  (tallies : Tallies (ids.filterMap (checkPcktFltrIdInRule · bearer)) report)
  (small : ids.length < 256)

include filled tallies small

theorem Filled.reports_iff :
    List.Forall₂ (RightReport bearer ids) avps.reportedRules avps.chargingRuleReport ↔
      ∀ i n k, ((i, n), k) ∈ report.zipIdx → ∀ rule, bearer.dynamicRules[i]? = some rule →
        reportedName bearer (rawName k) rule.ruleName = rule.ruleName ∧
          (bearer.totalNoOfPcktFltr.toNat = ids.length ∨ rule.flowDesc.length = n.toNat ↔
            rule.filterIds ⊆ ids) := by
  have isRule {i : Nat} {n : UInt8} {k : Nat} (entry : ((i, n), k) ∈ report.zipIdx) :
      ∃ rule, bearer.dynamicRules[i]? = some rule := by
    obtain ⟨⟨rule, isRule, -⟩, -⟩ := tallies.entry small (fst_mem_of_mem_zipIdx entry)
    exact ⟨rule, isRule⟩
  rw [filled.rules, filled.reports, forall₂_filterMap_zipIdx]
  · constructor
    · intro right i n k entry rule known
      have each := (rightReport_iff known).mp (right _ entry)
      rwa [beq_iff_eq] at each
    · rintro right ⟨⟨i, n⟩, k⟩ entry
      obtain ⟨rule, known⟩ := isRule entry
      apply (rightReport_iff known).mpr
      rw [beq_iff_eq]
      exact right i n k entry rule known
  · rintro ⟨⟨i, n⟩, k⟩ entry
    obtain ⟨rule, known⟩ := isRule entry
    simp [chargingRuleReport, known]

theorem Filled.reports_of_tallied
    (short : ∀ rule ∈ bearer.dynamicRules, rule.ruleName.length < ruleNameLen)
    (tallied : bearer.Tallied ids) : avps.Reports bearer ids where
  once := by
    rw [filled.rules]
    exact tallies.nodup
  affected i := by
    rw [filled.rules, tallies.mem_fst, mem_filterMap]
    constructor
    · rintro ⟨id, listed, found⟩
      obtain ⟨rule, isRule, has⟩ := checkPcktFltrIdInRule_owner found
      exact ⟨rule, isRule, id, listed, has⟩
    · rintro ⟨rule, isRule, affected⟩
      exact tallied.first i rule isRule affected
  reports := by
    apply (filled.reports_iff tallies small).mpr
    intro i n k entry rule isRule
    have mem := mem_of_getElem? isRule
    obtain ⟨⟨_, same, affected⟩, number⟩ := tallies.entry small (fst_mem_of_mem_zipIdx entry)
    obtain rfl := some.inj (isRule.symm.trans same)
    refine ⟨reportedName_of_le bearer (short rule mem) (tallied.names rule mem affected) _, ?_⟩
    by_cases all : bearer.totalNoOfPcktFltr.toNat = ids.length
    · exact iff_of_true (Or.inl all) (tallied.total.mp all rule mem)
    · rw [or_iff_right all, number]
      exact tallied.numbers all i rule isRule affected
  terminated := filled.operation.trans tallied.total

end

end

section

variable {bearer : TftBearer} {ids : List UInt8}

theorem length_eq_iff_subset {inner outer : List UInt8} (innerOnce : inner.Nodup)
    (outerOnce : outer.Nodup) (inside : inner ⊆ outer) :
    outer.length = inner.length ↔ outer ⊆ inner := by
  have subperm := subperm_of_subset innerOnce inside
  constructor
  · intro same
    exact (subperm.perm_of_length_le same.le).symm.subset
  · intro back
    exact ((subperm_of_subset outerOnce back).antisymm subperm).length_eq

theorem checkPcktFltrIdInRule_of_distinct (nodup : bearer.filterIds.Nodup) {i : Nat}
    {rule : DynamicRule} (isRule : bearer.dynamicRules[i]? = some rule) {id : UInt8}
    (has : id ∈ rule.filterIds) : checkPcktFltrIdInRule id bearer = some i := by
  have apart := (nodup_flatMap.mp nodup).2
  obtain ⟨j, found⟩ := isSome_iff_exists.mp
    (checkPcktFltrIdInRule_isSome (mem_of_getElem? isRule) has)
  obtain ⟨other, isOther, otherHas⟩ := checkPcktFltrIdInRule_owner found
  obtain ⟨iBound, rfl⟩ := List.getElem?_eq_some_iff.mp isRule
  obtain ⟨jBound, rfl⟩ := List.getElem?_eq_some_iff.mp isOther
  rw [pairwise_iff_getElem] at apart
  rcases Nat.lt_trichotomy i j with less | same | more
  · exact absurd otherHas (apart i j iBound jBound less has)
  · rw [found, same]
  · exact absurd has (apart j i jBound iBound more otherHas)

theorem totalNoOfPcktFltr_eq (bearer : TftBearer) :
    bearer.totalNoOfPcktFltr = UInt8.ofNat bearer.filterIds.length := by
  have sums (rules : List DynamicRule) (total : UInt8) :
      rules.foldl (fun total rule => total + UInt8.ofNat rule.flowDesc.length) total =
        total + UInt8.ofNat (rules.flatMap DynamicRule.filterIds).length := by
    induction rules generalizing total with
    | nil => simp
    | cons rule rules ih =>
      rw [foldl_cons, ih, flatMap_cons, length_append, UInt8.ofNat_add,
        DynamicRule.filterIds, length_map, UInt8.add_assoc]
  rw [TftBearer.totalNoOfPcktFltr, sums, UInt8.zero_add, TftBearer.filterIds]

theorem tallied_of_distinct (nodup : bearer.filterIds.Nodup) (once : ids.Nodup)
    (some_id : ids ≠ []) (small : ids.length < 256) (known : ids ⊆ bearer.filterIds)
    (names : ∀ rule ∈ bearer.dynamicRules, rule.ruleName.length ≤ bearer.firstNameLen) :
    bearer.Tallied ids where
  first i rule isRule affected := by
    obtain ⟨id, listed, has⟩ := affected
    exact ⟨id, listed, checkPcktFltrIdInRule_of_distinct nodup isRule has⟩
  names rule mem _ := names rule mem
  total := by
    have listed := length_eq_iff_subset once nodup known
    have all : bearer.filterIds ⊆ ids ↔ ∀ rule ∈ bearer.dynamicRules, rule.filterIds ⊆ ids := by
      simp only [TftBearer.filterIds, subset_def, mem_flatMap]
      grind
    have bound : bearer.filterIds.length ≤ 256 := by
      have numbers : bearer.filterIds.map UInt8.toNat ⊆ List.range 256 := by
        intro n mem
        obtain ⟨id, -, rfl⟩ := mem_map.mp mem
        exact mem_range.mpr id.toNat_lt
      have fits := (subperm_of_subset
        (nodup.map fun _ _ => UInt8.toNat_inj.mp) numbers).length_le
      rwa [length_map, length_range] at fits
    have filled := length_pos_iff.mpr some_id
    rw [← all, ← listed, totalNoOfPcktFltr_eq, UInt8.toNat_ofNat']
    omega
  numbers _ i rule isRule _ := by
    have ruleOnce := (nodup_flatMap.mp nodup).1 rule (mem_of_getElem? isRule)
    have found {id : UInt8} (has : id ∈ rule.filterIds) :
        (checkPcktFltrIdInRule id bearer == some i) = true :=
      beq_iff_eq.mpr (checkPcktFltrIdInRule_of_distinct nodup isRule has)
    have inside : ids.filter (fun id => checkPcktFltrIdInRule id bearer == some i) ⊆
        rule.filterIds := by
      intro id mem
      obtain ⟨other, isOther, has⟩ :=
        checkPcktFltrIdInRule_owner (beq_iff_eq.mp (mem_filter.mp mem).2)
      obtain rfl := some.inj (isRule.symm.trans isOther)
      exact has
    have listed := length_eq_iff_subset (once.filter _) ruleOnce inside
    rw [countP_eq_length_filter, ← length_map FlowDesc.pcktFltrIdentifier]
    refine listed.trans ⟨fun all id has => (mem_filter.mp (all has)).1, fun all id has => ?_⟩
    exact mem_filter.mpr ⟨all has, found has⟩

end

/-- For a description that lists filters of the bearer, whatever the memory held. -/
theorem deleteReports_iff (cmd : BearerRsrcCmd) (bearer : TftBearer) (lists : cmd.ListsFilters bearer)
    (short : ∀ rule ∈ bearer.dynamicRules, rule.ruleName.length < ruleNameLen) :
    (∀ raw rawName, ∃ avps, fillDeleteExistingFilterTftAvp raw rawName cmd bearer = .ok avps ∧
      avps.Reports bearer cmd.deletedIds) ↔ bearer.Tallied cmd.deletedIds := by
  have small := length_deletedIds_lt cmd
  obtain ⟨report, tallies, fills⟩ := fillDeleteExistingFilterTftAvp_filled lists
  constructor
  · intro reported
    have filled_reports (rawName : Nat → Nat → Char) :
        ∃ avps, Filled bearer cmd.deletedIds report rawName avps ∧
          avps.Reports bearer cmd.deletedIds := by
      have raw : Nat → GxPacketFilterInformation := fun _ =>
        ⟨⟨false, false, false, false, false, false, false⟩, [], 0, [], 0⟩
      obtain ⟨avps, result, filled⟩ := fills raw rawName
      obtain ⟨_, same, reports⟩ := reported raw rawName
      obtain rfl := Except.ok.inj (result.symm.trans same)
      exact ⟨avps, filled, reports⟩
    obtain ⟨avps, filled, reports⟩ := filled_reports fun _ _ => 'a'
    -- A rule that is affected has its place in the report.
    have placed {i : Nat} {rule : DynamicRule} (isRule : bearer.dynamicRules[i]? = some rule)
        (affected : rule.Affected cmd.deletedIds) :
        i ∈ cmd.deletedIds.filterMap (checkPcktFltrIdInRule · bearer) ∧
          ∃ n k, ((i, n), k) ∈ report.zipIdx := by
      have listed := (reports.affected i).mpr ⟨rule, isRule, affected⟩
      rw [filled.rules, tallies.mem_fst] at listed
      obtain ⟨⟨⟨_, n⟩, k⟩, entry, fst⟩ := mem_map.mp
        (zipIdx_map_fst 0 report ▸ (tallies.mem_iff i _).mpr ⟨listed, rfl⟩)
      cases fst
      exact ⟨listed, _, k, entry⟩
    constructor
    case first =>
      intro i rule isRule affected
      exact mem_filterMap.mp (placed isRule affected).1
    case names =>
      intro rule member affected
      obtain ⟨i, isRule⟩ := mem_iff_getElem?.mp member
      obtain ⟨n, k, entry⟩ := (placed isRule affected).2
      obtain ⟨_, filled, reports⟩ := filled_reports fun _ => otherMemory rule.ruleName
      have right := (filled.reports_iff tallies small).mp reports.reports i n k entry rule isRule
      exact le_of_reportedName bearer (short rule member) right.1
    case total => exact filled.operation.symm.trans reports.terminated
    case numbers =>
      intro others i rule isRule affected
      obtain ⟨n, k, entry⟩ := (placed isRule affected).2
      have right := (filled.reports_iff tallies small).mp reports.reports i n k entry rule isRule
      have number := (tallies.entry small (fst_mem_of_mem_zipIdx entry)).2
      rw [or_iff_right others, number] at right
      exact right.2
  · intro tallied raw rawName
    obtain ⟨avps, result, filled⟩ := fills raw rawName
    exact ⟨avps, result, filled.reports_of_tallied tallies small short tallied⟩

def videoRule (name : String) (ids : List UInt8) : DynamicRule where
  ruleName := name.toList
  precedence := 1
  flowDesc := ids.map fun id => { pcktFltrIdentifier := id, sdfFlwDesc := SdfPktFltr.zero }

def videoBearer (rules : List DynamicRule) : TftBearer where
  packetFilterMap _ := notPresent
  prdefRules := []
  dynamicRules := rules

def deleteFilters (count : UInt8) (ids : List UInt8) : BearerRsrcCmd where
  headerLen := 0
  trafficAggDesc := 0xa0 ||| count
  pktFltrBuf := ids
  flowQos := none

theorem deleteReports_videoBearer :
    ∃ avps,
      fillDeleteExistingFilterTftAvp (fun _ => clearEntry) (fun _ _ => '?') (deleteFilters 2 [3, 1])
        (videoBearer [videoRule "video" [1, 2], videoRule "audio" [3]]) = .ok avps ∧
      avps.Reports (videoBearer [videoRule "video" [1, 2], videoRule "audio" [3]])
        (deleteFilters 2 [3, 1]).deletedIds :=
  (deleteReports_iff _ _ ⟨by decide, by decide⟩ (by decide)).mpr
    (tallied_of_distinct (by decide) (by decide) (by decide) (by decide) (by decide) (by decide)) _ _

/-- One of the rule's two filters is listed twice: the rule is reported as active and the bearer
modified. Of a longer second name the rest is not copied. -/
theorem repeated_filter_misreported :
    (∃ avps, fillDeleteExistingFilterTftAvp (fun _ => clearEntry) (fun _ _ => '?')
        (deleteFilters 3 [1, 2, 1]) (videoBearer [videoRule "video" [1, 2]]) = .ok avps ∧
      avps.chargingRuleReport.map GxChargingRuleReport.pccRuleStatus = [.active] ∧
      avps.bearerOperation = bearerModification ∧
      ¬ avps.Reports (videoBearer [videoRule "video" [1, 2]])
        (deleteFilters 3 [1, 2, 1]).deletedIds) ∧
    ∃ avps, fillDeleteExistingFilterTftAvp (fun _ => clearEntry) (fun _ _ => '?')
        (deleteFilters 1 [2])
        (videoBearer [videoRule "web" [1], videoRule "video" [2, 3]]) = .ok avps ∧
      avps.chargingRuleReport.map GxChargingRuleReport.chargingRuleName = ["vid??".toList] := by
  constructor
  · refine ⟨_, rfl, by decide, by decide, fun reports => ?_⟩
    exact absurd (reports.terminated.mpr (by decide)) (by decide)
  · exact ⟨_, rfl, by decide⟩

end Epc.Cp

import Epc.Up.Proof.Filters

/-! The use counts of the ACL tables: in which runs of creations, updates and removals of PDRs and of deletions
of sessions they tell how many filters use a rule. -/

namespace Epc.Up.Filters

open Epc.Lib List AclState SdfPdr

section

variable (freed : List Char → List Char)

def SdfPdr.rules (pdr : SdfPdr) : List AclRule :=
  pdr.sdfFilter.filterMap (pdr.rule freed)

/-- The number of filters of the live sessions' PDRs that use a rule. -/
def uses (pdrs : List SdfPdr) (rule : AclRule) : Nat :=
  (pdrs.flatMap (SdfPdr.rules freed)).count rule

/-- A rule is in a table exactly if it is used, its table counts its uses, and a table without a
rule counts none. -/
structure UseCounts (s : FilterState) : Prop where
  installed : ∀ rule, (∃ i, (s.acl.tables i).root = some rule) ↔ 0 < uses freed s.pdrs rule
  counted : ∀ i rule, (s.acl.tables i).root = some rule →
    (s.acl.tables i).numOfUe.toNat = uses freed s.pdrs rule
  idle : ∀ i, (s.acl.tables i).root = none → (s.acl.tables i).numOfUe = 0

variable {freed} {rule : AclRule}

theorem uses_append (pdrs pdrs' : List SdfPdr) :
    uses freed (pdrs ++ pdrs') rule = uses freed pdrs rule + uses freed pdrs' rule := by
  rw [uses, flatMap_append, count_append, uses, uses]

theorem uses_cons (pdr : SdfPdr) (pdrs : List SdfPdr) :
    uses freed (pdr :: pdrs) rule = (pdr.rules freed).count rule + uses freed pdrs rule := by
  rw [uses, flatMap_cons, count_append, uses]

theorem uses_perm {pdrs pdrs' : List SdfPdr} (perm : pdrs.Perm pdrs') :
    uses freed pdrs rule = uses freed pdrs' rule :=
  (perm.flatMap_right _).count_eq rule

theorem uses_updateFirst {p : SdfPdr → Bool} {pdrs : List SdfPdr} {pdr next : SdfPdr}
    (found : pdrs.find? p = some pdr) :
    uses freed (updateFirst p (fun _ => next) pdrs) rule + (pdr.rules freed).count rule =
      uses freed pdrs rule + (next.rules freed).count rule := by
  rw [uses_perm (updateFirst_perm found), uses_perm (perm_cons_eraseP_of_find? found), uses_cons, uses_cons]
  omega

theorem uses_filter {p : SdfPdr → Bool} {pdrs : List SdfPdr}
    (plain : ∀ pdr ∈ pdrs, p pdr = false → pdr.rules freed = []) :
    uses freed (pdrs.filter p) rule = uses freed pdrs rule := by
  induction pdrs with
  | nil => rfl
  | cons pdr pdrs ih =>
    rw [forall_mem_cons] at plain
    rw [uses_cons, ← ih plain.2]
    cases kept : p pdr with
    | true => rw [filter_cons_of_pos kept, uses_cons]
    | false =>
      rw [filter_cons_of_neg (by simp [kept]), plain.1 kept, count_nil, Nat.zero_add]

end

section

variable {freed : List Char → List Char}

structure Counted (freed : List Char → List Char) (s : FilterState) : Prop where
  held : TablesHeld freed s.acl
  unique : Unique s.acl
  distinct : (s.pdrs.map SdfPdr.key).Nodup
  counts : UseCounts freed s

theorem counted_start : Counted freed {} where
  held := aclInv_start.tables
  unique _ _ _ root := by cases root
  distinct := nodup_nil
  counts :=
    { installed := fun rule =>
        ⟨fun ⟨_, root⟩ => (nomatch root), fun pos => absurd pos (Nat.lt_irrefl 0)⟩
      counted := fun _ _ root => nomatch root
      idle := fun _ _ => rfl }

theorem Counted.uses_lt {s : FilterState} (inv : Counted freed s) (rule : AclRule) :
    uses freed s.pdrs rule < 2 ^ 16 := by
  by_cases used : 0 < uses freed s.pdrs rule
  · obtain ⟨i, root⟩ := (inv.counts.installed rule).mpr used
    rw [← inv.counts.counted i rule root]
    exact UInt16.toNat_lt _
  · omega

theorem Counted.grow {s s' : FilterState} (inv : Counted freed s) {rules : List AclRule}
    {indices : List Nat} (grown : Grown s.acl s'.acl rules indices) (held : TablesHeld freed s'.acl)
    (total : ∀ rule, uses freed s'.pdrs rule = uses freed s.pdrs rule + rules.count rule)
    (fits : ∀ rule, uses freed s.pdrs rule + rules.count rule < 2 ^ 16)
    (nodup : (s'.pdrs.map key).Nodup) : Counted freed s' := by
  have unique := grown.unique inv.unique
  refine
    { held, unique, distinct := nodup
      counts :=
        { installed := fun rule => ?_
          counted := fun i rule root => ?_
          idle := fun i none => ?_ } }
  · rw [total]
    constructor
    · rintro ⟨i, root⟩
      rcases grown.origin i rule root with earlier | entered
      · exact Nat.add_pos_left ((inv.counts.installed rule).mp ⟨i, earlier⟩) _
      · exact Nat.add_pos_right _ (count_pos_iff.mpr entered)
    · intro pos
      rcases Nat.add_pos_iff_pos_or_pos.mp pos with earlier | entered
      · obtain ⟨i, root⟩ := (inv.counts.installed rule).mpr earlier
        exact ⟨i, grown.kept i rule root⟩
      · obtain ⟨i, -, root⟩ := grown.mem_placed (count_pos_iff.mp entered)
        exact ⟨i, root⟩
  · have small := fits rule
    have count : (UInt16.ofNat (rules.count rule)).toNat = rules.count rule :=
      UInt16.toNat_ofNat_of_lt' (show _ < 2 ^ 16 by omega)
    rw [grown.counted inv.unique i rule root, UInt16.toNat_add, count, total]
    by_cases earlier : (s.acl.tables i).root = some rule
    · rw [if_pos earlier, inv.counts.counted i rule earlier, Nat.mod_eq_of_lt small]
    · -- a rule that was used had its table before, and keeps it
      have unused : uses freed s.pdrs rule = 0 := by
        by_contra used
        obtain ⟨j, rootBefore⟩ := (inv.counts.installed rule).mpr (Nat.pos_of_ne_zero used)
        have same := unique j i rule (grown.kept j rule rootBefore) root
        exact earlier (same ▸ rootBefore)
      rw [unused] at small ⊢
      rw [if_neg earlier, UInt16.toNat_zero, Nat.mod_eq_of_lt small]
  · have same := grown.idle i none
    rw [same] at none
    rw [same, inv.counts.idle i none]

end

section

variable (freed : List Char → List Char) {filters : List SdfFilter}

def PdrIe.renewed (ie : PdrIe) (pdr : SdfPdr) : SdfPdr :=
  { pdr with
    prcdncVal := ie.precedence.getD pdr.prcdncVal
    interfaceValue := match ie.pdi with
      | none => pdr.interfaceValue
      | some pdi => if pdi.srcIntfc then pdi.interfaceValue else pdr.interfaceValue }

def PdrIe.added (ie : PdrIe) (pdr : SdfPdr) (pdi : PdiIe) : List AclRule :=
  pdi.sdfFilter.filterMap
    (SdfFilterIe.rule freed (ie.precedence.getD pdr.prcdncVal) pdi.interfaceValue)

/-- A PDI with its source interface and admitted filters, with room in the PDR, the session data and
the counts. -/
structure AddsOk (s : FilterState) (ie : PdrIe) (pdr : SdfPdr) (pdi : PdiIe) : Prop where
  interface : pdi.srcIntfc = true
  fteid : pdi.refusedFteid = false
  slots : pdr.sdfFilter.length + (carried pdi.sdfFilter).length ≤ maxListSize
  entries : (s.aclTableIndx ie.data).length + ((carried pdi.sdfFilter).filter (·.fd)).length ≤
    maxSdfRuleNum
  flows : FlowsOk freed (ie.precedence.getD pdr.prcdncVal) pdi.interfaceValue s.acl pdi.sdfFilter
  fits : ∀ rule, uses freed s.pdrs rule + (ie.added freed pdr pdi).count rule < 2 ^ 16

/-- The PDR's filters stand for the same rules afterwards, and the new ones are admitted. -/
structure RenewOk (s : FilterState) (ie : PdrIe) (pdr : SdfPdr) : Prop where
  same : (ie.renewed pdr).rules freed = pdr.rules freed
  adds : ∀ pdi, ie.pdi = some pdi → AddsOk freed s ie pdr pdi

/-- The PDR's filters with a flow description are parsed and not mistaken, and the session data
leaves an index entry free. -/
def Located (acl : AclState) (aclTableIndx : List Nat) (pdr : SdfPdr) (filters : List SdfFilter) : Prop :=
  ∀ filter ∈ filters, filter.fd → aclTableIndx.length < maxSdfRuleNum ∧
    ∃ pktFilter rule, pdr.pktFilter filter = .ok pktFilter ∧ pktFilter.rule freed = .ok rule ∧
      Unmistaken freed pktFilter acl

variable {freed}

structure Renewed (freed : List Char → List Char) (s : FilterState) (pdr : SdfPdr)
    (next : PdiState) : Prop where
  held : TablesHeld freed next.acl
  key : next.pdr.key = pdr.key
  grown : ∃ rules indices, next.pdr.rules freed = pdr.rules freed ++ rules ∧
    (∀ rule, uses freed s.pdrs rule + rules.count rule < 2 ^ 16) ∧ Grown s.acl next.acl rules indices

def PdrIe.process (freed : List Char → List Char) (ie : PdrIe) (start : PdiState) :
    Except Fault (Bool × PdiState) :=
  match ie.pdi with
  | none => .ok (true, start)
  | some pdi => processPdrPdiInfo freed pdi start

def PdrIe.put (ie : PdrIe) (next : SdfPdr) (pdrs : List SdfPdr) : List SdfPdr :=
  match findKey SdfPdr.key (ie.seid, ie.ruleId) pdrs with
  | none => pdrs ++ [next]
  | some _ => updateFirst (fun other => other.key = (ie.seid, ie.ruleId)) (fun _ => next) pdrs

def PdrIe.known (ie : PdrIe) (pdrs : List SdfPdr) : SdfPdr :=
  (findKey SdfPdr.key (ie.seid, ie.ruleId) pdrs).getD { seid := ie.seid, data := ie.data, ruleId := ie.ruleId }

variable {ie : PdrIe} {s : FilterState} {next : PdiState}

theorem processCreatePdrInfo_process (processed : ie.process freed ⟨{ ie.known s.pdrs with
      prcdncVal := ie.precedence.getD (ie.known s.pdrs).prcdncVal }, s.aclTableIndx ie.data, s.acl⟩ =
        .ok (true, next)) :
    processCreatePdrInfo freed ie s =
      .ok ⟨next.acl, Function.update s.aclTableIndx ie.data next.aclTableIndx, ie.put next.pdr s.pdrs⟩ := by
  rw [PdrIe.process] at processed
  rw [processCreatePdrInfo]
  cases isPdi : ie.pdi with
  | none =>
    simp only [isPdi] at processed
    cases processed
    rfl
  | some pdi =>
    simp only [isPdi] at processed
    exact (congrArg (· >>= _) processed).trans rfl

def PdrIe.older (ie : PdrIe) (pdr : SdfPdr) : List SdfFilter :=
  match ie.pdi with
  | none => []
  | some pdi => if pdi.sdfFilter = [] then [] else pdr.sdfFilter

variable {pdr : SdfPdr}

theorem processUpdatePdrInfo_process {left : List Nat}
    (found : findKey key (ie.seid, ie.ruleId) s.pdrs = some pdr)
    (dropped : (ie.older pdr).foldlM (dropIndex freed pdr s.acl) (s.aclTableIndx ie.data) = .ok left)
    (processed : ie.process freed ⟨{ pdr with prcdncVal := ie.precedence.getD pdr.prcdncVal }, left, s.acl⟩ =
      .ok (true, next)) :
    processUpdatePdrInfo freed ie s = .ok (ie.store next s) := by
  rw [PdrIe.process] at processed
  rw [PdrIe.older] at dropped
  cases isPdi : ie.pdi with
  | none =>
    simp only [isPdi] at processed dropped
    simp only [processUpdatePdrInfo, found, isPdi, dropped, except_ok_bind]
    cases processed
    rfl
  | some pdi =>
    simp only [isPdi] at processed dropped
    simp only [processUpdatePdrInfo, found, isPdi, dropped, except_ok_bind]
    exact (congrArg (· >>= _) processed).trans rfl

variable {aclTableIndx : List Nat}

theorem RenewOk.renewed (inv : Counted freed s) (ok : RenewOk freed s ie pdr)
    (short : aclTableIndx.length ≤ (s.aclTableIndx ie.data).length) :
    ∃ next, ie.process freed ⟨{ pdr with prcdncVal := ie.precedence.getD pdr.prcdncVal }, aclTableIndx,
        s.acl⟩ = .ok (true, next) ∧
      Renewed freed s pdr next := by
  have same := ok.same
  have adds := ok.adds
  rw [PdrIe.renewed] at same
  rw [PdrIe.process]
  cases isPdi : ie.pdi with
  | none =>
    rw [isPdi] at same
    exact ⟨_, rfl, inv.held, rfl, [], [], by rw [same, append_nil], inv.uses_lt, Grown.refl _⟩
  | some pdi =>
    have adds := adds pdi isPdi
    simp only [isPdi, adds.interface, if_true] at same
    obtain ⟨next, folded, added⟩ :=
      addFilters_spec
        (s := ⟨{ pdr with
          prcdncVal := ie.precedence.getD pdr.prcdncVal
          interfaceValue := pdi.interfaceValue }, aclTableIndx, s.acl⟩)
        inv.held adds.flows adds.slots ((Nat.add_le_add_right short _).trans adds.entries)
    obtain ⟨indices, -, grown⟩ := added.grown
    refine ⟨next, processPdrPdiInfo_eq adds.interface adds.fteid folded, added.held, ?_, _, indices, ?_,
      adds.fits, grown⟩
    · rw [added.pdr]
      rfl
    · rw [← same, added.pdr, rules, filterMap_append, filterMap_rule_carried rfl rfl, PdrIe.added]
      rfl

theorem Counted.put {s' : FilterState} (inv : Counted freed s)
    (renewed : Renewed freed s pdr next) (acl : s'.acl = next.acl)
    (total : ∀ rule, uses freed s'.pdrs rule + (pdr.rules freed).count rule =
      uses freed s.pdrs rule + (next.pdr.rules freed).count rule)
    (nodup : (s'.pdrs.map key).Nodup) : Counted freed s' := by
  obtain ⟨rules, indices, joined, fits, grown⟩ := renewed.grown
  refine inv.grow (acl ▸ grown) (acl ▸ renewed.held) (fun rule => ?_) fits nodup
  have balance := total rule
  rw [joined, count_append] at balance
  omega

theorem getAclTableIndx_look {s : AclState} {filter : SdfPktFilter} {rule : AclRule}
    (held : TablesHeld freed s) (parsed : filter.rule freed = .ok rule)
    (unmistaken : Unmistaken freed filter s) :
    ∃ found, s.getAclTableIndx freed filter false = .ok (found, s) ∧
      (∀ i, found = some i → (s.tables i).root = some rule) ∧
      (found = none → ∀ i, (s.tables i).root ≠ some rule) := by
  rcases held.findTable parsed unmistaken with ⟨i, found, -, root⟩ | ⟨absent, none⟩
  · refine ⟨some i, ?_, ?_, fun no => by cases no⟩
    · simp only [getAclTableIndx, parsed, found, except_ok_bind, Bool.false_eq_true, if_false]
    · rintro j same
      cases same
      exact root
  · refine ⟨Option.none, ?_, (fun _ no => by cases no), fun _ => none⟩
    simp only [getAclTableIndx, parsed, absent, except_ok_bind, Bool.false_eq_true, if_false]

variable {acl : AclState}

theorem Located.shorter {left : List Nat} (located : Located freed acl aclTableIndx pdr filters)
    (short : left.length ≤ aclTableIndx.length) : Located freed acl left pdr filters := by
  intro filter mem fd
  obtain ⟨room, parsed⟩ := located filter mem fd
  exact ⟨short.trans_lt room, parsed⟩

theorem dropIndex_spec (held : TablesHeld freed acl) {filter : SdfFilter}
    (located : Located freed acl aclTableIndx pdr [filter]) :
    ∃ left, dropIndex freed pdr acl aclTableIndx filter = .ok left ∧
      left.length ≤ aclTableIndx.length := by
  rw [dropIndex]
  by_cases fd : filter.fd
  · obtain ⟨room, pktFilter, rule, described, parsed, unmistaken⟩ :=
      located filter (mem_singleton_self _) fd
    obtain ⟨found, looked, -⟩ := getAclTableIndx_look held parsed unmistaken
    rw [if_pos fd, described, except_ok_bind, looked, except_ok_bind]
    cases found with
    | none => exact ⟨aclTableIndx, rfl, le_refl _⟩
    | some i =>
      by_cases listed : i ∈ aclTableIndx
      · refine ⟨aclTableIndx.erase i, ?_, length_erase_le⟩
        simp only [if_pos listed, if_neg (Nat.ne_of_lt room)]
      · exact ⟨aclTableIndx, by simp only [if_neg listed], le_refl _⟩
  · exact ⟨aclTableIndx, by rw [if_neg fd], le_refl _⟩

theorem dropIndexes_spec (held : TablesHeld freed acl)
    (located : Located freed acl aclTableIndx pdr filters) :
    ∃ left, filters.foldlM (dropIndex freed pdr acl) aclTableIndx = .ok left ∧
      left.length ≤ aclTableIndx.length := by
  induction filters generalizing aclTableIndx with
  | nil => exact ⟨aclTableIndx, rfl, le_refl _⟩
  | cons filter filters ih =>
    rw [Located, forall_mem_cons] at located
    obtain ⟨left, dropped, short⟩ := dropIndex_spec held (forall_mem_singleton.mpr located.1)
    obtain ⟨rest, droppedRest, shortRest⟩ := ih (Located.shorter located.2 short)
    exact ⟨rest, by rw [foldlM_cons, dropped, except_ok_bind, droppedRest], shortRest.trans short⟩

theorem PdrIe.uses_put {pdrs : List SdfPdr} {next : SdfPdr} (rule : AclRule) :
    uses freed (ie.put next pdrs) rule + ((ie.known pdrs).rules freed).count rule =
      uses freed pdrs rule + (next.rules freed).count rule := by
  rw [PdrIe.put, PdrIe.known]
  cases known : findKey key (ie.seid, ie.ruleId) pdrs with
  | none =>
    rw [Option.getD_none, uses_append, uses_cons]
    rfl
  | some pdr => exact uses_updateFirst known

theorem PdrIe.put_distinct {pdrs : List SdfPdr} {next : SdfPdr} (nodup : (pdrs.map key).Nodup)
    (named : next.key = (ie.seid, ie.ruleId)) : ((ie.put next pdrs).map key).Nodup := by
  rw [PdrIe.put]
  cases known : findKey key (ie.seid, ie.ruleId) pdrs with
  | none =>
    have fresh : next.key ∉ pdrs.map key := by
      intro mem
      obtain ⟨other, among, same⟩ := mem_map.mp mem
      have ne := find?_eq_none.mp known other among
      simp [same, named] at ne
    simp only [map_append, map_cons, map_nil]
    rw [← concat_eq_append]
    exact List.Nodup.concat fresh nodup
  | some pdr =>
    simp only [map_updateFirst_key named]
    exact nodup

theorem PdrIe.known_key (ie : PdrIe) (pdrs : List SdfPdr) : (ie.known pdrs).key = (ie.seid, ie.ruleId) := by
  rw [PdrIe.known]
  cases known : findKey key (ie.seid, ie.ruleId) pdrs with
  | none => rfl
  | some pdr => exact (findKey_some known).2

theorem Counted.create (inv : Counted freed s) (ok : RenewOk freed s ie (ie.known s.pdrs)) :
    ∃ s', processCreatePdrInfo freed ie s = .ok s' ∧ Counted freed s' := by
  obtain ⟨next, processed, renewed⟩ := RenewOk.renewed inv ok (le_refl _)
  refine ⟨_, processCreatePdrInfo_process processed, inv.put renewed rfl ie.uses_put ?_⟩
  exact ie.put_distinct inv.distinct (renewed.key.trans (ie.known_key s.pdrs))

/-- An Update PDR for a known PDR; for new filters the old ones' table indices are looked up. -/
def RenewalOk (freed : List Char → List Char) (s : FilterState) (ie : PdrIe) : Prop :=
  ∃ pdr, findKey SdfPdr.key (ie.seid, ie.ruleId) s.pdrs = some pdr ∧ RenewOk freed s ie pdr ∧
    ∀ pdi, ie.pdi = some pdi → pdi.sdfFilter ≠ [] →
      Located freed s.acl (s.aclTableIndx ie.data) pdr pdr.sdfFilter

theorem Counted.update (inv : Counted freed s) (ok : RenewalOk freed s ie) :
    ∃ s', processUpdatePdrInfo freed ie s = .ok s' ∧ Counted freed s' := by
  obtain ⟨pdr, found, ok, located⟩ := ok
  have older : Located freed s.acl (s.aclTableIndx ie.data) pdr (ie.older pdr) := by
    rw [PdrIe.older]
    cases isPdi : ie.pdi with
    | none => exact forall_mem_nil _
    | some pdi =>
      by_cases without : pdi.sdfFilter = []
      · simp only [if_pos without]
        exact forall_mem_nil _
      · simp only [if_neg without]
        exact located pdi isPdi without
  obtain ⟨left, dropped, short⟩ := dropIndexes_spec inv.held older
  obtain ⟨next, processed, renewed⟩ := RenewOk.renewed inv ok short
  have named : next.pdr.key = (ie.seid, ie.ruleId) := renewed.key.trans (findKey_some found).2
  refine ⟨ie.store next s, processUpdatePdrInfo_process found dropped processed,
    inv.put renewed rfl (fun rule => uses_updateFirst found) ?_⟩
  rw [PdrIe.store, map_updateFirst_key named]
  exact inv.distinct

end

section

variable {freed : List Char → List Char} {filters : List SdfFilter}

structure Released (s s' : AclState) (rules : List AclRule) : Prop where
  offset : s'.indxOffset = s.indxOffset
  roots : ∀ i, (s'.tables i).root = (s.tables i).root
  counted : ∀ i rule, (s.tables i).root = some rule →
    (s'.tables i).numOfUe.toNat + rules.count rule = (s.tables i).numOfUe.toNat
  idle : ∀ i, (s.tables i).root = none → s'.tables i = s.tables i

theorem Released.refl (s : AclState) : Released s s [] where
  offset := rfl
  roots _ := rfl
  counted _ _ _ := rfl
  idle _ _ := rfl

variable {s s' acl : AclState} {rules : List AclRule}

theorem Released.trans {s'' : AclState} {rules' : List AclRule} (first : Released s s' rules)
    (second : Released s' s'' rules') : Released s s'' (rules ++ rules') where
  offset := second.offset.trans first.offset
  roots i := (second.roots i).trans (first.roots i)
  counted i rule root := by
    have before := first.counted i rule root
    have after := second.counted i rule ((first.roots i).trans root)
    rw [count_append]
    omega
  idle i none := by rw [second.idle i ((first.roots i).trans none), first.idle i none]

theorem Released.held (released : Released s s' rules)
    (held : TablesHeld freed s) : TablesHeld freed s' where
  low := released.offset ▸ held.low
  unused i above := by
    rw [released.offset] at above
    have unused := held.unused i above
    rw [released.idle i (by rw [unused]), unused]
  held i rule root := held.held i rule ((released.roots i).symm.trans root)

theorem Released.unique (released : Released s s' rules)
    (unique : Unique s) : Unique s' := fun i j rule first second =>
  unique i j rule ((released.roots i).symm.trans first) ((released.roots j).symm.trans second)

theorem Released.unmistaken (released : Released s s' rules)
    {filter : SdfPktFilter} (unmistaken : Unmistaken freed filter s) : Unmistaken freed filter s' := by
  intro rule parsed i mem node root
  rw [indices, released.offset] at mem
  rw [released.roots] at root
  exact unmistaken rule parsed i mem node root

variable {rule : AclRule}

theorem Released.once (unique : Unique s) {i : Nat}
    (root : (s.tables i).root = some rule) (shared : 1 < (s.tables i).numOfUe) :
    Released s (s.setTable i fun t => { t with numOfUe := t.numOfUe - 1 }) [rule] where
  offset := rfl
  roots j := by
    by_cases here : j = i
    · rw [here, setTable_self]
    · rw [setTable_of_ne _ here]
  counted j other held := by
    by_cases here : j = i
    · subst here
      rw [root] at held
      cases held
      have one : (1 : UInt16).toNat < (s.tables j).numOfUe.toNat := shared
      rw [setTable_self, count_singleton_self, UInt16.toNat_sub_of_le _ _ (UInt16.le_of_lt shared)]
      exact Nat.sub_add_cancel one.le
    · have ne : rule ≠ other := by
        rintro rfl
        exact here (unique j i rule held root)
      rw [setTable_of_ne _ here, count_singleton, if_neg (by simpa using ne), Nat.add_zero]
  idle j none := by
    refine setTable_of_ne _ ?_
    rintro rfl
    rw [root] at none
    cases none

/-- Each filter's rule has a table among the session data's indices that counts more uses than the
filters have. -/
def Shared (acl : AclState) (aclTableIndx : List Nat) (rules : List AclRule) : Prop :=
  ∀ rule ∈ rules, ∃ i < maxAclTables, (acl.tables i).root = some rule ∧
    rules.count rule ≤ aclTableIndx.count i ∧ rules.count rule < (acl.tables i).numOfUe.toNat

variable {aclTableIndx : List Nat}

theorem Shared.tail (unique : Unique acl) {i : Nat} (root : (acl.tables i).root = some rule)
    (shared : Shared acl aclTableIndx (rule :: rules)) :
    Shared (acl.setTable i fun t => { t with numOfUe := t.numOfUe - 1 }) (aclTableIndx.erase i) rules := by
  intro other mem
  obtain ⟨j, inRange, rootJ, listed, more⟩ := shared other (mem_cons_of_mem _ mem)
  by_cases same : rule = other
  · subst same
    have here := unique j i rule rootJ root
    subst here
    rw [count_cons_self] at listed more
    refine ⟨j, inRange, by rw [setTable_self]; exact root, ?_, ?_⟩
    · rw [count_erase_self]
      omega
    · have one : (1 : UInt16) ≤ (acl.tables j).numOfUe := by
        exact (Nat.le_add_left 1 _).trans more.le
      rw [setTable_self, UInt16.toNat_sub_of_le _ _ one]
      exact Nat.lt_sub_of_add_lt more
  · have elsewhere : j ≠ i := by
      rintro rfl
      rw [root] at rootJ
      exact same (Option.some.inj rootJ)
    rw [count_cons_of_ne same] at listed more
    refine ⟨j, inRange, ?_, ?_, ?_⟩
    · rw [setTable_of_ne _ elsewhere]
      exact rootJ
    · rw [count_erase_of_ne elsewhere]
      exact listed
    · rw [setTable_of_ne _ elsewhere]
      exact more

variable {pdr : SdfPdr}

theorem Located.released {acl' : AclState} (released : Released acl acl' rules) {left : List Nat}
    (located : Located freed acl aclTableIndx pdr filters) (short : left.length ≤ aclTableIndx.length) :
    Located freed acl' left pdr filters := by
  intro filter mem fd
  obtain ⟨room, pktFilter, rule, described, parsed, unmistaken⟩ := located.shorter short filter mem fd
  exact ⟨room, pktFilter, rule, described, parsed, released.unmistaken unmistaken⟩

theorem removeFilter_spec (held : TablesHeld freed acl) (unique : Unique acl)
    {filter : SdfFilter} {i : Nat}
    (located : Located freed acl aclTableIndx pdr [filter]) (stands : pdr.rule freed filter = some rule)
    (inRange : i < maxAclTables) (root : (acl.tables i).root = some rule) (listed : i ∈ aclTableIndx)
    (shared : 1 < (acl.tables i).numOfUe) (dangling : Option Nat) :
    removeFilter freed dangling pdr (aclTableIndx, acl) filter =
      .ok (aclTableIndx.erase i, acl.setTable i fun t => { t with numOfUe := t.numOfUe - 1 }) := by
  have fd : filter.fd := by
    by_contra plain
    rw [SdfPdr.rule, if_neg plain] at stands
    cases stands
  obtain ⟨room, pktFilter, rule', described, parsed, unmistaken⟩ :=
    located filter (mem_singleton_self _) fd
  have same : rule' = rule := by
    have described' : sdfPktFilter pdr.prcdncVal pdr.interfaceValue filter.flowDesc = .ok pktFilter := described
    simp only [SdfPdr.rule, if_pos fd, flowRule, described', parsed] at stands
    exact Option.some.inj stands
  rw [same] at parsed
  obtain ⟨found, looked, inTable, missing⟩ := getAclTableIndx_look held parsed unmistaken
  have found : found = some i := by
    cases found with
    | none => exact absurd root (missing rfl i)
    | some j => rw [unique j i rule (inTable j rfl) root]
  rw [found] at looked
  simp only [removeFilter, if_pos fd, described, looked, except_ok_bind, if_pos listed,
    removeRuleEntryAcl, if_neg (Nat.not_le.mpr inRange), if_pos shared, if_neg (Nat.ne_of_lt room)]

theorem removeFilters_spec (dangling : Option Nat) (held : TablesHeld freed acl) (unique : Unique acl)
    (located : Located freed acl aclTableIndx pdr filters)
    (shared : Shared acl aclTableIndx (filters.filterMap (pdr.rule freed))) :
    ∃ left acl', filters.foldlM (removeFilter freed dangling pdr) (aclTableIndx, acl) = .ok (left, acl') ∧
      Released acl acl' (filters.filterMap (pdr.rule freed)) := by
  induction filters generalizing aclTableIndx acl with
  | nil => exact ⟨aclTableIndx, acl, rfl, Released.refl acl⟩
  | cons filter filters ih =>
    rw [Located, forall_mem_cons] at located
    cases stands : pdr.rule freed filter with
    | none =>
      have plain : ¬ filter.fd := by
        intro fd
        obtain ⟨-, pktFilter, rule, described, parsed, -⟩ := located.1 fd
        rw [SdfPdr.pktFilter] at described
        simp only [SdfPdr.rule, if_pos fd, flowRule, described, parsed] at stands
        cases stands
      rw [filterMap_cons, stands] at shared ⊢
      obtain ⟨left, acl', removed, released⟩ := ih held unique located.2 shared
      refine ⟨left, acl', ?_, released⟩
      rw [foldlM_cons, removeFilter, if_neg plain, except_ok_bind, removed]
    | some rule =>
      rw [filterMap_cons, stands] at shared ⊢
      obtain ⟨i, inRange, root, listed, more⟩ := shared rule mem_cons_self
      rw [count_cons_self] at listed more
      have many : 1 < (acl.tables i).numOfUe := by
        exact Nat.lt_of_le_of_lt (Nat.le_add_left 1 _) more
      have inList : i ∈ aclTableIndx := count_pos_iff.mp (by omega)
      have one := Released.once unique root many
      obtain ⟨left, acl', removed, released⟩ :=
        ih (one.held held) (one.unique unique) (Located.released one located.2 length_erase_le)
          (Shared.tail unique root shared)
      refine ⟨left, acl', ?_, one.trans released⟩
      rw [foldlM_cons, removeFilter_spec held unique (forall_mem_singleton.mpr located.1) stands
        inRange root inList many, except_ok_bind, removed]

/-- A removal of an unknown PDR, or of one whose rules are listed and shared, in a session with
another PDR. -/
def RemovalOk (freed : List Char → List Char) (s : FilterState) (seid : UInt64) (ruleId : UInt16) : Prop :=
  ∀ pdr, findKey SdfPdr.key (seid, ruleId) s.pdrs = some pdr →
    Located freed s.acl (s.aclTableIndx pdr.data) pdr pdr.sdfFilter ∧
      Shared s.acl (s.aclTableIndx pdr.data) (pdr.rules freed) ∧
      ∃ other ∈ s.pdrs, other.seid = seid ∧ other.ruleId ≠ ruleId

theorem uses_without {pdrs : List SdfPdr} {key : UInt64 × UInt16}
    (nodup : (pdrs.map SdfPdr.key).Nodup) (found : findKey SdfPdr.key key pdrs = some pdr) :
    uses freed pdrs rule = (pdr.rules freed).count rule +
      uses freed (pdrs.filter fun other => other.key ≠ key) rule := by
  obtain ⟨mem, named⟩ := findKey_some found
  have alone : (pdrs.filter fun other => other.key = key) = [pdr] := by
    rw [← filter_key_eq_singleton nodup mem, named]
    exact filter_congr fun other _ => decide_eq_decide.mpr eq_comm
  have parts := filter_append_perm (fun other : SdfPdr => decide (other.key = key)) pdrs
  rw [alone, singleton_append] at parts
  rw [← uses_perm parts, uses_cons]
  simp

theorem Counted.release {s s' : FilterState} (inv : Counted freed s)
    (released : Released s.acl s'.acl rules) (shared : Shared s.acl aclTableIndx rules)
    (total : ∀ rule, uses freed s.pdrs rule = rules.count rule + uses freed s'.pdrs rule)
    (nodup : (s'.pdrs.map key).Nodup) : Counted freed s' := by
  refine
    { held := released.held inv.held
      unique := released.unique inv.unique
      distinct := nodup
      counts :=
        { installed := fun rule => ⟨?_, fun used => ?_⟩
          counted := fun i rule root => ?_
          idle := fun i none => ?_ } }
  · rintro ⟨i, root⟩
    rw [released.roots] at root
    have used := (inv.counts.installed rule).mp ⟨i, root⟩
    have split := total rule
    by_cases mem : rule ∈ rules
    · obtain ⟨j, -, rootJ, -, more⟩ := shared rule mem
      rw [inv.counts.counted j rule rootJ] at more
      omega
    · rw [count_eq_zero_of_not_mem mem] at split
      omega
  · obtain ⟨i, root⟩ := (inv.counts.installed rule).mpr (by rw [total]; omega)
    exact ⟨i, (released.roots i).trans root⟩
  · rw [released.roots] at root
    have down := released.counted i rule root
    rw [inv.counts.counted i rule root, total] at down
    omega
  · rw [released.roots] at none
    rw [released.idle i none, inv.counts.idle i none]

theorem Counted.remove {s : FilterState} {seid : UInt64} {ruleId : UInt16} (inv : Counted freed s)
    (ok : RemovalOk freed s seid ruleId) (dangling : Option Nat) :
    ∃ s', processRemovePdrSess freed seid ruleId dangling s = .ok s' ∧ Counted freed s' := by
  rw [processRemovePdrSess]
  cases found : findKey key (seid, ruleId) s.pdrs with
  | none => exact ⟨s, rfl, inv⟩
  | some pdr =>
    obtain ⟨located, shared, other, mem, inSession, ne⟩ := ok pdr found
    obtain ⟨left, acl, removed, released⟩ :=
      removeFilters_spec dangling inv.held inv.unique located shared
    have remains : ¬ (s.pdrs.filter fun other => other.key ≠ (seid, ruleId)).all
        (fun other => other.seid ≠ seid) := by
      have stays : other ∈ s.pdrs.filter fun other => other.key ≠ (seid, ruleId) := by
        refine mem_filter.mpr ⟨mem, ?_⟩
        simpa [key, inSession] using ne
      intro all
      simpa [inSession] using all_eq_true.mp all other stays
    refine ⟨_, by simp only [removed, except_ok_bind, if_neg remains]; rfl,
      inv.release released shared (fun rule => uses_without inv.distinct found) ?_⟩
    exact inv.distinct.sublist (filter_sublist.map _)

end

section

open Run

/-- A PDR is created, updated or removed, or a session is deleted. -/
inductive FilterOp where
  | create (ie : PdrIe)
  | update (ie : PdrIe)
  | remove (seid : UInt64) (ruleId : UInt16) (dangling : Option Nat)
  | delete (seid : UInt64)
  deriving DecidableEq, Repr

variable (freed : List Char → List Char)

def FilterOp.exec (op : FilterOp) (s : FilterState) : Except Fault FilterState :=
  match op with
  | create ie => processCreatePdrInfo freed ie s
  | update ie => processUpdatePdrInfo freed ie s
  | remove seid ruleId dangling => processRemovePdrSess freed seid ruleId dangling s
  | delete seid => .ok (upDeleteSessionEntry seid s)

/-- Filters are admitted and keep their rules, removed filters share theirs, deleted sessions have
none. -/
def FilterOp.ok (s : FilterState) : FilterOp → Prop
  | create ie => RenewOk freed s ie (ie.known s.pdrs)
  | update ie => RenewalOk freed s ie
  | remove seid ruleId _ => RemovalOk freed s seid ruleId
  | delete seid => ∀ pdr ∈ s.pdrs, pdr.seid = seid → pdr.rules freed = []

variable {freed}

theorem Counted.delete {s : FilterState} {seid : UInt64} (inv : Counted freed s)
    (plain : ∀ pdr ∈ s.pdrs, pdr.seid = seid → pdr.rules freed = []) :
    Counted freed (upDeleteSessionEntry seid s) := by
  refine inv.grow (Grown.refl _) inv.held (fun rule => ?_) inv.uses_lt ?_
  · refine uses_filter fun pdr mem here => plain pdr mem ?_
    simpa using here
  · exact inv.distinct.sublist (filter_sublist.map _)

theorem Counted.step {s : FilterState} {op : FilterOp} (inv : Counted freed s) (ok : op.ok freed s) :
    ∃ s', op.exec freed s = .ok s' ∧ Counted freed s' := by
  cases op with
  | create ie => exact inv.create ok
  | update ie => exact inv.update ok
  | remove seid ruleId dangling => exact inv.remove ok dangling
  | delete seid => exact ⟨_, rfl, inv.delete ok⟩

/-- In every admitted run the tables count the uses of their rules in every state. -/
theorem useCounts_run {ops : List FilterOp}
    (guarded : Guarded (attempt (FilterOp.exec freed)) (FilterOp.ok freed) {} ops) (before : List FilterOp)
    (isPrefix : before <+: ops) : UseCounts freed (run (attempt (FilterOp.exec freed)) {} before) := by
  have inv : Counted freed (run (attempt (FilterOp.exec freed)) {} before) := by
    refine (guarded.of_prefix isPrefix).invariant (Counted freed) counted_start fun s op inv ok => ?_
    obtain ⟨s', done, inv'⟩ := inv.step ok
    rw [attempt_ok done]
    exact inv'
  exact inv.counts

theorem create_anyDownlink_ok {s : FilterState} {ruleId : UInt16}
    (new : findKey SdfPdr.key (1, ruleId) s.pdrs = none)
    (entries : (s.aclTableIndx 0).length + 1 ≤ maxSdfRuleNum)
    (room : s.acl.indxOffset < maxAclTables) (unmistaken : Unmistaken id (anyFlow 1) s.acl)
    (few : (s.pdrs.flatMap (SdfPdr.rules id)).length + 1 < 2 ^ 16) :
    FilterOp.ok id s (.create (anyDownlink 1 ruleId)) := by
  have known : (anyDownlink 1 ruleId).known s.pdrs = { seid := 1, data := 0, ruleId } := by
    simp [PdrIe.known, anyDownlink, new]
  refine ⟨by rw [known]; rfl, fun pdi isPdi => ?_⟩
  cases isPdi
  rw [known]
  refine ⟨rfl, rfl, show 0 + 1 ≤ 16 by decide, entries, flowsOk_anyDownlink room unmistaken,
    fun rule => ?_⟩
  refine (Nat.add_le_add count_le_length ?_).trans_lt few
  exact count_le_length.trans (length_filterMap_le _ _)

def anyPdr (ruleId : UInt16) : SdfPdr where
  seid := 1
  data := 0
  ruleId
  prcdncVal := 1
  interfaceValue := 1
  sdfFilter :=
    [processPdiSdfFilters { flowDesc := "0.0.0.0/0 0.0.0.0/0 0 : 65535 0 : 65535 0x0/0x0".toList }]

/-- Two PDRs with the same filter, of which one is removed. -/
theorem useCounts_anyDownlink :
    UseCounts id (run (attempt (FilterOp.exec id)) {}
      [.create (anyDownlink 1), .create (anyDownlink 1 2), .remove 1 2 none]) := by
  have first : FilterOp.ok id {} (.create (anyDownlink 1)) :=
    create_anyDownlink_ok rfl (by decide) (by decide) (fun _ _ i mem => nomatch mem) (by decide)
  have second : FilterOp.ok id (run (attempt (FilterOp.exec id)) {} [.create (anyDownlink 1)])
      (.create (anyDownlink 1 2)) := by
    refine create_anyDownlink_ok (by decide +kernel) (by decide +kernel) (by decide +kernel) ?_
      (by decide +kernel)
    unfold Unmistaken
    decide +kernel
  have removed : FilterOp.ok id (run (attempt (FilterOp.exec id)) {}
      [.create (anyDownlink 1), .create (anyDownlink 1 2)]) (.remove 1 2 none) := by
    intro pdr found
    have pdrs : (run (attempt (FilterOp.exec id)) {}
        [.create (anyDownlink 1), .create (anyDownlink 1 2)]).pdrs = [anyPdr 1, anyPdr 2] := by
      decide +kernel
    rw [pdrs] at found ⊢
    cases found
    refine ⟨fun filter mem _ => ⟨by decide +kernel, anyFlow 1, anyRule 1, ?_, anyFlow_rule 1, ?_⟩,
      fun rule mem => ⟨1, by decide, ?_⟩, anyPdr 1, mem_cons_self .., rfl, by decide⟩
    · cases mem_singleton.mp mem
      rfl
    · unfold Unmistaken
      decide +kernel
    · have rules : (anyPdr 2).rules id = [anyRule 1] := by decide +kernel
      rw [rules] at mem ⊢
      cases mem_singleton.mp mem
      decide +kernel
  have guarded : Guarded (attempt (FilterOp.exec id)) (FilterOp.ok id) {}
      [.create (anyDownlink 1), .create (anyDownlink 1 2), .remove 1 2 none] :=
    ⟨first, second, removed, trivial⟩
  exact useCounts_run guarded _ (prefix_refl _)

/-- The deletion of a session leaves the rule of its filter and the count. -/
theorem deletion_leaves_rule :
    Guarded (attempt (FilterOp.exec id)) (fun s op => (op.exec id s).isOk = true) {}
        [.create (anyDownlink 1), .delete 1] ∧
      ¬ UseCounts id (run (attempt (FilterOp.exec id)) {} [.create (anyDownlink 1), .delete 1]) := by
  refine ⟨by decide +kernel, fun counts => ?_⟩
  have root : ((run (attempt (FilterOp.exec id)) {}
      [.create (anyDownlink 1), .delete 1]).acl.tables 1).root = some (anyRule 1) := by decide +kernel
  have none : (run (attempt (FilterOp.exec id)) {} [.create (anyDownlink 1), .delete 1]).pdrs = [] := by
    decide +kernel
  have used := (counts.installed (anyRule 1)).mp ⟨1, root⟩
  exact absurd used (Nat.lt_irrefl 0)

end

end Epc.Up.Filters

import Epc.Cp.DdnTimer
import Epc.Cp.Ddn

/-! What the callbacks of the timers do with the deferred reports, and when none of them is lost. -/

namespace Epc.Cp

open Epc.Lib List
open Option hiding any_eq_false any_eq_true filter_map map_map mem_map

section

structure PdrIds.WellFormed (record : PdrIds) : Prop where
  length : record.pdrId.length = maxListSize
  count : record.pdrCount.toNat ≤ maxListSize

/-- A node of the throttling record: the rule ids that count are not 0, the others are. -/
structure SessInfo.WellFormed (info : SessInfo) : Prop where
  length : info.pdrId.length = maxListSize
  count : info.pdrCount.toNat ≤ maxListSize
  nonzero : ∀ id ∈ info.ids, id ≠ 0
  rest : ∀ id ∈ info.pdrId.drop info.pdrCount.toNat, id = 0

structure ThrtleCount.WellFormed (count : ThrtleCount) : Prop where
  distinct : (count.sessPtr.map SessInfo.sessId).Nodup
  nodes : ∀ info ∈ count.sessPtr, info.WellFormed

def ThrtleCount.Recorded (count : ThrtleCount) (seid : UInt64) (record : PdrIds) : Prop :=
  ∃ info ∈ count.sessPtr, info.sessId = seid ∧ ∀ id ∈ record.ids, id ∈ info.ids

/-- A node takes a record's rule ids: it is empty, or the new ones are octets and find place. -/
def SessInfo.Takes (info : SessInfo) (record : PdrIds) : Prop :=
  info.pdrCount = 0 ∨
    (info.ids.length + (record.ids.filter (· ∉ info.ids)).length ≤ maxListSize ∧
      ∀ id ∈ record.ids.filter (· ∉ info.ids), id < 256)

variable {info : SessInfo} {record : PdrIds}

theorem SessInfo.WellFormed.length_ids (wf : info.WellFormed) :
    info.ids.length = info.pdrCount.toNat := by
  rw [SessInfo.ids, length_take, wf.length]
  exact Nat.min_eq_left wf.count

theorem SessInfo.WellFormed.findIdx_eq (wf : info.WellFormed) :
    info.pdrId.findIdx (· = 0) = info.ids.length := by
  have split : info.pdrId = info.ids ++ info.pdrId.drop info.pdrCount.toNat :=
    (take_append_drop _ _).symm
  have none : info.ids.findIdx (· = 0) = info.ids.length :=
    findIdx_eq_length.mpr fun id mem => by simpa using wf.nonzero id mem
  rw [split, findIdx_append, none, if_neg (lt_irrefl _)]
  cases rest : info.pdrId.drop info.pdrCount.toNat with
  | nil => simp
  | cons id later =>
    have zero : id = 0 := wf.rest id (rest ▸ mem_cons_self)
    simp [findIdx_cons, zero]

theorem toUInt8_toUInt16_of_lt {id : UInt16} (small : id < 256) : id.toUInt8.toUInt16 = id := by
  apply UInt16.toNat_inj.mp
  exact Nat.mod_eq_of_lt (UInt16.lt_iff_toNat_lt.mp small)

theorem toUInt8_toUInt16_lt (id : UInt16) : id.toUInt8.toUInt16 < 256 := by
  exact id.toUInt8.toNat_lt

theorem small_of_mem_truncated {ids new : List UInt16} (covers : ∀ id ∈ new, id ∉ ids)
    (recorded : ∀ id ∈ new, id ∈ ids ++ new.map fun id => id.toUInt8.toUInt16) :
    ∀ id ∈ new, id < 256 := by
  intro id mem
  rcases mem_append.mp (recorded id mem) with old | truncated
  · exact absurd old (covers id mem)
  · obtain ⟨other, -, rfl⟩ := mem_map.mp truncated
    exact toUInt8_toUInt16_lt other

theorem sessId_fillSessInfoPdr {numPdr : UInt8} {pdr : List UInt16} {filled : SessInfo}
    (done : fillSessInfoPdr info numPdr pdr = some filled) : filled.sessId = info.sessId := by
  rw [fillSessInfoPdr] at done
  split at done
  · cases done
  · split at done
    · cases done
      rfl
    · split at done
      · cases done
      · dsimp only at done
        split at done
        · cases done
        · cases done
          rfl

theorem fillSessInfoPdr_empty (array : record.WellFormed) (empty : info.pdrCount = 0) :
    ∃ filled, fillSessInfoPdr info record.pdrCount record.pdrId = some filled ∧
      filled.ids = record.ids := by
  refine ⟨_, by rw [fillSessInfoPdr, if_neg (Nat.not_lt.mpr array.count), if_pos empty], ?_⟩
  have length : (record.pdrId.take record.pdrCount.toNat).length = record.pdrCount.toNat := by
    rw [length_take, array.length]
    exact Nat.min_eq_left array.count
  rw [SessInfo.ids, take_append_of_le_length length.ge, take_of_length_le length.le]
  rfl

theorem fillSessInfoPdr_used (wf : info.WellFormed) (array : record.WellFormed)
    (used : info.pdrCount ≠ 0) {new : List UInt16} (isNew : record.ids.filter (· ∉ info.ids) = new) :
    ∃ filled, fillSessInfoPdr info record.pdrCount record.pdrId =
        (if maxListSize < info.ids.length + new.length then none else some filled) ∧
      (info.ids.length + new.length ≤ maxListSize →
        filled.ids = info.ids ++ new.map fun id => id.toUInt8.toUInt16) := by
  have stored : record.pdrId.take record.pdrCount.toNat = record.ids := rfl
  rw [fillSessInfoPdr, if_neg (Nat.not_lt.mpr array.count), if_neg used,
    if_neg (Nat.not_lt.mpr wf.count), wf.findIdx_eq, stored, isNew]
  dsimp only
  rw [length_map]
  refine ⟨_, rfl, fun fits => ?_⟩
  have total : (info.pdrCount + UInt8.ofNat new.length).toNat = info.ids.length + new.length := by
    rw [UInt8.toNat_add, UInt8.toNat_ofNat', wf.length_ids]
    rw [wf.length_ids, maxListSize] at fits
    omega
  have front : info.pdrId.take info.ids.length = info.ids := by
    rw [wf.length_ids]
    rfl
  rw [SessInfo.ids, total, front]
  exact take_left' (by simp)

theorem fillSessInfoPdr_iff (wf : info.WellFormed) (array : record.WellFormed) :
    (∃ filled, fillSessInfoPdr info record.pdrCount record.pdrId = some filled ∧
        ∀ id ∈ record.ids, id ∈ filled.ids) ↔ info.Takes record := by
  by_cases empty : info.pdrCount = 0
  · obtain ⟨filled, done, same⟩ := fillSessInfoPdr_empty array empty
    exact ⟨fun _ => .inl empty, fun _ => ⟨filled, done, fun id mem => same ▸ mem⟩⟩
  · obtain ⟨filled, done, same⟩ := fillSessInfoPdr_used wf array empty rfl
    rw [SessInfo.Takes, or_iff_right empty, done]
    constructor
    · rintro ⟨other, stored, recorded⟩
      split_ifs at stored with full
      cases stored
      have fits := Nat.not_lt.mp full
      rw [same fits] at recorded
      exact ⟨fits, small_of_mem_truncated (fun id mem => by simpa using (mem_filter.mp mem).2)
        fun id mem => recorded id (mem_filter.mp mem).1⟩
    · rintro ⟨fits, small⟩
      refine ⟨filled, if_neg (Nat.not_lt.mpr fits), fun id mem => ?_⟩
      rw [same fits, mem_append]
      by_cases old : id ∈ info.ids
      · exact .inl old
      · have new : id ∈ record.ids.filter (· ∉ info.ids) := mem_filter.mpr ⟨mem, decide_eq_true old⟩
        exact .inr (mem_map.mpr ⟨id, new, toUInt8_toUInt16_of_lt (small id new)⟩)

end

section

variable {count : ThrtleCount} {seid : UInt64} {record : PdrIds}

section

variable {count' : ThrtleCount} {numPdr : UInt8} {pdr : List UInt16} (wf : count.WellFormed)
  (done : fillSessInfoId count seid numPdr pdr = some count')

include wf done

theorem fillSessInfoId_cases :
    ∃ filled, (∃ info, findKey SessInfo.sessId seid count.sessPtr = some info ∧
        fillSessInfoPdr info numPdr pdr = some filled ∧ filled.sessId = seid ∧
        ∀ node, node ∈ count'.sessPtr ↔ node = filled ∨ node ∈ count.sessPtr ∧ node.sessId ≠ seid) ∨
      (∀ node ∈ count.sessPtr, node.sessId ≠ seid) ∧ filled.sessId = 0 ∧
        (count'.sessPtr = count.sessPtr ∨ count'.sessPtr = count.sessPtr ++ [filled]) := by
  rw [fillSessInfoId] at done
  split at done
  case h_1 info found =>
    obtain ⟨filled, fills, rfl⟩ := map_eq_some_iff.mp done
    have same : filled.sessId = seid := (sessId_fillSessInfoPdr fills).trans (findKey_some found).2
    exact ⟨filled, .inl ⟨info, found, fills, same, mem_updateFirst_key wf.distinct found⟩⟩
  case h_2 absent =>
    obtain ⟨filled, fills, rfl⟩ := map_eq_some_iff.mp done
    refine ⟨filled, .inr ⟨by simpa [findKey] using find?_eq_none.mp absent,
      sessId_fillSessInfoPdr fills, ?_⟩⟩
    split
    case h_1 => exact .inl rfl
    case h_2 list => exact .inr (by rw [list])

theorem recorded_fill_other
    {other : UInt64} (ne : other ≠ seid) (nonzero : other ≠ 0) (record : PdrIds) :
    count'.Recorded other record ↔ count.Recorded other record := by
  refine exists_congr fun node => ?_
  rw [← and_assoc, ← and_assoc]
  refine and_congr_left fun _ => and_congr_left ?_
  rintro rfl
  obtain ⟨filled, ⟨-, -, -, same, nodes⟩ | ⟨-, zero, nodes | nodes⟩⟩ := fillSessInfoId_cases wf done
  · rw [nodes, and_iff_left ne, or_iff_right]
    exact fun isFilled => ne (isFilled ▸ same)
  · rw [nodes]
  · rw [nodes, mem_append, mem_singleton, or_iff_left]
    exact fun isFilled => nonzero (isFilled ▸ zero)

end

theorem recorded_fill_iff (wf : count.WellFormed) (array : record.WellFormed) (nonzero : seid ≠ 0) :
    (∃ count', fillSessInfoId count seid record.pdrCount record.pdrId = some count' ∧
        count'.Recorded seid record) ↔
      ∃ info, findKey SessInfo.sessId seid count.sessPtr = some info ∧ info.Takes record := by
  constructor
  · rintro ⟨count', done, node, mem, named, ids⟩
    obtain ⟨filled, ⟨info, found, fills, -, nodes⟩ | ⟨absent, zero, nodes⟩⟩ :=
      fillSessInfoId_cases wf done
    · obtain rfl := ((nodes node).mp mem).resolve_right fun old => old.2 named
      exact ⟨info, found, (fillSessInfoPdr_iff (wf.nodes info (findKey_some found).1) array).mp
        ⟨node, fills, ids⟩⟩
    · have old : node ∈ count.sessPtr := by
        rcases nodes with nodes | nodes <;> rw [nodes] at mem
        · exact mem
        · refine (mem_append.mp mem).resolve_right fun new => nonzero ?_
          rw [← named, mem_singleton.mp new, zero]
      exact absurd named (absent node old)
  · rintro ⟨info, found, takes⟩
    obtain ⟨mem, named⟩ := findKey_some found
    obtain ⟨filled, fills, ids⟩ := (fillSessInfoPdr_iff (wf.nodes info mem) array).mpr takes
    have same := (sessId_fillSessInfoPdr fills).trans named
    refine ⟨_, by simp only [fillSessInfoId, found, fills]; rfl, filled, ?_, same, ids⟩
    exact (mem_updateFirst_key wf.distinct found filled).mpr (.inl rfl)

end

section

variable {thrtlFact : Nat → Nat → UInt8} {ueContextByFteid : Table UInt32 DdnContext} {s : TimerState}

def TimerState.deferred (s : TimerState) (context : DdnContext) : List UInt64 :=
  context.seids.filter fun seid => (s.ddnBySeid seid).isSome

def TimerState.thrtleCount (s : TimerState) (mme : NodeAddress) : ThrtleCount :=
  (s.thrtlDdnCount mme).getD {}

def deferredCall (seid : UInt64) (record : PdrIds) : DdnCall :=
  ⟨seid, { record with ddnBufferedCount := 0 }⟩

theorem ddnTimerLoop_unthrottled (thrtlFact : Nat → Nat → UInt8) {mme : NodeAddress}
    (idle : s.thrtlTimerByNodeip mme = none) (seids : List UInt64) :
    ddnTimerLoop thrtlFact mme seids s =
      some (seids.filterMap fun seid => (s.ddnBySeid seid).map (deferredCall seid), s) := by
  induction seids with
  | nil => rfl
  | cons seid rest ih =>
    cases present : s.ddnBySeid seid with
    | none => simp only [ddnTimerLoop, present, ih, filterMap_cons, map_none]
    | some record =>
      simp only [ddnTimerLoop, present, idle, ih, filterMap_cons, map_some, deferredCall]

variable {factor : UInt8}

theorem ddnTimerLoop_throttled (thrtlFact : Nat → Nat → UInt8) {mme : NodeAddress}
    (running : s.thrtlTimerByNodeip mme = some factor) (seids : List UInt64) :
    ((seids.filter fun seid => (s.ddnBySeid seid).isSome) = [] →
      ddnTimerLoop thrtlFact mme seids s = some ([], s)) ∧
    ∀ first rest record, (seids.filter fun seid => (s.ddnBySeid seid).isSome) = first :: rest →
      s.ddnBySeid first = some record →
      ddnTimerLoop thrtlFact mme seids s =
        (throttled thrtlFact factor (s.thrtleCount mme) first record).map fun (calls, count) =>
          (calls, { s with thrtlDdnCount := s.thrtlDdnCount.add mme count }) := by
  induction seids with
  | nil =>
    refine ⟨fun _ => rfl, fun first rest record none => ?_⟩
    cases none
  | cons seid rest ih =>
    cases present : s.ddnBySeid seid with
    | none =>
      rw [filter_cons_of_neg (by simp [present])]
      simpa only [ddnTimerLoop, present] using ih
    | some stored =>
      rw [filter_cons_of_pos (by simp [present])]
      refine ⟨fun empty => absurd empty (cons_ne_nil _ _),
        fun first later record list found => ?_⟩
      obtain ⟨rfl, -⟩ := List.cons.inj list
      rw [present, some_inj] at found
      subst found
      simp only [ddnTimerLoop, present, running, TimerState.thrtleCount]

variable {seid first sessId : UInt64} {record : PdrIds}

theorem filter_deferredCalls {seids : List UInt64} (nodup : seids.Nodup)
    (mem : seid ∈ seids) (found : s.ddnBySeid seid = some record) :
    (seids.filterMap fun seid => (s.ddnBySeid seid).map (deferredCall seid)).filter
      (·.sessionId = seid) = [deferredCall seid record] := by
  induction seids with
  | nil => cases mem
  | cons first rest ih =>
    rw [nodup_cons] at nodup
    have others : ∀ call ∈ rest.filterMap fun seid => (s.ddnBySeid seid).map (deferredCall seid),
        call.sessionId ∈ rest := by
      intro call inCalls
      obtain ⟨a, inRest, made⟩ := mem_filterMap.mp inCalls
      obtain ⟨stored, -, rfl⟩ := map_eq_some_iff.mp made
      exact inRest
    rcases mem_cons.mp mem with rfl | inRest
    · rw [filterMap_cons, found, map_some]
      rw [filter_cons_of_pos (by simp [deferredCall]), List.cons.injEq]
      refine ⟨rfl, filter_eq_nil_iff.mpr fun call inCalls same => nodup.1 ?_⟩
      rw [decide_eq_true_eq] at same
      exact same ▸ others call inCalls
    · have ne : first ≠ seid := fun same => nodup.1 (same ▸ inRest)
      rw [← ih nodup.2 inRest, filterMap_cons]
      cases s.ddnBySeid first with
      | none => rfl
      | some stored =>
        rw [map_some]
        rw [filter_cons_of_neg (by simp [deferredCall, ne])]

/-- A deferred report: `ddn_by_session_id` is called once with it, or the rule ids are in the
throttling record. -/
def Reported (calls : List DdnCall) (count : ThrtleCount) (seid : UInt64) (record : PdrIds) : Prop :=
  calls.filter (·.sessionId = seid) = [deferredCall seid record] ∨ count.Recorded seid record

def DdnTimerReports (thrtlFact : Nat → Nat → UInt8) (ueContextByFteid : Table UInt32 DdnContext)
    (sessId : UInt64) (context : DdnContext) (s : TimerState) : Prop :=
  ∃ calls s', ddnTimerCallback thrtlFact ueContextByFteid sessId s = some (calls, s') ∧
    ∀ seid ∈ context.seids, ∀ record, s.ddnBySeid seid = some record →
      Reported calls (s'.thrtleCount context.s11MmeGtpcIp) seid record

/-- While the MME throttles, later reports are recorded already, and a first one to be recorded has
a node that takes it. -/
def TimerState.ThrottledOk (thrtlFact : Nat → Nat → UInt8) (context : DdnContext) (s : TimerState) :
    Prop :=
  ∀ factor, s.thrtlTimerByNodeip context.s11MmeGtpcIp = some factor →
    ∀ first rest, s.deferred context = first :: rest →
      (∀ seid ∈ rest, ∀ record, s.ddnBySeid seid = some record →
        (s.thrtleCount context.s11MmeGtpcIp).Recorded seid record) ∧
      let count := s.thrtleCount context.s11MmeGtpcIp
      (count.prevDdnEval ≠ 0 ∧ thrtlFact count.prevDdnDiscard count.prevDdnEval ≤ factor →
        ∀ record, s.ddnBySeid first = some record →
          ∃ info, findKey SessInfo.sessId first count.sessPtr = some info ∧ info.Takes record)

variable {context : DdnContext}

theorem mem_deferred :
    seid ∈ s.deferred context ↔ seid ∈ context.seids ∧ ∃ record, s.ddnBySeid seid = some record := by
  rw [TimerState.deferred, mem_filter, isSome_iff_exists]

variable {rest : List UInt64}

theorem forall_deferred {P : UInt64 → PdrIds → Prop} (list : s.deferred context = first :: rest) :
    (∀ seid ∈ context.seids, ∀ record, s.ddnBySeid seid = some record → P seid record) ↔
      (∀ record, s.ddnBySeid first = some record → P first record) ∧
        ∀ seid ∈ rest, ∀ record, s.ddnBySeid seid = some record → P seid record := by
  have listed : ∀ seid ∈ first :: rest, seid ∈ context.seids := fun seid mem =>
    (mem_deferred.mp (list ▸ mem)).1
  constructor
  · exact fun all => ⟨all first (listed first mem_cons_self),
      fun seid mem => all seid (listed seid (mem_cons_of_mem _ mem))⟩
  · rintro ⟨one, others⟩ seid mem record found
    have deferred : seid ∈ first :: rest := list ▸ mem_deferred.mpr ⟨mem, record, found⟩
    rcases mem_cons.mp deferred with rfl | later
    · exact one record found
    · exact others seid later record found

theorem ddnTimerCallback_eq (found : ueContextByFteid (ueSessId sessId).toUInt32 = some context) :
    ddnTimerCallback thrtlFact ueContextByFteid sessId s =
      (ddnTimerLoop thrtlFact context.s11MmeGtpcIp context.seids s).map fun (calls, s) =>
        (calls, { s with ddnBySeid := deleteRecords context s.ddnBySeid }) := by
  rw [ddnTimerCallback, found]

theorem ddnTimerReports_throttled (found : ueContextByFteid (ueSessId sessId).toUInt32 = some context)
    (running : s.thrtlTimerByNodeip context.s11MmeGtpcIp = some factor)
    (list : s.deferred context = first :: rest) (stored : s.ddnBySeid first = some record) :
    DdnTimerReports thrtlFact ueContextByFteid sessId context s ↔
      ∃ calls count, throttled thrtlFact factor (s.thrtleCount context.s11MmeGtpcIp) first record =
          some (calls, count) ∧
        Reported calls count first record ∧
        ∀ seid ∈ rest, ∀ record, s.ddnBySeid seid = some record → Reported calls count seid record := by
  have loop := (ddnTimerLoop_throttled thrtlFact running context.seids).2 first rest record
    list stored
  rw [DdnTimerReports, ddnTimerCallback_eq found, loop]
  have own : ∀ {P : PdrIds → Prop}, (∀ other, s.ddnBySeid first = some other → P other) ↔ P record := by
    intro P
    rw [stored]
    exact ⟨fun all => all record rfl, fun holds other same => some_inj.mp same ▸ holds⟩
  have after : ∀ count : ThrtleCount, TimerState.thrtleCount
      { s with
        thrtlDdnCount := s.thrtlDdnCount.add context.s11MmeGtpcIp count
        ddnBySeid := deleteRecords context s.ddnBySeid } context.s11MmeGtpcIp = count := by
    intro count
    unfold TimerState.thrtleCount
    dsimp only
    rw [Table.add_self]
    rfl
  constructor
  · rintro ⟨calls, s', done, reported⟩
    obtain ⟨⟨calls', s₁⟩, handled, same⟩ := map_eq_some_iff.mp done
    obtain ⟨⟨calls'', count⟩, done', same'⟩ := map_eq_some_iff.mp handled
    cases same'
    cases same
    rw [after, forall_deferred list, own] at reported
    exact ⟨calls, count, done', reported⟩
  · rintro ⟨calls, count, done, reported⟩
    refine ⟨calls, _, by rw [done]; rfl, ?_⟩
    rw [after, forall_deferred list, own]
    exact reported

variable {count : ThrtleCount}

theorem reported_nil : Reported [] count seid record ↔ count.Recorded seid record :=
  or_iff_right (by rw [filter_nil]; exact (cons_ne_nil _ _).symm)

theorem reported_other {stored : PdrIds} (ne : seid ≠ first) :
    Reported [deferredCall first stored] count seid record ↔ count.Recorded seid record := by
  refine or_iff_right ?_
  rw [filter_cons_of_neg (by simp [deferredCall, Ne.symm ne]), filter_nil]
  exact (cons_ne_nil _ _).symm

theorem throttledOk_iff (running : s.thrtlTimerByNodeip context.s11MmeGtpcIp = some factor)
    (list : s.deferred context = first :: rest) (stored : s.ddnBySeid first = some record)
    (counted : s.thrtleCount context.s11MmeGtpcIp = count) :
    s.ThrottledOk thrtlFact context ↔
      (∀ seid ∈ rest, ∀ record, s.ddnBySeid seid = some record → count.Recorded seid record) ∧
      (count.prevDdnEval ≠ 0 ∧ thrtlFact count.prevDdnDiscard count.prevDdnEval ≤ factor →
        ∃ info, findKey SessInfo.sessId first count.sessPtr = some info ∧ info.Takes record) := by
  simp [TimerState.ThrottledOk, running, list, stored, counted]

theorem ddnTimerReports_running_iff (found : ueContextByFteid (ueSessId sessId).toUInt32 = some context)
    (running : s.thrtlTimerByNodeip context.s11MmeGtpcIp = some factor)
    (list : s.deferred context = first :: rest) (stored : s.ddnBySeid first = some record)
    (wf : (s.thrtleCount context.s11MmeGtpcIp).WellFormed) (array : record.WellFormed)
    (nonzero : first ≠ 0) (apart : ∀ seid ∈ rest, seid ≠ first ∧ seid ≠ 0) :
    DdnTimerReports thrtlFact ueContextByFteid sessId context s ↔ s.ThrottledOk thrtlFact context := by
  rw [ddnTimerReports_throttled found running list stored, throttledOk_iff running list stored rfl]
  generalize s.thrtleCount context.s11MmeGtpcIp = count at wf ⊢
  by_cases discarded : count.prevDdnEval ≠ 0 ∧ thrtlFact count.prevDdnDiscard count.prevDdnEval ≤ factor
  · have counted : ThrtleCount.WellFormed
        { count with
          prevDdnEval := count.prevDdnEval + 1
          prevDdnDiscard := count.prevDdnDiscard + 1 } := ⟨wf.distinct, wf.nodes⟩
    have fills := recorded_fill_iff counted array nonzero
    rw [throttled, if_pos discarded]
    constructor
    · rintro ⟨calls, count', done, own, others⟩
      obtain ⟨count'', filled, same⟩ := map_eq_some_iff.mp done
      cases same
      refine ⟨fun seid later stored found => ?_, fun _ => fills.mp ⟨count', filled, reported_nil.mp own⟩⟩
      have recorded := reported_nil.mp (others seid later stored found)
      exact (recorded_fill_other counted filled (apart seid later).1 (apart seid later).2 stored).mp recorded
    · rintro ⟨others, own⟩
      obtain ⟨count', filled, recorded⟩ := fills.mpr (own discarded)
      refine ⟨[], count', by rw [filled, map_some], reported_nil.mpr recorded,
        fun seid later stored found => reported_nil.mpr ?_⟩
      exact (recorded_fill_other counted filled (apart seid later).1 (apart seid later).2 stored).mpr
        (others seid later stored found)
  · rw [throttled, if_neg discarded]
    constructor
    · rintro ⟨calls, count', done, -, others⟩
      cases done
      exact ⟨fun seid later stored found =>
        (reported_other (apart seid later).1).mp (others seid later stored found),
        fun discard => absurd discard discarded⟩
    · rintro ⟨others, -⟩
      refine ⟨_, _, rfl, .inl ?_, fun seid later stored found =>
        (reported_other (apart seid later).1).mpr (others seid later stored found)⟩
      exact filter_cons_of_pos (by simp)

theorem ddnTimerReports_iff (found : ueContextByFteid (ueSessId sessId).toUInt32 = some context)
    (nodup : context.seids.Nodup) (nonzero : 0 ∉ context.seids)
    (records : ∀ seid record, s.ddnBySeid seid = some record → record.WellFormed)
    (wf : (s.thrtleCount context.s11MmeGtpcIp).WellFormed) :
    DdnTimerReports thrtlFact ueContextByFteid sessId context s ↔ s.ThrottledOk thrtlFact context := by
  cases running : s.thrtlTimerByNodeip context.s11MmeGtpcIp with
  | none =>
    refine iff_of_true ?_ fun factor started => ?_
    · refine ⟨_, _, by rw [ddnTimerCallback_eq found, ddnTimerLoop_unthrottled thrtlFact running]; rfl, ?_⟩
      exact fun seid mem record stored => .inl (filter_deferredCalls nodup mem stored)
    · rw [running] at started
      cases started
  | some factor =>
    cases list : s.deferred context with
    | nil =>
      refine iff_of_true ?_ fun _ _ first rest deferred => ?_
      · have loop := (ddnTimerLoop_throttled thrtlFact running context.seids).1 list
        refine ⟨_, _, by rw [ddnTimerCallback_eq found, loop]; rfl, fun seid mem record stored => ?_⟩
        have deferred := mem_deferred.mpr ⟨mem, record, stored⟩
        rw [list] at deferred
        cases deferred
      · rw [list] at deferred
        cases deferred
    | cons first rest =>
      obtain ⟨mem, record, stored⟩ := mem_deferred.mp (list ▸ mem_cons_self (a := first))
      have sublist : (first :: rest).Sublist context.seids := list ▸ filter_sublist
      obtain ⟨firstOnly, -⟩ := nodup_cons.mp (sublist.nodup nodup)
      have apart : ∀ seid ∈ rest, seid ≠ first ∧ seid ≠ 0 := fun seid later =>
        ⟨fun same => firstOnly (same ▸ later),
          fun zero => nonzero (zero ▸ sublist.subset (mem_cons_of_mem _ later))⟩
      have firstNonzero : first ≠ 0 := fun zero => nonzero (zero ▸ mem)
      exact ddnTimerReports_running_iff found running list stored wf (records first record stored)
        firstNonzero apart

end

section

variable {ueContextByFteid : Table UInt32 DdnContext}

def SessInfo.copied (info : SessInfo) : PdrIds where
  pdrCount := info.pdrCount
  pdrId := (List.replicate maxListSize 0).set 0 (info.pdrId.getD 0 0)
  ddnBufferedCount := 0

def PdrIds.FirstOnly (record : PdrIds) : Prop :=
  ∃ id, record.pdrId = (List.replicate maxListSize 0).set 0 id

variable {info : SessInfo}

theorem thrtleCalls_absent {seids : List UInt64} (local' : PdrIds)
    (absent : info.sessId ∉ seids) : thrtleCalls info seids local' = ([], local') := by
  induction seids with
  | nil => rfl
  | cons seid rest ih =>
    rw [mem_cons, not_or] at absent
    rw [thrtleCalls, if_neg (Ne.symm absent.1), ih absent.2]

theorem thrtleCalls_live {seids : List UInt64} {local' : PdrIds}
    (firstOnly : local'.FirstOnly) (nodup : seids.Nodup) (mem : info.sessId ∈ seids) :
    thrtleCalls info seids local' = ([⟨info.sessId, info.copied⟩], info.copied) := by
  induction seids with
  | nil => cases mem
  | cons seid rest ih =>
    rw [nodup_cons] at nodup
    by_cases here : seid = info.sessId
    · obtain ⟨id, array⟩ := firstOnly
      have copy : ({ pdrCount := info.pdrCount
                     pdrId := local'.pdrId.set 0 (info.pdrId.getD 0 0)
                     ddnBufferedCount := 0 } : PdrIds) = info.copied := by
        rw [SessInfo.copied, array, set_set]
      rw [thrtleCalls, if_pos here, copy]
      dsimp only
      rw [thrtleCalls_absent _ (here ▸ nodup.1)]
    · rw [thrtleCalls, if_neg here]
      exact ih nodup.2 ((mem_cons.mp mem).resolve_left (Ne.symm here))

def SessInfo.Live (ueContextByFteid : Table UInt32 DdnContext) (info : SessInfo) : Prop :=
  ∃ context, ueContextByFteid (ueSessId info.sessId).toUInt32 = some context ∧
    context.seids.Nodup ∧ info.sessId ∈ context.seids

theorem thrtleLoop_live (infos : List SessInfo) (stale : Option DdnContext) (local' : PdrIds)
    (firstOnly : local'.FirstOnly) (live : ∀ info ∈ infos, info.Live ueContextByFteid) :
    thrtleLoop ueContextByFteid infos stale local' =
      some (infos.map fun info => ⟨info.sessId, info.copied⟩) := by
  induction infos generalizing stale local' with
  | nil => rfl
  | cons info rest ih =>
    rw [forall_mem_cons] at live
    obtain ⟨context, found, nodup, mem⟩ := live.1
    rw [thrtleLoop, found, some_or]
    dsimp only
    rw [thrtleCalls_live firstOnly nodup mem, ih (some context) _ ⟨_, rfl⟩ live.2]
    rfl

theorem SessInfo.WellFormed.ids_copied_iff (wf : info.WellFormed) :
    info.copied.ids = info.ids ↔ info.pdrCount ≤ 1 := by
  obtain ⟨first, second, rest, array⟩ : ∃ first second rest, info.pdrId = first :: second :: rest := by
    have length := wf.length
    match info.pdrId, length with
    | first :: second :: rest, _ => exact ⟨first, second, rest, rfl⟩
  have copy : info.copied.ids =
      (first :: List.replicate (maxListSize - 1) 0).take info.pdrCount.toNat := by
    rw [PdrIds.ids, SessInfo.copied, array]
    rfl
  have own : info.ids = (first :: second :: rest).take info.pdrCount.toNat := by
    rw [SessInfo.ids, array]
  rw [UInt8.le_iff_toNat_le, UInt8.toNat_one]
  constructor
  · intro same
    by_contra more
    -- the second rule id is 0 in the copy
    have zero : (info.copied.ids)[1]? = some 0 := by
      rw [copy, getElem?_take_of_lt (Nat.not_le.mp more)]
      rfl
    have kept : info.ids[1]? = some second := by
      rw [own, getElem?_take_of_lt (Nat.not_le.mp more)]
      rfl
    rw [same, kept, some_inj] at zero
    exact wf.nonzero second (mem_of_getElem? kept) zero
  · intro few
    rw [copy, own]
    obtain none | one : info.pdrCount.toNat = 0 ∨ info.pdrCount.toNat = 1 := by omega
    · rw [none]
      rfl
    · rw [one]
      rfl

/-- When an MME's timer expires, each session of the throttling record has one call with its rule
ids. -/
def ThrtleTimerReports (ueContextByFteid : Table UInt32 DdnContext) (nodeIp : NodeAddress)
    (s : TimerState) : Prop :=
  ∃ calls s', thrtleTimerCallback ueContextByFteid nodeIp s = some (calls, s') ∧
    ∀ info ∈ (s.thrtleCount nodeIp).sessPtr,
      (calls.filter (·.sessionId = info.sessId)).map (·.pdr.ids) = [info.ids]

theorem thrtleTimerReports_iff {nodeIp : NodeAddress} {s : TimerState}
    (wf : (s.thrtleCount nodeIp).WellFormed)
    (live : ∀ info ∈ (s.thrtleCount nodeIp).sessPtr, info.Live ueContextByFteid) :
    ThrtleTimerReports ueContextByFteid nodeIp s ↔
      ∀ info ∈ (s.thrtleCount nodeIp).sessPtr, info.pdrCount ≤ 1 := by
  have record : (s.thrtlDdnCount nodeIp).elim [] ThrtleCount.sessPtr = (s.thrtleCount nodeIp).sessPtr := by
    unfold TimerState.thrtleCount
    cases s.thrtlDdnCount nodeIp <;> rfl
  have loop := thrtleLoop_live (s.thrtleCount nodeIp).sessPtr none {} ⟨0, rfl⟩ live
  have called : ∀ info ∈ (s.thrtleCount nodeIp).sessPtr,
      (((s.thrtleCount nodeIp).sessPtr.map fun info => (⟨info.sessId, info.copied⟩ : DdnCall)).filter
        (·.sessionId = info.sessId)).map (·.pdr.ids) = [info.copied.ids] := by
    intro info mem
    have only := filter_key_eq_singleton wf.distinct mem
    rw [filter_map, map_map]
    have same : ((s.thrtleCount nodeIp).sessPtr.filter
        ((fun call : DdnCall => decide (call.sessionId = info.sessId)) ∘
          fun info => ⟨info.sessId, info.copied⟩)) = [info] := by
      rw [← only]
      refine filter_congr fun other _ => ?_
      rw [Function.comp_apply, Bool.eq_iff_iff, decide_eq_true_iff, beq_iff_eq, eq_comm]
    rw [same]
    rfl
  rw [ThrtleTimerReports, thrtleTimerCallback, record, loop]
  constructor
  · rintro ⟨calls, s', done, reported⟩ info mem
    cases done
    have ids := reported info mem
    rw [called info mem, singleton_inj] at ids
    exact (wf.nodes info mem).ids_copied_iff.mp ids
  · intro few
    refine ⟨_, _, rfl, fun info mem => ?_⟩
    rw [called info mem, (wf.nodes info mem).ids_copied_iff.mpr (few info mem)]

end

section

variable {ueContextByFteid : Table UInt32 DdnContext} {context : DdnContext} {s : TimerState}

/-- When a UE's buffering timer expires, a modification is sent for exactly the sessions with a
record. -/
def DlBufferTimerDrops (ueContextByFteid : Table UInt32 DdnContext) (sessId : UInt64)
    (context : DdnContext) (s : TimerState) : Prop :=
  (dlBufferTimerCallback ueContextByFteid sessId s).1.Perm
    (context.seids.filter fun seid => (s.pfcpRepBySeid seid).isSome)

theorem perm_filter_singleton_iff {α : Type} {l : List α} {p : α → Bool} {x last : α} (nodup : l.Nodup)
    (mem : x ∈ l) (passes : p x) : [last].Perm (l.filter p) ↔ ∀ y ∈ l, p y → last = y := by
  constructor
  · intro same y listed holds
    exact (mem_singleton.mp (same.mem_iff.mpr (mem_filter.mpr ⟨listed, holds⟩))).symm
  · intro onlyLast
    obtain rfl := onlyLast x mem passes
    refine (perm_ext_iff_of_nodup (nodup_singleton _) (nodup.filter p)).mpr fun y => ?_
    rw [mem_singleton, mem_filter]
    exact ⟨fun same => same ▸ ⟨mem, passes⟩, fun kept => (onlyLast y kept.1 kept.2).symm⟩

theorem dlBufferTimerDrops_iff {sessId : UInt64}
    (found : ueContextByFteid (ueSessId sessId).toUInt32 = some context)
    (distinct : context.seids.Nodup) :
    DlBufferTimerDrops ueContextByFteid sessId context s ↔
      ∀ seid ∈ context.seids, (s.pfcpRepBySeid seid).isSome → context.seids.getLast? = some seid := by
  rw [DlBufferTimerDrops, dlBufferTimerCallback, found]
  dsimp only
  cases any : context.seids.any fun seid => (s.pfcpRepBySeid seid).isSome with
  | false =>
    have none : ∀ seid ∈ context.seids, ¬(s.pfcpRepBySeid seid).isSome = true := by
      simpa only [any_eq_false] using any
    rw [filter_eq_nil_iff.mpr none]
    exact iff_of_true (List.Perm.refl _) fun seid mem has => absurd has (none seid mem)
  | true =>
    obtain ⟨seid, mem, has⟩ := any_eq_true.mp any
    rw [if_pos rfl, getLast?_eq_some_getLast (ne_nil_of_mem mem), toList_some,
      perm_filter_singleton_iff distinct mem has]
    simp

end

/-- When deferred reports are not lost: at the UE's timer, the MME's timer, and the buffering timer.
-/
theorem deferredReports_iff (thrtlFact : Nat → Nat → UInt8) (ueContextByFteid : Table UInt32 DdnContext)
    (sessId : UInt64) (context : DdnContext) (nodeIp : NodeAddress) (s : TimerState)
    (found : ueContextByFteid (ueSessId sessId).toUInt32 = some context)
    (distinct : context.seids.Nodup) (nonzero : 0 ∉ context.seids)
    (records : ∀ seid record, s.ddnBySeid seid = some record → record.WellFormed)
    (wellFormed : ∀ mme, (s.thrtleCount mme).WellFormed)
    (live : ∀ info ∈ (s.thrtleCount nodeIp).sessPtr, info.Live ueContextByFteid) :
    (DdnTimerReports thrtlFact ueContextByFteid sessId context s ↔ s.ThrottledOk thrtlFact context) ∧
    (ThrtleTimerReports ueContextByFteid nodeIp s ↔
      ∀ info ∈ (s.thrtleCount nodeIp).sessPtr, info.pdrCount ≤ 1) ∧
    (DlBufferTimerDrops ueContextByFteid sessId context s ↔
      ∀ seid ∈ context.seids, (s.pfcpRepBySeid seid).isSome → context.seids.getLast? = some seid) :=
  ⟨ddnTimerReports_iff found distinct nonzero records (wellFormed _),
    thrtleTimerReports_iff (wellFormed nodeIp) live, dlBufferTimerDrops_iff found distinct⟩

section

def recordOf (ids : List UInt16) : PdrIds where
  pdrCount := UInt8.ofNat ids.length
  pdrId := ids ++ List.replicate (maxListSize - ids.length) 0

def nodeOf (sessId : UInt64) (ids : List UInt16) : SessInfo where
  pdrCount := UInt8.ofNat ids.length
  pdrId := ids ++ List.replicate (maxListSize - ids.length) 0
  sessId

/-- Both sessions have a deferred report, the throttling record has a node for the first; `factor`
is that of a timer, `dropped` the session to drop. -/
def twoDeferred (factor : Option UInt8) (ids : List UInt16) (dropped : UInt64) : TimerState where
  ddnBySeid := fun seid =>
    if seid = sessId 1 1 5 then some (recordOf [7])
    else if seid = sessId 1 1 6 then some (recordOf [8]) else none
  pfcpRepBySeid := fun seid => if seid = dropped then some (recordOf [9]) else none
  thrtlTimerByNodeip := fun _ => factor
  thrtlDdnCount := fun mme =>
    if mme = .v4 1 then some { sessPtr := [nodeOf (sessId 1 1 5) ids] } else none

theorem seids_twoPdns : twoPdns.seids = [sessId 1 1 5, sessId 1 1 6] := by decide

theorem found_twoPdns : twoPdnsByTeid (ueSessId (sessId 1 1 5)).toUInt32 = some twoPdns := by
  rfl

section

variable (factor : Option UInt8) (ids : List UInt16) (dropped : UInt64)

theorem records_twoDeferred (seid : UInt64) (record : PdrIds)
    (found : (twoDeferred factor ids dropped).ddnBySeid seid = some record) : record.WellFormed := by
  rw [twoDeferred] at found
  dsimp only at found
  split at found
  · cases found
    exact ⟨rfl, by decide⟩
  · split at found
    · cases found
      exact ⟨rfl, by decide⟩
    · cases found

theorem thrtleCount_twoDeferred (mme : NodeAddress) :
    ((twoDeferred factor ids dropped).thrtleCount mme).sessPtr = [nodeOf (sessId 1 1 5) ids] ∨
      ((twoDeferred factor ids dropped).thrtleCount mme).sessPtr = [] := by
  unfold TimerState.thrtleCount twoDeferred
  dsimp only
  split
  · exact .inl rfl
  · exact .inr rfl

variable {ids}

theorem wellFormed_twoDeferred (node : (nodeOf (sessId 1 1 5) ids).WellFormed) (mme : NodeAddress) :
    ((twoDeferred factor ids dropped).thrtleCount mme).WellFormed := by
  rcases thrtleCount_twoDeferred factor ids dropped mme with one | none
  · refine ⟨by rw [one]; exact nodup_singleton _, fun info mem => ?_⟩
    rw [one, mem_singleton] at mem
    exact mem ▸ node
  · refine ⟨by rw [none]; exact nodup_nil, fun info mem => ?_⟩
    rw [none] at mem
    cases mem

theorem live_twoDeferred (mme : NodeAddress) :
    ∀ info ∈ ((twoDeferred factor ids dropped).thrtleCount mme).sessPtr, info.Live twoPdnsByTeid := by
  intro info mem
  rcases thrtleCount_twoDeferred factor ids dropped mme with one | none
  · rw [one, mem_singleton] at mem
    rw [mem]
    exact ⟨twoPdns, found_twoPdns, by decide, seids_twoPdns ▸ mem_cons_self⟩
  · rw [none] at mem
    cases mem

end

theorem wellFormed_nodeOf_one : (nodeOf (sessId 1 1 5) [7]).WellFormed := by
  refine ⟨rfl, by decide, ?_, ?_⟩
  · change ∀ id ∈ [(7 : UInt16)], id ≠ 0
    simp
  · change ∀ id ∈ List.replicate 15 (0 : UInt16), id = 0
    exact fun id mem => eq_of_mem_replicate mem

theorem wellFormed_nodeOf_two : (nodeOf (sessId 1 1 5) [7, 9]).WellFormed := by
  refine ⟨rfl, by decide, ?_, ?_⟩
  · change ∀ id ∈ [(7 : UInt16), 9], id ≠ 0
    simp
  · change ∀ id ∈ List.replicate 14 (0 : UInt16), id = 0
    exact fun id mem => eq_of_mem_replicate mem

/-- No timer of the MME, one rule id in its record, the last session to be dropped. -/
theorem deferredReports_twoDeferred :
    DdnTimerReports (fun _ _ => 0) twoPdnsByTeid (sessId 1 1 5) twoPdns
        (twoDeferred none [7] (sessId 1 1 6)) ∧
      ThrtleTimerReports twoPdnsByTeid (.v4 1) (twoDeferred none [7] (sessId 1 1 6)) ∧
      DlBufferTimerDrops twoPdnsByTeid (sessId 1 1 5) twoPdns (twoDeferred none [7] (sessId 1 1 6)) := by
  obtain ⟨ddn, thrtle, drop⟩ := deferredReports_iff (fun _ _ => 0) twoPdnsByTeid (sessId 1 1 5) twoPdns
    (.v4 1) (twoDeferred none [7] (sessId 1 1 6)) found_twoPdns (by decide) (by decide)
    (records_twoDeferred none [7] (sessId 1 1 6))
    (wellFormed_twoDeferred none (sessId 1 1 6) wellFormed_nodeOf_one)
    (live_twoDeferred none (sessId 1 1 6) (.v4 1))
  refine ⟨ddn.mpr fun factor none => ?_, thrtle.mpr (by decide), drop.mpr ?_⟩
  · cases none
  · rw [seids_twoPdns, forall_mem_cons, forall_mem_singleton]
    decide

/-- Under throttling the second report is lost, as is one of two rule ids; the drop for the first
session is sent for the last. -/
theorem twoDeferred_lost :
    ¬DdnTimerReports (fun _ _ => 0) twoPdnsByTeid (sessId 1 1 5) twoPdns
        (twoDeferred (some 50) [7, 9] (sessId 1 1 5)) ∧
      ¬ThrtleTimerReports twoPdnsByTeid (.v4 1) (twoDeferred (some 50) [7, 9] (sessId 1 1 5)) ∧
      ¬DlBufferTimerDrops twoPdnsByTeid (sessId 1 1 5) twoPdns
        (twoDeferred (some 50) [7, 9] (sessId 1 1 5)) := by
  have wellFormed := wellFormed_twoDeferred (some 50) (sessId 1 1 5) wellFormed_nodeOf_two
  refine ⟨?_, ?_, ?_⟩
  · rw [ddnTimerReports_iff found_twoPdns (by decide) (by decide)
      (records_twoDeferred (some 50) [7, 9] (sessId 1 1 5)) (wellFormed _)]
    intro ok
    have deferred : (twoDeferred (some 50) [7, 9] (sessId 1 1 5)).deferred twoPdns =
        [sessId 1 1 5, sessId 1 1 6] := by decide
    obtain ⟨node, member, named, -⟩ := (ok 50 rfl _ _ deferred).1 (sessId 1 1 6) (by decide) (recordOf [8])
      (by decide)
    have own : node = nodeOf (sessId 1 1 5) [7, 9] := mem_singleton.mp member
    rw [own] at named
    exact absurd named (by decide)
  · rw [thrtleTimerReports_iff (wellFormed _) (live_twoDeferred (some 50) (sessId 1 1 5) (.v4 1))]
    decide
  · rw [dlBufferTimerDrops_iff found_twoPdns (by decide), seids_twoPdns, forall_mem_cons]
    decide

end

end Epc.Cp

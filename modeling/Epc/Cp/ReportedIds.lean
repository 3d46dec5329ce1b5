import Epc.Cp.Proof.DdnTimer

/-! The rule ids that downlink reports leave in the record of a session and in a throttling record:
`fill_pdr_ids` and `fill_sess_info_id` (`pfcp_messages/pfcp_association.c`). -/

namespace Epc.Cp

open Epc.Lib List
open Option hiding map_id mem_map

/-- `fill_pdr_ids`: an empty record takes the ids through an array of octets from its first free
place on; another one is overwritten. -/
def fillPdrIds (record : PdrIds) (pdr : List UInt16) : Option PdrIds :=
  if maxListSize < pdr.length then none
  else if record.pdrCount = 0 then
    let new := pdr.map fun id => id.toUInt8.toUInt16
    let free := record.pdrId.findIdx (· = 0)
    if maxListSize < free + new.length then none
    else some { record with
      pdrCount := UInt8.ofNat new.length
      pdrId := record.pdrId.take free ++ new ++ record.pdrId.drop (free + new.length) }
  else some { record with
    pdrCount := UInt8.ofNat pdr.length
    pdrId := pdr ++ record.pdrId.drop pdr.length }

def fillReports (reports : List (List UInt16)) : Option PdrIds :=
  reports.foldlM fillPdrIds {}

def fillThrottled (reports : List (UInt64 × List UInt16)) : Option ThrtleCount :=
  reports.foldlM (fun count (sessId, ids) => fillSessInfoId count sessId (UInt8.ofNat ids.length) ids) {}

/-- The ids are those reported, each once, and `count` is their number. -/
structure Collects (count : UInt8) (ids reported : List UInt16) : Prop where
  number : count.toNat = ids.length
  distinct : ids.Nodup
  all : ∀ id, id ∈ ids ↔ id ∈ reported

def ReportsCollected (reports : List (List UInt16)) : Prop :=
  ∃ record, fillReports reports = some record ∧ Collects record.pdrCount record.ids reports.flatten

/-- One node for each session, with the ids reported for it. -/
def ThrottledCollected (reports : List (UInt64 × List UInt16)) : Prop :=
  ∃ count, fillThrottled reports = some count ∧ (count.sessPtr.map SessInfo.sessId).Nodup ∧
    (∀ sessId, sessId ∈ count.sessPtr.map SessInfo.sessId ↔ sessId ∈ reports.map Prod.fst) ∧
    ∀ info ∈ count.sessPtr, Collects info.pdrCount info.ids
      ((reports.filter (·.1 = info.sessId)).map Prod.snd).flatten

/-- A report without repeated ids that has every earlier id, and octets if it is the first. -/
structure Covers (before : List (List UInt16)) (report : List UInt16) : Prop where
  distinct : report.Nodup
  older : before.flatten ⊆ report
  first : before.flatten = [] → ∀ id ∈ report, id < 256

variable {record : PdrIds} {before reports : List (List UInt16)} {report : List UInt16}

def PdrIds.with (record : PdrIds) (new : List UInt16) : PdrIds :=
  { record with pdrCount := UInt8.ofNat new.length, pdrId := new ++ record.pdrId.drop new.length }

def octetIds (ids : List UInt16) : List UInt16 :=
  ids.map fun id => id.toUInt8.toUInt16

theorem fillPdrIds_empty (fits : report.length ≤ maxListSize) :
    fillPdrIds {} report = some (PdrIds.with {} (octetIds report)) := by
  have free : (PdrIds.pdrId {}).findIdx (· = 0) = 0 := by decide
  have octets : (octetIds report).length ≤ maxListSize := (length_map _).trans_le fits
  simp only [fillPdrIds, if_neg (Nat.not_lt.mpr fits), free, Nat.zero_add, take_zero, nil_append]
  exact if_neg (Nat.not_lt.mpr octets)

theorem fillPdrIds_overwrite (fits : report.length ≤ maxListSize) (count : record.pdrCount ≠ 0) :
    fillPdrIds record report = some (record.with report) := by
  rw [fillPdrIds, if_neg (Nat.not_lt.mpr fits), if_neg count]
  rfl

theorem PdrIds.count_with {new : List UInt16} (fits : new.length ≤ maxListSize) :
    (record.with new).pdrCount.toNat = new.length :=
  UInt8.toNat_ofNat_of_lt' (fits.trans_lt (by decide))

theorem collects_with {new reported : List UInt16} (fits : new.length ≤ maxListSize) :
    Collects (record.with new).pdrCount (record.with new).ids reported ↔
      new.Nodup ∧ ∀ id, id ∈ new ↔ id ∈ reported := by
  have count : (record.with new).pdrCount.toNat = new.length := PdrIds.count_with fits
  have ids : (record.with new).ids = new := by
    rw [PdrIds.ids, count]
    exact take_left
  rw [ids]
  exact ⟨fun h => ⟨h.distinct, h.all⟩, fun h => ⟨count, h.1, h.2⟩⟩

theorem octetIds_iff :
    ((octetIds report).Nodup ∧ ∀ id, id ∈ octetIds report ↔ id ∈ report) ↔
      report.Nodup ∧ ∀ id ∈ report, id < 256 := by
  have same (small : ∀ id ∈ report, id < 256) : octetIds report = report :=
    (map_congr_left fun id mem => toUInt8_toUInt16_of_lt (small id mem)).trans (map_id _)
  constructor
  · intro ⟨nodup, all⟩
    have small : ∀ id ∈ report, id < 256 := fun id mem => by
      obtain ⟨id', -, rfl⟩ := mem_map.mp ((all id).mpr mem)
      exact toUInt8_toUInt16_lt id'
    exact ⟨same small ▸ nodup, small⟩
  · intro ⟨nodup, small⟩
    rw [same small]
    exact ⟨nodup, fun _ => Iff.rfl⟩

theorem fillPdrIds_iff
    (follows : (before.flatten = [] ∧ record = {}) ∨ (before.flatten ≠ [] ∧ record.pdrCount ≠ 0))
    (few : report.Nodup → report.length ≤ maxListSize) :
    (∃ filled, fillPdrIds record report = some filled ∧
        Collects filled.pdrCount filled.ids (before ++ [report]).flatten) ↔ Covers before report := by
  rw [flatten_append, flatten_singleton]
  by_cases fits : report.length ≤ maxListSize
  · rcases follows with ⟨none, rfl⟩ | ⟨some, count⟩
    · simp only [fillPdrIds_empty fits, none, some_inj, exists_eq_left', nil_append]
      refine (collects_with (by simpa [octetIds] using fits)).trans (octetIds_iff.trans ?_)
      exact ⟨fun h => ⟨h.1, by simp [none], fun _ => h.2⟩, fun h => ⟨h.distinct, h.first none⟩⟩
    · simp only [fillPdrIds_overwrite fits count, some_inj, exists_eq_left']
      refine (collects_with fits).trans ?_
      simp only [mem_append, iff_or_self]
      exact ⟨fun h => ⟨h.1, h.2, fun none => absurd none some⟩, fun h => ⟨h.distinct, h.older⟩⟩
  · rw [fillPdrIds, if_pos (Nat.lt_of_not_le fits)]
    exact iff_of_false (by simp) fun covers => fits (few covers.distinct)

theorem fillReports_nothing (nothing : before.flatten = []) : fillReports before = some {} := by
  induction before with
  | nil => rfl
  | cons report reports ih =>
    obtain ⟨rfl, later⟩ := append_eq_nil_iff.mp nothing
    exact ih later

def AllCover (reports : List (List UInt16)) : Prop :=
  ∀ before report, before ++ [report] <+: reports → Covers before report

theorem reportsCollected_iff (few : reports.flatten.dedup.length ≤ maxListSize) :
    (∀ front, front <+: reports → ReportsCollected front) ↔ AllCover reports := by
  refine forall_prefix_iff ⟨{}, rfl, rfl, nodup_nil, fun _ => Iff.rfl⟩ fun before report isPrefix => ?_
  rintro ⟨record, done, collects⟩
  have next : fillReports (before ++ [report]) = fillPdrIds record report := by
    rw [fillReports, foldlM_append, ← fillReports, done]
    simp
  rw [ReportsCollected, next]
  refine fillPdrIds_iff ?_ fun nodup => ?_
  · by_cases nothing : before.flatten = []
    · exact .inl ⟨nothing, some.inj (done.symm.trans (fillReports_nothing nothing))⟩
    · refine .inr ⟨nothing, fun zero => nothing (eq_nil_iff_forall_not_mem.mpr fun id mem => ?_)⟩
      have number := collects.number
      rw [zero] at number
      have empty := length_eq_zero_iff.mp number.symm
      exact not_mem_nil (empty ▸ (collects.all id).mpr mem)
  · obtain ⟨rest, rfl⟩ := isPrefix
    refine (nodup.subperm fun id mem => mem_dedup.mpr ?_).length_le.trans few
    simp [mem]

theorem sessPtr_fillThrottled {count count' : ThrtleCount} (empty : count.sessPtr = [])
    (reports : List (UInt64 × List UInt16))
    (done : reports.foldlM (fun count (sessId, ids) =>
      fillSessInfoId count sessId (UInt8.ofNat ids.length) ids) count = some count') :
    count'.sessPtr = [] := by
  induction reports generalizing count with
  | nil =>
    cases done
    exact empty
  | cons report reports ih =>
    obtain ⟨filled, step, rest⟩ := bind_eq_some_iff.mp done
    refine ih ?_ rest
    simp only [fillSessInfoId, empty, findKey, find?_nil, map_eq_some_iff] at step
    obtain ⟨_, -, rfl⟩ := step
    exact empty

/-- The reported ids are collected in every state exactly if each report covers the earlier ones and
no session is throttled. -/
theorem reportedIds_collected_iff (reports : List (List UInt16)) (throttled : List (UInt64 × List UInt16))
    (few : reports.flatten.dedup.length ≤ maxListSize) :
    ((∀ front, front <+: reports → ReportsCollected front) ∧ ThrottledCollected throttled) ↔
      AllCover reports ∧ throttled = [] := by
  refine and_congr (reportsCollected_iff few) ⟨fun ⟨count, done, _, sessions, _⟩ => ?_, ?_⟩
  · have none := sessPtr_fillThrottled rfl throttled done
    rw [none] at sessions
    exact map_eq_nil_iff.mp (eq_nil_iff_forall_not_mem.mpr fun sessId member =>
      not_mem_nil ((sessions sessId).mpr member))
  · rintro rfl
    exact ⟨{}, rfl, nodup_nil, fun _ => Iff.rfl, forall_mem_nil _⟩

theorem reportedIds_collected_grown :
    (∀ front, front <+: [[1, 2], [2, 1, 300]] → ReportsCollected front) ∧ ThrottledCollected [] := by
  refine (reportedIds_collected_iff [[1, 2], [2, 1, 300]] [] (by decide)).mpr ⟨?_, rfl⟩
  rintro before report ⟨_, same⟩
  match before, same with
  | [], same | [_], same =>
    cases same
    exact ⟨by decide, by simp, by simp⟩
  | _ :: _ :: _, same => simp at same

/-- The second report replaces the first, 256 becomes 0, a throttled session has no node. -/
theorem reported_ids_lost :
    fillReports [[1], [2]] = some (PdrIds.with {} [2]) ∧ fillReports [[256]] = some (PdrIds.with {} [0]) ∧
      (fillThrottled [(1, [7])]).map ThrtleCount.sessPtr = some [] := by
  decide

end Epc.Cp

import Epc.Cp.LiConfig

/-! The two lawful-intercept tables describe the same set of configurations after every call. -/

namespace Epc.Cp

open Lib Lib.Run List
open Option hiding mem_toFinset

namespace ImsiIdHash

theorem length_list (e : ImsiIdHash) : e.list.length = e.cntr.toNat := by
  rw [list, length_take, Vector.length_toList, Nat.min_eq_left e.inside]

theorem list_initial : initial.list = [] := rfl

theorem append_list {e : ImsiIdHash} (uiId : UInt64) (room : e.list.length < maxLiEntriesPerUe) :
    ∃ e', e.append uiId = some e' ∧ e'.list = e.list ++ [uiId] := by
  rw [length_list] at room
  refine ⟨_, dif_pos room, ?_⟩
  have small : e.cntr.toNat + 1 < 2 ^ 8 := by rw [maxLiEntriesPerUe] at room; omega
  have next : (e.cntr + 1).toNat = e.cntr.toNat + 1 := by
    rw [UInt8.toNat_add, UInt8.toNat_one, Nat.mod_eq_of_lt small]
  have stored : (e.ids.toList.set e.cntr.toNat uiId)[e.cntr.toNat]? = some uiId :=
    getElem?_set_self (by rw [Vector.length_toList]; exact room)
  rw [list, list, next, Vector.toList_set, take_add_one, take_set_of_le le_rfl, stored]
  rfl

theorem compact_spec (uiId : UInt64) (ids : List UInt64) (n : Nat) (inside : n ≤ ids.length) :
    let s := (List.range n).foldl (compactStep uiId) (ids, 0)
    s.2 = ((ids.take n).filter (· ≠ uiId)).length ∧
      s.1.take s.2 = (ids.take n).filter (· ≠ uiId) ∧
      ∀ k, n ≤ k → s.1[k]? = ids[k]? := by
  induction n with
  | zero => simp
  | succ n ih =>
    obtain ⟨size, kept, rest⟩ := ih (by omega)
    have length := length_compact uiId ids 0 (List.range n)
    rw [range_succ, foldl_append, foldl_cons, foldl_nil]
    generalize (List.range n).foldl (compactStep uiId) (ids, 0) = s at size kept rest length ⊢
    obtain ⟨now, i⟩ := s
    dsimp only at size kept rest length ⊢
    have bound : i ≤ n := by
      rw [size]
      refine (length_filter_le _ _).trans ?_
      rw [length_take]
      exact Nat.min_le_left _ _
    have present : n < ids.length := inside
    have here : now.getD n 0 = ids.get ⟨n, present⟩ := by
      rw [getD_eq_getElem?_getD, rest n le_rfl, getElem?_eq_getElem present]
      rfl
    have taken : ids.take (n + 1) = ids.take n ++ [ids.get ⟨n, present⟩] := by
      rw [take_add_one, getElem?_eq_getElem present]
      rfl
    rw [compactStep, here, taken, filter_append]
    by_cases same : ids.get ⟨n, present⟩ = uiId
    · rw [if_pos same, same]
      simp only [filter_cons, ne_eq, not_true_eq_false, decide_false, filter_nil,
        Bool.false_eq_true, if_false, append_nil]
      exact ⟨size, kept, fun k later => rest k (by omega)⟩
    · have room : i < now.length := by omega
      have single : [ids.get ⟨n, present⟩].filter (· ≠ uiId) = [ids.get ⟨n, present⟩] := by
        rw [filter_singleton, decide_eq_true same, cond_true]
      rw [if_neg same, single]
      refine ⟨by rw [length_append, length_singleton, size], ?_, fun k later => ?_⟩
      · rw [take_add_one, take_set_of_le le_rfl, kept, getElem?_set_self room]
        rfl
      · rw [getElem?_set_ne (by omega)]
        exact rest k (by omega)

theorem compact_list {e : ImsiIdHash} {uiId : UInt64} (nodup : e.list.Nodup) (mem : uiId ∈ e.list) :
    (e.compact uiId).list = e.list.filter (· ≠ uiId) ∧
      ((e.compact uiId).cntr = 0 ↔ (e.compact uiId).list = []) := by
  have inside : e.cntr.toNat ≤ e.ids.toList.length := by
    rw [Vector.length_toList]
    exact e.inside
  have remaining : (e.list.filter (· ≠ uiId)).length = e.cntr.toNat - 1 := by
    have erased := nodup.erase_eq_filter uiId
    rw [← length_list, ← length_erase_of_mem mem, erased]
    exact congrArg List.length (filter_congr fun x _ => (decide_not).trans rfl)
  have pos : e.cntr.toNat ≠ 0 := by
    rw [← length_list]
    exact length_pos_iff.mpr (ne_nil_of_mem mem) |>.ne'
  have count : (e.compact uiId).cntr.toNat = e.cntr.toNat - 1 := by
    have some_id : e.cntr ≠ 0 := fun zero => pos (congrArg UInt8.toNat zero)
    have one_le : 1 ≤ e.cntr := UInt8.le_iff_toNat_le.mpr (Nat.one_le_iff_ne_zero.mpr pos)
    have less : (e.compact uiId).cntr = e.cntr - 1 := if_neg some_id
    rw [less, UInt8.toNat_sub_of_le _ _ one_le]
    rfl
  obtain ⟨size, kept, -⟩ := compact_spec uiId e.ids.toList e.cntr.toNat inside
  have closed : (e.compact uiId).list = e.list.filter (· ≠ uiId) := by
    rw [list, count, ← remaining]
    rw [size] at kept
    exact kept
  refine ⟨closed, ?_⟩
  rw [← length_eq_zero_iff, length_list]
  exact (UInt8.toNat_inj (b := 0)).symm

end ImsiIdHash

namespace LiState

variable {s s' : LiState} {byImsi : Table UInt64 ImsiIdHash} {entry : Option ImsiIdHash}

variable {data : LiDfConfig}

theorem mem_idsOf_add {uiId : UInt64} {imsi id : UInt64} :
    id ∈ idsOf ⟨s.liInfoByIdHash.add uiId data, byImsi⟩ imsi ↔
      if id = uiId then data.uiImsi = imsi else id ∈ s.idsOf imsi := by
  change (∃ config, s.liInfoByIdHash.add uiId data id = some config ∧ config.uiImsi = imsi) ↔ _
  by_cases same : id = uiId
  · rw [if_pos same, same, Table.add_self]
    constructor
    · rintro ⟨config, present, own⟩
      exact some_inj.mp present ▸ own
    · exact fun own => ⟨data, rfl, own⟩
  · rw [if_neg same, Table.add_of_ne same]
    exact Iff.rfl

theorem mem_idsOf_del {uiId : UInt64} {imsi id : UInt64} :
    id ∈ idsOf ⟨s.liInfoByIdHash.del uiId, byImsi⟩ imsi ↔ id ≠ uiId ∧ id ∈ s.idsOf imsi := by
  change (∃ config, s.liInfoByIdHash.del uiId id = some config ∧ config.uiImsi = imsi) ↔ _
  by_cases same : id = uiId
  · rw [same, Table.del_self]
    exact iff_of_false (by rintro ⟨config, ⟨⟩, -⟩) fun both => both.1 rfl
  · rw [Table.del_of_ne same]
    exact (and_iff_right same).symm

def Lists (entry : Option ImsiIdHash) (ids : Set UInt64) : Prop :=
  match entry with
  | none => ids = ∅
  | some e => e.list ≠ [] ∧ e.list.Nodup ∧ ∀ id, id ∈ e.list ↔ id ∈ ids

theorem Lists.list {ids : Set UInt64} (lists : Lists entry ids) :
    (entry.getD ImsiIdHash.initial).list.Nodup ∧
      ∀ id, id ∈ (entry.getD ImsiIdHash.initial).list ↔ id ∈ ids := by
  cases entry with
  | none =>
    have empty : ids = ∅ := lists
    rw [empty, getD_none, ImsiIdHash.list_initial]
    exact ⟨nodup_nil, by simp⟩
  | some e => exact lists.2

theorem Lists.length_eq_ncard {ids : Set UInt64} (lists : Lists entry ids) :
    (entry.getD ImsiIdHash.initial).list.length = ids.ncard := by
  obtain ⟨nodup, members⟩ := lists.list
  have same : ids = ((entry.getD ImsiIdHash.initial).list.toFinset : Set UInt64) := by
    ext id
    rw [Finset.mem_coe, mem_toFinset, members]
  rw [same, Set.ncard_coe_finset, toFinset_card_of_nodup nodup]

section

variable (consistent : s.Consistent)

include consistent

theorem Consistent.entryAdmitted
    (room : ((s.liIdByImsiHash data.uiImsi).getD ImsiIdHash.initial).list.length <
      maxLiEntriesPerUe) : s.EntryAdmitted data := by
  intro _
  rwa [Lists.length_eq_ncard (consistent data.uiImsi)] at room

theorem Consistent.fillupEntry (admitted : s.EntryAdmitted data) :
    ∃ s', s.fillupEntry data = some s' ∧ s'.Consistent := by
  rw [LiState.fillupEntry]
  cases known : s.liInfoByIdHash data.uiId with
  | none =>
    have lists := consistent data.uiImsi
    have absent : ∀ imsi, data.uiId ∉ s.idsOf imsi := by
      rintro imsi ⟨config, present, -⟩
      rw [known] at present
      cases present
    obtain ⟨nodup, members⟩ := Lists.list lists
    have room := admitted known
    rw [← Lists.length_eq_ncard lists] at room
    obtain ⟨e, appended, listed⟩ := ImsiIdHash.append_list data.uiId room
    refine ⟨_, by dsimp only; rw [addIdInImsiHash, appended]; rfl, fun imsi => ?_⟩
    by_cases own : imsi = data.uiImsi
    · -- the entry of the new id's IMSI
      rw [own]
      dsimp only
      rw [Table.add_self]
      refine ⟨by rw [listed]; simp, ?_, fun id => ?_⟩
      · rw [listed, nodup_append]
        refine ⟨nodup, nodup_singleton _, fun a aMember b bMember => ?_⟩
        rw [mem_singleton.mp bMember]
        rintro rfl
        exact absent _ ((members _).mp aMember)
      · rw [mem_idsOf_add, listed, mem_append, mem_singleton, members]
        by_cases new : id = data.uiId
        · simp [new]
        · simp [new]
    · have kept : idsOf ⟨s.liInfoByIdHash.add data.uiId data,
          s.liIdByImsiHash.add data.uiImsi e⟩ imsi = s.idsOf imsi := by
        ext id
        rw [mem_idsOf_add]
        by_cases new : id = data.uiId
        · rw [if_pos new, new]
          exact iff_of_false (Ne.symm own) (absent imsi)
        · rw [if_neg new]
      dsimp only
      rw [Table.add_of_ne own, kept]
      exact consistent imsi
  | some config =>
    refine ⟨_, rfl, fun imsi => ?_⟩
    have kept : idsOf ⟨s.liInfoByIdHash.add data.uiId (config.update data),
        s.liIdByImsiHash⟩ imsi = s.idsOf imsi := by
      ext id
      rw [mem_idsOf_add]
      by_cases same : id = data.uiId
      · rw [if_pos same, same]
        constructor
        · exact fun own => ⟨config, known, own⟩
        · rintro ⟨config', present, own⟩
          rw [known, some_inj] at present
          exact present ▸ own
      · rw [if_neg same]
    rw [kept]
    exact consistent imsi

theorem Consistent.fillupLiDfHash {data : List LiDfConfig} (admitted : s.FillupAdmitted data) :
    ∃ s', s.fillupLiDfHash data = some s' ∧ s'.Consistent := by
  induction data generalizing s with
  | nil => exact ⟨s, rfl, consistent⟩
  | cons entry rest ih =>
    obtain ⟨s₁, filled, consistent₁⟩ := consistent.fillupEntry admitted.1
    obtain ⟨s', done, consistent'⟩ := ih consistent₁ (admitted.2 s₁ filled)
    refine ⟨s', ?_, consistent'⟩
    rw [LiState.fillupLiDfHash, filled]
    exact done

theorem Consistent.delId (uiId : UInt64) : (s.delId uiId).1.Consistent ∧ (s.delId uiId).2 = true := by
  rw [LiState.delId]
  cases known : s.liInfoByIdHash uiId with
  | none => exact ⟨consistent, rfl⟩
  | some config =>
    have present : uiId ∈ s.idsOf config.uiImsi := ⟨config, known, rfl⟩
    have lists := consistent config.uiImsi
    -- the ids of the other IMSIs are as before
    have others : ∀ byImsi imsi, imsi ≠ config.uiImsi →
        idsOf ⟨s.liInfoByIdHash.del uiId, byImsi⟩ imsi = s.idsOf imsi := by
      intro byImsi imsi other
      ext id
      rw [mem_idsOf_del]
      refine and_iff_right_of_imp fun mem => ?_
      rintro rfl
      obtain ⟨config', present', own⟩ := mem
      rw [known, some_inj] at present'
      exact other (own.symm.trans (congrArg LiDfConfig.uiImsi present'.symm))
    dsimp only
    cases entry : s.liIdByImsiHash config.uiImsi with
    | none =>
      rw [entry] at lists
      have empty : s.idsOf config.uiImsi = ∅ := lists
      rw [empty] at present
      exact present.elim
    | some e =>
      rw [entry] at lists
      obtain ⟨-, nodup, members⟩ := lists
      have mem : uiId ∈ e.list := (members uiId).mpr present
      have pos : e.cntr > 0 := by
        have some_id := length_pos_iff.mpr (ne_nil_of_mem mem)
        rw [ImsiIdHash.length_list] at some_id
        exact UInt8.lt_iff_toNat_lt.mpr some_id
      obtain ⟨closed, last⟩ := ImsiIdHash.compact_list nodup mem
      have remaining : ∀ byImsi id, id ∈ (e.compact uiId).list ↔
          id ∈ idsOf ⟨s.liInfoByIdHash.del uiId, byImsi⟩ config.uiImsi := by
        intro byImsi id
        rw [closed, mem_idsOf_del, mem_filter, members]
        simp [and_comm]
      dsimp only
      rw [if_pos pos]
      by_cases none_left : (e.compact uiId).cntr = 0
      · rw [if_pos none_left]
        refine ⟨fun imsi => ?_, rfl⟩
        by_cases own : imsi = config.uiImsi
        · rw [own]
          dsimp only
          rw [Table.del_self]
          refine Set.eq_empty_iff_forall_notMem.mpr fun id idMember => ?_
          have listed := (remaining _ id).mpr idMember
          rw [last.mp none_left] at listed
          exact not_mem_nil listed
        · dsimp only
          rw [Table.del_of_ne own, others _ imsi own]
          exact consistent imsi
      · rw [if_neg none_left]
        refine ⟨fun imsi => ?_, rfl⟩
        by_cases own : imsi = config.uiImsi
        · rw [own]
          dsimp only
          rw [Table.add_self]
          exact ⟨fun empty => none_left (last.mpr empty), closed ▸ nodup.filter _,
            remaining _⟩
        · dsimp only
          rw [Table.add_of_ne own, others _ imsi own]
          exact consistent imsi

theorem Consistent.delLiEntry (ids : List UInt64) :
    (s.delLiEntry ids).1.Consistent ∧ (s.delLiEntry ids).2 = 0 := by
  induction ids generalizing s with
  | nil => exact ⟨consistent, rfl⟩
  | cons uiId rest ih =>
    obtain ⟨kept, goesOn⟩ := consistent.delId uiId
    rw [LiState.delLiEntry]
    generalize s.delId uiId = result at kept goesOn
    obtain ⟨s₁, flag⟩ := result
    dsimp only at kept goesOn
    rw [goesOn]
    exact ih kept

end

theorem empty_consistent : Consistent {} := by
  refine fun imsi => Set.eq_empty_iff_forall_notMem.mpr ?_
  rintro id ⟨config, present, -⟩
  cases present

theorem Consistent.exec (consistent : s.Consistent) {op : LiOp} (admitted : op.Admitted s) :
    ∃ s', op.exec s = some s' ∧ s'.Consistent := by
  cases op with
  | fillup data => exact consistent.fillupLiDfHash admitted
  | delete ids => exact ⟨_, rfl, (consistent.delLiEntry ids).1⟩

end LiState

/-- As long as no IMSI has too many ids, every call has a result and the two tables agree after it.
-/
theorem liRun_consistent (ops : List LiOp)
    (admitted : Guarded LiState.step (fun s op => op.Admitted s) {} ops) (before : List LiOp)
    (op : LiOp) (isPrefix : before ++ [op] <+: ops) :
    ∃ s', op.exec (run LiState.step {} before) = some s' ∧ s'.Consistent := by
  exact admitted.exec_at isPrefix LiOp.exec LiState.Consistent LiState.empty_consistent
    (fun _ _ => rfl) fun _ _ kept => kept.exec

def twoIds : List LiDfConfig :=
  [{ uiId := 1, uiImsi := 7 }, { uiId := 2, uiImsi := 7, uiS11 := 1 }]

theorem twoIds_admitted : LiState.FillupAdmitted {} twoIds := by
  have first : LiState.EntryAdmitted {} { uiId := 1, uiImsi := 7 } :=
    LiState.empty_consistent.entryAdmitted (by decide)
  refine ⟨first, fun s' filled => ⟨?_, fun _ _ => trivial⟩⟩
  obtain ⟨s₁, done, consistent⟩ := LiState.empty_consistent.fillupEntry first
  obtain rfl : s₁ = s' := some_inj.mp (done.symm.trans filled)
  refine consistent.entryAdmitted ?_
  obtain rfl := some_inj.mp filled
  decide

/-- Two ids of one IMSI, then one of them and an unknown one deleted. -/
theorem liRun_consistent_twoIds :
    ∃ s', (LiOp.delete [1, 9]).exec (run LiState.step {} [.fillup twoIds]) = some s' ∧
      s'.Consistent :=
  liRun_consistent [.fillup twoIds, .delete [1, 9]] ⟨twoIds_admitted, trivial, trivial⟩
    [.fillup twoIds] (.delete [1, 9]) prefix_rfl

/-- What a call is for, on the configurations alone. -/
def LiOp.apply (configs : Table UInt64 LiDfConfig) : LiOp → Table UInt64 LiDfConfig
  | .fillup data => data.foldl (fun configs new =>
      configs.add new.uiId ((configs new.uiId).elim new (·.update new))) configs
  | .delete ids => ids.foldl Table.del configs

theorem LiOp.exec_apply {s s' : LiState} {op : LiOp} (consistent : s.Consistent)
    (done : op.exec s = some s') : s'.liInfoByIdHash = op.apply s.liInfoByIdHash := by
  cases op with
  | fillup data =>
    rw [exec] at done
    clear consistent
    induction data generalizing s with
    | nil =>
      cases done
      rfl
    | cons new rest ih =>
      obtain ⟨s₁, entered, later⟩ := bind_eq_some_iff.mp done
      rw [ih later, apply, apply, foldl_cons]
      rw [LiState.fillupEntry] at entered
      cases known : s.liInfoByIdHash new.uiId <;> rw [known] at entered
      · obtain ⟨e, -, ⟨⟩⟩ := bind_eq_some_iff.mp entered
        rfl
      · cases entered
        rfl
  | delete ids =>
    cases done
    induction ids generalizing s with
    | nil => rfl
    | cons uiId rest ih =>
      obtain ⟨kept, goesOn⟩ := consistent.delId uiId
      have deleted : (s.delId uiId).1.liInfoByIdHash = s.liInfoByIdHash.del uiId := by
        rw [LiState.delId]
        cases known : s.liInfoByIdHash uiId with
        | none =>
          funext id
          by_cases same : id = uiId <;> simp [Table.del, same, known]
        | some config =>
          dsimp only
          split <;> simp only [apply_ite Prod.fst, apply_ite LiState.liInfoByIdHash, ite_self]
      have rest_of := ih kept
      rw [deleted] at rest_of
      rw [apply, foldl_cons, LiState.delLiEntry, ← Prod.mk.eta (p := s.delId uiId), goesOn]
      exact rest_of

/-- The tables stand for the configurations that the calls make of none, by id and by IMSI. -/
theorem liRun_refines (ops : List LiOp)
    (admitted : Guarded LiState.step (fun s op => op.Admitted s) {} ops) :
    (run LiState.step {} ops).liInfoByIdHash = ops.foldl LiOp.apply Table.empty ∧
      ∀ imsi id, id ∈ (((run LiState.step {} ops).liIdByImsiHash imsi).getD .initial).list ↔
        ∃ config, ops.foldl LiOp.apply Table.empty id = some config ∧ config.uiImsi = imsi := by
  have refined : ∀ s : LiState, s.Consistent → Guarded LiState.step (fun s op => op.Admitted s) s ops →
      (run LiState.step s ops).Consistent ∧
        (run LiState.step s ops).liInfoByIdHash = ops.foldl LiOp.apply s.liInfoByIdHash := by
    clear admitted
    induction ops with
    | nil => exact fun s consistent _ => ⟨consistent, rfl⟩
    | cons op rest ih =>
      rintro s consistent ⟨due, admitted⟩
      obtain ⟨s', done, kept⟩ := consistent.exec due
      have stepped : s.step op = s' := by rw [LiState.step, done, getD_some]
      rw [stepped] at admitted
      rw [run_cons, foldl_cons, stepped, ← LiOp.exec_apply consistent done]
      exact ih s' kept admitted
  obtain ⟨consistent, same⟩ := refined {} LiState.empty_consistent admitted
  refine ⟨same, fun imsi id => ?_⟩
  rw [(LiState.Lists.list (consistent imsi)).2, LiState.idsOf, same]
  exact Iff.rfl

theorem liRun_refines_twoIds :
    (run LiState.step {} [.fillup twoIds, .delete [1, 9]]).liInfoByIdHash =
      [.fillup twoIds, .delete [1, 9]].foldl LiOp.apply Table.empty :=
  (liRun_refines [.fillup twoIds, .delete [1, 9]] ⟨twoIds_admitted, trivial, trivial⟩).1

end Epc.Cp

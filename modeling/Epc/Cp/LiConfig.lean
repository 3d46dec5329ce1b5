import Epc.Lib.Run
import Epc.Lib.Table

/-! Lawful-intercept configurations of the control plane (`cp/li_config.c`): the configurations by
id in `li_info_by_id_hash`, and for each IMSI its ids in `li_id_by_imsi_hash`. -/

namespace Epc.Cp

open Lib

def maxLiEntriesPerUe : Nat := 16

structure LiDfConfig where
  uiId : UInt64
  uiImsi : UInt64
  uiS11 : UInt16 := 0
  uiSgwS5s8C : UInt16 := 0
  uiPgwS5s8C : UInt16 := 0
  uiSxa : UInt16 := 0
  uiSxb : UInt16 := 0
  uiSxaSxb : UInt16 := 0
  uiS1uContent : UInt16 := 0
  uiSgwS5s8UContent : UInt16 := 0
  uiPgwS5s8UContent : UInt16 := 0
  uiSgiContent : UInt16 := 0
  uiS1u : UInt16 := 0
  uiSgwS5s8U : UInt16 := 0
  uiPgwS5s8U : UInt16 := 0
  uiSgi : UInt16 := 0
  uiForward : UInt16 := 0
  deriving DecidableEq, Repr

/-- A field that an update sets only to something. -/
def overwrite (old new : UInt16) : UInt16 :=
  if new ≠ 0 then new else old

/-- The update branch of `fillup_li_df_hash`: Sx and data interfaces become zero too. -/
def LiDfConfig.update (old new : LiDfConfig) : LiDfConfig :=
  { old with
    uiS11 := overwrite old.uiS11 new.uiS11
    uiSgwS5s8C := overwrite old.uiSgwS5s8C new.uiSgwS5s8C
    uiPgwS5s8C := overwrite old.uiPgwS5s8C new.uiPgwS5s8C
    uiSxa := new.uiSxa
    uiSxb := new.uiSxb
    uiSxaSxb := new.uiSxaSxb
    uiS1uContent := overwrite old.uiS1uContent new.uiS1uContent
    uiSgwS5s8UContent := overwrite old.uiSgwS5s8UContent new.uiSgwS5s8UContent
    uiPgwS5s8UContent := overwrite old.uiPgwS5s8UContent new.uiPgwS5s8UContent
    uiSgiContent := overwrite old.uiSgiContent new.uiSgiContent
    uiS1u := new.uiS1u
    uiSgwS5s8U := new.uiSgwS5s8U
    uiPgwS5s8U := new.uiPgwS5s8U
    uiSgi := new.uiSgi
    uiForward := overwrite old.uiForward new.uiForward }

/-- `imsi_id_hash_t`; the counter never leaves the array. -/
structure ImsiIdHash where
  cntr : UInt8
  ids : Vector UInt64 maxLiEntriesPerUe
  inside : cntr.toNat ≤ maxLiEntriesPerUe

namespace ImsiIdHash

def list (e : ImsiIdHash) : List UInt64 :=
  e.ids.toList.take e.cntr.toNat

def initial : ImsiIdHash where
  cntr := 0
  ids := Vector.replicate maxLiEntriesPerUe 0
  inside := Nat.zero_le _

/-- `ids[cntr++] = uiId`, undefined on a full array. -/
def append (e : ImsiIdHash) (uiId : UInt64) : Option ImsiIdHash :=
  if room : e.cntr.toNat < maxLiEntriesPerUe then
    some
      { cntr := e.cntr + 1
        ids := e.ids.set e.cntr.toNat uiId room
        inside := by
          have small : e.cntr.toNat + 1 < 2 ^ 8 := by rw [maxLiEntriesPerUe] at room; omega
          rw [UInt8.toNat_add, UInt8.toNat_one, Nat.mod_eq_of_lt small]
          exact room }
  else none

/-- One round of the loop that closes the gap of a deleted id. -/
def compactStep (uiId : UInt64) (s : List UInt64 × Nat) (cnt : Nat) : List UInt64 × Nat :=
  let (ids, i) := s
  if ids.getD cnt 0 = uiId then (ids, i) else (ids.set i (ids.getD cnt 0), i + 1)

theorem length_compact (uiId : UInt64) (ids : List UInt64) (i : Nat) (rounds : List Nat) :
    (rounds.foldl (compactStep uiId) (ids, i)).1.length = ids.length := by
  induction rounds generalizing ids i with
  | nil => rfl
  | cons cnt rounds ih =>
    rw [List.foldl_cons, compactStep]
    split
    · exact ih ids i
    · rw [ih, List.length_set]

/-- The loop and `cntr--`. -/
def compact (e : ImsiIdHash) (uiId : UInt64) : ImsiIdHash where
  cntr := if e.cntr = 0 then 0 else e.cntr - 1
  ids := ⟨((List.range e.cntr.toNat).foldl (compactStep uiId) (e.ids.toList, 0)).1.toArray, by
    rw [List.size_toArray, length_compact, Vector.length_toList]⟩
  inside := by
    have inside := e.inside
    split
    · exact Nat.zero_le _
    · rename_i some_id
      have positive : 1 ≤ e.cntr := by
        rw [UInt8.le_iff_toNat_le]
        exact Nat.one_le_iff_ne_zero.mpr fun zero => some_id (UInt8.toNat_inj.mp zero)
      rw [UInt8.toNat_sub_of_le _ _ positive]
      omega

end ImsiIdHash

structure LiState where
  liInfoByIdHash : Table UInt64 LiDfConfig := Table.empty
  liIdByImsiHash : Table UInt64 ImsiIdHash := Table.empty

namespace LiState

def addIdInImsiHash (s : LiState) (uiId uiImsi : UInt64) : Option LiState := do
  let e ← ((s.liIdByImsiHash uiImsi).getD ImsiIdHash.initial).append uiId
  some { s with liIdByImsiHash := s.liIdByImsiHash.add uiImsi e }

def fillupEntry (s : LiState) (data : LiDfConfig) : Option LiState :=
  match s.liInfoByIdHash data.uiId with
  | none =>
    { s with liInfoByIdHash := s.liInfoByIdHash.add data.uiId data }.addIdInImsiHash
      data.uiId data.uiImsi
  | some config =>
    some { s with liInfoByIdHash := s.liInfoByIdHash.add data.uiId (config.update data) }

def fillupLiDfHash (s : LiState) : List LiDfConfig → Option LiState
  | [] => some s
  | data :: rest => do (← s.fillupEntry data).fillupLiDfHash rest

/-- One round of `del_li_entry`; `false` is a return with `-1`. -/
def delId (s : LiState) (uiId : UInt64) : LiState × Bool :=
  match s.liInfoByIdHash uiId with
  | none => (s, true)
  | some config =>
    let s := { s with liInfoByIdHash := s.liInfoByIdHash.del uiId }
    match s.liIdByImsiHash config.uiImsi with
    | none => (s, false)
    | some e =>
      let e := if e.cntr > 0 then e.compact uiId else e
      if e.cntr = 0 then
        ({ s with liIdByImsiHash := s.liIdByImsiHash.del config.uiImsi }, true)
      else ({ s with liIdByImsiHash := s.liIdByImsiHash.add config.uiImsi e }, true)

/-- `del_li_entry`, by the tables and the returned value; it returns -1 as a `uint8_t`. -/
def delLiEntry (s : LiState) : List UInt64 → LiState × UInt8
  | [] => (s, 0)
  | uiId :: rest =>
    match s.delId uiId with
    | (s, true) => s.delLiEntry rest
    | (s, false) => (s, 255)

end LiState

inductive LiOp where
  | fillup (data : List LiDfConfig)
  | delete (ids : List UInt64)

/-- A call; without a result it writes behind an array. -/
def LiOp.exec (s : LiState) : LiOp → Option LiState
  | .fillup data => s.fillupLiDfHash data
  | .delete ids => some (s.delLiEntry ids).1

def LiState.step (s : LiState) (op : LiOp) : LiState :=
  (op.exec s).getD s

namespace LiState

def idsOf (s : LiState) (imsi : UInt64) : Set UInt64 :=
  {id | ∃ config, s.liInfoByIdHash id = some config ∧ config.uiImsi = imsi}

/-- The entry of every IMSI lists the ids present with it, each once. -/
def Consistent (s : LiState) : Prop :=
  ∀ imsi,
    match s.liIdByImsiHash imsi with
    | none => s.idsOf imsi = ∅
    | some e => e.list ≠ [] ∧ e.list.Nodup ∧ ∀ id, id ∈ e.list ↔ id ∈ s.idsOf imsi

/-- A new id finds room among those of its IMSI. -/
def EntryAdmitted (s : LiState) (data : LiDfConfig) : Prop :=
  s.liInfoByIdHash data.uiId = none → (s.idsOf data.uiImsi).ncard < maxLiEntriesPerUe

def FillupAdmitted (s : LiState) : List LiDfConfig → Prop
  | [] => True
  | data :: rest =>
    s.EntryAdmitted data ∧ ∀ s', s.fillupEntry data = some s' → s'.FillupAdmitted rest

end LiState

/-- No IMSI gets more ids than there is room for. -/
def LiOp.Admitted (s : LiState) : LiOp → Prop
  | .fillup data => s.FillupAdmitted data
  | .delete _ => True

end Epc.Cp

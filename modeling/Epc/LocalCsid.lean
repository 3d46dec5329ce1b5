import Epc.Lib.Bytes
import Epc.Lib.Run
import Epc.Lib.Table

/-! The local CSID of a set of peer nodes (`pfcp_messages/csid_init.c`): `get_csid_entry`,
`del_csid_entry` and `update_csid_entry`. The CSID is taken from a counter of 16 bits and returned as a
signed value; `update_csid_entry` reads the entry through a pointer to a number. -/

namespace Epc.LocalCsid

open Epc.Lib Epc.Lib.Run Epc.Lib.Bytes Option Table

/-- `csid_info`, with the elements of `local_csid` that are set. -/
structure CsidInfo where
  numCsid : UInt8
  localCsid : List UInt16
  deriving DecidableEq, Repr

/-- The first octets of the structure in memory. -/
def CsidInfo.memory (info : CsidInfo) : List UInt8 :=
  info.numCsid :: info.localCsid.flatMap store16

/-- `*csid` through a pointer to `uint16_t`. -/
def CsidInfo.asUint16 (info : CsidInfo) : UInt16 :=
  load16 (info.memory.take 2)

def CsidInfo.last (info : CsidInfo) : UInt16 :=
  info.localCsid.getD (info.numCsid.toNat - 1) 0

/-- A value of `uint16_t` returned as `int16_t`. -/
def toInt16 (x : UInt16) : Int :=
  if x.toNat < 2 ^ 15 then x.toNat else x.toNat - 2 ^ 16

variable {Key : Type} [DecidableEq Key]

/-- `csid_by_peer_node_hash` and the counter `local_csid`. -/
structure CsidState (Key : Type) where
  hash : Table Key CsidInfo
  localCsid : UInt16

def CsidState.init : CsidState Key where
  hash := Table.empty
  localCsid := 0

/-- `get_csid_entry`, with the value returned. -/
def getCsidEntry (key : Key) (s : CsidState Key) : Int × CsidState Key :=
  match s.hash key with
  | some info => (toInt16 info.last, s)
  | none =>
    let info : CsidInfo := { numCsid := 1, localCsid := [s.localCsid + 1] }
    (toInt16 info.last, { hash := s.hash.add key info, localCsid := s.localCsid + 1 })

def delCsidEntry (key : Key) (s : CsidState Key) : Int × CsidState Key :=
  match s.hash key with
  | none => (-1, s)
  | some _ => (0, { s with hash := s.hash.del key })

def updateCsidEntry (oldKey newKey : Key) (s : CsidState Key) : Int × CsidState Key :=
  match s.hash oldKey with
  | none => (-1, s)
  | some info => (toInt16 info.asUint16, { s with hash := (s.hash.del oldKey).add newKey info })

inductive CsidOp (Key : Type) where
  | get (key : Key)
  | del (key : Key)
  | update (oldKey newKey : Key)
  deriving DecidableEq, Repr

def CsidOp.exec (s : CsidState Key) : CsidOp Key → Int × CsidState Key
  | get key => getCsidEntry key s
  | del key => delCsidEntry key s
  | update oldKey newKey => updateCsidEntry oldKey newKey s

def CsidOp.step (s : CsidState Key) (op : CsidOp Key) : CsidState Key :=
  (op.exec s).2

def CsidState.csid (s : CsidState Key) (key : Key) : Option UInt16 :=
  (s.hash key).map CsidInfo.last

/-- A CSID can always be got; the other calls need the key. -/
def CsidOp.succeeds (s : CsidState Key) : CsidOp Key → Prop
  | get _ => True
  | del key => (s.csid key).isSome = true
  | update oldKey _ => (s.csid oldKey).isSome = true

/-- What a call is to do in a state. -/
structure Right (s : CsidState Key) (op : CsidOp Key) : Prop where
  distinct : ∀ k₁ k₂ c, (op.step s).csid k₁ = some c → (op.step s).csid k₂ = some c → k₁ = k₂
  got : ∀ key c, op = .get key → s.csid key = some c →
    (op.exec s).1 = c.toNat ∧ (op.step s).csid key = some c
  moved : ∀ oldKey newKey c, op = .update oldKey newKey → s.csid oldKey = some c →
    s.csid newKey = none →
      (op.exec s).1 = c.toNat ∧ (op.step s).csid newKey = some c ∧ (op.step s).csid oldKey = none
  nonnegative : op.succeeds s → 0 ≤ (op.exec s).1

/-- A new CSID fits a signed value, and an updated key has the one CSID that its entry's first two
octets show. -/
def Fitting (s : CsidState Key) : CsidOp Key → Prop
  | .get key => s.csid key = none → s.localCsid.toNat + 1 < 2 ^ 15
  | .del _ => True
  | .update oldKey _ => ∀ c, s.csid oldKey = some c → c = 257

/-- The entries have one CSID each, from one up to the counter, no two the same. -/
structure Numbered (s : CsidState Key) : Prop where
  single : ∀ key info, s.hash key = some info → ∃ c, info = ⟨1, [c]⟩
  bound : ∀ key c, s.csid key = some c → c.toNat ≤ s.localCsid.toNat
  small : s.localCsid.toNat < 2 ^ 15
  distinct : ∀ k₁ k₂ c, s.csid k₁ = some c → s.csid k₂ = some c → k₁ = k₂

open CsidState

theorem toInt16_of_lt {x : UInt16} (small : x.toNat < 2 ^ 15) : toInt16 x = x.toNat := if_pos small

omit [DecidableEq Key] in
theorem Numbered.init : Numbered (CsidState.init : CsidState Key) :=
  ⟨nofun, nofun, (by decide : (0 : UInt16).toNat < 2 ^ 15), nofun⟩

variable {s : CsidState Key} {key : Key}

omit [DecidableEq Key] in
theorem csid_eq_some {c : UInt16} (has : s.csid key = some c) (numbered : Numbered s) :
    s.hash key = some ⟨1, [c]⟩ := by
  obtain ⟨info, here, last⟩ := map_eq_some_iff.mp has
  obtain ⟨d, rfl⟩ := numbered.single key info here
  cases last
  exact here

omit [DecidableEq Key] in
theorem Numbered.of_subset (numbered : Numbered s) {hash : Table Key CsidInfo}
    (subset : ∀ key info, hash key = some info → s.hash key = some info) :
    Numbered { s with hash } := by
  have csid : ∀ key c, CsidState.csid { s with hash } key = some c → s.csid key = some c := by
    intro key c has
    obtain ⟨info, here, last⟩ := map_eq_some_iff.mp has
    exact map_eq_some_iff.mpr ⟨info, subset key info here, last⟩
  exact ⟨fun key info here => numbered.single key info (subset key info here),
    fun key c has => numbered.bound key c (csid key c has), numbered.small,
    fun k₁ k₂ c h₁ h₂ => numbered.distinct k₁ k₂ c (csid k₁ c h₁) (csid k₂ c h₂)⟩

theorem Numbered.add (numbered : Numbered s) {c counter : UInt16}
    (grows : s.localCsid.toNat ≤ counter.toNat) (bound : c.toNat ≤ counter.toNat)
    (small : counter.toNat < 2 ^ 15) (free : ∀ k, s.csid k = some c → k = key) :
    Numbered { hash := s.hash.add key ⟨1, [c]⟩, localCsid := counter } := by
  have own : csid { hash := s.hash.add key ⟨1, [c]⟩, localCsid := counter } key = some c := by
    simp only [csid, add_self]
    rfl
  have other : ∀ k, k ≠ key →
      csid { hash := s.hash.add key ⟨1, [c]⟩, localCsid := counter } k = s.csid k := by
    intro k ne
    simp only [csid, add_of_ne ne]
  refine ⟨fun k info here => ?_, fun k d has => ?_, small, fun k₁ k₂ d h₁ h₂ => ?_⟩
  · change s.hash.add key ⟨1, [c]⟩ k = some info at here
    rcases add_eq_some here with ⟨-, rfl⟩ | ⟨-, old⟩
    · exact ⟨c, rfl⟩
    · exact numbered.single k info old
  · by_cases same : k = key
    · rw [same, own] at has
      cases has
      exact bound
    · rw [other k same] at has
      exact Nat.le_trans (numbered.bound k d has) grows
  · by_cases same₁ : k₁ = key <;> by_cases same₂ : k₂ = key
    · rw [same₁, same₂]
    · rw [same₁, own] at h₁
      cases h₁
      rw [other k₂ same₂] at h₂
      exact absurd (free k₂ h₂) same₂
    · rw [same₂, own] at h₂
      cases h₂
      rw [other k₁ same₁] at h₁
      exact absurd (free k₁ h₁) same₁
    · rw [other k₁ same₁] at h₁
      rw [other k₂ same₂] at h₂
      exact numbered.distinct k₁ k₂ d h₁ h₂

theorem getCsidEntry_present {c : UInt16} (numbered : Numbered s)
    (has : s.csid key = some c) : getCsidEntry key s = ((c.toNat : Int), s) := by
  have small : c.toNat < 2 ^ 15 := Nat.lt_of_le_of_lt (numbered.bound key c has) numbered.small
  rw [getCsidEntry.eq_def, csid_eq_some has numbered]
  exact congrArg (·, s) (toInt16_of_lt small)

theorem getCsidEntry_absent (absent : s.csid key = none) (room : s.localCsid.toNat + 1 < 2 ^ 15) :
    getCsidEntry key s = ((s.localCsid.toNat + 1 : Int),
      { hash := s.hash.add key ⟨1, [s.localCsid + 1]⟩, localCsid := s.localCsid + 1 }) ∧
      (s.localCsid + 1).toNat = s.localCsid.toNat + 1 := by
  have next : (s.localCsid + 1).toNat = s.localCsid.toNat + 1 := by
    change (s.localCsid.toNat + 1) % 65536 = _
    omega
  have none : s.hash key = none := map_eq_none_iff.mp absent
  refine ⟨?_, next⟩
  rw [getCsidEntry.eq_def, none]
  have returned : toInt16 (CsidInfo.last ⟨1, [s.localCsid + 1]⟩) = s.localCsid.toNat + 1 := by
    change toInt16 (s.localCsid + 1) = _
    rw [toInt16_of_lt (by omega), next]
    rfl
  simp only [returned]

theorem updateCsidEntry_present {oldKey newKey : Key} (numbered : Numbered s)
    (has : s.csid oldKey = some 257) :
    updateCsidEntry oldKey newKey s = (257,
      { s with hash := (s.hash.del oldKey).add newKey ⟨1, [257]⟩ }) := by
  rw [updateCsidEntry, csid_eq_some has numbered]
  rfl

theorem Numbered.step (numbered : Numbered s) {op : CsidOp Key} (fitting : Fitting s op) :
    Numbered (op.step s) := by
  cases op with
  | get key =>
    cases has : s.csid key with
    | some c =>
      change Numbered (getCsidEntry key s).2
      rw [getCsidEntry_present numbered has]
      exact numbered
    | none =>
      obtain ⟨eq, next⟩ := getCsidEntry_absent has (fitting has)
      have room : s.localCsid.toNat + 1 < 2 ^ 15 := fitting has
      change Numbered (getCsidEntry key s).2
      rw [eq]
      refine numbered.add (by omega) (Nat.le_refl _) (by omega) fun k taken => ?_
      have bound := numbered.bound k _ taken
      omega
  | del key =>
    change Numbered (delCsidEntry key s).2
    rw [delCsidEntry]
    split
    · exact numbered
    · refine numbered.of_subset fun k info here => ?_
      by_cases same : k = key
      · rw [same, del_self] at here
        cases here
      · rwa [del_of_ne same] at here
  | update oldKey newKey =>
    change Numbered (updateCsidEntry oldKey newKey s).2
    cases has : s.csid oldKey with
    | none =>
      have none : s.hash oldKey = none := map_eq_none_iff.mp has
      rw [updateCsidEntry, none]
      exact numbered
    | some c =>
      obtain rfl := fitting c has
      rw [updateCsidEntry_present numbered has]
      have left : Numbered { s with hash := s.hash.del oldKey } := by
        refine numbered.of_subset fun k info here => ?_
        by_cases same : k = oldKey
        · rw [same, del_self] at here
          cases here
        · rwa [del_of_ne same] at here
      refine left.add (Nat.le_refl _) (numbered.bound oldKey 257 has) numbered.small
        fun k taken => ?_
      by_cases same : k = oldKey
      · simp only [same, csid, del_self, map_none] at taken
        cases taken
      · simp only [csid, del_of_ne same] at taken
        exact absurd (numbered.distinct k oldKey 257 taken has) same

theorem Numbered.right (numbered : Numbered s) {op : CsidOp Key} (fitting : Fitting s op) :
    Right s op := by
  refine ⟨(numbered.step fitting).distinct, ?_, ?_, ?_⟩
  · rintro key c rfl has
    have eq := getCsidEntry_present numbered has
    simp only [CsidOp.step, CsidOp.exec, eq]
    exact ⟨trivial, has⟩
  · rintro oldKey newKey c rfl has absent
    obtain rfl := fitting c has
    have eq := @updateCsidEntry_present _ _ s oldKey newKey numbered has
    have ne : oldKey ≠ newKey := by
      rintro rfl
      rw [has] at absent
      cases absent
    simp only [CsidOp.step, CsidOp.exec, eq, csid, add_self, add_of_ne ne, del_self]
    exact ⟨rfl, rfl, rfl⟩
  · intro succeeds
    cases op with
    | get key =>
      change 0 ≤ (getCsidEntry key s).1
      cases has : s.csid key with
      | some c =>
        rw [getCsidEntry_present numbered has]
        exact Int.natCast_nonneg _
      | none =>
        rw [(getCsidEntry_absent has (fitting has)).1]
        exact Int.natCast_nonneg _
    | del key =>
      change 0 ≤ (delCsidEntry key s).1
      obtain ⟨c, has⟩ := isSome_iff_exists.mp succeeds
      rw [delCsidEntry, csid_eq_some has numbered]
    | update oldKey newKey =>
      change 0 ≤ (updateCsidEntry oldKey newKey s).1
      obtain ⟨c, has⟩ := isSome_iff_exists.mp succeeds
      obtain rfl := fitting c has
      rw [updateCsidEntry_present numbered has]
      exact (by decide : (0 : Int) ≤ 257)

/-- In a run whose calls all fit, every call does what it is to do. -/
theorem csidRun_right (ops : List (CsidOp Key))
    (guarded : Guarded CsidOp.step Fitting CsidState.init ops) (before : List (CsidOp Key))
    (op : CsidOp Key) (isPrefix : before ++ [op] <+: ops) :
    Right (run CsidOp.step CsidState.init before) op := by
  obtain ⟨numbered, fitting⟩ := guarded.inv_at isPrefix Numbered Numbered.init
    fun _ _ numbered fitting => numbered.step fitting
  exact numbered.right fitting

def keyCalls : List (CsidOp Bool) := [.get false, .get true, .del false, .get false]

theorem csidRun_right_keyCalls :
    Right (run CsidOp.step CsidState.init (keyCalls.take 3)) (.get false : CsidOp Bool) := by
  refine csidRun_right keyCalls ⟨?_, ?_, ?_, ?_, trivial⟩ (keyCalls.take 3) _ (List.prefix_refl _)
  · exact fun _ => by decide
  · exact fun _ => by decide
  · trivial
  · exact fun _ => by decide

/-- The first key has the CSID 1; moving it returns 257. -/
theorem updated_key_misread :
    ¬ Right (run CsidOp.step CsidState.init [.get false]) (.update false true : CsidOp Bool) := by
  intro right
  exact absurd (right.moved false true 1 rfl (by decide) (by decide)).1 (by decide)

end Epc.LocalCsid

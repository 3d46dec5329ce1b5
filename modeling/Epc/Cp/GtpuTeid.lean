import Epc.Lib.Lists
import Epc.Lib.Run
import Epc.Cp.GtpcTeid
import Epc.Node

/-! GTP-U TEIDs that the control plane assigns per user plane (`cp_dp_api/teid.c`). When those handed out
between two associations are in range, non-zero and without repetition. -/

namespace Epc.Cp

open Epc.Lib

structure TeidInfo where
  dpIp : NodeAddress
  teidRange : UInt8
  upGtpuBaseTeid : UInt32
  upGtpuTeidOffset : UInt32
  upGtpuTeid : UInt32
  upGtpuMaxTeidOffset : UInt32
  deriving DecidableEq, Repr

/-- The static `CLEAR_BYTE` and the list the callers pass. -/
structure GtpuState where
  clearByte : UInt32 := 0xffffffff
  infos : List TeidInfo := []
  deriving DecidableEq, Repr

/-- The test of `get_teid_info`: only the type of the address sought is looked at. -/
def TeidInfo.serves (upfIp : NodeAddress) (info : TeidInfo) : Bool :=
  (upfIp.ipType == pdnTypeIpv4 && info.dpIp.ipv4Addr == upfIp.ipv4Addr) ||
    (upfIp.ipType == pdnTypeIpv6 && info.dpIp.ipv6Addr == upfIp.ipv6Addr)

def getTeidInfo (infos : List TeidInfo) (upfIp : NodeAddress) : Option TeidInfo :=
  infos.find? (TeidInfo.serves upfIp)

/-- The address a new entry keeps; the type of any other is not read. -/
def storedAddress (upfIp : NodeAddress) : NodeAddress :=
  if upfIp.ipType = pdnTypeIpv4 then NodeAddress.v4 upfIp.ipv4Addr
  else if upfIp.ipType = pdnTypeIpv6 then NodeAddress.v6 upfIp.ipv6Addr
  else NodeAddress.zero

def initTeidInfo (upfIp : NodeAddress) : TeidInfo where
  dpIp := storedAddress upfIp
  teidRange := 0
  upGtpuBaseTeid := 1
  upGtpuTeidOffset := 0
  upGtpuTeid := 1
  upGtpuMaxTeidOffset := 0xFFFFFFFF

/-- The stores of `set_base_teid` into the entry; `clearByte` is already shifted. -/
def TeidInfo.setRange (riVal val : UInt8) (clearByte : UInt32) (info : TeidInfo) : TeidInfo :=
  if riVal = 0 then info
  else
    let teidRange := val <<< (8 - riVal)
    { info with
      teidRange
      upGtpuMaxTeidOffset := clearByte
      upGtpuBaseTeid :=
        if teidRange = 0 then (teidRange.toUInt32 <<< 24) + 1 else teidRange.toUInt32 <<< 24 }

/-- `set_base_teid`; a shift of `CLEAR_BYTE` by a zero indicator changes nothing. -/
def setBaseTeid (s : GtpuState) (riVal val : UInt8) (upfIp : NodeAddress) : GtpuState :=
  let clearByte := s.clearByte >>> riVal.toUInt32
  match getTeidInfo s.infos upfIp with
  | some _ =>
    { clearByte
      infos := updateFirst (TeidInfo.serves upfIp) (TeidInfo.setRange riVal val clearByte)
        s.infos }
  | none =>
    { clearByte
      infos := s.infos ++ [(initTeidInfo upfIp).setRange riVal val clearByte] }

/-- The step of the offset, back to 0 from the largest one. -/
def TeidInfo.advance (info : TeidInfo) : TeidInfo :=
  { info with
    upGtpuTeid := info.upGtpuBaseTeid + info.upGtpuTeidOffset
    upGtpuTeidOffset :=
      if info.upGtpuTeidOffset ≥ info.upGtpuMaxTeidOffset then 0 else info.upGtpuTeidOffset + 1 }

/-- The common body of the three request functions. -/
def getGtpuTeid (advances : Bool) (s : GtpuState) (upfIp : NodeAddress) : UInt32 × GtpuState :=
  match getTeidInfo s.infos upfIp with
  | none => (0, s)
  | some info =>
    let store := fun info : TeidInfo => if advances then info.advance else info
    (((store info).upGtpuTeid &&& s.clearByte) ||| ((store info).teidRange.toUInt32 <<< 24),
      { s with infos := updateFirst (TeidInfo.serves upfIp) store s.infos })

def getS1uSgwGtpuTeid (s : GtpuState) (upfIp : NodeAddress) (cpType : CpType) :
    UInt32 × GtpuState :=
  getGtpuTeid (cpType == .sgwc || cpType == .saegwc) s upfIp

def getS5s8SgwGtpuTeid (s : GtpuState) (upfIp : NodeAddress) (cpType : CpType) :
    UInt32 × GtpuState :=
  getGtpuTeid (cpType == .sgwc || cpType == .saegwc) s upfIp

def getS5s8PgwGtpuTeid (s : GtpuState) (upfIp : NodeAddress) (cpType : CpType) :
    UInt32 × GtpuState :=
  getGtpuTeid (cpType == .pgwc) s upfIp

/-- A range assignment as a user plane sends it. -/
structure RangeOffer where
  riVal : UInt8
  val : UInt8
  ri_le : riVal ≤ 8
  val_lt : val.toNat < 2 ^ riVal.toNat
  deriving DecidableEq

/-- A request function with a gateway type for which it moves the offset. -/
inductive TeidRequest where
  | s1uSgw (cpType : CpType) (advances : cpType = .sgwc ∨ cpType = .saegwc)
  | s5s8Sgw (cpType : CpType) (advances : cpType = .sgwc ∨ cpType = .saegwc)
  | s5s8Pgw (cpType : CpType) (advances : cpType = .pgwc)
  deriving DecidableEq

def TeidRequest.apply (s : GtpuState) (upfIp : NodeAddress) : TeidRequest → UInt32 × GtpuState
  | .s1uSgw cpType _ => getS1uSgwGtpuTeid s upfIp cpType
  | .s5s8Sgw cpType _ => getS5s8SgwGtpuTeid s upfIp cpType
  | .s5s8Pgw cpType _ => getS5s8PgwGtpuTeid s upfIp cpType

theorem TeidRequest.apply_eq (s : GtpuState) (upfIp : NodeAddress) (request : TeidRequest) :
    request.apply s upfIp = getGtpuTeid true s upfIp := by
  rcases request with ⟨_, rfl | rfl⟩ | ⟨_, rfl | rfl⟩ | ⟨_, rfl⟩ <;> rfl

inductive GtpuEvent where
  | setBase (offer : RangeOffer) (upfIp : NodeAddress)
  | request (request : TeidRequest) (upfIp : NodeAddress)
  deriving DecidableEq

/-- What a run has done so far, oldest first. -/
inductive GtpuRecord where
  | offered (offer : RangeOffer) (upfIp : NodeAddress)
  | returned (teid : UInt32) (upfIp : NodeAddress)
  deriving DecidableEq

/-- The allocator with the record of its calls. -/
structure GtpuRun where
  state : GtpuState := {}
  log : List GtpuRecord := []
  deriving DecidableEq

def GtpuRun.step (m : GtpuRun) : GtpuEvent → GtpuRun
  | .setBase offer upfIp =>
    { state := setBaseTeid m.state offer.riVal offer.val upfIp
      log := m.log ++ [.offered offer upfIp] }
  | .request request upfIp =>
    let result := request.apply m.state upfIp
    { state := result.2
      log := m.log ++ [.returned result.1 upfIp] }

open Epc.Lib.Run NodeAddress TeidInfo

def sinceOffer (upfIp : NodeAddress) (acc : Option (RangeOffer × List UInt32)) :
    GtpuRecord → Option (RangeOffer × List UInt32)
  | .offered offer node =>
    if storedAddress node = storedAddress upfIp then some (offer, []) else acc
  | .returned teid node =>
    if storedAddress node = storedAddress upfIp then
      acc.map fun served => (served.1, served.2 ++ [teid])
    else acc

/-- The last offer of a user plane, with the TEIDs returned for it since then. -/
def served (upfIp : NodeAddress) (log : List GtpuRecord) : Option (RangeOffer × List UInt32) :=
  log.foldl (sinceOffer upfIp) none

variable {u v : NodeAddress}

theorem served_congr (same : storedAddress u = storedAddress v)
    (log : List GtpuRecord) : served u log = served v log := by
  have steps : sinceOffer u = sinceOffer v := by
    funext acc record
    cases record <;> simp only [sinceOffer, same]
  rw [served, served, steps]

theorem served_append (upfIp : NodeAddress) (log : List GtpuRecord) (record : GtpuRecord) :
    served upfIp (log ++ [record]) = sinceOffer upfIp (served upfIp log) record := by
  simp [served, List.foldl_append]

def RangeOffer.size (offer : RangeOffer) : Nat :=
  2 ^ (32 - offer.riVal.toNat)

/-- Every TEID returned is non-zero; since its last offer, a user plane got TEIDs of its range, and
fewer consecutive ones than the range holds differ. -/
structure GtpuRun.Sound (m : GtpuRun) : Prop where
  nonzero : ∀ teid upfIp, .returned teid upfIp ∈ m.log → teid ≠ 0
  range : ∀ upfIp offer teids, served upfIp m.log = some (offer, teids) →
    ∀ teid ∈ teids, teid.toNat / offer.size = offer.val.toNat
  distinct : ∀ upfIp offer teids, served upfIp m.log = some (offer, teids) →
    ∀ window, window <:+: teids → window.length < offer.size → window.Nodup

def Addressed (upfIp : NodeAddress) : Prop :=
  (upfIp.ipType = pdnTypeIpv4 ∧ upfIp.ipv4Addr ≠ 0) ∨
    (upfIp.ipType = pdnTypeIpv6 ∧ upfIp.ipv6Addr ≠ NodeAddress.zeroIpv6)

def TeidInfo.low (info : TeidInfo) : Nat :=
  if info.teidRange = 0 then 1 else 0

/-- Nodes have an address, requests go to an associated node, the offset lies inside the
process-wide mask, and the entry wraps only at the end of the range. -/
def GtpuRun.Admits (m : GtpuRun) : GtpuEvent → Prop
  | .setBase _ upfIp => Addressed upfIp
  | .request _ upfIp =>
    Addressed upfIp ∧
      ∃ info ∈ getTeidInfo m.state.infos upfIp,
        info.low + info.upGtpuTeidOffset.toNat ≤ m.state.clearByte.toNat ∧
          (info.upGtpuTeidOffset < info.upGtpuMaxTeidOffset ∨
            ∃ since ∈ served upfIp m.log,
              info.upGtpuMaxTeidOffset.toNat + 1 = since.1.size)

def TeidInfo.first (info : TeidInfo) : Nat :=
  info.teidRange.toNat * 2 ^ 24

theorem TeidInfo.toNat_shift (info : TeidInfo) :
    (info.teidRange.toUInt32 <<< 24).toNat = info.first := by
  have := info.teidRange.toNat_lt
  rw [UInt32.toNat_shiftLeft, UInt8.toNat_toUInt32, Nat.shiftLeft_eq, first]
  exact Nat.mod_eq_of_lt (by simp; omega)

theorem TeidInfo.first_add_low_pos (info : TeidInfo) : 0 < info.first + info.low := by
  rw [first, low]
  split
  · omega
  case isFalse nonzero =>
    have : info.teidRange.toNat ≠ 0 := fun zero => nonzero (UInt8.toNat_inj.mp zero)
    omega

/-- An entry and the TEIDs returned from it since its last offer. The mask has `c` one bits, the
largest offset is `m`, the first `start`. -/
structure TeidInfo.Serving (c m start : Nat) (offer : RangeOffer) (teids : List UInt32)
    (info : TeidInfo) : Prop where
  mask_le : c ≤ m
  max_le : m ≤ 32 - offer.riVal.toNat
  max : info.upGtpuMaxTeidOffset.toNat = 2 ^ m - 1
  aligned : 2 ^ m ∣ info.first
  fits : info.first + 2 ^ m ≤ 2 ^ 32
  inRange : ∀ x, x < 2 ^ m → (info.first + x) / offer.size = offer.val.toNat
  base : info.upGtpuBaseTeid.toNat = info.first + info.low
  sequence : teids.map UInt32.toNat = cycle (info.first + info.low) start offer.size teids.length
  offset : info.upGtpuTeidOffset.toNat =
    if teids = [] then start else (start + teids.length) % offer.size
  range : ∀ teid ∈ teids, teid.toNat / offer.size = offer.val.toNat

variable {c m start : Nat} {offer : RangeOffer} {teids : List UInt32} {info : TeidInfo}

theorem TeidInfo.Serving.distinct {window : List UInt32} (serving : info.Serving c m start offer teids)
    (inside : window <:+: teids) (short : window.length < offer.size) : window.Nodup := by
  have mapped : window.map UInt32.toNat <:+: teids.map UInt32.toNat := inside.map _
  rw [serving.sequence] at mapped
  exact (nodup_of_infix_cycle mapped (by simpa using short.le)).of_map _

variable {clearByte : UInt32}

section

variable (serving : info.Serving c m start offer teids)

include serving

theorem TeidInfo.Serving.teid_eq (mask : clearByte.toNat = 2 ^ c - 1)
    (covered : info.low + info.upGtpuTeidOffset.toNat ≤ clearByte.toNat) :
    (((info.upGtpuBaseTeid + info.upGtpuTeidOffset) &&& clearByte) |||
        (info.teidRange.toUInt32 <<< 24)).toNat =
      info.first + (info.low + info.upGtpuTeidOffset.toNat) := by
  have inMask : info.low + info.upGtpuTeidOffset.toNat < 2 ^ c := by
    have := Nat.two_pow_pos c
    omega
  have maskLe : 2 ^ c ≤ 2 ^ m := Nat.pow_le_pow_right (by decide) serving.mask_le
  have fits := serving.fits
  obtain ⟨q, aligned⟩ := (pow_dvd_pow 2 serving.mask_le).trans serving.aligned
  have sum : (info.upGtpuBaseTeid + info.upGtpuTeidOffset).toNat =
      info.first + (info.low + info.upGtpuTeidOffset.toNat) := by
    rw [UInt32.toNat_add, serving.base, Nat.mod_eq_of_lt (by omega), Nat.add_assoc]
  rw [UInt32.toNat_or, UInt32.toNat_and, sum, mask, Nat.and_two_pow_sub_one_eq_mod,
    toNat_shift, aligned, Nat.mul_add_mod, Nat.mod_eq_of_lt inMask, Nat.or_comm,
    Nat.two_pow_add_eq_or_of_lt inMask]

theorem TeidInfo.Serving.advance {teid : UInt32}
    (value : teid.toNat = info.first + (info.low + info.upGtpuTeidOffset.toNat))
    (covered : info.low + info.upGtpuTeidOffset.toNat < 2 ^ c)
    (wraps : info.upGtpuTeidOffset < info.upGtpuMaxTeidOffset ∨
      info.upGtpuMaxTeidOffset.toNat + 1 = offer.size) :
    info.advance.Serving c m start offer (teids ++ [teid]) := by
  have maskLe : 2 ^ c ≤ 2 ^ m := Nat.pow_le_pow_right (by decide) serving.mask_le
  have maxLe : 2 ^ m ≤ offer.size := Nat.pow_le_pow_right (by decide) serving.max_le
  have max := serving.max
  have offset : info.upGtpuTeidOffset.toNat = (start + teids.length) % offer.size := by
    have stored := serving.offset
    split at stored
    case isTrue none =>
      subst none
      rw [stored, List.length_nil, Nat.add_zero, Nat.mod_eq_of_lt (by omega)]
    case isFalse => exact stored
  refine ⟨serving.mask_le, serving.max_le, serving.max, serving.aligned, serving.fits,
    serving.inRange, serving.base, ?_, ?_, ?_⟩
  · rw [List.map_append, serving.sequence, List.length_append, List.length_singleton, cycle_succ,
      ← offset, List.map_singleton, value, Nat.add_assoc]
    rfl
  · rw [if_neg (by simp), List.length_append, List.length_singleton, ← Nat.add_assoc,
      ← Nat.mod_add_mod, ← offset]
    simp only [TeidInfo.advance]
    by_cases last : info.upGtpuMaxTeidOffset ≤ info.upGtpuTeidOffset
    · rw [if_pos last]
      have whole := wraps.resolve_left (UInt32.not_lt.mpr last)
      rw [UInt32.le_iff_toNat_le] at last
      have atEnd : info.upGtpuTeidOffset.toNat + 1 = offer.size := by omega
      rw [atEnd, Nat.mod_self]
      rfl
    · rw [if_neg last]
      rw [UInt32.le_iff_toNat_le] at last
      have small := info.upGtpuMaxTeidOffset.toNat_lt
      rw [UInt32.toNat_add, Nat.mod_eq_of_lt (a := info.upGtpuTeidOffset.toNat + 1) (by omega)]
      exact Nat.mod_eq_of_lt (by simp; omega)
  · intro t mem
    rcases List.mem_append.mp mem with old | new
    · exact serving.range t old
    · rw [List.mem_singleton.mp new, value]
      exact serving.inRange _ (by omega)

theorem TeidInfo.Serving.shrink {c' : Nat} (le : c' ≤ c) : info.Serving c' m start offer teids :=
  { serving with mask_le := le.trans serving.mask_le }

end

theorem toNat_shiftRight_mask {riVal : UInt8} (mask : clearByte.toNat = 2 ^ c - 1) (ri_le : riVal ≤ 8) :
    (clearByte >>> riVal.toUInt32).toNat = 2 ^ (c - riVal.toNat) - 1 := by
  have small : riVal.toNat ≤ 8 := UInt8.le_iff_toNat_le.mp ri_le
  rw [UInt32.toNat_shiftRight, UInt8.toNat_toUInt32, Nat.mod_eq_of_lt (by omega), mask]
  refine Nat.eq_of_testBit_eq fun i => ?_
  rw [Nat.testBit_shiftRight, Nat.testBit_two_pow_sub_one, Nat.testBit_two_pow_sub_one]
  exact decide_eq_decide.mpr (by omega)

theorem serving_initTeidInfo (upfIp : NodeAddress) (le : c ≤ 32)
    (whole : offer.riVal = 0) : (initTeidInfo upfIp).Serving c 32 0 offer [] := by
  have val : offer.val.toNat = 0 := by
    have := offer.val_lt
    rw [whole] at this
    simpa using this
  have first : (initTeidInfo upfIp).first = 0 := by simp [TeidInfo.first, initTeidInfo]
  refine ⟨le, by simp [whole], by simp [initTeidInfo], by simp [first], by simp [first], ?_, ?_,
    rfl, rfl, by simp⟩
  · intro x small
    rw [val, RangeOffer.size, whole, first, Nat.zero_add]
    exact Nat.div_eq_of_lt small
  · rw [first, Nat.zero_add]
    rfl

theorem TeidInfo.Serving.reoffer {offer' : RangeOffer} (serving : info.Serving c m start offer teids)
    (whole : offer'.riVal = 0) : info.Serving c m info.upGtpuTeidOffset.toNat offer' [] := by
  have val : offer'.val.toNat = 0 := by
    have := offer'.val_lt
    rw [whole] at this
    simpa using this
  have size : offer'.size = 2 ^ 32 := by simp [RangeOffer.size, whole]
  have maxLe := serving.max_le
  refine ⟨serving.mask_le, ?_, serving.max, serving.aligned, serving.fits, ?_, serving.base, rfl,
    by simp, by simp⟩
  · simp only [whole, UInt8.toNat_zero]
    omega
  · intro x small
    have fits := serving.fits
    rw [val, size]
    exact Nat.div_eq_of_lt (by omega)

theorem serving_setRange (info : TeidInfo) (le : c ≤ 32) (some : offer.riVal ≠ 0)
    (mask : clearByte.toNat = 2 ^ (c - offer.riVal.toNat) - 1) :
    (info.setRange offer.riVal offer.val clearByte).Serving (c - offer.riVal.toNat)
      (c - offer.riVal.toNat) info.upGtpuTeidOffset.toNat offer [] := by
  obtain ⟨riVal, val, ri_le, val_lt⟩ := offer
  have small : riVal.toNat ≤ 8 := UInt8.le_iff_toNat_le.mp ri_le
  have pos : riVal.toNat ≠ 0 := fun zero => some (UInt8.toNat_inj.mp zero)
  simp only at mask some ⊢
  have power : 2 ^ riVal.toNat * 2 ^ (8 - riVal.toNat) = 2 ^ 8 := by
    rw [← Nat.pow_add]
    congr 1
    omega
  have fill : 2 ^ (8 - riVal.toNat) * 2 ^ 24 = 2 ^ (32 - riVal.toNat) := by
    rw [← Nat.pow_add]
    congr 1
    omega
  have maskLe : 2 ^ (c - riVal.toNat) ≤ 2 ^ (32 - riVal.toNat) :=
    Nat.pow_le_pow_right (by decide) (by omega)
  have shifted : val.toNat * 2 ^ (8 - riVal.toNat) < 2 ^ 8 := by
    rw [← power]
    exact Nat.mul_lt_mul_of_pos_right val_lt (Nat.two_pow_pos _)
  have range : (val <<< (8 - riVal)).toNat = val.toNat * 2 ^ (8 - riVal.toNat) := by
    have eight : (8 - riVal).toNat = 8 - riVal.toNat := UInt8.toNat_sub_of_le _ _ ri_le
    rw [UInt8.toNat_shiftLeft, Nat.shiftLeft_eq, eight,
      Nat.mod_eq_of_lt (show 8 - riVal.toNat < 8 by omega), Nat.mod_eq_of_lt shifted]
  have first : (info.setRange riVal val clearByte).first = val.toNat * 2 ^ (32 - riVal.toNat) := by
    simp only [TeidInfo.first, setRange, if_neg some, range]
    rw [Nat.mul_assoc, fill]
  have firstFits : val.toNat * 2 ^ (32 - riVal.toNat) + 2 ^ (32 - riVal.toNat) ≤ 2 ^ 32 := by
    rw [← Nat.succ_mul, ← Nat.sub_add_cancel (show riVal.toNat ≤ 32 by omega),
      Nat.add_sub_cancel, Nat.pow_add, Nat.mul_comm]
    exact Nat.mul_le_mul_left _ val_lt
  refine ⟨le_rfl, by simp only; omega, ?_, ?_, ?_, ?_, ?_, rfl, ?_, by simp⟩
  · simp only [setRange, if_neg some, mask]
  · rw [first]
    exact Dvd.dvd.mul_left (pow_dvd_pow 2 (by omega)) _
  · rw [first]
    omega
  · intro x inside
    rw [first, RangeOffer.size]
    rw [Nat.mul_comm, Nat.mul_add_div (Nat.two_pow_pos _), Nat.div_eq_of_lt (by omega),
      Nat.add_zero]
  · rw [← toNat_shift, low]
    simp only [setRange, if_neg some]
    by_cases zero : val <<< (8 - riVal) = 0
    · simp [zero]
    · simp [zero]
  · simp [setRange, some]

theorem storedAddress_v4 {upfIp : NodeAddress} (type : upfIp.ipType = pdnTypeIpv4) :
    storedAddress upfIp = v4 upfIp.ipv4Addr := by
  simp [storedAddress, type]

theorem storedAddress_v6 {upfIp : NodeAddress} (type : upfIp.ipType = pdnTypeIpv6) :
    storedAddress upfIp = v6 upfIp.ipv6Addr := by
  simp [storedAddress, type, pdnTypeIpv4, pdnTypeIpv6]

theorem Addressed.of_stored_eq (addressed : Addressed v)
    (same : storedAddress v = storedAddress u) : Addressed u := by
  rcases addressed with ⟨type, nonzero⟩ | ⟨type, nonzero⟩
  · rw [storedAddress_v4 type, storedAddress] at same
    split at same
    case isTrue typeU =>
      have : v.ipv4Addr = u.ipv4Addr := by simpa [v4] using same
      exact .inl ⟨typeU, this ▸ nonzero⟩
    case isFalse =>
      split at same
      · exact absurd (congrArg ipType same)
          (by simp [v4, v6, pdnTypeIpv4, pdnTypeIpv6])
      · exact absurd (congrArg ipType same)
          (by simp [v4, zero, pdnTypeIpv4])
  · rw [storedAddress_v6 type, storedAddress] at same
    split at same
    · exact absurd (congrArg ipType same)
        (by simp [v4, v6, pdnTypeIpv4, pdnTypeIpv6])
    · split at same
      case isTrue typeU =>
        have : v.ipv6Addr = u.ipv6Addr := by simpa [v6] using same
        exact .inr ⟨typeU, this ▸ nonzero⟩
      case isFalse =>
        exact absurd (congrArg ipType same)
          (by simp [v6, zero, pdnTypeIpv6])

theorem serves_eq (sought : Addressed u) (held : Addressed v) (stored : info.dpIp = storedAddress v) :
    info.serves u = decide (info.dpIp = storedAddress u) := by
  rcases sought with ⟨typeU, nonzeroU⟩ | ⟨typeU, nonzeroU⟩ <;>
    rcases held with ⟨typeV, nonzeroV⟩ | ⟨typeV, nonzeroV⟩
  · rw [storedAddress_v4 typeV] at stored
    simp [serves, typeU, stored, storedAddress_v4 typeU, v4, pdnTypeIpv4,
      pdnTypeIpv6, beq_eq_decide]
  · rw [storedAddress_v6 typeV] at stored
    simp [serves, typeU, stored, storedAddress_v4 typeU, v4, v6,
      zero, pdnTypeIpv4, pdnTypeIpv6, Ne.symm nonzeroU]
  · rw [storedAddress_v4 typeV] at stored
    simp [serves, typeU, stored, storedAddress_v6 typeU, v4, v6,
      zero, pdnTypeIpv4, pdnTypeIpv6, Ne.symm nonzeroU]
  · rw [storedAddress_v6 typeV] at stored
    simp [serves, typeU, stored, storedAddress_v6 typeU, v6, pdnTypeIpv4,
      pdnTypeIpv6, beq_eq_decide]

def Kept (infos : List TeidInfo) : Prop :=
  ∀ info ∈ infos, ∃ node, Addressed node ∧ info.dpIp = storedAddress node

section

variable {infos : List TeidInfo} {u : NodeAddress}

theorem Kept.getTeidInfo (kept : Kept infos) (addressed : Addressed u) :
    getTeidInfo infos u = findKey dpIp (storedAddress u) infos := by
  apply List.find?_congr
  intro info mem
  obtain ⟨v, held, stored⟩ := kept info mem
  exact serves_eq addressed held stored

theorem Kept.updateFirst (kept : Kept infos) (addressed : Addressed u) (f : TeidInfo → TeidInfo) :
    updateFirst (serves u) f infos =
      Lib.updateFirst (fun info => info.dpIp = storedAddress u) f infos := by
  apply updateFirst_congr
  intro info mem
  obtain ⟨v, held, stored⟩ := kept info mem
  exact serves_eq addressed held stored

theorem Kept.update (kept : Kept infos) {p : TeidInfo → Bool} {f : TeidInfo → TeidInfo}
    (keeps : ∀ info, (f info).dpIp = info.dpIp) : Kept (Lib.updateFirst p f infos) := by
  intro info mem
  rcases mem_updateFirst mem with old | ⟨x, old, -, rfl⟩
  · exact kept info old
  · rw [keeps]
    exact kept x old

theorem Kept.append (kept : Kept infos) {info : TeidInfo} (addressed : Addressed u)
    (stored : info.dpIp = storedAddress u) : Kept (infos ++ [info]) := by
  intro x mem
  rcases List.mem_append.mp mem with old | new
  · exact kept x old
  · rw [List.mem_singleton.mp new]
    exact ⟨u, addressed, stored⟩

end

def Matched (c : Nat) : Option TeidInfo → Option (RangeOffer × List UInt32) → Prop
  | none, none => True
  | some info, some (offer, teids) => ∃ m start, info.Serving c m start offer teids
  | _, _ => False

structure GtpuRun.Inv (c : Nat) (m : GtpuRun) : Prop where
  c_le : c ≤ 32
  mask : m.state.clearByte.toNat = 2 ^ c - 1
  kept : Kept m.state.infos
  matched : ∀ u, Addressed u →
    Matched c (findKey TeidInfo.dpIp (storedAddress u) m.state.infos) (served u m.log)
  unserved : ∀ u, ¬ Addressed u → served u m.log = none
  nonzero : ∀ teid u, .returned teid u ∈ m.log → teid ≠ 0

theorem GtpuRun.inv_initial : GtpuRun.Inv 32 {} := by
  refine ⟨le_rfl, by simp, ?_, fun _ _ => trivial, fun _ _ => rfl, ?_⟩
  · intro info mem
    cases mem
  · intro teid u mem
    cases mem

theorem Matched.shrink {c' : Nat} {found : Option TeidInfo} {since : Option (RangeOffer × List UInt32)}
    (matched : Matched c found since) (le : c' ≤ c) : Matched c' found since := by
  match found, since, matched with
  | none, none, _ => trivial
  | some _, some (_, _), ⟨m, start, serving⟩ => exact ⟨m, start, serving.shrink le⟩

theorem GtpuRun.Inv.sound {m : GtpuRun} (inv : m.Inv c) : m.Sound := by
  have serving : ∀ u offer teids, served u m.log = some (offer, teids) →
      ∃ k start info, TeidInfo.Serving c k start offer teids info := by
    intro u offer teids since
    by_cases addressed : Addressed u
    · have matched := inv.matched u addressed
      rw [since] at matched
      cases found : findKey dpIp (storedAddress u) m.state.infos with
      | none => simp [found, Matched] at matched
      | some info =>
        rw [found] at matched
        obtain ⟨k, start, holds⟩ := matched
        exact ⟨k, start, info, holds⟩
    · rw [inv.unserved u addressed] at since
      cases since
  refine ⟨inv.nonzero, ?_, ?_⟩
  · intro u offer teids since
    obtain ⟨k, start, info, holds⟩ := serving u offer teids since
    exact holds.range
  · intro u offer teids since window inside short
    obtain ⟨k, start, info, holds⟩ := serving u offer teids since
    exact holds.distinct inside short

theorem setRange_dpIp (riVal val : UInt8) (clearByte : UInt32) (info : TeidInfo) :
    (info.setRange riVal val clearByte).dpIp = info.dpIp := by
  unfold setRange
  split <;> rfl

theorem TeidInfo.Serving.offered {offer' : RangeOffer} (le : c ≤ 32)
    (mask : clearByte.toNat = 2 ^ (c - offer'.riVal.toNat) - 1)
    (serving : info.Serving c m start offer teids) :
    ∃ m' start', (info.setRange offer'.riVal offer'.val clearByte).Serving
      (c - offer'.riVal.toNat) m' start' offer' [] := by
  by_cases zero : offer'.riVal = 0
  · refine ⟨m, info.upGtpuTeidOffset.toNat, ?_⟩
    simpa [zero, setRange] using serving.reoffer zero
  · exact ⟨_, _, serving_setRange info le zero mask⟩

theorem serving_first_offer (u : NodeAddress)
    (le : c ≤ 32) (mask : clearByte.toNat = 2 ^ (c - offer.riVal.toNat) - 1) :
    ∃ m start, ((initTeidInfo u).setRange offer.riVal offer.val clearByte).Serving
      (c - offer.riVal.toNat) m start offer [] := by
  by_cases zero : offer.riVal = 0
  · refine ⟨32, 0, ?_⟩
    simpa [zero, setRange] using serving_initTeidInfo u le zero
  · exact ⟨_, _, serving_setRange _ le zero mask⟩

theorem setBaseTeid_infos {s : GtpuState} (riVal val : UInt8)
    (kept : Kept s.infos) (addressed : Addressed u) :
    Kept (setBaseTeid s riVal val u).infos ∧
      findKey dpIp (storedAddress u) (setBaseTeid s riVal val u).infos =
        some (((findKey dpIp (storedAddress u) s.infos).getD (initTeidInfo u)).setRange
          riVal val (s.clearByte >>> riVal.toUInt32)) ∧
      ∀ k ≠ storedAddress u, findKey dpIp k (setBaseTeid s riVal val u).infos =
        findKey dpIp k s.infos := by
  have stores := setRange_dpIp riVal val (s.clearByte >>> riVal.toUInt32)
  have search := kept.getTeidInfo addressed
  cases found : findKey dpIp (storedAddress u) s.infos with
  | none =>
    have named : ((initTeidInfo u).setRange riVal val
        (s.clearByte >>> riVal.toUInt32)).dpIp = storedAddress u := stores _
    simp only [setBaseTeid, search, found]
    refine ⟨kept.append addressed named, findKey_append_self found named, ?_⟩
    intro k ne
    exact findKey_append_of_ne (by rw [named]; exact ne.symm)
  | some info =>
    simp only [setBaseTeid, search, found, kept.updateFirst addressed]
    refine ⟨kept.update stores, ?_, ?_⟩
    · rw [findKey_updateFirst_self fun info => (stores info).trans, found]
      rfl
    · intro k ne
      exact findKey_updateFirst_of_ne stores ne

theorem GtpuRun.Inv.setBase {m : GtpuRun} (inv : m.Inv c) (addressed : Addressed u) :
    (m.step (.setBase offer u)).Inv (c - offer.riVal.toNat) := by
  have mask := toNat_shiftRight_mask inv.mask offer.ri_le
  obtain ⟨kept, entry, others⟩ :=
    setBaseTeid_infos offer.riVal offer.val inv.kept addressed
  refine ⟨by have := inv.c_le; omega, ?_, kept, ?_, ?_, ?_⟩
  · rw [← mask]
    simp only [GtpuRun.step, setBaseTeid]
    split <;> rfl
  · intro v addressedV
    simp only [GtpuRun.step, served_append, sinceOffer]
    by_cases same : storedAddress u = storedAddress v
    · rw [if_pos same, ← same, entry]
      have matched := inv.matched u addressed
      cases found : findKey dpIp (storedAddress u) m.state.infos with
      | none => exact serving_first_offer u inv.c_le mask
      | some info =>
        rw [found] at matched
        cases since : served u m.log with
        | none => simp [since, Matched] at matched
        | some last =>
          rw [since] at matched
          obtain ⟨k, start, serving⟩ := matched
          exact serving.offered inv.c_le mask
    · rw [if_neg same, others _ (Ne.symm same)]
      exact (inv.matched v addressedV).shrink (Nat.sub_le _ _)
  · intro v unaddressed
    have ne : storedAddress u ≠ storedAddress v :=
      fun same => unaddressed (addressed.of_stored_eq same)
    simp only [GtpuRun.step, served_append, sinceOffer, if_neg ne]
    exact inv.unserved v unaddressed
  · intro teid v mem
    simp only [GtpuRun.step, List.mem_append, List.mem_singleton, reduceCtorEq, or_false] at mem
    exact inv.nonzero teid v mem

theorem getGtpuTeid_found {s : GtpuState} (kept : Kept s.infos) (addressed : Addressed u)
    (found : findKey dpIp (storedAddress u) s.infos = some info) :
    (getGtpuTeid true s u).1 =
        ((info.upGtpuBaseTeid + info.upGtpuTeidOffset) &&& s.clearByte) |||
          (info.teidRange.toUInt32 <<< 24) ∧
      (getGtpuTeid true s u).2.clearByte = s.clearByte ∧
      Kept (getGtpuTeid true s u).2.infos ∧
      findKey dpIp (storedAddress u) (getGtpuTeid true s u).2.infos =
        some info.advance ∧
      ∀ k ≠ storedAddress u, findKey dpIp k (getGtpuTeid true s u).2.infos =
        findKey dpIp k s.infos := by
  have stores : ∀ info : TeidInfo, info.advance.dpIp = info.dpIp := fun _ => rfl
  simp only [getGtpuTeid, kept.getTeidInfo addressed, found, if_true, kept.updateFirst addressed]
  refine ⟨rfl, trivial, kept.update stores, ?_, ?_⟩
  · rw [findKey_updateFirst_self fun info => (stores info).trans, found]
    rfl
  · intro k ne
    exact findKey_updateFirst_of_ne stores ne

theorem GtpuRun.Inv.request {m : GtpuRun} {request : TeidRequest} (inv : m.Inv c)
    (admitted : m.Admits (.request request u)) : (m.step (.request request u)).Inv c := by
  obtain ⟨addressed, info, held, covered, wraps⟩ := admitted
  have found : findKey dpIp (storedAddress u) m.state.infos = some info := by
    rw [← inv.kept.getTeidInfo addressed]
    exact held
  have matched := inv.matched u addressed
  rw [found] at matched
  cases since : served u m.log with
  | none => simp [since, Matched] at matched
  | some last =>
    obtain ⟨offer, teids⟩ := last
    rw [since] at matched
    obtain ⟨k, start, serving⟩ := matched
    obtain ⟨teid, clearByte, kept, entry, others⟩ := getGtpuTeid_found inv.kept addressed found
    have value := serving.teid_eq inv.mask covered
    rw [← teid] at value
    have inMask : info.low + info.upGtpuTeidOffset.toNat < 2 ^ c := by
      have := inv.mask
      have := Nat.two_pow_pos c
      omega
    have advanced := serving.advance value inMask
      (wraps.imp_right fun ⟨_, mem, whole⟩ => by
        rw [since, Option.mem_some_iff] at mem
        rw [← mem] at whole
        exact whole)
    simp only [GtpuRun.step, request.apply_eq]
    refine ⟨inv.c_le, by rw [← inv.mask, clearByte], kept, ?_, ?_, ?_⟩
    · intro v addressedV
      simp only [served_append, sinceOffer]
      by_cases same : storedAddress u = storedAddress v
      · rw [if_pos same, ← served_congr same, ← same, entry, since]
        exact ⟨k, start, advanced⟩
      · rw [if_neg same, others _ (Ne.symm same)]
        exact inv.matched v addressedV
    · intro v unaddressed
      have ne : storedAddress u ≠ storedAddress v :=
        fun same => unaddressed (addressed.of_stored_eq same)
      simp only [served_append, sinceOffer, if_neg ne]
      exact inv.unserved v unaddressed
    · intro t v mem
      simp only [List.mem_append, List.mem_singleton, GtpuRecord.returned.injEq] at mem
      rcases mem with old | ⟨rfl, -⟩
      · exact inv.nonzero t v old
      · intro zero
        rw [zero] at value
        have := info.first_add_low_pos
        simp only [UInt32.toNat_zero] at value
        omega

/-- In a run of admitted steps, every state reached has handed out sound TEIDs. -/
theorem gtpuRun_sound (events reached : List GtpuEvent)
    (guarded : Guarded GtpuRun.step GtpuRun.Admits {} events) (isPrefix : reached <+: events) :
    (run GtpuRun.step {} reached).Sound := by
  have inv : ∃ c, (run GtpuRun.step {} reached).Inv c := by
    refine (guarded.of_prefix isPrefix).invariant (fun m => ∃ c, GtpuRun.Inv c m)
      ⟨32, GtpuRun.inv_initial⟩ ?_
    rintro m event ⟨c, inv⟩ admitted
    cases event with
    | setBase offer u => exact ⟨_, inv.setBase admitted⟩
    | request request u => exact ⟨c, inv.request admitted⟩
  obtain ⟨c, inv⟩ := inv
  exact inv.sound

instance (upfIp : NodeAddress) : Decidable (Addressed upfIp) := by
  unfold Addressed
  infer_instance

instance (m : GtpuRun) (event : GtpuEvent) : Decidable (m.Admits event) := by
  cases event <;> unfold GtpuRun.Admits <;> infer_instance

def upf (n : UInt32) : NodeAddress :=
  NodeAddress.v4 n

def offerRange (val : UInt8) : RangeOffer where
  riVal := 8
  val := val
  ri_le := by decide
  val_lt := val.toNat_lt

def s1uRequest : TeidRequest :=
  .s1uSgw .sgwc (.inl rfl)

def twoUpfRun : List GtpuEvent :=
  [.setBase (offerRange 0) (upf 1), .request s1uRequest (upf 1), .setBase (offerRange 7) (upf 2),
    .request s1uRequest (upf 2), .request s1uRequest (upf 1), .request s1uRequest (upf 2)]

theorem gtpuRun_sound_twoUpfRun : (run GtpuRun.step {} twoUpfRun).Sound :=
  gtpuRun_sound twoUpfRun twoUpfRun (by decide +kernel) List.prefix_rfl

def fourUpfRun : List GtpuEvent :=
  [.setBase (offerRange 1) (upf 1), .setBase (offerRange 1) (upf 2),
    .setBase (offerRange 1) (upf 3), .setBase (offerRange 1) (upf 4),
    .request s1uRequest (upf 1), .request s1uRequest (upf 1)]

/-- Four associations shift the shared mask to zero: two TEIDs of a user plane are equal. -/
theorem gtpuRun_fourUpfRun_not_sound : ¬ (run GtpuRun.step {} fourUpfRun).Sound := by
  intro sound
  have served : served (upf 1) (run GtpuRun.step {} fourUpfRun).log =
      some (offerRange 1, [0x01000000, 0x01000000]) := by decide +kernel
  have distinct := sound.distinct _ _ _ served [0x01000000, 0x01000000] List.infix_rfl
    (by decide +kernel)
  simp at distinct

end Epc.Cp

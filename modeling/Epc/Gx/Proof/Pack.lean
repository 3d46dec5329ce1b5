import Mathlib.Data.List.Forall2
import Mathlib.Tactic.NormNum
import Epc.Gx.Pack

/-! A packed Re-Auth-Request is unpacked to what it was. Each kind of member is described by the bytes that
it becomes; length, packing and unpacking are compared with that, first for the members and then for the
structures. -/

namespace Epc.Gx

open Epc.Lib.Bytes List Option

section

def OctetString.bytes (s : OctetString) : List UInt8 :=
  store32 (.ofNat s.val.length) ++ s.val

def GxList.bytes {α : Type} (f : α → List UInt8) (l : GxList α) : List UInt8 :=
  store32 (.ofNat l.list.length) ++ l.list.flatMap f

def memberBytes {α : Type} (f : α → List UInt8) (member : Option α) : List UInt8 :=
  member.elim [] f

end

section

theorem testBit_bits (flags : List Bool) (i : Nat) : (bits flags).testBit i = flags.getD i false := by
  induction flags generalizing i with
  | nil => simp [bits]
  | cons b bs ih =>
    cases i with
    | zero =>
      cases b <;> simp [bits, Nat.testBit_zero]
    | succ i =>
      have half : (b.toNat + 2 * bits bs) / 2 = bits bs := by
        rw [Nat.add_mul_div_left _ _ (by decide), Nat.div_eq_of_lt b.toNat_lt, Nat.zero_add]
      rw [bits, Nat.testBit_succ, half, ih, getD_cons_succ]

theorem bits_lt (flags : List Bool) : bits flags < 2 ^ flags.length := by
  induction flags with
  | nil => decide
  | cons b bs ih =>
    have bit := b.toNat_lt
    rw [bits, length_cons, pow_succ]
    omega

theorem flag_presenceWord (flags : List Bool) (few : flags.length ≤ 32) (i : Nat) :
    flag (presenceWord flags) i = flags.getD i false := by
  have fits : bits flags < 2 ^ 32 := (bits_lt flags).trans_le (Nat.pow_le_pow_right (by decide) few)
  rw [flag, presenceWord, UInt32.toNat_ofNat', Nat.mod_eq_of_lt fits, testBit_bits]

end

class LawfulBasic (α : Type) [Basic α] : Prop where
  length_store : ∀ x : α, (Basic.store x).length = Basic.size α
  load_store : ∀ x : α, Basic.load (Basic.store x) = x

instance lawfulUInt32 : LawfulBasic UInt32 where
  length_store := length_store32
  load_store := load32_store32

instance lawfulInt32 : LawfulBasic Int32 where
  length_store := fun x => length_store32 x.toUInt32
  load_store := fun x => congrArg UInt32.toInt32 (load32_store32 x.toUInt32)

instance lawfulInt64 : LawfulBasic Int64 where
  length_store := fun x => length_store64 x.toUInt64
  load_store := fun x => congrArg UInt64.toInt64 (load64_store64 x.toUInt64)

section

def zeros (k : Nat) : List UInt8 := List.replicate k 0

/-- In a buffer that is zero ahead, the bytes are written if there is room. -/
def Appends (packer : Packer) (bytes : List UInt8) : Prop :=
  ∀ done k, packer ⟨done, zeros k⟩ =
    if bytes.length ≤ k then some ⟨done ++ bytes, zeros (k - bytes.length)⟩ else none

theorem appends_write (bytes : List UInt8) : Appends (fun c => c.write bytes) bytes := by
  intro done k
  simp only [Cursor.write, zeros, length_replicate, drop_replicate]

theorem appends_some : Appends some [] := by
  intro done k
  simp [zeros]

variable {α : Type} {packfunc : α → Packer} {f : α → List UInt8}

theorem appends_member (each : ∀ x, Appends (packfunc x) (f x)) (mem : Option α) :
    Appends (mem.elim some packfunc) (memberBytes f mem) := by
  cases mem with
  | none => exact appends_some
  | some x => exact each x

theorem appends_packAll {packers : List Packer} {chunks : List (List UInt8)}
    (each : List.Forall₂ Appends packers chunks) : Appends (packAll packers) chunks.flatten := by
  induction each with
  | nil => exact appends_some
  | @cons packer bytes packers chunks first _ ih =>
    intro done k
    rw [packAll, foldlM_cons, first done k, flatten_cons, length_append]
    by_cases room : bytes.length ≤ k
    · rw [if_pos room]
      refine (ih (done ++ bytes) (k - bytes.length)).trans ?_
      by_cases rest : chunks.flatten.length ≤ k - bytes.length
      · rw [if_pos rest, if_pos (by omega), append_assoc, Nat.sub_sub]
      · rw [if_neg rest, if_neg (by omega)]
    · rw [if_neg room, if_neg (by omega)]
      rfl

theorem appends_list (each : ∀ x, Appends (packfunc x) (f x)) (mem : Option (GxList α)) :
    Appends (packListStruct packfunc mem) (memberBytes (GxList.bytes f) mem) := by
  refine appends_member (fun l => ?_) mem
  have elements : List.Forall₂ Appends (l.list.map packfunc) (l.list.map f) := by
    rw [forall₂_map_left_iff, forall₂_map_right_iff, forall₂_same]
    exact fun x _ => each x
  have all := appends_packAll (.cons (appends_write (store32 (.ofNat l.list.length))) elements)
  rwa [flatten_cons, ← flatMap_def] at all

theorem appends_basic [Basic α] (mem : Option α) :
    Appends (packBasic mem) (memberBytes Basic.store mem) :=
  appends_member (fun x => appends_write (Basic.store x)) mem

theorem appends_octetString (mem : Option OctetString) :
    Appends (packOctetString mem) (memberBytes OctetString.bytes mem) :=
  appends_member (f := OctetString.bytes) (fun s => appends_write s.bytes) mem

theorem appends_listBasic [Basic α] (mem : Option (GxList α)) :
    Appends (packListBasic mem) (memberBytes (GxList.bytes Basic.store) mem) :=
  appends_list (fun x => appends_write (Basic.store x)) mem

theorem load32_zeros : load32 (zeros 4) = 0 := by
  decide

theorem appends_octets (s : OctetString) :
    Appends (fun c => c.write (store32 (load32 (c.ahead.take 4) + .ofNat s.val.length) ++ s.val))
      s.bytes := by
  intro done k
  by_cases four : 4 ≤ k
  · have zero : (zeros k).take 4 = zeros 4 := by
      rw [zeros, take_replicate, Nat.min_eq_left four]
      rfl
    dsimp only
    rw [zero, load32_zeros, UInt32.zero_add]
    exact appends_write s.bytes done k
  · have long : ¬s.bytes.length ≤ k := by
      rw [OctetString.bytes, length_append, length_store32]
      omega
    rw [if_neg long]
    refine if_neg ?_
    rw [length_append, length_store32, zeros, length_replicate]
    omega

theorem appends_listOctetString (mem : Option (GxList OctetString)) :
    Appends (packListOctetString mem) (memberBytes (GxList.bytes OctetString.bytes) mem) :=
  appends_list appends_octets mem

theorem appends_absent {mem : Option α} (absent : mem = none) :
    Appends (mem.elim some packfunc) [] := by
  rw [absent]
  exact appends_some

end

section

def Reads {α : Type} (unpack : Unpacker α) (x : α) (bytes : List UInt8) : Prop :=
  ∀ rest, unpack (bytes ++ rest) = some (x, rest)

variable {α : Type} {unpack : Unpacker α}

theorem Reads.step {β : Type} {x : α} {bytes rest : List UInt8} {f : α × List UInt8 → Option β}
    {result : Option β} (reads : Reads unpack x bytes) (next : f (x, rest) = result) :
    (unpack (bytes ++ rest) >>= f) = result := by
  rw [reads rest]
  exact next

theorem reads_presence (flags : List Bool) :
    Reads unpackPresence (presenceWord flags) (store32 (presenceWord flags)) := by
  intro rest
  refine (field_bind (length_store32 _) _ _).trans ?_
  dsimp only
  rw [load32_store32]

theorem reads_basic [Basic α] [LawfulBasic α] (x : α) :
    Reads (unpackBasicValue α) x (Basic.store x) := by
  intro rest
  refine (field_bind (LawfulBasic.length_store x) _ _).trans ?_
  dsimp only
  rw [LawfulBasic.load_store]

theorem reads_octets (s : OctetString) : Reads unpackOctets s s.bytes := by
  intro rest
  have fits := s.fits
  rw [sizeVal] at fits
  have len : (UInt32.ofNat s.val.length).toNat = s.val.length := by
    rw [UInt32.toNat_ofNat']
    omega
  have same : OctetString.ofBytes s.val = s := by
    rw [OctetString.ofBytes, OctetString.mk.injEq]
    exact take_of_length_le (Nat.le_of_lt_succ fits)
  rw [OctetString.bytes, append_assoc]
  refine (field_bind (length_store32 _) _ _).trans ?_
  refine (field_bind (by rw [load32_store32, len]) _ _).trans ?_
  dsimp only
  rw [same]

variable {f : α → List UInt8}

theorem reads_member {mem : Option α}
    {present : Bool} (flag : present = mem.isSome) (each : ∀ x ∈ mem, Reads unpack x (f x)) :
    Reads (unpackMember present unpack) mem (memberBytes f mem) := by
  intro rest
  cases mem with
  | none =>
    rw [flag]
    rfl
  | some x =>
    rw [flag]
    exact (each x rfl).step rfl

theorem reads_times {list : List α} (each : ∀ x ∈ list, Reads unpack x (f x)) :
    Reads (unpackTimes unpack list.length) list (list.flatMap f) := by
  induction list with
  | nil => exact fun rest => rfl
  | cons x xs ih =>
    obtain ⟨first, others⟩ := forall_mem_cons.mp each
    intro rest
    rw [flatMap_cons, append_assoc, length_cons, unpackTimes]
    exact first.step ((ih others).step rfl)

theorem reads_list {l : GxList α}
    (each : ∀ x ∈ l.list, Reads unpack x (f x)) : Reads (unpackList unpack) l (l.bytes f) := by
  intro rest
  have fits := l.fits
  have count : (load32 (store32 (.ofNat l.list.length))).toNat = l.list.length := by
    rw [load32_store32, UInt32.toNat_ofNat']
    omega
  refine (field_bind (length_store32 _) _ _).trans ?_
  dsimp only
  rw [count, if_pos fits]
  refine (reads_times each).step ?_
  rw [dif_pos fits]

theorem reads_octetList {l : GxList OctetString} (filled : l.list ≠ []) :
    Reads (fun rest => if rest.length ≤ 4 then none else unpackList unpackOctets rest) l
      (l.bytes OctetString.bytes) := by
  intro rest
  have long : ¬(l.bytes OctetString.bytes ++ rest).length ≤ 4 := by
    obtain ⟨s, list, elements⟩ := exists_cons_of_ne_nil filled
    simp only [GxList.bytes, elements, flatMap_cons, OctetString.bytes, length_append,
      length_store32]
    omega
  refine (if_neg long).trans ?_
  exact reads_list (fun s _ => reads_octets s) rest

section

variable {present : Bool} {α : Type}

theorem reads_basicMember [Basic α] [LawfulBasic α] {mem : Option α}
    (flag : present = mem.isSome) : Reads (unpackBasic α present) mem (memberBytes Basic.store mem) :=
  reads_member flag fun x _ => reads_basic x

theorem reads_octetString {mem : Option OctetString} (flag : present = mem.isSome) :
    Reads (unpackOctetString present) mem (memberBytes OctetString.bytes mem) :=
  reads_member flag fun s _ => reads_octets s

theorem reads_listBasic [Basic α] [LawfulBasic α] {mem : Option (GxList α)}
    (flag : present = mem.isSome) :
    Reads (unpackListBasic α present) mem (memberBytes (GxList.bytes Basic.store) mem) :=
  reads_member flag fun _ _ => reads_list fun x _ => reads_basic x

theorem reads_listOctetString {mem : Option (GxList OctetString)} (flag : present = mem.isSome)
    (filled : ∀ l ∈ mem, l.list ≠ []) :
    Reads (unpackListOctetString present) mem
      (memberBytes (GxList.bytes OctetString.bytes) mem) :=
  reads_member flag fun l given => reads_octetList (filled l given)

theorem reads_absent {unpack : Unpacker α} {mem : Option α} (flag : present = mem.isSome)
    (absent : mem = none) : Reads (unpackMember present unpack) mem [] := by
  intro rest
  rw [flag, absent]
  rfl

end

end

section

variable {α : Type}

theorem calclenBasic_eq [Basic α] [LawfulBasic α] (mem : Option α) :
    calclenBasic mem = .ofNat (memberBytes Basic.store mem).length := by
  cases mem with
  | none => rfl
  | some x => exact congrArg UInt32.ofNat (LawfulBasic.length_store x).symm

theorem length_octets (s : OctetString) : s.bytes.length = 4 + s.val.length := by
  rw [OctetString.bytes, length_append, length_store32]

theorem calclenOctetString_eq (mem : Option OctetString) :
    calclenOctetString mem = .ofNat (memberBytes OctetString.bytes mem).length := by
  cases mem with
  | none => rfl
  | some s => exact congrArg UInt32.ofNat (length_octets s).symm

section

variable {calcfunc : α → UInt32} {f : α → List UInt8} (each : ∀ x, calcfunc x = .ofNat (f x).length)

include each

theorem foldl_calcfunc (list : List α) (n : Nat) :
    list.foldl (fun length x => length + calcfunc x) (.ofNat n) =
      UInt32.ofNat (n + (list.flatMap f).length) := by
  induction list generalizing n with
  | nil => rfl
  | cons x xs ih =>
    rw [foldl_cons, each, ← UInt32.ofNat_add, ih, flatMap_cons, length_append, Nat.add_assoc]

theorem calclenListStruct_eq (mem : Option (GxList α)) :
    calclenListStruct calcfunc mem = .ofNat (memberBytes (GxList.bytes f) mem).length := by
  cases mem with
  | none => rfl
  | some l =>
    refine (foldl_calcfunc each l.list 4).trans ?_
    rw [memberBytes, elim_some, GxList.bytes, length_append, length_store32]

end

theorem calclenListOctetString_eq (mem : Option (GxList OctetString)) :
    calclenListOctetString mem =
      .ofNat (memberBytes (GxList.bytes OctetString.bytes) mem).length :=
  calclenListStruct_eq (fun s => congrArg UInt32.ofNat (length_octets s).symm) mem

theorem length_flatMap_store [Basic α] [LawfulBasic α] (list : List α) :
    (list.flatMap Basic.store).length = Basic.size α * list.length := by
  induction list with
  | nil => rfl
  | cons x xs ih =>
    rw [flatMap_cons, length_append, LawfulBasic.length_store, ih, length_cons,
      Nat.mul_succ, Nat.add_comm]

theorem calclenListBasic_eq [Basic α] [LawfulBasic α] (mem : Option (GxList α)) :
    calclenListBasic mem = .ofNat (memberBytes (GxList.bytes Basic.store) mem).length := by
  cases mem with
  | none => rfl
  | some l =>
    rw [memberBytes, elim_some, GxList.bytes, length_append, length_store32, length_flatMap_store]
    rfl

theorem calclenStruct_none (calcfunc : α → UInt32) : calclenStruct calcfunc none = 0 := rfl

theorem calclenListStruct_none (calcfunc : α → UInt32) :
    calclenListStruct calcfunc none = 0 := rfl

end

namespace ChargingRuleRemove

variable (data : ChargingRuleRemove)

def chunks : List (List UInt8) :=
  [store32 (presenceWord data.presence),
    memberBytes (GxList.bytes OctetString.bytes) data.chargingRuleName,
    memberBytes (GxList.bytes OctetString.bytes) data.chargingRuleBaseName,
    memberBytes (GxList.bytes Basic.store) data.requiredAccessInfo,
    memberBytes Basic.store data.resourceReleaseNotification]

def bytes : List UInt8 := data.chunks.flatten

theorem calcLength_eq : data.calcLength = .ofNat data.bytes.length := by
  simp only [calcLength, calclenListOctetString_eq, calclenListBasic_eq, calclenBasic_eq, bytes, chunks,
    flatten_cons, flatten_nil, append_nil, length_append, length_store32,
    UInt32.ofNat_add, UInt32.add_assoc]
  rfl

theorem appends_pack : Appends data.pack data.bytes :=
  appends_packAll
    (.cons (appends_write _)
      (.cons (appends_listOctetString _)
        (.cons (appends_listOctetString _)
          (.cons (appends_listBasic _)
            (.cons (appends_basic _) .nil)))))

structure Filled : Prop where
  chargingRuleName : ∀ l ∈ data.chargingRuleName, l.list ≠ []
  chargingRuleBaseName : ∀ l ∈ data.chargingRuleBaseName, l.list ≠ []
  requiredAccessInfo : ∀ l ∈ data.requiredAccessInfo, l.list ≠ []

variable {data}

theorem reads_unpack (filled : data.Filled) : Reads unpack data data.bytes := by
  have bit := flag_presenceWord data.presence (Nat.le_of_ble_eq_true rfl)
  intro rest
  simp only [bytes, chunks, flatten_cons, flatten_nil, append_assoc, nil_append]
  refine (reads_presence _).step ?_
  refine (reads_listOctetString (bit 0) filled.chargingRuleName).step ?_
  refine (reads_listOctetString (bit 1) filled.chargingRuleBaseName).step ?_
  refine (reads_listBasic (bit 2)).step ?_
  refine (reads_basicMember (bit 3)).step ?_
  rfl

end ChargingRuleRemove

namespace GxRar

variable {Struct : Type}

/-- Members not modelled are absent, present lists are not empty. -/
structure Plain (data : GxRar Struct) : Prop where
  ocSupportedFeatures : data.ocSupportedFeatures = none
  eventReportIndication : data.eventReportIndication = none
  chargingRuleInstall : data.chargingRuleInstall = none
  defaultEpsBearerQos : data.defaultEpsBearerQos = none
  qosInformation : data.qosInformation = none
  defaultQosInformation : data.defaultQosInformation = none
  usageMonitoringInformation : data.usageMonitoringInformation = none
  conditionalPolicyInformation : data.conditionalPolicyInformation = none
  praInstall : data.praInstall = none
  praRemove : data.praRemove = none
  proxyInfo : data.proxyInfo = none
  eventTrigger : ∀ l ∈ data.eventTrigger, l.list ≠ []
  chargingRuleRemove : ∀ l ∈ data.chargingRuleRemove, l.list ≠ []
  removed : ∀ l ∈ data.chargingRuleRemove, ∀ x ∈ l.list, x.Filled
  csgInformationReporting : ∀ l ∈ data.csgInformationReporting, l.list ≠ []
  routeRecord : ∀ l ∈ data.routeRecord, l.list ≠ []

def chunks (data : GxRar Struct) : List (List UInt8) :=
  [store32 (presenceWord data.presence),
    memberBytes OctetString.bytes data.sessionId,
    memberBytes Basic.store data.drmp,
    memberBytes Basic.store data.authApplicationId,
    memberBytes OctetString.bytes data.originHost,
    memberBytes OctetString.bytes data.originRealm,
    memberBytes OctetString.bytes data.destinationRealm,
    memberBytes OctetString.bytes data.destinationHost,
    memberBytes Basic.store data.reAuthRequestType,
    memberBytes Basic.store data.sessionReleaseCause,
    memberBytes Basic.store data.originStateId,
    [],
    memberBytes (GxList.bytes Basic.store) data.eventTrigger,
    [],
    memberBytes (GxList.bytes ChargingRuleRemove.bytes) data.chargingRuleRemove,
    [],
    [],
    [],
    [],
    memberBytes Basic.store data.revalidationTime,
    [],
    memberBytes Basic.store data.pcscfRestorationIndication,
    [],
    memberBytes Basic.store data.removalOfAccess,
    memberBytes Basic.store data.ipCanType,
    [],
    [],
    memberBytes (GxList.bytes Basic.store) data.csgInformationReporting,
    [],
    memberBytes (GxList.bytes OctetString.bytes) data.routeRecord]

def bytes (data : GxRar Struct) : List UInt8 := data.chunks.flatten

def size (data : GxRar Struct) : Nat := 4 + data.bytes.length

variable {data : GxRar Struct} (functions : RarStruct → StructFunctions Struct) (request : data.Plain)

include request

theorem calcLength_eq : data.calcLength functions = .ofNat data.size := by
  simp only [calcLength, calclenListOctetString_eq, calclenListBasic_eq, calclenBasic_eq,
    calclenOctetString_eq, calclenListStruct_eq ChargingRuleRemove.calcLength_eq, calclenStruct_none,
    calclenListStruct_none, request.ocSupportedFeatures, request.eventReportIndication,
    request.chargingRuleInstall, request.defaultEpsBearerQos, request.qosInformation,
    request.defaultQosInformation, request.usageMonitoringInformation,
    request.conditionalPolicyInformation, request.praInstall, request.praRemove, request.proxyInfo,
    UInt32.add_zero]
  simp only [size, bytes, chunks, flatten_cons, flatten_nil, nil_append, append_nil,
    length_append, length_store32, UInt32.ofNat_add, UInt32.add_assoc]
  rfl

theorem appends_packers : Appends (packAll (data.packers functions)) data.bytes := by
  refine appends_packAll ?_
  repeat' first | exact Forall₂.nil | refine Forall₂.cons ?_ ?_
  all_goals first
    | exact appends_write _
    | exact appends_octetString _
    | exact appends_basic _
    | exact appends_listOctetString _
    | exact appends_listBasic _
    | exact appends_list ChargingRuleRemove.appends_pack _
    | exact appends_absent (by cases request; assumption)

theorem reads_unpackMembers : Reads (unpackMembers functions) data data.bytes := by
  have bit := flag_presenceWord data.presence (Nat.le_of_ble_eq_true rfl)
  intro rest
  simp only [bytes, chunks, flatten_cons, flatten_nil, append_assoc, append_nil]
  refine (reads_presence _).step ?_
  refine (reads_octetString (bit 0)).step ?_
  refine (reads_basicMember (bit 1)).step ?_
  refine (reads_basicMember (bit 2)).step ?_
  refine (reads_octetString (bit 3)).step ?_
  refine (reads_octetString (bit 4)).step ?_
  refine (reads_octetString (bit 5)).step ?_
  refine (reads_octetString (bit 6)).step ?_
  refine (reads_basicMember (bit 7)).step ?_
  refine (reads_basicMember (bit 8)).step ?_
  refine (reads_basicMember (bit 9)).step ?_
  refine (reads_absent (bit 10) request.ocSupportedFeatures).step ?_
  refine (reads_listBasic (bit 11)).step ?_
  refine (reads_absent (bit 12) request.eventReportIndication).step ?_
  refine (reads_member (bit 13) fun l mem => reads_list fun x element =>
    ChargingRuleRemove.reads_unpack (request.removed l mem x element)).step ?_
  refine (reads_absent (bit 14) request.chargingRuleInstall).step ?_
  refine (reads_absent (bit 15) request.defaultEpsBearerQos).step ?_
  refine (reads_absent (bit 16) request.qosInformation).step ?_
  refine (reads_absent (bit 17) request.defaultQosInformation).step ?_
  refine (reads_basicMember (bit 18)).step ?_
  refine (reads_absent (bit 19) request.usageMonitoringInformation).step ?_
  refine (reads_basicMember (bit 20)).step ?_
  refine (reads_absent (bit 21) request.conditionalPolicyInformation).step ?_
  refine (reads_basicMember (bit 22)).step ?_
  refine (reads_basicMember (bit 23)).step ?_
  refine (reads_absent (bit 24) request.praInstall).step ?_
  refine (reads_absent (bit 25) request.praRemove).step ?_
  refine (reads_listBasic (bit 26)).step ?_
  refine (reads_absent (bit 27) request.proxyInfo).step ?_
  refine (reads_listOctetString (bit 28) request.routeRecord).step ?_
  rfl

omit request in
theorem four_le_length_bytes (data : GxRar Struct) : 4 ≤ data.bytes.length := by
  rw [bytes, chunks, flatten_cons, length_append, length_store32]
  exact Nat.le_add_right _ _

theorem pack_zeros (n : Nat) :
    data.pack functions (zeros n) =
      if data.size = n then some (store32 (.ofNat data.size) ++ data.bytes) else none := by
  have some_bytes := four_le_length_bytes data
  have front : (zeros n).take 4 = zeros (min 4 n) := by
    rw [zeros, take_replicate]
    rfl
  have ahead : (zeros n).drop 4 = zeros (n - 4) := by
    rw [zeros, drop_replicate]
    rfl
  rw [pack, front, ahead, appends_packers functions request]
  by_cases room : data.bytes.length ≤ n - 4
  · have four : min 4 n = 4 := by omega
    rw [if_pos room]
    change (if zeros (n - 4 - data.bytes.length) = [] then
      some (store32 (.ofNat (zeros (min 4 n) ++ data.bytes).length) ++
        (zeros (min 4 n) ++ data.bytes).drop 4) else none) = _
    have length : (zeros 4).length = 4 := rfl
    rw [four, drop_left' length, length_append, length, ← size]
    refine if_congr ?_ rfl rfl
    rw [zeros, replicate_eq_nil_iff, size]
    omega
  · rw [if_neg room, if_neg (by rw [size]; omega)]
    rfl

theorem pack_isSome_iff :
    (∃ buf, data.pack functions (zeros (data.calcLength functions).toNat) = some buf) ↔
      data.size < 2 ^ 32 := by
  rw [pack_zeros functions request, calcLength_eq functions request, UInt32.toNat_ofNat']
  constructor
  · rintro ⟨buf, packed⟩
    by_cases same : data.size = data.size % 2 ^ 32
    · rw [same]
      exact Nat.mod_lt _ (by decide)
    · rw [if_neg same] at packed
      cases packed
  · intro small
    rw [if_pos (Nat.mod_eq_of_lt small).symm]
    exact ⟨_, rfl⟩

theorem unpack_bytes (small : data.size < 2 ^ 32) :
    unpack functions (store32 (.ofNat data.size) ++ data.bytes) = some data := by
  have length : (load32 (store32 (.ofNat data.size))).toNat = data.size := by
    rw [load32_store32, UInt32.toNat_ofNat', Nat.mod_eq_of_lt small]
  have whole : (store32 (.ofNat data.size) ++ data.bytes).length = data.size := by
    rw [length_append, length_store32, size]
  refine (field_bind (length_store32 _) _ _).trans ?_
  dsimp only
  rw [length, take_of_length_le whole.le, drop_left' (length_store32 _)]
  have members := reads_unpackMembers functions request []
  rw [append_nil] at members
  rw [members]
  change (if ([] : List UInt8) = [] then some data else none) = some data
  exact if_pos rfl

end GxRar

/-- A request is packed into a zeroed buffer of its computed length, and unpacked to what it was,
exactly if its packed size is a 32-bit number. -/
theorem gxRar_roundTrip_iff {Struct : Type} (functions : RarStruct → StructFunctions Struct)
    (data : GxRar Struct) (request : data.Plain) :
    (∃ buf, data.pack functions (zeros (data.calcLength functions).toNat) = some buf ∧
      GxRar.unpack functions buf = some data) ↔ data.size < 2 ^ 32 := by
  constructor
  · rintro ⟨buf, packed, -⟩
    exact (GxRar.pack_isSome_iff functions request).mp ⟨buf, packed⟩
  · intro small
    obtain ⟨buf, packed⟩ := (GxRar.pack_isSome_iff functions request).mpr small
    refine ⟨buf, packed, ?_⟩
    rw [GxRar.pack_zeros functions request] at packed
    obtain ⟨-, same⟩ := ite_none_right_eq_some.mp packed
    cases same
    exact GxRar.unpack_bytes functions request small

def noStructs (_ : RarStruct) : StructFunctions Empty where
  calcLength := nofun
  pack := nofun
  unpack := fun _ => none

def removeRules : ChargingRuleRemove where
  chargingRuleName := some ⟨[⟨[114, 49], by decide⟩, ⟨[114, 50], by decide⟩], by decide⟩
  chargingRuleBaseName := none
  requiredAccessInfo := none
  resourceReleaseNotification := some 0

def removalRar : GxRar Empty where
  sessionId := some ⟨[115, 59, 49], by decide⟩
  authApplicationId := some 16777238
  reAuthRequestType := some 0
  eventTrigger := some ⟨[2, 13], by decide⟩
  chargingRuleRemove := some ⟨[removeRules], by decide⟩
  revalidationTime := some (-1)
  routeRecord := some ⟨[⟨[112], by decide⟩], by decide⟩

theorem plain_removalRar : removalRar.Plain := by
  constructor <;> simp [removalRar]
  constructor <;> simp [removeRules]

theorem gxRar_roundTrip_removalRar :
    removalRar.Plain ∧
      ∃ buf, removalRar.pack noStructs (zeros (removalRar.calcLength noStructs).toNat) = some buf ∧
        GxRar.unpack noStructs buf = some removalRar :=
  ⟨plain_removalRar, (gxRar_roundTrip_iff noStructs removalRar plain_removalRar).mpr (by decide)⟩

def manyEvents : Nat := 2 ^ 30

def longEvents : GxList Int32 where
  list := List.replicate manyEvents 0
  fits := by
    rw [List.length_replicate]
    decide

theorem length_longEvents : (GxList.bytes Basic.store longEvents).length = 4 + 2 ^ 32 := by
  have count : longEvents.list.length = manyEvents := length_replicate
  have word : Basic.size Int32 = 4 := rfl
  rw [GxList.bytes, length_append, length_store32, length_flatMap_store, count, word, manyEvents]
  norm_num

def longRar : GxRar Empty where
  eventTrigger := some longEvents

theorem manyEvents_ne_zero : manyEvents ≠ 0 := by
  decide

theorem plain_longRar : longRar.Plain := by
  constructor <;> simp [longRar, longEvents, manyEvents_ne_zero]

/-- The computed length of the request overflows, and it is not packed. -/
theorem longRar_not_packed :
    longRar.Plain ∧
      ¬∃ buf, longRar.pack noStructs (zeros (longRar.calcLength noStructs).toNat) = some buf ∧
        GxRar.unpack noStructs buf = some longRar := by
  refine ⟨plain_longRar, fun ⟨buf, packed, _⟩ => ?_⟩
  have small := (GxRar.pack_isSome_iff noStructs plain_longRar).mp ⟨buf, packed⟩
  have chunk : GxList.bytes Basic.store longEvents ∈ longRar.chunks := by
    iterate 12 refine .tail _ ?_
    exact .head _
  have long : 4 + 2 ^ 32 ≤ longRar.bytes.length :=
    length_longEvents.ge.trans (sublist_flatten_of_mem chunk).length_le
  rw [GxRar.size] at small
  omega

end Epc.Gx

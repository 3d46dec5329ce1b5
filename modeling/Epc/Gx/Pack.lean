import Epc.Lib.Bytes

/-! Packing of Gx messages into the buffers that the Gx application exchanges with the control plane
(`cp/gx_app/src/gx_pack.c`): the length, packing and unpacking of a member of each kind, and of the
Re-Auth-Request with its Charging-Rule-Remove. A member is `none` where its presence flag is not set. The
functions of the other structures of the request are parameters. -/

namespace Epc.Gx

open Epc.Lib.Bytes

/-- A type that is copied as it is in memory. -/
class Basic (α : Type) where
  size : Nat
  store : α → List UInt8
  load : List UInt8 → α

instance basicUInt32 : Basic UInt32 where
  size := 4
  store := store32
  load := load32

instance basicInt32 : Basic Int32 where
  size := 4
  store := fun x => store32 x.toUInt32
  load := fun bytes => (load32 bytes).toInt32

/-- `FdTime`. -/
instance basicInt64 : Basic Int64 where
  size := 8
  store := fun x => store64 x.toUInt64
  load := fun bytes => (load64 bytes).toInt64

/-- The size of the `val` array of every octet string. -/
def sizeVal : Nat := 256

/-- An octet string, which leaves room for the terminator. -/
structure OctetString where
  val : List UInt8
  fits : val.length < sizeVal
  deriving DecidableEq

/-- A list whose count is an `int32_t`. -/
structure GxList (α : Type) where
  list : List α
  fits : list.length < 2 ^ 31
  deriving DecidableEq

/-- The flags of a presence structure as bits, the first the lowest. -/
def bits : List Bool → Nat
  | [] => 0
  | b :: bs => b.toNat + 2 * bits bs

def presenceWord (flags : List Bool) : UInt32 := .ofNat (bits flags)

def flag (presence : UInt32) (i : Nat) : Bool := presence.toNat.testBit i

section

def calclenBasic {α : Type} [Basic α] (member : Option α) : UInt32 :=
  member.elim 0 fun _ => .ofNat (Basic.size α)

def calclenOctetString (member : Option OctetString) : UInt32 :=
  member.elim 0 fun s => .ofNat (4 + s.val.length)

def calclenStruct {α : Type} (calcfunc : α → UInt32) (member : Option α) : UInt32 :=
  member.elim 0 calcfunc

def calclenListBasic {α : Type} [Basic α] (member : Option (GxList α)) : UInt32 :=
  member.elim 0 fun l => .ofNat (4 + Basic.size α * l.list.length)

def calclenListStruct {α : Type} (calcfunc : α → UInt32) (member : Option (GxList α)) : UInt32 :=
  member.elim 0 fun l => l.list.foldl (fun length x => length + calcfunc x) 4

def calclenListOctetString (member : Option (GxList OctetString)) : UInt32 :=
  calclenListStruct (fun s => .ofNat (4 + s.val.length)) member

end

section

/-- Where packing stands in the buffer: the bytes up to the offset and those ahead. -/
structure Cursor where
  done : List UInt8
  ahead : List UInt8
  deriving DecidableEq, Repr

/-- The bytes are written if there is room, and 0 is returned otherwise. -/
def Cursor.write (c : Cursor) (bytes : List UInt8) : Option Cursor :=
  if bytes.length ≤ c.ahead.length then
    some ⟨c.done ++ bytes, c.ahead.drop bytes.length⟩
  else none

abbrev Packer : Type := Cursor → Option Cursor

def packAll (packers : List Packer) : Packer := fun c => packers.foldlM (fun c packer => packer c) c

def packPresence (flags : List Bool) : Packer := fun c => c.write (store32 (presenceWord flags))

def packBasic {α : Type} [Basic α] (member : Option α) : Packer :=
  member.elim some fun x c => c.write (Basic.store x)

def packOctetString (member : Option OctetString) : Packer :=
  member.elim some fun s c => c.write (store32 (.ofNat s.val.length) ++ s.val)

def packStruct {α : Type} (packfunc : α → Packer) (member : Option α) : Packer :=
  member.elim some packfunc

/-- The count and then the elements. -/
def packListStruct {α : Type} (packfunc : α → Packer) (member : Option (GxList α)) : Packer :=
  member.elim some fun l =>
    packAll ((fun c => c.write (store32 (.ofNat l.list.length))) :: l.list.map packfunc)

def packListBasic {α : Type} [Basic α] (member : Option (GxList α)) : Packer :=
  packListStruct (fun x c => c.write (Basic.store x)) member

/-- The length of an element is added to what the buffer holds. -/
def packListOctetString (member : Option (GxList OctetString)) : Packer :=
  packListStruct
    (fun s c => c.write (store32 (load32 (c.ahead.take 4) + .ofNat s.val.length) ++ s.val)) member

end

section

/-- The state is the buffer from the offset on; `none` is a return of 0 or a read past the length.
-/
abbrev Unpacker (α : Type) : Type := List UInt8 → Option (α × List UInt8)

def unpackPresence : Unpacker UInt32 := fun rest => do
  let (bytes, rest) ← field 4 rest
  some (load32 bytes, rest)

def unpackMember {α : Type} (present : Bool) (unpack : Unpacker α) : Unpacker (Option α) := fun rest =>
  if present then do
    let (x, rest) ← unpack rest
    some (some x, rest)
  else some (none, rest)

def unpackBasicValue (α : Type) [Basic α] : Unpacker α := fun rest => do
  let (bytes, rest) ← field (Basic.size α) rest
  some (Basic.load bytes, rest)

def unpackBasic (α : Type) [Basic α] (present : Bool) : Unpacker (Option α) :=
  unpackMember present (unpackBasicValue α)

/-- The first bytes of an octet string, as many as its array has room for. -/
def OctetString.ofBytes (bytes : List UInt8) : OctetString where
  val := bytes.take (sizeVal - 1)
  fits := Nat.lt_of_le_of_lt (List.length_take_le _ _) (by decide)

def unpackOctets : Unpacker OctetString := fun rest => do
  let (len, rest) ← field 4 rest
  let (bytes, rest) ← field (load32 len).toNat rest
  some (.ofBytes bytes, rest)

def unpackOctetString (present : Bool) : Unpacker (Option OctetString) :=
  unpackMember present unpackOctets

def unpackStruct {α : Type} (present : Bool) (unpack : Unpacker α) : Unpacker (Option α) :=
  unpackMember present unpack

def unpackTimes {α : Type} (unpack : Unpacker α) : Nat → Unpacker (List α)
  | 0, rest => some ([], rest)
  | n + 1, rest => do
      let (x, rest) ← unpack rest
      let (xs, rest) ← unpackTimes unpack n rest
      some (x :: xs, rest)

/-- The count and as many elements; no memory is allocated for a negative count. -/
def unpackList {α : Type} (unpack : Unpacker α) : Unpacker (GxList α) := fun rest => do
  let (count, rest) ← field 4 rest
  if (load32 count).toNat < 2 ^ 31 then
    let (list, rest) ← unpackTimes unpack (load32 count).toNat rest
    if fits : list.length < 2 ^ 31 then some (⟨list, fits⟩, rest) else none
  else none

def unpackListStruct {α : Type} (present : Bool) (unpack : Unpacker α) : Unpacker (Option (GxList α)) :=
  unpackMember present (unpackList unpack)

def unpackListBasic (α : Type) [Basic α] (present : Bool) : Unpacker (Option (GxList α)) :=
  unpackListStruct present (unpackBasicValue α)

/-- The check before the count is one byte too strict. -/
def unpackListOctetString (present : Bool) : Unpacker (Option (GxList OctetString)) :=
  unpackMember present fun rest => if rest.length ≤ 4 then none else unpackList unpackOctets rest

end

structure ChargingRuleRemove where
  chargingRuleName : Option (GxList OctetString)
  chargingRuleBaseName : Option (GxList OctetString)
  requiredAccessInfo : Option (GxList Int32)
  resourceReleaseNotification : Option Int32
  deriving DecidableEq

namespace ChargingRuleRemove

def presence (data : ChargingRuleRemove) : List Bool :=
  [data.chargingRuleName.isSome, data.chargingRuleBaseName.isSome, data.requiredAccessInfo.isSome,
    data.resourceReleaseNotification.isSome]

def calcLength (data : ChargingRuleRemove) : UInt32 :=
  4 + calclenListOctetString data.chargingRuleName +
    calclenListOctetString data.chargingRuleBaseName +
    calclenListBasic data.requiredAccessInfo +
    calclenBasic data.resourceReleaseNotification

def pack (data : ChargingRuleRemove) : Packer :=
  packAll
    [packPresence data.presence,
      packListOctetString data.chargingRuleName,
      packListOctetString data.chargingRuleBaseName,
      packListBasic data.requiredAccessInfo,
      packBasic data.resourceReleaseNotification]

def unpack : Unpacker ChargingRuleRemove := fun rest => do
  let (presence, rest) ← unpackPresence rest
  let (chargingRuleName, rest) ← unpackListOctetString (flag presence 0) rest
  let (chargingRuleBaseName, rest) ← unpackListOctetString (flag presence 1) rest
  let (requiredAccessInfo, rest) ← unpackListBasic Int32 (flag presence 2) rest
  let (resourceReleaseNotification, rest) ← unpackBasic Int32 (flag presence 3) rest
  some
    (⟨chargingRuleName, chargingRuleBaseName, requiredAccessInfo, resourceReleaseNotification⟩, rest)

end ChargingRuleRemove

/-- The members of the request whose structures are not modelled. -/
inductive RarStruct where
  | ocSupportedFeatures
  | eventReportIndication
  | chargingRuleInstall
  | defaultEpsBearerQos
  | qosInformation
  | defaultQosInformation
  | usageMonitoringInformation
  | conditionalPolicyInformation
  | praInstall
  | praRemove
  | proxyInfo
  deriving DecidableEq, Repr

structure StructFunctions (α : Type) where
  calcLength : α → UInt32
  pack : α → Packer
  unpack : Unpacker α

structure GxRar (Struct : Type) where
  sessionId : Option OctetString := none
  drmp : Option Int32 := none
  authApplicationId : Option UInt32 := none
  originHost : Option OctetString := none
  originRealm : Option OctetString := none
  destinationRealm : Option OctetString := none
  destinationHost : Option OctetString := none
  reAuthRequestType : Option Int32 := none
  sessionReleaseCause : Option Int32 := none
  originStateId : Option UInt32 := none
  ocSupportedFeatures : Option Struct := none
  eventTrigger : Option (GxList Int32) := none
  eventReportIndication : Option Struct := none
  chargingRuleRemove : Option (GxList ChargingRuleRemove) := none
  chargingRuleInstall : Option (GxList Struct) := none
  defaultEpsBearerQos : Option Struct := none
  qosInformation : Option (GxList Struct) := none
  defaultQosInformation : Option Struct := none
  revalidationTime : Option Int64 := none
  usageMonitoringInformation : Option (GxList Struct) := none
  pcscfRestorationIndication : Option UInt32 := none
  conditionalPolicyInformation : Option (GxList Struct) := none
  removalOfAccess : Option Int32 := none
  ipCanType : Option Int32 := none
  praInstall : Option Struct := none
  praRemove : Option Struct := none
  csgInformationReporting : Option (GxList Int32) := none
  proxyInfo : Option (GxList Struct) := none
  routeRecord : Option (GxList OctetString) := none

namespace GxRar

variable {Struct : Type} (functions : RarStruct → StructFunctions Struct)

def presence (data : GxRar Struct) : List Bool :=
  [data.sessionId.isSome, data.drmp.isSome, data.authApplicationId.isSome, data.originHost.isSome,
    data.originRealm.isSome, data.destinationRealm.isSome, data.destinationHost.isSome,
    data.reAuthRequestType.isSome, data.sessionReleaseCause.isSome, data.originStateId.isSome,
    data.ocSupportedFeatures.isSome, data.eventTrigger.isSome, data.eventReportIndication.isSome,
    data.chargingRuleRemove.isSome, data.chargingRuleInstall.isSome, data.defaultEpsBearerQos.isSome,
    data.qosInformation.isSome, data.defaultQosInformation.isSome, data.revalidationTime.isSome,
    data.usageMonitoringInformation.isSome, data.pcscfRestorationIndication.isSome,
    data.conditionalPolicyInformation.isSome, data.removalOfAccess.isSome, data.ipCanType.isSome,
    data.praInstall.isSome, data.praRemove.isSome, data.csgInformationReporting.isSome,
    data.proxyInfo.isSome, data.routeRecord.isSome]

def calcLength (data : GxRar Struct) : UInt32 :=
  4 + 4 + calclenOctetString data.sessionId +
    calclenBasic data.drmp +
    calclenBasic data.authApplicationId +
    calclenOctetString data.originHost +
    calclenOctetString data.originRealm +
    calclenOctetString data.destinationRealm +
    calclenOctetString data.destinationHost +
    calclenBasic data.reAuthRequestType +
    calclenBasic data.sessionReleaseCause +
    calclenBasic data.originStateId +
    calclenStruct (functions .ocSupportedFeatures).calcLength data.ocSupportedFeatures +
    calclenListBasic data.eventTrigger +
    calclenStruct (functions .eventReportIndication).calcLength data.eventReportIndication +
    calclenListStruct ChargingRuleRemove.calcLength data.chargingRuleRemove +
    calclenListStruct (functions .chargingRuleInstall).calcLength data.chargingRuleInstall +
    calclenStruct (functions .defaultEpsBearerQos).calcLength data.defaultEpsBearerQos +
    calclenListStruct (functions .qosInformation).calcLength data.qosInformation +
    calclenStruct (functions .defaultQosInformation).calcLength data.defaultQosInformation +
    calclenBasic data.revalidationTime +
    calclenListStruct (functions .usageMonitoringInformation).calcLength
      data.usageMonitoringInformation +
    calclenBasic data.pcscfRestorationIndication +
    calclenListStruct (functions .conditionalPolicyInformation).calcLength
      data.conditionalPolicyInformation +
    calclenBasic data.removalOfAccess +
    calclenBasic data.ipCanType +
    calclenStruct (functions .praInstall).calcLength data.praInstall +
    calclenStruct (functions .praRemove).calcLength data.praRemove +
    calclenListBasic data.csgInformationReporting +
    calclenListStruct (functions .proxyInfo).calcLength data.proxyInfo +
    calclenListOctetString data.routeRecord

def packers (data : GxRar Struct) : List Packer :=
  [packPresence data.presence,
    packOctetString data.sessionId,
    packBasic data.drmp,
    packBasic data.authApplicationId,
    packOctetString data.originHost,
    packOctetString data.originRealm,
    packOctetString data.destinationRealm,
    packOctetString data.destinationHost,
    packBasic data.reAuthRequestType,
    packBasic data.sessionReleaseCause,
    packBasic data.originStateId,
    packStruct (functions .ocSupportedFeatures).pack data.ocSupportedFeatures,
    packListBasic data.eventTrigger,
    packStruct (functions .eventReportIndication).pack data.eventReportIndication,
    packListStruct ChargingRuleRemove.pack data.chargingRuleRemove,
    packListStruct (functions .chargingRuleInstall).pack data.chargingRuleInstall,
    packStruct (functions .defaultEpsBearerQos).pack data.defaultEpsBearerQos,
    packListStruct (functions .qosInformation).pack data.qosInformation,
    packStruct (functions .defaultQosInformation).pack data.defaultQosInformation,
    packBasic data.revalidationTime,
    packListStruct (functions .usageMonitoringInformation).pack data.usageMonitoringInformation,
    packBasic data.pcscfRestorationIndication,
    packListStruct (functions .conditionalPolicyInformation).pack data.conditionalPolicyInformation,
    packBasic data.removalOfAccess,
    packBasic data.ipCanType,
    packStruct (functions .praInstall).pack data.praInstall,
    packStruct (functions .praRemove).pack data.praRemove,
    packListBasic data.csgInformationReporting,
    packListStruct (functions .proxyInfo).pack data.proxyInfo,
    packListOctetString data.routeRecord]

/-- `gx_rar_pack`: the buffer if 1 is returned; the offset ends at the front. -/
def pack (data : GxRar Struct) (buf : List UInt8) : Option (List UInt8) := do
  let c ← packAll (data.packers functions) ⟨buf.take 4, buf.drop 4⟩
  if c.ahead = [] then
    some (store32 (.ofNat c.done.length) ++ c.done.drop 4)
  else none

def unpackMembers : Unpacker (GxRar Struct) := fun rest => do
  let (presence, rest) ← unpackPresence rest
  let (sessionId, rest) ← unpackOctetString (flag presence 0) rest
  let (drmp, rest) ← unpackBasic Int32 (flag presence 1) rest
  let (authApplicationId, rest) ← unpackBasic UInt32 (flag presence 2) rest
  let (originHost, rest) ← unpackOctetString (flag presence 3) rest
  let (originRealm, rest) ← unpackOctetString (flag presence 4) rest
  let (destinationRealm, rest) ← unpackOctetString (flag presence 5) rest
  let (destinationHost, rest) ← unpackOctetString (flag presence 6) rest
  let (reAuthRequestType, rest) ← unpackBasic Int32 (flag presence 7) rest
  let (sessionReleaseCause, rest) ← unpackBasic Int32 (flag presence 8) rest
  let (originStateId, rest) ← unpackBasic UInt32 (flag presence 9) rest
  let (ocSupportedFeatures, rest) ←
    unpackStruct (flag presence 10) (functions .ocSupportedFeatures).unpack rest
  let (eventTrigger, rest) ← unpackListBasic Int32 (flag presence 11) rest
  let (eventReportIndication, rest) ←
    unpackStruct (flag presence 12) (functions .eventReportIndication).unpack rest
  let (chargingRuleRemove, rest) ← unpackListStruct (flag presence 13) ChargingRuleRemove.unpack rest
  let (chargingRuleInstall, rest) ←
    unpackListStruct (flag presence 14) (functions .chargingRuleInstall).unpack rest
  let (defaultEpsBearerQos, rest) ←
    unpackStruct (flag presence 15) (functions .defaultEpsBearerQos).unpack rest
  let (qosInformation, rest) ←
    unpackListStruct (flag presence 16) (functions .qosInformation).unpack rest
  let (defaultQosInformation, rest) ←
    unpackStruct (flag presence 17) (functions .defaultQosInformation).unpack rest
  let (revalidationTime, rest) ← unpackBasic Int64 (flag presence 18) rest
  let (usageMonitoringInformation, rest) ←
    unpackListStruct (flag presence 19) (functions .usageMonitoringInformation).unpack rest
  let (pcscfRestorationIndication, rest) ← unpackBasic UInt32 (flag presence 20) rest
  let (conditionalPolicyInformation, rest) ←
    unpackListStruct (flag presence 21) (functions .conditionalPolicyInformation).unpack rest
  let (removalOfAccess, rest) ← unpackBasic Int32 (flag presence 22) rest
  let (ipCanType, rest) ← unpackBasic Int32 (flag presence 23) rest
  let (praInstall, rest) ← unpackStruct (flag presence 24) (functions .praInstall).unpack rest
  let (praRemove, rest) ← unpackStruct (flag presence 25) (functions .praRemove).unpack rest
  let (csgInformationReporting, rest) ← unpackListBasic Int32 (flag presence 26) rest
  let (proxyInfo, rest) ← unpackListStruct (flag presence 27) (functions .proxyInfo).unpack rest
  let (routeRecord, rest) ← unpackListOctetString (flag presence 28) rest
  some
    ({ sessionId, drmp, authApplicationId, originHost, originRealm, destinationRealm, destinationHost,
        reAuthRequestType, sessionReleaseCause, originStateId, ocSupportedFeatures, eventTrigger,
        eventReportIndication, chargingRuleRemove, chargingRuleInstall, defaultEpsBearerQos,
        qosInformation, defaultQosInformation, revalidationTime, usageMonitoringInformation,
        pcscfRestorationIndication, conditionalPolicyInformation, removalOfAccess, ipCanType,
        praInstall, praRemove, csgInformationReporting, proxyInfo, routeRecord }, rest)

/-- `gx_rar_unpack`: the request if 1 is returned. -/
def unpack (buf : List UInt8) : Option (GxRar Struct) := do
  let (length, _) ← field 4 buf
  let (data, rest) ← unpackMembers functions ((buf.take (load32 length).toNat).drop 4)
  if rest = [] then some data else none

end GxRar

end Epc.Gx

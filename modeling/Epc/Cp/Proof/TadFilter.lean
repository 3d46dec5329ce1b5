import Epc.Cp.Tad
import Epc.Cp.Proof.TftFilter
import Mathlib.Algebra.BigOperators.Group.Finset.Basic
import Mathlib.Algebra.Order.BigOperators.Group.Finset

/-! One packet filter of a traffic aggregate description: its octets, what they are decoded to, and
when an entry of the packet filter information describes the filter. -/

namespace Epc.Cp

open Epc.Lib.Text Epc.Lib.Bytes
open Option hiding or_self

inductive ComponentType where
  | ipv4Local
  | ipv4Remote
  | ipv6Local
  | ipv6Remote
  | protocol
  | localPort
  | localPortRange
  | remotePort
  | remotePortRange
  deriving DecidableEq, Repr

instance ComponentType.fintype : Fintype ComponentType :=
  Fintype.ofList
    [.ipv4Local, .ipv4Remote, .ipv6Local, .ipv6Remote, .protocol, .localPort, .localPortRange,
      .remotePort, .remotePortRange]
    fun type => by cases type <;> decide

inductive Component where
  | ipv4Local (address mask : Vector UInt8 4)
  | ipv4Remote (address mask : Vector UInt8 4)
  | ipv6Local (address : Vector UInt8 16) (prefixLen : UInt8)
  | ipv6Remote (address : Vector UInt8 16) (prefixLen : UInt8)
  | protocol (identifier : UInt8)
  | localPort (port : UInt16)
  | localPortRange (low high : UInt16)
  | remotePort (port : UInt16)
  | remotePortRange (low high : UInt16)
  deriving DecidableEq

def portRangeOctets (portType : UInt8) (low high : UInt16) : List UInt8 :=
  portOctets portType low ++ [(high >>> 8).toUInt8, high.toUInt8]

def ComponentType.size : ComponentType → Nat
  | .ipv4Local | .ipv4Remote => 9
  | .ipv6Local | .ipv6Remote => 18
  | .protocol => 2
  | .localPort | .remotePort => 3
  | .localPortRange | .remotePortRange => 5

namespace Component

def type : Component → ComponentType
  | ipv4Local .. => .ipv4Local
  | ipv4Remote .. => .ipv4Remote
  | ipv6Local .. => .ipv6Local
  | ipv6Remote .. => .ipv6Remote
  | protocol .. => .protocol
  | localPort .. => .localPort
  | localPortRange .. => .localPortRange
  | remotePort .. => .remotePort
  | remotePortRange .. => .remotePortRange

def octets : Component → List UInt8
  | ipv4Local address mask => tftIpv4SrcAddrType :: address.toList ++ mask.toList
  | ipv4Remote address mask => tftIpv4RemoteAddrType :: address.toList ++ mask.toList
  | ipv6Local address prefixLen => tftIpv6SrcAddrPrefixLenType :: address.toList ++ [prefixLen]
  | ipv6Remote address prefixLen => tftIpv6RemoteAddrPrefixLenType :: address.toList ++ [prefixLen]
  | protocol identifier => [tftProtoIdentifierNextHeaderType, identifier]
  | localPort port => portOctets tftSingleSrcPortType port
  | localPortRange low high => portRangeOctets tftDestPortRangeType low high
  | remotePort port => portOctets tftSingleRemotePortType port
  | remotePortRange low high => portRangeOctets tftSrcPortRangeType low high

def apply : Component → TadPktFltr → TadPktFltr
  | ipv4Local address mask, t =>
    { t with
      localIpAddr := address.toList
      localIpMask := maskSum mask.toList t.localIpMask
      v4 := 1 }
  | ipv4Remote address mask, t =>
    { t with
      remoteIpAddr := address.toList
      remoteIpMask := maskSum mask.toList t.remoteIpMask
      v4 := 1 }
  | ipv6Local address prefixLen, t =>
    { t with localIp6Addr := address.toList, localIpMask := prefixLen, v6 := 1 }
  | ipv6Remote address prefixLen, t =>
    { t with remoteIp6Addr := address.toList, remoteIpMask := prefixLen, v6 := 1 }
  | protocol identifier, t => { t with protoId := identifier }
  | localPort port, t => { t with localPortLow := port, localPortHigh := port }
  | localPortRange low high, t => { t with localPortLow := low, localPortHigh := high }
  | remotePort port, t => { t with remotePortLow := port, remotePortHigh := port }
  | remotePortRange low high, t => { t with remotePortLow := low, remotePortHigh := high }

def isAddress (c : Component) : Bool :=
  match c.type with
  | .ipv4Local | .ipv4Remote | .ipv6Local | .ipv6Remote => true
  | _ => false

def protocol? : Component → Option UInt8
  | protocol identifier => some identifier
  | _ => none

@[simp]
theorem length_octets (c : Component) : c.octets.length = c.type.size := by
  cases c <;> simp [octets, type, ComponentType.size, portRangeOctets, portOctets]

section

variable {buf rest : List UInt8} {index : Nat}

theorem bufPort_of_range {type : UInt8} {low high : UInt16}
    (here : buf.drop index = portRangeOctets type low high ++ rest) :
    buf.getD index 0 = type ∧ bufPort buf (index + 1) = low ∧ bufPort buf (index + 3) = high := by
  rw [portRangeOctets, List.append_assoc] at here
  obtain ⟨type_eq, low_eq⟩ := port_of_drop here
  exact ⟨type_eq, low_eq, bufPort_of_octets (drop_of_drop here)⟩

theorem ipv4_of_component {type : UInt8} {address mask : Vector UInt8 4}
    (here : buf.drop index = (type :: address.toList ++ mask.toList) ++ rest) :
    buf.getD index 0 = type ∧ bufOctets buf (index + 1) 4 = address.toList ∧
      ∀ start, bufMask buf (index + 5) start = maskSum mask.toList start := by
  obtain ⟨type_eq, address_eq, mask_eq⟩ := address_of_drop here
  simp only [Vector.length_toList] at address_eq mask_eq
  refine ⟨type_eq, address_eq, fun start => ?_⟩
  simp only [bufMask, mask_eq, maskSum]

theorem ipv6_of_component {type prefixLen : UInt8} {address : Vector UInt8 16}
    (here : buf.drop index = (type :: address.toList ++ [prefixLen]) ++ rest) :
    buf.getD index 0 = type ∧ bufOctets buf (index + 1) 16 = address.toList ∧
      buf.getD (index + 17) 0 = prefixLen := by
  obtain ⟨type_eq, address_eq, -⟩ := address_of_drop here
  rw [Vector.length_toList] at address_eq
  refine ⟨type_eq, address_eq, ?_⟩
  rw [getD_of_drop here 17 (by simp)]
  simp

end

theorem reads (c : Component) : ReadsAs c.octets c.apply := by
  have long : ∀ type : ComponentType, 2 ≤ type.size := by decide
  refine ⟨by rw [length_octets]; exact long c.type, fun buf index t rest here => ?_⟩
  have last : index + (c.octets.length - 1) = index + (c.type.size - 1) := by rw [length_octets]
  rw [last]
  cases c with
  | ipv4Local address mask | ipv4Remote address mask =>
    obtain ⟨type_eq, address_eq, mask_eq⟩ := ipv4_of_component here
    simp only [tadComponent, type_eq, address_eq, mask_eq]
    rfl
  | ipv6Local address prefixLen | ipv6Remote address prefixLen =>
    obtain ⟨type_eq, address_eq, prefix_eq⟩ := ipv6_of_component here
    simp only [tadComponent, type_eq, address_eq, prefix_eq]
    rfl
  | protocol identifier => exact (proto_reads identifier).2 buf index t rest here
  | localPort port | remotePort port =>
    obtain ⟨type_eq, port_eq⟩ := port_of_drop here
    simp only [tadComponent, type_eq, port_eq]
    rfl
  | localPortRange low high | remotePortRange low high =>
    obtain ⟨type_eq, low_eq, high_eq⟩ := bufPort_of_range here
    simp only [tadComponent, type_eq, low_eq, high_eq]
    rfl

end Component

instance neZero_four : NeZero 4 := ⟨by decide⟩

/-- A packet filter of a description: no component type occurs twice. -/
structure PacketFilter where
  identifier : Fin 16
  direction : Fin 4
  precedence : UInt8
  components : List Component
  distinct : (components.map Component.type).Nodup

namespace PacketFilter

def content (f : PacketFilter) : List UInt8 :=
  (f.components.map Component.octets).flatten

def octets (f : PacketFilter) : List UInt8 :=
  [UInt8.ofNat (f.identifier + 16 * f.direction), f.precedence, UInt8.ofNat f.content.length] ++
    f.content

def header (f : PacketFilter) : TadPktFltr :=
  { TadPktFltr.zero with
    pcktFltrId := UInt8.ofNat f.identifier
    pcktFltrDir := UInt8.ofNat f.direction
    precedence := f.precedence }

def decoded (f : PacketFilter) : TadPktFltr :=
  f.components.foldl (fun t c => c.apply t) f.header

def protocolText (f : PacketFilter) : List Char :=
  match f.components.findSome? Component.protocol? with
  | none => "ip".toList
  | some identifier => decimal identifier.toNat

def flowDescription (f : PacketFilter) : Option (List Char) :=
  f.decoded.flowText ("permit out ".toList ++ f.protocolText ++ " from".toList)

theorem content_length (f : PacketFilter) :
    f.content.length = ((f.components.map Component.type).map ComponentType.size).sum := by
  simp [content, List.length_flatten, Function.comp_def]

theorem content_length_le (f : PacketFilter) : f.content.length ≤ 72 := by
  rw [content_length, ← List.sum_toFinset _ f.distinct]
  calc ((f.components.map Component.type).toFinset).sum ComponentType.size
      ≤ Finset.univ.sum ComponentType.size := Finset.sum_le_sum_of_subset (Finset.subset_univ _)
    _ = 72 := by decide

theorem length_octets (f : PacketFilter) : f.octets.length = f.content.length + 3 := by
  rfl

theorem components_length_le (f : PacketFilter) : f.components.length ≤ f.content.length := by
  rw [content]
  induction f.components with
  | nil => exact Nat.le_refl _
  | cons c cs ih =>
    have long := c.reads.1
    simp only [List.map_cons, List.flatten_cons, List.length_append, List.length_cons]
    omega

theorem header_octet (id : Fin 16) (dir : Fin 4) :
    UInt8.ofNat (id + 16 * dir) &&& 0x0f = UInt8.ofNat id ∧
      (UInt8.ofNat (id + 16 * dir) >>> 4) &&& 0x03 = UInt8.ofNat dir := by
  revert id dir
  decide

theorem parse_octets (f : PacketFilter) (rest : List UInt8) :
    parseTadPacketFilter (f.octets ++ rest) = f.decoded := by
  have bound := f.content_length_le
  have total : (UInt8.ofNat f.content.length + 2).toNat = f.content.length + 2 := by
    change (f.content.length % 256 + 2) % 256 = _
    omega
  obtain ⟨id_eq, direction_eq⟩ := header_octet f.identifier f.direction
  have zeroth : (f.octets ++ rest).getD 0 0 = UInt8.ofNat (f.identifier + 16 * f.direction) := rfl
  have first : (f.octets ++ rest).getD 1 0 = f.precedence := rfl
  have second : (f.octets ++ rest).getD 2 0 = UInt8.ofNat f.content.length := rfl
  simp only [parseTadPacketFilter, zeroth, first, second, id_eq, direction_eq, total,
    if_pos (show 0 < f.content.length + 2 by omega), if_pos (show 1 < f.content.length + 2 by omega)]
  let readers := f.components.map fun c => (c.octets, c.apply)
  have firsts : (readers.map Prod.fst).flatten = f.content := by
    simp [readers, content, Function.comp_def]
  have reads : ∀ r ∈ readers, ReadsAs r.1 r.2 := by
    simp only [readers, List.mem_map]
    rintro _ ⟨c, -, rfl⟩
    exact c.reads
  have enough : readers.length ≤ f.content.length + 2 := by
    have few := f.components_length_le
    simp only [readers, List.length_map]
    omega
  rw [tadLoop_reads readers reads _ (by rw [firsts]; rfl) (by rw [firsts]; omega) enough]
  simp only [readers, List.foldl_map]
  rfl

section

variable (f : PacketFilter)

theorem foldl_apply_header (cs : List Component) (t : TadPktFltr) :
    (cs.foldl (fun t c => c.apply t) t).pcktFltrId = t.pcktFltrId ∧
      (cs.foldl (fun t c => c.apply t) t).pcktFltrDir = t.pcktFltrDir ∧
      (cs.foldl (fun t c => c.apply t) t).precedence = t.precedence := by
  induction cs generalizing t with
  | nil => exact ⟨rfl, rfl, rfl⟩
  | cons c cs ih =>
    obtain ⟨id, direction, precedence⟩ := ih (c.apply t)
    rw [List.foldl_cons, id, direction, precedence]
    cases c <;> exact ⟨rfl, rfl, rfl⟩

theorem decoded_id : f.decoded.pcktFltrId = UInt8.ofNat f.identifier :=
  (foldl_apply_header f.components f.header).1

theorem decoded_direction : f.decoded.pcktFltrDir = UInt8.ofNat f.direction :=
  (foldl_apply_header f.components f.header).2.1

theorem decoded_precedence : f.decoded.precedence = f.precedence :=
  (foldl_apply_header f.components f.header).2.2

theorem addressTexts_isSome (t : TadPktFltr) : t.addressTexts.isSome = true ↔ t.v4 ≠ 0 ∨ t.v6 ≠ 0 := by
  unfold TadPktFltr.addressTexts
  by_cases v4 : t.v4 ≠ 0
  · simp [v4]
  · by_cases v6 : t.v6 ≠ 0 <;> simp [v4, v6]

theorem foldl_apply_family (cs : List Component) (t : TadPktFltr) :
    ((cs.foldl (fun t c => c.apply t) t).v4 ≠ 0 ∨ (cs.foldl (fun t c => c.apply t) t).v6 ≠ 0) ↔
      (t.v4 ≠ 0 ∨ t.v6 ≠ 0) ∨ cs.any Component.isAddress = true := by
  induction cs generalizing t with
  | nil => simp
  | cons c cs ih =>
    rw [List.foldl_cons, ih, List.any_cons]
    cases c <;> simp [Component.apply, Component.isAddress, Component.type]

theorem decoded_addressTexts :
    f.decoded.addressTexts.isSome = true ↔ f.components.any Component.isAddress = true := by
  rw [addressTexts_isSome, decoded, foldl_apply_family]
  simp [header, TadPktFltr.zero]

end

end PacketFilter

theorem directions (dir : Fin 4) :
    (UInt8.ofNat dir = tftDirectionDownlinkOnly ∨ UInt8.ofNat dir = tftDirectionBidirectional) ∨
      UInt8.ofNat dir = tftDirectionUplinkOnly ↔ dir ≠ 0 := by
  revert dir
  decide

theorem flowText_isSome (start : List Char) (f : PacketFilter) :
    (f.decoded.flowText start).isSome = true ↔
      f.direction ≠ 0 ∧ f.components.any Component.isAddress = true := by
  rw [← f.decoded_addressTexts, ← directions, TadPktFltr.flowText, f.decoded_direction]
  cases f.decoded.addressTexts with
  | none => simp
  | some texts =>
    simp only [bind_some, isSome_some, and_true]
    split
    · next down => simp only [isSome_some, down, true_or]
    · next down =>
        split
        · next up => simp only [isSome_some, up, or_true]
        · next up => simp only [isSome_none, Bool.false_eq_true, down, up, or_self]

theorem flowText_eq (start : List Char) (t : TadPktFltr) :
    t.flowText start = (t.flowText []).map (start ++ ·) := by
  unfold TadPktFltr.flowText
  cases t.addressTexts with
  | none => rfl
  | some texts =>
    split
    · rfl
    · split <;> rfl

theorem protocolText_eq_ip_iff (f : PacketFilter) :
    f.protocolText = "ip".toList ↔ f.components.findSome? Component.protocol? = none := by
  unfold PacketFilter.protocolText
  cases f.components.findSome? Component.protocol? with
  | none => simp
  | some identifier =>
    refine ⟨fun eq => ?_, nofun⟩
    replace eq : decimal identifier.toNat = "ip".toList := eq
    have letter : 'i' ∈ decimal identifier.toNat := by rw [eq]; decide
    exact absurd letter (notMem_decimal (by decide) _)

theorem flowText_ip_iff (f : PacketFilter) (old : List Char) :
    f.flowDescription = some ((f.decoded.flowText "permit out ip from".toList).getD old) ↔
      f.direction ≠ 0 ∧ f.components.any Component.isAddress = true ∧
        f.components.findSome? Component.protocol? = none := by
  rw [← and_assoc, ← flowText_isSome [], ← protocolText_eq_ip_iff, PacketFilter.flowDescription,
    flowText_eq _ f.decoded, flowText_eq "permit out ip from".toList]
  cases f.decoded.flowText [] with
  | none => simp
  | some text =>
    simp only [map_some, getD_some, some.injEq, isSome_some, true_and]
    rw [List.append_left_inj]
    have split : "permit out ip from".toList =
        "permit out ".toList ++ "ip".toList ++ " from".toList := by decide
    rw [split, List.append_left_inj, List.append_right_inj]

/-- The entry has identifier, direction, precedence and flow of the filter and nothing else. -/
structure Describes (e : GxPacketFilterInformation) (f : PacketFilter) : Prop where
  presence : e.presence = {
    packetFilterIdentifier := true
    precedence := true
    packetFilterContent := true
    flowDirection := true }
  identifier : e.packetFilterIdentifier = [UInt8.ofNat f.identifier]
  direction : e.flowDirection = f.direction.val
  precedence : e.precedence = f.precedence.toUInt32
  content : f.flowDescription = some e.packetFilterContent

structure Names (e : GxPacketFilterInformation) (packetId : UInt8) : Prop where
  presence : e.presence = { packetFilterIdentifier := true }
  identifier : e.packetFilterIdentifier = [packetId]

/-- The text has room for it: it has a direction and an address and no protocol. -/
structure PacketFilter.Expressible (f : PacketFilter) : Prop where
  direction : f.direction ≠ 0
  address : f.components.any Component.isAddress = true
  protocol : f.components.findSome? Component.protocol? = none

/-- Memory that is clear where `fill_packet_fltr_info_avp` writes nothing. -/
structure GxPacketFilterInformation.Clear (e : GxPacketFilterInformation) : Prop where
  precedence : e.precedence.toNat < 256
  tosTrafficClass : e.presence.tosTrafficClass = false
  securityParameterIndex : e.presence.securityParameterIndex = false
  flowLabel : e.presence.flowLabel = false

structure GxPacketFilterInformation.Unmarked (e : GxPacketFilterInformation) : Prop where
  precedence : e.presence.precedence = false
  packetFilterContent : e.presence.packetFilterContent = false
  tosTrafficClass : e.presence.tosTrafficClass = false
  securityParameterIndex : e.presence.securityParameterIndex = false
  flowLabel : e.presence.flowLabel = false
  flowDirection : e.presence.flowDirection = false

theorem load32_octet_iff (octet : UInt8) (old : UInt32) :
    load32 (octet :: (store32 old).tail) = octet.toUInt32 ↔ old.toNat < 256 := by
  have bound := old.toNat_lt
  have low := octet.toNat_lt
  have tail : (store32 old).tail = memory 3 (old.toNat / 256) := rfl
  have rest : value (memory 3 (old.toNat / 256)) = old.toNat / 256 := value_memory (by omega)
  rw [load32, tail, value, rest, ← UInt32.toNat_inj, UInt32.toNat_ofNat', UInt8.toNat_toUInt32]
  omega

theorem describes_filterEntry_iff {buf rest : List UInt8} {place : Nat} {f : PacketFilter}
    (here : buf.drop place = f.octets ++ rest) (raw : GxPacketFilterInformation) :
    Describes (filterEntry buf place raw) f ↔ f.Expressible ∧ raw.Clear := by
  have parsed : parseTadPacketFilter (buf.drop place) = f.decoded := by rw [here, f.parse_octets]
  have direction : (f.decoded.pcktFltrDir.toNat : Int) = f.direction.val := by
    rw [f.decoded_direction, UInt8.toNat_ofNat']
    omega
  have octet := load32_octet_iff f.precedence raw.precedence
  constructor
  · intro describes
    obtain ⟨presence, -, -, precedence, content⟩ := describes
    simp only [filterEntry, fillPacketFltrInfoAvp, parsed, f.decoded_precedence]
      at presence precedence content
    obtain ⟨dir, address, protocol⟩ := (flowText_ip_iff f _).mp content
    simp only [PacketFilterPresence.mk.injEq, true_and, and_true] at presence
    exact ⟨⟨dir, address, protocol⟩,
      ⟨octet.mp precedence, presence.1, presence.2.1, presence.2.2⟩⟩
  · rintro ⟨⟨dir, address, protocol⟩, clear⟩
    have content := (flowText_ip_iff f raw.packetFilterContent).mpr ⟨dir, address, protocol⟩
    simp only [filterEntry, fillPacketFltrInfoAvp, parsed]
    refine ⟨?_, by rw [f.decoded_id], direction, ?_, content⟩
    · simp only [clear.tosTrafficClass, clear.securityParameterIndex, clear.flowLabel]
    · rw [f.decoded_precedence]
      exact octet.mpr clear.precedence

theorem names_namedEntry_iff (packetId : UInt8) (raw : GxPacketFilterInformation) :
    Names (namedEntry packetId raw) packetId ↔ raw.Unmarked := by
  constructor
  · rintro ⟨presence, -⟩
    simp only [namedEntry, PacketFilterPresence.mk.injEq, true_and] at presence
    obtain ⟨precedence, content, tos, spi, label, direction⟩ := presence
    exact ⟨precedence, content, tos, spi, label, direction⟩
  · intro unmarked
    refine ⟨?_, rfl⟩
    simp only [namedEntry, unmarked.precedence, unmarked.packetFilterContent,
      unmarked.tosTrafficClass, unmarked.securityParameterIndex, unmarked.flowLabel,
      unmarked.flowDirection]

end Epc.Cp

import Epc.Cp.Tft

/-! One packet filter of a traffic flow template: what `parse_tad_packet_filter` makes of the octets
that `set_bearer_tft` writes for a flow description. -/

namespace Epc.Cp

open List Option

structure FlowSide where
  ip : List UInt8
  mask : UInt8
  portLow : UInt16
  portHigh : UInt16

namespace SdfPktFltr

def localSide (f : SdfPktFltr) : FlowSide :=
  { ip := f.ulocalip, mask := f.localIpMask, portLow := f.localPortLow, portHigh := f.localPortHigh }

def remoteSide (f : SdfPktFltr) : FlowSide :=
  { ip := f.uremoteip, mask := f.remoteIpMask, portLow := f.remotePortLow,
    portHigh := f.remotePortHigh }

def srcSide (f : SdfPktFltr) : FlowSide :=
  if f.direction = tftDirectionDownlinkOnly then f.localSide else f.remoteSide

def destSide (f : SdfPktFltr) : FlowSide :=
  if f.direction = tftDirectionDownlinkOnly then f.remoteSide else f.localSide

end SdfPktFltr

theorem filterComponents_eq (f : SdfPktFltr) :
    filterComponents f =
      (addressOctets f tftIpv4SrcAddrType tftIpv6SrcAddrPrefixLenType f.srcSide.ip
        f.srcSide.mask).bind fun src =>
      (addressOctets f tftIpv4RemoteAddrType tftIpv6RemoteAddrPrefixLenType f.destSide.ip
        f.destSide.mask).bind fun remote =>
      some ([tftProtoIdentifierNextHeaderType, f.protoId] ++
        portOctets tftSingleRemotePortType f.destSide.portLow ++
        portOctets tftSingleSrcPortType f.srcSide.portLow ++ src ++ remote) := by
  unfold filterComponents SdfPktFltr.srcSide SdfPktFltr.destSide
  by_cases downlink : f.direction = tftDirectionDownlinkOnly
  · simp only [downlink, if_true]
    rfl
  · simp only [downlink, if_false]
    rfl

section

/-- A component that the reader takes in one round, and what it does to the filter. -/
def ReadsAs (octets : List UInt8) (update : TadPktFltr → TadPktFltr) : Prop :=
  2 ≤ octets.length ∧
    ∀ buf index t rest, buf.drop index = octets ++ rest →
      tadComponent buf index t = (update t, index + (octets.length - 1))

variable {buf octets rest : List UInt8} {index : Nat} {port : UInt16} {type : UInt8}

section

variable (here : buf.drop index = octets ++ rest)

include here

theorem getD_of_drop (i : Nat) (h : i < octets.length) : buf.getD (index + i) 0 = octets[i] := by
  have eq := congrArg (·[i]?) here
  simp only [getElem?_drop, getElem?_append_left h, getElem?_eq_getElem h] at eq
  rw [getD_eq_getElem?_getD, eq, getD_some]

theorem drop_of_drop : buf.drop (index + octets.length) = rest := by
  rw [← drop_drop, here, drop_left]

theorem bufOctets_of_drop : bufOctets buf index octets.length = octets := by
  apply ext_getElem
  · simp [bufOctets]
  · intro i _ h
    simp only [bufOctets, getElem_map, getElem_range]
    exact getD_of_drop here i h

end

theorem port_of_octets (port : UInt16) :
    (port >>> 8).toUInt8.toUInt16 <<< 8 ||| port.toUInt8.toUInt16 = port := by
  apply UInt16.toNat_inj.mp
  have bound := port.toNat_lt
  have high : port.toNat >>> 8 % 2 ^ 8 = port.toNat / 2 ^ 8 := by
    omega
  have fits : port.toNat / 2 ^ 8 * 2 ^ 8 < 2 ^ 16 := by omega
  change (port.toNat >>> 8 % 2 ^ 8) <<< 8 % 2 ^ 16 ||| port.toNat % 2 ^ 8 = port.toNat
  rw [high, Nat.shiftLeft_eq, Nat.mod_eq_of_lt fits, Nat.mul_comm,
    ← Nat.two_pow_add_eq_or_of_lt (Nat.mod_lt _ (by decide))]
  omega

def readMask (mask : UInt8) : UInt8 :=
  mask / 8 * 8

def maskSum (octets : List UInt8) (mask : UInt8) : UInt8 :=
  octets.foldl (fun mask octet => if octet = 0xff then mask + 8 else mask) mask

theorem maskSum_add (octets : List UInt8) (mask : UInt8) :
    maskSum octets mask = mask + maskSum octets 0 := by
  induction octets generalizing mask with
  | nil => simp [maskSum]
  | cons octet octets ih =>
    have step : ∀ start, maskSum (octet :: octets) start =
        maskSum octets (if octet = 0xff then start + 8 else start) := fun _ => rfl
    rw [step, step, ih]
    split
    · rw [ih (0 + 8), UInt8.zero_add, UInt8.add_assoc]
    · rfl

theorem ipv4MaskOctets_read (mask : UInt8) :
    (ipv4MaskOctets mask).all (fun octets => octets.length == 4 && maskSum octets 0 == readMask mask)
      = true := by
  obtain ⟨⟨n⟩⟩ := mask
  revert n
  decide +kernel

theorem bufPort_of_octets (here : buf.drop index = [(port >>> 8).toUInt8, port.toUInt8] ++ rest) :
    bufPort buf index = port := by
  have high := getD_of_drop here 0 (by simp)
  have low := getD_of_drop here 1 (by simp)
  simp only [Nat.add_zero] at high
  simp only [bufPort, high, low]
  exact port_of_octets port

theorem port_of_drop (here : buf.drop index = portOctets type port ++ rest) :
    buf.getD index 0 = type ∧ bufPort buf (index + 1) = port := by
  have parts : buf.drop index = [type] ++ ([(port >>> 8).toUInt8, port.toUInt8] ++ rest) := here
  exact ⟨getD_of_drop here 0 (by simp [portOctets]), bufPort_of_octets (drop_of_drop parts)⟩

theorem proto_reads (protoId : UInt8) :
    ReadsAs [tftProtoIdentifierNextHeaderType, protoId] fun t => { t with protoId } := by
  refine ⟨by simp, fun buf index t rest here => ?_⟩
  have type : buf.getD index 0 = tftProtoIdentifierNextHeaderType := getD_of_drop here 0 (by simp)
  have value : buf.getD (index + 1) 0 = protoId := getD_of_drop here 1 (by simp)
  simp only [tadComponent, type, value]
  rfl

theorem port_reads {update : TadPktFltr → TadPktFltr}
    (component : ∀ buf index t, buf.getD index 0 = type ∧ bufPort buf (index + 1) = port →
      tadComponent buf index t = (update t, index + 2)) :
    ReadsAs (portOctets type port) update :=
  ⟨by simp [portOctets], fun buf index t _ here => component buf index t (port_of_drop here)⟩

@[simp] theorem length_ipOctets (ip : List UInt8) (count : Nat) :
    (ipOctets ip count).length = count := by
  simp [ipOctets]

theorem address_of_drop {address suffix : List UInt8}
    (here : buf.drop index = (type :: address ++ suffix) ++ rest) :
    buf.getD index 0 = type ∧ bufOctets buf (index + 1) address.length = address ∧
      bufOctets buf (index + (address.length + 1)) suffix.length = suffix := by
  have first : buf.drop index = [type] ++ (address ++ (suffix ++ rest)) := by simpa using here
  have second := drop_of_drop first
  have third := drop_of_drop second
  refine ⟨getD_of_drop first 0 (by simp), bufOctets_of_drop second, ?_⟩
  rw [Nat.add_comm address.length 1, ← Nat.add_assoc]
  exact bufOctets_of_drop third

def srcAddress (f : SdfPktFltr) (side : FlowSide) (t : TadPktFltr) : TadPktFltr :=
  if f.v4 ≠ 0 then
    { t with
      localIpAddr := ipOctets side.ip 4
      localIpMask := t.localIpMask + readMask side.mask
      v4 := 1 }
  else { t with localIp6Addr := ipOctets side.ip 16, localIpMask := side.mask, v6 := 1 }

def remoteAddress (f : SdfPktFltr) (side : FlowSide) (t : TadPktFltr) : TadPktFltr :=
  if f.v4 ≠ 0 then
    { t with
      remoteIpAddr := ipOctets side.ip 4
      remoteIpMask := t.remoteIpMask + readMask side.mask
      v4 := 1 }
  else { t with remoteIp6Addr := ipOctets side.ip 16, remoteIpMask := side.mask, v6 := 1 }

theorem ipv4_of_drop {type mask : UInt8} {ip maskOctets : List UInt8}
    (defined : ipv4MaskOctets mask = some maskOctets)
    (here : buf.drop index = (type :: ipOctets ip 4 ++ maskOctets) ++ rest) :
    buf.getD index 0 = type ∧ bufOctets buf (index + 1) 4 = ipOctets ip 4 ∧
      maskOctets.length = 4 ∧
      ∀ start, bufMask buf (index + 5) start = start + readMask mask := by
  have read := ipv4MaskOctets_read mask
  simp only [defined, all_some, Bool.and_eq_true, beq_iff_eq] at read
  obtain ⟨type_eq, address_eq, mask_eq⟩ := address_of_drop here
  simp only [length_ipOctets, read.1] at address_eq mask_eq
  refine ⟨type_eq, address_eq, read.1, fun start => ?_⟩
  calc bufMask buf (index + 5) start = maskSum maskOctets start := by
        simp only [bufMask, mask_eq, maskSum]
    _ = start + readMask mask := by rw [maskSum_add, read.2]

theorem ipv6_of_drop {type mask : UInt8} {ip : List UInt8}
    (here : buf.drop index = (type :: ipOctets ip 16 ++ [mask]) ++ rest) :
    buf.getD index 0 = type ∧ bufOctets buf (index + 1) 16 = ipOctets ip 16 ∧
      buf.getD (index + 17) 0 = mask := by
  obtain ⟨type_eq, address_eq, -⟩ := address_of_drop here
  refine ⟨type_eq, address_eq, ?_⟩
  rw [getD_of_drop here 17 (by simp)]
  simp

theorem srcAddress_reads {f : SdfPktFltr} {side : FlowSide} (family : f.v4 ≠ 0 ∨ f.v6 ≠ 0)
    (written : addressOctets f tftIpv4SrcAddrType tftIpv6SrcAddrPrefixLenType side.ip side.mask =
      some octets) :
    ReadsAs octets (srcAddress f side) := by
  by_cases v4 : f.v4 ≠ 0
  · simp only [addressOctets, if_pos v4, map_eq_some_iff] at written
    obtain ⟨maskOctets, defined, rfl⟩ := written
    refine ⟨by simp [Nat.add_assoc]; omega, fun buf index t rest here => ?_⟩
    obtain ⟨type, address, four, mask⟩ := ipv4_of_drop defined here
    simp only [tadComponent, type, address, mask, srcAddress, if_pos v4]
    simp [four]
  · have v6 : f.v6 ≠ 0 := family.resolve_left v4
    simp only [addressOctets, if_neg v4, if_pos v6, some.injEq] at written
    subst written
    refine ⟨by simp, fun buf index t rest here => ?_⟩
    obtain ⟨type, address, mask⟩ := ipv6_of_drop here
    simp only [tadComponent, type, address, mask, srcAddress, if_neg v4]
    simp [tftIpv6SrcAddrPrefixLenType, tftIpv4SrcAddrType]

theorem remoteAddress_reads {f : SdfPktFltr} {side : FlowSide} (family : f.v4 ≠ 0 ∨ f.v6 ≠ 0)
    (written : addressOctets f tftIpv4RemoteAddrType tftIpv6RemoteAddrPrefixLenType side.ip
      side.mask = some octets) :
    ReadsAs octets (remoteAddress f side) := by
  by_cases v4 : f.v4 ≠ 0
  · simp only [addressOctets, if_pos v4, map_eq_some_iff] at written
    obtain ⟨maskOctets, defined, rfl⟩ := written
    refine ⟨by simp [Nat.add_assoc]; omega, fun buf index t rest here => ?_⟩
    obtain ⟨type, address, four, mask⟩ := ipv4_of_drop defined here
    simp only [tadComponent, type, address, mask, remoteAddress, if_pos v4]
    simp [four, tftIpv4RemoteAddrType, tftIpv4SrcAddrType, tftIpv6SrcAddrPrefixLenType,
      tftIpv6RemoteAddrPrefixLenType]
  · have v6 : f.v6 ≠ 0 := family.resolve_left v4
    simp only [addressOctets, if_neg v4, if_pos v6, some.injEq] at written
    subst written
    refine ⟨by simp, fun buf index t rest here => ?_⟩
    obtain ⟨type, address, mask⟩ := ipv6_of_drop here
    simp only [tadComponent, type, address, mask, remoteAddress, if_neg v4]
    simp [tftIpv4SrcAddrType, tftIpv6SrcAddrPrefixLenType, tftIpv6RemoteAddrPrefixLenType]

theorem tadLoop_reads {total fuel : Nat} (components : List (List UInt8 × (TadPktFltr → TadPktFltr)))
    (reads : ∀ c ∈ components, ReadsAs c.1 c.2) (t : TadPktFltr)
    (here : buf.drop index = (components.map Prod.fst).flatten ++ rest)
    (ends : index + (components.map Prod.fst).flatten.length = total + 1)
    (enough : components.length ≤ fuel) :
    tadLoop buf total fuel index t = components.foldl (fun t c => c.2 t) t := by
  induction components generalizing index fuel t with
  | nil =>
    have stop : ¬ index < total := by
      simp only [map_nil, flatten_nil, length_nil] at ends
      omega
    cases fuel with
    | zero => rfl
    | succ fuel => simp only [tadLoop, if_neg stop, foldl_nil]
  | cons c components ih =>
    obtain ⟨long, read⟩ := reads c (mem_cons_self ..)
    simp only [map_cons, flatten_cons, length_append, append_assoc]
      at here ends
    cases fuel with
    | zero => simp at enough
    | succ fuel =>
      have go : index < total := by omega
      have next : index + (c.1.length - 1) + 1 = index + c.1.length := by omega
      simp only [tadLoop, if_pos go, read buf index t _ here, next, foldl_cons]
      exact ih (fun d mem => reads d (mem_cons_of_mem _ mem)) _ (drop_of_drop here)
        (by omega) (by simpa using enough)

end

section

/-- A packet filter can stand for it: it has a direction and an address family. -/
structure SdfPktFltr.Eligible (f : SdfPktFltr) : Prop where
  direction : f.direction ∈
    [tftDirectionDownlinkOnly, tftDirectionUplinkOnly, tftDirectionBidirectional]
  family : f.v4 ≠ 0 ∨ f.v6 ≠ 0

/-- A filter that was read has the direction, protocol, ports, masks and addresses of the flow. -/
structure Preserved (f : SdfPktFltr) (t : TadPktFltr) : Prop where
  direction : t.pcktFltrDir = f.direction
  protocol : t.protoId = f.protoId
  localPorts : t.localPortLow = f.srcSide.portLow ∧ t.localPortHigh = f.srcSide.portHigh
  remotePorts : t.remotePortLow = f.destSide.portLow ∧ t.remotePortHigh = f.destSide.portHigh
  localMask : t.localIpMask = f.srcSide.mask
  remoteMask : t.remoteIpMask = f.destSide.mask
  addresses :
    if f.v4 ≠ 0 then
      t.v4 = 1 ∧ t.v6 = 0 ∧ t.localIpAddr = ipOctets f.srcSide.ip 4 ∧
        t.remoteIpAddr = ipOctets f.destSide.ip 4
    else
      t.v4 = 0 ∧ t.v6 = 1 ∧ t.localIp6Addr = ipOctets f.srcSide.ip 16 ∧
        t.remoteIp6Addr = ipOctets f.destSide.ip 16

/-- A component can hold the side: one port, and an IPv4 prefix that ends on an octet. -/
def FlowSide.Exact (f : SdfPktFltr) (side : FlowSide) : Prop :=
  side.portLow = side.portHigh ∧ (f.v4 ≠ 0 → side.mask ∈ [8, 16, 24, 32])

def SdfPktFltr.Exact (f : SdfPktFltr) : Prop :=
  f.localSide.Exact f ∧ f.remoteSide.Exact f

theorem SdfPktFltr.exact_iff_sides (f : SdfPktFltr) :
    f.Exact ↔ f.srcSide.Exact f ∧ f.destSide.Exact f := by
  unfold SdfPktFltr.Exact SdfPktFltr.srcSide SdfPktFltr.destSide
  split
  · exact Iff.rfl
  · exact And.comm

def filterOctets (id : Nat) (precedence : UInt32) (f : SdfPktFltr) (components : List UInt8) :
    List UInt8 :=
  [UInt8.ofNat id + directionBits f.direction, precedence.toUInt8,
    UInt8.ofNat components.length] ++ components

def filterLength (f : SdfPktFltr) : Nat :=
  if f.v4 ≠ 0 then 29 else 47

def readFilter (id : Nat) (precedence : UInt32) (f : SdfPktFltr) : TadPktFltr :=
  remoteAddress f f.destSide (srcAddress f f.srcSide
    { TadPktFltr.zero with
      pcktFltrId := UInt8.ofNat id
      pcktFltrDir := f.direction
      precedence := precedence.toUInt8
      protoId := f.protoId
      remotePortLow := f.destSide.portLow
      remotePortHigh := f.destSide.portLow
      localPortLow := f.srcSide.portLow
      localPortHigh := f.srcSide.portLow })

variable {f : SdfPktFltr} {components : List UInt8}

theorem length_addressOctets (family : f.v4 ≠ 0 ∨ f.v6 ≠ 0) {v4Type v6Type mask : UInt8}
    {ip octets : List UInt8} (written : addressOctets f v4Type v6Type ip mask = some octets) :
    octets.length = if f.v4 ≠ 0 then 9 else 18 := by
  by_cases v4 : f.v4 ≠ 0
  · simp only [addressOctets, if_pos v4, map_eq_some_iff] at written
    obtain ⟨maskOctets, defined, rfl⟩ := written
    have read := ipv4MaskOctets_read mask
    simp only [defined, all_some, Bool.and_eq_true, beq_iff_eq] at read
    simp [v4, read.1]
  · simp only [addressOctets, if_neg v4, if_pos (family.resolve_left v4), some.injEq]
      at written
    simp [← written, v4]

theorem length_filterComponents (family : f.v4 ≠ 0 ∨ f.v6 ≠ 0)
    (written : filterComponents f = some components) : 3 + components.length = filterLength f := by
  rw [filterComponents_eq] at written
  simp only [bind_eq_some_iff, some.injEq] at written
  obtain ⟨src, srcWritten, remote, remoteWritten, rfl⟩ := written
  have srcLength := length_addressOctets family srcWritten
  have remoteLength := length_addressOctets family remoteWritten
  simp only [length_append, srcLength, remoteLength, filterLength, portOctets]
  split <;> rfl

theorem header_read {id : Nat} (range : id ∈ List.range' 1 15) (eligible : f.Eligible) :
    (UInt8.ofNat id + directionBits f.direction) &&& 0x0f = UInt8.ofNat id ∧
      ((UInt8.ofNat id + directionBits f.direction) >>> 4) &&& 0x03 = f.direction := by
  have all : ∀ id ∈ List.range' 1 15,
      ∀ direction ∈ [tftDirectionDownlinkOnly, tftDirectionUplinkOnly, tftDirectionBidirectional],
        (UInt8.ofNat id + directionBits direction) &&& 0x0f = UInt8.ofNat id ∧
          ((UInt8.ofNat id + directionBits direction) >>> 4) &&& 0x03 = direction := by
    decide +kernel
  exact all id range f.direction eligible.direction

theorem parse_filterOctets {id : Nat} {precedence : UInt32} (range : id ∈ List.range' 1 15)
    (eligible : f.Eligible) (written : filterComponents f = some components) (rest : List UInt8) :
    parseTadPacketFilter (filterOctets id precedence f components ++ rest) =
      readFilter id precedence f := by
  have length := length_filterComponents eligible.family written
  rw [filterComponents_eq] at written
  simp only [bind_eq_some_iff, some.injEq] at written
  obtain ⟨src, srcWritten, remote, remoteWritten, written⟩ := written
  let readers : List (List UInt8 × (TadPktFltr → TadPktFltr)) :=
    [([tftProtoIdentifierNextHeaderType, f.protoId], fun t => { t with protoId := f.protoId }),
      (portOctets tftSingleRemotePortType f.destSide.portLow, fun t =>
        { t with remotePortLow := f.destSide.portLow, remotePortHigh := f.destSide.portLow }),
      (portOctets tftSingleSrcPortType f.srcSide.portLow, fun t =>
        { t with localPortLow := f.srcSide.portLow, localPortHigh := f.srcSide.portLow }),
      (src, srcAddress f f.srcSide), (remote, remoteAddress f f.destSide)]
  have reads : ∀ c ∈ readers, ReadsAs c.1 c.2 := by
    simp only [readers, forall_mem_cons]
    exact ⟨proto_reads _,
      port_reads fun _ _ _ here => by simp only [tadComponent, here]; rfl,
      port_reads fun _ _ _ here => by simp only [tadComponent, here]; rfl,
      srcAddress_reads eligible.family srcWritten, remoteAddress_reads eligible.family remoteWritten,
      by simp⟩
  have split : components = (readers.map Prod.fst).flatten := by
    simp [readers, ← written]
  have total : (UInt8.ofNat components.length + 2).toNat + 1 = 3 + components.length := by
    have bound : components.length ≤ 44 := by
      unfold filterLength at length
      split at length <;> omega
    change (components.length % 256 + 2) % 256 + 1 = _
    omega
  have many : 26 ≤ components.length := by
    unfold filterLength at length
    split at length <;> omega
  obtain ⟨id_eq, direction_eq⟩ := header_read range eligible
  have here : (filterOctets id precedence f components ++ rest).drop 3 =
      (readers.map Prod.fst).flatten ++ rest := by
    rw [← split]
    rfl
  have zeroth : (filterOctets id precedence f components ++ rest).getD 0 0 =
      UInt8.ofNat id + directionBits f.direction := rfl
  have first : (filterOctets id precedence f components ++ rest).getD 1 0 =
      precedence.toUInt8 := rfl
  have second : (filterOctets id precedence f components ++ rest).getD 2 0 =
      UInt8.ofNat components.length := rfl
  simp only [parseTadPacketFilter, zeroth, first, second, id_eq, direction_eq,
    if_pos (show 0 < (UInt8.ofNat components.length + 2).toNat by omega),
    if_pos (show 1 < (UInt8.ofNat components.length + 2).toNat by omega)]
  rw [tadLoop_reads readers reads _ here (by rw [← split]; omega)
    (show 5 ≤ (UInt8.ofNat components.length + 2).toNat by omega)]
  rfl

theorem readMask_eq_iff {mask : UInt8} {octets : List UInt8}
    (defined : ipv4MaskOctets mask = some octets) :
    0 + readMask mask = mask ↔ mask ∈ [8, 16, 24, 32] := by
  have all : ∀ n : Fin 256, (ipv4MaskOctets (UInt8.ofFin n)).isSome = true →
      (0 + readMask (UInt8.ofFin n) = UInt8.ofFin n ↔ UInt8.ofFin n ∈ [8, 16, 24, 32]) := by
    decide +kernel
  exact all mask.toFin (isSome_iff_exists.mpr ⟨octets, defined⟩)

theorem ipv4MaskOctets_isSome {mask : UInt8} (octetMask : mask ∈ [8, 16, 24, 32]) :
    (ipv4MaskOctets mask).isSome = true := by
  have all : ∀ mask ∈ ([8, 16, 24, 32] : List UInt8), (ipv4MaskOctets mask).isSome = true := by
    decide +kernel
  exact all mask octetMask

theorem mask_defined (v4 : f.v4 ≠ 0) {v4Type v6Type mask : UInt8} {ip octets : List UInt8}
    (written : addressOctets f v4Type v6Type ip mask = some octets) :
    ∃ maskOctets, ipv4MaskOctets mask = some maskOctets := by
  simp only [addressOctets, if_pos v4, map_eq_some_iff] at written
  obtain ⟨maskOctets, defined, -⟩ := written
  exact ⟨maskOctets, defined⟩

theorem preserved_readFilter_iff {id : Nat} {precedence : UInt32}
    (written : filterComponents f = some components) :
    Preserved f (readFilter id precedence f) ↔ f.Exact := by
  rw [filterComponents_eq] at written
  simp only [bind_eq_some_iff] at written
  obtain ⟨src, srcWritten, remote, remoteWritten, -⟩ := written
  rw [SdfPktFltr.exact_iff_sides]
  by_cases v4 : f.v4 ≠ 0
  · obtain ⟨_, srcDefined⟩ := mask_defined v4 srcWritten
    obtain ⟨_, remoteDefined⟩ := mask_defined v4 remoteWritten
    constructor
    · intro preserved
      have localMask := preserved.localMask
      have remoteMask := preserved.remoteMask
      simp only [readFilter, remoteAddress, srcAddress, if_pos v4] at localMask remoteMask
      have localPorts := preserved.localPorts.2
      have remotePorts := preserved.remotePorts.2
      simp only [readFilter, remoteAddress, srcAddress, if_pos v4] at localPorts remotePorts
      exact ⟨⟨localPorts, fun _ => (readMask_eq_iff srcDefined).mp localMask⟩,
        ⟨remotePorts, fun _ => (readMask_eq_iff remoteDefined).mp remoteMask⟩⟩
    · rintro ⟨⟨srcPorts, srcMask⟩, ⟨destPorts, destMask⟩⟩
      simp only [readFilter, remoteAddress, srcAddress, if_pos v4]
      exact {
        direction := rfl
        protocol := rfl
        localPorts := ⟨rfl, srcPorts⟩
        remotePorts := ⟨rfl, destPorts⟩
        localMask := (readMask_eq_iff srcDefined).mpr (srcMask v4)
        remoteMask := (readMask_eq_iff remoteDefined).mpr (destMask v4)
        addresses := by simp [v4, TadPktFltr.zero] }
  · constructor
    · intro preserved
      have localPorts := preserved.localPorts.2
      have remotePorts := preserved.remotePorts.2
      simp only [readFilter, remoteAddress, srcAddress, if_neg v4] at localPorts remotePorts
      exact ⟨⟨localPorts, fun h => absurd h v4⟩, ⟨remotePorts, fun h => absurd h v4⟩⟩
    · rintro ⟨⟨srcPorts, -⟩, ⟨destPorts, -⟩⟩
      simp only [readFilter, remoteAddress, srcAddress, if_neg v4]
      exact {
        direction := rfl
        protocol := rfl
        localPorts := ⟨rfl, srcPorts⟩
        remotePorts := ⟨rfl, destPorts⟩
        localMask := rfl
        remoteMask := rfl
        addresses := by simp [v4, TadPktFltr.zero] }

theorem filterComponents_isSome (exact : f.Exact) :
    ∃ components, filterComponents f = some components := by
  have defined : ∀ (side : FlowSide) (v4Type v6Type : UInt8), side.Exact f →
      ∃ octets, addressOctets f v4Type v6Type side.ip side.mask = some octets := by
    intro side v4Type v6Type sideExact
    unfold addressOctets
    split
    · next v4 =>
        obtain ⟨octets, eq⟩ := isSome_iff_exists.mp (ipv4MaskOctets_isSome (sideExact.2 v4))
        exact ⟨_, by rw [eq, map_some]⟩
    · split <;> exact ⟨_, rfl⟩
  obtain ⟨srcExact, destExact⟩ := f.exact_iff_sides.mp exact
  obtain ⟨src, srcWritten⟩ :=
    defined f.srcSide tftIpv4SrcAddrType tftIpv6SrcAddrPrefixLenType srcExact
  obtain ⟨remote, remoteWritten⟩ :=
    defined f.destSide tftIpv4RemoteAddrType tftIpv6RemoteAddrPrefixLenType destExact
  exact ⟨_, by rw [filterComponents_eq, srcWritten, bind_some, remoteWritten,
    bind_some]⟩

end

end Epc.Cp

import Epc.Up.UserData

/-! Well-formed frames with a GTP-U message, as they come from the wire. -/

namespace Epc.Up.Gtpu

open Epc.Lib PktMbuf

def octets16 (n : Nat) : List UInt8 :=
  [UInt8.ofNat (n / 256), UInt8.ofNat n]

@[simp]
theorem length_octets16 (n : Nat) : (octets16 n).length = 2 := rfl

variable {m : PktMbuf} {offset : Nat}

theorem hasAt_octets16 {n : Nat} :
    m.HasAt offset (octets16 n) ↔
      m.byte offset = UInt8.ofNat (n / 256) ∧ m.byte (offset + 1) = UInt8.ofNat n := by
  rw [octets16, hasAt_cons, hasAt_cons]
  simp

theorem octets16_value {n : Nat} (has : m.HasAt offset (octets16 n))
    (fits : n < 65536) : 256 * (m.byte offset).toNat + (m.byte (offset + 1)).toNat = n := by
  obtain ⟨high, low⟩ := hasAt_octets16.mp has
  rw [high, low, UInt8.toNat_ofNat', UInt8.toNat_ofNat']
  omega

/-- A hop-by-hop, routing, destination options or fragment header. The second octet is the length,
reserved in a fragment header. -/
structure Ipv6Ext where
  type : UInt8
  second : UInt8
  content : List UInt8
  known : type = ipprotoHopopts ∨ type = ipprotoRouting ∨ type = ipprotoDstopts ∨
    type = ipprotoFragment
  sized : content.length + 2 = if type = ipprotoFragment then 8 else (second.toNat + 1) * 8

def ipv6Next : List Ipv6Ext → UInt8
  | [] => ipprotoUdp
  | ext :: _ => ext.type

def ipv6Octets : List Ipv6Ext → List UInt8
  | [] => []
  | ext :: exts => [ipv6Next exts, ext.second] ++ ext.content ++ ipv6Octets exts

structure Ipv4Header where
  typeOfService : UInt8
  packetId : Vector UInt8 2
  fragment : Vector UInt8 2
  timeToLive : UInt8
  checksum : Vector UInt8 2
  src : Vector UInt8 4
  dst : Vector UInt8 4

structure Ipv6Header where
  version : UInt8
  flow : Vector UInt8 3
  hopLimit : UInt8
  src : Vector UInt8 16
  dst : Vector UInt8 16
  version6 : version &&& versionFlagCheck = 0x60

inductive IpHeader where
  | v4 (header : Ipv4Header)
  | v6 (header : Ipv6Header) (exts : List Ipv6Ext)

def IpHeader.withLength (len : Nat) : IpHeader → List UInt8
  | v4 h =>
    [0x45, h.typeOfService] ++ octets16 len ++ h.packetId.toList ++ h.fragment.toList ++
      [h.timeToLive, ipprotoUdp] ++ h.checksum.toList ++ h.src.toList ++ h.dst.toList
  | v6 h exts =>
    [h.version] ++ h.flow.toList ++ octets16 len ++ [ipv6Next exts, h.hopLimit] ++
      h.src.toList ++ h.dst.toList ++ ipv6Octets exts

def IpHeader.covering (payload : Nat) : IpHeader → Nat
  | v4 _ => ipv4HdrSize + payload
  | v6 _ exts => (ipv6Octets exts).length + payload

def IpHeader.length : IpHeader → Nat
  | v4 _ => ipv4HdrSize
  | v6 _ exts => ipv6HdrSize + (ipv6Octets exts).length

@[simp]
theorem IpHeader.length_withLength (ip : IpHeader) (len : Nat) :
    (ip.withLength len).length = ip.length := by
  cases ip <;> simp [withLength, length, ipv4HdrSize, ipv6HdrSize]
  omega

theorem hasAt_ipv4 {len : Nat} {h : Ipv4Header} :
    m.HasAt offset ((IpHeader.v4 h).withLength len) ↔
      m.byte offset = 0x45 ∧ m.byte (offset + 1) = h.typeOfService ∧
        m.HasAt (offset + 2) (octets16 len) ∧
        m.HasAt (offset + 4) h.packetId.toList ∧ m.HasAt (offset + 6) h.fragment.toList ∧
        m.byte (offset + 8) = h.timeToLive ∧ m.byte (offset + 9) = ipprotoUdp ∧
        m.HasAt (offset + 10) h.checksum.toList ∧ m.HasAt (offset + 12) h.src.toList ∧
        m.HasAt (offset + 16) h.dst.toList := by
  simp [IpHeader.withLength, hasAt_append, hasAt_cons, Nat.add_assoc]

theorem hasAt_ipv6 {len : Nat} {h : Ipv6Header} {exts : List Ipv6Ext} :
    m.HasAt offset ((IpHeader.v6 h exts).withLength len) ↔
      m.byte offset = h.version ∧ m.HasAt (offset + 1) h.flow.toList ∧
        m.HasAt (offset + 4) (octets16 len) ∧
        m.byte (offset + 6) = ipv6Next exts ∧ m.byte (offset + 7) = h.hopLimit ∧
        m.HasAt (offset + 8) h.src.toList ∧ m.HasAt (offset + 24) h.dst.toList ∧
        m.HasAt (offset + 40) (ipv6Octets exts) := by
  simp [IpHeader.withLength, hasAt_append, hasAt_cons, Nat.add_assoc]

structure UdpHeader where
  src : Vector UInt8 2
  dst : Vector UInt8 2
  checksum : Vector UInt8 2

def UdpHeader.withLength (udp : UdpHeader) (len : Nat) : List UInt8 :=
  udp.src.toList ++ udp.dst.toList ++ octets16 len ++ udp.checksum.toList

@[simp]
theorem UdpHeader.length_withLength (udp : UdpHeader) (len : Nat) :
    (udp.withLength len).length = udpHdrSize := by
  simp [withLength, udpHdrSize]

structure Outer where
  dstMac : Vector UInt8 6
  srcMac : Vector UInt8 6
  etherType : Vector UInt8 2
  ip : IpHeader
  udp : UdpHeader

def Outer.withLengths (o : Outer) (ipLen udpLen : Nat) : List UInt8 :=
  o.dstMac.toList ++ o.srcMac.toList ++ o.etherType.toList ++ o.ip.withLength ipLen ++
    o.udp.withLength udpLen

def Outer.octets (o : Outer) (message : List UInt8) : List UInt8 :=
  o.withLengths (o.ip.covering (udpHdrSize + message.length)) (udpHdrSize + message.length) ++
    message

def Outer.gtpu (o : Outer) : Nat :=
  ethHdrSize + o.ip.length + udpHdrSize

section

variable {o : Outer} {ipLen udpLen : Nat} {message : List UInt8} {m : PktMbuf}

@[simp]
theorem Outer.length_withLengths (o : Outer) (ipLen udpLen : Nat) :
    (o.withLengths ipLen udpLen).length = o.gtpu := by
  simp [withLengths, gtpu, ethHdrSize]
  omega

theorem Outer.length_octets (o : Outer) (message : List UInt8) :
    (o.octets message).length = o.gtpu + message.length := by
  rw [octets, List.length_append, length_withLengths]

theorem Outer.hasAt_message (has : m.HasAt 0 (o.withLengths ipLen udpLen ++ message)) :
    m.HasAt o.gtpu message := by
  have last := (hasAt_append.mp has).2
  rwa [length_withLengths, Nat.zero_add] at last

theorem Outer.hasAt_ip (has : m.HasAt 0 (o.withLengths ipLen udpLen)) :
    m.HasAt ethHdrSize (o.ip.withLength ipLen) := by
  have last := (hasAt_append.mp (hasAt_append.mp has).1).2
  have start : 0 + (o.dstMac.toList ++ o.srcMac.toList ++ o.etherType.toList).length =
      ethHdrSize := by
    simp [ethHdrSize]
  rwa [start] at last

end

/-- An extension header of GTP-U; its length octet counts words of four octets. -/
structure GtpuExt where
  type : UInt8
  words : UInt8
  content : List UInt8
  named : type ≠ 0
  sized : content.length + 2 = 4 * words.toNat

def gtpuNext : List GtpuExt → UInt8
  | [] => 0
  | ext :: _ => ext.type

def gtpuOctets : List GtpuExt → List UInt8
  | [] => []
  | ext :: exts => [ext.words] ++ ext.content ++ [gtpuNext exts] ++ gtpuOctets exts

/-- A G-PDU. The optional part is there when a flag is set; those fields count whose flag is set. -/
structure Gpdu where
  e : Bool
  s : Bool
  pn : Bool
  teid : Vector UInt8 4
  sequence : Vector UInt8 2
  npduNumber : UInt8
  unused : UInt8
  exts : List GtpuExt
  tpdu : List UInt8
  noExts : e = false → exts = []

def Gpdu.flags (g : Gpdu) : UInt8 :=
  0x30 ||| (if g.e then extensionHdrBit else 0) ||| (if g.s then seqNoBit else 0) |||
    if g.pn then pduNoBit else 0

def Gpdu.optional (g : Gpdu) : List UInt8 :=
  if g.e ∨ g.s ∨ g.pn then
    g.sequence.toList ++ [g.npduNumber, if g.e then gtpuNext g.exts else g.unused]
  else []

def Gpdu.content (g : Gpdu) : List UInt8 :=
  g.optional ++ gtpuOctets g.exts ++ g.tpdu

def Gpdu.octets (g : Gpdu) : List UInt8 :=
  [g.flags, 0xff] ++ octets16 g.content.length ++ g.teid.toList ++ g.content

def Gpdu.headerLen (g : Gpdu) : Nat :=
  gtpHdrSize + g.optional.length + (gtpuOctets g.exts).length

theorem Gpdu.length_octets (g : Gpdu) : g.octets.length = g.headerLen + g.tpdu.length := by
  simp [octets, content, headerLen, gtpHdrSize]
  omega

theorem Gpdu.length_optional (g : Gpdu) : g.optional.length = if g.e ∨ g.s ∨ g.pn then 4 else 0 := by
  unfold optional
  split <;> simp

theorem Gpdu.flags_bits (g : Gpdu) :
    (g.flags &&& extensionHdrBit ≠ 0 ↔ g.e = true) ∧ (g.flags &&& seqNoBit ≠ 0 ↔ g.s = true) ∧
      (g.flags &&& pduNoBit ≠ 0 ↔ g.pn = true) := by
  unfold flags
  cases g.e <;> cases g.s <;> cases g.pn <;> decide

theorem Gpdu.hasAt_flags {g : Gpdu} (has : m.HasAt offset g.octets) : m.byte offset = g.flags := by
  exact (hasAt_cons.mp
    (hasAt_append.mp (hasAt_append.mp (hasAt_append.mp has).1).1).1).1

theorem Gpdu.hasAt_tpdu {g : Gpdu} (has : m.HasAt offset g.octets) :
    m.HasAt (offset + g.headerLen) g.tpdu := by
  rw [octets, content, ← List.append_assoc, ← List.append_assoc] at has
  have last := (hasAt_append.mp has).2
  have start : ([g.flags, 0xff] ++ octets16 (g.optional ++ gtpuOctets g.exts ++ g.tpdu).length ++
      g.teid.toList ++ g.optional ++ gtpuOctets g.exts).length = g.headerLen := by
    simp [headerLen, gtpHdrSize]
    omega
  rwa [start] at last

structure GpduFrame where
  outer : Outer
  gpdu : Gpdu
  fits : outer.ip.covering (udpHdrSize + gpdu.octets.length) < 65536

def GpduFrame.octets (f : GpduFrame) : List UInt8 :=
  f.outer.octets f.gpdu.octets

def GpduFrame.tpduAt (f : GpduFrame) : Nat :=
  f.outer.gtpu + f.gpdu.headerLen

theorem GpduFrame.length_octets (f : GpduFrame) : f.octets.length = f.tpduAt + f.gpdu.tpdu.length := by
  rw [octets, Outer.length_octets, Gpdu.length_octets, tpduAt, Nat.add_assoc]

theorem GpduFrame.hasAt_gpdu {f : GpduFrame} (has : m.HasAt 0 f.octets) :
    m.HasAt f.outer.gtpu f.gpdu.octets :=
  Outer.hasAt_message has

def exampleOuter : Outer where
  dstMac := #v[2, 0, 0, 0, 0, 2]
  srcMac := #v[2, 0, 0, 0, 0, 1]
  etherType := #v[0x08, 0x00]
  ip := .v4 {
    typeOfService := 0
    packetId := #v[0, 0]
    fragment := #v[0, 0]
    timeToLive := 64
    checksum := #v[0, 0]
    src := #v[10, 0, 0, 1]
    dst := #v[10, 0, 0, 2] }
  udp := { src := #v[0x08, 0x68], dst := #v[0x08, 0x68], checksum := #v[0, 0] }

def exampleFrame (e s pn : Bool) : GpduFrame where
  outer := exampleOuter
  gpdu := {
    e, s, pn
    teid := #v[0, 0, 0, 1]
    sequence := #v[0, 0]
    npduNumber := 0
    unused := 0
    exts := []
    tpdu := [0xab]
    noExts := fun _ => rfl }
  fits := by
    have small (g : Gpdu) (noExts : g.exts = []) (one : g.tpdu.length = 1) :
        g.octets.length ≤ 13 := by
      rw [Gpdu.length_octets, Gpdu.headerLen, Gpdu.length_optional, noExts, one]
      split <;> decide
    exact Nat.lt_of_le_of_lt (Nat.add_le_add_left (Nat.add_le_add_left (small _ rfl rfl) _) _)
      (by decide)

end Epc.Up.Gtpu

import Epc.Lib.Bytes
import Epc.Lib.Datagram
import Epc.Lib.Stream

/-! The packets of lawful interception between the gateways and D-DF: `create_li_header`
(`cp_dp_api/vepc_cp_dp_api.c`) builds them, `TCPDataProcessor` (`ulpc/d_df/src/TCPDataProcessor.cpp`)
takes them from the stream and makes the frames that are stored and sent on. Both sides run on
little-endian machines. What is received of the packets that were built. -/

namespace Epc.Ddf

open Epc.Lib Epc.Lib.Bytes

section

/-- `struct ip_addr`: the union by its `iptype`. -/
inductive IpAddr where
  | ipv4 (addr : UInt32)
  | ipv6 (addr : Vector UInt8 16)
  deriving DecidableEq, Repr

namespace IpAddr

def iptype : IpAddr → UInt8
  | ipv4 _ => 0
  | ipv6 _ => 1

/-- What the header has for an address of the other family. -/
def ipv4Addr : IpAddr → UInt32
  | ipv4 addr => addr
  | ipv6 _ => 0

def ipv6Addr : IpAddr → Vector UInt8 16
  | ipv4 _ => .replicate 16 0
  | ipv6 addr => addr

end IpAddr

structure LiHeader where
  packetLen : UInt32
  typeOfPayload : UInt8
  id : UInt64
  imsi : UInt64
  srcIpType : UInt8
  srcIpv4 : UInt32
  srcIpv6 : Vector UInt8 16
  srcPort : UInt16
  dstIpType : UInt8
  dstIpv4 : UInt32
  dstIpv6 : Vector UInt8 16
  dstPort : UInt16
  operationMode : UInt8
  seqNo : UInt32
  len : UInt32
  deriving DecidableEq, Repr

def encodeLiHeader (header : LiHeader) : List UInt8 :=
  store32 (htonl header.packetLen) ++
  ([header.typeOfPayload] ++
  (store64 header.id ++
  (store64 header.imsi ++
  ([header.srcIpType] ++
  (store32 (htonl header.srcIpv4) ++
  (header.srcIpv6.toList ++
  (store16 (htons header.srcPort) ++
  ([header.dstIpType] ++
  (store32 (htonl header.dstIpv4) ++
  (header.dstIpv6.toList ++
  (store16 (htons header.dstPort) ++
  ([header.operationMode] ++
  (store32 (htonl header.seqNo) ++
  store32 (htonl header.len))))))))))))))

structure LiRequest where
  uiPayload : List UInt8
  type : UInt8
  uiId : UInt64
  uiImsi : UInt64
  srcIp : IpAddr
  dstIp : IpAddr
  uiSrcPort : UInt16
  uiDstPort : UInt16
  uiOprMode : UInt8
  deriving DecidableEq, Repr

def maxLiHdrSize : Nat := 2048

/-- The header's size in `packet_len`: both addresses of both families, then the others. -/
def liHdrSize : UInt32 :=
  4 + 16 + 4 + 16 + (4 + 1 + 4 + 8 + 8 + 1 + 1 + 2 + 2 + 1 + 4)

def liHeader (request : LiRequest) (liSeqNo : UInt32) : LiHeader where
  packetLen := liHdrSize + .ofNat request.uiPayload.length
  typeOfPayload := if request.type ≠ 0 then 1 else 0
  id := request.uiId
  imsi := request.uiImsi
  srcIpType := request.srcIp.iptype
  srcIpv4 := request.srcIp.ipv4Addr
  srcIpv6 := request.srcIp.ipv6Addr
  srcPort := request.uiSrcPort
  dstIpType := request.dstIp.iptype
  dstIpv4 := request.dstIp.ipv4Addr
  dstIpv6 := request.dstIp.ipv6Addr
  dstPort := request.uiDstPort
  operationMode := request.uiOprMode
  seqNo := liSeqNo
  len := .ofNat request.uiPayload.length

/-- The packet replaces the payload, the sequence number counts up. A payload too large for the copy
is written past its end. -/
def createLiHeader (request : LiRequest) (liSeqNo : UInt32) : Option (List UInt8 × UInt32) :=
  if request.uiPayload.length ≤ maxLiHdrSize then
    some (encodeLiHeader (liHeader request liSeqNo) ++ request.uiPayload, liSeqNo + 1)
  else none

end

section

/-- `DdfPacket`, with the bytes behind the header. -/
structure DdfPacket where
  packetLength : UInt32
  typeOfPayload : UInt8
  liIdentifier : UInt64
  imsiNumber : UInt64
  srcIpType : UInt8
  sourceIpAddress : UInt32
  srcIpv6 : List UInt8
  sourcePort : UInt16
  dstIpType : UInt8
  destIpAddress : UInt32
  dstIpv6 : List UInt8
  destPort : UInt16
  operationMode : UInt8
  sequenceNumber : UInt32
  dataLength : UInt32
  data : List UInt8
  deriving DecidableEq, Repr

/-- The buffer as a `DdfPacket` without padding; a buffer shorter than the header is read past its
end. -/
def DdfPacket.ofBuffer (buffer : List UInt8) : Option DdfPacket := do
  let (packetLength, buffer) ← field 4 buffer
  let (typeOfPayload, buffer) ← field 1 buffer
  let (liIdentifier, buffer) ← field 8 buffer
  let (imsiNumber, buffer) ← field 8 buffer
  let (srcIpType, buffer) ← field 1 buffer
  let (sourceIpAddress, buffer) ← field 4 buffer
  let (srcIpv6, buffer) ← field 16 buffer
  let (sourcePort, buffer) ← field 2 buffer
  let (dstIpType, buffer) ← field 1 buffer
  let (destIpAddress, buffer) ← field 4 buffer
  let (dstIpv6, buffer) ← field 16 buffer
  let (destPort, buffer) ← field 2 buffer
  let (operationMode, buffer) ← field 1 buffer
  let (sequenceNumber, buffer) ← field 4 buffer
  let (dataLength, data) ← field 4 buffer
  some
    { packetLength := load32 packetLength
      typeOfPayload := load8 typeOfPayload
      liIdentifier := load64 liIdentifier
      imsiNumber := load64 imsiNumber
      srcIpType := load8 srcIpType
      sourceIpAddress := load32 sourceIpAddress
      srcIpv6
      sourcePort := load16 sourcePort
      dstIpType := load8 dstIpType
      destIpAddress := load32 destIpAddress
      dstIpv6
      destPort := load16 destPort
      operationMode := load8 operationMode
      sequenceNumber := load32 sequenceNumber
      dataLength := load32 dataLength
      data }

/-- The conversions at the start of `processPacket`. -/
def DdfPacket.toHost (packet : DdfPacket) : DdfPacket :=
  { packet with
    packetLength := ntohl packet.packetLength
    sourceIpAddress := ntohl packet.sourceIpAddress
    sourcePort := ntohs packet.sourcePort
    destIpAddress := ntohl packet.destIpAddress
    destPort := ntohs packet.destPort
    sequenceNumber := ntohl packet.sequenceNumber
    dataLength := ntohl packet.dataLength }

inductive DModule where
  | ddf2
  | ddf3
  deriving DecidableEq, Repr

def sizeEtherHeader : Nat := 14
def sizeIphdr : Nat := 20
def sizeIpv6hdr : Nat := 40
def sizeUdphdr : Nat := 8

def etherHeader (etherType : UInt16) : List UInt8 :=
  List.replicate 12 0 ++ store16 (htons etherType)

/-- `struct iphdr`; version and header length share the first byte. -/
def iphdr (packet : DdfPacket) (iLen : UInt16) : List UInt8 :=
  [4 * 16 + 5] ++ ([0] ++ (store16 (htons (iLen - .ofNat sizeEtherHeader)) ++ (store16 0 ++ (store16 0 ++
    ([64] ++ ([17] ++ (store16 0 ++ (store32 packet.sourceIpAddress ++ store32 packet.destIpAddress))))))))

/-- `struct ipv6hdr`; version and priority share the first byte. -/
def ipv6hdr (packet : DdfPacket) (iLen : UInt16) : List UInt8 :=
  [6 * 16 + 0] ++ ([0, 0, 0] ++ (store16 (htons (iLen - .ofNat sizeEtherHeader - .ofNat sizeIpv6hdr)) ++
    ([17] ++ ([64] ++ (packet.srcIpv6 ++ packet.dstIpv6)))))

def udphdr (packet : DdfPacket) (len check : UInt16) : List UInt8 :=
  store16 (htons packet.sourcePort) ++ (store16 (htons packet.destPort) ++
    (store16 (htons len) ++ store16 check))

/-- The length of a frame with an IP header of `sizeIp` bytes. -/
def DdfPacket.iLen (packet : DdfPacket) (sizeIp : Nat) : UInt16 :=
  packet.dataLength.toUInt16 + .ofNat sizeEtherHeader + .ofNat sizeUdphdr + .ofNat sizeIp

/-- The frame around a payload, with the length that is allocated for it. -/
def DdfPacket.frame (packet : DdfPacket) (payload : List UInt8) : UInt16 × List UInt8 :=
  if packet.srcIpType = 0 ∧ packet.dstIpType = 0 then
    let iLen := packet.iLen sizeIphdr
    (iLen, etherHeader 0x0800 ++ (iphdr packet iLen ++
      (udphdr packet (iLen - .ofNat sizeEtherHeader - .ofNat sizeIphdr) 0 ++ payload)))
  else
    let iLen := packet.iLen sizeIpv6hdr
    (iLen, etherHeader 0x86DD ++ (ipv6hdr packet iLen ++
      (udphdr packet (iLen - .ofNat sizeEtherHeader - .ofNat sizeIpv6hdr) 1 ++ payload)))

/-- `createPacket`: `none` for a read or write out of bounds, `some none` if there is nothing to
store. -/
def createPacket (module : DModule) (packet : DdfPacket) : Option (Option (List UInt8)) :=
  let payload := packet.data.take packet.dataLength.toNat
  if packet.typeOfPayload = 1 ∧ module = .ddf2 then
    if packet.dataLength.toNat ≤ packet.data.length ∧
        (packet.frame payload).2.length ≤ (packet.frame payload).1.toNat then
      some (some (packet.frame payload).2)
    else none
  else if packet.typeOfPayload = 0 then
    if packet.dataLength.toNat ≤ packet.data.length then some (some payload) else none
  else some none

/-- A gateway's connection: the calls of `processPacket`, the acknowledgements, the frames dumped by
IMSI and identifier, the packets for `sendPacketToDf`, and `sequence_numb`. -/
structure DataProcessor where
  calls : List DdfPacket := []
  acks : List (List UInt8) := []
  dumped : List ((UInt64 × UInt64) × List UInt8) := []
  forwarded : List (List UInt8) := []
  sequenceNumb : UInt32 := 1
  deriving DecidableEq, Repr

def ackPacket (sequenceNumber : UInt32) : List UInt8 :=
  [6, 0xee] ++ store32 (htonl sequenceNumber)

def dfPacket (packet : DdfPacket) (sequenceNumb : UInt32) (frame : List UInt8) : List UInt8 :=
  store32 (htonl (.ofNat (28 + frame.length))) ++ (store32 (htonl sequenceNumb) ++
    (store64 packet.liIdentifier ++ (store64 packet.imsiNumber ++
      (store32 (htonl (.ofNat frame.length)) ++ frame))))

/-- `processPacket` behind the conversions. -/
def processPacket (module : DModule) (s : DataProcessor) (packet : DdfPacket) : Option DataProcessor :=
  (createPacket module packet).map fun frame =>
    let dumps := packet.operationMode = 1 ∨ packet.operationMode = 3
    let forwards := packet.operationMode = 2 ∨ packet.operationMode = 3
    { calls := s.calls ++ [packet]
      acks := s.acks ++ [ackPacket packet.sequenceNumber]
      dumped :=
        if dumps then
          s.dumped ++ (frame.map fun frame => ((packet.imsiNumber, packet.liIdentifier), frame)).toList
        else s.dumped
      forwarded :=
        if forwards then
          s.forwarded ++ (frame.map fun frame => dfPacket packet s.sequenceNumb frame).toList
        else s.forwarded
      sequenceNumb :=
        if forwards ∧ frame.isSome then s.sequenceNumb + 1 else s.sequenceNumb }

/-- A round of `onReceive`: whether there is a packet. A length negative as an `Int` is not waited
for but cannot be read. -/
def peekPacket (pending : List UInt8) : Stream.Look UInt8 DdfPacket :=
  if pending.length < 4 then .short
  else
    let packetLength := ntohl (load32 (pending.take 4))
    if 2 ^ 31 ≤ packetLength.toNat then .bad
    else if pending.length < packetLength.toNat then .short
    else
      match DdfPacket.ofBuffer (pending.take packetLength.toNat) with
      | none => .bad
      | some packet => .message packet.toHost (pending.drop packetLength.toNat)

/-- The calls of `onReceive`, with what arrived before each. -/
def onReceive (module : DModule) (arrived : List (List UInt8)) (s : DataProcessor) :
    Option (List UInt8 × DataProcessor) :=
  Stream.deliver peekPacket (processPacket module) arrived [] s

end

open Epc.Lib.Udp List

def maxPayload : Nat := 1900

def received (request : LiRequest) (seqNo : UInt32) : DdfPacket where
  packetLength := liHdrSize + .ofNat request.uiPayload.length
  typeOfPayload := if request.type ≠ 0 then 1 else 0
  liIdentifier := request.uiId
  imsiNumber := request.uiImsi
  srcIpType := request.srcIp.iptype
  sourceIpAddress := request.srcIp.ipv4Addr
  srcIpv6 := request.srcIp.ipv6Addr.toList
  sourcePort := request.uiSrcPort
  dstIpType := request.dstIp.iptype
  destIpAddress := request.dstIp.ipv4Addr
  dstIpv6 := request.dstIp.ipv6Addr.toList
  destPort := request.uiDstPort
  operationMode := request.uiOprMode
  sequenceNumber := seqNo
  dataLength := .ofNat request.uiPayload.length
  data := request.uiPayload

def IpAddr.octets : IpAddr → List UInt8
  | ipv4 addr => store32 addr
  | ipv6 addr => addr.toList

def LiRequest.datagram (request : LiRequest) : Datagram where
  src := request.srcIp.octets
  dst := request.dstIp.octets
  srcPort := request.uiSrcPort
  dstPort := request.uiDstPort
  payload := request.uiPayload

theorem length_encodeLiHeader (header : LiHeader) : (encodeLiHeader header).length = 76 := by
  simp [encodeLiHeader]

theorem ofBuffer_encodeLiHeader (header : LiHeader) (data : List UInt8) :
    DdfPacket.ofBuffer (encodeLiHeader header ++ data) =
      some
        { packetLength := htonl header.packetLen
          typeOfPayload := header.typeOfPayload
          liIdentifier := header.id
          imsiNumber := header.imsi
          srcIpType := header.srcIpType
          sourceIpAddress := htonl header.srcIpv4
          srcIpv6 := header.srcIpv6.toList
          sourcePort := htons header.srcPort
          dstIpType := header.dstIpType
          destIpAddress := htonl header.dstIpv4
          dstIpv6 := header.dstIpv6.toList
          destPort := htons header.dstPort
          operationMode := header.operationMode
          sequenceNumber := htonl header.seqNo
          dataLength := htonl header.len
          data } := by
  simp only [DdfPacket.ofBuffer, encodeLiHeader, append_assoc, field_bind, length_store16,
    length_store32, length_store64, length_singleton, Vector.length_toList]
  simp [load8]

section

def packetBytes (packet : LiRequest × UInt32) : List UInt8 :=
  encodeLiHeader (liHeader packet.1 packet.2) ++ packet.1.uiPayload

theorem length_packetBytes (packet : LiRequest × UInt32) :
    (packetBytes packet).length = 76 + packet.1.uiPayload.length := by
  rw [packetBytes, length_append, length_encodeLiHeader]

variable {packet : LiRequest × UInt32} (small : packet.1.uiPayload.length ≤ maxPayload)

include small

theorem createLiHeader_packetBytes :
    createLiHeader packet.1 packet.2 = some (packetBytes packet, packet.2 + 1) :=
  if_pos (small.trans (by decide))

theorem toNat_packetLen :
    (liHdrSize + .ofNat packet.1.uiPayload.length : UInt32).toNat = 76 + packet.1.uiPayload.length := by
  have header : liHdrSize.toNat = 76 := by decide
  rw [maxPayload] at small
  rw [UInt32.toNat_add, header, UInt32.toNat_ofNat']
  omega

theorem packetLength_take (front missing : List UInt8) (four : 4 ≤ front.length)
    (whole : front ++ missing = packetBytes packet) :
    (ntohl (load32 (front.take 4))).toNat = 76 + packet.1.uiPayload.length := by
  have same : front.take 4 = (packetBytes packet).take 4 := by
    rw [← whole, take_append_of_le_length four]
  have first : (packetBytes packet).take 4 = store32 (htonl (liHeader packet.1 packet.2).packetLen) := by
    rw [packetBytes, encodeLiHeader, append_assoc, take_left' (length_store32 _)]
  rw [same, first, load32_store32, ntohl_htonl]
  exact toNat_packetLen small

theorem peekPacket_whole (rest : List UInt8) :
    peekPacket (packetBytes packet ++ rest) = .message (received packet.1 packet.2) rest := by
  have length := length_packetBytes packet
  have four : 4 ≤ (packetBytes packet).length := by omega
  have packetLength : (ntohl (load32 ((packetBytes packet ++ rest).take 4))).toNat =
      (packetBytes packet).length := by
    rw [take_append_of_le_length four, length]
    exact packetLength_take small _ [] four (append_nil _)
  rw [maxPayload] at small
  rw [peekPacket, if_neg (by rw [length_append]; omega)]
  dsimp only
  rw [packetLength, if_neg (by omega), if_neg (by rw [length_append]; omega), take_left,
    drop_left, packetBytes, ofBuffer_encodeLiHeader]
  simp only [DdfPacket.toHost, ntohl_htonl, ntohs_htons]
  rfl

theorem peekPacket_part (front missing : List UInt8) (whole : front ++ missing = packetBytes packet)
    (more : missing ≠ []) : peekPacket front = .short := by
  have length := length_packetBytes packet
  have pos := length_pos_iff.mpr more
  rw [← whole, length_append] at length
  rw [peekPacket]
  by_cases four : front.length < 4
  · exact if_pos four
  · have packetLength := packetLength_take small front missing (Nat.not_lt.mp four) whole
    rw [maxPayload] at small
    rw [if_neg four]
    dsimp only
    rw [packetLength, if_neg (by omega), if_pos (by omega)]

end

theorem framing_peekPacket :
    Stream.Framing peekPacket (fun packet : LiRequest × UInt32 => packet.1.uiPayload.length ≤ maxPayload)
      packetBytes (fun packet => received packet.1 packet.2) where
  empty := rfl
  nonempty := fun packet _ none => by
    have length := length_packetBytes packet
    rw [none, length_nil] at length
    omega
  whole := fun _ small => peekPacket_whole small
  part := fun _ small => peekPacket_part small

section

variable (packet : DdfPacket)

theorem length_udphdr (len check : UInt16) : (udphdr packet len check).length = 8 := by
  simp [udphdr]

theorem readUdp_udphdr (src dst payload : List UInt8) (len check : UInt16)
    (total : len.toNat = 8 + payload.length) :
    readUdp src dst (udphdr packet len check ++ payload) =
      some
        { src, dst, payload
          srcPort := packet.sourcePort
          dstPort := packet.destPort } := by
  have length : (udphdr packet len check ++ payload).length = len.toNat := by
    rw [total, length_append, length_udphdr]
  rw [readUdp, length, udphdr]
  simp [field_append]

theorem length_iphdr (iLen : UInt16) : (iphdr packet iLen).length = 20 := by
  simp [iphdr]

theorem readIpv4_iphdr (iLen : UInt16) (rest : List UInt8)
    (total : (iLen - .ofNat sizeEtherHeader).toNat = 20 + rest.length) :
    readIpv4 (iphdr packet iLen ++ rest) =
      readUdp (store32 packet.sourceIpAddress) (store32 packet.destIpAddress) rest := by
  have length : (iphdr packet iLen ++ rest).length = 20 + rest.length := by
    rw [length_append, length_iphdr]
  rw [readIpv4, length, iphdr]
  simp only [append_assoc, field_bind, length_store16, length_store32, length_singleton,
    load16_store16, ntohs_htons]
  exact if_pos ⟨rfl, total, rfl⟩

theorem length_ipv6hdr (iLen : UInt16) (src : packet.srcIpv6.length = 16)
    (dst : packet.dstIpv6.length = 16) : (ipv6hdr packet iLen).length = 40 := by
  simp [ipv6hdr, src, dst]

theorem readIpv6_ipv6hdr (iLen : UInt16) (rest : List UInt8) (src : packet.srcIpv6.length = 16)
    (dst : packet.dstIpv6.length = 16)
    (total : (iLen - .ofNat sizeEtherHeader - .ofNat sizeIpv6hdr).toNat = rest.length) :
    readIpv6 (ipv6hdr packet iLen ++ rest) = readUdp packet.srcIpv6 packet.dstIpv6 rest := by
  have label : ([0, 0, 0] : List UInt8).length = 3 := rfl
  simp only [readIpv6, ipv6hdr, append_assoc, field_bind, label, length_store16, length_singleton,
    src, dst, load16_store16, ntohs_htons]
  exact if_pos ⟨rfl, total, rfl⟩

theorem readFrame_etherHeader (etherType : UInt16) (rest : List UInt8) :
    readFrame (etherHeader etherType ++ rest) =
      if etherType = 0x0800 then readIpv4 rest else if etherType = 0x86DD then readIpv6 rest else none := by
  simp only [readFrame, etherHeader, append_assoc, field_bind, length_replicate, length_store16,
    load16_store16, ntohs_htons]

end

section

variable {request : LiRequest} (seqNo : UInt32) (small : request.uiPayload.length ≤ maxPayload)

include small

theorem toNat_dataLength : (received request seqNo).dataLength.toNat = request.uiPayload.length := by
  change (UInt32.ofNat request.uiPayload.length).toNat = _
  rw [maxPayload] at small
  rw [UInt32.toNat_ofNat']
  omega

theorem take_data : (received request seqNo).data.take (received request seqNo).dataLength.toNat =
    request.uiPayload := by
  rw [toNat_dataLength seqNo small]
  exact take_length

section

variable (sizeIp : Nat) (fits : sizeIp ≤ 40)

include sizeIp fits

theorem toNat_iLen :
    ((received request seqNo).iLen sizeIp).toNat = 14 + (sizeIp + (8 + request.uiPayload.length)) := by
  rw [maxPayload] at small
  simp only [DdfPacket.iLen, UInt16.toNat_add, UInt32.toNat_toUInt16, toNat_dataLength seqNo small,
    UInt16.toNat_ofNat', sizeEtherHeader, sizeUdphdr]
  omega

theorem toNat_iLen_ip :
    ((received request seqNo).iLen sizeIp - .ofNat sizeEtherHeader).toNat =
      sizeIp + (8 + request.uiPayload.length) := by
  have iLen := toNat_iLen seqNo small sizeIp fits
  rw [UInt16.toNat_sub_of_le, iLen]
  · simp [sizeEtherHeader]
  · rw [UInt16.le_iff_toNat_le, iLen]
    simp [sizeEtherHeader]

theorem toNat_iLen_udp :
    ((received request seqNo).iLen sizeIp - .ofNat sizeEtherHeader - .ofNat sizeIp).toNat =
      8 + request.uiPayload.length := by
  have iLen := toNat_iLen_ip seqNo small sizeIp fits
  have size : (UInt16.ofNat sizeIp).toNat = sizeIp := by
    rw [UInt16.toNat_ofNat']
    omega
  rw [UInt16.toNat_sub_of_le, iLen, size]
  · omega
  · rw [UInt16.le_iff_toNat_le, iLen, size]
    omega

end

theorem length_frame :
    ((received request seqNo).frame request.uiPayload).2.length =
      ((received request seqNo).frame request.uiPayload).1.toNat := by
  rw [DdfPacket.frame]
  split
  · dsimp only
    rw [toNat_iLen seqNo small sizeIphdr (by decide)]
    rw [length_append, length_append, length_append, length_iphdr, length_udphdr]
    rfl
  · have header := length_ipv6hdr (received request seqNo) ((received request seqNo).iLen sizeIpv6hdr)
      Vector.length_toList Vector.length_toList
    rw [toNat_iLen seqNo small sizeIpv6hdr (by decide)]
    rw [length_append, length_append, length_append, header, length_udphdr]
    rfl

theorem createPacket_event (event : request.type ≠ 0) :
    createPacket .ddf2 (received request seqNo) =
      some (some ((received request seqNo).frame request.uiPayload).2) := by
  have type : (received request seqNo).typeOfPayload = 1 := if_pos event
  rw [createPacket, if_pos ⟨type, rfl⟩, take_data seqNo small]
  exact if_pos ⟨(toNat_dataLength seqNo small).le, (length_frame seqNo small).le⟩

theorem createPacket_total (module : DModule) :
    ∃ frame, createPacket module (received request seqNo) = some frame := by
  by_cases event : request.type = 0
  · have type : (received request seqNo).typeOfPayload = 0 := if_neg (not_not.mpr event)
    refine ⟨some request.uiPayload, ?_⟩
    rw [createPacket, type, if_neg (fun both => absurd both.1 (by decide)), if_pos rfl, take_data seqNo small]
    exact if_pos (toNat_dataLength seqNo small).le
  · cases module with
    | ddf2 => exact ⟨_, createPacket_event seqNo small event⟩
    | ddf3 =>
      have type : (received request seqNo).typeOfPayload = 1 := if_pos event
      refine ⟨none, ?_⟩
      rw [createPacket, type, if_neg (fun both => nomatch both.2), if_neg (by decide)]

theorem readFrame_frame (family : request.srcIp.iptype = request.dstIp.iptype) :
    readFrame ((received request seqNo).frame request.uiPayload).2 = some request.datagram := by
  cases src : request.srcIp with
  | ipv4 a =>
    cases dst : request.dstIp with
    | ipv6 b =>
      rw [src, dst] at family
      exact absurd family (by simp [IpAddr.iptype])
    | ipv4 b =>
      have both : (received request seqNo).srcIpType = 0 ∧ (received request seqNo).dstIpType = 0 := by
        simp [received, src, dst, IpAddr.iptype]
      have udp := toNat_iLen_udp seqNo small sizeIphdr (by decide)
      have length := toNat_iLen_ip seqNo small sizeIphdr (by decide)
      rw [DdfPacket.frame, if_pos both, readFrame_etherHeader, if_pos rfl, readIpv4_iphdr,
        readUdp_udphdr _ _ _ _ _ _ udp]
      · simp [received, LiRequest.datagram, src, dst, IpAddr.octets, IpAddr.ipv4Addr]
      · rw [length, length_append, length_udphdr]
        rfl
  | ipv6 a =>
    cases dst : request.dstIp with
    | ipv4 b =>
      rw [src, dst] at family
      exact absurd family (by simp [IpAddr.iptype])
    | ipv6 b =>
      have other : ¬((received request seqNo).srcIpType = 0 ∧ (received request seqNo).dstIpType = 0) := by
        simp [received, src, dst, IpAddr.iptype]
      have udp := toNat_iLen_udp seqNo small sizeIpv6hdr (by decide)
      rw [DdfPacket.frame, if_neg other, readFrame_etherHeader, if_neg (by decide), if_pos rfl,
        readIpv6_ipv6hdr _ _ _ Vector.length_toList Vector.length_toList,
        readUdp_udphdr _ _ _ _ _ _ udp]
      · simp [received, LiRequest.datagram, src, dst, IpAddr.octets, IpAddr.ipv6Addr]
      · rw [udp, length_append, length_udphdr]

end

theorem calls_processPacket {module : DModule} {s s' : DataProcessor} {packet : DdfPacket}
    (done : processPacket module s packet = some s') : s'.calls = s.calls ++ [packet] := by
  obtain ⟨frame, -, rfl⟩ := Option.map_eq_some_iff.mp done
  rfl

theorem processPackets (module : DModule) (packets : List (LiRequest × UInt32))
    (small : ∀ packet ∈ packets, packet.1.uiPayload.length ≤ maxPayload) (s : DataProcessor) :
    ∃ s', (packets.map fun packet => received packet.1 packet.2).foldlM (processPacket module) s = some s' ∧
      s'.calls = s.calls ++ packets.map fun packet => received packet.1 packet.2 := by
  induction packets generalizing s with
  | nil => exact ⟨s, rfl, (append_nil _).symm⟩
  | cons packet packets ih =>
    obtain ⟨first, others⟩ := forall_mem_cons.mp small
    obtain ⟨frame, made⟩ := createPacket_total packet.2 first module
    obtain ⟨s₁, done⟩ : ∃ s₁, processPacket module s (received packet.1 packet.2) = some s₁ := by
      rw [processPacket, made]
      exact ⟨_, rfl⟩
    obtain ⟨s', rest, calls⟩ := ih others s₁
    refine ⟨s', ?_, ?_⟩
    · rw [map_cons, foldlM_cons, done]
      exact rest
    · rw [calls, calls_processPacket done, map_cons, append_assoc, singleton_append]

theorem mapM_createLiHeader (packets : List (LiRequest × UInt32))
    (small : ∀ packet ∈ packets, packet.1.uiPayload.length ≤ maxPayload) :
    packets.mapM (fun packet => (createLiHeader packet.1 packet.2).map Prod.fst) =
      some (packets.map packetBytes) := by
  induction packets with
  | nil => rfl
  | cons packet packets ih =>
    obtain ⟨first, others⟩ := forall_mem_cons.mp small
    rw [mapM_cons, ih others, createLiHeader_packetBytes first]
    rfl

/-- However the stream is cut, each packet is processed once and in order, with what it was built
from; an event's frame holds its datagram. -/
theorem onReceive_packets (module : DModule) (packets : List (LiRequest × UInt32))
    (small : ∀ packet ∈ packets, packet.1.uiPayload.length ≤ maxPayload) :
    ∃ built, packets.mapM (fun packet => (createLiHeader packet.1 packet.2).map Prod.fst) = some built ∧
      (∀ (pieces : List (List UInt8)) (s : DataProcessor), pieces.flatten = built.flatten →
        ∃ s', onReceive module pieces s = some ([], s') ∧
          s'.calls = s.calls ++ packets.map fun packet => received packet.1 packet.2) ∧
      ∀ packet ∈ packets, packet.1.type ≠ 0 → packet.1.srcIp.iptype = packet.1.dstIp.iptype →
        ∃ frame, createPacket .ddf2 (received packet.1 packet.2) = some (some frame) ∧
          readFrame frame = some packet.1.datagram := by
  refine ⟨packets.map packetBytes, mapM_createLiHeader packets small, fun pieces s stream => ?_,
    fun packet member event family => ?_⟩
  · obtain ⟨s', done, calls⟩ := processPackets module packets small s
    have arrived : [] ++ pieces.flatten = packets.flatMap packetBytes := stream
    refine ⟨s', ?_, calls⟩
    rw [onReceive, framing_peekPacket.deliver_stream _ pieces packets small [] arrived, done]
    · rfl
    · rintro rfl
      cases packets with
      | nil => rfl
      | cons packet packets =>
        have none := (append_eq_nil_iff.mp arrived.symm).1
        exact absurd none (framing_peekPacket.nonempty packet (small packet mem_cons_self))
  · exact ⟨_, createPacket_event packet.2 (small packet member) event,
      readFrame_frame packet.2 (small packet member) family⟩

def eventRequest : LiRequest where
  uiPayload := [1, 2, 3]
  type := 1
  uiId := 7
  uiImsi := 1234
  srcIp := .ipv4 0x0100007f
  dstIp := .ipv4 0x0200007f
  uiSrcPort := 8805
  uiDstPort := 8805
  uiOprMode := 3

def contentRequest : LiRequest where
  uiPayload := [4]
  type := 0
  uiId := 7
  uiImsi := 1234
  srcIp := .ipv6 (.replicate 16 1)
  dstIp := .ipv6 (.replicate 16 2)
  uiSrcPort := 2152
  uiDstPort := 2152
  uiOprMode := 2

def twoPackets : List (LiRequest × UInt32) :=
  [(eventRequest, 5), (contentRequest, 6)]

theorem onReceive_twoPackets :
    (∀ packet ∈ twoPackets, packet.1.uiPayload.length ≤ maxPayload) ∧
      ∃ built, twoPackets.mapM (fun packet => (createLiHeader packet.1 packet.2).map Prod.fst) =
          some built ∧
        (∀ (pieces : List (List UInt8)) (s : DataProcessor), pieces.flatten = built.flatten →
          ∃ s', onReceive .ddf2 pieces s = some ([], s') ∧
            s'.calls = s.calls ++ twoPackets.map fun packet => received packet.1 packet.2) ∧
        ∀ packet ∈ twoPackets, packet.1.type ≠ 0 → packet.1.srcIp.iptype = packet.1.dstIp.iptype →
          ∃ frame, createPacket .ddf2 (received packet.1 packet.2) = some (some frame) ∧
            readFrame frame = some packet.1.datagram := by
  have small : ∀ packet ∈ twoPackets, packet.1.uiPayload.length ≤ maxPayload := by
    decide
  exact ⟨small, onReceive_packets .ddf2 twoPackets small⟩

end Epc.Ddf

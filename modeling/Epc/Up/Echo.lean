import Epc.Lib.Bytes
import Epc.Up.Proof.GpduFrame
import Epc.Up.UserData

/-! The reply to a GTP-U Echo Request, made in the packet of the request (`dp/gtpu_echo.c`):
`process_echo_request` with `set_recovery`, `reset_req_pkt_as_resp` and `set_checksum`. When the response
is right. -/

namespace Epc.Up.Gtpu

open Epc.Lib Epc.Lib.Bytes

def gtpuEchoRequest : UInt8 := 1
def gtpuEchoResponse : UInt8 := 2
def gtpuEchoRecovery : UInt8 := 14

def recoveryIeSize : Nat := 2

/-- The checksum functions, of the packet with zero in the checksum. -/
structure RteCksum where
  ipv4 : PktMbuf → UInt16
  ipv4Udptcp : PktMbuf → UInt16
  ipv6Udptcp : PktMbuf → UInt16

/-- The offsets of the headers; the flag is `ip_type == IPV6_TYPE`. -/
def echoUdp (ipv6 : Bool) : Nat :=
  ethHdrSize + if ipv6 then ipv6HdrSize else ipv4HdrSize

def echoGtpu (ipv6 : Bool) : Nat :=
  echoUdp ipv6 + udpHdrSize

/-- The length that `set_recovery` reads, in network order; for IPv6 the header's size is added as
it is. -/
def recoveryLen (m : PktMbuf) (ipv6 : Bool) : UInt16 :=
  if ipv6 then load16 (m.read (ethHdrSize + 4) 2) + UInt16.ofNat ipv6HdrSize
  else load16 (m.read (ethHdrSize + 2) 2)

/-- Room for the recovery IE at the end of the packet; none for an error. -/
def recoveryRoom (m : PktMbuf) (ipv6 : Bool) : Except PktMbuf PktMbuf :=
  let len := recoveryLen m ipv6
  let extraLen := UInt16.ofNat m.dataLen - (UInt16.ofNat ethHdrSize + ntohs len)
  if extraLen.toNat < recoveryIeSize then
    let m := (m.append (recoveryIeSize - extraLen.toNat)).getD m
    if UInt32.ofNat m.dataLen - (UInt32.ofNat ethHdrSize + len.toUInt32) < 2 then .error m
    else .ok m
  else .ok m

/-- The message becomes a response with a recovery IE behind what it had. -/
def writeRecovery (m : PktMbuf) (gtpu : Nat) : PktMbuf :=
  let msglen := ntohs (load16 (m.read (gtpu + 2) 2))
  let m := m.write (gtpu + 1) [gtpuEchoResponse]
  let m := m.write (gtpu + 2) (store16 (htons (msglen + UInt16.ofNat recoveryIeSize)))
  m.write (gtpu + gtpHdrSize + msglen.toNat) [gtpuEchoRecovery, 0]

/-- `set_recovery`: the packet with an error or without. -/
def setRecovery (m : PktMbuf) (ipv6 : Bool) : Except PktMbuf PktMbuf :=
  (recoveryRoom m ipv6).map fun m => writeRecovery m (echoGtpu ipv6)

/-- `reset_req_pkt_as_resp`: the lengths are those of the packet. -/
def resetReqPktAsResp (m : PktMbuf) (ipv6 : Bool) : PktMbuf :=
  let m := m.exchange 0 6 6
  let len := UInt16.ofNat m.dataLen - UInt16.ofNat ethHdrSize
  let udp := echoUdp ipv6
  let (m, len) :=
    if ipv6 then
      let len := len - UInt16.ofNat ipv6HdrSize
      let m := m.exchange (ethHdrSize + 8) (ethHdrSize + 24) 16
      (m.write (ethHdrSize + 4) (store16 (htons len)), len)
    else
      let m := m.exchange (ethHdrSize + 12) (ethHdrSize + 16) 4
      (m.write (ethHdrSize + 2) (store16 (htons len)), len - UInt16.ofNat ipv4HdrSize)
  let m := m.exchange udp (udp + 2) 2
  m.write (udp + 4) (store16 (htons len))

def setChecksum (cksum : RteCksum) (m : PktMbuf) (ipv6 : Bool) : PktMbuf :=
  let udp := echoUdp ipv6
  if ipv6 then
    let m := m.write (udp + 6) (store16 0)
    m.write (udp + 6) (store16 (cksum.ipv6Udptcp m))
  else
    let m := m.write (ethHdrSize + 10) (store16 0)
    let m := m.write (udp + 6) (store16 0)
    let m := m.write (udp + 6) (store16 (cksum.ipv4Udptcp m))
    m.write (ethHdrSize + 10) (store16 (cksum.ipv4 m))

def processEchoRequest (cksum : RteCksum) (m : PktMbuf) (ipv6 : Bool) : PktMbuf :=
  match setRecovery m ipv6 with
  | .error m => m
  | .ok m => setChecksum cksum (resetReqPktAsResp m ipv6) ipv6

open Outer
open List (reverse_cons reverse_nil nil_append cons_append length_append length_nil)

def IpHeader.OfType (ipv6 : Bool) : IpHeader → Prop
  | v4 _ => ipv6 = false
  | v6 _ exts => ipv6 = true ∧ exts = []

structure EchoRequest where
  outer : Outer
  flags : UInt8
  teid : Vector UInt8 4
  body : List UInt8
  padding : List UInt8

def EchoRequest.message (r : EchoRequest) : List UInt8 :=
  [r.flags, gtpuEchoRequest] ++ octets16 r.body.length ++ r.teid.toList ++ r.body

def EchoRequest.octets (r : EchoRequest) : List UInt8 :=
  r.outer.octets r.message ++ r.padding

def EchoRequest.response (r : EchoRequest) : List UInt8 :=
  [r.flags, gtpuEchoResponse] ++ octets16 (r.body.length + 2) ++ r.teid.toList ++ r.body ++
    [gtpuEchoRecovery, 0]

def IpHeader.answer (checksum : Vector UInt8 2) : IpHeader → IpHeader
  | v4 h => v4 { h with src := h.dst, dst := h.src, checksum }
  | v6 h exts => v6 { h with src := h.dst, dst := h.src } exts

def UdpHeader.answer (udp : UdpHeader) (checksum : Vector UInt8 2) : UdpHeader where
  src := udp.dst
  dst := udp.src
  checksum := checksum

def Outer.answer (o : Outer) (ipChecksum udpChecksum : Vector UInt8 2) : Outer where
  dstMac := o.srcMac
  srcMac := o.dstMac
  etherType := o.etherType
  ip := o.ip.answer ipChecksum
  udp := o.udp.answer udpChecksum

/-- The packet is the response to a request, with headers that cover it. -/
def Answers (m : PktMbuf) (r : EchoRequest) : Prop :=
  ∃ ipChecksum udpChecksum,
    m.HasAt 0 ((r.outer.answer ipChecksum udpChecksum).octets r.response) ∧
    ((r.outer.answer ipChecksum udpChecksum).octets r.response).length ≤ m.dataLen

section

theorem store16_htons_eq (x : UInt16) : store16 (htons x) = octets16 x.toNat := by
  rw [store16_htons]
  simp [store16, memory, octets16]

theorem octets16_mod (n : Nat) : octets16 (n % 65536) = octets16 n := by
  have high : UInt8.ofNat (n % 65536 / 256) = UInt8.ofNat (n / 256) := by
    apply UInt8.toNat_inj.mp
    rw [UInt8.toNat_ofNat', UInt8.toNat_ofNat']
    omega
  have low : UInt8.ofNat (n % 65536) = UInt8.ofNat n := by
    apply UInt8.toNat_inj.mp
    rw [UInt8.toNat_ofNat', UInt8.toNat_ofNat']
    omega
  rw [octets16, octets16, high, low]

theorem octets16_eq (n : Nat) : octets16 n = store16 (htons (UInt16.ofNat n)) := by
  rw [store16_htons_eq, UInt16.toNat_ofNat', octets16_mod]

theorem octets16_inj {n k : Nat} (nFits : n < 65536) (kFits : k < 65536)
    (same : octets16 n = octets16 k) : n = k := by
  have loaded := congrArg (fun octets => ntohs (load16 octets)) same
  simp only [octets16_eq, load16_store16, ntohs_htons] at loaded
  have values := congrArg UInt16.toNat loaded
  rwa [UInt16.toNat_ofNat_of_lt' nFits, UInt16.toNat_ofNat_of_lt' kFits] at values

theorem htons_toNat (x : UInt16) : (htons x).toNat = x.toNat % 256 * 256 + x.toNat / 256 := by
  have bound := x.toNat_lt
  have stored := congrArg value (store16_htons x)
  rw [store16, value_memory (htons x).toNat_lt] at stored
  rw [stored]
  simp only [store16, memory, reverse_cons, reverse_nil, nil_append,
    cons_append, value, UInt8.toNat_ofNat']
  omega

theorem word_sub {n k : Nat} (small : k ≤ n) : UInt16.ofNat n - UInt16.ofNat k = UInt16.ofNat (n - k) :=
  (UInt16.ofNat_sub small).symm

theorem exists_checksum (x : UInt16) : ∃ checksum : Vector UInt8 2, checksum.toList = store16 x :=
  ⟨⟨(store16 x).toArray, by simp⟩, by simp⟩

variable {m : PktMbuf} {offset n : Nat}

theorem load16_read (has : m.HasAt offset (octets16 n)) :
    load16 (m.read offset 2) = htons (UInt16.ofNat n) := by
  have read : m.read offset 2 = octets16 n := has.read
  rw [read, octets16_eq, load16_store16]

end

section

variable {o : Outer} {ipLen udpLen : Nat} {m : PktMbuf} {r : EchoRequest}

@[simp]
theorem writeRecovery_dataLen (gtpu : Nat) : (writeRecovery m gtpu).dataLen = m.dataLen := rfl

theorem writeRecovery_hasAt (has : m.HasAt 0 (o.withLengths ipLen udpLen ++ r.message))
    (fits : r.body.length + 2 < 65536) :
    (writeRecovery m o.gtpu).HasAt 0 (o.withLengths ipLen udpLen ++ r.response) := by
  have message := hasAt_message has
  have length : m.HasAt (o.gtpu + 2) (octets16 r.body.length) := by
    exact (PktMbuf.hasAt_append.mp
      (PktMbuf.hasAt_append.mp (PktMbuf.hasAt_append.mp message).1).1).2
  have msglen : ntohs (load16 (m.read (o.gtpu + 2) 2)) = UInt16.ofNat r.body.length := by
    rw [load16_read length, ntohs_htons]
  have longer : store16 (htons (UInt16.ofNat r.body.length + UInt16.ofNat recoveryIeSize)) =
      octets16 (r.body.length + 2) := by
    rw [octets16_eq, UInt16.ofNat_add]
    rfl
  have number : (UInt16.ofNat r.body.length).toNat = r.body.length :=
    UInt16.toNat_ofNat_of_lt' (show r.body.length < 65536 by omega)
  simp only [writeRecovery, msglen, longer, number]
  let headers := o.withLengths ipLen udpLen
  have typed : (m.write (o.gtpu + 1) [gtpuEchoResponse]).HasAt 0
      (headers ++ [r.flags, gtpuEchoResponse] ++ octets16 r.body.length ++ r.teid.toList ++
        r.body) :=
    has.replace (headers ++ [r.flags]) [gtpuEchoRequest] [gtpuEchoResponse]
      (octets16 r.body.length ++ r.teid.toList ++ r.body) (by simp [EchoRequest.message, headers])
      (by simp) rfl (by simp [headers])
  have sized : ((m.write (o.gtpu + 1) [gtpuEchoResponse]).write (o.gtpu + 2)
      (octets16 (r.body.length + 2))).HasAt 0
      (headers ++ [r.flags, gtpuEchoResponse] ++ octets16 (r.body.length + 2) ++
        (r.teid.toList ++ r.body)) :=
    typed.replace (headers ++ [r.flags, gtpuEchoResponse]) (octets16 r.body.length)
      (octets16 (r.body.length + 2)) (r.teid.toList ++ r.body) (by simp) rfl rfl
      (by simp [headers])
  have written := sized.extend [gtpuEchoRecovery, 0]
    (show o.gtpu + gtpHdrSize + r.body.length = _ by simp [headers, gtpHdrSize]; omega)
  simpa [EchoRequest.response, headers] using written

end

section

variable {o : Outer} {ipLen udpLen : Nat} {message : List UInt8} {m : PktMbuf}

def Outer.beforeUdp (o : Outer) (ipLen : Nat) : List UInt8 :=
  o.dstMac.toList ++ o.srcMac.toList ++ o.etherType.toList ++ o.ip.withLength ipLen

@[simp]
theorem Outer.length_beforeUdp (o : Outer) (ipLen : Nat) :
    (o.beforeUdp ipLen).length = ethHdrSize + o.ip.length := by
  simp [beforeUdp, ethHdrSize]
  omega

def Outer.eth (o : Outer) : List UInt8 :=
  o.dstMac.toList ++ o.srcMac.toList ++ o.etherType.toList

@[simp]
theorem Outer.length_eth (o : Outer) : o.eth.length = ethHdrSize := by
  simp [eth, ethHdrSize]

attribute [local simp] withLengths UdpHeader.withLength

variable (has : m.HasAt 0 (o.withLengths ipLen udpLen ++ message))

include has

theorem exchange_macs :
    (m.exchange 0 6 6).HasAt 0
      ({ o with dstMac := o.srcMac, srcMac := o.dstMac }.withLengths ipLen udpLen ++ message) :=
  has.swap [] o.dstMac.toList [] o.srcMac.toList
    (o.etherType.toList ++ o.ip.withLength ipLen ++ o.udp.withLength udpLen ++ message)
    (by simp) (by simp) (by simp) (by simp) rfl (by simp)

theorem exchange_ports :
    (m.exchange (ethHdrSize + o.ip.length) (ethHdrSize + o.ip.length + 2) 2).HasAt 0
      ({ o with udp := o.udp.answer o.udp.checksum }.withLengths ipLen udpLen ++ message) :=
  has.swap (o.beforeUdp ipLen) o.udp.src.toList [] o.udp.dst.toList
    (octets16 udpLen ++ o.udp.checksum.toList ++ message)
    (by simp [beforeUdp])
    (by simp [beforeUdp, UdpHeader.answer]) (by simp) (by simp) (by simp) (by simp)

theorem write_udpLen (len : Nat) :
    (m.write (ethHdrSize + o.ip.length + 4) (octets16 len)).HasAt 0
      (o.withLengths ipLen len ++ message) :=
  has.replace (o.beforeUdp ipLen ++ o.udp.src.toList ++ o.udp.dst.toList) (octets16 udpLen)
    (octets16 len) (o.udp.checksum.toList ++ message)
    (by simp [beforeUdp]) (by simp [beforeUdp]) rfl (by simp)

theorem write_udpChecksum (checksum : Vector UInt8 2) :
    (m.write (ethHdrSize + o.ip.length + 6) checksum.toList).HasAt 0
      ({ o with udp := { o.udp with checksum } }.withLengths ipLen udpLen ++ message) :=
  has.replace (o.beforeUdp ipLen ++ o.udp.src.toList ++ o.udp.dst.toList ++ octets16 udpLen)
    o.udp.checksum.toList checksum.toList message
    (by simp [beforeUdp]) (by simp [beforeUdp]) (by simp) (by simp)

attribute [local simp] IpHeader.withLength ipv6Octets

section

variable {h : Ipv4Header} (ip : o.ip = .v4 h)

include ip

theorem exchange_ipv4 :
    (m.exchange (ethHdrSize + 12) (ethHdrSize + 16) 4).HasAt 0
      ({ o with ip := .v4 { h with src := h.dst, dst := h.src } }.withLengths ipLen udpLen ++
        message) :=
  has.swap (o.eth ++ [0x45, h.typeOfService] ++ octets16 ipLen ++ h.packetId.toList ++
      h.fragment.toList ++ [h.timeToLive, ipprotoUdp] ++ h.checksum.toList)
    h.src.toList [] h.dst.toList (o.udp.withLength udpLen ++ message)
    (by simp [eth, ip]) (by simp [eth]) (by simp) (by simp) (by simp) (by simp)

theorem write_ipv4Len (len : Nat) :
    (m.write (ethHdrSize + 2) (octets16 len)).HasAt 0 (o.withLengths len udpLen ++ message) :=
  has.replace (o.eth ++ [0x45, h.typeOfService]) (octets16 ipLen) (octets16 len)
    (h.packetId.toList ++ h.fragment.toList ++ [h.timeToLive, ipprotoUdp] ++ h.checksum.toList ++
      h.src.toList ++ h.dst.toList ++ o.udp.withLength udpLen ++ message)
    (by simp [eth, ip]) (by simp [eth, ip]) rfl (by simp)

theorem write_ipv4Checksum (checksum : Vector UInt8 2) :
    (m.write (ethHdrSize + 10) checksum.toList).HasAt 0
      ({ o with ip := .v4 { h with checksum } }.withLengths ipLen udpLen ++ message) :=
  has.replace (o.eth ++ [0x45, h.typeOfService] ++ octets16 ipLen ++ h.packetId.toList ++
      h.fragment.toList ++ [h.timeToLive, ipprotoUdp]) h.checksum.toList checksum.toList
    (h.src.toList ++ h.dst.toList ++ o.udp.withLength udpLen ++ message)
    (by simp [eth, ip]) (by simp [eth]) (by simp) (by simp)

end

section

variable {h : Ipv6Header} (ip : o.ip = .v6 h [])

include ip

theorem exchange_ipv6 :
    (m.exchange (ethHdrSize + 8) (ethHdrSize + 24) 16).HasAt 0
      ({ o with ip := .v6 { h with src := h.dst, dst := h.src } [] }.withLengths ipLen udpLen ++
        message) :=
  has.swap (o.eth ++ [h.version] ++ h.flow.toList ++ octets16 ipLen ++
      [ipv6Next [], h.hopLimit]) h.src.toList [] h.dst.toList (o.udp.withLength udpLen ++ message)
    (by simp [eth, ip]) (by simp [eth]) (by simp) (by simp) (by simp) (by simp)

theorem write_ipv6Len (len : Nat) :
    (m.write (ethHdrSize + 4) (octets16 len)).HasAt 0 (o.withLengths len udpLen ++ message) :=
  has.replace (o.eth ++ [h.version] ++ h.flow.toList) (octets16 ipLen) (octets16 len)
    ([ipv6Next [], h.hopLimit] ++ h.src.toList ++ h.dst.toList ++ o.udp.withLength udpLen ++ message)
    (by simp [eth, ip]) (by simp [eth, ip]) rfl (by simp)

end

end

section

variable {o : Outer} {ipLen udpLen : Nat} {message : List UInt8} {m : PktMbuf} {ipv6 : Bool}

def IpHeader.ofPacket (dataLen : Nat) : IpHeader → Nat
  | v4 _ => dataLen - ethHdrSize
  | v6 _ _ => dataLen - ethHdrSize - ipv6HdrSize

@[simp]
theorem resetReqPktAsResp_dataLen : (resetReqPktAsResp m ipv6).dataLen = m.dataLen := by
  cases ipv6 <;> rfl

@[simp]
theorem setChecksum_dataLen (cksum : RteCksum) : (setChecksum cksum m ipv6).dataLen = m.dataLen := by
  cases ipv6 <;> rfl

theorem resetReqPktAsResp_hasAt (type : o.ip.OfType ipv6) (long : o.gtpu ≤ m.dataLen)
    (has : m.HasAt 0 (o.withLengths ipLen udpLen ++ message)) :
    ∃ checksum, (resetReqPktAsResp m ipv6).HasAt 0
      ((o.answer checksum o.udp.checksum).withLengths (o.ip.ofPacket m.dataLen)
        (m.dataLen - ethHdrSize - o.ip.length) ++ message) := by
  have macs := exchange_macs has
  rw [gtpu] at long
  have first : UInt16.ofNat m.dataLen - UInt16.ofNat ethHdrSize =
      UInt16.ofNat (m.dataLen - ethHdrSize) := word_sub (by omega)
  cases ip : o.ip with
  | v4 h =>
    rw [ip] at type
    obtain rfl : ipv6 = false := type
    rw [ip, IpHeader.length] at long
    have ipLens := write_ipv4Len (exchange_ipv4 macs ip) rfl (m.dataLen - ethHdrSize)
    have udpLens := write_udpLen (exchange_ports ipLens) (m.dataLen - ethHdrSize - ipv4HdrSize)
    have second : UInt16.ofNat (m.dataLen - ethHdrSize) - UInt16.ofNat ipv4HdrSize =
        UInt16.ofNat (m.dataLen - ethHdrSize - ipv4HdrSize) := word_sub (by omega)
    refine ⟨h.checksum, ?_⟩
    simp only [resetReqPktAsResp, PktMbuf.exchange_dataLen, Bool.false_eq_true, if_false, first,
      second, ← octets16_eq, answer, IpHeader.answer, ip]
    exact udpLens
  | v6 h exts =>
    rw [ip] at type
    obtain ⟨rfl, rfl⟩ := type
    rw [ip, IpHeader.length] at long
    have ipLens := write_ipv6Len (exchange_ipv6 macs ip) rfl
      (m.dataLen - ethHdrSize - ipv6HdrSize)
    have udpLens := write_udpLen (exchange_ports ipLens) (m.dataLen - ethHdrSize - ipv6HdrSize)
    have second : UInt16.ofNat (m.dataLen - ethHdrSize) - UInt16.ofNat ipv6HdrSize =
        UInt16.ofNat (m.dataLen - ethHdrSize - ipv6HdrSize) := word_sub (by omega)
    refine ⟨o.udp.checksum, ?_⟩
    simp only [resetReqPktAsResp, PktMbuf.exchange_dataLen, if_true, first, second, ← octets16_eq,
      answer, IpHeader.answer, ip]
    exact udpLens

theorem setChecksum_hasAt (cksum : RteCksum) {ipChecksum udpChecksum : Vector UInt8 2}
    (type : o.ip.OfType ipv6)
    (has : m.HasAt 0 ((o.answer ipChecksum udpChecksum).withLengths ipLen udpLen ++ message)) :
    ∃ ipChecksum udpChecksum, (setChecksum cksum m ipv6).HasAt 0
      ((o.answer ipChecksum udpChecksum).withLengths ipLen udpLen ++ message) := by
  obtain ⟨zero, isZero⟩ := exists_checksum 0
  cases ip : o.ip with
  | v4 h =>
    rw [ip] at type
    obtain rfl : ipv6 = false := type
    simp only [answer, IpHeader.answer, ip] at has ⊢
    have cleared := write_udpChecksum (write_ipv4Checksum has rfl zero) zero
    simp only [setChecksum, Bool.false_eq_true, if_false, ← isZero]
    obtain ⟨udp, isUdp⟩ := exists_checksum (cksum.ipv4Udptcp
      ((m.write (ethHdrSize + 10) zero.toList).write (echoUdp false + 6) zero.toList))
    rw [← isUdp]
    have udpSet := write_udpChecksum cleared udp
    obtain ⟨header, isHeader⟩ := exists_checksum (cksum.ipv4
      (((m.write (ethHdrSize + 10) zero.toList).write (echoUdp false + 6) zero.toList).write
        (echoUdp false + 6) udp.toList))
    rw [← isHeader]
    exact ⟨header, udp, write_ipv4Checksum udpSet rfl header⟩
  | v6 h exts =>
    rw [ip] at type
    obtain ⟨rfl, rfl⟩ := type
    simp only [answer, IpHeader.answer, ip] at has ⊢
    have cleared := write_udpChecksum has zero
    simp only [setChecksum, if_true, ← isZero]
    obtain ⟨udp, isUdp⟩ := exists_checksum (cksum.ipv6Udptcp
      (m.write (echoUdp true + 6) zero.toList))
    rw [← isUdp]
    exact ⟨ipChecksum, udp, write_udpChecksum cleared udp⟩

end

section

variable {r : EchoRequest} {m : PktMbuf} {ipv6 : Bool}

theorem gtpu_eq (type : r.outer.ip.OfType ipv6) : echoGtpu ipv6 = r.outer.gtpu := by
  rw [echoGtpu, echoUdp, gtpu]
  cases ip : r.outer.ip with
  | v4 h =>
    rw [ip] at type
    obtain rfl : ipv6 = false := type
    rfl
  | v6 h exts =>
    rw [ip] at type
    obtain ⟨rfl, rfl⟩ := type
    rfl

def IpHeader.lengthAt : IpHeader → Nat
  | v4 _ => ethHdrSize + 2
  | v6 _ _ => ethHdrSize + 4

theorem hasAt_ipLen {o : Outer} {ipLen udpLen : Nat} {message : List UInt8}
    (has : m.HasAt 0 (o.withLengths ipLen udpLen ++ message)) :
    m.HasAt o.ip.lengthAt (octets16 ipLen) := by
  have ipAt := hasAt_ip (PktMbuf.hasAt_append.mp has).1
  cases ip : o.ip with
  | v4 h =>
    rw [ip] at ipAt
    exact (hasAt_ipv4.mp ipAt).2.2.1
  | v6 h exts =>
    rw [ip] at ipAt
    exact (hasAt_ipv6.mp ipAt).2.2.1

theorem answer_lengthAt (ip : IpHeader) (checksum : Vector UInt8 2) :
    (ip.answer checksum).lengthAt = ip.lengthAt := by
  cases ip <;> rfl

theorem answer_covering (ip : IpHeader) (checksum : Vector UInt8 2) (payload : Nat) :
    (ip.answer checksum).covering payload = ip.covering payload := by
  cases ip <;> rfl

theorem answer_gtpu (o : Outer) (ipChecksum udpChecksum : Vector UInt8 2) :
    (o.answer ipChecksum udpChecksum).gtpu = o.gtpu := by
  obtain ⟨dstMac, srcMac, etherType, ip, udp⟩ := o
  cases ip <;> rfl

theorem Answers.hasAt_ipLen (answers : Answers m r) :
    m.HasAt r.outer.ip.lengthAt
      (octets16 (r.outer.ip.covering (udpHdrSize + r.response.length))) := by
  obtain ⟨ipChecksum, udpChecksum, has, -⟩ := answers
  have lengths := Gtpu.hasAt_ipLen has
  simp only [answer] at lengths
  rwa [answer_lengthAt, answer_covering] at lengths

theorem ofPacket_eq_covering_iff {dataLen : Nat} (long : r.outer.gtpu ≤ dataLen) (payload : Nat) :
    r.outer.ip.ofPacket dataLen = r.outer.ip.covering (udpHdrSize + payload) ↔
      dataLen = r.outer.gtpu + payload := by
  rw [gtpu] at long ⊢
  generalize r.outer.ip = ip at long ⊢
  cases ip
  all_goals
    simp only [IpHeader.ofPacket, IpHeader.covering, IpHeader.length] at long ⊢
    omega

theorem covering_lt {o : Outer} {payload : Nat} (room : o.gtpu + payload < 65536) :
    o.ip.covering (udpHdrSize + payload) < 65536 := by
  rw [gtpu] at room
  generalize o.ip = ip at room ⊢
  cases ip
  all_goals
    simp only [IpHeader.covering, IpHeader.length] at room ⊢
    omega

theorem length_response (r : EchoRequest) : r.response.length = r.message.length + 2 := by
  simp [EchoRequest.response, EchoRequest.message]
  omega

theorem answers_iff_dataLen (cksum : RteCksum) (type : r.outer.ip.OfType ipv6)
    (has : m.HasAt 0 (r.outer.octets r.message)) (long : r.outer.gtpu + r.message.length ≤ m.dataLen)
    (small : m.dataLen < 65536) (room : r.outer.gtpu + r.response.length < 65536) :
    Answers (setChecksum cksum
        (resetReqPktAsResp (writeRecovery m (echoGtpu ipv6)) ipv6) ipv6) r ↔
      m.dataLen = r.outer.gtpu + r.response.length := by
  have body : r.body.length + 2 < 65536 := by
    have size : r.message.length = 8 + r.body.length := by simp [EchoRequest.message]; omega
    omega
  have recovery := writeRecovery_hasAt has body
  rw [← gtpu_eq type] at recovery
  obtain ⟨_, reset⟩ := resetReqPktAsResp_hasAt (m := writeRecovery m (echoGtpu ipv6)) type
    (by rw [writeRecovery_dataLen]; omega) recovery
  obtain ⟨ipChecksum, udpChecksum, done⟩ := setChecksum_hasAt cksum type reset
  rw [writeRecovery_dataLen] at done
  have fields := ofPacket_eq_covering_iff (show r.outer.gtpu ≤ m.dataLen by omega)
    r.response.length
  constructor
  · intro answers
    have written := hasAt_ipLen done
    simp only [answer, answer_lengthAt] at written
    have same := written.unique answers.hasAt_ipLen rfl
    apply fields.mp
    apply octets16_inj _ _ same
    · cases ip : r.outer.ip <;> simp only [IpHeader.ofPacket] <;> omega
    · exact covering_lt room
  · intro exact_room
    refine ⟨ipChecksum, udpChecksum, ?_, ?_⟩
    · have udpLen : m.dataLen - ethHdrSize - r.outer.ip.length =
          udpHdrSize + r.response.length := by
        rw [exact_room, gtpu]
        omega
      rw [fields.mpr exact_room, udpLen] at done
      rw [octets, answer, answer_covering]
      exact done
    · rw [length_octets, answer_gtpu, setChecksum_dataLen, resetReqPktAsResp_dataLen,
        writeRecovery_dataLen, exact_room]

theorem swapped_ne {n : Nat} : n % 256 * 256 + n / 256 ≠ n + 1 ∧ n % 256 * 256 + n / 256 ≠ n + 2 := by
  constructor <;> omega

theorem swapped_add {n : Nat} (bound : n < 65536) {y : Nat}
    (added : y = (n % 256 * 256 + n / 256 + 40) % 65536) :
    y % 256 * 256 + y / 256 = n + 10240 ∨ y % 256 * 256 + y / 256 + 55295 = n ∨
      y % 256 * 256 + y / 256 + 55551 = n := by
  obtain ⟨high, low, highBound, lowBound, rfl⟩ :
      ∃ high low, high < 256 ∧ low < 256 ∧ n = 256 * high + low :=
    ⟨n / 256, n % 256, by omega, by omega, by omega⟩
  rw [show (256 * high + low) % 256 = low by omega, show (256 * high + low) / 256 = high by omega]
    at added
  by_cases carry : high + 40 < 256
  · left
    omega
  · by_cases last : low < 255
    · right; left
      omega
    · right; right
      omega

theorem recoveryRoom_cases (tailroom : m.dataOff + m.dataLen + 2 ≤ m.bufLen) (ipv6 : Bool) :
    ∃ m', (recoveryRoom m ipv6 = .ok m' ∨ recoveryRoom m ipv6 = .error m') ∧
      m'.byte = m.byte ∧ m.dataLen ≤ m'.dataLen ∧ m'.dataLen ≤ m.dataLen + 2 := by
  unfold recoveryRoom
  dsimp only
  split
  · next less =>
      have fits : m.dataOff + m.dataLen + (recoveryIeSize - (UInt16.ofNat m.dataLen -
          (UInt16.ofNat ethHdrSize + ntohs (recoveryLen m ipv6))).toNat) ≤ m.bufLen := by
        unfold recoveryIeSize
        omega
      obtain ⟨m', appended, off, len, memory⟩ := PktMbuf.append_of_le fits
      rw [appended, Option.getD_some]
      have byte : m'.byte = m.byte := by
        funext i
        rw [PktMbuf.byte, PktMbuf.byte, memory, off]
      unfold recoveryIeSize at len
      split
      · exact ⟨m', Or.inr rfl, byte, by omega, by omega⟩
      · exact ⟨m', Or.inl rfl, byte, by omega, by omega⟩
  · exact ⟨m, Or.inl rfl, rfl, Nat.le_refl _, Nat.le_add_right ..⟩

theorem recoveryRoom_ipv4 {total padding : Nat} (lengthAt : m.HasAt (ethHdrSize + 2) (octets16 total))
    (length : m.dataLen = ethHdrSize + total + padding) (small : m.dataLen < 65534)
    (tailroom : m.dataOff + m.dataLen + 2 ≤ m.bufLen) :
    ∃ m', recoveryRoom m false = .ok m' ∧ m'.byte = m.byte ∧
      m'.dataLen = ethHdrSize + total + max padding 2 := by
  have len : recoveryLen m false = htons (UInt16.ofNat total) := load16_read lengthAt
  have extra : UInt16.ofNat m.dataLen - (UInt16.ofNat ethHdrSize + ntohs (recoveryLen m false)) =
      UInt16.ofNat padding := by
    rw [len, ntohs_htons, ← UInt16.ofNat_add, word_sub (by omega), length, Nat.add_sub_cancel_left]
  have extraNat : (UInt16.ofNat padding).toNat = padding :=
    UInt16.toNat_ofNat_of_lt' (show padding < 65536 by omega)
  unfold recoveryRoom
  dsimp only
  rw [extra, extraNat]
  split
  · next less =>
      unfold recoveryIeSize at less ⊢
      have fits : m.dataOff + m.dataLen + (2 - padding) ≤ m.bufLen := by omega
      obtain ⟨m', appended, off, longer, memory⟩ := PktMbuf.append_of_le fits
      rw [appended, Option.getD_some]
      have enough : ¬ UInt32.ofNat m'.dataLen -
          (UInt32.ofNat ethHdrSize + (recoveryLen m false).toUInt32) < 2 := by
        have swapped := htons_toNat (UInt16.ofNat total)
        rw [UInt16.toNat_ofNat_of_lt' (show total < 65536 by omega), ← len] at swapped
        rw [UInt32.lt_iff_toNat_lt, UInt32.toNat_sub, UInt32.toNat_add, UInt32.toNat_ofNat',
          UInt32.toNat_ofNat', UInt16.toNat_toUInt32, swapped]
        change ¬ _ < 2
        have apart := @swapped_ne total
        generalize total % 256 * 256 + total / 256 = other at swapped apart ⊢
        have word := (recoveryLen m false).toNat_lt
        omega
      rw [if_neg enough]
      refine ⟨m', rfl, ?_, by omega⟩
      funext i
      rw [PktMbuf.byte, PktMbuf.byte, memory, off]
  · next enough =>
      unfold recoveryIeSize at enough
      exact ⟨m, rfl, rfl, by omega⟩

theorem recoveryRoom_ipv6 {payload padding : Nat} (lengthAt : m.HasAt (ethHdrSize + 4) (octets16 payload))
    (length : m.dataLen = ethHdrSize + ipv6HdrSize + payload + padding) (small : m.dataLen < 65536)
    (few : padding ≤ 2) : recoveryRoom m true = .ok m := by
  have len : recoveryLen m true = htons (UInt16.ofNat payload) + UInt16.ofNat ipv6HdrSize := by
    have loaded : load16 (m.read (ethHdrSize + 4) 2) = htons (UInt16.ofNat payload) :=
      load16_read lengthAt
    rw [recoveryLen, if_pos rfl, loaded]
  have enough : ¬ (UInt16.ofNat m.dataLen -
      (UInt16.ofNat ethHdrSize + ntohs (recoveryLen m true))).toNat < recoveryIeSize := by
    have bound : payload < 65536 := by omega
    have swapped := htons_toNat (UInt16.ofNat payload)
    rw [UInt16.toNat_ofNat_of_lt' bound] at swapped
    have back := htons_toNat (recoveryLen m true)
    rw [len, UInt16.toNat_add, swapped, UInt16.toNat_ofNat'] at back
    rw [len, UInt16.toNat_sub, UInt16.toNat_add, UInt16.toNat_ofNat', UInt16.toNat_ofNat', ntohs,
      back]
    unfold ethHdrSize ipv6HdrSize at length ⊢
    unfold recoveryIeSize
    have cases := swapped_add bound rfl
    generalize (payload % 256 * 256 + payload / 256 + 40) % 65536 = y at cases ⊢
    omega
  unfold recoveryRoom
  rw [if_neg enough]

theorem hasAt_of_byte {m' : PktMbuf} (same : m'.byte = m.byte) {offset : Nat} {octets : List UInt8}
    (has : m.HasAt offset octets) : m'.HasAt offset octets := by
  intro i bound
  rw [same]
  exact has i bound

theorem not_answers_of_request (room : r.outer.gtpu + r.response.length < 65536)
    (has : m.HasAt 0 (r.outer.octets r.message)) : ¬ Answers m r := by
  intro answers
  have two := length_response r
  have same := octets16_inj (covering_lt (by omega)) (covering_lt room)
    ((hasAt_ipLen has).unique answers.hasAt_ipLen rfl)
  cases ip : r.outer.ip
  all_goals
    rw [ip] at same
    simp only [IpHeader.covering] at same
    omega

end

/-- Over IPv4 the response is right up to two octets of padding, over IPv6 for exactly two. -/
theorem echo_answers_iff (cksum : RteCksum) (r : EchoRequest) (m : PktMbuf) (ipv6 : Bool)
    (type : r.outer.ip.OfType ipv6) (holds : m.Holds r.octets)
    (tailroom : m.dataOff + m.dataLen + 2 ≤ m.bufLen) (small : m.bufLen < 65536) :
    Answers (processEchoRequest cksum m ipv6) r ↔
      if ipv6 then r.padding.length = 2 else r.padding.length ≤ 2 := by
  have has := (PktMbuf.hasAt_append.mp holds.octets).1
  have length := holds.length
  rw [EchoRequest.octets, length_append, length_octets] at length
  have two := length_response r
  have room : r.outer.gtpu + r.response.length < 65536 := by omega
  have lengthAt := hasAt_ipLen has
  cases ip : r.outer.ip with
  | v4 h =>
    have isType := type
    rw [ip] at isType lengthAt
    obtain rfl : ipv6 = false := isType
    have gtpu : r.outer.gtpu = ethHdrSize + ipv4HdrSize + udpHdrSize := by
      rw [Outer.gtpu, ip, IpHeader.length]
    rw [IpHeader.covering] at lengthAt
    have total : m.dataLen = ethHdrSize + (ipv4HdrSize + (udpHdrSize + r.message.length)) +
        r.padding.length := by
      omega
    obtain ⟨m', made, byte, len⟩ := recoveryRoom_ipv4 lengthAt total (by omega) tailroom
    have answered := answers_iff_dataLen cksum type (hasAt_of_byte byte has) (by omega)
      (by omega) room
    simp only [processEchoRequest, setRecovery, made, Except.map, Bool.false_eq_true, if_false]
    rw [answered]
    omega
  | v6 h exts =>
    have isType := type
    rw [ip] at isType lengthAt
    obtain ⟨rfl, rfl⟩ := isType
    have gtpu : r.outer.gtpu = ethHdrSize + ipv6HdrSize + udpHdrSize := by
      rw [Outer.gtpu, ip, IpHeader.length]
      rfl
    simp only [if_true]
    by_cases few : r.padding.length ≤ 2
    · rw [IpHeader.covering, ipv6Octets, length_nil] at lengthAt
      have total : m.dataLen = ethHdrSize + ipv6HdrSize + (0 + (udpHdrSize + r.message.length)) +
          r.padding.length := by
        omega
      have made := recoveryRoom_ipv6 lengthAt total (by omega) few
      have answered := answers_iff_dataLen cksum type has (by omega) (by omega) room
      simp only [processEchoRequest, setRecovery, made, Except.map]
      rw [answered]
      omega
    · -- With more padding the lengths cover it, or the request is left as it is.
      obtain ⟨m', made | failed, byte, longer, bounded⟩ := recoveryRoom_cases tailroom true
      · have answered := answers_iff_dataLen cksum type (hasAt_of_byte byte has) (by omega)
          (by omega) room
        simp only [processEchoRequest, setRecovery, made, Except.map]
        rw [answered]
        omega
      · simp only [processEchoRequest, setRecovery, failed, Except.map]
        have request := not_answers_of_request room (hasAt_of_byte byte has)
        exact iff_of_false request fun two => few two.le

def exampleEcho (padding : List UInt8) : EchoRequest where
  outer := exampleOuter
  flags := 0x32
  teid := #v[0, 0, 0, 0]
  body := [0, 1, 0, 0]
  padding := padding

def zeroCksum : RteCksum where
  ipv4 _ := 0
  ipv4Udptcp _ := 0
  ipv6Udptcp _ := 0

theorem echo_ipv4_answered :
    Answers (processEchoRequest zeroCksum (.ofOctets (exampleEcho []).octets 0 2) false)
      (exampleEcho []) :=
  (echo_answers_iff zeroCksum (exampleEcho []) _ false rfl (PktMbuf.ofOctets_holds ..)
    (by decide) (by decide)).mpr (by decide)

def exampleEcho6 : EchoRequest :=
  { exampleEcho [] with
    outer := { exampleOuter with
      etherType := #v[0x86, 0xdd]
      ip := .v6 {
        version := 0x60
        flow := #v[0, 0, 0]
        hopLimit := 64
        src := #v[0xfd, 0, 0, 0, 0, 0, 0, 0, 0, 0, 0, 0, 0, 0, 0, 1]
        dst := #v[0xfd, 0, 0, 0, 0, 0, 0, 0, 0, 0, 0, 0, 0, 0, 0, 2]
        version6 := by decide } [] } }

/-- Over IPv6, without padding, the recovery IE is written behind the packet. Over IPv4, three
octets of padding count into the packet's length: 43 for a response of 42. -/
theorem echo_ipv6_not_answered :
    (¬ Answers (processEchoRequest zeroCksum (.ofOctets exampleEcho6.octets 0 2) true)
      exampleEcho6 ∧
      (processEchoRequest zeroCksum (.ofOctets exampleEcho6.octets 0 2) true).dataLen = 74) ∧
    (processEchoRequest zeroCksum (.ofOctets (exampleEcho [0, 0, 0]).octets 0 2) false).read 16 2 =
      [0, 43] := by
  refine ⟨⟨?_, by decide⟩, by decide⟩
  rintro ⟨ipChecksum, udpChecksum, -, inside⟩
  rw [length_octets, answer_gtpu] at inside
  exact absurd inside (by decide)

end Epc.Up.Gtpu

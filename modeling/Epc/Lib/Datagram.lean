import Epc.Lib.Bytes

/-! UDP datagrams in Ethernet frames, over IPv4 without options and over IPv6 without extension headers.
The reader checks types, versions and every length; checksums are left alone. -/

namespace Epc.Lib.Udp

open Epc.Lib.Bytes

/-- A datagram with the octets of its addresses in network order. -/
structure Datagram where
  src : List UInt8
  dst : List UInt8
  srcPort : UInt16
  dstPort : UInt16
  payload : List UInt8
  deriving DecidableEq, Repr

def readUdp (src dst bytes : List UInt8) : Option Datagram := do
  let (srcPort, rest) ← field 2 bytes
  let (dstPort, rest) ← field 2 rest
  let (len, rest) ← field 2 rest
  let (_, payload) ← field 2 rest
  if (ntohs (load16 len)).toNat = bytes.length then
    some
      { src, dst, payload
        srcPort := ntohs (load16 srcPort)
        dstPort := ntohs (load16 dstPort) }
  else none

def readIpv4 (bytes : List UInt8) : Option Datagram := do
  let (version, rest) ← field 1 bytes
  let (_, rest) ← field 1 rest
  let (totLen, rest) ← field 2 rest
  let (_, rest) ← field 2 rest
  let (_, rest) ← field 2 rest
  let (_, rest) ← field 1 rest
  let (protocol, rest) ← field 1 rest
  let (_, rest) ← field 2 rest
  let (src, rest) ← field 4 rest
  let (dst, rest) ← field 4 rest
  if load8 version = 0x45 ∧ (ntohs (load16 totLen)).toNat = bytes.length ∧ load8 protocol = 17 then
    readUdp src dst rest
  else none

def readIpv6 (bytes : List UInt8) : Option Datagram := do
  let (version, rest) ← field 1 bytes
  let (_, rest) ← field 3 rest
  let (payloadLen, rest) ← field 2 rest
  let (nextHeader, rest) ← field 1 rest
  let (_, rest) ← field 1 rest
  let (src, rest) ← field 16 rest
  let (dst, rest) ← field 16 rest
  if load8 version / 16 = 6 ∧ (ntohs (load16 payloadLen)).toNat = rest.length ∧ load8 nextHeader = 17 then
    readUdp src dst rest
  else none

def readFrame (bytes : List UInt8) : Option Datagram := do
  let (_, rest) ← field 12 bytes
  let (etherType, rest) ← field 2 rest
  if ntohs (load16 etherType) = 0x0800 then readIpv4 rest
  else if ntohs (load16 etherType) = 0x86DD then readIpv6 rest
  else none

end Epc.Lib.Udp
